import Keeper.Fault
import Keeper.Text.Utf8

/-!
# Keeper — environments

The variables a program is started with. They keep the order in which they were first set.

* **`Environment.get?`** — the value of a variable.
* **`Environment.set`** — a variable with a new value, at its old place.
* **`Environment.define`** — the same for a name and a value that may not be acceptable.
-/

namespace Keeper

/-- Variables and their values, in the order in which they were first set. -/
abbrev Environment := List (Text × Text)

namespace Environment

def get? (env : Environment) (name : Text) : Option Text := env.lookup name

def set : Environment → Text → Text → Environment
  | [], name, value => [(name, value)]
  | (n, v) :: rest, name, value =>
    if n = name then (n, value) :: rest else (n, v) :: set rest name value

/-- An environment from settings, of which a later one wins. -/
def ofList (settings : List (Text × Text)) : Environment :=
  settings.foldl (fun env (name, value) => set env name value) []

def checkText (t : Text) : Except Fault Unit :=
  match Text.Utf8.systemBytes t with
  | .ok _ => .ok ()
  | .error gap => .error (.unencodable gap)

/-- Gives a variable a value, if there can be such a variable. -/
def define (env : Environment) (name value : Text) : Except Fault Environment := do
  checkText name
  checkText value
  if name.contains '\x00' || value.contains '\x00' then throw (.badValue .nullByte)
  if name.contains '=' then throw (.badValue .variableName)
  if name.isEmpty then throw (.misuse .badName)
  return env.set name value

end Environment

end Keeper
