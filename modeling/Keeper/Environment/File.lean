import Keeper.Environment.Basic
import Keeper.Environment.Binding
import Keeper.Files.Tree

/-!
# Keeper — environment files

An environment file adds variables to an environment, and never changes one that is there. Its
values may refer to variables, those of the environment before those of the file.

* **`expand`** — a value with its references replaced.
* **`bindings`** — what the names of a file are bound to.
* **`loadText`** — the environment with the variables of a file.
* **`complaints`** — what there is to say about a file.
* **`nearestFile?`** — the file that counts: the one nearest above the working directory.
-/

namespace Keeper.Environment

abbrev Lookup := Text → Option Text

/-- A reference at the head of a text, after its opening brace: the name, what stands for
it when it has no value, and the rest. -/
def reference? (t : List CodePoint) : Option (Text × Option Text × List CodePoint) :=
  let name := t.takeWhile fun p => !(p = .char '\x7d' || p = .char ':')
  match t.drop name.length with
  | .char '\x7d' :: rest => some (⟨name⟩, none, rest)
  | .char ':' :: .char '-' :: rest =>
    let default := rest.takeWhile (· != .char '\x7d')
    match rest.drop default.length with
    | _ :: rest => some (⟨name⟩, some ⟨default⟩, rest)
    | [] => none
  | _ => none

/-- Replaces references; `fuel` bounds the length of the text. -/
def expandFrom (look : Lookup) : Nat → List CodePoint → List CodePoint
  | 0, _ | _ + 1, [] => []
  | fuel + 1, p :: rest =>
    let next := match p, rest with
      | .char '$', .char '\x7b' :: rest => reference? rest
      | _, _ => none
    match next with
    | some (name, default, rest) =>
      ((look name).getD (default.getD "")).points ++ expandFrom look fuel rest
    | none => p :: expandFrom look fuel rest

def expand (look : Lookup) (value : Text) : Text := ⟨expandFrom look value.length value.points⟩

/-- The last binding of a name among those read so far, newest first; a name without a
value counts as empty. -/
def bound (bindings : List (Text × Option Text)) : Lookup := fun name =>
  (bindings.lookup name).map (·.getD "")

/-- The bindings of a file with references replaced, newest first. -/
def bindings (env : Environment) (statements : List (Nat × Statement)) :
    List (Text × Option Text) :=
  statements.foldl (fun found (_, s) =>
    match s with
    | .binding name value =>
      let look : Lookup := fun n => (env.get? n).or (bound found n)
      (name, value.map (expand look)) :: found
    | _ => found) []

/-- The names that are bound, in the order in which they first are. -/
def boundNames (bindings : List (Text × Option Text)) : List Text :=
  (bindings.reverse.map (·.1)).eraseDups

/-- Adds the variables of a file that have a value and are not there. -/
def loadText (env : Environment) (text : List Char) : Except Fault Environment :=
  let found := bindings env (statements text)
  (boundNames found).foldlM (fun env name =>
    match env.get? name, (found.lookup name).join with
    | none, some value => env.define name value
    | _, _ => .ok env) env

/-- The complaints about a file: the lines on which something unreadable begins. -/
def complaints (text : List Char) : List Text :=
  (statements text).filterMap fun (line, s) =>
    match s with
    | .unreadable =>
      some ("Python-dotenv could not parse statement starting at line " ++ toString line)
    | _ => none

def fileName : Text := ".env"

/-- The environment file nearest above the working directory. -/
def nearestFile? (files : Files.Tree) : Option Files.Path :=
  (files.here.upward.map (· ++ [fileName])).find? fun p =>
    match files.find? p with
    | some (.file _) => true
    | _ => false

/-- The text of the nearest environment file, if there is one. -/
def nearestText? (files : Files.Tree) : Except Fault (Option (List Char)) :=
  match nearestFile? files with
  | none => .ok none
  | some p => (files.text p.text).map some

end Keeper.Environment
