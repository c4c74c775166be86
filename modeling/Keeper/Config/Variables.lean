import Keeper.Environment.Basic
import Keeper.Files.Path
import Keeper.Text.Case
import Keeper.Value.Conversion

/-!
# Keeper — configuration from the environment

A variable whose name begins with the program's mark gives a setting: two underscores in its name
lead one map deeper, and names are taken in lower case. A text in any layer that is nothing but a
reference to a variable stands for the value of the variable.

* **`Layer.namePath`** — the way to a setting, from the name of its variable.
* **`Layer.ofEnvironment`** — the layer the variables make.
* **`Layer.resolve`** — a value with the references in it resolved.
* **`Layer.checkReferences`** — fails if a reference is to what cannot be a variable.
-/

namespace Keeper.Layer

/-- What the names of the program's variables begin with. -/
def variableMark : Text := "SVCSYNC_"

/-- Splits at every two underscores, from the left. -/
def splitPath : List CodePoint → List (List CodePoint)
  | [] => [[]]
  | .char '_' :: .char '_' :: rest => [] :: splitPath rest
  | p :: rest =>
    match splitPath rest with
    | part :: parts => (p :: part) :: parts
    | [] => [[p]]

/-- The way to a setting: the rest of a variable's name in lower case, split. -/
def namePath (rest : Text) : List Text := (splitPath rest.lower.points).map Text.mk

/-- Writes a text at the end of a way, making maps as it goes. A text on the way is an
error. -/
def writeAt (fields : Fields) (text : Text) : List Text → Except Fault Fields
  | [] => .ok fields
  | [key] => .ok (Fields.set fields key (.text text))
  | key :: rest =>
    match Fields.get? fields key, rest with
    | none, _ => do return Fields.set fields key (.map (← writeAt [] text rest))
    | some (.map inner), _ => do return Fields.set fields key (.map (← writeAt inner text rest))
    | some _, [_] => Value.misused .wrongType
    | some _, _ => Value.misused .notAMap

/-- The layer of the variables whose names begin with a mark. -/
def ofEnvironment (env : Environment) (mark : Text := variableMark) : Except Fault Fields :=
  env.foldlM (fun fields (name, value) =>
    if name.startsWith mark then writeAt fields value (namePath (name.drop mark.length))
    else .ok fields) []

/-- The name of the variable a text refers to, if it is a reference. -/
def reference? (s : Text) : Option Text :=
  match s.points with
  | .char '$' :: .char '\x7b' :: rest =>
    if rest.getLast? = some '\x7d' then some ⟨rest.dropLast⟩ else none
  | _ => none

/-- What a text stands for: the value of the variable it refers to, or nothing if it has
none. -/
def resolveText (env : Environment) (s : Text) : Text :=
  match reference? s with
  | some name => (env.get? name).getD ""
  | none => s

mutual

def references : Value → List Text
  | .text s => (reference? s).toList
  | .map fields => referencesOfEntries fields
  | .list items => referencesOfItems items
  | _ => []

def referencesOfItems : List Value → List Text
  | [] => []
  | v :: rest => references v ++ referencesOfItems rest

def referencesOfEntries : List (Scalar × Value) → List Text
  | [] => []
  | (_, v) :: rest => references v ++ referencesOfEntries rest

end

/-- Fails if a value refers to a variable whose name cannot be known to the system. -/
def checkReferences (v : Value) : Except Fault Unit := (references v).forM Environment.checkText

mutual

def resolve (env : Environment) : Value → Value
  | .text s => .text (resolveText env s)
  | .map fields => .map (resolveEntries env fields)
  | .list items => .list (resolveItems env items)
  | v => v

def resolveItems (env : Environment) : List Value → List Value
  | [] => []
  | v :: rest => resolve env v :: resolveItems env rest

/-- A text in a map is resolved, and what it stands for is resolved once more. -/
def resolveEntries (env : Environment) : List (Scalar × Value) → Fields
  | [] => []
  | (k, .text s) :: rest => (k, .text (resolveText env (resolveText env s))) :: resolveEntries env rest
  | (k, v) :: rest => (k, resolve env v) :: resolveEntries env rest

end

end Keeper.Layer
