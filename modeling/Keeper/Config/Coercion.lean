import Keeper.Text.Blank
import Keeper.Text.Case
import Keeper.Value.Conversion

/-!
# Keeper — settings of a known kind

Some keys hold truth values and some hold integers, wherever they stand. The values of such a key
are converted; null stays null.

* **`Kind`**, **`kind?`** — the kind of a key.
* **`Layer.coerce`** — a value with the settings in it converted; the items of a list belong to the
  key of the list, the entries of a map to keys of their own.
-/

namespace Keeper

inductive Setting.Kind where
  | truth
  | integer
deriving DecidableEq, Repr

def Setting.truthNames : List Text := ["verify_tls", "dry_run"]

def Setting.integerNames : List Text := ["timeout_sec", "port", "target_port"]

def Setting.kind? : Scalar → Option Setting.Kind
  | .text name =>
    if truthNames.contains name then some .truth
    else if integerNames.contains name then some .integer
    else none
  | _ => none

namespace Layer

/-- The texts that say yes, in lower case and without blanks around. -/
def affirmatives : List Text := ["1", "true", "yes", "y", "on"]

/-- A value as a truth value: its text says yes or it does not. -/
def toTruth (v : Value) : Except Fault Value :=
  if v.isWritable then .ok (.bool (affirmatives.contains v.display.trim.lower))
  else Value.rejected .unwritableInteger

/-- A value as an integer; `key` is where it stands. -/
def toInteger (key : Text) (v : Value) : Except Fault Value :=
  match v.toInteger with
  | .ok i => .ok (.int i)
  | .error (.badValue _) | .error (.misuse .wrongType) =>
    Value.rejected (if v.isWritable then .integerWanted key v else .unwritableInteger)
  | .error fault => .error fault

def coerceLeaf (key : Scalar) (v : Value) : Except Fault Value :=
  match v, Setting.kind? key with
  | .null, _ => .ok .null
  | v, some .truth => toTruth v
  | v, some .integer => toInteger key.display v
  | v, none => .ok v

mutual

def coerceAt (key : Scalar) : Value → Except Fault Value
  | .map fields => do return .map (← coerceEntries fields)
  | .list items => do return .list (← coerceItems key items)
  | .scalar s => coerceLeaf key (.scalar s)
  | .tuple items => coerceLeaf key (.tuple items)
  | .set members => coerceLeaf key (.set members)
  | .endless => .error (.misuse .endless)

def coerceItems (key : Scalar) : List Value → Except Fault (List Value)
  | [] => .ok []
  | v :: rest => do return (← coerceAt key v) :: (← coerceItems key rest)

def coerceEntries : List (Scalar × Value) → Except Fault Fields
  | [] => .ok []
  | (k, v) :: rest => do return (k, ← coerceAt k v) :: (← coerceEntries rest)

end

def coerce (v : Value) : Except Fault Value := coerceAt "" v

end Layer

end Keeper
