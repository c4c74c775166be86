import Keeper.Json.Reading
import Keeper.Json.Writing

/-!
# Keeper — plain values

JSON has names where a map has keys, and one kind of list. A value that is written and read again
comes back plain: its keys are texts, of two keys with one text the later value is kept at the
earlier place, and its rows are lists.

* **`plain?`** — what becomes of a value; one that JSON cannot hold does not come back.
* **`obstacle?`** — the first thing in a value that JSON cannot hold.
-/

namespace Keeper.Json

/-- A text as it is read again: surrogates that stand together have become characters. -/
def plainText (t : Text) : Text := ⟨joinSurrogates (t.points.map CodePoint.value)⟩

def plainScalar? : Scalar → Option Scalar
  | .text t => some (.text (plainText t))
  | .date _ | .moment _ _ | .bytes _ => none
  | .int i => if (Scalar.int i).isWritable then some (.int i) else none
  | s => some s

def plainKey? : Scalar → Option Text
  | .text t => some (plainText t)
  | s => writeScalar? s

mutual

/-- A value as it is read again. -/
def plain? : Value → Option Value
  | .scalar s => (plainScalar? s).map .scalar
  | .list xs | .tuple xs => (plainItems? xs).map .list
  | .map fs => (plainEntries? fs).map fun es => .map (Fields.ofEntries es)
  | .set _ | .endless => none

def plainItems? : List Value → Option (List Value)
  | [] => some []
  | x :: rest => do return (← plain? x) :: (← plainItems? rest)

def plainEntries? : List (Scalar × Value) → Option (List (Scalar × Value))
  | [] => some []
  | (k, v) :: rest => do return (.text (← plainKey? k), ← plain? v) :: (← plainEntries? rest)

end

def plainFields? (fs : Fields) : Option Fields := (plainEntries? fs).map Fields.ofEntries

/-- What JSON cannot hold: a thing of a kind it does not know, or an integer of too many
digits. -/
inductive Obstacle where
  | unknownKind
  | tooManyDigits
deriving DecidableEq, Repr

def Obstacle.fault : Obstacle → Fault
  | .unknownKind => .misuse .wrongType
  | .tooManyDigits => .badValue .unwritableInteger

def scalarObstacle? : Scalar → Option Obstacle
  | .date _ | .moment _ _ | .bytes _ => some .unknownKind
  | .int i => if (Scalar.int i).isWritable then none else some .tooManyDigits
  | .null | .bool _ | .float _ | .text _ => none

mutual

/-- The first thing in a value that JSON cannot hold, in the order in which the value is
written. -/
def obstacle? : Value → Option Obstacle
  | .scalar s => scalarObstacle? s
  | .list xs | .tuple xs => itemsObstacle? xs
  | .map fs => entriesObstacle? fs
  | .set _ | .endless => some .unknownKind

def itemsObstacle? : List Value → Option Obstacle
  | [] => none
  | x :: rest => (obstacle? x).or (itemsObstacle? rest)

def entriesObstacle? : List (Scalar × Value) → Option Obstacle
  | [] => none
  | (k, v) :: rest => ((scalarObstacle? k).or (obstacle? v)).or (entriesObstacle? rest)

end

end Keeper.Json
