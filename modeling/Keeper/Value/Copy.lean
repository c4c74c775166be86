import Keeper.Value.Conversion

/-!
# Keeper — copies of values

A map that is kept is copied part by part, and the parts inside each other take room while they are
copied. A map that is nested too deeply is refused; the copy of any other one is the map itself.

* **`Value.copiesIn`** — whether a value is copied within so many levels.
* **`Fields.copied`** — the copy of a map.
-/

namespace Keeper

/-- How many lists and maps can stand inside each other in what is copied. There is room
for about as many, wherever a copy is made. -/
def copyLimit : Nat := 490

namespace Value

mutual

/-- Whether no more than so many levels are gone through to copy a value. A value that is
a part of itself is known when it is met again. -/
def copiesIn (levels : Nat) : Value → Bool
  | .list xs | .tuple xs => 0 < levels && itemsCopyIn (levels - 1) xs
  | .map fs => 0 < levels && entriesCopyIn (levels - 1) fs
  | .scalar _ | .set _ | .endless => true

def itemsCopyIn (levels : Nat) : List Value → Bool
  | [] => true
  | v :: rest => copiesIn levels v && itemsCopyIn levels rest

def entriesCopyIn (levels : Nat) : List (Scalar × Value) → Bool
  | [] => true
  | (_, v) :: rest => copiesIn levels v && entriesCopyIn levels rest

end

end Value

/-- The copy of a map. -/
def Fields.copied (fields : Fields) : Except Fault Fields :=
  if (Value.map fields).copiesIn copyLimit then .ok fields else .error (.misuse .tooDeep)

end Keeper
