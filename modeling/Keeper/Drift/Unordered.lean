/-!
# Keeper — comparison without order

Two collections are compared without regard to their order: copies of both are sorted by a key,
keeping the order of items with equal keys, and compared in pairs.

* **`stableSort`** — insertion sort, which keeps equal items in order.
* **`alignedPairs?`** — the pairs that are compared.
* **`unorderedEqual`** — the comparison.
-/

namespace Keeper

variable {α : Type}

/-- Puts an item before the first one that it does not come after. -/
def insertSorted (le : α → α → Bool) (x : α) : List α → List α
  | [] => [x]
  | y :: rest => if le x y then x :: y :: rest else y :: insertSorted le x rest

/-- Sorts a list; items of which neither comes after the other keep their order. -/
def stableSort (le : α → α → Bool) : List α → List α
  | [] => []
  | x :: rest => insertSorted le x (stableSort le rest)

/-- The items of two sorted lists in pairs, if the lists are of one length. -/
def alignedPairs? (le : α → α → Bool) (current desired : List α) : Option (List (α × α)) :=
  if current.length = desired.length then
    some ((stableSort le current).zip (stableSort le desired))
  else none

/-- Whether two lists agree pair by pair once both are sorted. -/
def unorderedEqual (le eq : α → α → Bool) (current desired : List α) : Bool :=
  match alignedPairs? le current desired with
  | some pairs => pairs.all fun (c, d) => eq c d
  | none => false

end Keeper
