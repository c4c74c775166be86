import Keeper.Value.Basic

/-!
# Keeper — the order of values

Numbers are ordered by size, texts by code points, lists and rows item by item. Other values, and values
of different kinds, have no order.

* **`Value.lt?`** — whether one value comes before another, if they have an order.
-/

namespace Keeper

namespace Scalar

def isNumber : Scalar → Bool
  | .bool _ | .int _ | .float _ => true
  | _ => false

/-- Whether a scalar comes before another; NaN comes before no number and after none. -/
def lt? : Scalar → Scalar → Option Bool
  | .text s, .text t => some (s.lt t)
  | a, b =>
    if a.isNumber && b.isNumber then
      match a.place?, b.place? with
      | some p, some q => some (p.lt q)
      | _, _ => some false
    else none

end Scalar

namespace Value

mutual

/-- Whether a value comes before another, if they have an order. -/
def lt? : Value → Value → Option Bool
  | .scalar a, .scalar b => a.lt? b
  | .list xs, .list ys => ltList? xs ys
  | .tuple xs, .tuple ys => ltList? xs ys
  | _, _ => none

/-- Lists are ordered by their first items that differ, and a list comes before its
extensions. -/
def ltList? : List Value → List Value → Option Bool
  | [], ys => some !ys.isEmpty
  | _ :: _, [] => some false
  | x :: xs, y :: ys => if x.eqv y then ltList? xs ys else lt? x y

end

def le (a b : Value) : Bool := b.lt? a != some true

def allOrdered : List Value → Bool
  | [] => true
  | x :: rest => rest.all (fun y => (x.lt? y).isSome) && allOrdered rest

end Value

end Keeper
