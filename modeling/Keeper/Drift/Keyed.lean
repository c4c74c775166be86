import Keeper.Drift.Unordered
import Keeper.Fault
import Keeper.Value.Order

/-!
# Keeper — comparison of values without order

The comparison without order for values of any kind, where taking the key of a value, ordering two
keys or comparing two values may be refused.

* **`sortedByKey`** — values sorted by their keys, if all keys have an order among themselves.
* **`keyedEqual`** — the comparison.
-/

namespace Keeper

def sortedByKey (key : Value → Except Fault Value) (values : List Value) :
    Except Fault (List Value) := do
  let keys ← values.mapM key
  if Value.allOrdered keys then
    return (stableSort (fun a b => a.1.le b.1) (keys.zip values)).map (·.2)
  else throw (.misuse .wrongType)

/-- Whether two lists of values agree pair by pair once both are sorted by key. -/
def keyedEqual (key : Value → Except Fault Value) (agree : Value → Value → Except Fault Bool)
    (current desired : List Value) : Except Fault Bool := do
  if current.length = desired.length then
    let c ← sortedByKey key current
    let d ← sortedByKey key desired
    (c.zip d).allM fun (x, y) => agree x y
  else return false

end Keeper
