import Keeper.Value.Conversion

/-!
# Keeper — items of values

A map has items under its keys; lists, rows, texts and bytes have theirs in places, of which
negative ones count from the end. Only maps and lists can be changed.

* **`Value.item`** — the item at a key or in a place.
* **`Value.setItem`** — a value with an item written.
* **`Value.first`** — the item in the first place, or at the key zero.
-/

namespace Keeper

namespace Value

def place : Value → Except Fault Int
  | .int i => .ok i
  | .bool b => .ok b.toInt
  | _ => misused .wrongType

/-- The number of a place among `count` items, from the front. -/
def placeAmong (count : Nat) (key : Value) : Except Fault Nat := do
  let i ← key.place
  let front := if i < 0 then i + count else i
  if 0 ≤ front && front < count then return front.toNat else misused .missingItem

def itemAmong (items : List Value) (key : Value) : Except Fault Value := do
  match items[← placeAmong items.length key]? with
  | some v => return v
  | none => misused .missingItem

def item (v key : Value) : Except Fault Value :=
  match v with
  | .map fs => do
    match Fields.get? fs (← key.key) with
    | some w => return w
    | none => misused .missingKey
  | .list xs | .tuple xs => itemAmong xs key
  | .text t => itemAmong (characters t) key
  | .scalar (.bytes bs) => itemAmong (bs.map fun b => .int b.toNat) key
  | _ => misused .wrongType

/-- A value with an item written: at a key of a map, or in place of an item of a list. -/
def setItem (v key item : Value) : Except Fault Value :=
  match v with
  | .map fs => do return .map (Fields.set fs (← key.key) item)
  | .list xs => do return .list (xs.set (← placeAmong xs.length key) item)
  | _ => misused .wrongType

def first (v : Value) : Except Fault Value := v.item (.int 0)

end Value

end Keeper
