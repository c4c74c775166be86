import Keeper.Value.Conversion

/-!
# Keeper — layers of configuration

A layer is a map; a higher layer is laid over a lower one.

* **`Layer.merge`** — where both layers have a map, the maps are merged; anywhere else the higher
  layer's value replaces the lower one's, whatever it is.
* **`Layer.lay`** — a layer that may be anything, laid over a map: what counts as false adds
  nothing.
-/

namespace Keeper.Layer

mutual

def merge (base : Fields) : List (Scalar × Value) → Fields
  | [] => base
  | (k, v) :: rest => merge (Fields.set base k (mergeValue (Fields.get? base k) v)) rest

/-- What a higher layer's value makes of a lower one's. -/
def mergeValue (old : Option Value) : Value → Value
  | .map fields =>
    match old with
    | some (.map base) => .map (merge base fields)
    | _ => .map fields
  | v => v

end

/-- Lays a value over a map; what counts as true must be a map. -/
def lay (base : Fields) (layer : Value) : Except Fault Fields :=
  if layer.truthy then do return merge base (← layer.fields) else .ok base

end Keeper.Layer
