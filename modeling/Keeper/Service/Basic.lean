import Keeper.Service.Owner
import Keeper.Service.Port

/-!
# Keeper — services

A service as the engine sees it: the fields it compares and writes, and the manifest it was read
from. A map that is missing is told apart from an empty one.

* **`Service`** — the fields.
* **`Service.eqv`** — equality in the fields that are modelled.
-/

namespace Keeper

def clusterIPType : Text := "ClusterIP"

/-- The cluster address of a service that has none of its own. -/
def headless : Text := "None"

structure Service where
  space : Value
  name : Value
  labels : Option Fields := none
  annotations : Option Fields := none
  owners : List OwnerReference := []
  selector : Option Fields := none
  type : Text := clusterIPType
  clusterIP : Text := ""
  ports : List Port := []
  resourceVersion : Text := ""
  /-- The manifest the service was read from. -/
  raw : Fields := []
deriving DecidableEq, Inhabited

/-- Lists of equal length whose items agree in pairs. -/
def allPairs {α : Type} (agree : α → α → Bool) : List α → List α → Bool
  | [], [] => true
  | x :: xs, y :: ys => agree x y && allPairs agree xs ys
  | _, _ => false

/-- Equality of maps that may be missing; a missing one is not an empty one. -/
def eqvOptional : Option Fields → Option Fields → Bool
  | none, none => true
  | some fs, some gs => Fields.eqv fs gs
  | _, _ => false

namespace Service

def key (s : Service) : Text := s.space.display ++ "/" ++ s.name.display

/-- Equality in the fields that are modelled. -/
def eqv (s t : Service) : Bool :=
  s.space.eqv t.space && s.name.eqv t.name && eqvOptional s.labels t.labels
    && eqvOptional s.annotations t.annotations && allPairs OwnerReference.eqv s.owners t.owners
    && eqvOptional s.selector t.selector && s.type == t.type && s.clusterIP == t.clusterIP
    && allPairs Port.eqv s.ports t.ports && s.resourceVersion == t.resourceVersion

end Service

end Keeper
