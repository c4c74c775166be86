import Keeper.Client

/-!
# Keeper — the store of a cluster

The services a cluster holds, each under its namespace and name, as manifests. The store gives a
created service an identity and counts its versions.

* **`Store`** — the manifests, in the order in which they were first stored.
* **`Store.answer`** — service calls answered by the store itself.
-/

namespace Keeper.Cluster

/-- Where a service is stored: namespace and name. -/
abbrev Place := Scalar × Scalar

abbrev Store := List (Place × Fields)

namespace Store

def samePlace (p q : Place) : Bool := p.1.eqv q.1 && p.2.eqv q.2

def find? : Store → Place → Option Fields
  | [], _ => none
  | (p, m) :: rest, place => if samePlace p place then some m else find? rest place

/-- Stores a manifest at a place, over the one that is there. -/
def insert : Store → Place → Fields → Store
  | [], place, manifest => [(place, manifest)]
  | (p, m) :: rest, place, manifest =>
    if samePlace p place then (p, manifest) :: rest else (p, m) :: insert rest place manifest

def erase (store : Store) (place : Place) : Store :=
  store.filter fun (p, _) => !samePlace p place

end Store

/-- The fields at a key, none if it does not hold a map. -/
def fieldsAt (manifest : Fields) (key : Text) : Fields :=
  match Fields.get? manifest key with
  | some (.map fields) => fields
  | _ => []

/-- The version of a stored manifest; null if it has none. -/
def storedVersion (manifest : Fields) : Value :=
  (fieldsAt manifest "metadata").getD "resourceVersion" .null

def withMetadata (manifest : Fields) (entries : List (Scalar × Value)) : Fields :=
  Fields.set manifest "metadata" (.map (Fields.setAll (fieldsAt manifest "metadata") entries))

/-- A manifest as it is stored when it is created. -/
def created (manifest : Fields) : Fields :=
  withMetadata manifest [("resourceVersion", .text "1"), ("uid", .text "svc-uid")]

/-- The version after a number; it must not be too long to be read. -/
def versionAfter (n : Int) : Except Fault Text :=
  let next := n + 1
  if Nat.pow 10 integerDigitLimit ≤ next.natAbs then .error (.badValue .unwritableInteger)
  else .ok (integerText next)

/-- A manifest as it is stored over another, whose version it follows. -/
def succeeding (stored manifest : Fields) : Except Fault Fields := do
  let version ← ((storedVersion stored).orElse (.int 0)).toInteger
  return withMetadata manifest [("resourceVersion", .text (← versionAfter version))]

def ownPlace (manifest : Fields) : Except Fault Place := do
  let metadata := fieldsAt manifest "metadata"
  return (← (metadata.getD "namespace" .null).key, ← (metadata.getD "name" .null).key)

namespace Store

def put (store : Store) (manifests : List Fields) : Except Fault Store :=
  manifests.foldlM (fun s m => do return s.insert (← ownPlace m) m) store

def ofManifests (manifests : List Fields) : Except Fault Store := put [] manifests

def absent : Fault :=
  .api {
    status := .int 404, method := .text "PUT", url := .text "/fake", detail := .text "Not Found" }

def read (store : Store) (space name : Value) : Except Fault Service := do
  match store.find? (← space.key, ← name.key) with
  | some manifest => Service.ofManifest (.map manifest)
  | none => throw (.notFound space name)

/-- Stores a new service, whatever is in its place. -/
def create (store : Store) (service : Service) : Except Fault Store := do
  let manifest ← service.manifest
  return store.insert (← service.space.key, ← service.name.key) (created manifest)

def update (store : Store) (service : Service) : Except Fault Store := do
  let place := (← service.space.key, ← service.name.key)
  match store.find? place with
  | some stored => return store.insert place (← succeeding stored (← service.manifest))
  | none => throw absent

def written (store : Store) (service : Service) :
    Except Fault Store → Except Fault Service × Store
  | .ok store' => (.ok service, store')
  | .error fault => (.error fault, store)

def answer (store : Store) : ServiceCall → Except Fault Service × Store
  | .read space name => (store.read space name, store)
  | .create service => store.written service (store.create service)
  | .update service => store.written service (store.update service)

end Store

end Keeper.Cluster
