import Keeper.Service.Basic

/-!
# Keeper — linkage of a service to its owner

An owner is recorded on a service as its controller. The owner needs all of its parts, a namespaced
owner lives in the service's namespace, and a service controlled by another owner is left to it.
Two references name the same owner when group, kind and name agree: the version does not count.

* **`apiGroup`** — the group of an API version.
* **`sameOwner`** — whether two references name the same owner.
* **`link`** — the linkage: the service as it is then, or why it refuses the owner.
* **`attach`** — the linkage of a service that is at hand, which is changed in place.
-/

namespace Keeper

/-- The group of an API version: what stands before the first slash, or nothing in the
core group. -/
def groupOfText (version : Text) : Text :=
  if version.contains '/' then version.takeWhile (· ≠ '/') else ""

/-- The group of an API version of any kind. A version that is no text has none to split
off. -/
def apiGroup : Value → Except Fault Text
  | .text s => .ok (groupOfText s)
  | .list xs | .tuple xs => if xs.any (·.eqv "/") then .error (.misuse .notAMap) else .ok ""
  | .map fs => if Fields.has fs "/" then .error (.misuse .notAMap) else .ok ""
  | .set ms => if ms.any (·.eqv "/") then .error (.misuse .notAMap) else .ok ""
  | .scalar _ | .endless => .error (.misuse .wrongType)

def sameOwner (existing owner : OwnerReference) : Except Fault Bool := do
  let group ← apiGroup existing.apiVersion
  let ownerGroup ← apiGroup owner.apiVersion
  return group == ownerGroup && existing.kind.eqv owner.kind && existing.name.eqv owner.name

namespace OwnerIdentity

def reference (owner : OwnerIdentity) : OwnerReference where
  apiVersion := owner.apiVersion
  kind := owner.kind
  name := owner.name
  uid := owner.uid
  controller := .bool true
  blockOwnerDeletion := .bool true

def missingParts (owner : OwnerIdentity) : List OwnerPart :=
  [(OwnerPart.apiVersion, owner.apiVersion), (.kind, owner.kind), (.name, owner.name),
    (.uid, owner.uid)].filterMap fun (part, v) => if v.truthy then none else some part

end OwnerIdentity

/-- Refuses when a reference makes another owner the controller. -/
def checkControllers (service : Text) (owner : OwnerReference) :
    List OwnerReference → Except Fault Unit
  | [] => .ok ()
  | existing :: rest =>
    if existing.controller.truthy then do
      if ← sameOwner existing owner then checkControllers service owner rest
      else .error (.linkage (.controlled service existing.kind existing.name))
    else checkControllers service owner rest

/-- Puts a reference in the place of the first one to the same owner, or at the end. -/
def recordOwner (owner : OwnerReference) : List OwnerReference → Except Fault (List OwnerReference)
  | [] => .ok [owner]
  | existing :: rest => do
    if ← sameOwner existing owner then return owner :: rest
    else return existing :: (← recordOwner owner rest)

/-- Refuses an owner that lacks a part, or that lives in another namespace than the given
one. -/
def checkOwner (owner : OwnerIdentity) (space : Value) : Except Fault Unit := do
  let missing := owner.missingParts
  if !missing.isEmpty then throw (.linkage (.missing missing))
  if owner.space.truthy && !owner.space.eqv space then
    throw (.linkage (.otherNamespace owner.space space))

def link (owner : OwnerIdentity) (service : Service) : Except Fault Service := do
  checkOwner owner service.space
  checkControllers service.key owner.reference service.owners
  return { service with owners := ← recordOwner owner.reference service.owners }

/-! ## In place -/

/-- What is done to a service that is at hand. A fault leaves it as it is by then. -/
abbrev Editing (α : Type) := ExceptT Fault (StateM Service) α

/-- Where the first reference to an owner stands. -/
def placeOfOwner (owner : OwnerReference) : List OwnerReference → Except Fault (Option Nat)
  | [] => .ok none
  | existing :: rest => do
    if ← sameOwner existing owner then return some 0
    else return (← placeOfOwner owner rest).map (· + 1)

/-- Links the service at hand to an owner. -/
def attach (owner : OwnerIdentity) : Editing Unit := do
  let service ← get
  checkOwner owner service.space
  checkControllers service.key owner.reference service.owners
  match ← placeOfOwner owner.reference service.owners with
  | some place => modify fun s => { s with owners := s.owners.set place owner.reference }
  | none => modify fun s => { s with owners := s.owners ++ [owner.reference] }

end Keeper
