import Keeper.Drift.Compare
import Keeper.Linkage
import Keeper.Service.Manifest
import Keeper.Value.Item

/-!
# Keeper — drafts

A draft is a service that is being edited: any part may hold any value, and nothing is found wrong
until the part is used. A draft of a service that has not been edited behaves as the service does.

* **`Draft`** — the parts by name, and the lists of owners and ports, whose items may be anything.
* **`Draft.set`**, **`Draft.setItem`** — the edits: a part, or an item of a part.
* **`Draft.manifest`**, **`Draft.compare`**, **`Draft.link`**, **`Draft.eqv`** — what can be done with
  a service, as far as the parts allow it.
-/

namespace Keeper

/-- An item of a list in a draft: one that was read, or a value in its place. -/
inductive DraftItem (α : Type) where
  | proper (a : α)
  | loose (v : Value)
deriving DecidableEq

namespace DraftItem

variable {α : Type}

/-- The item as it was read; a value in its place has no parts. -/
def read : DraftItem α → Except Fault α
  | .proper a => .ok a
  | .loose _ => .error (.misuse .noSuchPart)

/-- Equality of items; no value equals an item that was read. -/
def eqv (agree : α → α → Bool) : DraftItem α → DraftItem α → Bool
  | .proper a, .proper b => agree a b
  | .loose v, .loose w => v.eqv w
  | _, _ => false

def replace (items : List (DraftItem α)) (key v : Value) : Except Fault (List (DraftItem α)) := do
  return items.set (← Value.placeAmong items.length key) (.loose v)

end DraftItem

structure Draft where
  /-- The parts that are values, by name. -/
  parts : Fields
  owners : List (DraftItem OwnerReference) := []
  ports : List (DraftItem Port) := []
deriving DecidableEq

namespace Draft

def ofService (s : Service) : Draft where
  parts := [(.text "namespace", s.space), (.text "name", s.name), (.text "labels", .ofOption s.labels),
    (.text "annotations", .ofOption s.annotations), (.text "selector", .ofOption s.selector),
    (.text "type", s.type), (.text "cluster_ip", s.clusterIP),
    (.text "resource_version", s.resourceVersion), (.text "raw", .map s.raw)]
  owners := s.owners.map .proper
  ports := s.ports.map .proper

def ofManifest (manifest : Value) : Except Fault Draft :=
  (Service.ofManifest manifest).map ofService

/-- A part; one that is not there is null. -/
def part (d : Draft) (name : Text) : Value := d.parts.getD name .null

def key (d : Draft) : Text := (d.part "namespace").display ++ "/" ++ (d.part "name").display

/-- The name of what is made of namespace and name, and cannot be edited. -/
def keyName : Text := "key"

def ownersName : Text := "owner_references"
def portsName : Text := "ports"

/-- Writes a part, of any name; the items of owners and ports are read. -/
def set (d : Draft) (name : Text) (v : Value) : Except Fault Draft := do
  if name = keyName then throw (.misuse .noSuchPart)
  else if name = ownersName then
    return { d with owners := (← (← v.items).mapM OwnerReference.ofManifest).map .proper }
  else if name = portsName then
    return { d with ports := (← (← v.items).mapM Port.ofManifest).map .proper }
  else return { d with parts := Fields.set d.parts name v }

def setItem (d : Draft) (name : Text) (key v : Value) : Except Fault Draft := do
  if name = keyName then throw (.misuse .wrongType)
  else if name = ownersName then return { d with owners := ← DraftItem.replace d.owners key v }
  else if name = portsName then return { d with ports := ← DraftItem.replace d.ports key v }
  else
    match Fields.get? d.parts name with
    | none => throw (.misuse .noSuchPart)
    | some held => return { d with parts := Fields.set d.parts name (← held.setItem key v) }

/-! ## Writing -/

def fieldsOf (d : Draft) (name : Text) : Except Fault (Option Fields) :=
  match d.part name with
  | .null => .ok none
  | v => v.toFields.map some

def given? (d : Draft) (name : Text) : Option Value :=
  let v := d.part name
  if v.truthy then some v else none

def manifest (d : Draft) : Except Fault Fields := do
  let headed := Fields.setAll (← Service.writable .wrongType (d.part "raw")) Service.heading
  let kept ← Service.writable .wrongType (headed.getD "metadata" (.map []))
  let named := Fields.setAll kept [("name", d.part "name"), ("namespace", d.part "namespace")]
  let labelled := named.put "labels" ((← d.fieldsOf "labels").map .map)
  let annotated := labelled.put "annotations" ((← d.fieldsOf "annotations").map .map)
  let owners ← d.owners.mapM DraftItem.read
  let owned := annotated.put "ownerReferences"
    (if owners.isEmpty then none else some (.list (owners.map fun r => .map r.manifest)))
  let metadata := owned.put "resourceVersion" (d.given? "resource_version")
  let selector ← d.fieldsOf "selector"
  let keptSpec := headed.getD "spec" (.map [])
  let kept ← Service.writable (Service.specMisuse selector keptSpec) keptSpec
  let selecting := Fields.set (kept.put "selector" (selector.map .map)) "type" (d.part "type")
  let addressed := selecting.put "clusterIP" (d.given? "cluster_ip")
  let ports ← d.ports.mapM DraftItem.read
  let spec := Fields.set addressed "ports" (.list (ports.map fun p => .map p.manifest))
  return Fields.setAll headed [("metadata", .map metadata), ("spec", .map spec)]

/-! ## Comparison -/

/-- The parts that count when drafts are compared as a whole. -/
def compared : List Text :=
  ["namespace", "name", "labels", "annotations", "selector", "type", "cluster_ip", "resource_version"]

/-- Equality in the fields that are modelled. -/
def eqv (d e : Draft) : Bool :=
  compared.all (fun name => (d.part name).eqv (e.part name))
    && allPairs (DraftItem.eqv OwnerReference.eqv) d.owners e.owners
    && allPairs (DraftItem.eqv Port.eqv) d.ports e.ports

/-- Whether ports agree; they are looked into only if there are as many of them. -/
def portsAgree (current desired : List (DraftItem Port)) : Except Fault Bool := do
  if current.length = desired.length then
    return portsMatch (← current.mapM DraftItem.read) (← desired.mapM DraftItem.read)
  else return false

/-- Whether a value holds an item at a key; a list is asked for the key itself first. -/
def holds (held key v : Value) : Except Fault Bool :=
  match held with
  | .map fs => do return ((Fields.get? fs (← key.key)).map (·.eqv v)).getD false
  | .list xs => if xs.any (·.eqv key) then do return (← held.item key).eqv v else .ok false
  | _ => .error (.misuse .wrongType)

/-- Writes the desired annotations that are missing or different; tells whether there were
any. -/
def merge (held : Value) : List (Scalar × Value) → Except Fault (Value × Bool)
  | [] => .ok (held, false)
  | (k, v) :: rest => do
    if ← holds held (.scalar k) v then merge held rest
    else return ((← merge (← held.setItem (.scalar k) v) rest).1, true)

/-- The annotations with the desired ones written, and whether any was missing or
different. -/
def mergedAnnotations (current desired : Draft) : Except Fault (Value × Bool) := do
  let wanted := desired.part "annotations"
  if wanted.truthy then
    let held := current.part "annotations"
    merge (if held.isNull then .map [] else held) (← wanted.fields)
  else return (current.part "annotations", false)

/-- A draft brought in line with the desired one, and the groups that had drifted. -/
def compare (current desired : Draft) : Except Fault (Draft × List FieldGroup) := do
  let owners := !allPairs (DraftItem.eqv OwnerReference.eqv) current.owners desired.owners
  let ports := !(← portsAgree current.ports desired.ports)
  let orEmpty (d : Draft) : Value := (d.part "selector").orElse (.map [])
  let selector := !(orEmpty current).eqv (orEmpty desired)
  let type := !(current.part "type").eqv (desired.part "type")
  let (annotations, annotated) ← mergedAnnotations current desired
  let taken (drifted : Bool) (name : Text) : List (Scalar × Value) :=
    if drifted then [(.text name, desired.part name)] else []
  let patched := {
    parts := Fields.setAll current.parts
      (taken selector "selector" ++ taken type "type" ++ [(.text "annotations", annotations)])
    owners := if owners then desired.owners else current.owners
    ports := if ports then desired.ports else current.ports }
  return (patched, Comparison.groups owners ports selector type annotated)

/-! ## Linkage -/

def link (owner : OwnerIdentity) (d : Draft) : Except Fault Draft := do
  checkOwner owner (d.part "namespace")
  let before := d.owners.takeWhile fun i => i.read.isOk
  checkControllers d.key owner.reference (← before.mapM DraftItem.read)
  let recorded ← recordOwner owner.reference (← d.owners.mapM DraftItem.read)
  return { d with owners := recorded.map .proper }

end Draft

end Keeper
