import Keeper.Service.Basic

/-!
# Keeper — services and their manifests

Reading takes the modelled fields out of a manifest and keeps a copy of the whole of it; writing lays
them over what was kept, so that nothing that is not modelled is lost.

* **`Service.ofManifest`** — reads a manifest. One that is nested too deeply cannot be kept.
* **`Service.manifest`** — writes one. A kept section that is not a map cannot be written over.
-/

namespace Keeper

namespace Fields

/-- Writes a key, or removes it when there is no value. -/
def put (fields : Fields) (key : Text) : Option Value → Fields
  | some v => set fields key v
  | none => erase fields key

/-- The map at a key, a missing or false one being empty. -/
def part (fields : Fields) (key : Text) : Except Fault Fields :=
  ((fields.getD key .null).orElse (.map [])).fields

/-- The map at a key, unless it is missing or null. -/
def part? (fields : Fields) (key : Text) : Except Fault (Option Fields) :=
  match fields.getD key .null with
  | .null => .ok none
  | v => v.toFields.map some

/-- The items at a key, read one by one; a missing or false value has none. -/
def parts {α : Type} (fields : Fields) (key : Text) (read : Value → Except Fault α) :
    Except Fault (List α) := do
  (← ((fields.getD key .null).orElse (.list [])).items).mapM read

end Fields

namespace Service

def ofManifest (manifest : Value) : Except Fault Service := do
  let raw ← manifest.fields
  let metadata ← raw.part "metadata"
  let spec ← raw.part "spec"
  let space ← (metadata.getD "namespace" "").shown
  let name ← (metadata.getD "name" "").shown
  let labels ← metadata.part? "labels"
  let annotations ← metadata.part? "annotations"
  let owners ← metadata.parts "ownerReferences" OwnerReference.ofManifest
  let selector ← spec.part? "selector"
  let type ← spec.textOr "type" clusterIPType
  let clusterIP ← spec.textOr "clusterIP" ""
  let ports ← spec.parts "ports" Port.ofManifest
  let resourceVersion ← metadata.textOr "resourceVersion" ""
  return {
    space := .text space, name := .text name, labels, annotations, owners, selector, type, clusterIP
    ports, resourceVersion, raw := ← raw.copied }

/-- The metadata a service writes over what it was read from. -/
def metadata (s : Service) (kept : Fields) : Fields :=
  let named := Fields.setAll kept [("name", s.name), ("namespace", s.space)]
  let labelled := named.put "labels" (s.labels.map .map)
  let annotated := labelled.put "annotations" (s.annotations.map .map)
  let owned := annotated.put "ownerReferences"
    (if s.owners.isEmpty then none else some (.list (s.owners.map fun r => .map r.manifest)))
  owned.put "resourceVersion" (if s.resourceVersion.isEmpty then none else some s.resourceVersion)

/-- The specification a service writes over what it was read from. -/
def spec (s : Service) (kept : Fields) : Fields :=
  let selecting := Fields.set (kept.put "selector" (s.selector.map .map)) "type" s.type
  let addressed := selecting.put "clusterIP" (if s.clusterIP.isEmpty then none else some s.clusterIP)
  Fields.set addressed "ports" (.list (s.ports.map fun p => .map p.manifest))

/-- A kept section that can be written over, or how writing to it fails. -/
def writable (otherwise : Misuse) : Value → Except Fault Fields
  | .map fs => .ok fs
  | _ => .error (.misuse otherwise)

/-- How writing fails over a specification that is no map: removing a key is not known to
most values, writing one is refused by all. -/
def specMisuse (selector : Option Fields) (kept : Value) : Misuse :=
  match selector, kept with
  | none, .list _ => .wrongType
  | none, _ => .notAMap
  | some _, _ => .wrongType

def heading : Fields := [(.text "apiVersion", .text "v1"), (.text "kind", .text "Service")]

def manifest (s : Service) : Except Fault Fields := do
  let headed := Fields.setAll s.raw heading
  let keptMetadata := headed.getD "metadata" (.map [])
  let keptSpec := headed.getD "spec" (.map [])
  let metadataFields ← writable .wrongType keptMetadata
  let specFields ← writable (specMisuse s.selector keptSpec) keptSpec
  return Fields.setAll headed
    [("metadata", .map (s.metadata metadataFields)), ("spec", .map (s.spec specFields))]

end Service

end Keeper
