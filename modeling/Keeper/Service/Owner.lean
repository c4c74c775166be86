import Keeper.Value.Conversion

/-!
# Keeper — owners and owner references

The owner of a service is the object responsible for its life; a reference to it stands in the
service's metadata.

* **`OwnerIdentity`** — the owner.
* **`OwnerReference`** — a reference, as read and written.
-/

namespace Keeper

/-- The object responsible for a service; its namespace is empty when it belongs to the
cluster. -/
structure OwnerIdentity where
  apiVersion : Value
  kind : Value
  name : Value
  uid : Value
  space : Value := ""
deriving DecidableEq, Inhabited

namespace OwnerIdentity

/-- An owner by the names of its parts; a part that is not named is empty. -/
def ofFields (fields : Fields) : Except Fault OwnerIdentity := do
  Fields.checkNames "OwnerIdentity" ["api_version", "kind", "name", "uid", "namespace"] fields
  return {
    apiVersion := fields.getD "api_version" ""
    kind := fields.getD "kind" ""
    name := fields.getD "name" ""
    uid := fields.getD "uid" ""
    space := fields.getD "namespace" "" }

end OwnerIdentity

/-- A reference to an owner. The two flags are null when absent. -/
structure OwnerReference where
  apiVersion : Value
  kind : Value
  name : Value
  uid : Value
  controller : Value := .null
  blockOwnerDeletion : Value := .null
deriving DecidableEq, Inhabited

namespace OwnerReference

/-- Reads a reference; the four parts that name the owner are texts. -/
def ofManifest (manifest : Value) : Except Fault OwnerReference := do
  let fields ← manifest.fields
  let part (key : Text) : Except Fault Value := do return .text (← (fields.getD key "").shown)
  let apiVersion ← part "apiVersion"
  let kind ← part "kind"
  let name ← part "name"
  let uid ← part "uid"
  return {
    apiVersion, kind, name, uid
    controller := fields.getD "controller" .null
    blockOwnerDeletion := fields.getD "blockOwnerDeletion" .null }

/-- Writes a reference; absent flags are left out. -/
def manifest (r : OwnerReference) : Fields :=
  let flag (key : Text) (v : Value) : Fields := if v.isNull then [] else [(.text key, v)]
  [(.text "apiVersion", r.apiVersion), (.text "kind", r.kind), (.text "name", r.name),
    (.text "uid", r.uid)]
    ++ flag "controller" r.controller ++ flag "blockOwnerDeletion" r.blockOwnerDeletion

def eqv (r s : OwnerReference) : Bool :=
  r.apiVersion.eqv s.apiVersion && r.kind.eqv s.kind && r.name.eqv s.name && r.uid.eqv s.uid
    && r.controller.eqv s.controller && r.blockOwnerDeletion.eqv s.blockOwnerDeletion

end OwnerReference

end Keeper
