import Keeper.Value.Copy

/-!
# Keeper — the ports of a service

A port as the engine compares it, and the fields of its manifest that the engine does not model,
kept for writing.

* **`Port.ofManifest`** — reads a port; a missing target is the port itself.
* **`Port.manifest`** — writes it back over the fields that were not modelled.
* **`Port.targetNumber`** — the target as a number, a named target counting as zero.
-/

namespace Keeper

def defaultProtocol : Text := "TCP"

structure Port where
  port : Value
  target : Value
  protocol : Text := defaultProtocol
  name : Text := ""
  /-- The fields of the manifest that are not modelled. -/
  extra : Fields := []
deriving DecidableEq

namespace Port

/-- The target as a number: a target that is no integer counts as zero. -/
def targetNumber (p : Port) : Value :=
  match p.target with
  | .int i => .int i
  | .bool b => .bool b
  | _ => .int 0

def modelled : List Scalar := [.text "name", .text "port", .text "targetPort", .text "protocol"]

def ofManifest (manifest : Value) : Except Fault Port := do
  let fields ← manifest.fields
  let port ← (fields.getD "port" (.int 0)).toInteger
  let name ← fields.textOr "name" ""
  let protocol ← fields.textOr "protocol" defaultProtocol
  let extra ← Fields.copied (fields.filter fun (k, _) => !modelled.contains k)
  return { port := .int port, target := fields.getD "targetPort" (.int port), protocol, name, extra }

def manifest (p : Port) : Fields :=
  let named := if p.name.isEmpty then p.extra else Fields.set p.extra "name" p.name
  Fields.setAll named
    [("port", p.port), ("targetPort", p.target), ("protocol", .text p.protocol)]

/-- Equality in the fields that are modelled. -/
def eqv (p q : Port) : Bool :=
  p.port.eqv q.port && p.target.eqv q.target && p.protocol == q.protocol && p.name == q.name

end Port

end Keeper
