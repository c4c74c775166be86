import Keeper.Drift.Unordered
import Keeper.Service.Basic

/-!
# Keeper — drift between a service and the desired one

Five groups of fields are compared, each by its own rule, and the ones that drifted are taken from
the desired service. Owner references, ports, selector and type are replaced as a whole; of the
annotations only the desired ones are written, the others stay.

* **`portsMatch`** — ports agree when, sorted by name, they agree in pairs.
* **`Comparison`** — the service with every drifted group taken over, and which groups drifted.
* **`Service.compare`** — the comparison.
-/

namespace Keeper

inductive FieldGroup where
  | ownerReferences
  | ports
  | selector
  | type
  | annotations
deriving DecidableEq, Repr

namespace FieldGroup

def label : FieldGroup → Text
  | .ownerReferences => "ownerReferences"
  | .ports => "ports"
  | .selector => "selector"
  | .type => "type"
  | .annotations => "annotations"

end FieldGroup

/-- Agreement of two ports: the target counts as a number, unmodelled fields do not
count. -/
def portAgrees (c d : Port) : Bool :=
  c.name == d.name && c.port.eqv d.port && c.targetNumber.eqv d.targetNumber
    && c.protocol == d.protocol

/-- Agreement of two collections of ports, whatever their order. -/
def portsMatch (current desired : List Port) : Bool :=
  unorderedEqual (fun p q => p.name.le q.name) portAgrees current desired

/-- Writes the desired annotations that are missing or different; tells whether there were
any. -/
def mergeAnnotations (current : Fields) : List (Scalar × Value) → Fields × Bool
  | [] => (current, false)
  | (k, v) :: rest =>
    let same := match Fields.get? current k with
      | some w => w.eqv v
      | none => false
    if same then mergeAnnotations current rest
    else ((mergeAnnotations (Fields.set current k v) rest).1, true)

/-- A service brought in line with the desired one, and the groups that had drifted. -/
structure Comparison where
  patched : Service
  fields : List FieldGroup
deriving DecidableEq

namespace Comparison

def changed (c : Comparison) : Bool := !c.fields.isEmpty

def groups (owners ports selector type annotations : Bool) : List FieldGroup :=
  [(owners, FieldGroup.ownerReferences), (ports, .ports), (selector, .selector), (type, .type),
    (annotations, .annotations)].filterMap fun (drifted, group) =>
      if drifted then some group else none

end Comparison

/-- Whether the owner references drifted; their order counts. -/
def ownersDrift (current desired : Service) : Bool :=
  !allPairs OwnerReference.eqv current.owners desired.owners

def portsDrift (current desired : Service) : Bool := !portsMatch current.ports desired.ports

/-- Whether the selector drifted; a missing one is an empty one. -/
def selectorDrift (current desired : Service) : Bool :=
  !Fields.eqv (current.selector.getD []) (desired.selector.getD [])

def typeDrift (current desired : Service) : Bool := current.type != desired.type

/-- The annotations with the desired ones written, and whether any was missing or
different. Missing annotations stay missing when there is nothing to write. -/
def mergedAnnotations (current desired : Service) : Option Fields × Bool :=
  match current.annotations, desired.annotations.getD [] with
  | none, [] => (none, false)
  | present, wanted =>
    let (merged, drifted) := mergeAnnotations (present.getD []) wanted
    (some merged, drifted)

def Service.compare (current desired : Service) : Comparison :=
  let owners := ownersDrift current desired
  let ports := portsDrift current desired
  let selector := selectorDrift current desired
  let type := typeDrift current desired
  let (annotations, annotated) := mergedAnnotations current desired
  { patched := { current with
      owners := if owners then desired.owners else current.owners
      ports := if ports then desired.ports else current.ports
      selector := if selector then desired.selector else current.selector
      type := if type then desired.type else current.type
      annotations }
    fields := Comparison.groups owners ports selector type annotated }

end Keeper
