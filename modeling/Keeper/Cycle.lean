import Keeper.Client
import Keeper.Desired
import Keeper.Drift.Compare
import Keeper.Linkage

/-!
# Keeper — the reconciliation cycle

One cycle brings the managed service in line with the desired one, in phases:

    start → reading → notFound → creating → confirming → done
                    → found → diffing → unchanged → done
                                      → changed → writing → confirming → done

A cycle tries nothing twice. What goes wrong in a phase is reported with the phase and the service
it was about.

* **`Stage`** — a phase together with what is known in it; `Stage.next` is one transition.
* **`drive`** — transitions until the cycle is done or meets a phase it is to stop before.
* **`reconcile`** — a whole cycle.
* **`plan`** — the same cycle, stopped before it writes.
-/

namespace Keeper

inductive Phase where
  | start
  | reading
  | notFound
  | creating
  | found
  | diffing
  | unchanged
  | changed
  | writing
  | confirming
  | done
deriving DecidableEq, Repr

namespace Phase

def name : Phase → Text
  | .start => "start"
  | .reading => "reading"
  | .notFound => "not_found"
  | .creating => "creating"
  | .found => "found"
  | .diffing => "diffing"
  | .unchanged => "unchanged"
  | .changed => "changed"
  | .writing => "writing"
  | .confirming => "confirming"
  | .done => "done"

/-- The phases that begin with a write. -/
def isWrite : Phase → Bool
  | .creating | .writing => true
  | _ => false

end Phase

inductive Action where
  | created
  | updated (fields : List FieldGroup)
  | unchanged
deriving DecidableEq, Repr

namespace Action

def name : Action → Text
  | .created => "created"
  | .updated _ => "updated"
  | .unchanged => "unchanged"

def fields : Action → List FieldGroup
  | .updated fields => fields
  | _ => []

end Action

/-- A phase and what is known in it. -/
inductive Stage where
  | start
  | reading (desired : Service)
  | notFound (desired : Service)
  | creating (desired : Service)
  | found (desired current : Service)
  | diffing (desired current : Service)
  | unchanged (desired current : Service)
  | changed (desired current : Service) (drift : Comparison)
  | writing (desired current : Service) (drift : Comparison)
  | confirming (desired : Service) (action : Action)
  | done (desired state : Service) (action : Action)
deriving DecidableEq

namespace Stage

def phase : Stage → Phase
  | .start => .start
  | .reading _ => .reading
  | .notFound _ => .notFound
  | .creating _ => .creating
  | .found _ _ => .found
  | .diffing _ _ => .diffing
  | .unchanged _ _ => .unchanged
  | .changed _ _ _ => .changed
  | .writing _ _ _ => .writing
  | .confirming _ _ => .confirming
  | .done _ _ _ => .done

end Stage

/-- How the desired service is built and linked to its owner. -/
structure Engine where
  build : (ownerName space : Value) → Except Fault Service
  link : OwnerIdentity → Service → Except Fault Service := link

namespace Engine

def ofSettings (settings : ServiceSettings) : Engine where
  build := settings.build

end Engine

structure Assignment (τ : Type) where
  context : RequestContext τ := {}
  owner : OwnerIdentity
  space : Value

namespace Assignment

variable {τ : Type}

def resource (a : Assignment τ) (name : Text) : Text := a.space.display ++ "/" ++ name

end Assignment

/-- A fault as it is reported from a phase. Only faults of the library's own taxonomy and
those of the context are reported; any other is left as it is. A fault that cannot be
worded cannot be reported. -/
def Fault.during (phase : Phase) (resource : Text) (fault : Fault) : Fault :=
  if !fault.isReported then fault
  else if fault.wording.isNone then .misuse .wrongType
  else .cycle fault.isHalt phase.name resource (some fault)

abbrev Calling (τ : Type) : Type → Type := Attempt τ ServiceCall (Except Fault Service)

namespace Engine

/-- The desired service, linked. Before it is built, a report has no name for it. -/
def desired {τ : Type} (e : Engine) (a : Assignment τ) : Except Fault Service := do
  let built ← (e.build a.owner.name a.space).mapError (Fault.during .start (a.resource "?"))
  (e.link a.owner built).mapError (Fault.during .start (a.resource built.name.display))

end Engine

section Transitions

variable {τ : Type} [TimeScale τ]

/-- Makes a service call and takes the service it answers with. -/
def serviceCall (op : ServiceCall) : Calling τ Service := do
  let answer ← Attempt.call op
  answer

def Assignment.look (a : Assignment τ) (desired : Service) : Calling τ Stage := do
  a.context.check
  match ← Attempt.call (.read a.space desired.name) with
  | .ok current => return .found desired current
  | .error (.notFound _ _) =>
    Attempt.log ⟨.debug, "service %s not found, creating it", [a.resource desired.name.display]⟩
    return .notFound desired
  | .error fault => throw fault

def Assignment.create (a : Assignment τ) (desired : Service) : Calling τ Stage := do
  a.context.check
  let _ ← serviceCall (.create desired)
  Attempt.log ⟨.info, "successfully created service svc.name=%s svc.namespace=%s",
    [desired.name, a.space]⟩
  return .confirming desired .created

def diff (desired current : Service) : Stage :=
  let drift := current.compare desired
  if drift.changed then .changed desired current drift else .unchanged desired current

/-- Writes the service with the drift taken back. -/
def Assignment.write (a : Assignment τ) (desired : Service) (drift : Comparison) :
    Calling τ Stage := do
  a.context.check
  Attempt.log ⟨.debug, "service %s drifted on %s",
    [a.resource desired.name.display, Text.intercalate ", " (drift.fields.map FieldGroup.label)]⟩
  let _ ← serviceCall (.update drift.patched)
  return .confirming desired (.updated drift.fields)

def Assignment.confirm (a : Assignment τ) (desired : Service) (action : Action) :
    Calling τ Stage := do
  a.context.check
  let state ← serviceCall (.read a.space desired.name)
  if action != .created then
    Attempt.log ⟨.info, "successfully updated service svc.name=%s svc.namespace=%s",
      [desired.name, a.space]⟩
  return .done desired state action

/-- The work of a phase that knows the desired service. -/
def Assignment.work (a : Assignment τ) (stage : Stage) (desired : Service)
    (attempt : Calling τ Stage) : Calling τ Stage :=
  attempt.mapFault (Fault.during stage.phase (a.resource desired.name.display))

/-- One transition. There is none from the end of a cycle. -/
def Stage.next (e : Engine) (a : Assignment τ) : Stage → Calling τ Stage
  | .start => do return .reading (← e.desired a)
  | .reading desired => a.work (.reading desired) desired (a.look desired)
  | .notFound desired => return .creating desired
  | .creating desired => a.work (.creating desired) desired (a.create desired)
  | .found desired current => return .diffing desired current
  | .diffing desired current => return diff desired current
  | .unchanged desired current => do
    Attempt.log ⟨.debug, "service %s is up to date", [a.resource desired.name.display]⟩
    return .done desired current .unchanged
  | .changed desired current drift => return .writing desired current drift
  | .writing desired current drift =>
    a.work (.writing desired current drift) desired (a.write desired drift)
  | .confirming desired action =>
    a.work (.confirming desired action) desired (a.confirm desired action)
  | .done _ _ _ => throw (.misuse .missingKey)

/-- How often a stage can be followed by another before the cycle is done. -/
def Stage.distance : Stage → Nat
  | .start => 7
  | .reading _ => 6
  | .notFound _ => 3
  | .creating _ => 2
  | .found _ _ => 5
  | .diffing _ _ => 4
  | .unchanged _ _ => 1
  | .changed _ _ _ => 3
  | .writing _ _ _ => 2
  | .confirming _ _ => 1
  | .done _ _ _ => 0

/-- Goes from stage to stage until the cycle is done or stops before a phase; the phases
it has been through are kept, the last one first. `steps` bounds the transitions. -/
def driveFrom (e : Engine) (a : Assignment τ) (stop : Phase → Bool) :
    (steps : Nat) → List Phase → Stage → Calling τ (List Phase × Stage)
  | steps, trace, stage =>
    if stage.phase = .done || stop stage.phase then return (trace.reverse, stage)
    else
      match steps with
      | 0 => throw (.misuse .noResult)
      | steps + 1 => do driveFrom e a stop steps (stage.phase :: trace) (← stage.next e a)

/-- Goes from the start until the cycle is done or stops before a phase. -/
def drive (e : Engine) (a : Assignment τ) (stop : Phase → Bool) : Calling τ (List Phase × Stage) :=
  driveFrom e a stop Stage.start.distance [] .start

end Transitions

structure Outcome where
  state : Service
  action : Action
  trace : List Phase
deriving DecidableEq

/-- A whole cycle. -/
def reconcile {τ : Type} [TimeScale τ] (e : Engine) (a : Assignment τ) : Calling τ Outcome := do
  match ← drive e a fun _ => false with
  | (trace, .done _ state action) => return { state, action, trace }
  | _ => throw (.misuse .noResult)

inductive Plan where
  | create (desired : Service)
  | update (desired current : Service) (drift : Comparison)
  | none (desired current : Service)
deriving DecidableEq

namespace Plan

def action : Plan → Text
  | .create _ => "create"
  | .update _ _ _ => "update"
  | .none _ _ => "none"

def desired : Plan → Service
  | .create desired | .update desired _ _ | .none desired _ => desired

def current : Plan → Option Service
  | .create _ => Option.none
  | .update _ current _ | .none _ current => some current

def patched : Plan → Option Service
  | .update _ _ drift => some drift.patched
  | _ => Option.none

def fields : Plan → List FieldGroup
  | .update _ _ drift => drift.fields
  | _ => []

end Plan

/-- A cycle that stops before it writes, and says what it would have done. -/
def plan {τ : Type} [TimeScale τ] (e : Engine) (a : Assignment τ) : Calling τ Plan := do
  match ← drive e a Phase.isWrite with
  | (_, .creating desired) => return .create desired
  | (_, .writing desired current drift) => return .update desired current drift
  | (_, .done desired current _) => return .none desired current
  | _ => throw (.misuse .noResult)

end Keeper
