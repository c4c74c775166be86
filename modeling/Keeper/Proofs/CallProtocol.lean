import Keeper.Cycle
import Keeper.Proofs.Context

/-!
# Keeper — the calls of a cycle

A cycle makes few calls, in an order that is known beforehand, whatever it is answered.

* **`Arrived`** — at which stage a cycle can be, through which phases and after which exchanges.
* **`Stopped`** — in which phase and after which exchanges a cycle can fail.
* **`Permitted`**, **`Calls`** — which calls it makes, in which phase and after which exchanges.
* **`FailsIn`**, **`Reports`** — how it fails, and how that is reported.
* **`abides_next`** — one transition leads from an arrival to an arrival nearer to the end, or to a
  report: one case for each stage.
* **`abides_driveFrom`** — what every transition keeps is kept by all of them together, and they do
  not run out: the distance to the end is the measure.
* **`reconcile_keeps_protocol`** — the exchanges of a whole cycle and what becomes of it.
-/

namespace Keeper

/-- A service call and the answer to it. -/
abbrev ServiceExchange : Type := ServiceCall × Except Fault Service

/-- A fault of the cycle itself: a phase that nothing follows, or an end without a
result. -/
def Fault.IsDefect (f : Fault) : Prop := f = .misuse .missingKey ∨ f = .misuse .noResult

/-- Every failed answer is one that a cycle reports. -/
def AllReported (es : List ServiceExchange) : Prop := ∀ op f, (op, .error f) ∈ es → f.isReported

/-! ## Where a cycle can be

`look` is the call that looks for the service and `desired` the service it is compared with. The
exchanges are the invariant of the cycle: each stage but the first ones says what has been asked and
answered, and the stages after the comparison say that it was one of `current` and `desired`. -/

/-- The stages a cycle arrives at, each with the phases it has been through and its
exchanges. -/
inductive Arrived (look : ServiceCall) (desired : Service) :
    Stage → List Phase → List ServiceExchange → Prop where
  | start : Arrived look desired .start [] []
  | reading : Arrived look desired (.reading desired) [.start] []
  | notFound (space name : Value) :
    Arrived look desired (.notFound desired) [.start, .reading] [(look, .error (.notFound space name))]
  | creating (space name : Value) :
    Arrived look desired (.creating desired) [.start, .reading, .notFound]
      [(look, .error (.notFound space name))]
  | found (current : Service) :
    Arrived look desired (.found desired current) [.start, .reading] [(look, .ok current)]
  | diffing (current : Service) :
    Arrived look desired (.diffing desired current) [.start, .reading, .found] [(look, .ok current)]
  | unchanged (current : Service) (h : (current.compare desired).changed = false) :
    Arrived look desired (.unchanged desired current) [.start, .reading, .found, .diffing]
      [(look, .ok current)]
  | changed (current : Service) (h : (current.compare desired).changed = true) :
    Arrived look desired (.changed desired current (current.compare desired))
      [.start, .reading, .found, .diffing] [(look, .ok current)]
  | writing (current : Service) (h : (current.compare desired).changed = true) :
    Arrived look desired (.writing desired current (current.compare desired))
      [.start, .reading, .found, .diffing, .changed] [(look, .ok current)]
  | confirmingCreated (space name : Value) (sent : Service) :
    Arrived look desired (.confirming desired .created) [.start, .reading, .notFound, .creating]
      [(look, .error (.notFound space name)), (.create desired, .ok sent)]
  | confirmingUpdated (current sent : Service) (h : (current.compare desired).changed = true) :
    Arrived look desired (.confirming desired (.updated (current.compare desired).fields))
      [.start, .reading, .found, .diffing, .changed, .writing]
      [(look, .ok current), (.update (current.compare desired).patched, .ok sent)]
  | doneUnchanged (current : Service) (h : (current.compare desired).changed = false) :
    Arrived look desired (.done desired current .unchanged)
      [.start, .reading, .found, .diffing, .unchanged] [(look, .ok current)]
  | doneCreated (space name : Value) (sent state : Service) :
    Arrived look desired (.done desired state .created)
      [.start, .reading, .notFound, .creating, .confirming]
      [(look, .error (.notFound space name)), (.create desired, .ok sent), (look, .ok state)]
  | doneUpdated (current sent state : Service) (h : (current.compare desired).changed = true) :
    Arrived look desired (.done desired state (.updated (current.compare desired).fields))
      [.start, .reading, .found, .diffing, .changed, .writing, .confirming]
      [(look, .ok current), (.update (current.compare desired).patched, .ok sent), (look, .ok state)]

/-- The phases in which a cycle that has its desired service can fail, each with the
exchanges it has had by then. -/
inductive Stopped (look : ServiceCall) (desired : Service) : Phase → List ServiceExchange → Prop where
  | beforeReading : Stopped look desired .reading []
  | reading (f : Fault) (h : ∀ space name, f ≠ .notFound space name) :
    Stopped look desired .reading [(look, .error f)]
  | beforeCreating (space name : Value) :
    Stopped look desired .creating [(look, .error (.notFound space name))]
  | creating (space name : Value) (f : Fault) :
    Stopped look desired .creating
      [(look, .error (.notFound space name)), (.create desired, .error f)]
  | beforeWriting (current : Service) (h : (current.compare desired).changed = true) :
    Stopped look desired .writing [(look, .ok current)]
  | writing (current : Service) (h : (current.compare desired).changed = true) (f : Fault) :
    Stopped look desired .writing
      [(look, .ok current), (.update (current.compare desired).patched, .error f)]
  | beforeConfirmingCreated (space name : Value) (sent : Service) :
    Stopped look desired .confirming
      [(look, .error (.notFound space name)), (.create desired, .ok sent)]
  | confirmingCreated (space name : Value) (sent : Service) (f : Fault) :
    Stopped look desired .confirming
      [(look, .error (.notFound space name)), (.create desired, .ok sent), (look, .error f)]
  | beforeConfirmingUpdated (current sent : Service) (h : (current.compare desired).changed = true) :
    Stopped look desired .confirming
      [(look, .ok current), (.update (current.compare desired).patched, .ok sent)]
  | confirmingUpdated (current sent : Service) (h : (current.compare desired).changed = true)
      (f : Fault) :
    Stopped look desired .confirming
      [(look, .ok current), (.update (current.compare desired).patched, .ok sent), (look, .error f)]

/-- The calls a cycle makes, each with the exchanges it has had before: it looks whenever
it wants, creates only after a look that found nothing, and updates only after one that
found drift. -/
inductive Permitted (look : ServiceCall) (desired : Service) :
    List ServiceExchange → ServiceCall → Prop where
  | look (es : List ServiceExchange) : Permitted look desired es look
  | create (space name : Value) :
    Permitted look desired [(look, .error (.notFound space name))] (.create desired)
  | update (current : Service) (h : (current.compare desired).changed = true) :
    Permitted look desired [(look, .ok current)] (.update (current.compare desired).patched)

/-- The phases that make a call, each with its call and the exchanges before it. -/
inductive Calls (look : ServiceCall) (desired : Service) :
    Phase → ServiceCall → List ServiceExchange → Prop where
  | reading : Calls look desired .reading look []
  | creating (space name : Value) :
    Calls look desired .creating (.create desired) [(look, .error (.notFound space name))]
  | writing (current : Service) (h : (current.compare desired).changed = true) :
    Calls look desired .writing (.update (current.compare desired).patched) [(look, .ok current)]
  | confirmingCreated (space name : Value) (sent : Service) :
    Calls look desired .confirming look
      [(look, .error (.notFound space name)), (.create desired, .ok sent)]
  | confirmingUpdated (current sent : Service) (h : (current.compare desired).changed = true) :
    Calls look desired .confirming look
      [(look, .ok current), (.update (current.compare desired).patched, .ok sent)]

/-- How a cycle that has its desired service fails: the context stops it before the call
of a phase, or that call fails. A first read that finds nothing is no failure. -/
inductive FailsIn {τ : Type} (a : Assignment τ) (desired : Service) :
    Phase → List ServiceExchange → Fault → Prop where
  | stopped {phase : Phase} {op : ServiceCall} {es : List ServiceExchange} {cause : Fault}
    (h : Calls (.read a.space desired.name) desired phase op es) (hcause : a.context.Stops cause) :
    FailsIn a desired phase es cause
  | refused {phase : Phase} {op : ServiceCall} {es : List ServiceExchange} {cause : Fault}
    (h : Calls (.read a.space desired.name) desired phase op es)
    (hcause : phase = .reading → ∀ space name, cause ≠ .notFound space name) :
    FailsIn a desired phase (es ++ [(op, .error cause)]) cause

/-- The report of a failure names the phase it happened in. -/
def Reports {τ : Type} (a : Assignment τ) (desired : Service) (es : List ServiceExchange) (f : Fault) :
    Prop :=
  ∃ phase cause, FailsIn a desired phase es cause
    ∧ f = cause.during phase (a.resource desired.name.display)

/-! ## Faults

No fault that a cycle reports is a defect, and reporting it makes none of it. -/

theorem Fault.not_isDefect_of_isReported {f : Fault} (h : f.isReported) : ¬f.IsDefect := by
  rintro (rfl | rfl) <;> simp [Fault.isReported] at h

/-- To name the phase of a fault makes no defect of it. -/
theorem Fault.not_isDefect_during {f : Fault} (h : ¬f.IsDefect) (phase : Phase) (resource : Text) :
    ¬(f.during phase resource).IsDefect := by
  unfold Fault.during
  split
  · exact h
  · split
    · simp [Fault.IsDefect]
    · simp [Fault.IsDefect]

theorem RequestContext.Stops.not_isDefect {τ : Type} {ctx : RequestContext τ} {f : Fault}
    (h : ctx.Stops f) : ¬f.IsDefect := by
  cases h <;> simp [Fault.IsDefect]

/-- Whatever the cause, a failed cycle has stopped at one of the places at which it may:
before the call of its phase, or after that call has failed. -/
theorem FailsIn.stopped_at {τ : Type} {a : Assignment τ} {desired : Service} {phase : Phase}
    {es : List ServiceExchange} {cause : Fault} (h : FailsIn a desired phase es cause) :
    Stopped (.read a.space desired.name) desired phase es := by
  cases h with
  | stopped h hcause =>
    cases h with
    | reading => exact .beforeReading
    | creating space name => exact .beforeCreating space name
    | writing current h => exact .beforeWriting current h
    | confirmingCreated space name sent => exact .beforeConfirmingCreated space name sent
    | confirmingUpdated current sent h => exact .beforeConfirmingUpdated current sent h
  -- The failing call itself stands last here, after the calls that led to its phase.
  | refused h hcause =>
    cases h with
    | reading => exact .reading cause (hcause rfl)
    | creating space name => exact .creating space name cause
    | writing current h => exact .writing current h cause
    | confirmingCreated space name sent => exact .confirmingCreated space name sent cause
    | confirmingUpdated current sent h => exact .confirmingUpdated current sent h cause

/-- How a cycle fails: if every failed answer is one that it reports, with no defect; and
then it has stopped. -/
def FailsSoundly (look : ServiceCall) (desired : Service) (es : List ServiceExchange) (f : Fault) :
    Prop :=
  (AllReported es → ¬f.IsDefect) ∧ ∃ phase, Stopped look desired phase es

/-- What is reported is sound: the cause is a refusal of the context or the answer to a
call, and the cycle adds only the phase. -/
theorem Reports.failsSoundly {τ : Type} {a : Assignment τ} {desired : Service}
    {es : List ServiceExchange} {f : Fault} (h : Reports a desired es f) :
    FailsSoundly (.read a.space desired.name) desired es f := by
  obtain ⟨phase, cause, hfails, rfl⟩ := h
  refine ⟨fun hreported => Fault.not_isDefect_during ?_ phase _, phase, hfails.stopped_at⟩
  cases hfails with
  | stopped h hcause => exact hcause.not_isDefect
  | refused h hcause =>
    have hcause : cause.isReported :=
      hreported _ cause (List.mem_append_right _ (List.mem_singleton.mpr rfl))
    exact Fault.not_isDefect_of_isReported hcause

section Transitions

variable {τ : Type} [TimeScale τ] {permits : List ServiceExchange → ServiceCall → Prop}

/-! ## One transition -/

omit [TimeScale τ] in
/-- What a phase with a desired service does: it fails as it is reported from that
phase. -/
theorem abides_work {succeeds : List ServiceExchange → Stage → Prop}
    {fails : List ServiceExchange → Fault → Prop} {es : List ServiceExchange} (a : Assignment τ)
    (stage : Stage) (desired : Service) (attempt : Calling τ Stage)
    (h : Attempt.Abides permits succeeds
      (fun es f => fails es (f.during stage.phase (a.resource desired.name.display))) attempt es) :
    Attempt.Abides permits succeeds fails (a.work stage desired attempt) es :=
  (Attempt.abides_mapFault _ _).mpr h

/-- The last read, after either kind of write. It is the same step for both, so it is
proved over the action that the write leaves behind. -/
theorem abides_confirm {a : Assignment τ} {desired : Service} {action : Action}
    {trace : List Phase} {es : List ServiceExchange} (e : Engine)
    (hcalls : Calls (.read a.space desired.name) desired .confirming (.read a.space desired.name) es)
    (hdone : ∀ state, Arrived (.read a.space desired.name) desired (.done desired state action)
      (trace ++ [.confirming]) (es ++ [(.read a.space desired.name, .ok state)])) :
    Attempt.Abides (Permitted (.read a.space desired.name) desired)
      (fun es next => Arrived (.read a.space desired.name) desired next (trace ++ [.confirming]) es
        ∧ next.distance < (Stage.confirming desired action).distance)
      (Reports a desired) ((Stage.confirming desired action).next e a) es := by
  refine abides_work _ _ _ _ ?_
  rw [Assignment.confirm, Attempt.abides_bind]
  refine a.context.abides_check ?_ fun f hf => ⟨_, f, .stopped hcalls hf, rfl⟩
  simp only [serviceCall, Attempt.abides_bind, Attempt.abides_call, Attempt.abides_lift]
  refine ⟨.look es, fun answer => ?_⟩
  cases answer with
  | error f => exact ⟨_, f, .refused hcalls (by simp), rfl⟩
  | ok state =>
    -- only an update is logged; the log is no part of the exchanges
    have hnear : (Stage.done desired state action).distance
        < (Stage.confirming desired action).distance := by simp [Stage.distance]
    dsimp only
    by_cases hupdated : (action != .created) = true
    · rw [if_pos hupdated]
      exact ⟨hdone state, hnear⟩
    · rw [if_neg hupdated]
      exact ⟨hdone state, hnear⟩

/-- The step lemma of the protocol: from a stage that is arrived at, one transition makes
at most the call that is permitted there, and leads to a stage that is nearer to the end.
The cases are the stages. -/
theorem abides_next {e : Engine} {a : Assignment τ} {desired : Service}
    (hdesired : e.desired a = .ok desired) {stage : Stage} {trace : List Phase}
    {es : List ServiceExchange} (h : Arrived (.read a.space desired.name) desired stage trace es)
    (hdone : stage.phase ≠ .done) :
    Attempt.Abides (Permitted (.read a.space desired.name) desired)
      (fun es next => Arrived (.read a.space desired.name) desired next (trace ++ [stage.phase]) es
        ∧ next.distance < stage.distance)
      (Reports a desired) (stage.next e a) es := by
  cases h with
  | start =>
    simp only [Stage.next, hdesired, Attempt.abides_bind, Attempt.abides_lift, Attempt.abides_pure]
    exact ⟨.reading, by simp [Stage.distance]⟩
  -- the first call; a service that is not found is no failure
  | reading =>
    refine abides_work _ _ _ _ ?_
    rw [Assignment.look, Attempt.abides_bind]
    refine a.context.abides_check ?_ fun f hf => ⟨_, f, .stopped .reading hf, rfl⟩
    simp only [Attempt.abides_bind, Attempt.abides_call]
    refine ⟨.look [], fun answer => ?_⟩
    cases answer with
    | ok current => exact ⟨.found current, by simp [Stage.distance]⟩
    | error f =>
      cases f with
      | notFound space name => exact ⟨.notFound space name, by simp [Stage.distance]⟩
      | _ => exact ⟨_, _, .refused .reading (by simp), rfl⟩
  | notFound space name => exact ⟨.creating space name, by simp [Stage.distance]⟩
  -- a create: only its own answer matters, and it goes on to the last read
  | creating space name =>
    refine abides_work _ _ _ _ ?_
    rw [Assignment.create, Attempt.abides_bind]
    refine a.context.abides_check ?_ fun f hf => ⟨_, f, .stopped (.creating space name) hf, rfl⟩
    simp only [serviceCall, Attempt.abides_bind, Attempt.abides_call, Attempt.abides_lift]
    refine ⟨.create space name, fun answer => ?_⟩
    cases answer with
    | ok sent => exact ⟨.confirmingCreated space name sent, by simp [Stage.distance]⟩
    | error f => exact ⟨_, f, .refused (.creating space name) (by simp), rfl⟩
  | found current => exact ⟨.diffing current, by simp [Stage.distance]⟩
  | diffing current =>
    simp only [Stage.next, Attempt.abides_pure, diff]
    split
    next h => exact ⟨.changed current h, by simp [Stage.distance]⟩
    next h => exact ⟨.unchanged current (by simpa using h), by simp [Stage.distance]⟩
  | unchanged current h => exact ⟨.doneUnchanged current h, by simp [Stage.distance]⟩
  | changed current h => exact ⟨.writing current h, by simp [Stage.distance]⟩
  -- an update: what is written is what the comparison made of the service that was read
  | writing current h =>
    refine abides_work _ _ _ _ ?_
    rw [Assignment.write, Attempt.abides_bind]
    refine a.context.abides_check ?_ fun f hf => ⟨_, f, .stopped (.writing current h) hf, rfl⟩
    simp only [serviceCall, Attempt.abides_bind, Attempt.abides_log, Attempt.abides_call,
      Attempt.abides_lift]
    refine ⟨.update current h, fun answer => ?_⟩
    cases answer with
    | ok sent => exact ⟨.confirmingUpdated current sent h, by simp [Stage.distance]⟩
    | error f => exact ⟨_, f, .refused (.writing current h) (by simp), rfl⟩
  | confirmingCreated space name sent =>
    exact abides_confirm e (.confirmingCreated space name sent) (.doneCreated space name sent)
  | confirmingUpdated current sent h =>
    exact abides_confirm e (.confirmingUpdated current sent h) (.doneUpdated current sent · h)
  | doneUnchanged => exact absurd rfl hdone
  | doneCreated => exact absurd rfl hdone
  | doneUpdated => exact absurd rfl hdone

/-! ## All transitions

The loop rule: what each transition keeps while it comes nearer to the end is kept by all of them.
Induction on the bound, which the distance to the end never exceeds, so it is never met. -/

/-- What one transition keeps is kept by as many as there are steps for. There are enough
of them because the distance of a stage is less after each transition. -/
theorem abides_driveFrom {e : Engine} {a : Assignment τ} {stop : Phase → Bool}
    (inv : Stage → List Phase → List ServiceExchange → Prop)
    {fails : List ServiceExchange → Fault → Prop}
    (hnext : ∀ {stage trace es}, inv stage trace es → stage.phase ≠ .done →
      Attempt.Abides permits
        (fun es next => inv next (trace ++ [stage.phase]) es ∧ next.distance < stage.distance)
        fails (stage.next e a) es) :
    ∀ (steps : Nat) (trace : List Phase) (stage : Stage) (es : List ServiceExchange),
      inv stage trace.reverse es → stage.distance ≤ steps →
      Attempt.Abides permits
        (fun es r => inv r.2 r.1 es ∧ (r.2.phase = .done ∨ stop r.2.phase = true))
        fails (driveFrom e a stop steps trace stage) es := by
  intro steps
  induction steps with
  | zero =>
    intro trace stage es hinv hsteps
    -- only the end is at no distance from itself
    have hdone : stage.phase = .done := by
      cases stage <;> simp [Stage.distance, Stage.phase] at hsteps ⊢
    unfold driveFrom
    simp [hdone, hinv]
  | succ steps ih =>
    intro trace stage es hinv hsteps
    unfold driveFrom
    split
    next hstop => exact ⟨hinv, by simpa using hstop⟩
    next hgo =>
      have hdone : stage.phase ≠ .done := fun h => hgo (by simp [h])
      refine (Attempt.abides_bind _ _).mpr ?_
      refine (hnext hinv hdone).mono (fun es next hnext => ?_) fun _ _ => id
      -- the distance has gone down by one at least, and the bound by one
      exact ih _ next es (by simpa using hnext.1) (by omega)

/-! ## The whole cycle -/

/-- The three ways in which a cycle comes to an end with a result, each with its
exchanges. -/
inductive Completes (look : ServiceCall) (desired : Service) :
    List ServiceExchange → Outcome → Prop where
  | unchanged (current : Service) (h : (current.compare desired).changed = false) :
    Completes look desired [(look, .ok current)]
      { state := current, action := .unchanged
        trace := [.start, .reading, .found, .diffing, .unchanged] }
  | created (space name : Value) (sent state : Service) :
    Completes look desired
      [(look, .error (.notFound space name)), (.create desired, .ok sent), (look, .ok state)]
      { state, action := .created, trace := [.start, .reading, .notFound, .creating, .confirming] }
  | updated (current sent state : Service) (h : (current.compare desired).changed = true) :
    Completes look desired
      [(look, .ok current), (.update (current.compare desired).patched, .ok sent), (look, .ok state)]
      { state, action := .updated (current.compare desired).fields
        trace := [.start, .reading, .found, .diffing, .changed, .writing, .confirming] }

/-- The whole cycle, from its first stage: it keeps the protocol, completes in one of
three ways or reports a failure. -/
theorem abides_cycle {e : Engine} {a : Assignment τ} {desired : Service}
    (hdesired : e.desired a = .ok desired) :
    Attempt.Abides (Permitted (.read a.space desired.name) desired)
      (Completes (.read a.space desired.name) desired) (Reports a desired) (reconcile e a) [] := by
  refine (Attempt.abides_bind _ _).mpr ?_
  refine (abides_driveFrom (Arrived (.read a.space desired.name) desired) (abides_next hdesired)
    _ [] .start [] .start (Nat.le_refl _)).mono ?_ fun _ _ => id
  rintro es ⟨trace, stage⟩ ⟨harrived, hend⟩
  -- A driven run ends only in the phase `done`, which leaves the three completed courses.
  have hphase : stage.phase = .done := by simpa using hend
  cases harrived with
  | doneUnchanged current h => exact .unchanged current h
  | doneCreated space name sent state => exact .created space name sent state
  | doneUpdated current sent state h => exact .updated current sent state h
  | _ => cases hphase

theorem abides_reconcile {e : Engine} {a : Assignment τ} {desired : Service}
    (hdesired : e.desired a = .ok desired) :
    Attempt.Abides (Permitted (.read a.space desired.name) desired)
      (Completes (.read a.space desired.name) desired)
      (FailsSoundly (.read a.space desired.name) desired) (reconcile e a) [] :=
  (abides_cycle hdesired).mono (fun _ _ => id) fun _ _ h => h.failsSoundly

end Transitions

/-! ## In any surroundings

The exchanges of a run decide what becomes of it: no sequence of exchanges both completes a cycle and
stops it, and one that completes it leaves no choice of the outcome. -/

/-- A cycle that has stopped is at no end with a result: the exchanges tell the two
apart. -/
theorem Stopped.not_completes {look : ServiceCall} {desired : Service} {phase : Phase}
    {es : List ServiceExchange} (h : Stopped look desired phase es) (outcome : Outcome) :
    ¬Completes look desired es outcome := by
  intro hc
  -- the answers alone tell them apart, but for a service that was found: there it is the drift
  cases h <;> cases hc
  case beforeWriting.unchanged current hdrift hsame =>
    exact Bool.noConfusion (hdrift.symm.trans hsame)

theorem Completes.functional {look : ServiceCall} {desired : Service} {es : List ServiceExchange}
    {o o' : Outcome} (h : Completes look desired es o) (h' : Completes look desired es o') :
    o = o' := by
  cases h <;> cases h' <;> rfl

/-- The exchanges of a cycle are the first ones of one of three sequences. -/
inductive Exchanged (look : ServiceCall) (desired : Service) (es : List ServiceExchange) : Prop where
  | read (answer : Except Fault Service) (h : es <+: [(look, answer)])
  | create (space name : Value) (answer state : Except Fault Service)
    (h : es <+: [(look, .error (.notFound space name)), (.create desired, answer), (look, state)])
  | update (current : Service) (hdrift : (current.compare desired).changed = true)
    (answer state : Except Fault Service)
    (h : es <+: [(look, .ok current), (.update (current.compare desired).patched, answer),
      (look, state)])

/-- What a stopped cycle has exchanged begins one of the three sequences. Together with
the completed courses this gives the call order of every cycle, stopped or not. -/
theorem Stopped.exchanged {look : ServiceCall} {desired : Service} {phase : Phase}
    {es : List ServiceExchange} (h : Stopped look desired phase es) : Exchanged look desired es := by
  -- an answer that was not asked for any more can be anything
  have rest : Except Fault Service := .ok desired
  cases h with
  | beforeReading => exact .read rest (by simp)
  | reading f h => exact .read (.error f) (by simp)
  | beforeCreating space name => exact .create space name rest rest (by simp)
  | creating space name f => exact .create space name (.error f) rest (by simp)
  | beforeWriting current h => exact .update current h rest rest (by simp)
  | writing current h f => exact .update current h (.error f) rest (by simp)
  | beforeConfirmingCreated space name sent => exact .create space name (.ok sent) rest (by simp)
  | confirmingCreated space name sent f =>
    exact .create space name (.ok sent) (.error f) (List.prefix_refl _)
  | beforeConfirmingUpdated current sent h => exact .update current h (.ok sent) rest (by simp)
  | confirmingUpdated current sent h f =>
    exact .update current h (.ok sent) (.error f) (List.prefix_refl _)

/-- What a complete one has exchanged is one of them. -/
theorem Completes.exchanged {look : ServiceCall} {desired : Service} {es : List ServiceExchange}
    {o : Outcome} (h : Completes look desired es o) : Exchanged look desired es := by
  cases h with
  | unchanged current h => exact .read (.ok current) (List.prefix_refl _)
  | created space name sent state =>
    exact .create space name (.ok sent) (.ok state) (List.prefix_refl _)
  | updated current sent state h => exact .update current h (.ok sent) (.ok state) (List.prefix_refl _)

/-- The exchanges of a cycle, in order, and what becomes of it. -/
structure KeepsProtocol (look : ServiceCall) (desired : Service) (es : List ServiceExchange)
    (result : Except Fault Outcome) : Prop where
  order : es.map Prod.fst <+: [look] ∨ es.map Prod.fst <+: [look, .create desired, look]
    ∨ ∃ patched, es.map Prod.fst <+: [look, .update patched, look]
  /-- A create follows on a first read that found nothing, and carries the desired service. -/
  create : ∀ before sent answer after, es = before ++ (.create sent, answer) :: after →
    sent = desired ∧ ∃ space name, before = [(look, .error (.notFound space name))]
  /-- An update follows on a first read that found drift, and carries the service brought in line. -/
  update : ∀ before sent answer after, es = before ++ (.update sent, answer) :: after →
    ∃ current, before = [(look, .ok current)] ∧ (current.compare desired).changed = true
      ∧ sent = (current.compare desired).patched
  completes : ∀ outcome, result = .ok outcome ↔ Completes look desired es outcome
  /-- The cycle meets no phase that nothing follows, and no end without a result. -/
  sound : ∀ f, result = .error f → ¬f.IsDefect

/-- What comes before a call that is neither the first nor the last of three. The look
stands first and last, so a call that differs from it can only be the second one. -/
theorem before_of_initial {look op op' : ServiceCall} {answer first second third : Except Fault Service}
    {before after : List ServiceExchange}
    (h : before ++ (op, answer) :: after <+: [(look, first), (op', second), (look, third)])
    (hop : op ≠ look) :
    before = [(look, first)] ∧ op = op' := by
  match before, h with
  | [], h => simp [hop] at h
  | [e], h =>
    obtain ⟨rfl, ⟨rfl, -⟩, -⟩ : e = (look, first) ∧ (op = op' ∧ _) ∧ _ := by simpa using h
    exact ⟨rfl, rfl⟩
  | [e, e'], h => simp [hop] at h
  -- No course has more than three calls, so nothing can follow these.
  | e :: e' :: e'' :: rest, h =>
    have hlength := h.length_le
    simp only [List.length_append, List.length_cons, List.length_nil] at hlength
    omega

/-- One read is no call but a read. -/
theorem not_before_of_initial {look op : ServiceCall} {answer first : Except Fault Service}
    {before after : List ServiceExchange} (hop : op ≠ look) :
    ¬before ++ (op, answer) :: after <+: [(look, first)] := by
  intro h
  have hlength := h.length_le
  match before, h with
  | [], h => simp [hop] at h
  | e :: rest, h => simp at hlength

/-- So the calls come in one of three orders, of which a cycle may have made the first
few. -/
theorem Exchanged.order {space name : Value} {desired : Service} {es : List ServiceExchange}
    (h : Exchanged (.read space name) desired es) :
    es.map Prod.fst <+: [.read space name]
      ∨ es.map Prod.fst <+: [.read space name, .create desired, .read space name]
      ∨ ∃ patched, es.map Prod.fst <+: [.read space name, .update patched, .read space name] := by
  cases h with
  | read answer h => exact .inl (h.map Prod.fst)
  | create sp n answer state h => exact .inr (.inl (h.map Prod.fst))
  | update current hdrift answer state h => exact .inr (.inr ⟨_, h.map Prod.fst⟩)

/-- Before a create there is exactly one exchange, a read that found nothing. -/
theorem Exchanged.before_create {space name : Value} {desired sent : Service}
    {answer : Except Fault Service} {before after : List ServiceExchange}
    (h : Exchanged (.read space name) desired (before ++ (.create sent, answer) :: after)) :
    sent = desired
      ∧ ∃ sp n, before = [(ServiceCall.read space name, .error (.notFound sp n))] := by
  cases h with
  | read answer h => exact absurd h (not_before_of_initial nofun)
  | create sp n answer state h =>
    obtain ⟨hbefore, hsent⟩ := before_of_initial h nofun
    exact ⟨by simpa using hsent, sp, n, hbefore⟩
  | update current hdrift answer state h => cases (before_of_initial h nofun).2

/-- Before an update there is exactly one exchange, a read that found drift, and the
update sends what was read, brought in line. -/
theorem Exchanged.before_update {space name : Value} {desired sent : Service}
    {answer : Except Fault Service} {before after : List ServiceExchange}
    (h : Exchanged (.read space name) desired (before ++ (.update sent, answer) :: after)) :
    ∃ current, before = [(ServiceCall.read space name, .ok current)]
      ∧ (current.compare desired).changed = true ∧ sent = (current.compare desired).patched := by
  cases h with
  | read answer h => exact absurd h (not_before_of_initial nofun)
  | create sp n answer state h => cases (before_of_initial h nofun).2
  | update current hdrift answer state h =>
    obtain ⟨hbefore, hsent⟩ := before_of_initial h nofun
    exact ⟨current, hbefore, hdrift, by simpa using hsent⟩

/-- **The calls of a cycle.** In any surroundings whose failed answers are of the kinds a
cycle reports, whatever their context, clock and answers, a cycle that can build and link
its desired service keeps to the protocol. `abides_next` proves what one phase may do, by
cases on the stage; `abides_cycle` carries it through the drive, with `Arrived` for the
invariant and the stage's distance for the measure. -/
theorem reconcile_keeps_protocol {σ τ : Type} [TimeScale τ] (e : Engine) (a : Assignment τ)
    {desired : Service} (hdesired : e.desired a = .ok desired)
    (world : Surroundings σ τ ServiceCall (Except Fault Service))
    (hreported : ∀ op s f, (world.call op s).1 = .error f → f.isReported) (s : σ) :
    KeepsProtocol (.read a.space desired.name) desired ((reconcile e a).run.exchanges world s)
      ((reconcile e a).run.run world s).1 := by
  have hall : AllReported ((reconcile e a).run.exchanges world s) := by
    intro op f hmem
    obtain ⟨s', hs'⟩ := Program.answer_of_mem_exchanges hmem
    exact hreported op s' f hs'.symm
  -- The tree abides, so its run ends as the tree does; from here on only exchanges and result matter.
  have hends := Program.ends_of_abides (abides_reconcile hdesired) world s
  rw [List.nil_append] at hends
  generalize (reconcile e a).run.exchanges world s = es at hall hends ⊢
  generalize ((reconcile e a).run.run world s).1 = result at hends ⊢
  -- whether it has come to an outcome or not, its exchanges begin one of the sequences
  have hex : Exchanged (.read a.space desired.name) desired es := by
    cases result with
    | ok outcome => exact Completes.exchanged hends
    | error f => exact hends.2.elim fun phase hstopped => hstopped.exchanged
  refine
    { order := hex.order
      create := fun before sent answer after hes => Exchanged.before_create (by rwa [hes] at hex)
      update := fun before sent answer after hes => Exchanged.before_update (by rwa [hes] at hex)
      completes := fun outcome => ?_
      sound := fun f hf => ?_ }
  · -- Outcomes and completed courses determine each other, since a stopped course is never a completed
    -- one.
    cases result with
    | ok outcome' =>
      constructor
      · rintro ⟨rfl⟩
        exact hends
      · intro hcompletes
        rw [Completes.functional hends hcompletes]
    | error f =>
      obtain ⟨-, phase, hstopped⟩ := hends
      exact ⟨nofun, fun hcompletes => absurd hcompletes (hstopped.not_completes outcome)⟩
  · subst hf
    exact hends.1 hall

/-- Surroundings that answer the calls of a cycle with the services laid out for it, one
after the other; where there is none, nothing is found. -/
def Surroundings.scripted :
    Surroundings (List (Option Service)) Seconds ServiceCall (Except Fault Service) where
  cancelled _ := false
  now answers := (.whole 0, answers)
  log _ answers := answers
  call _
    | some service :: rest => (.ok service, rest)
    | none :: rest => (.error (.notFound "" ""), rest)
    | [] => (.error (.notFound "" ""), [])

/-- All that goes wrong there is that nothing is found, which a cycle can report. -/
theorem Surroundings.notFound_of_scripted {op : ServiceCall} {answers : List (Option Service)} {f : Fault}
    (h : (scripted.call op answers).1 = .error f) : f = .notFound "" "" := by
  match answers, h with
  | [], h | none :: _, h => exact (Except.error.inj h).symm

/-- A cluster's own owner and a namespace. -/
def Assignment.sample : Assignment Seconds where
  owner := { apiVersion := "v1", kind := "Cluster", name := "main", uid := "u-1" }
  space := "ops"

/-- A cycle that finds nothing, creates the service and then does not find it either. -/
theorem reconcile_keeps_protocol_unconfirmed :
    ∃ desired,
      (Engine.ofSettings {}).desired Assignment.sample = .ok desired
      ∧ (∀ op s f, (Surroundings.scripted.call op s).1 = .error f → f.isReported)
      ∧ KeepsProtocol (.read Assignment.sample.space desired.name) desired
        ((reconcile (Engine.ofSettings {}) Assignment.sample).run.exchanges Surroundings.scripted
          [none, some desired, none])
        ((reconcile (Engine.ofSettings {}) Assignment.sample).run.run Surroundings.scripted
          [none, some desired, none]).1 := by
  have hreported : ∀ op s f, (Surroundings.scripted.call op s).1 = .error f → f.isReported := by
    intro op s f h
    rw [Surroundings.notFound_of_scripted h]
    rfl
  exact ⟨_, rfl, hreported,
    reconcile_keeps_protocol (Engine.ofSettings {}) Assignment.sample rfl _ hreported _⟩

end Keeper
