import Keeper.Proofs.CallProtocol
import Keeper.Proofs.History

/-!
# Keeper — the course of a cycle

A cycle looks at its context before each of its calls, and goes on as long as the context lasts.
From its history it can be told at which of those looks it was stopped, if it was.

* **`RequestContext.Ends`**, **`RequestContext.Lasts`** — what shows that a context is over, and a
  history that shows nothing of the kind.
* **`RequestContext.Checks`** — a look at a context, by what it learns.
* **`Works`** — a phase that makes a call: a look, and then the call.
* **`FailsAt`** — in which phase and after what history a cycle fails.
* **`unfolds_next`** — one transition, as `abides_next` has it, along its history.
* **`unfolds_driveFrom`** — the loop rule for histories.
* **`unfolds_reconcile`**, **`unfolds_plan`** — the course of a whole cycle, and of one that stops
  before it writes.
-/

namespace Keeper

/-- What a cycle learns while it runs. -/
abbrev ServiceEvent (τ : Type) : Type := Event τ ServiceCall (Except Fault Service)

/-! ## Looks at a context -/

namespace RequestContext

variable {τ ω ρ : Type} [TimeScale τ]

/-- What shows that a context is over: its flag is up, or the time has come. -/
inductive Ends (ctx : RequestContext τ) : Event τ ω ρ → Prop where
  | raised : Ends ctx (.look true)
  | due (time now : τ) (h : ctx.deadline = .at time) (hdue : TimeScale.le time now = true) :
    Ends ctx (.read now)

/-- Nothing in a history shows that the context is over. -/
def Lasts (ctx : RequestContext τ) (h : List (Event τ ω ρ)) : Prop := ∀ e ∈ h, ¬ctx.Ends e

/-- A look at a context, by what it learns. -/
inductive Checks (ctx : RequestContext τ) : List (Event τ ω ρ) → Except Fault Unit → Prop where
  | cancelled : Checks ctx [.look true] (.error (.halted .cancelled))
  | endless (h : ctx.deadline = .never) : Checks ctx [.look false] (.ok ())
  | early (time now : τ) (h : ctx.deadline = .at time) (hearly : TimeScale.le time now = false) :
    Checks ctx [.look false, .read now] (.ok ())
  | due (time now : τ) (h : ctx.deadline = .at time) (hdue : TimeScale.le time now = true) :
    Checks ctx [.look false, .read now] (.error (.halted .deadlineExceeded))
  | malformed (given : Value) (now : τ) (h : ctx.deadline = .malformed given) :
    Checks ctx [.look false, .read now] (.error (.misuse .wrongType))

variable {ctx : RequestContext τ} {h h' : List (Event τ ω ρ)}

/-- A look at the flag shows the end of a context exactly if the flag is up. -/
@[simp] theorem ends_look {b : Bool} : ctx.Ends (.look b : Event τ ω ρ) ↔ b = true := by
  constructor
  · rintro ⟨⟩
    rfl
  · rintro rfl
    exact .raised

/-- A reading of the clock shows it exactly if the time has come. -/
@[simp] theorem ends_read {now : τ} : ctx.Ends (.read now : Event τ ω ρ)
    ↔ ∃ time, ctx.deadline = .at time ∧ TimeScale.le time now = true := by
  constructor
  · rintro (_ | ⟨time, _, hdeadline, hdue⟩)
    exact ⟨time, hdeadline, hdue⟩
  · rintro ⟨time, hdeadline, hdue⟩
    exact .due time now hdeadline hdue

/-- A call shows nothing of a context: if it is cancelled meanwhile, the next look will
tell. -/
@[simp] theorem not_ends_call (op : ω) (answer : ρ) (raised : Bool) :
    ¬ctx.Ends (.call op answer raised : Event τ ω ρ) := by
  rintro ⟨⟩

@[simp] theorem lasts_nil : ctx.Lasts ([] : List (Event τ ω ρ)) := by simp [Lasts]

/-- A context has lasted through a history if no event shows its end. -/
@[simp] theorem lasts_cons {e : Event τ ω ρ} : ctx.Lasts (e :: h) ↔ ¬ctx.Ends e ∧ ctx.Lasts h :=
  List.forall_mem_cons

/-- So it is told part by part, which is how the invariant of a cycle grows. -/
@[simp] theorem lasts_append : ctx.Lasts (h ++ h') ↔ ctx.Lasts h ∧ ctx.Lasts h' := by
  simp only [Lasts, List.mem_append, or_imp, forall_and]

/-- The five histories of a check, by what the flag and the deadline are. The clock is not
read when the flag is up already, nor without a deadline. -/
theorem checks_of_unfolds {result : Except Fault Unit}
    (hcheck : (ctx.check : Attempt τ ω ρ Unit).Unfolds h result) : ctx.Checks h result := by
  unfold check at hcheck
  obtain ⟨b, m, rfl, hrest⟩ := Attempt.unfolds_cancelled_bind.mp hcheck
  cases b with
  | true =>
    obtain ⟨rfl, rfl⟩ := Attempt.unfolds_throw.mp hrest
    exact .cancelled
  | false =>
    -- the flag is down, so it is for the deadline to say
    cases hdeadline : ctx.deadline with
    | never =>
      obtain ⟨rfl, rfl⟩ : m = [] ∧ result = .ok () := by simpa [hdeadline] using hrest
      exact .endless hdeadline
    -- The clock is read even then, since it is the comparison with it that fails.
    | malformed given =>
      simp only [hdeadline] at hrest
      obtain ⟨now, m', rfl, hfails⟩ := Attempt.unfolds_now_bind.mp hrest
      obtain ⟨rfl, rfl⟩ := Attempt.unfolds_throw.mp hfails
      exact .malformed given now hdeadline
    | «at» time =>
      simp only [hdeadline] at hrest
      obtain ⟨now, m', rfl, hread⟩ := Attempt.unfolds_now_bind.mp hrest
      cases hdue : TimeScale.le time now with
      | true =>
        obtain ⟨rfl, rfl⟩ : m' = [] ∧ result = .error (.halted .deadlineExceeded) := by
          simpa [hdue] using hread
        exact .due time now hdeadline hdue
      | false =>
        obtain ⟨rfl, rfl⟩ : m' = [] ∧ result = .ok () := by simpa [hdue] using hread
        exact .early time now hdeadline hdue

/-- Where nobody cancels a context and the clock stays before its end, it lasts. The
induction is on the program, so this holds of every cycle and of every plan alike. -/
theorem lasts_events {σ α : Type} {world : Surroundings σ τ ω ρ}
    (hcancelled : ∀ s, world.cancelled s = false)
    (hearly : ∀ s time, ctx.deadline = .at time → TimeScale.le time (world.now s).1 = false)
    (p : Program τ ω ρ α) (s : σ) : ctx.Lasts (p.events world s) := by
  -- On the program: neither kind of event that could end the context does so in these surroundings.
  induction p generalizing s with
  | done a => exact lasts_nil
  | cancelled next ih => exact lasts_cons.mpr ⟨by simp [hcancelled], ih _ s⟩
  | now next ih =>
    refine lasts_cons.mpr ⟨?_, ih _ _⟩
    rw [ends_read]
    rintro ⟨time, hdeadline, hdue⟩
    exact Bool.noConfusion ((hearly s time hdeadline).symm.trans hdue)
  | log entry next ih => exact ih _
  | call op next ih => exact lasts_cons.mpr ⟨not_ends_call op _ _, ih _ _⟩

namespace Checks

theorem exchanges {result : Except Fault Unit} (hcheck : ctx.Checks h result) :
    Event.exchanges h = [] := by
  cases hcheck <;> rfl

theorem lasts (hcheck : ctx.Checks h (.ok ())) : ctx.Lasts h := by
  cases hcheck with
  | endless hdeadline => simp
  | early time now hdeadline hearly => simp [hdeadline, hearly]

/-- A look that stops a program shows the end of the context, or what is given as its end
is none. -/
theorem ends {cause : Fault} (hcheck : ctx.Checks h (.error cause)) :
    (¬ctx.Lasts h ∧ ∃ halt, cause = .halted halt)
      ∨ (ctx.Lasts h ∧ ∃ given, ctx.deadline = .malformed given) := by
  cases hcheck with
  | cancelled => exact .inl ⟨by simp, _, rfl⟩
  | due time now hdeadline hdue => exact .inl ⟨by simp [hdeadline, hdue], _, rfl⟩
  | malformed given now hdeadline => exact .inr ⟨by simp [hdeadline], given, hdeadline⟩

theorem stops {cause : Fault} (hcheck : ctx.Checks h (.error cause)) : ctx.Stops cause := by
  cases hcheck with
  | cancelled => exact .cancelled
  | due time now hdeadline hdue => exact .expired time hdeadline
  | malformed given now hdeadline => exact .malformed given hdeadline

end Checks

end RequestContext

section Transitions

variable {τ : Type} [TimeScale τ] {a : Assignment τ} {desired : Service}
  {h m : List (ServiceEvent τ)}

/-! ## The phases that make a call

Each looks at its context, makes its call and goes by the answer; what it logs is not seen. -/

/-- The course of a phase that makes a call. -/
inductive Works (ctx : RequestContext τ) (op : ServiceCall)
    (goes : Except Fault Service → Except Fault Stage) :
    List (ServiceEvent τ) → Except Fault Stage → Prop where
  | stopped {m : List (ServiceEvent τ)} {cause : Fault} (hcheck : ctx.Checks m (.error cause)) :
    Works ctx op goes m (.error cause)
  | answered {m : List (ServiceEvent τ)} (answer : Except Fault Service) (raised : Bool)
    (hcheck : ctx.Checks m (.ok ())) :
    Works ctx op goes (m ++ [.call op answer raised]) (goes answer)

/-- A phase that makes one call checks its context first, and only then calls. All four
phases with a call are of this form, so the two ways in which such a phase goes are told
once. -/
theorem works_of_unfolds {ctx : RequestContext τ} {op : ServiceCall}
    {goes : Except Fault Service → Except Fault Stage} {rest : Calling τ Stage}
    {result : Except Fault Stage}
    (hrest : ∀ {m result}, rest.Unfolds m result →
      ∃ answer raised, m = [.call op answer raised] ∧ result = goes answer)
    (hwork : (do ctx.check; rest).Unfolds m result) : Works ctx op goes m result := by
  obtain ⟨fault, rfl, hcheck⟩ | ⟨m₁, m₂, _, rfl, hcheck, hgoes⟩ := Attempt.unfolds_bind.mp hwork
  · exact .stopped (RequestContext.checks_of_unfolds hcheck)
  · obtain ⟨answer, raised, rfl, rfl⟩ := hrest hgoes
    exact .answered answer raised (RequestContext.checks_of_unfolds hcheck)

/-- A service that is not found is no failure of the look for it. -/
def Service.looked (desired : Service) : Except Fault Service → Except Fault Stage
  | .ok current => .ok (.found desired current)
  | .error (.notFound _ _) => .ok (.notFound desired)
  | .error f => .error f

/-- The first read, which takes a service that is not there for an answer. -/
theorem works_look {result : Except Fault Stage} (hlook : (a.look desired).Unfolds m result) :
    Works a.context (.read a.space desired.name) desired.looked m result := by
  refine works_of_unfolds (fun {m result} hrest => ?_) hlook
  obtain ⟨answer, raised, m, rfl, hgoes⟩ := Attempt.unfolds_call_bind.mp hrest
  refine ⟨answer, raised, ?_⟩
  cases answer with
  | ok current => simpa [Service.looked] using hgoes
  | error f =>
    -- A service that is not found is no failure of the look; it goes on as one to be created.
    cases f with
    | notFound space name => simpa [Service.looked] using Attempt.unfolds_log_bind.mp hgoes
    | _ => simpa [Service.looked] using hgoes

/-- Any other call that fails makes its phase fail; what it answers is handed on. The
creating, writing and confirming phases are this, each with its own call and its own next
stage. -/
theorem works_of_serviceCall {ctx : RequestContext τ} {op : ServiceCall} {next : Service → Stage}
    {rest : Calling τ Stage} {finish : Service → Calling τ Stage} {result : Except Fault Stage}
    (hrest : ∀ {m result}, rest.Unfolds m result → (serviceCall op >>= finish).Unfolds m result)
    (hfinish : ∀ {service m result}, (finish service).Unfolds m result →
      m = [] ∧ result = .ok (next service))
    (hwork : (do ctx.check; rest).Unfolds m result) : Works ctx op (Except.map next) m result := by
  refine works_of_unfolds (fun {m result} hcall => ?_) hwork
  obtain ⟨answer, raised, m, rfl, hgoes⟩ := Attempt.unfolds_call_bind.mp (hrest hcall)
  refine ⟨answer, raised, ?_⟩
  cases answer with
  | error f => simpa [Except.map] using Attempt.unfolds_throw.mp hgoes
  | ok service => simpa [Except.map] using hfinish hgoes

theorem works_create {result : Except Fault Stage} (hcreate : (a.create desired).Unfolds m result) :
    Works a.context (.create desired) (Except.map fun _ => .confirming desired .created) m result :=
  works_of_serviceCall id
    (fun hfinish => Attempt.unfolds_pure.mp (Attempt.unfolds_log_bind.mp hfinish)) hcreate

theorem works_write {drift : Comparison} {result : Except Fault Stage}
    (hwrite : (a.write desired drift).Unfolds m result) :
    Works a.context (.update drift.patched)
      (Except.map fun _ => .confirming desired (.updated drift.fields)) m result :=
  works_of_serviceCall Attempt.unfolds_log_bind.mp Attempt.unfolds_pure.mp hwrite

/-- The last read, which makes the result. -/
theorem works_confirm {action : Action} {result : Except Fault Stage}
    (hconfirm : (a.confirm desired action).Unfolds m result) :
    Works a.context (.read a.space desired.name) (Except.map fun state => .done desired state action)
      m result := by
  refine works_of_serviceCall id (fun {state m result} hfinish => ?_) hconfirm
  -- a create has been logged before
  cases action with
  | created => exact Attempt.unfolds_pure.mp hfinish
  | _ => exact Attempt.unfolds_pure.mp (Attempt.unfolds_log_bind.mp hfinish)

/-! ## One transition -/

/-- How a cycle that has its desired service fails, and in which phase: up to then its
context has lasted, and now it stops the cycle before the call of the phase, or that call
fails. -/
inductive FailsAt (a : Assignment τ) (desired : Service) :
    Phase → List (ServiceEvent τ) → Fault → Prop where
  | stopped {phase : Phase} {op : ServiceCall} {h m : List (ServiceEvent τ)} {cause : Fault}
    (hcalls : Calls (.read a.space desired.name) desired phase op (Event.exchanges h))
    (hlasts : a.context.Lasts h) (hcheck : a.context.Checks m (.error cause)) :
    FailsAt a desired phase (h ++ m) cause
  | refused {phase : Phase} {op : ServiceCall} {h m : List (ServiceEvent τ)} {cause : Fault}
    (hcalls : Calls (.read a.space desired.name) desired phase op (Event.exchanges h))
    (hlasts : a.context.Lasts h) (hcheck : a.context.Checks m (.ok ())) (raised : Bool)
    (hcause : phase = .reading → ∀ space name, cause ≠ .notFound space name) :
    FailsAt a desired phase (h ++ (m ++ [.call op (.error cause) raised])) cause

/-- Where a cycle is that has come as far as a stage: its context has lasted. -/
structure Reached (a : Assignment τ) (desired : Service) (stage : Stage) (trace : List Phase)
    (h : List (ServiceEvent τ)) : Prop where
  arrived : Arrived (.read a.space desired.name) desired stage trace (Event.exchanges h)
  lasts : a.context.Lasts h

/-- Where one transition leads: nearer to the end, or to a failure of its phase. -/
def Leads (a : Assignment τ) (desired : Service) (stage : Stage) (trace : List Phase)
    (h : List (ServiceEvent τ)) : Except Fault Stage → Prop :=
  Attempt.EndsWith
    (fun next => Reached a desired next (trace ++ [stage.phase]) h ∧ next.distance < stage.distance)
    fun f => ∃ cause, FailsAt a desired stage.phase h cause
      ∧ f = cause.during stage.phase (a.resource desired.name.display)

/-- A phase that makes a call leads on if its answer does. The step lemma of the course:
it turns what is known of one call into what is known of the stage after it. -/
theorem Works.leads {op : ServiceCall} {goes : Except Fault Service → Except Fault Stage}
    {stage : Stage} {trace : List Phase} {r : Except Fault Stage}
    (hcalls : Calls (.read a.space desired.name) desired stage.phase op (Event.exchanges h))
    (hlasts : a.context.Lasts h)
    (hgoes : ∀ answer, Attempt.EndsWith
      (fun next => Arrived (.read a.space desired.name) desired next (trace ++ [stage.phase])
        (Event.exchanges h ++ [(op, answer)]) ∧ next.distance < stage.distance)
      (fun f => answer = .error f
        ∧ (stage.phase = .reading → ∀ space name, f ≠ .notFound space name)) (goes answer))
    (hworks : Works a.context op goes m r) :
    Leads a desired stage trace (h ++ m)
      (r.mapError (Fault.during stage.phase (a.resource desired.name.display))) := by
  cases hworks with
  | stopped hcheck => exact ⟨_, .stopped hcalls hlasts hcheck, rfl⟩
  | @answered m answer raised hcheck =>
    have hgoes := hgoes answer
    -- The stage decides from the answer alone whether it fails or hands over to a next stage.
    cases hnext : goes answer with
    | error f =>
      rw [hnext] at hgoes
      obtain ⟨rfl, hcause⟩ := hgoes
      exact ⟨f, .refused hcalls hlasts hcheck raised hcause, rfl⟩
    | ok next =>
      rw [hnext] at hgoes
      refine ⟨⟨?_, ?_⟩, hgoes.2⟩
      · simpa [hcheck.exchanges] using hgoes.1
      · simpa using ⟨hlasts, hcheck.lasts⟩

/-- The step lemma of the course. By the stage that has been reached, one transition
either makes no call, or is one of the four phases with a call; then the history grows by
the check and the call, and the cycle is at the next stage or has failed in this phase. -/
theorem unfolds_next {e : Engine} (hdesired : e.desired a = .ok desired) {stage : Stage}
    {trace : List Phase} (hreached : Reached a desired stage trace h) (hdone : stage.phase ≠ .done)
    {result : Except Fault Stage} (hnext : (stage.next e a).Unfolds m result) :
    Leads a desired stage trace (h ++ m) result := by
  obtain ⟨harrived, hlasts⟩ := hreached
  -- a transition without a call
  have hsilent {next : Stage} (hnext : (pure next : Calling τ Stage).Unfolds m result)
      (harrived : Arrived (.read a.space desired.name) desired next (trace ++ [stage.phase])
        (Event.exchanges h)) (hnear : next.distance < stage.distance) :
      Leads a desired stage trace (h ++ m) result := by
    obtain ⟨rfl, rfl⟩ := Attempt.unfolds_pure.mp hnext
    rw [List.append_nil]
    exact ⟨⟨harrived, hlasts⟩, hnear⟩
  generalize hes : Event.exchanges h = es at harrived hsilent
  -- the exchanges so far are those of the stage, so each case knows which call comes next
  cases harrived with
  | start =>
    simp only [Stage.next, hdesired] at hnext
    exact hsilent hnext .reading (by simp [Stage.distance])
  -- That nothing is found is an answer here; any other failure is one of this phase.
  | reading =>
    obtain ⟨r, rfl, hwork⟩ := Attempt.unfolds_mapFault.mp hnext
    refine (works_look hwork).leads (hes ▸ .reading) hlasts fun answer => ?_
    rw [hes]
    cases answer with
    | ok current => exact ⟨.found current, by simp [Stage.distance]⟩
    | error f =>
      cases f with
      | notFound space name => exact ⟨.notFound space name, by simp [Stage.distance]⟩
      | _ => exact ⟨rfl, by simp⟩
  | notFound space name =>
    exact hsilent hnext (.creating space name) (by simp [Stage.distance])
  | creating space name =>
    obtain ⟨r, rfl, hwork⟩ := Attempt.unfolds_mapFault.mp hnext
    refine (works_create hwork).leads (hes ▸ .creating space name) hlasts fun answer => ?_
    cases answer with
    | error f => exact ⟨rfl, by simp [Stage.phase]⟩
    | ok sent => exact ⟨hes ▸ .confirmingCreated space name sent, by simp [Stage.distance]⟩
  | found current => exact hsilent hnext (.diffing current) (by simp [Stage.distance])
  -- The comparison decides alone which way the cycle goes, without a call.
  | diffing current =>
    simp only [Stage.next, diff] at hnext
    split at hnext
    next h => exact hsilent hnext (.changed current h) (by simp [Stage.distance])
    next h => exact hsilent hnext (.unchanged current (by simpa using h)) (by simp [Stage.distance])
  | unchanged current h =>
    exact hsilent (Attempt.unfolds_log_bind.mp hnext) (.doneUnchanged current h)
      (by simp [Stage.distance])
  | changed current h => exact hsilent hnext (.writing current h) (by simp [Stage.distance])
  | writing current h =>
    obtain ⟨r, rfl, hwork⟩ := Attempt.unfolds_mapFault.mp hnext
    refine (works_write hwork).leads (hes ▸ .writing current h) hlasts fun answer => ?_
    cases answer with
    | error f => exact ⟨rfl, by simp [Stage.phase]⟩
    | ok sent => exact ⟨hes ▸ .confirmingUpdated current sent h, by simp [Stage.distance]⟩
  | confirmingCreated space name sent =>
    obtain ⟨r, rfl, hwork⟩ := Attempt.unfolds_mapFault.mp hnext
    refine (works_confirm hwork).leads (hes ▸ .confirmingCreated space name sent) hlasts
      fun answer => ?_
    cases answer with
    | error f => exact ⟨rfl, by simp [Stage.phase]⟩
    | ok state => exact ⟨hes ▸ .doneCreated space name sent state, by simp [Stage.distance]⟩
  | confirmingUpdated current sent h =>
    obtain ⟨r, rfl, hwork⟩ := Attempt.unfolds_mapFault.mp hnext
    refine (works_confirm hwork).leads (hes ▸ .confirmingUpdated current sent h) hlasts
      fun answer => ?_
    cases answer with
    | error f => exact ⟨rfl, by simp [Stage.phase]⟩
    | ok state => exact ⟨hes ▸ .doneUpdated current sent state h, by simp [Stage.distance]⟩
  | doneUnchanged => exact absurd rfl hdone
  | doneCreated => exact absurd rfl hdone
  | doneUpdated => exact absurd rfl hdone

/-! ## All transitions

The loop rule for histories: what each transition keeps is kept by all of them. Induction on the
bound, which the distance to the end never exceeds. -/

/-- The run lemma. What each transition keeps is kept from stage to stage until a phase
that is to be stopped at, or the last one. The induction is on the number of steps, of
which there are enough since each brings the end nearer. -/
theorem unfolds_driveFrom {e : Engine} {stop : Phase → Bool}
    (inv : Stage → List Phase → List (ServiceEvent τ) → Prop)
    (fails : List (ServiceEvent τ) → Fault → Prop)
    (hnext : ∀ {stage trace h m result}, inv stage trace h → stage.phase ≠ .done →
      stop stage.phase = false → (stage.next e a).Unfolds m result →
      Attempt.EndsWith
        (fun next => inv next (trace ++ [stage.phase]) (h ++ m) ∧ next.distance < stage.distance)
        (fails (h ++ m)) result) :
    ∀ (steps : Nat) {trace : List Phase} {stage : Stage} {h m : List (ServiceEvent τ)}
      {result : Except Fault (List Phase × Stage)},
      inv stage trace.reverse h → stage.distance ≤ steps →
      (driveFrom e a stop steps trace stage).Unfolds m result →
      Attempt.EndsWith
        (fun last => inv last.2 last.1 (h ++ m)
          ∧ (last.2.phase = .done ∨ stop last.2.phase = true))
        (fails (h ++ m)) result := by
  intro steps
  induction steps with
  | zero =>
    intro trace stage h m result hinv hsteps hdrive
    -- only the end is at no distance from itself
    have hdone : stage.phase = .done := by
      cases stage <;> simp [Stage.distance, Stage.phase] at hsteps ⊢
    unfold driveFrom at hdrive
    simp only [hdone, decide_true, Bool.true_or, if_true] at hdrive
    obtain ⟨rfl, rfl⟩ := Attempt.unfolds_pure.mp hdrive
    rw [List.append_nil]
    exact ⟨hinv, .inl hdone⟩
  | succ steps ih =>
    intro trace stage h m result hinv hsteps hdrive
    unfold driveFrom at hdrive
    split at hdrive
    next hstop =>
      obtain ⟨rfl, rfl⟩ := Attempt.unfolds_pure.mp hdrive
      rw [List.append_nil]
      exact ⟨hinv, by simpa using hstop⟩
    next hgo =>
      obtain ⟨hdone, hstop⟩ : stage.phase ≠ .done ∧ stop stage.phase = false := by simpa using hgo
      rcases Attempt.unfolds_bind.mp hdrive with
        ⟨f, rfl, hfirst⟩ | ⟨m₁, m₂, next, rfl, hfirst, hrest⟩
      · exact hnext hinv hdone hstop hfirst
      · obtain ⟨hkept, hnear⟩ := hnext hinv hdone hstop hfirst
        -- the distance has gone down by one at least, and the bound by one
        have hkept : inv next (stage.phase :: trace).reverse (h ++ m₁) := by simpa using hkept
        have hends := ih hkept (by omega) hrest
        rwa [List.append_assoc] at hends

/-- The same for a drive from the start, with nothing learned and no phase behind it. -/
theorem unfolds_drive {e : Engine} {stop : Phase → Bool}
    (inv : Stage → List Phase → List (ServiceEvent τ) → Prop)
    (fails : List (ServiceEvent τ) → Fault → Prop) (hstart : inv .start [] [])
    (hnext : ∀ {stage trace h m result}, inv stage trace h → stage.phase ≠ .done →
      stop stage.phase = false → (stage.next e a).Unfolds m result →
      Attempt.EndsWith
        (fun next => inv next (trace ++ [stage.phase]) (h ++ m) ∧ next.distance < stage.distance)
        (fails (h ++ m)) result)
    {result : Except Fault (List Phase × Stage)} (hdrive : (drive e a stop).Unfolds m result) :
    Attempt.EndsWith
      (fun last => inv last.2 last.1 m ∧ (last.2.phase = .done ∨ stop last.2.phase = true)) (fails m)
      result :=
  unfolds_driveFrom (h := []) inv fails hnext _ hstart (Nat.le_refl _) hdrive

/-! ## Whole cycles -/

/-- The report of a failure names the phase it happened in; the history tells which that
was. -/
def FailsWith (a : Assignment τ) (desired : Service) (h : List (ServiceEvent τ)) (f : Fault) : Prop :=
  ∃ phase cause, FailsAt a desired phase h cause
    ∧ f = cause.during phase (a.resource desired.name.display)

/-- The course of a whole cycle: it completes while its context lasts, or it fails. The
run lemma: `Arrived` holds of every stage that the drive comes to, and a stage that is
done says which of the three courses it was. -/
theorem unfolds_reconcile {e : Engine} (hdesired : e.desired a = .ok desired)
    {result : Except Fault Outcome} (hcycle : (reconcile e a).Unfolds h result) :
    Attempt.EndsWith
      (fun outcome => Completes (.read a.space desired.name) desired (Event.exchanges h) outcome
        ∧ a.context.Lasts h)
      (FailsWith a desired h) result := by
  have hdrive {m : List (ServiceEvent τ)} {r : Except Fault (List Phase × Stage)}
      (hdrive : (drive e a fun _ => false).Unfolds m r) :=
    unfolds_drive (Reached a desired) (FailsWith a desired) ⟨.start, RequestContext.lasts_nil⟩
      (fun hreached hdone _ hnext => (unfolds_next hdesired hreached hdone hnext).mono
        (fun _ => id) fun f hf => ⟨_, hf⟩) hdrive
  rcases Attempt.unfolds_bind.mp hcycle with
    ⟨f, rfl, hfirst⟩ | ⟨m₁, m₂, ⟨trace, stage⟩, rfl, hfirst, hrest⟩
  · exact hdrive hfirst
  · obtain ⟨⟨harrived, hlasts⟩, hend⟩ := hdrive hfirst
    have hphase : stage.phase = .done := by simpa using hend
    -- what is left makes no call and looks at nothing
    have hcompletes {outcome : Outcome} (hrest : (pure outcome : Calling τ Outcome).Unfolds m₂ result)
        (hcompletes : Completes (.read a.space desired.name) desired (Event.exchanges m₁) outcome) :
        Attempt.EndsWith (fun outcome => Completes (.read a.space desired.name) desired
            (Event.exchanges (m₁ ++ m₂)) outcome ∧ a.context.Lasts (m₁ ++ m₂))
          (FailsWith a desired (m₁ ++ m₂)) result := by
      obtain ⟨rfl, rfl⟩ := Attempt.unfolds_pure.mp hrest
      rw [List.append_nil]
      exact ⟨hcompletes, hlasts⟩
    generalize Event.exchanges m₁ = es at harrived hcompletes
    cases harrived with
    | doneUnchanged current h => exact hcompletes hrest (.unchanged current h)
    | doneCreated space name sent state => exact hcompletes hrest (.created space name sent state)
    | doneUpdated current sent state h => exact hcompletes hrest (.updated current sent state h)
    | _ => cases hphase

/-- What is planned, by the exchanges of a cycle that stops before it writes. -/
inductive Plans (look : ServiceCall) (desired : Service) : List ServiceExchange → Plan → Prop where
  | create (space name : Value) :
    Plans look desired [(look, .error (.notFound space name))] (.create desired)
  | update (current : Service) (h : (current.compare desired).changed = true) :
    Plans look desired [(look, .ok current)] (.update desired current (current.compare desired))
  | none (current : Service) (h : (current.compare desired).changed = false) :
    Plans look desired [(look, .ok current)] (.none desired current)

/-- Nothing is confirmed but a write. -/
theorem Arrived.confirming_after_write {look : ServiceCall} {stage : Stage} {trace : List Phase}
    {es : List ServiceExchange} (harrived : Arrived look desired stage trace es)
    (hconfirming : stage.phase = .confirming) : ∃ phase ∈ trace, phase.isWrite = true := by
  cases harrived with
  | confirmingCreated => exact ⟨.creating, by simp, rfl⟩
  | confirmingUpdated => exact ⟨.writing, by simp, rfl⟩
  | _ => cases hconfirming

/-- A cycle that has its desired service fails in one of the phases with a call, and so
never in one that only decides. -/
theorem FailsAt.phase_cases {phase : Phase} {cause : Fault} (hfails : FailsAt a desired phase h cause) :
    phase = .reading ∨ phase.isWrite = true ∨ phase = .confirming := by
  have hcases {op : ServiceCall} {es : List ServiceExchange}
      (hcalls : Calls (.read a.space desired.name) desired phase op es) :
      phase = .reading ∨ phase.isWrite = true ∨ phase = .confirming := by
    cases hcalls <;> decide
  cases hfails with
  | stopped hcalls hlasts hcheck => exact hcases hcalls
  | refused hcalls hlasts hcheck raised hcause => exact hcases hcalls

/-- The course of a cycle that stops before it writes: it fails while it reads, or
not at all. The drive is the same as a cycle's, so what is known of its stages is
known here too. -/
theorem unfolds_plan {e : Engine} (hdesired : e.desired a = .ok desired) {result : Except Fault Plan}
    (hplan : (plan e a).Unfolds h result) :
    Attempt.EndsWith
      (fun p => Plans (.read a.space desired.name) desired (Event.exchanges h) p ∧ a.context.Lasts h)
      (fun f => ∃ cause, FailsAt a desired .reading h cause
        ∧ f = cause.during .reading (a.resource desired.name.display)) result := by
  -- it stops before a write, so it has been through none
  have hdrive {m : List (ServiceEvent τ)} {r : Except Fault (List Phase × Stage)}
      (hdrive : (drive e a Phase.isWrite).Unfolds m r) :=
    unfolds_drive
      (fun stage trace h => Reached a desired stage trace h
        ∧ ∀ phase ∈ trace, phase.isWrite = false)
      (fun h f => ∃ cause, FailsAt a desired .reading h cause
        ∧ f = cause.during .reading (a.resource desired.name.display))
      ⟨⟨.start, RequestContext.lasts_nil⟩, by simp⟩
      (fun {stage trace h m result} hreached hdone hstop hnext => by
        refine (unfolds_next hdesired hreached.1 hdone hnext).mono (fun next hnext => ?_) fun f hf => ?_
        · refine ⟨⟨hnext.1, fun phase hphase => ?_⟩, hnext.2⟩
          rcases List.mem_append.mp hphase with hphase | hphase
          · exact hreached.2 phase hphase
          · rwa [List.mem_singleton.mp hphase]
        · obtain ⟨cause, hfails, rfl⟩ := hf
          rcases hfails.phase_cases with hreading | hwrite | hconfirming
          · exact ⟨cause, hreading ▸ hfails, by rw [hreading]⟩
          · exact Bool.noConfusion (hstop.symm.trans hwrite)
          · obtain ⟨phase, hphase, hwrite⟩ := hreached.1.arrived.confirming_after_write hconfirming
            exact Bool.noConfusion ((hreached.2 phase hphase).symm.trans hwrite))
      hdrive
  rcases Attempt.unfolds_bind.mp hplan with
    ⟨f, rfl, hfirst⟩ | ⟨m₁, m₂, ⟨trace, stage⟩, rfl, hfirst, hrest⟩
  · exact hdrive hfirst
  · obtain ⟨⟨⟨harrived, hlasts⟩, hunwritten⟩, hend⟩ := hdrive hfirst
    -- what is left makes no call and looks at nothing
    have hplans {p : Plan} (hrest : (pure p : Calling τ Plan).Unfolds m₂ result)
        (hplans : Plans (.read a.space desired.name) desired (Event.exchanges m₁) p) :
        Attempt.EndsWith (fun p => Plans (.read a.space desired.name) desired
            (Event.exchanges (m₁ ++ m₂)) p ∧ a.context.Lasts (m₁ ++ m₂))
          (fun f => ∃ cause, FailsAt a desired .reading (m₁ ++ m₂) cause
            ∧ f = cause.during .reading (a.resource desired.name.display)) result := by
      obtain ⟨rfl, rfl⟩ := Attempt.unfolds_pure.mp hrest
      rw [List.append_nil]
      exact ⟨hplans, hlasts⟩
    generalize Event.exchanges m₁ = es at harrived hplans
    cases harrived with
    | creating space name => exact hplans hrest (.create space name)
    | writing current h => exact hplans hrest (.update current h)
    | doneUnchanged current h => exact hplans hrest (.none current h)
    | doneCreated => exact absurd (hunwritten .creating (by simp)) (by decide)
    | doneUpdated => exact absurd (hunwritten .writing (by simp)) (by decide)
    | _ => simp [Stage.phase, Phase.isWrite] at hend

/-- A cycle without a desired service, whole or not, fails at once. -/
theorem unfolds_unstarted {e : Engine} {f : Fault} (hdesired : e.desired a = .error f)
    (stop : Phase → Bool) (hstop : stop .start = false) {α : Type}
    {finish : List Phase × Stage → Calling τ α} {result : Except Fault α}
    (hcycle : (drive e a stop >>= finish).Unfolds h result) : h = [] ∧ result = .error f := by
  have hdrive : drive e a stop = throw f := by
    unfold drive driveFrom
    simp only [Stage.phase, hstop, Stage.next, hdesired]
    rfl
  rw [hdrive] at hcycle
  exact Attempt.unfolds_throw.mp hcycle

end Transitions

end Keeper
