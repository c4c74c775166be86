import Keeper.Cluster.Scene
import Keeper.Proofs.CallProtocol
import Keeper.Proofs.Drift
import Keeper.Proofs.Endpoint

/-!
# Keeper — a cycle whose answers are known

Where every call is answered as the store would answer it, a cycle is followed from stage to stage
down to its outcome, whatever the surroundings are made of.

* **`Undisturbed`**, **`Answers`** — what is asked of the surroundings.
* **`yields_reading_found`** and the like — one transition, with the call it makes.
* **`Plays`** — answers one after the other, each from what the one before left stored.
* **`reconcile_yields`** — a sequence of exchanges that completes a cycle is played to its outcome.
* **`reconcile_yields_refused`** — a cycle whose update is refused.
-/

namespace Keeper

open Cluster (Store Moment callMoment)

/-! ## A cycle that is answered

`seen store calls` is what is known of the state of the surroundings: what is stored, and which kinds
of calls were made, the last one first. -/

section Answered

variable {σ τ : Type} [TimeScale τ]

/-- Surroundings that never cancel a context, and in which logging changes nothing that
matters. -/
structure Undisturbed (world : Surroundings σ τ ServiceCall (Except Fault Service))
    (seen : Store → List Moment → σ → Prop) : Prop where
  cancelled : ∀ {store calls s}, seen store calls s → world.cancelled s = false
  log : ∀ {store calls s} (entry : Log.Entry), seen store calls s →
    seen store calls (world.log entry s)

/-- A call is answered from what is stored, and leaves something stored. -/
def Answers (world : Surroundings σ τ ServiceCall (Except Fault Service))
    (seen : Store → List Moment → σ → Prop) (op : ServiceCall) (store : Store)
    (answer : Except Fault Service) (store' : Store) : Prop :=
  ∀ calls s, seen store calls s →
    (world.call op s).1 = answer ∧ seen store' (callMoment op :: calls) (world.call op s).2

variable {world : Surroundings σ τ ServiceCall (Except Fault Service)}
  {seen : Store → List Moment → σ → Prop} {store store' : Store} {calls : List Moment} {s : σ}
  {a : Assignment τ} {e : Engine} {desired : Service}

omit [TimeScale τ] in
/-- A call that is answered yields its answer, and what is stored afterwards is as the
answer says. `seen` relates the surroundings to the store, so that the same lemmas serve
the memory and the requests. -/
theorem yields_call_of_answers {op : ServiceCall} {answer : Except Fault Service}
    (h : Answers world seen op store answer store') (hs : seen store calls s) :
    Attempt.Yields world (Attempt.call op : Calling τ (Except Fault Service)) s (.ok answer)
      (seen store' (callMoment op :: calls)) := by
  obtain ⟨hanswer, hseen⟩ := h calls s hs
  rw [← hanswer]
  exact Attempt.yields_call hseen

omit [TimeScale τ] in
theorem yields_serviceCall {op : ServiceCall} {service : Service}
    (h : Answers world seen op store (.ok service) store') (hs : seen store calls s) :
    Attempt.Yields world (serviceCall op : Calling τ Service) s (.ok service)
      (seen store' (callMoment op :: calls)) :=
  (yields_call_of_answers h hs).bind fun _ hs' => Attempt.yields_lift hs'

/-! ## One transition

One lemma for each transition that asks something. -/

/-- The stage of reading, when there is a service. With no end to the context and nobody
to cancel it, the check before the call passes. -/
theorem yields_reading_found (hworld : Undisturbed world seen) (hctx : a.context.deadline = .never)
    {current : Service}
    (h : Answers world seen (.read a.space desired.name) store (.ok current) store')
    (hs : seen store calls s) :
    Attempt.Yields world ((Stage.reading desired).next e a) s (.ok (.found desired current))
      (seen store' (.read :: calls)) := by
  refine Attempt.Yields.mapFault_ok ?_ _
  refine (RequestContext.yields_check hctx (hworld.cancelled hs) hs).bind fun s hs => ?_
  exact (yields_call_of_answers h hs).bind fun s hs => Attempt.yields_pure hs

/-- The same stage when there is none: the answer is a fault, which the stage turns into
the next one. -/
theorem yields_reading_notFound (hworld : Undisturbed world seen)
    (hctx : a.context.deadline = .never) {space name : Value}
    (h : Answers world seen (.read a.space desired.name) store (.error (.notFound space name)) store')
    (hs : seen store calls s) :
    Attempt.Yields world ((Stage.reading desired).next e a) s (.ok (.notFound desired))
      (seen store' (.read :: calls)) := by
  refine Attempt.Yields.mapFault_ok ?_ _
  refine (RequestContext.yields_check hctx (hworld.cancelled hs) hs).bind fun s hs => ?_
  refine (yields_call_of_answers h hs).bind fun s hs => ?_
  exact (Attempt.yields_log (hworld.log _ hs)).bind fun s hs => Attempt.yields_pure hs

/-- A creation that is answered goes on to the confirmation, whatever service was sent
back. -/
theorem yields_creating (hworld : Undisturbed world seen) (hctx : a.context.deadline = .never)
    {sent : Service} (h : Answers world seen (.create desired) store (.ok sent) store')
    (hs : seen store calls s) :
    Attempt.Yields world ((Stage.creating desired).next e a) s (.ok (.confirming desired .created))
      (seen store' (.create :: calls)) := by
  refine Attempt.Yields.mapFault_ok ?_ _
  refine (RequestContext.yields_check hctx (hworld.cancelled hs) hs).bind fun s hs => ?_
  refine (yields_serviceCall h hs).bind fun s hs => ?_
  exact (Attempt.yields_log (hworld.log _ hs)).bind fun s hs => Attempt.yields_pure hs

/-- An update that is answered goes on to the confirmation, and remembers which groups of
fields have drifted. -/
theorem yields_writing (hworld : Undisturbed world seen) (hctx : a.context.deadline = .never)
    {current sent : Service} {drift : Comparison}
    (h : Answers world seen (.update drift.patched) store (.ok sent) store')
    (hs : seen store calls s) :
    Attempt.Yields world ((Stage.writing desired current drift).next e a) s
      (.ok (.confirming desired (.updated drift.fields))) (seen store' (.update :: calls)) := by
  refine Attempt.Yields.mapFault_ok ?_ _
  refine (RequestContext.yields_check hctx (hworld.cancelled hs) hs).bind fun s hs => ?_
  refine (Attempt.yields_log (hworld.log _ hs)).bind fun s hs => ?_
  exact (yields_serviceCall h hs).bind fun s hs => Attempt.yields_pure hs

/-- An update that is refused ends the cycle, with the phase in its fault. -/
theorem yields_writing_refused (hworld : Undisturbed world seen)
    (hctx : a.context.deadline = .never) {current : Service} {drift : Comparison} {f : Fault}
    (h : Answers world seen (.update drift.patched) store (.error f) store')
    (hs : seen store calls s) :
    Attempt.Yields world ((Stage.writing desired current drift).next e a) s
      (.error (f.during .writing (a.resource desired.name.display)))
      (seen store' (.update :: calls)) := by
  -- the failure of the call is the failure of the phase, as it reports it
  have hwrite : Attempt.Yields world (a.write desired drift) s (.error f)
      (seen store' (.update :: calls)) := by
    refine (RequestContext.yields_check hctx (hworld.cancelled hs) hs).bind fun s hs => ?_
    refine (Attempt.yields_log (hworld.log _ hs)).bind fun s hs => ?_
    refine Attempt.Yields.bind_error ?_
    exact (yields_call_of_answers h hs).bind fun s hs => Attempt.yields_lift hs
  exact hwrite.mapFault _

/-- The confirmation yields what is stored by then, which is the state the outcome
tells. -/
theorem yields_confirming (hworld : Undisturbed world seen) (hctx : a.context.deadline = .never)
    {state : Service} {action : Action}
    (h : Answers world seen (.read a.space desired.name) store (.ok state) store')
    (hs : seen store calls s) :
    Attempt.Yields world ((Stage.confirming desired action).next e a) s
      (.ok (.done desired state action)) (seen store' (.read :: calls)) := by
  refine Attempt.Yields.mapFault_ok ?_ _
  refine (RequestContext.yields_check hctx (hworld.cancelled hs) hs).bind fun s hs => ?_
  refine (yields_serviceCall h hs).bind fun s hs => ?_
  split
  · exact (Attempt.yields_log (hworld.log _ hs)).bind fun s hs => Attempt.yields_pure hs
  · exact Attempt.yields_pure hs

/-! ## All transitions

A transition is followed by those after it, and the end by none. -/

/-- One transition at a time: if a stage yields the next one, the drive from it yields
what the drive from the next one does. Chained, these steps are a whole cycle. -/
theorem Attempt.Yields.driveFrom {steps : Nat} {trace : List Phase} {stage next : Stage}
    {result : Except Fault (List Phase × Stage)} {mid post : σ → Prop}
    (hphase : decide (stage.phase = .done) = false)
    (h : Attempt.Yields world (stage.next e a) s (.ok next) mid)
    (hrest : ∀ s', mid s' → Attempt.Yields world
      (Keeper.driveFrom e a (fun _ => false) steps (stage.phase :: trace) next) s' result post) :
    Attempt.Yields world (Keeper.driveFrom e a (fun _ => false) (steps + 1) trace stage) s result
      post := by
  rw [Keeper.driveFrom, if_neg (by simp [of_decide_eq_false hphase])]
  exact h.bind hrest

/-- A transition that fails ends the drive with its fault. -/
theorem Attempt.Yields.driveFrom_error {steps : Nat} {trace : List Phase} {stage : Stage} {f : Fault}
    {post : σ → Prop} (hphase : decide (stage.phase = .done) = false)
    (h : Attempt.Yields world (stage.next e a) s (.error f) post) :
    Attempt.Yields world (Keeper.driveFrom e a (fun _ => false) (steps + 1) trace stage) s (.error f)
      post := by
  rw [Keeper.driveFrom, if_neg (by simp [of_decide_eq_false hphase])]
  exact h.bind_error

/-- The drive ends at the last stage and gives the phases it has been through, from the
first one on. -/
theorem yields_driveFrom_done {steps : Nat} {trace : List Phase} {state : Service} {action : Action}
    {post : σ → Prop} (hs : post s) :
    Attempt.Yields world (driveFrom e a (fun _ => false) steps trace (.done desired state action)) s
      (.ok (trace.reverse, .done desired state action)) post := by
  unfold driveFrom
  exact Attempt.yields_pure hs

/-- What is stored while calls are answered one after the other. -/
inductive Plays (world : Surroundings σ τ ServiceCall (Except Fault Service))
    (seen : Store → List Moment → σ → Prop) : Store → List ServiceExchange → Store → Prop where
  | nil (store : Store) : Plays world seen store [] store
  | cons {op : ServiceCall} {answer : Except Fault Service} {es : List ServiceExchange}
    {store mid store' : Store} (h : Answers world seen op store answer mid)
    (hrest : Plays world seen mid es store') : Plays world seen store ((op, answer) :: es) store'

theorem yields_unchanged (hworld : Undisturbed world seen) {current : Service}
    (hs : seen store calls s) :
    Attempt.Yields world ((Stage.unchanged desired current).next e a) s
      (.ok (.done desired current .unchanged)) (seen store calls) :=
  (Attempt.yields_log (hworld.log _ hs)).bind fun _ hs => Attempt.yields_pure hs

theorem diff_of_changed {current : Service} (h : (current.compare desired).changed = true) :
    diff desired current = .changed desired current (current.compare desired) := by
  simp [diff, h]

theorem diff_of_unchanged {current : Service} (h : (current.compare desired).changed = false) :
    diff desired current = .unchanged desired current := by
  simp [diff, h]

/-- A cycle whose calls are answered as in a sequence of exchanges that completes one is
completed by them, and makes no other calls. -/
theorem reconcile_yields (hworld : Undisturbed world seen) (hctx : a.context.deadline = .never)
    (hdesired : e.desired a = .ok desired) {es : List ServiceExchange} {outcome : Outcome}
    (hcompletes : Completes (.read a.space desired.name) desired es outcome)
    (hplays : Plays world seen store es store') (hs : seen store [] s) :
    Attempt.Yields world (reconcile e a) s (.ok outcome)
      (seen store' (es.map fun x => callMoment x.1).reverse) := by
  have hdrive : Attempt.Yields world (drive e a fun _ => false) s
      (.ok (outcome.trace, .done desired outcome.state outcome.action))
      (seen store' (es.map fun x => callMoment x.1).reverse) := by
    have hstart : Attempt.Yields world (Stage.start.next e a) s (.ok (.reading desired))
        (seen store []) := by
      simp only [Stage.next, hdesired]
      exact Attempt.yields_pure hs
    refine hstart.driveFrom rfl fun s hs => ?_
    -- the answers are played in the order of the calls, and no other call is made
    cases hcompletes with
    | unchanged current h =>
      obtain _ | ⟨hread, _ | _⟩ := hplays
      refine (yields_reading_found hworld hctx hread hs).driveFrom rfl fun s hs => ?_
      refine (Attempt.yields_pure hs).driveFrom rfl fun s hs => ?_
      refine (Attempt.yields_pure hs).driveFrom rfl fun s hs => ?_
      rw [diff_of_unchanged h]
      refine (yields_unchanged hworld hs).driveFrom rfl fun s hs => ?_
      exact yields_driveFrom_done hs
    | created space name sent state =>
      obtain _ | ⟨hread, _ | ⟨hcreate, _ | ⟨hconfirm, _ | _⟩⟩⟩ := hplays
      refine (yields_reading_notFound hworld hctx hread hs).driveFrom rfl fun s hs => ?_
      refine (Attempt.yields_pure hs).driveFrom rfl fun s hs => ?_
      refine (yields_creating hworld hctx hcreate hs).driveFrom rfl fun s hs => ?_
      refine (yields_confirming hworld hctx hconfirm hs).driveFrom rfl fun s hs => ?_
      exact yields_driveFrom_done hs
    -- A drift that was found leads past the comparison to the writing, and from there to the last read.
    | updated current sent state h =>
      obtain _ | ⟨hread, _ | ⟨hupdate, _ | ⟨hconfirm, _ | _⟩⟩⟩ := hplays
      refine (yields_reading_found hworld hctx hread hs).driveFrom rfl fun s hs => ?_
      refine (Attempt.yields_pure hs).driveFrom rfl fun s hs => ?_
      refine (Attempt.yields_pure hs).driveFrom rfl fun s hs => ?_
      rw [diff_of_changed h]
      refine (Attempt.yields_pure hs).driveFrom rfl fun s hs => ?_
      refine (yields_writing hworld hctx hupdate hs).driveFrom rfl fun s hs => ?_
      refine (yields_confirming hworld hctx hconfirm hs).driveFrom rfl fun s hs => ?_
      exact yields_driveFrom_done hs
  exact hdrive.bind fun s hs => Attempt.yields_pure hs

/-- A cycle whose update is refused fails as it reports the refusal. The stages are driven
one by one up to the writing, where the refusal gets the phase it happened in. -/
theorem reconcile_yields_refused (hworld : Undisturbed world seen)
    (hctx : a.context.deadline = .never) (hdesired : e.desired a = .ok desired) {current : Service}
    (hdrift : (current.compare desired).changed = true) {f : Fault}
    (hread : Answers world seen (.read a.space desired.name) store (.ok current) store)
    (hupdate : Answers world seen (.update (current.compare desired).patched) store (.error f) store)
    (hs : seen store [] s) :
    Attempt.Yields world (reconcile e a) s
      (.error (f.during .writing (a.resource desired.name.display))) (seen store [.update, .read]) := by
  refine Attempt.Yields.bind_error ?_
  have hstart : Attempt.Yields world (Stage.start.next e a) s (.ok (.reading desired))
      (seen store []) := by
    simp only [Stage.next, hdesired]
    exact Attempt.yields_pure hs
  refine hstart.driveFrom rfl fun s hs => ?_
  -- The stages in their order: found, compared, drifted; the last one, writing, is the one refused.
  refine (yields_reading_found hworld hctx hread hs).driveFrom rfl fun s hs => ?_
  refine (Attempt.yields_pure hs).driveFrom rfl fun s hs => ?_
  refine (Attempt.yields_pure hs).driveFrom rfl fun s hs => ?_
  rw [diff_of_changed hdrift]
  refine (Attempt.yields_pure hs).driveFrom rfl fun s hs => ?_
  exact (yields_writing_refused hworld hctx hupdate hs).driveFrom_error rfl

end Answered

end Keeper
