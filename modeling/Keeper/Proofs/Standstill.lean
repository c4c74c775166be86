import Keeper.Proofs.Cancellation
import Keeper.Proofs.Fleet

/-!
# Keeper — a store while time stands still

In a scene in which nobody cancels, nothing was laid out to happen and the clock stands, all that a
program can change is the store. So its run is one in surroundings whose state is the store.

* **`Surroundings.Stands`** — surroundings that only calls change.
* **`Surroundings.Leads`**, **`leads_run`** — the answers of a run, one after the other.
* **`Store.alone`**, **`run_of_still`** — the surroundings that a store is by itself, and a scene that
  is still.
* **`RequestContext.OpenAt`** — a time at which a context lets requests go.
* **`Client.alone`** — the calls of a cycle, made by a client to such a store.
* **`handled_of_call`**, **`call_of_found`** — what a call that was answered says of the store, and what
  a read is answered.
-/

namespace Keeper

open Cluster (Scene Store)
open Http (Method Request Reply Response)

/-! ## Surroundings that only calls change -/

namespace Event

variable {τ ω ρ : Type}

/-- What a program can learn at a time at which it is not cancelled. -/
inductive SeenAt (time : τ) : Event τ ω ρ → Prop where
  | look : SeenAt time (.look false)
  | read : SeenAt time (.read time)
  | call (op : ω) (answer : ρ) (raised : Bool) : SeenAt time (.call op answer raised)

/-- What can be seen of a flag and of a clock that stand. -/
@[simp] theorem seenAt_look {time : τ} {b : Bool} :
    (.look b : Event τ ω ρ).SeenAt time ↔ b = false := by
  constructor
  · rintro ⟨⟩
    rfl
  · rintro rfl
    exact .look

@[simp] theorem seenAt_read {time t : τ} : (.read t : Event τ ω ρ).SeenAt time ↔ t = time := by
  constructor
  · rintro ⟨⟩
    rfl
  · rintro rfl
    exact .read

end Event

namespace Surroundings

variable {σ τ ω ρ ω' ρ' α : Type} {world : Surroundings σ τ ω ρ} {time : τ}

/-- Nobody cancels, the clock stands, and what is logged changes nothing. -/
structure Stands (world : Surroundings σ τ ω ρ) (time : τ) : Prop where
  cancelled : ∀ s, world.cancelled s = false
  now : ∀ s, world.now s = (time, s)
  log : ∀ entry s, world.log entry s = s

/-- Surroundings that stand do so through an implementation. -/
theorem Stands.through (hstands : world.Stands time) (implementation : ω' → Program τ ω ρ ρ') :
    (world.through implementation).Stands time :=
  ⟨hstands.cancelled, hstands.now, hstands.log⟩

/-- The answers to some calls, one after the other, and the state they lead to. -/
inductive Leads (world : Surroundings σ τ ω ρ) : σ → List (ω × ρ) → σ → Prop where
  | nil (s : σ) : Leads world s [] s
  | cons {op : ω} {answer : ρ} {es : List (ω × ρ)} {s mid s' : σ}
    (hcall : world.call op s = (answer, mid)) (hrest : Leads world mid es s') :
    Leads world s ((op, answer) :: es) s'

/-- A call is answered in one way only. -/
theorem Leads.head {op : ω} {answer answer' : ρ} {es : List (ω × ρ)} {s mid s' : σ}
    (hleads : world.Leads s ((op, answer') :: es) s') (hcall : world.call op s = (answer, mid)) :
    answer' = answer ∧ world.Leads mid es s' := by
  obtain _ | ⟨hcall', hrest⟩ := hleads
  obtain ⟨rfl, rfl⟩ := Prod.mk.inj (hcall.symm.trans hcall')
  exact ⟨rfl, hrest⟩

/-- What a program exchanges with surroundings that stand is all that changes them. -/
theorem Stands.leads_run (hstands : world.Stands time) (p : Program τ ω ρ α) (s : σ) :
    world.Leads s (p.exchanges world s) (p.run world s).2 := by
  induction p generalizing s with
  | done a => exact .nil s
  | cancelled next ih => exact ih _ s
  | now next ih =>
    rw [Program.exchanges, Program.run, hstands.now]
    exact ih time s
  | log entry next ih =>
    rw [Program.exchanges, Program.run, hstands.log]
    exact ih s
  | call op next ih => exact .cons rfl (ih _ _)

/-- Whatever a program learns there, it learns at the one time. The clock stands still and
the flag does not change, so every reading of the history is the same. -/
theorem Stands.seen_events (hstands : world.Stands time) (p : Program τ ω ρ α) (s : σ) :
    ∀ e ∈ p.events world s, e.SeenAt time := by
  induction p generalizing s with
  | done a => simp [Program.events]
  | cancelled next ih =>
    rw [Program.events, hstands.cancelled]
    exact List.forall_mem_cons.mpr ⟨.look, ih false s⟩
  | now next ih =>
    rw [Program.events, hstands.now]
    exact List.forall_mem_cons.mpr ⟨.read, ih time s⟩
  | log entry next ih =>
    rw [Program.events, hstands.log]
    exact ih s
  | call op next ih => exact List.forall_mem_cons.mpr ⟨.call op _ _, ih _ _⟩

end Surroundings

/-! ## Scenes in which only the store changes -/

namespace Cluster

/-- Nobody cancels, nothing was laid out to happen, and the clock stands. -/
structure Scene.Still {ω φ : Type} (s : Scene ω φ) : Prop where
  cancelled : s.cancelled = false
  disturbances : s.disturbances = []
  ticks : s.clock.ticks = []

/-- The surroundings that a store is by itself. -/
def Store.alone (time : Seconds) : Surroundings Store Seconds (Request Seconds) Reply where
  cancelled _ := false
  now store := (time, store)
  log _ store := store
  call r store := store.reply r

/-- A store by itself is such surroundings: only requests change it. -/
theorem Store.stands_alone (time : Seconds) : (Store.alone time).Stands time :=
  ⟨fun _ => rfl, fun _ => rfl, fun _ _ => rfl⟩

/-- A still scene is left as it was, but for what has become of the store and what was
recorded. So the run of a command can be looked at as one over a store alone, at the time
the clock stands at. -/
theorem run_of_still {α : Type} (p : Program Seconds (Request Seconds) Reply α)
    {s : Scene (Request Seconds) Reply} (hstill : s.Still) :
    ∃ entries, p.run Scene.overHttp s
      = ((p.run (Store.alone s.clock.time) s.store).1,
        { s with
          store := (p.run (Store.alone s.clock.time) s.store).2
          calls := ((p.exchanges (Store.alone s.clock.time) s.store).map Prod.fst).reverse ++ s.calls
          entries }) := by
  -- the entries of the log are the only difference, and no program reads them
  induction p generalizing s with
  | done a => exact ⟨s.entries, rfl⟩
  | cancelled next ih =>
    have hcancelled : Scene.overHttp.cancelled s = false := hstill.cancelled
    rw [Program.run, hcancelled]
    exact ih false hstill
  | now next ih =>
    have hnow : Scene.overHttp.now s = (s.clock.time, s) := by
      show (s.clock.read.1, { s with clock := s.clock.read.2 }) = _
      rw [Clock.read, hstill.ticks]
    rw [Program.run, hnow]
    exact ih s.clock.time hstill
  | log entry next ih =>
    exact ih (s := { s with entries := entry :: s.entries })
      ⟨hstill.cancelled, hstill.disturbances, hstill.ticks⟩
  | call r next ih =>
    obtain ⟨entries, hrun⟩ := ih (s.store.reply r).1
      (s := { s with calls := r :: s.calls, store := (s.store.reply r).2 })
      ⟨hstill.cancelled, hstill.disturbances, hstill.ticks⟩
    refine ⟨entries, ?_⟩
    rw [Program.run, call_overHttp hstill.disturbances]
    refine hrun.trans ?_
    simp [Program.run, Program.exchanges, Store.alone]

end Cluster

/-! ## Open contexts -/

namespace RequestContext

variable {τ ω ρ : Type} [TimeScale τ] {ctx : RequestContext τ} {now span : τ}
  {m m' : List (Event τ ω ρ)}

/-- At a time, a context lets a request go and leaves it some time. -/
inductive OpenAt (ctx : RequestContext τ) (now : τ) : Prop where
  | endless (h : ctx.deadline = .never)
  | early (time left : τ) (h : ctx.deadline = .at time) (hearly : TimeScale.le time now = false)
    (hleft : TimeScale.sub time now = .ok left)
    (hsome : TimeScale.le (atLeastZero left) TimeScale.zero = false)

/-- A context that has let a request go and left it some time was open. -/
theorem openAt_of_allows (hcheck : ctx.Checks m (.ok ())) {t : τ} (hallows : ctx.Allows span m' (.ok t))
    (hseen : ∀ e ∈ m ++ m', e.SeenAt now) : ctx.OpenAt now := by
  cases hallows with
  | endless hdeadline => exact .endless hdeadline
  | some time now' left hdeadline hleft hsome =>
    obtain rfl : now' = now := by simpa using hseen (.read now') (by simp)
    -- The check and the timeout read the clock separately, and at a standstill they read the same time.
    cases hcheck with
    | endless hnever => cases hdeadline.symm.trans hnever
    | early time' now'' hdeadline' hearly =>
      obtain rfl : now'' = now' := by simpa using hseen (.read now'') (by simp)
      obtain rfl : time = time' := Deadline.at.inj (hdeadline.symm.trans hdeadline')
      exact .early time left hdeadline hearly hleft hsome

namespace OpenAt

/-- A context that is open under a deadline leaves some time. -/
theorem of_at (hopen : ctx.OpenAt now) {time : τ} (hdeadline : ctx.deadline = .at time) :
    TimeScale.le time now = false ∧ ∃ left, TimeScale.sub time now = .ok left
      ∧ TimeScale.le (atLeastZero left) TimeScale.zero = false := by
  cases hopen with
  | endless hnever => cases hdeadline.symm.trans hnever
  | early time' left hdeadline' hearly hleft hsome =>
    obtain rfl : time = time' := Deadline.at.inj (hdeadline.symm.trans hdeadline')
    exact ⟨hearly, left, hleft, hsome⟩

theorem ne_malformed (hopen : ctx.OpenAt now) (given : Value) : ctx.deadline ≠ .malformed given := by
  cases hopen <;> simp [*]

/-- An open context lets go. -/
theorem checks (hopen : ctx.OpenAt now) {result : Except Fault Unit} (hcheck : ctx.Checks m result)
    (hseen : ∀ e ∈ m, e.SeenAt now) : result = .ok () := by
  cases hcheck with
  | endless | early => rfl
  | cancelled => simp at hseen
  | due time now' hdeadline hdue =>
    obtain rfl : now' = now := by simpa using hseen (.read now') (by simp)
    exact Bool.noConfusion ((hopen.of_at hdeadline).1.symm.trans hdue)
  | malformed given now' hdeadline => exact absurd hdeadline (hopen.ne_malformed given)

/-- An open context leaves some time. -/
theorem allows (hopen : ctx.OpenAt now) {result : Except Fault τ} (hallows : ctx.Allows span m result)
    (hseen : ∀ e ∈ m, e.SeenAt now) : ∃ t, result = .ok t := by
  cases hallows with
  | endless | some => exact ⟨_, rfl⟩
  -- Nothing left at `now` would contradict the context being open there.
  | none time now' left hdeadline hleft hnone =>
    obtain rfl : now' = now := by simpa using hseen (.read now') (by simp)
    obtain ⟨-, left', hleft', hsome⟩ := hopen.of_at hdeadline
    obtain rfl := Except.ok.inj (hleft.symm.trans hleft')
    exact Bool.noConfusion (hsome.symm.trans hnone)
  | unmeasured time now' f hdeadline hleft =>
    obtain rfl : now' = now := by simpa using hseen (.read now') (by simp)
    obtain ⟨-, left, hleft', -⟩ := hopen.of_at hdeadline
    cases hleft.symm.trans hleft'
  | malformed given now' hdeadline => exact absurd hdeadline (hopen.ne_malformed given)

end OpenAt

end RequestContext

/-! ## The calls of a cycle -/

namespace Client

variable {c : Client Seconds} {ctx : RequestContext Seconds} {now : Seconds} {store store' : Store}
  {op : ServiceCall} {answer : Except Fault Service}

/-- The surroundings in which a client makes the calls of a cycle to a store that is by
itself. -/
def alone (c : Client Seconds) (ctx : RequestContext Seconds) (now : Seconds) :
    Surroundings Store Seconds ServiceCall (Except Fault Service) :=
  (Store.alone now).through (c.calling ctx)

/-- So do the surroundings that a client makes of a store. -/
theorem stands_alone (c : Client Seconds) (ctx : RequestContext Seconds) (now : Seconds) :
    (c.alone ctx now).Stands now :=
  (Store.stands_alone now).through _

/-- The course of a call, and what it leads to. -/
theorem exists_answers (hcall : (c.alone ctx now).call op store = (answer, store')) :
    ∃ m, Answers c ctx op m answer ∧ (∀ e ∈ m, e.SeenAt now)
      ∧ (Store.alone now).Leads store (Event.exchanges m) store' := by
  have hunfolds := Program.unfolds_run (Store.alone now) (c.calling ctx op) store
  have hleads := (Store.stands_alone now).leads_run (c.calling ctx op) store
  have hrun : (c.calling ctx op).run (Store.alone now) store = (answer, store') := hcall
  rw [hrun] at hunfolds hleads
  rw [← Program.exchanges_events] at hleads
  exact ⟨_, answers_of_unfolds hunfolds, (Store.stands_alone now).seen_events _ _, hleads⟩

/-- A call after which a cycle goes on has had a response for its request, in an open
context. -/
theorem handled_of_call (hcall : (c.alone ctx now).call op store = (answer, store'))
    (hgoes : GoesOn (op, answer)) :
    ∃ x, Handled c (op, answer) x ∧ store.reply x.1 = (x.2, store') ∧ ctx.OpenAt now := by
  obtain ⟨m, hanswers, hseen, hleads⟩ := exists_answers hcall
  obtain ⟨x, hx, hhandled⟩ := hanswers.handled hgoes
  rw [hx] at hleads
  obtain _ | ⟨hreply, ⟨⟩⟩ := hleads
  refine ⟨_, hhandled, hreply, ?_⟩
  -- its request was preceded by a look, and by a time that was left
  obtain ⟨h₁, raised, h₂, rfl⟩ := Event.split_of_exchanges hx
  obtain ⟨m₁, m₂, t, -, -, rfl, hcheck, hallows, -, -⟩ := hanswers.call_inv
  exact RequestContext.openAt_of_allows hcheck hallows fun e he => hseen e (List.mem_append_left _ he)

/-- A read is answered by what is found in the response to it, however long it may take.
The context is open at the only time there is, so the request is sent, and the content of
the response decides. -/
theorem call_of_found {space name : Value} {t : Seconds} {r : Response} (hopen : ctx.OpenAt now)
    (hreply : store.reply (c.request .get (servicePath space name) none t) = (.response r, store')) :
    (c.alone ctx now).call (.read space name) store = (c.found space name r, store') := by
  generalize hcall : (c.alone ctx now).call (.read space name) store = called
  obtain ⟨answer, store''⟩ := called
  obtain ⟨m, hanswers, hseen, hleads⟩ := exists_answers hcall
  cases hanswers with
  | write hop => cases hop
  | unwritten hop => cases hop
  | read hsends =>
    cases hsends with
    | stopped hcheck => cases hopen.checks hcheck hseen
    | disallowed hcheck hallows =>
      obtain ⟨t, ⟨⟩⟩ := hopen.allows hallows fun e he => hseen e (by simp [he])
    | @sent _ _ _ t' reply _ hcheck hallows raised hreceives =>
      simp only [Event.exchanges_append, Event.exchanges_call, hcheck.exchanges, hallows.exchanges,
        hreceives.exchanges, List.nil_append] at hleads
      obtain _ | ⟨hreply', ⟨⟩⟩ := hleads
      -- the reply does not depend on the time a request may take
      have hsame : store.reply (c.request .get (servicePath space name) none t')
          = (.response r, store') := hreply
      obtain ⟨rfl, rfl⟩ := Prod.mk.inj (hreply'.symm.trans hsame)
      cases hreceives
      rfl

end Client

end Keeper
