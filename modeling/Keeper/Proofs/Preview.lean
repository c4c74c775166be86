import Keeper.Proofs.Course
import Keeper.Proofs.FailureReport

/-!
# Keeper — what a plan foretells

A plan is a cycle that stops before it writes. It asks once, and from the answer it tells what a
whole cycle does that is given the same answer first, however the rest of that cycle goes.

* **`Service.foreseen`** — what is planned, by the answer to the first read.
* **`Goes`** — how a cycle goes, by the same answer, as long as its context lasts.
* **`Foretells`** — a plan and a cycle agree.
* **`plan_foretells_cycle`** — so they do, whatever is answered later.
-/

namespace Keeper

section Lasting

variable {τ : Type} [TimeScale τ] {a : Assignment τ} {desired : Service} {phase : Phase}
  {h : List (ServiceEvent τ)} {cause : Fault}

/-! ## While the context lasts

Only a call that fails makes a cycle fail then. -/

/-- While the context lasts, a cycle fails only by the answer to one of its calls; the
checks before the calls pass. -/
theorem FailsAt.refused_of_lasts (hfails : FailsAt a desired phase h cause)
    (hlasts : a.context.Lasts h) (hdeadline : ∀ given, a.context.deadline ≠ .malformed given) :
    ∃ op es, Calls (.read a.space desired.name) desired phase op es
      ∧ Event.exchanges h = es ++ [(op, .error cause)]
      ∧ (phase = .reading → ∀ space name, cause ≠ .notFound space name) := by
  cases hfails with
  | stopped hcalls _ hcheck =>
    rcases hcheck.ends with ⟨hends, -⟩ | ⟨-, given, hgiven⟩
    · exact absurd (RequestContext.lasts_append.mp hlasts).2 hends
    · exact absurd hgiven (hdeadline given)
  | refused hcalls _ hcheck raised hcause =>
    exact ⟨_, _, hcalls, by simp [hcheck.exchanges], hcause⟩

/-- A failure as it is reported from a phase. -/
def Phase.report (phase : Phase) (resource : Text) (cause : Fault) : Fault :=
  .cycle cause.isHalt phase.name resource (some cause)

/-- What is planned, by the answer to the first read. -/
def Service.foreseen (desired : Service) (resource : Text) : Except Fault Service → Except Fault Plan
  | .ok current =>
    if (current.compare desired).changed then .ok (.update desired current (current.compare desired))
    else .ok (.none desired current)
  | .error (.notFound _ _) => .ok (.create desired)
  | .error f => .error (Phase.reading.report resource f)

theorem Service.foreseen_of_failure (desired : Service) (resource : Text)
    (hcause : ∀ space name, cause ≠ .notFound space name) :
    desired.foreseen resource (.error cause) = .error (Phase.reading.report resource cause) := by
  cases cause with
  | notFound space name => exact absurd rfl (hcause space name)
  | _ => rfl

/-- A plan asks once, and the answer settles it: what is planned is a function of that
answer, `Service.foreseen`. -/
theorem foreseen_of_unfolds {e : Engine} (hdesired : e.desired a = .ok desired)
    (hdeadline : ∀ given, a.context.deadline ≠ .malformed given) {planned : Except Fault Plan}
    (hplan : (plan e a).Unfolds h planned) (hlasts : a.context.Lasts h)
    (hfailures : ∀ op f, (op, .error f) ∈ Event.exchanges h → f.Reportable) :
    ∃ answer, Event.exchanges h = [(.read a.space desired.name, answer)]
      ∧ planned = desired.foreseen (a.resource desired.name.display) answer := by
  have hends := unfolds_plan hdesired hplan
  cases planned with
  | ok p =>
    obtain ⟨hplans, -⟩ := hends
    -- The plan made one call, and what is foreseen depends on its answer only.
    generalize Event.exchanges h = es at hplans ⊢
    cases hplans with
    | create space name => exact ⟨_, rfl, rfl⟩
    | update current hdrift => exact ⟨_, rfl, by simp [Service.foreseen, hdrift]⟩
    | none current hsame => exact ⟨_, rfl, by simp [Service.foreseen, hsame]⟩
  | error f =>
    obtain ⟨cause, hfails, rfl⟩ := hends
    obtain ⟨op, es, hcalls, hes, hcause⟩ := hfails.refused_of_lasts hlasts hdeadline
    have hreportable : cause.Reportable := hfailures op cause (by simp [hes])
    rw [Fault.during_eq hreportable]
    -- A plan makes no call but the look, so this is the one that failed.
    cases hcalls with
    | reading => exact ⟨_, hes, (desired.foreseen_of_failure _ (hcause rfl)).symm⟩

/-- The report of a failure in one of the phases after the first read. -/
def ReportedLater (resource : Text) (f : Fault) : Prop :=
  ∃ (phase : Phase) (cause : Fault), (phase.isWrite = true ∨ phase = .confirming)
    ∧ f = phase.report resource cause

/-- How a cycle goes, by the answer to its first read. -/
inductive Goes (look : ServiceCall) (desired : Service) (resource : Text) :
    List ServiceExchange → Except Fault Outcome → Prop where
  | unread (cause : Fault) (hcause : ∀ space name, cause ≠ .notFound space name) :
    Goes look desired resource [(look, .error cause)] (.error (Phase.reading.report resource cause))
  | unchanged (current : Service) (hsame : (current.compare desired).changed = false)
    (outcome : Outcome) (hstate : outcome.state = current) (haction : outcome.action = .unchanged) :
    Goes look desired resource [(look, .ok current)] (.ok outcome)
  | created (space name : Value) (answer : Except Fault Service) (rest : List ServiceExchange)
    (hrest : ∀ x ∈ rest, x.1 = look) {result : Except Fault Outcome}
    (hresult : Attempt.EndsWith (·.action = .created) (ReportedLater resource) result) :
    Goes look desired resource
      ((look, .error (.notFound space name)) :: (.create desired, answer) :: rest) result
  | updated (current : Service) (hdrift : (current.compare desired).changed = true)
    (answer : Except Fault Service) (rest : List ServiceExchange) (hrest : ∀ x ∈ rest, x.1 = look)
    {result : Except Fault Outcome}
    (hresult : Attempt.EndsWith (·.action = .updated (current.compare desired).fields)
      (ReportedLater resource) result) :
    Goes look desired resource
      ((look, .ok current) :: (.update (current.compare desired).patched, answer) :: rest) result

/-- How a cycle goes, by its first answer. It is the classification of its ends, with the
failing cases put to the phase whose call has failed. -/
theorem goes_of_unfolds {e : Engine} (hdesired : e.desired a = .ok desired)
    (hdeadline : ∀ given, a.context.deadline ≠ .malformed given) {result : Except Fault Outcome}
    (hcycle : (reconcile e a).Unfolds h result) (hlasts : a.context.Lasts h)
    (hfailures : ∀ op f, (op, .error f) ∈ Event.exchanges h → f.Reportable) :
    Goes (.read a.space desired.name) desired (a.resource desired.name.display) (Event.exchanges h)
      result := by
  have hends := unfolds_reconcile hdesired hcycle
  cases result with
  | ok outcome =>
    obtain ⟨hcompletes, -⟩ := hends
    generalize Event.exchanges h = es at hcompletes ⊢
    cases hcompletes with
    | unchanged current hsame => exact .unchanged current hsame _ rfl rfl
    | created space name sent state => exact .created space name (.ok sent) _ (by simp) rfl
    | updated current sent state hdrift => exact .updated current hdrift (.ok sent) _ (by simp) rfl
  | error f =>
    obtain ⟨phase, cause, hfails, rfl⟩ := hends
    obtain ⟨op, es, hcalls, hes, hcause⟩ := hfails.refused_of_lasts hlasts hdeadline
    have hreportable : cause.Reportable := hfailures op cause (by simp [hes])
    rw [Fault.during_eq hreportable, hes]
    -- the first read fails as a plan foretells; the other calls come after what a plan can see
    cases hcalls with
    | reading => exact .unread cause (hcause rfl)
    | creating space name =>
      exact .created space name (.error cause) [] (by simp) ⟨.creating, cause, .inl rfl, rfl⟩
    | writing current hdrift =>
      exact .updated current hdrift (.error cause) [] (by simp) ⟨.writing, cause, .inl rfl, rfl⟩
    | confirmingCreated space name sent =>
      exact .created space name (.ok sent) _ (by simp) ⟨.confirming, cause, .inr rfl, rfl⟩
    | confirmingUpdated current sent hdrift =>
      exact .updated current hdrift (.ok sent) _ (by simp) ⟨.confirming, cause, .inr rfl, rfl⟩

end Lasting

/-! ## Agreement -/

/-- The report of a failure at the start of a cycle or in its first read. -/
def ReportedByReading (resource : Text) (f : Fault) : Prop :=
  ∃ (phase : Phase) (cause : Fault), (phase = .start ∨ phase = .reading)
    ∧ f = phase.report resource cause

/-- The two kinds of reports name different phases. -/
theorem ReportedLater.not_byReading {resource : Text} {f : Fault} (hlater : ReportedLater resource f) :
    ¬ReportedByReading resource f := by
  obtain ⟨phase, cause, hphase, rfl⟩ := hlater
  rintro ⟨phase', cause', hphase', hreport⟩
  -- the phases are told apart by their names
  have hname : phase.name = phase'.name := by simpa using (Fault.cycle.inj hreport).2.1
  rcases hphase' with rfl | rfl <;> cases phase <;>
    simp [Phase.name, Phase.isWrite] at hname hphase

/-- What is planned and what a cycle does agree: the calls it makes, each with its answer,
and its result. -/
structure Foretells (resource : Text) (planned : Except Fault Plan) (made : List ServiceExchange)
    (result : Except Fault Outcome) : Prop where
  /-- They fail alike, unless the cycle fails later than a plan can tell. -/
  fails : ∀ f, planned = .error f ↔ result = .error f ∧ ReportedByReading resource f
  creates : ∀ sent, (∃ p, planned = .ok p ∧ p.action = "create" ∧ p.desired = sent)
    ↔ ∃ answer, (.create sent, answer) ∈ made
  updates : ∀ sent, (∃ p, planned = .ok p ∧ p.action = "update" ∧ p.patched = some sent)
    ↔ ∃ answer, (.update sent, answer) ∈ made
  fields : ∀ p outcome, planned = .ok p → p.action = "update" → result = .ok outcome →
    outcome.action.fields = p.fields
  keeps : ∀ state, (∃ p, planned = .ok p ∧ p.action = "none" ∧ p.current = some state)
    ↔ ∃ outcome, result = .ok outcome ∧ outcome.action = .unchanged ∧ outcome.state = state

/-- A plan and a cycle that fail alike, before anything is written. The calls made are
reads, so neither side has created or updated anything. -/
theorem Foretells.of_failure {resource : Text} {f : Fault} (hf : ReportedByReading resource f)
    {made : List ServiceExchange} (hmade : ∀ x ∈ made, x.1.isWrite = false) :
    Foretells resource (.error f) made (.error f) := by
  -- A cycle that fails at its first read has written nothing, so it creates and updates nothing.
  have hunwritten (op : ServiceCall) (hop : op.isWrite = true) : ¬∃ answer, (op, answer) ∈ made := by
    rintro ⟨answer, hmem⟩
    exact Bool.noConfusion (hop.symm.trans (hmade _ hmem))
  refine
    { fails := fun f' => ?_
      creates := fun sent => by simp [hunwritten (.create sent) rfl]
      updates := fun sent => by simp [hunwritten (.update sent) rfl]
      fields := by simp
      keeps := by simp }
  simp only [Except.error.injEq, iff_self_and]
  rintro rfl
  exact hf

/-- A cycle that has come to write does not fail by reading. -/
theorem fails_iff_of_later {resource : Text} {p : Plan} {result : Except Fault Outcome}
    {succeeds : Outcome → Prop} (hresult : Attempt.EndsWith succeeds (ReportedLater resource) result)
    (f : Fault) :
    (.ok p : Except Fault Plan) = .error f ↔ result = .error f ∧ ReportedByReading resource f := by
  constructor
  · rintro ⟨⟩
  · rintro ⟨rfl, hearly⟩
    have hlater : ReportedLater resource f := hresult
    exact absurd hearly hlater.not_byReading

/-- What is found among the calls of a cycle that writes once: reads are no writes. -/
theorem mem_written {look op op' : ServiceCall} {first answer' : Except Fault Service}
    {rest : List ServiceExchange} (hrest : ∀ x ∈ rest, x.1 = look) (hlook : look.isWrite = false)
    (hop : op.isWrite = true) :
    (∃ answer, (op, answer) ∈ (look, first) :: (op', answer') :: rest) ↔ op = op' := by
  -- The look is no write, so the write in question is the second call or none.
  have hreads : op ≠ look := by
    rintro rfl
    exact Bool.noConfusion (hop.symm.trans hlook)
  constructor
  · rintro ⟨answer, hmem⟩
    rcases List.mem_cons.mp hmem with hfirst | hmem
    · exact absurd (Prod.mk.inj hfirst).1 hreads
    · rcases List.mem_cons.mp hmem with hwrite | hlater
      · exact (Prod.mk.inj hwrite).1
      · exact absurd (hrest _ hlater) hreads
  · rintro rfl
    exact ⟨answer', by simp⟩

/-- Each way in which a cycle goes agrees with what is planned from the same first answer.
The cases are the ways a cycle can go; the plan is only looked at through
`Service.foreseen`, so no run of it enters here. -/
theorem Goes.foretells {space name : Value} {desired : Service} {resource : Text}
    {made : List ServiceExchange} {result : Except Fault Outcome}
    (hgoes : Goes (.read space name) desired resource made result) {answer : Except Fault Service}
    (hanswer : ∀ x ∈ made.head?, x.2 = answer) :
    Foretells resource (desired.foreseen resource answer) made result := by
  -- the three plans, and the failure that leaves none
  cases hgoes with
  | unread cause hcause =>
    obtain rfl := hanswer _ rfl
    rw [Service.foreseen_of_failure desired resource hcause]
    exact Foretells.of_failure ⟨.reading, cause, .inr rfl, rfl⟩ (by simp [ServiceCall.isWrite])
  | unchanged current hsame outcome hstate haction =>
    obtain rfl := hanswer _ rfl
    simp only [Service.foreseen, hsame]
    exact
      { fails := by simp
        creates := by simp [Plan.action]
        updates := by simp [Plan.action]
        fields := by simp [Plan.action]
        keeps := by simp [Plan.action, Plan.current, haction, hstate] }
  -- One write was made: the create that was planned, whether or not it was confirmed.
  | created notSpace notName answer' rest hrest hresult =>
    obtain rfl := hanswer _ rfl
    refine
      { fails := fails_iff_of_later hresult
        creates := fun sent => ?_
        updates := fun sent => ?_
        fields := ?_
        keeps := fun state => ?_ }
    · rw [mem_written hrest rfl rfl]
      simp [Service.foreseen, Plan.action, Plan.desired, eq_comm]
    · rw [mem_written hrest rfl rfl]
      simp [Service.foreseen, Plan.action]
    · rintro p outcome ⟨⟩ haction
      simp [Plan.action] at haction
    · have hcreated : ∀ outcome, result = .ok outcome → outcome.action = .created := by
        rintro outcome rfl
        exact hresult
      simp +contextual [Service.foreseen, Plan.action, hcreated]
  -- The same with an update, which is made from the service that both runs have read.
  | updated current hdrift answer' rest hrest hresult =>
    obtain rfl := hanswer _ rfl
    simp only [Service.foreseen, hdrift, if_true]
    have hupdated : ∀ outcome, result = .ok outcome →
        outcome.action = .updated (current.compare desired).fields := by
      rintro outcome rfl
      exact hresult
    refine
      { fails := fails_iff_of_later hresult
        creates := fun sent => ?_
        updates := fun sent => ?_
        fields := ?_
        keeps := fun state => ?_ }
    · rw [mem_written hrest rfl rfl]
      simp [Plan.action]
    · rw [mem_written hrest rfl rfl]
      simp [Plan.action, Plan.patched, eq_comm]
    · rintro p outcome ⟨⟩ - houtcome
      rw [hupdated outcome houtcome]
      rfl
    · simp +contextual [Plan.action, hupdated]

/-- **A plan foretells the cycle.** For an owner with a name and a namespace, whatever the
surroundings of either, if every failed answer can be reported and neither context shows
an end: a plan asks at most once, to read the service; and a cycle whose first read is
answered alike fails, creates, updates or keeps just as was planned. The two runs share
nothing but the first answer, so each is described by itself, and `Goes.foretells` joins
the descriptions. -/
theorem plan_foretells_cycle {τ σ σ' : Type} [TimeScale τ] {settings : ServiceSettings}
    (hkeyed : settings.Keyed) {owner : OwnerIdentity} {space : Value}
    (hname : owner.name.truthy = true) (hspace : space.truthy = true) {ctx ctx' : RequestContext τ}
    (hdeadline : ∀ given, ctx.deadline ≠ .malformed given)
    (hdeadline' : ∀ given, ctx'.deadline ≠ .malformed given)
    (world : Surroundings σ τ ServiceCall (Except Fault Service))
    (world' : Surroundings σ' τ ServiceCall (Except Fault Service))
    (hfailures : ∀ op s f, (world.call op s).1 = .error f → f.Reportable)
    (hfailures' : ∀ op s f, (world'.call op s).1 = .error f → f.Reportable) (s : σ) (s' : σ') :
    let planning := (plan (Engine.ofSettings settings) ⟨ctx, owner, space⟩).run
    let cycle := (reconcile (Engine.ofSettings settings) ⟨ctx', owner, space⟩).run
    let asked := planning.exchanges world s
    let made := cycle.exchanges world' s'
    ctx.Lasts (planning.events world s) → ctx'.Lasts (cycle.events world' s') →
    (∀ x ∈ asked.head?, ∀ y ∈ made.head?, x.2 = y.2) →
    asked.map Prod.fst <+: [.read space settings.name]
      ∧ Foretells (space.display ++ "/" ++ settings.name.display) (planning.run world s).1 made
        (cycle.run world' s').1 := by
  intro planning cycle asked made hlasts hlasts' hanswer
  have hplan := Program.unfolds_run world planning s
  have hcycle := Program.unfolds_run world' cycle s'
  have hasked : Event.exchanges (planning.events world s) = asked := Program.exchanges_events _ _ _
  have hmade : Event.exchanges (cycle.events world' s') = made := Program.exchanges_events _ _ _
  rcases desired_cases (a := ⟨ctx, owner, space⟩) hkeyed hname hspace with
    ⟨desired, hdesired, hnamed⟩ | ⟨built, cause, -, -, hreportable, hdesired⟩
  · -- the failed answers are the surroundings'
    have hreportable : ∀ op f, (op, .error f) ∈ asked → f.Reportable := by
      intro op f hmem
      obtain ⟨s₁, hs₁⟩ := Program.answer_of_mem_exchanges hmem
      exact hfailures op s₁ f hs₁.symm
    have hreportable' : ∀ op f, (op, .error f) ∈ made → f.Reportable := by
      intro op f hmem
      obtain ⟨s₁, hs₁⟩ := Program.answer_of_mem_exchanges hmem
      exact hfailures' op s₁ f hs₁.symm
    obtain ⟨answer, hread, hplanned⟩ :=
      foreseen_of_unfolds hdesired hdeadline hplan hlasts (hasked ▸ hreportable)
    have hgoes := goes_of_unfolds (a := ⟨ctx', owner, space⟩) hdesired hdeadline' hcycle hlasts'
      (hmade ▸ hreportable')
    rw [hasked] at hread
    rw [hmade] at hgoes
    rw [hread] at hanswer ⊢
    rw [hplanned, ← hnamed]
    refine ⟨List.prefix_refl _, ?_⟩
    exact hgoes.foretells fun x hx => (hanswer _ rfl x hx).symm
  · -- without a desired service both are reported from the start
    obtain ⟨hnone, hplanned⟩ := unfolds_unstarted hdesired Phase.isWrite rfl hplan
    obtain ⟨hnone', hresult⟩ :=
      unfolds_unstarted (a := ⟨ctx', owner, space⟩) hdesired (fun _ => false) rfl hcycle
    rw [hnone, Event.exchanges_nil] at hasked
    rw [hnone', Event.exchanges_nil] at hmade
    rw [hplanned, hresult, ← hasked, ← hmade, Fault.during_eq hreportable]
    exact ⟨List.nil_prefix, .of_failure ⟨.start, cause, .inl rfl, rfl⟩ (by simp)⟩

/-- A plan that finds nothing foretells a cycle that finds nothing, creates the service
and then fails to find it. -/
theorem plan_foretells_unconfirmed :
    ∃ desired,
      (Engine.ofSettings {}).desired Assignment.sample = .ok desired
      ∧ Foretells "ops/node-observability-agent"
        ((plan (Engine.ofSettings {}) Assignment.sample).run.run Surroundings.scripted [none]).1
        ((reconcile (Engine.ofSettings {}) Assignment.sample).run.exchanges Surroundings.scripted
          [none, some desired, none])
        ((reconcile (Engine.ofSettings {}) Assignment.sample).run.run Surroundings.scripted
          [none, some desired, none]).1 := by
  have hfailures : ∀ op s f, (Surroundings.scripted.call op s).1 = .error f → f.Reportable := by
    intro op s f h
    rw [Surroundings.notFound_of_scripted h]
    exact ⟨rfl, rfl⟩
  -- Without a deadline and with a flag that is never set the context lasts through any run.
  have hlasts {α : Type} (p : Program Seconds ServiceCall (Except Fault Service) α)
      (s : List (Option Service)) :
      ({} : RequestContext Seconds).Lasts (p.events Surroundings.scripted s) :=
    RequestContext.lasts_events (fun _ => rfl) (by simp) p s
  obtain ⟨desired, hdesired⟩ :
    ∃ desired, (Engine.ofSettings {}).desired Assignment.sample = .ok desired := ⟨_, rfl⟩
  have hname : Assignment.sample.owner.name.truthy = true := rfl
  have hspace : Assignment.sample.space.truthy = true := rfl
  have hdeadline : ∀ given, ({} : RequestContext Seconds).deadline ≠ .malformed given := by simp
  have hforetells := plan_foretells_cycle ServiceSettings.keyed_default hname hspace hdeadline hdeadline
    Surroundings.scripted Surroundings.scripted hfailures hfailures [none] [none, some desired, none]
    (hlasts _ _) (hlasts _ _) (by
      obtain rfl := Except.ok.inj (hdesired.symm.trans rfl)
      rintro x ⟨rfl⟩ y ⟨rfl⟩
      rfl)
  exact ⟨desired, hdesired, hforetells.2⟩

end Keeper
