import Keeper.Proofs.Origin
import Keeper.Proofs.CallProtocol

/-!
# Keeper — what the report of a failed cycle tells

A cycle that fails says in which phase it was and what it met. From the phase it can be told which
calls have been made and how they were answered.

* **`Fault.during_eq`** — a fault that is reported, and the report.
* **`ServiceSettings.eq_of_build`**, **`Engine.eq_of_desired`**, **`Engine.owners_desired`** — what the
  desired service is, if there is one.
* **`desired_cases`** — the desired service has the name of the settings; without one, the cycle is
  reported from its start.
* **`abides_reconcile_unstarted`** — such a cycle makes no call.
* **`FailedIn`** — the phase, the exchanges and the cause of a failed cycle.
* **`failure_tells_progress`** — the report of a failed cycle names them.
-/

namespace Keeper

/-- The calls that change a service. -/
def ServiceCall.isWrite : ServiceCall → Bool
  | .read _ _ => false
  | .create _ | .update _ => true

/-! ## Reports -/

/-- A fault that a report can be made of. -/
structure Fault.Reportable (f : Fault) : Prop where
  reported : f.isReported = true
  worded : f.wording.isSome = true

/-- The report of a fault from a phase; it says whether the context is to blame. -/
theorem Fault.during_eq {f : Fault} (h : f.Reportable) (phase : Phase) (resource : Text) :
    f.during phase resource = .cycle f.isHalt phase.name resource (some f) := by
  unfold during
  rw [h.reported, ← Option.not_isSome, h.worded]
  rfl

theorem Fault.reportable_linkage (refusal : Refusal) : (Fault.linkage refusal).Reportable :=
  ⟨rfl, rfl⟩

/-- A context that ends at a time, or not at all, stops a cycle with a fault that is
reported. -/
theorem RequestContext.Stops.reportable {τ : Type} {ctx : RequestContext τ} {f : Fault}
    (h : ctx.Stops f) (hdeadline : ∀ given, ctx.deadline ≠ .malformed given) : f.Reportable := by
  cases h with
  | cancelled => exact ⟨rfl, rfl⟩
  | expired time h => exact ⟨rfl, rfl⟩
  | malformed given h => exact absurd h (hdeadline given)

/-! ## The start of a cycle

With a name for the owner and a namespace a service is built; only its linkage can be refused. -/

/-- The settings have keys for the label and the annotation. -/
structure ServiceSettings.Keyed (settings : ServiceSettings) : Prop where
  label : ∃ k, settings.labelKey.key = .ok k
  annotation : ∃ k, settings.certKey.key = .ok k

theorem ServiceSettings.keyed_default : ({} : ServiceSettings).Keyed := ⟨⟨_, rfl⟩, ⟨_, rfl⟩⟩

/-- With keys for label and annotation, and with an owner and a namespace, the service is
built. -/
theorem ServiceSettings.build_eq_ok {settings : ServiceSettings} (h : settings.Keyed)
    {ownerName space : Value} (hname : ownerName.truthy = true) (hspace : space.truthy = true) :
    ∃ built, settings.build ownerName space = .ok built ∧ built.name = settings.name
      ∧ built.owners = [] := by
  obtain ⟨k, hk⟩ := h.label
  obtain ⟨k', hk'⟩ := h.annotation
  unfold build labels
  rw [hname, hspace, hk, hk']
  exact ⟨_, rfl, rfl, rfl⟩

/-- What is built is made of the settings, the owner's name and the namespace, and of
nothing else. In particular the clock and the context do not enter, so all cycles of one
owner want the same service. -/
theorem ServiceSettings.eq_of_build {settings : ServiceSettings} {ownerName space : Value}
    {built : Service} (h : settings.build ownerName space = .ok built) :
    ∃ label cert, space.truthy = true
      ∧ settings.labelKey.key = .ok label ∧ settings.certKey.key = .ok cert
      ∧ built = {
          space, name := settings.name
          labels := some [(label, ownerName)]
          annotations := some [(cert, settings.effectiveSecretName)]
          selector := some [(label, ownerName)]
          clusterIP := headless
          ports := [{ port := settings.port, target := settings.effectiveTargetPort }] } := by
  unfold build at h
  -- Two guards stand before anything is built; past them the fields are those of the record.
  cases hname : ownerName.truthy with
  | false =>
    rw [hname] at h
    cases h
  | true =>
    cases hspace : space.truthy with
    | false =>
      rw [hname, hspace] at h
      cases h
    | true =>
      rw [hname, hspace] at h
      obtain ⟨labels, hlabels, h⟩ := Fault.bind_eq_ok.mp h
      obtain ⟨label, hlabel, hlabels⟩ := Fault.bind_eq_ok.mp hlabels
      obtain rfl := Except.ok.inj hlabels
      obtain ⟨cert, hcert, h⟩ := Fault.bind_eq_ok.mp h
      exact ⟨label, cert, rfl, hlabel, hcert, (Except.ok.inj h).symm⟩

/-- The desired service is what is built, with the owner of the cycle and no other. -/
theorem Engine.eq_of_desired {τ : Type} {settings : ServiceSettings} {a : Assignment τ}
    {desired : Service} (h : (ofSettings settings).desired a = .ok desired) :
    ∃ built, settings.build a.owner.name a.space = .ok built
      ∧ desired = { built with owners := [a.owner.reference] } := by
  obtain ⟨built, hbuilt, hlinked⟩ := Fault.bind_eq_ok.mp h
  have hbuilt := Fault.eq_ok_of_mapError hbuilt
  obtain ⟨rs, hrs, rfl⟩ := eq_of_link (Fault.eq_ok_of_mapError hlinked)
  obtain ⟨_, _, -, -, -, hbare⟩ := ServiceSettings.eq_of_build hbuilt
  rw [hbare] at hrs
  exact ⟨built, hbuilt, by rw [← Except.ok.inj hrs]⟩

theorem Engine.owners_desired {τ : Type} {settings : ServiceSettings} {a : Assignment τ}
    {desired : Service} (h : (ofSettings settings).desired a = .ok desired) :
    desired.owners = [a.owner.reference] := by
  obtain ⟨_, -, rfl⟩ := eq_of_desired h
  rfl

/-- An owner is refused as a linkage and in no other way. -/
theorem checkOwner_eq_error {owner : OwnerIdentity} {space : Value} {f : Fault}
    (h : checkOwner owner space = .error f) : ∃ refusal, f = .linkage refusal := by
  unfold checkOwner at h
  dsimp only at h
  split at h
  · exact ⟨_, (Except.error.inj h).symm⟩
  · split at h
    · exact ⟨_, (Except.error.inj h).symm⟩
    · cases h

/-- A service without owners is linked unless the owner itself is refused. -/
theorem link_eq_error {owner : OwnerIdentity} {s : Service} (hs : s.owners = []) {f : Fault}
    (h : link owner s = .error f) : ∃ refusal, f = .linkage refusal := by
  unfold link at h
  rw [hs] at h
  cases hcheck : checkOwner owner s.space with
  | error f' =>
    rw [hcheck] at h
    obtain rfl : f' = f := Except.error.inj h
    exact checkOwner_eq_error hcheck
  | ok u =>
    rw [hcheck] at h
    cases h

section Cycles

variable {τ : Type} {a : Assignment τ} {settings : ServiceSettings}

/-- The desired service of such an owner: it is linked, or the linkage is refused, and the
refusal is reported from the start. -/
theorem desired_cases (hkeyed : settings.Keyed) (hname : a.owner.name.truthy = true)
    (hspace : a.space.truthy = true) :
    (∃ desired, (Engine.ofSettings settings).desired a = .ok desired ∧ desired.name = settings.name)
      ∨ ∃ built cause, settings.build a.owner.name a.space = .ok built
        ∧ link a.owner built = .error cause ∧ cause.Reportable
        ∧ (Engine.ofSettings settings).desired a
          = .error (cause.during .start (a.resource settings.name.display)) := by
  obtain ⟨built, hbuild, hbuilt, howners⟩ := ServiceSettings.build_eq_ok hkeyed hname hspace
  -- What is desired is the built service with its owner linked, and only linking can still fail.
  have hdesired : (Engine.ofSettings settings).desired a
      = (link a.owner built).mapError (Fault.during .start (a.resource built.name.display)) := by
    simp only [Engine.desired, Engine.ofSettings]
    rw [hbuild]
    rfl
  rw [hdesired, hbuilt]
  cases hlink : link a.owner built with
  | ok desired =>
    obtain ⟨rs, -, rfl⟩ := eq_of_link hlink
    exact .inl ⟨_, rfl, hbuilt⟩
  | error cause =>
    obtain ⟨refusal, rfl⟩ := link_eq_error howners hlink
    exact .inr ⟨built, _, hbuild, hlink, Fault.reportable_linkage refusal, rfl⟩

/-- A cycle without a desired service fails at once, as that is reported. -/
theorem abides_reconcile_unstarted [TimeScale τ] {e : Engine} {f : Fault}
    (h : e.desired a = .error f) :
    Attempt.Abides (fun _ _ => False) (fun _ _ => False) (fun es f' => es = [] ∧ f' = f)
      (reconcile e a) [] := by
  refine (Attempt.abides_bind _ _).mpr ?_
  unfold drive driveFrom
  simp only [Stage.next, h]
  exact ⟨rfl, rfl⟩

/-! ## How far a cycle got -/

/-- The phase a cycle failed in, the exchanges it had had by then, and the cause: either
its service was not linked, or it failed with its desired service at hand. -/
inductive FailedIn (settings : ServiceSettings) (a : Assignment τ) :
    Phase → List ServiceExchange → Fault → Prop where
  | unlinked {built : Service} {cause : Fault}
    (hbuild : settings.build a.owner.name a.space = .ok built)
    (hlink : link a.owner built = .error cause) : FailedIn settings a .start [] cause
  | started {desired : Service} {phase : Phase} {es : List ServiceExchange} {cause : Fault}
    (hdesired : (Engine.ofSettings settings).desired a = .ok desired)
    (h : FailsIn a desired phase es cause) : FailedIn settings a phase es cause

variable {phase : Phase} {es : List ServiceExchange} {cause : Fault}

/-- A cycle is reported from its start or from a phase that makes a call. -/
theorem FailedIn.phase_mem (h : FailedIn settings a phase es cause) :
    phase ∈ [Phase.start, .reading, .creating, .writing, .confirming] := by
  cases h with
  | unlinked hbuild hlink => decide
  | started hdesired h =>
    have hphase {look op : ServiceCall} {desired : Service} {before : List ServiceExchange}
        (hcalls : Calls look desired phase op before) :
        phase ∈ [Phase.start, .reading, .creating, .writing, .confirming] := by
      cases hcalls <;> decide
    cases h with
    | stopped h hcause => exact hphase h
    | refused h hcause => exact hphase h

/-- Up to the first read, nothing has been written. So a report from these phases says
that the service is as it was. -/
theorem FailedIn.unwritten (h : FailedIn settings a phase es cause)
    (hphase : phase = .start ∨ phase = .reading) : ∀ x ∈ es, x.1.isWrite = false := by
  cases h with
  | unlinked hbuild hlink => simp
  | started hdesired h =>
    cases h with
    | stopped h hcause =>
      cases h with
      | reading => simp
      -- A call made in a later phase would contradict `hphase`.
      | _ => simp at hphase
    | refused h hcause =>
      cases h with
      | reading => simp [ServiceCall.isWrite]
      | _ => simp at hphase

/-- When the last read fails, something has been written. So a report from this phase says
that the service has changed, and only that this could not be confirmed. -/
theorem FailedIn.written (h : FailedIn settings a phase es cause) (hphase : phase = .confirming) :
    ∃ op sent, op.isWrite = true ∧ (op, .ok sent) ∈ es := by
  subst hphase
  cases h with
  | started hdesired h =>
    -- Confirming follows a write on both branches: a creation or an update that was answered.
    have hwritten {look op : ServiceCall} {desired : Service} {before : List ServiceExchange}
        (hcalls : Calls look desired .confirming op before) :
        ∃ op sent, op.isWrite = true ∧ (op, .ok sent) ∈ before := by
      cases hcalls with
      | confirmingCreated space name sent => exact ⟨.create desired, sent, rfl, by simp⟩
      | confirmingUpdated current sent h =>
        exact ⟨.update _, sent, rfl, List.mem_cons_of_mem _ (List.mem_singleton.mpr rfl)⟩
    cases h with
    | stopped h hcause => exact hwritten h
    | refused h hcause =>
      obtain ⟨op, sent, hwrite, hmem⟩ := hwritten h
      exact ⟨op, sent, hwrite, List.mem_append_left _ hmem⟩

/-- The report of a failure whose answers, if they fail, can be reported. -/
theorem FailsIn.reportable {desired : Service} (h : FailsIn a desired phase es cause)
    (hdeadline : ∀ given, a.context.deadline ≠ .malformed given)
    (hfailures : ∀ op f, (op, .error f) ∈ es → f.Reportable) : cause.Reportable := by
  cases h with
  | stopped h hcause => exact hcause.reportable hdeadline
  | refused h hcause =>
    exact hfailures _ cause (List.mem_append_right _ (List.mem_singleton.mpr rfl))

/-- **A failed cycle tells how far it got.** For an owner with a name and a namespace,
whatever the context, the clock and the answers, if every failed answer can be reported: a
cycle that fails does so with a report of its phase, of the service and of the cause, and
marks it as cancelled exactly if the cause is the context's. The phase is the start, when
the service could not be linked, or one that makes a call, and then its call, if it was
made, has failed with that cause. `FailedIn` says which calls were made before, phase by
phase, so the report tells what has been written too. -/
theorem failure_tells_progress [TimeScale τ] {σ : Type} (hkeyed : settings.Keyed)
    (hname : a.owner.name.truthy = true) (hspace : a.space.truthy = true)
    (hdeadline : ∀ given, a.context.deadline ≠ .malformed given)
    (world : Surroundings σ τ ServiceCall (Except Fault Service))
    (hfailures : ∀ op s f, (world.call op s).1 = .error f → f.Reportable) (s : σ) {f : Fault}
    (hf : ((reconcile (Engine.ofSettings settings) a).run.run world s).1 = .error f) :
    let es := (reconcile (Engine.ofSettings settings) a).run.exchanges world s
    ∃ phase cause, f = .cycle cause.isHalt phase.name (a.resource settings.name.display) (some cause)
      ∧ FailedIn settings a phase es cause
      ∧ phase ∈ [Phase.start, .reading, .creating, .writing, .confirming]
      ∧ (phase = .start ∨ phase = .reading → ∀ x ∈ es, x.1.isWrite = false)
      ∧ (phase = .confirming → ∃ op sent, op.isWrite = true ∧ (op, .ok sent) ∈ es) := by
  intro es
  suffices h : ∃ phase cause,
      f = .cycle cause.isHalt phase.name (a.resource settings.name.display) (some cause)
        ∧ FailedIn settings a phase es cause by
    obtain ⟨phase, cause, hreport, hfailed⟩ := h
    exact ⟨phase, cause, hreport, hfailed, hfailed.phase_mem, hfailed.unwritten, hfailed.written⟩
  -- either the cycle has its desired service, or it has failed before any call
  rcases desired_cases hkeyed hname hspace with
    ⟨desired, hdesired, hnamed⟩ | ⟨built, cause, hbuild, hlink, hreportable, hdesired⟩
  · -- the failed answer is one of the surroundings'
    have hanswers : ∀ op f, (op, .error f) ∈ es → f.Reportable := by
      intro op f hmem
      obtain ⟨s', hs'⟩ := Program.answer_of_mem_exchanges hmem
      exact hfailures op s' f hs'.symm
    have hends := Program.ends_of_abides (abides_cycle hdesired) world s
    rw [List.nil_append, hf] at hends
    obtain ⟨phase, cause, hfails, rfl⟩ := hends
    rw [Fault.during_eq (hfails.reportable hdeadline hanswers), hnamed]
    exact ⟨phase, cause, rfl, .started hdesired hfails⟩
  · have hends := Program.ends_of_abides (abides_reconcile_unstarted hdesired) world s
    rw [List.nil_append, hf] at hends
    obtain ⟨hes, rfl⟩ := hends
    rw [Fault.during_eq hreportable]
    refine ⟨.start, cause, rfl, ?_⟩
    rw [show es = [] from hes]
    exact .unlinked hbuild hlink

end Cycles

/-- A cycle that finds nothing, creates the service and then does not find it either
reports that it could not be confirmed. -/
theorem failure_tells_unconfirmed :
    ∃ desired cause,
      (Engine.ofSettings {}).desired Assignment.sample = .ok desired
      ∧ ((reconcile (Engine.ofSettings {}) Assignment.sample).run.run Surroundings.scripted
        [none, some desired, none]).1
        = .error (.cycle false "confirming" "ops/node-observability-agent" (some cause))
      ∧ FailedIn {} Assignment.sample .confirming
        ((reconcile (Engine.ofSettings {}) Assignment.sample).run.exchanges Surroundings.scripted
          [none, some desired, none]) cause := by
  have hfailures : ∀ op s f, (Surroundings.scripted.call op s).1 = .error f → f.Reportable := by
    intro op s f h
    rw [Surroundings.notFound_of_scripted h]
    exact ⟨rfl, rfl⟩
  obtain ⟨desired, hdesired⟩ :
    ∃ desired, (Engine.ofSettings {}).desired Assignment.sample = .ok desired := ⟨_, rfl⟩
  have hf : ((reconcile (Engine.ofSettings {}) Assignment.sample).run.run Surroundings.scripted
      [none, some desired, none]).1
      = .error (.cycle false "confirming" "ops/node-observability-agent" (some (.notFound "" ""))) := by
    obtain rfl := Except.ok.inj (hdesired.symm.trans rfl)
    rfl
  obtain ⟨phase, cause, hreport, hfailed, -⟩ := failure_tells_progress ServiceSettings.keyed_default rfl rfl
    (by simp [Assignment.sample]) Surroundings.scripted hfailures _ hf
  -- of all phases, only the last one has that name
  obtain ⟨-, hname, -, hcause⟩ := Fault.cycle.inj hreport
  have hphase : phase = .confirming := by
    cases phase <;> simp [Phase.name] at hname ⊢
  rw [← hphase]
  exact ⟨desired, cause, hdesired, by rw [hf, hcause], hfailed⟩

end Keeper
