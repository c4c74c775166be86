import Keeper.Proofs.FailureReport
import Keeper.Proofs.Standstill

/-!
# Keeper — services that another owner controls

Linkage leaves a service to the owner that controls it. But a cycle links the service it desires, which
nobody owns yet, and never the one that it reads: that one it compares, and the comparison replaces owner
references as a whole. So a service is taken over.

* **`OwnerReference.Rivals`** — a reference that makes another owner the controller.
* **`checkControllers_eq_ok_iff`** — linkage accepts a service exactly if there is none on it.
* **`ownersDrift_of_rivals`** — where there is one, the owner references have drifted.
* **`cycle_takes_over`** — so a cycle that finds one there updates the service, with its own owner alone.
* **`service_reparented`** — and nothing is left of the other owner.
-/

namespace Keeper

open Cluster (Store fieldsAt)

/-! ## Rivals -/

/-- A reference that makes another than the given owner the controller. -/
structure OwnerReference.Rivals (r owner : OwnerReference) : Prop where
  controller : r.controller.truthy = true
  other : sameOwner r owner = .ok false

/-- Linkage accepts the owners of a service exactly if each controller among them is the
owner. The check is made on the desired service, which has just been built and has no
owners yet: it never sees those of the stored one. -/
theorem checkControllers_eq_ok_iff (service : Text) (owner : OwnerReference) (rs : List OwnerReference) :
    checkControllers service owner rs = .ok ()
      ↔ ∀ r ∈ rs, r.controller.truthy = true → sameOwner r owner = .ok true := by
  induction rs with
  | nil => simp [checkControllers]
  | cons r rest ih =>
    rw [List.forall_mem_cons, ← ih, checkControllers]
    -- Only a controller is compared with the owner; a comparison that fails ends the check.
    cases hcontroller : r.controller.truthy with
    | false => simp
    | true =>
      cases hsame : sameOwner r owner with
      | error f => simp [bind, Except.bind]
      | ok same => cases same <;> simp [bind, Except.bind]

/-- Linkage refuses a service on which the owner has a rival. -/
theorem OwnerReference.Rivals.checkControllers_eq_error {r owner : OwnerReference}
    (hrivals : r.Rivals owner) {rs : List OwnerReference} (hr : r ∈ rs) (service : Text) :
    ∃ f, checkControllers service owner rs = .error f := by
  cases hcheck : checkControllers service owner rs with
  | error f => exact ⟨f, rfl⟩
  | ok u =>
    have hsame := (checkControllers_eq_ok_iff service owner rs).mp hcheck r hr hrivals.controller
    cases hrivals.other.symm.trans hsame

/-- Only a text has a group to its name. -/
theorem apiGroup_cases {v : Value} {group : Text} (h : apiGroup v = .ok group) :
    (∃ t : Text, v = .text t) ∨ group = "" := by
  unfold apiGroup at h
  split at h
  case h_1 t => exact .inl ⟨t, rfl⟩
  case h_6 | h_7 => cases h
  all_goals
    split at h
    · cases h
    · exact .inr (Except.ok.inj h).symm

/-- Versions that are equal have one group. -/
theorem apiGroup_congr {v w : Value} (heqv : v.eqv w = true) {group group' : Text}
    (hv : apiGroup v = .ok group) (hw : apiGroup w = .ok group') : group = group' := by
  rcases apiGroup_cases hv with ⟨t, rfl⟩ | rfl
  · obtain rfl := (Value.text_eqv t w).mp heqv
    exact Except.ok.inj (hv.symm.trans hw)
  · rcases apiGroup_cases hw with ⟨t, rfl⟩ | rfl
    · obtain rfl := (Value.eqv_text v t).mp heqv
      exact Except.ok.inj (hv.symm.trans hw)
    · rfl

/-- A rival does not equal the owner. -/
theorem OwnerReference.Rivals.not_eqv {r owner : OwnerReference} (hrivals : r.Rivals owner) :
    r.eqv owner = false := by
  cases heqv : r.eqv owner with
  | false => rfl
  | true =>
    simp only [eqv, Bool.and_eq_true] at heqv
    obtain ⟨⟨⟨⟨⟨hversion, hkind⟩, hname⟩, -⟩, -⟩, -⟩ := heqv
    obtain ⟨g, hgroup, hother⟩ := Fault.bind_eq_ok.mp hrivals.other
    obtain ⟨g', hgroup', hother⟩ := Fault.bind_eq_ok.mp hother
    obtain rfl := apiGroup_congr hversion hgroup hgroup'
    simp [hkind, hname, pure, Except.pure] at hother

/-! ## What becomes of their references -/

section Comparison

variable {current desired : Service} {owner r : OwnerReference}

/-- A rival is a drift of the owners: the desired service has one owner, and that is not
the rival. -/
theorem ownersDrift_of_rivals (howner : desired.owners = [owner]) (hr : r ∈ current.owners)
    (hrivals : r.Rivals owner) : ownersDrift current desired = true := by
  cases hdrift : ownersDrift current desired with
  | true => rfl
  | false =>
    obtain ⟨r', hcurrent, heqv⟩ := (ownersDrift_eq_false_iff howner).mp hdrift
    obtain rfl : r = r' := by simpa [hcurrent] using hr
    exact Bool.noConfusion (hrivals.not_eqv.symm.trans heqv)

theorem Service.compare_of_ownersDrift (hdrift : ownersDrift current desired = true) :
    .ownerReferences ∈ (current.compare desired).fields
      ∧ (current.compare desired).patched.owners = desired.owners := by
  simp [compare, Comparison.groups, hdrift]

/-- A group that is listed is a change. -/
theorem Comparison.changed_of_mem {c : Comparison} {group : FieldGroup} (h : group ∈ c.fields) :
    c.changed = true := by
  cases hchanged : c.changed with
  | true => rfl
  | false =>
    rw [(changed_eq_false_iff c).mp hchanged] at h
    cases h

end Comparison

/-- The owner references of a stored manifest; null if it has none. -/
def Cluster.storedOwners (manifest : Fields) : Value :=
  (fieldsAt manifest "metadata").getD "ownerReferences" .null

/-- Whatever it is written over, the metadata has the owner references of the service, if
there are some. -/
theorem Service.storedOwners_of_manifest {s : Service} {body : Fields} (hbody : s.manifest = .ok body)
    (howners : s.owners ≠ []) :
    Cluster.storedOwners body = .list (s.owners.map fun r => .map r.manifest) := by
  obtain ⟨keptMetadata, keptSpec, -, -, rfl⟩ := eq_of_manifest hbody
  have hmetadata : fieldsAt (s.written keptMetadata keptSpec) "metadata" = s.metadata keptMetadata := by
    simp [fieldsAt, get?_written]
  have hnonempty : s.owners.isEmpty = false := by simpa using howners
  rw [Cluster.storedOwners, hmetadata]
  refine Fields.getD_of_get? ?_ _
  rw [metadata, Fields.get?_put_of_ne _ (by simp), hnonempty]
  exact (Fields.get?_set _ _ _ _).trans (if_pos rfl)

/-! ## Whole cycles -/

section Cycles

variable {τ : Type} {a : Assignment τ} {look : ServiceCall} {desired current : Service}
  {rest : List ServiceExchange}

/-- A cycle that completes after it has found drift has updated the service and read it
again. -/
theorem Completes.of_drift {read : ServiceCall} {outcome : Outcome}
    (hcompletes : Completes read desired ((look, .ok current) :: rest) outcome)
    (hchanged : (current.compare desired).changed = true) :
    ∃ sent, rest = [(.update (current.compare desired).patched, .ok sent), (look, .ok outcome.state)]
      ∧ outcome.action = .updated (current.compare desired).fields := by
  cases hcompletes with
  | unchanged _ hsame => exact Bool.noConfusion (hsame.symm.trans hchanged)
  | updated _ sent state => exact ⟨sent, rfl, rfl⟩

/-- A cycle that fails after it has found something has been stopped before the update, or
made it. In the first case the store is as it was found. -/
theorem FailsIn.of_found {phase : Phase} {cause : Fault}
    (hfails : FailsIn a desired phase ((look, .ok current) :: rest) cause) :
    (rest = [] ∧ phase = .writing ∧ a.context.Stops cause)
      ∨ ∃ answer confirming,
        rest = (.update (current.compare desired).patched, answer) :: confirming := by
  generalize hes : (look, Except.ok current) :: rest = es at hfails
  cases hfails with
  | stopped hcalls hcause =>
    cases hcalls with
    -- Stopped between the look and the update: nothing was asked after the look.
    | writing =>
      obtain ⟨⟨-, rfl⟩, rfl⟩ : (_ ∧ current = _) ∧ rest = [] := by simpa using hes
      exact .inl ⟨rfl, rfl, hcause⟩
    | confirmingUpdated =>
      obtain ⟨⟨-, rfl⟩, rfl⟩ : (_ ∧ current = _) ∧ rest = _ := by simpa using hes
      exact .inr ⟨_, _, rfl⟩
    | _ => simp at hes
  | refused hcalls hcause =>
    cases hcalls with
    | writing | confirmingUpdated =>
      obtain ⟨⟨-, rfl⟩, rfl⟩ : (_ ∧ current = _) ∧ rest = _ := by simpa using hes
      exact .inr ⟨_, _, rfl⟩
    | _ => simp at hes

/-- A cycle that has made a call has its desired service. -/
theorem exists_desired_of_exchanges [TimeScale τ] {σ : Type} {e : Engine}
    {world : Surroundings σ τ ServiceCall (Except Fault Service)} {s : σ} {x : ServiceExchange}
    (hmade : (reconcile e a).run.exchanges world s = x :: rest) :
    ∃ desired, e.desired a = .ok desired := by
  cases hdesired : e.desired a with
  | ok desired => exact ⟨desired, rfl⟩
  | error f =>
    have hends := Program.ends_of_abides (abides_reconcile_unstarted hdesired) world s
    rw [List.nil_append, hmade] at hends
    split at hends
    · exact hends.elim
    · cases hends.1

/-- **A cycle takes a service over.** Whatever the context, the clock and the answers: a
cycle that finds a service on which its owner has a rival, and which linkage would refuse
for that, finds that the owner references have drifted. Unless its context stops it there,
it goes on to update the service, with its own owner as the only one; and it succeeds
exactly if the update and the look after it do. Linkage is asked about the desired service
only, which has no owner before it, so the rival is never weighed. -/
theorem cycle_takes_over [TimeScale τ] {σ : Type} {settings : ServiceSettings}
    (world : Surroundings σ τ ServiceCall (Except Fault Service)) (s : σ)
    (hfound : (reconcile (Engine.ofSettings settings) a).run.exchanges world s
      = (look, .ok current) :: rest)
    {r : OwnerReference} (hr : r ∈ current.owners) (hrivals : r.Rivals a.owner.reference) :
    let result := ((reconcile (Engine.ofSettings settings) a).run.run world s).1
    (∃ f, checkControllers current.key a.owner.reference current.owners = .error f)
    ∧ ∃ desired, (Engine.ofSettings settings).desired a = .ok desired
      ∧ let drift := current.compare desired
        .ownerReferences ∈ drift.fields
        ∧ (∀ body, drift.patched.manifest = .ok body →
          Cluster.storedOwners body = .list [.map a.owner.reference.manifest])
        ∧ ((rest = [] ∧ ∃ cause, a.context.Stops cause
            ∧ result = .error (cause.during .writing (a.resource desired.name.display)))
          ∨ ∃ answer confirming, rest = (.update drift.patched, answer) :: confirming)
        ∧ ((∃ outcome, result = .ok outcome ∧ outcome.action = .updated drift.fields)
          ↔ ∃ sent state, rest = [(.update drift.patched, .ok sent), (look, .ok state)]) := by
  intro result
  refine ⟨hrivals.checkControllers_eq_error hr current.key, ?_⟩
  obtain ⟨desired, hdesired⟩ := exists_desired_of_exchanges hfound
  have howner := Engine.owners_desired hdesired
  obtain ⟨hmem, howners⟩ := Service.compare_of_ownersDrift (ownersDrift_of_rivals howner hr hrivals)
  have hchanged := Comparison.changed_of_mem hmem
  rw [howner] at howners
  have hends : Attempt.EndsWith _ _ result := Program.ends_of_abides (abides_cycle hdesired) world s
  rw [List.nil_append, hfound] at hends
  refine ⟨desired, hdesired, hmem, fun body hbody => ?_, ?_⟩
  · rw [Service.storedOwners_of_manifest hbody (by simp [howners]), howners]
    rfl
  · -- the owners have drifted, so only an update can follow, or a failure
    cases hresult : result with
    | ok outcome =>
      rw [hresult] at hends
      obtain ⟨sent, hrest, haction⟩ := Completes.of_drift hends hchanged
      exact ⟨.inr ⟨_, _, hrest⟩, fun _ => ⟨sent, _, hrest⟩, fun _ => ⟨outcome, rfl, haction⟩⟩
    | error f =>
      rw [hresult] at hends
      obtain ⟨phase, cause, hfails, rfl⟩ := hends
      refine ⟨?_, ?_, ?_⟩
      · rcases hfails.of_found with ⟨hrest, rfl, hstops⟩ | hupdate
        · exact .inl ⟨hrest, cause, hstops, rfl⟩
        · exact .inr hupdate
      · rintro ⟨outcome, ⟨⟩, -⟩
      · -- no failure has three answers of which none has failed
        rintro ⟨sent, state, rfl⟩
        cases hfails.stopped_at

end Cycles

/-! ## A service of a deployment -/

/-- A deployment, as the controller of what it owns. -/
def OwnerReference.deployment : OwnerReference where
  apiVersion := "apps/v1"
  kind := "Deployment"
  name := "web"
  uid := "u-2"
  controller := .bool true

theorem OwnerReference.rivals_deployment :
    deployment.Rivals Assignment.sample.owner.reference := ⟨rfl, rfl⟩

/-- A service that a deployment controls. -/
def Service.deployed : Service where
  space := "ops"
  name := "node-observability-agent"
  owners := [.deployment]

/-- A cycle that finds such a service updates it. -/
theorem cycle_takes_over_deployed :
    ∃ look op sent state desired,
      (reconcile (Engine.ofSettings {}) Assignment.sample).run.exchanges Surroundings.scripted
          [some .deployed, some .deployed, some .deployed]
        = [(look, .ok .deployed), (op, .ok sent), (look, .ok state)]
      ∧ OwnerReference.deployment ∈ Service.deployed.owners
      ∧ OwnerReference.deployment.Rivals Assignment.sample.owner.reference
      ∧ (Engine.ofSettings {}).desired Assignment.sample = .ok desired
      ∧ .ownerReferences ∈ (Service.deployed.compare desired).fields
      ∧ op = .update (Service.deployed.compare desired).patched
      ∧ ∃ outcome, ((reconcile (Engine.ofSettings {}) Assignment.sample).run.run Surroundings.scripted
          [some .deployed, some .deployed, some .deployed]).1 = .ok outcome
        ∧ outcome.action = .updated (Service.deployed.compare desired).fields := by
  have hmem : OwnerReference.deployment ∈ Service.deployed.owners := List.mem_singleton.mpr rfl
  -- The run is evaluated once, to see that it makes three calls and what they are answered.
  obtain ⟨look, op, sent, state, hfound⟩ : ∃ look op sent state,
      (reconcile (Engine.ofSettings {}) Assignment.sample).run.exchanges Surroundings.scripted
          [some .deployed, some .deployed, some .deployed]
        = [(look, .ok .deployed), (op, .ok sent), (look, .ok state)] := ⟨_, _, _, _, rfl⟩
  obtain ⟨-, desired, hdesired, hdrift, -, hupdate, hsucceeds⟩ :=
    cycle_takes_over Surroundings.scripted _ hfound hmem OwnerReference.rivals_deployment
  obtain ⟨⟨⟩, -⟩ | ⟨answer, confirming, hrest⟩ := hupdate
  obtain rfl : op = .update (Service.deployed.compare desired).patched := by
    simpa using (Prod.mk.inj (List.cons.inj hrest).1).1
  exact ⟨look, _, sent, state, desired, hfound, hmem, OwnerReference.rivals_deployment, hdesired, hdrift,
    rfl, hsucceeds.mpr ⟨sent, state, rfl⟩⟩

/-- A stored manifest with that deployment as its controller. -/
def Service.deployedManifest : Fields :=
  [(.text "metadata", .map [
    (.text "namespace", .text "ops"), (.text "name", .text "node-observability-agent"),
    (.text "ownerReferences", .list [.map OwnerReference.deployment.manifest])])]

/-- **A service is re-parented.** A cycle over a store whose service a deployment controls
succeeds with an update, and afterwards the service is stored with the owner of the cycle
alone. -/
theorem service_reparented :
    let place : Cluster.Place := (.text "ops", .text "node-observability-agent")
    let store : Store := [(place, Service.deployedManifest)]
    let ran := (sending (Engine.ofSettings {}) Assignment.sample .sample).run (Store.alone (.whole 0)) store
    OwnerReference.deployment.Rivals Assignment.sample.owner.reference
      ∧ Cluster.storedOwners Service.deployedManifest = .list [.map OwnerReference.deployment.manifest]
      ∧ (∃ outcome, ran.1 = .ok outcome ∧ .ownerReferences ∈ outcome.action.fields)
      ∧ (ran.2.find? place).map Cluster.storedOwners
        = some (.list [.map Assignment.sample.owner.reference.manifest]) := by
  intro place store ran
  -- Two evaluations of one run: what it reports, and which owners the store holds afterwards.
  have hactions : ran.1.toOption.map (fun outcome => outcome.action.fields.contains .ownerReferences)
      = some true := by decide +kernel
  have hstored : (ran.2.find? place).map Cluster.storedOwners
      = some (.list [.map Assignment.sample.owner.reference.manifest]) := by decide +kernel
  obtain ⟨outcome, hran, hfields⟩ := Option.map_eq_some_iff.mp hactions
  have hmem : .ownerReferences ∈ outcome.action.fields := by simpa using hfields
  exact ⟨OwnerReference.rivals_deployment, rfl, ⟨outcome, Fault.eq_ok_of_toOption hran, hmem⟩, hstored⟩

end Keeper
  