import Keeper.Proofs.Standstill

/-!
# Keeper — a cycle after a cycle

Two cycles for one service have a store to themselves, the second after the first. Their contexts
may have an end, and the first may fail; once it has succeeded, the second has nothing to do.

* **`Wanted.valid_of_desired`** — what is wanted by a cycle that comes to make a call.
* **`settled_of_run`** — after a cycle, a read finds no drift.
* **`run_of_settled`**, **`exchanges_of_unchanged`** — a cycle that finds none makes one request.
* **`exists_write_of_run`** — a cycle that always finds drift, since its owner is not named by texts.
-/

namespace Keeper

open Cluster (Scene Store Segment created succeeding storedVersion)
open Http (Method Request Reply Response)
open Json (Document plainFields?)

/-! ## What is wanted, when it can be desired -/

namespace Wanted

theorem ne_empty_of_truthy {t : Text} (h : (Value.text t).truthy = true) : t ≠ "" := by
  rintro rfl
  cases h

/-- An owner that passes the check is one with which the desired service can be linked.
The engine makes the check itself, so what is said of a run that has a desired service
needs no hypothesis about the owner. -/
theorem valid_of_checkOwner {w : Wanted} (hspace : w.space ≠ "")
    (h : checkOwner w.owner w.space = .ok ()) : w.Valid := by
  unfold checkOwner at h
  -- the parts come first, then the namespace
  cases hmissing : w.owner.missingParts with
  | cons part rest =>
    rw [hmissing] at h
    cases h
  | nil =>
    have hparts : (Value.text w.apiVersion).truthy = true ∧ (Value.text w.kind).truthy = true
        ∧ (Value.text w.ownerName).truthy = true ∧ (Value.text w.uid).truthy = true := by
      simpa [OwnerIdentity.missingParts, owner] using hmissing
    rw [hmissing] at h
    refine {
      apiVersion := ne_empty_of_truthy hparts.1
      kind := ne_empty_of_truthy hparts.2.1
      ownerName := ne_empty_of_truthy hparts.2.2.1
      uid := ne_empty_of_truthy hparts.2.2.2
      ownerSpace := ?_
      space := hspace }
    by_cases hempty : w.ownerSpace = ""
    · exact .inl hempty
    · have htrue : (Value.text w.ownerSpace).truthy = true := truthy_text hempty
      cases hother : (Value.text w.ownerSpace).eqv w.space with
      | true => exact .inr (by simpa using hother)
      | false =>
        simp only [owner, htrue, hother] at h
        cases h

/-- What can be desired is valid: the engine asks for the namespace, and the linkage for
the rest. -/
theorem valid_of_desired {τ : Type} {w : Wanted} {context : RequestContext τ} {desired : Service}
    (h : (Engine.ofSettings w.settings).desired (w.assignment context) = .ok desired) : w.Valid := by
  obtain ⟨built, hbuilt, hlinked⟩ := Fault.bind_eq_ok.mp h
  obtain ⟨_, _, hspace, -, -, rfl⟩ := ServiceSettings.eq_of_build (Fault.eq_ok_of_mapError hbuilt)
  obtain ⟨_, hchecked, -⟩ := Fault.bind_eq_ok.mp (Fault.eq_ok_of_mapError hlinked)
  exact valid_of_checkOwner (ne_empty_of_truthy hspace) hchecked

end Wanted

/-! ## The first cycle -/

theorem Client.isFailure_of_taken {τ : Type} {c : Client τ} {method : Method} {path : Text} {r : Response}
    {fields : Fields} (h : c.taken method path r = .ok fields) : r.isFailure = .ok false := by
  obtain ⟨failed, hfailure, htaken⟩ := Fault.bind_eq_ok.mp h
  cases failed with
  | true => cases htaken
  | false => exact hfailure

/-- A response is delivered with the status it has. -/
theorem Cluster.Store.isFailure_of_deliver {r r' : Response} (h : deliver r = .response r') :
    r.isFailure = r'.isFailure := by
  unfold deliver at h
  split at h
  · obtain rfl := Reply.response.inj h
    rfl
  · split at h
    · obtain rfl := Reply.response.inj h
      rfl
    · cases h

section Cycles

variable {w : Wanted} {c : Client Seconds} {ctx : RequestContext Seconds} {now : Seconds}
  {store store' : Store} {before : Option Fields}

/-- A read leaves the store, whatever it finds. -/
theorem Client.store_of_read {space name : Value} {answer : Except Fault Service}
    (hread : (c.alone ctx now).call (.read space name) store = (answer, store'))
    (hgoes : GoesOn (.read space name, answer)) : store = store' := by
  obtain ⟨x, hhandled, hreply, -⟩ := handled_of_call hread hgoes
  obtain ⟨t, r, rfl, -⟩ := hhandled.of_read
  have haccepts : store.accepts (c.looked space name t r).1 = false := by
    simp [Store.accepts, Client.looked, Client.request]
  exact (Store.respond_of_not_accepts haccepts).symm.trans (congrArg Prod.snd hreply)

/-- What a read finds after the one write is settled. The read goes through JSON, and
`Standing` says that what is given of the stored service is settled, not only what is
stored. -/
theorem Standing.settled_of_read (hstanding : Standing w before store 1) (hspace : Segment w.space)
    (hname : Segment w.name) {state : Service}
    (hread : (c.alone ctx now).call (.read w.space w.name) store = (.ok state, store')) :
    w.Settled state := by
  obtain ⟨x, hhandled, hreply, -⟩ := Client.handled_of_call hread (.inl ⟨state, rfl⟩)
  obtain ⟨t, r, rfl, hfound⟩ := hhandled.of_read
  obtain ⟨fields, htaken, hstate⟩ := Fault.bind_eq_ok.mp hfound
  -- What was read is an object of fields, so the store answered with the service it holds and not with a
  -- refusal.
  have hfields : (store.reply (c.looked (.text w.space) (.text w.name) t r).1).1.fields? = some fields := by
    rw [hreply]
    exact Client.fields?_of_taken (Fault.eq_ok_of_mapError htaken)
  obtain ⟨m, hfind, hplain⟩ := Store.plainFields?_of_reply rfl
    (Cluster.target?_servicePath .get (by simp) c.baseUrl hspace hname) hfields
  cases hstanding with
  | settled m₁ version hfind₁ hholds hgiven =>
    obtain rfl := Option.some.inj (hfind₁.symm.trans hfind)
    obtain ⟨s, hs, hsettled⟩ := hgiven fields hplain
    obtain rfl := Except.ok.inj (hs.symm.trans hstate)
    exact hsettled

/-- A write that was answered is the first. An answer that is a service shows that the
store has accepted the request. -/
theorem Standing.of_write (hstanding : Standing w before store 0) (hspace : Segment w.space)
    (hname : Segment w.name) (hjoined : w.Joined) (hbegins : w.Begins before) {op : ServiceCall}
    {sent : Service} (hop : op.write? ≠ none)
    (hcall : (c.alone ctx now).call op store = (.ok sent, store'))
    (hsent : ∀ method path service body t, op.write? = some (method, path, service) →
      service.manifest = .ok body → Sent w before (c.request method path (some body) t)) :
    Standing w before store' 1 := by
  obtain ⟨x, hhandled, hreply, -⟩ := Client.handled_of_call hcall (.inl ⟨sent, rfl⟩)
  cases hhandled with
  | read => exact absurd rfl hop
  | @write _ method path service body t r _ hop hbody hstored =>
    obtain ⟨fields, htaken, -⟩ := Fault.bind_eq_ok.mp hstored
    have hfailure : (store.respond (c.request method path (some body) t)).1.isFailure = .ok false :=
      (Store.isFailure_of_deliver (congrArg Prod.fst hreply)).trans (Client.isFailure_of_taken htaken)
    -- Reads and writes are told apart by method, and only a write that did not fail counts as accepted.
    have hmethod : method ≠ .get := by
      cases op with
      | read => cases hop
      | create | update =>
        cases hop
        simp
    have haccepts : store.accepts (c.request method path (some body) t) = true := by
      unfold Store.accepts
      rw [hfailure]
      simp [Client.request, hmethod, Except.toOption]
    have hreceived := hstanding.receive hspace hname hjoined hbegins
      (hsent method path service body t hop hbody)
    have hstore : (store.respond (c.request method path (some body) t)).2 = store' :=
      congrArg Prod.snd hreply
    rwa [haccepts, hstore] at hreceived

/-- An update of what was found in an untouched store is sent. The look was answered from
what was there at the start, so the request is one of those that the invariant of the
repeated command allows. -/
theorem sent_of_look (hspace : Segment w.space) (hname : Segment w.name)
    (hbegins : w.Begins (store.find? w.place)) {current : Service}
    (hlook : (c.alone ctx now).call (.read w.space w.name) store = (.ok current, store))
    (hdrift : (current.compare w.service).changed = true) {body : Fields}
    (hbody : (current.compare w.service).patched.manifest = .ok body) (timeout : Seconds) :
    Sent w (store.find? w.place)
      (c.request .put (Client.servicePath current.space current.name) (some body) timeout) := by
  obtain ⟨x, hhandled, hreply, -⟩ := Client.handled_of_call hlook (.inl ⟨_, rfl⟩)
  obtain ⟨t, r, rfl, hfound⟩ := hhandled.of_read
  obtain ⟨fields, htaken, hcurrent⟩ := Fault.bind_eq_ok.mp hfound
  have hfields := Client.fields?_of_taken (Fault.eq_ok_of_mapError htaken)
  -- Nothing has been written yet, so the look is answered from what was there at the start.
  have huntouched : Standing w (store.find? w.place) store 0 := .untouched rfl
  have hcredible : Credible w (store.find? w.place) (store.reply (c.looked w.space w.name t r).1).1 :=
    huntouched.credible hspace hname hbegins c t
  rw [show store.reply (c.looked w.space w.name t r).1 = _ from hreply] at hcredible
  have hlooked : ∀ x ∈ [c.looked w.space w.name t r],
      x.1.method = .get → Credible w (store.find? w.place) x.2 :=
    List.forall_mem_singleton.mpr fun _ => hcredible
  exact sent_of_requested hbegins hlooked
    (.update timeout t (.response r) fields body current hfields hcurrent hdrift hbody)

/-- A cycle that succeeds has linked its desired service. -/
theorem Wanted.valid_of_unfolds {h : List (ServiceEvent Seconds)} {outcome : Outcome}
    (hunfolds : (reconcile (Engine.ofSettings w.settings) (w.assignment ctx)).Unfolds h (.ok outcome)) :
    w.Valid := by
  cases hdesired : (Engine.ofSettings w.settings).desired (w.assignment ctx) with
  | ok desired => exact Wanted.valid_of_desired hdesired
  | error f =>
    obtain ⟨-, ⟨⟩⟩ := unfolds_unstarted hdesired (fun _ => false) rfl hunfolds

/-- A cycle that had a store to itself has left it such that a read finds no drift. The
three courses are gone through; in each the last call is a read, and what it was answered
is what the cycle ends with. -/
theorem settled_of_run (hspace : Segment w.space) (hname : Segment w.name) (hjoined : w.Joined)
    (hbegins : w.Begins (store.find? w.place)) {outcome : Outcome}
    (hrun : (reconcile (Engine.ofSettings w.settings) (w.assignment ctx)).run.run (c.alone ctx now) store
      = (.ok outcome, store')) :
    w.Valid ∧ w.Settled outcome.state
      ∧ (c.alone ctx now).call (.read w.space w.name) store' = (.ok outcome.state, store') := by
  have hunfolds := Program.unfolds_run (c.alone ctx now)
    (reconcile (Engine.ofSettings w.settings) (w.assignment ctx)).run store
  have hleads := (c.stands_alone ctx now).leads_run
    (reconcile (Engine.ofSettings w.settings) (w.assignment ctx)).run store
  rw [hrun] at hunfolds hleads
  rw [← Program.exchanges_events] at hleads
  have hw := Wanted.valid_of_unfolds hunfolds
  refine ⟨hw, ?_⟩
  obtain ⟨hcompletes, -⟩ := unfolds_reconcile (Wanted.desired_eq hw ctx) hunfolds
  -- The calls of the run are now only a list, which the cases below spell out one outcome at a time.
  generalize Event.exchanges _ = es at hcompletes hleads
  have huntouched : Standing w (store.find? w.place) store 0 := .untouched rfl
  cases hcompletes with
  -- Nothing was sent: no drift against what was read means settled.
  | unchanged current h =>
    obtain _ | ⟨hread, ⟨⟩⟩ := hleads
    obtain rfl := Client.store_of_read hread (.inl ⟨_, rfl⟩)
    exact ⟨(w.settled_iff current).mpr ((Comparison.changed_eq_false_iff _).mp h), hread⟩
  -- The look, the write and the confirming read, in this order; only the middle call moves the store.
  | created space name sent state =>
    obtain _ | ⟨hlook, _ | ⟨hcreate, _ | ⟨hread, ⟨⟩⟩⟩⟩ := hleads
    obtain rfl := Client.store_of_read hlook (.inr ⟨_, _, _, _, rfl, rfl⟩)
    obtain rfl := Client.store_of_read hread (.inl ⟨_, rfl⟩)
    have hstanding := huntouched.of_write hspace hname hjoined hbegins (by simp [ServiceCall.write?])
      hcreate fun method path service body t hop hbody => by
        cases hop
        exact sent_of_requested hbegins (List.forall_mem_nil _) (.create [] t body (by simp) hbody)
    exact ⟨hstanding.settled_of_read hspace hname hread, hread⟩
  | updated current sent state h =>
    obtain _ | ⟨hlook, _ | ⟨hupdate, _ | ⟨hread, ⟨⟩⟩⟩⟩ := hleads
    obtain rfl := Client.store_of_read hlook (.inl ⟨_, rfl⟩)
    obtain rfl := Client.store_of_read hread (.inl ⟨_, rfl⟩)
    have hstanding := huntouched.of_write hspace hname hjoined hbegins (by simp [ServiceCall.write?])
      hupdate fun method path service body t hop hbody => by
        cases hop
        exact sent_of_look hspace hname hbegins hlook h hbody t
    exact ⟨hstanding.settled_of_read hspace hname hread, hread⟩

/-! ## The second cycle -/

/-- The outcome of a cycle that finds nothing to do. -/
def Outcome.unchanged (state : Service) : Outcome where
  state
  action := .unchanged
  trace := [.start, .reading, .found, .diffing, .unchanged]

/-- After a look that finds no drift there is no call that can fail: the cycle makes none.
So the second command, whose look finds what the first has left, can only report that
nothing has changed. -/
theorem Calls.not_leads {phase : Phase} {op : ServiceCall} {es : List ServiceExchange} {cause : Fault}
    {state : Service} (hcalls : Calls (.read w.space w.name) w.service phase op es)
    (hsame : (state.compare w.service).changed = false)
    (hread : (c.alone ctx now).call (.read w.space w.name) store = (.ok state, store)) :
    ¬(c.alone ctx now).Leads store (es ++ [(op, .error cause)]) store' := by
  intro hleads
  -- A failing run asked for more than the first read; with a settled service in the store that read is
  -- answered and shows no drift, so no further call is made.
  cases hcalls with
  | reading => cases (hleads.head hread).1
  | creating => cases (hleads.head hread).1
  | confirmingCreated => cases (hleads.head hread).1
  | writing current hdrift =>
    obtain rfl := Except.ok.inj (hleads.head hread).1
    exact Bool.noConfusion (hsame.symm.trans hdrift)
  | confirmingUpdated current _ hdrift =>
    obtain rfl := Except.ok.inj (hleads.head hread).1
    exact Bool.noConfusion (hsame.symm.trans hdrift)

/-- A cycle in whose context a read can be made, and finds no drift, makes no other call.
It does not fail either, as the only call is answered and every check is made at the one
time at which the context is open. -/
theorem run_of_settled (hw : w.Valid) (hopen : ctx.OpenAt now) {state : Service}
    (hsettled : w.Settled state)
    (hread : (c.alone ctx now).call (.read w.space w.name) store = (.ok state, store)) :
    (reconcile (Engine.ofSettings w.settings) (w.assignment ctx)).run.run (c.alone ctx now) store
      = (.ok (.unchanged state), store) := by
  -- The one fact that decides the run: the comparison with what is read finds nothing changed.
  have hsame := (Comparison.changed_eq_false_iff _).mpr ((w.settled_iff state).mp hsettled)
  have hunfolds := Program.unfolds_run (c.alone ctx now)
    (reconcile (Engine.ofSettings w.settings) (w.assignment ctx)).run store
  have hleads := (c.stands_alone ctx now).leads_run
    (reconcile (Engine.ofSettings w.settings) (w.assignment ctx)).run store
  have hseen := (c.stands_alone ctx now).seen_events
    (reconcile (Engine.ofSettings w.settings) (w.assignment ctx)).run store
  rw [← Program.exchanges_events] at hleads
  have hends := unfolds_reconcile (Wanted.desired_eq hw ctx) hunfolds
  generalize Program.run _ _ store = ran at hunfolds hleads hends ⊢
  generalize Program.events _ _ store = h at hunfolds hleads hends hseen
  obtain ⟨result, store'⟩ := ran
  cases result with
  | ok outcome =>
    obtain ⟨hcompletes, -⟩ := hends
    generalize Event.exchanges h = es at hcompletes hleads
    cases hcompletes with
    | unchanged current =>
      obtain ⟨hcurrent, ⟨⟩⟩ := hleads.head hread
      obtain rfl := Except.ok.inj hcurrent
      rfl
    | created => cases (hleads.head hread).1
    | updated current _ _ hdrift =>
      obtain rfl := Except.ok.inj (hleads.head hread).1
      exact Bool.noConfusion (hsame.symm.trans hdrift)
  | error f =>
    obtain ⟨phase, cause, hfails, -⟩ := hends
    cases hfails with
    | stopped hcalls hlasts hcheck =>
      -- Nothing stops the run, since the context stays open at every time seen.
      cases hopen.checks hcheck fun e he => hseen e (List.mem_append_right _ he)
    | refused hcalls hlasts hcheck raised hcause =>
      simp only [Event.exchanges_append, hcheck.exchanges, Event.exchanges_call, Event.exchanges_nil,
        List.nil_append] at hleads
      exact absurd hleads (hcalls.not_leads hsame hread)

/-- A cycle that reports no change sends one request, and it is a read. The requests
refine the calls one by one, and the only call of such a cycle is its look. -/
theorem exchanges_of_unchanged (hw : w.Valid) {state : Service}
    (hrun : (reconcile (Engine.ofSettings w.settings) (w.assignment ctx)).run.run (c.alone ctx now) store
      = (.ok (.unchanged state), store')) :
    ∃ x, (sending (Engine.ofSettings w.settings) (w.assignment ctx) c).exchanges (Store.alone now) store
        = [x] ∧ x.1.method = .get := by
  have hunfolds := Program.unfolds_run (Store.alone now)
    (sending (Engine.ofSettings w.settings) (w.assignment ctx) c) store
  have hrefined := Program.run_refine (Store.alone now) (c.calling ctx)
    (reconcile (Engine.ofSettings w.settings) (w.assignment ctx)).run store
  rw [show (sending _ (w.assignment ctx) c).run _ store = _ from hrefined.trans hrun] at hunfolds
  -- The requests sent refine the cycle's calls one by one, so one call means one request.
  obtain ⟨h, hcycle, hrefines⟩ := Program.exists_of_unfolds_refine hunfolds
  obtain ⟨hcompletes, -⟩ := unfolds_reconcile (Wanted.desired_eq hw ctx) hcycle
  have hhandled := Client.forall₂_handled hrefines hcompletes.goesOn
  rw [Program.exchanges_events] at hhandled
  generalize Event.exchanges h = es at hcompletes hhandled
  generalize Program.exchanges _ _ store = es' at hhandled ⊢
  cases hcompletes with
  | unchanged current =>
    obtain _ | ⟨hfirst, ⟨⟩⟩ := hhandled
    obtain ⟨t, r, rfl, -⟩ := hfirst.of_read
    exact ⟨_, rfl, rfl⟩

end Cycles

/-! ## Owners that are never found

What names an owner is read as texts. Where a part of it is given as something else, a cycle finds
drift in whatever it reads, so it writes whenever it succeeds. -/

theorem OwnerReference.Textual.of_eqv {r owner : OwnerReference} (hr : r.Textual)
    (heqv : r.eqv owner = true) : owner.Textual := by
  obtain ⟨⟨apiVersion, hapiVersion⟩, ⟨kind, hkind⟩, ⟨name, hname⟩, ⟨uid, huid⟩⟩ := hr
  simp only [eqv, hapiVersion, hkind, hname, huid, Bool.and_eq_true, Value.text_eqv] at heqv
  obtain ⟨⟨⟨⟨⟨hapiVersion, hkind⟩, hname⟩, huid⟩, -⟩, -⟩ := heqv
  exact ⟨⟨_, hapiVersion⟩, ⟨_, hkind⟩, ⟨_, hname⟩, ⟨_, huid⟩⟩

/-- What was read has drifted from a service with such an owner. References that are read
have texts for parts, so none of them can be equal to one that has not. -/
theorem Service.changed_of_read {v : Value} {current desired : Service} {owner : OwnerReference}
    (hread : Service.ofManifest v = .ok current) (howners : desired.owners = [owner])
    (howner : ¬owner.Textual) : (current.compare desired).changed = true := by
  obtain ⟨m, md, sp, rfl, hfrom⟩ := Service.ofManifest_eq_ok_iff.mp hread
  cases hchanged : (current.compare desired).changed with
  | true => rfl
  | false =>
    have hsame := (Service.compare_fields_eq_nil_iff _ _).mp ((Comparison.changed_eq_false_iff _).mp hchanged)
    obtain ⟨r, hcurrent, heqv⟩ := (ownersDrift_eq_false_iff howners).mp hsame.1
    have hr : r ∈ current.owners := by simp [hcurrent]
    exact absurd ((hfrom.regular.owners r hr).of_eqv heqv) howner

section Restless

variable {σ : Type} {world : Surroundings σ Seconds (Request Seconds) Reply} {settings : ServiceSettings}
  {a : Assignment Seconds} {c : Client Seconds} {s s' : σ} {outcome : Outcome}

/-- A cycle for such an owner, wherever it succeeds, has written. It cannot end unchanged,
since what it reads never agrees with what it wants. -/
theorem exists_write_of_run (howner : ¬a.owner.reference.Textual)
    (hrun : (sending (Engine.ofSettings settings) a c).run world s = (.ok outcome, s')) :
    outcome.action ≠ .unchanged
      ∧ ∃ x ∈ (sending (Engine.ofSettings settings) a c).exchanges world s, x.1.method ≠ .get := by
  have hunfolds := Program.unfolds_run world (sending (Engine.ofSettings settings) a c) s
  rw [hrun] at hunfolds
  obtain ⟨h, hcycle, hrefines⟩ := Program.exists_of_unfolds_refine hunfolds
  cases hdesired : (Engine.ofSettings settings).desired a with
  | error f =>
    obtain ⟨-, ⟨⟩⟩ := unfolds_unstarted hdesired (fun _ => false) rfl hcycle
  | ok desired =>
    obtain ⟨hcompletes, -⟩ := unfolds_reconcile hdesired hcycle
    have hhandled := Client.forall₂_handled hrefines hcompletes.goesOn
    rw [Program.exchanges_events] at hhandled
    generalize Event.exchanges h = es at hcompletes hhandled
    generalize Program.exchanges world _ s = es' at hhandled ⊢
    cases hcompletes with
    -- With other owners than the desired ones the comparison finds a change, so this outcome is
    -- impossible.
    | unchanged current hsame =>
      obtain _ | ⟨hlook, -⟩ := hhandled
      obtain ⟨t, r, rfl, hfound⟩ := hlook.of_read
      obtain ⟨fields, -, hread⟩ := Fault.bind_eq_ok.mp hfound
      have hdrift := Service.changed_of_read hread (Engine.owners_desired hdesired) howner
      exact Bool.noConfusion (hsame.symm.trans hdrift)
    | created space name sent state =>
      obtain _ | ⟨-, _ | ⟨hcreate, -⟩⟩ := hhandled
      obtain ⟨body, t, r, rfl, -⟩ := hcreate.of_write rfl
      exact ⟨by simp, _, List.mem_cons_of_mem _ List.mem_cons_self, by simp [Client.request]⟩
    | updated current sent state hdrift =>
      obtain _ | ⟨-, _ | ⟨hupdate, -⟩⟩ := hhandled
      obtain ⟨body, t, r, rfl, -⟩ := hupdate.of_write rfl
      exact ⟨by simp, _, List.mem_cons_of_mem _ List.mem_cons_self, by simp [Client.request]⟩

end Restless

end Keeper
