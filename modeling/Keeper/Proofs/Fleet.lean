import Keeper.Proofs.Idempotence
import Keeper.Proofs.Requests
import Mathlib.Logic.Relation

/-!
# Keeper — many cycles, one store

Cycles for one service are started again and again, and their requests reach one store in any order.
Requests are lost, arrive late, or take effect without their cycle being told.

* **`Fleet.Step`** — what can happen next.
* **`Sent`**, **`sent_of_requested`** — the requests that cycles send as long as what they read is
  credible.
* **`Standing`**, **`Standing.receive`** — what is stored after a number of writes; whatever is sent,
  there is no second one.
* **`Fleet.Sound`**, **`Sound.step`**, **`Sound.steps`** — the invariant and its preservation.
* **`fleet_writes_once`** — at most one write, and no drift from then on.
* **`fleet_writes_more`** — fleets that write again.
-/

namespace Keeper

open Cluster (Store Segment created succeeding storedVersion fieldsAt)
open Http (Request Reply Response)
open Json (Document plainFields?)

/-- Cycles that have one store in common. -/
structure Fleet where
  store : Store
  /-- What is left of each cycle that was started. -/
  cycles : List Sending := []
  /-- The requests that were given up and may still arrive. -/
  late : List (Request Seconds) := []
  /-- The writes that took effect, the last one first. -/
  written : List (Request Seconds) := []

namespace Fleet

/-- A request arrives at the store. -/
def receive (f : Fleet) (r : Request Seconds) : Fleet :=
  { f with
    store := (f.store.respond r).2
    written := if f.store.accepts r then r :: f.written else f.written }

/-- What can happen next. A cycle is started, with a context and a client of its own; a
cycle goes on without a call; a request arrives and is answered; a cycle is told that its
request has failed, or told something that it can make nothing of; and a request of which
that was said arrives after all. Nothing is said of the order. -/
inductive Step (e : Engine) (owner : OwnerIdentity) (space : Value) : Fleet → Fleet → Prop where
  | start (f : Fleet) (context : RequestContext Seconds) (client : Client Seconds) :
    Step e owner space f
      { f with cycles := sending e { context, owner, space } client :: f.cycles }
  | silent (f : Fleet) (before : List Sending) (p p' : Sending) (after : List Sending)
    (h : f.cycles = before ++ p :: after) (hstep : p.Silent p') :
    Step e owner space f { f with cycles := before ++ p' :: after }
  | answered (f : Fleet) (before : List Sending) (r : Request Seconds) (next : Reply → Sending)
    (after : List Sending) (h : f.cycles = before ++ .call r next :: after) :
    Step e owner space f
      { f.receive r with cycles := before ++ next (f.store.reply r).1 :: after }
  | failed (f : Fleet) (before : List Sending) (r : Request Seconds) (next : Reply → Sending)
    (after : List Sending) (h : f.cycles = before ++ .call r next :: after) (reply : Reply)
    (hfails : reply.fields? = none) :
    Step e owner space f
      { f with cycles := before ++ next reply :: after, late := r :: f.late }
  | arrives (f : Fleet) (before : List (Request Seconds)) (r : Request Seconds)
    (after : List (Request Seconds)) (h : f.late = before ++ r :: after) :
    Step e owner space f { f.receive r with late := before ++ after }

/-- What can happen, one thing after the other. -/
abbrev Steps (e : Engine) (owner : OwnerIdentity) (space : Value) : Fleet → Fleet → Prop :=
  Relation.ReflTransGen (Step e owner space)

end Fleet

/-! ## What is sent

`before` is what was stored for the service at first. A cycle reads it, or it reads what holds what
is wanted; in the second case it finds no drift, so all updates are made from the first. -/

/-- The manifest a fleet starts from, if there is one. -/
def Wanted.Begins (w : Wanted) (before : Option Fields) : Prop :=
  ∀ m, before = some m → ∃ md sp s, w.Manages m md sp s ∧ Document (.map m) ∧ w.Unmistakable s

/-- The requests of a fleet. -/
inductive Sent (w : Wanted) (before : Option Fields) : Request Seconds → Prop where
  | read (c : Client Seconds) (timeout : Seconds) :
    Sent w before (c.request .get (Client.servicePath w.space w.name) none timeout)
  | create (c : Client Seconds) (timeout : Seconds) :
    Sent w before
      (c.request .post (Client.collectionPath w.space) (some (w.service.written [] [])) timeout)
  | update (c : Client Seconds) (timeout : Seconds) (m md sp : Fields) (s : Service)
    (hbefore : before = some m) (hmanages : w.Manages m md sp s) :
    Sent w before
      (c.request .put (Client.servicePath w.space w.name)
        (some ((s.compare w.service).patched.written md sp)) timeout)

/-- A reply from which a read takes what was stored at first or what holds what is wanted,
if it takes anything. -/
def Credible (w : Wanted) (before : Option Fields) (reply : Reply) : Prop :=
  ∀ fields, reply.fields? = some fields → before = some fields ∨ w.Holds fields

/-- A reply that tells of a failure holds nothing that could mislead a read. -/
theorem credible_of_fails {reply : Reply} (h : reply.fields? = none) (w : Wanted)
    (before : Option Fields) : Credible w before reply := by
  intro fields hfields
  rw [h] at hfields
  cases hfields

/-- A cycle whose reads were credible sends nothing but what a fleet sends. What a cycle
sends depends on its reads only, so credible reads are all that has to be known of the
cycles. -/
theorem sent_of_requested {w : Wanted} {before : Option Fields} (hbegins : w.Begins before)
    {c : Client Seconds} {es : List (RequestExchange Seconds)}
    (hes : ∀ x ∈ es, x.1.method = .get → Credible w before x.2) {r : Request Seconds}
    (hr : Requested c w.space w.service es r) : Sent w before r := by
  cases hr with
  | read _ timeout => exact .read c timeout
  | create _ timeout body hreads hbody =>
    obtain rfl : w.service.written [] [] = body := Except.ok.inj (w.manifest_service.symm.trans hbody)
    exact .create c timeout
  -- what was read is the first manifest, or it had no drift and nothing would be sent
  | update timeout t reply fields body current hfields hcurrent hdrift hbody =>
    rcases hes _ (List.mem_singleton.mpr rfl) rfl fields hfields with hbefore | ⟨s, hs, hsettled⟩
    · obtain ⟨md, sp, s, hmanages, -, -⟩ := hbegins fields hbefore
      obtain rfl : s = current := Except.ok.inj (hmanages.read.symm.trans hcurrent)
      obtain rfl : (s.compare w.service).patched.written md sp = body :=
        Except.ok.inj ((hmanages.manifest_patched w.service).symm.trans hbody)
      rw [hmanages.service_space, hmanages.service_name]
      exact .update c timeout fields md sp s hbefore hmanages
    · obtain rfl : s = current := Except.ok.inj (hs.symm.trans hcurrent)
      rw [(Comparison.changed_eq_false_iff _).mpr ((w.settled_iff s).mp hsettled)] at hdrift
      cases hdrift

/-! ## What is stored

Nothing has been written and what was stored at first is stored, or there was one write and what is
stored holds what is wanted, in another version than the first. -/

/-- What is stored after a number of writes. What a store was sent with numbers that JSON
cannot write is given to nobody. -/
inductive Standing (w : Wanted) (before : Option Fields) (store : Store) : Nat → Prop where
  | untouched (h : store.find? w.place = before) : Standing w before store 0
  | settled (m : Fields) (version : Text) (hfind : store.find? w.place = some m) (hholds : w.Holds m)
    (hgiven : ∀ m', plainFields? m = some m' → w.Holds m')
    (hcarried : w.Counted → ∃ m', plainFields? m = some m')
    (hversion : storedVersion m = .text version)
    (hother : ∀ m₀, before = some m₀ → storedVersion m₀ ≠ .text version) : Standing w before store 1

section Standing

variable {w : Wanted} {before : Option Fields} {store : Store} {n : Nat}

/-- There is never more than one write. -/
theorem Standing.le_one (h : Standing w before store n) : n ≤ 1 := by
  cases h <;> omega

/-- What a read is replied is credible: it is given of what was there at first, or of what
is settled. -/
theorem Standing.credible (h : Standing w before store n) (hspace : Segment w.space)
    (hname : Segment w.name) (hbegins : w.Begins before) (c : Client Seconds) (timeout : Seconds) :
    Credible w before
      (store.reply (c.request .get (Client.servicePath w.space w.name) none timeout)).1 := by
  intro fields hfields
  obtain ⟨m, hfind, hplain⟩ := Store.plainFields?_of_reply rfl
    (Cluster.target?_servicePath .get nofun c.baseUrl hspace hname) hfields
  cases h with
  | untouched hbefore =>
    obtain ⟨-, -, -, -, hdocument, -⟩ := hbegins m (hbefore.symm.trans hfind)
    -- a document is read as it is stored
    obtain rfl := Option.some.inj (((Json.document_iff_plainFields? m).mp hdocument).symm.trans hplain)
    exact .inl (hbefore.symm.trans hfind)
  | settled m₁ version hfind₁ hholds hgiven =>
    obtain rfl := Option.some.inj (hfind₁.symm.trans hfind)
    exact .inr (hgiven fields hplain)

/-- A create that takes effect is the first write, since nothing is stored. What it stores
is the desired service, so the place is settled from then on. -/
theorem Standing.created (h : Standing w before store n) (hjoined : w.Joined)
    (hfind : store.find? w.place = none) :
    Standing w before (store.insert w.place (created (w.service.written [] []))) (n + 1) := by
  -- A settled service is found at its place, so a creation cannot have been accepted over it.
  cases h with
  | settled m _ h =>
    rw [h] at hfind
    cases hfind
  | untouched h =>
    have hinsert := store.find?_insert (Store.samePlace_text w.space w.name)
      (created (w.service.written [] []))
    refine .settled _ "1" hinsert w.holds_created (fun m' hplain => ?_) (fun hcounted => ?_)
      (Marks.first.storedVersion _) ?_
    · have hcounted := w.settled_service.counted w.regular_service (Json.writable_of_plainFields? hplain)
      obtain ⟨_, hgiven, hholds⟩ := Wanted.given_created hjoined hcounted
      rwa [← Option.some.inj (hplain.symm.trans hgiven)] at hholds
    · obtain ⟨m', hgiven, -⟩ := Wanted.given_created hjoined hcounted
      exact ⟨m', hgiven⟩
    intro m₀ hm₀
    rw [← h, hfind] at hm₀
    cases hm₀

/-- An update that takes effect is the first write, since it comes from the first version.
A later one carries a version that the store has left behind, and is refused. -/
theorem Standing.updated (h : Standing w before store n) (hjoined : w.Joined)
    (hbegins : w.Begins before) {m md sp stored next : Fields} {s : Service}
    (hbefore : before = some m) (hmanages : w.Manages m md sp s)
    (hfind : store.find? w.place = some stored)
    (hversion : (storedVersion ((s.compare w.service).patched.written md sp)).eqv
      (storedVersion stored) = true)
    (hnext : succeeding stored ((s.compare w.service).patched.written md sp) = .ok next) :
    Standing w before (store.insert w.place next) (n + 1) := by
  have hfrom : (storedVersion m).eqv (storedVersion stored) = true :=
    hmanages.storedVersion_patched ▸ hversion
  cases h with
  | settled m' version h _ _ _ hcurrent hother =>
    -- what is stored has another version by now
    obtain rfl : m' = stored := Option.some.inj (h.symm.trans hfind)
    rw [hcurrent, Value.eqv_text] at hfrom
    exact absurd hfrom (hother m hbefore)
  | untouched h =>
    obtain rfl : m = stored := Option.some.inj (hbefore.symm.trans (h.symm.trans hfind))
    -- The store counts on from the version that was there at first, so what it stores now has another
    -- one.
    obtain ⟨version, hcounted, rfl⟩ := Cluster.succeeding_eq_ok hnext
    obtain ⟨hdecimal, hne⟩ := Cluster.nextVersion_ne hmanages.versioned hcounted
    obtain ⟨md', sp', s', hmanages', hdocument, halone⟩ := hbegins m hbefore
    obtain rfl : s = s' := Except.ok.inj (hmanages.read.symm.trans hmanages'.read)
    have hinsert := store.find?_insert (Store.samePlace_text w.space w.name)
      (Cluster.withMetadata ((s.compare w.service).patched.written md sp)
        [("resourceVersion", .text version)])
    refine .settled _ version hinsert (hmanages.holds_patched hdecimal) (fun m' hplain => ?_)
      (fun hcounted => ?_) ((Marks.next version hdecimal).storedVersion _) fun m₀ hm₀ => ?_
    · have hcounted := (w.settled_patched s).counted
        (hmanages.readFrom.regular.patched w.regular_service) (Json.writable_of_plainFields? hplain)
      obtain ⟨_, hgiven, hholds⟩ :=
        hmanages.given_patched hjoined hcounted hdocument halone hdecimal
      rwa [← Option.some.inj (hplain.symm.trans hgiven)] at hholds
    · obtain ⟨m', hgiven, -⟩ := hmanages.given_patched hjoined hcounted hdocument halone hdecimal
      exact ⟨m', hgiven⟩
    obtain rfl : m = m₀ := Option.some.inj (hbefore.symm.trans hm₀)
    exact hne

/-- Whatever a fleet sends, there is no second write. This is the step of the run: one
request arrives, in any order and from whichever cycle, and `Standing` holds with the
number of writes counted on if it was accepted. -/
theorem Standing.receive (h : Standing w before store n) (hspace : Segment w.space)
    (hname : Segment w.name) (hjoined : w.Joined) (hbegins : w.Begins before)
    {r : Request Seconds} (hr : Sent w before r) :
    Standing w before (store.respond r).2 (if store.accepts r then n + 1 else n) := by
  -- What a request does to the store is one of three things, whether it is answered or its reply is
  -- lost.
  have heffect := store.effect_respond r
  generalize store.accepts r = accepted, (store.respond r).2 = store' at heffect ⊢
  cases heffect with
  | none => exact h
  | created space' name' hmethod htarget hkey hfind =>
    cases hr with
    | read c timeout => cases hmethod
    | update c timeout => cases hmethod
    | create c timeout =>
      -- The path of a creation names the namespace and its body the name, so it can only create this
      -- service.
      obtain rfl : w.space = space' := by
        simpa using (Cluster.target?_collectionPath c.baseUrl hspace).symm.trans htarget
      change ((fieldsAt (w.service.written [] []) "metadata").getD _ _).key = _ at hkey
      rw [Fields.getD_of_get? w.name_written] at hkey
      obtain rfl : Scalar.text w.name = name' := Except.ok.inj hkey
      exact h.created hjoined hfind
  | updated space' name' stored next hmethod htarget hfind hversion hnext =>
    cases hr with
    | read c timeout => cases hmethod
    | create c timeout => cases hmethod
    | update c timeout m md sp s hbefore hmanages =>
      -- The path of an update names the service, so it can only replace this one.
      obtain ⟨rfl, rfl⟩ : w.space = space' ∧ w.name = name' := by
        simpa using (Cluster.target?_servicePath .put nofun c.baseUrl hspace hname).symm.trans htarget
      exact h.updated hjoined hbegins hbefore hmanages hfind hversion hnext

end Standing

/-! ## The fleet -/

namespace Fleet

/-- A cycle that will send nothing but what a fleet sends, as long as its reads are
credible. -/
def Bound (w : Wanted) (before : Option Fields) (p : Sending) : Prop :=
  ∃ (c : Client Seconds) (es : List (RequestExchange Seconds)),
    p.Abides (Requested c w.space w.service) (fun _ _ => True) es
      ∧ ∀ x ∈ es, x.1.method = .get → Credible w before x.2

/-- What holds of a fleet whatever happens. -/
structure Sound (w : Wanted) (before : Option Fields) (f : Fleet) : Prop where
  cycles : ∀ p ∈ f.cycles, Bound w before p
  late : ∀ r ∈ f.late, Sent w before r
  standing : Standing w before f.store f.written.length

section Sound

variable {w : Wanted} {before : Option Fields}

/-- A cycle that looks at its context or its clock stays bound to what it may send. -/
theorem Bound.silent {p p' : Sending} (h : Bound w before p) (hstep : p.Silent p') :
    Bound w before p' := by
  obtain ⟨c, es, habides, hes⟩ := h
  exact ⟨c, es, habides.silent hstep, hes⟩

/-- What a bound cycle is about to send is a request of the fleet. -/
theorem Bound.sent (hbegins : w.Begins before) {r : Request Seconds} {next : Reply → Sending}
    (h : Bound w before (.call r next)) : Sent w before r := by
  obtain ⟨c, es, ⟨hr, -⟩, hes⟩ := h
  exact sent_of_requested hbegins hes hr

/-- And it stays bound whatever the reply is, provided that a read was told something
credible. -/
theorem Bound.replied {r : Request Seconds} {next : Reply → Sending}
    (h : Bound w before (.call r next)) {reply : Reply}
    (hreply : r.method = .get → Credible w before reply) : Bound w before (next reply) := by
  obtain ⟨c, es, ⟨-, hnext⟩, hes⟩ := h
  refine ⟨c, es ++ [(r, reply)], hnext reply, fun x hx => ?_⟩
  rcases List.mem_append.mp hx with hx | hx
  · exact hes x hx
  · rw [List.mem_singleton.mp hx]
    exact hreply

theorem bound_sending (hw : w.Valid) (context : RequestContext Seconds) (client : Client Seconds) :
    Bound w before (sending (Engine.ofSettings w.settings) (w.assignment context) client) :=
  ⟨client, [], abides_requests (Wanted.desired_eq hw context) client context, nofun⟩

/-- What is true of the items around one and of what takes its place is true of all. -/
theorem forall_mem_replace {α : Type} {P : α → Prop} {xs before after : List α} {x y : α}
    (h : ∀ z ∈ xs, P z) (hxs : xs = before ++ x :: after) (hy : P y) :
    ∀ z ∈ before ++ y :: after, P z := by
  subst hxs
  intro z hz
  rcases List.mem_append.mp hz with hz | hz
  · exact h z (by simp [hz])
  · rcases List.mem_cons.mp hz with rfl | hz
    · exact hy
    · exact h z (by simp [hz])

/-- The step lemma: each thing that can happen keeps a fleet sound. A request that
arrives, in time or late, is one of the fleet, and the store takes it only if nothing was
written yet; every reply is one that a read may believe. -/
theorem Sound.step (hw : w.Valid) (hspace : Segment w.space) (hname : Segment w.name)
    (hjoined : w.Joined) (hbegins : w.Begins before) {f f' : Fleet} (h : Sound w before f)
    (hstep : Step (Engine.ofSettings w.settings) w.owner w.space f f') : Sound w before f' := by
  have hreceive {r : Request Seconds} (hr : Sent w before r) :
      Standing w before (f.receive r).store (f.receive r).written.length := by
    have hstanding := h.standing.receive hspace hname hjoined hbegins hr
    unfold receive
    cases haccepts : f.store.accepts r <;> simpa [haccepts] using hstanding
  cases hstep with
  | start context client =>
    refine { cycles := fun p hp => ?_, late := h.late, standing := h.standing }
    rcases List.mem_cons.mp hp with rfl | hp
    · exact bound_sending hw context client
    · exact h.cycles p hp
  | silent xs p p' ys hcycles hsilent =>
    have hp : Bound w before p := h.cycles p (by simp [hcycles])
    exact { cycles := forall_mem_replace h.cycles hcycles (hp.silent hsilent)
            late := h.late, standing := h.standing }
  | answered xs r next ys hcycles =>
    have hp : Bound w before (.call r next) := h.cycles _ (by simp [hcycles])
    -- only what a read is replied has to be credible
    have hreply : r.method = .get → Credible w before (f.store.reply r).1 := by
      intro hmethod
      cases hp.sent hbegins with
      | read c timeout => exact h.standing.credible hspace hname hbegins c timeout
      | create c timeout => cases hmethod
      | update c timeout m md sp s hbefore hmanages => cases hmethod
    exact { cycles := forall_mem_replace h.cycles hcycles (hp.replied hreply)
            late := h.late, standing := hreceive (hp.sent hbegins) }
  | failed xs r next ys hcycles reply hfails =>
    have hp : Bound w before (.call r next) := h.cycles _ (by simp [hcycles])
    refine { cycles := forall_mem_replace h.cycles hcycles
               (hp.replied fun _ => credible_of_fails hfails w before)
             late := fun r' hr' => ?_, standing := h.standing }
    rcases List.mem_cons.mp hr' with rfl | hr'
    · exact hp.sent hbegins
    · exact h.late r' hr'
  -- what arrives late was sent by a cycle some time, so it is nothing new
  | arrives xs r ys hlate =>
    have hr : Sent w before r := h.late r (by simp [hlate])
    refine { cycles := h.cycles, late := fun r' hr' => h.late r' ?_, standing := hreceive hr }
    rw [hlate]
    rcases List.mem_append.mp hr' with hr' | hr' <;> simp [hr']

theorem Sound.steps (hw : w.Valid) (hspace : Segment w.space) (hname : Segment w.name)
    (hjoined : w.Joined) (hbegins : w.Begins before) {f f' : Fleet} (h : Sound w before f)
    (hsteps : Steps (Engine.ofSettings w.settings) w.owner w.space f f') : Sound w before f' := by
  induction hsteps with
  | refl => exact h
  | tail _ hstep ih => exact ih.step hw hspace hname hjoined hbegins hstep

end Sound

end Fleet

/-- **Many cycles, one write.** Whatever the cycles of a fleet do, in whatever order their
requests arrive and whatever becomes of the replies, at most one write takes effect.
Before it what was stored at first is stored; from then on what is stored has no drift,
and neither has what is given of it. Something is given if JSON can write the numbers of
the port. The invariant is `Fleet.Sound`: each cycle has read what is credible, each late
request is one that a fleet sends, and the place stands as `Standing` says. -/
theorem fleet_writes_once {w : Wanted} (hw : w.Valid) (hspace : Segment w.space)
    (hname : Segment w.name) (hjoined : w.Joined) {store : Store}
    (hbegins : w.Begins (store.find? w.place)) {f : Fleet}
    (hsteps : Fleet.Steps (Engine.ofSettings w.settings) w.owner w.space { store } f) :
    f.written.length ≤ 1
      ∧ (f.written = [] → f.store.find? w.place = store.find? w.place)
      ∧ (f.written ≠ [] → ∃ desired m stored,
        (Engine.ofSettings w.settings).desired (w.assignment : Assignment Seconds) = .ok desired
          ∧ f.store.find? w.place = some m
          ∧ Service.ofManifest (.map m) = .ok stored ∧ (stored.compare desired).fields = []
          ∧ (∀ m', plainFields? m = some m' → ∃ given, Service.ofManifest (.map m') = .ok given
            ∧ (given.compare desired).fields = [])
          ∧ (w.Counted → ∃ m', plainFields? m = some m')) := by
  -- The invariant at the start: no cycle runs, no request is underway, the place is untouched.
  have hstart : Fleet.Sound w (store.find? w.place) { store } :=
    { cycles := nofun, late := nofun, standing := .untouched rfl }
  have hsound := hstart.steps hw hspace hname hjoined hbegins hsteps
  refine ⟨hsound.standing.le_one, fun hnone => ?_, fun hsome => ?_⟩
  · have hstanding := hsound.standing
    rw [hnone] at hstanding
    cases hstanding with
    | untouched h => exact h
  · have hlength : f.written.length ≠ 0 := fun h => hsome (List.length_eq_zero_iff.mp h)
    -- The number of writes is an index of `Standing`, so it must be a variable before the case split.
    generalize hn : f.written.length = n at hlength
    have hstanding := hsound.standing
    rw [hn] at hstanding
    cases hstanding with
    | untouched h => exact absurd rfl hlength
    | settled m version hfind hholds hgiven hcarried =>
      obtain ⟨stored, hstored, hsettled⟩ := hholds
      refine ⟨w.service, m, stored, w.desired_eq hw {}, hfind, hstored,
        (w.settled_iff stored).mp hsettled, fun m' hplain => ?_, hcarried⟩
      obtain ⟨given, hread, hsettled'⟩ := hgiven m' hplain
      exact ⟨given, hread, (w.settled_iff given).mp hsettled'⟩

/-! ## Cycles that take turns

A fleet can let its cycles have the store to themselves, one after the other. So what a cycle does to
a store by itself is done in a fleet too, and writes that a fleet makes can be counted by what becomes
of the store. -/

namespace Fleet

variable {e : Engine} {owner : OwnerIdentity} {space : Value}

/-- A step either writes nothing, and then the store is as it was, or it writes once more.
The number of writes is thus a clock for the store: two states of a run with the same
number have the same store. -/
theorem Step.written {f f' : Fleet} (h : Step e owner space f f') :
    f'.written.length = f.written.length ∧ f'.store = f.store
      ∨ f.written.length < f'.written.length := by
  -- A request that is not accepted leaves the store; one that is joins the list of writes.
  have hreceive (r : Request Seconds) :
      (f.receive r).written.length = f.written.length ∧ (f.receive r).store = f.store
        ∨ f.written.length < (f.receive r).written.length := by
    unfold receive
    cases haccepts : f.store.accepts r with
    | false => exact .inl ⟨by simp, Store.respond_of_not_accepts haccepts⟩
    | true => exact .inr (by simp)
  cases h with
  | start context client => exact .inl ⟨rfl, rfl⟩
  | silent xs p p' ys hcycles hsilent => exact .inl ⟨rfl, rfl⟩
  | answered xs r next ys hcycles => exact hreceive r
  | failed xs r next ys hcycles reply hfails => exact .inl ⟨rfl, rfl⟩
  | arrives xs r ys hlate => exact hreceive r

/-- A store that has changed has been written. With `fleet_writes_once` this makes one
write of any change. -/
theorem Steps.written {f f' : Fleet} (h : Steps e owner space f f') :
    f.written.length ≤ f'.written.length
      ∧ (f'.store ≠ f.store → f.written.length < f'.written.length) := by
  induction h with
  | refl => exact ⟨Nat.le_refl _, fun h => absurd rfl h⟩
  | tail _ hstep ih =>
    obtain ⟨hle, hlt⟩ := ih
    rcases hstep.written with ⟨hlength, hstore⟩ | hlength
    · rw [hlength, hstore]
      exact ⟨hle, hlt⟩
    · exact ⟨by omega, fun _ => by omega⟩

/-- What is left of a cycle is finished without a disturbance, as it is in a scene.
So runs of a cycle by itself are runs of a fleet, which is how the examples below
are found. -/
theorem steps_run (p : Sending) {before after : List Sending} {f : Fleet}
    {s : Cluster.Scene (Request Seconds) Reply} (hcycles : f.cycles = before ++ p :: after)
    (hstore : f.store = s.store) (hs : s.disturbances = []) :
    ∃ f', Steps e owner space f f' ∧ f'.store = (p.run Cluster.Scene.overHttp s).2.store := by
  -- the program is run in its place among the cycles, one step of the fleet for each of its own
  induction p generalizing f s with
  | done result => exact ⟨f, .refl, hstore⟩
  | cancelled next ih =>
    obtain ⟨f', hsteps, hend⟩ := ih s.cancelled
      (f := { f with cycles := before ++ next s.cancelled :: after }) rfl hstore hs
    exact ⟨f', .head (.silent f before _ _ after hcycles (.cancelled next _)) hsteps, hend⟩
  | now next ih =>
    obtain ⟨f', hsteps, hend⟩ := ih s.clock.read.1
      (f := { f with cycles := before ++ next s.clock.read.1 :: after })
      (s := { s with clock := s.clock.read.2 }) rfl hstore hs
    exact ⟨f', .head (.silent f before _ _ after hcycles (.now next _)) hsteps, hend⟩
  | log entry next ih =>
    obtain ⟨f', hsteps, hend⟩ := ih (f := { f with cycles := before ++ next :: after })
      (s := { s with entries := entry :: s.entries }) rfl hstore hs
    exact ⟨f', .head (.silent f before _ _ after hcycles (.log entry next)) hsteps, hend⟩
  -- The fleet's store and the scene's stay the same: both receive the request now.
  | call r next ih =>
    obtain ⟨f', hsteps, hend⟩ := ih (s.store.reply r).1
      (f := { f.receive r with cycles := before ++ next (s.store.reply r).1 :: after })
      (s := { s with calls := r :: s.calls, store := (s.store.respond r).2 }) rfl
      (by rw [← hstore]; rfl) hs
    have hanswered : Step e owner space f
        { f.receive r with cycles := before ++ next (f.store.reply r).1 :: after } :=
      .answered f before r next after hcycles
    rw [hstore] at hanswered
    refine ⟨f', .head hanswered hsteps, ?_⟩
    rw [Program.run, call_overHttp hs]
    exact hend

/-- A fleet can let a new cycle have the store to itself. -/
theorem steps_cycle (e : Engine) (a : Assignment Seconds) (client : Client Seconds)
    (clock : Cluster.Clock) (f : Fleet) :
    ∃ f', Steps e a.owner a.space f f'
      ∧ f'.store = ((Backend.http client).cycle e a clock f.store).store := by
  have hcycles : sending e a client :: f.cycles = [] ++ sending e a client :: f.cycles := rfl
  obtain ⟨f', hsteps, hstore⟩ := steps_run (f := { f with cycles := sending e a client :: f.cycles })
    (s := { clock, store := f.store }) _ hcycles rfl rfl
  exact ⟨f', .head (.start f a.context client) hsteps, hstore⟩

/-- Where two cycles in a row change what is stored, a fleet makes two writes: one cycle
is run to its end before the next one starts. -/
theorem exists_two_writes {a : Assignment Seconds} {client : Client Seconds} {store : Store}
    (h : (Backend.http client).WritesTwice e a store) :
    ∃ f, Steps e a.owner a.space { store } f ∧ 2 ≤ f.written.length := by
  -- each of the two cycles changes the store, so each adds a write
  obtain ⟨hne, -, hne'⟩ := h
  obtain ⟨f, hfirst, hf⟩ := steps_cycle e a client { time := .whole 0 } { store }
  obtain ⟨f', hsecond, hf'⟩ := steps_cycle e a client { time := .whole 1 } f
  rw [← hf] at hne hne'
  rw [← hf'] at hne'
  have hone : 0 < f.written.length := hfirst.written.2 hne
  have htwo : f.written.length < f'.written.length := hsecond.written.2 hne'
  exact ⟨f', hfirst.trans hsecond, by omega⟩

end Fleet

/-- A fleet that finds a bare manifest makes a write, and then no other. -/
theorem fleet_writes_bare :
    let w := Wanted.sample
    let store : Store := [(w.place, Wanted.bareSample)]
    w.Valid ∧ Segment w.space ∧ Segment w.name ∧ w.Joined ∧ w.Begins (store.find? w.place)
      ∧ ∃ f, Fleet.Steps (Engine.ofSettings w.settings) w.owner w.space { store } f
        ∧ f.written.length = 1 := by
  intro w store
  obtain ⟨hspace, hname⟩ := reaches_sample
  obtain ⟨md, s, hmanages, hannotations⟩ := Wanted.manages_bareSample
  have hfind : store.find? w.place = some Wanted.bareSample := by decide
  have hbegins : w.Begins (store.find? w.place) := by
    intro m hm
    obtain rfl := Option.some.inj (hfind.symm.trans hm)
    exact ⟨md, [], s, hmanages, Wanted.document_bareSample, Wanted.unmistakable_of_none hannotations⟩
  obtain ⟨next, hnext⟩ := Option.isSome_iff_exists.mp
    (show ((Backend.http .sample).rewritten? w.service w.space w.name Wanted.bareSample).isSome = true
      by decide +kernel)
  obtain ⟨-, hne, -⟩ := Backend.cycle_rewrites_ne (Wanted.aims Wanted.valid_sample) reaches_sample hfind
    hmanages.versioned hnext { time := .whole 0 }
  -- A single cycle is a run of the fleet, and it changes the store, so exactly one write was made.
  obtain ⟨f, hsteps, hf⟩ := Fleet.steps_cycle (Engine.ofSettings w.settings) w.assignment .sample
    { time := .whole 0 } { store }
  rw [← hf] at hne
  have hsome : 0 < f.written.length := hsteps.written.2 hne
  have honce := fleet_writes_once Wanted.valid_sample hspace hname Wanted.joined_sample hbegins hsteps
  exact ⟨Wanted.valid_sample, hspace, hname, Wanted.joined_sample, hbegins, f, hsteps, by omega⟩

/-- Settings with a port that is a text. -/
def textPort : ServiceSettings := { Wanted.sample.settings with port := .text "8443" }

/-- A port that is given by a text is stored as an integer, and never agrees with it. -/
theorem textPort_rewritten :
    (∃ desired, (Engine.ofSettings textPort).desired (Wanted.sample.assignment : Assignment Seconds)
        = .ok desired)
      ∧ (Backend.http .sample).WritesTwice (Engine.ofSettings textPort) Wanted.sample.assignment [] := by
  -- The port number stays text in the settings, while the service that is read back has it as a number.
  let desired : Service :=
    { Wanted.sample.service with ports := [{ port := .text "8443", target := .text "8443" }] }
  let b : Backend := .http .sample
  have ha : Aims (Engine.ofSettings textPort) Wanted.sample.assignment desired "ops" "agent" :=
    ⟨rfl, rfl, rfl, rfl, rfl⟩
  have hbody : desired.manifest = .ok (desired.written [] []) := Service.manifest_eq rfl rfl
  obtain ⟨state, hstate⟩ := Option.isSome_iff_exists.mp
    (show ((b.given? (created (desired.written [] []))).bind fun m' =>
      (Service.ofManifest (.map m')).toOption).isSome = true by decide +kernel)
  obtain ⟨m', hgiven, hread⟩ := Option.bind_eq_some_iff.mp hstate
  obtain ⟨next, hnext⟩ := Option.isSome_iff_exists.mp
    (show (b.rewritten? desired "ops" "agent" (created (desired.written [] []))).isSome = true by
      decide +kernel)
  exact ⟨⟨desired, rfl⟩, Backend.writesTwice_of_absent ha reaches_sample rfl hbody (by decide +kernel)
    hgiven (Fault.eq_ok_of_toOption hread) hnext⟩

/-- **More than one write.** Where cycles that go through requests write again and
again, so does a fleet: annotations in pairs, texts with surrogates, and a port that
is no integer. These are the cases that the conditions on names, texts and settings
leave out. -/
theorem fleet_writes_more :
    (let w := { Wanted.sample with certKey := "1" }
      let store : Store := [(w.place, w.bare pairedAnnotations)]
      w.Valid ∧ (Segment w.space ∧ Segment w.name) ∧ (Backend.http .sample).Finds w store
        ∧ ∃ f, Fleet.Steps (Engine.ofSettings w.settings) w.owner w.space { store } f
          ∧ 2 ≤ f.written.length)
    ∧ (let w := { Wanted.sample with labelKey := surrogatePair }
      w.Valid ∧ (Segment w.space ∧ Segment w.name)
        ∧ ∃ f, Fleet.Steps (Engine.ofSettings w.settings) w.owner w.space { store := [] } f
          ∧ 2 ≤ f.written.length)
    ∧ (let w := Wanted.sample
      (∃ desired, (Engine.ofSettings textPort).desired (w.assignment : Assignment Seconds) = .ok desired)
        ∧ ∃ f, Fleet.Steps (Engine.ofSettings textPort) w.owner w.space { store := [] } f
          ∧ 2 ≤ f.written.length) := by
  obtain ⟨hpairs, hreach, hfinds, hpairsTwice⟩ := pairs_rewritten
  obtain ⟨hhalves, hreach', -, hhalvesTwice⟩ := surrogates_rewritten
  obtain ⟨hlinked, htextTwice⟩ := textPort_rewritten
  exact ⟨⟨hpairs, hreach, hfinds, Fleet.exists_two_writes hpairsTwice⟩,
    ⟨hhalves, hreach', Fleet.exists_two_writes hhalvesTwice⟩,
    ⟨hlinked, Fleet.exists_two_writes htextTwice⟩⟩

end Keeper
