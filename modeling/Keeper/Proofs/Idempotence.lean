import Keeper.Proofs.Backend
import Keeper.Proofs.Managed

/-!
# Keeper — one cycle is enough

A cycle that has a store to itself leaves what is wanted in it, and the next one finds nothing to do.
It is so for any manifest that JSON carries without loss; where JSON joins two keys or two halves of a
character, every cycle writes again.

* **`Serves.yields_created`** and the like — a cycle by what is stored.
* **`Backend.Finds`**, **`Backend.Admits`** — the stores in question.
* **`Backend.Rests`**, **`cycle_settles`**, **`cycle_unchanged`** — the first cycle leaves the store at
  rest, and a store at rest is left alone.
* **`cycle_converges`** — both together.
* **`WritesTwice`**, **`cycle_not_enough`** — stores that never come to rest.
-/

namespace Keeper

open Cluster (Store Moment Clock created succeeding storedVersion fieldsAt nextVersion Versioned
  withMetadata)
open Json (Document plainFields?)

namespace Wanted

/-- The place of the managed service in a store. -/
def place (w : Wanted) : Cluster.Place := (.text w.space, .text w.name)

end Wanted

/-! ## What a cycle yields

In surroundings that serve, by what is stored: one lemma for each way to complete. -/

/-- A cycle in a context without an end that can link its desired service, of which the
namespace and the name are texts. -/
structure Aims (e : Engine) (a : Assignment Seconds) (desired : Service) (space name : Text) :
    Prop where
  context : a.context.deadline = .never
  linked : e.desired a = .ok desired
  target : a.space = .text space
  ownSpace : desired.space = .text space
  ownName : desired.name = .text name

/-- What is wanted can be aimed at: its desired service is linked to its owner, and its
place is one of texts. -/
theorem Wanted.aims {w : Wanted} (hw : w.Valid) :
    Aims (Engine.ofSettings w.settings) w.assignment w.service w.space w.name :=
  ⟨rfl, Wanted.desired_eq hw {}, rfl, rfl, rfl⟩

namespace Serves

variable {σ : Type} {world : Surroundings σ Seconds ServiceCall (Except Fault Service)}
  {seen : Store → List Moment → σ → Prop} {given? : Fields → Option Fields} {space name : Text}
  {e : Engine} {a : Assignment Seconds} {desired : Service} {store : Store} {state : σ}

/-- A stored service without drift is read, and nothing is sent. The manifest is given as
the backend gives it, which over HTTP is the one that JSON has carried. -/
theorem yields_unchanged (h : Serves world seen given? space name) (ha : Aims e a desired space name)
    {m m' : Fields} {s : Service} (hfind : store.find? (.text space, .text name) = some m)
    (hgiven : given? m = some m') (hread : Service.ofManifest (.map m') = .ok s)
    (hdrift : (s.compare desired).changed = false) (hstate : seen store [] state) :
    Attempt.Yields world (reconcile e a) state
      (.ok {
        state := s, action := .unchanged
        trace := [.start, .reading, .found, .diffing, .unchanged] }) (seen store [.read]) := by
  have hpresent := h.present hfind hgiven hread
  rw [← ha.target, ← ha.ownName] at hpresent
  exact reconcile_yields h.undisturbed ha.context ha.linked (.unchanged s hdrift)
    (.cons hpresent (.nil store)) hstate

/-- Where there is none, the desired service is created under its own name and read back.
It is the run of `reconcile` in any surroundings that serve, so both backends share it. -/
theorem yields_created (h : Serves world seen given? space name) (ha : Aims e a desired space name)
    {body m' : Fields} {s : Service} (hfind : store.find? (.text space, .text name) = none)
    (hbody : desired.manifest = .ok body)
    (hown : Fields.get? (fieldsAt body "metadata") (.text "name") = some (.text name))
    (hgiven : given? (created body) = some m') (hread : Service.ofManifest (.map m') = .ok s)
    (hstate : seen store [] state) :
    Attempt.Yields world (reconcile e a) state
      (.ok {
        state := s, action := .created
        trace := [.start, .reading, .notFound, .creating, .confirming] })
      (seen (store.insert (.text space, .text name) (created body)) [.read, .create, .read]) := by
  obtain ⟨sent, hcreate⟩ := h.creates hfind ha.ownSpace ha.ownName hbody hown hgiven hread
  have hfind' := store.find?_insert (Store.samePlace_text space name) (created body)
  have habsent := h.absent hfind
  have hpresent := h.present hfind' hgiven hread
  rw [← ha.target, ← ha.ownName] at habsent hpresent
  exact reconcile_yields h.undisturbed ha.context ha.linked (.created _ _ sent s)
    (.cons habsent (.cons hcreate (.cons hpresent (.nil _)))) hstate

/-- A drifted service is updated over the version it was read with, and read back from its
successor. The version is the one in the manifest that was read, and nothing has been
stored since. -/
theorem yields_updated (h : Serves world seen given? space name) (ha : Aims e a desired space name)
    {m m' body next next' : Fields} {s s' : Service}
    (hfind : store.find? (.text space, .text name) = some m) (hgiven : given? m = some m')
    (hread : Service.ofManifest (.map m') = .ok s) (hspace : s.space = .text space)
    (hname : s.name = .text name) (hdrift : (s.compare desired).changed = true)
    (hbody : (s.compare desired).patched.manifest = .ok body)
    (hversion : (storedVersion body).eqv (storedVersion m) = true)
    (hnext : succeeding m body = .ok next) (hgiven' : given? next = some next')
    (hread' : Service.ofManifest (.map next') = .ok s') (hstate : seen store [] state) :
    Attempt.Yields world (reconcile e a) state
      (.ok {
        state := s', action := .updated (s.compare desired).fields
        trace := [.start, .reading, .found, .diffing, .changed, .writing, .confirming] })
      (seen (store.insert (.text space, .text name) next) [.read, .update, .read]) := by
  obtain ⟨sent, hupdate⟩ := h.updates (p := (s.compare desired).patched) hfind hspace hname
    hbody hversion hnext hgiven' hread'
  have hfind' := store.find?_insert (Store.samePlace_text space name) next
  have hpresent := h.present hfind hgiven hread
  have hpresent' := h.present hfind' hgiven' hread'
  rw [← ha.target, ← ha.ownName] at hpresent hpresent'
  exact reconcile_yields h.undisturbed ha.context ha.linked (.updated s sent s' hdrift)
    (.cons hpresent (.cons hupdate (.cons hpresent' (.nil _)))) hstate

end Serves

/-! ## The first cycle

It leaves the store at rest, whether it found nothing, something to bring in line or nothing to do. -/

namespace Backend

def IsHttp (b : Backend) : Prop := ∃ client, b = .http client

theorem not_isHttp_memory : ¬Backend.memory.IsHttp := by
  intro h
  obtain ⟨client, h⟩ := h
  cases h

/-- The managed service is absent from a store, or its manifest is one that can be
managed; what is sent by requests is a document. -/
def Finds (b : Backend) (w : Wanted) (store : Store) : Prop :=
  store.find? w.place = none
    ∨ ∃ m md sp s, store.find? w.place = some m ∧ w.Manages m md sp s
      ∧ (b.IsHttp → Document (.map m))

/-- What a backend needs besides: JSON gives the wanted texts back and can write the
numbers; a version that is to be followed by another is not too long; and the annotations,
should they be given in pairs, have no other key that JSON writes as the wanted one. -/
structure Admits (b : Backend) (w : Wanted) (store : Store) : Prop where
  texts : b.IsHttp → w.Joined
  numbers : b.IsHttp → w.Counted
  next : ∀ m s, store.find? w.place = some m → Service.ofManifest (.map m) = .ok s →
    (s.compare w.service).changed = true → ∃ version, nextVersion m = .ok version
  alone : b.IsHttp → ∀ m s, store.find? w.place = some m → Service.ofManifest (.map m) = .ok s →
    w.Unmistakable s

/-- A stored manifest holds what is wanted, and a cycle is given `state` for it, which is
settled. -/
def Rests (b : Backend) (w : Wanted) (store : Store) (state : Service) : Prop :=
  ∃ m m', store.find? w.place = some m ∧ w.Holds m ∧ b.given? m = some m'
    ∧ Service.ofManifest (.map m') = .ok state ∧ w.Settled state

/-- A stored manifest that holds what is wanted is given as one that does. In the memory
it is the same one, and over HTTP the one that JSON makes of it. -/
theorem exists_given {b : Backend} {w : Wanted} {m : Fields} (hm : w.Holds m)
    (hcarried : b.IsHttp → ∃ m', plainFields? m = some m' ∧ w.Holds m') :
    ∃ m', b.given? m = some m' ∧ w.Holds m' := by
  cases b with
  | memory => exact ⟨m, rfl, hm⟩
  | http client => exact hcarried ⟨client, rfl⟩

theorem given?_of_document {b : Backend} {m : Fields} (h : b.IsHttp → Document (.map m)) :
    b.given? m = some m := by
  cases b with
  | memory => rfl
  | http client => exact (Json.document_iff_plainFields? m).mp (h ⟨client, rfl⟩)

variable {b : Backend} {w : Wanted} {store : Store}

/-- The cycle of an absent service, for both backends: `Serves.yields_created` in the
surroundings of each. -/
theorem cycle_creates {e : Engine} {a : Assignment Seconds} {desired : Service} {space name : Text}
    (ha : Aims e a desired space name) (hreach : b.Reaches space name)
    (hfind : store.find? (.text space, .text name) = none) {body m' : Fields} {state : Service}
    (hbody : desired.manifest = .ok body)
    (hown : Fields.get? (fieldsAt body "metadata") (.text "name") = some (.text name))
    (hgiven : b.given? (created body) = some m') (hread : Service.ofManifest (.map m') = .ok state)
    (clock : Clock) :
    b.cycle e a clock store
      = { result := .ok {
            state, action := .created
            trace := [.start, .reading, .notFound, .creating, .confirming] }
          calls := [.read, .create, .read]
          store := store.insert (.text space, .text name) (created body) } := by
  refine cycle_eq ha.context hreach fun hserves s hs => ?_
  exact hserves.yields_created ha hfind hbody hown hgiven hread hs

/-- The first case of the first cycle: it creates the service and leaves the store at
rest. -/
theorem cycle_absent (hw : w.Valid) (hreach : b.Reaches w.space w.name) (hadmits : b.Admits w store)
    (hfind : store.find? w.place = none) (clock : Clock) :
    ∃ outcome store', b.Rests w store' outcome.state
      ∧ b.cycle (Engine.ofSettings w.settings) w.assignment clock store
        = { result := .ok outcome, calls := [.read, .create, .read], store := store' } := by
  have hholds := w.holds_created
  obtain ⟨m', hgiven, state, hread, hsettled⟩ :=
    exists_given hholds fun hhttp => Wanted.given_created (hadmits.texts hhttp) (hadmits.numbers hhttp)
  have hcycle := cycle_creates (Wanted.aims hw) hreach hfind w.manifest_service w.name_written hgiven
    hread clock
  exact ⟨_, _, ⟨_, m', store.find?_insert (Store.samePlace_text w.space w.name) _, hholds, hgiven, hread,
    hsettled⟩, hcycle⟩

/-- The second case: a drifted service is patched, and its successor holds what is wanted.
The successor differs from what was sent by its version alone, which no comparison looks
at. -/
theorem cycle_drifted (hw : w.Valid) (hreach : b.Reaches w.space w.name) (hadmits : b.Admits w store)
    {m md sp : Fields} {s : Service} (hfind : store.find? w.place = some m)
    (hmanages : w.Manages m md sp s) (hdocument : b.IsHttp → Document (.map m))
    (hdrift : (s.compare w.service).changed = true) (clock : Clock) :
    ∃ outcome store', b.Rests w store' outcome.state
      ∧ b.cycle (Engine.ofSettings w.settings) w.assignment clock store
        = { result := .ok outcome, calls := [.read, .update, .read], store := store' } := by
  -- the store can count on from the version that is written back, which is the one it has
  obtain ⟨version, hnext⟩ := hadmits.next m s hfind hmanages.read hdrift
  obtain ⟨hdecimal, -⟩ := Cluster.nextVersion_ne hmanages.versioned hnext
  have hholds := hmanages.holds_patched hdecimal
  obtain ⟨m', hgiven, state, hread, hsettled⟩ := exists_given hholds fun hhttp =>
    hmanages.given_patched (hadmits.texts hhttp) (hadmits.numbers hhttp) (hdocument hhttp)
      (hadmits.alone hhttp m s hfind hmanages.read) hdecimal
  -- what is given of it next is what the last read of the cycle finds
  refine ⟨{
      state, action := .updated (s.compare w.service).fields
      trace := [.start, .reading, .found, .diffing, .changed, .writing, .confirming] }, _,
    ⟨_, m', store.find?_insert (Store.samePlace_text w.space w.name) _, hholds, hgiven, hread,
      hsettled⟩, ?_⟩
  have hversion : (storedVersion ((s.compare w.service).patched.written md sp)).eqv
      (storedVersion m) = true := by
    rw [hmanages.storedVersion_patched]
    exact hmanages.versioned.eqv_self
  have hsucceeding : succeeding m ((s.compare w.service).patched.written md sp)
      = .ok (withMetadata ((s.compare w.service).patched.written md sp)
        [("resourceVersion", .text version)]) := by
    rw [Cluster.succeeding_eq, hnext]
    rfl
  refine cycle_eq (a := w.assignment) rfl hreach fun hserves s hs => ?_
  exact hserves.yields_updated (Wanted.aims hw) hfind (given?_of_document hdocument) hmanages.read
    hmanages.service_space hmanages.service_name hdrift (hmanages.manifest_patched w.service) hversion
    hsucceeding hgiven hread hs

/-- The third case and the second cycle: a store at rest is read once and left. -/
theorem cycle_unchanged (hw : w.Valid) (hreach : b.Reaches w.space w.name) {state : Service}
    (hrests : b.Rests w store state) (clock : Clock) :
    b.cycle (Engine.ofSettings w.settings) w.assignment clock store
      = { result := .ok {
            state, action := .unchanged
            trace := [.start, .reading, .found, .diffing, .unchanged] }
          calls := [.read], store } := by
  obtain ⟨m, m', hfind, -, hgiven, hread, hsettled⟩ := hrests
  have hdrift := (Comparison.changed_eq_false_iff _).mpr ((w.settled_iff state).mp hsettled)
  refine cycle_eq (a := w.assignment) rfl hreach fun hserves s hs => ?_
  exact hserves.yields_unchanged (Wanted.aims hw) hfind hgiven hread hdrift hs

/-- The first cycle brings the store to rest, by the three cases of what is stored:
nothing, a service that has drifted, and one that has not. -/
theorem cycle_settles (hw : w.Valid) (hreach : b.Reaches w.space w.name) (hfinds : b.Finds w store)
    (hadmits : b.Admits w store) (clock : Clock) :
    ∃ outcome calls store', b.Rests w store' outcome.state
      ∧ b.cycle (Engine.ofSettings w.settings) w.assignment clock store
        = { result := .ok outcome, calls, store := store' } := by
  rcases hfinds with hfind | ⟨m, md, sp, s, hfind, hmanages, hdocument⟩
  · obtain ⟨outcome, store', hrests, hcycle⟩ := cycle_absent hw hreach hadmits hfind clock
    exact ⟨outcome, _, store', hrests, hcycle⟩
  · -- a manifest is there: it has drifted, or the store is at rest already
    cases hdrift : (s.compare w.service).changed with
    | true =>
      obtain ⟨outcome, store', hrests, hcycle⟩ :=
        cycle_drifted hw hreach hadmits hfind hmanages hdocument hdrift clock
      exact ⟨outcome, _, store', hrests, hcycle⟩
    | false =>
      have hsettled := (w.settled_iff s).mpr ((Comparison.changed_eq_false_iff _).mp hdrift)
      have hrests : b.Rests w store s := ⟨m, m, hfind, ⟨s, hmanages.read, hsettled⟩,
        given?_of_document hdocument, hmanages.read, hsettled⟩
      exact ⟨_, _, store, hrests, cycle_unchanged hw hreach hrests clock⟩

end Backend

/-! ## And the second -/

/-- **One cycle is enough.** From a store in which the managed service is absent or can be managed, a
cycle that has it to itself succeeds. Then what is stored has no drift, and neither has what the cycle
ends with. Another cycle reads once, writes nothing, reports no change and ends with the same service.
`Backend.Rests` is what the first cycle brings about (`cycle_settles`) and all that the second one needs
(`cycle_unchanged`). -/
theorem cycle_converges (b : Backend) {w : Wanted} (hw : w.Valid) (hreach : b.Reaches w.space w.name)
    {store : Store} (hfinds : b.Finds w store) (hadmits : b.Admits w store) (clock clock' : Clock) :
    let e := Engine.ofSettings w.settings
    let first := b.cycle e w.assignment clock store
    let second := b.cycle e w.assignment clock' first.store
    ∃ desired outcome m stored again, e.desired (w.assignment : Assignment Seconds) = .ok desired
      ∧ first.result = .ok outcome
      ∧ first.store.find? w.place = some m ∧ Service.ofManifest (.map m) = .ok stored
      ∧ (stored.compare desired).fields = [] ∧ (outcome.state.compare desired).fields = []
      ∧ second = { result := .ok again, calls := [.read], store := first.store }
      ∧ again.action = .unchanged ∧ again.action.fields = [] ∧ again.state = outcome.state := by
  obtain ⟨outcome, calls, store', hrests, hcycle⟩ :=
    Backend.cycle_settles hw hreach hfinds hadmits clock
  -- the second cycle starts from what the first has left, which is at rest
  have hsecond := Backend.cycle_unchanged hw hreach hrests clock'
  obtain ⟨m, m', hfind, ⟨stored, hstored, hsettled⟩, -, -, hsettled'⟩ := hrests
  dsimp only
  rw [hcycle]
  exact ⟨w.service, outcome, m, stored, _, w.desired_eq hw {}, rfl, hfind, hstored,
    (w.settled_iff stored).mp hsettled, (w.settled_iff outcome.state).mp hsettled', hsecond, rfl, rfl,
    rfl⟩

theorem reaches_sample : (Backend.http .sample).Reaches Wanted.sample.space Wanted.sample.name := by
  constructor <;> exact ⟨by decide, by decide⟩

/-- A bare manifest is brought in line by requests, once. -/
theorem cycle_converges_over_http :
    let w := Wanted.sample
    let b := Backend.http .sample
    let store : Store := [(w.place, Wanted.bareSample)]
    let first := b.cycle (Engine.ofSettings w.settings) w.assignment { time := .whole 0 } store
    w.Valid ∧ b.Reaches w.space w.name ∧ b.Finds w store ∧ b.Admits w store
      ∧ ∃ outcome again, first.result = .ok outcome
        ∧ b.cycle (Engine.ofSettings w.settings) w.assignment { time := .whole 1 } first.store
          = { result := .ok again, calls := [.read], store := first.store } := by
  intro w b store first
  obtain ⟨md, s, hmanages, hannotations⟩ := Wanted.manages_bareSample
  have hfind : store.find? w.place = some Wanted.bareSample := by decide
  -- the sample's hypotheses, one by one, before both cycles are run
  have hfinds : b.Finds w store :=
    .inr ⟨_, md, [], s, hfind, hmanages, fun _ => Wanted.document_bareSample⟩
  have hadmits : b.Admits w store := by
    refine {
      texts := fun _ => Wanted.joined_sample
      numbers := fun _ => Wanted.counted_sample
      next := fun m s' hm _ _ => ?_
      alone := fun _ m s' hm hs' => ?_ }
    · obtain rfl := Option.some.inj (hfind.symm.trans hm)
      exact ⟨"8", Fault.eq_ok_of_toOption (by decide +kernel)⟩
    · obtain rfl := Option.some.inj (hfind.symm.trans hm)
      obtain rfl := Except.ok.inj (hmanages.read.symm.trans hs')
      exact Wanted.unmistakable_of_none hannotations
  obtain ⟨-, outcome, -, -, again, -, hfirst, -, -, -, -, hsecond, -⟩ :=
    cycle_converges b Wanted.valid_sample reaches_sample hfinds hadmits { time := .whole 0 }
      { time := .whole 1 }
  exact ⟨Wanted.valid_sample, reaches_sample, hfinds, hadmits, outcome, again, hfirst, hsecond⟩

/-! ## Where one cycle is not enough

What an update makes of a stored manifest can be computed, so whether a manifest is written again can
be decided. -/

namespace Backend

variable {b : Backend} {w : Wanted} {store : Store} {e : Engine} {a : Assignment Seconds}
  {desired : Service} {space name : Text}

/-- What is stored after an update, if a cycle finds drift and its update is accepted and
can be read again. -/
def rewritten? (b : Backend) (desired : Service) (space name : Text) (m : Fields) : Option Fields := do
  let m' ← b.given? m
  let s ← (Service.ofManifest (.map m')).toOption
  let body ← (s.compare desired).patched.manifest.toOption
  let next ← (succeeding m body).toOption
  let next' ← b.given? next
  let _ ← (Service.ofManifest (.map next')).toOption
  if s.space = .text space ∧ s.name = .text name ∧ (s.compare desired).changed = true
      ∧ (storedVersion body).eqv (storedVersion m) = true then some next
  else none

/-- A manifest that is rewritten is so by one update between two reads, and nothing has to
be known of it but what can be computed. -/
theorem cycle_rewrites (ha : Aims e a desired space name) (hreach : b.Reaches space name)
    {m next : Fields} (hfind : store.find? (.text space, .text name) = some m)
    (h : b.rewritten? desired space name m = some next) (clock : Clock) :
    ∃ outcome, b.cycle e a clock store
      = { result := .ok outcome, calls := [.read, .update, .read]
          store := store.insert (.text space, .text name) next } := by
  -- the computation is undone: each step of it is one of the hypotheses of an update
  obtain ⟨m', hgiven, h⟩ := Option.bind_eq_some_iff.mp h
  obtain ⟨s, hread, h⟩ := Option.bind_eq_some_iff.mp h
  obtain ⟨body, hbody, h⟩ := Option.bind_eq_some_iff.mp h
  obtain ⟨next₀, hnext, h⟩ := Option.bind_eq_some_iff.mp h
  obtain ⟨next', hgiven', h⟩ := Option.bind_eq_some_iff.mp h
  obtain ⟨s', hread', h⟩ := Option.bind_eq_some_iff.mp h
  obtain ⟨⟨hspace, hname, hdrift, hversion⟩, h⟩ := Option.ite_none_right_eq_some.mp h
  obtain rfl := Option.some.inj h
  refine ⟨{
    state := s', action := .updated (s.compare desired).fields
    trace := [.start, .reading, .found, .diffing, .changed, .writing, .confirming] }, ?_⟩
  refine cycle_eq ha.context hreach fun hserves state hs => ?_
  exact hserves.yields_updated ha hfind hgiven (Fault.eq_ok_of_toOption hread) hspace hname hdrift
    (Fault.eq_ok_of_toOption hbody) hversion (Fault.eq_ok_of_toOption hnext) hgiven'
    (Fault.eq_ok_of_toOption hread') hs

/-- What is stored by an update is not what was stored, and it can be counted on from. A
new version is enough to differ, also where all else is as it was. -/
theorem rewritten?_ne {m next : Fields} (hversioned : Versioned m)
    (h : b.rewritten? desired space name m = some next) : Versioned next ∧ next ≠ m := by
  obtain ⟨_, -, h⟩ := Option.bind_eq_some_iff.mp h
  obtain ⟨_, -, h⟩ := Option.bind_eq_some_iff.mp h
  obtain ⟨body, -, h⟩ := Option.bind_eq_some_iff.mp h
  obtain ⟨next₀, hnext, h⟩ := Option.bind_eq_some_iff.mp h
  obtain ⟨_, -, h⟩ := Option.bind_eq_some_iff.mp h
  obtain ⟨_, -, h⟩ := Option.bind_eq_some_iff.mp h
  obtain ⟨-, h⟩ := Option.ite_none_right_eq_some.mp h
  obtain rfl := Option.some.inj h
  obtain ⟨version, hversion, rfl⟩ := Cluster.succeeding_eq_ok (Fault.eq_ok_of_toOption hnext)
  obtain ⟨hdecimal, hne⟩ := Cluster.nextVersion_ne hversioned hversion
  have hstored := (Marks.next version hdecimal).storedVersion body
  refine ⟨.inr ⟨version, hstored, hdecimal⟩, fun heq => ?_⟩
  -- another version is another manifest
  rw [heq] at hstored
  exact hne hstored

/-- Each of two cycles in a row changes what is stored, and the second does it by an
update. -/
def WritesTwice (b : Backend) (e : Engine) (a : Assignment Seconds) (store : Store) : Prop :=
  let first := b.cycle e a { time := .whole 0 } store
  let second := b.cycle e a { time := .whole 1 } first.store
  first.store ≠ store ∧ second.calls = [.read, .update, .read] ∧ second.store ≠ first.store

/-- The store is another one afterwards: an update gives a new version, whatever else it
changes. So the number of writes can be told from the stores before and after. -/
theorem cycle_rewrites_ne (ha : Aims e a desired space name) (hreach : b.Reaches space name)
    {m next : Fields} (hfind : store.find? (.text space, .text name) = some m)
    (hversioned : Versioned m) (hnext : b.rewritten? desired space name m = some next)
    (clock : Clock) :
    (b.cycle e a clock store).calls = [.read, .update, .read]
      ∧ (b.cycle e a clock store).store ≠ store
      ∧ (b.cycle e a clock store).store.find? (.text space, .text name) = some next := by
  obtain ⟨outcome, hcycle⟩ := cycle_rewrites ha hreach hfind hnext clock
  have hfind' := store.find?_insert (Store.samePlace_text space name) next
  rw [hcycle]
  refine ⟨rfl, fun heq => ?_, hfind'⟩
  rw [show store.insert (.text space, .text name) next = store from heq, hfind] at hfind'
  exact (rewritten?_ne hversioned hnext).2 (Option.some.inj hfind').symm

/-- Two rewritings in a row make for two cycles that write. -/
theorem writesTwice_of_stored (ha : Aims e a desired space name) (hreach : b.Reaches space name)
    {m next last : Fields} (hfind : store.find? (.text space, .text name) = some m)
    (hversioned : Versioned m) (hnext : b.rewritten? desired space name m = some next)
    (hlast : b.rewritten? desired space name next = some last) : b.WritesTwice e a store := by
  -- the first cycle leaves a manifest that is written again by the second
  obtain ⟨-, hne, hfind'⟩ := cycle_rewrites_ne ha hreach hfind hversioned hnext { time := .whole 0 }
  have hversioned' := (rewritten?_ne hversioned hnext).1
  obtain ⟨hcalls, hne', -⟩ :=
    cycle_rewrites_ne ha hreach hfind' hversioned' hlast { time := .whole 1 }
  exact ⟨hne, hcalls, hne'⟩

/-- So do a creation and a rewriting of what was created. -/
theorem writesTwice_of_absent (ha : Aims e a desired space name) (hreach : b.Reaches space name)
    {body m' next : Fields} {state : Service}
    (hfind : store.find? (.text space, .text name) = none) (hbody : desired.manifest = .ok body)
    (hown : Fields.get? (fieldsAt body "metadata") (.text "name") = some (.text name))
    (hgiven : b.given? (created body) = some m') (hread : Service.ofManifest (.map m') = .ok state)
    (hnext : b.rewritten? desired space name (created body) = some next) :
    b.WritesTwice e a store := by
  have hcycle := cycle_creates ha hreach hfind hbody hown hgiven hread { time := .whole 0 }
  have hfind' := store.find?_insert (Store.samePlace_text space name) (created body)
  -- what is created has the first version, which can be counted on from
  have hversioned : Versioned (created body) :=
    .inr ⟨"1", Marks.first.storedVersion body, ['1'], rfl, by decide,
      List.forall_mem_singleton.mpr (by decide)⟩
  obtain ⟨hcalls, hne, -⟩ := cycle_rewrites_ne ha hreach hfind' hversioned hnext { time := .whole 1 }
  unfold WritesTwice
  rw [hcycle]
  refine ⟨fun heq => ?_, hcalls, hne⟩
  rw [show store.insert (.text space, .text name) (created body) = store from heq, hfind] at hfind'
  cases hfind'

/-- A store that can count no further refuses the update of a cycle, and the cycle reports
the phase of the update. -/
theorem memory_cycle_refused (hw : w.Valid) {m md sp : Fields} {s : Service}
    (hfind : store.find? w.place = some m) (hmanages : w.Manages m md sp s)
    (hdrift : (s.compare w.service).changed = true) {f : Fault} (hnext : nextVersion m = .error f)
    (clock : Clock) :
    Backend.memory.cycle (Engine.ofSettings w.settings) w.assignment clock store
      = { result := .error (f.during .writing (w.space ++ "/" ++ w.name))
          calls := [.read, .update], store } := by
  have hread := (serves_direct w.space w.name).present hfind rfl hmanages.read
  have hupdate : store.answer (.update (s.compare w.service).patched) = (.error f, store) := by
    have hspace : (s.compare w.service).patched.space = .text w.space := hmanages.service_space
    have hname : (s.compare w.service).patched.name = .text w.name := hmanages.service_name
    -- the store refuses as soon as it has to count
    have hrefused : store.update (s.compare w.service).patched = .error f := by
      have hfind' : store.find? (.text w.space, .text w.name) = some m := hfind
      simp only [Store.update, hspace, hname, Value.key, hfind', hmanages.manifest_patched,
        Cluster.succeeding_eq, hnext, bind, Except.bind, Except.map]
    show store.written _ (store.update _) = _
    rw [hrefused]
    rfl
  refine memory_cycle_eq fun state hs => ?_
  exact reconcile_yields_refused (serves_direct w.space w.name).undisturbed rfl
    (Wanted.desired_eq hw {}) hdrift hread (answers_direct hupdate) hs

end Backend

/-- Annotations in pairs, of which JSON writes two with the same key. -/
def pairedAnnotations : Fields :=
  [(.text "annotations", .list [.list [.text "1", .text "agent"], .list [.int 1, .text "a"]])]

/-- The decimal version that is followed by none. -/
def lastVersion : Text := .ofChars (List.replicate integerDigitLimit '9')

/-- The last version is a number in its digits, so it is the one that no other can
follow. -/
theorem decimal_lastVersion : lastVersion.Decimal := by
  refine ⟨_, rfl, ?_, fun d hd => ?_⟩
  · rw [ne_eq, List.replicate_eq_nil_iff]
    decide
  · rw [List.eq_of_mem_replicate hd]
    decide

/-- A text of two surrogates, which JSON makes a character of. -/
def surrogatePair : Text := ⟨[.surrogate 0x3d, .surrogate 0x600]⟩

/-- In pairs, the wanted annotation and another one are joined by JSON, so that the second
cycle finds drift as the first one has. -/
theorem pairs_rewritten :
    let w := { Wanted.sample with certKey := "1" }
    let b := Backend.http .sample
    let store : Store := [(w.place, w.bare pairedAnnotations)]
    w.Valid ∧ b.Reaches w.space w.name ∧ b.Finds w store
      ∧ b.WritesTwice (Engine.ofSettings w.settings) w.assignment store := by
  intro w b store
  have hw : w.Valid := by constructor <;> decide
  have hfind : store.find? w.place = some (w.bare pairedAnnotations) := by decide
  have hversioned : Versioned (w.bare pairedAnnotations) := .inl (by decide)
  have hfinds : b.Finds w store := by
    obtain ⟨s, hread⟩ : ∃ s, Service.ofManifest (.map (w.bare pairedAnnotations)) = .ok s := ⟨_, rfl⟩
    exact .inr ⟨_, _, [], s, hfind, w.manages_bare (by decide) hread hversioned,
      fun _ => by decide +kernel⟩
  -- two rewritings in a row are computed at once, so that the manifest in between need not be written
  -- out
  obtain ⟨last, hboth⟩ := Option.isSome_iff_exists.mp
    (show ((b.rewritten? w.service w.space w.name (w.bare pairedAnnotations)).bind
      (b.rewritten? w.service w.space w.name)).isSome = true by decide +kernel)
  obtain ⟨next, hnext, hlast⟩ := Option.bind_eq_some_iff.mp hboth
  exact ⟨hw, reaches_sample, hfinds,
    Backend.writesTwice_of_stored (Wanted.aims hw) reaches_sample hfind hversioned hnext hlast⟩

/-- A pair of surrogates in the label comes back as the character it stands for, so the
label is never the wanted one. -/
theorem surrogates_rewritten :
    let w := { Wanted.sample with labelKey := surrogatePair }
    let b := Backend.http .sample
    w.Valid ∧ b.Reaches w.space w.name ∧ b.Finds w []
      ∧ b.WritesTwice (Engine.ofSettings w.settings) w.assignment [] := by
  intro w b
  have hw : w.Valid := by constructor <;> decide
  -- the service is created first, and what is created is rewritten by the next cycle
  obtain ⟨state, hstate⟩ := Option.isSome_iff_exists.mp
    (show ((b.given? (created (w.service.written [] []))).bind fun m' =>
      (Service.ofManifest (.map m')).toOption).isSome = true by decide +kernel)
  obtain ⟨m', hgiven, hread⟩ := Option.bind_eq_some_iff.mp hstate
  obtain ⟨next, hnext⟩ := Option.isSome_iff_exists.mp
    (show (b.rewritten? w.service w.space w.name (created (w.service.written [] []))).isSome = true by
      decide +kernel)
  have habsent : Store.find? [] w.place = none := rfl
  exact ⟨hw, reaches_sample, .inl habsent,
    Backend.writesTwice_of_absent (Wanted.aims hw) reaches_sample habsent w.manifest_service
      w.name_written hgiven (Fault.eq_ok_of_toOption hread) hnext⟩

/-- The update that the second case needs has no version to be stored with. -/
theorem version_refused {t : Text} (ht : t.Decimal) {f : Fault}
    (hnext : nextVersion (Wanted.sample.bare [(.text "resourceVersion", .text t)]) = .error f) :
    let w := Wanted.sample
    let store : Store := [(w.place, w.bare [(.text "resourceVersion", .text t)])]
    w.Valid ∧ Backend.memory.Finds w store
      ∧ ∃ f, (Backend.memory.cycle (Engine.ofSettings w.settings) w.assignment { time := .whole 0 }
        store).result = .error f := by
  intro w store
  have hfind : store.find? w.place = some (w.bare [(.text "resourceVersion", .text t)]) := rfl
  have hread := w.ofManifest_bare ht.ne_empty
  -- the stored manifest is one that can be managed, but for its version
  have hmanages := w.manages_bare (by simp [Wanted.bareMetadata, Fields.Distinct]) hread
    (.inr ⟨t, rfl, ht⟩)
  have hfirst := Backend.memory_cycle_refused Wanted.valid_sample hfind hmanages rfl hnext
    { time := .whole 0 }
  exact ⟨Wanted.valid_sample, .inr ⟨_, _, [], _, hfind, hmanages,
    fun h => absurd h Backend.not_isHttp_memory⟩, _, congrArg Turn.result hfirst⟩

/-- A port of one digit too many is nothing that JSON could write, so the cycle that
creates the service is given no response to read. -/
theorem port_refused :
    let w := { Wanted.sample with port := .ofNat (Nat.pow 10 integerDigitLimit) }
    let b := Backend.http .sample
    w.Valid ∧ b.Reaches w.space w.name ∧ b.Finds w []
      ∧ ∃ f, (b.cycle (Engine.ofSettings w.settings) w.assignment { time := .whole 0 } []).result
        = .error f := by
  intro w b
  have hw : w.Valid := by constructor <;> decide
  -- the whole cycle is computed, as it ends at the first request that cannot be written
  have hnone : (b.cycle (Engine.ofSettings w.settings) w.assignment { time := .whole 0 }
      []).result.toOption = none := by decide +kernel
  refine ⟨hw, reaches_sample, .inl rfl, ?_⟩
  cases hresult : (b.cycle (Engine.ofSettings w.settings) w.assignment { time := .whole 0 } []).result with
  | error f => exact ⟨f, rfl⟩
  | ok outcome =>
    rw [hresult] at hnone
    cases hnone

/-- **One cycle is not always enough.** Annotations in pairs and texts with surrogates are
written again by every cycle that goes through requests; the longest version cannot be
followed at all, and a port that is longer than that cannot be sent. -/
theorem cycle_not_enough :
    (let w := { Wanted.sample with certKey := "1" }
      let store : Store := [(w.place, w.bare pairedAnnotations)]
      w.Valid ∧ (Backend.http .sample).Reaches w.space w.name ∧ (Backend.http .sample).Finds w store
        ∧ (Backend.http .sample).WritesTwice (Engine.ofSettings w.settings) w.assignment store)
    ∧ (let w := { Wanted.sample with labelKey := surrogatePair }
      w.Valid ∧ (Backend.http .sample).Reaches w.space w.name ∧ (Backend.http .sample).Finds w []
        ∧ (Backend.http .sample).WritesTwice (Engine.ofSettings w.settings) w.assignment [])
    ∧ (let w := Wanted.sample
      let store : Store := [(w.place, w.bare [(.text "resourceVersion", .text lastVersion)])]
      w.Valid ∧ Backend.memory.Finds w store
        ∧ ∃ f, (Backend.memory.cycle (Engine.ofSettings w.settings) w.assignment { time := .whole 0 }
          store).result = .error f)
    ∧ (let w := { Wanted.sample with port := .ofNat (Nat.pow 10 integerDigitLimit) }
      w.Valid ∧ (Backend.http .sample).Reaches w.space w.name ∧ (Backend.http .sample).Finds w []
        ∧ ∃ f, ((Backend.http .sample).cycle (Engine.ofSettings w.settings) w.assignment
          { time := .whole 0 } []).result = .error f) :=
  ⟨pairs_rewritten, surrogates_rewritten,
    version_refused decimal_lastVersion (Cluster.nextVersion_nines rfl rfl), port_refused⟩

end Keeper
