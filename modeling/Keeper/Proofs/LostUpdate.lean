import Keeper.Proofs.Backend
import Keeper.Proofs.Endpoint
import Keeper.Proofs.Managed
import Keeper.Proofs.Requests
import Mathlib.Logic.Relation

/-!
# Keeper — no lost update

A cycle works on a service that others create, edit and delete meanwhile. It reads the service and
writes what it made of it, and the store takes an update only over the version it was made from.

* **`Takes`** — what a store that counts versions does with a write it takes.
* **`Contest.Step`** — what the cycle and the others can do, in any order.
* **`Contest.Known`** — what a manifest that was read says about the one that is stored.
* **`Contest.Fair`** — the invariant, and **`Fair.step`**, **`Fair.steps`** its preservation.
* **`contest_loses_no_update`** — an update is taken over what was read, and over nothing else.
-/

namespace Keeper

open Cluster (Store Segment fieldsAt storedVersion target? withMetadata)
open Http (Request Reply Response)
open Json (Document)

/-! ## A store that counts versions -/

namespace Cluster

/-- A write is taken: a service is created where there is none, or updated over the
version that the update was made from. What the new version is, is up to the store. -/
inductive Takes {τ : Type} (store : Store) (r : Request τ) : Store → Prop where
  | create (space : Text) (name : Scalar) (entries : List (Scalar × Value)) (hmethod : r.method = .post)
    (htarget : target? .post r.url = some ⟨space, none⟩)
    (hname : ((fieldsAt (r.body.getD []) "metadata").getD "name" .null).key = .ok name)
    (hfind : store.find? (.text space, name) = none) :
    Takes store r (store.insert (.text space, name) (withMetadata (r.body.getD []) entries))
  | update (space name : Text) (stored : Fields) (version : Text) (hmethod : r.method = .put)
    (htarget : target? .put r.url = some ⟨space, some name⟩)
    (hfind : store.find? (.text space, .text name) = some stored)
    (hversion : (storedVersion (r.body.getD [])).eqv (storedVersion stored) = true) :
    Takes store r (store.insert (.text space, .text name)
      (withMetadata (r.body.getD []) [("resourceVersion", .text version)]))

variable {τ : Type} {store store' : Store} {r : Request τ}

/-- The store of a cluster is such a store. -/
theorem takes_respond (h : store.accepts r = true) : Takes store r (store.respond r).2 := by
  have heffect := store.effect_respond r
  generalize (store.respond r).2 = store' at heffect ⊢
  rw [h] at heffect
  cases heffect with
  | created space name hmethod htarget hname hfind =>
    exact .create space name _ hmethod htarget hname hfind
  | updated space name stored next hmethod htarget hfind hversion hnext =>
    obtain ⟨version, -, rfl⟩ := succeeding_eq_ok hnext
    exact .update space name stored version hmethod htarget hfind hversion

/-- Only writes are taken. -/
theorem Takes.method_ne_get (h : Takes store r store') : r.method ≠ .get := by
  cases h with
  | create space name entries hmethod => simp [hmethod]
  | update space name stored version hmethod => simp [hmethod]

end Cluster

open Cluster (Takes)

/-- A cycle and the service it works on, which others work on too. -/
structure Contest where
  store : Store
  /-- The versions that have been in use, but for those of the cycle. -/
  used : List Text
  /-- What is left of the cycle. -/
  cycle : Sending
  /-- What the cycle has sent, and the replies it has had. -/
  exchanges : List (RequestExchange Seconds) := []
  /-- The writes of the cycle that it has had a reply to but that may still be taken. -/
  late : List (Request Seconds) := []
  /-- The writes of the cycle that were taken, the last one first. -/
  written : List (Request Seconds) := []
  /-- Whether others have changed the service since the cycle read it first. -/
  touched : Bool := false

namespace Contest

/-- What the store of a contest becomes when others change it. -/
def change (c : Contest) (store : Store) (versions : List Text) : Contest :=
  { c with store, used := versions ++ c.used, touched := !c.exchanges.isEmpty }

/-- What can happen next. The cycle goes on without a call; it reads what is stored, or a
read fails; a write of it is taken, whatever the reply, or is not taken, and then it may
still be taken later; and others store the service in a version that was never in use, or
delete it. -/
inductive Step (space name : Text) : Contest → Contest → Prop where
  | silent (c : Contest) (p : Sending) (h : c.cycle.Silent p) : Step space name c { c with cycle := p }
  | read (c : Contest) (r : Request Seconds) (next : Reply → Sending) (h : c.cycle = .call r next)
    (hmethod : r.method = .get) :
    Step space name c
      { c with
        cycle := next (c.store.reply r).1
        exchanges := c.exchanges ++ [(r, (c.store.reply r).1)] }
  | failed (c : Contest) (r : Request Seconds) (next : Reply → Sending) (reply : Reply)
    (h : c.cycle = .call r next) (hmethod : r.method = .get) (hfails : reply.fields? = none) :
    Step space name c { c with cycle := next reply, exchanges := c.exchanges ++ [(r, reply)] }
  | taken (c : Contest) (r : Request Seconds) (next : Reply → Sending) (reply : Reply) (store : Store)
    (h : c.cycle = .call r next) (htakes : Takes c.store r store) :
    Step space name c
      { c with
        store
        cycle := next reply
        exchanges := c.exchanges ++ [(r, reply)]
        written := r :: c.written }
  | untaken (c : Contest) (r : Request Seconds) (next : Reply → Sending) (reply : Reply)
    (h : c.cycle = .call r next) (hmethod : r.method ≠ .get) :
    Step space name c
      { c with
        cycle := next reply
        exchanges := c.exchanges ++ [(r, reply)]
        late := r :: c.late }
  | arrives (c : Contest) (before : List (Request Seconds)) (r : Request Seconds)
    (after : List (Request Seconds)) (store : Store) (h : c.late = before ++ r :: after)
    (htakes : Takes c.store r store) :
    Step space name c { c with store, late := before ++ after, written := r :: c.written }
  | edited (c : Contest) (m : Fields) (version : Text) (hm : Document (.map m))
    (hversion : storedVersion m = .text version) (hne : version ≠ "") (hnew : version ∉ c.used) :
    Step space name c (c.change (c.store.insert (.text space, .text name) m) [version])
  | deleted (c : Contest) :
    Step space name c (c.change (c.store.erase (.text space, .text name)) [])

/-- What can happen, one thing after the other. -/
abbrev Steps (space name : Text) : Contest → Contest → Prop :=
  Relation.ReflTransGen (Step space name)

/-- A write that may be taken next. -/
def Underway (c : Contest) (r : Request Seconds) : Prop :=
  (∃ next, c.cycle = .call r next) ∨ r ∈ c.late

end Contest

/-! ## One write

A cycle writes at most once, so until a write was taken nothing but others has changed the store. -/

/-- A write is only asked for while everything before it was a read. Over HTTP this is
told by the methods alone, which is what a store can see. -/
theorem Requested.reads {τ : Type} {client : Client τ} {space : Value} {desired : Service}
    {es : List (RequestExchange τ)} {r : Request τ} (h : Requested client space desired es r)
    (hwrite : r.method ≠ .get) : ∀ x ∈ es, x.1.method = .get := by
  cases h with
  | read _ timeout => exact absurd rfl hwrite
  | create _ timeout body hreads hbody => exact hreads
  | update timeout t r fields body current hfields hcurrent hdrift hbody => simp [Client.request]

/-- A read is always of the one place that the cycle works on. -/
theorem Requested.url_of_get {τ : Type} {client : Client τ} {space : Value} {desired : Service}
    {es : List (RequestExchange τ)} {r : Request τ} (h : Requested client space desired es r)
    (hread : r.method = .get) :
    r.url = client.baseUrl ++ "/" ++ Client.servicePath space desired.name := by
  cases h with
  | read _ timeout => rfl
  | create _ timeout body hreads hbody => cases hread
  | update timeout t r fields body current hfields hcurrent hdrift hbody => cases hread

namespace Contest

/-- How far a cycle has come with its write: it has only read, its write may still be
taken, or it was taken. -/
inductive Progress (client : Client Seconds) (space : Value) (desired : Service) :
    List (RequestExchange Seconds) → List (Request Seconds) → List (Request Seconds) → Prop where
  | reading (es : List (RequestExchange Seconds)) (hreads : ∀ x ∈ es, x.1.method = .get) :
    Progress client space desired es [] []
  | waiting (es more : List (RequestExchange Seconds)) (r : Request Seconds) (reply : Reply)
    (hr : Requested client space desired es r) (hwrite : r.method ≠ .get) :
    Progress client space desired (es ++ (r, reply) :: more) [r] []
  | taken (es more : List (RequestExchange Seconds)) (r : Request Seconds) (reply : Reply)
    (hwrite : r.method ≠ .get) : Progress client space desired (es ++ (r, reply) :: more) [] [r]

namespace Progress

variable {client : Client Seconds} {space : Value} {desired : Service}
  {es : List (RequestExchange Seconds)} {late written : List (Request Seconds)}

/-- A read leaves the progress of the write as it is: nothing was written, or what was
written is underway or taken as before. -/
theorem read (h : Progress client space desired es late written) {r : Request Seconds}
    (hmethod : r.method = .get) (reply : Reply) :
    Progress client space desired (es ++ [(r, reply)]) late written := by
  cases h with
  | reading es hreads =>
    refine .reading _ fun x hx => ?_
    rcases List.mem_append.mp hx with hx | hx
    · exact hreads x hx
    · rw [List.mem_singleton.mp hx]
      exact hmethod
  | waiting es more r' reply' hr hwrite => simpa using .waiting es (more ++ [(r, reply)]) r' reply' hr hwrite
  | taken es more r' reply' hwrite => simpa using .taken es (more ++ [(r, reply)]) r' reply' hwrite

/-- What has only read has written nothing. -/
theorem of_reads (h : Progress client space desired es late written)
    (hreads : ∀ x ∈ es, x.1.method = .get) : late = [] ∧ written = [] := by
  cases h with
  | reading => exact ⟨rfl, rfl⟩
  | waiting es more r reply hr hwrite => exact absurd (hreads (r, reply) (by simp)) hwrite
  | taken es more r reply hwrite => exact absurd (hreads (r, reply) (by simp)) hwrite

/-- What is late is the write, and it was not taken. A cycle that waits for a reply has
sent one request that may still arrive, and what others do meanwhile decides whether it is
accepted. -/
theorem of_late (h : Progress client space desired es late written) {before after : List (Request Seconds)}
    {r : Request Seconds} (hlate : late = before ++ r :: after) :
    before ++ after = [] ∧ written = [] ∧ r.method ≠ .get
      ∧ ∃ es' reply more, es = es' ++ (r, reply) :: more ∧ Requested client space desired es' r := by
  cases h with
  | reading es hreads => simp at hlate
  | waiting es' more r' reply hr hwrite =>
    obtain ⟨rfl, hafter⟩ : before = [] ∧ r :: after = [r'] := by
      simpa using List.append_eq_singleton_iff.mp hlate.symm
    obtain ⟨rfl, rfl⟩ := List.cons.inj hafter
    exact ⟨rfl, rfl, hwrite, es', reply, more, rfl, hr⟩
  | taken es more r' reply hwrite => simp at hlate

end Progress

/-! ## What is known of the store

While only others have changed the store, a version says which manifest it is the version of: what is
stored in the version that was read is what was read. -/

/-- What is known from a manifest that was read. -/
structure Known (place : Cluster.Place) (store : Store) (used : List Text) (touched : Bool)
    (m : Fields) : Prop where
  document : Document (.map m)
  recorded : ∀ t, storedVersion m = .text t → t ∈ used
  alone : ∀ t m', storedVersion m = .text t → store.find? place = some m' →
    storedVersion m' = .text t → m' = m ∧ touched = false

/-- What holds of a store that only others have changed, and of what was read from it
first. -/
structure Honest (place : Cluster.Place) (store : Store) (used : List Text) (touched : Bool)
    (es : List (RequestExchange Seconds)) : Prop where
  document : ∀ m, store.find? place = some m → Document (.map m)
  recorded : ∀ m t, store.find? place = some m → storedVersion m = .text t → t ∈ used
  start : es = [] → touched = false
  read : ∀ r reply m, es.head? = some (r, reply) → r.method = .get → reply.fields? = some m →
    Known place store used touched m

section Honest

variable {place : Cluster.Place} {store : Store} {used : List Text} {touched touched' : Bool}
  {es : List (RequestExchange Seconds)} {m m' : Fields} {version : Text}

/-- What is known of a manifest that was read stays true when others store a new
version: no version is used twice, so the version that was read cannot be that of
the new manifest. -/
theorem Known.edited (h : Known place store used touched m)
    (hplace : Store.samePlace place place = true) (hversion : storedVersion m' = .text version)
    (hnew : version ∉ used) :
    Known place (store.insert place m') (version :: used) touched' m where
  document := h.document
  recorded := fun t ht => List.mem_cons_of_mem _ (h.recorded t ht)
  alone := fun t m'' ht hfind ht' => by
    rw [store.find?_insert hplace] at hfind
    obtain rfl := Option.some.inj hfind
    -- what is stored now has a version that was never in use
    obtain rfl : version = t := by simpa using hversion.symm.trans ht'
    exact absurd (h.recorded version ht) hnew

/-- It stays true when others delete the service, as it speaks only of what is stored. -/
theorem Known.deleted (h : Known place store used touched m) :
    Known place (store.erase place) used touched' m where
  document := h.document
  recorded := h.recorded
  alone := fun t m'' ht hfind ht' => by
    rw [store.find?_erase place] at hfind
    cases hfind

/-- The store stays honest when others edit. From the first exchange on, the edit counts
as a touch, so a cycle that has read before cannot take what is stored for what it has
read. -/
theorem Honest.edited (h : Honest place store used touched es)
    (hplace : Store.samePlace place place = true) (hm : Document (.map m'))
    (hversion : storedVersion m' = .text version) (hnew : version ∉ used) :
    Honest place (store.insert place m') (version :: used) (!es.isEmpty) es where
  document := fun m hfind => by
    rw [store.find?_insert hplace] at hfind
    exact Option.some.inj hfind ▸ hm
  -- The edit's version joins the ones used, so it is the one that is recorded now.
  recorded := fun m t hfind ht => by
    rw [store.find?_insert hplace] at hfind
    obtain rfl := Option.some.inj hfind
    obtain rfl : version = t := by simpa using hversion.symm.trans ht
    exact List.mem_cons_self
  start := fun hes => by simp [hes]
  read := fun r reply m hhead hmethod hfields =>
    (h.read r reply m hhead hmethod hfields).edited hplace hversion hnew

/-- The same of a deletion. -/
theorem Honest.deleted (h : Honest place store used touched es) :
    Honest place (store.erase place) used (!es.isEmpty) es where
  document := fun m hfind => by
    rw [store.find?_erase place] at hfind
    cases hfind
  recorded := fun m t hfind => by
    rw [store.find?_erase place] at hfind
    cases hfind
  start := fun hes => by simp [hes]
  read := fun r reply m hhead hmethod hfields => (h.read r reply m hhead hmethod hfields).deleted

/-- A reply from which what is stored was read, if anything was. From this moment on the
version that was read is on record, and any later edit by others gives another one. -/
theorem Honest.replied (h : Honest place store used touched es) {r : Request Seconds} {reply : Reply}
    (hreply : ∀ m, r.method = .get → reply.fields? = some m → store.find? place = some m) :
    Honest place store used touched (es ++ [(r, reply)]) where
  document := h.document
  recorded := h.recorded
  start := by simp
  read := fun r' reply' m hhead hmethod hfields => by
    -- Only the first exchange is the read; a later reply says nothing about it.
    cases es with
    | cons e es => exact h.read r' reply' m hhead hmethod hfields
    | nil =>
      obtain ⟨rfl, rfl⟩ : r = r' ∧ reply = reply' := by simpa using hhead
      have hfind := hreply m hmethod hfields
      exact { document := h.document m hfind
              recorded := fun t => h.recorded m t hfind
              alone := fun t m' _ hfind' _ =>
                ⟨Option.some.inj (hfind'.symm.trans hfind), h.start rfl⟩ }

end Honest

/-! ## The contest -/

/-- What holds of a contest whatever happens. -/
structure Fair (client : Client Seconds) (a : Assignment Seconds) (desired : Service)
    (space name : Text) (c : Contest) : Prop where
  abides : c.cycle.Abides (Requested client a.space desired) (fun _ _ => True) c.exchanges
  progress : Progress client a.space desired c.exchanges c.late c.written
  honest : c.written = [] → Honest (.text space, .text name) c.store c.used c.touched c.exchanges

section Fair

variable {client : Client Seconds} {a : Assignment Seconds} {desired : Service} {space name : Text}

/-- The call that a fair contest is about to make is one that is asked for, and whatever
the reply is, what is left of the cycle keeps to that. -/
theorem Fair.call {c : Contest} (h : Fair client a desired space name c) {r : Request Seconds}
    {next : Reply → Sending} (hcycle : c.cycle = .call r next) :
    Requested client a.space desired c.exchanges r
      ∧ ∀ reply, (next reply).Abides (Requested client a.space desired) (fun _ _ => True)
        (c.exchanges ++ [(r, reply)]) := by
  have habides := h.abides
  rw [hcycle] at habides
  exact habides

/-- What a cycle reads is what is stored, as long as others store documents. JSON gives a
document back as it is, so nothing is lost between the store and the cycle. -/
theorem Fair.stored (hplace : target? .get (client.baseUrl ++ "/" ++ Client.servicePath a.space desired.name)
      = some ⟨space, some name⟩)
    {c : Contest} (h : Fair client a desired space name c) {r : Request Seconds}
    {next : Reply → Sending} (hcycle : c.cycle = .call r next) (hmethod : r.method = .get)
    (hwritten : c.written = []) {m : Fields} (hfields : (c.store.reply r).1.fields? = some m) :
    c.store.find? (.text space, .text name) = some m := by
  -- all that a cycle reads is the service at its place
  rw [← (h.call hcycle).1.url_of_get hmethod] at hplace
  obtain ⟨stored, hfind, hplain⟩ := Store.plainFields?_of_reply hmethod hplace hfields
  have hdocument := (Json.document_iff_plainFields? stored).mp ((h.honest hwritten).document stored hfind)
  rwa [Option.some.inj (hdocument.symm.trans hplain)] at hfind

/-- The step lemma: whatever happens next, a contest stays fair. The cases are the ways in
which something can happen, to the cycle or to the store, and only a write that is taken
needs what is known of the store. -/
theorem Fair.step (hplace : target? .get (client.baseUrl ++ "/" ++ Client.servicePath a.space desired.name)
      = some ⟨space, some name⟩)
    {c c' : Contest} (h : Fair client a desired space name c) (hstep : Step space name c c') :
    Fair client a desired space name c' := by
  cases hstep with
  | silent p hsilent =>
    exact { abides := h.abides.silent hsilent, progress := h.progress, honest := h.honest }
  | read r next hcycle hmethod =>
    exact { abides := (h.call hcycle).2 _
            progress := h.progress.read hmethod _
            honest := fun hwritten => (h.honest hwritten).replied fun m _ hfields =>
              h.stored hplace hcycle hmethod hwritten hfields }
  | failed r next reply hcycle hmethod hfails =>
    refine { abides := (h.call hcycle).2 reply
             progress := h.progress.read hmethod reply
             honest := fun hwritten => (h.honest hwritten).replied fun m _ hfields => ?_ }
    rw [hfails] at hfields
    cases hfields
  | taken r next reply store hcycle htakes =>
    -- the first write of the cycle, since it has only read before
    have hwrite := htakes.method_ne_get
    obtain ⟨hlate, hwritten⟩ := h.progress.of_reads ((h.call hcycle).1.reads hwrite)
    refine { abides := (h.call hcycle).2 reply, progress := ?_, honest := nofun }
    rw [hlate, hwritten]
    exact .taken c.exchanges [] r reply hwrite
  | untaken r next reply hcycle hwrite =>
    obtain ⟨hlate, hwritten⟩ := h.progress.of_reads ((h.call hcycle).1.reads hwrite)
    refine { abides := (h.call hcycle).2 reply, progress := ?_, honest := fun hwritten => ?_ }
    · rw [hlate, hwritten]
      exact .waiting c.exchanges [] r reply (h.call hcycle).1 hwrite
    · exact (h.honest hwritten).replied fun _ hmethod => absurd hmethod hwrite
  | arrives before r after store hlate htakes =>
    -- the write is the only one that is late, and none was taken before
    obtain ⟨hrest, hwritten, hwrite, es, reply, more, hexchanges, -⟩ := h.progress.of_late hlate
    refine { abides := h.abides, progress := ?_, honest := nofun }
    rw [hrest, hwritten, hexchanges]
    exact .taken es more r reply hwrite
  | edited m version hm hversion hne hnew =>
    exact { abides := h.abides, progress := h.progress
            honest := fun hwritten =>
              (h.honest hwritten).edited (Store.samePlace_text space name) hm hversion hnew }
  | deleted =>
    exact { abides := h.abides, progress := h.progress
            honest := fun hwritten => (h.honest hwritten).deleted }

/-- The run lemma, by induction on the steps. -/
theorem Fair.steps (hplace : target? .get (client.baseUrl ++ "/" ++ Client.servicePath a.space desired.name)
      = some ⟨space, some name⟩)
    {c c' : Contest} (h : Fair client a desired space name c) (hsteps : Steps space name c c') :
    Fair client a desired space name c' := by
  induction hsteps with
  | refl => exact h
  | tail _ hstep ih => exact ih.step hplace hstep

/-- A write that may be taken next is the only one, and it was made from exchanges that
the cycle has had. -/
theorem Fair.underway {c : Contest} (h : Fair client a desired space name c) {r : Request Seconds}
    (hr : c.Underway r) (hwrite : r.method ≠ .get) :
    c.written = [] ∧ ∃ es more, c.exchanges = es ++ more ∧ Requested client a.space desired es r := by
  rcases hr with ⟨next, hcycle⟩ | hlate
  · have hr := (h.call hcycle).1
    exact ⟨(h.progress.of_reads (hr.reads hwrite)).2, c.exchanges, [], by simp, hr⟩
  · obtain ⟨before, after, hlate⟩ := List.append_of_mem hlate
    obtain ⟨-, hwritten, -, es, reply, more, hexchanges, hr⟩ := h.progress.of_late hlate
    exact ⟨hwritten, es, _, hexchanges, hr⟩

end Fair

end Contest

/-- **No lost update.** Whatever others do, and in whatever order, an update of a cycle is
taken only over the manifest that the cycle has read, which nobody has touched since; and
what is stored by it is the service that was read, patched to agree with the desired one,
in a new version. The invariant is `Fair`: versions are never used twice, so the one that
the update carries is stored only if the manifest it was read with still is. -/
theorem contest_loses_no_update {e : Engine} {a : Assignment Seconds} {desired : Service}
    (hdesired : e.desired a = .ok desired) {client : Client Seconds} {space name : Text}
    (hplace : target? .get (client.baseUrl ++ "/" ++ Client.servicePath a.space desired.name)
      = some ⟨space, some name⟩)
    {store : Store} {used : List Text}
    (hstore : ∀ m, store.find? (.text space, .text name) = some m →
      Document (.map m) ∧ ∀ t, storedVersion m = .text t → t ∈ used)
    {c : Contest} (hsteps : Contest.Steps space name { store, used, cycle := sending e a client } c)
    {r : Request Seconds} (hput : r.method = .put) (hr : c.Underway r) {store' : Store}
    (htakes : Takes c.store r store') {get : Request Seconds} {reply : Reply}
    {m md sp : Fields} {s : Service} {t : Text}
    (hread : c.exchanges.head? = some (get, reply)) (hm : reply.fields? = some m)
    (hmd : Fields.get? m (.text "metadata") = some (.map md))
    (hsp : Fields.get? m (.text "spec") = some (.map sp))
    (hspace : Fields.get? md (.text "namespace") = some (.text space))
    (hname : Fields.get? md (.text "name") = some (.text name))
    (hs : Service.ofManifest (.map m) = .ok s) (hversion : storedVersion m = .text t) (hne : t ≠ "") :
    c.store.find? (.text space, .text name) = some m ∧ c.touched = false
      ∧ ∃ body version, (s.compare desired).patched.manifest = .ok body
        ∧ store'.find? (.text space, .text name)
          = some (withMetadata body [("resourceVersion", .text version)]) := by
  have hwrite : r.method ≠ .get := by simp [hput]
  have hstart : Contest.Fair client a desired space name
      { store, used, cycle := sending e a client } :=
    { abides := abides_requests hdesired client a.context
      progress := .reading [] (by simp)
      honest := fun _ =>
        { document := fun m hfind => (hstore m hfind).1
          recorded := fun m t hfind => (hstore m hfind).2 t
          start := fun _ => rfl
          read := nofun } }
  have hfair := hstart.steps hplace hsteps
  obtain ⟨hwritten, es, more, hexchanges, hrequested⟩ := hfair.underway hr hwrite
  cases hrequested with
  | read _ timeout => cases hput
  | create _ timeout body hreads hbody => cases hput
  | update timeout t' reply' fields body current hfields hcurrent hdrift hbody =>
    -- the exchange before an update is the first one of the contest
    obtain ⟨rfl, rfl⟩ : _ = get ∧ reply' = reply := by simpa [hexchanges] using hread
    obtain rfl := Option.some.inj (hfields.symm.trans hm)
    obtain rfl := Except.ok.inj (hcurrent.symm.trans hs)
    have hknown := (hfair.honest hwritten).read _ reply' fields hread rfl hm
    have hdescribes : fields.Describes md sp space name current :=
      { metadata := hmd, spec := hsp, space := hspace, name := hname, read := hs
        distinctMetadata := (hknown.document.get? hmd).named.distinct
        distinctSpec := (hknown.document.get? hsp).named.distinct }
    obtain rfl := Except.ok.inj ((hdescribes.manifest_patched desired).symm.trans hbody)
    have hbody' := hdescribes.storedVersion_patched desired (.inr ⟨t, hversion, hne⟩)
    -- the update goes to the place that was read, in the version that was read
    have hsegments := Cluster.segments_of_target? hplace
    have htarget := Cluster.target?_servicePath .put nofun client.baseUrl hsegments.1 hsegments.2
    rw [← hdescribes.service_space, ← hdescribes.service_name] at htarget
    cases htakes with
    | create space' name' entries hmethod => cases hmethod
    | update space' name' stored version _ htarget' hfind heqv =>
      obtain ⟨rfl, rfl⟩ : space = space' ∧ name = name' := by
        simpa using htarget.symm.trans htarget'
      have hstored : storedVersion stored = .text t := by
        simpa [Client.request, hbody', hversion] using heqv
      -- so what it replaces is what was read
      obtain ⟨rfl, htouched⟩ := hknown.alone t stored hversion hfind hstored
      exact ⟨hfind, htouched, _, version, hdescribes.manifest_patched desired,
        c.store.find?_insert (Store.samePlace_text space name) _⟩

/-! ## While nobody else acts

What a cycle does in a scene in which nothing happens by itself, it does in a contest too, for as long as
the others do nothing. So an edit can be put before or after such a stretch. -/

namespace Contest

variable {space name : Text}

/-- Up to a call before which a cycle has only read, a contest goes as a scene does. Reads
do not change the store, so others may be imagined idle until then. -/
theorem steps_until {before after : List (RequestExchange Seconds)} {r : Request Seconds} {reply : Reply}
    (hreads : ∀ x ∈ before, x.1.method = .get) (p : Sending) {c : Contest}
    {s : Cluster.Scene (Request Seconds) Reply} (hcycle : c.cycle = p) (hstore : c.store = s.store)
    (hs : s.disturbances = [])
    (hexchanges : p.exchanges Cluster.Scene.overHttp s = before ++ (r, reply) :: after) :
    ∃ next, Steps space name c { c with cycle := .call r next, exchanges := c.exchanges ++ before } := by
  induction p generalizing c s before with
  | done result => simp [Program.exchanges] at hexchanges
  | cancelled next ih =>
    obtain ⟨next', hsteps⟩ := ih s.cancelled hreads (c := { c with cycle := next s.cancelled }) rfl hstore
      hs hexchanges
    exact ⟨next', .head (.silent c _ (hcycle ▸ .cancelled next _)) hsteps⟩
  | now next ih =>
    obtain ⟨next', hsteps⟩ := ih s.clock.read.1 hreads (c := { c with cycle := next s.clock.read.1 })
      (s := { s with clock := s.clock.read.2 }) rfl hstore hs hexchanges
    exact ⟨next', .head (.silent c _ (hcycle ▸ .now next _)) hsteps⟩
  | log entry next ih =>
    obtain ⟨next', hsteps⟩ := ih hreads (c := { c with cycle := next })
      (s := { s with entries := entry :: s.entries }) rfl hstore hs hexchanges
    exact ⟨next', .head (.silent c _ (hcycle ▸ .log entry next)) hsteps⟩
  | call r' next ih =>
    rw [Program.exchanges, call_overHttp hs] at hexchanges
    cases before with
    | nil =>
      -- This is the call in question: the cycle stands right before it.
      obtain ⟨⟨rfl, -⟩, -⟩ : (r' = r ∧ _) ∧ _ := by simpa using hexchanges
      refine ⟨next, ?_⟩
      rw [← hcycle, List.append_nil]
    | cons x before =>
      obtain ⟨rfl, hrest⟩ := List.cons.inj hexchanges
      have hget : r'.method = .get := hreads _ List.mem_cons_self
      -- a read leaves the store as it is
      have hunchanged : (s.store.respond r').2 = s.store := by
        refine Store.respond_of_not_accepts ?_
        simp [Store.accepts, hget]
      obtain ⟨next', hsteps⟩ := ih (s.store.reply r').1
        (fun x hx => hreads x (List.mem_cons_of_mem _ hx))
        (c := { c with
          cycle := next (s.store.reply r').1
          exchanges := c.exchanges ++ [(r', (s.store.reply r').1)] })
        (s := { s with calls := r' :: s.calls, store := (s.store.respond r').2 }) rfl
        (hstore.trans hunchanged.symm) hs hrest
      have hread : Step space name c
          { c with
            cycle := next (s.store.reply r').1
            exchanges := c.exchanges ++ [(r', (s.store.reply r').1)] } := by
        rw [← hstore]
        exact .read c r' next hcycle hget
      exact ⟨next', .head hread (by simpa using hsteps)⟩

end Contest

/-- A cycle reads a bare manifest and updates it. -/
theorem exchanges_bare :
    let w := Wanted.sample
    let store : Store := [((.text w.space, .text w.name), Wanted.bareSample)]
    ∃ x y rest, (sending (Engine.ofSettings w.settings) w.assignment .sample).exchanges
        Cluster.Scene.overHttp { clock := { time := .whole 0 }, store } = x :: y :: rest
      ∧ x.1.method = .get ∧ x.2.fields? = some Wanted.bareSample
      ∧ y.1.method = .put ∧ store.accepts y.1 = true := by
  intro w store
  -- The list gets a name, so that each evaluation is a fact about it and not a fresh run.
  obtain ⟨es, hes⟩ : ∃ es, es = (sending (Engine.ofSettings w.settings) w.assignment .sample).exchanges
      Cluster.Scene.overHttp { clock := { time := .whole 0 }, store } := ⟨_, rfl⟩
  have hread : es.head?.map (fun x => (x.1.method, x.2.fields?)) = some (.get, some Wanted.bareSample) := by
    rw [hes]
    decide +kernel
  have hwrite : es.tail.head?.map (fun y => (y.1.method, store.accepts y.1)) = some (.put, true) := by
    rw [hes]
    decide +kernel
  obtain ⟨x, hx, hget⟩ := Option.map_eq_some_iff.mp hread
  obtain ⟨more, rfl⟩ := List.head?_eq_some_iff.mp hx
  obtain ⟨y, hy, hput⟩ := Option.map_eq_some_iff.mp hwrite
  obtain ⟨rest, rfl⟩ := List.head?_eq_some_iff.mp hy
  obtain ⟨hget, hfields⟩ := Prod.mk.inj hget
  obtain ⟨hput, haccepts⟩ := Prod.mk.inj hput
  exact ⟨x, y, rest, hes.symm, hget, hfields, hput, haccepts⟩

/-- The update of a bare manifest that others have put in the place of an older one,
before the cycle reads. If they edit it once more after that, the same update is not
taken. -/
theorem contest_updates_bare :
    let w := Wanted.sample
    let place : Cluster.Place := (.text w.space, .text w.name)
    let version (t : Text) : Fields := w.bare [(.text "resourceVersion", .text t)]
    let start : Contest := {
      store := [(place, version "3")], used := ["3"]
      cycle := sending (Engine.ofSettings w.settings) w.assignment .sample }
    let edited (c : Contest) (t : Text) : Contest := c.change (c.store.insert place (version t)) [t]
    Contest.Step w.space w.name start (edited start "7")
      ∧ ∃ c r store', Contest.Steps w.space w.name (edited start "7") c
        ∧ r.method = .put ∧ c.Underway r ∧ Takes c.store r store'
        ∧ c.store.find? place = some (version "7") ∧ c.touched = false
        ∧ (∃ s body t, Service.ofManifest (.map (version "7")) = .ok s
          ∧ (s.compare w.service).patched.manifest = .ok body
          ∧ store'.find? place = some (withMetadata body [("resourceVersion", .text t)]))
        ∧ Contest.Step w.space w.name c (edited c "9")
        ∧ ∀ store', ¬Takes (edited c "9").store r store' := by
  intro w place version start edited
  have hedit {c : Contest} {t : Text} (hdocument : Document (.map (version t)))
      (hversion : storedVersion (version t) = .text t) (hne : t ≠ "") (hnew : t ∉ c.used) :
      Contest.Step w.space w.name c (edited c t) := .edited c _ t hdocument hversion hne hnew
  have hbefore : Contest.Step w.space w.name start (edited start "7") :=
    hedit Wanted.document_bareSample rfl (by decide) (by decide)
  obtain ⟨x, y, rest, hexchanges, hget, hfields, hput, haccepts⟩ := exchanges_bare
  obtain ⟨md, s, hmanages, -⟩ := Wanted.manages_bareSample
  have hreads : ∀ z ∈ [x], z.1.method = .get := by simpa using hget
  have hstored : (edited start "7").store = [(place, Wanted.bareSample)] := by decide +kernel
  obtain ⟨next, hsteps⟩ := Contest.steps_until hreads start.cycle (c := edited start "7") rfl hstored rfl
    hexchanges
  have hplace : target? .get (Client.sample.baseUrl ++ "/"
      ++ Client.servicePath (.text w.space) (.text w.name)) = some ⟨w.space, some w.name⟩ :=
    Cluster.target?_servicePath .get nofun _ ⟨by decide, by decide⟩ ⟨by decide, by decide⟩
  have hstart : ∀ m, start.store.find? place = some m →
      Document (.map m) ∧ ∀ t, storedVersion m = .text t → t ∈ start.used := by
    intro m hm
    obtain rfl : version "3" = m := Option.some.inj hm
    refine ⟨by decide +kernel, fun t ht => ?_⟩
    have hversion : storedVersion (version "3") = .text "3" := rfl
    simpa [start] using (hversion.symm.trans ht).symm
  -- whatever has happened since the read, this is what an update that is taken tells
  have hupdate {c : Contest} (hsteps : Contest.Steps w.space w.name start c) (hunderway : c.Underway y.1)
      (hread : c.exchanges.head? = some x) {store' : Store} (htakes : Takes c.store y.1 store') :=
    contest_loses_no_update (w.desired_eq Wanted.valid_sample {}) hplace hstart hsteps hput hunderway htakes
      hread hfields hmanages.metadata hmanages.spec hmanages.space hmanages.name hmanages.read
      (t := "7") rfl (by decide)
  have htakes : Takes (edited start "7").store y.1 ((edited start "7").store.respond y.1).2 :=
    Cluster.takes_respond (hstored ▸ haccepts)
  obtain ⟨hkept, htouched, body, t, hbody, hwritten⟩ :=
    hupdate (.head hbefore hsteps) (.inl ⟨next, rfl⟩) rfl htakes
  refine ⟨hbefore, _, y.1, _, hsteps, hput, .inl ⟨next, rfl⟩, htakes, hkept, htouched,
    ⟨s, body, t, hmanages.read, hbody, hwritten⟩, ?_⟩
  have hafter := hedit (c := { edited start "7" with
      cycle := .call y.1 next, exchanges := (edited start "7").exchanges ++ [x] }) (t := "9")
    (by decide +kernel) rfl (by decide) (show ("9" : Text) ∉ [("7" : Text), "3"] by decide)
  refine ⟨hafter, fun store' htakes' => ?_⟩
  obtain ⟨-, huntouched, -⟩ :=
    hupdate (.head hbefore (hsteps.tail hafter)) (.inl ⟨next, rfl⟩) rfl htakes'
  cases huntouched

end Keeper
