import Keeper.Proofs.Convergence
import Keeper.Proofs.Replies

/-!
# Keeper — cycles that have a store to themselves

A cycle reaches a store directly or by the requests of a client. Either way its calls are answered
from what is stored, and nothing else happens to the store meanwhile.

* **`Backend`**, **`Backend.cycle`** — the two ways, and a cycle that goes one of them.
* **`Serves`** — surroundings that answer the calls about one service from what is stored.
* **`serves_direct`**, **`serves_overHttp`** — both ways do.
* **`Backend.cycle_eq`** — what a cycle yields in all surroundings that serve, it does in a backend.
-/

namespace Keeper

open Cluster (Store Moment Scene Clock callMoment requestMoment created succeeding storedVersion
  fieldsAt Segment)

/-- How the calls of a cycle reach a store. -/
inductive Backend where
  | memory
  | http (client : Client Seconds)

/-- What is left of a cycle. -/
structure Turn where
  result : Except Fault Outcome
  /-- The kinds of calls that were made, in order. -/
  calls : List Moment
  store : Store

namespace Backend

/-- A stored manifest as a cycle is given it. -/
def given? : Backend → Fields → Option Fields
  | .memory => some
  | .http _ => Json.plainFields?

/-- The names a service can have to be reached. -/
def Reaches : Backend → (space name : Text) → Prop
  | .memory, _, _ => True
  | .http _, space, name => Segment space ∧ Segment name

/-- A cycle that has a store to itself. -/
def cycle (b : Backend) (e : Engine) (a : Assignment Seconds) (clock : Clock) (store : Store) :
    Turn :=
  match b with
  | .memory =>
    let (result, scene) := (reconcile e a).run.run Scene.direct { clock, store }
    { result, calls := (scene.calls.map callMoment).reverse, store := scene.store }
  | .http client =>
    let program := (reconcile e a).run.refine fun op => (client.answer a.context op).run
    let (result, scene) := program.run Scene.overHttp { clock, store }
    { result, calls := (scene.calls.map requestMoment).reverse, store := scene.store }

end Backend

/-! ## Scenes in which nothing happens by itself -/

namespace Cluster

variable {ω φ ρ : Type}

/-- A scene in which nothing was laid out to happen. -/
structure Scene.Calm (momentOf : ω → Moment) (store : Store) (calls : List Moment)
    (s : Scene ω φ) : Prop where
  cancelled : s.cancelled = false
  disturbances : s.disturbances = []
  store : s.store = store
  calls : s.calls.map momentOf = calls

namespace Scene

variable {momentOf : ω → Moment} {failure : φ → ρ} {answer : ω → Scene ω φ → ρ × Scene ω φ}
  {store : Store} {calls : List Moment} {s : Scene ω φ}

theorem calm_start (clock : Clock) (store : Store) :
    Calm momentOf store [] ({ clock, store } : Scene ω φ) := ⟨rfl, rfl, rfl, rfl⟩

theorem Calm.log (h : Calm momentOf store calls s) (entry : Log.Entry) :
    Calm momentOf store calls { s with entries := entry :: s.entries } :=
  ⟨h.cancelled, h.disturbances, h.store, h.calls⟩

/-- A call is recorded and then answered. -/
theorem call_of_undisturbed (h : s.disturbances = []) (op : ω) :
    (surroundings momentOf failure answer).call op s = answer op { s with calls := op :: s.calls } := by
  have harrive : s.arrive momentOf op = (none, { s with calls := op :: s.calls }) := by
    simp [arrive, h]
  simp only [surroundings, harrive]

theorem Calm.step (h : Calm momentOf store calls s) (op : ω) (store' : Store) :
    Calm momentOf store' (momentOf op :: calls)
      { s with calls := op :: s.calls, store := store' } :=
  ⟨h.cancelled, h.disturbances, rfl, by simp [h.calls]⟩

end Scene

end Cluster

/-! ## Surroundings that serve -/

/-- Surroundings that answer the calls about one service from what is stored. -/
structure Serves {σ : Type} (world : Surroundings σ Seconds ServiceCall (Except Fault Service))
    (seen : Store → List Moment → σ → Prop) (given? : Fields → Option Fields)
    (space name : Text) : Prop where
  undisturbed : Undisturbed world seen
  absent : ∀ {store : Store}, store.find? (.text space, .text name) = none →
    Answers world seen (.read space name) store (.error (.notFound space name)) store
  present : ∀ {store : Store} {m m' : Fields} {s : Service},
    store.find? (.text space, .text name) = some m → given? m = some m' →
    Service.ofManifest (.map m') = .ok s → Answers world seen (.read space name) store (.ok s) store
  creates : ∀ {store : Store} {p s : Service} {body m' : Fields},
    store.find? (.text space, .text name) = none → p.space = .text space →
    p.name = .text name → p.manifest = .ok body →
    Fields.get? (fieldsAt body "metadata") (.text "name") = some (.text name) →
    given? (created body) = some m' → Service.ofManifest (.map m') = .ok s →
    ∃ sent, Answers world seen (.create p) store (.ok sent)
      (store.insert (.text space, .text name) (created body))
  updates : ∀ {store : Store} {p s : Service} {stored body next m' : Fields},
    store.find? (.text space, .text name) = some stored → p.space = .text space →
    p.name = .text name → p.manifest = .ok body →
    (storedVersion body).eqv (storedVersion stored) = true → succeeding stored body = .ok next →
    given? next = some m' → Service.ofManifest (.map m') = .ok s →
    ∃ sent, Answers world seen (.update p) store (.ok sent)
      (store.insert (.text space, .text name) next)

/-! ### Directly -/

/-- In the memory a call is answered by the store itself. -/
theorem answers_direct {op : ServiceCall} {store store' : Store} {answer : Except Fault Service}
    (h : store.answer op = (answer, store')) :
    Answers Scene.direct (Scene.Calm callMoment) op store answer store' := by
  intro calls s hs
  have hcall : Scene.direct.call op s = (answer, { s with calls := op :: s.calls, store := store' }) := by
    refine (Scene.call_of_undisturbed hs.disturbances op).trans ?_
    simp only [hs.store, h]
  rw [hcall]
  exact ⟨rfl, hs.step op store'⟩

/-- The memory serves: each call about the one service is answered from what is stored
under its name, and only a write changes that. -/
theorem serves_direct (space name : Text) :
    Serves Scene.direct (Scene.Calm callMoment) some space name where
  undisturbed := { cancelled := fun hs => hs.cancelled, log := fun entry hs => hs.log entry }
  absent := fun hfind => answers_direct (by
    show (Store.read _ _ _, _) = _
    simp only [Store.read, Value.key, hfind, bind, Except.bind]
    rfl)
  present := fun hfind hgiven hread => answers_direct (by
    obtain rfl := Option.some.inj hgiven
    show (Store.read _ _ _, _) = _
    simp only [Store.read, Value.key, hfind, bind, Except.bind, hread])
  creates := fun {store service s body m'} hfind hspace hname hbody hown hgiven hread => by
    refine ⟨service, answers_direct ?_⟩
    -- a create finds its place free, as the cycle has just read
    have hcreate : store.create service
        = .ok (store.insert (.text space, .text name) (created body)) := by
      simp only [Store.create, hbody, hspace, hname, Value.key, bind, Except.bind, pure, Except.pure]
    show store.written service (store.create service) = _
    rw [hcreate]
    rfl
  updates := fun {store service s stored body next m'} hfind hspace hname hbody hversion hnext hgiven
      hread => by
    refine ⟨service, answers_direct ?_⟩
    -- an update is taken because its version is that of what is stored
    have hupdate : store.update service
        = .ok (store.insert (.text space, .text name) next) := by
      simp only [Store.update, hspace, hname, Value.key, hfind, hbody, hnext, bind, Except.bind,
        pure, Except.pure]
    show store.written service (store.update service) = _
    rw [hupdate]
    rfl

/-! ### By requests -/

variable {client : Client Seconds} {ctx : RequestContext Seconds}

/-- The surroundings in which the calls of a cycle are made by a client. -/
def Client.overHttp (client : Client Seconds) (ctx : RequestContext Seconds) :
    Surroundings (Scene (Http.Request Seconds) Http.Reply) Seconds ServiceCall
      (Except Fault Service) :=
  Scene.overHttp.through fun op => (client.answer ctx op).run

/-- A request to a calm scene is replied to by the store, with nothing in between. -/
theorem call_overHttp {s : Scene (Http.Request Seconds) Http.Reply} (h : s.disturbances = [])
    (r : Http.Request Seconds) :
    Scene.overHttp.call r s
      = ((s.store.reply r).1, { s with calls := r :: s.calls, store := (s.store.respond r).2 }) :=
  Scene.call_of_undisturbed h r

/-- A request is recorded and answered from what is stored. -/
theorem calm_call_overHttp {store store' : Store} {calls : List Moment}
    {s : Scene (Http.Request Seconds) Http.Reply} (hs : s.Calm requestMoment store calls)
    {r : Http.Request Seconds} {reply : Http.Reply} (h : store.reply r = (reply, store')) :
    (Scene.overHttp.call r s).1 = reply
      ∧ (Scene.overHttp.call r s).2.Calm requestMoment store' (requestMoment r :: calls) := by
  have hstore : (store.respond r).2 = store' := congrArg Prod.snd h
  rw [call_overHttp hs.disturbances, hs.store, h, hstore]
  exact ⟨rfl, hs.step r store'⟩

/-- A call that a client makes by one request is answered by what it makes of the reply.
The hypothesis runs over any scene whose server gives this response, so the scene's clock
and log stay out of the argument. -/
theorem answers_overHttp {op : ServiceCall} {store store' : Store} {answer : Except Fault Service}
    {r : Http.Request Seconds} (hmoment : requestMoment r = callMoment op) {response : Http.Response}
    (hreply : store.reply r = (.response response, store'))
    (hanswer : ∀ (s : Scene (Http.Request Seconds) Http.Reply)
      (post : Scene (Http.Request Seconds) Http.Reply → Prop), s.cancelled = false →
      (∀ entry s, post s → post (Scene.overHttp.log entry s)) →
      (Scene.overHttp.call r s).1 = .response response → post (Scene.overHttp.call r s).2 →
      Attempt.Yields Scene.overHttp (client.answer ctx op) s answer post) :
    Answers (client.overHttp ctx) (Scene.Calm requestMoment) op store answer store' := by
  intro calls s hs
  obtain ⟨hfirst, hcalm⟩ := calm_call_overHttp hs hreply
  rw [hmoment] at hcalm
  exact hanswer s _ hs.cancelled (fun entry s hs => hs.log entry) hfirst hcalm

/-- The requests serve as well, for names that can stand in a URL. What is read is the
manifest as JSON carries it, and so the manifests are related by `Json.plainFields?`. -/
theorem serves_overHttp (hctx : ctx.deadline = .never) {space name : Text} (hspace : Segment space)
    (hname : Segment name) :
    Serves (client.overHttp ctx) (Scene.Calm requestMoment) Json.plainFields? space name where
  undisturbed := { cancelled := fun hs => hs.cancelled, log := fun entry hs => hs.log entry }
  absent := fun {store} hfind => by
    have hreply := store.reply_get client client.timeout hspace hname
    simp only [Store.respondGet, hfind] at hreply
    -- a 404 is a failure that says that there is no such service
    have hfailed : (Cluster.notStored name).isFailure = .ok true :=
      Http.Response.isFailure_refusal (by omega) _ _
    have hfound : client.found (.text space) (.text name) (Cluster.notStored name)
        = .error (.notFound space name) := by
      unfold Client.found
      rw [client.taken_of_failure .get _ hfailed]
      exact congrArg Except.error (client.missing_failure _ _ _ _ _ _)
    rw [← hfound]
    exact answers_overHttp rfl hreply fun _ _ hcancelled hlog hresponse hpost =>
      client.yields_read hctx hcancelled hlog hresponse hpost
  present := fun {store m m' s} hfind hgiven hread => by
    have hreply := store.reply_get client client.timeout hspace hname
    simp only [Store.respondGet, hfind, Store.deliver_accepted _ _ hgiven] at hreply
    have hfound : client.found (.text space) (.text name) (Cluster.accepted 200 "OK" m') = .ok s := by
      unfold Client.found
      rw [client.taken_of_success .get _ (by omega)]
      exact hread
    rw [← hfound]
    exact answers_overHttp rfl hreply fun _ _ hcancelled hlog hresponse hpost =>
      client.yields_read hctx hcancelled hlog hresponse hpost
  creates := fun {store service s body m'} hfind hserviceSpace hserviceName hbody hown hgiven hread => by
    have hreply := store.reply_post client client.timeout hspace body
    have hkey : ((fieldsAt body "metadata").getD "name" .null).key = .ok (.text name) := by
      rw [Fields.getD_of_get? hown]
      rfl
    simp only [Store.respondPost, hkey, hfind, Store.deliver_accepted _ _ hgiven] at hreply
    rw [← hserviceSpace] at hreply
    -- what a write answers with depends on the response; that it answers is all that matters
    obtain ⟨sent, hsent⟩ := Client.serviceOr_eq_ok service hread
    refine ⟨sent, answers_overHttp rfl hreply fun _ _ hcancelled hlog hresponse hpost => ?_⟩
    rw [← hsent]
    exact client.yields_create hctx hcancelled hlog hbody hresponse
      (client.taken_of_success .post _ (by omega) _ _) hpost
  updates := fun {store service s stored body next m'} hfind hserviceSpace hserviceName hbody hversion
      hnext hgiven hread => by
    have hreply := store.reply_put client client.timeout hspace hname body
    simp only [Store.respondPut, hfind, hversion, hnext, Bool.not_true, Bool.false_eq_true, if_false,
      Store.deliver_accepted _ _ hgiven] at hreply
    rw [← hserviceSpace, ← hserviceName] at hreply
    obtain ⟨sent, hsent⟩ := Client.serviceOr_eq_ok service hread
    refine ⟨sent, answers_overHttp rfl hreply fun _ _ hcancelled hlog hresponse hpost => ?_⟩
    rw [← hsent]
    exact client.yields_update hctx hcancelled hlog hbody hresponse
      (client.taken_of_success .put _ (by omega) _ _) hpost

/-! ## A backend

What a cycle yields in all surroundings that serve it, it does in a backend. -/

namespace Backend

variable {e : Engine} {a : Assignment Seconds} {space name : Text}

/-- What a cycle yields in the memory is the turn of it. -/
theorem memory_cycle_eq {clock : Clock} {store store' : Store} {result : Except Fault Outcome}
    {calls : List Moment}
    (h : ∀ s, Scene.Calm callMoment store [] s →
      Attempt.Yields Scene.direct (reconcile e a) s result
        (Scene.Calm callMoment store' calls.reverse)) :
    Backend.memory.cycle e a clock store = { result, calls, store := store' } := by
  obtain ⟨hresult, hcalm⟩ := h _ (Scene.calm_start clock store)
  show Turn.mk ((reconcile e a).run.run Scene.direct _).1 _ _ = _
  rw [hresult, hcalm.calls, hcalm.store, List.reverse_reverse]

/-- The same for both backends: it is enough to argue about any surroundings that serve.
Each backend is shown to serve once, and every result about a cycle below is proved for
whatever serves. -/
theorem cycle_eq {b : Backend} (hctx : a.context.deadline = .never) (hreach : b.Reaches space name)
    {clock : Clock} {store store' : Store} {result : Except Fault Outcome} {calls : List Moment}
    (h : ∀ {σ : Type} {world : Surroundings σ Seconds ServiceCall (Except Fault Service)}
      {seen : Store → List Moment → σ → Prop}, Serves world seen b.given? space name →
      ∀ s, seen store [] s →
        Attempt.Yields world (reconcile e a) s result (seen store' calls.reverse)) :
    b.cycle e a clock store = { result, calls, store := store' } := by
  cases b with
  | memory => exact memory_cycle_eq (h (serves_direct space name))
  | http client =>
    have hserves : Serves (client.overHttp a.context) (Scene.Calm requestMoment) Json.plainFields?
      space name := serves_overHttp hctx hreach.1 hreach.2
    obtain ⟨hresult, hcalm⟩ := h hserves _ (Scene.calm_start clock store)
    -- the requests are made by the cycle itself, so the scene is the one of its calls
    have hrefine := Program.run_refine Scene.overHttp (fun op => (client.answer a.context op).run)
      (reconcile e a).run { clock, store }
    show Turn.mk (((reconcile e a).run.refine _).run Scene.overHttp _).1 _ _ = _
    rw [hrefine]
    refine Eq.trans ?_ (by rw [← hresult, ← List.reverse_reverse calls, ← hcalm.calls, ← hcalm.store])
    rfl

end Backend

end Keeper
