import Keeper.Cluster.Endpoint
import Keeper.Proofs.Context
import Keeper.Proofs.Fields

/-!
# Keeper — what a client makes of replies

A client sends at most one request for a call. What it makes of a response depends on the response
alone; everything else that comes of a request is a failure.

* **`Client.taken`** — what a client takes from a response; **`Reply.fields?`** is what any client can
  take from a reply.
* **`Response.isFailure_int`** — a status that is an integer decides whether a response is a failure.
* **`abides_send`**, **`yields_send`** — one request, whatever it is answered and with a known reply.
-/

namespace Keeper

open Http (Method Request Reply Response)

/-! ## Responses -/

theorem Value.lt?_int (i j : Int) : (Value.int i).lt? (.int j) = some (decide (i < j)) := by
  simp [lt?, Scalar.lt?, Scalar.isNumber, Scalar.place?, Binary64.Place.ofInt_lt]

/-- A response with an integer status says that its request failed when the status is at
least 400. -/
theorem Http.Response.isFailure_int {r : Response} {status : Int} (h : r.status = .int status) :
    r.isFailure = .ok (decide (400 ≤ status)) := by
  unfold isFailure leastFailure
  rw [h, Value.lt?_int, Value.lt?_int]
  have heqv : (Value.int status).eqv (.int 400) = decide (status = 400) := by
    rw [Bool.eq_iff_iff, Value.eqv_int, decide_eq_true_iff]
  rw [heqv]
  refine congrArg Except.ok ?_
  rw [Bool.eq_iff_iff]
  simp
  omega

/-- An accepted request has a status below 400 and so is no failure. -/
theorem Http.Response.isFailure_accepted {status : Int} (h : status < 400) (reason : Text)
    (fields : Fields) : (Cluster.accepted status reason fields).isFailure = .ok false := by
  rw [isFailure_int rfl]
  simp only [Except.ok.injEq, decide_eq_false_iff_not]
  omega

theorem Http.Response.isFailure_refusal {status : Int} (h : 400 ≤ status) (reason text : Text) :
    (Cluster.refusal status reason text).isFailure = .ok true := by
  rw [isFailure_int rfl]
  simpa using h

/-- What a response holds for any client, unless it is a failure or holds none. -/
def Http.Response.fields? (r : Response) : Option Fields :=
  match r.isFailure with
  | .ok false =>
    if r.content.isEmpty then some []
    else
      match r.content.value with
      | .ok (.map fields) => some fields
      | _ => none
  | _ => none

theorem Http.Response.fields?_accepted {status : Int} (hstatus : status < 400) (reason : Text)
    (fields : Fields) : (Cluster.accepted status reason fields).fields? = some fields := by
  unfold fields?
  rw [isFailure_accepted hstatus]
  rfl

theorem Http.Response.fields?_refusal {status : Int} (h : 400 ≤ status) (reason text : Text) :
    (Cluster.refusal status reason text).fields? = none := by
  unfold fields?
  rw [isFailure_refusal h]

/-- What a reply holds for any client. A failure to get a response holds nothing. -/
def Http.Reply.fields? : Reply → Option Fields
  | .response r => r.fields?
  | _ => none

namespace Client

variable {τ : Type} [TimeScale τ]

/-- What a client takes from a response. -/
def taken (c : Client τ) (method : Method) (path : Text) (r : Response) : Except Fault Fields := do
  if ← r.isFailure then
    throw (c.failure method path r.status (snippet r.content.text) (r.reason.orElse ""))
  else c.contents method path r

omit [TimeScale τ] in
theorem taken_of_success (c : Client τ) (method : Method) (path : Text) {status : Int}
    (hstatus : status < 400) (reason : Text) (fields : Fields) :
    c.taken method path (Cluster.accepted status reason fields) = .ok fields := by
  unfold taken
  rw [Response.isFailure_accepted hstatus]
  rfl

omit [TimeScale τ] in
/-- A client makes one fault of a failure: the status, the reason, and the beginning of
the content. -/
theorem taken_of_failure (c : Client τ) (method : Method) (path : Text) {r : Response}
    (h : r.isFailure = .ok true) :
    c.taken method path r
      = .error (c.failure method path r.status (snippet r.content.text) (r.reason.orElse "")) := by
  unfold taken
  rw [h]
  rfl

omit [TimeScale τ] in
/-- What is taken does not depend on the client. Its method and path only go into what is
said of a failure, so whether there is one can be told from the response alone. -/
theorem fields?_of_taken {c : Client τ} {method : Method} {path : Text} {r : Response}
    {fields : Fields} (h : c.taken method path r = .ok fields) : r.fields? = some fields := by
  obtain ⟨failed, hfailure, h⟩ := Fault.bind_eq_ok.mp h
  unfold Response.fields?
  rw [hfailure]
  cases failed with
  | true => cases h
  | false =>
    -- Both look at the content in the same order: empty, undecodable, decoded.
    simp only [Bool.false_eq_true, if_false, contents] at h ⊢
    split at h
    next hempty =>
      rw [if_pos hempty]
      exact congrArg some (Except.ok.inj h)
    next hcontent =>
      rw [if_neg hcontent]
      split at h
      next => split at h <;> cases h
      next fields' hvalue =>
        simp only [hvalue]
        exact congrArg some (Except.ok.inj h)
      next => cases h

/-! ## One request

A reply is taken or the request fails. Only a timeout makes the client look at its context again. -/

section Abides

variable {ω ρ : Type} {permits : List (Request τ × Reply) → Request τ → Prop}
  {succeeds : List (Request τ × Reply) → Fields → Prop}
  {fails : List (Request τ × Reply) → Fault → Prop} {es : List (Request τ × Reply)}

/-- What is made of a reply can only be its fields or a fault; no further request is
made. -/
theorem abides_receive (c : Client τ) (ctx : RequestContext τ) (method : Method) (path : Text)
    (reply : Reply)
    (hok : ∀ fields, reply.fields? = some fields → succeeds es fields)
    (hfail : ∀ f, fails es f) :
    Attempt.Abides permits succeeds fails (c.receive ctx method path reply) es := by
  cases reply with
  | unwritable => exact hfail _
  | failed text => exact hfail _
  -- the context may be to blame, so it is looked at once more
  | timedOut text =>
    unfold receive
    rw [Attempt.abides_bind]
    exact ctx.abides_check (hfail _) fun f _ => hfail f
  | response r =>
    have htaken : ∀ fields, c.taken method path r = .ok fields → succeeds es fields :=
      fun fields h => hok fields (fields?_of_taken h)
    unfold taken at htaken
    unfold receive
    rw [Attempt.abides_bind, Attempt.abides_lift]
    cases hfailure : r.isFailure with
    | error f => exact hfail f
    | ok failed =>
      rw [hfailure] at htaken
      -- the status was a number; now the content decides
      simp only [Attempt.abides_bind, Attempt.abides_log]
      cases failed with
      | true => exact hfail _
      | false =>
        refine (Attempt.abides_lift _).mpr ?_
        cases hcontents : c.contents method path r with
        | error f => exact hfail f
        | ok fields => exact htaken fields hcontents

/-- A request is sent at most once, with some time to take, and only a response is taken.
The kinds of call differ in the method, the path and the body, which this rule leaves
open. -/
theorem abides_send (c : Client τ) (ctx : RequestContext τ) (method : Method) (path : Text)
    (body : Option Fields) (hpermits : ∀ timeout, permits es (c.request method path body timeout))
    (hok : ∀ timeout (reply : Reply) fields, reply.fields? = some fields →
      succeeds (es ++ [(c.request method path body timeout, reply)]) fields)
    (hbefore : ∀ f, fails es f)
    (hfail : ∀ timeout reply f, fails (es ++ [(c.request method path body timeout, reply)]) f) :
    Attempt.Abides permits succeeds fails (c.send ctx method path body) es := by
  unfold send
  rw [Attempt.abides_bind]
  refine ctx.abides_check ?_ fun f _ => hbefore f
  rw [Attempt.abides_bind]
  refine ctx.abides_timeout _ (fun timeout => ?_) hbefore
  rw [Attempt.abides_bind, Attempt.abides_call]
  refine ⟨hpermits timeout, fun reply => ?_⟩
  exact c.abides_receive ctx method path reply (hok timeout reply) (hfail timeout reply)

end Abides

section Yields

variable {σ : Type} {world : Surroundings σ τ (Request τ) Reply} {s : σ} {post : σ → Prop}

/-- With logging that changes nothing that matters, a response yields what is taken from
it. The log entries of a failed request are the only effect of taking a response. -/
theorem yields_receive (c : Client τ) (ctx : RequestContext τ) (method : Method) (path : Text)
    (r : Response) (hlog : ∀ entry s, post s → post (world.log entry s)) (hs : post s) :
    Attempt.Yields world (c.receive ctx method path (.response r)) s (c.taken method path r) post := by
  -- The status is inspected first; that may itself fail, before anything is logged.
  have hfailure {e : Except Fault Bool} (h : r.isFailure = e) :
      Attempt.Yields world (liftM r.isFailure : Attempt τ (Request τ) Reply Bool) s e post := by
    rw [h]
    exact Attempt.yields_lift hs
  unfold receive taken
  cases h : r.isFailure with
  | error f => exact (hfailure h).bind_error
  | ok failed =>
    refine (hfailure h).bind fun s hs => ?_
    refine (Attempt.yields_log (hlog _ s hs)).bind fun s hs => ?_
    cases failed with
    | true => exact Attempt.yields_throw hs
    | false => exact Attempt.yields_lift hs

/-- In a context without an end that is not cancelled, a request is sent and its response
taken. Logging does not matter to the property that is carried along, so it may be any
that the scene's log leaves alone. -/
theorem yields_send (c : Client τ) {ctx : RequestContext τ} (hctx : ctx.deadline = .never)
    (method : Method) (path : Text) (body : Option Fields) {r : Response}
    (hcancelled : world.cancelled s = false)
    (hlog : ∀ entry s, post s → post (world.log entry s))
    (hreply : (world.call (c.request method path body c.timeout) s).1 = .response r)
    (hs : post (world.call (c.request method path body c.timeout) s).2) :
    Attempt.Yields world (c.send ctx method path body) s (c.taken method path r) post := by
  -- a context without an end lets every request go and gives it all the time
  have hcheck : Attempt.Yields world (ctx.check : Attempt τ (Request τ) Reply Unit) s (.ok ())
      (· = s) := RequestContext.yields_check hctx hcancelled rfl
  have htimeout : Attempt.Yields world
      (ctx.timeout (.ok c.timeout) : Attempt τ (Request τ) Reply τ) s (.ok c.timeout) (· = s) :=
    RequestContext.yields_timeout hctx _ rfl
  unfold send
  refine hcheck.bind fun s' hs' => ?_
  subst hs'
  refine htimeout.bind fun s'' hs'' => ?_
  subst hs''
  refine (Attempt.yields_call hs).bind fun s hs => ?_
  rw [hreply]
  exact c.yields_receive ctx method path r hlog hs

/-! ## Calls

A call is a request and what is read from the response to it. -/

/-- A service that can be written is sent as the body of its request, and the response is
read as the service that is there now. -/
theorem answer_create (c : Client τ) (ctx : RequestContext τ) {service : Service} {body : Fields}
    (hbody : service.manifest = .ok body) :
    c.answer ctx (.create service) = (do
      serviceOr service (← c.send ctx .post (collectionPath service.space) (some body))) := by
  simp only [answer, hbody]
  rfl

/-- The same of an update, to the place of the service. -/
theorem answer_update (c : Client τ) (ctx : RequestContext τ) {service : Service} {body : Fields}
    (hbody : service.manifest = .ok body) :
    c.answer ctx (.update service) = (do
      serviceOr service
        (← c.send ctx .put (servicePath service.space service.name) (some body))) := by
  simp only [answer, hbody]
  rfl

/-- Whatever a response to a write holds, if it can be read the write answers with a
service. -/
theorem serviceOr_eq_ok (sent : Service) {fields : Fields} {s : Service}
    (h : Service.ofManifest (.map fields) = .ok s) : ∃ s', serviceOr sent fields = .ok s' := by
  unfold serviceOr
  split
  · exact ⟨sent, rfl⟩
  · exact ⟨s, h⟩

omit [TimeScale τ] in
theorem missing_failure (c : Client τ) (space name : Value) (method : Method) (path : Text)
    (body detail : Value) :
    missing space name (c.failure method path (.int 404) body detail) = .notFound space name := by
  have hstatus : (Value.int 404).eqv Response.notFound = true := (Value.eqv_int 404 404).mpr rfl
  simp only [failure, missing, hstatus, if_true]

/-- The service a client finds in the response to a read. -/
def found (c : Client τ) (space name : Value) (r : Response) : Except Fault Service := do
  let fields ← (c.taken .get (servicePath space name) r).mapError (missing space name)
  Service.ofManifest (.map fields)

/-- A read yields what is found in its response, in a context without end. The request has
the client's own timeout, as no deadline makes it shorter. -/
theorem yields_read (c : Client τ) {ctx : RequestContext τ} (hctx : ctx.deadline = .never)
    {space name : Value} {r : Response} (hcancelled : world.cancelled s = false)
    (hlog : ∀ entry s, post s → post (world.log entry s))
    (hreply : (world.call (c.request .get (servicePath space name) none c.timeout) s).1 = .response r)
    (hs : post (world.call (c.request .get (servicePath space name) none c.timeout) s).2) :
    Attempt.Yields world (c.answer ctx (.read space name)) s (c.found space name r) post := by
  have hsend := (c.yields_send hctx .get (servicePath space name) none hcancelled hlog hreply
    hs).mapFault (missing space name)
  unfold found answer
  cases h : (c.taken .get (servicePath space name) r).mapError (missing space name) with
  | error f =>
    rw [h] at hsend
    exact hsend.bind_error
  | ok fields =>
    rw [h] at hsend
    exact hsend.bind fun s hs => Attempt.yields_lift hs

/-- A create yields what the response holds, or the service that was sent if it holds
nothing. -/
theorem yields_create (c : Client τ) {ctx : RequestContext τ} (hctx : ctx.deadline = .never)
    {service : Service} {body fields : Fields} {r : Response} (hcancelled : world.cancelled s = false)
    (hlog : ∀ entry s, post s → post (world.log entry s)) (hbody : service.manifest = .ok body)
    (hreply : (world.call (c.request .post (collectionPath service.space) (some body) c.timeout) s).1
      = .response r)
    (htaken : c.taken .post (collectionPath service.space) r = .ok fields)
    (hs : post (world.call (c.request .post (collectionPath service.space) (some body) c.timeout) s).2) :
    Attempt.Yields world (c.answer ctx (.create service)) s (serviceOr service fields) post := by
  have hsend := c.yields_send hctx .post (collectionPath service.space) (some body) hcancelled hlog
    hreply hs
  rw [htaken] at hsend
  rw [c.answer_create ctx hbody]
  exact hsend.bind fun s hs => Attempt.yields_lift hs

/-- The same of an update. -/
theorem yields_update (c : Client τ) {ctx : RequestContext τ} (hctx : ctx.deadline = .never)
    {service : Service} {body fields : Fields} {r : Response} (hcancelled : world.cancelled s = false)
    (hlog : ∀ entry s, post s → post (world.log entry s)) (hbody : service.manifest = .ok body)
    (hreply : (world.call
      (c.request .put (servicePath service.space service.name) (some body) c.timeout) s).1 = .response r)
    (htaken : c.taken .put (servicePath service.space service.name) r = .ok fields)
    (hs : post (world.call
      (c.request .put (servicePath service.space service.name) (some body) c.timeout) s).2) :
    Attempt.Yields world (c.answer ctx (.update service)) s (serviceOr service fields) post := by
  have hsend := c.yields_send hctx .put (servicePath service.space service.name) (some body)
    hcancelled hlog hreply hs
  rw [htaken] at hsend
  rw [c.answer_update ctx hbody]
  exact hsend.bind fun s hs => Attempt.yields_lift hs

end Yields

/-- The client of a control plane. -/
def sample : Client Seconds where
  baseUrl := "https://api:6443"
  timeout := .whole 30
  verify := .bool true
  headers := []

end Client

end Keeper
