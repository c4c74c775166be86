import Keeper.Proofs.Course
import Keeper.Proofs.Replies
import Keeper.Proofs.Spans
import Mathlib.Data.List.Forall2

/-!
# Keeper — the course of a request

A client looks at its context before a request and asks it how long the request may take; only when
there is no response in time does it look once more.

* **`RequestContext.Allows`** — the time a context allows, by what it learns.
* **`Client.Receives`**, **`Client.Sends`** — what becomes of a reply, and of a request.
* **`Client.Answers`** — the course of a service call.
* **`Client.Handled`** — a call whose response was handled, and the request that was sent for it.
* **`forall₂_handled`** — the requests of a cycle that went on after each of its calls.
-/

namespace Keeper

open Http (Method Request Reply Response)

/-- What a client learns while it sends a request. -/
abbrev RequestEvent (τ : Type) : Type := Event τ (Request τ) Reply

namespace RequestContext

variable {τ ω ρ : Type} [TimeScale τ] {ctx : RequestContext τ} {h m : List (Event τ ω ρ)}

/-- Every time that is read in a history can be measured against the end of the
context. -/
def Measured (ctx : RequestContext τ) (h : List (Event τ ω ρ)) : Prop :=
  ∀ time now, ctx.deadline = .at time → .read now ∈ h → Measures time now

/-- What is measured in a history is so in a part of it. -/
theorem Measured.of_subset {h h' : List (Event τ ω ρ)} (hmeasured : ctx.Measured h')
    (hsubset : h ⊆ h') : ctx.Measured h :=
  fun time now hdeadline hread => hmeasured time now hdeadline (hsubset hread)

/-- The time a context allows, by what it learns. -/
inductive Allows (ctx : RequestContext τ) (span : τ) : List (Event τ ω ρ) → Except Fault τ → Prop where
  | endless (h : ctx.deadline = .never) : Allows ctx span [] (.ok span)
  | some (time now left : τ) (h : ctx.deadline = .at time) (hleft : TimeScale.sub time now = .ok left)
    (hsome : TimeScale.le (atLeastZero left) TimeScale.zero = false) :
    Allows ctx span [.read now] (.ok (atMost span (atLeastZero left)))
  | none (time now left : τ) (h : ctx.deadline = .at time) (hleft : TimeScale.sub time now = .ok left)
    (hnone : TimeScale.le (atLeastZero left) TimeScale.zero = true) :
    Allows ctx span [.read now] (.error (.halted .deadlineExceeded))
  | unmeasured (time now : τ) (f : Fault) (h : ctx.deadline = .at time)
    (hleft : TimeScale.sub time now = .error f) : Allows ctx span [.read now] (.error f)
  | malformed (given : Value) (now : τ) (h : ctx.deadline = .malformed given) :
    Allows ctx span [.read now] (.error (.misuse .wrongType))

/-- What is left until a time. -/
theorem remaining_of_unfolds {time : τ} (hdeadline : ctx.deadline = .at time)
    {result : Except Fault (Option τ)}
    (hremaining : (ctx.remaining : Attempt τ ω ρ (Option τ)).Unfolds h result) :
    ∃ now, h = [.read now]
      ∧ result = (TimeScale.sub time now).map fun left => Option.some (atLeastZero left) := by
  unfold remaining at hremaining
  rw [hdeadline] at hremaining
  obtain ⟨now, m, rfl, hleft⟩ := Attempt.unfolds_now_bind.mp hremaining
  refine ⟨now, ?_⟩
  -- The clock has been read either way; the subtraction may still fail.
  cases hsub : TimeScale.sub time now with
  | error f =>
    rw [hsub] at hleft
    obtain ⟨rfl, rfl⟩ := Attempt.unfolds_throw.mp hleft
    exact ⟨rfl, rfl⟩
  | ok left =>
    rw [hsub] at hleft
    obtain ⟨rfl, rfl⟩ := Attempt.unfolds_pure.mp hleft
    exact ⟨rfl, rfl⟩

/-- The time a context allows, by the cases of its deadline and of what is left. The clock
is read once for it, and not at all without a deadline. -/
theorem allows_of_unfolds {span : τ} {result : Except Fault τ}
    (htimeout : (ctx.timeout (.ok span) : Attempt τ ω ρ τ).Unfolds h result) :
    ctx.Allows span h result := by
  have hremaining := Attempt.unfolds_bind.mp htimeout
  cases hdeadline : ctx.deadline with
  -- Without a deadline the clock is not even read.
  | never =>
    simp only [remaining, hdeadline, Attempt.unfolds_pure] at hremaining
    obtain ⟨-, -, -, ⟨⟩⟩ | ⟨_, m, left, rfl, ⟨rfl, ⟨⟩⟩, hspan⟩ := hremaining
    obtain ⟨rfl, rfl⟩ := Attempt.unfolds_lift.mp hspan
    exact .endless hdeadline
  | malformed given =>
    simp only [remaining, hdeadline] at hremaining
    rcases hremaining with ⟨f, rfl, hfails⟩ | ⟨_, m, left, rfl, hfails, -⟩
    · obtain ⟨now, m, rfl, hthrown⟩ := Attempt.unfolds_now_bind.mp hfails
      obtain ⟨rfl, ⟨⟩⟩ := Attempt.unfolds_throw.mp hthrown
      exact .malformed given now hdeadline
    · obtain ⟨now, m, rfl, hthrown⟩ := Attempt.unfolds_now_bind.mp hfails
      obtain ⟨-, ⟨⟩⟩ := Attempt.unfolds_throw.mp hthrown
  | «at» time =>
    rcases hremaining with ⟨f, rfl, hfails⟩ | ⟨_, m, left?, rfl, hread, hspan⟩
    · obtain ⟨now, rfl, hleft⟩ := remaining_of_unfolds hdeadline hfails
      cases hsub : TimeScale.sub time now with
      | error f' =>
        rw [hsub] at hleft
        obtain rfl : f = f' := Except.error.inj hleft
        exact .unmeasured time now f hdeadline hsub
      | ok left =>
        rw [hsub] at hleft
        cases hleft
    · obtain ⟨now, rfl, hleft⟩ := remaining_of_unfolds hdeadline hread
      cases hsub : TimeScale.sub time now with
      | error f =>
        rw [hsub] at hleft
        cases hleft
      | ok left =>
        rw [hsub] at hleft
        obtain rfl : left? = .some (atLeastZero left) := Except.ok.inj hleft
        -- nothing or something is left
        dsimp only at hspan
        split at hspan
        next hnone =>
          obtain ⟨rfl, rfl⟩ := Attempt.unfolds_throw.mp hspan
          exact .none time now left hdeadline hsub hnone
        next hsome =>
          obtain ⟨rfl, rfl⟩ := Attempt.unfolds_pure.mp hspan
          exact .some time now left hdeadline hsub (by simpa using hsome)

namespace Allows

variable {span : τ}

theorem exchanges {result : Except Fault τ} (hallows : ctx.Allows span h result) :
    Event.exchanges h = [] := by
  cases hallows <;> rfl

/-- A request that may take some time is sent before the end. -/
theorem lasts (hmeasured : ctx.Measured h) {t : τ} (hallows : ctx.Allows span h (.ok t)) :
    ctx.Lasts h := by
  cases hallows with
  | endless hdeadline => exact lasts_nil
  | some time now left hdeadline hleft hsome =>
    have hearly : TimeScale.le time now ≠ true := fun hdue => by
      obtain ⟨left', hleft', hnone⟩ := hmeasured time now hdeadline (by simp) hdue
      obtain rfl : left = left' := Except.ok.inj (hleft.symm.trans hleft')
      exact Bool.noConfusion (hsome.symm.trans hnone)
    simp [hdeadline, hearly]

/-- At its end a context allows no time, and says why. -/
theorem halted (hmeasured : ctx.Measured h) {cause : Fault}
    (hallows : ctx.Allows span h (.error cause)) (hends : ¬ctx.Lasts h) :
    ∃ halt, cause = .halted halt := by
  cases hallows with
  | none => exact ⟨_, rfl⟩
  | unmeasured time now _ hdeadline hleft =>
    have hearly : TimeScale.le time now ≠ true := fun hdue => by
      obtain ⟨left, hleft', -⟩ := hmeasured time now hdeadline (by simp) hdue
      cases hleft.symm.trans hleft'
    exact absurd (by simp [hdeadline, hearly]) hends
  | malformed given now hdeadline => exact absurd (by simp [hdeadline]) hends

end Allows

end RequestContext

namespace Client

variable {τ : Type} [TimeScale τ] {c : Client τ} {ctx : RequestContext τ} {m : List (RequestEvent τ)}

/-! ## One request -/

/-- What becomes of a reply. A timeout that the context is to blame for is the
context's. -/
inductive Receives (c : Client τ) (ctx : RequestContext τ) (method : Method) (path : Text) :
    Reply → List (RequestEvent τ) → Except Fault Fields → Prop where
  | response (r : Response) : Receives c ctx method path (.response r) [] (c.taken method path r)
  | overdue (text : Text) {m : List (RequestEvent τ)} {cause : Fault}
    (hcheck : ctx.Checks m (.error cause)) :
    Receives c ctx method path (.timedOut text) m (.error cause)
  | timedOut (text : Text) {m : List (RequestEvent τ)} (hcheck : ctx.Checks m (.ok ())) :
    Receives c ctx method path (.timedOut text) m
      (.error (c.failure method path noStatus "" "timed out"))
  | failed (text : Text) :
    Receives c ctx method path (.failed text) [] (.error (c.failure method path noStatus "" text))
  | unwritable (obstacle : Json.Obstacle) :
    Receives c ctx method path (.unwritable obstacle) [] (.error obstacle.fault)

/-- What becomes of a request: it is not sent, or its reply is received. -/
inductive Sends (c : Client τ) (ctx : RequestContext τ) (method : Method) (path : Text)
    (body : Option Fields) : List (RequestEvent τ) → Except Fault Fields → Prop where
  | stopped {m : List (RequestEvent τ)} {cause : Fault} (hcheck : ctx.Checks m (.error cause)) :
    Sends c ctx method path body m (.error cause)
  | disallowed {m₁ m₂ : List (RequestEvent τ)} {cause : Fault} (hcheck : ctx.Checks m₁ (.ok ()))
    (hallows : ctx.Allows c.timeout m₂ (.error cause)) :
    Sends c ctx method path body (m₁ ++ m₂) (.error cause)
  | sent {m₁ m₂ m₃ : List (RequestEvent τ)} {t : τ} {reply : Reply} {result : Except Fault Fields}
    (hcheck : ctx.Checks m₁ (.ok ())) (hallows : ctx.Allows c.timeout m₂ (.ok t)) (raised : Bool)
    (hreceives : Receives c ctx method path reply m₃ result) :
    Sends c ctx method path body
      (m₁ ++ (m₂ ++ .call (c.request method path body t) reply raised :: m₃)) result

/-- What becomes of a reply, by its kind. Only a reply that was late looks at the context
again, to tell whose fault it was. -/
theorem receives_of_unfolds {method : Method} {path : Text} {reply : Reply}
    {result : Except Fault Fields}
    (hreceive : (c.receive ctx method path reply).Unfolds m result) :
    Receives c ctx method path reply m result := by
  cases reply with
  | response r =>
    have hresult : m = [] ∧ result = c.taken method path r := by
      unfold taken
      simp only [receive] at hreceive
      -- a response is logged and judged, which looks at nothing outside
      cases hfailure : r.isFailure with
      | error f =>
        rw [hfailure] at hreceive
        exact Attempt.unfolds_throw.mp hreceive
      | ok failed =>
        rw [hfailure] at hreceive
        have hlogged := Attempt.unfolds_log_bind.mp hreceive
        cases failed with
        | true => exact Attempt.unfolds_throw.mp hlogged
        | false => exact Attempt.unfolds_lift.mp hlogged
    obtain ⟨rfl, rfl⟩ := hresult
    exact .response r
  | timedOut text =>
    rcases Attempt.unfolds_bind.mp hreceive with ⟨f, rfl, hcheck⟩ | ⟨m₁, m₂, _, rfl, hcheck, hrest⟩
    · exact .overdue text (RequestContext.checks_of_unfolds hcheck)
    · obtain ⟨rfl, rfl⟩ := Attempt.unfolds_throw.mp (Attempt.unfolds_log_bind.mp hrest)
      rw [List.append_nil]
      exact .timedOut text (RequestContext.checks_of_unfolds hcheck)
  | failed text =>
    obtain ⟨rfl, rfl⟩ := Attempt.unfolds_throw.mp (Attempt.unfolds_log_bind.mp hreceive)
    exact .failed text
  | unwritable obstacle =>
    obtain ⟨rfl, rfl⟩ := Attempt.unfolds_throw.mp hreceive
    exact .unwritable obstacle

/-- A request has three gates: the check of the context, the time it allows, and the
sending itself. It goes through all of them or ends at one. -/
theorem sends_of_unfolds {method : Method} {path : Text} {body : Option Fields}
    {result : Except Fault Fields} (hsend : (c.send ctx method path body).Unfolds m result) :
    Sends c ctx method path body m result := by
  rcases Attempt.unfolds_bind.mp hsend with ⟨f, rfl, hcheck⟩ | ⟨m₁, m₂, _, rfl, hcheck, hrest⟩
  · exact .stopped (RequestContext.checks_of_unfolds hcheck)
  rcases Attempt.unfolds_bind.mp hrest with ⟨f, rfl, hallows⟩ | ⟨m₂, m₃, t, rfl, hallows, hcall⟩
  · exact .disallowed (RequestContext.checks_of_unfolds hcheck)
      (RequestContext.allows_of_unfolds hallows)
  · obtain ⟨reply, raised, m₃, rfl, hreceive⟩ := Attempt.unfolds_call_bind.mp hcall
    exact .sent (RequestContext.checks_of_unfolds hcheck) (RequestContext.allows_of_unfolds hallows)
      raised (receives_of_unfolds hreceive)

variable {method : Method} {path : Text} {body : Option Fields} {result : Except Fault Fields}

theorem Receives.exchanges {reply : Reply} (hreceives : Receives c ctx method path reply m result) :
    Event.exchanges m = [] := by
  cases hreceives with
  | overdue text hcheck => exact hcheck.exchanges
  | timedOut text hcheck => exact hcheck.exchanges
  | _ => rfl

theorem Receives.checks {text : Text} (hreceives : Receives c ctx method path (.timedOut text) m result) :
    ∃ r, ctx.Checks m r := by
  cases hreceives with
  | overdue _ hcheck => exact ⟨_, hcheck⟩
  | timedOut _ hcheck => exact ⟨_, hcheck⟩

/-- When its context ends, a request ends with it. -/
theorem Sends.halted (hsends : Sends c ctx method path body m result) (hmeasured : ctx.Measured m)
    (hends : ¬ctx.Lasts m) : ∃ halt, result = .error (.halted halt) := by
  cases hsends with
  | stopped hcheck =>
    rcases hcheck.ends with ⟨-, halt, rfl⟩ | ⟨hlasts, -⟩
    · exact ⟨halt, rfl⟩
    · exact absurd hlasts hends
  | disallowed hcheck hallows =>
    have hends : ¬ctx.Lasts _ := fun hlasts =>
      hends (RequestContext.lasts_append.mpr ⟨hcheck.lasts, hlasts⟩)
    obtain ⟨halt, rfl⟩ := hallows.halted (hmeasured.of_subset (by simp)) hends
    exact ⟨halt, rfl⟩
  | sent hcheck hallows raised hreceives =>
    have hbefore := hallows.lasts (hmeasured.of_subset (by simp))
    simp only [RequestContext.lasts_append, RequestContext.lasts_cons, hcheck.lasts, hbefore,
      RequestContext.not_ends_call, not_false_eq_true, true_and] at hends
    -- only when there was no response did it look again
    cases hreceives with
    | overdue text hcheck =>
      rcases hcheck.ends with ⟨-, halt, rfl⟩ | ⟨hlasts, -⟩
      · exact ⟨halt, rfl⟩
      · exact absurd hlasts hends
    | timedOut text hcheck => exact absurd hcheck.lasts hends
    | _ => exact absurd RequestContext.lasts_nil hends

/-- The one call that is made for a request comes after a look that let it go, and after a
time it was allowed. -/
theorem Sends.call_inv {n₁ n₂ : List (RequestEvent τ)} {request : Request τ} {reply : Reply}
    {raised : Bool}
    (hsends : Sends c ctx method path body (n₁ ++ .call request reply raised :: n₂) result) :
    ∃ m₁ m₂ t, n₁ = m₁ ++ m₂ ∧ ctx.Checks m₁ (.ok ()) ∧ ctx.Allows c.timeout m₂ (.ok t)
      ∧ request = c.request method path body t ∧ Receives c ctx method path reply n₂ result := by
  generalize hn : n₁ ++ .call request reply raised :: n₂ = n at hsends
  have hcalls : Event.exchanges n ≠ [] := by simp [← hn]
  -- Neither the check nor the timeout makes a request, so one that was made is the request itself.
  cases hsends with
  | stopped hcheck => exact absurd hcheck.exchanges hcalls
  | disallowed hcheck hallows => simp [hcheck.exchanges, hallows.exchanges] at hcalls
  | sent hcheck hallows raised' hreceives =>
    rw [← List.append_assoc] at hn
    obtain ⟨rfl, rfl, rfl, -, rfl⟩ := Event.call_unique hn.symm
      (by simp [hcheck.exchanges, hallows.exchanges]) hreceives.exchanges
    exact ⟨_, _, _, rfl, hcheck, hallows, rfl, hreceives⟩

/-! ## Calls

A call goes on when it answers with a service, or when it is a read that finds none; then its one
request had a response, which was handled. -/

/-- A failure that no response is to blame for. -/
inductive Unanswered (c : Client τ) (method : Method) (path : Text) : Fault → Prop where
  | halted (halt : Halt) : Unanswered c method path (.halted halt)
  | misuse (problem : Misuse) : Unanswered c method path (.misuse problem)
  | badValue (problem : BadValue) : Unanswered c method path (.badValue problem)
  | noResponse (detail : Value) : Unanswered c method path (c.failure method path noStatus "" detail)

omit [TimeScale τ] in
/-- It does not say that there is no such service. -/
theorem Unanswered.missing_eq {f : Fault} (hf : Unanswered c method path f) (space name : Value) :
    missing space name f = f := by
  cases hf with
  | noResponse detail =>
    have hstatus : ¬noStatus.eqv Response.notFound = true := fun h =>
      absurd ((Value.eqv_int 0 404).mp h) (by decide)
    simp only [failure, missing, hstatus, Bool.false_eq_true, if_false]
  | _ => rfl

end Client

/-- The call that writes a service: its method and path, and the service. -/
def ServiceCall.write? : ServiceCall → Option (Method × Text × Service)
  | .read _ _ => none
  | .create service => some (.post, Client.collectionPath service.space, service)
  | .update service => some (.put, Client.servicePath service.space service.name, service)

/-- The method of the request for a call. -/
def ServiceCall.method (op : ServiceCall) : Method := (op.write?.map Prod.fst).getD .get

/-- A cycle can go on after an exchange: there is a service, or a read has found none. -/
def GoesOn (x : ServiceExchange) : Prop :=
  (∃ service, x.2 = .ok service) ∨ ∃ space name space' name', x.1 = .read space name
    ∧ x.2 = .error (.notFound space' name')

namespace Client

variable {τ : Type} [TimeScale τ] {c : Client τ} {ctx : RequestContext τ} {m : List (RequestEvent τ)}

/-- The service that is stored, as the response to a write has it. -/
def stored (c : Client τ) (method : Method) (path : Text) (service : Service) (r : Response) :
    Except Fault Service := do
  serviceOr service (← c.taken method path r)

/-- The course of a service call. -/
inductive Answers (c : Client τ) (ctx : RequestContext τ) :
    ServiceCall → List (RequestEvent τ) → Except Fault Service → Prop where
  | read {space name : Value} {m : List (RequestEvent τ)} {result : Except Fault Fields}
    (hsends : Sends c ctx .get (servicePath space name) none m result) :
    Answers c ctx (.read space name) m (do
      let fields ← result.mapError (missing space name)
      Service.ofManifest (.map fields))
  | write {op : ServiceCall} {method : Method} {path : Text} {service : Service} {body : Fields}
    {m : List (RequestEvent τ)} {result : Except Fault Fields}
    (hop : op.write? = some (method, path, service)) (hbody : service.manifest = .ok body)
    (hsends : Sends c ctx method path (some body) m result) :
    Answers c ctx op m (do serviceOr service (← result))
  | unwritten {op : ServiceCall} {method : Method} {path : Text} {service : Service} {f : Fault}
    (hop : op.write? = some (method, path, service)) (hbody : service.manifest = .error f) :
    Answers c ctx op [] (.error f)

/-- A call of the cycle is one request, or none if the service cannot be written or the
context does not allow it. -/
theorem answers_of_unfolds {op : ServiceCall} {answer : Except Fault Service}
    (hanswer : (c.answer ctx op).Unfolds m answer) : Answers c ctx op m answer := by
  have hwrite {method : Method} {path : Text} {service : Service}
      (hop : op.write? = some (method, path, service))
      (hanswer : Attempt.Unfolds (do
        let body ← service.manifest
        serviceOr service (← c.send ctx method path (some body))) m answer) :
      Answers c ctx op m answer := by
    -- a create and an update are written first, and a service that cannot be written is never sent
    cases hbody : service.manifest with
    | error f =>
      rw [hbody] at hanswer
      obtain ⟨rfl, rfl⟩ := Attempt.unfolds_throw.mp hanswer
      exact .unwritten hop hbody
    | ok body =>
      have hanswer : Attempt.Unfolds (do serviceOr service (← c.send ctx method path (some body))) m
          answer := by
        rw [hbody] at hanswer
        exact hanswer
      rcases Attempt.unfolds_bind.mp hanswer with ⟨f, rfl, hsend⟩ | ⟨m, m', fields, rfl, hsend, hrest⟩
      · exact .write hop hbody (sends_of_unfolds hsend)
      · obtain ⟨rfl, rfl⟩ := Attempt.unfolds_lift.mp hrest
        rw [List.append_nil]
        exact .write hop hbody (sends_of_unfolds hsend)
  cases op with
  | create service => exact hwrite rfl hanswer
  | update service => exact hwrite rfl hanswer
  -- A read has no body; what it does otherwise is to look at the failure for a missing service.
  | read space name =>
    rcases Attempt.unfolds_bind.mp hanswer with ⟨f, rfl, hsend⟩ | ⟨m, m', fields, rfl, hsend, hrest⟩
    · obtain ⟨r, hr, hsend⟩ := Attempt.unfolds_mapFault.mp hsend
      have hread : Answers c ctx (.read space name) m _ := .read (sends_of_unfolds hsend)
      rwa [← hr] at hread
    · obtain ⟨r, hr, hsend⟩ := Attempt.unfolds_mapFault.mp hsend
      obtain ⟨rfl, rfl⟩ := Attempt.unfolds_lift.mp hrest
      have hread : Answers c ctx (.read space name) m _ := .read (sends_of_unfolds hsend)
      rw [List.append_nil]
      rwa [← hr] at hread

/-- The same of a call: whatever it is, its request was sent after a check and with a
timeout that was allowed. -/
theorem Answers.call_inv {op : ServiceCall} {answer : Except Fault Service}
    {n₁ n₂ : List (RequestEvent τ)} {request : Request τ} {reply : Reply} {raised : Bool}
    (hanswers : Answers c ctx op (n₁ ++ .call request reply raised :: n₂) answer) :
    ∃ m₁ m₂ t path result, n₁ = m₁ ++ m₂ ∧ ctx.Checks m₁ (.ok ())
      ∧ ctx.Allows c.timeout m₂ (.ok t) ∧ request.method = op.method
      ∧ Receives c ctx op.method path reply n₂ result := by
  generalize hn : n₁ ++ .call request reply raised :: n₂ = n at hanswers
  cases hanswers with
  | read hsends =>
    subst hn
    obtain ⟨m₁, m₂, t, hsplit, hcheck, hallows, rfl, hreceives⟩ := hsends.call_inv
    exact ⟨m₁, m₂, t, _, _, hsplit, hcheck, hallows, rfl, hreceives⟩
  | @write _ method path service body _ _ hop hbody hsends =>
    subst hn
    obtain ⟨m₁, m₂, t, hsplit, hcheck, hallows, rfl, hreceives⟩ := hsends.call_inv
    have hmethod : op.method = method := by simp [ServiceCall.method, hop]
    rw [hmethod]
    exact ⟨m₁, m₂, t, _, _, hsplit, hcheck, hallows, rfl, hreceives⟩
  | unwritten => simp at hn

theorem Answers.sole {op : ServiceCall} {answer : Except Fault Service} {x : Request τ × Reply}
    {xs : List (Request τ × Reply)} (hanswers : Answers c ctx op m answer)
    (hm : Event.exchanges m = x :: xs) : xs = [] := by
  obtain ⟨n₁, raised, n₂, rfl⟩ := Event.split_of_exchanges hm
  obtain ⟨m₁, m₂, t, _, _, rfl, hcheck, hallows, -, hreceives⟩ := hanswers.call_inv
  simpa [hcheck.exchanges, hallows.exchanges, hreceives.exchanges] using hm

/-- When its context ends, a call ends with it. -/
theorem Answers.halted {op : ServiceCall} {answer : Except Fault Service}
    (hanswers : Answers c ctx op m answer) (hmeasured : ctx.Measured m) (hends : ¬ctx.Lasts m) :
    ∃ halt, answer = .error (.halted halt) := by
  cases hanswers with
  | read hsends =>
    obtain ⟨halt, rfl⟩ := hsends.halted hmeasured hends
    exact ⟨halt, rfl⟩
  | write hop hbody hsends =>
    obtain ⟨halt, rfl⟩ := hsends.halted hmeasured hends
    exact ⟨halt, rfl⟩
  | unwritten => exact absurd RequestContext.lasts_nil hends

/-- A call whose response was handled, and the request that was sent for it. -/
inductive Handled (c : Client τ) : ServiceExchange → Request τ × Reply → Prop where
  | read {space name : Value} {t : τ} {r : Response} {answer : Except Fault Service}
    (hfound : c.found space name r = answer) :
    Handled c (.read space name, answer)
      (c.request .get (servicePath space name) none t, .response r)
  | write {op : ServiceCall} {method : Method} {path : Text} {service : Service} {body : Fields}
    {t : τ} {r : Response} {answer : Except Fault Service}
    (hop : op.write? = some (method, path, service)) (hbody : service.manifest = .ok body)
    (hstored : c.stored method path service r = answer) :
    Handled c (op, answer) (c.request method path (some body) t, .response r)

/-- A call that had a response has handled it: what it answers depends on the response
alone, and on nothing that the context or the clock have shown. -/
theorem Answers.handled_of_response {op : ServiceCall} {answer : Except Fault Service}
    {request : Request τ} {r : Response} (hanswers : Answers c ctx op m answer)
    (hm : Event.exchanges m = [(request, .response r)]) :
    Handled c (op, answer) (request, .response r) := by
  -- The one request of the answer is the client's own, and its response is what the result is made of.
  have hsent {method : Method} {path : Text} {body : Option Fields} {result : Except Fault Fields}
      (hsends : Sends c ctx method path body m result) :
      (∃ t, request = c.request method path body t) ∧ result = c.taken method path r := by
    cases hsends with
    | stopped hcheck => simp [hcheck.exchanges] at hm
    | disallowed hcheck hallows => simp [hcheck.exchanges, hallows.exchanges] at hm
    | @sent _ _ _ t reply _ hcheck hallows raised hreceives =>
      obtain ⟨rfl, rfl⟩ : c.request method path body t = request ∧ reply = .response r := by
        simpa [hcheck.exchanges, hallows.exchanges, hreceives.exchanges] using hm
      cases hreceives
      exact ⟨⟨t, rfl⟩, rfl⟩
  cases hanswers with
  | read hsends =>
    obtain ⟨⟨t, rfl⟩, rfl⟩ := hsent hsends
    exact .read rfl
  | write hop hbody hsends =>
    obtain ⟨⟨t, rfl⟩, rfl⟩ := hsent hsends
    exact .write hop hbody rfl
  | unwritten => simp at hm

end Client

/-! ## In seconds

A span of seconds that cannot be measured is too large for a fraction. -/

/-- A number of seconds that cannot be made a fraction is a misuse: it is too large for
one. -/
theorem Seconds.misuse_of_toFraction {a : Seconds} {f : Fault} (h : a.toFraction = .error f) :
    ∃ problem, f = .misuse problem := by
  cases a with
  | fraction x => cases h
  | whole n =>
    simp only [toFraction] at h
    rcases Value.fractionOfInteger_cases n with hok | ⟨-, hlarge⟩
    · cases hok.symm.trans h
    · exact ⟨_, Except.error.inj (h.symm.trans hlarge)⟩

/-- A subtraction of times fails only for what cannot be made a fraction, which is a
misuse and no end of the context. -/
theorem Seconds.misuse_of_sub {a b : Seconds} {f : Fault} (h : TimeScale.sub a b = .error f) :
    ∃ problem, f = .misuse problem := by
  have hmixed (h : (do return .fraction (Binary64.sub (← a.toFraction) (← b.toFraction)) :
      Except Fault Seconds) = .error f) : ∃ problem, f = .misuse problem := by
    cases ha : a.toFraction with
    | error f' =>
      rw [ha] at h
      obtain rfl : f' = f := Except.error.inj h
      exact misuse_of_toFraction ha
    | ok x =>
      cases hb : b.toFraction with
      | error f' =>
        rw [ha, hb] at h
        obtain rfl : f' = f := Except.error.inj h
        exact misuse_of_toFraction hb
      | ok y =>
        rw [ha, hb] at h
        cases h
  -- Only two whole numbers are subtracted without going through fractions, and then nothing fails.
  cases a with
  | fraction x => exact hmixed h
  | whole m =>
    cases b with
    | fraction y => exact hmixed h
    | whole n => simp [TimeScale.sub, sub, combine] at h

namespace Client

variable {c : Client Seconds} {ctx : RequestContext Seconds} {m : List (RequestEvent Seconds)}

/-- A request either had a response or failed for want of one. In the second case it may
not have been sent at all, or its reply may be lost; which of them it was cannot be told
from the failure. -/
theorem Sends.response_or {method : Method} {path : Text} {body : Option Fields}
    {result : Except Fault Fields} (hsends : Sends c ctx method path body m result) :
    (∃ request r, Event.exchanges m = [(request, .response r)])
      ∨ ∃ f, result = .error f ∧ Unanswered c method path f := by
  have hstops {cause : Fault} (hstops : ctx.Stops cause) : Unanswered c method path cause := by
    cases hstops with
    | malformed => exact .misuse _
    | _ => exact .halted _
  -- the three gates in their order, and behind them the reply
  cases hsends with
  | stopped hcheck => exact .inr ⟨_, rfl, hstops hcheck.stops⟩
  | disallowed hcheck hallows =>
    refine .inr ⟨_, rfl, ?_⟩
    cases hallows with
    | none => exact .halted _
    | malformed => exact .misuse _
    | unmeasured time now _ hdeadline hleft =>
      obtain ⟨problem, rfl⟩ := Seconds.misuse_of_sub hleft
      exact .misuse problem
  | sent hcheck hallows raised hreceives =>
    cases hreceives with
    | response r => exact .inl ⟨_, r, by simp [hcheck.exchanges, hallows.exchanges]; rfl⟩
    | overdue text hcheck => exact .inr ⟨_, rfl, hstops hcheck.stops⟩
    | timedOut text hcheck => exact .inr ⟨_, rfl, .noResponse _⟩
    | failed text => exact .inr ⟨_, rfl, .noResponse _⟩
    | unwritable obstacle =>
      refine .inr ⟨_, rfl, ?_⟩
      cases obstacle with
      | unknownKind => exact .misuse _
      | tooManyDigits => exact .badValue _

/-- A cycle that goes on after a call has had one response for it, and handled it. This
takes what is known of a cycle's calls over to its requests. -/
theorem Answers.handled {op : ServiceCall} {answer : Except Fault Service}
    (hanswers : Answers c ctx op m answer) (hgoes : GoesOn (op, answer)) :
    ∃ x, Event.exchanges m = [x] ∧ Handled c (op, answer) x := by
  suffices h : ∃ request r, Event.exchanges m = [(request, .response r)] by
    obtain ⟨request, r, hm⟩ := h
    exact ⟨_, hm, hanswers.handled_of_response hm⟩
  -- a call that goes on has had a response; the other ways to end would have stopped the cycle
  cases hanswers with
  | @read space name _ result hsends =>
    rcases hsends.response_or with hresponse | ⟨f, rfl, hunanswered⟩
    · exact hresponse
    · -- a read that had no response does not say that there is nothing
      have hanswer : (do
          let fields ← (Except.error f : Except Fault Fields).mapError (missing space name)
          Service.ofManifest (.map fields)) = .error f :=
        congrArg Except.error (hunanswered.missing_eq space name)
      rw [hanswer] at hgoes
      obtain ⟨service, ⟨⟩⟩ | ⟨_, _, _, _, _, hnotFound⟩ := hgoes
      cases Except.error.inj hnotFound
      cases hunanswered
  | write hop hbody hsends =>
    rcases hsends.response_or with hresponse | ⟨f, rfl, -⟩
    · exact hresponse
    · obtain ⟨service, ⟨⟩⟩ | ⟨_, _, _, _, rfl, _⟩ := hgoes
      cases hop
  | unwritten hop hbody =>
    obtain ⟨service, ⟨⟩⟩ | ⟨_, _, _, _, rfl, _⟩ := hgoes
    cases hop

/-! ## The requests of a cycle -/

/-- How a client makes the calls of a cycle. -/
abbrev calling (c : Client Seconds) (ctx : RequestContext Seconds) (op : ServiceCall) :
    Program Seconds (Request Seconds) Reply (Except Fault Service) := (c.answer ctx op).run

variable {h : List (ServiceEvent Seconds)} {h' : List (RequestEvent Seconds)}

/-- A cycle that has gone on after each of its calls has sent one request for each and had
a response to it. -/
theorem forall₂_handled (hrefines : Program.Refines (c.calling ctx) h h')
    (hgoes : ∀ x ∈ Event.exchanges h, GoesOn x) :
    List.Forall₂ (Handled c) (Event.exchanges h) (Event.exchanges h') := by
  induction hrefines with
  | nil => exact .nil
  | look b _ ih => exact ih hgoes
  | read t _ ih => exact ih hgoes
  | call op answer raised hcall _ ih =>
    simp only [Event.exchanges_call, List.forall_mem_cons] at hgoes
    obtain ⟨x, hx, hhandled⟩ := (answers_of_unfolds hcall).handled hgoes.1
    rw [Event.exchanges_call, Event.exchanges_append, hx]
    exact .cons hhandled (ih hgoes.2)

/-- A context that lasts as a cycle sees it, and that its calls have not seen end, lasts.
The cycle's own history leaves out what its calls have read; those that went on have read
nothing that would end it. -/
theorem lasts_of_refines (hrefines : Program.Refines (c.calling ctx) h h')
    (hgoes : ∀ x ∈ Event.exchanges h, GoesOn x) (hlasts : ctx.Lasts h) (hmeasured : ctx.Measured h') :
    ctx.Lasts h' := by
  induction hrefines with
  | nil => exact RequestContext.lasts_nil
  | look b _ ih =>
    obtain ⟨hlook, hlasts⟩ := RequestContext.lasts_cons.mp hlasts
    exact RequestContext.lasts_cons.mpr
      ⟨by simpa using hlook, ih hgoes hlasts (hmeasured.of_subset (by simp))⟩
  | read t _ ih =>
    obtain ⟨hread, hlasts⟩ := RequestContext.lasts_cons.mp hlasts
    exact RequestContext.lasts_cons.mpr
      ⟨by simpa using hread, ih hgoes hlasts (hmeasured.of_subset (by simp))⟩
  | call op answer raised hcall _ ih =>
    simp only [Event.exchanges_call, List.forall_mem_cons] at hgoes
    obtain ⟨-, hlasts⟩ := RequestContext.lasts_cons.mp hlasts
    refine RequestContext.lasts_append.mpr
      ⟨?_, ih hgoes.2 hlasts (hmeasured.of_subset (by simp))⟩
    -- a call that saw the end would not have gone on
    refine Classical.byContradiction fun hends => ?_
    obtain ⟨halt, rfl⟩ :=
      (answers_of_unfolds hcall).halted (hmeasured.of_subset (by simp)) hends
    obtain ⟨service, ⟨⟩⟩ | ⟨_, _, _, _, _, ⟨⟩⟩ := hgoes.1

end Client

end Keeper
