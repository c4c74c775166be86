import Keeper.Proofs.CallProtocol
import Keeper.Proofs.Replies

/-!
# Keeper — the requests of a cycle

A cycle whose calls are made by a client sends requests, and what it sends follows from the replies it
has had. Of all the requests that could reach a store, few are ever sent.

* **`Requested`** — the requests of a cycle, each with the replies before it.
* **`Follows`** — how the requests that were sent follow the calls that were made.
* **`abides_answer`** — a call that is permitted is made by requests of the cycle.
* **`abides_requests`** — so a whole cycle sends no others, whatever is replied.
* **`requested_of_sending`** — the same for the requests of a run.
-/

namespace Keeper

open Http (Request Reply Response)

/-- A request and the reply to it. -/
abbrev RequestExchange (τ : Type) : Type := Request τ × Reply

/-- The requests of a cycle, each with the exchanges it has had before. It reads whenever
it wants and creates the desired service only while it has done nothing but read; it
updates after one read, and then the service that it has read and found drifted. -/
inductive Requested {τ : Type} (c : Client τ) (space : Value) (desired : Service) :
    List (RequestExchange τ) → Request τ → Prop where
  | read (es : List (RequestExchange τ)) (timeout : τ) :
    Requested c space desired es
      (c.request .get (Client.servicePath space desired.name) none timeout)
  | create (es : List (RequestExchange τ)) (timeout : τ) (body : Fields)
    (hreads : ∀ x ∈ es, x.1.method = .get) (hbody : desired.manifest = .ok body) :
    Requested c space desired es
      (c.request .post (Client.collectionPath desired.space) (some body) timeout)
  | update (timeout t : τ) (reply : Reply) (fields body : Fields) (current : Service)
    (hfields : reply.fields? = some fields) (hcurrent : Service.ofManifest (.map fields) = .ok current)
    (hdrift : (current.compare desired).changed = true)
    (hbody : (current.compare desired).patched.manifest = .ok body) :
    Requested c space desired
      [(c.request .get (Client.servicePath space desired.name) none t, reply)]
      (c.request .put (Client.servicePath current.space current.name) (some body) timeout)

section Follows

variable {τ : Type} {c : Client τ} {space : Value} {desired : Service}
  {es : List ServiceExchange} {es' : List (RequestExchange τ)}

/-- A cycle that has made no call has sent nothing; one that has found a service by its
first look has read it from the response to one request; and one that has done nothing but
look has sent nothing but reads. -/
structure Follows (c : Client τ) (space : Value) (desired : Service) (es : List ServiceExchange)
    (es' : List (RequestExchange τ)) : Prop where
  start : es = [] → es' = []
  found : ∀ s, es = [(.read space desired.name, .ok s)] → ∃ t reply fields,
    es' = [(c.request .get (Client.servicePath space desired.name) none t, reply)]
      ∧ reply.fields? = some fields ∧ Service.ofManifest (.map fields) = .ok s
  reads : (∀ x ∈ es, x.1 = .read space desired.name) → ∀ x ∈ es', x.1.method = .get

theorem Follows.nil : Follows c space desired [] [] := ⟨fun _ => rfl, nofun, nofun⟩

/-- A look that failed, and the reads that were sent for it. -/
theorem Follows.look_failed (h : Follows c space desired es es') (f : Fault)
    {more : List (RequestExchange τ)} (hmore : ∀ x ∈ more, x.1.method = .get) :
    Follows c space desired (es ++ [(.read space desired.name, .error f)]) (es' ++ more) where
  start := by simp
  found := fun s hs => by
    have hlast := congrArg List.getLast? hs
    simp at hlast
  reads := fun hlook x hx => by
    rcases List.mem_append.mp hx with hx | hx
    · exact h.reads (fun y hy => hlook y (List.mem_append_left _ hy)) x hx
    · exact hmore x hx

/-- A look that found something, and the response it was read from. An update may be sent
only after this, and is made from the fields of that very reply. -/
theorem Follows.look_found (h : Follows c space desired es es') {t : τ} {reply : Reply}
    {fields : Fields} {s : Service} (hfields : reply.fields? = some fields)
    (hs : Service.ofManifest (.map fields) = .ok s) :
    Follows c space desired (es ++ [(.read space desired.name, .ok s)])
      (es' ++ [(c.request .get (Client.servicePath space desired.name) none t, reply)]) where
  start := by simp
  -- The only service looked at so far is the one just found, so it was found by this very read.
  found := fun s' hs' => by
    obtain ⟨hes, hlast⟩ : es = [] ∧ s = s' := by simpa using List.append_eq_singleton_iff.mp hs'
    subst hlast
    exact ⟨t, reply, fields, by simp [h.start hes], hfields, hs⟩
  reads := fun hlook x hx => by
    rcases List.mem_append.mp hx with hx | hx
    · exact h.reads (fun y hy => hlook y (List.mem_append_left _ hy)) x hx
    · rw [List.mem_singleton.mp hx]
      rfl

/-- A write, whatever was sent for it. -/
theorem Follows.write {op : ServiceCall} (hop : op ≠ .read space desired.name)
    (es : List ServiceExchange) (answer : Except Fault Service) (es' : List (RequestExchange τ)) :
    Follows c space desired (es ++ [(op, answer)]) es' where
  start := by simp
  found := fun s hs => by
    have hmem : (op, answer) ∈ [(ServiceCall.read space desired.name, Except.ok s)] := by simp [← hs]
    exact absurd (Prod.mk.inj (List.mem_singleton.mp hmem)).1 hop
  reads := fun hlook => absurd (hlook (op, answer) (by simp)) hop

end Follows

/-! ## The requests for a call -/

section Answer

variable {τ : Type} [TimeScale τ] {c : Client τ} {space : Value} {desired : Service}
  {es : List ServiceExchange} {es' : List (RequestExchange τ)}

/-- A write is made by one request, which may be sent. -/
theorem abides_write (ctx : RequestContext τ) {method : Http.Method} {path : Text} {body : Fields}
    {op : ServiceCall} {service : Service} (hop : op ≠ .read space desired.name)
    (hrequested : ∀ timeout, Requested c space desired es' (c.request method path (some body) timeout)) :
    Attempt.Abides (Requested c space desired)
      (fun es' s => Follows c space desired (es ++ [(op, .ok s)]) es')
      (fun es' f => Follows c space desired (es ++ [(op, .error f)]) es')
      (do Client.serviceOr service (← c.send ctx method path (some body))) es' := by
  rw [Attempt.abides_bind]
  refine c.abides_send ctx method path (some body) hrequested (fun timeout reply fields _ => ?_)
    (fun f => .write hop es _ es') fun timeout reply f => .write hop es _ _
  refine (Attempt.abides_lift _).mpr ?_
  cases Client.serviceOr service fields with
  | ok s => exact .write hop es _ _
  | error f => exact .write hop es _ _

/-- Each call of the cycle keeps to the requests that are asked for. The invariant
`Follows` carries just enough of the calls over to the requests: what the first read has
found. -/
theorem abides_answer (ctx : RequestContext τ) {op : ServiceCall}
    (hop : Permitted (.read space desired.name) desired es op) (h : Follows c space desired es es') :
    Attempt.Abides (Requested c space desired)
      (fun es' s => Follows c space desired (es ++ [(op, .ok s)]) es')
      (fun es' f => Follows c space desired (es ++ [(op, .error f)]) es') (c.answer ctx op) es' := by
  cases hop with
  | look =>
    unfold Client.answer
    rw [Attempt.abides_bind, Attempt.abides_mapFault]
    -- a look is one read; what was read is a service or the look has failed
    refine c.abides_send ctx .get _ none (fun timeout => .read es' timeout)
      (fun timeout reply fields hfields => ?_) (fun f => ?_)
      fun timeout reply f => h.look_failed _ (by simp [Client.request])
    · refine (Attempt.abides_lift _).mpr ?_
      cases hread : Service.ofManifest (.map fields) with
      | ok s => exact h.look_found hfields hread
      | error f => exact h.look_failed f (by simp [Client.request])
    · simpa using h.look_failed (Client.missing space desired.name f)
        (List.forall_mem_nil fun x : RequestExchange τ => x.1.method = .get)
  | create notSpace notName =>
    -- a create follows a look, and looks send nothing but reads
    have hreads : ∀ x ∈ es', x.1.method = .get := h.reads (by simp)
    have hop : ServiceCall.create desired ≠ .read space desired.name := by simp
    cases hbody : desired.manifest with
    | error f =>
      have hanswer : c.answer ctx (.create desired) = throw f := by
        simp only [Client.answer, hbody]
        rfl
      rw [hanswer, Attempt.abides_throw]
      exact .write hop _ _ es'
    | ok body =>
      rw [c.answer_create ctx hbody]
      exact abides_write ctx hop fun timeout => .create es' timeout body hreads hbody
  | update current hdrift =>
    have hop : ServiceCall.update (current.compare desired).patched ≠ .read space desired.name := by simp
    cases hbody : (current.compare desired).patched.manifest with
    | error f =>
      have hanswer : c.answer ctx (.update (current.compare desired).patched) = throw f := by
        simp only [Client.answer, hbody]
        rfl
      rw [hanswer, Attempt.abides_throw]
      exact .write hop _ _ es'
    | ok body =>
      -- an update follows a look that found something, in the reply to its one read
      obtain ⟨t, reply, fields, rfl, hfields, hcurrent⟩ := h.found current rfl
      rw [c.answer_update ctx hbody]
      exact abides_write ctx hop fun timeout =>
        .update timeout t reply fields body current hfields hcurrent hdrift hbody

/-- **The requests of a cycle.** Whatever is replied, a cycle over a client sends only
requests that follow from the replies before them. -/
theorem abides_requests {e : Engine} {a : Assignment τ} {desired : Service}
    (hdesired : e.desired a = .ok desired) (c : Client τ) (ctx : RequestContext τ) :
    Program.Abides (Requested c a.space desired) (fun _ _ => True)
      ((reconcile e a).run.refine fun op => (c.answer ctx op).run) [] := by
  refine Program.abides_mono (Program.abides_refine (Follows c a.space desired) ?_ .nil
    (abides_reconcile hdesired)) fun _ _ _ => trivial
  intro es es' op hfollows hpermitted
  refine Program.abides_mono (abides_answer ctx hpermitted hfollows) fun es' r hr => ?_
  cases r with
  | ok s => exact hr
  | error f => exact hr

end Answer

/-- What is left of a cycle that sends requests. -/
abbrev Sending : Type := Program Seconds (Request Seconds) Reply (Except Fault Outcome)

/-- A cycle over a client. -/
def sending (e : Engine) (a : Assignment Seconds) (client : Client Seconds) : Sending :=
  (reconcile e a).run.refine fun op => (client.answer a.context op).run

section Sending

variable {e : Engine} {a : Assignment Seconds} {c : Client Seconds}

/-- A cycle without a desired service sends nothing. -/
theorem sending_unstarted {f : Fault} (hdesired : e.desired a = .error f) :
    sending e a c = .done (.error f) := by
  have hcycle : reconcile e a = throw f := by
    unfold reconcile drive driveFrom
    simp only [Stage.phase, Stage.next, hdesired]
    rfl
  unfold sending
  rw [hcycle]
  rfl

/-- Every request of a run is one of the cycle, after the exchanges before it. What a
cycle may send is thus known for every run and every world, whatever was replied. -/
theorem requested_of_sending {σ : Type} {world : Surroundings σ Seconds (Request Seconds) Reply} {s : σ}
    {before after : List (RequestExchange Seconds)} {request : Request Seconds} {reply : Reply}
    (hsplit : (sending e a c).exchanges world s = before ++ (request, reply) :: after) :
    ∃ desired, e.desired a = .ok desired ∧ Requested c a.space desired before request := by
  cases hdesired : e.desired a with
  | error f =>
    rw [sending_unstarted hdesired] at hsplit
    simp [Program.exchanges] at hsplit
  | ok desired =>
    have hrequested := Program.permits_of_abides (abides_requests hdesired c a.context) hsplit
    exact ⟨desired, rfl, by simpa using hrequested⟩

end Sending

end Keeper
