import Keeper.Proofs.FailureReport
import Keeper.Proofs.Requests
import Keeper.Proofs.Transmission
import Mathlib.Data.List.Induction

/-!
# Keeper — nothing is sent once a context is over

A context is over when it has been cancelled or when a clock reading was at or past its deadline. A
cycle over a client looks at it so often that no request is sent after that, and says so.

* **`RequestContext.Over`** — a context is over, as a history tells.
* **`Orderly`** — before each call of a cycle its context has lasted, and the calls before were answered.
* **`Due`** — the request that is due in a phase, by the responses before it.
* **`FailsAt.cut`** — a cycle whose context is over fails in the phase whose request was due.
* **`StopsInTime`**, **`cycle_stops_in_time`** — so it is for cycles and for plans.
-/

namespace Keeper

open Http (Request Reply Response)

namespace RequestContext

variable {τ ω ρ : Type} [TimeScale τ] {ctx : RequestContext τ} {cancelled : Bool}
  {h m : List (Event τ ω ρ)}

/-- A context is over, as a history tells: its flag is up by now, or something showed its
end. -/
def Over (ctx : RequestContext τ) (cancelled : Bool) (h : List (Event τ ω ρ)) : Prop :=
  Event.flag cancelled h = true ∨ ¬ctx.Lasts h

theorem Checks.looks {result : Except Fault Unit} (hcheck : ctx.Checks m result) :
    ∃ b rest, m = .look b :: rest ∧ (result = .ok () → b = false) := by
  cases hcheck with
  | cancelled => exact ⟨_, _, rfl, nofun⟩
  | _ => exact ⟨_, _, rfl, fun _ => rfl⟩

/-- A context is not over when it has just let a program go on. The flag was seen down and
the clock before the deadline, and nothing was exchanged since, which is the only thing
that could raise the flag. -/
theorem Checks.not_over {after : List (Event τ ω ρ)} (hcheck : ctx.Checks m (.ok ()))
    (hsteady : Event.Steady cancelled (h ++ (m ++ after))) (hafter : Event.exchanges after = [])
    (hlasts : ctx.Lasts h) (hlasts' : ctx.Lasts after) : ¬ctx.Over cancelled (h ++ (m ++ after)) := by
  obtain ⟨b, rest, rfl, hdown⟩ := hcheck.looks
  have hflag : Event.flag cancelled h = false := by
    rw [← hdown rfl]
    exact (Event.Steady.look_eq hsteady).symm
  -- the look has shown that the flag was down, and nothing has been called since
  have hflag' : Event.flag cancelled (h ++ (.look b :: rest ++ after)) = false := by
    have hcalls := hcheck.exchanges
    rw [Event.flag_append, hflag, Event.flag_of_uncalled]
    simpa [hafter] using hcalls
  rintro (hraised | hends)
  · exact Bool.noConfusion (hflag'.symm.trans hraised)
  · exact hends (lasts_append.mpr ⟨hlasts, lasts_append.mpr ⟨hcheck.lasts, hlasts'⟩⟩)

/-- When a context that had lasted is over, the next look shows it. -/
theorem not_lasts_of_over {b : Bool} (hover : ctx.Over cancelled (h ++ .look b :: m))
    (hsteady : Event.Steady cancelled (h ++ .look b :: m)) (hlasts : ctx.Lasts h)
    (hcalls : Event.exchanges m = []) : ¬ctx.Lasts (.look b :: m) := by
  intro hlater
  rcases hover with hraised | hends
  · rw [Event.flag_append, Event.flag_of_uncalled (by simpa using hcalls), ← hsteady.look_eq] at hraised
    simp [hraised] at hlater
  · exact hends (lasts_append.mpr ⟨hlasts, hlater⟩)

end RequestContext

/-! ## Before a call

A cycle that makes a call has made the calls before it in order, and its context has lasted. -/

/-- A cycle that makes a call has had only answers with which it goes on. -/
theorem Calls.goesOn {space name : Value} {desired : Service} {phase : Phase} {op : ServiceCall}
    {es : List ServiceExchange} (hcalls : Calls (.read space name) desired phase op es) :
    ∀ x ∈ es, GoesOn x := by
  cases hcalls <;> simp [GoesOn]

/-- The first call of a cycle is the look for the service; every other one comes after
another. -/
theorem Calls.concat_inv {look op : ServiceCall} {desired : Service} {phase : Phase}
    {es : List ServiceExchange} (hcalls : Calls look desired phase op es) :
    es = [] ∨ ∃ phase' op' es' answer, es = es' ++ [(op', answer)] ∧ Calls look desired phase' op' es' := by
  cases hcalls with
  | reading => exact .inl rfl
  | creating space name => exact .inr ⟨_, _, [], _, rfl, .reading⟩
  | writing current hdrift => exact .inr ⟨_, _, [], _, rfl, .reading⟩
  | confirmingCreated space name sent => exact .inr ⟨_, _, [_], _, rfl, .creating space name⟩
  | confirmingUpdated current sent hdrift => exact .inr ⟨_, _, [_], _, rfl, .writing current hdrift⟩

/-- The calls before the call of a phase are the calls of earlier phases. Induction on the
calls that come later, from the last one back. -/
theorem Calls.of_split {look op op' : ServiceCall} {desired : Service} {phase : Phase}
    {es before after : List ServiceExchange} {answer answer' : Except Fault Service}
    (hcalls : Calls look desired phase op es)
    (hsplit : before ++ (op', answer') :: after = es ++ [(op, answer)]) :
    ∃ phase', Calls look desired phase' op' before := by
  -- the induction takes the last exchange off, since the phases tell what came before a call
  induction after using List.reverseRecOn generalizing phase op es answer with
  | nil =>
    obtain ⟨rfl, hlast⟩ := List.append_inj' hsplit rfl
    obtain ⟨rfl, -⟩ : op' = op ∧ answer' = answer := by simpa using hlast
    exact ⟨phase, hcalls⟩
  | append_singleton after x ih =>
    rw [← List.cons_append, ← List.append_assoc] at hsplit
    obtain ⟨hes, -⟩ := List.append_inj' hsplit rfl
    rcases hcalls.concat_inv with rfl | ⟨phase₁, op₁, es₁, answer₁, rfl, hcalls₁⟩
    · simp at hes
    · exact ih hcalls₁ hes

/-- Before each call of a cycle its context has lasted, and the call is that of a
phase. -/
def Orderly {τ : Type} [TimeScale τ] (a : Assignment τ) (desired : Service)
    (h : List (ServiceEvent τ)) : Prop :=
  ∀ before op answer raised after, h = before ++ .call op answer raised :: after →
    a.context.Lasts before
      ∧ ∃ phase, Calls (.read a.space desired.name) desired phase op (Event.exchanges before)

section Orders

variable {τ : Type} [TimeScale τ] {a : Assignment τ} {desired : Service}
  {h m : List (ServiceEvent τ)}

/-- A history is orderly if its context has lasted up to its last call, and that is the
call of a phase. -/
theorem orderly_of_prefix (answer : Except Fault Service) (hlasts : a.context.Lasts h)
    (hm : Event.exchanges m = []) {phase : Phase} {op : ServiceCall} {es : List ServiceExchange}
    (hcalls : Calls (.read a.space desired.name) desired phase op es)
    (hbegins : Event.exchanges h <+: es ++ [(op, answer)]) : Orderly a desired (h ++ m) := by
  intro before op' answer' raised after hsplit
  -- the call is not among what comes last
  obtain ⟨after', rfl⟩ : ∃ after', h = before ++ .call op' answer' raised :: after' := by
    rcases List.append_eq_append_iff.mp hsplit with ⟨rest, -, hrest⟩ | ⟨rest, rfl, hrest⟩
    · rw [hrest] at hm
      simp at hm
    · cases rest with
      | nil =>
        rw [← List.nil_append m, ← hrest] at hm
        simp at hm
      | cons e rest =>
        obtain ⟨rfl, -⟩ := List.cons.inj hrest
        exact ⟨rest, rfl⟩
  obtain ⟨later, hlater⟩ := hbegins
  have hcalled : Event.exchanges before ++ (op', answer') :: (Event.exchanges after' ++ later)
      = es ++ [(op, answer)] := by simpa using hlater
  exact ⟨(RequestContext.lasts_append.mp hlasts).1, hcalls.of_split hcalled⟩

/-- A cycle that is complete has ended with the call of one of its phases. -/
theorem Completes.last_call {look : ServiceCall} {es : List ServiceExchange} {outcome : Outcome}
    (hcompletes : Completes look desired es outcome) :
    ∃ phase op es' answer, es = es' ++ [(op, answer)] ∧ Calls look desired phase op es' := by
  cases hcompletes with
  | unchanged current hsame => exact ⟨_, _, [], _, rfl, .reading⟩
  | created space name sent state => exact ⟨_, _, [_, _], _, rfl, .confirmingCreated space name sent⟩
  | updated current sent state hdrift =>
    exact ⟨_, _, [_, _], _, rfl, .confirmingUpdated current sent hdrift⟩

theorem Plans.last_call {look : ServiceCall} {es : List ServiceExchange} {p : Plan}
    (hplans : Plans look desired es p) : ∃ answer, es = [(look, answer)] := by
  cases hplans <;> exact ⟨_, rfl⟩

/-- A cycle that fails has been in order up to then: before each call its context has
lasted. -/
theorem FailsAt.orderly {phase : Phase} {cause : Fault} (hfails : FailsAt a desired phase h cause) :
    Orderly a desired h := by
  cases hfails with
  | stopped hcalls hlasts hcheck =>
    exact orderly_of_prefix (.ok desired) hlasts hcheck.exchanges hcalls
      (List.prefix_append _ _)
  | @refused op h m cause hcalls hlasts hcheck raised hcause =>
    have horderly := orderly_of_prefix (a := a) (h := h ++ (m ++ [.call op (.error cause) raised]))
      (m := []) (.error cause) (by simp [hlasts, hcheck.lasts]) rfl hcalls
      (by simp [hcheck.exchanges])
    rwa [List.append_nil] at horderly

/-- Every cycle is in order, whether it completes or fails: each call follows on a check
that let it through, and the calls are those of `Calls` for their phase. -/
theorem orderly_of_reconcile {e : Engine} (hdesired : e.desired a = .ok desired)
    {result : Except Fault Outcome} (hcycle : (reconcile e a).Unfolds h result) :
    Orderly a desired h := by
  have hends := unfolds_reconcile hdesired hcycle
  -- a failure says itself that it was in order; an outcome is in order up to its last call
  cases result with
  | error f =>
    obtain ⟨phase, cause, hfails, -⟩ := hends
    exact hfails.orderly
  | ok outcome =>
    obtain ⟨hcompletes, hlasts⟩ := hends
    obtain ⟨phase, op, es, answer, hes, hcalls⟩ := hcompletes.last_call
    have horderly := orderly_of_prefix (m := []) answer hlasts rfl hcalls
      (by simp [hes])
    rwa [List.append_nil] at horderly

/-- So is every plan: its one call is the first of a cycle, in the phase `reading`. -/
theorem orderly_of_plan {e : Engine} (hdesired : e.desired a = .ok desired)
    {result : Except Fault Plan} (hplan : (plan e a).Unfolds h result) : Orderly a desired h := by
  have hends := unfolds_plan hdesired hplan
  -- the same two ways, with the one call that a plan makes
  cases result with
  | error f =>
    obtain ⟨cause, hfails, -⟩ := hends
    exact hfails.orderly
  | ok p =>
    obtain ⟨hplans, hlasts⟩ := hends
    obtain ⟨answer, hes⟩ := hplans.last_call
    have horderly : Orderly a desired (h ++ []) :=
      orderly_of_prefix answer hlasts rfl .reading (by rw [hes]; exact List.prefix_refl _)
    rwa [List.append_nil] at horderly

end Orders

section Requests

variable {a : Assignment Seconds} {desired : Service} {c : Client Seconds}
  {h : List (ServiceEvent Seconds)} {h' : List (RequestEvent Seconds)} {cancelled : Bool}

/-- **Nothing is sent once the context is over.** A request is sent for a call before
which the context had lasted, and after two more looks at it. -/
theorem Orderly.unsent (horderly : Orderly a desired h)
    (hrefines : Program.Refines (c.calling a.context) h h') (hsteady : Event.Steady cancelled h')
    (hmeasured : a.context.Measured h') {before after : List (RequestEvent Seconds)}
    {request : Request Seconds} {reply : Reply} {raised : Bool}
    (hsplit : h' = before ++ .call request reply raised :: after) :
    ¬a.context.Over cancelled before := by
  obtain ⟨before₀, op, answer, raised₀, after₀, sent, m₁, m₂, hh, hbefore, hcall, rfl⟩ :=
    hrefines.split hsplit
  obtain ⟨hlasts, phase, hcalls⟩ := horderly before₀ op answer raised₀ after₀ hh
  subst hsplit
  -- up to this call the context has lasted
  have hlasts' := Client.lasts_of_refines hbefore hcalls.goesOn hlasts
    (hmeasured.of_subset (by intro e he; simp [he]))
  -- and for this call it was looked at, and asked for a time
  obtain ⟨n₁, n₂, t, -, -, rfl, hcheck, hallows, -⟩ := (Client.answers_of_unfolds hcall).call_inv
  have hallowed := hallows.lasts (hmeasured.of_subset (by intro e he; simp [he]))
  refine hcheck.not_over ?_ hallows.exchanges hlasts' hallowed
  exact hsteady.append_left

end Requests

/-! ## The request that is due

A response that was handled makes the next request of a cycle due, or none: this is the cycle as its
requests show it. -/

/-- A read and the response to it. -/
def Client.looked (c : Client Seconds) (space name : Value) (t : Seconds) (r : Response) :
    RequestExchange Seconds :=
  (c.request .get (Client.servicePath space name) none t, .response r)

/-- The phase whose request is due, by the requests that were answered: a read has found
nothing or a service that has drifted, and the service that was written then is stored. -/
inductive Due (c : Client Seconds) (space : Value) (desired : Service) :
    Phase → List (RequestExchange Seconds) → Prop where
  | reading : Due c space desired .reading []
  | creating (t : Seconds) (r : Response) (space' name' : Value)
    (hnone : c.found space desired.name r = .error (.notFound space' name')) :
    Due c space desired .creating [c.looked space desired.name t r]
  | writing (t : Seconds) (r : Response) (current : Service)
    (hfound : c.found space desired.name r = .ok current)
    (hdrift : (current.compare desired).changed = true) :
    Due c space desired .writing [c.looked space desired.name t r]
  | created (t t' : Seconds) (r r' : Response) (space' name' : Value) (body : Fields) (sent : Service)
    (hnone : c.found space desired.name r = .error (.notFound space' name'))
    (hstored : c.stored .post (Client.collectionPath desired.space) desired r' = .ok sent) :
    Due c space desired .confirming
      [c.looked space desired.name t r,
        (c.request .post (Client.collectionPath desired.space) (some body) t', .response r')]
  | updated (t t' : Seconds) (r r' : Response) (current patched : Service) (body : Fields)
    (sent : Service) (hfound : c.found space desired.name r = .ok current)
    (hdrift : (current.compare desired).changed = true)
    (hpatched : patched = (current.compare desired).patched)
    (hstored : c.stored .put (Client.servicePath patched.space patched.name) patched r' = .ok sent) :
    Due c space desired .confirming
      [c.looked space desired.name t r,
        (c.request .put (Client.servicePath patched.space patched.name) (some body) t', .response r')]

section Requests

variable {space : Value} {desired : Service} {c : Client Seconds} {phase phase' : Phase}
  {op : ServiceCall} {es : List ServiceExchange} {es' : List (RequestExchange Seconds)}

/-- A read that was answered has sent one request, and the answer is what was made of the
response. -/
theorem Client.Handled.of_read {name : Value} {answer : Except Fault Service}
    {x : RequestExchange Seconds} (hhandled : c.Handled (.read space name, answer) x) :
    ∃ t r, x = c.looked space name t r ∧ c.found space name r = answer := by
  cases hhandled with
  | read hfound => exact ⟨_, _, rfl, hfound⟩
  | write hop => cases hop

/-- The same of a create or an update, with the body that was sent. -/
theorem Client.Handled.of_write {method : Http.Method} {path : Text} {service : Service}
    (hop : op.write? = some (method, path, service)) {answer : Except Fault Service}
    {x : RequestExchange Seconds} (hhandled : c.Handled (op, answer) x) :
    ∃ body t r, x = (c.request method path (some body) t, .response r)
      ∧ c.stored method path service r = answer := by
  cases hhandled with
  | read hfound => cases hop
  | write hop' hbody hstored =>
    obtain ⟨rfl, rfl, rfl⟩ : _ = method ∧ _ = path ∧ _ = service := by
      simpa using hop'.symm.trans hop
    exact ⟨_, _, _, rfl, hstored⟩

/-- The call of a phase has its request due after the responses to the calls before. This
translates the order of a cycle's calls into the order of the requests that carry them. -/
theorem Calls.due (hcalls : Calls (.read space desired.name) desired phase op es)
    (hhandled : List.Forall₂ (Client.Handled c) es es') : Due c space desired phase es' := by
  -- the exchanges before each call are read back as requests, one by one
  cases hcalls with
  | reading =>
    cases hhandled
    exact .reading
  | creating space' name' =>
    obtain _ | ⟨hlook, ⟨⟩⟩ := hhandled
    obtain ⟨t, r, rfl, hnone⟩ := hlook.of_read
    exact .creating t r space' name' hnone
  | writing current hdrift =>
    obtain _ | ⟨hlook, ⟨⟩⟩ := hhandled
    obtain ⟨t, r, rfl, hfound⟩ := hlook.of_read
    exact .writing t r current hfound hdrift
  | confirmingCreated space' name' sent =>
    obtain _ | ⟨hlook, _ | ⟨hcreate, ⟨⟩⟩⟩ := hhandled
    obtain ⟨t, r, rfl, hnone⟩ := hlook.of_read
    obtain ⟨body, t', r', rfl, hstored⟩ := hcreate.of_write rfl
    exact .created t t' r r' space' name' body sent hnone hstored
  | confirmingUpdated current sent hdrift =>
    obtain _ | ⟨hlook, _ | ⟨hupdate, ⟨⟩⟩⟩ := hhandled
    obtain ⟨t, r, rfl, hfound⟩ := hlook.of_read
    obtain ⟨body, t', r', rfl, hstored⟩ := hupdate.of_write rfl
    exact .updated t t' r r' current _ body sent hfound hdrift rfl hstored

/-- What the first response makes due: a creation if it says that nothing is there, an
update if it shows a service that has drifted. With the response of a service that agrees
nothing is due any more. -/
theorem Due.of_one {x : RequestExchange Seconds} (hdue : Due c space desired phase [x]) :
    ∃ r, x.2 = .response r
      ∧ ((phase = .creating ∧ ∃ space' name', c.found space desired.name r
          = .error (.notFound space' name'))
        ∨ phase = .writing ∧ ∃ current, c.found space desired.name r = .ok current
          ∧ (current.compare desired).changed = true) := by
  generalize hes : [x] = es at hdue
  cases hdue with
  | creating t r space' name' hnone =>
    obtain rfl := List.singleton_inj.mp hes
    exact ⟨r, rfl, .inl ⟨rfl, space', name', hnone⟩⟩
  | writing t r current hfound hdrift =>
    obtain rfl := List.singleton_inj.mp hes
    exact ⟨r, rfl, .inr ⟨rfl, current, hfound, hdrift⟩⟩
  | _ => simp at hes

/-- What two responses make due: the confirmation, and nothing else. The second of them
was that of a creation or of an update, as the first one had it, and it was read as a
service. -/
theorem Due.of_two {x y : RequestExchange Seconds} (hdue : Due c space desired phase [x, y]) :
    phase = .confirming ∧ ∃ r r', x.2 = .response r ∧ y.2 = .response r'
      ∧ ((∃ space' name' sent, c.found space desired.name r = .error (.notFound space' name')
          ∧ c.stored .post (Client.collectionPath desired.space) desired r' = .ok sent)
        ∨ ∃ current sent, c.found space desired.name r = .ok current
          ∧ c.stored .put (Client.servicePath (current.compare desired).patched.space
              (current.compare desired).patched.name) (current.compare desired).patched r'
            = .ok sent) := by
  generalize hes : [x, y] = es at hdue
  cases hdue with
  | created t t' r r' space' name' body sent hnone hstored =>
    obtain ⟨rfl, rfl⟩ : x = _ ∧ y = _ := by simpa using hes
    exact ⟨rfl, r, r', rfl, rfl, .inl ⟨space', name', sent, hnone, hstored⟩⟩
  | updated t t' r r' current patched body sent hfound hdrift hpatched hstored =>
    obtain ⟨rfl, rfl⟩ : x = _ ∧ y = _ := by simpa using hes
    subst hpatched
    exact ⟨rfl, r, r', rfl, rfl, .inr ⟨current, sent, hfound, hstored⟩⟩
  | _ => simp at hes

theorem Due.length_le (hdue : Due c space desired phase es') : es'.length ≤ 2 := by
  cases hdue <;> simp

/-- Something is due only after responses. -/
theorem Due.responses (hdue : Due c space desired phase es') :
    ∀ x ∈ es', ∃ r, x.2 = .response r := by
  cases hdue <;> simp [Client.looked]

/-- No more than one request is due. So the phase in which a cycle is cancelled is
determined by the responses that it has had. -/
theorem Due.functional (hdue : Due c space desired phase es') (hdue' : Due c space desired phase' es') :
    phase' = phase := by
  match es' with
  | [] =>
    cases hdue
    cases hdue'
    rfl
  | [x] =>
    -- the response either found something or did not
    obtain ⟨r, hr, hphase⟩ := hdue.of_one
    obtain ⟨r', hr', hphase'⟩ := hdue'.of_one
    obtain rfl := Reply.response.inj (hr.symm.trans hr')
    rcases hphase with ⟨rfl, _, _, hnone⟩ | ⟨rfl, _, hfound, -⟩ <;>
      rcases hphase' with ⟨rfl, _, _, hnone'⟩ | ⟨rfl, _, hfound', -⟩
    · rfl
    · cases hnone.symm.trans hfound'
    · cases hfound.symm.trans hnone'
    · rfl
  | [x, y] => rw [hdue.of_two.1, hdue'.of_two.1]
  | x :: y :: z :: rest =>
    have hlength := hdue.length_le
    simp at hlength

/-- Nothing is due after a response that made its phase fail. A failed call ends the
cycle, so a cancellation that comes later finds nothing left to stop. -/
theorem Calls.not_due (hcalls : Calls (.read space desired.name) desired phase op es) {cause : Fault}
    (hcause : phase = .reading → ∀ space' name', cause ≠ .notFound space' name')
    (hhandled : List.Forall₂ (Client.Handled c) (es ++ [(op, .error cause)]) es') :
    ¬Due c space desired phase' es' := by
  intro hdue
  -- the requests so far determine the calls, so what would be due can be compared with what has failed
  cases hcalls with
  | reading =>
    obtain _ | ⟨hlook, ⟨⟩⟩ := hhandled
    obtain ⟨t, r, rfl, hfailed⟩ := hlook.of_read
    obtain ⟨r', hr', hphase⟩ := hdue.of_one
    obtain rfl : r = r' := Reply.response.inj hr'
    rcases hphase with ⟨-, _, _, hnone⟩ | ⟨-, _, hfound, -⟩
    · exact hcause rfl _ _ (Except.error.inj (hfailed.symm.trans hnone))
    · cases hfailed.symm.trans hfound
  -- Nothing was found, and the create was answered with a failure; a confirmation would need the
  -- opposite of one.
  | creating space' name' =>
    obtain _ | ⟨hlook, _ | ⟨hcreate, ⟨⟩⟩⟩ := hhandled
    obtain ⟨t, r, rfl, hnone⟩ := hlook.of_read
    obtain ⟨body, t', r', rfl, hfailed⟩ := hcreate.of_write rfl
    obtain ⟨-, _, _, hr, hr', hwritten⟩ := hdue.of_two
    obtain rfl := Reply.response.inj hr
    obtain rfl := Reply.response.inj hr'
    rcases hwritten with ⟨_, _, _, -, hstored⟩ | ⟨_, _, hfound, -⟩
    · cases hfailed.symm.trans hstored
    · cases hnone.symm.trans hfound
  | writing current hdrift =>
    obtain _ | ⟨hlook, _ | ⟨hupdate, ⟨⟩⟩⟩ := hhandled
    obtain ⟨t, r, rfl, hfound⟩ := hlook.of_read
    obtain ⟨body, t', r', rfl, hfailed⟩ := hupdate.of_write rfl
    obtain ⟨-, _, _, hr, hr', hwritten⟩ := hdue.of_two
    obtain rfl := Reply.response.inj hr
    obtain rfl := Reply.response.inj hr'
    rcases hwritten with ⟨_, _, _, hnone, -⟩ | ⟨current', _, hfound', hstored⟩
    · cases hfound.symm.trans hnone
    · obtain rfl : current = current' := Except.ok.inj (hfound.symm.trans hfound')
      cases hfailed.symm.trans hstored
  -- After three requests nothing can be due: no course has a fourth.
  | _ =>
    have hlength := hdue.length_le
    rw [← hhandled.length_eq] at hlength
    simp at hlength

/-- Nothing is due after the last response of a cycle that completes, so its context may
end then without effect. -/
theorem Completes.not_due {outcome : Outcome}
    (hcompletes : Completes (.read space desired.name) desired es outcome)
    (hhandled : List.Forall₂ (Client.Handled c) es es') : ¬Due c space desired phase es' := by
  intro hdue
  -- after one request it is the answer that tells; after three there is none left
  cases hcompletes with
  | unchanged current hsame =>
    obtain _ | ⟨hlook, ⟨⟩⟩ := hhandled
    obtain ⟨t, r, rfl, hfound⟩ := hlook.of_read
    obtain ⟨r', hr', hphase⟩ := hdue.of_one
    obtain rfl : r = r' := Reply.response.inj hr'
    rcases hphase with ⟨-, _, _, hnone⟩ | ⟨-, current', hfound', hdrift⟩
    · cases hfound.symm.trans hnone
    · obtain rfl : current = current' := Except.ok.inj (hfound.symm.trans hfound')
      exact Bool.noConfusion (hsame.symm.trans hdrift)
  | _ =>
    have hlength := hdue.length_le
    rw [← hhandled.length_eq] at hlength
    simp at hlength

end Requests

/-! ## A cycle that is cut short -/

/-- A look is the same for a cycle and for its requests. Refinement replaces calls by
requests and keeps every reading of the clock and the flag, and a check makes no call, so
its history is not touched. -/
theorem RequestContext.Checks.of_refines {τ ω ρ ω' ρ' : Type} [TimeScale τ] {ctx : RequestContext τ}
    {implementation : ω → Program τ ω' ρ' ρ} {m : List (Event τ ω ρ)} {m' : List (Event τ ω' ρ')}
    {result : Except Fault Unit} (hcheck : ctx.Checks m result)
    (hrefines : Program.Refines implementation m m') : ctx.Checks m' result := by
  -- a check makes no call, so its events are refined by themselves
  cases hcheck with
  | cancelled =>
    obtain _ | ⟨_, ⟨⟩⟩ := hrefines
    exact .cancelled
  | endless h =>
    obtain _ | ⟨_, ⟨⟩⟩ := hrefines
    exact .endless h
  | early time now h hearly =>
    obtain _ | ⟨_, _ | _ | ⟨_, ⟨⟩⟩⟩ := hrefines
    exact .early time now h hearly
  | due time now h hdue =>
    obtain _ | ⟨_, _ | _ | ⟨_, ⟨⟩⟩⟩ := hrefines
    exact .due time now h hdue
  | malformed given now h =>
    obtain _ | ⟨_, _ | _ | ⟨_, ⟨⟩⟩⟩ := hrefines
    exact .malformed given now h

section Cuts

variable {a : Assignment Seconds} {desired : Service} {c : Client Seconds} {phase phase' : Phase}
  {h : List (ServiceEvent Seconds)} {h' : List (RequestEvent Seconds)} {cancelled : Bool}
  {cause : Fault}

/-- A request is pending when it is due, or when it was sent but had no response in
time. -/
def Pending (c : Client Seconds) (space : Value) (desired : Service) (phase : Phase)
    (es : List (RequestExchange Seconds)) : Prop :=
  Due c space desired phase es
    ∨ ∃ before request text, es = before ++ [(request, .timedOut text)]
      ∧ Due c space desired phase before

/-- A pending request belongs to one phase, as the requests before it tell. -/
theorem Pending.functional {space : Value} {es : List (RequestExchange Seconds)}
    (hpending : Pending c space desired phase' es) (hdue : Due c space desired phase es) :
    phase' = phase := by
  rcases hpending with hdue' | ⟨before, request, text, rfl, -⟩
  · exact hdue.functional hdue'
  · obtain ⟨r, ⟨⟩⟩ := hdue.responses (request, .timedOut text) (by simp)

/-- A call that had no response in time looks at its context once more. That look is what
turns a timeout of the request into the end of the context, where the context is over. -/
theorem Client.Answers.not_lasts_of_timedOut {ctx : RequestContext Seconds} {op : ServiceCall}
    {answer : Except Fault Service} {n : List (RequestEvent Seconds)} {request : Request Seconds}
    {text : Text} (hanswers : Client.Answers c ctx op n answer)
    (hsent : Event.exchanges n = [(request, .timedOut text)]) (hlasts : ctx.Lasts h')
    (hmeasured : ctx.Measured n) (hsteady : Event.Steady cancelled (h' ++ n))
    (hover : ctx.Over cancelled (h' ++ n)) : ¬ctx.Lasts n := by
  obtain ⟨n₁, raised, n₂, rfl⟩ := Event.split_of_exchanges hsent
  obtain ⟨m₁, m₂, t, _, _, rfl, hcheck, hallows, -, hreceives⟩ := hanswers.call_inv
  obtain ⟨r, hcheck'⟩ := hreceives.checks
  obtain ⟨b, rest, rfl, -⟩ := hcheck'.looks
  have hallowed := hallows.lasts (hmeasured.of_subset (by intro e he; simp [he]))
  -- the reply was late, so the context is looked at once more, and that look shows its end
  have hends : ¬ctx.Lasts (.look b :: rest) := by
    refine RequestContext.not_lasts_of_over
      (h := h' ++ (m₁ ++ m₂ ++ [.call request (.timedOut text) raised]))
      (by simpa using hover) (by simpa using hsteady) ?_ (by simpa using hcheck'.exchanges)
    simp [hlasts, hcheck.lasts, hallowed]
  exact fun hlater => hends (by simpa [hcheck.lasts, hallowed] using hlater)

/-- A cycle whose context is over while a request is pending has failed in the phase of
that request, and the context is to blame. -/
theorem FailsAt.cut (hfails : FailsAt a desired phase h cause)
    (hrefines : Program.Refines (c.calling a.context) h h') (hsteady : Event.Steady cancelled h')
    (hmeasured : a.context.Measured h') (hover : a.context.Over cancelled h')
    (hpending : Pending c a.space desired phase' (Event.exchanges h')) :
    phase' = phase ∧ ∃ halt, cause = .halted halt := by
  cases hfails with
  | stopped hcalls hlasts hcheck =>
    obtain ⟨h₀, m, rfl, hbefore, hlast⟩ := hrefines.append_inv
    have hcheck := hcheck.of_refines hlast
    have hlasts := Client.lasts_of_refines hbefore hcalls.goesOn hlasts
      (hmeasured.of_subset (by simp))
    have hdue := hcalls.due (Client.forall₂_handled hbefore hcalls.goesOn)
    refine ⟨hpending.functional (by simpa [hcheck.exchanges] using hdue), ?_⟩
    -- the look that stopped the cycle was the one that showed the end
    obtain ⟨b, rest, rfl, -⟩ := hcheck.looks
    rcases hcheck.ends with ⟨-, hhalted⟩ | ⟨hlater, -⟩
    · exact hhalted
    · exact absurd hlater
        (RequestContext.not_lasts_of_over hover hsteady hlasts (by simpa using hcheck.exchanges))
  | @refused op _ _ _ hcalls hlasts hcheck raised hcause =>
    obtain ⟨h₀, tail, rfl, hbefore, htail⟩ := hrefines.append_inv
    obtain ⟨m, n, rfl, hlook, hcall⟩ := htail.append_inv
    have hcheck := hcheck.of_refines hlook
    have hanswers := Client.answers_of_unfolds hcall.of_call
    have hlasts := Client.lasts_of_refines hbefore hcalls.goesOn hlasts
      (hmeasured.of_subset (by simp))
    have hhandled := Client.forall₂_handled hbefore hcalls.goesOn
    have hdue := hcalls.due hhandled
    -- a call whose context ends fails for that
    have hhalted (hends : ¬a.context.Lasts n) : ∃ halt, cause = .halted halt := by
      obtain ⟨halt, hhalt⟩ := hanswers.halted (hmeasured.of_subset (by intro e he; simp [he])) hends
      exact ⟨halt, Except.error.inj hhalt⟩
    cases hsent : Event.exchanges n with
    | nil =>
      refine ⟨hpending.functional (by simpa [hcheck.exchanges, hsent] using hdue), hhalted ?_⟩
      exact fun hlater => hcheck.not_over hsteady hsent hlasts hlater hover
    | cons x xs =>
      obtain rfl := hanswers.sole hsent
      have hes : Event.exchanges (h₀ ++ (m ++ n)) = Event.exchanges h₀ ++ [x] := by
        simp [hcheck.exchanges, hsent]
      rw [hes] at hpending
      rcases hpending with hdue' | ⟨before, request, text, hlate, hdue'⟩
      · -- a response that was handled would have made something due, but this call has failed
        obtain ⟨request, reply⟩ := x
        obtain ⟨r, rfl⟩ : ∃ r, reply = .response r := hdue'.responses (request, reply) (by simp)
        have hlast := hanswers.handled_of_response hsent
        exact absurd hdue' (hcalls.not_due hcause (List.rel_append hhandled (.cons hlast .nil)))
      · -- there was no response in time, so the context was looked at
        obtain ⟨rfl, hx⟩ := List.append_inj' hlate rfl
        obtain rfl := List.singleton_inj.mp hx
        refine ⟨hdue.functional hdue', hhalted ?_⟩
        rw [← List.append_assoc] at hsteady hover
        exact hanswers.not_lasts_of_timedOut hsent (by simp [hlasts, hcheck.lasts])
          (hmeasured.of_subset (by intro e he; simp [he])) hsteady hover

end Cuts

/-! ## Runs -/

/-- A plan over a client. -/
def planning (e : Engine) (a : Assignment Seconds) (client : Client Seconds) :
    Program Seconds (Request Seconds) Reply (Except Fault Plan) :=
  (plan e a).run.refine (client.calling a.context)

/-- A cycle, or a plan, that stops in time. Its service is the one it wants, if it comes
to that, and `pending` says in which phase a request of it is due or has had no response
in time. -/
structure StopsInTime {α : Type} (a : Assignment Seconds) (wanted : Except Fault Service)
    (pending : Service → Phase → List (RequestExchange Seconds) → Prop) (cancelled : Bool)
    (h : List (RequestEvent Seconds)) (result : Except Fault α) : Prop where
  /-- No request is sent once the context is over. -/
  unsent : ∀ before request reply raised after, h = before ++ .call request reply raised :: after →
    ¬a.context.Over cancelled before
  /-- If it is over by the end and a request is pending, that is the report. -/
  reported : a.context.Over cancelled h → ∀ desired phase, wanted = .ok desired →
    pending desired phase (Event.exchanges h) →
    ∃ halt, result = .error (.cycle true phase.name (a.resource desired.name.display)
      (some (.halted halt)))

section Runs

variable {a : Assignment Seconds} {e : Engine} {desired : Service} {c : Client Seconds}
  {h : List (ServiceEvent Seconds)} {h' : List (RequestEvent Seconds)} {cancelled : Bool}

/-- Calls that were handled have had responses, each of them. -/
theorem responses_of_handled {es : List ServiceExchange} {es' : List (RequestExchange Seconds)}
    (hhandled : List.Forall₂ (Client.Handled c) es es') : ∀ x ∈ es', ∃ r, x.2 = .response r := by
  induction hhandled with
  | nil => simp
  | cons hfirst _ ih =>
    refine List.forall_mem_cons.mpr ⟨?_, ih⟩
    cases hfirst with
    | read hfound => exact ⟨_, rfl⟩
    | write hop hbody hstored => exact ⟨_, rfl⟩

/-- Nothing is pending after calls that were all handled, unless something is due. -/
theorem not_pending_of_handled {space : Value} {phase : Phase} {es : List ServiceExchange}
    {es' : List (RequestExchange Seconds)} (hhandled : List.Forall₂ (Client.Handled c) es es')
    (hdue : ¬Due c space desired phase es') : ¬Pending c space desired phase es' := by
  rintro (hdue' | ⟨before, request, text, rfl, -⟩)
  · exact hdue hdue'
  · obtain ⟨r, ⟨⟩⟩ := responses_of_handled hhandled (request, .timedOut text) (by simp)

/-- A complete cycle has had only answers with which it goes on. -/
theorem Completes.goesOn {space name : Value} {es : List ServiceExchange} {outcome : Outcome}
    (hcompletes : Completes (.read space name) desired es outcome) : ∀ x ∈ es, GoesOn x := by
  cases hcompletes <;> simp [GoesOn]

/-- So has a plan. -/
theorem Plans.goesOn {space name : Value} {es : List ServiceExchange} {p : Plan}
    (hplans : Plans (.read space name) desired es p) : ∀ x ∈ es, GoesOn x := by
  cases hplans <;> simp [GoesOn]

/-- An orderly history stops in time if a result leaves nothing pending. Cycles and plans
differ only in what is pending for them, so both are cases of this one. -/
theorem StopsInTime.of_refines {α : Type} {result : Except Fault α}
    {pending : Service → Phase → List (RequestExchange Seconds) → Prop}
    (horderly : Orderly a desired h) (hrefines : Program.Refines (c.calling a.context) h h')
    (hsteady : Event.Steady cancelled h') (hmeasured : a.context.Measured h')
    (hpending : ∀ phase, pending desired phase (Event.exchanges h') →
      Pending c a.space desired phase (Event.exchanges h'))
    (hends : Attempt.EndsWith (fun _ => ∀ phase, ¬pending desired phase (Event.exchanges h'))
      (FailsWith a desired h) result) :
    StopsInTime a (.ok desired) pending cancelled h' result where
  unsent := fun before request reply raised after hsplit =>
    horderly.unsent hrefines hsteady hmeasured hsplit
  reported := by
    rintro hover _ phase ⟨rfl⟩ hphase
    cases result with
    | ok r => exact absurd hphase (hends phase)
    | error f =>
      obtain ⟨phase', cause, hfails, rfl⟩ := hends
      obtain ⟨rfl, halt, rfl⟩ := hfails.cut hrefines hsteady hmeasured hover (hpending phase hphase)
      exact ⟨halt, congrArg Except.error (Fault.during_eq ⟨rfl, rfl⟩ _ _)⟩

theorem StopsInTime.of_unstarted {α : Type} {result : Except Fault α} {f : Fault}
    {pending : Service → Phase → List (RequestExchange Seconds) → Prop}
    (hrefines : Program.Refines (c.calling a.context) [] h') :
    StopsInTime a (.error f) pending cancelled h' result := by
  cases hrefines
  exact { unsent := by simp, reported := by simp }

/-- A cycle over a client stops in time. The history of requests is one of calls whose
requests are told one by one; a context that is over is seen at the next check, and then
either a request was pending, or the last call has been answered and nothing more is to be
sent. -/
theorem stopsInTime_of_sending {result : Except Fault Outcome}
    (hsending : (sending e a c).Unfolds h' result) (hsteady : Event.Steady cancelled h')
    (hmeasured : a.context.Measured h') :
    StopsInTime a (e.desired a) (Pending c a.space) cancelled h' result := by
  obtain ⟨h, hcycle, hrefines⟩ := Program.exists_of_unfolds_refine hsending
  -- a cycle without a desired service asks for nothing, so nothing could be pending
  cases hdesired : e.desired a with
  | error f =>
    obtain ⟨rfl, -⟩ := unfolds_unstarted hdesired (fun _ => false) rfl hcycle
    exact .of_unstarted hrefines
  | ok desired =>
    refine .of_refines (orderly_of_reconcile hdesired hcycle) hrefines hsteady hmeasured
      (fun _ => id) ((unfolds_reconcile hdesired hcycle).mono ?_ fun _ => id)
    rintro outcome ⟨hcompletes, -⟩ phase
    have hhandled := Client.forall₂_handled hrefines hcompletes.goesOn
    exact not_pending_of_handled hhandled (hcompletes.not_due hhandled)

/-- The same of a plan, whose one request is the first read. So `reading` is the only
phase in which its context can stop it. -/
theorem stopsInTime_of_planning {result : Except Fault Plan}
    (hplanning : (planning e a c).Unfolds h' result) (hsteady : Event.Steady cancelled h')
    (hmeasured : a.context.Measured h') :
    StopsInTime a (e.desired a)
      (fun desired phase es => phase = .reading ∧ Pending c a.space desired phase es) cancelled h'
      result := by
  obtain ⟨h, hplan, hrefines⟩ := Program.exists_of_unfolds_refine hplanning
  cases hdesired : e.desired a with
  | error f =>
    obtain ⟨rfl, -⟩ := unfolds_unstarted hdesired Phase.isWrite rfl hplan
    exact .of_unstarted hrefines
  | ok desired =>
    refine .of_refines (orderly_of_plan hdesired hplan) hrefines hsteady hmeasured
      (fun _ => And.right) ((unfolds_plan hdesired hplan).mono ?_ ?_)
    · -- a plan that was made has had its one answer, so no first read is due
      rintro p ⟨hplans, -⟩ phase ⟨rfl, hpending⟩
      have hhandled := Client.forall₂_handled hrefines hplans.goesOn
      refine not_pending_of_handled hhandled (fun hdue => ?_) hpending
      obtain ⟨answer, hes⟩ := hplans.last_call
      rw [hes] at hhandled
      generalize Event.exchanges h' = es' at hhandled hdue
      cases hdue
      cases hhandled
    · rintro f ⟨cause, hfails, rfl⟩
      exact ⟨.reading, cause, hfails, rfl⟩

end Runs

/-- **Nothing is sent once a context is over.** In any surroundings that cancel a context only while
they answer a request, and for good, whatever the clock shows: neither a cycle nor a plan sends a request
once the flag is up or a clock reading was at or past the deadline; and if a request is due then, or has
had no response in time, the cycle is reported as cancelled in the phase of that request. The history of
the requests refines the history of the calls, in which every call follows on a look at the context
(`Orderly`); that look decides, and nothing comes between it and the request. -/
theorem cycle_stops_in_time {σ : Type} (e : Engine) (a : Assignment Seconds) (c : Client Seconds)
    (world : Surroundings σ Seconds (Request Seconds) Reply)
    (hnow : ∀ s, world.cancelled (world.now s).2 = world.cancelled s)
    (hlog : ∀ entry s, world.cancelled (world.log entry s) = world.cancelled s)
    (hcall : ∀ request s, world.cancelled s = true → world.cancelled (world.call request s).2 = true)
    (hdeadline : ∀ time, a.context.deadline = .at time → time.Exact)
    (hclock : ∀ s, (world.now s).1.Exact) (s : σ) :
    StopsInTime a (e.desired a) (Pending c a.space) (world.cancelled s)
        ((sending e a c).events world s) ((sending e a c).run world s).1
      ∧ StopsInTime a (e.desired a)
        (fun desired phase es => phase = .reading ∧ Pending c a.space desired phase es)
        (world.cancelled s) ((planning e a c).events world s) ((planning e a c).run world s).1 := by
  have hmeasured {α : Type} (p : Program Seconds (Request Seconds) Reply α) :
      a.context.Measured (p.events world s) := by
    intro time now htime hread
    obtain ⟨s', rfl⟩ := Program.time_of_mem_events hread
    exact Seconds.measures (hdeadline time htime) (hclock s')
  exact ⟨stopsInTime_of_sending (Program.unfolds_run world _ s)
      (Program.steady_events hnow hlog hcall _ s) (hmeasured _),
    stopsInTime_of_planning (Program.unfolds_run world _ s)
      (Program.steady_events hnow hlog hcall _ s) (hmeasured _)⟩

/-- Surroundings that answer nothing in time; meanwhile the context is cancelled. -/
def Surroundings.cancelling : Surroundings Bool Seconds (Request Seconds) Reply where
  cancelled flag := flag
  now flag := (.whole 0, flag)
  log _ flag := flag
  call _ _ := (.timedOut "read timed out", true)

/-- A first read that has no response before the context is cancelled is no failure of the
read. -/
theorem cycle_cancelled_in_first_read :
    ∃ halt, ((sending (Engine.ofSettings {}) Assignment.sample Client.sample).run
        Surroundings.cancelling false).1
      = .error (.cycle true "reading" "ops/node-observability-agent" (some (.halted halt))) := by
  obtain ⟨desired, hdesired⟩ :
    ∃ desired, (Engine.ofSettings {}).desired Assignment.sample = .ok desired := ⟨_, rfl⟩
  have hzero : (Seconds.whole 0).Exact := Nat.two_pow_pos 53
  have hstops := (cycle_stops_in_time (Engine.ofSettings {}) Assignment.sample Client.sample
    Surroundings.cancelling (fun _ => rfl) (fun _ _ => rfl) (fun _ _ _ => rfl)
    (by simp [Assignment.sample]) (fun _ => hzero) false).1
  obtain rfl := Except.ok.inj (hdesired.symm.trans rfl)
  exact hstops.reported (.inl rfl) _ .reading hdesired (.inr ⟨[], _, _, rfl, .reading⟩)

end Keeper
