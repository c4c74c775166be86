import Keeper.Command.Run
import Keeper.Proofs.Classification

/-!
# Keeper — the faults that escape a cycle

A cycle reports what its context and its control plane are to blame for. Nobody checks the shape of
what a response holds, so a fault over that comes through as it is.

* **`Http.Reply.Garbles`** — what is wrong with a reply that no call can make anything of.
* **`Escapes`** — the faults that escape: over the last reply, or over a service that was read and cannot
  be written back.
* **`Concluded`**, **`FailsBy`** — the course of a cycle and how it fails, by its requests alone.
* **`FailsBy.during_cases`**, **`Escapes.during_cases`** — what comes of a failure, and of what escapes.
* **`failures_reported_or_escape`** — so every failure is reported or escapes, and what escapes is not
  reported.
* **`port_escapes`** — a port that is no number escapes.
-/

namespace Keeper

open Http (Method Request Reply Response)

/-! ## Replies that nothing can be made of -/

/-- A reply whose content is nested too deeply, or holds no service. -/
inductive Http.Reply.Garbles : Reply → Fault → Prop where
  | tooDeep {reply : Reply} (hdeep : reply.TooDeep) : Garbles reply (.misuse .tooDeep)
  | unreadable {reply : Reply} {fields : Fields} {f : Fault} (hfields : reply.fields? = some fields)
    (hread : Service.ofManifest (.map fields) = .error f) : Garbles reply f

theorem Http.Reply.Garbles.ofValue {reply : Reply} {f : Fault} (h : reply.Garbles f) : f.OfValue := by
  cases h with
  | tooDeep hdeep => trivial
  | unreadable hfields hread => exact BlamesValue.ofManifest _ f hread

theorem Fault.during_of_ofValue {f : Fault} (h : f.OfValue) (phase : Phase) (resource : Text) :
    f.during phase resource = f := by
  cases f with
  | misuse | badValue => rfl
  | _ => exact h.elim

theorem GoesOn.ne_ofValue {op : ServiceCall} {answer : Except Fault Service} {f : Fault}
    (hgoes : GoesOn (op, answer)) (hf : f.OfValue) : answer ≠ .error f := by
  rintro rfl
  obtain ⟨service, ⟨⟩⟩ | ⟨_, _, space, name, -, ⟨⟩⟩ := hgoes
  exact hf

theorem Service.ofManifest_nil : ∃ s, Service.ofManifest (.map []) = .ok s := ⟨_, rfl⟩

/-- All three calls fail to read a response in the same way; a write that has an empty
response falls back on what was sent, which is why the statement is about fields that are
there. -/
theorem ServiceCall.reading_eq_error_iff (op : ServiceCall) (fields : Fields) (f : Fault) :
    op.reading fields = .error f ↔ Service.ofManifest (.map fields) = .error f := by
  -- A write whose reply is the empty object gives back what was sent, and the empty object is readable
  -- anyway.
  have hwrite (sent : Service) :
      Client.serviceOr sent fields = .error f ↔ Service.ofManifest (.map fields) = .error f := by
    unfold Client.serviceOr
    split
    next hempty =>
      obtain ⟨s, hs⟩ := Service.ofManifest_nil
      rw [List.isEmpty_iff.mp hempty, hs]
      simp
    next => rfl
  cases op with
  | read space name => exact Iff.rfl
  | create sent => exact hwrite sent
  | update sent => exact hwrite sent

/-- A failure of a request can be told, whatever snippet it shows. -/
theorem Fault.reportable_api (status method url detail : Value) (shown : Text) :
    (Fault.api { status, method, url, body := .text shown, detail }).Reportable := by
  refine ⟨rfl, ?_⟩
  simp only [wording, ApiFailure.wording, snippet?]
  split
  all_goals rfl

namespace Client

variable {op : ServiceCall} {request : Request Seconds} {reply : Reply} {cause f : Fault}
  {answer : Except Fault Service}

/-- A call whose reply is garbled fails for that. -/
theorem Concludes.of_garbles (hconcludes : Concludes op [(request, reply)] answer)
    (hgarbles : reply.Garbles f) : answer = .error f := by
  cases hgarbles with
  | tooDeep hdeep => exact hconcludes.tooDeep request reply rfl hdeep
  | @unreadable fields _ hfields hread =>
    rw [hconcludes.taken request reply fields rfl hfields]
    exact (op.reading_eq_error_iff fields f).mpr hread

/-- A call that has had a reply fails for what can be reported, or over the reply. The
second is what no report is made of: the reply's fields make no service, or its content
could not be decoded for its depth. -/
theorem Concludes.reportable_or_garbles (hconcludes : Concludes op [(request, reply)] (.error cause)) :
    cause.Reportable ∨ reply.Garbles cause := by
  cases hfields : reply.fields? with
  | some fields =>
    have hread := (hconcludes.taken request reply fields rfl hfields).symm
    exact .inr (.unreadable hfields ((op.reading_eq_error_iff fields cause).mp hread))
  | none =>
    -- Without fields the reply is refused with a reportable fault, unless it was too deep to be decoded
    -- at all.
    by_cases hdeep : reply.TooDeep
    · obtain rfl := Except.error.inj (hconcludes.tooDeep request reply rfl hdeep)
      exact .inr (.tooDeep hdeep)
    · left
      rcases hconcludes.failed request reply rfl hfields hdeep with
        ⟨space, name, hnone⟩ | ⟨text, halt, -, hhalted⟩ | ⟨shown, detail, hfailed, -⟩
      · obtain rfl := Except.error.inj hnone
        exact ⟨rfl, rfl⟩
      · obtain rfl := Except.error.inj hhalted
        exact ⟨rfl, rfl⟩
      · obtain rfl := Except.error.inj hfailed
        exact Fault.reportable_api _ _ _ _ _

/-- A call that answers with a service has read it from the fields of the reply. -/
theorem Concludes.exists_fields {service : Service}
    (hconcludes : Concludes op [(request, reply)] (.ok service)) :
    ∃ fields, reply.fields? = some fields ∧ op.reading fields = .ok service := by
  cases hfields : reply.fields? with
  | some fields => exact ⟨fields, rfl, (hconcludes.taken request reply fields rfl hfields).symm⟩
  | none =>
    exfalso
    by_cases hdeep : reply.TooDeep
    · cases hconcludes.tooDeep request reply rfl hdeep
    · rcases hconcludes.failed request reply rfl hfields hdeep with
        ⟨_, _, ⟨⟩⟩ | ⟨_, _, -, ⟨⟩⟩ | ⟨_, _, ⟨⟩, -⟩

end Client

/-! ## The course of a cycle by its requests -/

/-- The requests of calls that were all replied, each with how its call ended. -/
abbrev Concluded (es : List ServiceExchange) (es' : List (RequestExchange Seconds)) : Prop :=
  List.Forall₂ (fun x y => Client.Concludes x.1 [y] x.2) es es'

/-- A call that was handled has ended in one of the ways of a response. -/
theorem Client.Handled.concludes {c : Client Seconds} {x : ServiceExchange} {y : RequestExchange Seconds}
    (hhandled : c.Handled x y) (hgenuine : y.2.Genuine) : Client.Concludes x.1 [y] x.2 := by
  cases hhandled with
  | read hfound =>
    obtain ⟨status, hstatus⟩ := hgenuine
    rw [← hfound]
    exact c.concludes_found _ _ hstatus _
  | @write op method path service _ _ r _ hop hbody hstored =>
    obtain ⟨status, hstatus⟩ := hgenuine
    -- Reads and writes settle a reply alike; they differ only in what is made of the fields.
    have hending : c.stored method path service r = op.ending (c.taken method path r) :=
      (ServiceCall.ending_of_write hop _).symm
    rw [← hstored, hending]
    exact .of_settles (settles_of_response hstatus) ⟨status, hstatus⟩

section Courses

variable {a : Assignment Seconds} {desired : Service} {c : Client Seconds} {phase : Phase}
  {es : List ServiceExchange} {es' : List (RequestExchange Seconds)} {h : List (ServiceEvent Seconds)}
  {h' : List (RequestEvent Seconds)} {cause f : Fault}

/-- So have all the calls before the one that failed. -/
theorem concluded_of_handled (hhandled : List.Forall₂ (Client.Handled c) es es')
    (hgenuine : ∀ y ∈ es', y.2.Genuine) : Concluded es es' := by
  induction hhandled with
  | nil => exact .nil
  | cons hfirst _ ih =>
    obtain ⟨hgenuine, hrest⟩ := List.forall_mem_cons.mp hgenuine
    exact .cons (hfirst.concludes hgenuine) (ih hrest)

/-- How a cycle that has its desired service fails, by its requests: its context is over
before the request of a phase, the service it is to update cannot be written, or its
request is replied to so that the call fails. -/
inductive FailsBy (a : Assignment Seconds) (desired : Service) :
    Phase → List (RequestExchange Seconds) → Fault → Prop where
  | halted {phase : Phase} {op : ServiceCall} {es : List ServiceExchange}
    {es' : List (RequestExchange Seconds)}
    (hcalls : Calls (.read a.space desired.name) desired phase op es) (hmade : Concluded es es')
    (halt : Halt) : FailsBy a desired phase es' (.halted halt)
  | unwritable {current : Service} {es' : List (RequestExchange Seconds)} {f : Fault}
    (hdrift : (current.compare desired).changed = true)
    (hmade : Concluded [(.read a.space desired.name, .ok current)] es')
    (hbody : (current.compare desired).patched.manifest = .error f) : FailsBy a desired .writing es' f
  | refused {phase : Phase} {op : ServiceCall} {es : List ServiceExchange}
    {es' : List (RequestExchange Seconds)} {y : RequestExchange Seconds} {cause : Fault}
    (hcalls : Calls (.read a.space desired.name) desired phase op es) (hmade : Concluded es es')
    (hconcludes : Client.Concludes op [y] (.error cause)) : FailsBy a desired phase (es' ++ [y]) cause

/-- How a cycle fails, told by its requests. The calls of the history are replaced by
their requests, and the failing one by what became of it. -/
theorem FailsAt.failsBy (hfails : FailsAt a desired phase h cause)
    (hrefines : Program.Refines (c.calling a.context) h h')
    (hdesired : ∃ body, desired.manifest = .ok body) (htells : Client.Tells a.context h')
    (hgenuine : ∀ y ∈ Event.exchanges h', y.2.Genuine) :
    FailsBy a desired phase (Event.exchanges h') cause := by
  cases hfails with
  | stopped hcalls hlasts hcheck =>
    obtain ⟨h₀, m, rfl, hbefore, hlast⟩ := hrefines.append_inv
    have hcheck := hcheck.of_refines hlast
    obtain ⟨halt, rfl⟩ := Client.halted_of_stops hcheck.stops htells.wellFormed
    have hmade := concluded_of_handled (Client.forall₂_handled hbefore hcalls.goesOn)
      fun y hy => hgenuine y (by simp [hy])
    simpa [hcheck.exchanges] using FailsBy.halted hcalls hmade halt
  | @refused op _ _ _ hcalls hlasts hcheck raised hcause =>
    obtain ⟨h₀, tail, rfl, hbefore, htail⟩ := hrefines.append_inv
    obtain ⟨m, n, rfl, hlook, hcall⟩ := htail.append_inv
    have hcheck := hcheck.of_refines hlook
    have hmade := concluded_of_handled (Client.forall₂_handled hbefore hcalls.goesOn)
      fun y hy => hgenuine y (by simp [hy])
    -- the call that failed has its own history
    have hconcludes := (Client.answers_of_unfolds hcall.of_call).concludes
      ⟨htells.wellFormed, fun time now htime hread => htells.spans time now htime (by simp [hread])⟩
      fun y hy => hgenuine y (by simp [hy])
    have hes : Event.exchanges (h₀ ++ (m ++ n)) = Event.exchanges h₀ ++ Event.exchanges n := by
      simp [hcheck.exchanges]
    rw [hes]
    cases hsent : Event.exchanges n with
    | cons y ys =>
      obtain rfl := (Client.answers_of_unfolds hcall.of_call).sole hsent
      rw [hsent] at hconcludes
      exact .refused hcalls hmade hconcludes
    | nil =>
      rw [List.append_nil]
      rw [hsent] at hconcludes
      rcases hconcludes.unsent rfl with ⟨halt, hhalted⟩ | ⟨method, path, service, f, hop, hbody, hfailed⟩
      · obtain rfl := Except.error.inj hhalted
        exact .halted hcalls hmade halt
      · -- a read is no write, and the desired service can be written
        obtain rfl := Except.error.inj hfailed
        generalize Event.exchanges _ = es at hcalls hmade
        cases hcalls with
        | creating space name =>
          obtain ⟨-, -, rfl⟩ : _ ∧ _ ∧ desired = service := by simpa [ServiceCall.write?] using hop
          obtain ⟨body, hwritten⟩ := hdesired
          cases hwritten.symm.trans hbody
        | writing current hdrift =>
          obtain ⟨-, -, rfl⟩ : _ ∧ _ ∧ (current.compare desired).patched = service := by
            simpa [ServiceCall.write?] using hop
          exact .unwritable hdrift hmade hbody
        | _ => cases hop

/-! ## What escapes -/

/-- What escapes a cycle that has its desired service: what is wrong with the last
reply; or, when all that was read is a service that has drifted, that it cannot be
written back. -/
inductive Escapes (desired : Service) : List (RequestExchange Seconds) → Fault → Prop where
  | garbled (before : List (RequestExchange Seconds)) (y : RequestExchange Seconds) {f : Fault}
    (hgarbles : y.2.Garbles f) : Escapes desired (before ++ [y]) f
  | unwritable (y : RequestExchange Seconds) {fields : Fields} {current : Service} {f : Fault}
    (hfields : y.2.fields? = some fields) (hread : Service.ofManifest (.map fields) = .ok current)
    (hdrift : (current.compare desired).changed = true)
    (hbody : (current.compare desired).patched.manifest = .error f) : Escapes desired [y] f

/-- What escapes blames a value, and is therefore not among the faults that a cycle
reports. -/
theorem Escapes.ofValue (hescapes : Escapes desired es' f) : f.OfValue := by
  cases hescapes with
  | garbled before y hgarbles => exact hgarbles.ofValue
  | unwritable y hfields hread hdrift hbody => exact BlamesValue.manifest _ f hbody

/-- Nothing is wrong with the replies to calls that have gone on. -/
theorem Concluded.not_garbles (hmade : Concluded es es') (hgoes : ∀ x ∈ es, GoesOn x)
    {y : RequestExchange Seconds} (hy : y ∈ es') : ¬y.2.Garbles f := by
  induction hmade with
  | nil => cases hy
  | @cons x y' _ _ hfirst _ ih =>
    obtain ⟨hgoes, hrest⟩ := List.forall_mem_cons.mp hgoes
    rcases List.mem_cons.mp hy with rfl | hy
    · exact fun hgarbles => hgoes.ne_ofValue hgarbles.ofValue (hfirst.of_garbles hgarbles)
    · exact ih hrest hy

/-- A failure is one that can be reported, or it escapes: there is no third way. An end of
the context is reported, a service that cannot be written back escapes, and what a call
was refused with is sorted by its reply. -/
theorem FailsBy.reportable_or_escapes (hfails : FailsBy a desired phase es' cause) :
    cause.Reportable ∨ Escapes desired es' cause := by
  cases hfails with
  | halted hcalls hmade halt => exact .inl ⟨rfl, rfl⟩
  | unwritable hdrift hmade hbody =>
    obtain _ | ⟨hconcludes, ⟨⟩⟩ := hmade
    obtain ⟨fields, hfields, hread⟩ := hconcludes.exists_fields
    exact .inr (.unwritable _ hfields hread hdrift hbody)
  | refused hcalls hmade hconcludes =>
    exact hconcludes.reportable_or_garbles.imp_right (.garbled _ _)

theorem FailsBy.during_cases (hfails : FailsBy a desired phase es' cause) (resource : Text) :
    cause.during phase resource = .cycle cause.isHalt phase.name resource (some cause)
      ∨ Escapes desired es' cause ∧ cause.during phase resource = cause := by
  rcases hfails.reportable_or_escapes with hcause | hescapes
  · exact .inl (Fault.during_eq hcause phase resource)
  · exact .inr ⟨hescapes, Fault.during_of_ofValue hescapes.ofValue phase resource⟩

/-- A cycle that fails with something to escape fails with that, unless its context is
over before the service is written back. -/
theorem Escapes.eq_or_halted (hescapes : Escapes desired es' f)
    (hfails : FailsBy a desired phase es' cause) :
    cause = f ∨ phase = .writing ∧ ∃ halt, cause = .halted halt := by
  cases hescapes with
  | garbled before y hgarbles =>
    left
    generalize hes : before ++ [y] = made at hfails
    cases hfails with
    | halted hcalls hmade halt =>
      exact absurd hgarbles (hmade.not_garbles hcalls.goesOn (by simp [← hes]))
    | unwritable hdrift hmade hbody =>
      exact absurd hgarbles (hmade.not_garbles (by simp [GoesOn]) (by simp [← hes]))
    -- The last request is the garbled one, so the failure is what was made of it.
    | refused hcalls hmade hconcludes =>
      obtain ⟨-, hlast⟩ := List.append_inj' hes rfl
      obtain rfl := List.singleton_inj.mp hlast
      exact Except.error.inj (hconcludes.of_garbles hgarbles)
  | @unwritable y fields current _ hfields hread hdrift hbody =>
    -- a look that was replied so has found the service
    have hfound {answer : Except Fault Service}
        (hconcludes : Client.Concludes (.read a.space desired.name) [y] answer) :
        answer = .ok current := (hconcludes.taken y.1 y.2 fields rfl hfields).trans hread
    generalize hes : [y] = made at hfails
    cases hfails with
    | halted hcalls hmade halt =>
      subst hes
      obtain _ | ⟨hconcludes, ⟨⟩⟩ := hmade
      cases hcalls with
      -- A create is due only where nothing was found.
      | creating space name => cases hfound hconcludes
      | writing => exact .inr ⟨rfl, halt, rfl⟩
    | unwritable hdrift' hmade hbody' =>
      subst hes
      obtain _ | ⟨hconcludes, ⟨⟩⟩ := hmade
      obtain rfl := Except.ok.inj (hfound hconcludes)
      exact .inl (Except.error.inj (hbody'.symm.trans hbody))
    | refused hcalls hmade hconcludes =>
      rw [← List.nil_append [y]] at hes
      obtain ⟨rfl, hlast⟩ := List.append_inj' hes rfl
      obtain rfl := List.singleton_inj.mp hlast
      cases hmade
      cases hcalls
      cases hfound hconcludes

/-- What escapes does so as it is. The exception is a service that cannot be written back
when the context is over at that moment; then the report is of the context. -/
theorem Escapes.during_cases (hescapes : Escapes desired es' f)
    (hfails : FailsBy a desired phase es' cause) (resource : Text) :
    cause.during phase resource = f
      ∨ ∃ halt, cause.during phase resource
        = .cycle true (Phase.name .writing) resource (some (.halted halt)) := by
  rcases hescapes.eq_or_halted hfails with rfl | ⟨rfl, halt, rfl⟩
  · exact .inl (Fault.during_of_ofValue hescapes.ofValue phase resource)
  · exact .inr ⟨halt, Fault.during_eq ⟨rfl, rfl⟩ .writing resource⟩

/-- A cycle that completes lets nothing escape: each of its replies was read as a service,
and its update was written. So the cases of an escape and of an outcome exclude each
other. -/
theorem Completes.not_escapes {outcome : Outcome}
    (hcompletes : Completes (.read a.space desired.name) desired es outcome)
    (hmade : Concluded es es') : ¬Escapes desired es' f := by
  intro hescapes
  cases hescapes with
  | garbled before y hgarbles =>
    exact hmade.not_garbles hcompletes.goesOn (by simp) hgarbles
  | @unwritable y fields current _ hfields hread hdrift hbody =>
    cases hcompletes with
    | unchanged current' hsame =>
      -- The only call was the look; its answer shows a drift and, the run being unchanged, shows none.
      obtain _ | ⟨hconcludes, -⟩ := hmade
      obtain rfl := Except.ok.inj ((hconcludes.taken y.1 y.2 fields rfl hfields).trans hread)
      exact Bool.noConfusion (hsame.symm.trans hdrift)
    -- Any other course made more calls than the one that escaped.
    | _ => exact absurd hmade.length_eq (by simp)

end Courses

/-! ## Whole cycles -/

/-- The desired service can be written: there is nothing it would be written over. -/
theorem Engine.exists_manifest_of_desired {τ : Type} {settings : ServiceSettings} {a : Assignment τ}
    {desired : Service} (hdesired : (ofSettings settings).desired a = .ok desired) :
    ∃ body, desired.manifest = .ok body := by
  obtain ⟨_, hbuilt, rfl⟩ := eq_of_desired hdesired
  obtain ⟨_, _, -, -, -, rfl⟩ := ServiceSettings.eq_of_build hbuilt
  exact ⟨_, Service.manifest_eq rfl rfl⟩

/-- How a run of a cycle ends, by its requests: it completes or it fails. The course of
the cycle speaks of calls; the requests that carry them are matched with the calls one by
one, and the rest is read off the requests. -/
theorem ends_of_sending {σ : Type} {settings : ServiceSettings} {a : Assignment Seconds}
    {desired : Service} (hdesired : (Engine.ofSettings settings).desired a = .ok desired)
    (hwellFormed : ∀ given, a.context.deadline ≠ .malformed given)
    (hdeadline : ∀ time, a.context.deadline = .at time → time.Exact) (c : Client Seconds)
    (world : Surroundings σ Seconds (Request Seconds) Reply) (hclock : ∀ s, (world.now s).1.Exact)
    (hgenuine : ∀ request s, (world.call request s).1.Genuine) (s : σ) :
    Attempt.EndsWith
      (fun outcome => ∃ es, Completes (.read a.space desired.name) desired es outcome
        ∧ Concluded es ((sending (Engine.ofSettings settings) a c).exchanges world s))
      (fun f => ∃ phase cause,
        FailsBy a desired phase ((sending (Engine.ofSettings settings) a c).exchanges world s) cause
          ∧ f = cause.during phase (a.resource desired.name.display))
      ((sending (Engine.ofSettings settings) a c).run world s).1 := by
  obtain ⟨h, hcycle, hrefines⟩ := Program.exists_of_unfolds_refine
    (Program.unfolds_run world (sending (Engine.ofSettings settings) a c) s)
  have hmade := Program.exchanges_events world (sending (Engine.ofSettings settings) a c) s
  -- The clock is exact at every time the run reads, so the checks and timeouts mean what they say.
  have htells : Client.Tells a.context ((sending (Engine.ofSettings settings) a c).events world s) := by
    refine ⟨hwellFormed, fun time now htime hread => ?_⟩
    obtain ⟨s', rfl⟩ := Program.time_of_mem_events hread
    exact Seconds.sub_exact (hdeadline time htime) (hclock s')
  have hreplies : ∀ y ∈ (sending (Engine.ofSettings settings) a c).exchanges world s, y.2.Genuine := by
    rintro ⟨request, reply⟩ hy
    obtain ⟨s', rfl⟩ := Program.answer_of_mem_exchanges hy
    exact hgenuine request s'
  rw [← hmade] at hreplies ⊢
  refine (unfolds_reconcile hdesired hcycle).mono ?_ ?_
  · rintro outcome ⟨hcompletes, -⟩
    exact ⟨_, hcompletes, concluded_of_handled (Client.forall₂_handled hrefines hcompletes.goesOn) hreplies⟩
  · rintro f ⟨phase, cause, hfails, rfl⟩
    have hbody := Engine.exists_manifest_of_desired hdesired
    exact ⟨phase, cause, hfails.failsBy hrefines hbody htells hreplies, rfl⟩

/-- A line that is kept as a text can be any text. One that is written has to consist of
characters: a surrogate in it has no bytes, and the line is refused for the first one. -/
theorem Command.Outlet.refusal?_eq_none_iff (outlet : Outlet) (line : Text) :
    outlet.refusal? line = none ↔ (outlet = .written → ∀ p ∈ line.points, p.char?.isSome = true) := by
  cases outlet with
  | kept => simp [refusal?]
  | written =>
    simp only [refusal?, Text.Utf8.gap?, forall_const, Option.map_eq_none_iff, ite_eq_left_iff,
      reduceCtorEq, imp_false, Decidable.not_not, List.all_eq_true]

/-- What is left of a command whose work is done is to log its line and to print it. -/
theorem Command.conclude_ok (given : Given) (adapter : Log.Adapter) (station : Station) (line : Text) :
    (conclude given adapter (.ok line)).run.run station
      = let logged := station.log given.stamp adapter ⟨.info, "Reconcile summary: %s", [line]⟩
        match given.outlet.refusal? line with
        | none => (.ok 0, logged.print line)
        | some fault => (.error (.fault fault), logged) := by
  unfold conclude
  dsimp only
  cases given.outlet.refusal? line <;> rfl

/-- How a command ends, by the result of its cycle. A summary has to be printed before the
command exits with status 0. -/
theorem Command.ending_conclude (given : Given) (adapter : Log.Adapter) (station : Station)
    (result : Except Fault Text) :
    ending ((conclude given adapter result).run.run station).1
      = match result with
        | .ok line => ((given.outlet.refusal? line).map Ending.fault).getD (.exit 0)
        | .error (.cycle _ _ _ _) => .exit 2
        | .error fault => .fault fault := by
  cases result with
  | ok line =>
    rw [conclude_ok]
    dsimp only
    cases given.outlet.refusal? line <;> rfl
  | error fault => cases fault <;> rfl

/-- Of the faults over a value, none is a report. -/
theorem Command.ending_conclude_of_ofValue (given : Given) (adapter : Log.Adapter) (station : Station)
    {f : Fault} (hvalue : f.OfValue) :
    ending ((conclude given adapter (.error f)).run.run station).1 = .fault f := by
  rw [ending_conclude]
  cases f with
  | misuse | badValue => rfl
  | _ => exact hvalue.elim

/-- **Failures are reported, or they escape.** For an owner with a name and a namespace, whatever the
context, the clock and the replies of the server: a cycle succeeds, and its command exits with status 0
if its line can be printed, and else ends with why it cannot; or the cycle fails with a report, and its
command exits with status 2; or it fails with what is wrong with the last reply, such as an object that
is nested too deeply to be copied, or over a service that was read and cannot be written back, and no
status is foreseen for that. Conversely, wherever there is something to escape the cycle fails with it,
unless its context is over before the service is written back. How a run ends is told by its requests
(`ends_of_sending`); `FailsBy.during_cases` then sorts the failures, and `Completes.not_escapes` keeps
what escapes apart from a success. -/
theorem failures_reported_or_escape {σ : Type} {settings : ServiceSettings} (hkeyed : settings.Keyed)
    {a : Assignment Seconds} (hname : a.owner.name.truthy = true) (hspace : a.space.truthy = true)
    (hwellFormed : ∀ given, a.context.deadline ≠ .malformed given)
    (hdeadline : ∀ time, a.context.deadline = .at time → time.Exact) (c : Client Seconds)
    (world : Surroundings σ Seconds (Request Seconds) Reply) (hclock : ∀ s, (world.now s).1.Exact)
    (hgenuine : ∀ request s, (world.call request s).1.Genuine) (s : σ) (line : Outcome → Text)
    (given : Command.Given) (adapter : Log.Adapter) (station : Command.Station) :
    let made := (sending (Engine.ofSettings settings) a c).exchanges world s
    let result := ((sending (Engine.ofSettings settings) a c).run world s).1
    let ended :=
      Command.ending ((Command.conclude given adapter (result.map line)).run.run station).1
    ((∃ outcome, result = .ok outcome
        ∧ (given.outlet.refusal? (line outcome) = none ∧ ended = .exit 0
          ∨ ∃ f, given.outlet.refusal? (line outcome) = some f ∧ ended = .fault f))
      ∨ (∃ phase cause, result = .error (.cycle cause.isHalt (Phase.name phase)
          (a.resource settings.name.display) (some cause)) ∧ ended = .exit 2)
      ∨ ∃ desired f, (Engine.ofSettings settings).desired a = .ok desired
        ∧ Escapes desired made f ∧ result = .error f ∧ ended = .fault f)
    ∧ ∀ desired f, (Engine.ofSettings settings).desired a = .ok desired → Escapes desired made f →
      result = .error f ∨ ∃ halt, result = .error (.cycle true (Phase.name .writing)
        (a.resource settings.name.display) (some (.halted halt))) := by
  intro made result ended
  have hended {told : Except Fault Text} (htold : result.map line = told) :
      ended = Command.ending ((Command.conclude given adapter told).run.run station).1 :=
    htold ▸ rfl
  rcases desired_cases hkeyed hname hspace with
    ⟨desired, hdesired, hnamed⟩ | ⟨built, cause, -, -, hcause, hdesired⟩
  · have hends : Attempt.EndsWith _ _ result :=
      ends_of_sending hdesired hwellFormed hdeadline c world hclock hgenuine s
    rw [hnamed] at hends
    cases hresult : result with
    | ok outcome =>
      rw [hresult] at hends hended
      obtain ⟨es, hcompletes, hmade⟩ := hends
      have hline : ended = ((given.outlet.refusal? (line outcome)).map .fault).getD (.exit 0) :=
        (hended rfl).trans (Command.ending_conclude ..)
      refine ⟨.inl ⟨outcome, rfl, ?_⟩, fun desired' f hdesired' hescapes => ?_⟩
      · -- all that is left is to print the line
        cases hrefusal : given.outlet.refusal? (line outcome) with
        | none => exact .inl ⟨rfl, by rw [hline, hrefusal]; rfl⟩
        | some f => exact .inr ⟨f, rfl, by rw [hline, hrefusal]; rfl⟩
      obtain rfl := Except.ok.inj (hdesired.symm.trans hdesired')
      rw [← hnamed] at hcompletes
      exact absurd hescapes (hcompletes.not_escapes hmade)
    | error f =>
      rw [hresult] at hends hended
      obtain ⟨phase, cause, hfails, rfl⟩ := hends
      constructor
      · -- a failure is wrapped in its phase, or comes through as it was
        rcases hfails.during_cases (a.resource settings.name.display) with hreport | ⟨hescapes, hplain⟩
        · rw [hreport] at hended ⊢
          have hexit : ended = .exit 2 := (hended rfl).trans (Command.ending_conclude ..)
          exact .inr (.inl ⟨phase, cause, rfl, hexit⟩)
        · rw [hplain] at hended ⊢
          have hfault : ended = .fault cause :=
            (hended rfl).trans (Command.ending_conclude_of_ofValue _ _ _ hescapes.ofValue)
          exact .inr (.inr ⟨desired, cause, hdesired, hescapes, rfl, hfault⟩)
      · intro desired' f hdesired' hescapes
        obtain rfl := Except.ok.inj (hdesired.symm.trans hdesired')
        exact (hescapes.during_cases hfails _).imp (congrArg Except.error)
          (Exists.imp fun halt => congrArg Except.error)
  · have hresult : result = .error (cause.during .start (a.resource settings.name.display)) := by
      unfold result
      rw [sending_unstarted hdesired]
      rfl
    rw [Fault.during_eq hcause] at hresult
    rw [hresult] at hended
    have hexit : ended = .exit 2 := (hended rfl).trans (Command.ending_conclude ..)
    refine ⟨.inr (.inl ⟨.start, cause, hresult, hexit⟩), fun desired f hdesired' => ?_⟩
    cases hdesired.symm.trans hdesired'

/-! ## Two responses that nobody has foreseen -/

/-- A result is a failure that is no report, and is worded so. -/
def unreportedAs {α : Type} (result : Except Fault α) (wording : Text) : Bool :=
  match result with
  | .error f => !f.isReported && f.wording == some wording
  | .ok _ => false

theorem exists_of_unreportedAs {α : Type} {result : Except Fault α} {wording : Text}
    (h : unreportedAs result wording = true) :
    ∃ f, result = .error f ∧ f.isReported = false ∧ f.wording = some wording := by
  cases result with
  | ok a => cases h
  | error f => exact ⟨f, rfl, by simpa [unreportedAs] using h⟩

/-- A response that holds a service without a specification. -/
def Http.Response.unspecified : Response := Cluster.accepted 200 "OK" [(.text "spec", .null)]

/-- A service without a specification is read, and cannot be written back. -/
theorem failures_reported_or_escape_unspecified :
    ServiceSettings.Keyed {} ∧ Assignment.sample.owner.name.truthy = true
      ∧ Assignment.sample.space.truthy = true
      ∧ ∀ (line : Outcome → Text) (given : Command.Given) (adapter : Log.Adapter)
          (station : Command.Station),
        ∃ desired f, (Engine.ofSettings {}).desired Assignment.sample = .ok desired
          ∧ Escapes desired ((sending (Engine.ofSettings {}) Assignment.sample Client.sample).exchanges
            (Surroundings.answering (.response .unspecified)) ()) f
          ∧ ((sending (Engine.ofSettings {}) Assignment.sample Client.sample).run
            (Surroundings.answering (.response .unspecified)) ()).1 = .error f
          ∧ Command.ending ((Command.conclude given adapter
            (((sending (Engine.ofSettings {}) Assignment.sample Client.sample).run
              (Surroundings.answering (.response .unspecified)) ()).1.map line)).run.run station).1
            = .fault f := by
  have hname : Assignment.sample.owner.name.truthy = true := rfl
  have hspace : Assignment.sample.space.truthy = true := rfl
  refine ⟨ServiceSettings.keyed_default, hname, hspace, fun line given adapter station => ?_⟩
  have hgenuine (request : Request Seconds) (s : Unit) :
      ((Surroundings.answering (.response .unspecified)).call request s).1.Genuine := ⟨200, rfl⟩
  have hunreported : unreportedAs ((sending (Engine.ofSettings {}) Assignment.sample Client.sample).run
      (Surroundings.answering (.response .unspecified)) ()).1 "" = true := by decide +kernel
  obtain ⟨f, hfails, hreported, -⟩ := exists_of_unreportedAs hunreported
  obtain ⟨⟨outcome, hcompletes, -⟩ | ⟨phase, cause, hcycle, -⟩ | hescapes, -⟩ :=
    failures_reported_or_escape ServiceSettings.keyed_default hname hspace (by simp [Assignment.sample])
      (by simp [Assignment.sample]) Client.sample (Surroundings.answering (.response .unspecified))
      (fun _ => Nat.two_pow_pos 53) hgenuine () line given adapter station
  · cases hfails.symm.trans hcompletes
  · -- a report is reported
    obtain rfl := Except.error.inj (hfails.symm.trans hcycle)
    cases hreported
  · exact hescapes

/-- A response that holds a service with one port. -/
def Http.Response.porting (port : Value) : Response :=
  Cluster.accepted 200 "OK"
    [(.text "spec", .map [(.text "ports", .list [.map [(.text "port", port)]])])]

/-- **A port escapes.** Where the look finds a service whose port is no number, the cycle
fails with what the conversion says. That is no report, and its command has no status for
it: only failures of the control plane and ends of the context are given the phase they
happened in. -/
theorem port_escapes : ∃ f,
    ((sending (Engine.ofSettings {}) Assignment.sample Client.sample).run
      (Surroundings.answering (.response (.porting (.text "http")))) ()).1 = .error f
    ∧ f.isReported = false ∧ f.wording = some "invalid literal for int() with base 10: 'http'"
    ∧ ∀ (line : Outcome → Text) (given : Command.Given) (adapter : Log.Adapter)
        (station : Command.Station),
      Command.ending ((Command.conclude given adapter
        (((sending (Engine.ofSettings {}) Assignment.sample Client.sample).run
          (Surroundings.answering (.response (.porting (.text "http")))) ()).1.map line)).run.run
            station).1 = .fault f := by
  -- The run is evaluated once; that the fault is no failure of the cycle is then read off it.
  have hunreported : unreportedAs ((sending (Engine.ofSettings {}) Assignment.sample Client.sample).run
      (Surroundings.answering (.response (.porting (.text "http")))) ()).1
        "invalid literal for int() with base 10: 'http'" = true := by decide +kernel
  obtain ⟨f, hfails, hreported, hwording⟩ := exists_of_unreportedAs hunreported
  refine ⟨f, hfails, hreported, hwording, fun line given adapter station => ?_⟩
  rw [hfails, Command.ending_conclude]
  cases f with
  | cycle => cases hreported
  | _ => rfl

end Keeper
