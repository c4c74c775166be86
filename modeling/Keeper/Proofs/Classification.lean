import Keeper.Proofs.Cancellation

/-!
# Keeper — what becomes of responses

A response says that there is no service, holds one, or is a failure. Only the first leads to a create
and only the second to an update.

* **`BlamesValue`** — what is read from a response fails for what stands in it, never for its status.
* **`Http.Response.Holds`** — a response that holds fields; **`TooDeep`** is the one kind of content that
  is neither read nor reported.
* **`Client.Settles`** — what is made of a reply, kind by kind.
* **`Client.Concludes`** — how a call ends, by what was sent for it and replied.
* **`Backed`** — a write is backed by the response before it.
* **`response_decides`** — so it is in every cycle and for every call.
-/

namespace Keeper

open Http (Method Request Reply Response)

/-! ## What a value is to blame for -/

/-- A value has the wrong shape, or is not acceptable. -/
def Fault.OfValue : Fault → Prop
  | .misuse _ | .badValue _ => True
  | _ => False

/-- Something that fails only for the values it reads. -/
def BlamesValue {α : Type} (e : Except Fault α) : Prop := ∀ f, e = .error f → f.OfValue

namespace BlamesValue

variable {α β : Type}

/-- A step that has succeeded blames nothing. The rules below follow the ways in which the
readers of a service are put together, so that a proof about a reader names its steps in
the order of its text. -/
theorem ok (a : α) : BlamesValue (.ok a) := by simp [BlamesValue]

/-- The first of the two sources of blame: a value that lacks the operation asked of
it. -/
theorem misused (m : Misuse) : BlamesValue (Value.misused m : Except Fault α) := by
  rintro f ⟨⟩
  trivial

/-- The second source of blame: a value of the right type that the operation refuses, such
as a text that spells no number. -/
theorem rejected (b : BadValue) : BlamesValue (Value.rejected b : Except Fault α) := by
  rintro f ⟨⟩
  trivial

/-- Blame passes through sequencing: whatever the first step has read, the second may only
blame a value in its turn. -/
theorem bind {e : Except Fault α} {f : α → Except Fault β} (he : BlamesValue e)
    (hf : ∀ a, BlamesValue (f a)) : BlamesValue (e >>= f) := by
  cases e with
  | error fault =>
    rintro fault' ⟨⟩
    exact he fault rfl
  | ok a => exact hf a

/-- A list read element by element blames a value if the reading of each element does. The
induction is on the list, with one use of `bind` for each element. -/
theorem mapM {f : α → Except Fault β} (hf : ∀ a, BlamesValue (f a)) (xs : List α) :
    BlamesValue (xs.mapM f) := by
  induction xs with
  | nil => exact ok []
  | cons x xs ih =>
    rw [List.mapM_cons]
    exact (hf x).bind fun y => ih.bind fun ys => ok (y :: ys)

theorem map (f : α → β) {e : Except Fault α} (he : BlamesValue e) : BlamesValue (e.map f) := by
  cases e with
  | error fault =>
    rintro fault' ⟨⟩
    exact he fault rfl
  | ok a => exact ok (f a)

/-- Taking a value as a map blames that value and nothing else. -/
theorem fields (v : Value) : BlamesValue v.fields := by
  cases v with
  | map fs => exact ok fs
  | _ => exact misused _

/-- Going through the elements of a value blames that value. The texts and the maps have
elements as well, so the only cases that fail are the values that have none. -/
theorem items (v : Value) : BlamesValue v.items := by
  unfold Value.items
  split
  all_goals first | exact ok _ | exact misused _

/-- Reading a numeral blames its literal, either because it spells no integer or because
it has too many digits. -/
theorem numeral (literal : Text) (n : Numeral) : BlamesValue (Value.integerOfNumeral literal n) := by
  cases n with
  | value i => exact ok i
  | _ => exact rejected _

/-- The conversion of a value to an integer blames the value: the cases are the
constructors of a value. -/
theorem toInteger (v : Value) : BlamesValue v.toInteger := by
  unfold Value.toInteger
  split
  case h_4 =>
    split
    · exact ok _
    · exact misused _
  case h_5 => exact numeral _ _
  case h_6 => exact numeral _ _
  all_goals first | exact ok _ | exact rejected _ | exact misused _

/-- The pairs of a list that is read as a map are taken one by one, and a bad pair is
blamed with its index. -/
theorem entriesOfPairs (index : Nat) (pairs : List Value) :
    BlamesValue (Value.entriesOfPairs index pairs) := by
  induction pairs generalizing index with
  | nil => exact ok []
  | cons pair rest ih =>
    refine (items pair).bind fun parts => ?_
    split
    · exact (ih (index + 1)).bind fun es => ok _
    · exact misused _
    · exact rejected _

/-- A value read as the content of a map blames that value, whether it is a map, a list of
pairs or nothing of the kind. -/
theorem toFields (v : Value) : BlamesValue v.toFields := by
  cases v with
  | map fs => exact ok fs
  | _ => exact (items _).bind fun xs => (entriesOfPairs 0 xs).bind fun es => ok _

variable (fs : Fields) (key : Text)

theorem part : BlamesValue (fs.part key) := fields _

/-- A section that may be absent is read as `Fields.part` is, from the value that stands
for it. -/
theorem part? : BlamesValue (fs.part? key) := by
  unfold Fields.part?
  split
  · exact ok none
  · exact (toFields _).map some

/-- The elements of a section blame a value as soon as the reader of one element does. -/
theorem parts {read : Value → Except Fault α} (hread : ∀ v, BlamesValue (read v)) :
    BlamesValue (fs.parts key read) := (items _).bind (mapM hread)

/-- A text that is shown fails only where the digits of an integer are too many to be
written. -/
theorem shown (v : Value) : BlamesValue v.shown := by
  unfold Value.shown
  split
  · exact ok _
  · exact rejected _

theorem textOr (default : Text) : BlamesValue (fs.textOr key default) := shown _

/-- The copy of the fields fails only by the limit on its depth, which is a fault of the
value. -/
theorem copied : BlamesValue fs.copied := by
  unfold Fields.copied
  split
  · exact ok _
  · exact misused _

/-- The reading of one owner reference, as a sequence of the readers above. -/
theorem ofOwnerReference (v : Value) : BlamesValue (OwnerReference.ofManifest v) := by
  refine (fields v).bind fun fields => ?_
  have hpart (key : Text) : BlamesValue (do
      return Value.text (← (fields.getD (.text key) (.text "")).shown)) :=
    (shown _).bind fun _ => ok _
  exact (hpart _).bind fun _ => (hpart _).bind fun _ => (hpart _).bind fun _ =>
    (hpart _).bind fun _ => ok _

/-- The reading of one port. Its number goes through `Value.toInteger`, which is where a
value that is no number comes in. -/
theorem ofPort (v : Value) : BlamesValue (Port.ofManifest v) := by
  refine (fields v).bind fun fields => (toInteger _).bind fun _ => ?_
  exact (textOr fields _ _).bind fun _ => (textOr fields _ _).bind fun _ =>
    (copied _).bind fun _ => ok _

/-- The reading of a service: the copies, the sections, the texts with their defaults,
then the ports and the owner references. Whatever goes wrong there is the fault of a value
in the manifest. -/
theorem ofManifest (v : Value) : BlamesValue (Service.ofManifest v) := by
  -- The rules are tried in the order in which the reader's steps stand.
  unfold Service.ofManifest
  refine (fields v).bind fun raw => (part raw _).bind fun metadata => (part raw _).bind fun spec => ?_
  refine (shown _).bind fun _ => (shown _).bind fun _ => ?_
  refine (part? metadata _).bind fun _ => (part? metadata _).bind fun _ => ?_
  refine (parts metadata _ ofOwnerReference).bind fun _ => (part? spec _).bind fun _ => ?_
  refine (textOr spec _ _).bind fun _ => (textOr spec _ _).bind fun _ => ?_
  exact (parts spec _ ofPort).bind fun _ => (textOr metadata _ _).bind fun _ =>
    (copied raw).bind fun _ => ok _

/-- A reply that names a service is read as one, and an empty reply stands for the service
that was sent; the second way cannot fail. -/
theorem serviceOr (sent : Service) : BlamesValue (Client.serviceOr sent fs) := by
  unfold Client.serviceOr
  split
  · exact ok sent
  · exact ofManifest _

theorem writable (otherwise : Misuse) (v : Value) : BlamesValue (Service.writable otherwise v) := by
  cases v with
  | map fs => exact ok fs
  | _ => exact misused _

/-- A service that cannot be written is kept in a document of the wrong shape. -/
theorem manifest (s : Service) : BlamesValue s.manifest :=
  (writable _ _).bind fun _ => (writable _ _).bind fun _ => ok _

end BlamesValue

/-! ## Responses -/

namespace Http

/-- The status of a reply; that of a failure to get a response is 0. -/
def Reply.status : Reply → Value
  | .response r => r.status
  | _ => Client.noStatus

/-- The replies of a server: a response with a number for its status, or none. -/
def Reply.Genuine : Reply → Prop
  | .response r => ∃ status : Int, r.status = .int status
  | .timedOut _ | .failed _ => True
  | .unwritable _ => False

/-- A response holds fields: its status is below 400, and its content is an object or
nothing. -/
def Response.Holds (r : Response) : Prop :=
  (∃ status : Int, r.status = .int status ∧ status < 400)
    ∧ (r.content.isEmpty = true ∨ ∃ fields, r.content.value = .ok (.map fields))

/-- A response is no failure, but its content is nested too deeply. -/
def Response.TooDeep (r : Response) : Prop :=
  r.isFailure = .ok false ∧ r.content.isEmpty = false
    ∧ ∃ e, r.content.value = .error e ∧ e.problem = .tooDeep

def Reply.TooDeep (reply : Reply) : Prop := ∃ r, reply = .response r ∧ r.TooDeep

variable {r : Response}

/-- A response from which fields are taken holds them: its status is below 400, and its
content is a map or nothing at all. -/
theorem Response.holds_of_fields? {status : Int} (hstatus : r.status = .int status) {fields : Fields}
    (hfields : r.fields? = some fields) : r.Holds := by
  unfold fields? at hfields
  rw [isFailure_int hstatus] at hfields
  -- a failure gives no fields; of the others an empty content stands for none
  by_cases hfailed : 400 ≤ status
  · simp [hfailed] at hfields
  · refine ⟨⟨status, hstatus, by omega⟩, ?_⟩
    simp only [hfailed, decide_false] at hfields
    split at hfields
    next hempty => exact .inl hempty
    next hcontent =>
      split at hfields
      next fields' hvalue => exact .inr ⟨fields', hvalue⟩
      next => cases hfields

/-- The converse, for the program's own tests: no failure, a content that is not empty and
a content that reads as a map. -/
theorem Response.fields?_of_map (hfailure : r.isFailure = .ok false)
    (hcontent : r.content.isEmpty = false) {fields : Fields}
    (hvalue : r.content.value = .ok (.map fields)) : r.fields? = some fields := by
  unfold fields?
  simp [hfailure, hcontent, hvalue]

/-- A content that is no object holds nothing. -/
theorem Response.fields?_of_not_map (hcontent : r.content.isEmpty = false)
    (hvalue : ∀ fields, r.content.value ≠ .ok (.map fields)) : r.fields? = none := by
  unfold fields?
  split
  next hfailure =>
    rw [if_neg (by simp [hcontent])]
    split
    next fields hmap => exact absurd hmap (hvalue fields)
    next => rfl
  next => rfl

/-- A content that is nested too deeply has no fields, so that it never counts as an
answer that holds a service. -/
theorem Response.TooDeep.fields?_eq_none (hdeep : r.TooDeep) : r.fields? = none := by
  obtain ⟨-, hcontent, e, hvalue, -⟩ := hdeep
  exact fields?_of_not_map hcontent (by simp [hvalue])

theorem Response.isFailure_notFound (hstatus : r.status = .int 404) : r.isFailure = .ok true :=
  isFailure_int hstatus

end Http

/-! ## What is made of a reply -/

/-- The part of a content that an error quotes is bounded, however long the content is. -/
theorem length_snippet_le (t : Text) : (snippet t).points.length ≤ snippetLength :=
  List.length_take_le _ _

namespace Client

variable {τ : Type} [TimeScale τ] {c : Client τ} {ctx : RequestContext τ} {method : Method}
  {path : Text} {reply : Reply} {result : Except Fault Fields} {m : List (RequestEvent τ)}

/-- What is made of a reply: its fields are taken, or it is a failure that tells the
status, the request and a snippet. A content that is nested too deeply is told by nothing,
and a context may be to blame that there was no response. -/
inductive Settles (c : Client τ) (method : Method) (path : Text) :
    Reply → Except Fault Fields → Prop where
  | taken {reply : Reply} {fields : Fields} (hfields : reply.fields? = some fields) :
    Settles c method path reply (.ok fields)
  | tooDeep {r : Response} (hdeep : r.TooDeep) :
    Settles c method path (.response r) (.error (.misuse .tooDeep))
  | overdue (text : Text) (halt : Halt) :
    Settles c method path (.timedOut text) (.error (.halted halt))
  | failed {reply : Reply} (hfields : reply.fields? = none) (hdeep : ¬reply.TooDeep) (shown : Text)
    (hshown : shown.points.length ≤ snippetLength) (detail : Value) :
    Settles c method path reply (.error (c.failure method path reply.status shown detail))

omit [TimeScale τ] in
/-- What is made of a response with an integer status. The cases are those of the reading:
a status of 400 or more, an empty content, a content that is not read, a map, and any
other value. -/
theorem settles_of_response {r : Response} {status : Int} (hstatus : r.status = .int status) :
    Settles c method path (.response r) (c.taken method path r) := by
  have hfailure := Response.isFailure_int hstatus
  have hfails (hfields : (Reply.response r).fields? = none) (hdeep : ¬(Reply.response r).TooDeep)
      (t : Text) (detail : Value) : Settles c method path (.response r)
        (.error (c.failure method path r.status (snippet t) detail)) :=
    .failed hfields hdeep _ (length_snippet_le t) detail
  -- A status of an error settles the reply at once; the content is not looked at.
  by_cases hfailed : 400 ≤ status
  · simp only [hfailed, decide_true] at hfailure
    rw [c.taken_of_failure method path hfailure]
    refine hfails ?_ ?_ _ _
    · simp [Http.Reply.fields?, Response.fields?, hfailure]
    · rintro ⟨_, ⟨⟩, hsucceeds, -⟩
      cases hfailure.symm.trans hsucceeds
  · simp only [hfailed, decide_false] at hfailure
    have hcontents : c.taken method path r = c.contents method path r := by
      unfold taken
      rw [hfailure]
      rfl
    rw [hcontents]
    cases hempty : r.content.isEmpty with
    | true =>
      have hfields : r.fields? = some [] := by simp [Response.fields?, hfailure, hempty]
      simp only [contents, hempty, if_true]
      exact .taken hfields
    | false =>
      -- now the content decides
      simp only [contents, hempty, Bool.false_eq_true, if_false]
      split
      next e hvalue =>
        split
        next hproblem => exact .tooDeep ⟨hfailure, hempty, e, hvalue, hproblem⟩
        next hproblem =>
          refine hfails ?_ ?_ _ _
          · exact Response.fields?_of_not_map hempty (by simp [hvalue])
          · rintro ⟨_, ⟨⟩, -, -, e', hvalue', hproblem'⟩
            cases hvalue.symm.trans hvalue'
            exact hproblem hproblem'
      next fields hvalue => exact .taken (Response.fields?_of_map hfailure hempty hvalue)
      next v hmap hvalue =>
        refine hfails ?_ ?_ _ _
        · exact Response.fields?_of_not_map hempty (by simpa [hvalue] using hmap)
        · rintro ⟨_, ⟨⟩, -, -, e', hvalue', -⟩
          cases hvalue.symm.trans hvalue'

/-- A context can always tell what is left: its end is a time that can be measured from
every time that is read. -/
structure Tells (ctx : RequestContext τ) (m : List (RequestEvent τ)) : Prop where
  wellFormed : ∀ given, ctx.deadline ≠ .malformed given
  spans : ∀ time now, ctx.deadline = .at time → .read now ∈ m →
    ∃ left, TimeScale.sub time now = .ok left

omit [TimeScale τ] in
/-- Where a context stops a call, the cause is one of its own two halts. The hypothesis
leaves out the deadline that is no number, which is the one cause of another kind. -/
theorem halted_of_stops {cause : Fault} (hstops : ctx.Stops cause)
    (hwellFormed : ∀ given, ctx.deadline ≠ .malformed given) : ∃ halt, cause = .halted halt := by
  cases hstops with
  | malformed given hdeadline => exact absurd hdeadline (hwellFormed given)
  | _ => exact ⟨_, rfl⟩

/-- The same for everything a call may receive: a response goes to `settles_of_response`,
a response that has not come in time is the fault of the context where that is over, and
otherwise a failure with nothing to quote. -/
theorem settles_of_receives (hreceives : Receives c ctx method path reply m result)
    (hgenuine : reply.Genuine) (hwellFormed : ∀ given, ctx.deadline ≠ .malformed given) :
    Settles c method path reply result := by
  have hempty : ("" : Text).points.length ≤ snippetLength := Nat.zero_le _
  -- whoever sends no number for a status is no genuine server, and a request that cannot be written has
  -- no reply at all
  cases hreceives with
  | response r =>
    obtain ⟨status, hstatus⟩ := hgenuine
    exact settles_of_response hstatus
  | overdue text hcheck =>
    obtain ⟨halt, rfl⟩ := halted_of_stops hcheck.stops hwellFormed
    exact .overdue text halt
  | timedOut text hcheck => exact .failed rfl (by rintro ⟨_, ⟨⟩, -⟩) _ hempty _
  | failed text => exact .failed rfl (by rintro ⟨_, ⟨⟩, -⟩) _ hempty _
  | unwritable => exact hgenuine.elim

/-- A request is not sent because its context is over, or it is made of the reply what is
to be made of it. -/
theorem Sends.settles {body : Option Fields} (hsends : Sends c ctx method path body m result)
    (htells : Tells ctx m) (hgenuine : ∀ x ∈ Event.exchanges m, x.2.Genuine) :
    (Event.exchanges m = [] ∧ ∃ halt, result = .error (.halted halt))
      ∨ ∃ t reply, Event.exchanges m = [(c.request method path body t, reply)]
        ∧ Settles c method path reply result := by
  -- the first two ways end before anything is sent, and then the context is to blame
  cases hsends with
  | stopped hcheck =>
    obtain ⟨halt, rfl⟩ := halted_of_stops hcheck.stops htells.wellFormed
    exact .inl ⟨hcheck.exchanges, halt, rfl⟩
  | disallowed hcheck hallows =>
    refine .inl ⟨by simp [hcheck.exchanges, hallows.exchanges], ?_⟩
    cases hallows with
    | none => exact ⟨_, rfl⟩
    | unmeasured time now _ hdeadline hleft =>
      obtain ⟨left, hleft'⟩ := htells.spans time now hdeadline (by simp)
      cases hleft.symm.trans hleft'
    | malformed given now hdeadline => exact absurd hdeadline (htells.wellFormed given)
  | @sent _ _ _ t reply _ hcheck hallows raised hreceives =>
    refine .inr ⟨t, reply, ?_, settles_of_receives hreceives ?_ htells.wellFormed⟩
    · simp [hcheck.exchanges, hallows.exchanges, hreceives.exchanges]
    · exact hgenuine (c.request method path body t, reply) (by simp)

end Client

/-! ## How a call ends -/

namespace ServiceCall

/-- The service a call reads from the fields of a response. -/
def reading : ServiceCall → Fields → Except Fault Service
  | .read _ _, fields => Service.ofManifest (.map fields)
  | .create sent, fields | .update sent, fields => Client.serviceOr sent fields

/-- What the failure of a request is for a call: only for a read it may say that there is
nothing. -/
def failing : ServiceCall → Fault → Fault
  | .read space name, f => Client.missing space name f
  | .create _, f | .update _, f => f

/-- What a call makes of what its request came to. -/
def ending (op : ServiceCall) (result : Except Fault Fields) : Except Fault Service := do
  op.reading (← result.mapError op.failing)

/-- What was written is read as the service that was sent, or as what the response
holds. -/
theorem ending_of_write {op : ServiceCall} {method : Method} {path : Text} {service : Service}
    (hop : op.write? = some (method, path, service)) (result : Except Fault Fields) :
    op.ending result = (do Client.serviceOr service (← result)) := by
  cases op with
  | read space name => cases hop
  | create sent =>
    obtain ⟨-, -, rfl⟩ : _ ∧ _ ∧ sent = service := by simpa [write?] using hop
    cases result <;> rfl
  | update sent =>
    obtain ⟨-, -, rfl⟩ : _ ∧ _ ∧ sent = service := by simpa [write?] using hop
    cases result <;> rfl

/-- The three calls read their replies in the same way, a write with the service it has
sent for the case of an empty reply. -/
theorem blamesValue_reading (op : ServiceCall) (fields : Fields) : BlamesValue (op.reading fields) := by
  cases op with
  | read space name => exact BlamesValue.ofManifest _
  | create sent => exact BlamesValue.serviceOr fields sent
  | update sent => exact BlamesValue.serviceOr fields sent

end ServiceCall

namespace Client

variable {τ : Type} [TimeScale τ] {c : Client τ} {ctx : RequestContext τ} {op : ServiceCall}
  {made : List (RequestExchange τ)} {answer : Except Fault Service} {m : List (RequestEvent τ)}

/-- How a call ends, by the request that was sent for it and the reply. -/
structure Concludes (op : ServiceCall) (made : List (RequestExchange τ))
    (answer : Except Fault Service) : Prop where
  /-- Nothing is tried twice. -/
  once : made.length ≤ 1
  /-- Nothing is sent because the context is over, or because the service cannot be written. -/
  unsent : made = [] → (∃ halt, answer = .error (.halted halt))
    ∨ ∃ method path service f, op.write? = some (method, path, service)
      ∧ service.manifest = .error f ∧ answer = .error f
  /-- There is no such service exactly when a read was answered with status 404. -/
  absent : ∀ space name, answer = .error (.notFound space name)
    ↔ op = .read space name ∧ ∃ request r, made = [(request, .response r)] ∧ r.status = .int 404
  taken : ∀ request reply fields, made = [(request, reply)] → reply.fields? = some fields →
    answer = op.reading fields
  tooDeep : ∀ request reply, made = [(request, reply)] → reply.TooDeep →
    answer = .error (.misuse .tooDeep)
  /-- Any other reply is a failure, which tells the status, the request and a snippet, unless the
  context is to blame for it. -/
  failed : ∀ request reply, made = [(request, reply)] → reply.fields? = none → ¬reply.TooDeep →
    (∃ space name, answer = .error (.notFound space name))
      ∨ (∃ text halt, reply = .timedOut text ∧ answer = .error (.halted halt))
      ∨ ∃ shown detail, answer = .error (.api
          { status := reply.status, method := request.method.name, url := request.url,
            body := .text shown, detail })
        ∧ shown.points.length ≤ snippetLength

omit [TimeScale τ] in
/-- A call for which nothing was sent: the context had ended, or the service could not be
written as a manifest. The parts about a request hold because there is none. -/
theorem Concludes.of_unsent (hanswer : (∃ halt, answer = .error (.halted halt))
    ∨ ∃ method path service f, op.write? = some (method, path, service)
      ∧ service.manifest = .error f ∧ answer = .error f) :
    Concludes op ([] : List (RequestExchange τ)) answer where
  once := Nat.zero_le 1
  unsent := fun _ => hanswer
  absent := fun space name => by
    refine ⟨fun hnone => ?_, by simp⟩
    -- the failure to write a service blames a value, and so does not say that there is nothing
    rcases hanswer with ⟨halt, rfl⟩ | ⟨method, path, service, f, -, hbody, rfl⟩
    · cases hnone
    · obtain rfl := Except.error.inj hnone
      exact (BlamesValue.manifest service _ hbody).elim
  taken := by simp
  tooDeep := by simp
  failed := by simp

omit [TimeScale τ] in
/-- A failed request says that there is nothing only for a read, and only with status 404.
Any other call hands the failure on with its status, its request and a snippet. -/
theorem failing_failure (c : Client τ) (op : ServiceCall) (method : Method) (path : Text) {reply : Reply}
    (hgenuine : reply.Genuine) (shown detail : Value) :
    (∃ space name r, op = .read space name ∧ reply = .response r ∧ r.status = .int 404
        ∧ op.failing (c.failure method path reply.status shown detail) = .notFound space name)
      ∨ (∀ space name r, op = .read space name → reply = .response r → r.status ≠ .int 404)
        ∧ op.failing (c.failure method path reply.status shown detail)
          = c.failure method path reply.status shown detail := by
  cases op with
  | create sent => exact .inr ⟨by simp, rfl⟩
  | update sent => exact .inr ⟨by simp, rfl⟩
  | read space name =>
    obtain ⟨status, hstatus⟩ : ∃ status : Int, reply.status = .int status := by
      cases reply with
      | response r => exact hgenuine
      | _ => exact ⟨0, rfl⟩
    -- The program compares statuses as values, where only the integer 404 equals 404 among integers.
    have hnotFound : reply.status.eqv Response.notFound = true ↔ status = 404 := by
      rw [hstatus]
      exact Value.eqv_int status 404
    by_cases hmissing : status = 404
    · subst hmissing
      refine .inl ?_
      -- a failure to get a response does not have that status
      cases reply with
      | response r =>
        refine ⟨space, name, r, rfl, rfl, hstatus, ?_⟩
        rw [hstatus]
        exact missing_failure c space name method path shown detail
      | _ => cases hstatus
    · refine .inr ⟨?_, ?_⟩
      · rintro _ _ r - rfl hstatus'
        have hsame : Value.int status = .int 404 := hstatus.symm.trans hstatus'
        simp only [Value.int, Value.scalar.injEq, Scalar.int.injEq] at hsame
        exact hmissing hsame
      · simp only [ServiceCall.failing, failure, missing, if_neg (hnotFound.not.mpr hmissing)]

omit [TimeScale τ] in
/-- A call for which a request was sent. What is said about every request of the call is
said about this one, so the hypotheses speak of one request and one reply only; each of
the three kinds of call supplies them from its own handling. -/
theorem Concludes.of_sent {request : Request τ} {reply : Reply}
    (habsent : ∀ space name, answer = .error (.notFound space name)
      ↔ op = .read space name ∧ ∃ r, reply = .response r ∧ r.status = .int 404)
    (htaken : ∀ fields, reply.fields? = some fields → answer = op.reading fields)
    (htooDeep : reply.TooDeep → answer = .error (.misuse .tooDeep))
    (hfailed : reply.fields? = none → ¬reply.TooDeep →
      (∃ space name, answer = .error (.notFound space name))
        ∨ (∃ text halt, reply = .timedOut text ∧ answer = .error (.halted halt))
        ∨ ∃ shown detail, answer = .error (.api
            { status := reply.status, method := request.method.name, url := request.url,
              body := .text shown, detail })
          ∧ shown.points.length ≤ snippetLength) :
    Concludes op [(request, reply)] answer where
  once := Nat.le_refl 1
  unsent := by simp
  absent := fun space name => by
    refine (habsent space name).trans (and_congr_right fun _ => ⟨?_, ?_⟩)
    · rintro ⟨r, rfl, hstatus⟩
      exact ⟨request, r, rfl, hstatus⟩
    · rintro ⟨_, r, ⟨⟩, hstatus⟩
      exact ⟨r, rfl, hstatus⟩
  taken := by
    rintro _ _ fields ⟨⟩
    exact htaken fields
  tooDeep := by
    rintro _ _ ⟨⟩
    exact htooDeep
  failed := by
    rintro _ _ ⟨⟩
    exact hfailed

omit [TimeScale τ] in
/-- What was made of the reply decides how the call ends: one case for each way a
reply can settle, from a response that holds fields to a request that had no
response in time. -/
theorem Concludes.of_settles {method : Method} {path : Text} {body : Option Fields} {t : τ}
    {reply : Reply} {result : Except Fault Fields} (hsettles : Settles c method path reply result)
    (hgenuine : reply.Genuine) :
    Concludes op [(c.request method path body t, reply)] (op.ending result) := by
  have hending {f f' : Fault} (hfailing : op.failing f = f') : op.ending (.error f) = .error f' :=
    congrArg Except.error hfailing
  have hkept (f : Fault) (hfailing : op.failing f = f) : op.ending (.error f) = .error f :=
    hending hfailing
  cases hsettles with
  | @taken _ fields hfields =>
    refine .of_sent (fun space name => ⟨fun hnone => ?_, ?_⟩) (fun fields' hfields' => ?_) ?_ ?_
    · exact (op.blamesValue_reading _ _ hnone).elim
    · rintro ⟨-, r, rfl, hstatus⟩
      simp [Http.Reply.fields?, Response.fields?, Response.isFailure_notFound hstatus] at hfields
    · obtain rfl := Option.some.inj (hfields.symm.trans hfields')
      rfl
    · rintro ⟨r, rfl, hdeep⟩
      cases hfields.symm.trans hdeep.fields?_eq_none
    · intro hnone
      cases hfields.symm.trans hnone
  | @tooDeep r hdeep =>
    rw [hkept (.misuse .tooDeep) (by cases op <;> rfl)]
    refine .of_sent (fun space name => ⟨by simp, ?_⟩) (fun fields hfields => ?_) (fun _ => rfl) ?_
    · rintro ⟨-, _, ⟨⟩, hstatus⟩
      cases hdeep.1.symm.trans (Response.isFailure_notFound hstatus)
    · cases hfields.symm.trans hdeep.fields?_eq_none
    · exact fun _ hshallow => absurd ⟨r, rfl, hdeep⟩ hshallow
  -- No response in time: the end of the context is the answer, whatever the call.
  | overdue text halt =>
    rw [hkept (.halted halt) (by cases op <;> rfl)]
    refine .of_sent (by simp) (fun fields hfields => ?_) ?_ fun _ _ => ?_
    · cases hfields
    · rintro ⟨_, ⟨⟩, -⟩
    · exact .inr (.inl ⟨text, halt, rfl, rfl⟩)
  | failed hnone hdeep shown hshown detail =>
    have htaken {answer : Except Fault Service} (fields : Fields) (hfields : reply.fields? = some fields) :
        answer = op.reading fields := by cases hfields.symm.trans hnone
    -- the status decides whether that is how the call fails
    rcases c.failing_failure op method path hgenuine shown detail with
      ⟨space', name', r, rfl, rfl, hstatus, hmissing⟩ | ⟨hother, hfailing⟩
    · rw [hending hmissing]
      refine .of_sent (fun space name => ⟨?_, ?_⟩) htaken (absurd · hdeep) fun _ _ => ?_
      · rintro ⟨⟩
        exact ⟨rfl, r, rfl, hstatus⟩
      · rintro ⟨⟨⟩, -⟩
        rfl
      · exact .inl ⟨space', name', rfl⟩
    · rw [hending hfailing]
      refine .of_sent (fun space name => ⟨by simp [failure], ?_⟩) htaken (absurd · hdeep) fun _ _ => ?_
      · rintro ⟨hop, r, rfl, hstatus⟩
        exact absurd hstatus (hother space name r hop rfl)
      · exact .inr (.inr ⟨shown, detail, rfl, hshown⟩)

/-- **How a call ends.** A call sends one request or none, and `Concludes` says what it
answers in either case; everything about classification is read off this. -/
theorem Answers.concludes (hanswers : Answers c ctx op m answer) (htells : Tells ctx m)
    (hgenuine : ∀ x ∈ Event.exchanges m, x.2.Genuine) : Concludes op (Event.exchanges m) answer := by
  -- the three calls differ in what they make of the fields, which `op.ending` says
  have hsent {method : Method} {path : Text} {body : Option Fields} {result : Except Fault Fields}
      (hsends : Sends c ctx method path body m result) (hanswer : answer = op.ending result) :
      Concludes op (Event.exchanges m) answer := by
    subst hanswer
    rcases hsends.settles htells hgenuine with ⟨hmade, halt, rfl⟩ | ⟨t, reply, hmade, hsettles⟩
    · rw [hmade]
      exact .of_unsent (.inl ⟨halt, by cases op <;> rfl⟩)
    · rw [hmade]
      exact .of_settles hsettles (hgenuine (c.request method path body t, reply) (by simp [hmade]))
  cases hanswers with
  | read hsends => exact hsent hsends rfl
  | write hop hbody hsends => exact hsent hsends (ServiceCall.ending_of_write hop _).symm
  | unwritten hop hbody => exact .of_unsent (.inr ⟨_, _, _, _, hop, hbody, rfl⟩)

end Client

/-! ## What a write is backed by -/

/-- A create is backed by a read that was answered with status 404, an update by one whose
response holds fields; and nothing else was sent before. -/
structure Backed {τ : Type} (before : List (RequestExchange τ)) (request : Request τ) : Prop where
  create : request.method = .post →
    ∃ look r, before = [(look, .response r)] ∧ look.method = .get ∧ r.status = .int 404
  update : request.method = .put →
    ∃ look r, before = [(look, .response r)] ∧ look.method = .get ∧ r.Holds

section Backing

variable {c : Client Seconds} {space name : Value} {r : Response} {status : Int}

theorem Client.concludes_found (c : Client Seconds) (space name : Value)
    (hstatus : r.status = .int status) (t : Seconds) :
    Client.Concludes (.read space name) [c.looked space name t r] (c.found space name r) :=
  .of_settles (settles_of_response hstatus) ⟨status, hstatus⟩

/-- A read finds nothing only with status 404. -/
theorem Client.status_of_found_none {space' name' : Value} (hstatus : r.status = .int status)
    (hnone : c.found space name r = .error (.notFound space' name')) : r.status = .int 404 := by
  have hconcludes := c.concludes_found space name hstatus (.whole 0)
  obtain ⟨-, _, _, ⟨⟩, hmissing⟩ := (hconcludes.absent space' name').mp hnone
  exact hmissing

/-- A read finds a service only in a response that holds fields. -/
theorem Client.holds_of_found {current : Service} (hstatus : r.status = .int status)
    (hfound : c.found space name r = .ok current) : r.Holds := by
  obtain ⟨fields, htaken, -⟩ := Fault.bind_eq_ok.mp hfound
  cases h : c.taken .get (servicePath space name) r with
  | error f =>
    rw [h] at htaken
    cases htaken
  | ok fields' => exact Response.holds_of_fields? hstatus (fields?_of_taken h)

variable {a : Assignment Seconds} {desired : Service} {h : List (ServiceEvent Seconds)}
  {h' before after : List (RequestEvent Seconds)}

/-- Every request of an orderly cycle is backed by what came before it. A create is sent
by the phase that the missing service leads to, an update by the one that a drift leads
to, and each has had its one response. -/
theorem Orderly.backed (horderly : Orderly a desired h)
    (hrefines : Program.Refines (c.calling a.context) h h')
    (hgenuine : ∀ x ∈ Event.exchanges h', x.2.Genuine) {request : Request Seconds} {reply : Reply}
    {raised : Bool} (hsplit : h' = before ++ .call request reply raised :: after) :
    Backed (Event.exchanges before) request := by
  obtain ⟨before₀, op, answer, raised₀, after₀, sent, m₁, m₂, hh, hbefore, hcall, rfl⟩ :=
    hrefines.split hsplit
  obtain ⟨-, phase, hcalls⟩ := horderly before₀ op answer raised₀ after₀ hh
  obtain ⟨n₁, n₂, t, -, -, rfl, hcheck, hallows, hmethod, -⟩ :=
    (Client.answers_of_unfolds hcall).call_inv
  -- the call it is sent for comes after calls that were all handled
  have hdue := hcalls.due (Client.forall₂_handled hbefore hcalls.goesOn)
  have hmade : Event.exchanges (sent ++ (n₁ ++ n₂)) = Event.exchanges sent := by
    simp [hcheck.exchanges, hallows.exchanges]
  have hstatuses : ∀ x ∈ Event.exchanges sent, x.2.Genuine := fun x hx =>
    hgenuine x (by rw [hsplit, Event.exchanges_append, hmade]; exact List.mem_append_left _ hx)
  rw [hmade]
  generalize Event.exchanges sent = made at hdue hstatuses ⊢
  generalize Event.exchanges before₀ = es at hcalls
  -- a read is no write, and the others follow the first response
  cases hcalls with
  | creating space' name' =>
    cases hdue with
    | creating t r space' name' hnone =>
      obtain ⟨status, hstatus⟩ : ∃ status : Int, r.status = .int status :=
        hstatuses (c.looked a.space desired.name t r) (by simp)
      have hmissing := Client.status_of_found_none hstatus hnone
      exact {
        create := fun _ => ⟨_, r, rfl, rfl, hmissing⟩
        update := fun hput => by cases hmethod.symm.trans hput }
  | writing current hdrift =>
    cases hdue with
    | writing t r current' hfound hdrift' =>
      obtain ⟨status, hstatus⟩ : ∃ status : Int, r.status = .int status :=
        hstatuses (c.looked a.space desired.name t r) (by simp)
      have hholds := Client.holds_of_found hstatus hfound
      exact {
        create := fun hpost => by cases hmethod.symm.trans hpost
        update := fun _ => ⟨_, r, rfl, rfl, hholds⟩ }
  | _ =>
    exact {
      create := fun hpost => by cases hmethod.symm.trans hpost
      update := fun hput => by cases hmethod.symm.trans hput }

end Backing

/-- **Responses decide.** In any surroundings whose replies are those of a server,
whatever the context and the clock show: a cycle creates only after a read that was
answered with status 404, and updates only after one whose response holds fields. A call
says that there is no such service exactly when it is a read that was answered with status
404; a response that holds fields is read, and any other reply is a failure that tells the
status, the request and a snippet, or the context's, except for a content that is nested
too deeply. The first part is `Orderly.backed`, the second `Answers.concludes`. -/
theorem response_decides {σ : Type} (e : Engine) (a : Assignment Seconds) (c : Client Seconds)
    (world : Surroundings σ Seconds (Request Seconds) Reply)
    (hwellFormed : ∀ given, a.context.deadline ≠ .malformed given)
    (hdeadline : ∀ time, a.context.deadline = .at time → time.Exact)
    (hclock : ∀ s, (world.now s).1.Exact)
    (hgenuine : ∀ request s, (world.call request s).1.Genuine) (s : σ) :
    (∀ before request reply raised after,
        (sending e a c).events world s = before ++ .call request reply raised :: after →
        Backed (Event.exchanges before) request)
      ∧ ∀ op, Client.Concludes op (Event.exchanges ((c.calling a.context op).events world s))
        ((c.calling a.context op).run world s).1 := by
  have hreplies {α : Type} (p : Program Seconds (Request Seconds) Reply α) :
      ∀ x ∈ Event.exchanges (p.events world s), x.2.Genuine := by
    rintro ⟨request, reply⟩ hx
    rw [Program.exchanges_events] at hx
    obtain ⟨s', rfl⟩ := Program.answer_of_mem_exchanges hx
    exact hgenuine request s'
  constructor
  · intro before request reply raised after hsplit
    obtain ⟨h, hcycle, hrefines⟩ :=
      Program.exists_of_unfolds_refine (Program.unfolds_run world (sending e a c) s)
    cases hdesired : e.desired a with
    | error f =>
      -- a cycle without a desired service sends nothing
      obtain ⟨rfl, -⟩ := unfolds_unstarted hdesired (fun _ => false) rfl hcycle
      generalize (sending e a c).events world s = h' at hrefines hsplit
      cases hrefines
      simp at hsplit
    | ok desired =>
      exact (orderly_of_reconcile hdesired hcycle).backed hrefines (hreplies _) hsplit
  · intro op
    refine (Client.answers_of_unfolds (Program.unfolds_run world _ s)).concludes ⟨hwellFormed, ?_⟩
      (hreplies _)
    intro time now htime hread
    obtain ⟨s', rfl⟩ := Program.time_of_mem_events hread
    exact Seconds.sub_exact (hdeadline time htime) (hclock s')

/-- Surroundings that give the same reply to every request. -/
def Surroundings.answering (reply : Reply) : Surroundings Unit Seconds (Request Seconds) Reply where
  cancelled _ := false
  now _ := (.whole 0, ())
  log _ _ := ()
  call _ _ := (reply, ())

/-- Where nothing is found a cycle sends a create, and backs it. The reply to the look is
a refusal with status 404, which is what makes the creation the next request. -/
theorem response_decides_create :
    ∃ before request reply raised after,
      (sending (Engine.ofSettings {}) Assignment.sample Client.sample).events
          (Surroundings.answering (.response (Cluster.refusal 404 "Not Found" "none"))) ()
        = before ++ .call request reply raised :: after
      ∧ request.method = .post
      ∧ ∃ look r, Event.exchanges before = [(look, .response r)] ∧ look.method = .get
        ∧ r.status = .int 404 := by
  have hdecides := response_decides (Engine.ofSettings {}) Assignment.sample Client.sample
    (Surroundings.answering (.response (Cluster.refusal 404 "Not Found" "none")))
    (by simp [Assignment.sample]) (by simp [Assignment.sample]) (fun _ => Nat.two_pow_pos 53)
    (fun _ _ => ⟨404, rfl⟩) ()
  have hmethods : (Event.exchanges ((sending (Engine.ofSettings {}) Assignment.sample
      Client.sample).events (Surroundings.answering (.response (Cluster.refusal 404 "Not Found" "none")))
      ())).map (·.1.method) = [.get, .post] := by decide +kernel
  generalize (sending (Engine.ofSettings {}) Assignment.sample Client.sample).events
    (Surroundings.answering (.response (Cluster.refusal 404 "Not Found" "none"))) () = h at hdecides hmethods
  -- the two requests are found in the history, which is then split at the second one
  obtain ⟨x, xs, hcalls, -, hrest⟩ := List.map_eq_cons_iff.mp hmethods
  obtain ⟨y, ys, rfl, hpost, -⟩ := List.map_eq_cons_iff.mp hrest
  have hcalls : h.filterMap Event.exchange? = [x] ++ y :: ys := hcalls
  obtain ⟨before, rest, rfl, -, hlater⟩ := List.filterMap_eq_append_iff.mp hcalls
  obtain ⟨between, raised, after, rfl⟩ := Event.split_of_exchanges hlater
  rw [← List.append_assoc] at hdecides ⊢
  exact ⟨_, _, _, _, _, rfl, hpost, (hdecides.1 _ _ _ _ _ rfl).create hpost⟩

/-! ## A content that is nested too deeply

What is wrong with it is found out before anything else, and it is no failure of the control plane. -/

/-- Bytes below 128 are decoded one by one, each to the character of its number. The
induction is on the bytes with the position as a parameter, since the pieces carry their
positions. -/
theorem Text.Utf8.map_pieces_ascii {shown : Nat × Piece → Char}
    (hshown : ∀ position c, shown (position, .ok c, 1) = c) (position fuel : Nat) {bs : List UInt8}
    (hfuel : bs.length ≤ fuel) (hbs : ∀ b ∈ bs, b.toNat < 0x80) :
    (pieces position fuel bs).map shown = bs.map fun b => Char.ofNat b.toNat := by
  induction bs generalizing position fuel with
  | nil => cases fuel <;> rfl
  | cons b bs ih =>
    obtain ⟨fuel, rfl⟩ : ∃ n, fuel = n + 1 := ⟨fuel - 1, by simp at hfuel; omega⟩
    have hnext : next b bs = (.ok (Char.ofNat b.toNat), 1) := by simp [next, hbs b (by simp)]
    simp only [pieces, hnext, List.map_cons, hshown, Nat.sub_self, List.drop_zero]
    rw [ih (position + 1) fuel (by simpa using hfuel) fun x hx => hbs x (by simp [hx])]

theorem Text.Utf8.decodeLossy_ascii {bs : List UInt8} (hbs : ∀ b ∈ bs, b.toNat < 0x80) :
    decodeLossy bs = bs.map fun b => Char.ofNat b.toNat :=
  map_pieces_ascii (fun _ _ => rfl) 0 bs.length (Nat.le_refl _) hbs

/-- More opening brackets than there may be levels. One level is spent for each bracket,
so the last one is met with none left; the text behind it is never looked at. -/
theorem Json.readValue_tooDeep (levels : Nat) (rest : List Char) {fuel : Nat}
    (hfuel : 2 * levels < fuel) :
    ∃ stop, readValue fuel levels (List.replicate (levels + 1) '[' ++ rest) = .error stop
      ∧ stop.problem = .tooDeep := by
  induction levels generalizing fuel with
  | zero =>
    obtain ⟨fuel, rfl⟩ : ∃ n, fuel = n + 1 := ⟨fuel - 1, by omega⟩
    exact ⟨_, by simp [readValue]; rfl, rfl⟩
  | succ levels ih =>
    -- each bracket takes one level and two units of fuel, and the levels run out first
    obtain ⟨fuel, rfl⟩ : ∃ n, fuel = n + 2 := ⟨fuel - 2, by omega⟩
    obtain ⟨stop, hstop, hproblem⟩ := @ih fuel (by omega)
    refine ⟨stop, ?_, hproblem⟩
    have hitems : readItems (fuel + 1) levels [] (List.replicate (levels + 1) '[' ++ rest)
        = .error stop := by
      simp only [readItems, hstop]
      rfl
    simpa [readValue, List.replicate_succ, skipSpace, isSpace] using hitems

/-- A text fails as its first value does. -/
theorem Json.parseChars_error {cs : List Char} {stop : Stop}
    (h : readValue (2 * ('[' :: cs).length + 2) depthLimit ('[' :: cs) = .error stop) :
    parseChars ('[' :: cs) = .error stop := by
  have hread : parseChars ('[' :: cs)
      = readValue (2 * ('[' :: cs).length + 2) depthLimit ('[' :: cs) >>= _ := rfl
  rw [hread, h]
  rfl

/-- As many opening brackets as the limit allows, and one more, are refused whatever
follows: the parser stops at a bracket before it has looked at anything behind it. -/
theorem Json.parse_tooDeep {levels : Nat} (hlevels : depthLimit < levels) (rest : List Char) :
    ∃ e, parse (List.replicate levels '[' ++ rest) = .error e ∧ e.problem = .tooDeep := by
  obtain ⟨more, rfl⟩ : ∃ n, levels = depthLimit + 1 + n := ⟨levels - (depthLimit + 1), by omega⟩
  have hsplit : List.replicate (depthLimit + 1 + more) '[' ++ rest
      = List.replicate (depthLimit + 1) '[' ++ (List.replicate more '[' ++ rest) := by
    rw [← List.append_assoc, List.replicate_append_replicate]
  -- what stands behind the brackets is never reached, so it may be anything
  rw [hsplit]
  generalize List.replicate more '[' ++ rest = rest
  have hfuel : 2 * depthLimit < 2 * (List.replicate (depthLimit + 1) '[' ++ rest).length + 2 := by
    simp
    omega
  obtain ⟨stop, hstop, hproblem⟩ := readValue_tooDeep depthLimit rest hfuel
  rw [List.replicate_succ, List.cons_append] at hstop ⊢
  generalize List.replicate depthLimit '[' ++ rest = cs at hstop ⊢
  exact ⟨stop.failure ('[' :: cs), by simp only [parse, parseChars_error hstop], hproblem⟩

/-- A response with an array of arrays, a thousand of them inside each other. -/
def Http.Response.deepArray : Response where
  status := .int 200
  reason := "OK"
  content := .bytes (List.replicate 1000 0x5b ++ List.replicate 1000 0x5d)

/-- The content exists: the text of brackets is decoded from its bytes and refused for its
depth. -/
theorem Http.Response.tooDeep_deepArray : deepArray.TooDeep := by
  -- the bytes of brackets are decoded to brackets
  have htext : Text.Utf8.decodeLossy (List.replicate 1000 0x5b ++ List.replicate 1000 0x5d)
      = List.replicate 1000 '[' ++ List.replicate 1000 ']' := by
    rw [Text.Utf8.decodeLossy_ascii, List.map_append, List.map_replicate, List.map_replicate]
    · rfl
    · intro b hb
      rcases List.mem_append.mp hb with hb | hb <;> rw [(List.mem_replicate.mp hb).2] <;> decide
  obtain ⟨e, hparse, hproblem⟩ :=
    Json.parse_tooDeep (by decide : Json.depthLimit < 1000) (List.replicate 1000 ']')
  refine ⟨(isFailure_int rfl).trans rfl, rfl, e, ?_, hproblem⟩
  rw [← hparse, ← htext]
  rfl

/-- **A response that is nested too deeply is not reported.** A read that has it fails
neither as a failure of the control plane nor for its context. -/
theorem deep_response_unreported :
    ((Client.sample.calling {} (.read "ns" "agent")).run
      (Surroundings.answering (.response .deepArray)) ()).1 = .error (.misuse .tooDeep) := by
  have hread : Attempt.Yields (Surroundings.answering (.response .deepArray))
      (Client.sample.answer {} (.read "ns" "agent")) () (Client.sample.found "ns" "agent" .deepArray)
      (fun _ => True) := Client.sample.yields_read rfl rfl (fun _ _ _ => trivial) rfl trivial
  have hstatus : Response.deepArray.status = .int 200 := rfl
  have hconcludes := Client.sample.concludes_found "ns" "agent" hstatus (.whole 0)
  rw [hread.1]
  exact hconcludes.tooDeep _ _ rfl ⟨_, rfl, Response.tooDeep_deepArray⟩

end Keeper
