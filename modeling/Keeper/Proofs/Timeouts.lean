import Keeper.Proofs.Transmission
import Mathlib.Algebra.Order.Ring.Rat
import Mathlib.Data.List.Induction
import Mathlib.Tactic.Linarith

/-!
# Keeper — timeouts on an exact clock

How long a request may take is found out by a reading of the clock of its own, after the context has been
looked at. Here the clock shows rational numbers, so that what is left of a deadline is not rounded.

* **`Event.readings`** — what the clock showed.
* **`RequestContext.Granted`** — the timeout of a request, by what was learnt before it was sent.
* **`Client.Timed`** — every request of a history has the timeout it is granted.
* **`Client.timed_of_answers`**, **`Client.timed_of_refines`** — so it is with a call, and with a program
  that makes calls.
* **`Client.Timed.pairwise`** — while the clock does not go back, timeouts do not grow.
-/

namespace Keeper

open Http (Method Request Reply)

/-- A clock that shows rational numbers. -/
instance : TimeScale ℚ where
  zero := 0
  lt a b := decide (a < b)
  le a b := decide (a ≤ b)
  sub a b := .ok (a - b)

namespace Event

variable {τ ω ρ : Type}

/-- The time that was read, if something was. -/
def time? : Event τ ω ρ → Option τ
  | .read t => some t
  | _ => none

/-- The times that were read, one after the other. -/
def readings (h : List (Event τ ω ρ)) : List τ := h.filterMap time?

@[simp] theorem readings_append (h h' : List (Event τ ω ρ)) :
    readings (h ++ h') = readings h ++ readings h' :=
  List.filterMap_append

theorem mem_readings {h : List (Event τ ω ρ)} {t : τ} (hread : .read t ∈ h) : t ∈ readings h :=
  List.mem_filterMap.mpr ⟨.read t, hread, rfl⟩

/-- A history with a call is split at it. -/
theorem split_of_mem_exchanges {h : List (Event τ ω ρ)} {x : ω × ρ} (hx : x ∈ exchanges h) :
    ∃ before raised after, h = before ++ .call x.1 x.2 raised :: after := by
  obtain ⟨e, he, hcall⟩ := List.mem_filterMap.mp hx
  obtain ⟨before, after, rfl⟩ := List.append_of_mem he
  cases e with
  | look b => cases hcall
  | read t => cases hcall
  | call op answer raised =>
    obtain rfl : (op, answer) = x := Option.some.inj hcall
    exact ⟨before, raised, after, rfl⟩

end Event

/-! ## What a context grants -/

namespace RequestContext

variable {ctx : RequestContext ℚ} {span timeout : ℚ} {before m : List (RequestEvent ℚ)}

/-- The timeout of a request, by what was learnt before it was sent: the whole span, or as
much of it as the last reading of the clock leaves up to the deadline. -/
inductive Granted (ctx : RequestContext ℚ) (span : ℚ) : List (RequestEvent ℚ) → ℚ → Prop where
  | whole (before : List (RequestEvent ℚ)) (hdeadline : ctx.deadline = .never) :
    Granted ctx span before span
  | capped (before : List (RequestEvent ℚ)) (deadline now : ℚ) (hdeadline : ctx.deadline = .at deadline)
    (hearly : now < deadline) : Granted ctx span (before ++ [.read now]) (min span (deadline - now))

/-- Over the rationals the program's bounds are the library's `max` and `min`, and their
facts can be used. -/
theorem atLeastZero_eq (left : ℚ) : atLeastZero left = max 0 left := by
  have hlt : TimeScale.lt TimeScale.zero left = decide (0 < left) := rfl
  have hzero : (TimeScale.zero : ℚ) = 0 := rfl
  rw [atLeastZero, hlt, hzero]
  by_cases hpos : 0 < left
  · rw [if_pos (decide_eq_true hpos), max_eq_right hpos.le]
  · rw [if_neg (by simpa using hpos), max_eq_left (not_lt.mp hpos)]

theorem atMost_eq (span left : ℚ) : atMost span left = min span left := by
  have hlt : TimeScale.lt left span = decide (left < span) := rfl
  rw [atMost, hlt]
  by_cases hless : left < span
  · rw [if_pos (decide_eq_true hless), min_eq_right hless.le]
  · rw [if_neg (by simpa using hless), min_eq_left (not_lt.mp hless)]

/-- Something is left exactly if the deadline has not been reached. -/
theorem le_zero_iff (deadline now : ℚ) :
    TimeScale.le (atLeastZero (deadline - now)) (TimeScale.zero : ℚ) = true ↔ deadline ≤ now := by
  have hle : TimeScale.le (atLeastZero (deadline - now)) (TimeScale.zero : ℚ)
      = decide (max 0 (deadline - now) ≤ 0) := by
    rw [atLeastZero_eq]
    rfl
  rw [hle, decide_eq_true_iff, max_le_iff]
  constructor
  · rintro ⟨-, hleft⟩
    linarith
  · intro hdue
    exact ⟨le_rfl, by linarith⟩

theorem measured {ω ρ : Type} (ctx : RequestContext ℚ) (h : List (Event ℚ ω ρ)) : ctx.Measured h := by
  intro deadline now _ _ hdue
  have hdue : deadline ≤ now := of_decide_eq_true hdue
  exact ⟨deadline - now, rfl, (le_zero_iff deadline now).mpr hdue⟩

/-- What a context allows is what it grants. -/
theorem Allows.granted (hallows : ctx.Allows span m (.ok timeout)) (before : List (RequestEvent ℚ)) :
    ctx.Granted span (before ++ m) timeout := by
  cases hallows with
  | endless hdeadline => exact .whole _ hdeadline
  | some deadline now left hdeadline hleft hsome =>
    obtain rfl : deadline - now = left := Except.ok.inj hleft
    have hearly : now < deadline := by
      rw [← not_le, ← le_zero_iff deadline now, hsome]
      exact Bool.false_ne_true
    rw [atLeastZero_eq, atMost_eq, max_eq_right (by linarith)]
    exact .capped before deadline now hdeadline hearly

namespace Granted

/-- A timeout that is granted is positive: under a deadline the request is only sent while
something is left. -/
theorem pos (hspan : 0 < span) (hgranted : ctx.Granted span before timeout) : 0 < timeout := by
  cases hgranted with
  | whole => exact hspan
  | capped _ deadline now _ hearly => exact lt_min hspan (by linarith)

/-- It is never more than the client's own. -/
theorem le_span (hgranted : ctx.Granted span before timeout) : timeout ≤ span := by
  cases hgranted with
  | whole => exact le_rfl
  | capped => exact min_le_left _ _

/-- Under a deadline the clock was read just before, and the request ends by the
deadline. -/
theorem ends (hgranted : ctx.Granted span before timeout) {deadline : ℚ}
    (hdeadline : ctx.deadline = .at deadline) :
    ∃ now, before.getLast? = .some (.read now) ∧ now < deadline ∧ timeout = min span (deadline - now)
      ∧ now + timeout ≤ deadline := by
  cases hgranted with
  | whole _ hnever =>
    rw [hnever] at hdeadline
    cases hdeadline
  | capped before time now htime hearly =>
    rw [htime] at hdeadline
    obtain rfl : time = deadline := Deadline.at.inj hdeadline
    have hleft : min span (time - now) ≤ time - now := min_le_right _ _
    exact ⟨now, List.getLast?_concat .., hearly, rfl, by linarith⟩

/-- Between two requests under a deadline the clock is read, so the later one is not
granted more. The clock does not go back, and what is granted is the smaller of the span
and what is left. -/
theorem le_of_later {request : Request ℚ} {reply : Reply} {raised : Bool}
    {after : List (RequestEvent ℚ)} {timeout' : ℚ} (hgranted : ctx.Granted span before timeout)
    (hlater : ctx.Granted span (before ++ .call request reply raised :: after) timeout')
    (hclock : (Event.readings (before ++ .call request reply raised :: after)).Pairwise (· ≤ ·)) :
    timeout' ≤ timeout := by
  -- Without a deadline the earlier request had the whole span, and no request has more.
  cases hgranted with
  | whole => exact hlater.le_span
  | capped before deadline now hdeadline =>
    obtain ⟨now', hlast, -, rfl, -⟩ := hlater.ends hdeadline
    have hmem : .read now' ∈ after := by
      rw [List.getLast?_append_cons, List.getLast?_cons] at hlast
      cases hafter : after.getLast? with
      | none => simp [hafter] at hlast
      | some e =>
        rw [hafter] at hlast
        obtain rfl : e = .read now' := Option.some.inj hlast
        exact List.mem_of_getLast? hafter
    rw [Event.readings_append, List.pairwise_append] at hclock
    -- The clock does not run backwards, so less is left at the later reading.
    have hforth : now ≤ now' :=
      hclock.2.2 now (Event.mem_readings (by simp)) now' (Event.mem_readings (by simp [hmem]))
    exact min_le_min_left span (by linarith)

end Granted

end RequestContext

namespace Client

variable {c : Client ℚ} {ctx : RequestContext ℚ} {span : ℚ} {h m : List (RequestEvent ℚ)}
  {op : ServiceCall} {answer : Except Fault Service}

/-- Every request of a history has the timeout that its context grants it. -/
def Timed (ctx : RequestContext ℚ) (span : ℚ) (h : List (RequestEvent ℚ)) : Prop :=
  ∀ before request reply raised after, h = before ++ .call request reply raised :: after →
    ctx.Granted span before request.timeout

/-! ## One call -/

/-- Whatever was learnt before a call, its request has the timeout that is granted after
it: the last thing learnt is the reading made for this request. -/
theorem Answers.granted (hanswers : Answers c ctx op m answer) {n₁ n₂ : List (RequestEvent ℚ)}
    {request : Request ℚ} {reply : Reply} {raised : Bool}
    (hm : m = n₁ ++ .call request reply raised :: n₂) (before : List (RequestEvent ℚ)) :
    ctx.Granted c.timeout (before ++ n₁) request.timeout := by
  -- A read and a write send their request the same way.
  have hsent {method path body result} (hsends : Sends c ctx method path body m result) :
      ctx.Granted c.timeout (before ++ n₁) request.timeout := by
    rw [hm] at hsends
    obtain ⟨m₁, m₂, t, rfl, -, hallows, rfl, -⟩ := hsends.call_inv
    rw [← List.append_assoc]
    exact hallows.granted (before ++ m₁)
  cases hanswers with
  | read hsends => exact hsent hsends
  | write _ _ hsends => exact hsent hsends
  | unwritten => exact absurd hm (by simp)

/-- A request that reads the clock at or past the deadline is not sent. -/
theorem Sends.expired {method : Method} {path : Text} {body : Option Fields}
    {result : Except Fault Fields} (hsends : Sends c ctx method path body m result) {deadline now : ℚ}
    (hdeadline : ctx.deadline = .at deadline) (hdue : deadline ≤ now)
    {before after : List (RequestEvent ℚ)} (hm : m = before ++ .read now :: after)
    (hbefore : Event.exchanges before = []) :
    Event.exchanges m = [] ∧ result = .error (.halted .deadlineExceeded) := by
  have hread : .read now ∈ m := by simp [hm]
  cases hsends with
  | stopped hcheck =>
    refine ⟨hcheck.exchanges, ?_⟩
    cases hcheck with
    | cancelled => simp at hread
    | due => rfl
    | malformed given _ hgiven => cases hgiven.symm.trans hdeadline
  -- The check passed in time, but no time was left any more when the timeout was worked out.
  | disallowed hcheck hallows =>
    refine ⟨by rw [Event.exchanges_append, hcheck.exchanges, hallows.exchanges, List.append_nil], ?_⟩
    cases hallows with
    | none => rfl
    | unmeasured time now f _ hleft => cases hleft
    | malformed given _ hgiven => cases hgiven.symm.trans hdeadline
  | @sent m₁ m₂ m₃ t reply _ hcheck hallows raised hreceives =>
    -- what was read before the request was sent was read in time
    have hends : ctx.Ends (.read now : RequestEvent ℚ) :=
      RequestContext.ends_read.mpr ⟨deadline, hdeadline, decide_eq_true hdue⟩
    have hlasts : ctx.Lasts (m₁ ++ m₂) :=
      RequestContext.lasts_append.mpr ⟨hcheck.lasts, hallows.lasts (RequestContext.measured _ _)⟩
    rw [← List.append_assoc] at hm
    rcases List.append_eq_append_iff.mp hm with ⟨n, hn, htail⟩ | ⟨n, hn, htail⟩
    · cases n with
      | nil => cases htail
      | cons e n =>
        obtain ⟨rfl, -⟩ := List.cons.inj htail
        simp [hn] at hbefore
    · cases n with
      | nil => cases htail
      | cons e n =>
        obtain ⟨rfl, -⟩ := List.cons.inj htail
        exact absurd hends (hlasts _ (by simp [hn]))

/-- A call that reads a time past the deadline sends nothing and tells the deadline. -/
theorem Answers.expired (hanswers : Answers c ctx op m answer) {deadline now : ℚ}
    (hdeadline : ctx.deadline = .at deadline) (hdue : deadline ≤ now)
    {before after : List (RequestEvent ℚ)} (hm : m = before ++ .read now :: after)
    (hbefore : Event.exchanges before = []) :
    Event.exchanges m = [] ∧ answer = .error (.halted .deadlineExceeded) := by
  cases hanswers with
  | read hsends =>
    obtain ⟨hunsent, rfl⟩ := hsends.expired hdeadline hdue hm hbefore
    exact ⟨hunsent, rfl⟩
  | write _ _ hsends =>
    obtain ⟨hunsent, rfl⟩ := hsends.expired hdeadline hdue hm hbefore
    exact ⟨hunsent, rfl⟩
  | unwritten => exact absurd hm (by simp)

theorem Answers.length_exchanges_le (hanswers : Answers c ctx op m answer) :
    (Event.exchanges m).length ≤ 1 := by
  cases hsent : Event.exchanges m with
  | nil => exact Nat.zero_le 1
  | cons x xs => rw [hanswers.sole hsent, List.length_singleton]

/-! ## Many calls -/

/-- The requests of a program that makes service calls have the timeouts they are
granted. -/
theorem timed_of_refines {h : List (ServiceEvent ℚ)} {h' : List (RequestEvent ℚ)}
    (hrefines : Program.Refines (fun op => (c.answer ctx op).run) h h') : Timed ctx c.timeout h' := by
  rintro before request reply raised after hsplit
  obtain ⟨_, op, answer, _, _, before₁, m₁, m₂, -, -, hcall, rfl⟩ := hrefines.split hsplit
  exact (answers_of_unfolds hcall).granted rfl before₁

/-- The requests of a history whose timeouts were granted have timeouts that do not grow,
while the clock does not go back. -/
theorem Timed.pairwise (htimed : Timed ctx span h) (hclock : (Event.readings h).Pairwise (· ≤ ·)) :
    ((Event.exchanges h).map fun x => x.1.timeout).Pairwise (· ≥ ·) := by
  -- On the last event: what a request is given depends on the events before it.
  induction h using List.reverseRecOn with
  | nil => exact .nil
  | append_singleton h e ih =>
    have hbefore : Timed ctx span h := by
      rintro before request reply raised after rfl
      exact htimed before request reply raised (after ++ [e]) (by simp)
    rw [Event.readings_append, List.pairwise_append] at hclock
    have hearlier := ih hbefore hclock.1
    cases e with
    | look b => simpa using hearlier
    | read t => simpa using hearlier
    | call request reply raised =>
      rw [Event.exchanges_append, List.map_append, List.pairwise_append]
      -- The new request against each earlier one: both were granted, and this one later.
      refine ⟨hearlier, List.pairwise_singleton .., fun t ht t' ht' => ?_⟩
      obtain ⟨x, hx, rfl⟩ := List.mem_map.mp ht
      obtain rfl : t' = request.timeout := by simpa using ht'
      obtain ⟨before, raised', after, rfl⟩ := Event.split_of_mem_exchanges hx
      have hlast := htimed _ request reply raised [] rfl
      have hfirst := hbefore before x.1 x.2 raised' after rfl
      exact hfirst.le_of_later hlast hclock.1

end Client

/-! ## Runs -/

/-- What is to be said of the timeout of a request that is sent after a history. -/
structure RequestContext.Caps (ctx : RequestContext ℚ) (span : ℚ) (before : List (RequestEvent ℚ))
    (timeout : ℚ) : Prop where
  granted : ctx.Granted span before timeout
  pos : 0 < timeout
  le_span : timeout ≤ span
  /-- Under a deadline it is the rest of the time from the last reading on, or less. -/
  ends : ∀ deadline, ctx.deadline = .at deadline →
    ∃ now, before.getLast? = some (.read now) ∧ now < deadline ∧ timeout = min span (deadline - now)
      ∧ now + timeout ≤ deadline

/-- All that is to be said of a timeout follows from how it was granted. -/
theorem RequestContext.Granted.caps {ctx : RequestContext ℚ} {span timeout : ℚ}
    {before : List (RequestEvent ℚ)} (hgranted : ctx.Granted span before timeout) (hspan : 0 < span) :
    ctx.Caps span before timeout where
  granted := hgranted
  pos := hgranted.pos hspan
  le_span := hgranted.le_span
  ends := fun _ hdeadline => hgranted.ends hdeadline

/-- A program that makes service calls, over a client. -/
def Client.carryOut {α : Type} (c : Client ℚ) (ctx : RequestContext ℚ) (p : Calling ℚ α) :
    Program ℚ (Request ℚ) Reply (Except Fault α) :=
  p.run.refine fun op => (c.answer ctx op).run

/-- **Timeouts keep to the deadline.** In any surroundings, whatever the clock shows: a
call sends one request at most; its timeout is the configured one, or what the reading of
the clock just before leaves of it up to the deadline, and so it is above zero; and once a
reading was at or past the deadline the call is cancelled without a request. The requests
of a cycle have such timeouts too, and while the clock does not go back these do not grow.
`Granted` ties each timeout to the history before its request; a call shows it for its own
request, and `Timed.pairwise` compares any two. -/
theorem timeouts_keep_deadline {σ : Type} (c : Client ℚ) (hspan : 0 < c.timeout)
    (world : Surroundings σ ℚ (Request ℚ) Reply) (s : σ) :
    (∀ ctx op,
      (Event.exchanges ((c.answer ctx op).run.events world s)).length ≤ 1
      ∧ (∀ before request reply raised after,
        (c.answer ctx op).run.events world s = before ++ .call request reply raised :: after →
        ctx.Caps c.timeout before request.timeout)
      ∧ ∀ deadline before now after, ctx.deadline = .at deadline → deadline ≤ now →
        (c.answer ctx op).run.events world s = before ++ .read now :: after →
        Event.exchanges before = [] →
        Event.exchanges ((c.answer ctx op).run.events world s) = []
          ∧ ((c.answer ctx op).run.run world s).1 = .error (.halted .deadlineExceeded))
    ∧ ∀ e a,
      (∀ before request reply raised after,
        (c.carryOut a.context (reconcile e a)).events world s
          = before ++ .call request reply raised :: after →
        a.context.Caps c.timeout before request.timeout)
      ∧ ((Event.readings ((c.carryOut a.context (reconcile e a)).events world s)).Pairwise (· ≤ ·) →
        ((Event.exchanges ((c.carryOut a.context (reconcile e a)).events world s)).map
          fun x => x.1.timeout).Pairwise (· ≥ ·)) := by
  refine ⟨fun ctx op => ?_, fun e a => ?_⟩
  · have hanswers : Client.Answers c ctx op _ _ :=
      Client.answers_of_unfolds (Program.unfolds_run world (c.answer ctx op).run s)
    refine ⟨hanswers.length_exchanges_le, ?_, ?_⟩
    · intro before request reply raised after hsplit
      exact (hanswers.granted hsplit []).caps hspan
    · intro deadline before now after hdeadline hdue hsplit hbefore
      exact hanswers.expired hdeadline hdue hsplit hbefore
  · -- A whole cycle: each of its calls is answered as above, one after another on the same clock.
    obtain ⟨h, -, hrefines⟩ := Program.exists_of_unfolds_refine
      (Program.unfolds_run world (c.carryOut a.context (reconcile e a)) s)
    have htimed := Client.timed_of_refines hrefines
    refine ⟨?_, htimed.pairwise⟩
    intro before request reply raised after hsplit
    exact (htimed before request reply raised after hsplit).caps hspan

/-! ## A cycle under a deadline -/

namespace Counting

/-- Surroundings whose clock counts its readings, and that give prepared replies. -/
def world : Surroundings (ℕ × List Reply) ℚ (Request ℚ) Reply where
  cancelled _ := false
  now s := (s.1, (s.1 + 1, s.2))
  log _ s := s
  call
    | _, (n, reply :: rest) => (reply, (n, rest))
    | _, (n, []) => (.failed "", (n, []))

def client : Client ℚ where
  baseUrl := "https://api:6443"
  timeout := 30
  verify := .bool true
  headers := []

def assignment : Assignment ℚ where
  context := { deadline := .at 10 }
  owner := { apiVersion := "v1", kind := "Cluster", name := "main", uid := "u-1" }
  space := "ops"

def reply (status : Int) : Reply := .response { status := .int status, content := .bytes [] }

/-- The service is not found, created and found. -/
def replies : List Reply := [reply 404, reply 201, reply 200]

/-- What is learnt in a cycle that creates the service. -/
def history : List (RequestEvent ℚ) :=
  (client.carryOut assignment.context (reconcile (Engine.ofSettings {}) assignment)).events world
    (0, replies)

end Counting

/-- A deadline at ten on a clock that counts its readings: of the limit of thirty, the
three requests of a cycle get eight, five and two. -/
theorem timeouts_keep_deadline_counting :
    0 < Counting.client.timeout
      ∧ (Event.readings Counting.history).Pairwise (· ≤ ·)
      ∧ (Event.exchanges Counting.history).map (fun x => x.1.timeout) = [8, 5, 2]
      ∧ ((Event.exchanges Counting.history).map fun x => x.1.timeout).Pairwise (· ≥ ·)
      ∧ ∀ before request reply raised after,
        Counting.history = before ++ .call request reply raised :: after →
        Counting.assignment.context.Caps 30 before request.timeout := by
  have hspan : 0 < Counting.client.timeout := by decide
  have hclock : (Event.readings Counting.history).Pairwise (· ≤ ·) := by decide +kernel
  have htimeouts : (Event.exchanges Counting.history).map (fun x => x.1.timeout) = [8, 5, 2] := by
    decide +kernel
  obtain ⟨-, hcycle⟩ :=
    timeouts_keep_deadline Counting.client hspan Counting.world (0, Counting.replies)
  obtain ⟨hcaps, hpairwise⟩ := hcycle (Engine.ofSettings {}) Counting.assignment
  exact ⟨hspan, hclock, htimeouts, hpairwise hclock, hcaps⟩

end Keeper
