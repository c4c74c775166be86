import Keeper.Clock.Context
import Keeper.Proofs.Program

/-!
# Keeper — programs that look at their context

A look at the context makes no call. It lets a program go on or fails, whatever the clock shows.

* **`RequestContext.Stops`** — how a look can fail.
* **`RequestContext.abides_check`**, **`RequestContext.abides_timeout`** — a look, and the time that
  is left for a call, whatever the surroundings answer.
* **`RequestContext.yields_check`**, **`RequestContext.yields_timeout`** — the same in a context that
  has no end and is not cancelled.
-/

namespace Keeper

namespace RequestContext

/-- How a look at a context can fail: it was cancelled, its end has come, or its end is no
time. -/
inductive Stops {τ : Type} (ctx : RequestContext τ) : Fault → Prop where
  | cancelled : Stops ctx (.halted .cancelled)
  | expired (time : τ) (h : ctx.deadline = .at time) : Stops ctx (.halted .deadlineExceeded)
  | malformed (given : Value) (h : ctx.deadline = .malformed given) :
    Stops ctx (.misuse .wrongType)

variable {τ ω ρ : Type} [TimeScale τ] {permits : List (ω × ρ) → ω → Prop}
  {fails : List (ω × ρ) → Fault → Prop} {es : List (ω × ρ)}

/-- A check of the context makes no call; it passes, or fails in one of the ways of
the context. Every phase begins with one, so this is the first step of each rule
about a call. -/
theorem abides_check {succeeds : List (ω × ρ) → Unit → Prop} (ctx : RequestContext τ)
    (hok : succeeds es ()) (hfail : ∀ f : Fault, ctx.Stops f → fails es f) :
    Attempt.Abides permits succeeds fails (ctx.check : Attempt τ ω ρ Unit) es := by
  unfold check
  rw [Attempt.abides_bind, Attempt.abides_cancelled]
  intro b
  cases b with
  | true => simpa using hfail _ .cancelled
  | false =>
    -- The flag is not set: now it is the deadline's turn, and only a well-formed one reads the clock.
    cases hdeadline : ctx.deadline with
    | never => simpa using hok
    | malformed given => simpa using fun _ => hfail _ (.malformed given hdeadline)
    | «at» deadline =>
      simp only [Bool.false_eq_true, if_false, Attempt.abides_bind, Attempt.abides_now]
      intro now
      split
      · exact hfail _ (.expired deadline hdeadline)
      · exact hok

/-- Neither does the question how much time is left. -/
theorem abides_remaining {succeeds : List (ω × ρ) → Option τ → Prop} (ctx : RequestContext τ)
    (hok : ∀ left, succeeds es left) (hfail : ∀ f, fails es f) :
    Attempt.Abides permits succeeds fails (ctx.remaining : Attempt τ ω ρ (Option τ)) es := by
  unfold remaining
  cases ctx.deadline with
  | never => exact hok none
  | malformed given => simpa using fun _ => hfail _
  | «at» deadline =>
    simp only [Attempt.abides_bind, Attempt.abides_now, Attempt.abides_lift]
    intro now
    cases TimeScale.sub deadline now with
    | error f => exact hfail f
    | ok left => exact hok _

/-- Whatever is left, a call that is made is given some time. What is left is read off the
clock once more after the check, so it may have run out in between; then this fails and
nothing is sent. -/
theorem abides_timeout {succeeds : List (ω × ρ) → τ → Prop} (ctx : RequestContext τ)
    (span : Except Fault τ) (hok : ∀ t, succeeds es t) (hfail : ∀ f, fails es f) :
    Attempt.Abides permits succeeds fails (ctx.timeout span : Attempt τ ω ρ τ) es := by
  unfold timeout
  rw [Attempt.abides_bind]
  refine ctx.abides_remaining (fun left => ?_) hfail
  -- Without a deadline the span is taken as it is; with one, it is capped by what is left.
  cases left with
  | none =>
    cases span with
    | error f => exact hfail f
    | ok t => exact hok t
  | some left =>
    dsimp only
    split
    · exact hfail _
    · cases span with
      | error f => exact hfail f
      | ok t => exact hok _

variable {σ : Type} {world : Surroundings σ τ ω ρ} {s : σ} {post : σ → Prop}

/-- A context without an end lets everything pass until it is cancelled. -/
theorem yields_check {ctx : RequestContext τ} (hctx : ctx.deadline = .never)
    (hcancelled : world.cancelled s = false) (hs : post s) :
    Attempt.Yields world (ctx.check : Attempt τ ω ρ Unit) s (.ok ()) post := by
  unfold check
  refine (Attempt.yields_cancelled hs).bind fun s' hs' => ?_
  rw [hcancelled, hctx]
  exact Attempt.yields_pure hs'

theorem yields_timeout {ctx : RequestContext τ} (hctx : ctx.deadline = .never)
    (span : Except Fault τ) (hs : post s) :
    Attempt.Yields world (ctx.timeout span : Attempt τ ω ρ τ) s span post := by
  unfold timeout remaining
  rw [hctx]
  exact (Attempt.yields_pure hs).bind fun _ hs => Attempt.yields_lift hs

end RequestContext

end Keeper
