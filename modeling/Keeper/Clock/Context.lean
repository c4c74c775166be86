import Keeper.Clock.Seconds
import Keeper.Program

/-!
# Keeper — request contexts

A context stops a cycle: by a flag that somebody raises, or by a deadline. It is asked before every
call, and it caps the time a call may take.

* **`Deadline`** — the time at which a context ends, if it ends by itself.
* **`RequestContext`** — the deadline; the flag belongs to the surroundings.
* **`RequestContext.remaining`** — what is left, never negative.
* **`RequestContext.check`** — fails when the flag is raised or the deadline is reached.
* **`RequestContext.timeout`** — a span capped by what is left; it is never handed out at zero.
-/

namespace Keeper

inductive Deadline (τ : Type) where
  | never
  | at (time : τ)
  /-- What is given as the time is no number; it is found out when the time is asked for. -/
  | malformed (given : Value)
deriving DecidableEq

structure RequestContext (τ : Type) where
  deadline : Deadline τ := .never
deriving DecidableEq

namespace RequestContext

variable {τ ω ρ : Type} [TimeScale τ]

/-- The larger of zero and a span; what cannot be compared counts as zero. -/
def atLeastZero (left : τ) : τ :=
  if TimeScale.lt TimeScale.zero left then left else TimeScale.zero

def remaining (ctx : RequestContext τ) : Attempt τ ω ρ (Option τ) :=
  match ctx.deadline with
  | .never => return none
  | .at deadline => do
    let now ← Attempt.now
    return some (atLeastZero (← TimeScale.sub deadline now))
  | .malformed _ => do
    let _ ← Attempt.now
    throw (.misuse .wrongType)

/-- Fails when the flag is raised, or else when the deadline is reached. -/
def check (ctx : RequestContext τ) : Attempt τ ω ρ Unit := do
  if ← Attempt.cancelled then throw (.halted .cancelled)
  match ctx.deadline with
  | .never => return ()
  | .at deadline =>
    let now ← Attempt.now
    if TimeScale.le deadline now then throw (.halted .deadlineExceeded)
  | .malformed _ =>
    let _ ← Attempt.now
    throw (.misuse .wrongType)

def atMost (span left : τ) : τ := if TimeScale.lt left span then left else span

/-- A span capped by what is left; `span` is looked at only when something is left. -/
def timeout (ctx : RequestContext τ) (span : Except Fault τ) : Attempt τ ω ρ τ := do
  match ← ctx.remaining with
  | none => span
  | some left =>
    if TimeScale.le left TimeScale.zero then throw (.halted .deadlineExceeded)
    return atMost (← span) left

end RequestContext

/-- A context whose deadline lies a span ahead of the time at which it is made. -/
def RequestContext.lasting {ω ρ : Type} (span : Value) :
    Attempt Seconds ω ρ (RequestContext Seconds) := do
  let now ← Attempt.now
  let span ← span.toFraction
  return { deadline := .at (← now.add (.fraction span)) }

end Keeper
