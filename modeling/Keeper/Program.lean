import Keeper.Fault
import Keeper.Log.Basic

/-!
# Keeper — programs that ask their surroundings

A program is a tree of questions. At each node it asks one thing, and how it goes on depends on the
answer; at a leaf it is done. What the answers are is left open, so a statement about a program
holds in any surroundings.

* **`Program`** — the tree: `τ` is what the clock shows, `ω` what can be called, `ρ` what a call
  answers.
* **`Program.refine`** — replaces every call by a program that makes calls of another kind.
* **`Surroundings`**, **`Program.run`** — answers from a state, and the run of a program in it.
* **`Attempt`** — a program that may fail.
-/

namespace Keeper

/-- A program that asks whether it is cancelled, what time it is and for calls to be made,
and that logs. -/
inductive Program (τ ω ρ α : Type) where
  | done (result : α)
  | cancelled (next : Bool → Program τ ω ρ α)
  | now (next : τ → Program τ ω ρ α)
  | log (entry : Log.Entry) (next : Program τ ω ρ α)
  | call (op : ω) (next : ρ → Program τ ω ρ α)

namespace Program

variable {τ ω ρ ω' ρ' α β σ : Type}

def bind : Program τ ω ρ α → (α → Program τ ω ρ β) → Program τ ω ρ β
  | .done a, f => f a
  | .cancelled next, f => .cancelled fun b => (next b).bind f
  | .now next, f => .now fun t => (next t).bind f
  | .log entry next, f => .log entry (next.bind f)
  | .call op next, f => .call op fun r => (next r).bind f

instance : Monad (Program τ ω ρ) where
  pure := .done
  bind := bind

/-- Replaces every call by a program. -/
def refine (implementation : ω → Program τ ω' ρ' ρ) : Program τ ω ρ α → Program τ ω' ρ' α
  | .done a => .done a
  | .cancelled next => .cancelled fun b => (next b).refine implementation
  | .now next => .now fun t => (next t).refine implementation
  | .log entry next => .log entry (next.refine implementation)
  | .call op next => (implementation op).bind fun r => (next r).refine implementation

end Program

/-- Surroundings with a state `σ`, in which every question has an answer. -/
structure Surroundings (σ τ ω ρ : Type) where
  cancelled : σ → Bool
  now : σ → τ × σ
  log : Log.Entry → σ → σ
  call : ω → σ → ρ × σ

namespace Program

variable {τ ω ρ α σ : Type}

def run (world : Surroundings σ τ ω ρ) : Program τ ω ρ α → σ → α × σ
  | .done a, s => (a, s)
  | .cancelled next, s => (next (world.cancelled s)).run world s
  | .now next, s => let (t, s') := world.now s; (next t).run world s'
  | .log entry next, s => next.run world (world.log entry s)
  | .call op next, s => let (r, s') := world.call op s; (next r).run world s'

end Program

abbrev Attempt (τ ω ρ : Type) : Type → Type := ExceptT Fault (Program τ ω ρ)

namespace Attempt

variable {τ ω ρ α : Type}

def cancelled : Attempt τ ω ρ Bool := .mk (.cancelled fun b => .done (.ok b))

def now : Attempt τ ω ρ τ := .mk (.now fun t => .done (.ok t))

def log (entry : Log.Entry) : Attempt τ ω ρ Unit := .mk (.log entry (.done (.ok ())))

def call (op : ω) : Attempt τ ω ρ ρ := .mk (.call op fun r => .done (.ok r))

def mapFault (f : Fault → Fault) (attempt : Attempt τ ω ρ α) : Attempt τ ω ρ α :=
  .mk (attempt.run.bind fun e => .done (e.mapError f))

end Attempt

end Keeper
