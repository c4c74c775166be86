import Keeper.Value.Conversion

/-!
# Keeper — seconds

A reading of a clock, or a span between two readings. Whole seconds stay whole as long as they meet
only whole ones; a fraction makes the result a fraction.

* **`TimeScale`** — what a deadline needs of the numbers a clock shows.
* **`Seconds`** — the numbers of a clock that shows whole seconds or fractions.
-/

namespace Keeper

/-- What a deadline needs of the numbers a clock shows: a zero, an order, and the span
between two readings, which may be out of range. -/
class TimeScale (τ : Type) where
  zero : τ
  lt : τ → τ → Bool
  le : τ → τ → Bool
  sub : τ → τ → Except Fault τ

/-- Seconds, whole or as a fraction. -/
inductive Seconds where
  | whole (n : Int)
  | fraction (x : Binary64)
deriving DecidableEq, Inhabited

namespace Seconds

/-- The place of a number of seconds on the line, unless it is NaN. -/
def place? : Seconds → Option Binary64.Place
  | .whole n => some (.ofInt n)
  | .fraction x => x.place?

def lt (a b : Seconds) : Bool :=
  match a.place?, b.place? with
  | some p, some q => p.lt q
  | _, _ => false

def le (a b : Seconds) : Bool :=
  match a.place?, b.place? with
  | some p, some q => !q.lt p
  | _, _ => false

def toFraction : Seconds → Except Fault Binary64
  | .whole n => Value.fractionOfInteger n
  | .fraction x => .ok x

/-- Whole seconds are combined exactly, any others as fractions. -/
def combine (whole : Int → Int → Int) (fraction : Binary64 → Binary64 → Binary64) :
    Seconds → Seconds → Except Fault Seconds
  | .whole m, .whole n => .ok (.whole (whole m n))
  | a, b => do return .fraction (fraction (← a.toFraction) (← b.toFraction))

def add : Seconds → Seconds → Except Fault Seconds := combine (· + ·) Binary64.add

def sub : Seconds → Seconds → Except Fault Seconds := combine (· - ·) Binary64.sub

instance : TimeScale Seconds where
  zero := .fraction .zero
  lt := lt
  le := le
  sub := sub

def value : Seconds → Value
  | .whole n => .int n
  | .fraction x => .float x

def ofValue? : Value → Option Seconds
  | .bool b => some (.whole b.toInt)
  | .int i => some (.whole i)
  | .float x => some (.fraction x)
  | _ => none

end Seconds

end Keeper
