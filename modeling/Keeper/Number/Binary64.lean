/-!
# Keeper — binary64 numbers, exactly

A finite binary64 number is a whole number of the smallest positive one, `2^-1074`. So a finite
value is a sign and a `Nat` of *units*, and every operation is exact arithmetic on units followed
by one rounding (`Binary64.ofRatio`): to the nearest number with at most 53 significant bits, a tie
going to the even one.

* **`divRoundEven`** — the rounded quotient of two naturals.
* **`Binary64.ofRatio`** — the one rounding; beyond the largest finite number it gives an infinity.
* **`Binary64.place?`** — where a number lies on the line, shared by order and equality.
-/

namespace Keeper

/-- The quotient `n / d` rounded to the nearest natural, a tie going to the even one. -/
def divRoundEven (n d : Nat) : Nat :=
  let q := n / d
  let r := n % d
  if 2 * r < d then q
  else if d < 2 * r then q + 1
  else q + q % 2

/-- A binary64 number: `finite negative units` is `± units · 2^-1074`. -/
inductive Binary64 where
  | nan
  | infinite (negative : Bool)
  | finite (negative : Bool) (units : Nat)
deriving DecidableEq, Inhabited, Repr

namespace Binary64

/-- The number of units in one. -/
def one : Nat := Nat.pow 2 1074

/-- The first power of two, in units, that is too large to be finite. -/
def overflow : Nat := Nat.pow 2 2098

/-- How many low bits a 53-bit significand leaves out of a whole number of units. -/
def excessBits (units : Nat) : Nat := units.log2 + 1 - 53

/-- The number nearest to `num / den` units. -/
def ofRatio (negative : Bool) (num den : Nat) : Binary64 :=
  let shift := excessBits (num / den)
  let units := divRoundEven num (den * Nat.pow 2 shift) * Nat.pow 2 shift
  if units < overflow then .finite negative units else .infinite negative

def zero : Binary64 := .finite false 0

def ofInt (i : Int) : Binary64 := ofRatio (i < 0) (i.natAbs * one) 1

/-- The number of decimal digits of a natural; zero has none. -/
def digitCount (n : Nat) : Nat :=
  if n = 0 then 0 else (Nat.toDigits 10 n).length

/-- The number nearest to `± digits · 10^exponent`. Magnitudes far outside the range are
settled by their number of digits alone. -/
def ofDecimal (negative : Bool) (digits : Nat) (exponent : Int) : Binary64 :=
  if digits = 0 then .finite negative 0
  else
    let magnitude := exponent + digitCount digits
    if 400 < magnitude then .infinite negative
    else if magnitude < -400 then .finite negative 0
    else if exponent < 0 then ofRatio negative (digits * one) (Nat.pow 10 exponent.natAbs)
    else ofRatio negative (digits * Nat.pow 10 exponent.natAbs * one) 1

def signedUnits (negative : Bool) (units : Nat) : Int :=
  if negative then -(units : Int) else units

/-- A sum of signed units, rounded. An exact zero is positive unless both operands were
negative zeros. -/
def ofSum (bothNegative : Bool) (sum : Int) : Binary64 :=
  if sum = 0 then .finite bothNegative 0 else ofRatio (sum < 0) sum.natAbs 1

def neg : Binary64 → Binary64
  | .nan => .nan
  | .infinite s => .infinite !s
  | .finite s u => .finite (!s) u

def add : Binary64 → Binary64 → Binary64
  | .nan, _ | _, .nan => .nan
  | .infinite s, .infinite t => if s = t then .infinite s else .nan
  | .infinite s, .finite _ _ => .infinite s
  | .finite _ _, .infinite t => .infinite t
  | .finite s u, .finite t v => ofSum (s && t) (signedUnits s u + signedUnits t v)

def sub (a b : Binary64) : Binary64 := add a (neg b)

def mul : Binary64 → Binary64 → Binary64
  | .nan, _ | _, .nan => .nan
  | .infinite s, .infinite t => .infinite (s != t)
  | .infinite s, .finite t v => if v = 0 then .nan else .infinite (s != t)
  | .finite s u, .infinite t => if u = 0 then .nan else .infinite (s != t)
  | .finite s u, .finite t v => ofRatio (s != t) (u * v) one

/-- The place of a number that is not NaN on the extended line, in units: infinities lie
at the ends. -/
inductive Place where
  | bottom
  | at (units : Int)
  | top
deriving DecidableEq, Repr

/-- The place of a number, unless it is NaN. Both zeros share one. -/
def place? : Binary64 → Option Place
  | .nan => none
  | .infinite true => some .bottom
  | .infinite false => some .top
  | .finite s u => some (.at (signedUnits s u))

/-- The part before the point, toward zero; infinities and NaN have none. -/
def truncate? : Binary64 → Option Int
  | .finite s u => some (signedUnits s (u / one))
  | _ => none

end Binary64

namespace Binary64.Place

def lt : Place → Place → Bool
  | .bottom, .bottom => false
  | .bottom, _ => true
  | .at _, .bottom => false
  | .at a, .at b => decide (a < b)
  | .at _, .top => true
  | .top, _ => false

def ofInt (i : Int) : Place := .at (i * (one : Int))

end Binary64.Place

end Keeper
