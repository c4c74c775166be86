import Keeper.Number.Binary64
import Keeper.Text.Basic

/-!
# Keeper — decimal text of binary64 numbers

The text of a number is the shortest decimal that reads back as it, among those the nearest, and of
two equally near the one whose last digit is even.
The search is exact: for one, two, … seventeen digits it asks whether one of the two neighbours of
the value on that decimal grid lies in the interval of reals that round to the value.

* **`Interval`** — the reals that round to a value, in quarter units.
* **`Decimal.ofUnits`** — the shortest decimal of a value.
* **`Binary64.text`** — the format: positional from `0.0001` below `10^16`, otherwise with an
  exponent of at least two digits.
* **`Binary64.fixedText`**, **`Binary64.scientificText`** — a chosen number of places, for formatted
  output.
-/

namespace Keeper

/-- The reals that round to one finite number, in quarters of a unit; the ends belong to
it when the significand is even. -/
structure Interval where
  low : Nat
  high : Nat
  closed : Bool

namespace Interval

/-- The interval of a positive number of units. Below a power of two the neighbours lie
twice as close. -/
def ofUnits (units : Nat) : Interval :=
  let shift := Binary64.excessBits units
  let step := Nat.pow 2 shift
  let below := if units = Nat.pow 2 units.log2 && 0 < shift then step else 2 * step
  ⟨4 * units - below, 4 * units + 2 * step, units / step % 2 = 0⟩

/-- Whether `num / den` quarters lie in the interval. -/
def holds (i : Interval) (num den : Nat) : Bool :=
  if i.closed then i.low * den ≤ num && num ≤ i.high * den
  else i.low * den < num && num < i.high * den

end Interval

/-- The decimal `digits · 10^exponent`. -/
structure Decimal where
  digits : Nat
  exponent : Int
deriving DecidableEq, Repr

/-- The least `k` with `num / den < 10^k`, searched upward from `k`. -/
def decadeAbove (num den : Nat) : Nat → Int → Int
  | 0, k => k
  | fuel + 1, k => if num < den then k else decadeAbove num (den * 10) fuel (k + 1)

/-- The least `k ≤ 0` with `num / den < 10^k`, searched downward from `k`. -/
def decadeBelow (num den : Nat) : Nat → Int → Int
  | 0, k => k
  | fuel + 1, k => if num * 10 < den then decadeBelow (num * 10) den fuel (k - 1) else k

/-- The `k` with `10^(k-1) ≤ units < 10^k`, for a positive finite number of units. -/
def decade (units : Nat) : Int :=
  if units < Binary64.one then decadeBelow units Binary64.one 400 0
  else decadeAbove units Binary64.one 400 0

/-- A number of units as a fraction of `10^places`. -/
def unitsOver (units : Nat) (places : Int) : Nat × Nat :=
  let scale := Nat.pow 10 places.natAbs
  if places < 0 then (units * scale, Binary64.one) else (units, Binary64.one * scale)

/-- The two neighbours of `num / den` among the natural numbers, the nearer one first; of
two equally near the even one. -/
def nearestFirst (num den : Nat) : List Nat :=
  let below := num / den
  let twice := 2 * (num % den)
  if twice < den || (twice = den && below % 2 = 0) then [below, below + 1] else [below + 1, below]

/-- The neighbour of the value on the grid of step `10^places` that rounds to it, the
nearer one if both do, and of two equally near the even one. -/
def gridNeighbour? (units : Nat) (places : Int) : Option Nat :=
  let (num, den) := unitsOver units places
  let scale := Nat.pow 10 places.natAbs
  let fits (c : Nat) : Bool :=
    if places < 0 then (Interval.ofUnits units).holds (4 * c * Binary64.one) scale
    else (Interval.ofUnits units).holds (4 * c * scale * Binary64.one) 1
  (nearestFirst num den).find? fun c => 0 < c && fits c

/-- The first grid with a neighbour that rounds to the value, from step `10^places`
down. -/
def finestGrid (units : Nat) : Nat → Int → Decimal
  | 0, places => ⟨(gridNeighbour? units places).getD 0, places⟩
  | fuel + 1, places =>
    match gridNeighbour? units places with
    | some c => ⟨c, places⟩
    | none => finestGrid units fuel (places - 1)

/-- The shortest decimal that reads back as the given positive number of units, and the
nearest of those; a tie goes to the even last digit. -/
def Decimal.ofUnits (units : Nat) : Decimal :=
  finestGrid units 16 (decade units - 1)

def trimZeros (ds : List Char) : List Char :=
  (ds.reverse.dropWhile (· = '0')).reverse

/-- An exponent: a sign and at least two digits. -/
def exponentText (e : Int) : List Char :=
  let ds := Nat.toDigits 10 e.natAbs
  (if e < 0 then '-' else '+') :: (if ds.length < 2 then '0' :: ds else ds)

/-- The significant digits of a decimal and the place of its point:
`0.d₁d₂… · 10^point`. -/
def Decimal.significant (d : Decimal) : List Char × Int :=
  let ds := Nat.toDigits 10 d.digits
  (trimZeros ds, d.exponent + ds.length)

/-- Digits with their point at `point`: positional while `-4 < point ≤ 16`, else one digit
before the point and an exponent. -/
def pointedText (ds : List Char) (point : Int) : List Char :=
  if point ≤ -4 || 16 < point then
    let lead := match ds with
      | [] => ['0']
      | [d] => [d]
      | d :: rest => d :: '.' :: rest
    lead ++ 'e' :: exponentText (point - 1)
  else if point ≤ 0 then
    '0' :: '.' :: (List.replicate point.natAbs '0' ++ ds)
  else
    let whole := point.natAbs
    if ds.length ≤ whole then
      ds ++ List.replicate (whole - ds.length) '0' ++ ['.', '0']
    else ds.take whole ++ '.' :: ds.drop whole

namespace Binary64

def magnitudeText (units : Nat) : List Char :=
  if units = 0 then ['0', '.', '0']
  else
    let (ds, point) := (Decimal.ofUnits units).significant
    pointedText ds point

/-- The text of a number: the shortest decimal that reads back, always with `.0` or an
exponent. -/
def text : Binary64 → Text
  | .nan => "nan"
  | .infinite true => "-inf"
  | .infinite false => "inf"
  | .finite s u => Text.ofChars (if s then '-' :: magnitudeText u else magnitudeText u)

def padZeros (width : Nat) (ds : List Char) : List Char :=
  List.replicate (width - ds.length) '0' ++ ds

/-- The magnitude with a fixed number of places, the last one rounded with ties to
even. -/
def fixedText (units places : Nat) (point : Bool) : List Char :=
  let scaled := divRoundEven (units * Nat.pow 10 places) one
  let ds := padZeros (places + 1) (Nat.toDigits 10 scaled)
  let whole := ds.take (ds.length - places)
  let fraction := ds.drop (ds.length - places)
  whole ++ (if fraction.isEmpty && !point then [] else '.' :: fraction)

/-- The magnitude rounded to `count + 1` significant digits, and the exponent of the
first. -/
def roundedDigits (units count : Nat) : List Char × Int :=
  if units = 0 then (List.replicate (count + 1) '0', 0)
  else
    let lead := decade units - 1
    let (num, den) := unitsOver units (lead - count)
    let c := divRoundEven num den
    let ds := Nat.toDigits 10 c
    -- rounding up may have carried into one more digit, which is then a zero at the end
    if ds.length = count + 2 then (ds.dropLast, lead + 1) else (ds, lead)

/-- The magnitude with one digit before the point, `places` after it, and an exponent. -/
def scientificText (units places : Nat) (point : Bool) : List Char :=
  let (ds, e) := roundedDigits units places
  let fraction := ds.drop 1
  ds.take 1 ++ (if fraction.isEmpty && !point then [] else '.' :: fraction) ++ 'e' :: exponentText e

/-- The magnitude with `precision` significant digits, positional while the exponent lies
between `-4` and the precision; zeros at the end are dropped unless the point is kept. -/
def generalText (units precision : Nat) (keep : Bool) : List Char :=
  let significant := if precision = 0 then 1 else precision
  let (ds, e) := roundedDigits units (significant - 1)
  let kept := if keep then ds else
    match ds with
    | [] => []
    | d :: rest => d :: trimZeros rest
  if -4 ≤ e && e < significant then
    if e < 0 then
      '0' :: '.' :: (List.replicate (e.natAbs - 1) '0' ++ kept)
    else
      let whole := padZeros 0 (ds.take (e.natAbs + 1))
      let fraction := kept.drop (e.natAbs + 1)
      whole ++ (if fraction.isEmpty && !keep then [] else '.' :: fraction)
  else
    kept.take 1 ++ (if (kept.drop 1).isEmpty && !keep then [] else '.' :: kept.drop 1)
      ++ 'e' :: exponentText e

end Binary64

end Keeper
