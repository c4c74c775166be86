import Keeper.Number.Binary64
import Keeper.Text.Blank
import Keeper.Text.Digit

/-!
# Keeper — reading numbers from text

Integers and decimal fractions as people write them: blanks around, one sign directly before the
digits, single underscores between digits, and the decimal digits of any script.

* **`numeralChars`** — a text with its digits and blanks in ASCII.
* **`Numeral.read`** — an integer, unless it has too many digits or is none.
* **`readFraction?`** — a binary64 number, also `inf`, `infinity` and `nan` in any case.
-/

namespace Keeper

def isNumberBlank (c : Char) : Bool := c = ' ' || (9 ≤ c.toNat && c.toNat ≤ 13)

/-- A code point of a numeral in ASCII, if it is ASCII, a blank or a digit. -/
def numeralChar? : CodePoint → Option Char
  | .surrogate _ => none
  | .char c =>
    if c.toNat < 128 then some c
    else if Text.isBlank c then some ' '
    else (Text.digitValue? c).map fun d => Char.ofNat (48 + d)

/-- The code points of a numeral in ASCII. The first that has no place in one ends it, and
a question mark stands for that. -/
def numeralChars : List CodePoint → List Char
  | [] => []
  | p :: rest =>
    match numeralChar? p with
    | some c => c :: numeralChars rest
    | none => ['?']

/-- Splits off one sign; true for a minus. -/
def takeSign : List Char → Bool × List Char
  | '-' :: cs => (true, cs)
  | '+' :: cs => (false, cs)
  | cs => (false, cs)

/-- Removes underscores, each of which must stand between two digits. -/
def dropUnderscores? (before : Char) : List Char → Option (List Char)
  | [] => some []
  | '_' :: c :: cs =>
    if before.isDigit && c.isDigit then (dropUnderscores? c cs).map (c :: ·) else none
  | ['_'] => none
  | c :: cs => (dropUnderscores? c cs).map (c :: ·)

def naturalOfDigits (ds : List Char) : Nat :=
  ds.foldl (fun n d => 10 * n + (d.toNat - 48)) 0

def integerDigitLimit : Nat := 4300

inductive Numeral where
  | value (i : Int)
  | tooLong (digits : Nat)
  | unreadable
deriving DecidableEq, Repr

/-- Reads an integer in ASCII. The digits at its start are counted before what follows
them is looked at. -/
def Numeral.read (cs : List Char) : Numeral :=
  let (negative, body) := takeSign (cs.dropWhile isNumberBlank)
  let run := body.takeWhile fun c => c.isDigit || c = '_'
  match dropUnderscores? ' ' run with
  | none => .unreadable
  | some ds =>
    if integerDigitLimit < ds.length then .tooLong ds.length
    else if !ds.isEmpty && (body.drop run.length).all isNumberBlank then
      .value (Binary64.signedUnits negative (naturalOfDigits ds))
    else .unreadable

/-- Reads an exponent: nothing, or a mark, an optional sign and digits. -/
def readExponent? : List Char → Option Int
  | [] => some 0
  | c :: cs =>
    if c = 'e' || c = 'E' then
      let (negative, ds) := takeSign cs
      if !ds.isEmpty && ds.all Char.isDigit then
        some (Binary64.signedUnits negative (naturalOfDigits ds))
      else none
    else none

def readDecimal? (negative : Bool) (cs : List Char) : Option Binary64 :=
  let whole := cs.takeWhile Char.isDigit
  let rest := cs.dropWhile Char.isDigit
  let (fraction, tail) := match rest with
    | '.' :: more => (more.takeWhile Char.isDigit, more.dropWhile Char.isDigit)
    | _ => ([], rest)
  let digits := whole ++ fraction
  if digits.isEmpty then none
  else
    (readExponent? tail).map fun e =>
      Binary64.ofDecimal negative (naturalOfDigits digits) (e - fraction.length)

/-- The binary64 number nearest to the number written by a text. -/
def readFraction? (t : Text) : Option Binary64 :=
  let cs := (numeralChars t.points).dropWhile isNumberBlank
  match dropUnderscores? ' ' (Text.dropEndWhile isNumberBlank cs) with
  | none => none
  | some cs =>
    let (negative, body) := takeSign cs
    let word := String.ofList (body.map Char.toLower)
    if word = "inf" || word = "infinity" then some (.infinite negative)
    else if word = "nan" then some .nan
    else readDecimal? negative body

end Keeper
