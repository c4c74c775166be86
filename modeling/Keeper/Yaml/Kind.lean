import Keeper.Text.Case
import Keeper.Value.Conversion
import Keeper.Yaml.Scalar

/-!
# Keeper — the kinds of YAML scalars

A scalar without a tag and without quotes is what it looks like: null, a truth value, a number in one
of several bases, a date, or else a text. A tag says outright what a scalar is, and then its text
may fail to be that.

* **`Kind`** — the kinds, and their tags.
* **`implicitKind`** — what a scalar looks like.
* **`Kind.value`** — the value of a scalar of a kind.
-/

namespace Keeper.Yaml

inductive Kind where
  | null
  | bool
  | int
  | float
  | text
  | binary
  | moment
  /-- The key that takes over the entries of another mapping. -/
  | merge
  /-- The key for the value of a mapping that stands for a scalar. -/
  | default
  | sequence
  | mapping
  /-- The keys of a mapping. -/
  | set
  /-- A sequence of mappings with one entry each, as rows of a key and a value. -/
  | pairs
deriving DecidableEq, Repr

namespace Kind

def ofTag? : String → Option Kind
  | "tag:yaml.org,2002:null" => some .null
  | "tag:yaml.org,2002:bool" => some .bool
  | "tag:yaml.org,2002:int" => some .int
  | "tag:yaml.org,2002:float" => some .float
  | "tag:yaml.org,2002:str" => some .text
  | "tag:yaml.org,2002:binary" => some .binary
  | "tag:yaml.org,2002:timestamp" => some .moment
  | "tag:yaml.org,2002:merge" => some .merge
  | "tag:yaml.org,2002:value" => some .default
  | "tag:yaml.org,2002:seq" => some .sequence
  | "tag:yaml.org,2002:map" => some .mapping
  | "tag:yaml.org,2002:set" => some .set
  | "tag:yaml.org,2002:omap" | "tag:yaml.org,2002:pairs" => some .pairs
  | _ => none

end Kind

/-! ## What a scalar looks like -/

def dropSign : List Char → List Char
  | '-' :: rest | '+' :: rest => rest
  | cs => cs

def isDigitOrBar (c : Char) : Bool := c.isDigit || c = '_'

/-- Whether a text is a row of digits and bars of a base, not empty. -/
def isDigits (digit : Char → Bool) (cs : List Char) : Bool :=
  !cs.isEmpty && cs.all fun d => digit d || d = '_'

/-- Drops the parts below sixty, each behind a colon; nothing if there are none. -/
def sexagesimalParts : Nat → List Char → Option (List Char)
  | 0, _ => none
  | fuel + 1, ':' :: rest =>
    let after := match rest with
      | a :: b :: rest' =>
        if a ≤ '5' && a.isDigit && b.isDigit then some rest'
        else if a.isDigit then some (b :: rest') else none
      | [a] => if a.isDigit then some [] else none
      | [] => none
    match after with
    | some (':' :: more) => sexagesimalParts fuel (':' :: more)
    | other => other
  | _ + 1, _ => none

/-- A row of digits that begins a number, and what follows it. -/
def leadingDigits (first : Char → Bool) (cs : List Char) : Option (List Char) :=
  match cs with
  | c :: rest => if first c then some (rest.dropWhile isDigitOrBar) else none
  | [] => none

def isOctal (c : Char) : Bool := '0' ≤ c && c ≤ '7'

def isBinary (c : Char) : Bool := c = '0' || c = '1'

def isNonzero (c : Char) : Bool := '1' ≤ c && c ≤ '9'

def looksInt (cs : List Char) : Bool :=
  match dropSign cs with
  | '0' :: 'b' :: rest => isDigits isBinary rest
  | '0' :: 'x' :: rest => isDigits (fun c => (hexValue? c).isSome) rest
  | '0' :: rest => rest.isEmpty || isDigits isOctal rest
  | rest =>
    match leadingDigits isNonzero rest with
    | some [] => true
    | some after => sexagesimalParts after.length after = some []
    | none => false

def isExponent : List Char → Bool
  | [] => true
  | e :: sign :: digits =>
    (e = 'e' || e = 'E') && (sign = '-' || sign = '+') && !digits.isEmpty && digits.all Char.isDigit
  | [_] => false

def looksFloat (cs : List Char) : Bool :=
  let unsigned := dropSign cs
  let special := [".inf", ".Inf", ".INF"].contains (String.ofList unsigned)
    || [".nan", ".NaN", ".NAN"].contains (String.ofList cs)
  let positional := match leadingDigits Char.isDigit unsigned with
    | some ('.' :: after) => isExponent (after.dropWhile isDigitOrBar)
    | some after =>
      match sexagesimalParts after.length after with
      | some ('.' :: fraction) => fraction.all isDigitOrBar
      | _ => false
    | none => false
  let fractional := match cs with
    | '.' :: d :: rest => d.isDigit && isExponent (rest.dropWhile isDigitOrBar)
    | _ => false
  special || positional || fractional

/-! ## Dates -/

structure WrittenMoment where
  year : Nat
  month : Nat
  day : Nat
  /-- Whether month and day have two digits each. -/
  padded : Bool
  time : Option (Nat × Nat × Nat × List Char × Option (Bool × Nat × Nat))

/-- Between `least` and `most` digits, as a number, with their count and what follows. -/
def digits? (least most : Nat) (cs : List Char) : Option (Nat × Nat × List Char) :=
  let taken := (cs.take most).takeWhile Char.isDigit
  if taken.length < least then none
  else some (Nat.ofDigitChars 10 taken 0, taken.length, cs.drop taken.length)

def after? (c : Char) : List Char → Option (List Char)
  | d :: rest => if c = d then some rest else none
  | [] => none

/-- A distance from universal time: its sign, hours and minutes. -/
def zone? (cs : List Char) : Option (Option (Bool × Nat × Nat)) :=
  match cs, cs.dropWhile isGap with
  | [], _ => some none
  | _, ['Z'] => some (some (false, 0, 0))
  | _, sign :: rest =>
    if sign = '+' || sign = '-' then do
      let (hours, _, rest) ← digits? 1 2 rest
      match rest with
      | [] => return some (sign = '-', hours, 0)
      | _ =>
        let (minutes, _, rest) ← digits? 2 2 (← after? ':' rest)
        if rest.isEmpty then return some (sign = '-', hours, minutes) else none
    else none
  | _, [] => none

def moment? (cs : List Char) : Option WrittenMoment := do
  let (year, _, cs) ← digits? 4 4 cs
  let (month, m, cs) ← digits? 1 2 (← after? '-' cs)
  let (day, d, cs) ← digits? 1 2 (← after? '-' cs)
  let padded := m = 2 && d = 2
  match cs with
  | [] => return { year, month, day, padded, time := none }
  | c :: rest =>
    let cs ← if c = 'T' || c = 't' then some rest
      else if isGap c then some (rest.dropWhile isGap) else none
    let (hour, _, cs) ← digits? 1 2 cs
    let (minute, _, cs) ← digits? 2 2 (← after? ':' cs)
    let (second, _, cs) ← digits? 2 2 (← after? ':' cs)
    let (fraction, cs) := match cs with
      | '.' :: rest => (rest.takeWhile Char.isDigit, rest.dropWhile Char.isDigit)
      | _ => ([], cs)
    let zone ← zone? cs
    return { year, month, day, padded, time := some (hour, minute, second, fraction, zone) }

/-- Whether a text looks like a date; without a time, month and day have two digits. -/
def looksMoment (cs : List Char) : Bool :=
  match moment? cs with
  | some w => w.padded || w.time.isSome
  | none => false

def dropBreak : List Char → List Char
  | [] | ['\n'] => []
  | c :: cs => c :: dropBreak cs

def kindOfChars (cs : List Char) : Kind :=
  let s := String.ofList cs
  if ["yes", "Yes", "YES", "no", "No", "NO", "true", "True", "TRUE", "false", "False", "FALSE", "on",
      "On", "ON", "off", "Off", "OFF"].contains s then .bool
  else if looksFloat cs then .float
  else if looksInt cs then .int
  else if s = "<<" then .merge
  else if ["~", "null", "Null", "NULL", ""].contains s then .null
  else if looksMoment cs then .moment
  else if s = "=" then .default
  else .text

/-- The kind a scalar looks like; one line break at its end is not looked at. A scalar
that is only a mark of YAML itself is of no kind that has values. -/
def implicitKind (t : Text) : Option Kind :=
  match t.chars? with
  | none | some ['\n'] => some .text
  | some cs =>
    let cs := dropBreak cs
    if [['!'], ['&'], ['*']].contains cs then none else some (kindOfChars cs)

/-! ## Values -/

def inBase? (base : Nat) (letter : Char) (cs : List Char) : Option Int := do
  let cs := Text.dropEndWhile isNumberBlank (cs.dropWhile isNumberBlank)
  let (negative, cs) := takeSign cs
  let cs := match cs with
    | '0' :: c :: rest => if c = letter || c = letter.toUpper then rest else cs
    | _ => cs
  if cs.isEmpty then none
  let n ← cs.foldlM (fun n c => do
    let d ← hexValue? c
    if d < base then some (n * base + d) else none) 0
  return Binary64.signedUnits negative n

/-- The number a text writes in a base, or why it writes none. -/
def inBase (base : Nat) (letter : Char) (ps : List CodePoint) : Except Fault Int :=
  match inBase? base letter (numeralChars ps) with
  | some i => .ok i
  | none => .error (.badValue (.integerText base (Text.mk ps).quoted))

def colonParts (ps : List CodePoint) : List Text :=
  (ps.splitOn (CodePoint.char ':')).map Text.mk

def unsignedInt (ps : List CodePoint) : Except Fault Int :=
  match ps with
  | [.char '0'] => .ok 0
  | .char '0' :: .char 'b' :: rest => inBase 2 'b' rest
  | .char '0' :: .char 'x' :: rest => inBase 16 'x' rest
  | .char '0' :: _ => inBase 8 'o' ps
  | [] => Value.misused .missingItem
  | _ => do
    let parts ← (colonParts ps).mapM Value.integerOfText
    return parts.foldl (fun n part => n * 60 + part) 0

def withoutBars (t : Text) : Text := ⟨t.points.filter (· ≠ .char '_')⟩

/-- The value of a number: that of the number without its sign, or the opposite. -/
def signed {α : Type} (neg : α → α) (unsigned : List CodePoint → Except Fault α) (t : Text) :
    Except Fault α :=
  match t.points with
  | [] => Value.misused .missingItem
  | .char '-' :: rest => (unsigned rest).map neg
  | .char '+' :: rest => unsigned rest
  | ps => unsigned ps

/-- A sum of parts of which each counts sixty times as much as the one behind it; the last
one stands first and counts `scale`. -/
def sexagesimal (total : Binary64) (scale : Int) : List Binary64 → Except Fault Binary64
  | [] => .ok total
  | part :: rest => do
    sexagesimal (total.add (part.mul (← Value.fractionOfInteger scale))) (scale * 60) rest

def unsignedFloat (ps : List CodePoint) : Except Fault Binary64 :=
  let t : Text := ⟨ps⟩
  if t = ".inf" then .ok (.infinite false)
  else if t = ".nan" then .ok .nan
  else if t.contains ':' then do
    let parts ← (colonParts ps).mapM fun part => (Value.text part).toFraction
    sexagesimal .zero 1 parts.reverse
  else (Value.text t).toFraction

def isLeapYear (y : Nat) : Bool := y % 4 = 0 && (y % 100 ≠ 0 || y % 400 = 0)

def daysIn (year month : Nat) : Nat :=
  match month with
  | 2 => if isLeapYear year then 29 else 28
  | 4 | 6 | 9 | 11 => 30
  | _ => 31

def date (year month day : Nat) : Except Fault Date :=
  if year = 0 then .error (.badValue (.year year))
  else if month = 0 || 12 < month then .error (.badValue .month)
  else if day = 0 || daysIn year month < day then .error (.badValue .day)
  else .ok ⟨year, month, day⟩

/-- A distance from universal time, in seconds; it is less than a day. -/
def zoneOffset (zone : Bool × Nat × Nat) : Except Fault Int :=
  let (negative, hours, minutes) := zone
  let seconds : Int := (hours * 3600 + minutes * 60 : Nat)
  if 86400 ≤ seconds then .error (.badValue (.offset hours minutes negative))
  else .ok (if negative then -seconds else seconds)

def momentValue (w : WrittenMoment) : Except Fault Scalar := do
  match w.time with
  | none => return .date (← date w.year w.month w.day)
  | some (hour, minute, second, fraction, zone) =>
    let offset ← zone.mapM zoneOffset
    let d ← date w.year w.month w.day
    if 23 < hour then throw (.badValue .hour)
    if 59 < minute then throw (.badValue .minute)
    if 59 < second then throw (.badValue .second)
    let micros := Nat.ofDigitChars 10 ((fraction ++ List.replicate 6 '0').take 6) 0
    return .moment d { hour, minute, second, micros, offset }

def sextet? (c : Char) : Option Nat :=
  if c.isUpper then some (c.toNat - 'A'.toNat)
  else if c.isLower then some (c.toNat - 'a'.toNat + 26)
  else if c.isDigit then some (c.toNat - '0'.toNat + 52)
  else if c = '+' then some 62
  else if c = '/' then some 63
  else none

/-- Bytes from letters of six bits each. `held` are the letters of an unfinished group and
`pads` the signs that fill it up; anything else is passed over. -/
def bytesFrom (held : List Nat) (pads : Nat) : List Char → Except Fault (List UInt8)
  | [] => if held.isEmpty then .ok [] else malformed
  | c :: rest =>
    let finish : List UInt8 := match held with
      | [a, b] => [.ofNat (a * 4 + b / 16)]
      | [a, b, d] => [.ofNat (a * 4 + b / 16), .ofNat (b % 16 * 16 + d / 4)]
      | _ => []
    if c = '=' then
      if 2 ≤ held.length && 4 ≤ held.length + pads + 1 then .ok finish
      else bytesFrom held (if 2 ≤ held.length then pads + 1 else pads) rest
    else
      match sextet? c, held with
      | none, _ => bytesFrom held pads rest
      | some n, [a, b, d] => do
        return .ofNat (a * 4 + b / 16) :: .ofNat (b % 16 * 16 + d / 4) :: .ofNat (d % 4 * 64 + n)
          :: (← bytesFrom [] 0 rest)
      | some n, _ => bytesFrom (held ++ [n]) 0 rest

def Kind.value (kind : Kind) (t : Text) : Except Fault Scalar :=
  match kind with
  | .null => .ok .null
  | .bool =>
    match t.lower.string? with
    | some "yes" | some "true" | some "on" => .ok (.bool true)
    | some "no" | some "false" | some "off" => .ok (.bool false)
    | _ => Value.misused .missingKey
  | .int => do return .int (← signed (fun i => -i) unsignedInt (withoutBars t))
  | .float => do return .float (← signed Binary64.neg unsignedFloat (withoutBars t).lower)
  | .text => .ok (.text t)
  | .binary =>
    match t.chars? with
    | some cs => if cs.all fun c => c.toNat < 128 then do return .bytes (← bytesFrom [] 0 cs) else malformed
    | none => malformed
  | .moment =>
    match t.chars?.bind fun cs => moment? (dropBreak cs) with
    | some w => momentValue w
    | none => Value.misused .notAMap
  | .merge | .default | .sequence | .mapping | .set | .pairs => malformed

end Keeper.Yaml
