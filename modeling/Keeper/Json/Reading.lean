import Keeper.Number.Reading
import Keeper.Value.Conversion

/-!
# Keeper — reading JSON

A reader for JSON texts that says where and why a text stops being one. Reading keeps the order
of an object's members; of two members with one name the later value wins, at the earlier place.
An integer is read exactly and a number with a fraction or an exponent as binary64.

* **`Problem`** — why a text is not JSON.
* **`readValue`** — one value at the start of a text, and the rest.
* **`parse`** — a whole text.
-/

namespace Keeper.Json

inductive Problem where
  | expectingValue
  | expectingName
  | expectingColon
  | expectingComma
  | unterminated
  | controlCharacter
  | escape
  | unicodeEscape
  | extraData
  | byteOrderMark
  | tooManyDigits (count : Nat)
  | tooDeep
deriving DecidableEq, Repr

namespace Problem

def label : Problem → Text
  | .expectingValue => "Expecting value"
  | .expectingName => "Expecting property name enclosed in double quotes"
  | .expectingColon => "Expecting ':' delimiter"
  | .expectingComma => "Expecting ',' delimiter"
  | .unterminated => "Unterminated string starting at"
  | .controlCharacter => "Invalid control character at"
  | .escape => "Invalid \\escape"
  | .unicodeEscape => "Invalid \\uXXXX escape"
  | .extraData => "Extra data"
  | .byteOrderMark => "Unexpected UTF-8 BOM (decode using utf-8-sig)"
  | .tooManyDigits count => (BadValue.tooManyDigits count).message
  | .tooDeep => "Nested too deeply"

end Problem

/-- A problem and what was left of the text where it lies. -/
structure Stop where
  problem : Problem
  rest : List Char

def isSpace (c : Char) : Bool := c = ' ' || c = '\t' || c = '\n' || c = '\r'

def skipSpace (cs : List Char) : List Char := cs.dropWhile isSpace

def hexDigit? (c : Char) : Option Nat :=
  if c.isDigit then some (c.toNat - 48)
  else if 'a' ≤ c && c ≤ 'f' then some (c.toNat - 87)
  else if 'A' ≤ c && c ≤ 'F' then some (c.toNat - 55)
  else none

def hexValue? (cs : List Char) : Option Nat :=
  cs.foldl (fun acc c => do return 16 * (← acc) + (← hexDigit? c)) (some 0)

def simpleEscape? : Char → Option Char
  | '"' => some '"'
  | '\\' => some '\\'
  | '/' => some '/'
  | 'b' => some '\x08'
  | 'f' => some '\x0c'
  | 'n' => some '\n'
  | 'r' => some '\r'
  | 't' => some '\t'
  | _ => none

/-- Code units as code points: a high surrogate and the low one after it make one
character. -/
def joinSurrogates : List Nat → List CodePoint
  | high :: low :: rest =>
    if 0xd800 ≤ high && high < 0xdc00 && 0xdc00 ≤ low && low < 0xe000 then
      .ofNat (0x10000 + (high - 0xd800) * 0x400 + (low - 0xdc00)) :: joinSurrogates rest
    else .ofNat high :: joinSurrogates (low :: rest)
  | [unit] => [.ofNat unit]
  | [] => []

/-- Reads the text after an opening quote up to the closing one. `start` is where it
opened and `units` what was read, last first. -/
def readText (start : List Char) (units : List Nat) :
    List Char → Except Stop (Text × List Char)
  | [] => .error ⟨.unterminated, start⟩
  | '"' :: rest => .ok (⟨joinSurrogates units.reverse⟩, rest)
  | '\\' :: 'u' :: a :: b :: c :: d :: rest =>
    match hexValue? [a, b, c, d], rest with
    | some unit, _ :: _ => readText start (unit :: units) rest
    | _, _ => .error ⟨.unicodeEscape, 'u' :: a :: b :: c :: d :: rest⟩
  | '\\' :: 'u' :: rest => .error ⟨.unicodeEscape, 'u' :: rest⟩
  | '\\' :: c :: rest =>
    match simpleEscape? c with
    | some e => readText start (e.toNat :: units) rest
    | none => .error ⟨.escape, '\\' :: c :: rest⟩
  | ['\\'] => .error ⟨.unterminated, start⟩
  | c :: rest =>
    if c.toNat < 32 then .error ⟨.controlCharacter, c :: rest⟩
    else readText start (c.toNat :: units) rest

/-- The fraction part of a number, if a digit follows the point. -/
def splitFraction : List Char → List Char × List Char
  | '.' :: rest =>
    let ds := rest.takeWhile Char.isDigit
    if ds.isEmpty then ([], '.' :: rest) else (ds, rest.drop ds.length)
  | cs => ([], cs)

def splitExponent (cs : List Char) : Option Int × List Char :=
  match cs with
  | c :: rest =>
    if c = 'e' || c = 'E' then
      let (negative, body) := takeSign rest
      let ds := body.takeWhile Char.isDigit
      if ds.isEmpty then (none, cs)
      else (some (Binary64.signedUnits negative (naturalOfDigits ds)), body.drop ds.length)
    else (none, cs)
  | [] => (none, [])

def readNumber (start : List Char) (negative : Bool) (cs : List Char) :
    Except Stop (Value × List Char) :=
  let digits := match cs with
    | '0' :: _ => ['0']
    | _ => cs.takeWhile Char.isDigit
  if digits.isEmpty then .error ⟨.expectingValue, start⟩
  else
    let (fraction, afterFraction) := splitFraction (cs.drop digits.length)
    let (exponent, rest) := splitExponent afterFraction
    if fraction.isEmpty && exponent.isNone then
      if integerDigitLimit < digits.length then .error ⟨.tooManyDigits digits.length, start⟩
      else .ok (.int (Binary64.signedUnits negative (naturalOfDigits digits)), rest)
    else
      .ok (.float (.ofDecimal negative (naturalOfDigits (digits ++ fraction))
        (exponent.getD 0 - fraction.length)), rest)

def readScalar (cs : List Char) : Except Stop (Value × List Char) :=
  match cs with
  | 'n' :: 'u' :: 'l' :: 'l' :: rest => .ok (.null, rest)
  | 't' :: 'r' :: 'u' :: 'e' :: rest => .ok (.bool true, rest)
  | 'f' :: 'a' :: 'l' :: 's' :: 'e' :: rest => .ok (.bool false, rest)
  | 'N' :: 'a' :: 'N' :: rest => .ok (.float .nan, rest)
  | 'I' :: 'n' :: 'f' :: 'i' :: 'n' :: 'i' :: 't' :: 'y' :: rest => .ok (.float (.infinite false), rest)
  | '-' :: 'I' :: 'n' :: 'f' :: 'i' :: 'n' :: 'i' :: 't' :: 'y' :: rest =>
    .ok (.float (.infinite true), rest)
  | '-' :: rest => readNumber cs true rest
  | _ => readNumber cs false cs

def depthLimit : Nat := 985

mutual

/-- Reads one value. The fuel bounds the number of steps; a text never needs more than
twice its length. `levels` is how many objects and arrays can still stand inside each
other. -/
def readValue : Nat → Nat → List Char → Except Stop (Value × List Char)
  | 0, _, cs => .error ⟨.expectingValue, cs⟩
  | fuel + 1, levels, cs =>
    match cs with
    | '"' :: rest => do
      let (s, rest) ← readText cs [] rest
      return (.text s, rest)
    | '{' :: rest =>
      if levels = 0 then .error ⟨.tooDeep, cs⟩
      else
        match skipSpace rest with
        | '}' :: rest => .ok (.map [], rest)
        | rest => readMembers fuel (levels - 1) [] rest
    | '[' :: rest =>
      if levels = 0 then .error ⟨.tooDeep, cs⟩
      else
        match skipSpace rest with
        | ']' :: rest => .ok (.list [], rest)
        | rest => readItems fuel (levels - 1) [] rest
    | _ => readScalar cs

/-- Reads the members of an object from a name on; `entries` holds what was read, last
first. -/
def readMembers : Nat → Nat → List (Scalar × Value) → List Char → Except Stop (Value × List Char)
  | 0, _, _, cs => .error ⟨.expectingName, cs⟩
  | fuel + 1, levels, entries, cs =>
    match cs with
    | '"' :: rest => do
      let (name, rest) ← readText cs [] rest
      match skipSpace rest with
      | ':' :: rest =>
        let (value, rest) ← readValue fuel levels (skipSpace rest)
        let entries := (.text name, value) :: entries
        match skipSpace rest with
        | '}' :: rest => return (.map (Fields.ofEntries entries.reverse), rest)
        | ',' :: rest => readMembers fuel levels entries (skipSpace rest)
        | rest => .error ⟨.expectingComma, rest⟩
      | rest => .error ⟨.expectingColon, rest⟩
    | _ => .error ⟨.expectingName, cs⟩

/-- Reads the items of an array; `items` holds what was read, last first. -/
def readItems : Nat → Nat → List Value → List Char → Except Stop (Value × List Char)
  | 0, _, _, cs => .error ⟨.expectingValue, cs⟩
  | fuel + 1, levels, items, cs => do
    let (value, rest) ← readValue fuel levels cs
    let items := value :: items
    match skipSpace rest with
    | ']' :: rest => return (.list items.reverse, rest)
    | ',' :: rest => readItems fuel levels items (skipSpace rest)
    | rest => .error ⟨.expectingComma, rest⟩

end

def parseChars (cs : List Char) : Except Stop Value :=
  match cs with
  | '\ufeff' :: _ => .error ⟨.byteOrderMark, cs⟩
  | _ => do
    let (value, rest) ← readValue (2 * cs.length + 2) depthLimit (skipSpace cs)
    match skipSpace rest with
    | [] => return value
    | rest => .error ⟨.extraData, rest⟩

structure Failure where
  problem : Problem
  /-- Characters before the place. -/
  position : Nat
  /-- Its line, the first one being 1. -/
  line : Nat
  /-- Its column in the line, the first one being 1. -/
  column : Nat
deriving DecidableEq, Repr

/-- The place where `rest` begins at the end of `cs`. -/
def Stop.failure (stop : Stop) (cs : List Char) : Failure :=
  let before := cs.take (cs.length - stop.rest.length)
  let lastLine := before.reverse.takeWhile (· ≠ '\n')
  ⟨stop.problem, before.length, before.count '\n' + 1, lastLine.length + 1⟩

namespace Failure

/-- The problem and its place; a number that is too long is reported without a place. -/
def message (f : Failure) : Text :=
  match f.problem with
  | .tooManyDigits _ => f.problem.label
  | p =>
    p.label ++ ": line " ++ toString f.line ++ " column " ++ toString f.column ++ " (char "
      ++ toString f.position ++ ")"

end Failure

def parse (cs : List Char) : Except Failure Value :=
  match parseChars cs with
  | .ok value => .ok value
  | .error stop => .error (stop.failure cs)

end Keeper.Json
