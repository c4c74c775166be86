import Keeper.Number.Decimal
import Keeper.Text.Quoted
import Keeper.Value.Basic

/-!
# Keeper — values as text

A value has two texts. Its *literal* shows what it is: texts are quoted, containers bracketed.
Its *display* is the same except that a text alone is shown as it stands.

* **`Value.literal`** — the literal.
* **`Value.display`** — the display.
-/

namespace Keeper

/-- A natural in decimal, padded with zeros to a least width. -/
def paddedText (width n : Nat) : Text :=
  .ofChars (Binary64.padZeros width (Nat.toDigits 10 n))

def integerText (i : Int) : Text :=
  if i < 0 then "-" ++ toString i.natAbs else toString i.natAbs

namespace Date

def text (d : Date) : Text :=
  paddedText 4 d.year ++ "-" ++ paddedText 2 d.month ++ "-" ++ paddedText 2 d.day

def literalArgs (d : Date) : List Text := [toString d.year, toString d.month, toString d.day]

end Date

namespace TimeOfDay

/-- A distance from universal time: a sign, hours and minutes, and seconds if there are
any. -/
def offsetText (seconds : Int) : Text :=
  let n := seconds.natAbs
  (if seconds < 0 then "-" else "+") ++ paddedText 2 (n / 3600) ++ ":" ++ paddedText 2 (n / 60 % 60)
    ++ (if n % 60 = 0 then ("" : Text) else ":" ++ paddedText 2 (n % 60))

/-- Hours, minutes and seconds, then the fraction and the offset if there are any. -/
def text (t : TimeOfDay) : Text :=
  paddedText 2 t.hour ++ ":" ++ paddedText 2 t.minute ++ ":" ++ paddedText 2 t.second
    ++ (if t.micros = 0 then ("" : Text) else "." ++ paddedText 6 t.micros)
    ++ ((t.offset.map offsetText).getD "")

def zoneLiteral (seconds : Int) : Text :=
  if seconds = 0 then "tzinfo=datetime.timezone.utc"
  else
    "tzinfo=datetime.timezone(datetime.timedelta("
      ++ (if seconds < 0 then ("days=-1, " : Text) else "")
      ++ "seconds=" ++ toString (seconds % 86400).natAbs ++ "))"

/-- The arguments that write the time in a literal: seconds and fraction only if they
matter. -/
def literalArgs (t : TimeOfDay) : List Text :=
  let number (n : Nat) : Text := toString n
  [number t.hour, number t.minute]
    ++ (if t.second = 0 && t.micros = 0 then [] else [number t.second])
    ++ (if t.micros = 0 then [] else [number t.micros])
    ++ (t.offset.map zoneLiteral).toList

end TimeOfDay

def byteText (quote : Char) (b : UInt8) : List Char :=
  let c := Char.ofNat b.toNat
  if c = '\\' || c = quote then ['\\', c]
  else if c = '\n' then ['\\', 'n']
  else if c = '\r' then ['\\', 'r']
  else if c = '\t' then ['\\', 't']
  else if 32 ≤ b.toNat && b.toNat < 127 then [c]
  else '\\' :: 'x' :: Text.hexText 2 b.toNat

def bytesText (bs : List UInt8) : Text :=
  let q := Text.quoteFor (.ofChars (bs.map fun b => Char.ofNat b.toNat))
  .ofChars ('b' :: q :: (bs.flatMap (byteText q) ++ [q]))

namespace Scalar

def literal : Scalar → Text
  | .null => "None"
  | .bool true => "True"
  | .bool false => "False"
  | .int i => integerText i
  | .float x => x.text
  | .text s => Text.quoted s
  | .date d =>
    "datetime.date(" ++ Text.intercalate ", " d.literalArgs ++ ")"
  | .moment d t =>
    "datetime.datetime(" ++ Text.intercalate ", "
      (d.literalArgs ++ t.literalArgs) ++ ")"
  | .bytes bs => bytesText bs

def display : Scalar → Text
  | .text s => s
  | .date d => d.text
  | .moment d t => d.text ++ " " ++ t.text
  | s => s.literal

end Scalar

namespace Value

mutual

def literal : Value → Text
  | .scalar s => s.literal
  | .list xs => "[" ++ literalItems xs ++ "]"
  | .tuple [x] => "(" ++ literal x ++ ",)"
  | .tuple xs => "(" ++ literalItems xs ++ ")"
  | .set [] => "set()"
  | .set ms => "\x7b" ++ Text.intercalate ", " (ms.map Scalar.literal) ++ "\x7d"
  | .map fs => "\x7b" ++ literalEntries fs ++ "\x7d"
  | .endless => "[...]"

def literalItems : List Value → Text
  | [] => ""
  | [x] => literal x
  | x :: y :: rest => literal x ++ ", " ++ literalItems (y :: rest)

def literalEntries : List (Scalar × Value) → Text
  | [] => ""
  | [(k, v)] => k.literal ++ ": " ++ literal v
  | (k, v) :: e :: rest => k.literal ++ ": " ++ literal v ++ ", " ++ literalEntries (e :: rest)

end

def display : Value → Text
  | .scalar s => s.display
  | v => v.literal

end Value

end Keeper
