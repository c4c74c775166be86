import Keeper.Value.Conversion

/-!
# Keeper — writing JSON

JSON on one line, in ASCII: a comma and a blank between items, a colon and a blank after a name, and
every character beyond ASCII as the escapes of its UTF-16 units. JSON knows no dates, bytes and sets,
and an integer of too many digits is not written.

* **`textChars`** — a quoted text.
* **`write?`** — a value; a value that JSON cannot hold has no writing.
-/

namespace Keeper.Json

def unitEscape (unit : Nat) : List Char := '\\' :: 'u' :: Text.hexText 4 unit

def escapeChar (c : Char) : List Char :=
  if c = '"' || c = '\\' then ['\\', c]
  else if c = '\n' then ['\\', 'n']
  else if c = '\r' then ['\\', 'r']
  else if c = '\t' then ['\\', 't']
  else if c = '\x08' then ['\\', 'b']
  else if c = '\x0c' then ['\\', 'f']
  else if 32 ≤ c.toNat && c.toNat < 127 then [c]
  else if c.toNat < 0x10000 then unitEscape c.toNat
  else
    let n := c.toNat - 0x10000
    unitEscape (0xd800 + n / 0x400) ++ unitEscape (0xdc00 + n % 0x400)

def escapePoint : CodePoint → List Char
  | .char c => escapeChar c
  | p => unitEscape p.value

def writeText (t : Text) : Text :=
  .ofChars ('"' :: (t.points.flatMap escapePoint ++ ['"']))

/-- A binary64 number; the infinities and NaN are spelled out. -/
def writeFloat : Binary64 → Text
  | .nan => "NaN"
  | .infinite false => "Infinity"
  | .infinite true => "-Infinity"
  | x => x.text

def writeScalar? : Scalar → Option Text
  | .null => some "null"
  | .bool b => some (if b then "true" else "false")
  | .int i => if (Scalar.int i).isWritable then some (integerText i) else none
  | .float x => some (writeFloat x)
  | .text s => some (writeText s)
  | _ => none

/-- A key: a text, or another scalar by the text of its writing. -/
def writeKey? : Scalar → Option Text
  | .text s => some (writeText s)
  | s => (writeScalar? s).map writeText

mutual

def write? : Value → Option Text
  | .scalar s => writeScalar? s
  | .list xs | .tuple xs => do return "[" ++ (← writeItems? xs) ++ "]"
  | .map fs => do return "\x7b" ++ (← writeEntries? fs) ++ "\x7d"
  | .set _ | .endless => none

def writeItems? : List Value → Option Text
  | [] => some ""
  | [x] => write? x
  | x :: y :: rest => do return (← write? x) ++ ", " ++ (← writeItems? (y :: rest))

def writeEntries? : List (Scalar × Value) → Option Text
  | [] => some ""
  | [(k, v)] => do return (← writeKey? k) ++ ": " ++ (← write? v)
  | (k, v) :: e :: rest => do
    return (← writeKey? k) ++ ": " ++ (← write? v) ++ ", " ++ (← writeEntries? (e :: rest))

end

end Keeper.Json
