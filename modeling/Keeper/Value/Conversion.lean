import Keeper.Fault
import Keeper.Number.Reading

/-!
# Keeper — conversions between values

What a value is when it is read as an integer, as a binary64 number, as a sequence or as a map.
Each conversion says what it refuses.

* **`Value.toInteger`** — integers and truth values as they are, fractions without their part after
  the point, texts as written integers.
* **`Value.toFraction`** — numbers, and texts as written decimals.
* **`Value.items`** — the items of a list, the code points of a text, the keys of a map.
* **`Value.toFields`** — a map, or a list of pairs.
* **`Value.fields`** — a map and nothing else.
* **`Value.isWritable`** — whether a value has a text: the digits of integers are limited.
* **`Value.shown`** — that text, the display of the value.
-/

namespace Keeper

def Scalar.isWritable : Scalar → Bool
  | .int i => i.natAbs < Nat.pow 10 integerDigitLimit
  | _ => true

namespace Value

def misused {α : Type} (m : Misuse) : Except Fault α := .error (.misuse m)

def rejected {α : Type} (b : BadValue) : Except Fault α := .error (.badValue b)

/-- The integer a numeral says; `literal` is shown when it says none. -/
def integerOfNumeral (literal : Text) : Numeral → Except Fault Int
  | .value i => .ok i
  | .tooLong digits => rejected (.tooManyDigits digits)
  | .unreadable => rejected (.integerText 10 literal)

def integerOfText (t : Text) : Except Fault Int :=
  integerOfNumeral t.quoted (.read (numeralChars t.points))

/-- The integer bytes write; they must be ASCII. -/
def integerOfBytes (bs : List UInt8) : Except Fault Int :=
  integerOfNumeral (bytesText (bs.take BadValue.literalLimit))
    (.read (bs.map fun b => Char.ofNat b.toNat))

def toInteger : Value → Except Fault Int
  | .bool b => .ok b.toInt
  | .int i => .ok i
  | .float .nan => rejected .notANumber
  | .float x =>
    match x.truncate? with
    | some i => .ok i
    | none => misused .tooLarge
  | .text t => integerOfText t
  | .scalar (.bytes bs) => integerOfBytes bs
  | _ => misused .wrongType

def fractionOfInteger (i : Int) : Except Fault Binary64 :=
  match Binary64.ofInt i with
  | .infinite _ => misused .tooLarge
  | x => .ok x

def toFraction : Value → Except Fault Binary64
  | .bool b => fractionOfInteger b.toInt
  | .int i => fractionOfInteger i
  | .float x => .ok x
  | .text t =>
    match readFraction? t with
    | some x => .ok x
    | none => rejected (.fractionText t)
  | _ => misused .wrongType

def characters (t : Text) : List Value := t.points.map fun p => .text (.single p)

def items : Value → Except Fault (List Value)
  | .list xs | .tuple xs => .ok xs
  | .set ms => .ok (ms.map .scalar)
  | .map fs => .ok (fs.map fun (k, _) => .scalar k)
  | .text t => .ok (characters t)
  | .scalar (.bytes bs) => .ok (bs.map fun b => .int b.toNat)
  | .scalar _ => misused .wrongType
  | .endless => misused .endless

def count (v : Value) : Except Fault Nat := v.items.map List.length

/-- Reads a list of pairs as entries, the first at position `index`. -/
def entriesOfPairs (index : Nat) : List Value → Except Fault (List (Scalar × Value))
  | [] => .ok []
  | pair :: rest => do
    match ← pair.items with
    | [.scalar k, v] => return (k, v) :: (← entriesOfPairs (index + 1) rest)
    | [_, _] => misused .wrongType
    | parts => rejected (.pairLength index parts.length)

def toFields : Value → Except Fault Fields
  | .map fs => .ok fs
  | v => do return Fields.ofEntries (← entriesOfPairs 0 (← v.items))

def fields : Value → Except Fault Fields
  | .map fs => .ok fs
  | _ => misused .notAMap

mutual

/-- Whether no integer in a value has more digits than are written. -/
def isWritable : Value → Bool
  | .scalar s => s.isWritable
  | .list xs | .tuple xs => areWritable xs
  | .set ms => ms.all Scalar.isWritable
  | .map fs => entriesAreWritable fs
  | .endless => true

def areWritable : List Value → Bool
  | [] => true
  | v :: rest => isWritable v && areWritable rest

def entriesAreWritable : List (Scalar × Value) → Bool
  | [] => true
  | (k, v) :: rest => k.isWritable && isWritable v && entriesAreWritable rest

end

/-- The text of a value; there is none when an integer in it has too many digits. -/
def shown (v : Value) : Except Fault Text :=
  if v.isWritable then .ok v.display else rejected .unwritableInteger

def key : Value → Except Fault Scalar
  | .scalar s => .ok s
  | _ => misused .wrongType

end Value

namespace Fields

/-- The text of the value at a key, a missing or false one being replaced. -/
def textOr (fields : Fields) (key default : Text) : Except Fault Text :=
  ((fields.getD key .null).orElse default).shown

def names? : Fields → Option (List Text)
  | [] => some []
  | (.text k, _) :: rest => (names? rest).map (k :: ·)
  | _ :: _ => none

/-- The name by which a record knows itself, which names no field. -/
def ownName : Text := "self"

/-- Accepts the fields of a record when it has all of them; the first one it has not is
refused. -/
def checkNames (record : Text) (known : List Text) (fields : Fields) : Except Fault Unit :=
  match names? fields with
  | none => .error (.misuse .wrongType)
  | some names =>
    match names.find? (!known.contains ·) with
    | some name =>
      .error (if name = ownName then .misuse .wrongType else .unknownField record name)
    | none => .ok ()

end Fields

end Keeper
