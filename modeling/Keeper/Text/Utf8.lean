import Keeper.Text.Quoted

/-!
# Keeper — text as bytes

UTF-8, written and read. Reading either stops at the first flaw or puts a replacement character in
the place of each. A flaw takes in as many bytes as could still have begun a character.

* **`encode`** — the bytes of a text.
* **`systemBytes`** — the bytes by which a text is known to the system, if it can be.
* **`gap?`** — where a text has no bytes as it stands.
* **`next`** — the first character of some bytes, or the flaw they begin with.
* **`decode`** — the whole text, or where and why it is not one.
* **`decodeBlocks`** — the same, block by block.
* **`decodeLossy`** — the text with every flaw replaced.
-/

namespace Keeper.Text.Utf8

def encodeValue (n : Nat) : List UInt8 :=
  let tail (shift : Nat) : UInt8 := .ofNat (0x80 + n / Nat.pow 2 shift % 64)
  if n < 0x80 then [.ofNat n]
  else if n < 0x800 then [.ofNat (0xC0 + n / 64), tail 0]
  else if n < 0x10000 then [.ofNat (0xE0 + n / 4096), tail 6, tail 0]
  else [.ofNat (0xF0 + n / 262144), tail 12, tail 6, tail 0]

/-- The bytes of a text; a surrogate is written like any other code point of its size. -/
def encode (t : Text) : List UInt8 := t.points.flatMap fun p => encodeValue p.value

/-- The byte a surrogate stands for: the system's names are bytes, and those that are no
part of a character are read as surrogates. -/
def heldByte? (place : Fin 2048) : Option UInt8 :=
  if 0x480 ≤ place.val && place.val < 0x500 then some (.ofNat (place.val - 0x400)) else none

/-- The bytes by which a code point is known to the system. -/
def systemBytesOf? : CodePoint → Option (List UInt8)
  | .char c => some (encodeValue c.toNat)
  | .surrogate place => (heldByte? place).map fun b => [b]

/-- Surrogates in a row that have no bytes, from the first that stands for none, and where
they begin. -/
structure Gap where
  position : Nat
  surrogates : List CodePoint
deriving DecidableEq, Repr

namespace Gap

/-- Where a text has its first code point that has no bytes. -/
def ofText (hasBytes : CodePoint → Bool) (t : Text) : Gap :=
  let rest := t.points.dropWhile hasBytes
  ⟨t.length - rest.length, rest.takeWhile fun p => p.char?.isNone⟩

def message (g : Gap) : Text :=
  "'utf-8' codec can't encode " ++ (
    match g.surrogates with
    | [p] => "character '\\u" ++ ofChars (hexText 4 p.value) ++ "' in position " ++ toString g.position
    | ps =>
      "characters in position " ++ toString g.position ++ "-" ++ toString (g.position + ps.length - 1))
    ++ ": surrogates not allowed"

end Gap

/-- The bytes by which a text is known to the system, unless it holds a surrogate that
stands for no byte. -/
def systemBytes (t : Text) : Except Gap (List UInt8) :=
  match t.points.mapM systemBytesOf? with
  | some parts => .ok parts.flatten
  | none => .error (.ofText (fun p => (systemBytesOf? p).isSome) t)

/-- Where a text cannot be written as characters: at its first surrogate, whatever that
stands for. -/
def gap? (t : Text) : Option Gap :=
  let isChar (p : CodePoint) : Bool := p.char?.isSome
  if t.points.all isChar then none else some (.ofText isChar t)

inductive Flaw where
  | startByte
  | continuationByte
  | endOfData
deriving DecidableEq, Repr

namespace Flaw

def message : Flaw → Text
  | .startByte => "invalid start byte"
  | .continuationByte => "invalid continuation byte"
  | .endOfData => "unexpected end of data"

end Flaw

/-- A character, or a flaw, and how many bytes it takes. -/
abbrev Piece := Except Flaw Char × Nat

/-- Reads the bytes that continue a character: `value` is what has been read, `taken` its
length, and the next byte must lie between `low` and `high`. -/
def continuation (value taken low high : Nat) : Nat → List UInt8 → Piece
  | 0, _ => (.ok (Char.ofNat value), taken)
  | _ + 1, [] => (.error .endOfData, taken)
  | more + 1, b :: rest =>
    if low ≤ b.toNat && b.toNat ≤ high then
      continuation (value * 64 + b.toNat % 64) (taken + 1) 0x80 0xBF more rest
    else (.error .continuationByte, taken)

def next (b : UInt8) (rest : List UInt8) : Piece :=
  let n := b.toNat
  if n < 0x80 then (.ok (Char.ofNat n), 1)
  else if n < 0xC2 then (.error .startByte, 1)
  else if n < 0xE0 then continuation (n - 0xC0) 1 0x80 0xBF 1 rest
  else if n < 0xF0 then
    continuation (n - 0xE0) 1 (if n = 0xE0 then 0xA0 else 0x80) (if n = 0xED then 0x9F else 0xBF) 2 rest
  else if n < 0xF5 then
    continuation (n - 0xF0) 1 (if n = 0xF0 then 0x90 else 0x80) (if n = 0xF4 then 0x8F else 0xBF) 3 rest
  else (.error .startByte, 1)

/-- The pieces of some bytes, each with its position; `fuel` bounds their number. -/
def pieces (position : Nat) : Nat → List UInt8 → List (Nat × Piece)
  | 0, _ | _ + 1, [] => []
  | fuel + 1, b :: rest =>
    let piece := next b rest
    (position, piece) :: pieces (position + piece.2) fuel (rest.drop (piece.2 - 1))

structure Failure where
  flaw : Flaw
  position : Nat
  length : Nat
  first : UInt8
deriving DecidableEq, Repr

namespace Failure

def message (f : Failure) : Text :=
  "'utf-8' codec can't decode " ++ (
    if f.length = 1 then
      "byte 0x" ++ ofChars (hexText 2 f.first.toNat) ++ " in position " ++ toString f.position
    else
      "bytes in position " ++ toString f.position ++ "-" ++ toString (f.position + f.length - 1))
    ++ ": " ++ f.flaw.message

end Failure

def decode (bytes : List UInt8) : Except Failure (List Char) := do
  (pieces 0 bytes.length bytes).mapM fun (position, piece) =>
    match piece.1 with
    | .ok c => .ok c
    | .error flaw => .error ⟨flaw, position, piece.2, bytes.getD position 0⟩

/-- Where the block begins that a flaw is met in, blocks having `size` bytes. A character
that goes on over the end of a block is looked at with the next one, and the end of the
data alone. -/
def blockStart (size : Nat) (found : List (Nat × Piece)) (f : Failure) : Nat :=
  let met := match f.flaw with
    | .startByte => f.position
    | .continuationByte => f.position + f.length
    | .endOfData => f.position
  let edge := if f.flaw = .endOfData then met else met / size * size
  if f.position < edge then f.position
  else
    match found.find? fun (p, piece) => p < edge && edge < p + piece.2 with
    | some (p, _) => p
    | none => edge

/-- The characters of some bytes that are read in blocks. The blocks before a flaw are
characters, and the place of the flaw is that in its block. -/
def decodeBlocks (size : Nat) (bytes : List UInt8) : List Char × Option Failure :=
  match decode bytes with
  | .ok cs => (cs, none)
  | .error f =>
    let found := pieces 0 bytes.length bytes
    let start := blockStart size found f
    (found.filterMap fun (p, piece) => if p < start then piece.1.toOption else none,
      some { f with position := f.position - start })

/-- The characters some bytes write, a replacement character standing for each flaw. -/
def decodeLossy (bytes : List UInt8) : List Char :=
  (pieces 0 bytes.length bytes).map fun (_, piece) =>
    match piece.1 with
    | .ok c => c
    | .error _ => '\uFFFD'

end Keeper.Text.Utf8
