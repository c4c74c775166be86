/-!
# Keeper — text

A text is a row of code points. Most code points are characters; the others are surrogates, the
halves of which UTF-16 makes a character, standing alone. Files and documents that are read hold
only characters, but an escape may name any code point.

* **`CodePoint`** — a character, or a surrogate.
* **`Text`** — the row; texts are ordered by the values of their code points.
* **`Text.chars?`**, **`Text.string?`** — a text that is made of characters alone.
-/

namespace Keeper

/-- A code point: a character, or a surrogate by its place among the surrogates. -/
inductive CodePoint where
  | char (c : Char)
  | surrogate (place : Fin 2048)
deriving DecidableEq, Repr, Inhabited

namespace CodePoint

def firstSurrogate : Nat := 0xd800

def value : CodePoint → Nat
  | .char c => c.toNat
  | .surrogate place => firstSurrogate + place

def ofNat (n : Nat) : CodePoint :=
  if h : firstSurrogate ≤ n ∧ n - firstSurrogate < 2048 then .surrogate ⟨n - firstSurrogate, h.2⟩
  else .char (Char.ofNat n)

/-- Whether a code point is a character that satisfies a test. -/
def satisfies (p : Char → Bool) : CodePoint → Bool
  | .char c => p c
  | .surrogate _ => false

def char? : CodePoint → Option Char
  | .char c => some c
  | .surrogate _ => none

instance : Coe Char CodePoint := ⟨.char⟩

end CodePoint

/-- A row of code points. -/
@[ext]
structure Text where
  points : List CodePoint
deriving DecidableEq, Repr, Inhabited

namespace Text

def ofChars (cs : List Char) : Text := ⟨cs.map .char⟩

def ofString (s : String) : Text := ofChars s.toList

instance : Coe String Text := ⟨ofString⟩

def single (p : CodePoint) : Text := ⟨[p]⟩

instance : Append Text := ⟨fun s t => ⟨s.points ++ t.points⟩⟩

/-- The characters of a text, unless there is a surrogate in it. -/
def chars? (t : Text) : Option (List Char) := t.points.mapM CodePoint.char?

def string? (t : Text) : Option String := t.chars?.map String.ofList

/-- A text as a string in which replacement characters stand for surrogates. -/
def shown (t : Text) : String := String.ofList (t.points.map fun p => p.char?.getD '\uFFFD')

def length (t : Text) : Nat := t.points.length

def isEmpty (t : Text) : Bool := t.points.isEmpty

def take (n : Nat) (t : Text) : Text := ⟨t.points.take n⟩

def drop (n : Nat) (t : Text) : Text := ⟨t.points.drop n⟩

/-- The first code points of a text, as long as they are characters that satisfy a
test. -/
def takeWhile (p : Char → Bool) (t : Text) : Text := ⟨t.points.takeWhile (·.satisfies p)⟩

def startsWith (t start : Text) : Bool := start.points.isPrefixOf t.points

def endsWith (t tail : Text) : Bool := tail.points.isSuffixOf t.points

def contains (t : Text) (p : CodePoint) : Bool := t.points.contains p

def join (ts : List Text) : Text := ⟨ts.flatMap points⟩

def intercalate (between : Text) : List Text → Text
  | [] => ""
  | [t] => t
  | t :: u :: rest => t ++ between ++ intercalate between (u :: rest)

def lt (s t : Text) : Bool := decide (s.points.map CodePoint.value < t.points.map CodePoint.value)

def le (s t : Text) : Bool := !t.lt s

end Text

end Keeper
