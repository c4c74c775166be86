import Keeper.Text.Blank
import Keeper.Text.Word

/-!
# Keeper — patterns of secrets

A pattern says how a secret is announced and what it is made of. The announcement is a row of
pieces, each of which takes as much as it can; no two neighbouring pieces want the same character, so
there is only one way to match and nothing is tried again. Letters match in either case, and the
few letters beyond ASCII that fold to an ASCII one match it too.

* **`Piece`** — a part of an announcement.
* **`Pattern`** — announcement and secret; `Pattern.match?` matches at the start of a text.
* **`Pattern.redact`** — the text with every match's secret replaced.
-/

namespace Keeper.Redaction

/-- The ASCII letter a character folds to, or the character itself. -/
def fold (c : Char) : Char :=
  if c = 'ſ' then 's'
  else if c = '\u212A' then 'k'
  else if c = 'İ' || c = 'ı' then 'i'
  else c.toLower

inductive Piece where
  /-- A letter, in either case. -/
  | letter (c : Char)
  /-- One of some characters. -/
  | oneOf (cs : List Char)
  /-- One of some characters, or nothing. -/
  | optional (cs : List Char)
  /-- Any number of blanks. -/
  | blanks
  /-- At least one blank. -/
  | someBlanks
deriving DecidableEq, Repr

namespace Piece

/-- How many code points a piece takes from the start of a text, if it matches there. -/
def taken? : Piece → List CodePoint → Option Nat
  | .letter c, d :: _ => if d.satisfies (fold · = c) then some 1 else none
  | .letter _, [] => none
  | .oneOf cs, d :: _ => if d.satisfies cs.contains then some 1 else none
  | .oneOf _, [] => none
  | .optional cs, d :: _ => some (if d.satisfies cs.contains then 1 else 0)
  | .optional _, [] => some 0
  | .blanks, cs => some (cs.takeWhile (·.satisfies Text.isBlank)).length
  | .someBlanks, cs =>
    match (cs.takeWhile (·.satisfies Text.isBlank)).length with
    | 0 => none
    | n + 1 => some (n + 1)

def takenAll? : List Piece → List CodePoint → Option Nat
  | [], _ => some 0
  | p :: rest, cs => do
    let n ← p.taken? cs
    return n + (← takenAll? rest (cs.drop n))

def word (s : String) : List Piece := s.toList.map .letter

end Piece

/-- How a secret is announced, and what it is made of. -/
structure Pattern where
  /-- Whether the announcement must not continue a word. -/
  atWordStart : Bool := false
  announcement : List Piece
  isSecret : CodePoint → Bool
  /-- The least length of a secret. -/
  least : Nat := 1

/-- A match at the start of a text: the lengths of announcement and secret. -/
structure Match where
  announced : Nat
  secret : Nat
deriving DecidableEq, Repr

def replacement : Text := "***REDACTED***"

namespace Pattern

def mayFollow (p : Pattern) : Option CodePoint → Bool
  | none => true
  | some c => !(p.atWordStart && c.satisfies Text.isWord)

/-- The match at the start of a text, `before` being the code point that precedes it. -/
def match? (p : Pattern) (before : Option CodePoint) (cs : List CodePoint) : Option Match :=
  if p.mayFollow before then
    match Piece.takenAll? p.announcement cs with
    | none => none
    | some announced =>
      let secret := ((cs.drop announced).takeWhile p.isSecret).length
      if p.least ≤ secret then some ⟨announced, secret⟩ else none
  else none

/-- Replaces secrets. Of the code points at the start, `skip` belong to a match that has
already been dealt with. -/
def redactFrom (p : Pattern) (before : Option CodePoint) (skip : Nat) :
    List CodePoint → List CodePoint
  | [] => []
  | c :: rest =>
    match skip with
    | skip + 1 => redactFrom p (some c) skip rest
    | 0 =>
      match p.match? before (c :: rest) with
      | some m =>
        (c :: rest).take m.announced ++ replacement.points
          ++ redactFrom p (some c) (m.announced + m.secret - 1) rest
      | none => c :: redactFrom p (some c) 0 rest

/-- The text with every secret replaced that the pattern finds, from left to right. -/
def redact (p : Pattern) (t : Text) : Text := ⟨p.redactFrom none 0 t.points⟩

end Pattern

end Keeper.Redaction
