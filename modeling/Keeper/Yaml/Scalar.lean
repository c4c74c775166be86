import Keeper.Fault
import Keeper.Text.Utf8
import Keeper.Yaml.Cursor

/-!
# Keeper — written scalars

The ways a scalar is written in a YAML text: plain, between quotes, or as a block of lines. Lines
that are folded are joined by a blank, and an empty line stands for a line break.

* **`plain`** — a scalar without quotes.
* **`quotedScalar`** — a scalar between single or double quotes.
* **`block`** — a scalar in lines of its own.
-/

namespace Keeper.Yaml

def malformed {α : Type} : Except Fault α := .error .document

/-! ## Plain scalars -/

def isFlowIndicator (c : Char) : Bool :=
  c = ',' || c = '[' || c = ']' || c = '\x7b' || c = '\x7d'

/-- The start of a text up to where a plain word ends; `flow` says that it stands in
brackets. -/
def plainWord (flow : Bool) : List Char → List Char
  | [] => []
  | c :: rest =>
    let next := rest.head?.getD nul
    if isWordEnd c || (c = ':' && (isWordEnd next || (flow && isFlowIndicator next)))
        || (flow && (c = '?' || isFlowIndicator c)) then []
    else c :: plainWord flow rest

/-- Blanks and line breaks between the lines of a plain scalar; nothing if a document ends
there. -/
def plainBreaks : Nat → Cursor → List Char → Option (List Char × Cursor)
  | 0, c, breaks => some (breaks, c)
  | fuel + 1, c, breaks =>
    if c.peek = ' ' then plainBreaks fuel c.step breaks
    else if isBreak c.peek then
      let (taken, c) := c.lineBreak
      if c.atSeparator then none else plainBreaks fuel c (breaks ++ taken)
    else some (breaks, c)

/-- What becomes of a line break that is followed by others. -/
def folded (lineBreak breaks : List Char) : List Char :=
  (if lineBreak ≠ ['\n'] then lineBreak else if breaks.isEmpty then [' '] else []) ++ breaks

structure Gap where
  /-- What the gap becomes if another word follows; nothing if none may follow. -/
  text : List Char
  cursor : Cursor
  /-- Whether the gap holds a line break. -/
  broken : Bool

def plainGap (c : Cursor) : Gap :=
  let (blanks, c) := c.takeWhile (· = ' ')
  if isBreak c.peek then
    let (lineBreak, c) := c.lineBreak
    if c.atSeparator then ⟨[], c, true⟩
    else
      match plainBreaks (c.rest.length + 1) c [] with
      | none => ⟨[], c, true⟩
      | some (breaks, c) => ⟨folded lineBreak breaks, c, true⟩
  else ⟨blanks, c, false⟩

/-- A scalar that has been read, and whether a line break followed it. -/
structure Written where
  text : List CodePoint
  cursor : Cursor
  broken : Bool := false

/-- Reads the words of a plain scalar, whose lines are indented by at least `indent`. -/
def plainFrom (flow : Bool) (indent : Int) : Nat → List CodePoint → Gap → Written
  | 0, text, gap => ⟨text, gap.cursor, gap.broken⟩
  | fuel + 1, text, gap =>
    let word := if gap.cursor.peek = '#' then [] else plainWord flow gap.cursor.rest
    if word.isEmpty then ⟨text, gap.cursor, gap.broken⟩
    else
      let text := text ++ (gap.text ++ word).map .char
      let next := plainGap (gap.cursor.forward word.length)
      if next.text.isEmpty || next.cursor.peek = '#' || (!flow && next.cursor.column < indent) then
        ⟨text, next.cursor, next.broken⟩
      else plainFrom flow indent fuel text next

def plain (flow : Bool) (indent : Int) (c : Cursor) : Written :=
  plainFrom flow indent c.rest.length [] ⟨[], c, false⟩

/-! ## Scalars between quotes -/

/-- The characters that are written with a backslash and one letter. -/
def escape? : Char → Option Char
  | '0' => some '\x00'
  | 'a' => some '\x07'
  | 'b' => some '\x08'
  | 't' | '\t' => some '\t'
  | 'n' => some '\n'
  | 'v' => some '\x0b'
  | 'f' => some '\x0c'
  | 'r' => some '\r'
  | 'e' => some '\x1b'
  | ' ' => some ' '
  | '"' => some '"'
  | '\\' => some '\\'
  | '/' => some '/'
  | 'N' => some '\x85'
  | '_' => some '\xa0'
  | 'L' => some '\u2028'
  | 'P' => some '\u2029'
  | _ => none

def escapeDigits? : Char → Option Nat
  | 'x' => some 2
  | 'u' => some 4
  | 'U' => some 8
  | _ => none

def hexValue? (c : Char) : Option Nat :=
  if c.isDigit then some (c.toNat - '0'.toNat)
  else if 'a' ≤ c && c ≤ 'f' then some (c.toNat - 'a'.toNat + 10)
  else if 'A' ≤ c && c ≤ 'F' then some (c.toNat - 'A'.toNat + 10)
  else none

def hexNumber? (cs : List Char) : Option Nat :=
  cs.foldlM (fun n c => (hexValue? c).map (n * 16 + ·)) 0

/-- Line breaks inside quotes; no document begins or ends there. -/
def quotedBreaks : Nat → Cursor → List Char → Except Fault (List Char × Cursor)
  | 0, c, breaks => .ok (breaks, c)
  | fuel + 1, c, breaks =>
    if c.atSeparator then malformed
    else
      let c := c.skipWhile isGap
      if isBreak c.peek then
        let (taken, c) := c.lineBreak
        quotedBreaks fuel c (breaks ++ taken)
      else .ok (breaks, c)

/-- An escape; the cursor stands behind the backslash. -/
def readEscape (c : Cursor) : Except Fault (List CodePoint × Cursor) :=
  let d := c.peek
  match escape? d, escapeDigits? d with
  | some e, _ => if c.rest.isEmpty then malformed else .ok ([.char e], c.step)
  | none, some n =>
    let digits := c.step.rest.take n
    match hexNumber? digits with
    | none => malformed
    | some code =>
      if digits.length ≠ n then malformed
      else if 0x80000000 ≤ code then .error (.misuse .tooLarge)
      else if 0x110000 ≤ code then .error (.badValue .codePoint)
      else .ok ([.ofNat code], c.step.forward n)
  | none, none =>
    if isBreak d then do
      let (breaks, c) ← quotedBreaks (c.rest.length + 1) c.lineBreak.2 []
      return (breaks.map .char, c)
    else malformed

def quotedGap (c : Cursor) : Except Fault (List Char × Cursor) :=
  let (blanks, c) := c.takeWhile isGap
  if c.rest.isEmpty then malformed
  else if isBreak c.peek then do
    let (lineBreak, c) := c.lineBreak
    let (breaks, c) ← quotedBreaks (c.rest.length + 1) c []
    return (folded lineBreak breaks, c)
  else .ok (blanks, c)

/-- Reads what stands between quotes, up to and with the closing one. -/
def quotedFrom (quote : Char) : Nat → List CodePoint → Cursor → Except Fault Written
  | 0, _, _ => malformed
  | fuel + 1, text, c =>
    let d := c.peek
    if c.rest.isEmpty then malformed
    else if d = quote then
      if quote = '\'' && c.peek 1 = '\'' then quotedFrom quote fuel (text ++ [.char '\'']) (c.forward 2)
      else .ok ⟨text, c.step, false⟩
    else if quote = '"' && d = '\\' then do
      let (taken, c) ← readEscape c.step
      quotedFrom quote fuel (text ++ taken) c
    else if isWordEnd d then do
      let (taken, c) ← quotedGap c
      quotedFrom quote fuel (text ++ taken.map .char) c
    else quotedFrom quote fuel (text ++ [.char d]) c.step

/-- Reads a scalar between quotes; the cursor stands at the opening one. -/
def quotedScalar (c : Cursor) : Except Fault Written :=
  quotedFrom c.peek c.rest.length [] c.step

/-! ## Blocks -/

inductive Chomping where
  | clip
  | strip
  | keep
deriving DecidableEq, Repr

def chomping? : Char → Option Chomping
  | '+' => some .keep
  | '-' => some .strip
  | _ => none

/-- A digit that says how far a block is indented; zero says nothing of the kind. -/
def indentation? (c : Char) : Except Fault (Option Nat) :=
  if c = '0' then malformed
  else .ok (if c.isDigit then hexValue? c else none)

/-- Reads the two signs behind the mark of a block, in either order. -/
def blockSigns (c : Cursor) : Except Fault (Chomping × Option Nat × Cursor) := do
  match chomping? c.peek with
  | some chomping =>
    match ← indentation? c.step.peek with
    | some n => return (chomping, some n, c.forward 2)
    | none => return (chomping, none, c.step)
  | none =>
    match ← indentation? c.peek with
    | none => return (.clip, none, c)
    | some n =>
      match chomping? c.step.peek with
      | some chomping => return (chomping, some n, c.forward 2)
      | none => return (.clip, some n, c.step)

/-- Reads what may stand behind something on its line: blanks and a comment. -/
def lineRest (c : Cursor) : Except Fault Cursor :=
  let c := (c.skipWhile (· = ' ')).skipComment
  if isLineEnd c.peek then .ok c.lineBreak.2 else malformed

/-- The empty lines at the start of a block, and the deepest indentation met in them. -/
def blockStart : Nat → Cursor → List Char → Nat → List Char × Nat × Cursor
  | 0, c, breaks, deepest => (breaks, deepest, c)
  | fuel + 1, c, breaks, deepest =>
    if c.peek = ' ' then
      let c := c.step
      blockStart fuel c breaks (max deepest c.column)
    else if isBreak c.peek then
      let (taken, c) := c.lineBreak
      blockStart fuel c (breaks ++ taken) deepest
    else (breaks, deepest, c)

def skipIndentation (indent : Nat) : Nat → Cursor → Cursor
  | 0, c => c
  | fuel + 1, c =>
    if c.column < indent && c.peek = ' ' then skipIndentation indent fuel c.step else c

def blockBreaks (indent : Nat) : Nat → Cursor → List Char → List Char × Cursor
  | 0, c, breaks => (breaks, c)
  | fuel + 1, c, breaks =>
    let c := skipIndentation indent indent c
    if isBreak c.peek then
      let (taken, c) := c.lineBreak
      blockBreaks indent fuel c (breaks ++ taken)
    else (breaks, c)

/-- The end of a block: its last line break and the empty lines behind it. -/
def chomp (chomping : Chomping) (lineBreak breaks : List Char) : List Char :=
  match chomping with
  | .strip => []
  | .clip => lineBreak
  | .keep => lineBreak ++ breaks

def blockLines (fold : Bool) (chomping : Chomping) (indent : Nat) :
    Nat → (text breaks : List Char) → Cursor → Written
  | 0, text, _, c => ⟨text.map .char, c, false⟩
  | fuel + 1, text, breaks, c =>
    let (line, after) := c.takeWhile (!isLineEnd ·)
    let (lineBreak, after) := after.lineBreak
    let text := text ++ breaks ++ line
    let (breaks, next) := blockBreaks indent (after.rest.length + 1) after []
    if next.column = indent && !next.rest.isEmpty then
      let joined :=
        if fold && lineBreak = ['\n'] && !isGap c.peek && !isGap next.peek then
          if breaks.isEmpty then [' '] else []
        else lineBreak
      blockLines fold chomping indent fuel (text ++ joined) breaks next
    else ⟨(text ++ chomp chomping lineBreak breaks).map .char, next, true⟩

/-- Reads a block; the cursor stands at its mark, and the block belongs to what is
indented by `parent`. -/
def block (parent : Int) (c : Cursor) : Except Fault Written := do
  let fold := c.peek = '>'
  let (chomping, increment, c) ← blockSigns c.step
  if !isGapEnd c.peek then malformed
  let c ← lineRest c
  let least := max 1 (parent + 1).toNat
  let (breaks, indent, c) := match increment with
    | none =>
      let (breaks, deepest, c) := blockStart (c.rest.length + 1) c [] 0
      (breaks, max least deepest, c)
    | some n =>
      let indent := least + n - 1
      let (breaks, c) := blockBreaks indent (c.rest.length + 1) c []
      (breaks, indent, c)
  if c.column = indent && !c.rest.isEmpty then
    return blockLines fold chomping indent (c.rest.length + 1) [] breaks c
  else return ⟨(chomp chomping [] breaks).map .char, c, true⟩

end Keeper.Yaml
