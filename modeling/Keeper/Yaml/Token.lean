import Keeper.Value.Conversion
import Keeper.Yaml.Scalar

/-!
# Keeper — the tokens of a YAML text

Tokens are scalars, marks and brackets, and the beginnings and ends that indentation implies. A key
shows itself as one only when its colon is met: until then its place among the tokens is kept, and the
mark for it, and for the mapping it may begin, is put there afterwards.

* **`Token`** — the tokens.
* **`Lexer`** — the state of reading: position, indentation, brackets, and possible keys.
* **`tokens`** — the tokens of a text.
-/

namespace Keeper.Yaml

/-- A tag as written: a handle, if there is one, and what follows it. -/
structure WrittenTag where
  handle : Option String
  suffix : String
deriving DecidableEq, Repr

inductive Token where
  | version (major : Nat)
  | tagDirective (handle tagPrefix : String)
  | otherDirective
  | documentStart
  | documentEnd
  | streamEnd
  | sequenceStart
  | mappingStart
  | blockEnd
  | bracketOpen
  | bracketClose
  | braceOpen
  | braceClose
  | comma
  | entry
  | key
  | value
  | alias (name : String)
  | anchor (name : String)
  | tag (t : WrittenTag)
  | scalar (text : Text) (plain : Bool)
deriving DecidableEq, Repr, Inhabited

/-- A place where a key may have begun. -/
structure PossibleKey where
  /-- How many tokens stand before it. -/
  place : Nat
  /-- Whether nothing but a key can stand there. -/
  required : Bool
  index : Nat
  line : Nat
  column : Nat

structure Lexer where
  cursor : Cursor
  tokens : Array Token := #[]
  /-- How many brackets are open. -/
  brackets : Nat := 0
  indent : Int := -1
  indents : List Int := []
  /-- Whether a key may begin here. -/
  keyAllowed : Bool := true
  /-- Possible keys, by how many brackets were open. -/
  keys : List (Nat × PossibleKey) := []

namespace Lexer

def inBrackets (l : Lexer) : Bool := l.brackets != 0

def push (l : Lexer) (t : Token) : Lexer := { l with tokens := l.tokens.push t }

def take (l : Lexer) (n : Nat) (t : Token) : Lexer :=
  { l.push t with cursor := l.cursor.forward n }

/-! ### Keys -/

/-- Gives up the possible keys that have fallen behind: a key stands on one line and is
not long. -/
def dropStaleKeys (l : Lexer) : Except Fault Lexer :=
  let stale (k : PossibleKey) : Bool := k.line != l.cursor.line || k.index + 1024 < l.cursor.index
  if l.keys.any fun (_, k) => stale k && k.required then malformed
  else .ok { l with keys := l.keys.filter fun (_, k) => !stale k }

def dropKey (l : Lexer) : Except Fault Lexer :=
  match l.keys.lookup l.brackets with
  | some k =>
    if k.required then malformed
    else .ok { l with keys := l.keys.filter fun (n, _) => n != l.brackets }
  | none => .ok l

def saveKey (l : Lexer) : Except Fault Lexer :=
  if l.keyAllowed then do
    let l ← l.dropKey
    let c := l.cursor
    let k : PossibleKey := {
      place := l.tokens.size
      required := !l.inBrackets && l.indent = c.column
      index := c.index, line := c.line, column := c.column }
    return { l with keys := (l.brackets, k) :: l.keys }
  else .ok l

/-! ### Indentation -/

/-- The blocks to be closed before a column. -/
def unwindFrom (column : Int) : Int → List Int → Array Token → Int × List Int × Array Token
  | indent, [], ts => (indent, [], ts)
  | indent, outer :: rest, ts =>
    if column < indent then unwindFrom column outer rest (ts.push .blockEnd)
    else (indent, outer :: rest, ts)

/-- Closes the blocks that are indented deeper than a column. -/
def unwind (l : Lexer) (column : Int) : Lexer :=
  if l.inBrackets then l
  else
    let (indent, indents, tokens) := unwindFrom column l.indent l.indents l.tokens
    { l with indent, indents, tokens }

/-- Begins a block at a column if it is indented deeper; its token goes to a place among
the others. -/
def openBlock (l : Lexer) (column : Nat) (t : Token) (place : Nat) : Lexer :=
  if l.indent < column then
    { l with
      indents := l.indent :: l.indents
      indent := column
      tokens := if h : place ≤ l.tokens.size then l.tokens.insertIdx place t h else l.tokens }
  else l

/-! ### Directives, anchors and tags -/

def isNameChar (c : Char) : Bool := c.isAlphanum || c = '-' || c = '_'

def readName (c : Cursor) : Except Fault (String × Cursor) :=
  let (name, c) := c.takeWhile isNameChar
  if name.isEmpty then malformed else .ok (String.ofList name, c)

def readNumber (c : Cursor) : Except Fault (Nat × Cursor) :=
  let (digits, c) := c.takeWhile Char.isDigit
  if digits.isEmpty then malformed
  else do return ((← Value.integerOfText (.ofChars digits)).natAbs, c)

def isTagChar (c : Char) : Bool :=
  c.isAlphanum || "-;/?:@&=+$,_.!~*'()[]".toList.contains c

def escapedBytes : Nat → Cursor → List UInt8 → Except Fault (List UInt8 × Cursor)
  | 0, c, bytes => .ok (bytes, c)
  | fuel + 1, c, bytes =>
    if c.peek = '%' then
      match hexValue? (c.peek 1), hexValue? (c.peek 2) with
      | some a, some b => escapedBytes fuel (c.forward 3) (bytes ++ [.ofNat (a * 16 + b)])
      | _, _ => malformed
    else .ok (bytes, c)

def tagChars : Nat → Cursor → List Char → Except Fault (List Char × Cursor)
  | 0, c, text => .ok (text, c)
  | fuel + 1, c, text =>
    if c.peek = '%' then do
      let (bytes, c) ← escapedBytes c.rest.length c []
      match Text.Utf8.decode bytes with
      | .ok cs => tagChars fuel c (text ++ cs)
      | .error _ => malformed
    else if isTagChar c.peek then tagChars fuel c.step (text ++ [c.peek])
    else .ok (text, c)

/-- The part of a tag behind its handle; it must not be empty. -/
def readTagRest (c : Cursor) : Except Fault (String × Cursor) := do
  let (text, rest) ← tagChars (c.rest.length + 1) c []
  if rest.index = c.index then malformed else return (String.ofList text, rest)

/-- A handle: an exclamation mark, or a name between two. -/
def readHandle (c : Cursor) : Except Fault (String × Cursor) :=
  if c.peek ≠ '!' then malformed
  else if c.peek 1 = ' ' then .ok ("!", c.step)
  else
    let (name, after) := c.step.takeWhile isNameChar
    if after.peek = '!' then .ok ("!" ++ String.ofList name ++ "!", after.step) else malformed

/-- A directive; the cursor stands behind its percent sign. -/
def readDirective (c : Cursor) : Except Fault (Token × Cursor) := do
  let (name, c) ← readName c
  if !isGapEnd c.peek then malformed
  let (t, c) ← match name with
    | "YAML" => do
      let (major, c) ← readNumber (c.skipWhile (· = ' '))
      if c.peek ≠ '.' then malformed
      let (_, c) ← readNumber c.step
      if !isGapEnd c.peek then malformed
      pure (Token.version major, c)
    | "TAG" => do
      let (handle, c) ← readHandle (c.skipWhile (· = ' '))
      if c.peek ≠ ' ' then malformed
      let (tagPrefix, c) ← readTagRest (c.skipWhile (· = ' '))
      if !isGapEnd c.peek then malformed
      pure (Token.tagDirective handle tagPrefix, c)
    | _ => pure (Token.otherDirective, c.skipWhile (!isLineEnd ·))
  return (t, ← lineRest c)

/-- The name of an anchor or alias; the cursor stands behind its mark. -/
def readAnchor (c : Cursor) : Except Fault (String × Cursor) := do
  let (name, c) ← readName c
  if isWordEnd c.peek || "?:,]%@\x7d\x60".toList.contains c.peek then return (name, c) else malformed

def hasHandle : List Char → Bool
  | [] => false
  | c :: rest => if isGapEnd c then false else c = '!' || hasHandle rest

/-- A tag; the cursor stands at its exclamation mark. -/
def readTag (c : Cursor) : Except Fault (WrittenTag × Cursor) := do
  let d := c.peek 1
  let (tag, c) ← if d = '<' then do
      let (suffix, c) ← readTagRest (c.forward 2)
      if c.peek ≠ '>' then malformed
      pure (WrittenTag.mk none suffix, c.step)
    else if isWordEnd d then
      pure (WrittenTag.mk none "!", c.step)
    else do
      let (handle, c) ← if hasHandle c.step.rest then readHandle c else pure ("!", c.step)
      let (suffix, c) ← readTagRest c
      pure (WrittenTag.mk (some handle) suffix, c)
  if isGapEnd c.peek then return (tag, c) else malformed

/-! ### Tokens -/

/-- Skips blanks, comments and line breaks up to the next token. -/
def skipToToken : Nat → Lexer → Lexer
  | 0, l => l
  | fuel + 1, l =>
    let c := (l.cursor.skipWhile (· = ' ')).skipComment
    if isBreak c.peek then
      skipToToken fuel { l with
        cursor := c.lineBreak.2
        keyAllowed := l.keyAllowed || !l.inBrackets }
    else { l with cursor := c }

/-- A byte order mark at the start of a text says nothing. -/
def skipMark (l : Lexer) : Lexer :=
  if l.cursor.index = 0 && l.cursor.peek = '\uFEFF' then { l with cursor := l.cursor.step } else l

/-- Closes all blocks before something that belongs to no document. -/
def closeDocument (l : Lexer) : Except Fault Lexer := do
  let l ← (l.unwind (-1)).dropKey
  return { l with keyAllowed := false }

/-- A scalar, an anchor or the like, where a key may begin and after which none may. -/
def mayBeKey (l : Lexer) (read : Lexer → Except Fault Lexer) : Except Fault Lexer := do
  let l ← l.saveKey
  read { l with keyAllowed := false }

def openBracket (l : Lexer) (t : Token) : Except Fault Lexer := do
  let l ← l.saveKey
  return ({ l with brackets := l.brackets + 1, keyAllowed := true }).take 1 t

def closeBracket (l : Lexer) (t : Token) : Except Fault Lexer := do
  let l ← l.dropKey
  if l.brackets = 0 then malformed
  return ({ l with brackets := l.brackets - 1, keyAllowed := false }).take 1 t

def readComma (l : Lexer) : Except Fault Lexer := do
  let l ← ({ l with keyAllowed := true }).dropKey
  return l.take 1 .comma

def readEntry (l : Lexer) : Except Fault Lexer := do
  if !l.inBrackets && !l.keyAllowed then malformed
  let l := if l.inBrackets then l else l.openBlock l.cursor.column .sequenceStart l.tokens.size
  let l ← ({ l with keyAllowed := true }).dropKey
  return l.take 1 .entry

def readKey (l : Lexer) : Except Fault Lexer := do
  if !l.inBrackets && !l.keyAllowed then malformed
  let l := if l.inBrackets then l else l.openBlock l.cursor.column .mappingStart l.tokens.size
  let l ← ({ l with keyAllowed := !l.inBrackets }).dropKey
  return l.take 1 .key

/-- A colon that ends a key. What stood before it becomes the key, if that was
possible. -/
def readValue (l : Lexer) : Except Fault Lexer := do
  match l.keys.lookup l.brackets with
  | some k =>
    let l := { l with
      keys := l.keys.filter fun (n, _) => n != l.brackets
      tokens := if h : k.place ≤ l.tokens.size then l.tokens.insertIdx k.place .key h else l.tokens }
    let l := if l.inBrackets then l else l.openBlock k.column .mappingStart k.place
    return ({ l with keyAllowed := false }).take 1 .value
  | none =>
    if !l.inBrackets && !l.keyAllowed then malformed
    let l := if l.inBrackets then l else l.openBlock l.cursor.column .mappingStart l.tokens.size
    let l ← ({ l with keyAllowed := !l.inBrackets }).dropKey
    return l.take 1 .value

def takeScalar (l : Lexer) (w : Written) (plain : Bool) : Lexer :=
  { l.push (.scalar ⟨w.text⟩ plain) with cursor := w.cursor }

def atPlain (l : Lexer) : Bool :=
  let c := l.cursor.peek
  let marks := "-?:,[]\x7b\x7d#&*!|>'\"%@\x60".toList
  !(isWordEnd c || marks.contains c)
    || (!isWordEnd (l.cursor.peek 1) && (c = '-' || (!l.inBrackets && (c = '?' || c = ':'))))

def readDirectiveLine (l : Lexer) : Except Fault Lexer := do
  let l ← l.closeDocument
  let (t, c) ← readDirective l.cursor.step
  return { l.push t with cursor := c }

/-- Reads the next token, or what several marks stand for; the end of the text is not
reached. -/
def readToken (l : Lexer) : Except Fault Lexer := do
  let c := l.cursor
  let standsAlone := l.inBrackets || isWordEnd (c.peek 1)
  let atStart := c.column = 0
  match c.peek with
  | '%' => if atStart then l.readDirectiveLine else malformed
  | '[' => l.openBracket .bracketOpen
  | ']' => l.closeBracket .bracketClose
  | '\x7b' => l.openBracket .braceOpen
  | '\x7d' => l.closeBracket .braceClose
  | ',' => l.readComma
  | '*' => l.mayBeKey fun l => do
      let (name, c) ← readAnchor c.step
      return { l.push (.alias name) with cursor := c }
  | '&' => l.mayBeKey fun l => do
      let (name, c) ← readAnchor c.step
      return { l.push (.anchor name) with cursor := c }
  | '!' => l.mayBeKey fun l => do
      let (t, c) ← readTag c
      return { l.push (.tag t) with cursor := c }
  | '\'' | '"' => l.mayBeKey fun l => do return l.takeScalar (← quotedScalar c) false
  | d =>
    if atStart && c.atMarker '-' then return (← l.closeDocument).take 3 .documentStart
    else if atStart && c.atMarker '.' then return (← l.closeDocument).take 3 .documentEnd
    else if d = '-' && isWordEnd (c.peek 1) then l.readEntry
    else if d = '?' && standsAlone then l.readKey
    else if d = ':' && standsAlone then l.readValue
    else if (d = '|' || d = '>') && !l.inBrackets then do
      let l ← ({ l with keyAllowed := true }).dropKey
      return l.takeScalar (← block l.indent c) false
    else if l.atPlain then l.mayBeKey fun l =>
      let w := plain l.inBrackets (l.indent + 1) c
      return { l.takeScalar w true with keyAllowed := w.broken }
    else malformed

/-- How many tokens can be taken before more of the text must be read: those before the
first place where a key may have begun. -/
def settled (l : Lexer) : Nat := (l.keys.map (·.2.place)).foldl min l.tokens.size

/-- Reads what stands between two tokens and the token behind it; tells whether the text
has come to its end. -/
def advance (l : Lexer) : Except Fault (Lexer × Bool) := do
  let l := skipToToken (l.cursor.rest.length + 1) l.skipMark
  let l := (← l.dropStaleKeys).unwind l.cursor.column
  if l.cursor.rest.isEmpty then return ((← l.closeDocument).push .streamEnd, true)
  else return (← l.readToken, false)

end Lexer

/-- The characters of a text, and what stops whoever reads them up to a certain one. -/
structure Supply where
  chars : List Char
  stop : Option (Nat × Fault) := none

/-- The tokens of a text. A text with a flaw has tokens as well: those that can be taken
before the flaw is met. -/
structure Tokens where
  before : List Token
  flaw : Option Fault := none

namespace Lexer

/-- What has been read when a flaw is met. -/
def stopped (l : Lexer) (flaw : Fault) : Tokens := ⟨l.tokens.toList.take l.settled, some flaw⟩

/-- Reads all tokens; `fuel` bounds their number. -/
def run (stop : Option (Nat × Fault)) : Nat → Lexer → Tokens
  | 0, l => l.stopped .document
  | fuel + 1, l =>
    match l.dropStaleKeys with
    | .error flaw => l.stopped flaw
    | .ok l =>
      match l.advance with
      | .error flaw => l.stopped flaw
      | .ok (next, done) =>
        match stop.filter fun (index, _) => index ≤ next.cursor.index + 1 with
        | some (_, flaw) => l.stopped flaw
        | none => if done then ⟨next.tokens.toList, none⟩ else run stop fuel next

end Lexer

def tokens (s : Supply) : Tokens :=
  Lexer.run s.stop (s.chars.length + 2) { cursor := { rest := s.chars } }

/-- How many characters are looked at before any is read, and how many at a time later. -/
def firstBlock : Nat := 8192
def laterBlock : Nat := 4096

/-- The start of the block of characters in which a character lies. -/
def blockStartOf (index : Nat) : Nat :=
  if index < firstBlock then 0
  else firstBlock + (index - firstBlock) / laterBlock * laterBlock

/-- The supply of some characters, at the end of which there may be a flaw. A character
that no text may hold is found out with the block it lies in. -/
def Supply.ofChars (cs : List Char) (flaw : Option Fault := none) : Supply :=
  let clean := cs.takeWhile isPrintable
  if clean.length < cs.length then ⟨cs, some (blockStartOf clean.length, .document)⟩
  else ⟨cs, flaw.map fun f => (blockStartOf cs.length, f)⟩

end Keeper.Yaml
