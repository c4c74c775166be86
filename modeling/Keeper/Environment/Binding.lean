import Keeper.Text.Blank

/-!
# Keeper — the statements of an environment file

An environment file is a list of statements, mostly one a line: a name, and what it is bound to.
Blanks and a comment may stand around them, the word `export` before a name, quotes around a value.
A quoted value may go on over several lines.

* **`Statement`** — nothing, a binding, or a line that cannot be read.
* **`statement`** — the first statement of a text.
* **`statements`** — all of them, each with the line it begins on.
-/

namespace Keeper.Environment

open Text (isBlank)

/-- One statement; a name without an equals sign has no value. -/
inductive Statement where
  | nothing
  | binding (name : Text) (value : Option Text)
  | unreadable
deriving DecidableEq, Repr

/-- What has been read and what is left, or what was left when reading stopped. -/
abbrev Reading (α : Type) := Except (List Char) (α × List Char)

def isInlineBlank (c : Char) : Bool := isBlank c && c != '\n' && c != '\r'

def isLineEnd (c : Char) : Bool := c = '\n' || c = '\r'

def skipInline (cs : List Char) : List Char := cs.dropWhile isInlineBlank

def skipExport (cs : List Char) : List Char :=
  let word := ['e', 'x', 'p', 'o', 'r', 't']
  let rest := cs.drop word.length
  if cs.take word.length = word && (rest.head?.any isInlineBlank) then skipInline rest else cs

/-- A quoted text, without its first quote. A quote after a backslash does not end it,
unless there is no other that does. -/
def quotedText? (quote : Char) : List Char → Option (List Char × List Char)
  | [] => none
  | '\\' :: d :: rest =>
    if d = quote then
      match quotedText? quote rest with
      | some (text, left) => some ('\\' :: d :: text, left)
      | none => some (['\\'], rest)
    else (quotedText? quote (d :: rest)).map fun (text, left) => ('\\' :: text, left)
  | c :: cs =>
    if c = quote then some ([], cs)
    else (quotedText? quote cs).map fun (text, left) => (c :: text, left)

/-- What an escape stands for, in a text between single quotes. -/
def singleEscape? : Char → Option Char
  | '\\' => some '\\'
  | '\'' => some '\''
  | _ => none

/-- What an escape stands for, in a text between double quotes. -/
def doubleEscape? : Char → Option Char
  | '\\' => some '\\'
  | '\'' => some '\''
  | '"' => some '"'
  | 'a' => some '\x07'
  | 'b' => some '\x08'
  | 'f' => some '\x0c'
  | 'n' => some '\n'
  | 'r' => some '\r'
  | 't' => some '\t'
  | 'v' => some '\x0b'
  | _ => none

/-- A text with its escapes replaced; a backslash that begins none stays. -/
def unescape (escape? : Char → Option Char) : List Char → List Char
  | '\\' :: c :: cs =>
    match escape? c with
    | some d => d :: unescape escape? cs
    | none => '\\' :: unescape escape? (c :: cs)
  | c :: cs => c :: unescape escape? cs
  | [] => []

/-- The part of a line before a comment, which a blank must precede. -/
def beforeComment : List Char → List Char
  | c :: '#' :: cs => if isBlank c then [] else c :: beforeComment ('#' :: cs)
  | c :: cs => c :: beforeComment cs
  | [] => []

/-- The name of a statement; none where a comment stands. -/
def readName : List Char → Reading (Option Text)
  | '#' :: cs => .ok (none, '#' :: cs)
  | '\'' :: cs =>
    let name := cs.takeWhile (· != '\'')
    match cs.drop name.length with
    | _ :: rest => if name.isEmpty then .error ('\'' :: cs) else .ok (some (.ofChars name), rest)
    | [] => .error ('\'' :: cs)
  | cs =>
    let name := cs.takeWhile fun c => !(c = '=' || c = '#' || isBlank c)
    if name.isEmpty then .error cs else .ok (some (.ofChars name), cs.drop name.length)

def readValue : List Char → Reading Text
  | '\'' :: cs =>
    match quotedText? '\'' cs with
    | some (text, rest) => .ok (.ofChars (unescape singleEscape? text), rest)
    | none => .error ('\'' :: cs)
  | '"' :: cs =>
    match quotedText? '"' cs with
    | some (text, rest) => .ok (.ofChars (unescape doubleEscape? text), rest)
    | none => .error ('"' :: cs)
  | cs =>
    let line := cs.takeWhile (!isLineEnd ·)
    .ok (.ofChars (Text.dropEndWhile isBlank (beforeComment line)), cs.drop line.length)

/-- The end of a statement: a comment, blanks, and the end of the line. -/
def readEnd (cs : List Char) : Reading Unit :=
  let rest := match skipInline cs with
    | '#' :: rest => rest.dropWhile (!isLineEnd ·)
    | _ => cs
  match skipInline rest with
  | '\r' :: '\n' :: rest | '\n' :: rest | '\r' :: rest => .ok ((), rest)
  | [] => .ok ((), [])
  | _ => .error rest

def readStatement (cs : List Char) : Except (List Char) (Statement × List Char) := do
  match cs.dropWhile isBlank with
  | [] => return (.nothing, [])
  | cs =>
    let (name, rest) ← readName (skipExport cs)
    let rest := skipInline rest
    let (value, rest) ← match rest with
      | '=' :: rest => do
        let (value, rest) ← readValue (skipInline rest)
        .ok (some value, rest)
      | rest => .ok (none, rest)
    let ((), rest) ← readEnd rest
    return ((match name with
      | some name => .binding name value
      | none => .nothing), rest)

def afterLine (cs : List Char) : List Char :=
  match cs.dropWhile (!isLineEnd ·) with
  | _ :: rest => rest
  | [] => []

def statement (cs : List Char) : Statement × List Char :=
  match readStatement cs with
  | .ok (s, rest) => (s, rest)
  | .error rest => (.unreadable, afterLine rest)

/-- The statements of a text that begins on the given line; `fuel` bounds their number. -/
def statementsFrom (line : Nat) : Nat → List Char → List (Nat × Statement)
  | 0, _ | _ + 1, [] => []
  | fuel + 1, c :: cs =>
    let (s, rest) := statement (c :: cs)
    let taken := (c :: cs).take (cs.length + 1 - rest.length)
    (line, s) :: statementsFrom (line + taken.count '\n') fuel rest

/-- The statements of a text, each with the line it begins on. -/
def statements (text : List Char) : List (Nat × Statement) :=
  statementsFrom 1 text.length text

end Keeper.Environment
