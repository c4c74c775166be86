/-!
# Keeper — positions in a YAML text

A cursor is the rest of a text and the line and column at which it begins. Layout depends on
columns, and line breaks come in several forms.

* **`Cursor`** — the position.
* **`Cursor.forward`** — moves on, counting lines and columns.
* **`Cursor.lineBreak`** — takes a line break in its normal form.
-/

namespace Keeper.Yaml

/-- What is seen at the end of a text. -/
def nul : Char := '\x00'

def isBreak (c : Char) : Bool :=
  c = '\n' || c = '\r' || c = '\x85' || c = '\u2028' || c = '\u2029'

def isLineEnd (c : Char) : Bool := c = nul || isBreak c

/-- The end of a word: a blank, or the end of a line or of the text. -/
def isWordEnd (c : Char) : Bool := c = ' ' || c = '\t' || isLineEnd c

/-- A blank that is no tab, or the end of a line or of the text. -/
def isGapEnd (c : Char) : Bool := c = ' ' || isLineEnd c

def isGap (c : Char) : Bool := c = ' ' || c = '\t'

def isPrintable (c : Char) : Bool :=
  let n := c.toNat
  c = '\t' || c = '\n' || c = '\r' || (0x20 ≤ n && n ≤ 0x7E) || n = 0x85 || (0xA0 ≤ n && n ≤ 0xFFFD)
    || 0x10000 ≤ n

structure Cursor where
  rest : List Char
  index : Nat := 0
  line : Nat := 0
  column : Nat := 0
deriving Inhabited

namespace Cursor

def peek (c : Cursor) (k : Nat := 0) : Char := c.rest.getD k nul

/-- Moves past one character. A carriage return before a line feed does not end the line,
and a byte order mark takes no room. -/
def step (c : Cursor) : Cursor :=
  match c.rest with
  | [] => c
  | d :: rest =>
    if isBreak d && !(d = '\r' && rest.head? = some '\n') then
      { rest, index := c.index + 1, line := c.line + 1, column := 0 }
    else
      { rest, index := c.index + 1, line := c.line
        column := if d = '\uFEFF' then c.column else c.column + 1 }

def forward (c : Cursor) : Nat → Cursor
  | 0 => c
  | n + 1 => c.step.forward n

def takeWhile (c : Cursor) (p : Char → Bool) : List Char × Cursor :=
  let taken := c.rest.takeWhile p
  (taken, c.forward taken.length)

def skipWhile (c : Cursor) (p : Char → Bool) : Cursor := (c.takeWhile p).2

/-- Takes a line break, if there is one; all but the two separators become a line feed. -/
def lineBreak (c : Cursor) : List Char × Cursor :=
  match c.rest with
  | '\r' :: '\n' :: _ => (['\n'], c.forward 2)
  | d :: _ =>
    if d = '\u2028' || d = '\u2029' then ([d], c.step)
    else if isBreak d then (['\n'], c.step)
    else ([], c)
  | [] => ([], c)

/-- Whether a text begins with three characters that stand alone. -/
def atMarker (c : Cursor) (m : Char) : Bool :=
  c.peek = m && c.peek 1 = m && c.peek 2 = m && isWordEnd (c.peek 3)

def atSeparator (c : Cursor) : Bool := c.atMarker '-' || c.atMarker '.'

def skipComment (c : Cursor) : Cursor :=
  if c.peek = '#' then c.skipWhile (!isLineEnd ·) else c

end Cursor

end Keeper.Yaml
