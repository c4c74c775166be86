import Keeper.Text.Basic
import Keeper.Text.Printable

/-!
# Keeper — quoted texts

A quoted text stands between single quotes, or between double quotes when it holds a single quote
and no double one. The backslash, the enclosing quote, the three common line controls and every
character that is not printable are written as escapes.

* **`hexText`** — fixed-width hexadecimal.
* **`quotePoint`** — one code point between the given quotes.
* **`quoted`** — the whole text.
-/

namespace Keeper.Text

/-- A natural in lower-case hexadecimal, padded with zeros to a least width. -/
def hexText (width n : Nat) : List Char :=
  let ds := Nat.toDigits 16 n
  List.replicate (width - ds.length) '0' ++ ds

/-- The escape of a code point that is not printable, as short as its value allows. -/
def hexEscape (n : Nat) : List Char :=
  if n < 0x100 then '\\' :: 'x' :: hexText 2 n
  else if n < 0x10000 then '\\' :: 'u' :: hexText 4 n
  else '\\' :: 'U' :: hexText 8 n

def quoteChar (quote c : Char) : List Char :=
  if c = '\\' || c = quote then ['\\', c]
  else if c = '\n' then ['\\', 'n']
  else if c = '\r' then ['\\', 'r']
  else if c = '\t' then ['\\', 't']
  else if isPrintable c then [c]
  else hexEscape c.toNat

def quotePoint (quote : Char) : CodePoint → List Char
  | .char c => quoteChar quote c
  | p => hexEscape p.value

def quoteFor (t : Text) : Char :=
  if t.contains '\'' && !t.contains '"' then '"' else '\''

def quoted (t : Text) : Text :=
  let q := quoteFor t
  ofChars (q :: (t.points.flatMap (quotePoint q) ++ [q]))

end Keeper.Text
