import Keeper.Text.Basic
import Keeper.Text.Range

/-!
# Keeper — blank characters

White space in the wide sense: the ASCII blanks, the four information separators, the next-line
control, and the space, line and paragraph separators of every script.

* **`isBlank`** — the characters.
* **`trim`** — a text without the blanks at its ends.
-/

namespace Keeper.Text

def blankRanges : List (Nat × Nat) :=
  [(0x9, 0xd), (0x1c, 0x20), (0x85, 0x85), (0xa0, 0xa0), (0x1680, 0x1680), (0x2000, 0x200a),
    (0x2028, 0x2029), (0x202f, 0x202f), (0x205f, 0x205f), (0x3000, 0x3000)]

def isBlank (c : Char) : Bool := inRanges blankRanges c

def dropEndWhile {α : Type} (p : α → Bool) (xs : List α) : List α :=
  (xs.reverse.dropWhile p).reverse

def trim (t : Text) : Text :=
  ⟨dropEndWhile (·.satisfies isBlank) (t.points.dropWhile (·.satisfies isBlank))⟩

end Keeper.Text
