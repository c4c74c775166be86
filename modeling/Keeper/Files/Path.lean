import Keeper.Text.Basic

/-!
# Keeper — paths

A path is the list of names on the way from the top of a file tree to a place in it. Written paths
separate names by slashes; one that begins with a slash starts at the top, any other at the working
directory.

* **`names`** — the names in a written path, empty ones included.
* **`Path.step`** — one name: nothing and a dot stay, two dots go up.
* **`Path.ofText`** — the place a written path names, whatever stands there.
-/

namespace Keeper.Files

/-- The names from the top of a file tree to a place in it. -/
abbrev Path := List Text

def nameLimit : Nat := 255

def pathLimit : Nat := 4095

/-- Splits a list at an item; there is one more piece than there are such items. -/
def pieces {α : Type} [DecidableEq α] (separator : α) : List α → List (List α)
  | [] => [[]]
  | c :: cs =>
    if c = separator then [] :: pieces separator cs
    else
      match pieces separator cs with
      | piece :: rest => (c :: piece) :: rest
      | [] => [[c]]

def names (s : Text) : List Text := (pieces (CodePoint.char '/') s.points).map Text.mk

/-- Where a written path starts. -/
def start (here : Path) (s : Text) : Path := if s.startsWith "/" then [] else here

namespace Path

def step (p : Path) (name : Text) : Path :=
  if name.isEmpty || name = "." then p
  else if name = ".." then p.dropLast
  else p ++ [name]

def ofText (here : Path) (s : Text) : Path := (names s).foldl step (start here s)

def text (p : Path) : Text := "/" ++ Text.intercalate "/" p

/-- A place as it is written from a directory above it. -/
def below? (top p : Path) : Option Text :=
  if p.take top.length = top then some (Text.intercalate "/" (p.drop top.length)) else none

/-- A directory and all above it, nearest first. -/
def upward (p : Path) : List Path :=
  (List.range (p.length + 1)).map fun n => p.take (p.length - n)

end Path

/-- Joins two written paths; the second alone if it starts at the top. -/
def join (a b : Text) : Text :=
  if b.startsWith "/" then b
  else if a.isEmpty || a.endsWith "/" then a ++ b
  else a ++ "/" ++ b

end Keeper.Files
