import Keeper.Value.Basic

/-!
# Keeper — the order of a set

A set keeps its members in the slots of a table, and lists them slot by slot. Where a member goes
depends on its mark: the first slot tried is the mark cut down to the size of the table, and while
slots are taken the search moves on, in steps the rest of the mark decides at first. The table is
made once, for all members, and is never more than three fifths full.

The mark of a number is fixed by its value. Other members have marks that differ from run to run, so
a set that holds one keeps the order in which its members came.

* **`Slots.mark?`** — the mark of a number.
* **`Slots.listed`** — the members of a set in its order.
-/

namespace Keeper.Slots

/-- The modulus of marks, a prime. Its binary digits are all ones, so a power of two
depends on its exponent modulo their number only. -/
def modulus : Nat := Nat.pow 2 61 - 1

/-- The mark of an integer; minus one is no mark. -/
def markOfInt (i : Int) : Int :=
  let size : Int := (i.natAbs % modulus : Nat)
  if i < 0 then (if size = 1 then -2 else -size) else size

/-- The power of two that a unit counts as, modulo the modulus of marks. -/
def unitMark : Nat := Nat.pow 2 24

/-- The mark of a number, if a value is one. Numbers that are equal have one mark. -/
def mark? : Scalar → Option Int
  | .bool b => some b.toInt
  | .int i => some (markOfInt i)
  | .float (.finite negative units) =>
    some (markOfInt (Binary64.signedUnits negative (units * unitMark % modulus)))
  | .float (.infinite negative) => some (Binary64.signedUnits negative 314159)
  | _ => none

abbrev Table := Array (Option Scalar)

def isFree (t : Table) (slot : Nat) : Bool := (t.getD slot none).isNone

/-- The first free slot among one and so many after it. -/
def freeFrom? (t : Table) (slot : Nat) : (more : Nat) → Option Nat
  | 0 => if isFree t slot then some slot else none
  | more + 1 => if isFree t slot then some slot else freeFrom? t (slot + 1) more

/-- How many neighbours of a slot are tried with it, where the table has as many. -/
def neighbours : Nat := 9

/-- Searches for a free slot, from a slot on. `rest` is what is left of the mark; when it
is used up, the search comes by every slot. -/
def search? (t : Table) : (fuel rest slot : Nat) → Option Nat
  | 0, _, _ => none
  | fuel + 1, rest, slot =>
    let more := if slot + neighbours < t.size then neighbours else 0
    match freeFrom? t slot more with
    | some free => some free
    | none => search? t fuel (rest / 32) ((slot * 5 + 1 + rest / 32) % t.size)

def put (t : Table) (member : Scalar) (mark : Int) : Table :=
  let bits := (mark % (Nat.pow 2 64 : Nat)).toNat
  match search? t (t.size + 64) bits (bits % t.size) with
  | some slot => t.set! slot (some member)
  | none => t

/-- The least power of two, from one on, that is more than a number. -/
def sizeAbove (n : Nat) : (fuel size : Nat) → Nat
  | 0, size => size
  | fuel + 1, size => if n < size then size else sizeAbove n fuel (size * 2)

def tableSize (count : Nat) : Nat :=
  if count * 5 < 21 then 8 else sizeAbove (count * 2) count 8

/-- The members of a set in its order; no two of them are equal. -/
def listed (members : List Scalar) : List Scalar :=
  match members.mapM mark? with
  | none => members
  | some marks =>
    let empty : Table := Array.replicate (tableSize members.length) none
    let table := (members.zip marks).foldl (fun t (member, mark) => put t member mark) empty
    table.toList.filterMap id

end Keeper.Slots
