import Keeper.Number.Binary64
import Keeper.Text.Basic

/-!
# Keeper — structured values

The values manifests and configurations are made of: scalars, lists, and maps in insertion order.

* **`Scalar`** — what a leaf or a map key can be.
* **`Value`** — the tree; a map is `Fields`, entries in the order they were first written. Beside
  lists and maps there are rows of a fixed length, and sets of scalars.
* **`Scalar.eqv`**, **`Value.eqv`** — equality of values: numbers are equal when they name the same
  number whatever their kind (`true`, `1` and `1.0`), maps when they agree key by key in any order.
* **`Fields.get?`**, **`Fields.set`**, **`Fields.erase`** — a map's operations; a key is written in
  place when an equal one is there, else at the end.
-/

namespace Keeper

structure Date where
  year : Nat
  month : Nat
  day : Nat
deriving DecidableEq, Repr

/-- A time of day, with its distance from universal time in seconds when it is known. -/
structure TimeOfDay where
  hour : Nat
  minute : Nat
  second : Nat
  micros : Nat
  offset : Option Int
deriving DecidableEq, Repr

/-- A value without parts. -/
inductive Scalar where
  | null
  | bool (b : Bool)
  | int (i : Int)
  | float (x : Binary64)
  | text (t : Text)
  | date (d : Date)
  | moment (d : Date) (t : TimeOfDay)
  | bytes (bs : List UInt8)
deriving DecidableEq, Repr, Inhabited

namespace Scalar

/-- The place of a scalar that is a number, on the line all numbers share. -/
def place? : Scalar → Option Binary64.Place
  | .bool b => some (.ofInt b.toInt)
  | .int i => some (.ofInt i)
  | .float x => x.place?
  | _ => none

/-- Equality of scalars: by place among numbers, and never between numbers and anything
else. -/
def eqv (a b : Scalar) : Bool :=
  match a.place?, b.place? with
  | some p, some q => p = q
  | none, none =>
    match a, b with
    | .float _, _ | _, .float _ => false
    | _, _ => a = b
  | _, _ => false

/-- Whether a scalar counts as true: null, false, zero and the empty text do not. -/
def truthy : Scalar → Bool
  | .null => false
  | .bool b => b
  | .int i => i != 0
  | .float x => x.place? != some (.at 0)
  | .text t => !t.isEmpty
  | .date _ => true
  | .moment _ _ => true
  | .bytes bs => !bs.isEmpty

/-- Whether two scalars are one key of a map: equal ones are, and each is the same key as
itself. -/
def same (a b : Scalar) : Bool := a.eqv b || a = b

instance : Coe Text Scalar := ⟨.text⟩

end Scalar

inductive Value where
  | scalar (s : Scalar)
  | list (items : List Value)
  /-- A row that cannot be changed. -/
  | tuple (items : List Value)
  /-- Scalars of which each is there once. -/
  | set (members : List Scalar)
  | map (entries : List (Scalar × Value))
  /-- A value that has itself among its parts. -/
  | endless
deriving Repr, Inhabited

/-- The entries of a map, in the order in which their keys were first written. -/
abbrev Fields := List (Scalar × Value)

namespace Value

@[match_pattern] abbrev null : Value := .scalar .null
@[match_pattern] abbrev bool (b : Bool) : Value := .scalar (.bool b)
@[match_pattern] abbrev int (i : Int) : Value := .scalar (.int i)
@[match_pattern] abbrev float (x : Binary64) : Value := .scalar (.float x)
@[match_pattern] abbrev text (t : Text) : Value := .scalar (.text t)

instance : Coe Text Value := ⟨.text⟩

mutual

def decEq : (a b : Value) → Decidable (a = b)
  | .scalar a, .scalar b =>
    if h : a = b then isTrue (by rw [h]) else isFalse fun e => h (by injection e)
  | .list xs, .list ys =>
    match decEqList xs ys with
    | isTrue h => isTrue (by rw [h])
    | isFalse h => isFalse fun e => h (by injection e)
  | .tuple xs, .tuple ys =>
    match decEqList xs ys with
    | isTrue h => isTrue (by rw [h])
    | isFalse h => isFalse fun e => h (by injection e)
  | .set a, .set b =>
    if h : a = b then isTrue (by rw [h]) else isFalse fun e => h (by injection e)
  | .map fs, .map gs =>
    match decEqEntries fs gs with
    | isTrue h => isTrue (by rw [h])
    | isFalse h => isFalse fun e => h (by injection e)
  | .endless, .endless => isTrue rfl
  | .scalar _, .list _ | .scalar _, .tuple _ | .scalar _, .set _ | .scalar _, .map _
  | .scalar _, .endless => isFalse nofun
  | .list _, .scalar _ | .list _, .tuple _ | .list _, .set _ | .list _, .map _
  | .list _, .endless => isFalse nofun
  | .tuple _, .scalar _ | .tuple _, .list _ | .tuple _, .set _ | .tuple _, .map _
  | .tuple _, .endless => isFalse nofun
  | .set _, .scalar _ | .set _, .list _ | .set _, .tuple _ | .set _, .map _
  | .set _, .endless => isFalse nofun
  | .map _, .scalar _ | .map _, .list _ | .map _, .tuple _ | .map _, .set _
  | .map _, .endless => isFalse nofun
  | .endless, .scalar _ | .endless, .list _ | .endless, .tuple _ | .endless, .set _
  | .endless, .map _ => isFalse nofun

def decEqList : (xs ys : List Value) → Decidable (xs = ys)
  | [], [] => isTrue rfl
  | [], _ :: _ => isFalse nofun
  | _ :: _, [] => isFalse nofun
  | x :: xs, y :: ys =>
    match decEq x y with
    | isFalse h => isFalse fun e => h (by injection e)
    | isTrue h =>
      match decEqList xs ys with
      | isTrue g => isTrue (by rw [h, g])
      | isFalse g => isFalse fun e => g (by injection e)

def decEqEntries : (fs gs : List (Scalar × Value)) → Decidable (fs = gs)
  | [], [] => isTrue rfl
  | [], _ :: _ => isFalse nofun
  | _ :: _, [] => isFalse nofun
  | (k, v) :: fs, (l, w) :: gs =>
    if hk : k = l then
      match decEq v w with
      | isFalse h => isFalse fun e => h (by injection e with e _; injection e)
      | isTrue h =>
        match decEqEntries fs gs with
        | isTrue g => isTrue (by rw [hk, h, g])
        | isFalse g => isFalse fun e => g (by injection e)
    else isFalse fun e => hk (by injection e with e _; injection e)

end

instance : DecidableEq Value := decEq

end Value

namespace Fields

def get? : Fields → Scalar → Option Value
  | [], _ => none
  | (k, v) :: rest, key => if k.same key then some v else get? rest key

/-- Writes a key: in place if it is there, else at the end. -/
def set : Fields → Scalar → Value → Fields
  | [], key, value => [(key, value)]
  | (k, v) :: rest, key, value =>
    if k.same key then (k, value) :: rest else (k, v) :: set rest key value

def erase : Fields → Scalar → Fields
  | [], _ => []
  | (k, v) :: rest, key => if k.same key then rest else (k, v) :: erase rest key

/-- Writes entries one after the other. -/
def setAll (fields : Fields) (entries : List (Scalar × Value)) : Fields :=
  entries.foldl (fun fs (k, v) => set fs k v) fields

/-- A map from entries, of which a later one wins over an earlier one with the same
key. -/
def ofEntries (entries : List (Scalar × Value)) : Fields := setAll [] entries

def getD (fields : Fields) (key : Scalar) (default : Value) : Value :=
  (get? fields key).getD default

def has (fields : Fields) (key : Scalar) : Bool := (get? fields key).isSome

end Fields

namespace Value

mutual

/-- Equality of values: scalars by `Scalar.eqv`, lists item by item, sets and maps by what
is in them. -/
def eqv : Value → Value → Bool
  | .scalar a, .scalar b => a.eqv b
  | .list xs, .list ys => eqvList xs ys
  | .tuple xs, .tuple ys => eqvList xs ys
  | .set ms, .set ns => ms.length == ns.length && ms.all fun m => ns.any m.same
  | .map fs, .map gs => fs.length == gs.length && eqvWithin fs gs
  | _, _ => false

def eqvList : List Value → List Value → Bool
  | [], [] => true
  | x :: xs, y :: ys => eqv x y && eqvList xs ys
  | _, _ => false

/-- Every entry of the first map has an equal one in the second. -/
def eqvWithin : List (Scalar × Value) → Fields → Bool
  | [], _ => true
  | (k, v) :: rest, gs =>
    (match Fields.get? gs k with
      | some w => eqv v w
      | none => false) && eqvWithin rest gs

end

/-- Whether a value counts as true: empty ones do not. -/
def truthy : Value → Bool
  | .scalar s => s.truthy
  | .list xs | .tuple xs => !xs.isEmpty
  | .set ms => !ms.isEmpty
  | .map fs => !fs.isEmpty
  | .endless => true

/-- The value itself if it counts as true, else another. -/
def orElse (v default : Value) : Value := if v.truthy then v else default

def isNull : Value → Bool
  | .null => true
  | _ => false

/-- A map in which a key is absent rather than null. -/
def ofOption : Option Fields → Value
  | some fs => .map fs
  | none => .null

end Value

namespace Fields

def eqv (fs gs : Fields) : Bool := Value.eqv (.map fs) (.map gs)

end Fields

end Keeper
