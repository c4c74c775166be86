import Keeper.Log.Basic
import Keeper.Value.Conversion

/-!
# Keeper — message templates

A template is text with placeholders: a percent sign, flags, a width, a precision and a letter for
the kind of text the argument becomes. Arguments come in order, or by key from a map.

* **`Feed`** — the arguments still to be used.
* **`Directive`** — a placeholder.
* **`Directive.write`** — what is written for an argument.
* **`format`** — a whole template.
-/

namespace Keeper.Log

inductive Arguments where
  | positional (args : List Argument)
  | keyed (fields : Fields)
deriving Inhabited

/-- A width, and a number that says one, stay below this. -/
def countLimit : Nat := 9223372036854775808

def precisionLimit : Nat := 2147483648

/-- The arguments still to be used, and the map that keys are looked up in. With a map,
unused arguments are no error. -/
structure Feed where
  queue : List Argument
  keyed : Option Fields

namespace Feed

def ofArguments : Arguments → Feed
  | .positional args => ⟨args, none⟩
  | .keyed fields => ⟨[.value (.map fields)], some fields⟩

def next (feed : Feed) : Except Fault (Argument × Feed) :=
  match feed.queue with
  | [] => Value.misused .wrongType
  | a :: rest => .ok (a, { feed with queue := rest })

/-- The next argument, as a whole number that says how much room there is. -/
def nextCount (feed : Feed) : Except Fault (Int × Feed) := do
  match ← feed.next with
  | (.value (.int i), feed) =>
    if i.natAbs < countLimit then return (i, feed) else Value.misused .tooLarge
  | (.value (.bool b), feed) => return (b.toInt, feed)
  | _ => Value.misused .wrongType

/-- The argument at a key, as the only one left. -/
def select (feed : Feed) (key : Text) : Except Fault Feed :=
  match feed.keyed with
  | none => Value.misused .wrongType
  | some fields =>
    match Fields.get? fields key with
    | some v => .ok { feed with queue := [.value v] }
    | none => Value.misused .missingKey

def finish (feed : Feed) : Except Fault Unit :=
  if feed.keyed.isNone && !feed.queue.isEmpty then Value.misused .wrongType else .ok ()

end Feed

structure Directive where
  left : Bool := false
  signed : Bool := false
  spaced : Bool := false
  alternate : Bool := false
  zeros : Bool := false
  width : Nat := 0
  precision : Option Nat := none

namespace Directive

def flag? (d : Directive) : Char → Option Directive
  | '-' => some { d with left := true }
  | '+' => some { d with signed := true }
  | ' ' => some { d with spaced := true }
  | '#' => some { d with alternate := true }
  | '0' => some { d with zeros := true }
  | _ => none

def flags (d : Directive) : List CodePoint → Directive × List CodePoint
  | [] => (d, [])
  | p :: rest =>
    match p.char?.bind d.flag? with
    | some d' => d'.flags rest
    | none => (d, p :: rest)

def pad (d : Directive) (t : Text) : Text :=
  let room := Text.ofChars (List.replicate (d.width - t.length) ' ')
  if d.left then t ++ room else room ++ t

def writeText (d : Directive) (t : Text) : Text :=
  d.pad (match d.precision with
    | some n => t.take n
    | none => t)

/-- A number: sign, base mark and digits. Zeros go between the mark and the digits. -/
def writeNumber (d : Directive) (negative : Bool) (mark digits : List Char) : Text :=
  let sign := if negative then ['-'] else if d.signed then ['+'] else if d.spaced then [' '] else []
  let lead := sign ++ mark
  if d.zeros && !d.left then
    .ofChars (lead ++ Binary64.padZeros (d.width - lead.length) digits)
  else d.pad (.ofChars (lead ++ digits))

def writeInteger (d : Directive) (base : Nat) (mark : List Char) (capital : Bool) (i : Int) :
    Text :=
  let digits := Binary64.padZeros (d.precision.getD 1) (Nat.toDigits base i.natAbs)
  d.writeNumber (i < 0) (if d.alternate then mark else [])
    (if capital then digits.map Char.toUpper else digits)

/-- A binary64 number, its magnitude written by `magnitude` from units and precision. -/
def writeFraction (d : Directive) (magnitude : Nat → Nat → Bool → List Char) (capital : Bool)
    (x : Binary64) : Text :=
  let (negative, digits) := match x with
    | .nan => (false, ['n', 'a', 'n'])
    | .infinite s => (s, ['i', 'n', 'f'])
    | .finite s u => (s, magnitude u (d.precision.getD 6) d.alternate)
  d.writeNumber negative [] (if capital then digits.map Char.toUpper else digits)

def asciiText (t : Text) : Text :=
  ⟨t.points.flatMap fun p => if p.value < 128 then [p] else (Text.hexEscape p.value).map .char⟩

def wholeNumber : Argument → Except Fault Int
  | .value (.float x) => (Value.float x).toInteger
  | .value (.int i) => .ok i
  | .value (.bool b) => .ok b.toInt
  | _ => Value.misused .wrongType

def exactInteger : Argument → Except Fault Int
  | .value (.int i) => .ok i
  | .value (.bool b) => .ok b.toInt
  | _ => Value.misused .wrongType

def fraction : Argument → Except Fault Binary64
  | .value (.text _) | .object _ => Value.misused .wrongType
  | .value v => v.toFraction

/-- The code point an argument is: one by itself, or by its number. -/
def codePoint : Argument → Except Fault CodePoint
  | .value (.text t) =>
    match t.points with
    | [p] => .ok p
    | _ => Value.misused .wrongType
  | a => do
    let i ← exactInteger a
    if 0 ≤ i && i < 0x110000 then return .ofNat i.toNat else Value.misused .tooLarge

/-- What is written for an argument, by the kind of the placeholder; `index` is where the
kind stands. -/
def write (d : Directive) (kind : CodePoint) (index : Nat) (a : Argument) : Except Fault Text :=
  let display := match a with
    | .value v => v.display
    | .object shown => shown
  let literal := match a with
    | .value v => v.literal
    | .object shown => shown
  match kind with
  | .char 's' => .ok (d.writeText display)
  | .char 'r' => .ok (d.writeText literal)
  | .char 'a' => .ok (d.writeText (asciiText literal))
  | .char 'd' | .char 'i' | .char 'u' => do return d.writeInteger 10 [] false (← wholeNumber a)
  | .char 'o' => do return d.writeInteger 8 ['0', 'o'] false (← exactInteger a)
  | .char 'x' => do return d.writeInteger 16 ['0', 'x'] false (← exactInteger a)
  | .char 'X' => do return d.writeInteger 16 ['0', 'X'] true (← exactInteger a)
  | .char 'e' => do return d.writeFraction Binary64.scientificText false (← fraction a)
  | .char 'E' => do return d.writeFraction Binary64.scientificText true (← fraction a)
  | .char 'f' => do return d.writeFraction Binary64.fixedText false (← fraction a)
  | .char 'F' => do return d.writeFraction Binary64.fixedText true (← fraction a)
  | .char 'g' => do return d.writeFraction Binary64.generalText false (← fraction a)
  | .char 'G' => do return d.writeFraction Binary64.generalText true (← fraction a)
  | .char 'c' => do return d.pad (.single (← codePoint a))
  | other => .error (.badValue (.unsupportedFormat other index))

end Directive

/-- The key in parentheses, which may nest, and what follows the closing one. -/
def keyPoints (depth : Nat) : List CodePoint → Option (List CodePoint × List CodePoint)
  | [] => none
  | .char ')' :: rest =>
    match depth with
    | 0 => some ([], rest)
    | depth + 1 => (keyPoints depth rest).map fun (key, after) => (.char ')' :: key, after)
  | .char '(' :: rest =>
    (keyPoints (depth + 1) rest).map fun (key, after) => (.char '(' :: key, after)
  | p :: rest => (keyPoints depth rest).map fun (key, after) => (p :: key, after)

/-- Digits as a number, with what follows; a number beyond the limit is an error. -/
def countDigits (limit : Nat) (tooBig : BadValue) (ps : List CodePoint) :
    Except Fault (Nat × List CodePoint) :=
  let digits := ps.takeWhile (·.satisfies Char.isDigit)
  let n := Nat.ofDigitChars 10 (digits.filterMap CodePoint.char?) 0
  if n ≤ limit then .ok (n, ps.drop digits.length) else .error (.badValue tooBig)

/-- Reads a width: a number, or a star that takes it from the arguments, where a negative
one turns the alignment to the left. -/
def readWidth (d : Directive) (feed : Feed) :
    List CodePoint → Except Fault (Directive × Feed × List CodePoint)
  | .char '*' :: rest => do
    let (n, feed) ← feed.nextCount
    return ({ d with width := n.natAbs, left := d.left || n < 0 }, feed, rest)
  | ps => do
    let (n, rest) ← countDigits (countLimit - 1) .widthTooBig ps
    return ({ d with width := n }, feed, rest)

/-- Reads a precision, if there is one; a negative one counts as zero. -/
def readPrecision (d : Directive) (feed : Feed) :
    List CodePoint → Except Fault (Directive × Feed × List CodePoint)
  | .char '.' :: .char '*' :: rest => do
    let (n, feed) ← feed.nextCount
    if precisionLimit ≤ n.natAbs then Value.misused .tooLarge
    return ({ d with precision := some n.toNat }, feed, rest)
  | .char '.' :: ps => do
    let (n, rest) ← countDigits (precisionLimit - 1) .precisionTooBig ps
    return ({ d with precision := some n }, feed, rest)
  | ps => .ok (d, feed, ps)

def readKey (feed : Feed) : List CodePoint → Except Fault (Feed × List CodePoint)
  | .char '(' :: rest =>
    if feed.keyed.isNone then Value.misused .wrongType
    else
      match keyPoints 0 rest with
      | none => .error (.badValue .incompleteFormatKey)
      | some (key, after) => do return (← feed.select ⟨key⟩, after)
  | ps => .ok (feed, ps)

/-- A size mark, which says nothing. -/
def skipSize : List CodePoint → List CodePoint
  | .char 'h' :: rest | .char 'l' :: rest | .char 'L' :: rest => rest
  | ps => ps

/-- Writes one placeholder, given what comes after its percent sign; `total` is the length
of the whole template. -/
def writePlaceholder (total : Nat) (feed : Feed) (ps : List CodePoint) :
    Except Fault (Text × Feed × List CodePoint) := do
  let (feed, ps) ← readKey feed ps
  let (d, ps) := Directive.flags {} ps
  let (d, feed, ps) ← readWidth d feed ps
  let (d, feed, ps) ← readPrecision d feed ps
  match skipSize ps with
  | [] => throw (.badValue .incompleteFormat)
  | kind :: rest =>
    let (a, feed) ← feed.next
    return (← d.write kind (total - rest.length - 1) a, feed, rest)

/-- Writes a template; `fuel` bounds its length. -/
def formatPoints (total : Nat) : Nat → Feed → List CodePoint → Except Fault (List CodePoint)
  | _, feed, [] => do
    feed.finish
    return []
  | 0, _, _ :: _ => .ok []
  | fuel + 1, feed, .char '%' :: .char '%' :: rest => do
    return .char '%' :: (← formatPoints total fuel feed rest)
  | fuel + 1, feed, .char '%' :: rest => do
    let (written, feed, rest) ← writePlaceholder total feed rest
    return written.points ++ (← formatPoints total fuel feed rest)
  | fuel + 1, feed, p :: rest => do return p :: (← formatPoints total fuel feed rest)

def format (template : Text) (args : Arguments) : Except Fault Text := do
  return ⟨← formatPoints template.length template.length (.ofArguments args) template.points⟩

/-- The message of a template. Without arguments it stands as it is. -/
def message (template : Text) : Arguments → Except Fault Text
  | .positional [] => .ok template
  | .keyed [] => .ok template
  | args => format template args

def Entry.message (e : Entry) : Except Fault Text := Log.message e.template (.positional e.arguments)

end Keeper.Log
