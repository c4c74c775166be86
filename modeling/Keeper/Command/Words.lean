import Keeper.Command.Options
import Keeper.Text.Digit

/-!
# Keeper — reading a command line

The words of a command line are sorted before any is taken up: options, which can be cut short as
long as one is meant, and values. A command takes all words after it; what no option takes is left
over.

* **`Word`**, **`classify`** — the words, sorted.
* **`takeOptions`** — the options of a command, and the words left over.
* **`parse`** — a whole command line.
-/

namespace Keeper.Command

def programName : Text := "servicesync"
def commandName : Text := "reconcile"

inductive Usage where
  /-- Help is asked for. -/
  | help
  /-- A command line that cannot be understood, with the name of what does not understand it. -/
  | misunderstood (reader complaint : Text)
deriving DecidableEq, Repr

namespace Usage

def status : Usage → Nat
  | .help => 0
  | .misunderstood _ _ => 2

def complaint? : Usage → Option Text
  | .help => none
  | .misunderstood reader complaint => some (reader ++ ": error: " ++ complaint)

def synopsis : Text :=
  "usage: " ++ programName ++ " " ++ commandName ++ " "
    ++ Text.intercalate " " (Flag.all.map fun f => "[" ++ f.synopsis ++ "]")

end Usage

/-- After this word all words are values; as an argument it is none at all. -/
def stopMark : Text := "--"

inductive Word where
  | value (text : Text)
  /-- An option, by one of its spellings, and what is attached to it. -/
  | option (flag : Flag) (spelling : Text) (attached : Option Text)
  /-- A word that looks like an option. -/
  | unknown (text : Text)
  /-- Two hyphens; all words after them are values. -/
  | stop
deriving DecidableEq, Repr

/-- What a reader understands: its name, and the options it has. -/
structure Reader where
  name : Text
  flags : List Flag

def programReader : Reader := ⟨programName, [.help]⟩

def commandReader : Reader := ⟨programName ++ " " ++ commandName, Flag.all⟩

namespace Reader

def reject {α : Type} (r : Reader) (complaint : Text) : Except Usage α :=
  .error (.misunderstood r.name complaint)

def rejectArgument {α : Type} (r : Reader) (flag : Flag) (c : Complaint) : Except Usage α :=
  r.reject ("argument " ++ flag.name ++ ": " ++ c.message)

def spellings (r : Reader) : List (Text × Flag) :=
  r.flags.flatMap fun f => f.spellings.map fun s => (s, f)

end Reader

def splitAttached (text : Text) : Text × Option Text :=
  let before := text.points.takeWhile (· != .char '=')
  match text.points.drop before.length with
  | _ :: after => (⟨before⟩, some ⟨after⟩)
  | [] => (text, none)

/-- Code points without a line break at their end. -/
def dropBreak : List CodePoint → List CodePoint
  | [] | [.char '\n'] => []
  | p :: rest => p :: dropBreak rest

/-- Whether a word is a negative number: digits, with a point among or before them or
none. One line break may follow. -/
def isNegativeNumber (text : Text) : Bool :=
  let isDigit (p : CodePoint) : Bool := p.satisfies fun c => (Text.digitValue? c).isSome
  match dropBreak text.points with
  | .char '-' :: ps =>
    match ps.dropWhile isDigit with
    | [] => !ps.isEmpty
    | .char '.' :: rest => !rest.isEmpty && rest.all isDigit
    | _ => false
  | _ => false

/-- The options a word that is cut short, or has something attached, can mean. -/
def meanings (r : Reader) (text : Text) : List (Text × Flag × Option Text) :=
  match text.points with
  | .char '-' :: .char '-' :: _ =>
    let (start, attached) := splitAttached text
    (r.spellings.filter fun (s, _) => s.startsWith start).map fun (s, f) => (s, f, attached)
  | .char '-' :: p :: rest =>
    let short : Text := ⟨[.char '-', p]⟩
    (r.spellings.filter (·.1 = short)).map fun (s, f) => (s, f, some ⟨rest⟩)
  | _ => []

def classify (r : Reader) (text : Text) : Except Usage Word :=
  match text.points with
  | .char '-' :: _ :: _ =>
    let (start, attached) := splitAttached text
    match r.spellings.lookup text, r.spellings.lookup start, meanings r text with
    | some flag, _, _ => .ok (.option flag text none)
    | none, some flag, _ => .ok (.option flag start attached)
    | none, none, [(spelling, flag, attached)] => .ok (.option flag spelling attached)
    | none, none, [] =>
      .ok (if isNegativeNumber text || text.contains ' ' then .value text else .unknown text)
    | none, none, several =>
      r.reject ("ambiguous option: " ++ text ++ " could match "
        ++ Text.intercalate ", " (several.map (·.1)))
  | _ => .ok (.value text)

def classifyAll (r : Reader) : List Text → Except Usage (List Word)
  | [] => .ok []
  | text :: rest =>
    if text = stopMark then .ok (.stop :: rest.map .value)
    else do return (← classify r text) :: (← classifyAll r rest)

/-- A word as it was written, as far as it can be left over. -/
def Word.text : Word → Text
  | .value text | .unknown text => text
  | .option _ spelling _ => spelling
  | .stop => stopMark

/-- A switch with something attached: a short one may be followed by other short ones, and
help is the only one. -/
def takeSwitch {α : Type} (r : Reader) (flag : Flag) (spelling attached : Text) :
    Except Usage α :=
  let short := !spelling.startsWith "--"
  let rest : Text :=
    if short then ⟨attached.points.dropWhile (· = .char 'h')⟩ else attached
  if short && !attached.isEmpty && rest.isEmpty then .error .help
  else r.rejectArgument flag (.superfluous rest)

/-- One option more. The mark that stops options is no argument, and an option that is
given it has an empty list for its value. -/
def giveOption (r : Reader) (o : Options) (flag : Flag) (argument : Text) :
    Except Usage Options :=
  if flag = .help then .error .help
  else if argument = stopMark then .ok (o.set flag (.list []))
  else
    match flag.read argument with
    | .ok v => .ok (o.set flag v)
    | .error complaint => r.rejectArgument flag complaint

/-- Takes up the options among some words; the second part is what is left over. -/
def takeOptions (r : Reader) (o : Options) : List Word → Except Usage (Options × List Text)
  | [] => .ok (o, [])
  | .option flag spelling (some attached) :: rest =>
    if flag.isSwitch then takeSwitch r flag spelling attached
    else do takeOptions r (← giveOption r o flag attached) rest
  | .option flag _ none :: .value argument :: rest => do
    if flag.isSwitch then
      let (o, left) ← takeOptions r (← giveOption r o flag "") rest
      return (o, argument :: left)
    else takeOptions r (← giveOption r o flag argument) rest
  | .option flag _ none :: rest => do
    if flag.isSwitch then takeOptions r (← giveOption r o flag "") rest
    else r.rejectArgument flag .missing
  | word :: rest => do
    let (o, left) ← takeOptions r o rest
    return (o, word.text :: left)

/-- The words after the command, and those before it that are left over. -/
def takeCommand (left : List Text) : List (Word × Text) → Except Usage (List Text × List Text)
  | [] => programReader.reject "the following arguments are required: cmd"
  | (.option flag _ none, _) :: _ =>
    if flag.isSwitch then .error .help else programReader.rejectArgument flag .missing
  | (.option flag spelling (some attached), _) :: _ =>
    takeSwitch programReader flag spelling attached
  | (.unknown text, _) :: rest => takeCommand (left ++ [text]) rest
  | [(.stop, _)] => takeCommand left []
  | (word, _) :: rest =>
    if word = .value commandName then .ok (rest.map (·.2), left)
    else
      programReader.reject ("argument cmd: " ++ (Complaint.notAChoice word.text [commandName]).message)

def parse (words : List Text) : Except Usage Options := do
  let (args, before) ← takeCommand [] ((← classifyAll programReader words).zip words)
  let (options, after) ← takeOptions commandReader {} (← classifyAll commandReader args)
  let left := before ++ after
  if left.isEmpty then return options
  programReader.reject ("unrecognized arguments: " ++ Text.intercalate " " left)

end Keeper.Command
