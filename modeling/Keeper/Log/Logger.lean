import Keeper.Files.Path
import Keeper.Value.Basic

/-!
# Keeper — loggers

Loggers have names in which dots separate the parts; what is logged on one also reaches the handlers
of the loggers above it, up to the root. A new logger goes below the nearest one whose name encloses
its own, and above those that wait for its name.

* **`Sink`**, **`Filter`**, **`Handler`** — where lines go, what is done to them, and which of them.
* **`Logger`** — a threshold of its own, if any, handlers, and the logger above it.
* **`enclosing`** — the names that enclose a name, nearest first.
* **`Loggers`** — the loggers there are. `ensure` makes sure that there is one of a name;
  `handlersOf` and `thresholdOf` look along the loggers above one.
-/

namespace Keeper.Log

inductive Sink where
  | console
  /-- A file that a new one takes the place of every day. -/
  | rolling (path : Files.Path)
  | file (path : Files.Path)
deriving DecidableEq, Repr

namespace Sink

def isConsole : Sink → Bool
  | .console => true
  | _ => false

def path? : Sink → Option Files.Path
  | .console => none
  | .rolling path | .file path => some path

end Sink

/-- What a handler does to a record before it writes it. -/
inductive Filter where
  /-- A record of which it is not known where it comes from is given hyphens. -/
  | contextDefaults
  /-- Secrets are taken out. -/
  | redaction
deriving DecidableEq, Repr

/-- A sink, the least level of what it is given, and what is done to that. -/
structure Handler where
  sink : Sink
  threshold : Int
  filters : List Filter := []
deriving DecidableEq, Repr

def rootName : Text := "root"

/-- A logger; a threshold of zero is that of the nearest logger above it. -/
structure Logger where
  threshold : Int := 0
  handlers : List Handler := []
  /-- The name of the logger above. -/
  parent : Text := rootName
deriving DecidableEq, Repr

/-- Whether a name means the root; no name at all does. -/
def isRootName (name : Text) : Bool := name.isEmpty || name = rootName

def canonicalName (name : Text) : Text := if isRootName name then rootName else name

/-- The beginnings of a name that end before a dot, longest first, of a name that is
written backwards. What stands before a dot is not looked at, so of two dots side by side
only the second counts. -/
def enclosingBackwards : List CodePoint → List (List CodePoint)
  | p :: q :: rest =>
    if p = .char '.' then (q :: rest) :: enclosingBackwards rest else enclosingBackwards (q :: rest)
  | _ => []

def enclosing (name : Text) : List Text :=
  (enclosingBackwards name.points.reverse).map fun ps => ⟨ps.reverse⟩

/-- What is known under a name. -/
inductive Slot where
  | logger (l : Logger)
  /-- There is no logger of the name, but there are some whose names it encloses. -/
  | awaited (names : List Text)
deriving DecidableEq, Repr

/-- The loggers there are: the root, and the others by name. -/
structure Loggers where
  root : Logger
  slots : List (Text × Slot) := []
deriving DecidableEq, Repr

namespace Loggers

/-- At first there is a root only, and it lets warnings through. -/
def initial : Loggers := { root := { threshold := 30 } }

def slot? (ls : Loggers) (name : Text) : Option Slot := ls.slots.lookup name

def setSlot (ls : Loggers) (name : Text) (slot : Slot) : Loggers :=
  { ls with slots := (name, slot) :: ls.slots.filter (·.1 != name) }

/-- A logger; one that is not there has nothing of its own. -/
def get (ls : Loggers) (name : Text) : Logger :=
  if isRootName name then ls.root
  else
    match ls.slot? name with
    | some (.logger l) => l
    | _ => {}

def set (ls : Loggers) (name : Text) (l : Logger) : Loggers :=
  if isRootName name then { ls with root := l } else ls.setSlot name (.logger l)

def modify (ls : Loggers) (name : Text) (f : Logger → Logger) : Loggers :=
  ls.set name (f (ls.get name))

/-- Looks for the nearest logger among some names; a logger waits for those that are not
there. -/
def await (ls : Loggers) (name : Text) : List Text → Loggers × Text
  | [] => (ls, rootName)
  | outer :: rest =>
    match ls.slot? outer with
    | some (.logger _) => (ls, outer)
    | some (.awaited names) => await (ls.setSlot outer (.awaited (names ++ [name]))) name rest
    | none => await (ls.setSlot outer (.awaited [name])) name rest

/-- Puts a logger above those that wait for its name, except where one is below a logger
whose name begins in the same way. -/
def takeOver (ls : Loggers) (name : Text) (names : List Text) : Loggers :=
  names.foldl (fun ls below =>
    if (ls.get below).parent.startsWith name then ls
    else ls.modify below fun l => { l with parent := name }) ls

def ensure (ls : Loggers) (name : Text) : Loggers :=
  if isRootName name then ls
  else
    let settle (names : List Text) : Loggers :=
      let (ls, parent) := await ((ls.set name {}).takeOver name names) name (enclosing name)
      ls.modify name fun l => { l with parent }
    match ls.slot? name with
    | some (.logger _) => ls
    | some (.awaited names) => settle names
    | none => settle []

/-- A logger and those above it, nearest first; `fuel` bounds their number. -/
def chainFrom (ls : Loggers) : (fuel : Nat) → Text → List Logger
  | 0, _ => []
  | fuel + 1, name =>
    let l := ls.get name
    if isRootName name then [l] else l :: chainFrom ls fuel l.parent

def chain (ls : Loggers) (name : Text) : List Logger := ls.chainFrom (ls.slots.length + 2) name

def handlersOf (ls : Loggers) (name : Text) : List Handler :=
  (ls.chain name).flatMap Logger.handlers

def thresholdOf (ls : Loggers) (name : Text) : Int :=
  (((ls.chain name).map Logger.threshold).find? (· != 0)).getD 0

end Loggers

end Keeper.Log
