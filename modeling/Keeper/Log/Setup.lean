import Keeper.Log.Journal
import Keeper.Log.Threshold

/-!
# Keeper — setting up the log of a run

A base logger has a handler for the console and one for the file of the day; a logger below it, of
the run, has one for the run's own file. Setting up again leaves each of them once: the console
handler is always renewed, the file of the day when it has moved, the run's file never.

* **`Setup`** — what the log of a run is set up from.
* **`prepared`** — the handlers it is given.
* **`Journal.setUp`** — sets it up, and says so in it. What fails leaves what was done before.
-/

namespace Keeper.Log

structure Setup where
  name : Value := "svcsync"
  runId : Value
  action : Value
  directory : Value := "logs"
  consoleLevel : Value := "INFO"
  fileLevel : Value := "DEBUG"
  /-- What the run is about, if it is known. -/
  subject : Value := .null

/-- A handler as it is set up: it shows the context of every record, and no secrets. -/
def prepared (sink : Sink) (level : Int) : Handler := ⟨sink, level, [.contextDefaults, .redaction]⟩

abbrev Change (α : Type) := ExceptT Fault (StateM Journal) α

def dailyName : Text := "app.log"

/-- Everything is let through by the loggers themselves. -/
def ownThreshold : Int := Level.debug.rank

namespace Setup

def textOf : Value → Except Fault Text
  | .text t => .ok t
  | _ => .error (.misuse .wrongType)

/-- The name of a base logger: what counts as false names the root, and anything else must
be a text. -/
def baseName (v : Value) : Except Fault Text := if v.truthy then textOf v else .ok rootName

def changeFiles (f : Files.Tree → Except Fault Files.Tree) : Change Unit := do
  let files ← f (← get).files
  modify fun j => { j with files }

def changeLogger (name : Text) (f : Logger → Logger) : Change Unit :=
  modify fun j => { j with loggers := j.loggers.modify name f }

def ensureLogger (name : Text) : Change Unit :=
  modify fun j => { j with loggers := j.loggers.ensure name }

def addHandler (name : Text) (h : Handler) : Change Unit :=
  changeLogger name fun l => { l with handlers := l.handlers ++ [h] }

/-- Puts a new handler in the place of those for the console. -/
def renewConsole (base : Text) (level : Except Fault Int) : Change Unit := do
  changeLogger base fun l => { l with handlers := l.handlers.filter (!·.sink.isConsole) }
  addHandler base (prepared .console (← level))

/-- Removes handlers for a file of the day up to the one that has the given path, and says
whether there is one. -/
def keepDaily (path : Files.Path) : List Handler → List Handler × Bool
  | [] => ([], false)
  | h :: rest =>
    match h.sink with
    | .rolling p =>
      if p = path then (h :: rest, true) else keepDaily path rest
    | _ => let (kept, found) := keepDaily path rest; (h :: kept, found)

def ensureDaily (base directory : Text) (level : Except Fault Int) : Change Unit := do
  changeFiles (·.makeDirectories directory)
  let j ← get
  let path := Files.Path.ofText j.files.here (Files.join directory dailyName)
  let (kept, found) := keepDaily path (j.loggers.get base).handlers
  changeLogger base fun l => { l with handlers := kept }
  if found then return ()
  changeFiles (·.touch path.text)
  addHandler base (prepared (.rolling path) (← level))

def ensureOwn (s : Setup) (name directory day : Text) (level : Except Fault Int) : Change Unit := do
  if ((← get).loggers.get name).handlers.any (!·.sink.isConsole) then return ()
  let directory := Files.join directory day
  changeFiles (·.makeDirectories directory)
  let file := s.action.display ++ "_" ++ s.runId.display ++ ".log"
  let path := Files.Path.ofText (← get).files.here (Files.join directory file)
  changeFiles (·.touch path.text)
  addHandler name (prepared (.file path) (← level))

/-- The part of the subject with a name; a hyphen if it counts as false. -/
def part (subject : Value) (name : Text) : Except Fault Value :=
  if subject.truthy then do return (Fields.getD (← subject.fields) name .null).orElse "-"
  else .ok "-"

def run (s : Setup) (stamp : Stamp) : Change Adapter := do
  let fileLevel := threshold s.fileLevel Level.debug.rank
  let base ← baseName s.name
  ensureLogger base
  changeLogger base fun l => { l with threshold := ownThreshold }
  renewConsole base (threshold s.consoleLevel Level.info.rank)
  let directory ← textOf s.directory
  ensureDaily base directory fileLevel
  let name := s.name.display ++ "." ++ s.action.display ++ "." ++ s.runId.display
  ensureLogger name
  changeLogger name fun l => { l with threshold := ownThreshold }
  s.ensureOwn name directory stamp.day fileLevel
  let space ← part s.subject "namespace"
  let owner ← part s.subject "owner"
  let adapter :=
    { logger := name, known := some { runId := s.runId, action := s.action, space, owner } }
  modify fun j => j.logEntry stamp adapter ⟨.debug, "Logger initialised", []⟩
  return adapter

end Setup

def Journal.setUp (j : Journal) (stamp : Stamp) (s : Setup) : Except Fault Adapter × Journal :=
  (s.run stamp).run.run j

end Keeper.Log
