import Keeper.Files.Tree
import Keeper.Log.Logger
import Keeper.Log.Record

/-!
# Keeper — writing log records

A record reaches handlers one after the other. Each puts it through its filters before it writes a
line, and what they have done is not undone for the next. A record that no handler is set up for is
written on the console as it is, if it is a warning or worse.

* **`Adapter`** — what a record is logged through.
* **`Filter.apply`** — what a filter does.
* **`Journal`** — the loggers, the files, and what has been written on the console.
* **`line`** — the line of a record.
* **`Journal.log`** — logs a record.
-/

namespace Keeper.Log

structure Stamp where
  time : Text
  day : Text
deriving DecidableEq, Repr

structure Context where
  runId : Value := "-"
  action : Value := "-"
  space : Value := "-"
  owner : Value := "-"
deriving DecidableEq, Inhabited

/-- What a record is logged through: a logger, and what the records are about, if that is
known. -/
structure Adapter where
  logger : Text
  known : Option Context := none
deriving DecidableEq, Inhabited

/-- What is shown of the context: hyphens, where nothing is known. -/
def Adapter.context (a : Adapter) : Context := a.known.getD {}

def Filter.apply : Filter → Adapter × Record → Adapter × Record
  | .contextDefaults, (source, record) => ({ source with known := some source.context }, record)
  | .redaction, (source, record) => (source, record.redacted)

def levelText (rank : Int) : Text := (rankName rank).getD ("Level " ++ integerText rank)

def padRight (width : Nat) (s : Text) : Text :=
  s ++ .ofChars (List.replicate (width - s.length) ' ')

def levelWidth : Nat := 8

def line (stamp : Stamp) (rank : Int) (logger : Text) (context : Context) (text : Text) : Text :=
  stamp.time ++ " | " ++ padRight levelWidth (levelText rank) ++ " | " ++ canonicalName logger
    ++ " | run=" ++ context.runId.display ++ " action=" ++ context.action.display
    ++ " ns=" ++ context.space.display ++ " owner=" ++ context.owner.display ++ " | " ++ text

/-- The loggers, the files around them, and the texts written on the console, newest
first. -/
structure Journal where
  loggers : Loggers := .initial
  files : Files.Tree := {}
  console : List Text := []

namespace Journal

/-- Writes a line to a sink; a file takes no line with surrogates. -/
def write (j : Journal) (sink : Sink) (text : Text) : Journal :=
  let text := text ++ "\n"
  match sink.path?, text.chars? with
  | none, _ => { j with console := text :: j.console }
  | some path, some _ => { j with files := j.files.append path (Text.Utf8.encode text) }
  | some _, none => j

/-- Hands a record to handlers, each of which leaves it filtered. A record is not written
where it has no text, or where nothing is known of its context. -/
def deliver (j : Journal) (stamp : Stamp) (rank : Int) (source : Adapter) (record : Record) :
    List Handler → Journal
  | [] => j
  | h :: rest =>
    if rank < h.threshold then j.deliver stamp rank source record rest
    else
      let (source, record) := h.filters.foldl (fun passed f => f.apply passed) (source, record)
      let j := match source.known, record.text with
        | some context, .ok text => j.write h.sink (line stamp rank source.logger context text)
        | _, _ => j
      j.deliver stamp rank source record rest

/-- The least rank of what is written without any handler. -/
def unhandledThreshold : Int := Level.warning.rank

/-- Logs a record; what has no positive rank is never logged. -/
def log (j : Journal) (stamp : Stamp) (rank : Int) (source : Adapter) (record : Record) : Journal :=
  let j := { j with loggers := j.loggers.ensure source.logger }
  if rank ≤ 0 || rank < j.loggers.thresholdOf source.logger then j
  else
    match j.loggers.handlersOf source.logger with
    | [] =>
      if rank < unhandledThreshold then j
      else
        match record.text with
        | .ok text => j.write .console text
        | .error _ => j
    | handlers => j.deliver stamp rank source record handlers

def logEntry (j : Journal) (stamp : Stamp) (source : Adapter) (entry : Entry) : Journal :=
  j.log stamp entry.level.rank source (.ofEntry entry)

end Journal

end Keeper.Log
