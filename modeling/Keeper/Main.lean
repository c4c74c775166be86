import Keeper.Clock.Calendar
import Keeper.Command.Run
import Std.Time.DateTime.Timestamp

/-!
# Keeper — the program

The outermost layer. It takes a picture of the files and variables a command can look at, answers
the questions of the command's program, and afterwards writes what the command has left behind.

* **`takePicture`** — the station a command starts from.
* **`answer`** — the run of a program in the world as it is.
* **`leave`** — the files and lines a command has written.

There is no connection to a network: every request fails as one that cannot be sent.
-/

namespace Keeper.Terminal

open Command (Station Given Ending)

def content? (path : String) : IO (Option (List UInt8)) := do
  try
    return some (← IO.FS.readBinFile path).toList
  catch _ => return none

def readVariables : IO Environment := do
  let bytes := (← content? "/proc/self/environ").getD []
  let texts := Files.pieces '\x00' (Text.Utf8.decodeLossy bytes)
  return .ofList <| texts.filterMap fun text =>
    let name := text.takeWhile (· != '=')
    if name.isEmpty then none
    else some (.ofChars name, .ofChars (text.drop (name.length + 1)))

def addFile (tree : Files.Tree) (path : Files.Path) : IO Files.Tree := do
  match ← content? path.text.shown with
  | some content => return tree.putFile path content
  | none => return tree

/-- The station a command starts from: the working directory, the files a configuration
can come from, and the variables. -/
def takePicture (home : Text) : IO Station := do
  let here := Files.Path.ofText [] (.ofString (toString (← IO.currentDir)))
  let environmentFiles := here.upward.map (· ++ [Environment.fileName])
  let configurations := (Config.defaultPaths home).map (Files.Path.ofText here)
  let bare : Files.Tree := { ({} : Files.Tree).putDirectory here with here }
  let files ← (environmentFiles ++ configurations).foldlM addFile bare
  return { environment := ← readVariables, journal := { files } }

def takeGiven (home : Text) : IO Given := do
  let seconds := (← Std.Time.Timestamp.now).toSecondsSinceUnixEpoch.val.toNat
  let date := Date.ofSeconds seconds
  let random := (← IO.getRandomBytes 6).toList
  return {
    stamp := ⟨date.text ++ "T" ++ (TimeOfDay.ofSeconds seconds).text ++ "Z", date.text⟩
    freshRunId := .ofChars (random.flatMap fun b => Text.hexText 2 b.toNat)
    home, outlet := .written }

def unreachable : Http.Reply := .failed "no connection"

def readClock : IO Seconds := do
  return .fraction (.ofRatio false ((← IO.monoNanosNow) * Binary64.one) 1000000000)

/-- Answers the questions of a program; what it logs goes into the journal of the
station. -/
def answer {α : Type} (given : Given) (adapter : Log.Adapter) :
    Program Seconds (Http.Request Seconds) Http.Reply α → Station → IO (α × Station)
  | .done a, s => return (a, s)
  | .cancelled next, s => answer given adapter (next false) s
  | .now next, s => do answer given adapter (next (← readClock)) s
  | .log entry next, s => answer given adapter next (s.log given.stamp adapter entry)
  | .call _ next, s => answer given adapter (next unreachable) s

def runCommand (given : Given) (words : List Text) (s : Station) : IO (Ending × Station) := do
  match Command.parse words with
  | .error usage => return (.usage usage, s)
  | .ok options =>
    match (Command.prepare given options).run.run s with
    | (.error ending, s) => return (ending, s)
    | (.ok job, s) =>
      let (result, s) ← answer given job.adapter job.work.run s
      let (status, s) := (Command.conclude given job.adapter result).run.run s
      return (Command.ending status, s)

def appendFile (path : Files.Path) (content : List UInt8) : IO Unit := do
  IO.FS.createDirAll (Files.Path.text path.dropLast).shown
  IO.FS.withFile path.text.shown .append fun h => h.write ⟨content.toArray⟩

/-- Writes what a command has left behind: the files that were not there before, and the
lines on the console and the standard output. -/
def leave (before after : Station) : IO Unit := do
  for (path, entry) in after.journal.files.entries do
    match entry, before.journal.files.find? path with
    | .file content, none => appendFile path content
    | _, _ => pure ()
  IO.eprint (Text.join after.journal.console.reverse).shown
  IO.print (Text.join after.output.reverse).shown

/-- Says how a command has ended, and gives the status to end with. -/
def finish : Ending → IO UInt32
  | .exit status => return status.toUInt32
  | .usage usage => do
    match usage.complaint? with
    | some complaint => IO.eprintln (Command.Usage.synopsis ++ "\n" ++ complaint).shown
    | none => IO.println Command.Usage.synopsis.shown
    return usage.status.toUInt32
  | .fault fault => do
    IO.eprintln fault.message.shown
    return 1

def start (words : List Text) : IO UInt32 := do
  let home : Text := (← IO.getEnv "HOME").getD "~"
  let given ← takeGiven home
  let before ← takePicture home
  let (ending, after) ← runCommand given words before
  leave before after
  finish ending

end Keeper.Terminal

def main (args : List String) : IO UInt32 := Keeper.Terminal.start (args.map .ofString)
