import Keeper.Command.Words
import Keeper.Config.Load
import Keeper.Cycle
import Keeper.Environment.File
import Keeper.Log.Setup

/-!
# Keeper — running the command

A command is prepared from the files and variables around it, does its work by asking its
surroundings, and is concluded: each of the three says how the command can end.

* **`Station`** — what a command finds around it, and leaves behind.
* **`prepare`** — configuration, log, client and engine: a job.
* **`Job.work`** — the job as a program; its answer is the summary.
* **`conclude`** — what is said about the summary or the fault.
* **`run`** — a whole command, in any surroundings.
-/

namespace Keeper.Command

/-- What a command finds around it, and leaves behind. -/
structure Station where
  environment : Environment := []
  journal : Log.Journal := {}
  /-- What has been written on the standard output, newest first. -/
  output : List Text := []

/-- What becomes of the lines that a command prints: they are kept as texts, or written as
bytes. -/
inductive Outlet where
  | kept
  | written
deriving DecidableEq, Repr

/-- Why a line cannot be printed: it is to be written, and has a code point without
bytes. -/
def Outlet.refusal? : Outlet → Text → Option Fault
  | .kept, _ => none
  | .written, line => (Text.Utf8.gap? line).map .unencodable

/-- What the surroundings give to every command: the time, a name for a run without one,
the home directory and the standard output. -/
structure Given where
  stamp : Log.Stamp
  freshRunId : Text
  home : Text
  outlet : Outlet := .kept

inductive Ending where
  | exit (status : Nat)
  /-- The command line is not understood. -/
  | usage (usage : Usage)
  /-- A fault nobody has foreseen. -/
  | fault (fault : Fault)

/-- A step that changes the station, and may end the command. -/
abbrev Step (α : Type) := ExceptT Ending (StateM Station) α

namespace Station

def complain (s : Station) (text : Text) : Station :=
  { s with journal := s.journal.write .console text }

def print (s : Station) (text : Text) : Station := { s with output := (text ++ "\n") :: s.output }

def log (s : Station) (stamp : Log.Stamp) (source : Log.Adapter) (entry : Log.Entry) : Station :=
  { s with journal := s.journal.logEntry stamp source entry }

end Station

/-- A result whose fault ends the command. -/
def orFault {α : Type} : Except Fault α → Step α
  | .ok a => pure a
  | .error fault => throw (.fault fault)

/-- A configuration that cannot be used ends the command; the message says why. -/
def orMisconfigured {α : Type} : Except Fault α → Step α
  | .ok a => pure a
  | .error fault => do
    if fault.isBadValue then
      modify (·.complain ("configuration error: " ++ fault.message))
      throw (.exit 2)
    else throw (.fault fault)

/-- Adds the variables of the environment file, and complains about what it cannot
read. -/
def loadEnvironment (given : Given) : Step Unit := do
  let s ← get
  match ← orMisconfigured (Environment.nearestText? s.journal.files) with
  | none => return ()
  | some text =>
    (Environment.complaints text).forM fun complaint =>
      modify (·.log given.stamp { logger := "environment" } ⟨.warning, complaint, []⟩)
    let environment ← orMisconfigured (s.environment.loadText text)
    modify fun s => { s with environment }

def configure (given : Given) (options : Options) : Step Config := do
  loadEnvironment given
  let s ← get
  orMisconfigured (Config.load s.environment s.journal.files {
    overrides := .map options.overrides, paths := Config.defaultPaths given.home })

structure Job where
  adapter : Log.Adapter
  client : Client Seconds
  engine : Engine
  owner : OwnerIdentity
  space : Value
  /-- Whether nothing is to be written. -/
  dryRun : Bool
  /-- How many seconds the cycle may take. -/
  allowance : Option Value

def clientOf (api : ApiSection) : Except Fault (Client Seconds) := do
  let timeout ← api.timeout.toInteger
  Client.ofOptions {
    baseUrl := api.baseUrl, token := api.token
    verifyTls := .bool api.verifyTls.truthy
    caFile := api.caFile.orElse .null, timeout := .int timeout }

def openLog (given : Given) (config : Config) : Step Log.Adapter := do
  let s ← get
  let (result, journal) := s.journal.setUp given.stamp {
    runId := config.runId given.freshRunId
    action := commandName
    directory := config.logging.directory
    consoleLevel := config.logging.consoleLevel
    fileLevel := config.logging.fileLevel
    subject := .map [(.text "namespace", config.target.space), (.text "owner", config.owner.name)] }
  set { s with journal }
  orFault result

def prepare (given : Given) (options : Options) : Step Job := do
  let config ← configure given options
  let adapter ← openLog given config
  modify (·.log given.stamp adapter
    ⟨.info, "Starting servicesync reconcile (dry_run=%s)", [config.app.dryRun]⟩)
  let client ← orFault (clientOf config.api)
  let settings ← orFault config.service.settings
  return {
    adapter, client, engine := .ofSettings settings
    owner := config.owner.identity, space := config.target.space
    dryRun := config.app.dryRun.truthy, allowance := options.deadline }

/-- One line about what was done or would be: a word for it, the service, and the
fields. -/
def summary (what action key : Text) (fields : List FieldGroup) : Text :=
  what ++ "=" ++ action ++ " name=" ++ key
    ++ (if fields.isEmpty then ("" : Text)
      else " fields=" ++ Text.intercalate "," (fields.map FieldGroup.label))

def Job.cycle (job : Job) (context : RequestContext Seconds) : Calling Seconds Text := do
  let assignment : Assignment Seconds := { context, owner := job.owner, space := job.space }
  if job.dryRun then
    let p ← plan job.engine assignment
    return summary "plan" p.action p.desired.key p.fields
  else
    let o ← reconcile job.engine assignment
    return summary "action" o.action.name o.state.key o.action.fields

def Job.work (job : Job) : Attempt Seconds (Http.Request Seconds) Http.Reply Text := do
  let context ← match job.allowance with
    | none => pure {}
    | some seconds => RequestContext.lasting seconds
  .mk ((job.cycle context).run.refine fun op => (job.client.answer context op).run)

def conclude (given : Given) (adapter : Log.Adapter) : Except Fault Text → Step Nat
  | .ok summary => do
    modify (·.log given.stamp adapter ⟨.info, "Reconcile summary: %s", [summary]⟩)
    match given.outlet.refusal? summary with
    | some fault => throw (.fault fault)
    | none => do
      modify (·.print summary)
      return 0
  | .error (.cycle cancelled phase resource cause) => do
    let fault : Fault := .cycle cancelled phase resource cause
    modify (·.log given.stamp adapter
      ⟨.error, "Reconcile failed (phase=%s): %s", [phase, .object fault.message]⟩)
    modify (·.complain ("error: " ++ fault.message))
    return 2
  | .error fault => throw (.fault fault)

/-- Surroundings in which what is logged goes into the journal of a station. -/
def logging {σ ω ρ : Type} (world : Surroundings σ Seconds ω ρ) (stamp : Log.Stamp)
    (adapter : Log.Adapter) : Surroundings (σ × Station) Seconds ω ρ where
  cancelled s := world.cancelled s.1
  now s := let (t, w) := world.now s.1; (t, w, s.2)
  log entry s := (world.log entry s.1, s.2.log stamp adapter entry)
  call op s := let (r, w) := world.call op s.1; (r, w, s.2)

/-- What a step that is done makes of a command. -/
def ending : Except Ending Nat → Ending
  | .ok status => .exit status
  | .error e => e

def run {σ : Type} (world : Surroundings σ Seconds (Http.Request Seconds) Http.Reply) (given : Given)
    (words : List Text) (s : Station) (w : σ) : Ending × Station × σ :=
  match parse words with
  | .error usage => (.usage usage, s, w)
  | .ok options =>
    match (prepare given options).run.run s with
    | (.error e, s) => (e, s, w)
    | (.ok job, s) =>
      let (result, w, s) := job.work.run.run (logging world given.stamp job.adapter) (w, s)
      let (status, s) := (conclude given job.adapter result).run.run s
      (ending status, s, w)

end Keeper.Command
