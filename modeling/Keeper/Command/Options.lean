import Keeper.Number.Reading
import Keeper.Value.Conversion

/-!
# Keeper — options of the command line

What can be said on the command line, and where in the configuration it belongs.

* **`Flag`** — the options there are, with their spelling and kind.
* **`Options`** — what was said; an option that was not given is absent.
* **`Flag.read`** — the value of an option, from its written argument.
* **`Options.set`** — one option more.
* **`Options.overrides`** — the layer of configuration the options make.
-/

namespace Keeper.Command

/-- The options, in the order in which they are listed. -/
inductive Flag where
  | help
  | ownerName
  | ownerUid
  | ownerKind
  | ownerApiVersion
  | ownerSpace
  | space
  | dryRun
  | deadline
  | baseUrl
  | token
  | verifyTls
  | caFile
  | timeout
  | logsDirectory
  | consoleLevel
  | fileLevel
deriving DecidableEq, Repr, Inhabited

inductive Flag.Kind where
  | switch
  | text
  | integer
  | fraction
  | choice (among : List Text)
deriving DecidableEq, Repr

namespace Flag

def spellings : Flag → List Text
  | .help => ["-h", "--help"]
  | .ownerName => ["--owner-name"]
  | .ownerUid => ["--owner-uid"]
  | .ownerKind => ["--owner-kind"]
  | .ownerApiVersion => ["--owner-api-version"]
  | .ownerSpace => ["--owner-namespace"]
  | .space => ["--namespace"]
  | .dryRun => ["--dry-run"]
  | .deadline => ["--deadline-sec"]
  | .baseUrl => ["--base-url"]
  | .token => ["--token"]
  | .verifyTls => ["--verify-tls"]
  | .caFile => ["--ca-file"]
  | .timeout => ["--timeout-sec"]
  | .logsDirectory => ["--logs-dir"]
  | .consoleLevel => ["--console-level"]
  | .fileLevel => ["--file-level"]

def all : List Flag :=
  [.help, .ownerName, .ownerUid, .ownerKind, .ownerApiVersion, .ownerSpace, .space, .dryRun,
    .deadline, .baseUrl, .token, .verifyTls, .caFile, .timeout, .logsDirectory, .consoleLevel,
    .fileLevel]

def kind : Flag → Kind
  | .help | .dryRun => .switch
  | .deadline => .fraction
  | .timeout => .integer
  | .verifyTls => .choice ["true", "false"]
  | _ => .text

def isSwitch (f : Flag) : Bool := f.kind = .switch

def name (f : Flag) : Text := Text.intercalate "/" f.spellings

def argumentName (f : Flag) : Text :=
  match f.kind with
  | .switch => ""
  | .text => " TEXT"
  | .integer => " INTEGER"
  | .fraction => " SECONDS"
  | .choice among => " " ++ Text.intercalate "|" among

def synopsis (f : Flag) : Text := (f.spellings.head?.getD "") ++ f.argumentName

end Flag

structure Options where
  ownerName : Option Value := none
  ownerUid : Option Value := none
  ownerKind : Option Value := none
  ownerApiVersion : Option Value := none
  ownerSpace : Option Value := none
  space : Option Value := none
  dryRun : Bool := false
  deadline : Option Value := none
  baseUrl : Option Value := none
  token : Option Value := none
  verifyTls : Option Value := none
  caFile : Option Value := none
  timeout : Option Value := none
  logsDirectory : Option Value := none
  consoleLevel : Option Value := none
  fileLevel : Option Value := none
deriving DecidableEq, Inhabited

def literals (texts : List Text) : Text := Text.intercalate ", " (texts.map Text.quoted)

inductive Complaint where
  | missing
  | superfluous (argument : Text)
  | notAFraction (argument : Text)
  | notAnInteger (argument : Text)
  | notAChoice (argument : Text) (among : List Text)
deriving DecidableEq, Repr

namespace Complaint

def message : Complaint → Text
  | .missing => "expected one argument"
  | .superfluous argument => "ignored explicit argument " ++ Text.quoted argument
  | .notAFraction argument => "invalid float value: " ++ Text.quoted argument
  | .notAnInteger argument => "invalid int value: " ++ Text.quoted argument
  | .notAChoice argument among =>
    "invalid choice: " ++ Text.quoted argument ++ " (choose from " ++ literals among ++ ")"

end Complaint

/-- The value of an option, from its written argument. The argument of a switch is not
looked at. -/
def Flag.read (f : Flag) (argument : Text) : Except Complaint Value :=
  match f.kind with
  | .switch => .ok (.bool true)
  | .text => .ok (.text argument)
  | .integer =>
    match Value.integerOfText argument with
    | .ok i => .ok (.int i)
    | .error _ => .error (.notAnInteger argument)
  | .fraction =>
    match readFraction? argument with
    | some x => .ok (.float x)
    | none => .error (.notAFraction argument)
  | .choice among =>
    if among.contains argument then .ok (.text argument) else .error (.notAChoice argument among)

namespace Options

/-- Options with one more, which takes the place of an earlier one of its kind. -/
def set (o : Options) (f : Flag) (v : Value) : Options :=
  match f with
  | .help => o
  | .ownerName => { o with ownerName := v }
  | .ownerUid => { o with ownerUid := v }
  | .ownerKind => { o with ownerKind := v }
  | .ownerApiVersion => { o with ownerApiVersion := v }
  | .ownerSpace => { o with ownerSpace := v }
  | .space => { o with space := v }
  | .dryRun => { o with dryRun := true }
  | .deadline => { o with deadline := v }
  | .baseUrl => { o with baseUrl := v }
  | .token => { o with token := v }
  | .verifyTls => { o with verifyTls := v }
  | .caFile => { o with caFile := v }
  | .timeout => { o with timeout := v }
  | .logsDirectory => { o with logsDirectory := v }
  | .consoleLevel => { o with consoleLevel := v }
  | .fileLevel => { o with fileLevel := v }

/-- The settings the options make: section, key and value. -/
def settings (o : Options) : List (Text × Text × Value) :=
  let given (sect key : Text) (v : Option Value) : List (Text × Text × Value) :=
    (v.map fun v => (sect, key, v)).toList
  (if o.dryRun then given "app" "dry_run" (Value.bool true) else [])
    ++ given "owner" "name" o.ownerName
    ++ given "owner" "uid" o.ownerUid
    ++ given "owner" "kind" o.ownerKind
    ++ given "owner" "api_version" o.ownerApiVersion
    ++ given "owner" "namespace" o.ownerSpace
    ++ given "target" "namespace" o.space
    ++ given "api" "base_url" o.baseUrl
    ++ given "api" "token" o.token
    ++ given "api" "verify_tls" o.verifyTls
    ++ given "api" "ca_file" o.caFile
    ++ given "api" "timeout_sec" o.timeout
    ++ given "logging" "base_dir" o.logsDirectory
    ++ given "logging" "console_level" o.consoleLevel
    ++ given "logging" "file_level" o.fileLevel

def write (layer : Fields) (setting : Text × Text × Value) : Fields :=
  let (sect, key, v) := setting
  let inner : Fields := match Fields.get? layer sect with
    | some (.map inner) => inner
    | _ => []
  Fields.set layer sect (.map (Fields.set inner key v))

def overrides (o : Options) : Fields := o.settings.foldl write []

end Options

end Keeper.Command
