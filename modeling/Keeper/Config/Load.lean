import Keeper.Config.Coercion
import Keeper.Config.Merge
import Keeper.Config.Sections
import Keeper.Config.Variables
import Keeper.Files.Tree
import Keeper.Yaml.Document

/-!
# Keeper — loading a configuration

A configuration is assembled from four layers: the built-in defaults, a file, the environment and
the command line, from the lowest to the highest. References are resolved and settings converted
after the layers are merged.

* **`Config.validate`** — the settings that no run can do without.
* **`Config.assemble`** — the configuration the layers make.
* **`Config.readFile`** — the layer of a file.
* **`Config.load`** — the configuration of an environment and the files around it.
-/

namespace Keeper.Config

def defaults : Fields := ({} : Config).fields

def required : List (Text × Text) :=
  [("api", "base_url"), ("owner", "name"), ("owner", "uid"), ("target", "namespace")]

/-- Whether a required setting is missing or counts as false; its section must be a
map. -/
def isMissing (fields : Fields) (path : Text × Text) : Except Fault Bool := do
  match Fields.get? fields path.1 with
  | none => return true
  | some settings => return !(Fields.getD (← settings.fields) path.2 .null).truthy

def validate (fields : Fields) : Except Fault Unit := do
  let missing ← required.filterM (isMissing fields)
  if missing.isEmpty then return ()
  throw (.badValue (.missingConfiguration (missing.map fun (s, k) => s ++ "." ++ k)))

structure Layers where
  file : Fields := []
  environment : Fields := []
  commandLine : Value := .map []

def Layers.merged (layers : Layers) : Except Fault Fields :=
  Layer.lay (Layer.merge (Layer.merge defaults layers.file) layers.environment) layers.commandLine

/-- How many lists and maps can stand inside each other in a configuration. -/
def depthLimit : Nat := 490

mutual

/-- Whether no more than so many levels are gone through to the end of a value, from list
to item and from map to value. A value that is a part of itself has no end. -/
def fitsIn (levels : Nat) : Value → Bool
  | .list items => 0 < levels && itemsFitIn (levels - 1) items
  | .map fields => 0 < levels && entriesFitIn (levels - 1) fields
  | .endless => false
  | _ => true

def itemsFitIn (levels : Nat) : List Value → Bool
  | [] => true
  | v :: rest => fitsIn levels v && itemsFitIn levels rest

def entriesFitIn (levels : Nat) : List (Scalar × Value) → Bool
  | [] => true
  | (_, v) :: rest => fitsIn levels v && entriesFitIn levels rest

end

/-- The configuration that the layers make. References are followed in one walk through
the tree, which ends at whatever it meets first: a place that is nested too deeply, or a
reference to a name that no variable can have. Here the depth of the whole tree is looked
at before the references; so of a tree that has both faults the depth is reported,
wherever the names stand. -/
def assemble (env : Environment) (layers : Layers) (checked : Bool := true) :
    Except Fault Config := do
  let merged ← layers.merged
  if !fitsIn depthLimit (.map merged) then throw (.misuse .tooDeep)
  Layer.checkReferences (.map merged)
  let coerced ← Layer.coerceEntries (Layer.resolveEntries env merged)
  if checked then validate coerced
  ofFields coerced

/-- How many bytes of a configuration file are decoded at a time. -/
def blockSize : Nat := 8192

def supply (bytes : List UInt8) : Yaml.Supply :=
  let (cs, flaw) := Text.Utf8.decodeBlocks blockSize bytes
  .ofChars (Files.unixLines cs) (flaw.map .undecodable)

/-- The layer of a configuration file; an empty document is an empty layer. -/
def readFile (files : Files.Tree) (path : Text) : Except Fault Fields := do
  match (← Yaml.read (supply (← files.bytes path))).orElse (.map []) with
  | .map fields => return fields
  | _ => throw (.badValue (.notAMapping path))

def readFirst (files : Files.Tree) (paths : List Text) : Except Fault Fields :=
  match paths.find? (fun p => (files.at? p).isSome) with
  | some path => readFile files path
  | none => .ok []

/-- Where configuration files are looked for, given the home directory. -/
def defaultPaths (home : Text) : List Text :=
  ["./servicesync.yml", home ++ "/.config/servicesync/config.yml", "/etc/servicesync/config.yml"]

structure Request where
  overrides : Value := .map []
  paths : List Text
  mark : Text := Layer.variableMark
  checked : Bool := true

/-- The configuration of an environment and the files around it. -/
def load (env : Environment) (files : Files.Tree) (request : Request) : Except Fault Config := do
  let file ← readFirst files request.paths
  let environment ← Layer.ofEnvironment env request.mark
  assemble env { file, environment, commandLine := request.overrides } request.checked

end Keeper.Config
