import Keeper.Desired
import Keeper.Service.Owner

/-!
# Keeper — configuration

A configuration has six sections. Each setting has a default; beyond truth values and integers,
settings can be of any type.

* **`Config`** — the sections.
* **`Config.ofFields`**, **`Config.fields`** — a configuration from a map and as one.
* **`ServiceSection.settings`**, **`OwnerSection.identity`** — what a cycle takes from it.
-/

namespace Keeper

structure AppSection where
  runId : Value := .null
  dryRun : Value := .bool false
deriving DecidableEq, Inhabited

structure ApiSection where
  baseUrl : Value := ""
  token : Value := ""
  verifyTls : Value := .bool true
  caFile : Value := ""
  timeout : Value := .int 30
deriving DecidableEq, Inhabited

structure ServiceSection where
  name : Value := "node-observability-agent"
  port : Value := .int 8443
  targetPort : Value := .null
  labelKey : Value := "app"
  certKey : Value := "service.beta.openshift.io/serving-cert-secret-name"
  secretName : Value := .null
deriving DecidableEq, Inhabited

/-- The owner; its namespace is empty when it belongs to the cluster. -/
structure OwnerSection where
  apiVersion : Value := "nodeobservability.olm.openshift.io/v1alpha2"
  kind : Value := "NodeObservability"
  name : Value := ""
  uid : Value := ""
  space : Value := ""
deriving DecidableEq, Inhabited

structure TargetSection where
  space : Value := ""
deriving DecidableEq, Inhabited

structure LoggingSection where
  directory : Value := "logs"
  consoleLevel : Value := "INFO"
  fileLevel : Value := "DEBUG"
deriving DecidableEq, Inhabited

structure Config where
  app : AppSection := {}
  api : ApiSection := {}
  service : ServiceSection := {}
  owner : OwnerSection := {}
  target : TargetSection := {}
  logging : LoggingSection := {}
deriving DecidableEq, Inhabited

/-! ## Sections as maps -/

namespace AppSection

def fields (s : AppSection) : Fields := [(.text "run_id", s.runId), (.text "dry_run", s.dryRun)]

def ofFields (fields : Fields) : Except Fault AppSection := do
  Fields.checkNames "AppSection" ["run_id", "dry_run"] fields
  let base : AppSection := {}
  return {
    runId := fields.getD "run_id" base.runId
    dryRun := fields.getD "dry_run" base.dryRun }

end AppSection

namespace ApiSection

def fields (s : ApiSection) : Fields :=
  [(.text "base_url", s.baseUrl), (.text "token", s.token), (.text "verify_tls", s.verifyTls),
    (.text "ca_file", s.caFile), (.text "timeout_sec", s.timeout)]

def ofFields (fields : Fields) : Except Fault ApiSection := do
  Fields.checkNames "ApiSection" ["base_url", "token", "verify_tls", "ca_file", "timeout_sec"] fields
  let base : ApiSection := {}
  return {
    baseUrl := fields.getD "base_url" base.baseUrl
    token := fields.getD "token" base.token
    verifyTls := fields.getD "verify_tls" base.verifyTls
    caFile := fields.getD "ca_file" base.caFile
    timeout := fields.getD "timeout_sec" base.timeout }

end ApiSection

namespace ServiceSection

def fields (s : ServiceSection) : Fields :=
  [(.text "name", s.name), (.text "port", s.port), (.text "target_port", s.targetPort),
    (.text "label_key", s.labelKey), (.text "cert_annotation", s.certKey),
    (.text "secret_name", s.secretName)]

def ofFields (fields : Fields) : Except Fault ServiceSection := do
  Fields.checkNames "ServiceSection"
    ["name", "port", "target_port", "label_key", "cert_annotation", "secret_name"] fields
  let base : ServiceSection := {}
  return {
    name := fields.getD "name" base.name
    port := fields.getD "port" base.port
    targetPort := fields.getD "target_port" base.targetPort
    labelKey := fields.getD "label_key" base.labelKey
    certKey := fields.getD "cert_annotation" base.certKey
    secretName := fields.getD "secret_name" base.secretName }

/-- The settings of the managed service: its ports are integers, and what is empty is
absent. -/
def settings (s : ServiceSection) : Except Fault ServiceSettings := do
  let port ← s.port.toInteger
  let targetPort ←
    if s.targetPort.isNull || s.targetPort.eqv "" then pure Value.null
    else s.targetPort.toInteger.map Value.int
  return {
    name := s.name, port := Value.int port, targetPort
    labelKey := s.labelKey, certKey := s.certKey
    secretName := s.secretName.orElse .null }

end ServiceSection

namespace OwnerSection

def fields (s : OwnerSection) : Fields :=
  [(.text "api_version", s.apiVersion), (.text "kind", s.kind), (.text "name", s.name),
    (.text "uid", s.uid), (.text "namespace", s.space)]

def ofFields (fields : Fields) : Except Fault OwnerSection := do
  Fields.checkNames "OwnerSection" ["api_version", "kind", "name", "uid", "namespace"] fields
  let base : OwnerSection := {}
  return {
    apiVersion := fields.getD "api_version" base.apiVersion
    kind := fields.getD "kind" base.kind
    name := fields.getD "name" base.name
    uid := fields.getD "uid" base.uid
    space := fields.getD "namespace" base.space }

def identity (s : OwnerSection) : OwnerIdentity :=
  { apiVersion := s.apiVersion, kind := s.kind, name := s.name, uid := s.uid, space := s.space }

end OwnerSection

namespace TargetSection

def fields (s : TargetSection) : Fields := [(.text "namespace", s.space)]

def ofFields (fields : Fields) : Except Fault TargetSection := do
  Fields.checkNames "TargetSection" ["namespace"] fields
  return { space := fields.getD "namespace" ({} : TargetSection).space }

end TargetSection

namespace LoggingSection

def fields (s : LoggingSection) : Fields :=
  [(.text "base_dir", s.directory), (.text "console_level", s.consoleLevel),
    (.text "file_level", s.fileLevel)]

def ofFields (fields : Fields) : Except Fault LoggingSection := do
  Fields.checkNames "LoggingSection" ["base_dir", "console_level", "file_level"] fields
  let base : LoggingSection := {}
  return {
    directory := fields.getD "base_dir" base.directory
    consoleLevel := fields.getD "console_level" base.consoleLevel
    fileLevel := fields.getD "file_level" base.fileLevel }

end LoggingSection

/-! ## Configurations as maps -/

namespace Config

def fields (c : Config) : Fields :=
  [(.text "app", .map c.app.fields), (.text "api", .map c.api.fields),
    (.text "service", .map c.service.fields), (.text "owner", .map c.owner.fields),
    (.text "target", .map c.target.fields), (.text "logging", .map c.logging.fields)]

/-- The settings of a section; an absent one has none, and one that is no map is
refused. -/
def sectionOf (fields : Fields) (name : Text) : Except Fault Fields :=
  match Fields.get? fields name with
  | none => .ok []
  | some (.map settings) => .ok settings
  | some _ => Value.misused .wrongType

def ofFields (fields : Fields) : Except Fault Config := do
  return {
    app := ← AppSection.ofFields (← sectionOf fields "app")
    api := ← ApiSection.ofFields (← sectionOf fields "api")
    service := ← ServiceSection.ofFields (← sectionOf fields "service")
    owner := ← OwnerSection.ofFields (← sectionOf fields "owner")
    target := ← TargetSection.ofFields (← sectionOf fields "target")
    logging := ← LoggingSection.ofFields (← sectionOf fields "logging") }

/-- The name of this run: the configured one, or else a fresh one. -/
def runId (c : Config) (fresh : Text) : Value := c.app.runId.orElse (.text fresh)

end Config

end Keeper
