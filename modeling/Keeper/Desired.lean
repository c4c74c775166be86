import Keeper.Service.Basic

/-!
# Keeper — the desired service

What the managed service should be, from the settings, the owner's name and a namespace.

* **`ServiceSettings`** — the choices that do not depend on the owner.
* **`ServiceSettings.build`** — the desired service: headless, with one port, selecting what carries
  the owner's label.
-/

namespace Keeper

/-- The choices that shape the managed service. A target port that is null is the port, a
secret name that counts as false is the service's name. -/
structure ServiceSettings where
  name : Value := "node-observability-agent"
  port : Value := .int 8443
  targetPort : Value := .null
  labelKey : Value := "app"
  certKey : Value := "service.beta.openshift.io/serving-cert-secret-name"
  secretName : Value := .null
deriving DecidableEq, Inhabited

namespace ServiceSettings

/-- Settings by name; what is not named keeps its default. -/
def ofFields (fields : Fields) : Except Fault ServiceSettings := do
  Fields.checkNames "ServiceSettings"
    ["name", "port", "target_port", "label_key", "cert_annotation", "secret_name"] fields
  let base : ServiceSettings := {}
  return {
    name := fields.getD "name" base.name
    port := fields.getD "port" base.port
    targetPort := fields.getD "target_port" base.targetPort
    labelKey := fields.getD "label_key" base.labelKey
    certKey := fields.getD "cert_annotation" base.certKey
    secretName := fields.getD "secret_name" base.secretName }

def effectiveTargetPort (s : ServiceSettings) : Value :=
  if s.targetPort.isNull then s.port else s.targetPort

def effectiveSecretName (s : ServiceSettings) : Value := s.secretName.orElse s.name

def labels (s : ServiceSettings) (ownerName : Value) : Except Fault Fields := do
  return [(← s.labelKey.key, ownerName)]

def build (s : ServiceSettings) (ownerName space : Value) : Except Fault Service := do
  if !ownerName.truthy then throw (.badValue .ownerNameRequired)
  if !space.truthy then throw (.badValue .namespaceRequired)
  let labels ← s.labels ownerName
  let certKey ← s.certKey.key
  return {
    space, name := s.name
    labels := some labels
    annotations := some [(certKey, s.effectiveSecretName)]
    selector := some labels
    type := clusterIPType
    clusterIP := headless
    ports := [{ port := s.port, target := s.effectiveTargetPort }] }

end ServiceSettings

end Keeper
