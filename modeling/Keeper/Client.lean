import Keeper.Http
import Keeper.Service.Manifest
import Keeper.Text.Blank

/-!
# Keeper — the control-plane client

Reads, creates and updates services by requests. Every request is preceded by a look at the
context and takes no longer than the context allows; nothing is tried twice.

* **`ServiceCall`** — what a cycle needs of a control plane.
* **`Client.send`** — one request: a response below 400 with a JSON object or no content succeeds.
* **`Client.answer`** — a service call as a request.
-/

namespace Keeper

/-- A call to a control plane. It answers with a service, or fails. -/
inductive ServiceCall where
  | read (space name : Value)
  | create (service : Service)
  | update (service : Service)
deriving DecidableEq, Inhabited

structure Client (τ : Type) where
  baseUrl : Text
  timeout : τ
  /-- Whether certificates are checked, or the file that says which are accepted. -/
  verify : Value
  /-- The headers sent with every request. -/
  headers : Fields
deriving DecidableEq

namespace Client

open Http (Method Request Reply Response)

def ownHeaders : Fields :=
  [("Accept", .text "application/json"), ("Content-Type", .text "application/json"),
    ("User-Agent", .text "ServiceSync/HTTPClient")]

/-- The address below which a control plane answers: a text, without the slashes at its
end. -/
def trimmedUrl : Value → Except Fault Text
  | .text t => .ok ⟨Text.dropEndWhile (· = '/') t.points⟩
  | .scalar (.bytes _) => Value.misused .wrongType
  | _ => Value.misused .notAMap

structure Options where
  baseUrl : Value
  token : Value := ""
  verifyTls : Value := .bool true
  caFile : Value := .null
  timeout : Value := .int 30

def Options.ofFields (fields : Fields) : Except Fault Options := do
  if Fields.has fields "session" || Fields.has fields "logger" then throw (.misuse .wrongType)
  Fields.checkNames "ControlPlaneClient"
    ["base_url", "token", "verify_tls", "ca_file", "timeout_sec"] fields
  match Fields.get? fields "base_url" with
  | none => Value.misused .wrongType
  | some baseUrl =>
    return {
      baseUrl
      token := fields.getD "token" ""
      verifyTls := fields.getD "verify_tls" (.bool true)
      caFile := fields.getD "ca_file" .null
      timeout := fields.getD "timeout_sec" (.int 30) }

/-- A client that adds its headers to those of its session. -/
def ofOptions (options : Options) (session : Fields := []) : Except Fault (Client Seconds) := do
  if !options.baseUrl.truthy then throw (.badValue .baseUrlRequired)
  let baseUrl ← trimmedUrl options.baseUrl
  let timeout ← options.timeout.toFraction
  let headers := Fields.setAll session ownHeaders
  return {
    baseUrl, timeout := .fraction timeout
    verify := options.caFile.orElse (.bool options.verifyTls.truthy)
    headers := if options.token.truthy then
        Fields.set headers "Authorization" (.text ("Bearer " ++ options.token.display))
      else headers }

def collectionPath (space : Value) : Text :=
  "api/v1/namespaces/" ++ space.display ++ "/services"

def servicePath (space name : Value) : Text := collectionPath space ++ "/" ++ name.display

variable {τ : Type} [TimeScale τ]

def request (c : Client τ) (method : Method) (path : Text) (body : Option Fields) (timeout : τ) :
    Request τ where
  method := method
  url := c.baseUrl ++ "/" ++ path
  body := body
  timeout := timeout
  verify := c.verify
  authorization := c.headers.getD "Authorization" .null

def failure (c : Client τ) (method : Method) (path : Text) (status body detail : Value) : Fault :=
  .api { status, method := method.name, url := c.baseUrl ++ "/" ++ path, body, detail }

/-- What a response that is no error holds; no content counts as an empty object. -/
def contents (c : Client τ) (method : Method) (path : Text) (r : Response) :
    Except Fault Fields :=
  if r.content.isEmpty then .ok []
  else
    match r.content.value with
    | .error e =>
      if e.problem = .tooDeep then .error (.misuse .tooDeep)
      else
        .error (c.failure method path r.status (snippet r.content.text)
          (.text ("invalid JSON: " ++ e.message)))
    | .ok (.map fields) => .ok fields
    | .ok v =>
      .error (c.failure method path r.status (snippet ((Json.write? v).getD ""))
        "expected a JSON object")

/-- The entry for a response: only an unexpected error is a warning. -/
def responseEntry (method : Method) (path : Text) (r : Response) (failed : Bool) : Log.Entry :=
  let line : List Log.Argument := [method.name, path]
  let status : Log.Argument := .value r.status
  if !failed then ⟨.debug, "%s %s -> %s", line ++ [status]⟩
  else if r.isNotFound && method = .get then ⟨.debug, "%s %s -> 404", line⟩
  else ⟨.warning, "%s %s -> %s: %s", line ++ [status, snippet r.content.text]⟩

/-- The status of a failure that was no response. -/
def noStatus : Value := .int 0

/-- What becomes of a request, by its reply. A timeout that the context is to blame for is
the context's. -/
def receive (c : Client τ) (ctx : RequestContext τ) (method : Method) (path : Text) :
    Reply → Attempt τ (Request τ) Reply Fields
  | .timedOut text => do
    ctx.check
    Attempt.log ⟨.warning, "%s %s timed out: %s", [method.name, path, .object text]⟩
    throw (c.failure method path noStatus "" "timed out")
  | .failed text => do
    Attempt.log ⟨.warning, "%s %s failed: %s", [method.name, path, .object text]⟩
    throw (c.failure method path noStatus "" text)
  | .unwritable obstacle => throw obstacle.fault
  | .response r => do
    let failed ← r.isFailure
    Attempt.log (responseEntry method path r failed)
    if failed then
      throw (c.failure method path r.status (snippet r.content.text) (r.reason.orElse ""))
    else c.contents method path r

def send (c : Client τ) (ctx : RequestContext τ) (method : Method) (path : Text)
    (body : Option Fields) : Attempt τ (Request τ) Reply Fields := do
  ctx.check
  let timeout ← ctx.timeout (.ok c.timeout)
  c.receive ctx method path (← Attempt.call (c.request method path body timeout))

/-- The service some fields describe; the one that was sent, when there are none. -/
def serviceOr (sent : Service) (fields : Fields) : Except Fault Service :=
  if fields.isEmpty then .ok sent else Service.ofManifest (.map fields)

/-- A failure with status 404 says that there is no such service. -/
def missing (space name : Value) : Fault → Fault
  | .api f => if f.status.eqv Response.notFound then .notFound space name else .api f
  | f => f

def answer (c : Client τ) (ctx : RequestContext τ) :
    ServiceCall → Attempt τ (Request τ) Reply Service
  | .read space name => do
    let fields ← (c.send ctx .get (servicePath space name) none).mapFault (missing space name)
    Service.ofManifest (.map fields)
  | .create service => do
    let body ← service.manifest
    serviceOr service (← c.send ctx .post (collectionPath service.space) (some body))
  | .update service => do
    let body ← service.manifest
    serviceOr service (← c.send ctx .put (servicePath service.space service.name) (some body))

end Client

end Keeper
