import Keeper.Cluster.Store
import Keeper.Files.Path

/-!
# Keeper — a store behind requests

A store that is reached by requests. It refuses to create a service that is there and to update one
from any other version than the stored one.

* **`target?`** — the service or collection a URL names.
* **`Store.reply`** — the reply to a request.
-/

namespace Keeper.Cluster

open Http (Request Response Method Reply)

/-- What a URL names: the services of a namespace, or one of them. -/
structure Target where
  space : Text
  name : Option Text
deriving DecidableEq, Repr

/-- A namespace and what comes before it in a path, last segment first. -/
def collection? : List Text → Option Text
  | space :: namespaces :: version :: root :: _ :: _ =>
    if space.isEmpty || namespaces != "namespaces" || version != "v1" || root != "api" then none
    else some space
  | _ => none

/-- What a URL names for a method: a collection to create in, a service for anything
else. -/
def target? (method : Method) (url : Text) : Option Target :=
  match method, (Files.names url).reverse with
  | .post, services :: rest =>
    if services = "services" then (collection? rest).map fun space => ⟨space, none⟩ else none
  | .post, [] => none
  | _, name :: services :: rest =>
    if services = "services" && !name.isEmpty then
      (collection? rest).map fun space => ⟨space, some name⟩
    else none
  | _, _ => none

def refusal (status : Int) (reason text : Text) : Response :=
  { status := .int status, reason, content := .bytes (Text.Utf8.encode text) }

def noPath : Response := refusal 404 "Not Found" "no such path"

def notStored (name : Text) : Response :=
  refusal 404 "Not Found" ("services \"" ++ name ++ "\" not found")

def alreadyStored (name : Text) : Response :=
  refusal 409 "Conflict" ("services \"" ++ name ++ "\" already exists")

def outdated : Response := refusal 409 "Conflict" "the object has been modified"

def accepted (status : Int) (reason : Text) (manifest : Fields) : Response :=
  { status := .int status, reason, content := .document manifest }

namespace Store

def respondGet (store : Store) (space name : Text) : Response :=
  match store.find? (.text space, .text name) with
  | some manifest => accepted 200 "OK" manifest
  | none => notStored name

/-- Stores a new service under the name it gives itself. -/
def respondPost (store : Store) (space : Text) (body : Fields) : Response × Store :=
  match ((fieldsAt body "metadata").getD "name" .null).key with
  | .error _ => (noPath, store)
  | .ok name =>
    match store.find? (.text space, name) with
    | some _ => (alreadyStored name.display, store)
    | none =>
      let manifest := created body
      (accepted 201 "Created" manifest, store.insert (.text space, name) manifest)

/-- Stores a service over the version it was made from. -/
def respondPut (store : Store) (space name : Text) (body : Fields) : Response × Store :=
  match store.find? (.text space, .text name) with
  | none => (notStored name, store)
  | some stored =>
    if !(storedVersion body).eqv (storedVersion stored) then (outdated, store)
    else
      match succeeding stored body with
      | .error _ => (outdated, store)
      | .ok manifest =>
        (accepted 200 "OK" manifest, store.insert (.text space, .text name) manifest)

def respond {τ : Type} (store : Store) (r : Request τ) : Response × Store :=
  let body := r.body.getD []
  match target? r.method r.url with
  | none => (noPath, store)
  | some ⟨space, none⟩ => store.respondPost space body
  | some ⟨space, some name⟩ =>
    match r.method with
    | .put => store.respondPut space name body
    | _ => (store.respondGet space name, store)

/-- A response as it arrives: of a manifest, what can be read again, unless it cannot be
written. -/
def deliver (r : Response) : Reply :=
  match r.content with
  | .bytes _ => .response r
  | .document fields =>
    match Json.plainFields? fields with
    | some plain => .response { r with content := .document plain }
    | none => .unwritable ((Json.obstacle? (.map fields)).getD .unknownKind)

def reply {τ : Type} (store : Store) (r : Request τ) : Reply × Store :=
  let (response, store) := store.respond r
  (deliver response, store)

end Store

end Keeper.Cluster
