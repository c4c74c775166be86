import Keeper.Clock.Context
import Keeper.Json.Plain
import Keeper.Text.Utf8
import Keeper.Value.Order

/-!
# Keeper — requests and replies

What goes over the wire to the control plane and what comes back.

* **`Request`** — a request, with the time it may take.
* **`Response`** — a status and a content; `Response.document` reads the content.
* **`Reply`** — a response, or the lack of one.
-/

namespace Keeper.Http

inductive Method where
  | get
  | post
  | put
deriving DecidableEq, Repr

namespace Method

def name : Method → Text
  | .get => "GET"
  | .post => "POST"
  | .put => "PUT"

end Method

/-- A request. `verify` says how the server's certificate is checked, `authorization` is
null for a request without credentials. -/
structure Request (τ : Type) where
  method : Method
  url : Text
  body : Option Fields
  timeout : τ
  verify : Value
  authorization : Value
deriving DecidableEq

/-- The content of a response: bytes as they came, or a document known by what it
writes. -/
inductive Content where
  | bytes (bs : List UInt8)
  | document (fields : Fields)
deriving DecidableEq, Inhabited

namespace Content

/-- The content as text; bytes that are no text are replaced. -/
def text : Content → Text
  | .bytes bs => .ofChars (Text.Utf8.decodeLossy bs)
  | .document fields => (Json.write? (.map fields)).getD ""

def isEmpty : Content → Bool
  | .bytes bs => bs.isEmpty
  | .document _ => false

def value : Content → Except Json.Failure Value
  | .bytes bs => Json.parse (Text.Utf8.decodeLossy bs)
  | .document fields => .ok (.map fields)

end Content

structure Response where
  status : Value
  reason : Value := ""
  content : Content
deriving DecidableEq, Inhabited

namespace Response

def leastFailure : Value := .int 400

def notFound : Value := .int 404

/-- Whether a response says that its request has failed; a status must be a number. -/
def isFailure (r : Response) : Except Fault Bool :=
  match r.status.lt? leastFailure, leastFailure.lt? r.status with
  | some below, some above => .ok (above || (!below && r.status.eqv leastFailure))
  | _, _ => .error (.misuse .wrongType)

def isNotFound (r : Response) : Bool := r.status.eqv notFound

end Response

/-- What comes of a request: a response, no response in time, or a failure to get one. -/
inductive Reply where
  | response (r : Response)
  | timedOut (text : Text)
  | failed (text : Text)
  /-- What is to be sent in reply cannot be written. -/
  | unwritable (obstacle : Json.Obstacle)
deriving DecidableEq, Inhabited

end Keeper.Http
