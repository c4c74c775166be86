import Keeper.Log.Template
import Keeper.Redaction.Basic

/-!
# Keeper — log records

A record is what becomes of a message on its way to the sinks. Secrets are taken out of the
template and of the arguments separately, before they are put together.

* **`Record`** — a template of any kind and its arguments.
* **`Record.redacted`** — the record without secrets.
* **`Record.text`** — what is written.
-/

namespace Keeper.Log

structure Record where
  template : Value
  arguments : Arguments
deriving Inhabited

/-- A map that is the only argument provides the keys of a template, unless it is
empty. -/
def Arguments.ofList : List Argument → Arguments
  | [.value (.map fields)] =>
    if fields.isEmpty then .positional [.value (.map fields)] else .keyed fields
  | args => .positional args

namespace Argument

/-- An argument without secrets: only a text can be looked into. -/
def redacted : Argument → Argument
  | .value (.text s) => .value (.text (Redaction.redact s))
  | a => a

end Argument

namespace Arguments

/-- Arguments without secrets: values with keys become texts. -/
def redacted : Arguments → Arguments
  | .positional args => .positional (args.map Argument.redacted)
  | .keyed fields => .keyed (fields.map fun (k, v) => (k, .text (Redaction.redact v.display)))

end Arguments

namespace Record

def make (template : Value) (args : List Argument) : Record := ⟨template, .ofList args⟩

def ofEntry (e : Entry) : Record := make (.text e.template) e.arguments

/-- The record without secrets. -/
def redacted (r : Record) : Record where
  template := match r.template with
    | .text s => .text (Redaction.redact s)
    | v => v
  arguments := r.arguments.redacted

def text (r : Record) : Except Fault Text := message r.template.display r.arguments

end Record

end Keeper.Log
