import Keeper.Value.Basic

/-!
# Keeper — log entries

An entry is a template and the arguments for its placeholders, kept apart until it is written: what
is secret is taken out of each of them before.

* **`Level`** — the named levels.
* **`Argument`** — a value, or an object of which only the text is known.
* **`Entry`** — what is logged.
-/

namespace Keeper.Log

inductive Level where
  | debug
  | info
  | warning
  | error
deriving DecidableEq, Inhabited, Repr

namespace Level

def rank : Level → Int
  | .debug => 10
  | .info => 20
  | .warning => 30
  | .error => 40

end Level

def rankName (rank : Int) : Option Text :=
  if rank = 50 then some "CRITICAL"
  else if rank = 40 then some "ERROR"
  else if rank = 30 then some "WARNING"
  else if rank = 20 then some "INFO"
  else if rank = 10 then some "DEBUG"
  else if rank = 0 then some "NOTSET"
  else none

inductive Argument where
  | value (v : Value)
  /-- An object that is no value, such as an error, by its text. -/
  | object (shown : Text)
deriving DecidableEq, Inhabited

instance : Coe Value Argument := ⟨.value⟩
instance : Coe Text Argument := ⟨fun t => .value (.text t)⟩

structure Entry where
  level : Level
  template : Text
  arguments : List Argument := []
deriving DecidableEq, Inhabited

end Keeper.Log
