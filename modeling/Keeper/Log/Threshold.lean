import Keeper.Fault
import Keeper.Log.Basic
import Keeper.Text.Case

/-!
# Keeper — thresholds

A handler passes what is logged at its threshold or above. Thresholds are configured by name, in
any case; a name that says nothing leaves the default.

* **`namedThreshold?`** — the threshold of a name.
* **`threshold`** — the threshold a configured value asks for.
-/

namespace Keeper.Log

/-- The name of the basic layout of a line, which is no threshold. -/
def layoutName : Text := "BASIC_FORMAT"

def basicLayout : Text := "%(levelname)s:%(name)s:%(message)s"

/-- The name of the table of layouts, which is no threshold either. -/
def layoutsName : Text := "_STYLES"

def namedThreshold? : String → Option Int
  | "CRITICAL" | "FATAL" => some 50
  | "ERROR" => some 40
  | "WARNING" | "WARN" => some 30
  | "INFO" => some 20
  | "DEBUG" => some 10
  | "NOTSET" => some 0
  | _ => none

/-- The threshold a configured value asks for. The names of layouts are refused, any other
name that is unknown is passed over. -/
def threshold (configured : Value) (default : Int) : Except Fault Int :=
  let name := Text.upperAscii configured.display
  if name = layoutName then .error (.badValue (.unknownLevel basicLayout))
  else if name = layoutsName then .error (.misuse .wrongType)
  else .ok ((name.string?.bind namedThreshold?).getD default)

end Keeper.Log
