import Keeper.Text.Utf8
import Keeper.Value.Display

/-!
# Keeper — faults

Everything that can go wrong, as a cause. The wording of a cause is a function of it, in
`Fault.wording`; nothing else builds error texts.

* **`Misuse`** — a value of the wrong shape, or a file that cannot be read; it has no wording.
* **`BadValue`** — a value of the right shape that is not acceptable.
* **`Refusal`** — why an owner cannot be recorded on a service.
* **`Halt`** — why a request context stops a cycle.
* **`ApiFailure`** — a failed call to the control plane.
* **`Fault`** — all of them, and a cycle's own error, which wraps the one it met.
-/

namespace Keeper

/-- A value of the wrong shape for what is done with it, or a file of the wrong kind. -/
inductive Misuse where
  /-- Fields are read from something that is not a map. -/
  | notAMap
  /-- An operation does not exist for this kind of value. -/
  | wrongType
  /-- A thing has no such part, or the part cannot be written. -/
  | noSuchPart
  /-- A map has no such key. -/
  | missingKey
  /-- A list has no such item. -/
  | missingItem
  /-- A number is too large for the conversion. -/
  | tooLarge
  /-- A file is wanted where a directory stands. -/
  | isDirectory
  /-- A directory is wanted where a file stands. -/
  | notADirectory
  /-- A directory is to be made where a file stands. -/
  | fileExists
  /-- There is no such file or directory. -/
  | missingFile
  /-- A name is too long for a file, or too short for a variable. -/
  | badName
  /-- A value is a part of itself. -/
  | endless
  /-- Values are nested too deeply. -/
  | tooDeep
  /-- A cycle came to an end without a result. -/
  | noResult
deriving DecidableEq, Repr

inductive BadValue where
  /-- What has the given literal writes no integer in a base. -/
  | integerText (base : Nat) (literal : Text)
  | fractionText (t : Text)
  /-- An integer is written with more digits than are read, or would be written with more. -/
  | tooManyDigits (count : Nat)
  | unwritableInteger
  | notANumber
  | pairLength (index length : Nat)
  | ownerNameRequired
  | namespaceRequired
  | baseUrlRequired
  | integerWanted (key : Text) (value : Value)
  | missingConfiguration (paths : List Text)
  | notAMapping (path : Text)
  | unknownLevel (text : Text)
  | codePoint
  | year (n : Nat)
  | month
  | day
  | hour
  | minute
  | second
  | offset (hours minutes : Nat) (negative : Bool)
  | incompleteFormat
  | incompleteFormatKey
  | unsupportedFormat (kind : CodePoint) (index : Nat)
  | widthTooBig
  | precisionTooBig
  | variableName
  | nullByte
  | stated (text : Text)
deriving DecidableEq

namespace BadValue

/-- The literal of a span of time, as days and the seconds of a day. -/
def spanLiteral (hours minutes : Nat) (negative : Bool) : Text :=
  let seconds : Int := (if negative then -1 else 1) * (hours * 3600 + minutes * 60 : Nat)
  let part (name : Text) (n : Int) : List Text :=
    if n = 0 then [] else [name ++ "=" ++ Keeper.integerText n]
  "datetime.timedelta("
    ++ Text.intercalate ", " (part "days" (seconds.fdiv 86400) ++ part "seconds" (seconds.fmod 86400)) ++ ")"

def literalLimit : Nat := 200

def message : BadValue → Text
  | .integerText base literal =>
    "invalid literal for int() with base " ++ toString base ++ ": " ++ literal.take literalLimit
  | .codePoint => "chr() arg not in range(0x110000)"
  | .year n => "year " ++ toString n ++ " is out of range"
  | .month => "month must be in 1..12"
  | .day => "day is out of range for month"
  | .hour => "hour must be in 0..23"
  | .minute => "minute must be in 0..59"
  | .second => "second must be in 0..59"
  | .offset hours minutes negative =>
    "offset must be a timedelta strictly between -timedelta(hours=24) and timedelta(hours=24), not "
      ++ spanLiteral hours minutes negative
  | .fractionText t => "could not convert string to float: " ++ t.quoted
  | .tooManyDigits count =>
    "Exceeds the limit (4300 digits) for integer string conversion: value has " ++ toString count
      ++ " digits; use sys.set_int_max_str_digits() to increase the limit"
  | .unwritableInteger =>
    "Exceeds the limit (4300 digits) for integer string conversion; use sys.set_int_max_str_digits() "
      ++ "to increase the limit"
  | .notANumber => "cannot convert float NaN to integer"
  | .pairLength index length =>
    "dictionary update sequence element #" ++ toString index ++ " has length " ++ toString length
      ++ "; 2 is required"
  | .ownerNameRequired => "owner_name is required"
  | .namespaceRequired => "namespace is required"
  | .baseUrlRequired => "base_url is required"
  | .integerWanted key value =>
    "Configuration key '" ++ key ++ "' must be an integer, got " ++ value.literal
  | .missingConfiguration paths => "Missing required configuration: " ++ Text.intercalate ", " paths
  | .notAMapping path => "Top-level YAML must be a mapping: " ++ path
  | .unknownLevel text => "Unknown level: " ++ text.quoted
  | .incompleteFormat => "incomplete format"
  | .incompleteFormatKey => "incomplete format key"
  | .unsupportedFormat kind index =>
    "unsupported format character '"
      ++ Text.single (if 31 ≤ kind.value && kind.value ≤ 126 then kind else .char '?')
      ++ "' (0x" ++ Text.ofChars (Nat.toDigits 16 kind.value) ++ ") at index " ++ toString index
  | .widthTooBig => "width too big"
  | .precisionTooBig => "precision too big"
  | .variableName => "illegal environment variable name"
  | .nullByte => "embedded null byte"
  | .stated text => text

end BadValue

inductive OwnerPart where
  | apiVersion
  | kind
  | name
  | uid
deriving DecidableEq, Repr

namespace OwnerPart

def label : OwnerPart → Text
  | .apiVersion => "api_version"
  | .kind => "kind"
  | .name => "name"
  | .uid => "uid"

end OwnerPart

inductive Refusal where
  | missing (parts : List OwnerPart)
  | otherNamespace (owner service : Value)
  | controlled (service : Text) (kind name : Value)
  | stated (text : Text)
deriving DecidableEq

namespace Refusal

def message : Refusal → Text
  | .missing parts => "owner is missing " ++ Text.intercalate ", " (parts.map OwnerPart.label)
  | .otherNamespace owner service =>
    "cross-namespace owner references are disallowed, owner's namespace \"" ++ owner.display
      ++ "\", obj's namespace \"" ++ service.display ++ "\""
  | .controlled service kind name =>
    "service \"" ++ service ++ "\" is already owned by another " ++ kind.display ++ " controller "
      ++ name.display
  | .stated text => text

end Refusal

inductive Halt where
  | cancelled
  | deadlineExceeded
  | stated (text : Text)
deriving DecidableEq, Repr

namespace Halt

def message : Halt → Text
  | .cancelled => "context cancelled"
  | .deadlineExceeded => "context deadline exceeded"
  | .stated text => text

end Halt

def snippetLength : Nat := 200

/-- The first characters of a text, as many as an error shows. -/
def snippet (t : Text) : Text := t.take snippetLength

/-- The first items of a value, as many as an error shows; nothing of a value that has no
first ones. -/
def snippet? : Value → Option Text
  | .text t => some (snippet t)
  | .scalar (.bytes bs) => some (Scalar.bytes (bs.take snippetLength)).literal
  | .list xs => some (Value.list (xs.take snippetLength)).literal
  | .tuple xs => some (Value.tuple (xs.take snippetLength)).literal
  | _ => none

/-- A failed call to the control plane; status 0 means that there was no answer. -/
structure ApiFailure where
  status : Value
  method : Value
  url : Value
  body : Value := ""
  detail : Value := ""
deriving DecidableEq, Repr

namespace ApiFailure

/-- The wording of a failure; there is none when the body cannot be cut. -/
def wording (f : ApiFailure) : Option Text := do
  let shown : Text ← if f.body.truthy then (snippet? f.body).map (" body=" ++ ·) else some ""
  return "TransientAPIError(status=" ++ f.status.display ++ ", " ++ f.method.display ++ " "
    ++ f.url.display ++ ")"
    ++ (if f.detail.truthy then ": " ++ f.detail.display else "") ++ shown

end ApiFailure

/-- What a cycle was doing when it failed, by the name of its phase. -/
def phaseVerbs : List (Text × Text) :=
  [("start", "set the controller reference for"), ("reading", "get"), ("creating", "create"),
    ("writing", "update"), ("confirming", "get existing")]

/-- What a cycle was doing, said by a verb or else by the phase itself; a phase must be
able to be a key. -/
def phaseVerb : Value → Option Text
  | .text name => some ((phaseVerbs.lookup name).getD name)
  | .scalar s => some s.display
  | .tuple xs => some (Value.tuple xs).literal
  | _ => none

/-- A cause of failure. -/
inductive Fault where
  | api (failure : ApiFailure)
  | notFound (space name : Value)
  | linkage (refusal : Refusal)
  | general (text : Text)
  | halted (halt : Halt)
  | badValue (value : BadValue)
  /-- The bytes of a file are not text. -/
  | undecodable (failure : Text.Utf8.Failure)
  /-- A text has no bytes for the system. -/
  | unencodable (gap : Text.Utf8.Gap)
  | misuse (misuse : Misuse)
  /-- A record is given a field it does not have. -/
  | unknownField (record field : Text)
  /-- A document is not well formed. -/
  | document
  /-- A failed cycle: the phase it was in, the resource it was about, and what it met. -/
  | cycle (cancelled : Bool) (phase resource : Value) (cause : Option Fault)
deriving Inhabited

namespace Fault

/-- The wording of a fault, if it can be worded; a misuse and a malformed document have an
empty one. -/
def wording : Fault → Option Text
  | .api failure => failure.wording
  | .notFound space name =>
    some ("service \"" ++ space.display ++ "/" ++ name.display ++ "\" not found")
  | .linkage refusal => some refusal.message
  | .general text => some text
  | .halted halt => some halt.message
  | .badValue value => some value.message
  | .undecodable failure => some failure.message
  | .unencodable gap => some gap.message
  | .misuse _ => some ""
  | .unknownField record field =>
    some (record ++ ".__init__() got an unexpected keyword argument '" ++ field ++ "'")
  | .document => some ""
  | .cycle _ phase resource cause => do
    let verb ← phaseVerb phase
    let reason : Text ← match cause with
      | none => some ""
      | some fault => (wording fault).map (": " ++ ·)
    return "failed to " ++ verb ++ " service \"" ++ resource.display ++ "\"" ++ reason

def message (f : Fault) : Text := f.wording.getD ""

/-- The faults a cycle reports under its own name: those of the library's own taxonomy,
and a context that stops it. -/
def isReported : Fault → Bool
  | .api _ | .notFound _ _ | .linkage _ | .general _ | .halted _ | .cycle .. => true
  | _ => false

/-- The faults that say that a value is not acceptable. -/
def isBadValue : Fault → Bool
  | .badValue _ | .undecodable _ | .unencodable _ => true
  | _ => false

def isHalt : Fault → Bool
  | .halted _ => true
  | _ => false

end Fault

end Keeper
