import Keeper.Cluster.Endpoint
import Keeper.Cycle

/-!
# Keeper — scenes

Surroundings for a cycle that are known in full: a clock, a store, and what happens between the
calls of the cycle, such as the writes of others or a call that fails.

* **`Clock`** — readings that were laid out, and then the time.
* **`Disturbance`** — what happens before a certain call.
* **`Scene`** — the state; `Scene.direct` and `Scene.overHttp` are the surroundings it makes.
-/

namespace Keeper.Cluster

/-- A clock: the readings laid out for it come first, then it shows the time. -/
structure Clock where
  ticks : List Seconds := []
  time : Seconds
deriving Inhabited

namespace Clock

def read (c : Clock) : Seconds × Clock :=
  match c.ticks with
  | [] => (c.time, c)
  | t :: rest => (t, { c with ticks := rest })

def advance (c : Clock) (span : Seconds) : Except Fault Clock := do
  return { c with time := ← c.time.add span }

end Clock

/-- What kind of call a disturbance waits for. -/
inductive Moment where
  | read
  | create
  | update
deriving DecidableEq, Repr

/-- What happens before the `nth` call of a kind: time passes, the context is cancelled,
others clear the store or write to it, and the call fails. -/
structure Disturbance (φ : Type) where
  before : Moment
  nth : Nat := 1
  advance : Option Seconds := none
  cancel : Bool := false
  clear : Bool := false
  put : List Fields := []
  fail : Option φ := none

/-- A scene in which calls `ω` are made that may be made to fail with `φ`. -/
structure Scene (ω φ : Type) where
  clock : Clock
  store : Store := []
  cancelled : Bool := false
  disturbances : List (Disturbance φ) := []
  /-- Whether a context can be cancelled from outside. -/
  cancellable : Bool := true
  /-- The calls that have been made, the last one first. -/
  calls : List ω := []
  /-- What has been logged, the last entry first. -/
  entries : List Log.Entry := []

namespace Scene

variable {ω φ ρ : Type}

def disturb (s : Scene ω φ) (d : Disturbance φ) : Scene ω φ :=
  let clock := match d.advance with
    | some span => (s.clock.advance span).toOption.getD s.clock
    | none => s.clock
  let store : Store := if d.clear then [] else s.store
  { s with
    clock
    cancelled := s.cancelled || (d.cancel && s.cancellable)
    store := (store.put d.put).toOption.getD store }

/-- Records a call and lets happen what was to happen before it; the last failure laid out
for it is the one that counts. -/
def arrive (s : Scene ω φ) (momentOf : ω → Moment) (op : ω) : Option φ × Scene ω φ :=
  let s := { s with calls := op :: s.calls }
  let nth := (s.calls.filter fun c => momentOf c = momentOf op).length
  let due := s.disturbances.filter fun d => d.before = momentOf op && d.nth = nth
  ((due.filterMap (·.fail)).getLast?, due.foldl disturb s)

/-- Surroundings in which calls are answered by `answer` unless they are made to fail. -/
def surroundings (momentOf : ω → Moment) (failure : φ → ρ)
    (answer : ω → Scene ω φ → ρ × Scene ω φ) : Surroundings (Scene ω φ) Seconds ω ρ where
  cancelled s := s.cancelled
  now s := let (t, clock) := s.clock.read; (t, { s with clock })
  log entry s := { s with entries := entry :: s.entries }
  call op s :=
    match s.arrive momentOf op with
    | (some f, s) => (failure f, s)
    | (none, s) => answer op s

/-- Forgets what was recorded and lays out new disturbances. -/
def fresh (s : Scene ω φ) (disturbances : List (Disturbance φ)) : Scene ω φ :=
  { s with disturbances, calls := [], entries := [] }

end Scene

def callMoment : ServiceCall → Moment
  | .read _ _ => .read
  | .create _ => .create
  | .update _ => .update

def requestMoment (r : Http.Request Seconds) : Moment :=
  match r.method with
  | .get => .read
  | .post => .create
  | .put => .update

/-- Service calls answered by the store of a scene. -/
def Scene.direct : Surroundings (Scene ServiceCall Fault) Seconds ServiceCall (Except Fault Service) :=
  Scene.surroundings callMoment .error fun op s =>
    let (answer, store) := s.store.answer op
    (answer, { s with store })

/-- Requests answered by the store of a scene. -/
def Scene.overHttp :
    Surroundings (Scene (Http.Request Seconds) Http.Reply) Seconds (Http.Request Seconds) Http.Reply :=
  Scene.surroundings requestMoment id fun r s =>
    let (reply, store) := s.store.reply r
    (reply, { s with store })

/-- The reply to every request once a script has run out. -/
def Scene.blankReply : Http.Reply := .response { status := .int 200, content := .bytes [] }

/-- Requests answered by a script if there is one, whatever was to fail, and else by the
store. -/
def Scene.scripted :
    Surroundings (Scene (Http.Request Seconds) Http.Reply × Option (List Http.Reply)) Seconds
      (Http.Request Seconds) Http.Reply where
  cancelled s := s.1.cancelled
  now s := let (t, scene) := Scene.overHttp.now s.1; (t, scene, s.2)
  log entry s := (Scene.overHttp.log entry s.1, s.2)
  call r s :=
    match s.2 with
    | none => let (reply, scene) := Scene.overHttp.call r s.1; (reply, scene, none)
    | some [] => (blankReply, (s.1.arrive requestMoment r).2, some [])
    | some (reply :: rest) => (reply, (s.1.arrive requestMoment r).2, some rest)

end Keeper.Cluster
