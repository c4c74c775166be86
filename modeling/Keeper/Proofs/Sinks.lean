import Keeper.Proofs.LogSetup

/-!
# Keeper — the sinks of a log

However often logs are set up below one base name, the base keeps one handler for the console and one
for the file of the day, those of the last set-up, and each run keeps one for its own file.

* **`Unset`** — the loggers below a base name have no handlers yet.
* **`Course`** — set-ups below one base name, and what is logged in between.
* **`Course.kept`** — what holds of the loggers after any course.
* **`Settled`** — the handlers after a set-up, and to which of them a record is offered.
* **`sinks_never_multiply`** — that is how it is after every set-up.
-/

namespace Keeper.Log

open Loggers Setup

/-- The loggers below a base name have no handlers yet. The name of the root may begin
with the base name: then the loggers behind the base name lead to it, and none waits for
it. -/
structure Unset (name : Text) (start : Journal) : Prop where
  reached : Reached start.loggers
  leads : isRootName name = false → rootName.startsWith name = true →
    start.loggers.Leads name ∧ start.loggers.Unawaited name
  base : (start.loggers.get name).handlers = []
  below : ∀ n, Under name n → (start.loggers.get n).handlers = []

theorem get_initial (n : Text) : (initial.get n).handlers = [] := by
  cases hroot : isRootName n with
  | true =>
    rw [get_of_root hroot]
    rfl
  | false => rw [get_of_not_known hroot (by simp [Known, slot?, initial])]

theorem unset_initial (name : Text) : Unset name {} where
  reached := .initial
  leads := fun _ _ => ⟨by simp [Leads, slot?, initial], by simp [Unawaited, Awaits, slot?, initial]⟩
  base := get_initial name
  below := fun n _ => get_initial n

/-- A journal comes about by set-ups below a base name, of which some are refused, and by
what is logged after the first of them; and so do the adapters that are handed out. -/
inductive Course (name : Text) (start : Journal) : List Adapter → Journal → Prop where
  | start : Course name start [] start
  | setUp {given : List Adapter} {j j' : Journal} {s : Setup} {stamp : Stamp} {a : Adapter}
    (h : Course name start given j) (hname : s.name = .text name)
    (hrun : j.setUp stamp s = (.ok a, j')) : Course name start (a :: given) j'
  | refused {given : List Adapter} {j j' : Journal} {s : Setup} {stamp : Stamp} {f : Fault}
    (h : Course name start given j) (hname : s.name = .text name)
    (hrun : j.setUp stamp s = (.error f, j')) : Course name start given j'
  | log {given : List Adapter} {j : Journal} (h : Course name start given j) (hgiven : given ≠ [])
    (stamp : Stamp) (rank : Int) (source : Adapter) (record : Record) :
    Course name start given (j.log stamp rank source record)

section Course

variable {name : Text} {start j : Journal} {given : List Adapter}

/-- Where nothing is set up, what is kept at all times holds. The start of the course: no
adapter is given out yet, so only the shape of the registry matters. -/
theorem Unset.kept (h : Unset name start) : Kept name start.loggers [] start.loggers where
  orderly := h.reached.orderly
  leads := by
    intro hroot
    -- Below the root name nothing is claimed that the registry does not already guarantee.
    cases hstarts : rootName.startsWith name with
    | true => exact h.leads hroot hstarts
    | false =>
      refine ⟨h.reached.leads (points_ne_nil hroot) hstarts, fun hstarts' => ?_⟩
      rw [hstarts] at hstarts'
      cases hstarts'
  base := by
    rw [h.base]
    exact .inl rfl
  below := fun n hn => .inl (h.below n hn)
  elsewhere := fun _ _ => rfl
  held := by simp

/-- What holds of the loggers holds after every course, and there is the base once an
adapter has been handed out; the induction is on the course. -/
theorem Course.kept (hstart : Unset name start) (h : Course name start given j) :
    Kept name start.loggers given j.loggers ∧ (given ≠ [] → There name j.loggers) := by
  -- On the course: every kind of call keeps the invariant, also one that is refused half-way.
  induction h with
  | start => exact ⟨hstart.kept, by simp⟩
  | setUp _ hname hrun ih =>
    rcases meets_run hname _ _ ⟨ih.1, rfl⟩ with ⟨a, j', heq, hfinished⟩ | ⟨f, j', heq, -⟩
    · cases heq.symm.trans hrun
      exact ⟨hfinished.kept, fun _ => hfinished.there⟩
    · cases heq.symm.trans hrun
  | refused _ hname hrun ih =>
    rcases meets_run hname _ _ ⟨ih.1, rfl⟩ with ⟨a, j', heq, -⟩ | ⟨f, j', heq, hrefused⟩
    · cases heq.symm.trans hrun
    · cases heq.symm.trans hrun
      exact ⟨hrefused.kept, fun _ => hrefused.there⟩
  -- Logging may create the logger it names, but that one is among those already given.
  | log _ hgiven stamp rank source record ih =>
    rw [loggers_log]
    exact ⟨ih.1.ensure (.inr (ih.2 hgiven)), fun _ => (ih.2 hgiven).ensure ih.1.orderly _⟩

end Course

/-! ## What a record is offered to -/

/-- The action of a run has a text that does not begin with a dot; it may be any text
below the root. -/
def Traceable (name : Text) (a : Adapter) : Prop :=
  isRootName name = true
    ∨ ∃ p rest, p ≠ CodePoint.char '.' ∧ a.context.action.display.points = p :: rest

/-- The handlers after a set-up. The base has one for the console and one for the file of
the day, each run has one for its own file; and what is logged on a run of which the
action is traceable is offered to the handlers of runs, then once to each of those of the
base, and then to those that stood elsewhere before the first set-up. -/
structure Settled (name : Text) (start : Journal) (given : List Adapter) (console : Int)
    (daily : Files.Path) (j : Journal) : Prop where
  base : ∃ level, (j.loggers.get name).handlers.Perm
    [prepared .console console, prepared (.rolling daily) level]
  own : ∀ a ∈ given,
    a.logger = name ++ "." ++ a.context.action.display ++ "." ++ a.context.runId.display
      ∧ ∃ path level, (j.loggers.get a.logger).handlers = [prepared (.file path) level]
  offered : ∀ a ∈ given, Traceable name a → ∃ runs outer,
    j.loggers.handlersOf a.logger = runs ++ (j.loggers.get name).handlers ++ outer
      ∧ (∀ h ∈ runs, ∃ path level, h = prepared (.file path) level)
      ∧ ∀ h ∈ outer, ∃ n, Elsewhere name n ∧ h ∈ (start.loggers.get n).handlers
  logged : ∀ a ∈ given, ∀ stamp rank record, ownThreshold ≤ rank →
    j.log stamp rank a record = j.deliver stamp rank a record (j.loggers.handlersOf a.logger)

section Settled

variable {name : Text} {start j : Journal} {given : List Adapter}

/-- What is logged on a run with a traceable action comes by the base. An empty action
puts two dots in a row into the name, and then the base is no longer on the way up. -/
theorem Held.reaches {ls : Loggers} {a : Adapter} (h : Held name ls a) (htrace : Traceable name a) :
    Reaches name a.logger := by
  cases hroot : isRootName name with
  | true => exact .inl ⟨hroot, h.under⟩
  | false =>
    obtain ⟨p, rest, hp, haction⟩ := htrace.resolve_left (by simp [hroot])
    refine .inr ⟨hroot, p, rest ++ (Text.ofString ".").points ++ a.context.runId.display.points, hp, ?_⟩
    rw [h.logger]
    show name.points ++ [CodePoint.char '.'] ++ a.context.action.display.points ++ _ ++ _ = _
    rw [haction]
    simp

/-- Along the loggers behind the base name there are handlers of runs only. -/
theorem Kept.own_of_mem {ls : Loggers} {start : Loggers} (h : Kept name start given ls) {names : List Text}
    (hnames : ∀ n ∈ names, Under name n) :
    ∀ x ∈ ls.handlersAt names, ∃ path level, x = prepared (.file path) level := by
  intro x hx
  obtain ⟨n, hn, hmem⟩ := List.mem_flatMap.mp hx
  rcases h.below n (hnames n hn) with hnone | ⟨path, level, hown⟩
  · rw [hnone] at hmem
    cases hmem
  · rw [hown] at hmem
    exact ⟨path, level, List.mem_singleton.mp hmem⟩

/-- Handlers that stand elsewhere are those that stood there from the start. -/
theorem Kept.elsewhere_of_mem {ls : Loggers} {start : Loggers} (h : Kept name start given ls)
    {names : List Text} (hnames : ∀ n ∈ names, Elsewhere name n) :
    ∀ x ∈ ls.handlersAt names, ∃ n, Elsewhere name n ∧ x ∈ (start.get n).handlers := by
  intro x hx
  obtain ⟨n, hn, hmem⟩ := List.mem_flatMap.mp hx
  rw [h.elsewhere n (hnames n hn)] at hmem
  exact ⟨n, hnames n hn, hmem⟩

/-- A record that is no less than what a run lets through is handed to all handlers it
reaches. The run's own threshold decides, not that of the base, whose handlers have levels
of their own. -/
theorem Held.log_eq {a : Adapter} (h : Held name j.loggers a) (stamp : Stamp) {rank : Int}
    (record : Record) (hrank : ownThreshold ≤ rank) :
    j.log stamp rank a record = j.deliver stamp rank a record (j.loggers.handlersOf a.logger) := by
  have hthreshold : j.loggers.thresholdOf a.logger = ownThreshold := by
    rw [thresholdOf_of_ne_zero (by rw [h.threshold]; decide), h.threshold]
  have hpositive : ownThreshold = 10 := rfl
  -- The logger's own threshold is 10, so `hrank` is what lets the record pass.
  have hpasses : ¬(rank ≤ 0 || rank < j.loggers.thresholdOf a.logger) = true := by
    rw [hthreshold, Bool.or_eq_true, decide_eq_true_eq, decide_eq_true_eq]
    omega
  have hhandlers : j.loggers.handlersOf a.logger ≠ [] := by
    refine handlersOf_ne_nil ?_
    obtain ⟨path, level, hown⟩ := h.own
    simp [hown]
  have hsame : { j with loggers := j.loggers.ensure a.logger } = j := by
    rw [ensure_of_known h.known]
  unfold Journal.log
  rw [hsame]
  dsimp only
  rw [if_neg hpasses]
  split
  next hnone => exact (hhandlers hnone).elim
  next => rfl

end Settled

/-- **Sinks never multiply.** After any course of set-ups below one base name, whose
loggers had no handlers at first, a further set-up is refused, for want of a level, a
directory, a map or a file; or it hands out an adapter, and then there is one handler for
each sink, as the last set-up asks for it, and one for each run's own file, each with both
filters. `Kept` is the invariant, `Course.kept` its induction over the course, and one
set-up is a step of it whether it is refused or not. -/
theorem sinks_never_multiply {name : Text} {start j : Journal} {given : List Adapter}
    (hstart : Unset name start) (hcourse : Course name start given j) {s : Setup}
    (hname : s.name = .text name) (stamp : Stamp) :
    (∃ f j', j.setUp stamp s = (.error f, j') ∧ s.Refuses j.files stamp.day f)
      ∨ ∃ a j' directory console, j.setUp stamp s = (.ok a, j')
        ∧ a.context.runId = s.runId ∧ a.context.action = s.action
        ∧ s.directory = .text directory
        ∧ threshold s.consoleLevel Level.info.rank = .ok console
        ∧ Settled name start (a :: given) console (dailyPath j.files.here directory) j' := by
  -- The invariant holds after the course, and one more call is a single step from there.
  obtain ⟨hkept, -⟩ := hcourse.kept hstart
  rcases meets_run hname stamp j ⟨hkept, rfl⟩ with ⟨a, j', heq, hdone⟩ | ⟨f, j', heq, hrefused⟩
  swap
  · exact .inl ⟨f, j', heq, hrefused.refuses⟩
  obtain ⟨directory, hdirectory, console, level, hconsole, hperm⟩ := hdone.base
  refine .inr ⟨a, j', directory, console, heq, hdone.runId, hdone.action, hdirectory, hconsole, ?_⟩
  exact {
    base := ⟨level, hperm⟩
    own := fun b hb => ⟨(hdone.kept.held b hb).logger, (hdone.kept.held b hb).own⟩
    offered := by
      intro b hb htrace
      have hheld := hdone.kept.held b hb
      obtain ⟨nearer, outer, hhandlers, hnearer, houter⟩ :=
        handlersOf_of_reaches hdone.kept.orderly (fun hroot => (hdone.kept.leads hroot).1) hdone.there
          hheld.known (hheld.reaches htrace)
      exact ⟨_, _, hhandlers, hdone.kept.own_of_mem hnearer, hdone.kept.elsewhere_of_mem houter⟩
    logged := fun b hb stamp rank record hrank =>
      (hdone.kept.held b hb).log_eq stamp record hrank }

/-! One run is set up, and once more in another directory and with another level for the console. -/

namespace Moved

def stamp : Stamp where
  time := "2024-05-04T07:03:02Z"
  day := "2024-05-04"

def before : Setup where
  runId := "r"
  action := "reconcile"

def after : Setup where
  runId := "r"
  action := "reconcile"
  directory := "var"
  consoleLevel := "error"

end Moved

theorem sinks_never_multiply_moved :
    ∃ a a' j j', ({} : Journal).setUp Moved.stamp Moved.before = (.ok a, j)
      ∧ j.setUp Moved.stamp Moved.after = (.ok a', j')
      ∧ Settled "svcsync" {} [a', a] 40 ["var", "app.log"] j' := by
  have hfirst : (({} : Journal).setUp Moved.stamp Moved.before).1.toOption.isSome = true := by
    decide +kernel
  have hsecond : ((({} : Journal).setUp Moved.stamp Moved.before).2.setUp Moved.stamp
      Moved.after).1.toOption.isSome = true := by
    decide +kernel
  -- neither set-up is refused, so the theorem says what each of them comes to
  obtain ⟨f, j, hrefused, -⟩ | ⟨a, j, -, -, hrun, -⟩ :=
    sinks_never_multiply (unset_initial "svcsync") .start (s := Moved.before) rfl Moved.stamp
  · rw [hrefused] at hfirst
    cases hfirst
  rw [hrun] at hsecond
  obtain ⟨f, j', hrefused, -⟩ | ⟨a', j', directory, console, hrun', -, -, hdirectory, hconsole, hsettled⟩ :=
    sinks_never_multiply (unset_initial "svcsync") (.setUp .start rfl hrun) (s := Moved.after) rfl
      Moved.stamp
  · rw [hrefused] at hsecond
    cases hsecond
  have hthreshold : threshold Moved.after.consoleLevel Level.info.rank = .ok 40 := rfl
  have hhere : (({} : Journal).setUp Moved.stamp Moved.before).2.files.here = [] := by
    decide +kernel
  cases hdirectory
  cases hthreshold.symm.trans hconsole
  rw [hrun] at hhere
  have hdaily : dailyPath j.files.here "var" = ["var", "app.log"] := by
    rw [show j.files.here = [] from hhere]
    rfl
  rw [hdaily] at hsettled
  exact ⟨a, a', j, j', hrun, hrun', hsettled⟩

/-- A run of which the action has no text. -/
def mute : Setup where
  runId := "r"
  action := ""

/-- What is logged on a run without an action reaches neither sink of the base. Its name
has two dots in a row, and the library puts such a logger below the root. -/
theorem empty_action_unheard :
    let journal := (({} : Journal).setUp Moved.stamp mute).2
    (({} : Journal).setUp Moved.stamp mute).1.toOption.map Adapter.logger = some "svcsync..r"
      ∧ (journal.loggers.get "svcsync").handlers.map Handler.sink
        = [.console, .rolling ["logs", "app.log"]]
      ∧ (journal.loggers.handlersOf "svcsync..r").map Handler.sink
        = [.file ["logs", "2024-05-04", "_r.log"]] := by
  decide +kernel

end Keeper.Log
