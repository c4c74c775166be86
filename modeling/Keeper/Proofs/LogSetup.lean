import Keeper.Log.Setup
import Keeper.Proofs.Ancestry

/-!
# Keeper — setting up a log, step by step

What holds of the loggers below a base name at all times, and how a set-up keeps it so, whether it is
refused or not.

* **`Files.Tree.Made`** — directories and files made one after the other.
* **`Change.Meets`** — what a step of a set-up comes to, with one rule for each way to write a step.
* **`Kept`** — what holds of the loggers at all times; **`Kept.ensure`**, **`Kept.modify_base`** and
  **`Kept.modify_own`** are the changes that keep it.
* **`Setup.Refuses`** — why a set-up is refused.
* **`Setup.Midway`**, **`Setup.Begun`**, **`Setup.Finished`** — how far a set-up has come.
* **`Setup.meets_run`** — what a set-up comes to.
-/

namespace Keeper

/-! ## Files that are made -/

namespace Files.Tree

/-- Making directories adds entries to a tree and never moves the directory that
relative paths start from. A path therefore means the same before and after each
step of a set-up. -/
theorem here_makeWay {t t' : Tree} {p : Path} {way : List Text} (h : t.makeWay p way = .ok t') :
    t'.here = t.here := by
  induction way generalizing t p with
  | nil =>
    obtain rfl := Except.ok.inj h
    rfl
  | cons name rest ih =>
    rw [makeWay] at h
    obtain ⟨-, -, h⟩ := Fault.bind_eq_ok.mp h
    dsimp only at h
    -- a part of the way is made, is there already, or is in the way as a file
    split at h
    next =>
      have hrest := ih h
      exact hrest
    next => exact ih h
    next => cases h

/-- The same of a whole path given as a text. -/
theorem here_makeDirectories {t t' : Tree} {s : Text} (h : t.makeDirectories s = .ok t') :
    t'.here = t.here := by
  obtain ⟨-, -, h⟩ := Fault.bind_eq_ok.mp h
  dsimp only at h
  split at h
  · cases h
  · exact here_makeWay h

/-- The same of a file. -/
theorem here_touch {t t' : Tree} {s : Text} (h : t.touch s = .ok t') : t'.here = t.here := by
  obtain ⟨p, -, h⟩ := Fault.bind_eq_ok.mp h
  split at h
  · obtain rfl := Except.ok.inj h
    rfl
  · cases h
  · obtain rfl := Except.ok.inj h
    rfl

/-- A tree comes about from another one by making directories and files. -/
inductive Made (t : Tree) : Tree → Prop where
  | nothing : Made t t
  | directories {t' t'' : Tree} {s : Text} (h : Made t t') (hmade : t'.makeDirectories s = .ok t'') :
    Made t t''
  | file {t' t'' : Tree} {s : Text} (h : Made t t') (hmade : t'.touch s = .ok t'') : Made t t''

/-- So it stays through any number of steps, by induction on how the tree has come
about. -/
theorem Made.here {t t' : Tree} (h : Made t t') : t'.here = t.here := by
  induction h with
  | nothing => rfl
  | directories _ hmade ih => exact (here_makeDirectories hmade).trans ih
  | file _ hmade ih => exact (here_touch hmade).trans ih

end Files.Tree

namespace Log

open Loggers

/-! ## Steps of a set-up -/

namespace Change

variable {α β : Type} {step : Change α} {pre : Journal → Prop} {post : α → Journal → Prop}
  {fails : Fault → Journal → Prop}

/-- From a journal as it is before, a step leads to a result and a journal as they are
after it, or fails in one of the ways that are said. -/
def Meets (pre : Journal → Prop) (step : Change α) (post : α → Journal → Prop)
    (fails : Fault → Journal → Prop) : Prop :=
  ∀ j, pre j → (∃ a j', step.run.run j = (.ok a, j') ∧ post a j')
    ∨ ∃ f j', step.run.run j = (.error f, j') ∧ fails f j'

/-- A sequence of steps, run from a journal: the second step starts from the journal the
first one has left, and a failure ends the sequence. -/
theorem run_bind (step : Change α) (next : α → Change β) (j : Journal) :
    (step >>= next).run.run j = match step.run.run j with
      | (.ok a, j') => (next a).run.run j'
      | (.error f, j') => (.error f, j') := by
  simp only [ExceptT.run_bind, StateT.run_bind]
  rcases step.run.run j with ⟨f | a, j'⟩ <;> rfl

/-- The rule of sequencing. Both steps fail in the same ways, so that one description of
the failures serves for a whole set-up. -/
theorem Meets.bind {next : α → Change β} {post' : β → Journal → Prop}
    (hstep : Meets pre step post fails) (hnext : ∀ a, Meets (post a) (next a) post' fails) :
    Meets pre (step >>= next) post' fails := by
  intro j hj
  rw [run_bind]
  rcases hstep j hj with ⟨a, j', heq, hpost⟩ | ⟨f, j', heq, hfails⟩
  · rw [heq]
    exact hnext a j' hpost
  · rw [heq]
    exact .inr ⟨f, j', rfl, hfails⟩

theorem Meets.mono {pre' : Journal → Prop} (hstep : Meets pre step post fails)
    (h : ∀ j, pre' j → pre j) : Meets pre' step post fails :=
  fun j hj => hstep j (h j hj)

/-- A step that only gives a result leaves the journal as it is. -/
theorem meets_pure {a : α} (h : ∀ j, pre j → post a j) : Meets pre (pure a) post fails := by
  intro j hj
  exact .inl ⟨a, j, rfl, h j hj⟩

/-- A result that was there before the step is given, or its fault is; the journal is as
before in both cases, and a set-up that is refused has changed nothing at this point. -/
theorem meets_lift {x : Except Fault α} (hok : ∀ a, x = .ok a → ∀ j, pre j → post a j)
    (herror : ∀ f, x = .error f → ∀ j, pre j → fails f j) :
    Meets pre (liftM x : Change α) post fails := by
  intro j hj
  cases x with
  | ok a => exact .inl ⟨a, j, rfl, hok a rfl j hj⟩
  | error f => exact .inr ⟨f, j, rfl, herror f rfl j hj⟩

theorem meets_look {next : Journal → Change β} {post : β → Journal → Prop}
    (h : ∀ seen, pre seen → Meets (fun j => pre j ∧ j = seen) (next seen) post fails) :
    Meets pre (get >>= next) post fails := by
  intro j hj
  rw [run_bind]
  exact h j hj j ⟨hj, rfl⟩

theorem meets_modify {change : Journal → Journal} {post : Unit → Journal → Prop}
    (h : ∀ j, pre j → post () (change j)) : Meets pre (modify change : Change Unit) post fails := by
  intro j hj
  exact .inl ⟨(), change j, rfl, h j hj⟩

end Change

/-! ## The loggers below a base name -/

/-- Handlers of the base but for the console: none, or one for the file of the day. -/
def Daily (hs : List Handler) : Prop := hs = [] ∨ ∃ path level, hs = [prepared (.rolling path) level]

/-- Handlers of a run: one, for its own file. -/
def Own (hs : List Handler) : Prop := ∃ path level, hs = [prepared (.file path) level]

/-- The logger of an adapter that was handed out. -/
structure Held (name : Text) (ls : Loggers) (a : Adapter) : Prop where
  logger : a.logger
    = name ++ "." ++ a.context.action.display ++ "." ++ a.context.runId.display
  known : ls.Known a.logger
  threshold : (ls.get a.logger).threshold = ownThreshold
  own : Own (ls.get a.logger).handlers

/-- What holds of the loggers at all times, when logs are set up below one base name.
`start` are the loggers there were at first, and `given` the adapters handed out since. -/
structure Kept (name : Text) (start : Loggers) (given : List Adapter) (ls : Loggers) : Prop where
  orderly : ls.Orderly
  leads : isRootName name = false → ls.Leads name ∧ ls.Unawaited name
  base : Daily ((ls.get name).handlers.filter (!·.sink.isConsole))
  below : ∀ n, Under name n → (ls.get n).handlers = [] ∨ Own (ls.get n).handlers
  elsewhere : ∀ n, Elsewhere name n → (ls.get n).handlers = (start.get n).handlers
  held : ∀ a ∈ given, Held name ls a

/-- There is a logger of a name. -/
def There (name : Text) (ls : Loggers) : Prop := isRootName name = true ∨ ls.Known name

section Kept

variable {name : Text} {start ls : Loggers} {given : List Adapter}

/-- The name of a run's logger is the base name with the action and the run behind it, and
so below the base in the sense of `Under`. -/
theorem under_run (name action run : Text) : Under name (name ++ "." ++ action ++ "." ++ run) := by
  refine ⟨action.points ++ (Text.ofString ".").points ++ run.points, ?_⟩
  show name.points ++ [CodePoint.char '.'] ++ _ ++ _ ++ _ = _
  simp

/-- So is the logger of an adapter that was handed out. -/
theorem Held.under {a : Adapter} (h : Held name ls a) : Under name a.logger := by
  rw [h.logger]
  exact under_run _ _ _

/-- An adapter stays as it was handed out as long as its logger keeps its threshold and
its handlers. Nothing else about the loggers matters for it. -/
theorem Held.of_get {ls' : Loggers} {a : Adapter} (h : Held name ls a) (hknown : ls'.Known a.logger)
    (hthreshold : (ls'.get a.logger).threshold = (ls.get a.logger).threshold)
    (hhandlers : (ls'.get a.logger).handlers = (ls.get a.logger).handlers) : Held name ls' a where
  logger := h.logger
  known := hknown
  threshold := hthreshold.trans h.threshold
  own := by
    rw [hhandlers]
    exact h.own

/-- A logger may be added at any time once there is the base, and the base itself. Adding
a logger moves those below it, but none of them out from under the base. -/
theorem Kept.ensure (h : Kept name start given ls) {n : Text}
    (hn : canonicalName n = canonicalName name ∨ There name ls) :
    Kept name start given (ls.ensure n) := by
  have hget (m : Text) := get_ensure h.orderly n m
  have hhandlers (m : Text) : ((ls.ensure n).get m).handlers = (ls.get m).handlers := by
    obtain ⟨above, heq⟩ := hget m
    rw [heq]
  have hknown (hroot : isRootName name = false) : (ls.ensure n).Known name := by
    rw [known_ensure h.orderly]
    rcases hn with hsame | hthere
    · rw [canonicalName_eq_iff hroot] at hsame
      exact .inr ⟨hsame.symm, hsame ▸ hroot⟩
    · exact .inl (hthere.resolve_left (by simp [hroot]))
  exact {
    -- The new logger has no handlers, so that each part but the first two is as it was before.
    orderly := h.orderly.ensure n
    leads := by
      intro hroot
      obtain ⟨hleads, hunawaited⟩ := h.leads hroot
      exact ⟨hleads.ensure h.orderly (points_ne_nil hroot) hunawaited n,
        fun _ => (hknown hroot).not_awaits⟩
    base := by
      rw [hhandlers]
      exact h.base
    below := by
      intro m hm
      rw [hhandlers]
      exact h.below m hm
    elsewhere := by
      intro m hm
      rw [hhandlers]
      exact h.elsewhere m hm
    -- An adapter's logger was known before, and its handlers and threshold are not touched by one that
    -- enters.
    held := by
      intro a ha
      have hold := h.held a ha
      refine hold.of_get ((known_ensure h.orderly n _).mpr (.inl hold.known)) ?_ (hhandlers _)
      obtain ⟨above, heq⟩ := hget a.logger
      rw [heq] }

theorem There.ensure (hthere : There name ls) (horderly : ls.Orderly) (n : Text) :
    There name (ls.ensure n) :=
  hthere.imp id fun hknown => (known_ensure horderly n name).mpr (.inl hknown)

/-- The base is there after a change that leaves the loggers and what is above them. -/
theorem There.of_resembles {ls' : Loggers} (hthere : There name ls) (h : Resembles ls ls') :
    There name ls' :=
  hthere.imp id (h.known name).mpr

/-- Names that stand for one logger are both there, or neither is: several texts may name
the root. -/
theorem There.congr (hthere : There name ls) {base : Text}
    (h : canonicalName base = canonicalName name) : There base ls := by
  cases hbase : isRootName base with
  | true => exact .inl hbase
  | false =>
    obtain rfl := (canonicalName_eq_iff hbase).mp h.symm
    exact hthere

/-- A change that leaves what is above the loggers keeps what holds of them, if it does so
for those below the base name. -/
theorem Kept.of_resembles {ls' : Loggers} (h : Kept name start given ls) (hsame : Resembles ls ls')
    (hbase : Daily ((ls'.get name).handlers.filter (!·.sink.isConsole)))
    (hbelow : ∀ n, Under name n → (ls'.get n).handlers = [] ∨ Own (ls'.get n).handlers)
    (helsewhere : ∀ n, Elsewhere name n → (ls'.get n).handlers = (ls.get n).handlers)
    (hheld : ∀ a ∈ given, Held name ls' a) : Kept name start given ls' where
  orderly := h.orderly.of_resembles hsame
  leads := by
    intro hroot
    obtain ⟨hleads, hunawaited⟩ := h.leads hroot
    refine ⟨hleads.of_resembles hsame, fun hstarts n hn => ?_⟩
    exact hunawaited hstarts n ((hsame.awaits name n).mp hn)
  base := hbase
  below := hbelow
  elsewhere := fun n hn => (helsewhere n hn).trans (h.elsewhere n hn)
  held := hheld

/-- A name below the base is never the base's own, so a change of one leaves the handlers
of the other. -/
theorem canonicalName_ne_of_under {base n : Text} (h : Under base n) :
    canonicalName n ≠ canonicalName base := by
  have hn := h.not_isRootName
  intro heq
  exact h.ne ((canonicalName_eq_iff hn).mp heq.symm)

/-- A change of the base keeps what holds at all times, provided that its handlers for
files stay at most one, for the file of the day. -/
theorem Kept.modify_base (h : Kept name start given ls) (hthere : There name ls) {base : Text}
    (hbase : canonicalName base = canonicalName name) {f : Logger → Logger}
    (hf : ∀ l, (f l).parent = l.parent)
    (hdaily : Daily ((f (ls.get name)).handlers.filter (!·.sink.isConsole))) :
    Kept name start given (ls.modify base f) ∧ There name (ls.modify base f) := by
  have hsame := resembles_modify (hthere.congr hbase) hf
  have hother {n : Text} (hn : canonicalName n ≠ canonicalName name) :
      (ls.modify base f).get n = ls.get n := by
    rw [get_modify, hbase, if_neg hn]
  refine ⟨h.of_resembles hsame ?_ ?_ ?_ ?_, hthere.of_resembles hsame⟩
  · rw [get_modify, if_pos hbase.symm]
    exact hdaily
  · -- the loggers below the base have other names, and so have those elsewhere
    intro n hn
    rw [hother (canonicalName_ne_of_under hn)]
    exact h.below n hn
  · intro n hn
    rw [hother hn.1]
  · intro a ha
    have hold := h.held a ha
    have heq := hother (canonicalName_ne_of_under hold.under)
    exact hold.of_get ((hsame.known _).mpr hold.known) (by rw [heq]) (by rw [heq])

/-- A change of a run's logger keeps what holds at all times, provided that its handlers
stay, or that it had none and gets its own. A logger that was handed out has a handler, so
it can only be left as it is. -/
theorem Kept.modify_own (h : Kept name start given ls) (hthere : There name ls) {n : Text}
    (hn : Under name n) (hknown : ls.Known n) {f : Logger → Logger}
    (hf : ∀ l, (f l).parent = l.parent)
    (hthreshold : (ls.get n).threshold = ownThreshold →
      (f (ls.get n)).threshold = ownThreshold)
    (hown : (f (ls.get n)).handlers = (ls.get n).handlers
      ∨ (ls.get n).handlers = [] ∧ Own (f (ls.get n)).handlers) :
    Kept name start given (ls.modify n f) ∧ There name (ls.modify n f) := by
  have hsame := resembles_modify (.inr hknown) hf
  have hroot := hn.not_isRootName
  have hsame' : (ls.modify n f).get n = f (ls.get n) := by
    rw [get_modify, if_pos rfl]
  have hother {m : Text} (hm : m ≠ n) : (ls.modify n f).get m = ls.get m := by
    rw [get_modify, if_neg (by rwa [canonicalName_eq_iff hroot])]
  refine ⟨h.of_resembles hsame ?_ ?_ ?_ ?_, hthere.of_resembles hsame⟩
  · rw [hother hn.ne]
    exact h.base
  · -- Of the loggers below the base only `n` is another one now, and it keeps its handlers or gets its
    -- own first one.
    intro m hm
    by_cases hmn : m = n
    · subst hmn
      rw [hsame']
      rcases hown with heq | ⟨-, hown⟩
      · rw [heq]
        exact h.below m hn
      · exact .inr hown
    · rw [hother hmn]
      exact h.below m hm
  · intro m hm
    have hmn : m ≠ n := by
      rintro rfl
      exact hm.2 hn
    rw [hother hmn]
  · intro a ha
    have hold := h.held a ha
    have hknown' := (hsame.known a.logger).mpr hold.known
    by_cases hmn : a.logger = n
    · -- the logger of an adapter has a handler already, so it is left with that
      rw [← hmn] at hown hthreshold hsame'
      have hheld : (ls.get a.logger).handlers ≠ [] := by
        obtain ⟨path, level, heq⟩ := hold.own
        simp [heq]
      have hhandlers := hown.resolve_right fun hnone => hheld hnone.1
      refine hold.of_get hknown' ?_ ?_
      · rw [hmn, ← hmn, hsame', hold.threshold]
        exact hthreshold hold.threshold
      · rw [hmn, ← hmn, hsame', hhandlers]
    · exact hold.of_get hknown' (by rw [hother hmn]) (by rw [hother hmn])

end Kept

/-! ## What a set-up comes to -/

namespace Setup

open Change

/-- The place of the file of the day. -/
def dailyPath (here : Files.Path) (directory : Text) : Files.Path :=
  .ofText here (Files.join directory dailyName)

/-- The directory of a day, and the place of a run's own file in it. -/
def dated (directory day : Text) : Text := Files.join directory day

def ownPath (s : Setup) (here : Files.Path) (directory day : Text) : Files.Path :=
  .ofText here
    (Files.join (dated directory day) (s.action.display ++ "_" ++ s.runId.display ++ ".log"))

/-- Why a set-up is refused: a level or the directory does not name one, the subject is no
map, or one of the directories and files cannot be made, after others have been. -/
inductive Refuses (s : Setup) (files : Files.Tree) (day : Text) : Fault → Prop where
  | consoleLevel {f : Fault} (h : threshold s.consoleLevel Level.info.rank = .error f) :
    Refuses s files day f
  | fileLevel {f : Fault} (h : threshold s.fileLevel Level.debug.rank = .error f) :
    Refuses s files day f
  | directory {f : Fault} (h : textOf s.directory = .error f) : Refuses s files day f
  | subject {f : Fault} {key : Text} (h : part s.subject key = .error f) : Refuses s files day f
  | directories {f : Fault} {tree : Files.Tree} {directory path : Text}
    (hdirectory : s.directory = .text directory) (hpath : path ∈ [directory, dated directory day])
    (hmade : files.Made tree) (h : tree.makeDirectories path = .error f) : Refuses s files day f
  | file {f : Fault} {tree : Files.Tree} {directory : Text} {path : Files.Path}
    (hdirectory : s.directory = .text directory)
    (hpath : path ∈ [dailyPath files.here directory, s.ownPath files.here directory day])
    (hmade : files.Made tree) (h : tree.touch path.text = .error f) : Refuses s files day f

section Run

variable (name : Text) (start : Loggers) (given : List Adapter) (s : Setup) (files : Files.Tree)
  (day : Text)

/-- During a set-up: there is a base with handlers as they are said, and files have been
made. -/
structure Midway (handlers : List Handler → Prop) (j : Journal) : Prop where
  kept : Kept name start given j.loggers
  there : There name j.loggers
  made : files.Made j.files
  base : handlers (j.loggers.get name).handlers

/-- A set-up that is refused leaves what holds at all times. -/
structure Refused (f : Fault) (j : Journal) : Prop where
  kept : Kept name start given j.loggers
  there : There name j.loggers
  refuses : s.Refuses files day f

end Run

section Run

variable {name base : Text} {start : Loggers} {given : List Adapter} {s : Setup} {files : Files.Tree}
  {day : Text} {handlers : List Handler → Prop}

/-- What holds during a set-up holds of one that is refused, once there is a reason. -/
theorem Midway.refused {f : Fault} {j : Journal} (h : Midway name start given files handlers j)
    (hrefuses : s.Refuses files day f) : Refused name start given s files day f j :=
  ⟨h.kept, h.there, hrefuses⟩

/-- A change of the files is made, or its fault is given and the files are as they
were. -/
theorem meets_changeFiles {change : Files.Tree → Except Fault Files.Tree}
    {pre : Journal → Prop} {post : Unit → Journal → Prop} {fails : Fault → Journal → Prop}
    (hok : ∀ j made, pre j → change j.files = .ok made → post () { j with files := made })
    (herror : ∀ j f, pre j → change j.files = .error f → fails f j) :
    Meets pre (changeFiles change) post fails := by
  unfold changeFiles
  refine meets_look fun seen _ => ?_
  -- the change is tried on the files as they are, and they are replaced only if it succeeds
  have hmake : Meets (fun j => pre j ∧ j = seen) (liftM (change seen.files) : Change Files.Tree)
      (fun made j => pre j ∧ change j.files = .ok made) fails := by
    refine meets_lift (fun made hmade j hj => ?_) fun f hf j hj => ?_
    · obtain ⟨hj, rfl⟩ := hj
      exact ⟨hj, hmade⟩
    · obtain ⟨hj, rfl⟩ := hj
      exact herror j f hj hf
  exact hmake.bind fun made => meets_modify fun j hj => hok j made hj.1 hj.2

/-- The base is changed. -/
theorem meets_changeBase (hbase : canonicalName base = canonicalName name) {f : Logger → Logger}
    {pre : Journal → Prop} {handlers' : List Handler → Prop} (hf : ∀ l, (f l).parent = l.parent)
    (hpre : ∀ j, pre j → Midway name start given files handlers j)
    (h : ∀ j, pre j → Daily ((f (j.loggers.get name)).handlers.filter (!·.sink.isConsole))
      ∧ handlers' (f (j.loggers.get name)).handlers) :
    Meets pre (changeLogger base f) (fun _ => Midway name start given files handlers')
      (Refused name start given s files day) := by
  refine meets_modify fun j hj => ?_
  obtain ⟨hdaily, hhandlers⟩ := h j hj
  have hbefore := hpre j hj
  obtain ⟨hkept, hthere⟩ := hbefore.kept.modify_base hbefore.there hbase hf hdaily
  refine ⟨hkept, hthere, hbefore.made, ?_⟩
  rw [get_modify, if_pos hbase.symm]
  exact hhandlers

/-- The threshold of the base is the lowest of all, so that each handler decides for
itself. -/
theorem meets_letThrough (hbase : canonicalName base = canonicalName name) :
    Meets (Midway name start given files handlers)
      (changeLogger base fun l => { l with threshold := ownThreshold })
      (fun _ => Midway name start given files handlers) (Refused name start given s files day) :=
  meets_changeBase hbase (fun _ => rfl) (fun _ hj => hj) fun _ hj => ⟨hj.kept.base, hj.base⟩

/-- The handlers of the base are changed, to what `change` makes of them. -/
theorem meets_changeHandlers (hbase : canonicalName base = canonicalName name)
    (change : List Handler → List Handler) {pre : Journal → Prop} {handlers' : List Handler → Prop}
    (hpre : ∀ j, pre j → Midway name start given files handlers j)
    (h : ∀ j, pre j → Daily ((change (j.loggers.get name).handlers).filter (!·.sink.isConsole))
      ∧ handlers' (change (j.loggers.get name).handlers)) :
    Meets pre (changeLogger base fun l => { l with handlers := change l.handlers })
      (fun _ => Midway name start given files handlers') (Refused name start given s files day) :=
  meets_changeBase hbase (f := fun l => { l with handlers := change l.handlers }) (fun _ => rfl) hpre h

/-! ### The handler for the console -/

/-- The handlers of the base, once that for the console has been renewed. -/
def Renewed (s : Setup) (hs : List Handler) : Prop :=
  ∃ level, threshold s.consoleLevel Level.info.rank = .ok level
    ∧ ∃ kept, Daily kept ∧ hs = kept ++ [prepared .console level]

theorem filter_console_append (hs : List Handler) (level : Int) :
    (hs ++ [prepared .console level]).filter (!·.sink.isConsole)
      = hs.filter (!·.sink.isConsole) := by
  simp [prepared, Sink.isConsole]

/-- The handlers for the console are dropped and one is put in their place, with the level
that is asked for. The ones for files stay in front of it. -/
theorem meets_renewConsole (hbase : canonicalName base = canonicalName name) :
    Meets (Midway name start given files handlers)
      (renewConsole base (threshold s.consoleLevel Level.info.rank))
      (fun _ => Midway name start given files s.Renewed) (Refused name start given s files day) := by
  unfold renewConsole
  -- first what is there for the console is removed, then the level is read, and only then is the new one
  -- added; a level that is refused therefore leaves the base without a handler for the console
  have hremove : Meets (Midway name start given files handlers)
      (changeLogger base fun l => { l with handlers := l.handlers.filter (!·.sink.isConsole) })
      (fun _ => Midway name start given files Daily) (Refused name start given s files day) := by
    refine meets_changeHandlers hbase (·.filter (!·.sink.isConsole)) (fun _ hj => hj) fun j hj => ?_
    refine ⟨?_, hj.kept.base⟩
    rw [List.filter_filter]
    simpa using hj.kept.base
  have hlevel : Meets (Midway name start given files Daily)
      (liftM (threshold s.consoleLevel Level.info.rank) : Change Int)
      (fun level j => threshold s.consoleLevel Level.info.rank = .ok level
        ∧ Midway name start given files Daily j) (Refused name start given s files day) :=
    meets_lift (fun level hlevel j hj => ⟨hlevel, hj⟩) fun f hf j hj => hj.refused (.consoleLevel hf)
  refine hremove.bind fun _ => hlevel.bind fun level => ?_
  refine meets_changeHandlers hbase (· ++ [prepared .console level]) (fun _ hj => hj.2) fun j hj => ?_
  refine ⟨?_, level, hj.1, (j.loggers.get name).handlers, hj.2.base, rfl⟩
  rw [filter_console_append]
  exact hj.2.kept.base

/-! ### The handler for the file of the day -/

/-- The handlers of the base, once it has those for both sinks. -/
def Equipped (s : Setup) (daily : Files.Path) (hs : List Handler) : Prop :=
  ∃ console level, threshold s.consoleLevel Level.info.rank = .ok console
    ∧ hs.Perm [prepared .console console, prepared (.rolling daily) level]

/-- A handler for the file of the day is kept if it has the path that is asked for, and
else it goes. So there is never more than one, also when the directory has changed between
two set-ups. -/
theorem keepDaily_cases (path : Files.Path) {kept : List Handler} (hkept : Daily kept) (console : Int) :
    (∃ level, kept = [prepared (.rolling path) level]
        ∧ keepDaily path (kept ++ [prepared .console console])
          = (kept ++ [prepared .console console], true))
      ∨ keepDaily path (kept ++ [prepared .console console])
          = ([prepared .console console], false) := by
  rcases hkept with rfl | ⟨path', level, rfl⟩
  · exact .inr rfl
  · by_cases hpath : path' = path
    · subst hpath
      exact .inl ⟨level, rfl, by simp [keepDaily, prepared]⟩
    · exact .inr (by simp [keepDaily, prepared, hpath])

/-- The directory for the logs and that of the day are made, or the set-up is refused for
them. `hpath` names the two, which are all that a set-up makes. -/
theorem meets_makeDirectories {directory path : Text} {pre : Journal → Prop}
    (hdirectory : s.directory = .text directory) (hpath : path ∈ [directory, dated directory day])
    (hpre : ∀ j, pre j → Midway name start given files handlers j)
    {post : Unit → Journal → Prop}
    (hpost : ∀ j made, pre j → files.Made made → post () { j with files := made }) :
    Meets pre (changeFiles (·.makeDirectories path)) post (Refused name start given s files day) := by
  refine meets_changeFiles (fun j made hj hmade => ?_) fun j f hj hf => ?_
  · exact hpost j made hj ((hpre j hj).made.directories hmade)
  · exact (hpre j hj).refused (.directories hdirectory hpath (hpre j hj).made hf)

/-- The same of the two files. -/
theorem meets_touch {directory : Text} {path : Files.Path} {pre : Journal → Prop}
    (hdirectory : s.directory = .text directory)
    (hpath : path ∈ [dailyPath files.here directory, s.ownPath files.here directory day])
    (hpre : ∀ j, pre j → Midway name start given files handlers j)
    {post : Unit → Journal → Prop}
    (hpost : ∀ j made, pre j → files.Made made → post () { j with files := made }) :
    Meets pre (changeFiles (·.touch path.text)) post (Refused name start given s files day) := by
  refine meets_changeFiles (fun j made hj hmade => ?_) fun j f hj hf => ?_
  · exact hpost j made hj ((hpre j hj).made.file hmade)
  · exact (hpre j hj).refused (.file hdirectory hpath (hpre j hj).made hf)

/-- The file of the day is made, and its handler comes behind that for the console.
If the file cannot be made the base keeps the console's handler alone, and the
set-up is refused. -/
theorem meets_makeDaily (hbase : canonicalName base = canonicalName name) {directory : Text}
    (hdirectory : s.directory = .text directory) {console : Int}
    (hconsole : threshold s.consoleLevel Level.info.rank = .ok console) :
    Meets (Midway name start given files (· = [prepared .console console]))
      (do
        changeFiles (·.touch (dailyPath files.here directory).text)
        addHandler base (prepared (.rolling (dailyPath files.here directory))
          (← threshold s.fileLevel Level.debug.rank)))
      (fun _ => Midway name start given files (s.Equipped (dailyPath files.here directory)))
      (Refused name start given s files day) := by
  let left : List Handler → Prop := (· = [prepared .console console])
  -- the file is made before its level is read, so a refused level leaves the file
  have htouch : Meets (Midway name start given files left)
      (changeFiles (·.touch (dailyPath files.here directory).text))
      (fun _ => Midway name start given files left) (Refused name start given s files day) :=
    meets_touch hdirectory (by simp) (fun _ hj => hj) fun j made hj hmade => { hj with made := hmade }
  have hlevel : Meets (Midway name start given files left)
      (liftM (threshold s.fileLevel Level.debug.rank) : Change Int)
      (fun _ => Midway name start given files left) (Refused name start given s files day) :=
    meets_lift (fun _ _ _ hj => hj) fun _ hf _ hj => hj.refused (.fileLevel hf)
  refine htouch.bind fun _ => hlevel.bind fun level => ?_
  refine meets_changeHandlers hbase
    (· ++ [prepared (.rolling (dailyPath files.here directory)) level]) (fun _ hj => hj) fun j hj => ?_
  have hhandlers : (j.loggers.get name).handlers = [prepared .console console] := hj.base
  rw [hhandlers]
  exact ⟨.inr ⟨_, level, rfl⟩, console, level, hconsole, List.Perm.refl _⟩

/-- The file of the day has one handler afterwards: the one it had, if it has the right
path, and otherwise a new one in its place. -/
theorem meets_ensureDaily (hbase : canonicalName base = canonicalName name) {directory : Text}
    (hdirectory : s.directory = .text directory) :
    Meets (Midway name start given files s.Renewed)
      (ensureDaily base directory (threshold s.fileLevel Level.debug.rank))
      (fun _ => Midway name start given files (s.Equipped (dailyPath files.here directory)))
      (Refused name start given s files day) := by
  unfold ensureDaily
  have hmake : Meets (Midway name start given files s.Renewed)
      (changeFiles (·.makeDirectories directory))
      (fun _ => Midway name start given files s.Renewed) (Refused name start given s files day) :=
    meets_makeDirectories hdirectory (by simp) (fun _ hj => hj)
      fun j made hj hmade => { hj with made := hmade }
  refine hmake.bind fun _ => meets_look fun seen hseen => ?_
  dsimp only
  have hpath : Files.Path.ofText seen.files.here (Files.join directory dailyName)
      = dailyPath files.here directory := by
    rw [hseen.made.here]
    rfl
  obtain ⟨console, hconsole, kept, hkept, hhandlers⟩ := hseen.base
  rw [hpath, get_congr hbase, hhandlers]
  have hset {hs : List Handler} {handlers' : List Handler → Prop}
      (hdaily : Daily (hs.filter (!·.sink.isConsole))) (hhs : handlers' hs) :
      Meets (fun j => Midway name start given files s.Renewed j ∧ j = seen)
        (changeLogger base fun l => { l with handlers := hs })
        (fun _ => Midway name start given files handlers') (Refused name start given s files day) :=
    meets_changeHandlers hbase (fun _ => hs) (fun _ hj => hj.1) fun _ _ => ⟨hdaily, hhs⟩
  rcases keepDaily_cases (dailyPath files.here directory) hkept console with
    ⟨level, rfl, hfound⟩ | hgone
  · -- the handler has the right path, so both stay
    rw [hfound]
    have hdaily : Daily (([prepared (.rolling (dailyPath files.here directory)) level]
        ++ [prepared .console console]).filter (!·.sink.isConsole)) := by
      rw [filter_console_append]
      exact .inr ⟨_, level, rfl⟩
    have hequipped : s.Equipped (dailyPath files.here directory)
        ([prepared (.rolling (dailyPath files.here directory)) level]
          ++ [prepared .console console]) :=
      ⟨console, level, hconsole, List.Perm.swap _ _ _⟩
    simp only [if_true]
    exact (hset hdaily hequipped).bind fun _ => meets_pure fun _ hj => hj
  · -- there was none, or it had another path; the new one comes last
    rw [hgone]
    let left : List Handler → Prop := (· = [prepared .console console])
    have hleft : left [prepared .console console] := rfl
    simp only [Bool.false_eq_true, if_false]
    exact (hset (.inl rfl) hleft).bind fun _ => meets_makeDaily hbase hdirectory hconsole

/-! ### The handler for a run's own file -/

/-- During a set-up, when there is a logger of the run, too. -/
structure Begun (name : Text) (start : Loggers) (given : List Adapter) (files : Files.Tree) (n : Text)
    (handlers own : List Handler → Prop) (j : Journal) : Prop extends
    Midway name start given files handlers j where
  known : j.loggers.Known n
  threshold : (j.loggers.get n).threshold = ownThreshold
  own : own (j.loggers.get n).handlers

/-- The logger of the run is entered. Until it has a handler, nothing else about it is
known. -/
theorem meets_ensureLogger {n : Text} (hn : Under name n) :
    Meets (Midway name start given files handlers) (ensureLogger n)
      (fun _ j => Midway name start given files handlers j ∧ j.loggers.Known n)
      (Refused name start given s files day) := by
  refine meets_modify fun j hj => ?_
  have hkept := hj.kept.ensure (.inr hj.there) (n := n)
  have hthere := hj.there.ensure hj.kept.orderly n
  refine ⟨⟨hkept, hthere, hj.made, ?_⟩, ?_⟩
  · obtain ⟨above, heq⟩ := get_ensure hj.kept.orderly n name
    rw [heq]
    exact hj.base
  · exact (known_ensure hj.kept.orderly n n).mpr (.inr ⟨rfl, hn.not_isRootName⟩)

/-- The logger of the run is changed. It lies below the base, so nothing that is claimed
of the base changes with it. -/
theorem meets_changeOwn {n : Text} (hn : Under name n) {f : Logger → Logger} {pre : Journal → Prop}
    {own : List Handler → Prop} (hf : ∀ l, (f l).parent = l.parent)
    (hpre : ∀ j, pre j → Midway name start given files handlers j ∧ j.loggers.Known n)
    (hthreshold : ∀ j, pre j → (f (j.loggers.get n)).threshold = ownThreshold)
    (hown : ∀ j, pre j → own (f (j.loggers.get n)).handlers
      ∧ ((f (j.loggers.get n)).handlers = (j.loggers.get n).handlers
        ∨ (j.loggers.get n).handlers = [] ∧ Own (f (j.loggers.get n)).handlers)) :
    Meets pre (changeLogger n f) (fun _ => Begun name start given files n handlers own)
      (Refused name start given s files day) := by
  refine meets_modify fun j hj => ?_
  obtain ⟨hbefore, hknown⟩ := hpre j hj
  obtain ⟨hown', hchange⟩ := hown j hj
  obtain ⟨hkept, hthere⟩ := hbefore.kept.modify_own hbefore.there hn hknown hf
    (fun _ => hthreshold j hj) hchange
  have hsame : (j.loggers.modify n f).get n = f (j.loggers.get n) := by
    rw [get_modify, if_pos rfl]
  -- the base has another name, so it is as before
  have hbase : (j.loggers.modify n f).get name = j.loggers.get name := by
    rw [get_modify, if_neg (canonicalName_ne_of_under hn).symm]
  have hresembles := resembles_modify (.inr hknown) hf
  exact {
    kept := hkept
    there := hthere
    made := hbefore.made
    base := by
      rw [hbase]
      exact hbefore.base
    known := (hresembles.known n).mpr hknown
    threshold := by
      rw [hsame]
      exact hthreshold j hj
    own := by
      rw [hsame]
      exact hown' }

/-- The handlers of a logger of a run, at any time. -/
def AtMostOwn (hs : List Handler) : Prop := hs = [] ∨ Own hs

/-- The threshold of the run's logger is opened, and it has at most its own handler, as
before. -/
theorem meets_openRun {n : Text} (hn : Under name n) :
    Meets (fun j => Midway name start given files handlers j ∧ j.loggers.Known n)
      (changeLogger n fun l => { l with threshold := ownThreshold })
      (fun _ => Begun name start given files n handlers AtMostOwn)
      (Refused name start given s files day) := by
  refine meets_changeOwn hn (fun _ => rfl) (fun _ hj => hj) (fun _ _ => rfl) fun j hj => ?_
  exact ⟨hj.1.kept.below n hn, .inl rfl⟩

/-- A run that has no file is given one. Every step of it may be refused, and each refusal
leaves a registry of which the invariant still holds. -/
theorem meets_makeOwn {n : Text} (hn : Under name n) {directory : Text}
    (hdirectory : s.directory = .text directory) :
    Meets (Begun name start given files n handlers (· = []))
      (do
        changeFiles (·.makeDirectories (dated directory day))
        let path := s.ownPath (← get).files.here directory day
        changeFiles (·.touch path.text)
        addHandler n (prepared (.file path) (← threshold s.fileLevel Level.debug.rank)))
      (fun _ => Begun name start given files n handlers Own)
      (Refused name start given s files day) := by
  let none : List Handler → Prop := (· = [])
  -- directory, file, level, handler: each step but the last leaves the logger without a handler
  have hmake : Meets (Begun name start given files n handlers none)
      (changeFiles (·.makeDirectories (dated directory day)))
      (fun _ => Begun name start given files n handlers none)
      (Refused name start given s files day) :=
    meets_makeDirectories hdirectory (by simp) (fun _ hj => hj.toMidway)
      fun j made hj hmade => { hj with made := hmade }
  have htouch (seen : Journal) (hseen : Begun name start given files n handlers none seen) : Meets
      (fun j => Begun name start given files n handlers none j ∧ j = seen)
      (changeFiles (·.touch (s.ownPath seen.files.here directory day).text))
      (fun _ => Begun name start given files n handlers none)
      (Refused name start given s files day) := by
    refine meets_touch hdirectory ?_ (fun _ hj => hj.1.toMidway)
      fun j made hj hmade => { hj.1 with made := hmade }
    rw [hseen.made.here]
    simp
  have hlevel : Meets (Begun name start given files n handlers none)
      (liftM (threshold s.fileLevel Level.debug.rank) : Change Int)
      (fun _ => Begun name start given files n handlers none)
      (Refused name start given s files day) :=
    meets_lift (fun _ _ _ hj => hj) fun _ hf _ hj => hj.refused (.fileLevel hf)
  refine hmake.bind fun _ => meets_look fun seen hseen => (htouch seen hseen).bind fun _ =>
    hlevel.bind fun level => ?_
  refine meets_changeOwn hn (fun _ => rfl) (fun j hj => ⟨hj.toMidway, hj.known⟩)
    (fun j hj => hj.threshold) fun j hj => ?_
  have hnone : (j.loggers.get n).handlers = [] := hj.own
  have hown : Own ((j.loggers.get n).handlers
      ++ [prepared (.file (s.ownPath seen.files.here directory day)) level]) := by
    rw [hnone]
    exact ⟨_, level, rfl⟩
  exact ⟨hown, .inr ⟨hnone, hown⟩⟩

/-- The run's logger has its own handler afterwards: the one it had, if it was set up
before with the same names, or a new one. -/
theorem meets_ensureOwn {n : Text} (hn : Under name n) {directory : Text}
    (hdirectory : s.directory = .text directory) :
    Meets (Begun name start given files n handlers AtMostOwn)
      (s.ensureOwn n directory day (threshold s.fileLevel Level.debug.rank))
      (fun _ => Begun name start given files n handlers Own)
      (Refused name start given s files day) := by
  unfold ensureOwn
  refine meets_look fun seen hseen => ?_
  dsimp only
  -- the logger has no handler yet, or has its own one from before
  rcases hseen.own with hnone | hown
  · have hfile : ¬(seen.loggers.get n).handlers.any (!·.sink.isConsole) = true := by
      simp [hnone]
    rw [if_neg hfile]
    refine (meets_makeOwn hn hdirectory).mono fun j hj => ?_
    obtain ⟨hj, rfl⟩ := hj
    exact { hj with own := hnone }
  · have hfile : (seen.loggers.get n).handlers.any (!·.sink.isConsole) = true := by
      obtain ⟨path, level, heq⟩ := hown
      simp [heq, prepared, Sink.isConsole]
    rw [if_pos hfile]
    refine meets_pure fun j hj => ?_
    obtain ⟨hj, rfl⟩ := hj
    exact { hj with own := hown }

/-! ### The whole -/

theorem loggers_write (j : Journal) (sink : Sink) (text : Text) :
    (j.write sink text).loggers = j.loggers := by
  unfold Journal.write
  dsimp only
  split <;> rfl

/-- A record that is delivered to handlers changes no logger, by induction on the
handlers. -/
theorem loggers_deliver (stamp : Stamp) (rank : Int) (source : Adapter) (record : Record)
    (hs : List Handler) (j : Journal) :
    (j.deliver stamp rank source record hs).loggers = j.loggers := by
  induction hs generalizing j source record with
  | nil => rfl
  | cons h rest ih =>
    rw [Journal.deliver]
    -- a record below the threshold of a handler passes it by
    split
    · exact ih source record j
    · dsimp only
      rw [ih]
      split
      · exact loggers_write _ _ _
      · rfl

/-- To log a record may take a new logger, and changes nothing else about the loggers.
This is why logging between two set-ups needs no case of its own in the invariant beyond
`Kept.ensure`. -/
theorem loggers_log (stamp : Stamp) (rank : Int) (source : Adapter) (record : Record) (j : Journal) :
    (j.log stamp rank source record).loggers = j.loggers.ensure source.logger := by
  unfold Journal.log
  dsimp only
  split
  · rfl
  split
  · split
    · rfl
    split
    · exact loggers_write _ _ _
    · rfl
  · exact loggers_deliver _ _ _ _ _ _

/-- Only a text is taken for a directory. -/
theorem textOf_eq_ok {v : Value} {t : Text} (h : textOf v = .ok t) : v = .text t := by
  unfold textOf at h
  split at h
  · rw [Except.ok.inj h]
  · cases h

/-- The base logger of a text is that of the text, or the root. -/
theorem baseName_text (name : Text) :
    ∃ base, baseName (.text name) = .ok base ∧ canonicalName base = canonicalName name := by
  unfold baseName
  by_cases hempty : name.isEmpty = true
  · refine ⟨rootName, by simp [Value.truthy, Scalar.truthy, hempty], ?_⟩
    simp [canonicalName, isRootName, hempty]
  · exact ⟨name, by simp [Value.truthy, Scalar.truthy, hempty, textOf], rfl⟩

/-- What a set-up comes to, when it is not refused: the base is equipped, and an adapter
is handed out. -/
structure Finished (name : Text) (start : Loggers) (given : List Adapter) (s : Setup)
    (files : Files.Tree) (a : Adapter) (j : Journal) : Prop where
  kept : Kept name start (a :: given) j.loggers
  there : There name j.loggers
  runId : a.context.runId = s.runId
  action : a.context.action = s.action
  base : ∃ directory, s.directory = .text directory
    ∧ s.Equipped (dailyPath files.here directory) (j.loggers.get name).handlers

/-- The first step enters the base logger. What its handlers are is not said: they may
come from an earlier set-up. -/
theorem meets_ensureBase (hbase : canonicalName base = canonicalName name) :
    Meets (fun j => Kept name start given j.loggers ∧ j.files = files) (ensureLogger base)
      (fun _ => Midway name start given files fun _ => True)
      (Refused name start given s files day) := by
  refine meets_modify fun j hj => ?_
  obtain ⟨hkept, rfl⟩ := hj
  refine ⟨hkept.ensure (.inl hbase), ?_, .nothing, trivial⟩
  cases hroot : isRootName name with
  | true => exact .inl hroot
  | false =>
    obtain rfl := (canonicalName_eq_iff hroot).mp hbase
    exact .inr ((known_ensure hkept.orderly base base).mpr (.inr ⟨rfl, hroot⟩))

/-- A part of the subject is looked up, or the set-up is refused because the subject is no
map. -/
theorem meets_part {n : Text} {own : List Handler → Prop} (key : Text) :
    Meets (Begun name start given files n handlers own) (liftM (part s.subject key) : Change Value)
      (fun _ => Begun name start given files n handlers own)
      (Refused name start given s files day) :=
  meets_lift (fun _ _ _ hj => hj) fun _ hf _ hj => hj.refused (.subject hf)

/-- The adapter that is handed out has a logger, and so logging on it leaves the loggers.
The set-up itself logs one record on it before it hands it out. -/
theorem meets_handOut {a : Adapter} {stamp : Stamp} {entry : Entry} {directory : Text}
    (hlogger : a.logger = name ++ "." ++ a.context.action.display ++ "." ++ a.context.runId.display)
    (hrun : a.context.runId = s.runId) (haction : a.context.action = s.action)
    (hdirectory : s.directory = .text directory) :
    Meets (Begun name start given files a.logger (s.Equipped (dailyPath files.here directory)) Own)
      (do
        modify fun j => j.logEntry stamp a entry
        return a)
      (Finished name start given s files) (Refused name start given s files day) := by
  have hlog : Meets
      (Begun name start given files a.logger (s.Equipped (dailyPath files.here directory)) Own)
      (modify fun j => j.logEntry stamp a entry : Change Unit)
      (fun _ => Finished name start given s files a) (Refused name start given s files day) := by
    refine meets_modify fun j hj => ?_
    have hloggers : (j.logEntry stamp a entry).loggers = j.loggers := by
      unfold Journal.logEntry
      rw [loggers_log, ensure_of_known hj.known]
    -- the logger of the adapter has its threshold and its one handler by now
    have hheld : Held name j.loggers a := ⟨hlogger, hj.known, hj.threshold, hj.own⟩
    rw [← hloggers] at hheld
    exact {
      kept := by
        rw [hloggers] at hheld ⊢
        exact { hj.kept with held := List.forall_mem_cons.mpr ⟨hheld, hj.kept.held⟩ }
      there := by
        rw [hloggers]
        exact hj.there
      runId := hrun
      action := haction
      base := by
        rw [hloggers]
        exact ⟨directory, hdirectory, hj.base⟩ }
  exact hlog.bind fun _ => meets_pure fun _ hj => hj

/-- **What a set-up comes to.** It is refused for a reason that is said, or it hands out
an adapter; and what holds of the loggers at all times holds after it. -/
theorem meets_run (hname : s.name = .text name) (stamp : Stamp) :
    Meets (fun j => Kept name start given j.loggers ∧ j.files = files) (s.run stamp)
      (Finished name start given s files) (Refused name start given s files stamp.day) := by
  obtain ⟨base, hread, hbase⟩ := baseName_text name
  have hbaseName : Meets (fun j => Kept name start given j.loggers ∧ j.files = files)
      (liftM (baseName s.name) : Change Text)
      (fun base' j => base' = base ∧ Kept name start given j.loggers ∧ j.files = files)
      (Refused name start given s files stamp.day) := by
    rw [hname, hread]
    refine meets_lift (fun base' hok j hj => ⟨(Except.ok.inj hok).symm, hj⟩) ?_
    intro f hf
    cases hf
  -- Reading the directory may fail with the base renewed already; that is one of the ways to be refused.
  have hdirectory : Meets (Midway name start given files s.Renewed)
      (liftM (textOf s.directory) : Change Text)
      (fun directory j => s.directory = .text directory ∧ Midway name start given files s.Renewed j)
      (Refused name start given s files stamp.day) := by
    exact meets_lift (fun _ hok _ hj => ⟨textOf_eq_ok hok, hj⟩) fun _ hf _ hj =>
      hj.refused (.directory hf)
  let n := s.name.display ++ "." ++ s.action.display ++ "." ++ s.runId.display
  have hn : n = name ++ "." ++ s.action.display ++ "." ++ s.runId.display := by
    show s.name.display ++ _ ++ _ ++ _ ++ _ = _
    rw [hname]
    rfl
  have hunder : Under name n := by
    rw [hn]
    exact under_run _ _ _
  -- From here on the proof reads the set-up from top to bottom, one rule for each of its steps.
  unfold run
  refine hbaseName.bind fun base' => ?_
  dsimp only
  intro j hj
  obtain ⟨rfl, hj⟩ := hj
  refine Meets.bind (meets_ensureBase hbase) (fun _ => ?_) j hj
  refine (meets_letThrough hbase).bind fun _ => (meets_renewConsole hbase).bind fun _ =>
    hdirectory.bind fun directory => ?_
  intro j hj
  obtain ⟨htext, hj⟩ := hj
  refine Meets.bind (meets_ensureDaily hbase htext) (fun _ => ?_) j hj
  refine (meets_ensureLogger hunder).bind fun _ => (meets_openRun hunder).bind fun _ =>
    (meets_ensureOwn hunder htext).bind fun _ => (meets_part "namespace").bind fun space =>
      (meets_part "owner").bind fun owner => ?_
  exact meets_handOut (a := ⟨n, some ⟨s.runId, s.action, space, owner⟩⟩) hn rfl rfl htext

end Run

end Setup

end Log

end Keeper
