import Keeper.Proofs.Program

/-!
# Keeper — what a program learns while it runs

A program may unfold in many ways, one for each course that the answers to its questions take. What
is to hold of every run is shown of every way to unfold, and is read off for the run in given
surroundings.

* **`Event`** — one thing a program learns; a history is a list of them.
* **`Program.Unfolds`** — a program goes through a history to a result.
* **`unfolds_bind`**, **`exists_of_unfolds_refine`** — the two ways in which programs are put together.
* **`Program.events`**, **`unfolds_run`** — the history of a run.
* **`Attempt.Unfolds`** — the same for a program that may fail, with a rule for each way to write one.
* **`Event.flag`**, **`Event.Steady`** — the flag of a context that is cancelled while a call is
  answered, if at all.
-/

namespace Keeper

/-- Something a program learns while it runs. With the answer to a call comes whether its
context has been cancelled by then; the program does not see that before it looks. -/
inductive Event (τ ω ρ : Type) where
  | look (raised : Bool)
  | read (time : τ)
  | call (op : ω) (answer : ρ) (raised : Bool)

namespace Event

variable {τ ω ρ : Type}

/-- The call an event is, with its answer. -/
def exchange? : Event τ ω ρ → Option (ω × ρ)
  | .call op answer _ => some (op, answer)
  | _ => none

/-- The calls of a history, each with its answer. -/
def exchanges (h : List (Event τ ω ρ)) : List (ω × ρ) := h.filterMap exchange?

/-- A history with no event exchanges nothing. The five equations are the simplifier's,
one for each kind of event. -/
@[simp] theorem exchanges_nil : exchanges ([] : List (Event τ ω ρ)) = [] := rfl

@[simp] theorem exchanges_look (b : Bool) (h : List (Event τ ω ρ)) :
    exchanges (.look b :: h) = exchanges h := rfl

@[simp] theorem exchanges_read (t : τ) (h : List (Event τ ω ρ)) :
    exchanges (.read t :: h) = exchanges h := rfl

@[simp] theorem exchanges_call (op : ω) (answer : ρ) (raised : Bool) (h : List (Event τ ω ρ)) :
    exchanges (.call op answer raised :: h) = (op, answer) :: exchanges h := rfl

@[simp] theorem exchanges_append (h h' : List (Event τ ω ρ)) :
    exchanges (h ++ h') = exchanges h ++ exchanges h' := List.filterMap_append

/-- A history with a call is split at its first one. This is how a statement about the
calls of a run is brought to the events before and after the first of them. -/
theorem split_of_exchanges {h : List (Event τ ω ρ)} {x : ω × ρ} {xs : List (ω × ρ)}
    (hcalls : exchanges h = x :: xs) :
    ∃ h₁ raised h₂, h = h₁ ++ .call x.1 x.2 raised :: h₂ := by
  induction h with
  | nil => simp at hcalls
  | cons e h ih =>
    -- Looks at the flag and at the clock are no exchanges and stay in front of the call.
    cases e with
    | look b =>
      obtain ⟨h₁, raised, h₂, rfl⟩ := ih hcalls
      exact ⟨.look b :: h₁, raised, h₂, rfl⟩
    | read t =>
      obtain ⟨h₁, raised, h₂, rfl⟩ := ih hcalls
      exact ⟨.read t :: h₁, raised, h₂, rfl⟩
    | call op answer raised =>
      obtain ⟨rfl, -⟩ := List.cons.inj hcalls
      exact ⟨[], raised, h, rfl⟩

/-- A history with one call is split at that call in one way only. So what is known of a
history by its construction applies to any split of it that a statement is about. -/
theorem call_unique {h₁ h₂ h₁' h₂' : List (Event τ ω ρ)} {op op' : ω} {answer answer' : ρ}
    {raised raised' : Bool}
    (hsplit : h₁ ++ .call op answer raised :: h₂ = h₁' ++ .call op' answer' raised' :: h₂')
    (h₁calls : exchanges h₁ = []) (h₂calls : exchanges h₂ = []) :
    h₁' = h₁ ∧ op' = op ∧ answer' = answer ∧ raised' = raised ∧ h₂' = h₂ := by
  rcases List.append_eq_append_iff.mp hsplit with ⟨m, rfl, hrest⟩ | ⟨m, rfl, hrest⟩
  · cases m with
    | nil =>
      obtain ⟨⟨rfl, rfl, rfl⟩, rfl⟩ : (op = op' ∧ answer = answer' ∧ raised = raised') ∧ h₂ = h₂' := by
        simpa using hrest
      exact ⟨by simp, rfl, rfl, rfl, rfl⟩
    | cons e m =>
      -- the other call would be one more after the first
      obtain ⟨-, rfl⟩ := List.cons.inj hrest
      simp at h₂calls
  · cases m with
    | nil =>
      obtain ⟨⟨rfl, rfl, rfl⟩, rfl⟩ : (op' = op ∧ answer' = answer ∧ raised' = raised) ∧ h₂' = h₂ := by
        simpa using hrest
      exact ⟨by simp, rfl, rfl, rfl, rfl⟩
    | cons e m =>
      obtain ⟨rfl, -⟩ := List.cons.inj hrest
      simp at h₁calls

/-! ## The flag of a context

Somebody may cancel a context while a call is answered, and then it stays cancelled. -/

/-- Whether a context that was cancelled or not before a history is so after it, as its
calls tell. -/
def flag (cancelled : Bool) : List (Event τ ω ρ) → Bool
  | [] => cancelled
  | .call _ _ raised :: h => flag raised h
  | .look _ :: h | .read _ :: h => flag cancelled h

/-- Every look shows the flag as it is, and no call takes it down. -/
inductive Steady : Bool → List (Event τ ω ρ) → Prop where
  | nil (cancelled : Bool) : Steady cancelled []
  | look {cancelled : Bool} {h : List (Event τ ω ρ)} (hrest : Steady cancelled h) :
    Steady cancelled (.look cancelled :: h)
  | read {cancelled : Bool} {h : List (Event τ ω ρ)} (t : τ) (hrest : Steady cancelled h) :
    Steady cancelled (.read t :: h)
  | call {cancelled : Bool} {h : List (Event τ ω ρ)} (op : ω) (answer : ρ) (raised : Bool)
    (hkept : cancelled = true → raised = true) (hrest : Steady raised h) :
    Steady cancelled (.call op answer raised :: h)

variable {cancelled : Bool} {h h' : List (Event τ ω ρ)}

/-- The flag is a fold over the history, and a fold runs through a concatenation in two
parts. -/
@[simp] theorem flag_append : flag cancelled (h ++ h') = flag (flag cancelled h) h' := by
  induction h generalizing cancelled with
  | nil => rfl
  | cons e h ih => cases e <;> exact ih

/-- The flag changes during a call alone, so a history with no exchange leaves it as it
was. -/
theorem flag_of_uncalled (hcalls : exchanges h = []) : flag cancelled h = cancelled := by
  induction h with
  | nil => rfl
  | cons e h ih =>
    cases e with
    | look b => exact ih hcalls
    | read t => exact ih hcalls
    | call op answer raised => simp at hcalls

/-- What follows in a steady history is steady from the flag the first part has left. -/
theorem Steady.append_right (hsteady : Steady cancelled (h ++ h')) : Steady (flag cancelled h) h' := by
  induction h generalizing cancelled with
  | nil => exact hsteady
  | cons e h ih =>
    cases hsteady with
    | look hrest => exact ih hrest
    | read t hrest => exact ih hrest
    | call op answer raised hkept hrest => exact ih hrest

/-- The beginning of a steady history is steady: each look in it is a look of the
whole. -/
theorem Steady.append_left (hsteady : Steady cancelled (h ++ h')) : Steady cancelled h := by
  induction h generalizing cancelled with
  | nil => exact .nil cancelled
  | cons e h ih =>
    cases hsteady with
    | look hrest => exact .look (ih hrest)
    | read t hrest => exact .read t (ih hrest)
    | call op answer raised hkept hrest => exact .call op answer raised hkept (ih hrest)

theorem Steady.look_eq {b : Bool} (hsteady : Steady cancelled (h ++ .look b :: h')) :
    b = flag cancelled h := by
  have hlook := hsteady.append_right
  generalize flag cancelled h = c at hlook ⊢
  cases hlook
  rfl

end Event

namespace Program

variable {τ ω ρ ω' ρ' α β σ : Type}

/-- A program goes through a history to a result. What it logs is no part of its
history. -/
inductive Unfolds : Program τ ω ρ α → List (Event τ ω ρ) → α → Prop where
  | done (a : α) : Unfolds (.done a) [] a
  | look {next : Bool → Program τ ω ρ α} {h : List (Event τ ω ρ)} {a : α} (b : Bool)
    (hnext : Unfolds (next b) h a) : Unfolds (.cancelled next) (.look b :: h) a
  | read {next : τ → Program τ ω ρ α} {h : List (Event τ ω ρ)} {a : α} (t : τ)
    (hnext : Unfolds (next t) h a) : Unfolds (.now next) (.read t :: h) a
  | log {next : Program τ ω ρ α} {h : List (Event τ ω ρ)} {a : α} (entry : Log.Entry)
    (hnext : Unfolds next h a) : Unfolds (.log entry next) h a
  | call {next : ρ → Program τ ω ρ α} {h : List (Event τ ω ρ)} {a : α} (op : ω) (answer : ρ)
    (raised : Bool) (hnext : Unfolds (next answer) h a) :
    Unfolds (.call op next) (.call op answer raised :: h) a

section Steps

variable {h : List (Event τ ω ρ)} {a : α}

/-- A program that is done unfolds along the empty history alone. The equations for the
constructors replace an inversion of `Unfolds` in each proof. -/
@[simp] theorem unfolds_done {a' : α} :
    (.done a' : Program τ ω ρ α).Unfolds h a ↔ h = [] ∧ a = a' := by
  constructor
  · rintro ⟨⟩
    exact ⟨rfl, rfl⟩
  · rintro ⟨rfl, rfl⟩
    exact .done a

/-- A look at the flag stands first in the history and decides how the program goes on. -/
@[simp] theorem unfolds_cancelled {next : Bool → Program τ ω ρ α} :
    (Program.cancelled next).Unfolds h a ↔ ∃ b m, h = .look b :: m ∧ (next b).Unfolds m a := by
  constructor
  · rintro (_ | ⟨b, hnext⟩)
    exact ⟨b, _, rfl, hnext⟩
  · rintro ⟨b, m, rfl, hnext⟩
    exact .look b hnext

/-- A reading of the clock stands first in the history, with the instant it has given. -/
@[simp] theorem unfolds_now {next : τ → Program τ ω ρ α} :
    (Program.now next).Unfolds h a ↔ ∃ t m, h = .read t :: m ∧ (next t).Unfolds m a := by
  constructor
  · rintro (_ | _ | ⟨t, hnext⟩)
    exact ⟨t, _, rfl, hnext⟩
  · rintro ⟨t, m, rfl, hnext⟩
    exact .read t hnext

/-- An entry of the log leaves no event: the history is about what a program learns and
does outside. -/
@[simp] theorem unfolds_log {entry : Log.Entry} {next : Program τ ω ρ α} :
    (Program.log entry next).Unfolds h a ↔ next.Unfolds h a := by
  constructor
  · rintro (_ | _ | _ | ⟨-, hnext⟩)
    exact hnext
  · exact .log entry

/-- A call stands first in the history, with its answer and with what happened to the flag
in the meantime. -/
@[simp] theorem unfolds_call {op : ω} {next : ρ → Program τ ω ρ α} :
    (Program.call op next).Unfolds h a
      ↔ ∃ answer raised m, h = .call op answer raised :: m ∧ (next answer).Unfolds m a := by
  constructor
  · rintro (_ | _ | _ | _ | ⟨-, answer, raised, hnext⟩)
    exact ⟨answer, raised, _, rfl, hnext⟩
  · rintro ⟨answer, raised, m, rfl, hnext⟩
    exact .call op answer raised hnext

end Steps

/-! ## The two ways in which programs are put together

Both go by induction on the first program. -/

/-- A history of a sequence is one of the first program followed by one of the second. The
two directions are inductions of their own: on the program where the history is split, and
on the derivation where the two histories are joined. -/
theorem unfolds_bind {p : Program τ ω ρ α} {f : α → Program τ ω ρ β} {h : List (Event τ ω ρ)} {b : β} :
    (p.bind f).Unfolds h b ↔ ∃ h₁ h₂ a, h = h₁ ++ h₂ ∧ p.Unfolds h₁ a ∧ (f a).Unfolds h₂ b := by
  constructor
  · -- Each constructor but the last gives the event it has in front to the first part of the history.
    intro hb
    induction p generalizing h with
    | done a => exact ⟨[], h, a, rfl, .done a, hb⟩
    | cancelled next ih =>
      obtain ⟨b', m, rfl, hnext⟩ := unfolds_cancelled.mp hb
      obtain ⟨h₁, h₂, a, rfl, hfirst, hsecond⟩ := ih b' hnext
      exact ⟨_, h₂, a, rfl, .look b' hfirst, hsecond⟩
    | now next ih =>
      obtain ⟨t, m, rfl, hnext⟩ := unfolds_now.mp hb
      obtain ⟨h₁, h₂, a, rfl, hfirst, hsecond⟩ := ih t hnext
      exact ⟨_, h₂, a, rfl, .read t hfirst, hsecond⟩
    | log entry next ih =>
      obtain ⟨h₁, h₂, a, rfl, hfirst, hsecond⟩ := ih (unfolds_log.mp hb)
      exact ⟨h₁, h₂, a, rfl, .log entry hfirst, hsecond⟩
    | call op next ih =>
      obtain ⟨answer, raised, m, rfl, hnext⟩ := unfolds_call.mp hb
      obtain ⟨h₁, h₂, a, rfl, hfirst, hsecond⟩ := ih answer hnext
      exact ⟨_, h₂, a, rfl, .call op answer raised hfirst, hsecond⟩
  · -- The events of the first history are put in front of the second, one at a time.
    rintro ⟨h₁, h₂, a, rfl, hfirst, hsecond⟩
    induction hfirst with
    | done a => exact hsecond
    | look b' _ ih => exact .look b' (ih hsecond)
    | read t _ ih => exact .read t (ih hsecond)
    | log entry _ ih => exact .log entry (ih hsecond)
    | call op answer raised _ ih => exact .call op answer raised (ih hsecond)

/-- A history whose calls are made by programs: each call is replaced by what its program
learns. -/
inductive Refines (implementation : ω → Program τ ω' ρ' ρ) :
    List (Event τ ω ρ) → List (Event τ ω' ρ') → Prop where
  | nil : Refines implementation [] []
  | look {h : List (Event τ ω ρ)} {h' : List (Event τ ω' ρ')} (b : Bool)
    (hrest : Refines implementation h h') : Refines implementation (.look b :: h) (.look b :: h')
  | read {h : List (Event τ ω ρ)} {h' : List (Event τ ω' ρ')} (t : τ)
    (hrest : Refines implementation h h') : Refines implementation (.read t :: h) (.read t :: h')
  | call {h : List (Event τ ω ρ)} {h' m : List (Event τ ω' ρ')} (op : ω) (answer : ρ) (raised : Bool)
    (hcall : (implementation op).Unfolds m answer) (hrest : Refines implementation h h') :
    Refines implementation (.call op answer raised :: h) (m ++ h')

/-- Each history of a refined program comes from one of the abstract program, in which a
call stands for the history of its implementation. This is what lets a statement about
calls be used of runs that only know requests. -/
theorem exists_of_unfolds_refine {implementation : ω → Program τ ω' ρ' ρ} {p : Program τ ω ρ α}
    {h' : List (Event τ ω' ρ')} {a : α} (hp : (p.refine implementation).Unfolds h' a) :
    ∃ h, p.Unfolds h a ∧ Refines implementation h h' := by
  induction p generalizing h' with
  | done a' =>
    obtain ⟨rfl, rfl⟩ := unfolds_done.mp hp
    exact ⟨[], .done a, .nil⟩
  | cancelled next ih =>
    obtain ⟨b, m, rfl, hnext⟩ := unfolds_cancelled.mp hp
    obtain ⟨h, hunfolds, hrefines⟩ := ih b hnext
    exact ⟨_, .look b hunfolds, .look b hrefines⟩
  | now next ih =>
    obtain ⟨t, m, rfl, hnext⟩ := unfolds_now.mp hp
    obtain ⟨h, hunfolds, hrefines⟩ := ih t hnext
    exact ⟨_, .read t hunfolds, .read t hrefines⟩
  | log entry next ih =>
    obtain ⟨h, hunfolds, hrefines⟩ := ih (unfolds_log.mp hp)
    exact ⟨h, .log entry hunfolds, hrefines⟩
  | call op next ih =>
    -- the call is a program now; whether the flag is up after it is for its own history to say
    obtain ⟨m, rest, answer, rfl, hcall, hnext⟩ := unfolds_bind.mp hp
    obtain ⟨h, hunfolds, hrefines⟩ := ih answer hnext
    exact ⟨_, .call op answer false hunfolds, .call op answer false hcall hrefines⟩

namespace Refines

variable {implementation : ω → Program τ ω' ρ' ρ} {h h₁ h₂ : List (Event τ ω ρ)}
  {h' : List (Event τ ω' ρ')}

/-- A refined history splits where the abstract one does. So a point in a cycle's history
has a point in that of its requests, and what the cycle had seen by then the requests have
seen too. -/
theorem append_inv (hrefines : Refines implementation (h₁ ++ h₂) h') :
    ∃ h₁' h₂', h' = h₁' ++ h₂' ∧ Refines implementation h₁ h₁' ∧ Refines implementation h₂ h₂' := by
  induction h₁ generalizing h' with
  | nil => exact ⟨[], h', rfl, .nil, hrefines⟩
  | cons e h₁ ih =>
    -- Each event of the history refines to a stretch of its own, so the cut falls between two stretches.
    cases hrefines with
    | look b hrest =>
      obtain ⟨h₁', h₂', rfl, hfirst, hsecond⟩ := ih hrest
      exact ⟨_, h₂', rfl, .look b hfirst, hsecond⟩
    | read t hrest =>
      obtain ⟨h₁', h₂', rfl, hfirst, hsecond⟩ := ih hrest
      exact ⟨_, h₂', rfl, .read t hfirst, hsecond⟩
    | call op answer raised hcall hrest =>
      obtain ⟨h₁', h₂', rfl, hfirst, hsecond⟩ := ih hrest
      exact ⟨_, h₂', by rw [List.append_assoc], .call op answer raised hcall hfirst, hsecond⟩

/-- One call is replaced by its program. -/
theorem of_call {op : ω} {answer : ρ} {raised : Bool}
    (hrefines : Refines implementation [.call op answer raised] h') :
    (implementation op).Unfolds h' answer := by
  cases hrefines with
  | call _ _ _ hcall hrest =>
    cases hrest
    rwa [List.append_nil]

/-- Every call of the refinement is made for some call of the program. The history before
that call refines what the program had seen by then, so a statement about the program's
history applies at each of its requests. -/
theorem split (hrefines : Refines implementation h h') {before' after' : List (Event τ ω' ρ')} {op' : ω'}
    {answer' : ρ'} {raised' : Bool} (hh' : h' = before' ++ .call op' answer' raised' :: after') :
    ∃ before op answer raised after before₁' m₁ m₂, h = before ++ .call op answer raised :: after
      ∧ Refines implementation before before₁'
      ∧ (implementation op).Unfolds (m₁ ++ .call op' answer' raised' :: m₂) answer
      ∧ before' = before₁' ++ m₁ := by
  induction hrefines generalizing before' with
  | nil => simp at hh'
  -- Looks and readings are the same in both histories, so the call lies further on.
  | @look h h' b hrest ih =>
    match before', hh' with
    | e :: before', hh' =>
      obtain ⟨rfl, hrest'⟩ := List.cons.inj hh'
      obtain ⟨before, op, answer, raised, after, before₁', m₁, m₂, rfl, hbefore, hcall, rfl⟩ := ih hrest'
      exact ⟨_, op, answer, raised, after, _, m₁, m₂, rfl, .look b hbefore, hcall, rfl⟩
  | @read h h' t hrest ih =>
    match before', hh' with
    | e :: before', hh' =>
      obtain ⟨rfl, hrest'⟩ := List.cons.inj hh'
      obtain ⟨before, op, answer, raised, after, before₁', m₁, m₂, rfl, hbefore, hcall, rfl⟩ := ih hrest'
      exact ⟨_, op, answer, raised, after, _, m₁, m₂, rfl, .read t hbefore, hcall, rfl⟩
  | @call h h' m op answer raised hcall hrest ih =>
    -- it is made for this call, or for a later one
    rcases List.append_eq_append_iff.mp hh' with ⟨m', rfl, hlater⟩ | ⟨m', hm, hlater⟩
    · obtain ⟨before, op₁, answer₁, raised₁, after, before₁', m₁, m₂, rfl, hbefore, hcall', rfl⟩ :=
        ih hlater
      exact ⟨_, op₁, answer₁, raised₁, after, _, m₁, m₂, rfl, .call op answer raised hcall hbefore,
        hcall', by rw [List.append_assoc]⟩
    · match m', hlater with
      -- The refinement of this call ends right before the call in question, which is made for a later
      -- one.
      | [], hlater =>
        obtain ⟨before, op₁, answer₁, raised₁, after, before₁', m₁, m₂, rfl, hbefore, hcall', hnil⟩ :=
          @ih [] hlater.symm
        obtain ⟨rfl, rfl⟩ : before₁' = [] ∧ m₁ = [] := by simpa using hnil.symm
        refine ⟨_, op₁, answer₁, raised₁, after, _, [], m₂, rfl, .call op answer raised hcall hbefore,
          hcall', ?_⟩
        simpa using hm.symm
      | e :: m', hlater =>
        obtain ⟨rfl, rfl⟩ := List.cons.inj hlater
        exact ⟨[], op, answer, raised, h, [], before', m', rfl, .nil, hm ▸ hcall, rfl⟩

end Refines

/-! ## Runs -/

/-- What a program learns in its surroundings. -/
def events (world : Surroundings σ τ ω ρ) : Program τ ω ρ α → σ → List (Event τ ω ρ)
  | .done _, _ => []
  | .cancelled next, s => .look (world.cancelled s) :: (next (world.cancelled s)).events world s
  | .now next, s => .read (world.now s).1 :: (next (world.now s).1).events world (world.now s).2
  | .log entry next, s => next.events world (world.log entry s)
  | .call op next, s =>
    .call op (world.call op s).1 (world.cancelled (world.call op s).2)
      :: (next (world.call op s).1).events world (world.call op s).2

/-- A run unfolds its program along the events of the run. Every statement about all
histories is a statement about all runs by it. -/
theorem unfolds_run (world : Surroundings σ τ ω ρ) (p : Program τ ω ρ α) (s : σ) :
    p.Unfolds (p.events world s) (p.run world s).1 := by
  induction p generalizing s with
  | done a => exact .done a
  | cancelled next ih => exact .look _ (ih _ s)
  | now next ih => exact .read _ (ih _ _)
  | log entry next ih => exact .log entry (ih _)
  | call op next ih => exact .call op _ _ (ih _ _)

/-- In surroundings that cancel a context only while they answer a call, and for good, the
history of a run is steady. -/
theorem steady_events {world : Surroundings σ τ ω ρ}
    (hnow : ∀ s, world.cancelled (world.now s).2 = world.cancelled s)
    (hlog : ∀ entry s, world.cancelled (world.log entry s) = world.cancelled s)
    (hcall : ∀ op s, world.cancelled s = true → world.cancelled (world.call op s).2 = true)
    (p : Program τ ω ρ α) (s : σ) : Event.Steady (world.cancelled s) (p.events world s) := by
  induction p generalizing s with
  | done a => exact .nil _
  | cancelled next ih => exact .look (ih _ s)
  | now next ih => exact .read _ (hnow s ▸ ih _ _)
  | log entry next ih => exact hlog entry s ▸ ih _
  | call op next ih => exact .call op _ _ (hcall op s) (ih _ _)

/-- A time in the history of a run is one that the clock shows. It ties the histories,
which are about what a program has read, to the surroundings that it has read it from. -/
theorem time_of_mem_events {world : Surroundings σ τ ω ρ} {p : Program τ ω ρ α} {s : σ} {t : τ}
    (hread : .read t ∈ p.events world s) : ∃ s', t = (world.now s').1 := by
  -- On the program; only a reading of the clock puts such an event into the history.
  induction p generalizing s with
  | done a => simp [events] at hread
  | cancelled next ih =>
    obtain ⟨⟩ | ⟨_, hread⟩ := hread
    exact ih _ hread
  | now next ih =>
    obtain _ | ⟨_, hread⟩ := hread
    · exact ⟨s, rfl⟩
    · exact ih _ hread
  | log entry next ih => exact ih hread
  | call op next ih =>
    obtain ⟨⟩ | ⟨_, hread⟩ := hread
    exact ih _ hread

/-- The exchanges of a run are those of its events: the two recordings of a run agree. -/
theorem exchanges_events (world : Surroundings σ τ ω ρ) (p : Program τ ω ρ α) (s : σ) :
    Event.exchanges (p.events world s) = p.exchanges world s := by
  induction p generalizing s with
  | done a => rfl
  | cancelled next ih => exact ih _ s
  | now next ih => exact ih _ _
  | log entry next ih => exact ih _
  | call op next ih => exact congrArg _ (ih _ _)

end Program

/-! ## A rule for each way to write an attempt -/

namespace Attempt

variable {τ ω ρ α β : Type} {h : List (Event τ ω ρ)}

/-- An attempt goes through a history to what it succeeds with or to how it fails. -/
def Unfolds (x : Attempt τ ω ρ α) (h : List (Event τ ω ρ)) (result : Except Fault α) : Prop :=
  x.run.Unfolds h result

/-- What is said of a result: of what an attempt succeeded with, or of how it failed. -/
def EndsWith (succeeds : α → Prop) (fails : Fault → Prop) : Except Fault α → Prop
  | .ok a => succeeds a
  | .error f => fails f

/-- A weaker conclusion on either side follows. -/
theorem EndsWith.mono {succeeds succeeds' : α → Prop} {fails fails' : Fault → Prop}
    {result : Except Fault α} (hends : EndsWith succeeds fails result)
    (hok : ∀ a, succeeds a → succeeds' a) (hfail : ∀ f, fails f → fails' f) :
    EndsWith succeeds' fails' result := by
  cases result with
  | ok a => exact hok a hends
  | error f => exact hfail f hends

@[simp] theorem unfolds_lift {e result : Except Fault α} :
    (liftM e : Attempt τ ω ρ α).Unfolds h result ↔ h = [] ∧ result = e := Program.unfolds_done

/-- The case of a success, which the simplifier meets as `pure`. -/
@[simp] theorem unfolds_pure {a : α} {result : Except Fault α} :
    (pure a : Attempt τ ω ρ α).Unfolds h result ↔ h = [] ∧ result = .ok a := Program.unfolds_done

/-- The case of a failure, which the simplifier meets as `throw`. -/
@[simp] theorem unfolds_throw {f : Fault} {result : Except Fault α} :
    (throw f : Attempt τ ω ρ α).Unfolds h result ↔ h = [] ∧ result = .error f :=
  Program.unfolds_done

/-- A sequence of attempts has two kinds of history: the first attempt fails and the
second never starts, or the first succeeds and its value goes to the second. -/
theorem unfolds_bind {x : Attempt τ ω ρ α} {f : α → Attempt τ ω ρ β} {result : Except Fault β} :
    (x >>= f).Unfolds h result
      ↔ (∃ fault, result = .error fault ∧ x.Unfolds h (.error fault))
        ∨ ∃ h₁ h₂ a, h = h₁ ++ h₂ ∧ x.Unfolds h₁ (.ok a) ∧ (f a).Unfolds h₂ result := by
  refine (Program.unfolds_bind (p := x.run)).trans ⟨?_, ?_⟩
  · rintro ⟨h₁, h₂, a | a, rfl, hx, hf⟩
    · cases hf
      rw [List.append_nil]
      exact .inl ⟨a, rfl, hx⟩
    · exact .inr ⟨h₁, h₂, a, rfl, hx, hf⟩
  · rintro (⟨fault, rfl, hx⟩ | ⟨h₁, h₂, a, rfl, hx, hf⟩)
    · exact ⟨h, [], .error fault, by simp, hx, .done _⟩
    · exact ⟨h₁, h₂, .ok a, rfl, hx, hf⟩

/-- The four rules for a primitive step in front of an attempt unfold one event of the
history each. -/
@[simp] theorem unfolds_log_bind {entry : Log.Entry} {f : Unit → Attempt τ ω ρ β}
    {result : Except Fault β} :
    (Attempt.log entry >>= f).Unfolds h result ↔ (f ()).Unfolds h result := Program.unfolds_log

@[simp] theorem unfolds_cancelled_bind {f : Bool → Attempt τ ω ρ β} {result : Except Fault β} :
    (Attempt.cancelled >>= f).Unfolds h result
      ↔ ∃ b m, h = .look b :: m ∧ (f b).Unfolds m result := Program.unfolds_cancelled

@[simp] theorem unfolds_now_bind {f : τ → Attempt τ ω ρ β} {result : Except Fault β} :
    (Attempt.now >>= f).Unfolds h result
      ↔ ∃ t m, h = .read t :: m ∧ (f t).Unfolds m result := Program.unfolds_now

@[simp] theorem unfolds_call_bind {op : ω} {f : ρ → Attempt τ ω ρ β} {result : Except Fault β} :
    (Attempt.call op >>= f).Unfolds h result
      ↔ ∃ answer raised m, h = .call op answer raised :: m ∧ (f answer).Unfolds m result :=
  Program.unfolds_call

/-- Renaming the fault changes the result and not the history. -/
@[simp] theorem unfolds_mapFault {g : Fault → Fault} {x : Attempt τ ω ρ α}
    {result : Except Fault α} :
    (x.mapFault g).Unfolds h result ↔ ∃ r, result = r.mapError g ∧ x.Unfolds h r := by
  refine (Program.unfolds_bind (p := x.run)).trans ⟨?_, ?_⟩
  · rintro ⟨h₁, h₂, r, rfl, hx, ⟨⟩⟩
    rw [List.append_nil]
    exact ⟨r, rfl, hx⟩
  · rintro ⟨r, rfl, hx⟩
    exact ⟨h, [], r, by simp, hx, .done _⟩

end Attempt

end Keeper
