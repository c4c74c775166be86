import Keeper.Program

/-!
# Keeper — what a program does, call by call

A program is a tree, so what it does in any surroundings is settled by induction on it. A statement
about its calls is made once, for all the answers it may get, and is then read off for a run.

* **`Program.exchanges`** — the calls a program makes in its surroundings, each with its answer.
* **`Program.Abides`** — whatever a program is answered, each of its calls is permitted after the
  exchanges before it, and its result fits the exchanges it has had.
* **`abides_bind`**, **`abides_refine`** — the two ways in which programs are put together.
* **`ends_of_abides`**, **`permits_of_abides`**, **`answer_of_mem_exchanges`** — the transport to a run.
* **`Attempt.Abides`** — the same for a program that may fail, with a rule for each way to write one.
-/

namespace Keeper

namespace Program

variable {τ ω ρ ω' ρ' α β σ : Type}

/-- The calls a program makes in its surroundings, each with its answer. -/
def exchanges (world : Surroundings σ τ ω ρ) : Program τ ω ρ α → σ → List (ω × ρ)
  | .done _, _ => []
  | .cancelled next, s => (next (world.cancelled s)).exchanges world s
  | .now next, s => (next (world.now s).1).exchanges world (world.now s).2
  | .log entry next, s => next.exchanges world (world.log entry s)
  | .call op next, s =>
    (op, (world.call op s).1) :: (next (world.call op s).1).exchanges world (world.call op s).2

/-- Whatever a program is answered, each of its calls is permitted after the exchanges
before it, and its result fits the exchanges it has had. -/
def Abides (permits : List (ω × ρ) → ω → Prop) (ends : List (ω × ρ) → α → Prop) :
    Program τ ω ρ α → List (ω × ρ) → Prop
  | .done a, es => ends es a
  | .cancelled next, es => ∀ b, (next b).Abides permits ends es
  | .now next, es => ∀ t, (next t).Abides permits ends es
  | .log _ next, es => next.Abides permits ends es
  | .call op next, es => permits es op ∧ ∀ r, (next r).Abides permits ends (es ++ [(op, r)])

variable {permits : List (ω × ρ) → ω → Prop} {permits' : List (ω' × ρ') → ω' → Prop}

/-! ## The two ways in which programs are put together

Both go by induction on the first program; the exchanges it has had are handed on to the second. -/

/-- A weaker condition at the end holds of the same program. The induction is on the
program, and only its last case says anything. -/
theorem abides_mono {ends ends' : List (ω × ρ) → α → Prop} {p : Program τ ω ρ α}
    {es : List (ω × ρ)} (h : p.Abides permits ends es) (himp : ∀ es a, ends es a → ends' es a) :
    p.Abides permits ends' es := by
  induction p generalizing es with
  | done a => exact himp es a h
  | cancelled next ih => exact fun b => ih b (h b)
  | now next ih => exact fun t => ih t (h t)
  | log entry next ih => exact ih h
  | call op next ih => exact ⟨h.1, fun r => ih r (h.2 r)⟩

/-- A sequence keeps a protocol if the first program keeps it and then, at each of its
ends, the second does from there. With this rule the protocol of a program is computed
along its text. -/
theorem abides_bind {ends : List (ω × ρ) → β → Prop} (p : Program τ ω ρ α)
    (f : α → Program τ ω ρ β) (es : List (ω × ρ)) :
    (p.bind f).Abides permits ends es
      ↔ p.Abides permits (fun es a => (f a).Abides permits ends es) es := by
  induction p generalizing es with
  | done a => rfl
  | cancelled next ih => exact forall_congr' fun b => ih b es
  | now next ih => exact forall_congr' fun t => ih t es
  | log entry next ih => exact ih es
  | call op next ih => exact and_congr_right fun _ => forall_congr' fun r => ih r _

/-- **Refinement of calls.** `R` relates what a program has exchanged to what its
refinement has. If the implementation of every permitted call keeps `R`, then a program
that abides is refined to one that does. -/
theorem abides_refine {implementation : ω → Program τ ω' ρ' ρ}
    (R : List (ω × ρ) → List (ω' × ρ') → Prop) {ends : List (ω × ρ) → α → Prop}
    (hcall : ∀ es es' op, R es es' → permits es op →
      (implementation op).Abides permits' (fun es' r => R (es ++ [(op, r)]) es') es')
    {p : Program τ ω ρ α} {es : List (ω × ρ)} {es' : List (ω' × ρ')} (hR : R es es')
    (h : p.Abides permits ends es) :
    (p.refine implementation).Abides permits' (fun es' a => ∃ es, R es es' ∧ ends es a) es' := by
  induction p generalizing es es' with
  | done a => exact ⟨es, hR, h⟩
  | cancelled next ih => exact fun b => ih b hR (h b)
  | now next ih => exact fun t => ih t hR (h t)
  | log entry next ih => exact ih hR h
  | call op next ih =>
    -- the call is a program now, and what comes after it goes on from its exchanges
    refine (abides_bind _ _ _).mpr ?_
    exact abides_mono (hcall es es' op hR h.1) fun es'' r hr => ih r hr (h.2 r)

/-! ## The transport to a run

In given surroundings a program takes one way through its tree, so what holds of all ways holds of
the run. Induction on the program. -/

/-- What holds at each end of a program holds at the end of each run, over any
surroundings: the exchanges of the run are those that the protocol has followed. -/
theorem ends_of_abides {ends : List (ω × ρ) → α → Prop} {p : Program τ ω ρ α}
    {es : List (ω × ρ)} (h : p.Abides permits ends es) (world : Surroundings σ τ ω ρ) (s : σ) :
    ends (es ++ p.exchanges world s) (p.run world s).1 := by
  induction p generalizing es s with
  | done a => simpa [exchanges, run, Abides] using h
  | cancelled next ih => exact ih _ (h _) s
  | now next ih => exact ih _ (h _) _
  | log entry next ih => exact ih h _
  | call op next ih =>
    have hnext := ih _ (h.2 (world.call op s).1) (world.call op s).2
    simpa [exchanges, run] using hnext

/-- A call in a run is permitted after the exchanges before it. Programs are trees, and
abiding is a property of the tree; this is where it becomes one of each run. -/
theorem permits_of_abides {ends : List (ω × ρ) → α → Prop} {p : Program τ ω ρ α}
    {es before after : List (ω × ρ)} {op : ω} {r : ρ} (h : p.Abides permits ends es)
    {world : Surroundings σ τ ω ρ} {s : σ}
    (hsplit : p.exchanges world s = before ++ (op, r) :: after) : permits (es ++ before) op := by
  induction p generalizing es before s with
  | done a => simp [exchanges] at hsplit
  | cancelled next ih => exact ih _ (h _) hsplit
  | now next ih => exact ih _ (h _) hsplit
  | log entry next ih => exact ih h hsplit
  | call op' next ih =>
    cases before with
    | nil =>
      obtain ⟨⟨rfl, -⟩, -⟩ : (op' = op ∧ _ = r) ∧ _ = after := by simpa [exchanges] using hsplit
      simpa using h.1
    | cons x before =>
      -- the first call is before it; the rest of the program goes on from there
      obtain ⟨rfl, hrest⟩ := List.cons.inj hsplit
      simpa using ih _ (h.2 _) hrest

/-- An answer in a run is one that the surroundings give. -/
theorem answer_of_mem_exchanges {world : Surroundings σ τ ω ρ} {p : Program τ ω ρ α} {s : σ} {op : ω}
    {r : ρ} (h : (op, r) ∈ p.exchanges world s) : ∃ s', r = (world.call op s').1 := by
  -- On the program; only a call adds an exchange, answered in the state reached by then.
  induction p generalizing s with
  | done a => simp [exchanges] at h
  | cancelled next ih => exact ih _ h
  | now next ih => exact ih _ h
  | log entry next ih => exact ih h
  | call op' next ih =>
    rcases List.mem_cons.mp h with heq | htail
    · obtain ⟨rfl, rfl⟩ := Prod.mk.inj heq
      exact ⟨s, rfl⟩
    · exact ih _ htail

/-- A step of a program that makes no call, with whatever answer. -/
inductive Silent : Program τ ω ρ α → Program τ ω ρ α → Prop where
  | cancelled (next : Bool → Program τ ω ρ α) (b : Bool) : Silent (.cancelled next) (next b)
  | now (next : τ → Program τ ω ρ α) (t : τ) : Silent (.now next) (next t)
  | log (entry : Log.Entry) (next : Program τ ω ρ α) : Silent (.log entry next) next

/-- A silent step, which looks at the flag or the clock or writes an entry, stays within
the protocol. -/
theorem Abides.silent {ends : List (ω × ρ) → α → Prop} {p p' : Program τ ω ρ α}
    {es : List (ω × ρ)} (h : p.Abides permits ends es) (hstep : p.Silent p') :
    p'.Abides permits ends es := by
  cases hstep with
  | cancelled next b => exact h b
  | now next t => exact h t
  | log entry next => exact h

/-! ## Runs put together -/

/-- A run of a sequence is a run of the first program and one of the second from where it
has left the surroundings. -/
theorem run_bind (world : Surroundings σ τ ω ρ) (p : Program τ ω ρ α) (f : α → Program τ ω ρ β)
    (s : σ) : (p.bind f).run world s = (f (p.run world s).1).run world (p.run world s).2 := by
  induction p generalizing s with
  | done a => rfl
  | cancelled next ih => exact ih _ s
  | now next ih => exact ih _ _
  | log entry next ih => exact ih _
  | call op next ih => exact ih _ _

/-- The exchanges of a sequence are those of the first run followed by those of the
second. -/
theorem exchanges_bind (world : Surroundings σ τ ω ρ) (p : Program τ ω ρ α) (f : α → Program τ ω ρ β)
    (s : σ) :
    (p.bind f).exchanges world s
      = p.exchanges world s ++ (f (p.run world s).1).exchanges world (p.run world s).2 := by
  induction p generalizing s with
  | done a => rfl
  | cancelled next ih => exact ih _ s
  | now next ih => exact ih _ _
  | log entry next ih => exact ih _
  | call op next ih => exact congrArg _ (ih _ _)

/-- Sequencing is associative, by induction on the first program. -/
theorem bind_assoc {γ : Type} (p : Program τ ω ρ α) (f : α → Program τ ω ρ β)
    (g : β → Program τ ω ρ γ) : (p.bind f).bind g = p.bind fun a => (f a).bind g := by
  induction p with
  | done a => rfl
  | cancelled next ih => exact congrArg _ (funext ih)
  | now next ih => exact congrArg _ (funext ih)
  | log entry next ih => exact congrArg _ ih
  | call op next ih => exact congrArg _ (funext ih)

/-- Refinement goes through sequencing, so that a program may be refined step by step. -/
theorem refine_bind (implementation : ω → Program τ ω' ρ' ρ) (p : Program τ ω ρ α)
    (f : α → Program τ ω ρ β) : (p.bind f).refine implementation
      = (p.refine implementation).bind fun a => (f a).refine implementation := by
  induction p with
  | done a => rfl
  | cancelled next ih => exact congrArg _ (funext ih)
  | now next ih => exact congrArg _ (funext ih)
  | log entry next ih => exact congrArg _ ih
  | call op next ih =>
    refine Eq.trans ?_ (bind_assoc _ _ _).symm
    exact congrArg _ (funext ih)

end Program

/-- Surroundings in which every call is made by a program. -/
def Surroundings.through {σ τ ω ρ ω' ρ' : Type} (world : Surroundings σ τ ω' ρ')
    (implementation : ω → Program τ ω' ρ' ρ) : Surroundings σ τ ω ρ where
  cancelled := world.cancelled
  now := world.now
  log := world.log
  call op s := (implementation op).run world s

/-- A refined program runs as the program does where its calls are made by the
refinement. -/
theorem Program.run_refine {σ τ ω ρ ω' ρ' α : Type} (world : Surroundings σ τ ω' ρ')
    (implementation : ω → Program τ ω' ρ' ρ) (p : Program τ ω ρ α) (s : σ) :
    (p.refine implementation).run world s = p.run (world.through implementation) s := by
  induction p generalizing s with
  | done a => rfl
  | cancelled next ih => exact ih _ s
  | now next ih => exact ih _ _
  | log entry next ih => exact ih _
  | call op next ih =>
    -- a call is run to its end before the rest goes on
    rw [refine, run_bind]
    exact ih _ _

namespace Attempt

variable {τ ω ρ α β : Type} {permits : List (ω × ρ) → ω → Prop}

/-- Whatever an attempt is answered, each of its calls is permitted, and what it succeeds
with or how it fails fits the exchanges it has had. -/
def Abides (permits : List (ω × ρ) → ω → Prop) (succeeds : List (ω × ρ) → α → Prop)
    (fails : List (ω × ρ) → Fault → Prop) (x : Attempt τ ω ρ α) (es : List (ω × ρ)) : Prop :=
  x.run.Abides permits (fun es r =>
    match r with
    | .ok a => succeeds es a
    | .error f => fails es f) es

variable {succeeds : List (ω × ρ) → α → Prop} {fails : List (ω × ρ) → Fault → Prop}
  {es : List (ω × ρ)}

/-! ## A rule for each way to write an attempt -/

/-- The rules for attempts reduce the protocol of an attempt to conditions on its values
and its faults. They follow the notation in which attempts are written, and the simplifier
applies them from the front. -/
@[simp] theorem abides_pure (a : α) :
    Abides permits succeeds fails (pure a : Attempt τ ω ρ α) es ↔ succeeds es a := Iff.rfl

@[simp] theorem abides_throw (f : Fault) :
    Abides permits succeeds fails (throw f : Attempt τ ω ρ α) es ↔ fails es f := Iff.rfl

/-- In a sequence the condition on a success of the first attempt is the protocol of the
second. -/
@[simp] theorem abides_bind {succeeds : List (ω × ρ) → β → Prop} (x : Attempt τ ω ρ α)
    (f : α → Attempt τ ω ρ β) :
    Abides permits succeeds fails (x >>= f) es
      ↔ Abides permits (fun es a => Abides permits succeeds fails (f a) es) fails x es := by
  refine (Program.abides_bind x.run _ es).trans (iff_of_eq ?_)
  congr 1
  funext es' r
  cases r <;> rfl

/-- A pure step takes no exchange: its own result decides which condition is asked for. -/
@[simp] theorem abides_lift (e : Except Fault α) :
    Abides permits succeeds fails (liftM e : Attempt τ ω ρ α) es
      ↔ match e with
        | .ok a => succeeds es a
        | .error f => fails es f := Iff.rfl

/-- A call has to be permitted after the exchanges so far, and the attempt goes on
whatever the answer is. -/
@[simp] theorem abides_call {succeeds : List (ω × ρ) → ρ → Prop} (op : ω) :
    Abides permits succeeds fails (Attempt.call op : Attempt τ ω ρ ρ) es
      ↔ permits es op ∧ ∀ r, succeeds (es ++ [(op, r)]) r := Iff.rfl

@[simp] theorem abides_log {succeeds : List (ω × ρ) → Unit → Prop} (entry : Log.Entry) :
    Abides permits succeeds fails (Attempt.log entry : Attempt τ ω ρ Unit) es
      ↔ succeeds es () := Iff.rfl

@[simp] theorem abides_cancelled {succeeds : List (ω × ρ) → Bool → Prop} :
    Abides permits succeeds fails (Attempt.cancelled : Attempt τ ω ρ Bool) es
      ↔ ∀ b, succeeds es b := Iff.rfl

@[simp] theorem abides_now {succeeds : List (ω × ρ) → τ → Prop} :
    Abides permits succeeds fails (Attempt.now : Attempt τ ω ρ τ) es ↔ ∀ t, succeeds es t := Iff.rfl

/-- A renamed fault is judged under its new name. -/
@[simp] theorem abides_mapFault (g : Fault → Fault) (x : Attempt τ ω ρ α) :
    Abides permits succeeds fails (x.mapFault g) es
      ↔ Abides permits succeeds (fun es f => fails es (g f)) x es := by
  refine (Program.abides_bind x.run _ es).trans (iff_of_eq ?_)
  congr 1
  funext es' r
  cases r <;> rfl

/-- Weaker conditions on both kinds of end. -/
theorem Abides.mono {succeeds' : List (ω × ρ) → α → Prop} {fails' : List (ω × ρ) → Fault → Prop}
    {x : Attempt τ ω ρ α} (h : Abides permits succeeds fails x es)
    (hok : ∀ es a, succeeds es a → succeeds' es a) (hfail : ∀ es f, fails es f → fails' es f) :
    Abides permits succeeds' fails' x es :=
  Program.abides_mono h fun es r hr =>
    match r with
    | .ok a => hok es a hr
    | .error f => hfail es f hr

/-! ## What an attempt yields

In surroundings whose answers are known, a run is followed step by step to its result; what is known
of the state is handed on. -/

variable {σ : Type} {world : Surroundings σ τ ω ρ}

/-- An attempt yields a result and leaves a state with some property behind. -/
def Yields (world : Surroundings σ τ ω ρ) (x : Attempt τ ω ρ α) (s : σ) (result : Except Fault α)
    (post : σ → Prop) : Prop :=
  (x.run.run world s).1 = result ∧ post (x.run.run world s).2

variable {s : σ} {post : σ → Prop}

/-- The rules for what an attempt yields follow the same notation as those for protocols,
with the state of the surroundings in place of the exchanges. -/
theorem yields_pure {a : α} (h : post s) :
    Yields world (pure a : Attempt τ ω ρ α) s (.ok a) post := ⟨rfl, h⟩

theorem yields_throw {f : Fault} (h : post s) :
    Yields world (throw f : Attempt τ ω ρ α) s (.error f) post := ⟨rfl, h⟩

theorem yields_lift {e : Except Fault α} (h : post s) :
    Yields world (liftM e : Attempt τ ω ρ α) s e post := ⟨rfl, h⟩

theorem yields_log {entry : Log.Entry} (h : post (world.log entry s)) :
    Yields world (Attempt.log entry : Attempt τ ω ρ Unit) s (.ok ()) post := ⟨rfl, h⟩

theorem yields_cancelled (h : post s) :
    Yields world (Attempt.cancelled : Attempt τ ω ρ Bool) s (.ok (world.cancelled s)) post :=
  ⟨rfl, h⟩

/-- A call yields the answer of the surroundings and leaves them as the call does. -/
theorem yields_call {op : ω} (h : post (world.call op s).2) :
    Yields world (Attempt.call op : Attempt τ ω ρ ρ) s (.ok (world.call op s).1) post := ⟨rfl, h⟩

/-- A success hands its value on, together with what is known of the surroundings in
between. -/
theorem Yields.bind {x : Attempt τ ω ρ α} {f : α → Attempt τ ω ρ β} {a : α}
    {result : Except Fault β} {mid : σ → Prop} (hx : Yields world x s (.ok a) mid)
    (hf : ∀ s', mid s' → Yields world (f a) s' result post) :
    Yields world (x >>= f) s result post := by
  have hrun : (x >>= f).run.run world s = (f a).run.run world (x.run.run world s).2 := by
    refine (Program.run_bind world x.run _ s).trans ?_
    rw [hx.1]
    rfl
  unfold Yields
  rw [hrun]
  exact hf _ hx.2

/-- A failure ends the sequence, and the second attempt never starts. -/
theorem Yields.bind_error {x : Attempt τ ω ρ α} {f : α → Attempt τ ω ρ β} {e : Fault}
    (hx : Yields world x s (.error e) post) : Yields world (x >>= f) s (.error e) post := by
  have hrun : (x >>= f).run.run world s = (.error e, (x.run.run world s).2) := by
    refine (Program.run_bind world x.run _ s).trans ?_
    rw [hx.1]
    rfl
  exact ⟨congrArg Prod.fst hrun, by rw [hrun]; exact hx.2⟩

/-- The result is renamed, and what holds of the surroundings afterwards stays. -/
theorem Yields.mapFault {x : Attempt τ ω ρ α} {result : Except Fault α}
    (hx : Yields world x s result post) (g : Fault → Fault) :
    Yields world (x.mapFault g) s (result.mapError g) post := by
  have hrun : (x.mapFault g).run.run world s = ((x.run.run world s).1.mapError g, (x.run.run world s).2) :=
    Program.run_bind world x.run _ s
  exact ⟨by rw [hrun, hx.1], by rw [hrun]; exact hx.2⟩

theorem Yields.mapFault_ok {x : Attempt τ ω ρ α} {a : α} (hx : Yields world x s (.ok a) post)
    (g : Fault → Fault) : Yields world (x.mapFault g) s (.ok a) post := hx.mapFault g

end Attempt

end Keeper
