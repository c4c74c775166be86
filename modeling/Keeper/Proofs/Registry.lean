import Mathlib.Tactic.Tauto
import Keeper.Proofs.Enclosure

/-!
# Keeper — the loggers there are

What becomes of the loggers when one is added, and what holds of them at all times.

* **`Loggers.Known`**, **`Loggers.Awaits`** — the loggers there are, and the names for which they wait.
* **`Loggers.Placed`**, **`Loggers.Waits`** — what the two halves of adding a logger change: the names
  that wait for it, and the names that it waits for.
* **`Loggers.Enters`**, **`Loggers.ensure_cases`** — all that a new logger changes.
* **`Loggers.Orderly`** — a logger is below one of an enclosing name, and waits for enclosing names.
* **`Loggers.Leads`** — the loggers behind a base name lead to its logger.
* **`Loggers.Resembles`** — a change that leaves what is above a logger leaves both.
* **`Loggers.Reached`** — the loggers that come about; **`Reached.orderly`** and **`Reached.leads`** hold
  of them.
-/

namespace Keeper.Log

/-! ## The loggers there are -/

namespace Loggers

variable {ls : Loggers}

/-- There is a logger of a name. -/
def Known (ls : Loggers) (name : Text) : Prop := ∃ l, ls.slot? name = some (.logger l)

/-- A logger waits for a name. -/
def Awaits (ls : Loggers) (outer name : Text) : Prop :=
  ∃ names, ls.slot? outer = some (.awaited names) ∧ name ∈ names

/-- The registry is a table: a slot that is set is found under its name, and the others as
before. -/
theorem slot?_setSlot (ls : Loggers) (name : Text) (slot : Slot) (n : Text) :
    (ls.setSlot name slot).slot? n = if n = name then some slot else ls.slot? n := by
  rw [slot?, setSlot, List.lookup_cons]
  by_cases hn : n = name
  · simp [hn]
  · have hne : (n == name) = false := by simpa using hn
    -- the old slot of the name is filtered out first, which the lookup of another name does not notice
    have hother : (ls.slots.filter (·.1 != name)).lookup n = ls.slots.lookup n := by
      induction ls.slots with
      | nil => rfl
      | cons e rest ih =>
        obtain ⟨k, slot⟩ := e
        by_cases hk : k = name
        · simp [hk, hne, List.lookup_cons, ih]
        · simp [hk, List.lookup_cons, ih]
    simp [hn, hne, hother, slot?]

@[simp] theorem root_setSlot (ls : Loggers) (name : Text) (slot : Slot) :
    (ls.setSlot name slot).root = ls.root := rfl

/-- Under a name there is a logger or something that waits, never both. -/
theorem Known.not_awaits {outer : Text} (h : ls.Known outer) (name : Text) :
    ¬ls.Awaits outer name := by
  obtain ⟨l, hl⟩ := h
  rintro ⟨names, hnames, -⟩
  cases hl.symm.trans hnames

/-- What is got under a name is the logger in its slot. The root has a place of its own,
so its names are excepted. -/
theorem get_of_slot? {name : Text} {l : Logger} (hname : isRootName name = false)
    (h : ls.slot? name = some (.logger l)) : ls.get name = l := by
  simp [get, hname, h]

/-- A name without a logger stands for a fresh one. -/
theorem get_of_not_known {name : Text} (hname : isRootName name = false) (h : ¬ls.Known name) :
    ls.get name = {} := by
  unfold get
  rw [hname]
  cases hslot : ls.slot? name with
  | none => rfl
  | some slot =>
    cases slot with
    | logger l => exact (h ⟨l, hslot⟩).elim
    | awaited names => rfl

theorem get_of_root {name : Text} (hname : isRootName name = true) : ls.get name = ls.root := by
  simp [get, hname]

/-- Setting a logger sets its slot, unless it is the root. -/
theorem set_of_not_root {name : Text} (hname : isRootName name = false) (l : Logger) :
    ls.set name l = ls.setSlot name (.logger l) := by
  simp [set, hname]

end Loggers

/-! ## What a new logger changes

The logger is entered, put above those that wait for it, and then below the nearest one there is,
waiting for the names in between. -/

/-- What is known under a name, after a logger has been put above it. -/
def Slot.under (outer : Text) : Slot → Slot
  | .logger l => .logger (if l.parent.startsWith outer then l else { l with parent := outer })
  | .awaited names => .awaited names

theorem startsWith_self (name : Text) : name.startsWith name = true :=
  List.isPrefixOf_iff_prefix.mpr (List.prefix_refl name.points)

/-- Putting a logger above another one twice comes to the same as doing it once. The names
that wait may hold a name twice. -/
theorem Slot.under_under (outer : Text) (slot : Slot) :
    (slot.under outer).under outer = slot.under outer := by
  cases slot with
  | awaited names => rfl
  | logger l =>
    unfold Slot.under
    by_cases hl : l.parent.startsWith outer = true
    · simp [hl]
    · simp [hl, startsWith_self]

namespace Loggers

variable {ls : Loggers}

/-- A change that puts something above loggers neither adds one nor takes one away. -/
theorem known_of_slot?_map {ls' : Loggers} {n : Text} {outer : Text} {taken : Prop} [Decidable taken]
    (h : ls'.slot? n = (ls.slot? n).map fun slot => if taken then slot.under outer else slot) :
    ls'.Known n ↔ ls.Known n := by
  unfold Known
  rw [h]
  cases ls.slot? n with
  | none => simp
  | some slot =>
    by_cases htaken : taken <;> cases slot <;> simp [htaken, Slot.under]

/-- And it leaves what waits for which name. -/
theorem awaits_of_slot?_map {ls' : Loggers} {outer o : Text} {taken : Prop} [Decidable taken]
    (h : ls'.slot? o = (ls.slot? o).map fun slot => if taken then slot.under outer else slot)
    (n : Text) : ls'.Awaits o n ↔ ls.Awaits o n := by
  unfold Awaits
  rw [h]
  cases ls.slot? o with
  | none => simp
  | some slot =>
    by_cases htaken : taken <;> cases slot <;> simp [htaken, Slot.under]

/-- Above a logger there is put another one, unless its name begins in the same way. The
comparison is of names as texts, which is how the library decides whether the logger above
is already a nearer one. -/
theorem slot?_reparent {below : Text} (outer : Text) (hroot : isRootName below = false)
    (hknown : ls.Known below) (n : Text) :
    (if (ls.get below).parent.startsWith outer then ls
      else ls.modify below fun l => { l with parent := outer }).slot? n
      = (ls.slot? n).map fun slot => if n = below then slot.under outer else slot := by
  obtain ⟨l, hl⟩ := hknown
  rw [get_of_slot? hroot hl]
  -- only the logger itself may change, and it does not if it is below the new one already
  by_cases hn : n = below
  · subst hn
    by_cases hstarts : l.parent.startsWith outer = true
    · simp [hstarts, hl, Slot.under]
    · simp [hstarts, hl, Slot.under, modify, set_of_not_root hroot, slot?_setSlot,
        get_of_slot? hroot hl]
  · by_cases hstarts : l.parent.startsWith outer = true
    · simp [hstarts, hn]
    · simp [hstarts, hn, modify, set_of_not_root hroot, slot?_setSlot]

/-- The loggers of the given names are put below the new one, and all other slots stay.
The induction is on the names, and `Slot.under_under` covers a name that comes twice. -/
theorem slot?_takeOver (outer : Text) {names : List Text}
    (h : ∀ n ∈ names, isRootName n = false ∧ ls.Known n) (n : Text) :
    (ls.takeOver outer names).slot? n
      = (ls.slot? n).map fun slot => if n ∈ names then slot.under outer else slot := by
  induction names generalizing ls with
  | nil => simp [takeOver]
  | cons below rest ih =>
    obtain ⟨⟨hroot, hknown⟩, hrest⟩ := List.forall_mem_cons.mp h
    have hstep := slot?_reparent outer hroot hknown
    -- those that come later are known still, since a change of what is above them removes no logger
    have hknown' : ∀ m ∈ rest, isRootName m = false ∧ _ := fun m hm =>
      ⟨(hrest m hm).1, (known_of_slot?_map (hstep m)).mpr (hrest m hm).2⟩
    have htaken := ih hknown'
    rw [takeOver, List.foldl_cons]
    refine htaken.trans ?_
    rw [hstep n, Option.map_map]
    refine congrArg (fun f => Option.map f (ls.slot? n)) (funext fun slot => ?_)
    by_cases hn : n = below <;> by_cases hm : n ∈ rest <;>
      simp [hn, hm, Slot.under_under, Function.comp]

/-- The root is not among the loggers that are put below another one. -/
theorem root_takeOver (outer : Text) {names : List Text}
    (h : ∀ n ∈ names, isRootName n = false) : (ls.takeOver outer names).root = ls.root := by
  induction names generalizing ls with
  | nil => rfl
  | cons below rest ih =>
    obtain ⟨hroot, hrest⟩ := List.forall_mem_cons.mp h
    rw [takeOver, List.foldl_cons]
    refine (ih hrest).trans ?_
    split
    · rfl
    · simp [modify, set_of_not_root hroot]

/-- A logger has been entered above those of some names; nothing else has changed. -/
structure Placed (name : Text) (names : List Text) (ls ls' : Loggers) : Prop where
  root : ls'.root = ls.root
  own : ls'.slot? name = some (.logger {})
  other : ∀ n, n ≠ name →
    ls'.slot? n = (ls.slot? n).map fun slot => if n ∈ names then slot.under name else slot

/-- A new logger is entered and taken to be above those that have waited for it. Those
that have found a nearer one since keep it. -/
theorem placed_takeOver {name : Text} {names : List Text} (hroot : isRootName name = false)
    (hunknown : ¬ls.Known name) (hnames : ∀ n ∈ names, isRootName n = false ∧ ls.Known n) :
    Placed name names ls ((ls.set name {}).takeOver name names) := by
  -- the new name is not among those that waited for it, as these are known and it is not
  have hself : name ∉ names := fun h => hunknown (hnames name h).2
  have hset : ls.set name {} = ls.setSlot name (.logger {}) := set_of_not_root hroot {}
  have hslot (n : Text) := slot?_setSlot ls name (.logger {}) n
  rw [hset]
  have hknown : ∀ n ∈ names,
      isRootName n = false ∧ (ls.setSlot name (.logger {})).Known n := by
    intro n hn
    obtain ⟨hnamed, l, hl⟩ := hnames n hn
    refine ⟨hnamed, l, ?_⟩
    rw [hslot, if_neg (fun heq : n = name => hself (heq ▸ hn)), hl]
  have htaken := slot?_takeOver name hknown
  refine ⟨root_takeOver name fun n hn => (hnames n hn).1, ?_, fun n hn => ?_⟩
  · rw [htaken, hslot]
    simp [hself]
  · rw [htaken, hslot, if_neg hn]

theorem Placed.known {name : Text} {names : List Text} {ls' : Loggers} (h : Placed name names ls ls')
    (n : Text) : ls'.Known n ↔ n = name ∨ ls.Known n := by
  by_cases hn : n = name
  · subst hn
    exact iff_of_true ⟨_, h.own⟩ (.inl rfl)
  · simp [known_of_slot?_map (h.other n hn), hn]

/-- Placing a logger changes only what waits under its own name. -/
theorem Placed.awaits {name outer : Text} {names : List Text} {ls' : Loggers}
    (h : Placed name names ls ls') (houter : outer ≠ name) (n : Text) :
    ls'.Awaits outer n ↔ ls.Awaits outer n :=
  awaits_of_slot?_map (h.other outer houter) n

/-- A logger that was there is left, or is put below the new one. -/
theorem Placed.old {name n : Text} {names : List Text} {ls' : Loggers} {l : Logger}
    (h : Placed name names ls ls') (hn : n ≠ name) (hl : ls.slot? n = some (.logger l)) :
    ls'.slot? n = some (.logger l) ∧ (n ∈ names → l.parent.startsWith name = true)
      ∨ ls'.slot? n = some (.logger { l with parent := name }) ∧ n ∈ names
        ∧ l.parent.startsWith name = false := by
  rw [h.other n hn, hl, Option.map_some]
  by_cases hmem : n ∈ names
  · cases hstarts : l.parent.startsWith name <;> simp [hmem, Slot.under, hstarts]
  · simp [hmem]

/-- A logger waits for some names of which there is none; nothing else changes. -/
structure Waits (name : Text) (passed : List Text) (ls ls' : Loggers) : Prop where
  unknown : ∀ outer ∈ passed, ¬ls.Known outer
  root : ls'.root = ls.root
  loggers : ∀ n l, ls'.slot? n = some (.logger l) ↔ ls.slot? n = some (.logger l)
  awaits : ∀ outer n, ls'.Awaits outer n ↔ ls.Awaits outer n ∨ n = name ∧ outer ∈ passed

theorem Waits.known_iff {name : Text} {passed : List Text} {ls' : Loggers}
    (h : Waits name passed ls ls') (n : Text) : ls'.Known n ↔ ls.Known n :=
  exists_congr (h.loggers n)

theorem waits_nil (name : Text) (ls : Loggers) : Waits name [] ls ls where
  unknown := by simp
  root := rfl
  loggers := fun _ _ => Iff.rfl
  awaits := by simp

/-- A name that is waited for comes in front of others, and the changes add up. This is
the step of the walk upwards, which puts the new name down at one outer name after the
other. -/
theorem Waits.cons {name outer : Text} {passed : List Text} {ls' ls'' : Loggers}
    (hfirst : Waits name [outer] ls ls') (hrest : Waits name passed ls' ls'') :
    Waits name (outer :: passed) ls ls'' where
  -- the first change makes no logger, so what is unknown to the second was so before
  unknown := by
    intro o ho
    rcases List.mem_cons.mp ho with rfl | ho
    · exact hfirst.unknown _ (List.mem_singleton_self _)
    · exact fun hknown => hrest.unknown o ho ((hfirst.known_iff o).mpr hknown)
  root := hrest.root.trans hfirst.root
  loggers := fun n l => (hrest.loggers n l).trans (hfirst.loggers n l)
  awaits := by
    intro o n
    rw [hrest.awaits, hfirst.awaits, List.mem_singleton, List.mem_cons]
    tauto

/-- What waits for a name, with one more logger. The outer name has no logger of its own,
so its slot is a list of those that wait, and the new name is put at its end. -/
theorem waits_setSlot (name : Text) {outer : Text} {names : List Text} (hunknown : ¬ls.Known outer)
    (hnames : ∀ n, ls.Awaits outer n ↔ n ∈ names) :
    Waits name [outer] ls (ls.setSlot outer (.awaited (names ++ [name]))) where
  unknown := by simpa using hunknown
  root := rfl
  loggers := by
    intro n l
    rw [slot?_setSlot]
    split
    next hn =>
      subst hn
      exact ⟨fun h => (by cases h), fun h => (hunknown ⟨l, h⟩).elim⟩
    next => rfl
  -- the slot of the outer name has one name more, and no other slot is touched
  awaits := by
    intro o n
    unfold Awaits
    rw [slot?_setSlot]
    by_cases ho : o = outer
    · subst ho
      have hbefore := hnames n
      unfold Awaits at hbefore
      simp [hbefore]
    · simp [ho]

/-- The nearest logger of some names is looked for, and what is passed is waited for. The
names come nearest first, so the search ends at the first one that is known, or at the
root. -/
theorem waits_await (ls : Loggers) (name : Text) (outers : List Text) :
    ∃ passed, Waits name passed ls (ls.await name outers).1
      ∧ ((outers = passed ∧ (ls.await name outers).2 = rootName)
        ∨ ∃ others, outers = passed ++ (ls.await name outers).2 :: others
          ∧ ls.Known (ls.await name outers).2) := by
  induction outers generalizing ls with
  | nil => exact ⟨[], waits_nil name ls, .inl ⟨rfl, rfl⟩⟩
  | cons outer rest ih =>
    -- an outer name that is passed is waited for, and the search goes on
    have hpass {names : List Text} (hunknown : ¬ls.Known outer)
        (hnames : ∀ n, ls.Awaits outer n ↔ n ∈ names) :
        let next := (ls.setSlot outer (.awaited (names ++ [name]))).await name rest
        ∃ passed, Waits name passed ls next.1
          ∧ ((outer :: rest = passed ∧ next.2 = rootName)
            ∨ ∃ others, outer :: rest = passed ++ next.2 :: others ∧ ls.Known next.2) := by
      intro next
      have hfirst := waits_setSlot name hunknown hnames
      obtain ⟨passed, hwaits, hfound⟩ := ih (ls.setSlot outer (.awaited (names ++ [name])))
      refine ⟨outer :: passed, hfirst.cons hwaits, ?_⟩
      rcases hfound with ⟨rfl, hroot⟩ | ⟨others, hsplit, hknown⟩
      · exact .inl ⟨rfl, hroot⟩
      · exact .inr ⟨others, by rw [hsplit]; rfl, (hfirst.known_iff _).mp hknown⟩
    cases hslot : ls.slot? outer with
    | none =>
      have heq : ls.await name (outer :: rest)
          = (ls.setSlot outer (.awaited ([] ++ [name]))).await name rest := by
        rw [await, hslot]
        rfl
      rw [heq]
      exact hpass (by simp [Known, hslot]) (by simp [Awaits, hslot])
    | some slot =>
      cases slot with
      | awaited names =>
        have heq : ls.await name (outer :: rest)
            = (ls.setSlot outer (.awaited (names ++ [name]))).await name rest := by
          rw [await, hslot]
        rw [heq]
        exact hpass (by simp [Known, hslot]) (by simp [Awaits, hslot])
      -- A logger that is there ends the search.
      | logger l =>
        have heq : ls.await name (outer :: rest) = (ls, outer) := by
          rw [await, hslot]
        rw [heq]
        exact ⟨[], waits_nil name ls, .inr ⟨rest, rfl, l, hslot⟩⟩

/-- What holds of the loggers at all times: none has the root's name, each is below the
root or one of an enclosing name, and what waits for a name is a logger whose name it
encloses. -/
structure Orderly (ls : Loggers) : Prop where
  named : ∀ n, ls.Known n → isRootName n = false
  above : ∀ n l, ls.slot? n = some (.logger l) →
    l.parent = rootName ∨ l.parent ∈ enclosing n ∧ ls.Known l.parent
  awaiting : ∀ outer n, ls.Awaits outer n → outer ∈ enclosing n ∧ ls.Known n

theorem orderly_initial : Orderly .initial where
  named := by simp [Known, slot?, initial]
  above := by simp [slot?, initial]
  awaiting := by simp [Awaits, slot?, initial]

/-- All that a new logger changes. It waits for the names that are passed on the way to
the logger above it, and it is above those that waited for it, unless their loggers above
begin with its name. -/
structure Enters (name : Text) (passed : List Text) (parent : Text) (ls ls' : Loggers) : Prop where
  place : enclosing name = passed ∧ parent = rootName
    ∨ ∃ others, enclosing name = passed ++ parent :: others ∧ ls.Known parent
  root : ls'.root = ls.root
  own : ls'.slot? name = some (.logger { parent })
  old : ∀ n l, ls.slot? n = some (.logger l) →
    ls'.slot? n = some (.logger l) ∧ (ls.Awaits name n → l.parent.startsWith name = true)
      ∨ ls'.slot? n = some (.logger { l with parent := name }) ∧ ls.Awaits name n
        ∧ l.parent.startsWith name = false
  known : ∀ n, ls'.Known n ↔ n = name ∨ ls.Known n
  awaits : ∀ outer n, ls'.Awaits outer n
    ↔ outer ≠ name ∧ (ls.Awaits outer n ∨ n = name ∧ outer ∈ passed)

/-- A logger is entered, put above those that wait for it, and below the nearest one there
is. -/
def settle (ls : Loggers) (name : Text) (names : List Text) : Loggers :=
  let placed := ((ls.set name {}).takeOver name names).await name (enclosing name)
  placed.1.modify name fun l => { l with parent := placed.2 }

/-- A new logger is settled in its place: above those that waited for it, and below the
nearest enclosing one there is, or the root. The two steps of it are put together here, so
that the order in the registry is argued about once. -/
theorem enters_settle {name : Text} (names : List Text) (horderly : ls.Orderly)
    (hroot : isRootName name = false) (hknown : ¬ls.Known name)
    (hnames : ∀ n, ls.Awaits name n ↔ n ∈ names) :
    ∃ passed parent, Enters name passed parent ls (ls.settle name names) := by
  let taken := (ls.set name {}).takeOver name names
  let placed := taken.await name (enclosing name)
  have htaken : Placed name names ls taken := by
    refine placed_takeOver hroot hknown fun n hn => ?_
    have hwaits := (horderly.awaiting name n ((hnames n).mpr hn)).2
    exact ⟨horderly.named n hwaits, hwaits⟩
  obtain ⟨passed, hwaits, hplace⟩ := waits_await taken name (enclosing name)
  have hsettle : ls.settle name names = placed.1.setSlot name (.logger { parent := placed.2 }) := by
    show placed.1.modify name (fun l => { l with parent := placed.2 }) = _
    rw [modify, set_of_not_root hroot]
    -- the new logger has kept what it was entered with
    rw [get_of_slot? hroot ((hwaits.loggers _ _).mpr htaken.own)]
  have hslot (n : Text) := slot?_setSlot placed.1 name (.logger { parent := placed.2 }) n
  rw [← hsettle] at hslot
  refine ⟨passed, placed.2, ?_⟩
  exact {
    place := by
      refine hplace.imp id ?_
      rintro ⟨others, hsplit, hparent⟩
      refine ⟨others, hsplit, ?_⟩
      -- the logger above is an old one, as no name encloses itself
      have hmem : placed.2 ∈ enclosing name := by
        rw [hsplit]
        exact List.mem_append_right _ List.mem_cons_self
      exact ((htaken.known _).mp hparent).resolve_left (under_of_mem_enclosing hmem).1.ne
    root := by
      rw [hsettle]
      exact hwaits.root.trans htaken.root
    own := by
      rw [hslot, if_pos rfl]
    old := by
      intro n l hl
      have hne : n ≠ name := fun hn => hknown ⟨l, hn ▸ hl⟩
      rw [hslot, if_neg hne, hnames, hwaits.loggers, hwaits.loggers]
      exact htaken.old hne hl
    known := by
      intro n
      by_cases hn : n = name
      · simp [hn, Known, hslot]
      · rw [← htaken.known n, ← hwaits.known_iff n]
        unfold Known
        rw [hslot, if_neg hn]
    awaits := by
      intro outer n
      by_cases houter : outer = name
      · simp [houter, Awaits, hslot]
      · rw [← htaken.awaits houter, and_iff_right houter, ← hwaits.awaits]
        unfold Awaits
        rw [hslot, if_neg houter] }

/-- A logger of which there is none is entered; otherwise nothing changes. All changes to
the registry are of this kind, so an invariant has to be shown for `Enters` only. -/
theorem ensure_cases (horderly : ls.Orderly) (name : Text) :
    (isRootName name = true ∨ ls.Known name) ∧ ls.ensure name = ls
      ∨ isRootName name = false ∧ ¬ls.Known name
        ∧ ∃ passed parent, Enters name passed parent ls (ls.ensure name) := by
  -- the cases of the program: a name of the root, no slot, a logger, or a slot that waits
  cases hroot : isRootName name with
  | true => exact .inl ⟨.inl rfl, by simp [ensure, hroot]⟩
  | false =>
    cases hslot : ls.slot? name with
    | none =>
      have hknown : ¬ls.Known name := by simp [Known, hslot]
      have henters := enters_settle [] horderly hroot hknown
        (by simp [Awaits, hslot])
      have heq : ls.ensure name = ls.settle name [] := by simp [ensure, settle, hroot, hslot]
      exact .inr ⟨rfl, hknown, heq ▸ henters⟩
    | some slot =>
      cases slot with
      | logger l => exact .inl ⟨.inr ⟨l, hslot⟩, by simp [ensure, hroot, hslot]⟩
      | awaited names =>
        have hknown : ¬ls.Known name := by simp [Known, hslot]
        have henters := enters_settle names horderly hroot hknown
          (by simp [Awaits, hslot])
        have heq : ls.ensure name = ls.settle name names := by
          simp [ensure, settle, hroot, hslot]
        exact .inr ⟨rfl, hknown, heq ▸ henters⟩

theorem ensure_of_known {name : Text} (h : ls.Known name) : ls.ensure name = ls := by
  obtain ⟨l, hl⟩ := h
  simp [ensure, hl]

/-- A logger that is entered leaves the others as they are, but for what is above them.
Their handlers and thresholds therefore survive, and only ways up have to be looked at
again. -/
theorem Enters.get {name parent : Text} {passed : List Text} {ls' : Loggers}
    (h : Enters name passed parent ls ls') (hknown : ¬ls.Known name) (n : Text) :
    ∃ above, ls'.get n = { ls.get n with parent := above } := by
  cases hroot : isRootName n with
  | true =>
    rw [get_of_root hroot, get_of_root hroot, h.root]
    exact ⟨ls.root.parent, rfl⟩
  | false =>
    -- the new logger is got as a fresh one, which is what an unknown name stood for before
    by_cases hn : n = name
    · subst hn
      rw [get_of_slot? hroot h.own, get_of_not_known hroot hknown]
      exact ⟨parent, rfl⟩
    · by_cases hold : ls.Known n
      · obtain ⟨l, hl⟩ := hold
        rw [get_of_slot? hroot hl]
        rcases h.old n l hl with ⟨hl', -⟩ | ⟨hl', -⟩
        · exact ⟨l.parent, get_of_slot? hroot hl'⟩
        · exact ⟨name, get_of_slot? hroot hl'⟩
      · have hnew : ¬ls'.Known n := by
          rw [h.known]
          tauto
        rw [get_of_not_known hroot hnew, get_of_not_known hroot hold]
        exact ⟨rootName, rfl⟩

/-- To add a logger changes what is above others, and nothing else of any logger. In
particular the handlers and the thresholds stay, whatever the name. -/
theorem get_ensure (horderly : ls.Orderly) (name n : Text) :
    ∃ above, (ls.ensure name).get n = { ls.get n with parent := above } := by
  rcases ensure_cases horderly name with ⟨-, heq⟩ | ⟨-, hknown, passed, parent, henters⟩
  · rw [heq]
    exact ⟨(ls.get n).parent, rfl⟩
  · exact henters.get hknown n

/-- What is known afterwards is what was known before and the name, unless it is one of
the root's. -/
theorem known_ensure (horderly : ls.Orderly) (name n : Text) :
    (ls.ensure name).Known n ↔ ls.Known n ∨ n = name ∧ isRootName name = false := by
  rcases ensure_cases horderly name with ⟨hthere, heq⟩ | ⟨hroot, hknown, passed, parent, henters⟩
  · rw [heq]
    refine ⟨.inl, ?_⟩
    rintro (hold | ⟨rfl, hroot⟩)
    · exact hold
    · simpa [hroot] using hthere
  · rw [henters.known]
    tauto

/-- The order is kept by a new logger. The three parts of it are shown one after the
other, each time by whether the logger in question is the new one. -/
theorem Orderly.enters {name parent : Text} {passed : List Text} {ls' : Loggers}
    (horderly : ls.Orderly) (hroot : isRootName name = false)
    (h : Enters name passed parent ls ls') : ls'.Orderly where
  named := by
    intro n hn
    -- the names: the new one is none of the root's
    rcases (h.known n).mp hn with rfl | hn
    · exact hroot
    · exact horderly.named n hn
  above := by
    intro n l' hl'
    by_cases hn : n = name
    · subst hn
      obtain rfl : { parent } = l' := by simpa [h.own] using hl'
      -- what is above the new logger encloses it, by its place
      rcases h.place with ⟨-, hparent⟩ | ⟨others, hsplit, hparent⟩
      · exact .inl hparent
      · refine .inr ⟨?_, (h.known parent).mpr (.inr hparent)⟩
        rw [hsplit]
        exact List.mem_append_right _ List.mem_cons_self
    · obtain ⟨l, hl⟩ : ls.Known n := ((h.known n).mp ⟨l', hl'⟩).resolve_left hn
      rcases h.old n l hl with ⟨hkept, -⟩ | ⟨hmoved, hawaits, -⟩
      · obtain rfl : l = l' := by simpa [hkept] using hl'
        refine (horderly.above n l hl).imp id fun habove => ?_
        exact ⟨habove.1, (h.known _).mpr (.inr habove.2)⟩
      · obtain rfl : { l with parent := name } = l' := by simpa [hmoved] using hl'
        exact .inr ⟨(horderly.awaiting name n hawaits).1, (h.known name).mpr (.inl rfl)⟩
  awaiting := by
    intro outer n hn
    -- what waits has waited before, or is passed on the way up from the new logger
    obtain ⟨-, hbefore | ⟨rfl, hpassed⟩⟩ := (h.awaits outer n).mp hn
    · obtain ⟨hmem, hknown⟩ := horderly.awaiting outer n hbefore
      exact ⟨hmem, (h.known n).mpr (.inr hknown)⟩
    · refine ⟨?_, (h.known n).mpr (.inl rfl)⟩
      rcases h.place with ⟨hsplit, -⟩ | ⟨others, hsplit, -⟩
      · rw [hsplit]
        exact hpassed
      · rw [hsplit]
        exact List.mem_append_left _ hpassed

/-- So the order is kept by adding loggers of any name. -/
theorem Orderly.ensure (horderly : ls.Orderly) (name : Text) : (ls.ensure name).Orderly := by
  rcases ensure_cases horderly name with ⟨-, heq⟩ | ⟨hroot, -, passed, parent, henters⟩
  · rw [heq]
    exact horderly
  · exact horderly.enters hroot henters

/-! ## Loggers that lead to a base -/

/-- From the loggers behind a base name and a single dot the way up leads to the logger of
the base name, or will lead to it once there is one. -/
def Leads (ls : Loggers) (base : Text) : Prop :=
  ∀ n l, ls.slot? n = some (.logger l) → Dotted base n →
    Dotted base l.parent ∨ l.parent = base ∨ ls.Awaits base n

/-- No logger waits for a name with which the name of the root begins: a new logger of
such a name would not be put above it. -/
def Unawaited (ls : Loggers) (base : Text) : Prop :=
  rootName.startsWith base = true → ∀ n, ¬ls.Awaits base n

/-- A new logger behind the base name is below one behind it, or below the base, or waits
for it. Whichever it is, its way up comes by the base once there is one. -/
theorem Enters.leads {base name parent : Text} {passed : List Text} {ls' : Loggers}
    (h : Enters name passed parent ls ls') (hbase : base.points ≠ []) (hdotted : Dotted base name) :
    Dotted base parent ∨ parent = base ∨ ls'.Awaits base name := by
  have hmem : base ∈ enclosing name := by
    obtain ⟨nearer, others, hsplit, -⟩ := enclosing_eq_of_dotted hbase hdotted
    rw [hsplit]
    exact List.mem_append_right _ List.mem_cons_self
  have hwaits (hpassed : base ∈ passed) : ls'.Awaits base name :=
    (h.awaits base name).mpr ⟨hdotted.under.ne, .inr ⟨rfl, hpassed⟩⟩
  rcases h.place with ⟨hsplit, -⟩ | ⟨others, hsplit, -⟩
  · exact .inr (.inr (hwaits (hsplit ▸ hmem)))
  have hparent : parent ∈ enclosing name := by
    rw [hsplit]
    exact List.mem_append_right _ List.mem_cons_self
  rcases enclosing_cases hbase hdotted hparent with hnearer | hsame | hfarther
  · exact .inl hnearer
  · exact .inr (.inl hsame)
  -- a logger above the base was found behind the base name, which was passed
  have hpairs := pairwise_enclosing name
  rw [hsplit] at hmem hpairs
  rcases List.mem_append.mp hmem with hpassed | hmem
  · exact .inr (.inr (hwaits hpassed))
  rcases List.mem_cons.mp hmem with rfl | hothers
  · exact .inr (.inl rfl)
  · have hbehind := (List.pairwise_cons.mp (List.pairwise_append.mp hpairs).2.1).1 base hothers
    exact (Nat.lt_asymm hbehind.length_lt hfarther.length_lt).elim

/-- The way up from a logger behind the base name leads to the base after another logger
has been entered. If the new logger comes between, it is itself behind the base name; if
it is the base, it is put above those that waited for it. -/
theorem Leads.enters {base name parent : Text} {passed : List Text} {ls' : Loggers}
    (hleads : ls.Leads base) (horderly : ls.Orderly) (hbase : base.points ≠ [])
    (hunawaited : ls.Unawaited base) (h : Enters name passed parent ls ls') : ls'.Leads base := by
  intro n l' hl' hdotted
  by_cases hn : n = name
  · subst hn
    obtain rfl : { parent } = l' := by simpa [h.own] using hl'
    exact h.leads hbase hdotted
  obtain ⟨l, hl⟩ : ls.Known n := ((h.known n).mp ⟨l', hl'⟩).resolve_left hn
  have hstays (hne : base ≠ name) (hawaits : ls.Awaits base n) : ls'.Awaits base n :=
    (h.awaits base n).mpr ⟨hne, .inl hawaits⟩
  rcases h.old n l hl with ⟨hkept, hstarts⟩ | ⟨hmoved, hawaits, hstarts⟩
  · obtain rfl : l = l' := by simpa [hkept] using hl'
    rcases hleads n l hl hdotted with hnearer | hsame | hwaiting
    · exact .inl hnearer
    · exact .inr (.inl hsame)
    by_cases hne : base = name
    · -- the base is new, and the logger above begins with its name
      subst hne
      have hstart := hstarts hwaiting
      rcases horderly.above n l hl with hroot | ⟨hmem, -⟩
      · rw [hroot] at hstart
        exact (hunawaited hstart n hwaiting).elim
      rcases enclosing_cases hbase hdotted hmem with hnearer | hsame | hfarther
      · exact .inl hnearer
      · exact .inr (.inl hsame)
      · have hlonger := length_le_of_startsWith hstart
        exact (Nat.not_le_of_lt hfarther.length_lt hlonger).elim
    · exact .inr (.inr (hstays hne hwaiting))
  · obtain rfl : { l with parent := name } = l' := by simpa [hmoved] using hl'
    rcases enclosing_cases hbase hdotted (horderly.awaiting name n hawaits).1 with
      hnearer | hsame | hfarther
    · exact .inl hnearer
    · exact .inr (.inl hsame)
    -- a new logger that encloses the base is not put between the base and what is below it
    rcases hleads n l hl hdotted with hdotted' | hparent | hwaiting
    · rw [(hfarther.trans hdotted'.under).startsWith] at hstarts
      cases hstarts
    · rw [hparent, hfarther.startsWith] at hstarts
      cases hstarts
    · exact .inr (.inr (hstays hfarther.ne.symm hwaiting))

/-- So the way up is kept by adding loggers of any name. -/
theorem Leads.ensure {base : Text} (hleads : ls.Leads base) (horderly : ls.Orderly)
    (hbase : base.points ≠ []) (hunawaited : ls.Unawaited base) (name : Text) :
    (ls.ensure name).Leads base := by
  rcases ensure_cases horderly name with ⟨-, heq⟩ | ⟨-, -, passed, parent, henters⟩
  · rw [heq]
    exact hleads
  · exact hleads.enters horderly hbase hunawaited henters

/-! ## Changes that leave what is above a logger -/

/-- A logger that is modified is got under each of its names, and the others as before.
Names that stand for one logger share a slot, which is why they are compared by
`canonicalName`. -/
theorem get_modify (ls : Loggers) (name : Text) (f : Logger → Logger) (n : Text) :
    (ls.modify name f).get n
      = if canonicalName n = canonicalName name then f (ls.get n) else ls.get n := by
  -- the root is stored apart, so the cases are whether each of the two names is one of its names
  cases hname : isRootName name with
  | true =>
    cases hn : isRootName n with
    | true => simp [modify, set, get, hname, hn, canonicalName]
    | false =>
      have hne : n ≠ rootName := by
        rintro rfl
        cases hn
      simp [modify, set, get, hname, hn, canonicalName, hne, slot?]
  | false =>
    rw [modify, set_of_not_root hname]
    by_cases hn : n = name
    · subst hn
      rw [if_pos rfl]
      exact get_of_slot? hname (by rw [slot?_setSlot, if_pos rfl])
    · rw [if_neg (by rwa [canonicalName_eq_iff hname])]
      unfold get
      rw [slot?_setSlot, if_neg hn, root_setSlot]

/-- Names that stand for one logger get the same one. -/
theorem get_congr {n m : Text} (h : canonicalName n = canonicalName m) : ls.get n = ls.get m := by
  cases hm : isRootName m with
  | false => rw [(canonicalName_eq_iff hm).mp h]
  | true =>
    cases hn : isRootName n with
    | true => rw [get_of_root hn, get_of_root hm]
    | false =>
      rw [canonicalName_of_not_root hn, canonicalName_of_root hm] at h
      rw [h] at hn
      cases hn

/-- The loggers are the same ones, below the same ones, and wait for the same names. -/
structure Resembles (ls ls' : Loggers) : Prop where
  known : ∀ n, ls'.Known n ↔ ls.Known n
  awaits : ∀ outer n, ls'.Awaits outer n ↔ ls.Awaits outer n
  parent : ∀ n l', ls'.slot? n = some (.logger l') →
    ∃ l, ls.slot? n = some (.logger l) ∧ l'.parent = l.parent

/-- A change of one logger that leaves what is above it leaves the shape of the registry.
The root and the other loggers are stored apart, which is why the cases are split. -/
theorem resembles_modify {name : Text} (h : isRootName name = true ∨ ls.Known name)
    {f : Logger → Logger} (hf : ∀ l, (f l).parent = l.parent) :
    Resembles ls (ls.modify name f) := by
  cases hname : isRootName name with
  | true =>
    -- no slot is touched when the root is changed
    have hslot (n : Text) : (ls.modify name f).slot? n = ls.slot? n := by
      simp [modify, set, hname, slot?]
    exact {
      known := fun n => by unfold Known; rw [hslot]
      awaits := fun outer n => by unfold Awaits; rw [hslot]
      parent := fun n l' hl' => ⟨l', by rwa [hslot] at hl', rfl⟩ }
  | false =>
    obtain ⟨l, hl⟩ := h.resolve_left (by simp [hname])
    have hslot (n : Text) : (ls.modify name f).slot? n
        = if n = name then some (.logger (f l)) else ls.slot? n := by
      rw [modify, set_of_not_root hname, slot?_setSlot, get_of_slot? hname hl]
    exact {
      known := fun n => by
        unfold Known
        rw [hslot]
        by_cases hn : n = name <;> simp [hn, hl]
      awaits := fun outer n => by
        unfold Awaits
        rw [hslot]
        by_cases houter : outer = name <;> simp [houter, hl]
      parent := fun n l' hl' => by
        rw [hslot] at hl'
        by_cases hn : n = name
        · subst hn
          obtain rfl : f l = l' := by simpa using hl'
          exact ⟨l, hl, hf l⟩
        · exact ⟨l', by simpa [hn] using hl', rfl⟩ }

section Resembles

variable {base : Text} {ls' : Loggers}

/-- The order speaks of the shape alone. -/
theorem Orderly.of_resembles (h : ls.Orderly) (hsame : Resembles ls ls') : ls'.Orderly where
  named := fun n hn => h.named n ((hsame.known n).mp hn)
  above := by
    intro n l' hl'
    obtain ⟨l, hl, hparent⟩ := hsame.parent n l' hl'
    rw [hparent, hsame.known]
    exact h.above n l hl
  awaiting := by
    intro outer n hawaits
    rw [hsame.known]
    exact h.awaiting outer n ((hsame.awaits outer n).mp hawaits)

/-- So does the way up to a base. -/
theorem Leads.of_resembles (h : ls.Leads base) (hsame : Resembles ls ls') : ls'.Leads base := by
  intro n l' hl' hdotted
  obtain ⟨l, hl, hparent⟩ := hsame.parent n l' hl'
  rw [hparent, hsame.awaits]
  exact h n l hl hdotted

end Resembles

/-! ## How loggers come about -/

/-- The loggers there are come about, from the root alone, by adding loggers and by
changing one of them in any way but for what is above it. -/
inductive Reached : Loggers → Prop where
  | initial : Reached .initial
  | ensure {ls : Loggers} (h : Reached ls) (name : Text) : Reached (ls.ensure name)
  | modify {ls : Loggers} (h : Reached ls) {name : Text} (hthere : isRootName name = true ∨ ls.Known name)
    {f : Logger → Logger} (hf : ∀ l, (f l).parent = l.parent) : Reached (ls.modify name f)

/-- Whatever the program does to its loggers, they are in order. -/
theorem Reached.orderly (h : Reached ls) : ls.Orderly := by
  induction h with
  | initial => exact orderly_initial
  | ensure _ name ih => exact ih.ensure name
  | modify _ hthere hf ih => exact ih.of_resembles (resembles_modify hthere hf)

/-- The loggers behind a base name lead to it at all times, unless the name of the root
begins with it. -/
theorem Reached.leads (h : Reached ls) {base : Text} (hbase : base.points ≠ [])
    (hroot : rootName.startsWith base = false) : ls.Leads base := by
  induction h with
  | initial => simp [Leads, slot?, Loggers.initial]
  | ensure hreached name ih =>
    refine ih.ensure hreached.orderly hbase (fun hstarts => ?_) name
    rw [hroot] at hstarts
    cases hstarts
  | modify _ hthere hf ih => exact ih.of_resembles (resembles_modify hthere hf)

end Loggers

end Keeper.Log
