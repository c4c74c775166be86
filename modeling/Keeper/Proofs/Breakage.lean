import Keeper.Proofs.Layers

/-!
# Keeper — how the parts of a configuration break

A value that is not acceptable is told to the user. What fails by anything else breaks: it is the slip of a
program, not of the one who configured it. Two parts of loading can break on settings alone: the layer of the
environment, where a variable leads through what another one has made a text, and the conversions, where an
infinite number is to be an integer.

* **`Breaks`**, **`breaks_bind_iff`** — failing by anything but a bad value.
* **`Layer.Blocked`**, **`Layer.blocked_writeAt`** — the ways through a layer that a text is in.
* **`Layer.ofEnvironment_cases`** — the environment breaks if a way goes on where one before it ended.
* **`Layer.leavesAt`**, **`Layer.fault?_coerceAt`** — a conversion fails as the first leaf does that fails.
* **`Layer.breaks_coerceEntries_iff`** — the conversions break if that leaf is an infinite number.
-/

namespace Keeper

/-! ## Breaking -/

/-- Something fails, and not for a bad value. -/
def Breaks {α : Type} (x : Except Fault α) : Prop := ∃ f, x = .error f ∧ f.isBadValue = false

section Rules

variable {α β : Type}

@[simp] theorem not_breaks_ok (a : α) : ¬Breaks (.ok a : Except Fault α) := by
  rintro ⟨f, hf, -⟩
  cases hf

/-- Which faults count as breaking: those that are not reported as bad values. -/
theorem breaks_error_iff (f : Fault) : Breaks (.error f : Except Fault α) ↔ f.isBadValue = false := by
  constructor
  · rintro ⟨f', hf, hbad⟩
    obtain rfl := Except.error.inj hf
    exact hbad
  · intro hbad
    exact ⟨f, rfl, hbad⟩

theorem not_breaks_badValue (b : BadValue) : ¬Breaks (.error (.badValue b) : Except Fault α) := by
  rw [breaks_error_iff]
  exact Bool.noConfusion

theorem breaks_misuse (m : Misuse) : Breaks (.error (.misuse m) : Except Fault α) := ⟨_, rfl, rfl⟩

/-- One thing after the other breaks if the first does, or the second after what the first
gives. -/
theorem breaks_bind_iff {x : Except Fault α} {next : α → Except Fault β} :
    Breaks (x >>= next) ↔ Breaks x ∨ ∃ a, x = .ok a ∧ Breaks (next a) := by
  cases x with
  | error f => simp [bind, Except.bind, breaks_error_iff]
  | ok a => simp [bind, Except.bind]

end Rules

/-- What stands at a section, if something does, is a map. -/
def Config.Sectioned (layer : Fields) (sect : Text) : Prop :=
  ∀ v, Fields.get? layer (.text sect) = some v → ∃ settings, v = .map settings

theorem Config.not_sectioned_iff (layer : Fields) (sect : Text) :
    ¬Sectioned layer sect
      ↔ ∃ v, Fields.get? layer (.text sect) = some v ∧ ∀ settings, v ≠ .map settings := by
  simp [Sectioned]

open Cluster (fieldsAt)
open Config (Sectioned not_sectioned_iff)

namespace Layer

/-! ## The environment

Variables are written one after the other, each at the end of its way. Ways are only ever closed: where
a text stood, there is a text or the inside of one later on. -/

/-- A way that ends where another one goes through. -/
def EndsOn (way other : List Text) : Prop := way <+: other ∧ way ≠ other

/-- Before the end of the way stands something that is no map. -/
def Blocked (layer : Fields) : List Text → Prop
  | key :: next :: rest => ¬Sectioned layer key ∨ Blocked (fieldsAt layer key) (next :: rest)
  | _ => False

/-- Whether one way ends on another is decided key by key. -/
theorem endsOn_cons (key key' : Text) (way other : List Text) :
    EndsOn (key :: way) (key' :: other) ↔ key = key' ∧ EndsOn way other := by
  unfold EndsOn
  rw [List.cons_prefix_cons, ne_eq, List.cons.injEq]
  constructor
  · rintro ⟨⟨rfl, hprefix⟩, hne⟩
    exact ⟨rfl, hprefix, fun h => hne ⟨rfl, h⟩⟩
  · rintro ⟨rfl, hprefix, hne⟩
    exact ⟨⟨rfl, hprefix⟩, fun h => hne h.2⟩

/-- Nothing is in the way of anything in an empty layer. This is where writing the
variables starts. -/
theorem not_blocked_nil (way : List Text) : ¬Blocked [] way := by
  -- Over an empty layer no key is a section, so a way can be blocked only at its first key.
  induction way with
  | nil => exact not_false
  | cons key rest ih =>
    cases rest with
    | nil => exact not_false
    | cons next rest =>
      rintro (hthrough | hinside)
      · obtain ⟨v, hv, -⟩ := (not_sectioned_iff _ _).mp hthrough
        cases hv
      · exact ih hinside

/-- Where nothing stands, or a map, the text is written inside. -/
theorem writeAt_of_sectioned {layer : Fields} {key : Text} (h : Sectioned layer key) (text next : Text)
    (rest : List Text) :
    writeAt layer text (key :: next :: rest)
      = (do return Fields.set layer key (.map (← writeAt (fieldsAt layer key) text (next :: rest)))) := by
  rw [fieldsAt]
  cases hget : Fields.get? layer (.text key) with
  | none => exact writeAt.eq_3 layer text key (next :: rest) hget (by simp)
  | some v =>
    obtain ⟨inner, rfl⟩ := h v hget
    exact writeAt.eq_4 layer text key (next :: rest) inner hget (by simp)

/--  Where something that is no map stands on the way, writing breaks. -/
theorem breaks_writeAt {layer : Fields} {key : Text} (h : ¬Sectioned layer key) (text next : Text)
    (rest : List Text) : Breaks (writeAt layer text (key :: next :: rest)) := by
  obtain ⟨v, hget, hv⟩ := (not_sectioned_iff layer key).mp h
  cases rest with
  | nil =>
    rw [writeAt.eq_5 layer text key next v hget hv]
    exact breaks_misuse _
  | cons last rest =>
    rw [writeAt.eq_6 layer text key _ v hget (by simp) (by simp) hv]
    exact breaks_misuse _

/-- A text is written, or its way is blocked: the step of the run over the environment. It
holds for each variable on its own, so the first blocked way decides the run, whatever was
written before it. -/
theorem writeAt_cases (layer : Fields) (text : Text) (way : List Text) :
    (¬Blocked layer way ∧ ∃ layer', writeAt layer text way = .ok layer')
      ∨ (Blocked layer way ∧ Breaks (writeAt layer text way)) := by
  induction way generalizing layer with
  | nil => exact .inl ⟨not_false, _, rfl⟩
  | cons key rest ih =>
    cases rest with
    | nil => exact .inl ⟨not_false, _, rfl⟩
    | cons next rest =>
      -- The way goes on only through a section; where the first key is not one, everything below is out
      -- of reach.
      by_cases hsectioned : Sectioned layer key
      · rw [Blocked, or_iff_right (not_not_intro hsectioned), writeAt_of_sectioned hsectioned,
          breaks_bind_iff]
        rcases ih (fieldsAt layer key) with ⟨hfree, inner, hwritten⟩ | ⟨hblocked, hbreaks⟩
        · exact .inl ⟨hfree, _, Fault.bind_eq_ok.mpr ⟨inner, hwritten, rfl⟩⟩
        · exact .inr ⟨hblocked, .inl hbreaks⟩
      · exact .inr ⟨.inl hsectioned, breaks_writeAt hsectioned text next rest⟩

/-- Whether a way is blocked depends on what stands under its first key. -/
theorem blocked_set_of_ne {key key' : Text} (hkey : key ≠ key') (layer : Fields) (v : Value)
    (rest : List Text) :
    Blocked (Fields.set layer (.text key) v) (key' :: rest) ↔ Blocked layer (key' :: rest) := by
  cases rest with
  | nil => exact Iff.rfl
  | cons next rest => rw [Blocked, Blocked, Sectioned, Sectioned, fieldsAt, fieldsAt, Fields.get?_set,
      if_neg hkey]

/-- Through a map, a way is blocked if it is blocked inside. -/
theorem blocked_of_get?_map {layer inner : Fields} {key : Text}
    (hget : Fields.get? layer (.text key) = some (.map inner)) (next : Text) (rest : List Text) :
    Blocked layer (key :: next :: rest) ↔ Blocked inner (next :: rest) := by
  rw [Blocked, Fields.fieldsAt_of_map hget, Sectioned, hget]
  simp

/-- What is written closes the ways that go through its end, and no other. With
`writeAt_cases` this says of each variable whether it can still be written once the ones
before it are. -/
theorem blocked_writeAt {layer layer' : Fields} {text : Text} {way : List Text}
    (hwritten : writeAt layer text way = .ok layer') (hway : way ≠ []) (other : List Text) :
    Blocked layer' other ↔ Blocked layer other ∨ EndsOn way other := by
  induction way generalizing layer layer' other with
  | nil => exact absurd rfl hway
  | cons key rest ih =>
    rcases other with _ | ⟨key', _ | ⟨next', rest'⟩⟩
    · simp [Blocked, EndsOn]
    · rw [endsOn_cons]
      simp [Blocked, EndsOn]
    · rw [endsOn_cons]
      cases rest with
      | nil =>
        obtain rfl := Except.ok.inj hwritten
        by_cases hkey : key = key'
        · -- a text is in the way now
          subst hkey
          have hthrough : ¬Sectioned (Fields.set layer key (.text text)) key := by
            refine (not_sectioned_iff _ _).mpr ⟨.text text, ?_, by simp⟩
            rw [Fields.get?_set, if_pos rfl]
          exact iff_of_true (.inl hthrough) (.inr ⟨rfl, by simp [EndsOn]⟩)
        · rw [blocked_set_of_ne hkey]
          simp [hkey]
      | cons next rest =>
        have hsectioned : Sectioned layer key := by
          refine Classical.byContradiction fun hnot => ?_
          obtain ⟨f, hf, -⟩ := breaks_writeAt hnot text next rest
          cases hwritten.symm.trans hf
        -- the section is written into, so the induction goes on inside it
        rw [writeAt_of_sectioned hsectioned] at hwritten
        obtain ⟨inner, hinner, heq⟩ := Fault.bind_eq_ok.mp hwritten
        obtain rfl := Except.ok.inj heq
        by_cases hkey : key = key'
        · subst hkey
          have hget : Fields.get? (Fields.set layer (.text key) (.map inner)) (.text key)
              = some (.map inner) := by rw [Fields.get?_set, if_pos rfl]
          rw [blocked_of_get?_map hget, ih hinner (by simp), Blocked,
            or_iff_right (not_not_intro hsectioned), and_iff_right rfl]
        · rw [blocked_set_of_ne hkey]
          simp [hkey]

/-! Way by way, the layer is open to those that no way before has ended on. -/

/-- A name always has a first key, if need be an empty one. -/
theorem splitPath_ne_nil (ps : List CodePoint) : splitPath ps ≠ [] := by
  unfold splitPath
  split
  · simp
  · simp
  · split <;> simp

/-- So each variable with the mark is written somewhere. -/
theorem namePath_ne_nil (rest : Text) : namePath rest ≠ [] := by
  rw [namePath, ne_eq, List.map_eq_nil_iff]
  exact splitPath_ne_nil _

/-- The step of `ofEnvironment`. -/
def writeVariable (mark : Text) (layer : Fields) (e : Text × Text) : Except Fault Fields :=
  if e.1.startsWith mark then writeAt layer e.2 (namePath (e.1.drop mark.length)) else .ok layer

/-- The ways of the variables of a mark, in the order in which they are set. -/
def ways (env : Environment) (mark : Text) : List (List Text) :=
  env.filterMap fun e => if e.1.startsWith mark then some (namePath (e.1.drop mark.length)) else none

/-- No way ends where one behind it goes through. -/
def Uncrossed (ways : List (List Text)) : Prop := ways.Pairwise fun way other => ¬EndsOn way other

/-- The ways can be written one after the other: nothing is in them, and none is in a
later one. -/
def Open (layer : Fields) (ways : List (List Text)) : Prop :=
  (∀ way ∈ ways, ¬Blocked layer way) ∧ Uncrossed ways

/-- The ways are open if the first one is and the others are open after it has been
written. This is the step of the induction over the variables. -/
theorem open_cons_iff {layer next : Fields} {text : Text} {way : List Text}
    (hwritten : writeAt layer text way = .ok next) (hway : way ≠ []) (hfree : ¬Blocked layer way)
    (rest : List (List Text)) : Open layer (way :: rest) ↔ Open next rest := by
  -- Writing a way changes what stands in another's path only where the two cross, which is the `EndsOn`
  -- part.
  have hopen (other : List Text) :
      ¬Blocked next other ↔ ¬Blocked layer other ∧ ¬EndsOn way other := by
    rw [blocked_writeAt hwritten hway, not_or]
  unfold Open Uncrossed
  rw [List.forall_mem_cons, List.pairwise_cons, and_iff_right hfree]
  constructor
  · rintro ⟨hrest, hends, huncrossed⟩
    exact ⟨fun other hother => (hopen other).mpr ⟨hrest other hother, hends other hother⟩, huncrossed⟩
  · rintro ⟨hrest, huncrossed⟩
    exact ⟨fun other hother => ((hopen other).mp (hrest other hother)).1,
      fun other hother => ((hopen other).mp (hrest other hother)).2, huncrossed⟩

/-- All variables are written, or writing them breaks, and `Open` says which: no way is
blocked at the start, and no way goes through the end of one that is written before it. -/
theorem writeVariables_cases (env : Environment) (mark : Text) (layer : Fields) :
    (Open layer (ways env mark) ∧ ∃ layer', env.foldlM (writeVariable mark) layer = .ok layer')
      ∨ (¬Open layer (ways env mark) ∧ Breaks (env.foldlM (writeVariable mark) layer)) := by
  induction env generalizing layer with
  | nil => exact .inl ⟨⟨by simp [ways], .nil⟩, layer, rfl⟩
  | cons e rest ih =>
    rw [List.foldlM_cons, breaks_bind_iff, ways, List.filterMap_cons, writeVariable]
    by_cases hmark : e.1.startsWith mark = true
    · rw [if_pos hmark, if_pos hmark]
      dsimp only
      -- A way that is blocked now stays so whatever is written later, so the first refusal decides the
      -- run.
      rcases writeAt_cases layer e.2 (namePath (e.1.drop mark.length)) with
        ⟨hfree, next, hwritten⟩ | ⟨hblocked, hbreaks⟩
      · rw [open_cons_iff hwritten (namePath_ne_nil _) hfree]
        rcases ih next with ⟨hopen, layer', hrest⟩ | ⟨hclosed, hbreaks⟩
        · exact .inl ⟨hopen, layer', Fault.bind_eq_ok.mpr ⟨next, hwritten, hrest⟩⟩
        · exact .inr ⟨hclosed, .inr ⟨next, hwritten, hbreaks⟩⟩
      · exact .inr ⟨fun h => h.1 _ List.mem_cons_self hblocked, .inl hbreaks⟩
    · rw [if_neg hmark, if_neg hmark]
      dsimp only
      rcases ih layer with ⟨hopen, layer', hrest⟩ | ⟨hclosed, hbreaks⟩
      · exact .inl ⟨hopen, layer', hrest⟩
      · exact .inr ⟨hclosed, .inr ⟨layer, rfl, hbreaks⟩⟩

/-- The environment breaks exactly if a variable leads through where one before it
ended. -/
theorem ofEnvironment_cases (env : Environment) (mark : Text) :
    (Uncrossed (ways env mark) ∧ ∃ layer, ofEnvironment env mark = .ok layer)
      ∨ (¬Uncrossed (ways env mark) ∧ Breaks (ofEnvironment env mark)) := by
  have hopen : Open [] (ways env mark) ↔ Uncrossed (ways env mark) :=
    and_iff_right fun way _ => not_blocked_nil way
  rw [← hopen]
  exact writeVariables_cases env mark []

/-! ## The conversions

A value is converted leaf by leaf, and so it fails as the first leaf does that fails. -/

/-- What something fails by. -/
def fault? {α : Type} : Except Fault α → Option Fault
  | .ok _ => none
  | .error f => some f

theorem fault?_eq_none_iff {α : Type} {x : Except Fault α} : fault? x = none ↔ ∃ a, x = .ok a := by
  cases x <;> simp [fault?]

theorem fault?_eq_some_iff {α : Type} {x : Except Fault α} {f : Fault} :
    fault? x = some f ↔ x = .error f := by
  cases x <;> simp [fault?]

mutual

/-- The leaves of a value, and the keys they belong to. -/
def leavesAt (key : Scalar) : Value → List (Scalar × Value)
  | .map fields => leavesOfEntries fields
  | .list items => leavesOfItems key items
  | .scalar s => [(key, .scalar s)]
  | .tuple items => [(key, .tuple items)]
  | .set members => [(key, .set members)]
  | .endless => [(key, .endless)]

def leavesOfItems (key : Scalar) : List Value → List (Scalar × Value)
  | [] => []
  | v :: rest => leavesAt key v ++ leavesOfItems key rest

def leavesOfEntries : List (Scalar × Value) → List (Scalar × Value)
  | [] => []
  | (k, v) :: rest => leavesAt k v ++ leavesOfEntries rest

end

/-- What a leaf fails by when it is converted. -/
def leafFault? (leaf : Scalar × Value) : Option Fault := fault? (coerceAt leaf.1 leaf.2)

mutual

/-- A conversion fails by what the first leaf fails by that fails. -/
theorem fault?_coerceAt (key : Scalar) (v : Value) :
    fault? (coerceAt key v) = (leavesAt key v).findSome? leafFault? := by
  cases v with
  | map fields =>
    rw [coerceAt, leavesAt, ← fault?_coerceEntries fields]
    cases coerceEntries fields <;> rfl
  | list items =>
    rw [coerceAt, leavesAt, ← fault?_coerceItems key items]
    cases coerceItems key items <;> rfl
  | scalar s | tuple items | set members | endless =>
    rw [leavesAt, List.findSome?_singleton, leafFault?]

/-- The conversion of a tree fails by the first leaf that does, in the order of the tree.
The three statements are shown together, as the conversion runs through the three kinds of
parts. -/
theorem fault?_coerceItems (key : Scalar) (items : List Value) :
    fault? (coerceItems key items) = (leavesOfItems key items).findSome? leafFault? := by
  cases items with
  | nil => rfl
  | cons v rest =>
    rw [coerceItems, leavesOfItems, List.findSome?_append, ← fault?_coerceAt key v,
      ← fault?_coerceItems key rest]
    cases coerceAt key v <;> cases coerceItems key rest <;> rfl

theorem fault?_coerceEntries (fields : List (Scalar × Value)) :
    fault? (coerceEntries fields) = (leavesOfEntries fields).findSome? leafFault? := by
  cases fields with
  | nil => rfl
  | cons e rest =>
    obtain ⟨k, v⟩ := e
    rw [coerceEntries, leavesOfEntries, List.findSome?_append, ← fault?_coerceAt k v,
      ← fault?_coerceEntries rest]
    cases coerceAt k v <;> cases coerceEntries rest <;> rfl

end

/-! Resolving references changes texts only, so what came to an end before does so after it. -/

open Config (fitsIn itemsFitIn entriesFitIn)

mutual

/-- The depth of a tree is that of its maps and lists, and these are left. -/
theorem fitsIn_resolve (env : Environment) (levels : Nat) (v : Value) :
    fitsIn levels (resolve env v) = fitsIn levels v := by
  cases v with
  | scalar s => cases s <;> rfl
  | map fields => rw [resolve, fitsIn, fitsIn, entriesFitIn_resolveEntries]
  | list items => rw [resolve, fitsIn, fitsIn, itemsFitIn_resolveItems]
  | tuple items | set members | endless => rfl

theorem itemsFitIn_resolveItems (env : Environment) (levels : Nat) (items : List Value) :
    itemsFitIn levels (resolveItems env items) = itemsFitIn levels items := by
  cases items with
  | nil => rfl
  | cons v rest =>
    rw [resolveItems, itemsFitIn, itemsFitIn, fitsIn_resolve, itemsFitIn_resolveItems]

theorem entriesFitIn_resolveEntries (env : Environment) (levels : Nat) (fields : List (Scalar × Value)) :
    entriesFitIn levels (resolveEntries env fields) = entriesFitIn levels fields := by
  cases fields with
  | nil => rfl
  | cons e rest =>
    obtain ⟨k, v⟩ := e
    have hv : fitsIn levels (resolved env v) = fitsIn levels v := by
      unfold resolved
      split
      · rfl
      · exact fitsIn_resolve env levels v
    rw [resolveEntries_cons, entriesFitIn, entriesFitIn, hv, entriesFitIn_resolveEntries]

end

mutual

/-- The leaves of a value that comes to an end are converted by their keys. -/
theorem coerceAt_leaf_of_fitsIn {levels : Nat} {v : Value} (h : fitsIn levels v = true) (key : Scalar) :
    ∀ leaf ∈ leavesAt key v, coerceAt leaf.1 leaf.2 = coerceLeaf leaf.1 leaf.2 := by
  cases v with
  | map fields =>
    rw [fitsIn, Bool.and_eq_true] at h
    exact coerceAt_leaf_of_entriesFitIn h.2
  | list items =>
    rw [fitsIn, Bool.and_eq_true] at h
    exact coerceAt_leaf_of_itemsFitIn h.2 key
  | endless => cases h
  | scalar s | tuple items | set members => simp [leavesAt, coerceAt]

/-- Within the limit each leaf is converted by its own key, with no fault for its
depth. -/
theorem coerceAt_leaf_of_itemsFitIn {levels : Nat} {items : List Value}
    (h : itemsFitIn levels items = true) (key : Scalar) :
    ∀ leaf ∈ leavesOfItems key items, coerceAt leaf.1 leaf.2 = coerceLeaf leaf.1 leaf.2 := by
  cases items with
  | nil => simp [leavesOfItems]
  | cons v rest =>
    rw [itemsFitIn, Bool.and_eq_true] at h
    rw [leavesOfItems, List.forall_mem_append]
    exact ⟨coerceAt_leaf_of_fitsIn h.1 key, coerceAt_leaf_of_itemsFitIn h.2 key⟩

theorem coerceAt_leaf_of_entriesFitIn {levels : Nat} {fields : List (Scalar × Value)}
    (h : entriesFitIn levels fields = true) :
    ∀ leaf ∈ leavesOfEntries fields, coerceAt leaf.1 leaf.2 = coerceLeaf leaf.1 leaf.2 := by
  cases fields with
  | nil => simp [leavesOfEntries]
  | cons e rest =>
    obtain ⟨k, v⟩ := e
    rw [entriesFitIn, Bool.and_eq_true] at h
    rw [leavesOfEntries, List.forall_mem_append]
    exact ⟨coerceAt_leaf_of_fitsIn h.1 k, coerceAt_leaf_of_entriesFitIn h.2⟩

end

/-! A leaf that fails is refused as a bad value, but for one kind of number. -/

theorem integerOfNumeral_eq_error {literal : Text} {n : Numeral} {f : Fault}
    (h : Value.integerOfNumeral literal n = .error f) : ∃ b, f = .badValue b := by
  cases n with
  | value i => cases h
  | tooLong digits | unreadable => exact ⟨_, (Except.error.inj h).symm⟩

/-- What is no integer is a bad value, of the wrong type, or an infinite number. The first
two are what `load` catches; the third is the one that it lets through. -/
theorem toInteger_eq_error {v : Value} {f : Fault} (h : v.toInteger = .error f) :
    (∃ b, f = .badValue b) ∨ f = .misuse .wrongType
      ∨ (f = .misuse .tooLarge ∧ ∃ sign, v = .float (.infinite sign)) := by
  unfold Value.toInteger at h
  split at h
  next => cases h
  next => cases h
  next => exact .inl ⟨_, (Except.error.inj h).symm⟩
  -- The only float left that `int` refuses is an infinite one: `nan` has its own case above.
  next x hnan =>
    cases x with
    | nan => exact absurd rfl hnan
    | infinite sign => exact .inr (.inr ⟨(Except.error.inj h).symm, sign, rfl⟩)
    | finite sign units => cases h
  next => exact .inl (integerOfNumeral_eq_error h)
  next => exact .inl (integerOfNumeral_eq_error h)
  next => exact .inr (.inl (Except.error.inj h).symm)

/-- The one number whose conversion breaks is the infinite one. One that is no number at
all is a bad value, as is a text that spells none. -/
theorem breaks_toInteger_iff (key : Text) (v : Value) :
    Breaks (toInteger key v) ↔ ∃ sign, v = .float (.infinite sign) := by
  constructor
  · intro hbreaks
    cases hread : v.toInteger with
    | ok i =>
      rw [toInteger, hread] at hbreaks
      exact absurd hbreaks (not_breaks_ok _)
    | error f =>
      -- A `ValueError` and a `TypeError` are both caught and reported; the `OverflowError` is the one
      -- left.
      rcases toInteger_eq_error hread with ⟨b, rfl⟩ | rfl | ⟨-, hinfinite⟩
      · rw [toInteger, hread] at hbreaks
        exact absurd hbreaks (not_breaks_badValue _)
      · rw [toInteger, hread] at hbreaks
        exact absurd hbreaks (not_breaks_badValue _)
      · exact hinfinite
  · rintro ⟨sign, rfl⟩
    exact breaks_misuse _

/-- A truth is converted or refused, and never breaks. -/
theorem not_breaks_toTruth (v : Value) : ¬Breaks (toTruth v) := by
  unfold toTruth
  split
  · exact not_breaks_ok _
  · exact not_breaks_badValue _

/-- So a leaf breaks exactly if an infinite number stands where an integer is expected. -/
theorem breaks_coerceLeaf_iff (key : Scalar) (v : Value) :
    Breaks (coerceLeaf key v)
      ↔ Setting.kind? key = some .integer ∧ ∃ sign, v = .float (.infinite sign) := by
  unfold coerceLeaf
  split
  next => simp
  next hkind => simp [hkind, not_breaks_toTruth]
  next hkind => rw [breaks_toInteger_iff, and_iff_right hkind]
  next hkind => simp [hkind]

/-- **The conversions break on infinity.** Of what comes to an end, the conversions break
exactly if the first leaf that cannot be converted is an infinite number at the key of an
integer. -/
theorem breaks_coerceEntries_iff {levels : Nat} {fields : Fields}
    (hfits : entriesFitIn levels fields = true) :
    Breaks (coerceEntries fields)
      ↔ ∃ before key sign after,
        leavesOfEntries fields = before ++ (key, .float (.infinite sign)) :: after
        ∧ Setting.kind? key = some .integer
        ∧ ∀ leaf ∈ before, ∃ w, coerceAt leaf.1 leaf.2 = .ok w := by
  -- Coercion meets the leaves in order and stops at the first that fails, whatever the tree above them.
  have hfirst (f : Fault) : coerceEntries fields = .error f
      ↔ ∃ before leaf after, leavesOfEntries fields = before ++ leaf :: after
        ∧ coerceAt leaf.1 leaf.2 = .error f
        ∧ ∀ leaf ∈ before, ∃ w, coerceAt leaf.1 leaf.2 = .ok w := by
    rw [← fault?_eq_some_iff, fault?_coerceEntries, List.findSome?_eq_some_iff]
    simp only [leafFault?, fault?_eq_some_iff, fault?_eq_none_iff]
  constructor
  · rintro ⟨f, hf, hbad⟩
    obtain ⟨before, ⟨key, v⟩, after, hleaves, hfails, hbefore⟩ := (hfirst f).mp hf
    have hmem : (key, v) ∈ leavesOfEntries fields := by
      rw [hleaves]
      exact List.mem_append_right _ List.mem_cons_self
    -- Away from an endless branch a leaf's coercion is `coerceLeaf`, whose breaks are known.
    have hleaf : coerceAt key v = coerceLeaf key v := coerceAt_leaf_of_entriesFitIn hfits _ hmem
    obtain ⟨hkind, sign, rfl⟩ := (breaks_coerceLeaf_iff key v).mp ⟨f, hleaf.symm.trans hfails, hbad⟩
    exact ⟨before, key, sign, after, hleaves, hkind, hbefore⟩
  · rintro ⟨before, key, sign, after, hleaves, hkind, hbefore⟩
    obtain ⟨f, hf, hbad⟩ := (breaks_coerceLeaf_iff key _).mpr ⟨hkind, sign, rfl⟩
    exact ⟨f, (hfirst f).mpr ⟨before, _, after, hleaves, hf, hbefore⟩, hbad⟩

end Layer

end Keeper
