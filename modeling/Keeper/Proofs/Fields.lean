import Keeper.Json.Plain
import Keeper.Service.Manifest

/-!
# Keeper — fields by name

Manifests are read and written by names. On names, two keys are one when they are equal, so a map
is settled by what stands at each name.

* **`Scalar.same_text`** — the key of a name is that name and no other.
* **`Scalar.same_iff`** — when two scalars are one key.
* **`get?_set_key`**, **`get?_set`**, **`get?_erase_of_ne`** — reading after writing.
* **`Fields.Distinct`** — a map that has each key once; **`Distinct.get?_put`** — reading after
  writing or removing.
* **`putAll_induction`** — what is kept when names are written or removed one after the other.
* **`Fields.Apart`** — a map of which no two entries are of one key, as every map is that was written
  entry by entry.
* **`Value.HasItem`** — the items of a value, by what kind of value it is.
* **`Value.Inherits`** — what the parts of a manifest have from a property of the whole.
* **`Text.Joined`** — a text that JSON gives back as it is.
* **`Fields.Named`** — a map whose keys are such texts, each there once. Writing and removing names
  keeps it so.
-/

namespace Keeper

theorem Fault.bind_eq_ok {α β : Type} {x : Except Fault α} {f : α → Except Fault β} {b : β} :
    (x >>= f) = .ok b ↔ ∃ a, x = .ok a ∧ f a = .ok b := by
  cases x with
  | ok a => simp [bind, Except.bind]
  | error e => simp [bind, Except.bind]

/-- Where every item is done with success, so is the list. -/
theorem Fault.mapM_eq_ok {α β : Type} {f : α → Except Fault β} {g : α → β} {xs : List α}
    (h : ∀ x ∈ xs, f x = .ok (g x)) : xs.mapM f = .ok (xs.map g) := by
  induction xs with
  | nil => rfl
  | cons x rest ih =>
    obtain ⟨hx, hrest⟩ := List.forall_mem_cons.mp h
    rw [List.mapM_cons, hx, ih hrest]
    rfl

/-- A run that is evaluated to an option has succeeded with what the option holds. Samples
are evaluated so, since faults have no decidable equality. -/
theorem Fault.eq_ok_of_toOption {ε α : Type} {e : Except ε α} {x : α} (h : e.toOption = some x) :
    e = .ok x := by
  cases e with
  | error f => cases h
  | ok y => exact congrArg Except.ok (Option.some.inj h)

/-- Whatever is made of its fault, what succeeds has succeeded before. -/
theorem Fault.eq_ok_of_mapError {α : Type} {e : Except Fault α} {f : Fault → Fault} {a : α}
    (h : e.mapError f = .ok a) : e = .ok a := by
  cases e with
  | error f => cases h
  | ok b => exact h

/-! ## Names

Two texts of strings are equal when the strings are; of two literals `simp` can tell. -/

/-- A character is a code point in one way only, so a row of them is a text in one way
only. -/
theorem Text.ofChars_inj (cs ds : List Char) : Text.ofChars cs = Text.ofChars ds ↔ cs = ds := by
  constructor
  · intro h
    have hpoints : cs.map CodePoint.char = ds.map CodePoint.char := congrArg Text.points h
    exact (List.map_inj_right fun c d h => by simpa using h).mp hpoints
  · exact congrArg _

@[simp] theorem Text.ofString_inj (s t : String) : Text.ofString s = Text.ofString t ↔ s = t :=
  (Text.ofChars_inj s.toList t.toList).trans String.toList_inj

/-- Of the two spellings of emptiness the definitions use the test, and the lemmas the
equation. -/
theorem Text.isEmpty_eq_true_iff (t : Text) : t.isEmpty = true ↔ t = "" := by
  rw [Text.ext_iff]
  exact List.isEmpty_iff

theorem Text.isEmpty_eq_false_iff (t : Text) : t.isEmpty = false ↔ t ≠ "" := by
  rw [Bool.eq_false_iff, ne_eq, Text.isEmpty_eq_true_iff]

/-- A text is the same key as itself and no other, since no number is equal to a text.
Most keys of a manifest are texts, and this turns them into a decidable equation. -/
@[simp] theorem Scalar.same_text (k : Scalar) (t : Text) : k.same (.text t) = decide (k = .text t) := by
  cases k with
  | float x => cases hx : x.place? <;> simp [same, eqv, place?, hx]
  | _ => simp [same, eqv, place?]

/-! ## One key

Being one key is an equivalence: two scalars are one key when they are the same, or name the same
number. -/

/-- Two scalars are one key of a map if they are the same or are numbers in one place:
`1`, `1.0` and `true` are one key. All laws of maps rest on this form, as it is seen to be
an equivalence. -/
theorem Scalar.same_iff (a b : Scalar) :
    a.same b = true ↔ a = b ∨ ∃ p, a.place? = some p ∧ b.place? = some p := by
  have heqv : a.eqv b = true → a = b ∨ ∃ p, a.place? = some p ∧ b.place? = some p := by
    unfold eqv
    -- places are compared among numbers, the scalars themselves elsewhere
    cases ha : a.place? with
    | some p =>
      cases hb : b.place? with
      | some q =>
        intro h
        exact .inr ⟨p, rfl, by simpa using (of_decide_eq_true h).symm⟩
      | none => simp
    | none =>
      cases hb : b.place? with
      | some q => simp
      | none =>
        dsimp only
        split
        · simp
        · simp
        · intro h
          exact .inl (of_decide_eq_true h)
  constructor
  · intro h
    rcases Bool.or_eq_true _ _ ▸ h with h | h
    · exact heqv h
    · exact .inl (of_decide_eq_true h)
  · rintro (rfl | ⟨p, ha, hb⟩)
    · simp [same]
    · simp [same, eqv, ha, hb]

theorem Scalar.same_self (a : Scalar) : a.same a = true := (same_iff a a).mpr (.inl rfl)

theorem Scalar.same_comm (a b : Scalar) : a.same b = b.same a := by
  refine Bool.eq_iff_iff.mpr ?_
  rw [same_iff, same_iff, eq_comm]
  exact or_congr_right (exists_congr fun p => and_comm)

/-- A number is in one place whatever its kind, so an integer, a fraction and a truth
value can be one key together. -/
theorem Scalar.same_trans {a b c : Scalar} (hab : a.same b = true) (hbc : b.same c = true) :
    a.same c = true := by
  rw [same_iff] at *
  rcases hab with rfl | ⟨p, ha, hb⟩
  · exact hbc
  · rcases hbc with rfl | ⟨q, hb', hc⟩
    · exact .inr ⟨p, ha, hb⟩
    · obtain rfl : p = q := Option.some.inj (hb.symm.trans hb')
      exact .inr ⟨p, ha, hc⟩

theorem Scalar.same_congr {a b : Scalar} (h : a.same b = true) (c : Scalar) : c.same a = c.same b :=
  Bool.eq_iff_iff.mpr ⟨fun hca => same_trans hca h, fun hcb => same_trans hcb (same_comm a b ▸ h)⟩

/-! ## Equality with texts and numbers

Nothing but a text is equal to it; a number may be of another kind, but integers are equal only if
they are the same. -/

theorem Scalar.eqv_text (k : Scalar) (t : Text) : k.eqv (.text t) = decide (k = .text t) := by
  cases k with
  | float x => cases hx : x.place? <;> simp [eqv, place?, hx]
  | _ => simp [eqv, place?]

theorem Scalar.text_same (t : Text) (k : Scalar) :
    (Scalar.text t).same k = decide (Scalar.text t = k) := by
  cases k with
  | float x => cases hx : x.place? <;> simp [same, eqv, place?, hx]
  | _ => simp [same, eqv, place?]

/-- A value is equal to a text only if it is this text. -/
@[simp] theorem Value.eqv_text (v : Value) (t : Text) : v.eqv (.text t) = true ↔ v = .text t := by
  cases v with
  | scalar s => simp [eqv, Scalar.eqv_text]
  | _ => simp [eqv]

/-- The other way round; both are needed, since equality of values is not known to be
symmetric. -/
@[simp] theorem Value.text_eqv (t : Text) (v : Value) : (Value.text t).eqv v = true ↔ v = .text t := by
  cases v with
  | scalar s =>
    cases s with
    | float x => cases hx : x.place? <;> simp [eqv, Scalar.eqv, Scalar.place?, hx]
    | _ => simp [eqv, Scalar.eqv, Scalar.place?, eq_comm (a := t)]
  | _ => simp [eqv]

theorem Binary64.one_pos : (0 : Int) < Binary64.one := by
  unfold Binary64.one
  -- the power is too large to be computed here
  generalize 1074 = n
  exact Int.natCast_pos.mpr (Nat.pow_pos (by decide))

/-- Integers have places of their own on the line of all numbers, so they can be compared
there. -/
theorem Binary64.Place.ofInt_inj (i j : Int) : Place.ofInt i = Place.ofInt j ↔ i = j := by
  have hone := one_pos
  rw [ofInt, ofInt, Place.at.injEq]
  exact Int.mul_eq_mul_right_iff (by omega)

theorem Binary64.Place.ofInt_lt (i j : Int) : (Place.ofInt i).lt (Place.ofInt j) = decide (i < j) := by
  have hone := one_pos
  simp only [ofInt, lt]
  exact decide_eq_decide.mpr ⟨fun h => Int.lt_of_mul_lt_mul_right h (by omega),
    fun h => Int.mul_lt_mul_of_pos_right h hone⟩

@[simp] theorem Value.eqv_int (i j : Int) : (Value.int i).eqv (.int j) = true ↔ i = j := by
  simp [eqv, Scalar.eqv, Scalar.place?, Binary64.Place.ofInt_inj]

@[simp] theorem Value.eqv_bool_self (b : Bool) : (Value.bool b).eqv (.bool b) = true := by
  simp [eqv, Scalar.eqv, Scalar.place?]

/-! ## Reading after writing

Induction on the map; what decides is whether its first key is the name that is written or the one
that is read. -/

namespace Fields

@[simp] theorem get?_nil (key : Scalar) : get? [] key = none := rfl

theorem get?_cons_text (k : Scalar) (v : Value) (fs : Fields) (t : Text) :
    get? ((k, v) :: fs) (.text t) = if k = .text t then some v else get? fs (.text t) := by
  simp [get?]

/-- What is read after a key was written: the value, at any key that is the same,
and elsewhere what was there. The other laws of reading after writing are cases of
this one. -/
theorem get?_set_key (fs : Fields) (a b : Scalar) (v : Value) :
    get? (set fs a v) b = if a.same b then some v else get? fs b := by
  induction fs with
  | nil => rfl
  | cons e rest ih =>
    obtain ⟨k, w⟩ := e
    -- an entry of the same key is replaced where it stands, under its own key; the lookups agree then
    -- because being the same is an equivalence
    by_cases hka : k.same a = true
    · have hb : a.same b = k.same b := by
        rw [Scalar.same_comm a b, Scalar.same_comm k b, Scalar.same_congr hka]
      by_cases h : k.same b = true <;> simp [set, get?, hka, hb, h]
    · by_cases hkb : k.same b = true
      · have hab : ¬a.same b = true := fun hab =>
          hka (Scalar.same_trans hkb (Scalar.same_comm a b ▸ hab))
        simp [set, get?, hka, hkb, hab]
      · simp [set, get?, hka, hkb, ih]

/-- For names, which are the same key only if they are the same text. -/
theorem get?_set (fs : Fields) (a b : Text) (v : Value) :
    get? (set fs (.text a) v) (.text b) = if a = b then some v else get? fs (.text b) := by
  simp [get?_set_key]

/-- Removing a key leaves all others. Of the key itself nothing is said: in a map that has
it twice, the second entry is what is read then. -/
theorem get?_erase_of_not_same (fs : Fields) {a b : Scalar} (h : ¬a.same b = true) :
    get? (erase fs a) b = get? fs b := by
  induction fs with
  | nil => rfl
  | cons e rest ih =>
    obtain ⟨k, w⟩ := e
    by_cases hka : k.same a = true
    · have hkb : ¬k.same b = true := fun hkb =>
        h (Scalar.same_trans (Scalar.same_comm k a ▸ hka) hkb)
      simp [erase, get?, hka, hkb]
    · simp [erase, get?, hka, ih]

theorem get?_erase_of_ne (fs : Fields) {a b : Text} (h : a ≠ b) :
    get? (erase fs (.text a)) (.text b) = get? fs (.text b) :=
  get?_erase_of_not_same fs (by simpa using h)

/-- What is written or removed at a name does not matter to any other key. -/
theorem get?_put_of_ne (fs : Fields) {name : Text} {key : Scalar} (h : key ≠ .text name)
    (v : Option Value) : get? (fs.put name v) key = get? fs key := by
  have hsame : ¬(Scalar.text name).same key = true := by
    rw [Scalar.text_same, decide_eq_true_eq]
    exact fun heq => h heq.symm
  cases v with
  | none => exact get?_erase_of_not_same fs hsame
  | some v => exact (get?_set_key fs _ key v).trans (if_neg hsame)

/-- Nothing stands at a key when no entry is of that key. -/
theorem get?_eq_none_iff_same (fs : Fields) (key : Scalar) :
    get? fs key = none ↔ ∀ e ∈ fs, ¬e.1.same key = true := by
  induction fs with
  | nil => simp
  | cons e rest ih =>
    obtain ⟨k, v⟩ := e
    rw [get?, List.forall_mem_cons, ← ih]
    by_cases h : k.same key = true <;> simp [h]

/-- A name that is not among the keys cannot be read, and conversely. -/
theorem get?_eq_none_iff (fs : Fields) (t : Text) :
    get? fs (.text t) = none ↔ .text t ∉ fs.map Prod.fst := by
  rw [get?_eq_none_iff_same]
  constructor
  · intro h hmem
    obtain ⟨e, he, heq⟩ := List.mem_map.mp hmem
    exact h e he (by simp [heq])
  · intro h e he hsame
    exact h (List.mem_map.mpr ⟨e, he, by simpa using hsame⟩)

/-- What does not stand at a name in front is looked for behind. -/
theorem get?_append {fs : Fields} {t : Text} (h : .text t ∉ fs.map Prod.fst) (gs : Fields) :
    get? (fs ++ gs) (.text t) = get? gs (.text t) := by
  induction fs with
  | nil => rfl
  | cons e rest ih =>
    obtain ⟨k, w⟩ := e
    obtain ⟨hk, hrest⟩ : ¬Scalar.text t = k ∧ .text t ∉ rest.map Prod.fst := by simpa using h
    rw [List.cons_append, get?_cons_text, if_neg fun h => hk h.symm, ih hrest]

/-- What is read at a name is an entry of the map. -/
theorem mem_of_get? {fs : Fields} {t : Text} {v : Value} (h : get? fs (.text t) = some v) :
    (.text t, v) ∈ fs := by
  induction fs with
  | nil => cases h
  | cons e rest ih =>
    obtain ⟨k, w⟩ := e
    rw [get?_cons_text] at h
    split at h
    next hk => simp_all
    next => exact List.mem_cons_of_mem _ (ih h)

/-- What is found at a key stands in the map, at the same key. The key that stands there
need not be the one asked for: a number is found under an equal number of another kind, so
`Scalar.same` relates the two and not equality. -/
theorem exists_of_get? {fs : Fields} {key : Scalar} {v : Value}
    (h : get? fs key = some v) : ∃ k, (k, v) ∈ fs ∧ k.same key = true := by
  induction fs with
  | nil => cases h
  | cons e rest ih =>
    obtain ⟨k, w⟩ := e
    rw [get?] at h
    -- the key that is found need not be the key that was asked for, only the same for the map
    by_cases hsame : k.same key = true
    · rw [if_pos hsame, Option.some.injEq] at h
      subst h
      exact ⟨k, List.mem_cons_self, hsame⟩
    · rw [if_neg hsame] at h
      obtain ⟨k', hmem, hsame'⟩ := ih h
      exact ⟨k', List.mem_cons_of_mem _ hmem, hsame'⟩

theorem get?_congr {a b : Scalar} (h : a.same b = true) (fs : Fields) : get? fs a = get? fs b := by
  induction fs with
  | nil => rfl
  | cons e rest ih =>
    obtain ⟨k, v⟩ := e
    rw [get?, get?, ih, Scalar.same_congr h]

/-! ## Keys

A map has each key once; writing and removing keeps it so. Then nothing is left at a name that was
removed. -/

/-- Each key is there once. -/
def Distinct (fs : Fields) : Prop := (fs.map Prod.fst).Nodup

instance (fs : Fields) : Decidable fs.Distinct := inferInstanceAs (Decidable (fs.map Prod.fst).Nodup)

theorem Distinct.nil : Distinct [] := List.nodup_nil

/-- Writing leaves the keys as they are, or adds one that was not there. Everything about
the keys of a map that was written to follows from this. -/
theorem keys_set_cases (fs : Fields) (key : Scalar) (v : Value) :
    (fs.set key v).map Prod.fst = fs.map Prod.fst
      ∨ (fs.set key v).map Prod.fst = fs.map Prod.fst ++ [key]
        ∧ ∀ k ∈ fs.map Prod.fst, k.same key = false := by
  induction fs with
  | nil => exact .inr ⟨rfl, by simp⟩
  | cons e rest ih =>
    obtain ⟨k, w⟩ := e
    -- either some entry takes the value, and the keys stay, or none does, and the key comes last
    by_cases hsame : k.same key = true
    · exact .inl (by simp [set, hsame])
    · rcases ih with ih | ⟨ih, hmem⟩
      · exact .inl (by simp [set, hsame, ih])
      · refine .inr ⟨by simp [set, hsame, ih], ?_⟩
        rw [List.map_cons, List.forall_mem_cons]
        exact ⟨by simpa using hsame, hmem⟩

/-- Writing keeps the keys different: it writes in place where the key is, and else at the
end. So every map that the program builds has different keys, which is what a document
needs. -/
theorem Distinct.set {fs : Fields} (h : fs.Distinct) (key : Scalar) (v : Value) :
    (fs.set key v).Distinct := by
  unfold Distinct
  rcases keys_set_cases fs key v with hkeys | ⟨hkeys, hnew⟩
  · rwa [hkeys]
  · rw [hkeys, List.nodup_append]
    refine ⟨h, by simp, fun k hk k' hk' heq => ?_⟩
    -- a key is the same as itself
    have hsame := hnew k hk
    rw [heq, List.mem_singleton.mp hk', Scalar.same_self] at hsame
    cases hsame

theorem Distinct.setAll {fs : Fields} (h : fs.Distinct) (es : List (Scalar × Value)) :
    (fs.setAll es).Distinct := by
  induction es generalizing fs with
  | nil => exact h
  | cons e rest ih => exact ih (h.set e.1 e.2)

theorem keys_erase (fs : Fields) (a : Text) :
    (erase fs (.text a)).map Prod.fst = (fs.map Prod.fst).erase (.text a) := by
  induction fs with
  | nil => rfl
  | cons e rest ih =>
    obtain ⟨k, w⟩ := e
    by_cases h : k = .text a
    · simp [erase, h]
    · simp [erase, h, ih]

/-- Removing keeps the keys different, as it takes away an entry and no more. -/
theorem Distinct.erase {fs : Fields} (h : fs.Distinct) (t : Text) :
    (fs.erase (.text t)).Distinct := by
  unfold Distinct
  rw [keys_erase]
  exact List.Nodup.erase _ h

/-- So does either of them, which is how optional fields are written. -/
theorem Distinct.put {fs : Fields} (h : fs.Distinct) (t : Text) (v : Option Value) :
    (fs.put t v).Distinct := by
  cases v with
  | none => exact h.erase t
  | some v => exact h.set (.text t) v

theorem Distinct.get?_erase_self {fs : Fields} (h : fs.Distinct) (t : Text) :
    get? (fs.erase (.text t)) (.text t) = none := by
  rw [get?_eq_none_iff, keys_erase]
  exact List.Nodup.not_mem_erase h

/-- The law of reading after writing for optional fields. It needs different keys, since
an absent value removes only the first entry. -/
theorem Distinct.get?_put {fs : Fields} (h : fs.Distinct) (a b : Text) (v : Option Value) :
    get? (fs.put a v) (.text b) = if a = b then v else get? fs (.text b) := by
  cases v with
  | none =>
    by_cases hab : a = b
    · subst hab
      simp [Fields.put, h.get?_erase_self]
    · simp [Fields.put, get?_erase_of_ne fs hab, hab]
  | some v => exact get?_set fs a b v

/-! ## Names one after the other -/

/-- Writes or removes names one after the other. -/
def putAll (fs : Fields) (es : List (Text × Option Value)) : Fields :=
  es.foldl (fun fs e => fs.put e.1 e.2) fs

/-- What is kept when each of the names is written or removed is kept when all of them
are. -/
theorem putAll_induction {P : Fields → Prop} {es : List (Text × Option Value)}
    (hput : ∀ fs, P fs → ∀ e ∈ es, P (fs.put e.1 e.2)) {fs : Fields} (h : P fs) :
    P (fs.putAll es) := by
  induction es generalizing fs with
  | nil => exact h
  | cons e rest ih =>
    have hfirst : P (fs.put e.1 e.2) := hput fs h e List.mem_cons_self
    exact ih (fun gs hgs e' he' => hput gs hgs e' (List.mem_cons_of_mem _ he')) hfirst

/-! ## Entries of different keys

A map that is written entry by entry has no two entries of one key, so each of its entries is what
stands at its key. -/

/-- No two entries are of one key. -/
def Apart (fs : Fields) : Prop := (fs.map Prod.fst).Pairwise fun a b => a.same b = false

instance (fs : Fields) : Decidable fs.Apart :=
  inferInstanceAs (Decidable ((fs.map Prod.fst).Pairwise fun a b => a.same b = false))

theorem Apart.distinct {fs : Fields} (h : fs.Apart) : fs.Distinct :=
  List.Pairwise.imp (fun {a b} hsame heq => by simp [heq, Scalar.same_self] at hsame) h

theorem Apart.sublist {fs gs : Fields} (h : fs.Apart) (hsub : gs.Sublist fs) : gs.Apart :=
  List.Pairwise.sublist (hsub.map Prod.fst) h

/-- Writing leaves no two entries under one key, whatever kind of key it is. -/
theorem Apart.set {fs : Fields} (h : fs.Apart) (key : Scalar) (v : Value) : (fs.set key v).Apart := by
  unfold Apart
  rcases keys_set_cases fs key v with hkeys | ⟨hkeys, hnew⟩
  · rwa [hkeys]
  · rw [hkeys, List.pairwise_append]
    refine ⟨h, List.pairwise_singleton _ _, fun k hk k' hk' => ?_⟩
    rw [List.mem_singleton.mp hk']
    exact hnew k hk

theorem erase_sublist (fs : Fields) (key : Scalar) : (fs.erase key).Sublist fs := by
  induction fs with
  | nil => exact .slnil
  | cons e rest ih =>
    rw [erase]
    split
    · exact List.sublist_cons_self e rest
    · exact ih.cons_cons e

/-- Where no two keys are the same, every entry is what is read at its key; otherwise an
earlier entry may stand before it. -/
theorem Apart.get?_of_mem {fs : Fields} (h : fs.Apart) {k : Scalar} {v : Value}
    (hmem : (k, v) ∈ fs) : get? fs k = some v := by
  induction fs with
  | nil => cases hmem
  | cons e rest ih =>
    obtain ⟨hhead, hrest⟩ := List.pairwise_cons.mp h
    rcases List.mem_cons.mp hmem with rfl | hmem
    · simp [get?, Scalar.same_self]
    · have hsame : e.1.same k = false := hhead k (List.mem_map_of_mem hmem)
      simp [get?, hsame, ih hrest hmem]

end Fields

/-! ## What a value is made of -/

/-- The items of a value, by what kind of value it is: members and keys, the characters of
a text, and the numbers of the bytes. All but those of lists and tuples are scalars. -/
inductive Value.HasItem : Value → Value → Prop where
  | list {xs : List Value} {x : Value} (hx : x ∈ xs) : HasItem (.list xs) x
  | tuple {xs : List Value} {x : Value} (hx : x ∈ xs) : HasItem (.tuple xs) x
  | member {ms : List Scalar} {m : Scalar} (hm : m ∈ ms) : HasItem (.set ms) (.scalar m)
  | key {fs : Fields} {e : Scalar × Value} (he : e ∈ fs) : HasItem (.map fs) (.scalar e.1)
  | character (t : Text) (p : CodePoint) : HasItem (.text t) (.text (.single p))
  | byte (bs : List UInt8) (b : UInt8) : HasItem (.scalar (.bytes bs)) (.int b.toNat)

/-- What is gone through item by item gives these items and no other. Whatever parts have
from a whole is shown by cases on this. -/
theorem Value.hasItem_of_mem {v x : Value} {xs : List Value} (hxs : v.items = .ok xs) (hx : x ∈ xs) :
    v.HasItem x := by
  cases v with
  | list ys =>
    obtain rfl : ys = xs := Except.ok.inj hxs
    exact .list hx
  | tuple ys =>
    obtain rfl : ys = xs := Except.ok.inj hxs
    exact .tuple hx
  | set ms =>
    obtain rfl : ms.map Value.scalar = xs := Except.ok.inj hxs
    obtain ⟨m, hm, rfl⟩ := List.mem_map.mp hx
    exact .member hm
  | map fs =>
    obtain rfl : fs.map (fun e => Value.scalar e.1) = xs := Except.ok.inj hxs
    obtain ⟨e, he, rfl⟩ := List.mem_map.mp hx
    exact .key he
  | scalar s =>
    cases s with
    | text t =>
      obtain rfl : characters t = xs := Except.ok.inj hxs
      obtain ⟨p, -, rfl⟩ := List.mem_map.mp hx
      exact .character t p
    | bytes bs =>
      obtain rfl : bs.map (fun b => Value.int b.toNat) = xs := Except.ok.inj hxs
      obtain ⟨b, -, rfl⟩ := List.mem_map.mp hx
      exact .byte bs b
    | _ => cases hxs
  | endless => cases hxs

/-! ## Properties that parts inherit

A manifest is read part by part. What a value hands on to its entries and items, the parts of a
manifest have from the whole. A property that counts how deep a value goes is handed on with one
level less, so what is handed on may be another property than the value's own. -/

/-- A value with the first property hands the second one on to its entries and items, and
the empty map has it too. -/
structure Value.Inherits (P Q : Value → Prop) : Prop where
  empty : Q (.map [])
  get? : ∀ {fs : Fields} {t : Text} {v : Value},
    P (.map fs) → Fields.get? fs (.text t) = some v → Q v
  items : ∀ {v : Value} {xs : List Value}, P v → v.items = .ok xs → ∀ x ∈ xs, Q x

/-- A property that a value hands on as it is. -/
abbrev Value.Inherited (P : Value → Prop) : Prop := Value.Inherits P P

namespace Value.Inherits

variable {P Q R : Value → Prop} {fs gs : Fields} {key : Text}

/-- The property of a map comes down to the section in it. A missing section is read as
the empty map, so that has to have the property as well. -/
theorem part (hPQ : Inherits P Q) (h : P (.map fs)) (hpart : fs.part key = .ok gs) :
    Q (.map gs) := by
  unfold Fields.part Value.orElse at hpart
  -- a section that counts as false is taken for missing
  split at hpart
  · cases hget : Fields.get? fs (.text key) with
    | none => simp [Fields.getD, hget, Value.fields, Value.misused] at hpart
    | some v =>
      have hv := hPQ.get? h hget
      simp only [Fields.getD, hget, Option.getD_some] at hpart
      cases v with
      | map gs' =>
        obtain rfl : gs' = gs := Except.ok.inj hpart
        exact hv
      | _ => cases hpart
  · obtain rfl : [] = gs := Except.ok.inj hpart
    exact hPQ.empty

/-- An optional section may still be a list of pairs, so its property is that of the value
it was made from. -/
theorem part? (hPQ : Inherits P Q) (h : P (.map fs)) (hpart : fs.part? key = .ok (some gs)) :
    ∃ v, Q v ∧ v.toFields = .ok gs := by
  unfold Fields.part? at hpart
  split at hpart
  · cases hpart
  · -- a section that is not there counts as null, and a null one is no section: the first case is over
    cases hget : Fields.get? fs (.text key) with
    | none => simp_all [Fields.getD]
    | some v =>
      simp only [Fields.getD, hget, Option.getD_some] at hpart
      refine ⟨v, hPQ.get? h hget, ?_⟩
      cases hfields : v.toFields with
      | error f => simp [hfields, Except.map] at hpart
      | ok gs' => simpa [hfields, Except.map] using hpart

/-- The items at a key are two steps inside the map. -/
theorem parts (hPQ : Inherits P Q) (hQR : Inherits Q R) (h : P (.map fs)) {xs : List Value}
    (hxs : ((fs.getD (.text key) .null).orElse (.list [])).items = .ok xs) : ∀ x ∈ xs, R x := by
  unfold Value.orElse at hxs
  split at hxs
  · cases hget : Fields.get? fs (.text key) with
    | none => simp [Fields.getD, hget, Value.items, Value.misused] at hxs
    | some v =>
      simp only [Fields.getD, hget, Option.getD_some] at hxs
      exact hQR.items (hPQ.get? h hget) hxs
  · obtain rfl : [] = xs := Except.ok.inj hxs
    simp

end Value.Inherits

/-- Only a map is read as one. -/
theorem Value.eq_map_of_fields {v : Value} {fs : Fields} (h : v.fields = .ok fs) : v = .map fs := by
  cases v with
  | map gs => exact congrArg Value.map (Except.ok.inj h)
  | _ => cases h

/-- Pairs are read one by one. -/
theorem Value.entriesOfPairs_cons {pair : Value} {rest : List Value} {index : Nat}
    {es : List (Scalar × Value)} (h : entriesOfPairs index (pair :: rest) = .ok es) :
    ∃ k v es', pair.items = .ok [.scalar k, v] ∧ entriesOfPairs (index + 1) rest = .ok es'
      ∧ es = (k, v) :: es' := by
  rw [entriesOfPairs, Fault.bind_eq_ok] at h
  obtain ⟨parts, hparts, h⟩ := h
  split at h
  next k v =>
    obtain ⟨es', hes', heq⟩ := Fault.bind_eq_ok.mp h
    exact ⟨k, v, es', hparts, hes', (Except.ok.inj heq).symm⟩
  next => cases h
  next => cases h

/-- Keys and values of the entries that some pairs make have been items of the pairs.
Properties that go down from a value to its parts are so carried through a conversion to a
map. -/
theorem Value.Inherits.entries {P Q : Value → Prop} (hPQ : Inherits P Q) {pairs : List Value}
    (hpairs : ∀ x ∈ pairs, P x) {index : Nat} {es : List (Scalar × Value)}
    (h : entriesOfPairs index pairs = .ok es) : ∀ e ∈ es, Q (.scalar e.1) ∧ Q e.2 := by
  induction pairs generalizing index es with
  | nil =>
    obtain rfl : [] = es := by simpa [entriesOfPairs] using h
    simp
  | cons pair rest ih =>
    obtain ⟨k, v, es', hitems, hes', rfl⟩ := entriesOfPairs_cons h
    have hparts := hPQ.items (hpairs pair List.mem_cons_self) hitems
    have hrest := ih (fun x hx => hpairs x (List.mem_cons_of_mem _ hx)) hes'
    exact List.forall_mem_cons.mpr ⟨⟨hparts (.scalar k) (by simp), hparts v (by simp)⟩, hrest⟩

/-- A map is taken as it is, and everything else as pairs: keys and values have been two
steps inside the value then. -/
theorem Value.Inherits.toFields {P Q R : Value → Prop} (hPQ : Inherits P Q) (hQR : Inherits Q R)
    {v : Value} (h : P v) {fs : Fields} (hfs : v.toFields = .ok fs) :
    P (.map fs) ∨ ∃ es, fs = Fields.ofEntries es ∧ ∀ e ∈ es, R (.scalar e.1) ∧ R e.2 := by
  have hpairs (hread : (do return Fields.ofEntries (← entriesOfPairs 0 (← v.items))) = .ok fs) :
      ∃ es, fs = Fields.ofEntries es ∧ ∀ e ∈ es, R (.scalar e.1) ∧ R e.2 := by
    obtain ⟨xs, hxs, hread⟩ := Fault.bind_eq_ok.mp hread
    obtain ⟨es, hes, heq⟩ := Fault.bind_eq_ok.mp hread
    exact ⟨es, (Except.ok.inj heq).symm, hQR.entries (hPQ.items h hxs) hes⟩
  cases v with
  | map gs =>
    obtain rfl : gs = fs := Except.ok.inj hfs
    exact .inl h
  | _ => exact .inr (hpairs hfs)

/-! ## Texts that JSON gives back

A text is given back as it is when no two surrogates of it make a character; the text of a string
has none at all. -/

/-- JSON gives the text back as it is. -/
def Text.Joined (t : Text) : Prop := Json.plainText t = t

instance (t : Text) : Decidable t.Joined := by unfold Text.Joined; infer_instance

/-- A character is found again by its value, since no surrogate has that value. -/
theorem CodePoint.ofNat_value (c : Char) : CodePoint.ofNat (CodePoint.char c).value = .char c := by
  have hvalid := c.valid
  unfold CodePoint.ofNat
  split
  next h =>
    -- the value of a character is no surrogate's
    simp only [CodePoint.value, CodePoint.firstSurrogate, Char.toNat, UInt32.isValidChar,
      Nat.isValidChar] at h hvalid
    omega
  next => simp [CodePoint.value]

/-- A row of characters has no halves in it that could be joined, so JSON gives an
ordinary text back as it was. -/
theorem Json.joinSurrogates_chars (cs : List Char) :
    Json.joinSurrogates (cs.map fun c => (CodePoint.char c).value) = cs.map .char := by
  induction cs with
  | nil => rfl
  | cons c rest ih =>
    cases rest with
    | nil => simp [joinSurrogates, CodePoint.ofNat_value]
    | cons d rest =>
      -- a character is no surrogate, so no pair of them begins here
      have hc : ¬(0xd800 ≤ (CodePoint.char c).value ∧ (CodePoint.char c).value < 0xdc00) := by
        have hvalid := c.valid
        simp only [CodePoint.value, Char.toNat, UInt32.isValidChar, Nat.isValidChar] at hvalid ⊢
        omega
      simp only [List.map_cons, joinSurrogates]
      rw [if_neg (by simp; omega), CodePoint.ofNat_value]
      simpa using ih

/-- So any text without surrogates is given back by JSON. The keys of manifests and all
texts of the definitions are of this kind. -/
@[simp] theorem Text.joined_ofChars (cs : List Char) : (Text.ofChars cs).Joined := by
  simp only [Joined, Json.plainText, ofChars, List.map_map]
  exact congrArg Text.mk (Json.joinSurrogates_chars cs)

@[simp] theorem Text.joined_ofString (s : String) : (Text.ofString s).Joined :=
  joined_ofChars s.toList

/-- Joining halves does not make a text empty. -/
theorem Json.isEmpty_plainText (t : Text) : (plainText t).isEmpty = t.isEmpty := by
  obtain ⟨points⟩ := t
  match points with
  | [] => rfl
  | [p] => rfl
  | p :: q :: rest =>
    simp only [plainText, List.map_cons, joinSurrogates, Text.isEmpty]
    split <;> simp only [List.isEmpty_cons]

/-! ## Maps with names for keys -/

namespace Fields

/-- A map whose keys are texts that JSON gives back, each there once. -/
structure Named (fs : Fields) : Prop where
  names : ∀ k ∈ fs.map Prod.fst, ∃ t : Text, k = .text t ∧ t.Joined
  distinct : fs.Distinct

theorem Named.nil : Named [] := ⟨by simp, .nil⟩

/-- What is left of a map with names for keys has names for keys. -/
theorem Named.sublist {fs gs : Fields} (h : fs.Named) (hsub : gs.Sublist fs) : gs.Named :=
  ⟨fun k hk => h.names k ((hsub.map Prod.fst).subset hk), h.distinct.sublist (hsub.map Prod.fst)⟩

/-- Such a map stays one when a name is written that JSON gives back. -/
theorem Named.set {fs : Fields} (h : fs.Named) {t : Text} (ht : t.Joined) (v : Value) :
    (fs.set (.text t) v).Named := by
  refine ⟨fun k hk => ?_, h.distinct.set _ v⟩
  rcases keys_set_cases fs (.text t) v with hkeys | ⟨hkeys, -⟩
  · exact h.names k (by rwa [hkeys] at hk)
  · rw [hkeys] at hk
    rcases List.mem_append.mp hk with hk | hk
    · exact h.names k hk
    · exact ⟨t, by simpa using hk, ht⟩

/-- The same, entry by entry. -/
theorem Named.setAll {fs : Fields} (h : fs.Named) {es : List (Scalar × Value)}
    (hes : ∀ e ∈ es, ∃ t : Text, e.1 = .text t ∧ t.Joined) : (fs.setAll es).Named := by
  induction es generalizing fs with
  | nil => exact h
  | cons e rest ih =>
    obtain ⟨k, v⟩ := e
    obtain ⟨t, rfl, ht⟩ := hes (k, v) (by simp)
    exact ih (h.set ht v) fun e he => hes e (List.mem_cons_of_mem _ he)

theorem Named.erase {fs : Fields} (h : fs.Named) (t : Text) : (fs.erase (.text t)).Named := by
  refine ⟨fun k hk => ?_, h.distinct.erase t⟩
  rw [keys_erase] at hk
  exact h.names k (List.mem_of_mem_erase hk)

/-- The same for optional fields, which are written or removed. -/
theorem Named.put {fs : Fields} (h : fs.Named) {t : Text} (ht : t.Joined) (v : Option Value) :
    (fs.put t v).Named := by
  cases v with
  | none => exact h.erase t
  | some v => exact h.set ht v

end Fields

end Keeper
