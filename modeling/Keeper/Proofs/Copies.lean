import Keeper.Proofs.Carriage
import Keeper.Value.Copy

/-!
# Keeper — how deep values go

A map is copied only if it is not nested too deeply. Its parts have a level less to go through than
the map itself, and what is written into it must leave that level as well.

* **`copiesIn_map_iff`**, **`copiesIn_list_iff`** — the levels of a value, by those of its parts.
* **`copies_inherits`** — what is read from a value goes one level less deep.
* **`copiesIn_setAll`**, **`copiesIn_putAll`** — what is written may go one level less deep.
* **`copiesIn_of_plain?`** — JSON gives nothing back that goes deeper than it did.
-/

namespace Keeper

namespace Value

/-- The definition goes through a list by recursion; proofs want its members. -/
theorem itemsCopyIn_iff (n : Nat) (xs : List Value) :
    itemsCopyIn n xs = true ↔ ∀ x ∈ xs, x.copiesIn n = true := by
  induction xs with
  | nil => simp [itemsCopyIn]
  | cons x rest ih => rw [itemsCopyIn, Bool.and_eq_true, ih, List.forall_mem_cons]

theorem entriesCopyIn_iff (n : Nat) (fs : Fields) :
    entriesCopyIn n fs = true ↔ ∀ e ∈ fs, e.2.copiesIn n = true := by
  induction fs with
  | nil => simp [entriesCopyIn]
  | cons e rest ih =>
    obtain ⟨k, v⟩ := e
    rw [entriesCopyIn, Bool.and_eq_true, ih, List.forall_mem_cons]

@[simp] theorem copiesIn_scalar (n : Nat) (s : Scalar) : (Value.scalar s).copiesIn n = true := rfl

/-- A level of a map is a level less for each of its values. Keys are scalars and have no
depth. -/
theorem copiesIn_map_iff (n : Nat) (fs : Fields) :
    (Value.map fs).copiesIn (n + 1) = true ↔ ∀ e ∈ fs, e.2.copiesIn n = true := by
  rw [← entriesCopyIn_iff]
  simp [copiesIn]

theorem copiesIn_list_iff (n : Nat) (xs : List Value) :
    (Value.list xs).copiesIn (n + 1) = true ↔ ∀ x ∈ xs, x.copiesIn n = true := by
  rw [← itemsCopyIn_iff]
  simp [copiesIn]

theorem copiesIn_tuple (n : Nat) (xs : List Value) :
    (Value.tuple xs).copiesIn n = (Value.list xs).copiesIn n := rfl

mutual

/-- A level more does no harm. By recursion on the value, whose parts have a level less
each. -/
theorem copiesIn_succ {n : Nat} : ∀ {v : Value}, v.copiesIn n = true → v.copiesIn (n + 1) = true
  | .scalar _, _ | .set _, _ | .endless, _ => rfl
  | .list xs, h | .tuple xs, h => by
    cases n with
    | zero => simp [copiesIn] at h
    | succ n => simpa [copiesIn] using itemsCopyIn_succ (by simpa [copiesIn] using h)
  | .map fs, h => by
    cases n with
    | zero => simp [copiesIn] at h
    | succ n => simpa [copiesIn] using entriesCopyIn_succ (by simpa [copiesIn] using h)

theorem itemsCopyIn_succ {n : Nat} :
    ∀ {xs : List Value}, itemsCopyIn n xs = true → itemsCopyIn (n + 1) xs = true
  | [], _ => rfl
  | x :: rest, h => by
    rw [itemsCopyIn, Bool.and_eq_true] at h ⊢
    exact ⟨copiesIn_succ h.1, itemsCopyIn_succ h.2⟩

theorem entriesCopyIn_succ {n : Nat} :
    ∀ {fs : List (Scalar × Value)}, entriesCopyIn n fs = true → entriesCopyIn (n + 1) fs = true
  | [], _ => rfl
  | (k, v) :: rest, h => by
    rw [entriesCopyIn, Bool.and_eq_true] at h ⊢
    exact ⟨copiesIn_succ h.1, entriesCopyIn_succ h.2⟩

end

/-- A value that is copied in some levels is copied in more. Bounds that are exact at each
place are brought together by this. -/
theorem copiesIn_of_le {m n : Nat} (hmn : m ≤ n) {v : Value} (h : v.copiesIn m = true) :
    v.copiesIn n = true := by
  induction hmn with
  | refl => exact h
  | step _ ih => exact copiesIn_succ ih

/-! ## Reading -/

/-- What stands at a key goes a level less deep than the map. -/
theorem copiesIn_get? {n : Nat} {fs : Fields} (h : (Value.map fs).copiesIn (n + 1) = true)
    {key : Scalar} {v : Value} (hv : Fields.get? fs key = some v) : v.copiesIn n = true := by
  obtain ⟨k, hk, -⟩ := Fields.exists_of_get? hv
  exact (copiesIn_map_iff n fs).mp h _ hk

/-- So do the items of a value, of whatever kind it is. Lists, tuples and sets give their
members, a map its keys and a text its characters, none of which goes deeper than the
value. -/
theorem copiesIn_items {n : Nat} {v : Value} (h : v.copiesIn (n + 1) = true) {xs : List Value}
    (hxs : v.items = .ok xs) : ∀ x ∈ xs, x.copiesIn n = true := by
  intro x hx
  -- members, keys, characters and bytes are scalars, and have no depth
  cases hasItem_of_mem hxs hx with
  | list hx => exact (copiesIn_list_iff n _).mp h x hx
  | tuple hx =>
    rw [copiesIn_tuple] at h
    exact (copiesIn_list_iff n _).mp h x hx
  | member | key | character | byte => rfl

/-- What is read from a value goes one level less deep. The empty map takes a level
too. -/
theorem copies_inherits (n : Nat) :
    Inherits (fun v => v.copiesIn (n + 2) = true) (fun v => v.copiesIn (n + 1) = true) where
  empty := rfl
  get? := fun h hv => copiesIn_get? h hv
  items := fun h hxs => copiesIn_items h hxs

/-! ## Writing -/

theorem copiesIn_of_sublist {n : Nat} {fs gs : Fields} (h : (Value.map fs).copiesIn (n + 1) = true)
    (hsub : gs.Sublist fs) : (Value.map gs).copiesIn (n + 1) = true :=
  (copiesIn_map_iff n gs).mpr fun e he => (copiesIn_map_iff n fs).mp h e (hsub.subset he)

/-- Writing entries makes it no deeper, as long as the values go a level less deep than
the map may. -/
theorem copiesIn_setAll {n : Nat} {fs : Fields} (h : (Value.map fs).copiesIn (n + 1) = true)
    {es : List (Scalar × Value)} (hes : ∀ e ∈ es, e.2.copiesIn n = true) :
    (Value.map (fs.setAll es)).copiesIn (n + 1) = true := by
  have hentries := (copiesIn_map_iff n fs).mp h
  refine (copiesIn_map_iff n _).mpr fun e he => ?_
  exact (Fields.forall_mem_setAll (fun _ => True) (·.copiesIn n = true)
    (fun e he => ⟨trivial, hentries e he⟩) (fun e he => ⟨trivial, hes e he⟩) e he).2

theorem copiesIn_set {n : Nat} {fs : Fields} (h : (Value.map fs).copiesIn (n + 1) = true) (k : Scalar)
    {v : Value} (hv : v.copiesIn n = true) : (Value.map (fs.set k v)).copiesIn (n + 1) = true :=
  copiesIn_setAll h (List.forall_mem_singleton.mpr hv : ∀ e ∈ [(k, v)], e.2.copiesIn n = true)

/-- The same for optional fields, which is how a service writes its own. -/
theorem copiesIn_put {n : Nat} {fs : Fields} (h : (Value.map fs).copiesIn (n + 1) = true)
    (name : Text) {v : Option Value} (hv : ∀ w, v = some w → w.copiesIn n = true) :
    (Value.map (fs.put name v)).copiesIn (n + 1) = true := by
  cases v with
  | none => exact copiesIn_of_sublist h (Fields.erase_sublist fs _)
  | some w => exact copiesIn_set h _ (hv w rfl)

theorem copiesIn_putAll {n : Nat} {fs : Fields} (h : (Value.map fs).copiesIn (n + 1) = true)
    {es : List (Text × Option Value)} (hes : ∀ e ∈ es, ∀ v, e.2 = some v → v.copiesIn n = true) :
    (Value.map (fs.putAll es)).copiesIn (n + 1) = true :=
  Fields.putAll_induction (P := fun gs => (Value.map gs).copiesIn (n + 1) = true)
    (fun _ hgs e he => copiesIn_put hgs e.1 (hes e he)) h

/-- A map made from pairs goes less deep than they did, so it is copied wherever
they are. -/
theorem copiesIn_of_toFields {n : Nat} {v : Value} (h : v.copiesIn (n + 3) = true) {fs : Fields}
    (hfs : v.toFields = .ok fs) : (Value.map fs).copiesIn (n + 3) = true := by
  rcases (copies_inherits (n + 1)).toFields (copies_inherits n) h hfs with hmap | ⟨es, rfl, hentries⟩
  · exact hmap
  · exact copiesIn_setAll rfl fun e he => copiesIn_succ (hentries e he).2

end Value

/-- What is left of the levels of a manifest for the fields of an owner or of a port in
it, after the manifest, the section, the list and the map. -/
def spareLevels : Nat := 485

theorem copyLimit_eq : copyLimit = spareLevels + 5 := rfl

/-- A copy that is made is what it was made of; only the depth decides whether it is
made. -/
theorem Fields.copied_eq_ok_iff {fs gs : Fields} :
    fs.copied = .ok gs ↔ (Value.map fs).copiesIn copyLimit = true ∧ fs = gs := by
  unfold copied
  split
  next h => simp [h]
  next h => simp [h]

/-! ## What JSON gives back -/

namespace Json

mutual

/-- By recursion on the value, as it is carried: a row comes back as a list of as many
levels, and some entries of a map may not come back. -/
theorem copiesIn_of_plain? {n : Nat} :
    ∀ {v w : Value}, plain? v = some w → v.copiesIn n = true → w.copiesIn n = true
  | .scalar s, w, hw, _ => by
    obtain ⟨s', -, rfl⟩ := Option.map_eq_some_iff.mp hw
    rfl
  | .list xs, w, hw, h | .tuple xs, w, hw, h => by
    obtain ⟨ys, hys, rfl⟩ := Option.map_eq_some_iff.mp hw
    -- no level is left for a list or a map, so the copy would have failed already
    cases n with
    | zero => simp [Value.copiesIn] at h
    | succ n =>
      exact (Value.copiesIn_list_iff n ys).mpr
        (copyIn_of_plainItems? hys ((Value.copiesIn_list_iff n xs).mp h))
  | .map fs, w, hw, h => by
    obtain ⟨es, hes, rfl⟩ := Option.map_eq_some_iff.mp hw
    cases n with
    | zero => simp [Value.copiesIn] at h
    | succ n =>
      exact Value.copiesIn_setAll rfl
        (copyIn_of_plainEntries? hes ((Value.copiesIn_map_iff n fs).mp h))

/-- Item by item, since no item is lost. -/
theorem copyIn_of_plainItems? {n : Nat} : ∀ {xs ys : List Value}, plainItems? xs = some ys →
    (∀ x ∈ xs, x.copiesIn n = true) → ∀ y ∈ ys, y.copiesIn n = true
  | [], ys, hys, _ => by
    obtain rfl : [] = ys := by simpa [plainItems?] using hys
    simp
  | x :: rest, ys, hys, h => by
    simp only [plainItems?, Option.bind_eq_bind, Option.pure_def, Option.bind_eq_some_iff,
      Option.some.injEq] at hys
    obtain ⟨y, hy, ys', hys', rfl⟩ := hys
    obtain ⟨hx, hrest⟩ := List.forall_mem_cons.mp h
    exact List.forall_mem_cons.mpr ⟨copiesIn_of_plain? hy hx, copyIn_of_plainItems? hys' hrest⟩

/-- Entry by entry. That some may be lost when they are put into a map makes it no
deeper. -/
theorem copyIn_of_plainEntries? {n : Nat} : ∀ {fs es : List (Scalar × Value)},
    plainEntries? fs = some es → (∀ e ∈ fs, e.2.copiesIn n = true) → ∀ e ∈ es, e.2.copiesIn n = true
  | [], es, hes, _ => by
    obtain rfl : [] = es := by simpa using hes
    simp
  | (k, v) :: rest, es, hes, h => by
    obtain ⟨t, w, es', -, hw, hes', rfl⟩ := plainEntries?_cons.mp hes
    obtain ⟨hv, hrest⟩ := List.forall_mem_cons.mp h
    exact List.forall_mem_cons.mpr ⟨copiesIn_of_plain? hw hv, copyIn_of_plainEntries? hes' hrest⟩

end

end Json

end Keeper
