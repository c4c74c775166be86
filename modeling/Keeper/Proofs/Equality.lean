import Keeper.Proofs.Carriage

/-!
# Keeper — values that are equal to themselves

A value differs from itself only if there is NaN in it, if it does not come to an end, or if a map in
it has two entries of one key. What is read from an ordinary value is ordinary, and writing into
maps keeps it so.

* **`Value.ordinary`** — a value that comes to an end, has no NaN in it and each key once.
* **`Value.eqv_self`** — an ordinary value is equal to itself.
* **`ordinary_inherited`**, **`ordinary_of_toFields`** — what is read from an ordinary value.
* **`ordinary_set`**, **`ordinary_put`** — writing into an ordinary map.
* **`Service.Ordinary`**, **`Service.eqv_self`** — a service of ordinary values is equal to itself.
-/

namespace Keeper

namespace Value

mutual

/-- An ordinary value: no number in it is NaN, each of its maps has each key once, and it
comes to an end. -/
def ordinary : Value → Bool
  | .scalar s => s != .float .nan
  | .list xs | .tuple xs => ordinaryItems xs
  | .set ms => ms.all (· != .float .nan)
  | .map fs => decide (Fields.Apart fs) && ordinaryEntries fs
  | .endless => false

def ordinaryItems : List Value → Bool
  | [] => true
  | x :: rest => ordinary x && ordinaryItems rest

def ordinaryEntries : List (Scalar × Value) → Bool
  | [] => true
  | (k, v) :: rest => k != .float .nan && ordinary v && ordinaryEntries rest

end

/-! ## The parts of an ordinary value -/

/-- The definition goes through a list by recursion; proofs want its members. -/
theorem ordinaryItems_iff (xs : List Value) :
    ordinaryItems xs = true ↔ ∀ x ∈ xs, x.ordinary = true := by
  induction xs with
  | nil => simp [ordinaryItems]
  | cons x rest ih => rw [ordinaryItems, Bool.and_eq_true, ih, List.forall_mem_cons]

/-- The same for the entries of a map, whose keys must not be NaN. -/
theorem ordinaryEntries_iff (fs : List (Scalar × Value)) :
    ordinaryEntries fs = true ↔ ∀ e ∈ fs, e.1 ≠ .float .nan ∧ e.2.ordinary = true := by
  induction fs with
  | nil => simp [ordinaryEntries]
  | cons e rest ih =>
    obtain ⟨k, v⟩ := e
    rw [ordinaryEntries, Bool.and_eq_true, Bool.and_eq_true, bne_iff_ne, ih, List.forall_mem_cons]

/-- A list is ordinary if its items are. -/
theorem ordinary_list_iff (xs : List Value) :
    (Value.list xs).ordinary = true ↔ ∀ x ∈ xs, x.ordinary = true := by
  rw [ordinary, ordinaryItems_iff]

/-- A map is ordinary if no two of its keys are one, none is NaN, and its values are
ordinary. Without the first an entry may hide another one, and a map need not equal
itself. -/
theorem ordinary_map_iff (fs : Fields) :
    (Value.map fs).ordinary = true
      ↔ fs.Apart ∧ ∀ e ∈ fs, e.1 ≠ .float .nan ∧ e.2.ordinary = true := by
  rw [ordinary, Bool.and_eq_true, decide_eq_true_eq, ordinaryEntries_iff]

@[simp] theorem ordinary_text (t : Text) : (Value.text t).ordinary = true := by simp [ordinary]

@[simp] theorem ordinary_int (i : Int) : (Value.int i).ordinary = true := by simp [ordinary]

@[simp] theorem ordinary_bool (b : Bool) : (Value.bool b).ordinary = true := by simp [ordinary]

@[simp] theorem ordinary_null : Value.null.ordinary = true := by simp [ordinary]

/-! ## Equality with itself

Induction on the value. The entries of a map are looked for in the whole of it, so the map is held
fixed while the induction goes through its entries. -/

end Value

/-- NaN is the one scalar that is not equal to itself. -/
theorem Scalar.eqv_self {s : Scalar} (h : s ≠ .float .nan) : s.eqv s = true := by
  cases s with
  | float x =>
    -- every number but NaN has a place
    have hplace : ∃ p, x.place? = some p := by
      cases x with
      | nan => exact absurd rfl h
      | infinite negative => cases negative <;> exact ⟨_, rfl⟩
      | finite negative units => exact ⟨_, rfl⟩
    obtain ⟨p, hp⟩ := hplace
    simp [eqv, place?, hp]
  | _ => simp [eqv, place?]

namespace Value

mutual

/-- An ordinary value is equal to itself. The recursion is that of the comparison; maps
compare each entry with what the other one has at its key, which for distinct keys is the
entry itself. -/
theorem eqv_self : ∀ {v : Value}, v.ordinary = true → v.eqv v = true
  | .scalar s, h => by
    rw [ordinary, bne_iff_ne] at h
    exact Scalar.eqv_self h
  | .list xs, h => by
    rw [ordinary] at h
    rw [eqv]
    exact eqvList_self h
  | .tuple xs, h => by
    rw [ordinary] at h
    rw [eqv]
    exact eqvList_self h
  | .set ms, _ => by
    rw [eqv, beq_self_eq_true, Bool.true_and, List.all_eq_true]
    exact fun m hm => List.any_eq_true.mpr ⟨m, hm, m.same_self⟩
  | .map fs, h => by
    rw [ordinary, Bool.and_eq_true, decide_eq_true_eq] at h
    obtain ⟨hapart, hentries⟩ := h
    rw [eqv, beq_self_eq_true, Bool.true_and]
    -- in a map with itself each entry is looked up by its key
    exact eqvWithin_self hentries fun e he => hapart.get?_of_mem he

theorem eqvList_self : ∀ {xs : List Value}, ordinaryItems xs = true → eqvList xs xs = true
  | [], _ => by rw [eqvList]
  | x :: rest, h => by
    rw [ordinaryItems, Bool.and_eq_true] at h
    rw [eqvList, eqv_self h.1, eqvList_self h.2, Bool.and_self]

/-- Every entry has an equal one in a map from which it can be read. The map that is asked
stays the same through the recursion, so it is a variable of its own. -/
theorem eqvWithin_self {gs : Fields} : ∀ {fs : List (Scalar × Value)}, ordinaryEntries fs = true →
    (∀ e ∈ fs, Fields.get? gs e.1 = some e.2) → eqvWithin fs gs = true
  | [], _, _ => by rw [eqvWithin]
  | (k, v) :: rest, h, hget => by
    rw [ordinaryEntries, Bool.and_eq_true, Bool.and_eq_true] at h
    obtain ⟨⟨-, hv⟩, hrest⟩ := h
    have hk : Fields.get? gs k = some v := hget (k, v) List.mem_cons_self
    rw [eqvWithin, hk]
    dsimp only
    rw [eqv_self hv, eqvWithin_self hrest fun e he => hget e (List.mem_cons_of_mem _ he),
      Bool.and_self]

end

/-! ## Reading

What stands at a key of an ordinary map is ordinary, and so are the items of an ordinary value and
the map it can be read as. -/

theorem ordinary_of_get? {fs : Fields} (h : (Value.map fs).ordinary = true) {key : Scalar}
    {v : Value} (hv : Fields.get? fs key = some v) : v.ordinary = true := by
  obtain ⟨k, hk, -⟩ := Fields.exists_of_get? hv
  exact (((ordinary_map_iff fs).mp h).2 _ hk).2

/-- Whatever a value has for items: those of a list, the members of a set, the keys of a
map, or characters and bytes. -/
theorem ordinary_items {v : Value} (h : v.ordinary = true) {xs : List Value}
    (hxs : v.items = .ok xs) : ∀ x ∈ xs, x.ordinary = true := by
  intro x hx
  -- only keys and members could be NaN, and an ordinary value has no such ones
  cases hasItem_of_mem hxs hx with
  | list hx | tuple hx =>
    rw [ordinary, ordinaryItems_iff] at h
    exact h x hx
  | member hm =>
    rw [ordinary, List.all_eq_true] at h
    exact h _ hm
  | key he =>
    rw [ordinary, bne_iff_ne]
    exact (((ordinary_map_iff _).mp h).2 _ he).1
  | character => exact ordinary_text _
  | byte => exact ordinary_int _

/-- So parsing, which reads sections, items and pairs, never meets anything but ordinary
values. -/
theorem ordinary_inherited : Inherited fun v => v.ordinary = true where
  empty := by decide
  get? := fun h hv => ordinary_of_get? h hv
  items := fun h hxs => ordinary_items h hxs

/-! ## Writing

A key that is written must be no NaN, and what is written must be ordinary. -/

theorem ordinary_of_sublist {fs gs : Fields} (h : (Value.map fs).ordinary = true)
    (hsub : gs.Sublist fs) : (Value.map gs).ordinary = true := by
  obtain ⟨hapart, hentries⟩ := (ordinary_map_iff fs).mp h
  exact (ordinary_map_iff gs).mpr ⟨hapart.sublist hsub, fun e he => hentries e (hsub.subset he)⟩

/-- Writing a key leaves a map ordinary, if the key is no NaN; else it would never be
found again. -/
theorem ordinary_set {fs : Fields} (h : (Value.map fs).ordinary = true) {key : Scalar}
    (hkey : key ≠ .float .nan) {v : Value} (hv : v.ordinary = true) :
    (Value.map (fs.set key v)).ordinary = true := by
  obtain ⟨hapart, hentries⟩ := (ordinary_map_iff fs).mp h
  refine (ordinary_map_iff _).mpr ⟨hapart.set key v, ?_⟩
  exact Fields.forall_mem_set (· ≠ .float .nan) (·.ordinary = true) hentries hkey hv

theorem ordinary_setAll {fs : Fields} (h : (Value.map fs).ordinary = true)
    {es : List (Scalar × Value)} (hes : ∀ e ∈ es, e.1 ≠ .float .nan ∧ e.2.ordinary = true) :
    (Value.map (fs.setAll es)).ordinary = true := by
  induction es generalizing fs with
  | nil => exact h
  | cons e rest ih =>
    obtain ⟨⟨hkey, hv⟩, hrest⟩ := List.forall_mem_cons.mp hes
    exact ih (ordinary_set h hkey hv) hrest

theorem ordinary_put {fs : Fields} (h : (Value.map fs).ordinary = true) (name : Text)
    {v : Option Value} (hv : ∀ w, v = some w → w.ordinary = true) :
    (Value.map (fs.put name v)).ordinary = true := by
  cases v with
  | none => exact ordinary_of_sublist h (Fields.erase_sublist fs _)
  | some w => exact ordinary_set h (by simp) (hv w rfl)

/-- The selector and the labels of a desired service are maps of this kind. -/
theorem ordinary_single (key t : Text) :
    (Value.map [(.text key, .text t)]).ordinary = true :=
  ordinary_set ordinary_inherited.empty (by simp) (ordinary_text t)

/-- A map that is made from pairs is ordinary: each pair is written at its key, so no two
keys are one. -/
theorem ordinary_of_toFields {v : Value} (h : v.ordinary = true) {fs : Fields}
    (hfs : v.toFields = .ok fs) : (Value.map fs).ordinary = true := by
  rcases ordinary_inherited.toFields ordinary_inherited h hfs with hmap | ⟨es, rfl, hentries⟩
  · exact hmap
  · refine ordinary_setAll ordinary_inherited.empty fun e he => ?_
    obtain ⟨hkey, hv⟩ := hentries e he
    rw [ordinary, bne_iff_ne] at hkey
    exact ⟨hkey, hv⟩

end Value

/-! ## Services

A service is ordinary when all its values are, also those that are not compared. -/

structure OwnerReference.Ordinary (r : OwnerReference) : Prop where
  apiVersion : r.apiVersion.ordinary = true
  kind : r.kind.ordinary = true
  name : r.name.ordinary = true
  uid : r.uid.ordinary = true
  controller : r.controller.ordinary = true
  blockOwnerDeletion : r.blockOwnerDeletion.ordinary = true

structure Port.Ordinary (p : Port) : Prop where
  port : p.port.ordinary = true
  target : p.target.ordinary = true
  extra : (Value.map p.extra).ordinary = true

structure Service.Ordinary (s : Service) : Prop where
  space : s.space.ordinary = true
  name : s.name.ordinary = true
  labels : ∀ fs, s.labels = some fs → (Value.map fs).ordinary = true
  annotations : ∀ fs, s.annotations = some fs → (Value.map fs).ordinary = true
  owners : ∀ r ∈ s.owners, r.Ordinary
  selector : ∀ fs, s.selector = some fs → (Value.map fs).ordinary = true
  ports : ∀ p ∈ s.ports, p.Ordinary
  raw : (Value.map s.raw).ordinary = true

theorem OwnerReference.eqv_self {r : OwnerReference} (h : r.Ordinary) : r.eqv r = true := by
  rw [eqv, Value.eqv_self h.apiVersion, Value.eqv_self h.kind, Value.eqv_self h.name,
    Value.eqv_self h.uid, Value.eqv_self h.controller, Value.eqv_self h.blockOwnerDeletion]
  rfl

theorem Port.eqv_self {p : Port} (h : p.Ordinary) : p.eqv p = true := by
  rw [eqv, Value.eqv_self h.port, Value.eqv_self h.target, beq_self_eq_true, beq_self_eq_true]
  rfl

/-- Lists are compared in pairs, and a list with itself pairs each item with itself. -/
theorem allPairs_self {α : Type} {agree : α → α → Bool} {xs : List α}
    (h : ∀ x ∈ xs, agree x x = true) : allPairs agree xs xs = true := by
  induction xs with
  | nil => rfl
  | cons x rest ih =>
    obtain ⟨hx, hrest⟩ := List.forall_mem_cons.mp h
    rw [allPairs, hx, ih hrest, Bool.and_self]

theorem eqvOptional_self {fs : Option Fields}
    (h : ∀ gs, fs = some gs → (Value.map gs).ordinary = true) : eqvOptional fs fs = true := by
  cases fs with
  | none => rfl
  | some gs => exact Value.eqv_self (h gs rfl)

/-- A service whose values are ordinary equals itself. A cycle that reports a state equal
to what it found rests on this. -/
theorem Service.eqv_self {s : Service} (h : s.Ordinary) : s.eqv s = true := by
  have howners := allPairs_self fun r hr => OwnerReference.eqv_self (h.owners r hr)
  have hports := allPairs_self fun p hp => Port.eqv_self (h.ports p hp)
  rw [eqv, Value.eqv_self h.space, Value.eqv_self h.name, eqvOptional_self h.labels,
    eqvOptional_self h.annotations, howners, eqvOptional_self h.selector, hports]
  simp only [beq_self_eq_true, Bool.and_self]

end Keeper
