import Keeper.Drift.Unordered
import Mathlib.Data.List.FinRange
import Mathlib.Data.List.Forall2
import Mathlib.Data.List.Sort
import Mathlib.Logic.Equiv.Fin.Basic
import Mathlib.Logic.Equiv.Option
import Mathlib.Order.RelClasses

/-!
# Keeper — what comparison without order decides

Both collections are sorted by a key and compared in pairs. Sorting by a key moves items of different
keys only, so the two collections agree when, for each key, the items of that key agree one by one in
the order in which they stand.

* **`insertionSort_byKey`**, **`itemsOf_stableSort`** — the sort is insertion sort, and within each key
  it keeps the order.
* **`unorderedEqual_iff_itemsOf`** — the comparison, key by key, where items agree only if their keys do.
* **`Paired`** — the positions of two lists matched one to one so that matched items agree; lists that
  are matched are, up to the order of one of them, matched place by place (`paired_iff`).
* **`Reorders`** — a rearrangement that leaves items of one key in their relative order.
* **`unorderedEqual_settles`** — collections that agree are matched; where keys are not repeated, those
  that are matched agree, whatever order they are in.
-/

namespace Keeper

variable {α : Type} {κ : Type*}

/-- The items of one key, in the order in which they stand. -/
def itemsOf [DecidableEq κ] (key : α → κ) (k : κ) (xs : List α) : List α := xs.filter (key · = k)

section Items

variable [DecidableEq κ] {key : α → κ} {k : κ}

theorem mem_itemsOf {x : α} {xs : List α} : x ∈ itemsOf key k xs ↔ x ∈ xs ∧ key x = k := by
  rw [itemsOf, List.mem_filter, decide_eq_true_eq]

theorem itemsOf_cons_of_eq {x : α} (h : key x = k) (xs : List α) :
    itemsOf key k (x :: xs) = x :: itemsOf key k xs :=
  List.filter_cons_of_pos (decide_eq_true h)

theorem itemsOf_cons_of_ne {x : α} (h : key x ≠ k) (xs : List α) :
    itemsOf key k (x :: xs) = itemsOf key k xs := by
  apply List.filter_cons_of_neg
  rw [decide_eq_true_eq]
  exact h

theorem itemsOf_perm (key : α → κ) (k : κ) {xs ys : List α} (h : xs.Perm ys) :
    (itemsOf key k xs).Perm (itemsOf key k ys) :=
  h.filter _

/-- Lists that have the same items of each key are rearrangements of each other. -/
theorem perm_of_itemsOf [DecidableEq α] {xs ys : List α}
    (h : ∀ k, itemsOf key k xs = itemsOf key k ys) : xs.Perm ys := by
  rw [List.perm_iff_count]
  intro x
  have hcount (zs : List α) : (itemsOf key (key x) zs).count x = zs.count x :=
    List.count_filter (decide_eq_true rfl)
  rw [← hcount xs, ← hcount ys, h]

end Items

/-! ## Sorting by a key -/

/-- An item that is sorted in adds itself and loses nothing, whatever the order is. -/
theorem perm_insertSorted (le : α → α → Bool) (x : α) (xs : List α) :
    (insertSorted le x xs).Perm (x :: xs) := by
  induction xs with
  | nil => exact .refl _
  | cons y rest ih =>
    rw [insertSorted]
    split
    · exact .refl _
    · exact (ih.cons y).trans (.swap x y rest)

/-- Whatever the order, sorting rearranges. -/
theorem perm_stableSort (le : α → α → Bool) (xs : List α) : (stableSort le xs).Perm xs := by
  induction xs with
  | nil => exact .refl _
  | cons x rest ih => exact (perm_insertSorted le x _).trans (ih.cons x)

section Sorting

variable [LinearOrder κ] (key : α → κ)

/-- The order of items by a key. -/
def byKey (a b : α) : Bool := decide (key a ≤ key b)

/-- The program's sorting by a key is the insertion sort of the library for the order that
the key gives, so its facts can be used. -/
theorem insertSorted_byKey (x : α) (xs : List α) :
    insertSorted (byKey key) x xs = xs.orderedInsert (Order.Preimage key (· ≤ ·)) x := by
  induction xs with
  | nil => rfl
  | cons y rest ih =>
    by_cases h : Order.Preimage key (· ≤ ·) x y
    · have hle : byKey key x y = true := decide_eq_true h
      rw [insertSorted, if_pos hle, List.orderedInsert_cons_of_le _ _ h]
    · have hle : ¬byKey key x y = true := fun hle => h (of_decide_eq_true hle)
      rw [insertSorted, if_neg hle, List.orderedInsert_of_not_le _ _ h, ih]

theorem insertionSort_byKey (xs : List α) :
    stableSort (byKey key) xs = xs.insertionSort (Order.Preimage key (· ≤ ·)) := by
  induction xs with
  | nil => rfl
  | cons x rest ih => rw [stableSort, ih, insertSorted_byKey, List.insertionSort_cons]

theorem pairwise_stableSort (xs : List α) :
    (stableSort (byKey key) xs).Pairwise fun a b => key a ≤ key b := by
  rw [insertionSort_byKey]
  exact List.pairwise_insertionSort _ xs

/-- Items of one key keep their order: they are sorted as they stand, so they are still in
the sorted list, and there are as many of them. -/
theorem itemsOf_stableSort (k : κ) (xs : List α) :
    itemsOf key k (stableSort (byKey key) xs) = itemsOf key k xs := by
  have hsorted : (itemsOf key k xs).Pairwise (Order.Preimage key (· ≤ ·)) := by
    apply List.pairwise_of_forall_mem_list
    intro a ha b hb
    show key a ≤ key b
    rw [(mem_itemsOf.mp ha).2, (mem_itemsOf.mp hb).2]
  -- Stability enters here: items of one key form an already sorted sublist, which sorting keeps in
  -- order.
  have hsub : (itemsOf key k xs).Sublist (stableSort (byKey key) xs) := by
    rw [insertionSort_byKey]
    exact List.sublist_insertionSort hsorted List.filter_sublist
  have hitems : (itemsOf key k (itemsOf key k xs)).Sublist
      (itemsOf key k (stableSort (byKey key) xs)) := hsub.filter _
  have hself : itemsOf key k (itemsOf key k xs) = itemsOf key k xs :=
    List.filter_eq_self.mpr fun a ha => decide_eq_true (mem_itemsOf.mp ha).2
  rw [hself] at hitems
  -- A sublist of the same length is the whole list, and sorting keeps the number of items of a key.
  have hlength := (itemsOf_perm key k (perm_stableSort (byKey key) xs)).length_eq
  exact (hitems.eq_of_length hlength.symm).symm

end Sorting

/-! ## The comparison, key by key -/

section Keys

variable [LinearOrder κ] {key : α → κ} {agree : α → α → Prop}

/-- The comparison sorts both lists and compares them item by item. -/
theorem unorderedEqual_iff_forall₂ {eq : α → α → Bool} {c d : List α} :
    unorderedEqual (byKey key) eq c d = true
      ↔ List.Forall₂ (eq · · = true) (stableSort (byKey key) c) (stableSort (byKey key) d) := by
  have hc := (perm_stableSort (byKey key) c).length_eq
  have hd := (perm_stableSort (byKey key) d).length_eq
  rw [unorderedEqual, alignedPairs?, List.forall₂_iff_zip, hc, hd]
  by_cases hlength : c.length = d.length
  · rw [if_pos hlength]
    simp only [List.all_eq_true, hlength, true_and, Prod.forall]
  · rw [if_neg hlength]
    simp [hlength]

/-- Lists that agree place by place agree within each key, if what agrees is of one
key. -/
theorem forall₂_itemsOf {s t : List α} (h : List.Forall₂ agree s t)
    (hkey : ∀ a ∈ s, ∀ b ∈ t, agree a b → key a = key b) (k : κ) :
    List.Forall₂ agree (itemsOf key k s) (itemsOf key k t) := by
  induction h with
  | nil => exact .nil
  | @cons a b s t hab _ ih =>
    have hrest := ih fun a ha b hb => hkey a (.tail _ ha) b (.tail _ hb)
    have heq : key a = key b := hkey a List.mem_cons_self b List.mem_cons_self hab
    -- Related items have equal keys, so both are kept or both are left out.
    by_cases ha : key a = k
    · have hb : key b = k := heq ▸ ha
      rw [itemsOf_cons_of_eq ha, itemsOf_cons_of_eq hb]
      exact .cons hab hrest
    · have hb : key b ≠ k := heq ▸ ha
      rw [itemsOf_cons_of_ne ha, itemsOf_cons_of_ne hb]
      exact hrest

/-- Where the items of each key agree one by one, every item has a counterpart of
its key. -/
theorem exists_key_eq {s t : List α}
    (h : ∀ k, (itemsOf key k s).length = (itemsOf key k t).length) {x : α} (hx : x ∈ s) :
    ∃ y ∈ t, key y = key x := by
  have hpos : 0 < (itemsOf key (key x) t).length := by
    rw [← h (key x)]
    exact List.length_pos_of_mem (mem_itemsOf.mpr ⟨hx, rfl⟩)
  obtain ⟨y, hy⟩ := List.exists_mem_of_length_pos hpos
  exact ⟨y, mem_itemsOf.mp hy⟩

/-- The first items of two sorted lists are of one key, the least there is, if there are
as many items of each key in the one as in the other. -/
theorem key_head_le {x y : α} {s t : List α} (hs : (x :: s).Pairwise fun a b => key a ≤ key b)
    (h : ∀ k, (itemsOf key k (x :: s)).length = (itemsOf key k (y :: t)).length) :
    key x ≤ key y := by
  obtain ⟨a, ha, hkey⟩ := exists_key_eq (fun k => (h k).symm) (List.mem_cons_self (a := y))
  rw [← hkey]
  rcases List.mem_cons.mp ha with rfl | ha
  · exact le_refl _
  · exact List.rel_of_pairwise_cons hs ha

/-- Two sorted lists agree place by place if the items of each key do: both begin with an
item of the least key there is. -/
theorem forall₂_of_itemsOf {s t : List α} (hs : s.Pairwise fun a b => key a ≤ key b)
    (ht : t.Pairwise fun a b => key a ≤ key b)
    (h : ∀ k, List.Forall₂ agree (itemsOf key k s) (itemsOf key k t)) :
    List.Forall₂ agree s t := by
  have hlength : ∀ k, (itemsOf key k s).length = (itemsOf key k t).length :=
    fun k => (h k).length_eq
  induction s generalizing t with
  | nil =>
    cases t with
    | nil => exact .nil
    | cons y t =>
      obtain ⟨_, hmem, _⟩ := exists_key_eq (fun k => (hlength k).symm) List.mem_cons_self
      nomatch hmem
  | cons x s ih =>
    cases t with
    | nil =>
      obtain ⟨_, hmem, _⟩ := exists_key_eq hlength List.mem_cons_self
      nomatch hmem
    | cons y t =>
      -- both lists are sorted, so each begins with its least key, which is the same
      have hxy : key x = key y :=
        le_antisymm (key_head_le hs hlength) (key_head_le ht fun k => (hlength k).symm)
      have hhead : agree x y := by
        have hx := h (key x)
        rw [itemsOf_cons_of_eq rfl, itemsOf_cons_of_eq hxy.symm, List.forall₂_cons] at hx
        exact hx.1
      -- Taking the two heads away takes one item of the same key from each side.
      have htail : ∀ k, List.Forall₂ agree (itemsOf key k s) (itemsOf key k t) := by
        intro k
        have hk := h k
        by_cases hx : key x = k
        · have hy : key y = k := hxy ▸ hx
          rw [itemsOf_cons_of_eq hx, itemsOf_cons_of_eq hy, List.forall₂_cons] at hk
          exact hk.2
        · have hy : key y ≠ k := hxy ▸ hx
          rw [itemsOf_cons_of_ne hx, itemsOf_cons_of_ne hy] at hk
          exact hk
      exact .cons hhead (ih hs.of_cons ht.of_cons htail fun k => (htail k).length_eq)

/-- Where items agree only if they are of one key, two collections agree if and only if,
for each key, the items of that key agree one by one, in the order in which they stand. -/
theorem unorderedEqual_iff_itemsOf {eq : α → α → Bool} {c d : List α}
    (hkey : ∀ a ∈ c, ∀ b ∈ d, eq a b = true → key a = key b) :
    unorderedEqual (byKey key) eq c d = true
      ↔ ∀ k, List.Forall₂ (eq · · = true) (itemsOf key k c) (itemsOf key k d) := by
  rw [unorderedEqual_iff_forall₂]
  constructor
  · intro h k
    rw [← itemsOf_stableSort key k c, ← itemsOf_stableSort key k d]
    apply forall₂_itemsOf h
    intro a ha b hb
    exact hkey a ((perm_stableSort _ c).mem_iff.mp ha) b ((perm_stableSort _ d).mem_iff.mp hb)
  · intro h
    -- Both lists are sorted by key, so agreement key by key lines them up as a whole.
    apply forall₂_of_itemsOf (pairwise_stableSort key c) (pairwise_stableSort key d)
    intro k
    rw [itemsOf_stableSort, itemsOf_stableSort]
    exact h k

end Keys

/-! ## Matched positions -/

section Pairing

variable {β : Type} {agree : α → β → Prop}

/-- The positions of two lists can be matched one to one so that items at matched
positions agree. -/
def Paired (agree : α → β → Prop) (c : List α) (d : List β) : Prop :=
  ∃ σ : Fin c.length ≃ Fin d.length, ∀ i, agree (c.get i) (d.get (σ i))

theorem Paired.trans {γ : Type} {also : β → γ → Prop} {c : List α} {d : List β} {e : List γ}
    (h : Paired agree c d) (h' : Paired also d e) :
    Paired (fun x z => ∃ y, agree x y ∧ also y z) c e := by
  obtain ⟨σ, hσ⟩ := h
  obtain ⟨τ, hτ⟩ := h'
  exact ⟨σ.trans τ, fun i => ⟨d.get (σ i), hσ i, hτ (σ i)⟩⟩

theorem Paired.mono {agree' : α → β → Prop} (himp : ∀ x y, agree x y → agree' x y) {c : List α}
    {d : List β} (h : Paired agree c d) : Paired agree' c d := by
  obtain ⟨σ, hσ⟩ := h
  exact ⟨σ, fun i => himp _ _ (hσ i)⟩

/-- What agrees place by place is matched: each position with the same one of the other
list. -/
theorem Paired.of_forall₂ {c : List α} {d : List β} (h : List.Forall₂ agree c d) :
    Paired agree c d := by
  refine ⟨finCongr h.length_eq, fun i => ?_⟩
  exact h.get i.isLt (h.length_eq ▸ i.isLt)

/-- A matching is extended by a pair in front. -/
theorem Paired.cons {x : α} {y : β} {c : List α} {d : List β} (hxy : agree x y)
    (h : Paired agree c d) : Paired agree (x :: c) (y :: d) := by
  obtain ⟨σ, hσ⟩ := h
  refine ⟨(finSuccEquiv _).trans (σ.optionCongr.trans (finSuccEquiv _).symm), fun i => ?_⟩
  cases i using Fin.cases with
  | zero => simpa using hxy
  | succ i => simpa using hσ i

/-- A list is matched with every rearrangement of it. The greedy search finds its partner
for each item, as equal items can stand in for each other. -/
theorem Paired.of_perm {c d : List α} (h : c.Perm d) : Paired (· = ·) c d := by
  induction h with
  | nil => exact ⟨Equiv.refl _, fun i => rfl⟩
  | cons x _ ih => exact ih.cons rfl
  -- Only the first two places change; every later place keeps its index.
  | swap x y rest =>
    refine ⟨Equiv.swap ⟨0, by simp⟩ ⟨1, by simp⟩, fun i => ?_⟩
    obtain ⟨_ | _ | i, hi⟩ := i
    · simp
    · simp
    · rw [Equiv.swap_apply_of_ne_of_ne (by simp) (by simp)]
      rfl
  | trans _ _ ih ih' =>
    apply (ih.trans ih').mono
    rintro x z ⟨y, rfl, rfl⟩
    rfl

theorem Paired.of_perms {c c' : List α} {d d' : List β} (hc : c'.Perm c) (hd : d.Perm d')
    (h : Paired agree c d) : Paired agree c' d' := by
  apply (((Paired.of_perm hc).trans h).trans (Paired.of_perm hd)).mono
  rintro x z ⟨y, ⟨w, rfl, hwy⟩, rfl⟩
  exact hwy

/-- Lists that are matched are matched place by place once the one is rearranged after the
other. This is the form in which the order of the lists drops out of the statement. -/
theorem paired_iff {c : List α} {d : List β} :
    Paired agree c d ↔ ∃ u, u.Perm c ∧ List.Forall₂ agree u d := by
  constructor
  · rintro ⟨σ, hσ⟩
    -- The reordering is the first list read along the matching of the second list's places.
    refine ⟨(List.finRange d.length).map fun j => c.get (σ.symm j), ?_, ?_⟩
    · have hpositions : ((List.finRange d.length).map σ.symm).Perm (List.finRange c.length) := by
        apply (List.perm_ext_iff_of_nodup
          ((List.nodup_finRange _).map σ.symm.injective) (List.nodup_finRange _)).mpr
        intro i
        simp only [List.mem_finRange, iff_true, List.mem_map, true_and]
        exact ⟨σ i, σ.symm_apply_apply i⟩
      have hget := hpositions.map c.get
      rw [List.map_map, List.map_get_finRange] at hget
      exact hget
    · have hplaces : List.Forall₂ agree ((List.finRange d.length).map fun j => c.get (σ.symm j))
          ((List.finRange d.length).map d.get) := by
        rw [List.forall₂_map_left_iff, List.forall₂_map_right_iff, List.forall₂_same]
        intro j _
        have hj := hσ (σ.symm j)
        rw [σ.apply_symm_apply] at hj
        exact hj
      rw [List.map_get_finRange] at hplaces
      exact hplaces
  · rintro ⟨u, hu, hagree⟩
    exact (Paired.of_forall₂ hagree).of_perms hu.symm (.refl d)

end Pairing

/-! ## Keys that are not repeated -/

section Distinct

variable [LinearOrder κ] {key : α → κ}

theorem itemsOf_eq_nil_of_notMem {k : κ} {xs : List α} (h : k ∉ xs.map key) :
    itemsOf key k xs = [] := by
  apply List.eq_nil_iff_forall_not_mem.mpr
  intro x hx
  obtain ⟨hmem, hkey⟩ := mem_itemsOf.mp hx
  exact h (hkey ▸ List.mem_map_of_mem hmem)

/-- Where keys are not repeated, an item is the only one of its key. -/
theorem itemsOf_eq_singleton {x : α} {xs : List α} (hnodup : (xs.map key).Nodup) (hx : x ∈ xs) :
    itemsOf key (key x) xs = [x] := by
  induction xs with
  | nil => nomatch hx
  | cons y rest ih =>
    rw [List.map_cons, List.nodup_cons] at hnodup
    rcases List.mem_cons.mp hx with rfl | hmem
    · rw [itemsOf_cons_of_eq rfl, itemsOf_eq_nil_of_notMem hnodup.1]
    · have hne : key y ≠ key x := fun e => hnodup.1 (e ▸ List.mem_map_of_mem hmem)
      rw [itemsOf_cons_of_ne hne, ih hnodup.2 hmem]

/-- If no key is repeated, rearranging a list leaves the items of each key: there is at
most one. -/
theorem itemsOf_eq_of_perm {xs ys : List α} (hnodup : (ys.map key).Nodup) (h : xs.Perm ys) (k : κ) :
    itemsOf key k xs = itemsOf key k ys := by
  by_cases hk : k ∈ ys.map key
  · obtain ⟨y, hy, rfl⟩ := List.mem_map.mp hk
    have hys := itemsOf_eq_singleton hnodup hy
    have hperm := itemsOf_perm key (key y) h
    rw [hys] at hperm ⊢
    exact List.perm_singleton.mp hperm
  · have hxs : k ∉ xs.map key := fun hmem => hk ((h.map key).mem_iff.mp hmem)
    rw [itemsOf_eq_nil_of_notMem hk, itemsOf_eq_nil_of_notMem hxs]

/-- Where keys are not repeated, lists that are matched agree within each key: the one is
rearranged after the other, which does not change what its items of one key are. -/
theorem forall₂_itemsOf_of_paired {agree : α → α → Prop} {c d : List α}
    (hkey : ∀ a ∈ c, ∀ b ∈ d, agree a b → key a = key b) (hc : (c.map key).Nodup)
    (h : Paired agree c d) (k : κ) : List.Forall₂ agree (itemsOf key k c) (itemsOf key k d) := by
  obtain ⟨u, hu, hagree⟩ := paired_iff.mp h
  rw [← itemsOf_eq_of_perm hc hu]
  exact forall₂_itemsOf hagree (fun a ha b hb => hkey a (hu.mem_iff.mp ha) b hb) k

end Distinct

/-! ## Rearranging within the order of each key -/

/-- One list is a rearrangement of the other that leaves items of one key in their
relative order. -/
def Reorders (key : α → κ) (c c' : List α) : Prop :=
  ∃ σ : Fin c.length ≃ Fin c'.length, (∀ i, c'.get (σ i) = c.get i)
    ∧ ∀ i j, i < j → key (c.get i) = key (c.get j) → σ i < σ j

section Reordering

variable [DecidableEq κ] {key : α → κ}

/-- The positions of one key, in ascending order. -/
def positionsOf (key : α → κ) (k : κ) (xs : List α) : List (Fin xs.length) :=
  (List.finRange xs.length).filter fun i => key (xs.get i) = k

/-- The positions of a key are those at which it stands. -/
theorem mem_positionsOf {k : κ} {xs : List α} {i : Fin xs.length} :
    i ∈ positionsOf key k xs ↔ key (xs.get i) = k := by
  rw [positionsOf, List.mem_filter, decide_eq_true_eq]
  exact and_iff_right (List.mem_finRange i)

theorem pairwise_positionsOf (k : κ) (xs : List α) : (positionsOf key k xs).Pairwise (· < ·) :=
  (List.pairwise_lt_finRange _).filter _

theorem itemsOf_eq_map_positionsOf (k : κ) (xs : List α) :
    itemsOf key k xs = (positionsOf key k xs).map xs.get := by
  have hfilter := List.filter_map (p := fun x => decide (key x = k)) (f := xs.get)
    (l := List.finRange xs.length)
  rw [List.map_get_finRange] at hfilter
  exact hfilter

/-- The positions of one key lead, in ascending order, to the positions of that key in the
other list, and these are all there are. -/
theorem Reorders.itemsOf_eq {c c' : List α} (h : Reorders key c c') (k : κ) :
    itemsOf key k c' = itemsOf key k c := by
  obtain ⟨σ, hget, hmono⟩ := h
  -- The reordering keeps places of one key in order, so it maps them onto the new places in order.
  have hascending : ((positionsOf key k c).map σ).Pairwise (· < ·) := by
    rw [List.pairwise_map]
    apply (pairwise_positionsOf k c).imp_of_mem
    intro i j hi hj hij
    apply hmono i j hij
    rw [mem_positionsOf.mp hi, mem_positionsOf.mp hj]
  have hmem : ∀ j, j ∈ (positionsOf key k c).map σ ↔ j ∈ positionsOf key k c' := by
    intro j
    rw [List.mem_map, mem_positionsOf]
    constructor
    · rintro ⟨i, hi, rfl⟩
      rw [hget]
      exact mem_positionsOf.mp hi
    · intro hj
      refine ⟨σ.symm j, mem_positionsOf.mpr ?_, σ.apply_symm_apply j⟩
      rw [← hget, σ.apply_symm_apply]
      exact hj
  have hpositions := hascending.eq_of_mem_iff (pairwise_positionsOf k c') hmem
  rw [itemsOf_eq_map_positionsOf, itemsOf_eq_map_positionsOf, ← hpositions, List.map_map]
  apply List.map_congr_left
  intro i _
  exact hget i

end Reordering

/-! ## What agreement says -/

/-- The comparison says yes only if the items can be matched. Sorting is a matching of the
positions on either side, and item by item the sorted lists agree. -/
theorem paired_of_unorderedEqual [LinearOrder κ] {key : α → κ} {eq : α → α → Bool} {c d : List α}
    (h : unorderedEqual (byKey key) eq c d = true) : Paired (eq · · = true) c d :=
  (Paired.of_forall₂ (unorderedEqual_iff_forall₂.mp h)).of_perms (perm_stableSort (byKey key) c).symm
    (perm_stableSort (byKey key) d)

/-- Where agreement implies equal keys and no key is repeated, the converse holds too, so
that the comparison decides whether there is a matching. -/
theorem unorderedEqual_iff_paired [LinearOrder κ] {key : α → κ} {eq : α → α → Bool}
    {c d : List α} (hkey : ∀ a ∈ c, ∀ b ∈ d, eq a b = true → key a = key b)
    (hc : (c.map key).Nodup) :
    unorderedEqual (byKey key) eq c d = true ↔ Paired (eq · · = true) c d :=
  ⟨paired_of_unorderedEqual, fun h =>
    (unorderedEqual_iff_itemsOf hkey).mpr (forall₂_itemsOf_of_paired hkey hc h)⟩

/-- Collections that agree without regard to order are matched: each item agrees with one
of the other collection, and no two with the same one. Where items agree only if their
keys do, and no key is in the first collection twice, collections that are matched agree
in turn, and rearranging them makes no difference. Both directions go through the items of
each key, which a stable sort does not touch. -/
theorem unorderedEqual_settles [LinearOrder κ] (key : α → κ) (eq : α → α → Bool) (c d : List α) :
    (unorderedEqual (byKey key) eq c d = true → Paired (eq · · = true) c d)
      ∧ ((∀ a ∈ c, ∀ b ∈ d, eq a b = true → key a = key b) → (c.map key).Nodup →
        (Paired (eq · · = true) c d → unorderedEqual (byKey key) eq c d = true)
          ∧ ∀ c' d', c'.Perm c → d'.Perm d →
            unorderedEqual (byKey key) eq c' d' = unorderedEqual (byKey key) eq c d) := by
  refine ⟨paired_of_unorderedEqual, fun hkey hc => ⟨(unorderedEqual_iff_paired hkey hc).mpr, ?_⟩⟩
  intro c' d' hperm hperm'
  have hkey' : ∀ a ∈ c', ∀ b ∈ d', eq a b = true → key a = key b :=
    fun a ha b hb => hkey a (hperm.mem_iff.mp ha) b (hperm'.mem_iff.mp hb)
  have hc' : (c'.map key).Nodup := (hperm.map key).nodup_iff.mpr hc
  rw [Bool.eq_iff_iff, unorderedEqual_iff_paired hkey hc, unorderedEqual_iff_paired hkey' hc']
  exact ⟨fun h => h.of_perms hperm.symm hperm', fun h => h.of_perms hperm hperm'.symm⟩

/-- Numbers told apart by their last digits: they agree as they are given, and in any
other order. -/
theorem unorderedEqual_settles_digits :
    unorderedEqual (byKey (· % 10)) (· == ·) [13, 1, 2] [1, 2, 13] = true
      ∧ ([13, 1, 2].map (· % 10)).Nodup
      ∧ Paired (fun a b => (a == b) = true) [13, 1, 2] [1, 2, 13]
      ∧ unorderedEqual (byKey (· % 10)) (· == ·) [1, 13, 2] [2, 13, 1] = true := by
  obtain ⟨hpaired, hdistinct⟩ := unorderedEqual_settles (· % 10) (· == ·) [13, 1, 2] [1, 2, 13]
  have hagree : unorderedEqual (byKey (· % 10)) (· == ·) [13, 1, 2] [1, 2, 13] = true := by decide
  have hnodup : ([13, 1, 2].map (· % 10)).Nodup := by decide
  have hreordered := (hdistinct (fun a _ b _ heq => by rw [beq_iff_eq.mp heq]) hnodup).2
    [1, 13, 2] [2, 13, 1] (by decide) (by decide)
  exact ⟨hagree, hnodup, hpaired hagree, hreordered.trans hagree⟩

end Keeper
