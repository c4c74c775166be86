import Keeper.Drift.Keyed
import Keeper.Proofs.Ports

/-!
# Keeper — comparison without order, of values

The comparison of values asks each of them for its key and each pair whether it agrees, and any of this
may be refused. Where nothing is, it is the comparison of the items that the values stand for; so what
is known of that one holds here too.

* **`stableSort_map`** — items are sorted in any guise by what they are sorted by.
* **`keyedEqual_of_length_ne`** — collections of different sizes are told apart without a question.
* **`keyedEqual_of_keys`** — the comparison, where all keys are given and have an order.
* **`keyedEqual_of_names`**, **`keyedEqual_ports`** — keys that are texts always have one; ports are
  compared by such keys.
-/

namespace Keeper

/-! ## Guises -/

section Guises

variable {α β : Type}

/-- Sorting in and changing the items commute, if the order of the changed items is that
of the items. -/
theorem insertSorted_map (f : α → β) (le : β → β → Bool) (x : α) (xs : List α) :
    insertSorted le (f x) (xs.map f) = (insertSorted (fun a b => le (f a) (f b)) x xs).map f := by
  induction xs with
  | nil => rfl
  | cons y rest ih =>
    rw [List.map_cons, insertSorted, insertSorted, ih]
    split <;> rfl

/-- Items that are sorted in a guise are sorted by what the order sees of it. -/
theorem stableSort_map (f : α → β) (le : β → β → Bool) (xs : List α) :
    stableSort le (xs.map f) = (stableSort (fun a b => le (f a) (f b)) xs).map f := by
  induction xs with
  | nil => rfl
  | cons x rest ih => rw [List.map_cons, stableSort, ih, insertSorted_map, stableSort]

/-- A check that never fails on the items is the pure check of them. -/
theorem allM_map_eq_ok {f : α → β} {p : β → Except Fault Bool} {q : α → Bool} {xs : List α}
    (h : ∀ x ∈ xs, p (f x) = .ok (q x)) : (xs.map f).allM p = .ok (xs.all q) := by
  induction xs with
  | nil => rfl
  | cons x rest ih =>
    obtain ⟨hx, hrest⟩ := List.forall_mem_cons.mp h
    rw [List.map_cons, List.allM, hx, List.all_cons]
    cases q x with
    | true => exact ih hrest
    | false => rfl

end Guises

/-! ## The comparison -/

section Keyed

variable {α : Type} {key : Value → Except Fault Value} {agree : Value → Value → Except Fault Bool}
  {guise name : α → Value} {eq : α → α → Bool} {c d : List α}

/-- Whatever the keys are, and whether or not they can be told. -/
theorem keyedEqual_of_length_ne {current desired : List Value}
    (hlength : current.length ≠ desired.length) :
    keyedEqual key agree current desired = .ok false := by
  rw [keyedEqual, if_neg hlength]
  rfl

/-- Items whose keys are read without fail, and can all be compared, are sorted as their
names are. The checks that come before the sorting pass, and the sorting itself never
looks at anything but the names. -/
theorem sortedByKey_map {xs : List α} (hkey : ∀ x ∈ xs, key (guise x) = .ok (name x))
    (hordered : Value.allOrdered (xs.map name) = true) :
    sortedByKey key (xs.map guise)
      = .ok ((stableSort (fun a b => (name a).le (name b)) xs).map guise) := by
  have hkeys : (xs.map guise).mapM key = .ok (xs.map name) := by
    rw [List.mapM_map]
    exact Fault.mapM_eq_ok hkey
  -- each value is sorted together with its key
  have hsorted := stableSort_map (fun x => (name x, guise x))
    (fun a b : Value × Value => a.1.le b.1) xs
  unfold sortedByKey
  rw [hkeys]
  show (if Value.allOrdered (xs.map name) = true then _ else _) = _
  rw [if_pos hordered, List.zip_map', hsorted, List.map_map]
  rfl

/-- **Values without order.** Items are compared as values: each in a guise of its own,
which tells its key, and any two of which tell whether the items agree. If the keys of
each side have an order among themselves, the outcome is that of the comparison of the
items, sorted by these keys. -/
theorem keyedEqual_of_keys (hkey : ∀ x ∈ c ++ d, key (guise x) = .ok (name x))
    (hc : Value.allOrdered (c.map name) = true) (hd : Value.allOrdered (d.map name) = true)
    (hagree : ∀ x ∈ c, ∀ y ∈ d, agree (guise x) (guise y) = .ok (eq x y)) :
    keyedEqual key agree (c.map guise) (d.map guise)
      = .ok (unorderedEqual (fun a b => (name a).le (name b)) eq c d) := by
  by_cases hlength : c.length = d.length
  · have hlengths : (c.map guise).length = (d.map guise).length := by simpa using hlength
    rw [keyedEqual, if_pos hlengths,
      sortedByKey_map (fun x hx => hkey x (List.mem_append_left _ hx)) hc,
      sortedByKey_map (fun x hx => hkey x (List.mem_append_right _ hx)) hd, unorderedEqual,
      alignedPairs?, if_pos hlength]
    show (((stableSort _ c).map guise).zip ((stableSort _ d).map guise)).allM _ = _
    rw [List.zip_map]
    refine allM_map_eq_ok ?_
    -- a pair that is compared has an item of either side
    rintro ⟨x, y⟩ hpair
    obtain ⟨hx, hy⟩ := List.of_mem_zip hpair
    exact hagree x ((perm_stableSort _ c).mem_iff.mp hx) y ((perm_stableSort _ d).mem_iff.mp hy)
  · have hlengths : (c.map guise).length ≠ (d.map guise).length := by simpa using hlength
    rw [keyedEqual_of_length_ne hlengths, unorderedEqual, alignedPairs?, if_neg hlength]

end Keyed

/-! ## Keys that are texts -/

theorem Value.le_text (s t : Text) : (Value.text s).le (.text t) = s.le t := by
  show (some (t.lt s) != some true) = !t.lt s
  cases t.lt s <;> rfl

theorem Value.allOrdered_texts (ts : List Text) : allOrdered (ts.map .text) = true := by
  induction ts with
  | nil => rfl
  | cons t rest ih =>
    rw [List.map_cons, allOrdered, ih, Bool.and_true, List.all_map, List.all_eq_true]
    exact fun _ _ => rfl

section Texts

variable {α : Type} {key : Value → Except Fault Value} {agree : Value → Value → Except Fault Bool}
  {guise : α → Value} {name : α → Text} {eq : α → α → Bool} {c d : List α}

/-- Texts have an order, so nothing is refused where every key is a text. What is decided
then is what `unorderedEqual_settles` says of items and their keys. -/
theorem keyedEqual_of_names (hkey : ∀ x ∈ c ++ d, key (guise x) = .ok (.text (name x)))
    (hagree : ∀ x ∈ c, ∀ y ∈ d, agree (guise x) (guise y) = .ok (eq x y)) :
    keyedEqual key agree (c.map guise) (d.map guise)
      = .ok (unorderedEqual (byKey name) eq c d) := by
  have hordered (xs : List α) : Value.allOrdered (xs.map fun x => .text (name x)) = true := by
    have htexts := Value.allOrdered_texts (xs.map name)
    rwa [List.map_map] at htexts
  have hvalues := keyedEqual_of_keys hkey (hordered c) (hordered d) hagree
  simp only [Value.le_text, Text.le_eq] at hvalues
  exact hvalues

/-- **Ports as values.** Ports are compared by name, so a guise that tells the name of a
port, and whether two ports agree, is all it takes to compare them as values. -/
theorem keyedEqual_ports {guise : Port → Value} {c d : List Port}
    (hkey : ∀ p ∈ c ++ d, key (guise p) = .ok (.text p.name))
    (hagree : ∀ p ∈ c, ∀ q ∈ d, agree (guise p) (guise q) = .ok (portAgrees p q)) :
    keyedEqual key agree (c.map guise) (d.map guise) = .ok (portsMatch c d) := by
  rw [keyedEqual_of_names hkey hagree, portsMatch_eq]

end Texts

end Keeper
