import Keeper.Proofs.Breakage
import Mathlib.Data.List.Nodup

/-!
# Keeper — the layer of the environment

Variables are written one after the other into a tree of maps. Where no way of one leads through the end of
another, the tree has one leaf for each variable and no others, so it does not matter in which order the
variables stand.

* **`Value.leaves`** — the leaves of a value, each with the keys that lead to it.
* **`Fields.Grown`** — a tree of texts as variables make it: names as keys, each once, and no empty map
  inside.
* **`Layer.leaves_writeAt`** — writing a text adds one leaf.
* **`Fields.Grown.eqv`** — trees are equal if the same texts stand at the same ways.
* **`Layer.ofEnvironment_grows`** — what the variables of an environment make.
-/

namespace Keeper

mutual

/-- The leaves of a value, each with the keys that lead to it; a map without entries is a
leaf too. -/
def Value.leaves : Value → List (List Scalar × Value)
  | .map (e :: rest) => Fields.leaves (e :: rest)
  | v => [([], v)]

def Fields.leaves : List (Scalar × Value) → List (List Scalar × Value)
  | [] => []
  | (k, v) :: rest => v.leaves.map (fun leaf => (k :: leaf.1, leaf.2)) ++ Fields.leaves rest

end

namespace Value

/-- The leaves of what stands at a key. -/
def leavesUnder (key : Scalar) (v : Value) : List (List Scalar × Value) :=
  v.leaves.map fun leaf => (key :: leaf.1, leaf.2)

theorem leaves_map {fields : Fields} (h : fields ≠ []) :
    (Value.map fields).leaves = Fields.leaves fields := by
  cases fields with
  | nil => exact absurd rfl h
  | cons e rest => rw [leaves]

theorem leaves_text (t : Text) : (Value.text t).leaves = [([], .text t)] := by
  rw [leaves]
  simp

theorem leaves_ne_nil : ∀ v : Value, v.leaves ≠ []
  | .map ((k, v) :: rest) => by
    rw [leaves, Fields.leaves]
    simp [leaves_ne_nil v]
  | .map [] | .scalar _ | .list _ | .tuple _ | .set _ | .endless => by simp [leaves]

end Value

namespace Fields

/-- The leaves of entries, from the front. -/
theorem leaves_cons (k : Scalar) (v : Value) (rest : Fields) :
    leaves ((k, v) :: rest) = v.leavesUnder k ++ leaves rest := by
  rw [leaves, Value.leavesUnder]

/-- So they can be taken part by part. -/
theorem leaves_append (fs gs : Fields) : leaves (fs ++ gs) = leaves fs ++ leaves gs := by
  induction fs with
  | nil => rfl
  | cons e rest ih =>
    obtain ⟨k, v⟩ := e
    rw [List.cons_append, leaves_cons, leaves_cons, ih, List.append_assoc]

/-- A leaf of a map is a leaf of what stands at the first key that leads to it. -/
theorem mem_leaves {fs : Fields} {leaf : List Scalar × Value} :
    leaf ∈ leaves fs ↔ ∃ e ∈ fs, ∃ l ∈ e.2.leaves, (e.1 :: l.1, l.2) = leaf := by
  induction fs with
  | nil => simp [leaves]
  | cons e rest ih =>
    obtain ⟨k, v⟩ := e
    rw [leaves_cons, List.mem_append, ih, Value.leavesUnder, List.mem_map]
    simp

/-- The keys that a way leads through. -/
def keysOf (way : List Text) : List Scalar := way.map Scalar.text

theorem keysOf_injective : Function.Injective keysOf :=
  List.map_injective_iff.mpr fun _ _ h => Scalar.text.inj h

/-- What stands at the end of a way from key to key. -/
def at? : Fields → List Text → Option Value
  | _, [] => none
  | fields, [key] => get? fields (.text key)
  | fields, key :: way =>
    match get? fields (.text key) with
    | some (.map inner) => at? inner way
    | _ => none

@[simp] theorem at?_nil (fields : Fields) : fields.at? [] = none := by cases fields <;> rfl

theorem at?_singleton (fields : Fields) (key : Text) : fields.at? [key] = get? fields (.text key) := by
  rw [at?]

theorem at?_cons_of_map {fields inner : Fields} {key : Text} {way : List Text}
    (hget : get? fields (.text key) = some (.map inner)) (hway : way ≠ []) :
    fields.at? (key :: way) = inner.at? way := by
  obtain ⟨next, rest, rfl⟩ := List.exists_cons_of_ne_nil hway
  rw [at?, hget]
  simp

/-- A way that leads to a text begins with a key, at which the text stands or what it is
found in. -/
theorem exists_get?_of_at? {fields : Fields} {key : Text} {way : List Text} {t : Text}
    (h : fields.at? (key :: way) = some (.text t)) :
    (way = [] ∧ get? fields (.text key) = some (.text t))
      ∨ ∃ inner : Fields, get? fields (.text key) = some (.map inner)
        ∧ inner.at? way = some (.text t) := by
  cases way with
  | nil => exact .inl ⟨rfl, by rwa [at?_singleton] at h⟩
  | cons next rest =>
    rw [at?] at h
    · split at h
      next inner hget => exact .inr ⟨inner, hget, h⟩
      next => cases h
    · simp

theorem ne_nil_of_at? {fields : Fields} {way : List Text} {v : Value} (h : fields.at? way = some v) :
    way ≠ [] := by
  rintro rfl
  rw [at?_nil] at h
  cases h

/-- A text at the end of a way is a leaf. -/
theorem mem_leaves_of_at? {fields : Fields} {way : List Text} {t : Text}
    (h : fields.at? way = some (.text t)) : (keysOf way, .text t) ∈ leaves fields := by
  induction way generalizing fields with
  | nil => exact absurd rfl (ne_nil_of_at? h)
  | cons key way ih =>
    rcases exists_get?_of_at? h with ⟨rfl, hget⟩ | ⟨inner, hget, hinner⟩
    · exact mem_leaves.mpr ⟨_, mem_of_get? hget, ([], .text t), by rw [Value.leaves_text]; simp, rfl⟩
    · have hleaf := ih hinner
      -- An empty map would be a leaf itself, but a text was found below it.
      have hne : inner ≠ [] := by
        rintro rfl
        simp [leaves] at hleaf
      exact mem_leaves.mpr ⟨_, mem_of_get? hget, _, by rwa [Value.leaves_map hne], rfl⟩

/-! ## Trees that grow -/

/-- A tree of texts: each key is a name and is there once, and at it stands a text or a
tree that is not empty. -/
inductive Grown : Fields → Prop where
  | intro {fields : Fields} (apart : fields.Apart)
    (values : ∀ e ∈ fields, (∃ key, e.1 = .text key)
      ∧ ((∃ t, e.2 = .text t) ∨ ∃ inner, e.2 = .map inner ∧ inner ≠ []))
    (inside : ∀ e ∈ fields, ∀ inner, e.2 = .map inner → Grown inner) : Grown fields

namespace Grown

variable {fields : Fields} {key : Text}

theorem nil : Grown [] := .intro List.Pairwise.nil (by simp) (by simp)

theorem apart (h : fields.Grown) : fields.Apart := by
  cases h with
  | intro apart _ _ => exact apart

theorem name {e : Scalar × Value} (h : fields.Grown) (he : e ∈ fields) : ∃ key, e.1 = .text key := by
  cases h with
  | intro _ values _ => exact (values e he).1

/-- At a key stands a text or a grown tree that is not empty, so that every way in the
tree ends at a text. -/
theorem value {e : Scalar × Value} (h : fields.Grown) (he : e ∈ fields) :
    (∃ t, e.2 = .text t) ∨ ∃ inner, e.2 = .map inner ∧ inner ≠ [] ∧ Grown inner := by
  cases h with
  | intro _ values inside =>
    rcases (values e he).2 with htext | ⟨inner, hmap, hne⟩
    · exact .inl htext
    · exact .inr ⟨inner, hmap, hne, inside e he inner hmap⟩

/-- A tree stays grown when a text or a grown tree is set in it. Other keys stay as they
are, and what is set is no empty section, so every way still ends at a text. -/
theorem set (h : fields.Grown) {v : Value}
    (hv : (∃ t, v = .text t) ∨ ∃ inner, v = .map inner ∧ inner ≠ [] ∧ Grown inner) :
    (fields.set (.text key) v).Grown := by
  have hall := forall_mem_set (fun k => ∃ key, k = .text key)
    (fun v => (∃ t, v = .text t) ∨ ∃ inner, v = .map inner ∧ inner ≠ [] ∧ Grown inner)
    (fun e he => ⟨h.name he, h.value he⟩) ⟨key, rfl⟩ hv
  -- What is written keeps the names apart; that the inner maps are grown is read off the old entries and
  -- the new one.
  refine .intro (h.apart.set _ _) (fun e he => ?_) fun e he inner hmap => ?_
  · obtain ⟨hname, htext | ⟨inner, hmap, hne, -⟩⟩ := hall e he
    · exact ⟨hname, .inl htext⟩
    · exact ⟨hname, .inr ⟨inner, hmap, hne⟩⟩
  · obtain ⟨-, ⟨t, htext⟩ | ⟨inner', hmap', -, hgrown⟩⟩ := hall e he
    · rw [hmap] at htext
      cases htext
    · obtain rfl := Value.map.inj (hmap.symm.trans hmap')
      exact hgrown

/-- Where a tree has leaves, it has texts, and they stand at the ends of the ways to
them. -/
theorem at?_of_mem_leaves (h : fields.Grown) {leaf : List Scalar × Value} (hleaf : leaf ∈ leaves fields) :
    ∃ way t, leaf = (keysOf way, .text t) ∧ fields.at? way = some (.text t) := by
  induction h generalizing leaf with
  | @intro fields apart values inside ih =>
    obtain ⟨e, he, l, hl, rfl⟩ := mem_leaves.mp hleaf
    obtain ⟨⟨key, hkey⟩, hvalue⟩ := values e he
    have hget : Fields.get? fields (.text key) = some e.2 := hkey ▸ apart.get?_of_mem he
    -- A leaf is an entry's own text, or a leaf of the map below the entry; `ih` speaks of the latter.
    rcases hvalue with ⟨t, htext⟩ | ⟨inner, hmap, hne⟩
    · rw [htext, Value.leaves_text, List.mem_singleton] at hl
      refine ⟨[key], t, by rw [hl, hkey]; rfl, ?_⟩
      rw [at?, hget, htext]
    · rw [hmap, Value.leaves_map hne] at hl
      obtain ⟨way, t, hl, hat⟩ := ih e he inner hmap hl
      refine ⟨key :: way, t, by rw [hl, hkey]; rfl, ?_⟩
      rw [at?_cons_of_map (hget.trans (congrArg some hmap)) (ne_nil_of_at? hat), hat]

/-- A text stands at the end of a way exactly if it is a leaf there. Lookups and leaves
are the two views of a tree that the theorem on variables connects. -/
theorem at?_eq_some_iff (h : fields.Grown) {way : List Text} {t : Text} :
    fields.at? way = some (.text t) ↔ (keysOf way, .text t) ∈ leaves fields := by
  constructor
  · exact mem_leaves_of_at?
  · intro hleaf
    obtain ⟨way', t', heq, hat⟩ := h.at?_of_mem_leaves hleaf
    obtain ⟨hway, ht⟩ := Prod.mk.inj heq
    rw [keysOf_injective hway, ht, hat]

/-- A tree that is not empty has a text somewhere, by induction on how it has grown. -/
theorem exists_at? (h : fields.Grown) (hne : fields ≠ []) : ∃ way t, fields.at? way = some (.text t) := by
  have hleaves := Value.leaves_ne_nil (.map fields)
  rw [Value.leaves_map hne] at hleaves
  obtain ⟨leaf, hleaf⟩ := List.exists_mem_of_ne_nil _ hleaves
  obtain ⟨way, t, -, hat⟩ := h.at?_of_mem_leaves hleaf
  exact ⟨way, t, hat⟩

/-- A key stands in a grown tree exactly if some way begins with it. -/
theorem mem_keys_iff (h : fields.Grown) :
    .text key ∈ fields.map Prod.fst ↔ ∃ way t, fields.at? (key :: way) = some (.text t) := by
  constructor
  · intro hmem
    obtain ⟨e, he, hkey⟩ := List.mem_map.mp hmem
    have hget : Fields.get? fields (.text key) = some e.2 := hkey ▸ h.apart.get?_of_mem he
    rcases h.value he with ⟨t, htext⟩ | ⟨inner, hmap, hne, hinner⟩
    · exact ⟨[], t, by rw [at?_singleton, hget, htext]⟩
    · obtain ⟨way, t, hat⟩ := hinner.exists_at? hne
      rw [hmap] at hget
      exact ⟨way, t, by rw [at?_cons_of_map hget (ne_nil_of_at? hat), hat]⟩
  · rintro ⟨way, t, hat⟩
    -- A way through a key reads that key, so the key cannot be missing.
    refine Classical.byContradiction fun hnot => ?_
    have hnone := (get?_eq_none_iff fields key).mpr hnot
    rcases exists_get?_of_at? hat with ⟨-, hget⟩ | ⟨inner, hget, -⟩
    · cases hnone.symm.trans hget
    · cases hnone.symm.trans hget

/-- Where one tree has texts the other has them too, so it has the keys that lead
there. -/
theorem keys_subset {others : Fields} (h : fields.Grown) (hothers : others.Grown)
    (hagree : ∀ way t, fields.at? way = some (.text t) → others.at? way = some (.text t)) :
    fields.map Prod.fst ⊆ others.map Prod.fst := by
  intro k hk
  obtain ⟨e, he, rfl⟩ := List.mem_map.mp hk
  obtain ⟨key, hkey⟩ := h.name he
  rw [hkey] at hk ⊢
  obtain ⟨way, t, hat⟩ := h.mem_keys_iff.mp hk
  exact hothers.mem_keys_iff.mpr ⟨way, t, hagree _ t hat⟩

end Grown

/-- Two maps agree within the first if each of its entries is found in the second. -/
theorem eqvWithin_of_forall {fs gs : Fields}
    (h : ∀ e ∈ fs, ∃ w, get? gs e.1 = some w ∧ e.2.eqv w = true) : Value.eqvWithin fs gs = true := by
  induction fs with
  | nil => rw [Value.eqvWithin]
  | cons e rest ih =>
    obtain ⟨⟨w, hget, heqv⟩, hrest⟩ := List.forall_mem_cons.mp h
    rw [Value.eqvWithin, hget, ih hrest]
    simpa using heqv

/-- Trees in which the same texts stand at the ends of the same ways are equal. Equality
of maps does not ask for the order of the keys, so trees that were written in different
orders are compared by their leaves alone. -/
theorem Grown.eqv {fields others : Fields} (h : fields.Grown) (hothers : others.Grown)
    (hagree : ∀ way t, fields.at? way = some (.text t) ↔ others.at? way = some (.text t)) :
    (Value.map fields).eqv (.map others) = true := by
  induction h generalizing others with
  | @intro fields apart values inside ih =>
    have h : fields.Grown := .intro apart values inside
    -- each key leads to some text, so the trees have the same keys
    have hkeys : (fields.map Prod.fst).Perm (others.map Prod.fst) := by
      refine (List.perm_ext_iff_of_nodup apart.distinct hothers.apart.distinct).mpr fun k => ⟨?_, ?_⟩
      · exact fun hk => h.keys_subset hothers (fun way t => (hagree way t).mp) hk
      · exact fun hk => hothers.keys_subset h (fun way t => (hagree way t).mpr) hk
    have hlength : fields.length = others.length := by simpa using hkeys.length_eq
    rw [Value.eqv, hlength, beq_self_eq_true, Bool.true_and]
    refine eqvWithin_of_forall fun e he => ?_
    obtain ⟨⟨key, hkey⟩, hvalue⟩ := values e he
    have hget : get? fields (.text key) = some e.2 := hkey ▸ apart.get?_of_mem he
    rw [hkey]
    rcases hvalue with ⟨t, htext⟩ | ⟨inner, hmap, hne⟩
    · -- A text stands at the key in both trees, and it is the same.
      have hat : others.at? [key] = some (.text t) := by
        rw [← hagree, at?_singleton, hget, htext]
      rw [at?_singleton] at hat
      exact ⟨_, hat, by rw [htext, Value.eqv_text]⟩
    · rw [hmap] at hget
      obtain ⟨way, t, hat⟩ := (inside e he inner hmap).exists_at? hne
      have hother : others.at? (key :: way) = some (.text t) := by
        rw [← hagree, at?_cons_of_map hget (ne_nil_of_at? hat), hat]
      rcases exists_get?_of_at? hother with ⟨rfl, -⟩ | ⟨inner', hget', -⟩
      · exact absurd rfl (ne_nil_of_at? hat)
      refine ⟨_, hget', ?_⟩
      rcases hothers.value (mem_of_get? hget') with ⟨t', htext'⟩ | ⟨_, heq, -, hgrown⟩
      · cases htext'
      obtain rfl := Value.map.inj heq
      rw [hmap]
      -- Sections agree as the trees do, with the key put in front of each way.
      refine ih e he inner hmap hgrown fun way t => ?_
      by_cases hway : way = []
      · rw [hway, at?_nil, at?_nil]
      · rw [← at?_cons_of_map hget hway, ← at?_cons_of_map hget' hway]
        exact hagree (key :: way) t

end Fields

namespace Layer

open Cluster (fieldsAt)
open Config (Sectioned)
open Fields (leaves keysOf)

/-! ## One variable -/

/-- Neither of two ways goes through the end of the other. -/
def Parted (keys keys' : List Scalar) : Prop := ¬keys <+: keys' ∧ ¬keys' <+: keys

theorem parted_cons (key : Scalar) (keys keys' : List Scalar) :
    Parted (key :: keys) (key :: keys') ↔ Parted keys keys' := by
  simp [Parted, List.cons_prefix_cons]

theorem leaves_set_of_notMem {layer : Fields} {key : Text} (h : .text key ∉ layer.map Prod.fst) (v : Value) :
    leaves (Fields.set layer (.text key) v) = leaves layer ++ v.leavesUnder (.text key) := by
  rw [Fields.set_of_notMem h, Fields.leaves_append, Fields.leaves_cons, leaves, List.append_nil]

/-- Setting a key that is there exchanges its leaves and leaves the others. The others are
the same for every value, as the update of a section compares two of them. -/
theorem leaves_set_of_get? {layer : Fields} {key : Text} {old : Value}
    (h : Fields.get? layer (.text key) = some old) :
    ∃ others, (leaves layer).Perm (old.leavesUnder (.text key) ++ others)
      ∧ ∀ v, (leaves (Fields.set layer (.text key) v)).Perm (v.leavesUnder (.text key) ++ others) := by
  induction layer with
  | nil => cases h
  | cons e rest ih =>
    obtain ⟨k, w⟩ := e
    rw [Fields.get?_cons_text] at h
    -- Setting replaces the first entry of that key and leaves the others in place.
    by_cases hk : k = .text key
    · rw [if_pos hk] at h
      obtain rfl := Option.some.inj h
      subst hk
      refine ⟨leaves rest, by rw [Fields.leaves_cons], fun v => ?_⟩
      have hset : Fields.set ((.text key, w) :: rest) (.text key) v = (.text key, v) :: rest := by
        simp [Fields.set]
      rw [hset, Fields.leaves_cons]
    · rw [if_neg hk] at h
      obtain ⟨others, hold, hnew⟩ := ih h
      refine ⟨w.leavesUnder k ++ others, ?_, fun v => ?_⟩
      · rw [Fields.leaves_cons]
        exact (hold.append_left _).trans (List.perm_append_comm_assoc ..)
      · have hset : Fields.set ((k, w) :: rest) (.text key) v
            = (k, w) :: Fields.set rest (.text key) v := by simp [Fields.set, hk]
        rw [hset, Fields.leaves_cons]
        exact ((hnew v).append_left _).trans (List.perm_append_comm_assoc ..)

/-- What stands at a key has leaves, and the ways to them begin with the key. -/
theorem mem_leaves_of_get? {layer : Fields} {key : Text} {v : Value}
    (hget : Fields.get? layer (.text key) = some v) {leaf : List Scalar × Value}
    (hleaf : leaf ∈ v.leaves) : (.text key :: leaf.1, leaf.2) ∈ leaves layer :=
  Fields.mem_leaves.mpr ⟨_, Fields.mem_of_get? hget, leaf, hleaf, rfl⟩

/-- A section of a tree that has grown has grown, and is not empty if it is there. -/
theorem grown_of_get?_map {layer inner : Fields} {key : Text} (hgrown : layer.Grown)
    (hget : Fields.get? layer (.text key) = some (.map inner)) : inner ≠ [] ∧ inner.Grown := by
  rcases hgrown.value (Fields.mem_of_get? hget) with ⟨t, htext⟩ | ⟨_, heq, hne, hinner⟩
  · cases htext
  · obtain rfl := Value.map.inj heq
    exact ⟨hne, hinner⟩

/-- A tree in which a section gains a leaf gains that leaf, behind the key of the
section. -/
theorem leaves_set_section {layer inner' : Fields} {key : Text} {leaf : List Scalar × Value}
    (hgrown : layer.Grown) (hsectioned : Sectioned layer key) (hgrown' : inner'.Grown)
    (hperm : (leaves inner').Perm (leaf :: leaves (fieldsAt layer key))) :
    (Fields.set layer (.text key) (.map inner')).Grown
      ∧ (leaves (Fields.set layer (.text key) (.map inner'))).Perm
        ((.text key :: leaf.1, leaf.2) :: leaves layer) := by
  have hne' : inner' ≠ [] := by
    rintro rfl
    simp [leaves] at hperm
  have hunder : ((Value.map inner').leavesUnder (.text key)).Perm ((.text key :: leaf.1, leaf.2)
      :: (leaves (fieldsAt layer key)).map fun l => (.text key :: l.1, l.2)) := by
    rw [Value.leavesUnder, Value.leaves_map hne']
    exact hperm.map _
  refine ⟨hgrown.set (.inr ⟨inner', rfl, hne', hgrown'⟩), ?_⟩
  -- a section that was not there comes last, and one that was there is exchanged
  cases hget : Fields.get? layer (.text key) with
  | none =>
    have hempty : fieldsAt layer key = [] := by rw [fieldsAt, hget]
    rw [hempty] at hunder
    rw [leaves_set_of_notMem ((Fields.get?_eq_none_iff layer key).mp hget)]
    calc (leaves layer ++ _).Perm _ := hunder.append_left _
      List.Perm _ _ := List.perm_append_singleton ..
  | some old =>
    obtain ⟨inner, rfl⟩ := hsectioned old hget
    obtain ⟨hne, -⟩ := grown_of_get?_map hgrown hget
    rw [Fields.fieldsAt_of_map hget, ← Value.leaves_map hne] at hunder
    obtain ⟨others, hold, hnew⟩ := leaves_set_of_get? hget
    calc (leaves (Fields.set layer (.text key) (.map inner'))).Perm _ := hnew _
      List.Perm _ _ := hunder.append_right others
      List.Perm _ _ := hold.symm.cons _

/-- A section that no way ends in is grown, and its leaves keep apart from the ways that
go on through it. -/
theorem grown_fieldsAt {layer : Fields} {key : Text} {keys : List Scalar} (hgrown : layer.Grown)
    (hsectioned : Sectioned layer key)
    (hfree : ∀ leaf ∈ leaves layer, Parted leaf.1 (.text key :: keys)) :
    (fieldsAt layer key).Grown ∧ ∀ leaf ∈ leaves (fieldsAt layer key), Parted leaf.1 keys := by
  cases hget : Fields.get? layer (.text key) with
  | none =>
    have hempty : fieldsAt layer key = [] := by rw [fieldsAt, hget]
    rw [hempty]
    exact ⟨.nil, by simp [leaves]⟩
  | some old =>
    -- Nothing that the remaining ways end on stands here, so the old value is a section, and grown.
    obtain ⟨inner, rfl⟩ := hsectioned old hget
    obtain ⟨hne, hinner⟩ := grown_of_get?_map hgrown hget
    rw [Fields.fieldsAt_of_map hget]
    refine ⟨hinner, fun leaf hleaf => ?_⟩
    rw [← Value.leaves_map hne] at hleaf
    exact (parted_cons _ _ _).mp (hfree _ (mem_leaves_of_get? hget hleaf))

/-- Writing a text at a way that is apart from all others adds a leaf. Nothing is
overwritten, neither a text by a section nor a section by a text, which is what being
apart is for. -/
theorem leaves_writeAt {layer layer' : Fields} {text : Text} {way : List Text}
    (hwritten : writeAt layer text way = .ok layer') (hway : way ≠ []) (hgrown : layer.Grown)
    (hfree : ∀ leaf ∈ leaves layer, Parted leaf.1 (keysOf way)) :
    layer'.Grown ∧ (leaves layer').Perm ((keysOf way, .text text) :: leaves layer) := by
  induction way generalizing layer layer' with
  | nil => exact absurd rfl hway
  | cons key rest ih =>
    -- a way of one key sets a leaf; a longer one goes on in its section
    cases rest with
    | nil =>
      obtain rfl := Except.ok.inj hwritten
      have hnew : .text key ∉ layer.map Prod.fst := by
        rw [← Fields.get?_eq_none_iff, Option.eq_none_iff_forall_ne_some]
        intro v hget
        obtain ⟨leaf, hleaf⟩ := List.exists_mem_of_ne_nil _ v.leaves_ne_nil
        exact (hfree _ (mem_leaves_of_get? hget hleaf)).2 ⟨leaf.1, rfl⟩
      refine ⟨hgrown.set (.inl ⟨text, rfl⟩), ?_⟩
      rw [leaves_set_of_notMem hnew, Value.leavesUnder, Value.leaves_text]
      exact List.perm_append_singleton ..
    | cons next rest =>
      have hsectioned : Sectioned layer key := by
        refine Classical.byContradiction fun hnot => ?_
        obtain ⟨f, hf, -⟩ := breaks_writeAt hnot text next rest
        cases hwritten.symm.trans hf
      rw [writeAt_of_sectioned hsectioned] at hwritten
      obtain ⟨inner', hinner', heq⟩ := Fault.bind_eq_ok.mp hwritten
      obtain rfl := Except.ok.inj heq
      obtain ⟨hinner, hfree'⟩ := grown_fieldsAt hgrown hsectioned hfree
      obtain ⟨hgrown', hperm⟩ := ih hinner' (by simp) hinner hfree'
      exact leaves_set_section hgrown hsectioned hgrown' hperm

/-! ## All variables -/

/-- The variables of a mark, each with its way and its value. -/
def marked (env : Environment) (mark : Text) : List (List Text × Text) :=
  env.filterMap fun e =>
    if e.1.startsWith mark then some (namePath (e.1.drop mark.length), e.2) else none

/-- The ways in the order of the variables, without the values. -/
theorem ways_eq (env : Environment) (mark : Text) :
    ways env mark = (marked env mark).map Prod.fst := by
  rw [ways, marked, List.map_filterMap]
  congr 1
  funext e
  by_cases hmark : e.1.startsWith mark = true
  · rw [if_pos hmark, if_pos hmark, Option.map_some]
  · rw [if_neg hmark, if_neg hmark, Option.map_none]

/-- The leaf that a variable makes. -/
def leafOf (x : List Text × Text) : List Scalar × Value := (keysOf x.1, .text x.2)

/-- Variables whose ways are apart add a leaf each. The induction is on the environment;
what is kept is that the ways to come are apart from the leaves that are there. -/
theorem leaves_writeVariables {env : Environment} {mark : Text} {layer layer' : Fields}
    (hwritten : env.foldlM (writeVariable mark) layer = .ok layer') (hgrown : layer.Grown)
    (hfree : ∀ leaf ∈ leaves layer, ∀ x ∈ marked env mark, Parted leaf.1 (keysOf x.1))
    (hparted : (marked env mark).Pairwise fun x y => Parted (keysOf x.1) (keysOf y.1)) :
    layer'.Grown ∧ (leaves layer').Perm ((marked env mark).map leafOf ++ leaves layer) := by
  induction env generalizing layer with
  | nil =>
    obtain rfl := Except.ok.inj hwritten
    exact ⟨hgrown, .refl _⟩
  | cons e rest ih =>
    rw [List.foldlM_cons] at hwritten
    obtain ⟨next, hstep, hrest⟩ := Fault.bind_eq_ok.mp hwritten
    rw [writeVariable] at hstep
    -- a variable without the mark adds nothing
    by_cases hmark : e.1.startsWith mark = true
    · have hmarked : marked (e :: rest) mark
          = (namePath (e.1.drop mark.length), e.2) :: marked rest mark := by
        rw [marked, List.filterMap_cons, if_pos hmark]
        rfl
      rw [if_pos hmark] at hstep
      rw [hmarked] at hfree hparted ⊢
      rw [List.pairwise_cons] at hparted
      obtain ⟨hgrown', hperm⟩ := leaves_writeAt hstep (namePath_ne_nil _) hgrown
        fun leaf hleaf => hfree leaf hleaf _ List.mem_cons_self
      -- The new leaf is apart from the ways that are still to come, since they were from each other.
      have hfree' : ∀ leaf ∈ leaves next, ∀ x ∈ marked rest mark, Parted leaf.1 (keysOf x.1) := by
        intro leaf hleaf x hx
        rcases List.mem_cons.mp (hperm.mem_iff.mp hleaf) with rfl | hleaf
        · exact hparted.1 x hx
        · exact hfree leaf hleaf x (List.mem_cons_of_mem _ hx)
      obtain ⟨hgrown'', hperm'⟩ := ih hrest hgrown' hfree' hparted.2
      refine ⟨hgrown'', hperm'.trans ?_⟩
      calc ((marked rest mark).map leafOf ++ leaves next).Perm _ := hperm.append_left _
        List.Perm _ _ := List.perm_middle
    · have hmarked : marked (e :: rest) mark = marked rest mark := by
        rw [marked, List.filterMap_cons, if_neg hmark]
        rfl
      rw [if_neg hmark] at hstep
      obtain rfl := Except.ok.inj hstep
      rw [hmarked] at hfree hparted ⊢
      exact ih hrest hgrown hfree hparted

/-- Distinct ways none of which ends on another are apart. -/
theorem parted_of_free {ways : List (List Text)} (hdistinct : ways.Nodup)
    (hfree : ∀ way ∈ ways, ∀ other ∈ ways, ¬EndsOn way other) :
    ways.Pairwise fun way other => Parted (keysOf way) (keysOf other) := by
  have hkeys {way other : List Text} : keysOf way <+: keysOf other ↔ way <+: other :=
    List.prefix_map_iff_of_injective fun _ _ h => Scalar.text.inj h
  refine hdistinct.pairwise_of_forall_ne fun way hway other hother hne => ⟨?_, ?_⟩
  · rw [hkeys]
    exact fun hahead => hfree way hway other hother ⟨hahead, hne⟩
  · rw [hkeys]
    exact fun hahead => hfree other hother way hway ⟨hahead, hne.symm⟩

/-- What the variables of an environment make if their ways are apart. -/
theorem grown_of_parted (env : Environment) (mark : Text)
    (hparted : (ways env mark).Pairwise fun way other => Parted (keysOf way) (keysOf other)) :
    ∃ layer, ofEnvironment env mark = .ok layer ∧ layer.Grown
      ∧ (leaves layer).Perm ((marked env mark).map leafOf) := by
  have huncrossed : Uncrossed (ways env mark) := by
    refine hparted.imp fun {way other} hparted hends => hparted.1 ?_
    exact hends.1.map Scalar.text
  rcases ofEnvironment_cases env mark with ⟨-, layer, hlayer⟩ | ⟨hnot, -⟩
  · rw [ways_eq, List.pairwise_map] at hparted
    obtain ⟨hgrown, hperm⟩ := leaves_writeVariables hlayer .nil (by simp [leaves]) hparted
    exact ⟨layer, hlayer, hgrown, by simpa [leaves] using hperm⟩
  · exact absurd huncrossed hnot

/-- **The environment makes a tree.** If the variables of a mark have distinct ways, none
of which goes through the end of another, then they are all written: the value of each
stands at the end of its way, the tree has a leaf for each of them and no other, and in
any other order they make an equal tree. Each variable that is written adds one leaf and
keeps the tree grown; and a grown tree is known by its leaves. -/
theorem ofEnvironment_grows (env : Environment) (mark : Text) (hdistinct : (ways env mark).Nodup)
    (hfree : ∀ way ∈ ways env mark, ∀ other ∈ ways env mark, ¬EndsOn way other) :
    ∃ layer, ofEnvironment env mark = .ok layer
      ∧ (∀ x ∈ marked env mark, layer.at? x.1 = some (.text x.2))
      ∧ (leaves layer).Perm ((marked env mark).map leafOf)
      ∧ ∀ env', env.Perm env' → ∃ layer', ofEnvironment env' mark = .ok layer'
        ∧ (Value.map layer).eqv (.map layer') = true := by
  have hparted := parted_of_free hdistinct hfree
  obtain ⟨layer, hlayer, hgrown, hleaves⟩ := grown_of_parted env mark hparted
  refine ⟨layer, hlayer, fun x hx => ?_, hleaves, fun env' hperm => ?_⟩
  · exact hgrown.at?_eq_some_iff.mpr (hleaves.mem_iff.mpr (List.mem_map_of_mem hx))
  · -- Neither condition on two ways prefers one, so they survive any reordering of the environment.
    have hsymm {way other : List Text} (h : Parted (keysOf way) (keysOf other)) :
        Parted (keysOf other) (keysOf way) := ⟨h.2, h.1⟩
    have hways : (ways env mark).Perm (ways env' mark) := hperm.filterMap _
    obtain ⟨layer', hlayer', hgrown', hleaves'⟩ :=
      grown_of_parted env' mark ((hways.pairwise_iff hsymm).mp hparted)
    have hsame : (leaves layer).Perm (leaves layer') :=
      hleaves.trans (((hperm.filterMap _).map leafOf).trans hleaves'.symm)
    refine ⟨layer', hlayer', hgrown.eqv hgrown' fun way t => ?_⟩
    -- Both layers hold the same leaves, and a grown layer is determined by them.
    rw [hgrown.at?_eq_some_iff, hgrown'.at?_eq_some_iff, hsame.mem_iff]

/-- Variables of different depths that share a part of their ways, and one without the
mark. -/
def Branching.environment : Environment :=
  [("SVCSYNC_API__BASE_URL", "https://api"), ("HOME", "/root"), ("SVCSYNC_API__TLS__CA", "ca.pem"),
    ("SVCSYNC_OWNER__NAME", "cluster"), ("SVCSYNC_DEBUG", "")]

/-- Four variables, two of them below one section and one without any: each becomes a
leaf. -/
theorem ofEnvironment_grows_branching :
    (ways Branching.environment variableMark).Nodup
      ∧ (∀ way ∈ ways Branching.environment variableMark,
        ∀ other ∈ ways Branching.environment variableMark, ¬EndsOn way other)
      ∧ ∃ layer layer', ofEnvironment Branching.environment = .ok layer
        ∧ layer.at? ["api", "tls", "ca"] = some (.text "ca.pem")
        ∧ (leaves layer).Perm ((marked Branching.environment variableMark).map leafOf)
        ∧ ofEnvironment Branching.environment.reverse = .ok layer'
        ∧ (Value.map layer).eqv (.map layer') = true := by
  -- Evaluated once: the conditions below are decided on these ways, not on the environment again.
  have hways : ways Branching.environment variableMark
      = ([["api", "base_url"], ["api", "tls", "ca"], ["owner", "name"], ["debug"]] : List (List Text)) := by
    decide +kernel
  have hdistinct : (ways Branching.environment variableMark).Nodup := by
    rw [hways]
    decide +kernel
  have hfree : ∀ way ∈ ways Branching.environment variableMark,
      ∀ other ∈ ways Branching.environment variableMark, ¬EndsOn way other := by
    rw [hways]
    unfold EndsOn
    decide +kernel
  have hmem : ((["api", "tls", "ca"], "ca.pem") : List Text × Text)
      ∈ marked Branching.environment variableMark := by
    decide +kernel
  obtain ⟨layer, hlayer, hvalues, hleaves, horder⟩ :=
    ofEnvironment_grows Branching.environment variableMark hdistinct hfree
  obtain ⟨layer', hlayer', heqv⟩ := horder _ (List.reverse_perm _).symm
  exact ⟨hdistinct, hfree, layer, layer', hlayer, hvalues _ hmem, hleaves, hlayer', heqv⟩

end Layer

end Keeper
