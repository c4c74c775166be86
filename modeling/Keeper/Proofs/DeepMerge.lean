import Keeper.Proofs.Layers

/-!
# Keeper — layers merged way by way

What stands in two merged layers is settled at the end of each way from key to key, however deep the
layers are.

* **`Value.at?`** — what stands at the end of a way.
* **`Fields.DeepApart`** — a map that has each key once, and so have the maps in it.
* **`Layer.at?_mergeValue`** — what stands in the higher layer, merged with what stands below.
* **`Layer.at?_mergeValue_of_none`** — where the higher layer has nothing, what stands below.
* **`Layer.merge_self`**, **`Layer.merge_again`** — what has been laid over is not changed by laying it
  over once more.
* **`Layer.merge_settles`** — all of it, for two layers.
-/

namespace Keeper

namespace Value

/-- What stands in a value at the end of a way from key to key. -/
def at? : Value → List Scalar → Option Value
  | v, [] => some v
  | .map fields, key :: way => (Fields.get? fields key).bind fun v => v.at? way
  | _, _ :: _ => none

@[simp] theorem at?_nil (v : Value) : v.at? [] = some v := by
  cases v <;> rfl

theorem at?_map_cons (fields : Fields) (key : Scalar) (way : List Scalar) :
    (Value.map fields).at? (key :: way) = (Fields.get? fields key).bind fun v => v.at? way :=
  rfl

/-- Only a map has something at a key. -/
theorem at?_cons_of_not_map {v : Value} (h : ∀ fields, v ≠ .map fields) (key : Scalar)
    (way : List Scalar) : v.at? (key :: way) = none := by
  cases v with
  | map fields => exact absurd rfl (h fields)
  | _ => rfl

/-- Ways can be put one behind the other. -/
theorem at?_append (v : Value) (way rest : List Scalar) :
    v.at? (way ++ rest) = (v.at? way).bind fun w => w.at? rest := by
  induction way generalizing v with
  | nil => simp
  | cons key way ih =>
    by_cases hmap : ∃ fields, v = .map fields
    · obtain ⟨fields, rfl⟩ := hmap
      rw [List.cons_append, at?_map_cons, at?_map_cons, Option.bind_assoc]
      exact congrArg _ (funext fun w => ih w)
    · have hnot : ∀ fields, v ≠ .map fields := fun fields hv => hmap ⟨fields, hv⟩
      rw [List.cons_append, at?_cons_of_not_map hnot, at?_cons_of_not_map hnot]
      rfl

end Value

namespace Fields

/-- Each key is there once, and so it is in every map inside, however deep. -/
inductive DeepApart : Fields → Prop where
  | intro {fields : Fields} (apart : fields.Apart)
    (inside : ∀ e ∈ fields, ∀ inner, e.2 = .map inner → DeepApart inner) : DeepApart fields

theorem DeepApart.apart {fields : Fields} (h : fields.DeepApart) : fields.Apart := by
  cases h with
  | intro apart _ => exact apart

theorem DeepApart.inside {fields inner : Fields} (h : fields.DeepApart) {key : Scalar}
    (hget : get? fields key = some (.map inner)) : inner.DeepApart := by
  cases h with
  | intro _ inside =>
    obtain ⟨k, hmem, -⟩ := exists_of_get? hget
    exact inside (k, .map inner) hmem inner rfl

/-- To write what stands at a key already changes nothing. The second of two merges of one
layer comes down to such writes, one for each key of the layer. -/
theorem set_of_get?_key {fields : Fields} {key : Scalar} {v : Value} (h : get? fields key = some v) :
    fields.set key v = fields := by
  induction fields with
  | nil => cases h
  | cons e rest ih =>
    obtain ⟨k, w⟩ := e
    rw [get?] at h
    -- the first entry under the key is the one that is found and the one that is replaced
    by_cases hsame : k.same key = true
    · rw [if_pos hsame] at h
      have hw : w = v := Option.some.inj h
      simp [set, hsame, hw]
    · rw [if_neg hsame] at h
      simp [set, hsame, ih h]

end Fields

namespace Layer

/-! ## One key -/

/-- What stands at a key of merged layers. The higher layer decides where it has the key,
and a map there is merged with what the lower layer has; every statement about ways below
is this, one key at a time. -/
theorem get?_merge_key {ext : Fields} (h : ext.Apart) (base : Fields) (key : Scalar) :
    Fields.get? (merge base ext) key
      = match Fields.get? ext key with
        | some v => some (mergeValue (Fields.get? base key) v)
        | none => Fields.get? base key := by
  induction ext generalizing base with
  | nil => rfl
  | cons e rest ih =>
    obtain ⟨k, v⟩ := e
    obtain ⟨hnew, hrest⟩ := List.pairwise_cons.mp h
    rw [merge, ih hrest, Fields.get?_set_key, Fields.get?]
    by_cases hk : k.same key = true
    · -- nothing behind is of the same key
      have hnone : Fields.get? rest key = none := by
        rw [Fields.get?_eq_none_iff_same]
        intro e he hsame
        have hapart : k.same e.1 = false := hnew e.1 (List.mem_map_of_mem he)
        have hsame' : k.same e.1 = true := Scalar.same_trans hk (Scalar.same_comm e.1 key ▸ hsame)
        rw [hapart] at hsame'
        cases hsame'
      rw [hnone, if_pos hk, if_pos hk, Fields.get?_congr hk]
    · rw [if_neg hk, if_neg hk]

/-- Two maps are merged key by key; any other pair is settled by the upper value alone. -/
theorem mergeValue_map_map (below inner : Fields) :
    mergeValue (some (.map below)) (.map inner) = .map (merge below inner) := by
  rw [mergeValue]

theorem mergeValue_map_of_not_map {old : Option Value} (h : ∀ below, old ≠ some (.map below))
    (inner : Fields) : mergeValue old (.map inner) = .map inner :=
  mergeValue_eq fun _ below _ => h below

theorem mergeValue_of_not_map {v : Value} (h : ∀ fields, v ≠ .map fields) (old : Option Value) :
    mergeValue old v = v :=
  mergeValue_eq fun inner _ hv => absurd hv (h inner)

/-! ## One way

Both inductions are on the way. Where a map is merged with something else than a map, nothing of the
lower layer is left below it. -/

/-- A map in which every map has each key once, or anything else. -/
def Clean (v : Value) : Prop := ∀ fields : Fields, v = .map fields → fields.DeepApart

theorem Clean.of_get? {fields : Fields} (h : fields.DeepApart) {key : Scalar} {v : Value}
    (hget : Fields.get? fields key = some v) : Clean v := by
  rintro inner rfl
  exact h.inside hget

/-- What the higher layer has at the end of a way is merged with what the lower one has
there. The induction is on the way; each step goes through a map of the higher layer, so
the lower layer is followed along with it. -/
theorem at?_mergeValue {v w : Value} (hv : Clean v) (old : Option Value) {way : List Scalar}
    (h : v.at? way = some w) :
    (mergeValue old v).at? way = some (mergeValue (old.bind fun o => o.at? way) w) := by
  -- along the way, as long as there are maps on both sides; where the lower one has none, the upper part
  -- stands as it is
  induction way generalizing v old with
  | nil =>
    have hw : v = w := by simpa using h
    simp [hw]
  | cons key way ih =>
    by_cases hmap : ∃ fields, v = .map fields
    · obtain ⟨fields, rfl⟩ := hmap
      have hfields : Fields.DeepApart fields := hv fields rfl
      rw [Value.at?_map_cons] at h
      obtain ⟨u, hget, hu⟩ := Option.bind_eq_some_iff.mp h
      by_cases hold : ∃ below, old = some (.map below)
      · obtain ⟨below, rfl⟩ := hold
        have hmerged : Fields.get? (merge below fields) key
            = some (mergeValue (Fields.get? below key) u) := by
          rw [get?_merge_key hfields.apart, hget]
        rw [mergeValue_map_map, Value.at?_map_cons, hmerged, Option.bind_some,
          ih (.of_get? hfields hget) (Fields.get? below key) hu]
        rfl
      · have hnot : ∀ below, old ≠ some (.map below) := fun below ho => hold ⟨below, ho⟩
        have hnothing : (old.bind fun o => o.at? (key :: way)) = none := by
          cases old with
          | none => rfl
          | some o => exact Value.at?_cons_of_not_map (fun below ho => hnot below (congrArg some ho)) key way
        rw [mergeValue_map_of_not_map hnot, hnothing, Value.at?_map_cons, hget, Option.bind_some, hu]
        rw [mergeValue_eq fun _ _ _ => Option.some_ne_none _ |>.symm]
    · rw [Value.at?_cons_of_not_map (fun fields hf => hmap ⟨fields, hf⟩)] at h
      cases h

/-- Where the higher layer has nothing, and no value that is no map on the way, stands
what the lower layer has. -/
theorem at?_mergeValue_of_none {v : Value} (hv : Clean v) (old : Option Value) {way : List Scalar}
    (h : v.at? way = none)
    (hopen : ∀ front rest w, way = front ++ rest → v.at? front = some w → ∃ fields, w = .map fields) :
    (mergeValue old v).at? way = old.bind fun o => o.at? way := by
  induction way generalizing v old with
  | nil => simp at h
  | cons key way ih =>
    obtain ⟨fields, rfl⟩ : ∃ fields, v = .map fields := hopen [] (key :: way) v rfl (by simp)
    have hfields : Fields.DeepApart fields := hv fields rfl
    rw [Value.at?_map_cons] at h
    -- with a map below, the way goes on in the merged map; otherwise the upper value hides what is
    -- below, and that has nothing at the end of this way either
    by_cases hold : ∃ below, old = some (.map below)
    · obtain ⟨below, rfl⟩ := hold
      rw [mergeValue_map_map, Option.bind_some, Value.at?_map_cons, Value.at?_map_cons,
        get?_merge_key hfields.apart]
      cases hget : Fields.get? fields key with
      | none => rfl
      | some u =>
        rw [hget, Option.bind_some] at h
        refine ih (.of_get? hfields hget) (Fields.get? below key) h fun front rest w hway hfront => ?_
        refine hopen (key :: front) rest w (by rw [hway, List.cons_append]) ?_
        rw [Value.at?_map_cons, hget, Option.bind_some, hfront]
    · have hnot : ∀ below, old ≠ some (.map below) := fun below ho => hold ⟨below, ho⟩
      rw [mergeValue_map_of_not_map hnot, Value.at?_map_cons, h]
      cases old with
      | none => rfl
      | some o =>
        exact (Value.at?_cons_of_not_map (fun below ho => hnot below (congrArg some ho)) key way).symm

/-! ## Once more -/

/-- A layer changes nothing where all of it stands already. -/
theorem merge_of_stands {base ext : Fields}
    (h : ∀ e ∈ ext, ∃ w, Fields.get? base e.1 = some w ∧ mergeValue (some w) e.2 = w) :
    merge base ext = base := by
  induction ext with
  | nil => rfl
  | cons e rest ih =>
    obtain ⟨k, v⟩ := e
    obtain ⟨⟨w, hget, hw⟩, hrest⟩ := List.forall_mem_cons.mp h
    rw [merge, hget, hw, Fields.set_of_get?_key hget]
    exact ih hrest

/-- To merge a layer over itself changes nothing. This is where keys that are there twice
would tell. -/
theorem merge_self {ext : Fields} (h : ext.DeepApart) : merge ext ext = ext := by
  induction h with
  | @intro fields apart inside ih =>
    refine merge_of_stands fun e he => ⟨e.2, apart.get?_of_mem he, ?_⟩
    by_cases hmap : ∃ inner, e.2 = .map inner
    · obtain ⟨inner, hinner⟩ := hmap
      rw [hinner, mergeValue_map_map, ih e he inner hinner]
    · exact mergeValue_of_not_map (fun inner hinner => hmap ⟨inner, hinner⟩) _

/-- To lay a layer over once more changes nothing: what it has to say it has said, key by
key. Under a key with maps on both sides the same holds of the inner maps, by induction;
elsewhere the second write finds its own value. -/
theorem merge_again {ext : Fields} (h : ext.DeepApart) (base : Fields) :
    merge (merge base ext) ext = merge base ext := by
  induction h generalizing base with
  | @intro fields apart inside ih =>
    refine merge_of_stands fun e he => ?_
    have hget : Fields.get? fields e.1 = some e.2 := apart.get?_of_mem he
    refine ⟨mergeValue (Fields.get? base e.1) e.2, by rw [get?_merge_key apart, hget], ?_⟩
    -- an upper value that is no map stands in the merged layer as it is; for a map the question is the
    -- same one level down, or that of a layer over itself
    by_cases hmap : ∃ inner, e.2 = .map inner
    · obtain ⟨inner, hinner⟩ := hmap
      rw [hinner]
      by_cases hold : ∃ below, Fields.get? base e.1 = some (.map below)
      · obtain ⟨below, hbelow⟩ := hold
        rw [hbelow, mergeValue_map_map, mergeValue_map_map, ih e he inner hinner]
      · have hnot : ∀ below, Fields.get? base e.1 ≠ some (.map below) :=
          fun below hbelow => hold ⟨below, hbelow⟩
        rw [mergeValue_map_of_not_map hnot, mergeValue_map_map, merge_self (inside e he inner hinner)]
    · have hnot : ∀ inner, e.2 ≠ .map inner := fun inner hinner => hmap ⟨inner, hinner⟩
      rw [mergeValue_of_not_map hnot, mergeValue_of_not_map hnot]

/-! ## Two layers -/

/-- **Layers are merged way by way.** What is no map in the higher layer stands, and
nothing stands below it; a map of the higher layer stands as it is where the lower one has
no map, and is merged with it where it has one; on a way that the higher layer leaves
open, the lower one is not touched. To lay the higher layer over once more changes
nothing. All but the last part follow from `get?_merge_key` by induction on the way. -/
theorem merge_settles {ext : Fields} (hext : ext.DeepApart) (base : Fields) :
    (∀ way v, (Value.map ext).at? way = some v → (∀ fields, v ≠ .map fields) →
      (Value.map (merge base ext)).at? way = some v)
    ∧ (∀ way rest v, (Value.map ext).at? way = some v → (∀ fields, v ≠ .map fields) → rest ≠ [] →
      (Value.map (merge base ext)).at? (way ++ rest) = none)
    ∧ (∀ way fields, (Value.map ext).at? way = some (.map fields) →
      (∀ below, (Value.map base).at? way ≠ some (.map below)) →
      (Value.map (merge base ext)).at? way = some (.map fields))
    ∧ (∀ way fields below, (Value.map ext).at? way = some (.map fields) →
      (Value.map base).at? way = some (.map below) →
      (Value.map (merge base ext)).at? way = some (.map (merge below fields)))
    ∧ (∀ way, (Value.map ext).at? way = none →
      (∀ front rest v, way = front ++ rest → (Value.map ext).at? front = some v →
        ∃ fields, v = .map fields) →
      (Value.map (merge base ext)).at? way = (Value.map base).at? way)
    ∧ merge (merge base ext) ext = merge base ext := by
  have hclean : Clean (.map ext) := by
    rintro fields ⟨⟩
    exact hext
  have hboth {way : List Scalar} {v : Value} (hway : (Value.map ext).at? way = some v) :
      (Value.map (merge base ext)).at? way = some (mergeValue ((Value.map base).at? way) v) := by
    rw [← mergeValue_map_map]
    exact at?_mergeValue hclean (some (.map base)) hway
  have hleaf {way : List Scalar} {v : Value} (hway : (Value.map ext).at? way = some v)
      (hv : ∀ fields, v ≠ .map fields) : (Value.map (merge base ext)).at? way = some v := by
    rw [hboth hway, mergeValue_of_not_map hv]
  -- the first two parts are about leaves of the upper layer, the next two about its maps, and the last
  -- one about ways that it leaves open
  refine ⟨fun way v hway hv => hleaf hway hv, fun way rest v hway hv hrest => ?_,
    fun way fields hway hbase => ?_, fun way fields below hway hbase => ?_,
    fun way hway hopen => ?_, merge_again hext base⟩
  · obtain ⟨key, rest, rfl⟩ := List.exists_cons_of_ne_nil hrest
    rw [Value.at?_append, hleaf hway hv, Option.bind_some, Value.at?_cons_of_not_map hv]
  · rw [hboth hway, mergeValue_map_of_not_map hbase]
  · rw [hboth hway, hbase, mergeValue_map_map]
  · rw [← mergeValue_map_map]
    exact at?_mergeValue_of_none hclean (some (.map base)) hway hopen

/-! ## Maps and texts in conflict -/

namespace Conflicting

/-- A layer with a map and a text where the other has a text and a map. -/
def lower : Fields :=
  [("a", .map [("x", .int 1), ("y", .int 2)]), ("b", .text "t"), ("c", .map [("z", .null)])]

def upper : Fields := [("b", .map [("u", .map [])]), ("a", .map [("y", .map [("v", .int 3)])]), ("c", .int 4)]

/-- The example's upper layer has its keys once. -/
theorem deepApart_upper : upper.DeepApart := by
  have hempty : Fields.DeepApart [] := .intro (by decide) (by simp)
  have hsingle (key : Text) (v : Value) (hv : ∀ inner : Fields, v = .map inner → inner.DeepApart) :
      Fields.DeepApart [(.text key, v)] := by
    refine .intro (List.pairwise_singleton _ _) fun e he inner hinner => ?_
    rw [List.mem_singleton.mp he] at hinner
    exact hv inner hinner
  have hu : Fields.DeepApart [("u", .map [])] := hsingle "u" _ (by rintro _ ⟨⟩; exact hempty)
  have hv : Fields.DeepApart [("v", .int 3)] := hsingle "v" _ (by rintro _ ⟨⟩)
  have hy : Fields.DeepApart [("y", .map [("v", .int 3)])] := hsingle "y" _ (by rintro _ ⟨⟩; exact hv)
  -- the maps inside are looked at one by one
  refine .intro (by decide) fun e he inner hinner => ?_
  simp only [upper, List.mem_cons, List.not_mem_nil, or_false] at he
  obtain rfl | rfl | rfl := he
  · obtain rfl := Value.map.inj hinner
    exact hu
  · obtain rfl := Value.map.inj hinner
    exact hy
  · cases hinner

end Conflicting

open Conflicting in
/-- One way of each kind. -/
theorem merge_settles_conflicting :
    upper.DeepApart
      ∧ (Value.map (merge lower upper)).at? ["a", "y", "v"] = some (.int 3)
      ∧ (Value.map (merge lower upper)).at? ["c", "z"] = none
      ∧ (Value.map (merge lower upper)).at? ["b"] = some (.map [("u", .map [])])
      ∧ (Value.map (merge lower upper)).at? ["a", "x"] = some (.int 1)
      ∧ merge (merge lower upper) upper = merge lower upper := by
  obtain ⟨hleaf, hbelow, hmap, -, hopen, hagain⟩ := merge_settles deepApart_upper lower
  have htext : (Value.map lower).at? ["b"] = some (.text "t") := by decide
  have hinside : (Value.map upper).at? ["a"] = some (.map [("y", .map [("v", .int 3)])]) := by decide
  have hnothing : (Value.map upper).at? ["a", "x"] = none := by decide
  refine ⟨deepApart_upper, hleaf ["a", "y", "v"] (.int 3) (by decide) (by simp),
    hbelow ["c"] ["z"] (.int 4) (by decide) (by simp) (by simp),
    hmap ["b"] [("u", .map [])] (by decide) (by simp [htext]), ?_, hagain⟩
  refine (hopen ["a", "x"] hnothing fun front rest v hway hfront => ?_).trans (by decide)
  rcases front with _ | ⟨a, _ | ⟨x, front⟩⟩
  · exact ⟨upper, by simpa using hfront.symm⟩
  · obtain ⟨rfl, -⟩ := List.cons.inj hway
    exact ⟨_, Option.some.inj (hfront.symm.trans hinside)⟩
  · -- the whole way is taken, and there is nothing at its end
    obtain ⟨ha, hrest⟩ := List.cons.inj hway
    obtain ⟨hx, hrest⟩ := List.cons.inj hrest
    obtain ⟨hnil, -⟩ := List.append_eq_nil_iff.mp hrest.symm
    rw [← ha, ← hx, hnil, hnothing] at hfront
    cases hfront

end Layer

end Keeper
