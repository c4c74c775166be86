import Keeper.Cluster.Store
import Keeper.Command.Options
import Keeper.Config.Coercion
import Keeper.Config.Load
import Keeper.Proofs.Carriage
import Keeper.Proofs.Mappings

/-!
# Keeper — settings in layers

What stands at a setting of a layer, seen through everything that is done to layers.

* **`Fields.setting?`** — what stands at a key of a section.
* **`Fields.get?_mapKeyed`** — values that are changed each for itself.
* **`Layer.given?`**, **`Layer.setting?_foldl_write`** — a layer made of settings, one by one.
* **`Layer.get?_merge`**, **`Layer.setting?_merge`** — one layer laid over another;
  **`Layer.setting?_merge_written`** — settings laid over a layer.
* **`Layer.resolved`**, **`Layer.setting?_resolveEntries`** — references resolved.
* **`Layer.setting?_coerceEntries`** — settings converted.
-/

namespace Keeper

open Command (Options)
open Cluster (fieldsAt)

namespace Fields

/-- What stands at a key of a section; a section that is no map has nothing. -/
def setting? (layer : Fields) (sect key : Text) : Option Value := get? (fieldsAt layer sect) (.text key)

theorem fieldsAt_of_map {layer settings : Fields} {sect : Text}
    (h : get? layer (.text sect) = some (.map settings)) : fieldsAt layer sect = settings := by
  rw [fieldsAt, h]

/-- A setting is there exactly if its section is a map with the key. -/
theorem setting?_eq_some_iff {layer : Fields} {sect key : Text} {v : Value} :
    layer.setting? sect key = some v
      ↔ ∃ settings, get? layer (.text sect) = some (.map settings)
        ∧ get? settings (.text key) = some v := by
  unfold setting? fieldsAt
  split
  next settings hmap => simp [hmap]
  next hnot => simpa [get?] using fun settings hmap _ => hnot settings hmap

/-- Anything else at a section counts as an empty one. -/
theorem fieldsAt_of_not_map {layer : Fields} {sect : Text}
    (h : ∀ settings, get? layer (.text sect) ≠ some (.map settings)) : fieldsAt layer sect = [] := by
  unfold fieldsAt
  split
  next settings hmap => exact absurd hmap (h settings)
  next => rfl

/-- Every value changed, by its key. -/
def mapKeyed (change : Scalar → Value → Value) (fields : Fields) : Fields :=
  fields.map fun e => (e.1, change e.1 e.2)

/-- What is found after every value has been changed is the change of what was found
before. -/
theorem get?_mapKeyed (change : Scalar → Value → Value) (fields : Fields) (t : Text) :
    get? (fields.mapKeyed change) (.text t) = (get? fields (.text t)).map (change (.text t)) := by
  induction fields with
  | nil => rfl
  | cons e rest ih =>
    obtain ⟨k, v⟩ := e
    rw [mapKeyed, List.map_cons, get?_cons_text, get?_cons_text]
    split
    next hk => rw [hk]; rfl
    next => exact ih

theorem Keyed.nil : Keyed [] := ⟨.nil, by simp⟩

theorem Keyed.fieldsAt {fields : Fields} (h : fields.Keyed) (sect : Text) :
    (Cluster.fieldsAt fields sect).Distinct := by
  unfold Cluster.fieldsAt
  split
  next settings hmap => exact h.sections _ (mem_of_get? hmap) settings rfl
  next => exact .nil

/-- A section that is set leaves a layer keyed. -/
theorem Keyed.set_map {fields settings : Fields} (h : fields.Keyed) (hsettings : settings.Distinct)
    (key : Scalar) : (fields.set key (.map settings)).Keyed where
  distinct := h.distinct.set key _
  sections e he :=
    (forall_mem_set (fun _ => True) (fun v => ∀ inner : Fields, v = .map inner → inner.Distinct)
      (fun e he => ⟨trivial, h.sections e he⟩) trivial
      (fun _ hinner => Value.map.inj hinner ▸ hsettings) e he).2

end Fields

namespace Layer

/-! ## Settings one by one -/

/-- The first value that is given for a setting. -/
def given? (settings : List (Text × Text × Value)) (sect key : Text) : Option Value :=
  (settings.find? fun s => s.1 = sect ∧ s.2.1 = key).map (·.2.2)

/-- The sections and keys of settings. -/
def places (settings : List (Text × Text × Value)) : List (Text × Text) :=
  settings.map fun s => (s.1, s.2.1)

/-- To write a setting is to set its key in its section, whether the section was there or
not. -/
theorem write_eq (layer : Fields) (sect key : Text) (v : Value) :
    Options.write layer (sect, key, v)
      = Fields.set layer (.text sect) (.map (Fields.set (fieldsAt layer sect) (.text key) v)) := rfl

/-- Writing a setting changes no other. -/
theorem setting?_write (layer : Fields) (sect key sect' key' : Text) (v : Value) :
    (Options.write layer (sect, key, v)).setting? sect' key'
      = if sect = sect' ∧ key = key' then some v else layer.setting? sect' key' := by
  rw [write_eq, Fields.setting?, fieldsAt, Fields.get?_set]
  by_cases hsect : sect = sect'
  · subst hsect
    simp [Fields.get?_set, Fields.setting?]
  · simp [hsect, Fields.setting?, fieldsAt]

theorem mem_places {settings : List (Text × Text × Value)} {sect key : Text} {v : Value}
    (h : (sect, key, v) ∈ settings) : (sect, key) ∈ places settings :=
  List.mem_map.mpr ⟨_, h, rfl⟩

theorem mem_of_given? {settings : List (Text × Text × Value)} {sect key : Text} {v : Value}
    (h : given? settings sect key = some v) : (sect, key, v) ∈ settings := by
  obtain ⟨⟨sect', key', v'⟩, hfind, rfl⟩ := Option.map_eq_some_iff.mp h
  have hmem := List.mem_of_find?_eq_some hfind
  obtain ⟨rfl, rfl⟩ : sect' = sect ∧ key' = key := by simpa using List.find?_some hfind
  exact hmem

theorem keyed_write {layer : Fields} (h : layer.Keyed) (setting : Text × Text × Value) :
    (Options.write layer setting).Keyed := by
  obtain ⟨sect, key, v⟩ := setting
  exact h.set_map ((h.fieldsAt sect).set (.text key) v) (.text sect)

/-- A layer of settings has the first value that is given for each, if each is given once.
The options of a command are such a layer: each option writes one setting, and no two
write the same. -/
theorem setting?_foldl_write {settings : List (Text × Text × Value)}
    (honce : (places settings).Nodup) (layer : Fields) (sect key : Text) :
    (settings.foldl Options.write layer).setting? sect key
      = (given? settings sect key).or (layer.setting? sect key) := by
  induction settings generalizing layer with
  | nil => rfl
  | cons s rest ih =>
    obtain ⟨sect', key', v⟩ := s
    obtain ⟨hnew, hrest⟩ := List.nodup_cons.mp honce
    rw [List.foldl_cons, ih hrest, setting?_write]
    by_cases hhere : sect' = sect ∧ key' = key
    · -- nothing behind is given for the same setting
      obtain ⟨rfl, rfl⟩ := hhere
      have hnone : given? rest sect' key' = none :=
        Option.eq_none_iff_forall_ne_some.mpr fun v hv => hnew (mem_places (mem_of_given? hv))
      rw [hnone, Option.none_or, if_pos ⟨rfl, rfl⟩]
      simp [given?]
    · simp [given?, hhere]

/-- So do any number of settings, by induction on their list. -/
theorem keyed_foldl_write (settings : List (Text × Text × Value)) {layer : Fields} (h : layer.Keyed) :
    (settings.foldl Options.write layer).Keyed := by
  induction settings generalizing layer with
  | nil => exact h
  | cons s rest ih => exact ih (keyed_write h s)

/-- Where something stands in a layer of settings, it is a map of settings. -/
theorem eq_map_of_mem_foldl_write (settings : List (Text × Text × Value)) {layer : Fields}
    (h : ∀ e ∈ layer, ∃ inner, e.2 = .map inner) :
    ∀ e ∈ settings.foldl Options.write layer, ∃ inner, e.2 = .map inner := by
  induction settings generalizing layer with
  | nil => exact h
  | cons s rest ih =>
    obtain ⟨sect, key, v⟩ := s
    refine ih fun e he => ?_
    rw [write_eq] at he
    exact (Fields.forall_mem_set (fun _ => True) (fun v => ∃ inner, v = .map inner)
      (fun e he => ⟨trivial, h e he⟩) trivial ⟨_, rfl⟩ e he).2

/-! ## One layer over another -/

/-- What is not a map in both layers is taken from the higher one. -/
theorem mergeValue_eq {old : Option Value} {v : Value}
    (h : ∀ inner inner', v = .map inner → old ≠ some (.map inner')) : mergeValue old v = v := by
  cases v with
  | map inner =>
    unfold mergeValue
    split
    next base => exact absurd rfl (h inner base rfl)
    next => rfl
  | _ => rfl

/-- The merging of two layers at one key: what the upper one has there is merged into what
the lower one has. The keys of the upper layer have to be there once, since a later one
would be merged again. -/
theorem get?_merge {ext : Fields} (h : ext.Distinct) (base : Fields) (t : Text) :
    Fields.get? (merge base ext) (.text t)
      = match Fields.get? ext (.text t) with
        | some v => some (mergeValue (Fields.get? base (.text t)) v)
        | none => Fields.get? base (.text t) := by
  induction ext generalizing base with
  | nil => rfl
  | cons e rest ih =>
    obtain ⟨k, v⟩ := e
    obtain ⟨hnew, hrest⟩ := List.nodup_cons.mp h
    rw [merge, ih hrest, Fields.get?_cons_text, Fields.get?_set_key]
    by_cases hk : k = .text t
    · -- nothing behind stands at the same key
      subst hk
      rw [(Fields.get?_eq_none_iff rest t).mpr hnew]
      simp [Scalar.same_self]
    · simp [hk]

/-- A setting of two layers is that of the higher one, if its section there is a map; the
values in the sections must not both be maps themselves. -/
theorem setting?_merge {ext base : Fields} (hext : ext.Keyed) {sect key : Text}
    (hmap : ∀ v, Fields.get? ext (.text sect) = some v → ∃ settings, v = .map settings)
    (hflat : ∀ inner inner', ext.setting? sect key = some (.map inner) →
      base.setting? sect key ≠ some (.map inner')) :
    (merge base ext).setting? sect key = (ext.setting? sect key).or (base.setting? sect key) := by
  have hmerged := get?_merge hext.distinct base sect
  unfold Fields.setting? at hflat ⊢
  -- only a section of the upper layer that meets one below takes the second hypothesis
  cases hget : Fields.get? ext (.text sect) with
  | none =>
    rw [hget] at hmerged
    rw [fieldsAt, fieldsAt, fieldsAt, hget, hmerged]
    rfl
  | some v =>
    obtain ⟨settings, rfl⟩ := hmap v hget
    have hsettings := hext.fieldsAt sect
    rw [hget] at hmerged
    rw [Fields.fieldsAt_of_map hget] at hsettings hflat ⊢
    by_cases hbase : ∃ below, Fields.get? base (.text sect) = some (.map below)
    · obtain ⟨below, hbase⟩ := hbase
      rw [Fields.fieldsAt_of_map hbase] at hflat ⊢
      rw [hbase] at hmerged
      rw [Fields.fieldsAt_of_map hmerged, get?_merge hsettings]
      cases hvalue : Fields.get? settings (.text key) with
      | none => rfl
      | some w =>
        exact congrArg some (mergeValue_eq fun inner inner' hw =>
          hflat inner inner' (hvalue.trans (congrArg some hw)))
    · -- below there is no map to merge with
      dsimp only at hmerged
      rw [mergeValue_eq fun _ below _ hbelow => hbase ⟨below, hbelow⟩] at hmerged
      rw [Fields.fieldsAt_of_map hmerged,
        Fields.fieldsAt_of_not_map fun below hbelow => hbase ⟨below, hbelow⟩]
      exact (Option.or_none).symm

/-- A section that is no map hides the one below: merging goes on only where both sides
have a map. -/
theorem setting?_merge_of_not_map {ext base : Fields} (hext : ext.Keyed) {sect : Text} {v : Value}
    (hget : Fields.get? ext (.text sect) = some v) (hv : ∀ settings, v ≠ .map settings) (key : Text) :
    ext.setting? sect key = none ∧ (merge base ext).setting? sect key = none := by
  have hmerged : Fields.get? (merge base ext) (.text sect) = some v := by
    rw [get?_merge hext.distinct, hget]
    exact congrArg some (mergeValue_eq fun inner _ hinner => absurd hinner (hv inner))
  have hnot : ∀ settings, some v ≠ some (.map settings) :=
    fun settings h => hv settings (Option.some.inj h)
  unfold Fields.setting?
  rw [Fields.fieldsAt_of_not_map (hget ▸ hnot), Fields.fieldsAt_of_not_map (hmerged ▸ hnot)]
  exact ⟨rfl, rfl⟩

theorem lay_map (base layer : Fields) : lay base (.map layer) = .ok (merge base layer) := by
  cases layer <;> rfl

/-- Settings laid over a layer. -/
theorem setting?_merge_written {settings : List (Text × Text × Value)} (honce : (places settings).Nodup)
    (hflat : ∀ s ∈ settings, ∀ inner, s.2.2 ≠ .map inner) (base : Fields) (sect key : Text) :
    (merge base (settings.foldl Options.write [])).setting? sect key
      = (given? settings sect key).or (base.setting? sect key) := by
  have hwritten : (settings.foldl Options.write []).setting? sect key = given? settings sect key :=
    (setting?_foldl_write honce [] sect key).trans Option.or_none
  rw [setting?_merge (keyed_foldl_write settings .nil), hwritten]
  · intro v hv
    exact eq_map_of_mem_foldl_write settings (by simp) _ (Fields.mem_of_get? hv)
  · intro inner _ hinner
    exact absurd rfl (hflat _ (mem_of_given? (hwritten.symm.trans hinner)) inner)

/-! ## References and conversions -/

/-- What a value in a map stands for: a text is resolved twice. -/
def resolved (env : Environment) : Value → Value
  | .text s => .text (resolveText env (resolveText env s))
  | v => resolve env v

/-- A map is resolved entry by entry, and the keys stay. -/
theorem resolveEntries_cons (env : Environment) (k : Scalar) (v : Value) (rest : Fields) :
    resolveEntries env ((k, v) :: rest) = (k, resolved env v) :: resolveEntries env rest := by
  unfold resolved
  split
  next => rw [resolveEntries]
  next htext => exact resolveEntries.eq_3 env k v rest htext

/-- The same as a change of all values. A text is resolved twice there, which is what the
source does to a value in a map. -/
theorem resolveEntries_eq (env : Environment) (fields : Fields) :
    resolveEntries env fields = fields.mapKeyed fun _ v => resolved env v := by
  induction fields with
  | nil => rfl
  | cons e rest ih => exact (resolveEntries_cons env e.1 e.2 rest).trans (congrArg _ ih)

@[simp] theorem resolved_map (env : Environment) (inner : Fields) :
    resolved env (.map inner) = .map (resolveEntries env inner) := by
  rw [resolved, resolve]
  simp

/-- Only a map is resolved to a map. -/
theorem eq_map_of_resolved {env : Environment} {v : Value} {fields : Fields}
    (h : resolved env v = .map fields) : ∃ inner, v = .map inner := by
  cases v with
  | map inner => exact ⟨inner, rfl⟩
  | scalar s => cases s <;> simp [resolved, resolve] at h
  | _ => simp [resolved, resolve] at h

/-- A setting is resolved where it stands. Resolving changes the values of a map and no
key, so looking a setting up before or after makes no difference. -/
theorem setting?_resolveEntries (env : Environment) (fields : Fields) (sect key : Text) :
    Fields.setting? (resolveEntries env fields) sect key
      = (fields.setting? sect key).map (resolved env) := by
  have hsection := Fields.get?_mapKeyed (fun _ v => resolved env v) fields sect
  rw [← resolveEntries_eq] at hsection
  unfold Fields.setting?
  by_cases hmap : ∃ settings, Fields.get? fields (.text sect) = some (.map settings)
  · obtain ⟨settings, hget⟩ := hmap
    rw [hget, Option.map_some, resolved_map] at hsection
    rw [Fields.fieldsAt_of_map hget, Fields.fieldsAt_of_map hsection, resolveEntries_eq]
    exact Fields.get?_mapKeyed _ settings key
  · -- Resolving makes no map of what was none, so the section is missing on both sides.
    have hnot : ∀ settings,
        Fields.get? (resolveEntries env fields) (.text sect) ≠ some (.map settings) := by
      intro settings hget
      obtain ⟨v, hv, heq⟩ := Option.map_eq_some_iff.mp (hsection.symm.trans hget)
      obtain ⟨inner, rfl⟩ := eq_map_of_resolved heq
      exact hmap ⟨inner, hv⟩
    rw [Fields.fieldsAt_of_not_map fun settings hget => hmap ⟨settings, hget⟩,
      Fields.fieldsAt_of_not_map hnot]
    rfl

theorem resolveText_of_no_references (env : Environment) {t : Text} (h : references (.text t) = []) :
    resolveText env t = t := by
  have ht : reference? t = none := by simpa [references] using h
  rw [resolveText, ht]

theorem resolved_eq_of_resolve_eq {env : Environment} {v : Value} (h : references v = [])
    (hresolve : resolve env v = v) : resolved env v = v := by
  unfold resolved
  split
  next t => rw [resolveText_of_no_references env h, resolveText_of_no_references env h]
  next => exact hresolve

mutual

/-- What refers to nothing stands for itself. -/
theorem resolve_of_no_references (env : Environment) {v : Value} (h : references v = []) :
    resolve env v = v := by
  cases v with
  | scalar s =>
    cases s with
    | text t => rw [resolve, resolveText_of_no_references env h]
    | _ => rfl
  | map fields => exact congrArg Value.map (resolveEntries_of_no_references env h)
  | list items => exact congrArg Value.list (resolveItems_of_no_references env h)
  | _ => rfl

/-- A tree that refers to nothing is left. The three statements are shown together by the
recursion of `references`. -/
theorem resolveItems_of_no_references (env : Environment) {items : List Value}
    (h : referencesOfItems items = []) : resolveItems env items = items := by
  cases items with
  | nil => rfl
  | cons v rest =>
    obtain ⟨hv, hrest⟩ := List.append_eq_nil_iff.mp h
    rw [resolveItems, resolve_of_no_references env hv, resolveItems_of_no_references env hrest]

theorem resolveEntries_of_no_references (env : Environment) {fields : Fields}
    (h : referencesOfEntries fields = []) : resolveEntries env fields = fields := by
  cases fields with
  | nil => rfl
  | cons e rest =>
    obtain ⟨k, v⟩ := e
    obtain ⟨hv, hrest⟩ := List.append_eq_nil_iff.mp h
    rw [resolveEntries_cons, resolved_eq_of_resolve_eq hv (resolve_of_no_references env hv),
      resolveEntries_of_no_references env hrest]

end

theorem resolved_of_no_references (env : Environment) {v : Value} (h : references v = []) :
    resolved env v = v :=
  resolved_eq_of_resolve_eq h (resolve_of_no_references env h)

/-- The conversion of a leaf makes no map. -/
theorem eq_map_of_coerceLeaf {key : Scalar} {v : Value} {fields : Fields}
    (h : coerceLeaf key v = .ok (.map fields)) : v = .map fields := by
  unfold coerceLeaf at h
  split at h
  · cases h
  · unfold toTruth at h
    split at h <;> cases h
  · unfold toInteger at h
    split at h <;> cases h
  · exact Except.ok.inj h

/-- Only a map is converted to a map. -/
theorem eq_map_of_coerceAt {key : Scalar} {v : Value} {fields : Fields}
    (h : coerceAt key v = .ok (.map fields)) :
    ∃ inner, v = .map inner ∧ coerceEntries inner = .ok fields := by
  cases v with
  | map inner =>
    obtain ⟨converted, hinner, heq⟩ := Fault.bind_eq_ok.mp h
    obtain rfl := Value.map.inj (Except.ok.inj heq)
    exact ⟨inner, rfl, hinner⟩
  | list items =>
    obtain ⟨_, _, heq⟩ := Fault.bind_eq_ok.mp h
    cases heq
  | endless => cases h
  | _ => cases eq_map_of_coerceLeaf h

/-- A key is there after the conversion exactly if it was before, with the value converted
by this key. -/
theorem get?_coerceEntries {fields converted : Fields} (h : coerceEntries fields = .ok converted)
    (t : Text) :
    Option.Rel (fun v w => coerceAt (.text t) v = .ok w) (Fields.get? fields (.text t))
      (Fields.get? converted (.text t)) := by
  induction fields generalizing converted with
  | nil =>
    obtain rfl := Except.ok.inj h
    exact .none
  | cons e rest ih =>
    obtain ⟨k, v⟩ := e
    rw [coerceEntries] at h
    obtain ⟨w, hw, h⟩ := Fault.bind_eq_ok.mp h
    obtain ⟨converted', hrest, h⟩ := Fault.bind_eq_ok.mp h
    obtain rfl := Except.ok.inj h
    rw [Fields.get?_cons_text, Fields.get?_cons_text]
    split
    -- The first entry of the key is the one found, before as well as after the conversion.
    next hk => exact .some (hk ▸ hw)
    next => exact ih hrest

/-- A setting is converted by its key: what stands there after the conversion is what the
conversion at that key makes of what stood there before. -/
theorem setting?_coerceEntries {fields converted : Fields} (h : coerceEntries fields = .ok converted)
    (sect key : Text) :
    Option.Rel (fun v w => coerceAt (.text key) v = .ok w) (fields.setting? sect key)
      (converted.setting? sect key) := by
  have hsection := get?_coerceEntries h sect
  unfold Fields.setting?
  by_cases hmap : ∃ settings, Fields.get? fields (.text sect) = some (.map settings)
  · obtain ⟨settings, hget⟩ := hmap
    rw [hget] at hsection
    generalize hget' : Fields.get? converted (.text sect) = w at hsection
    -- without a section before there is none after: nothing becomes a map by conversion
    cases hsection with
    | some hw =>
      obtain ⟨converted, hsettings, heq⟩ := Fault.bind_eq_ok.mp hw
      obtain rfl := Except.ok.inj heq
      rw [Fields.fieldsAt_of_map hget, Fields.fieldsAt_of_map hget']
      exact get?_coerceEntries hsettings key
  · have hnot : ∀ settings, Fields.get? converted (.text sect) ≠ some (.map settings) := by
      intro settings hget'
      rw [hget'] at hsection
      generalize hget : Fields.get? fields (.text sect) = v at hsection
      cases hsection with
      | some hw =>
        obtain ⟨inner, rfl, -⟩ := eq_map_of_coerceAt hw
        exact hmap ⟨inner, hget⟩
    rw [Fields.fieldsAt_of_not_map fun settings hget => hmap ⟨settings, hget⟩,
      Fields.fieldsAt_of_not_map hnot]
    exact .none

end Layer

end Keeper
