import Keeper.Proofs.Merge

/-!
# Keeper — what a service writes, copied

A manifest that was read could be copied, and what a service writes over it can be copied too: no
field of the service goes deeper than its place in a manifest allows.

* **`Service.Shallow`** — how deep the fields of a service go.
* **`ReadFrom.shallow`**, **`Shallow.patched`** — services that were read, and brought in line.
* **`Shallow.written`** — what such a service writes can be copied.
-/

namespace Keeper

/-! ## Owners and ports -/

/-- A reference is a map of one level around its parts, of which only the two flags can be
of any depth. -/
theorem OwnerReference.copiesIn_manifest {n : Nat} {r : OwnerReference} (h : r.Textual)
    (hcontroller : r.controller.copiesIn n = true) (hblock : r.blockOwnerDeletion.copiesIn n = true) :
    (Value.map r.manifest).copiesIn (n + 1) = true := by
  obtain ⟨⟨v, hv⟩, ⟨k, hk⟩, ⟨m, hm⟩, ⟨u, hu⟩⟩ := h
  have hparts : (Value.map r.parts).copiesIn (n + 1) = true := by
    refine (Value.copiesIn_map_iff n _).mpr ?_
    simp [parts, hv, hk, hm, hu, hcontroller, hblock]
  exact Value.copiesIn_of_sublist hparts r.manifest_sublist

/-- What is read of a reference is no deeper than what it was read from: the parts that
became texts have no depth left, the flags are as they were. -/
theorem OwnerReference.copiesIn_of_ofManifest {n : Nat} {v : Value} (hv : v.copiesIn (n + 1) = true)
    {r : OwnerReference} (h : ofManifest v = .ok r) :
    (Value.map r.manifest).copiesIn (n + 1) = true := by
  obtain ⟨fields, rfl, htextual, hcontroller, hblock⟩ := exists_of_ofManifest h
  -- a flag is a value of the manifest, or null
  have hflag (key : Text) : (fields.getD (.text key) .null).copiesIn n = true := by
    cases hget : Fields.get? fields (.text key) with
    | none => simp [Fields.getD, hget]
    | some w => simpa [Fields.getD, hget] using Value.copiesIn_get? hv hget
  exact copiesIn_manifest htextual (hcontroller ▸ hflag _) (hblock ▸ hflag _)

/-- A port is a map of one level around its fields. -/
theorem Port.copiesIn_manifest {n : Nat} {p : Port}
    (hextra : (Value.map p.extra).copiesIn (n + 1) = true) (hport : p.port.copiesIn n = true)
    (htarget : p.target.copiesIn n = true) : (Value.map p.manifest).copiesIn (n + 1) = true := by
  rw [manifest_eq_setAll]
  refine Value.copiesIn_setAll hextra ?_
  unfold written
  split <;> simp [hport, htarget]

/-- What is read of a port is no deeper than what it was read from. The target may be the
port's own number, which is not deep at all. -/
theorem Port.copiesIn_of_ofManifest {n : Nat} {v : Value} (hv : v.copiesIn (n + 1) = true) {p : Port}
    (h : ofManifest v = .ok p) : (Value.map p.manifest).copiesIn (n + 1) = true := by
  obtain ⟨fields, rfl, hread⟩ := ofManifest_eq_ok_iff.mp h
  obtain ⟨i, -, hport⟩ := hread.port
  refine copiesIn_manifest ?_ (by rw [hport]; rfl) ?_
  · -- The extras are entries of the manifest, no deeper than it.
    rw [hread.extra]
    exact Value.copiesIn_of_sublist hv List.filter_sublist
  · rw [hread.target]
    cases hget : Fields.get? fields (.text "targetPort") with
    | none => simp [Fields.getD, hget, hport]
    | some w => simpa [Fields.getD, hget] using Value.copiesIn_get? hv hget

namespace Service

/-- No field of a service goes deeper than its place in a manifest that can be copied
allows: labels, annotations and selector stand in a section, owners and ports one level
further inside. -/
structure Shallow (s : Service) : Prop where
  labels : ∀ fs, s.labels = some fs → (Value.map fs).copiesIn (spareLevels + 3) = true
  annotations : ∀ fs, s.annotations = some fs → (Value.map fs).copiesIn (spareLevels + 3) = true
  owners : ∀ r ∈ s.owners, (Value.map r.manifest).copiesIn (spareLevels + 2) = true
  selector : ∀ fs, s.selector = some fs → (Value.map fs).copiesIn (spareLevels + 3) = true
  ports : ∀ p ∈ s.ports, (Value.map p.manifest).copiesIn (spareLevels + 2) = true
  raw : (Value.map s.raw).copiesIn (spareLevels + 5) = true

/-! ## Read -/

/-- Each field was read from so far inside the manifest. The levels are counted down from
the limit at which a copy fails, so that the field may be written back as far inside. -/
theorem ReadFrom.fields_shallow {s : Service} {m md sp : Fields} (h : s.ReadFrom m md sp) :
    s.Shallow := by
  have hm := h.shallow
  rw [copyLimit_eq] at hm
  have hsection := Value.copies_inherits (spareLevels + 3)
  have hfield := Value.copies_inherits (spareLevels + 2)
  have hitem := Value.copies_inherits (spareLevels + 1)
  have hmetadata := hsection.part hm h.metadata
  have hspec := hsection.part hm h.spec
  have hmap {fs gs : Fields} {key : Text} (hfs : (Value.map fs).copiesIn (spareLevels + 4) = true)
      (hpart : fs.part? key = .ok (some gs)) : (Value.map gs).copiesIn (spareLevels + 3) = true := by
    obtain ⟨v, hv, hfields⟩ := hfield.part? hfs hpart
    exact Value.copiesIn_of_toFields hv hfields
  -- a section, a list in it and an item of that are a level each
  exact {
    labels := fun fs hfs => hmap hmetadata (by rw [h.labels, hfs])
    annotations := fun fs hfs => hmap hmetadata (by rw [h.annotations, hfs])
    owners := fun r hr => by
      obtain ⟨xs, hxs, howners⟩ := Fault.bind_eq_ok.mp h.owners
      obtain ⟨x, hx, hread⟩ := exists_of_mem_mapM howners hr
      exact OwnerReference.copiesIn_of_ofManifest (hfield.parts hitem hmetadata hxs x hx) hread
    selector := fun fs hfs => hmap hspec (by rw [h.selector, hfs])
    ports := fun p hp => by
      obtain ⟨xs, hxs, hports⟩ := Fault.bind_eq_ok.mp h.ports
      obtain ⟨x, hx, hread⟩ := exists_of_mem_mapM hports hp
      exact Port.copiesIn_of_ofManifest (hfield.parts hitem hspec hxs x hx) hread
    raw := by rw [h.raw]; exact hm }

/-! ## Brought in line -/

/-- Annotations are written into a map that is there already, so the levels are those of
the deeper side. -/
theorem copiesIn_mergeAnnotations {n : Nat} {current : Fields}
    (hcurrent : (Value.map current).copiesIn (n + 1) = true) {wanted : List (Scalar × Value)}
    (hwanted : ∀ e ∈ wanted, e.2.copiesIn n = true) :
    (Value.map (mergeAnnotations current wanted).1).copiesIn (n + 1) = true := by
  induction wanted generalizing current with
  | nil => exact hcurrent
  | cons e rest ih =>
    obtain ⟨k, v⟩ := e
    obtain ⟨hv, hrest⟩ := List.forall_mem_cons.mp hwanted
    -- Merging copies values from one map into another, one level deep on both sides.
    by_cases hsaid : current.Says k v
    · rw [mergeAnnotations_cons_said hsaid]
      exact ih hcurrent hrest
    · rw [mergeAnnotations_cons_unsaid hsaid]
      exact ih (Value.copiesIn_set hcurrent k hv) hrest

/-- Missing annotations count as the empty map, which has a level too. -/
theorem Shallow.annotationsD {s : Service} (h : s.Shallow) :
    (Value.map (s.annotations.getD [])).copiesIn (spareLevels + 3) = true := by
  cases hs : s.annotations with
  | none => rfl
  | some fs => exact h.annotations fs hs

/-- What is taken over from the desired service goes no deeper than it does there. -/
theorem Shallow.patched {s d : Service} (hs : s.Shallow) (hd : d.Shallow) :
    (s.compare d).patched.Shallow where
  labels := hs.labels
  annotations := fun _ hfs => by
    have hwanted := (Value.copiesIn_map_iff _ _).mp hd.annotationsD
    exact patched_annotations (copiesIn_mergeAnnotations hs.annotationsD hwanted) hfs
  owners := patched_owners hs.owners hd.owners
  selector := patched_selector hs.selector hd.selector
  ports := patched_ports hs.ports hd.ports
  raw := hs.raw

/-! ## Written -/

section Written

variable {s : Service} {md sp : Fields}

theorem copiesIn_of_text? {n : Nat} {t : Text} {v : Value} (hv : text? t = some v) :
    v.copiesIn n = true := by
  obtain rfl := text?_eq_some hv
  rfl

theorem copiesIn_of_map {n : Nat} {fs : Option Fields}
    (h : ∀ gs, fs = some gs → (Value.map gs).copiesIn n = true) {v : Value}
    (hv : fs.map Value.map = some v) : v.copiesIn n = true := by
  obtain ⟨gs, hgs, rfl⟩ := Option.map_eq_some_iff.mp hv
  exact h gs hgs

/-- The list of references is a level around them. -/
theorem Shallow.ownersValue? (h : s.Shallow) {v : Value} (hv : s.ownersValue? = some v) :
    v.copiesIn (spareLevels + 3) = true := by
  unfold Service.ownersValue? at hv
  split at hv
  · cases hv
  · obtain rfl := Option.some.inj hv
    refine (Value.copiesIn_list_iff _ _).mpr fun x hx => ?_
    obtain ⟨r, hr, rfl⟩ := List.mem_map.mp hx
    exact h.owners r hr

/-- Metadata that is written has the levels it may have, over kept metadata that does. -/
theorem Shallow.metadata (h : s.Shallow) (hregular : s.Regular)
    (hkept : (Value.map md).copiesIn (spareLevels + 4) = true) :
    (Value.map (s.metadata md)).copiesIn (spareLevels + 4) = true := by
  obtain ⟨space, hspace⟩ := hregular.space
  obtain ⟨name, hname⟩ := hregular.name
  rw [metadata_eq_putAll]
  refine Value.copiesIn_putAll hkept ?_
  simp only [metadataEntries, List.forall_mem_cons, Option.some.injEq, forall_eq', hspace, hname]
  exact ⟨rfl, rfl, fun v => copiesIn_of_map h.labels, fun v => copiesIn_of_map h.annotations,
    fun v => h.ownersValue?, fun v => copiesIn_of_text?, by simp⟩

/-- The same for the specification. -/
theorem Shallow.spec (h : s.Shallow) (hkept : (Value.map sp).copiesIn (spareLevels + 4) = true) :
    (Value.map (s.spec sp)).copiesIn (spareLevels + 4) = true := by
  have hports : (Value.list (s.ports.map fun p => .map p.manifest)).copiesIn (spareLevels + 3)
      = true := by
    refine (Value.copiesIn_list_iff _ _).mpr fun x hx => ?_
    obtain ⟨p, hp, rfl⟩ := List.mem_map.mp hx
    exact h.ports p hp
  rw [spec_eq_putAll]
  refine Value.copiesIn_putAll hkept ?_
  simp only [specEntries, List.forall_mem_cons, Option.some.injEq, forall_eq']
  exact ⟨fun v => copiesIn_of_map h.selector, rfl, fun v => copiesIn_of_text?, hports, by simp⟩

/-- The sections that are written over were read from the manifest that is kept, so the
whole can be copied again. -/
theorem Shallow.written (h : s.Shallow) (hregular : s.Regular)
    (hmd : (Value.map md).copiesIn (spareLevels + 4) = true)
    (hsp : (Value.map sp).copiesIn (spareLevels + 4) = true) :
    (Value.map (s.written md sp)).copiesIn copyLimit = true := by
  have hheaded : (Value.map (s.raw.setAll heading)).copiesIn (spareLevels + 5) = true :=
    Value.copiesIn_setAll h.raw (by simp [heading])
  exact Value.copiesIn_setAll hheaded (by simp [h.metadata hregular hmd, h.spec hsp])

/-- What is kept of a section is no deeper than the manifest that was kept. -/
theorem Shallow.keeps (h : s.Shallow) {key : Text} {kept : Fields} (hkept : s.Keeps key kept) :
    (Value.map kept).copiesIn (spareLevels + 4) = true := by
  unfold Keeps at hkept
  rw [← hkept]
  cases hget : Fields.get? s.raw (.text key) with
  | none => simpa [Fields.getD, hget] using (Value.copies_inherits _).empty
  | some v => simpa [Fields.getD, hget] using Value.copiesIn_get? h.raw hget

end Written

end Service

end Keeper
