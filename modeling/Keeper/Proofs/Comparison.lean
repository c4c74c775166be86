import Keeper.Proofs.Overlay

/-!
# Keeper — what a comparison finds, and what it gives

A comparison is described in full by which groups it lists and by what the patched service has in each of
them. Four groups are replaced as a whole; the annotations are merged, key by key.

* **`mergeAnnotations_drifted_iff`** — a merge writes something if something wanted is not said.
* **`has_mergeAnnotations`** — the keys after a merge: those there were, and those that are wanted.
* **`Comparison.Merges`** — what a comparison of two services has to find and to give.
* **`Service.compare_merges`** — the comparison does.
-/

namespace Keeper

/-! ## Merging

Both statements are by induction on the wanted annotations, as those on a merge are in general. -/

namespace Fields

theorem has_cons (k : Scalar) (v : Value) (fs : Fields) (key : Scalar) :
    Fields.has ((k, v) :: fs) key = (k.same key || fs.has key) := by
  rw [has, has, get?]
  cases k.same key <;> rfl

theorem has_set (fs : Fields) (k : Scalar) (v : Value) (key : Scalar) :
    (fs.set k v).has key = (k.same key || fs.has key) := by
  rw [has, has, get?_set_key]
  cases k.same key <;> rfl

theorem Says.has {fs : Fields} {k key : Scalar} {v : Value} (h : fs.Says k v)
    (hsame : k.same key = true) : fs.has key = true := by
  obtain ⟨w, hget, -⟩ := h
  rw [Fields.has, ← get?_congr hsame, hget]
  rfl

/-- Keys that are the same for the map may be written in two ways, as 1 and true are. -/
theorem Says.congr {fs : Fields} {k key : Scalar} {v : Value} (h : fs.Says k v)
    (hsame : k.same key = true) : fs.Says key v := by
  obtain ⟨w, hget, heqv⟩ := h
  exact ⟨w, (get?_congr hsame fs).symm.trans hget, heqv⟩

end Fields

/-- A merge has written something exactly if something that is wanted was not said. -/
theorem mergeAnnotations_drifted_iff (current : Fields) (wanted : List (Scalar × Value)) :
    (mergeAnnotations current wanted).2 = true ↔ ∃ e ∈ wanted, ¬current.Says e.1 e.2 := by
  induction wanted with
  | nil => simp [mergeAnnotations]
  | cons e rest ih =>
    obtain ⟨k, v⟩ := e
    -- One annotation that is not said is enough; those that are said leave the question to the rest.
    by_cases hsaid : current.Says k v
    · rw [mergeAnnotations_cons_said hsaid, ih]
      simp [hsaid]
    · rw [mergeAnnotations_cons_unsaid hsaid]
      exact iff_of_true rfl ⟨(k, v), List.mem_cons_self, hsaid⟩

/-- After a merge there are the keys that there were, and those that are wanted. Nothing
is ever taken away, so annotations of others survive every update. -/
theorem has_mergeAnnotations (current wanted : Fields) (key : Scalar) :
    (mergeAnnotations current wanted).1.has key = (current.has key || wanted.has key) := by
  induction wanted generalizing current with
  | nil => exact (Bool.or_false _).symm
  | cons e rest ih =>
    obtain ⟨k, v⟩ := e
    rw [Fields.has_cons]
    by_cases hsaid : current.Says k v
    · rw [mergeAnnotations_cons_said hsaid, ih]
      -- A said annotation adds nothing, so its key must already be there.
      cases hsame : k.same key with
      | true => rw [hsaid.has hsame, Bool.true_or, Bool.true_or]
      | false => rw [Bool.false_or]
    · rw [mergeAnnotations_cons_unsaid hsaid]
      show (mergeAnnotations (current.set k v) rest).1.has key = _
      rw [ih, Fields.has_set, Bool.or_assoc, Bool.or_left_comm]

/-! ## The groups -/

/-- Lists agree pair by pair if they agree item by item and have the same length. -/
theorem allPairs_iff_forall₂ {α : Type} {agree : α → α → Bool} {xs ys : List α} :
    allPairs agree xs ys = true ↔ List.Forall₂ (fun x y => agree x y = true) xs ys := by
  induction xs generalizing ys with
  | nil => cases ys <;> simp [allPairs]
  | cons x rest ih =>
    cases ys with
    | nil => simp [allPairs]
    | cons y rest' => rw [allPairs, Bool.and_eq_true, ih, List.forall₂_cons]

/-- All groups of fields, in the order in which they are listed. -/
def FieldGroup.all : List FieldGroup := [.ownerReferences, .ports, .selector, .type, .annotations]

theorem Comparison.groups_sublist (owners ports selector type annotations : Bool) :
    (groups owners ports selector type annotations).Sublist FieldGroup.all := by
  revert owners ports selector type annotations
  decide

/-- Each is listed exactly if its flag is up. -/
theorem Comparison.mem_groups_iff (owners ports selector type annotations : Bool)
    (group : FieldGroup) :
    group ∈ groups owners ports selector type annotations
      ↔ (match group with
        | .ownerReferences => owners
        | .ports => ports
        | .selector => selector
        | .type => type
        | .annotations => annotations) = true := by
  revert owners ports selector type annotations
  cases group <;> decide

/-! ## The annotations -/

/-- The annotations of a service, of which there are none if they are missing. -/
def Service.annotationsD (s : Service) : Fields := s.annotations.getD []

section Annotations

variable {current desired : Service}

/-- The annotations have drifted exactly if one that is desired is missing or has another
value. Of the map that is desired only this is used: its keys are different, so each entry
is what is read at its key. -/
theorem mergedAnnotations_drifted_iff
    (hdesired : (Value.map desired.annotationsD).ordinary = true) :
    (mergedAnnotations current desired).2 = true
      ↔ ∃ key v, desired.annotationsD.get? key = some v ∧ ¬current.annotationsD.Says key v := by
  have hdrifted : (mergedAnnotations current desired).2 = true
      ↔ ∃ e ∈ desired.annotationsD, ¬current.annotationsD.Says e.1 e.2 := by
    rw [← mergeAnnotations_drifted_iff]
    -- Without desired annotations nothing is merged, and there is none that could be unsaid.
    rcases mergedAnnotations_cases current desired with ⟨-, hnone, hmerged⟩ | hmerged
    · have hempty : desired.annotationsD = [] := hnone
      rw [hmerged, hempty]
      rfl
    · rw [hmerged]
      rfl
  rw [hdrifted]
  constructor
  · rintro ⟨e, hmem, hunsaid⟩
    have hget := ((Value.ordinary_map_iff _).mp hdesired).1.get?_of_mem hmem
    exact ⟨e.1, e.2, hget, hunsaid⟩
  · rintro ⟨key, v, hget, hunsaid⟩
    obtain ⟨k, hmem, hsame⟩ := Fields.exists_of_get? hget
    exact ⟨(k, v), hmem, fun hsaid => hunsaid (hsaid.congr hsame)⟩

/-- Annotations stay missing only if none are there and none are desired. -/
theorem mergedAnnotations_eq_none_iff :
    (mergedAnnotations current desired).1 = none
      ↔ current.annotations = none ∧ desired.annotationsD = [] := by
  unfold mergedAnnotations Service.annotationsD
  split
  next hnone hempty => exact iff_of_true rfl ⟨hnone, hempty⟩
  next hsome =>
    refine iff_of_false (by simp) ?_
    rintro ⟨hnone, hempty⟩
    exact hsome hnone hempty

/-- Annotations that have not drifted stay as they are, and missing if they are. So a
comparison without a change patches nothing, also where there was no map of annotations to
begin with. -/
theorem mergedAnnotations_of_not_drifted (hdrifted : (mergedAnnotations current desired).2 = false) :
    (mergedAnnotations current desired).1 = current.annotations := by
  rcases mergedAnnotations_cases current desired with ⟨hnone, -, hmerged⟩ | hmerged
  · rw [hmerged, hnone]
  · have hsaid : ∀ e ∈ desired.annotationsD, current.annotationsD.Says e.1 e.2 := by
      intro e hmem
      refine Classical.byContradiction fun hunsaid => ?_
      have htrue := (mergeAnnotations_drifted_iff _ _).mpr ⟨e, hmem, hunsaid⟩
      rw [hmerged] at hdrifted
      exact Bool.noConfusion (hdrifted.symm.trans htrue)
    cases hcurrent : current.annotations with
    | some fs =>
      have hfs : current.annotationsD = fs := by rw [Service.annotationsD, hcurrent, Option.getD_some]
      have hkept : mergeAnnotations fs desired.annotationsD = (fs, false) :=
        mergeAnnotations_said (hfs ▸ hsaid)
      rw [hmerged, hcurrent]
      exact congrArg (fun merged => some merged.1) hkept
    | none =>
      -- where there is none, nothing is said, so nothing was desired
      have hempty : desired.annotationsD = [] := by
        refine List.eq_nil_iff_forall_not_mem.mpr fun e hmem => ?_
        obtain ⟨w, hget, -⟩ := hsaid e hmem
        rw [Service.annotationsD, hcurrent] at hget
        cases hget
      exact mergedAnnotations_eq_none_iff.mpr ⟨hcurrent, hempty⟩

/-- The keys of merged annotations. -/
theorem has_mergedAnnotations (current desired : Service) (key : Scalar) :
    Fields.has ((mergedAnnotations current desired).1.getD []) key
      = (current.annotationsD.has key || desired.annotationsD.has key) := by
  rcases mergedAnnotations_cases current desired with ⟨hnone, hempty, hmerged⟩ | hmerged
  · rw [hmerged, Service.annotationsD, Service.annotationsD, hnone, hempty]
    rfl
  · rw [hmerged]
    exact has_mergeAnnotations _ _ key

/-- Merged annotations have what is desired. -/
theorem says_mergedAnnotations (hdesired : (Value.map desired.annotationsD).ordinary = true)
    {key : Scalar} {v : Value} (hget : desired.annotationsD.get? key = some v) :
    Fields.Says ((mergedAnnotations current desired).1.getD []) key v := by
  obtain ⟨k, hmem, hsame⟩ := Fields.exists_of_get? hget
  rcases mergedAnnotations_cases current desired with ⟨-, hnone, -⟩ | hmerged
  · have hempty : desired.annotationsD = [] := hnone
    rw [hempty] at hmem
    cases hmem
  · rw [hmerged]
    exact (says_mergeAnnotations hdesired _ (k, v) hmem).congr hsame

end Annotations

/-! ## The whole comparison -/

/-- What a comparison of a service with a desired one finds, and what it gives. -/
structure Comparison.Merges (c : Comparison) (current desired : Service) : Prop where
  /-- Each group is listed once, in this order. -/
  ordered : c.fields.Sublist [.ownerReferences, .ports, .selector, .type, .annotations]
  once : c.fields.Nodup
  changed : c.changed = true ↔ c.fields ≠ []
  owners : .ownerReferences ∈ c.fields
    ↔ ¬List.Forall₂ (fun r s => r.eqv s = true) current.owners desired.owners
  ports : .ports ∈ c.fields ↔ portsMatch current.ports desired.ports = false
  /-- A missing selector is an empty one. -/
  selector : .selector ∈ c.fields
    ↔ Fields.eqv (current.selector.getD []) (desired.selector.getD []) = false
  type : .type ∈ c.fields ↔ current.type ≠ desired.type
  annotations : .annotations ∈ c.fields
    ↔ ∃ key v, desired.annotationsD.get? key = some v ∧ ¬current.annotationsD.Says key v
  /-- A listed group is the desired one as a whole, one that is not listed stays, and so does the rest. -/
  taken : c.patched = { current with
    owners := if .ownerReferences ∈ c.fields then desired.owners else current.owners
    ports := if .ports ∈ c.fields then desired.ports else current.ports
    selector := if .selector ∈ c.fields then desired.selector else current.selector
    type := if .type ∈ c.fields then desired.type else current.type
    annotations := c.patched.annotations }
  /-- The annotations are merged. -/
  kept : .annotations ∉ c.fields → c.patched.annotations = current.annotations
  missing : c.patched.annotations = none ↔ current.annotations = none ∧ desired.annotationsD = []
  keys : ∀ key, c.patched.annotationsD.has key
    = (current.annotationsD.has key || desired.annotationsD.has key)
  wanted : ∀ key v, desired.annotationsD.get? key = some v → c.patched.annotationsD.Says key v
  others : ∀ key, desired.annotationsD.has key = false →
    c.patched.annotationsD.get? key = current.annotationsD.get? key

/-- **A comparison, in full.** Whatever two services there are, as long as the annotations
that are desired are equal to themselves: the comparison lists each group that differs by
the rule of the group, and gives the service with these groups taken from the desired one.
The rules are those of `Merges`, one field for each group, with the annotations merged key
by key and all other groups taken whole. -/
theorem Service.compare_merges (current : Service) {desired : Service}
    (hdesired : (Value.map desired.annotationsD).ordinary = true) :
    (current.compare desired).Merges current desired := by
  have hmem (group : FieldGroup) := Comparison.mem_groups_iff (ownersDrift current desired)
    (portsDrift current desired) (selectorDrift current desired) (typeDrift current desired)
    (mergedAnnotations current desired).2 group
  have hfields : (current.compare desired).fields = Comparison.groups (ownersDrift current desired)
    (portsDrift current desired) (selectorDrift current desired) (typeDrift current desired)
    (mergedAnnotations current desired).2 := rfl
  rw [← hfields] at hmem
  -- the five groups, each by its own drift
  have howners := hmem .ownerReferences
  have hports := hmem .ports
  have hselector := hmem .selector
  have htype := hmem .type
  have hannotations := hmem .annotations
  dsimp only at howners hports hselector htype hannotations
  exact {
    ordered := Comparison.groups_sublist ..
    once := (Comparison.groups_sublist ..).nodup (by decide)
    changed := by
      rw [← Bool.not_eq_false, Comparison.changed_eq_false_iff]
    owners := by
      rw [howners, ownersDrift, Bool.not_eq_true', ← Bool.not_eq_true, allPairs_iff_forall₂]
    ports := by rw [hports, portsDrift, Bool.not_eq_true']
    selector := by rw [hselector, selectorDrift, Bool.not_eq_true']
    type := by rw [htype, typeDrift, bne_iff_ne]
    annotations := by rw [hannotations, mergedAnnotations_drifted_iff hdesired]
    -- Each group is taken by the same test that lists it, so both sides agree by unfolding.
    taken := by
      simp only [howners, hports, hselector, htype]
      rfl
    kept := by
      intro hunlisted
      rw [hannotations, Bool.not_eq_true] at hunlisted
      exact mergedAnnotations_of_not_drifted hunlisted
    missing := mergedAnnotations_eq_none_iff
    keys := has_mergedAnnotations current desired
    wanted := fun key v hget => says_mergedAnnotations hdesired hget
    others := fun key hnone => by
      rw [Fields.has, Option.isSome_eq_false_iff, Option.isNone_iff_eq_none] at hnone
      exact get?_mergedAnnotations current hnone }

/-- A service with a selector of its own, annotations of which one is desired with another
value, and a port. -/
def Service.strayed : Service where
  space := "ops"
  name := "agent"
  selector := some []
  annotations := some [(.text "note", .text "keep"), (.text "cert", .text "old")]
  ports := [{ port := .int 8443, target := .int 8443 }]

/-- A service with an annotation that is desired, the same port and no selector. -/
def Service.straight : Service where
  space := "ops"
  name := "agent"
  annotations := some [(.text "cert", .text "new")]
  ports := [{ port := .int 8443, target := .text "https" }]

/-- The ports and the annotations drift, and the note is kept. -/
theorem compare_merges_strayed :
    (Service.strayed.compare .straight).Merges .strayed .straight
      ∧ (Service.strayed.compare .straight).fields = [.ports, .annotations]
      ∧ (Service.strayed.compare .straight).patched.annotations
        = some [(.text "note", .text "keep"), (.text "cert", .text "new")] :=
  ⟨Service.strayed.compare_merges (by decide), by decide +kernel, rfl⟩

end Keeper
