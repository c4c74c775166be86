import Keeper.Drift.Compare
import Keeper.Proofs.Equality
import Keeper.Proofs.Manifest
import Keeper.Proofs.Unordered

/-!
# Keeper — a service brought in line, compared again

Each group of fields is brought in line by a rule of its own, and each rule is done after one
application: what was taken over is equal to itself, and what was not taken over had agreed.

* **`portsMatch_self`** — ports agree with themselves, whatever their names.
* **`get?_mergeAnnotations`**, **`says_mergeAnnotations`** — what the annotations say after a merge:
  elsewhere what they said before, and at each wanted key what is wanted.
* **`mergedAnnotations_again`** — merging once more changes nothing.
* **`compare_patched`** — a service that was brought in line is what comparing it again gives, and no
  group has drifted.
* **`patched_owners`** and its like, **`Regular.patched`**, **`Ordinary.patched`** — what a
  comparison keeps.
-/

namespace Keeper

/-! ## Ports -/

/-- What is sorted in the same way is paired with itself. -/
theorem all_zip_self {α : Type} {agree : α → α → Bool} {xs : List α}
    (h : ∀ x ∈ xs, agree x x = true) : (xs.zip xs).all (fun (c, d) => agree c d) = true := by
  induction xs with
  | nil => rfl
  | cons x rest ih =>
    obtain ⟨hx, hrest⟩ := List.forall_mem_cons.mp h
    rw [List.zip_cons_cons, List.all_cons, ih hrest, Bool.and_true]
    exact hx

/-- Both copies are sorted alike, so each item meets itself. -/
theorem unorderedEqual_self {α : Type} (le : α → α → Bool) {agree : α → α → Bool} {xs : List α}
    (h : ∀ x ∈ xs, agree x x = true) : unorderedEqual le agree xs xs = true := by
  have hsorted : ∀ x ∈ stableSort le xs, agree x x = true :=
    fun x hx => h x ((perm_stableSort le xs).mem_iff.mp hx)
  rw [unorderedEqual, alignedPairs?, if_pos rfl]
  exact all_zip_self hsorted

/-- A target counts as a number, zero if it is none, and a number is equal to itself. -/
theorem Port.targetNumber_eqv_self (p : Port) : p.targetNumber.eqv p.targetNumber = true := by
  unfold targetNumber
  split <;> simp

theorem portAgrees_self {p : Port} (h : p.Ordinary) : portAgrees p p = true := by
  rw [portAgrees, Value.eqv_self h.port, p.targetNumber_eqv_self, beq_self_eq_true, beq_self_eq_true]
  rfl

/-- A collection of ports agrees with itself. So ports that were taken over have not
drifted. -/
theorem portsMatch_self {ps : List Port} (h : ∀ p ∈ ps, p.Ordinary) : portsMatch ps ps = true :=
  unorderedEqual_self _ fun p hp => portAgrees_self (h p hp)

/-! ## Annotations

The wanted annotations are gone through one by one; each is written at most at its own key. All
statements are by induction on the wanted ones, whatever annotations there are by then. -/

/-- A value equal to the given one stands at a key. -/
def Fields.Says (fs : Fields) (key : Scalar) (v : Value) : Prop :=
  ∃ w, fs.get? key = some w ∧ w.eqv v = true

/-- An annotation that is there already is passed over. -/
theorem mergeAnnotations_cons_said {current : Fields} {k : Scalar} {v : Value}
    (h : current.Says k v) (rest : List (Scalar × Value)) :
    mergeAnnotations current ((k, v) :: rest) = mergeAnnotations current rest := by
  obtain ⟨w, hget, heqv⟩ := h
  rw [mergeAnnotations, hget]
  dsimp only
  rw [if_pos heqv]

/-- One that is missing or different is written, and that counts as drift. With the lemma
before, every proof on the merge is an induction with these two cases. -/
theorem mergeAnnotations_cons_unsaid {current : Fields} {k : Scalar} {v : Value}
    (h : ¬current.Says k v) (rest : List (Scalar × Value)) :
    mergeAnnotations current ((k, v) :: rest)
      = ((mergeAnnotations (current.set k v) rest).1, true) := by
  rw [mergeAnnotations]
  cases hget : current.get? k with
  | none => rfl
  | some w =>
    have heqv : ¬w.eqv v = true := fun heqv => h ⟨w, hget, heqv⟩
    dsimp only
    rw [if_neg heqv]

/-- A key that is not among the wanted ones keeps its value. -/
theorem get?_mergeAnnotations {key : Scalar} {wanted : List (Scalar × Value)}
    (h : ∀ e ∈ wanted, ¬e.1.same key = true) (current : Fields) :
    (mergeAnnotations current wanted).1.get? key = current.get? key := by
  induction wanted generalizing current with
  | nil => rfl
  | cons e rest ih =>
    obtain ⟨k, v⟩ := e
    obtain ⟨hk, hrest⟩ := List.forall_mem_cons.mp h
    by_cases hsaid : current.Says k v
    · rw [mergeAnnotations_cons_said hsaid, ih hrest]
    · rw [mergeAnnotations_cons_unsaid hsaid]
      show (mergeAnnotations (current.set k v) rest).1.get? key = current.get? key
      rw [ih hrest, Fields.get?_set_key, if_neg hk]

/-- Every wanted annotation is there after the merge: no later one is of its key. This is
where the keys of the wanted annotations have to be different, and their values equal to
themselves. -/
theorem says_mergeAnnotations {wanted : Fields} (h : (Value.map wanted).ordinary = true)
    (current : Fields) :
    ∀ e ∈ wanted, (mergeAnnotations current wanted).1.Says e.1 e.2 := by
  obtain ⟨hapart, hentries⟩ := (Value.ordinary_map_iff wanted).mp h
  clear h
  induction wanted generalizing current with
  | nil => simp
  | cons e rest ih =>
    obtain ⟨k, v⟩ := e
    obtain ⟨hk, hapart'⟩ := List.pairwise_cons.mp hapart
    obtain ⟨⟨-, hv⟩, hentries'⟩ := List.forall_mem_cons.mp hentries
    -- once the first one is there, the rest of the merge leaves it there
    have hlater : ∀ e ∈ rest, ¬e.1.same k = true := by
      intro e he
      rw [Scalar.same_comm, hk e.1 (List.mem_map_of_mem he)]
      exact Bool.false_ne_true
    by_cases hsaid : current.Says k v
    · rw [mergeAnnotations_cons_said hsaid]
      refine List.forall_mem_cons.mpr ⟨?_, ih current hapart' hentries'⟩
      obtain ⟨w, hget, heqv⟩ := hsaid
      exact ⟨w, (get?_mergeAnnotations hlater current).trans hget, heqv⟩
    · rw [mergeAnnotations_cons_unsaid hsaid]
      refine List.forall_mem_cons.mpr ⟨⟨v, ?_, Value.eqv_self hv⟩, ih _ hapart' hentries'⟩
      show (mergeAnnotations (current.set k v) rest).1.get? k = some v
      rw [get?_mergeAnnotations hlater, Fields.get?_set_key, if_pos k.same_self]

/-- Where all wanted annotations are there, nothing is written. -/
theorem mergeAnnotations_said {current : Fields} {wanted : List (Scalar × Value)}
    (h : ∀ e ∈ wanted, current.Says e.1 e.2) : mergeAnnotations current wanted = (current, false) := by
  induction wanted with
  | nil => rfl
  | cons e rest ih =>
    obtain ⟨hhead, hrest⟩ := List.forall_mem_cons.mp h
    exact (mergeAnnotations_cons_said hhead rest).trans (ih hrest)

/-- The merge of ordinary annotations is ordinary, since it only writes entries. -/
theorem ordinary_mergeAnnotations {current : Fields} (hcurrent : (Value.map current).ordinary = true)
    {wanted : List (Scalar × Value)}
    (hwanted : ∀ e ∈ wanted, e.1 ≠ .float .nan ∧ e.2.ordinary = true) :
    (Value.map (mergeAnnotations current wanted).1).ordinary = true := by
  induction wanted generalizing current with
  | nil => exact hcurrent
  | cons e rest ih =>
    obtain ⟨k, v⟩ := e
    obtain ⟨⟨hk, hv⟩, hrest⟩ := List.forall_mem_cons.mp hwanted
    by_cases hsaid : current.Says k v
    · rw [mergeAnnotations_cons_said hsaid]
      exact ih hcurrent hrest
    · rw [mergeAnnotations_cons_unsaid hsaid]
      exact ih (Value.ordinary_set hcurrent hk hv) hrest

/-- Missing annotations stay missing when none is wanted; else they are merged as if
empty. -/
theorem mergedAnnotations_cases (s d : Service) :
    (s.annotations = none ∧ d.annotations.getD [] = [] ∧ mergedAnnotations s d = (none, false))
      ∨ mergedAnnotations s d
        = (some (mergeAnnotations (s.annotations.getD []) (d.annotations.getD [])).1,
          (mergeAnnotations (s.annotations.getD []) (d.annotations.getD [])).2) := by
  unfold mergedAnnotations
  split
  next hs hd => exact .inl ⟨hs, hd, rfl⟩
  next => exact .inr rfl

theorem ordinary_annotationsD {s : Service} (h : s.Ordinary) :
    (Value.map (s.annotations.getD [])).ordinary = true := by
  cases hs : s.annotations with
  | none => exact Value.ordinary_inherited.empty
  | some fs => exact h.annotations fs hs

/-- Annotations that were merged say all that is wanted, so a second merge finds nothing
to write. -/
theorem mergedAnnotations_again {s p d : Service} (hd : d.Ordinary)
    (hp : p.annotations = (mergedAnnotations s d).1) :
    mergedAnnotations p d = (p.annotations, false) := by
  rcases mergedAnnotations_cases s d with ⟨-, hwanted, hmerged⟩ | hmerged
  · rw [hmerged] at hp
    unfold mergedAnnotations
    rw [hp, hwanted]
  · rw [hmerged] at hp
    have hsaid := says_mergeAnnotations (ordinary_annotationsD hd) (s.annotations.getD [])
    rcases mergedAnnotations_cases p d with ⟨hnone, -, -⟩ | hagain
    · rw [hp] at hnone
      cases hnone
    · rw [hagain, hp, Option.getD_some, mergeAnnotations_said hsaid]

/-! ## All groups

A group either is the desired one now, or it has not drifted. -/

namespace Service

/-- Where no group has drifted, the service stays as it is. -/
theorem compare_of_no_drift {s d : Service} (howners : ownersDrift s d = false)
    (hports : portsDrift s d = false) (hselector : selectorDrift s d = false)
    (htype : typeDrift s d = false) (hannotations : mergedAnnotations s d = (s.annotations, false)) :
    s.compare d = { patched := s, fields := [] } := by
  unfold compare
  rw [howners, hports, hselector, htype, hannotations]
  rfl

/-- Groups that are replaced as a whole equal the desired ones afterwards: where they had
drifted they were taken over, and where they had not there was nothing to do. This one is
for the owner references. -/
theorem ownersDrift_patched (s : Service) {d : Service} (hd : d.Ordinary) :
    ownersDrift (s.compare d).patched d = false := by
  have howners : (s.compare d).patched.owners = if ownersDrift s d then d.owners else s.owners := rfl
  rw [ownersDrift, howners]
  split
  next => rw [allPairs_self fun r hr => OwnerReference.eqv_self (hd.owners r hr), Bool.not_true]
  next h => exact (Bool.not_eq_true _).mp h

/-- Ports that agree need not be the same, so without drift it is the agreement that
stays. -/
theorem portsDrift_patched (s : Service) {d : Service} (hd : d.Ordinary) :
    portsDrift (s.compare d).patched d = false := by
  have hports : (s.compare d).patched.ports = if portsDrift s d then d.ports else s.ports := rfl
  rw [portsDrift, hports]
  split
  next => rw [portsMatch_self hd.ports, Bool.not_true]
  next h => exact (Bool.not_eq_true _).mp h

/-- A missing selector counts as an empty one, before and after. -/
theorem selectorDrift_patched (s : Service) {d : Service} (hd : d.Ordinary) :
    selectorDrift (s.compare d).patched d = false := by
  have hselector : (s.compare d).patched.selector
      = if selectorDrift s d then d.selector else s.selector := rfl
  rw [selectorDrift, hselector]
  -- a selector that has drifted is the desired one now, and is compared with itself
  split
  next =>
    have hself : Fields.eqv (d.selector.getD []) (d.selector.getD []) = true := by
      cases hsel : d.selector with
      | none => rfl
      | some fs => exact Value.eqv_self (hd.selector fs hsel)
    rw [hself, Bool.not_true]
  next h => exact (Bool.not_eq_true _).mp h

theorem typeDrift_patched (s d : Service) : typeDrift (s.compare d).patched d = false := by
  have htype : (s.compare d).patched.type = if typeDrift s d then d.type else s.type := rfl
  rw [typeDrift, htype]
  split
  next => exact bne_self_eq_false d.type
  next h => exact (Bool.not_eq_true _).mp h

/-- **One comparison is enough.** Comparing a service again after it was brought in line
finds nothing and changes nothing. -/
theorem compare_patched (s : Service) {d : Service} (hd : d.Ordinary) :
    (s.compare d).patched.compare d = { patched := (s.compare d).patched, fields := [] } :=
  compare_of_no_drift (s.ownersDrift_patched hd) (s.portsDrift_patched hd)
    (s.selectorDrift_patched hd) (s.typeDrift_patched d) (mergedAnnotations_again hd rfl)

theorem compare_withRaw {s d : Service} (h : s.compare d = { patched := s, fields := [] })
    (m : Fields) :
    { s with raw := m }.compare d = { patched := { s with raw := m }, fields := [] } := by
  have hraw : { s with raw := m }.compare d
      = { patched := { (s.compare d).patched with raw := m }, fields := (s.compare d).fields } := rfl
  rw [hraw, h]

/-! ## Kept by a comparison

What is taken over comes from one of the two services. -/

section Patched

variable {s d : Service}

/-- A group is taken over or stays; so it has whatever both sides of the comparison
have. -/
theorem taken_of_both {α : Type} {P : α → Prop} (drifted : Bool) {desired current : α}
    (hdesired : P desired) (hcurrent : P current) : P (if drifted then desired else current) := by
  cases drifted
  · exact hcurrent
  · exact hdesired

@[elab_as_elim] theorem patched_owners {P : List OwnerReference → Prop} (hs : P s.owners) (hd : P d.owners) :
    P (s.compare d).patched.owners :=
  taken_of_both (ownersDrift s d) hd hs

@[elab_as_elim] theorem patched_ports {P : List Port → Prop} (hs : P s.ports) (hd : P d.ports) :
    P (s.compare d).patched.ports :=
  taken_of_both (portsDrift s d) hd hs

@[elab_as_elim] theorem patched_selector {P : Option Fields → Prop} (hs : P s.selector) (hd : P d.selector) :
    P (s.compare d).patched.selector :=
  taken_of_both (selectorDrift s d) hd hs

@[elab_as_elim] theorem patched_type {P : Text → Prop} (hs : P s.type) (hd : P d.type) :
    P (s.compare d).patched.type :=
  taken_of_both (typeDrift s d) hd hs

/-- The annotations are the one group in which entries of both services meet, so it is the
merge that has to have the property. -/
@[elab_as_elim] theorem patched_annotations {P : Fields → Prop}
    (hmerge : P (mergeAnnotations (s.annotations.getD []) (d.annotations.getD [])).1) {fs : Fields}
    (hfs : (s.compare d).patched.annotations = some fs) : P fs := by
  have hmerged : (mergedAnnotations s d).1 = some fs := hfs
  rcases mergedAnnotations_cases s d with ⟨-, -, heq⟩ | heq
  · rw [heq] at hmerged
    cases hmerged
  · rw [heq] at hmerged
    obtain rfl := Option.some.inj hmerged
    exact hmerge

end Patched

/-- A service that is put together from two regular ones is regular, whatever has drifted.
Each group comes from one of the two, or is a merge of both. -/
theorem Regular.patched {s d : Service} (hs : s.Regular) (hd : d.Regular) :
    (s.compare d).patched.Regular where
  space := hs.space
  name := hs.name
  owners := patched_owners hs.owners hd.owners
  ports := patched_ports hs.ports hd.ports
  type := patched_type hs.type hd.type

/-- The same for ordinary values. Only the annotations are a mixture of both services; of
every other group one side is taken. -/
theorem Ordinary.patched {s d : Service} (hs : s.Ordinary) (hd : d.Ordinary) :
    (s.compare d).patched.Ordinary where
  space := hs.space
  name := hs.name
  labels := hs.labels
  annotations := fun _ hfs => by
    have hwanted := ((Value.ordinary_map_iff _).mp (ordinary_annotationsD hd)).2
    exact patched_annotations (ordinary_mergeAnnotations (ordinary_annotationsD hs) hwanted) hfs
  owners := patched_owners hs.owners hd.owners
  selector := patched_selector hs.selector hd.selector
  ports := patched_ports hs.ports hd.ports
  raw := hs.raw

end Service

end Keeper
