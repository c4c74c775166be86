import Keeper.Drift.Compare
import Keeper.Proofs.Fields
import Keeper.Proofs.Unordered
import Mathlib.Data.List.Lex

/-!
# Keeper — when ports agree

Ports are sorted by name and compared in pairs, so which port meets which depends on the names alone,
and among ports of one name on their order.

* **`NumberedPort.compared`** — the part of a port that is compared: name, number, target as a number,
  protocol. Two ports agree when these are the same (`NumberedPort.portAgrees_iff`).
* **`portsMatch_iff`** — two collections agree when, name by name, they have the same ports in the same
  order.
* **`portsMatch_decides`** — this makes an equivalence relation, which knows nothing of other fields
  and of the order among ports of different names, and which is equality of collections where names are
  not repeated.
-/

namespace Keeper

/-! ## The order of texts -/

/-- No character has the value of a surrogate. So texts can be ordered by their values
without two of them falling together. -/
theorem CodePoint.value_injective : Function.Injective CodePoint.value := by
  intro a b h
  cases a with
  | char c =>
    cases b with
    | char d => rw [← ofNat_value c, ← ofNat_value d, h]
    | surrogate place =>
      have hvalid := c.valid
      have hplace := place.isLt
      -- No character has a value in the surrogates' range, which is what keeps the two kinds apart.
      simp only [value, firstSurrogate, Char.toNat, UInt32.isValidChar, Nat.isValidChar] at h hvalid
      omega
  | surrogate place =>
    have hplace := place.isLt
    cases b with
    | char d =>
      have hvalid := d.valid
      simp only [value, firstSurrogate, Char.toNat, UInt32.isValidChar, Nat.isValidChar] at h hvalid
      omega
    | surrogate place' =>
      rw [value, value, Nat.add_left_cancel_iff] at h
      rw [Fin.ext h]

/-- The values of a text's code points, by which texts are ordered. -/
def Text.values (t : Text) : List Nat := t.points.map CodePoint.value

theorem Text.values_injective : Function.Injective Text.values :=
  fun _ _ h => Text.ext (CodePoint.value_injective.list_map h)

instance : LinearOrder Text where
  __ := PartialOrder.lift Text.values Text.values_injective
  le_total s t := le_total s.values t.values
  toDecidableLE s t := inferInstanceAs (Decidable (s.values ≤ t.values))
  toDecidableEq := inferInstance

/-- The order of texts in the program is that of these numbers, from left to right. -/
theorem Text.le_eq (s t : Text) : s.le t = decide (s ≤ t) := by
  have hle : s ≤ t ↔ ¬t.values < s.values := not_lt.symm
  rw [Text.le, Text.lt, ← decide_not, decide_eq_decide, hle]
  rfl

/-! ## What is compared of a port -/

/-- An integer; the truth values are the integers one and zero. -/
def Value.integer? : Value → Option Int
  | .int i => some i
  | .bool b => some b.toInt
  | _ => none

/-- An integer has a place among the numbers, by which it is compared; a truth value has
the place of its integer. -/
theorem Value.place?_of_integer {v : Value} {i : Int} (h : v.integer? = some i) :
    ∃ s, v = .scalar s ∧ s.place? = some (.ofInt i) := by
  unfold integer? at h
  split at h
  · cases h
    exact ⟨.int i, rfl, rfl⟩
  · cases h
    exact ⟨_, rfl, rfl⟩
  · nomatch h

theorem Value.eqv_of_integers {v w : Value} {i j : Int} (hv : v.integer? = some i)
    (hw : w.integer? = some j) : v.eqv w = true ↔ i = j := by
  obtain ⟨s, rfl, hs⟩ := place?_of_integer hv
  obtain ⟨t, rfl, ht⟩ := place?_of_integer hw
  simp [eqv, Scalar.eqv, hs, ht, Binary64.Place.ofInt_inj]

/-- A port whose number is an integer; its target may be anything. -/
structure NumberedPort extends Port where
  numbered : port.integer?.isSome

namespace NumberedPort

def number (p : NumberedPort) : Int := p.port.integer?.get p.numbered

/-- What is compared of a port. A target that is no integer counts as zero. -/
def compared (p : NumberedPort) : Text × Int × Int × Text :=
  (p.name, p.number, p.target.integer?.getD 0, p.protocol)

theorem integer?_port (p : NumberedPort) : p.port.integer? = some p.number :=
  (Option.some_get p.numbered).symm

/-- The port without the fields that are not modelled. -/
def bare (p : NumberedPort) : Port := { p.toPort with extra := [] }

/-- Fields that are not modelled are not compared. -/
theorem compared_of_bare {p q : NumberedPort} (h : p.bare = q.bare) : p.compared = q.compared := by
  have hport : p.port = q.port := congrArg (·.port) h
  have hnumber : p.number = q.number := by
    apply Option.some.inj
    rw [← p.integer?_port, ← q.integer?_port, hport]
  have htarget : p.target = q.target := congrArg (·.target) h
  have hprotocol : p.protocol = q.protocol := congrArg (·.protocol) h
  have hname : p.name = q.name := congrArg (·.name) h
  rw [compared, compared, hname, hnumber, htarget, hprotocol]

/-- A target that is a name is compared as zero, like any other that is no integer. Two
named targets therefore agree, whatever their names. -/
theorem integer?_targetNumber (p : NumberedPort) :
    p.targetNumber.integer? = some (p.target.integer?.getD 0) := by
  unfold Port.targetNumber
  split
  next i h => rw [h]; rfl
  next b h => rw [h]; rfl
  -- Neither an integer nor a truth value: it counts as zero on both sides.
  next hint hbool =>
    have hnone : p.target.integer? = none := by
      unfold Value.integer?
      split
      next i h => exact absurd h (hint i)
      next b h => exact absurd h (hbool b)
      next => rfl
    rw [hnone]
    rfl

/-- Two ports agree exactly if what is compared of them is equal. Agreement is thereby an
equivalence, which the relation of the program does not show by its form. -/
theorem portAgrees_iff (p q : NumberedPort) :
    portAgrees p.toPort q.toPort = true ↔ p.compared = q.compared := by
  simp only [portAgrees, Bool.and_eq_true, beq_iff_eq, compared, Prod.mk.injEq, and_assoc]
  rw [Value.eqv_of_integers p.integer?_port q.integer?_port,
    Value.eqv_of_integers p.integer?_targetNumber q.integer?_targetNumber]

end NumberedPort

/-! ## Collections of ports -/

/-- Agreement of two collections of ports. -/
def PortsMatch (c d : List NumberedPort) : Prop :=
  portsMatch (c.map (·.toPort)) (d.map (·.toPort)) = true

/-- The ports of one name, in the order in which they stand. -/
def portsNamed (n : Text) (c : List NumberedPort) : List NumberedPort := itemsOf (·.name) n c

theorem portsMatch_eq (c d : List Port) :
    portsMatch c d = unorderedEqual (byKey Port.name) portAgrees c d := by
  have hle : (fun p q : Port => p.name.le q.name) = byKey Port.name :=
    funext fun p => funext fun q => Text.le_eq p.name q.name
  rw [portsMatch, hle]

/-- Collections of ports match exactly if for each name they have the same row of ports:
the order within a name counts. -/
theorem portsMatch_iff {c d : List NumberedPort} :
    PortsMatch c d
      ↔ ∀ n, (portsNamed n c).map (·.compared) = (portsNamed n d).map (·.compared) := by
  -- Ports that agree have one name, so the comparison can be split by names.
  have hname : ∀ p ∈ c.map (·.toPort), ∀ q ∈ d.map (·.toPort),
      portAgrees p q = true → p.name = q.name := by
    intro p _ q _ h
    simp only [portAgrees, Bool.and_eq_true, beq_iff_eq] at h
    exact h.1.1.1
  have hnamed (n : Text) (e : List NumberedPort) :
      itemsOf Port.name n (e.map (·.toPort)) = (portsNamed n e).map (·.toPort) :=
    List.filter_map
  rw [PortsMatch, portsMatch_eq, unorderedEqual_iff_itemsOf hname]
  apply forall_congr'
  intro n
  rw [hnamed, hnamed, List.forall₂_map_left_iff, List.forall₂_map_right_iff]
  simp only [NumberedPort.portAgrees_iff]
  rw [← List.forall₂_map_right_iff, ← List.forall₂_map_left_iff, List.forall₂_eq_eq_eq]

theorem map_compared_portsNamed (n : Text) (c : List NumberedPort) :
    (portsNamed n c).map (·.compared) = itemsOf Prod.fst n (c.map (·.compared)) := by
  rw [itemsOf, List.filter_map]
  rfl

theorem portsMatch_equivalence : Equivalence PortsMatch where
  refl _ := portsMatch_iff.mpr fun _ => rfl
  symm h := portsMatch_iff.mpr fun n => (portsMatch_iff.mp h n).symm
  trans h h' := portsMatch_iff.mpr fun n => (portsMatch_iff.mp h n).trans (portsMatch_iff.mp h' n)

theorem PortsMatch.congr {c c' : List NumberedPort} (h : PortsMatch c c') (d : List NumberedPort) :
    (PortsMatch c' d ↔ PortsMatch c d) ∧ (PortsMatch d c' ↔ PortsMatch d c) :=
  ⟨⟨portsMatch_equivalence.trans h, portsMatch_equivalence.trans (portsMatch_equivalence.symm h)⟩,
    ⟨fun h' => portsMatch_equivalence.trans h' (portsMatch_equivalence.symm h),
      fun h' => portsMatch_equivalence.trans h' h⟩⟩

/-- Fields that are not modelled may differ. -/
theorem portsMatch_of_bare {c c' : List NumberedPort} (h : c.map (·.bare) = c'.map (·.bare)) :
    PortsMatch c c' := by
  have hcompared : c.map (·.compared) = c'.map (·.compared) := by
    rw [← List.forall₂_eq_eq_eq, List.forall₂_map_left_iff, List.forall₂_map_right_iff] at h ⊢
    exact h.imp fun p q => NumberedPort.compared_of_bare
  apply portsMatch_iff.mpr
  intro n
  rw [map_compared_portsNamed, map_compared_portsNamed, hcompared]

theorem portsMatch_of_reorders {c c' : List NumberedPort} (h : Reorders (·.name) c c') :
    PortsMatch c c' := by
  apply portsMatch_iff.mpr
  intro n
  rw [portsNamed, portsNamed, h.itemsOf_eq n]

/-- Where no name is repeated, the order does not count at all: each name has one port or
none, so there is no order among the ports of one name. -/
theorem portsMatch_iff_perm {c d : List NumberedPort} (hc : (c.map (·.name)).Nodup) :
    PortsMatch c d ↔ (c.map (·.compared)).Perm (d.map (·.compared)) := by
  rw [portsMatch_iff]
  simp only [map_compared_portsNamed]
  constructor
  · exact perm_of_itemsOf
  · intro hperm n
    have hnodup : ((c.map (·.compared)).map Prod.fst).Nodup := by
      rw [List.map_map]
      exact hc
    exact (itemsOf_eq_of_perm hnodup hperm.symm n).symm

/-- What agreement of ports decides: name by name, the same numbers, targets and protocols
in the same order. So it is an equivalence, it does not see fields that are not modelled,
it does not see the order of ports of different names, and where names are not repeated it
sees no order at all. Sorting by name is stable, which is why the order within a name is
seen and no other. -/
theorem portsMatch_decides :
    (∀ c d, PortsMatch c d
        ↔ ∀ n, (portsNamed n c).map (·.compared) = (portsNamed n d).map (·.compared))
      ∧ Equivalence PortsMatch
      ∧ (∀ c c' d, c.map (·.bare) = c'.map (·.bare) →
        (PortsMatch c' d ↔ PortsMatch c d) ∧ (PortsMatch d c' ↔ PortsMatch d c))
      ∧ (∀ c c' d, Reorders (·.name) c c' →
        (PortsMatch c' d ↔ PortsMatch c d) ∧ (PortsMatch d c' ↔ PortsMatch d c))
      ∧ ∀ c d, (c.map (·.name)).Nodup →
        (PortsMatch c d ↔ (c.map (·.compared)).Perm (d.map (·.compared))) :=
  ⟨fun _ _ => portsMatch_iff, portsMatch_equivalence,
    fun _ _ d h => (portsMatch_of_bare h).congr d,
    fun _ _ d h => (portsMatch_of_reorders h).congr d,
    fun _ _ hc => portsMatch_iff_perm hc⟩

/-- A named target counts as zero, a field that is not modelled and the order do not
count. -/
theorem portsMatch_decides_reordered :
    let web : NumberedPort := ⟨{ name := "web", port := .int 80, target := .text "http" }, rfl⟩
    let admin : NumberedPort := ⟨{ name := "admin", port := .int 81, target := .int 81 }, rfl⟩
    let seen : NumberedPort :=
      ⟨{ name := "web", port := .int 80, target := .int 0, extra := [("nodePort", .int 30080)] }, rfl⟩
    ([web, admin].map (·.name)).Nodup ∧ PortsMatch [web, admin] [admin, seen] := by
  intro web admin seen
  have hnames : ([web, admin].map (·.name)).Nodup := by decide
  refine ⟨hnames, (portsMatch_decides.2.2.2.2 [web, admin] [admin, seen] hnames).mpr ?_⟩
  exact List.Perm.swap _ _ []

end Keeper
