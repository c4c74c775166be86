import Keeper.Proofs.RoundTrip

/-!
# Keeper — what is read and cannot be written

Reading takes a section that counts as false for an empty one, whatever it is. Writing adds the
sections that are missing and lays the service over those that are there, so these must be maps.
Between the two stands the section that is there, counts as false and is no map.

* **`Fields.Hollow`** — such a section.
* **`Fields.kept_iff_of_part`** — of the sections that can be read, the others can be written over.
* **`Service.exists_manifest_iff`**, **`Service.misuse_of_manifest`** — which services can be written,
  and how the others fail.
* **`readable_writes_iff`** — what was read can be written exactly if none of its sections is hollow,
  also when it was brought in line.
-/

namespace Keeper

namespace Fields

variable {m : Fields} {key : Text}

/-- The section at a key is there, counts as false and is no map. -/
def Hollow (m : Fields) (key : Text) : Prop :=
  ∃ v, get? m (.text key) = some v ∧ v.truthy = false ∧ ∀ fs, v ≠ .map fs

theorem not_hollow_of_kept {kept : Fields} (h : m.getD (.text key) (.map []) = .map kept) :
    ¬m.Hollow key := by
  rintro ⟨v, hget, -, hmap⟩
  rw [getD_of_get? hget] at h
  exact hmap kept h

/-- A section that can be read can be written over unless it is hollow. Reading puts an
empty map in the place of any false value, writing only where nothing is there: this is
the whole difference. -/
theorem kept_iff_of_part {md : Fields} (h : m.part key = .ok md) :
    (∃ kept, m.getD (.text key) (.map []) = .map kept) ↔ ¬m.Hollow key := by
  constructor
  · rintro ⟨kept, hkept⟩
    exact not_hollow_of_kept hkept
  · intro hhollow
    cases hget : get? m (.text key) with
    | none => exact ⟨[], by simp [getD, hget]⟩
    | some v =>
      rw [getD_of_get? hget]
      cases htrue : v.truthy with
      | true =>
        -- what counts as true is read as it is, and only a map can be
        have hread : v.fields = .ok md := by
          rw [part, getD_of_get? hget, Value.orElse, if_pos htrue] at h
          exact h
        exact ⟨md, Value.eq_map_of_fields hread⟩
      | false =>
        by_cases hmap : ∃ fs, v = .map fs
        · exact hmap
        · exact (hhollow ⟨v, hget, htrue, fun fs hfs => hmap ⟨fs, hfs⟩⟩).elim

end Fields

namespace Service

variable {s : Service}

/-- A service can be written exactly if both of its sections can be written into. -/
theorem exists_manifest_iff (s : Service) :
    (∃ body, s.manifest = .ok body)
      ↔ (∃ kept, s.Keeps "metadata" kept) ∧ ∃ kept, s.Keeps "spec" kept := by
  constructor
  · rintro ⟨body, hbody⟩
    obtain ⟨keptMetadata, keptSpec, hmetadata, hspec, -⟩ := eq_of_manifest hbody
    exact ⟨⟨keptMetadata, hmetadata⟩, ⟨keptSpec, hspec⟩⟩
  · rintro ⟨⟨keptMetadata, hmetadata⟩, ⟨keptSpec, hspec⟩⟩
    exact ⟨_, manifest_eq hmetadata hspec⟩

theorem misuse_of_writable {otherwise : Misuse} {v : Value} {fault : Fault}
    (h : writable otherwise v = .error fault) : fault = .misuse otherwise := by
  cases v with
  | map fs => cases h
  | _ => exact (Except.error.inj h).symm

/-- A service that cannot be written is misused; that is no fault of a value or of the
cluster. So the failure is none of those that a cycle wraps, and it comes through as it
is. -/
theorem misuse_of_manifest {fault : Fault} (h : s.manifest = .error fault) :
    ∃ misuse, fault = .misuse misuse := by
  rw [manifest_eq_bind] at h
  -- The metadata section is checked first, so its fault is the one reported if both are unwritable.
  cases hmetadata : writable .wrongType (s.raw.getD (.text "metadata") (.map [])) with
  | error metadataFault =>
    rw [hmetadata] at h
    obtain rfl := Except.error.inj h
    exact ⟨_, misuse_of_writable hmetadata⟩
  | ok keptMetadata =>
    rw [hmetadata] at h
    let kept := s.raw.getD (.text "spec") (.map [])
    cases hspec : writable (specMisuse s.selector kept) kept with
    | error specFault =>
      simp only [bind, Except.bind, kept, hspec] at h
      obtain rfl := Except.error.inj h
      exact ⟨_, misuse_of_writable hspec⟩
    | ok keptSpec =>
      simp only [bind, Except.bind, kept, hspec] at h
      cases h

end Service

/-- **What is read can be written, but for hollow sections.** A service that was read from
a manifest is written, as it is and brought in line with any other, exactly if neither
section of the manifest is hollow. Otherwise writing it is a misuse. Reading takes any
section that counts as false for an empty one; writing starts an empty one only where the
section is missing. -/
theorem readable_writes_iff {m : Fields} {s : Service} (h : Service.ofManifest (.map m) = .ok s)
    (desired : Service) :
    ∀ t ∈ [s, (s.compare desired).patched],
      ((∃ body, t.manifest = .ok body) ↔ ¬m.Hollow "metadata" ∧ ¬m.Hollow "spec")
      ∧ ∀ fault, t.manifest = .error fault → ∃ misuse, fault = .misuse misuse := by
  obtain ⟨m', md, sp, hm, hread⟩ := Service.ofManifest_eq_ok_iff.mp h
  obtain rfl : m = m' := Value.map.inj hm
  intro t ht
  -- bringing a service in line keeps what it was read from
  have hraw : t.raw = m := by
    simp only [List.mem_cons, List.not_mem_nil, or_false] at ht
    rcases ht with rfl | rfl <;> exact hread.raw
  have hmetadata : (∃ kept, t.Keeps "metadata" kept) ↔ ¬m.Hollow "metadata" := by
    unfold Service.Keeps
    rw [hraw]
    exact Fields.kept_iff_of_part hread.metadata
  have hspec : (∃ kept, t.Keeps "spec" kept) ↔ ¬m.Hollow "spec" := by
    unfold Service.Keeps
    rw [hraw]
    exact Fields.kept_iff_of_part hread.spec
  refine ⟨?_, fun fault hfault => Service.misuse_of_manifest hfault⟩
  rw [t.exists_manifest_iff, hmetadata, hspec]

/-- A manifest whose metadata name nothing; it has no specification. -/
def bareManifest : Fields := [("metadata", .map [("labels", .null), ("ownerReferences", .list [])])]

/-- A manifest without a specification can be written back: there the program starts an
empty one. -/
theorem readable_writes_bare :
    ∃ s, Service.ofManifest (.map bareManifest) = .ok s
      ∧ (s.compare Wanted.sample.service).changed = true
      ∧ (∃ body, s.manifest = .ok body)
      ∧ ∃ body, (s.compare Wanted.sample.service).patched.manifest = .ok body := by
  have hsolid : ¬bareManifest.Hollow "metadata" ∧ ¬bareManifest.Hollow "spec" := by
    simp [Fields.Hollow, bareManifest, Fields.get?]
  obtain ⟨s, hread, hchanged⟩ : ∃ s, Service.ofManifest (.map bareManifest) = .ok s
      ∧ (s.compare Wanted.sample.service).changed = true := ⟨_, rfl, by decide⟩
  have hwrites := readable_writes_iff hread Wanted.sample.service
  exact ⟨s, hread, hchanged, (hwrites s (by simp)).1.mpr hsolid, (hwrites _ (by simp)).1.mpr hsolid⟩

/-- A manifest whose metadata or specification is null is read, and cannot be written. -/
theorem null_section_unwritable :
    ∃ s t, Service.ofManifest (.map [("metadata", .null)]) = .ok s
      ∧ s.manifest = .error (.misuse .wrongType)
      ∧ (s.compare Wanted.sample.service).patched.manifest = .error (.misuse .wrongType)
      ∧ Service.ofManifest (.map [("spec", .null)]) = .ok t
      ∧ t.manifest = .error (.misuse .notAMap) := by
  refine ⟨_, _, rfl, ?_, ?_, rfl, ?_⟩ <;> rfl

end Keeper
