import Keeper.Proofs.Origin

/-!
# Keeper — services, written and read back

A service that can be written is read back as itself, and writes the same manifest again: each field
that it writes stands in its place already.

* **`Fields.put_of_get?`** — writing what is there changes nothing.
* **`Shown.metadata_eq`**, **`Shown.spec_eq`**, **`Shown.manifest_eq`** — over a manifest that shows
  it, a service writes that manifest.
* **`Regular.reread`**, **`Obtained.reread`** — what a service writes, how it is read, and what that
  writes.
* **`obtained_service_rereads`** — every service that comes about is read back as it was written.
* **`comparison_settles`** — a service that was brought in line has no drift, before and after it is
  written and read.
-/

namespace Keeper

/-! ## Writing what is there -/

namespace Fields

variable {fs : Fields} {name : Text}

/-- To set what is there already changes nothing. The lemmas of this section say so for
each way of writing to fields. -/
theorem set_of_get? {v : Value} (h : get? fs (.text name) = some v) : set fs (.text name) v = fs := by
  induction fs with
  | nil => cases h
  | cons e rest ih =>
    obtain ⟨k, w⟩ := e
    rw [get?_cons_text] at h
    -- Setting what is already there changes nothing: it meets the same first entry as reading does.
    by_cases hk : k = .text name
    · obtain rfl : w = v := by simpa [hk] using h
      simp [set, hk]
    · simp [set, hk, ih (by simpa [hk] using h)]

/-- To erase what is not there changes nothing. -/
theorem erase_of_get? (h : get? fs (.text name) = none) : erase fs (.text name) = fs := by
  induction fs with
  | nil => rfl
  | cons e rest ih =>
    obtain ⟨k, w⟩ := e
    rw [get?_cons_text] at h
    by_cases hk : k = .text name
    · simp [hk] at h
    · simp [erase, hk, ih (by simpa [hk] using h)]

/-- To put a value, or none, where it is already changes nothing. -/
theorem put_of_get? {v : Option Value} (h : get? fs (.text name) = v) : fs.put name v = fs := by
  cases v with
  | none => exact erase_of_get? h
  | some v => exact set_of_get? h

/-- So it is with several values, by induction on them. -/
theorem putAll_of_get? {es : List (Text × Option Value)}
    (h : ∀ e ∈ es, get? fs (.text e.1) = e.2) : fs.putAll es = fs :=
  putAll_induction (P := fun gs => gs = fs)
    (fun gs hgs e he => by rw [hgs, put_of_get? (h e he)]) rfl

/-- And with several that are all there. -/
theorem setAll_of_get? {es : List (Scalar × Value)}
    (h : ∀ e ∈ es, ∃ t : Text, e.1 = .text t ∧ get? fs (.text t) = some e.2) : fs.setAll es = fs := by
  induction es with
  | nil => rfl
  | cons e rest ih =>
    obtain ⟨k, v⟩ := e
    obtain ⟨⟨t, rfl, ht⟩, hrest⟩ := List.forall_mem_cons.mp h
    rw [setAll_cons, set_of_get? ht]
    exact ih hrest

end Fields

namespace Service

variable {s : Service} {m md sp : Fields}

theorem Shown.metadata_eq (h : s.Shown m md sp) : s.metadata md = md := by
  rw [metadata_eq_putAll]
  refine Fields.putAll_of_get? ?_
  simp only [metadataEntries, List.forall_mem_cons]
  exact ⟨h.name, h.space, h.labels, h.annotations, h.owners, h.resourceVersion, by simp⟩

theorem Shown.spec_eq (h : s.Shown m md sp) : s.spec sp = sp := by
  rw [spec_eq_putAll]
  refine Fields.putAll_of_get? ?_
  simp only [specEntries, List.forall_mem_cons]
  exact ⟨h.selector, h.type, h.clusterIP, h.ports, by simp⟩

/-- Over a manifest that shows a service and has its heading, the service writes that
manifest. -/
theorem Shown.manifest_eq (h : s.Shown m md sp) (hheading : m.setAll heading = m) :
    { s with raw := m }.manifest = .ok m := by
  have hsections : { s with raw := m }.written md sp
      = (m.setAll heading).setAll
          [(.text "metadata", .map (s.metadata md)), (.text "spec", .map (s.spec sp))] := rfl
  rw [manifest_of_sections h.metadata h.spec, hsections, hheading, h.metadata_eq, h.spec_eq]
  exact congrArg Except.ok (Fields.setAll_of_get? (by simp [h.metadata, h.spec]))

theorem heading_written (s : Service) (keptMetadata keptSpec : Fields) :
    (s.written keptMetadata keptSpec).setAll heading = s.written keptMetadata keptSpec :=
  Fields.setAll_of_get? (by simp [heading, get?_written])

/-- What a service writes over two sections is read back as it, and written once more as
it is. -/
theorem Regular.reread (h : s.Regular) (hshallow : s.Shallow) (hmetadata : s.Keeps "metadata" md)
    (hspec : s.Keeps "spec" sp) (hmd : md.Distinct) (hsp : sp.Distinct) :
    s.manifest = .ok (s.written md sp)
      ∧ ofManifest (.map (s.written md sp)) = .ok { s with raw := s.written md sp }
      ∧ { s with raw := s.written md sp }.manifest = .ok (s.written md sp) := by
  have hshown := s.shown_written hmd hsp
  have hwritten := hshallow.written h (hshallow.keeps hmetadata) (hshallow.keeps hspec)
  exact ⟨Service.manifest_eq hmetadata hspec, ofManifest_of_shown h hshown hwritten,
    hshown.manifest_eq (s.heading_written md sp)⟩

end Service

/-! ## Ordinary values, written -/

/-- An owner reference of ordinary values is written as one. Ordinary values are those
that JSON and the store give back as they are. -/
theorem OwnerReference.ordinary_manifest {r : OwnerReference} (h : r.Ordinary) :
    (Value.map r.manifest).ordinary = true := by
  have hparts : (Value.map r.parts).ordinary = true := by
    refine (Value.ordinary_map_iff _).mpr ⟨?_, ?_⟩
    · simp [parts, Fields.Apart]
    · simp [parts, h.apiVersion, h.kind, h.name, h.uid, h.controller, h.blockOwnerDeletion]
  exact Value.ordinary_of_sublist hparts r.manifest_sublist

/-- So is a port. -/
theorem Port.ordinary_manifest {p : Port} (h : p.Ordinary) :
    (Value.map p.manifest).ordinary = true := by
  rw [manifest_eq_setAll]
  refine Value.ordinary_setAll h.extra fun e he => ?_
  unfold written at he
  split at he <;> simp only [List.nil_append, List.cons_append, List.mem_cons, List.not_mem_nil,
    or_false] at he
  · rcases he with rfl | rfl | rfl <;> simp [h.port, h.target]
  · rcases he with rfl | rfl | rfl | rfl <;> simp [h.port, h.target]

namespace Service

variable {s : Service} {md sp : Fields}

/-- A text that may be missing is ordinary where it is there. -/
theorem ordinary_of_text? {t : Text} {v : Value} (hv : text? t = some v) : v.ordinary = true := by
  obtain rfl := text?_eq_some hv
  exact Value.ordinary_text t

/-- So is a map that may be missing. -/
theorem ordinary_of_map {fs : Option Fields}
    (h : ∀ gs, fs = some gs → (Value.map gs).ordinary = true) {v : Value}
    (hv : fs.map Value.map = some v) : v.ordinary = true := by
  obtain ⟨gs, hgs, rfl⟩ := Option.map_eq_some_iff.mp hv
  exact h gs hgs

/-- The list of owners is ordinary, reference by reference. -/
theorem Ordinary.ownersValue? (h : s.Ordinary) {v : Value} (hv : s.ownersValue? = some v) :
    v.ordinary = true := by
  unfold Service.ownersValue? at hv
  split at hv
  · cases hv
  · obtain rfl := Option.some.inj hv
    refine (Value.ordinary_list_iff _).mpr fun x hx => ?_
    obtain ⟨r, hr, rfl⟩ := List.mem_map.mp hx
    exact OwnerReference.ordinary_manifest (h.owners r hr)

/-- The metadata of an ordinary service are ordinary, entry by entry, whatever ordinary
ones they were kept in. -/
theorem Ordinary.metadata (h : s.Ordinary) (hkept : (Value.map md).ordinary = true) :
    (Value.map (s.metadata md)).ordinary = true := by
  have hentries : ∀ e ∈ s.metadataEntries, ∀ v, e.2 = some v → v.ordinary = true := by
    simp only [metadataEntries, List.forall_mem_cons, Option.some.injEq, forall_eq']
    exact ⟨h.name, h.space, fun v => ordinary_of_map h.labels, fun v => ordinary_of_map h.annotations,
      fun v => h.ownersValue?, fun v => ordinary_of_text?, by simp⟩
  rw [metadata_eq_putAll]
  exact Fields.putAll_induction (P := fun fs => (Value.map fs).ordinary = true)
    (fun fs hfs e he => Value.ordinary_put hfs e.1 (hentries e he)) hkept

/-- The same of its specification. -/
theorem Ordinary.spec (h : s.Ordinary) (hkept : (Value.map sp).ordinary = true) :
    (Value.map (s.spec sp)).ordinary = true := by
  have hports : (Value.list (s.ports.map fun p => .map p.manifest)).ordinary = true := by
    refine (Value.ordinary_list_iff _).mpr fun x hx => ?_
    obtain ⟨p, hp, rfl⟩ := List.mem_map.mp hx
    exact Port.ordinary_manifest (h.ports p hp)
  -- The section is what was kept with these entries put into it, so it is enough to look at each.
  have hentries : ∀ e ∈ s.specEntries, ∀ v, e.2 = some v → v.ordinary = true := by
    simp only [specEntries, List.forall_mem_cons, Option.some.injEq, forall_eq']
    exact ⟨fun v => ordinary_of_map h.selector, Value.ordinary_text s.type,
      fun v => ordinary_of_text?, hports, by simp⟩
  rw [spec_eq_putAll]
  exact Fields.putAll_induction (P := fun fs => (Value.map fs).ordinary = true)
    (fun fs hfs e he => Value.ordinary_put hfs e.1 (hentries e he)) hkept

theorem Ordinary.written (h : s.Ordinary) (hmd : (Value.map md).ordinary = true)
    (hsp : (Value.map sp).ordinary = true) : (Value.map (s.written md sp)).ordinary = true := by
  have hheaded : (Value.map (s.raw.setAll heading)).ordinary = true :=
    Value.ordinary_setAll h.raw (by simp [heading])
  exact Value.ordinary_setAll hheaded (by simp [h.metadata hmd, h.spec hsp])

/-- The sections that a service keeps are parts of what it was read from. -/
theorem Ordinary.keeps (h : s.Ordinary) {key : Text} {kept : Fields} (hkept : s.Keeps key kept) :
    (Value.map kept).ordinary = true := by
  unfold Keeps at hkept
  rw [← hkept]
  cases hget : Fields.get? s.raw (.text key) with
  | none => simpa [Fields.getD, hget] using Value.ordinary_inherited.empty
  | some v => simpa [Fields.getD, hget] using Value.ordinary_of_get? h.raw hget

/-! ## Services that come about

What a service was read from stays as it is when the service is linked or brought in line, so the
sections that it writes over are those of that manifest. -/

theorem Keeps.patched {key : Text} {kept : Fields} (h : s.Keeps key kept) (d : Service) :
    (s.compare d).patched.Keeps key kept := h

/-- A service that has come about is written into the sections it keeps and read back from
them, as itself. Its raw document is the one that was written. -/
theorem Obtained.reread (h : s.Obtained) (hmetadata : s.Keeps "metadata" md)
    (hspec : s.Keeps "spec" sp) :
    s.manifest = .ok (s.written md sp)
      ∧ ofManifest (.map (s.written md sp)) = .ok { s with raw := s.written md sp }
      ∧ { s with raw := s.written md sp }.manifest = .ok (s.written md sp) := by
  have hmd := (Value.ordinary_map_iff md).mp (h.ordinary.keeps hmetadata)
  have hsp := (Value.ordinary_map_iff sp).mp (h.ordinary.keeps hspec)
  exact h.regular.reread h.shallow hmetadata hspec hmd.1.distinct hsp.1.distinct

end Service

/-- **What is written is read back.** A service that comes about over a manifest with maps
for sections, or without them, writes a manifest. What is read from that is the service
itself, with all of its ports' fields, over what it wrote; and that writes the same
manifest again. However it came about, it is regular and shallow (`Obtained.regular`,
`Obtained.shallow`), and what such a service writes shows it. -/
theorem obtained_service_rereads {s : Service} (hs : s.Obtained) {md sp : Fields}
    (hmetadata : s.Keeps "metadata" md) (hspec : s.Keeps "spec" sp) :
    ∃ m, s.manifest = .ok m
      ∧ Service.ofManifest (.map m) = .ok { s with raw := m }
      ∧ s.eqv { s with raw := m } = true
      ∧ { s with raw := m }.manifest = .ok m
      ∧ (Value.map m).eqv (.map m) = true := by
  obtain ⟨hwritten, hread, hagain⟩ := hs.reread hmetadata hspec
  have hordinary := hs.ordinary.written (hs.ordinary.keeps hmetadata) (hs.ordinary.keeps hspec)
  exact ⟨_, hwritten, hread, Service.eqv_self hs.ordinary, hagain, Value.eqv_self hordinary⟩

/-- Metadata without annotations, but with a version. -/
def crowdedMetadata : Fields :=
  [(.text "name", .text "agent"), (.text "namespace", .text "ops"), (.text "annotations", .null),
    (.text "resourceVersion", .text "7")]

/-- A specification with two ports of one name, one of which has a named target. -/
def crowdedSpec : Fields :=
  [(.text "ports", .list [
    .map [(.text "name", .text "web"), (.text "port", .int 80), (.text "targetPort", .text "http"),
      (.text "nodePort", .int 30080)],
    .map [(.text "name", .text "web"), (.text "port", .int 81)]])]

def crowdedSample : Fields :=
  [(.text "metadata", .map crowdedMetadata), (.text "spec", .map crowdedSpec)]

/-- The sample has what makes rereading hard: ports of one name, a version, and null
annotations. -/
theorem obtained_crowdedSample :
    ∃ s, Service.ofManifest (.map crowdedSample) = .ok s ∧ s.Obtained
      ∧ s.Keeps "metadata" crowdedMetadata ∧ s.Keeps "spec" crowdedSpec := by
  obtain ⟨s, hread, hraw⟩ :
    ∃ s, Service.ofManifest (.map crowdedSample) = .ok s ∧ s.raw = crowdedSample := ⟨_, rfl, rfl⟩
  refine ⟨s, hread, .read (by decide) hread, ?_, ?_⟩
  · rw [Service.Keeps, hraw]
    rfl
  · rw [Service.Keeps, hraw]
    rfl

/-- The crowded service is brought in line with a desired one, written and read back. -/
theorem obtained_service_rereads_crowded :
    ∃ s m, Service.ofManifest (.map crowdedSample) = .ok s
      ∧ (s.compare Wanted.sample.service).patched.manifest = .ok m
      ∧ Service.ofManifest (.map m) = .ok { (s.compare Wanted.sample.service).patched with raw := m }
      ∧ { (s.compare Wanted.sample.service).patched with raw := m }.manifest = .ok m := by
  obtain ⟨s, hread, hs, hmetadata, hspec⟩ := obtained_crowdedSample
  have hdesired := Wanted.obtained_service Wanted.valid_sample
  obtain ⟨m, hwritten, hagain, -, hsame, -⟩ := obtained_service_rereads (.patched hs hdesired)
    (hmetadata.patched _) (hspec.patched _)
  exact ⟨s, m, hread, hwritten, hagain, hsame⟩

/-- **One comparison is enough, also across the wire.** A service that was brought in line
with a desired one has no drift from it: comparing it again gives it back as it is, and so
it is with what is read from what it writes. The first part is `Service.compare_patched`;
the round trip then gives the patched service itself, over another manifest, at which no
comparison looks. -/
theorem comparison_settles {current desired : Service} (hcurrent : current.Obtained)
    (hdesired : desired.Obtained) :
    let p := (current.compare desired).patched
    (p.compare desired).changed = false ∧ (p.compare desired).fields = []
      ∧ (p.compare desired).patched = p ∧ (p.compare desired).patched.eqv p = true
      ∧ ∀ md sp, current.Keeps "metadata" md → current.Keeps "spec" sp →
        ∃ m s, p.manifest = .ok m ∧ Service.ofManifest (.map m) = .ok s
          ∧ (s.compare desired).changed = false ∧ (s.compare desired).fields = [] := by
  intro p
  have hp : p.Obtained := .patched hcurrent hdesired
  have hagain : p.compare desired = { patched := p, fields := [] } :=
    current.compare_patched hdesired.ordinary
  -- A second comparison has nothing left to patch; everything below is read off this.
  rw [hagain]
  refine ⟨rfl, rfl, rfl, Service.eqv_self hp.ordinary, ?_⟩
  intro md sp hmetadata hspec
  obtain ⟨hwritten, hread, -⟩ := hp.reread (hmetadata.patched desired) (hspec.patched desired)
  refine ⟨_, _, hwritten, hread, ?_⟩
  rw [Service.compare_withRaw hagain]
  exact ⟨rfl, rfl⟩

/-- The crowded service settles on a desired one, as it is and as what it writes is
read. -/
theorem comparison_settles_crowded :
    ∃ s m s', Service.ofManifest (.map crowdedSample) = .ok s
      ∧ (s.compare Wanted.sample.service).changed = true
      ∧ ((s.compare Wanted.sample.service).patched.compare Wanted.sample.service).fields = []
      ∧ (s.compare Wanted.sample.service).patched.manifest = .ok m
      ∧ Service.ofManifest (.map m) = .ok s'
      ∧ (s'.compare Wanted.sample.service).fields = [] := by
  obtain ⟨s, hread, hs, hmetadata, hspec⟩ := obtained_crowdedSample
  obtain ⟨-, hsettled, -, -, hwire⟩ :=
    comparison_settles hs (Wanted.obtained_service Wanted.valid_sample)
  obtain ⟨m, s', hwritten, hagain, -, hrests⟩ := hwire _ _ hmetadata hspec
  have hchanged : (s.compare Wanted.sample.service).changed = true := by
    obtain rfl := Except.ok.inj (hread.symm.trans rfl)
    decide
  exact ⟨s, m, s', hread, hchanged, hsettled, hwritten, hagain, hrests⟩

end Keeper
