import Keeper.Proofs.Drift
import Keeper.Proofs.Version

/-!
# Keeper — the manifest of the managed service

What a store holds for the service that is wanted, before a write and after it.

* **`Fields.Describes`**, **`Wanted.Manages`** — a manifest that can be managed.
* **`storedVersion_written`** — a service is written back in the version it was read with.
* **`Marks`**, **`Marks.holds`**, **`Marks.given`** — what the store adds to what it is sent, and that
  what is stored then holds what is wanted.
* **`holds_created`**, **`Manages.holds_patched`** — the two writes.
* **`Wanted.bare`** — the least a manifest says.
-/

namespace Keeper

open Cluster (created succeeding storedVersion fieldsAt nextVersion Versioned withMetadata)
open Json (Document plainFields?)

/-- A manifest holds what is wanted if the service it is read as is settled. -/
def Wanted.Holds (w : Wanted) (m : Fields) : Prop :=
  ∃ s, Service.ofManifest (.map m) = .ok s ∧ w.Settled s

/-- A manifest describes a service that is stored under a namespace and a name: its
sections, and the service it is read as. -/
structure Fields.Describes (m md sp : Fields) (space name : Text) (s : Service) : Prop where
  metadata : Fields.get? m (.text "metadata") = some (.map md)
  spec : Fields.get? m (.text "spec") = some (.map sp)
  distinctMetadata : md.Distinct
  distinctSpec : sp.Distinct
  space : Fields.get? md (.text "namespace") = some (.text space)
  name : Fields.get? md (.text "name") = some (.text name)
  read : Service.ofManifest (.map m) = .ok s

/-- A manifest of the managed service, in a version that can be counted. -/
structure Wanted.Manages (w : Wanted) (m md sp : Fields) (s : Service) : Prop
    extends m.Describes md sp w.space w.name s where
  versioned : Versioned m

/-! ## The version that is written back -/

theorem storedVersion_eq {m md : Fields}
    (hmd : Fields.get? m (.text "metadata") = some (.map md)) :
    storedVersion m = md.getD "resourceVersion" .null := by
  simp only [storedVersion, fieldsAt]
  rw [show Fields.get? m (Scalar.text "metadata") = _ from hmd]

/-- The version a service is read with; none is read as an empty one. An empty text is
read like none, but nothing is written back for it, so the second part leaves it out. -/
theorem resourceVersion_eq {s : Service} {m md sp : Fields} (hread : s.ReadFrom m md sp)
    (hmd : Fields.get? m (.text "metadata") = some (.map md)) :
    (storedVersion m = .null → s.resourceVersion = "")
      ∧ ∀ t : Text, t ≠ "" → storedVersion m = .text t → s.resourceVersion = t := by
  have hversion := hread.resourceVersion
  rw [storedVersion_eq hmd]
  constructor
  · intro hnull
    rw [Fields.textOr, show md.getD (.text "resourceVersion") .null = .null from hnull] at hversion
    exact (Except.ok.inj hversion).symm
  · intro t hne ht
    -- a text that is not empty is read as itself
    have htrue : (Value.text t).truthy = true := by
      simp [Value.truthy, Scalar.truthy, (Text.isEmpty_eq_false_iff t).mpr hne]
    rw [Fields.textOr, show md.getD (.text "resourceVersion") .null = .text t from ht, Value.orElse,
      if_pos htrue] at hversion
    exact (Except.ok.inj hversion).symm

/-- A service writes back the version that it was read with, or that there was none. The
server compares the two, so an update that is made from what was read is accepted if
nobody has written in between. -/
theorem storedVersion_written {s p : Service} {m md sp : Fields} (hread : s.ReadFrom m md sp)
    (hmd : Fields.get? m (.text "metadata") = some (.map md)) (hdistinct : md.Distinct)
    (hp : p.resourceVersion = s.resourceVersion)
    (hversion : storedVersion m = .null ∨ ∃ t : Text, storedVersion m = .text t ∧ t ≠ "") :
    storedVersion (p.written md sp) = storedVersion m := by
  -- the version is written if it is not empty, and taken away if it is
  have hwritten : storedVersion (p.written md sp)
      = (Service.text? s.resourceVersion).getD .null := by
    have hmetadata : Fields.get? (p.written md sp) (.text "metadata") = some (.map (p.metadata md)) := by
      simp [p.get?_written]
    rw [storedVersion_eq hmetadata]
    show (Fields.get? (p.metadata md) (.text "resourceVersion")).getD .null = _
    rw [p.get?_metadata hdistinct, if_pos rfl, hp]
  have hread := resourceVersion_eq hread hmd
  rw [hwritten]
  rcases hversion with hnull | ⟨t, ht, hne⟩
  · rw [hread.1 hnull, hnull]
    rfl
  · rw [hread.2 t hne ht, ht, Service.text?, if_neg]
    · rfl
    · rw [Text.isEmpty_eq_true_iff]
      exact hne

namespace Fields.Describes

variable {m md sp : Fields} {space name : Text} {s : Service}

theorem readFrom (h : m.Describes md sp space name s) : s.ReadFrom m md sp :=
  Service.readFrom_of_sections h.metadata h.spec h.read

theorem service_space (h : m.Describes md sp space name s) : s.space = .text space := by
  obtain ⟨t, ht, hspace⟩ := h.readFrom.space
  rw [Fields.getD_of_get? h.space, Value.shown_text] at ht
  rw [hspace, Except.ok.inj ht]

theorem service_name (h : m.Describes md sp space name s) : s.name = .text name := by
  obtain ⟨t, ht, hname⟩ := h.readFrom.name
  rw [Fields.getD_of_get? h.name, Value.shown_text] at ht
  rw [hname, Except.ok.inj ht]

/-- What is patched to agree with any other service is written over the sections it was
read from. -/
theorem manifest_patched (h : m.Describes md sp space name s) (desired : Service) :
    (s.compare desired).patched.manifest = .ok ((s.compare desired).patched.written md sp) := by
  have hraw : (s.compare desired).patched.raw = m := h.readFrom.raw
  exact Service.manifest_of_sections (hraw ▸ h.metadata) (hraw ▸ h.spec)

/-- An update is sent in the version that was read, since the comparison takes no version
over. -/
theorem storedVersion_patched (h : m.Describes md sp space name s) (desired : Service)
    (hversion : storedVersion m = .null ∨ ∃ t : Text, storedVersion m = .text t ∧ t ≠ "") :
    storedVersion ((s.compare desired).patched.written md sp) = storedVersion m :=
  storedVersion_written h.readFrom h.metadata h.distinctMetadata rfl hversion

end Fields.Describes

/-! ## What is stored by a write

The store marks what it is sent: with the first version and an identity, or with the next version.
What it was sent from a settled service holds what is wanted, as it is stored and as JSON gives it. -/

/-- The properties of services that follow are not about the version, and not about what a
service was read from. So they stay when the store counts up. -/
theorem Service.Regular.withVersion {s : Service} (h : s.Regular) (version : Text) :
    { s with resourceVersion := version }.Regular :=
  ⟨h.space, h.name, h.owners, h.ports, h.type⟩

theorem Service.Documented.withVersion {s : Service} (h : s.Documented) (version : Text) :
    { s with resourceVersion := version }.Documented :=
  ⟨h.labels, h.annotations, h.ports⟩

theorem Wanted.Settled.withVersion {w : Wanted} {s : Service} (h : w.Settled s) (version : Text) :
    w.Settled { s with resourceVersion := version } :=
  ⟨h.owners, h.ports, h.selector, h.type, h.annotations⟩

theorem Wanted.Settled.withRaw {w : Wanted} {s : Service} (h : w.Settled s) (raw : Fields) :
    w.Settled { s with raw } :=
  ⟨h.owners, h.ports, h.selector, h.type, h.annotations⟩

/-- The entries with which a store marks a manifest, and the version among them. -/
inductive Marks : List (Scalar × Value) → Text → Prop where
  | first : Marks [("resourceVersion", .text "1"), ("uid", .text "svc-uid")] "1"
  | next (version : Text) (h : version.Decimal) : Marks [("resourceVersion", .text version)] version

namespace Marks

variable {entries : List (Scalar × Value)} {version : Text}

theorem version_ne_empty (h : Marks entries version) : version ≠ "" := by
  cases h with
  | first => decide
  | next version h => exact h.ne_empty

/-- Digits are characters, so JSON gives a version back. -/
theorem joined (h : Marks entries version) : version.Joined := by
  cases h with
  | first => exact Text.joined_ofString "1"
  | next version h => exact h.joined

/-- The version is the one that was set, whatever else was. -/
theorem get?_version (h : Marks entries version) (fs : Fields) :
    Fields.get? (fs.setAll entries) (.text "resourceVersion") = some (.text version) := by
  cases h <;> simp [Fields.setAll_cons, Fields.setAll_nil, Fields.get?_set]

theorem get?_other (h : Marks entries version) (fs : Fields) {t : Text}
    (hversion : t ≠ "resourceVersion") (huid : t ≠ "uid") :
    Fields.get? (fs.setAll entries) (.text t) = Fields.get? fs (.text t) := by
  cases h <;> simp [Fields.setAll_cons, Fields.setAll_nil, Fields.get?_set, hversion.symm, huid.symm]

/-- The marks are texts at names, and JSON gives them back. -/
theorem joined_entries (h : Marks entries version) :
    ∀ e ∈ entries, ∃ t t' : Text, e = (.text t, .text t') ∧ t.Joined ∧ t'.Joined := by
  have hjoined := h.joined
  cases h with
  | first =>
    simp only [List.mem_cons, List.not_mem_nil, or_false, forall_eq_or_imp, forall_eq]
    exact ⟨⟨_, _, rfl, by simp, hjoined⟩, ⟨_, _, rfl, by simp, by simp⟩⟩
  | next version h =>
    simp only [List.mem_cons, List.not_mem_nil, or_false, forall_eq]
    exact ⟨_, _, rfl, by simp, hjoined⟩

/-- What is stored is in the version that was set. -/
theorem storedVersion (h : Marks entries version) (m : Fields) :
    Cluster.storedVersion (withMetadata m entries) = .text version := by
  have hmetadata : Fields.get? (withMetadata m entries) (.text "metadata")
      = some (.map (Fields.setAll (fieldsAt m "metadata") entries)) := by
    simp [withMetadata, Fields.get?_set]
  rw [storedVersion_eq hmetadata]
  exact Fields.getD_of_get? (h.get?_version _) _

variable {w : Wanted} {p : Service} {md sp : Fields}

theorem shown (h : Marks entries version) (hmd : md.Distinct) (hsp : sp.Distinct) :
    { p with resourceVersion := version }.Shown (withMetadata (p.written md sp) entries)
      ((p.metadata md).setAll entries) (p.spec sp) :=
  (p.shown_written hmd hsp).withMetadata h.version_ne_empty (h.get?_version _)
    fun _ hversion huid => h.get?_other _ hversion huid

/-- A mark is a text, which goes no deeper than any other field. -/
theorem shallow (h : Marks entries version) {m : Fields}
    (hm : (Value.map m).copiesIn copyLimit = true) :
    (Value.map (withMetadata m entries)).copiesIn copyLimit = true := by
  rw [copyLimit_eq] at hm ⊢
  have hmetadata : (Value.map (fieldsAt m "metadata")).copiesIn (spareLevels + 4) = true := by
    unfold fieldsAt
    split
    next heq => exact Value.copiesIn_get? hm heq
    next => rfl
  have hentries : ∀ e ∈ entries, e.2.copiesIn (spareLevels + 3) = true := by
    cases h <;> simp
  exact Value.copiesIn_set hm _ (Value.copiesIn_setAll hmetadata hentries)

/-- So a store that takes a settled service holds it settled: what is read there later is
the service as it was written, but for the version. -/
theorem holds (h : Marks entries version) (hmd : md.Distinct) (hsp : sp.Distinct)
    (hregular : p.Regular) (hshallow : (Value.map (p.written md sp)).copiesIn copyLimit = true)
    (hsettled : w.Settled p) : w.Holds (withMetadata (p.written md sp) entries) :=
  ⟨_, Service.ofManifest_of_shown (hregular.withVersion version) (h.shown hmd hsp)
    (h.shallow hshallow), (hsettled.withVersion version).withRaw _⟩

/-- JSON gives it back, and what it gives back holds what is wanted too. -/
theorem given (h : Marks entries version) (hw : w.Joined) (hcounted : w.Counted)
    (hregular : p.Regular) (hshallow : (Value.map (p.written md sp)).copiesIn copyLimit = true)
    (hsettled : w.Settled p) (hdocumented : p.Documented) (halone : w.Unmistakable p)
    (hspace : p.space = .text w.space) (hname : p.name = .text w.name)
    (hversion : p.resourceVersion.Joined) (hraw : Document (.map p.raw))
    (hmd : Document (.map md)) (hsp : Document (.map sp)) :
    ∃ m', plainFields? (withMetadata (p.written md sp) entries) = some m' ∧ w.Holds m' := by
  -- what is sent can be carried, and the store adds only what can be
  have hbefore : p.Carriable := hsettled.carriable hw hcounted hregular hdocumented hspace hname hversion
  have hafter : Service.Carriable { p with resourceVersion := version } :=
    (hsettled.withVersion version).carriable hw hcounted (hregular.withVersion version)
      (hdocumented.withVersion version) hspace hname h.joined
  have hsendable := (Service.sendable_written hbefore hraw hmd hsp).withMetadata
    (by simp [p.get?_written]) h.joined_entries
  obtain ⟨m', md', sp', hplain, hshown⟩ :=
    (h.shown hmd.named.distinct hsp.named.distinct).plain hafter hsendable
  -- it is settled still when JSON has carried it
  have hcarried : w.Settled (Service.carried { p with resourceVersion := version }) :=
    (hsettled.withVersion version).carried hw (hdocumented.withVersion version) halone
  -- and what JSON gives back goes no deeper than what it was given
  have hgiven : (Value.map m').copiesIn copyLimit = true :=
    Json.copiesIn_of_plain? ((Json.plain?_map _).trans (by rw [hplain]; rfl)) (h.shallow hshallow)
  refine ⟨m', hplain, _, Service.ofManifest_of_shown ?_ hshown hgiven, hcarried.withRaw m'⟩
  exact ⟨hregular.space, hregular.name, hregular.owners, hregular.ports, hregular.type⟩

end Marks

/-! ## What JSON could write

A settled service has the wanted numbers in its port, so JSON can write these if it can write what is
stored. -/

/-- A port that agrees with the wanted one has its numbers. If its manifest could be
written, so can they: a number of more digits than are written would be an obstacle
there. -/
theorem Port.Regular.counted_of_writable {w : Wanted} {p : Port} (hregular : p.Regular)
    (hagrees : portAgrees p w.binding = true) (hwritable : Json.Writable (.map p.manifest)) :
    w.Counted := by
  have hnumber {t : Text} {i : Int} (ht : .text t ∈ Port.modelled)
      (hi : Fields.get? p.written (.text t) = some (.int i)) : (Scalar.int i).isWritable = true := by
    rw [← Port.get?_manifest hregular ht] at hi
    have hmem := Fields.mem_of_get? hi
    exact (Json.writable_int_iff i).mp ((Json.writable_map_iff _).mp hwritable _ hmem).2
  -- the number itself is compared as it is, the target only as a number
  simp only [portAgrees, Bool.and_eq_true] at hagrees
  obtain ⟨⟨⟨-, hport⟩, htarget⟩, -⟩ := hagrees
  refine ⟨?_, ?_⟩
  · obtain ⟨i, hi⟩ := hregular.port
    rw [hi] at hport
    obtain rfl := (Value.eqv_int i w.port).mp hport
    exact hnumber (t := "port") (by simp [Port.modelled]) (by simp [p.get?_written, hi])
  · -- a target that is no integer counts as a small one
    change p.targetNumber.eqv (.int w.target) = true at htarget
    have hother {j : Int} (hsmall : j.natAbs < 10) (hj : (Value.int j).eqv (.int w.target) = true) :
        (Scalar.int w.target).isWritable = true := by
      rw [← (Value.eqv_int j w.target).mp hj]
      exact Wanted.isWritable_of_digit hsmall
    unfold Port.targetNumber at htarget
    split at htarget
    next i hi =>
      obtain rfl := (Value.eqv_int i w.target).mp htarget
      exact hnumber (t := "targetPort") (by simp [Port.modelled]) (by simp [p.get?_written, hi])
    next b _ => exact hother (j := b.toInt) (by cases b <;> decide) htarget
    next => exact hother (j := 0) (by decide) htarget

/-- So the numbers are known to be short enough as soon as JSON has carried anything
settled. -/
theorem Wanted.Settled.counted {w : Wanted} {p : Service} {md sp : Fields}
    {entries : List (Scalar × Value)} (h : w.Settled p) (hregular : p.Regular)
    (hwritable : Json.Writable (.map (withMetadata (p.written md sp) entries))) : w.Counted := by
  -- the port is followed down into the manifest: what can be written as a whole can be written in its
  -- parts
  have hget {fs : Fields} {t : Text} {v : Value} (hfs : Json.Writable (.map fs))
      (hv : Fields.get? fs (.text t) = some v) : Json.Writable v :=
    ((Json.writable_map_iff fs).mp hfs _ (Fields.mem_of_get? hv)).2
  have hspec := hget (t := "spec") (v := .map (p.spec sp)) hwritable
    (by simp [withMetadata, Fields.get?_set, p.get?_written])
  have hports := hget (t := "ports") (v := .list (p.ports.map fun q => .map q.manifest)) hspec
    (by simp [Service.spec, Fields.get?_set])
  obtain ⟨q, hq, hagrees⟩ := h.ports
  have hmem : q ∈ p.ports := by simp [hq]
  exact (hregular.ports q hmem).counted_of_writable hagrees
    ((Json.writable_list_iff _).mp hports _ (List.mem_map_of_mem hmem))

/-! ## Creation -/

namespace Wanted

variable {w : Wanted} {m md sp : Fields} {s : Service} {version : Text}

/-- The desired service was read from nothing, so it is written over nothing. -/
theorem manifest_service (w : Wanted) : w.service.manifest = .ok (w.service.written [] []) :=
  Service.manifest_eq rfl rfl

/-- The desired service names itself where the store looks for its name. -/
theorem name_written (w : Wanted) :
    Fields.get? (fieldsAt (w.service.written [] []) "metadata") (.text "name")
      = some (.text w.name) := by
  have hmetadata : fieldsAt (w.service.written [] []) "metadata" = w.service.metadata [] := by
    simp [fieldsAt, w.service.get?_written]
  rw [hmetadata, w.service.get?_metadata .nil]
  rfl

/-- The desired service has not drifted from itself. -/
theorem settled_service (w : Wanted) : w.Settled w.service where
  owners := ⟨_, rfl, by simp [OwnerReference.eqv, OwnerIdentity.reference, owner]⟩
  ports := ⟨_, rfl, by simp [portAgrees, Port.targetNumber, binding]⟩
  selector := rfl
  type := rfl
  annotations := ⟨_, rfl, by simp [Fields.get?]⟩

/-- It is made of the texts that are wanted, the two port numbers and constants; so it is
enough to ask for those. -/
theorem documented_service (hw : w.Joined) (hcounted : w.Counted) : w.service.Documented where
  labels := fun fs hfs => by
    obtain rfl := Option.some.inj hfs
    exact (document_label hw).writable
  annotations := fun fs hfs => by
    obtain rfl := Option.some.inj hfs
    have hdocument : Document (.map [(.text w.certKey, .text w.secret)]) :=
      (Json.document_map_iff _).mpr ⟨⟨by simp [hw.certKey], by simp [Fields.Distinct]⟩,
        by simp [hw.secret]⟩
    exact ⟨hdocument.named.distinct, hdocument.writable⟩
  -- the service has one port, the wanted binding
  ports := fun p hp => by
    obtain rfl : p = w.binding := by simpa [service] using hp
    exact ⟨(Json.document_map_iff _).mpr ⟨.nil, by simp [binding]⟩,
      .inr ((Json.document_int_iff w.target).mpr hcounted.target)⟩

/-- It has one annotation, with which no other can be confused. -/
theorem unmistakable_service (w : Wanted) : w.Unmistakable w.service := by
  intro fs hfs k hk _
  obtain rfl := Option.some.inj hfs
  simpa using hk

theorem shallow_written (w : Wanted) :
    (Value.map (w.service.written [] [])).copiesIn copyLimit = true :=
  w.shallow_service.written w.regular_service rfl rfl

/-- What is stored by a creation is settled. -/
theorem holds_created (w : Wanted) : w.Holds (created (w.service.written [] [])) :=
  Marks.first.holds .nil .nil w.regular_service w.shallow_written w.settled_service

/-- And it is given so over requests, if JSON carries what is wanted. -/
theorem given_created (hw : w.Joined) (hcounted : w.Counted) :
    ∃ m', plainFields? (created (w.service.written [] [])) = some m' ∧ w.Holds m' := by
  have hempty : Document (.map []) := (Json.document_map_iff []).mpr ⟨.nil, by simp⟩
  exact Marks.first.given hw hcounted w.regular_service w.shallow_written w.settled_service
    (documented_service hw hcounted) w.unmistakable_service rfl rfl (by simp [service]) hempty hempty hempty

/-! ## Update -/

namespace Manages

theorem storedVersion_patched (h : w.Manages m md sp s) :
    storedVersion ((s.compare w.service).patched.written md sp) = storedVersion m :=
  h.toDescribes.storedVersion_patched w.service
    (h.versioned.imp_right fun ⟨t, ht, hdecimal⟩ => ⟨t, ht, hdecimal.ne_empty⟩)

/-- What is written over the manifest that was read can be copied as that one could. -/
theorem shallow_patched (h : w.Manages m md sp s) :
    (Value.map ((s.compare w.service).patched.written md sp)).copiesIn copyLimit = true := by
  have hs := h.readFrom.fields_shallow
  have hraw : s.raw = m := h.readFrom.raw
  have hsection {key : Text} {kept : Fields} (hkept : Fields.get? m (.text key) = some (.map kept)) :
      (Value.map kept).copiesIn (spareLevels + 4) = true :=
    hs.keeps (Fields.getD_of_get? (hraw ▸ hkept) _)
  exact (hs.patched w.shallow_service).written (h.readFrom.regular.patched w.regular_service)
    (hsection h.metadata) (hsection h.spec)

/-- What is stored by an update is settled, whatever had drifted. -/
theorem holds_patched (h : w.Manages m md sp s) (hversion : version.Decimal) :
    w.Holds (withMetadata ((s.compare w.service).patched.written md sp)
      [("resourceVersion", .text version)]) :=
  (Marks.next version hversion).holds h.distinctMetadata h.distinctSpec
    (h.readFrom.regular.patched w.regular_service) h.shallow_patched (w.settled_patched s)

/-- And it is given so over requests, if JSON carries what is wanted and what was stored
is a document in which no annotation is mistaken for the wanted one. -/
theorem given_patched (h : w.Manages m md sp s) (hw : w.Joined) (hcounted : w.Counted)
    (hm : Document (.map m)) (halone : w.Unmistakable s) (hversion : version.Decimal) :
    ∃ m', plainFields? (withMetadata ((s.compare w.service).patched.written md sp)
      [("resourceVersion", .text version)]) = some m' ∧ w.Holds m' := by
  have hraw : (s.compare w.service).patched.raw = m := h.readFrom.raw
  -- the version that was read is none or decimal, so JSON gives it back
  have hkept : s.resourceVersion.Joined := by
    have hread := resourceVersion_eq h.readFrom h.metadata
    rcases h.versioned with hnull | ⟨t, ht, hdecimal⟩
    · rw [hread.1 hnull]
      simp
    · rw [hread.2 t hdecimal.ne_empty ht]
      exact hdecimal.joined
  exact (Marks.next version hversion).given hw hcounted
    (h.readFrom.regular.patched w.regular_service) h.shallow_patched (w.settled_patched s)
    (documented_patched hw hcounted (h.readFrom.documented hm))
    (unmistakable_patched halone) h.service_space h.service_name hkept (hraw ▸ hm)
    (hm.get? h.metadata) (hm.get? h.spec)

end Manages

/-! ## Bare manifests

The least that a manifest of the managed service says. -/

/-- The metadata of a bare manifest: the names of the service, and more. -/
def bareMetadata (w : Wanted) (more : Fields) : Fields :=
  (.text "namespace", .text w.space) :: (.text "name", .text w.name) :: more

/-- A manifest that says nothing about the service but its names, and has some more
metadata. -/
def bare (w : Wanted) (more : Fields) : Fields :=
  [(.text "metadata", .map (w.bareMetadata more)), (.text "spec", .map [])]

/-- A bare manifest is one to manage: it has the names and at most a version. -/
theorem manages_bare (w : Wanted) {more : Fields} {s : Service}
    (hdistinct : (w.bareMetadata more).Distinct) (hread : Service.ofManifest (.map (w.bare more)) = .ok s)
    (hversioned : Versioned (w.bare more)) : w.Manages (w.bare more) (w.bareMetadata more) [] s where
  metadata := by simp [bare, Fields.get?]
  spec := by simp [bare, Fields.get?]
  distinctMetadata := hdistinct
  distinctSpec := .nil
  space := by simp [bareMetadata, Fields.get?]
  name := by simp [bareMetadata, Fields.get?]
  read := hread
  versioned := hversioned

/-- A bare manifest is read as its names and its version, which may be any text. -/
theorem ofManifest_bare (w : Wanted) {version : Text} (hversion : version ≠ "") :
    Service.ofManifest (.map (w.bare [(.text "resourceVersion", .text version)]))
      = .ok {
          space := w.space, name := w.name, resourceVersion := version
          raw := w.bare [(.text "resourceVersion", .text version)] } :=
  Service.ofManifest_eq_ok_iff.mpr ⟨_, w.bareMetadata _, [], rfl, {
    metadata := rfl, spec := rfl, space := ⟨_, rfl, rfl⟩, name := ⟨_, rfl, rfl⟩, labels := rfl
    annotations := rfl, owners := rfl, selector := rfl, type := rfl, clusterIP := rfl, ports := rfl
    resourceVersion := Fields.textOr_of_text rfl hversion _, raw := rfl, shallow := rfl }⟩

theorem joined_sample : sample.Joined := by
  constructor <;> simp [sample]

theorem counted_sample : sample.Counted := by
  constructor <;> decide +kernel

/-- A bare manifest of the sample. -/
def bareSample : Fields := sample.bare [(.text "resourceVersion", .text "7")]

theorem document_bareSample : Document (.map bareSample) := by decide +kernel

theorem manages_bareSample : ∃ md s, sample.Manages bareSample md [] s ∧ s.annotations = none := by
  obtain ⟨s, hread, hannotations⟩ :
    ∃ s, Service.ofManifest (.map bareSample) = .ok s ∧ s.annotations = none := ⟨_, rfl, rfl⟩
  refine ⟨_, s, sample.manages_bare (by decide) hread ?_, hannotations⟩
  exact .inr ⟨"7", rfl, ['7'], rfl, by decide, List.forall_mem_singleton.mpr (by decide)⟩

end Wanted

end Keeper
