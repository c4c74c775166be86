import Keeper.Proofs.Drift
import Mathlib.Data.List.Forall2

/-!
# Keeper — what an update leaves as it is

A service that was read and brought in line is written over the manifest it was read from. At each
level of that manifest the names that are modelled are written, and all other keys keep their values:
in the manifest, in its two sections, and in each port.

* **`Fields.AgreeOff`** — two maps that agree at every key but some; writing and removing one of
  those keeps it so.
* **`Port.Rewritten`**, **`Port.rewritten`** — a port, and what is written for it.
* **`Service.Overlaid`** — a manifest, and one that is written over it.
* **`update_overlays`** — the update of a service that was read is written over what was read,
  whatever is desired.
-/

namespace Keeper

namespace Fields

/-! ## Agreement off some keys -/

/-- At every key but the given ones, the second map says what the first one says. -/
def AgreeOff (keys : List Scalar) (fs gs : Fields) : Prop :=
  ∀ key ∉ keys, get? gs key = get? fs key

variable {keys : List Scalar} {fs gs hs : Fields}

/-- Agreement off some keys is a preorder, and so it can be shown for one step of writing
after the other. -/
theorem AgreeOff.refl (keys : List Scalar) (fs : Fields) : AgreeOff keys fs fs := fun _ _ => rfl

theorem AgreeOff.trans (h : AgreeOff keys fs gs) (h' : AgreeOff keys gs hs) : AgreeOff keys fs hs :=
  fun key hkey => (h' key hkey).trans (h key hkey)

/-- To put a value at one of the keys leaves all others. -/
theorem AgreeOff.put (h : AgreeOff keys fs gs) {t : Text} (ht : .text t ∈ keys) (v : Option Value) :
    AgreeOff keys fs (gs.put t v) := by
  intro key hkey
  have hne : key ≠ .text t := fun heq => hkey (heq ▸ ht)
  rw [get?_put_of_ne gs hne]
  exact h key hkey

theorem AgreeOff.set (h : AgreeOff keys fs gs) {t : Text} (ht : .text t ∈ keys) (v : Value) :
    AgreeOff keys fs (gs.set (.text t) v) := h.put ht (some v)

/-- So does any number of values at these keys, by induction on them. -/
theorem AgreeOff.setAll (h : AgreeOff keys fs gs) {es : List (Scalar × Value)}
    (hes : ∀ e ∈ es, e.1 ∈ keys ∧ ∃ t : Text, e.1 = .text t) : AgreeOff keys fs (gs.setAll es) := by
  induction es generalizing gs with
  | nil => exact h
  | cons e rest ih =>
    obtain ⟨k, v⟩ := e
    obtain ⟨⟨hk, t, rfl⟩, hrest⟩ := List.forall_mem_cons.mp hes
    exact ih (h.set hk v) hrest

/-- Entries that are left out do not matter to a key that is none of theirs. -/
theorem get?_filter {keep : Scalar × Value → Bool} {key : Scalar}
    (h : ∀ e ∈ fs, e.1.same key = true → keep e = true) :
    get? (fs.filter keep) key = get? fs key := by
  induction fs with
  | nil => rfl
  | cons e rest ih =>
    obtain ⟨hhead, hrest⟩ := List.forall_mem_cons.mp h
    obtain ⟨k, v⟩ := e
    by_cases hkeep : keep (k, v) = true
    · rw [List.filter_cons_of_pos hkeep, get?, get?, ih hrest]
    · have hsame : ¬k.same key = true := fun hsame => hkeep (hhead hsame)
      rw [List.filter_cons_of_neg hkeep, ih hrest, get?, if_neg hsame]

/-- What is written for a text that was read from a key: the display of what stands there,
if that counts as true, and else nothing. -/
def shown? (fs : Fields) (key : Text) : Option Value :=
  let v := fs.getD (.text key) .null
  if v.truthy then some (.text v.display) else none

/-- What is written for a text that may be empty is the display of what was read, or
nothing. -/
theorem text?_of_textOr {fs : Fields} {key t : Text} (h : fs.textOr key "" = .ok t) :
    Service.text? t = fs.shown? key := by
  obtain ⟨-, rfl⟩ := Value.shown_eq_ok_iff.mp h
  unfold shown? Value.orElse
  dsimp only
  split
  next htrue =>
    rw [Service.text?, Value.isEmpty_display htrue]
    rfl
  next => rfl

end Fields

/-! ## Ports -/

namespace Port

/-- A port as it was, and what is written for it: what is not modelled stays, name and
protocol are texts, the number is an integer, and the target stays or else is that
integer. -/
structure Rewritten (before after : Fields) : Prop where
  other : Fields.AgreeOff modelled before after
  name : Fields.get? after (.text "name") = before.shown? "name"
  number : ∃ i : Int, (before.getD (.text "port") (.int 0)).toInteger = .ok i
    ∧ Fields.get? after (.text "port") = some (.int i)
    ∧ Fields.get? after (.text "targetPort") = some (before.getD (.text "targetPort") (.int i))
  protocol : ∃ t, before.textOr "protocol" defaultProtocol = .ok t
    ∧ Fields.get? after (.text "protocol") = some (.text t)

/-- An item of a list of ports, and the item that is written for it. -/
def RewrittenAs (before after : Value) : Prop :=
  ∃ fs gs, before = .map fs ∧ after = .map gs ∧ Rewritten fs gs

/-- A port is written over the fields it has kept, and only the modelled ones are
touched. -/
theorem agreeOff_manifest (p : Port) : Fields.AgreeOff modelled p.extra p.manifest := by
  rw [manifest_eq_setAll]
  refine (Fields.AgreeOff.refl modelled p.extra).setAll ?_
  unfold written
  split <;> simp [modelled]

/-- Only modelled fields are not among the extra ones. A port writes its extra fields
first and its own after them, so this is why nothing else of it is lost. -/
theorem agreeOff_extra (fs : Fields) :
    Fields.AgreeOff modelled fs (fs.filter fun e => !modelled.contains e.1) := by
  intro key hkey
  refine Fields.get?_filter fun e _ hsame => ?_
  rw [Bool.not_eq_true', ← Bool.not_eq_true, List.contains_iff_mem]
  intro hmem
  -- a modelled key is a text, and of that key nothing else is
  obtain ⟨t, he⟩ : ∃ t : Text, e.1 = .text t := by
    simp only [modelled, List.mem_cons, List.not_mem_nil, or_false] at hmem
    rcases hmem with he | he | he | he <;> exact ⟨_, he⟩
  rw [he, Scalar.text_same, decide_eq_true_eq] at hsame
  rw [he, hsame] at hmem
  exact hkey hmem

/-- So the port that is written for one that was read differs from it in the modelled
fields at most, and in those it is as `Rewritten` says. -/
theorem rewritten {v : Value} {p : Port} (h : ofManifest v = .ok p) :
    ∃ fs, v = .map fs ∧ Rewritten fs p.manifest := by
  obtain ⟨fs, rfl, hread⟩ := ofManifest_eq_ok_iff.mp h
  refine ⟨fs, rfl, ?_⟩
  -- A modelled key of the written port comes from the port's own fields, never from its extras.
  have hget {t : Text} (ht : .text t ∈ modelled) := get?_manifest hread.regular ht
  obtain ⟨i, hi, hport⟩ := hread.port
  exact {
    other := by
      refine Fields.AgreeOff.trans ?_ (agreeOff_manifest p)
      rw [hread.extra]
      exact agreeOff_extra fs
    name := by
      rw [hget (by simp [modelled]), get?_written]
      exact Fields.text?_of_textOr hread.name
    number := by
      refine ⟨i, hi, ?_, ?_⟩
      · rw [hget (by simp [modelled]), get?_written, ← hport]
        rfl
      · rw [hget (by simp [modelled]), get?_written, ← hport, ← hread.target]
        rfl
    protocol := by
      refine ⟨p.protocol, hread.protocol, ?_⟩
      rw [hget (by simp [modelled]), get?_written]
      rfl }

end Port

namespace Service

/-! ## Services

Each section is written name by name, so the two sections and the manifest agree with what was kept
at all other keys. -/

def modelledTop : List Scalar :=
  [.text "apiVersion", .text "kind", .text "metadata", .text "spec"]

def modelledMetadata : List Scalar :=
  [.text "name", .text "namespace", .text "labels", .text "annotations", .text "ownerReferences",
    .text "resourceVersion"]

def modelledSpec : List Scalar :=
  [.text "selector", .text "type", .text "clusterIP", .text "ports"]

/-- The three levels of a manifest, each with its own modelled keys. Everything else at a
level stays as it was kept. -/
theorem agreeOff_metadata (s : Service) (kept : Fields) :
    Fields.AgreeOff modelledMetadata kept (s.metadata kept) := by
  have hnames : ∀ e ∈ s.metadataEntries, .text e.1 ∈ modelledMetadata := by
    simp [metadataEntries, modelledMetadata]
  rw [metadata_eq_putAll]
  exact Fields.putAll_induction (fun fs hfs e he => hfs.put (hnames e he) e.2) (.refl _ kept)

theorem agreeOff_spec (s : Service) (kept : Fields) :
    Fields.AgreeOff modelledSpec kept (s.spec kept) := by
  have hnames : ∀ e ∈ s.specEntries, .text e.1 ∈ modelledSpec := by
    simp [specEntries, modelledSpec]
  rw [spec_eq_putAll]
  exact Fields.putAll_induction (fun fs hfs e he => hfs.put (hnames e he) e.2) (.refl _ kept)

theorem agreeOff_written (s : Service) (keptMetadata keptSpec : Fields) :
    Fields.AgreeOff modelledTop s.raw (s.written keptMetadata keptSpec) := by
  have hheaded : Fields.AgreeOff modelledTop s.raw (s.raw.setAll heading) :=
    (Fields.AgreeOff.refl _ s.raw).setAll (by simp [heading, modelledTop])
  exact hheaded.setAll (by simp [modelledTop])

/-- The annotations that are not wanted stay as they are. -/
theorem get?_mergedAnnotations (s : Service) {d : Service} {key : Scalar}
    (h : Fields.get? (d.annotations.getD []) key = none) :
    Fields.get? ((mergedAnnotations s d).1.getD []) key
      = Fields.get? (s.annotations.getD []) key := by
  rcases mergedAnnotations_cases s d with ⟨hnone, -, hmerged⟩ | hmerged
  · rw [hmerged, hnone]
  · rw [hmerged]
    exact get?_mergeAnnotations ((Fields.get?_eq_none_iff_same _ key).mp h) _

/-- The ports are among the groups that have drifted exactly if they have. -/
theorem ports_mem_fields_iff (s d : Service) :
    FieldGroup.ports ∈ (s.compare d).fields ↔ portsDrift s d = true := by
  have hfields : (s.compare d).fields = Comparison.groups (ownersDrift s d) (portsDrift s d)
      (selectorDrift s d) (typeDrift s d) (mergedAnnotations s d).2 := rfl
  rw [hfields]
  cases portsDrift s d <;> simp [Comparison.groups]

/-! ## The update -/

/-- A manifest with its two sections, and a manifest that is written over it to bring it
in line with a desired service. -/
structure Overlaid (m md sp : Fields) (desired : Service) (w wmd wsp : Fields) : Prop where
  metadata : Fields.get? w (.text "metadata") = some (.map wmd)
  spec : Fields.get? w (.text "spec") = some (.map wsp)
  other : Fields.AgreeOff modelledTop m w
  otherMetadata : Fields.AgreeOff modelledMetadata md wmd
  otherSpec : Fields.AgreeOff modelledSpec sp wsp
  name : Fields.get? wmd (.text "name") = some (.text (md.getD (.text "name") (.text "")).display)
  space : Fields.get? wmd (.text "namespace")
    = some (.text (md.getD (.text "namespace") (.text "")).display)
  labels : ∃ labels : Option Fields, md.part? "labels" = .ok labels
    ∧ Fields.get? wmd (.text "labels") = labels.map .map
  annotations : ∃ before after : Option Fields, md.part? "annotations" = .ok before
    ∧ Fields.get? wmd (.text "annotations") = after.map .map
    ∧ ∀ key, Fields.get? (desired.annotations.getD []) key = none →
      Fields.get? (after.getD []) key = Fields.get? (before.getD []) key
  resourceVersion : Fields.get? wmd (.text "resourceVersion") = md.shown? "resourceVersion"
  clusterIP : Fields.get? wsp (.text "clusterIP") = sp.shown? "clusterIP"

variable {m md sp : Fields} {s : Service}

/-- An update is written over the manifest that the service was read from. What is not
modelled stays at each level by the lemmas above, and each modelled field is followed from
its reading through the comparison to its writing. -/
theorem ReadFrom.overlaid (h : s.ReadFrom m md sp) (hmd : md.Distinct) (hsp : sp.Distinct)
    (desired : Service) :
    Overlaid m md sp desired ((s.compare desired).patched.written md sp)
      ((s.compare desired).patched.metadata md) ((s.compare desired).patched.spec sp) := by
  obtain ⟨p, hp⟩ : ∃ p, p = (s.compare desired).patched := ⟨_, rfl⟩
  have hshown := p.shown_written hmd hsp
  rw [← hp]
  exact {
    metadata := hshown.metadata
    spec := hshown.spec
    other := by
      have hraw : p.raw = m := by rw [hp]; exact h.raw
      exact hraw ▸ p.agreeOff_written md sp
    otherMetadata := p.agreeOff_metadata md
    otherSpec := p.agreeOff_spec sp
    name := by
      -- name and namespace are taken over by the comparison, so they are written as they were shown
      obtain ⟨t, ht, hname⟩ := h.name
      rw [hshown.name, hp, (Value.shown_eq_ok_iff.mp ht).2]
      exact congrArg some hname
    space := by
      obtain ⟨t, ht, hspace⟩ := h.space
      rw [hshown.space, hp, (Value.shown_eq_ok_iff.mp ht).2]
      exact congrArg some hspace
    labels := ⟨s.labels, h.labels, by rw [hshown.labels, hp]; rfl⟩
    annotations := by
      -- only the wanted annotations may have changed
      refine ⟨s.annotations, p.annotations, h.annotations, hshown.annotations, fun key hkey => ?_⟩
      rw [hp]
      exact s.get?_mergedAnnotations hkey
    resourceVersion := by
      rw [hshown.resourceVersion, ← Fields.text?_of_textOr h.resourceVersion, hp]
      rfl
    clusterIP := by
      rw [hshown.clusterIP, ← Fields.text?_of_textOr h.clusterIP, hp]
      rfl }

/-- What was read item by item belongs together item by item. -/
theorem forall₂_of_mapM {α : Type} {read : Value → Except Fault α} {xs : List Value}
    {ys : List α} (h : xs.mapM read = .ok ys) :
    List.Forall₂ (fun x y => read x = .ok y) xs ys := by
  induction xs generalizing ys with
  | nil =>
    obtain rfl := Except.ok.inj h
    exact .nil
  | cons x rest ih =>
    rw [List.mapM_cons] at h
    obtain ⟨y, hy, h⟩ := Fault.bind_eq_ok.mp h
    obtain ⟨ys', hys', h⟩ := Fault.bind_eq_ok.mp h
    obtain rfl := Except.ok.inj h
    exact .cons hy (ih hys')

/-- Ports that have not drifted are written one for one: in the same number and order, and
each as it was read but for the spelling of its modelled fields. -/
theorem ReadFrom.ports_rewritten (h : s.ReadFrom m md sp) (hsp : sp.Distinct) {desired : Service}
    (hports : FieldGroup.ports ∉ (s.compare desired).fields) :
    ∃ before after, ((sp.getD (.text "ports") .null).orElse (.list [])).items = .ok before
      ∧ Fields.get? ((s.compare desired).patched.spec sp) (.text "ports") = some (.list after)
      ∧ List.Forall₂ Port.RewrittenAs before after := by
  -- Without drift the patched service keeps the ports that were read, so each goes back as it came.
  have hkept : (s.compare desired).patched.ports = s.ports := by
    have hdrift : ¬portsDrift s desired = true := fun hdrift =>
      hports ((s.ports_mem_fields_iff desired).mpr hdrift)
    show (if portsDrift s desired then desired.ports else s.ports) = s.ports
    rw [if_neg hdrift]
  obtain ⟨before, hbefore, hread⟩ := Fault.bind_eq_ok.mp h.ports
  refine ⟨before, s.ports.map fun p => .map p.manifest, hbefore, ?_, ?_⟩
  · rw [get?_spec _ hsp, if_pos rfl, hkept]
  · rw [List.forall₂_map_right_iff]
    refine (forall₂_of_mapM hread).imp ?_
    intro v p hv
    obtain ⟨fs, rfl, hrewritten⟩ := Port.rewritten hv
    exact ⟨fs, _, rfl, rfl, hrewritten⟩

end Service

/-- **An update drops nothing.** The update of a service that was read from a manifest
with maps for sections is written over that manifest, whatever service is desired: what is
not modelled stays as it is, in the manifest and in its sections; so do names, labels,
address and version, and the annotations that are not wanted. And unless the ports have
drifted, each is written as it was read. Every map is written with `setAll` over what was
read, so agreement off the written keys holds at each of the three levels. -/
theorem update_overlays {m md sp : Fields} {s : Service}
    (hmetadata : Fields.get? m (.text "metadata") = some (.map md))
    (hspec : Fields.get? m (.text "spec") = some (.map sp)) (hmd : md.Distinct) (hsp : sp.Distinct)
    (hread : Service.ofManifest (.map m) = .ok s) (desired : Service) :
    ∃ w wmd wsp, (s.compare desired).patched.manifest = .ok w
      ∧ Service.Overlaid m md sp desired w wmd wsp
      ∧ (FieldGroup.ports ∉ (s.compare desired).fields →
        ∃ before after, ((sp.getD (.text "ports") .null).orElse (.list [])).items = .ok before
          ∧ Fields.get? wsp (.text "ports") = some (.list after)
          ∧ List.Forall₂ Port.RewrittenAs before after) := by
  have h := Service.readFrom_of_sections hmetadata hspec hread
  have hraw : (s.compare desired).patched.raw = m := h.raw
  have hwritten := Service.manifest_of_sections (hraw ▸ hmetadata) (hraw ▸ hspec)
  exact ⟨_, _, _, hwritten, h.overlaid hmd hsp desired, h.ports_rewritten hsp⟩

/-- A manifest of the sample's service with a status, an identity, a note and a port on
the nodes, which nothing wants. -/
def sharedSample : Fields :=
  [(.text "metadata", .map [(.text "name", .text "agent"), (.text "namespace", .text "ops"),
      (.text "uid", .text "u-9"), (.text "annotations", .map [(.text "note", .text "keep")])]),
    (.text "spec", .map [(.text "sessionAffinity", .text "None"),
      (.text "ports", .list [.map [(.text "port", .int 8443), (.text "nodePort", .int 30443)]])]),
    (.text "status", .map [])]

/-- The service drifts from the desired one, but its ports do not; its update keeps what
is beside. -/
theorem update_overlays_shared :
    ∃ s w wmd wsp, Service.ofManifest (.map sharedSample) = .ok s
      ∧ (s.compare Wanted.sample.service).changed = true
      ∧ (s.compare Wanted.sample.service).patched.manifest = .ok w
      ∧ Fields.get? w (.text "metadata") = some (.map wmd)
      ∧ Fields.get? w (.text "spec") = some (.map wsp)
      ∧ Fields.get? w (.text "status") = some (.map [])
      ∧ Fields.get? wmd (.text "uid") = some (.text "u-9")
      ∧ Fields.get? wsp (.text "sessionAffinity") = some (.text "None")
      ∧ ∃ gs, Fields.get? wsp (.text "ports") = some (.list [.map gs])
        ∧ Fields.get? gs (.text "nodePort") = some (.int 30443) := by
  obtain ⟨s, hread, hchanged, p, hsports, hagrees⟩ :
      ∃ s, Service.ofManifest (.map sharedSample) = .ok s
        ∧ (s.compare Wanted.sample.service).changed = true
        ∧ ∃ p, s.ports = [p] ∧ p = { Wanted.sample.binding with extra := p.extra } :=
    ⟨_, rfl, rfl, _, rfl, rfl⟩
  -- The drift is elsewhere: the one live port agrees with the desired one.
  have hports : FieldGroup.ports ∉ (s.compare Wanted.sample.service).fields := by
    have hdrift : portsDrift s Wanted.sample.service = false := by
      refine (Wanted.portsDrift_eq_false_iff _ s).mpr ⟨p, hsports, ?_⟩
      rw [hagrees]
      simp [portAgrees, Port.targetNumber, Wanted.binding]
    rw [Service.ports_mem_fields_iff, hdrift]
    exact Bool.false_ne_true
  obtain ⟨w, wmd, wsp, hwritten, hover, hkept⟩ :=
    update_overlays (m := sharedSample) rfl rfl (by decide) (by decide) hread Wanted.sample.service
  obtain ⟨before, after, hbefore, hafter, hpairs⟩ := hkept hports
  obtain rfl := Except.ok.inj (hbefore.symm.trans rfl)
  obtain _ | ⟨⟨fs, gs, hfs, rfl, hrewritten⟩, _ | _⟩ := hpairs
  obtain rfl := Value.map.inj hfs
  have hnode := hrewritten.other (.text "nodePort") (by decide)
  exact ⟨s, w, wmd, wsp, hread, hchanged, hwritten, hover.metadata, hover.spec,
    hover.other _ (by decide), hover.otherMetadata _ (by decide), hover.otherSpec _ (by decide),
    gs, hafter, hnode⟩

end Keeper
