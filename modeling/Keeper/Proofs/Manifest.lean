import Keeper.Cluster.Store
import Keeper.Proofs.Copies

/-!
# Keeper — manifests, written and read

A service is written over the manifest it was read from. What it writes is read back as the same
service, as it is written and as JSON gives it.

* **`OwnerReference.ofManifest_manifest`**, **`Port.ofManifest_manifest`** — the parts.
* **`metadata_eq_putAll`**, **`spec_eq_putAll`** — the names that a service writes, one after the other.
* **`Service.written`**, **`Service.Shown`** — what a service writes, and what a manifest shows that
  can be read as it.
* **`Service.ofManifest_of_shown`** — what shows a service is read as it.
* **`Service.ReadFrom`**, **`ReadFrom.regular`** — what a service that was read is like.
* **`Service.Carriable`**, **`Shown.plain`** — what JSON carries of a manifest that shows a service.
-/

namespace Keeper

theorem Value.isNull_eq_true_iff (v : Value) : v.isNull = true ↔ v = .null := by
  cases v with
  | scalar s => cases s <;> simp [isNull]
  | _ => simp [isNull]

/-! ## Displays

What counts as true has a display, so a field that is read as a text is empty only if it is missing
or false. -/

/-- A text is empty if its pieces are. That nothing which counts as true is displayed as
the empty text is shown piece by piece. -/
@[simp] theorem Text.isEmpty_append (s t : Text) : (s ++ t).isEmpty = (s.isEmpty && t.isEmpty) := by
  show (s.points ++ t.points).isEmpty = (s.points.isEmpty && t.points.isEmpty)
  cases s.points <;> rfl

@[simp] theorem Text.isEmpty_ofChars (cs : List Char) : (Text.ofChars cs).isEmpty = cs.isEmpty := by
  cases cs <;> rfl

@[simp] theorem Text.isEmpty_ofString (s : String) : (Text.ofString s).isEmpty = decide (s = "") := by
  rw [Text.ofString, Text.isEmpty_ofChars]
  by_cases h : s = ""
  · simp [h]
  · simp [h]

/-- A decimal is written with a digit at least, on whichever side its point stands. -/
theorem pointedText_ne_nil (ds : List Char) (point : Int) : pointedText ds point ≠ [] := by
  simp only [pointedText]
  split
  · simp
  · split
    · simp
    · split <;> simp

theorem Binary64.isEmpty_text (x : Binary64) : x.text.isEmpty = false := by
  cases x with
  | nan => rfl
  | infinite s => cases s <;> rfl
  | finite s u =>
    have hmagnitude : magnitudeText u ≠ [] := by
      simp only [magnitudeText]
      split
      · simp
      · exact pointedText_ne_nil _ _
    cases s <;> simp [text, hmagnitude]

/-- A scalar that counts as true has a text that does as well. An empty text is one that
is not written, so without this a value could be lost on the way through its text. -/
theorem Scalar.isEmpty_display {s : Scalar} (h : s.truthy = true) : s.display.isEmpty = false := by
  -- the empty text does not count as true, and each other scalar shows something
  cases s with
  | text t => simpa [truthy, display] using h
  | null => rfl
  | bool b => cases b <;> rfl
  | int i =>
    simp only [display, literal, integerText]
    split <;> simp
  | float x => exact x.isEmpty_text
  | date d => simp [display, Date.text]
  | moment d t => simp [display]
  | bytes bs => simp [display, literal, bytesText]

/-- What counts as true is displayed. -/
theorem Value.isEmpty_display {v : Value} (h : v.truthy = true) : v.display.isEmpty = false := by
  cases v with
  | scalar s => exact s.isEmpty_display h
  | list xs => simp [display, literal]
  | tuple xs =>
    rcases xs with _ | ⟨x, _ | ⟨y, rest⟩⟩ <;> simp [display, literal]
  | set ms => cases ms <;> simp [display, literal]
  | map fs => simp [display, literal]
  | endless => simp [display, literal]

@[simp] theorem Value.shown_text (t : Text) : (Value.text t).shown = .ok t := rfl

/-- A value has a text unless there is an integer in it that has too many digits. -/
theorem Value.shown_eq_ok_iff {v : Value} {t : Text} :
    v.shown = .ok t ↔ v.isWritable = true ∧ v.display = t := by
  unfold shown rejected
  split
  next h => simp [h]
  next h => simp [h]

/-! ## Reading a field -/

namespace Fields

variable {fs : Fields} {key : Text}

/-- Reading a field that is there; the lemmas below say so for each kind of field, in the
form in which a service is read from what it has written. -/
theorem getD_of_get? {v : Value} (h : get? fs (.text key) = some v) (default : Value) :
    fs.getD (.text key) default = v := by simp [getD, h]

/-- A section that was written as a map is read as this map, even if the map is empty. -/
theorem part_of_map {gs : Fields} (h : get? fs (.text key) = some (.map gs)) :
    fs.part key = .ok gs := by
  cases gs <;> simp [part, getD, h, Value.orElse, Value.truthy, Value.fields]

theorem part?_of_map {gs : Option Fields} (h : get? fs (.text key) = gs.map .map) :
    fs.part? key = .ok gs := by
  cases gs with
  | none => simp [part?, getD, h]
  | some gs => simp [part?, getD, h, Value.toFields, Except.map]

theorem parts_of_none {α : Type} {read : Value → Except Fault α}
    (h : get? fs (.text key) = none) : fs.parts key read = .ok [] := by
  simp [parts, getD, h, Value.orElse, Value.truthy, Scalar.truthy, Value.items, bind, Except.bind,
    pure, Except.pure]

theorem parts_of_list {α : Type} {read : Value → Except Fault α} {xs : List Value} {ys : List α}
    (h : get? fs (.text key) = some (.list xs)) (hread : xs.mapM read = .ok ys) :
    fs.parts key read = .ok ys := by
  have hitems : ((fs.getD (.text key) .null).orElse (.list [])).items = .ok xs := by
    cases xs <;> simp [getD, h, Value.orElse, Value.truthy, Value.items]
  exact Fault.bind_eq_ok.mpr ⟨xs, hitems, hread⟩

theorem textOr_of_none (h : get? fs (.text key) = none) (default : Text) :
    fs.textOr key default = .ok default := by
  simp [textOr, getD, h, Value.orElse, Value.truthy, Scalar.truthy]

/-- A text that was written is read back, unless it is empty, when the default would be
read in its place. -/
theorem textOr_of_text {t : Text} (h : get? fs (.text key) = some (.text t)) (ht : t ≠ "")
    (default : Text) : fs.textOr key default = .ok t := by
  have hempty : t.isEmpty = false := (Text.isEmpty_eq_false_iff t).mpr ht
  simp [textOr, getD, h, Value.orElse, Value.truthy, Scalar.truthy, hempty]

/-- Where something must be read, something is. -/
theorem textOr_ne_empty {t default : Text} (h : fs.textOr key default = .ok t)
    (hdefault : default ≠ "") : t ≠ "" := by
  obtain ⟨-, rfl⟩ := Value.shown_eq_ok_iff.mp h
  rw [← Text.isEmpty_eq_false_iff, Value.orElse]
  split
  next htrue => exact Value.isEmpty_display htrue
  next => exact (Text.isEmpty_eq_false_iff default).mpr hdefault

end Fields

/-! ## Owner references -/

namespace OwnerReference

/-- The four parts that name the owner are texts. -/
structure Textual (r : OwnerReference) : Prop where
  apiVersion : ∃ t : Text, r.apiVersion = .text t
  kind : ∃ t : Text, r.kind = .text t
  name : ∃ t : Text, r.name = .text t
  uid : ∃ t : Text, r.uid = .text t

/-- What is read from a reference: four texts, and the two flags as they are. Missing
texts are read as empty ones, so a reference that was read is never malformed, only
incomplete. -/
theorem exists_of_ofManifest {v : Value} {r : OwnerReference} (h : ofManifest v = .ok r) :
    ∃ fields : Fields, v = .map fields ∧ r.Textual
      ∧ r.controller = fields.getD (.text "controller") .null
      ∧ r.blockOwnerDeletion = fields.getD (.text "blockOwnerDeletion") .null := by
  obtain ⟨fields, hfields, h⟩ := Fault.bind_eq_ok.mp h
  -- each of the four parts is shown, and kept as a text
  have hpart {key : Text} {w : Value}
      (hw : (do return Value.text (← (fields.getD (.text key) (.text "")).shown)) = .ok w) :
      ∃ t : Text, w = .text t := by
    obtain ⟨t, -, hw⟩ := Fault.bind_eq_ok.mp hw
    exact ⟨t, (Except.ok.inj hw).symm⟩
  obtain ⟨apiVersion, hversion, h⟩ := Fault.bind_eq_ok.mp h
  obtain ⟨kind, hkind, h⟩ := Fault.bind_eq_ok.mp h
  obtain ⟨name, hname, h⟩ := Fault.bind_eq_ok.mp h
  obtain ⟨uid, huid, h⟩ := Fault.bind_eq_ok.mp h
  obtain rfl := Except.ok.inj h
  exact ⟨fields, Value.eq_map_of_fields hfields, ⟨hpart hversion, hpart hkind, hpart hname, hpart huid⟩,
    rfl, rfl⟩

/-- Whatever a manifest has in its references, the parts of what is read are texts, since
they are read as the texts of what is there. -/
theorem textual_of_ofManifest {v : Value} {r : OwnerReference} (h : ofManifest v = .ok r) :
    r.Textual := by
  obtain ⟨_, -, htextual, -⟩ := exists_of_ofManifest h
  exact htextual

/-- So a reference that was read, or whose parts are texts to begin with, is read back as
it was. -/
theorem ofManifest_manifest {r : OwnerReference} (h : r.Textual) :
    ofManifest (.map r.manifest) = .ok r := by
  obtain ⟨apiVersion, kind, name, uid, controller, block⟩ := r
  obtain ⟨⟨v, rfl⟩, ⟨k, rfl⟩, ⟨n, rfl⟩, ⟨u, rfl⟩⟩ := h
  -- an absent flag is read as null again
  by_cases hc : controller.isNull = true <;> by_cases hb : block.isNull = true
  all_goals
    simp [ofManifest, manifest, Value.fields, Fields.getD, Fields.get?, hc, hb, bind, Except.bind,
      pure, Except.pure]
  all_goals simp_all [Value.isNull_eq_true_iff]

/-- All fields of a reference, also the absent flags. -/
def parts (r : OwnerReference) : Fields :=
  [(.text "apiVersion", r.apiVersion), (.text "kind", r.kind), (.text "name", r.name),
    (.text "uid", r.uid), (.text "controller", r.controller),
    (.text "blockOwnerDeletion", r.blockOwnerDeletion)]

/-- What is written are some of the fields. -/
theorem manifest_sublist (r : OwnerReference) : r.manifest.Sublist r.parts := by
  have hflag (key : Text) (v : Value) :
      (if v.isNull then [] else [(Scalar.text key, v)]).Sublist [(Scalar.text key, v)] := by
    split
    · exact List.nil_sublist _
    · exact .refl _
  have hflags := (hflag "controller" r.controller).append
    (hflag "blockOwnerDeletion" r.blockOwnerDeletion)
  unfold manifest parts
  rw [List.append_assoc]
  exact hflags.append_left _

/-- What a reference writes is a document if its parts are. -/
theorem document_manifest {r : OwnerReference} (hversion : Json.Document r.apiVersion)
    (hkind : Json.Document r.kind) (hname : Json.Document r.name) (huid : Json.Document r.uid)
    (hcontroller : Json.Document r.controller) (hblock : Json.Document r.blockOwnerDeletion) :
    Json.Document (.map r.manifest) := by
  have hparts : Json.Document (.map r.parts) := by
    refine (Json.document_map_iff _).mpr ⟨⟨?_, ?_⟩, ?_⟩
    · simp [parts]
    · simp [parts, Fields.Distinct]
    · simp [parts, hversion, hkind, hname, huid, hcontroller, hblock]
  exact hparts.sublist r.manifest_sublist

end OwnerReference

/-! ## Ports -/

namespace Port

/-- The port is an integer, the protocol has a name, and nothing that is modelled is kept
beside. -/
structure Regular (p : Port) : Prop where
  port : ∃ i : Int, p.port = .int i
  protocol : p.protocol ≠ ""
  extra : ∀ k ∈ p.extra.map Prod.fst, k ∉ modelled

/-- What a port has been read from. -/
structure ReadFrom (p : Port) (fields : Fields) : Prop where
  port : ∃ i : Int, (fields.getD (.text "port") (.int 0)).toInteger = .ok i ∧ p.port = .int i
  target : p.target = fields.getD (.text "targetPort") p.port
  name : fields.textOr "name" "" = .ok p.name
  protocol : fields.textOr "protocol" defaultProtocol = .ok p.protocol
  extra : p.extra = fields.filter fun e => !modelled.contains e.1
  shallow : (Value.map p.extra).copiesIn copyLimit = true

/-- Reading a port in one statement: it succeeds on a map whose port is a number and whose
protocol and name have texts, as long as the other fields can be copied. Later proofs take
it apart by this and not step by step. -/
theorem ofManifest_eq_ok_iff {v : Value} {p : Port} :
    ofManifest v = .ok p ↔ ∃ fields, v = .map fields ∧ p.ReadFrom fields := by
  -- the fields are read in the order of the structure, and the copy is made last
  constructor
  · intro h
    obtain ⟨fields, hfields, h⟩ := Fault.bind_eq_ok.mp h
    obtain ⟨i, hport, h⟩ := Fault.bind_eq_ok.mp h
    obtain ⟨name, hname, h⟩ := Fault.bind_eq_ok.mp h
    obtain ⟨protocol, hprotocol, h⟩ := Fault.bind_eq_ok.mp h
    obtain ⟨extra, hextra, h⟩ := Fault.bind_eq_ok.mp h
    obtain rfl := Except.ok.inj h
    obtain ⟨hshallow, rfl⟩ := Fields.copied_eq_ok_iff.mp hextra
    exact ⟨fields, Value.eq_map_of_fields hfields,
      ⟨⟨i, hport, rfl⟩, rfl, hname, hprotocol, rfl, hshallow⟩⟩
  · rintro ⟨fields, rfl, ⟨i, hport, hi⟩, htarget, hname, hprotocol, hextra, hshallow⟩
    have hcopied := Fields.copied_eq_ok_iff.mpr ⟨hextra ▸ hshallow, rfl⟩
    refine Fault.bind_eq_ok.mpr ⟨fields, rfl, Fault.bind_eq_ok.mpr ⟨i, hport, ?_⟩⟩
    refine Fault.bind_eq_ok.mpr ⟨_, hname, Fault.bind_eq_ok.mpr ⟨_, hprotocol, ?_⟩⟩
    refine Fault.bind_eq_ok.mpr ⟨_, hcopied, congrArg Except.ok ?_⟩
    obtain ⟨⟩ := p
    rw [Port.mk.injEq]
    exact ⟨hi.symm, (hi ▸ htarget).symm, rfl, rfl, hextra.symm⟩

/-- What is read is regular. The reading itself sees to it: a namespace and a name that
are texts, a type that is not empty, and ports whose extra fields are none of the modelled
ones. -/
theorem ReadFrom.regular {p : Port} {fields : Fields} (h : p.ReadFrom fields) : p.Regular := by
  obtain ⟨i, -, hport⟩ := h.port
  refine ⟨⟨i, hport⟩, Fields.textOr_ne_empty h.protocol (by simp [defaultProtocol]), ?_⟩
  rw [h.extra]
  intro k hk hmodelled
  obtain ⟨e, he, rfl⟩ := List.mem_map.mp hk
  simp [hmodelled] at he

/-- What a port writes behind the fields that are not modelled. -/
def written (p : Port) : Fields :=
  (if p.name.isEmpty then [] else [(.text "name", .text p.name)])
    ++ [(.text "port", p.port), (.text "targetPort", p.target), (.text "protocol", .text p.protocol)]

/-- What a port writes, as entries written over the fields that it does not model. -/
theorem manifest_eq_setAll (p : Port) : p.manifest = p.extra.setAll p.written := by
  unfold manifest written
  by_cases hempty : p.name.isEmpty = true
  · rw [if_pos hempty, if_pos hempty, List.nil_append]
  · rw [if_neg hempty, if_neg hempty, List.singleton_append]
    exact (Fields.setAll_cons _ _ _ _).symm

/-- A port that was read has none of the modelled fields left among the others, so these
come first and what is written comes after them. -/
theorem manifest_eq {p : Port} (h : p.Regular) : p.manifest = p.extra ++ p.written := by
  rw [manifest_eq_setAll]
  have hmodelled : ∀ e ∈ p.written, e.1 ∈ modelled := by
    unfold written
    split <;> simp [modelled]
  refine Fields.setAll_of_fresh (fun e he => ?_) (fun e he hmem => h.extra e.1 hmem (hmodelled e he)) ?_
  · have hmem := hmodelled e he
    simp only [modelled, List.mem_cons, List.not_mem_nil, or_false] at hmem
    rcases hmem with hkey | hkey | hkey | hkey <;> exact ⟨_, hkey⟩
  · unfold written Fields.Distinct
    split <;> simp

/-- What is read of a port at each name. The name of a port is the only field that may be
missing. -/
theorem get?_written (p : Port) (t : Text) :
    Fields.get? p.written (.text t)
      = if "name" = t then (if p.name.isEmpty then none else some (.text p.name))
        else if "port" = t then some p.port
        else if "targetPort" = t then some p.target
        else if "protocol" = t then some (.text p.protocol)
        else none := by
  unfold written
  by_cases hempty : p.name.isEmpty = true
  · by_cases hname : "name" = t
    · subst hname
      simp [hempty, Fields.get?]
    · simp [hempty, hname, Fields.get?]
  · simp [hempty, Fields.get?]

/-- The extra fields have other names, so what is modelled is found behind them. -/
theorem get?_manifest {p : Port} (h : p.Regular) {t : Text} (ht : .text t ∈ modelled) :
    Fields.get? p.manifest (.text t) = Fields.get? p.written (.text t) := by
  rw [manifest_eq h]
  exact Fields.get?_append (fun hmem => h.extra _ hmem ht) _

/-- A regular port is read back as it was written, if its other fields can be copied. -/
theorem ofManifest_manifest {p : Port} (h : p.Regular)
    (hshallow : (Value.map p.extra).copiesIn copyLimit = true) :
    ofManifest (.map p.manifest) = .ok p := by
  obtain ⟨i, hport⟩ := h.port
  have hextra : p.manifest.filter (fun e => !modelled.contains e.1) = p.extra := by
    rw [manifest_eq h, List.filter_append]
    have hkept : p.extra.filter (fun e => !modelled.contains e.1) = p.extra :=
      List.filter_eq_self.mpr fun e he => by simpa using h.extra e.1 (List.mem_map_of_mem he)
    have hwritten : p.written.filter (fun e => !modelled.contains e.1) = [] := by
      unfold written
      split <;> simp [modelled]
    rw [hkept, hwritten, List.append_nil]
  -- the four fields one by one; a name that is empty was not written
  have hport' : p.manifest.getD (.text "port") (.int 0) = .int i := by
    refine Fields.getD_of_get? ?_ _
    rw [get?_manifest h (by simp [modelled]), ← hport]
    simp [p.get?_written]
  have htarget : p.manifest.getD (.text "targetPort") p.port = p.target := by
    refine Fields.getD_of_get? ?_ _
    rw [get?_manifest h (by simp [modelled])]
    simp [p.get?_written]
  have hprotocol : p.manifest.textOr "protocol" defaultProtocol = .ok p.protocol := by
    refine Fields.textOr_of_text ?_ h.protocol _
    rw [get?_manifest h (by simp [modelled])]
    simp [p.get?_written]
  have hname : p.manifest.textOr "name" "" = .ok p.name := by
    have hget := get?_manifest h (t := "name") (by simp [modelled])
    by_cases hempty : p.name.isEmpty = true
    · rw [(Text.isEmpty_eq_true_iff _).mp hempty]
      refine Fields.textOr_of_none ?_ _
      simp [hget, p.get?_written, hempty]
    · refine Fields.textOr_of_text ?_ (fun he => hempty ((Text.isEmpty_eq_true_iff _).mpr he)) _
      simp [hget, p.get?_written, hempty]
  exact ofManifest_eq_ok_iff.mpr ⟨p.manifest, rfl,
    ⟨⟨i, by rw [hport']; rfl, hport⟩, htarget.symm, hname, hprotocol, hextra.symm, hshallow⟩⟩

/-- A port made from a document keeps documents, and has a document for a target unless it
has none of its own. -/
theorem documents_of_ofManifest {v : Value} (hv : Json.Document v) {p : Port}
    (h : ofManifest v = .ok p) :
    Json.Document (.map p.extra) ∧ (p.target = p.port ∨ Json.Document p.target) := by
  obtain ⟨fields, rfl, hread⟩ := ofManifest_eq_ok_iff.mp h
  refine ⟨by rw [hread.extra]; exact hv.sublist List.filter_sublist, ?_⟩
  rw [hread.target]
  cases hget : Fields.get? fields (.text "targetPort") with
  | none => simp [Fields.getD, hget]
  | some w => exact .inr (by simpa [Fields.getD, hget] using hv.get? hget)

/-- What a port writes is a document if its fields are, modelled or not. -/
theorem document_manifest {p : Port} (hextra : Json.Document (.map p.extra))
    (hport : Json.Document p.port) (htarget : Json.Document p.target) (hname : p.name.Joined)
    (hprotocol : p.protocol.Joined) : Json.Document (.map p.manifest) := by
  rw [manifest_eq_setAll]
  refine hextra.setAll fun e he => ?_
  unfold written at he
  split at he <;> simp only [List.nil_append, List.cons_append, List.mem_cons, List.not_mem_nil,
    or_false] at he
  · rcases he with rfl | rfl | rfl <;> simp [hport, htarget, hprotocol]
  · rcases he with rfl | rfl | rfl | rfl <;> simp [hport, htarget, hprotocol, hname]

end Port

/-! ## What a service writes

At each name of the metadata and of the specification stands what the service writes there, or what
was there before. -/

namespace Service

/-- A text that is written only if it is not empty. -/
def text? (t : Text) : Option Value := if t.isEmpty then none else some (.text t)

/-- The owner references as they are written: only if there are some. -/
def ownersValue? (s : Service) : Option Value :=
  if s.owners.isEmpty then none else some (.list (s.owners.map fun r => .map r.manifest))

theorem text?_eq_some {t : Text} {v : Value} (h : text? t = some v) : v = .text t := by
  unfold text? at h
  split at h
  · cases h
  · exact (Option.some.inj h).symm

/-- The names that a service writes or removes in its metadata. -/
def metadataEntries (s : Service) : List (Text × Option Value) :=
  [("name", some s.name), ("namespace", some s.space), ("labels", s.labels.map .map),
    ("annotations", s.annotations.map .map), ("ownerReferences", s.ownersValue?),
    ("resourceVersion", text? s.resourceVersion)]

/-- The names that a service writes or removes in its specification. -/
def specEntries (s : Service) : List (Text × Option Value) :=
  [("selector", s.selector.map .map), ("type", some (.text s.type)),
    ("clusterIP", text? s.clusterIP), ("ports", some (.list (s.ports.map fun p => .map p.manifest)))]

/-- The metadata as a row of fields that are written or removed, so that what is known of
such rows applies. -/
theorem metadata_eq_putAll (s : Service) (kept : Fields) :
    s.metadata kept = kept.putAll s.metadataEntries := rfl

theorem spec_eq_putAll (s : Service) (kept : Fields) : s.spec kept = kept.putAll s.specEntries := rfl

/-- What is read of written metadata at each name: the last field written comes first in
the list, and at other names there is what was kept. -/
theorem get?_metadata (s : Service) {kept : Fields} (h : kept.Distinct) (t : Text) :
    Fields.get? (s.metadata kept) (.text t)
      = if "resourceVersion" = t then text? s.resourceVersion
        else if "ownerReferences" = t then s.ownersValue?
        else if "annotations" = t then s.annotations.map .map
        else if "labels" = t then s.labels.map .map
        else if "namespace" = t then some s.space
        else if "name" = t then some s.name
        else Fields.get? kept (.text t) := by
  have hnamed := h.setAll [(.text "name", s.name), (.text "namespace", s.space)]
  have hlabelled := hnamed.put "labels" (s.labels.map .map)
  have hannotated := hlabelled.put "annotations" (s.annotations.map .map)
  have howned := hannotated.put "ownerReferences" s.ownersValue?
  unfold metadata
  refine (howned.get?_put _ _ _).trans ?_
  rw [hannotated.get?_put, hlabelled.get?_put, hnamed.get?_put, Fields.setAll_cons,
    Fields.setAll_cons, Fields.setAll_nil, Fields.get?_set, Fields.get?_set]
  rfl

/-- The same for the specification. -/
theorem get?_spec (s : Service) {kept : Fields} (h : kept.Distinct) (t : Text) :
    Fields.get? (s.spec kept) (.text t)
      = if "ports" = t then some (.list (s.ports.map fun p => .map p.manifest))
        else if "clusterIP" = t then text? s.clusterIP
        else if "type" = t then some (.text s.type)
        else if "selector" = t then s.selector.map .map
        else Fields.get? kept (.text t) := by
  have hselecting := (h.put "selector" (s.selector.map .map)).set (.text "type") s.type
  simp only [spec]
  rw [Fields.get?_set, hselecting.get?_put, Fields.get?_set, h.get?_put]
  rfl

/-- The sections of a manifest show the fields of a service. -/
structure Shown (s : Service) (m md sp : Fields) : Prop where
  metadata : Fields.get? m (.text "metadata") = some (.map md)
  spec : Fields.get? m (.text "spec") = some (.map sp)
  space : Fields.get? md (.text "namespace") = some s.space
  name : Fields.get? md (.text "name") = some s.name
  labels : Fields.get? md (.text "labels") = s.labels.map .map
  annotations : Fields.get? md (.text "annotations") = s.annotations.map .map
  owners : Fields.get? md (.text "ownerReferences") = s.ownersValue?
  resourceVersion : Fields.get? md (.text "resourceVersion") = text? s.resourceVersion
  selector : Fields.get? sp (.text "selector") = s.selector.map .map
  type : Fields.get? sp (.text "type") = some (.text s.type)
  clusterIP : Fields.get? sp (.text "clusterIP") = text? s.clusterIP
  ports : Fields.get? sp (.text "ports") = some (.list (s.ports.map fun p => .map p.manifest))

/-- The manifest a service writes over two sections. -/
def written (s : Service) (keptMetadata keptSpec : Fields) : Fields :=
  Fields.setAll (Fields.setAll s.raw heading)
    [(.text "metadata", .map (s.metadata keptMetadata)), (.text "spec", .map (s.spec keptSpec))]

/-- The same for the whole manifest. Only the two sections and the heading are written
over what the service was read from. -/
theorem get?_written (s : Service) (keptMetadata keptSpec : Fields) (t : Text) :
    Fields.get? (s.written keptMetadata keptSpec) (.text t)
      = if "spec" = t then some (.map (s.spec keptSpec))
        else if "metadata" = t then some (.map (s.metadata keptMetadata))
        else if "kind" = t then some (.text "Service")
        else if "apiVersion" = t then some (.text "v1")
        else Fields.get? s.raw (.text t) := by
  simp only [written, heading, Fields.setAll_cons, Fields.setAll_nil, Fields.get?_set]

/-- The section of a manifest that a service writes over; a missing one is empty. -/
def Keeps (s : Service) (key : Text) (kept : Fields) : Prop :=
  s.raw.getD (.text key) (.map []) = .map kept

theorem getD_headed (raw : Fields) (key : Text) (hkind : "kind" ≠ key) (hversion : "apiVersion" ≠ key)
    (default : Value) :
    (Fields.setAll raw heading).getD (.text key) default = raw.getD (.text key) default := by
  simp only [Fields.getD, heading, Fields.setAll_cons, Fields.setAll_nil, Fields.get?_set]
  rw [if_neg hkind, if_neg hversion]

/-- A service is written over its two sections, if they are maps. -/
theorem manifest_eq_bind (s : Service) : s.manifest = (do
    let keptMetadata ← writable .wrongType (s.raw.getD (.text "metadata") (.map []))
    let kept := s.raw.getD (.text "spec") (.map [])
    let keptSpec ← writable (specMisuse s.selector kept) kept
    return s.written keptMetadata keptSpec) := by
  simp only [manifest, getD_headed s.raw "metadata" (by simp) (by simp),
    getD_headed s.raw "spec" (by simp) (by simp)]
  rfl

/-- Writing succeeds where the kept sections are maps, and what is written is known then.
A section that is missing counts as an empty map. -/
theorem manifest_eq {s : Service} {keptMetadata keptSpec : Fields}
    (hmetadata : s.Keeps "metadata" keptMetadata) (hspec : s.Keeps "spec" keptSpec) :
    s.manifest = .ok (s.written keptMetadata keptSpec) := by
  rw [manifest_eq_bind, show s.raw.getD (.text "metadata") (.map []) = .map keptMetadata from hmetadata,
    show s.raw.getD (.text "spec") (.map []) = .map keptSpec from hspec]
  rfl

/-- Only a map can be written over. -/
theorem eq_of_writable {otherwise : Misuse} {v : Value} {fs : Fields}
    (h : writable otherwise v = .ok fs) : v = .map fs := by
  cases v with
  | map gs => exact congrArg Value.map (Except.ok.inj h)
  | _ => cases h

/-- What has been written was written over two maps. -/
theorem eq_of_manifest {s : Service} {body : Fields} (h : s.manifest = .ok body) :
    ∃ keptMetadata keptSpec, s.Keeps "metadata" keptMetadata ∧ s.Keeps "spec" keptSpec
      ∧ body = s.written keptMetadata keptSpec := by
  rw [manifest_eq_bind] at h
  obtain ⟨keptMetadata, hmetadata, h⟩ := Fault.bind_eq_ok.mp h
  obtain ⟨keptSpec, hspec, h⟩ := Fault.bind_eq_ok.mp h
  exact ⟨keptMetadata, keptSpec, eq_of_writable hmetadata, eq_of_writable hspec,
    (Except.ok.inj h).symm⟩

theorem manifest_of_sections {s : Service} {keptMetadata keptSpec : Fields}
    (hmetadata : Fields.get? s.raw (.text "metadata") = some (.map keptMetadata))
    (hspec : Fields.get? s.raw (.text "spec") = some (.map keptSpec)) :
    s.manifest = .ok (s.written keptMetadata keptSpec) :=
  manifest_eq (Fields.getD_of_get? hmetadata _) (Fields.getD_of_get? hspec _)

/-- A manifest that was written shows the service that wrote it; so reading it back is a
matter of the service alone. -/
theorem shown_written (s : Service) {keptMetadata keptSpec : Fields}
    (hmetadata : keptMetadata.Distinct) (hspec : keptSpec.Distinct) :
    s.Shown (s.written keptMetadata keptSpec) (s.metadata keptMetadata) (s.spec keptSpec) where
  metadata := by simp [get?_written]
  spec := by simp [get?_written]
  space := by simp [s.get?_metadata hmetadata]
  name := by simp [s.get?_metadata hmetadata]
  labels := by simp [s.get?_metadata hmetadata]
  annotations := by simp [s.get?_metadata hmetadata]
  owners := by simp [s.get?_metadata hmetadata]
  resourceVersion := by simp [s.get?_metadata hmetadata]
  selector := by simp [s.get?_spec hspec]
  type := by simp [s.get?_spec hspec]
  clusterIP := by simp [s.get?_spec hspec]
  ports := by simp [s.get?_spec hspec]

/-! ## Reading it back

What is written is read again field by field. Texts that are left out when they are empty are read
as empty; a type or a protocol would be read as the usual one, so these must not be empty. -/

/-- An empty text is not written, and is what is read where nothing was written. -/
theorem textOr_of_text? {fs : Fields} {key t : Text} (h : Fields.get? fs (.text key) = text? t) :
    fs.textOr key "" = .ok t := by
  by_cases hempty : t.isEmpty = true
  · rw [(Text.isEmpty_eq_true_iff t).mp hempty]
    exact Fields.textOr_of_none (by simpa [text?, hempty] using h) _
  · have ht : t ≠ "" := (Text.isEmpty_eq_false_iff t).mp (by simpa using hempty)
    exact Fields.textOr_of_text (by simpa [text?, hempty] using h) ht _

/-- Namespace and name are texts, a type is given, and owner references and ports are as
they are read. -/
structure Regular (s : Service) : Prop where
  space : ∃ t : Text, s.space = .text t
  name : ∃ t : Text, s.name = .text t
  owners : ∀ r ∈ s.owners, r.Textual
  ports : ∀ p ∈ s.ports, p.Regular
  type : s.type ≠ ""

/-- What was read from a list was read from an item of it. -/
theorem exists_of_mem_mapM {α : Type} {read : Value → Except Fault α} {xs : List Value}
    {ys : List α} (h : xs.mapM read = .ok ys) {y : α} (hy : y ∈ ys) : ∃ x ∈ xs, read x = .ok y := by
  induction xs generalizing ys with
  | nil =>
    obtain rfl := Except.ok.inj h
    cases hy
  | cons x rest ih =>
    rw [List.mapM_cons] at h
    obtain ⟨y', hy', h⟩ := Fault.bind_eq_ok.mp h
    obtain ⟨ys', hys', h⟩ := Fault.bind_eq_ok.mp h
    obtain rfl := Except.ok.inj h
    -- the element was read from the one in its place
    rcases List.mem_cons.mp hy with rfl | hy
    · exact ⟨x, by simp, hy'⟩
    · obtain ⟨x', hx', hread⟩ := ih hys' hy
      exact ⟨x', by simp [hx'], hread⟩

theorem mapM_written {α : Type} {read : Value → Except Fault α} {write : α → Value} {xs : List α}
    (h : ∀ x ∈ xs, read (write x) = .ok x) : (xs.map write).mapM read = .ok xs := by
  rw [List.mapM_map]
  exact (Fault.mapM_eq_ok h).trans (congrArg _ (List.map_id xs))

/-- What a service has been read from, section by section. -/
structure ReadFrom (s : Service) (m md sp : Fields) : Prop where
  metadata : m.part "metadata" = .ok md
  spec : m.part "spec" = .ok sp
  space : ∃ t, (md.getD (.text "namespace") (.text "")).shown = .ok t ∧ s.space = .text t
  name : ∃ t, (md.getD (.text "name") (.text "")).shown = .ok t ∧ s.name = .text t
  labels : md.part? "labels" = .ok s.labels
  annotations : md.part? "annotations" = .ok s.annotations
  owners : md.parts "ownerReferences" OwnerReference.ofManifest = .ok s.owners
  selector : sp.part? "selector" = .ok s.selector
  type : sp.textOr "type" clusterIPType = .ok s.type
  clusterIP : sp.textOr "clusterIP" "" = .ok s.clusterIP
  ports : sp.parts "ports" Port.ofManifest = .ok s.ports
  resourceVersion : md.textOr "resourceVersion" "" = .ok s.resourceVersion
  raw : s.raw = m
  shallow : (Value.map m).copiesIn copyLimit = true

/-- Reading a service in one statement, as for ports. The service that was read and the
manifest it was read from are all that proofs need; no proof goes through the steps of
reading again. -/
theorem ofManifest_eq_ok_iff {v : Value} {s : Service} :
    ofManifest v = .ok s ↔ ∃ m md sp, v = .map m ∧ s.ReadFrom m md sp := by
  constructor
  · intro h
    -- the reader field by field, in the order in which it may fail
    obtain ⟨m, hm, h⟩ := Fault.bind_eq_ok.mp h
    obtain ⟨md, hmd, h⟩ := Fault.bind_eq_ok.mp h
    obtain ⟨sp, hsp, h⟩ := Fault.bind_eq_ok.mp h
    obtain ⟨space, hspace, h⟩ := Fault.bind_eq_ok.mp h
    obtain ⟨name, hname, h⟩ := Fault.bind_eq_ok.mp h
    obtain ⟨labels, hlabels, h⟩ := Fault.bind_eq_ok.mp h
    obtain ⟨annotations, hannotations, h⟩ := Fault.bind_eq_ok.mp h
    obtain ⟨owners, howners, h⟩ := Fault.bind_eq_ok.mp h
    obtain ⟨selector, hselector, h⟩ := Fault.bind_eq_ok.mp h
    obtain ⟨type, htype, h⟩ := Fault.bind_eq_ok.mp h
    obtain ⟨clusterIP, hclusterIP, h⟩ := Fault.bind_eq_ok.mp h
    obtain ⟨ports, hports, h⟩ := Fault.bind_eq_ok.mp h
    obtain ⟨version, hversion, h⟩ := Fault.bind_eq_ok.mp h
    obtain ⟨raw, hraw, h⟩ := Fault.bind_eq_ok.mp h
    obtain rfl := Except.ok.inj h
    obtain rfl := Value.eq_map_of_fields hm
    obtain ⟨hshallow, rfl⟩ := Fields.copied_eq_ok_iff.mp hraw
    exact ⟨m, md, sp, rfl, hmd, hsp, ⟨space, hspace, rfl⟩, ⟨name, hname, rfl⟩, hlabels, hannotations,
      howners, hselector, htype, hclusterIP, hports, hversion, rfl, hshallow⟩
  · rintro ⟨m, md, sp, rfl, h⟩
    obtain ⟨space, hspace, hspace'⟩ := h.space
    obtain ⟨name, hname, hname'⟩ := h.name
    have hcopied := Fields.copied_eq_ok_iff.mpr ⟨h.shallow, rfl⟩
    simp only [ofManifest, Value.fields, bind, Except.bind, h.metadata, h.spec, hspace, hname, h.labels,
      h.annotations, h.owners, h.selector, h.type, h.clusterIP, h.ports, h.resourceVersion, hcopied]
    refine congrArg Except.ok ?_
    obtain ⟨⟩ := s
    rw [Service.mk.injEq]
    exact ⟨hspace'.symm, hname'.symm, rfl, rfl, rfl, rfl, rfl, rfl, rfl, rfl, h.raw.symm⟩

/-- Of a manifest that has maps for sections, these are read. -/
theorem readFrom_of_sections {s : Service} {m md sp : Fields}
    (hmetadata : Fields.get? m (.text "metadata") = some (.map md))
    (hspec : Fields.get? m (.text "spec") = some (.map sp)) (h : ofManifest (.map m) = .ok s) :
    s.ReadFrom m md sp := by
  obtain ⟨m', md', sp', hm, hread⟩ := ofManifest_eq_ok_iff.mp h
  obtain rfl : m = m' := Value.map.inj hm
  obtain rfl : md = md' := Except.ok.inj ((Fields.part_of_map hmetadata).symm.trans hread.metadata)
  obtain rfl : sp = sp' := Except.ok.inj ((Fields.part_of_map hspec).symm.trans hread.spec)
  exact hread

/-- What is read is regular. -/
theorem ReadFrom.regular {s : Service} {m md sp : Fields} (h : s.ReadFrom m md sp) : s.Regular where
  space := by
    obtain ⟨t, -, ht⟩ := h.space
    exact ⟨t, ht⟩
  name := by
    obtain ⟨t, -, ht⟩ := h.name
    exact ⟨t, ht⟩
  -- owners and ports are regular because their readers have made texts and integers of what they read
  owners := fun r hr => by
    obtain ⟨xs, -, howners⟩ := Fault.bind_eq_ok.mp h.owners
    obtain ⟨x, -, hx⟩ := exists_of_mem_mapM howners hr
    exact OwnerReference.textual_of_ofManifest hx
  ports := fun p hp => by
    obtain ⟨xs, -, hports⟩ := Fault.bind_eq_ok.mp h.ports
    obtain ⟨x, -, hx⟩ := exists_of_mem_mapM hports hp
    obtain ⟨_, -, hread⟩ := Port.ofManifest_eq_ok_iff.mp hx
    exact hread.regular
  type := Fields.textOr_ne_empty h.type (by simp [clusterIPType])

/-- What a port keeps goes five levels less deep than a manifest that shows it: it lies
inside the specification, the list of ports and the port. So copying it never fails where
the manifest could be copied. -/
theorem Shown.shallow_extra {s : Service} {m md sp : Fields} (h : s.Regular) (hs : s.Shown m md sp)
    (hshallow : (Value.map m).copiesIn copyLimit = true) {p : Port} (hp : p ∈ s.ports) :
    (Value.map p.extra).copiesIn copyLimit = true := by
  rw [copyLimit_eq] at hshallow
  have hspec := Value.copiesIn_get? hshallow hs.spec
  have hports := Value.copiesIn_get? hspec hs.ports
  have hport := (Value.copiesIn_list_iff _ _).mp hports _ (List.mem_map_of_mem hp)
  rw [Port.manifest_eq (h.ports p hp)] at hport
  exact Value.copiesIn_of_le (by decide)
    (Value.copiesIn_of_sublist hport (List.sublist_append_left p.extra p.written))

/-- A manifest that shows a service is read as that service, if it can be copied. This is
the reading side of the round trip: what is written shows the service, whatever else it
holds. -/
theorem ofManifest_of_shown {s : Service} {m md sp : Fields} (h : s.Regular)
    (hs : s.Shown m md sp) (hshallow : (Value.map m).copiesIn copyLimit = true) :
    ofManifest (.map m) = .ok { s with raw := m } := by
  obtain ⟨space, hspace⟩ := h.space
  obtain ⟨name, hname⟩ := h.name
  refine ofManifest_eq_ok_iff.mpr ⟨m, md, sp, rfl, ?_⟩
  exact {
    metadata := Fields.part_of_map hs.metadata
    spec := Fields.part_of_map hs.spec
    labels := Fields.part?_of_map hs.labels
    annotations := Fields.part?_of_map hs.annotations
    owners := by
      -- without owners nothing was written, and that is read as none
      have hget := hs.owners
      unfold ownersValue? at hget
      split at hget
      next hempty =>
        rw [List.isEmpty_iff.mp hempty]
        exact Fields.parts_of_none hget
      next =>
        exact Fields.parts_of_list hget
          (mapM_written fun r hr => OwnerReference.ofManifest_manifest (h.owners r hr))
    selector := Fields.part?_of_map hs.selector
    ports := Fields.parts_of_list hs.ports
      (mapM_written fun p hp =>
        Port.ofManifest_manifest (h.ports p hp) (hs.shallow_extra h hshallow hp))
    space := ⟨space, by rw [Fields.getD_of_get? hs.space, hspace, Value.shown_text], hspace⟩
    name := ⟨name, by rw [Fields.getD_of_get? hs.name, hname, Value.shown_text], hname⟩
    type := Fields.textOr_of_text hs.type h.type _
    clusterIP := textOr_of_text? hs.clusterIP
    resourceVersion := textOr_of_text? hs.resourceVersion
    raw := rfl
    shallow := hshallow }

/-- A manifest whose metadata is given another version shows the service with that
version. That is all a store does to what it accepts. -/
theorem Shown.withMetadata {s : Service} {m md sp : Fields} (h : s.Shown m md sp)
    {entries : List (Scalar × Value)} {version : Text} (hversion : version ≠ "")
    (hget : Fields.get? (md.setAll entries) (.text "resourceVersion") = some (.text version))
    (hother : ∀ t : Text, t ≠ "resourceVersion" → t ≠ "uid" →
      Fields.get? (md.setAll entries) (.text t) = Fields.get? md (.text t)) :
    { s with resourceVersion := version }.Shown (Cluster.withMetadata m entries)
      (md.setAll entries) sp where
  metadata := by simp [Cluster.withMetadata, Cluster.fieldsAt, h.metadata, Fields.get?_set]
  spec := by simp [Cluster.withMetadata, Fields.get?_set, h.spec]
  space := (hother _ (by simp) (by simp)).trans h.space
  name := (hother _ (by simp) (by simp)).trans h.name
  labels := (hother _ (by simp) (by simp)).trans h.labels
  annotations := (hother _ (by simp) (by simp)).trans h.annotations
  owners := (hother _ (by simp) (by simp)).trans h.owners
  -- the version is the one field that the entries may change
  resourceVersion := by
    rw [hget, text?, if_neg fun he => hversion ((Text.isEmpty_eq_true_iff _).mp he)]
  selector := h.selector
  type := h.type
  clusterIP := h.clusterIP
  ports := h.ports

/-! ## Carried by JSON

Everything but the labels, the annotations and the selector comes back as it is: those may have been
made from pairs, and then their keys become names. The cluster address may be the display of any
value, and is given back as such. -/

open Json (Document Writable plainFields?)

/-- What a service has that was read from a document: JSON can hold its labels and
annotations, and its ports keep documents. -/
structure Documented (s : Service) : Prop where
  labels : ∀ fs, s.labels = some fs → Writable (.map fs)
  annotations : ∀ fs, s.annotations = some fs → fs.Distinct ∧ Writable (.map fs)
  ports : ∀ p ∈ s.ports, Document (.map p.extra) ∧ (p.target = p.port ∨ Document p.target)

/-- What is read from a document is made of documents, so JSON carries it without loss. -/
theorem ReadFrom.documented {s : Service} {m md sp : Fields} (h : s.ReadFrom m md sp)
    (hm : Document (.map m)) : s.Documented := by
  have hinherited := Json.document_inherited
  have hmetadata := hinherited.part hm h.metadata
  -- what is read from a document is a part of it, and its parts are documents
  refine ⟨fun fs hfs => ?_, fun fs hfs => ?_, fun p hp => ?_⟩
  · obtain ⟨v, hv, hfields⟩ := hinherited.part? hmetadata (by rw [h.labels, hfs])
    exact (hv.toFields hfields).2
  · obtain ⟨v, hv, hfields⟩ := hinherited.part? hmetadata (by rw [h.annotations, hfs])
    exact hv.toFields hfields
  · obtain ⟨xs, hxs, hports⟩ := Fault.bind_eq_ok.mp h.ports
    obtain ⟨x, hx, hread⟩ := exists_of_mem_mapM hports hp
    have hspec := hinherited.part hm h.spec
    exact Port.documents_of_ofManifest (hinherited.parts hinherited hspec hxs x hx) hread

/-- JSON carries the service: it can hold the maps, and it gives back what is compared
besides. -/
structure Carriable (s : Service) : Prop where
  space : Document s.space
  name : Document s.name
  labels : ∀ fs, s.labels = some fs → Writable (.map fs)
  annotations : ∀ fs, s.annotations = some fs → Writable (.map fs)
  owners : ∀ r ∈ s.owners, Document (.map r.manifest)
  resourceVersion : s.resourceVersion.Joined
  selector : ∀ fs, s.selector = some fs → Writable (.map fs)
  type : s.type.Joined
  ports : ∀ p ∈ s.ports, Document (.map p.manifest)

/-- The service as JSON gives it back. -/
def carried (s : Service) : Service :=
  { s with
    labels := s.labels.bind plainFields?
    annotations := s.annotations.bind plainFields?
    selector := s.selector.bind plainFields?
    clusterIP := Json.plainText s.clusterIP }

/-- A text that is left out when it is empty is left out on both sides of JSON. -/
theorem text?_bind_plain? (t : Text) :
    (text? t).bind Json.plain? = text? (Json.plainText t) := by
  unfold text?
  rw [Json.isEmpty_plainText]
  split
  · rfl
  · simp [Json.plain?, Json.plainScalar?]

/-- An optional map is carried as the map is, if it is there. -/
theorem map_bind_plain? {fs : Option Fields} (h : ∀ gs, fs = some gs → Writable (.map gs)) :
    (fs.map Value.map).bind Json.plain? = (fs.bind plainFields?).map .map := by
  cases fs with
  | none => rfl
  | some gs => exact Json.plain?_map gs

/-- References that are documents come back as they were. -/
theorem document_ownersValue? {s : Service} (h : ∀ r ∈ s.owners, Document (.map r.manifest)) :
    s.ownersValue?.bind Json.plain? = s.ownersValue? := by
  unfold ownersValue?
  split
  · rfl
  · refine (Json.document_list_iff _).mpr fun x hx => ?_
    obtain ⟨r, hr, rfl⟩ := List.mem_map.mp hx
    exact h r hr

/-- A manifest with names for keys, in its sections too, that JSON can hold. -/
structure Sendable (m md sp : Fields) : Prop where
  named : m.Named
  metadata : md.Named
  spec : sp.Named
  writable : Writable (.map m)

/-- What JSON gives back of a manifest that shows a service shows the service as it is
given back. Numbers and flags at the keys of a map become texts, so the two services
differ where a service holds such keys. -/
theorem Shown.plain {s : Service} {m md sp : Fields} (h : s.Shown m md sp) (hs : s.Carriable)
    (hm : Sendable m md sp) :
    ∃ m' md' sp', plainFields? m = some m' ∧ s.carried.Shown m' md' sp' := by
  obtain ⟨m', hplain⟩ := hm.writable.plainFields?
  -- a section comes back as a section, since JSON could hold all of the manifest
  have hcarries {t : Text} (ht : t.Joined) {fs : Fields}
      (hfs : Fields.get? m (.text t) = some (.map fs)) :
      ∃ fs', plainFields? fs = some fs' ∧ Fields.get? m' (.text t) = some (.map fs') := by
    have hwritable : Writable (.map fs) :=
      ((Json.writable_map_iff m).mp hm.writable _ (Fields.mem_of_get? hfs)).2
    obtain ⟨fs', hfs'⟩ := hwritable.plainFields?
    refine ⟨fs', hfs', ?_⟩
    rw [Json.get?_plainFields_of_named hplain hm.named ht, hfs]
    exact (Json.plain?_map fs).trans (by rw [hfs']; rfl)
  obtain ⟨md', hmd', hget⟩ := hcarries (by simp) h.metadata
  obtain ⟨sp', hsp', hget'⟩ := hcarries (by simp) h.spec
  -- and so every field of it comes back at its name
  have hmetadata {t : Text} (ht : t.Joined) := Json.get?_plainFields_of_named hmd' hm.metadata ht
  have hspec {t : Text} (ht : t.Joined) := Json.get?_plainFields_of_named hsp' hm.spec ht
  refine ⟨m', md', sp', hplain, ?_⟩
  exact {
    metadata := hget
    spec := hget'
    space := by rw [hmetadata (by simp), h.space]; exact hs.space
    name := by rw [hmetadata (by simp), h.name]; exact hs.name
    labels := by rw [hmetadata (by simp), h.labels]; exact map_bind_plain? hs.labels
    annotations := by rw [hmetadata (by simp), h.annotations]; exact map_bind_plain? hs.annotations
    owners := by rw [hmetadata (by simp), h.owners]; exact document_ownersValue? hs.owners
    resourceVersion := by
      rw [hmetadata (by simp), h.resourceVersion, text?_bind_plain?]
      exact congrArg text? hs.resourceVersion
    selector := by rw [hspec (by simp), h.selector]; exact map_bind_plain? hs.selector
    type := by rw [hspec (by simp), h.type]; exact (Json.document_text_iff _).mpr hs.type
    clusterIP := by rw [hspec (by simp), h.clusterIP]; exact text?_bind_plain? _
    ports := by
      rw [hspec (by simp), h.ports]
      refine (Json.document_list_iff _).mpr fun x hx => ?_
      obtain ⟨p, hp, rfl⟩ := List.mem_map.mp hx
      exact hs.ports p hp }

/-! What a service that JSON carries writes over a document can be sent. -/

/-- The names that a service writes are given back by JSON, so they stay apart from the
keys that were kept. -/
theorem named_metadata (s : Service) {kept : Fields} (h : kept.Named) : (s.metadata kept).Named := by
  have hnames : ∀ e ∈ s.metadataEntries, e.1.Joined := by simp [metadataEntries]
  rw [metadata_eq_putAll]
  exact Fields.putAll_induction (fun fs hfs e he => hfs.put (hnames e he) e.2) h

theorem named_spec (s : Service) {kept : Fields} (h : kept.Named) : (s.spec kept).Named := by
  have hnames : ∀ e ∈ s.specEntries, e.1.Joined := by simp [specEntries]
  rw [spec_eq_putAll]
  exact Fields.putAll_induction (fun fs hfs e he => hfs.put (hnames e he) e.2) h

/-- Any text can be written, surrogates or not. -/
theorem writable_of_text? {t : Text} {v : Value} (hv : text? t = some v) : Writable v := by
  obtain rfl := text?_eq_some hv
  exact ⟨.text (Json.plainText t), by simp [Json.plain?, Json.plainScalar?]⟩

theorem writable_of_map {fs : Option Fields} (h : ∀ gs, fs = some gs → Writable (.map gs))
    {v : Value} (hv : fs.map Value.map = some v) : Writable v := by
  obtain ⟨gs, hgs, rfl⟩ := Option.map_eq_some_iff.mp hv
  exact h gs hgs

theorem writable_of_ownersValue? {s : Service} (h : ∀ r ∈ s.owners, Document (.map r.manifest))
    {v : Value} (hv : s.ownersValue? = some v) : Writable v := by
  have hdocument := document_ownersValue? h
  rw [hv] at hdocument
  exact ⟨v, hdocument⟩

/-- So is the metadata of a service that JSON can carry, over kept fields that it can
carry. -/
theorem writable_metadata {s : Service} (hs : s.Carriable) {kept : Fields}
    (h : Writable (.map kept)) : Writable (.map (s.metadata kept)) := by
  have hentries : ∀ e ∈ s.metadataEntries, e.1.Joined ∧ ∀ v, e.2 = some v → Writable v := by
    simp only [metadataEntries, List.forall_mem_cons, Option.some.injEq, forall_eq']
    exact ⟨⟨by simp, hs.name.writable⟩, ⟨by simp, hs.space.writable⟩,
      ⟨by simp, fun v => writable_of_map hs.labels⟩, ⟨by simp, fun v => writable_of_map hs.annotations⟩,
      ⟨by simp, fun v => writable_of_ownersValue? hs.owners⟩, ⟨by simp, fun v => writable_of_text?⟩,
      by simp⟩
  rw [metadata_eq_putAll]
  exact Fields.putAll_induction (P := fun fs => Writable (.map fs))
    (fun fs hfs e he => hfs.put (hentries e he).1 (hentries e he).2) h

theorem writable_spec {s : Service} (hs : s.Carriable) {kept : Fields}
    (h : Writable (.map kept)) : Writable (.map (s.spec kept)) := by
  have hports : Writable (.list (s.ports.map fun p => .map p.manifest)) := by
    refine (Json.writable_list_iff _).mpr fun x hx => ?_
    obtain ⟨p, hp, rfl⟩ := List.mem_map.mp hx
    exact (hs.ports p hp).writable
  have htype : Writable (.text s.type) := ((Json.document_text_iff s.type).mpr hs.type).writable
  -- the entries that are written over the kept ones can be written each, and so can the whole
  have hentries : ∀ e ∈ s.specEntries, e.1.Joined ∧ ∀ v, e.2 = some v → Writable v := by
    simp only [specEntries, List.forall_mem_cons, Option.some.injEq, forall_eq']
    exact ⟨⟨by simp, fun v => writable_of_map hs.selector⟩, ⟨by simp, htype⟩,
      ⟨by simp, fun v => writable_of_text?⟩, ⟨by simp, hports⟩, by simp⟩
  rw [spec_eq_putAll]
  exact Fields.putAll_induction (P := fun fs => Writable (.map fs))
    (fun fs hfs e he => hfs.put (hentries e he).1 (hentries e he).2) h

/-- A service that JSON carries, written over documents, can be sent. For what is kept
this asks for documents, as it has been through JSON once. -/
theorem sendable_written {s : Service} (hs : s.Carriable) {keptMetadata keptSpec : Fields}
    (hraw : Document (.map s.raw)) (hmetadata : Document (.map keptMetadata))
    (hspec : Document (.map keptSpec)) :
    Sendable (s.written keptMetadata keptSpec) (s.metadata keptMetadata) (s.spec keptSpec) where
  named := by
    refine Fields.Named.setAll (hraw.named.setAll ?_) ?_
    · simp [heading]
    · simp
  metadata := s.named_metadata hmetadata.named
  spec := s.named_spec hspec.named
  writable := by
    -- the manifest is built up by four settings, each of a name and of a value that can be written
    have hheaded : Writable (.map (s.raw.setAll heading)) :=
      (hraw.writable.set (by simp) ((Json.document_text_iff _).mpr (by simp)).writable).set (by simp)
        ((Json.document_text_iff _).mpr (by simp)).writable
    exact (hheaded.set (by simp) (writable_metadata hs hmetadata.writable)).set (by simp)
      (writable_spec hs hspec.writable)

/-- The marks that a store sets in the metadata of what it is sent do no harm, being texts
at names. So what is stored can be sent again whenever it was sent once. -/
theorem Sendable.withMetadata {m md sp : Fields} (h : Sendable m md sp)
    (hmd : Fields.get? m (.text "metadata") = some (.map md)) {entries : List (Scalar × Value)}
    (hentries : ∀ e ∈ entries, ∃ t t' : Text, e = (.text t, .text t') ∧ t.Joined ∧ t'.Joined) :
    Sendable (Cluster.withMetadata m entries) (md.setAll entries) sp where
  named := h.named.set (by simp) _
  metadata := h.metadata.setAll fun e he => by
    obtain ⟨t, t', rfl, ht, -⟩ := hentries e he
    exact ⟨t, rfl, ht⟩
  spec := h.spec
  writable := by
    have hfields : Cluster.fieldsAt m "metadata" = md := by simp [Cluster.fieldsAt, hmd]
    have hkept : Writable (.map md) :=
      ((Json.writable_map_iff m).mp h.writable _ (Fields.mem_of_get? hmd)).2
    unfold Cluster.withMetadata
    rw [hfields]
    -- the new metadata are the kept ones with the entries set, so both are gone through
    refine h.writable.set (by simp) ((Json.writable_map_iff _).mpr ?_)
    refine Fields.forall_mem_setAll (fun k => ∃ t, Json.plainKey? k = some t) Writable
      ((Json.writable_map_iff md).mp hkept) fun e he => ?_
    obtain ⟨t, t', rfl, ht, ht'⟩ := hentries e he
    exact ⟨⟨t, Json.plainKey?_text ht⟩, ((Json.document_text_iff t').mpr ht').writable⟩

end Service

end Keeper
