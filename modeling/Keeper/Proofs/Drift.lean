import Keeper.Cycle
import Keeper.Proofs.Shallow

/-!
# Keeper — services without drift

A service has no drift from a desired one when its owners, ports, selector, type and annotations say
what is wanted. What is patched to agree says so, and still does once it was written and read.

* **`ownersDrift_eq_false_iff`** — when the owners of a service are not found drifted from a single one.
* **`Wanted`** — an owner, a namespace and settings, given as texts and integers.
* **`Wanted.desired_eq`** — the service that is desired for them.
* **`Wanted.Settled`**, **`settled_iff`** — what a service without drift says.
* **`settled_patched`** — a patched service is settled.
* **`Wanted.Joined`**, **`Wanted.Counted`** — what JSON needs of the texts and of the numbers.
* **`Settled.carriable`**, **`Settled.carried`** — JSON can carry a settled service, and it stays so.
-/

namespace Keeper

/-! ## Nothing drifted -/

/-- A map of one entry of texts is equal to itself only. -/
theorem Fields.eqv_single (fs : Fields) (key t : Text) :
    fs.eqv [(.text key, .text t)] = true ↔ fs = [(.text key, .text t)] := by
  constructor
  · intro h
    simp only [eqv, Value.eqv, Bool.and_eq_true, beq_iff_eq] at h
    -- a map of the same length with the entry in it has no other one
    obtain ⟨hlength, hwithin⟩ := h
    obtain ⟨⟨k, v⟩, rfl⟩ := List.length_eq_one_iff.mp hlength
    simp only [Value.eqvWithin, get?, Bool.and_true] at hwithin
    by_cases hsame : (Scalar.text key).same k = true
    · rw [if_pos hsame] at hwithin
      obtain rfl : Scalar.text key = k := by simpa [Scalar.text_same] using hsame
      rw [(Value.eqv_text v t).mp hwithin]
    · rw [if_neg hsame] at hwithin
      cases hwithin
  · rintro rfl
    simp [eqv, Value.eqv, Value.eqvWithin, get?, Scalar.eqv_text]

/-- No group has drifted exactly when none of the five comparisons finds anything. -/
theorem Service.compare_fields_eq_nil_iff (current desired : Service) :
    (current.compare desired).fields = []
      ↔ ownersDrift current desired = false ∧ portsDrift current desired = false
        ∧ selectorDrift current desired = false ∧ typeDrift current desired = false
        ∧ (mergedAnnotations current desired).2 = false := by
  simp only [Service.compare, Comparison.groups]
  cases ownersDrift current desired <;> cases portsDrift current desired
    <;> cases selectorDrift current desired <;> cases typeDrift current desired
    <;> cases (mergedAnnotations current desired).2 <;> simp

/-- Drift is told by the groups, so there are no others to look for. -/
theorem Comparison.changed_eq_false_iff (c : Comparison) : c.changed = false ↔ c.fields = [] := by
  cases h : c.fields <;> simp [changed, h]

/-- Owner references have not drifted from a single one if they are one that equals it. -/
theorem ownersDrift_eq_false_iff {current desired : Service} {owner : OwnerReference}
    (howner : desired.owners = [owner]) :
    ownersDrift current desired = false ↔ ∃ r, current.owners = [r] ∧ r.eqv owner = true := by
  rw [ownersDrift, howner]
  rcases current.owners with _ | ⟨r, _ | ⟨r', rest⟩⟩ <;> simp [allPairs]

/-- What is asked for: an owner, a namespace and settings, given as texts and integers. -/
structure Wanted where
  apiVersion : Text
  kind : Text
  ownerName : Text
  uid : Text
  ownerSpace : Text
  space : Text
  name : Text
  port : Int
  targetPort : Option Int
  labelKey : Text
  certKey : Text
  secretName : Option Text

namespace Wanted

def settings (w : Wanted) : ServiceSettings where
  name := w.name
  port := .int w.port
  targetPort := match w.targetPort with
    | some i => .int i
    | none => .null
  labelKey := w.labelKey
  certKey := w.certKey
  secretName := match w.secretName with
    | some t => .text t
    | none => .null

def owner (w : Wanted) : OwnerIdentity where
  apiVersion := w.apiVersion
  kind := w.kind
  name := w.ownerName
  uid := w.uid
  space := w.ownerSpace

def assignment {τ : Type} (w : Wanted) (context : RequestContext τ := {}) : Assignment τ where
  context
  owner := w.owner
  space := w.space

/-- The owner has all of its parts and belongs to the cluster or to the namespace, which
has a name. -/
structure Valid (w : Wanted) : Prop where
  apiVersion : w.apiVersion ≠ ""
  kind : w.kind ≠ ""
  ownerName : w.ownerName ≠ ""
  uid : w.uid ≠ ""
  ownerSpace : w.ownerSpace = "" ∨ w.ownerSpace = w.space
  space : w.space ≠ ""

/-- The secret name in effect. -/
def secret (w : Wanted) : Text :=
  match w.secretName with
  | some t => if t.isEmpty then w.name else t
  | none => w.name

/-- The target port in effect. -/
def target (w : Wanted) : Int := w.targetPort.getD w.port

/-- The only entry of the labels and of the selector. -/
def label (w : Wanted) : Fields := [(.text w.labelKey, .text w.ownerName)]

/-- The only port. -/
def binding (w : Wanted) : Port := { port := .int w.port, target := .int w.target }

/-- The desired service. -/
def service (w : Wanted) : Service where
  space := w.space
  name := w.name
  labels := some w.label
  annotations := some [(.text w.certKey, .text w.secret)]
  owners := [w.owner.reference]
  selector := some w.label
  type := clusterIPType
  clusterIP := headless
  ports := [w.binding]

theorem secret_eq (w : Wanted) : w.settings.effectiveSecretName = .text w.secret := by
  unfold secret settings ServiceSettings.effectiveSecretName
  cases w.secretName with
  | none => rfl
  | some t => cases h : t.isEmpty <;> simp [Value.orElse, Value.truthy, Scalar.truthy, h]

theorem target_eq (w : Wanted) : w.settings.effectiveTargetPort = .int w.target := by
  unfold target settings ServiceSettings.effectiveTargetPort
  cases w.targetPort <;> rfl

theorem truthy_text {t : Text} (h : t ≠ "") : (Value.text t).truthy = true := by
  simp [Value.truthy, Scalar.truthy, (Text.isEmpty_eq_false_iff t).mpr h]

/-- What is built from settings of the declared types is the wanted service, without its
owner. -/
theorem build_eq {w : Wanted} (h : w.Valid) :
    w.settings.build w.ownerName w.space = .ok { w.service with owners := [] } := by
  unfold ServiceSettings.build
  rw [truthy_text h.ownerName, truthy_text h.space, w.secret_eq, w.target_eq]
  rfl

/-- An owner that has all its parts and no other namespace passes. -/
theorem checkOwner_eq {w : Wanted} (h : w.Valid) : checkOwner w.owner w.space = .ok () := by
  have hmissing : w.owner.missingParts = [] := by
    simp [OwnerIdentity.missingParts, owner, truthy_text h.apiVersion, truthy_text h.kind,
      truthy_text h.ownerName, truthy_text h.uid]
  have hspace : (w.owner.space.truthy && !w.owner.space.eqv w.space) = false := by
    rcases h.ownerSpace with hempty | hsame
    · simp [owner, hempty, Value.truthy, Scalar.truthy]
    · simp [owner, hsame]
  unfold checkOwner
  rw [hmissing, hspace]
  rfl

/-- So the desired service is the wanted one: it has no references before, and gets the
one of its owner. -/
theorem link_eq {w : Wanted} (h : w.Valid) :
    link w.owner { w.service with owners := [] } = .ok w.service := by
  unfold link
  rw [show Service.space { w.service with owners := [] } = w.space from rfl, checkOwner_eq h]
  rfl

/-- The desired service, linked to its owner. -/
theorem desired_eq {τ : Type} {w : Wanted} (h : w.Valid) (context : RequestContext τ) :
    (Engine.ofSettings w.settings).desired (w.assignment context) = .ok w.service := by
  have hbuild := build_eq h
  unfold Engine.desired
  simp only [Engine.ofSettings, assignment]
  rw [show w.owner.name = w.ownerName from rfl, hbuild]
  show (link w.owner _).mapError _ = _
  rw [link_eq h]
  rfl

/-- A service of a cluster's own owner. -/
def sample : Wanted where
  apiVersion := "v1"
  kind := "Cluster"
  ownerName := "main"
  uid := "u-1"
  ownerSpace := ""
  space := "ops"
  name := "agent"
  port := 8443
  targetPort := none
  labelKey := "app"
  certKey := "cert"
  secretName := none

theorem valid_sample : sample.Valid := by
  constructor <;> decide

/-! ## Settled

A service is settled when it differs from the desired one in nothing that is compared. Then it has
one owner reference and one port, and its selector is the desired one. -/

/-- Nothing is left to bring in line. -/
structure Settled (w : Wanted) (s : Service) : Prop where
  owners : ∃ r, s.owners = [r] ∧ r.eqv w.owner.reference = true
  ports : ∃ p, s.ports = [p] ∧ portAgrees p w.binding = true
  selector : s.selector = some w.label
  type : s.type = clusterIPType
  annotations : ∃ fs, s.annotations = some fs
    ∧ Fields.get? fs (.text w.certKey) = some (.text w.secret)

/-- Collections of different sizes never agree, so an undrifted service has one port, and
it agrees. -/
theorem portsDrift_eq_false_iff (w : Wanted) (s : Service) :
    portsDrift s w.service = false ↔ ∃ p, s.ports = [p] ∧ portAgrees p w.binding = true := by
  have hdrift : portsDrift s w.service = !portsMatch s.ports [w.binding] := rfl
  rw [hdrift]
  rcases s.ports with _ | ⟨p, _ | ⟨p', rest⟩⟩
  · simp [portsMatch, unorderedEqual, alignedPairs?]
  · simp [portsMatch, unorderedEqual, alignedPairs?, stableSort, insertSorted]
  · simp [portsMatch, unorderedEqual, alignedPairs?]

/-- The wanted selector is a single text at a text, and a map that equals it is the
same. -/
theorem selectorDrift_eq_false_iff (w : Wanted) (s : Service) :
    selectorDrift s w.service = false ↔ s.selector = some w.label := by
  have hdrift : selectorDrift s w.service = !Fields.eqv (s.selector.getD []) w.label := rfl
  rw [hdrift, Bool.not_eq_false', label, Fields.eqv_single]
  cases s.selector <;> simp

/-- The annotations after the comparison, and whether the wanted one was missing or
different. There is one wanted annotation only, so a merge either leaves all of them alone
or writes one of them. -/
theorem mergedAnnotations_eq (w : Wanted) (s : Service) :
    mergedAnnotations s w.service
      = if Fields.get? (s.annotations.getD []) (.text w.certKey) = some (.text w.secret)
        then (some (s.annotations.getD []), false)
        else (some (Fields.set (s.annotations.getD []) (.text w.certKey) w.secret), true) := by
  have hmerge : mergedAnnotations s w.service
      = (some (mergeAnnotations (s.annotations.getD []) [(.text w.certKey, .text w.secret)]).1,
        (mergeAnnotations (s.annotations.getD []) [(.text w.certKey, .text w.secret)]).2) := by
    cases hs : s.annotations <;> simp [mergedAnnotations, service, hs]
  rw [hmerge]
  simp only [mergeAnnotations]
  cases hget : Fields.get? (s.annotations.getD []) (.text w.certKey) with
  | none => simp
  | some v => by_cases hv : v = .text w.secret <;> simp [hv]

/-- Annotations that are not wanted do not count, so there may be more of them. -/
theorem annotations_settled_iff (w : Wanted) (s : Service) :
    (mergedAnnotations s w.service).2 = false
      ↔ ∃ fs, s.annotations = some fs
        ∧ Fields.get? fs (.text w.certKey) = some (.text w.secret) := by
  rw [mergedAnnotations_eq]
  cases s.annotations <;> simp [apply_ite Prod.snd]

/-- A service is settled if no group of fields has drifted. From here on the comparison is
not looked at again: settled services are taken apart by the five fields. -/
theorem settled_iff (w : Wanted) (s : Service) :
    w.Settled s ↔ (s.compare w.service).fields = [] := by
  rw [Service.compare_fields_eq_nil_iff, ownersDrift_eq_false_iff (show _ = [w.owner.reference] from rfl),
    w.portsDrift_eq_false_iff, w.selectorDrift_eq_false_iff, w.annotations_settled_iff]
  have htype : typeDrift s w.service = false ↔ s.type = clusterIPType := by
    simp [typeDrift, service]
  rw [htype]
  constructor
  · intro h
    exact ⟨h.owners, h.ports, h.selector, h.type, h.annotations⟩
  · rintro ⟨howners, hports, hselector, htype, hannotations⟩
    exact ⟨howners, hports, hselector, htype, hannotations⟩

/-- Texts at texts are ordinary, so everything that is wanted is. -/
theorem ordinary_label (w : Wanted) : (Value.map w.label).ordinary = true :=
  Value.ordinary_single w.labelKey w.ownerName

theorem ordinary_reference (w : Wanted) : w.owner.reference.Ordinary :=
  ⟨Value.ordinary_text _, Value.ordinary_text _, Value.ordinary_text _, Value.ordinary_text _,
    Value.ordinary_bool true, Value.ordinary_bool true⟩

/-- All that the desired service has is texts, integers and maps of them. None of
these is a NaN, so the desired service equals itself and does not drift from what
was made of it. -/
theorem ordinary_service (w : Wanted) : w.service.Ordinary where
  space := Value.ordinary_text w.space
  name := Value.ordinary_text w.name
  labels := by
    rintro fs ⟨rfl⟩
    exact w.ordinary_label
  annotations := by
    rintro fs ⟨rfl⟩
    exact Value.ordinary_single w.certKey w.secret
  -- each list has one item, that of the wanted service
  owners := by
    intro r hr
    obtain rfl : r = w.owner.reference := by simpa [service] using hr
    exact w.ordinary_reference
  selector := by
    rintro fs ⟨rfl⟩
    exact w.ordinary_label
  ports := by
    intro p hp
    obtain rfl : p = w.binding := by simpa [service] using hp
    exact ⟨Value.ordinary_int _, Value.ordinary_int _, Value.ordinary_inherited.empty⟩
  raw := Value.ordinary_inherited.empty

theorem shallow_label (w : Wanted) (n : Nat) : (Value.map w.label).copiesIn (n + 1) = true := rfl

/-- The desired service has nothing inside its maps but texts, integers and flags, so it
is far from the depth at which a copy fails. -/
theorem shallow_service (w : Wanted) : w.service.Shallow where
  labels := by
    rintro fs ⟨rfl⟩
    exact w.shallow_label _
  annotations := by
    rintro fs ⟨rfl⟩
    rfl
  -- again there is one item in each list
  owners := by
    intro r hr
    obtain rfl : r = w.owner.reference := by simpa [service] using hr
    exact OwnerReference.copiesIn_manifest ⟨⟨_, rfl⟩, ⟨_, rfl⟩, ⟨_, rfl⟩, ⟨_, rfl⟩⟩ rfl rfl
  selector := by
    rintro fs ⟨rfl⟩
    exact w.shallow_label _
  ports := by
    intro p hp
    obtain rfl : p = w.binding := by simpa [service] using hp
    exact Port.copiesIn_manifest rfl rfl rfl
  raw := rfl

/-- **One comparison settles.** Whatever a service was, it is settled once it is brought
in line. -/
theorem settled_patched (w : Wanted) (s : Service) : w.Settled (s.compare w.service).patched := by
  rw [settled_iff, s.compare_patched w.ordinary_service]

/-! ## Settled services, written and read

What is settled has the desired texts, so a regular one is read back as it was written; and if JSON
gives those texts back, it is settled still when JSON has carried it. Only the annotations need care:
made from pairs, they may have another key that is written as the wanted one. -/

/-- It is read back as it is once it has been written. -/
theorem regular_service (w : Wanted) : w.service.Regular where
  space := ⟨w.space, rfl⟩
  name := ⟨w.name, rfl⟩
  -- the wanted service has one owner and one port, each made of texts and an integer
  owners := by
    intro r hr
    obtain rfl : r = w.owner.reference := by simpa [service] using hr
    exact ⟨⟨_, rfl⟩, ⟨_, rfl⟩, ⟨_, rfl⟩, ⟨_, rfl⟩⟩
  ports := by
    intro p hp
    obtain rfl : p = w.binding := by simpa [service] using hp
    exact ⟨⟨_, rfl⟩, by simp [binding, defaultProtocol], by simp [binding]⟩
  type := by simp [service, clusterIPType]

/-- JSON gives the texts back as they are. -/
structure Joined (w : Wanted) : Prop where
  apiVersion : w.apiVersion.Joined
  kind : w.kind.Joined
  ownerName : w.ownerName.Joined
  uid : w.uid.Joined
  space : w.space.Joined
  name : w.name.Joined
  labelKey : w.labelKey.Joined
  certKey : w.certKey.Joined
  secretName : ∀ t, w.secretName = some t → t.Joined

/-- The name of the secret is given, or made of the name and a constant, and so is given
back by JSON. -/
theorem Joined.secret {w : Wanted} (h : w.Joined) : w.secret.Joined := by
  unfold Wanted.secret
  cases hs : w.secretName with
  | none => exact h.name
  | some t =>
    dsimp only
    split
    · exact h.name
    · exact h.secretName t hs

/-- JSON can write the numbers of the port. -/
structure Counted (w : Wanted) : Prop where
  port : (Scalar.int w.port).isWritable = true
  target : (Scalar.int w.target).isWritable = true

/-- No other key of the annotations is written by JSON as the wanted one. -/
def Unmistakable (w : Wanted) (s : Service) : Prop :=
  ∀ fs, s.annotations = some fs → ∀ k ∈ fs.map Prod.fst,
    Json.plainKey? k = some w.certKey → k = .text w.certKey

theorem unmistakable_of_none {w : Wanted} {s : Service} (h : s.annotations = none) :
    w.Unmistakable s := by
  intro fs hfs
  rw [h] at hfs
  cases hfs

theorem document_label {w : Wanted} (h : w.Joined) : Json.Document (.map w.label) := by
  refine (Json.document_map_iff _).mpr ⟨⟨?_, ?_⟩, ?_⟩
  · simp [label, h.labelKey]
  · simp [label, Fields.Distinct]
  · simp [label, h.ownerName]

/-- An integer of one digit can be written, as a decimal has one digit at least. Stated
for all such integers, so that no proof has to look at the limit itself. -/
theorem isWritable_of_digit {i : Int} (h : i.natAbs < 10) : (Scalar.int i).isWritable = true := by
  have hpower : ∀ n, n ≠ 0 → 10 ≤ Nat.pow 10 n := fun n hn => Nat.le_self_pow hn 10
  rw [Scalar.isWritable, decide_eq_true_iff]
  exact Nat.lt_of_lt_of_le h (hpower integerDigitLimit (by decide))

theorem isWritable_of_eqv_bool {i : Int} {b : Bool} (h : (Value.int i).eqv (.bool b) = true) :
    (Scalar.int i).isWritable = true := by
  have hflag : (Value.int i).eqv (.int b.toInt) = true := h
  refine isWritable_of_digit ?_
  rw [(Value.eqv_int i b.toInt).mp hflag]
  cases b <;> decide

/-- A flag that counts as set is a number, which JSON gives back. -/
theorem document_of_eqv_bool {v : Value} {b : Bool} (h : v.eqv (.bool b) = true) :
    Json.Document v := by
  cases v with
  | scalar s =>
    cases s with
    | bool c => simp
    | int i => exact (Json.document_int_iff i).mpr (isWritable_of_eqv_bool h)
    | float x => simp [Json.Document, Json.plain?, Json.plainScalar?]
    | _ => simp [Value.eqv, Scalar.eqv, Scalar.place?] at h
  | _ => simp [Value.eqv] at h

/-- A settled service can be carried by JSON: the groups that are compared are the wanted
ones, and the rest is what it was read from. -/
theorem Settled.carriable {w : Wanted} {s : Service} (h : w.Settled s) (hw : w.Joined)
    (hcounted : w.Counted) (hregular : s.Regular) (hdocumented : s.Documented)
    (hspace : s.space = .text w.space) (hname : s.name = .text w.name)
    (hversion : s.resourceVersion.Joined) : s.Carriable where
  space := by rw [hspace]; exact (Json.document_text_iff _).mpr hw.space
  name := by rw [hname]; exact (Json.document_text_iff _).mpr hw.name
  labels := hdocumented.labels
  annotations := fun fs hfs => (hdocumented.annotations fs hfs).2
  owners := by
    obtain ⟨r, hr, heqv⟩ := h.owners
    rw [hr]
    intro r' hr'
    obtain rfl := List.mem_singleton.mp hr'
    simp only [OwnerReference.eqv, OwnerIdentity.reference, owner, Bool.and_eq_true,
      Value.eqv_text] at heqv
    -- the reference is the owner's but for its flags, which may be numbers
    obtain ⟨⟨⟨⟨⟨hapi, hkind⟩, hname⟩, huid⟩, hcontroller⟩, hblock⟩ := heqv
    refine OwnerReference.document_manifest ?_ ?_ ?_ ?_ (document_of_eqv_bool hcontroller)
      (document_of_eqv_bool hblock)
    · rw [hapi]; exact (Json.document_text_iff _).mpr hw.apiVersion
    · rw [hkind]; exact (Json.document_text_iff _).mpr hw.kind
    · rw [hname]; exact (Json.document_text_iff _).mpr hw.ownerName
    · rw [huid]; exact (Json.document_text_iff _).mpr hw.uid
  resourceVersion := hversion
  selector := fun fs hfs => by
    obtain rfl : w.label = fs := Option.some.inj (h.selector.symm.trans hfs)
    exact (document_label hw).writable
  type := by rw [h.type]; simp [clusterIPType]
  ports := by
    obtain ⟨p, hp, hagrees⟩ := h.ports
    intro p' hp'
    obtain rfl : p' = p := by simpa [hp] using hp'
    obtain ⟨hextra, htarget⟩ := hdocumented.ports p' hp'
    simp only [portAgrees, binding, Bool.and_eq_true, beq_iff_eq] at hagrees
    obtain ⟨⟨⟨hname, hnumber⟩, -⟩, hprotocol⟩ := hagrees
    obtain ⟨i, hport⟩ := (hregular.ports p' hp').port
    -- the number is the wanted one; the target may be of any kind, as long as JSON gives it back
    have hdocument : Json.Document p'.port := by
      rw [hport] at hnumber ⊢
      rw [(Value.eqv_int i w.port).mp hnumber]
      exact (Json.document_int_iff w.port).mpr hcounted.port
    refine Port.document_manifest hextra hdocument ?_ ?_ ?_
    · exact htarget.elim (fun hsame => hsame ▸ hdocument) id
    · simp [hname]
    · simp [hprotocol, defaultProtocol]

/-- And it is settled when it comes back. Annotations are the one group in which there is
more than what is wanted, and there another key might take the place of the wanted one. -/
theorem Settled.carried {w : Wanted} {s : Service} (h : w.Settled s) (hw : w.Joined)
    (hdocumented : s.Documented) (halone : w.Unmistakable s) : w.Settled s.carried where
  owners := h.owners
  ports := h.ports
  selector := by
    show s.selector.bind Json.plainFields? = some w.label
    rw [h.selector]
    exact (Json.document_iff_plainFields? _).mp (document_label hw)
  type := h.type
  annotations := by
    obtain ⟨fs, hfs, hget⟩ := h.annotations
    obtain ⟨hdistinct, hwritable⟩ := hdocumented.annotations fs hfs
    obtain ⟨fs', hfs'⟩ := hwritable.plainFields?
    refine ⟨fs', ?_, ?_⟩
    · show s.annotations.bind Json.plainFields? = some fs'
      rw [hfs]
      exact hfs'
    -- no other key comes back as the wanted one, so its value is still what stands there
    · rw [Json.get?_plainFields hfs' hdistinct hw.certKey (halone fs hfs), hget]
      exact (Json.document_text_iff _).mpr hw.secret

/-! What the comparison takes over from the desired service fits what was there. -/

/-- The annotations brought in line are those that were there, perhaps with the wanted one
written. -/
theorem annotations_patched (w : Wanted) (s : Service) :
    (s.compare w.service).patched.annotations = some (s.annotations.getD [])
      ∨ (s.compare w.service).patched.annotations
        = some (Fields.set (s.annotations.getD []) (.text w.certKey) w.secret) := by
  show (mergedAnnotations s w.service).1 = _ ∨ (mergedAnnotations s w.service).1 = _
  rw [mergedAnnotations_eq]
  split
  · exact .inl rfl
  · exact .inr rfl

/-- A patched service is made of what was there and of what is wanted, group by group. If
JSON can carry both, it can carry the patched service, which is what a request for an
update needs. -/
theorem documented_patched {w : Wanted} (hw : w.Joined) (hcounted : w.Counted) {s : Service}
    (h : s.Documented) : (s.compare w.service).patched.Documented where
  labels := h.labels
  annotations := by
    have hbefore : (s.annotations.getD []).Distinct ∧ Json.Writable (.map (s.annotations.getD [])) := by
      cases hs : s.annotations with
      | none => exact ⟨.nil, (Json.writable_map_iff []).mpr (by simp)⟩
      | some fs => exact h.annotations fs hs
    intro fs hfs
    -- only the wanted annotation may have been written
    rcases w.annotations_patched s with heq | heq <;> obtain rfl := Option.some.inj (heq.symm.trans hfs)
    · exact hbefore
    · exact ⟨hbefore.1.set _ _, hbefore.2.set hw.certKey
        ((Json.document_text_iff _).mpr hw.secret).writable⟩
  ports := by
    refine Service.patched_ports h.ports ?_
    intro p hp
    obtain rfl : p = w.binding := by simpa [service] using hp
    exact ⟨(Json.document_map_iff _).mpr ⟨.nil, by simp [binding]⟩,
      .inr ((Json.document_int_iff w.target).mpr hcounted.target)⟩

/-- The only annotation that is written is the wanted one. The others are as they were, so
a text that JSON would join to another key cannot come in by an update. -/
theorem unmistakable_patched {w : Wanted} {s : Service} (h : w.Unmistakable s) :
    w.Unmistakable (s.compare w.service).patched := by
  have hbefore : ∀ k ∈ (s.annotations.getD []).map Prod.fst,
      Json.plainKey? k = some w.certKey → k = .text w.certKey := by
    cases hs : s.annotations with
    | none => simp
    | some fs => exact h fs hs
  intro fs hfs k hk hplain
  rcases w.annotations_patched s with heq | heq <;> obtain rfl := Option.some.inj (heq.symm.trans hfs)
  · exact hbefore k hk hplain
  -- either the wanted key was there, or it is the only one that is new
  · rcases Fields.keys_set_cases (s.annotations.getD []) (.text w.certKey) w.secret with hkeys | ⟨hkeys, -⟩
    · exact hbefore k (hkeys ▸ hk) hplain
    · rw [hkeys] at hk
      rcases List.mem_append.mp hk with hk | hk
      · exact hbefore k hk hplain
      · exact List.mem_singleton.mp hk

end Wanted

end Keeper
