import Keeper.Linkage
import Keeper.Proofs.Fields

/-!
# Keeper — what a linkage accepts, and what it leaves behind

References name the same owner when their keys agree: group, kind and name. A linkage goes through the
references twice. First it looks for controllers with another key than the owner's, then for the first
reference with the owner's key, whose place the owner's reference takes.

One linkage by itself is exact: it refuses what it has to, and then changes nothing; else it records the
owner, once and for good. But the two passes need not stop at the same reference. Where the controller
stands behind another reference to the same owner, the linkage accepts its owner for the one and replaces
the other, and the service has two controllers.

* **`sameOwner_eq`** — references name the same owner if their keys agree.
* **`run_attach`** — a linkage in place gives what a linkage gives, or leaves the service alone.
* **`Service.Accepts`**, **`Recorded`** — the owners that a linkage accepts, and what it makes of the
  references.
* **`attach_settles`** — the linkage of one owner.
* **`Recorded.controllers_eq`** — the number of controllers grows unless one of them is first of its owner.
* **`attachEach_controllers`** — the linkage of any number of owners, one after the other.
-/

namespace Keeper

/-! ## Keys -/

/-- What identifies an owner. -/
@[ext]
structure OwnerKey where
  group : Text
  kind : Value
  name : Value
deriving DecidableEq

namespace OwnerReference

/-- The API version is a text, as that of every reference that has been read. -/
def Versioned (r : OwnerReference) : Prop := ∃ version : Text, r.apiVersion = .text version

/-- The owner that a reference names, apart from the version. -/
def key (r : OwnerReference) : OwnerKey where
  group := match r.apiVersion with
    | .text version => groupOfText version
    | _ => ""
  kind := r.kind
  name := r.name

end OwnerReference

/-- All parts of the owner are texts. -/
structure OwnerIdentity.Textual (owner : OwnerIdentity) : Prop where
  apiVersion : ∃ t : Text, owner.apiVersion = .text t
  kind : ∃ t : Text, owner.kind = .text t
  name : ∃ t : Text, owner.name = .text t
  uid : ∃ t : Text, owner.uid = .text t
  space : ∃ t : Text, owner.space = .text t

/-- References name the same owner if their keys agree: the group of the version, the kind
and the name. Versions of one group and the owner's unique id do not tell owners apart. -/
theorem sameOwner_eq {owner : OwnerIdentity} (howner : owner.Textual) {r : OwnerReference}
    (hr : r.Versioned) :
    sameOwner r owner.reference = .ok (decide (r.key = owner.reference.key)) := by
  obtain ⟨version, hversion⟩ := hr
  obtain ⟨version', hversion'⟩ := howner.apiVersion
  obtain ⟨kind, hkind⟩ := howner.kind
  obtain ⟨name, hname⟩ := howner.name
  -- the program compares three parts, each by an equality of its own; on texts all of them are the
  -- equality of keys
  have hgroup : apiGroup r.apiVersion = .ok r.key.group := by
    simp only [apiGroup, OwnerReference.key, hversion]
  have hgroup' : apiGroup owner.reference.apiVersion = .ok owner.reference.key.group := by
    simp only [apiGroup, OwnerReference.key, OwnerIdentity.reference, hversion']
  have hkinds : r.kind.eqv owner.kind = decide (r.kind = owner.kind) := by
    rw [Bool.eq_iff_iff, hkind, Value.eqv_text, decide_eq_true_eq]
  have hnames : r.name.eqv owner.name = decide (r.name = owner.name) := by
    rw [Bool.eq_iff_iff, hname, Value.eqv_text, decide_eq_true_eq]
  have hsame : r.key = owner.reference.key
      ↔ r.key.group = owner.reference.key.group ∧ r.kind = owner.kind ∧ r.name = owner.name := by
    rw [OwnerKey.ext_iff]
    exact Iff.rfl
  unfold sameOwner
  rw [hgroup, hgroup']
  show Except.ok (_ && r.kind.eqv owner.kind && r.name.eqv owner.name) = _
  rw [hkinds, hnames, Except.ok.injEq, Bool.eq_iff_iff]
  simp only [Bool.and_eq_true, beq_iff_eq, decide_eq_true_eq, hsame, and_assoc]

/-! ## In place

The linkage in place finds where to put the reference before it writes it there. -/

/-- The references with an owner's put in a place, or at the end. -/
def OwnerReference.putAt (owner : OwnerReference) (rs : List OwnerReference) :
    Option Nat → List OwnerReference
  | some place => rs.set place owner
  | none => rs ++ [owner]

/-- To record a reference is to put it where the first one to its owner stands. The search
and the replacement are one pass in the program; taken apart, each can be reasoned about
by itself. -/
theorem recordOwner_eq (owner : OwnerReference) (rs : List OwnerReference) :
    recordOwner owner rs = (placeOfOwner owner rs).map (owner.putAt rs) := by
  induction rs with
  | nil => rfl
  | cons existing rest ih =>
    rw [recordOwner, placeOfOwner]
    -- each reference that is not the owner's moves the place by one
    cases sameOwner existing owner with
    | error f => rfl
    | ok same =>
      cases same with
      | true => rfl
      | false =>
        simp only [bind, Except.bind, Bool.false_eq_true, if_false, ih]
        cases placeOfOwner owner rest with
        | error f => rfl
        | ok place => cases place <;> rfl

namespace Editing

variable {α β : Type} (s : Service)

theorem run_get_bind (next : Service → Editing β) :
    (get >>= next : Editing β).run.run s = (next s).run.run s := rfl

theorem run_lift_bind (x : Except Fault α) (next : α → Editing β) :
    (liftM x >>= next : Editing β).run.run s = match x with
      | .ok a => (next a).run.run s
      | .error f => (.error f, s) := by
  cases x <;> rfl

end Editing

/-- A linkage in place leaves what a linkage gives, and otherwise the service as it was.
The checks come before anything is changed, which is what makes the linkage atomic. -/
theorem run_attach (owner : OwnerIdentity) (s : Service) :
    (attach owner).run.run s = match link owner s with
      | .ok linked => (.ok (), linked)
      | .error f => (.error f, s) := by
  -- the two run through the same three checks; only what is changed in place has to be compared
  unfold attach link
  rw [Editing.run_get_bind, Editing.run_lift_bind, recordOwner_eq]
  cases checkOwner owner s.space with
  | error f => rfl
  | ok u =>
    dsimp only
    rw [Editing.run_lift_bind]
    cases checkControllers s.key owner.reference s.owners with
    | error f => rfl
    | ok u =>
      dsimp only
      rw [Editing.run_lift_bind]
      cases placeOfOwner owner.reference s.owners with
      | error f => rfl
      | ok place => cases place <;> rfl

/-! ## The owners that are accepted -/

/-- A linkage accepts an owner that has all of its parts and lives where the service does,
if it lives in a namespace at all, unless another owner is the controller. -/
structure Service.Accepts (s : Service) (owner : OwnerIdentity) : Prop where
  parts : owner.apiVersion ≠ "" ∧ owner.kind ≠ "" ∧ owner.name ≠ "" ∧ owner.uid ≠ ""
  space : owner.space ≠ "" → owner.space = s.space
  controllers : ∀ r ∈ s.owners, r.controller.truthy = true → r.key = owner.reference.key

/-- The owners that are not accepted: by what is missing, by where they live, or by
a controller. These are the refusals of the program, in the order in which it comes
to them. -/
theorem Service.not_accepts_iff (s : Service) (owner : OwnerIdentity) :
    ¬s.Accepts owner
      ↔ (owner.apiVersion = "" ∨ owner.kind = "" ∨ owner.name = "" ∨ owner.uid = "")
        ∨ (owner.space ≠ "" ∧ owner.space ≠ s.space)
        ∨ ∃ r ∈ s.owners, r.controller.truthy = true ∧ r.key ≠ owner.reference.key := by
  -- the conditions as a conjunction, to which the rules of negation apply
  have haccepts : s.Accepts owner
      ↔ (owner.apiVersion ≠ "" ∧ owner.kind ≠ "" ∧ owner.name ≠ "" ∧ owner.uid ≠ "")
        ∧ (owner.space ≠ "" → owner.space = s.space)
        ∧ ∀ r ∈ s.owners, r.controller.truthy = true → r.key = owner.reference.key := by
    constructor
    · intro h
      exact ⟨h.parts, h.space, h.controllers⟩
    · intro h
      exact ⟨h.1, h.2.1, h.2.2⟩
  simp only [haccepts, Classical.not_and_iff_not_or_not, Classical.not_imp, Classical.not_forall,
    Classical.not_not, ne_eq]

/-- A text counts as true unless it is empty. -/
theorem Value.truthy_eq_true_iff_of_text {v : Value} (h : ∃ t : Text, v = .text t) :
    v.truthy = true ↔ v ≠ "" := by
  obtain ⟨t, rfl⟩ := h
  have hempty : Value.text t = "" ↔ t = "" := by simp
  show (!t.isEmpty) = true ↔ _
  rw [Bool.not_eq_true', Text.isEmpty_eq_false_iff, ne_eq, ne_eq, hempty]

section Owner

variable {owner : OwnerIdentity} (howner : owner.Textual)
include howner

/-- An owner has all of its parts exactly if none of the four texts is empty. -/
theorem OwnerIdentity.Textual.missingParts_eq_nil_iff :
    owner.missingParts = []
      ↔ owner.apiVersion ≠ "" ∧ owner.kind ≠ "" ∧ owner.name ≠ "" ∧ owner.uid ≠ "" := by
  rw [← Value.truthy_eq_true_iff_of_text howner.apiVersion,
    ← Value.truthy_eq_true_iff_of_text howner.kind, ← Value.truthy_eq_true_iff_of_text howner.name,
    ← Value.truthy_eq_true_iff_of_text howner.uid]
  simp [missingParts]

/-- An owner is checked for its parts, and then for its namespace. With texts in its parts
the only failure is a refusal, and it comes exactly if one of the two does not hold. -/
theorem OwnerIdentity.Textual.checkOwner_cases (space : Value) :
    (checkOwner owner space = .ok ()
        ∧ (owner.apiVersion ≠ "" ∧ owner.kind ≠ "" ∧ owner.name ≠ "" ∧ owner.uid ≠ "")
        ∧ (owner.space ≠ "" → owner.space = space))
      ∨ ((∃ refusal, checkOwner owner space = .error (.linkage refusal))
        ∧ ¬((owner.apiVersion ≠ "" ∧ owner.kind ≠ "" ∧ owner.name ≠ "" ∧ owner.uid ≠ "")
          ∧ (owner.space ≠ "" → owner.space = space))) := by
  obtain ⟨t, ht⟩ := howner.space
  have hspace : owner.space.eqv space = true ↔ owner.space = space := by
    rw [ht, Value.text_eqv, eq_comm]
  have htruthy := Value.truthy_eq_true_iff_of_text howner.space
  rw [← howner.missingParts_eq_nil_iff, ← htruthy, ← hspace]
  unfold checkOwner
  -- a missing part is told before the namespace is looked at
  cases owner.missingParts with
  | cons part rest => exact .inr ⟨⟨_, rfl⟩, by simp⟩
  | nil =>
    cases htrue : owner.space.truthy with
    | false => exact .inl ⟨rfl, rfl, by simp⟩
    | true =>
      cases hsame : owner.space.eqv space with
      | true => exact .inl ⟨rfl, rfl, by simp⟩
      | false => exact .inr ⟨⟨_, rfl⟩, by simp⟩

/-- The controllers are checked one by one. Their versions can all be read, so no
comparison fails, and the only other end is a refusal. The induction is on the references,
as the loop meets them. -/
theorem OwnerIdentity.Textual.checkControllers_cases (service : Text) {rs : List OwnerReference}
    (hrs : ∀ r ∈ rs, r.Versioned) :
    (checkControllers service owner.reference rs = .ok ()
        ∧ ∀ r ∈ rs, r.controller.truthy = true → r.key = owner.reference.key)
      ∨ ((∃ refusal, checkControllers service owner.reference rs = .error (.linkage refusal))
        ∧ ¬∀ r ∈ rs, r.controller.truthy = true → r.key = owner.reference.key) := by
  induction rs with
  | nil => exact .inl ⟨rfl, by simp⟩
  | cons r rest ih =>
    rw [List.forall_mem_cons] at hrs
    rw [List.forall_mem_cons, checkControllers, sameOwner_eq howner hrs.1]
    -- a reference that is no controller, or is the owner's, is passed over
    cases hcontroller : r.controller.truthy with
    | false => simpa using ih hrs.2
    | true =>
      by_cases hkey : r.key = owner.reference.key
      · simpa [hkey, bind, Except.bind] using ih hrs.2
      · refine .inr ⟨⟨.controlled service r.kind r.name, ?_⟩, fun h => hkey (h.1 rfl)⟩
        simp [hkey, bind, Except.bind]

end Owner

/-! ## What is recorded -/

/-- The owner's reference takes the place of the first one with its key, or it comes
last. -/
inductive Recorded (owner : OwnerReference) : List OwnerReference → List OwnerReference → Prop where
  | replaced {before after : List OwnerReference} {r : OwnerReference}
    (hfirst : ∀ r' ∈ before, r'.key ≠ owner.key) (hkey : r.key = owner.key) :
    Recorded owner (before ++ r :: after) (before ++ owner :: after)
  | appended {rs : List OwnerReference} (hnone : ∀ r ∈ rs, r.key ≠ owner.key) :
    Recorded owner rs (rs ++ [owner])

section Owner

variable {owner : OwnerIdentity} (howner : owner.Textual)
include howner

/-- References that do not have the owner's key are passed over, and what is behind them
is recorded as it would be alone. -/
theorem OwnerIdentity.Textual.recordOwner_append {before rest rest' : List OwnerReference}
    (hbefore : ∀ r ∈ before, r.Versioned) (hfirst : ∀ r ∈ before, r.key ≠ owner.reference.key)
    (hrest : recordOwner owner.reference rest = .ok rest') :
    recordOwner owner.reference (before ++ rest) = .ok (before ++ rest') := by
  induction before with
  | nil => exact hrest
  | cons r before ih =>
    rw [List.forall_mem_cons] at hbefore hfirst
    rw [List.cons_append, recordOwner, sameOwner_eq howner hbefore.1, ih hbefore.2 hfirst.2]
    simp [hfirst.1, bind, Except.bind, pure, Except.pure]

/-- A reference with the owner's key is replaced, if none stands before it. -/
theorem OwnerIdentity.Textual.recordOwner_of_first {before after : List OwnerReference}
    {r : OwnerReference} (hrs : ∀ r' ∈ before ++ r :: after, r'.Versioned)
    (hfirst : ∀ r' ∈ before, r'.key ≠ owner.reference.key) (hkey : r.key = owner.reference.key) :
    recordOwner owner.reference (before ++ r :: after) = .ok (before ++ owner.reference :: after) := by
  rw [List.forall_mem_append, List.forall_mem_cons] at hrs
  refine howner.recordOwner_append hrs.1 hfirst ?_
  rw [recordOwner, sameOwner_eq howner hrs.2.1]
  simp [hkey, bind, Except.bind, pure, Except.pure]

/-- A reference is always recorded: once the checks are passed, reading the versions
cannot fail either. -/
theorem OwnerIdentity.Textual.exists_recorded {rs : List OwnerReference}
    (hrs : ∀ r ∈ rs, r.Versioned) :
    ∃ rs', recordOwner owner.reference rs = .ok rs' ∧ Recorded owner.reference rs rs' := by
  -- without a reference of its key the owner comes last; otherwise it takes the place of the first one
  cases hfind : rs.find? (·.key = owner.reference.key) with
  | none =>
    have hnone : ∀ r ∈ rs, r.key ≠ owner.reference.key := by simpa using hfind
    have hrecorded := howner.recordOwner_append hrs hnone (rfl : recordOwner owner.reference [] = _)
    rw [List.append_nil] at hrecorded
    exact ⟨_, hrecorded, .appended hnone⟩
  | some r =>
    obtain ⟨hkey, before, after, rfl, hbefore⟩ := List.find?_eq_some_iff_append.mp hfind
    rw [decide_eq_true_eq] at hkey
    have hfirst : ∀ r' ∈ before, r'.key ≠ owner.reference.key := by simpa using hbefore
    exact ⟨_, howner.recordOwner_of_first hrs hfirst hkey, .replaced hfirst hkey⟩

end Owner

namespace Recorded

variable {owner : OwnerReference} {rs rs' : List OwnerReference}

/-- The owner's reference is the first one with its key from then on. -/
theorem exists_split (h : Recorded owner rs rs') :
    ∃ before after, rs' = before ++ owner :: after ∧ ∀ r ∈ before, r.key ≠ owner.key := by
  cases h with
  | replaced hfirst hkey => exact ⟨_, _, rfl, hfirst⟩
  | appended hnone => exact ⟨_, [], rfl, hnone⟩

theorem owner_mem (h : Recorded owner rs rs') : owner ∈ rs' := by
  obtain ⟨before, after, rfl, -⟩ := h.exists_split
  exact List.mem_append_right _ List.mem_cons_self

/-- Nothing else is new: what is there is the owner's reference or was there before. -/
theorem mem (h : Recorded owner rs rs') {r : OwnerReference} (hr : r ∈ rs') : r = owner ∨ r ∈ rs := by
  cases h with
  | replaced hfirst hkey =>
    rw [List.mem_append, List.mem_cons] at hr
    rcases hr with hr | rfl | hr
    · exact .inr (List.mem_append_left _ hr)
    · exact .inl rfl
    · exact .inr (List.mem_append_right _ (List.mem_cons_of_mem _ hr))
  | appended hnone =>
    rw [List.mem_append, List.mem_singleton] at hr
    exact hr.symm

end Recorded

/-! ## One owner -/

section Owner

variable {owner : OwnerIdentity} (howner : owner.Textual) {s : Service}
  (hs : ∀ r ∈ s.owners, r.Versioned)
include howner hs

/-- An owner that is accepted is recorded. -/
theorem OwnerIdentity.Textual.run_attach_of_accepts (haccepts : s.Accepts owner)
    {rs : List OwnerReference} (hrs : recordOwner owner.reference s.owners = .ok rs) :
    (attach owner).run.run s = (.ok (), { s with owners := rs }) := by
  rw [run_attach, link]
  rcases howner.checkOwner_cases s.space with ⟨howner', -⟩ | ⟨-, hrefused⟩
  · rcases howner.checkControllers_cases s.key hs with ⟨hcontrollers, -⟩ | ⟨-, hrefused⟩
    · rw [howner', hcontrollers, hrs]
      rfl
    · exact absurd haccepts.controllers hrefused
  · exact absurd ⟨haccepts.parts, haccepts.space⟩ hrefused

/-- An owner that is not accepted is refused, and the service stays as it is. -/
theorem OwnerIdentity.Textual.run_attach_of_not_accepts (hrefused : ¬s.Accepts owner) :
    ∃ refusal, (attach owner).run.run s = (.error (.linkage refusal), s) := by
  rw [run_attach, link]
  rcases howner.checkOwner_cases s.space with ⟨hchecked, hparts, hspace⟩ | ⟨⟨refusal, hchecked⟩, -⟩
  · rcases howner.checkControllers_cases s.key hs with ⟨-, hcontrollers⟩ | ⟨⟨refusal, hcontrollers⟩, -⟩
    · exact absurd ⟨hparts, hspace, hcontrollers⟩ hrefused
    · rw [hchecked, hcontrollers]
      exact ⟨refusal, rfl⟩
  · rw [hchecked]
    exact ⟨refusal, rfl⟩

end Owner

section Recorded

variable {owner : OwnerIdentity} {s : Service} {rs : List OwnerReference}
  (hrs : Recorded owner.reference s.owners rs)
include hrs

theorem Recorded.versioned (howner : owner.Textual) (hs : ∀ r ∈ s.owners, r.Versioned) :
    ∀ r ∈ rs, r.Versioned := by
  intro r hr
  rcases hrs.mem hr with rfl | hr
  · exact howner.apiVersion
  · exact hs r hr

/-- An owner that has been recorded is accepted again. -/
theorem Service.Accepts.recorded (haccepts : s.Accepts owner) :
    ({ s with owners := rs } : Service).Accepts owner where
  parts := haccepts.parts
  space := haccepts.space
  controllers := fun r hr hcontroller => by
    rcases hrs.mem hr with rfl | hr
    · rfl
    · exact haccepts.controllers r hr hcontroller

theorem Service.Accepts.key_eq_of_recorded {other : OwnerIdentity}
    (haccepts : ({ s with owners := rs } : Service).Accepts other) :
    other.reference.key = owner.reference.key :=
  (haccepts.controllers owner.reference hrs.owner_mem rfl).symm

end Recorded

/-- **The linkage of an owner is exact, atomic and idempotent.** Whatever the references
of a service, an owner whose parts are texts is refused exactly if it lacks a part, lives
in another namespace or is not the one that a controller of the service names, and then
the service stays as it is. Else its reference takes the place of the first one with its
key, or comes last, and nothing else changes; from then on the same owner is linked to no
effect, and every owner with another key is refused. All of it is read off `run_attach`
and `Recorded`, which says what the references are afterwards. -/
theorem attach_settles {owner : OwnerIdentity} (howner : owner.Textual) {s : Service}
    (hs : ∀ r ∈ s.owners, r.Versioned) :
    let refused := (owner.apiVersion = "" ∨ owner.kind = "" ∨ owner.name = "" ∨ owner.uid = "")
      ∨ (owner.space ≠ "" ∧ owner.space ≠ s.space)
      ∨ ∃ r ∈ s.owners, r.controller.truthy = true ∧ r.key ≠ owner.reference.key
    (refused → ∃ refusal, (attach owner).run.run s = (.error (.linkage refusal), s))
    ∧ (¬refused → ∃ rs, let linked := { s with owners := rs }
        Recorded owner.reference s.owners rs
        ∧ (attach owner).run.run s = (.ok (), linked)
        ∧ (attach owner).run.run linked = (.ok (), linked)
        ∧ ∀ other : OwnerIdentity, other.Textual → other.reference.key ≠ owner.reference.key →
          ∃ refusal, (attach other).run.run linked = (.error (.linkage refusal), linked)) := by
  intro refused
  have hrefused : ¬s.Accepts owner ↔ refused := s.not_accepts_iff owner
  constructor
  · intro h
    exact howner.run_attach_of_not_accepts hs (hrefused.mpr h)
  · intro h
    have haccepts : s.Accepts owner := Classical.not_not.mp fun hnot => h (hrefused.mp hnot)
    obtain ⟨rs, hrecord, hrs⟩ := howner.exists_recorded hs
    have hversioned := hrs.versioned howner hs
    refine ⟨rs, hrs, howner.run_attach_of_accepts hs haccepts hrecord, ?_, ?_⟩
    · refine howner.run_attach_of_accepts hversioned (haccepts.recorded hrs) ?_
      -- the owner's reference is the first with its key, so it is its own place that it takes
      obtain ⟨before, after, rfl, hfirst⟩ := hrs.exists_split
      exact howner.recordOwner_of_first hversioned hfirst rfl
    · intro other hother hkey
      refine hother.run_attach_of_not_accepts hversioned fun haccepts' => ?_
      exact hkey (haccepts'.key_eq_of_recorded hrs)

/-- A deployment that owns a service, by a version that its reference does not have. -/
def OwnerIdentity.deployment : OwnerIdentity where
  apiVersion := "apps/v1"
  kind := "Deployment"
  name := "web"
  uid := "u-3"

theorem OwnerIdentity.textual_deployment : deployment.Textual :=
  ⟨⟨_, rfl⟩, ⟨_, rfl⟩, ⟨_, rfl⟩, ⟨_, rfl⟩, ⟨_, rfl⟩⟩

/-- A daemon set of the same name, which is another owner. -/
def OwnerIdentity.daemonSet : OwnerIdentity := { deployment with kind := "DaemonSet" }

theorem OwnerIdentity.textual_daemonSet : daemonSet.Textual :=
  { textual_deployment with kind := ⟨_, rfl⟩ }

/-- A reference to that deployment by an earlier version, which makes nobody the
controller. -/
def OwnerReference.beta : OwnerReference where
  apiVersion := "apps/v1beta1"
  kind := "Deployment"
  name := "web"
  uid := "u-1"

/-- A service with such a reference is linked to the deployment, and then to no daemon
set. -/
theorem attach_settles_deployment :
    let s : Service := { space := "ns", name := "web", owners := [.beta] }
    ∃ rs, let linked := { s with owners := rs }
      Recorded OwnerIdentity.deployment.reference [.beta] rs
      ∧ (attach .deployment).run.run s = (.ok (), linked)
      ∧ (attach .deployment).run.run linked = (.ok (), linked)
      ∧ ∃ refusal, (attach .daemonSet).run.run linked = (.error (.linkage refusal), linked) := by
  intro s
  have hversioned : ∀ r ∈ s.owners, r.Versioned := by
    rw [List.forall_mem_singleton]
    exact ⟨_, rfl⟩
  have haccepts : s.Accepts .deployment := ⟨by decide, by decide, by decide⟩
  obtain ⟨rs, hrs, hlinked, hagain, hrefused⟩ :=
    (attach_settles OwnerIdentity.textual_deployment hversioned).2
      fun h => (s.not_accepts_iff .deployment).mpr h haccepts
  exact ⟨rs, hrs, hlinked, hagain, hrefused .daemonSet OwnerIdentity.textual_daemonSet (by decide)⟩

/-! ## One owner after the other

The controllers of a service are counted. An owner that is accepted adds one, unless the first reference
with its key was one; and from then on it is. -/

def controllerCount (rs : List OwnerReference) : Nat := rs.countP (·.controller.truthy)

/-- The first reference with a key makes its owner the controller. -/
def Fronted (key : OwnerKey) (rs : List OwnerReference) : Prop :=
  ∃ c, rs.find? (·.key = key) = some c ∧ c.controller.truthy = true

/-- A controller stands behind another reference to the same owner. -/
def Shadowed (rs : List OwnerReference) : Prop :=
  ∃ before c after, rs = before ++ c :: after ∧ c.controller.truthy = true
    ∧ ∃ r ∈ before, r.key = c.key

theorem find?_key_of_first {before after : List OwnerReference} {r : OwnerReference} {key : OwnerKey}
    (hfirst : ∀ r' ∈ before, r'.key ≠ key) (hkey : r.key = key) :
    (before ++ r :: after).find? (·.key = key) = some r := by
  rw [List.find?_eq_some_iff_append]
  exact ⟨decide_eq_true hkey, before, after, rfl, by simpa using hfirst⟩

/-- How many controllers there are, with one reference singled out. What is recorded takes
the place of one reference, so the count changes by that one alone. -/
theorem controllerCount_append_cons (before after : List OwnerReference) (r : OwnerReference) :
    controllerCount (before ++ r :: after)
      = controllerCount before + controllerCount after + if r.controller.truthy then 1 else 0 := by
  unfold controllerCount
  rw [List.countP_append, List.countP_cons]
  omega

namespace Recorded

variable {owner : OwnerReference} {rs rs' : List OwnerReference}

theorem fronted (h : Recorded owner rs rs') (howner : owner.controller.truthy = true) :
    Fronted owner.key rs' := by
  obtain ⟨before, after, rfl, hfirst⟩ := h.exists_split
  exact ⟨owner, find?_key_of_first hfirst rfl, howner⟩

/-- Nothing is added where a controller is replaced. The reference that is put there is a
controller too. -/
theorem controllerCount_of_fronted (h : Recorded owner rs rs') (howner : owner.controller.truthy = true)
    (hfronted : Fronted owner.key rs) : controllerCount rs' = controllerCount rs := by
  obtain ⟨c, hfind, hcontroller⟩ := hfronted
  cases h with
  | replaced hfirst hkey =>
    rw [find?_key_of_first hfirst hkey, Option.some.injEq] at hfind
    subst hfind
    rw [controllerCount_append_cons, controllerCount_append_cons, howner, hcontroller]
  | appended hnone =>
    have hmem := List.mem_of_find?_eq_some hfind
    have hkey := List.find?_some hfind
    exact absurd (of_decide_eq_true hkey) (hnone c hmem)

/-- A controller is added where none is replaced, because a reference to the same owner
that is none stood before the controller and was taken for it. -/
theorem controllerCount_of_not_fronted (h : Recorded owner rs rs')
    (howner : owner.controller.truthy = true) (hfronted : ¬Fronted owner.key rs) :
    controllerCount rs' = controllerCount rs + 1 := by
  cases h with
  | @replaced before after r hfirst hkey =>
    have hcontroller : ¬r.controller.truthy = true := fun htrue =>
      hfronted ⟨r, find?_key_of_first hfirst hkey, htrue⟩
    rw [controllerCount_append_cons, controllerCount_append_cons, if_pos howner, if_neg hcontroller]
  | appended hnone =>
    rw [controllerCount_append_cons, if_pos howner]
    rfl

end Recorded

/-! What is shadowed is a controller that does not come first. -/

/-- A service with one controller at most has it shadowed exactly if an owner it accepts
would not replace it. -/
theorem shadowed_iff {owner : OwnerIdentity} {s : Service} (haccepts : s.Accepts owner)
    (hone : controllerCount s.owners ≤ 1) :
    Shadowed s.owners
      ↔ controllerCount s.owners = 1 ∧ ¬Fronted owner.reference.key s.owners := by
  constructor
  · rintro ⟨before, c, after, hrs, hcontroller, r, hr, hkey⟩
    have hmem : c ∈ s.owners := by
      rw [hrs]
      exact List.mem_append_right _ List.mem_cons_self
    have hcount : controllerCount s.owners
        = controllerCount before + controllerCount after + 1 := by
      rw [hrs, controllerCount_append_cons, if_pos hcontroller]
    refine ⟨by omega, ?_⟩
    rintro ⟨c', hfind, hcontroller'⟩
    -- the first one with the key stands before the controller, so it is none itself
    have hbefore : before.find? (·.key = owner.reference.key) = some c' := by
      have hsome : (before.find? (·.key = owner.reference.key)).isSome = true := by
        rw [List.find?_isSome]
        exact ⟨r, hr, decide_eq_true (hkey.trans (haccepts.controllers c hmem hcontroller))⟩
      rw [hrs, List.find?_append, Option.or_of_isSome hsome] at hfind
      exact hfind
    have hpos : 0 < controllerCount before :=
      List.countP_pos_iff.mpr ⟨c', List.mem_of_find?_eq_some hbefore, hcontroller'⟩
    omega
  · rintro ⟨hcount, hfronted⟩
    obtain ⟨c, hmem, hcontroller⟩ : ∃ c ∈ s.owners, c.controller.truthy = true :=
      List.countP_pos_iff.mp (by unfold controllerCount at hcount; omega)
    obtain ⟨before, after, hrs⟩ := List.append_of_mem hmem
    refine ⟨before, c, after, hrs, hcontroller, ?_⟩
    have hkey := haccepts.controllers c hmem hcontroller
    -- else it would be the first one with the key
    refine Classical.byContradiction fun hnone => hfronted ⟨c, ?_, hcontroller⟩
    rw [hrs]
    refine find?_key_of_first (fun r hr hsame => hnone ⟨r, hr, ?_⟩) hkey
    exact hsame.trans hkey.symm

/-- Links the service at hand to one owner after the other, and goes on where one is
refused. -/
def attachEach : List OwnerIdentity → Editing Unit
  | [] => pure ()
  | owner :: rest => do
    try attach owner
    catch
      | .linkage _ => pure ()
      | f => throw f
    attachEach rest

/-- Whether an owner is accepted or refused, the next one is linked. -/
theorem run_attachEach_cons {owner : OwnerIdentity} {s s' : Service} {result : Except Fault Unit}
    (hrun : (attach owner).run.run s = (result, s'))
    (hresult : result = .ok () ∨ ∃ refusal, result = .error (.linkage refusal))
    (rest : List OwnerIdentity) :
    (attachEach (owner :: rest)).run.run s = (attachEach rest).run.run s' := by
  have hattach : attach owner s = (result, s') := hrun
  show ExceptT.bind (ExceptT.tryCatch (attach owner) _) _ s = _
  simp only [ExceptT.bind, ExceptT.tryCatch, ExceptT.mk, bind, StateT.bind, hattach]
  rcases hresult with rfl | ⟨refusal, rfl⟩
  · rfl
  · rfl

section Owners

variable {owners : List OwnerIdentity} (howners : ∀ owner ∈ owners, owner.Textual) {s : Service}
  (hs : ∀ r ∈ s.owners, r.Versioned)
include hs

/-- One step: the first owner is recorded, or the service stays as it is; then the other
owners are linked. -/
theorem run_attachEach_cases {owner : OwnerIdentity} (howner : owner.Textual)
    (rest : List OwnerIdentity) :
    (s.Accepts owner ∧ ∃ rs, Recorded owner.reference s.owners rs
        ∧ (attachEach (owner :: rest)).run.run s = (attachEach rest).run.run { s with owners := rs })
      ∨ (¬s.Accepts owner ∧ (attachEach (owner :: rest)).run.run s = (attachEach rest).run.run s) := by
  by_cases haccepts : s.Accepts owner
  · obtain ⟨rs, hrecord, hrs⟩ := howner.exists_recorded hs
    have hrun := howner.run_attach_of_accepts hs haccepts hrecord
    exact .inl ⟨haccepts, rs, hrs, run_attachEach_cons hrun (.inl rfl) rest⟩
  · obtain ⟨refusal, hrun⟩ := howner.run_attach_of_not_accepts hs haccepts
    exact .inr ⟨haccepts, run_attachEach_cons hrun (.inr ⟨refusal, rfl⟩) rest⟩

include howners

/-- Once the first reference to an owner is a controller, no controller is added: whoever
is accepted has its key, and so replaces it. -/
theorem run_attachEach_of_fronted {key : OwnerKey} (hfronted : Fronted key s.owners) :
    ∃ rs, (attachEach owners).run.run s = (.ok (), { s with owners := rs })
      ∧ controllerCount rs = controllerCount s.owners := by
  induction owners generalizing s with
  | nil => exact ⟨s.owners, rfl, rfl⟩
  | cons owner rest ih =>
    rw [List.forall_mem_cons] at howners
    obtain ⟨howner, howners⟩ := howners
    rcases run_attachEach_cases hs howner rest with ⟨haccepts, rs, hrs, hrun⟩ | ⟨-, hrun⟩
    · -- an owner that is accepted has the key of the controller in front, as otherwise it would be
      -- refused
      have hkey : owner.reference.key = key := by
        obtain ⟨c, hfind, hcontroller⟩ := hfronted
        have hc := haccepts.controllers c (List.mem_of_find?_eq_some hfind) hcontroller
        have hkey : c.key = key := by simpa using List.find?_some hfind
        exact hc.symm.trans hkey
      subst hkey
      obtain ⟨rs', hrun', hcount⟩ :=
        ih howners (s := { s with owners := rs }) (hrs.versioned howner hs) (hrs.fronted rfl)
      refine ⟨rs', hrun.trans hrun', ?_⟩
      exact hcount.trans (hrs.controllerCount_of_fronted rfl hfronted)
    · obtain ⟨rs, hrun', hcount⟩ := ih howners hs hfronted
      exact ⟨rs, hrun.trans hrun', hcount⟩

/-- **How many controllers there are.** A service that has one controller at most is
linked to any number of owners, one after the other, and to those only that are not
refused. Afterwards it has one at most, unless its controller stood behind another
reference to the same owner and one of the owners was accepted: then it has two. The step
is `run_attachEach_cases`; after the first owner that is accepted, its reference is the
first of its key and every other key is refused, so the number does not change again. -/
theorem attachEach_controllers (hone : controllerCount s.owners ≤ 1) :
    ∃ rs, (attachEach owners).run.run s = (.ok (), { s with owners := rs })
      ∧ controllerCount rs ≤ 2
      ∧ (controllerCount rs ≤ 1 ↔ ¬(Shadowed s.owners ∧ ∃ owner ∈ owners, s.Accepts owner)) := by
  induction owners with
  | nil =>
    refine ⟨s.owners, rfl, by omega, iff_of_true hone ?_⟩
    rintro ⟨-, owner, hmem, -⟩
    exact List.not_mem_nil hmem
  | cons owner rest ih =>
    rw [List.forall_mem_cons] at howners
    obtain ⟨howner, howners⟩ := howners
    -- an owner that is refused leaves the references, so only the accepted ones count
    rcases run_attachEach_cases hs howner rest with ⟨haccepts, rs, hrs, hrun⟩ | ⟨hrefused, hrun⟩
    · obtain ⟨rs', hrun', hcount⟩ :=
        run_attachEach_of_fronted howners (s := { s with owners := rs }) (hrs.versioned howner hs)
          (hrs.fronted rfl)
      dsimp only at hcount
      have haccepted : ∃ o ∈ owner :: rest, s.Accepts o := ⟨owner, List.mem_cons_self, haccepts⟩
      refine ⟨rs', hrun.trans hrun', ?_⟩
      rw [and_iff_left haccepted, shadowed_iff haccepts hone, hcount]
      -- Whether the first reference of this key is the controller decides whether one is replaced or one
      -- is added.
      by_cases hfronted : Fronted owner.reference.key s.owners
      · have hsame := hrs.controllerCount_of_fronted rfl hfronted
        exact ⟨by omega, iff_of_true (by omega) fun h => h.2 hfronted⟩
      · have hmore := hrs.controllerCount_of_not_fronted rfl hfronted
        refine ⟨by omega, ?_⟩
        constructor
        · intro hle h
          omega
        · intro h
          have hnone : controllerCount s.owners ≠ 1 := fun h' => h ⟨h', hfronted⟩
          omega
    · obtain ⟨rs, hrun', htwo, hiff⟩ := ih howners
      refine ⟨rs, hrun.trans hrun', htwo, ?_⟩
      rw [hiff]
      simp only [List.mem_cons, exists_eq_or_imp, hrefused, false_or]

end Owners

/-- A service whose controller stands behind another reference to the same deployment. -/
def Service.overshadowed : Service where
  space := "ns"
  name := "web"
  owners := [.beta, { OwnerIdentity.deployment.reference with uid := "u-2" }]

theorem Service.versioned_overshadowed : ∀ r ∈ overshadowed.owners, r.Versioned := by
  simp only [overshadowed, List.forall_mem_cons]
  exact ⟨⟨_, rfl⟩, ⟨_, rfl⟩, by simp⟩

/-- Linked to the deployment again, and to a daemon set that is refused, it has two
controllers. -/
theorem attachEach_controllers_overshadowed :
    let owners := [OwnerIdentity.daemonSet, OwnerIdentity.deployment]
    controllerCount Service.overshadowed.owners = 1
      ∧ Shadowed Service.overshadowed.owners
      ∧ ∃ rs, (attachEach owners).run.run .overshadowed
          = (.ok (), { Service.overshadowed with owners := rs })
        ∧ controllerCount rs = 2 := by
  intro owners
  have howners : ∀ owner ∈ owners, owner.Textual := by
    simp only [owners, List.forall_mem_cons]
    exact ⟨OwnerIdentity.textual_daemonSet, OwnerIdentity.textual_deployment, by simp⟩
  -- the later version makes the deployment the controller, behind an older reference that makes it none
  have hshadowed : Shadowed Service.overshadowed.owners :=
    ⟨[.beta], _, [], rfl, rfl, .beta, List.mem_singleton_self _, by decide⟩
  have haccepts : Service.overshadowed.Accepts .deployment := ⟨by decide, by decide, by decide⟩
  obtain ⟨rs, hrun, htwo, hiff⟩ := attachEach_controllers howners Service.versioned_overshadowed (by decide)
  have hmany : ¬controllerCount rs ≤ 1 := fun h =>
    hiff.mp h ⟨hshadowed, .deployment, List.mem_cons_of_mem _ List.mem_cons_self, haccepts⟩
  exact ⟨rfl, hshadowed, rs, hrun, by omega⟩

/-- **A second controller.** The linkage of that service to its own deployment is accepted
for the controller, and replaces the reference before it. -/
theorem second_controller_attached :
    let controller := { OwnerIdentity.deployment.reference with uid := "u-2" }
    let linked := { Service.overshadowed with
      owners := [OwnerIdentity.deployment.reference, controller] }
    OwnerIdentity.deployment.Textual
      ∧ (∀ r ∈ Service.overshadowed.owners, r.Versioned)
      ∧ Service.overshadowed.owners = [.beta, controller]
      ∧ controllerCount Service.overshadowed.owners = 1
      ∧ (attach .deployment).run.run .overshadowed = (.ok (), linked)
      ∧ controllerCount linked.owners = 2 :=
  ⟨OwnerIdentity.textual_deployment, Service.versioned_overshadowed, rfl, rfl, rfl, rfl⟩

end Keeper
