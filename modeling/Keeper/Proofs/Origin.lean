import Keeper.Linkage
import Keeper.Proofs.Drift

/-!
# Keeper — where services come from

A service is read from a manifest or built, and then it may be linked to owners and brought in line
with other services. Whatever has been done to it, it is like one that was just read.

* **`Service.Obtained`** — the services that come about.
* **`Obtained.regular`**, **`Obtained.ordinary`**, **`Obtained.shallow`** — what all of them are like:
  by induction on how they came about, one lemma for each way.
-/

namespace Keeper

namespace Service

/-- The services that come about from ordinary manifests and from settings and owners
given as texts and integers. -/
inductive Obtained : Service → Prop where
  | read {v : Value} {s : Service} (hv : v.ordinary = true) (h : ofManifest v = .ok s) : Obtained s
  | built (w : Wanted) {s : Service} (h : w.settings.build w.ownerName w.space = .ok s) : Obtained s
  | linked (w : Wanted) {s s' : Service} (hs : Obtained s) (h : link w.owner s = .ok s') :
    Obtained s'
  | patched {s d : Service} (hs : Obtained s) (hd : Obtained d) : Obtained (s.compare d).patched

end Service

/-! ## Read -/

/-- The parts of an ordinary manifest are read as ordinary ones. The lemmas follow the
readers part by part. -/
theorem OwnerReference.ordinary_of_ofManifest {v : Value} (hv : v.ordinary = true)
    {r : OwnerReference} (h : ofManifest v = .ok r) : r.Ordinary := by
  obtain ⟨fields, rfl, htextual, hcontroller, hblock⟩ := exists_of_ofManifest h
  obtain ⟨⟨_, hversion⟩, ⟨_, hkind⟩, ⟨_, hname⟩, ⟨_, huid⟩⟩ := htextual
  -- A flag that is not given is null; one that is given is part of the ordinary manifest.
  have hflag (key : Text) : (fields.getD (.text key) .null).ordinary = true := by
    cases hget : Fields.get? fields (.text key) with
    | none => simp [Fields.getD, hget]
    | some w => simpa [Fields.getD, hget] using Value.ordinary_of_get? hv hget
  exact ⟨hversion ▸ Value.ordinary_text _, hkind ▸ Value.ordinary_text _,
    hname ▸ Value.ordinary_text _, huid ▸ Value.ordinary_text _, hcontroller ▸ hflag "controller",
    hblock ▸ hflag "blockOwnerDeletion"⟩

/-- A port keeps the fields it was read from, so these have to be ordinary too. -/
theorem Port.ordinary_of_ofManifest {v : Value} (hv : v.ordinary = true) {p : Port}
    (h : ofManifest v = .ok p) : p.Ordinary := by
  obtain ⟨fields, rfl, hread⟩ := ofManifest_eq_ok_iff.mp h
  obtain ⟨i, -, hport⟩ := hread.port
  refine ⟨by rw [hport]; exact Value.ordinary_int i, ?_, ?_⟩
  · -- Without a target port the port's own number stands in for it.
    rw [hread.target]
    cases hget : Fields.get? fields (.text "targetPort") with
    | none => simp [Fields.getD, hget, hport]
    | some w => simpa [Fields.getD, hget] using Value.ordinary_of_get? hv hget
  · rw [hread.extra]
    exact Value.ordinary_of_sublist hv List.filter_sublist

namespace Service

/-- So a service that is read from an ordinary manifest is ordinary. Each field was a part
of the manifest, or is a text or a default in its place. -/
theorem ReadFrom.ordinary {s : Service} {m md sp : Fields} (h : s.ReadFrom m md sp)
    (hm : (Value.map m).ordinary = true) : s.Ordinary := by
  have hinherited := Value.ordinary_inherited
  have hmetadata := hinherited.part hm h.metadata
  have hspec := hinherited.part hm h.spec
  -- a map of a section is made from an ordinary value
  have hmap {fs gs : Fields} {key : Text} (hfs : (Value.map fs).ordinary = true)
      (hpart : fs.part? key = .ok (some gs)) : (Value.map gs).ordinary = true := by
    obtain ⟨v, hv, hfields⟩ := hinherited.part? hfs hpart
    exact Value.ordinary_of_toFields hv hfields
  obtain ⟨⟨_, hspace⟩, ⟨_, hname⟩⟩ : (∃ t : Text, s.space = .text t) ∧ ∃ t : Text, s.name = .text t :=
    ⟨h.regular.space, h.regular.name⟩
  exact {
    space := by rw [hspace]; exact Value.ordinary_text _
    name := by rw [hname]; exact Value.ordinary_text _
    labels := fun fs hfs => hmap hmetadata (by rw [h.labels, hfs])
    annotations := fun fs hfs => hmap hmetadata (by rw [h.annotations, hfs])
    owners := fun r hr => by
      obtain ⟨xs, hxs, howners⟩ := Fault.bind_eq_ok.mp h.owners
      obtain ⟨x, hx, hread⟩ := exists_of_mem_mapM howners hr
      exact OwnerReference.ordinary_of_ofManifest (hinherited.parts hinherited hmetadata hxs x hx) hread
    selector := fun fs hfs => hmap hspec (by rw [h.selector, hfs])
    ports := fun p hp => by
      obtain ⟨xs, hxs, hports⟩ := Fault.bind_eq_ok.mp h.ports
      obtain ⟨x, hx, hread⟩ := exists_of_mem_mapM hports hp
      exact Port.ordinary_of_ofManifest (hinherited.parts hinherited hspec hxs x hx) hread
    raw := by rw [h.raw]; exact hm }

end Service

/-! ## Built -/

/-- What is built is what is wanted, without an owner. -/
theorem Wanted.eq_of_build {w : Wanted} {s : Service}
    (h : w.settings.build w.ownerName w.space = .ok s) : s = { w.service with owners := [] } := by
  unfold ServiceSettings.build at h
  rw [w.secret_eq, w.target_eq] at h
  by_cases hname : (Value.text w.ownerName).truthy = true
  · by_cases hspace : (Value.text w.space).truthy = true
    · rw [hname, hspace] at h
      exact (Except.ok.inj h).symm
    · rw [hname, (Bool.not_eq_true _).mp hspace] at h
      cases h
  · rw [(Bool.not_eq_true _).mp hname] at h
    cases h

/-! ## Linked

A linkage changes the owner references only: one is put in, the others stay. -/

/-- A recorded reference is the owner's or was there before. So what holds of both the
owner and the references there were holds of all references afterwards. -/
theorem mem_of_recordOwner {owner r : OwnerReference} {rs rs' : List OwnerReference}
    (h : recordOwner owner rs = .ok rs') (hr : r ∈ rs') : r = owner ∨ r ∈ rs := by
  induction rs generalizing rs' with
  | nil =>
    obtain rfl : [owner] = rs' := Except.ok.inj h
    exact .inl (List.mem_singleton.mp hr)
  | cons existing rest ih =>
    rw [recordOwner] at h
    obtain ⟨same, -, h⟩ := Fault.bind_eq_ok.mp h
    -- The first reference to the same owner gives way to the new one; any other stays.
    cases same with
    | true =>
      obtain rfl : owner :: rest = rs' := Except.ok.inj h
      exact (List.mem_cons.mp hr).imp_right (List.mem_cons_of_mem _)
    | false =>
      obtain ⟨rest', hrest', h⟩ := Fault.bind_eq_ok.mp h
      obtain rfl : existing :: rest' = rs' := Except.ok.inj h
      rcases List.mem_cons.mp hr with rfl | hr
      · exact .inr List.mem_cons_self
      · exact (ih hrest' hr).imp_right (List.mem_cons_of_mem _)

/-- Linking changes the references and nothing else. -/
theorem eq_of_link {owner : OwnerIdentity} {s s' : Service} (h : link owner s = .ok s') :
    ∃ rs, recordOwner owner.reference s.owners = .ok rs ∧ s' = { s with owners := rs } := by
  obtain ⟨-, -, h⟩ := Fault.bind_eq_ok.mp h
  obtain ⟨-, -, h⟩ := Fault.bind_eq_ok.mp h
  obtain ⟨rs, hrs, h⟩ := Fault.bind_eq_ok.mp h
  exact ⟨rs, hrs, (Except.ok.inj h).symm⟩

/-- The desired service is built, and then linked to its owner. -/
theorem Wanted.obtained_service {w : Wanted} (h : w.Valid) : w.service.Obtained :=
  .linked w (.built w (build_eq h)) (link_eq h)

namespace Service

/-- Each of the three properties of a service is kept by linking it, since the owner's
reference has it. -/
theorem Regular.linked {w : Wanted} {s s' : Service} (hs : s.Regular)
    (h : link w.owner s = .ok s') : s'.Regular := by
  obtain ⟨rs, hrs, rfl⟩ := eq_of_link h
  refine ⟨hs.space, hs.name, fun r hr => ?_, hs.ports, hs.type⟩
  rcases mem_of_recordOwner hrs hr with rfl | hr
  · exact ⟨⟨_, rfl⟩, ⟨_, rfl⟩, ⟨_, rfl⟩, ⟨_, rfl⟩⟩
  · exact hs.owners r hr

theorem Ordinary.linked {w : Wanted} {s s' : Service} (hs : s.Ordinary)
    (h : link w.owner s = .ok s') : s'.Ordinary := by
  obtain ⟨rs, hrs, rfl⟩ := eq_of_link h
  refine { hs with owners := fun r hr => ?_ }
  rcases mem_of_recordOwner hrs hr with rfl | hr
  · exact w.ordinary_reference
  · exact hs.owners r hr

theorem Shallow.linked {w : Wanted} {s s' : Service} (hs : s.Shallow)
    (h : link w.owner s = .ok s') : s'.Shallow := by
  obtain ⟨rs, hrs, rfl⟩ := eq_of_link h
  refine { hs with owners := fun r hr => ?_ }
  rcases mem_of_recordOwner hrs hr with rfl | hr
  · exact w.shallow_service.owners _ (List.mem_singleton_self _)
  · exact hs.owners r hr

/-! ## Whatever has been done -/

/-- Whatever has been done to a service in these four ways, it is regular. The induction
is on how it has come about. -/
theorem Obtained.regular {s : Service} (h : s.Obtained) : s.Regular := by
  -- On how the service was obtained; each way keeps the fields regular by a lemma of its own.
  induction h with
  | read hv h =>
    obtain ⟨m, md, sp, -, hread⟩ := ofManifest_eq_ok_iff.mp h
    exact hread.regular
  | built w h =>
    rw [w.eq_of_build h]
    exact { w.regular_service with owners := by simp }
  | linked w hs h ih => exact ih.linked h
  | patched hs hd ihs ihd => exact ihs.patched ihd

/-- And ordinary, by the same induction. -/
theorem Obtained.ordinary {s : Service} (h : s.Obtained) : s.Ordinary := by
  induction h with
  | read hv h =>
    obtain ⟨m, md, sp, rfl, hread⟩ := ofManifest_eq_ok_iff.mp h
    exact hread.ordinary hv
  | built w h =>
    rw [w.eq_of_build h]
    exact { w.ordinary_service with owners := by simp }
  | linked w hs h ih => exact ih.linked h
  | patched hs hd ihs ihd => exact ihs.patched ihd

/-- And its values are not nested more deeply than they can be copied. -/
theorem Obtained.shallow {s : Service} (h : s.Obtained) : s.Shallow := by
  -- As for `ordinary`: only a service that was read has sections of a depth worth bounding.
  induction h with
  | read hv h =>
    obtain ⟨m, md, sp, rfl, hread⟩ := ofManifest_eq_ok_iff.mp h
    exact hread.fields_shallow
  | built w h =>
    rw [w.eq_of_build h]
    exact { w.shallow_service with owners := by simp }
  | linked w hs h ih => exact ih.linked h
  | patched hs hd ihs ihd => exact ihs.patched ihd

end Service

end Keeper
