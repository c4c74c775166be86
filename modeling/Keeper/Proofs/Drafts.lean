import Keeper.Draft
import Keeper.Proofs.Merge

/-!
# Keeper — what is done to drafts

A draft is worth having only if it behaves as the service does as long as nothing in it has been edited.
Each thing that can be done to a service can be done to its draft, and comes to the same: the two ways
round from a service to the outcome on drafts agree. An edit changes the part or the item it is about
and nothing else.

* **`Value.SameItem`**, **`Value.setItem_reads`** — an item that was written is read at its place, and all
  others as before.
* **`Draft.part_set`** — a part that was written, and the others.
* **`Draft.manifest_ofService`**, **`Draft.eqv_ofService`**, **`Draft.compare_ofService`**,
  **`Draft.link_ofService`** — a draft that has not been edited, in all that is done to services.
-/

namespace Keeper

/-! ## Items -/

namespace Value

/-- Two keys are for the same item of a value: one key of a map, or one place of a
list. -/
def SameItem (v key other : Value) : Prop :=
  match v with
  | .map _ => ∃ k l, key.key = .ok k ∧ other.key = .ok l ∧ k.same l = true
  | .list items => ∃ n, placeAmong items.length key = .ok n ∧ placeAmong items.length other = .ok n
  | _ => False

/-- A place among items is less than their number, counted from either end. -/
theorem lt_of_placeAmong {count n : Nat} {key : Value} (h : placeAmong count key = .ok n) : n < count := by
  unfold placeAmong at h
  obtain ⟨i, -, h⟩ := Fault.bind_eq_ok.mp h
  dsimp only at h
  -- A negative index counts from the end; only the range test that follows matters here.
  generalize (if i < 0 then i + count else i) = front at h
  split at h
  next hrange =>
    obtain rfl := Except.ok.inj h
    rw [Bool.and_eq_true, decide_eq_true_eq, decide_eq_true_eq] at hrange
    omega
  next => cases h

/-- The item of a map at a key that can be one is what is found there. -/
theorem item_map_eq {fs : Fields} {key : Value} {k : Scalar} (hk : key.key = .ok k) :
    (Value.map fs).item key = match Fields.get? fs k with
      | some w => .ok w
      | none => .error (.misuse .missingKey) := by
  unfold item
  dsimp only
  rw [hk]
  show (match Fields.get? fs k with | some w => (pure w : Except Fault Value) | none => _) = _
  cases Fields.get? fs k <;> rfl

theorem item_list (items : List Value) (key : Value) : (Value.list items).item key = itemAmong items key :=
  rfl

/-- An index that names a place gives what is there. -/
theorem itemAmong_of_placed {items : List Value} {key : Value} {n : Nat}
    (hn : placeAmong items.length key = .ok n) :
    itemAmong items key = match items[n]? with
      | some v => .ok v
      | none => .error (.misuse .missingItem) := by
  unfold itemAmong
  rw [hn]
  show (match items[n]? with | some v => (pure v : Except Fault Value) | none => _) = _
  cases items[n]? <;> rfl

theorem itemAmong_of_unplaced {items : List Value} {key : Value} {f : Fault}
    (hf : placeAmong items.length key = .error f) : itemAmong items key = .error f := by
  unfold itemAmong
  rw [hf]
  rfl

theorem setItem_map_eq_ok_iff {fs : Fields} {key v w : Value} :
    (Value.map fs).setItem key v = .ok w ↔ ∃ k, key.key = .ok k ∧ w = .map (fs.set k v) := by
  unfold setItem
  rw [Fault.bind_eq_ok]
  refine exists_congr fun k => and_congr_right fun _ => ?_
  exact ⟨fun h => (Except.ok.inj h).symm, fun h => h ▸ rfl⟩

/-- A list takes an item only at a place it has: it is never made longer. -/
theorem setItem_list_eq_ok_iff {xs : List Value} {key v w : Value} :
    (Value.list xs).setItem key v = .ok w
      ↔ ∃ n, placeAmong xs.length key = .ok n ∧ w = .list (xs.set n v) := by
  unfold setItem
  rw [Fault.bind_eq_ok]
  refine exists_congr fun n => and_congr_right fun _ => ?_
  exact ⟨fun h => (Except.ok.inj h).symm, fun h => h ▸ rfl⟩

theorem item_map_of_no_key {fs : Fields} {key : Value} {f : Fault} (hf : key.key = .error f) :
    (Value.map fs).item key = .error f := by
  unfold item
  dsimp only
  rw [hf]
  rfl

/-- In a map, what was written is at its key and at every key that is the same. Keys are
compared as the program compares them, so writing at `1` is seen at `True`, and nowhere
else. -/
theorem item_map_set {fs : Fields} {key : Value} {k : Scalar} (hk : key.key = .ok k)
    (written other : Value) :
    ((Value.map fs).SameItem key other → (Value.map (fs.set k written)).item other = .ok written)
      ∧ (¬(Value.map fs).SameItem key other →
        (Value.map (fs.set k written)).item other = (Value.map fs).item other) := by
  cases hl : other.key with
  | error f =>
    rw [item_map_of_no_key hl, item_map_of_no_key hl]
    refine ⟨?_, fun _ => rfl⟩
    rintro ⟨k', l, -, hother, -⟩
    cases hl.symm.trans hother
  | ok l =>
    -- With a key on both sides, looking up after the write is a test whether the two are the same key.
    rw [item_map_eq hl, item_map_eq hl, Fields.get?_set_key]
    constructor
    · rintro ⟨k', l', hkey, hother, hsame⟩
      obtain rfl := Except.ok.inj (hk.symm.trans hkey)
      obtain rfl := Except.ok.inj (hl.symm.trans hother)
      rw [if_pos hsame]
    · intro hnot
      have hsame : ¬k.same l = true := fun hsame => hnot ⟨k, l, hk, hl, hsame⟩
      rw [if_neg hsame]

/-- A list is as long as before once an item was written, so its places are the same; two
keys can be for one of them, from either end. -/
theorem item_list_set {xs : List Value} {key : Value} {n : Nat}
    (hn : placeAmong xs.length key = .ok n) (written other : Value) :
    ((Value.list xs).SameItem key other → (Value.list (xs.set n written)).item other = .ok written)
      ∧ (¬(Value.list xs).SameItem key other →
        (Value.list (xs.set n written)).item other = (Value.list xs).item other) := by
  have hlength : (xs.set n written).length = xs.length := List.length_set
  rw [item_list, item_list]
  -- Setting a place leaves the length alone, so an index that has no place still has none.
  cases hm : placeAmong xs.length other with
  | error f =>
    rw [itemAmong_of_unplaced hm, itemAmong_of_unplaced (hlength.symm ▸ hm)]
    refine ⟨?_, fun _ => rfl⟩
    rintro ⟨m, -, hother⟩
    cases hm.symm.trans hother
  | ok m =>
    rw [itemAmong_of_placed hm, itemAmong_of_placed (hlength.symm ▸ hm)]
    constructor
    · rintro ⟨n', hkey, hother⟩
      obtain rfl := Except.ok.inj (hn.symm.trans hkey)
      obtain rfl := Except.ok.inj (hm.symm.trans hother)
      rw [List.getElem?_set_self (lt_of_placeAmong hn)]
    · intro hnot
      have hne : n ≠ m := fun heq => hnot ⟨n, hn, heq ▸ hm⟩
      rw [List.getElem?_set_ne hne]

/-- **Items that are written.** Where an item was written, it is read at every key that is
for it; at any other key there is what was there before, or the same fault. -/
theorem setItem_reads {v key written w : Value} (h : v.setItem key written = .ok w) (other : Value) :
    (v.SameItem key other → w.item other = .ok written)
      ∧ (¬v.SameItem key other → w.item other = v.item other) := by
  cases v with
  | map fs =>
    obtain ⟨k, hk, rfl⟩ := setItem_map_eq_ok_iff.mp h
    exact item_map_set hk written other
  | list xs =>
    obtain ⟨n, hn, rfl⟩ := setItem_list_eq_ok_iff.mp h
    exact item_list_set hn written other
  | _ => cases h

end Value

/-! ## Items and parts of a draft -/

namespace DraftItem

variable {α : Type}

/-- Proper items are read without fail. -/
theorem mapM_read_proper (xs : List α) : (xs.map proper).mapM read = .ok xs := by
  rw [List.mapM_map]
  exact (Fault.mapM_eq_ok (fun x _ => rfl : ∀ x ∈ xs, (read ∘ proper) x = .ok (id x))).trans
    (congrArg _ (List.map_id xs))

/-- So a row of proper items is read to its end. -/
theorem takeWhile_proper (xs : List α) :
    (xs.map proper).takeWhile (fun i => i.read.isOk) = xs.map proper := by
  induction xs with
  | nil => rfl
  | cons x rest ih => exact congrArg _ ih

/-- And it is compared as the rows of what the items hold. -/
theorem allPairs_proper (agree : α → α → Bool) (xs ys : List α) :
    allPairs (eqv agree) (xs.map proper) (ys.map proper) = allPairs agree xs ys := by
  induction xs generalizing ys with
  | nil => cases ys <;> rfl
  | cons x rest ih =>
    cases ys with
    | nil => rfl
    | cons y more => exact congrArg _ (ih more)

end DraftItem

namespace Value

theorem eqv_ofOption (fs gs : Option Fields) :
    (ofOption fs).eqv (ofOption gs) = eqvOptional fs gs := by
  cases fs <;> cases gs <;> rfl

theorem text_eqv_text (s t : Text) : (Value.text s).eqv (.text t) = (s == t) := by
  rw [Bool.eq_iff_iff, eqv_text, beq_iff_eq, scalar.injEq, Scalar.text.injEq]

theorem orElse_ofOption (fs : Option Fields) :
    (ofOption fs).orElse (.map []) = .map (fs.getD []) := by
  cases fs with
  | none => rfl
  | some fs => cases fs <;> rfl

end Value

namespace Draft

/-- **Parts that are written.** The part has the value then, and everything else stays:
the other parts, and the owners and ports, which are written by names of their own. -/
theorem part_set {d e : Draft} {name : Text} {v : Value} (hkey : name ≠ keyName)
    (howners : name ≠ ownersName) (hports : name ≠ portsName) (h : d.set name v = .ok e) :
    (∀ other, e.part other = if name = other then v else d.part other)
      ∧ e.owners = d.owners ∧ e.ports = d.ports := by
  unfold set at h
  rw [if_neg hkey, if_neg howners, if_neg hports] at h
  obtain rfl := Except.ok.inj h
  refine ⟨fun other => ?_, rfl, rfl⟩
  unfold part Fields.getD
  dsimp only
  rw [Fields.get?_set]
  split <;> rfl

/-! ## Drafts of services -/

theorem owners_ofService (s : Service) : (ofService s).owners = s.owners.map .proper := rfl

theorem ports_ofService (s : Service) : (ofService s).ports = s.ports.map .proper := rfl

theorem fieldsOf_of_ofOption {d : Draft} {name : Text} {fs : Option Fields}
    (h : d.part name = .ofOption fs) : d.fieldsOf name = .ok fs := by
  unfold fieldsOf
  rw [h]
  cases fs <;> rfl

/-- A part that is a text is given unless it is empty. -/
theorem given?_of_text {d : Draft} {name t : Text} (h : d.part name = .text t) :
    d.given? name = if t.isEmpty then none else some (.text t) := by
  unfold given?
  rw [h]
  show (if (!t.isEmpty) = true then some (Value.text t) else none) = _
  cases t.isEmpty <;> rfl

/-- **Writing.** The draft of a service is written as the service is, or fails as it does.
A draft keeps its parts under names and only looks them up when it is written, in the
order of the service's fields. -/
theorem manifest_ofService (s : Service) : (ofService s).manifest = s.manifest := by
  have hlabels : (ofService s).fieldsOf "labels" = .ok s.labels := fieldsOf_of_ofOption rfl
  have hannotations : (ofService s).fieldsOf "annotations" = .ok s.annotations :=
    fieldsOf_of_ofOption rfl
  have hselector : (ofService s).fieldsOf "selector" = .ok s.selector := fieldsOf_of_ofOption rfl
  have hversion : (ofService s).given? "resource_version" = _ :=
    given?_of_text (t := s.resourceVersion) rfl
  have haddress : (ofService s).given? "cluster_ip" = _ := given?_of_text (t := s.clusterIP) rfl
  unfold manifest Service.manifest
  rw [hlabels, hannotations, hselector, hversion, haddress, owners_ofService, ports_ofService,
    DraftItem.mapM_read_proper, DraftItem.mapM_read_proper]
  -- both look at the kept metadata first, and at the kept specification after that
  refine bind_congr (x := Service.writable .wrongType
    ((s.raw.setAll Service.heading).getD "metadata" (.map []))) fun metadata => ?_
  exact bind_congr (x := Service.writable (Service.specMisuse s.selector
    ((s.raw.setAll Service.heading).getD "spec" (.map [])))
      ((s.raw.setAll Service.heading).getD "spec" (.map []))) fun spec => rfl

/-- **Equality.** Drafts of two services are equal where the services are: part by part,
since both hold the same parts in the same order. -/
theorem eqv_ofService (s t : Service) : (ofService s).eqv (ofService t) = s.eqv t := by
  have hparts : compared.all (fun name => ((ofService s).part name).eqv ((ofService t).part name))
      = (s.space.eqv t.space && (s.name.eqv t.name && (eqvOptional s.labels t.labels
        && (eqvOptional s.annotations t.annotations && (eqvOptional s.selector t.selector
          && ((s.type == t.type) && ((s.clusterIP == t.clusterIP)
            && (s.resourceVersion == t.resourceVersion)))))))) := by
    simp only [← Value.eqv_ofOption, ← Value.text_eqv_text]
    simp only [compared, List.all_cons, List.all_nil, Bool.and_true]
    rfl
  unfold eqv Service.eqv
  rw [hparts, owners_ofService, owners_ofService, ports_ofService, ports_ofService,
    DraftItem.allPairs_proper, DraftItem.allPairs_proper]
  -- the two name the parts in different orders
  ac_rfl

/-- The ports of two drafts of services agree exactly if those of the services match. -/
theorem portsAgree_proper (c d : List Port) :
    portsAgree (c.map .proper) (d.map .proper) = .ok (portsMatch c d) := by
  unfold portsAgree
  rw [List.length_map, List.length_map, DraftItem.mapM_read_proper, DraftItem.mapM_read_proper]
  split
  · rfl
  next hlength => rw [portsMatch, unorderedEqual, alignedPairs?, if_neg hlength]; rfl

/-- An annotation is held if the current map says the same at its key. -/
theorem holds_map_eq_ok_true_iff (current : Fields) (k : Scalar) (v : Value) :
    holds (.map current) (.scalar k) v = .ok true ↔ current.Says k v := by
  show Except.ok (((Fields.get? current k).map (·.eqv v)).getD false) = .ok true ↔ _
  rw [Except.ok.injEq, Fields.Says]
  cases Fields.get? current k <;> simp

/-- And it is not held otherwise, again without fail: the keys of a service are
scalars. -/
theorem holds_map_of_unsaid {current : Fields} {k : Scalar} {v : Value} (h : ¬current.Says k v) :
    holds (.map current) (.scalar k) v = .ok false := by
  obtain ⟨b, hb⟩ : ∃ b, holds (.map current) (.scalar k) v = .ok b := ⟨_, rfl⟩
  cases b with
  | false => exact hb
  | true => exact absurd ((holds_map_eq_ok_true_iff current k v).mp hb) h

/-- The entries are written one after the other, as they are into the annotations of a
service. The induction is on what is wanted, with the annotations there are so far as the
accumulator. -/
theorem merge_map (current : Fields) (wanted : List (Scalar × Value)) :
    merge (.map current) wanted
      = .ok (.map (mergeAnnotations current wanted).1, (mergeAnnotations current wanted).2) := by
  induction wanted generalizing current with
  | nil => rfl
  | cons e rest ih =>
    obtain ⟨k, v⟩ := e
    rw [merge]
    -- An annotation already there is skipped on both sides; any other is set and marks the change.
    by_cases hsaid : current.Says k v
    · rw [(holds_map_eq_ok_true_iff current k v).mpr hsaid, mergeAnnotations_cons_said hsaid]
      exact ih current
    · rw [holds_map_of_unsaid hsaid, mergeAnnotations_cons_unsaid hsaid]
      show (do return ((← merge (.map (current.set k v)) rest).1, true)) = _
      rw [ih]
      rfl

/-- The annotations of two drafts are merged as those of the services, and the flag of a
change is the same. -/
theorem mergedAnnotations_ofService (c d : Service) :
    mergedAnnotations (ofService c) (ofService d)
      = .ok (.ofOption (Keeper.mergedAnnotations c d).1, (Keeper.mergedAnnotations c d).2) := by
  have hpart (s : Service) : (ofService s).part "annotations" = .ofOption s.annotations := rfl
  unfold mergedAnnotations Keeper.mergedAnnotations
  rw [hpart, hpart]
  cases d.annotations with
  | none => cases c.annotations <;> rfl
  | some wanted =>
    cases wanted with
    -- An empty map of wanted annotations is falsy, so nothing is merged, as with none at all.
    | nil => cases c.annotations <;> rfl
    | cons e rest =>
      cases c.annotations with
      | none => exact merge_map [] (e :: rest)
      | some current => exact merge_map current (e :: rest)

/-- The parts of a draft of which a selector, a type and the annotations are taken
over. -/
theorem parts_taken (s d : Service) (selector type : Bool) (annotations : Option Fields) :
    (ofService s).parts.setAll
        ((if selector then [(.text "selector", (ofService d).part "selector")] else [])
          ++ (if type then [(.text "type", (ofService d).part "type")] else [])
          ++ [(.text "annotations", .ofOption annotations)])
      = (ofService { s with
          selector := if selector then d.selector else s.selector
          type := if type then d.type else s.type
          annotations }).parts := by
  cases selector <;> cases type <;> rfl

/-- **Comparison.** Drafts of two services are compared as the services are. So what is
proved of the comparison of services holds of one that is asked for over drafts, where
every part could have been of any type. -/
theorem compare_ofService (c d : Service) :
    (ofService c).compare (ofService d)
      = .ok (ofService (c.compare d).patched, (c.compare d).fields) := by
  -- The parts a draft reads on demand are those the typed service holds.
  have hselector (s : Service) : ((ofService s).part "selector").orElse (.map [])
      = .map (s.selector.getD []) := Value.orElse_ofOption s.selector
  have htype : ((ofService c).part "type").eqv ((ofService d).part "type") = (c.type == d.type) :=
    Value.text_eqv_text c.type d.type
  unfold compare
  rw [owners_ofService, owners_ofService, ports_ofService, ports_ofService, portsAgree_proper,
    mergedAnnotations_ofService, DraftItem.allPairs_proper]
  simp only [hselector, htype]
  show Except.ok (Draft.mk _ _ _, _) = .ok (Draft.mk _ _ _, _)
  rw [parts_taken, ← apply_ite (List.map DraftItem.proper), ← apply_ite (List.map DraftItem.proper)]
  rfl

/-- **Linkage.** The draft of a service is linked as the service is, or refused as it is.
What linkage reads and writes, the draft carries over as it is. -/
theorem link_ofService (owner : OwnerIdentity) (s : Service) :
    link owner (ofService s) = (Keeper.link owner s).map ofService := by
  have hspace : (ofService s).part "namespace" = s.space := rfl
  have hkey : (ofService s).key = s.key := rfl
  unfold link Keeper.link
  dsimp only
  rw [hspace, hkey, owners_ofService, DraftItem.takeWhile_proper, DraftItem.mapM_read_proper]
  -- Both sides make the same three checks in the same order; each failure ends both.
  cases checkOwner owner s.space with
  | error f => rfl
  | ok _ =>
    show (do
      checkControllers s.key owner.reference s.owners
      return { ofService s with owners := (← recordOwner owner.reference s.owners).map .proper }) = _
    cases checkControllers s.key owner.reference s.owners with
    | error f => rfl
    | ok _ => cases recordOwner owner.reference s.owners <;> rfl

end Draft

end Keeper
