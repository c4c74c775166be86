import Keeper.Proofs.Fields

/-!
# Keeper — what JSON carries

A value that is written and read again comes back plain. What stands at a name comes back at that
name, unless another key is written as the same name and comes later.

* **`get?_setAll_of_forall_ne`**, **`setAll_of_fresh`** — entries that are written do not matter to
  other names, and are appended where they are new.
* **`get?_plainFields`** — what stands at a name in a map that comes back.
* **`Json.Writable`** — what JSON can hold; writing and removing keeps it so.
* **`Json.obstacle?_eq_none_iff`** — a value that JSON cannot hold has an obstacle in it.
* **`Json.Document`** — a value that comes back as it is; **`Document.named`** and
  **`Document.get?`** take one apart.
* **`Document.toFields`** — a map that is made from the pairs of a document.
-/

namespace Keeper

/-! ## Entries one after the other -/

namespace Fields

/-- Entries are written from the first to the last, and inductions go the same way. -/
theorem setAll_cons (fs : Fields) (k : Scalar) (v : Value) (es : List (Scalar × Value)) :
    setAll fs ((k, v) :: es) = setAll (set fs k v) es := rfl

@[simp] theorem setAll_nil (fs : Fields) : setAll fs [] = fs := rfl

/-- Entries of other names do not matter. Induction on the entries, all of which are of
names. -/
theorem get?_setAll_of_forall_ne {es : List (Scalar × Value)} {t : Text}
    (hnames : ∀ e ∈ es, ∃ u, e.1 = .text u ∧ u ≠ t) (fs : Fields) :
    get? (setAll fs es) (.text t) = get? fs (.text t) := by
  induction es generalizing fs with
  | nil => rfl
  | cons e rest ih =>
    obtain ⟨k, v⟩ := e
    obtain ⟨u, rfl, hu⟩ : ∃ u, k = .text u ∧ u ≠ t := hnames (k, v) (by simp)
    rw [setAll_cons, ih (fun e he => hnames e (List.mem_cons_of_mem _ he)), get?_set, if_neg hu]

/-- Writing keeps what holds of every key and of every value. -/
theorem forall_mem_set (p : Scalar → Prop) (q : Value → Prop) {fs : Fields}
    (h : ∀ e ∈ fs, p e.1 ∧ q e.2) {key : Scalar} {v : Value} (hkey : p key) (hv : q v) :
    ∀ e ∈ fs.set key v, p e.1 ∧ q e.2 := by
  induction fs with
  | nil => simpa [set] using ⟨hkey, hv⟩
  | cons e rest ih =>
    obtain ⟨⟨hk, hw⟩, hrest⟩ := List.forall_mem_cons.mp h
    simp only [set]
    split
    · exact List.forall_mem_cons.mpr ⟨⟨hk, hv⟩, hrest⟩
    · exact List.forall_mem_cons.mpr ⟨⟨hk, hw⟩, ih hrest⟩

/-- What holds of the keys and of the values on both sides holds of the map that was
written. The two properties are separate, as an entry that is written in place keeps its
old key. -/
theorem forall_mem_setAll (p : Scalar → Prop) (q : Value → Prop) {fs : Fields}
    (h : ∀ e ∈ fs, p e.1 ∧ q e.2) {es : List (Scalar × Value)} (hes : ∀ e ∈ es, p e.1 ∧ q e.2) :
    ∀ e ∈ fs.setAll es, p e.1 ∧ q e.2 := by
  induction es generalizing fs with
  | nil => exact h
  | cons e rest ih =>
    obtain ⟨he, hrest⟩ := List.forall_mem_cons.mp hes
    exact ih (forall_mem_set p q h he.1 he.2) hrest

/-- A name that is not there is written at the end. -/
theorem set_of_notMem {fs : Fields} {t : Text} (h : .text t ∉ fs.map Prod.fst) (v : Value) :
    set fs (.text t) v = fs ++ [(.text t, v)] := by
  induction fs with
  | nil => rfl
  | cons e rest ih =>
    obtain ⟨k, w⟩ := e
    obtain ⟨hk, hrest⟩ : ¬Scalar.text t = k ∧ .text t ∉ rest.map Prod.fst := by simpa using h
    have hk' : ¬k = .text t := fun h => hk h.symm
    simp [set, hk', ih hrest]

/-- Names that are not there yet, each written once, are appended. So a map whose names
are distinct is read back in the order in which it was written. -/
theorem setAll_of_fresh {fs : Fields} {es : List (Scalar × Value)}
    (hnames : ∀ e ∈ es, ∃ t, e.1 = .text t) (hfresh : ∀ e ∈ es, e.1 ∉ fs.map Prod.fst)
    (hdistinct : Distinct es) : setAll fs es = fs ++ es := by
  induction es generalizing fs with
  | nil => simp
  | cons e rest ih =>
    obtain ⟨k, v⟩ := e
    obtain ⟨t, rfl⟩ : ∃ t, k = .text t := hnames (k, v) (by simp)
    obtain ⟨hk, hrest⟩ := List.nodup_cons.mp hdistinct
    -- the key that has just been set does not come again, so the rest is fresh for the longer map too
    have hfresh' : ∀ e ∈ rest, e.1 ∉ (fs ++ [(Scalar.text t, v)]).map Prod.fst := by
      intro e he hmem
      rcases List.mem_append.mp (by simpa only [List.map_append] using hmem) with hmem | hmem
      · exact hfresh e (List.mem_cons_of_mem _ he) hmem
      · exact hk (List.mem_singleton.mp hmem ▸ List.mem_map_of_mem he)
    rw [setAll_cons, set_of_notMem (hfresh _ List.mem_cons_self),
      ih (fun e he => hnames e (List.mem_cons_of_mem _ he)) hfresh' hrest]
    simp

/-- Writing adds an entry at most. How many there are in the end tells whether two keys
were one. -/
theorem length_set_le (fs : Fields) (key : Scalar) (v : Value) :
    (set fs key v).length ≤ fs.length + 1 := by
  induction fs with
  | nil => simp [set]
  | cons e rest ih =>
    simp only [set]
    split
    · simp
    · simp only [List.length_cons]
      omega

theorem length_setAll_le (fs : Fields) (es : List (Scalar × Value)) :
    (setAll fs es).length ≤ fs.length + es.length := by
  induction es generalizing fs with
  | nil => simp
  | cons e rest ih =>
    have hset := length_set_le fs e.1 e.2
    have hrest := ih (fs.set e.1 e.2)
    rw [List.length_cons]
    exact Nat.le_trans hrest (by omega)

/-- So if an entry was added, it was added at the end. -/
theorem set_of_length {fs : Fields} {key : Scalar} {v : Value}
    (h : (set fs key v).length = fs.length + 1) : set fs key v = fs ++ [(key, v)] := by
  induction fs with
  | nil => rfl
  | cons e rest ih =>
    obtain ⟨k, w⟩ := e
    by_cases hsame : k.same key = true
    · simp [set, hsame] at h
    · simp only [set, hsame, Bool.false_eq_true, if_false, List.length_cons] at h ⊢
      rw [ih (by omega), List.cons_append]

/-- Where no entry was lost, none met an equal key. -/
theorem setAll_of_length {fs : Fields} {es : List (Scalar × Value)}
    (h : (setAll fs es).length = fs.length + es.length) : setAll fs es = fs ++ es := by
  induction es generalizing fs with
  | nil => simp
  | cons e rest ih =>
    -- each entry adds one at most, so all of them must add one
    have hset := length_set_le fs e.1 e.2
    have hrest := length_setAll_le (fs.set e.1 e.2) rest
    have hall : (setAll (fs.set e.1 e.2) rest).length = fs.length + (rest.length + 1) := h
    have heq : (fs.set e.1 e.2).length = fs.length + 1 := by omega
    rw [setAll_cons, ih (by omega), set_of_length heq]
    simp

end Fields

/-! ## What comes back of a map -/

namespace Json

theorem plainKey?_text {t : Text} (h : t.Joined) : plainKey? (.text t) = some t :=
  congrArg some h

/-- A map comes back as a map, made of the entries that come back in their order. -/
theorem plain?_map (fs : Fields) : plain? (.map fs) = (plainFields? fs).map .map := by
  simp [plain?, plainFields?, Function.comp_def]

@[simp] theorem plainEntries?_nil : plainEntries? [] = some [] := by simp only [plainEntries?]

/-- Entries come back one by one; if one of them does not, neither does the map. -/
theorem plainEntries?_cons {k : Scalar} {v : Value} {fs es : List (Scalar × Value)} :
    plainEntries? ((k, v) :: fs) = some es
      ↔ ∃ t v' es', plainKey? k = some t ∧ plain? v = some v' ∧ plainEntries? fs = some es'
        ∧ es = (.text t, v') :: es' := by
  simp only [plainEntries?, Option.bind_eq_bind, Option.pure_def, Option.bind_eq_some_iff,
    Option.some.injEq]
  constructor
  · rintro ⟨t, ht, v', hv', es', hes', rfl⟩
    exact ⟨t, v', es', ht, hv', hes', rfl⟩
  · rintro ⟨t, v', es', ht, hv', hes', rfl⟩
    exact ⟨t, ht, v', hv', es', hes', rfl⟩

/-- An entry that comes back is what has become of one of the map: its key is a name now,
and its value has been through JSON too. Nothing is made up on the way. -/
theorem mem_plainEntries? {fs es : List (Scalar × Value)} (h : plainEntries? fs = some es)
    {e' : Scalar × Value} (he' : e' ∈ es) :
    ∃ e ∈ fs, ∃ t, plainKey? e.1 = some t ∧ e'.1 = .text t ∧ plain? e.2 = some e'.2 := by
  induction fs generalizing es with
  | nil =>
    obtain rfl : [] = es := by simpa using h
    cases he'
  | cons e rest ih =>
    obtain ⟨t, v', es', ht, hv', hes', rfl⟩ := plainEntries?_cons.mp h
    -- The entries correspond in order: the first to the first, the rest by induction.
    rcases List.mem_cons.mp he' with rfl | he'
    · exact ⟨e, by simp, t, ht, rfl, hv'⟩
    · obtain ⟨e', he', hrest⟩ := ih hes' he'
      exact ⟨e', List.mem_cons_of_mem _ he', hrest⟩

/-- Induction on the map. Once the entry at the name has been met, no later one is written
at it. -/
theorem get?_setAll_plainEntries {fs : Fields} {es : List (Scalar × Value)}
    (h : plainEntries? fs = some es) (hdistinct : fs.Distinct) {t : Text} (ht : t.Joined)
    (halone : ∀ k ∈ fs.map Prod.fst, plainKey? k = some t → k = .text t) (acc : Fields) :
    Fields.get? (Fields.setAll acc es) (.text t)
      = match Fields.get? fs (.text t) with
        | some v => plain? v
        | none => Fields.get? acc (.text t) := by
  induction fs generalizing es acc with
  | nil =>
    obtain rfl : [] = es := by simpa using h
    rfl
  | cons e rest ih =>
    obtain ⟨k, v⟩ := e
    obtain ⟨u, v', es', hu, hv', hes', rfl⟩ := plainEntries?_cons.mp h
    obtain ⟨hk, hdistinct'⟩ := List.nodup_cons.mp hdistinct
    have halone' : ∀ k ∈ rest.map Prod.fst, plainKey? k = some t → k = .text t :=
      fun k hk => halone k (List.mem_cons_of_mem _ hk)
    rw [Fields.setAll_cons, Fields.get?_cons_text]
    by_cases hkt : k = .text t
    · subst hkt
      obtain rfl : t = u := Option.some.inj ((plainKey?_text ht).symm.trans hu)
      -- no entry after this one is written at the name: the map has the key but once
      have hlater : ∀ e ∈ es', ∃ u, e.1 = .text u ∧ u ≠ t := by
        intro e' he'
        obtain ⟨e, he, u, hu, hkey, -⟩ := mem_plainEntries? hes' he'
        have hmem : e.1 ∈ rest.map Prod.fst := List.mem_map_of_mem he
        refine ⟨u, hkey, fun hut => hk ?_⟩
        rwa [← halone' e.1 hmem (hut ▸ hu)]
      rw [Fields.get?_setAll_of_forall_ne hlater, Fields.get?_set, if_pos rfl, if_pos rfl]
      exact hv'.symm
    · have hut : u ≠ t := fun hut => hkt (halone k (by simp) (hut ▸ hu))
      rw [if_neg hkt, ih hes' hdistinct' halone', Fields.get?_set, if_neg hut]

/-- What stands at a name comes back at it, if no other key is written as that name. -/
theorem get?_plainFields {fs fs' : Fields} (h : plainFields? fs = some fs')
    (hdistinct : fs.Distinct) {t : Text} (ht : t.Joined)
    (halone : ∀ k ∈ fs.map Prod.fst, plainKey? k = some t → k = .text t) :
    Fields.get? fs' (.text t) = (Fields.get? fs (.text t)).bind plain? := by
  obtain ⟨es, hes, rfl⟩ : ∃ es, plainEntries? fs = some es ∧ Fields.ofEntries es = fs' := by
    simpa only [plainFields?, Option.map_eq_some_iff] using h
  rw [Fields.ofEntries, get?_setAll_plainEntries hes hdistinct ht halone]
  cases Fields.get? fs (.text t) <;> rfl

/-- Where keys are names, a field of what comes back is the field that was sent, as it
comes back. With other keys this fails: `1` comes back as the name that another field may
have. -/
theorem get?_plainFields_of_named {fs fs' : Fields} (h : plainFields? fs = some fs')
    (hnamed : fs.Named) {t : Text} (ht : t.Joined) :
    Fields.get? fs' (.text t) = (Fields.get? fs (.text t)).bind plain? := by
  refine get?_plainFields h hnamed.distinct ht fun k hk hplain => ?_
  obtain ⟨u, rfl, hu⟩ := hnamed.names k hk
  rw [plainKey?_text hu, Option.some.injEq] at hplain
  rw [hplain]

/-! ## What JSON can hold

A value can be written when its keys and its parts can. -/

/-- JSON can hold the value. -/
def Writable (v : Value) : Prop := ∃ v', plain? v = some v'

theorem Writable.plainFields? {fs : Fields} (h : Writable (.map fs)) :
    ∃ fs', plainFields? fs = some fs' := by
  obtain ⟨v, hv⟩ := h
  rw [plain?_map, Option.map_eq_some_iff] at hv
  exact hv.imp fun fs' hfs' => hfs'.1

theorem writable_of_plainFields? {fs fs' : Fields} (h : plainFields? fs = some fs') :
    Writable (.map fs) := ⟨.map fs', (plain?_map fs).trans (by rw [h]; rfl)⟩

/-- A map can be written if its keys and its values can. -/
theorem writable_map_iff (fs : Fields) :
    Writable (.map fs) ↔ ∀ e ∈ fs, (∃ t, plainKey? e.1 = some t) ∧ Writable e.2 := by
  have hentries : Writable (.map fs) ↔ ∃ es, plainEntries? fs = some es := by
    simp only [Writable, plain?, Option.map_eq_some_iff]
    constructor
    · rintro ⟨v', es, hes, -⟩
      exact ⟨es, hes⟩
    · rintro ⟨es, hes⟩
      exact ⟨_, es, hes, rfl⟩
  -- by induction on the entries, since they are written one by one
  rw [hentries]
  clear hentries
  induction fs with
  | nil => simp
  | cons e rest ih =>
    refine Iff.trans ?_ ((and_congr_right' ih).trans List.forall_mem_cons.symm)
    constructor
    · rintro ⟨es, hes⟩
      obtain ⟨t, v', es', ht, hv', hes', -⟩ := plainEntries?_cons.mp hes
      exact ⟨⟨⟨t, ht⟩, v', hv'⟩, es', hes'⟩
    · rintro ⟨⟨⟨t, ht⟩, v', hv'⟩, es', hes'⟩
      exact ⟨_, plainEntries?_cons.mpr ⟨t, v', es', ht, hv', hes', rfl⟩⟩

/-- What is written into a map has to be writable, and so has the name. -/
theorem Writable.set {fs : Fields} (h : Writable (.map fs)) {t : Text} (ht : t.Joined) {v : Value}
    (hv : Writable v) : Writable (.map (fs.set (.text t) v)) := by
  rw [writable_map_iff] at h ⊢
  exact Fields.forall_mem_set (fun k => ∃ t, plainKey? k = some t) Writable h
    ⟨t, plainKey?_text ht⟩ hv

theorem Writable.erase {fs : Fields} (h : Writable (.map fs)) (key : Scalar) :
    Writable (.map (fs.erase key)) := by
  rw [writable_map_iff] at h ⊢
  exact fun e he => h e ((Fields.erase_sublist fs key).subset he)

theorem Writable.put {fs : Fields} (h : Writable (.map fs)) {t : Text} (ht : t.Joined)
    {v : Option Value} (hv : ∀ w, v = some w → Writable w) : Writable (.map (fs.put t v)) := by
  cases v with
  | none => exact h.erase (.text t)
  | some w => exact h.set ht (hv w rfl)

/-- A list can be written if its items can. -/
theorem writable_list_iff (xs : List Value) : Writable (.list xs) ↔ ∀ x ∈ xs, Writable x := by
  have hitems : Writable (.list xs) ↔ ∃ ys, plainItems? xs = some ys := by
    simp only [Writable, plain?, Option.map_eq_some_iff]
    constructor
    · rintro ⟨v', ys, hys, -⟩
      exact ⟨ys, hys⟩
    · rintro ⟨ys, hys⟩
      exact ⟨_, ys, hys, rfl⟩
  -- the same induction as for the entries of a map
  rw [hitems]
  clear hitems
  induction xs with
  | nil => simp [plainItems?]
  | cons x rest ih =>
    refine Iff.trans ?_ ((and_congr_right' ih).trans List.forall_mem_cons.symm)
    simp only [plainItems?, Option.bind_eq_bind, Option.pure_def, Option.bind_eq_some_iff,
      Option.some.injEq]
    constructor
    · rintro ⟨ys, y, hy, ys', hys', -⟩
      exact ⟨⟨y, hy⟩, ys', hys'⟩
    · rintro ⟨⟨y, hy⟩, ys', hys'⟩
      exact ⟨_, y, hy, ys', hys', rfl⟩

/-! The obstacles that are looked for are all there are: a value without one can be written. -/

/-- Among scalars the obstacles are integers that are too long, NaN and the infinities,
dates and bytes. -/
theorem scalarObstacle?_eq_none_iff (s : Scalar) : scalarObstacle? s = none ↔ Writable (.scalar s) := by
  cases s with
  | int i =>
    by_cases hi : (Scalar.int i).isWritable = true <;>
      simp [scalarObstacle?, Writable, plain?, plainScalar?, hi]
  | _ => simp [scalarObstacle?, Writable, plain?, plainScalar?]

/-- A scalar can be a key just if it can be a value. -/
theorem exists_plainKey?_iff (k : Scalar) :
    (∃ t, plainKey? k = some t) ↔ scalarObstacle? k = none := by
  cases k with
  | int i =>
    by_cases hi : (Scalar.int i).isWritable = true <;>
      simp [scalarObstacle?, plainKey?, writeScalar?, hi]
  | _ => simp [scalarObstacle?, plainKey?, writeScalar?]

mutual

/-- By recursion on the value, as it is looked through. -/
theorem obstacle?_eq_none_iff (v : Value) : obstacle? v = none ↔ Writable v := by
  cases v with
  | scalar s => rw [obstacle?, scalarObstacle?_eq_none_iff]
  | list xs => rw [obstacle?, itemsObstacle?_eq_none_iff, writable_list_iff]
  | tuple xs =>
    -- a row comes back as a list, so what can be written is the same
    have hlist : Writable (.tuple xs) ↔ Writable (.list xs) := by simp [Writable, plain?]
    rw [obstacle?, itemsObstacle?_eq_none_iff, hlist, writable_list_iff]
  | map fs => rw [obstacle?, entriesObstacle?_eq_none_iff, writable_map_iff]
  | set ms => simp [obstacle?, Writable, plain?]
  | endless => simp [obstacle?, Writable, plain?]

theorem itemsObstacle?_eq_none_iff (xs : List Value) :
    itemsObstacle? xs = none ↔ ∀ x ∈ xs, Writable x := by
  cases xs with
  | nil => simp [itemsObstacle?]
  | cons x rest =>
    rw [itemsObstacle?, Option.or_eq_none_iff, obstacle?_eq_none_iff, itemsObstacle?_eq_none_iff,
      List.forall_mem_cons]

theorem entriesObstacle?_eq_none_iff (fs : Fields) :
    entriesObstacle? fs = none ↔ ∀ e ∈ fs, (∃ t, plainKey? e.1 = some t) ∧ Writable e.2 := by
  match fs with
  | [] => simp [entriesObstacle?]
  | (k, v) :: rest =>
    rw [entriesObstacle?, Option.or_eq_none_iff, Option.or_eq_none_iff, obstacle?_eq_none_iff,
      entriesObstacle?_eq_none_iff, List.forall_mem_cons, exists_plainKey?_iff]

end

/-! ## Documents

What has come back once comes back as it is from then on. -/

/-- JSON gives the value back as it is. -/
def Document (v : Value) : Prop := plain? v = some v

instance (v : Value) : Decidable (Document v) := by unfold Document; infer_instance

theorem Document.writable {v : Value} (h : Document v) : Writable v := ⟨v, h⟩

/-- A text is a document if none of its surrogates are joined. -/
@[simp] theorem document_text_iff (t : Text) : Document (.text t) ↔ t.Joined := by
  simp [Document, plain?, plainScalar?, Text.Joined]

/-- An integer is one unless it has too many digits, when it is not even written. -/
@[simp] theorem document_int_iff (i : Int) :
    Document (.int i) ↔ (Scalar.int i).isWritable = true := by
  by_cases h : (Scalar.int i).isWritable = true <;> simp [Document, plain?, plainScalar?, h]

theorem writable_int_iff (i : Int) : Writable (.int i) ↔ (Scalar.int i).isWritable = true := by
  by_cases h : (Scalar.int i).isWritable = true <;> simp [Writable, plain?, plainScalar?, h]

@[simp] theorem document_bool (b : Bool) : Document (.bool b) := by
  simp [Document, plain?, plainScalar?]

@[simp] theorem document_null : Document .null := by simp [Document, plain?, plainScalar?]

/-- A list is a document if its items are. -/
theorem document_list_iff (xs : List Value) : Document (.list xs) ↔ ∀ x ∈ xs, Document x := by
  -- about the items alone, so that the induction is on them
  have hitems : Document (.list xs) ↔ plainItems? xs = some xs := by
    simp [Document, plain?]
  rw [hitems]
  clear hitems
  induction xs with
  | nil => simp [plainItems?]
  | cons x rest ih =>
    refine Iff.trans ?_ ((and_congr_right' ih).trans List.forall_mem_cons.symm)
    simp only [plainItems?, Option.bind_eq_bind, Option.pure_def, Option.bind_eq_some_iff,
      Option.some.injEq, Document]
    constructor
    · rintro ⟨y, hy, ys, hys, heq⟩
      obtain ⟨rfl, rfl⟩ := List.cons.inj heq
      exact ⟨hy, hys⟩
    · rintro ⟨hx, hrest⟩
      exact ⟨x, hx, rest, hrest, rfl⟩

/-- Entries come back as they are if their keys are names that do and their values are
documents. The equivalence is what the proof that a manifest survives the wire walks down
along, section by section. -/
theorem plainEntries?_eq_self_iff (fs : Fields) :
    plainEntries? fs = some fs
      ↔ ∀ e ∈ fs, (∃ t : Text, e.1 = .text t ∧ t.Joined) ∧ Document e.2 := by
  induction fs with
  | nil => simp
  | cons e rest ih =>
    obtain ⟨k, v⟩ := e
    refine Iff.trans ?_ ((and_congr_right' ih).trans List.forall_mem_cons.symm)
    rw [plainEntries?_cons]
    -- the entries are carried as they are exactly if the first one is and the others are
    constructor
    · rintro ⟨t, v', es, ht, hv, hes, heq⟩
      obtain ⟨hhead, rfl⟩ := List.cons.inj heq
      obtain ⟨rfl, rfl⟩ := Prod.mk.inj hhead
      exact ⟨⟨⟨t, rfl, Option.some.inj ht⟩, hv⟩, hes⟩
    · rintro ⟨⟨⟨t, rfl, ht⟩, hv⟩, hrest⟩
      exact ⟨t, v, rest, plainKey?_text ht, hv, hrest, rfl⟩

/-- No entry is lost as long as entries are looked at one by one; what may be lost is lost
when they are put into a map. -/
theorem length_plainEntries? {fs es : List (Scalar × Value)} (h : plainEntries? fs = some es) :
    es.length = fs.length := by
  induction fs generalizing es with
  | nil =>
    obtain rfl : [] = es := by simpa using h
    rfl
  | cons e rest ih =>
    obtain ⟨t, v', es', -, -, hes', rfl⟩ := plainEntries?_cons.mp h
    simp [ih hes']

/-- A map that comes back as it is has lost no entry on the way, so its keys are different
names. -/
theorem document_map_iff (fs : Fields) :
    Document (.map fs) ↔ fs.Named ∧ ∀ e ∈ fs, Document e.2 := by
  have hfields : Document (.map fs) ↔ ∃ es, plainEntries? fs = some es ∧ Fields.ofEntries es = fs := by
    simp [Document, plain?]
  rw [hfields]
  constructor
  · rintro ⟨es, hes, hof⟩
    -- as many entries came back as there were, so no two were written at one name
    have hself : Fields.ofEntries es = es := by
      refine Fields.setAll_of_length ?_
      rw [show Fields.setAll [] es = fs from hof, length_plainEntries? hes]
      simp
    obtain rfl : es = fs := hself.symm.trans hof
    have hall := (plainEntries?_eq_self_iff _).mp hes
    refine ⟨⟨fun k hk => ?_, ?_⟩, fun e he => (hall e he).2⟩
    · obtain ⟨e, he, rfl⟩ := List.mem_map.mp hk
      exact (hall e he).1
    · rw [← hof]
      exact Fields.Distinct.nil.setAll es
  · rintro ⟨hnamed, hvalues⟩
    refine ⟨fs, (plainEntries?_eq_self_iff fs).mpr fun e he => ?_, ?_⟩
    · exact ⟨hnamed.names e.1 (List.mem_map_of_mem he), hvalues e he⟩
    · refine Fields.setAll_of_fresh (fun e he => ?_) (by simp) hnamed.distinct
      obtain ⟨t, ht, -⟩ := hnamed.names e.1 (List.mem_map_of_mem he)
      exact ⟨t, ht⟩

/-- The keys of a document are names that JSON gives back, and no two are one. -/
theorem Document.named {fs : Fields} (h : Document (.map fs)) : fs.Named :=
  ((document_map_iff fs).mp h).1

theorem Document.get? {fs : Fields} (h : Document (.map fs)) {t : Text} {v : Value}
    (hv : Fields.get? fs (.text t) = some v) : Document v :=
  ((document_map_iff fs).mp h).2 _ (Fields.mem_of_get? hv)

theorem Document.sublist {fs gs : Fields} (h : Document (.map fs)) (hsub : gs.Sublist fs) :
    Document (.map gs) := by
  obtain ⟨hnamed, hvalues⟩ := (document_map_iff fs).mp h
  exact (document_map_iff gs).mpr ⟨hnamed.sublist hsub, fun e he => hvalues e (hsub.subset he)⟩

/-- Documents written into a document at such names make a document. -/
theorem Document.setAll {fs : Fields} (h : Document (.map fs)) {es : List (Scalar × Value)}
    (hes : ∀ e ∈ es, (∃ t : Text, e.1 = .text t ∧ t.Joined) ∧ Document e.2) :
    Document (.map (fs.setAll es)) := by
  obtain ⟨hnamed, hvalues⟩ := (document_map_iff fs).mp h
  refine (document_map_iff _).mpr ⟨hnamed.setAll fun e he => (hes e he).1, fun e he => ?_⟩
  exact (Fields.forall_mem_setAll (fun _ => True) Document (fun e he => ⟨trivial, hvalues e he⟩)
    (fun e he => ⟨trivial, (hes e he).2⟩) e he).2

theorem document_iff_plainFields? (fs : Fields) :
    Document (.map fs) ↔ plainFields? fs = some fs := by simp [Document, plain?, plainFields?]

end Json

/-! ## Maps made from documents

A map may be written as a list of pairs, whose first items can be keys of any kind. Made from a
document, it is no document then, but JSON can hold it. -/

/-- A single code point has nothing beside it to be joined with. -/
theorem Text.joined_single (p : CodePoint) : (Text.single p).Joined := by
  cases p with
  | char c => exact congrArg Text.mk (Json.joinSurrogates_chars [c])
  | surrogate place =>
    have hplace := place.isLt
    simp [Text.Joined, Json.plainText, Text.single, Json.joinSurrogates, CodePoint.ofNat,
      CodePoint.value]

namespace Json

/-- The items of a document are documents. -/
theorem Document.items {v : Value} (h : Document v) {xs : List Value} (hxs : v.items = .ok xs) :
    ∀ x ∈ xs, Document x := by
  intro x hx
  cases Value.hasItem_of_mem hxs hx with
  | list hx => exact (document_list_iff _).mp h x hx
  | key he =>
    obtain ⟨t, ht, hjoined⟩ := h.named.names _ (List.mem_map_of_mem he)
    rw [ht]
    exact (document_text_iff t).mpr hjoined
  | character _ p => exact (document_text_iff _).mpr (Text.joined_single p)
  -- rows, sets and bytes are no documents, whatever they have for items
  | tuple | member => simp [Document, plain?] at h
  | byte => simp [Document, plain?, plainScalar?] at h

/-- So what is read from a document is made of documents. -/
theorem document_inherited : Value.Inherited Document where
  empty := (document_map_iff []).mpr ⟨.nil, by simp⟩
  get? := fun h hv => h.get? hv
  items := fun h hxs => h.items hxs

theorem Document.key {k : Scalar} (h : Document (.scalar k)) : ∃ t, plainKey? k = some t :=
  (exists_plainKey?_iff k).mpr ((scalarObstacle?_eq_none_iff k).mpr h.writable)

/-- A map made from a document has each key once, and JSON can hold it. -/
theorem Document.toFields {v : Value} (h : Document v) {fs : Fields} (hfs : v.toFields = .ok fs) :
    fs.Distinct ∧ Writable (.map fs) := by
  rcases document_inherited.toFields document_inherited h hfs with hmap | ⟨es, rfl, hentries⟩
  · exact ⟨hmap.named.distinct, hmap.writable⟩
  · have hwritable : ∀ e ∈ es, (∃ t, plainKey? e.1 = some t) ∧ Writable e.2 :=
      fun e he => ⟨(hentries e he).1.key, (hentries e he).2.writable⟩
    exact ⟨Fields.Distinct.nil.setAll es, (writable_map_iff _).mpr
      (Fields.forall_mem_setAll (fun k => ∃ t, plainKey? k = some t) Writable (by simp) hwritable)⟩

end Json

end Keeper
