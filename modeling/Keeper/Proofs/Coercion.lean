import Mathlib.Data.List.Forall2
import Keeper.Proofs.Layers

/-!
# Keeper — what settings are converted to

What the conversion of a tree makes of each of its parts. A part is found along its way from the top,
together with the key it belongs to: the last one on the way, however many lists stand in between.

* **`Setting.Truth`**, **`Setting.Integer`** — the keys of which the values are converted.
* **`Value.settingAt?`** — the part of a tree at the end of a way, and its key.
* **`Layer.Converted`** — what a part becomes, by its key.
* **`Layer.settingAt?_coerceAt`** — the parts of what is converted are the parts, converted.
* **`Layer.coerceAt_again`** — what has been converted is left as it is.
* **`Layer.coerce_settles`** — all of it, for a tree.
-/

namespace Keeper

namespace Setting

/-- The keys of truth values. -/
def Truth (key : Scalar) : Prop := key = .text "verify_tls" ∨ key = .text "dry_run"

/-- The keys of integers. -/
def Integer (key : Scalar) : Prop :=
  key = .text "timeout_sec" ∨ key = .text "port" ∨ key = .text "target_port"

theorem kind?_text_eq (name : Text) : kind? (.text name)
    = if name = "verify_tls" ∨ name = "dry_run" then some .truth
      else if name = "timeout_sec" ∨ name = "port" ∨ name = "target_port" then some .integer
      else none := by
  simp [kind?, truthNames, integerNames]

/-- The program's table and the keys of the statement are the same, kind by kind. -/
theorem kind?_eq_truth_iff (key : Scalar) : kind? key = some .truth ↔ Truth key := by
  cases key with
  | text name =>
    rw [kind?_text_eq]
    by_cases htruth : name = "verify_tls" ∨ name = "dry_run"
    · simp [Truth, htruth]
    · by_cases hinteger : name = "timeout_sec" ∨ name = "port" ∨ name = "target_port" <;>
        simp [Truth, htruth, hinteger]
  | _ => simp [kind?, Truth]

theorem kind?_eq_integer_iff (key : Scalar) : kind? key = some .integer ↔ Integer key := by
  cases key with
  | text name =>
    rw [kind?_text_eq]
    by_cases htruth : name = "verify_tls" ∨ name = "dry_run"
    · have hne : ¬Integer (.text name) := by
        rcases htruth with rfl | rfl <;> simp [Integer]
      simp [htruth, hne]
    · by_cases hinteger : name = "timeout_sec" ∨ name = "port" ∨ name = "target_port" <;>
        simp [Integer, htruth, hinteger]
  | _ => simp [kind?, Integer]

theorem kind?_eq_none_iff (key : Scalar) : kind? key = none ↔ ¬Truth key ∧ ¬Integer key := by
  rw [← kind?_eq_truth_iff, ← kind?_eq_integer_iff]
  cases kind? key with
  | none => simp
  | some kind => cases kind <;> simp

end Setting

/-- The part of a value at the end of a way, which says the number of the item or entry at
each level. With it comes the key it belongs to; `key` is that of the value itself. -/
def Value.settingAt? (key : Scalar) : Value → List Nat → Option (Scalar × Value)
  | v, [] => some (key, v)
  | .map fields, i :: way => fields[i]?.bind fun e => e.2.settingAt? e.1 way
  | .list items, i :: way => items[i]?.bind fun v => v.settingAt? key way
  | _, _ :: _ => none

/-- A value that is converted as a whole: it is neither a list nor a map. -/
def Value.Leaf (v : Value) : Prop := (∀ items, v ≠ .list items) ∧ ∀ fields, v ≠ .map fields

theorem Value.leaf_scalar (s : Scalar) : (Value.scalar s).Leaf := ⟨by simp, by simp⟩

theorem Value.Leaf.settingAt?_cons {v : Value} (hleaf : v.Leaf) (key : Scalar) (i : Nat)
    (way : List Nat) : v.settingAt? key (i :: way) = none := by
  cases v with
  | map fields => exact (hleaf.2 fields rfl).elim
  | list items => exact (hleaf.1 items rfl).elim
  | scalar | tuple | set | endless => rfl

namespace Layer

/-- What becomes of a part: a list keeps its length and a map its keys; null stays; a leaf
becomes a truth value or an integer if its key asks for one, and otherwise stays. -/
inductive Converted (key : Scalar) : Value → Value → Prop where
  | map {fields fields' : Fields} (hkeys : fields'.map Prod.fst = fields.map Prod.fst) :
    Converted key (.map fields) (.map fields')
  | list {items items' : List Value} (hlength : items'.length = items.length) :
    Converted key (.list items) (.list items')
  | null : Converted key .null .null
  | truth {v : Value} (hleaf : v.Leaf) (hnull : v ≠ .null) (hkey : Setting.Truth key) :
    Converted key v (.bool (affirmatives.contains v.display.trim.lower))
  | integer {v : Value} {i : Int} (hleaf : v.Leaf) (hnull : v ≠ .null) (hkey : Setting.Integer key)
    (hread : v.toInteger = .ok i) : Converted key v (.int i)
  | other {v : Value} (hleaf : v.Leaf) (htruth : ¬Setting.Truth key) (hinteger : ¬Setting.Integer key) :
    Converted key v v

/-- A leaf becomes a leaf. -/
theorem Converted.leaf {key : Scalar} {v w : Value} (h : Converted key v w) (hleaf : v.Leaf) :
    w.Leaf := by
  cases h with
  | map => exact (hleaf.2 _ rfl).elim
  | list => exact (hleaf.1 _ rfl).elim
  | null | truth | integer => exact Value.leaf_scalar _
  | other => exact hleaf

/-! ## Leaves -/

/-- A truth is told from the text of a value, and any text but an affirmative one is
no. -/
theorem toTruth_eq_ok {v w : Value} (h : toTruth v = .ok w) :
    w = .bool (affirmatives.contains v.display.trim.lower) := by
  unfold toTruth at h
  split at h
  · exact (Except.ok.inj h).symm
  · cases h

theorem toInteger_eq_ok {key : Text} {v w : Value} (h : toInteger key v = .ok w) :
    ∃ i, v.toInteger = .ok i ∧ w = .int i := by
  unfold toInteger at h
  split at h
  next i hread => exact ⟨i, hread, (Except.ok.inj h).symm⟩
  all_goals cases h

theorem toTruth_bool (b : Bool) : toTruth (.bool b) = .ok (.bool b) := by
  have hsaid : affirmatives.contains (Value.bool b).display.trim.lower = b := by
    cases b <;> rfl
  rw [toTruth, if_pos (by rfl), hsaid]

/-- An integer is left, which is why converting twice comes to the same. -/
theorem toInteger_int (key : Text) (i : Int) : toInteger key (.int i) = .ok (.int i) := rfl

/-- A leaf that is converted has become what the kind of its key says. The cases are the
null and the three kinds. -/
theorem converted_of_coerceLeaf {key : Scalar} {v w : Value} (hleaf : v.Leaf)
    (h : coerceLeaf key v = .ok w) : Converted key v w := by
  unfold coerceLeaf at h
  -- the four ways of a leaf: null, a truth, an integer, and a key that asks for nothing
  split at h
  next =>
    obtain rfl := Except.ok.inj h
    exact .null
  next hnull hkind =>
    rw [toTruth_eq_ok h]
    exact .truth hleaf hnull ((Setting.kind?_eq_truth_iff key).mp hkind)
  next hnull hkind =>
    obtain ⟨i, hread, rfl⟩ := toInteger_eq_ok h
    exact .integer hleaf hnull ((Setting.kind?_eq_integer_iff key).mp hkind) hread
  next hkind =>
    obtain rfl := Except.ok.inj h
    obtain ⟨htruth, hinteger⟩ := (Setting.kind?_eq_none_iff key).mp hkind
    exact .other hleaf htruth hinteger

/-- What a leaf has been converted to is converted to itself: a truth value and an integer
are leaves too, and either is already what its key asks for. -/
theorem coerceAt_of_coerceLeaf {key : Scalar} {v w : Value} (hv : coerceAt key v = coerceLeaf key v)
    (h : coerceLeaf key v = .ok w) : coerceAt key w = .ok w := by
  have hsame (hw : v = w) : coerceAt key w = .ok w := by
    rw [← hw, hv, h, hw]
  unfold coerceLeaf at h
  -- what was left as it is converts as before; a truth and an integer convert to themselves
  split at h
  next => exact hsame (Except.ok.inj h)
  next hkind =>
    rw [toTruth_eq_ok h]
    simpa only [coerceAt, coerceLeaf, hkind] using toTruth_bool _
  next hkind =>
    obtain ⟨i, -, rfl⟩ := toInteger_eq_ok h
    simpa only [coerceAt, coerceLeaf, hkind] using toInteger_int _ i
  next => exact hsame (Except.ok.inj h)

/-! ## Items and entries -/

/-- The items of a list are converted one by one, by the key of the list. The loop
of the program stops at the first item that fails; a list that comes out has come
through whole. -/
theorem forall₂_of_coerceItems {key : Scalar} {items items' : List Value}
    (h : coerceItems key items = .ok items') :
    List.Forall₂ (fun v w => coerceAt key v = .ok w) items items' := by
  induction items generalizing items' with
  | nil =>
    obtain rfl := Except.ok.inj h
    exact .nil
  | cons v rest ih =>
    rw [coerceItems] at h
    obtain ⟨w, hw, h⟩ := Fault.bind_eq_ok.mp h
    obtain ⟨rest', hrest, h⟩ := Fault.bind_eq_ok.mp h
    obtain rfl := Except.ok.inj h
    exact .cons hw (ih hrest)

/-- The values of a map are converted by their own keys, which stay. So a way through the
tree names the same place before and after the conversion. -/
theorem forall₂_of_coerceEntries {fields fields' : Fields} (h : coerceEntries fields = .ok fields') :
    List.Forall₂ (fun e e' => e'.1 = e.1 ∧ coerceAt e.1 e.2 = .ok e'.2) fields fields' := by
  induction fields generalizing fields' with
  | nil =>
    obtain rfl := Except.ok.inj h
    exact .nil
  | cons e rest ih =>
    obtain ⟨k, v⟩ := e
    rw [coerceEntries] at h
    -- the value first, then the rest: either may fail, and here neither has
    obtain ⟨w, hw, h⟩ := Fault.bind_eq_ok.mp h
    obtain ⟨rest', hrest, h⟩ := Fault.bind_eq_ok.mp h
    obtain rfl := Except.ok.inj h
    exact .cons ⟨rfl, hw⟩ (ih hrest)

/-- Lists that agree item by item agree at each place, or end together before it. -/
theorem rel_getElem? {α β : Type} {R : α → β → Prop} {xs : List α} {ys : List β}
    (h : List.Forall₂ R xs ys) (i : Nat) : Option.Rel R xs[i]? ys[i]? := by
  induction h generalizing i with
  | nil => exact .none
  | cons hxy _ ih =>
    cases i with
    | zero => exact .some hxy
    | succ i => simpa using ih i

/-- What is converted is a map, a list or a leaf. Only a leaf is looked at by its key; the
other two hand the work on to their parts, and the induction over trees follows these
three cases. -/
theorem coerceAt_cases {key : Scalar} {v w : Value} (h : coerceAt key v = .ok w) :
    (∃ fields fields', v = .map fields ∧ w = .map fields' ∧ coerceEntries fields = .ok fields')
      ∨ (∃ items items', v = .list items ∧ w = .list items' ∧ coerceItems key items = .ok items')
      ∨ (v.Leaf ∧ coerceAt key v = coerceLeaf key v) := by
  -- a map and a list are gone into; the other kinds are leaves, apart from the value without an end
  cases v with
  | map fields =>
    obtain ⟨fields', hfields, heq⟩ := Fault.bind_eq_ok.mp h
    exact .inl ⟨fields, fields', rfl, (Except.ok.inj heq).symm, hfields⟩
  | list items =>
    obtain ⟨items', hitems, heq⟩ := Fault.bind_eq_ok.mp h
    exact .inr (.inl ⟨items, items', rfl, (Except.ok.inj heq).symm, hitems⟩)
  | scalar s => exact .inr (.inr ⟨⟨by simp, by simp⟩, by rw [coerceAt]⟩)
  | tuple items => exact .inr (.inr ⟨⟨by simp, by simp⟩, by rw [coerceAt]⟩)
  | set members => exact .inr (.inr ⟨⟨by simp, by simp⟩, by rw [coerceAt]⟩)
  | endless => cases h

/-- The conversion of any part keeps its shape. By the recursion of the conversion itself,
with one lemma for the items of a list and one for the entries of a map. -/
theorem converted_of_coerceAt {key : Scalar} {v w : Value} (h : coerceAt key v = .ok w) :
    Converted key v w := by
  rcases coerceAt_cases h with ⟨fields, fields', rfl, rfl, hfields⟩ | ⟨items, items', rfl, rfl, hitems⟩
    | ⟨hleaf, heq⟩
  · have hentries := forall₂_of_coerceEntries hfields
    refine .map ?_
    clear h hfields
    induction hentries with
    | nil => rfl
    | cons he _ ih => rw [List.map_cons, List.map_cons, he.1, ih]
  · exact .list (forall₂_of_coerceItems hitems).length_eq.symm
  · exact converted_of_coerceLeaf hleaf (heq.symm.trans h)

/-! ## Part by part -/

/-- The parts of what is converted are the parts of what is given, converted by the keys
they belong to; the induction is on the way. -/
theorem settingAt?_coerceAt {key : Scalar} {v w : Value} (h : coerceAt key v = .ok w) (way : List Nat) :
    Option.Rel (fun part part' => part'.1 = part.1 ∧ coerceAt part.1 part.2 = .ok part'.2)
      (v.settingAt? key way) (w.settingAt? key way) := by
  induction way generalizing key v w with
  | nil => exact .some ⟨rfl, h⟩
  | cons i way ih =>
    -- at each level the way goes on in a map, with the key it finds, or in a list, with the same key
    rcases coerceAt_cases h with ⟨fields, fields', rfl, rfl, hfields⟩ | ⟨items, items', rfl, rfl, hitems⟩
      | ⟨hleaf, heq⟩
    · have hat := rel_getElem? (forall₂_of_coerceEntries hfields) i
      rw [Value.settingAt?, Value.settingAt?]
      generalize fields[i]? = e at hat
      generalize fields'[i]? = e' at hat
      cases hat with
      | none => exact .none
      | some hentry =>
        obtain ⟨hkey, hvalue⟩ := hentry
        rw [Option.bind_some, Option.bind_some, hkey]
        exact ih hvalue
    · have hat := rel_getElem? (forall₂_of_coerceItems hitems) i
      rw [Value.settingAt?, Value.settingAt?]
      generalize items[i]? = item at hat
      generalize items'[i]? = item' at hat
      cases hat with
      | none => exact .none
      | some hitem => exact ih hitem
    · have hleaf' : w.Leaf := (converted_of_coerceAt h).leaf hleaf
      rw [hleaf.settingAt?_cons, hleaf'.settingAt?_cons]
      exact .none

mutual

/-- What has been converted is converted to itself. The second conversion meets the same
keys at the same places, since the first one keeps the shape, and at each leaf it meets
what `coerceAt_of_coerceLeaf` speaks of. -/
theorem coerceAt_again {key : Scalar} {v w : Value} (h : coerceAt key v = .ok w) :
    coerceAt key w = .ok w := by
  -- the recursion is that of the conversion, so each kind of part uses the statement about its parts
  cases v with
  | map fields =>
    obtain ⟨fields', hfields, heq⟩ := Fault.bind_eq_ok.mp h
    obtain rfl := Except.ok.inj heq
    exact Fault.bind_eq_ok.mpr ⟨fields', coerceEntries_again hfields, rfl⟩
  | list items =>
    obtain ⟨items', hitems, heq⟩ := Fault.bind_eq_ok.mp h
    obtain rfl := Except.ok.inj heq
    exact Fault.bind_eq_ok.mpr ⟨items', coerceItems_again hitems, rfl⟩
  | scalar s | tuple items | set members => exact coerceAt_of_coerceLeaf (by rw [coerceAt]) h
  | endless => cases h

/-- What has been converted is left by another conversion. The three statements are shown
together by the recursion of the program. -/
theorem coerceItems_again {key : Scalar} {items items' : List Value}
    (h : coerceItems key items = .ok items') : coerceItems key items' = .ok items' := by
  cases items with
  | nil =>
    obtain rfl := Except.ok.inj h
    rfl
  | cons v rest =>
    rw [coerceItems] at h
    obtain ⟨w, hw, h⟩ := Fault.bind_eq_ok.mp h
    obtain ⟨rest', hrest, h⟩ := Fault.bind_eq_ok.mp h
    obtain rfl := Except.ok.inj h
    rw [coerceItems, coerceAt_again hw, coerceItems_again hrest]
    rfl

/-- The same for the entries of a map, each under its own key. -/
theorem coerceEntries_again {fields fields' : List (Scalar × Value)}
    (h : coerceEntries fields = .ok fields') : coerceEntries fields' = .ok fields' := by
  cases fields with
  | nil =>
    obtain rfl := Except.ok.inj h
    rfl
  | cons e rest =>
    obtain ⟨k, v⟩ := e
    rw [coerceEntries] at h
    obtain ⟨w, hw, h⟩ := Fault.bind_eq_ok.mp h
    obtain ⟨rest', hrest, h⟩ := Fault.bind_eq_ok.mp h
    obtain rfl := Except.ok.inj h
    rw [coerceEntries, coerceAt_again hw, coerceEntries_again hrest]
    rfl

end

/-- **Settings are converted by their keys.** A tree that can be converted keeps its
lists, its maps and their keys; a leaf other than null becomes a truth value or an integer
exactly if the key it belongs to asks for that, and what has been converted is left as it
is by a second conversion. -/
theorem coerce_settles {v w : Value} (h : coerce v = .ok w) :
    (∀ way, Option.Rel (fun part part' => part'.1 = part.1 ∧ Converted part.1 part.2 part'.2)
      (v.settingAt? "" way) (w.settingAt? "" way))
    ∧ coerce w = .ok w := by
  refine ⟨fun way => ?_, coerceAt_again h⟩
  have hparts := settingAt?_coerceAt h way
  generalize v.settingAt? "" way = part at hparts
  generalize w.settingAt? "" way = part' at hparts
  cases hparts with
  | none => exact .none
  | some hpart => exact .some ⟨hpart.1, converted_of_coerceAt hpart.2⟩

/-- A tree with a key of each kind; below one of them stand a list and a map with keys of
its own. -/
def mixed : Value :=
  .map [("port", "12"),
    ("dry_run", .list [" Yes", .null, .list ["no"], .map [("name", .int 4), ("target_port", .bool true)]]),
    ("timeout_sec", .null)]

/-- `mixed`, converted. -/
def mixedCoerced : Value :=
  .map [("port", .int 12),
    ("dry_run", .list [.bool true, .null, .list [.bool false],
      .map [("name", .int 4), ("target_port", .int 1)]]),
    ("timeout_sec", .null)]

/-- The way of the example leads through a list into a list, and its leaf is converted by
the nearest key above them. -/
theorem coerce_settles_mixed :
    coerce mixed = .ok mixedCoerced
    ∧ Option.Rel (fun part part' => part'.1 = part.1 ∧ Converted part.1 part.2 part'.2)
        (mixed.settingAt? "" [1, 2, 0]) (mixedCoerced.settingAt? "" [1, 2, 0])
    ∧ mixedCoerced.settingAt? "" [1, 2, 0] = some (.text "dry_run", .bool false)
    ∧ coerce mixedCoerced = .ok mixedCoerced := by
  have hconverted : coerce mixed = .ok mixedCoerced := rfl
  have hsettled := coerce_settles hconverted
  exact ⟨hconverted, hsettled.1 [1, 2, 0], rfl, hsettled.2⟩

end Layer

end Keeper
