import Keeper.Proofs.Loading

/-!
# Keeper — what references are replaced by

A text that is nothing but a reference stands for the value of a variable. What becomes of a tree is said
here part by part, along the ways that lead into it: lists keep their length and maps their keys, and a
text is replaced once if it is an item of a list, but twice if it stands at a key of a map.

* **`Layer.reference`**, **`Layer.reference?_eq_some_iff`** — how a reference is written.
* **`Value.partAt?`** — the part of a tree at the end of a way, and whether it stands at a key.
* **`Layer.partAt?_resolve`** — a part of the resolved tree is a part of the tree, resolved.
* **`Layer.Stands`** — what a part becomes, kind by kind.
* **`Layer.resolve_replaces`** — when that is what each reference refers to.
-/

namespace Keeper

/-- The part of a value at the end of a way, which says the number of the item or
entry at each level. With it comes whether it stands at a key; `atKey` says so of
the value itself. -/
def Value.partAt? (atKey : Bool) : Value → List Nat → Option (Bool × Value)
  | v, [] => some (atKey, v)
  | .map fields, i :: way => fields[i]?.bind fun e => e.2.partAt? true way
  | .list items, i :: way => items[i]?.bind fun v => v.partAt? false way
  | _, _ :: _ => none

namespace Layer

/-- A reference to a variable, in writing. -/
def reference (name : Text) : Text := ⟨.char '$' :: .char '\x7b' :: (name.points ++ [.char '\x7d'])⟩

/-- What a reference to a variable stands for; without the variable it is the empty
text. -/
def referent (env : Environment) (name : Text) : Text := (env.get? name).getD ""

/-- What begins like a reference is one exactly if it ends like one. Whatever stands
between is the name, and that may be empty or hold further signs. -/
theorem reference?_opened (rest : List CodePoint) :
    reference? ⟨.char '$' :: .char '\x7b' :: rest⟩
      = if rest.getLast? = some (.char '\x7d') then some ⟨rest.dropLast⟩ else none :=
  rfl

/-- The program's test and the writing of a reference are inverse to each other. So a text
is a reference to one name at most, and statements about references can be made about the
texts that are written. -/
theorem reference?_eq_some_iff {s name : Text} : reference? s = some name ↔ s = reference name := by
  constructor
  · intro h
    obtain ⟨points⟩ := s
    have hopened : ∃ rest, points = .char '$' :: .char '\x7b' :: rest := by
      unfold reference? at h
      split at h
      next rest hpoints => exact ⟨rest, hpoints⟩
      next => cases h
    obtain ⟨rest, rfl⟩ := hopened
    rw [reference?_opened] at h
    -- A text that opens as a reference is one exactly if it ends in the closing brace.
    by_cases hlast : rest.getLast? = some (.char '\x7d')
    · rw [if_pos hlast] at h
      obtain rfl := Option.some.inj h
      have hrest : rest.dropLast ++ [.char '\x7d'] = rest := List.dropLast_append_getLast? _ hlast
      rw [reference, hrest]
    · rw [if_neg hlast] at h
      cases h
  · rintro rfl
    rw [reference, reference?_opened, if_pos (List.getLast?_concat ..), List.dropLast_concat]

theorem resolveText_reference (env : Environment) (name : Text) :
    resolveText env (reference name) = referent env name := by
  rw [resolveText, reference?_eq_some_iff.mpr rfl, referent]

/-- Any other text is left, even if a reference is a part of it. -/
theorem resolveText_of_ne {s : Text} (h : ∀ name, s ≠ reference name) (env : Environment) :
    resolveText env s = s := by
  have hnone : reference? s = none := by
    rw [Option.eq_none_iff_forall_ne_some]
    intro name hname
    exact h name (reference?_eq_some_iff.mp hname)
  rw [resolveText, hnone]

/-- A text stands for itself if it is no reference, or one whose referent is the text
again. -/
theorem resolveText_eq_self_iff (env : Environment) (s : Text) :
    resolveText env s = s ↔ ∀ name, s = reference name → referent env name = s := by
  -- A plain text always stays; a reference stays only if it refers to itself.
  by_cases href : ∃ name, s = reference name
  · obtain ⟨name, rfl⟩ := href
    rw [resolveText_reference]
    constructor
    · intro h other hother
      rw [← resolveText_reference, ← hother, resolveText_reference, h]
    · intro h
      exact h name rfl
  · have hne : ∀ name, s ≠ reference name := fun name hname => href ⟨name, hname⟩
    exact iff_of_true (resolveText_of_ne hne env) fun name hname => absurd hname (hne name)

/-! ## Part by part -/

theorem resolveItems_eq (env : Environment) (items : List Value) :
    resolveItems env items = items.map (resolve env) := by
  induction items with
  | nil => rfl
  | cons v rest ih => rw [resolveItems, ih, List.map_cons]

/-- What a value is resolved to, at a key or not. -/
def resolvedAt (env : Environment) (atKey : Bool) (v : Value) : Value :=
  if atKey then resolved env v else resolve env v

/-- The map, the list and the text at a key or elsewhere: only the text depends on where
it stands. -/
theorem resolvedAt_map (env : Environment) (atKey : Bool) (fields : Fields) :
    resolvedAt env atKey (.map fields) = .map (resolveEntries env fields) := by
  cases atKey with
  | true => exact resolved_map env fields
  | false => exact resolve.eq_2 env fields

theorem resolvedAt_list (env : Environment) (atKey : Bool) (items : List Value) :
    resolvedAt env atKey (.list items) = .list (items.map (resolve env)) := by
  rw [← resolveItems_eq]
  cases atKey <;> rfl

theorem resolvedAt_text (env : Environment) (atKey : Bool) (s : Text) :
    resolvedAt env atKey (.text s)
      = .text (if atKey then resolveText env (resolveText env s) else resolveText env s) := by
  cases atKey <;> rfl

/-- Anything but texts, lists and maps is left as it is. -/
theorem resolvedAt_of_leaf (env : Environment) (atKey : Bool) {v : Value} (htext : ∀ s, v ≠ .text s)
    (hlist : ∀ items, v ≠ .list items) (hmap : ∀ fields, v ≠ .map fields) :
    resolvedAt env atKey v = v := by
  cases v with
  | scalar s =>
    cases s with
    | text s => exact absurd rfl (htext s)
    | _ => cases atKey <;> rfl
  | list items => exact absurd rfl (hlist items)
  | map fields => exact absurd rfl (hmap fields)
  | _ => cases atKey <;> rfl

/-- A part of a resolved value is a part of the value, resolved. Both have the same ways,
so what is said of each part is said of the whole; whether a part stands at a key goes
along, since texts are followed twice there. -/
theorem partAt?_resolvedAt (env : Environment) (atKey : Bool) (v : Value) (way : List Nat) :
    (resolvedAt env atKey v).partAt? atKey way
      = (v.partAt? atKey way).map fun p => (p.1, resolvedAt env p.1 p.2) := by
  induction way generalizing atKey v with
  | nil => rfl
  | cons i way ih =>
    cases v with
    | map fields =>
      rw [resolvedAt_map, resolveEntries_eq, Value.partAt?, Value.partAt?, Fields.mapKeyed,
        List.getElem?_map]
      cases fields[i]? with
      | none => rfl
      | some e => exact ih true e.2
    | list items =>
      rw [resolvedAt_list, Value.partAt?, Value.partAt?, List.getElem?_map]
      cases items[i]? with
      | none => rfl
      | some v => exact ih false v
    -- A leaf has no parts, and whether it stands under a key does not matter to that.
    | scalar s =>
      cases s <;> cases atKey <;> rfl
    | _ => cases atKey <;> rfl

/-- What becomes of a part: a list keeps its length and a map its keys; a reference is
replaced by its referent, which at a key is replaced in turn; anything else stays. -/
inductive Stands (env : Environment) (atKey : Bool) : Value → Value → Prop where
  | map {fields fields' : Fields} (hkeys : fields'.map Prod.fst = fields.map Prod.fst) :
    Stands env atKey (.map fields) (.map fields')
  | list {items items' : List Value} (hlength : items'.length = items.length) :
    Stands env atKey (.list items) (.list items')
  | reference (name : Text) :
    Stands env atKey (.text (reference name))
      (.text (if atKey then resolveText env (referent env name) else referent env name))
  | plain {s : Text} (hplain : ∀ name, s ≠ reference name) : Stands env atKey (.text s) (.text s)
  | leaf {v : Value} (htext : ∀ s, v ≠ .text s) (hlist : ∀ items, v ≠ .list items)
    (hmap : ∀ fields, v ≠ .map fields) : Stands env atKey v v

/-- What a value is resolved to stands for it as the relation says: the five cases of the
relation are the cases of the function. -/
theorem stands_resolvedAt (env : Environment) (atKey : Bool) (v : Value) :
    Stands env atKey v (resolvedAt env atKey v) := by
  by_cases hmap : ∃ fields, v = .map fields
  · obtain ⟨fields, rfl⟩ := hmap
    rw [resolvedAt_map, resolveEntries_eq, Fields.mapKeyed]
    exact .map (by rw [List.map_map]; rfl)
  by_cases hlist : ∃ items, v = .list items
  · obtain ⟨items, rfl⟩ := hlist
    rw [resolvedAt_list]
    exact .list (List.length_map _)
  by_cases htext : ∃ s, v = .text s
  · obtain ⟨s, rfl⟩ := htext
    rw [resolvedAt_text]
    by_cases href : ∃ name, s = reference name
    · obtain ⟨name, rfl⟩ := href
      rw [resolveText_reference]
      exact .reference name
    · have hplain : ∀ name, s ≠ reference name := fun name hname => href ⟨name, hname⟩
      -- Under a key the text is resolved twice, which for a plain text changes nothing either time.
      rw [resolveText_of_ne hplain, resolveText_of_ne hplain, ite_self]
      exact .plain hplain
  · have hleaf := resolvedAt_of_leaf env atKey (v := v) (fun s h => htext ⟨s, h⟩)
      (fun items h => hlist ⟨items, h⟩) (fun fields h => hmap ⟨fields, h⟩)
    rw [hleaf]
    exact .leaf (fun s h => htext ⟨s, h⟩) (fun items h => hlist ⟨items, h⟩) (fun fields h => hmap ⟨fields, h⟩)

/-! ## Once or twice -/

/-- Every reference in a tree becomes what it refers to. -/
def ReplacedOnce (env : Environment) (v : Value) : Prop :=
  ∀ way atKey name, v.partAt? false way = some (atKey, .text (reference name)) →
    (resolve env v).partAt? false way = some (atKey, .text (referent env name))

/-- The parts of the resolved tree are the parts of the tree, resolved, at the end of the
same ways. -/
theorem partAt?_resolve (env : Environment) (v : Value) (way : List Nat) :
    (resolve env v).partAt? false way
      = (v.partAt? false way).map fun p => (p.1, resolvedAt env p.1 p.2) :=
  partAt?_resolvedAt env false v way

/-- Everything is replaced once unless, at a key, a variable has a value that is a
reference and has another value of its own. -/
theorem replacedOnce_iff (env : Environment) (v : Value) :
    ReplacedOnce env v ↔ ∀ way name, v.partAt? false way = some (true, .text (reference name)) →
      ∀ other, referent env name = reference other → referent env other = referent env name := by
  -- Only a text under a map key is resolved a second time, so this is where a chain can be followed.
  have hat {way : List Nat} {atKey : Bool} {name : Text}
      (hpart : v.partAt? false way = some (atKey, .text (reference name))) :
      (resolve env v).partAt? false way = some (atKey, .text (referent env name))
        ↔ atKey = true → resolveText env (referent env name) = referent env name := by
    rw [partAt?_resolve, hpart, Option.map_some, resolvedAt_text, resolveText_reference]
    cases atKey <;> simp
  constructor
  · intro honce way name hpart
    exact (resolveText_eq_self_iff _ _).mp ((hat hpart).mp (honce way true name hpart) rfl)
  · intro hself way atKey name hpart
    refine (hat hpart).mpr fun hkey => (resolveText_eq_self_iff _ _).mpr ?_
    subst hkey
    exact hself way name hpart

/-- **References are followed.** In a tree that goes no deeper than `Config.depthLimit`,
following the references fails only at a name that the system cannot know; a deeper tree
is given up before, in `Config.assemble`, and nothing is said of it here. Otherwise each
part of the tree becomes what is said of it, and there are no other parts; and every
reference is replaced by its referent just if no referent that is put at a key of a map is
a reference to something else. The last part is where a chain shows: a text at a key is
followed twice, and any other once. -/
theorem resolve_replaces (env : Environment) (v : Value) :
    ((checkReferences v = .ok () ∧ ∀ name ∈ references v, Environment.checkText name = .ok ())
      ∨ (∃ f, checkReferences v = .error f ∧ f.isBadValue = true)
        ∧ ∃ name ∈ references v, Environment.checkText name ≠ .ok ())
    ∧ (∀ way, Option.Rel (fun part part' => part'.1 = part.1 ∧ Stands env part.1 part.2 part'.2)
      (v.partAt? false way) ((resolve env v).partAt? false way))
    ∧ (ReplacedOnce env v ↔ ∀ way name, v.partAt? false way = some (true, .text (reference name)) →
      ∀ other, referent env name = reference other → referent env other = referent env name) := by
  refine ⟨?_, fun way => ?_, replacedOnce_iff env v⟩
  · rcases Config.checkReferences_cases (references v) with ⟨hnames, hok⟩ | ⟨hnames, hfails⟩
    · exact .inl ⟨hok, hnames⟩
    · exact .inr ⟨hfails, by simpa using hnames⟩
  · rw [partAt?_resolve]
    cases v.partAt? false way with
    | none => exact .none
    | some part => exact .some ⟨rfl, stands_resolvedAt env part.1 part.2⟩

/-! ## A reference to a reference -/

namespace Chained

/-- A variable whose value looks like a reference to another one. -/
def environment : Environment := [("X", reference "Y"), ("Y", "z")]

/-- The same text at a key and in a list. -/
def tree : Value := .map [("a", .text (reference "X")), ("l", .list [.text (reference "X")])]

end Chained

/-- At a key it is not the value of the variable that replaces the text, though in a list
it is. -/
theorem chain_followed :
    resolve Chained.environment Chained.tree
        = .map [("a", .text "z"), ("l", .list [.text (reference "Y")])]
      ∧ referent Chained.environment "X" = reference "Y"
      ∧ ¬ReplacedOnce Chained.environment Chained.tree := by
  have hvalue : referent Chained.environment "X" = reference "Y" := by decide
  have hresolved : resolve Chained.environment Chained.tree
      = .map [("a", .text "z"), ("l", .list [.text (reference "Y")])] := by decide
  refine ⟨hresolved, hvalue, fun honce => ?_⟩
  have hkey := honce [0] true "X" rfl
  rw [hresolved, hvalue] at hkey
  revert hkey
  decide

end Layer

end Keeper
