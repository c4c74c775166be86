import Keeper.Proofs.Fields
import Keeper.Yaml.Document

/-!
# Keeper — the mappings of a YAML document

However often a key stands in a mapping of a document, alone or among what the mapping takes over, the map
that is made from it has the key once. Maps are made by the filling of what was begun, and nothing else
that is done on the way makes or changes one.

* **`Build.Keyed`** — every map made so far has each key once.
* **`Making.Keeps`** — a step that keeps it so, and what is known of its result; one rule for each way to
  write a step.
* **`Build.keeps_flatten`**, **`Build.keeps_begin`**, **`Build.keeps_fill`** — the steps.
* **`Build.distinct_of_value`** — so it is with the maps of the value.
* **`keyed_read`** — and with the map a document stands for, and those that stand in it.
-/

namespace Keeper

/-- Each key is there once, and so it is in the maps that stand at the keys. -/
structure Fields.Keyed (fields : Fields) : Prop where
  distinct : fields.Distinct
  sections : ∀ e ∈ fields, ∀ inner : Fields, e.2 = .map inner → inner.Distinct

namespace Yaml

open Build

/-- Every map made so far has each key once. -/
def Build.Keyed (b : Build) : Prop :=
  ∀ place entries, b.made.getD place none = some (.map entries) → (entries.map Prod.fst).Nodup

/-! ## Steps -/

namespace Making

variable {α β : Type} {step : Making α} {post : α → Prop}

/-- Whatever has been made has its keys once after a step, if it had before; and the
result is as said. -/
def Keeps (step : Making α) (post : α → Prop) : Prop :=
  ∀ b a b', b.Keyed → step.run b = .ok (a, b') → b'.Keyed ∧ post a

/-- A step that gives a result makes nothing. The rules follow the notation in which the
steps are written, as those for protocols do. -/
theorem keeps_pure {a : α} (h : post a) : Keeps (pure a) post := by
  rintro b a' b' hb ⟨⟩
  exact ⟨hb, h⟩

theorem keeps_throw (f : Fault) : Keeps (throw f) post := by
  rintro b a b' - ⟨⟩

theorem Keeps.bind {next : α → Making β} {post' : β → Prop} (hstep : Keeps step post)
    (hnext : ∀ a, post a → Keeps (next a) post') : Keeps (step >>= next) post' := by
  intro b c b' hb hrun
  obtain ⟨⟨a, b₁⟩, hfirst, hrest⟩ := Fault.bind_eq_ok.mp hrun
  obtain ⟨hkeyed, ha⟩ := hstep b a b₁ hb hfirst
  exact hnext a ha b₁ c b' hkeyed hrest

/-- A look at what has been made changes nothing of it. -/
theorem keeps_get : Keeps (get : Making Build) fun _ => True := by
  rintro b a b' hb ⟨⟩
  exact ⟨hb, trivial⟩

/-- Neither does a result that was there before. -/
theorem keeps_lift (x : Except Fault α) : Keeps (liftM x : Making α) fun _ => True := by
  intro b a b' hb hrun
  cases x with
  | error f => cases hrun
  | ok a' =>
    cases hrun
    exact ⟨hb, trivial⟩

theorem keeps_modify {change : Build → Build} (h : ∀ b, (change b).made = b.made) :
    Keeps (modify change : Making Unit) fun _ => True := by
  rintro b a b' hb ⟨⟩
  exact ⟨fun place entries hmade => hb place entries (by rwa [h] at hmade), trivial⟩

/-- A step for each element of a list, by induction on the list; nothing is said of the
results. -/
theorem keeps_mapM {f : α → Making β} {xs : List α} (h : ∀ x, Keeps (f x) fun _ => True) :
    Keeps (xs.mapM f) fun _ => True := by
  induction xs with
  | nil => exact keeps_pure trivial
  | cons x rest ih =>
    rw [List.mapM_cons]
    exact (h x).bind fun _ _ => ih.bind fun _ _ => keeps_pure trivial

theorem keeps_forM {f : α → Making Unit} {xs : List α} (h : ∀ x, Keeps (f x) fun _ => True) :
    Keeps (xs.forM f) fun _ => True := by
  induction xs with
  | nil => exact keeps_pure trivial
  | cons x rest ih => exact (h x).bind fun _ _ => ih

/-- A loop keeps what each turn of it keeps: `inv` is the invariant of what the loop
carries along. -/
theorem keeps_foldlM {f : β → α → Making β} {inv : β → Prop} {xs : List α}
    (h : ∀ acc x, inv acc → Keeps (f acc x) inv) {acc : β} (hacc : inv acc) :
    Keeps (xs.foldlM f acc) inv := by
  induction xs generalizing acc with
  | nil => exact keeps_pure hacc
  | cons x rest ih =>
    rw [List.foldlM_cons]
    exact (h acc x hacc).bind fun _ hnext => ih hnext

end Making

open Making

namespace Build

theorem keeps_node (place : Nat) : Keeps (node place) fun _ => True :=
  keeps_get.bind fun _ _ => keeps_pure trivial

theorem keeps_entries? (place : Nat) : Keeps (entries? place) fun _ => True :=
  (keeps_node place).bind fun n _ => by split <;> exact keeps_pure trivial

/-- Making a value keeps the keys apart if the value does. This is the one step at which a
map is made, and hence the only one with a condition. -/
theorem keeps_setMade {m : Made} (h : ∀ entries, m = .map entries → (entries.map Prod.fst).Nodup)
    (place : Nat) : Keeps (setMade place m) fun _ => True := by
  rintro b a b' hb ⟨⟩
  refine ⟨fun place' entries hmade => ?_, trivial⟩
  simp only [Array.getD_eq_getD_getElem?, Array.getElem?_setIfInBounds] at hmade
  split at hmade
  · split at hmade
    · exact h entries (Option.some.inj hmade)
    · cases hmade
  · exact hb place' entries (by rwa [Array.getD_eq_getD_getElem?])

/-! ## Entries taken over

What a mapping takes over is written into the nodes, not into what is made of them. The induction is on
the fuel that the three functions share. -/

/-- Taking entries over from other maps only rearranges nodes. The three functions call
each other with less fuel, so the induction on the fuel is on all three at once. -/
theorem keeps_flattening (fuel : Nat) :
    (∀ place index taken, Keeps (flattenFrom place fuel index taken) fun _ => True)
      ∧ (∀ place, Keeps (flattened place fuel) fun _ => True)
      ∧ ∀ places, Keeps (flattenedAll places fuel) fun _ => True := by
  induction fuel with
  | zero =>
    -- without fuel each of the three gives up, and nothing has been made
    refine ⟨fun place index taken => ?_, fun place => ?_, fun places => ?_⟩
    · unfold flattenFrom
      exact keeps_throw _
    · unfold flattened
      exact keeps_throw _
    · unfold flattenedAll
      exact keeps_throw _
  | succ fuel ih =>
    obtain ⟨hfrom, hone, hall⟩ := ih
    refine ⟨fun place index taken => ?_, fun place => ?_, fun places => ?_⟩
    · unfold flattenFrom
      refine (keeps_entries? place).bind fun entries? _ => ?_
      dsimp only
      split
      next =>
        split
        · exact keeps_modify fun _ => rfl
        · exact keeps_pure trivial
      -- The value of a merge key is one map or a list of them; other keys are gone over.
      next key value _ =>
        refine (keeps_node key).bind fun n _ => ?_
        split
        next =>
          refine Keeps.bind (keeps_modify fun _ => rfl) fun _ _ => (keeps_node value).bind fun n _ => ?_
          split
          · exact (hone value).bind fun more _ => hfrom place index _
          · exact (hall _).bind fun parts _ => hfrom place index _
          · exact keeps_throw _
        next => exact Keeps.bind (keeps_modify fun _ => rfl) fun _ _ => hfrom place (index + 1) taken
        next => exact hfrom place (index + 1) taken
    · unfold flattened
      refine (keeps_entries? place).bind fun entries? _ => ?_
      split
      · exact keeps_throw _
      · exact (hfrom place 0 []).bind fun _ _ => (keeps_entries? place).bind fun _ _ => keeps_pure trivial
    · cases places with
      | nil => exact keeps_pure trivial
      | cons place rest =>
        unfold flattenedAll
        exact (hone place).bind fun _ _ => (hall rest).bind fun _ _ => keeps_pure trivial

theorem keeps_flatten (place : Nat) : Keeps (flatten place) fun _ => True :=
  (keeps_flattening flattenFuel).2.1 place

/-! ## Making and filling -/

/-- A value is begun empty, so its keys are apart; they stay apart as entries are put, by
`keys_setEntry_cases`. -/
theorem keeps_begin (place : Nat) : Keeps (begin place) fun _ => True := by
  -- A node that was begun is made and queued; only what it is made as decides whether keys stay
  -- distinct.
  have hqueue {m : Made} (h : ∀ entries, m = .map entries → (entries.map Prod.fst).Nodup) :
      Keeps (do
        setMade place m
        modify fun b => { b with queue := b.queue ++ [place] }) fun _ => True :=
    (keeps_setMade h place).bind fun _ _ => keeps_modify fun _ => rfl
  unfold begin
  refine keeps_get.bind fun b _ => ?_
  split
  · exact keeps_pure trivial
  · refine (keeps_node place).bind fun n _ => ?_
    split
    · exact keeps_throw _
    · exact hqueue (by simp)
    · exact hqueue (by simp)
    · exact hqueue (by simp)
    · exact hqueue (by simp)
    · exact keeps_get.bind fun b _ => (keeps_lift _).bind fun s _ => keeps_setMade (by simp) place

theorem keeps_keyOf (place : Nat) : Keeps (keyOf place) fun _ => True := by
  unfold keyOf
  refine keeps_get.bind fun b _ => ?_
  split
  · exact keeps_pure trivial
  · exact keeps_throw _

/-- Putting an entry leaves the keys as they are, or adds one that was not there. In both
cases keys that were distinct stay so. -/
theorem keys_setEntry_cases (key : Scalar) (value : Nat) (entries : List (Scalar × Nat)) :
    (setEntry key value entries).map Prod.fst = entries.map Prod.fst
      ∨ (setEntry key value entries).map Prod.fst = entries.map Prod.fst ++ [key]
        ∧ key ∉ entries.map Prod.fst := by
  induction entries with
  | nil => exact .inr ⟨rfl, by simp⟩
  | cons e rest ih =>
    obtain ⟨k, v⟩ := e
    by_cases hsame : k.same key = true
    · exact .inl (by simp [setEntry, hsame])
    · -- Equal keys count as the same, so a key that is not the same is another one.
      have hne : ¬key = k := by
        rintro rfl
        exact hsame (Scalar.same_self key)
      rcases ih with ih | ⟨ih, hnew⟩
      · exact .inl (by simp [setEntry, hsame, ih])
      · exact .inr ⟨by simp [setEntry, hsame, ih], by simpa [hne] using hnew⟩

/-- An entry that is set takes the place of one with its key, or comes last. -/
theorem nodup_setEntry {entries : List (Scalar × Nat)} (h : (entries.map Prod.fst).Nodup) (key : Scalar)
    (value : Nat) : ((setEntry key value entries).map Prod.fst).Nodup := by
  rcases keys_setEntry_cases key value entries with hkeys | ⟨hkeys, hnew⟩
  · rwa [hkeys]
  · rw [hkeys]
    refine List.nodup_append.mpr ⟨h, by simp, ?_⟩
    rintro k hk k' hk' rfl
    exact hnew (List.mem_singleton.mp hk' ▸ hk)

/-- The entries of a map are set one after the other, so that each key is there once. This
is the invariant of the loop. -/
theorem keeps_entriesOf (place : Nat) :
    Keeps (entriesOf place) fun entries => (entries.map Prod.fst).Nodup := by
  unfold entriesOf
  refine (keeps_flatten place).bind fun entries _ => ?_
  refine keeps_foldlM (fun made entry hmade => ?_) List.nodup_nil
  exact (keeps_begin entry.1).bind fun _ _ => (keeps_keyOf entry.1).bind fun key _ =>
    (keeps_begin entry.2).bind fun _ _ => keeps_pure (nodup_setEntry hmade key entry.2)

theorem keeps_rowsOf (items : List Nat) : Keeps (rowsOf items) fun _ => True := by
  refine keeps_mapM fun item => (keeps_entries? item).bind fun entries? _ => ?_
  split
  · exact (keeps_begin _).bind fun _ _ => (keeps_begin _).bind fun _ _ => keeps_pure trivial
  · exact keeps_throw _

/-- A value is filled with what it was begun for: a list, a set or a map, and only the map
asks for anything. -/
theorem keeps_fill (place : Nat) : Keeps (fill place) fun _ => True := by
  unfold fill
  refine (keeps_node place).bind fun n _ => ?_
  split
  · exact (keeps_forM keeps_begin).bind fun _ _ => keeps_setMade (by simp) place
  · -- A mapping: its entries were set one by one, which keeps their keys distinct.
    refine (keeps_entriesOf place).bind fun entries hentries => keeps_setMade ?_ place
    rintro _ ⟨⟩
    exact hentries
  · exact (keeps_entriesOf place).bind fun entries _ => keeps_setMade (by simp) place
  · exact (keeps_rowsOf _).bind fun rows _ => keeps_setMade (by simp) place
  · exact keeps_throw _

/-- So it is until all values are filled, by induction on the fuel. -/
theorem keeps_fillAll (fuel : Nat) : Keeps (fillAll fuel) fun _ => True := by
  induction fuel with
  | zero => exact keeps_pure trivial
  | succ fuel ih =>
    unfold fillAll
    refine keeps_get.bind fun b _ => ?_
    split
    · exact keeps_pure trivial
    · exact Keeps.bind (keeps_modify fun _ => rfl) fun _ _ => (keeps_fill _).bind fun _ _ => ih

/-! ## Values -/

/-- A map of the value has each key once, and what stands in it is of the value too. The
value is read off a table of nodes, so the second part is what lets the first be used
again further down. -/
theorem distinct_of_value {b : Build} (hb : b.Keyed) {above : List Nat} {fuel place : Nat} {fields : Fields}
    (h : b.value above fuel place = .map fields) :
    fields.Distinct ∧ ∀ e ∈ fields, ∃ above' fuel' place', b.value above' fuel' place' = e.2 := by
  cases fuel with
  | zero => cases h
  | succ fuel =>
    unfold value at h
    split at h
    · cases h
    · dsimp only at h
      split at h
      -- Only a place made as a map is read as one; the other cases give other values.
      case h_4 entries hmade =>
        obtain rfl := Value.map.inj h
        refine ⟨?_, fun e he => ?_⟩
        · unfold Fields.Distinct
          rw [List.map_map]
          exact hb place entries hmade
        · obtain ⟨entry, -, rfl⟩ := List.mem_map.mp he
          exact ⟨_, _, _, rfl⟩
      all_goals cases h

/-- The fields that are read from a document have each key once, at the top and in the
sections. The configuration relies on this where it looks settings up, since a second
entry of a key would never be seen. -/
theorem keyed_run {graph : Graph} {top : Nat} {fields : Fields} (h : run graph top = .ok (.map fields)) :
    fields.Keyed := by
  obtain ⟨⟨u, b⟩, hmake, hvalue⟩ := Fault.bind_eq_ok.mp h
  -- At the start nothing is made, so every made map has distinct keys vacuously.
  have hstart : Keyed { graph, made := .replicate graph.size none } := by
    intro place entries hmade
    simp only [Array.getD_eq_getD_getElem?, Array.getElem?_replicate] at hmade
    split at hmade
    · cases hmade
    · cases hmade
  have hkeeps := (keeps_begin top).bind fun _ _ => keeps_fillAll (graph.size + 1)
  obtain ⟨hb, -⟩ := hkeeps _ u b hstart hmake
  obtain ⟨hdistinct, hparts⟩ := distinct_of_value hb (Except.ok.inj hvalue)
  refine ⟨hdistinct, fun e he inner hinner => ?_⟩
  obtain ⟨above, fuel, place, hpart⟩ := hparts e he
  exact (distinct_of_value hb (hpart.trans hinner)).1

end Build

/-- The map a document stands for has each key once, and so have the maps in it. -/
theorem keyed_read {supply : Supply} {fields : Fields} (h : read supply = .ok (.map fields)) :
    fields.Keyed := by
  obtain ⟨⟨graph, top⟩, -, hmap⟩ := Fault.bind_eq_ok.mp h
  cases top with
  | none => cases hmap
  | some top => exact Build.keyed_run hmap

end Yaml

end Keeper
