import Mathlib.Data.List.Nodup
import Mathlib.Data.List.Perm.Subperm
import Keeper.Proofs.Registry

/-!
# Keeper — the loggers above a logger

Which loggers a record reaches, and with them which handlers.

* **`Loggers.Climbs`** — the names of a logger and of those above it.
* **`Loggers.exists_climbs`**, **`Loggers.chain_of_climbs`** — the way up ends, and never too soon.
* **`Loggers.climbs_split`**, **`Loggers.climbs_under_root`** — where it comes by.
* **`Loggers.handlersOf_of_reaches`** — what is logged behind a base name is offered once to the handlers
  of the base.
-/

namespace Keeper.Log

namespace Loggers

variable {ls : Loggers}

/-- The names of a logger and of those above it, without the root. -/
inductive Climbs (ls : Loggers) : Text → List Text → Prop where
  | root {n : Text} (h : isRootName n = true) : Climbs ls n []
  | step {n : Text} {ns : List Text} (h : isRootName n = false)
    (habove : Climbs ls (ls.get n).parent ns) : Climbs ls n (n :: ns)

/-- The way up ends: each logger on it has a shorter name than the one below, since a
parent on record is the root or a name that encloses it. The induction is on the length of
the name. -/
theorem exists_climbs (horderly : ls.Orderly) (n : Text) (hn : isRootName n = true ∨ ls.Known n) :
    ∃ ns, ls.Climbs n ns ∧ ns.Nodup ∧ ∀ m ∈ ns, ls.Known m ∧ (m = n ∨ Under m n) := by
  rcases hn with hroot | ⟨l, hl⟩
  · exact ⟨[], .root hroot, .nil, by simp⟩
  have hroot := horderly.named n ⟨l, hl⟩
  have hget := get_of_slot? hroot hl
  rcases horderly.above n l hl with hparent | ⟨hmem, hknown⟩
  · have hclimbs : ls.Climbs (ls.get n).parent [] := by
      rw [hget, hparent]
      exact .root rfl
    exact ⟨[n], .step hroot hclimbs, List.nodup_singleton n, by simp [Known, hl]⟩
  · have hunder := (under_of_mem_enclosing hmem).1
    have hshorter := hunder.length_lt
    -- the way up is shorter for a shorter name, and the name of what is above is shorter
    obtain ⟨ns, hclimbs, hnodup, hns⟩ := exists_climbs horderly l.parent (.inr hknown)
    have hbelow : ∀ m ∈ ns, Under m n := by
      intro m hm
      rcases (hns m hm).2 with rfl | hm'
      · exact hunder
      · exact hm'.trans hunder
    refine ⟨n :: ns, .step hroot (hget ▸ hclimbs), ?_, ?_⟩
    · exact List.nodup_cons.mpr ⟨fun h => (hbelow n h).ne rfl, hnodup⟩
    · intro m hm
      rcases List.mem_cons.mp hm with rfl | hm
      · exact ⟨⟨l, hl⟩, .inl rfl⟩
      · exact ⟨(hns m hm).1, .inr (hbelow m hm)⟩
termination_by n.length

/-- The program's walk upwards, with fuel for its length, meets the loggers of the way and
then the root. The relation `Climbs` knows nothing of fuel, so what is proved of the way
along it holds of the walk that runs. -/
theorem chainFrom_of_climbs {n : Text} {ns : List Text} (h : ls.Climbs n ns) {fuel : Nat}
    (hfuel : ns.length < fuel) : ls.chainFrom fuel n = ns.map ls.get ++ [ls.root] := by
  -- On the climb, spending one unit of fuel for each name on the way.
  induction h generalizing fuel with
  | root hroot =>
    obtain ⟨fuel, rfl⟩ := Nat.exists_eq_succ_of_ne_zero (by omega : fuel ≠ 0)
    rw [chainFrom, if_pos hroot, get_of_root hroot]
    rfl
  | step hroot habove ih =>
    obtain ⟨fuel, rfl⟩ := Nat.exists_eq_succ_of_ne_zero (by omega : fuel ≠ 0)
    rw [List.length_cons] at hfuel
    rw [chainFrom, if_neg (by simp [hroot]), ih (by omega)]
    rfl

theorem Known.mem_slots {n : Text} (h : ls.Known n) : n ∈ ls.slots.map Prod.fst := by
  obtain ⟨l, hl⟩ := h
  obtain ⟨front, back, hsplit, -⟩ := List.lookup_eq_some_iff.mp hl
  rw [hsplit]
  simp

/-- Loggers are never so many that the search for those above one ends too soon. -/
theorem chain_of_climbs {n : Text} {ns : List Text} (h : ls.Climbs n ns) (hnodup : ns.Nodup)
    (hknown : ∀ m ∈ ns, ls.Known m) : ls.chain n = ns.map ls.get ++ [ls.root] := by
  have hsubset : ns ⊆ ls.slots.map Prod.fst := fun m hm => (hknown m hm).mem_slots
  have hlength := (hnodup.subperm hsubset).length_le
  rw [List.length_map] at hlength
  exact chainFrom_of_climbs h (by omega)

/-- The way up from behind a base name and a single dot comes by the base. So the handlers
of the base are among those a record of such a logger is offered, which is what the sinks
rely on. -/
theorem climbs_split {base n : Text} {ns : List Text} (h : ls.Climbs n ns) (horderly : ls.Orderly)
    (hleads : ls.Leads base) (hknown : ls.Known base) (hn : ls.Known n) (hdotted : Dotted base n) :
    ∃ nearer above, ns = nearer ++ above ∧ ls.Climbs base above ∧ ∀ m ∈ nearer, Dotted base m := by
  induction h with
  | root hroot =>
    rw [hdotted.under.not_isRootName] at hroot
    cases hroot
  | @step n ns hroot habove ih =>
    obtain ⟨l, hl⟩ := hn
    rw [get_of_slot? hroot hl] at habove ih
    rcases hleads n l hl hdotted with hnearer | hsame | hwaits
    · -- the logger above is behind the base name, too
      have hparent : ls.Known l.parent := by
        rcases horderly.above n l hl with hparent | ⟨-, hparent⟩
        · have hdot := hnearer.under.not_isRootName
          rw [hparent] at hdot
          cases hdot
        · exact hparent
      obtain ⟨nearer, above, rfl, hbase, hall⟩ := ih hparent hnearer
      exact ⟨n :: nearer, above, rfl, hbase, List.forall_mem_cons.mpr ⟨hdotted, hall⟩⟩
    · exact ⟨[n], ns, rfl, hsame ▸ habove, by simpa using hdotted⟩
    · exact (hknown.not_awaits n hwaits).elim

/-- The way up from behind a name of the root stays behind it. Here the base itself is the
root logger, which has no name to come by, so `climbs_split` does not apply. -/
theorem climbs_under_root {base n : Text} {ns : List Text} (h : ls.Climbs n ns)
    (horderly : ls.Orderly) (hbase : isRootName base = true) (hn : ls.Known n)
    (hunder : Under base n) : ∀ m ∈ ns, Under base m := by
  induction h with
  | root hroot => simp
  | @step n ns hroot habove ih =>
    obtain ⟨l, hl⟩ := hn
    rw [get_of_slot? hroot hl] at habove ih
    refine List.forall_mem_cons.mpr ⟨hunder, ?_⟩
    -- The parent on record is the root, where the climb ends, or a known name that encloses `n`.
    rcases horderly.above n l hl with hparent | ⟨hmem, hparent⟩
    · rw [hparent] at habove
      cases habove with
      | root => simp
      | step hnot => cases hnot
    · have hnot := horderly.named _ hparent
      rcases under_root_cases hbase hunder hmem with hunder' | hroot'
      · exact ih hparent hunder'
      · rw [hnot] at hroot'
        cases hroot'

/-- There is one way up: at a name of the root it ends, at any other it goes on to the one
parent on record. -/
theorem Climbs.functional {n : Text} {ns ns' : List Text} (h : ls.Climbs n ns)
    (h' : ls.Climbs n ns') : ns = ns' := by
  -- At each name the registry leaves no choice: it is a root name or has one parent.
  induction h generalizing ns' with
  | root hroot =>
    cases h' with
    | root => rfl
    | step hnot => simp [hroot] at hnot
  | step hnot habove ih =>
    cases h' with
    | root hroot => simp [hnot] at hroot
    | step hnot' habove' => rw [ih habove']

/-- The handlers of some loggers, one logger after the other. -/
def handlersAt (ls : Loggers) (names : List Text) : List Handler :=
  names.flatMap fun n => (ls.get n).handlers

theorem handlersAt_append (names names' : List Text) :
    ls.handlersAt (names ++ names') = ls.handlersAt names ++ ls.handlersAt names' :=
  List.flatMap_append

theorem handlersAt_cons (n : Text) (names : List Text) :
    ls.handlersAt (n :: names) = (ls.get n).handlers ++ ls.handlersAt names := rfl

/-- A record is offered to the handlers on the way up and to the root's. The fuel is
enough since the names on the way are different ones of the registry. -/
theorem handlersOf_of_climbs {n : Text} {ns : List Text} (h : ls.Climbs n ns) (hnodup : ns.Nodup)
    (hknown : ∀ m ∈ ns, ls.Known m) : ls.handlersOf n = ls.handlersAt (ns ++ [rootName]) := by
  rw [handlersOf, chain_of_climbs h hnodup hknown, handlersAt_append, List.flatMap_append,
    List.flatMap_map]
  rfl

/-- **What is logged behind a base name is offered once to the handlers of the base**,
after those of loggers behind the base name, and before those of loggers elsewhere. -/
theorem handlersOf_of_reaches {base n : Text} (horderly : ls.Orderly)
    (hleads : isRootName base = false → ls.Leads base)
    (hbase : isRootName base = true ∨ ls.Known base) (hn : ls.Known n) (h : Reaches base n) :
    ∃ nearer outer, ls.handlersOf n
        = ls.handlersAt nearer ++ (ls.get base).handlers ++ ls.handlersAt outer
      ∧ (∀ m ∈ nearer, Under base m) ∧ ∀ m ∈ outer, Elsewhere base m := by
  obtain ⟨ns, hclimbs, hnodup, hns⟩ := exists_climbs horderly n (.inr hn)
  have hhandlers := handlersOf_of_climbs hclimbs hnodup fun m hm => (hns m hm).1
  -- Below the root the base has no name to come by: the whole way up is nearer, and the root's handlers
  -- are the base's.
  rcases h with ⟨hisRoot, hunder⟩ | ⟨hnotRoot, hdotted⟩
  · have hroot : (ls.get rootName).handlers = (ls.get base).handlers := by
      rw [get_of_root hisRoot, get_of_root rfl]
    refine ⟨ns, [], ?_, climbs_under_root hclimbs horderly hisRoot hn hunder, by simp⟩
    rw [hhandlers, handlersAt_append, handlersAt_cons, hroot, ← List.append_assoc]
  · have hknown : ls.Known base := hbase.resolve_left (by simp [hnotRoot])
    obtain ⟨nearer, above, rfl, hfrom, hnearer⟩ :=
      climbs_split hclimbs horderly (hleads hnotRoot) hknown hn hdotted
    obtain ⟨above', hfrom', habove, houter⟩ := exists_climbs horderly base (.inr hknown)
    obtain rfl := hfrom.functional hfrom'
    -- the way up from the base begins with it
    cases hfrom with
    | root hisRoot =>
      rw [hnotRoot] at hisRoot
      cases hisRoot
    | @step _ outer _ _ =>
      refine ⟨nearer, outer ++ [rootName], ?_, fun m hm => (hnearer m hm).under, ?_⟩
      · rw [hhandlers, List.append_assoc, List.cons_append, handlersAt_append, handlersAt_cons,
          List.append_assoc]
      · intro m hm
        -- What is above the base encloses it; the last of them is the root.
        rcases List.mem_append.mp hm with hm | hm
        · have hne : m ≠ base := fun heq => (List.nodup_cons.mp habove).1 (heq ▸ hm)
          have hunder := (houter m (List.mem_cons_of_mem _ hm)).2.resolve_left hne
          exact elsewhere_of_under hnotRoot hunder
        · rw [List.mem_singleton.mp hm]
          exact elsewhere_root hnotRoot

theorem exists_chain_eq (ls : Loggers) (n : Text) : ∃ above, ls.chain n = ls.get n :: above := by
  rw [chain, chainFrom]
  split
  · exact ⟨[], rfl⟩
  · exact ⟨_, rfl⟩

theorem thresholdOf_of_ne_zero {n : Text} (h : (ls.get n).threshold ≠ 0) :
    ls.thresholdOf n = (ls.get n).threshold := by
  obtain ⟨above, hchain⟩ := ls.exists_chain_eq n
  rw [thresholdOf, hchain, List.map_cons, List.find?_cons_of_pos (by simpa using h)]
  rfl

theorem handlersOf_ne_nil {n : Text} (h : (ls.get n).handlers ≠ []) : ls.handlersOf n ≠ [] := by
  obtain ⟨above, hchain⟩ := ls.exists_chain_eq n
  rw [handlersOf, hchain, List.flatMap_cons]
  simp [h]

end Loggers

end Keeper.Log
