import Keeper.Log.Logger
import Keeper.Proofs.Fields

/-!
# Keeper — names that enclose names

How the names of loggers lie below one another. Of two dots side by side the search for enclosing names
passes over the first, so a base name is only sure to be found behind a single dot.

* **`Under`**, **`Dotted`** — a name that goes on behind a dot, and behind a single dot.
* **`enclosing_eq_of_dotted`** — behind a single dot a base name encloses a name, and what lies between
  the two goes on behind a single dot as well.
* **`pairwise_enclosing`**, **`enclosing_cases`** — where enclosing names stand to each other, and to a
  base name.
* **`Elsewhere`**, **`Reaches`** — the names that have nothing to do with a base name, and those from which
  the way up comes by it.
-/

namespace Keeper.Log

/-! ## Names -/

/-- A name goes on behind another name and a dot. -/
def Under (base name : Text) : Prop :=
  ∃ rest, name.points = base.points ++ CodePoint.char '.' :: rest

/-- A name goes on behind another name and a single dot. -/
def Dotted (base name : Text) : Prop :=
  ∃ p rest, p ≠ CodePoint.char '.' ∧ name.points = base.points ++ CodePoint.char '.' :: p :: rest

theorem Dotted.under {base name : Text} (h : Dotted base name) : Under base name := by
  obtain ⟨p, rest, -, hname⟩ := h
  exact ⟨p :: rest, hname⟩

/-- A name is longer than those it is behind, which makes the relation well-founded. -/
theorem Under.length_lt {base name : Text} (h : Under base name) : base.length < name.length := by
  obtain ⟨rest, hname⟩ := h
  unfold Text.length
  rw [hname, List.length_append, List.length_cons]
  omega

/-- So no name is behind itself. -/
theorem Under.ne {base name : Text} (h : Under base name) : base ≠ name := by
  rintro rfl
  exact Nat.lt_irrefl _ h.length_lt

/-- What is behind a name that is behind another one is behind that as well. -/
theorem Under.trans {a b c : Text} (hab : Under a b) (hbc : Under b c) : Under a c := by
  obtain ⟨rest, hb⟩ := hab
  obtain ⟨rest', hc⟩ := hbc
  exact ⟨rest ++ CodePoint.char '.' :: rest', by rw [hc, hb, List.append_assoc, List.cons_append]⟩

/-- A name begins with those it is behind. The converse fails, as `ab` begins with `a`. -/
theorem Under.startsWith {base name : Text} (h : Under base name) : name.startsWith base = true := by
  obtain ⟨rest, hname⟩ := h
  rw [Text.startsWith, List.isPrefixOf_iff_prefix, hname]
  exact List.prefix_append _ _

theorem length_le_of_startsWith {name start : Text} (h : name.startsWith start = true) :
    start.length ≤ name.length := by
  rw [Text.startsWith, List.isPrefixOf_iff_prefix] at h
  exact h.length_le

/-- In a name that has a dot, that dot is not of the root's name. -/
theorem Under.not_isRootName {base name : Text} (h : Under base name) : isRootName name = false := by
  obtain ⟨rest, hname⟩ := h
  -- A name below another one holds a dot, which the root's names do not.
  have hdot : CodePoint.char '.' ∈ name.points := by rw [hname]; simp
  have hempty : name.isEmpty = false := by
    rw [Text.isEmpty, hname]
    cases base.points <;> rfl
  have hroot : name ≠ rootName := by
    rintro rfl
    revert hdot
    decide
  simp [isRootName, hempty, hroot]

theorem points_ne_nil {name : Text} (h : isRootName name = false) : name.points ≠ [] := by
  intro hempty
  rw [isRootName, Text.isEmpty, hempty] at h
  cases h

/-- A name backwards, of which the enclosing names are those that begin behind a dot.
Working from the end makes the nearest enclosing name the first one that is met. -/
theorem exists_of_mem_enclosingBackwards (ps m : List CodePoint) (h : m ∈ enclosingBackwards ps) :
    m ≠ [] ∧ ∃ front, ps = front ++ CodePoint.char '.' :: m := by
  match ps with
  | [] | [_] => simp [enclosingBackwards] at h
  | p :: q :: rest =>
    rw [enclosingBackwards] at h
    split at h
    -- At a dot the rest behind it is an enclosing name; the others enclose that rest.
    next hp =>
      rcases List.mem_cons.mp h with rfl | h
      · exact ⟨by simp, [], by rw [hp]; rfl⟩
      · obtain ⟨hne, front, hrest⟩ := exists_of_mem_enclosingBackwards rest m h
        exact ⟨hne, p :: q :: front, by rw [hrest]; rfl⟩
    next =>
      obtain ⟨hne, front, hrest⟩ := exists_of_mem_enclosingBackwards (q :: rest) m h
      exact ⟨hne, p :: front, by rw [hrest]; rfl⟩

/-- The names that enclose a name are those it is behind, apart from the empty one. -/
theorem under_of_mem_enclosing {name m : Text} (h : m ∈ enclosing name) :
    Under m name ∧ m.points ≠ [] := by
  obtain ⟨ps, hps, rfl⟩ := List.mem_map.mp h
  obtain ⟨hne, front, hname⟩ := exists_of_mem_enclosingBackwards _ ps hps
  refine ⟨⟨front.reverse, ?_⟩, by simpa using hne⟩
  rw [← List.reverse_reverse name.points, hname]
  simp

/-- Backwards, a single dot before a base name is found, and what is found before it ends
in the base name and the dot; the steps are those of the search. -/
theorem enclosingBackwards_append {p : CodePoint} (hp : p ≠ CodePoint.char '.')
    {base : List CodePoint} (hbase : base ≠ []) (front : List CodePoint) :
    ∃ nearer others, enclosingBackwards (front ++ p :: CodePoint.char '.' :: base)
        = nearer ++ base :: others
      ∧ ∀ m ∈ nearer, ∃ front', m = front' ++ p :: CodePoint.char '.' :: base := by
  obtain ⟨q, rest, rfl⟩ := List.exists_cons_of_ne_nil hbase
  match front with
  | [] =>
    refine ⟨[], enclosingBackwards rest, ?_, by simp⟩
    simp [enclosingBackwards, hp]
  -- the names are read backwards, so a dot at the front is one at the end of the name
  | [x] =>
    by_cases hx : x = CodePoint.char '.'
    · refine ⟨[p :: CodePoint.char '.' :: q :: rest], enclosingBackwards rest, ?_, ?_⟩
      · simp [enclosingBackwards, hx]
      · intro m hm
        obtain rfl := List.mem_singleton.mp hm
        exact ⟨[], rfl⟩
    · refine ⟨[], enclosingBackwards rest, ?_, by simp⟩
      simp [enclosingBackwards, hx, hp]
  | x :: y :: front =>
    by_cases hx : x = CodePoint.char '.'
    · -- A dot: what follows it is one more name that goes on behind the base.
      obtain ⟨nearer, others, heq, hnearer⟩ := enclosingBackwards_append hp hbase front
      refine ⟨(y :: front ++ p :: CodePoint.char '.' :: q :: rest) :: nearer, others, ?_, ?_⟩
      · rw [List.cons_append, List.cons_append, enclosingBackwards, if_pos hx, heq]
        rfl
      · intro m hm
        rcases List.mem_cons.mp hm with rfl | hm
        · exact ⟨y :: front, rfl⟩
        · exact hnearer m hm
    · obtain ⟨nearer, others, heq, hnearer⟩ := enclosingBackwards_append hp hbase (y :: front)
      refine ⟨nearer, others, ?_, hnearer⟩
      rw [List.cons_append, List.cons_append, enclosingBackwards, if_neg hx]
      exact heq

/-- Behind a single dot, a base name is among the enclosing ones; those that are nearer go
on behind it and a single dot. -/
theorem enclosing_eq_of_dotted {base name : Text} (hbase : base.points ≠ [])
    (h : Dotted base name) :
    ∃ nearer others, enclosing name = nearer ++ base :: others ∧ ∀ m ∈ nearer, Dotted base m := by
  obtain ⟨p, rest, hp, hname⟩ := h
  -- Enclosing names are cut off from the end, so the name is looked at backwards.
  have hback : name.points.reverse = rest.reverse ++ p :: CodePoint.char '.' :: base.points.reverse := by
    rw [hname]
    simp
  obtain ⟨nearer, others, heq, hnearer⟩ :=
    enclosingBackwards_append hp (List.reverse_ne_nil_iff.mpr hbase) rest.reverse
  refine ⟨nearer.map fun ps => ⟨ps.reverse⟩, others.map fun ps => ⟨ps.reverse⟩, ?_, ?_⟩
  · rw [enclosing, hback, heq]
    simp
  · intro m hm
    obtain ⟨ps, hps, rfl⟩ := List.mem_map.mp hm
    obtain ⟨front', rfl⟩ := hnearer ps hps
    exact ⟨p, front'.reverse, hp, by simp⟩

/-- Of the enclosing names, the farther ones enclose the nearer ones, so the first that is
known is the nearest. -/
theorem pairwise_enclosingBackwards (ps : List CodePoint) :
    (enclosingBackwards ps).Pairwise fun m m' => ∃ front, m = front ++ CodePoint.char '.' :: m' := by
  match ps with
  | [] | [_] => simp [enclosingBackwards]
  | p :: q :: rest =>
    rw [enclosingBackwards]
    split
    · refine List.pairwise_cons.mpr ⟨fun m hm => ?_, pairwise_enclosingBackwards rest⟩
      obtain ⟨-, front, hrest⟩ := exists_of_mem_enclosingBackwards rest m hm
      exact ⟨q :: front, by rw [hrest]; rfl⟩
    · exact pairwise_enclosingBackwards (q :: rest)

/-- The enclosing names come nearest first, each behind the next one. The logger above a
new one is therefore the first of them that is there. -/
theorem pairwise_enclosing (name : Text) :
    (enclosing name).Pairwise fun m m' => Under m' m := by
  refine List.pairwise_map.mpr ((pairwise_enclosingBackwards _).imp ?_)
  rintro m m' ⟨front, rfl⟩
  exact ⟨front.reverse, by simp⟩

/-- Where an enclosing name stands to a base name behind which the name goes on: still
behind the base, at it, or above it. The way up from a run's logger is cut at the base by
this. -/
theorem enclosing_cases {base name m : Text} (hbase : base.points ≠ []) (h : Dotted base name)
    (hm : m ∈ enclosing name) : Dotted base m ∨ m = base ∨ Under m base := by
  obtain ⟨nearer, others, heq, hnearer⟩ := enclosing_eq_of_dotted hbase h
  have hpairs := pairwise_enclosing name
  rw [heq] at hm hpairs
  rcases List.mem_append.mp hm with hm | hm
  · exact .inl (hnearer m hm)
  rcases List.mem_cons.mp hm with rfl | hm
  · exact .inr (.inl rfl)
  · have hbehind := (List.pairwise_append.mp hpairs).2.1
    exact .inr (.inr ((List.pairwise_cons.mp hbehind).1 m hm))

/-- Behind a name of the root, what encloses a name goes on behind that too, or is of the
root. With the root for a base there is no dotted name to compare with, so this takes the
place of `enclosing_cases`. -/
theorem under_root_cases {base name m : Text} (hbase : isRootName base = true) (h : Under base name)
    (hm : m ∈ enclosing name) : Under base m ∨ isRootName m = true := by
  obtain ⟨⟨rest', hname'⟩, hne⟩ := under_of_mem_enclosing hm
  obtain ⟨rest, hname⟩ := h
  rcases List.append_eq_append_iff.mp (hname.symm.trans hname') with
    ⟨front, hm', hrest⟩ | ⟨back, hbase', hrest⟩
  · cases front with
    | nil =>
      have heq : m = base := Text.ext (by simpa using hm')
      exact .inr (heq ▸ hbase)
    | cons p front =>
      obtain ⟨rfl, -⟩ := List.cons.inj hrest
      exact .inl ⟨front, hm'⟩
  · cases back with
    | nil =>
      have heq : m = base := Text.ext (by simpa using hbase'.symm)
      exact .inr (heq ▸ hbase)
    | cons p back =>
      obtain ⟨rfl, -⟩ := List.cons.inj hrest
      -- then the root's name would have a dot
      have hdotted : Under m base := ⟨back, hbase'⟩
      rw [hdotted.not_isRootName] at hbase
      cases hbase

/-! ## Names and a base name -/

/-- A name is neither a base name nor behind one. -/
def Elsewhere (base n : Text) : Prop := canonicalName n ≠ canonicalName base ∧ ¬Under base n

theorem canonicalName_of_not_root {n : Text} (h : isRootName n = false) : canonicalName n = n := by
  simp [canonicalName, h]

theorem canonicalName_of_root {n : Text} (h : isRootName n = true) : canonicalName n = rootName := by
  simp [canonicalName, h]

/-- A base that is not the root has no other name that stands for its logger. The root has
several, which is why the base of a setup is asked for. -/
theorem canonicalName_eq_iff {n base : Text} (hbase : isRootName base = false) :
    canonicalName n = canonicalName base ↔ n = base := by
  constructor
  · intro h
    rw [canonicalName_of_not_root hbase] at h
    -- The root's canonical name is a root name, which `base` is not.
    cases hn : isRootName n with
    | true =>
      rw [canonicalName_of_root hn] at h
      rw [← h] at hbase
      cases hbase
    | false => rwa [canonicalName_of_not_root hn] at h
  · rintro rfl
    rfl

/-- A name that the base is behind lies elsewhere: what is above the base is not
below it. -/
theorem elsewhere_of_under {base n : Text} (hbase : isRootName base = false) (h : Under n base) :
    Elsewhere base n := by
  refine ⟨?_, fun hbehind => Nat.lt_asymm h.length_lt hbehind.length_lt⟩
  rw [Ne, canonicalName_eq_iff hbase]
  exact h.ne

/-- The root lies elsewhere than any other base. -/
theorem elsewhere_root {base : Text} (hbase : isRootName base = false) : Elsewhere base rootName := by
  refine ⟨?_, fun hbehind => ?_⟩
  · rw [Ne, canonicalName_eq_iff hbase]
    rintro rfl
    cases hbase
  · have hnot := hbehind.not_isRootName
    cases hnot

/-- What is logged behind a base name comes by the base: a name of the root encloses all
names behind it, another one those behind a single dot. -/
def Reaches (base n : Text) : Prop :=
  isRootName base = true ∧ Under base n ∨ isRootName base = false ∧ Dotted base n

end Keeper.Log
