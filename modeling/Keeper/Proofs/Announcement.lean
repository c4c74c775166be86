import Keeper.Redaction.Basic
import Mathlib.Data.List.Basic

/-!
# Keeper — announcements and what they announce

A pattern finds a secret by an announcement: a row of pieces each of which takes as much as it can.
Here announcements are described without that, by which texts the pieces read, and the two descriptions
are shown to be one: where no piece would take what the next one begins with, a row of pieces takes
from a text exactly what it reads.

* **`Piece.Reads`** — the texts a row of pieces reads.
* **`takenAll?_sound`**, **`takenAll?_complete`** — what is taken is read, and what is read is taken.
* **`spelling`**, **`Piece.Reads.spelling_eq`** — the letters of a text; those of an announcement are
  the letters of its pieces.
* **`Pattern.Sound`** — what all five patterns have in common: an announcement begins with a letter,
  ends with a blank or a sign, has no asterisk in it, and no blank belongs to a secret.
* **`Pattern.Finds`**, **`match?_eq_some_iff`** — a match, by the announcement, the secret and the rest.
-/

namespace Keeper.Redaction

open Text (isBlank)

/-! ## Letters, blanks and signs -/

def blank (p : CodePoint) : Bool := p.satisfies isBlank

/-- The letter or digit a code point folds to, if it folds to one. -/
def letter? : CodePoint → Option Char
  | .char c => if (fold c).isAlphanum then some (fold c) else none
  | .surrogate _ => none

/-- The letters and digits of a text. -/
def spelling (cs : List CodePoint) : List Char := cs.filterMap letter?

@[simp] theorem spelling_nil : spelling [] = [] := rfl

@[simp] theorem spelling_append (u v : List CodePoint) :
    spelling (u ++ v) = spelling u ++ spelling v :=
  List.filterMap_append

/-- The blanks, one by one. -/
def blankChars : List Char :=
  Text.blankRanges.flatMap fun (low, high) => (List.range' low (high - low + 1)).map Char.ofNat

/-- The blanks are listed by their ranges. The list is finite, so what holds of all blanks
is decided by going through it. -/
theorem mem_blankChars {c : Char} (h : isBlank c = true) : c ∈ blankChars := by
  obtain ⟨⟨low, high⟩, hmem, hrange⟩ := List.any_eq_true.mp h
  simp only [Bool.and_eq_true, decide_eq_true_eq] at hrange
  refine List.mem_flatMap.mpr ⟨(low, high), hmem, List.mem_map.mpr ⟨c.toNat, ?_, Char.ofNat_toNat c⟩⟩
  rw [List.mem_range'_1]
  omega

/-- No blank is a letter, a sign or an asterisk. -/
theorem of_isBlank {c : Char} (h : isBlank c = true) :
    (fold c).isAlphanum = false ∧ isTokenPoint c = false ∧ c ≠ '*' := by
  have hall : (blankChars.all fun c =>
      !(fold c).isAlphanum && !isTokenPoint c && c != '*') = true := by decide
  have hc := List.all_eq_true.mp hall c (mem_blankChars h)
  simp only [Bool.and_eq_true, Bool.not_eq_true', bne_iff_ne] at hc
  exact ⟨hc.1.1, hc.1.2, hc.2⟩

/-! ## What pieces read -/

namespace Piece

/-- Whether a piece reads exactly the given text. -/
def Accepts : Piece → List CodePoint → Prop
  | .letter c, u => ∃ d, u = [d] ∧ d.satisfies (fold · = c) = true
  | .oneOf cs, u => ∃ d, u = [d] ∧ d.satisfies cs.contains = true
  | .optional cs, u => u = [] ∨ ∃ d, u = [d] ∧ d.satisfies cs.contains = true
  | .blanks, u => ∀ d ∈ u, blank d = true
  | .someBlanks, u => u ≠ [] ∧ ∀ d ∈ u, blank d = true

/-- What a row of pieces reads: one text after the other. -/
inductive Reads : List Piece → List CodePoint → Prop where
  | nil : Reads [] []
  | cons {p : Piece} {ps : List Piece} {u v : List CodePoint} (hp : p.Accepts u) (h : Reads ps v) :
      Reads (p :: ps) (u ++ v)

/-- A piece asks for letters as letters, and for no asterisk. -/
def plain : Piece → Bool
  | .letter c => c.isAlphanum
  | .oneOf cs | .optional cs => cs.all fun c => !(fold c).isAlphanum && c != '*'
  | .blanks | .someBlanks => true

/-- Whether a piece that is done would go on with a character. -/
def goesOn : Piece → Char → Bool
  | .letter _, _ | .oneOf _, _ => false
  | .optional cs, c => cs.contains c
  | .blanks, c | .someBlanks, c => isBlank c

/-- Nothing that the second piece begins with is taken by the first. -/
def partsFrom : (p q : Piece) → Bool
  | .letter _, _ | .oneOf _, _ | _, .letter _ => true
  | p, .oneOf cs => cs.all fun c => !p.goesOn c
  | _, _ => false

/-- Whether a piece would go on with nothing but blanks. -/
def closes : Piece → Bool
  | .optional _ => false
  | _ => true

/-- Each piece parts from the next, and the last one would go on with nothing but
blanks. -/
def firm : List Piece → Bool
  | [] => true
  | [p] => p.closes
  | p :: q :: rest => p.partsFrom q && firm (q :: rest)

end Piece

/-! ## Taking what is read -/

/-- A run ends where the next code point does not belong to it. -/
theorem takeWhile_run {p : CodePoint → Bool} {u rest : List CodePoint} (hu : ∀ d ∈ u, p d = true)
    (hrest : ∀ d ∈ rest.head?, p d = false) : (u ++ rest).takeWhile p = u := by
  rw [List.takeWhile_append_of_pos hu]
  cases rest with
  | nil => rw [List.takeWhile_nil, List.append_nil]
  | cons d rest =>
    have hd : ¬p d = true := by rw [hrest d rfl]; decide
    rw [List.takeWhile_cons_of_neg hd, List.append_nil]

theorem head?_dropWhile {p : CodePoint → Bool} (cs : List CodePoint) :
    ∀ d ∈ (cs.dropWhile p).head?, p d = false := by
  intro d hd
  have hnot := List.head?_dropWhile_not p cs
  rw [hd] at hnot
  exact hnot

namespace Piece

/-- What a piece takes at the start of a text is something it accepts. One case for each
kind of piece, as `Piece.taken?` has them; the two that read blanks share what is known of
a run of blanks. -/
theorem taken?_sound {p : Piece} {cs : List CodePoint} {n : Nat} (h : p.taken? cs = some n) :
    ∃ u rest, cs = u ++ rest ∧ u.length = n ∧ p.Accepts u := by
  have hrun := List.takeWhile_append_dropWhile (p := blank) (l := cs)
  have hblank : ∀ d ∈ cs.takeWhile blank, blank d = true := List.all_eq_true.mp List.all_takeWhile
  -- What is taken is one character, or a run of blanks that `hrun` and `hblank` describe.
  cases p with
  | letter c =>
    cases cs with
    | nil => nomatch h
    | cons d rest =>
      by_cases hd : d.satisfies (fold · = c) = true
      · rw [taken?, if_pos hd] at h
        exact ⟨[d], rest, rfl, Option.some.inj h, d, rfl, hd⟩
      · rw [taken?, if_neg hd] at h
        nomatch h
  | oneOf ds =>
    cases cs with
    | nil => nomatch h
    | cons d rest =>
      by_cases hd : d.satisfies ds.contains = true
      · rw [taken?, if_pos hd] at h
        exact ⟨[d], rest, rfl, Option.some.inj h, d, rfl, hd⟩
      · rw [taken?, if_neg hd] at h
        nomatch h
  | optional ds =>
    cases cs with
    | nil => exact ⟨[], [], rfl, Option.some.inj h, .inl rfl⟩
    | cons d rest =>
      by_cases hd : d.satisfies ds.contains = true
      · rw [taken?, if_pos hd] at h
        exact ⟨[d], rest, rfl, Option.some.inj h, .inr ⟨d, rfl, hd⟩⟩
      · rw [taken?, if_neg hd] at h
        exact ⟨[], d :: rest, rfl, Option.some.inj h, .inl rfl⟩
  | blanks => exact ⟨_, _, hrun.symm, Option.some.inj h, hblank⟩
  | someBlanks =>
    rw [taken?] at h
    split at h
    next => nomatch h
    next m hm =>
      have hne : cs.takeWhile blank ≠ [] := List.ne_nil_of_length_eq_add_one hm
      exact ⟨_, _, hrun.symm, hm.trans (Option.some.inj h), hne, hblank⟩

/-- A piece takes all that it accepts if it would not go on behind it. Without that
condition it might take more, as the pieces for blanks do. -/
theorem taken?_complete {p : Piece} {u rest : List CodePoint} (h : p.Accepts u)
    (hrest : ∀ d ∈ rest.head?, d.satisfies p.goesOn = false) :
    p.taken? (u ++ rest) = some u.length := by
  -- only the optional sign and the blanks ask for the condition
  cases p with
  | letter c =>
    obtain ⟨d, rfl, hd⟩ := h
    exact if_pos hd
  | oneOf cs =>
    obtain ⟨d, rfl, hd⟩ := h
    exact if_pos hd
  | optional cs =>
    rcases h with rfl | ⟨d, rfl, hd⟩
    · cases rest with
      | nil => rfl
      | cons d rest =>
        have hd : ¬d.satisfies cs.contains = true := Bool.eq_false_iff.mp (hrest d rfl)
        exact congrArg some (if_neg hd)
    · exact congrArg some (if_pos hd)
  | blanks =>
    have hrun : (u ++ rest).takeWhile blank = u := takeWhile_run h hrest
    exact congrArg (fun v : List CodePoint => some v.length) hrun
  | someBlanks =>
    have hrun : (u ++ rest).takeWhile (·.satisfies isBlank) = u := takeWhile_run h.2 hrest
    obtain ⟨d, v, rfl⟩ := List.exists_cons_of_ne_nil h.1
    rw [taken?, hrun]
    rfl

/-- What is taken by a row of pieces is read by it: the number that is given back is the
length of a front of the text, cut into as many stretches as there are pieces. -/
theorem takenAll?_sound {ps : List Piece} {cs : List CodePoint} {n : Nat}
    (h : takenAll? ps cs = some n) : ∃ u rest, cs = u ++ rest ∧ u.length = n ∧ Reads ps u := by
  induction ps generalizing cs n with
  | nil => exact ⟨[], cs, rfl, Option.some.inj h, .nil⟩
  | cons p ps ih =>
    obtain ⟨m, hm, h⟩ := Option.bind_eq_some_iff.mp h
    obtain ⟨k, hk, h⟩ := Option.bind_eq_some_iff.mp h
    obtain ⟨u, rest, rfl, rfl, hp⟩ := taken?_sound hm
    -- What the first piece took has length `m`, so the rest is matched exactly behind it.
    rw [List.drop_left] at hk
    obtain ⟨v, rest, rfl, rfl, hps⟩ := ih hk
    refine ⟨u ++ v, rest, (List.append_assoc u v rest).symm, ?_, .cons hp hps⟩
    rw [List.length_append]
    exact Option.some.inj h

/-- Blanks and options, the only pieces that go on, do so with no letter. -/
theorem fold_of_goesOn {p : Piece} (hp : p.plain = true) {c : Char} (h : p.goesOn c = true) :
    (fold c).isAlphanum = false := by
  cases p with
  | letter _ => nomatch h
  | oneOf _ => nomatch h
  | optional cs =>
    have hc := List.all_eq_true.mp hp c (List.contains_iff_mem.mp h)
    simp only [Bool.and_eq_true, Bool.not_eq_true'] at hc
    exact hc.1
  | blanks => exact (of_isBlank h).1
  | someBlanks => exact (of_isBlank h).1

/-- Where one piece parts from the next, the first goes on with nothing, or the next reads
a letter, or its signs are none that the first would take. -/
theorem partsFrom_cases {p q : Piece} (h : p.partsFrom q = true) :
    (∀ c, p.goesOn c = false) ∨ (∃ c, q = .letter c)
      ∨ ∃ cs, q = .oneOf cs ∧ ∀ c ∈ cs, p.goesOn c = false := by
  cases p with
  | letter _ => exact .inl fun _ => rfl
  | oneOf _ => exact .inl fun _ => rfl
  | _ =>
    cases q with
    | letter c => exact .inr (.inl ⟨c, rfl⟩)
    | oneOf cs => exact .inr (.inr ⟨cs, rfl, by simpa [partsFrom] using h⟩)
    | _ => nomatch h

/-- What a piece parts from does not begin with anything that it would take. This is what
makes taking as much as possible the only way to read: a piece that stopped early would
leave to the next one what it cannot read. -/
theorem head?_of_partsFrom {p q : Piece} (hp : p.plain = true) (hq : q.plain = true)
    (hparts : p.partsFrom q = true) {u : List CodePoint} (hu : q.Accepts u)
    (rest : List CodePoint) : ∀ d ∈ (u ++ rest).head?, d.satisfies p.goesOn = false := by
  intro d hd
  cases d with
  | surrogate place => rfl
  | char e =>
    apply Bool.eq_false_iff.mpr
    intro hgoes
    -- Either nothing lets the first piece go on, or `q` begins with a character that the piece does not
    -- take.
    rcases partsFrom_cases hparts with hsteady | ⟨c, rfl⟩ | ⟨cs, rfl, hnone⟩
    · exact Bool.eq_false_iff.mp (hsteady e) hgoes
    · obtain ⟨_, rfl, hfold⟩ := hu
      cases hd
      have hletter := fold_of_goesOn hp hgoes
      rw [of_decide_eq_true hfold, show c.isAlphanum = true from hq] at hletter
      nomatch hletter
    · obtain ⟨_, rfl, hmem⟩ := hu
      cases hd
      exact Bool.eq_false_iff.mp (hnone e (List.contains_iff_mem.mp hmem)) hgoes

/-- A piece that closes an announcement would go on with blanks alone. -/
theorem satisfies_goesOn_of_closes {p : Piece} (h : p.closes = true) {d : CodePoint}
    (hd : blank d = false) : d.satisfies p.goesOn = false := by
  cases p with
  | optional _ => nomatch h
  | letter _ => cases d <;> rfl
  | oneOf _ => cases d <;> rfl
  | blanks => exact hd
  | someBlanks => exact hd

/-- What is read by a firm row of pieces is taken by it, unless a blank follows. Firm rows
part at each border, so the greedy piece ends exactly where the reading ends; only the
last piece has to look at what follows. -/
theorem takenAll?_complete {ps : List Piece} (hplain : ∀ p ∈ ps, p.plain = true)
    (hfirm : firm ps = true) {u rest : List CodePoint} (h : Reads ps u)
    (hrest : ∀ d ∈ rest.head?, blank d = false) : takenAll? ps (u ++ rest) = some u.length := by
  induction h with
  | nil => rfl
  | @cons p ps u v hp hps ih =>
    obtain ⟨hplain₁, hplain⟩ := List.forall_mem_cons.mp hplain
    -- what comes next is what the next piece begins with, or what follows them all
    have hnext : (∀ d ∈ (v ++ rest).head?, d.satisfies p.goesOn = false) ∧ firm ps = true := by
      cases hps with
      | nil => exact ⟨fun d hd => satisfies_goesOn_of_closes hfirm (hrest d hd), rfl⟩
      | @cons q ps w v hq hps =>
        rw [firm, Bool.and_eq_true] at hfirm
        refine ⟨?_, hfirm.2⟩
        rw [List.append_assoc]
        exact head?_of_partsFrom hplain₁ (hplain q List.mem_cons_self) hfirm.1 hq _
    rw [List.append_assoc, takenAll?, taken?_complete hp hnext.1]
    show (takenAll? ps ((u ++ (v ++ rest)).drop u.length)).bind _ = _
    rw [List.drop_left, ih hplain hnext.2, List.length_append]
    rfl

end Piece

/-! ## What is read, by its letters -/

/-- The mark that replacements begin and end with. -/
def star : CodePoint := .char '*'

/-- A code point that matches a letter of a pattern has that letter, whatever its case. -/
theorem letter?_of_satisfies {c : Char} (hc : c.isAlphanum = true) {d : CodePoint}
    (h : d.satisfies (fold · = c) = true) : letter? d = some c := by
  cases d with
  | surrogate place => nomatch h
  | char e =>
    have hfold : fold e = c := of_decide_eq_true h
    rw [letter?, hfold, if_pos hc]

/-- Letters and digits may stand in a secret. The folded forms are met by going through
the few points that fold to a plain letter. -/
theorem isTokenPoint_of_letter? {c : Char} {d : CodePoint} (h : letter? d = some c) :
    isTokenPoint d = true := by
  cases d with
  | surrogate place => nomatch h
  | char e =>
    have hletter : (fold e).isAlphanum = true := by
      by_contra hletter
      rw [letter?, if_neg hletter] at h
      nomatch h
    simp [isTokenPoint, CodePoint.satisfies, hletter]

theorem ne_star_of_letter? {c : Char} {d : CodePoint} (h : letter? d = some c) : d ≠ star := by
  rintro rfl
  have hnone : letter? star = none := by decide
  rw [hnone] at h
  nomatch h

/-- A secret of token points has no mark in it, so it cannot be taken for a
replacement. -/
theorem star_notMem_of_tokens {u : List CodePoint} (hu : ∀ d ∈ u, isTokenPoint d = true) :
    star ∉ u := by
  intro hmem
  have hstar : isTokenPoint star = false := by decide
  rw [hu star hmem] at hstar
  nomatch hstar

/-- No blank is a letter, belongs to a token or is the mark. -/
theorem of_blank {d : CodePoint} (h : blank d = true) :
    letter? d = none ∧ isTokenPoint d = false ∧ d ≠ star := by
  cases d with
  | surrogate place => nomatch h
  | char e =>
    obtain ⟨hletter, htoken, hne⟩ := of_isBlank h
    refine ⟨?_, htoken, fun hstar => hne (CodePoint.char.inj hstar)⟩
    rw [letter?, if_neg (Bool.eq_false_iff.mp hletter)]

/-- The signs of an assignment end a token. -/
theorem isTokenPoint_of_sign {d : CodePoint} (h : d.satisfies ['=', ':'].contains = true) :
    isTokenPoint d = false := by
  cases d with
  | surrogate place => rfl
  | char e =>
    have he : e ∈ ['=', ':'] := List.contains_iff_mem.mp h
    rw [List.mem_cons, List.mem_singleton] at he
    rcases he with rfl | rfl <;> decide

/-- What a plain piece asks for beside letters is no letter and not the mark. -/
theorem of_contains {cs : List Char}
    (hcs : (cs.all fun c => !(fold c).isAlphanum && c != '*') = true) {d : CodePoint}
    (h : d.satisfies cs.contains = true) : letter? d = none ∧ d ≠ star := by
  cases d with
  | surrogate place => nomatch h
  | char e =>
    have he := List.all_eq_true.mp hcs e (List.contains_iff_mem.mp h)
    simp only [Bool.and_eq_true, Bool.not_eq_true', bne_iff_ne] at he
    refine ⟨?_, fun hstar => he.2 (CodePoint.char.inj hstar)⟩
    rw [letter?, if_neg (Bool.eq_false_iff.mp he.1)]

/-- Every token point may stand in a password. Only blanks and commas may not, and neither
belongs to a token. -/
theorem isPasswordPoint_of_isTokenPoint {d : CodePoint} (h : isTokenPoint d = true) :
    isPasswordPoint d = true := by
  -- A password may hold anything but blanks and commas, and neither is a token character.
  have hcomma : d ≠ .char ',' := by
    rintro rfl
    have hno : isTokenPoint (.char ',') = false := by decide
    rw [hno] at h
    nomatch h
  have hblank : blank d = false := by
    apply Bool.eq_false_iff.mpr
    intro hblank
    rw [(of_blank hblank).2.1] at h
    nomatch h
  rw [isPasswordPoint, Bool.and_eq_true, Bool.not_eq_true', bne_iff_ne]
  exact ⟨hcomma, hblank⟩

theorem isPasswordPoint_of_blank {d : CodePoint} (h : blank d = true) :
    isPasswordPoint d = false := by
  rw [isPasswordPoint, show d.satisfies Text.isBlank = true from h, Bool.not_true, Bool.and_false]

namespace Piece

/-- The letters a row of pieces asks for. -/
def letters (ps : List Piece) : List Char :=
  ps.filterMap fun
    | .letter c => some c
    | _ => none

/-- A piece reads its letter, or it asks for none and reads none. Reading a whole
announcement therefore spells the letters of its pattern, in order, which is how
announcements of two patterns are told apart. -/
theorem Accepts.letter_cases {p : Piece} (hp : p.plain = true) {u : List CodePoint}
    (h : p.Accepts u) : (∃ c d, p = .letter c ∧ u = [d] ∧ letter? d = some c)
      ∨ letters [p] = [] ∧ ∀ d ∈ u, letter? d = none ∧ d ≠ star := by
  -- Blanks are no letters and no stars, which settles the two pieces that take runs of them.
  have hblank {v : List CodePoint} (hv : ∀ d ∈ v, blank d = true) :
      ∀ d ∈ v, letter? d = none ∧ d ≠ star :=
    fun d hd => ⟨(of_blank (hv d hd)).1, (of_blank (hv d hd)).2.2⟩
  cases p with
  | letter c =>
    obtain ⟨d, rfl, hd⟩ := h
    exact .inl ⟨c, d, rfl, rfl, letter?_of_satisfies hp hd⟩
  | oneOf cs =>
    obtain ⟨d, rfl, hd⟩ := h
    exact .inr ⟨rfl, List.forall_mem_singleton.mpr (of_contains hp hd)⟩
  | optional cs =>
    rcases h with rfl | ⟨d, rfl, hd⟩
    · exact .inr ⟨rfl, fun d hd => nomatch hd⟩
    · exact .inr ⟨rfl, List.forall_mem_singleton.mpr (of_contains hp hd)⟩
  | blanks => exact .inr ⟨rfl, hblank h⟩
  | someBlanks => exact .inr ⟨rfl, hblank h.2⟩

/-- What a plain piece accepts spells the letters the piece asks for: one for a letter,
none for a sign or a blank. -/
theorem Accepts.spelling_eq {p : Piece} (hp : p.plain = true) {u : List CodePoint}
    (h : p.Accepts u) : spelling u = letters [p] := by
  rcases h.letter_cases hp with ⟨c, d, rfl, rfl, hd⟩ | ⟨hletters, hnone⟩
  · rw [spelling, List.filterMap_cons_some hd]
    rfl
  · rw [hletters]
    exact List.filterMap_eq_nil_iff.mpr fun d hd => (hnone d hd).1

theorem Accepts.star_notMem {p : Piece} (hp : p.plain = true) {u : List CodePoint}
    (h : p.Accepts u) : star ∉ u := by
  rcases h.letter_cases hp with ⟨c, d, rfl, rfl, hd⟩ | ⟨_, hnone⟩
  · rw [List.mem_singleton]
    exact fun hstar => ne_star_of_letter? hd hstar.symm
  · exact fun hstar => (hnone star hstar).2 rfl

/-- The whole announcement spells the word of its pattern, by induction on the pieces. -/
theorem Reads.spelling_eq {ps : List Piece} (hplain : ∀ p ∈ ps, p.plain = true)
    {u : List CodePoint} (h : Reads ps u) : spelling u = letters ps := by
  induction h with
  | nil => rfl
  | @cons p ps u v hp _ ih =>
    obtain ⟨hplain₁, hplain⟩ := List.forall_mem_cons.mp hplain
    rw [spelling_append, hp.spelling_eq hplain₁, ih hplain, letters, letters, letters,
      ← List.filterMap_append]
    rfl

/-- And there is no mark in it either. -/
theorem Reads.star_notMem {ps : List Piece} (hplain : ∀ p ∈ ps, p.plain = true)
    {u : List CodePoint} (h : Reads ps u) : star ∉ u := by
  induction h with
  | nil => exact List.not_mem_nil
  | @cons p ps u v hp _ ih =>
    obtain ⟨hplain₁, hplain⟩ := List.forall_mem_cons.mp hplain
    rw [List.mem_append]
    exact not_or_intro (hp.star_notMem hplain₁) (ih hplain)

/-- What a row of pieces reads is split where the row is. -/
theorem Reads.split {ps qs : List Piece} {u : List CodePoint} (h : Reads (ps ++ qs) u) :
    ∃ v w, u = v ++ w ∧ Reads ps v ∧ Reads qs w := by
  induction ps generalizing u with
  | nil => exact ⟨[], u, rfl, .nil, h⟩
  | cons p ps ih =>
    cases h with
    | @cons _ _ u₁ u₂ hp h =>
      obtain ⟨v, w, rfl, hv, hw⟩ := ih h
      exact ⟨u₁ ++ v, w, (List.append_assoc _ _ _).symm, .cons hp hv, hw⟩

end Piece

/-! ## The patterns -/

namespace Pattern

/-- What the five patterns have in common. -/
structure Sound (p : Pattern) : Prop where
  plain : p.announcement.all Piece.plain = true
  firm : Piece.firm p.announcement = true
  opens : ∃ c rest, p.announcement = .letter c :: rest
  closes : ∃ front sign, p.announcement = front ++ sign
    ∧ (sign = assignment ∨ sign = [.someBlanks])
  least_pos : 0 < p.least
  secret : p.isSecret = isTokenPoint ∨ p.isSecret = isPasswordPoint ∧ p.least = 1

def word (p : Pattern) : List Char := Piece.letters p.announcement

theorem Sound.plain_of_mem {p : Pattern} (hp : p.Sound) : ∀ q ∈ p.announcement, q.plain = true :=
  List.all_eq_true.mp hp.plain

theorem Sound.isSecret_of_token {p : Pattern} (hp : p.Sound) {d : CodePoint}
    (hd : isTokenPoint d = true) : p.isSecret d = true := by
  rcases hp.secret with hsecret | ⟨hsecret, _⟩
  · rw [hsecret, hd]
  · rw [hsecret, isPasswordPoint_of_isTokenPoint hd]

theorem Sound.isSecret_of_blank {p : Pattern} (hp : p.Sound) {d : CodePoint}
    (hd : blank d = true) : p.isSecret d = false := by
  rcases hp.secret with hsecret | ⟨hsecret, _⟩
  · rw [hsecret, (of_blank hd).2.1]
  · rw [hsecret, isPasswordPoint_of_blank hd]

section Announced

variable {p : Pattern} {ann : List CodePoint}

/-- An announcement begins with a letter. -/
theorem Sound.exists_letter (hp : p.Sound) (h : Piece.Reads p.announcement ann) :
    ∃ d c rest, ann = d :: rest ∧ letter? d = some c := by
  obtain ⟨c, ps, hps⟩ := hp.opens
  have hc : (Piece.letter c).plain = true := hp.plain_of_mem _ (hps ▸ List.mem_cons_self)
  rw [hps] at h
  cases h with
  | @cons _ _ _ v hd _ =>
    obtain ⟨d, rfl, hd⟩ := hd
    exact ⟨d, c, v, rfl, letter?_of_satisfies hc hd⟩

/-- An announcement ends with a blank or a sign, which belongs to no token, so none ends
within one. With this, two announcements are told apart by the tokens between them. -/
theorem Sound.exists_last (hp : p.Sound) (h : Piece.Reads p.announcement ann) :
    ∃ front d, ann = front ++ [d] ∧ isTokenPoint d = false := by
  obtain ⟨front, sign, hps, hsign⟩ := hp.closes
  rw [hps] at h
  obtain ⟨v, w, rfl, _, hw⟩ := h.split
  -- of an assignment the sign and what follows it, of a header the blanks
  have hclosing : ∃ v' w', w = v' ++ w' ∧ w' ≠ [] ∧ ∀ d ∈ w', isTokenPoint d = false := by
    rcases hsign with rfl | rfl
    · obtain ⟨v', w', rfl, _, hsign⟩ : ∃ v' w', w = v' ++ w' ∧ Piece.Reads [.blanks] v'
          ∧ Piece.Reads [.oneOf ['=', ':'], .blanks] w' := Piece.Reads.split hw
      clear hw
      refine ⟨v', w', rfl, ?_⟩
      cases hsign with
      | @cons _ _ u _ hu hw =>
        obtain ⟨d, rfl, hd⟩ := hu
        cases hw with
        | @cons _ _ bs _ hbs hw =>
          cases hw
          refine ⟨List.cons_ne_nil _ _, ?_⟩
          intro e he
          rw [List.append_nil, List.singleton_append, List.mem_cons] at he
          rcases he with rfl | he
          · exact isTokenPoint_of_sign hd
          · exact (of_blank (hbs e he)).2.1
    · cases hw with
      | @cons _ _ bs _ hbs hw =>
        cases hw
        refine ⟨[], bs ++ [], rfl, ?_⟩
        rw [List.append_nil]
        exact ⟨hbs.1, fun e he => (of_blank (hbs.2 e he)).2.1⟩
  obtain ⟨v', w, rfl, hne, htoken⟩ := hclosing
  refine ⟨v ++ v' ++ w.dropLast, w.getLast hne, ?_, htoken _ (List.getLast_mem hne)⟩
  rw [List.append_assoc, List.dropLast_append_getLast, List.append_assoc]

/-- What an announcement ends with is no token point. -/
theorem Sound.eq_nil_of_tokens (hp : p.Sound) {u v : List CodePoint}
    (h : Piece.Reads p.announcement (u ++ v)) (hv : ∀ d ∈ v, isTokenPoint d = true) : v = [] := by
  rcases List.eq_nil_or_concat v with rfl | ⟨v, e, rfl⟩
  · rfl
  · obtain ⟨front, d, hsplit, hd⟩ := hp.exists_last h
    rw [List.concat_eq_append, ← List.append_assoc] at hsplit
    obtain rfl : e = d := (List.cons.inj (List.append_inj' hsplit rfl).2).1
    have htoken := hv e (by simp)
    rw [hd] at htoken
    nomatch htoken

/--  An announcement ends with a sign or a blank and so is no run of token points. -/
theorem Sound.not_tokens (hp : p.Sound) (h : Piece.Reads p.announcement ann) :
    ¬∀ d ∈ ann, isTokenPoint d = true := by
  intro htokens
  obtain ⟨d, c, ann', rfl, _⟩ := hp.exists_letter h
  exact List.cons_ne_nil d ann' (hp.eq_nil_of_tokens (u := []) h htokens)

end Announced

/-- A pattern's match at the start of a text: announcement, secret and the rest, the
secret going as far as it can. -/
structure Finds (p : Pattern) (before : Option CodePoint) (ann secret rest : List CodePoint) :
    Prop where
  follows : p.mayFollow before = true
  announced : Piece.Reads p.announcement ann
  isSecret : ∀ d ∈ secret, p.isSecret d = true
  least : p.least ≤ secret.length
  ends : ∀ d ∈ rest.head?, p.isSecret d = false

theorem Finds.secret_ne_nil {p : Pattern} (hp : p.Sound) {before : Option CodePoint}
    {ann secret rest : List CodePoint} (h : p.Finds before ann secret rest) : secret ≠ [] :=
  List.ne_nil_of_length_pos (Nat.lt_of_lt_of_le hp.least_pos h.least)

/-- No blank follows an announcement: the secret does. -/
theorem Finds.head?_not_blank {p : Pattern} (hp : p.Sound) {before : Option CodePoint}
    {ann secret rest : List CodePoint} (h : p.Finds before ann secret rest) :
    ∀ d ∈ (secret ++ rest).head?, blank d = false := by
  obtain ⟨d, secret', rfl⟩ := List.exists_cons_of_ne_nil (h.secret_ne_nil hp)
  rintro _ ⟨⟩
  apply Bool.eq_false_iff.mpr
  intro hblank
  have hsecret := h.isSecret d List.mem_cons_self
  rw [hp.isSecret_of_blank hblank] at hsecret
  nomatch hsecret

/-- The pattern matches at a place exactly if its announcement is read there with a secret
behind it, and then both are the only ones. This is where the program's greedy reading and
the description of it meet. -/
theorem match?_eq_some_iff {p : Pattern} (hp : p.Sound) {before : Option CodePoint}
    {cs : List CodePoint} {m : Match} :
    p.match? before cs = some m ↔ ∃ ann secret rest, cs = ann ++ (secret ++ rest)
      ∧ m = ⟨ann.length, secret.length⟩ ∧ p.Finds before ann secret rest := by
  constructor
  · -- A match that was found: each test of the program gives one condition of `Finds`.
    intro h
    rw [match?] at h
    by_cases hfollows : p.mayFollow before = true
    · rw [if_pos hfollows] at h
      cases htaken : Piece.takenAll? p.announcement cs with
      | none =>
        rw [htaken] at h
        nomatch h
      | some n =>
        obtain ⟨ann, tail, rfl, rfl, hreads⟩ := Piece.takenAll?_sound htaken
        rw [htaken] at h
        dsimp only at h
        rw [List.drop_left] at h
        by_cases hleast : p.least ≤ (tail.takeWhile p.isSecret).length
        · rw [if_pos hleast] at h
          refine ⟨ann, tail.takeWhile p.isSecret, tail.dropWhile p.isSecret, ?_,
            (Option.some.inj h).symm, hfollows, hreads, List.all_eq_true.mp List.all_takeWhile,
            hleast, head?_dropWhile tail⟩
          rw [List.takeWhile_append_dropWhile]
        · rw [if_neg hleast] at h
          nomatch h
    · rw [if_neg hfollows] at h
      nomatch h
  · rintro ⟨ann, secret, rest, rfl, rfl, h⟩
    have htaken := Piece.takenAll?_complete hp.plain_of_mem hp.firm h.announced (h.head?_not_blank hp)
    -- conversely, the announcement is taken as a whole, and the secret as far as it goes
    rw [match?, if_pos h.follows, htaken]
    dsimp only
    rw [List.drop_left, takeWhile_run h.isSecret h.ends, if_pos h.least]

/-- The negative form, for the places where nothing is replaced. -/
theorem match?_eq_none_iff {p : Pattern} (hp : p.Sound) {before : Option CodePoint}
    {cs : List CodePoint} : p.match? before cs = none
      ↔ ∀ ann secret rest, cs = ann ++ (secret ++ rest) → ¬p.Finds before ann secret rest := by
  rw [Option.eq_none_iff_forall_not_mem]
  constructor
  · intro h ann secret rest hcs hfinds
    exact h _ ((match?_eq_some_iff hp).mpr ⟨ann, secret, rest, hcs, rfl, hfinds⟩)
  · intro h m hm
    obtain ⟨ann, secret, rest, hcs, _, hfinds⟩ := (match?_eq_some_iff hp).mp hm
    exact h ann secret rest hcs hfinds

end Pattern

theorem sound_header : header.Sound :=
  ⟨by decide, by decide, ⟨_, _, rfl⟩, ⟨_, _, rfl, .inr rfl⟩, by decide, .inl rfl⟩

theorem sound_bearer : bearer.Sound :=
  ⟨by decide, by decide, ⟨_, _, rfl⟩, ⟨_, _, rfl, .inr rfl⟩, by decide, .inl rfl⟩

theorem sound_apiKey : apiKey.Sound :=
  ⟨by decide, by decide, ⟨_, _, rfl⟩, ⟨_, _, rfl, .inl rfl⟩, by decide, .inl rfl⟩

theorem sound_password : password.Sound :=
  ⟨by decide, by decide, ⟨_, _, rfl⟩, ⟨_, _, rfl, .inl rfl⟩, by decide, .inr ⟨rfl, rfl⟩⟩

theorem sound_token : token.Sound :=
  ⟨by decide, by decide, ⟨_, _, rfl⟩, ⟨_, _, rfl, .inl rfl⟩, by decide, .inl rfl⟩

/-- All that follows is said of a sound pattern and holds of the five by this. -/
theorem sound_of_mem_patterns {p : Pattern} (h : p ∈ patterns) : p.Sound := by
  simp only [patterns, List.mem_cons, List.not_mem_nil, or_false] at h
  rcases h with rfl | rfl | rfl | rfl | rfl
  · exact sound_header
  · exact sound_bearer
  · exact sound_apiKey
  · exact sound_password
  · exact sound_token

end Keeper.Redaction
