import Keeper.Proofs.Passage
import Keeper.Proofs.Rendering

/-!
# Keeper — what redaction leaves of a template

A template is redacted before its arguments are put in, and it may lose a place: what follows `password=` is
taken up to the next blank or comma, and a placeholder belongs to it. No other harm is done.

* **`split_spelled`** — where a template can be cut in two.
* **`Pattern.Leaves`**, **`Passes.leaves`** — a pass over a template leaves a template, with all places or,
  where the pattern takes a percent sign, perhaps with fewer.
* **`Hides`** — a pass whose secrets are tokens, seen coarsely: runs of token points are replaced. A percent
  sign that a later pattern takes in the outcome it takes in the text (**`Takes.of_hides`**).
* **`redact_spelled`** — a redacted template has all its places, or a password in it takes a percent sign.
-/

namespace Keeper.Redaction

open Log (Part percent spelled spelled_nil spelled_cons spelled_append argumentsOf argumentsOf_append
  argumentsOf_map_literal)

/-! ## Cutting a template -/

/-- A part is spelled by itself, or with a percent sign first. -/
theorem spelled_cases (p : Part) :
    (∃ c, c ≠ percent ∧ p = .literal c ∧ p.spelled = [c])
      ∨ ∃ d, (d = percent ∨ d = .char 's') ∧ p.spelled = [percent, d] := by
  cases p with
  | literal c =>
    by_cases hc : c = percent
    · exact .inr ⟨percent, .inl rfl, if_pos hc⟩
    · exact .inl ⟨c, hc, rfl, if_neg hc⟩
  | argument a => exact .inr ⟨.char 's', .inr rfl, rfl⟩

/-- Literal text without percent signs spells itself. -/
theorem spelled_map_literal {u : List CodePoint} (hu : percent ∉ u) :
    spelled (u.map .literal) = u := by
  induction u with
  | nil => rfl
  | cons d u ih =>
    rw [List.mem_cons, not_or] at hu
    rw [List.map_cons, spelled_cons, ih hu.2, Part.spelled, if_neg (Ne.symm hu.1)]
    rfl

/-- What has no percent sign at the start of a template is literal text: a place is
spelled with a percent sign, and so is a doubled one. -/
theorem split_literal {u v : List CodePoint} {ps : List Part} (hu : percent ∉ u)
    (h : spelled ps = u ++ v) : ∃ qs, ps = u.map .literal ++ qs ∧ v = spelled qs := by
  -- Each character of `u` is not a percent sign, so the part that spells it is that very literal.
  induction u generalizing ps with
  | nil => exact ⟨ps, rfl, h.symm⟩
  | cons d u ih =>
    rw [List.mem_cons, not_or] at hu
    cases ps with
    | nil => nomatch h
    | cons p ps =>
      rw [spelled_cons] at h
      rcases spelled_cases p with ⟨c, _, rfl, hp⟩ | ⟨e, _, hp⟩
      · rw [hp] at h
        obtain ⟨rfl, htail⟩ := List.cons.inj h
        obtain ⟨qs, rfl, rfl⟩ := ih hu.2 htail
        exact ⟨qs, rfl, rfl⟩
      · rw [hp] at h
        exact absurd (List.cons.inj h).1 hu.1

/-- A template is cut between two parts where what follows does not go on with one. A part
is spelled with one point or two, and only the second of two could be mistaken for a
beginning. -/
theorem split_spelled {u v : List CodePoint} {ps : List Part}
    (hv : ∀ d ∈ v.head?, d ≠ percent ∧ d ≠ .char 's') (h : spelled ps = u ++ v) :
    ∃ qs rs, ps = qs ++ rs ∧ u = spelled qs ∧ v = spelled rs := by
  induction ps generalizing u with
  | nil =>
    obtain ⟨rfl, rfl⟩ := List.append_eq_nil_iff.mp h.symm
    exact ⟨[], [], rfl, rfl, rfl⟩
  | cons p ps ih =>
    cases u with
    | nil => exact ⟨[], p :: ps, rfl, rfl, h.symm⟩
    | cons d u =>
      rw [spelled_cons] at h
      rcases spelled_cases p with ⟨c, _, rfl, hp⟩ | ⟨e, he, hp⟩
      · rw [hp] at h
        obtain ⟨rfl, htail⟩ := List.cons.inj h
        obtain ⟨qs, rs, rfl, rfl, rfl⟩ := ih htail
        exact ⟨.literal c :: qs, rs, rfl, by rw [spelled_cons, hp]; rfl, rfl⟩
      · rw [hp] at h
        obtain ⟨rfl, htail⟩ := List.cons.inj h
        cases u with
        | nil =>
          -- the second code point of the part would come first in what follows
          obtain rfl : e :: spelled ps = v := htail
          obtain ⟨hpercent, hs⟩ := hv e rfl
          exact absurd he (not_or_intro hpercent hs)
        | cons e' u =>
          obtain ⟨rfl, hrest⟩ : e = e' ∧ spelled ps = u ++ v := List.cons.inj htail
          obtain ⟨qs, rs, rfl, rfl, rfl⟩ := ih hrest
          exact ⟨p :: qs, rs, rfl, by rw [spelled_cons, hp]; rfl, rfl⟩

/-! ## Announcements and places -/

/-- Whether a code point can be in what a piece takes. -/
def Piece.mayTake : Piece → CodePoint → Bool
  | .letter c, d => d.satisfies (fold · = c)
  | .oneOf cs, d | .optional cs, d => d.satisfies cs.contains
  | .blanks, d | .someBlanks, d => blank d

/-- What a piece accepts is made of the points it may take. So whether a pattern can touch
a placeholder is decided by its points alone, without following a match. -/
theorem Piece.Accepts.mayTake {p : Piece} {u : List CodePoint} (h : p.Accepts u) :
    ∀ d ∈ u, p.mayTake d = true := by
  cases p with
  | letter c =>
    obtain ⟨d, rfl, hd⟩ := h
    exact List.forall_mem_singleton.mpr hd
  | oneOf cs =>
    obtain ⟨d, rfl, hd⟩ := h
    exact List.forall_mem_singleton.mpr hd
  | optional cs =>
    rcases h with rfl | ⟨d, rfl, hd⟩
    · exact fun d hd => nomatch hd
    · exact List.forall_mem_singleton.mpr hd
  | blanks => exact h
  | someBlanks => exact h.2

/-- So is what a row of pieces reads. -/
theorem Piece.Reads.mayTake {ps : List Piece} {u : List CodePoint} (h : Piece.Reads ps u) :
    ∀ d ∈ u, ∃ p ∈ ps, p.mayTake d = true := by
  induction h with
  | nil => exact fun d hd => nomatch hd
  | @cons p ps u v hp _ ih =>
    intro d hd
    rcases List.mem_append.mp hd with hd | hd
    · exact ⟨p, List.mem_cons_self, hp.mayTake d hd⟩
    · obtain ⟨q, hq, hd⟩ := ih d hd
      exact ⟨q, List.mem_cons_of_mem p hq, hd⟩

namespace Pattern

variable {p q : Pattern} {before : Option CodePoint} {cs out : List CodePoint}

/-- An announcement of the pattern has no percent sign in it and does not begin with an
`s`, so that no place of a template belongs to it. -/
def AvoidsPlaces (p : Pattern) : Prop :=
  (∀ piece ∈ p.announcement, piece.mayTake percent = false) ∧ p.word.head? ≠ some 's'

instance : DecidablePred AvoidsPlaces := fun p =>
  inferInstanceAs (Decidable ((∀ piece ∈ p.announcement, piece.mayTake percent = false)
    ∧ p.word.head? ≠ some 's'))

/-- No announcement reaches into a place of a template, as places begin with a percent
sign. -/
theorem AvoidsPlaces.percent_notMem (h : p.AvoidsPlaces) {ann : List CodePoint}
    (hann : Piece.Reads p.announcement ann) : percent ∉ ann := by
  intro hmem
  obtain ⟨piece, hpiece, htake⟩ := hann.mayTake percent hmem
  rw [h.1 piece hpiece] at htake
  nomatch htake

/-- Nothing is announced by what begins within a place. -/
theorem AvoidsPlaces.not_reads (h : p.AvoidsPlaces) (hp : p.Sound) {d : CodePoint}
    {ann : List CodePoint} (hd : d = percent ∨ d = .char 's') :
    ¬Piece.Reads p.announcement (d :: ann) := by
  intro hann
  rcases hd with rfl | rfl
  · exact h.percent_notMem hann List.mem_cons_self
  · have hletter : letter? (.char 's') = some 's' := by decide
    have hword := hp.spelling_eq hann
    rw [spelling, List.filterMap_cons_some hletter] at hword
    exact h.2 (by rw [← hword]; rfl)

/-- The pass over a text leaves a place that comes first as it is: no announcement begins
with either of its points, so a place can only be lost from within a secret. -/
theorem Passes.place_stays (hp : p.Sound) (havoids : p.AvoidsPlaces) {d : CodePoint}
    (hd : d = percent ∨ d = .char 's') (h : p.Passes before ([percent, d] ++ cs) out) :
    ∃ out', out = [percent, d] ++ out' ∧ p.Passes (some d) cs out' := by
  -- A match that began within the placeholder would have to read a percent sign or its letter in an
  -- announcement, which no pattern does.
  refine h.stays fun y ann v hy hne hsplit hann => ?_
  obtain ⟨e, c, ann, rfl, _⟩ := hp.exists_letter hann
  obtain ⟨e', y, rfl⟩ := List.exists_cons_of_ne_nil hne
  obtain rfl : e' = e := (List.cons.inj hsplit).1
  have he : e' ∈ [percent, d] := hy.subset List.mem_cons_self
  rw [List.mem_cons, List.mem_singleton] at he
  refine havoids.not_reads hp ?_ hann
  rcases he with rfl | rfl
  · exact .inl rfl
  · exact hd

/-! ## A pass over a template -/

/-- Somewhere in a text the pattern takes a percent sign for a part of a secret. -/
def Takes (p : Pattern) (cs : List CodePoint) : Prop :=
  ∃ x ann secret rest, cs = x ++ (ann ++ (secret ++ rest)) ∧ Piece.Reads p.announcement ann
    ∧ (∀ d ∈ secret, p.isSecret d = true) ∧ percent ∈ secret

/-- A pattern that takes a percent sign has it among the points of its secrets, which is
true of the password alone. -/
theorem Takes.isSecret_percent (h : p.Takes cs) : p.isSecret percent = true := by
  obtain ⟨_, _, _, _, _, _, hsecret, hmem⟩ := h
  exact hsecret percent hmem

theorem Takes.append_left (h : p.Takes cs) (u : List CodePoint) : p.Takes (u ++ cs) := by
  obtain ⟨x, ann, secret, rest, rfl, hends⟩ := h
  exact ⟨u ++ x, ann, secret, rest, (List.append_assoc _ _ _).symm, hends⟩

/-- A secret in a template is cut out of it between two parts. It ends where a point is no
longer one of a secret, and a secret that had begun a place goes on to its end. -/
theorem Finds.split_spelled (hp : p.Sound) {ann secret rest : List CodePoint}
    (h : p.Finds before ann secret rest) {ps : List Part} (hps : spelled ps = secret ++ rest) :
    ∃ qs rs, ps = qs ++ rs ∧ secret = spelled qs ∧ rest = spelled rs := by
  by_cases hpercent : percent ∈ secret
  · -- what ends the secret is neither a percent sign nor a letter
    refine Redaction.split_spelled (fun d hd => ?_) hps
    have hnot := h.ends d hd
    constructor
    · rintro rfl
      rw [h.isSecret percent hpercent] at hnot
      nomatch hnot
    · rintro rfl
      rw [hp.isSecret_of_letter (show letter? (.char 's') = some 's' by decide)] at hnot
      nomatch hnot
  · obtain ⟨rs, rfl, rfl⟩ := split_literal hpercent hps
    exact ⟨_, rs, rfl, (spelled_map_literal hpercent).symm, rfl⟩

/-- A template with places has percent signs in it. -/
theorem percent_mem_spelled {ps : List Part} (h : argumentsOf ps ≠ []) : percent ∈ spelled ps := by
  induction ps with
  | nil => exact absurd rfl h
  | cons p ps ih =>
    rw [spelled_cons, List.mem_append]
    cases p with
    | literal c => exact .inr (ih h)
    | argument a => exact .inl List.mem_cons_self

theorem percent_notMem_replacement : percent ∉ replacement.points := by
  decide

/-- What a pass leaves of a template is a template. It has all places, or the pattern
takes a percent sign. -/
structure Leaves (p : Pattern) (ps : List Part) (out : List CodePoint) (qs : List Part) : Prop where
  spelled_eq : out = spelled qs
  sublist : List.Sublist (argumentsOf qs) (argumentsOf ps)
  all_or_takes : argumentsOf qs = argumentsOf ps ∨ p.Takes (spelled ps)

/-- What becomes of the first parts of a template is put before what becomes of the
others. The step of the induction over a template: the first parts keep their places, or
lose them to a secret that takes percent signs. -/
theorem Leaves.after {ps qs front kept : List Part} (h : p.Leaves ps out qs)
    (hfront : argumentsOf kept = argumentsOf front
      ∨ argumentsOf kept = [] ∧ p.Takes (spelled (front ++ ps))) :
    p.Leaves (front ++ ps) (spelled kept ++ out) (kept ++ qs) where
  spelled_eq := by rw [h.spelled_eq, spelled_append]
  sublist := by
    rw [argumentsOf_append, argumentsOf_append]
    -- Either the kept front holds no placeholder, or it lost them all to the mask.
    rcases hfront with hfront | ⟨hfront, _⟩
    · rw [hfront]
      exact h.sublist.append_left _
    · rw [hfront]
      exact h.sublist.trans (List.sublist_append_right _ _)
  all_or_takes := by
    rw [argumentsOf_append, argumentsOf_append]
    rcases hfront with hfront | ⟨_, htakes⟩
    · rw [hfront]
      refine h.all_or_takes.imp (congrArg _) fun htakes => ?_
      rw [spelled_append]
      exact htakes.append_left _
    · exact .inr htakes

/-- What becomes of a match, before what becomes of the rest of the template. -/
theorem Finds.leaves (havoids : p.AvoidsPlaces) {ann : List CodePoint} {ss rs qs : List Part}
    (hfinds : p.Finds before ann (spelled ss) (spelled rs)) (h : p.Leaves rs out qs) :
    p.Leaves (ann.map .literal ++ (ss ++ rs)) (ann ++ (replacement.points ++ out))
      ((ann ++ replacement.points).map .literal ++ qs) := by
  have hann := havoids.percent_notMem hfinds.announced
  have hkept : percent ∉ ann ++ replacement.points := by
    rw [List.mem_append]
    exact not_or_intro hann percent_notMem_replacement
  -- a place within the secret is one that the pattern takes
  have hfront : argumentsOf ((ann ++ replacement.points).map .literal)
        = argumentsOf (ann.map .literal ++ ss)
      ∨ argumentsOf ((ann ++ replacement.points).map .literal) = []
        ∧ p.Takes (spelled (ann.map .literal ++ ss ++ rs)) := by
    rw [argumentsOf_map_literal, argumentsOf_append, argumentsOf_map_literal, List.nil_append]
    by_cases hss : argumentsOf ss = []
    · exact .inl hss.symm
    · refine .inr ⟨rfl, [], ann, spelled ss, spelled rs, ?_, hfinds.announced, hfinds.isSecret,
        percent_mem_spelled hss⟩
      rw [List.append_assoc, spelled_append, spelled_append, spelled_map_literal hann]
      rfl
  have hleaves := h.after hfront
  rw [spelled_map_literal hkept, List.append_assoc, List.append_assoc] at hleaves
  exact hleaves

/-- A pass over a template leaves a template, in which places can only be missing. The
induction is on the number of parts, since a match covers several of them at once. -/
theorem Passes.leaves (hp : p.Sound) (havoids : p.AvoidsPlaces) {ps : List Part}
    (h : p.Passes before (spelled ps) out) : ∃ qs, p.Leaves ps out qs := by
  induction hn : ps.length using Nat.strongRecOn generalizing before ps out with
  | ind n ih =>
    subst hn
    cases ps with
    | nil =>
      obtain rfl : out = [] := List.head?_eq_none_iff.mp (h.head? hp)
      exact ⟨[], rfl, List.Sublist.refl _, .inl rfl⟩
    | cons part ps =>
      have hkept {b : Option CodePoint} {out' : List CodePoint} (h : p.Passes b (spelled ps) out') :
          ∃ qs, p.Leaves (part :: ps) (part.spelled ++ out') qs := by
        obtain ⟨qs, hqs⟩ := ih ps.length (Nat.lt_succ_self _) h rfl
        have hleaves : p.Leaves ([part] ++ ps) (spelled [part] ++ out') ([part] ++ qs) :=
          hqs.after (.inl rfl)
        rw [spelled_cons, spelled_nil, List.append_nil] at hleaves
        exact ⟨_, hleaves⟩
      -- a literal is where a match may begin; a place is passed over as it stands
      rcases spelled_cases part with ⟨c, _, rfl, hpart⟩ | ⟨d, hd, hpart⟩
      · generalize hcs : spelled (.literal c :: ps) = cs at h
        cases h with
        | nil =>
          rw [spelled_cons, hpart] at hcs
          nomatch hcs
        | keeps hnone hrest =>
          rw [spelled_cons, hpart] at hcs
          rw [hpart] at hkept
          obtain ⟨rfl, rfl⟩ := List.cons.inj hcs
          exact hkept hrest
        -- the announcement lies in the literals, and the secret may reach over places behind them
        | @replaces _ ann secret rest out hfinds hrest =>
          obtain ⟨qs, hsplit, htail⟩ := split_literal (havoids.percent_notMem hfinds.announced) hcs
          obtain ⟨ss, rs, rfl, rfl, rfl⟩ := hfinds.split_spelled hp htail.symm
          have hrs : rs.length < (Part.literal c :: ps).length := by
            obtain ⟨e, _, ann', rfl, _⟩ := hp.exists_letter hfinds.announced
            rw [hsplit, List.length_append, List.length_append, List.length_map, List.length_cons]
            omega
          obtain ⟨qs, hqs⟩ := ih rs.length hrs hrest rfl
          rw [hsplit]
          exact ⟨_, hfinds.leaves havoids hqs⟩
      · rw [spelled_cons, hpart] at h
        obtain ⟨out', rfl, hrest⟩ := h.place_stays hp havoids hd
        rw [← hpart]
        exact hkept hrest

/-- A pattern that takes no percent sign leaves all places of a template. So only the pass
for passwords can lose one. -/
theorem redactAll_spelled {qs : List Pattern} (hsound : ∀ q ∈ qs, q.Sound)
    (havoids : ∀ q ∈ qs, q.AvoidsPlaces) (hpercent : ∀ q ∈ qs, q.isSecret percent = false) {t : Text}
    {ps : List Part} (h : t.points = spelled ps) :
    ∃ rs, (redactAll qs t).points = spelled rs ∧ argumentsOf rs = argumentsOf ps := by
  induction qs generalizing t ps with
  | nil => exact ⟨ps, h, rfl⟩
  | cons q qs ih =>
    obtain ⟨hq, hsound⟩ := List.forall_mem_cons.mp hsound
    obtain ⟨havoids₁, havoids⟩ := List.forall_mem_cons.mp havoids
    obtain ⟨hpercent₁, hpercent⟩ := List.forall_mem_cons.mp hpercent
    have hpass := passes_redact hq t
    rw [h] at hpass
    obtain ⟨rs, hrs⟩ := hpass.leaves hq havoids₁
    obtain ⟨rs', hpoints, hargs⟩ := ih hsound havoids hpercent hrs.spelled_eq
    -- A secret that took a placeholder would contain a percent sign, which these patterns' secrets do
    -- not.
    refine ⟨rs', hpoints, hargs.trans (hrs.all_or_takes.resolve_right fun htakes => ?_)⟩
    rw [htakes.isSecret_percent] at hpercent₁
    nomatch hpercent₁

/-! ## What is taken in an outcome -/

/-- A text and what is left of it when runs of token points are replaced. -/
inductive Hides : List CodePoint → List CodePoint → Prop where
  | nil : Hides [] []
  | keeps (d : CodePoint) {cs out : List CodePoint} (h : Hides cs out) : Hides (d :: cs) (d :: out)
  | replaces {secret cs out : List CodePoint} (hsecret : ∀ d ∈ secret, isTokenPoint d = true)
      (h : Hides cs out) : Hides (secret ++ cs) (replacement.points ++ out)

theorem Hides.append (u : List CodePoint) (h : Hides cs out) : Hides (u ++ cs) (u ++ out) := by
  induction u with
  | nil => exact h
  | cons d u ih => exact .keeps d ih

/-- A pass for a secret of token points hides such runs and nothing else. -/
theorem Passes.hides (hq : q.isSecret = isTokenPoint) (h : q.Passes before cs out) :
    Hides cs out := by
  induction h with
  | nil => exact .nil
  | keeps _ _ ih => exact .keeps _ ih
  | replaces hfinds _ ih => exact (Hides.replaces (hq ▸ hfinds.isSecret) ih).append _

/-- An outcome is cut at the same place as the text, or within a replacement. Hiding
forgets which pattern was at work, so this holds of all passes together where `Passes.cut`
speaks of one. -/
theorem Hides.cut {x r' : List CodePoint} (h : Hides cs (x ++ r')) :
    (∃ x₀ r, cs = x₀ ++ r ∧ Hides r r')
      ∨ ∃ y out, y <:+ replacement.points ∧ y ≠ [] ∧ r' = y ++ out := by
  generalize hout : x ++ r' = out at h
  induction h generalizing x with
  | nil =>
    obtain ⟨rfl, rfl⟩ := List.append_eq_nil_iff.mp hout
    exact .inl ⟨[], [], rfl, .nil⟩
  | @keeps d cs out h ih =>
    cases x with
    | nil =>
      obtain rfl : r' = d :: out := hout
      exact .inl ⟨[], d :: cs, rfl, .keeps d h⟩
    | cons e x =>
      obtain ⟨rfl, htail⟩ := List.cons.inj hout
      refine (ih htail).imp_left ?_
      rintro ⟨x₀, r, rfl, hr⟩
      exact ⟨e :: x₀, r, rfl, hr⟩
  | @replaces secret cs out hsecret h ih =>
    -- The cut falls either inside the mask's own text or after it.
    rcases List.append_eq_append_iff.mp hout with ⟨y, hy, rfl⟩ | ⟨w, rfl, rfl⟩
    · cases y with
      | nil => exact .inl ⟨secret, cs, rfl, h⟩
      | cons d y => exact .inr ⟨d :: y, out, ⟨x, hy.symm⟩, List.cons_ne_nil d y, rfl⟩
    · refine (ih rfl).imp_left ?_
      rintro ⟨x₀, r, rfl, hr⟩
      exact ⟨secret ++ x₀, r, (List.append_assoc _ _ _).symm, hr⟩

/-- What has no mark in it was left as it is. A placeholder has none, so one that the
redacted template begins with stood at the beginning of the template. -/
theorem Hides.starless {w r' : List CodePoint} (hw : star ∉ w) (h : Hides cs (w ++ r')) :
    ∃ r, cs = w ++ r ∧ Hides r r' := by
  induction w generalizing cs with
  | nil => exact ⟨cs, rfl, h⟩
  | cons d w ih =>
    rw [List.mem_cons, not_or] at hw
    generalize hout : d :: w ++ r' = out at h
    cases h with
    | nil => nomatch hout
    | keeps e h =>
      obtain ⟨rfl, rfl⟩ := List.cons.inj hout
      obtain ⟨r, rfl, hr⟩ := ih hw.2 h
      exact ⟨r, rfl, hr⟩
    -- A mask begins with a star, which `w` does not hold.
    | replaces _ _ =>
      obtain ⟨v, hv⟩ := replacement_points
      rw [hv] at hout
      exact absurd (List.cons.inj hout).1.symm hw.1

/-- A run up to a percent sign is one in the text, if token points belong to it. What was
hidden before were tokens, so putting them back does not break the run. -/
theorem Hides.run {p : CodePoint → Bool} (hp : ∀ d, isTokenPoint d = true → p d = true)
    {u r' : List CodePoint} (hu : ∀ d ∈ u, p d = true) (h : Hides cs (u ++ percent :: r')) :
    ∃ v r, cs = v ++ percent :: r ∧ ∀ d ∈ v, p d = true := by
  generalize hout : u ++ percent :: r' = out at h
  induction h generalizing u with
  | nil => simp at hout
  | @keeps d cs out h ih =>
    cases u with
    | nil =>
      obtain ⟨rfl, rfl⟩ := List.cons.inj hout
      exact ⟨[], cs, rfl, fun d hd => nomatch hd⟩
    | cons e u =>
      obtain ⟨rfl, htail⟩ := List.cons.inj hout
      obtain ⟨he, hu⟩ := List.forall_mem_cons.mp hu
      obtain ⟨v, r, rfl, hv⟩ := ih hu htail
      exact ⟨e :: v, r, rfl, List.forall_mem_cons.mpr ⟨he, hv⟩⟩
  | @replaces secret cs out hsecret h ih =>
    -- the percent sign is none of the replacement, so that the run goes on behind it
    obtain ⟨z, hz, hout⟩ : ∃ z, (∀ d ∈ z, p d = true) ∧ z ++ percent :: r' = out := by
      rcases List.append_eq_append_iff.mp hout with ⟨z, hz, htail⟩ | ⟨z, rfl, htail⟩
      · cases z with
        | nil => exact ⟨[], List.forall_mem_nil _, htail⟩
        | cons d z =>
          obtain ⟨rfl, _⟩ := List.cons.inj htail
          refine absurd ?_ percent_notMem_replacement
          rw [hz]
          exact List.mem_append_right u List.mem_cons_self
      · exact ⟨z, fun d hd => hu d (List.mem_append_right _ hd), htail.symm⟩
    obtain ⟨v, r, rfl, hv⟩ := ih hz hout
    refine ⟨secret ++ v, r, (List.append_assoc _ _ _).symm, fun d hd => ?_⟩
    exact (List.mem_append.mp hd).elim (fun hd => hp d (hsecret d hd)) (hv d)

/-- A percent sign that is taken in the outcome is taken in the text. The template's own
text therefore decides whether a placeholder can be lost, not what earlier passes have
made of it. -/
theorem Takes.of_hides (hp : p.Sound) (h : Hides cs out) (htakes : p.Takes out) : p.Takes cs := by
  have hpercent := htakes.isSecret_percent
  obtain ⟨x, ann, secret, rest, rfl, hann, hsecret, hmem⟩ := htakes
  obtain ⟨u, w, rfl⟩ := List.append_of_mem hmem
  -- The announcement found after earlier masking is either kept text or reaches into a mask; the second
  -- is excluded since no announcement holds a star.
  rcases h.cut with ⟨x₀, r, rfl, hr⟩ | ⟨y, out, hy, hne, hsplit⟩
  · obtain ⟨r₁, rfl, hr₁⟩ := hr.starless (hp.star_notMem hann)
    rw [List.append_assoc] at hr₁
    -- The secret read after the announcement may span masked tokens; before masking these were secret
    -- characters too.
    obtain ⟨v, r₂, rfl, hv⟩ := hr₁.run (fun d => hp.isSecret_of_token)
      fun d hd => hsecret d (List.mem_append_left _ hd)
    refine ⟨x₀, ann, v ++ [percent], r₂, by rw [List.append_assoc]; rfl, hann, ?_, ?_⟩
    · intro d hd
      exact (List.mem_append.mp hd).elim (hv d) fun hd => List.mem_singleton.mp hd ▸ hpercent
    · exact List.mem_append_right v List.mem_cons_self
  · exact absurd hann (hp.not_reads_in_replacement hy hne hsplit.symm)

/-- What is taken from an outcome was there to be taken before: the passes before it
replace runs of token points, and a replacement ends any secret. -/
theorem Takes.of_redactAll (hp : p.Sound) {qs : List Pattern} (hsound : ∀ q ∈ qs, q.Sound)
    (htokens : ∀ q ∈ qs, q.isSecret = isTokenPoint) {t : Text}
    (htakes : p.Takes (redactAll qs t).points) : p.Takes t.points := by
  induction qs generalizing t with
  | nil => exact htakes
  | cons q qs ih =>
    obtain ⟨hq, hsound⟩ := List.forall_mem_cons.mp hsound
    obtain ⟨htokens₁, htokens⟩ := List.forall_mem_cons.mp htokens
    exact (ih hsound htokens htakes).of_hides hp ((passes_redact hq t).hides htokens₁)

end Pattern

/-! ## A redacted template -/

theorem patterns_avoid : ∀ p ∈ patterns, p.AvoidsPlaces := by
  decide

/-- A redacted template is a template. It has all its places, or a password in it takes a
percent sign. In either case the places that are left are in their old order. -/
theorem redact_spelled {t : Text} {ps : List Part} (h : t.points = spelled ps) :
    ∃ qs, (redact t).points = spelled qs ∧ List.Sublist (argumentsOf qs) (argumentsOf ps)
      ∧ (argumentsOf qs = argumentsOf ps ∨ password.Takes t.points) := by
  -- three patterns are applied before that of passwords, and one after it
  let early := [header, bearer, apiKey]
  have hsplit : redact t = redactAll [token] (password.redact (redactAll early t)) := rfl
  have hmem : ∀ q ∈ early, q ∈ patterns := (List.prefix_append early [password, token]).subset
  have hsound : ∀ q ∈ early, q.Sound := fun q hq => sound_of_mem_patterns (hmem q hq)
  have htokens : ∀ q ∈ early, q.isSecret = isTokenPoint := by
    simp [early, header, bearer, apiKey]
  have hpercent : isTokenPoint percent = false := by decide
  obtain ⟨ps₁, hps₁, hargs₁⟩ := Pattern.redactAll_spelled hsound
    (fun q hq => patterns_avoid q (hmem q hq)) (fun q hq => by rw [htokens q hq, hpercent]) h
  have hpass := Pattern.passes_redact sound_password (redactAll early t)
  rw [hps₁] at hpass
  obtain ⟨ps₂, hps₂, hsub, hall⟩ := hpass.leaves sound_password (by decide)
  obtain ⟨ps₃, hps₃, hargs₃⟩ := Pattern.redactAll_spelled (List.forall_mem_singleton.mpr sound_token)
    (by decide) (List.forall_mem_singleton.mpr hpercent) hps₂
  rw [hargs₁] at hsub hall
  refine ⟨ps₃, hsplit ▸ hps₃, hargs₃ ▸ hsub, hargs₃ ▸ hall.imp_right fun htakes => ?_⟩
  rw [← hps₁] at htakes
  exact htakes.of_redactAll sound_password hsound htokens

end Keeper.Redaction
