import Keeper.Proofs.Announcement

/-!
# Keeper — one pass over a text

What one pattern's pass leaves of a text, as a relation between the text and its outcome, and how much of
the text can be told from the outcome.

* **`Pattern.Passes`** — the pass: a code point is kept where nothing is found, and a secret that is
  found is replaced. **`passes_redactFrom`** says that this is what is run, **`Passes.unique`** that a text
  has one outcome.
* **`Passes.starless`** — what stands in the outcome before the first mark stood in the text, and ends
  there within a part of the text that was kept, or with an announcement whose secret was replaced.
* **`Cut`**, **`Passes.cut`** — where an outcome can be cut in two: between two steps of the pass, within
  an announcement or within a replacement. What stands behind the last mark stood at the end of the text
  (**`Passes.suffix`**).
* **`redactAll`** — a row of passes.
-/

namespace Keeper.Redaction

/-! ## What precedes a code point -/

/-- The last code point of a text, or the one that precedes it. -/
def lastFrom (before : Option CodePoint) (u : List CodePoint) : Option CodePoint :=
  u.foldl (fun _ d => some d) before

@[simp] theorem lastFrom_nil (before : Option CodePoint) : lastFrom before [] = before := rfl

@[simp] theorem lastFrom_cons (before : Option CodePoint) (d : CodePoint) (u : List CodePoint) :
    lastFrom before (d :: u) = lastFrom (some d) u := rfl

theorem lastFrom_append (before : Option CodePoint) (u v : List CodePoint) :
    lastFrom before (u ++ v) = lastFrom (lastFrom before u) v :=
  List.foldl_append

/-- From the beginning of a text, it is the last point of what has been read. -/
theorem lastFrom_none (u : List CodePoint) : lastFrom none u = u.getLast? := by
  rcases List.eq_nil_or_concat u with rfl | ⟨v, d, rfl⟩
  · rfl
  · rw [List.concat_eq_append, lastFrom_append, List.getLast?_concat]
    rfl

/-! ## The mark in a text -/

/-- A text without the mark, before one with it, ends where the mark does or sooner. -/
theorem split_before_star {w u y v : List CodePoint} (hw : star ∉ w) (h : w ++ u = y ++ star :: v) :
    ∃ z, y = w ++ z ∧ u = z ++ star :: v := by
  rcases List.append_eq_append_iff.mp h with hsplit | ⟨z, rfl, hz⟩
  · exact hsplit
  · cases z with
    | nil => exact ⟨[], by simp, hz.symm⟩
    | cons d z =>
      obtain ⟨rfl, _⟩ := List.cons.inj hz
      exact absurd (List.mem_append_right y List.mem_cons_self) hw

/-- A text of three parts that is cut in two is cut within one of them. -/
theorem cut_cases {x r' a s o : List CodePoint} (h : x ++ r' = a ++ (s ++ o)) :
    (∃ z, a = x ++ z ∧ r' = z ++ (s ++ o)) ∨ (∃ z w, x = a ++ z ∧ s = z ++ w ∧ r' = w ++ o)
      ∨ ∃ w, x = a ++ (s ++ w) ∧ o = w ++ r' := by
  rcases List.append_eq_append_iff.mp h with hann | ⟨z, rfl, hz⟩
  · exact .inl hann
  · rcases List.append_eq_append_iff.mp hz with ⟨w, rfl, hw⟩ | ⟨w, hs, hw⟩
    · exact .inr (.inr ⟨w, rfl, hw⟩)
    · exact .inr (.inl ⟨z, w, rfl, hs, hw⟩)

theorem run_unique {p : CodePoint → Bool} {u v r s : List CodePoint} (h : u ++ r = v ++ s)
    (hu : ∀ d ∈ u, p d = true) (hr : ∀ d ∈ r.head?, p d = false) (hv : ∀ d ∈ v, p d = true)
    (hs : ∀ d ∈ s.head?, p d = false) : u = v := by
  rw [← takeWhile_run hu hr, h, takeWhile_run hv hs]

theorem replacement_points : ∃ v, replacement.points = star :: v := ⟨_, rfl⟩

/-- A replacement consists of points that may belong to a token, and of the mark. -/
theorem token_or_star {d : CodePoint} (h : d ∈ replacement.points) :
    isTokenPoint d = true ∨ d = star := by
  have hall : (replacement.points.all fun d => isTokenPoint d || d == star) = true := by decide
  have hd := List.all_eq_true.mp hall d h
  rwa [Bool.or_eq_true, beq_iff_eq] at hd

/-- The replacement ends with its mark as well, so no part at its end is without one. -/
theorem star_mem_of_suffix {y : List CodePoint} (hy : y <:+ replacement.points) (hne : y ≠ []) :
    star ∈ y := by
  have hlast : y.getLast hne = replacement.points.getLast (by decide) := hy.getLast hne
  have hstar : replacement.points.getLast (by decide) = star := by decide
  rw [← hstar, ← hlast]
  exact List.getLast_mem hne

namespace Pattern

variable {p : Pattern} {before : Option CodePoint} {ann secret rest : List CodePoint}

theorem Sound.star_notMem (hp : p.Sound) (h : Piece.Reads p.announcement ann) : star ∉ ann :=
  h.star_notMem hp.plain_of_mem

theorem Sound.spelling_eq (hp : p.Sound) (h : Piece.Reads p.announcement ann) :
    spelling ann = p.word :=
  h.spelling_eq hp.plain_of_mem

theorem Sound.isSecret_of_letter (hp : p.Sound) {d : CodePoint} {c : Char} (h : letter? d = some c) :
    p.isSecret d = true :=
  hp.isSecret_of_token (isTokenPoint_of_letter? h)

theorem Sound.isSecret_of_star (hp : p.Sound) (hstar : p.isSecret star = true) {d : CodePoint}
    (hd : d ∈ replacement.points) : p.isSecret d = true := by
  rcases token_or_star hd with htoken | rfl
  · exact hp.isSecret_of_token htoken
  · exact hstar

/-- Nothing is announced within a replacement. -/
theorem Sound.not_reads_in_replacement (hp : p.Sound) {y r u : List CodePoint}
    (hy : y <:+ replacement.points) (hne : y ≠ []) (h : y ++ r = ann ++ u) :
    ¬Piece.Reads p.announcement ann := by
  intro hreads
  have hstar := hp.star_notMem hreads
  obtain ⟨v, w, rfl⟩ := List.append_of_mem (star_mem_of_suffix hy hne)
  rw [List.append_assoc, List.cons_append] at h
  obtain ⟨z, rfl, _⟩ := split_before_star hstar h.symm
  refine hp.not_tokens hreads fun d hd => ?_
  have hmem : d ∈ replacement.points :=
    hy.subset (List.mem_append_left _ (List.mem_append_left z hd))
  exact (token_or_star hmem).resolve_right fun heq => hstar (heq ▸ hd)

/-! ## The pass -/

/-- One pass of a pattern over a text, from left to right, and its outcome. -/
inductive Passes (p : Pattern) : Option CodePoint → List CodePoint → List CodePoint → Prop where
  | nil {before : Option CodePoint} : Passes p before [] []
  | keeps {before : Option CodePoint} {d : CodePoint} {rest out : List CodePoint}
      (hnone : p.match? before (d :: rest) = none) (hrest : Passes p (some d) rest out) :
      Passes p before (d :: rest) (d :: out)
  | replaces {before : Option CodePoint} {ann secret rest out : List CodePoint}
      (hfinds : p.Finds before ann secret rest)
      (hrest : Passes p (lastFrom before (ann ++ secret)) rest out) :
      Passes p before (ann ++ (secret ++ rest)) (ann ++ (replacement.points ++ out))

/-- Points that are skipped, as part of a match, are passed over, and the pass goes on
behind them. -/
theorem redactFrom_skip (before : Option CodePoint) (u rest : List CodePoint) :
    p.redactFrom before u.length (u ++ rest) = p.redactFrom (lastFrom before u) 0 rest := by
  induction u generalizing before with
  | nil => rfl
  | cons d u ih => exact ih (some d)

/-- The pass is what is run. The function counts down through a match that it has
found; the relation takes the match in one step, which is the form the later proofs
argue with. -/
theorem passes_redactFrom (hp : p.Sound) (before : Option CodePoint) (cs : List CodePoint) :
    p.Passes before cs (p.redactFrom before 0 cs) := by
  induction hn : cs.length using Nat.strongRecOn generalizing before cs with
  | ind n ih =>
    cases cs with
    | nil => exact .nil
    | cons d tail =>
      subst hn
      cases hm : p.match? before (d :: tail) with
      | none =>
        rw [redactFrom, hm]
        exact .keeps hm (ih tail.length (Nat.lt_succ_self _) (some d) tail rfl)
      | some m =>
        obtain ⟨ann, secret, rest, hsplit, rfl, hfinds⟩ := (match?_eq_some_iff hp).mp hm
        -- the first code point is looked at here, the rest of the match is skipped
        obtain ⟨e, c, ann', rfl, _⟩ := hp.exists_letter hfinds.announced
        obtain ⟨rfl, htail⟩ := List.cons.inj hsplit
        obtain rfl : tail = ann' ++ (secret ++ rest) := htail
        have hrest := ih rest.length (by simp; omega) (lastFrom before (d :: ann' ++ secret)) rest rfl
        have hskip : (d :: ann').length + secret.length - 1 = (ann' ++ secret).length := by
          rw [List.length_cons, List.length_append]
          omega
        have hrun := redactFrom_skip (p := p) (some d) (ann' ++ secret) rest
        rw [redactFrom, hm]
        dsimp only
        rw [hskip, ← List.append_assoc ann' secret rest, hrun, List.append_assoc,
          ← List.cons_append, List.take_left, List.append_assoc]
        exact .replaces hfinds hrest

theorem passes_redact (hp : p.Sound) (t : Text) : p.Passes none t.points (p.redact t).points :=
  passes_redactFrom hp none t.points

/-- A pass leaves the first code point as it is. -/
theorem Passes.head? (hp : p.Sound) {cs out : List CodePoint} (h : p.Passes before cs out) :
    out.head? = cs.head? := by
  cases h with
  | nil => rfl
  | keeps _ _ => rfl
  | replaces hfinds _ =>
    obtain ⟨d, c, ann, rfl, _⟩ := hp.exists_letter hfinds.announced
    rfl

/-- What is found first is replaced. The match at a place is unique, so the pass has no
other way to go on there. -/
theorem Passes.of_finds (hp : p.Sound) {out : List CodePoint}
    (h : p.Passes before (ann ++ (secret ++ rest)) out) (hfinds : p.Finds before ann secret rest) :
    ∃ out', out = ann ++ (replacement.points ++ out')
      ∧ p.Passes (lastFrom before (ann ++ secret)) rest out' := by
  have hmatch := (match?_eq_some_iff hp).mpr ⟨ann, secret, rest, rfl, rfl, hfinds⟩
  generalize hcs : ann ++ (secret ++ rest) = cs at h hmatch
  -- The match at a place is unique, so the pass did there what `hfinds` says.
  cases h with
  | nil =>
    obtain ⟨d, c, ann, rfl, _⟩ := hp.exists_letter hfinds.announced
    nomatch hcs
  | keeps hnone _ =>
    rw [hnone] at hmatch
    nomatch hmatch
  | @replaces _ ann₁ secret₁ rest₁ out₁ hfinds₁ hrest =>
    have hmatch₁ := (match?_eq_some_iff hp).mpr ⟨ann₁, secret₁, rest₁, rfl, rfl, hfinds₁⟩
    rw [hmatch₁] at hmatch
    obtain ⟨hann, hsecret⟩ := Match.mk.inj (Option.some.inj hmatch)
    obtain ⟨rfl, htail⟩ := List.append_inj hcs hann.symm
    obtain ⟨rfl, rfl⟩ := List.append_inj htail hsecret.symm
    exact ⟨out₁, rfl, hrest⟩

/-- A text has one outcome. At each place a sound pattern either finds nothing or finds
one match, so the relation leaves no choice; with this, what is proved of some pass is
proved of the one that the program makes. -/
theorem Passes.unique (hp : p.Sound) {cs out out' : List CodePoint} (h : p.Passes before cs out)
    (h' : p.Passes before cs out') : out = out' := by
  -- On the first pass, so that at each place the second one is seen to take the same step.
  induction h generalizing out' with
  | nil =>
    generalize hcs : [] = cs at h'
    cases h' with
    | nil => rfl
    | keeps _ _ => nomatch hcs
    | replaces hfinds _ =>
      obtain ⟨d, c, ann, rfl, _⟩ := hp.exists_letter hfinds.announced
      nomatch hcs
  | @keeps before d rest out hnone _ ih =>
    generalize hcs : d :: rest = cs at h'
    cases h' with
    | nil => nomatch hcs
    | keeps _ hrest' =>
      obtain ⟨rfl, rfl⟩ := List.cons.inj hcs
      rw [ih hrest']
    | replaces hfinds _ =>
      exact absurd hfinds ((match?_eq_none_iff hp).mp hnone _ _ _ hcs)
  | replaces hfinds _ ih =>
    obtain ⟨out₁, rfl, hrest'⟩ := h'.of_finds hp hfinds
    rw [ih hrest']

/-- And it is the only one: the outcome of a pass is determined by the text. -/
theorem redact_eq_of_passes (hp : p.Sound) {t u : Text} (h : p.Passes none t.points u.points) :
    p.redact t = u :=
  Text.ext ((passes_redact hp t).unique hp h)

/-- What comes before everything that is announced stays. No announcement begins within
it, so the pass keeps it point by point and arrives behind it. -/
theorem Passes.stays {u rest out : List CodePoint}
    (hquiet : ∀ y ann v, y <:+ u → y ≠ [] → y ++ rest = ann ++ v → ¬Piece.Reads p.announcement ann)
    (h : p.Passes before (u ++ rest) out) :
    ∃ out', out = u ++ out' ∧ p.Passes (lastFrom before u) rest out' := by
  induction u generalizing before out with
  | nil => exact ⟨out, rfl, h⟩
  | cons d u ih =>
    generalize hcs : d :: u ++ rest = cs at h
    cases h with
    | nil => nomatch hcs
    | keeps _ hrest =>
      obtain ⟨rfl, rfl⟩ := List.cons.inj hcs
      -- What is quiet from here on is quiet behind the next character too.
      have hquiet' : ∀ y ann v, y <:+ u → y ≠ [] → y ++ rest = ann ++ v →
          ¬Piece.Reads p.announcement ann :=
        fun y ann v hy => hquiet y ann v (hy.trans (List.suffix_cons d u))
      obtain ⟨out', rfl, hout⟩ := ih hquiet' hrest
      exact ⟨out', rfl, hout⟩
    | replaces hfinds _ =>
      exact absurd hfinds.announced
        (hquiet (d :: u) _ _ (List.suffix_refl _) (List.cons_ne_nil d u) hcs)

theorem Passes.replacement_stays (hp : p.Sound) {rest out : List CodePoint}
    (h : p.Passes before (replacement.points ++ rest) out) :
    ∃ out', out = replacement.points ++ out'
      ∧ p.Passes (lastFrom before replacement.points) rest out' :=
  h.stays fun _ _ _ hy hne hsplit => hp.not_reads_in_replacement hy hne hsplit

/-! ## From the outcome back to the text -/

/-- What stands in the outcome before the first mark stood in the text. It is followed
there by what follows it in the outcome, as far as the first code point goes, or it ends
with an announcement whose secret was replaced. -/
theorem Passes.starless (hp : p.Sound) {cs w r' : List CodePoint} (h : p.Passes before cs (w ++ r'))
    (hw : star ∉ w) :
    (∃ r, cs = w ++ r ∧ r'.head? = r.head?
        ∧ (r.head? = some star → ∃ b, p.Passes b r r'))
      ∨ ∃ b x ann secret rest out, w = x ++ ann ∧ cs = x ++ (ann ++ (secret ++ rest))
        ∧ p.Finds b ann secret rest ∧ r' = replacement.points ++ out
        ∧ p.Passes (lastFrom b (ann ++ secret)) rest out := by
  generalize hout : w ++ r' = out at h
  induction h generalizing w with
  | nil =>
    obtain ⟨rfl, rfl⟩ := List.append_eq_nil_iff.mp hout
    exact .inl ⟨[], rfl, rfl, fun h => nomatch h⟩
  -- A point that is kept stands in both texts; the mark is looked for behind it.
  | @keeps before d rest out hnone hrest ih =>
    cases w with
    | nil =>
      obtain rfl : r' = d :: out := hout
      exact .inl ⟨d :: rest, rfl, rfl, fun _ => ⟨before, .keeps hnone hrest⟩⟩
    | cons e w =>
      obtain ⟨rfl, htail⟩ := List.cons.inj hout
      rcases ih (fun hmem => hw (List.mem_cons_of_mem e hmem)) htail with
        ⟨r, rfl, hr⟩ | ⟨b, x, ann, secret, rest, out, rfl, rfl, hend⟩
      · exact .inl ⟨r, rfl, hr⟩
      · exact .inr ⟨b, e :: x, ann, secret, rest, out, rfl, rfl, hend⟩
  | @replaces before ann secret rest out hfinds hrest _ =>
    -- the replacement begins with the mark, so the part before it ends within the announcement
    obtain ⟨v, hv⟩ := replacement_points
    have hstar : star ∉ ann := hp.star_notMem hfinds.announced
    rw [hv, List.cons_append] at hout
    obtain ⟨z, rfl, rfl⟩ := split_before_star hw hout
    cases z with
    | nil =>
      rw [List.append_nil] at hfinds hrest ⊢
      refine .inr ⟨before, [], w, secret, rest, out, rfl, rfl, hfinds, ?_, hrest⟩
      rw [hv]
      rfl
    | cons d z =>
      -- The announcement goes on behind `w`, so the rest begins with one of its points and with no mark.
      refine .inl ⟨d :: z ++ (secret ++ rest), List.append_assoc _ _ _, rfl, ?_⟩
      intro hd
      obtain rfl : d = star := Option.some.inj hd
      exact absurd (List.mem_append_right w List.mem_cons_self) hstar

/-- Where the outcome of a pass is cut in two, and how the second part came about. -/
inductive Cut (p : Pattern) (before : Option CodePoint) (cs x r' : List CodePoint) : Prop where
  /-- Between two steps. What precedes the cut is the same in the text, unless a secret ends there. -/
  | between (x₀ r : List CodePoint) (hcs : cs = x₀ ++ r)
      (hpasses : p.Passes (lastFrom before x₀) r r')
      (hlast : lastFrom before x = lastFrom before x₀ ∨ ∀ d ∈ r.head?, p.isSecret d = false)
  /-- Within an announcement, or before it. -/
  | announcing (x₀ a₁ a₂ secret rest out : List CodePoint)
      (hcs : cs = x₀ ++ (a₁ ++ a₂ ++ (secret ++ rest)))
      (hfinds : p.Finds (lastFrom before x₀) (a₁ ++ a₂) secret rest) (hne : a₁ ≠ [])
      (hr' : r' = a₂ ++ (replacement.points ++ out))
  /-- Within a replacement. -/
  | replacing (y out : List CodePoint) (hy : y <:+ replacement.points) (hne : y ≠ [])
      (hr' : r' = y ++ out)

/-- A cut of what follows is a cut of the whole, if what precedes it is the same. Only the
last point before the cut is looked at again, for the beginning of a word. -/
theorem Cut.after {cs x r' u v : List CodePoint} (h : p.Cut (lastFrom before u) cs x r')
    (hlast : lastFrom before (v ++ x) = lastFrom (lastFrom before u) x) :
    p.Cut before (u ++ cs) (v ++ x) r' := by
  -- Where the cut falls does not move: kept text in front lengthens only what precedes it.
  cases h with
  | between x₀ r hcs hpasses hbefore =>
    refine .between (u ++ x₀) r (by rw [hcs, List.append_assoc]) ?_ ?_
    · rw [lastFrom_append]
      exact hpasses
    · rw [hlast, lastFrom_append]
      exact hbefore
  | announcing x₀ a₁ a₂ secret rest out hcs hfinds hne hr' =>
    refine .announcing (u ++ x₀) a₁ a₂ secret rest out (by rw [hcs, List.append_assoc u]) ?_ hne hr'
    rw [lastFrom_append]
    exact hfinds
  | replacing y out hy hne hr' => exact .replacing y out hy hne hr'

/-- Every cut is one of these: between two steps of the pass, within an announcement, or
within a replacement. What stands before and behind a place of the outcome is traced back
to the text by these three cases. -/
theorem Passes.cut {cs x r' : List CodePoint} (h : p.Passes before cs (x ++ r')) :
    p.Cut before cs x r' := by
  generalize hout : x ++ r' = out at h
  induction h generalizing x with
  | @nil before =>
    obtain ⟨rfl, rfl⟩ := List.append_eq_nil_iff.mp hout
    exact .between [] [] rfl .nil (.inl rfl)
  | @keeps before d rest out hnone hrest ih =>
    cases x with
    | nil =>
      obtain rfl : r' = d :: out := hout
      exact .between [] (d :: rest) rfl (.keeps hnone hrest) (.inl rfl)
    | cons e x =>
      obtain ⟨rfl, htail⟩ := List.cons.inj hout
      exact (ih htail).after (u := [e]) (v := [e]) rfl
  | @replaces before ann secret rest out hfinds hrest ih =>
    -- behind the replacement and before what follows the secret
    have hend (x : List CodePoint) : p.Cut before (ann ++ (secret ++ rest)) x out :=
      .between (ann ++ secret) rest (by rw [List.append_assoc]) hrest (.inr hfinds.ends)
    rcases cut_cases hout with ⟨a₂, rfl, rfl⟩ | ⟨z, y, rfl, hy, rfl⟩ | ⟨w, rfl, rfl⟩
    · -- Within the announcement, unless it falls right before it.
      cases x with
      | nil => exact .between [] _ rfl (.replaces hfinds hrest) (.inl rfl)
      | cons d x =>
        exact .announcing [] (d :: x) a₂ secret rest out rfl hfinds (List.cons_ne_nil d x) rfl
    · cases y with
      | nil => exact hend _
      | cons d y => exact .replacing (d :: y) out ⟨z, hy.symm⟩ (List.cons_ne_nil d y) rfl
    · cases w with
      | nil => exact hend _
      | cons d w =>
        -- Behind the replacement the cut is one of the rest, and is carried over.
        have hcut := (ih rfl).after (u := ann ++ secret) (v := ann ++ replacement.points)
          (by rw [lastFrom_append]; rfl)
        rw [List.append_assoc, List.append_assoc] at hcut
        exact hcut

/-- What stands in the outcome behind the last mark stood at the end of the text. So the
end of an outcome can be compared with the end of the text, without knowing what was
hidden before it. -/
theorem Passes.suffix (hp : p.Sound) {cs x r' : List CodePoint} (h : p.Passes before cs (x ++ r'))
    (hr' : star ∉ r') : ∃ x₀, cs = x₀ ++ r' := by
  obtain ⟨v, hv⟩ := replacement_points
  cases h.cut with
  | between x₀ r hcs hrest _ =>
    -- nothing was replaced in what has no mark
    rw [← List.append_nil r'] at hrest
    rcases hrest.starless hp hr' with ⟨r₁, rfl, hhead, _⟩ | ⟨_, _, _, _, _, out, _, _, _, hnil, _⟩
    · have hr₁ : r₁ = [] := List.head?_eq_none_iff.mp hhead.symm
      rw [hr₁, List.append_nil] at hcs
      exact ⟨x₀, hcs⟩
    · rw [hv] at hnil
      nomatch hnil
  | announcing x₀ a₁ a₂ secret rest out _ _ _ hsplit =>
    refine absurd ?_ hr'
    rw [hsplit, hv]
    exact List.mem_append_right a₂ List.mem_cons_self
  | replacing y out hy hne hsplit =>
    refine absurd ?_ hr'
    rw [hsplit]
    exact List.mem_append_left out (star_mem_of_suffix hy hne)

end Pattern

/-- A row of passes, each over what the one before it has left. -/
def redactAll (ps : List Pattern) (t : Text) : Text := ps.foldl (fun u p => p.redact u) t

theorem redact_eq_redactAll (t : Text) : redact t = redactAll patterns t := rfl

end Keeper.Redaction
