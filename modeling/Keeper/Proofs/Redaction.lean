import Keeper.Proofs.Passage

/-!
# Keeper — redaction settles

A second redaction finds nothing to do. The five patterns are applied one after the other, each to what
the ones before it have left, so it has to be shown that no pass undoes what an earlier one has done.

* **`Pattern.Settled`** — every secret that a pattern still finds has been replaced.
* **`Finds.start`**, **`Finds.of_passes`** — what is found in the outcome of a pass was found in the text
  before it, but for two cases that have to do with the announcements of the pass.
* **`Passes.settled`** — a pass settles a text for its own pattern.
* **`Pattern.Bears`**, **`Settled.passes`** — a pass leaves a text settled for an earlier pattern, if it
  has no announcement around one of that pattern, and none at the end of one whose secret the mark may
  begin.
* **`redact_settles`** — redacting again changes nothing, be it with all patterns or with one of them,
  and whatever is still found is a replacement.
-/

namespace Keeper.Redaction

namespace Pattern

variable {p q : Pattern} {before : Option CodePoint} {cs out : List CodePoint}

/-- Every secret that the pattern finds in a text is a replacement already. -/
def Settled (p : Pattern) (before : Option CodePoint) (cs : List CodePoint) : Prop :=
  ∀ x ann secret rest, cs = x ++ (ann ++ (secret ++ rest)) →
    p.Finds (lastFrom before x) ann secret rest → secret = replacement.points

/-- What is settled in a text is so in the rest of it. -/
theorem Settled.of_append {u : List CodePoint} (h : p.Settled before (u ++ cs)) :
    p.Settled (lastFrom before u) cs := by
  intro x ann secret rest hcs hfinds
  refine h (u ++ x) ann secret rest (by rw [hcs, List.append_assoc]) ?_
  rw [lastFrom_append]
  exact hfinds

/-- Where a secret is found in place of a replacement, the mark may belong to it. -/
theorem Finds.isSecret_star (hp : p.Sound) {ann secret rest : List CodePoint}
    (h : p.Finds before ann secret rest) (hsplit : secret ++ rest = replacement.points ++ out) :
    p.isSecret star = true := by
  obtain ⟨v, hv⟩ := replacement_points
  obtain ⟨d, secret', rfl⟩ := List.exists_cons_of_ne_nil (h.secret_ne_nil hp)
  rw [hv] at hsplit
  obtain rfl : d = star := (List.cons.inj hsplit).1
  exact h.isSecret star List.mem_cons_self

/-- A secret in place of a replacement is that replacement, unless it goes on behind
it. -/
theorem Finds.secret_eq_replacement (hp : p.Sound) {ann secret rest : List CodePoint}
    (h : p.Finds before ann secret rest) (hsplit : secret ++ rest = replacement.points ++ out)
    (hout : ∀ d ∈ out.head?, p.isSecret d = false) : secret = replacement.points :=
  run_unique hsplit h.isSecret h.ends
    (fun _ hd => hp.isSecret_of_star (h.isSecret_star hp hsplit) hd) hout

/-- A secret that is found in the outcome is long enough in the text. A secret of tokens
has no star in it, so it is kept text and was there before; the secret of a password needs
no more than one point. -/
theorem Finds.least_le_of_passes (hp : p.Sound) (hq : q.Sound)
    {ann secret rest r : List CodePoint} (hpasses : q.Passes before cs (ann ++ (secret ++ rest)))
    (h : p.Finds before ann secret rest) (hcs : cs = ann ++ r)
    (hhead : (secret ++ rest).head? = r.head?) : p.least ≤ (r.takeWhile p.isSecret).length := by
  have hann := hp.star_notMem h.announced
  rcases hp.secret with hsecret | ⟨_, hleast⟩
  · have htokens : ∀ d ∈ secret, isTokenPoint d = true := hsecret ▸ h.isSecret
    have hstar : star ∉ ann ++ secret := by
      rw [List.mem_append]
      exact not_or_intro hann (star_notMem_of_tokens htokens)
    rw [← List.append_assoc] at hpasses
    rcases hpasses.starless hq hstar with
      ⟨r₁, hr₁, _⟩ | ⟨b, x, annq, _, _, _, hsplit, _, hfinds, _⟩
    · rw [hcs, List.append_assoc] at hr₁
      obtain rfl := List.append_cancel_left hr₁
      rw [List.takeWhile_append_of_pos h.isSecret, List.length_append]
      exact Nat.le_trans h.least (Nat.le_add_right _ _)
    · -- an announcement ends with no token point, but this secret does
      rcases List.append_eq_append_iff.mp hsplit with ⟨z, _, rfl⟩ | ⟨z, _, rfl⟩
      · exact absurd (fun d hd => htokens d (List.mem_append_right z hd))
          (hq.not_tokens hfinds.announced)
      · exact absurd (hq.eq_nil_of_tokens hfinds.announced htokens) (h.secret_ne_nil hp)
  · obtain ⟨d, secret', rfl⟩ := List.exists_cons_of_ne_nil (h.secret_ne_nil hp)
    obtain ⟨r', rfl⟩ := List.head?_eq_some_iff.mp hhead.symm
    rw [hleast, List.takeWhile_cons_of_pos (h.isSecret d List.mem_cons_self)]
    exact Nat.succ_le_succ (Nat.zero_le _)

/-- What is found at the start of an outcome is found at the start of the text, or it is
announced by what ends with an announcement of the pass. -/
theorem Finds.of_passes (hp : p.Sound) (hq : q.Sound) {ann secret rest : List CodePoint}
    (hpasses : q.Passes before cs (ann ++ (secret ++ rest))) (h : p.Finds before ann secret rest) :
    (∃ secret₀ rest₀, cs = ann ++ (secret₀ ++ rest₀) ∧ p.Finds before ann secret₀ rest₀
        ∧ (secret₀ = replacement.points → secret = replacement.points))
      ∨ ∃ b x annq secret₀ rest₀ out, ann = x ++ annq ∧ q.Finds b annq secret₀ rest₀
        ∧ secret ++ rest = replacement.points ++ out ∧ out.head? = rest₀.head? := by
  rcases hpasses.starless hq (hp.star_notMem h.announced) with
    ⟨r, rfl, hhead, hgoes⟩ | ⟨b, x, annq, secret₀, rest₀, out, hann, _, hfinds, hsplit, hout⟩
  · -- the secret is what the text has there, and it is a replacement only if this was left in place
    have hleast := h.least_le_of_passes hp hq hpasses rfl hhead
    refine .inl ⟨r.takeWhile p.isSecret, r.dropWhile p.isSecret, ?_, ?_, ?_⟩
    · rw [List.takeWhile_append_dropWhile]
    · exact ⟨h.follows, h.announced, List.all_eq_true.mp List.all_takeWhile, hleast,
        head?_dropWhile r⟩
    · intro hmark
      have hr : r = replacement.points ++ r.dropWhile p.isSecret := by
        rw [← hmark, List.takeWhile_append_dropWhile]
      obtain ⟨v, hv⟩ := replacement_points
      obtain ⟨b, hrest⟩ := hgoes (by rw [hr, hv]; rfl)
      rw [hr] at hrest
      obtain ⟨out, hsplit, hout⟩ := hrest.replacement_stays hq
      refine h.secret_eq_replacement hp hsplit ?_
      rw [hout.head? hq]
      exact head?_dropWhile r
  · exact .inr ⟨b, x, annq, secret₀, rest₀, out, hann, hfinds, hsplit, hout.head? hq⟩

/-- Where something is found in the outcome of a pass: where the pass has come between two
steps, or within an announcement of the pass. -/
theorem Finds.start (hp : p.Sound) (hq : q.Sound) {x ann secret rest : List CodePoint}
    (hpasses : q.Passes before cs (x ++ (ann ++ (secret ++ rest))))
    (h : p.Finds (lastFrom before x) ann secret rest) :
    (∃ x₀ r, cs = x₀ ++ r ∧ lastFrom before x = lastFrom before x₀
        ∧ q.Passes (lastFrom before x₀) r (ann ++ (secret ++ rest)))
      ∨ ∃ a₁ z, a₁ ≠ [] ∧ Piece.Reads q.announcement (a₁ ++ (ann ++ z)) := by
  cases hpasses.cut with
  | between x₀ r hcs hrest hbefore =>
    rcases hbefore with hbefore | hno
    · exact .inl ⟨x₀, r, hcs, hbefore, hrest⟩
    · -- behind a secret stands no letter
      obtain ⟨d, c, ann', rfl, hd⟩ := hp.exists_letter h.announced
      have hsecret := hno d (hrest.head? hq).symm
      rw [hq.isSecret_of_letter hd] at hsecret
      nomatch hsecret
  | announcing x₀ a₁ a₂ secret₁ rest₁ out hcs hfinds hne hr' =>
    obtain ⟨v, hv⟩ := replacement_points
    rw [hv, List.cons_append] at hr'
    obtain ⟨z, rfl, _⟩ := split_before_star (hp.star_notMem h.announced) hr'
    exact .inr ⟨a₁, z, hne, hfinds.announced⟩
  | replacing y out hy hne hr' =>
    exact absurd h.announced (hp.not_reads_in_replacement hy hne hr'.symm)

/-! ## What a pass settles -/

/-- A pass settles a text for its own pattern. What it finds in the outcome lies in kept
text, where the pass has found it already and put the mask there, or reaches into a mask,
which is then all of the secret. -/
theorem Passes.settled (hp : p.Sound) (h : p.Passes before cs out) : p.Settled before out := by
  rintro x ann secret rest rfl hfinds
  rcases hfinds.start hp hp h with ⟨x₀, r, _, hbefore, hrest⟩ | ⟨a₁, z, hne, hreads⟩
  · rw [hbefore] at hfinds
    rcases hfinds.of_passes hp hp hrest with
      ⟨secret₀, rest₀, rfl, hfinds₀, _⟩ | ⟨b, x, annq, secret₀, rest₀, out, _, hfinds₀, hsplit, hhead⟩
    · obtain ⟨out, hsplit, hout⟩ := hrest.of_finds hp hfinds₀
      refine hfinds.secret_eq_replacement hp (List.append_cancel_left hsplit) ?_
      rw [hout.head? hp]
      exact hfinds₀.ends
    · refine hfinds.secret_eq_replacement hp hsplit ?_
      rw [hhead]
      exact hfinds₀.ends
  · -- an announcement within another would have less letters
    obtain ⟨d, v, rfl⟩ := List.exists_cons_of_ne_nil hne
    obtain ⟨e, c, u, hsplit, he⟩ := hp.exists_letter hreads
    obtain rfl : d = e := (List.cons.inj hsplit).1
    have hletters := congrArg List.length (hp.spelling_eq hreads)
    rw [← hp.spelling_eq hfinds.announced, spelling_append, spelling_append, spelling,
      List.filterMap_cons_some he, List.length_append, List.length_append, List.length_cons] at hletters
    omega

/-- The first pattern bears with the second: it is not announced within
announcements of the second, and these do not end its own, unless its secrets do not
begin with the mark. -/
def Bears (p q : Pattern) : Prop :=
  ¬p.word <:+: q.word ∧ (p.isSecret star = false ∨ ¬q.word <:+ p.word)

instance : DecidableRel Bears := fun p q =>
  inferInstanceAs (Decidable (¬p.word <:+: q.word ∧ (p.isSecret star = false ∨ ¬q.word <:+ p.word)))

/-- The pass of a pattern that is borne with leaves a text settled. With `Passes.settled`
this carries every pattern to the end of the sequence: it is settled by its own pass, and
each later one bears with it. -/
theorem Settled.passes (hp : p.Sound) (hq : q.Sound) (hbears : p.Bears q)
    (hsettled : p.Settled before cs) (h : q.Passes before cs out) : p.Settled before out := by
  rintro x ann secret rest rfl hfinds
  -- Where does the match begin: in kept text or within an announcement of `q`?
  rcases hfinds.start hp hq h with ⟨x₀, r, rfl, hbefore, hrest⟩ | ⟨a₁, z, _, hreads⟩
  · rw [hbefore] at hfinds
    -- In kept text the secret is either one that stood there before, which was settled, or it reaches
    -- into what `q` masked.
    rcases hfinds.of_passes hp hq hrest with
      ⟨secret₀, rest₀, rfl, hfinds₀, hmark⟩ | ⟨b, x, annq, _, _, out, rfl, hfinds₀, hsplit, _⟩
    · exact hmark (hsettled x₀ ann secret₀ rest₀ rfl hfinds₀)
    · rcases hbears.2 with hstar | hword
      · rw [hfinds.isSecret_star hp hsplit] at hstar
        nomatch hstar
      · refine absurd ?_ hword
        rw [← hq.spelling_eq hfinds₀.announced, ← hp.spelling_eq hfinds.announced, spelling_append]
        exact List.suffix_append _ _
  · refine absurd ?_ hbears.1
    rw [← hp.spelling_eq hfinds.announced, ← hq.spelling_eq hreads, spelling_append, spelling_append]
    exact ⟨_, _, List.append_assoc _ _ _⟩

/-- A pass has nothing to do in a text that is settled for its pattern. -/
theorem Settled.eq_of_passes (hsettled : p.Settled before cs) (h : p.Passes before cs out) :
    out = cs := by
  induction h with
  | nil => rfl
  | @keeps before d rest out _ _ ih => rw [ih (hsettled.of_append (u := [d]))]
  | @replaces before ann secret rest out hfinds _ ih =>
    have hmark := hsettled [] ann secret rest rfl hfinds
    rw [← List.append_assoc] at hsettled
    rw [ih hsettled.of_append, hmark]

/-- A pattern leaves a text in which it has nothing more to replace. -/
theorem Settled.redact_eq (hp : p.Sound) {t : Text} (h : p.Settled none t.points) :
    p.redact t = t :=
  Text.ext (h.eq_of_passes (passes_redact hp t))

/-- What one pattern has settled stays settled through the passes of those it bears
with. -/
theorem Settled.redactAll (hp : p.Sound) {ps : List Pattern} (hsound : ∀ q ∈ ps, q.Sound)
    (hbears : ∀ q ∈ ps, p.Bears q) {t : Text} (h : p.Settled none t.points) :
    p.Settled none (redactAll ps t).points := by
  induction ps generalizing t with
  | nil => exact h
  | cons q ps ih =>
    obtain ⟨hq, hsound⟩ := List.forall_mem_cons.mp hsound
    obtain ⟨hbears₁, hbears⟩ := List.forall_mem_cons.mp hbears
    exact ih hsound hbears (h.passes hp hq hbears₁ (passes_redact hq t))

/-- A row of passes settles a text for each of its patterns, if each bears with the later
ones. -/
theorem settled_redactAll {ps : List Pattern} (hsound : ∀ p ∈ ps, p.Sound) (hbears : ps.Pairwise Bears)
    (t : Text) : ∀ p ∈ ps, p.Settled none (redactAll ps t).points := by
  induction ps generalizing t with
  | nil => exact fun p hp => nomatch hp
  | cons q ps ih =>
    obtain ⟨hq, hsound⟩ := List.forall_mem_cons.mp hsound
    obtain ⟨hbears₁, hbears⟩ := List.pairwise_cons.mp hbears
    refine List.forall_mem_cons.mpr ⟨?_, ih hsound hbears (q.redact t)⟩
    exact ((passes_redact hq t).settled hq).redactAll hq hsound hbears₁

/-- In a settled text a match announces a replacement. -/
theorem Settled.take_of_match? (hp : p.Sound) {t : Text} (h : p.Settled none t.points)
    {x y : List CodePoint} {m : Match} (hsplit : t.points = x ++ y)
    (hmatch : p.match? x.getLast? y = some m) :
    (y.drop m.announced).take m.secret = replacement.points := by
  obtain ⟨ann, secret, rest, rfl, rfl, hfinds⟩ := (match?_eq_some_iff hp).mp hmatch
  rw [← lastFrom_none] at hfinds
  rw [List.drop_left, List.take_left]
  exact h x ann secret rest hsplit hfinds

end Pattern

/-- A row of passes leaves a text that each of them leaves. -/
theorem redactAll_eq_self {ps : List Pattern} {t : Text} (h : ∀ p ∈ ps, p.redact t = t) :
    redactAll ps t = t := by
  induction ps with
  | nil => rfl
  | cons p ps ih =>
    obtain ⟨hp, hps⟩ := List.forall_mem_cons.mp h
    show redactAll ps (p.redact t) = t
    rw [hp, ih hps]

theorem patterns_bear : patterns.Pairwise Pattern.Bears := by
  decide +kernel

/-- After the five passes nothing is left for any of the patterns. Each is settled by its
own pass and stays so through those behind it. -/
theorem settled_redact (t : Text) : ∀ p ∈ patterns, p.Settled none (redact t).points := by
  rw [redact_eq_redactAll]
  exact Pattern.settled_redactAll (fun _ hp => sound_of_mem_patterns hp) patterns_bear t

/-- After one redaction there is nothing left to redact: neither all patterns together nor
any one of them change the text again, and where a pattern still matches, a replacement
stands already. Each pass settles its own pattern, and `Settled.passes` says that no later
pass unsettles it. -/
theorem redact_settles (t : Text) :
    redact (redact t) = redact t
      ∧ ∀ p ∈ patterns, p.redact (redact t) = redact t
        ∧ ∀ x y m, (redact t).points = x ++ y → p.match? x.getLast? y = some m →
            (y.drop m.announced).take m.secret = replacement.points := by
  have heach : ∀ p ∈ patterns, p.redact (redact t) = redact t :=
    fun p hp => (settled_redact t p hp).redact_eq (sound_of_mem_patterns hp)
  refine ⟨redactAll_eq_self heach, fun p hp => ⟨heach p hp, fun x y m hsplit hmatch => ?_⟩⟩
  exact (settled_redact t p hp).take_of_match? (sound_of_mem_patterns hp) hsplit hmatch

/-- A password that is itself the announcement of a token, and a key before it: a second
redaction finds the password again, and a replacement in its place. -/
theorem redact_settles_nested :
    let t : Text := "api_key=k1 password=token: t1"
    let x := ("api_key=***REDACTED*** " : Text).points
    let y := ("password=***REDACTED*** t1" : Text).points
    password ∈ patterns ∧ (redact t).points = x ++ y
      ∧ password.match? x.getLast? y = some ⟨9, 14⟩
      ∧ redact (redact t) = redact t ∧ password.redact (redact t) = redact t
      ∧ (y.drop 9).take 14 = replacement.points := by
  intro t x y
  have hmem : password ∈ patterns := by simp [patterns]
  -- The two evaluations that place the match; what holds of it is the general theorem's.
  have hsplit : (redact t).points = x ++ y := by decide +kernel
  have hmatch : password.match? x.getLast? y = some ⟨9, 14⟩ := by decide
  obtain ⟨hagain, heach⟩ := redact_settles t
  obtain ⟨hone, hfound⟩ := heach password hmem
  exact ⟨hmem, hsplit, hmatch, hagain, hone, hfound x y ⟨9, 14⟩ hsplit hmatch⟩

end Keeper.Redaction
