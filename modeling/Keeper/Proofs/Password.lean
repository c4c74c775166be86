import Keeper.Proofs.Passage

/-!
# Keeper — what a password lets be seen

A text ends with `password=` and a value of letters and digits: does the value show in the redacted text?
The pattern of passwords is applied after three others, and a bearer token or key whose secret takes in the
word `password` leaves the value without its label.

* **`Pattern.Awaits`** — the pass over a text ends within a secret, or where one may begin.
* **`Passes.append`**, **`Awaits.absorbs`** — token points that are appended to a text are appended to its
  outcome, or they disappear, as the pass awaits no secret or one.
* **`Pattern.LeadsInto`**, **`Passes.label_stays`** — a text ends with an announcement and nothing but token
  points behind it; a label that no such text precedes is left as it is.
* **`redact_password_iff`** — two values have the same outcome exactly if they are equal or the password
  is awaited; if it is not, a token or key was announced before, and the value is there to be read.
* **`bearer_shows_password`** — a text for which this is so.
-/

namespace Keeper.Redaction

/-! ## The label and the value of a password -/

def sign : CodePoint := .char '='

def label : Text := "password="

theorem tokens_of_label : ∀ d ∈ label.points.dropLast, isTokenPoint d = true := by
  have hall : (label.points.dropLast.all isTokenPoint) = true := by decide
  exact List.all_eq_true.mp hall

theorem label_ne_nil : label.points ≠ [] := by
  decide

theorem getLast?_label (y : List CodePoint) :
    (y ++ label.points).getLast? = some sign := by
  rw [List.getLast?_append_of_ne_nil y label_ne_nil]
  decide

/-- A value of ASCII letters and digits. -/
def Alphanumeric (v : Text) : Prop :=
  v.points ≠ [] ∧ (v.points.all fun d => d.satisfies Char.isAlphanum) = true

instance (v : Text) : Decidable (Alphanumeric v) :=
  inferInstanceAs (Decidable (v.points ≠ [] ∧ (v.points.all fun d => d.satisfies Char.isAlphanum) = true))

/-- The letter `z` is the last of the letters and digits. -/
theorem toNat_le_of_isAlphanum {c : Char} (h : c.isAlphanum = true) : c.toNat ≤ 'z'.toNat := by
  rcases Bool.or_eq_true_iff.mp h with halpha | hdigit
  · rcases Bool.or_eq_true_iff.mp halpha with hupper | hlower
    · have hlast : c.toNat ≤ 'Z'.toNat := UInt32.le_iff_toNat_le.mp (of_decide_eq_true hupper).2
      exact Nat.le_trans hlast (by decide)
    · exact UInt32.le_iff_toNat_le.mp (of_decide_eq_true (Bool.and_eq_true_iff.mp hlower).2)
  · have hlast : c.toNat ≤ '9'.toNat :=
      UInt32.le_iff_toNat_le.mp (of_decide_eq_true (Bool.and_eq_true_iff.mp hdigit).2)
    exact Nat.le_trans hlast (by decide)

/-- Letters and digits are token points. -/
theorem isTokenPoint_of_isAlphanum {d : CodePoint} (h : d.satisfies Char.isAlphanum = true) :
    isTokenPoint d = true := by
  cases d with
  | surrogate place => nomatch h
  | char c =>
    have hall : ((List.range ('z'.toNat + 1)).all fun n =>
        !(Char.ofNat n).isAlphanum || isTokenPoint (.char (Char.ofNat n))) = true := by decide
    have hbound : c.toNat < 'z'.toNat + 1 := Nat.lt_succ_of_le (toNat_le_of_isAlphanum h)
    have hc := List.all_eq_true.mp hall c.toNat (List.mem_range.mpr hbound)
    rw [Char.ofNat_toNat, show c.isAlphanum = true from h, Bool.not_true, Bool.false_or] at hc
    exact hc

/-- So a password of letters and digits is a run of token points, which every pattern
takes to its end. -/
theorem Alphanumeric.tokens {v : Text} (h : Alphanumeric v) :
    ∀ d ∈ v.points, isTokenPoint d = true :=
  fun d hd => isTokenPoint_of_isAlphanum (List.all_eq_true.mp h.2 d hd)

namespace Pattern

variable {p : Pattern} {before : Option CodePoint} {cs out v : List CodePoint}

/-- A text is announcement and secret to its end, or only the announcement. -/
def Opens (p : Pattern) (before : Option CodePoint) (cs : List CodePoint) : Prop :=
  p.mayFollow before = true ∧ ∃ ann secret, cs = ann ++ secret
    ∧ Piece.Reads p.announcement ann ∧ ∀ d ∈ secret, p.isSecret d = true

/-- The pass over a text ends within a secret, or where one may begin. -/
inductive Awaits (p : Pattern) : Option CodePoint → List CodePoint → Prop where
  | here {before : Option CodePoint} {cs : List CodePoint} (hopens : p.Opens before cs) :
      Awaits p before cs
  | keeps {before : Option CodePoint} {d : CodePoint} {rest : List CodePoint}
      (hnone : p.match? before (d :: rest) = none) (hrest : Awaits p (some d) rest) :
      Awaits p before (d :: rest)
  | replaces {before : Option CodePoint} {ann secret rest : List CodePoint}
      (hfinds : p.Finds before ann secret rest)
      (hrest : Awaits p (lastFrom before (ann ++ secret)) rest) :
      Awaits p before (ann ++ (secret ++ rest))

/-- What is awaited is announced: a text that awaits a secret ends with an announcement
and with points of a secret. -/
theorem Awaits.split (h : p.Awaits before cs) :
    ∃ x ann secret, cs = x ++ (ann ++ secret) ∧ Piece.Reads p.announcement ann
      ∧ ∀ d ∈ secret, p.isSecret d = true := by
  induction h with
  | here hopens =>
    obtain ⟨_, ann, secret, rfl, hend⟩ := hopens
    exact ⟨[], ann, secret, rfl, hend⟩
  | @keeps _ d rest _ _ ih =>
    obtain ⟨x, ann, secret, rfl, hend⟩ := ih
    exact ⟨d :: x, ann, secret, rfl, hend⟩
  | @replaces _ ann₁ secret₁ rest _ _ ih =>
    obtain ⟨x, ann, secret, rfl, hend⟩ := ih
    exact ⟨ann₁ ++ (secret₁ ++ x), ann, secret, by simp only [List.append_assoc], hend⟩

theorem Finds.opens {ann secret : List CodePoint} (h : p.Finds before ann secret []) :
    p.Opens before (ann ++ (secret ++ [])) :=
  ⟨h.follows, ann, secret, by rw [List.append_nil], h.announced, h.isSecret⟩

/-- What is found with something behind it is found whatever follows that. -/
theorem Finds.extend {ann secret rest : List CodePoint} (h : p.Finds before ann secret rest)
    (hne : rest ≠ []) (v : List CodePoint) : p.Finds before ann secret (rest ++ v) where
  follows := h.follows
  announced := h.announced
  isSecret := h.isSecret
  least := h.least
  ends := by
    rw [List.head?_append_of_ne_nil rest hne]
    exact h.ends

/-- No announcement ends among token points. -/
theorem Sound.split_before_tokens (hp : p.Sound) (hv : ∀ d ∈ v, isTokenPoint d = true)
    {u ann w : List CodePoint} (hreads : Piece.Reads p.announcement ann) (h : u ++ v = ann ++ w) :
    ∃ z, u = ann ++ z ∧ w = z ++ v := by
  rcases List.append_eq_append_iff.mp h with ⟨z, rfl, rfl⟩ | hsplit
  · obtain rfl := hp.eq_nil_of_tokens hreads fun d hd => hv d (List.mem_append_left w hd)
    exact ⟨[], by simp⟩
  · exact hsplit

/-- Nothing is found in a text of token points and one more: no secret would come after
it. -/
theorem passes_tokens (hp : p.Sound) (hv : ∀ d ∈ v.dropLast, isTokenPoint d = true) :
    p.Passes before v v := by
  induction v generalizing before with
  | nil => exact .nil
  | cons d v ih =>
    -- an announcement ends with a sign or a blank, and a run of token points has neither
    refine .keeps ((match?_eq_none_iff hp).mpr ?_) (ih fun e he => hv e ?_)
    · intro ann secret rest hsplit hfinds
      have hne : secret ++ rest ≠ [] := List.append_ne_nil_of_left_ne_nil (hfinds.secret_ne_nil hp) rest
      rw [hsplit, List.dropLast_append_of_ne_nil hne] at hv
      exact hp.not_tokens hfinds.announced fun e he => hv e (List.mem_append_left _ he)
    · cases v with
      | nil => nomatch he
      | cons d' v => exact List.mem_cons_of_mem d he

/-- A text that opens no secret and goes on with token points announces nothing new. An
announcement ends with a blank or a sign, so none ends within what was appended. -/
theorem match?_append (hp : p.Sound) (hno : ¬p.Opens before cs) (hnone : p.match? before cs = none)
    (hv : ∀ d ∈ v, isTokenPoint d = true) : p.match? before (cs ++ v) = none := by
  rw [match?_eq_none_iff hp] at hnone ⊢
  intro ann secret rest hsplit hfinds
  -- a match in the longer text has its announcement before the run; its secret ends there as well, or
  -- goes on into the run, and then one was open before
  obtain ⟨z, rfl, hz⟩ := hp.split_before_tokens hv hfinds.announced hsplit
  have hrun : ¬∀ d ∈ z, p.isSecret d = true :=
    fun hall => hno ⟨hfinds.follows, ann, z, rfl, hfinds.announced, hall⟩
  rcases List.append_eq_append_iff.mp hz with ⟨z', rfl, rfl⟩ | ⟨z', rfl, _⟩
  · cases z' with
    | nil =>
      rw [List.append_nil] at hrun
      exact hrun hfinds.isSecret
    | cons e z' =>
      exact hnone ann secret (e :: z') rfl
        ⟨hfinds.follows, hfinds.announced, hfinds.isSecret, hfinds.least, hfinds.ends⟩
  · exact hrun fun d hd => hfinds.isSecret d (List.mem_append_left z' hd)

/-- Where nothing is awaited, what is appended to a text is appended to the outcome: the
pass has arrived at the end with nothing open, and goes on from there by itself. -/
theorem Passes.append (hp : p.Sound) (h : p.Passes before cs out) (hno : ¬p.Awaits before cs)
    (hv : ∀ d ∈ v, isTokenPoint d = true) : p.Passes before (cs ++ v) (out ++ v) := by
  induction h with
  | nil => exact passes_tokens hp fun d hd => hv d (List.dropLast_subset v hd)
  | keeps hnone _ ih =>
    have hnone' := match?_append hp (fun hopens => hno (.here hopens)) hnone hv
    exact .keeps hnone' (ih fun hawaits => hno (.keeps hnone hawaits))
  -- a secret at the very end would go on into the run, which the hypothesis excludes
  | @replaces before ann secret rest out hfinds _ ih =>
    have hne : rest ≠ [] := by
      rintro rfl
      exact hno (.here hfinds.opens)
    simp only [List.append_assoc]
    exact .replaces (hfinds.extend hne v) (ih fun hawaits => hno (.replaces hfinds hawaits))

/-- Where nothing is awaited, the text and the outcome have the same end. In
`redact_of_not_awaited` it shows that the sign of the label is still last when the pattern
for tokens comes. -/
theorem Passes.getLast?_eq (h : p.Passes before cs out) (hno : ¬p.Awaits before cs) :
    out.getLast? = cs.getLast? := by
  induction h with
  | nil => rfl
  | keeps hnone _ ih =>
    rw [List.getLast?_cons, List.getLast?_cons, ih fun hawaits => hno (.keeps hnone hawaits)]
  | @replaces before ann secret rest out hfinds _ ih =>
    have hlast := ih fun hawaits => hno (.replaces hfinds hawaits)
    -- something is left behind the secret, so the last point is that of the rest
    cases rest with
    | nil => exact absurd (.here hfinds.opens) hno
    | cons d rest =>
      rw [List.getLast?_append, List.getLast?_append, List.getLast?_append, List.getLast?_append,
        hlast, List.getLast?_cons]
      rfl

/-- Secret points that follow where a secret is opened belong to it. So the outcome does
not depend on them, which is how a value disappears. -/
theorem Opens.absorbs (hp : p.Sound) (hleast : p.least = 1) (h : p.Opens before cs) :
    ∃ out, ∀ v ≠ [], (∀ d ∈ v, isTokenPoint d = true) → p.Passes before (cs ++ v) out := by
  obtain ⟨hfollows, ann, secret, rfl, hreads, hsecret⟩ := h
  refine ⟨ann ++ (replacement.points ++ []), fun v hne hv => ?_⟩
  -- the run belongs to the secret that is open, so it is replaced with it whatever it is
  have hall : ∀ d ∈ secret ++ v, p.isSecret d = true := by
    intro d hd
    rcases List.mem_append.mp hd with hd | hd
    · exact hsecret d hd
    · exact hp.isSecret_of_token (hv d hd)
  have hlong : p.least ≤ (secret ++ v).length := by
    rw [hleast]
    exact List.length_pos_iff.mpr (List.append_ne_nil_of_right_ne_nil secret hne)
  rw [List.append_assoc, ← List.append_nil (secret ++ v)]
  exact .replaces ⟨hfollows, hreads, hall, hlong, fun d hd => nomatch hd⟩ .nil

/-- Where a secret of any length is awaited, the token points that follow disappear in it.
This is `Opens.absorbs`, carried through the passage before. -/
theorem Awaits.absorbs (hp : p.Sound) (hleast : p.least = 1) (h : p.Awaits before cs) :
    ∃ out, ∀ v ≠ [], (∀ d ∈ v, isTokenPoint d = true) → p.Passes before (cs ++ v) out := by
  induction h with
  | here hopens => exact hopens.absorbs hp hleast
  | @keeps before d rest hnone _ ih =>
    -- what is announced here may reach the end only when more follows
    by_cases hopens : p.Opens before (d :: rest)
    · exact hopens.absorbs hp hleast
    · obtain ⟨out, hout⟩ := ih
      refine ⟨d :: out, fun v hne hv => ?_⟩
      exact .keeps (match?_append hp hopens hnone hv) (hout v hne hv)
  | @replaces before ann secret rest hfinds _ ih =>
    by_cases hrest : rest = []
    · subst hrest
      exact hfinds.opens.absorbs hp hleast
    · obtain ⟨out, hout⟩ := ih
      refine ⟨ann ++ (replacement.points ++ out), fun v hne hv => ?_⟩
      simp only [List.append_assoc]
      exact .replaces (hfinds.extend hrest v) (hout v hne hv)

/-! ## Behind a label -/

/-- A text that ends with an announcement. -/
def Ends (p : Pattern) (cs : List CodePoint) : Prop :=
  ∃ x ann, cs = x ++ ann ∧ Piece.Reads p.announcement ann

/-- A text that ends with an announcement and nothing but token points behind it. -/
def LeadsInto (p : Pattern) (cs : List CodePoint) : Prop :=
  ∃ x ann run, cs = x ++ (ann ++ run) ∧ Piece.Reads p.announcement ann
    ∧ ∀ d ∈ run, isTokenPoint d = true

/-- A token is not awaited behind a sign that ends no announcement. -/
theorem not_awaits (hsecret : p.isSecret = isTokenPoint) (hlast : cs.getLast? = some sign)
    (hends : ¬p.Ends cs) : ¬p.Awaits before cs := by
  intro hawaits
  obtain ⟨x, ann, secret, rfl, hreads, hall⟩ := hawaits.split
  rcases List.eq_nil_or_concat secret with rfl | ⟨run, d, rfl⟩
  · exact hends ⟨x, ann, by rw [List.append_nil], hreads⟩
  · rw [List.concat_eq_append, ← List.append_assoc, ← List.append_assoc, List.getLast?_concat] at hlast
    obtain rfl : d = sign := Option.some.inj hlast
    have hsign := hall sign (by simp)
    rw [hsecret] at hsign
    revert hsign
    decide

theorem Ends.of_passes {q : Pattern} (hp : p.Sound) (hq : q.Sound) (h : q.Passes before cs out)
    (hends : p.Ends out) : p.Ends cs := by
  obtain ⟨x, ann, rfl, hreads⟩ := hends
  obtain ⟨x₀, rfl⟩ := h.suffix hq (hp.star_notMem hreads)
  exact ⟨x₀, ann, rfl, hreads⟩

/-- The label ends only announcements whose last letter is its own. -/
theorem Sound.not_ends_label (hp : p.Sound) (hword : p.word.getLast? ≠ some 'd')
    (y : List CodePoint) : ¬p.Ends (y ++ label.points) := by
  rintro ⟨x, ann, hsplit, hreads⟩
  obtain ⟨d, c, ann', rfl, hd⟩ := hp.exists_letter hreads
  -- both ways to split the text give its last letter
  have hletters := congrArg (fun u => (spelling u).getLast?) hsplit
  have hlabel : (spelling label.points).getLast? = some 'd' := by decide
  have hne : p.word ≠ [] := by
    rw [← hp.spelling_eq hreads, spelling, List.filterMap_cons_some hd]
    exact List.cons_ne_nil _ _
  rw [spelling_append, spelling_append, hp.spelling_eq hreads, List.getLast?_append, hlabel,
    List.getLast?_append_of_ne_nil _ hne] at hletters
  exact hword hletters.symm

/-- A label that no token or key leads into is left as it is. If a pass for tokens changed
it, its secret would reach into the label, and its announcement would stand right before
it. -/
theorem Passes.label_stays (hp : p.Sound) (hsecret : p.isSecret = isTokenPoint)
    {y : List CodePoint} (h : p.Passes before (y ++ label.points) out) (hno : ¬p.LeadsInto y) :
    ∃ y', out = y' ++ label.points := by
  generalize hcs : y ++ label.points = cs at h
  -- the induction is on the pass, with what stands in front of the label as a parameter
  induction h generalizing y with
  | nil => exact absurd (List.append_eq_nil_iff.mp hcs).2 label_ne_nil
  | @keeps before d rest out hnone hrest ih =>
    cases y with
    | nil =>
      have hkept := Passes.keeps hnone hrest
      rw [← hcs] at hkept
      exact ⟨[], hkept.unique hp (passes_tokens hp tokens_of_label)⟩
    | cons e y =>
      obtain ⟨rfl, htail⟩ := List.cons.inj hcs
      have hno' : ¬p.LeadsInto y := by
        rintro ⟨x, ann, run, rfl, hend⟩
        exact hno ⟨e :: x, ann, run, rfl, hend⟩
      obtain ⟨y', rfl⟩ := ih hno' htail
      exact ⟨e :: y', rfl⟩
  | @replaces before ann secret rest out hfinds hrest ih =>
    have hne := hfinds.secret_ne_nil hp
    rcases cut_cases hcs with ⟨z, rfl, hlabel⟩ | ⟨z, w, rfl, rfl, _⟩ | ⟨w, rfl, rfl⟩
    · -- what the announcement has of the label is token points, so there is nothing of it
      have htokens : ∀ d ∈ z, isTokenPoint d = true := by
        intro d hd
        apply tokens_of_label
        rw [hlabel, List.dropLast_append_of_ne_nil (List.append_ne_nil_of_left_ne_nil hne rest)]
        exact List.mem_append_left _ hd
      obtain rfl := hp.eq_nil_of_tokens hfinds.announced htokens
      refine absurd ⟨[], y, [], ?_, ?_, fun d hd => nomatch hd⟩ hno
      · rw [List.append_nil, List.nil_append]
      · rw [← List.append_nil y]
        exact hfinds.announced
    · refine absurd ⟨[], ann, z, rfl, hfinds.announced, fun d hd => ?_⟩ hno
      rw [← hsecret]
      exact hfinds.isSecret d (List.mem_append_left w hd)
    · have hno' : ¬p.LeadsInto w := by
        rintro ⟨x, ann₁, run, rfl, hend⟩
        exact hno ⟨ann ++ (secret ++ x), ann₁, run, by simp only [List.append_assoc], hend⟩
      obtain ⟨y', rfl⟩ := ih hno' rfl
      exact ⟨ann ++ (replacement.points ++ y'), by simp only [List.append_assoc]⟩

/-- Behind a label of its own a pattern awaits a secret, since the label announces one and
nothing has followed yet. -/
theorem Passes.awaits (hfollows : ∀ b, p.mayFollow b = true)
    (hreads : Piece.Reads p.announcement label.points)
    (hsecret : ∀ d ∈ label.points, p.isSecret d = true) {y : List CodePoint}
    (h : p.Passes before (y ++ label.points) out) : p.Awaits before (y ++ label.points) := by
  generalize hcs : y ++ label.points = cs at h
  induction h generalizing y with
  | nil => exact absurd (List.append_eq_nil_iff.mp hcs).2 label_ne_nil
  | @keeps before d rest out hnone _ ih =>
    cases y with
    | nil =>
      rw [← hcs]
      exact .here ⟨hfollows before, label.points, [], by simp, hreads, fun d hd => nomatch hd⟩
    | cons e y =>
      obtain ⟨rfl, htail⟩ := List.cons.inj hcs
      exact .keeps hnone (ih htail)
  | @replaces before ann secret rest out hfinds _ ih =>
    -- no secret ends within the label
    have hend : ∀ w, label.points = w ++ rest → p.Awaits before (ann ++ (secret ++ rest)) := by
      intro w hw
      cases rest with
      | nil => exact .here hfinds.opens
      | cons d rest =>
        have hd := hsecret d (hw ▸ List.mem_append_right w List.mem_cons_self)
        rw [hfinds.ends d rfl] at hd
        nomatch hd
    rcases cut_cases hcs with ⟨z, _, hlabel⟩ | ⟨_, w, _, _, hlabel⟩ | ⟨w, _, hw⟩
    · exact hend (z ++ secret) (by rw [hlabel, List.append_assoc])
    · exact hend w hlabel
    · exact .replaces hfinds (ih hw.symm)

/-! ## A row of passes -/

variable {ps : List Pattern} {t : Text}

/-- A text whose outcome ends with an announcement has ended with it before: a replacement
ends with a mark, and no announcement has one. -/
theorem Ends.of_redactAll (hp : p.Sound) (hsound : ∀ q ∈ ps, q.Sound)
    (h : p.Ends (redactAll ps t).points) : p.Ends t.points := by
  induction ps generalizing t with
  | nil => exact h
  | cons q ps ih =>
    obtain ⟨hq, hsound⟩ := List.forall_mem_cons.mp hsound
    exact (ih hsound h).of_passes hp hq (passes_redact hq t)

/-- Behind a sign that ends no announcement, token points are kept by every pass for
tokens. The sign is still there after each pass, so the same holds before the next one. -/
theorem redactAll_append (hsound : ∀ q ∈ ps, q.Sound) (hsecret : ∀ q ∈ ps, q.isSecret = isTokenPoint)
    (hlast : t.points.getLast? = some sign) (hends : ∀ q ∈ ps, ¬q.Ends t.points) {v : Text}
    (hv : ∀ d ∈ v.points, isTokenPoint d = true) :
    redactAll ps (t ++ v) = redactAll ps t ++ v
      ∧ (redactAll ps t).points.getLast? = some sign := by
  induction ps generalizing t with
  | nil => exact ⟨rfl, hlast⟩
  | cons q ps ih =>
    obtain ⟨hq, hsound⟩ := List.forall_mem_cons.mp hsound
    obtain ⟨hsecret₁, hsecret⟩ := List.forall_mem_cons.mp hsecret
    obtain ⟨hends₁, hends⟩ := List.forall_mem_cons.mp hends
    -- the sign is still last after the pass, and no new announcement ends there
    have hpasses := passes_redact hq t
    have hno : ¬q.Awaits none t.points := not_awaits hsecret₁ hlast hends₁
    have happend : q.redact (t ++ v) = q.redact t ++ v :=
      redact_eq_of_passes hq (hpasses.append hq hno hv)
    have hlast' : (q.redact t).points.getLast? = some sign := (hpasses.getLast?_eq hno).trans hlast
    have hends' : ∀ q' ∈ ps, ¬q'.Ends (q.redact t).points :=
      fun q' hq' h => hends q' hq' (h.of_passes (hsound q' hq') hq hpasses)
    show redactAll ps (q.redact (t ++ v)) = redactAll ps (q.redact t) ++ v ∧ _
    rw [happend]
    exact ih hsound hsecret hlast' hends'

/-- What leads into the label in an outcome has led into it in the text. -/
theorem LeadsInto.of_passes {q : Pattern} (hp : p.Sound) (hq : q.Sound) {y y' : List CodePoint}
    (h : q.Passes before (y ++ label.points) (y' ++ label.points)) (hleads : p.LeadsInto y') :
    p.LeadsInto y := by
  obtain ⟨x, ann, run, rfl, hreads, hrun⟩ := hleads
  have hstar : star ∉ ann ++ (run ++ label.points) := by
    rw [List.mem_append, List.mem_append]
    exact not_or_intro (hp.star_notMem hreads) (not_or_intro (star_notMem_of_tokens hrun) (by decide))
  rw [List.append_assoc, List.append_assoc] at h
  obtain ⟨x₀, hx₀⟩ := h.suffix hq hstar
  have hy : y ++ label.points = x₀ ++ (ann ++ run) ++ label.points := by
    rw [hx₀, List.append_assoc, List.append_assoc]
  exact ⟨x₀, ann, run, List.append_cancel_right hy, hreads, hrun⟩

/-- A label that nothing leads into is left as it is by every pass for tokens. By
induction on the passes: what one leaves before the label leads into it no more than the
text did. -/
theorem redactAll_label (hsound : ∀ q ∈ ps, q.Sound) (hsecret : ∀ q ∈ ps, q.isSecret = isTokenPoint)
    {y : List CodePoint} (hno : ∀ q ∈ ps, ¬q.LeadsInto y) (ht : t.points = y ++ label.points) :
    ∃ y', (redactAll ps t).points = y' ++ label.points := by
  induction ps generalizing t y with
  | nil => exact ⟨y, ht⟩
  | cons q ps ih =>
    obtain ⟨hq, hsound⟩ := List.forall_mem_cons.mp hsound
    obtain ⟨hsecret₁, hsecret⟩ := List.forall_mem_cons.mp hsecret
    obtain ⟨hno₁, hno⟩ := List.forall_mem_cons.mp hno
    have hpasses := passes_redact hq t
    rw [ht] at hpasses
    obtain ⟨y', hy'⟩ := hpasses.label_stays hq hsecret₁ hno₁
    rw [hy'] at hpasses
    -- what does not lead into the label before a pass does not after it
    have hno' : ∀ q' ∈ ps, ¬q'.LeadsInto y' :=
      fun q' hq' hleads => hno q' hq' (hleads.of_passes (hsound q' hq') hq hpasses)
    exact ih hsound hsecret hno' hy'

end Pattern

/-! ## What shows of a password -/

/-- The patterns that are applied before those of passwords and tokens. -/
def earlier : List Pattern := [header, bearer, apiKey]

def screened (t : Text) : Text := redactAll earlier t

/-- The five passes, grouped by their time: those before the password's, its own, and the
last one. -/
theorem redact_eq_screened (t : Text) : redact t = token.redact (password.redact (screened t)) := rfl

/-- A password is awaited behind its label when its turn comes. -/
def Awaited (a : Text) : Prop := password.Awaits none (screened (a ++ label)).points

/-- The patterns before that of the password are for secrets of token points, and none of
their words ends with the last letter of its label. -/
theorem of_mem_earlier {q : Pattern} (h : q ∈ earlier) :
    q.Sound ∧ q.isSecret = isTokenPoint ∧ q.word.getLast? ≠ some 'd' := by
  simp only [earlier, List.mem_cons, List.not_mem_nil, or_false] at h
  rcases h with rfl | rfl | rfl
  · exact ⟨sound_header, rfl, by decide⟩
  · exact ⟨sound_bearer, rfl, by decide⟩
  · exact ⟨sound_apiKey, rfl, by decide⟩

theorem screened_append {a v : Text} (hv : ∀ d ∈ v.points, isTokenPoint d = true) :
    screened (a ++ label ++ v) = screened (a ++ label) ++ v
      ∧ (screened (a ++ label)).points.getLast? = some sign :=
  Pattern.redactAll_append (fun _ hq => (of_mem_earlier hq).1) (fun _ hq => (of_mem_earlier hq).2.1)
    (getLast?_label a.points)
    (fun _ hq => (of_mem_earlier hq).1.not_ends_label (of_mem_earlier hq).2.2 a.points) hv

/-- The label announces a password. -/
theorem reads_label : Piece.Reads password.announcement label.points := by
  have htaken : Piece.takenAll? password.announcement label.points = some label.points.length := by
    decide
  obtain ⟨ann, rest, hsplit, hlength, hreads⟩ := Piece.takenAll?_sound htaken
  obtain rfl : rest = [] := by
    have hlengths := congrArg List.length hsplit
    rw [List.length_append, hlength] at hlengths
    exact List.eq_nil_of_length_eq_zero (by omega)
  rw [hsplit, List.append_nil]
  exact hreads

/-- It could itself be taken for a password, since the only points that end one are
blanks. -/
theorem isSecret_label : ∀ d ∈ label.points, password.isSecret d = true := by
  have hall : (label.points.all isPasswordPoint) = true := by decide
  exact List.all_eq_true.mp hall

/-- Where the password is awaited, its value disappears. -/
theorem Awaited.redact_eq {a v w : Text} (h : Awaited a) (hv : Alphanumeric v)
    (hw : Alphanumeric w) : redact (a ++ label ++ v) = redact (a ++ label ++ w) := by
  obtain ⟨out, hout⟩ := h.absorbs sound_password rfl
  have hone (u : Text) (hu : Alphanumeric u) :
      password.redact (screened (a ++ label ++ u)) = ⟨out⟩ := by
    rw [(screened_append hu.tokens).1]
    exact Pattern.redact_eq_of_passes sound_password (hout u.points hu.1 hu.tokens)
  rw [redact_eq_screened, redact_eq_screened, hone v hv, hone w hw]

/-- Where it is not, its value is kept to the end. The pattern for passwords awaits
nothing there; the one for tokens, which comes after it, finds the sign of the label in
front of the value and no name of its own before that. -/
theorem redact_of_not_awaited {a v : Text} (h : ¬Awaited a) (hv : Alphanumeric v) :
    redact (a ++ label ++ v) = redact (a ++ label) ++ v := by
  obtain ⟨hscreened, hlast⟩ := screened_append (a := a) hv.tokens
  have hpasses := Pattern.passes_redact sound_password (screened (a ++ label))
  have hkept : password.redact (screened (a ++ label) ++ v)
      = password.redact (screened (a ++ label)) ++ v :=
    Pattern.redact_eq_of_passes sound_password (hpasses.append sound_password h hv.tokens)
  -- behind the sign that is left there is no label of a token either
  have hsign : (password.redact (screened (a ++ label))).points.getLast? = some sign :=
    (hpasses.getLast?_eq h).trans hlast
  have hends : ¬token.Ends (password.redact (screened (a ++ label))).points := by
    intro hends
    have hback : token.Ends (a ++ label).points :=
      (hends.of_passes sound_token sound_password hpasses).of_redactAll sound_token
        fun _ hq => (of_mem_earlier hq).1
    exact sound_token.not_ends_label (by decide) a.points hback
  have hno : ¬token.Awaits none (password.redact (screened (a ++ label))).points :=
    Pattern.not_awaits rfl hsign hends
  have hpasses' := Pattern.passes_redact sound_token (password.redact (screened (a ++ label)))
  rw [redact_eq_screened, redact_eq_screened, hscreened, hkept]
  exact Pattern.redact_eq_of_passes sound_token (hpasses'.append sound_token hno hv.tokens)

/-- A password is awaited unless a bearer token or a key takes in its label. -/
theorem awaited_of_not_leadsInto {a : Text} (h : ∀ q ∈ earlier, ¬q.LeadsInto a.points) :
    Awaited a := by
  obtain ⟨y, hy⟩ := Pattern.redactAll_label (fun _ hq => (of_mem_earlier hq).1)
    (fun _ hq => (of_mem_earlier hq).2.1) h (show (a ++ label).points = _ from rfl)
  have hpasses := Pattern.passes_redact sound_password (screened (a ++ label))
  rw [screened, hy] at hpasses
  have hawaits := hpasses.awaits (fun b => by cases b <;> rfl) reads_label isSecret_label
  rw [← hy] at hawaits
  exact hawaits

/-- **What shows of a password.** Two values of a password have the same outcome exactly
if they are equal or the password is awaited when its turn comes. If it is not, a bearer
token or key was announced right before the label, and the value is the end of the
outcome. Three passes come before that for passwords, and only they can take the label
away: `redactAll_label` says when they do not. -/
theorem redact_password_iff (a : Text) :
    (∀ v w, Alphanumeric v → Alphanumeric w →
      (redact (a ++ label ++ v) = redact (a ++ label ++ w) ↔ v = w ∨ Awaited a))
    ∧ (¬Awaited a → (∃ q ∈ earlier, q.LeadsInto a.points)
      ∧ ∀ v, Alphanumeric v → redact (a ++ label ++ v) = redact (a ++ label) ++ v) := by
  constructor
  · intro v w hv hw
    constructor
    · intro heq
      -- either the value is awaited and hidden, or it is kept and shows itself
      by_cases hawaited : Awaited a
      · exact .inr hawaited
      · rw [redact_of_not_awaited hawaited hv, redact_of_not_awaited hawaited hw] at heq
        have hpoints := List.append_cancel_left (congrArg Text.points heq)
        exact .inl (Text.ext hpoints)
    · rintro (rfl | hawaited)
      · rfl
      · exact hawaited.redact_eq hv hw
  · intro hno
    refine ⟨?_, fun v hv => redact_of_not_awaited hno hv⟩
    by_contra hnone
    exact hno (awaited_of_not_leadsInto fun q hq hleads => hnone ⟨q, hq, hleads⟩)

/-- Behind a name the value disappears; behind the announcement of a bearer token it
stays. -/
theorem redact_password_iff_sample :
    Alphanumeric "abc1" ∧ Alphanumeric "zzz9"
      ∧ Awaited "user=jo "
      ∧ redact ("user=jo " ++ label ++ "abc1") = redact ("user=jo " ++ label ++ "zzz9")
      ∧ ¬Awaited "Bearer " ∧ (∃ q ∈ earlier, q.LeadsInto (Text.points "Bearer "))
      ∧ redact ("Bearer " ++ label ++ "abc1") = redact ("Bearer " ++ label) ++ "abc1" := by
  have hvalues : Alphanumeric "abc1" ∧ Alphanumeric "zzz9" := by decide
  have hne : ("abc1" : Text) ≠ "zzz9" := by decide
  have hhidden : redact ("user=jo " ++ label ++ "abc1") = redact ("user=jo " ++ label ++ "zzz9") := by
    decide +kernel
  have hshown : redact ("Bearer " ++ label ++ "abc1") ≠ redact ("Bearer " ++ label ++ "zzz9") := by
    decide +kernel
  -- both sides of the equivalence, each at a text of its own
  obtain ⟨hname, _⟩ := redact_password_iff "user=jo "
  obtain ⟨hbearer, hkept⟩ := redact_password_iff "Bearer "
  have hawaited : Awaited "user=jo " :=
    ((hname _ _ hvalues.1 hvalues.2).mp hhidden).resolve_left hne
  have hno : ¬Awaited "Bearer " :=
    fun hawaited => hshown ((hbearer _ _ hvalues.1 hvalues.2).mpr (.inr hawaited))
  exact ⟨hvalues.1, hvalues.2, hawaited, hhidden, hno, (hkept hno).1, (hkept hno).2 _ hvalues.1⟩

/-- **A password that shows.** The word `password` is taken for a bearer token, and the
value that it announces stands in the outcome: two values have two outcomes. When the
passwords have their turn, the label is gone and nothing announces the value. -/
theorem bearer_shows_password :
    redact ("Bearer " ++ label ++ "abc1") = "Bearer ***REDACTED***=abc1"
      ∧ ¬∀ a v w, Alphanumeric v → Alphanumeric w →
          redact (a ++ label ++ v) = redact (a ++ label ++ w) := by
  constructor
  · decide +kernel
  · intro h
    have hsame := h "Bearer " "abc1" "zzz9" (by decide) (by decide)
    revert hsame
    decide +kernel

end Keeper.Redaction
