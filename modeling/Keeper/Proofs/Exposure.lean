import Keeper.Proofs.Places
import Keeper.Proofs.Redaction

/-!
# Keeper — what a redacted record shows

A record is redacted in pieces, its template and its arguments one by one, and put together afterwards.
Whether the message is without secrets then depends on what meets in it.

* **`Sheltered`** — a place in a message that redaction has seen as a whole: within an argument that is a
  text, or within the literal text of the template.
* **`Finds.of_text`**, **`Finds.of_literal`** — what is found in such a place is a replacement.
* **`Veiled`**, **`redact_shown_iff`** — redaction has nothing to do in a message exactly if everything
  that is found elsewhere is a replacement as well.
* **`redacted_record_shows`** — a redacted record shows such a message, or nothing at all, because its
  template has lost a place to a password.
* **`redacted_map_shows`** — the same of a record whose only argument is a map.
* **`password_refused`** — a record that is lost.
-/

namespace Keeper.Redaction

open Log (Argument Part Record Composes text_of_surplus shown_map_literal argumentsOf_map_literal
  percent spelled shown spelled_nil spelled_cons spelled_append shown_cons shown_append argumentsOf
  argumentsOf_append)

/-! ## Places that redaction has seen -/

/-- A part of a message that redaction has seen as a whole, `x` being what precedes it. In
the template a pattern that asks for the start of a word has seen a placeholder before
what follows it. -/
inductive Sheltered (ps : List Part) (p : Pattern) (x u : List CodePoint) : Prop where
  | text (front back : List Part) (s : Text) (y z : List CodePoint)
      (hps : ps = front ++ .argument (.value (.text s)) :: back) (hx : x = shown front ++ y)
      (hs : s.points = y ++ (u ++ z))
  | literal (front back : List Part) (hps : ps = front ++ (u.map .literal ++ back))
      (hx : x = shown front) (hstart : p.atWordStart = true → ∀ q ∈ front.getLast?, q.argument? = none)

namespace Pattern

variable {p : Pattern} {ann secret rest : List CodePoint}

/-- What is found within a text is found in this text by itself. A match looks one
character back and one ahead; at the borders of the text there is less to object to, not
more. -/
theorem Finds.within {before : Option CodePoint} {y z back : List CodePoint}
    (h : p.Finds (lastFrom before y) ann secret (z ++ back)) :
    p.Finds (lastFrom none y) ann secret z where
  follows := by
    -- With nothing kept in front of the match, the start of the text is still the start.
    cases y with
    | nil => rfl
    | cons d y => exact h.follows
  announced := h.announced
  isSecret := h.isSecret
  least := h.least
  ends := by
    intro d hd
    refine h.ends d ?_
    rw [List.head?_append, Option.mem_def.mp hd]
    rfl

/-- What is found within an argument that is settled is a replacement. So formatting a
redacted argument into a message shows nothing that redacting the message would still
hide. -/
theorem Finds.of_text {front back : List Part} {s : Text} {y z : List CodePoint}
    (hsettled : p.Settled none s.points) (hs : s.points = y ++ ((ann ++ secret) ++ z))
    (hrest : shown (front ++ .argument (.value (.text s)) :: back)
      = shown front ++ y ++ (ann ++ (secret ++ rest)))
    (h : p.Finds (lastFrom none (shown front ++ y)) ann secret rest) :
    secret = replacement.points := by
  have hshown : (Part.argument (.value (.text s))).shown = y ++ ((ann ++ secret) ++ z) := hs
  rw [shown_append, shown_cons, hshown] at hrest
  simp only [List.append_assoc, List.append_cancel_left_eq] at hrest
  subst hrest
  rw [lastFrom_append] at h
  refine hsettled y ann secret z ?_ h.within
  rw [hs, List.append_assoc]

/-- What precedes the part behind a literal is the literal, whether it is spelled with one
sign or two. -/
theorem lastFrom_literal (before : Option CodePoint) (c : CodePoint) :
    lastFrom before (Part.literal c).spelled = some c := by
  by_cases hc : c = percent
  · rw [Part.spelled, if_pos hc, hc]
    rfl
  · rw [Part.spelled, if_neg hc]
    rfl

/-- Literal text has before it in the template what it has before it in the message, if
that is literal text. -/
theorem mayFollow_spelled {front : List Part}
    (hstart : p.atWordStart = true → ∀ q ∈ front.getLast?, q.argument? = none)
    (h : p.mayFollow (lastFrom none (shown front)) = true) :
    p.mayFollow (lastFrom none (spelled front)) = true := by
  -- Only the pattern that asks for a word start looks at the character before the match.
  by_cases hword : p.atWordStart = true
  · rcases List.eq_nil_or_concat front with rfl | ⟨front, part, rfl⟩
    · exact h
    · rw [List.concat_eq_append] at h hstart ⊢
      rw [shown_append, lastFrom_append] at h
      rw [spelled_append, lastFrom_append]
      cases part with
      -- A placeholder spells letters, so the template must not end in one there; `hstart` says so.
      | argument a => nomatch hstart hword (.argument a) (List.getLast?_concat)
      | literal c =>
        rw [spelled_cons, spelled_nil, List.append_nil, lastFrom_literal]
        exact h
  · cases lastFrom none (spelled front) with
    | none => rfl
    | some d => rw [mayFollow, Bool.eq_false_iff.mpr hword, Bool.false_and]; rfl

theorem mem_spelled_literal {u : List CodePoint} {d : CodePoint}
    (hd : d ∈ spelled (u.map .literal)) : d ∈ u := by
  obtain ⟨part, hpart, hd⟩ := List.mem_flatMap.mp hd
  obtain ⟨c, hc, rfl⟩ := List.mem_map.mp hpart
  rw [Part.spelled] at hd
  split at hd <;> simp_all

/-- A run that ends where a message goes on ends there in the template, unless a percent
sign belongs to it. -/
theorem takeWhile_spelled {f : CodePoint → Bool} {back : List Part}
    (hends : ∀ d ∈ (shown back).head?, f d = false)
    (hpercent : percent ∉ (spelled back).takeWhile f) : (spelled back).takeWhile f = [] := by
  cases back with
  | nil => rfl
  | cons part back =>
    -- The run can only stop at a literal or at the percent sign a placeholder begins with.
    rcases spelled_cases part with ⟨c, _, rfl, hpart⟩ | ⟨d, _, hpart⟩
    · have hc : ¬f c = true := by
        rw [hends c rfl]
        exact Bool.false_ne_true
      rw [spelled_cons, hpart]
      exact List.takeWhile_cons_of_neg hc
    · rw [spelled_cons, hpart] at hpercent ⊢
      by_cases hf : f percent = true
      · refine absurd ?_ hpercent
        rw [List.cons_append, List.takeWhile_cons_of_pos hf]
        exact List.mem_cons_self
      · exact List.takeWhile_cons_of_neg hf

/-- What is found within literal text is found in the template, the percent signs of the
secret doubled, and the secret perhaps going on there. -/
theorem Finds.in_template {before before' : Option CodePoint} {back : List Part}
    (h : p.Finds before ann secret (shown back)) (hfollows : p.mayFollow before' = true) :
    p.Finds before' ann (spelled (secret.map .literal) ++ (spelled back).takeWhile p.isSecret)
      ((spelled back).dropWhile p.isSecret) where
  follows := hfollows
  announced := h.announced
  isSecret := by
    intro d hd
    rcases List.mem_append.mp hd with hd | hd
    · exact h.isSecret d (mem_spelled_literal hd)
    · exact List.all_eq_true.mp List.all_takeWhile d hd
  -- Spelling a literal never makes it shorter: a percent sign is doubled, the rest stays.
  least := by
    have hlong := Log.length_le_spelled (secret.map .literal)
    have hleast := h.least
    rw [List.length_map] at hlong
    rw [List.length_append]
    omega
  ends := head?_dropWhile (spelled back)

/-- What is found within literal text that is settled in the template is a replacement.
The same as `Finds.of_text`, except that the template spells its percent signs twice, so
lengths differ and the ends have to be compared. -/
theorem Finds.of_literal (havoids : p.AvoidsPlaces) {front back : List Part}
    (hsettled : p.Settled none (spelled (front ++ ((ann ++ secret).map .literal ++ back))))
    (hfollows : p.mayFollow (lastFrom none (spelled front)) = true)
    {before : Option CodePoint} (h : p.Finds before ann secret (shown back)) :
    secret = replacement.points := by
  have hmark : spelled (secret.map .literal) ++ (spelled back).takeWhile p.isSecret
      = replacement.points := by
    refine hsettled (spelled front) ann _ _ ?_ (h.in_template hfollows)
    rw [List.append_assoc, List.takeWhile_append_dropWhile, spelled_append, spelled_append,
      List.map_append, spelled_append, spelled_map_literal (havoids.percent_notMem h.announced),
      List.append_assoc]
  -- a replacement has no percent sign, so none was doubled, and the secret does not go on
  have hpercent : percent ∉ secret := by
    intro hmem
    refine percent_notMem_replacement ?_
    rw [← hmark]
    exact List.mem_append_left _ (List.mem_flatMap.mpr
      ⟨.literal percent, List.mem_map_of_mem hmem, List.mem_cons_self⟩)
  have hends : (spelled back).takeWhile p.isSecret = [] := by
    refine takeWhile_spelled h.ends fun hmem => percent_notMem_replacement ?_
    rw [← hmark]
    exact List.mem_append_right _ hmem
  rwa [spelled_map_literal hpercent, hends, List.append_nil] at hmark

end Pattern

/-! ## What shows in a message -/

/-- Every secret that is found in a message, and not in a place that redaction has seen,
is a replacement. -/
def Veiled (ps : List Part) : Prop :=
  ∀ p ∈ patterns, ∀ x ann secret rest, shown ps = x ++ (ann ++ (secret ++ rest)) →
    p.Finds (lastFrom none x) ann secret rest → ¬Sheltered ps p x (ann ++ secret) →
      secret = replacement.points

/-- Redaction leaves a text exactly if every secret in it has been replaced before. -/
theorem redact_eq_self_iff (t : Text) :
    redact t = t ↔ ∀ p ∈ patterns, p.Settled none t.points := by
  constructor
  · intro h
    rw [← h]
    exact settled_redact t
  · intro h
    rw [redact_eq_redactAll]
    exact redactAll_eq_self fun p hp => (h p hp).redact_eq (sound_of_mem_patterns hp)

/-- Redaction has nothing to do in a message, whose template and texts are settled,
exactly if it is veiled. -/
theorem redact_shown_iff {ps : List Part}
    (htemplate : ∀ p ∈ patterns, p.Settled none (spelled ps))
    (htexts : ∀ s, .argument (.value (.text s)) ∈ ps → ∀ p ∈ patterns, p.Settled none s.points) :
    redact ⟨shown ps⟩ = ⟨shown ps⟩ ↔ Veiled ps := by
  rw [redact_eq_self_iff]
  constructor
  · intro h p hp x ann secret rest hsplit hfinds _
    exact h p hp x ann secret rest hsplit hfinds
  · intro h p hp x ann secret rest hsplit hfinds
    -- A match within one text argument or one stretch of literals was already masked before formatting,
    -- so only a match that crosses their border can be left.
    by_cases hsheltered : Sheltered ps p x (ann ++ secret)
    · cases hsheltered with
      | text front back s y z hps hx hs =>
        subst hps hx
        have hmem : Part.argument (.value (.text s)) ∈ front ++ .argument (.value (.text s)) :: back :=
          List.mem_append_right front List.mem_cons_self
        exact hfinds.of_text (htexts s hmem p hp) hs hsplit
      | literal front back hps hx hstart =>
        subst hps hx
        rw [shown_append, shown_append, shown_map_literal, List.append_cancel_left_eq, List.append_assoc,
          List.append_cancel_left_eq, List.append_cancel_left_eq] at hsplit
        subst hsplit
        exact hfinds.of_literal (patterns_avoid p hp) (htemplate p hp)
          (Pattern.mayFollow_spelled hstart hfinds.follows)
    · exact h p hp x ann secret rest hsplit hfinds hsheltered

/-! ## A redacted record -/

/-- A part of a message, its argument exchanged for another. -/
def exchangedPart (f : Argument → Argument) : Part → Part
  | .literal c => .literal c
  | .argument a => .argument (f a)

/-- A part of a message, its argument redacted. -/
def redactedPart : Part → Part := exchangedPart Argument.redacted

/-- A template is spelled without its arguments, so exchanging them leaves it. -/
theorem spelled_exchanged (f : Argument → Argument) (ps : List Part) :
    spelled (ps.map (exchangedPart f)) = spelled ps := by
  induction ps with
  | nil => rfl
  | cons part ps ih =>
    rw [List.map_cons, spelled_cons, spelled_cons, ih]
    cases part <;> rfl

/-- And the arguments are the exchanged ones, in their order. -/
theorem argumentsOf_exchanged (f : Argument → Argument) (ps : List Part) :
    argumentsOf (ps.map (exchangedPart f)) = (argumentsOf ps).map f := by
  induction ps with
  | nil => rfl
  | cons part ps ih =>
    cases part with
    | literal c => exact ih
    | argument a => exact congrArg (f a :: ·) ih

/-- An argument that is a text after its redaction was redacted. Masking leaves the shape
of an argument alone, so it was a text before; and what `redact` gives is settled for
every pattern. -/
theorem settled_of_mem_redacted {ps : List Part} {s : Text}
    (h : .argument (.value (.text s)) ∈ ps.map redactedPart) : ∀ p ∈ patterns, p.Settled none s.points := by
  obtain ⟨part, _, hpart⟩ := List.mem_map.mp h
  -- Masking leaves the shape of an argument alone, so a text afterwards was a text before, masked.
  have hs : ∃ s', s = redact s' := by
    cases part with
    | literal c => nomatch hpart
    | argument a =>
      have ha : a.redacted = .value (.text s) := Part.argument.inj hpart
      unfold Argument.redacted at ha
      split at ha
      next s' _ =>
        cases ha
        exact ⟨s', rfl⟩
      next hnot => exact absurd ha (hnot s)
  obtain ⟨s', rfl⟩ := hs
  exact settled_redact s'

/-- A message without arguments is redacted as a whole. -/
theorem veiled_bare (t : Text) :
    Composes ((redact t).points.map .literal) (redact t) []
      ∧ (redact ⟨shown ((redact t).points.map .literal)⟩ = ⟨shown ((redact t).points.map .literal)⟩
        ↔ Veiled ((redact t).points.map .literal)) := by
  have hshown : shown ((redact t).points.map .literal) = (redact t).points := shown_map_literal _
  refine ⟨⟨argumentsOf_map_literal _, hshown.symm⟩, fun _ => ?_, fun _ => ?_⟩
  · intro p hp x ann secret rest hsplit hfinds _
    rw [hshown] at hsplit
    exact settled_redact t p hp x ann secret rest hsplit hfinds
  · rw [hshown]
    exact (redact_eq_self_iff (redact t)).mpr (settled_redact t)

/-- A message whose template has kept its places. Its parts are the template's own, with
the redacted arguments in the places, so it is one more case of `redact_shown_iff`. -/
theorem veiled_of_places {t : Text} {args : List Argument} {qs : List Part} (hne : args.isEmpty = false)
    (hqs : (redact t).points = spelled qs) (hplaces : argumentsOf qs = args) :
    Composes (qs.map redactedPart) (redact t) (args.map Argument.redacted)
      ∧ (redact ⟨shown (qs.map redactedPart)⟩ = ⟨shown (qs.map redactedPart)⟩
        ↔ Veiled (qs.map redactedPart)) := by
  refine ⟨⟨?_, ?_⟩, redact_shown_iff ?_ fun s => settled_of_mem_redacted⟩
  · rw [redactedPart, argumentsOf_exchanged, hplaces]
  · rw [List.isEmpty_map, hne, if_neg Bool.false_ne_true, hqs, redactedPart, spelled_exchanged]
  · rw [redactedPart, spelled_exchanged, ← hqs]
    exact settled_redact t

/-- A record of literal text and placeholders, once it is redacted: either it still shows
a message, of the redacted template and the redacted arguments, and redaction has nothing
to do in this message exactly if it is veiled; or it shows nothing, and its template
announces a password with a percent sign in it. Template and arguments are redacted apart,
so what remains to be hidden is what crosses their borders: `Veiled` says that nothing
does. -/
theorem redacted_record_shows {t : Text} {args : List Argument} {ps : List Part}
    (h : Composes ps t args) :
    Record.text ⟨.text t, .positional args⟩ = .ok ⟨shown ps⟩
      ∧ ((∃ qs, Composes qs (redact t) (args.map Argument.redacted)
            ∧ (Record.redacted ⟨.text t, .positional args⟩).text = .ok ⟨shown qs⟩
            ∧ (redact ⟨shown qs⟩ = ⟨shown qs⟩ ↔ Veiled qs))
        ∨ (Record.redacted ⟨.text t, .positional args⟩).text = Value.misused .wrongType
            ∧ args ≠ [] ∧ password.Takes t.points) := by
  refine ⟨h.text_eq, ?_⟩
  cases hargs : args with
  | nil =>
    obtain ⟨hcomposes, hveiled⟩ := veiled_bare t
    exact .inl ⟨_, hcomposes, hcomposes.text_eq, hveiled⟩
  | cons a rest =>
    have htemplate : t.points = spelled ps := by
      rw [h.template, hargs]
      rfl
    obtain ⟨qs, hqs, hsub, hall⟩ := redact_spelled htemplate
    rw [h.arguments, hargs] at hsub hall
    by_cases hplaces : argumentsOf qs = a :: rest
    · obtain ⟨hcomposes, hveiled⟩ := veiled_of_places rfl hqs hplaces
      exact .inl ⟨_, hcomposes, hcomposes.text_eq, hveiled⟩
    · -- an argument is left over
      have hfewer : (argumentsOf qs).length < ((a :: rest).map Argument.redacted).length := by
        rw [List.length_map]
        exact Nat.lt_of_le_of_ne hsub.length_le fun hlength => hplaces (hsub.eq_of_length hlength)
      exact .inr ⟨text_of_surplus hqs hfewer, List.cons_ne_nil a rest, hall.resolve_left hplaces⟩

/-- A key in a text and a token in the template are replaced, and an error is shown as it
is. -/
theorem redacted_record_shows_failure :
    let t : Text := "sync of %s failed (%s), token=t1"
    let args : List Argument := [("api_key=k1" : Text), .object "timeout"]
    let r : Text := "sync of api_key=***REDACTED*** failed (timeout), token=***REDACTED***"
    (Record.redacted ⟨.text t, .positional args⟩).text = .ok r
      ∧ ∃ qs, Composes qs (redact t) (args.map Argument.redacted) ∧ shown qs = r.points
        ∧ (redact r = r ↔ Veiled qs) := by
  intro t args r
  let literal (s : String) : List Part := s.toList.map fun c => .literal (.char c)
  let ps : List Part := literal "sync of " ++ .argument ("api_key=k1" : Text) :: (literal " failed ("
    ++ .argument (.object "timeout") :: literal "), token=t1")
  have hps : Composes ps t args := ⟨rfl, rfl⟩
  have hshows : (Record.redacted ⟨.text t, .positional args⟩).text.toOption = some r := by
    decide +kernel
  -- Formatting succeeds here, which rules out the second case of the general theorem.
  obtain ⟨_, ⟨qs, hqs, htext, hveiled⟩ | ⟨hrefused, _⟩⟩ := redacted_record_shows hps
  · rw [htext] at hshows
    have hr : r = ⟨shown qs⟩ := (Option.some.inj hshows).symm
    rw [hr]
    exact ⟨htext, qs, hqs, rfl, hveiled⟩
  · rw [hrefused] at hshows
    nomatch hshows

example :
    let r := Record.redacted ⟨.text "%s, token=%s", .positional [.object "password=x1", ("t1" : Text)]⟩
    r.text.toOption = some "password=x1, token=t1"
      ∧ redact "password=x1, token=t1" = "password=***REDACTED***, token=***REDACTED***" := by
  decide +kernel

/-! ## A map as the only argument -/

/-- What redaction makes of a map: its values are texts then, its keys are not
looked at. -/
def redactedMap (fields : Fields) : Fields := fields.map fun e => (e.1, .text (redact e.2.display))

/-- A record whose only argument is a map, once it is redacted. The map is redacted value
by value, and shown as a whole, so the keys and what stands between them and the values
have not been looked at. Where a password has taken the place of the map, nothing is left
over, and the message is shown without it. In either case redaction has nothing to do in
the message exactly if it is veiled. -/
theorem redacted_map_shows {t : Text} {fields : Fields} (hne : fields ≠ []) {ps : List Part}
    (h : Composes ps t [.value (.map fields)]) :
    Record.text (.make (.text t) [.value (.map fields)]) = .ok ⟨shown ps⟩
      ∧ ∃ qs, (redact t).points = spelled qs
        ∧ (argumentsOf qs = [.value (.map (redactedMap fields))]
          ∨ argumentsOf qs = [] ∧ password.Takes t.points)
        ∧ (Record.redacted (.make (.text t) [.value (.map fields)])).text = .ok ⟨shown qs⟩
        ∧ (redact ⟨shown qs⟩ = ⟨shown qs⟩ ↔ Veiled qs) := by
  obtain ⟨e, rest, rfl⟩ := List.exists_cons_of_ne_nil hne
  have hmake : Record.make (.text t) [.value (.map (e :: rest))] = ⟨.text t, .keyed (e :: rest)⟩ := rfl
  rw [hmake]
  have htemplate : t.points = spelled ps := h.template
  refine ⟨Log.text_of_map hne htemplate (.inl h.arguments), ?_⟩
  obtain ⟨qs, hqs, hsub, hall⟩ := redact_spelled htemplate
  rw [h.arguments] at hsub hall
  -- the map that was redacted stands where the map did
  let redacted : Argument := .value (.map (redactedMap (e :: rest)))
  have hspelled : (redact t).points = spelled (qs.map (exchangedPart fun _ => redacted)) := by
    rw [spelled_exchanged, hqs]
  have harguments : argumentsOf (qs.map (exchangedPart fun _ => redacted)) = [redacted]
      ∨ argumentsOf (qs.map (exchangedPart fun _ => redacted)) = [] ∧ password.Takes t.points := by
    rw [argumentsOf_exchanged]
    rcases List.sublist_singleton.mp hsub with hnone | hplace
    · refine .inr ⟨by rw [hnone, List.map_nil], hall.resolve_left ?_⟩
      simp [hnone]
    · exact .inl (by rw [hplace]; rfl)
  refine ⟨_, hspelled, harguments, ?_, redact_shown_iff ?_ fun s hs => ?_⟩
  · exact Log.text_of_map (List.cons_ne_nil _ _) hspelled (harguments.imp_right And.left)
  · rw [← hspelled]
    exact settled_redact t
  · -- no argument is a text
    have hmem : Argument.value (.text s) ∈ argumentsOf (qs.map (exchangedPart fun _ => redacted)) :=
      List.mem_filterMap.mpr ⟨_, hs, rfl⟩
    rcases harguments with hplace | ⟨hnone, -⟩
    · rw [hplace] at hmem
      have hmap : Value.text s = .map _ := Argument.value.inj (List.mem_singleton.mp hmem)
      cases hmap
    · rw [hnone] at hmem
      cases hmem

/-- The value was redacted as a text by itself; in the map the bracket behind it counts as
a part of the password. -/
example :
    let r := Record.redacted (.make (.text "%s") [.value (.map [("x", .text "password=a1")])])
    r.text.toOption = some "\x7b'x': 'password=***REDACTED***'\x7d"
      ∧ redact "\x7b'x': 'password=***REDACTED***'\x7d" = "\x7b'x': 'password=***REDACTED***" := by
  decide +kernel

/-- A password that is an argument is lost, and its message with it: the template
announces it, and its placeholder is taken for the password. What is left has one argument
too many, and is not formatted at all. -/
theorem password_refused :
    let t : Text := "password=%s"
    let args : List Argument := [("hunter2" : Text)]
    (∃ ps, Composes ps t args) ∧ Record.text ⟨.text t, .positional args⟩ = .ok "password=hunter2"
      ∧ (Record.redacted ⟨.text t, .positional args⟩).text = Value.misused .wrongType := by
  intro t args
  let ps : List Part := ("password=" : Text).points.map .literal ++ [.argument ("hunter2" : Text)]
  let u : Text := "password=***REDACTED***"
  have hps : Composes ps t args := ⟨rfl, rfl⟩
  have hredact : redact t = u := by decide +kernel
  refine ⟨⟨ps, hps⟩, hps.text_eq, ?_⟩
  -- The mask swallows the placeholder, so one argument is left over and formatting refuses it.
  show Record.text ⟨.text (redact t), .positional (args.map Argument.redacted)⟩ = _
  rw [hredact]
  have hliteral : u.points = spelled (u.points.map .literal) := rfl
  exact text_of_surplus hliteral (by decide)

end Keeper.Redaction
