import Keeper.Cluster.Store
import Keeper.Proofs.Fields

/-!
# Keeper — versions

A store counts the versions of a manifest. It reads the version that is stored as an integer, writes
the next one in decimal, and what it has written reads as one more.

* **`Text.Decimal`** — a text of decimal digits.
* **`integerOfText_ofChars`** — what such a text is read as.
* **`Cluster.nextVersion`** — the version after the one a manifest carries.
* **`Cluster.nextVersion_ne`** — it is another one.
-/

namespace Keeper

/-! ## Texts of digits -/

/-- A text of decimal digits. -/
def Text.Decimal (t : Text) : Prop :=
  ∃ ds : List Char, t = .ofChars ds ∧ ds ≠ [] ∧ ∀ d ∈ ds, d.isDigit = true

theorem Text.Decimal.ne_empty {t : Text} (h : t.Decimal) : t ≠ "" := by
  obtain ⟨ds, rfl, hds, -⟩ := h
  intro he
  exact hds (by simpa [Text.ofChars, Text.ofString] using congrArg Text.points he)

/-- Digits are no surrogates, so JSON gives the text back as it is. -/
theorem Text.Decimal.joined {t : Text} (h : t.Decimal) : t.Joined := by
  obtain ⟨ds, rfl, -, -⟩ := h
  exact Text.joined_ofChars ds

theorem toNat_of_isDigit {c : Char} (h : c.isDigit = true) : 48 ≤ c.toNat ∧ c.toNat ≤ 57 := by
  simp only [Char.isDigit, Bool.and_eq_true, decide_eq_true_eq, ge_iff_le, UInt32.le_iff_toNat_le] at h
  exact h

/-- Digits are read as themselves: the reader of numerals knows those of other scripts
too, and blanks. -/
theorem numeralChars_of_digits {ds : List Char} (h : ∀ d ∈ ds, d.isDigit = true) :
    numeralChars (ds.map .char) = ds := by
  induction ds with
  | nil => rfl
  | cons d rest ih =>
    have hd := toNat_of_isDigit (h d (by simp))
    have hchar : numeralChar? (.char d) = some d := by
      simp only [numeralChar?]
      rw [if_pos (by omega)]
    rw [List.map_cons, numeralChars, hchar, ih fun d hd => h d (by simp [hd])]

/-- There is nothing to be dropped between digits. -/
theorem dropUnderscores?_of_digits {ds : List Char} (h : ∀ d ∈ ds, d.isDigit = true) (before : Char) :
    dropUnderscores? before ds = some ds := by
  induction ds generalizing before with
  | nil => rfl
  | cons d rest ih =>
    have hd : d ≠ '_' := by
      rintro rfl
      exact absurd (h '_' (by simp)) (by decide)
    rw [dropUnderscores?, ih fun d hd => h d (by simp [hd])]
    · rfl
    all_goals simp [hd]

theorem takeWhile_of_digits {ds : List Char} (h : ∀ d ∈ ds, d.isDigit = true) :
    ds.takeWhile (fun c => c.isDigit || c = '_') = ds := by
  induction ds with
  | nil => rfl
  | cons d rest ih => simp [h d (by simp), ih fun d hd => h d (by simp [hd])]

/-- A text of digits is read as their number, if there are not too many of them. The limit
is on the digits of the text, whatever number they make. -/
theorem Value.integerOfText_ofChars {ds : List Char} (hds : ds ≠ [])
    (h : ∀ d ∈ ds, d.isDigit = true) :
    Value.integerOfText (.ofChars ds)
      = if integerDigitLimit < ds.length then .error (.badValue (.tooManyDigits ds.length))
        else .ok (naturalOfDigits ds) := by
  obtain ⟨d, rest, rfl⟩ := List.exists_cons_of_ne_nil hds
  have hd := toNat_of_isDigit (h d (by simp))
  -- a digit is no blank, no sign and no underscore, so all of the text is the numeral
  have hblank : isNumberBlank d = false := by
    simp only [isNumberBlank, Bool.or_eq_false_iff, Bool.and_eq_false_iff, decide_eq_false_iff_not]
    refine ⟨?_, by omega⟩
    rintro rfl
    exact absurd (h ' ' (by simp)) (by decide)
  have hsign : takeSign (d :: rest) = (false, d :: rest) := by
    unfold takeSign
    split
    next heq => cases heq; exact absurd (h '-' (by simp)) (by decide)
    next heq => cases heq; exact absurd (h '+' (by simp)) (by decide)
    next => rfl
  have hrun := takeWhile_of_digits h
  have hdigits := dropUnderscores?_of_digits h ' '
  simp only [Value.integerOfText, Text.ofChars, numeralChars_of_digits h, Numeral.read,
    List.dropWhile_cons, hblank, Bool.false_eq_true, if_false, hsign, hrun, hdigits]
  -- what is left is the bound on the number of digits
  split
  next hlong => rfl
  next => simp [Value.integerOfNumeral, Binary64.signedUnits]

theorem naturalOfDigits_toDigits (n : Nat) : naturalOfDigits (Nat.toDigits 10 n) = n := by
  have h := Nat.ofDigitChars_ten_toDigits (n := n)
  rwa [Nat.ofDigitChars_eq_foldl] at h

/-- Nines are read as one less than the next power of ten. -/
theorem naturalOfDigits_nines (n : Nat) :
    naturalOfDigits (List.replicate n '9') + 1 = Nat.pow 10 n := by
  induction n with
  | zero => rfl
  | succ n ih =>
    have hstep : naturalOfDigits (List.replicate (n + 1) '9')
        = 10 * naturalOfDigits (List.replicate n '9') + 9 := by
      rw [List.replicate_succ', naturalOfDigits, List.foldl_append]
      rfl
    have hpower : Nat.pow 10 (n + 1) = Nat.pow 10 n * 10 := rfl
    omega

/-- A natural number is written in its decimal digits. -/
theorem integerText_natCast (n : Nat) : integerText n = .ofChars (Nat.toDigits 10 n) := by
  have hneg : ¬(n : Int) < 0 := by omega
  simp [integerText, hneg, Text.ofString]

/-- So every version that the store gives is a decimal text, and can be followed by
another. -/
theorem decimal_toDigits (n : Nat) : (Text.ofChars (Nat.toDigits 10 n)).Decimal :=
  ⟨_, rfl, Nat.toDigits_ne_nil, fun _ hd => Nat.isDigit_of_mem_toDigits (by omega) (by omega) hd⟩

/-! ## The next version -/

namespace Cluster

/-- The version after the one a manifest carries. -/
def nextVersion (stored : Fields) : Except Fault Text := do
  versionAfter (← ((storedVersion stored).orElse (.int 0)).toInteger)

/-- The successor of a stored manifest is the one that was sent, with the next version in
its metadata. -/
theorem succeeding_eq (stored manifest : Fields) :
    succeeding stored manifest = (nextVersion stored).map fun version =>
      withMetadata manifest [(.text "resourceVersion", .text version)] := by
  unfold succeeding nextVersion
  cases ((storedVersion stored).orElse (.int 0)).toInteger with
  | error f => rfl
  | ok n =>
    simp only [bind, Except.bind]
    cases versionAfter n <;> rfl

/-- It exists exactly where the next version does. -/
theorem succeeding_eq_ok {stored manifest next : Fields}
    (h : succeeding stored manifest = .ok next) :
    ∃ version, nextVersion stored = .ok version
      ∧ withMetadata manifest [(.text "resourceVersion", .text version)] = next := by
  rw [succeeding_eq] at h
  cases hversion : nextVersion stored with
  | error f => simp [hversion, Except.map] at h
  | ok version => exact ⟨version, rfl, by simpa [hversion, Except.map] using h⟩

/-- A manifest has no version, or a decimal one. -/
def Versioned (stored : Fields) : Prop :=
  storedVersion stored = .null ∨ ∃ t : Text, storedVersion stored = .text t ∧ t.Decimal

/-- A version that has been read is sent back as it was, and passes for the stored one. -/
theorem Versioned.eqv_self {stored : Fields} (h : Versioned stored) :
    (storedVersion stored).eqv (storedVersion stored) = true := by
  rcases h with hnull | ⟨t, ht, -⟩
  · rw [hnull]
    rfl
  · rw [ht]
    exact (Value.eqv_text _ t).mpr rfl

theorem versionAfter_eq_ok {n : Int} {version : Text} (h : versionAfter n = .ok version) :
    version = integerText (n + 1) := by
  simp only [versionAfter] at h
  split at h
  · cases h
  · exact (Except.ok.inj h).symm

/-- What a manifest's version is read as, and what the next one is then. A version that is
not there counts as zero, so the first one that is stored is one. -/
theorem nextVersion_eq_ok {stored : Fields} (h : Versioned stored) {version : Text}
    (hnext : nextVersion stored = .ok version) :
    ∃ n : Nat, version = .ofChars (Nat.toDigits 10 (n + 1))
      ∧ ∀ ds : List Char, storedVersion stored = .text (.ofChars ds) → naturalOfDigits ds = n := by
  obtain ⟨i, hi, hversion⟩ := Fault.bind_eq_ok.mp hnext
  rw [versionAfter_eq_ok hversion]
  rcases h with hnull | ⟨t, ht, ds, rfl, hne, hdigits⟩
  · rw [hnull] at hi
    obtain rfl : 0 = i := Except.ok.inj hi
    exact ⟨0, integerText_natCast 1, fun ds hds => by rw [hnull] at hds; cases hds⟩
  · have htrue : (Value.text (.ofChars ds)).truthy = true := by
      simp [Value.truthy, Scalar.truthy, Text.isEmpty, Text.ofChars, hne]
    -- a decimal version is not empty, so it is the text that is read
    rw [ht, Value.orElse, if_pos htrue] at hi
    have hread : Value.integerOfText (.ofChars ds) = .ok i := hi
    rw [Value.integerOfText_ofChars hne hdigits] at hread
    split at hread
    · cases hread
    · obtain rfl := Except.ok.inj hread
      refine ⟨naturalOfDigits ds, integerText_natCast _, fun ds' hds' => ?_⟩
      have heq : Text.ofChars ds = .ofChars ds' := by
        rw [ht] at hds'
        simpa using hds'
      rw [(Text.ofChars_inj ds ds').mp heq]

/-- The next version is decimal, and it is not the one that is stored. -/
theorem nextVersion_ne {stored : Fields} (h : Versioned stored) {version : Text}
    (hnext : nextVersion stored = .ok version) :
    version.Decimal ∧ storedVersion stored ≠ .text version := by
  obtain ⟨n, rfl, hread⟩ := nextVersion_eq_ok h hnext
  refine ⟨decimal_toDigits (n + 1), fun heq => ?_⟩
  have hn := hread _ heq
  rw [naturalOfDigits_toDigits] at hn
  omega

/-- The version that is all nines, as many as there may be digits, is followed by none. -/
theorem nextVersion_nines {stored : Fields} {n : Nat} (hn : n = integerDigitLimit)
    (h : storedVersion stored = .text (.ofChars (List.replicate n '9'))) :
    nextVersion stored = .error (.badValue .unwritableInteger) := by
  have hne : List.replicate n '9' ≠ [] := by
    rw [ne_eq, List.replicate_eq_nil_iff, hn]
    decide
  -- A row of nines with as many digits as may be is still read.
  have hread : Value.integerOfText (.ofChars (List.replicate n '9'))
      = .ok (naturalOfDigits (List.replicate n '9')) := by
    rw [Value.integerOfText_ofChars hne, if_neg]
    · rw [List.length_replicate, hn]
      omega
    · intro d hd
      rw [List.eq_of_mem_replicate hd]
      decide
  have htrue : (Value.text (.ofChars (List.replicate n '9'))).truthy = true := by
    have hzero : n ≠ 0 := by rw [hn]; decide
    simp [Value.truthy, Scalar.truthy, Text.isEmpty, Text.ofChars, hzero]
  -- one more has one digit more than can be written
  have hlong : Nat.pow 10 integerDigitLimit
      ≤ ((naturalOfDigits (List.replicate n '9') : Int) + 1).natAbs := by
    have hnines := naturalOfDigits_nines n
    rw [hn] at hnines
    rw [hn, ← hnines]
    omega
  unfold nextVersion
  rw [h, Value.orElse, if_pos htrue]
  show (Value.integerOfText _ >>= fun i => versionAfter i) = _
  rw [hread]
  simp only [bind, Except.bind, versionAfter]
  split
  next => rfl
  next hshort => exact absurd hlong hshort

end Cluster

end Keeper
