import Keeper.Clock.Context
import Mathlib.Algebra.Group.Nat.Defs

/-!
# Keeper — spans between readings of a clock

A span is rounded when it is measured in fractions of a second, but it does not change its sign.

* **`Seconds.Exact`** — seconds that a fraction can hold as they are.
* **`Binary64.ofInt_exact`** — whole seconds are, below `2^53` of them.
* **`Binary64.sub_nonpositive`** — a difference keeps its sign when it is rounded.
* **`Seconds.measures`** — once a time has been reached, nothing is left of the span up to it.
-/

namespace Keeper

/-! ## Whole numbers as fractions -/

theorem divRoundEven_mul_cancel {n d : Nat} (hd : 0 < d) (hdvd : d ∣ n) : divRoundEven n d * d = n := by
  have hrest : n % d = 0 := Nat.mod_eq_zero_of_dvd hdvd
  have hround : divRoundEven n d = n / d := by
    unfold divRoundEven
    simp [hrest, hd]
  rw [hround, Nat.div_mul_cancel hdvd]

namespace Binary64

/-- A number of units that ends in as many zero bits as it has bits too many is not
rounded. -/
theorem ofRatio_exact (negative : Bool) {units : Nat} (hdvd : 2 ^ excessBits units ∣ units)
    (hsmall : units < overflow) : ofRatio negative units 1 = .finite negative units := by
  have hround : divRoundEven units (2 ^ excessBits units) * 2 ^ excessBits units = units :=
    divRoundEven_mul_cancel (Nat.two_pow_pos _) hdvd
  have hpow : Nat.pow 2 (excessBits units) = 2 ^ excessBits units := rfl
  unfold ofRatio
  simp only [Nat.div_one, Nat.one_mul, hpow, hround, if_pos hsmall]

/-- A number below `2^53` does not have too many bits, shifted or not. -/
theorem dvd_of_excessBits {k : Nat} (hk : k < 2 ^ 53) (e : Nat) :
    2 ^ excessBits (k * 2 ^ e) ∣ k * 2 ^ e := by
  refine Nat.dvd_trans (Nat.pow_dvd_pow 2 ?_) (Nat.dvd_mul_left _ k)
  unfold excessBits
  rcases Nat.eq_zero_or_pos k with rfl | hpos
  · simp
  · -- With at most 53 significant bits the excess is at most `e`, which the factor covers.
    have hbelow : k * 2 ^ e < 2 ^ (53 + e) := by
      rw [Nat.pow_add]
      exact Nat.mul_lt_mul_of_pos_right hk (Nat.two_pow_pos e)
    have hne : k * 2 ^ e ≠ 0 := Nat.ne_of_gt (Nat.mul_pos hpos (Nat.two_pow_pos e))
    have hlog : (k * 2 ^ e).log2 < 53 + e := (Nat.log2_lt hne).mpr hbelow
    omega

/-- An integer below 2 to the 53rd is a fraction as it is. No bit of it is rounded away,
so times in whole seconds are compared exactly with times that have a fraction. -/
theorem ofInt_exact {i : Int} (hi : i.natAbs < 2 ^ 53) :
    ofInt i = .finite (i < 0) (i.natAbs * one) := by
  -- The scale and the overflow bound are powers of two; their exponents are all that is needed of them.
  obtain ⟨e, e', hone, hoverflow, he⟩ :
      ∃ e e', one = Nat.pow 2 e ∧ overflow = Nat.pow 2 e' ∧ 53 + e ≤ e' := by
    unfold one overflow
    exact ⟨_, _, rfl, rfl, by decide⟩
  rw [Nat.pow_eq] at hone hoverflow
  have hsmall : i.natAbs * one < overflow :=
    calc i.natAbs * one < 2 ^ 53 * 2 ^ e := by
          rw [hone]
          exact Nat.mul_lt_mul_of_pos_right hi (Nat.two_pow_pos e)
      _ = 2 ^ (53 + e) := (Nat.pow_add ..).symm
      _ ≤ 2 ^ e' := Nat.pow_le_pow_right (by decide) he
      _ = overflow := hoverflow.symm
  unfold ofInt
  refine ofRatio_exact _ ?_ hsmall
  rw [hone]
  exact dvd_of_excessBits hi e

/-- And it is compared as the same number. -/
theorem place?_ofInt {i : Int} (hi : i.natAbs < 2 ^ 53) :
    (ofInt i).place? = some (Place.ofInt i) := by
  have hunits : signedUnits (decide (i < 0)) (i.natAbs * one) = i * (one : Int) := by
    unfold signedUnits
    rcases Int.lt_or_le i 0 with hneg | hpos
    · have habs : ((i.natAbs : Nat) : Int) = -i := by omega
      rw [if_pos (by simpa using hneg), Int.natCast_mul, habs, Int.neg_mul, Int.neg_neg]
    · have habs : ((i.natAbs : Nat) : Int) = i := by omega
      rw [if_neg (by simpa using hpos), Int.natCast_mul, habs]
  rw [ofInt_exact hi]
  simp only [place?, Place.ofInt, hunits]

/-! ## The sign of a difference -/

/-- Rounding keeps the sign. -/
theorem place?_ofRatio_nonpositive (num den : Nat) {p : Place}
    (hp : (ofRatio true num den).place? = some p) : (Place.at 0).lt p = false := by
  unfold ofRatio at hp
  dsimp only at hp
  split at hp
  · obtain rfl := Option.some.inj hp
    simp only [Place.lt, signedUnits, if_true, decide_eq_false_iff_not]
    omega
  · obtain rfl := Option.some.inj hp
    rfl

/-- A sum that is not above zero does not get above it by rounding. -/
theorem place?_ofSum_nonpositive {bothNegative : Bool} {sum : Int} (hsum : sum ≤ 0) {p : Place}
    (hp : (ofSum bothNegative sum).place? = some p) : (Place.at 0).lt p = false := by
  unfold ofSum at hp
  split at hp
  next hzero =>
    obtain rfl := Option.some.inj hp
    cases bothNegative <;> simp [Place.lt, signedUnits]
  next hzero =>
    have hneg : decide (sum < 0) = true := by simpa using by omega
    rw [hneg] at hp
    exact place?_ofRatio_nonpositive _ _ hp

/-- What is not above a number leaves no more than zero when that is taken from it. The
difference may be rounded, but rounding keeps its sign. -/
theorem sub_nonpositive {x y : Binary64} {p q : Place} (hx : x.place? = some p)
    (hy : y.place? = some q) (hle : q.lt p = false) {r : Place} (hr : (x.sub y).place? = some r) :
    (Place.at 0).lt r = false := by
  match x, y with
  | .nan, _ => cases hx
  | .infinite _, .nan | .finite _ _, .nan => cases hy
  -- an infinite difference is below zero, or there is none
  | .infinite s, .infinite t =>
    cases s <;> cases t <;> cases hx <;> cases hy <;>
      first | (cases hle; done) | (cases hr; done) | (cases hr; rfl)
  | .infinite s, .finite _ _ =>
    cases s <;> cases hx <;> cases hy <;> first | (cases hle; done) | (cases hr; rfl)
  | .finite _ _, .infinite t =>
    cases t <;> cases hx <;> cases hy <;> first | (cases hle; done) | (cases hr; rfl)
  | .finite s u, .finite t v =>
    obtain rfl := Option.some.inj hx
    obtain rfl := Option.some.inj hy
    refine place?_ofSum_nonpositive ?_ hr
    have hle : signedUnits s u ≤ signedUnits t v := by simpa [Place.lt] using hle
    have hneg : signedUnits (!t) v = -signedUnits t v := by cases t <;> simp [signedUnits]
    omega

end Binary64

/-- An integer is converted to the number nearest to it, unless that is infinite; then the
conversion fails. So a span that is given by an integer is never infinite by rounding. -/
theorem Value.fractionOfInteger_cases : ∀ i : Int,
    fractionOfInteger i = .ok (Binary64.ofInt i)
      ∨ (∃ negative, Binary64.ofInt i = .infinite negative)
        ∧ fractionOfInteger i = .error (.misuse .tooLarge) := by
  suffices h : ∀ convert, convert = fractionOfInteger → ∀ i : Int, convert i = .ok (Binary64.ofInt i)
      ∨ (∃ negative, Binary64.ofInt i = .infinite negative)
        ∧ convert i = .error (.misuse .tooLarge) from h _ rfl
  -- unfolded at an argument, it would be computed with the bounds of the fractions
  delta fractionOfInteger
  generalize Binary64.ofInt = nearest
  rintro _ rfl i
  dsimp only
  generalize nearest i = x
  cases x with
  | infinite negative => exact .inr ⟨⟨negative, rfl⟩, rfl⟩
  | _ => exact .inl rfl

/-! ## What is left -/

namespace RequestContext

variable {τ : Type} [TimeScale τ]

/-- Once a time has been reached, nothing is left of the span up to it. -/
def Measures (time now : τ) : Prop :=
  TimeScale.le time now = true → ∃ left, TimeScale.sub time now = .ok left
    ∧ TimeScale.le (atLeastZero left) TimeScale.zero = true

end RequestContext

namespace Seconds

/-- Seconds that a fraction can hold as they are. -/
def Exact : Seconds → Prop
  | .whole n => n.natAbs < 2 ^ 53
  | .fraction _ => True

/-- Seconds that a fraction can hold keep their place among the numbers when they are made
one. -/
theorem Exact.toFraction {a : Seconds} (ha : a.Exact) :
    ∃ x, a.toFraction = .ok x ∧ x.place? = a.place? := by
  cases a with
  | fraction x => exact ⟨x, rfl, rfl⟩
  | whole n =>
    have hplace := Binary64.place?_ofInt ha
    have hfraction : Value.fractionOfInteger n = .ok (Binary64.ofInt n) := by
      rcases Value.fractionOfInteger_cases n with hok | ⟨⟨negative, hinfinite⟩, -⟩
      · exact hok
      · rw [Binary64.ofInt_exact ha] at hinfinite
        cases hinfinite
    exact ⟨Binary64.ofInt n, by simp only [Seconds.toFraction, hfraction], hplace⟩

/-- What has been compared has a place, so it is a number. -/
theorem places_of_le {time now : Seconds} (hle : TimeScale.le time now = true) :
    ∃ p q, time.place? = some p ∧ now.place? = some q ∧ q.lt p = false := by
  have hle : Seconds.le time now = true := hle
  unfold Seconds.le at hle
  split at hle
  next p q hp hq => exact ⟨p, q, hp, hq, by simpa using hle⟩
  next => cases hle

/-- A span that does not lie above zero counts as none. -/
theorem le_atLeastZero {left : Seconds}
    (hleft : ∀ p, left.place? = some p → (Binary64.Place.at 0).lt p = false) :
    TimeScale.le (RequestContext.atLeastZero left) TimeScale.zero = true := by
  have hlt : TimeScale.lt TimeScale.zero left = false := by
    show Seconds.lt (.fraction .zero) left = false
    unfold Seconds.lt
    cases hplace : left.place? with
    | none => rfl
    | some p => exact hleft p hplace
  unfold RequestContext.atLeastZero
  rw [hlt]
  rfl

theorem sub_wholes (m n : Int) : TimeScale.sub (whole m) (whole n) = .ok (whole (m - n)) := rfl

/-- As soon as one side is a fraction, both are. Two whole numbers are subtracted as such;
any other pair is converted first, so a large integer is rounded before anything is taken
from it. -/
theorem sub_fractions {a b : Seconds} {x y : Binary64} (hx : a.toFraction = .ok x)
    (hy : b.toFraction = .ok y) (hmixed : ∀ m n, a = .whole m → b ≠ .whole n) :
    TimeScale.sub a b = .ok (.fraction (x.sub y)) := by
  have hcombine : TimeScale.sub a b
      = (do return .fraction (Binary64.sub (← a.toFraction) (← b.toFraction))) := by
    cases a with
    | fraction x => rfl
    | whole m =>
      cases b with
      | fraction y => rfl
      | whole n => exact absurd rfl (hmixed m n rfl)
  rw [hcombine, hx, hy]
  rfl

/-- A span between times that fractions can hold is one. -/
theorem sub_exact {a b : Seconds} (ha : a.Exact) (hb : b.Exact) :
    ∃ left, TimeScale.sub a b = .ok left := by
  by_cases hwhole : ∃ m n, a = .whole m ∧ b = .whole n
  · obtain ⟨m, n, rfl, rfl⟩ := hwhole
    exact ⟨_, sub_wholes m n⟩
  · obtain ⟨x, hx, -⟩ := ha.toFraction
    obtain ⟨y, hy, -⟩ := hb.toFraction
    exact ⟨_, sub_fractions hx hy fun m n hm hn => hwhole ⟨m, n, hm, hn⟩⟩

/-- Once a time has been reached, nothing is left of the span up to it, however that is
rounded. So the comparison of times and the subtraction of times never disagree about
whether a deadline has passed. -/
theorem measures {time now : Seconds} (htime : time.Exact) (hnow : now.Exact) :
    RequestContext.Measures time now := by
  intro hdue
  obtain ⟨p, q, hp, hq, hle⟩ := places_of_le hdue
  -- Two whole numbers are subtracted as integers; any other pair is subtracted as fractions.
  by_cases hwhole : ∃ m n, time = .whole m ∧ now = .whole n
  · obtain ⟨m, n, rfl, rfl⟩ := hwhole
    refine ⟨_, sub_wholes m n, le_atLeastZero fun r hr => ?_⟩
    obtain rfl := Option.some.inj hp
    obtain rfl := Option.some.inj hq
    obtain rfl := Option.some.inj hr
    simp only [Binary64.Place.ofInt, Binary64.Place.lt, decide_eq_false_iff_not, Int.sub_mul] at hle ⊢
    omega
  · -- Rounding is monotone, so a deadline at or before now leaves no positive rest even after rounding.
    obtain ⟨x, hx, hxplace⟩ := htime.toFraction
    obtain ⟨y, hy, hyplace⟩ := hnow.toFraction
    have hsub := sub_fractions hx hy fun m n hm hn => hwhole ⟨m, n, hm, hn⟩
    exact ⟨_, hsub, le_atLeastZero fun r hr =>
      Binary64.sub_nonpositive (hxplace.trans hp) (hyplace.trans hq) hle hr⟩

end Seconds

end Keeper
