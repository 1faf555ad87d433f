import Mathlib
import PrintPath.Number.Value

/-!
# Rounding passes over no double

An operation on doubles computes a number and rounds it.  Little of how that is done matters
later, only that no double lies strictly between the number and what it is rounded to.  This
is what `Rounds` says, and it is enough for bounds (`Rounds.within`), for signs, and for
exactness: a number that is one of a double is rounded to that (`Rounds.real_eq`).

Rounding cuts digits off a mantissa and looks at them through two bits, so the main invariant
is about a mantissa with two bits (`Truncates`): it gives the whole part of a number, and the
bits are clear if there is nothing else.  Each shift by one digit keeps the invariant, for
half the number, so a mantissa that was computed with enough digits is cut to the whole part
that the doubles have room for (`stored_roundWithAccuracy`).
-/

namespace PrintPath
namespace Number

open Float.Model (UnpackedFloat Format totalExponent)
open Float.Model.UnpackedFloat

/-! ## Mantissas with a rest -/

/-- A mantissa with two bits gives the whole part of a number, and the bits are clear if the
number is whole. -/
structure Truncates (em : ExtendedMantissa) (x : ℝ) : Prop where
  le : (em.mantissa : ℝ) ≤ x
  lt : x < em.mantissa + 1
  exact_iff : x = em.mantissa ↔ em.roundBit = false ∧ em.stickyBit = false

namespace Truncates

variable {em : ExtendedMantissa} {x : ℝ}

theorem ofMantissaAndAccuracy {mantissa : ℕ} {accuracy : Accuracy} (hle : (mantissa : ℝ) ≤ x)
    (hlt : x < mantissa + 1) (hexact : x = mantissa ↔ accuracy = .exact) :
    Truncates (.ofMantissaAndAccuracy mantissa accuracy) x := by
  rcases accuracy with _ | _ | _ | _
  all_goals exact ⟨hle, hlt, by simpa [ExtendedMantissa.ofMantissaAndAccuracy] using hexact⟩

/-- **One digit less** is the whole part of half the number. -/
theorem shiftRightOne (h : Truncates em x) : Truncates em.shiftRightOne (x / 2) := by
  obtain ⟨hle, hlt, hexact⟩ := h
  obtain ⟨half, heven | hodd⟩ := Nat.even_or_odd' em.mantissa
  · have hmantissa : em.shiftRightOne.mantissa = half := by
      show em.mantissa / 2 = half
      omega
    have hround : em.shiftRightOne.roundBit = false := by
      show (em.mantissa % 2 != 0) = false
      simp [heven]
    have hcast : (em.mantissa : ℝ) = 2 * half := by
      exact_mod_cast heven
    rw [hcast] at hle hlt hexact
    refine ⟨?_, ?_, ?_⟩
    · rw [hmantissa]
      linarith
    · rw [hmantissa]
      linarith
    · have hsticky : em.shiftRightOne.stickyBit = false ↔
          em.roundBit = false ∧ em.stickyBit = false := Bool.or_eq_false_iff
      rw [hmantissa, hround, hsticky, ← hexact, div_eq_iff two_ne_zero, mul_comm]
      exact (and_iff_right rfl).symm
  · have hmantissa : em.shiftRightOne.mantissa = half := by
      show em.mantissa / 2 = half
      omega
    have hround : em.shiftRightOne.roundBit = true := by
      show (em.mantissa % 2 != 0) = true
      simp [hodd]
    have hcast : (em.mantissa : ℝ) = 2 * half + 1 := by
      exact_mod_cast hodd
    rw [hcast] at hle hlt
    refine ⟨?_, ?_, ?_⟩
    · rw [hmantissa]
      linarith
    · rw [hmantissa]
      linarith
    · rw [hmantissa, hround]
      constructor
      · intro heq
        linarith
      · rintro ⟨habsurd, -⟩
        exact absurd habsurd.symm Bool.false_ne_true

/-- Some digits less. -/
theorem shiftRight (h : Truncates em x) (count : ℕ) :
    Truncates (em >>> count) (x / 2 ^ count) := by
  induction count with
  | zero =>
    rw [pow_zero, div_one]
    exact h
  | succ count ih =>
    rw [pow_succ, ← div_div]
    exact ih.shiftRightOne

/-- A mantissa is rounded to itself if there is no rest, and to itself or the next one
otherwise. -/
theorem roundedMantissa_cases (h : Truncates em x) :
    em.roundedMantissa = em.mantissa ∨
      (em.mantissa : ℝ) < x ∧ em.roundedMantissa = em.mantissa + 1 := by
  obtain ⟨mantissa, roundBit, stickyBit⟩ := em
  have hrest (hbits : ¬ (roundBit = false ∧ stickyBit = false)) : (mantissa : ℝ) < x :=
    lt_of_le_of_ne h.le fun heq => hbits (h.exact_iff.mp heq.symm)
  cases roundBit with
  | false =>
    left
    cases stickyBit <;> rfl
  | true =>
    cases stickyBit with
    | true => exact Or.inr ⟨hrest (by simp), rfl⟩
    | false =>
      have htie : ExtendedMantissa.roundedMantissa ⟨mantissa, true, false⟩ =
          mantissa + mantissa % 2 := rfl
      rw [htie]
      rcases Nat.mod_two_eq_zero_or_one mantissa with hzero | hone
      · exact Or.inl (by rw [hzero, Nat.add_zero])
      · exact Or.inr ⟨hrest (by simp), by rw [hone]⟩

/-- **A mantissa is rounded past no whole number.** -/
theorem roundedMantissa (h : Truncates em x) (n : ℕ) :
    ((n : ℝ) ≤ x → n ≤ em.roundedMantissa) ∧ (x ≤ n → em.roundedMantissa ≤ n) := by
  have hle := h.le
  have hlt := h.lt
  constructor
  · intro hn
    have hmantissa : n < em.mantissa + 1 := by
      exact_mod_cast hn.trans_lt hlt
    rcases h.roundedMantissa_cases with heq | ⟨-, heq⟩
    · omega
    · omega
  · intro hn
    rcases h.roundedMantissa_cases with heq | ⟨hrest, heq⟩
    · have hmantissa : em.mantissa ≤ n := by
        exact_mod_cast hle.trans hn
      omega
    · have hmantissa : em.mantissa < n := by
        exact_mod_cast hrest.trans_le hn
      omega

end Truncates

theorem mantissa_shiftRight (em : ExtendedMantissa) (count : ℕ) :
    (em >>> count).mantissa = em.mantissa / 2 ^ count := by
  induction count with
  | zero => exact (Nat.div_one _).symm
  | succ count ih =>
    show (em >>> count).mantissa / 2 = _
    rw [ih, Nat.div_div_eq_div_mul, pow_succ]

theorem mantissa_ofMantissaAndAccuracy (mantissa : ℕ) (accuracy : Accuracy) :
    (ExtendedMantissa.ofMantissaAndAccuracy mantissa accuracy).mantissa = mantissa := by
  rcases accuracy with _ | _ | _ | _ <;> rfl

/-! ## What a number is stored as -/

/-- A mantissa and a power that a positive number is rounded to: no number of at most 53
digits lies strictly between. -/
structure Stored (q : ℝ) (mantissa : ℕ) (exponent : ℤ) : Prop where
  canonical : Canonical mantissa exponent
  le : ∀ (n : ℕ) (f : ℤ), n ≤ 2 ^ 53 → -1074 ≤ f → (n : ℝ) * 2 ^ f ≤ q →
    (n : ℝ) * 2 ^ f ≤ mantissa * 2 ^ exponent
  ge : ∀ (n : ℕ) (f : ℤ), n ≤ 2 ^ 53 → -1074 ≤ f → q ≤ (n : ℝ) * 2 ^ f →
    (mantissa : ℝ) * 2 ^ exponent ≤ n * 2 ^ f

/-- The unpacked double with a mantissa, which may be zero. -/
def unpackedOf (sign : Sign) (mantissa : ℕ) (exponent : ℤ) : UnpackedFloat :=
  if h : mantissa = 0 then .zero sign
  else .finite sign mantissa exponent (Nat.pos_of_ne_zero h)

theorem zpow_eq_mul_pow {e t : ℤ} {shift : ℕ} (h : t = e + shift) :
    (2 : ℝ) ^ t = 2 ^ e * 2 ^ shift := by
  rw [h, zpow_add₀ two_ne_zero, zpow_natCast]

/-- **A whole number of units that is rounded past no whole number of units** is rounded past
no number of at most 53 digits, if the unit is small enough. -/
theorem not_passed {q : ℝ} {unit : ℤ} {rounded : ℕ}
    (hrounded : ∀ n : ℕ, ((n : ℝ) * 2 ^ unit ≤ q → n ≤ rounded) ∧
      (q ≤ (n : ℝ) * 2 ^ unit → rounded ≤ n))
    (hfull : (2 : ℝ) ^ (52 : ℤ) * 2 ^ unit ≤ q ∨ unit = -1074) (n : ℕ) (f : ℤ)
    (hn : n ≤ 2 ^ 53) (hf : -1074 ≤ f) :
    ((n : ℝ) * 2 ^ f ≤ q → (n : ℝ) * 2 ^ f ≤ rounded * 2 ^ unit) ∧
      (q ≤ (n : ℝ) * 2 ^ f → (rounded : ℝ) * 2 ^ unit ≤ n * 2 ^ f) := by
  have hunit : (0 : ℝ) < 2 ^ unit := by positivity
  rcases le_or_gt unit f with hle | hlt
  · -- the number is a whole number of units itself
    obtain ⟨shift, hshift⟩ := Int.le.dest hle
    have hwhole : (n : ℝ) * 2 ^ f = ((n * 2 ^ shift : ℕ) : ℝ) * 2 ^ unit := by
      rw [zpow_eq_mul_pow hshift.symm]
      push_cast
      ring
    rw [hwhole]
    constructor
    · intro h
      have hcast : ((n * 2 ^ shift : ℕ) : ℝ) ≤ rounded := by
        exact_mod_cast (hrounded _).1 h
      exact mul_le_mul_of_nonneg_right hcast hunit.le
    · intro h
      have hcast : (rounded : ℝ) ≤ ((n * 2 ^ shift : ℕ) : ℝ) := by
        exact_mod_cast (hrounded _).2 h
      exact mul_le_mul_of_nonneg_right hcast hunit.le
  · -- it has smaller digits, so it is not above the least number with 53 digits of this unit
    have hleast := hfull.resolve_right (by omega)
    have hbound : (n : ℝ) * 2 ^ f ≤ 2 ^ (52 : ℤ) * 2 ^ unit := by
      have hcast : (n : ℝ) ≤ 2 ^ (53 : ℤ) := by
        exact_mod_cast hn
      calc (n : ℝ) * 2 ^ f ≤ 2 ^ (53 : ℤ) * 2 ^ f := by gcongr
        _ = 2 ^ (53 + f) := (zpow_add₀ two_ne_zero _ _).symm
        _ ≤ 2 ^ (52 + unit) := zpow_le_zpow_right₀ one_le_two (by omega)
        _ = 2 ^ (52 : ℤ) * 2 ^ unit := zpow_add₀ two_ne_zero _ _
    constructor
    · intro _
      have hreached : 2 ^ 52 ≤ rounded := (hrounded _).1 (by exact_mod_cast hleast)
      have hcast : (2 : ℝ) ^ (52 : ℤ) ≤ rounded := by
        exact_mod_cast hreached
      exact hbound.trans (mul_le_mul_of_nonneg_right hcast hunit.le)
    · intro h
      have hat : q ≤ ((2 ^ 52 : ℕ) : ℝ) * 2 ^ unit := by
        exact_mod_cast h.trans hbound
      have hcast : (rounded : ℝ) ≤ 2 ^ (52 : ℤ) := by
        exact_mod_cast (hrounded _).2 hat
      exact (mul_le_mul_of_nonneg_right hcast hunit.le).trans (hleast.trans h)

theorem targetExponent_eq (total : ℤ) :
    Format.binary64.targetExponent total = max (total - 53) (-1074) := rfl

/-- **The leading digits of a number.**  A mantissa with enough of them is shifted to the
power that the doubles have for the number, and fills its 53 digits there, unless that is the
smallest power. -/
theorem shift_leading {q : ℝ} {m : ℕ} {e : ℤ} {accuracy : Accuracy}
    (hle : (m : ℝ) * 2 ^ e ≤ q) (hlt : q < ((m : ℝ) + 1) * 2 ^ e)
    (hexact : q = m * 2 ^ e ↔ accuracy = .exact) (henough : 2 ^ 52 ≤ m ∨ e ≤ -1074) :
    ∃ em unit, shiftToTargetExponent .binary64 m e accuracy = (em, unit) ∧ -1074 ≤ unit ∧
      Truncates em (q / 2 ^ unit) ∧ em.mantissa < 2 ^ 53 ∧
        (2 ^ 52 ≤ em.mantissa ∨ unit = -1074) := by
  let unit : ℤ := max ((m.log2 : ℤ) + 1 + e - 53) (-1074)
  let shift : ℕ := (unit - e).toNat
  have hunit : unit = e + shift := by
    have hlog : 52 ≤ m.log2 ∨ e ≤ -1074 := by
      refine henough.imp_left fun h => (Nat.le_log2 ?_).mpr h
      exact (Nat.two_pow_pos 52).trans_le h |>.ne'
    omega
  let em : ExtendedMantissa := ExtendedMantissa.ofMantissaAndAccuracy m accuracy >>> shift
  have hmantissa : em.mantissa = m / 2 ^ shift :=
    (mantissa_shiftRight _ shift).trans (by rw [mantissa_ofMantissaAndAccuracy])
  refine ⟨em, unit, ?_, le_max_right _ _, ?_, ?_, ?_⟩
  · rw [hunit]
    rfl
  · have hpower : (0 : ℝ) < 2 ^ e := by positivity
    rw [zpow_eq_mul_pow hunit, ← div_div]
    refine Truncates.shiftRight (.ofMantissaAndAccuracy ?_ ?_ ?_) shift
    · exact (le_div_iff₀ hpower).mpr hle
    · exact (div_lt_iff₀ hpower).mpr hlt
    · rw [div_eq_iff hpower.ne']
      exact hexact
  · rw [hmantissa, Nat.div_lt_iff_lt_mul (Nat.two_pow_pos shift), ← pow_add]
    exact Nat.lt_log2_self.trans_le (Nat.pow_le_pow_right two_pos (by omega))
  · by_cases h : unit = -1074
    · exact Or.inr h
    · left
      have hlog : m.log2 = 52 + shift := by omega
      have hm : m ≠ 0 := by
        rintro rfl
        rw [Nat.log2_zero] at hlog
        omega
      rw [hmantissa, Nat.le_div_iff_mul_le (Nat.two_pow_pos shift), ← pow_add, ← hlog]
      exact Nat.log2_self_le hm

/-- Shifting a mantissa of at most 53 digits does nothing, but for the one number that a
mantissa of 53 digits may have been rounded up to. -/
theorem shift_rounded {rounded : ℕ} {unit : ℤ} (hunit : -1074 ≤ unit) (hle : rounded ≤ 2 ^ 53)
    (hfull : 2 ^ 52 ≤ rounded ∨ unit = -1074) :
    ∃ em exponent, shiftToTargetExponent .binary64 rounded unit .exact = (em, exponent) ∧
      Canonical em.mantissa exponent ∧
        (em.mantissa : ℝ) * 2 ^ exponent = rounded * 2 ^ unit := by
  refine ⟨_, _, rfl, ?_⟩
  unfold totalExponent
  simp only [targetExponent_eq, mantissa_shiftRight, mantissa_ofMantissaAndAccuracy]
  rcases Nat.lt_or_eq_of_le hle with hlt | rfl
  · have hlog : rounded.log2 < 53 := by
      rcases Nat.eq_zero_or_pos rounded with rfl | hpos
      · decide
      · exact (Nat.log2_lt hpos.ne').mpr hlt
    have hshift : (max ((rounded.log2 : ℤ) + 1 + unit - 53) (-1074) - unit).toNat = 0 := by
      omega
    rw [hshift, pow_zero, Nat.div_one, Nat.cast_zero, Int.add_zero]
    exact ⟨⟨hlt, hunit, hfull⟩, rfl⟩
  · have hlog : (2 ^ 53).log2 = 53 := Nat.log2_two_pow
    have hshift : (max (((2 ^ 53).log2 : ℤ) + 1 + unit - 53) (-1074) - unit).toNat = 1 := by
      rw [hlog]
      omega
    have hhalf : 2 ^ 53 / 2 ^ 1 = 2 ^ 52 := by norm_num
    rw [hshift, hhalf, Nat.cast_one]
    refine ⟨⟨by norm_num, by omega, Or.inl le_rfl⟩, ?_⟩
    rw [zpow_add_one₀ two_ne_zero]
    push_cast
    ring

/-- **A number is rounded from its leading digits**, if there are enough of them: its whole
part in units of a power of two, and how the rest compares with a half. -/
theorem exists_roundedMantissa {q : ℝ} {m : ℕ} {e : ℤ} {accuracy : Accuracy}
    (hle : (m : ℝ) * 2 ^ e ≤ q) (hlt : q < ((m : ℝ) + 1) * 2 ^ e)
    (hexact : q = m * 2 ^ e ↔ accuracy = .exact) (henough : 2 ^ 52 ≤ m ∨ e ≤ -1074)
    (sign : Sign) :
    ∃ em unit mantissa exponent,
      shiftToTargetExponent .binary64 m e accuracy = (em, unit) ∧
        Truncates em (q / 2 ^ unit) ∧ ((2 : ℝ) ^ (52 : ℤ) * 2 ^ unit ≤ q ∨ unit = -1074) ∧
        Canonical mantissa exponent ∧
        (mantissa : ℝ) * 2 ^ exponent = em.roundedMantissa * 2 ^ unit ∧
        roundWithAccuracy .binary64 sign m e accuracy = unpackedOf sign mantissa exponent := by
  obtain ⟨em, unit, hshift, hunit, hem, hsmall, hlarge⟩ := shift_leading hle hlt hexact henough
  have hunitpos : (0 : ℝ) < 2 ^ unit := by positivity
  have hfull : (2 : ℝ) ^ (52 : ℤ) * 2 ^ unit ≤ q ∨ unit = -1074 := by
    refine hlarge.imp_left fun h => ?_
    rw [← le_div_iff₀ hunitpos]
    exact le_trans (by exact_mod_cast h) hem.le
  have hbounds : em.roundedMantissa ≤ 2 ^ 53 ∧ (2 ^ 52 ≤ em.roundedMantissa ∨ unit = -1074) := by
    rcases hem.roundedMantissa_cases with heq | ⟨-, heq⟩ <;> omega
  obtain ⟨final, exponent, hfinal, hcanonical, hvalue⟩ :=
    shift_rounded hunit hbounds.1 hbounds.2
  refine ⟨em, unit, final.mantissa, exponent, hshift, hem, hfull, hcanonical, hvalue, ?_⟩
  unfold roundWithAccuracy
  rw [hshift]
  simp only [hfinal]
  rfl

/-- Rounding from the leading digits passes over no number of at most 53 digits. -/
theorem stored_roundWithAccuracy {q : ℝ} {m : ℕ} {e : ℤ} {accuracy : Accuracy}
    (hle : (m : ℝ) * 2 ^ e ≤ q) (hlt : q < ((m : ℝ) + 1) * 2 ^ e)
    (hexact : q = m * 2 ^ e ↔ accuracy = .exact) (henough : 2 ^ 52 ≤ m ∨ e ≤ -1074)
    (sign : Sign) :
    ∃ mantissa exponent, Stored q mantissa exponent ∧
      roundWithAccuracy .binary64 sign m e accuracy = unpackedOf sign mantissa exponent := by
  obtain ⟨em, unit, mantissa, exponent, -, hem, hfull, hcanonical, hvalue, hround⟩ :=
    exists_roundedMantissa hle hlt hexact henough sign
  have hunitpos : (0 : ℝ) < 2 ^ unit := by positivity
  have hrounded (n : ℕ) : ((n : ℝ) * 2 ^ unit ≤ q → n ≤ em.roundedMantissa) ∧
      (q ≤ (n : ℝ) * 2 ^ unit → em.roundedMantissa ≤ n) := by
    rw [← le_div_iff₀ hunitpos, ← div_le_iff₀ hunitpos]
    exact hem.roundedMantissa n
  refine ⟨mantissa, exponent, ⟨hcanonical, ?_, ?_⟩, hround⟩
  · intro n f hn hf
    rw [hvalue]
    exact (not_passed hrounded hfull n f hn hf).1
  · intro n f hn hf
    rw [hvalue]
    exact (not_passed hrounded hfull n f hn hf).2

/-- A whole number of units is rounded, if it is large enough or the unit small enough. -/
theorem stored_roundWithAccuracy_exact {m : ℕ} {e : ℤ} (henough : 2 ^ 52 ≤ m ∨ e ≤ -1074)
    (sign : Sign) :
    ∃ mantissa exponent, Stored (m * 2 ^ e) mantissa exponent ∧
      roundWithAccuracy .binary64 sign m e .exact = unpackedOf sign mantissa exponent := by
  have hpower : (0 : ℝ) < 2 ^ e := by positivity
  have hlt : (m : ℝ) * 2 ^ e < (m + 1) * 2 ^ e := mul_lt_mul_of_pos_right (lt_add_one _) hpower
  exact stored_roundWithAccuracy le_rfl hlt (iff_of_true rfl rfl) henough sign

/-- **A whole number of units is rounded**, whatever the unit. -/
theorem stored_round {m : ℕ} (hpos : 0 < m) (e : ℤ) (sign : Sign) :
    ∃ mantissa exponent, Stored (m * 2 ^ e) mantissa exponent ∧
      round .binary64 sign m e = unpackedOf sign mantissa exponent := by
  let target : ℤ := max ((m.log2 : ℤ) + 1 + e - 53) (-1074)
  let shift : ℕ := (e - target).toNat
  -- smaller units make room for more digits, and the number stays what it is
  have hvalue : ((m * 2 ^ shift : ℕ) : ℝ) * 2 ^ (e - shift) = m * 2 ^ e := by
    rw [zpow_eq_mul_pow (sub_add_cancel e (shift : ℤ)).symm]
    push_cast
    ring
  have henough : 2 ^ 52 ≤ m * 2 ^ shift ∨ e - shift ≤ -1074 := by
    rcases le_or_gt 52 (m.log2 + shift) with h | h
    · left
      calc 2 ^ 52 ≤ 2 ^ (m.log2 + shift) := Nat.pow_le_pow_right two_pos h
        _ = 2 ^ m.log2 * 2 ^ shift := pow_add _ _ _
        _ ≤ m * 2 ^ shift := Nat.mul_le_mul_right _ (Nat.log2_self_le hpos.ne')
    · right
      omega
  obtain ⟨mantissa, exponent, hstored, hround⟩ := stored_roundWithAccuracy_exact henough sign
  rw [hvalue] at hstored
  refine ⟨mantissa, exponent, hstored, ?_⟩
  rw [← hround, ← Nat.shiftLeft_eq]
  rfl

end Number
end PrintPath
