import Mathlib
import PrintPath.Number.Bounds
import PrintPath.Number.Signs

/-!
# Rounding goes to a nearest double

That rounding passes over no double (`Rounds`) does not yet say that it keeps the order: of two
numbers between the same two doubles the lower one might be rounded up and the higher one down.
It cannot, because no double is nearer to a number than the one it is rounded to (`Nearest`).
Two numbers that are rounded to their nearest doubles, the lower one to the higher double, would
lie on the wrong sides of the middle (`Nearest.le_of_lt`).

That a double is nearest is read off the two bits that a mantissa is rounded by.  The first of
them says in which half between two whole numbers a number lies, and the second is clear only
where that half starts (`Halves`).  So rounding is off by half a unit at most
(`Halves.abs_roundedMantissa_sub_le`).

Whole numbers and quotients are treated here: `ofNat_mono` says that a larger whole number is no
lower double, and `div_mono` that a larger double is no lower one when both are divided by a
third.
-/

namespace PrintPath
namespace Number

open Float.Model (UnpackedFloat Format)
open Float.Model.UnpackedFloat

/-! ## Half units -/

/-- How many halves a mantissa counts together with the first bit behind it. -/
def halves (em : ExtendedMantissa) : ℕ :=
  2 * em.mantissa + em.roundBit.toNat

/-- The two bits of a mantissa say where a number lies: in the half that the first one starts,
and right there if the second one is clear. -/
structure Halves (em : ExtendedMantissa) (x : ℝ) : Prop where
  le : (halves em : ℝ) / 2 ≤ x
  ge : x ≤ ((halves em : ℝ) + 1) / 2
  exact : em.stickyBit = false → x = halves em / 2

/-- One digit less leaves it to the first bit whether there was a half. -/
theorem halves_shiftRightOne (em : ExtendedMantissa) : halves em.shiftRightOne = em.mantissa := by
  have hbit : (em.mantissa % 2 != 0).toNat = em.mantissa % 2 := by
    rcases Nat.mod_two_eq_zero_or_one em.mantissa with h | h <;> rw [h] <;> rfl
  show 2 * (em.mantissa / 2) + (em.mantissa % 2 != 0).toNat = em.mantissa
  rw [hbit]
  exact Nat.div_add_mod em.mantissa 2

/-- **The bits behind a mantissa that lost a digit** say in which half the rest lies. -/
theorem Truncates.halves_shiftRightOne {em : ExtendedMantissa} {x : ℝ} (h : Truncates em x) :
    Halves em.shiftRightOne (x / 2) := by
  have hle := h.le
  have hlt := h.lt
  have hcount := Number.halves_shiftRightOne em
  refine ⟨?_, ?_, ?_⟩
  · rw [hcount]
    linarith
  · rw [hcount]
    linarith
  · intro hsticky
    rw [hcount, h.exact_iff.mpr (Bool.or_eq_false_iff.mp hsticky)]

namespace Halves

variable {em : ExtendedMantissa} {x : ℝ}

theorem shiftRight (h : Halves em x) (htruncates : Truncates em x) (count : ℕ) :
    Halves (em >>> count) (x / 2 ^ count) := by
  cases count with
  | zero =>
    rw [pow_zero, div_one]
    exact h
  | succ count =>
    rw [pow_succ, ← div_div]
    exact (htruncates.shiftRight count).halves_shiftRightOne

/-- A mantissa without a rest. -/
theorem ofExact (mantissa : ℕ) : Halves (.ofMantissaAndAccuracy mantissa .exact) mantissa := by
  have hhalf : (halves (.ofMantissaAndAccuracy mantissa .exact) : ℝ) / 2 = mantissa := by
    simp [halves, ExtendedMantissa.ofMantissaAndAccuracy]
  refine ⟨hhalf.le, ?_, fun _ => hhalf.symm⟩
  linarith

/-- A mantissa with the rest of a division. -/
theorem ofFraction (mantissa : ℕ) {rest n : ℕ} (hrest : rest < n) :
    Halves (.ofMantissaAndAccuracy mantissa (accuracyOfFraction rest n))
      (mantissa + rest / n) := by
  have hn : (0 : ℝ) < n := by
    exact_mod_cast (Nat.zero_le rest).trans_lt hrest
  have hone : (rest : ℝ) / n ≤ 1 := by
    rw [div_le_one hn]
    exact_mod_cast hrest.le
  have hnonneg : 0 ≤ (rest : ℝ) / n := by positivity
  unfold accuracyOfFraction
  split_ifs with hzero
  · rw [hzero, Nat.cast_zero, zero_div, add_zero]
    exact ofExact mantissa
  · rcases lt_trichotomy (2 * rest) n with h | h | h
    · have hlow : (rest : ℝ) / n ≤ 1 / 2 := by
        rw [div_le_div_iff₀ hn two_pos]
        exact_mod_cast (by omega : rest * 2 ≤ 1 * n)
      rw [compare_lt_iff_lt.mpr h]
      constructor <;> simp [halves, ExtendedMantissa.ofMantissaAndAccuracy] <;> linarith
    · have hmiddle : (rest : ℝ) / n = 1 / 2 := by
        rw [div_eq_div_iff hn.ne' two_ne_zero]
        exact_mod_cast (by omega : rest * 2 = 1 * n)
      rw [compare_eq_iff_eq.mpr h, hmiddle]
      constructor <;> simp [halves, ExtendedMantissa.ofMantissaAndAccuracy] <;> linarith
    · have hhigh : 1 / 2 ≤ (rest : ℝ) / n := by
        rw [div_le_div_iff₀ two_pos hn]
        exact_mod_cast (by omega : 1 * n ≤ rest * 2)
      rw [compare_gt_iff_gt.mpr h]
      constructor <;> simp [halves, ExtendedMantissa.ofMantissaAndAccuracy] <;> linarith

/-- **Rounding is off by half a unit at most.** -/
theorem abs_roundedMantissa_sub_le (h : Halves em x) :
    |(em.roundedMantissa : ℝ) - x| ≤ 1 / 2 := by
  obtain ⟨mantissa, roundBit, stickyBit⟩ := em
  obtain ⟨hle, hge, hexact⟩ := h
  rw [abs_le]
  cases roundBit with
  | false =>
    have hrounded : ExtendedMantissa.roundedMantissa ⟨mantissa, false, stickyBit⟩ = mantissa := by
      cases stickyBit <;> rfl
    simp only [halves, Bool.toNat_false, add_zero, Nat.cast_mul, Nat.cast_ofNat] at hle hge
    rw [hrounded]
    constructor <;> linarith
  | true =>
    simp only [halves, Bool.toNat_true, Nat.cast_add, Nat.cast_mul, Nat.cast_ofNat,
      Nat.cast_one] at hle hge hexact
    cases stickyBit with
    | true =>
      have hrounded : ExtendedMantissa.roundedMantissa ⟨mantissa, true, true⟩ = mantissa + 1 := rfl
      rw [hrounded, Nat.cast_add_one]
      constructor <;> linarith
    | false =>
      -- a tie, which goes to the even one of the two neighbours
      have hrounded : ExtendedMantissa.roundedMantissa ⟨mantissa, true, false⟩ =
          mantissa + mantissa % 2 := rfl
      rw [hrounded, hexact rfl]
      rcases Nat.mod_two_eq_zero_or_one mantissa with hbit | hbit <;> rw [hbit] <;> push_cast <;>
        constructor <;> linarith

/-- No whole number is nearer than the one that is rounded to. -/
theorem abs_roundedMantissa_sub_le_abs (h : Halves em x) (n : ℕ) :
    |(em.roundedMantissa : ℝ) - x| ≤ |(n : ℝ) - x| := by
  have hrounded := h.abs_roundedMantissa_sub_le
  rcases eq_or_ne n em.roundedMantissa with rfl | hne
  · exact le_rfl
  · have hapart : (1 : ℝ) ≤ |(n : ℝ) - em.roundedMantissa| := by
      have hint : (1 : ℤ) ≤ |(n : ℤ) - em.roundedMantissa| :=
        Int.one_le_abs (sub_ne_zero.mpr (by exact_mod_cast hne))
      exact_mod_cast hint
    have htriangle := abs_sub_le (n : ℝ) x em.roundedMantissa
    rw [abs_sub_comm x] at htriangle
    linarith

end Halves

/-! ## What a number is stored as is nearest -/

/-- No number of at most 53 digits is nearer to `q` than `w` is. -/
structure Near (q w : ℝ) : Prop where
  le : ∀ (n : ℕ) (f : ℤ), n ≤ 2 ^ 53 → -1074 ≤ f → |w - q| ≤ |(n : ℝ) * 2 ^ f - q|

/-- **A whole number of units that is nearest among these** is nearest, if the unit is small
enough. -/
theorem near_of_whole {q : ℝ} {unit : ℤ} {rounded : ℕ}
    (hrounded : ∀ n : ℕ, |(rounded : ℝ) - q / 2 ^ unit| ≤ |(n : ℝ) - q / 2 ^ unit|)
    (hfull : (2 : ℝ) ^ (52 : ℤ) * 2 ^ unit ≤ q ∨ unit = -1074) :
    Near q (rounded * 2 ^ unit) := by
  refine ⟨fun n f hn hf => ?_⟩
  have hunit : (0 : ℝ) < 2 ^ unit := by positivity
  have hscale (w : ℝ) : |w * 2 ^ unit - q| = |w - q / 2 ^ unit| * 2 ^ unit := by
    have hfactor : w * 2 ^ unit - q = (w - q / 2 ^ unit) * 2 ^ unit := by
      field_simp
    rw [hfactor, abs_mul, abs_of_pos hunit]
  have hwhole (k : ℕ) : |(rounded : ℝ) * 2 ^ unit - q| ≤ |(k : ℝ) * 2 ^ unit - q| := by
    rw [hscale, hscale]
    exact mul_le_mul_of_nonneg_right (hrounded k) hunit.le
  rcases le_or_gt unit f with hle | hlt
  · -- the number is a whole number of units itself
    obtain ⟨shift, hshift⟩ := Int.le.dest hle
    have hcast : (n : ℝ) * 2 ^ f = ((n * 2 ^ shift : ℕ) : ℝ) * 2 ^ unit := by
      rw [zpow_eq_mul_pow hshift.symm]
      push_cast
      ring
    rw [hcast]
    exact hwhole _
  · -- it lies below the least number with 53 digits of this unit, and that lies below `q`
    have hleast := hfull.resolve_right (by omega)
    have hbound : (n : ℝ) * 2 ^ f ≤ 2 ^ (52 : ℤ) * 2 ^ unit := by
      have hcast : (n : ℝ) ≤ 2 ^ (53 : ℤ) := by
        exact_mod_cast hn
      calc (n : ℝ) * 2 ^ f ≤ 2 ^ (53 : ℤ) * 2 ^ f := by gcongr
        _ = 2 ^ (53 + f) := (zpow_add₀ two_ne_zero _ _).symm
        _ ≤ 2 ^ (52 + unit) := zpow_le_zpow_right₀ one_le_two (by omega)
        _ = 2 ^ (52 : ℤ) * 2 ^ unit := zpow_add₀ two_ne_zero _ _
    have hpower : ((2 ^ 52 : ℕ) : ℝ) * 2 ^ unit = 2 ^ (52 : ℤ) * 2 ^ unit := by
      norm_cast
    refine (hwhole (2 ^ 52)).trans ?_
    rw [hpower, abs_of_nonpos (sub_nonpos.mpr hleast),
      abs_of_nonpos (sub_nonpos.mpr (hbound.trans hleast))]
    linarith

/-- **What a number is stored as is near**, if the two bits behind its leading digits are
right. -/
theorem near_roundWithAccuracy {q : ℝ} {m : ℕ} {e : ℤ} {accuracy : Accuracy}
    (hle : (m : ℝ) * 2 ^ e ≤ q) (hlt : q < ((m : ℝ) + 1) * 2 ^ e)
    (hexact : q = m * 2 ^ e ↔ accuracy = .exact) (henough : 2 ^ 52 ≤ m ∨ e ≤ -1074)
    (hhalves : Halves (.ofMantissaAndAccuracy m accuracy) (q / 2 ^ e)) (sign : Sign) :
    ∃ mantissa exponent, Canonical mantissa exponent ∧ Near q (mantissa * 2 ^ exponent) ∧
      roundWithAccuracy .binary64 sign m e accuracy = unpackedOf sign mantissa exponent := by
  obtain ⟨em, unit, mantissa, exponent, hshift, -, hfull, hcanonical, hvalue, hround⟩ :=
    exists_roundedMantissa hle hlt hexact henough sign
  refine ⟨mantissa, exponent, hcanonical, ?_, hround⟩
  have hpower : (0 : ℝ) < 2 ^ e := by positivity
  have htruncates : Truncates (.ofMantissaAndAccuracy m accuracy) (q / 2 ^ e) := by
    refine .ofMantissaAndAccuracy ((le_div_iff₀ hpower).mpr hle) ((div_lt_iff₀ hpower).mpr hlt) ?_
    rw [div_eq_iff hpower.ne']
    exact hexact
  obtain ⟨rfl, rfl⟩ := Prod.mk.inj hshift
  rw [hvalue]
  refine near_of_whole (Halves.abs_roundedMantissa_sub_le_abs ?_) hfull
  rw [zpow_eq_mul_pow rfl, ← div_div]
  exact hhalves.shiftRight htruncates _

/-! ## Nearest doubles -/

/-- A double is finite, and no finite double is nearer to a number. -/
structure Nearest (q : ℝ) (x : Float) : Prop where
  isFinite : x.isFinite
  le : ∀ g, Representable g → |real x - q| ≤ |g - q|

/-- What a number is stored as is packed to a nearest double, if that is finite. -/
theorem Near.nearest {q : ℝ} {m : ℕ} {e : ℤ} (h : Near q (m * 2 ^ e)) (hq : 0 ≤ q)
    (hcanonical : Canonical m e) (sign : Sign)
    (hfinite : (packed (unpackedOf sign m e)).isFinite) :
    Nearest (signed sign q) (packed (unpackedOf sign m e)) := by
  have hreal : real (packed (unpackedOf sign m e)) = signed sign (m * 2 ^ e) := by
    unfold unpackedOf at hfinite ⊢
    split_ifs at hfinite ⊢ with hzero
    · rw [hzero]
      cases sign <;> simp [signed] <;> rfl
    · obtain ⟨-, heq | ⟨-, hinfinite⟩⟩ :=
        extended_packed hcanonical (Nat.pos_of_ne_zero hzero) sign
      · rwa [extended_of_isFinite hfinite, EReal.coe_eq_coe_iff] at heq
      · rw [extended_of_isFinite hfinite] at hinfinite
        cases sign with
        | positive => exact absurd hinfinite (EReal.coe_ne_top _)
        | negative => exact absurd hinfinite (EReal.coe_ne_bot _)
  have hnear (g : ℝ) (hg : Representable g) : |(m : ℝ) * 2 ^ e - q| ≤ |g - q| := by
    obtain ⟨other, n, f, rfl, hn, hf, -⟩ := hg.exists_digits
    cases other with
    | positive => exact h.le n f hn.le hf
    | negative =>
      -- zero is nearer than a negative number
      have hzero := h.le 0 0 (Nat.zero_le _) (by norm_num)
      have hdigits : (0 : ℝ) ≤ n * 2 ^ f := by positivity
      refine hzero.trans ?_
      show |((0 : ℕ) : ℝ) * 2 ^ (0 : ℤ) - q| ≤ |-((n : ℝ) * 2 ^ f) - q|
      rw [Nat.cast_zero, zero_mul, abs_of_nonpos (by linarith), abs_of_nonpos (by linarith)]
      linarith
  refine ⟨hfinite, fun g hg => ?_⟩
  rw [hreal]
  cases sign with
  | positive => exact hnear g hg
  | negative =>
    show |-((m : ℝ) * 2 ^ e) - -q| ≤ |g - -q|
    rw [abs_sub_comm, neg_sub_neg, abs_sub_comm g, ← abs_neg (-q - g), neg_sub, sub_neg_eq_add,
      ← abs_neg (g + q), neg_add, ← sub_eq_add_neg]
    exact hnear (-g) hg.neg

namespace Nearest

variable {p q : ℝ} {x y : Float}

/-- **A lower number is rounded to no higher double.** -/
theorem le_of_lt (hx : Nearest p x) (hy : Nearest q y) (h : p < q) : x ≤ y := by
  rw [le_iff_real hx.isFinite hy.isFinite]
  by_contra hnot
  have hlt : real y < real x := not_le.mp hnot
  have hleft := hx.le (real y) (representable_real hy.isFinite)
  have hright := hy.le (real x) (representable_real hx.isFinite)
  -- the first number is not below the middle, and the second one is not above it
  have hlow : (real x + real y) / 2 ≤ p := by
    by_contra hbelow
    have hbelow := not_le.mp hbelow
    rw [abs_of_pos (by linarith : 0 < real x - p)] at hleft
    rcases abs_cases (real y - p) with ⟨heq, -⟩ | ⟨heq, -⟩ <;> linarith
  have hhigh : q ≤ (real x + real y) / 2 := by
    by_contra habove
    have habove := not_le.mp habove
    rw [abs_of_neg (by linarith : real y - q < 0)] at hright
    rcases abs_cases (real x - q) with ⟨heq, -⟩ | ⟨heq, -⟩ <;> linarith
  linarith

/-- What is the number of a double is nearest to it. -/
theorem of_rounds (h : Rounds q x) (hq : Representable q) : Nearest q x := by
  obtain ⟨hfinite, hreal⟩ := h.real_eq hq
  refine ⟨hfinite, fun g _ => ?_⟩
  rw [hreal, sub_self, abs_zero]
  exact abs_nonneg _

end Nearest

/-! ## Quotients -/

section

variable {x y z : Float}

/-- **A finite quotient is nearest** to the exact one. -/
theorem nearest_div (hx : x.isFinite) (hy : y.isFinite) (hzero : real y ≠ 0)
    (hfinite : (x / y).isFinite) : Nearest (real x / real y) (x / y) := by
  have hquotient : x / y = packed (UnpackedFloat.div .binary64 x.toModel.unpack y.toModel.unpack) :=
    rfl
  rcases unpack_of_isFinite hy with ⟨t, ht⟩ | ⟨t, n, f, hn, ht⟩
  · exact absurd (real_of_unpack_zero ht) hzero
  · rcases unpack_of_isFinite hx with ⟨s, hs⟩ | ⟨s, m, e, hm, hs⟩
    · have hrounds := rounds_div hx hy hzero
      rw [real_of_unpack_zero hs, zero_div] at hrounds ⊢
      exact .of_rounds hrounds representable_zero
    · obtain ⟨whole, unit, rest, hcore, hrest, henough, hvalue⟩ := exists_divCore hm hn e f
      obtain ⟨hle, hlt, hexact⟩ := mixed_bounds whole hrest unit
      have hhalves : Halves (.ofMantissaAndAccuracy whole (accuracyOfFraction rest n))
          ((whole + rest / n) * 2 ^ unit / 2 ^ unit) := by
        rw [mul_div_cancel_right₀ _ (by positivity : (2 : ℝ) ^ unit ≠ 0)]
        exact .ofFraction whole hrest
      obtain ⟨mantissa, exponent, hcanonical, hnear, hround⟩ :=
        near_roundWithAccuracy hle hlt hexact henough hhalves (s / t)
      have hpacked : x / y = packed (unpackedOf (s / t) mantissa exponent) := by
        rw [hquotient, hs, ht, ← hround]
        show packed (roundWithAccuracy .binary64 (s / t) (divCore .binary64 m e n f).1
          (divCore .binary64 m e n f).2.1 (divCore .binary64 m e n f).2.2) = _
        rw [hcore]
      rw [hpacked] at hfinite ⊢
      rw [real_of_unpack_finite hs, real_of_unpack_finite ht, signed_div, hvalue]
      exact hnear.nearest (by positivity) hcanonical (s / t) hfinite

/-- Comparing doubles is transitive. -/
theorem le_of_le_of_le (h : x ≤ y) (k : y ≤ z) : x ≤ z := by
  rw [le_iff_extended] at h k ⊢
  exact ⟨h.1, k.2.1, h.2.2.trans k.2.2⟩

/-- What is not below something finite is finite, or the positive infinity. -/
theorem isFinite_or_infinity_of_le (hx : x.isFinite) (h : x ≤ y) :
    y.isFinite ∨ y.toModel.unpack = .infinity .positive := by
  obtain ⟨-, hnan, hle⟩ := le_iff_extended.mp h
  rcases sort_cases y with hy | ⟨sign, hy⟩ | hy
  · exact absurd hy (unpack_ne_notANumber hnan)
  · cases sign with
    | positive => exact Or.inr hy
    | negative =>
      have hbot : extended y = ⊥ := by
        unfold extended
        rw [hy]
        rfl
      rw [hbot, extended_of_isFinite hx, le_bot_iff] at hle
      exact absurd hle (EReal.coe_ne_bot _)
  · exact Or.inl hy

/-- **Dividing by what is not below one keeps the order.** -/
theorem div_mono (hx : x.isFinite) (hz : z.isFinite) (hone : 1.0 ≤ z) (h : x ≤ y) :
    x / z ≤ y / z := by
  have hxz := isFinite_div hx hz hone
  have hpos : 0 < real z := by
    rw [le_iff_real rfl hz, real_one] at hone
    exact one_pos.trans_le hone
  rcases isFinite_or_infinity_of_le hx h with hy | hinfinite
  · have hyz := isFinite_div hy hz hone
    rw [le_iff_real hx hy] at h
    rcases h.lt_or_eq with hlt | heq
    · exact (nearest_div hx hz hpos.ne' hxz).le_of_lt (nearest_div hy hz hpos.ne' hyz)
        (div_lt_div_of_pos_right hlt hpos)
    · by_cases hzero : real x = 0
      · have hquotient {w : Float} (hw : w.isFinite) (hreal : real w = 0) : real (w / z) = 0 := by
          have hrounds := rounds_div hw hz hpos.ne'
          rw [hreal, zero_div] at hrounds
          exact (hrounds.real_eq representable_zero).2
        rw [le_iff_real hxz hyz, hquotient hx hzero, hquotient hy (heq ▸ hzero)]
      · -- equal numbers are the same double, unless they are zeros
        obtain ⟨-, -, hsame | ⟨rfl, -⟩ | ⟨rfl, -⟩⟩ :=
          Float.beq_iff_ne_nan_and_eq.mp ((beq_iff_real hx hy).mpr heq)
        · rw [hsame]
          exact (le_iff_real hyz hyz).mpr le_rfl
        · exact absurd rfl hzero
        · exact absurd rfl hzero
  · have hquotient := infinity_div hinfinite hz hpos
    have htop : extended (y / z) = ⊤ := by
      unfold extended
      rw [hquotient]
      rfl
    obtain ⟨hnumber, -⟩ := nonneg_iff_extended.mp (nonneg_of_unpack hquotient)
    exact le_iff_extended.mpr ⟨isNaN_of_isFinite hxz, hnumber, htop ▸ le_top⟩

/-- Something finite that is not below one goes into itself once. -/
theorem real_div_self (hx : x.isFinite) (hone : 1.0 ≤ x) : real (x / x) = 1 := by
  rw [le_iff_real rfl hx, real_one] at hone
  have hne : real x ≠ 0 := (one_pos.trans_le hone).ne'
  have hrounds := rounds_div hx hx hne
  rw [div_self hne] at hrounds
  exact (hrounds.real_eq (real_one ▸ representable_real rfl)).2

end

/-! ## Whole numbers -/

theorem ofNat_of_lt {n : ℕ} (h : n < 2 ^ 53) :
    Float.ofNat n = packed (UnpackedFloat.normalize .binary64 n 0 .positive) := by
  have hword : n.toUInt64.toNat = n := by
    rw [Nat.toUInt64, UInt64.toNat_ofNat']
    exact Nat.mod_eq_of_lt (by omega)
  have hsmall : Float.ofNat n = n.toUInt64.toFloat * 1.0 := by
    show Float.ofScientific n false 0 = _
    unfold Float.ofScientific
    rw [dif_pos ⟨h, by decide⟩]
    rfl
  rw [hsmall, mul_one_eq]
  show packed (UnpackedFloat.normalize .binary64 (n.toUInt64.toNat : ℤ) 0 .positive) = _
  rw [hword]

theorem ofNat_of_le {n : ℕ} (h : 2 ^ 53 ≤ n) :
    Float.ofNat n = packed (roundWithAccuracy .binary64 .positive (n * 2 ^ 53) (-53) .exact) := by
  have hne : n ≠ 0 := by omega
  have hlarge : Float.ofNat n = packed (UnpackedFloat.ofScientific .binary64 n 0) := by
    show Float.ofScientific n false 0 = _
    unfold Float.ofScientific
    rw [dif_neg (fun hsmall => absurd hsmall.1 h.not_gt)]
    rfl
  rw [hlarge]
  unfold UnpackedFloat.ofScientific
  rw [dif_neg hne, if_neg (by decide), if_neg (by simp), if_pos le_rfl]
  show packed (roundWithAccuracy .binary64 .positive (n <<< 53 * 1) (-53) .exact) = _
  rw [Nat.mul_one, Nat.shiftLeft_eq]

/-- A whole number in the units that it is rounded from. -/
theorem cast_mul_units (n : ℕ) : ((n * 2 ^ 53 : ℕ) : ℝ) * 2 ^ (-53 : ℤ) = n := by
  push_cast
  rw [mul_assoc]
  norm_num

/-- **A whole number is rounded.** -/
theorem rounds_ofNat (n : ℕ) : Rounds n (Float.ofNat n) := by
  rcases lt_or_ge n (2 ^ 53) with hlt | hge
  · have h := rounds_normalize n 0 .positive
    rw [zpow_zero, mul_one, Int.cast_natCast] at h
    rw [ofNat_of_lt hlt]
    exact h
  · obtain ⟨mantissa, exponent, hstored, hround⟩ :=
      stored_roundWithAccuracy_exact (m := n * 2 ^ 53) (e := -53)
        (Or.inl (by omega)) .positive
    rw [cast_mul_units] at hstored
    rw [ofNat_of_le hge, hround]
    exact hstored.rounds (Nat.cast_nonneg n) .positive

/-- Whole numbers that are not too large are finite. -/
theorem isFinite_ofNat {n : ℕ} (h : (n : ℝ) ≤ 2 ^ (1023 : ℤ)) : (Float.ofNat n).isFinite := by
  refine ((rounds_ofNat n).within (representable_two_zpow (by norm_num) le_rfl) ?_).isFinite
  rwa [abs_of_nonneg (Nat.cast_nonneg n)]

/-- **A whole number is rounded to a nearest double**, if it is not too large. -/
theorem nearest_ofNat {n : ℕ} (h : (n : ℝ) ≤ 2 ^ (1023 : ℤ)) : Nearest n (Float.ofNat n) := by
  rcases lt_or_ge n (2 ^ 53) with hlt | hge
  · have hrepresentable := representable_multiple (e := 0) hlt.le (by norm_num) (by norm_num)
    rw [zpow_zero, mul_one] at hrepresentable
    exact .of_rounds (rounds_ofNat n) hrepresentable
  · have hpower : (0 : ℝ) < 2 ^ (-53 : ℤ) := by positivity
    have hhalves : Halves (.ofMantissaAndAccuracy (n * 2 ^ 53) .exact)
        ((n * 2 ^ 53 : ℕ) * 2 ^ (-53 : ℤ) / 2 ^ (-53 : ℤ)) := by
      rw [mul_div_cancel_right₀ _ hpower.ne']
      exact .ofExact _
    obtain ⟨mantissa, exponent, hcanonical, hnear, hround⟩ :=
      near_roundWithAccuracy le_rfl (mul_lt_mul_of_pos_right (lt_add_one _) hpower)
        (iff_of_true rfl rfl) (Or.inl (by omega)) hhalves .positive
    have hfinite := isFinite_ofNat h
    rw [cast_mul_units] at hnear
    rw [ofNat_of_le hge, hround] at hfinite ⊢
    exact hnear.nearest (Nat.cast_nonneg n) hcanonical .positive hfinite

/-- **A larger whole number is no lower double**, even if it is so large that it is none. -/
theorem ofNat_mono {m n : ℕ} (hm : (m : ℝ) ≤ 2 ^ (1023 : ℤ)) (h : m ≤ n) :
    Float.ofNat m ≤ Float.ofNat n := by
  have hbound := representable_two_zpow (e := 1023) (by norm_num) le_rfl
  rcases le_or_gt (n : ℝ) (2 ^ (1023 : ℤ)) with hn | hn
  · rcases h.lt_or_eq with hlt | rfl
    · exact (nearest_ofNat hm).le_of_lt (nearest_ofNat hn) (by exact_mod_cast hlt)
    · exact (le_iff_real (isFinite_ofNat hm) (isFinite_ofNat hm)).mpr le_rfl
  · exact le_iff_extended.mpr ⟨(rounds_ofNat m).isNaN, (rounds_ofNat n).isNaN,
      ((rounds_ofNat m).ge _ hbound hm).trans ((rounds_ofNat n).le _ hbound hn.le)⟩

end Number
end PrintPath
