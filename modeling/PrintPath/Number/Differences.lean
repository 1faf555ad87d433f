import Mathlib
import PrintPath.Number.Bounds
import PrintPath.Number.Signs

/-!
# Differences of doubles

A difference of two finite doubles is rounded, but it is never rounded to zero, unless there is
no difference: every finite double is a whole multiple of the smallest power of two that a double
can have, so two of them that differ are that far apart at least, and this power is the number of
a double itself.  So a difference vanishes for equal numbers only (`pos_abs_sub_iff`).

What is taken away from itself leaves zero, and the positive one, if it is finite (`sub_self_eq`).
An infinity leaves nothing that is a number, and neither does what was not one
(`sub_self_of_not_isFinite`).
-/

namespace PrintPath
namespace Number

open Float.Model (UnpackedFloat Format)
open Float.Model.UnpackedFloat

variable {x y : Float}

/-! ## The smallest power of two -/

/-- The number of a double is a whole multiple of the smallest power of two. -/
theorem Representable.exists_multiple {q : ℝ} (h : Representable q) :
    ∃ k : ℤ, q = k * 2 ^ (-1074 : ℤ) := by
  obtain ⟨sign, n, f, rfl, -, hf, -⟩ := h.exists_digits
  obtain ⟨shift, hshift⟩ := Int.le.dest hf
  refine ⟨sign.apply (n * 2 ^ shift : ℕ), ?_⟩
  rw [signed_apply, signed_mul_right, zpow_eq_mul_pow hshift.symm]
  push_cast
  congr 1
  ring

/-- Two numbers of doubles that differ are as far apart as the smallest power of two at least. -/
theorem two_zpow_le_abs_sub {p q : ℝ} (hp : Representable p) (hq : Representable q)
    (hne : p ≠ q) : (2 : ℝ) ^ (-1074 : ℤ) ≤ |p - q| := by
  obtain ⟨k, rfl⟩ := hp.exists_multiple
  obtain ⟨l, rfl⟩ := hq.exists_multiple
  have hunit : (0 : ℝ) < 2 ^ (-1074 : ℤ) := by positivity
  have hkl : (1 : ℝ) ≤ |((k - l : ℤ) : ℝ)| := by
    have hsub : k - l ≠ 0 := by
      intro hzero
      rw [sub_eq_zero.mp hzero] at hne
      exact hne rfl
    exact_mod_cast Int.one_le_abs hsub
  rw [← sub_mul, ← Int.cast_sub, abs_mul, abs_of_pos hunit]
  exact le_mul_of_one_le_left hunit.le hkl

theorem representable_smallest : Representable (2 ^ (-1074 : ℤ)) := by
  have h := representable_multiple (n := 1) (e := -1074) (by norm_num) le_rfl (by norm_num)
  rwa [Nat.cast_one, one_mul] at h

/-- **What is as large as the smallest power of two is not rounded to zero.** -/
theorem Rounds.extended_ne_zero {q : ℝ} (h : Rounds q x) (hq : (2 : ℝ) ^ (-1074 : ℤ) ≤ |q|) :
    extended x ≠ 0 := by
  have hunit : (0 : EReal) < ((2 ^ (-1074 : ℤ) : ℝ) : EReal) := by
    rw [EReal.coe_pos]
    positivity
  rcases le_abs.mp hq with hpos | hneg
  · exact (hunit.trans_le (h.le _ representable_smallest hpos)).ne'
  · have hle := h.ge _ representable_smallest.neg (le_neg_of_le_neg hneg)
    rw [EReal.coe_neg] at hle
    exact (hle.trans_lt (EReal.neg_lt_zero.mpr hunit)).ne

/-! ## Magnitudes -/

theorem packable_abs {unpacked : UnpackedFloat} (h : Packable unpacked) :
    Packable unpacked.abs := by
  cases unpacked <;> exact h

theorem unpack_abs (x : Float) : x.abs.toModel.unpack = x.toModel.unpack.abs :=
  unpack_pack (packable_abs (packable_unpack x))

theorem isFinite_abs (h : x.isFinite) : x.abs.isFinite := by
  have hfinite : x.toModel.unpack.isFinite := h
  show x.abs.toModel.unpack.isFinite = true
  rw [unpack_abs]
  cases hx : x.toModel.unpack <;> rw [hx] at hfinite <;> exact hfinite

theorem real_abs (x : Float) : real x.abs = |real x| := by
  unfold real
  rw [unpack_abs]
  cases x.toModel.unpack with
  | finite sign m e hm =>
    have hpos : (0 : ℝ) < m * 2 ^ e := by positivity
    cases sign with
    | positive => exact (abs_of_pos hpos).symm
    | negative => exact ((abs_neg _).trans (abs_of_pos hpos)).symm
  | _ => exact abs_zero.symm

/-- A magnitude is above zero if it is that of a number other than zero. -/
theorem pos_abs_iff : 0.0 < x.abs ↔ x.isNaN = false ∧ extended x ≠ 0 := by
  have hnan : x.abs.isNaN = x.isNaN := by
    show x.abs.toModel.unpack.isNaN = x.toModel.unpack.isNaN
    rw [unpack_abs]
    cases x.toModel.unpack <;> rfl
  have hextended : 0 < extended x.abs ↔ extended x ≠ 0 := by
    unfold extended
    rw [unpack_abs]
    rcases x.toModel.unpack with (_ | _) | _ | _ | ⟨sign, m, e, hm⟩
    · exact iff_of_true EReal.zero_lt_top EReal.bot_ne_zero
    · exact iff_of_true EReal.zero_lt_top EReal.top_ne_zero
    · exact iff_of_false (lt_irrefl _) (not_not_intro rfl)
    · exact iff_of_false (lt_irrefl _) (not_not_intro rfl)
    · have hpos : (0 : ℝ) < m * 2 ^ e := by positivity
      refine iff_of_true (EReal.coe_pos.mpr hpos) ?_
      cases sign with
      | positive => exact (EReal.coe_pos.mpr hpos).ne'
      | negative => exact EReal.coe_ne_zero.mpr (neg_neg_of_pos hpos).ne
  rw [lt_iff_extended, extended_zero, hnan, hextended]
  exact and_iff_right rfl

/-- **A difference of finite doubles vanishes only if they are equal.** -/
theorem pos_abs_sub_iff (hx : x.isFinite) (hy : y.isFinite) : 0.0 < (x - y).abs ↔ ¬ x == y := by
  have hrounds := rounds_sub hx hy
  rw [pos_abs_iff, beq_iff_real hx hy]
  constructor
  · rintro ⟨-, hne⟩ heq
    rw [sub_eq_zero.mpr heq] at hrounds
    exact hne (le_antisymm (hrounds.ge 0 representable_zero le_rfl)
      (hrounds.le 0 representable_zero le_rfl))
  · intro hne
    exact ⟨hrounds.isNaN, hrounds.extended_ne_zero
      (two_zpow_le_abs_sub (representable_real hx) (representable_real hy) hne)⟩

/-! ## What is taken away from itself -/

/-- What is finite leaves zero when it is taken away from itself. -/
theorem sub_self_eq (h : x.isFinite) : x - x = 0.0 := by
  refine sub_of_unpack ?_
  rcases unpack_of_isFinite h with ⟨sign, hx⟩ | ⟨sign, m, e, hpos, hx⟩
  · rw [hx]
    cases sign <;> rfl
  · rw [hx]
    simp only [UnpackedFloat.sub, Int.sub_self, UnpackedFloat.normalize]
    rfl

/-- What is not finite leaves nothing that is a number. -/
theorem sub_self_of_not_isFinite (h : ¬ x.isFinite) : x - x = Float.nan := by
  refine sub_of_unpack ?_
  rcases sort_cases x with hx | ⟨sign, hx⟩ | hx
  · rw [hx]
    rfl
  · rw [hx]
    cases sign <;> rfl
  · exact absurd hx h

end Number
end PrintPath
