import Mathlib
import PrintPath.Number.Arithmetic

/-!
# Signs, infinities and what is not a number

Rounding keeps signs, so what is computed from doubles that are not negative is not negative
either, whether it is finite or has become infinite (`nonneg_add`, `nonneg_mul_self`,
`nonneg_sqrt`, `nonneg_div`).  And adding something that is not negative does not lead
downwards.

An operation on finite doubles gives a number, perhaps an infinite one.  Only infinities can
give something that is not a number, and from then on that stays so: it is neither above nor
below anything, and whatever is computed from it is not a number (`isNaN_add_of_left`).
-/

namespace PrintPath
namespace Number

open Float.Model (UnpackedFloat Format)
open Float.Model.UnpackedFloat

variable {x y : Float}

/-- A double is not a number, or infinite, or finite. -/
theorem sort_cases (x : Float) :
    x.toModel.unpack = .notANumber ∨ (∃ sign, x.toModel.unpack = .infinity sign) ∨
      x.isFinite := by
  cases h : x.toModel.unpack with
  | notANumber => exact Or.inl rfl
  | infinity sign => exact Or.inr (Or.inl ⟨sign, rfl⟩)
  | _ =>
    right; right
    show x.toModel.unpack.isFinite = true
    rw [h]
    rfl

theorem isNaN_iff_unpack : x.isNaN = true ↔ x.toModel.unpack = .notANumber :=
  UnpackedFloat.isNaN_iff

theorem unpack_ne_notANumber (h : x.isNaN = false) : x.toModel.unpack ≠ .notANumber := by
  rw [Ne, ← isNaN_iff_unpack, h]
  exact Bool.false_ne_true

theorem isFinite_of_not_isInf (h : x.isNaN = false) (hinf : x.isInf = false) : x.isFinite := by
  rcases sort_cases x with hx | ⟨sign, hx⟩ | hx
  · exact absurd hx (unpack_ne_notANumber h)
  · have hinf' : x.toModel.unpack.isInf = false := hinf
    rw [hx] at hinf'
    exact absurd hinf'.symm Bool.false_ne_true
  · exact hx

/-! ## What is not negative -/

theorem extended_zero : extended 0.0 = 0 := rfl

theorem nonneg_iff_extended : 0.0 ≤ x ↔ x.isNaN = false ∧ 0 ≤ extended x := by
  rw [le_iff_extended, extended_zero]
  exact and_iff_right rfl

theorem nonneg_iff_real (h : x.isFinite) : 0.0 ≤ x ↔ 0 ≤ real x := by
  rw [le_iff_real rfl h, real_zero]

theorem nonneg_of_unpack (h : x.toModel.unpack = .infinity .positive) : 0.0 ≤ x := by
  rw [nonneg_iff_extended]
  unfold extended
  rw [h]
  refine ⟨?_, le_top⟩
  show x.toModel.unpack.isNaN = false
  rw [h]
  rfl

/-- What is not negative is infinite or finite. -/
theorem nonneg_cases (h : 0.0 ≤ x) :
    x.toModel.unpack = .infinity .positive ∨ x.isFinite ∧ 0 ≤ real x := by
  obtain ⟨hnan, hextended⟩ := nonneg_iff_extended.mp h
  rcases sort_cases x with hx | ⟨sign, hx⟩ | hx
  · exact absurd hx (unpack_ne_notANumber hnan)
  · cases sign with
    | positive => exact Or.inl hx
    | negative =>
      unfold extended at hextended
      rw [hx] at hextended
      exact absurd hextended EReal.bot_lt_zero.not_ge
  · rw [extended_of_isFinite hx, EReal.coe_nonneg] at hextended
    exact Or.inr ⟨hx, hextended⟩

/-- Two doubles are in order, or one of them is not a number. -/
theorem not_lt_iff : ¬ x < y ↔ x.isNaN = true ∨ y.isNaN = true ∨ y ≤ x := by
  rw [lt_iff_extended, le_iff_extended]
  cases x.isNaN <;> cases y.isNaN <;> simp

theorem Rounds.nonneg {q : ℝ} (h : Rounds q x) (hq : 0 ≤ q) : 0.0 ≤ x :=
  nonneg_iff_extended.mpr ⟨h.isNaN, h.le 0 representable_zero hq⟩

/-! ## Sums -/

theorem infinity_add {sign : Sign} (hx : x.toModel.unpack = .infinity sign) (hy : y.isFinite) :
    x + y = x := by
  refine add_of_unpack ?_
  rcases unpack_of_isFinite hy with ⟨other, h⟩ | ⟨other, m, e, hpos, h⟩
  all_goals
    rw [hx, h]
    rfl

theorem add_infinity {sign : Sign} (hx : x.isFinite) (hy : y.toModel.unpack = .infinity sign) :
    x + y = y := by
  refine add_of_unpack ?_
  rcases unpack_of_isFinite hx with ⟨other, h⟩ | ⟨other, m, e, hpos, h⟩
  all_goals
    rw [hy, h]
    rfl

/-- **Adding something finite to a number gives a number.** -/
theorem isNaN_add_right (hx : x.isNaN = false) (hy : y.isFinite) : (x + y).isNaN = false := by
  rcases sort_cases x with h | ⟨sign, h⟩ | h
  · exact absurd h (unpack_ne_notANumber hx)
  · rw [infinity_add h hy]
    exact hx
  · exact (rounds_add h hy).isNaN

/-- Adding a number to something finite gives a number. -/
theorem isNaN_add_left (hx : x.isFinite) (hy : y.isNaN = false) : (x + y).isNaN = false := by
  rcases sort_cases y with h | ⟨sign, h⟩ | h
  · exact absurd h (unpack_ne_notANumber hy)
  · rw [add_infinity hx h]
    exact hy
  · exact (rounds_add hx h).isNaN

/-- Adding finite numbers to a number gives a number. -/
theorem isNaN_foldl_add {terms : List Float} (hx : x.isNaN = false)
    (h : ∀ t ∈ terms, t.isFinite) : (terms.foldl (· + ·) x).isNaN = false := by
  induction terms generalizing x with
  | nil => exact hx
  | cons t terms ih =>
    exact ih (isNaN_add_right hx (h t List.mem_cons_self)) fun u hu =>
      h u (List.mem_cons_of_mem t hu)

/-- What is added to something that is not a number does not make it one. -/
theorem isNaN_add_of_left (hx : x.isNaN = true) (y : Float) : (x + y).isNaN = true := by
  have hsum : x + y = packed .notANumber := by
    show packed (UnpackedFloat.add .binary64 x.toModel.unpack y.toModel.unpack) = _
    rw [isNaN_iff_unpack.mp hx]
    rfl
  rw [hsum]
  rfl

/-- Adding something that is not a number does not give one. -/
theorem isNaN_add_of_right (x : Float) (hy : y.isNaN = true) : (x + y).isNaN = true := by
  have hsum : x + y = packed .notANumber := by
    show packed (UnpackedFloat.add .binary64 x.toModel.unpack y.toModel.unpack) = _
    rw [isNaN_iff_unpack.mp hy]
    cases x.toModel.unpack <;> rfl
  rw [hsum]
  rfl

/-- **A sum of two numbers that are not negative is not below the first.** -/
theorem nonneg_add (hx : 0.0 ≤ x) (hy : 0.0 ≤ y) : 0.0 ≤ x + y ∧ x ≤ x + y := by
  obtain ⟨hnan, hextended⟩ := nonneg_iff_extended.mp hx
  rcases nonneg_cases hy with hinfinite | ⟨hfinite, hreal⟩
  · -- the sum is infinite
    have hsum : (x + y).toModel.unpack = .infinity .positive := by
      rcases nonneg_cases hx with h | ⟨h, -⟩
      · have hself : x + y = x := add_of_unpack (by rw [h, hinfinite]; rfl)
        rw [hself, h]
      · rw [add_infinity h hinfinite, hinfinite]
    have htop : extended (x + y) = ⊤ := by
      unfold extended
      rw [hsum]
      rfl
    obtain ⟨hnumber, -⟩ := nonneg_iff_extended.mp (nonneg_of_unpack hsum)
    exact ⟨nonneg_of_unpack hsum, le_iff_extended.mpr ⟨hnan, hnumber, htop ▸ le_top⟩⟩
  · rcases nonneg_cases hx with h | ⟨h, hreal'⟩
    · rw [infinity_add h hfinite]
      exact ⟨hx, le_iff_extended.mpr ⟨hnan, hnan, le_rfl⟩⟩
    · have hrounds := rounds_add h hfinite
      refine ⟨hrounds.nonneg (add_nonneg hreal' hreal),
        le_iff_extended.mpr ⟨hnan, hrounds.isNaN, ?_⟩⟩
      rw [extended_of_isFinite h]
      exact hrounds.le _ (representable_real h) (le_add_of_nonneg_right hreal)

/-! ## Climbing -/

/-- A later value is not below an earlier one, if it is still a number. -/
def Climbs (a b : Float) : Prop :=
  b.isNaN = true ∨ a ≤ b

namespace Climbs

variable {a b c : Float}

theorem not_lt (h : Climbs a b) : ¬ b < a :=
  not_lt_iff.mpr (h.imp_right Or.inr)

theorem trans (h : Climbs a b) (k : Climbs b c) : Climbs a c := by
  rcases k with k | k
  · exact Or.inl k
  · rcases h with h | h
    · rw [(le_iff_extended.mp k).1] at h
      exact absurd h Bool.false_ne_true
    · obtain ⟨ha, -, hab⟩ := le_iff_extended.mp h
      obtain ⟨-, hc, hbc⟩ := le_iff_extended.mp k
      exact Or.inr (le_iff_extended.mpr ⟨ha, hc, hab.trans hbc⟩)

theorem refl (a : Float) : Climbs a a := by
  cases h : a.isNaN with
  | true => exact Or.inl h
  | false => exact Or.inr (le_iff_extended.mpr ⟨h, h, le_rfl⟩)

/-- **Adding something that is not negative climbs.** -/
theorem add (ha : Climbs 0.0 a) (hb : Climbs 0.0 b) : Climbs a (a + b) := by
  rcases ha with ha | ha
  · exact Or.inl (isNaN_add_of_left ha b)
  · rcases hb with hb | hb
    · exact Or.inl (isNaN_add_of_right a hb)
    · exact Or.inr (nonneg_add ha hb).2

/-- Adding some things that are not negative, one after the other, climbs. -/
theorem foldl_add {terms : List Float} (ha : Climbs 0.0 a) (h : ∀ t ∈ terms, Climbs 0.0 t) :
    Climbs a (terms.foldl (· + ·) a) := by
  induction terms generalizing a with
  | nil => exact refl a
  | cons t terms ih =>
    have hstep := add ha (h t List.mem_cons_self)
    exact hstep.trans (ih (ha.trans hstep) fun u hu => h u (List.mem_cons_of_mem t hu))

end Climbs

/-- A sum of numbers that are not negative is not below the first. -/
theorem nonneg_foldl_add {terms : List Float} (hx : 0.0 ≤ x) (h : ∀ t ∈ terms, 0.0 ≤ t) :
    0.0 ≤ terms.foldl (· + ·) x ∧ x ≤ terms.foldl (· + ·) x := by
  induction terms generalizing x with
  | nil =>
    obtain ⟨hnan, -⟩ := nonneg_iff_extended.mp hx
    exact ⟨hx, le_iff_extended.mpr ⟨hnan, hnan, le_rfl⟩⟩
  | cons t terms ih =>
    obtain ⟨hnonneg, hle⟩ := nonneg_add hx (h t List.mem_cons_self)
    obtain ⟨hnonneg', hle'⟩ := ih hnonneg fun u hu => h u (List.mem_cons_of_mem t hu)
    obtain ⟨hnan, -, hab⟩ := le_iff_extended.mp hle
    obtain ⟨-, hnan', hbc⟩ := le_iff_extended.mp hle'
    exact ⟨hnonneg', le_iff_extended.mpr ⟨hnan, hnan', hab.trans hbc⟩⟩

/-! ## Squares, roots and quotients -/

theorem nonneg_mul_self (hx : x.isNaN = false) : 0.0 ≤ x * x := by
  rcases sort_cases x with h | ⟨sign, h⟩ | h
  · exact absurd h (unpack_ne_notANumber hx)
  · have hsquare : x * x = packed (.infinity .positive) := by
      show packed (UnpackedFloat.mul .binary64 x.toModel.unpack x.toModel.unpack) = _
      rw [h]
      cases sign <;> rfl
    rw [hsquare]
    exact nonneg_of_unpack rfl
  · exact (rounds_mul h h).nonneg (mul_self_nonneg _)

theorem nonneg_sqrt (hx : 0.0 ≤ x) : 0.0 ≤ x.sqrt := by
  rcases nonneg_cases hx with h | ⟨h, hreal⟩
  · have hroot : x.sqrt = packed (.infinity .positive) := by
      show packed (UnpackedFloat.sqrt .binary64 x.toModel.unpack) = _
      rw [h]
      rfl
    rw [hroot]
    exact nonneg_of_unpack rfl
  · exact (rounds_sqrt h hreal).nonneg (Real.sqrt_nonneg _)

/-- No root is negative, though there need not be one. -/
theorem isNaN_or_nonneg_sqrt (x : Float) : x.sqrt.isNaN = true ∨ 0.0 ≤ x.sqrt := by
  have hsqrt : x.sqrt = packed (UnpackedFloat.sqrt .binary64 x.toModel.unpack) := rfl
  rcases sort_cases x with h | ⟨_ | _, h⟩ | h
  · left
    rw [hsqrt, h]
    rfl
  · left
    rw [hsqrt, h]
    rfl
  · exact Or.inr (nonneg_sqrt (nonneg_of_unpack h))
  · rcases unpack_of_isFinite h with ⟨sign, hs⟩ | ⟨_ | _, m, e, hm, hs⟩
    · right
      refine nonneg_sqrt ((nonneg_iff_real h).mpr ?_)
      rw [real_of_unpack_zero hs]
    · left
      have hnone : UnpackedFloat.sqrt .binary64 (.finite .negative m e hm) = .notANumber := rfl
      rw [hsqrt, hs, hnone]
      rfl
    · right
      refine nonneg_sqrt ((nonneg_iff_real h).mpr ?_)
      rw [real_of_unpack_finite hs]
      exact mul_nonneg (Nat.cast_nonneg m) (by positivity)

/-- An infinity stays what it is when it is divided by something finite above zero. -/
theorem infinity_div (hx : x.toModel.unpack = .infinity .positive) (hy : y.isFinite)
    (hpos : 0 < real y) : (x / y).toModel.unpack = .infinity .positive := by
  rcases unpack_of_isFinite hy with ⟨sign, hs⟩ | ⟨sign, m, e, hm, hs⟩
  · rw [real_of_unpack_zero hs] at hpos
    exact absurd hpos (lt_irrefl _)
  · have hsign : sign = .positive := by
      cases sign with
      | positive => rfl
      | negative =>
        rw [real_of_unpack_finite hs] at hpos
        have hpositive : (0 : ℝ) < m * 2 ^ e := by positivity
        exact absurd hpos (neg_neg_of_pos hpositive).not_gt
    subst hsign
    have hquotient : x / y = packed (.infinity .positive) := by
      show packed (UnpackedFloat.div .binary64 x.toModel.unpack y.toModel.unpack) = _
      rw [hx, hs]
      rfl
    rw [hquotient]
    rfl

/-- Dividing by something finite above zero keeps the sign. -/
theorem nonneg_div (hx : 0.0 ≤ x) (hpos : 0.0 < y) (hy : y.isFinite) : 0.0 ≤ x / y := by
  have hreal : 0 < real y := by
    rw [lt_iff_real rfl hy] at hpos
    exact hpos
  rcases nonneg_cases hx with h | ⟨h, hreal'⟩
  · exact nonneg_of_unpack (infinity_div h hy hreal)
  · exact (rounds_div h hy hreal.ne').nonneg (div_nonneg hreal' hreal.le)

/-- What is not a number cannot be divided. -/
theorem isNaN_div_of_left (hx : x.isNaN = true) (y : Float) : (x / y).isNaN = true := by
  have hquotient : x / y = packed .notANumber := by
    show packed (UnpackedFloat.div .binary64 x.toModel.unpack y.toModel.unpack) = _
    rw [isNaN_iff_unpack.mp hx]
    rfl
  rw [hquotient]
  rfl

end Number
end PrintPath
