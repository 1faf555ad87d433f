import Mathlib
import PrintPath.Number.Faithful

/-!
# Arithmetic on doubles rounds the exact result

Adding, subtracting, multiplying and dividing finite doubles, and taking the root of one,
gives what the exact result is rounded to (`rounds_add`, `rounds_sub`, `rounds_mul`,
`rounds_div`, `rounds_sqrt`).  `Rounds` says of that only that no double lies strictly
between the two.  That carries over every bound on the exact result that is a double itself
(`Rounds.within`), and it settles the result if the exact one is the number of a double
(`Rounds.real_eq`).
-/

namespace PrintPath
namespace Number

open Float.Model (UnpackedFloat Format)
open Float.Model.UnpackedFloat

/-- Some finite double stands for this number. -/
def Representable (q : ℝ) : Prop :=
  ∃ x : Float, x.isFinite ∧ real x = q

/-- A double is what a number is rounded to: it is a number, and no finite double lies
strictly between. -/
structure Rounds (q : ℝ) (x : Float) : Prop where
  isNaN : x.isNaN = false
  le : ∀ g, Representable g → g ≤ q → (g : EReal) ≤ extended x
  ge : ∀ g, Representable g → q ≤ g → extended x ≤ g

/-! ## The numbers of doubles -/

theorem representable_real {x : Float} (h : x.isFinite) : Representable (real x) :=
  ⟨x, h, rfl⟩

theorem isFinite_neg {x : Float} (h : x.isFinite) : (-x).isFinite := by
  have hfinite : x.toModel.unpack.isFinite := h
  show (-x).toModel.unpack.isFinite = true
  rw [unpack_neg]
  cases hx : x.toModel.unpack with
  | notANumber => rw [hx] at hfinite; exact hfinite
  | infinity sign => rw [hx] at hfinite; exact hfinite
  | _ => rfl

theorem Representable.neg {q : ℝ} (h : Representable q) : Representable (-q) := by
  obtain ⟨x, hfinite, rfl⟩ := h
  exact ⟨-x, isFinite_neg hfinite, real_neg x⟩

theorem Representable.abs {q : ℝ} (h : Representable q) : Representable |q| := by
  rcases abs_choice q with heq | heq
  · rw [heq]
    exact h
  · rw [heq]
    exact h.neg

theorem representable_zero : Representable 0 :=
  ⟨0.0, rfl, rfl⟩

theorem real_zero : real 0.0 = 0 := rfl

theorem real_one : real 1.0 = 1 := by
  show signed .positive (((4503599627370496 : ℕ) : ℝ) * 2 ^ (-52 : ℤ)) = 1
  norm_num [signed]

/-- The number of a double has at most 53 digits, and none that is too small or too large. -/
theorem Representable.exists_digits {q : ℝ} (h : Representable q) :
    ∃ (sign : Sign) (n : ℕ) (f : ℤ), q = signed sign (n * 2 ^ f) ∧ n < 2 ^ 53 ∧ -1074 ≤ f ∧
      f ≤ 971 := by
  obtain ⟨x, -, rfl⟩ := h
  unfold real
  cases hx : x.toModel.unpack with
  | finite sign mantissa exponent hpos =>
    obtain ⟨hcanonical, hle⟩ := canonical_of_unpack hx
    exact ⟨sign, mantissa, exponent, rfl, hcanonical.mantissa_lt, hcanonical.le_exponent, hle⟩
  | _ => exact ⟨.positive, 0, 0, by simp [unpackedReal, signed], by norm_num, by norm_num,
      by norm_num⟩

theorem Representable.lt {q : ℝ} (h : Representable q) : q < 2 ^ (1024 : ℤ) := by
  obtain ⟨sign, n, f, rfl, hn, -, hf⟩ := h.exists_digits
  have hbound : (n : ℝ) * 2 ^ f < 2 ^ (1024 : ℤ) := by
    have hcast : (n : ℝ) < 2 ^ (53 : ℤ) := by
      exact_mod_cast hn
    calc (n : ℝ) * 2 ^ f < 2 ^ (53 : ℤ) * 2 ^ f := by gcongr
      _ = 2 ^ (53 + f) := (zpow_add₀ two_ne_zero _ _).symm
      _ ≤ 2 ^ (1024 : ℤ) := zpow_le_zpow_right₀ one_le_two (by omega)
  cases sign with
  | positive => exact hbound
  | negative =>
    have hnonneg : (0 : ℝ) ≤ n * 2 ^ f := by positivity
    exact (neg_nonpos.mpr hnonneg).trans_lt (by positivity)

/-- A number is stored past no number of a double. -/
theorem Stored.not_passed {q : ℝ} {m : ℕ} {e : ℤ} (hq : 0 ≤ q) (h : Stored q m e) {g : ℝ}
    (hg : Representable g) :
    (g ≤ q → g ≤ m * 2 ^ e) ∧ (q ≤ g → (m : ℝ) * 2 ^ e ≤ g) := by
  obtain ⟨sign, n, f, rfl, hn, hf, -⟩ := hg.exists_digits
  have hnonneg : (0 : ℝ) ≤ n * 2 ^ f := by positivity
  cases sign with
  | positive => exact ⟨h.le n f hn.le hf, h.ge n f hn.le hf⟩
  | negative =>
    constructor
    · intro _
      exact (neg_nonpos.mpr hnonneg).trans (by positivity)
    · intro hle
      -- both numbers are zero
      have hzero : q ≤ ((0 : ℕ) : ℝ) * 2 ^ (0 : ℤ) := by
        rw [Nat.cast_zero, zero_mul]
        exact hle.trans (neg_nonpos.mpr hnonneg)
      have hstored := h.ge 0 0 (Nat.zero_le _) (by norm_num) hzero
      rw [Nat.cast_zero, zero_mul] at hstored
      exact hstored.trans (hq.trans hle)

/-! ## Packing rounds -/

/-- The double that an unpacked one is packed to. -/
def packed (unpacked : UnpackedFloat) : Float :=
  Float.ofModel (.pack unpacked)

/-- A number whose mantissa and power go together is packed to itself, or to an infinity if
it is too large. -/
theorem extended_packed {m : ℕ} {e : ℤ} (h : Canonical m e) (hpos : 0 < m) (sign : Sign) :
    (packed (.finite sign m e hpos)).isNaN = false ∧
      (extended (packed (.finite sign m e hpos)) = (signed sign (m * 2 ^ e) : ℝ) ∨
        (2 : ℝ) ^ (1024 : ℤ) ≤ m * 2 ^ e ∧
          extended (packed (.finite sign m e hpos)) = unpackedExtended (.infinity sign)) := by
  have hunpack (unpacked : UnpackedFloat) (hunpacked : (Float.Model.pack
      (.finite sign m e hpos)).unpack = unpacked) :
      extended (packed (.finite sign m e hpos)) = unpackedExtended unpacked ∧
        (packed (.finite sign m e hpos)).isNaN = unpacked.isNaN := by
    rw [← hunpacked]
    exact ⟨rfl, rfl⟩
  rcases le_or_gt e 971 with hle | hlt
  · obtain ⟨hextended, hnan⟩ := hunpack _ (unpack_pack_finite h hle sign hpos)
    exact ⟨hnan, Or.inl hextended⟩
  · obtain ⟨hextended, hnan⟩ := hunpack _ (unpack_pack_of_large hlt sign hpos)
    refine ⟨hnan, Or.inr ⟨?_, hextended⟩⟩
    have hfull : (2 : ℝ) ^ (52 : ℤ) ≤ m := by
      exact_mod_cast h.full.resolve_right (by omega)
    calc (2 : ℝ) ^ (1024 : ℤ) ≤ 2 ^ (52 + e) := zpow_le_zpow_right₀ one_le_two (by omega)
      _ = 2 ^ (52 : ℤ) * 2 ^ e := zpow_add₀ two_ne_zero _ _
      _ ≤ m * 2 ^ e := by gcongr

/-- A double rounds a number if it stands for one that no double separates from it. -/
theorem rounds_of_not_passed {q w : ℝ} {x : Float} (sign : Sign) (hnan : x.isNaN = false)
    (hx : extended x = (signed sign w : ℝ))
    (h : ∀ g, Representable g → (g ≤ q → g ≤ w) ∧ (q ≤ g → w ≤ g)) :
    Rounds (signed sign q) x := by
  refine ⟨hnan, ?_, ?_⟩
  · intro g hg hle
    rw [hx, EReal.coe_le_coe_iff]
    cases sign with
    | positive => exact (h g hg).1 hle
    | negative => exact le_neg_of_le_neg ((h (-g) hg.neg).2 (le_neg_of_le_neg hle))
  · intro g hg hle
    rw [hx, EReal.coe_le_coe_iff]
    cases sign with
    | positive => exact (h g hg).2 hle
    | negative => exact neg_le_of_neg_le ((h (-g) hg.neg).1 (neg_le_of_neg_le hle))

/-- An infinity rounds a number that lies beyond all doubles. -/
theorem rounds_of_beyond {q : ℝ} {x : Float} (sign : Sign) (hnan : x.isNaN = false)
    (hx : extended x = unpackedExtended (.infinity sign)) (h : ∀ g, Representable g → g < q) :
    Rounds (signed sign q) x := by
  refine ⟨hnan, ?_, ?_⟩
  · intro g hg hle
    rw [hx]
    cases sign with
    | positive => exact le_top
    | negative => exact absurd (le_neg_of_le_neg hle) (h (-g) hg.neg).not_ge
  · intro g hg hle
    rw [hx]
    cases sign with
    | positive => exact absurd hle (h g hg).not_ge
    | negative => exact bot_le

/-- **What a number is stored as is packed to what it is rounded to.** -/
theorem Stored.rounds {q : ℝ} {m : ℕ} {e : ℤ} (hq : 0 ≤ q) (h : Stored q m e) (sign : Sign) :
    Rounds (signed sign q) (packed (unpackedOf sign m e)) := by
  unfold unpackedOf
  split_ifs with hzero
  · subst hzero
    refine rounds_of_not_passed (w := (0 : ℕ) * 2 ^ e) sign (by cases sign <;> rfl) ?_
      fun g hg => h.not_passed hq hg
    cases sign <;> simp [signed] <;> rfl
  · obtain ⟨hnan, hfinite | ⟨hlarge, hinfinite⟩⟩ :=
      extended_packed h.canonical (Nat.pos_of_ne_zero hzero) sign
    · exact rounds_of_not_passed sign hnan hfinite fun g hg => h.not_passed hq hg
    · refine rounds_of_beyond sign hnan hinfinite fun g hg => ?_
      by_contra hle
      exact absurd (hlarge.trans ((h.not_passed hq hg).2 (not_lt.mp hle))) hg.lt.not_ge

/-! ## The operations -/

section

variable {x y : Float}

/-- A finite double is what its own number is rounded to. -/
theorem rounds_self (h : x.isFinite) : Rounds (real x) x := by
  refine ⟨isNaN_of_isFinite h, ?_, ?_⟩
  · intro g _ hle
    rw [extended_of_isFinite h]
    exact EReal.coe_le_coe_iff.mpr hle
  · intro g _ hle
    rw [extended_of_isFinite h]
    exact EReal.coe_le_coe_iff.mpr hle

/-- A finite double is a zero, or it has a sign, a mantissa and a power. -/
theorem unpack_of_isFinite (h : x.isFinite) :
    (∃ sign, x.toModel.unpack = .zero sign) ∨
      ∃ sign m e hpos, x.toModel.unpack = .finite sign m e hpos := by
  have hfinite : x.toModel.unpack.isFinite := h
  cases hx : x.toModel.unpack with
  | notANumber => rw [hx] at hfinite; exact absurd hfinite Bool.false_ne_true
  | infinity sign => rw [hx] at hfinite; exact absurd hfinite Bool.false_ne_true
  | zero sign => exact Or.inl ⟨sign, rfl⟩
  | finite sign m e hpos => exact Or.inr ⟨sign, m, e, hpos, rfl⟩

theorem real_of_unpack_zero {sign : Sign} (h : x.toModel.unpack = .zero sign) : real x = 0 := by
  unfold real
  rw [h]
  rfl

theorem real_of_unpack_finite {sign : Sign} {m : ℕ} {e : ℤ} {hpos : 0 < m}
    (h : x.toModel.unpack = .finite sign m e hpos) : real x = signed sign (m * 2 ^ e) := by
  unfold real
  rw [h]
  rfl

theorem rounds_packed_zero (sign : Sign) : Rounds 0 (packed (.zero sign)) := by
  have h : Rounds (signed sign 0) (packed (.zero sign)) := by
    refine rounds_of_not_passed (w := 0) sign (by cases sign <;> rfl) ?_ fun g _ => ⟨id, id⟩
    cases sign <;> simp [signed] <;> rfl
  cases sign <;> simpa [signed] using h

theorem signed_apply (sign : Sign) (n : ℤ) : ((sign.apply n : ℤ) : ℝ) = signed sign n := by
  cases sign with
  | positive => rfl
  | negative => exact Int.cast_neg n

/-- A whole number of units is rounded, whatever the unit. -/
theorem rounds_normalize (m e : ℤ) (sign : Sign) :
    Rounds (m * 2 ^ e) (packed (UnpackedFloat.normalize .binary64 m e sign)) := by
  unfold UnpackedFloat.normalize
  rcases lt_trichotomy m 0 with hneg | rfl | hpos
  · rw [compare_lt_iff_lt.mpr hneg]
    obtain ⟨mantissa, exponent, hstored, hround⟩ :=
      stored_round (m := (-m).toNat) (by omega) e .negative
    have hcast : (((-m).toNat : ℕ) : ℝ) = -m := by
      exact_mod_cast Int.toNat_of_nonneg (by omega : 0 ≤ -m)
    have hrounds := hstored.rounds (by positivity) .negative
    rw [← hround, hcast] at hrounds
    simpa [signed] using hrounds
  · rw [compare_eq_iff_eq.mpr rfl, Int.cast_zero, zero_mul]
    exact rounds_packed_zero sign
  · rw [compare_gt_iff_gt.mpr hpos]
    obtain ⟨mantissa, exponent, hstored, hround⟩ :=
      stored_round (m := m.toNat) (by omega) e .positive
    have hcast : ((m.toNat : ℕ) : ℝ) = m := by
      exact_mod_cast Int.toNat_of_nonneg hpos.le
    have hrounds := hstored.rounds (by positivity) .positive
    rw [← hround, hcast] at hrounds
    exact hrounds

/-- A number in units of a smaller power of two. -/
theorem decreaseExponent_mul_zpow (m : ℕ) {e t : ℤ} (h : t ≤ e) :
    ((decreaseExponent m e t).1 : ℝ) * 2 ^ t = m * 2 ^ e := by
  have hshift : e = t + (e - t).toNat := by omega
  unfold decreaseExponent
  simp only [Nat.shiftLeft_eq]
  rw [zpow_eq_mul_pow hshift]
  push_cast
  ring

theorem signed_mul (s t : Sign) (a b : ℝ) : signed s a * signed t b = signed (s * t) (a * b) := by
  cases s <;> cases t
  · exact neg_mul_neg a b
  · exact neg_mul a b
  · exact mul_neg a b
  · rfl

theorem signed_div (s t : Sign) (a b : ℝ) : signed s a / signed t b = signed (s / t) (a / b) := by
  cases s <;> cases t
  · exact neg_div_neg_eq a b
  · exact neg_div b a
  · exact div_neg a
  · rfl

theorem signed_mul_right (s : Sign) (a b : ℝ) : signed s a * b = signed s (a * b) :=
  signed_mul s .positive a b |>.trans (by cases s <;> rfl)

/-- **Sums are rounded.** -/
theorem rounds_add (hx : x.isFinite) (hy : y.isFinite) : Rounds (real x + real y) (x + y) := by
  rcases unpack_of_isFinite hx with ⟨s, hs⟩ | ⟨s, m, e, hm, hs⟩ <;>
  rcases unpack_of_isFinite hy with ⟨t, ht⟩ | ⟨t, n, f, hn, ht⟩
  · have hsum : x + y = packed (UnpackedFloat.add .binary64 (.zero s) (.zero t)) := by
      show packed (UnpackedFloat.add .binary64 x.toModel.unpack y.toModel.unpack) = _
      rw [hs, ht]
    rw [hsum, real_of_unpack_zero hs, real_of_unpack_zero ht, add_zero]
    cases s <;> cases t <;> exact rounds_packed_zero _
  · have hsum : x + y = y := add_of_unpack (by rw [hs, ht]; rfl)
    rw [hsum, real_of_unpack_zero hs, zero_add]
    exact rounds_self hy
  · have hsum : x + y = x := add_of_unpack (by rw [hs, ht]; rfl)
    rw [hsum, real_of_unpack_zero ht, add_zero]
    exact rounds_self hx
  · let unit := min e f
    have hsum : x + y = packed (UnpackedFloat.normalize .binary64
        (s.apply (decreaseExponent m e unit).1 + t.apply (decreaseExponent n f unit).1) unit
          .positive) := by
      show packed (UnpackedFloat.add .binary64 x.toModel.unpack y.toModel.unpack) = _
      rw [hs, ht]
      rfl
    have hreal : real x + real y = ((s.apply (decreaseExponent m e unit).1 +
        t.apply (decreaseExponent n f unit).1 : ℤ) : ℝ) * 2 ^ unit := by
      rw [real_of_unpack_finite hs, real_of_unpack_finite ht, Int.cast_add, signed_apply,
        signed_apply, add_mul, signed_mul_right, signed_mul_right, Int.cast_natCast,
        Int.cast_natCast, decreaseExponent_mul_zpow m (min_le_left e f),
        decreaseExponent_mul_zpow n (min_le_right e f)]
    rw [hsum, hreal]
    exact rounds_normalize _ _ _

theorem apply_neg (sign : Sign) (n : ℤ) : (-sign).apply n = -sign.apply n := by
  cases sign with
  | negative => exact (neg_neg n).symm
  | positive => rfl

/-- Subtracting is adding the double of the other sign. -/
theorem sub_eq_add_opposite (x y : Float) : x - y = x + -y := by
  have hunpacked (a b : UnpackedFloat) :
      UnpackedFloat.sub .binary64 a b = UnpackedFloat.add .binary64 a b.neg := by
    rcases a with _ | _ | _ | _ <;> rcases b with _ | _ | _ | _ <;>
      simp [UnpackedFloat.sub, UnpackedFloat.add, UnpackedFloat.neg, apply_neg,
        Int.sub_eq_add_neg]
  show packed (UnpackedFloat.sub .binary64 x.toModel.unpack y.toModel.unpack) =
    packed (UnpackedFloat.add .binary64 x.toModel.unpack (-y).toModel.unpack)
  rw [unpack_neg, hunpacked]

/-- **Differences are rounded.** -/
theorem rounds_sub (hx : x.isFinite) (hy : y.isFinite) : Rounds (real x - real y) (x - y) := by
  rw [sub_eq_add_opposite, sub_eq_add_neg, ← real_neg]
  exact rounds_add hx (isFinite_neg hy)

/-- **Products are rounded.** -/
theorem rounds_mul (hx : x.isFinite) (hy : y.isFinite) : Rounds (real x * real y) (x * y) := by
  have hproduct : x * y = packed (UnpackedFloat.mul .binary64 x.toModel.unpack y.toModel.unpack) :=
    rfl
  rcases unpack_of_isFinite hx with ⟨s, hs⟩ | ⟨s, m, e, hm, hs⟩ <;>
  rcases unpack_of_isFinite hy with ⟨t, ht⟩ | ⟨t, n, f, hn, ht⟩
  · rw [hproduct, hs, ht, real_of_unpack_zero hs, zero_mul]
    exact rounds_packed_zero _
  · rw [hproduct, hs, ht, real_of_unpack_zero hs, zero_mul]
    exact rounds_packed_zero _
  · rw [hproduct, hs, ht, real_of_unpack_zero ht, mul_zero]
    exact rounds_packed_zero _
  · have henough : 2 ^ 52 ≤ m * n ∨ e + f ≤ -1074 := by
      rcases (canonical_of_unpack hs).1.full with h | rfl
      · exact Or.inl (h.trans (Nat.le_mul_of_pos_right m hn))
      · rcases (canonical_of_unpack ht).1.full with h | rfl
        · exact Or.inl (h.trans (Nat.le_mul_of_pos_left n hm))
        · exact Or.inr (by norm_num)
    obtain ⟨mantissa, exponent, hstored, hround⟩ := stored_roundWithAccuracy_exact henough (s * t)
    have hreal : real x * real y = signed (s * t) (((m * n : ℕ) : ℝ) * 2 ^ (e + f)) := by
      rw [real_of_unpack_finite hs, real_of_unpack_finite ht, signed_mul,
        zpow_add₀ two_ne_zero, Nat.cast_mul]
      congr 1
      ring
    have hrounds := hstored.rounds (by positivity) (s * t)
    rw [hproduct, hs, ht, hreal]
    rw [← hround] at hrounds
    exact hrounds

/-! ## Quotients and roots -/

theorem accuracyOfFraction_eq_exact {num den : ℕ} :
    accuracyOfFraction num den = .exact ↔ num = 0 := by
  unfold accuracyOfFraction
  split_ifs with h
  · exact iff_of_true rfl h
  · exact iff_of_false (by simp) h

/-- **Dividing with a rest** gives the whole part of a quotient in units that are small
enough. -/
theorem exists_divCore {m n : ℕ} (hm : 0 < m) (hn : 0 < n) (e f : ℤ) :
    ∃ whole unit rest, divCore .binary64 m e n f = (whole, unit, accuracyOfFraction rest n) ∧
      rest < n ∧ (2 ^ 52 ≤ whole ∨ unit ≤ -1074) ∧
        (m : ℝ) * 2 ^ e / (n * 2 ^ f) = (whole + rest / n) * 2 ^ unit := by
  let unit : ℤ := min (e - f) (max (((m.log2 : ℤ) + 1 + e) - (n.log2 + 1 + f) - 53) (-1074))
  let shift : ℕ := (e - f - unit).toNat
  have hshift : e = f + unit + shift := by omega
  have hwhole : n * (m * 2 ^ shift / n) + m * 2 ^ shift % n = m * 2 ^ shift := Nat.div_add_mod _ _
  have hrest : m * 2 ^ shift % n < n := Nat.mod_lt _ hn
  have henough : 2 ^ 52 ≤ m * 2 ^ shift / n ∨ unit ≤ -1074 := by
    by_cases h : unit ≤ -1074
    · exact Or.inr h
    · left
      rw [Nat.le_div_iff_mul_le hn]
      calc 2 ^ 52 * n ≤ 2 ^ 52 * 2 ^ (n.log2 + 1) :=
            Nat.mul_le_mul_left _ Nat.lt_log2_self.le
        _ = 2 ^ (52 + (n.log2 + 1)) := (pow_add _ _ _).symm
        _ ≤ 2 ^ (m.log2 + shift) := Nat.pow_le_pow_right two_pos (by omega)
        _ = 2 ^ m.log2 * 2 ^ shift := pow_add _ _ _
        _ ≤ m * 2 ^ shift := Nat.mul_le_mul_right _ (Nat.log2_self_le hm.ne')
  have hcore : divCore .binary64 m e n f =
      (m * 2 ^ shift / n, unit, accuracyOfFraction (m * 2 ^ shift % n) n) := by
    rw [← Nat.shiftLeft_eq]
    rfl
  refine ⟨_, _, _, hcore, hrest, henough, ?_⟩
  generalize m * 2 ^ shift / n = whole at hwhole ⊢
  generalize m * 2 ^ shift % n = rest at hwhole ⊢
  have hn' : (n : ℝ) ≠ 0 := by
    exact_mod_cast hn.ne'
  have hcast : (n : ℝ) * whole + rest = m * 2 ^ shift := by
    exact_mod_cast hwhole
  rw [zpow_eq_mul_pow hshift, zpow_add₀ two_ne_zero]
  field_simp
  linear_combination -hcast

/-- A whole part and a proper fraction, in units: the whole part does not reach the next one,
and it is all if the rest of the division is zero. -/
theorem mixed_bounds (whole : ℕ) {rest n : ℕ} (h : rest < n) (unit : ℤ) :
    (whole : ℝ) * 2 ^ unit ≤ (whole + rest / n) * 2 ^ unit ∧
      ((whole : ℝ) + rest / n) * 2 ^ unit < (whole + 1) * 2 ^ unit ∧
        (((whole : ℝ) + rest / n) * 2 ^ unit = whole * 2 ^ unit ↔
          accuracyOfFraction rest n = .exact) := by
  have hn : (0 : ℝ) < n := by
    exact_mod_cast (Nat.zero_le rest).trans_lt h
  have hpower : (0 : ℝ) < 2 ^ unit := by positivity
  refine ⟨?_, ?_, ?_⟩
  · exact mul_le_mul_of_nonneg_right (le_add_of_nonneg_right (by positivity)) hpower.le
  · have hfraction : (rest : ℝ) / n < 1 := by
      rw [div_lt_one hn]
      exact_mod_cast h
    exact mul_lt_mul_of_pos_right (add_lt_add_right hfraction _) hpower
  · rw [accuracyOfFraction_eq_exact, mul_left_inj' hpower.ne', add_eq_left,
      div_eq_zero_iff, or_iff_left hn.ne', Nat.cast_eq_zero]

/-- A quotient is stored from its whole part in small enough units. -/
theorem stored_div {m n : ℕ} (hm : 0 < m) (hn : 0 < n) (e f : ℤ) (sign : Sign) :
    ∃ mantissa exponent, Stored (m * 2 ^ e / (n * 2 ^ f)) mantissa exponent ∧
      roundWithAccuracy .binary64 sign (divCore .binary64 m e n f).1
          (divCore .binary64 m e n f).2.1 (divCore .binary64 m e n f).2.2 =
        unpackedOf sign mantissa exponent := by
  obtain ⟨whole, unit, rest, hcore, hrest, henough, hquotient⟩ := exists_divCore hm hn e f
  obtain ⟨hle, hlt, hexact⟩ := mixed_bounds whole hrest unit
  rw [hcore, hquotient]
  exact stored_roundWithAccuracy hle hlt hexact henough sign

/-- **Quotients are rounded**, if it is not a zero that is divided by. -/
theorem rounds_div (hx : x.isFinite) (hy : y.isFinite) (hzero : real y ≠ 0) :
    Rounds (real x / real y) (x / y) := by
  have hquotient : x / y = packed (UnpackedFloat.div .binary64 x.toModel.unpack y.toModel.unpack) :=
    rfl
  rcases unpack_of_isFinite hy with ⟨t, ht⟩ | ⟨t, n, f, hn, ht⟩
  · exact absurd (real_of_unpack_zero ht) hzero
  · rcases unpack_of_isFinite hx with ⟨s, hs⟩ | ⟨s, m, e, hm, hs⟩
    · rw [hquotient, hs, ht, real_of_unpack_zero hs, zero_div]
      exact rounds_packed_zero _
    · obtain ⟨mantissa, exponent, hstored, hround⟩ := stored_div hm hn e f (s / t)
      have hrounds := hstored.rounds (by positivity) (s / t)
      rw [← hround, ← signed_div, ← real_of_unpack_finite hs, ← real_of_unpack_finite ht]
        at hrounds
      rw [hquotient, hs, ht]
      exact hrounds

/-- A root is stored from its whole part in small enough units. -/
theorem stored_sqrt {m : ℕ} (hm : 0 < m) (e : ℤ) (sign : Sign) :
    ∃ mantissa exponent, Stored (√(m * 2 ^ e)) mantissa exponent ∧
      roundWithAccuracy .binary64 sign (sqrtCore .binary64 m e).1
          (sqrtCore .binary64 m e).2.1 (sqrtCore .binary64 m e).2.2 =
        unpackedOf sign mantissa exponent := by
  let unit : ℤ := min (e / 2) (max (((m.log2 : ℤ) + 1 + e + 1) / 2 - 53) (-1074))
  let shift : ℕ := (e - 2 * unit).toNat
  have hshift : e = unit + unit + shift := by omega
  let square : ℕ := m * 2 ^ shift
  let accuracy : Accuracy := if square - square.sqrt * square.sqrt = 0 then .exact
    else .inexact (if square - square.sqrt * square.sqrt ≤ square.sqrt then .lt else .gt)
  have hcore : sqrtCore .binary64 m e = (square.sqrt, unit, accuracy) := by
    unfold accuracy square
    rw [← Nat.shiftLeft_eq]
    rfl
  have henough : 2 ^ 52 ≤ square.sqrt ∨ unit ≤ -1074 := by
    by_cases h : unit ≤ -1074
    · exact Or.inr h
    · left
      rw [Nat.le_sqrt]
      calc 2 ^ 52 * 2 ^ 52 = 2 ^ 104 := by norm_num
        _ ≤ 2 ^ (m.log2 + shift) := Nat.pow_le_pow_right two_pos (by omega)
        _ = 2 ^ m.log2 * 2 ^ shift := pow_add _ _ _
        _ ≤ m * 2 ^ shift := Nat.mul_le_mul_right _ (Nat.log2_self_le hm.ne')
  have hpower : (0 : ℝ) < 2 ^ unit := by positivity
  have hroot : √((m : ℝ) * 2 ^ e) = √(square : ℝ) * 2 ^ unit := by
    have hsquare : (m : ℝ) * 2 ^ e = square * (2 ^ unit * 2 ^ unit) := by
      rw [zpow_eq_mul_pow hshift, zpow_add₀ two_ne_zero]
      push_cast [square]
      ring
    rw [hsquare, Real.sqrt_mul (Nat.cast_nonneg square), Real.sqrt_mul_self hpower.le]
  rw [hcore, hroot]
  refine stored_roundWithAccuracy ?_ ?_ ?_ henough sign
  · exact mul_le_mul_of_nonneg_right Real.nat_sqrt_le_real_sqrt hpower.le
  · exact mul_lt_mul_of_pos_right Real.real_sqrt_lt_nat_sqrt_succ hpower
  · have hexact : accuracy = .exact ↔ square.sqrt * square.sqrt = square := by
      have hle := Nat.sqrt_le square
      unfold accuracy
      split_ifs with h
      · exact iff_of_true rfl (by omega)
      · exact iff_of_false (by simp) (by omega)
    rw [hexact, mul_left_inj' hpower.ne', Real.sqrt_eq_iff_mul_self_eq (Nat.cast_nonneg _)
      (Nat.cast_nonneg _)]
    exact_mod_cast eq_comm

/-- **Roots are rounded**, if there is one. -/
theorem rounds_sqrt (hx : x.isFinite) (hnonneg : 0 ≤ real x) : Rounds (√(real x)) x.sqrt := by
  have hsqrt : x.sqrt = packed (UnpackedFloat.sqrt .binary64 x.toModel.unpack) := rfl
  rcases unpack_of_isFinite hx with ⟨s, hs⟩ | ⟨s, m, e, hm, hs⟩
  · rw [hsqrt, hs, real_of_unpack_zero hs, Real.sqrt_zero]
    exact rounds_packed_zero _
  · have hpos : (0 : ℝ) < m * 2 ^ e := by positivity
    rw [real_of_unpack_finite hs] at hnonneg ⊢
    cases s with
    | negative => exact absurd hnonneg (neg_neg_of_pos hpos).not_ge
    | positive =>
      obtain ⟨mantissa, exponent, hstored, hround⟩ := stored_sqrt hm e .positive
      have hrounds := hstored.rounds (Real.sqrt_nonneg _) .positive
      rw [← hround] at hrounds
      rw [hsqrt, hs]
      exact hrounds

end

/-! ## What rounding keeps -/

/-- **Whole multiples of a power of two are numbers of doubles**, if they have at most 53
digits and are neither too small nor too large. -/
theorem representable_mul_zpow {n : ℕ} {e : ℤ} (hn : n ≤ 2 ^ 53) (he : -1074 ≤ e)
    (hlt : (n : ℝ) * 2 ^ e < 2 ^ (1024 : ℤ)) : Representable (n * 2 ^ e) := by
  rcases Nat.eq_zero_or_pos n with rfl | hpos
  · rw [Nat.cast_zero, zero_mul]
    exact representable_zero
  · obtain ⟨m, f, hstored, -⟩ := stored_round hpos e .positive
    -- it is stored as itself, because it is not passed
    have hsame : (m : ℝ) * 2 ^ f = n * 2 ^ e :=
      le_antisymm (hstored.ge n e hn he le_rfl) (hstored.le n e hn he le_rfl)
    have hm : 0 < m := by
      have hpositive : (0 : ℝ) < m * 2 ^ f := by
        rw [hsame]
        positivity
      exact_mod_cast pos_of_mul_pos_left hpositive (by positivity)
    obtain ⟨hnan, hextended | ⟨hlarge, -⟩⟩ := extended_packed hstored.canonical hm .positive
    · rw [hsame] at hextended
      have hfinite : (packed (.finite .positive m f hm)).isFinite :=
        isFinite_of_extended hnan (by rw [hextended]; exact EReal.coe_ne_bot _)
          (by rw [hextended]; exact EReal.coe_ne_top _)
      refine ⟨_, hfinite, ?_⟩
      rw [extended_of_isFinite hfinite, EReal.coe_eq_coe_iff] at hextended
      exact hextended
    · exact absurd hlt (hsame ▸ hlarge).not_gt

/-- A double is finite, and not farther from zero than some bound. -/
structure Within (bound : ℝ) (x : Float) : Prop where
  isFinite : x.isFinite
  abs_le : |real x| ≤ bound

theorem Within.mono {b c : ℝ} {x : Float} (h : Within b x) (hle : b ≤ c) : Within c x :=
  ⟨h.isFinite, h.abs_le.trans hle⟩

theorem Within.neg {b : ℝ} {x : Float} (h : Within b x) : Within b (-x) :=
  ⟨isFinite_neg h.isFinite, by rw [real_neg, abs_neg]; exact h.abs_le⟩

namespace Rounds

variable {q b : ℝ} {x : Float}

/-- **A bound that is the number of a double is kept by rounding.** -/
theorem within (h : Rounds q x) (hb : Representable b) (hq : |q| ≤ b) : Within b x := by
  obtain ⟨hlower, hupper⟩ := abs_le.mp hq
  have hge := h.le (-b) hb.neg hlower
  have hle := h.ge b hb hupper
  have hfinite : x.isFinite := by
    refine isFinite_of_extended h.isNaN ?_ ?_
    · intro hbot
      rw [hbot, le_bot_iff] at hge
      exact EReal.coe_ne_bot _ hge
    · intro htop
      rw [htop, top_le_iff] at hle
      exact EReal.coe_ne_top _ hle
  rw [extended_of_isFinite hfinite, EReal.coe_le_coe_iff] at hge hle
  exact ⟨hfinite, abs_le.mpr ⟨hge, hle⟩⟩

/-- **What is the number of a double needs no rounding.** -/
theorem real_eq (h : Rounds q x) (hq : Representable q) : x.isFinite ∧ real x = q := by
  have hextended : extended x = q := le_antisymm (h.ge q hq le_rfl) (h.le q hq le_rfl)
  have hfinite : x.isFinite := isFinite_of_extended h.isNaN
    (by rw [hextended]; exact EReal.coe_ne_bot _) (by rw [hextended]; exact EReal.coe_ne_top _)
  rw [extended_of_isFinite hfinite, EReal.coe_eq_coe_iff] at hextended
  exact ⟨hfinite, hextended⟩

end Rounds

/-- **Multiplying by one changes nothing**, not even the sign of a zero. -/
theorem mul_one_eq (x : Float) : x * 1.0 = x := by
  by_cases hfinite : x.isFinite
  · by_cases hzero : x == 0.0
    · rcases beq_zero_iff.mp hzero with rfl | rfl
      · rfl
      · rfl
    · have hreal : Representable (real x * real 1.0) := by
        rw [real_one, mul_one]
        exact representable_real hfinite
      obtain ⟨hproduct, heq⟩ := (rounds_mul hfinite rfl).real_eq hreal
      rw [real_one, mul_one] at heq
      have hbeq : x * 1.0 == x := (beq_iff_real hproduct hfinite).mpr heq
      -- equal numbers are the same double, unless they are zeros
      obtain ⟨-, -, hsame | ⟨-, rfl⟩ | ⟨-, rfl⟩⟩ := Float.beq_iff_ne_nan_and_eq.mp hbeq
      · exact hsame
      · exact absurd rfl hzero
      · exact absurd rfl hzero
  · have hpacked : x * 1.0 = packed x.toModel.unpack := by
      show packed (UnpackedFloat.mul .binary64 x.toModel.unpack (1.0 : Float).toModel.unpack) = _
      have hnot : ¬ x.toModel.unpack.isFinite := hfinite
      cases hx : x.toModel.unpack with
      | notANumber => rfl
      | infinity sign => cases sign <;> rfl
      | _ =>
        rw [hx] at hnot
        exact absurd rfl hnot
    rw [hpacked]
    exact Float.ofBits_toBits x

/-- Dividing by something that is not below one does not lead out of the doubles. -/
theorem isFinite_div {x y : Float} (hx : x.isFinite) (hy : y.isFinite) (hone : 1.0 ≤ y) :
    (x / y).isFinite := by
  rw [le_iff_real rfl hy, real_one] at hone
  have hpos : 0 < real y := one_pos.trans_le hone
  refine ((rounds_div hx hy hpos.ne').within (representable_real hx).abs ?_).isFinite
  rw [abs_div, abs_of_pos hpos]
  exact div_le_self (abs_nonneg _) hone

end Number
end PrintPath
