import Mathlib
import PrintPath.Number.Order
import PrintPath.Number.Sums

/-!
# The numbers that doubles stand for

A finite double stands for a dyadic number, a mantissa of at most 53 bits times a power of
two.  `real` is that number, and `extended` puts the two infinities at the ends of the
line.  The order of doubles is the order of these numbers (`lt_iff_extended`,
`le_iff_extended`), so that a comparison of doubles becomes an inequality between reals.

Mantissa and power of a double are not free.  A double is written with the smallest power
that leaves room for its mantissa (`Canonical`), and there is a largest power.  Packing a
mantissa and a power that are canonical gives the double with these (`unpack_pack`), or an
infinity if the power is too large (`unpack_pack_of_large`).
-/

namespace PrintPath
namespace Number

open Float.Model (UnpackedFloat Format)
open Float.Model.UnpackedFloat

/-! ## Mantissa and power -/

/-- A mantissa and a power of two that go together: the mantissa fills its 53 bits, unless
the power is the smallest one. -/
structure Canonical (mantissa : ℕ) (exponent : ℤ) : Prop where
  mantissa_lt : mantissa < 2 ^ 53
  le_exponent : -1074 ≤ exponent
  full : 2 ^ 52 ≤ mantissa ∨ exponent = -1074

theorem toNat_implicit_append (fraction : BitVec 52) :
    (1#1 ++ fraction).toNat = 2 ^ 52 + fraction.toNat := by
  rw [BitVec.toNat_append, ← Nat.shiftLeft_add_eq_or_of_lt fraction.isLt]
  rfl

/-- What a finite double is unpacked to is canonical, and the power is not too large. -/
theorem canonical_of_unpack {x : Float} {sign : Sign} {mantissa : ℕ} {exponent : ℤ}
    {hpos : 0 < mantissa} (h : x.toModel.unpack = .finite sign mantissa exponent hpos) :
    Canonical mantissa exponent ∧ exponent ≤ 971 := by
  let fraction : BitVec 52 := @unpackMantissa .binary64 x.toModel.toBits.toBitVec
  let field : BitVec 11 := @unpackExponent .binary64 x.toModel.toBits.toBitVec
  have hfraction : fraction.toNat < 2 ^ 52 := fraction.isLt
  have hfield : field.toNat < 2 ^ 11 := field.isLt
  unfold Float.Model.unpack UnpackedFloat.unpack at h
  simp only at h
  split_ifs at h with hones hone hzero hnone
  · -- the smallest power: the mantissa is the fraction
    injection h with _ hmantissa hexponent
    have hzero' : field.toNat = 0 := congrArg BitVec.toNat hzero
    have hmantissa' : fraction.toNat = mantissa := hmantissa
    have hexponent' : (field.toNat : ℤ) - 1075 + 1 = exponent := hexponent
    rw [hzero'] at hexponent'
    exact ⟨⟨by omega, by omega, Or.inr (by omega)⟩, by omega⟩
  · -- a leading bit stands in front of the fraction
    injection h with _ hmantissa hexponent
    have hmantissa' : 2 ^ 52 + fraction.toNat = mantissa :=
      (toNat_implicit_append fraction).symm.trans hmantissa
    have hexponent' : (field.toNat : ℤ) - 1075 = exponent := hexponent
    have hne : field.toNat ≠ 0 := fun h0 => hzero (BitVec.eq_of_toNat_eq h0)
    have hne' : field.toNat ≠ 2047 := fun h1 => hones (BitVec.eq_of_toNat_eq h1)
    exact ⟨⟨by omega, by omega, Or.inl (by omega)⟩, by omega⟩

theorem finite_congr {sign : Sign} {m n : ℕ} {e f : ℤ} {hm : 0 < m} {hn : 0 < n} (h : m = n)
    (k : e = f) : UnpackedFloat.finite sign m e hm = .finite sign n f hn := by
  subst h k
  rfl

/-- Bits whose exponent field is neither zero nor full have a leading bit in front of the
fraction. -/
theorem unpack_packComponents_of_field {sign : Sign} {field : BitVec 11} {fraction : BitVec 52}
    {mantissa : ℕ} {exponent : ℤ} {hpos : 0 < mantissa} (hzero : field ≠ 0#11)
    (hones : field ≠ -1#11) (hmantissa : mantissa = 2 ^ 52 + fraction.toNat)
    (hexponent : exponent = field.toNat - 1075) :
    UnpackedFloat.unpack .binary64 (packComponents .binary64 sign field fraction) =
      .finite sign mantissa exponent hpos := by
  unfold UnpackedFloat.unpack
  simp only [unpackExponent_packComponents, unpackMantissa_packComponents,
    unpackSign_packComponents, Sign.ofBitVec_toBitVec]
  rw [if_neg hones, if_neg hzero]
  exact finite_congr ((toNat_implicit_append fraction).trans hmantissa.symm) hexponent.symm

/-- Bits whose exponent field is zero have the smallest power. -/
theorem unpack_packComponents_zero {sign : Sign} {fraction : BitVec 52} {mantissa : ℕ}
    {hpos : 0 < mantissa} (hmantissa : mantissa = fraction.toNat) :
    UnpackedFloat.unpack .binary64 (packComponents .binary64 sign (0#11) fraction) =
      .finite sign mantissa (-1074) hpos := by
  have hne : fraction ≠ 0#52 := by
    rintro rfl
    exact hpos.ne' hmantissa
  unfold UnpackedFloat.unpack
  simp only [unpackExponent_packComponents, unpackMantissa_packComponents,
    unpackSign_packComponents, Sign.ofBitVec_toBitVec]
  rw [if_neg (by decide), if_pos trivial, dif_neg hne]
  exact finite_congr hmantissa.symm rfl

/-- Packing a canonical mantissa and power gives the double with these. -/
theorem unpack_pack_finite {mantissa : ℕ} {exponent : ℤ} (h : Canonical mantissa exponent)
    (hle : exponent ≤ 971) (sign : Sign) (hpos : 0 < mantissa) :
    (Float.Model.pack (.finite sign mantissa exponent hpos)).unpack =
      .finite sign mantissa exponent hpos := by
  obtain ⟨hlt, hge, hfull⟩ := h
  let field : ℕ := (exponent + (1023 : ℕ) + (52 : ℕ)).toNat
  have hfield : (field : ℤ) = exponent + 1075 := by omega
  show UnpackedFloat.unpack .binary64
    (if 2 ^ 11 ≤ field + 1 then _
    else if mantissa.log2 + 1 = 53 then
      packComponents .binary64 sign (BitVec.ofNat 11 field) (BitVec.ofNat 52 mantissa)
    else packComponents .binary64 sign (0#11) (BitVec.ofNat 52 mantissa)) = _
  rw [if_neg (show ¬ 2 ^ 11 ≤ field + 1 by omega)]
  by_cases hbit : 2 ^ 52 ≤ mantissa
  · have hlog : mantissa.log2 + 1 = 53 := by
      rw [(Nat.log2_eq_iff hpos.ne').mpr ⟨hbit, hlt⟩]
    have htoNat : (BitVec.ofNat 11 field).toNat = field := by
      rw [BitVec.toNat_ofNat, Nat.mod_eq_of_lt (by omega)]
    rw [if_pos hlog]
    refine unpack_packComponents_of_field ?_ ?_ ?_ ?_
    · intro hzero
      rw [hzero, BitVec.toNat_zero] at htoNat
      omega
    · intro hones
      rw [hones] at htoNat
      have htoNat' : 2047 = field := htoNat
      omega
    · rw [BitVec.toNat_ofNat]
      omega
    · rw [htoNat]
      omega
  · have hlog : mantissa.log2 + 1 ≠ 53 := by
      have hsmall := (Nat.log2_lt hpos.ne').mpr (not_le.mp hbit)
      omega
    obtain rfl : exponent = -1074 := hfull.resolve_left hbit
    rw [if_neg hlog]
    refine unpack_packComponents_zero ?_
    rw [BitVec.toNat_ofNat, Nat.mod_eq_of_lt (not_le.mp hbit)]

/-- A power that is too large gives an infinity. -/
theorem unpack_pack_of_large {exponent : ℤ} (h : 971 < exponent) (sign : Sign) {mantissa : ℕ}
    (hpos : 0 < mantissa) :
    (Float.Model.pack (.finite sign mantissa exponent hpos)).unpack = .infinity sign := by
  show UnpackedFloat.unpack .binary64
    (if 2 ^ 11 ≤ (exponent + (1023 : ℕ) + (52 : ℕ)).toNat + 1 then packedInfinity .binary64 sign
    else _) = _
  rw [if_pos (show 2 ^ 11 ≤ (exponent + (1023 : ℕ) + (52 : ℕ)).toNat + 1 by omega)]
  cases sign <;> rfl

/-- The unpacked doubles that packing keeps. -/
def Packable : UnpackedFloat → Prop
  | .finite _ mantissa exponent _ => Canonical mantissa exponent ∧ exponent ≤ 971
  | _ => True

/-- A double is unpacked to something that packing keeps. -/
theorem packable_unpack (x : Float) : Packable x.toModel.unpack := by
  cases h : x.toModel.unpack with
  | finite sign mantissa exponent hpos => exact canonical_of_unpack h
  | _ => trivial

/-- **Packing and unpacking gives back** what packing keeps. -/
theorem unpack_pack {unpacked : UnpackedFloat} (h : Packable unpacked) :
    (Float.Model.pack unpacked).unpack = unpacked := by
  cases unpacked with
  | finite sign mantissa exponent hpos => exact unpack_pack_finite h.1 h.2 sign hpos
  | notANumber => rfl
  | infinity sign => cases sign <;> rfl
  | zero sign => cases sign <;> rfl

/-! ## The number that a double stands for -/

/-- A number with a sign. -/
def signed (sign : Sign) (q : ℝ) : ℝ :=
  match sign with
  | .negative => -q
  | .positive => q

/-- The number that an unpacked double stands for, if it is finite. -/
noncomputable def unpackedReal : UnpackedFloat → ℝ
  | .finite sign mantissa exponent _ => signed sign (mantissa * 2 ^ exponent)
  | _ => 0

/-- The number that an unpacked double stands for, or an end of the line. -/
noncomputable def unpackedExtended : UnpackedFloat → EReal
  | .infinity .negative => ⊥
  | .infinity .positive => ⊤
  | unpacked => unpackedReal unpacked

/-- The number that a finite double stands for.  It is zero for the other doubles. -/
noncomputable def real (x : Float) : ℝ :=
  unpackedReal x.toModel.unpack

/-- The number that a double stands for, with the infinities at the ends of the line. -/
noncomputable def extended (x : Float) : EReal :=
  unpackedExtended x.toModel.unpack

variable {x y : Float}

theorem extended_of_isFinite (h : x.isFinite) : extended x = real x := by
  have hfinite : x.toModel.unpack.isFinite := h
  unfold extended real
  cases hx : x.toModel.unpack with
  | infinity sign =>
    rw [hx] at hfinite
    exact absurd hfinite Bool.false_ne_true
  | _ => rfl

theorem isNaN_of_isFinite (h : x.isFinite) : x.isNaN = false := by
  have hfinite : x.toModel.unpack.isFinite := h
  show x.toModel.unpack.isNaN = false
  cases hx : x.toModel.unpack with
  | notANumber =>
    rw [hx] at hfinite
    exact absurd hfinite Bool.false_ne_true
  | _ => rfl

/-- A number between the ends of the line is finite. -/
theorem isFinite_of_extended (h : x.isNaN = false) (hbot : extended x ≠ ⊥)
    (htop : extended x ≠ ⊤) : x.isFinite := by
  have hnumber : x.toModel.unpack.isNaN = false := h
  unfold extended at hbot htop
  show x.toModel.unpack.isFinite = true
  cases hx : x.toModel.unpack with
  | notANumber =>
    rw [hx] at hnumber
    exact absurd hnumber.symm Bool.false_ne_true
  | infinity sign =>
    rw [hx] at hbot htop
    cases sign with
    | negative => exact absurd rfl hbot
    | positive => exact absurd rfl htop
  | _ => rfl

/-! ## The order of the numbers -/

/-- Canonical mantissas and powers are compared by the power first. -/
theorem mul_zpow_lt {m n : ℕ} {e f : ℤ} (hm : Canonical m e) (hn : Canonical n f)
    (h : e < f ∨ e = f ∧ m < n) : (m : ℝ) * 2 ^ e < n * 2 ^ f := by
  rcases h with hexponent | ⟨rfl, hmantissa⟩
  · have hge := hm.le_exponent
    have hfull : (2 : ℝ) ^ (52 : ℤ) ≤ n := by
      exact_mod_cast hn.full.resolve_right (by omega)
    have hlt : (m : ℝ) < 2 ^ (53 : ℤ) := by
      exact_mod_cast hm.mantissa_lt
    calc (m : ℝ) * 2 ^ e < 2 ^ (53 : ℤ) * 2 ^ e := by gcongr
      _ = 2 ^ (53 + e) := (zpow_add₀ two_ne_zero _ _).symm
      _ ≤ 2 ^ (52 + f) := zpow_le_zpow_right₀ one_le_two (by omega)
      _ = 2 ^ (52 : ℤ) * 2 ^ f := zpow_add₀ two_ne_zero _ _
      _ ≤ n * 2 ^ f := by gcongr
  · have hlt : (m : ℝ) < n := by
      exact_mod_cast hmantissa
    gcongr

/-- What has a lower place stands for a lower number. -/
theorem unpackedExtended_lt {a b : UnpackedFloat} (ha : Packable a) (hb : Packable b)
    {p q : ℤ ×ₗ ℤ ×ₗ ℤ} (hp : unpackedPlace? a = some p) (hq : unpackedPlace? b = some q)
    (h : p < q) : unpackedExtended a < unpackedExtended b := by
  have hpos {m : ℕ} (hm : 0 < m) (e : ℤ) : (0 : ℝ) < m * 2 ^ e := by positivity
  rcases a with (_ | _) | _ | _ | ⟨_ | _, m, e, hm⟩ <;>
  rcases b with (_ | _) | _ | _ | ⟨_ | _, n, f, hn⟩ <;>
  simp only [unpackedPlace?, Option.some.injEq, reduceCtorEq] at hp hq <;>
  subst hp hq <;>
  simp [Prod.Lex.toLex_lt_toLex] at h <;>
  simp only [unpackedExtended, unpackedReal, signed, EReal.coe_lt_coe_iff, EReal.bot_lt_coe,
    EReal.coe_lt_top, bot_lt_top]
  case zero.finite.positive => exact hpos hn f
  case finite.negative.zero => exact neg_neg_of_pos (hpos hm e)
  case finite.negative.finite.positive => exact (neg_neg_of_pos (hpos hm e)).trans (hpos hn f)
  case finite.positive.finite.positive => exact mul_zpow_lt ha.1 hb.1 h
  case finite.negative.finite.negative =>
    rw [eq_comm] at h
    exact neg_lt_neg (mul_zpow_lt hb.1 ha.1 h)

/-- What has one place stands for one number. -/
theorem unpackedExtended_eq {a b : UnpackedFloat} {p : ℤ ×ₗ ℤ ×ₗ ℤ}
    (hp : unpackedPlace? a = some p) (hq : unpackedPlace? b = some p) :
    unpackedExtended a = unpackedExtended b := by
  rcases a with (_ | _) | _ | _ | ⟨_ | _, m, e, hm⟩ <;>
  rcases b with (_ | _) | _ | _ | ⟨_ | _, n, f, hn⟩ <;>
  simp only [unpackedPlace?, Option.some.injEq, reduceCtorEq] at hp hq <;>
  subst hp <;>
  simp at hq <;>
  simp [unpackedExtended, unpackedReal, hq]

theorem exists_place_of_isNaN (h : x.isNaN = false) : ∃ p, place? x = some p := by
  have hnumber : x.toModel.unpack.isNaN = false := h
  unfold place?
  rcases hx : x.toModel.unpack with (_ | _) | _ | _ | ⟨_ | _, m, e, hm⟩
  case notANumber =>
    rw [hx] at hnumber
    exact absurd hnumber.symm Bool.false_ne_true
  all_goals exact ⟨_, rfl⟩

theorem extended_lt_of_place {p q : ℤ ×ₗ ℤ ×ₗ ℤ} (hp : place? x = some p)
    (hq : place? y = some q) (h : p < q) : extended x < extended y :=
  unpackedExtended_lt (packable_unpack x) (packable_unpack y) hp hq h

theorem extended_eq_of_place {p : ℤ ×ₗ ℤ ×ₗ ℤ} (hp : place? x = some p)
    (hq : place? y = some p) : extended x = extended y :=
  unpackedExtended_eq hp hq

/-- **The order of doubles is that of their numbers**, if both are one. -/
theorem lt_iff_extended :
    x < y ↔ x.isNaN = false ∧ y.isNaN = false ∧ extended x < extended y := by
  constructor
  · intro h
    obtain ⟨p, q, hp, hq, hlt⟩ := lt_iff_place.mp h
    exact ⟨isNaN_eq_false_of_place hp, isNaN_eq_false_of_place hq,
      extended_lt_of_place hp hq hlt⟩
  · rintro ⟨hx, hy, hlt⟩
    obtain ⟨p, hp⟩ := exists_place_of_isNaN hx
    obtain ⟨q, hq⟩ := exists_place_of_isNaN hy
    refine lt_iff_place.mpr ⟨p, q, hp, hq, ?_⟩
    rcases lt_trichotomy p q with h | rfl | h
    · exact h
    · exact absurd (extended_eq_of_place hp hq) hlt.ne
    · exact absurd (extended_lt_of_place hq hp h) hlt.asymm

/-- Doubles are equal as numbers if they stand for one number. -/
theorem beq_iff_extended :
    x == y ↔ x.isNaN = false ∧ y.isNaN = false ∧ extended x = extended y := by
  have hplace : x == y ↔ ∃ p, place? x = some p ∧ place? y = some p := by
    show (x.toModel.unpack.compare y.toModel.unpack == some .eq) = true ↔ _
    rw [beq_iff_eq]
    exact compare_eq_eq_iff x.toModel.unpack y.toModel.unpack
  rw [hplace]
  constructor
  · rintro ⟨p, hp, hq⟩
    exact ⟨isNaN_eq_false_of_place hp, isNaN_eq_false_of_place hq, extended_eq_of_place hp hq⟩
  · rintro ⟨hx, hy, heq⟩
    obtain ⟨p, hp⟩ := exists_place_of_isNaN hx
    obtain ⟨q, hq⟩ := exists_place_of_isNaN hy
    rcases lt_trichotomy p q with h | rfl | h
    · exact absurd heq (extended_lt_of_place hp hq h).ne
    · exact ⟨p, hp, hq⟩
    · exact absurd heq (extended_lt_of_place hq hp h).ne'

/-- A double is at most another one if it is below it or equal to it. -/
theorem le_iff_lt_or_beq : x ≤ y ↔ x < y ∨ x == y := by
  show decide (x.toModel ≤ y.toModel) = true ↔ decide (x.toModel < y.toModel) = true ∨ _
  rw [decide_eq_true_iff, decide_eq_true_iff]
  show (x.toModel.unpack.compare y.toModel.unpack).any (·.isLE) = true ↔
    (x.toModel.unpack.compare y.toModel.unpack == some .lt) = true ∨
      (x.toModel.unpack.compare y.toModel.unpack == some .eq) = true
  rcases x.toModel.unpack.compare y.toModel.unpack with _ | _ | _ | _ <;> decide

theorem le_iff_extended :
    x ≤ y ↔ x.isNaN = false ∧ y.isNaN = false ∧ extended x ≤ extended y := by
  rw [le_iff_lt_or_beq, lt_iff_extended, beq_iff_extended, le_iff_lt_or_eq]
  tauto

theorem lt_iff_real (hx : x.isFinite) (hy : y.isFinite) : x < y ↔ real x < real y := by
  rw [lt_iff_extended, extended_of_isFinite hx, extended_of_isFinite hy, EReal.coe_lt_coe_iff]
  exact ⟨fun h => h.2.2, fun h => ⟨isNaN_of_isFinite hx, isNaN_of_isFinite hy, h⟩⟩

theorem le_iff_real (hx : x.isFinite) (hy : y.isFinite) : x ≤ y ↔ real x ≤ real y := by
  rw [le_iff_extended, extended_of_isFinite hx, extended_of_isFinite hy, EReal.coe_le_coe_iff]
  exact ⟨fun h => h.2.2, fun h => ⟨isNaN_of_isFinite hx, isNaN_of_isFinite hy, h⟩⟩

theorem beq_iff_real (hx : x.isFinite) (hy : y.isFinite) : x == y ↔ real x = real y := by
  rw [beq_iff_extended, extended_of_isFinite hx, extended_of_isFinite hy, EReal.coe_eq_coe_iff]
  exact ⟨fun h => h.2.2, fun h => ⟨isNaN_of_isFinite hx, isNaN_of_isFinite hy, h⟩⟩

/-! ## The double of the other sign -/

theorem packable_neg {unpacked : UnpackedFloat} (h : Packable unpacked) :
    Packable unpacked.neg := by
  cases unpacked <;> exact h

theorem unpack_neg (x : Float) : (-x).toModel.unpack = x.toModel.unpack.neg :=
  unpack_pack (packable_neg (packable_unpack x))

theorem signed_neg (sign : Sign) (q : ℝ) : signed (-sign) q = -signed sign q := by
  cases sign with
  | negative => exact (neg_neg q).symm
  | positive => rfl

theorem real_neg (x : Float) : real (-x) = -real x := by
  unfold real
  rw [unpack_neg]
  cases x.toModel.unpack with
  | finite sign mantissa exponent hpos => exact signed_neg sign _
  | _ => exact neg_zero.symm

end Number
end PrintPath
