import Mathlib

/-!
# Sums that need no rounding

Doubles are rounded when they are added, so what is added and taken away again need not be
gone.  In two cases nothing is rounded: if a zero is added, and if what was taken away from
zero is added to itself.  The result is then the expected double or, if that is a zero,
perhaps the zero of the other sign.  Of two such doubles we say that they `Agree`.

Equality of numbers, `x == y`, does not mind the sign of a zero either, but what is not a
number does not even equal itself.  A finite double does (`beq_self_of_isFinite`), and what
agrees with a double that equals another one equals that one, too (`Agree.trans_beq`).

Adding is defined on unpacked doubles, and the sum is packed again.  If the unpacked sum is
an unpacked double, packing undoes the unpacking (`add_of_unpack`, `sub_of_unpack`).
-/

namespace PrintPath
namespace Number

open Float.Model (UnpackedFloat Format)
open Float.Model.UnpackedFloat

/-- Two doubles are the same, or equal as numbers, which two zeros are. -/
def Agree (x y : Float) : Prop :=
  x = y ∨ x == y

namespace Agree

variable {x y z : Float}

theorem refl (x : Float) : Agree x x :=
  Or.inl rfl

theorem symm (h : Agree x y) : Agree y x := by
  rcases h with rfl | h
  · exact refl x
  · exact Or.inr (PartialEquivBEq.symm h)

theorem trans (h : Agree x y) (k : Agree y z) : Agree x z := by
  rcases h with rfl | h
  · exact k
  · rcases k with rfl | k
    · exact Or.inr h
    · exact Or.inr (PartialEquivBEq.trans h k)

/-- What agrees with one of two equal numbers equals the other. -/
theorem trans_beq (h : Agree x y) (k : y == z) : x == z := by
  rcases h with rfl | h
  · exact k
  · exact PartialEquivBEq.trans h k

end Agree

/-- A finite double is a number, and so it equals itself. -/
theorem beq_self_of_isFinite {x : Float} (h : x.isFinite) : x == x := by
  rw [Float.beq_self_iff]
  rintro rfl
  exact absurd h (by decide)

/-! ## Unpacked doubles -/

/-- Unpacking loses nothing. -/
theorem unpack_injective : Function.Injective fun x : Float => x.toModel.unpack := by
  intro x y h
  have hpack : Float.ofModel (.pack x.toModel.unpack) = Float.ofModel (.pack y.toModel.unpack) :=
    congrArg (fun unpacked => Float.ofModel (.pack unpacked)) h
  exact (Float.ofBits_toBits x).symm.trans (hpack.trans (Float.ofBits_toBits y))

variable {x y z : Float}

theorem add_of_unpack
    (h : UnpackedFloat.add .binary64 x.toModel.unpack y.toModel.unpack = z.toModel.unpack) :
    x + y = z := by
  have hsum : x + y = Float.ofModel (.pack z.toModel.unpack) :=
    congrArg (fun sum => Float.ofModel (.pack sum)) h
  rw [hsum]
  exact Float.ofBits_toBits z

theorem sub_of_unpack
    (h : UnpackedFloat.sub .binary64 x.toModel.unpack y.toModel.unpack = z.toModel.unpack) :
    x - y = z := by
  have hdifference : x - y = Float.ofModel (.pack z.toModel.unpack) :=
    congrArg (fun difference => Float.ofModel (.pack difference)) h
  rw [hdifference]
  exact Float.ofBits_toBits z

/-- The bits of a finite double with another sign stand for the double with that sign. -/
theorem unpack_packComponents {bits : BitVec Format.binary64.numBits} {sign : Sign}
    {mantissa : ℕ} {exponent : ℤ} {hpos : 0 < mantissa}
    (h : UnpackedFloat.unpack .binary64 bits = .finite sign mantissa exponent hpos)
    (other : Sign) :
    UnpackedFloat.unpack .binary64
        (packComponents .binary64 other (unpackExponent bits) (unpackMantissa bits)) =
      .finite other mantissa exponent hpos := by
  unfold UnpackedFloat.unpack at h ⊢
  simp only [unpackExponent_packComponents, unpackMantissa_packComponents,
    unpackSign_packComponents, Sign.ofBitVec_toBitVec] at h ⊢
  split_ifs at h ⊢ <;> simp_all

/-- There is a double of the other sign. -/
theorem exists_unpack_eq_neg {sign : Sign} {mantissa : ℕ} {exponent : ℤ} {hpos : 0 < mantissa}
    (h : x.toModel.unpack = .finite sign mantissa exponent hpos) :
    ∃ y : Float, y.toModel.unpack = .finite (-sign) mantissa exponent hpos := by
  have hbits : UnpackedFloat.unpack .binary64 x.toModel.toBits.toBitVec =
      .finite sign mantissa exponent hpos := h
  have hunpack := unpack_packComponents hbits (-sign)
  refine ⟨.ofModel ⟨⟨packComponents .binary64 (-sign)
    (unpackExponent x.toModel.toBits.toBitVec) (unpackMantissa x.toModel.toBits.toBitVec)⟩,
    ⟨?_⟩⟩, hunpack⟩
  -- the bits are those of a finite double, so there is nothing to ask of them
  intro hexponent hmantissa
  unfold UnpackedFloat.unpack at hunpack
  rw [if_pos hexponent, if_neg hmantissa] at hunpack
  exact UnpackedFloat.noConfusion hunpack

/-- A finite double and the one of the other sign add up to zero. -/
theorem add_finite_neg {sign : Sign} {mantissa : ℕ} {exponent : ℤ} (hpos : 0 < mantissa) :
    UnpackedFloat.add .binary64 (.finite sign mantissa exponent hpos)
      (.finite (-sign) mantissa exponent hpos) = .zero .positive := by
  cases sign <;> simp [UnpackedFloat.add, UnpackedFloat.normalize, Sign.apply]

/-! ## Zeros -/

theorem beq_zero_iff : x == 0.0 ↔ x = 0.0 ∨ x = -0.0 := by
  constructor
  · intro h
    obtain ⟨-, -, heq | ⟨heq, -⟩ | ⟨heq, -⟩⟩ := Float.beq_iff_ne_nan_and_eq.mp h
    · exact Or.inl heq
    · exact Or.inl heq
    · exact Or.inr heq
  · rintro (rfl | rfl)
    · rfl
    · rfl

theorem beq_zero_iff_unpack : x == 0.0 ↔ ∃ sign, x.toModel.unpack = .zero sign := by
  rw [beq_zero_iff]
  constructor
  · rintro (rfl | rfl)
    · exact ⟨.positive, rfl⟩
    · exact ⟨.negative, rfl⟩
  · rintro ⟨_ | _, h⟩
    · exact Or.inr (unpack_injective h)
    · exact Or.inl (unpack_injective h)

/-- Taking zero away changes nothing. -/
theorem sub_zero (x : Float) : x - 0.0 = x := by
  refine sub_of_unpack ?_
  have hzero : (0.0 : Float).toModel.unpack = .zero .positive := rfl
  rw [hzero]
  cases x.toModel.unpack with
  | zero sign => cases sign <;> rfl
  | _ => rfl

/-- The sum of two zeros is a zero. -/
theorem add_beq_zero (hx : x == 0.0) (hy : y == 0.0) : x + y == 0.0 := by
  rcases beq_zero_iff.mp hx with rfl | rfl <;> rcases beq_zero_iff.mp hy with rfl | rfl <;> rfl

/-- **Adding to a zero changes nothing** but the sign of a zero. -/
theorem agree_zero_add (hz : z == 0.0) (x : Float) : Agree (z + x) x := by
  obtain ⟨sign, hsign⟩ := beq_zero_iff_unpack.mp hz
  cases hx : x.toModel.unpack with
  | zero other =>
    have hzero : x == 0.0 := beq_zero_iff_unpack.mpr ⟨other, hx⟩
    exact Or.inr (PartialEquivBEq.trans (add_beq_zero hz hzero) (PartialEquivBEq.symm hzero))
  | _ =>
    refine Or.inl (add_of_unpack ?_)
    rw [hsign, hx]
    rfl

/-- **Adding a zero changes nothing** but the sign of a zero. -/
theorem agree_add_zero (hz : z == 0.0) (x : Float) : Agree (x + z) x := by
  obtain ⟨sign, hsign⟩ := beq_zero_iff_unpack.mp hz
  cases hx : x.toModel.unpack with
  | zero other =>
    have hzero : x == 0.0 := beq_zero_iff_unpack.mpr ⟨other, hx⟩
    exact Or.inr (PartialEquivBEq.trans (add_beq_zero hzero hz) (PartialEquivBEq.symm hzero))
  | _ =>
    refine Or.inl (add_of_unpack ?_)
    rw [hsign, hx]
    rfl

/-- Something may be added to either of two equal numbers. -/
theorem agree_add_right (h : x == y) (z : Float) : Agree (x + z) (y + z) := by
  obtain ⟨-, -, rfl | hzeros⟩ := Float.beq_iff_ne_nan_and_eq.mp h
  · exact Agree.refl _
  · have hx : x == 0.0 := by
      rw [beq_zero_iff]
      exact hzeros.imp And.left And.left
    have hy : y == 0.0 := by
      rw [beq_zero_iff]
      exact hzeros.symm.imp And.right And.right
    exact (agree_zero_add hx z).trans (agree_zero_add hy z).symm

/-- **What was taken away from zero leaves zero when it is added to itself.** -/
theorem add_zero_sub_beq_zero (h : x.isFinite) : x + (0.0 - x) == 0.0 := by
  cases hx : x.toModel.unpack with
  | notANumber =>
    have hfinite : x.toModel.unpack.isFinite := h
    rw [hx] at hfinite
    exact absurd hfinite Bool.false_ne_true
  | infinity sign =>
    have hfinite : x.toModel.unpack.isFinite := h
    rw [hx] at hfinite
    exact absurd hfinite Bool.false_ne_true
  | zero sign =>
    have hzero : x == 0.0 := beq_zero_iff_unpack.mpr ⟨sign, hx⟩
    rcases beq_zero_iff.mp hzero with rfl | rfl
    · rfl
    · rfl
  | finite sign mantissa exponent hpos =>
    obtain ⟨y, hy⟩ := exists_unpack_eq_neg hx
    have hdifference : 0.0 - x = y := by
      refine sub_of_unpack ?_
      rw [hx, hy]
      rfl
    have hsum : x + y = 0.0 := by
      refine add_of_unpack ?_
      rw [hx, hy]
      exact add_finite_neg hpos
    rw [hdifference, hsum]
    rfl

end Number
end PrintPath
