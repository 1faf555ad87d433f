import Mathlib
import PrintPath.Number.Arithmetic

/-!
# Bounds that survive rounding

A bound on an exact result is one on the rounded result if it is the number of a double
(`Rounds.within`).  Powers of two and their whole multiples are, in a wide range, so bounds
are given in these: a sum is bounded in multiples of one power (`Within.add_multiple`), and
products, roots and quotients by powers of their own.

A double that is given by its decimals is compared with a power of two by comparing it with
the double that stands for that power (`twoPow`).
-/

namespace PrintPath
namespace Number

open Float.Model.UnpackedFloat

variable {x y : Float}

/-! ## Powers of two -/

/-- The double that stands for a power of two. -/
def twoPow (e : ℤ) : Float :=
  packed (.finite .positive (2 ^ 52) (e - 52) (Nat.two_pow_pos 52))

theorem isFinite_twoPow {e : ℤ} (hlow : -1022 ≤ e) (hhigh : e ≤ 1023) :
    (twoPow e).isFinite ∧ real (twoPow e) = 2 ^ e := by
  have hcanonical : Canonical (2 ^ 52) (e - 52) := ⟨by norm_num, by omega, Or.inl le_rfl⟩
  have hunpack : (twoPow e).toModel.unpack =
      .finite .positive (2 ^ 52) (e - 52) (Nat.two_pow_pos 52) :=
    unpack_pack_finite hcanonical (by omega) .positive (Nat.two_pow_pos 52)
  constructor
  · show (twoPow e).toModel.unpack.isFinite = true
    rw [hunpack]
    rfl
  · rw [real_of_unpack_finite hunpack]
    show ((2 ^ 52 : ℕ) : ℝ) * 2 ^ (e - 52) = 2 ^ e
    rw [Nat.cast_pow, Nat.cast_ofNat, ← zpow_natCast, ← zpow_add₀ two_ne_zero]
    congr 1
    omega

theorem representable_multiple {n : ℕ} {e : ℤ} (hn : n ≤ 2 ^ 53) (hlow : -1074 ≤ e)
    (hhigh : e ≤ 970) : Representable (n * 2 ^ e) := by
  refine representable_mul_zpow hn hlow ?_
  have hcast : (n : ℝ) ≤ 2 ^ (53 : ℤ) := by
    exact_mod_cast hn
  calc (n : ℝ) * 2 ^ e ≤ 2 ^ (53 : ℤ) * 2 ^ e := by gcongr
    _ = 2 ^ (53 + e) := (zpow_add₀ two_ne_zero _ _).symm
    _ < 2 ^ (1024 : ℤ) := zpow_lt_zpow_right₀ one_lt_two (by omega)

theorem representable_two_zpow {e : ℤ} (hlow : -1022 ≤ e) (hhigh : e ≤ 1023) :
    Representable (2 ^ e) :=
  ⟨twoPow e, isFinite_twoPow hlow hhigh⟩

/-! ## Bounds given by doubles -/

/-- What lies between a double and the one of the other sign is bounded by its number. -/
theorem within_of_between {b : Float} (hb : b.isFinite) (hlow : -b ≤ x) (hhigh : x ≤ b) :
    Within (real b) x := by
  obtain ⟨-, hnan, hlow'⟩ := le_iff_extended.mp hlow
  obtain ⟨-, -, hhigh'⟩ := le_iff_extended.mp hhigh
  rw [extended_of_isFinite (isFinite_neg hb)] at hlow'
  rw [extended_of_isFinite hb] at hhigh'
  have hfinite : x.isFinite := isFinite_of_extended hnan
    (ne_bot_of_le_ne_bot (EReal.coe_ne_bot _) hlow')
    (ne_top_of_le_ne_top (EReal.coe_ne_top _) hhigh')
  rw [le_iff_real (isFinite_neg hb) hfinite, real_neg] at hlow
  rw [le_iff_real hfinite hb] at hhigh
  exact ⟨hfinite, abs_le.mpr ⟨hlow, hhigh⟩⟩

/-! ## Sums and differences -/

namespace Within

/-- A sum is bounded in multiples of a power of two if the terms are. -/
theorem add_multiple {a b c : ℕ} {e : ℤ} (hx : Within (a * 2 ^ e) x) (hy : Within (b * 2 ^ e) y)
    (hsum : a + b ≤ c) (hc : c ≤ 2 ^ 53) (hlow : -1074 ≤ e) (hhigh : e ≤ 970) :
    Within (c * 2 ^ e) (x + y) := by
  refine (rounds_add hx.isFinite hy.isFinite).within (representable_multiple hc hlow hhigh) ?_
  have hcast : (a : ℝ) + b ≤ c := by
    exact_mod_cast hsum
  calc |real x + real y| ≤ |real x| + |real y| := abs_add_le _ _
    _ ≤ a * 2 ^ e + b * 2 ^ e := add_le_add hx.abs_le hy.abs_le
    _ = (a + b) * 2 ^ e := (add_mul _ _ _).symm
    _ ≤ c * 2 ^ e := by gcongr

theorem sub_multiple {a b c : ℕ} {e : ℤ} (hx : Within (a * 2 ^ e) x) (hy : Within (b * 2 ^ e) y)
    (hsum : a + b ≤ c) (hc : c ≤ 2 ^ 53) (hlow : -1074 ≤ e) (hhigh : e ≤ 970) :
    Within (c * 2 ^ e) (x - y) := by
  rw [sub_eq_add_opposite]
  exact hx.add_multiple hy.neg hsum hc hlow hhigh

/-- Adding terms that are bounded by one unit each takes as many units more as there are
terms. -/
theorem foldl_add {a c : ℕ} {e : ℤ} {terms : List Float} (hx : Within (a * 2 ^ e) x)
    (hterms : ∀ t ∈ terms, Within ((1 : ℕ) * 2 ^ e) t) (hsum : a + terms.length ≤ c)
    (hc : c ≤ 2 ^ 53) (hlow : -1074 ≤ e) (hhigh : e ≤ 970) :
    Within (c * 2 ^ e) (terms.foldl (· + ·) x) := by
  induction terms generalizing a x with
  | nil =>
    have hcast : (a : ℝ) ≤ c := by
      exact_mod_cast hsum
    exact hx.mono (by gcongr)
  | cons t terms ih =>
    rw [List.length_cons] at hsum
    have hstep := hx.add_multiple (hterms t List.mem_cons_self) le_rfl (by omega) hlow hhigh
    exact ih hstep (fun u hu => hterms u (List.mem_cons_of_mem t hu)) (by omega)

/-! ## Powers of two -/

theorem zpow_mono {a b : ℤ} (hx : Within (2 ^ a) x) (h : a ≤ b) : Within (2 ^ b) x :=
  hx.mono (zpow_le_zpow_right₀ one_le_two h)

theorem add_zpow {e : ℤ} (hx : Within (2 ^ e) x) (hy : Within (2 ^ e) y) (hlow : -1022 ≤ e)
    (hhigh : e ≤ 970) : Within (2 ^ (e + 1)) (x + y) := by
  have hone : (2 : ℝ) ^ e = (1 : ℕ) * 2 ^ e := by
    rw [Nat.cast_one, one_mul]
  have htwo : (2 : ℝ) ^ (e + 1) = (2 : ℕ) * 2 ^ e := by
    rw [zpow_add_one₀ two_ne_zero, mul_comm, Nat.cast_ofNat]
  rw [hone] at hx hy
  rw [htwo]
  exact hx.add_multiple hy (by norm_num) (by norm_num) (by omega) hhigh

theorem mul_zpow {a b : ℤ} (hx : Within (2 ^ a) x) (hy : Within (2 ^ b) y) (hlow : -1022 ≤ a + b)
    (hhigh : a + b ≤ 1023) : Within (2 ^ (a + b)) (x * y) := by
  refine (rounds_mul hx.isFinite hy.isFinite).within (representable_two_zpow hlow hhigh) ?_
  rw [abs_mul, zpow_add₀ two_ne_zero]
  exact mul_le_mul hx.abs_le hy.abs_le (abs_nonneg _) (by positivity)

theorem sqrt_zpow {e : ℤ} (hx : Within (2 ^ (e + e)) x) (hnonneg : 0 ≤ real x)
    (hlow : -1022 ≤ e) (hhigh : e ≤ 1023) : Within (2 ^ e) x.sqrt := by
  refine (rounds_sqrt hx.isFinite hnonneg).within (representable_two_zpow hlow hhigh) ?_
  have hpower : (0 : ℝ) ≤ 2 ^ e := by positivity
  rw [abs_of_nonneg (Real.sqrt_nonneg _)]
  refine Real.sqrt_le_iff.mpr ⟨hpower, ?_⟩
  rw [sq, ← zpow_add₀ two_ne_zero]
  exact (le_abs_self _).trans hx.abs_le

theorem div_zpow {a b : ℤ} (hx : Within (2 ^ a) x) (hy : y.isFinite) (hle : 2 ^ b ≤ real y)
    (hlow : -1022 ≤ a - b) (hhigh : a - b ≤ 1023) : Within (2 ^ (a - b)) (x / y) := by
  have hpower : (0 : ℝ) < 2 ^ b := by positivity
  have hpos : 0 < real y := hpower.trans_le hle
  refine (rounds_div hx.isFinite hy hpos.ne').within (representable_two_zpow hlow hhigh) ?_
  rw [abs_div, abs_of_pos hpos, zpow_sub₀ two_ne_zero]
  exact div_le_div₀ (by positivity) hx.abs_le hpower hle

end Within

end Number
end PrintPath
