import Mathlib

/-!
# The order of doubles

Doubles are compared by what they stand for: the infinities lie at the two ends, the two
zeros are the same, and something that is not a number is neither above nor below
anything.  Comparing is a case distinction with many cases.  It is done once, in
`compare_eq_lt_iff`, which gives every double but those a place in a linear order: `x < y`
says that both have a place, and that of `x` comes first.

Whatever else is needed of `<` is a fact about places.  It is a strict order
(`IsStrictOrder Float (· < ·)`), and what is above something is a number.
-/

namespace PrintPath
namespace Number

open Float.Model (UnpackedFloat)

/-- Where an unpacked double stands: first by its sort, from the negative infinity to the
positive one, then by its power of two, then by its mantissa. -/
def unpackedPlace? : UnpackedFloat → Option (ℤ ×ₗ ℤ ×ₗ ℤ)
  | .notANumber => none
  | .infinity .negative => some (toLex (-2, toLex (0, 0)))
  | .finite .negative mantissa exponent _ => some (toLex (-1, toLex (-exponent, -mantissa)))
  | .zero _ => some (toLex (0, toLex (0, 0)))
  | .finite .positive mantissa exponent _ => some (toLex (1, toLex (exponent, mantissa)))
  | .infinity .positive => some (toLex (2, toLex (0, 0)))

/-- Where a double stands among all doubles. -/
def place? (x : Float) : Option (ℤ ×ₗ ℤ ×ₗ ℤ) :=
  unpackedPlace? x.toModel.unpack

theorem then_compare_eq_lt {e f : ℤ} {m n : ℕ} :
    (compare e f).then (compare m n) = .lt ↔ e < f ∨ e = f ∧ m < n := by
  rw [Ordering.then_eq_lt, compare_lt_iff_lt, compare_lt_iff_lt, compare_eq_iff_eq]

theorem then_compare_eq_gt {e f : ℤ} {m n : ℕ} :
    (compare e f).then (compare m n) = .gt ↔ f < e ∨ e = f ∧ n < m := by
  rw [Ordering.then_eq_gt, compare_gt_iff_gt, compare_gt_iff_gt, compare_eq_iff_eq]

/-- **Comparing is comparing places.** -/
theorem compare_eq_lt_iff (a b : UnpackedFloat) :
    a.compare b = some .lt ↔
      ∃ p q, unpackedPlace? a = some p ∧ unpackedPlace? b = some q ∧ p < q := by
  have hsign : compare UnpackedFloat.Sign.negative UnpackedFloat.Sign.positive = .lt := rfl
  -- the sorts settle all cases but those of two finite doubles of one sign
  rcases a with (_ | _) | _ | _ | ⟨_ | _, m, e, hm⟩ <;>
  rcases b with (_ | _) | _ | _ | ⟨_ | _, n, f, hn⟩ <;>
  simp [UnpackedFloat.compare, unpackedPlace?, Prod.Lex.toLex_lt_toLex, hsign,
    then_compare_eq_lt, then_compare_eq_gt]

/-- Comparing finds equal what has the same place. -/
theorem compare_eq_eq_iff (a b : UnpackedFloat) :
    a.compare b = some .eq ↔ ∃ p, unpackedPlace? a = some p ∧ unpackedPlace? b = some p := by
  have hthen (e f : ℤ) (m n : ℕ) :
      (compare e f).then (compare m n) = .eq ↔ f = e ∧ n = m := by
    rw [Ordering.then_eq_eq, compare_eq_iff_eq, compare_eq_iff_eq, eq_comm, @eq_comm _ m]
  have hself (sign : UnpackedFloat.Sign) : compare sign sign = .eq := by
    cases sign <;> rfl
  rcases a with (_ | _) | _ | _ | ⟨_ | _, m, e, hm⟩ <;>
  rcases b with (_ | _) | _ | _ | ⟨_ | _, n, f, hn⟩ <;>
  simp [UnpackedFloat.compare, unpackedPlace?, hthen, hself]

theorem lt_iff_place {x y : Float} :
    x < y ↔ ∃ p q, place? x = some p ∧ place? y = some q ∧ p < q := by
  have hlt : x < y ↔ x.toModel.unpack.compare y.toModel.unpack = some .lt := by
    show decide (x.toModel < y.toModel) = true ↔ _
    rw [decide_eq_true_iff]
    exact beq_iff_eq
  rw [hlt]
  exact compare_eq_lt_iff x.toModel.unpack y.toModel.unpack

theorem isNaN_eq_false_of_place {x : Float} {p : ℤ ×ₗ ℤ ×ₗ ℤ} (h : place? x = some p) :
    x.isNaN = false := by
  show x.toModel.unpack.isNaN = false
  unfold place? at h
  cases hx : x.toModel.unpack with
  | notANumber =>
    rw [hx] at h
    exact absurd h (by simp [unpackedPlace?])
  | infinity sign => rfl
  | zero sign => rfl
  | finite sign mantissa exponent hpos => rfl

/-- What is above something is a number. -/
theorem isNaN_eq_false_of_lt {x y : Float} (h : x < y) : y.isNaN = false := by
  obtain ⟨p, q, -, hq, -⟩ := lt_iff_place.mp h
  exact isNaN_eq_false_of_place hq

instance isStrictOrder_lt : IsStrictOrder Float (· < ·) where
  irrefl x hx := by
    obtain ⟨p, q, hp, hq, hpq⟩ := lt_iff_place.mp hx
    rw [hp] at hq
    rw [Option.some.inj hq] at hpq
    exact lt_irrefl q hpq
  trans x y z hxy hyz := by
    obtain ⟨p, q, hp, hq, hpq⟩ := lt_iff_place.mp hxy
    obtain ⟨q', r, hq', hr, hqr⟩ := lt_iff_place.mp hyz
    rw [hq] at hq'
    rw [← Option.some.inj hq'] at hqr
    exact lt_iff_place.mpr ⟨p, r, hp, hr, hpq.trans hqr⟩

end Number
end PrintPath
