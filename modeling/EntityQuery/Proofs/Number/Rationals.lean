import EntityQuery.Number.Decimal
import Mathlib.Data.Rat.Cast.Order
import Mathlib.Tactic.Positivity

/-!
# The numbers that decimals denote

A decimal denotes a rational number, its coefficient over a power of ten.  The scale is not part of
that number, and the order of decimals is the order of the numbers.
-/

namespace EntityQuery.Decimal

/-- The number a decimal denotes. -/
def toRat (d : Decimal) : ℚ := d.signedCoefficient / 10 ^ d.scale

theorem signedCoefficient_ofInt64 (n : Int64) : (ofInt64 n).signedCoefficient = n.toInt := by
  unfold signedCoefficient ofInt64 whole
  simp only [decide_eq_true_eq]
  omega

theorem toRat_ofInt64 (n : Int64) : (ofInt64 n).toRat = n.toInt := by
  have hscale : (ofInt64 n).scale = 0 := rfl
  rw [toRat, hscale, signedCoefficient_ofInt64, pow_zero, div_one]

theorem abs_toRat (d : Decimal) : |d.toRat| = d.coefficient / 10 ^ d.scale := by
  have hscale : (0 : ℚ) < 10 ^ d.scale := by positivity
  rw [toRat, abs_div, abs_of_pos hscale, signedCoefficient]
  split <;> simp

/-- Brought over the product of the two scales, the numbers compare as their coefficients do. -/
theorem toRat_lt_toRat_iff (d e : Decimal) : d.toRat < e.toRat ↔
    d.signedCoefficient * 10 ^ e.scale < e.signedCoefficient * 10 ^ d.scale := by
  have hd : (0 : ℚ) < 10 ^ d.scale := by positivity
  have he : (0 : ℚ) < 10 ^ e.scale := by positivity
  rw [toRat, toRat, div_lt_div_iff₀ hd he]
  norm_cast

theorem toRat_eq_toRat_iff (d e : Decimal) : d.toRat = e.toRat ↔
    d.signedCoefficient * 10 ^ e.scale = e.signedCoefficient * 10 ^ d.scale := by
  have hd : (10 : ℚ) ^ d.scale ≠ 0 := by positivity
  have he : (10 : ℚ) ^ e.scale ≠ 0 := by positivity
  rw [toRat, toRat, div_eq_div_iff hd he]
  norm_cast

/-- Decimals are ordered as the numbers they denote. -/
theorem compare_eq_compare_toRat (d e : Decimal) : d.compare e = Ord.compare d.toRat e.toRat := by
  rcases lt_trichotomy d.toRat e.toRat with hlt | heq | hgt
  · rw [compare_lt_iff_lt.2 hlt]
    exact compare_lt_iff_lt.2 ((toRat_lt_toRat_iff d e).1 hlt)
  · rw [compare_eq_iff_eq.2 heq]
    exact compare_eq_iff_eq.2 ((toRat_eq_toRat_iff d e).1 heq)
  · rw [compare_gt_iff_gt.2 hgt]
    exact compare_gt_iff_gt.2 ((toRat_lt_toRat_iff e d).1 hgt)

end EntityQuery.Decimal
