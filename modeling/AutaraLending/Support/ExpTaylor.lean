import Mathlib.Analysis.Complex.Exponential
import Mathlib.Tactic

/-! Taylor polynomials of the exponential, and how far they fall short of it relative to the
exponential itself. -/

namespace Support

open Finset

noncomputable def expTaylor (n : Nat) (x : ℝ) : ℝ := ∑ k ∈ range n, x ^ k / k.factorial

/-- The terms from the `n`-th on, `m` of them, with the power `n` taken out. -/
noncomputable def expTail (n m : Nat) (x : ℝ) : ℝ := ∑ k ∈ range m, x ^ k / (n + k).factorial

theorem exp_near_expTaylor (n : Nat) (x : ℝ) (small : |x| / (n.succ : ℝ) ≤ 1 / 2) :
    |Real.exp x - expTaylor n x| ≤ |x| ^ n / n.factorial * 2 := by
  have bound : ‖(x : ℂ)‖ / (n.succ : ℝ) ≤ 1 / 2 := by
    rw [Complex.norm_real]
    exact small
  have complex := Complex.exp_bound' bound
  rw [Complex.norm_real, ← Complex.ofReal_exp] at complex
  rw [expTaylor, ← Real.norm_eq_abs, ← Complex.norm_real]
  push_cast
  exact_mod_cast complex

theorem expTaylor_le_exp (n : Nat) {x : ℝ} (nonneg : 0 ≤ x) : expTaylor n x ≤ Real.exp x :=
  Real.sum_le_exp_of_nonneg nonneg n

theorem expTaylor_add (n m : Nat) (x : ℝ) :
    expTaylor (n + m) x = expTaylor n x + x ^ n * expTail n m x := by
  rw [expTaylor, sum_range_add, expTail, mul_sum]
  congr 1
  refine sum_congr rfl fun k _ => ?_
  rw [pow_add, mul_div_assoc]

theorem expTail_mono (n m : Nat) {x y : ℝ} (nonneg : 0 ≤ x) (le : x ≤ y) :
    expTail n m x ≤ expTail n m y :=
  sum_le_sum fun _ _ => by gcongr

/-- A larger argument raises the higher powers more. -/
theorem expTaylor_scale (n : Nat) {x y : ℝ} (nonneg : 0 ≤ x) (le : x ≤ y) :
    x ^ n * expTaylor n y ≤ y ^ n * expTaylor n x := by
  have y_nonneg : 0 ≤ y := nonneg.trans le
  rw [expTaylor, expTaylor, mul_sum, mul_sum]
  refine sum_le_sum fun k member => ?_
  obtain ⟨rest, rfl⟩ := Nat.exists_eq_add_of_le (mem_range.mp member).le
  have powers : x ^ rest ≤ y ^ rest := by gcongr
  calc
    x ^ (k + rest) * (y ^ k / k.factorial) = x ^ k * y ^ k / k.factorial * x ^ rest := by ring
    _ ≤ x ^ k * y ^ k / k.factorial * y ^ rest := by gcongr
    _ = y ^ (k + rest) * (x ^ k / k.factorial) := by ring

theorem exp_le_expTaylor_add (n m : Nat) {x y : ℝ} (nonneg : 0 ≤ x) (le : x ≤ y)
    (small : y / ((n + m).succ : ℝ) ≤ 1 / 2) :
    Real.exp x ≤ expTaylor n x + x ^ n * (expTail n m y + y ^ m / (n + m).factorial * 2) := by
  have narrow : |x| / ((n + m).succ : ℝ) ≤ 1 / 2 := by
    rw [abs_of_nonneg nonneg]
    exact le_trans (by gcongr) small
  have near := (abs_le.mp (exp_near_expTaylor (n + m) x narrow)).2
  rw [abs_of_nonneg nonneg, expTaylor_add] at near
  have tail := expTail_mono n m nonneg le
  have last : x ^ (n + m) / (n + m).factorial * 2 ≤ x ^ n * (y ^ m / (n + m).factorial * 2) := by
    rw [pow_add, mul_div_assoc, mul_assoc]
    gcongr
  have higher : x ^ n * expTail n m x ≤ x ^ n * expTail n m y := by gcongr
  linarith

/-- What the first `n` terms miss of a share `1 - c` of the exponential, up to `y`: at most the
same at `y`, scaled down. -/
theorem exp_excess_le (n m : Nat) {x y c : ℝ} (nonneg : 0 ≤ x) (le : x ≤ y) (c_nonneg : 0 ≤ c)
    (c_le : c ≤ 1) (small : y / ((n + m).succ : ℝ) ≤ 1 / 2) :
    y ^ n * ((1 - c) * Real.exp x - expTaylor n x) ≤
      x ^ n * ((1 - c) * (y ^ n * (expTail n m y + y ^ m / (n + m).factorial * 2)) -
        c * expTaylor n y) := by
  have upper := exp_le_expTaylor_add n m nonneg le small
  have scale := expTaylor_scale n nonneg le
  have share : 0 ≤ 1 - c := by linarith
  have y_nonneg : 0 ≤ y := nonneg.trans le
  have weighted := mul_le_mul_of_nonneg_left upper (mul_nonneg share (pow_nonneg y_nonneg n))
  have scaled := mul_le_mul_of_nonneg_left scale c_nonneg
  linarith

theorem le_exp_excess (n m : Nat) {x y c : ℝ} (nonneg : 0 ≤ y) (le : y ≤ x) (c_nonneg : 0 ≤ c)
    (c_le : c ≤ 1) :
    x ^ n * ((1 - c) * (y ^ n * expTail n m y) - c * expTaylor n y) ≤
      y ^ n * ((1 - c) * Real.exp x - expTaylor n x) := by
  have x_nonneg : 0 ≤ x := nonneg.trans le
  have lower := expTaylor_le_exp (n + m) x_nonneg
  rw [expTaylor_add] at lower
  have tail : x ^ n * expTail n m y ≤ x ^ n * expTail n m x := by
    have grows := expTail_mono n m nonneg le
    gcongr
  have scale := expTaylor_scale n nonneg le
  have share : 0 ≤ 1 - c := by linarith
  have weighted := mul_le_mul_of_nonneg_left (tail.trans (le_sub_iff_add_le'.mpr lower))
    (mul_nonneg share (pow_nonneg nonneg n))
  have scaled := mul_le_mul_of_nonneg_left scale c_nonneg
  linarith

end Support
