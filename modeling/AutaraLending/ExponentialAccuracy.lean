import AutaraLending.ExponentialBounds
import AutaraLending.Support.ExpTaylor

/-! How close the fixed-point exponential comes to the exponential. The reduction was meant to
leave a remainder of at most half of `ln 2` either way. A negative quotient is rounded away from
zero twice, once by the added half and once by the conversion to an integer, so a negative
argument leaves a remainder of up to three halves of `ln 2`, where six powers are too few. -/

namespace AutaraLending

open Support

namespace IFixedPoint

noncomputable def toReal (x : IFixedPoint) : ℝ := x.bits / 2 ^ 48

theorem expTerm_near (r term : Int) (n : Nat) (later : 2 ≤ n) :
    |(expTerm r term n : ℝ) - r / 2 ^ 48 * term / n| ≤ 3 / 2 := by
  have n_pos : (0 : Int) < n := by omega
  have n_ge : (2 : ℝ) ≤ n := by exact_mod_cast later
  -- both roundings, written without the quotients
  have floor_low := Int.ediv_mul_le (r * term) (by norm_num : (2 ^ 48 : Int) ≠ 0)
  have floor_high := Int.lt_ediv_add_one_mul_self (r * term) (by norm_num : (0 : Int) < 2 ^ 48)
  have cut := Int.mul_tdiv_add_tmod (r * term / 2 ^ 48) n
  have rest_high := Int.tmod_lt_of_pos (r * term / 2 ^ 48) n_pos
  have rest_low := Int.lt_tmod_of_pos (r * term / 2 ^ 48) n_pos
  unfold expTerm
  generalize r * term / 2 ^ 48 = scaled at *
  generalize scaled.tmod n = rest at *
  generalize scaled.tdiv n = next at *
  have cut_real : (n : ℝ) * next + rest = scaled := by exact_mod_cast cut
  have floor_low_real : (scaled : ℝ) * 2 ^ 48 ≤ r * term := by exact_mod_cast floor_low
  have floor_high_real : (r * term : ℝ) < (scaled + 1) * 2 ^ 48 := by exact_mod_cast floor_high
  have rest_high_real : (rest : ℝ) ≤ n - 1 := by exact_mod_cast Int.le_sub_one_of_lt rest_high
  have rest_low_real : -(n - 1 : ℝ) ≤ rest := by exact_mod_cast (by omega : -((n : Int) - 1) ≤ rest)
  have exact_eq : (r / 2 ^ 48 * term / n : ℝ) = r * term / 2 ^ 48 / n := by ring
  have low : (scaled : ℝ) ≤ r * term / 2 ^ 48 := by
    rw [le_div_iff₀ (by norm_num)]
    exact floor_low_real
  have high : (r * term / 2 ^ 48 : ℝ) ≤ scaled + 1 := by
    rw [div_le_iff₀ (by norm_num)]
    exact floor_high_real.le
  rw [exact_eq, abs_le]
  constructor
  · rw [neg_le_sub_iff_le_add, div_le_iff₀ (by linarith)]
    nlinarith
  · rw [sub_le_iff_le_add, ← sub_le_iff_le_add', le_div_iff₀ (by linarith)]
    nlinarith

theorem expTerm_step (r term : Int) (n : Nat) (later : 2 ≤ n) {exact_term error : ℝ}
    (near : |term - exact_term| ≤ error) (small : |(r : ℝ) / 2 ^ 48| ≤ 3 / 2) :
    |(expTerm r term n : ℝ) - r / 2 ^ 48 * exact_term / n| ≤ 3 / 2 + 3 / 2 * error / n := by
  have n_pos : (0 : ℝ) < n := by positivity
  have own := expTerm_near r term n later
  have carried : |(r : ℝ) / 2 ^ 48 * term / n - r / 2 ^ 48 * exact_term / n| ≤
      3 / 2 * error / n := by
    have factored : (r : ℝ) / 2 ^ 48 * term / n - r / 2 ^ 48 * exact_term / n =
        r / 2 ^ 48 * (term - exact_term) / n := by ring
    rw [factored, abs_div, abs_mul, abs_of_pos n_pos]
    gcongr
  calc
    |(expTerm r term n : ℝ) - r / 2 ^ 48 * exact_term / n|
        ≤ |(expTerm r term n : ℝ) - r / 2 ^ 48 * term / n| +
            |(r : ℝ) / 2 ^ 48 * term / n - r / 2 ^ 48 * exact_term / n| := abs_sub_le _ _ _
    _ ≤ 3 / 2 + 3 / 2 * error / n := add_le_add own carried

theorem expTaylor_seven (x : ℝ) :
    expTaylor 7 x = 1 + x + x ^ 2 / 2 + x ^ 3 / 6 + x ^ 4 / 24 + x ^ 5 / 120 + x ^ 6 / 720 := by
  simp [expTaylor, Finset.sum_range_succ, Nat.factorial]

/-- The sum is the Taylor polynomial up to eleven units in the last place. -/
theorem ExpSum.near_expTaylor {r sum : Int} (terms : ExpSum r sum)
    (small : |(r : ℝ) / 2 ^ 48| ≤ 3 / 2) :
    |(sum : ℝ) / 2 ^ 48 - expTaylor 7 (r / 2 ^ 48)| ≤ 11 / 2 ^ 48 := by
  have sum_eq : (sum : ℝ) =
      r + 2 ^ 48 + terms.second + terms.third + terms.fourth + terms.fifth + terms.sixth := by
    exact_mod_cast terms.sum_eq
  have first : |(r : ℝ) - r| ≤ 0 := by rw [sub_self, abs_zero]
  have second := expTerm_step r r 2 le_rfl first small
  rw [← terms.second_eq] at second
  have third := expTerm_step r terms.second 3 (by norm_num) second small
  rw [← terms.third_eq] at third
  have fourth := expTerm_step r terms.third 4 (by norm_num) third small
  rw [← terms.fourth_eq] at fourth
  have fifth := expTerm_step r terms.fourth 5 (by norm_num) fourth small
  rw [← terms.fifth_eq] at fifth
  have sixth := expTerm_step r terms.fifth 6 (by norm_num) fifth small
  rw [← terms.sixth_eq] at sixth
  rw [abs_le] at second third fourth fifth sixth
  rw [expTaylor_seven, sum_eq]
  generalize x_eq : (r : ℝ) / 2 ^ 48 = x at *
  have r_eq : (r : ℝ) = x * 2 ^ 48 := by
    rw [← x_eq]
    ring
  rw [r_eq] at second third fourth fifth sixth ⊢
  rw [abs_le]
  push_cast at second third fourth fifth sixth
  constructor
  · rw [neg_le_sub_iff_le_add, ← sub_le_iff_le_add, le_div_iff₀ (by norm_num)]
    linarith
  · rw [sub_le_iff_le_add, div_le_iff₀ (by norm_num)]
    linarith

/-! The constant for `ln 2` is cut to the last place. -/

theorem exp_ln2_le : Real.exp (195103586505167 / 2 ^ 48) ≤ 2 := by
  have near := (abs_le.mp (exp_near_expTaylor 16 (195103586505167 / 2 ^ 48) (by
    rw [abs_of_nonneg (by norm_num)]
    norm_num))).2
  rw [abs_of_nonneg (by norm_num)] at near
  refine (sub_le_iff_le_add.mp near).trans ?_
  norm_num [expTaylor, Finset.sum_range_succ, Nat.factorial]

theorem two_le_exp_ln2 : 2 ≤ Real.exp (195103586505168 / 2 ^ 48) := by
  refine le_trans ?_ (expTaylor_le_exp 16 (by norm_num))
  norm_num [expTaylor, Finset.sum_range_succ, Nat.factorial]

theorem exp_mul_ln2 (k : Nat) (few : k ≤ 80) :
    Real.exp (k * (195103586505167 / 2 ^ 48)) ≤ 2 ^ k ∧
      2 ^ k ≤ Real.exp (k * (195103586505167 / 2 ^ 48)) * (1 + 160 / 2 ^ 48) := by
  have k_le : (k : ℝ) ≤ 80 := by exact_mod_cast few
  constructor
  · rw [Real.exp_nat_mul]
    exact pow_le_pow_left₀ (Real.exp_pos _).le exp_ln2_le k
  · have drift : Real.exp (k / 2 ^ 48) ≤ 1 + 160 / 2 ^ 48 := by
      have nonneg : (0 : ℝ) ≤ k / 2 ^ 48 := by positivity
      have tiny : (k : ℝ) / 2 ^ 48 ≤ 80 / 2 ^ 48 := by gcongr
      have near := (abs_le.mp (Real.abs_exp_sub_one_le (x := k / 2 ^ 48) (by
        rw [abs_of_nonneg nonneg]
        linarith))).2
      rw [abs_of_nonneg nonneg] at near
      linarith
    calc
      (2 : ℝ) ^ k ≤ Real.exp (195103586505168 / 2 ^ 48) ^ k :=
        pow_le_pow_left₀ (by norm_num) two_le_exp_ln2 k
      _ = Real.exp (k * (195103586505167 / 2 ^ 48)) * Real.exp (k / 2 ^ 48) := by
        rw [← Real.exp_nat_mul, ← Real.exp_add]
        congr 1
        ring
      _ ≤ Real.exp (k * (195103586505167 / 2 ^ 48)) * (1 + 160 / 2 ^ 48) := by gcongr

/-! What seven terms miss, relative to the exponential. -/

theorem series_shortfall_le {x y c d : ℝ} (nonneg : 0 ≤ x) (le : x ≤ y) (y_pos : 0 < y)
    (y_le : y ≤ 2) (c_nonneg : 0 ≤ c) (c_le : c ≤ 1) (d_nonneg : 0 ≤ d)
    (at_top : (1 - c) * (y ^ 7 * (expTail 7 7 y + y ^ 7 / ((7 + 7 : Nat).factorial : ℝ) * 2)) -
      c * expTaylor 7 y ≤ d) :
    (1 - c) * Real.exp x - expTaylor 7 x ≤ d := by
  have small : y / (((7 + 7 : Nat).succ : Nat) : ℝ) ≤ 1 / 2 := by
    push_cast
    linarith
  have powers : x ^ 7 ≤ y ^ 7 := by gcongr
  refine le_of_mul_le_mul_left ?_ (pow_pos y_pos 7)
  calc
    y ^ 7 * ((1 - c) * Real.exp x - expTaylor 7 x)
        ≤ x ^ 7 * ((1 - c) * (y ^ 7 *
            (expTail 7 7 y + y ^ 7 / ((7 + 7 : Nat).factorial : ℝ) * 2)) - c * expTaylor 7 y) :=
          exp_excess_le 7 7 nonneg le c_nonneg c_le small
    _ ≤ x ^ 7 * d := by gcongr
    _ ≤ y ^ 7 * d := by gcongr

/-- A remainder of at most 1.03039 keeps the shortfall below a ten-thousandth. -/
theorem series_close {x : ℝ} (nonneg : 0 ≤ x) (le : x ≤ 103039 / 100000) :
    (1 - (1 / 10 ^ 4 - 4 / 10 ^ 9)) * Real.exp x ≤ expTaylor 7 x := by
  have short := series_shortfall_le nonneg le (by norm_num) (by norm_num)
    (by norm_num : (0 : ℝ) ≤ 1 / 10 ^ 4 - 4 / 10 ^ 9) (by norm_num) le_rfl
    (by norm_num [expTaylor, expTail, Finset.sum_range_succ, Nat.factorial])
  linarith

/-- No remainder passes a ten-thousandth by more than 1.7 hundred-thousandths. -/
theorem series_worst {x : ℝ} (nonneg : 0 ≤ x) (le : x ≤ 104 / 100) :
    (1 - 1 / 10 ^ 4) * Real.exp x - expTaylor 7 x ≤ 17 / 10 ^ 6 :=
  series_shortfall_le nonneg le (by norm_num) (by norm_num)
    (by norm_num : (0 : ℝ) ≤ 1 / 10 ^ 4) (by norm_num) (by norm_num)
    (by norm_num [expTaylor, expTail, Finset.sum_range_succ, Nat.factorial])

theorem series_short {x : ℝ} (ge : 10304 / 10000 ≤ x) :
    17 / 10 ^ 10 ≤ (1 - 1 / 10 ^ 4) * Real.exp x - expTaylor 7 x := by
  have excess := le_exp_excess 7 7 (by norm_num) ge (by norm_num : (0 : ℝ) ≤ 1 / 10 ^ 4)
    (by norm_num)
  have at_bottom : (17 / 10 ^ 10 : ℝ) ≤ (1 - 1 / 10 ^ 4) * ((10304 / 10000) ^ 7 *
      expTail 7 7 (10304 / 10000)) - 1 / 10 ^ 4 * expTaylor 7 (10304 / 10000) := by
    norm_num [expTaylor, expTail, Finset.sum_range_succ, Nat.factorial]
  have powers : (10304 / 10000 : ℝ) ^ 7 ≤ x ^ 7 := by gcongr
  refine le_of_mul_le_mul_left ?_ (by positivity : (0 : ℝ) < (10304 / 10000) ^ 7)
  calc
    (10304 / 10000 : ℝ) ^ 7 * (17 / 10 ^ 10) ≤ x ^ 7 * (17 / 10 ^ 10) := by gcongr
    _ ≤ x ^ 7 * ((1 - 1 / 10 ^ 4) * ((10304 / 10000) ^ 7 * expTail 7 7 (10304 / 10000)) -
          1 / 10 ^ 4 * expTaylor 7 (10304 / 10000)) := by
        have x_nonneg : 0 ≤ x := le_trans (by norm_num) ge
        gcongr
    _ ≤ (10304 / 10000) ^ 7 * ((1 - 1 / 10 ^ 4) * Real.exp x - expTaylor 7 x) := excess

theorem series_near {x : ℝ} (small : |x| ≤ 35 / 100) :
    |Real.exp x - expTaylor 7 x| ≤ 1 / 10 ^ 6 := by
  have near := exp_near_expTaylor 7 x (by
    push_cast
    linarith)
  have power : |x| ^ 7 ≤ (35 / 100) ^ 7 := by gcongr
  refine near.trans ?_
  norm_num [Nat.factorial] at power ⊢
  linarith

/-! The parts of a split, as real numbers. -/

theorem ExpParts.toReal_eq {x : IFixedPoint} (parts : ExpParts x) :
    x.toReal = parts.q.toInt * (195103586505167 / 2 ^ 48) + parts.r.toReal := by
  have r_eq := parts.r_eq
  rw [ln2_bits] at r_eq
  have r_real : (parts.r.bits : ℝ) = x.bits - parts.q.toInt * 195103586505167 := by
    exact_mod_cast r_eq
  rw [toReal, toReal, r_real]
  ring

/-- The share of the exponential that the remainder stands for, once the power of two is taken
out, for a negative argument. -/
theorem ExpParts.exp_neg {x : IFixedPoint} (parts : ExpParts x) (negative : x.bits < 0) :
    Real.exp parts.r.toReal ≤ Real.exp x.toReal * 2 ^ parts.q.toInt.natAbs ∧
      Real.exp x.toReal * 2 ^ parts.q.toInt.natAbs ≤
        Real.exp parts.r.toReal * (1 + 160 / 2 ^ 48) := by
  obtain ⟨q_neg, q_gt, -, -⟩ := parts.of_neg negative
  have q_eq : (parts.q.toInt : ℝ) = -(parts.q.toInt.natAbs : ℝ) := by
    exact_mod_cast (by omega : parts.q.toInt = -(parts.q.toInt.natAbs : Int))
  obtain ⟨below, above⟩ := exp_mul_ln2 parts.q.toInt.natAbs (by omega)
  have split : Real.exp parts.r.toReal =
      Real.exp x.toReal * Real.exp (parts.q.toInt.natAbs * (195103586505167 / 2 ^ 48)) := by
    rw [← Real.exp_add, parts.toReal_eq, q_eq]
    congr 1
    ring
  have positive := Real.exp_pos x.toReal
  constructor
  · rw [split]
    gcongr
  · rw [split, mul_assoc]
    gcongr

theorem ExpParts.exp_nonneg {x : IFixedPoint} (parts : ExpParts x) (nonneg : 0 ≤ x.bits) :
    Real.exp x.toReal ≤ Real.exp parts.r.toReal * 2 ^ parts.q.toInt.natAbs ∧
      Real.exp parts.r.toReal * 2 ^ parts.q.toInt.natAbs ≤
        Real.exp x.toReal * (1 + 160 / 2 ^ 48) := by
  obtain ⟨q_nonneg, q_le, -, -⟩ := parts.of_nonneg nonneg
  have q_eq : (parts.q.toInt : ℝ) = (parts.q.toInt.natAbs : ℝ) := by
    rw [Nat.cast_natAbs, abs_of_nonneg q_nonneg]
  obtain ⟨below, above⟩ := exp_mul_ln2 parts.q.toInt.natAbs (by omega)
  have split : Real.exp x.toReal =
      Real.exp parts.r.toReal * Real.exp (parts.q.toInt.natAbs * (195103586505167 / 2 ^ 48)) := by
    rw [← Real.exp_add, parts.toReal_eq, q_eq]
    congr 1
    ring
  have positive := Real.exp_pos parts.r.toReal
  constructor
  · rw [split]
    gcongr
  · rw [split, mul_assoc]
    gcongr

theorem ExpParts.near_expTaylor {x : IFixedPoint} (parts : ExpParts x)
    (small : |parts.r.toReal| ≤ 3 / 2) :
    |parts.expR.toReal - expTaylor 7 parts.r.toReal| ≤ 11 / 2 ^ 48 :=
  parts.terms.near_expTaylor small

theorem ExpParts.remainder_neg {x : IFixedPoint} (parts : ExpParts x) (negative : x.bits < 0) :
    34 / 100 ≤ parts.r.toReal ∧ parts.r.toReal ≤ 104 / 100 := by
  obtain ⟨-, -, r_ge, r_lt⟩ := parts.of_neg negative
  rw [ln2_bits] at r_lt
  rw [ln2Div2_bits] at r_ge r_lt
  have low : (97551793252583 : ℝ) ≤ parts.r.bits := by exact_mod_cast r_ge
  have high : (parts.r.bits : ℝ) ≤ 195103586505167 + 97551793252583 := by exact_mod_cast r_lt.le
  rw [toReal]
  constructor
  · rw [le_div_iff₀ (by norm_num)]
    linarith
  · rw [div_le_iff₀ (by norm_num)]
    linarith

theorem ExpParts.remainder_nonneg {x : IFixedPoint} (parts : ExpParts x) (nonneg : 0 ≤ x.bits) :
    |parts.r.toReal| ≤ 35 / 100 := by
  obtain ⟨-, -, r_ge, r_lt⟩ := parts.of_nonneg nonneg
  rw [ln2_bits] at r_lt
  rw [ln2Div2_bits] at r_ge r_lt
  have low : (-97551793252583 : ℝ) ≤ parts.r.bits := by exact_mod_cast r_ge
  have high : (parts.r.bits : ℝ) ≤ 195103586505167 - 97551793252583 := by exact_mod_cast r_lt.le
  rw [toReal, abs_le]
  constructor
  · rw [le_div_iff₀ (by norm_num)]
    linarith
  · rw [div_le_iff₀ (by norm_num)]
    linarith

theorem shifted_right {expR y : IFixedPoint} {k : Nat} (y_eq : y.bits = expR.bits / 2 ^ k) :
    y.toReal * 2 ^ k ≤ expR.toReal ∧ expR.toReal ≤ (y.toReal + 1 / 2 ^ 48) * 2 ^ k := by
  have below := Int.ediv_mul_le expR.bits (by positivity : (2 ^ k : Int) ≠ 0)
  have above := Int.lt_ediv_add_one_mul_self expR.bits (by positivity : (0 : Int) < 2 ^ k)
  rw [← y_eq] at below above
  have below_real : (y.bits : ℝ) * 2 ^ k ≤ expR.bits := by exact_mod_cast below
  have above_real : (expR.bits : ℝ) ≤ (y.bits + 1) * 2 ^ k := by exact_mod_cast above.le
  rw [toReal, toReal]
  constructor
  · rw [le_div_iff₀ (by norm_num)]
    linarith
  · rw [div_le_iff₀ (by norm_num)]
    linarith

/-- Within a basis point of the exponential, and two units in the last place. -/
def Accurate (x y : IFixedPoint) : Prop :=
  |y.toReal - Real.exp x.toReal| ≤ 1 / 10 ^ 4 * Real.exp x.toReal + 1 / 2 ^ 47

theorem ExpParts.accurate_of_short {x y : IFixedPoint} (parts : ExpParts x)
    (negative : x.bits < 0) (y_eq : y.bits = parts.expR.bits / 2 ^ parts.q.toInt.natAbs)
    (short : (1 - 1 / 10 ^ 4) * Real.exp parts.r.toReal - expTaylor 7 parts.r.toReal ≤
      (2 ^ parts.q.toInt.natAbs - 500) / 2 ^ 48) : Accurate x y := by
  obtain ⟨remainder_ge, remainder_le⟩ := parts.remainder_neg negative
  obtain ⟨exp_ge, exp_le⟩ := parts.exp_neg negative
  obtain ⟨series_low, series_high⟩ := abs_le.mp (parts.near_expTaylor (by
    rw [abs_of_nonneg (by linarith)]
    linarith))
  obtain ⟨shift_low, shift_high⟩ := shifted_right y_eq
  have below := expTaylor_le_exp 7 (by linarith : (0 : ℝ) ≤ parts.r.toReal)
  have one_le : 1 ≤ Real.exp parts.r.toReal := Real.one_le_exp (by linarith)
  have exp_small : Real.exp parts.r.toReal ≤ 3 := by
    have worst := series_worst (by linarith) remainder_le
    have poly : expTaylor 7 parts.r.toReal ≤ expTaylor 7 (104 / 100) := by
      rw [expTaylor_seven, expTaylor_seven]
      gcongr
    have top : expTaylor 7 (104 / 100) ≤ 29 / 10 := by
      rw [expTaylor_seven]
      norm_num
    linarith
  have power_pos : (0 : ℝ) < 2 ^ parts.q.toInt.natAbs := by positivity
  rw [Accurate, abs_le]
  constructor
  · refine le_of_mul_le_mul_right ?_ power_pos
    nlinarith
  · refine le_of_mul_le_mul_right ?_ power_pos
    nlinarith

theorem ExpParts.short_of_accurate {x y : IFixedPoint} (parts : ExpParts x)
    (negative : x.bits < 0) (y_eq : y.bits = parts.expR.bits / 2 ^ parts.q.toInt.natAbs)
    (accurate : Accurate x y) :
    (1 - 1 / 10 ^ 4) * Real.exp parts.r.toReal - expTaylor 7 parts.r.toReal ≤
      (2 * 2 ^ parts.q.toInt.natAbs + 11) / 2 ^ 48 := by
  obtain ⟨remainder_ge, remainder_le⟩ := parts.remainder_neg negative
  obtain ⟨exp_ge, -⟩ := parts.exp_neg negative
  obtain ⟨-, series_high⟩ := abs_le.mp (parts.near_expTaylor (by
    rw [abs_of_nonneg (by linarith)]
    linarith))
  obtain ⟨shift_low, -⟩ := shifted_right y_eq
  have power_pos : (0 : ℝ) < 2 ^ parts.q.toInt.natAbs := by positivity
  have lower := mul_le_mul_of_nonneg_right (abs_le.mp accurate).1 power_pos.le
  linarith

theorem ExpParts.close_of_nonneg {x y : IFixedPoint} (parts : ExpParts x) (nonneg : 0 ≤ x.bits)
    (y_eq : y.bits = parts.expR.bits * 2 ^ parts.q.toInt.natAbs) :
    (1 - 4 / 10 ^ 6) * Real.exp x.toReal ≤ y.toReal ∧
      y.toReal ≤ (1 + 4 / 10 ^ 6) * Real.exp x.toReal := by
  have small := parts.remainder_nonneg nonneg
  obtain ⟨exp_le, exp_ge⟩ := parts.exp_nonneg nonneg
  obtain ⟨near_low, near_high⟩ := abs_le.mp (series_near small)
  obtain ⟨series_low, series_high⟩ := abs_le.mp (parts.near_expTaylor (by linarith))
  have exp_large : 65 / 100 ≤ Real.exp parts.r.toReal := by
    have linear := Real.add_one_le_exp parts.r.toReal
    have low := (abs_le.mp small).1
    linarith
  have power_pos : (0 : ℝ) < 2 ^ parts.q.toInt.natAbs := by positivity
  have y_real : y.toReal = parts.expR.toReal * 2 ^ parts.q.toInt.natAbs := by
    rw [toReal, toReal, y_eq]
    push_cast
    ring
  -- the errors of the series, against the exponential of the remainder
  have sum_low : (1 - 3 / 10 ^ 6) * Real.exp parts.r.toReal ≤ parts.expR.toReal := by linarith
  have sum_high : parts.expR.toReal ≤ (1 + 3 / 10 ^ 6) * Real.exp parts.r.toReal := by linarith
  have positive := Real.exp_pos x.toReal
  have scaled_low := mul_le_mul_of_nonneg_right sum_low power_pos.le
  have scaled_high := mul_le_mul_of_nonneg_right sum_high power_pos.le
  rw [y_real]
  constructor
  · linarith
  · linarith

theorem accurate_of_close {x y : IFixedPoint}
    (close : (1 - 4 / 10 ^ 6) * Real.exp x.toReal ≤ y.toReal ∧
      y.toReal ≤ (1 + 4 / 10 ^ 6) * Real.exp x.toReal) : Accurate x y := by
  have positive := Real.exp_pos x.toReal
  rw [Accurate, abs_le]
  constructor
  · linarith
  · linarith

theorem one_add_le_of_nonneg {x y : IFixedPoint} (parts : ExpParts x) (nonneg : 0 ≤ x.bits)
    (y_eq : y.bits = parts.expR.bits * 2 ^ parts.q.toInt.natAbs) :
    2 ^ 48 + x.bits ≤ y.bits := by
  obtain ⟨q_nonneg, -, r_ge, r_lt⟩ := parts.of_nonneg nonneg
  have r_eq := parts.r_eq
  by_cases none : parts.q.toInt = 0
  · rw [none, zero_mul, sub_zero] at r_eq
    have sum_ge := parts.terms.ge_of_nonneg (by omega)
    rw [y_eq, none, ← r_eq]
    simpa using sum_ge
  · -- from half of `ln 2` on the second power alone makes up for the error
    rw [ln2_bits] at r_eq r_lt
    rw [ln2Div2_bits] at r_ge r_lt
    have x_ge : 97551793252583 ≤ x.bits := by omega
    have x_real : 34 / 100 ≤ x.toReal := by
      have cast : (97551793252583 : ℝ) ≤ x.bits := by exact_mod_cast x_ge
      rw [toReal, le_div_iff₀ (by norm_num)]
      linarith
    have close := (parts.close_of_nonneg nonneg y_eq).1
    have quadratic := Real.quadratic_le_exp_of_nonneg (by linarith : 0 ≤ x.toReal)
    have simple : 1 + x.toReal ≤ y.toReal := by nlinarith
    have scaled : (2 ^ 48 + x.bits : ℝ) ≤ y.bits := by
      rw [toReal, toReal, ← sub_nonneg] at simple
      have product : (y.bits : ℝ) - (2 ^ 48 + x.bits) =
          2 ^ 48 * (y.bits / 2 ^ 48 - (1 + x.bits / 2 ^ 48)) := by ring
      rw [← sub_nonneg, product]
      positivity
    exact_mod_cast scaled

theorem accurate_cut {x : IFixedPoint} (cut : x ≤ minExpArg) : Accurate x Fixed.zero := by
  have low : x.bits ≤ -9347783976560885 := minExpArg_bits ▸ cut
  have low_real : (x.bits : ℝ) ≤ -9347783976560885 := by exact_mod_cast low
  have far : x.toReal + 47 * (195103586505168 / 2 ^ 48) ≤ 0 := by
    have scaled : x.toReal ≤ -9347783976560885 / 2 ^ 48 := by
      rw [toReal]
      gcongr
    linarith
  have product : Real.exp x.toReal * Real.exp (195103586505168 / 2 ^ 48) ^ 47 ≤ 1 := by
    rw [← Real.exp_nat_mul, ← Real.exp_add]
    exact Real.exp_le_one_iff.mpr far
  have power : (2 : ℝ) ^ 47 ≤ Real.exp (195103586505168 / 2 ^ 48) ^ 47 :=
    pow_le_pow_left₀ (by norm_num) two_le_exp_ln2 47
  have positive := Real.exp_pos x.toReal
  have tiny : Real.exp x.toReal ≤ 1 / 2 ^ 47 := by
    rw [le_div_iff₀ (by norm_num)]
    exact (mul_le_mul_of_nonneg_left power positive.le).trans product
  have zero : toReal Fixed.zero = 0 := by simp [toReal]
  rw [Accurate, zero, zero_sub, abs_neg, abs_of_pos positive]
  linarith

def remainderBits (x : Int) : Int := (x - ln2Div2.bits) % ln2.bits + ln2Div2.bits

theorem ExpParts.remainder_eq {x : IFixedPoint} (parts : ExpParts x) (negative : x.bits < 0) :
    parts.r.bits = remainderBits x.bits := by
  obtain ⟨-, -, r_ge, r_lt⟩ := parts.of_neg negative
  have shifted : x.bits - ln2Div2.bits =
      parts.r.bits - ln2Div2.bits + parts.q.toInt * ln2.bits := by
    rw [parts.r_eq]
    ring
  rw [remainderBits, shifted, Int.add_mul_emod_self_right, Int.emod_eq_of_lt (by omega) (by omega)]
  omega

/-- Not negative, or so small that two units cover the error, or with a remainder of at most
1.03039. -/
def WellReduced (x : IFixedPoint) : Prop :=
  0 ≤ x.bits ∨ x.bits * 100 ≤ -2184 * 2 ^ 48 ∨
    remainderBits x.bits * 100000 ≤ 103039 * 2 ^ 48

/-- Negative, of moderate size, with a remainder of 1.0304 or more. -/
def IllReduced (x : IFixedPoint) : Prop :=
  x.bits < 0 ∧ -1075 * 2 ^ 48 ≤ x.bits * 100 ∧ 10304 * 2 ^ 48 ≤ remainderBits x.bits * 10000

theorem ExpParts.accurate_neg {x y : IFixedPoint} (parts : ExpParts x) (negative : x.bits < 0)
    (reduced : WellReduced x) (y_eq : y.bits = parts.expR.bits / 2 ^ parts.q.toInt.natAbs) :
    Accurate x y := by
  obtain ⟨remainder_ge, remainder_le⟩ := parts.remainder_neg negative
  obtain ⟨q_neg, -, r_ge, -⟩ := parts.of_neg negative
  have r_eq := parts.r_eq
  rw [ln2_bits] at r_eq
  rw [ln2Div2_bits] at r_ge
  refine parts.accurate_of_short negative y_eq ?_
  rcases reduced with nonneg | far | close
  · omega
  · have shift : 33 ≤ parts.q.toInt.natAbs := by omega
    have power : (2 : ℝ) ^ 33 ≤ 2 ^ parts.q.toInt.natAbs := pow_le_pow_right₀ (by norm_num) shift
    have worst := series_worst (by linarith) remainder_le
    rw [le_div_iff₀ (by norm_num)]
    linarith
  · have power : (1 : ℝ) ≤ 2 ^ parts.q.toInt.natAbs := one_le_pow₀ (by norm_num)
    rw [← parts.remainder_eq negative] at close
    have close_real : parts.r.toReal ≤ 103039 / 100000 := by
      have cast : (parts.r.bits : ℝ) * 100000 ≤ 103039 * 2 ^ 48 := by exact_mod_cast close
      rw [toReal, div_le_div_iff₀ (by norm_num) (by norm_num)]
      exact cast
    have near := series_close (by linarith) close_real
    have one_le : 1 ≤ Real.exp parts.r.toReal := Real.one_le_exp (by linarith)
    rw [le_div_iff₀ (by norm_num)]
    linarith

theorem not_accurate_of_illReduced (x y : IFixedPoint) (reduced : IllReduced x)
    (success : checkedExp x = .ok y) : ¬ Accurate x y := by
  obtain ⟨negative, moderate, wide⟩ := reduced
  obtain ⟨parts⟩ := exp_parts x
    (by rw [Fixed.lt_def, minExpArg_bits]; omega) (by rw [Fixed.le_def, maxExpArg_bits]; omega)
  obtain ⟨-, y', success', y_eq⟩ := parts.exp_of_neg negative
  obtain rfl := Except.ok.inj (success.symm.trans success')
  intro accurate
  obtain ⟨q_neg, -, -, r_lt⟩ := parts.of_neg negative
  have r_eq := parts.r_eq
  rw [ln2_bits] at r_eq r_lt
  rw [ln2Div2_bits] at r_lt
  have shift : parts.q.toInt.natAbs ≤ 17 := by omega
  have power : (2 : ℝ) ^ parts.q.toInt.natAbs ≤ 2 ^ 17 := pow_le_pow_right₀ (by norm_num) shift
  have room := parts.short_of_accurate negative y_eq accurate
  rw [← parts.remainder_eq negative] at wide
  have wide_real : 10304 / 10000 ≤ parts.r.toReal := by
    have cast : (10304 : ℝ) * 2 ^ 48 ≤ parts.r.bits * 10000 := by exact_mod_cast wide
    rw [toReal, div_le_div_iff₀ (by norm_num) (by norm_num)]
    exact cast
  have short := series_short wide_real
  rw [le_div_iff₀ (by norm_num)] at room
  linarith

theorem accurate_of_wellReduced (x y : IFixedPoint) (reduced : WellReduced x)
    (success : checkedExp x = .ok y) : Accurate x y := by
  by_cases cut : x ≤ minExpArg
  · rw [checkedExp, if_pos cut, Except.ok.injEq] at success
    rw [← success]
    exact accurate_cut cut
  have lower : minExpArg < x := by
    rw [Fixed.le_def] at cut
    rw [Fixed.lt_def]
    omega
  have upper := le_maxExpArg_of_checkedExp success
  obtain ⟨parts⟩ := exp_parts x lower upper
  rcases le_or_gt 0 x.bits with nonneg | negative
  · obtain ⟨-, y', success', y_eq⟩ := parts.exp_of_nonneg nonneg upper
    obtain rfl := Except.ok.inj (success.symm.trans success')
    exact accurate_of_close (parts.close_of_nonneg nonneg y_eq)
  · obtain ⟨-, y', success', y_eq⟩ := parts.exp_of_neg negative
    obtain rfl := Except.ok.inj (success.symm.trans success')
    exact parts.accurate_neg negative reduced y_eq

theorem one_add_le_checkedExp (x y : IFixedPoint) (nonneg : 0 ≤ x.bits)
    (success : checkedExp x = .ok y) : 2 ^ 48 + x.bits ≤ y.bits := by
  have upper := le_maxExpArg_of_checkedExp success
  obtain ⟨parts⟩ := exp_parts x (by rw [Fixed.lt_def, minExpArg_bits]; omega) upper
  obtain ⟨-, y', success', y_eq⟩ := parts.exp_of_nonneg nonneg upper
  obtain rfl := Except.ok.inj (success.symm.trans success')
  exact one_add_le_of_nonneg parts nonneg y_eq

theorem checkedExp_fails_iff (x : IFixedPoint) :
    (∃ failure, checkedExp x = .error failure) ↔ maxExpArg.bits < x.bits := by
  constructor
  · rintro ⟨failure, fails⟩
    by_contra within
    obtain ⟨y, success, -⟩ := checkedExp_succeeds x (not_lt.mp within)
    rw [fails] at success
    cases success
  · intro above
    exact ⟨_, checkedExp_above x above⟩

theorem toReal_le_iff (x : IFixedPoint) (bits : Int) (value : ℝ)
    (exact_value : value * 2 ^ 48 = bits) :
    x.toReal ≤ value ↔ x.bits ≤ bits := by
  rw [toReal, div_le_iff₀ (by norm_num), exact_value]
  exact_mod_cast Iff.rfl

/-- The exponential fails above 54.75 only, is never below simple interest, stays between zero
and one for arguments that are not positive, and is accurate to a basis point where the
reduction leaves a small remainder. Where it leaves a large one, it is not. -/
theorem checkedExp_accuracy (x : IFixedPoint) :
    ((∃ failure, checkedExp x = .error failure) ↔ 54.75 < x.toReal) ∧
    ∀ y, checkedExp x = .ok y →
      (0 ≤ x.toReal → 1 + x.toReal ≤ y.toReal) ∧
      (x.toReal ≤ 0 → 0 ≤ y.toReal ∧ y.toReal ≤ 1) ∧
      (WellReduced x → Accurate x y) ∧
      (IllReduced x → ¬ Accurate x y) := by
  constructor
  · rw [checkedExp_fails_iff, ← not_le, ← not_le,
      toReal_le_iff x maxExpArg.bits 54.75 (by rw [maxExpArg_bits]; norm_num)]
  · intro y success
    refine ⟨fun nonneg => ?_, fun nonpos => ?_, fun reduced => ?_, fun reduced => ?_⟩
    · have bits_nonneg : 0 ≤ x.bits := by
        rw [toReal] at nonneg
        by_contra negative
        have below : (x.bits : ℝ) < 0 := by exact_mod_cast not_le.mp negative
        exact absurd nonneg (not_le.mpr (div_neg_of_neg_of_pos below (by norm_num)))
      have simple : (2 ^ 48 + x.bits : ℝ) ≤ y.bits := by
        exact_mod_cast one_add_le_checkedExp x y bits_nonneg success
      rw [toReal, toReal, le_div_iff₀ (by norm_num)]
      linarith
    · have bits_nonpos := (toReal_le_iff x 0 0 (by norm_num)).mp nonpos
      have le_one := checkedExp_le_one x y bits_nonpos success
      have upper : x ≤ maxExpArg := by
        rw [Fixed.le_def, maxExpArg_bits]
        omega
      obtain ⟨y', success', y_nonneg, -⟩ := checkedExp_succeeds x upper
      obtain rfl := Except.ok.inj (success.symm.trans success')
      refine ⟨?_, (toReal_le_iff y (2 ^ 48) 1 (by norm_num)).mpr le_one⟩
      rw [toReal]
      exact div_nonneg (by exact_mod_cast y_nonneg) (by norm_num)
    · exact accurate_of_wellReduced x y reduced success
    · exact not_accurate_of_illReduced x y reduced success

theorem checkedExp_accuracy_minus_one :
    ∃ y, checkedExp ⟨-2 ^ 48, by decide, by decide⟩ = .ok y ∧
      Accurate ⟨-2 ^ 48, by decide, by decide⟩ y ∧ 0 ≤ y.toReal ∧ y.toReal ≤ 1 := by
  have success : checkedExp ⟨-2 ^ 48, by decide, by decide⟩ =
      .ok ⟨103548838310407, by decide, by decide⟩ := by decide +kernel
  obtain ⟨-, unit, accurate, -⟩ := (checkedExp_accuracy _).2 _ success
  refine ⟨_, success, accurate (Or.inr (Or.inr (by decide))), unit ?_⟩
  norm_num [toReal]

/-- At minus 0.35 the remainder is 1.036, and the result is off by more than a basis point. -/
theorem checkedExp_inaccurate_at_minus_035 :
    toReal ⟨-98516241848729, by decide, by decide⟩ ≤ 54.75 ∧
      checkedExp ⟨-98516241848729, by decide, by decide⟩ =
        .ok ⟨198331524828044, by decide, by decide⟩ ∧
      ¬ Accurate ⟨-98516241848729, by decide, by decide⟩
        ⟨198331524828044, by decide, by decide⟩ := by
  have success : checkedExp ⟨-98516241848729, by decide, by decide⟩ =
      .ok ⟨198331524828044, by decide, by decide⟩ := by decide +kernel
  refine ⟨by norm_num [toReal], success, not_accurate_of_illReduced _ _ ?_ success⟩
  exact ⟨by decide, by decide, by decide⟩

end IFixedPoint

end AutaraLending
