import AutaraLending.Exponential

/-! The exponential of a negative argument does not pass one. -/

namespace AutaraLending

open Support

namespace IFixedPoint

theorem expTerm_mono {r r' term term' : Int} {n : Nat} (positive : 0 < n) (base : 0 ≤ r)
    (nonneg : 0 ≤ term)
    (r_le : r ≤ r') (term_le : term ≤ term') : expTerm r term n ≤ expTerm r' term' n := by
  have product : r * term ≤ r' * term' := mul_le_mul r_le term_le nonneg (by omega)
  have product_nonneg : 0 ≤ r * term := mul_nonneg base nonneg
  have quotient : r * term / 2 ^ 48 ≤ r' * term' / 2 ^ 48 := Int.ediv_le_ediv (by norm_num) product
  unfold expTerm
  rw [Int.tdiv_eq_ediv_of_nonneg (by omega), Int.tdiv_eq_ediv_of_nonneg (by omega)]
  exact Int.ediv_le_ediv (by exact_mod_cast positive) quotient

theorem ExpSum.mono {r r' sum sum' : Int} (terms : ExpSum r sum) (terms' : ExpSum r' sum')
    (nonneg : 0 ≤ r) (r_le : r ≤ r') : sum ≤ sum' := by
  have second : terms.second ≤ terms'.second := by
    rw [terms.second_eq, terms'.second_eq]
    exact expTerm_mono (by norm_num) nonneg nonneg r_le r_le
  have second_nonneg : 0 ≤ terms.second := terms.second_eq ▸ expTerm_nonneg r r 2 nonneg nonneg
  have third : terms.third ≤ terms'.third := by
    rw [terms.third_eq, terms'.third_eq]
    exact expTerm_mono (by norm_num) nonneg second_nonneg r_le second
  have third_nonneg : 0 ≤ terms.third :=
    terms.third_eq ▸ expTerm_nonneg r _ 3 nonneg second_nonneg
  have fourth : terms.fourth ≤ terms'.fourth := by
    rw [terms.fourth_eq, terms'.fourth_eq]
    exact expTerm_mono (by norm_num) nonneg third_nonneg r_le third
  have fourth_nonneg : 0 ≤ terms.fourth :=
    terms.fourth_eq ▸ expTerm_nonneg r _ 4 nonneg third_nonneg
  have fifth : terms.fifth ≤ terms'.fifth := by
    rw [terms.fifth_eq, terms'.fifth_eq]
    exact expTerm_mono (by norm_num) nonneg fourth_nonneg r_le fourth
  have fifth_nonneg : 0 ≤ terms.fifth :=
    terms.fifth_eq ▸ expTerm_nonneg r _ 5 nonneg fourth_nonneg
  have sixth : terms.sixth ≤ terms'.sixth := by
    rw [terms.sixth_eq, terms'.sixth_eq]
    exact expTerm_mono (by norm_num) nonneg fifth_nonneg r_le fifth
  have sum_eq := terms.sum_eq
  have sum_eq' := terms'.sum_eq
  omega

def expSum (r : Int) : Int :=
  let second := expTerm r r 2
  let third := expTerm r second 3
  let fourth := expTerm r third 4
  let fifth := expTerm r fourth 5
  r + 2 ^ 48 + second + third + fourth + fifth + expTerm r fifth 6

def expSumTerms (r : Int) : ExpSum r (expSum r) where
  second := expTerm r r 2
  third := expTerm r (expTerm r r 2) 3
  fourth := expTerm r (expTerm r (expTerm r r 2) 3) 4
  fifth := expTerm r (expTerm r (expTerm r (expTerm r r 2) 3) 4) 5
  sixth := expTerm r (expTerm r (expTerm r (expTerm r (expTerm r r 2) 3) 4) 5) 6
  second_eq := rfl
  third_eq := rfl
  fourth_eq := rfl
  fifth_eq := rfl
  sixth_eq := rfl
  sum_eq := rfl

theorem checkedExp_le_one (x y : IFixedPoint) (nonpos : x.bits ≤ 0)
    (success : checkedExp x = .ok y) : y.bits ≤ 2 ^ 48 := by
  by_cases cut : x ≤ minExpArg
  · rw [checkedExp, if_pos cut, Except.ok.injEq] at success
    rw [← success]
    decide
  by_cases zero : x.bits = 0
  · obtain rfl : x = Fixed.zero := Fixed.ext_bits (zero.trans Fixed.zero_bits.symm)
    have at_zero : checkedExp Fixed.zero = .ok Fixed.one := by decide +kernel
    obtain rfl := Except.ok.inj (at_zero.symm.trans success)
    decide
  have upper : x ≤ maxExpArg := by
    rw [Fixed.le_def, maxExpArg_bits]
    omega
  have lower : minExpArg < x := by
    rw [Fixed.le_def] at cut
    rw [Fixed.lt_def]
    omega
  obtain ⟨parts⟩ := exp_parts x lower upper
  obtain ⟨-, y', success', y_eq⟩ := parts.exp_of_neg (by omega)
  obtain rfl := Except.ok.inj (success.symm.trans success')
  obtain ⟨q_neg, -, r_ge, r_lt⟩ := parts.of_neg (by omega)
  have r_eq := parts.r_eq
  rw [ln2_bits] at r_eq r_lt
  rw [ln2Div2_bits] at r_ge r_lt
  by_cases once : parts.q.toInt = -1
  · -- a single shift leaves a remainder below `ln 2`, whose sum is below two
    have below : parts.expR.bits ≤ 2 ^ 49 :=
      (parts.terms.mono (expSumTerms 195103586505167) (by omega) (by omega)).trans
        (by decide +kernel)
    rw [y_eq, once]
    norm_num
    omega
  · have below : parts.expR.bits ≤ 2 ^ 50 :=
      (parts.terms.mono (expSumTerms 292655379757750) (by omega) (by omega)).trans
        (by decide +kernel)
    have power : (2 : Int) ^ 2 ≤ 2 ^ parts.q.toInt.natAbs :=
      pow_le_pow_right₀ (by norm_num) (by omega)
    rw [y_eq]
    exact Int.ediv_le_of_le_mul (by positivity) (by linarith)

end IFixedPoint

end AutaraLending
