import AutaraLending.SafeMath

/-! The fixed-point exponential. The argument is split into a multiple of `ln 2`, which
becomes a shift, and a remainder, which goes through a Taylor polynomial. -/

namespace AutaraLending

open Support

namespace IFixedPoint

def fromI64 (num : Int64) : IFixedPoint where
  bits := num.toInt * 2 ^ 48
  lower := by
    have range := num.le_toInt
    rw [i80f48_minBits]
    omega
  upper := by
    have range := num.toInt_lt
    rw [i80f48_maxBits]
    omega

def minExpArg : IFixedPoint := fromI64U64Ratio (-3321) 100

def maxExpArg : IFixedPoint := fromI64U64Ratio 5475 100

def ln2 : IFixedPoint := fromI64U64Ratio 693147180559945309 1000000000000000000

def ln2Div2 : IFixedPoint := fromI64U64Ratio 693147180559945309 2000000000000000000

def negLn2Div2 : IFixedPoint := ⟨-ln2Div2.bits, by decide, by decide⟩

def expStep (fixed : IFixedPoint) (acc : IFixedPoint × IFixedPoint) (n : U64) :
    LendingResult (IFixedPoint × IFixedPoint) := do
  let product ← fixed.safeMul acc.1
  let term ← product.safeDivU64 n
  let expFixed ← acc.2.safeAdd term
  pure (term, expFixed)

def exp7Terms (fixed : IFixedPoint) : LendingResult IFixedPoint := do
  let expFixed ← fixed.safeAdd Fixed.one
  let last ← [2, 3, 4, 5, 6].foldlM (expStep fixed) (fixed, expFixed)
  pure last.2

def checkedExp (self : IFixedPoint) : LendingResult IFixedPoint :=
  if self ≤ minExpArg then .ok Fixed.zero
  else if maxExpArg < self then .error LendingError.invalidExpArg.into
  else do
    let rounding := if self.isNegative then negLn2Div2 else ln2Div2
    let shifted ← self.safeAdd rounding
    let quotient ← shifted.safeDiv ln2
    let q ← quotient.checkedToI32
    let multiple ← (fromI64 q.toInt64).safeMul ln2
    let r ← self.safeSub multiple
    let expR ← exp7Terms r
    okOr .mathOverflow (expR.checkedShift q.toInt)

theorem fromI64_bits (num : Int64) : (fromI64 num).bits = num.toInt * 2 ^ 48 := rfl
theorem minExpArg_bits : minExpArg.bits = -9347783976560885 := by decide
theorem maxExpArg_bits : maxExpArg.bits = 15410754974908416 := by decide
theorem ln2_bits : ln2.bits = 195103586505167 := by decide
theorem ln2Div2_bits : ln2Div2.bits = 97551793252583 := by decide
theorem negLn2Div2_bits : negLn2Div2.bits = -97551793252583 := by decide

def expTerm (r term : Int) (n : Nat) : Int := (r * term / 2 ^ 48).tdiv n

theorem expTerm_nonneg (r term : Int) (n : Nat) (base : 0 ≤ r) (nonneg : 0 ≤ term) :
    0 ≤ expTerm r term n := by
  have product : 0 ≤ r * term := mul_nonneg base nonneg
  exact Int.tdiv_nonneg (Int.ediv_nonneg product (by norm_num)) (by positivity)

theorem expTerm_bound (r term : Int) (n k : Nat) (small : r.natAbs ≤ k * 2 ^ 47) :
    2 * n * (expTerm r term n).natAbs ≤ k * term.natAbs + 2 := by
  have truncated : n * (expTerm r term n).natAbs ≤ (r * term / 2 ^ 48).natAbs := by
    unfold expTerm
    rw [Int.natAbs_tdiv, Int.natAbs_natCast]
    exact Nat.mul_div_le _ _
  have product : (r * term).natAbs ≤ k * term.natAbs * 2 ^ 47 := by
    rw [Int.natAbs_mul]
    calc
      r.natAbs * term.natAbs ≤ k * 2 ^ 47 * term.natAbs := Nat.mul_le_mul_right _ small
      _ = k * term.natAbs * 2 ^ 47 := by ring
  have halved : 2 * (r * term / 2 ^ 48).natAbs ≤ k * term.natAbs + 2 := by
    generalize r * term = p at product ⊢
    generalize k * term.natAbs = m at product ⊢
    omega
  calc
    2 * n * (expTerm r term n).natAbs = 2 * (n * (expTerm r term n).natAbs) := by ring
    _ ≤ 2 * (r * term / 2 ^ 48).natAbs := Nat.mul_le_mul_left 2 truncated
    _ ≤ k * term.natAbs + 2 := halved

theorem expStep_succeeds (fixed term expFixed : IFixedPoint) (n : U64) (count : Nat)
    (later : 2 ≤ n.toNat) (few : count ≤ 6) (small : fixed.bits.natAbs ≤ 3 * 2 ^ 47)
    (termBound : term.bits.natAbs ≤ 2 ^ 50) (sumBound : expFixed.bits.natAbs ≤ count * 2 ^ 50) :
    ∃ next total, expStep fixed (term, expFixed) n = .ok (next, total) ∧
      next.bits = expTerm fixed.bits term.bits n.toNat ∧
      total.bits = expFixed.bits + next.bits ∧ next.bits.natAbs ≤ 2 ^ 50 ∧
      total.bits.natAbs ≤ (count + 1) * 2 ^ 50 := by
  have whole : (fixed.bits * term.bits).natAbs ≤ 3 * 2 ^ 97 := by
    rw [Int.natAbs_mul]
    calc
      fixed.bits.natAbs * term.bits.natAbs ≤ 3 * 2 ^ 47 * 2 ^ 50 := Nat.mul_le_mul small termBound
      _ = 3 * 2 ^ 97 := by norm_num
  have shrinks : (expTerm fixed.bits term.bits n.toNat).natAbs ≤ 2 ^ 50 := by
    have bound := expTerm_bound fixed.bits term.bits n.toNat 3 small
    have factor : 4 * (expTerm fixed.bits term.bits n.toNat).natAbs ≤
        2 * n.toNat * (expTerm fixed.bits term.bits n.toNat).natAbs :=
      Nat.mul_le_mul_right _ (by omega)
    omega
  let product : IFixedPoint := ⟨fixed.bits * term.bits / 2 ^ 48, by rw [i80f48_minBits]; omega,
    by rw [i80f48_maxBits]; omega⟩
  let next : IFixedPoint := ⟨expTerm fixed.bits term.bits n.toNat, by rw [i80f48_minBits]; omega,
    by rw [i80f48_maxBits]; omega⟩
  let total : IFixedPoint := ⟨expFixed.bits + expTerm fixed.bits term.bits n.toNat,
    by rw [i80f48_minBits]; omega,
    by rw [i80f48_maxBits]; omega⟩
  have grown : total.bits.natAbs ≤ (count + 1) * 2 ^ 50 := by
    dsimp only [total]
    omega
  refine ⟨next, total, ?_, rfl, rfl, shrinks, grown⟩
  simp only [expStep, except_bind_ok, Fixed.safeMul_ok, Fixed.safeDivU64_ok, Fixed.safeAdd_ok,
    except_pure_ok, i80f48_frac]
  exact ⟨product, rfl, next, ⟨by omega, rfl⟩, total, rfl, rfl⟩

/-- The Taylor sum of a remainder, in units of the last place. -/
structure ExpSum (r sum : Int) where
  second : Int
  third : Int
  fourth : Int
  fifth : Int
  sixth : Int
  second_eq : second = expTerm r r 2
  third_eq : third = expTerm r second 3
  fourth_eq : fourth = expTerm r third 4
  fifth_eq : fifth = expTerm r fourth 5
  sixth_eq : sixth = expTerm r fifth 6
  sum_eq : sum = r + 2 ^ 48 + second + third + fourth + fifth + sixth

theorem exp7Terms_succeeds (r : IFixedPoint) (small : r.bits.natAbs ≤ 3 * 2 ^ 47) :
    ∃ y, exp7Terms r = .ok y ∧ Nonempty (ExpSum r.bits y.bits) := by
  let first : IFixedPoint := ⟨r.bits + 2 ^ 48, by rw [i80f48_minBits]; omega,
    by rw [i80f48_maxBits]; omega⟩
  have start : r.safeAdd Fixed.one = .ok first := (Fixed.safeAdd_ok _ _ _).mpr (by simp [first])
  have first_eq : first.bits = r.bits + 2 ^ 48 := rfl
  obtain ⟨t2, s2, step2, t2_eq, s2_eq, bound2, sum2⟩ :=
    expStep_succeeds r r first 2 1 (by decide) (by decide) small (by omega) (by omega)
  obtain ⟨t3, s3, step3, t3_eq, s3_eq, bound3, sum3⟩ :=
    expStep_succeeds r t2 s2 3 2 (by decide) (by decide) small bound2 sum2
  obtain ⟨t4, s4, step4, t4_eq, s4_eq, bound4, sum4⟩ :=
    expStep_succeeds r t3 s3 4 3 (by decide) (by decide) small bound3 sum3
  obtain ⟨t5, s5, step5, t5_eq, s5_eq, bound5, sum5⟩ :=
    expStep_succeeds r t4 s4 5 4 (by decide) (by decide) small bound4 sum4
  obtain ⟨t6, s6, step6, t6_eq, s6_eq, -, -⟩ :=
    expStep_succeeds r t5 s5 6 5 (by decide) (by decide) small bound5 sum5
  refine ⟨s6, ?_, ⟨t2.bits, t3.bits, t4.bits, t5.bits, t6.bits, t2_eq, t3_eq, t4_eq, t5_eq, t6_eq,
    by linarith⟩⟩
  simp only [exp7Terms, start, List.foldlM_cons, List.foldlM_nil, bind, Except.bind, step2, step3,
    step4, step5, step6, pure, Except.pure]

theorem ExpSum.near {r sum : Int} (terms : ExpSum r sum) (small : r.natAbs ≤ 2 ^ 47) :
    3 * (sum - (2 ^ 48 + r)).natAbs ≤ r.natAbs + 24 := by
  have second := expTerm_bound r r 2 1 (by omega)
  have third := expTerm_bound r terms.second 3 1 (by omega)
  have fourth := expTerm_bound r terms.third 4 1 (by omega)
  have fifth := expTerm_bound r terms.fourth 5 1 (by omega)
  have sixth := expTerm_bound r terms.fifth 6 1 (by omega)
  rw [← terms.second_eq] at second
  rw [← terms.third_eq] at third
  rw [← terms.fourth_eq] at fourth
  rw [← terms.fifth_eq] at fifth
  rw [← terms.sixth_eq] at sixth
  have higher : sum - (2 ^ 48 + r) =
      terms.second + (terms.third + (terms.fourth + (terms.fifth + terms.sixth))) := by
    have sum_eq := terms.sum_eq
    omega
  have spread : (sum - (2 ^ 48 + r)).natAbs ≤ terms.second.natAbs + (terms.third.natAbs +
      (terms.fourth.natAbs + (terms.fifth.natAbs + terms.sixth.natAbs))) := by
    rw [higher]
    apply le_trans (Int.natAbs_add_le _ _)
    apply Nat.add_le_add_left
    apply le_trans (Int.natAbs_add_le _ _)
    apply Nat.add_le_add_left
    apply le_trans (Int.natAbs_add_le _ _)
    apply Nat.add_le_add_left
    exact Int.natAbs_add_le _ _
  -- from here on the absolute values are just numbers
  generalize (sum - (2 ^ 48 + r)).natAbs = rest at *
  generalize terms.second.natAbs = a at *
  generalize terms.third.natAbs = b at *
  generalize terms.fourth.natAbs = c at *
  generalize terms.fifth.natAbs = d at *
  generalize terms.sixth.natAbs = e at *
  omega

theorem ExpSum.ge_of_nonneg {r sum : Int} (terms : ExpSum r sum) (nonneg : 0 ≤ r) :
    2 ^ 48 + r ≤ sum := by
  have second : 0 ≤ terms.second := terms.second_eq ▸ expTerm_nonneg r r 2 nonneg nonneg
  have third : 0 ≤ terms.third := terms.third_eq ▸ expTerm_nonneg r _ 3 nonneg second
  have fourth : 0 ≤ terms.fourth := terms.fourth_eq ▸ expTerm_nonneg r _ 4 nonneg third
  have fifth : 0 ≤ terms.fifth := terms.fifth_eq ▸ expTerm_nonneg r _ 5 nonneg fourth
  have sixth : 0 ≤ terms.sixth := terms.sixth_eq ▸ expTerm_nonneg r _ 6 nonneg fifth
  have sum_eq := terms.sum_eq
  omega

theorem checkedToI32_succeeds (a : IFixedPoint) (lower : -2 ^ 31 ≤ a.floor)
    (upper : a.floor < 2 ^ 31) : ∃ q, a.checkedToI32 = .ok q ∧ q.toInt = a.floor := by
  refine ⟨Int32.ofInt a.floor, ?_, Int32.toInt_ofInt_of_le lower upper⟩
  simp only [Fixed.checkedToI32, if_pos (And.intro lower upper), okOr_ok]

theorem checkedShift_left (a : IFixedPoint) (shift : Int) (nonneg : 0 ≤ shift) (small : shift < 128)
    (lower : -2 ^ 127 ≤ a.bits * 2 ^ shift.natAbs) (upper : a.bits * 2 ^ shift.natAbs < 2 ^ 127) :
    ∃ y, a.checkedShift shift = some y ∧ y.bits = a.bits * 2 ^ shift.natAbs := by
  let shifted : IFixedPoint := ⟨a.bits * 2 ^ shift.natAbs, by rw [i80f48_minBits]; omega,
    by rw [i80f48_maxBits]; omega⟩
  have width : shift.natAbs < i80f48.width := by
    rw [i80f48_width]
    omega
  have left : a.checkedShl shift.natAbs = some shifted := by
    rw [Fixed.checkedShl, if_pos width, Fixed.fromBits_some]
    exact Fixed.wrap_of_range _ shifted.lower shifted.upper
  have back : shifted.checkedShr shift.natAbs = some a := by
    rw [Fixed.checkedShr, if_pos width, Fixed.fromBits_some]
    exact Int.mul_ediv_cancel _ (by positivity)
  refine ⟨shifted, ?_, rfl⟩
  simp only [Fixed.checkedShift, if_neg (not_lt.mpr nonneg), left, Option.bind_eq_bind,
    Option.bind_some, back, ne_eq, not_true_eq_false, if_false]

theorem checkedShift_right (a : IFixedPoint) (shift : Int) (negative : shift < 0)
    (small : -128 < shift) (nonneg : 0 ≤ a.bits) :
    ∃ y, a.checkedShift shift = some y ∧ y.bits = a.bits / 2 ^ shift.natAbs := by
  have upper := a.bits_lt
  have width : shift.natAbs < i80f48.width := by
    rw [i80f48_width]
    omega
  have quotient_nonneg : 0 ≤ a.bits / 2 ^ shift.natAbs := Int.ediv_nonneg nonneg (by positivity)
  have quotient_le : a.bits / 2 ^ shift.natAbs ≤ a.bits := Int.ediv_le_self _ nonneg
  let shifted : IFixedPoint := ⟨a.bits / 2 ^ shift.natAbs, by rw [i80f48_minBits]; omega,
    by rw [i80f48_maxBits]; omega⟩
  refine ⟨shifted, ?_, rfl⟩
  rw [Fixed.checkedShift, if_pos negative, Fixed.checkedShr, if_pos width, Fixed.fromBits_some]

theorem exp_quotient (sum : Int) (lower : -10 ^ 16 ≤ sum) (upper : sum ≤ 2 * 10 ^ 16) :
    (sum * 2 ^ 48).tdiv ln2.bits / 2 ^ 48 * ln2.bits ≤ sum ∧
      sum < ((sum * 2 ^ 48).tdiv ln2.bits / 2 ^ 48 + 1) * ln2.bits := by
  rw [ln2_bits]
  by_cases sign : 0 ≤ sum
  · rw [Int.tdiv_eq_ediv_of_nonneg (by omega)]
    omega
  · -- Truncation rounds a negative quotient up, but by less than the floor takes back.
    have flipped : (sum * 2 ^ 48).tdiv 195103586505167 = -((-sum * 2 ^ 48) / 195103586505167) := by
      rw [← Int.tdiv_eq_ediv_of_nonneg (by omega), ← Int.neg_tdiv]
      congr 1
      ring
    rw [flipped]
    omega

structure ExpSplit (x : IFixedPoint) where
  q : Int32
  r : IFixedPoint
  exp_ok : ∀ y, checkedExp x = .ok y ↔
    ∃ expR, exp7Terms r = .ok expR ∧ expR.checkedShift q.toInt = some y
  r_eq : r.bits = x.bits - q.toInt * ln2.bits
  of_nonneg : 0 ≤ x.bits → 0 ≤ q.toInt ∧ q.toInt ≤ 79 ∧
    -ln2Div2.bits ≤ r.bits ∧ r.bits < ln2.bits - ln2Div2.bits
  of_neg : x.bits < 0 → q.toInt < 0 ∧ -50 < q.toInt ∧
    ln2Div2.bits ≤ r.bits ∧ r.bits < ln2.bits + ln2Div2.bits

theorem exp_split (x : IFixedPoint) (lower : minExpArg < x) (upper : x ≤ maxExpArg) :
    Nonempty (ExpSplit x) := by
  have min := minExpArg_bits
  have max := maxExpArg_bits
  have least : minExpArg.bits < x.bits := lower
  have greatest : x.bits ≤ maxExpArg.bits := upper
  have half := ln2Div2_bits
  have negHalf := negLn2Div2_bits
  have unit := ln2_bits
  let rounding := if x.isNegative then negLn2Div2 else ln2Div2
  have rounding_eq : (0 ≤ x.bits ∧ rounding.bits = ln2Div2.bits) ∨
      (x.bits < 0 ∧ rounding.bits = -ln2Div2.bits) := by
    by_cases sign : x.bits < 0
    · right
      refine ⟨sign, ?_⟩
      simp only [rounding, (Fixed.isNegative_iff x).mpr sign, if_true]
      omega
    · left
      refine ⟨by omega, ?_⟩
      simp only [rounding, (Fixed.isNegative_iff x).not.mpr sign, Bool.false_eq_true, if_false]
  let shifted : IFixedPoint := ⟨x.bits + rounding.bits, by rw [i80f48_minBits]; omega,
    by rw [i80f48_maxBits]; omega⟩
  have sum_ge : -10 ^ 16 ≤ shifted.bits := by
    dsimp only [shifted]
    omega
  have sum_le : shifted.bits ≤ 2 * 10 ^ 16 := by
    dsimp only [shifted]
    omega
  have division := exp_quotient shifted.bits sum_ge sum_le
  rw [unit] at division
  let quotient : IFixedPoint := ⟨(shifted.bits * 2 ^ 48).tdiv ln2.bits,
    by rw [i80f48_minBits, unit]; omega, by rw [i80f48_maxBits, unit]; omega⟩
  obtain ⟨q, converted, q_eq⟩ := checkedToI32_succeeds quotient
    (by dsimp only [Fixed.floor, quotient, i80f48_frac]; rw [unit]; omega)
    (by dsimp only [Fixed.floor, quotient, i80f48_frac]; rw [unit]; omega)
  have q_eq : q.toInt = (shifted.bits * 2 ^ 48).tdiv ln2.bits / 2 ^ 48 := q_eq
  rw [unit] at q_eq
  rw [← q_eq] at division
  have product : q.toInt * ln2.bits = q.toInt * 195103586505167 := by rw [unit]
  have shifted_eq : shifted.bits = x.bits + rounding.bits := rfl
  let multiple : IFixedPoint := ⟨q.toInt * ln2.bits, by rw [i80f48_minBits]; omega,
    by rw [i80f48_maxBits]; omega⟩
  let r : IFixedPoint := ⟨x.bits - q.toInt * ln2.bits, by rw [i80f48_minBits]; omega,
    by rw [i80f48_maxBits]; omega⟩
  refine ⟨⟨q, r, ?_, rfl, ?_, ?_⟩⟩
  · intro y
    have added : x.safeAdd rounding = .ok shifted := (Fixed.safeAdd_ok _ _ _).mpr rfl
    have divided : shifted.safeDiv ln2 = .ok quotient :=
      (Fixed.safeDiv_ok _ _ _).mpr ⟨by omega, rfl⟩
    have multiplied : (fromI64 q.toInt64).safeMul ln2 = .ok multiple := by
      rw [Fixed.safeMul_ok, fromI64_bits, Int32.toInt_toInt64, i80f48_frac]
      dsimp only [multiple]
      rw [unit]
      omega
    have subtracted : x.safeSub multiple = .ok r := (Fixed.safeSub_ok _ _ _).mpr rfl
    have above : ¬ x ≤ minExpArg := by
      rw [Fixed.le_def]
      omega
    have below : ¬ maxExpArg < x := by
      rw [Fixed.lt_def]
      omega
    simp only [checkedExp, if_neg above, if_neg below, except_bind_ok, okOr_ok]
    constructor
    · rintro ⟨_, e1, _, e2, _, e3, _, e4, _, e5, expR, sum, shift⟩
      obtain rfl := Except.ok.inj (added.symm.trans e1)
      obtain rfl := Except.ok.inj (divided.symm.trans e2)
      obtain rfl := Except.ok.inj (converted.symm.trans e3)
      obtain rfl := Except.ok.inj (multiplied.symm.trans e4)
      obtain rfl := Except.ok.inj (subtracted.symm.trans e5)
      exact ⟨expR, sum, shift⟩
    · rintro ⟨expR, sum, shift⟩
      exact ⟨shifted, added, quotient, divided, q, converted, multiple, multiplied, r, subtracted,
        expR, sum, shift⟩
  · intro nonneg
    dsimp only [r]
    omega
  · intro negative
    dsimp only [r]
    omega

structure ExpParts (x : IFixedPoint) extends ExpSplit x where
  expR : IFixedPoint
  terms : ExpSum r.bits expR.bits
  summed : exp7Terms r = .ok expR

theorem exp_parts (x : IFixedPoint) (lower : minExpArg < x) (upper : x ≤ maxExpArg) :
    Nonempty (ExpParts x) := by
  obtain ⟨split⟩ := exp_split x lower upper
  have half := ln2Div2_bits
  have unit := ln2_bits
  have small : split.r.bits.natAbs ≤ 3 * 2 ^ 47 := by
    rcases le_or_gt 0 x.bits with nonneg | negative
    · have range := split.of_nonneg nonneg
      omega
    · have range := split.of_neg negative
      omega
  obtain ⟨expR, sum, ⟨terms⟩⟩ := exp7Terms_succeeds split.r small
  exact ⟨⟨split, expR, terms, sum⟩⟩

theorem ExpParts.exp_of_nonneg {x : IFixedPoint} (parts : ExpParts x) (nonneg : 0 ≤ x.bits)
    (upper : x ≤ maxExpArg) :
    2 ^ 47 ≤ parts.expR.bits ∧ ∃ y, checkedExp x = .ok y ∧
      y.bits = parts.expR.bits * 2 ^ parts.q.toInt.natAbs := by
  have greatest : x.bits ≤ maxExpArg.bits := upper
  obtain ⟨q_nonneg, q_le, r_ge, r_lt⟩ := parts.of_nonneg nonneg
  have r_eq := parts.r_eq
  rw [ln2_bits] at r_eq r_lt
  rw [ln2Div2_bits] at r_ge r_lt
  rw [maxExpArg_bits] at greatest
  have near := parts.terms.near (by omega)
  have positive : 2 ^ 47 ≤ parts.expR.bits := by omega
  have fits : parts.expR.bits * 2 ^ parts.q.toInt.natAbs < 2 ^ 127 := by
    by_cases top : parts.q.toInt = 79
    · -- The largest shift only occurs with a negative remainder.
      have below : parts.expR.bits < 2 ^ 48 := by omega
      rw [top]
      norm_num
      omega
    · have power : (2 : Int) ^ parts.q.toInt.natAbs ≤ 2 ^ 78 :=
        pow_le_pow_right₀ (by norm_num) (by omega)
      calc
        parts.expR.bits * 2 ^ parts.q.toInt.natAbs ≤ parts.expR.bits * 2 ^ 78 :=
          Int.mul_le_mul_of_nonneg_left power (by omega)
        _ < 2 ^ 127 := by omega
  have shifted_nonneg : 0 ≤ parts.expR.bits * 2 ^ parts.q.toInt.natAbs :=
    mul_nonneg (by omega) (by positivity)
  obtain ⟨y, shift, y_eq⟩ := checkedShift_left parts.expR parts.q.toInt q_nonneg (by omega)
    (le_trans (by norm_num) shifted_nonneg) fits
  exact ⟨positive, y, (parts.exp_ok y).mpr ⟨parts.expR, parts.summed, shift⟩, y_eq⟩

theorem ExpParts.exp_of_neg {x : IFixedPoint} (parts : ExpParts x) (negative : x.bits < 0) :
    2 ^ 48 ≤ parts.expR.bits ∧ ∃ y, checkedExp x = .ok y ∧
      y.bits = parts.expR.bits / 2 ^ parts.q.toInt.natAbs := by
  obtain ⟨q_neg, q_gt, r_ge, -⟩ := parts.of_neg negative
  rw [ln2Div2_bits] at r_ge
  have sum_ge := parts.terms.ge_of_nonneg (by omega)
  obtain ⟨y, shift, y_eq⟩ := checkedShift_right parts.expR parts.q.toInt q_neg (by omega)
    (by omega)
  exact ⟨by omega, y, (parts.exp_ok y).mpr ⟨parts.expR, parts.summed, shift⟩, y_eq⟩

theorem checkedExp_of_nonneg (x : IFixedPoint) (nonneg : 0 ≤ x.bits) (upper : x ≤ maxExpArg) :
    ∃ y, checkedExp x = .ok y ∧ 2 ^ 48 ≤ y.bits := by
  have lower : minExpArg < x := by
    rw [Fixed.lt_def, minExpArg_bits]
    omega
  obtain ⟨parts⟩ := exp_parts x lower upper
  obtain ⟨positive, y, success, y_eq⟩ := parts.exp_of_nonneg nonneg upper
  refine ⟨y, success, ?_⟩
  rw [y_eq]
  by_cases none : parts.q.toInt = 0
  · have r_eq := parts.r_eq
    rw [none, zero_mul] at r_eq
    have sum_ge := parts.terms.ge_of_nonneg (by omega)
    rw [none]
    norm_num
    omega
  · have power : (2 : Int) ^ 1 ≤ 2 ^ parts.q.toInt.natAbs :=
      pow_le_pow_right₀ (by norm_num) (by omega)
    calc
      (2 : Int) ^ 48 = 2 ^ 47 * 2 ^ 1 := by norm_num
      _ ≤ parts.expR.bits * 2 ^ parts.q.toInt.natAbs :=
        Int.mul_le_mul positive power (by norm_num) (by omega)

theorem checkedExp_of_neg (x : IFixedPoint) (negative : x.bits < 0) :
    ∃ y, checkedExp x = .ok y ∧ 0 ≤ y.bits := by
  by_cases cut : x ≤ minExpArg
  · exact ⟨Fixed.zero, by rw [checkedExp, if_pos cut], by simp⟩
  · have lower : minExpArg < x := by
      rw [Fixed.le_def] at cut
      rw [Fixed.lt_def]
      omega
    have upper : x ≤ maxExpArg := by
      rw [Fixed.le_def, maxExpArg_bits]
      omega
    obtain ⟨parts⟩ := exp_parts x lower upper
    obtain ⟨large, y, success, y_eq⟩ := parts.exp_of_neg negative
    refine ⟨y, success, ?_⟩
    rw [y_eq]
    exact Int.ediv_nonneg (by omega) (by positivity)

theorem checkedExp_succeeds (x : IFixedPoint) (upper : x ≤ maxExpArg) :
    ∃ y, checkedExp x = .ok y ∧ 0 ≤ y.bits ∧ (0 ≤ x.bits → 2 ^ 48 ≤ y.bits) := by
  by_cases sign : 0 ≤ x.bits
  · obtain ⟨y, success, large⟩ := checkedExp_of_nonneg x sign upper
    exact ⟨y, success, le_trans (by norm_num) large, fun _ => large⟩
  · obtain ⟨y, success, nonneg⟩ := checkedExp_of_neg x (by omega)
    exact ⟨y, success, nonneg, fun contrary => absurd contrary sign⟩

theorem checkedExp_above (x : IFixedPoint) (above : maxExpArg < x) :
    checkedExp x = .error LendingError.invalidExpArg.into := by
  have notCut : ¬ x ≤ minExpArg := by
    rw [Fixed.lt_def, maxExpArg_bits] at above
    rw [Fixed.le_def, minExpArg_bits]
    omega
  rw [checkedExp, if_neg notCut, if_pos above]

theorem le_maxExpArg_of_checkedExp {x y : IFixedPoint} (success : checkedExp x = .ok y) :
    x ≤ maxExpArg := by
  by_contra above
  rw [Fixed.le_def, not_le] at above
  rw [checkedExp_above x above] at success
  cases success

end IFixedPoint

end AutaraLending
