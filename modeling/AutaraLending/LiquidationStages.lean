import AutaraLending.LiquidationBounds
import AutaraLending.LimitChecks
import AutaraLending.RiskParameters

/-! The stages of the computation of a liquidation, one at a time: when each goes through, and what
it returns in exact numbers. -/

namespace AutaraLending

open Support

/-! Products and quotients in exact numbers: each is cut by less than one unit in the last place. -/

namespace IFixedPoint

theorem safeAdd_rat {a b c : IFixedPoint} (success : a.safeAdd b = .ok c) :
    c.toRat = a.toRat + b.toRat := by
  rw [Fixed.toRat, Fixed.toRat, Fixed.toRat, ← (Fixed.safeAdd_ok _ _ _).mp success]
  push_cast
  ring

theorem safeSub_rat {a b c : IFixedPoint} (success : a.safeSub b = .ok c) :
    c.toRat = a.toRat - b.toRat := by
  rw [Fixed.toRat, Fixed.toRat, Fixed.toRat, ← (Fixed.safeSub_ok _ _ _).mp success]
  push_cast
  ring

theorem safeMul_rat {a b c : IFixedPoint} (success : a.safeMul b = .ok c) :
    c.toRat ≤ a.toRat * b.toRat ∧ a.toRat * b.toRat < c.toRat + 1 / 2 ^ 48 := by
  obtain ⟨below, above⟩ := ediv_rat_bounds (a.bits * b.bits) (2 ^ 48) (by norm_num)
  have product := (Fixed.safeMul_ok _ _ _).mp success
  rw [i80f48_frac] at product
  rw [product, Int.cast_mul, Int.cast_pow, Int.cast_ofNat] at below above
  have exact_product : a.toRat * b.toRat = a.bits * b.bits / 2 ^ 48 / 2 ^ 48 := by
    rw [Fixed.toRat, Fixed.toRat, i80f48_frac]
    ring
  rw [exact_product, Fixed.toRat, i80f48_frac, ← add_div]
  constructor
  · gcongr
  · gcongr

theorem safeDiv_rat {a b c : IFixedPoint} (nonneg : 0 ≤ a.bits) (positive : 0 < b.bits)
    (success : a.safeDiv b = .ok c) :
    c.toRat * b.toRat ≤ a.toRat ∧ a.toRat < (c.toRat + 1 / 2 ^ 48) * b.toRat := by
  refine ⟨?_, lt_next_mul _ _ _ nonneg positive.le success⟩
  obtain ⟨-, quotient⟩ := (Fixed.safeDiv_ok _ _ _).mp success
  rw [i80f48_frac, Int.tdiv_eq_ediv_of_nonneg (by positivity)] at quotient
  have below := Int.ediv_mul_le (a.bits * 2 ^ 48) positive.ne'
  rw [quotient] at below
  have below_rat : (c.bits * b.bits : ℚ) ≤ a.bits * 2 ^ 48 := by exact_mod_cast below
  rw [Fixed.toRat, Fixed.toRat, Fixed.toRat, i80f48_frac, div_mul_div_comm, div_le_div_iff₀
    (by positivity) (by positivity)]
  linarith

theorem lt_next_iff {a b : IFixedPoint} : a.toRat < b.toRat + 1 / 2 ^ 48 ↔ a.bits ≤ b.bits := by
  rw [Fixed.toRat, Fixed.toRat, i80f48_frac, ← add_div,
    div_lt_div_iff_of_pos_right (by positivity : (0 : ℚ) < 2 ^ 48)]
  exact_mod_cast Int.lt_add_one_iff

end IFixedPoint

/-- A number on the grid as whole atoms, rounded up unless that would pass the greatest `u64`. -/
def roundedUp (bits : Int) : Int :=
  if bits % 2 ^ 48 = 0 then bits / 2 ^ 48 else min (bits / 2 ^ 48 + 1) (2 ^ 64 - 1)

namespace OracleRate

variable (self : OracleRate) {value : IFixedPoint} {decimals : UInt8}

theorem collateralAtoms_down_iff (small : decimals.toNat ≤ 18) (nonneg : 0 ≤ value.bits)
    (atoms : U64) :
    (∃ seized, self.collateralAtoms value decimals = .ok seized ∧
        seized.asU64RoundedDown = .ok atoms) ↔
      value.bits * 10 ^ decimals.toNat < 2 ^ 127 ∧
        (atoms.toNat : Int) = value.bits * 10 ^ decimals.toNat / self.lower := by
  have positive := self.lower_pos
  have range := atoms.toNat_lt
  have scaled_nonneg : 0 ≤ value.bits * 10 ^ decimals.toNat := by positivity
  have nested : value.bits * 10 ^ decimals.toNat * 2 ^ 48 / self.lower / 2 ^ 48 =
      value.bits * 10 ^ decimals.toNat / self.lower := by
    rw [Int.ediv_ediv_of_nonneg positive.le]
    exact Int.mul_ediv_mul_of_pos_left _ _ (by norm_num)
  have quotient_nonneg : 0 ≤ value.bits * 10 ^ decimals.toNat * 2 ^ 48 / self.lower :=
    Int.ediv_nonneg (by omega) positive.le
  simp only [collateralAtoms_ok, Fixed.asU64RoundedDown_ok, Fixed.floor, i80f48_frac]
  rw [Int.tdiv_eq_ediv_of_nonneg (by omega)]
  constructor
  · rintro ⟨seized, ⟨-, ⟨-, fits⟩, seized_eq⟩, down⟩
    exact ⟨fits, by rw [← nested, ← seized_eq, down]⟩
  · rintro ⟨fits, atoms_eq⟩
    rw [← nested] at atoms_eq
    obtain ⟨seized, seized_eq⟩ := IFixedPoint.exists_bits
      (value.bits * 10 ^ decimals.toNat * 2 ^ 48 / self.lower) (by omega) (by omega)
    exact ⟨seized, ⟨small, ⟨by omega, fits⟩, seized_eq⟩, by rw [seized_eq, atoms_eq]⟩

theorem borrowAtoms_up_iff (upper_lt : self.upper < 2 ^ 127) (small : decimals.toNat ≤ 18)
    (nonneg : 0 ≤ value.bits) (atoms : U64) :
    (∃ repayment, self.borrowAtoms value decimals = .ok repayment ∧
        repayment.asU64RoundedUp = .ok atoms) ↔
      value.bits * 10 ^ decimals.toNat < 2 ^ 127 ∧
        value.bits * 10 ^ decimals.toNat * 2 ^ 48 / self.upper < 2 ^ 112 ∧
        (atoms.toNat : Int) =
          roundedUp (value.bits * 10 ^ decimals.toNat * 2 ^ 48 / self.upper) := by
  have positive := self.upper_pos
  have scaled_nonneg : 0 ≤ value.bits * 10 ^ decimals.toNat := by positivity
  have quotient_nonneg : 0 ≤ value.bits * 10 ^ decimals.toNat * 2 ^ 48 / self.upper :=
    Int.ediv_nonneg (by omega) positive.le
  simp only [borrowAtoms_ok, Fixed.asU64RoundedUp_ok, Fixed.floor, i80f48_frac, roundedUp]
  rw [Int.tdiv_eq_ediv_of_nonneg (by omega)]
  constructor
  · rintro ⟨repayment, ⟨-, -, ⟨-, fits⟩, repayment_eq⟩, -, limit, atoms_eq⟩
    rw [← repayment_eq]
    exact ⟨fits, by omega, atoms_eq⟩
  · rintro ⟨fits, limit, atoms_eq⟩
    obtain ⟨repayment, repayment_eq⟩ := IFixedPoint.exists_bits
      (value.bits * 10 ^ decimals.toNat * 2 ^ 48 / self.upper) (by omega) (by omega)
    rw [← repayment_eq] at limit atoms_eq
    exact ⟨repayment, ⟨upper_lt, small, ⟨by omega, fits⟩, repayment_eq⟩, by omega, by omega,
      atoms_eq⟩

end OracleRate

/-! The terms of a liquidation. -/

structure LtvConfig.Terms (ltv : LtvConfig) where
  onePlus : IFixedPoint
  adjusted : IFixedPoint
  margin : IFixedPoint
  onePlus_ok : (Fixed.one : IFixedPoint).safeAdd ltv.liquidationBonus = .ok onePlus
  adjusted_ok : ltv.targetLtvAfterLiquidation.safeMul onePlus = .ok adjusted
  margin_ok : (Fixed.one : IFixedPoint).safeSub adjusted = .ok margin
  target_nonneg : 0 ≤ ltv.targetLtvAfterLiquidation.bits
  bonus_nonneg : 0 ≤ ltv.liquidationBonus.bits
  margin_pos : 0 < margin.bits

theorem LtvConfig.exists_terms (ltv : LtvConfig) (sound : ltv.Sound) (covered : ltv.BonusCovered) :
    Nonempty ltv.Terms := by
  obtain ⟨margin, margin_ok, margin_pos⟩ := ltv.liquidationDivisor_pos sound covered
  simp only [liquidationDivisor, except_bind_ok] at margin_ok
  obtain ⟨onePlus, onePlus_ok, adjusted, adjusted_ok, margin_ok⟩ := margin_ok
  have target_nonneg : 0 ≤ ltv.targetLtvAfterLiquidation.bits := by
    rw [targetLtvAfterLiquidation_bits ltv sound]
    exact le_max_of_le_right sound.maxLtv_nonneg
  have bonus_nonneg : 0 ≤ ltv.liquidationBonus.bits := le_trans (by decide) sound.bonus_ge
  exact ⟨{ onePlus, adjusted, margin, onePlus_ok, adjusted_ok, margin_ok, target_nonneg,
           bonus_nonneg, margin_pos }⟩

namespace LtvConfig.Terms

variable {ltv : LtvConfig} (terms : ltv.Terms)

theorem onePlus_bits : terms.onePlus.bits = 2 ^ 48 + ltv.liquidationBonus.bits := by
  rw [← (Fixed.safeAdd_ok _ _ _).mp terms.onePlus_ok, Fixed.one_bits, i80f48_frac]

theorem onePlus_rat : terms.onePlus.toRat = 1 + ltv.liquidationBonus.toRat := by
  rw [IFixedPoint.safeAdd_rat terms.onePlus_ok, Fixed.toRat, Fixed.one_bits, i80f48_frac]
  norm_num

theorem margin_rat : terms.margin.toRat = 1 - terms.adjusted.toRat := by
  rw [IFixedPoint.safeSub_rat terms.margin_ok, Fixed.toRat, Fixed.one_bits, i80f48_frac]
  norm_num

theorem adjusted_nonneg : 0 ≤ terms.adjusted.bits := by
  rw [← (Fixed.safeMul_ok _ _ _).mp terms.adjusted_ok]
  have bonus_nonneg := terms.bonus_nonneg
  exact Int.ediv_nonneg (mul_nonneg terms.target_nonneg (by rw [onePlus_bits]; omega))
    (by positivity)

theorem adjusted_rat :
    terms.adjusted.toRat ≤
        ltv.targetLtvAfterLiquidation.toRat * (1 + ltv.liquidationBonus.toRat) ∧
      ltv.targetLtvAfterLiquidation.toRat * (1 + ltv.liquidationBonus.toRat) <
        terms.adjusted.toRat + 1 / 2 ^ 48 := by
  have bounds := IFixedPoint.safeMul_rat terms.adjusted_ok
  rw [onePlus_rat] at bounds
  exact bounds

end LtvConfig.Terms

def LtvConfig.withoutBonus (ltv : LtvConfig) (atoms : U64) : Int :=
  atoms.toNat * 2 ^ 48 / (2 ^ 48 + ltv.liquidationBonus.bits)

theorem LtvConfig.Terms.adjustedCollateral {ltv : LtvConfig} (terms : ltv.Terms) (atoms : U64) :
    ∃ quotient adjusted, atoms.safeDivIFixed terms.onePlus = .ok quotient ∧
      quotient.asU64RoundedDown = .ok adjusted ∧
      (adjusted.toNat : Int) = ltv.withoutBonus atoms ∧
      (1 + ltv.liquidationBonus.toRat) * adjusted.toNat ≤ atoms.toNat := by
  have bonus_nonneg := terms.bonus_nonneg
  have range := atoms.toNat_lt
  have onePlus_pos : 0 < terms.onePlus.bits := by
    rw [terms.onePlus_bits]
    omega
  have below := Int.ediv_mul_le (atoms.toNat * 2 ^ 48) onePlus_pos.ne'
  have nested : (atoms.toNat * 2 ^ 48 * 2 ^ 48 : Int) / terms.onePlus.bits / 2 ^ 48 =
      atoms.toNat * 2 ^ 48 / terms.onePlus.bits := by
    rw [Int.ediv_ediv_of_nonneg onePlus_pos.le]
    exact Int.mul_ediv_mul_of_pos_left _ _ (by norm_num)
  have dividend_nonneg : (0 : Int) ≤ atoms.toNat * 2 ^ 48 * 2 ^ 48 := by omega
  have quotient_nonneg : 0 ≤ (atoms.toNat * 2 ^ 48 * 2 ^ 48 : Int) / terms.onePlus.bits :=
    Int.ediv_nonneg dividend_nonneg onePlus_pos.le
  have less : (atoms.toNat * 2 ^ 48 : Int) / terms.onePlus.bits ≤ atoms.toNat := by
    apply Int.ediv_le_of_le_mul onePlus_pos
    rw [terms.onePlus_bits]
    gcongr
    omega
  rw [← nested] at less
  obtain ⟨quotient, quotient_eq⟩ := IFixedPoint.exists_bits
    (atoms.toNat * 2 ^ 48 * 2 ^ 48 / terms.onePlus.bits) (by omega) (by omega)
  have cast : (UInt64.ofNat quotient.floor.toNat).toNat = quotient.floor.toNat := by
    apply U64.toNat_ofNat
    rw [Fixed.floor, i80f48_frac, quotient_eq]
    omega
  have floor_eq : quotient.floor = ltv.withoutBonus atoms := by
    rw [Fixed.floor, i80f48_frac, quotient_eq, nested, terms.onePlus_bits, LtvConfig.withoutBonus]
  have adjusted_eq : ((UInt64.ofNat quotient.floor.toNat).toNat : Int) = quotient.floor := by
    rw [cast, Fixed.floor, i80f48_frac, quotient_eq]
    omega
  refine ⟨quotient, UInt64.ofNat quotient.floor.toNat, ?_, ?_, adjusted_eq.trans floor_eq, ?_⟩
  · rw [U64.safeDivIFixed, mapErr_ok, Fixed.safeDiv_ok, Fixed.fromU64_bits, i80f48_frac,
      Int.tdiv_eq_ediv_of_nonneg dividend_nonneg]
    exact ⟨onePlus_pos.ne', quotient_eq.symm⟩
  · exact (Fixed.asU64RoundedDown_ok _ _).mpr adjusted_eq.symm
  · rw [← nested, ← quotient_eq, ← i80f48_frac, ← Fixed.floor, ← adjusted_eq,
      terms.onePlus_bits] at below
    have below_rat : ((UInt64.ofNat quotient.floor.toNat).toNat *
        (2 ^ 48 + ltv.liquidationBonus.bits) : ℚ) ≤ atoms.toNat * 2 ^ 48 := by
      exact_mod_cast below
    rw [Fixed.toRat, i80f48_frac, ← mul_le_mul_iff_left₀ (by positivity : (0 : ℚ) < 2 ^ 48)]
    calc
      _ = ((UInt64.ofNat quotient.floor.toNat).toNat *
        (2 ^ 48 + ltv.liquidationBonus.bits) : ℚ) := by ring
      _ ≤ _ := below_rat

theorem valueToLiquidate_bounds {borrowedAtoms collateralAtoms : U64}
    {borrowDecimals collateralDecimals : UInt8} {supplyOracle collateralOracle : OracleRate}
    {borrowValue collateralValue newLtv margin value : IFixedPoint}
    (borrow_ok : supplyOracle.borrowValue borrowedAtoms borrowDecimals = .ok borrowValue)
    (collateral_ok : collateralOracle.collateralValue collateralAtoms collateralDecimals =
      .ok collateralValue)
    (margin_ok : (Fixed.one : IFixedPoint).safeSub newLtv = .ok margin)
    (margin_pos : 0 < margin.bits)
    (owed : collateralValue.toRat * newLtv.toRat < borrowValue.toRat + 1 / 2 ^ 48)
    (success : valueToLiquidate borrowedAtoms borrowDecimals supplyOracle collateralAtoms
      collateralDecimals collateralOracle newLtv = .ok value) :
    0 ≤ value.bits ∧
      margin.toRat * value.toRat <
        borrowValue.toRat - collateralValue.toRat * newLtv.toRat + 1 / 2 ^ 48 ∧
      borrowValue.toRat - collateralValue.toRat * newLtv.toRat <
        margin.toRat * (value.toRat + 1 / 2 ^ 48) := by
  simp only [valueToLiquidate, except_bind_ok] at success
  obtain ⟨_, borrow_ok', _, collateral_ok', allowed, allowed_ok, excess, excess_ok, _, margin_ok',
    value_ok⟩ := success
  obtain rfl := Except.ok.inj (borrow_ok.symm.trans borrow_ok')
  obtain rfl := Except.ok.inj (collateral_ok.symm.trans collateral_ok')
  obtain rfl := Except.ok.inj (margin_ok.symm.trans margin_ok')
  have allowed_rat := IFixedPoint.safeMul_rat allowed_ok
  have excess_rat := IFixedPoint.safeSub_rat excess_ok
  have excess_nonneg : 0 ≤ excess.bits := by
    have allowed_le := IFixedPoint.lt_next_iff.mp (lt_of_le_of_lt allowed_rat.1 owed)
    have excess_eq := (Fixed.safeSub_ok _ _ _).mp excess_ok
    omega
  obtain ⟨below, above⟩ := IFixedPoint.safeDiv_rat excess_nonneg margin_pos value_ok
  refine ⟨?_, by linarith, by linarith⟩
  obtain ⟨-, quotient⟩ := (Fixed.safeDiv_ok _ _ _).mp value_ok
  rw [← quotient]
  exact Int.tdiv_nonneg (by positivity) margin_pos.le

theorem allowed_le_of_owed {borrowValue collateralValue newLtv : IFixedPoint}
    (owed : collateralValue.toRat * newLtv.toRat < borrowValue.toRat + 1 / 2 ^ 48) :
    collateralValue.bits * newLtv.bits / 2 ^ 48 ≤ borrowValue.bits := by
  rw [Fixed.toRat, Fixed.toRat, Fixed.toRat, i80f48_frac, ← add_div, div_mul_div_comm,
    div_lt_div_iff₀ (by positivity) (by positivity)] at owed
  have product_lt : collateralValue.bits * newLtv.bits * 2 ^ 48 <
      (borrowValue.bits + 1) * (2 ^ 48 * 2 ^ 48) := by exact_mod_cast owed
  omega

theorem valueToLiquidate_iff {borrowedAtoms collateralAtoms : U64}
    {borrowDecimals collateralDecimals : UInt8} {supplyOracle collateralOracle : OracleRate}
    {borrowValue collateralValue newLtv margin : IFixedPoint}
    (borrow_ok : supplyOracle.borrowValue borrowedAtoms borrowDecimals = .ok borrowValue)
    (collateral_ok : collateralOracle.collateralValue collateralAtoms collateralDecimals =
      .ok collateralValue)
    (margin_ok : (Fixed.one : IFixedPoint).safeSub newLtv = .ok margin)
    (newLtv_nonneg : 0 ≤ newLtv.bits) (margin_pos : 0 < margin.bits)
    (owed : collateralValue.toRat * newLtv.toRat < borrowValue.toRat + 1 / 2 ^ 48)
    (value : IFixedPoint) :
    valueToLiquidate borrowedAtoms borrowDecimals supplyOracle collateralAtoms collateralDecimals
        collateralOracle newLtv = .ok value ↔
      value.bits = (borrowValue.bits - collateralValue.bits * newLtv.bits / 2 ^ 48) * 2 ^ 48 /
        margin.bits := by
  have borrow_nonneg := supplyOracle.borrowValue_nonneg borrow_ok
  have borrow_lt := borrowValue.bits_lt
  have collateral_nonneg := collateralOracle.collateralValue_nonneg collateral_ok
  have product_nonneg : 0 ≤ collateralValue.bits * newLtv.bits / 2 ^ 48 :=
    Int.ediv_nonneg (mul_nonneg collateral_nonneg newLtv_nonneg) (by norm_num)
  have product_le := allowed_le_of_owed owed
  obtain ⟨allowed, allowed_eq⟩ := IFixedPoint.exists_bits
    (collateralValue.bits * newLtv.bits / 2 ^ 48) (by omega) (by omega)
  obtain ⟨excess, excess_eq⟩ := IFixedPoint.exists_bits (borrowValue.bits - allowed.bits)
    (by omega) (by omega)
  have allowed_ok : collateralValue.safeMul newLtv = .ok allowed :=
    (Fixed.safeMul_ok _ _ _).mpr allowed_eq.symm
  have excess_ok : borrowValue.safeSub allowed = .ok excess :=
    (Fixed.safeSub_ok _ _ _).mpr excess_eq.symm
  have divided : excess.safeDiv margin = .ok value ↔
      value.bits = excess.bits * 2 ^ 48 / margin.bits := by
    rw [Fixed.safeDiv_ok, i80f48_frac, Int.tdiv_eq_ediv_of_nonneg (by omega)]
    exact ⟨fun quotient => quotient.2.symm, fun quotient => ⟨margin_pos.ne', quotient.symm⟩⟩
  rw [← allowed_eq, ← excess_eq, ← divided]
  simp only [valueToLiquidate, except_bind_ok, borrow_ok, collateral_ok, allowed_ok, excess_ok,
    margin_ok, Except.ok.injEq, exists_eq_left']

theorem liquidationBonus_succeeds_iff (result : LiquidationResult) (collateralAtoms : U64)
    (liquidationFee : IFixedPoint) (fee_nonneg : 0 ≤ liquidationFee.bits) :
    (∃ liquidation, liquidationBonus result collateralAtoms liquidationFee = .ok liquidation) ↔
      result.collateralAtomsToLiquidate.toNat +
          result.collateralAtomsToLiquidate.toNat * liquidationFee.bits / 2 ^ 48 < 2 ^ 64 ∧
        result.collateralAtomsToLiquidate.toNat ≤ collateralAtoms.toNat := by
  generalize seized_eq : result.collateralAtomsToLiquidate = seized
  have product_nonneg : 0 ≤ seized.toNat * liquidationFee.bits := by positivity
  simp only [liquidationBonus, U64.safeMulIFixed, except_bind_ok, mapErr_ok, Fixed.safeMul_ok,
    Fixed.asU64RoundedDown_ok, Fixed.fromU64_bits, Fixed.floor, i80f48_frac, U64.safeAdd_ok,
    except_ite_ok, U64.safeSub_ok, except_pure_ok, UInt64.lt_iff_toNat_lt, seized_eq,
    mul_right_comm _ (2 ^ 48 : Int), Int.mul_ediv_cancel _ (by norm_num : (2 ^ 48 : Int) ≠ 0)]
  constructor
  · rintro ⟨liquidation, fee, fee_eq, bonus, bonus_eq, total, total_eq, fitted⟩
    have range := total.toNat_lt
    rw [fee_eq]
    rcases fitted with ⟨-, cut, cut_eq, -⟩ | ⟨within, -⟩
    · exact ⟨by omega, by omega⟩
    · exact ⟨by omega, by omega⟩
  · rintro ⟨fits, within⟩
    obtain ⟨fee, fee_eq⟩ := IFixedPoint.exists_bits (seized.toNat * liquidationFee.bits)
      (by omega) (by omega)
    have cast : (UInt64.ofNat (fee.bits / 2 ^ 48).toNat).toNat = (fee.bits / 2 ^ 48).toNat :=
      U64.toNat_ofNat (by omega)
    obtain ⟨total, -, total_eq⟩ := U64.safeAdd_succeeds seized
      (UInt64.ofNat (fee.bits / 2 ^ 48).toNat) (by omega)
    obtain ⟨cut, -, cut_eq⟩ := U64.safeSub_succeeds collateralAtoms seized within
    by_cases exceeds : collateralAtoms.toNat < total.toNat
    · exact ⟨_, fee, fee_eq.symm, UInt64.ofNat (fee.bits / 2 ^ 48).toNat, by omega, total, by omega,
        Or.inl ⟨exceeds, cut, by omega, rfl⟩⟩
    · exact ⟨_, fee, fee_eq.symm, UInt64.ofNat (fee.bits / 2 ^ 48).toNat, by omega, total, by omega,
        Or.inr ⟨exceeds, rfl⟩⟩

/-! The computation of a liquidation. -/

theorem U64.min_max (atoms : U64) : min U64.max atoms = atoms := by
  have range := atoms.toNat_lt
  have greatest : U64.max.toNat = 2 ^ 64 - 1 := U64.toNat_ofNat (by omega)
  rw [← UInt64.toNat_inj, U64.toNat_min, greatest]
  omega

structure Market.Discounted (m : Market) (collateralOracle : OracleRate)
    (terms : m.config.ltvConfig.Terms) (collateralAtoms : U64) where
  quotient : IFixedPoint
  atoms : U64
  value : IFixedPoint
  quotient_ok : collateralAtoms.safeDivIFixed terms.onePlus = .ok quotient
  atoms_ok : quotient.asU64RoundedDown = .ok atoms
  atoms_eq : (atoms.toNat : Int) = m.config.ltvConfig.withoutBonus collateralAtoms
  atoms_le : (1 + m.config.ltvConfig.liquidationBonus.toRat) * atoms.toNat ≤ collateralAtoms.toNat
  value_ok : collateralOracle.collateralValue atoms m.collateralVault.decimals = .ok value

theorem Market.exists_discounted {m : Market} {collateralOracle : OracleRate}
    (terms : m.config.ltvConfig.Terms) {collateralAtoms : U64} {value : IFixedPoint}
    (success : collateralOracle.collateralValue collateralAtoms m.collateralVault.decimals =
      .ok value) : Nonempty (m.Discounted collateralOracle terms collateralAtoms) := by
  obtain ⟨quotient, atoms, quotient_ok, atoms_ok, atoms_eq, atoms_le⟩ :=
    terms.adjustedCollateral collateralAtoms
  have bonus_nonneg := Fixed.toRat_nonneg.mpr terms.bonus_nonneg
  have less : atoms.toNat ≤ collateralAtoms.toNat := by
    have less_rat : (atoms.toNat : ℚ) ≤ collateralAtoms.toNat := by
      have extra : 0 ≤ m.config.ltvConfig.liquidationBonus.toRat * atoms.toNat := by positivity
      linarith
    exact_mod_cast less_rat
  obtain ⟨value', value_ok⟩ := collateralOracle.collateralValue_of_le success less
  exact ⟨⟨quotient, atoms, value', quotient_ok, atoms_ok, atoms_eq, atoms_le, value_ok⟩⟩

theorem Market.Discounted.computed_iff {m : Market} {collateralOracle supplyOracle : OracleRate}
    {terms : m.config.ltvConfig.Terms} {collateralAtoms : U64}
    (discounted : m.Discounted collateralOracle terms collateralAtoms) (borrowedAtoms : U64)
    (liquidation : LiquidationResultWithBonus) :
    computeLiquidationWithFee borrowedAtoms m.supplyVault.decimals supplyOracle collateralAtoms
        m.collateralVault.decimals collateralOracle m.config.ltvConfig.targetLtvAfterLiquidation
        m.config.ltvConfig.liquidationBonus U64.max = .ok liquidation ↔
      ∃ result,
        computeLiquidation borrowedAtoms m.supplyVault.decimals supplyOracle discounted.atoms
            m.collateralVault.decimals collateralOracle terms.adjusted = .ok result ∧
          liquidationBonus (result.adjustForMaxRepay borrowedAtoms) collateralAtoms
            m.config.ltvConfig.liquidationBonus = .ok liquidation := by
  simp only [computeLiquidationWithFee, except_bind_ok, terms.onePlus_ok, terms.adjusted_ok,
    discounted.quotient_ok, discounted.atoms_ok, U64.min_max, Except.ok.injEq, exists_eq_left']

end AutaraLending
