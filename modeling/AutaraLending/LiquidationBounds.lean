import AutaraLending.Effect

/-! What a liquidation may take from a borrower, in exact rational numbers: the collateral is paid
for at the oracle prices, bonus included, up to what the repayment is rounded by. -/

namespace AutaraLending

open Support

theorem OracleRate.exactCollateralValue_mul (self : OracleRate) (amount : ℚ) (decimals : UInt8) :
    self.exactCollateralValue amount decimals = amount * self.exactCollateralValue 1 decimals := by
  unfold exactCollateralValue
  ring

theorem OracleRate.exactBorrowValue_mul (self : OracleRate) (amount : ℚ) (decimals : UInt8) :
    self.exactBorrowValue amount decimals = amount * self.exactBorrowValue 1 decimals := by
  unfold exactBorrowValue
  ring

theorem scaled_paid {value scaled repaid cap : Nat} {price rate slack : ℚ} (smaller : cap < repaid)
    (down : scaled * repaid ≤ value * cap) (price_nonneg : 0 ≤ price) (slack_nonneg : 0 ≤ slack)
    (paid : value * price ≤ rate * repaid + slack) : scaled * price ≤ rate * cap + slack := by
  have down_rat : (scaled * repaid : ℚ) ≤ value * cap := by exact_mod_cast down
  have cap_le : (cap : ℚ) ≤ repaid := by exact_mod_cast smaller.le
  have repaid_pos : (0 : ℚ) < repaid := by exact_mod_cast (by omega : 0 < repaid)
  have whole : scaled * price * repaid ≤ (rate * cap + slack) * repaid := by
    calc
      (scaled * price * repaid : ℚ) = scaled * repaid * price := by ring
      _ ≤ value * cap * price := by gcongr
      _ = value * price * cap := by ring
      _ ≤ (rate * repaid + slack) * cap := by gcongr
      _ = rate * cap * repaid + slack * cap := by ring
      _ ≤ rate * cap * repaid + slack * repaid := by gcongr
      _ = (rate * cap + slack) * repaid := by ring
  exact le_of_mul_le_mul_right whole repaid_pos

namespace LiquidationResult

theorem adjustForMaxRepay_paid (self : LiquidationResult) (maxRepay : U64) {price rate slack : ℚ}
    (price_nonneg : 0 ≤ price) (slack_nonneg : 0 ≤ slack)
    (paid : self.collateralAtomsToLiquidate.toNat * price ≤
      rate * self.borrowedAtomsToRepay.toNat + slack) :
    (self.adjustForMaxRepay maxRepay).collateralAtomsToLiquidate.toNat * price ≤
      rate * (self.adjustForMaxRepay maxRepay).borrowedAtomsToRepay.toNat + slack := by
  unfold adjustForMaxRepay
  split
  · rename_i smaller
    exact scaled_paid (UInt64.lt_iff_toNat_lt.mp smaller) (scaleToRepay_mul_le _ _ _ smaller)
      price_nonneg slack_nonneg paid
  · exact paid

theorem adjustForMaxRepay_repaid_le (self : LiquidationResult) (maxRepay : U64) :
    (self.adjustForMaxRepay maxRepay).borrowedAtomsToRepay.toNat ≤ maxRepay.toNat := by
  unfold adjustForMaxRepay
  split
  · exact le_rfl
  · rename_i within
    rw [UInt64.lt_iff_toNat_lt] at within
    omega

end LiquidationResult

namespace LiquidationResultWithBonus

/-- The collateral that a liquidation takes, bonus included. -/
def taken (self : LiquidationResultWithBonus) : Nat :=
  self.collateralAtomsToLiquidate.toNat + self.collateralAtomsLiquidationBonus.toNat

theorem totalCollateralAtomsToLiquidate_ok (self : LiquidationResultWithBonus) (total : U64) :
    self.totalCollateralAtomsToLiquidate = .ok total ↔ self.taken = total.toNat :=
  U64.safeAdd_ok _ _ _

theorem adjustForMaxRepay_taken_le (self : LiquidationResultWithBonus) (maxRepay : U64) :
    (self.adjustForMaxRepay maxRepay).taken ≤ self.taken := by
  have less := self.adjustForMaxRepay_le maxRepay
  unfold taken
  omega

theorem adjustForMaxRepay_paid (self : LiquidationResultWithBonus) (maxRepay : U64)
    (price rate slack : ℚ) (price_nonneg : 0 ≤ price) (slack_nonneg : 0 ≤ slack)
    (paid : self.taken * price ≤ rate * self.borrowedAtomsToRepay.toNat + slack) :
    (self.adjustForMaxRepay maxRepay).taken * price ≤
      rate * (self.adjustForMaxRepay maxRepay).borrowedAtomsToRepay.toNat + slack := by
  unfold adjustForMaxRepay
  split
  · rename_i smaller
    have seized := scaleToRepay_mul_le self.collateralAtomsToLiquidate _ _ smaller
    have bonus := scaleToRepay_mul_le self.collateralAtomsLiquidationBonus _ _ smaller
    apply scaled_paid (UInt64.lt_iff_toNat_lt.mp smaller) ?_ price_nonneg slack_nonneg paid
    simp only [taken, add_mul]
    exact add_le_add seized bonus
  · exact paid

end LiquidationResultWithBonus

theorem liquidationBonus_taken_le (result : LiquidationResult) (collateralAtoms : U64)
    (liquidationFee : IFixedPoint) (liquidation : LiquidationResultWithBonus)
    (success : liquidationBonus result collateralAtoms liquidationFee = .ok liquidation) :
    liquidation.borrowedAtomsToRepay = result.borrowedAtomsToRepay ∧
      (liquidation.taken : ℚ) ≤
        (1 + liquidationFee.toRat) * result.collateralAtomsToLiquidate.toNat := by
  simp only [liquidationBonus, U64.safeMulIFixed, except_bind_ok, mapErr_ok, Fixed.safeMul_ok,
    Fixed.asU64RoundedDown_ok, U64.safeAdd_ok, except_ite_ok, U64.safeSub_ok, except_pure_ok,
    UInt64.lt_iff_toNat_lt] at success
  obtain ⟨fee, fee_eq, bonus, bonus_eq, total, total_eq, cases⟩ := success
  have fee_exact : fee.toRat = result.collateralAtomsToLiquidate.toNat * liquidationFee.toRat := by
    rw [Fixed.toRat, ← fee_eq]
    simp only [Fixed.fromU64_bits, i80f48_frac, Fixed.toRat]
    rw [mul_right_comm, Int.mul_ediv_cancel _ (by norm_num)]
    push_cast
    ring
  have bonus_le : (bonus.toNat : ℚ) ≤
      result.collateralAtomsToLiquidate.toNat * liquidationFee.toRat := by
    rw [← fee_exact]
    calc
      (bonus.toNat : ℚ) = (fee.floor : ℚ) := by rw [bonus_eq]; simp
      _ ≤ fee.toRat := fee.toRat_floor_le
  rcases cases with ⟨exceeds, cut, cut_eq, rfl⟩ | ⟨-, rfl⟩
  · refine ⟨rfl, ?_⟩
    have cut_le : (cut.toNat : ℚ) ≤ bonus.toNat := by exact_mod_cast (by omega)
    simp only [LiquidationResultWithBonus.taken]
    push_cast
    linarith
  · refine ⟨rfl, ?_⟩
    simp only [LiquidationResultWithBonus.taken]
    push_cast
    linarith

/-- The value that moves a position to the LTV `newLtv`. -/
def valueToLiquidate (borrowedAtoms : U64) (borrowDecimals : UInt8) (supplyOracle : OracleRate)
    (collateralAtoms : U64) (collateralDecimals : UInt8) (collateralOracle : OracleRate)
    (newLtv : IFixedPoint) : LendingResult IFixedPoint := do
  let borrowValue ← supplyOracle.borrowValue borrowedAtoms borrowDecimals
  let collateralValue ← collateralOracle.collateralValue collateralAtoms collateralDecimals
  let allowed ← collateralValue.safeMul newLtv
  let excess ← borrowValue.safeSub allowed
  let margin ← (Fixed.one : IFixedPoint).safeSub newLtv
  excess.safeDiv margin

/-- The repayment that reaches the target LTV after the bonus, before it is rounded and capped. -/
def targetRepayment (borrowedAtoms : U64) (borrowDecimals : UInt8) (supplyOracle : OracleRate)
    (collateralAtoms : U64) (collateralDecimals : UInt8) (collateralOracle : OracleRate)
    (newLtvAfterLiquidationFee liquidationFee : IFixedPoint) : LendingResult IFixedPoint := do
  let onePlusLiquidationFee ← (Fixed.one : IFixedPoint).safeAdd liquidationFee
  let adjustedNewLtv ← newLtvAfterLiquidationFee.safeMul onePlusLiquidationFee
  let adjustedCollateral ← collateralAtoms.safeDivIFixed onePlusLiquidationFee
  let adjustedCollateralAtoms ← adjustedCollateral.asU64RoundedDown
  let value ← valueToLiquidate borrowedAtoms borrowDecimals supplyOracle adjustedCollateralAtoms
    collateralDecimals collateralOracle adjustedNewLtv
  supplyOracle.borrowAtoms value borrowDecimals

/-- What the rounding of a repayment may leave unpaid, in atoms: one unit in the last place, or up
to an atom when the repayment is above the greatest `u64`, where rounding up saturates. -/
def repaymentSlack (repayment : LendingResult IFixedPoint) : ℚ :=
  match repayment with
  | .ok atoms => if (2 ^ 64 - 1) * 2 ^ 48 < atoms.bits then 1 else 1 / 2 ^ 48
  | .error _ => 1 / 2 ^ 48

theorem repaymentSlack_cases (repayment : LendingResult IFixedPoint) :
    repaymentSlack repayment = 1 ∨ repaymentSlack repayment = 1 / 2 ^ 48 := by
  cases repayment with
  | ok atoms => exact ite_eq_or_eq _ _ _
  | error _ => exact .inr rfl

theorem repaymentSlack_nonneg (repayment : LendingResult IFixedPoint) :
    0 ≤ repaymentSlack repayment := by
  rcases repaymentSlack_cases repayment with whole | unit
  · rw [whole]
    norm_num
  · rw [unit]
    norm_num

section Solvent

variable {borrowedAtoms collateralAtoms maxRepayAtoms : U64} {borrowDecimals : UInt8}
  {collateralDecimals : UInt8} {supplyOracle collateralOracle : OracleRate}
  {newLtv liquidationFee : IFixedPoint}

theorem computeLiquidation_ok (result : LiquidationResult) :
    computeLiquidation borrowedAtoms borrowDecimals supplyOracle collateralAtoms collateralDecimals
        collateralOracle newLtv = .ok result ↔
      ∃ value seized repayment,
        valueToLiquidate borrowedAtoms borrowDecimals supplyOracle collateralAtoms
          collateralDecimals collateralOracle newLtv = .ok value ∧
        collateralOracle.collateralAtoms value collateralDecimals = .ok seized ∧
        supplyOracle.borrowAtoms value borrowDecimals = .ok repayment ∧
        seized.asU64RoundedDown = .ok result.collateralAtomsToLiquidate ∧
        repayment.asU64RoundedUp = .ok result.borrowedAtomsToRepay := by
  simp only [computeLiquidation, valueToLiquidate, except_bind_ok, except_pure_ok]
  constructor
  · rintro ⟨_, borrow, _, collateral, _, allowed, _, excess, _, margin, value, value_ok, seized,
      seized_ok, repayment, repayment_ok, _, down, _, up, rfl⟩
    exact ⟨value, seized, repayment, ⟨_, borrow, _, collateral, _, allowed, _, excess, _, margin,
      value_ok⟩, seized_ok, repayment_ok, down, up⟩
  · rintro ⟨value, seized, repayment, ⟨_, borrow, _, collateral, _, allowed, _, excess, _, margin,
      value_ok⟩, seized_ok, repayment_ok, down, up⟩
    exact ⟨_, borrow, _, collateral, _, allowed, _, excess, _, margin, value, value_ok, seized,
      seized_ok, repayment, repayment_ok, _, down, _, up, rfl⟩

/-- What a repayment is rounded by covers its slack. -/
theorem roundedUp_covers (repayment : IFixedPoint) (atoms : U64)
    (rounded : repayment.asU64RoundedUp = .ok atoms) :
    repayment.toRat + 1 / 2 ^ 48 ≤ atoms.toNat + repaymentSlack (.ok repayment) := by
  obtain ⟨nonneg, small, atoms_eq⟩ := (Fixed.asU64RoundedUp_ok _ _).mp rounded
  have bounds : repayment.bits + 1 ≤ (atoms.toNat + 1) * 2 ^ 48 ∧
      (repayment.bits ≤ (2 ^ 64 - 1) * 2 ^ 48 → repayment.bits ≤ atoms.toNat * 2 ^ 48) := by
    split at atoms_eq
    · simp only [Fixed.floor, i80f48_frac] at *
      omega
    · simp only [Fixed.floor, i80f48_frac] at *
      omega
  rw [Fixed.toRat, i80f48_frac, repaymentSlack]
  split
  · rw [← add_div, div_le_iff₀ (by positivity)]
    exact_mod_cast bounds.1
  · rename_i fits
    have covered : (repayment.bits : ℚ) ≤ atoms.toNat * 2 ^ 48 := by
      exact_mod_cast bounds.2 (not_lt.mp fits)
    gcongr
    rw [div_le_iff₀ (by positivity)]
    exact covered

theorem computeLiquidation_paid (result : LiquidationResult)
    (success : computeLiquidation borrowedAtoms borrowDecimals supplyOracle collateralAtoms
      collateralDecimals collateralOracle newLtv = .ok result) :
    ∃ value repayment,
      valueToLiquidate borrowedAtoms borrowDecimals supplyOracle collateralAtoms collateralDecimals
        collateralOracle newLtv = .ok value ∧
      supplyOracle.borrowAtoms value borrowDecimals = .ok repayment ∧
      repayment.asU64RoundedUp = .ok result.borrowedAtomsToRepay ∧
      result.collateralAtomsToLiquidate.toNat *
          collateralOracle.exactCollateralValue 1 collateralDecimals ≤
        supplyOracle.exactBorrowValue 1 borrowDecimals * (repayment.toRat + 1 / 2 ^ 48) := by
  obtain ⟨value, seized, repayment, value_ok, seized_ok, repayment_ok, down, up⟩ :=
    (computeLiquidation_ok result).mp success
  refine ⟨value, repayment, value_ok, repayment_ok, up, ?_⟩
  rw [Fixed.asU64RoundedDown_ok] at down
  have seized_le : (result.collateralAtomsToLiquidate.toNat : ℚ) ≤ seized.toRat := by
    calc
      (result.collateralAtomsToLiquidate.toNat : ℚ) = (seized.floor : ℚ) := by rw [down]; simp
      _ ≤ seized.toRat := seized.toRat_floor_le
  have price_nonneg := collateralOracle.exactCollateralValue_nonneg zero_le_one collateralDecimals
  by_cases nonneg : 0 ≤ value.bits
  · have worth := collateralOracle.collateralAtoms_worth_le _ _ _ seized_ok nonneg
    have above := supplyOracle.lt_borrowAtoms_worth _ _ _ repayment_ok nonneg
    rw [OracleRate.exactCollateralValue_mul] at worth
    rw [OracleRate.exactBorrowValue_mul] at above
    calc
      _ ≤ seized.toRat * collateralOracle.exactCollateralValue 1 collateralDecimals := by gcongr
      _ ≤ value.toRat := worth
      _ ≤ (repayment.toRat + 1 / 2 ^ 48) * supplyOracle.exactBorrowValue 1 borrowDecimals :=
        above.le
      _ = _ := by ring
  · -- the atoms of a negative value are not positive, so none are seized
    have none : result.collateralAtomsToLiquidate.toNat = 0 := by
      obtain ⟨-, -, quotient⟩ := (collateralOracle.collateralAtoms_ok _ _ _).mp seized_ok
      have mirrored : 0 ≤ (-(value.bits * 10 ^ collateralDecimals.toNat * 2 ^ 48)).tdiv
          collateralOracle.lower :=
        Int.tdiv_nonneg (neg_nonneg.mpr (mul_nonpos_of_nonpos_of_nonneg
          (mul_nonpos_of_nonpos_of_nonneg (not_le.mp nonneg).le (by positivity)) (by positivity)))
          collateralOracle.lower_pos.le
      rw [Int.neg_tdiv, ← quotient] at mirrored
      simp only [Fixed.floor, i80f48_frac] at down
      omega
    have repayment_nonneg : 0 ≤ repayment.toRat := by
      obtain ⟨floor_nonneg, -, -⟩ := (Fixed.asU64RoundedUp_ok _ _).mp up
      exact le_trans (by exact_mod_cast floor_nonneg) repayment.toRat_floor_le
    have rate_nonneg := supplyOracle.exactBorrowValue_nonneg zero_le_one borrowDecimals
    rw [none, Nat.cast_zero, zero_mul]
    positivity

theorem computeLiquidationWithFee_repaid_le (target : IFixedPoint)
    (liquidation : LiquidationResultWithBonus)
    (success : computeLiquidationWithFee borrowedAtoms borrowDecimals supplyOracle collateralAtoms
      collateralDecimals collateralOracle target liquidationFee maxRepayAtoms = .ok liquidation) :
    liquidation.borrowedAtomsToRepay.toNat ≤ min maxRepayAtoms.toNat borrowedAtoms.toNat := by
  simp only [computeLiquidationWithFee, except_bind_ok] at success
  obtain ⟨_, -, _, -, _, -, _, -, result, -, bonus⟩ := success
  rw [(liquidationBonus_taken_le _ _ _ _ bonus).1, ← U64.toNat_min]
  exact result.adjustForMaxRepay_repaid_le _

theorem computeLiquidationWithFee_paid (target : IFixedPoint)
    (liquidation : LiquidationResultWithBonus) (fee_nonneg : 0 ≤ liquidationFee.bits)
    (success : computeLiquidationWithFee borrowedAtoms borrowDecimals supplyOracle collateralAtoms
      collateralDecimals collateralOracle target liquidationFee maxRepayAtoms = .ok liquidation) :
    liquidation.borrowedAtomsToRepay.toNat ≤ min maxRepayAtoms.toNat borrowedAtoms.toNat ∧
      liquidation.taken * collateralOracle.exactCollateralValue 1 collateralDecimals ≤
        (1 + liquidationFee.toRat) * supplyOracle.exactBorrowValue 1 borrowDecimals *
            liquidation.borrowedAtomsToRepay.toNat +
          (1 + liquidationFee.toRat) * supplyOracle.exactBorrowValue 1 borrowDecimals *
            repaymentSlack (targetRepayment borrowedAtoms borrowDecimals supplyOracle
              collateralAtoms collateralDecimals collateralOracle target liquidationFee) := by
  refine ⟨computeLiquidationWithFee_repaid_le target liquidation success, ?_⟩
  simp only [computeLiquidationWithFee, except_bind_ok] at success
  obtain ⟨onePlus, onePlus_ok, adjustedLtv, ltv_ok, adjusted, adjusted_ok, atoms, atoms_ok, result,
    computed, bonus⟩ := success
  obtain ⟨value, repayment, value_ok, repayment_ok, rounded, paid⟩ :=
    computeLiquidation_paid result computed
  have target_ok : targetRepayment borrowedAtoms borrowDecimals supplyOracle collateralAtoms
      collateralDecimals collateralOracle target liquidationFee = .ok repayment := by
    simp only [targetRepayment, except_bind_ok]
    exact ⟨onePlus, onePlus_ok, adjustedLtv, ltv_ok, adjusted, adjusted_ok, atoms, atoms_ok, value,
      value_ok, repayment_ok⟩
  have price_nonneg := collateralOracle.exactCollateralValue_nonneg zero_le_one collateralDecimals
  have rate_nonneg := supplyOracle.exactBorrowValue_nonneg zero_le_one borrowDecimals
  have slack_nonneg := repaymentSlack_nonneg (.ok repayment)
  have bonus_nonneg := Fixed.toRat_nonneg.mpr fee_nonneg
  obtain ⟨repaid_eq, taken_le⟩ := liquidationBonus_taken_le _ _ _ _ bonus
  have covered := roundedUp_covers _ _ rounded
  have capped := result.adjustForMaxRepay_paid (min maxRepayAtoms borrowedAtoms) price_nonneg
    (mul_nonneg rate_nonneg slack_nonneg) (le_trans paid
      (by rw [← mul_add]; gcongr : _ ≤ supplyOracle.exactBorrowValue 1 borrowDecimals *
        result.borrowedAtomsToRepay.toNat + supplyOracle.exactBorrowValue 1 borrowDecimals *
          repaymentSlack (.ok repayment)))
  rw [target_ok, repaid_eq]
  calc
    _ ≤ (1 + liquidationFee.toRat) *
        (result.adjustForMaxRepay (min maxRepayAtoms
          borrowedAtoms)).collateralAtomsToLiquidate.toNat *
        collateralOracle.exactCollateralValue 1 collateralDecimals := by gcongr
    _ = (1 + liquidationFee.toRat) *
        ((result.adjustForMaxRepay (min maxRepayAtoms
          borrowedAtoms)).collateralAtomsToLiquidate.toNat *
          collateralOracle.exactCollateralValue 1 collateralDecimals) := by ring
    _ ≤ (1 + liquidationFee.toRat) * (supplyOracle.exactBorrowValue 1 borrowDecimals *
          (result.adjustForMaxRepay (min maxRepayAtoms borrowedAtoms)).borrowedAtomsToRepay.toNat +
        supplyOracle.exactBorrowValue 1 borrowDecimals * repaymentSlack (.ok repayment)) := by
      gcongr
    _ = _ := by ring

end Solvent

/-- What a liquidation of a position with this debt, collateral and LTV may do: repay at most the
debt and the caller's limit, and take no more than there is, nor than the repayment pays for at
the oracle prices, with the bonus on top while the position is solvent. -/
structure BorrowerProtected (m : Market) (collateralOracle supplyOracle : OracleRate)
    (maxRepayAtoms : U64) (health : BorrowPositionHealth)
    (liquidation : LiquidationResultWithBonus) : Prop where
  repaid_le : liquidation.borrowedAtomsToRepay.toNat ≤
    min maxRepayAtoms.toNat health.borrowedAtoms.toNat
  taken_le : liquidation.taken ≤ health.collateralAtoms.toNat
  solvent : health.ltv < Fixed.one →
    collateralOracle.exactCollateralValue liquidation.taken m.collateralVault.decimals ≤
      (1 + m.config.ltvConfig.liquidationBonus.toRat) *
        supplyOracle.exactBorrowValue (liquidation.borrowedAtomsToRepay.toNat +
          repaymentSlack (targetRepayment health.borrowedAtoms m.supplyVault.decimals supplyOracle
            health.collateralAtoms m.collateralVault.decimals collateralOracle
            m.config.ltvConfig.targetLtvAfterLiquidation m.config.ltvConfig.liquidationBonus))
          m.supplyVault.decimals
  insolvent : Fixed.one ≤ health.ltv →
    collateralOracle.exactCollateralValue liquidation.taken m.collateralVault.decimals ≤
      supplyOracle.exactBorrowValue liquidation.borrowedAtomsToRepay.toNat m.supplyVault.decimals +
        1 / 2 ^ 48

namespace BorrowerProtected

variable {m : Market} {collateralOracle supplyOracle : OracleRate} {maxRepayAtoms : U64}
  {health : BorrowPositionHealth} {liquidation : LiquidationResultWithBonus}

theorem none (fee_nonneg : 0 ≤ m.config.ltvConfig.liquidationBonus.bits) :
    BorrowerProtected m collateralOracle supplyOracle maxRepayAtoms health .none := by
  have bonus_nonneg := Fixed.toRat_nonneg.mpr fee_nonneg
  have nothing : (LiquidationResultWithBonus.none.taken : ℚ) = 0 := rfl
  refine ⟨Nat.zero_le _, Nat.zero_le _, fun _ => ?_, fun _ => ?_⟩
  · rw [OracleRate.exactCollateralValue_mul, nothing, zero_mul]
    refine mul_nonneg (by positivity) (OracleRate.exactBorrowValue_nonneg _ (add_nonneg ?_ ?_) _)
    · exact Nat.cast_nonneg _
    · exact repaymentSlack_nonneg _
  · rw [OracleRate.exactCollateralValue_mul, nothing, zero_mul]
    have worth := supplyOracle.exactBorrowValue_nonneg
      (Nat.cast_nonneg LiquidationResultWithBonus.none.borrowedAtomsToRepay.toNat)
      m.supplyVault.decimals
    positivity

theorem adjusted (fee_nonneg : 0 ≤ m.config.ltvConfig.liquidationBonus.bits) (paid : U64)
    (kept : BorrowerProtected m collateralOracle supplyOracle maxRepayAtoms health
      liquidation) :
    BorrowerProtected m collateralOracle supplyOracle maxRepayAtoms health
      (liquidation.adjustForMaxRepay paid) := by
  have bonus_nonneg := Fixed.toRat_nonneg.mpr fee_nonneg
  have less := liquidation.adjustForMaxRepay_le paid
  have price_nonneg := collateralOracle.exactCollateralValue_nonneg zero_le_one
    m.collateralVault.decimals
  have rate_nonneg := supplyOracle.exactBorrowValue_nonneg zero_le_one m.supplyVault.decimals
  refine ⟨le_trans less.1 kept.repaid_le,
    le_trans (liquidation.adjustForMaxRepay_taken_le paid) kept.taken_le, ?_, ?_⟩
  · intro below
    have bound := kept.solvent below
    rw [OracleRate.exactCollateralValue_mul, OracleRate.exactBorrowValue_mul] at bound ⊢
    have slack_nonneg := repaymentSlack_nonneg (targetRepayment health.borrowedAtoms
      m.supplyVault.decimals supplyOracle health.collateralAtoms m.collateralVault.decimals
      collateralOracle m.config.ltvConfig.targetLtvAfterLiquidation
      m.config.ltvConfig.liquidationBonus)
    generalize repaymentSlack _ = slack at *
    have scaled := liquidation.adjustForMaxRepay_paid paid _
      ((1 + m.config.ltvConfig.liquidationBonus.toRat) *
        supplyOracle.exactBorrowValue 1 m.supplyVault.decimals)
      ((1 + m.config.ltvConfig.liquidationBonus.toRat) *
        supplyOracle.exactBorrowValue 1 m.supplyVault.decimals * slack)
      price_nonneg (by positivity) (by linarith)
    linarith
  · intro above
    have bound := kept.insolvent above
    rw [OracleRate.exactCollateralValue_mul, OracleRate.exactBorrowValue_mul] at bound ⊢
    have scaled := liquidation.adjustForMaxRepay_paid paid _
      (supplyOracle.exactBorrowValue 1 m.supplyVault.decimals)
        (1 / 2 ^ 48) price_nonneg (by positivity) (by linarith)
    linarith

end BorrowerProtected

theorem Market.insolvent_worth {m : Market} {p : BorrowPosition} {collateralAtoms : U64}
    {collateralOracle supplyOracle : OracleRate} {health : BorrowPositionHealth}
    (health_ok : m.borrowPositionHealthWithCollateralAtoms p collateralAtoms collateralOracle
      supplyOracle = .ok health) (insolvent : (Fixed.one : IFixedPoint) ≤ health.ltv) :
    collateralOracle.exactCollateralValue health.collateralAtoms.toNat m.collateralVault.decimals ≤
      supplyOracle.exactBorrowValue health.borrowedAtoms.toNat m.supplyVault.decimals +
        1 / 2 ^ 48 := by
  obtain ⟨-, borrow_ok, collateral_ok, ltv_ok, rfl⟩ :=
    (borrowPositionHealthWithCollateralAtoms_ok _ _ _ _ _ _).mp health_ok
  have debt_nonneg := supplyOracle.borrowValue_nonneg borrow_ok
  have collateral_nonneg := collateralOracle.collateralValue_nonneg collateral_ok
  have ordered : health.collateralValue ≤ health.borrowValue := by
    rw [Fixed.le_def, Fixed.one_bits, i80f48_frac] at insolvent
    rcases ltv_ok with ⟨-, zero⟩ | ⟨-, divided⟩
    · rw [zero, Fixed.zero_bits] at insolvent
      omega
    · obtain ⟨nonzero, quotient⟩ := (Fixed.safeDiv_ok _ _ _).mp divided
      rw [i80f48_frac, Int.tdiv_eq_ediv_of_nonneg (by positivity)] at quotient
      rw [← quotient, Int.le_ediv_iff_mul_le (by omega)] at insolvent
      rw [Fixed.le_def]
      omega
  calc
    _ ≤ health.collateralValue.toRat + 1 / 2 ^ 48 :=
      (collateralOracle.collateralValue_bounds _ _ _ collateral_ok).2.le
    _ ≤ health.borrowValue.toRat + 1 / 2 ^ 48 := by
      have ordered_rat := Fixed.toRat_le.mpr ordered
      linarith
    _ ≤ _ := by
      have below := (supplyOracle.borrowValue_bounds _ _ _ borrow_ok).1
      linarith

/-- Every liquidation that a market computes protects the borrower. -/
theorem Market.computed_protected {m : Market} {p : BorrowPosition} {collateralAtoms : U64}
    {collateralOracle supplyOracle : OracleRate} {maxRepayAtoms : U64}
    {health : BorrowPositionHealth} {liquidation : LiquidationResultWithBonus}
    (fee_nonneg : 0 ≤ m.config.ltvConfig.liquidationBonus.bits)
    (computed : m.computeLiquidationResultWithFeeForCollateral p collateralAtoms collateralOracle
      supplyOracle maxRepayAtoms = .ok (health, liquidation)) :
    BorrowerProtected m collateralOracle supplyOracle maxRepayAtoms health liquidation := by
  obtain ⟨health_ok, -, ⟨insolvent, rfl⟩ | ⟨solvent, computed⟩⟩ :=
    (computeLiquidationResultWithFeeForCollateral_ok _ _ _ _ _ _ _ _).mp computed
  · have whole : BorrowerProtected m collateralOracle supplyOracle health.borrowedAtoms health
        ⟨health.borrowedAtoms, health.collateralAtoms, 0⟩ := by
      refine ⟨by simp, by simp [LiquidationResultWithBonus.taken], fun below => ?_, fun _ => ?_⟩
      · rw [Fixed.lt_def] at below
        rw [Fixed.le_def] at insolvent
        omega
      · exact insolvent_worth health_ok insolvent
    obtain ⟨_, taken_le, solvent, insolvent⟩ := whole.adjusted fee_nonneg maxRepayAtoms
    have less := LiquidationResultWithBonus.adjustForMaxRepay_le
      ⟨health.borrowedAtoms, health.collateralAtoms, 0⟩ maxRepayAtoms
    exact ⟨le_min less.2.1 less.1, taken_le, solvent, insolvent⟩
  · have same : health.collateralAtoms = collateralAtoms :=
      ((borrowPositionHealthWithCollateralAtoms_ok _ _ _ _ _ _).mp health_ok).2.2.2.2
    obtain ⟨repaid_le, paid⟩ := computeLiquidationWithFee_paid _ _ fee_nonneg computed
    have taken_le := computeLiquidationWithFee_le _ _ _ _ _ _ _ _ _ _ computed
    rw [← same] at paid taken_le
    refine ⟨repaid_le, taken_le, fun _ => ?_, fun insolvent => absurd insolvent solvent⟩
    rw [OracleRate.exactCollateralValue_mul, OracleRate.exactBorrowValue_mul]
    linarith

namespace MarketWith

/-- Liquidations and settled sweeps protect the borrower: `taken` is what the position loses. -/
theorem liquidation_protects_borrower (collateralOracle supplyOracle : OracleRate)
    (maxRepayAtoms : U64) (s s' : MarketWith BorrowPosition)
    (sound : s.market.config.ltvConfig.Sound) :
    (∀ result, (liquidate collateralOracle supplyOracle maxRepayAtoms).Succeeds s result s' →
      s.market.borrowPositionHealth s.position collateralOracle supplyOracle =
          .ok result.healthBeforeLiquidation ∧
        s.position.collateralDepositedAtoms.toNat =
          s'.position.collateralDepositedAtoms.toNat + result.liquidationResultWithBonus.taken ∧
        BorrowerProtected s.market collateralOracle supplyOracle maxRepayAtoms
          result.healthBeforeLiquidation result.liquidationResultWithBonus) ∧
    ∀ maxCollateralAtomsToReturn result,
      (settleCapitalSweep collateralOracle supplyOracle maxRepayAtoms
        maxCollateralAtomsToReturn).Succeeds s result s' →
      s.market.borrowPositionHealthWithCollateralAtoms s.position s.position.sweptCollateralAtoms
          collateralOracle supplyOracle = .ok result.healthBeforeSettlement ∧
        s.position.sweptCollateralAtoms.toNat =
          s'.position.collateralDepositedAtoms.toNat + result.liquidationResultWithBonus.taken ∧
        BorrowerProtected s.market collateralOracle supplyOracle maxRepayAtoms
          result.healthBeforeSettlement result.liquidationResultWithBonus := by
  have fee_nonneg : 0 ≤ s.market.config.ltvConfig.liquidationBonus.bits :=
    le_trans (by decide) sound.bonus_ge
  constructor
  · intro result success
    obtain ⟨liquidated⟩ := (liquidate_succeeds _ _ _ _ _ _).mp success
    have computed := Market.computed_protected fee_nonneg liquidated.computed_ok
    have taken_eq := (LiquidationResultWithBonus.totalCollateralAtomsToLiquidate_ok _ _).mp
      liquidated.seized_ok
    have collateral_eq := liquidated.collateral_eq
    rw [liquidated.liquidation_eq]
    refine ⟨((Market.computeLiquidationResultWithFeeForCollateral_ok _ _ _ _ _ _ _ _).mp
      liquidated.computed_ok).1, ?_, computed.adjusted fee_nonneg _⟩
    have left : s'.position.collateralDepositedAtoms = liquidated.collateral :=
      congrArg (fun s => s.position.collateralDepositedAtoms) liquidated.final
    rw [left, taken_eq]
    omega
  · intro limit result success
    obtain ⟨settled⟩ := (settleCapitalSweep_succeeds _ _ _ _ _ _ _).mp success
    have computed : BorrowerProtected s.market collateralOracle supplyOracle maxRepayAtoms
        result.healthBeforeSettlement settled.computed := by
      have settled_ok := settled.computed_ok
      unfold settlementLiquidation at settled_ok
      split at settled_ok
      · rw [← Except.ok.inj settled_ok]
        exact BorrowerProtected.none fee_nonneg
      · simp only [except_map_ok] at settled_ok
        obtain ⟨⟨health, liquidation⟩, computed_ok, liquidation_eq⟩ := settled_ok
        obtain ⟨health_ok, -⟩ :=
          (Market.computeLiquidationResultWithFeeForCollateral_ok _ _ _ _ _ _ _ _).mp computed_ok
        obtain rfl := Except.ok.inj (health_ok.symm.trans settled.before_ok)
        rw [← liquidation_eq]
        exact Market.computed_protected fee_nonneg computed_ok
    obtain ⟨total, total_ok, returned_eq, -⟩ := (collateralReturned_ok _ _ _ _).mp
      settled.returned_ok
    have taken_eq := (LiquidationResultWithBonus.totalCollateralAtomsToLiquidate_ok _ _).mp total_ok
    rw [settled.liquidation_eq]
    refine ⟨settled.before_ok, ?_, computed.adjusted fee_nonneg _⟩
    have left : s'.position.collateralDepositedAtoms = result.collateralAtomsReturned :=
      congrArg (fun s => s.position.collateralDepositedAtoms) settled.final
    rw [left, taken_eq]
    omega

end MarketWith

theorem MarketWith.lowered_small_loan_protected :
    ∃ result s', (liquidate loweredRate .par 100).Succeeds
        (((smallLedger .newAdaptive).run smallLoan).borrowView ()) result s' ∧
      BorrowerProtected ((smallLedger .newAdaptive).run smallLoan).market loweredRate .par 100
        result.healthBeforeLiquidation result.liquidationResultWithBonus := by
  obtain ⟨result, s', success, -⟩ := Method.exists_succeeds (liquidate loweredRate .par 100)
    (((smallLedger .newAdaptive).run smallLoan).borrowView ()) (fun _ => ()) ()
    (by decide +kernel)
  have reachable : ((smallLedger .newAdaptive).run smallLoan).Reachable :=
    ⟨_, _, smallLoan, smallLedger_adaptive_opened, rfl⟩
  exact ⟨result, s', success,
    ((liquidation_protects_borrower loweredRate .par 100 _ s' reachable.configSound.ltv).1 result
      success).2.2⟩

def hugeMarket : Market.CreateMarket :=
  { smallMarket (.fixed ⟨.lit 25 2⟩) with lendingMarketFeeInBps := 0 }

def hugeLedger : Ledger Unit Unit :=
  { smallLedger .newAdaptive with
    market := (Market.processCreateMarket hugeMarket 0 Market.zeroed).2 }

theorem hugeLedger_opened : Ledger.Opened hugeMarket hugeLedger :=
  ⟨⟨0, Prod.ext (by decide +kernel) rfl⟩, fun _ => ⟨_, _, rfl⟩, fun _ => ⟨_, _, rfl⟩, rfl⟩

def hugeLoan : List (Operation Unit Unit) :=
  [.supply () (.lend 18000000000000000000), .borrow () (.depositCollateral 10736761944598901826),
    .borrow () (.borrow 14366338869572336321 (.exact (.lit 1 1) (by decide)) .par),
    .supply () (.withdraw 3633661130427663679), .market (.syncClock 1)]

def hugeLoanRate : OracleRate := .exact ⟨507779880898276, by decide, by decide⟩ (by decide)

theorem MarketWith.huge_loan_overpaid :
    (hugeLedger.run hugeLoan).Reachable ∧
      ∃ result s', (liquidate hugeLoanRate .par 17329933446882389550).Succeeds
          ((hugeLedger.run hugeLoan).borrowView ()) result s' ∧
        result.healthBeforeLiquidation.ltv < Fixed.one ∧
        ¬ hugeLoanRate.exactCollateralValue result.liquidationResultWithBonus.taken
            (hugeLedger.run hugeLoan).market.collateralVault.decimals ≤
          (1 + (hugeLedger.run hugeLoan).market.config.ltvConfig.liquidationBonus.toRat) *
            OracleRate.par.exactBorrowValue
              (result.liquidationResultWithBonus.borrowedAtomsToRepay.toNat + 1 / 2 ^ 48)
              (hugeLedger.run hugeLoan).market.supplyVault.decimals := by
  obtain ⟨result, s', success, seen⟩ := Method.exists_succeeds
    (liquidate hugeLoanRate .par 17329933446882389550) ((hugeLedger.run hugeLoan).borrowView ())
    (fun result => (result.liquidationResultWithBonus.borrowedAtomsToRepay,
      result.liquidationResultWithBonus.taken, result.healthBeforeLiquidation.ltv.bits))
    (17329933446882389550, 10086732335605134454, 268071406391100) (by decide +kernel)
  obtain ⟨repaid, taken, ltv⟩ : result.liquidationResultWithBonus.borrowedAtomsToRepay =
      17329933446882389550 ∧ result.liquidationResultWithBonus.taken = 10086732335605134454 ∧
        result.healthBeforeLiquidation.ltv.bits = 268071406391100 := by
    simpa using seen
  have parameters : (hugeLedger.run hugeLoan).market.config.ltvConfig.liquidationBonus.bits =
        14073748835533 ∧ (hugeLedger.run hugeLoan).market.supplyVault.decimals = 0 ∧
      (hugeLedger.run hugeLoan).market.collateralVault.decimals = 0 := by decide +kernel
  obtain ⟨bonus, supplyDecimals, collateralDecimals⟩ := parameters
  have lower_eq : hugeLoanRate.lower = 507779880898276 := by decide
  have upper_eq : OracleRate.par.upper = 2 ^ 48 := by decide
  refine ⟨⟨_, _, hugeLoan, hugeLedger_opened, rfl⟩, result, s', success, ?_, ?_⟩
  · rw [Fixed.lt_def, ltv, Fixed.one_bits]
    decide
  · have whole : (17329933446882389550 : U64).toNat = 17329933446882389550 := by decide
    rw [OracleRate.exactCollateralValue_eq, OracleRate.exactBorrowValue_eq, repaid, taken,
      lower_eq, upper_eq, supplyDecimals, collateralDecimals, Fixed.toRat, bonus, i80f48_frac,
      whole]
    norm_num

end AutaraLending
