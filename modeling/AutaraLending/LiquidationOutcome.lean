import AutaraLending.LiquidationHealth
import AutaraLending.DebtMonotonicity

/-! What a liquidation leaves of a position: the debt that is reported after its repayment, and the
LTV that the rest of the debt and of the collateral have. -/

namespace AutaraLending

open Support

/-! What a repayment leaves of the reported debt. -/

/-- How far the debt reported after a repayment may stay above the debt reported before, less the
repayment, in atoms: not at all when the reported debt exceeds the shares owed by what a conversion
to shares may drop, one atom at most otherwise, and two where the report was cut to the greatest
`u64`. -/
def SharesTracker.repaymentDust (t : SharesTracker) (owed : UFixedPoint) (debt : U64) : ℚ :=
  if (owed.bits + 1) * t.atomsPerShare.bits ≤ debt.toNat * 2 ^ 128 + 2 ^ 64 then 0
  else if owed.bits * t.atomsPerShare.bits < debt.toNat * 2 ^ 128 + 2 ^ 64 then 1 else 2

theorem SharesTracker.repaymentDust_nonneg (t : SharesTracker) (owed : UFixedPoint) (debt : U64) :
    0 ≤ t.repaymentDust owed debt := by
  unfold repaymentDust
  split_ifs <;> norm_num

structure SharesTracker.Repayment (t : SharesTracker) (owed : UFixedPoint) (debt repaid : U64) where
  atoms : U64
  shares : UFixedPoint
  tracker : SharesTracker
  borrowed : UFixedPoint
  left : U64
  capped : (withdrawAtomsCapped repaid owed .roundUp).Succeeds t (atoms, shares) tracker
  enough : repaid.toNat ≤ atoms.toNat
  owed_eq : owed.bits = borrowed.bits + shares.bits
  reported : t.sharesToAtoms borrowed .roundUp = .ok left
  left_le : left.toNat ≤ debt.toNat
  dust : (left.toNat + repaid.toNat : ℚ) ≤ debt.toNat + t.repaymentDust owed debt
  cleared : t.PaidBy owed repaid → left.toNat = 0

namespace SharesTracker

variable {t : SharesTracker} {owed : UFixedPoint} {debt repaid : U64}

theorem reported_after_conversion (shares left : UFixedPoint) (debt' : U64)
    (reported : t.sharesToAtoms owed .roundUp = .ok debt)
    (converted : t.atomsToShares repaid = .ok shares)
    (split : owed.bits = left.bits + shares.bits)
    (reported' : t.sharesToAtoms left .roundUp = .ok debt') :
    (debt'.toNat + repaid.toNat : ℚ) ≤ debt.toNat + t.repaymentDust owed debt := by
  obtain ⟨nonzero, -⟩ := (atomsToShares_ok _ _ _).mp converted
  obtain ⟨value, loss_nonneg⟩ := atomsToShares_exact _ _ _ converted
  have price_pos : 0 < t.atomsPerShare.bits :=
    lt_of_le_of_ne t.atomsPerShare.bits_nonneg (Ne.symm nonzero)
  have price_lt := t.atomsPerShare.bits_lt
  have loss_lt : t.conversionLoss repaid < t.atomsPerShare.bits := Int.emod_lt_of_pos _ price_pos
  have left_value : left.bits * t.atomsPerShare.bits =
      owed.bits * t.atomsPerShare.bits - repaid.toNat * 2 ^ 128 + t.conversionLoss repaid := by
    rw [split, add_mul, value]
    ring
  obtain ⟨small, debt_eq⟩ := (sharesToAtoms_roundUp_ok _ _ _).mp reported
  obtain ⟨-, debt'_eq⟩ := (sharesToAtoms_roundUp_ok _ _ _).mp reported'
  unfold repaymentDust
  rw [add_mul, one_mul]
  generalize owed.bits * t.atomsPerShare.bits = exact at *
  generalize left.bits * t.atomsPerShare.bits = exact' at *
  -- the report after is at most one atom above its exact value, which the loss lifts
  have debt'_le : (debt'.toNat : Int) * 2 ^ 128 < exact' + 2 ^ 128 ∧
      (debt'.toNat : Int) * 2 ^ 128 ≤ exact' + 2 ^ 128 - 2 ^ 64 := by
    split at debt'_eq
    · omega
    · omega
  split_ifs with spared counted
  · have whole : debt'.toNat + repaid.toNat ≤ debt.toNat := by omega
    rw [add_zero]
    exact_mod_cast whole
  · have whole : debt'.toNat + repaid.toNat ≤ debt.toNat + 1 := by omega
    exact_mod_cast whole
  · have debt_ge : exact < (debt.toNat + 1) * 2 ^ 128 := by
      split at debt_eq
      · omega
      · omega
    have whole : debt'.toNat + repaid.toNat ≤ debt.toNat + 2 := by omega
    exact_mod_cast whole

theorem lt_price_of_capped {maxShares shares : UFixedPoint} {atoms : U64} {t' : SharesTracker}
    (capped : (withdrawAtomsCapped repaid maxShares .roundUp).Succeeds t (atoms, shares) t') :
    (repaid.toNat : Int) < t.atomsPerShare.bits := by
  have converts : ∃ wanted, t.atomsToShares repaid = .ok wanted := by
    rcases ((withdrawAtomsCapped_succeeds _ _ _ _ _ _ _).mp capped).1 with
      ⟨wanted, converted, -⟩ | ⟨converted, -⟩
    · exact ⟨wanted, converted⟩
    · exact ⟨shares, converted⟩
  obtain ⟨wanted, converted⟩ := converts
  obtain ⟨nonzero, quotient⟩ := (atomsToShares_ok _ _ _).mp converted
  have positive : 0 < t.atomsPerShare.bits :=
    lt_of_le_of_ne t.atomsPerShare.bits_nonneg (Ne.symm nonzero)
  have range := wanted.bits_lt
  have product_lt := Int.lt_mul_of_ediv_lt positive
    (by omega : repaid.toNat * 2 ^ 128 / t.atomsPerShare.bits < 2 ^ 128)
  omega

theorem exists_repayment (reported : t.sharesToAtoms owed .roundUp = .ok debt)
    (within : repaid.toNat ≤ debt.toNat)
    (convertible : (repaid.toNat : Int) < t.atomsPerShare.bits)
    (counted : owed.bits ≤ t.totalShares.bits) : Nonempty (t.Repayment owed debt repaid) := by
  have price_pos : 0 < t.atomsPerShare.bits := by omega
  obtain ⟨wanted, wanted_eq⟩ := UFixedPoint.exists_bits
    (repaid.toNat * 2 ^ 128 / t.atomsPerShare.bits) (Int.ediv_nonneg (by omega) price_pos.le)
    (Int.ediv_lt_of_lt_mul price_pos (by omega))
  have converted : t.atomsToShares repaid = .ok wanted :=
    (atomsToShares_ok _ _ _).mpr ⟨price_pos.ne', wanted_eq.symm⟩
  have dust_nonneg := t.repaymentDust_nonneg owed debt
  by_cases exceeds : owed < wanted
  · obtain ⟨tracker, burned, price⟩ := t.exists_burned owed counted
    have nothing : t.sharesToAtoms Fixed.zero .roundUp = .ok 0 := by
      rw [sharesToAtoms_roundUp_ok]
      simp
    exact
      ⟨{ atoms := debt
         shares := owed
         tracker
         borrowed := Fixed.zero
         left := 0
         capped := (withdrawAtomsCapped_succeeds _ _ _ _ _ _ _).mpr
          ⟨Or.inl ⟨wanted, converted, exceeds, reported, rfl⟩, burned, price⟩
         enough := within
         owed_eq := by rw [Fixed.zero_bits, zero_add]
         reported := nothing
         left_le := Nat.zero_le _
         dust := by
          have within_rat : (repaid.toNat : ℚ) ≤ debt.toNat := by exact_mod_cast within
          simp only [UInt64.toNat_zero, Nat.cast_zero]
          linarith
         cleared := fun _ => rfl }⟩
  · have owed_ge : wanted.bits ≤ owed.bits := by
      rw [Fixed.lt_def] at exceeds
      omega
    obtain ⟨tracker, burned, price⟩ := t.exists_burned wanted (by omega)
    have wanted_nonneg := wanted.bits_nonneg
    obtain ⟨borrowed, borrowed_eq⟩ := UFixedPoint.exists_bits (owed.bits - wanted.bits) (by omega)
      (by have := owed.bits_lt; omega)
    have less : borrowed.bits * t.atomsPerShare.bits ≤ owed.bits * t.atomsPerShare.bits :=
      mul_le_mul_of_nonneg_right (by omega) price_pos.le
    obtain ⟨left, left_ok⟩ := t.sharesToAtoms_roundUp_succeeds borrowed (by
      have small := ((sharesToAtoms_roundUp_ok _ _ _).mp reported).1
      omega)
    have split : owed.bits = borrowed.bits + wanted.bits := by omega
    exact
      ⟨{ atoms := repaid
         shares := wanted
         tracker
         borrowed
         left
         capped := (withdrawAtomsCapped_succeeds _ _ _ _ _ _ _).mpr
          ⟨Or.inr ⟨converted, exceeds, rfl⟩, burned, price⟩
         enough := le_rfl
         owed_eq := split
         reported := left_ok
         left_le := sharesToAtoms_roundUp_mono t t borrowed owed left debt (by omega) le_rfl
          left_ok reported
         dust := reported_after_conversion _ _ _ reported converted split left_ok
         cleared := by
          intro paid
          obtain ⟨wanted', converted', enough⟩ := (t.paidBy_iff owed repaid).mp paid
          obtain rfl := Except.ok.inj (converted.symm.trans converted')
          have none : borrowed.bits = 0 := by omega
          rw [reported_zero_iff _ _ _ left_ok, none, zero_mul]
          norm_num }⟩

end SharesTracker

/-! The health that a liquidation leaves. -/

def Market.Below (m : Market) (collateralOracle supplyOracle : OracleRate) (limit : IFixedPoint)
    (debt collateral : U64) : Prop :=
  debt.toNat = 0 ∨
    supplyOracle.exactBorrowValue debt.toNat m.supplyVault.decimals <
      limit.toRat *
        (collateralOracle.exactCollateralValue collateral.toNat m.collateralVault.decimals -
          1 / 2 ^ 48)

theorem IFixedPoint.safeDiv_below {dividend divisor limit : IFixedPoint}
    (nonneg : 0 ≤ dividend.bits) (limit_pos : 0 < limit.bits)
    (ratio : dividend.toRat < limit.toRat * divisor.toRat) :
    ∃ quotient, dividend.safeDiv divisor = .ok quotient ∧ quotient < limit := by
  have ratio_int : dividend.bits * 2 ^ 48 < limit.bits * divisor.bits := by
    rw [Fixed.toRat, Fixed.toRat, Fixed.toRat, i80f48_frac, div_mul_div_comm,
      div_lt_div_iff₀ (by positivity) (by positivity)] at ratio
    have scaled : dividend.bits * (2 ^ 48 * 2 ^ 48) < limit.bits * divisor.bits * 2 ^ 48 := by
      exact_mod_cast ratio
    omega
  have divisor_pos : 0 < divisor.bits := by
    by_contra none
    have product_nonpos := mul_nonpos_of_nonneg_of_nonpos limit_pos.le (not_lt.mp none)
    omega
  have quotient_lt := Int.ediv_lt_of_lt_mul divisor_pos ratio_int
  have quotient_nonneg : 0 ≤ dividend.bits * 2 ^ 48 / divisor.bits :=
    Int.ediv_nonneg (by omega) divisor_pos.le
  have limit_lt := limit.bits_lt
  obtain ⟨quotient, quotient_eq⟩ :=
    IFixedPoint.exists_bits (dividend.bits * 2 ^ 48 / divisor.bits) (by omega) (by omega)
  refine ⟨quotient, ?_, ?_⟩
  · rw [Fixed.safeDiv_ok, i80f48_frac, Int.tdiv_eq_ediv_of_nonneg (by omega)]
    exact ⟨divisor_pos.ne', quotient_eq.symm⟩
  · rw [Fixed.lt_def, quotient_eq]
    exact quotient_lt

theorem Market.health_below {m : Market} {p : BorrowPosition}
    {collateralOracle supplyOracle : OracleRate} {health : BorrowPositionHealth}
    (health_ok : m.borrowPositionHealth p collateralOracle supplyOracle = .ok health)
    (m' : Market) (p' : BorrowPosition)
    (supplyDecimals : m'.supplyVault.decimals = m.supplyVault.decimals)
    (collateralDecimals : m'.collateralVault.decimals = m.collateralVault.decimals)
    {left : U64} (reported : m'.supplyVault.borrowSharesToAtoms p'.borrowedShares = .ok left)
    (left_le : left.toNat ≤ health.borrowedAtoms.toNat)
    (collateral_le : p'.collateralDepositedAtoms.toNat ≤ p.collateralDepositedAtoms.toNat)
    {limit : IFixedPoint} (limit_pos : 0 < limit.bits)
    (below : m.Below collateralOracle supplyOracle limit left p'.collateralDepositedAtoms) :
    ∃ after, m'.borrowPositionHealth p' collateralOracle supplyOracle = .ok after ∧
      after.ltv < limit := by
  obtain ⟨-, borrow_ok, collateral_ok, -, -⟩ :=
    (borrowPositionHealthWithCollateralAtoms_ok _ _ _ _ _ _).mp health_ok
  obtain ⟨debt, debt_ok⟩ := supplyOracle.borrowValue_of_le borrow_ok left_le
  obtain ⟨collateral, held_ok⟩ := collateralOracle.collateralValue_of_le collateral_ok collateral_le
  have debt_nonneg := supplyOracle.borrowValue_nonneg debt_ok
  have debt_ok' := debt_ok
  have held_ok' := held_ok
  rw [← supplyDecimals] at debt_ok'
  rw [← collateralDecimals] at held_ok'
  by_cases worthless : debt.bits = 0
  · refine ⟨⟨Fixed.zero, left, p'.collateralDepositedAtoms, debt, collateral⟩,
      (borrowPositionHealthWithCollateralAtoms_ok _ _ _ _ _ _).mpr
        ⟨reported, debt_ok', held_ok', Or.inl ⟨worthless, rfl⟩, rfl⟩, ?_⟩
    rw [Fixed.lt_def, Fixed.zero_bits]
    exact limit_pos
  · rcases below with none | below
    · have zero := ((supplyOracle.borrowValue_ok _ _ _).mp debt_ok).2.2.2
      rw [none, Nat.cast_zero, mul_zero, Int.zero_ediv] at zero
      exact absurd zero worthless
    · have limit_rat : 0 < limit.toRat := by
        rw [Fixed.toRat]
        have : (0 : ℚ) < limit.bits := by exact_mod_cast limit_pos
        positivity
      have ratio : debt.toRat < limit.toRat * collateral.toRat := by
        have debt_le := (supplyOracle.borrowValue_bounds _ _ _ debt_ok).1
        have held_lt := (collateralOracle.collateralValue_bounds _ _ _ held_ok).2
        calc
          debt.toRat ≤ _ := debt_le
          _ < _ := below
          _ ≤ limit.toRat * collateral.toRat := by
            gcongr
            linarith
      obtain ⟨ltv, ltv_ok, ltv_lt⟩ := IFixedPoint.safeDiv_below debt_nonneg limit_pos ratio
      exact ⟨⟨ltv, left, p'.collateralDepositedAtoms, debt, collateral⟩,
        (borrowPositionHealthWithCollateralAtoms_ok _ _ _ _ _ _).mpr
          ⟨reported, debt_ok', held_ok', Or.inr ⟨worthless, ltv_ok⟩, rfl⟩, ltv_lt⟩

/-- A liquidation without a limit of the caller goes through and leaves an LTV below the one from
which positions are unhealthy. -/
def MarketWith.Heals (collateralOracle supplyOracle : OracleRate) (s : MarketWith BorrowPosition) :
    Prop :=
  ∃ result s' after,
    (liquidate collateralOracle supplyOracle U64.max).Succeeds s result s' ∧
    s'.market.borrowPositionHealth s'.position collateralOracle supplyOracle = .ok after ∧
    after.ltv < s.market.config.ltvConfig.unhealthyLtv

namespace MarketWith

variable {collateralOracle supplyOracle : OracleRate} {s : MarketWith BorrowPosition}
  {health : BorrowPositionHealth} {liquidation : LiquidationResultWithBonus}

structure Booked (s : MarketWith BorrowPosition) (health : BorrowPositionHealth)
    (liquidation : LiquidationResultWithBonus)
    (repayment : s.market.supplyVault.borrowSharesTracker.Repayment s.position.borrowedShares
      health.borrowedAtoms liquidation.borrowedAtomsToRepay) where
  seized : U64
  collateral : U64
  total : U64
  initial : U64
  seized_ok : liquidation.totalCollateralAtomsToLiquidate = .ok seized
  collateral_eq : seized.toNat + collateral.toNat = s.position.collateralDepositedAtoms.toNat
  total_eq : seized.toNat + total.toNat = s.market.collateralVault.totalCollateralAtoms.toNat
  debt : BorrowPosition.DebtAfter repayment.shares s.position.borrowedShares
    s.position.initialBorrowedAtoms initial repayment.borrowed

theorem exists_booked
    (taken_le : liquidation.taken ≤ s.position.collateralDepositedAtoms.toNat)
    (counted : s.position.collateralDepositedAtoms.toNat ≤
      s.market.collateralVault.totalCollateralAtoms.toNat)
    (repayment : s.market.supplyVault.borrowSharesTracker.Repayment s.position.borrowedShares
      health.borrowedAtoms liquidation.borrowedAtomsToRepay) :
    Nonempty (s.Booked health liquidation repayment) := by
  have range := s.position.collateralDepositedAtoms.toNat_lt
  have split := repayment.owed_eq
  obtain ⟨seized, seized_ok, seized_eq⟩ := U64.safeAdd_succeeds
    liquidation.collateralAtomsToLiquidate liquidation.collateralAtomsLiquidationBonus
    (lt_of_le_of_lt taken_le range)
  have taken_eq : liquidation.taken = seized.toNat := seized_eq.symm
  obtain ⟨collateral, -, collateral_eq⟩ := U64.safeSub_succeeds
    s.position.collateralDepositedAtoms seized (by omega)
  obtain ⟨total, -, total_eq⟩ := U64.safeSub_succeeds
    s.market.collateralVault.totalCollateralAtoms seized (by omega)
  obtain ⟨initial, borrowed, debt⟩ := BorrowPosition.debtAfter_of_enough repayment.shares
    s.position.borrowedShares s.position.initialBorrowedAtoms (by
      have nonneg := repayment.borrowed.bits_nonneg
      omega)
  obtain rfl : borrowed = repayment.borrowed := Fixed.ext_bits (by
    have split' := debt.shares_eq
    omega)
  exact ⟨⟨seized, collateral, total, initial, seized_ok, by omega, by omega, debt⟩⟩

def Booked.left {repayment : s.market.supplyVault.borrowSharesTracker.Repayment
      s.position.borrowedShares health.borrowedAtoms liquidation.borrowedAtomsToRepay}
    (booked : s.Booked health liquidation repayment) : MarketWith BorrowPosition :=
  ⟨(s.market.withBorrowTracker repayment.tracker).withCollateral booked.total,
    { s.position with
      initialBorrowedAtoms := booked.initial
      borrowedShares := repayment.borrowed
      collateralDepositedAtoms := booked.collateral }⟩

theorem Booked.reported {repayment : s.market.supplyVault.borrowSharesTracker.Repayment
      s.position.borrowedShares health.borrowedAtoms liquidation.borrowedAtomsToRepay}
    (booked : s.Booked health liquidation repayment) :
    booked.left.market.supplyVault.borrowSharesToAtoms booked.left.position.borrowedShares =
      .ok repayment.left := by
  have price := ((SharesTracker.withdrawAtomsCapped_succeeds _ _ _ _ _ _ _).mp
    repayment.capped).2.2
  have reported := repayment.reported
  rw [SharesTracker.sharesToAtoms, ← price] at reported
  exact reported

/-- A computed liquidation heals a position whose debt and collateral it brings below the unhealthy
LTV. -/
theorem heals_of_plan
    (inactive : s.position.sweptCollateralAtoms = 0)
    (computed_ok : s.market.computeLiquidationResultWithFeeForCollateral s.position
      s.position.collateralDepositedAtoms collateralOracle supplyOracle U64.max =
        .ok (health, liquidation))
    (taken_le : liquidation.taken ≤ s.position.collateralDepositedAtoms.toNat)
    (counted : s.position.collateralDepositedAtoms.toNat ≤
      s.market.collateralVault.totalCollateralAtoms.toNat)
    (repayment : s.market.supplyVault.borrowSharesTracker.Repayment s.position.borrowedShares
      health.borrowedAtoms liquidation.borrowedAtomsToRepay)
    (limit_pos : 0 < s.market.config.ltvConfig.unhealthyLtv.bits)
    (below : ∀ collateral : U64,
      collateral.toNat + liquidation.taken = s.position.collateralDepositedAtoms.toNat →
      s.market.Below collateralOracle supplyOracle s.market.config.ltvConfig.unhealthyLtv
        repayment.left collateral) :
    s.Heals collateralOracle supplyOracle := by
  obtain ⟨health_ok, unhealthy, -⟩ :=
    (Market.computeLiquidationResultWithFeeForCollateral_ok _ _ _ _ _ _ _ _).mp computed_ok
  obtain ⟨booked⟩ := exists_booked taken_le counted repayment
  have collateral_eq := booked.collateral_eq
  have taken_eq : liquidation.taken = booked.seized.toNat :=
    (LiquidationResultWithBonus.totalCollateralAtomsToLiquidate_ok _ _).mp booked.seized_ok
  have kept : liquidation.adjustForMaxRepay repayment.atoms = liquidation := by
    apply if_neg
    rw [UInt64.lt_iff_toNat_lt]
    exact not_lt.mpr repayment.enough
  have less : booked.collateral.toNat ≤ s.position.collateralDepositedAtoms.toNat := by omega
  obtain ⟨after, after_ok, after_lt⟩ := Market.health_below health_ok booked.left.market
    booked.left.position rfl rfl booked.reported repayment.left_le less limit_pos
    (below booked.collateral (by omega))
  refine ⟨⟨liquidation, health, after⟩, booked.left, after,
    (liquidate_succeeds _ _ _ _ _ _).mpr ⟨?_⟩, after_ok, after_lt⟩
  exact
    { computed := liquidation
      atoms := repayment.atoms
      shares := repayment.shares
      tracker := repayment.tracker
      seized := booked.seized
      initial := booked.initial
      borrowed := repayment.borrowed
      collateral := booked.collateral
      total := booked.total
      inactive
      computed_ok
      capped := repayment.capped
      liquidation_eq := kept.symm
      seized_ok := by rw [kept]; exact booked.seized_ok
      debt := booked.debt
      collateral_eq
      total_eq := booked.total_eq
      final := rfl
      health_ok := after_ok
      decreased := by
        rw [Fixed.lt_def] at unhealthy after_lt ⊢
        dsimp only
        omega }

end MarketWith

end AutaraLending
