import AutaraLending.LiquidationBounds
import AutaraLending.LimitChecks
import AutaraLending.BadDebt

/-! How a liquidation moves the LTV of a solvent position: the check that the LTV does not rise,
and when a liquidation for all it can take makes the position healthy again. -/

namespace AutaraLending

open Support

/-! Neither the computations nor the bookkeeping of a liquidation raise the error of its check. -/

theorem positivePowerOfTen_avoids (error : LendingError) (decimals : UInt8) :
    Avoids error (positivePowerOfTen decimals) := by
  unfold positivePowerOfTen
  split
  · exact avoids_ok _
  · exact avoids_panic

def LendingError.OfLiquidationCheck (error : LendingError) : Prop :=
  error = .invalidLiquidationLtvShouldDecrease ∨ error = .capitalSweepDidNotMeetRequirements

theorem valueAtRate_avoids {error : LendingError} (check : error.OfLiquidationCheck)
    (rate : LendingResult IFixedPoint) (amount : U64) (decimals : UInt8)
    (bounded : Avoids error rate) : Avoids error (OracleRate.valueAtRate rate amount decimals) := by
  rcases check with rfl | rfl <;>
    simp [OracleRate.valueAtRate, bounded, Fixed.safeMulU64, Fixed.safeDiv,
      positivePowerOfTen_avoids]

theorem atomsAtRate_avoids (rate : LendingResult IFixedPoint) (value : IFixedPoint)
    (decimals : UInt8) (bounded : Avoids .invalidLiquidationLtvShouldDecrease rate) :
    Avoids .invalidLiquidationLtvShouldDecrease
      (OracleRate.atomsAtRate rate value decimals) := by
  simp [OracleRate.atomsAtRate, bounded, Fixed.safeMul, Fixed.safeDiv, positivePowerOfTen_avoids]

theorem health_avoids {error : LendingError} (check : error.OfLiquidationCheck) (m : Market)
    (p : BorrowPosition) (collateralAtoms : U64) (collateralOracle supplyOracle : OracleRate) :
    Avoids error
      (m.borrowPositionHealthWithCollateralAtoms p collateralAtoms collateralOracle
        supplyOracle) := by
  have value := valueAtRate_avoids check
  rcases check with rfl | rfl <;>
    simp [Market.borrowPositionHealthWithCollateralAtoms, SupplyVault.borrowSharesToAtoms,
      SharesTracker.sharesToAtoms, OracleRate.borrowValue, OracleRate.collateralValue,
      OracleRate.lowerBoundRate, OracleRate.upperBoundRate, value, Fixed.safeMul, Fixed.safeAdd,
      Fixed.safeSub, Fixed.safeDiv, Fixed.asU64Rounded]

theorem computeLiquidationWithFee_avoids (borrowedAtoms : U64) (borrowDecimals : UInt8)
    (supplyOracle : OracleRate) (collateralAtoms : U64) (collateralDecimals : UInt8)
    (collateralOracle : OracleRate) (newLtv liquidationFee : IFixedPoint) (maxRepayAtoms : U64) :
    Avoids .invalidLiquidationLtvShouldDecrease
      (computeLiquidationWithFee borrowedAtoms borrowDecimals supplyOracle collateralAtoms
        collateralDecimals collateralOracle newLtv liquidationFee maxRepayAtoms) := by
  simp [computeLiquidationWithFee, computeLiquidation, liquidationBonus, OracleRate.borrowValue,
    OracleRate.collateralValue, OracleRate.borrowAtoms, OracleRate.collateralAtoms,
    OracleRate.lowerBoundRate, OracleRate.upperBoundRate, valueAtRate_avoids (Or.inl rfl),
    atomsAtRate_avoids,
    Fixed.safeMul, Fixed.safeAdd, Fixed.safeSub, Fixed.safeDiv, Fixed.asU64RoundedUp,
    Fixed.asU64RoundedDown, U64.safeMulIFixed, U64.safeDivIFixed, U64.safeAdd, U64.safeSub]

theorem computeLiquidationResultWithFee_avoids (m : Market) (p : BorrowPosition)
    (collateralOracle supplyOracle : OracleRate) (maxRepayAtoms : U64) :
    Avoids .invalidLiquidationLtvShouldDecrease
      (m.computeLiquidationResultWithFee p collateralOracle supplyOracle maxRepayAtoms) := by
  simp [Market.computeLiquidationResultWithFee, BorrowPosition.ensureCapitalSweepInactive,
    Market.computeLiquidationResultWithFeeForCollateral, health_avoids (Or.inl rfl),
    computeLiquidationWithFee_avoids, LendingError.into]

theorem burn_avoids (shares : UFixedPoint) :
    MethodAvoids .invalidLiquidationLtvShouldDecrease (SharesTracker.burn shares) :=
  .bind .self fun _ => .bind (.lift (by simp)) fun _ => .assign _

theorem withdrawAtomsCapped_avoids (atoms : U64) (maxShares : UFixedPoint) :
    MethodAvoids .invalidLiquidationLtvShouldDecrease
      (SharesTracker.withdrawAtomsCapped atoms maxShares .roundUp) := by
  refine .bind .self fun self => .bind (.lift ?_) fun shares => .ite _ ?_ ?_
  · simp [SharesTracker.atomsToShares, Fixed.safeDiv]
  · refine .bind (.lift ?_) fun _ => .bind (burn_avoids _) fun _ => .pure _
    simp [SharesTracker.sharesToAtoms, Fixed.safeMul, Fixed.asU64Rounded]
  · exact .bind (burn_avoids _) fun _ => .pure _

theorem repay_avoids {error : LendingError} (check : error.OfLiquidationCheck)
    (shares : UFixedPoint) : MethodAvoids error (BorrowPosition.repay shares) := by
  have exceeded : LendingError.repayExceedsBorrowed ≠ error := by
    rcases check with rfl | rfl <;> decide
  refine .bind .self fun self => .ite _ ?_ (.ite _ ?_ (.fail exceeded))
  · refine .bind (.lift ?_) fun _ => .bind (.lift ?_) fun _ => .bind (.assign _) fun _ =>
      .bind (.lift ?_) fun _ => .assign _
    · rcases check with rfl | rfl <;>
        simp [proportionalAtoms, Fixed.safeDiv, Fixed.safeMulU64, Fixed.asU64RoundedDown]
    · rcases check with rfl | rfl <;> simp [U64.safeSub]
    · rcases check with rfl | rfl <;> simp [Fixed.safeSub]
  · exact .bind .self fun _ => .assign _

namespace MarketWith

theorem ensureCapitalSweepInactive_avoids :
    MethodAvoids .invalidLiquidationLtvShouldDecrease ensureCapitalSweepInactive :=
  .bind .self fun _ => .lift (by simp [BorrowPosition.ensureCapitalSweepInactive,
    LendingError.into])

theorem repayAtomsCapped_avoids (atoms : U64) (maxShares : UFixedPoint) :
    MethodAvoids .invalidLiquidationLtvShouldDecrease
      (onMarket (Market.onSupplyVault (SupplyVault.repayAtomsCapped atoms maxShares)) :
        LendingMethod (MarketWith BorrowPosition) _) :=
  .zoom _ _ (.zoom _ _ (.zoom _ _ (withdrawAtomsCapped_avoids _ _)))

theorem positionLiquidate_avoids (shares : UFixedPoint) (seized : U64) :
    MethodAvoids .invalidLiquidationLtvShouldDecrease
      (onPosition (BorrowPosition.liquidate shares seized)) :=
  .zoom _ _ (.bind (repay_avoids (Or.inl rfl) _) fun _ => .bind .self fun _ =>
    .bind (.lift (by simp [U64.safeSub])) fun _ => .assign _)

theorem vaultWithdraw_avoids (atoms : U64) :
    MethodAvoids .invalidLiquidationLtvShouldDecrease
      (onMarket (Market.onCollateralVault (CollateralVault.withdrawCollateral atoms)) :
        LendingMethod (MarketWith BorrowPosition) _) :=
  .zoom _ _ (.zoom _ _ (.bind .self fun _ => .bind (.lift (by simp [U64.safeSub])) fun _ =>
    .assign _))

structure Raised (collateralOracle supplyOracle : OracleRate) (maxRepayAtoms : U64)
    (s : MarketWith BorrowPosition) where
  before : BorrowPositionHealth
  computed : LiquidationResultWithBonus
  atoms : U64
  shares : UFixedPoint
  tracker : SharesTracker
  left : MarketWith BorrowPosition
  after : BorrowPositionHealth
  computed_ok : s.market.computeLiquidationResultWithFee s.position collateralOracle supplyOracle
    maxRepayAtoms = .ok (before, computed)
  capped : (SharesTracker.withdrawAtomsCapped computed.borrowedAtomsToRepay
    s.position.borrowedShares .roundUp).Succeeds s.market.supplyVault.borrowSharesTracker
      (atoms, shares) tracker
  tracker_eq : left.market.supplyVault.borrowSharesTracker = tracker
  supplyDecimals_eq : left.market.supplyVault.decimals = s.market.supplyVault.decimals
  collateralDecimals_eq : left.market.collateralVault.decimals = s.market.collateralVault.decimals
  shares_eq : s.position.borrowedShares.bits = left.position.borrowedShares.bits + shares.bits
  collateral_eq : s.position.collateralDepositedAtoms.toNat =
    left.position.collateralDepositedAtoms.toNat + (computed.adjustForMaxRepay atoms).taken
  after_ok : left.market.borrowPositionHealth left.position collateralOracle supplyOracle =
    .ok after
  raised : before.ltv < after.ltv

theorem raised_of_liquidate_fails (collateralOracle supplyOracle : OracleRate) (maxRepayAtoms : U64)
    (s : MarketWith BorrowPosition) (failure : Failure)
    (fails : (liquidate collateralOracle supplyOracle maxRepayAtoms).Fails s failure)
    (kind : failure.is .invalidLiquidationLtvShouldDecrease) :
    Nonempty (Raised collateralOracle supplyOracle maxRepayAtoms s) := by
  obtain ⟨_, s₁, inactive, guarded⟩ := ensureCapitalSweepInactive_avoids.resume kind fails
  obtain ⟨-, rfl⟩ := (ensureCapitalSweepInactive_succeeds _ _ _).mp inactive
  obtain ⟨_, _, same, read⟩ := MethodAvoids.self.resume kind guarded
  obtain ⟨rfl, rfl⟩ := (Method.succeeds_self _ _ _).mp same
  obtain ⟨⟨before, computed⟩, _, plan_ok, planned⟩ := MethodAvoids.resume
    (.lift (computeLiquidationResultWithFee_avoids _ _ _ _ _)) kind read
  obtain ⟨computed_ok, rfl⟩ := (Method.succeeds_lift _ _ _ _).mp plan_ok
  obtain ⟨⟨atoms, shares⟩, repaid, repaid_ok, paid⟩ :=
    (repayAtomsCapped_avoids _ _).resume kind planned
  obtain ⟨seized, _, sum_ok, summed⟩ := MethodAvoids.resume
    (.lift (by simp [LiquidationResultWithBonus.totalCollateralAtomsToLiquidate, U64.safeAdd])) kind
    paid
  obtain ⟨seized_ok, rfl⟩ := (Method.succeeds_lift _ _ _ _).mp sum_ok
  obtain ⟨_, reduced, reduced_ok, debited⟩ :=
    (positionLiquidate_avoids _ _).resume kind summed
  obtain ⟨_, left, left_ok, withdrawn⟩ := (vaultWithdraw_avoids _).resume kind debited
  rcases (Method.fails_bind _ _ _ _).mp withdrawn with checked | ⟨_, _, -, impossible⟩
  · obtain ⟨_, _, same, checking⟩ := MethodAvoids.self.resume kind checked
    obtain ⟨rfl, rfl⟩ := (Method.succeeds_self _ _ _).mp same
    obtain ⟨after, _, health_ok, compared⟩ := MethodAvoids.resume
      (.lift (health_avoids (Or.inl rfl) _ _ _ _ _)) kind checking
    obtain ⟨after_ok, rfl⟩ := (Method.succeeds_lift _ _ _ _).mp health_ok
    rcases (Method.fails_bind _ _ _ _).mp compared with rejected | ⟨_, _, -, impossible⟩
    · obtain ⟨raised, -⟩ := (Method.fails_rejectIf _ _ _ _).mp rejected
      simp only [SupplyVault.repayAtomsCapped, onMarket_succeeds,
        Market.borrowTracker_succeeds] at repaid_ok
      simp only [onPosition_succeeds, BorrowPosition.liquidate_succeeds,
        BorrowPosition.repay_succeeds] at reduced_ok
      simp only [onMarket_succeeds, Market.withdrawCollateral_succeeds] at left_ok
      obtain ⟨_, ⟨tracker, capped, rfl⟩, rfl⟩ := repaid_ok
      obtain ⟨_, ⟨_, collateral, ⟨initial, borrowed, debt, rfl⟩, collateral_eq, rfl⟩, rfl⟩ :=
        reduced_ok
      obtain ⟨_, ⟨total, -, rfl⟩, rfl⟩ := left_ok
      have taken_eq := (LiquidationResultWithBonus.totalCollateralAtomsToLiquidate_ok _ _).mp
        seized_ok
      exact
        ⟨{ before, computed, atoms, shares, tracker, after, computed_ok, capped, after_ok, raised
           left := ⟨(s₁.market.withBorrowTracker tracker).withCollateral total,
            { s₁.position with
              initialBorrowedAtoms := initial
              borrowedShares := borrowed
              collateralDepositedAtoms := collateral }⟩
           tracker_eq := rfl
           supplyDecimals_eq := rfl
           collateralDecimals_eq := rfl
           shares_eq := debt.shares_eq
           collateral_eq := by
            dsimp only at taken_eq collateral_eq ⊢
            omega }⟩
    · exact absurd impossible (Method.fails_pure _ _ _).mp
  · exact absurd impossible (Method.fails_pure _ _ _).mp

end MarketWith

def SharesTracker.reportedAfter (t : SharesTracker) (owed : UFixedPoint) (repaid : U64) : Int :=
  let left := (owed.bits - repaid.toNat * 2 ^ 128 / t.atomsPerShare.bits) * t.atomsPerShare.bits
  if left / 2 ^ 64 % 2 ^ 64 = 0 then left / 2 ^ 128 else min (left / 2 ^ 128 + 1) (2 ^ 64 - 1)

theorem SharesTracker.reportedAfter_eq {t : SharesTracker} {owed left shares : UFixedPoint}
    {repaid debt' : U64} (converted : t.atomsToShares repaid = .ok shares)
    (split : owed.bits = left.bits + shares.bits)
    (reported' : t.sharesToAtoms left .roundUp = .ok debt') :
    (debt'.toNat : Int) = t.reportedAfter owed repaid := by
  have burned := ((atomsToShares_ok _ _ _).mp converted).2
  have left_eq : owed.bits - repaid.toNat * 2 ^ 128 / t.atomsPerShare.bits = left.bits := by omega
  rw [((sharesToAtoms_roundUp_ok _ _ _).mp reported').2, reportedAfter, left_eq]

def BorrowPositionHealth.Consistent (health : BorrowPositionHealth) : Prop :=
  0 ≤ health.borrowValue.bits ∧ 0 ≤ health.collateralValue.bits ∧
    ((health.borrowValue.bits = 0 ∧ health.ltv.bits = 0) ∨
      (health.borrowValue.bits ≠ 0 ∧ 0 < health.collateralValue.bits ∧
        health.ltv.bits = health.borrowValue.bits * 2 ^ 48 / health.collateralValue.bits))

theorem Market.health_consistent {m : Market} {p : BorrowPosition} {collateralAtoms : U64}
    {collateralOracle supplyOracle : OracleRate} {health : BorrowPositionHealth}
    (health_ok : m.borrowPositionHealthWithCollateralAtoms p collateralAtoms collateralOracle
      supplyOracle = .ok health) : health.Consistent := by
  obtain ⟨-, borrow_ok, collateral_ok, ltv_ok, -⟩ :=
    (borrowPositionHealthWithCollateralAtoms_ok _ _ _ _ _ _).mp health_ok
  have debt_nonneg := supplyOracle.borrowValue_nonneg borrow_ok
  have collateral_nonneg := collateralOracle.collateralValue_nonneg collateral_ok
  refine ⟨debt_nonneg, collateral_nonneg, ?_⟩
  rcases ltv_ok with ⟨none, zero⟩ | ⟨some, divided⟩
  · exact Or.inl ⟨none, by rw [zero, Fixed.zero_bits]⟩
  · obtain ⟨nonzero, quotient⟩ := (Fixed.safeDiv_ok _ _ _).mp divided
    rw [i80f48_frac, Int.tdiv_eq_ediv_of_nonneg (by positivity)] at quotient
    exact Or.inr ⟨some, by omega, quotient.symm⟩

theorem BorrowPositionHealth.ltv_le {before after : BorrowPositionHealth}
    (consistent : before.Consistent) (consistent' : after.Consistent)
    (owes : before.ltv.bits ≠ 0)
    (ratio : after.borrowValue.bits * before.collateralValue.bits ≤
      before.borrowValue.bits * after.collateralValue.bits) :
    after.ltv.bits ≤ before.ltv.bits := by
  obtain ⟨debt_nonneg, -, ⟨-, zero⟩ | ⟨-, positive, ltv_eq⟩⟩ := consistent
  · exact absurd zero owes
  obtain ⟨-, -, ⟨-, zero'⟩ | ⟨-, positive', ltv_eq'⟩⟩ := consistent'
  · have nonneg : 0 ≤ before.ltv.bits := by
      rw [ltv_eq]
      exact Int.ediv_nonneg (by omega) positive.le
    omega
  · have cut := Int.ediv_mul_le (after.borrowValue.bits * 2 ^ 48) positive'.ne'
    rw [← ltv_eq'] at cut
    rw [ltv_eq, Int.le_ediv_iff_mul_le positive]
    apply le_of_mul_le_mul_right _ positive'
    calc
      after.ltv.bits * before.collateralValue.bits * after.collateralValue.bits
          = after.ltv.bits * after.collateralValue.bits * before.collateralValue.bits := by ring
      _ ≤ after.borrowValue.bits * 2 ^ 48 * before.collateralValue.bits := by gcongr
      _ = after.borrowValue.bits * before.collateralValue.bits * 2 ^ 48 := by ring
      _ ≤ before.borrowValue.bits * after.collateralValue.bits * 2 ^ 48 := by gcongr
      _ = before.borrowValue.bits * 2 ^ 48 * after.collateralValue.bits := by ring

theorem ratio_kept {debt collateral debt' collateral' repaid taken ratio : ℚ}
    (debt_le : debt' ≤ debt - repaid) (collateral_ge : collateral - taken ≤ collateral')
    (ratio_ge : debt ≤ ratio * collateral) (paid : ratio * taken ≤ repaid)
    (debt_nonneg : 0 ≤ debt) (collateral_nonneg : 0 ≤ collateral) (taken_nonneg : 0 ≤ taken) :
    debt' * collateral ≤ debt * collateral' := by
  calc
    debt' * collateral ≤ (debt - repaid) * collateral := by gcongr
    _ = debt * collateral - repaid * collateral := by ring
    _ ≤ debt * collateral - ratio * taken * collateral := by gcongr
    _ = debt * collateral - ratio * collateral * taken := by ring
    _ ≤ debt * collateral - debt * taken := by gcongr
    _ = debt * (collateral - taken) := by ring
    _ ≤ debt * collateral' := by gcongr

/-- The reported debt falls by at least the part of the taken collateral that the LTV measures, up
to what values are cut by. -/
def Market.Worthwhile (m : Market) (p : BorrowPosition) (collateralOracle supplyOracle : OracleRate)
    (health : BorrowPositionHealth) (liquidation : LiquidationResultWithBonus) : Prop :=
  (health.ltv.toRat + 1 / 2 ^ 48) *
      (collateralOracle.exactCollateralValue liquidation.taken m.collateralVault.decimals +
        1 / 2 ^ 48) + 1 / 2 ^ 48 ≤
    supplyOracle.exactBorrowValue
      (health.borrowedAtoms.toNat - m.supplyVault.borrowSharesTracker.reportedAfter
        p.borrowedShares liquidation.borrowedAtomsToRepay) m.supplyVault.decimals

instance (m : Market) (p : BorrowPosition) (collateralOracle supplyOracle : OracleRate)
    (health : BorrowPositionHealth) (liquidation : LiquidationResultWithBonus) :
    Decidable (m.Worthwhile p collateralOracle supplyOracle health liquidation) :=
  inferInstanceAs (Decidable (_ ≤ _))

namespace MarketWith.Raised

variable {collateralOracle supplyOracle : OracleRate} {maxRepayAtoms : U64}
  {s : MarketWith BorrowPosition}

theorem computed_eq (raised : Raised collateralOracle supplyOracle maxRepayAtoms s) :
    s.market.computeLiquidationResultWithFeeForCollateral s.position
      s.position.collateralDepositedAtoms collateralOracle supplyOracle maxRepayAtoms =
        .ok (raised.before, raised.computed) :=
  ((computeLiquidationResultWithFee_ok _ _ _ _ _ _).mp raised.computed_ok).2

theorem before_ok (raised : Raised collateralOracle supplyOracle maxRepayAtoms s) :
    s.market.borrowPositionHealth s.position collateralOracle supplyOracle = .ok raised.before :=
  ((Market.computeLiquidationResultWithFeeForCollateral_ok _ _ _ _ _ _ _ _).mp
    raised.computed_eq).1

theorem not_cleared (raised : Raised collateralOracle supplyOracle maxRepayAtoms s) :
    raised.after.borrowedAtoms.toNat ≠ 0 := by
  intro none
  obtain ⟨-, borrow_ok, -, ltv_ok, -⟩ :=
    (Market.borrowPositionHealthWithCollateralAtoms_ok _ _ _ _ _ _).mp raised.after_ok
  obtain ⟨-, -, -, value_eq⟩ := (supplyOracle.borrowValue_ok _ _ _).mp borrow_ok
  have nonneg := Market.health_ltv_nonneg raised.before_ok
  have higher := raised.raised
  have worthless : raised.after.borrowValue.bits = 0 := by
    rw [value_eq, none]
    simp
  rcases ltv_ok with ⟨-, zero⟩ | ⟨some, -⟩
  · rw [zero, Fixed.lt_def, Fixed.zero_bits] at higher
    omega
  · exact some worthless

theorem debt_eq (raised : Raised collateralOracle supplyOracle maxRepayAtoms s) :
    (raised.after.borrowedAtoms.toNat : Int) =
      s.market.supplyVault.borrowSharesTracker.reportedAfter s.position.borrowedShares
        raised.computed.borrowedAtomsToRepay := by
  obtain ⟨repayment, -, price⟩ :=
    (SharesTracker.withdrawAtomsCapped_succeeds _ _ _ _ _ _ _).mp raised.capped
  have reported' : s.market.supplyVault.borrowSharesTracker.sharesToAtoms
      raised.left.position.borrowedShares .roundUp = .ok raised.after.borrowedAtoms := by
    have left_ok := ((Market.borrowPositionHealthWithCollateralAtoms_ok _ _ _ _ _ _).mp
      raised.after_ok).1
    rw [SupplyVault.borrowSharesToAtoms, raised.tracker_eq, SharesTracker.sharesToAtoms, price]
      at left_ok
    exact left_ok
  rcases repayment with ⟨-, -, -, -, all⟩ | ⟨converted, -, -⟩
  · -- all shares are burned, so that nothing is owed and the LTV is zero
    have split := raised.shares_eq
    rw [all] at split
    have none : raised.left.position.borrowedShares.bits = 0 := by omega
    have cleared := (SharesTracker.reported_zero_iff _ _ _ reported').mpr (by rw [none]; norm_num)
    exact absurd cleared raised.not_cleared
  · exact SharesTracker.reportedAfter_eq converted raised.shares_eq reported'

theorem borrowValue_le (raised : Raised collateralOracle supplyOracle maxRepayAtoms s) :
    raised.after.borrowValue.toRat ≤ raised.before.borrowValue.toRat -
      (supplyOracle.exactBorrowValue
        (raised.before.borrowedAtoms.toNat - s.market.supplyVault.borrowSharesTracker.reportedAfter
          s.position.borrowedShares raised.computed.borrowedAtomsToRepay)
        s.market.supplyVault.decimals - 1 / 2 ^ 48) := by
  obtain ⟨-, borrow_ok, -⟩ :=
    (Market.borrowPositionHealthWithCollateralAtoms_ok _ _ _ _ _ _).mp raised.before_ok
  obtain ⟨-, borrow_ok', -⟩ :=
    (Market.borrowPositionHealthWithCollateralAtoms_ok _ _ _ _ _ _).mp raised.after_ok
  rw [raised.supplyDecimals_eq] at borrow_ok'
  have debt_lt := (supplyOracle.borrowValue_bounds _ _ _ borrow_ok).2
  have debt_le' := (supplyOracle.borrowValue_bounds _ _ _ borrow_ok').1
  rw [OracleRate.exactBorrowValue_mul] at debt_lt debt_le'
  rw [← raised.debt_eq, OracleRate.exactBorrowValue_mul, Int.cast_natCast, sub_mul]
  linarith

theorem collateralValue_ge (raised : Raised collateralOracle supplyOracle maxRepayAtoms s) :
    raised.before.collateralValue.toRat -
        (collateralOracle.exactCollateralValue raised.computed.taken
          s.market.collateralVault.decimals + 1 / 2 ^ 48) ≤
      raised.after.collateralValue.toRat := by
  obtain ⟨-, -, collateral_ok, -, same⟩ :=
    (Market.borrowPositionHealthWithCollateralAtoms_ok _ _ _ _ _ _).mp raised.before_ok
  obtain ⟨-, -, collateral_ok', -⟩ :=
    (Market.borrowPositionHealthWithCollateralAtoms_ok _ _ _ _ _ _).mp raised.after_ok
  rw [raised.collateralDecimals_eq] at collateral_ok'
  have collateral_le := (collateralOracle.collateralValue_bounds _ _ _ collateral_ok).1
  have collateral_lt' := (collateralOracle.collateralValue_bounds _ _ _ collateral_ok').2
  rw [OracleRate.exactCollateralValue_mul] at collateral_le collateral_lt' ⊢
  have split := raised.collateral_eq
  have less := raised.computed.adjustForMaxRepay_taken_le raised.atoms
  have whole : (s.position.collateralDepositedAtoms.toNat : ℚ) ≤
      raised.left.position.collateralDepositedAtoms.toNat + raised.computed.taken := by
    exact_mod_cast (by omega)
  have scaled := mul_le_mul_of_nonneg_right whole
    (collateralOracle.exactCollateralValue_nonneg zero_le_one s.market.collateralVault.decimals)
  linarith

theorem borrowValue_le_ltv (raised : Raised collateralOracle supplyOracle maxRepayAtoms s)
    (sound : s.market.config.ltvConfig.Sound) :
    raised.before.ltv.bits ≠ 0 ∧ raised.before.borrowValue.toRat ≤
      (raised.before.ltv.toRat + 1 / 2 ^ 48) * raised.before.collateralValue.toRat := by
  obtain ⟨-, unhealthy, -⟩ :=
    (Market.computeLiquidationResultWithFeeForCollateral_ok _ _ _ _ _ _ _ _).mp raised.computed_eq
  obtain ⟨-, borrow_ok, collateral_ok, ltv_ok, -⟩ :=
    (Market.borrowPositionHealthWithCollateralAtoms_ok _ _ _ _ _ _).mp raised.before_ok
  have owes : raised.before.ltv.bits ≠ 0 := by
    have nonneg := sound.maxLtv_nonneg
    have ordered := sound.maxLtv_lt
    rw [Fixed.lt_def] at unhealthy
    omega
  refine ⟨owes, ?_⟩
  rcases ltv_ok with ⟨-, zero⟩ | ⟨-, divided⟩
  · rw [zero, Fixed.zero_bits] at owes
    exact absurd rfl owes
  · exact (IFixedPoint.lt_next_mul _ _ _ (supplyOracle.borrowValue_nonneg borrow_ok)
      (collateralOracle.collateralValue_nonneg collateral_ok) divided).le

/-- A worthwhile repayment is never stopped by the check. -/
theorem not_worthwhile (raised : Raised collateralOracle supplyOracle maxRepayAtoms s)
    (sound : s.market.config.ltvConfig.Sound) :
    ¬ s.market.Worthwhile s.position collateralOracle supplyOracle raised.before
      raised.computed := by
  intro worthwhile
  obtain ⟨owes, ratio_ge⟩ := raised.borrowValue_le_ltv sound
  have consistent := Market.health_consistent raised.before_ok
  have consistent' := Market.health_consistent raised.after_ok
  have taken_nonneg := collateralOracle.exactCollateralValue_nonneg
    (Nat.cast_nonneg raised.computed.taken) s.market.collateralVault.decimals
  have ratio := ratio_kept raised.borrowValue_le raised.collateralValue_ge ratio_ge
    (le_sub_iff_add_le.mpr worthwhile) (Fixed.toRat_nonneg.mpr consistent.1)
    (Fixed.toRat_nonneg.mpr consistent.2.1) (add_nonneg taken_nonneg (by norm_num))
  have kept := BorrowPositionHealth.ltv_le consistent consistent' owes (Fixed.mul_bits_le.mp ratio)
  have higher := raised.raised
  rw [Fixed.lt_def] at higher
  omega

end MarketWith.Raised

namespace Ledger

variable {σ β : Type} [DecidableEq σ] [DecidableEq β]

/-- Repaying part of an unhealthy solvent position's debt is never stopped by the check that the LTV
must not rise, as long as the reported debt falls by what the taken collateral is worth at that LTV;
and this collateral is worth no more than the repayment and its bonus. -/
theorem partial_liquidation_allowed (l : Ledger σ β) (reachable : l.Reachable) (key : β)
    (collateralOracle supplyOracle : OracleRate) (health : BorrowPositionHealth)
    (health_ok : l.market.borrowPositionHealth (l.borrowPositions key) collateralOracle
      supplyOracle = .ok health)
    (solvent : health.ltv < Fixed.one) (maxRepayAtoms : U64) :
    (∀ liquidation,
      l.market.computeLiquidationResultWithFee (l.borrowPositions key) collateralOracle
        supplyOracle maxRepayAtoms = .ok (health, liquidation) →
      collateralOracle.exactCollateralValue liquidation.taken l.market.collateralVault.decimals ≤
        (1 + l.market.config.ltvConfig.liquidationBonus.toRat) *
          supplyOracle.exactBorrowValue (liquidation.borrowedAtomsToRepay.toNat +
            repaymentSlack (targetRepayment health.borrowedAtoms l.market.supplyVault.decimals
              supplyOracle health.collateralAtoms l.market.collateralVault.decimals collateralOracle
              l.market.config.ltvConfig.targetLtvAfterLiquidation
              l.market.config.ltvConfig.liquidationBonus)) l.market.supplyVault.decimals) ∧
    ((∀ liquidation,
      l.market.computeLiquidationResultWithFee (l.borrowPositions key) collateralOracle
        supplyOracle maxRepayAtoms = .ok (health, liquidation) →
      l.market.Worthwhile (l.borrowPositions key) collateralOracle supplyOracle health
        liquidation) →
    ¬ ∃ failure, (MarketWith.liquidate collateralOracle supplyOracle maxRepayAtoms).Fails
      (l.borrowView key) failure ∧ failure.is .invalidLiquidationLtvShouldDecrease) := by
  have sound := reachable.configSound.ltv
  constructor
  · intro liquidation computed
    have fee_nonneg : 0 ≤ l.market.config.ltvConfig.liquidationBonus.bits :=
      le_trans (by decide) sound.bonus_ge
    exact (Market.computed_protected fee_nonneg
      ((MarketWith.computeLiquidationResultWithFee_ok _ _ _ _ _ _).mp computed).2).solvent solvent
  · rintro worthwhile ⟨failure, fails, kind⟩
    obtain ⟨raised⟩ := MarketWith.raised_of_liquidate_fails _ _ _ _ _ fails kind
    obtain rfl := Except.ok.inj (health_ok.symm.trans raised.before_ok)
    exact raised.not_worthwhile sound (worthwhile _ raised.computed_ok)

theorem lowered_small_loan_partly_liquidated :
    (¬ ∃ failure, (MarketWith.liquidate loweredRate .par 1).Fails
        (((smallLedger .newAdaptive).run smallLoan).borrowView ()) failure ∧
          failure.is .invalidLiquidationLtvShouldDecrease) ∧
      ¬ ∃ failure, (MarketWith.liquidate loweredRate .par 100).Fails
        (((smallLedger .newAdaptive).run smallLoan).borrowView ()) failure ∧
          failure.is .invalidLiquidationLtvShouldDecrease := by
  have allowed := partial_liquidation_allowed ((smallLedger .newAdaptive).run smallLoan)
    ⟨_, _, smallLoan, smallLedger_adaptive_opened, rfl⟩ () loweredRate .par loweredHealth
    (by decide +kernel) (by decide +kernel)
  refine ⟨(allowed 1).2 fun other computed => ?_, (allowed 100).2 fun other computed => ?_⟩
  · have evaluated : ((smallLedger .newAdaptive).run
        smallLoan).market.computeLiquidationResultWithFee
          (((smallLedger .newAdaptive).run smallLoan).borrowPositions ()) loweredRate .par 1 =
        .ok (loweredHealth, ⟨1, 1, 0⟩) := by decide +kernel
    obtain rfl := congrArg Prod.snd (Except.ok.inj (evaluated.symm.trans computed))
    decide +kernel
  · have evaluated : ((smallLedger .newAdaptive).run
        smallLoan).market.computeLiquidationResultWithFee
          (((smallLedger .newAdaptive).run smallLoan).borrowPositions ()) loweredRate .par 100 =
        .ok (loweredHealth, ⟨100, 142, 7⟩) := by decide +kernel
    obtain rfl := congrArg Prod.snd (Except.ok.inj (evaluated.symm.trans computed))
    decide +kernel

def nearParRate : OracleRate := .exact (.lit 62 2) (by decide)

def dustyRate : OracleRate := .exact (.lit 95 3) (by decide)

theorem partial_liquidation_refused :
    (((smallLedger .newAdaptive).run smallLoan).Reachable ∧
      (∃ health, ((smallLedger .newAdaptive).run smallLoan).market.borrowPositionHealth
          (((smallLedger .newAdaptive).run smallLoan).borrowPositions ()) nearParRate .par =
            .ok health ∧ ¬ health.ltv < ((smallLedger .newAdaptive).run
              smallLoan).market.config.ltvConfig.unhealthyLtv ∧
          health.ltv < Fixed.one ∧ health.borrowedAtoms = 600) ∧
      (MarketWith.liquidate nearParRate .par 100).Fails
        (((smallLedger .newAdaptive).run smallLoan).borrowView ())
        LendingError.invalidLiquidationLtvShouldDecrease.into) ∧
    ((smallLedger .newAdaptive).run dustyLoan).Reachable ∧
      (∃ health, ((smallLedger .newAdaptive).run dustyLoan).market.borrowPositionHealth
          (((smallLedger .newAdaptive).run dustyLoan).borrowPositions ()) dustyRate .par =
            .ok health ∧ ¬ health.ltv < ((smallLedger .newAdaptive).run
              dustyLoan).market.config.ltvConfig.unhealthyLtv ∧
          health.ltv < Fixed.one ∧ health.borrowedAtoms = 81) ∧
      (MarketWith.liquidate dustyRate .par 6).Fails
        (((smallLedger .newAdaptive).run dustyLoan).borrowView ())
        LendingError.invalidLiquidationLtvShouldDecrease.into := by
  constructor
  · refine ⟨⟨_, _, smallLoan, smallLedger_adaptive_opened, rfl⟩, ?_, by decide +kernel⟩
    exact ⟨⟨⟨272395138752247, by decide, by decide⟩, 600, 1000, Fixed.fromU64 600,
      ⟨174514485560607000, by decide, by decide⟩⟩, by decide +kernel, by decide +kernel,
      by decide +kernel, rfl⟩
  · refine ⟨⟨_, _, dustyLoan, smallLedger_adaptive_opened, rfl⟩, ?_, by decide +kernel⟩
    exact ⟨⟨⟨239994453826983, by decide, by decide⟩, 81, 1000, Fixed.fromU64 81,
      ⟨26740122787512000, by decide, by decide⟩⟩, by decide +kernel, by decide +kernel,
      by decide +kernel, rfl⟩

end Ledger

end AutaraLending
