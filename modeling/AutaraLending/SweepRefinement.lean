import AutaraLending.Conservation

/-! A capital sweep that is settled at once, at the same time and prices and with no limit on
the collateral returned, does what a liquidation does. -/

namespace AutaraLending

open Support

namespace MarketWith

/-- Begin a sweep and settle it; what was swept comes with the result of the settlement. -/
def sweepAndSettle (collateralOracle supplyOracle : OracleRate) (maxRepayAtoms : U64) :
    LendingMethod (MarketWith BorrowPosition) (U64 × CapitalSweepSettlementResult) := do
  let _ ← beginCapitalSweep collateralOracle supplyOracle
  let swept ← Method.self
  let result ← settleCapitalSweep collateralOracle supplyOracle maxRepayAtoms 0xFFFFFFFFFFFFFFFF
  pure (swept.position.sweptCollateralAtoms, result)

def swept (s : MarketWith BorrowPosition) (total : U64) : MarketWith BorrowPosition :=
  ⟨s.market.withCollateral total,
    { s.position with
      collateralDepositedAtoms := 0
      sweptCollateralAtoms := s.position.collateralDepositedAtoms }⟩

theorem sweepAndSettle_succeeds (collateralOracle supplyOracle : OracleRate) (maxRepayAtoms : U64)
    (s s' : MarketWith BorrowPosition) (outcome : U64 × CapitalSweepSettlementResult) :
    (sweepAndSettle collateralOracle supplyOracle maxRepayAtoms).Succeeds s outcome s' ↔
      s.position.sweptCollateralAtoms = 0 ∧
        outcome.1 = s.position.collateralDepositedAtoms ∧
        ∃ health total,
          s.market.borrowPositionHealth s.position collateralOracle supplyOracle = .ok health ∧
          ¬ health.ltv < s.market.config.ltvConfig.unhealthyLtv ∧
          ¬ (Fixed.one : IFixedPoint) ≤ health.ltv ∧
          s.position.collateralDepositedAtoms.toNat + total.toNat =
            s.market.collateralVault.totalCollateralAtoms.toNat ∧
          Nonempty (Settlement collateralOracle supplyOracle maxRepayAtoms 0xFFFFFFFFFFFFFFFF
            (s.swept total) outcome.2 s') := by
  simp only [sweepAndSettle, Method.succeeds_bind, beginCapitalSweep_succeeds,
    Method.succeeds_self, settleCapitalSweep_succeeds, Method.succeeds_pure]
  constructor
  · rintro ⟨health, _, ⟨inactive, health_ok, unhealthy, solvent, total, difference, rfl⟩, _, _,
      ⟨rfl, rfl⟩, _, _, settlement, rfl, rfl⟩
    exact ⟨inactive, rfl, health, total, health_ok, unhealthy, solvent, difference, settlement⟩
  · rintro ⟨inactive, amount, health, total, health_ok, unhealthy, solvent, difference, settlement⟩
    exact ⟨health, s.swept total, ⟨inactive, health_ok, unhealthy, solvent, total, difference, rfl⟩,
      _, _, ⟨rfl, rfl⟩, outcome.2, s', settlement, Prod.ext amount.symm rfl, rfl⟩

variable {collateralOracle supplyOracle : OracleRate} {maxRepayAtoms : U64}
  {s s' : MarketWith BorrowPosition}

theorem computeLiquidation_ok {m : Market} {p : BorrowPosition} {collateralAtoms : U64}
    {health : BorrowPositionHealth} {liquidation : LiquidationResultWithBonus}
    (success : m.computeLiquidationResultWithFeeForCollateral p collateralAtoms collateralOracle
      supplyOracle maxRepayAtoms = .ok (health, liquidation)) :
    m.borrowPositionHealthWithCollateralAtoms p collateralAtoms collateralOracle supplyOracle =
        .ok health ∧
      (¬ (Fixed.one : IFixedPoint) ≤ health.ltv →
        liquidation.collateralAtomsToLiquidate.toNat +
          liquidation.collateralAtomsLiquidationBonus.toNat ≤ collateralAtoms.toNat) := by
  simp only [Market.computeLiquidationResultWithFeeForCollateral, except_bind_ok, except_ite_ok,
    reduceCtorEq, and_false, false_or, except_pure_ok] at success
  obtain ⟨_, health_ok, -, ⟨insolvent, _, -, same⟩ | ⟨solvent, _, computed, same⟩⟩ := success
  · obtain ⟨rfl, rfl⟩ := Prod.mk.inj same
    exact ⟨health_ok, fun solvent => absurd insolvent solvent⟩
  · obtain ⟨rfl, rfl⟩ := Prod.mk.inj same
    exact ⟨health_ok, fun _ => computeLiquidationWithFee_le _ _ _ _ _ _ _ _ _ _ computed⟩

theorem collateralReturned_unlimited {swept total : U64} {liquidation : LiquidationResultWithBonus}
    (total_ok : liquidation.totalCollateralAtomsToLiquidate = .ok total) {returned : U64}
    (difference : total.toNat + returned.toNat = swept.toNat) :
    collateralReturned swept liquidation 0xFFFFFFFFFFFFFFFF = .ok returned := by
  refine (collateralReturned_ok _ _ _ _).mpr ⟨total, total_ok, difference, ?_⟩
  have range := returned.toNat_lt
  rw [UInt64.lt_iff_toNat_lt, show (0xFFFFFFFFFFFFFFFF : U64).toNat = 2 ^ 64 - 1 from rfl]
  omega

def Liquidated.settlement {result : LiquidationResultWithCtx}
    (liquidated : Liquidated collateralOracle supplyOracle maxRepayAtoms s result s')
    (unhealthy : ¬ result.healthBeforeLiquidation.ltv < s.market.config.ltvConfig.unhealthyLtv)
    (nonempty : s.position.collateralDepositedAtoms ≠ 0) (remaining provisional : U64)
    (provisional_ok : collateralReturned s.position.collateralDepositedAtoms liquidated.computed
      0xFFFFFFFFFFFFFFFF = .ok provisional)
    (difference : s.position.collateralDepositedAtoms.toNat + remaining.toNat =
      s.market.collateralVault.totalCollateralAtoms.toNat) :
    Settlement collateralOracle supplyOracle maxRepayAtoms 0xFFFFFFFFFFFFFFFF (s.swept remaining)
      ⟨result.liquidationResultWithBonus, result.healthBeforeLiquidation,
        result.healthAfterLiquidation, liquidated.collateral⟩ s' where
  computed := liquidated.computed
  provisional := provisional
  atoms := liquidated.atoms
  shares := liquidated.shares
  tracker := liquidated.tracker
  initial := liquidated.initial
  borrowed := liquidated.borrowed
  total := liquidated.total
  pending := nonempty
  before_ok := (computeLiquidation_ok liquidated.computed_ok).1
  computed_ok :=
    (if_neg unhealthy).trans ((except_map_ok _ _ _).mpr ⟨_, liquidated.computed_ok, rfl⟩)
  provisional_ok := provisional_ok
  capped := liquidated.capped
  liquidation_eq := liquidated.liquidation_eq
  returned_ok := collateralReturned_unlimited liquidated.seized_ok liquidated.collateral_eq
  debt := liquidated.debt
  total_eq := by
    have seized := liquidated.collateral_eq
    have total := liquidated.total_eq
    change remaining.toNat + liquidated.collateral.toNat = liquidated.total.toNat
    omega
  final := by
    refine liquidated.final.trans (congrArg (MarketWith.mk _) ?_)
    dsimp only
    rw [liquidated.inactive]
    rfl
  health_ok := liquidated.health_ok
  decreased := liquidated.decreased

def Settlement.liquidated {result : CapitalSweepSettlementResult} {remaining seized : U64}
    (settlement : Settlement collateralOracle supplyOracle maxRepayAtoms 0xFFFFFFFFFFFFFFFF
      (s.swept remaining) result s')
    (inactive : s.position.sweptCollateralAtoms = 0)
    (computed_ok : s.market.computeLiquidationResultWithFeeForCollateral s.position
      s.position.collateralDepositedAtoms collateralOracle supplyOracle maxRepayAtoms =
        .ok (result.healthBeforeSettlement, settlement.computed))
    (seized_ok : (settlement.computed.adjustForMaxRepay
      settlement.atoms).totalCollateralAtomsToLiquidate = .ok seized)
    (kept : seized.toNat + result.collateralAtomsReturned.toNat =
      s.position.collateralDepositedAtoms.toNat)
    (difference : s.position.collateralDepositedAtoms.toNat + remaining.toNat =
      s.market.collateralVault.totalCollateralAtoms.toNat) :
    Liquidated collateralOracle supplyOracle maxRepayAtoms s
      ⟨result.liquidationResultWithBonus, result.healthBeforeSettlement,
        result.healthAfterSettlement⟩ s' where
  computed := settlement.computed
  atoms := settlement.atoms
  shares := settlement.shares
  tracker := settlement.tracker
  seized := seized
  initial := settlement.initial
  borrowed := settlement.borrowed
  collateral := result.collateralAtomsReturned
  total := settlement.total
  inactive := inactive
  computed_ok := computed_ok
  capped := settlement.capped
  liquidation_eq := settlement.liquidation_eq
  seized_ok := seized_ok
  debt := settlement.debt
  collateral_eq := kept
  total_eq := by
    have total := settlement.total_eq
    change remaining.toNat + _ = _ at total
    omega
  final := by
    refine settlement.final.trans (congrArg (MarketWith.mk _) ?_)
    dsimp only
    rw [inactive]
    rfl
  health_ok := settlement.health_ok
  decreased := settlement.decreased

structure Sweepable (collateralOracle supplyOracle : OracleRate) (s : MarketWith BorrowPosition)
    (health : BorrowPositionHealth) : Prop where
  inactive : s.position.sweptCollateralAtoms = 0
  nonempty : s.position.collateralDepositedAtoms ≠ 0
  held : s.position.collateralDepositedAtoms.toNat ≤
    s.market.collateralVault.totalCollateralAtoms.toNat
  health_ok : s.market.borrowPositionHealth s.position collateralOracle supplyOracle = .ok health
  unhealthy : ¬ health.ltv < s.market.config.ltvConfig.unhealthyLtv
  solvent : ¬ (Fixed.one : IFixedPoint) ≤ health.ltv

theorem sweepAndSettle_of_liquidate {health : BorrowPositionHealth}
    (sweepable : Sweepable collateralOracle supplyOracle s health)
    {result : LiquidationResultWithCtx}
    (success : (liquidate collateralOracle supplyOracle maxRepayAtoms).Succeeds s result s') :
    ∃ seized returned : U64,
      result.liquidationResultWithBonus.totalCollateralAtomsToLiquidate = .ok seized ∧
        seized.toNat + returned.toNat = s.position.collateralDepositedAtoms.toNat ∧
        (sweepAndSettle collateralOracle supplyOracle maxRepayAtoms).Succeeds s
          (s.position.collateralDepositedAtoms,
            ⟨result.liquidationResultWithBonus, result.healthBeforeLiquidation,
              result.healthAfterLiquidation, returned⟩) s' := by
  obtain ⟨liquidated⟩ := (liquidate_succeeds _ _ _ _ _ _).mp success
  obtain ⟨health_ok, bounded⟩ := computeLiquidation_ok liquidated.computed_ok
  have same : result.healthBeforeLiquidation = health :=
    Except.ok.inj (health_ok.symm.trans sweepable.health_ok)
  have within := bounded (by rw [same]; exact sweepable.solvent)
  obtain ⟨total, total_ok, total_eq⟩ := U64.safeAdd_succeeds
    liquidated.computed.collateralAtomsToLiquidate
    liquidated.computed.collateralAtomsLiquidationBonus
    (lt_of_le_of_lt within s.position.collateralDepositedAtoms.toNat_lt)
  obtain ⟨provisional, provisional_ok, -⟩ := U64.safeSub_succeeds
    s.position.collateralDepositedAtoms total (by omega)
  obtain ⟨remaining, remaining_ok, -⟩ := U64.safeSub_succeeds
    s.market.collateralVault.totalCollateralAtoms s.position.collateralDepositedAtoms sweepable.held
  have difference := (U64.safeSub_ok _ _ _).mp remaining_ok
  refine ⟨liquidated.seized, liquidated.collateral, ?_, liquidated.collateral_eq, ?_⟩
  · rw [liquidated.liquidation_eq]
    exact liquidated.seized_ok
  · refine (sweepAndSettle_succeeds _ _ _ _ _ _).mpr ⟨sweepable.inactive, rfl, health, remaining,
      sweepable.health_ok, sweepable.unhealthy, sweepable.solvent, difference, ⟨?_⟩⟩
    exact liquidated.settlement (by rw [same]; exact sweepable.unhealthy) sweepable.nonempty
      remaining provisional
      (collateralReturned_unlimited total_ok ((U64.safeSub_ok _ _ _).mp provisional_ok)) difference

theorem liquidate_of_sweepAndSettle {outcome : U64 × CapitalSweepSettlementResult}
    (success : (sweepAndSettle collateralOracle supplyOracle maxRepayAtoms).Succeeds s outcome
      s') :
    (liquidate collateralOracle supplyOracle maxRepayAtoms).Succeeds s
      ⟨outcome.2.liquidationResultWithBonus, outcome.2.healthBeforeSettlement,
        outcome.2.healthAfterSettlement⟩ s' := by
  obtain ⟨inactive, -, health, remaining, health_ok, unhealthy, -, difference, ⟨settlement⟩⟩ :=
    (sweepAndSettle_succeeds _ _ _ _ _ _).mp success
  have same : outcome.2.healthBeforeSettlement = health :=
    Except.ok.inj (settlement.before_ok.symm.trans health_ok)
  have computed_ok := settlement.computed_ok
  rw [settlementLiquidation, if_neg (by rw [same]; exact unhealthy), except_map_ok] at computed_ok
  obtain ⟨⟨before, computed⟩, pair_ok, computed_eq⟩ := computed_ok
  have before_eq : before = outcome.2.healthBeforeSettlement :=
    Except.ok.inj ((computeLiquidation_ok pair_ok).1.symm.trans settlement.before_ok)
  obtain ⟨seized, seized_ok, kept, -⟩ :=
    (collateralReturned_ok _ _ _ _).mp settlement.returned_ok
  refine (liquidate_succeeds _ _ _ _ _ _).mpr ⟨settlement.liquidated inactive ?_ seized_ok kept
    difference⟩
  rw [← computed_eq, ← before_eq]
  exact pair_ok

end MarketWith

namespace Ledger

variable {σ β : Type} [DecidableEq σ] [DecidableEq β]

theorem Reachable.sweepable [Fintype β] {l : Ledger σ β} (reachable : l.Reachable) {key : β}
    {collateralOracle supplyOracle : OracleRate} {health : BorrowPositionHealth}
    (health_ok : l.market.borrowPositionHealth (l.borrowPositions key) collateralOracle
      supplyOracle = .ok health)
    (unhealthy : l.market.config.ltvConfig.unhealthyLtv ≤ health.ltv)
    (solvent : health.ltv < (Fixed.one : IFixedPoint)) :
    MarketWith.Sweepable collateralOracle supplyOracle (l.borrowView key) health := by
  have conserved := reachable.collateralConserved
  have sound := reachable.configSound.ltv
  have ordered := sound.maxLtv_lt
  have nonneg := sound.maxLtv_nonneg
  have nonempty : (l.borrowPositions key).collateralDepositedAtoms ≠ 0 := by
    intro none
    rw [Market.borrowPositionHealth, none] at health_ok
    have zero := Market.health_of_no_collateral _ _ _ _ _ health_ok
    rw [zero, Fixed.le_def, Fixed.zero_bits] at unhealthy
    omega
  refine ⟨?_, nonempty, ?_, health_ok, ?_, ?_⟩
  · by_contra pending
    exact nonempty (conserved.locked key pending)
  · change _ ≤ l.market.collateralVault.totalCollateralAtoms.toNat
    rw [conserved.total]
    exact Finset.single_le_sum
      (f := fun k => (l.borrowPositions k).collateralDepositedAtoms.toNat)
      (fun _ _ => Nat.zero_le _) (Finset.mem_univ key)
  · rw [Fixed.lt_def, not_lt]
    exact unhealthy
  · rw [Fixed.le_def, not_le]
    exact solvent

/-- On an unhealthy but solvent position, a sweep settled at once succeeds exactly when a
liquidation does, with the same final state and repayment; the collateral the curator keeps is
the collateral the liquidator would seize. -/
theorem sweep_refines_liquidation [Fintype β] (l : Ledger σ β) (reachable : l.Reachable) (key : β)
    (collateralOracle supplyOracle : OracleRate) (health : BorrowPositionHealth)
    (health_ok : l.market.borrowPositionHealth (l.borrowPositions key) collateralOracle
      supplyOracle = .ok health)
    (unhealthy : l.market.config.ltvConfig.unhealthyLtv ≤ health.ltv)
    (solvent : health.ltv < (Fixed.one : IFixedPoint)) (maxRepayAtoms : U64) :
    ((∃ outcome final, (MarketWith.sweepAndSettle collateralOracle supplyOracle
        maxRepayAtoms).Succeeds (l.borrowView key) outcome final) ↔
      ∃ result final, (MarketWith.liquidate collateralOracle supplyOracle maxRepayAtoms).Succeeds
        (l.borrowView key) result final) ∧
    ∀ swept settlement sweptFinal result final,
      (MarketWith.sweepAndSettle collateralOracle supplyOracle maxRepayAtoms).Succeeds
          (l.borrowView key) (swept, settlement) sweptFinal →
        (MarketWith.liquidate collateralOracle supplyOracle maxRepayAtoms).Succeeds
          (l.borrowView key) result final →
        sweptFinal = final ∧
          settlement.liquidationResultWithBonus.borrowedAtomsToRepay =
            result.liquidationResultWithBonus.borrowedAtomsToRepay ∧
          ∃ seized,
            result.liquidationResultWithBonus.totalCollateralAtomsToLiquidate = .ok seized ∧
              seized.toNat = swept.toNat - settlement.collateralAtomsReturned.toNat ∧
              settlement.collateralAtomsReturned.toNat ≤ swept.toNat := by
  have sweepable := reachable.sweepable health_ok unhealthy solvent
  refine ⟨⟨?_, ?_⟩, ?_⟩
  · rintro ⟨outcome, final, settled⟩
    exact ⟨_, final, MarketWith.liquidate_of_sweepAndSettle settled⟩
  · rintro ⟨result, final, liquidated⟩
    obtain ⟨_, _, -, -, settled⟩ := MarketWith.sweepAndSettle_of_liquidate sweepable liquidated
    exact ⟨_, final, settled⟩
  · intro swept settlement sweptFinal result final settled liquidated
    obtain ⟨seized, returned, seized_ok, kept, expected⟩ :=
      MarketWith.sweepAndSettle_of_liquidate sweepable liquidated
    obtain ⟨same, rfl⟩ := Method.succeeds_unique _ _ _ _ _ _ settled expected
    obtain ⟨rfl, rfl⟩ := Prod.mk.inj same
    exact ⟨rfl, rfl, seized, seized_ok, by dsimp only; omega, by dsimp only; omega⟩

theorem small_loan_swept_as_liquidated :
    ∃ outcome final,
      (MarketWith.sweepAndSettle (.exact (.lit 7 1) (by decide)) .par 100).Succeeds
        (((smallLedger .newAdaptive).run smallLoan).borrowView ()) outcome final := by
  have refines := sweep_refines_liquidation ((smallLedger .newAdaptive).run smallLoan)
    ⟨_, _, smallLoan, smallLedger_adaptive_opened, rfl⟩ () (.exact (.lit 7 1) (by decide)) .par
    loweredHealth (by decide +kernel) (by decide +kernel) (by decide +kernel) 100
  exact refines.1.mpr (Method.succeeds_of_isOk _ _ (by decide +kernel))

end Ledger

end AutaraLending
