import AutaraLending.LiquidationStages
import AutaraLending.LiquidationOutcome

/-! When a liquidation without a limit of the caller goes through and heals a solvent position, and
when what it computes overflows. -/

namespace AutaraLending

open Support

/-! The bonus stays covered in every reachable market. -/

theorem MarketAction.execute_bonusCovered (action : MarketAction) (m m' : Market) (atoms : Int)
    (covered : m.config.ltvConfig.BonusCovered) (success : action.execute.Succeeds m atoms m') :
    m'.config.ltvConfig.BonusCovered := by
  cases action with
  | donateSupplyAtoms amount =>
      obtain ⟨_, donated, -⟩ := (Method.succeeds_bind_pure _ _ _ _ _).mp success
      obtain ⟨tracker, -, rfl⟩ := (Market.donateSupplyAtoms_succeeds _ _ _ _).mp donated
      exact covered
  | syncClock unixTimestamp =>
      obtain ⟨synced, -⟩ := (withoutTransfer_succeeds _ _ _ _).mp success
      rcases Market.syncClock_succeeds _ _ _ _ synced with ⟨-, rfl⟩ | ⟨-, market_eq⟩
      · exact covered
      · rw [market_eq]
        exact covered
  | redeemProtocolFees =>
      obtain ⟨_, redeemed, -⟩ := (Method.succeeds_bind_pure _ _ _ _ _).mp success
      obtain ⟨tracker, -, rfl, -⟩ := Market.redeemProtocolFees_succeeds _ _ _ redeemed
      exact covered
  | redeemCuratorFess =>
      obtain ⟨_, redeemed, -⟩ := (Method.succeeds_bind_pure _ _ _ _ _).mp success
      obtain ⟨tracker, -, rfl, -⟩ := Market.redeemCuratorFess_succeeds _ _ _ redeemed
      exact covered
  | updateLtv ltvConfig =>
      obtain ⟨updated, -⟩ := (withoutTransfer_succeeds _ _ _ _).mp success
      obtain ⟨config, accepted, rfl⟩ := (Market.onConfig_succeeds _ _ _ _).mp updated
      have checked := MarketConfig.updateLtv_covered _ _ _ _ accepted
      obtain ⟨rfl, -, -⟩ := MarketConfig.updateLtv_succeeds _ _ _ _ accepted
      exact checked
  | updateMaxUtilisationRate rate =>
      obtain ⟨updated, -⟩ := (withoutTransfer_succeeds _ _ _ _).mp success
      obtain ⟨config, accepted, rfl⟩ := (Market.onConfig_succeeds _ _ _ _).mp updated
      obtain ⟨-, rfl⟩ := (MarketConfig.updateMaxUtilisationRate_succeeds _ _ _ _).mp accepted
      exact covered
  | updateMaxSupplyAtoms maxSupplyAtoms =>
      obtain ⟨updated, -⟩ := (withoutTransfer_succeeds _ _ _ _).mp success
      obtain ⟨config, accepted, rfl⟩ := (Market.onConfig_succeeds _ _ _ _).mp updated
      obtain rfl := (MarketConfig.updateMaxSupplyAtoms_succeeds _ _ _ _).mp accepted
      exact covered
  | setLendingMarketFee lendingMarketFeeInBps =>
      obtain ⟨updated, -⟩ := (withoutTransfer_succeeds _ _ _ _).mp success
      obtain ⟨config, accepted, rfl⟩ := (Market.onConfig_succeeds _ _ _ _).mp updated
      obtain ⟨-, rfl⟩ := (MarketConfig.setLendingMarketFee_succeeds _ _ _ _).mp accepted
      exact covered
  | syncGlobalConfig globalConfig =>
      obtain ⟨updated, -⟩ := (withoutTransfer_succeeds _ _ _ _).mp success
      obtain ⟨config, accepted, rfl⟩ := (Market.onConfig_succeeds _ _ _ _).mp updated
      obtain rfl := (MarketConfig.syncGlobalConfig_succeeds _ _ _ _).mp accepted
      exact covered
  | setSupplyOracleConfig oracleConfig =>
      obtain ⟨updated, -⟩ := (withoutTransfer_succeeds _ _ _ _).mp success
      obtain rfl := Market.setSupplyOracleConfig_succeeds _ _ _ _ updated
      exact covered
  | setCollateralOracleConfig oracleConfig =>
      obtain ⟨updated, -⟩ := (withoutTransfer_succeeds _ _ _ _).mp success
      obtain rfl := Market.setCollateralOracleConfig_succeeds _ _ _ _ updated
      exact covered

theorem Market.processCreateMarket_bonusCovered (data : CreateMarket) (unixTimestamp : Int64)
    (m : Market) (u : Unit)
    (success : (processCreateMarket data unixTimestamp).Succeeds zeroed u m) :
    m.config.ltvConfig.BonusCovered := by
  simp only [processCreateMarket, Method.succeeds_bind, onConfig_succeeds, onSupplyVault_succeeds,
    onCollateralVault_succeeds] at success
  obtain ⟨_, _, ⟨config, initialized, rfl⟩, _, _, ⟨_, -, rfl⟩, _, -, rfl⟩ := success
  exact (MarketConfig.initializeConfig_riskSafe _ _ _ _ _ _ _ _ _ _ _ initialized).covered

namespace Ledger

variable {σ β : Type} [DecidableEq σ] [DecidableEq β]

theorem Reachable.bonusCovered {l : Ledger σ β} (reachable : l.Reachable) :
    l.market.config.ltvConfig.BonusCovered := by
  apply reachable.induction
  · intro data start opened
    obtain ⟨unixTimestamp, created⟩ := opened.created
    exact Market.processCreateMarket_bonusCovered _ _ _ _ created
  · intro l operation l' covered success
    cases operation with
    | supply key action =>
        obtain ⟨atoms, s, executed, rfl⟩ := (execute_supply_succeeds _ _ _ _ _).mp success
        change s.market.config.ltvConfig.BonusCovered
        rw [(action.execute_effect _ _ _ executed).market_eq]
        exact covered
    | borrow key action =>
        obtain ⟨atoms, s, executed, rfl⟩ := (execute_borrow_succeeds _ _ _ _ _).mp success
        change s.market.config.ltvConfig.BonusCovered
        rw [(action.execute_effect _ _ _ executed).market_eq]
        exact covered
    | market action =>
        obtain ⟨atoms, market, executed, rfl⟩ := (execute_market_succeeds _ _ _ _).mp success
        exact action.execute_bonusCovered _ _ _ covered executed

end Ledger

theorem Market.solvent_values {m : Market} {p : BorrowPosition}
    {collateralOracle supplyOracle : OracleRate} {health : BorrowPositionHealth}
    (sound : m.config.ltvConfig.Sound)
    (health_ok : m.borrowPositionHealth p collateralOracle supplyOracle = .ok health)
    (unhealthy : ¬ health.ltv < m.config.ltvConfig.unhealthyLtv)
    (solvent : health.ltv < Fixed.one) :
    m.config.ltvConfig.unhealthyLtv.toRat * health.collateralValue.toRat ≤
        health.borrowValue.toRat ∧
      health.borrowValue.bits < health.collateralValue.bits := by
  have nonneg := sound.maxLtv_nonneg
  have ordered := sound.maxLtv_lt
  rw [Fixed.lt_def] at unhealthy
  rw [Fixed.lt_def, Fixed.one_bits, i80f48_frac] at solvent
  obtain ⟨debt_nonneg, collateral_nonneg, ⟨-, zero⟩ | ⟨-, positive, ltv_eq⟩⟩ :=
    health_consistent health_ok
  · omega
  · constructor
    · have cut := Int.ediv_mul_le (health.borrowValue.bits * 2 ^ 48) positive.ne'
      rw [← ltv_eq] at cut
      have product_le : m.config.ltvConfig.unhealthyLtv.bits * health.collateralValue.bits ≤
          health.ltv.bits * health.collateralValue.bits := by
        gcongr
        omega
      have product_rat : (m.config.ltvConfig.unhealthyLtv.bits * health.collateralValue.bits : ℚ) ≤
          health.borrowValue.bits * 2 ^ 48 := by exact_mod_cast product_le.trans cut
      rw [Fixed.toRat, Fixed.toRat, Fixed.toRat, i80f48_frac, div_mul_div_comm,
        div_le_div_iff₀ (by positivity) (by positivity)]
      linarith
    · rw [ltv_eq] at solvent
      have product_lt := Int.lt_mul_of_ediv_lt positive solvent
      omega

/-- An unhealthy solvent position, with what a liquidation of it computes first. -/
structure Market.Liquidable (m : Market) (p : BorrowPosition)
    (collateralOracle supplyOracle : OracleRate) (health : BorrowPositionHealth) where
  sound : m.config.ltvConfig.Sound
  health_ok : m.borrowPositionHealth p collateralOracle supplyOracle = .ok health
  unhealthy : ¬ health.ltv < m.config.ltvConfig.unhealthyLtv
  solvent : health.ltv < Fixed.one
  terms : m.config.ltvConfig.Terms
  discounted : m.Discounted collateralOracle terms p.collateralDepositedAtoms

namespace Market.Liquidable

variable {m : Market} {p : BorrowPosition} {collateralOracle supplyOracle : OracleRate}
  {health : BorrowPositionHealth} (loan : m.Liquidable p collateralOracle supplyOracle health)

include loan

theorem borrow_ok : supplyOracle.borrowValue health.borrowedAtoms m.supplyVault.decimals =
    .ok health.borrowValue :=
  ((borrowPositionHealthWithCollateralAtoms_ok _ _ _ _ _ _).mp loan.health_ok).2.1

theorem collateral_ok : collateralOracle.collateralValue p.collateralDepositedAtoms
    m.collateralVault.decimals = .ok health.collateralValue :=
  ((borrowPositionHealthWithCollateralAtoms_ok _ _ _ _ _ _).mp loan.health_ok).2.2.1

theorem target_lt : m.config.ltvConfig.targetLtvAfterLiquidation.toRat <
    m.config.ltvConfig.unhealthyLtv.toRat :=
  Fixed.toRat_lt.mpr (m.config.ltvConfig.targetLtvAfterLiquidation_lt loan.sound)

theorem unhealthyLtv_lt_one : m.config.ltvConfig.unhealthyLtv.toRat < 1 := by
  rw [Fixed.toRat, i80f48_frac, div_lt_one (by positivity)]
  exact_mod_cast loan.sound.unhealthyLtv_lt_one

theorem bonus_nonneg : 0 ≤ m.config.ltvConfig.liquidationBonus.toRat :=
  Fixed.toRat_nonneg.mpr loan.terms.bonus_nonneg

theorem target_nonneg : 0 ≤ m.config.ltvConfig.targetLtvAfterLiquidation.toRat :=
  Fixed.toRat_nonneg.mpr loan.terms.target_nonneg

theorem margin_pos : 0 < loan.terms.margin.toRat := by
  have positive : (0 : ℚ) < loan.terms.margin.bits := by exact_mod_cast loan.terms.margin_pos
  rw [Fixed.toRat]
  positivity

theorem debt_bounds :
    health.borrowValue.toRat ≤ health.borrowedAtoms.toNat *
        supplyOracle.exactBorrowValue 1 m.supplyVault.decimals ∧
      health.borrowedAtoms.toNat * supplyOracle.exactBorrowValue 1 m.supplyVault.decimals <
        health.borrowValue.toRat + 1 / 2 ^ 48 := by
  rw [← OracleRate.exactBorrowValue_mul]
  exact supplyOracle.borrowValue_bounds _ _ _ loan.borrow_ok

theorem collateral_bounds :
    health.collateralValue.toRat ≤ p.collateralDepositedAtoms.toNat *
        collateralOracle.exactCollateralValue 1 m.collateralVault.decimals ∧
      p.collateralDepositedAtoms.toNat *
          collateralOracle.exactCollateralValue 1 m.collateralVault.decimals <
        health.collateralValue.toRat + 1 / 2 ^ 48 := by
  rw [← OracleRate.exactCollateralValue_mul]
  exact collateralOracle.collateralValue_bounds _ _ _ loan.collateral_ok

theorem discounted_bounds :
    loan.discounted.value.toRat ≤ loan.discounted.atoms.toNat *
        collateralOracle.exactCollateralValue 1 m.collateralVault.decimals ∧
      loan.discounted.atoms.toNat *
          collateralOracle.exactCollateralValue 1 m.collateralVault.decimals <
        loan.discounted.value.toRat + 1 / 2 ^ 48 := by
  rw [← OracleRate.exactCollateralValue_mul]
  exact collateralOracle.collateralValue_bounds _ _ _ loan.discounted.value_ok

theorem allowed_le :
    loan.discounted.value.toRat * loan.terms.adjusted.toRat ≤
      m.config.ltvConfig.targetLtvAfterLiquidation.toRat *
        (p.collateralDepositedAtoms.toNat *
          collateralOracle.exactCollateralValue 1 m.collateralVault.decimals) := by
  have price_pos := collateralOracle.exactCollateralValue_pos m.collateralVault.decimals
  have adjusted_nonneg := Fixed.toRat_nonneg.mpr loan.terms.adjusted_nonneg
  have target_nonneg := loan.target_nonneg
  calc
    _ ≤ loan.discounted.atoms.toNat *
        collateralOracle.exactCollateralValue 1 m.collateralVault.decimals *
          (m.config.ltvConfig.targetLtvAfterLiquidation.toRat *
            (1 + m.config.ltvConfig.liquidationBonus.toRat)) := by
      gcongr
      · exact loan.discounted_bounds.1
      · exact loan.terms.adjusted_rat.1
    _ = m.config.ltvConfig.targetLtvAfterLiquidation.toRat *
        ((1 + m.config.ltvConfig.liquidationBonus.toRat) * loan.discounted.atoms.toNat *
          collateralOracle.exactCollateralValue 1 m.collateralVault.decimals) := by ring
    _ ≤ _ := by
      gcongr
      exact loan.discounted.atoms_le

theorem owed :
    loan.discounted.value.toRat * loan.terms.adjusted.toRat <
      health.borrowValue.toRat + 1 / 2 ^ 48 := by
  obtain ⟨ratio, -⟩ := solvent_values loan.sound loan.health_ok loan.unhealthy loan.solvent
  have target_nonneg := loan.target_nonneg
  have target_le := loan.target_lt.le
  have below_one := loan.unhealthyLtv_lt_one
  have collateral_nonneg := Fixed.toRat_nonneg.mpr
    (collateralOracle.collateralValue_nonneg loan.collateral_ok)
  calc
    _ ≤ _ := loan.allowed_le
    _ ≤ m.config.ltvConfig.targetLtvAfterLiquidation.toRat *
        (health.collateralValue.toRat + 1 / 2 ^ 48) := by
      gcongr
      exact loan.collateral_bounds.2.le
    _ < m.config.ltvConfig.targetLtvAfterLiquidation.toRat * health.collateralValue.toRat +
        1 / 2 ^ 48 := by linarith
    _ ≤ m.config.ltvConfig.unhealthyLtv.toRat * health.collateralValue.toRat + 1 / 2 ^ 48 := by
      gcongr
    _ ≤ _ := by linarith

end Market.Liquidable

/-! What a liquidation for all it can take computes, in whole numbers. -/

def LtvConfig.targetWithBonus (ltv : LtvConfig) : Int :=
  ltv.targetLtvAfterLiquidation.bits * (2 ^ 48 + ltv.liquidationBonus.bits) / 2 ^ 48

namespace Market

variable (m : Market) (collateralOracle supplyOracle : OracleRate) (debt collateral : U64)

def targetValue : Int :=
  (supplyOracle.upper * debt.toNat / 10 ^ m.supplyVault.decimals.toNat -
      collateralOracle.lower * m.config.ltvConfig.withoutBonus collateral /
        10 ^ m.collateralVault.decimals.toNat * m.config.ltvConfig.targetWithBonus / 2 ^ 48) *
    2 ^ 48 / (2 ^ 48 - m.config.ltvConfig.targetWithBonus)

/-- The debt of that value, before it is capped to the whole debt. -/
def targetRepaid : Int :=
  roundedUp (m.targetValue collateralOracle supplyOracle debt collateral *
    10 ^ m.supplyVault.decimals.toNat * 2 ^ 48 / supplyOracle.upper)

def targetSeized : Int :=
  m.targetValue collateralOracle supplyOracle debt collateral *
    10 ^ m.collateralVault.decimals.toNat / collateralOracle.lower

def cappedSeized : Int :=
  if debt.toNat < m.targetRepaid collateralOracle supplyOracle debt collateral then
    m.targetSeized collateralOracle supplyOracle debt collateral * debt.toNat /
      m.targetRepaid collateralOracle supplyOracle debt collateral
  else m.targetSeized collateralOracle supplyOracle debt collateral

/-- The value that the target LTV asks for fits wherever it is converted, and so do the bonus on
what is seized and the shares of what is repaid. -/
structure TargetFits : Prop where
  debt_scaled : m.targetValue collateralOracle supplyOracle debt collateral *
    10 ^ m.supplyVault.decimals.toNat < 2 ^ 127
  collateral_scaled : m.targetValue collateralOracle supplyOracle debt collateral *
    10 ^ m.collateralVault.decimals.toNat < 2 ^ 127
  repaid : m.targetValue collateralOracle supplyOracle debt collateral *
    10 ^ m.supplyVault.decimals.toNat * 2 ^ 48 / supplyOracle.upper < 2 ^ 112
  seized : m.targetSeized collateralOracle supplyOracle debt collateral < 2 ^ 64
  with_bonus : m.cappedSeized collateralOracle supplyOracle debt collateral +
    m.cappedSeized collateralOracle supplyOracle debt collateral *
      m.config.ltvConfig.liquidationBonus.bits / 2 ^ 48 < 2 ^ 64
  held : m.cappedSeized collateralOracle supplyOracle debt collateral ≤ collateral.toNat
  converted : min (debt.toNat : Int)
    (m.targetRepaid collateralOracle supplyOracle debt collateral) <
    m.supplyVault.borrowSharesTracker.atomsPerShare.bits

end Market

theorem roundedUp_le {bits most : Int} (bounded : bits ≤ most * 2 ^ 48) :
    roundedUp bits ≤ most := by
  unfold roundedUp
  split
  · omega
  · omega

theorem le_roundedUp_mul {bits : Int} (bounded : bits ≤ (2 ^ 64 - 1) * 2 ^ 48) :
    bits ≤ roundedUp bits * 2 ^ 48 := by
  unfold roundedUp
  split
  · omega
  · omega

theorem le_of_roundedUp_lt {bits : Int} (below : roundedUp bits < 2 ^ 64 - 1) :
    bits ≤ (2 ^ 64 - 1) * 2 ^ 48 := by
  unfold roundedUp at below
  split at below
  · omega
  · omega

theorem roundedUp_nonneg {bits : Int} (nonneg : 0 ≤ bits) : 0 ≤ roundedUp bits := by
  unfold roundedUp
  split
  · omega
  · omega

theorem roundedUp_lt (bits : Int) (fits : bits < 2 ^ 112) : roundedUp bits < 2 ^ 64 := by
  unfold roundedUp
  split
  · omega
  · omega

namespace Market.Liquidable

variable {m : Market} {p : BorrowPosition} {collateralOracle supplyOracle : OracleRate}
  {health : BorrowPositionHealth} (loan : m.Liquidable p collateralOracle supplyOracle health)

include loan

theorem adjusted_bits : loan.terms.adjusted.bits = m.config.ltvConfig.targetWithBonus := by
  rw [← (Fixed.safeMul_ok _ _ _).mp loan.terms.adjusted_ok, loan.terms.onePlus_bits, i80f48_frac]
  rfl

theorem margin_bits :
    loan.terms.margin.bits = 2 ^ 48 - m.config.ltvConfig.targetWithBonus := by
  rw [← (Fixed.safeSub_ok _ _ _).mp loan.terms.margin_ok, Fixed.one_bits, i80f48_frac,
    loan.adjusted_bits]

theorem targetValue_eq :
    m.targetValue collateralOracle supplyOracle health.borrowedAtoms p.collateralDepositedAtoms =
      (health.borrowValue.bits -
          loan.discounted.value.bits * loan.terms.adjusted.bits / 2 ^ 48) * 2 ^ 48 /
        loan.terms.margin.bits := by
  rw [loan.margin_bits, loan.adjusted_bits,
    ((supplyOracle.borrowValue_ok _ _ _).mp loan.borrow_ok).2.2.2,
    ((collateralOracle.collateralValue_ok _ _ _).mp loan.discounted.value_ok).2.2,
    loan.discounted.atoms_eq]
  rfl

theorem targetValue_nonneg :
    0 ≤ m.targetValue collateralOracle supplyOracle health.borrowedAtoms
      p.collateralDepositedAtoms := by
  have allowed_le := allowed_le_of_owed loan.owed
  rw [loan.targetValue_eq]
  exact Int.ediv_nonneg (by omega) loan.terms.margin_pos.le

theorem value_iff (value : IFixedPoint) :
    valueToLiquidate health.borrowedAtoms m.supplyVault.decimals supplyOracle loan.discounted.atoms
        m.collateralVault.decimals collateralOracle loan.terms.adjusted = .ok value ↔
      value.bits = m.targetValue collateralOracle supplyOracle health.borrowedAtoms
        p.collateralDepositedAtoms := by
  rw [loan.targetValue_eq]
  exact valueToLiquidate_iff loan.borrow_ok loan.discounted.value_ok loan.terms.margin_ok
    loan.terms.adjusted_nonneg loan.terms.margin_pos loan.owed value

theorem amounts_iff (result : LiquidationResult) :
    computeLiquidation health.borrowedAtoms m.supplyVault.decimals supplyOracle
        loan.discounted.atoms m.collateralVault.decimals collateralOracle loan.terms.adjusted =
          .ok result ↔
      m.targetValue collateralOracle supplyOracle health.borrowedAtoms p.collateralDepositedAtoms *
          10 ^ m.supplyVault.decimals.toNat < 2 ^ 127 ∧
        m.targetValue collateralOracle supplyOracle health.borrowedAtoms
          p.collateralDepositedAtoms * 10 ^ m.collateralVault.decimals.toNat < 2 ^ 127 ∧
        m.targetValue collateralOracle supplyOracle health.borrowedAtoms
          p.collateralDepositedAtoms * 10 ^ m.supplyVault.decimals.toNat * 2 ^ 48 /
            supplyOracle.upper < 2 ^ 112 ∧
        (result.collateralAtomsToLiquidate.toNat : Int) =
          m.targetSeized collateralOracle supplyOracle health.borrowedAtoms
            p.collateralDepositedAtoms ∧
        (result.borrowedAtomsToRepay.toNat : Int) =
          m.targetRepaid collateralOracle supplyOracle health.borrowedAtoms
            p.collateralDepositedAtoms := by
  obtain ⟨small, -⟩ := (collateralOracle.collateralValue_ok _ _ _).mp loan.discounted.value_ok
  obtain ⟨upper_lt, small', -⟩ := (supplyOracle.borrowValue_ok _ _ _).mp loan.borrow_ok
  have value_nonneg := loan.targetValue_nonneg
  simp only [computeLiquidation_ok, loan.value_iff]
  unfold Market.targetSeized Market.targetRepaid
  generalize m.targetValue collateralOracle supplyOracle health.borrowedAtoms
    p.collateralDepositedAtoms = target at *
  constructor
  · rintro ⟨value, seized, repayment, rfl, seized_ok, repayment_ok, down, up⟩
    obtain ⟨collateral_fits, seized_eq⟩ :=
      (collateralOracle.collateralAtoms_down_iff small value_nonneg _).mp ⟨seized, seized_ok, down⟩
    obtain ⟨debt_fits, limit, repaid_eq⟩ :=
      (supplyOracle.borrowAtoms_up_iff upper_lt small' value_nonneg _).mp
        ⟨repayment, repayment_ok, up⟩
    exact ⟨debt_fits, collateral_fits, limit, seized_eq, repaid_eq⟩
  · rintro ⟨debt_fits, collateral_fits, limit, seized_eq, repaid_eq⟩
    have scaled : target ≤ target * 10 ^ m.supplyVault.decimals.toNat :=
      le_mul_of_one_le_right value_nonneg (one_le_pow₀ (by norm_num))
    obtain ⟨value, rfl⟩ := IFixedPoint.exists_bits target (by omega) (by omega)
    obtain ⟨seized, seized_ok, down⟩ :=
      (collateralOracle.collateralAtoms_down_iff small value_nonneg _).mpr
        ⟨collateral_fits, seized_eq⟩
    obtain ⟨repayment, repayment_ok, up⟩ :=
      (supplyOracle.borrowAtoms_up_iff upper_lt small' value_nonneg _).mpr
        ⟨debt_fits, limit, repaid_eq⟩
    exact ⟨value, seized, repayment, rfl, seized_ok, repayment_ok, down, up⟩

omit loan in
theorem capped_eq {result : LiquidationResult}
    (seized_eq : (result.collateralAtomsToLiquidate.toNat : Int) =
      m.targetSeized collateralOracle supplyOracle health.borrowedAtoms p.collateralDepositedAtoms)
    (repaid_eq : (result.borrowedAtomsToRepay.toNat : Int) =
      m.targetRepaid collateralOracle supplyOracle health.borrowedAtoms
        p.collateralDepositedAtoms) :
    ((result.adjustForMaxRepay health.borrowedAtoms).collateralAtomsToLiquidate.toNat : Int) =
        m.cappedSeized collateralOracle supplyOracle health.borrowedAtoms
          p.collateralDepositedAtoms ∧
      ((result.adjustForMaxRepay health.borrowedAtoms).borrowedAtomsToRepay.toNat : Int) =
        min (health.borrowedAtoms.toNat : Int) (m.targetRepaid collateralOracle supplyOracle
          health.borrowedAtoms p.collateralDepositedAtoms) := by
  rw [Market.cappedSeized, ← seized_eq, ← repaid_eq, LiquidationResult.adjustForMaxRepay]
  by_cases smaller : health.borrowedAtoms < result.borrowedAtomsToRepay
  · have ordered := UInt64.lt_iff_toNat_lt.mp smaller
    rw [if_pos smaller, if_pos (by exact_mod_cast ordered)]
    dsimp only
    rw [scaleToRepay_toNat _ _ _ smaller]
    exact ⟨by push_cast; rfl, by omega⟩
  · have ordered : ¬ health.borrowedAtoms.toNat < result.borrowedAtomsToRepay.toNat :=
      fun below => smaller (UInt64.lt_iff_toNat_lt.mpr below)
    rw [if_neg smaller, if_neg (by exact_mod_cast ordered)]
    exact ⟨rfl, by omega⟩

/-- A liquidation that is computed, with its amounts in whole numbers. -/
theorem computed_amounts {liquidation : LiquidationResultWithBonus}
    (computed : computeLiquidationWithFee health.borrowedAtoms m.supplyVault.decimals supplyOracle
      p.collateralDepositedAtoms m.collateralVault.decimals collateralOracle
      m.config.ltvConfig.targetLtvAfterLiquidation m.config.ltvConfig.liquidationBonus U64.max =
        .ok liquidation) :
    (liquidation.borrowedAtomsToRepay.toNat : Int) =
        min (health.borrowedAtoms.toNat : Int) (m.targetRepaid collateralOracle supplyOracle
          health.borrowedAtoms p.collateralDepositedAtoms) ∧
      (liquidation.taken : ℚ) ≤ (1 + m.config.ltvConfig.liquidationBonus.toRat) *
        m.cappedSeized collateralOracle supplyOracle health.borrowedAtoms
          p.collateralDepositedAtoms ∧
      ((min (health.borrowedAtoms.toNat : Int) (m.targetRepaid collateralOracle supplyOracle
          health.borrowedAtoms p.collateralDepositedAtoms) <
            m.supplyVault.borrowSharesTracker.atomsPerShare.bits) →
        m.TargetFits collateralOracle supplyOracle health.borrowedAtoms
          p.collateralDepositedAtoms) := by
  obtain ⟨result, result_ok, bonus_ok⟩ := (loan.discounted.computed_iff _ _).mp computed
  obtain ⟨debt_scaled, collateral_scaled, repaid, seized_eq, repaid_eq⟩ :=
    (loan.amounts_iff result).mp result_ok
  obtain ⟨capped, repaid_min⟩ := capped_eq seized_eq repaid_eq
  obtain ⟨same, taken_le⟩ := liquidationBonus_taken_le _ _ _ _ bonus_ok
  obtain ⟨with_bonus, held⟩ :=
    (liquidationBonus_succeeds_iff _ _ _ loan.terms.bonus_nonneg).mp ⟨liquidation, bonus_ok⟩
  have seized_lt := result.collateralAtomsToLiquidate.toNat_lt
  refine ⟨by rw [same]; exact repaid_min, ?_, fun converted => ?_⟩
  · rw [← capped, Int.cast_natCast]
    exact taken_le
  · exact ⟨debt_scaled, collateral_scaled, repaid, by omega, by rw [← capped]; exact with_bonus,
      by rw [← capped]; exact_mod_cast held, converted⟩

/-- A liquidation is computed where its amounts fit. -/
theorem computed_of_fits (fits : m.TargetFits collateralOracle supplyOracle health.borrowedAtoms
      p.collateralDepositedAtoms) :
    ∃ liquidation, computeLiquidationWithFee health.borrowedAtoms m.supplyVault.decimals
        supplyOracle p.collateralDepositedAtoms m.collateralVault.decimals collateralOracle
        m.config.ltvConfig.targetLtvAfterLiquidation m.config.ltvConfig.liquidationBonus U64.max =
          .ok liquidation := by
  have value_nonneg := loan.targetValue_nonneg
  have seized_nonneg : 0 ≤ m.targetSeized collateralOracle supplyOracle health.borrowedAtoms
      p.collateralDepositedAtoms :=
    Int.ediv_nonneg (by positivity) collateralOracle.lower_pos.le
  have repaid_nonneg : 0 ≤ m.targetRepaid collateralOracle supplyOracle health.borrowedAtoms
      p.collateralDepositedAtoms :=
    roundedUp_nonneg (Int.ediv_nonneg (by positivity) supplyOracle.upper_pos.le)
  have repaid_lt : m.targetRepaid collateralOracle supplyOracle health.borrowedAtoms
      p.collateralDepositedAtoms < 2 ^ 64 := roundedUp_lt _ fits.repaid
  have seized_lt := fits.seized
  let result : LiquidationResult :=
    { borrowedAtomsToRepay := UInt64.ofNat (m.targetRepaid collateralOracle supplyOracle
        health.borrowedAtoms p.collateralDepositedAtoms).toNat
      collateralAtomsToLiquidate := UInt64.ofNat (m.targetSeized collateralOracle supplyOracle
        health.borrowedAtoms p.collateralDepositedAtoms).toNat }
  have seized_eq : (result.collateralAtomsToLiquidate.toNat : Int) =
      m.targetSeized collateralOracle supplyOracle health.borrowedAtoms
        p.collateralDepositedAtoms := by
    rw [U64.toNat_ofNat (by omega)]
    omega
  have repaid_eq : (result.borrowedAtomsToRepay.toNat : Int) =
      m.targetRepaid collateralOracle supplyOracle health.borrowedAtoms
        p.collateralDepositedAtoms := by
    rw [U64.toNat_ofNat (by omega)]
    omega
  obtain ⟨capped, -⟩ := capped_eq seized_eq repaid_eq
  obtain ⟨liquidation, bonus_ok⟩ :=
    (liquidationBonus_succeeds_iff (result.adjustForMaxRepay health.borrowedAtoms)
      p.collateralDepositedAtoms _ loan.terms.bonus_nonneg).mpr
        ⟨by rw [capped]; exact fits.with_bonus, by
          have held := fits.held
          omega⟩
  exact ⟨liquidation, (loan.discounted.computed_iff _ _).mpr ⟨result, (loan.amounts_iff result).mpr
    ⟨fits.debt_scaled, fits.collateral_scaled, fits.repaid, seized_eq, repaid_eq⟩, bonus_ok⟩⟩

end Market.Liquidable

/-! When the amounts that are computed leave a healthy position. -/

/-- What a liquidation depends on, in exact numbers: amounts in atoms, the prices of an atom, the
ratios of the configuration, and what share rounding may leave of a repaid debt. -/
structure LiquidationFigures where
  debt : ℚ
  discounted : ℚ
  debtPrice : ℚ
  collateralPrice : ℚ
  bonus : ℚ
  target : ℚ
  unhealthy : ℚ
  dust : ℚ

def Market.figures (m : Market) (p : BorrowPosition) (collateralOracle supplyOracle : OracleRate)
    (debt : U64) : LiquidationFigures where
  debt := debt.toNat
  discounted := m.config.ltvConfig.withoutBonus p.collateralDepositedAtoms
  debtPrice := supplyOracle.exactBorrowValue 1 m.supplyVault.decimals
  collateralPrice := collateralOracle.exactCollateralValue 1 m.collateralVault.decimals
  bonus := m.config.ltvConfig.liquidationBonus.toRat
  target := m.config.ltvConfig.targetLtvAfterLiquidation.toRat
  unhealthy := m.config.ltvConfig.unhealthyLtv.toRat
  dust := m.supplyVault.borrowSharesTracker.repaymentDust p.borrowedShares debt

namespace LiquidationFigures

/-- The collateral is worth the debt and its bonus, and the surplus outweighs the rounding: at the
distance of the target from the unhealthy LTV it pays for the dust and three units in the last
place. -/
def CoversBonus (f : LiquidationFigures) : Prop :=
  (1 - f.target * (1 + f.bonus) + 1 / 2 ^ 48) *
      ((f.dust + 1 / 2 ^ 48) * f.debtPrice + 3 * (1 / 2 ^ 48)) ≤
    (f.unhealthy - f.target) * (1 + f.bonus) *
      (f.discounted * f.collateralPrice - f.debt * f.debtPrice - 2 * (1 / 2 ^ 48))

instance (f : LiquidationFigures) : Decidable f.CoversBonus := inferInstanceAs (Decidable (_ ≤ _))

/-- An atom of debt is worth so many units of the grid that their rounding is less than what one
atom moves the LTV by, between the target and the unhealthy one. -/
def FineGrid (f : LiquidationFigures) : Prop :=
  f.target * ((3 + f.debtPrice) * (1 / 2 ^ 48)) ≤
    (f.unhealthy - f.target) * (f.debtPrice - (f.debtPrice + 2) * (1 / 2 ^ 48))

instance (f : LiquidationFigures) : Decidable f.FineGrid := inferInstanceAs (Decidable (_ ≤ _))

theorem CoversBonus.surplus_pos {f : LiquidationFigures} (covers : f.CoversBonus)
    (target_le : f.target ≤ f.unhealthy) (bonus_nonneg : 0 ≤ f.bonus) (dust_nonneg : 0 ≤ f.dust)
    (price_nonneg : 0 ≤ f.debtPrice) (wide_pos : 0 < 1 - f.target * (1 + f.bonus) + 1 / 2 ^ 48) :
    0 < f.discounted * f.collateralPrice - f.debt * f.debtPrice - 2 * (1 / 2 ^ 48) := by
  unfold CoversBonus at covers
  have step_nonneg : 0 ≤ (f.unhealthy - f.target) * (1 + f.bonus) :=
    mul_nonneg (by linarith) (by linarith)
  have needed : 0 < (1 - f.target * (1 + f.bonus) + 1 / 2 ^ 48) *
      ((f.dust + 1 / 2 ^ 48) * f.debtPrice + 3 * (1 / 2 ^ 48)) := by positivity
  by_contra none
  have product_nonpos := mul_nonpos_of_nonneg_of_nonpos step_nonneg (not_lt.mp none)
  linarith

section Suffices

variable {value debt collateral ltv margin target limit bonus ulp : ℚ}

theorem owed_le (margin_eq : margin = 1 - ltv) (ulp_pos : 0 < ulp) (ltv_nonneg : 0 ≤ ltv)
    (above : debt - collateral * ltv < margin * (value + ulp)) :
    debt - value < ltv * (collateral - value) + ulp := by
  have cut : margin * ulp ≤ ulp := mul_le_of_le_one_left ulp_pos.le (by linarith)
  rw [margin_eq] at above cut
  linarith

theorem surplus_suffices {slack gap : ℚ}
    (margin_eq : margin = 1 - ltv) (margin_pos : 0 < margin) (ulp_pos : 0 < ulp)
    (bonus_nonneg : 0 ≤ bonus) (ltv_nonneg : 0 ≤ ltv) (gap_pos : 0 < gap)
    (limit_le : limit ≤ 1) (target_le : target ≤ limit)
    (ltv_le : ltv ≤ target * (1 + bonus)) (target_lt : target * (1 + bonus) < ltv + ulp)
    (below : margin * value < debt - collateral * ltv + ulp)
    (above : debt - collateral * ltv < margin * (value + ulp))
    (gap_le : gap ≤ collateral - debt - ulp)
    (covers : (1 - target * (1 + bonus) + ulp) * (slack + 3 * ulp) ≤
      (limit - target) * (1 + bonus) * gap) :
    debt - value + ulp + slack < limit * ((1 + bonus) * (collateral - value) - ulp) := by
  have wide_pos : 0 < 1 - target * (1 + bonus) + ulp := by linarith
  have step_nonneg : 0 ≤ (limit - target) * (1 + bonus) :=
    mul_nonneg (by linarith) (by linarith)
  have gap_lt : gap < margin * (collateral - value) := by
    rw [mul_sub, margin_eq, sub_mul, one_mul]
    rw [margin_eq, sub_mul, one_mul] at below
    linarith
  have left_pos : 0 < collateral - value := by
    by_contra none
    have product_nonpos := mul_nonpos_of_nonneg_of_nonpos margin_pos.le (not_lt.mp none)
    linarith
  have surplus : slack + 3 * ulp ≤ (limit - target) * (1 + bonus) * (collateral - value) := by
    apply le_of_mul_le_mul_left _ wide_pos
    calc
      _ ≤ (limit - target) * (1 + bonus) * gap := covers
      _ ≤ (limit - target) * (1 + bonus) *
          ((1 - target * (1 + bonus) + ulp) * (collateral - value)) := by
        gcongr
        refine le_trans gap_lt.le ?_
        gcongr
        linarith
      _ = _ := by ring
  have owed := owed_le margin_eq ulp_pos ltv_nonneg above
  have aimed : ltv * (collateral - value) ≤ target * (1 + bonus) * (collateral - value) := by
    gcongr
  have limit_cut : limit * ulp ≤ ulp := mul_le_of_le_one_left ulp_pos.le limit_le
  linarith

theorem atom_suffices {price left : ℚ}
    (margin_eq : margin = 1 - ltv) (ulp_pos : 0 < ulp)
    (ltv_nonneg : 0 ≤ ltv) (limit_le : limit ≤ 1) (target_lt : target < limit)
    (target_nonneg : 0 ≤ target) (price_pos : 0 < price) (ltv_le : ltv ≤ target * (1 + bonus))
    (above : debt - collateral * ltv < margin * (value + ulp))
    (whole : price ≤ left) (left_lt : left < debt - value + ulp + ulp * price)
    (fine : target * ((3 + price) * ulp) ≤ (limit - target) * (price - (price + 2) * ulp)) :
    left < limit * ((1 + bonus) * (collateral - value) - ulp) := by
  have owed := owed_le margin_eq ulp_pos ltv_nonneg above
  have atom_nonneg : 0 ≤ price - (price + 2) * ulp := by
    have scaled : 0 ≤ (limit - target) * (price - (price + 2) * ulp) :=
      le_trans (by positivity) fine
    exact nonneg_of_mul_nonneg_right scaled (by linarith)
  have carried : price - (price + 2) * ulp < ltv * (collateral - value) := by linarith
  have left_pos : 0 < collateral - value := by
    by_contra none
    have product_nonpos := mul_nonpos_of_nonneg_of_nonpos ltv_nonneg (not_lt.mp none)
    linarith
  have aimed : ltv * (collateral - value) ≤ target * (1 + bonus) * (collateral - value) := by
    gcongr
  have target_pos : 0 < target := by
    by_contra none
    have zero : target = 0 := le_antisymm (not_lt.mp none) target_nonneg
    rw [zero, zero_mul, zero_mul] at aimed
    linarith
  have outweighed : (3 + price) * ulp < (limit - target) * (1 + bonus) * (collateral - value) := by
    apply lt_of_mul_lt_mul_left _ target_pos.le
    calc
      _ ≤ (limit - target) * (price - (price + 2) * ulp) := fine
      _ < (limit - target) * (target * (1 + bonus) * (collateral - value)) := by
        gcongr
        linarith
      _ = _ := by ring
  have limit_cut : limit * ulp ≤ ulp := mul_le_of_le_one_left ulp_pos.le limit_le
  linarith

end Suffices

end LiquidationFigures

namespace Market.Liquidable

variable {m : Market} {p : BorrowPosition} {collateralOracle supplyOracle : OracleRate}
  {health : BorrowPositionHealth} (loan : m.Liquidable p collateralOracle supplyOracle health)

include loan in
theorem figures_discounted :
    (m.figures p collateralOracle supplyOracle health.borrowedAtoms).discounted =
      loan.discounted.atoms.toNat := by
  rw [Market.figures, ← loan.discounted.atoms_eq, Int.cast_natCast]

include loan in
theorem covered_gap
    (covers : (m.figures p collateralOracle supplyOracle health.borrowedAtoms).CoversBonus) :
    0 < loan.discounted.atoms.toNat *
        collateralOracle.exactCollateralValue 1 m.collateralVault.decimals -
      health.borrowedAtoms.toNat * supplyOracle.exactBorrowValue 1 m.supplyVault.decimals -
        2 * (1 / 2 ^ 48) := by
  have margin_pos := loan.margin_pos
  have margin_rat := loan.terms.margin_rat
  have adjusted_rat := loan.terms.adjusted_rat
  rw [← loan.figures_discounted]
  exact covers.surplus_pos loan.target_lt.le loan.bonus_nonneg
    (SharesTracker.repaymentDust_nonneg _ _ _) (supplyOracle.exactBorrowValue_pos _).le
    (by dsimp only [Market.figures]; linarith)

include loan in
theorem covered_exceeds
    (covers : (m.figures p collateralOracle supplyOracle health.borrowedAtoms).CoversBonus) :
    health.borrowValue.bits + 1 ≤ loan.discounted.value.bits := by
  have gap := loan.covered_gap covers
  have debt_le := loan.debt_bounds.1
  have value_gt := loan.discounted_bounds.2
  have exceeds : health.borrowValue.toRat + 1 / 2 ^ 48 ≤ loan.discounted.value.toRat := by linarith
  by_contra less
  have below := IFixedPoint.lt_next_iff.mpr (by omega : loan.discounted.value.bits ≤
    health.borrowValue.bits)
  linarith

include loan in
theorem covered_value_le
    (covers : (m.figures p collateralOracle supplyOracle health.borrowedAtoms).CoversBonus) :
    m.targetValue collateralOracle supplyOracle health.borrowedAtoms p.collateralDepositedAtoms ≤
      health.borrowValue.bits := by
  have exceeds := loan.covered_exceeds covers
  have margin_pos := loan.terms.margin_pos
  have adjusted_nonneg := loan.terms.adjusted_nonneg
  have margin_eq : loan.terms.margin.bits = 2 ^ 48 - loan.terms.adjusted.bits := by
    rw [loan.margin_bits, loan.adjusted_bits]
  have scaled : (health.borrowValue.bits + 1) * loan.terms.adjusted.bits ≤
      loan.discounted.value.bits * loan.terms.adjusted.bits := by gcongr
  have cut := Int.lt_ediv_add_one_mul_self (loan.discounted.value.bits * loan.terms.adjusted.bits)
    (by norm_num : (0 : Int) < 2 ^ 48)
  rw [loan.targetValue_eq]
  apply Int.lt_add_one_iff.mp
  apply Int.ediv_lt_of_lt_mul margin_pos
  rw [margin_eq, mul_sub]
  linarith

include loan in
theorem covered_amounts
    (covers : (m.figures p collateralOracle supplyOracle health.borrowedAtoms).CoversBonus) :
    m.targetValue collateralOracle supplyOracle health.borrowedAtoms p.collateralDepositedAtoms *
          10 ^ m.supplyVault.decimals.toNat * 2 ^ 48 / supplyOracle.upper ≤
        health.borrowedAtoms.toNat * 2 ^ 48 ∧
      m.targetSeized collateralOracle supplyOracle health.borrowedAtoms
        p.collateralDepositedAtoms ≤ loan.discounted.atoms.toNat := by
  have value_le := loan.covered_value_le covers
  have exceeds := loan.covered_exceeds covers
  obtain ⟨-, -, -, debt_eq⟩ := (supplyOracle.borrowValue_ok _ _ _).mp loan.borrow_ok
  obtain ⟨-, -, collateral_eq⟩ :=
    (collateralOracle.collateralValue_ok _ _ _).mp loan.discounted.value_ok
  have debt_cut := Int.ediv_mul_le (supplyOracle.upper * health.borrowedAtoms.toNat)
    (by positivity : (10 ^ m.supplyVault.decimals.toNat : Int) ≠ 0)
  have collateral_cut := Int.ediv_mul_le (collateralOracle.lower * loan.discounted.atoms.toNat)
    (by positivity : (10 ^ m.collateralVault.decimals.toNat : Int) ≠ 0)
  rw [← debt_eq] at debt_cut
  rw [← collateral_eq] at collateral_cut
  constructor
  · apply Int.ediv_le_of_le_mul supplyOracle.upper_pos
    calc
      _ ≤ health.borrowValue.bits * 10 ^ m.supplyVault.decimals.toNat * 2 ^ 48 := by gcongr
      _ ≤ supplyOracle.upper * health.borrowedAtoms.toNat * 2 ^ 48 := by gcongr
      _ = _ := by ring
  · apply Int.ediv_le_of_le_mul collateralOracle.lower_pos
    calc
      _ ≤ loan.discounted.value.bits * 10 ^ m.collateralVault.decimals.toNat := by
        gcongr
        omega
      _ ≤ _ := collateral_cut
      _ = _ := mul_comm _ _

include loan in
theorem covered_fits
    (covers : (m.figures p collateralOracle supplyOracle health.borrowedAtoms).CoversBonus)
    (convertible : (health.borrowedAtoms.toNat : Int) <
      m.supplyVault.borrowSharesTracker.atomsPerShare.bits) :
    m.TargetFits collateralOracle supplyOracle health.borrowedAtoms
      p.collateralDepositedAtoms := by
  have value_le := loan.covered_value_le covers
  have exceeds := loan.covered_exceeds covers
  obtain ⟨repaid_le, seized_le⟩ := loan.covered_amounts covers
  obtain ⟨-, -, debt_fits, debt_eq⟩ := (supplyOracle.borrowValue_ok _ _ _).mp loan.borrow_ok
  obtain ⟨-, collateral_fits, collateral_eq⟩ :=
    (collateralOracle.collateralValue_ok _ _ _).mp loan.discounted.value_ok
  have debt_cut := Int.ediv_mul_le (supplyOracle.upper * health.borrowedAtoms.toNat)
    (by positivity : (10 ^ m.supplyVault.decimals.toNat : Int) ≠ 0)
  have collateral_cut := Int.ediv_mul_le (collateralOracle.lower * loan.discounted.atoms.toNat)
    (by positivity : (10 ^ m.collateralVault.decimals.toNat : Int) ≠ 0)
  rw [← debt_eq] at debt_cut
  rw [← collateral_eq] at collateral_cut
  have debt_lt := health.borrowedAtoms.toNat_lt
  have collateral_lt := p.collateralDepositedAtoms.toNat_lt
  have bonus_nonneg := loan.terms.bonus_nonneg
  have uncapped : m.targetRepaid collateralOracle supplyOracle health.borrowedAtoms
      p.collateralDepositedAtoms ≤ health.borrowedAtoms.toNat := roundedUp_le repaid_le
  have capped : m.cappedSeized collateralOracle supplyOracle health.borrowedAtoms
      p.collateralDepositedAtoms = m.targetSeized collateralOracle supplyOracle health.borrowedAtoms
        p.collateralDepositedAtoms := if_neg (not_lt.mpr uncapped)
  -- with its bonus, what is seized stays within the collateral
  have paid : m.targetSeized collateralOracle supplyOracle health.borrowedAtoms
      p.collateralDepositedAtoms * (2 ^ 48 + m.config.ltvConfig.liquidationBonus.bits) ≤
        p.collateralDepositedAtoms.toNat * 2 ^ 48 := by
    calc
      _ ≤ (loan.discounted.atoms.toNat : Int) *
          (2 ^ 48 + m.config.ltvConfig.liquidationBonus.bits) := by gcongr
      _ = m.config.ltvConfig.withoutBonus p.collateralDepositedAtoms *
          (2 ^ 48 + m.config.ltvConfig.liquidationBonus.bits) := by rw [loan.discounted.atoms_eq]
      _ ≤ _ := Int.ediv_mul_le _ (by omega)
  rw [mul_add] at paid
  have seized_nonneg : 0 ≤ m.targetSeized collateralOracle supplyOracle health.borrowedAtoms
      p.collateralDepositedAtoms :=
    Int.ediv_nonneg (mul_nonneg loan.targetValue_nonneg (by positivity))
      collateralOracle.lower_pos.le
  have fee_nonneg := mul_nonneg seized_nonneg bonus_nonneg
  refine ⟨?_, ?_, by omega, by omega, by rw [capped]; omega, by rw [capped]; omega, ?_⟩
  · calc
      _ ≤ health.borrowValue.bits * 10 ^ m.supplyVault.decimals.toNat := by gcongr
      _ ≤ _ := debt_cut
      _ < _ := debt_fits
  · calc
      _ ≤ loan.discounted.value.bits * 10 ^ m.collateralVault.decimals.toNat := by
        gcongr
        omega
      _ ≤ _ := collateral_cut
      _ < _ := collateral_fits
  · exact lt_of_le_of_lt (min_le_left _ _) convertible

structure Uncapped (liquidation : LiquidationResultWithBonus) where
  value : IFixedPoint
  below : loan.terms.margin.toRat * value.toRat < health.borrowValue.toRat -
    loan.discounted.value.toRat * loan.terms.adjusted.toRat + 1 / 2 ^ 48
  above : health.borrowValue.toRat - loan.discounted.value.toRat * loan.terms.adjusted.toRat <
    loan.terms.margin.toRat * (value.toRat + 1 / 2 ^ 48)
  repaid : value.toRat < (liquidation.borrowedAtomsToRepay.toNat + 1 / 2 ^ 48) *
    supplyOracle.exactBorrowValue 1 m.supplyVault.decimals
  taken : liquidation.taken *
      collateralOracle.exactCollateralValue 1 m.collateralVault.decimals ≤
    (1 + m.config.ltvConfig.liquidationBonus.toRat) * value.toRat

theorem exists_uncapped {liquidation : LiquidationResultWithBonus}
    (computed : computeLiquidationWithFee health.borrowedAtoms m.supplyVault.decimals supplyOracle
      p.collateralDepositedAtoms m.collateralVault.decimals collateralOracle
      m.config.ltvConfig.targetLtvAfterLiquidation m.config.ltvConfig.liquidationBonus U64.max =
        .ok liquidation)
    (within : m.targetRepaid collateralOracle supplyOracle health.borrowedAtoms
      p.collateralDepositedAtoms ≤ health.borrowedAtoms.toNat)
    (bounded : m.targetValue collateralOracle supplyOracle health.borrowedAtoms
        p.collateralDepositedAtoms * 10 ^ m.supplyVault.decimals.toNat * 2 ^ 48 /
          supplyOracle.upper ≤ (2 ^ 64 - 1) * 2 ^ 48) :
    Nonempty (loan.Uncapped liquidation) := by
  obtain ⟨repaid_eq, taken_le, -⟩ := loan.computed_amounts computed
  obtain ⟨result, result_ok, -⟩ := (loan.discounted.computed_iff _ _).mp computed
  obtain ⟨value, -, -, value_ok, -⟩ := (computeLiquidation_ok result).mp result_ok
  obtain ⟨nonneg, below, above⟩ := valueToLiquidate_bounds loan.borrow_ok loan.discounted.value_ok
    loan.terms.margin_ok loan.terms.margin_pos loan.owed value_ok
  have value_eq := (loan.value_iff value).mp value_ok
  have bonus_nonneg := loan.bonus_nonneg
  have uncapped : m.cappedSeized collateralOracle supplyOracle health.borrowedAtoms
      p.collateralDepositedAtoms = m.targetSeized collateralOracle supplyOracle health.borrowedAtoms
        p.collateralDepositedAtoms := if_neg (not_lt.mpr within)
  rw [min_eq_right within] at repaid_eq
  refine ⟨⟨value, below, above, ?_, ?_⟩⟩
  · have covers := le_roundedUp_mul bounded
    have quotient := Int.lt_ediv_add_one_mul_self (value.bits * 10 ^ m.supplyVault.decimals.toNat *
      2 ^ 48) supplyOracle.upper_pos
    rw [value_eq] at quotient
    change _ ≤ m.targetRepaid collateralOracle supplyOracle health.borrowedAtoms
      p.collateralDepositedAtoms * 2 ^ 48 at covers
    rw [← repaid_eq] at covers
    rw [← OracleRate.exactBorrowValue_mul, OracleRate.exactBorrowValue_eq, Fixed.toRat, i80f48_frac,
      div_lt_div_iff_of_pos_right (by positivity), lt_div_iff₀ (by positivity), value_eq]
    have lifted : m.targetValue collateralOracle supplyOracle health.borrowedAtoms
        p.collateralDepositedAtoms * 10 ^ m.supplyVault.decimals.toNat * 2 ^ 48 <
          (liquidation.borrowedAtomsToRepay.toNat * 2 ^ 48 + 1) * supplyOracle.upper :=
      lt_of_lt_of_le quotient (mul_le_mul_of_nonneg_right (by omega) supplyOracle.upper_pos.le)
    have lifted_rat : (m.targetValue collateralOracle supplyOracle health.borrowedAtoms
        p.collateralDepositedAtoms * 10 ^ m.supplyVault.decimals.toNat * 2 ^ 48 : ℚ) <
          (liquidation.borrowedAtomsToRepay.toNat * 2 ^ 48 + 1) * supplyOracle.upper := by
      exact_mod_cast lifted
    linarith
  · have seized_le := Int.ediv_mul_le (m.targetValue collateralOracle supplyOracle
      health.borrowedAtoms p.collateralDepositedAtoms * 10 ^ m.collateralVault.decimals.toNat)
      collateralOracle.lower_pos.ne'
    change m.targetSeized collateralOracle supplyOracle health.borrowedAtoms
      p.collateralDepositedAtoms * collateralOracle.lower ≤ _ at seized_le
    rw [← value_eq] at seized_le
    have seized_rat : (m.targetSeized collateralOracle supplyOracle health.borrowedAtoms
        p.collateralDepositedAtoms * collateralOracle.lower : ℚ) ≤
          value.bits * 10 ^ m.collateralVault.decimals.toNat := by exact_mod_cast seized_le
    have worth : m.targetSeized collateralOracle supplyOracle health.borrowedAtoms
        p.collateralDepositedAtoms *
          collateralOracle.exactCollateralValue 1 m.collateralVault.decimals ≤ value.toRat := by
      rw [← OracleRate.exactCollateralValue_mul, OracleRate.exactCollateralValue_eq, Fixed.toRat,
        i80f48_frac, div_le_div_iff_of_pos_right (by positivity), div_le_iff₀ (by positivity)]
      linarith
    rw [uncapped] at taken_le
    calc
      _ ≤ (1 + m.config.ltvConfig.liquidationBonus.toRat) *
          m.targetSeized collateralOracle supplyOracle health.borrowedAtoms
            p.collateralDepositedAtoms *
          collateralOracle.exactCollateralValue 1 m.collateralVault.decimals := by
        have price_nonneg := collateralOracle.exactCollateralValue_nonneg zero_le_one
          m.collateralVault.decimals
        gcongr
      _ ≤ _ := by
        rw [mul_assoc]
        gcongr

namespace Uncapped

variable {loan} {liquidation : LiquidationResultWithBonus} (plan : loan.Uncapped liquidation)

include plan

theorem left_worth {left : U64} {dust : ℚ}
    (left_le : (left.toNat + liquidation.borrowedAtomsToRepay.toNat : ℚ) ≤
      health.borrowedAtoms.toNat + dust) :
    left.toNat * supplyOracle.exactBorrowValue 1 m.supplyVault.decimals <
      health.borrowValue.toRat - plan.value.toRat + 1 / 2 ^ 48 +
        (dust + 1 / 2 ^ 48) * supplyOracle.exactBorrowValue 1 m.supplyVault.decimals := by
  have debt_bounds := loan.debt_bounds
  have repaid := plan.repaid
  have scaled := mul_le_mul_of_nonneg_right left_le
    (supplyOracle.exactBorrowValue_nonneg zero_le_one m.supplyVault.decimals)
  linarith

theorem kept_worth {collateral : U64}
    (split : collateral.toNat + liquidation.taken = p.collateralDepositedAtoms.toNat) :
    (1 + m.config.ltvConfig.liquidationBonus.toRat) *
        (loan.discounted.value.toRat - plan.value.toRat) ≤
      collateral.toNat * collateralOracle.exactCollateralValue 1 m.collateralVault.decimals := by
  have bonus_nonneg := loan.bonus_nonneg
  have split_rat : (collateral.toNat + liquidation.taken : ℚ) =
      p.collateralDepositedAtoms.toNat := by exact_mod_cast split
  have whole_worth := mul_le_mul_of_nonneg_right loan.discounted.atoms_le
    (collateralOracle.exactCollateralValue_nonneg zero_le_one m.collateralVault.decimals)
  have held := mul_le_mul_of_nonneg_left loan.discounted_bounds.1 (by linarith : 0 ≤
    1 + m.config.ltvConfig.liquidationBonus.toRat)
  have taken := plan.taken
  rw [← split_rat] at whole_worth
  linarith

/-- Where the collateral covers the debt with its bonus, what is left is below the unhealthy LTV. -/
theorem below_of_covers
    (covers : (m.figures p collateralOracle supplyOracle health.borrowedAtoms).CoversBonus)
    {left collateral : U64}
    (left_le : (left.toNat + liquidation.borrowedAtomsToRepay.toNat : ℚ) ≤
      health.borrowedAtoms.toNat +
        m.supplyVault.borrowSharesTracker.repaymentDust p.borrowedShares health.borrowedAtoms)
    (split : collateral.toNat + liquidation.taken = p.collateralDepositedAtoms.toNat) :
    m.Below collateralOracle supplyOracle m.config.ltvConfig.unhealthyLtv left collateral := by
  right
  have debt_bounds := loan.debt_bounds
  have discounted_bounds := loan.discounted_bounds
  have unhealthy_nonneg : 0 ≤ m.config.ltvConfig.unhealthyLtv.toRat :=
    le_trans loan.target_nonneg loan.target_lt.le
  have suffices_margin := LiquidationFigures.surplus_suffices loan.terms.margin_rat loan.margin_pos
    (by positivity) loan.bonus_nonneg (Fixed.toRat_nonneg.mpr loan.terms.adjusted_nonneg)
    (loan.covered_gap covers) loan.unhealthyLtv_lt_one.le loan.target_lt.le
    loan.terms.adjusted_rat.1 loan.terms.adjusted_rat.2 plan.below plan.above (by linarith) (by
      have weighed := covers
      rw [LiquidationFigures.CoversBonus, loan.figures_discounted] at weighed
      exact weighed)
  rw [OracleRate.exactBorrowValue_mul, OracleRate.exactCollateralValue_mul]
  calc
    _ < _ := plan.left_worth left_le
    _ < _ := suffices_margin
    _ ≤ _ := by
      have kept := plan.kept_worth split
      gcongr

/-- On a fine grid and without dust, what is left is below the unhealthy LTV. -/
theorem below_of_fine
    (fine : (m.figures p collateralOracle supplyOracle health.borrowedAtoms).FineGrid)
    {left collateral : U64} (owes : left.toNat ≠ 0)
    (left_le : left.toNat + liquidation.borrowedAtomsToRepay.toNat ≤ health.borrowedAtoms.toNat)
    (split : collateral.toNat + liquidation.taken = p.collateralDepositedAtoms.toNat) :
    m.Below collateralOracle supplyOracle m.config.ltvConfig.unhealthyLtv left collateral := by
  right
  have price_pos := supplyOracle.exactBorrowValue_pos m.supplyVault.decimals
  have unhealthy_nonneg : 0 ≤ m.config.ltvConfig.unhealthyLtv.toRat :=
    le_trans loan.target_nonneg loan.target_lt.le
  have left_rat : (left.toNat + liquidation.borrowedAtomsToRepay.toNat : ℚ) ≤
      health.borrowedAtoms.toNat + 0 := by
    rw [add_zero]
    exact_mod_cast left_le
  have whole : (1 : ℚ) ≤ left.toNat := by exact_mod_cast Nat.one_le_iff_ne_zero.mpr owes
  have worth := plan.left_worth left_rat
  rw [zero_add] at worth
  rw [OracleRate.exactBorrowValue_mul, OracleRate.exactCollateralValue_mul]
  calc
    _ < _ := LiquidationFigures.atom_suffices loan.terms.margin_rat (by positivity)
      (Fixed.toRat_nonneg.mpr loan.terms.adjusted_nonneg)
      loan.unhealthyLtv_lt_one.le loan.target_lt loan.target_nonneg price_pos
      loan.terms.adjusted_rat.1 plan.above (le_mul_of_one_le_left price_pos.le whole) worth fine
    _ ≤ _ := by
      have kept := plan.kept_worth split
      gcongr

end Uncapped

include loan in
theorem fits_of_heals
    (heals : (⟨m, p⟩ : MarketWith BorrowPosition).Heals collateralOracle supplyOracle) :
    m.TargetFits collateralOracle supplyOracle health.borrowedAtoms p.collateralDepositedAtoms := by
  have solvent := loan.solvent
  have below_one : ¬ (Fixed.one : IFixedPoint) ≤ health.ltv := by
    rw [Fixed.lt_def] at solvent
    rw [Fixed.le_def]
    omega
  obtain ⟨result, s', after, success, -, -⟩ := heals
  obtain ⟨liquidated⟩ := (MarketWith.liquidate_succeeds _ _ _ _ _ _).mp success
  obtain ⟨before_ok, -, branch⟩ :=
    (Market.computeLiquidationResultWithFeeForCollateral_ok _ _ _ _ _ _ _ _).mp
      liquidated.computed_ok
  have same := Except.ok.inj (loan.health_ok.symm.trans before_ok)
  rw [← same] at branch
  rcases branch with ⟨insolvent, -⟩ | ⟨-, computed⟩
  · exact absurd insolvent below_one
  · obtain ⟨repaid_eq, -, fits⟩ := loan.computed_amounts computed
    apply fits
    rw [← repaid_eq]
    exact SharesTracker.lt_price_of_capped liquidated.capped

include loan in
/-- What a computed liquidation and its repayment leave is below the unhealthy LTV. -/
theorem below_of_repayment {liquidation : LiquidationResultWithBonus} {collateral : U64}
    (computed : computeLiquidationWithFee health.borrowedAtoms m.supplyVault.decimals supplyOracle
      p.collateralDepositedAtoms m.collateralVault.decimals collateralOracle
      m.config.ltvConfig.targetLtvAfterLiquidation m.config.ltvConfig.liquidationBonus U64.max =
        .ok liquidation)
    (repayment : m.supplyVault.borrowSharesTracker.Repayment p.borrowedShares health.borrowedAtoms
      liquidation.borrowedAtomsToRepay)
    (split : collateral.toNat + liquidation.taken = p.collateralDepositedAtoms.toNat)
    (healing : (m.figures p collateralOracle supplyOracle health.borrowedAtoms).CoversBonus ∨
      ((health.borrowedAtoms.toNat : Int) ≤ m.targetRepaid collateralOracle supplyOracle
          health.borrowedAtoms p.collateralDepositedAtoms ∧
        m.supplyVault.borrowSharesTracker.PaidBy p.borrowedShares health.borrowedAtoms) ∨
      ((m.figures p collateralOracle supplyOracle health.borrowedAtoms).FineGrid ∧
        m.supplyVault.borrowSharesTracker.repaymentDust p.borrowedShares
          health.borrowedAtoms = 0)) :
    m.Below collateralOracle supplyOracle m.config.ltvConfig.unhealthyLtv repayment.left
      collateral := by
  have debt_lt := health.borrowedAtoms.toNat_lt
  obtain ⟨repaid_eq, -, -⟩ := loan.computed_amounts computed
  rcases healing with covers | ⟨whole, paid⟩ | ⟨fine, spared⟩
  · obtain ⟨repaid_le, -⟩ := loan.covered_amounts covers
    obtain ⟨plan⟩ := loan.exists_uncapped computed (roundedUp_le repaid_le) (by omega)
    exact plan.below_of_covers covers repayment.dust split
  · have all : liquidation.borrowedAtomsToRepay = health.borrowedAtoms := by
      rw [← UInt64.toNat_inj]
      omega
    exact Or.inl (repayment.cleared (by rw [all]; exact paid))
  · by_cases none : repayment.left.toNat = 0
    · exact Or.inl none
    · have left_le : repayment.left.toNat + liquidation.borrowedAtomsToRepay.toNat ≤
          health.borrowedAtoms.toNat := by
        have dust := repayment.dust
        rw [spared, add_zero] at dust
        exact_mod_cast dust
      obtain ⟨plan⟩ := loan.exists_uncapped computed (by omega)
        (le_of_roundedUp_lt (by change m.targetRepaid _ _ _ _ < _; omega))
      exact plan.below_of_fine fine none left_le split

end Market.Liquidable

namespace Ledger

variable {σ β : Type} [DecidableEq σ] [DecidableEq β] [Fintype σ] [Fintype β]

def tightLoan : List (Operation Unit Unit) :=
  [.supply () (.lend 1000), .borrow () (.depositCollateral 631),
    .borrow () (.borrow 600 .par (.exact (.lit 2 0) (by decide)))]

/-- An unhealthy position that is solvent. -/
def IsLiquidable (collateralOracle supplyOracle : OracleRate) (s : MarketWith BorrowPosition) :
    Prop :=
  ∃ health, s.market.borrowPositionHealth s.position collateralOracle supplyOracle = .ok health ∧
    ¬ health.ltv < s.market.config.ltvConfig.unhealthyLtv ∧ health.ltv < Fixed.one

/-- A liquidation without a limit goes through and leaves the position unhealthy. -/
def IsLeftUnhealthy (collateralOracle supplyOracle : OracleRate) (s : MarketWith BorrowPosition) :
    Prop :=
  ∃ result s', (MarketWith.liquidate collateralOracle supplyOracle U64.max).Succeeds s result s' ∧
    ¬ result.healthAfterLiquidation.ltv < s.market.config.ltvConfig.unhealthyLtv

theorem isLeftUnhealthy_of_run {collateralOracle supplyOracle : OracleRate}
    {s : MarketWith BorrowPosition}
    (run : ((MarketWith.liquidate collateralOracle supplyOracle U64.max s).1.map fun result =>
      decide (result.healthAfterLiquidation.ltv < s.market.config.ltvConfig.unhealthyLtv)) =
        .ok false) :
    IsLeftUnhealthy collateralOracle supplyOracle s := by
  obtain ⟨result, s', success, seen⟩ := Method.exists_succeeds
    (MarketWith.liquidate collateralOracle supplyOracle U64.max) s
    (fun result => decide (result.healthAfterLiquidation.ltv <
      s.market.config.ltvConfig.unhealthyLtv)) false run
  exact ⟨result, s', success, of_decide_eq_false seen⟩

/-- One percent below the price at which the collateral of the huge loan covers the bonus. -/
def hugeLoanLowRate : OracleRate := .exact ⟨502702082089293, by decide, by decide⟩ (by decide)

def dustyLowRate : OracleRate := .exact (.lit 83 3) (by decide)

def dustyHighRate : OracleRate := .exact ⟨23945076268775, by decide, by decide⟩ (by decide)

def coarseMarket : Market.CreateMarket :=
  { smallMarket .newAdaptive with
    ltvConfig := ⟨.lit 5 1, .lit 6 1, .lit 1 2⟩
    supplyMintDecimals := 18
    collateralMintDecimals := 18 }

def coarseLedger : Ledger Unit Unit :=
  { smallLedger .newAdaptive with
    market := (Market.processCreateMarket coarseMarket 0 Market.zeroed).2 }

theorem coarseLedger_opened : Opened coarseMarket coarseLedger :=
  ⟨⟨0, Prod.ext (by decide +kernel) rfl⟩, fun _ => ⟨_, _, rfl⟩, fun _ => ⟨_, _, rfl⟩, rfl⟩

def coarseLoan : List (Operation Unit Unit) :=
  [.supply () (.lend 100000), .borrow () (.depositCollateral 12500),
    .borrow () (.borrow 45000 .par (.exact (.lit 100 0) (by decide)))]

def coarseRate : OracleRate := .exact (.lit 4 0) (by decide)

end Ledger

end AutaraLending
