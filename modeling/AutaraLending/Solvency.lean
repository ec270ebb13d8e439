import AutaraLending.Effect
import AutaraLending.Valuation

/-! What a market holds and is owed, against what it credits to suppliers and fee holders. The
exact difference is lowered only by operations that round against the market, each by an amount
known before it runs; while the surplus absorbs these amounts, the whole atoms credited stay
covered. -/

namespace AutaraLending

open Support

namespace Market

/-- The exact debt and the exact credit, in units of `2^-128` atoms. -/
def debt (m : Market) : Int := m.supplyVault.borrowSharesTracker.exactAtoms

def credit (m : Market) : Int := m.supplyVault.supplySharesTracker.exactAtoms

def net (m : Market) : Int := m.debt - m.credit

def DebtFits (m : Market) : Prop := m.debt ≤ (2 ^ 64 - 1) * 2 ^ 128

end Market

def SupplyAction.roundingLoss (s : MarketWith SupplyPosition) : SupplyAction → Int
  | .withdraw atoms => s.market.supplyVault.supplySharesTracker.conversionLoss atoms
  | _ => 0

theorem SupplyAction.execute_net (action : SupplyAction) (s s' : MarketWith SupplyPosition)
    (atoms : Int) (success : action.execute.Succeeds s atoms s') :
    s.market.net ≤ s'.market.net + atoms * 2 ^ 128 + action.roundingLoss s ∧
      s'.market.debt = s.market.debt := by
  have debt_eq : s'.market.debt = s.market.debt := by
    rw [(action.execute_effect _ _ _ success).market_eq]
    rfl
  refine ⟨?_, debt_eq⟩
  unfold Market.net
  rw [debt_eq]
  cases action with
  | lend amount =>
      obtain ⟨_, lent, rfl⟩ := (Method.succeeds_bind_pure _ _ _ _ _).mp success
      obtain ⟨_, tracker, minted, market_eq, -⟩ := MarketWith.lend_succeeds _ _ _ _ lent
      obtain ⟨value, loss⟩ := SharesTracker.depositAtoms_exact _ _ _ _ minted
      rw [market_eq]
      change s.market.debt - s.market.supplyVault.supplySharesTracker.exactAtoms ≤
        s.market.debt - tracker.exactAtoms + _ + 0
      linarith
  | withdraw amount =>
      obtain ⟨_, withdrawn, rfl⟩ := (Method.succeeds_bind_pure _ _ _ _ _).mp success
      obtain ⟨_, tracker, burned, market_eq, -⟩ := MarketWith.withdraw_succeeds _ _ _ _ withdrawn
      obtain ⟨value, -⟩ := SharesTracker.withdrawAtoms_exact _ _ _ _ burned
      rw [market_eq]
      change s.market.debt - s.market.supplyVault.supplySharesTracker.exactAtoms ≤
        s.market.debt - tracker.exactAtoms + _ +
          s.market.supplyVault.supplySharesTracker.conversionLoss amount
      linarith
  | withdrawAll =>
      obtain ⟨_, withdrawn, rfl⟩ := (Method.succeeds_bind_pure _ _ _ _ _).mp success
      obtain ⟨tracker, burned, market_eq, -⟩ := MarketWith.withdrawAll_succeeds _ _ _ withdrawn
      obtain ⟨value, -⟩ := SharesTracker.withdrawShares_roundDown_exact _ _ _ _ burned
      rw [market_eq]
      change s.market.debt - s.market.supplyVault.supplySharesTracker.exactAtoms ≤
        s.market.debt - tracker.exactAtoms + _ + 0
      linarith

/-- What a borrow action may round against the market: a loan is converted to shares rounded
down, and payments of shares are rounded up only after a cut to `2^-64` atoms. -/
def BorrowAction.roundingLoss (s : MarketWith BorrowPosition) : BorrowAction → Int
  | .borrow borrowAtoms _ _ => s.market.supplyVault.borrowSharesTracker.conversionLoss borrowAtoms
  | .repayAll => 2 ^ 64
  | .liquidate _ _ _ => 2 ^ 64
  | .settleCapitalSweep _ _ _ _ => 2 ^ 64
  | .socializeLoss _ _ =>
      match s.market.supplyVault.borrowSharesToAtoms s.position.borrowedShares with
      | .ok debt => 2 ^ 64 + s.market.supplyVault.supplySharesTracker.spreadLoss debt
      | .error _ => 0
  | _ => 0

theorem capped_repayment (computed : LiquidationResultWithBonus) (maxShares : UFixedPoint)
    (t t' : SharesTracker) (paid : U64) (shares : UFixedPoint)
    (fits : t.exactAtoms ≤ (2 ^ 64 - 1) * 2 ^ 128)
    (capped : (SharesTracker.withdrawAtomsCapped computed.borrowedAtomsToRepay maxShares
      .roundUp).Succeeds t (paid, shares) t') :
    t.exactAtoms < t'.exactAtoms +
        (computed.adjustForMaxRepay paid).borrowedAtomsToRepay.toNat * 2 ^ 128 + 2 ^ 64 ∧
      t'.exactAtoms ≤ t.exactAtoms := by
  obtain ⟨within, covered, lowered⟩ :=
    SharesTracker.withdrawAtomsCapped_exact _ _ _ _ _ _ fits capped
  have reported : (computed.adjustForMaxRepay paid).borrowedAtomsToRepay.toNat = paid.toNat := by
    unfold LiquidationResultWithBonus.adjustForMaxRepay
    split
    · rfl
    · rename_i enough
      rw [UInt64.lt_iff_toNat_lt] at enough
      omega
  rw [reported]
  exact ⟨covered, lowered⟩

theorem SupplyVault.borrow_within_utilisation (v : SupplyVault) (rate : IFixedPoint)
    (success : v.utilisationRate = .ok rate) (bounded : rate.bits ≤ maxUtilisationRate.bits) :
    SharesTracker.roundedUp v.borrowSharesTracker.exactAtoms ≤
        v.supplySharesTracker.exactAtoms / 2 ^ 128 ∧
      v.borrowSharesTracker.exactAtoms ≤ (2 ^ 64 - 1) * 2 ^ 128 := by
  obtain ⟨supplied, borrowed, supply, borrow, empty, nonempty⟩ := utilisationRate_totals _ _ success
  have supply_eq := SharesTracker.totalAtoms_roundDown_eq _ _ supply
  have cap : maxUtilisationRate.bits = 278660226943549 := by decide
  have supplied_lt := supplied.toNat_lt
  have below : borrowed.toNat < 2 ^ 64 - 1 ∧ borrowed.toNat ≤ supplied.toNat := by
    by_cases zero : supplied.toNat = 0
    · have none := (empty zero).1
      omega
    · have ratio := nonempty zero
      have scaled : (rate.bits + 1) * supplied.toNat ≤ 278660226943550 * supplied.toNat :=
        Int.mul_le_mul_of_nonneg_right (by omega) (by omega)
      omega
  rcases (SharesTracker.totalAtoms_roundUp_le _ _ borrow).2 with exact_up | ⟨saturated, -⟩
  · have covers := SharesTracker.roundedUp_covers v.borrowSharesTracker.exactAtoms
    rw [← exact_up] at covers ⊢
    exact ⟨by omega, by omega⟩
  · omega

namespace MarketWith

variable {s s' : MarketWith BorrowPosition}

theorem net_of_collateral (total : U64) (same : s'.market = s.market.withCollateral total) :
    s'.market.net = s.market.net ∧ s'.market.debt = s.market.debt := by
  rw [same]
  exact ⟨rfl, rfl⟩

theorem net_of_borrowTracker (tracker : SharesTracker)
    (same : s'.market = s.market.withBorrowTracker tracker) :
    s'.market.net = s.market.net + (tracker.exactAtoms - s.market.debt) ∧
      s'.market.debt = tracker.exactAtoms := by
  rw [same]
  refine ⟨?_, rfl⟩
  change tracker.exactAtoms - s.market.credit = _
  unfold Market.net
  ring

theorem borrow_net {amount : U64} {supplyOracle collateralOracle : OracleRate} {u : Unit}
    (sound : s.market.ConfigSound)
    (success : (borrow amount supplyOracle collateralOracle).Succeeds s u s') :
    s.market.net ≤ s'.market.net - amount.toNat * 2 ^ 128 +
        s.market.supplyVault.borrowSharesTracker.conversionLoss amount ∧ s'.market.DebtFits := by
  obtain ⟨-, _, tracker, _, utilisation, minted, market_eq, -, -, -, utilised, within⟩ :=
    borrow_succeeds _ _ _ _ _ _ success
  obtain ⟨value, -⟩ := SharesTracker.depositAtoms_exact _ _ _ _ minted
  have bounded : utilisation.bits ≤ maxUtilisationRate.bits := by
    rw [market_eq] at within
    exact le_trans within sound.utilisation
  refine ⟨?_, (SupplyVault.borrow_within_utilisation _ _ utilised bounded).2⟩
  rw [(net_of_borrowTracker tracker market_eq).1]
  unfold Market.debt
  linarith

theorem repay_net {amount : U64} {u : Unit} (fits : s.market.DebtFits)
    (success : (repay amount).Succeeds s u s') :
    s.market.net ≤ s'.market.net + amount.toNat * 2 ^ 128 ∧ s'.market.DebtFits := by
  obtain ⟨-, shares, tracker, converted, repayment, market_eq, -⟩ := repay_succeeds _ _ _ _ success
  obtain ⟨value, loss⟩ := SharesTracker.atomsToShares_exact _ _ _ converted
  have moved := SharesTracker.exactAtoms_of_burned _ _ _ repayment.burned repayment.price
  have lowered := mul_nonneg shares.bits_nonneg
    s.market.supplyVault.borrowSharesTracker.atomsPerShare.bits_nonneg
  obtain ⟨net_eq, debt_eq⟩ := net_of_borrowTracker tracker market_eq
  unfold Market.DebtFits at fits ⊢
  rw [net_eq, debt_eq]
  unfold Market.debt at fits ⊢
  exact ⟨by linarith, by linarith⟩

theorem repayAll_net {paid : U64} (fits : s.market.DebtFits)
    (success : repayAll.Succeeds s paid s') :
    s.market.net ≤ s'.market.net + paid.toNat * 2 ^ 128 + 2 ^ 64 ∧ s'.market.DebtFits := by
  obtain ⟨-, tracker, converted, repayment, market_eq, -⟩ := repayAll_succeeds _ _ _ success
  obtain ⟨covered, lowered⟩ := SharesTracker.withdrawShares_roundUp_exact _ _ tracker _ fits
    ((SharesTracker.withdrawShares_succeeds _ _ _ _ _).mpr
      ⟨converted, repayment.burned, repayment.price⟩)
  obtain ⟨net_eq, debt_eq⟩ := net_of_borrowTracker tracker market_eq
  unfold Market.DebtFits at fits ⊢
  rw [net_eq, debt_eq]
  unfold Market.debt at fits ⊢
  exact ⟨by linarith, le_trans lowered fits⟩

theorem net_of_capped {computed : LiquidationResultWithBonus} {maxShares shares : UFixedPoint}
    {paid : U64} {tracker : SharesTracker} (total : U64) (fits : s.market.DebtFits)
    (capped : (SharesTracker.withdrawAtomsCapped computed.borrowedAtomsToRepay maxShares
      .roundUp).Succeeds s.market.supplyVault.borrowSharesTracker (paid, shares) tracker)
    (same : s'.market = (s.market.withBorrowTracker tracker).withCollateral total) :
    s.market.net ≤ s'.market.net +
        (computed.adjustForMaxRepay paid).borrowedAtomsToRepay.toNat * 2 ^ 128 + 2 ^ 64 ∧
      s'.market.DebtFits := by
  obtain ⟨covered, lowered⟩ := capped_repayment _ _ _ _ _ _ fits capped
  rw [same]
  refine ⟨?_, le_trans lowered fits⟩
  change s.market.supplyVault.borrowSharesTracker.exactAtoms - s.market.credit ≤
    tracker.exactAtoms - s.market.credit + _ + 2 ^ 64
  linarith

theorem socializeLoss_net {collateralOracle supplyOracle : OracleRate} {paid : U64 × U64}
    (fits : s.market.DebtFits)
    (success : (socializeLoss collateralOracle supplyOracle).Succeeds s paid s') :
    s.market.supplyVault.borrowSharesToAtoms s.position.borrowedShares = .ok paid.1 ∧
      s.market.net ≤ s'.market.net + 2 ^ 64 +
        s.market.supplyVault.supplySharesTracker.spreadLoss paid.1 ∧ s'.market.DebtFits := by
  obtain ⟨-, _, borrowTracker, supplyTracker, _, -, -, burned, lost, -, rfl, -⟩ :=
    (socializeLoss_succeeds _ _ _ _ _).mp success
  obtain ⟨covered, lowered⟩ := SharesTracker.withdrawShares_roundUp_exact _ _ _ _ fits burned
  have spread := SharesTracker.socializeLossAtoms_exact _ _ _ _ lost
  refine ⟨((SharesTracker.withdrawShares_succeeds _ _ _ _ _).mp burned).1, ?_,
    le_trans lowered fits⟩
  change s.market.supplyVault.borrowSharesTracker.exactAtoms -
      s.market.supplyVault.supplySharesTracker.exactAtoms ≤
    borrowTracker.exactAtoms - supplyTracker.exactAtoms + 2 ^ 64 + _
  linarith

end MarketWith

theorem BorrowAction.execute_net (action : BorrowAction) (s s' : MarketWith BorrowPosition)
    (atoms : Int) (fits : s.market.DebtFits) (sound : s.market.ConfigSound)
    (success : action.execute.Succeeds s atoms s') :
    s.market.net ≤ s'.market.net + atoms * 2 ^ 128 + action.roundingLoss s ∧
      s'.market.DebtFits := by
  have of_collateral : ∀ total, s'.market = s.market.withCollateral total →
      s.market.net ≤ s'.market.net + 0 * 2 ^ 128 + 0 ∧ s'.market.DebtFits := by
    intro total same
    obtain ⟨net_eq, debt_eq⟩ := MarketWith.net_of_collateral total same
    unfold Market.DebtFits at fits ⊢
    rw [net_eq, debt_eq, zero_mul, add_zero, add_zero]
    exact ⟨le_rfl, fits⟩
  cases action with
  | depositCollateral amount =>
      obtain ⟨_, deposited, rfl⟩ := (Method.succeeds_bind_pure _ _ _ _ _).mp success
      obtain ⟨-, _, total, -, -, rfl⟩ :=
        (MarketWith.depositCollateral_succeeds _ _ _ _).mp deposited
      exact of_collateral total rfl
  | withdrawCollateral amount collateralOracle supplyOracle =>
      obtain ⟨_, withdrawn, rfl⟩ := (Method.succeeds_bind_pure _ _ _ _ _).mp success
      obtain ⟨-, _, total, -, -, -, rfl, -⟩ :=
        MarketWith.withdrawCollateral_succeeds _ _ _ _ _ _ withdrawn
      exact of_collateral total rfl
  | borrow amount supplyOracle collateralOracle =>
      obtain ⟨_, borrowed, rfl⟩ := (Method.succeeds_bind_pure _ _ _ _ _).mp success
      obtain ⟨net_le, fits'⟩ := MarketWith.borrow_net sound borrowed
      simp only [roundingLoss, neg_mul, ← sub_eq_add_neg]
      exact ⟨net_le, fits'⟩
  | repay amount =>
      obtain ⟨_, repaid, rfl⟩ := (Method.succeeds_bind_pure _ _ _ _ _).mp success
      simp only [roundingLoss, add_zero]
      exact MarketWith.repay_net fits repaid
  | repayAll =>
      obtain ⟨_, repaid, rfl⟩ := (Method.succeeds_bind_pure _ _ _ _ _).mp success
      exact MarketWith.repayAll_net fits repaid
  | liquidate collateralOracle supplyOracle maxRepayAtoms =>
      obtain ⟨_, liquidated, rfl⟩ := (Method.succeeds_bind_pure _ _ _ _ _).mp success
      obtain ⟨done⟩ := (MarketWith.liquidate_succeeds _ _ _ _ _ _).mp liquidated
      rw [done.liquidation_eq]
      exact MarketWith.net_of_capped done.total fits done.capped
        (congrArg MarketWith.market done.final)
  | beginCapitalSweep collateralOracle supplyOracle =>
      obtain ⟨_, swept, rfl⟩ := (Method.succeeds_bind_pure _ _ _ _ _).mp success
      obtain ⟨-, -, -, -, total, -, rfl⟩ :=
        (MarketWith.beginCapitalSweep_succeeds _ _ _ _ _).mp swept
      exact of_collateral total rfl
  | settleCapitalSweep collateralOracle supplyOracle maxRepayAtoms maxCollateralAtomsToReturn =>
      obtain ⟨_, settled, rfl⟩ := (Method.succeeds_bind_pure _ _ _ _ _).mp success
      obtain ⟨done⟩ := (MarketWith.settleCapitalSweep_succeeds _ _ _ _ _ _ _).mp settled
      rw [done.liquidation_eq]
      exact MarketWith.net_of_capped done.total fits done.capped
        (congrArg MarketWith.market done.final)
  | socializeLoss collateralOracle supplyOracle =>
      obtain ⟨paid, socialized, rfl⟩ := (Method.succeeds_bind_pure _ _ _ _ _).mp success
      obtain ⟨reported, net_le, fits'⟩ := MarketWith.socializeLoss_net fits socialized
      refine ⟨?_, fits'⟩
      simp only [roundingLoss, reported]
      linarith

/-- The debt after a sync, times `2^48`: grown at the borrow rate, less what its price loses. -/
def SupplyVault.grownDebt (v : SupplyVault) (unixTimestamp : Int64) : Int :=
  match v.accrualRates unixTimestamp with
  | .ok (growth, _) =>
      (2 ^ 48 + growth.rate.bits) * v.borrowSharesTracker.exactAtoms -
        SharesTracker.droppedPrice growth.rate.bits v.borrowSharesTracker.atomsPerShare.bits *
          v.borrowSharesTracker.totalShares.bits
  | .error _ => 0

/-- What a sync may round against the market. The credit grows at the lending rate, which comes from
the rounded totals. -/
def SupplyVault.accrualLoss (v : SupplyVault) (unixTimestamp : Int64) : Int :=
  match v.accrualRates unixTimestamp with
  | .ok (growth, lending) =>
      (lending.rate.bits * v.supplySharesTracker.exactAtoms -
        growth.rate.bits * v.borrowSharesTracker.exactAtoms +
          SharesTracker.droppedPrice growth.rate.bits v.borrowSharesTracker.atomsPerShare.bits *
            v.borrowSharesTracker.totalShares.bits) / 2 ^ 48
  | .error _ => 0

def SupplyVault.AccruedDebtFits (v : SupplyVault) (unixTimestamp : Int64) : Prop :=
  v.grownDebt unixTimestamp ≤ 2 ^ 48 * ((2 ^ 64 - 1) * 2 ^ 128)

instance (v : SupplyVault) (unixTimestamp : Int64) : Decidable (v.AccruedDebtFits unixTimestamp) :=
  inferInstanceAs (Decidable (_ ≤ _))

theorem SupplyVault.Sync.lending_of_empty {timestamp : Int64} {fee : UFixedPoint}
    {protocolBps : UInt16} {v v' : SupplyVault} (sync : Sync timestamp fee protocolBps v v')
    (idle : sync.utilisation.bits = 0) : sync.lending.rate.bits = 0 := by
  have lending_ok := sync.lending_ok
  simp only [InterestRate.adjustForUtilisationRate, except_map_ok, Fixed.safeMul_ok, idle, mul_zero,
    Int.zero_ediv] at lending_ok
  obtain ⟨_, zero, lending_eq⟩ := lending_ok
  rw [← lending_eq, ← zero]

theorem SupplyVault.Sync.net {timestamp : Int64} {fee : UFixedPoint} {protocolBps : UInt16}
    {v v' : SupplyVault} (sync : Sync timestamp fee protocolBps v v') (whole : fee.bits ≤ 2 ^ 64)
    (grain : v.borrowSharesTracker.atomsPerShare.bits % 2 ^ 16 = 0)
    (fits : v.AccruedDebtFits timestamp) :
    v.borrowSharesTracker.exactAtoms - v.supplySharesTracker.exactAtoms ≤
        v'.borrowSharesTracker.exactAtoms - v'.supplySharesTracker.exactAtoms +
          v.accrualLoss timestamp ∧
      v'.borrowSharesTracker.exactAtoms ≤ (2 ^ 64 - 1) * 2 ^ 128 ∧
      v'.borrowSharesTracker.atomsPerShare.bits % 2 ^ 16 = 0 := by
  obtain ⟨supplied, _, supply, -, empty, -⟩ := utilisationRate_totals _ _ sync.utilisation_ok
  have aligned := (SharesTracker.applyInterestRate_exact _ _ _ _ grain sync.borrow_ok).1
  have debt_eq := SharesTracker.applyInterestRate_exactAtoms _ _ _ _ sync.borrow_ok
  have credit_le : 2 ^ 48 * v'.supplySharesTracker.exactAtoms ≤
      (2 ^ 48 + sync.lending.rate.bits) * v.supplySharesTracker.exactAtoms := by
    rcases SharesTracker.applyInterestRateWithFee_exact _ _ _ _ _ whole supplied supply
      sync.supply_ok with ⟨none, same⟩ | ⟨-, bounded, -⟩
    · rw [same, sync.lending_of_empty (empty none).2, add_zero]
    · exact bounded
  unfold accrualLoss
  unfold AccruedDebtFits grownDebt at fits
  rw [sync.accrualRates_eq] at fits ⊢
  dsimp only at fits ⊢
  refine ⟨?_, by omega, aligned⟩
  rw [← sub_le_iff_le_add']
  apply Int.le_ediv_of_mul_le (by norm_num)
  linarith

def MarketAction.roundingLoss (m : Market) : MarketAction → Int
  | .syncClock unixTimestamp =>
      if m.supplyVault.lastUpdateUnixTimestamp < unixTimestamp then
        m.supplyVault.accrualLoss unixTimestamp
      else 0
  | _ => 0

def MarketAction.KeepsDebtFitting (m : Market) : MarketAction → Prop
  | .syncClock unixTimestamp =>
      m.supplyVault.lastUpdateUnixTimestamp < unixTimestamp →
        m.supplyVault.AccruedDebtFits unixTimestamp
  | _ => True

structure Market.Priced (m : Market) : Prop where
  grain : m.supplyVault.borrowSharesTracker.atomsPerShare.bits % 2 ^ 16 = 0
  fits : m.DebtFits
  sound : m.ConfigSound

theorem Market.Priced.ofIdle {m m' : Market} (priced : m.Priced)
    (idle : SupplyVault.Idle m.supplyVault m'.supplyVault) (sound : m'.ConfigSound) :
    m'.Priced ∧ m'.debt = m.debt := by
  have same : m'.debt = m.debt := by
    unfold Market.debt
    rw [idle.borrow]
  refine ⟨⟨?_, ?_, sound⟩, same⟩
  · rw [idle.borrow]
    exact priced.grain
  · unfold Market.DebtFits
    rw [same]
    exact priced.fits

theorem MarketAction.execute_credit (action : MarketAction) (m m' : Market) (atoms : Int)
    (other : ∀ unixTimestamp, action ≠ .syncClock unixTimestamp)
    (success : action.execute.Succeeds m atoms m') :
    m'.credit ≤ m.credit + atoms * 2 ^ 128 := by
  cases action with
  | donateSupplyAtoms amount =>
      obtain ⟨_, donated, rfl⟩ := (Method.succeeds_bind_pure _ _ _ _ _).mp success
      obtain ⟨tracker, raised, rfl⟩ := (Market.donateSupplyAtoms_succeeds _ _ _ _).mp donated
      exact (SharesTracker.donateAtoms_exact _ _ _ _ raised).2
  | syncClock unixTimestamp => exact absurd rfl (other unixTimestamp)
  | redeemProtocolFees =>
      obtain ⟨_, redeemed, rfl⟩ := (Method.succeeds_bind_pure _ _ _ _ _).mp success
      obtain ⟨tracker, burned, rfl, -⟩ := Market.redeemProtocolFees_succeeds _ _ _ redeemed
      have paid := (SharesTracker.withdrawShares_roundDown_exact _ _ _ _ burned).1
      change tracker.exactAtoms ≤ m.supplyVault.supplySharesTracker.exactAtoms + _
      linarith
  | redeemCuratorFess =>
      obtain ⟨_, redeemed, rfl⟩ := (Method.succeeds_bind_pure _ _ _ _ _).mp success
      obtain ⟨tracker, burned, rfl, -⟩ := Market.redeemCuratorFess_succeeds _ _ _ redeemed
      have paid := (SharesTracker.withdrawShares_roundDown_exact _ _ _ _ burned).1
      change tracker.exactAtoms ≤ m.supplyVault.supplySharesTracker.exactAtoms + _
      linarith
  | setSupplyOracleConfig oracleConfig =>
      obtain ⟨updated, rfl⟩ := (withoutTransfer_succeeds _ _ _ _).mp success
      obtain rfl := Market.setSupplyOracleConfig_succeeds _ _ _ _ updated
      simp only [zero_mul, add_zero]
      exact le_rfl
  | setCollateralOracleConfig oracleConfig =>
      obtain ⟨updated, rfl⟩ := (withoutTransfer_succeeds _ _ _ _).mp success
      obtain rfl := Market.setCollateralOracleConfig_succeeds _ _ _ _ updated
      simp only [zero_mul, add_zero]
      exact le_rfl
  | _ =>
      -- the remaining actions change the configuration alone
      obtain ⟨updated, rfl⟩ := (withoutTransfer_succeeds _ _ _ _).mp success
      obtain ⟨config, -, rfl⟩ := (Market.onConfig_succeeds _ _ _ _).mp updated
      simp only [zero_mul, add_zero]
      exact le_rfl

theorem MarketAction.roundingLoss_of_ne (action : MarketAction) (m : Market)
    (other : ∀ unixTimestamp, action ≠ .syncClock unixTimestamp) : action.roundingLoss m = 0 := by
  cases action with
  | syncClock unixTimestamp => exact absurd rfl (other unixTimestamp)
  | _ => rfl

theorem MarketAction.execute_net (action : MarketAction) (m m' : Market) (atoms : Int)
    (priced : m.Priced) (kept : action.KeepsDebtFitting m)
    (success : action.execute.Succeeds m atoms m') :
    m.net ≤ m'.net + atoms * 2 ^ 128 + action.roundingLoss m ∧ m'.Priced := by
  have effect := action.execute_effect _ _ _ success
  have sound : m'.ConfigSound := ⟨effect.ltv priced.sound.ltv,
    effect.utilisation priced.sound.utilisation, effect.fee priced.sound.fee⟩
  by_cases clock : ∃ unixTimestamp, action = .syncClock unixTimestamp
  · obtain ⟨unixTimestamp, rfl⟩ := clock
    obtain ⟨synced, rfl⟩ := (withoutTransfer_succeeds _ _ _ _).mp success
    rcases Market.syncClock_succeeds _ _ _ _ synced with ⟨earlier, rfl⟩ | ⟨⟨sync⟩, -⟩
    · simp only [roundingLoss, if_neg earlier, zero_mul, add_zero]
      exact ⟨le_rfl, priced⟩
    · have later := sync.later
      have whole := m.config.lendingMarketFeeFixed_le priced.sound.fee
      obtain ⟨net_le, fits, grain⟩ := sync.net whole priced.grain (kept later)
      simp only [roundingLoss, if_pos later, zero_mul, add_zero]
      exact ⟨net_le, grain, fits, sound⟩
  · have other : ∀ unixTimestamp, action ≠ .syncClock unixTimestamp := not_exists.mp clock
    have idle : SupplyVault.Idle m.supplyVault m'.supplyVault := by
      rcases effect.accrual with idle | ⟨unixTimestamp, same, -⟩
      · exact idle
      · exact absurd same (other unixTimestamp)
    obtain ⟨priced', debt_eq⟩ := priced.ofIdle idle sound
    have credit_le := action.execute_credit _ _ _ other success
    rw [action.roundingLoss_of_ne m other]
    refine ⟨?_, priced'⟩
    unfold Market.net
    rw [debt_eq]
    linarith

namespace Ledger

variable {σ β : Type}

/-- What the market holds and is owed, less what it credits, in units of `2^-128` atoms. -/
def surplus (l : Ledger σ β) : Int := l.cash * 2 ^ 128 + l.market.net

/-- What an operation may round against the market, from the state before it. -/
def roundingLoss (l : Ledger σ β) : Operation σ β → Int
  | .supply key action => action.roundingLoss (l.supplyView key)
  | .borrow key action => action.roundingLoss (l.borrowView key)
  | .market action => action.roundingLoss l.market

def KeepsDebtFitting (l : Ledger σ β) : Operation σ β → Prop
  | .market action => action.KeepsDebtFitting l.market
  | _ => True

/-- The surplus before the operation, which may be as low as `2^-64 - 1` atoms, covers what the
operation rounds against the market, and its interest keeps the debt reportable. -/
def Absorbs (l : Ledger σ β) (operation : Operation σ β) : Prop :=
  l.roundingLoss operation + 2 ^ 64 ≤ l.surplus + 2 ^ 128 ∧ l.KeepsDebtFitting operation

structure Backed (l : Ledger σ β) : Prop where
  covered : 2 ^ 64 ≤ l.surplus + 2 ^ 128
  priced : l.market.Priced

/-- Suppliers and fee holders are credited with no more whole atoms than the market holds and
is owed. -/
def Solvent (l : Ledger σ β) : Prop :=
  ∀ totalSupply totalBorrow, l.market.supplyVault.totalSupply = .ok totalSupply →
    l.market.supplyVault.totalBorrow = .ok totalBorrow →
      (totalSupply.toNat : Int) ≤ l.cash + totalBorrow.toNat

theorem Backed.solvent {l : Ledger σ β} (backed : l.Backed) : l.Solvent := by
  intro totalSupply totalBorrow supply borrow
  have supply_eq := SharesTracker.totalAtoms_roundDown_eq _ _ supply
  have surplus_ge := backed.covered
  have fits := backed.priced.fits
  have covers :=
    SharesTracker.roundedUp_covers l.market.supplyVault.borrowSharesTracker.exactAtoms
  unfold surplus Market.net Market.debt Market.credit at surplus_ge
  unfold Market.DebtFits Market.debt at fits
  rcases (SharesTracker.totalAtoms_roundUp_le _ _ borrow).2 with exact_up | ⟨-, saturated⟩
  · rw [← exact_up] at covers
    omega
  · omega

variable [DecidableEq σ] [DecidableEq β]

/-- One step: the surplus falls by at most the rounding loss. -/
theorem Backed.step {l l' : Ledger σ β} (operation : Operation σ β) (backed : l.Backed)
    (absorbs : l.Absorbs operation) (success : (execute operation).Succeeds l () l') :
    l'.Backed := by
  obtain ⟨absorbed, kept⟩ := absorbs
  have sound' := configSound_step operation backed.priced.sound success
  cases operation with
  | supply key action =>
      obtain ⟨atoms, s, executed, rfl⟩ := (execute_supply_succeeds _ _ _ _ _).mp success
      obtain ⟨net_le, debt_eq⟩ := action.execute_net _ _ _ executed
      have idle : SupplyVault.Idle l.market.supplyVault s.market.supplyVault := by
        rw [(action.execute_effect _ _ _ executed).market_eq]
        exact ⟨rfl, rfl, rfl⟩
      refine ⟨?_, (backed.priced.ofIdle idle sound').1⟩
      change 2 ^ 64 ≤ (l.cash + atoms) * 2 ^ 128 + s.market.net + 2 ^ 128
      simp only [surplus, roundingLoss, supplyView] at absorbed net_le
      linarith
  | borrow key action =>
      obtain ⟨atoms, s, executed, rfl⟩ := (execute_borrow_succeeds _ _ _ _ _).mp success
      obtain ⟨net_le, fits⟩ :=
        action.execute_net _ _ _ backed.priced.fits backed.priced.sound executed
      have grain : s.market.supplyVault.borrowSharesTracker.atomsPerShare.bits % 2 ^ 16 = 0 := by
        rw [(action.execute_effect _ _ _ executed).price]
        exact backed.priced.grain
      refine ⟨?_, ⟨grain, fits, sound'⟩⟩
      change 2 ^ 64 ≤ (l.cash + atoms) * 2 ^ 128 + s.market.net + 2 ^ 128
      simp only [surplus, roundingLoss, borrowView] at absorbed net_le
      linarith
  | market action =>
      obtain ⟨atoms, market, executed, rfl⟩ := (execute_market_succeeds _ _ _ _).mp success
      obtain ⟨net_le, priced⟩ := action.execute_net _ _ _ backed.priced kept executed
      refine ⟨?_, priced⟩
      change 2 ^ 64 ≤ (l.cash + atoms) * 2 ^ 128 + market.net + 2 ^ 128
      simp only [surplus, roundingLoss] at absorbed
      linarith

omit [DecidableEq σ] [DecidableEq β] in
theorem Opened.backed {data : Market.CreateMarket} {l : Ledger σ β} (opened : Opened data l) :
    l.Backed := by
  obtain ⟨fresh, -⟩ := opened.fresh
  have debt_zero : l.market.debt = 0 := by
    unfold Market.debt
    rw [fresh.borrow]
    rfl
  have credit_zero : l.market.credit = 0 := by
    unfold Market.credit
    rw [fresh.supply]
    rfl
  refine ⟨?_, ⟨?_, ?_, opened.configSound⟩⟩
  · unfold surplus Market.net
    rw [opened.cash, debt_zero, credit_zero]
    norm_num
  · rw [fresh.borrow]
    rfl
  · unfold Market.DebtFits
    rw [debt_zero]
    norm_num

/-- In every run whose steps all absorb their rounding losses, every state is solvent. -/
theorem supply_solvent_while_absorbed (data : Market.CreateMarket) (start : Ledger σ β)
    (opened : Opened data start) (operations : List (Operation σ β))
    (absorbed : Machine.Along execute Absorbs start operations) (reached : Nat) :
    (start.run (operations.take reached)).Solvent := by
  have backed : (start.run (operations.take reached)).Backed :=
    Machine.run_invariant_along _ opened.backed (absorbed.take reached)
      (fun _ operation _ _ backed absorbs success => backed.step operation absorbs success)
  exact backed.solvent

def repaidLoan : List (Operation Unit Unit) :=
  smallLoan ++ [.market (.syncClock 1000000), .borrow () (.repay 100)]

theorem repaid_loan_solvent : ((smallLedger .newAdaptive).run repaidLoan).Solvent :=
  supply_solvent_while_absorbed _ _ smallLedger_adaptive_opened repaidLoan
    ⟨fun _ _ _ => ⟨by decide +kernel, trivial⟩, fun _ _ _ => ⟨by decide +kernel, trivial⟩,
      fun _ _ _ => ⟨by decide +kernel, trivial⟩,
      fun _ _ _ => ⟨by decide +kernel, fun _ => by decide +kernel⟩,
      fun _ _ _ => ⟨by decide +kernel, trivial⟩, trivial⟩ 5

/-- One percent a second, which the market accepts. -/
def steepCurve : InterestRateCurveKind := .fixed ⟨.lit 1 2⟩

def twoAccruals : List (Operation Unit Unit) :=
  [.supply () (.lend 100), .borrow () (.depositCollateral 1000), .borrow () (.borrow 10 .par .par),
    .market (.syncClock 1), .market (.syncClock 231)]

theorem insolvent_after_two_accruals :
    Opened (smallMarket steepCurve) (smallLedger steepCurve) ∧
      ¬ ((smallLedger steepCurve).run twoAccruals).Solvent := by
  refine ⟨smallLedger_opened _ (by decide +kernel), ?_⟩
  intro solvent
  have cash : ((smallLedger steepCurve).run twoAccruals).cash = 90 := by decide +kernel
  have bounded := solvent 198 101 (by decide +kernel) (by decide +kernel)
  rw [cash] at bounded
  exact absurd bounded (by decide)

end Ledger

end AutaraLending
