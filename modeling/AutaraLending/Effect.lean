import AutaraLending.Ledger

/-! What each family of operations can change. The invariants of the ledger follow from these
effects without opening the operations again. -/

namespace AutaraLending

open Support

theorem withoutTransfer_succeeds {σ : Type} (m : LendingMethod σ Unit) (s s' : σ) (atoms : Int) :
    (withoutTransfer m).Succeeds s atoms s' ↔ m.Succeeds s () s' ∧ atoms = 0 := by
  rw [withoutTransfer, Method.succeeds_bind_pure]
  constructor
  · intro ⟨_, success, zero⟩
    exact ⟨success, zero.symm⟩
  · intro ⟨success, zero⟩
    exact ⟨(), success, zero.symm⟩

/-- Supply actions move shares between the tracker and the position, at a fixed price. -/
structure SupplyEffect (s s' : MarketWith SupplyPosition) : Prop where
  market_eq : s'.market = s.market.withSupplyTracker s'.market.supplyVault.supplySharesTracker
  price : s'.market.supplyVault.supplySharesTracker.atomsPerShare =
    s.market.supplyVault.supplySharesTracker.atomsPerShare
  shares : s'.market.supplyVault.supplySharesTracker.totalShares.bits + s.position.shares.bits =
    s.market.supplyVault.supplySharesTracker.totalShares.bits + s'.position.shares.bits

theorem SupplyAction.execute_effect (action : SupplyAction) (s s' : MarketWith SupplyPosition)
    (atoms : Int) (success : action.execute.Succeeds s atoms s') : SupplyEffect s s' := by
  cases action with
  | lend amount =>
      obtain ⟨_, lent, -⟩ := (Method.succeeds_bind_pure _ _ _ _ _).mp success
      obtain ⟨shares, tracker, minted, market_eq, credited⟩ := MarketWith.lend_succeeds _ _ _ _ lent
      obtain ⟨-, total, price⟩ := (SharesTracker.depositAtoms_succeeds _ _ _ _).mp minted
      have position := SupplyPosition.lend_succeeds _ _ _ _ _ credited
      refine ⟨by rw [market_eq]; rfl, by rw [market_eq]; exact price, ?_⟩
      rw [market_eq]
      change tracker.totalShares.bits + _ = _
      omega
  | withdraw amount =>
      obtain ⟨_, withdrawn, -⟩ := (Method.succeeds_bind_pure _ _ _ _ _).mp success
      obtain ⟨shares, tracker, burned, market_eq, -, debited⟩ :=
        MarketWith.withdraw_succeeds _ _ _ _ withdrawn
      obtain ⟨-, total, price⟩ := (SharesTracker.withdrawAtoms_succeeds _ _ _ _).mp burned
      have position := SupplyPosition.withdraw_succeeds _ _ _ _ debited
      refine ⟨by rw [market_eq]; rfl, by rw [market_eq]; exact price, ?_⟩
      rw [market_eq]
      change tracker.totalShares.bits + _ = _
      omega
  | withdrawAll =>
      obtain ⟨_, withdrawn, -⟩ := (Method.succeeds_bind_pure _ _ _ _ _).mp success
      obtain ⟨tracker, burned, market_eq, -, position_eq⟩ :=
        MarketWith.withdrawAll_succeeds _ _ _ withdrawn
      obtain ⟨-, total, price⟩ := (SharesTracker.withdrawShares_succeeds _ _ _ _ _).mp burned
      refine ⟨by rw [market_eq]; rfl, by rw [market_eq]; exact price, ?_⟩
      rw [market_eq, position_eq, Fixed.zero_bits]
      change tracker.totalShares.bits + _ = _
      omega

/-- The collateral of a swept position is out of the market. -/
def BorrowPosition.Locked (p : BorrowPosition) : Prop :=
  p.sweptCollateralAtoms ≠ 0 → p.collateralDepositedAtoms = 0

theorem BorrowPosition.locked_of_inactive (p : BorrowPosition)
    (inactive : p.sweptCollateralAtoms = 0) : p.Locked :=
  fun pending => absurd inactive pending

/-- Borrow actions move debt shares between the tracker and the position, at a fixed price,
and collateral between the vault and the position. Suppliers' shares stay. -/
structure BorrowEffect (s s' : MarketWith BorrowPosition) : Prop where
  market_eq : s'.market = ((s.market.withBorrowTracker s'.market.supplyVault.borrowSharesTracker
    ).withSupplyTracker s'.market.supplyVault.supplySharesTracker).withCollateral
      s'.market.collateralVault.totalCollateralAtoms
  price : s'.market.supplyVault.borrowSharesTracker.atomsPerShare =
    s.market.supplyVault.borrowSharesTracker.atomsPerShare
  shares :
    s'.market.supplyVault.borrowSharesTracker.totalShares.bits + s.position.borrowedShares.bits =
      s.market.supplyVault.borrowSharesTracker.totalShares.bits + s'.position.borrowedShares.bits
  supplyShares : s'.market.supplyVault.supplySharesTracker.totalShares =
    s.market.supplyVault.supplySharesTracker.totalShares
  collateral : s.position.Locked → s'.market.collateralVault.totalCollateralAtoms.toNat +
      s.position.collateralDepositedAtoms.toNat =
    s.market.collateralVault.totalCollateralAtoms.toNat +
      s'.position.collateralDepositedAtoms.toNat
  locked : s'.position.Locked

theorem SharesTracker.withdrawAtomsCapped_shares (atoms paid : U64) (maxShares shares : UFixedPoint)
    (rounding : RoundingMode) (t t' : SharesTracker)
    (success : (withdrawAtomsCapped atoms maxShares rounding).Succeeds t (paid, shares) t') :
    t.totalShares.bits = t'.totalShares.bits + shares.bits ∧ t'.atomsPerShare = t.atomsPerShare :=
  ((withdrawAtomsCapped_succeeds _ _ _ _ _ _ _).mp success).2

theorem BorrowEffect.ofShares (s s' : MarketWith BorrowPosition) (tracker : SharesTracker)
    (inactive : s.position.sweptCollateralAtoms = 0)
    (market_eq : s'.market = s.market.withBorrowTracker tracker)
    (price : tracker.atomsPerShare = s.market.supplyVault.borrowSharesTracker.atomsPerShare)
    (shares : tracker.totalShares.bits + s.position.borrowedShares.bits =
      s.market.supplyVault.borrowSharesTracker.totalShares.bits + s'.position.borrowedShares.bits)
    (collateral :
      s'.position.collateralDepositedAtoms = s.position.collateralDepositedAtoms)
    (swept : s'.position.sweptCollateralAtoms = s.position.sweptCollateralAtoms) :
    BorrowEffect s s' where
  market_eq := by rw [market_eq]; rfl
  price := by rw [market_eq]; exact price
  shares := by rw [market_eq]; exact shares
  supplyShares := by rw [market_eq]; rfl
  collateral := by rw [market_eq, collateral]; exact fun _ => rfl
  locked := s'.position.locked_of_inactive (swept.trans inactive)

namespace MarketWith

variable {s s' : MarketWith BorrowPosition}

theorem depositCollateral_effect {amount : U64} {u : Unit}
    (success : (depositCollateral amount).Succeeds s u s') : BorrowEffect s s' := by
  obtain ⟨inactive, collateral, total, added, sum, rfl⟩ :=
    (depositCollateral_succeeds _ _ _ _).mp success
  refine ⟨rfl, rfl, rfl, rfl, fun _ => ?_, BorrowPosition.locked_of_inactive _ inactive⟩
  change total.toNat + _ = _ + collateral.toNat
  omega

theorem withdrawCollateral_effect {amount : U64} {collateralOracle supplyOracle : OracleRate}
    {u : Unit} (success : (withdrawCollateral amount collateralOracle supplyOracle).Succeeds s u
      s') :
    BorrowEffect s s' := by
  obtain ⟨inactive, collateral, total, -, taken, difference, rfl, -, -⟩ :=
    withdrawCollateral_succeeds _ _ _ _ _ _ success
  refine ⟨rfl, rfl, rfl, rfl, fun _ => ?_, BorrowPosition.locked_of_inactive _ inactive⟩
  change total.toNat + _ = _ + collateral.toNat
  omega

theorem borrow_effect {amount : U64} {supplyOracle collateralOracle : OracleRate} {u : Unit}
    (success : (borrow amount supplyOracle collateralOracle).Succeeds s u s') :
    BorrowEffect s s' := by
  obtain ⟨inactive, shares, tracker, -, -, minted, market_eq, owed, -⟩ :=
    borrow_succeeds _ _ _ _ _ _ success
  obtain ⟨-, total, price⟩ := (SharesTracker.depositAtoms_succeeds _ _ _ _).mp minted
  obtain ⟨position, collateral, swept⟩ := BorrowPosition.borrow_succeeds _ _ _ _ _ owed
  exact .ofShares s _ tracker inactive market_eq price (by omega) collateral swept

theorem repay_effect {amount : U64} {u : Unit} (success : (repay amount).Succeeds s u s') :
    BorrowEffect s s' := by
  obtain ⟨inactive, shares, tracker, -, repayment, market_eq, collateral, swept⟩ :=
    repay_succeeds _ _ _ _ success
  have burned := repayment.burned
  have debt := repayment.repaid
  exact .ofShares s _ tracker inactive market_eq repayment.price (by omega) collateral swept

theorem repayAll_effect {paid : U64} (success : repayAll.Succeeds s paid s') :
    BorrowEffect s s' := by
  obtain ⟨inactive, tracker, -, repayment, market_eq, position_eq⟩ :=
    repayAll_succeeds _ _ _ success
  have burned := repayment.burned
  have debt := repayment.repaid
  exact .ofShares s _ tracker inactive market_eq repayment.price (by omega)
    (by rw [position_eq]) (by rw [position_eq])

theorem Liquidated.effect {collateralOracle supplyOracle : OracleRate} {maxRepayAtoms : U64}
    {result : LiquidationResultWithCtx}
    (done : Liquidated collateralOracle supplyOracle maxRepayAtoms s result s') :
    BorrowEffect s s' := by
  obtain ⟨burned, price⟩ := SharesTracker.withdrawAtomsCapped_shares _ _ _ _ _ _ _ done.capped
  have debt := done.debt.shares_eq
  have collateral := done.collateral_eq
  have total := done.total_eq
  rw [done.final]
  refine ⟨rfl, price, ?_, rfl, fun _ => ?_, BorrowPosition.locked_of_inactive _ done.inactive⟩
  · change done.tracker.totalShares.bits + _ = _ + done.borrowed.bits
    omega
  · change done.total.toNat + _ = _ + done.collateral.toNat
    omega

theorem beginCapitalSweep_effect {collateralOracle supplyOracle : OracleRate}
    {health : BorrowPositionHealth}
    (success : (beginCapitalSweep collateralOracle supplyOracle).Succeeds s health s') :
    BorrowEffect s s' := by
  obtain ⟨-, -, -, -, total, difference, rfl⟩ := (beginCapitalSweep_succeeds _ _ _ _ _).mp success
  refine ⟨rfl, rfl, rfl, rfl, fun _ => ?_, fun _ => rfl⟩
  change total.toNat + _ = _
  rw [add_comm]
  exact difference

theorem Settlement.effect {collateralOracle supplyOracle : OracleRate}
    {maxRepayAtoms maxCollateralAtomsToReturn : U64} {result : CapitalSweepSettlementResult}
    (done : Settlement collateralOracle supplyOracle maxRepayAtoms maxCollateralAtomsToReturn s
      result s') : BorrowEffect s s' := by
  obtain ⟨burned, price⟩ := SharesTracker.withdrawAtomsCapped_shares _ _ _ _ _ _ _ done.capped
  have debt := done.debt.shares_eq
  have total := done.total_eq
  rw [done.final]
  refine ⟨rfl, price, ?_, rfl, fun locked => ?_, BorrowPosition.locked_of_inactive _ rfl⟩
  · change done.tracker.totalShares.bits + _ = _ + done.borrowed.bits
    omega
  · rw [locked done.pending]
    change done.total.toNat + 0 = _
    exact done.total_eq.symm

theorem socializeLoss_effect {collateralOracle supplyOracle : OracleRate} {paid : U64 × U64}
    (success : (socializeLoss collateralOracle supplyOracle).Succeeds s paid s') :
    BorrowEffect s s' := by
  obtain ⟨inactive, -, borrowTracker, supplyTracker, total, -, -, burned, lost, difference, rfl,
    -⟩ := (socializeLoss_succeeds _ _ _ _ _).mp success
  obtain ⟨-, debt, price⟩ := (SharesTracker.withdrawShares_succeeds _ _ _ _ _).mp burned
  obtain ⟨-, -, supplyShares⟩ := (SharesTracker.socializeLossAtoms_succeeds _ _ _ _).mp lost
  refine ⟨rfl, price, ?_, supplyShares, fun _ => ?_, BorrowPosition.locked_of_inactive _ inactive⟩
  · change borrowTracker.totalShares.bits + _ = _ + (Fixed.zero : UFixedPoint).bits
    rw [Fixed.zero_bits]
    omega
  · change total.toNat + _ = _
    rw [add_comm]
    exact difference

end MarketWith

theorem BorrowAction.execute_effect (action : BorrowAction) (s s' : MarketWith BorrowPosition)
    (atoms : Int) (success : action.execute.Succeeds s atoms s') : BorrowEffect s s' := by
  cases action with
  | depositCollateral amount =>
      obtain ⟨_, deposited, -⟩ := (Method.succeeds_bind_pure _ _ _ _ _).mp success
      exact MarketWith.depositCollateral_effect deposited
  | withdrawCollateral amount collateralOracle supplyOracle =>
      obtain ⟨_, withdrawn, -⟩ := (Method.succeeds_bind_pure _ _ _ _ _).mp success
      exact MarketWith.withdrawCollateral_effect withdrawn
  | borrow amount supplyOracle collateralOracle =>
      obtain ⟨_, borrowed, -⟩ := (Method.succeeds_bind_pure _ _ _ _ _).mp success
      exact MarketWith.borrow_effect borrowed
  | repay amount =>
      obtain ⟨_, repaid, -⟩ := (Method.succeeds_bind_pure _ _ _ _ _).mp success
      exact MarketWith.repay_effect repaid
  | repayAll =>
      obtain ⟨_, repaid, -⟩ := (Method.succeeds_bind_pure _ _ _ _ _).mp success
      exact MarketWith.repayAll_effect repaid
  | liquidate collateralOracle supplyOracle maxRepayAtoms =>
      obtain ⟨_, liquidated, -⟩ := (Method.succeeds_bind_pure _ _ _ _ _).mp success
      obtain ⟨done⟩ := (MarketWith.liquidate_succeeds _ _ _ _ _ _).mp liquidated
      exact done.effect
  | beginCapitalSweep collateralOracle supplyOracle =>
      obtain ⟨_, swept, -⟩ := (Method.succeeds_bind_pure _ _ _ _ _).mp success
      exact MarketWith.beginCapitalSweep_effect swept
  | settleCapitalSweep collateralOracle supplyOracle maxRepayAtoms maxCollateralAtomsToReturn =>
      obtain ⟨_, settled, -⟩ := (Method.succeeds_bind_pure _ _ _ _ _).mp success
      obtain ⟨done⟩ := (MarketWith.settleCapitalSweep_succeeds _ _ _ _ _ _ _).mp settled
      exact done.effect
  | socializeLoss collateralOracle supplyOracle =>
      obtain ⟨_, socialized, -⟩ := (Method.succeeds_bind_pure _ _ _ _ _).mp success
      exact MarketWith.socializeLoss_effect socialized

/-- No interest has accrued between the two states of a vault. -/
structure SupplyVault.Idle (v v' : SupplyVault) : Prop where
  borrow : v'.borrowSharesTracker = v.borrowSharesTracker
  curve : v'.interestRateCurve = v.interestRateCurve
  timestamp : v'.lastUpdateUnixTimestamp = v.lastUpdateUnixTimestamp

/-- Market actions leave debt shares and collateral alone, keep the decimals of both mints
and never lower the loan-to-value at which positions become unhealthy. Only a sync accrues
interest. -/
structure MarketEffect (action : MarketAction) (m m' : Market) : Prop where
  borrowShares : m'.supplyVault.borrowSharesTracker.totalShares =
    m.supplyVault.borrowSharesTracker.totalShares
  supplyShares : m'.supplyVault.supplySharesTracker.totalShares.bits +
      (m.supplyVault.pendingProtocolFeeShares.bits + m.supplyVault.pendingCuratorFeeShares.bits) =
    m.supplyVault.supplySharesTracker.totalShares.bits +
      (m'.supplyVault.pendingProtocolFeeShares.bits + m'.supplyVault.pendingCuratorFeeShares.bits)
  collateral :
    m'.collateralVault.totalCollateralAtoms = m.collateralVault.totalCollateralAtoms
  supplyDecimals : m'.supplyVault.mintDecimals = m.supplyVault.mintDecimals
  collateralDecimals : m'.collateralVault.mintDecimals = m.collateralVault.mintDecimals
  unhealthyLtv :
    m.config.ltvConfig.unhealthyLtv.bits ≤ m'.config.ltvConfig.unhealthyLtv.bits
  ltv : m.config.ltvConfig.Sound → m'.config.ltvConfig.Sound
  utilisation :
    m.config.maxUtilisationRate.bits ≤ maxUtilisationRate.bits →
      m'.config.maxUtilisationRate.bits ≤ maxUtilisationRate.bits
  fee : ¬ maxLendingMarketFeeInBps < m.config.lendingMarketFeeInBps →
    ¬ maxLendingMarketFeeInBps < m'.config.lendingMarketFeeInBps
  accrual : SupplyVault.Idle m.supplyVault m'.supplyVault ∨
    ∃ unixTimestamp, action = .syncClock unixTimestamp ∧
      Nonempty (SupplyVault.Sync unixTimestamp m.config.lendingMarketFeeFixed
        m.config.protocolFeeShareInBps m.supplyVault m'.supplyVault)

theorem MarketEffect.ofConfig (action : MarketAction) (m m' : Market)
    (supply : m'.supplyVault = m.supplyVault)
    (collateral : m'.collateralVault = m.collateralVault)
    (unhealthyLtv :
      m.config.ltvConfig.unhealthyLtv.bits ≤ m'.config.ltvConfig.unhealthyLtv.bits)
    (ltv : m.config.ltvConfig.Sound → m'.config.ltvConfig.Sound)
    (utilisation : m.config.maxUtilisationRate.bits ≤ maxUtilisationRate.bits →
      m'.config.maxUtilisationRate.bits ≤ maxUtilisationRate.bits)
    (fee : ¬ maxLendingMarketFeeInBps < m.config.lendingMarketFeeInBps →
      ¬ maxLendingMarketFeeInBps < m'.config.lendingMarketFeeInBps) :
    MarketEffect action m m' := by
  refine ⟨?_, ?_, ?_, ?_, ?_, unhealthyLtv, ltv, utilisation, fee, Or.inl ⟨?_, ?_, ?_⟩⟩
  · rw [supply]
  · rw [supply]
  · rw [collateral]
  · rw [supply]
  · rw [collateral]
  · rw [supply]
  · rw [supply]
  · rw [supply]

theorem SharesTracker.applyInterestRate_shares (rate : InterestRate) (t t' : SharesTracker)
    (u : Unit) (success : (applyInterestRate rate).Succeeds t u t') :
    t'.totalShares = t.totalShares := by
  rcases applyInterestRate_succeeds _ _ _ _ success with ⟨-, rfl⟩ | ⟨-, shares, -⟩
  · rfl
  · exact shares

theorem SharesTracker.applyInterestRateWithFee_shares (rate : InterestRate)
    (fee feeShares : UFixedPoint) (t t' : SharesTracker)
    (success : (applyInterestRateWithFee rate fee).Succeeds t feeShares t') :
    t'.totalShares.bits = feeShares.bits + t.totalShares.bits := by
  obtain ⟨_, -, ⟨-, none, rfl⟩ | ⟨⟨accrual⟩⟩⟩ := applyInterestRateWithFee_succeeds _ _ _ _ _ success
  · omega
  · exact accrual.totalShares_eq

theorem MarketEffect.ofSync (unixTimestamp : Int64) (m m' : Market) (u : Unit)
    (success : (Market.syncClock unixTimestamp).Succeeds m u m') :
    MarketEffect (.syncClock unixTimestamp) m m' := by
  rcases Market.syncClock_succeeds _ _ _ _ success with ⟨-, rfl⟩ | ⟨⟨sync⟩, market_eq⟩
  · exact ⟨rfl, rfl, rfl, rfl, rfl, le_rfl, id, id, id, Or.inl ⟨rfl, rfl, rfl⟩⟩
  · have minted := SharesTracker.applyInterestRateWithFee_shares _ _ _ _ _ sync.supply_ok
    have split := sync.curator_eq
    have protocol := sync.pendingProtocol_eq
    have curator := sync.pendingCurator_eq
    have config : m'.config = m.config := by rw [market_eq]
    refine ⟨SharesTracker.applyInterestRate_shares _ _ _ _ sync.borrow_ok, by omega,
      by rw [market_eq], sync.decimals_eq, by rw [market_eq], ?_, ?_, ?_, ?_,
      Or.inr ⟨unixTimestamp, rfl, ⟨sync⟩⟩⟩
    · rw [config]
    · rw [config]
      exact id
    · rw [config]
      exact id
    · rw [config]
      exact id

theorem MarketAction.execute_effect (action : MarketAction) (m m' : Market) (atoms : Int)
    (success : action.execute.Succeeds m atoms m') : MarketEffect action m m' := by
  cases action with
  | donateSupplyAtoms amount =>
      obtain ⟨_, donated, -⟩ := (Method.succeeds_bind_pure _ _ _ _ _).mp success
      obtain ⟨tracker, raised, rfl⟩ := (Market.donateSupplyAtoms_succeeds _ _ _ _).mp donated
      obtain ⟨-, -, shares⟩ := (SharesTracker.donateAtoms_succeeds _ _ _ _).mp raised
      exact ⟨rfl, by rw [← shares]; rfl, rfl, rfl, rfl, le_rfl, id, id, id,
        Or.inl ⟨rfl, rfl, rfl⟩⟩
  | syncClock unixTimestamp =>
      obtain ⟨synced, -⟩ := (withoutTransfer_succeeds _ _ _ _).mp success
      exact .ofSync unixTimestamp m m' () synced
  | redeemProtocolFees =>
      obtain ⟨_, redeemed, -⟩ := (Method.succeeds_bind_pure _ _ _ _ _).mp success
      obtain ⟨tracker, burned, rfl, -⟩ := Market.redeemProtocolFees_succeeds _ _ _ redeemed
      obtain ⟨-, total, -⟩ := (SharesTracker.withdrawShares_succeeds _ _ _ _ _).mp burned
      refine ⟨rfl, ?_, rfl, rfl, rfl, le_rfl, id, id, id, Or.inl ⟨rfl, rfl, rfl⟩⟩
      simp only [Fixed.zero_bits]
      omega
  | redeemCuratorFess =>
      obtain ⟨_, redeemed, -⟩ := (Method.succeeds_bind_pure _ _ _ _ _).mp success
      obtain ⟨tracker, burned, rfl, -⟩ := Market.redeemCuratorFess_succeeds _ _ _ redeemed
      obtain ⟨-, total, -⟩ := (SharesTracker.withdrawShares_succeeds _ _ _ _ _).mp burned
      refine ⟨rfl, ?_, rfl, rfl, rfl, le_rfl, id, id, id, Or.inl ⟨rfl, rfl, rfl⟩⟩
      simp only [Fixed.zero_bits]
      omega
  | updateLtv ltvConfig =>
      obtain ⟨updated, -⟩ := (withoutTransfer_succeeds _ _ _ _).mp success
      obtain ⟨config, accepted, rfl⟩ := (Market.onConfig_succeeds _ _ _ _).mp updated
      obtain ⟨rfl, kept, sound⟩ := MarketConfig.updateLtv_succeeds _ _ _ _ accepted
      exact .ofConfig _ _ _ rfl rfl kept (fun _ => sound) id id
  | updateMaxUtilisationRate rate =>
      obtain ⟨updated, -⟩ := (withoutTransfer_succeeds _ _ _ _).mp success
      obtain ⟨config, accepted, rfl⟩ := (Market.onConfig_succeeds _ _ _ _).mp updated
      obtain ⟨within, rfl⟩ := (MarketConfig.updateMaxUtilisationRate_succeeds _ _ _ _).mp accepted
      rw [Fixed.lt_def, not_lt] at within
      exact .ofConfig _ _ _ rfl rfl le_rfl id (fun _ => within) id
  | updateMaxSupplyAtoms maxSupplyAtoms =>
      obtain ⟨updated, -⟩ := (withoutTransfer_succeeds _ _ _ _).mp success
      obtain ⟨config, accepted, rfl⟩ := (Market.onConfig_succeeds _ _ _ _).mp updated
      obtain rfl := (MarketConfig.updateMaxSupplyAtoms_succeeds _ _ _ _).mp accepted
      exact .ofConfig _ _ _ rfl rfl le_rfl id id id
  | setLendingMarketFee lendingMarketFeeInBps =>
      obtain ⟨updated, -⟩ := (withoutTransfer_succeeds _ _ _ _).mp success
      obtain ⟨config, accepted, rfl⟩ := (Market.onConfig_succeeds _ _ _ _).mp updated
      obtain ⟨within, rfl⟩ := (MarketConfig.setLendingMarketFee_succeeds _ _ _ _).mp accepted
      exact .ofConfig _ _ _ rfl rfl le_rfl id id (fun _ => within)
  | syncGlobalConfig globalConfig =>
      obtain ⟨updated, -⟩ := (withoutTransfer_succeeds _ _ _ _).mp success
      obtain ⟨config, accepted, rfl⟩ := (Market.onConfig_succeeds _ _ _ _).mp updated
      obtain rfl := (MarketConfig.syncGlobalConfig_succeeds _ _ _ _).mp accepted
      exact .ofConfig _ _ _ rfl rfl le_rfl id id id
  | setSupplyOracleConfig oracleConfig =>
      obtain ⟨updated, -⟩ := (withoutTransfer_succeeds _ _ _ _).mp success
      obtain rfl := Market.setSupplyOracleConfig_succeeds _ _ _ _ updated
      exact ⟨rfl, rfl, rfl, rfl, rfl, le_rfl, id, id, id, Or.inl ⟨rfl, rfl, rfl⟩⟩
  | setCollateralOracleConfig oracleConfig =>
      obtain ⟨updated, -⟩ := (withoutTransfer_succeeds _ _ _ _).mp success
      obtain rfl := Market.setCollateralOracleConfig_succeeds _ _ _ _ updated
      exact ⟨rfl, rfl, rfl, rfl, rfl, le_rfl, id, id, id, Or.inl ⟨rfl, rfl, rfl⟩⟩

/-! The configuration stays within the limits that its updates check. -/

structure Market.ConfigSound (m : Market) : Prop where
  ltv : m.config.ltvConfig.Sound
  utilisation : m.config.maxUtilisationRate.bits ≤ maxUtilisationRate.bits
  fee : ¬ maxLendingMarketFeeInBps < m.config.lendingMarketFeeInBps

namespace Ledger

variable {σ β : Type}

theorem Opened.configSound {data : Market.CreateMarket} {l : Ledger σ β} (opened : Opened data l) :
    l.market.ConfigSound := by
  obtain ⟨fresh, -⟩ := opened.fresh
  exact ⟨fresh.ltv, fresh.utilisation, fresh.fee⟩

variable [DecidableEq σ] [DecidableEq β]

theorem configSound_step {l l' : Ledger σ β} (operation : Operation σ β)
    (sound : l.market.ConfigSound) (success : (execute operation).Succeeds l () l') :
    l'.market.ConfigSound := by
  cases operation with
  | supply key action =>
      obtain ⟨atoms, s, executed, rfl⟩ := (execute_supply_succeeds _ _ _ _ _).mp success
      change s.market.ConfigSound
      rw [(action.execute_effect _ _ _ executed).market_eq]
      exact ⟨sound.ltv, sound.utilisation, sound.fee⟩
  | borrow key action =>
      obtain ⟨atoms, s, executed, rfl⟩ := (execute_borrow_succeeds _ _ _ _ _).mp success
      change s.market.ConfigSound
      rw [(action.execute_effect _ _ _ executed).market_eq]
      exact ⟨sound.ltv, sound.utilisation, sound.fee⟩
  | market action =>
      obtain ⟨atoms, market, executed, rfl⟩ := (execute_market_succeeds _ _ _ _).mp success
      have effect := action.execute_effect _ _ _ executed
      exact ⟨effect.ltv sound.ltv, effect.utilisation sound.utilisation, effect.fee sound.fee⟩

theorem Reachable.configSound {l : Ledger σ β} (reachable : l.Reachable) :
    l.market.ConfigSound :=
  reachable.induction (fun _ _ opened => opened.configSound)
    (fun _ operation _ sound success => configSound_step operation sound success)

end Ledger

end AutaraLending
