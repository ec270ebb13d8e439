import AutaraLending.Market

/-! The events that lending instructions log. -/

namespace AutaraLending

open Support

structure SupplyVaultSummary where
  lastUpdateUnixTimestamp : Int64
  totalSupply : U64
  totalBorrow : U64
  pendingCuratorFeeAtoms : U64
  pendingProtocolFeeAtoms : U64
  utilisationRate : IFixedPoint
  borrowInterestRate : InterestRatePerSecond
  lendingInterestRate : InterestRatePerSecond
  deriving DecidableEq

def SupplyVault.getSummary (self : SupplyVault) : LendingResult SupplyVaultSummary := do
  let totalSupply ← self.totalSupply
  let totalBorrow ← self.totalBorrow
  let utilisationRate ← computeUtilisationRate totalBorrow totalSupply
  let pendingCuratorFeeAtoms ←
    self.supplySharesTracker.sharesToAtoms self.pendingCuratorFeeShares .roundDown
  let pendingProtocolFeeAtoms ←
    self.supplySharesTracker.sharesToAtoms self.pendingProtocolFeeShares .roundDown
  let lendingInterestRate ← self.lastBorrowInterestRate.adjustForUtilisationRate utilisationRate
  pure
    { lastUpdateUnixTimestamp := self.lastUpdateUnixTimestamp
      totalSupply
      totalBorrow
      pendingCuratorFeeAtoms
      pendingProtocolFeeAtoms
      utilisationRate
      borrowInterestRate := self.lastBorrowInterestRate
      lendingInterestRate }

structure LiquidateEvent where
  market : Pubkey
  liquidator : Pubkey
  liquidateePosition : Pubkey
  supplyMint : Pubkey
  collateralMint : Pubkey
  healthBeforeLiquidation : BorrowPositionHealth
  healthAfterLiquidation : BorrowPositionHealth
  supplyRepaid : U64
  collateralLiquidated : U64
  liquidatorFee : U64
  deriving DecidableEq

structure SingleMarketTransactionEvent where
  market : Pubkey
  user : Pubkey
  position : Pubkey
  mint : Pubkey
  amount : U64
  supplyVaultSummary : SupplyVaultSummary
  collateralVaultAtoms : U64
  supplyOracleRate : OracleRate
  collateralOracleRate : OracleRate
  deriving DecidableEq

structure DoubleMarketTransactionEvent where
  market : Pubkey
  user : Pubkey
  position : Pubkey
  mintIn : Pubkey
  amountIn : U64
  mintOut : Pubkey
  amountOut : U64
  supplyVaultSummary : SupplyVaultSummary
  collateralVaultAtoms : U64
  supplyOracleRate : OracleRate
  collateralOracleRate : OracleRate
  deriving DecidableEq

structure ReedeemFeeEvent where
  market : Pubkey
  feeReceiver : Pubkey
  feeAmount : U64
  mint : Pubkey
  supplyVaultSnapshot : SupplyVaultSummary
  deriving DecidableEq

structure SocializeLossEvent where
  market : Pubkey
  position : Pubkey
  debtSocialized : U64
  collateralLiquidated : U64
  deriving DecidableEq

structure DonateSupplyEvent where
  market : Pubkey
  donor : Pubkey
  mint : Pubkey
  amount : U64
  deriving DecidableEq

structure CapitalSweepStartedEvent where
  market : Pubkey
  curator : Pubkey
  position : Pubkey
  collateralMint : Pubkey
  healthBeforeSweep : BorrowPositionHealth
  collateralSwept : U64
  deriving DecidableEq

structure CapitalSweepSettledEvent where
  market : Pubkey
  curator : Pubkey
  position : Pubkey
  supplyMint : Pubkey
  collateralMint : Pubkey
  healthBeforeSettlement : BorrowPositionHealth
  healthAfterSettlement : BorrowPositionHealth
  supplyRepaid : U64
  collateralLiquidated : U64
  curatorBonus : U64
  collateralReturned : U64
  deriving DecidableEq

structure LiquidatorWhitelistUpdatedEvent where
  market : Pubkey
  curator : Pubkey
  liquidator : Pubkey
  activeWhitelistedLiquidators : U64
  deriving DecidableEq

inductive AutaraEvent where
  | liquidate (event : LiquidateEvent)
  | supply (event : SingleMarketTransactionEvent)
  | withdraw (event : SingleMarketTransactionEvent)
  | depositCollateral (event : SingleMarketTransactionEvent)
  | withdrawCollateral (event : SingleMarketTransactionEvent)
  | borrowAndDeposit (event : DoubleMarketTransactionEvent)
  | withdrawAndRepay (event : DoubleMarketTransactionEvent)
  | borrow (event : SingleMarketTransactionEvent)
  | repay (event : SingleMarketTransactionEvent)
  | reedeemProtocolFees (event : ReedeemFeeEvent)
  | reedeemCuratorFees (event : ReedeemFeeEvent)
  | socializeLoss (event : SocializeLossEvent)
  | donateSupply (event : DonateSupplyEvent)
  | capitalSweepStarted (event : CapitalSweepStartedEvent)
  | capitalSweepSettled (event : CapitalSweepSettledEvent)
  | liquidatorWhitelistEntryAdded (event : LiquidatorWhitelistUpdatedEvent)
  | liquidatorWhitelistEntryRemoved (event : LiquidatorWhitelistUpdatedEvent)
  deriving DecidableEq

namespace Market

def getSingleMarketTransactionEvent (self : Market) (supplyOracle collateralOracle : OracleRate)
    (market user position mint : Pubkey) (atoms : U64) :
    LendingResult SingleMarketTransactionEvent := do
  let supplyVaultSummary ← self.supplyVault.getSummary
  pure
    { market
      user
      position
      mint
      amount := atoms
      supplyVaultSummary
      collateralVaultAtoms := self.collateralVault.totalCollateralAtoms
      supplyOracleRate := supplyOracle
      collateralOracleRate := collateralOracle }

def getDoubleMarketTransactionEvent (self : Market) (supplyOracle collateralOracle : OracleRate)
    (market user position mintIn : Pubkey) (amountIn : U64) (mintOut : Pubkey) (amountOut : U64) :
    LendingResult DoubleMarketTransactionEvent := do
  let supplyVaultSummary ← self.supplyVault.getSummary
  pure
    { market
      user
      position
      mintIn
      amountIn
      mintOut
      amountOut
      supplyVaultSummary
      collateralVaultAtoms := self.collateralVault.totalCollateralAtoms
      supplyOracleRate := supplyOracle
      collateralOracleRate := collateralOracle }

theorem getSingleMarketTransactionEvent_ok (self : Market)
    (supplyOracle collateralOracle : OracleRate) (market user position mint : Pubkey) (atoms : U64)
    (event : SingleMarketTransactionEvent)
    (computed : self.getSingleMarketTransactionEvent supplyOracle collateralOracle market user
      position mint atoms = .ok event) :
    event.market = market ∧ event.amount = atoms ∧ event.mint = mint := by
  simp only [getSingleMarketTransactionEvent, except_bind_ok, except_pure_ok] at computed
  obtain ⟨_, -, rfl⟩ := computed
  exact ⟨rfl, rfl, rfl⟩

theorem getDoubleMarketTransactionEvent_ok (self : Market)
    (supplyOracle collateralOracle : OracleRate) (market user position mintIn : Pubkey)
    (amountIn : U64) (mintOut : Pubkey) (amountOut : U64) (event : DoubleMarketTransactionEvent)
    (computed : self.getDoubleMarketTransactionEvent supplyOracle collateralOracle market user
      position mintIn amountIn mintOut amountOut = .ok event) :
    event.market = market ∧ event.amountIn = amountIn ∧ event.amountOut = amountOut ∧
      event.mintIn = mintIn ∧ event.mintOut = mintOut := by
  simp only [getDoubleMarketTransactionEvent, except_bind_ok, except_pure_ok] at computed
  obtain ⟨_, -, rfl⟩ := computed
  exact ⟨rfl, rfl, rfl, rfl, rfl⟩

end Market

end AutaraLending
