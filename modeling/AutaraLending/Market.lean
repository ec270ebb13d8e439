import AutaraLending.MarketConfig
import AutaraLending.Position
import AutaraLending.Vault

/-! The operations of a market. Those that act on a position take the market and the
position together, as the source takes both by mutable reference. -/

namespace AutaraLending

open Support

structure Market where
  config : MarketConfig
  collateralVault : CollateralVault
  supplyVault : SupplyVault
  deriving DecidableEq

/-- A market and one position, the receiver of the operations on positions. -/
structure MarketWith (π : Type) where
  market : Market
  position : π
  deriving DecidableEq

namespace Market

def onConfig {α : Type} (m : LendingMethod MarketConfig α) : LendingMethod Market α :=
  Method.zoom Market.config (fun config self => { self with config }) m

def onSupplyVault {α : Type} (m : LendingMethod SupplyVault α) : LendingMethod Market α :=
  Method.zoom Market.supplyVault (fun supplyVault self => { self with supplyVault }) m

def onCollateralVault {α : Type} (m : LendingMethod CollateralVault α) : LendingMethod Market α :=
  Method.zoom Market.collateralVault (fun collateralVault self => { self with collateralVault }) m

def zeroed : Market := ⟨.zeroed, .zeroed, .zeroed⟩

/-- What an instruction that creates a market supplies, with the accounts it names. -/
structure CreateMarket where
  marketBump : UInt8
  index : UInt8
  curator : Pubkey
  ltvConfig : LtvConfig
  maxUtilisationRate : IFixedPoint
  lendingMarketFeeInBps : UInt16
  globalConfig : GlobalConfig
  supplyMint : Pubkey
  supplyMintDecimals : UInt8
  supplyVault : Pubkey
  supplyOracleConfig : OracleConfig
  interestRate : InterestRateCurveKind
  collateralMint : Pubkey
  collateralMintDecimals : UInt8
  collateralVault : Pubkey
  collateralOracleConfig : OracleConfig

def processCreateMarket (data : CreateMarket) (unixTimestamp : Int64) :
    LendingMethod Market Unit := do
  onConfig (MarketConfig.initializeConfig data.marketBump data.index data.curator data.ltvConfig
    data.maxUtilisationRate 0xFFFFFFFFFFFFFFFF data.lendingMarketFeeInBps data.globalConfig)
  onSupplyVault (SupplyVault.initializeVault data.supplyMint data.supplyMintDecimals.toUInt64
    data.supplyVault data.supplyOracleConfig data.interestRate unixTimestamp)
  onCollateralVault (CollateralVault.initializeVault data.collateralMint
    data.collateralMintDecimals.toUInt64 data.collateralVault data.collateralOracleConfig)

def setSupplyOracleConfig (oracleConfig : OracleConfig) : LendingMethod Market Unit := do
  Method.lift oracleConfig.validate
  onSupplyVault (SupplyVault.setOracleConfig oracleConfig)

def setCollateralOracleConfig (oracleConfig : OracleConfig) : LendingMethod Market Unit := do
  Method.lift oracleConfig.validate
  onCollateralVault (CollateralVault.setOracleConfig oracleConfig)

def borrowPositionHealthWithCollateralAtoms (self : Market) (borrowPosition : BorrowPosition)
    (collateralAtoms : U64) (collateralOracle supplyOracle : OracleRate) :
    LendingResult BorrowPositionHealth := do
  let borrowedAtoms ← self.supplyVault.borrowSharesToAtoms borrowPosition.borrowedShares
  let borrowValue ← supplyOracle.borrowValue borrowedAtoms self.supplyVault.decimals
  let collateralValue ←
    collateralOracle.collateralValue collateralAtoms self.collateralVault.decimals
  let ltv ← if borrowValue.isZero then .ok Fixed.zero else borrowValue.safeDiv collateralValue
  pure { ltv, borrowedAtoms, collateralAtoms, borrowValue, collateralValue }

def borrowPositionHealth (self : Market) (borrowPosition : BorrowPosition)
    (collateralOracle supplyOracle : OracleRate) : LendingResult BorrowPositionHealth :=
  self.borrowPositionHealthWithCollateralAtoms borrowPosition
    borrowPosition.collateralDepositedAtoms collateralOracle supplyOracle

def supplyPositionInfo (self : Market) (supplyPosition : SupplyPosition) : LendingResult U64 :=
  self.supplyVault.supplySharesTracker.sharesToAtoms supplyPosition.shares .roundDown

def positionChecksOnLtvIncrease (self : Market) (position : BorrowPositionHealth) :
    LendingResult Unit :=
  if self.config.ltvConfig.maxLtv < position.ltv then .error LendingError.maxLtvReached.into
  else .ok ()

def syncClock (unixTimestamp : Int64) : LendingMethod Market Unit := do
  let self ← Method.self
  onSupplyVault (SupplyVault.syncClock unixTimestamp self.config.lendingMarketFeeFixed
    self.config.protocolFeeShareInBps)

def rejectOverdrawn (failure : Failure) : LendingMethod Market Unit := do
  let self ← Method.self
  let utilisationRate ← Method.lift self.supplyVault.utilisationRate
  Method.rejectIf ((Fixed.one : IFixedPoint) < utilisationRate) failure

def redeemProtocolFees : LendingMethod Market U64 := do
  let atoms ← onSupplyVault SupplyVault.redeemProtocolFees
  rejectOverdrawn (LendingError.withdrawalExceedsReserves.withMsg "protocol fee redemption")
  pure atoms

def redeemCuratorFess : LendingMethod Market U64 := do
  let atoms ← onSupplyVault SupplyVault.redeemCuratorFees
  rejectOverdrawn (LendingError.withdrawalExceedsReserves.withMsg "curator fee redemption")
  pure atoms

def donateSupplyAtoms (atoms : U64) : LendingMethod Market Unit :=
  onSupplyVault (SupplyVault.donateSupply atoms)

/-- The liquidation of a position backed by `collateralAtoms`. An insolvent position is
closed without a bonus, for all of its collateral. -/
def computeLiquidationResultWithFeeForCollateral (self : Market) (borrowPosition : BorrowPosition)
    (collateralAtoms : U64) (collateralOracle supplyOracle : OracleRate) (maxRepayAtoms : U64) :
    LendingResult (BorrowPositionHealth × LiquidationResultWithBonus) := do
  let healthBefore ← self.borrowPositionHealthWithCollateralAtoms borrowPosition collateralAtoms
    collateralOracle supplyOracle
  if healthBefore.ltv < self.config.ltvConfig.unhealthyLtv then
    .error LendingError.positionIsHealthy.into
  else do
    let liquidation ←
      if (Fixed.one : IFixedPoint) ≤ healthBefore.ltv then
        .ok (LiquidationResultWithBonus.adjustForMaxRepay
          ⟨healthBefore.borrowedAtoms, healthBefore.collateralAtoms, 0⟩ maxRepayAtoms)
      else
        computeLiquidationWithFee healthBefore.borrowedAtoms self.supplyVault.decimals supplyOracle
          collateralAtoms self.collateralVault.decimals collateralOracle
          self.config.ltvConfig.targetLtvAfterLiquidation self.config.ltvConfig.liquidationBonus
          maxRepayAtoms
    pure (healthBefore, liquidation)

def computeLiquidationResultWithFee (self : Market) (borrowPosition : BorrowPosition)
    (collateralOracle supplyOracle : OracleRate) (maxRepayAtoms : U64) :
    LendingResult (BorrowPositionHealth × LiquidationResultWithBonus) := do
  borrowPosition.ensureCapitalSweepInactive
  self.computeLiquidationResultWithFeeForCollateral borrowPosition
    borrowPosition.collateralDepositedAtoms collateralOracle supplyOracle maxRepayAtoms

end Market

namespace MarketWith

variable {π : Type}

def onMarket {α : Type} (m : LendingMethod Market α) : LendingMethod (MarketWith π) α :=
  Method.zoom MarketWith.market (fun market self => { self with market }) m

def onPosition {α : Type} (m : LendingMethod π α) : LendingMethod (MarketWith π) α :=
  Method.zoom MarketWith.position (fun position self => { self with position }) m

def lend (atoms : U64) : LendingMethod (MarketWith SupplyPosition) Unit := do
  let shares ← onMarket (Market.onSupplyVault (SupplyVault.lend atoms))
  onPosition (SupplyPosition.lend atoms shares)
  let self ← Method.self
  let totalSupply ← Method.lift self.market.supplyVault.totalSupply
  Method.rejectIf (self.market.config.maxSupplyAtoms < totalSupply)
    LendingError.maxSupplyReached.into

def withdraw (atoms : U64) : LendingMethod (MarketWith SupplyPosition) Unit := do
  let shares ← onMarket (Market.onSupplyVault (SupplyVault.withdrawAtoms atoms))
  onMarket (Market.rejectOverdrawn LendingError.withdrawalExceedsReserves.into)
  onPosition (SupplyPosition.withdraw shares)

def withdrawAll : LendingMethod (MarketWith SupplyPosition) U64 := do
  let self ← Method.self
  let atoms ← onMarket (Market.onSupplyVault (SupplyVault.withdrawShares self.position.shares))
  onMarket (Market.rejectOverdrawn LendingError.withdrawalExceedsReserves.into)
  onPosition SupplyPosition.withdrawAll
  pure atoms

def ensureCapitalSweepInactive : LendingMethod (MarketWith BorrowPosition) Unit := do
  let self ← Method.self
  Method.lift self.position.ensureCapitalSweepInactive

def depositCollateral (atoms : U64) : LendingMethod (MarketWith BorrowPosition) Unit := do
  ensureCapitalSweepInactive
  onPosition (BorrowPosition.depositCollateral atoms)
  onMarket (Market.onCollateralVault (CollateralVault.depositCollateral atoms))

def withdrawCollateral (atoms : U64) (collateralOracle supplyOracle : OracleRate) :
    LendingMethod (MarketWith BorrowPosition) Unit := do
  ensureCapitalSweepInactive
  onPosition (BorrowPosition.withdrawCollateral atoms)
  let self ← Method.self
  Method.rejectIf (self.position.collateralDepositedAtoms = 0 ∧
      self.position.borrowedShares.isZero = false)
    LendingError.maxLtvReached.into
  let health ← Method.lift
    (self.market.borrowPositionHealth self.position collateralOracle supplyOracle)
  onMarket (Market.onCollateralVault (CollateralVault.withdrawCollateral atoms))
  Method.lift (self.market.positionChecksOnLtvIncrease health)

def borrow (borrowAtoms : U64) (supplyOracle collateralOracle : OracleRate) :
    LendingMethod (MarketWith BorrowPosition) Unit := do
  ensureCapitalSweepInactive
  let shares ← onMarket (Market.onSupplyVault (SupplyVault.borrow borrowAtoms))
  onPosition (BorrowPosition.borrow borrowAtoms shares)
  let self ← Method.self
  let health ← Method.lift
    (self.market.borrowPositionHealth self.position collateralOracle supplyOracle)
  Method.lift (self.market.positionChecksOnLtvIncrease health)
  let utilisationRate ← Method.lift self.market.supplyVault.utilisationRate
  Method.rejectIf (self.market.config.maxUtilisationRate < utilisationRate)
    LendingError.maxUtilisationRateReached.into

def repay (atoms : U64) : LendingMethod (MarketWith BorrowPosition) Unit := do
  ensureCapitalSweepInactive
  let shares ← onMarket (Market.onSupplyVault (SupplyVault.repayAtoms atoms))
  onPosition (BorrowPosition.repay shares)

def repayAll : LendingMethod (MarketWith BorrowPosition) U64 := do
  ensureCapitalSweepInactive
  let self ← Method.self
  let atoms ← onMarket (Market.onSupplyVault (SupplyVault.repayShares self.position.borrowedShares))
  onPosition BorrowPosition.repayAll
  pure atoms

def ensureLtvDecreased (healthBefore : BorrowPositionHealth)
    (collateralOracle supplyOracle : OracleRate) :
    LendingMethod (MarketWith BorrowPosition) BorrowPositionHealth := do
  let self ← Method.self
  let healthAfter ← Method.lift
    (self.market.borrowPositionHealth self.position collateralOracle supplyOracle)
  Method.rejectIf (healthBefore.ltv < healthAfter.ltv)
    LendingError.invalidLiquidationLtvShouldDecrease.into
  pure healthAfter

def liquidate (collateralOracle supplyOracle : OracleRate) (maxRepayAtoms : U64) :
    LendingMethod (MarketWith BorrowPosition) LiquidationResultWithCtx := do
  ensureCapitalSweepInactive
  let self ← Method.self
  let computed ← Method.lift (self.market.computeLiquidationResultWithFee self.position
    collateralOracle supplyOracle maxRepayAtoms)
  let repaid ← onMarket (Market.onSupplyVault (SupplyVault.repayAtomsCapped
    computed.2.borrowedAtomsToRepay self.position.borrowedShares))
  let liquidation := computed.2.adjustForMaxRepay repaid.1
  let collateralSeized ← Method.lift liquidation.totalCollateralAtomsToLiquidate
  onPosition (BorrowPosition.liquidate repaid.2 collateralSeized)
  onMarket (Market.onCollateralVault (CollateralVault.withdrawCollateral collateralSeized))
  let healthAfter ← ensureLtvDecreased computed.1 collateralOracle supplyOracle
  pure ⟨liquidation, computed.1, healthAfter⟩

def beginCapitalSweep (collateralOracle supplyOracle : OracleRate) :
    LendingMethod (MarketWith BorrowPosition) BorrowPositionHealth := do
  ensureCapitalSweepInactive
  let self ← Method.self
  let healthBefore ← Method.lift
    (self.market.borrowPositionHealth self.position collateralOracle supplyOracle)
  Method.rejectIf (healthBefore.ltv < self.market.config.ltvConfig.unhealthyLtv)
    LendingError.positionIsHealthy.into
  Method.rejectIf ((Fixed.one : IFixedPoint) ≤ healthBefore.ltv)
    LendingError.capitalSweepPositionInsolvent.into
  let sweptCollateralAtoms ← onPosition BorrowPosition.beginCapitalSweep
  onMarket (Market.onCollateralVault (CollateralVault.withdrawCollateral sweptCollateralAtoms))
  pure healthBefore

def settlementLiquidation (self : MarketWith BorrowPosition) (healthBefore : BorrowPositionHealth)
    (collateralOracle supplyOracle : OracleRate) (maxRepayAtoms : U64) :
    LendingResult LiquidationResultWithBonus :=
  if healthBefore.ltv < self.market.config.ltvConfig.unhealthyLtv then .ok .none
  else
    Prod.snd <$> self.market.computeLiquidationResultWithFeeForCollateral self.position
      self.position.sweptCollateralAtoms collateralOracle supplyOracle maxRepayAtoms

def collateralReturned (swept : U64) (liquidation : LiquidationResultWithBonus)
    (maxCollateralAtomsToReturn : U64) : LendingResult U64 := do
  let total ← liquidation.totalCollateralAtomsToLiquidate
  let returned ← swept.safeSub total
  if maxCollateralAtomsToReturn < returned then
    .error LendingError.capitalSweepDidNotMeetRequirements.into
  else pure returned

def settleCapitalSweep (collateralOracle supplyOracle : OracleRate) (maxRepayAtoms : U64)
    (maxCollateralAtomsToReturn : U64) :
    LendingMethod (MarketWith BorrowPosition) CapitalSweepSettlementResult := do
  let self ← Method.self
  Method.rejectIf (self.position.capitalSweepPending = false)
    LendingError.noCapitalSweepPending.into
  let sweptCollateralAtoms := self.position.sweptCollateralAtoms
  let healthBefore ← Method.lift (self.market.borrowPositionHealthWithCollateralAtoms
    self.position sweptCollateralAtoms collateralOracle supplyOracle)
  let computed ← Method.lift
    (self.settlementLiquidation healthBefore collateralOracle supplyOracle maxRepayAtoms)
  let _ ← Method.lift (collateralReturned sweptCollateralAtoms computed maxCollateralAtomsToReturn)
  let repaid ← onMarket (Market.onSupplyVault (SupplyVault.repayAtomsCapped
    computed.borrowedAtomsToRepay self.position.borrowedShares))
  let liquidation := computed.adjustForMaxRepay repaid.1
  let collateralAtomsReturned ← Method.lift
    (collateralReturned sweptCollateralAtoms liquidation maxCollateralAtomsToReturn)
  onPosition (BorrowPosition.settleCapitalSweep repaid.2 collateralAtomsReturned)
  onMarket (Market.onCollateralVault (CollateralVault.depositCollateral collateralAtomsReturned))
  let healthAfter ← ensureLtvDecreased healthBefore collateralOracle supplyOracle
  pure ⟨liquidation, healthBefore, healthAfter, collateralAtomsReturned⟩

def socializeLoss (collateralOracle supplyOracle : OracleRate) :
    LendingMethod (MarketWith BorrowPosition) (U64 × U64) := do
  ensureCapitalSweepInactive
  let self ← Method.self
  let health ← Method.lift
    (self.market.borrowPositionHealth self.position collateralOracle supplyOracle)
  Method.rejectIf (health.ltv < (Fixed.one : IFixedPoint))
    LendingError.cannotSocializeDebtForHealthyPosition.into
  let debt ← onMarket (Market.onSupplyVault
    (SupplyVault.socializeLoss self.position.borrowedShares))
  let collateralToWithdraw := self.position.collateralDepositedAtoms
  onPosition BorrowPosition.repayAll
  onPosition (BorrowPosition.withdrawCollateral collateralToWithdraw)
  onMarket (Market.onCollateralVault (CollateralVault.withdrawCollateral collateralToWithdraw))
  pure (debt, collateralToWithdraw)

end MarketWith

/-! What successful operations do. Every operation on a position changes at most one of the
two trackers and the collateral count of the market, and its own position. -/

namespace Market

def withSupplyTracker (self : Market) (tracker : SharesTracker) : Market :=
  { self with supplyVault := { self.supplyVault with supplySharesTracker := tracker } }

def withBorrowTracker (self : Market) (tracker : SharesTracker) : Market :=
  { self with supplyVault := { self.supplyVault with borrowSharesTracker := tracker } }

def withCollateral (self : Market) (total : U64) : Market :=
  { self with collateralVault := { self.collateralVault with totalCollateralAtoms := total } }

theorem onSupplyVault_succeeds {α : Type} (m : LendingMethod SupplyVault α) (s s' : Market)
    (a : α) :
    (onSupplyVault m).Succeeds s a s' ↔
      ∃ vault, m.Succeeds s.supplyVault a vault ∧ s' = { s with supplyVault := vault } := by
  simp only [onSupplyVault, Method.succeeds_zoom, eq_comm]

theorem onCollateralVault_succeeds {α : Type} (m : LendingMethod CollateralVault α)
    (s s' : Market) (a : α) :
    (onCollateralVault m).Succeeds s a s' ↔
      ∃ vault, m.Succeeds s.collateralVault a vault ∧ s' = { s with collateralVault := vault } := by
  simp only [onCollateralVault, Method.succeeds_zoom, eq_comm]

theorem onConfig_succeeds {α : Type} (m : LendingMethod MarketConfig α) (s s' : Market) (a : α) :
    (onConfig m).Succeeds s a s' ↔
      ∃ config, m.Succeeds s.config a config ∧ s' = { s with config } := by
  simp only [onConfig, Method.succeeds_zoom, eq_comm]

theorem supplyTracker_succeeds {α : Type} (m : LendingMethod SharesTracker α) (s s' : Market)
    (a : α) :
    (onSupplyVault (SupplyVault.onSupplyTracker m)).Succeeds s a s' ↔
      ∃ tracker, m.Succeeds s.supplyVault.supplySharesTracker a tracker ∧
        s' = s.withSupplyTracker tracker := by
  simp only [onSupplyVault_succeeds, SupplyVault.onSupplyTracker_succeeds, withSupplyTracker]
  constructor
  · rintro ⟨_, ⟨tracker, success, rfl⟩, rfl⟩
    exact ⟨tracker, success, rfl⟩
  · rintro ⟨tracker, success, rfl⟩
    exact ⟨_, ⟨tracker, success, rfl⟩, rfl⟩

theorem borrowTracker_succeeds {α : Type} (m : LendingMethod SharesTracker α) (s s' : Market)
    (a : α) :
    (onSupplyVault (SupplyVault.onBorrowTracker m)).Succeeds s a s' ↔
      ∃ tracker, m.Succeeds s.supplyVault.borrowSharesTracker a tracker ∧
        s' = s.withBorrowTracker tracker := by
  simp only [onSupplyVault_succeeds, SupplyVault.onBorrowTracker_succeeds, withBorrowTracker]
  constructor
  · rintro ⟨_, ⟨tracker, success, rfl⟩, rfl⟩
    exact ⟨tracker, success, rfl⟩
  · rintro ⟨tracker, success, rfl⟩
    exact ⟨_, ⟨tracker, success, rfl⟩, rfl⟩

theorem depositCollateral_succeeds (atoms : U64) (s s' : Market) (u : Unit) :
    (onCollateralVault (CollateralVault.depositCollateral atoms)).Succeeds s u s' ↔
      ∃ total, s.collateralVault.totalCollateralAtoms.toNat + atoms.toNat = total.toNat ∧
        s' = s.withCollateral total := by
  simp only [onCollateralVault_succeeds, CollateralVault.depositCollateral_succeeds, withCollateral]
  constructor
  · rintro ⟨_, ⟨total, sum, rfl⟩, rfl⟩
    exact ⟨total, sum, rfl⟩
  · rintro ⟨total, sum, rfl⟩
    exact ⟨_, ⟨total, sum, rfl⟩, rfl⟩

theorem withdrawCollateral_succeeds (atoms : U64) (s s' : Market) (u : Unit) :
    (onCollateralVault (CollateralVault.withdrawCollateral atoms)).Succeeds s u s' ↔
      ∃ total, atoms.toNat + total.toNat = s.collateralVault.totalCollateralAtoms.toNat ∧
        s' = s.withCollateral total := by
  simp only [onCollateralVault_succeeds, CollateralVault.withdrawCollateral_succeeds,
    withCollateral]
  constructor
  · rintro ⟨_, ⟨total, difference, rfl⟩, rfl⟩
    exact ⟨total, difference, rfl⟩
  · rintro ⟨total, difference, rfl⟩
    exact ⟨_, ⟨total, difference, rfl⟩, rfl⟩

/-- The utilisation of the market is at most one, as far as its rounded ratio shows. -/
def Covered (self : Market) : Prop :=
  ∃ utilisation, self.supplyVault.utilisationRate = .ok utilisation ∧ utilisation.bits ≤ 2 ^ 48

theorem rejectOverdrawn_succeeds (failure : Failure) (s s' : Market) (u : Unit) :
    (rejectOverdrawn failure).Succeeds s u s' ↔ s.Covered ∧ s' = s := by
  simp only [rejectOverdrawn, Method.succeeds_bind, Method.succeeds_self, Method.succeeds_lift,
    Method.succeeds_rejectIf, Fixed.lt_def, Fixed.one_bits, i80f48_frac, not_lt, Covered]
  constructor
  · rintro ⟨_, _, ⟨rfl, rfl⟩, utilisation, _, ⟨success, rfl⟩, bounded, rfl⟩
    exact ⟨⟨utilisation, success, bounded⟩, rfl⟩
  · rintro ⟨⟨utilisation, success, bounded⟩, rfl⟩
    exact ⟨_, _, ⟨rfl, rfl⟩, utilisation, _, ⟨success, rfl⟩, bounded, rfl⟩

theorem positionChecksOnLtvIncrease_ok (self : Market) (health : BorrowPositionHealth) (u : Unit) :
    self.positionChecksOnLtvIncrease health = .ok u ↔
      health.ltv.bits ≤ self.config.ltvConfig.maxLtv.bits := by
  unfold positionChecksOnLtvIncrease
  split
  · rename_i above
    rw [Fixed.lt_def] at above
    simp only [reduceCtorEq, false_iff, not_le]
    exact above
  · rename_i within
    rw [Fixed.lt_def, not_lt] at within
    simp only [true_iff]
    exact within

theorem borrowPositionHealthWithCollateralAtoms_ok (self : Market) (p : BorrowPosition)
    (collateralAtoms : U64) (collateralOracle supplyOracle : OracleRate)
    (health : BorrowPositionHealth) :
    self.borrowPositionHealthWithCollateralAtoms p collateralAtoms collateralOracle supplyOracle =
        .ok health ↔
      self.supplyVault.borrowSharesToAtoms p.borrowedShares = .ok health.borrowedAtoms ∧
        supplyOracle.borrowValue health.borrowedAtoms self.supplyVault.decimals =
          .ok health.borrowValue ∧
        collateralOracle.collateralValue collateralAtoms self.collateralVault.decimals =
          .ok health.collateralValue ∧
        ((health.borrowValue.bits = 0 ∧ health.ltv = Fixed.zero) ∨
          (health.borrowValue.bits ≠ 0 ∧
            health.borrowValue.safeDiv health.collateralValue = .ok health.ltv)) ∧
        health.collateralAtoms = collateralAtoms := by
  simp only [borrowPositionHealthWithCollateralAtoms, except_bind_ok, except_ite_ok,
    Fixed.isZero_iff, except_pure_ok]
  constructor
  · rintro ⟨_, borrowed_ok, _, borrow_ok, _, collateral_ok, ⟨none, _, same, rfl⟩ |
      ⟨some, _, divided, rfl⟩⟩
    · exact ⟨borrowed_ok, borrow_ok, collateral_ok, Or.inl ⟨none, (Except.ok.inj same).symm⟩, rfl⟩
    · exact ⟨borrowed_ok, borrow_ok, collateral_ok, Or.inr ⟨some, divided⟩, rfl⟩
  · rintro ⟨borrowed_ok, borrow_ok, collateral_ok, ltv_ok, rfl⟩
    refine ⟨_, borrowed_ok, _, borrow_ok, _, collateral_ok, ?_⟩
    rcases ltv_ok with ⟨none, same⟩ | ⟨some, divided⟩
    · exact Or.inl ⟨none, _, congrArg Except.ok same.symm, rfl⟩
    · exact Or.inr ⟨some, _, divided, rfl⟩

theorem health_of_no_collateral (self : Market) (p : BorrowPosition)
    (collateralOracle supplyOracle : OracleRate) (health : BorrowPositionHealth)
    (success : self.borrowPositionHealthWithCollateralAtoms p 0 collateralOracle supplyOracle =
      .ok health) : health.ltv = Fixed.zero := by
  obtain ⟨-, -, value_ok, ltv_ok, -⟩ :=
    (borrowPositionHealthWithCollateralAtoms_ok _ _ _ _ _ _).mp success
  rcases ltv_ok with ⟨-, zero⟩ | ⟨-, divided⟩
  · exact zero
  · exact absurd (OracleRate.valueAtRate_zero _ _ _ value_ok)
      ((Fixed.safeDiv_ok _ _ _).mp divided).1

theorem computeLiquidationResultWithFeeForCollateral_ok (self : Market) (p : BorrowPosition)
    (collateralAtoms : U64) (collateralOracle supplyOracle : OracleRate) (maxRepayAtoms : U64)
    (health : BorrowPositionHealth) (liquidation : LiquidationResultWithBonus) :
    self.computeLiquidationResultWithFeeForCollateral p collateralAtoms collateralOracle
        supplyOracle maxRepayAtoms = .ok (health, liquidation) ↔
      self.borrowPositionHealthWithCollateralAtoms p collateralAtoms collateralOracle supplyOracle =
          .ok health ∧
        ¬ health.ltv < self.config.ltvConfig.unhealthyLtv ∧
        (((Fixed.one : IFixedPoint) ≤ health.ltv ∧
            liquidation = LiquidationResultWithBonus.adjustForMaxRepay
              ⟨health.borrowedAtoms, health.collateralAtoms, 0⟩ maxRepayAtoms) ∨
          (¬ (Fixed.one : IFixedPoint) ≤ health.ltv ∧
            computeLiquidationWithFee health.borrowedAtoms self.supplyVault.decimals supplyOracle
              collateralAtoms self.collateralVault.decimals collateralOracle
              self.config.ltvConfig.targetLtvAfterLiquidation
              self.config.ltvConfig.liquidationBonus maxRepayAtoms = .ok liquidation)) := by
  simp only [computeLiquidationResultWithFeeForCollateral, except_bind_ok, except_ite_ok,
    except_pure_ok, reduceCtorEq, and_false, false_or, Prod.mk.injEq]
  constructor
  · rintro ⟨_, health_ok, unhealthy, ⟨insolvent, _, same, rfl, rfl⟩ |
      ⟨solvent, _, computed, rfl, rfl⟩⟩
    · exact ⟨health_ok, unhealthy, Or.inl ⟨insolvent, (Except.ok.inj same).symm⟩⟩
    · exact ⟨health_ok, unhealthy, Or.inr ⟨solvent, computed⟩⟩
  · rintro ⟨health_ok, unhealthy, ⟨insolvent, rfl⟩ | ⟨solvent, computed⟩⟩
    · exact ⟨health, health_ok, unhealthy, Or.inl ⟨insolvent, _, rfl, rfl, rfl⟩⟩
    · exact ⟨health, health_ok, unhealthy, Or.inr ⟨solvent, _, computed, rfl, rfl⟩⟩

structure Fresh (m : Market) : Prop where
  ltv : m.config.ltvConfig.Sound
  utilisation : m.config.maxUtilisationRate.bits ≤ AutaraLending.maxUtilisationRate.bits
  fee : ¬ maxLendingMarketFeeInBps < m.config.lendingMarketFeeInBps
  curve : m.supplyVault.interestRateCurve.isValid = true
  supply : m.supplyVault.supplySharesTracker = .new
  borrow : m.supplyVault.borrowSharesTracker = .new
  protocolFees : m.supplyVault.pendingProtocolFeeShares = Fixed.zero
  curatorFees : m.supplyVault.pendingCuratorFeeShares = Fixed.zero
  collateral : m.collateralVault.totalCollateralAtoms = 0

theorem processCreateMarket_fresh (data : CreateMarket) (unixTimestamp : Int64) (m : Market)
    (u : Unit) (success : (processCreateMarket data unixTimestamp).Succeeds zeroed u m) :
    m.Fresh ∧ m.supplyVault.interestRateCurve = data.interestRate := by
  simp only [processCreateMarket, MarketConfig.initializeConfig, Method.succeeds_bind,
    onConfig_succeeds, onSupplyVault_succeeds, onCollateralVault_succeeds, Method.succeeds_self,
    Method.succeeds_assign, MarketConfig.updateMaxUtilisationRate_succeeds,
    MarketConfig.setLendingMarketFee_succeeds, MarketConfig.syncGlobalConfig_succeeds, Fixed.lt_def,
    not_lt] at success
  obtain ⟨_, _, ⟨_, ⟨_, _, ltv, _, _, ⟨utilisation, rfl⟩, _, _, ⟨fee, rfl⟩, _, _, ⟨rfl, rfl⟩, _, _,
    rfl, rfl⟩, rfl⟩, _, _, ⟨_, supply, rfl⟩, _, collateral, rfl⟩ := success
  obtain ⟨rfl, -, sound⟩ := MarketConfig.updateLtv_succeeds _ _ _ _ ltv
  obtain ⟨valid, rfl⟩ := SupplyVault.initializeVault_succeeds _ _ _ _ _ _ _ _ _ supply
  obtain rfl := CollateralVault.initializeVault_succeeds _ _ _ _ _ _ _ collateral
  exact ⟨⟨sound, utilisation, fee, valid, rfl, rfl, rfl, rfl, rfl⟩, rfl⟩

theorem setSupplyOracleConfig_succeeds (oracleConfig : OracleConfig) (s s' : Market) (u : Unit)
    (success : (setSupplyOracleConfig oracleConfig).Succeeds s u s') :
    s' = { s with supplyVault := { s.supplyVault with oracleConfig } } := by
  simp only [setSupplyOracleConfig, Method.succeeds_bind, Method.succeeds_lift,
    onSupplyVault_succeeds, SupplyVault.setOracleConfig_succeeds] at success
  obtain ⟨_, _, ⟨-, rfl⟩, _, rfl, rfl⟩ := success
  rfl

theorem setCollateralOracleConfig_succeeds (oracleConfig : OracleConfig) (s s' : Market) (u : Unit)
    (success : (setCollateralOracleConfig oracleConfig).Succeeds s u s') :
    s' = { s with collateralVault := { s.collateralVault with oracleConfig } } := by
  simp only [setCollateralOracleConfig, Method.succeeds_bind, Method.succeeds_lift,
    onCollateralVault_succeeds, CollateralVault.setOracleConfig_succeeds] at success
  obtain ⟨_, _, ⟨-, rfl⟩, _, rfl, rfl⟩ := success
  rfl

theorem redeemProtocolFees_succeeds (s s' : Market) (atoms : U64)
    (success : redeemProtocolFees.Succeeds s atoms s') :
    ∃ tracker,
      (SharesTracker.withdrawShares s.supplyVault.pendingProtocolFeeShares .roundDown).Succeeds
        s.supplyVault.supplySharesTracker atoms tracker ∧
      s' =
        { s with
          supplyVault :=
            { s.supplyVault with
              pendingProtocolFeeShares := Fixed.zero
              supplySharesTracker := tracker } } ∧
      s'.Covered := by
  simp only [redeemProtocolFees, Method.succeeds_bind, onSupplyVault_succeeds,
    rejectOverdrawn_succeeds, Method.succeeds_pure] at success
  obtain ⟨_, _, ⟨_, redeemed, rfl⟩, _, _, ⟨covered, rfl⟩, rfl, rfl⟩ := success
  obtain ⟨tracker, burned, rfl⟩ := SupplyVault.redeem_succeeds
    SupplyVault.pendingProtocolFeeShares
    (fun v => { v with pendingProtocolFeeShares := Fixed.zero }) (fun _ => rfl) _ _ _ redeemed
  exact ⟨tracker, burned, rfl, covered⟩

theorem redeemCuratorFess_succeeds (s s' : Market) (atoms : U64)
    (success : redeemCuratorFess.Succeeds s atoms s') :
    ∃ tracker,
      (SharesTracker.withdrawShares s.supplyVault.pendingCuratorFeeShares .roundDown).Succeeds
        s.supplyVault.supplySharesTracker atoms tracker ∧
      s' =
        { s with
          supplyVault :=
            { s.supplyVault with
              pendingCuratorFeeShares := Fixed.zero
              supplySharesTracker := tracker } } ∧
      s'.Covered := by
  simp only [redeemCuratorFess, Method.succeeds_bind, onSupplyVault_succeeds,
    rejectOverdrawn_succeeds, Method.succeeds_pure] at success
  obtain ⟨_, _, ⟨_, redeemed, rfl⟩, _, _, ⟨covered, rfl⟩, rfl, rfl⟩ := success
  obtain ⟨tracker, burned, rfl⟩ := SupplyVault.redeem_succeeds
    SupplyVault.pendingCuratorFeeShares
    (fun v => { v with pendingCuratorFeeShares := Fixed.zero }) (fun _ => rfl) _ _ _ redeemed
  exact ⟨tracker, burned, rfl, covered⟩

theorem donateSupplyAtoms_succeeds (atoms : U64) (s s' : Market) (u : Unit) :
    (donateSupplyAtoms atoms).Succeeds s u s' ↔
      ∃ tracker,
        (SharesTracker.donateAtoms atoms).Succeeds s.supplyVault.supplySharesTracker u tracker ∧
          s' = s.withSupplyTracker tracker :=
  supplyTracker_succeeds _ s s' u

theorem syncClock_succeeds (unixTimestamp : Int64) (s s' : Market) (u : Unit)
    (success : (syncClock unixTimestamp).Succeeds s u s') :
    (¬ s.supplyVault.lastUpdateUnixTimestamp < unixTimestamp ∧ s' = s) ∨
      (Nonempty (SupplyVault.Sync unixTimestamp s.config.lendingMarketFeeFixed
          s.config.protocolFeeShareInBps s.supplyVault s'.supplyVault) ∧
        s' = { s with supplyVault := s'.supplyVault }) := by
  simp only [syncClock, Method.succeeds_bind, Method.succeeds_self, onSupplyVault_succeeds]
    at success
  obtain ⟨_, _, ⟨rfl, rfl⟩, _, synced, rfl⟩ := success
  rcases SupplyVault.syncClock_succeeds _ _ _ _ _ _ synced with ⟨earlier, rfl⟩ | accrued
  · exact Or.inl ⟨earlier, rfl⟩
  · exact Or.inr ⟨accrued, rfl⟩

end Market

namespace MarketWith

variable {π : Type}

theorem onMarket_succeeds {α : Type} (m : LendingMethod Market α) (s s' : MarketWith π) (a : α) :
    (onMarket m).Succeeds s a s' ↔
      ∃ market, m.Succeeds s.market a market ∧ s' = { s with market } := by
  simp only [onMarket, Method.succeeds_zoom, eq_comm]

theorem onPosition_succeeds {α : Type} (m : LendingMethod π α) (s s' : MarketWith π) (a : α) :
    (onPosition m).Succeeds s a s' ↔
      ∃ position, m.Succeeds s.position a position ∧ s' = { s with position } := by
  simp only [onPosition, Method.succeeds_zoom, eq_comm]

theorem ensureCapitalSweepInactive_succeeds (s s' : MarketWith BorrowPosition) (u : Unit) :
    ensureCapitalSweepInactive.Succeeds s u s' ↔
      s.position.sweptCollateralAtoms = 0 ∧ s' = s := by
  simp only [ensureCapitalSweepInactive, Method.succeeds_bind, Method.succeeds_self,
    Method.succeeds_lift, BorrowPosition.ensureCapitalSweepInactive_ok]
  constructor
  · rintro ⟨_, _, ⟨rfl, rfl⟩, inactive, rfl⟩
    exact ⟨inactive, rfl⟩
  · rintro ⟨inactive, rfl⟩
    exact ⟨_, _, ⟨rfl, rfl⟩, inactive, rfl⟩

theorem lend_succeeds (atoms : U64) (s s' : MarketWith SupplyPosition) (u : Unit)
    (success : (lend atoms).Succeeds s u s') :
    ∃ shares tracker,
      (SharesTracker.depositAtoms atoms).Succeeds s.market.supplyVault.supplySharesTracker shares
        tracker ∧
      s'.market = s.market.withSupplyTracker tracker ∧
      (SupplyPosition.lend atoms shares).Succeeds s.position () s'.position := by
  simp only [lend, SupplyVault.lend, Method.succeeds_bind, onMarket_succeeds, onPosition_succeeds,
    Market.supplyTracker_succeeds, Method.succeeds_self, Method.succeeds_lift,
    Method.succeeds_rejectIf] at success
  obtain ⟨shares, _, ⟨_, ⟨tracker, minted, rfl⟩, rfl⟩, _, _, ⟨position, credited, rfl⟩, _, _,
    ⟨rfl, rfl⟩, total, _, ⟨-, rfl⟩, -, rfl⟩ := success
  exact ⟨shares, tracker, minted, rfl, credited⟩

theorem withdraw_succeeds (atoms : U64) (s s' : MarketWith SupplyPosition) (u : Unit)
    (success : (withdraw atoms).Succeeds s u s') :
    ∃ shares tracker,
      (SharesTracker.withdrawAtoms atoms).Succeeds s.market.supplyVault.supplySharesTracker shares
        tracker ∧
      s'.market = s.market.withSupplyTracker tracker ∧ s'.market.Covered ∧
      (SupplyPosition.withdraw shares).Succeeds s.position () s'.position := by
  simp only [withdraw, SupplyVault.withdrawAtoms, Method.succeeds_bind, onMarket_succeeds,
    onPosition_succeeds, Market.supplyTracker_succeeds, Market.rejectOverdrawn_succeeds] at success
  obtain ⟨shares, _, ⟨_, ⟨tracker, burned, rfl⟩, rfl⟩, _, _, ⟨_, ⟨covered, rfl⟩, rfl⟩, position,
    debited, rfl⟩ := success
  exact ⟨shares, tracker, burned, rfl, covered, debited⟩

theorem withdrawAll_succeeds (s s' : MarketWith SupplyPosition) (atoms : U64)
    (success : withdrawAll.Succeeds s atoms s') :
    ∃ tracker,
      (SharesTracker.withdrawShares s.position.shares .roundDown).Succeeds
        s.market.supplyVault.supplySharesTracker atoms tracker ∧
      s'.market = s.market.withSupplyTracker tracker ∧ s'.market.Covered ∧
      s'.position = { s.position with depositedAtoms := 0, shares := Fixed.zero } := by
  simp only [withdrawAll, SupplyVault.withdrawShares, Method.succeeds_bind, onMarket_succeeds,
    onPosition_succeeds, Market.supplyTracker_succeeds, Market.rejectOverdrawn_succeeds,
    Method.succeeds_self, Method.succeeds_pure, SupplyPosition.withdrawAll_succeeds] at success
  obtain ⟨_, _, ⟨rfl, rfl⟩, _, _, ⟨_, ⟨tracker, burned, rfl⟩, rfl⟩, _, _, ⟨_, ⟨covered, rfl⟩, rfl⟩,
    _, _, ⟨position, rfl, rfl⟩, rfl, rfl⟩ := success
  exact ⟨tracker, burned, rfl, covered, rfl⟩

theorem depositCollateral_succeeds (atoms : U64) (s s' : MarketWith BorrowPosition) (u : Unit) :
    (depositCollateral atoms).Succeeds s u s' ↔
      s.position.sweptCollateralAtoms = 0 ∧
        ∃ collateral total,
          s.position.collateralDepositedAtoms.toNat + atoms.toNat = collateral.toNat ∧
          s.market.collateralVault.totalCollateralAtoms.toNat + atoms.toNat = total.toNat ∧
          s' = ⟨s.market.withCollateral total,
            { s.position with collateralDepositedAtoms := collateral }⟩ := by
  simp only [depositCollateral, Method.succeeds_bind, onMarket_succeeds, onPosition_succeeds,
    Market.depositCollateral_succeeds, BorrowPosition.depositCollateral_succeeds,
    ensureCapitalSweepInactive_succeeds]
  constructor
  · rintro ⟨_, _, ⟨inactive, rfl⟩, _, _, ⟨_, ⟨collateral, added, rfl⟩, rfl⟩, _, ⟨total, sum, rfl⟩,
      rfl⟩
    exact ⟨inactive, collateral, total, added, sum, rfl⟩
  · rintro ⟨inactive, collateral, total, added, sum, rfl⟩
    exact ⟨(), s, ⟨inactive, rfl⟩, (), _, ⟨_, ⟨collateral, added, rfl⟩, rfl⟩, _, ⟨total, sum, rfl⟩,
      rfl⟩

theorem withdrawCollateral_succeeds (atoms : U64) (collateralOracle supplyOracle : OracleRate)
    (s s' : MarketWith BorrowPosition) (u : Unit)
    (success : (withdrawCollateral atoms collateralOracle supplyOracle).Succeeds s u s') :
    s.position.sweptCollateralAtoms = 0 ∧
      ∃ collateral total health,
        atoms.toNat + collateral.toNat = s.position.collateralDepositedAtoms.toNat ∧
        atoms.toNat + total.toNat = s.market.collateralVault.totalCollateralAtoms.toNat ∧
        s' = ⟨s.market.withCollateral total,
          { s.position with collateralDepositedAtoms := collateral }⟩ ∧
        s.market.borrowPositionHealth s'.position collateralOracle supplyOracle = .ok health ∧
        health.ltv.bits ≤ s.market.config.ltvConfig.maxLtv.bits := by
  simp only [withdrawCollateral, Method.succeeds_bind, onMarket_succeeds, onPosition_succeeds,
    Market.withdrawCollateral_succeeds, BorrowPosition.withdrawCollateral_succeeds,
    ensureCapitalSweepInactive_succeeds, Method.succeeds_self, Method.succeeds_rejectIf,
    Method.succeeds_lift, Market.positionChecksOnLtvIncrease_ok] at success
  obtain ⟨_, _, ⟨inactive, rfl⟩, _, _, ⟨_, ⟨collateral, taken, rfl⟩, rfl⟩, _, _, ⟨rfl, rfl⟩, _, _,
    ⟨-, rfl⟩, health, _, ⟨healthy, rfl⟩, _, _, ⟨_, ⟨total, difference, rfl⟩, rfl⟩, bounded,
    rfl⟩ := success
  exact ⟨inactive, collateral, total, health, taken, difference, rfl, healthy, bounded⟩

theorem borrow_succeeds (atoms : U64) (supplyOracle collateralOracle : OracleRate)
    (s s' : MarketWith BorrowPosition) (u : Unit)
    (success : (borrow atoms supplyOracle collateralOracle).Succeeds s u s') :
    s.position.sweptCollateralAtoms = 0 ∧
      ∃ shares tracker health utilisation,
        (SharesTracker.depositAtoms atoms).Succeeds s.market.supplyVault.borrowSharesTracker shares
          tracker ∧
        s'.market = s.market.withBorrowTracker tracker ∧
        (BorrowPosition.borrow atoms shares).Succeeds s.position () s'.position ∧
        s'.market.borrowPositionHealth s'.position collateralOracle supplyOracle = .ok health ∧
        health.ltv.bits ≤ s'.market.config.ltvConfig.maxLtv.bits ∧
        s'.market.supplyVault.utilisationRate = .ok utilisation ∧
        utilisation.bits ≤ s'.market.config.maxUtilisationRate.bits := by
  simp only [borrow, SupplyVault.borrow, Method.succeeds_bind, onMarket_succeeds,
    onPosition_succeeds, Market.borrowTracker_succeeds, ensureCapitalSweepInactive_succeeds,
    Method.succeeds_self, Method.succeeds_rejectIf, Method.succeeds_lift,
    Market.positionChecksOnLtvIncrease_ok, Fixed.lt_def, not_lt] at success
  obtain ⟨_, _, ⟨inactive, rfl⟩, shares, _, ⟨_, ⟨tracker, minted, rfl⟩, rfl⟩, _, _,
    ⟨position, owed, rfl⟩, _, _, ⟨rfl, rfl⟩, health, _, ⟨healthy, rfl⟩, _, _, ⟨bounded, rfl⟩,
    utilisation, _, ⟨utilised, rfl⟩, within, rfl⟩ := success
  exact ⟨inactive, shares, tracker, health, utilisation, minted, rfl, owed, healthy, bounded,
    utilised, within⟩

structure Repayment (shares : UFixedPoint) (t t' : SharesTracker) (p p' : BorrowPosition) :
    Prop where
  burned : t.totalShares.bits = t'.totalShares.bits + shares.bits
  price : t'.atomsPerShare = t.atomsPerShare
  repaid : p.borrowedShares.bits = p'.borrowedShares.bits + shares.bits

theorem repay_succeeds (atoms : U64) (s s' : MarketWith BorrowPosition) (u : Unit)
    (success : (repay atoms).Succeeds s u s') :
    s.position.sweptCollateralAtoms = 0 ∧
      ∃ shares tracker,
        s.market.supplyVault.borrowSharesTracker.atomsToShares atoms = .ok shares ∧
        Repayment shares s.market.supplyVault.borrowSharesTracker tracker s.position
          s'.position ∧
        s'.market = s.market.withBorrowTracker tracker ∧
        s'.position.collateralDepositedAtoms = s.position.collateralDepositedAtoms ∧
        s'.position.sweptCollateralAtoms = s.position.sweptCollateralAtoms := by
  simp only [repay, SupplyVault.repayAtoms, Method.succeeds_bind, onMarket_succeeds,
    onPosition_succeeds, Market.borrowTracker_succeeds, ensureCapitalSweepInactive_succeeds,
    SharesTracker.withdrawAtoms_succeeds] at success
  obtain ⟨_, _, ⟨inactive, rfl⟩, shares, _, ⟨_, ⟨tracker, ⟨converted, burned, price⟩, rfl⟩, rfl⟩,
    position, repayment, rfl⟩ := success
  obtain ⟨initial, remaining, debt, rfl⟩ :=
    (BorrowPosition.repay_succeeds _ _ _ _).mp repayment
  exact ⟨inactive, shares, tracker, converted, ⟨burned, price, debt.shares_eq⟩, rfl, rfl, rfl⟩

theorem repayAll_succeeds (s s' : MarketWith BorrowPosition) (atoms : U64)
    (success : repayAll.Succeeds s atoms s') :
    s.position.sweptCollateralAtoms = 0 ∧
      ∃ tracker,
        s.market.supplyVault.borrowSharesTracker.sharesToAtoms s.position.borrowedShares .roundUp =
          .ok atoms ∧
        Repayment s.position.borrowedShares s.market.supplyVault.borrowSharesTracker tracker
          s.position s'.position ∧
        s'.market = s.market.withBorrowTracker tracker ∧
        s'.position =
          { s.position with initialBorrowedAtoms := 0, borrowedShares := Fixed.zero } := by
  simp only [repayAll, SupplyVault.repayShares, Method.succeeds_bind, onMarket_succeeds,
    onPosition_succeeds, Market.borrowTracker_succeeds, ensureCapitalSweepInactive_succeeds,
    Method.succeeds_self, Method.succeeds_pure, SharesTracker.withdrawShares_succeeds,
    BorrowPosition.repayAll_succeeds] at success
  obtain ⟨_, _, ⟨inactive, rfl⟩, _, _, ⟨rfl, rfl⟩, _, _,
    ⟨_, ⟨tracker, ⟨converted, burned, price⟩, rfl⟩, rfl⟩, _, _, ⟨_, rfl, rfl⟩, rfl, rfl⟩ := success
  exact ⟨inactive, tracker, converted, ⟨burned, price, by simp⟩, rfl, rfl⟩

theorem ensureLtvDecreased_succeeds (healthBefore healthAfter : BorrowPositionHealth)
    (collateralOracle supplyOracle : OracleRate) (s s' : MarketWith BorrowPosition) :
    (ensureLtvDecreased healthBefore collateralOracle supplyOracle).Succeeds s healthAfter s' ↔
      s.market.borrowPositionHealth s.position collateralOracle supplyOracle = .ok healthAfter ∧
        ¬ healthBefore.ltv < healthAfter.ltv ∧ s' = s := by
  simp only [ensureLtvDecreased, Method.succeeds_bind, Method.succeeds_self, Method.succeeds_lift,
    Method.succeeds_rejectIf, Method.succeeds_pure]
  constructor
  · rintro ⟨_, _, ⟨rfl, rfl⟩, _, _, ⟨healthy, rfl⟩, _, _, ⟨decreased, rfl⟩, rfl, rfl⟩
    exact ⟨healthy, decreased, rfl⟩
  · rintro ⟨healthy, decreased, rfl⟩
    exact ⟨_, _, ⟨rfl, rfl⟩, healthAfter, _, ⟨healthy, rfl⟩, (), _, ⟨decreased, rfl⟩, rfl, rfl⟩

structure Liquidated (collateralOracle supplyOracle : OracleRate) (maxRepayAtoms : U64)
    (s : MarketWith BorrowPosition) (result : LiquidationResultWithCtx)
    (s' : MarketWith BorrowPosition) where
  computed : LiquidationResultWithBonus
  atoms : U64
  shares : UFixedPoint
  tracker : SharesTracker
  seized : U64
  initial : U64
  borrowed : UFixedPoint
  collateral : U64
  total : U64
  inactive : s.position.sweptCollateralAtoms = 0
  computed_ok : s.market.computeLiquidationResultWithFeeForCollateral s.position
    s.position.collateralDepositedAtoms collateralOracle supplyOracle maxRepayAtoms =
      .ok (result.healthBeforeLiquidation, computed)
  capped : (SharesTracker.withdrawAtomsCapped computed.borrowedAtomsToRepay
    s.position.borrowedShares .roundUp).Succeeds s.market.supplyVault.borrowSharesTracker
      (atoms, shares) tracker
  liquidation_eq : result.liquidationResultWithBonus = computed.adjustForMaxRepay atoms
  seized_ok : (computed.adjustForMaxRepay atoms).totalCollateralAtomsToLiquidate = .ok seized
  debt : BorrowPosition.DebtAfter shares s.position.borrowedShares
    s.position.initialBorrowedAtoms initial borrowed
  collateral_eq : seized.toNat + collateral.toNat = s.position.collateralDepositedAtoms.toNat
  total_eq : seized.toNat + total.toNat = s.market.collateralVault.totalCollateralAtoms.toNat
  final : s' = ⟨(s.market.withBorrowTracker tracker).withCollateral total,
    { s.position with
      initialBorrowedAtoms := initial
      borrowedShares := borrowed
      collateralDepositedAtoms := collateral }⟩
  health_ok : s'.market.borrowPositionHealth s'.position collateralOracle supplyOracle =
    .ok result.healthAfterLiquidation
  decreased : ¬ result.healthBeforeLiquidation.ltv < result.healthAfterLiquidation.ltv

theorem computeLiquidationResultWithFee_ok (m : Market) (p : BorrowPosition)
    (collateralOracle supplyOracle : OracleRate) (maxRepayAtoms : U64)
    (result : BorrowPositionHealth × LiquidationResultWithBonus) :
    m.computeLiquidationResultWithFee p collateralOracle supplyOracle maxRepayAtoms = .ok result ↔
      p.sweptCollateralAtoms = 0 ∧
        m.computeLiquidationResultWithFeeForCollateral p p.collateralDepositedAtoms
          collateralOracle supplyOracle maxRepayAtoms = .ok result := by
  simp only [Market.computeLiquidationResultWithFee, except_bind_ok,
    BorrowPosition.ensureCapitalSweepInactive_ok]
  constructor
  · rintro ⟨_, inactive, success⟩
    exact ⟨inactive, success⟩
  · rintro ⟨inactive, success⟩
    exact ⟨(), inactive, success⟩

theorem liquidate_succeeds (collateralOracle supplyOracle : OracleRate) (maxRepayAtoms : U64)
    (s s' : MarketWith BorrowPosition) (result : LiquidationResultWithCtx) :
    (liquidate collateralOracle supplyOracle maxRepayAtoms).Succeeds s result s' ↔
      Nonempty (Liquidated collateralOracle supplyOracle maxRepayAtoms s result s') := by
  simp only [liquidate, SupplyVault.repayAtomsCapped, Method.succeeds_bind, onMarket_succeeds,
    onPosition_succeeds, Market.borrowTracker_succeeds, Market.withdrawCollateral_succeeds,
    ensureCapitalSweepInactive_succeeds, Method.succeeds_self, Method.succeeds_lift,
    Method.succeeds_pure, BorrowPosition.liquidate_succeeds, BorrowPosition.repay_succeeds,
    ensureLtvDecreased_succeeds, computeLiquidationResultWithFee_ok, and_assoc, exists_and_left,
    exists_eq_left', exists_eq_left, exists_const]
  constructor
  · rintro ⟨inactive, -, ⟨health, computed⟩, computed_ok, ⟨atoms, shares⟩, _,
      ⟨_, ⟨tracker, capped, rfl⟩, rfl⟩, seized, seized_ok, _,
      ⟨_, ⟨_, ⟨initial, borrowed, debt, rfl⟩, collateral, collateral_eq, rfl⟩, rfl⟩, _,
      ⟨_, ⟨total, total_eq, rfl⟩, rfl⟩, healthAfter, health_ok, decreased, rfl, rfl⟩
    exact ⟨⟨computed, atoms, shares, tracker, seized, initial, borrowed, collateral, total,
      inactive, computed_ok, capped, rfl, seized_ok, debt, collateral_eq, total_eq, rfl, health_ok,
      decreased⟩⟩
  · rintro ⟨⟨computed, atoms, shares, tracker, seized, initial, borrowed, collateral, total,
      inactive, computed_ok, capped, liquidation_eq, seized_ok, debt, collateral_eq, total_eq, rfl,
      health_ok, decreased⟩⟩
    refine ⟨inactive, inactive, (result.healthBeforeLiquidation, computed), computed_ok,
      (atoms, shares), _, ⟨_, ⟨tracker, capped, rfl⟩, rfl⟩, seized, seized_ok, _,
      ⟨_, ⟨_, ⟨initial, borrowed, debt, rfl⟩, collateral, collateral_eq, rfl⟩, rfl⟩, _,
      ⟨_, ⟨total, total_eq, rfl⟩, rfl⟩, result.healthAfterLiquidation, health_ok, decreased, ?_,
      rfl⟩
    cases result
    cases liquidation_eq
    rfl

theorem beginCapitalSweep_succeeds (collateralOracle supplyOracle : OracleRate)
    (s s' : MarketWith BorrowPosition) (health : BorrowPositionHealth) :
    (beginCapitalSweep collateralOracle supplyOracle).Succeeds s health s' ↔
      s.position.sweptCollateralAtoms = 0 ∧
        s.market.borrowPositionHealth s.position collateralOracle supplyOracle = .ok health ∧
        ¬ health.ltv < s.market.config.ltvConfig.unhealthyLtv ∧
        ¬ (Fixed.one : IFixedPoint) ≤ health.ltv ∧
        ∃ total, s.position.collateralDepositedAtoms.toNat + total.toNat =
            s.market.collateralVault.totalCollateralAtoms.toNat ∧
          s' = ⟨s.market.withCollateral total,
            { s.position with
              collateralDepositedAtoms := 0
              sweptCollateralAtoms := s.position.collateralDepositedAtoms }⟩ := by
  simp only [beginCapitalSweep, Method.succeeds_bind, onMarket_succeeds, onPosition_succeeds,
    Market.withdrawCollateral_succeeds, ensureCapitalSweepInactive_succeeds, Method.succeeds_self,
    Method.succeeds_lift, Method.succeeds_rejectIf, Method.succeeds_pure,
    BorrowPosition.beginCapitalSweep_succeeds, and_assoc, exists_and_left, exists_eq_left',
    exists_eq_left, exists_const]
  constructor
  · rintro ⟨inactive, _, healthy, unhealthy, solvent, -, _, ⟨_, ⟨total, difference, rfl⟩, rfl⟩, rfl,
      rfl⟩
    exact ⟨inactive, healthy, unhealthy, solvent, total, difference, rfl⟩
  · rintro ⟨inactive, healthy, unhealthy, solvent, total, difference, rfl⟩
    exact ⟨inactive, health, healthy, unhealthy, solvent, inactive, _,
      ⟨_, ⟨total, difference, rfl⟩, rfl⟩, rfl, rfl⟩

theorem collateralReturned_ok (swept limit returned : U64)
    (liquidation : LiquidationResultWithBonus) :
    collateralReturned swept liquidation limit = .ok returned ↔
      ∃ total, liquidation.totalCollateralAtomsToLiquidate = .ok total ∧
        total.toNat + returned.toNat = swept.toNat ∧ ¬ limit < returned := by
  simp only [collateralReturned, except_bind_ok, U64.safeSub_ok, except_ite_ok, reduceCtorEq,
    and_false, false_or, except_pure_ok]
  constructor
  · rintro ⟨total, total_ok, _, difference, within, rfl⟩
    exact ⟨total, total_ok, difference, within⟩
  · rintro ⟨total, total_ok, difference, within⟩
    exact ⟨total, total_ok, returned, difference, within, rfl⟩

structure Settlement (collateralOracle supplyOracle : OracleRate)
    (maxRepayAtoms maxCollateralAtomsToReturn : U64) (s : MarketWith BorrowPosition)
    (result : CapitalSweepSettlementResult) (s' : MarketWith BorrowPosition) where
  computed : LiquidationResultWithBonus
  provisional : U64
  atoms : U64
  shares : UFixedPoint
  tracker : SharesTracker
  initial : U64
  borrowed : UFixedPoint
  total : U64
  pending : s.position.sweptCollateralAtoms ≠ 0
  before_ok : s.market.borrowPositionHealthWithCollateralAtoms s.position
    s.position.sweptCollateralAtoms collateralOracle supplyOracle =
      .ok result.healthBeforeSettlement
  computed_ok : s.settlementLiquidation result.healthBeforeSettlement collateralOracle supplyOracle
    maxRepayAtoms = .ok computed
  provisional_ok : collateralReturned s.position.sweptCollateralAtoms computed
    maxCollateralAtomsToReturn = .ok provisional
  capped : (SharesTracker.withdrawAtomsCapped computed.borrowedAtomsToRepay
    s.position.borrowedShares .roundUp).Succeeds s.market.supplyVault.borrowSharesTracker
      (atoms, shares) tracker
  liquidation_eq : result.liquidationResultWithBonus = computed.adjustForMaxRepay atoms
  returned_ok : collateralReturned s.position.sweptCollateralAtoms
    (computed.adjustForMaxRepay atoms) maxCollateralAtomsToReturn =
      .ok result.collateralAtomsReturned
  debt : BorrowPosition.DebtAfter shares s.position.borrowedShares
    s.position.initialBorrowedAtoms initial borrowed
  total_eq : s.market.collateralVault.totalCollateralAtoms.toNat +
    result.collateralAtomsReturned.toNat = total.toNat
  final : s' = ⟨(s.market.withBorrowTracker tracker).withCollateral total,
    { s.position with
      initialBorrowedAtoms := initial
      borrowedShares := borrowed
      collateralDepositedAtoms := result.collateralAtomsReturned
      sweptCollateralAtoms := 0 }⟩
  health_ok : s'.market.borrowPositionHealth s'.position collateralOracle supplyOracle =
    .ok result.healthAfterSettlement
  decreased : ¬ result.healthBeforeSettlement.ltv < result.healthAfterSettlement.ltv

theorem settleCapitalSweep_succeeds (collateralOracle supplyOracle : OracleRate)
    (maxRepayAtoms maxCollateralAtomsToReturn : U64) (s s' : MarketWith BorrowPosition)
    (result : CapitalSweepSettlementResult) :
    (settleCapitalSweep collateralOracle supplyOracle maxRepayAtoms
        maxCollateralAtomsToReturn).Succeeds s result s' ↔
      Nonempty (Settlement collateralOracle supplyOracle maxRepayAtoms maxCollateralAtomsToReturn s
        result s') := by
  simp only [settleCapitalSweep, SupplyVault.repayAtomsCapped, Method.succeeds_bind,
    onMarket_succeeds, onPosition_succeeds, Market.borrowTracker_succeeds,
    Market.depositCollateral_succeeds, Method.succeeds_self, Method.succeeds_lift,
    Method.succeeds_rejectIf, Method.succeeds_pure, BorrowPosition.settleCapitalSweep_succeeds,
    BorrowPosition.repay_succeeds, ensureLtvDecreased_succeeds,
    BorrowPosition.capitalSweepPending_false, and_assoc, exists_and_left, exists_eq_left',
    exists_eq_left, exists_const]
  constructor
  · rintro ⟨pending, before, before_ok, computed, computed_ok, provisional, provisional_ok,
      ⟨atoms, shares⟩, _, ⟨_, ⟨tracker, capped, rfl⟩, rfl⟩, returned, returned_ok, -, _,
      ⟨_, ⟨_, ⟨initial, borrowed, debt, rfl⟩, rfl⟩, rfl⟩, _, ⟨_, ⟨total, total_eq, rfl⟩, rfl⟩,
      healthAfter, health_ok, decreased, rfl, rfl⟩
    exact ⟨⟨computed, provisional, atoms, shares, tracker, initial, borrowed, total, pending,
      before_ok, computed_ok, provisional_ok, capped, rfl, returned_ok, debt, total_eq, rfl,
      health_ok, decreased⟩⟩
  · rintro ⟨⟨computed, provisional, atoms, shares, tracker, initial, borrowed, total, pending,
      before_ok, computed_ok, provisional_ok, capped, liquidation_eq, returned_ok, debt, total_eq,
      rfl, health_ok, decreased⟩⟩
    refine ⟨pending, result.healthBeforeSettlement, before_ok, computed, computed_ok,
      provisional, provisional_ok, (atoms, shares), _, ⟨_, ⟨tracker, capped, rfl⟩, rfl⟩,
      result.collateralAtomsReturned, returned_ok, pending, _,
      ⟨_, ⟨_, ⟨initial, borrowed, debt, rfl⟩, rfl⟩, rfl⟩, _, ⟨_, ⟨total, total_eq, rfl⟩, rfl⟩,
      result.healthAfterSettlement, health_ok, decreased, ?_, rfl⟩
    cases result
    cases liquidation_eq
    rfl

theorem socializeLoss_succeeds (collateralOracle supplyOracle : OracleRate)
    (s s' : MarketWith BorrowPosition) (paid : U64 × U64) :
    (socializeLoss collateralOracle supplyOracle).Succeeds s paid s' ↔
      s.position.sweptCollateralAtoms = 0 ∧
      ∃ health borrowTracker supplyTracker total,
        s.market.borrowPositionHealth s.position collateralOracle supplyOracle = .ok health ∧
        ¬ health.ltv < (Fixed.one : IFixedPoint) ∧
        (SharesTracker.withdrawShares s.position.borrowedShares .roundUp).Succeeds
          s.market.supplyVault.borrowSharesTracker paid.1 borrowTracker ∧
        (SharesTracker.socializeLossAtoms paid.1).Succeeds s.market.supplyVault.supplySharesTracker
          () supplyTracker ∧
        s.position.collateralDepositedAtoms.toNat + total.toNat =
          s.market.collateralVault.totalCollateralAtoms.toNat ∧
        s' = ⟨((s.market.withBorrowTracker borrowTracker).withSupplyTracker
            supplyTracker).withCollateral total,
          { s.position with
            initialBorrowedAtoms := 0
            borrowedShares := Fixed.zero
            collateralDepositedAtoms := 0 }⟩ ∧
        paid.2 = s.position.collateralDepositedAtoms := by
  simp only [socializeLoss, SupplyVault.socializeLoss, Method.succeeds_bind, onMarket_succeeds,
    onPosition_succeeds, Market.onSupplyVault_succeeds, SupplyVault.onBorrowTracker_succeeds,
    SupplyVault.onSupplyTracker_succeeds, Market.withdrawCollateral_succeeds,
    ensureCapitalSweepInactive_succeeds, Method.succeeds_self, Method.succeeds_lift,
    Method.succeeds_rejectIf, Method.succeeds_pure, BorrowPosition.repayAll_succeeds,
    BorrowPosition.withdrawCollateral_succeeds, and_assoc, exists_and_left, exists_eq_left',
    exists_eq_left, exists_const]
  constructor
  · rintro ⟨inactive, health, health_ok, insolvent, debt, _,
      ⟨_, ⟨_, ⟨_, _, ⟨borrowTracker, burned, rfl⟩, _, _, ⟨supplyTracker, lost, rfl⟩, rfl, rfl⟩,
        rfl⟩, rfl⟩, _, ⟨_, ⟨collateral, taken, rfl⟩, rfl⟩, _, ⟨_, ⟨total, difference, rfl⟩, rfl⟩,
      rfl, rfl⟩
    have none : collateral = 0 := by
      rw [← UInt64.toNat_inj]
      exact Nat.add_eq_left.mp taken
    subst none
    exact ⟨inactive, health, health_ok, insolvent, borrowTracker, burned, supplyTracker, lost,
      total, difference, rfl, rfl⟩
  · rintro ⟨inactive, health, health_ok, insolvent, borrowTracker, burned, supplyTracker, lost,
      total, difference, rfl, collateral_eq⟩
    refine ⟨inactive, health, health_ok, insolvent, paid.1, _,
      ⟨_, ⟨_, ⟨_, _, ⟨borrowTracker, burned, rfl⟩, (), _, ⟨supplyTracker, lost, rfl⟩, rfl, rfl⟩,
        rfl⟩, rfl⟩, _, ⟨_, ⟨0, Nat.add_zero _, rfl⟩, rfl⟩, _, ⟨_, ⟨total, difference, rfl⟩, rfl⟩,
      ?_, rfl⟩
    exact Prod.ext rfl collateral_eq.symm

end MarketWith

end AutaraLending
