import AutaraLending.AdministrationStep
import AutaraLending.LendingAccounts
import AutaraLending.Wire

/-! The instructions with which users, liquidators, curators and the protocol move tokens, and the
dispatch of every instruction of the program. -/

namespace AutaraLending

open Support

namespace MarketWith

variable {π : Type} (ctx : Context)

def wrapperMut (supplyOracle collateralOracle : AccountInfo) :
    LendingMethod (MarketWith π) (OracleRate × OracleRate) := do
  let self ← Method.self
  let oracles ← Method.lift
    (ctx.loadOracles self.market supplyOracle.key collateralOracle.key)
  onMarket (Market.syncClock ctx.unixTimestamp)
  pure oracles

def singleEvent (oracles : OracleRate × OracleRate) (accounts : PositionAccounts)
    (side : VaultSide) (atoms : U64) :
    LendingMethod (MarketWith π) (SingleMarketTransactionEvent × List (List UInt8)) := do
  let self ← Method.self
  let event ← Method.lift (self.market.getSingleMarketTransactionEvent oracles.1 oracles.2
    accounts.market.key accounts.authority.key accounts.position.key
    (self.market.vaultKeys side).mint atoms)
  pure (event, self.market.seed)

def doubleEvent (oracles : OracleRate × OracleRate) (accounts : DoublePositionAccounts)
    (sideIn : VaultSide) (amountIn : U64) (sideOut : VaultSide) (amountOut : U64) :
    LendingMethod (MarketWith π) (DoubleMarketTransactionEvent × List (List UInt8)) := do
  let self ← Method.self
  let event ← Method.lift (self.market.getDoubleMarketTransactionEvent oracles.1 oracles.2
    accounts.market.key accounts.authority.key accounts.borrowPosition.key
    (self.market.vaultKeys sideIn).mint amountIn (self.market.vaultKeys sideOut).mint amountOut)
  pure (event, self.market.seed)

def withdrawRequested (data : WithdrawSupplyInstruction) :
    LendingMethod (MarketWith SupplyPosition) U64 :=
  if data.withdrawAll then withdrawAll
  else do
    withdraw data.amount
    pure data.amount

def repayRequested (all : Bool) (amount : U64) : LendingMethod (MarketWith BorrowPosition) U64 :=
  if all then repayAll
  else do
    repay amount
    pure amount

def withdrawCollateralRequested (oracles : OracleRate × OracleRate) (all : Bool) (amount : U64) :
    LendingMethod (MarketWith BorrowPosition) U64 := do
  let self ← Method.self
  let atoms := if all then self.position.collateralDepositedAtoms else amount
  withdrawCollateral atoms oracles.2 oracles.1
  pure atoms

end MarketWith

section Instructions

open Program

variable (env : Environment) (ctx : Context)

def invokeCallback (ixCallback : Option Instruction) : Program Unit :=
  ifSome ixCallback fun ix => invoke env ctx (.callback ix)

def supplyPositionSeedPrefix : List UInt8 :=
  [0x73, 0x75, 0x70, 0x70, 0x6c, 0x79, 0x5f, 0x70, 0x6f, 0x73, 0x69, 0x74, 0x69, 0x6f, 0x6e]

def borrowPositionSeedPrefix : List UInt8 :=
  [0x62, 0x6f, 0x72, 0x72, 0x6f, 0x77, 0x5f, 0x70, 0x6f, 0x73, 0x69, 0x74, 0x69, 0x6f, 0x6e]

def processCreateSupplyPosition (accounts : CreateSupplyPositionAccounts)
    (data : CreateSupplyPositionInstruction) : Program Unit := do
  invoke env ctx (.createAccount accounts.payer.key accounts.position.key .supplyPosition
    [supplyPositionSeedPrefix, accounts.market.key.toList, accounts.authority.key.toList,
      [data.bump]])
  let _ ← uninitializedAccountMut SupplyPosition accounts.position
  onState accounts.position.key
    (Method.assign (SupplyPosition.new accounts.authority.key accounts.market.key))

def processCreateBorrowPosition (accounts : CreateBorrowPositionAccounts)
    (data : CreateBorrowPositionInstruction) : Program Unit := do
  invoke env ctx (.createAccount accounts.payer.key accounts.position.key .borrowPosition
    [borrowPositionSeedPrefix, accounts.market.key.toList, accounts.authority.key.toList,
      [data.bump]])
  let _ ← uninitializedAccountMut BorrowPosition accounts.position
  onState accounts.position.key
    (Method.assign (BorrowPosition.initializePosition accounts.authority.key accounts.market.key))

def onPosition {T α : Type} [LendingAccount T] (accounts : PositionAccounts)
    (m : LendingMethod (MarketWith T) α) : Program α :=
  onMarketWith accounts.market.key accounts.position.key (lending m)

def PositionAccounts.transferIn (accounts : PositionAccounts) (amount : U64) : Invocation :=
  .transfer accounts.authorityAta.key accounts.marketVault.key accounts.authority.key amount []

def PositionAccounts.transferOut (accounts : PositionAccounts) (amount : U64)
    (seed : List (List UInt8)) : Invocation :=
  .transfer accounts.marketVault.key accounts.authorityAta.key accounts.market.key amount seed

def processSupplyApl (accounts : SupplyAplAccounts) (data : SupplyAplInstruction) :
    Program Unit := do
  let (supplyEvent, seed) ← onPosition accounts do
    let oracles ← MarketWith.wrapperMut ctx accounts.supplyOracle accounts.collateralOracle
    MarketWith.lend data.amount
    MarketWith.singleEvent oracles accounts .supply data.amount
  invoke env ctx (.log accounts.market.key (.supply supplyEvent) seed)
  invoke env ctx (accounts.transferIn data.amount)

def processWithdrawSupply (accounts : WithdrawSupplyAccounts) (data : WithdrawSupplyInstruction) :
    Program Unit := do
  let (withdrawAmount, withdrawEvent, seed) ← onPosition accounts do
    let oracles ← MarketWith.wrapperMut ctx accounts.supplyOracle accounts.collateralOracle
    let withdrawAmount ← MarketWith.withdrawRequested data
    let event ← MarketWith.singleEvent oracles accounts .supply withdrawAmount
    pure (withdrawAmount, event)
  invoke env ctx (.log accounts.market.key (.withdraw withdrawEvent) seed)
  invoke env ctx (accounts.transferOut withdrawAmount seed)

def processBorrowApl (accounts : BorrowAplAccounts) (data : BorrowAplInstruction) :
    Program Unit := do
  let (borrowEvent, seed) ← onPosition accounts do
    let oracles ← MarketWith.wrapperMut ctx accounts.supplyOracle accounts.collateralOracle
    MarketWith.borrow data.amount oracles.1 oracles.2
    MarketWith.singleEvent oracles accounts .supply data.amount
  invoke env ctx (.log accounts.market.key (.borrow borrowEvent) seed)
  invoke env ctx (accounts.transferOut data.amount seed)

def processRepayApl (accounts : RepayAplAccounts) (data : RepayAplInstruction) :
    Program Unit := do
  let (amount, repayEvent, seed) ← onPosition accounts do
    let oracles ← MarketWith.wrapperMut ctx accounts.supplyOracle accounts.collateralOracle
    let amount ← MarketWith.repayRequested data.repayAll data.amount
    let event ← MarketWith.singleEvent oracles accounts .supply amount
    pure (amount, event)
  invoke env ctx (.log accounts.market.key (.repay repayEvent) seed)
  invoke env ctx (accounts.transferIn amount)

def processDepositAplCollateral (accounts : DepositAplCollateralAccounts)
    (data : DepositAplCollateralInstruction) : Program Unit := do
  let (depositCollateralEvent, seed) ← onPosition accounts do
    let oracles ← MarketWith.wrapperMut ctx accounts.supplyOracle accounts.collateralOracle
    MarketWith.depositCollateral data.amount
    MarketWith.singleEvent oracles accounts .collateral data.amount
  invoke env ctx (.log accounts.market.key (.depositCollateral depositCollateralEvent) seed)
  invoke env ctx (accounts.transferIn data.amount)

def processWithdrawAplCollateral (accounts : WithdrawAplCollateralAccounts)
    (data : WithdrawAplCollateralInstruction) : Program Unit := do
  let (atoms, withdrawCollateralEvent, seed) ← onPosition accounts do
    let oracles ← MarketWith.wrapperMut ctx accounts.supplyOracle accounts.collateralOracle
    let atoms ← MarketWith.withdrawCollateralRequested oracles data.withdrawAll data.amount
    let event ← MarketWith.singleEvent oracles accounts .collateral atoms
    pure (atoms, event)
  invoke env ctx (.log accounts.market.key (.withdrawCollateral withdrawCollateralEvent) seed)
  invoke env ctx (accounts.transferOut atoms seed)

def processBorrowDepositApl (accounts : BorrowDepositAplAccounts)
    (data : BorrowDepositAplInstruction) : Program Unit := do
  let (event, seed) ← onMarketWith accounts.market.key accounts.borrowPosition.key (lending do
    let oracles ← MarketWith.wrapperMut ctx accounts.supplyOracle accounts.collateralOracle
    MarketWith.depositCollateral data.depositAmount
    MarketWith.borrow data.borrowAmount oracles.1 oracles.2
    MarketWith.doubleEvent oracles accounts .collateral data.depositAmount .supply
      data.borrowAmount)
  invoke env ctx (.log accounts.market.key (.borrowAndDeposit event) seed)
  invoke env ctx (.transfer accounts.marketSupplyVault.key accounts.authoritySupplyAta.key
    accounts.market.key data.borrowAmount seed)
  invokeCallback env ctx data.ixCallback
  invoke env ctx (.transfer accounts.authorityCollateralAta.key accounts.marketCollateralVault.key
    accounts.authority.key data.depositAmount [])

def processWithdrawRepayApl (accounts : WithdrawRepayAplAccounts)
    (data : WithdrawRepayAplInstruction) : Program Unit := do
  let (repayAmount, withdrawAmount, event, seed) ←
    onMarketWith accounts.market.key accounts.borrowPosition.key (lending do
      let oracles ← MarketWith.wrapperMut ctx accounts.supplyOracle accounts.collateralOracle
      let repayAmount ← MarketWith.repayRequested data.repayAll data.repayAmount
      let withdrawAmount ←
        MarketWith.withdrawCollateralRequested oracles data.withdrawAll data.withdrawAmount
      let event ← MarketWith.doubleEvent oracles accounts .supply repayAmount .collateral
        withdrawAmount
      pure (repayAmount, withdrawAmount, event))
  invoke env ctx (.log accounts.market.key (.withdrawAndRepay event) seed)
  invoke env ctx (.transfer accounts.marketCollateralVault.key accounts.authorityCollateralAta.key
    accounts.market.key withdrawAmount seed)
  invokeCallback env ctx data.ixCallback
  invoke env ctx (.transfer accounts.authoritySupplyAta.key accounts.marketSupplyVault.key
    accounts.authority.key repayAmount [])

def LiquidateAccounts.event (accounts : LiquidateAccounts) (market : Market)
    (liquidation : LiquidationResultWithCtx) : LiquidateEvent where
  market := accounts.market.key
  liquidator := accounts.liquidator.key
  liquidateePosition := accounts.borrowPosition.key
  supplyMint := market.supplyVault.mint
  collateralMint := market.collateralVault.mint
  healthBeforeLiquidation := liquidation.healthBeforeLiquidation
  healthAfterLiquidation := liquidation.healthAfterLiquidation
  supplyRepaid := liquidation.liquidationResultWithBonus.borrowedAtomsToRepay
  collateralLiquidated := liquidation.liquidationResultWithBonus.collateralAtomsToLiquidate
  liquidatorFee := liquidation.liquidationResultWithBonus.collateralAtomsLiquidationBonus

def processLiquidate (accounts : LiquidateAccounts) (data : LiquidateInstruction) :
    Program Unit := do
  let (liquidation, totalCollateralLiquidated, liquidationEvent, seed) ←
    onMarketWith accounts.market.key accounts.borrowPosition.key (lending do
      let oracles ← MarketWith.wrapperMut ctx accounts.supplyOracle accounts.collateralOracle
      let liquidation ←
        MarketWith.liquidate oracles.2 oracles.1 data.maxBorrowedAtomsToRepay
      let totalCollateralLiquidated ← Method.lift
        liquidation.liquidationResultWithBonus.totalCollateralAtomsToLiquidate
      Method.rejectIf (totalCollateralLiquidated < data.minCollateralAtomsToReceive)
        LendingError.liquidationDidNotMeetRequirements.into
      let self ← Method.self
      pure (liquidation, totalCollateralLiquidated, accounts.event self.market liquidation,
        self.market.seed))
  invoke env ctx (.log accounts.market.key (.liquidate liquidationEvent) seed)
  invoke env ctx (.transfer accounts.marketCollateralVault.key
    accounts.liquidatorCollateralAta.key accounts.market.key totalCollateralLiquidated seed)
  invokeCallback env ctx data.ixCallback
  invoke env ctx (.transfer accounts.liquidatorSupplyAta.key accounts.marketSupplyVault.key
    accounts.liquidator.key liquidation.liquidationResultWithBonus.borrowedAtomsToRepay [])

def CollateralReceiverAccounts.transferOut (accounts : CollateralReceiverAccounts) (amount : U64)
    (seed : List (List UInt8)) : Invocation :=
  .transfer accounts.marketCollateralVault.key accounts.receiverCollateralAta.key
    accounts.market.key amount seed

def processSocializeLoss (accounts : SocializeLossAccounts) (_data : SocializeLossInstruction) :
    Program Unit := do
  let (debtSocialized, collateralLiquidated, seed) ←
    onMarketWith accounts.market.key accounts.borrowPosition.key (lending do
      let oracles ← MarketWith.wrapperMut ctx accounts.supplyOracle accounts.collateralOracle
      let loss ← MarketWith.socializeLoss oracles.2 oracles.1
      let self ← Method.self
      pure (loss.1, loss.2, self.market.seed))
  invoke env ctx (.log accounts.market.key
    (.socializeLoss
      { market := accounts.market.key
        position := accounts.borrowPosition.key
        debtSocialized
        collateralLiquidated })
    seed)
  invoke env ctx (accounts.transferOut collateralLiquidated seed)

def processBeginCapitalSweep (accounts : BeginCapitalSweepAccounts)
    (_data : BeginCapitalSweepInstruction) : Program Unit := do
  let (healthBeforeSweep, collateralSwept, collateralMint, seed) ←
    onMarketWith accounts.market.key accounts.borrowPosition.key (lending do
      let oracles ← MarketWith.wrapperMut ctx accounts.supplyOracle accounts.collateralOracle
      let healthBeforeSweep ← MarketWith.beginCapitalSweep oracles.2 oracles.1
      let self ← Method.self
      pure (healthBeforeSweep, self.position.sweptCollateralAtoms,
        self.market.collateralVault.mint, self.market.seed))
  invoke env ctx (.log accounts.market.key
    (.capitalSweepStarted
      { market := accounts.market.key
        curator := accounts.curator.key
        position := accounts.borrowPosition.key
        collateralMint
        healthBeforeSweep
        collateralSwept })
    seed)
  invoke env ctx (accounts.transferOut collateralSwept seed)

def SettleCapitalSweepAccounts.event (accounts : SettleCapitalSweepAccounts) (market : Market)
    (settlement : CapitalSweepSettlementResult) : CapitalSweepSettledEvent where
  market := accounts.market.key
  curator := accounts.curator.key
  position := accounts.borrowPosition.key
  supplyMint := market.supplyVault.mint
  collateralMint := market.collateralVault.mint
  healthBeforeSettlement := settlement.healthBeforeSettlement
  healthAfterSettlement := settlement.healthAfterSettlement
  supplyRepaid := settlement.liquidationResultWithBonus.borrowedAtomsToRepay
  collateralLiquidated := settlement.liquidationResultWithBonus.collateralAtomsToLiquidate
  curatorBonus := settlement.liquidationResultWithBonus.collateralAtomsLiquidationBonus
  collateralReturned := settlement.collateralAtomsReturned

def processSettleCapitalSweep (accounts : SettleCapitalSweepAccounts)
    (data : SettleCapitalSweepInstruction) : Program Unit := do
  let (settlement, event, seed) ←
    onMarketWith accounts.market.key accounts.borrowPosition.key (lending do
      let oracles ← MarketWith.wrapperMut ctx accounts.supplyOracle accounts.collateralOracle
      let settlement ← MarketWith.settleCapitalSweep oracles.2 oracles.1
        data.maxBorrowedAtomsToRepay data.maxCollateralAtomsToReturn
      let self ← Method.self
      pure (settlement, accounts.event self.market settlement, self.market.seed))
  invoke env ctx (.log accounts.market.key (.capitalSweepSettled event) seed)
  invoke env ctx (.transfer accounts.curatorSupplyAta.key accounts.marketSupplyVault.key
    accounts.curator.key settlement.liquidationResultWithBonus.borrowedAtomsToRepay [])
  invoke env ctx (.transfer accounts.curatorCollateralAta.key accounts.marketCollateralVault.key
    accounts.curator.key settlement.collateralAtomsReturned [])

def processDonateSupply (accounts : DonateSupplyAccounts) (data : DonateSupplyInstruction) :
    Program Unit := do
  let (mint, seed) ← onState accounts.market.key (lending do
    Market.syncClock ctx.unixTimestamp
    Market.donateSupplyAtoms data.amount
    let self ← Method.self
    pure (self.supplyVault.mint, self.seed))
  invoke env ctx (.log accounts.market.key
    (.donateSupply
      { market := accounts.market.key
        donor := accounts.authority.key
        mint
        amount := data.amount })
    seed)
  invoke env ctx (.transfer accounts.authoritySupplyAta.key accounts.marketSupplyVault.key
    accounts.authority.key data.amount [])

def Market.redeemFees (redeem : LendingMethod Market U64) (market feeReceiver : Pubkey) :
    LendingMethod Market (U64 × ReedeemFeeEvent × List (List UInt8)) := do
  Market.syncClock ctx.unixTimestamp
  let toWithdraw ← redeem
  let self ← Method.self
  let supplyVaultSnapshot ← Method.lift self.supplyVault.getSummary
  let event : ReedeemFeeEvent :=
    { market
      feeReceiver
      feeAmount := toWithdraw
      mint := self.supplyVault.mint
      supplyVaultSnapshot }
  pure (toWithdraw, event, self.seed)

def processRedeemCuratorFees (accounts : RedeemCuratorFeesAccounts) : Program Unit := do
  let (toWithdraw, event, seed) ← onState accounts.market.key (lending
    (Market.redeemFees ctx Market.redeemCuratorFess accounts.market.key
      accounts.curatorSupplyAta.owner))
  invoke env ctx (.log accounts.market.key (.reedeemCuratorFees event) seed)
  invoke env ctx (.transfer accounts.marketSupplyVault.key accounts.curatorSupplyAta.key
    accounts.market.key toWithdraw seed)

/-- The event names a redemption of the curator's fees here, too. -/
def processRedeemProtocolFees (accounts : RedeemProtocolFeesAccounts) : Program Unit := do
  let (toWithdraw, event, seed) ← onState accounts.market.key (lending
    (Market.redeemFees ctx Market.redeemProtocolFees accounts.market.key
      accounts.receiverSupplyAta.owner))
  invoke env ctx (.log accounts.market.key (.reedeemCuratorFees event) seed)
  invoke env ctx (.transfer accounts.marketSupplyVault.key accounts.receiverSupplyAta.key
    accounts.market.key toWithdraw seed)

end Instructions

namespace Transactions

/-- An instruction with the accounts passed to it, and what it finds outside of them. -/
structure Call where
  accounts : List AccountInfo
  instruction : AurataInstruction
  context : Context

variable (env : Environment)

def autaraProcessInstruction (call : Call) : Program Unit :=
  match call.instruction with
  | .createMarket data => do
      let accounts ← CreateMarketAccounts.fromAccounts env call.context call.accounts
      processCreateMarket env call.context accounts data
  | .createSupplyPosition data => do
      let accounts ← CreatePositionAccounts.fromAccounts env call.accounts
      processCreateSupplyPosition env call.context accounts data
  | .supplyApl data => do
      let accounts ← SupplyAplAccounts.fromAccounts env call.context call.accounts
      processSupplyApl env call.context accounts data
  | .withdrawSupply data => do
      let accounts ← WithdrawSupplyAccounts.fromAccounts env call.context call.accounts
      processWithdrawSupply env call.context accounts data
  | .createBorrowPosition data => do
      let accounts ← CreatePositionAccounts.fromAccounts env call.accounts
      processCreateBorrowPosition env call.context accounts data
  | .borrowApl data => do
      let accounts ← BorrowAplAccounts.fromAccounts env call.context call.accounts
      processBorrowApl env call.context accounts data
  | .depositAplCollateral data => do
      let accounts ← DepositAplCollateralAccounts.fromAccounts env call.context call.accounts
      processDepositAplCollateral env call.context accounts data
  | .repayApl data => do
      let accounts ← RepayAplAccounts.fromAccounts env call.context call.accounts
      processRepayApl env call.context accounts data
  | .updateConfig data => do
      let accounts ← UpdateConfigAccounts.fromAccounts env call.accounts
      processUpdateConfig call.context accounts data
  | .withdrawAplCollateral data => do
      let accounts ← WithdrawAplCollateralAccounts.fromAccounts env call.context call.accounts
      processWithdrawAplCollateral env call.context accounts data
  | .liquidate data => do
      let accounts ← LiquidateAccounts.fromAccounts env call.context call.accounts
      processLiquidate env call.context accounts data
  | .createGlobalConfig data => do
      let accounts ← CreateGlobalConfigAccounts.fromAccounts env call.accounts
      processCreateGlobalConfig env call.context accounts data
  | .reedeemCuratorFees => do
      let accounts ← RedeemCuratorFeesAccounts.fromAccounts env call.context call.accounts
      processRedeemCuratorFees env call.context accounts
  | .reedeemProtocolFees => do
      let accounts ← RedeemProtocolFeesAccounts.fromAccounts env call.context call.accounts
      processRedeemProtocolFees env call.context accounts
  | .updateGlobalConfig data => do
      let accounts ← UpdateGlobalConfigAccounts.fromAccounts call.accounts
      processUpdateGlobalConfig accounts data
  | .borrowDepositApl data => do
      let accounts ← DoublePositionAccounts.fromAccounts env call.context call.accounts
      processBorrowDepositApl env call.context accounts data
  | .withdrawRepayApl data => do
      let accounts ← DoublePositionAccounts.fromAccounts env call.context call.accounts
      processWithdrawRepayApl env call.context accounts data
  | .socializeLoss data => do
      let accounts ← CollateralReceiverAccounts.fromAccounts env call.context call.accounts
      processSocializeLoss env call.context accounts data
  | .donateSupply data => do
      let accounts ← DonateSupplyAccounts.fromAccounts env call.context call.accounts
      processDonateSupply env call.context accounts data
  | .beginCapitalSweep data => do
      let accounts ← CollateralReceiverAccounts.fromAccounts env call.context call.accounts
      processBeginCapitalSweep env call.context accounts data
  | .settleCapitalSweep data => do
      let accounts ← SettleCapitalSweepAccounts.fromAccounts env call.context call.accounts
      processSettleCapitalSweep env call.context accounts data
  | .addWhitelistedLiquidator data => do
      let accounts ← AddWhitelistedLiquidatorAccounts.fromAccounts env call.accounts data
      processAddWhitelistedLiquidator env call.context accounts data
  | .removeWhitelistedLiquidator data => do
      let accounts ← RemoveWhitelistedLiquidatorAccounts.fromAccounts env call.accounts data
      processRemoveWhitelistedLiquidator env call.context accounts data
  | .log => do
      let _checkAccounts ← LogAccounts.fromAccounts call.accounts
      pure ()

/-- An instruction on the chain, with the calls of other programs that it makes. The clock of a
chain that runs is not zero. -/
def execute (call : Call) : Method InstructionFailure Chain (List Invocation) := fun chain =>
  if call.context.unixTimestamp = 0 then (.error .panicked, chain)
  else
    let outcome := autaraProcessInstruction env call ⟨chain, []⟩
    (outcome.1.map fun _ => outcome.2.invocations, outcome.2.chain)

/-- An instruction that has succeeded. -/
structure Entry where
  before : Chain
  call : Call
  invocations : List Invocation

/-- The instructions of a run that have succeeded. Those that fail leave the chain as it is. -/
def history (chain : Chain) : List Call → List Entry
  | [] => []
  | call :: rest =>
      match execute env call chain with
      | (.ok invocations, after) => ⟨chain, call, invocations⟩ :: history after rest
      | (.error _, _) => history chain rest

theorem execute_succeeds (call : Call) (chain chain' : Chain) (invocations : List Invocation)
    (success : (execute env call).Succeeds chain invocations chain') :
    ∃ u w', (autaraProcessInstruction env call).Succeeds ⟨chain, []⟩ u w' ∧ w'.chain = chain' ∧
      w'.invocations = invocations := by
  unfold execute Method.Succeeds at success
  split at success
  · simp at success
  · rcases outcome : autaraProcessInstruction env call ⟨chain, []⟩ with ⟨result, w'⟩
    simp only [outcome] at success
    cases result with
    | error e => simp [Except.map] at success
    | ok u =>
        obtain ⟨rfl, rfl⟩ : w'.invocations = invocations ∧ w'.chain = chain' := by
          simpa [Except.map] using success
        exact ⟨u, w', outcome, rfl, rfl⟩

theorem mem_history (chain : Chain) (calls : List Call) (entry : Entry)
    (member : entry ∈ history env chain calls) :
    ∃ after, (execute env entry.call).Succeeds entry.before entry.invocations after := by
  induction calls generalizing chain with
  | nil => cases member
  | cons call rest ih =>
      unfold history at member
      split at member
      · rename_i invocations after outcome
        rcases List.mem_cons.mp member with rfl | later
        · exact ⟨after, outcome⟩
        · exact ih after later
      · exact ih chain member

end Transactions

end AutaraLending
