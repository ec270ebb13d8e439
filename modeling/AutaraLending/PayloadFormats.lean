import AutaraLending.Event
import AutaraLending.Instruction
import AutaraLending.PodInterestRate
import AutaraLending.Support.Borsh

/-! The derived formats of what instructions and events carry: the fields of a structure in the
order of their declaration, an enumeration as the index of its variant and the payload of that. -/

namespace AutaraLending

open Support Borsh

instance : Borsh UInt8 := ofPod
instance : Borsh UInt16 := ofPod
instance : Borsh U64 := ofPod
instance : Borsh Int64 := ofPod
instance : Borsh (Vector UInt8 32) := ofPod
instance : Borsh IFixedPoint := ofPod
instance : Borsh InterestRatePerSecond := ofPod
instance : Borsh PolylineInterestRateCurve := ofPod
instance : Borsh AdaptiveInterestRateCurve := ofPod

instance : Total UInt8 := total_ofPod
instance : Total UInt16 := total_ofPod
instance : Total U64 := total_ofPod
instance : Total Int64 := total_ofPod
instance : Total (Vector UInt8 32) := total_ofPod
instance : Total IFixedPoint := total_ofPod
instance : Total InterestRatePerSecond := total_ofPod
instance : Total PolylineInterestRateCurve := total_ofPod
instance : Total AdaptiveInterestRateCurve := total_ofPod

/-! Configurations of markets. -/

instance : Borsh InterestRateCurveKind where
  serialize
    | .fixed rate => tagged 0 (serialize rate)
    | .polyline curve => tagged 1 (serialize curve)
    | .adaptive curve => tagged 2 (serialize curve)
  deserialize
    | 0 :: reader => deserializeAs .fixed reader
    | 1 :: reader => deserializeAs .polyline reader
    | 2 :: reader => deserializeAs .adaptive reader
    | _ => none
  deserialize_serialize kind bytes rest written := by
    cases kind with
    | _ curve =>
        obtain ⟨tail, payload, rfl⟩ := tagged_some.mp written
        exact deserializeAs_serialize _ payload rest

instance : Total InterestRateCurveKind where
  isSome_serialize kind := by
    cases kind with
    | _ curve => exact isSome_tagged (Total.isSome_serialize curve)

def PythProvider.fields (provider : PythProvider) :=
  (provider.feedId, provider.programId)

instance : Borsh PythProvider :=
  ofFields PythProvider.fields (fun (feedId, programId) => some ⟨feedId, programId⟩) (fun _ => rfl)

instance : Total PythProvider := ⟨fun provider => Total.isSome_serialize provider.fields⟩

def ChaosProvider.fields (provider : ChaosProvider) :=
  (provider.feedId, provider.programId, provider.requiredSignatures, ({} : Padding 7))

instance : Borsh ChaosProvider :=
  ofFields ChaosProvider.fields
    (fun (feedId, programId, requiredSignatures, _) => some ⟨feedId, programId, requiredSignatures⟩)
    (fun _ => rfl)

instance : Total ChaosProvider := ⟨fun provider => Total.isSome_serialize provider.fields⟩

instance : Borsh OracleProvider where
  serialize
    | .pyth provider => tagged 0 (serialize (provider, ({} : Padding 8)))
    | .chaos provider => tagged 1 (serialize provider)
  deserialize
    | 0 :: reader => deserializeAs (fun union : PythProvider × Padding 8 => .pyth union.1) reader
    | 1 :: reader => deserializeAs .chaos reader
    | _ => none
  deserialize_serialize provider bytes rest written := by
    cases provider with
    | _ provider =>
        obtain ⟨tail, payload, rfl⟩ := tagged_some.mp written
        exact deserializeAs_serialize _ payload rest

instance : Total OracleProvider where
  isSome_serialize provider := by
    cases provider with
    | pyth provider => exact isSome_tagged (Total.isSome_serialize (provider, ({} : Padding 8)))
    | chaos provider => exact isSome_tagged (Total.isSome_serialize provider)

def OracleValidationConfig.fields (config : OracleValidationConfig) :=
  (config.maxAge.value, config.minRelativeConfidence.value)

instance : Borsh OracleValidationConfig :=
  ofFields OracleValidationConfig.fields
    (fun (maxAge, minRelativeConfidence) => some ⟨⟨maxAge⟩, ⟨minRelativeConfidence⟩⟩)
    (fun _ => rfl)

instance : Total OracleValidationConfig := ⟨fun config => Total.isSome_serialize config.fields⟩

def OracleConfig.fields (config : OracleConfig) :=
  (config.oracleProvider, config.validationConfig, ({} : Padding 160))

instance : Borsh OracleConfig :=
  ofFields OracleConfig.fields
    (fun (oracleProvider, validationConfig, _) => some ⟨oracleProvider, validationConfig⟩)
    (fun _ => rfl)

instance : Total OracleConfig := ⟨fun config => Total.isSome_serialize config.fields⟩

def LtvConfig.fields (ltv : LtvConfig) :=
  (ltv.maxLtv, ltv.unhealthyLtv, ltv.liquidationBonus)

instance : Borsh LtvConfig :=
  ofFields LtvConfig.fields
    (fun (maxLtv, unhealthyLtv, liquidationBonus) => some ⟨maxLtv, unhealthyLtv, liquidationBonus⟩)
    (fun _ => rfl)

instance : Total LtvConfig := ⟨fun ltv => Total.isSome_serialize ltv.fields⟩

/-! Instructions. -/

def AccountInfo.fields (account : AccountInfo) :=
  (account.key, account.isSigner, account.isWritable)

instance : Borsh AccountInfo :=
  ofFields AccountInfo.fields
    (fun (key, isSigner, isWritable) => some ⟨key, isSigner, isWritable⟩)
    (fun _ => rfl)

instance : Total AccountInfo := ⟨fun account => Total.isSome_serialize account.fields⟩

def Instruction.fields (ix : Instruction) :=
  (ix.programId, ix.accounts, ix.data)

instance : Borsh Instruction :=
  ofFields Instruction.fields
    (fun (programId, accounts, data) => some ⟨programId, accounts, data⟩)
    (fun _ => rfl)

def CreateMarketInstruction.fields (ix : CreateMarketInstruction) :=
  (ix.marketBump, ix.index, ix.ltvConfig, ix.maxUtilisationRate, ix.supplyOracleConfig,
    ix.collateralOracleConfig, ix.interestRate, ix.lendingMarketFeeInBps)

instance : Borsh CreateMarketInstruction :=
  ofFields CreateMarketInstruction.fields
    (fun (marketBump, index, ltvConfig, maxUtilisationRate, supplyOracleConfig,
      collateralOracleConfig, interestRate, lendingMarketFeeInBps) =>
      some ⟨marketBump, index, ltvConfig, maxUtilisationRate, supplyOracleConfig,
        collateralOracleConfig, interestRate, lendingMarketFeeInBps⟩)
    (fun _ => rfl)

instance : Total CreateMarketInstruction := ⟨fun ix => Total.isSome_serialize ix.fields⟩

def UpdateConfigInstruction.fields (ix : UpdateConfigInstruction) :=
  (ix.supplyOracleConfig, ix.collateralOracleConfig, ix.ltvConfig, ix.maxSupplyAtoms,
    ix.maxUtilisationRate, ix.lendingMarketFeeInBps)

instance : Borsh UpdateConfigInstruction :=
  ofFields UpdateConfigInstruction.fields
    (fun (supplyOracleConfig, collateralOracleConfig, ltvConfig, maxSupplyAtoms, maxUtilisationRate,
      lendingMarketFeeInBps) =>
      some ⟨supplyOracleConfig, collateralOracleConfig, ltvConfig, maxSupplyAtoms,
        maxUtilisationRate, lendingMarketFeeInBps⟩)
    (fun _ => rfl)

instance : Total UpdateConfigInstruction := ⟨fun ix => Total.isSome_serialize ix.fields⟩

instance : Borsh CreateSupplyPositionInstruction := ofFields (·.bump) (some ⟨·⟩) (fun _ => rfl)

instance : Total CreateSupplyPositionInstruction := ⟨fun ix => Total.isSome_serialize ix.bump⟩

instance : Borsh SupplyAplInstruction := ofFields (·.amount) (some ⟨·⟩) (fun _ => rfl)

instance : Total SupplyAplInstruction := ⟨fun ix => Total.isSome_serialize ix.amount⟩

def WithdrawSupplyInstruction.fields (ix : WithdrawSupplyInstruction) :=
  (ix.amount, ix.withdrawAll)

instance : Borsh WithdrawSupplyInstruction :=
  ofFields WithdrawSupplyInstruction.fields
    (fun (amount, withdrawAll) => some ⟨amount, withdrawAll⟩)
    (fun _ => rfl)

instance : Total WithdrawSupplyInstruction := ⟨fun ix => Total.isSome_serialize ix.fields⟩

instance : Borsh DonateSupplyInstruction := ofFields (·.amount) (some ⟨·⟩) (fun _ => rfl)

instance : Total DonateSupplyInstruction := ⟨fun ix => Total.isSome_serialize ix.amount⟩

instance : Borsh CreateBorrowPositionInstruction := ofFields (·.bump) (some ⟨·⟩) (fun _ => rfl)

instance : Total CreateBorrowPositionInstruction := ⟨fun ix => Total.isSome_serialize ix.bump⟩

instance : Borsh BorrowAplInstruction := ofFields (·.amount) (some ⟨·⟩) (fun _ => rfl)

instance : Total BorrowAplInstruction := ⟨fun ix => Total.isSome_serialize ix.amount⟩

instance : Borsh DepositAplCollateralInstruction := ofFields (·.amount) (some ⟨·⟩) (fun _ => rfl)

instance : Total DepositAplCollateralInstruction := ⟨fun ix => Total.isSome_serialize ix.amount⟩

def WithdrawAplCollateralInstruction.fields (ix : WithdrawAplCollateralInstruction) :=
  (ix.amount, ix.withdrawAll)

instance : Borsh WithdrawAplCollateralInstruction :=
  ofFields WithdrawAplCollateralInstruction.fields
    (fun (amount, withdrawAll) => some ⟨amount, withdrawAll⟩)
    (fun _ => rfl)

instance : Total WithdrawAplCollateralInstruction := ⟨fun ix => Total.isSome_serialize ix.fields⟩

def RepayAplInstruction.fields (ix : RepayAplInstruction) :=
  (ix.amount, ix.repayAll)

instance : Borsh RepayAplInstruction :=
  ofFields RepayAplInstruction.fields
    (fun (amount, repayAll) => some ⟨amount, repayAll⟩)
    (fun _ => rfl)

instance : Total RepayAplInstruction := ⟨fun ix => Total.isSome_serialize ix.fields⟩

def BorrowDepositAplInstruction.fields (ix : BorrowDepositAplInstruction) :=
  (ix.depositAmount, ix.borrowAmount, ix.ixCallback)

instance : Borsh BorrowDepositAplInstruction :=
  ofFields BorrowDepositAplInstruction.fields
    (fun (depositAmount, borrowAmount, ixCallback) =>
      some ⟨depositAmount, borrowAmount, ixCallback⟩)
    (fun _ => rfl)

def WithdrawRepayAplInstruction.fields (ix : WithdrawRepayAplInstruction) :=
  (ix.repayAmount, ix.withdrawAmount, ix.repayAll, ix.withdrawAll, ix.ixCallback)

instance : Borsh WithdrawRepayAplInstruction :=
  ofFields WithdrawRepayAplInstruction.fields
    (fun (repayAmount, withdrawAmount, repayAll, withdrawAll, ixCallback) =>
      some ⟨repayAmount, withdrawAmount, repayAll, withdrawAll, ixCallback⟩)
    (fun _ => rfl)

def LiquidateInstruction.fields (ix : LiquidateInstruction) :=
  (ix.maxBorrowedAtomsToRepay, ix.minCollateralAtomsToReceive, ix.ixCallback)

instance : Borsh LiquidateInstruction :=
  ofFields LiquidateInstruction.fields
    (fun (maxBorrowedAtomsToRepay, minCollateralAtomsToReceive, ixCallback) =>
      some ⟨maxBorrowedAtomsToRepay, minCollateralAtomsToReceive, ixCallback⟩)
    (fun _ => rfl)

instance : Borsh SocializeLossInstruction := ofFields (fun _ => ()) (fun _ => some {})
    (fun _ => rfl)

instance : Total SocializeLossInstruction := ⟨fun _ => rfl⟩

instance : Borsh BeginCapitalSweepInstruction :=
  ofFields (fun _ => ()) (fun _ => some {}) (fun _ => rfl)

instance : Total BeginCapitalSweepInstruction := ⟨fun _ => rfl⟩

def SettleCapitalSweepInstruction.fields (ix : SettleCapitalSweepInstruction) :=
  (ix.maxBorrowedAtomsToRepay, ix.maxCollateralAtomsToReturn)

instance : Borsh SettleCapitalSweepInstruction :=
  ofFields SettleCapitalSweepInstruction.fields
    (fun (maxBorrowedAtomsToRepay, maxCollateralAtomsToReturn) =>
      some ⟨maxBorrowedAtomsToRepay, maxCollateralAtomsToReturn⟩)
    (fun _ => rfl)

instance : Total SettleCapitalSweepInstruction := ⟨fun ix => Total.isSome_serialize ix.fields⟩

def CreateGlobalConfigInstruction.fields (ix : CreateGlobalConfigInstruction) :=
  (ix.bump, ix.admin, ix.feeReceiver, ix.protocolFeeShareInBps)

instance : Borsh CreateGlobalConfigInstruction :=
  ofFields CreateGlobalConfigInstruction.fields
    (fun (bump, admin, feeReceiver, protocolFeeShareInBps) =>
      some ⟨bump, admin, feeReceiver, protocolFeeShareInBps⟩)
    (fun _ => rfl)

instance : Total CreateGlobalConfigInstruction := ⟨fun ix => Total.isSome_serialize ix.fields⟩

def UpdateGlobalConfigInstruction.fields (ix : UpdateGlobalConfigInstruction) :=
  (ix.acceptNomination, ix.nominatedAdmin, ix.feeReceiver, ix.protocolFeeShareInBps)

instance : Borsh UpdateGlobalConfigInstruction :=
  ofFields UpdateGlobalConfigInstruction.fields
    (fun (acceptNomination, nominatedAdmin, feeReceiver, protocolFeeShareInBps) =>
      some ⟨acceptNomination, nominatedAdmin, feeReceiver, protocolFeeShareInBps⟩)
    (fun _ => rfl)

instance : Total UpdateGlobalConfigInstruction := ⟨fun ix => Total.isSome_serialize ix.fields⟩

def AddWhitelistedLiquidatorInstruction.fields (ix : AddWhitelistedLiquidatorInstruction) :=
  (ix.liquidator, ix.bump)

instance : Borsh AddWhitelistedLiquidatorInstruction :=
  ofFields AddWhitelistedLiquidatorInstruction.fields
    (fun (liquidator, bump) => some ⟨liquidator, bump⟩)
    (fun _ => rfl)

instance : Total AddWhitelistedLiquidatorInstruction := ⟨fun ix => Total.isSome_serialize ix.fields⟩

instance : Borsh RemoveWhitelistedLiquidatorInstruction :=
  ofFields (·.liquidator) (some ⟨·⟩) (fun _ => rfl)

instance : Total RemoveWhitelistedLiquidatorInstruction :=
  ⟨fun ix => Total.isSome_serialize ix.liquidator⟩

/-- The lengths of the two lists of an instruction fit in their four bytes. -/
def Instruction.Fits (self : Instruction) : Prop :=
  self.accounts.length < 2 ^ 32 ∧ self.data.length < 2 ^ 32

instance (ix : Instruction) : Decidable ix.Fits := inferInstanceAs (Decidable (_ ∧ _))

theorem isSome_serialize_instruction (ix : Instruction) : (serialize ix).isSome ↔ ix.Fits := by
  change (followedBy (serialize ix.programId)
    (followedBy (serialize ix.accounts) (serialize ix.data))).isSome ↔ _
  rw [isSome_followedBy, isSome_followedBy, Total.isSome_serialize, Bool.true_and, Bool.and_eq_true,
    isSome_serialize_list, isSome_serialize_list, Instruction.Fits]

theorem isSome_serialize_callback (ixCallback : Option Instruction) :
    (serialize ixCallback).isSome ↔ ∀ callback ∈ ixCallback, callback.Fits := by
  cases ixCallback with
  | none => simp [serialize]
  | some callback =>
      change (tagged 1 (serialize callback)).isSome ↔ _
      rw [tagged, isSome_followedBy, Option.isSome_some, Bool.true_and,
        isSome_serialize_instruction]
      simp

/-! Events. -/

/-- The reader of the source takes any two numbers; a rate of the model is a checked one. -/
def OracleRate.ofStored (rate confidence : IFixedPoint) : Option OracleRate :=
  if valid : 0 ≤ confidence.bits ∧ confidence.bits < rate.bits then
    some ⟨rate, confidence, valid.1, valid.2⟩
  else none

def OracleRate.fields (price : OracleRate) :=
  (price.rate, price.confidence)

instance : Borsh OracleRate :=
  ofFields OracleRate.fields
    (fun (rate, confidence) => OracleRate.ofStored rate confidence)
    (fun price => dif_pos ⟨price.confidence_nonneg, price.confidence_lt⟩)

instance : Total OracleRate := ⟨fun price => Total.isSome_serialize price.fields⟩

def SupplyVaultSummary.fields (summary : SupplyVaultSummary) :=
  (summary.lastUpdateUnixTimestamp, summary.totalSupply, summary.totalBorrow,
    summary.pendingCuratorFeeAtoms, summary.pendingProtocolFeeAtoms, summary.utilisationRate,
    summary.borrowInterestRate, summary.lendingInterestRate)

instance : Borsh SupplyVaultSummary :=
  ofFields SupplyVaultSummary.fields
    (fun (lastUpdateUnixTimestamp, totalSupply, totalBorrow, pendingCuratorFeeAtoms,
      pendingProtocolFeeAtoms, utilisationRate, borrowInterestRate, lendingInterestRate) =>
      some ⟨lastUpdateUnixTimestamp, totalSupply, totalBorrow, pendingCuratorFeeAtoms,
        pendingProtocolFeeAtoms, utilisationRate, borrowInterestRate, lendingInterestRate⟩)
    (fun _ => rfl)

instance : Total SupplyVaultSummary := ⟨fun summary => Total.isSome_serialize summary.fields⟩

def BorrowPositionHealth.fields (health : BorrowPositionHealth) :=
  (health.ltv, health.borrowedAtoms, health.collateralAtoms, health.borrowValue,
    health.collateralValue)

instance : Borsh BorrowPositionHealth :=
  ofFields BorrowPositionHealth.fields
    (fun (ltv, borrowedAtoms, collateralAtoms, borrowValue, collateralValue) =>
      some ⟨ltv, borrowedAtoms, collateralAtoms, borrowValue, collateralValue⟩)
    (fun _ => rfl)

instance : Total BorrowPositionHealth := ⟨fun health => Total.isSome_serialize health.fields⟩

def LiquidateEvent.fields (event : LiquidateEvent) :=
  (event.market, event.liquidator, event.liquidateePosition, event.supplyMint, event.collateralMint,
    event.healthBeforeLiquidation, event.healthAfterLiquidation, event.supplyRepaid,
    event.collateralLiquidated, event.liquidatorFee)

instance : Borsh LiquidateEvent :=
  ofFields LiquidateEvent.fields
    (fun (market, liquidator, liquidateePosition, supplyMint, collateralMint,
      healthBeforeLiquidation, healthAfterLiquidation, supplyRepaid, collateralLiquidated,
      liquidatorFee) =>
      some ⟨market, liquidator, liquidateePosition, supplyMint, collateralMint,
        healthBeforeLiquidation, healthAfterLiquidation, supplyRepaid, collateralLiquidated,
        liquidatorFee⟩)
    (fun _ => rfl)

instance : Total LiquidateEvent := ⟨fun event => Total.isSome_serialize event.fields⟩

def SingleMarketTransactionEvent.fields (event : SingleMarketTransactionEvent) :=
  (event.market, event.user, event.position, event.mint, event.amount, event.supplyVaultSummary,
    event.collateralVaultAtoms, event.supplyOracleRate, event.collateralOracleRate)

instance : Borsh SingleMarketTransactionEvent :=
  ofFields SingleMarketTransactionEvent.fields
    (fun (market, user, position, mint, amount, supplyVaultSummary, collateralVaultAtoms,
      supplyOracleRate, collateralOracleRate) =>
      some ⟨market, user, position, mint, amount, supplyVaultSummary, collateralVaultAtoms,
        supplyOracleRate, collateralOracleRate⟩)
    (fun _ => rfl)

instance : Total SingleMarketTransactionEvent := ⟨fun event => Total.isSome_serialize event.fields⟩

def DoubleMarketTransactionEvent.fields (event : DoubleMarketTransactionEvent) :=
  (event.market, event.user, event.position, event.mintIn, event.amountIn, event.mintOut,
    event.amountOut, event.supplyVaultSummary, event.collateralVaultAtoms, event.supplyOracleRate,
    event.collateralOracleRate)

instance : Borsh DoubleMarketTransactionEvent :=
  ofFields DoubleMarketTransactionEvent.fields
    (fun (market, user, position, mintIn, amountIn, mintOut, amountOut, supplyVaultSummary,
      collateralVaultAtoms, supplyOracleRate, collateralOracleRate) =>
      some ⟨market, user, position, mintIn, amountIn, mintOut, amountOut, supplyVaultSummary,
        collateralVaultAtoms, supplyOracleRate, collateralOracleRate⟩)
    (fun _ => rfl)

instance : Total DoubleMarketTransactionEvent := ⟨fun event => Total.isSome_serialize event.fields⟩

def ReedeemFeeEvent.fields (event : ReedeemFeeEvent) :=
  (event.market, event.feeReceiver, event.feeAmount, event.mint, event.supplyVaultSnapshot)

instance : Borsh ReedeemFeeEvent :=
  ofFields ReedeemFeeEvent.fields
    (fun (market, feeReceiver, feeAmount, mint, supplyVaultSnapshot) =>
      some ⟨market, feeReceiver, feeAmount, mint, supplyVaultSnapshot⟩)
    (fun _ => rfl)

instance : Total ReedeemFeeEvent := ⟨fun event => Total.isSome_serialize event.fields⟩

def SocializeLossEvent.fields (event : SocializeLossEvent) :=
  (event.market, event.position, event.debtSocialized, event.collateralLiquidated)

instance : Borsh SocializeLossEvent :=
  ofFields SocializeLossEvent.fields
    (fun (market, position, debtSocialized, collateralLiquidated) =>
      some ⟨market, position, debtSocialized, collateralLiquidated⟩)
    (fun _ => rfl)

instance : Total SocializeLossEvent := ⟨fun event => Total.isSome_serialize event.fields⟩

def DonateSupplyEvent.fields (event : DonateSupplyEvent) :=
  (event.market, event.donor, event.mint, event.amount)

instance : Borsh DonateSupplyEvent :=
  ofFields DonateSupplyEvent.fields
    (fun (market, donor, mint, amount) => some ⟨market, donor, mint, amount⟩)
    (fun _ => rfl)

instance : Total DonateSupplyEvent := ⟨fun event => Total.isSome_serialize event.fields⟩

def CapitalSweepStartedEvent.fields (event : CapitalSweepStartedEvent) :=
  (event.market, event.curator, event.position, event.collateralMint, event.healthBeforeSweep,
    event.collateralSwept)

instance : Borsh CapitalSweepStartedEvent :=
  ofFields CapitalSweepStartedEvent.fields
    (fun (market, curator, position, collateralMint, healthBeforeSweep, collateralSwept) =>
      some ⟨market, curator, position, collateralMint, healthBeforeSweep, collateralSwept⟩)
    (fun _ => rfl)

instance : Total CapitalSweepStartedEvent := ⟨fun event => Total.isSome_serialize event.fields⟩

def CapitalSweepSettledEvent.fields (event : CapitalSweepSettledEvent) :=
  (event.market, event.curator, event.position, event.supplyMint, event.collateralMint,
    event.healthBeforeSettlement, event.healthAfterSettlement, event.supplyRepaid,
    event.collateralLiquidated, event.curatorBonus, event.collateralReturned)

instance : Borsh CapitalSweepSettledEvent :=
  ofFields CapitalSweepSettledEvent.fields
    (fun (market, curator, position, supplyMint, collateralMint, healthBeforeSettlement,
      healthAfterSettlement, supplyRepaid, collateralLiquidated, curatorBonus,
        collateralReturned) =>
      some ⟨market, curator, position, supplyMint, collateralMint, healthBeforeSettlement,
        healthAfterSettlement, supplyRepaid, collateralLiquidated, curatorBonus,
          collateralReturned⟩)
    (fun _ => rfl)

instance : Total CapitalSweepSettledEvent := ⟨fun event => Total.isSome_serialize event.fields⟩

def LiquidatorWhitelistUpdatedEvent.fields (event : LiquidatorWhitelistUpdatedEvent) :=
  (event.market, event.curator, event.liquidator, event.activeWhitelistedLiquidators)

instance : Borsh LiquidatorWhitelistUpdatedEvent :=
  ofFields LiquidatorWhitelistUpdatedEvent.fields
    (fun (market, curator, liquidator, activeWhitelistedLiquidators) =>
      some ⟨market, curator, liquidator, activeWhitelistedLiquidators⟩)
    (fun _ => rfl)

instance : Total LiquidatorWhitelistUpdatedEvent :=
  ⟨fun event => Total.isSome_serialize event.fields⟩

end AutaraLending
