import AutaraLending.Idl
import AutaraLending.PayloadFormats

/-! The bytes of instructions and events, as the program reads and writes them. -/

namespace AutaraLending

open Support Borsh

/-- The tags of instructions, in the order of their declaration. -/
inductive AurataInstructionTag where
  | createMarket
  | createSupplyPosition
  | supplyApl
  | withdrawSupply
  | createBorrowPosition
  | depositAplCollateral
  | withdrawAplCollateral
  | borrowApl
  | repayApl
  | updateConfig
  | liquidate
  | log
  | createGlobalConfig
  | reedeemCuratorFees
  | reedeemProtocolFees
  | updateGlobalConfig
  | borrowDepositApl
  | withdrawRepayApl
  | socializeLoss
  | donateSupply
  | beginCapitalSweep
  | settleCapitalSweep
  | addWhitelistedLiquidator
  | removeWhitelistedLiquidator
  deriving DecidableEq

namespace AurataInstructionTag

def variants : List AurataInstructionTag :=
  [.createMarket, .createSupplyPosition, .supplyApl, .withdrawSupply, .createBorrowPosition,
    .depositAplCollateral, .withdrawAplCollateral, .borrowApl, .repayApl, .updateConfig,
    .liquidate, .log, .createGlobalConfig, .reedeemCuratorFees, .reedeemProtocolFees,
    .updateGlobalConfig, .borrowDepositApl, .withdrawRepayApl, .socializeLoss, .donateSupply,
    .beginCapitalSweep, .settleCapitalSweep, .addWhitelistedLiquidator,
    .removeWhitelistedLiquidator]

instance : Borsh AurataInstructionTag :=
  ofVariants variants (fun tag => by cases tag <;> decide) (by decide)

instance : Total AurataInstructionTag := ⟨fun _ => rfl⟩

/-- The numeric table of the tags, written beside the derived format. -/
def tryFrom (value : UInt8) : Except UInt8 AurataInstructionTag :=
  match value with
  | 0 => .ok .createMarket
  | 1 => .ok .createSupplyPosition
  | 2 => .ok .supplyApl
  | 3 => .ok .withdrawSupply
  | 4 => .ok .createBorrowPosition
  | 5 => .ok .depositAplCollateral
  | 6 => .ok .withdrawAplCollateral
  | 7 => .ok .borrowApl
  | 8 => .ok .repayApl
  | 9 => .ok .updateConfig
  | 10 => .ok .liquidate
  | 11 => .ok .log
  | 12 => .ok .createGlobalConfig
  | 13 => .ok .reedeemCuratorFees
  | 14 => .ok .reedeemProtocolFees
  | 15 => .ok .updateGlobalConfig
  | 16 => .ok .borrowDepositApl
  | 17 => .ok .withdrawRepayApl
  | 18 => .ok .socializeLoss
  | 19 => .ok .donateSupply
  | 20 => .ok .beginCapitalSweep
  | 21 => .ok .settleCapitalSweep
  | 22 => .ok .addWhitelistedLiquidator
  | 23 => .ok .removeWhitelistedLiquidator
  | _ => .error value

theorem serialize_byte (tag : AurataInstructionTag) :
    ∃ byte, serialize tag = some [byte] ∧ tryFrom byte = .ok tag ∧ byte < 24 := by
  refine ⟨UInt8.ofNat (variants.idxOf tag), rfl, ?_, ?_⟩
  · cases tag <;> rfl
  · cases tag <;> decide

end AurataInstructionTag

namespace AurataInstruction

def tag : AurataInstruction → AurataInstructionTag
  | .createMarket _ => .createMarket
  | .createSupplyPosition _ => .createSupplyPosition
  | .supplyApl _ => .supplyApl
  | .withdrawSupply _ => .withdrawSupply
  | .createBorrowPosition _ => .createBorrowPosition
  | .borrowApl _ => .borrowApl
  | .depositAplCollateral _ => .depositAplCollateral
  | .withdrawAplCollateral _ => .withdrawAplCollateral
  | .repayApl _ => .repayApl
  | .updateConfig _ => .updateConfig
  | .liquidate _ => .liquidate
  | .log => .log
  | .createGlobalConfig _ => .createGlobalConfig
  | .reedeemCuratorFees => .reedeemCuratorFees
  | .reedeemProtocolFees => .reedeemProtocolFees
  | .updateGlobalConfig _ => .updateGlobalConfig
  | .borrowDepositApl _ => .borrowDepositApl
  | .withdrawRepayApl _ => .withdrawRepayApl
  | .socializeLoss _ => .socializeLoss
  | .donateSupply _ => .donateSupply
  | .beginCapitalSweep _ => .beginCapitalSweep
  | .settleCapitalSweep _ => .settleCapitalSweep
  | .addWhitelistedLiquidator _ => .addWhitelistedLiquidator
  | .removeWhitelistedLiquidator _ => .removeWhitelistedLiquidator

/-- Every variant writes its tag, then its payload. -/
def serialize : AurataInstruction → Option (List UInt8)
  | .createMarket ix => variant AurataInstructionTag.createMarket ix
  | .createSupplyPosition ix => variant AurataInstructionTag.createSupplyPosition ix
  | .supplyApl ix => variant AurataInstructionTag.supplyApl ix
  | .withdrawSupply ix => variant AurataInstructionTag.withdrawSupply ix
  | .borrowApl ix => variant AurataInstructionTag.borrowApl ix
  | .createBorrowPosition ix => variant AurataInstructionTag.createBorrowPosition ix
  | .depositAplCollateral ix => variant AurataInstructionTag.depositAplCollateral ix
  | .withdrawAplCollateral ix => variant AurataInstructionTag.withdrawAplCollateral ix
  | .repayApl ix => variant AurataInstructionTag.repayApl ix
  | .updateConfig ix => variant AurataInstructionTag.updateConfig ix
  | .liquidate ix => variant AurataInstructionTag.liquidate ix
  | .log => Borsh.serialize AurataInstructionTag.log
  | .createGlobalConfig ix => variant AurataInstructionTag.createGlobalConfig ix
  | .reedeemCuratorFees => Borsh.serialize AurataInstructionTag.reedeemCuratorFees
  | .reedeemProtocolFees => Borsh.serialize AurataInstructionTag.reedeemProtocolFees
  | .updateGlobalConfig ix => variant AurataInstructionTag.updateGlobalConfig ix
  | .borrowDepositApl ix => variant AurataInstructionTag.borrowDepositApl ix
  | .withdrawRepayApl ix => variant AurataInstructionTag.withdrawRepayApl ix
  | .socializeLoss ix => variant AurataInstructionTag.socializeLoss ix
  | .donateSupply ix => variant AurataInstructionTag.donateSupply ix
  | .beginCapitalSweep ix => variant AurataInstructionTag.beginCapitalSweep ix
  | .settleCapitalSweep ix => variant AurataInstructionTag.settleCapitalSweep ix
  | .addWhitelistedLiquidator ix => variant AurataInstructionTag.addWhitelistedLiquidator ix
  | .removeWhitelistedLiquidator ix => variant AurataInstructionTag.removeWhitelistedLiquidator ix

def deserializeReader (reader : List UInt8) : Option (AurataInstruction × List UInt8) := do
  let ((tag : AurataInstructionTag), reader) ← deserialize reader
  match tag with
  | .createMarket => deserializeAs .createMarket reader
  | .createSupplyPosition => deserializeAs .createSupplyPosition reader
  | .supplyApl => deserializeAs .supplyApl reader
  | .withdrawSupply => deserializeAs .withdrawSupply reader
  | .borrowApl => deserializeAs .borrowApl reader
  | .createBorrowPosition => deserializeAs .createBorrowPosition reader
  | .depositAplCollateral => deserializeAs .depositAplCollateral reader
  | .withdrawAplCollateral => deserializeAs .withdrawAplCollateral reader
  | .repayApl => deserializeAs .repayApl reader
  | .updateConfig => deserializeAs .updateConfig reader
  | .liquidate => deserializeAs .liquidate reader
  | .log => pure (.log, reader)
  | .createGlobalConfig => deserializeAs .createGlobalConfig reader
  | .reedeemCuratorFees => pure (.reedeemCuratorFees, reader)
  | .reedeemProtocolFees => pure (.reedeemProtocolFees, reader)
  | .updateGlobalConfig => deserializeAs .updateGlobalConfig reader
  | .borrowDepositApl => deserializeAs .borrowDepositApl reader
  | .withdrawRepayApl => deserializeAs .withdrawRepayApl reader
  | .socializeLoss => deserializeAs .socializeLoss reader
  | .donateSupply => deserializeAs .donateSupply reader
  | .beginCapitalSweep => deserializeAs .beginCapitalSweep reader
  | .settleCapitalSweep => deserializeAs .settleCapitalSweep reader
  | .addWhitelistedLiquidator => deserializeAs .addWhitelistedLiquidator reader
  | .removeWhitelistedLiquidator => deserializeAs .removeWhitelistedLiquidator reader

/-- The callback that is carried along, of the instructions that may carry one. -/
def ixCallback : AurataInstruction → Option Instruction
  | .liquidate ix => ix.ixCallback
  | .borrowDepositApl ix => ix.ixCallback
  | .withdrawRepayApl ix => ix.ixCallback
  | _ => none

theorem isSome_serialize (ix : AurataInstruction) :
    ix.serialize.isSome ↔ ∀ callback ∈ ix.ixCallback, callback.Fits := by
  cases ix with
  | log | reedeemCuratorFees | reedeemProtocolFees =>
      simp [serialize, ixCallback, Total.isSome_serialize]
  | liquidate ix | borrowDepositApl ix | withdrawRepayApl ix =>
      rw [ixCallback, ← isSome_serialize_callback, serialize, isSome_variant]
      change (Borsh.serialize ix.fields).isSome ↔ _
      simp only [LiquidateInstruction.fields, BorrowDepositAplInstruction.fields,
        WithdrawRepayAplInstruction.fields, isSome_serialize_pair]
  | _ ix => simp [serialize, ixCallback, isSome_variant, Total.isSome_serialize]

theorem serialize_opens_with_tag (ix : AurataInstruction) {bytes : List UInt8}
    (written : ix.serialize = some bytes) :
    ∃ byte payload, byte :: payload = bytes ∧
      AurataInstructionTag.tryFrom byte = .ok ix.tag ∧ byte < 24 := by
  obtain ⟨byte, tagged, named, small⟩ := ix.tag.serialize_byte
  refine ⟨byte, ?_⟩
  cases ix with
  | log | reedeemCuratorFees | reedeemProtocolFees =>
      exact ⟨[], Option.some.inj (tagged.symm.trans written), named, small⟩
  | _ ix =>
      obtain ⟨head, payload, first, -, rfl⟩ := followedBy_some.mp written
      obtain rfl : [byte] = head := Option.some.inj (tagged.symm.trans first)
      exact ⟨payload, rfl, named, small⟩

/-- Reading takes the arm of the tag that was written, and that arm reads the payload. -/
theorem deserializeReader_serialize (ix : AurataInstruction) {bytes : List UInt8}
    (written : ix.serialize = some bytes) (rest : List UInt8) :
    deserializeReader (bytes ++ rest) = some (ix, rest) := by
  cases ix with
  | log | reedeemCuratorFees | reedeemProtocolFees =>
      rw [deserializeReader, deserialize_bind written]
      rfl
  | _ ix =>
      obtain ⟨head, tail, tag, payload, rfl⟩ := followedBy_some.mp written
      rw [deserializeReader, List.append_assoc, deserialize_bind tag]
      exact deserializeAs_serialize _ payload rest

end AurataInstruction

/-- The tags of events, in the order of their declaration. -/
inductive AurataEventTag where
  | liquidate
  | supply
  | withdraw
  | depositCollateral
  | withdrawCollateral
  | borrow
  | repay
  | redeemProtocolFees
  | redeemCuratorFees
  | depositAndBorrow
  | withdrawAndRepay
  | socializeLoss
  | donation
  | capitalSweepStarted
  | capitalSweepSettled
  | liquidatorWhitelistEntryAdded
  | liquidatorWhitelistEntryRemoved
  deriving DecidableEq

namespace AurataEventTag

def variants : List AurataEventTag :=
  [.liquidate, .supply, .withdraw, .depositCollateral, .withdrawCollateral, .borrow, .repay,
    .redeemProtocolFees, .redeemCuratorFees, .depositAndBorrow, .withdrawAndRepay,
    .socializeLoss, .donation, .capitalSweepStarted, .capitalSweepSettled,
    .liquidatorWhitelistEntryAdded, .liquidatorWhitelistEntryRemoved]

instance : Borsh AurataEventTag :=
  ofVariants variants (fun tag => by cases tag <;> decide) (by decide)

instance : Total AurataEventTag := ⟨fun _ => rfl⟩

end AurataEventTag

namespace AutaraEvent

/-- The kind of an event: the tag that it is written with. -/
def tag : AutaraEvent → AurataEventTag
  | .liquidate _ => .liquidate
  | .supply _ => .supply
  | .withdraw _ => .withdraw
  | .depositCollateral _ => .depositCollateral
  | .withdrawCollateral _ => .withdrawCollateral
  | .borrowAndDeposit _ => .depositAndBorrow
  | .withdrawAndRepay _ => .withdrawAndRepay
  | .borrow _ => .borrow
  | .repay _ => .repay
  | .reedeemProtocolFees _ => .redeemProtocolFees
  | .reedeemCuratorFees _ => .redeemCuratorFees
  | .socializeLoss _ => .socializeLoss
  | .donateSupply _ => .donation
  | .capitalSweepStarted _ => .capitalSweepStarted
  | .capitalSweepSettled _ => .capitalSweepSettled
  | .liquidatorWhitelistEntryAdded _ => .liquidatorWhitelistEntryAdded
  | .liquidatorWhitelistEntryRemoved _ => .liquidatorWhitelistEntryRemoved

def serialize : AutaraEvent → Option (List UInt8)
  | .liquidate event => variant AurataEventTag.liquidate event
  | .supply event => variant AurataEventTag.supply event
  | .withdraw event => variant AurataEventTag.withdraw event
  | .depositCollateral event => variant AurataEventTag.depositCollateral event
  | .withdrawCollateral event => variant AurataEventTag.withdrawCollateral event
  | .borrow event => variant AurataEventTag.borrow event
  | .repay event => variant AurataEventTag.repay event
  | .reedeemProtocolFees event => variant AurataEventTag.redeemProtocolFees event
  | .reedeemCuratorFees event => variant AurataEventTag.redeemCuratorFees event
  | .borrowAndDeposit event => variant AurataEventTag.depositAndBorrow event
  | .withdrawAndRepay event => variant AurataEventTag.withdrawAndRepay event
  | .socializeLoss event => variant AurataEventTag.socializeLoss event
  | .donateSupply event => variant AurataEventTag.donation event
  | .capitalSweepStarted event => variant AurataEventTag.capitalSweepStarted event
  | .capitalSweepSettled event => variant AurataEventTag.capitalSweepSettled event
  | .liquidatorWhitelistEntryAdded event =>
    variant AurataEventTag.liquidatorWhitelistEntryAdded event
  | .liquidatorWhitelistEntryRemoved event =>
    variant AurataEventTag.liquidatorWhitelistEntryRemoved event

def deserializeReader (reader : List UInt8) : Option (AutaraEvent × List UInt8) := do
  let ((tag : AurataEventTag), reader) ← deserialize reader
  match tag with
  | .liquidate => deserializeAs .liquidate reader
  | .supply => deserializeAs .supply reader
  | .withdraw => deserializeAs .withdraw reader
  | .depositCollateral => deserializeAs .depositCollateral reader
  | .withdrawCollateral => deserializeAs .withdrawCollateral reader
  | .borrow => deserializeAs .borrow reader
  | .repay => deserializeAs .repay reader
  | .redeemProtocolFees => deserializeAs .reedeemProtocolFees reader
  | .redeemCuratorFees => deserializeAs .reedeemCuratorFees reader
  | .depositAndBorrow => deserializeAs .borrowAndDeposit reader
  | .withdrawAndRepay => deserializeAs .withdrawAndRepay reader
  | .socializeLoss => deserializeAs .socializeLoss reader
  | .donation => deserializeAs .donateSupply reader
  | .capitalSweepStarted => deserializeAs .capitalSweepStarted reader
  | .capitalSweepSettled => deserializeAs .capitalSweepSettled reader
  | .liquidatorWhitelistEntryAdded => deserializeAs .liquidatorWhitelistEntryAdded reader
  | .liquidatorWhitelistEntryRemoved => deserializeAs .liquidatorWhitelistEntryRemoved reader

theorem isSome_serialize (event : AutaraEvent) : event.serialize.isSome := by
  cases event with
  | _ event => simp only [serialize, isSome_variant, Total.isSome_serialize]

theorem deserializeReader_serialize (event : AutaraEvent) {bytes : List UInt8}
    (written : event.serialize = some bytes) (rest : List UInt8) :
    deserializeReader (bytes ++ rest) = some (event, rest) := by
  cases event with
  | _ event =>
      obtain ⟨head, tail, tag, payload, rfl⟩ := followedBy_some.mp written
      rw [deserializeReader, List.append_assoc, deserialize_bind tag]
      exact deserializeAs_serialize _ payload rest

/-- An event is read from the data of a log instruction only; what follows it is not looked at. -/
def fromBytes (bytes : List UInt8) : Option AutaraEvent := do
  let ((tag : AurataInstructionTag), cursor) ← deserialize bytes
  if tag ≠ .log then none
  else (deserializeReader cursor).map Prod.fst

end AutaraEvent

/-- The instruction that carries an event to the program itself, signed by the market. -/
def logIx (autaraProgramId market : Pubkey) (event : AutaraEvent) : Option Instruction := do
  let data ← followedBy AurataInstruction.log.serialize event.serialize
  pure
    { programId := autaraProgramId
      accounts := [{ key := market, isSigner := true, isWritable := false }]
      data }

theorem fromBytes_logIx (autaraProgramId market : Pubkey) (event : AutaraEvent) :
    ∃ ix, logIx autaraProgramId market event = some ix ∧
      AutaraEvent.fromBytes ix.data = some event := by
  obtain ⟨bytes, written⟩ := Option.isSome_iff_exists.mp event.isSome_serialize
  refine ⟨_, by rw [logIx, written]; rfl, ?_⟩
  have reading := event.deserializeReader_serialize written []
  rw [List.append_nil] at reading
  change (AutaraEvent.deserializeReader bytes).map Prod.fst = some event
  rw [reading]
  rfl

theorem isIdlInstruction_small {byte : UInt8} (small : byte < 24) (payload : List UInt8) :
    Idl.isIdlInstruction (byte :: payload) = false := by
  have other : (0x40 : UInt8) ≠ byte := by
    rintro rfl
    exact absurd small (by decide)
  rw [Idl.isIdlInstruction, Idl.idlIxTagLe, List.isPrefixOf, beq_false_of_ne other]
  rfl

def callbackLiquidation : AurataInstruction :=
  .liquidate
    { maxBorrowedAtomsToRepay := 600
      minCollateralAtomsToReceive := 630
      ixCallback := some
        { programId := Vector.replicate 32 7
          accounts := [{ key := Vector.replicate 32 8, isSigner := true, isWritable := false }]
          data := [1, 2, 3] } }

def donation : AutaraEvent :=
  .donateSupply
    { market := Vector.replicate 32 1
      donor := Vector.replicate 32 2
      mint := Vector.replicate 32 3
      amount := 500 }

end AutaraLending
