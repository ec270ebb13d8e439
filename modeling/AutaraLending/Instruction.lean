import AutaraLending.Market

/-! The instructions of the lending program and the data they carry. -/

namespace AutaraLending

/-- An account as it is passed to an instruction. -/
structure AccountInfo where
  key : Pubkey
  isSigner : Bool
  isWritable : Bool
  deriving DecidableEq

/-- An instruction of any program, as a callback names it. -/
structure Instruction where
  programId : Pubkey
  accounts : List AccountInfo
  data : List UInt8
  deriving DecidableEq

structure CreateMarketInstruction where
  marketBump : UInt8
  index : UInt8
  ltvConfig : LtvConfig
  maxUtilisationRate : IFixedPoint
  supplyOracleConfig : OracleConfig
  collateralOracleConfig : OracleConfig
  interestRate : InterestRateCurveKind
  lendingMarketFeeInBps : UInt16
  deriving DecidableEq

structure UpdateConfigInstruction where
  supplyOracleConfig : Option OracleConfig
  collateralOracleConfig : Option OracleConfig
  ltvConfig : Option LtvConfig
  maxSupplyAtoms : Option U64
  maxUtilisationRate : Option IFixedPoint
  lendingMarketFeeInBps : Option UInt16
  deriving DecidableEq

structure CreateSupplyPositionInstruction where
  bump : UInt8
  deriving DecidableEq

structure SupplyAplInstruction where
  amount : U64
  deriving DecidableEq

structure WithdrawSupplyInstruction where
  amount : U64
  withdrawAll : Bool
  deriving DecidableEq

structure DonateSupplyInstruction where
  amount : U64
  deriving DecidableEq

structure CreateBorrowPositionInstruction where
  bump : UInt8
  deriving DecidableEq

structure BorrowAplInstruction where
  amount : U64
  deriving DecidableEq

structure DepositAplCollateralInstruction where
  amount : U64
  deriving DecidableEq

structure WithdrawAplCollateralInstruction where
  amount : U64
  withdrawAll : Bool
  deriving DecidableEq

structure RepayAplInstruction where
  amount : U64
  repayAll : Bool
  deriving DecidableEq

structure BorrowDepositAplInstruction where
  depositAmount : U64
  borrowAmount : U64
  ixCallback : Option Instruction
  deriving DecidableEq

structure WithdrawRepayAplInstruction where
  repayAmount : U64
  withdrawAmount : U64
  repayAll : Bool
  withdrawAll : Bool
  ixCallback : Option Instruction
  deriving DecidableEq

structure LiquidateInstruction where
  maxBorrowedAtomsToRepay : U64
  minCollateralAtomsToReceive : U64
  ixCallback : Option Instruction
  deriving DecidableEq

structure SocializeLossInstruction where
  deriving DecidableEq

structure BeginCapitalSweepInstruction where
  deriving DecidableEq

structure SettleCapitalSweepInstruction where
  maxBorrowedAtomsToRepay : U64
  maxCollateralAtomsToReturn : U64
  deriving DecidableEq

structure CreateGlobalConfigInstruction where
  bump : UInt8
  admin : Pubkey
  feeReceiver : Pubkey
  protocolFeeShareInBps : UInt16
  deriving DecidableEq

structure UpdateGlobalConfigInstruction where
  acceptNomination : Bool
  nominatedAdmin : Option Pubkey
  feeReceiver : Option Pubkey
  protocolFeeShareInBps : Option UInt16
  deriving DecidableEq

structure AddWhitelistedLiquidatorInstruction where
  liquidator : Pubkey
  bump : UInt8
  deriving DecidableEq

structure RemoveWhitelistedLiquidatorInstruction where
  liquidator : Pubkey
  deriving DecidableEq

inductive AurataInstruction where
  | createMarket (ix : CreateMarketInstruction)
  | createSupplyPosition (ix : CreateSupplyPositionInstruction)
  | supplyApl (ix : SupplyAplInstruction)
  | withdrawSupply (ix : WithdrawSupplyInstruction)
  | createBorrowPosition (ix : CreateBorrowPositionInstruction)
  | borrowApl (ix : BorrowAplInstruction)
  | depositAplCollateral (ix : DepositAplCollateralInstruction)
  | withdrawAplCollateral (ix : WithdrawAplCollateralInstruction)
  | repayApl (ix : RepayAplInstruction)
  | updateConfig (ix : UpdateConfigInstruction)
  | liquidate (ix : LiquidateInstruction)
  | log
  | createGlobalConfig (ix : CreateGlobalConfigInstruction)
  | reedeemCuratorFees
  | reedeemProtocolFees
  | updateGlobalConfig (ix : UpdateGlobalConfigInstruction)
  | borrowDepositApl (ix : BorrowDepositAplInstruction)
  | withdrawRepayApl (ix : WithdrawRepayAplInstruction)
  | socializeLoss (ix : SocializeLossInstruction)
  | donateSupply (ix : DonateSupplyInstruction)
  | beginCapitalSweep (ix : BeginCapitalSweepInstruction)
  | settleCapitalSweep (ix : SettleCapitalSweepInstruction)
  | addWhitelistedLiquidator (ix : AddWhitelistedLiquidatorInstruction)
  | removeWhitelistedLiquidator (ix : RemoveWhitelistedLiquidatorInstruction)
  deriving DecidableEq

end AutaraLending
