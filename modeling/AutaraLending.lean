import AutaraLending.Support.Method
import AutaraLending.Support.FixedPoint
import AutaraLending.Support.Machine
import AutaraLending.Support.LastOperation
import AutaraLending.Support.ExpTaylor
import AutaraLending.Error
import AutaraLending.SafeMath
import AutaraLending.SharesTracker
import AutaraLending.RoundingProfit
import AutaraLending.ShareDonation
import AutaraLending.Exponential
import AutaraLending.ExponentialBounds
import AutaraLending.ExponentialAccuracy
import AutaraLending.InterestRateCurve
import AutaraLending.CurveSafety
import AutaraLending.PolylineLaws
import AutaraLending.AdaptiveCurveLaws
import AutaraLending.Support.Pod
import AutaraLending.PayloadFormats
import AutaraLending.PodInterestRate
import AutaraLending.Oracle
import AutaraLending.OracleValidation
import AutaraLending.Liquidation
import AutaraLending.Position
import AutaraLending.MarketConfig
import AutaraLending.RiskParameters
import AutaraLending.Vault
import AutaraLending.Market
import AutaraLending.Event
import AutaraLending.Instruction
import AutaraLending.Ledger
import AutaraLending.LimitChecks
import AutaraLending.Effect
import AutaraLending.LiquidationBounds
import AutaraLending.LiquidationStages
import AutaraLending.Conservation
import AutaraLending.PositionSafety
import AutaraLending.PositionLaws
import AutaraLending.BadDebt
import AutaraLending.LiquidationHealth
import AutaraLending.SweepRefinement
import AutaraLending.DebtMonotonicity
import AutaraLending.LiquidationOutcome
import AutaraLending.FullLiquidation
import AutaraLending.Valuation
import AutaraLending.SyncBound
import AutaraLending.CappedRepayment
import AutaraLending.Solvency
import AutaraLending.SupplyPrice
import AutaraLending.Utilisation
import AutaraLending.Support.Bytes
import AutaraLending.Support.LittleEndian
import AutaraLending.Account
import AutaraLending.Idl
import AutaraLending.IdlForgery
import AutaraLending.IdlHistory
import AutaraLending.IdlPublishing
import AutaraLending.ProgramUpgrade
import AutaraLending.UpgradeLoop
import AutaraLending.UpgradeAttempts
import AutaraLending.PriceFeed
import AutaraLending.OracleLoading
import AutaraLending.PriceDelivery
import AutaraLending.Program
import AutaraLending.Administration
import AutaraLending.AdministrationStep
import AutaraLending.AdminHandover
import AutaraLending.FeeShares
import AutaraLending.LendingAccounts
import AutaraLending.LiquidatorWhitelist
import AutaraLending.Wire
import AutaraLending.Transactions
import AutaraLending.EventFidelity
import AutaraLending.Exit
import AutaraLending.Support.Framing
import AutaraLending.LedgerFrame
import AutaraLending.SignedAccounts
import AutaraLending.TransactionStep
import AutaraLending.InstructionSteps
import AutaraLending.InstructionPaths
import AutaraLending.AdministrationPaths
import AutaraLending.Evolution
import AutaraLending.MarketHistory
import AutaraLending.MarketView
import AutaraLending.MarketRefinement
import AutaraLending.Support.Backing
import AutaraLending.Custody
import AutaraLending.UpgradeAttempts
