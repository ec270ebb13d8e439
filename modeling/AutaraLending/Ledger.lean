import AutaraLending.Market
import AutaraLending.Support.Machine

/-! A market together with all of its positions, and the operations that users, the curator
and the protocol run against it in any order. -/

namespace AutaraLending

open Support

inductive SupplyAction where
  | lend (atoms : U64)
  | withdraw (atoms : U64)
  | withdrawAll
  deriving DecidableEq

inductive BorrowAction where
  | depositCollateral (atoms : U64)
  | withdrawCollateral (atoms : U64) (collateralOracle supplyOracle : OracleRate)
  | borrow (borrowAtoms : U64) (supplyOracle collateralOracle : OracleRate)
  | repay (atoms : U64)
  | repayAll
  | liquidate (collateralOracle supplyOracle : OracleRate) (maxRepayAtoms : U64)
  | beginCapitalSweep (collateralOracle supplyOracle : OracleRate)
  | settleCapitalSweep (collateralOracle supplyOracle : OracleRate)
      (maxRepayAtoms maxCollateralAtomsToReturn : U64)
  | socializeLoss (collateralOracle supplyOracle : OracleRate)
  deriving DecidableEq

inductive MarketAction where
  | donateSupplyAtoms (atoms : U64)
  | syncClock (unixTimestamp : Int64)
  | redeemProtocolFees
  | redeemCuratorFess
  | updateLtv (ltvConfig : LtvConfig)
  | updateMaxUtilisationRate (rate : IFixedPoint)
  | updateMaxSupplyAtoms (maxSupplyAtoms : U64)
  | setLendingMarketFee (lendingMarketFeeInBps : UInt16)
  | syncGlobalConfig (globalConfig : GlobalConfig)
  | setSupplyOracleConfig (oracleConfig : OracleConfig)
  | setCollateralOracleConfig (oracleConfig : OracleConfig)
  deriving DecidableEq

def SupplyAction.execute : SupplyAction → LendingMethod (MarketWith SupplyPosition) Int
  | .lend atoms => do
      MarketWith.lend atoms
      pure atoms.toNat
  | .withdraw atoms => do
      MarketWith.withdraw atoms
      pure (-atoms.toNat)
  | .withdrawAll => do
      let atoms ← MarketWith.withdrawAll
      pure (-atoms.toNat)

def BorrowAction.execute : BorrowAction → LendingMethod (MarketWith BorrowPosition) Int
  | .depositCollateral atoms => do
      MarketWith.depositCollateral atoms
      pure 0
  | .withdrawCollateral atoms collateralOracle supplyOracle => do
      MarketWith.withdrawCollateral atoms collateralOracle supplyOracle
      pure 0
  | .borrow borrowAtoms supplyOracle collateralOracle => do
      MarketWith.borrow borrowAtoms supplyOracle collateralOracle
      pure (-borrowAtoms.toNat)
  | .repay atoms => do
      MarketWith.repay atoms
      pure atoms.toNat
  | .repayAll => do
      let atoms ← MarketWith.repayAll
      pure atoms.toNat
  | .liquidate collateralOracle supplyOracle maxRepayAtoms => do
      let result ← MarketWith.liquidate collateralOracle supplyOracle maxRepayAtoms
      pure result.liquidationResultWithBonus.borrowedAtomsToRepay.toNat
  | .beginCapitalSweep collateralOracle supplyOracle => do
      let _ ← MarketWith.beginCapitalSweep collateralOracle supplyOracle
      pure 0
  | .settleCapitalSweep collateralOracle supplyOracle maxRepayAtoms maxCollateralAtomsToReturn => do
      let result ← MarketWith.settleCapitalSweep collateralOracle supplyOracle maxRepayAtoms
        maxCollateralAtomsToReturn
      pure result.liquidationResultWithBonus.borrowedAtomsToRepay.toNat
  | .socializeLoss collateralOracle supplyOracle => do
      let _ ← MarketWith.socializeLoss collateralOracle supplyOracle
      pure 0

/-- A call that moves no tokens. -/
def withoutTransfer {σ : Type} (m : LendingMethod σ Unit) : LendingMethod σ Int := do
  m
  pure 0

def MarketAction.execute : MarketAction → LendingMethod Market Int
  | .donateSupplyAtoms atoms => do
      Market.donateSupplyAtoms atoms
      pure atoms.toNat
  | .syncClock unixTimestamp => withoutTransfer (Market.syncClock unixTimestamp)
  | .redeemProtocolFees => do
      let atoms ← Market.redeemProtocolFees
      pure (-atoms.toNat)
  | .redeemCuratorFess => do
      let atoms ← Market.redeemCuratorFess
      pure (-atoms.toNat)
  | .updateLtv ltvConfig => withoutTransfer (Market.onConfig (MarketConfig.updateLtv ltvConfig))
  | .updateMaxUtilisationRate rate =>
      withoutTransfer (Market.onConfig (MarketConfig.updateMaxUtilisationRate rate))
  | .updateMaxSupplyAtoms maxSupplyAtoms =>
      withoutTransfer (Market.onConfig (MarketConfig.updateMaxSupplyAtoms maxSupplyAtoms))
  | .setLendingMarketFee lendingMarketFeeInBps =>
      withoutTransfer (Market.onConfig (MarketConfig.setLendingMarketFee lendingMarketFeeInBps))
  | .syncGlobalConfig globalConfig =>
      withoutTransfer (Market.onConfig (MarketConfig.syncGlobalConfig globalConfig))
  | .setSupplyOracleConfig oracleConfig =>
      withoutTransfer (Market.setSupplyOracleConfig oracleConfig)
  | .setCollateralOracleConfig oracleConfig =>
      withoutTransfer (Market.setCollateralOracleConfig oracleConfig)

/-- An operation on the position under a key, or on the market alone. -/
inductive Operation (σ β : Type) where
  | supply (key : σ) (action : SupplyAction)
  | borrow (key : β) (action : BorrowAction)
  | market (action : MarketAction)
  deriving DecidableEq

/-- The market and its positions, with a count of the supply atoms that have been moved in
less those moved out. -/
structure Ledger (σ β : Type) where
  market : Market
  supplyPositions : σ → SupplyPosition
  borrowPositions : β → BorrowPosition
  cash : Int

namespace Ledger

variable {σ β : Type}

def supplyView (key : σ) (l : Ledger σ β) : MarketWith SupplyPosition :=
  ⟨l.market, l.supplyPositions key⟩

def borrowView (key : β) (l : Ledger σ β) : MarketWith BorrowPosition :=
  ⟨l.market, l.borrowPositions key⟩

def storeSupply [DecidableEq σ] (key : σ) (s : MarketWith SupplyPosition) (l : Ledger σ β) :
    Ledger σ β :=
  { l with
    market := s.market
    supplyPositions := Function.update l.supplyPositions key s.position }

def storeBorrow [DecidableEq β] (key : β) (s : MarketWith BorrowPosition) (l : Ledger σ β) :
    Ledger σ β :=
  { l with
    market := s.market
    borrowPositions := Function.update l.borrowPositions key s.position }

def receive (atoms : Int) (l : Ledger σ β) : Ledger σ β := { l with cash := l.cash + atoms }

def counting (m : LendingMethod (Ledger σ β) Int) : LendingMethod (Ledger σ β) Unit := do
  let atoms ← m
  let self ← Method.self
  Method.assign (self.receive atoms)

theorem counting_succeeds (m : LendingMethod (Ledger σ β) Int) (l l' : Ledger σ β) (u : Unit) :
    (counting m).Succeeds l u l' ↔
      ∃ atoms moved, m.Succeeds l atoms moved ∧ l' = moved.receive atoms := by
  simp only [counting, Method.succeeds_bind, Method.succeeds_self, Method.succeeds_assign]
  constructor
  · rintro ⟨atoms, moved, success, _, _, ⟨rfl, rfl⟩, rfl⟩
    exact ⟨atoms, _, success, rfl⟩
  · rintro ⟨atoms, moved, success, rfl⟩
    exact ⟨atoms, moved, success, moved, moved, ⟨rfl, rfl⟩, rfl⟩

/-- The ledger of a market as it is created, with positions that hold nothing. -/
structure Opened (data : Market.CreateMarket) (l : Ledger σ β) : Prop where
  created : ∃ unixTimestamp, (Market.processCreateMarket data unixTimestamp).Succeeds Market.zeroed
    () l.market
  supply : ∀ key, ∃ authority market, l.supplyPositions key = .new authority market
  borrow : ∀ key, ∃ authority market, l.borrowPositions key = .initializePosition authority market
  cash : l.cash = 0

theorem Opened.fresh {data : Market.CreateMarket} {l : Ledger σ β} (opened : Opened data l) :
    l.market.Fresh ∧ l.market.supplyVault.interestRateCurve = data.interestRate := by
  obtain ⟨unixTimestamp, created⟩ := opened.created
  exact Market.processCreateMarket_fresh _ _ _ _ created

variable [DecidableEq σ] [DecidableEq β]

def execute : Operation σ β → LendingMethod (Ledger σ β) Unit
  | .supply key action =>
      counting (Method.zoom (supplyView key) (storeSupply key) action.execute)
  | .borrow key action =>
      counting (Method.zoom (borrowView key) (storeBorrow key) action.execute)
  | .market action =>
      counting (Method.zoom Ledger.market (fun market l => { l with market }) action.execute)

def run (l : Ledger σ β) (operations : List (Operation σ β)) : Ledger σ β :=
  Machine.run execute l operations

def Reachable (l : Ledger σ β) : Prop :=
  ∃ data start operations, Opened data start ∧ l = start.run operations

/-- What an opened ledger satisfies and every successful operation preserves holds in every
reachable ledger. -/
theorem Reachable.induction {invariant : Ledger σ β → Prop} {l : Ledger σ β}
    (reachable : l.Reachable) (initial : ∀ data start, Opened data start → invariant start)
    (step : ∀ l operation l', invariant l → (execute operation).Succeeds l () l' → invariant l') :
    invariant l := by
  obtain ⟨data, start, operations, opened, rfl⟩ := reachable
  exact Machine.run_invariant operations (initial data start opened)
    (fun s operation _ t holds success => step s operation t holds success)

theorem execute_supply_succeeds (key : σ) (action : SupplyAction) (l l' : Ledger σ β) (u : Unit) :
    (execute (.supply key action)).Succeeds l u l' ↔
      ∃ atoms s, action.execute.Succeeds (l.supplyView key) atoms s ∧
        l' = (l.storeSupply key s).receive atoms := by
  simp only [execute, counting_succeeds, Method.succeeds_zoom]
  constructor
  · rintro ⟨atoms, _, ⟨s, success, rfl⟩, rfl⟩
    exact ⟨atoms, s, success, rfl⟩
  · rintro ⟨atoms, s, success, rfl⟩
    exact ⟨atoms, _, ⟨s, success, rfl⟩, rfl⟩

theorem execute_borrow_succeeds (key : β) (action : BorrowAction) (l l' : Ledger σ β) (u : Unit) :
    (execute (.borrow key action)).Succeeds l u l' ↔
      ∃ atoms s, action.execute.Succeeds (l.borrowView key) atoms s ∧
        l' = (l.storeBorrow key s).receive atoms := by
  simp only [execute, counting_succeeds, Method.succeeds_zoom]
  constructor
  · rintro ⟨atoms, _, ⟨s, success, rfl⟩, rfl⟩
    exact ⟨atoms, s, success, rfl⟩
  · rintro ⟨atoms, s, success, rfl⟩
    exact ⟨atoms, _, ⟨s, success, rfl⟩, rfl⟩

theorem execute_market_succeeds (action : MarketAction) (l l' : Ledger σ β) (u : Unit) :
    (execute (.market action)).Succeeds l u l' ↔
      ∃ atoms market, action.execute.Succeeds l.market atoms market ∧
        l' = { l with market, cash := l.cash + atoms } := by
  simp only [execute, counting_succeeds, Method.succeeds_zoom]
  constructor
  · rintro ⟨atoms, _, ⟨market, success, rfl⟩, rfl⟩
    exact ⟨atoms, market, success, rfl⟩
  · rintro ⟨atoms, market, success, rfl⟩
    exact ⟨atoms, _, ⟨market, success, rfl⟩, rfl⟩

theorem execute_borrow_fails (key : β) (action : BorrowAction) (l : Ledger σ β) (failure : Failure)
    (fails : action.execute (l.borrowView key) = (.error failure, l.borrowView key)) :
    execute (.borrow key action) l = (.error failure, l) := by
  have stored : l.storeBorrow key (l.borrowView key) = l := by
    simp [storeBorrow, borrowView]
  simp [execute, counting, Method.zoom, bind, fails, stored]

end Ledger

/-! A small market with whole-atom mints and one position of each kind, for concrete runs. -/

def OracleRate.exact (rate : IFixedPoint) (positive : 0 < rate.bits) : OracleRate :=
  ⟨rate, Fixed.zero, by simp, by simpa using positive⟩

def OracleRate.par : OracleRate := .exact Fixed.one (by decide)

def smallMarket (curve : InterestRateCurveKind) : Market.CreateMarket where
  marketBump := 255
  index := 0
  curator := Vector.replicate 32 1
  ltvConfig := ⟨.lit 7 1, .lit 8 1, .lit 5 2⟩
  maxUtilisationRate := .lit 9 1
  lendingMarketFeeInBps := 100
  globalConfig := ⟨Vector.replicate 32 2, Vector.replicate 32 0, Vector.replicate 32 3, 2000⟩
  supplyMint := Vector.replicate 32 4
  supplyMintDecimals := 0
  supplyVault := Vector.replicate 32 5
  supplyOracleConfig := .zeroed
  interestRate := curve
  collateralMint := Vector.replicate 32 6
  collateralMintDecimals := 0
  collateralVault := Vector.replicate 32 7
  collateralOracleConfig := .zeroed

def smallLedger (curve : InterestRateCurveKind) : Ledger Unit Unit where
  market := (Market.processCreateMarket (smallMarket curve) 0 Market.zeroed).2
  supplyPositions := fun _ => .new (Vector.replicate 32 8) (Vector.replicate 32 9)
  borrowPositions := fun _ => .initializePosition (Vector.replicate 32 10) (Vector.replicate 32 9)
  cash := 0

theorem smallLedger_opened (curve : InterestRateCurveKind)
    (created :
      (Market.processCreateMarket (smallMarket curve) 0 Market.zeroed).1 = .ok ()) :
    Ledger.Opened (smallMarket curve) (smallLedger curve) := by
  refine ⟨⟨0, ?_⟩, fun _ => ⟨_, _, rfl⟩, fun _ => ⟨_, _, rfl⟩, rfl⟩
  exact Prod.ext created rfl

theorem smallLedger_adaptive_opened :
    Ledger.Opened (smallMarket .newAdaptive) (smallLedger .newAdaptive) :=
  smallLedger_opened _ (by decide +kernel)

def smallLoan : List (Operation Unit Unit) :=
  [.supply () (.lend 1000), .borrow () (.depositCollateral 1000),
    .borrow () (.borrow 600 .par .par)]

def loweredRate : OracleRate := .exact (.lit 7 1) (by decide)

def loweredHealth : BorrowPositionHealth where
  ltv := ⟨241264265751991, by decide, by decide⟩
  borrowedAtoms := 600
  collateralAtoms := 1000
  borrowValue := ⟨168884986026393600, by decide, by decide⟩
  collateralValue := ⟨197032483697459000, by decide, by decide⟩

end AutaraLending
