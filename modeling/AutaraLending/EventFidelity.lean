import AutaraLending.Transactions

/-! What the events that instructions log tell about the instructions and the tokens they move. -/

namespace AutaraLending

open Support

inductive Direction where
  | inward
  | outward
  deriving DecidableEq

/-- Tokens that an event reports to have entered or left a vault of a market. -/
structure Flow where
  market : Pubkey
  side : VaultSide
  direction : Direction
  amount : Nat
  mint : Option Pubkey
  deriving DecidableEq

structure Transfer where
  source : Pubkey
  destination : Pubkey
  amount : U64
  deriving DecidableEq

def Transfer.vaultEnd (transfer : Transfer) : Direction → Pubkey
  | .inward => transfer.destination
  | .outward => transfer.source

def SingleMarketTransactionEvent.flow (event : SingleMarketTransactionEvent) (side : VaultSide)
    (direction : Direction) : Flow :=
  ⟨event.market, side, direction, event.amount.toNat, some event.mint⟩

/-- The flows that an event reports, in the order of the transfers. Debt that is socialised, and
collateral that an earlier sweep has taken, do not move with the event. -/
def AutaraEvent.flows : AutaraEvent → List Flow
  | .liquidate event =>
      [⟨event.market, .collateral, .outward,
        event.collateralLiquidated.toNat + event.liquidatorFee.toNat, some event.collateralMint⟩,
        ⟨event.market, .supply, .inward, event.supplyRepaid.toNat, some event.supplyMint⟩]
  | .supply event => [event.flow .supply .inward]
  | .withdraw event => [event.flow .supply .outward]
  | .depositCollateral event => [event.flow .collateral .inward]
  | .withdrawCollateral event => [event.flow .collateral .outward]
  | .borrowAndDeposit event =>
      [⟨event.market, .supply, .outward, event.amountOut.toNat, some event.mintOut⟩,
        ⟨event.market, .collateral, .inward, event.amountIn.toNat, some event.mintIn⟩]
  | .withdrawAndRepay event =>
      [⟨event.market, .collateral, .outward, event.amountOut.toNat, some event.mintOut⟩,
        ⟨event.market, .supply, .inward, event.amountIn.toNat, some event.mintIn⟩]
  | .borrow event => [event.flow .supply .outward]
  | .repay event => [event.flow .supply .inward]
  | .reedeemProtocolFees event | .reedeemCuratorFees event =>
      [⟨event.market, .supply, .outward, event.feeAmount.toNat, some event.mint⟩]
  | .socializeLoss event =>
      [⟨event.market, .collateral, .outward, event.collateralLiquidated.toNat, none⟩]
  | .donateSupply event =>
      [⟨event.market, .supply, .inward, event.amount.toNat, some event.mint⟩]
  | .capitalSweepStarted event =>
      [⟨event.market, .collateral, .outward, event.collateralSwept.toNat,
        some event.collateralMint⟩]
  | .capitalSweepSettled event =>
      [⟨event.market, .supply, .inward, event.supplyRepaid.toNat, some event.supplyMint⟩,
        ⟨event.market, .collateral, .inward, event.collateralReturned.toNat,
          some event.collateralMint⟩]
  | .liquidatorWhitelistEntryAdded _ | .liquidatorWhitelistEntryRemoved _ => []

/-! The vaults of a market and their mints are fixed. -/

namespace SupplyVault

theorem syncClock_keys (timestamp : Int64) (fee : UFixedPoint) (protocolBps : UInt16)
    (v v' : SupplyVault) (u : Unit)
    (success : (syncClock timestamp fee protocolBps).Succeeds v u v') :
    v'.mint = v.mint ∧ v'.vault = v.vault := by
  simp only [syncClock, Method.succeeds_bind, Method.succeeds_self, Method.succeeds_ite,
    Method.succeeds_lift, Method.succeeds_assign, Method.succeeds_pure, onCurve_succeeds,
    onBorrowTracker_succeeds, onSupplyTracker_succeeds, and_assoc, exists_and_left,
    exists_eq_left', exists_const] at success
  obtain ⟨-, -, -, -, _, ⟨_, -, rfl⟩, -, -, -, _, ⟨_, -, rfl⟩, -, -, -, _, ⟨_, -, rfl⟩, -, -, -, -,
    -, -, -, -, rfl⟩ | ⟨-, -, rfl⟩ := success
  · exact ⟨rfl, rfl⟩
  · exact ⟨rfl, rfl⟩

end SupplyVault

namespace Market

@[simp] theorem withSupplyTracker_vaultKeys (m : Market) (tracker : SharesTracker) :
    (m.withSupplyTracker tracker).vaultKeys = m.vaultKeys := rfl

@[simp] theorem withBorrowTracker_vaultKeys (m : Market) (tracker : SharesTracker) :
    (m.withBorrowTracker tracker).vaultKeys = m.vaultKeys := rfl

@[simp] theorem withCollateral_vaultKeys (m : Market) (total : U64) :
    (m.withCollateral total).vaultKeys = m.vaultKeys := rfl

theorem syncClock_vaultKeys (timestamp : Int64) (m m' : Market) (u : Unit)
    (success : (syncClock timestamp).Succeeds m u m') : m'.vaultKeys = m.vaultKeys := by
  simp only [syncClock, Method.succeeds_bind, Method.succeeds_self, onSupplyVault_succeeds]
    at success
  obtain ⟨_, _, ⟨rfl, rfl⟩, v, synced, rfl⟩ := success
  obtain ⟨mint_eq, vault_eq⟩ := SupplyVault.syncClock_keys _ _ _ _ _ _ synced
  funext side
  cases side with
  | supply => simp only [vaultKeys, mint_eq, vault_eq]
  | collateral => rfl

end Market

namespace MarketWith

theorem wrapperMut_vaultKeys {π : Type} (ctx : Context)
    (supplyOracle collateralOracle : AccountInfo)
    (s s' : MarketWith π) (oracles : OracleRate × OracleRate)
    (success : (wrapperMut ctx supplyOracle collateralOracle).Succeeds s oracles s') :
    s'.market.vaultKeys = s.market.vaultKeys := by
  simp only [wrapperMut, Method.succeeds_bind, Method.succeeds_self, Method.succeeds_lift,
    onMarket_succeeds, Method.succeeds_pure] at success
  obtain ⟨_, _, ⟨rfl, rfl⟩, _, _, ⟨-, rfl⟩, _, _, ⟨m, synced, rfl⟩, -, rfl⟩ := success
  exact Market.syncClock_vaultKeys _ _ _ _ synced

theorem lend_vaultKeys (atoms : U64) (s s' : MarketWith SupplyPosition) (u : Unit)
    (success : (lend atoms).Succeeds s u s') : s'.market.vaultKeys = s.market.vaultKeys := by
  obtain ⟨_, tracker, -, market_eq, -⟩ := lend_succeeds _ _ _ _ success
  rw [market_eq, Market.withSupplyTracker_vaultKeys]

theorem withdrawRequested_vaultKeys (data : WithdrawSupplyInstruction)
    (s s' : MarketWith SupplyPosition) (amount : U64)
    (success : (withdrawRequested data).Succeeds s amount s') :
    s'.market.vaultKeys = s.market.vaultKeys := by
  rcases (Method.succeeds_ite _ _ _ _ _ _).mp success with ⟨-, all⟩ | ⟨-, some⟩
  · obtain ⟨tracker, -, market_eq, -⟩ := withdrawAll_succeeds _ _ _ all
    rw [market_eq, Market.withSupplyTracker_vaultKeys]
  · obtain ⟨_, withdrawn, -⟩ := (Method.succeeds_bind_pure _ _ _ _ _).mp some
    obtain ⟨_, tracker, -, market_eq, -⟩ := withdraw_succeeds _ _ _ _ withdrawn
    rw [market_eq, Market.withSupplyTracker_vaultKeys]

theorem borrow_vaultKeys (atoms : U64) (supplyOracle collateralOracle : OracleRate)
    (s s' : MarketWith BorrowPosition) (u : Unit)
    (success : (borrow atoms supplyOracle collateralOracle).Succeeds s u s') :
    s'.market.vaultKeys = s.market.vaultKeys := by
  obtain ⟨-, _, tracker, _, _, -, market_eq, -⟩ := borrow_succeeds _ _ _ _ _ _ success
  rw [market_eq, Market.withBorrowTracker_vaultKeys]

theorem repayRequested_vaultKeys (all : Bool) (amount paid : U64)
    (s s' : MarketWith BorrowPosition)
    (success : (repayRequested all amount).Succeeds s paid s') :
    s'.market.vaultKeys = s.market.vaultKeys := by
  rcases (Method.succeeds_ite _ _ _ _ _ _).mp success with ⟨-, all⟩ | ⟨-, some⟩
  · obtain ⟨-, tracker, -, -, market_eq, -⟩ := repayAll_succeeds _ _ _ all
    rw [market_eq, Market.withBorrowTracker_vaultKeys]
  · obtain ⟨_, repaid, -⟩ := (Method.succeeds_bind_pure _ _ _ _ _).mp some
    obtain ⟨-, _, tracker, -, -, market_eq, -⟩ := repay_succeeds _ _ _ _ repaid
    rw [market_eq, Market.withBorrowTracker_vaultKeys]

theorem depositCollateral_vaultKeys (atoms : U64) (s s' : MarketWith BorrowPosition) (u : Unit)
    (success : (depositCollateral atoms).Succeeds s u s') :
    s'.market.vaultKeys = s.market.vaultKeys := by
  obtain ⟨-, _, total, -, -, rfl⟩ := (depositCollateral_succeeds _ _ _ _).mp success
  exact Market.withCollateral_vaultKeys _ _

theorem withdrawCollateralRequested_vaultKeys (oracles : OracleRate × OracleRate) (all : Bool)
    (amount atoms : U64) (s s' : MarketWith BorrowPosition)
    (success : (withdrawCollateralRequested oracles all amount).Succeeds s atoms s') :
    s'.market.vaultKeys = s.market.vaultKeys := by
  simp only [withdrawCollateralRequested, Method.succeeds_bind, Method.succeeds_self,
    Method.succeeds_pure] at success
  obtain ⟨_, _, ⟨rfl, rfl⟩, _, _, withdrawn, -, rfl⟩ := success
  obtain ⟨-, _, total, _, -, -, rfl, -⟩ := withdrawCollateral_succeeds _ _ _ _ _ _ withdrawn
  exact Market.withCollateral_vaultKeys _ _

theorem liquidate_vaultKeys (collateralOracle supplyOracle : OracleRate) (maxRepayAtoms : U64)
    (s s' : MarketWith BorrowPosition) (result : LiquidationResultWithCtx)
    (success : (liquidate collateralOracle supplyOracle maxRepayAtoms).Succeeds s result s') :
    s'.market.vaultKeys = s.market.vaultKeys := by
  obtain ⟨liquidated⟩ := (liquidate_succeeds _ _ _ _ _ _).mp success
  rw [liquidated.final, Market.withCollateral_vaultKeys, Market.withBorrowTracker_vaultKeys]

theorem beginCapitalSweep_vaultKeys (collateralOracle supplyOracle : OracleRate)
    (s s' : MarketWith BorrowPosition) (health : BorrowPositionHealth)
    (success : (beginCapitalSweep collateralOracle supplyOracle).Succeeds s health s') :
    s'.market.vaultKeys = s.market.vaultKeys := by
  obtain ⟨-, -, -, -, total, -, rfl⟩ := (beginCapitalSweep_succeeds _ _ _ _ _).mp success
  exact Market.withCollateral_vaultKeys _ _

theorem settleCapitalSweep_vaultKeys (collateralOracle supplyOracle : OracleRate)
    (maxRepayAtoms maxCollateralAtomsToReturn : U64) (s s' : MarketWith BorrowPosition)
    (result : CapitalSweepSettlementResult)
    (success : (settleCapitalSweep collateralOracle supplyOracle maxRepayAtoms
      maxCollateralAtomsToReturn).Succeeds s result s') :
    s'.market.vaultKeys = s.market.vaultKeys := by
  obtain ⟨settlement⟩ := (settleCapitalSweep_succeeds _ _ _ _ _ _ _).mp success
  rw [settlement.final, Market.withCollateral_vaultKeys, Market.withBorrowTracker_vaultKeys]

theorem singleEvent_succeeds {π : Type} (oracles : OracleRate × OracleRate)
    (accounts : PositionAccounts) (side : VaultSide) (atoms : U64) (s s' : MarketWith π)
    (event : SingleMarketTransactionEvent × List (List UInt8))
    (success : (singleEvent oracles accounts side atoms).Succeeds s event s') :
    event.1.market = accounts.market.key ∧ event.1.amount = atoms ∧
      event.1.mint = (s.market.vaultKeys side).mint := by
  simp only [singleEvent, Method.succeeds_bind, Method.succeeds_self, Method.succeeds_lift,
    Method.succeeds_pure] at success
  obtain ⟨_, _, ⟨rfl, rfl⟩, _, _, ⟨computed, -⟩, rfl, -⟩ := success
  exact Market.getSingleMarketTransactionEvent_ok _ _ _ _ _ _ _ _ _ computed

theorem doubleEvent_succeeds {π : Type} (oracles : OracleRate × OracleRate)
    (accounts : DoublePositionAccounts) (sideIn sideOut : VaultSide) (amountIn amountOut : U64)
    (s s' : MarketWith π) (event : DoubleMarketTransactionEvent × List (List UInt8))
    (success : (doubleEvent oracles accounts sideIn amountIn sideOut amountOut).Succeeds s event
      s') :
    event.1.market = accounts.market.key ∧ event.1.amountIn = amountIn ∧
      event.1.amountOut = amountOut ∧ event.1.mintIn = (s.market.vaultKeys sideIn).mint ∧
      event.1.mintOut = (s.market.vaultKeys sideOut).mint := by
  simp only [doubleEvent, Method.succeeds_bind, Method.succeeds_self, Method.succeeds_lift,
    Method.succeeds_pure] at success
  obtain ⟨_, _, ⟨rfl, rfl⟩, _, _, ⟨computed, -⟩, rfl, -⟩ := success
  exact Market.getDoubleMarketTransactionEvent_ok _ _ _ _ _ _ _ _ _ _ _ computed

end MarketWith

namespace Invocation

def logged : Invocation → Option AutaraEvent
  | .log _ event _ => some event
  | _ => none

def transferred : Invocation → Option Transfer
  | .transfer source destination _ amount _ => some ⟨source, destination, amount⟩
  | _ => none

end Invocation

namespace Transactions

/-- A transfer is the reported one: it moves the amount, from or to the vault of the market, and
the event names the mint of that vault. -/
structure Realises (chain : Chain) (flow : Flow) (transfer : Transfer) : Prop where
  amount : flow.amount = transfer.amount.toNat
  vault : ∃ m, chain flow.market = Slot.of (T := Market) m ∧
    transfer.vaultEnd flow.direction = (m.vaultKeys flow.side).vault ∧
    ∀ mint, flow.mint = some mint → mint = (m.vaultKeys flow.side).mint

/-- The kind of the event that an instruction logs, as the processors have it. -/
def eventKind : AurataInstructionTag → Option AurataEventTag
  | .supplyApl => some .supply
  | .withdrawSupply => some .withdraw
  | .depositAplCollateral => some .depositCollateral
  | .withdrawAplCollateral => some .withdrawCollateral
  | .borrowApl => some .borrow
  | .repayApl => some .repay
  | .borrowDepositApl => some .depositAndBorrow
  | .withdrawRepayApl => some .withdrawAndRepay
  | .liquidate => some .liquidate
  | .socializeLoss => some .socializeLoss
  | .donateSupply => some .donation
  | .beginCapitalSweep => some .capitalSweepStarted
  | .settleCapitalSweep => some .capitalSweepSettled
  | .reedeemCuratorFees => some .redeemCuratorFees
  | .reedeemProtocolFees => some .redeemCuratorFees
  | .addWhitelistedLiquidator => some .liquidatorWhitelistEntryAdded
  | .removeWhitelistedLiquidator => some .liquidatorWhitelistEntryRemoved
  | .createMarket | .createSupplyPosition | .createBorrowPosition | .updateConfig | .log
  | .createGlobalConfig | .updateGlobalConfig => none

structure Report (chain : Chain) (tag : AurataInstructionTag) (calls : List Invocation) : Prop where
  kinds : (calls.filterMap Invocation.logged).map AutaraEvent.tag = (eventKind tag).toList
  flows : List.Forall₂ (Realises chain)
    ((calls.filterMap Invocation.logged).flatMap AutaraEvent.flows)
    (calls.filterMap Invocation.transferred)

/-- What a program has done between two states is reported. -/
def Reported (chain : Chain) (tag : AurataInstructionTag) (w w' : World) : Prop :=
  ∃ calls, w'.invocations = w.invocations ++ calls ∧ Report chain tag calls

/-! Programs that log nothing and move nothing. -/

def Silent {α : Type} (program : Program α) : Prop :=
  ∀ w a w', program.Succeeds w a w' → ∃ calls, w'.invocations = w.invocations ++ calls ∧
    calls.filterMap Invocation.logged = [] ∧ calls.filterMap Invocation.transferred = []

section Silent

open Program

variable {α β T : Type} [LendingAccount T]

theorem silent_of_kept (program : Program α)
    (kept : ∀ w a w', program.Succeeds w a w' → w'.invocations = w.invocations) :
    Silent program := by
  intro w a w' success
  exact ⟨[], by rw [kept w a w' success, List.append_nil], rfl, rfl⟩

@[simp] theorem silent_pure (a : α) : Silent (pure a : Program α) := by
  apply silent_of_kept
  intro w b w' success
  rw [((Method.succeeds_pure _ _ _ _).mp success).2]

@[simp] theorem silent_rejectIf (condition : Prop) [Decidable condition]
    (kind : LendingProgramErrorKind) : Silent (rejectIf condition kind) := by
  apply silent_of_kept
  intro w u w' success
  rw [((rejectIf_succeeds _ _ _ _ _).mp success).2]

@[simp] theorem silent_ofResult {ε : Type} (into : ε → LendingProgramErrorKind)
    (result : Except ε α) : Silent (ofResult into result) := by
  apply silent_of_kept
  intro w a w' success
  rw [((ofResult_succeeds _ _ _ _ _).mp success).2]

@[simp] theorem silent_nextAccountInfo (accounts : List AccountInfo) :
    Silent (nextAccountInfo accounts) := by
  apply silent_of_kept
  intro w next w' success
  rw [((nextAccountInfo_succeeds _ _ _ _).mp success).2]

@[simp] theorem silent_slot (key : Pubkey) : Silent (slot key) := by
  apply silent_of_kept
  intro w s w' success
  rw [((slot_succeeds _ _ _ _).mp success).2]

@[simp] theorem silent_signer (account : AccountInfo) : Silent (signer account) :=
  silent_rejectIf _ _

@[simp] theorem silent_programAccount (expected : Pubkey) (account : AccountInfo) :
    Silent (programAccount expected account) :=
  silent_rejectIf _ _

@[simp] theorem silent_zeroCopyOwnedAccount (account : AccountInfo) :
    Silent (zeroCopyOwnedAccount T account) := by
  apply silent_of_kept
  intro w t w' success
  rw [((zeroCopyOwnedAccount_succeeds _ _ _ _).mp success).2.2]

@[simp] theorem silent_zeroCopyOwnedMut (initialized : Bool) (account : AccountInfo) :
    Silent (zeroCopyOwnedMut T initialized account) := by
  apply silent_of_kept
  intro w t w' success
  rw [((zeroCopyOwnedMut_succeeds _ _ _ _ _).mp success).2.2.2]

@[simp] theorem silent_zeroCopyOwnedAccountMut (account : AccountInfo) :
    Silent (zeroCopyOwnedAccountMut T account) :=
  silent_zeroCopyOwnedMut _ _

@[simp] theorem silent_uninitializedAccountMut (account : AccountInfo) :
    Silent (uninitializedAccountMut T account) :=
  silent_zeroCopyOwnedMut _ _

@[simp] theorem silent_load (key : Pubkey) : Silent (load T key) := by
  apply silent_of_kept
  intro w t w' success
  rw [((load_succeeds _ _ _ _).mp success).2]

@[simp] theorem silent_onState (key : Pubkey) (m : Method InstructionFailure T α) :
    Silent (onState key m) := by
  apply silent_of_kept
  intro w a w' success
  obtain ⟨_, _, -, -, rfl⟩ := (onState_succeeds _ _ _ _ _).mp success
  rfl

theorem silent_invoke (env : Environment) (ctx : Context) (call : Invocation)
    (unlogged : call.logged = none) (unmoved : call.transferred = none) :
    Silent (invoke env ctx call) := by
  intro w u w' success
  obtain ⟨-, -, recorded⟩ := (invoke_succeeds _ _ _ _ _ _).mp success
  exact ⟨[call], recorded, by simp [unlogged], by simp [unmoved]⟩

theorem silent_bind (program : Program α) (next : α → Program β) (first : Silent program)
    (rest : ∀ a, Silent (next a)) : Silent (program >>= next) := by
  intro w b w' success
  obtain ⟨a, w₁, opened, closed⟩ := (Method.succeeds_bind _ _ _ _ _).mp success
  obtain ⟨calls, recorded, unlogged, unmoved⟩ := first w a w₁ opened
  obtain ⟨later, recorded', unlogged', unmoved'⟩ := rest a w₁ b w' closed
  refine ⟨calls ++ later, by rw [recorded', recorded, List.append_assoc], ?_, ?_⟩
  · rw [List.filterMap_append, unlogged, unlogged', List.append_nil]
  · rw [List.filterMap_append, unmoved, unmoved', List.append_nil]

theorem silent_ite (condition : Prop) [Decidable condition] (yes no : Program α)
    (first : Silent yes) (second : Silent no) : Silent (if condition then yes else no) := by
  split
  · exact first
  · exact second

theorem Silent.reported {program : Program α} (silent : Silent program) (chain : Chain)
    (tag : AurataInstructionTag) (none : eventKind tag = none) (w w' : World) (a : α)
    (success : program.Succeeds w a w') : Reported chain tag w w' := by
  obtain ⟨calls, recorded, unlogged, unmoved⟩ := silent w a w' success
  refine ⟨calls, recorded, ?_, ?_⟩
  · rw [unlogged, none]
    rfl
  · rw [unlogged, unmoved]
    exact List.Forall₂.nil

end Silent

section Administration

open Program

variable (env : Environment) (ctx : Context) (infos : List AccountInfo)

theorem silent_createGlobalConfig (data : CreateGlobalConfigInstruction) :
    Silent (CreateGlobalConfigAccounts.fromAccounts env infos >>= fun accounts =>
      processCreateGlobalConfig env ctx accounts data) := by
  refine silent_bind _ _ ?_ fun accounts => ?_
  · unfold CreateGlobalConfigAccounts.fromAccounts
    repeat refine silent_bind _ _ (by simp) fun _ => ?_
    simp
  · refine silent_bind _ _ (silent_invoke _ _ _ rfl rfl) fun _ => ?_
    exact silent_bind _ _ (by simp) fun _ => by simp

@[simp] theorem silent_validateUpdateGlobalConfig (accounts : UpdateGlobalConfigAccounts) :
    Silent accounts.validate :=
  silent_bind _ _ (by simp) fun _ => by simp

theorem silent_updateGlobalConfig (data : UpdateGlobalConfigInstruction) :
    Silent (UpdateGlobalConfigAccounts.fromAccounts infos >>= fun accounts =>
      processUpdateGlobalConfig accounts data) := by
  refine silent_bind _ _ ?_ fun accounts => silent_onState _ _
  unfold UpdateGlobalConfigAccounts.fromAccounts
  repeat refine silent_bind _ _ (by simp) fun _ => ?_
  simp

theorem silent_ensureVault (accounts : CreateMarketAccounts) (vault mint : AccountInfo) :
    Silent (ensureVault env ctx accounts vault mint) := by
  refine silent_bind _ _ (by simp) fun _ => ?_
  exact silent_ite _ _ _ (silent_invoke _ _ _ rfl rfl) (by simp)

@[simp] theorem silent_validateCreateMarket (accounts : CreateMarketAccounts) :
    Silent (accounts.validate env) := by
  refine silent_bind _ _ (by simp) fun _ => ?_
  exact silent_bind _ _ (by simp) fun _ => by simp

theorem silent_createMarket (data : CreateMarketInstruction) :
    Silent (CreateMarketAccounts.fromAccounts env ctx infos >>= fun accounts =>
      processCreateMarket env ctx accounts data) := by
  refine silent_bind _ _ ?_ fun accounts => ?_
  · unfold CreateMarketAccounts.fromAccounts
    repeat refine silent_bind _ _ (by simp) fun _ => ?_
    simp
  · refine silent_bind _ _ (silent_invoke _ _ _ rfl rfl) fun _ => ?_
    refine silent_bind _ _ (silent_ensureVault _ _ _ _ _) fun _ => ?_
    refine silent_bind _ _ (silent_ensureVault _ _ _ _ _) fun _ => ?_
    refine silent_bind _ _ (by simp) fun _ => ?_
    exact silent_bind _ _ (by simp) fun _ => by simp

@[simp] theorem silent_validateUpdateConfig (accounts : UpdateConfigAccounts) :
    Silent (accounts.validate env) := by
  refine silent_bind _ _ (by simp) fun _ => ?_
  exact silent_bind _ _ (by simp) fun _ => by simp

theorem silent_updateConfig (data : UpdateConfigInstruction) :
    Silent (UpdateConfigAccounts.fromAccounts env infos >>= fun accounts =>
      processUpdateConfig ctx accounts data) := by
  refine silent_bind _ _ ?_ fun accounts => ?_
  · unfold UpdateConfigAccounts.fromAccounts
    repeat refine silent_bind _ _ (by simp) fun _ => ?_
    simp
  · exact silent_bind _ _ (by simp) fun _ => by simp

theorem silent_createPositionAccounts : Silent (CreatePositionAccounts.fromAccounts env infos) := by
  unfold CreatePositionAccounts.fromAccounts
  repeat refine silent_bind _ _ (by simp) fun _ => ?_
  simp

theorem silent_createSupplyPosition (data : CreateSupplyPositionInstruction) :
    Silent (CreatePositionAccounts.fromAccounts env infos >>= fun accounts =>
      processCreateSupplyPosition env ctx accounts data) := by
  refine silent_bind _ _ (silent_createPositionAccounts _ _) fun accounts => ?_
  refine silent_bind _ _ (silent_invoke _ _ _ rfl rfl) fun _ => ?_
  exact silent_bind _ _ (by simp) fun _ => by simp

theorem silent_createBorrowPosition (data : CreateBorrowPositionInstruction) :
    Silent (CreatePositionAccounts.fromAccounts env infos >>= fun accounts =>
      processCreateBorrowPosition env ctx accounts data) := by
  refine silent_bind _ _ (silent_createPositionAccounts _ _) fun accounts => ?_
  refine silent_bind _ _ (silent_invoke _ _ _ rfl rfl) fun _ => ?_
  exact silent_bind _ _ (by simp) fun _ => by simp

theorem silent_log : Silent (LogAccounts.fromAccounts infos >>= fun _ => pure ()) := by
  refine silent_bind _ _ ?_ fun _ => by simp
  unfold LogAccounts.fromAccounts
  repeat refine silent_bind _ _ (by simp) fun _ => ?_
  simp

theorem silent_activateEntry (accounts : AddWhitelistedLiquidatorAccounts)
    (data : AddWhitelistedLiquidatorInstruction) :
    Silent (activateEntry env ctx accounts data) := by
  refine silent_bind _ _ (by simp) fun _ => silent_ite _ _ _ ?_ ?_
  · refine silent_bind _ _ (silent_invoke _ _ _ rfl rfl) fun _ => ?_
    exact silent_bind _ _ (by simp) fun _ => by simp
  · exact silent_bind _ _ (by simp) fun _ => by simp

@[simp] theorem silent_validateAddWhitelistedLiquidator
    (accounts : AddWhitelistedLiquidatorAccounts) (data : AddWhitelistedLiquidatorInstruction) :
    Silent (accounts.validate env data) := by
  refine silent_bind _ _ (by simp) fun _ => ?_
  refine silent_bind _ _ (by simp) fun _ => ?_
  refine silent_bind _ _ (by simp) fun _ => ?_
  refine silent_bind _ _ (by simp) fun _ => ?_
  exact silent_ite _ _ _ (silent_bind _ _ (by simp) fun _ => by simp) (by simp)

theorem silent_addWhitelistedLiquidatorAccounts (data : AddWhitelistedLiquidatorInstruction) :
    Silent (AddWhitelistedLiquidatorAccounts.fromAccounts env infos data) := by
  unfold AddWhitelistedLiquidatorAccounts.fromAccounts
  repeat refine silent_bind _ _ (by simp) fun _ => ?_
  simp

@[simp] theorem silent_validateRemoveWhitelistedLiquidator
    (accounts : RemoveWhitelistedLiquidatorAccounts)
    (data : RemoveWhitelistedLiquidatorInstruction) : Silent (accounts.validate env data) := by
  refine silent_bind _ _ (by simp) fun _ => ?_
  refine silent_bind _ _ (by simp) fun _ => ?_
  exact silent_bind _ _ (by simp) fun _ => by simp

theorem silent_removeWhitelistedLiquidatorAccounts
    (data : RemoveWhitelistedLiquidatorInstruction) :
    Silent (RemoveWhitelistedLiquidatorAccounts.fromAccounts env infos data) := by
  unfold RemoveWhitelistedLiquidatorAccounts.fromAccounts
  repeat refine silent_bind _ _ (by simp) fun _ => ?_
  simp

end Administration

section Reports

open Program

variable {env : Environment} {ctx : Context} {chain : Chain} {w w₁ w₂ w₃ w₄ w' : World} {u v : Unit}
  {tag : AurataInstructionTag}
  {market source destination authority source' destination' authority' : Pubkey}
  {event : AutaraEvent} {amount amount' : U64} {seed seeds seeds' : List (List UInt8)}

theorem reported_of_transfer (start : w₁.invocations = w.invocations)
    (logged : (invoke env ctx (.log market event seed)).Succeeds w₁ u w₂)
    (moved : (invoke env ctx (.transfer source destination authority amount seeds)).Succeeds w₂ v
      w')
    (kind : eventKind tag = some event.tag) {flow : Flow} (flows : event.flows = [flow])
    (realised : Realises chain flow ⟨source, destination, amount⟩) : Reported chain tag w w' := by
  obtain ⟨-, -, logged⟩ := (invoke_succeeds _ _ _ _ _ _).mp logged
  obtain ⟨-, -, moved⟩ := (invoke_succeeds _ _ _ _ _ _).mp moved
  refine ⟨[.log market event seed, .transfer source destination authority amount seeds], ?_, ?_, ?_⟩
  · rw [moved, logged, start, List.append_assoc]
    rfl
  · rw [kind]
    rfl
  · have reported : [event].flatMap AutaraEvent.flows = [flow] := by
      rw [List.flatMap_singleton, flows]
    simpa only [List.filterMap, Invocation.logged, Invocation.transferred, reported] using
      List.Forall₂.cons realised List.Forall₂.nil

theorem invokeCallback_silent (callback : Option Instruction) :
    Silent (invokeCallback env ctx callback) := by
  cases callback with
  | none => exact silent_pure ()
  | some ix => exact silent_invoke _ _ _ rfl rfl

theorem reported_of_transfers (callback : Option Instruction)
    (start : w₁.invocations = w.invocations)
    (logged : (invoke env ctx (.log market event seed)).Succeeds w₁ u w₂)
    (moved : (invoke env ctx (.transfer source destination authority amount seeds)).Succeeds w₂ v
      w₃)
    (called : (invokeCallback env ctx callback).Succeeds w₃ u w₄)
    (moved' : (invoke env ctx
      (.transfer source' destination' authority' amount' seeds')).Succeeds w₄ v w')
    (kind : eventKind tag = some event.tag) {flow flow' : Flow}
    (flows : event.flows = [flow, flow'])
    (realised : Realises chain flow ⟨source, destination, amount⟩)
    (realised' : Realises chain flow' ⟨source', destination', amount'⟩) :
    Reported chain tag w w' := by
  obtain ⟨-, -, logged⟩ := (invoke_succeeds _ _ _ _ _ _).mp logged
  obtain ⟨-, -, moved⟩ := (invoke_succeeds _ _ _ _ _ _).mp moved
  obtain ⟨calls, called, unlogged, unmoved⟩ := invokeCallback_silent callback _ _ _ called
  obtain ⟨-, -, moved'⟩ := (invoke_succeeds _ _ _ _ _ _).mp moved'
  refine ⟨[.log market event seed, .transfer source destination authority amount seeds] ++ calls ++
    [.transfer source' destination' authority' amount' seeds'], ?_, ?_, ?_⟩
  · rw [moved', called, moved, logged, start]
    simp only [List.append_assoc, List.cons_append, List.nil_append]
  · rw [kind, List.filterMap_append, List.filterMap_append, unlogged]
    rfl
  · rw [List.filterMap_append, List.filterMap_append, unlogged, List.filterMap_append,
      List.filterMap_append, unmoved]
    have reported : [event].flatMap AutaraEvent.flows = [flow, flow'] := by
      rw [List.flatMap_singleton, flows]
    simpa only [List.filterMap, Invocation.logged, Invocation.transferred, List.append_nil,
      List.cons_append, List.nil_append, reported] using
      List.Forall₂.cons realised (List.Forall₂.cons realised' List.Forall₂.nil)

theorem onMarketWith_opened {T α : Type} [LendingAccount T] {position : Pubkey} {a : α} {m : Market}
    {method : LendingMethod (MarketWith T) α} (held : w.chain market = Slot.of (T := Market) m)
    (success : (onMarketWith market position (lending method)).Succeeds w a w₁) :
    ∃ s s', s.market = m ∧ method.Succeeds s a s' ∧ w₁.invocations = w.invocations := by
  obtain ⟨s, s', read, -, called, rfl⟩ := (onMarketWith_succeeds _ _ _ _ _ _).mp success
  exact ⟨s, s', (Slot.of_data held read).symm, (lending_succeeds _ _ _ _).mp called, rfl⟩

theorem onState_opened {α : Type} {a : α} {m : Market} {method : LendingMethod Market α}
    (held : w.chain market = Slot.of (T := Market) m)
    (success : (onState market (lending method)).Succeeds w a w₁) :
    ∃ m', method.Succeeds m a m' ∧ w₁.invocations = w.invocations := by
  obtain ⟨s, s', read, called, rfl⟩ := (onState_succeeds _ _ _ _ _).mp success
  obtain rfl := Slot.of_data held read
  exact ⟨s', (lending_succeeds _ _ _ _).mp called, rfl⟩

theorem singleEvent_realises {π : Type} {oracles : OracleRate × OracleRate}
    {accounts : PositionAccounts} {side : VaultSide} {s s' : MarketWith π} {m : Market}
    {described : SingleMarketTransactionEvent × List (List UInt8)}
    (success : (MarketWith.singleEvent oracles accounts side amount).Succeeds s described s')
    (keys : s.market.vaultKeys = m.vaultKeys)
    (held : chain accounts.market.key = Slot.of (T := Market) m)
    (vault_eq : (m.vaultKeys side).vault = accounts.marketVault.key) {transfer : Transfer}
    (direction : Direction) (ends : transfer.vaultEnd direction = accounts.marketVault.key)
    (moves : transfer.amount = amount) :
    Realises chain (described.1.flow side direction) transfer := by
  obtain ⟨market_eq, amount_eq, mint_eq⟩ := MarketWith.singleEvent_succeeds _ _ _ _ _ _ _ success
  refine ⟨?_, m, ?_, ends.trans vault_eq.symm, ?_⟩
  · exact congrArg UInt64.toNat (amount_eq.trans moves.symm)
  · exact (congrArg chain market_eq).trans held
  · rintro _ ⟨⟩
    rw [mint_eq, keys]
    rfl

variable (env ctx) (infos : List AccountInfo)

theorem supplyApl_reported (data : SupplyAplInstruction)
    (success : (SupplyAplAccounts.fromAccounts env ctx infos >>= fun accounts =>
      processSupplyApl env ctx accounts data).Succeeds w u w') :
    Reported w.chain .supplyApl w w' := by
  obtain ⟨accounts, _, accepted, processed⟩ := (Method.succeeds_bind _ _ _ _ _).mp success
  obtain ⟨rfl, -, m, -, held, -, -, -, vault_eq, -⟩ :=
    PositionAccounts.fromAccounts_succeeds _ _ _ _ _ _ _ _ _ accepted
  simp only [processSupplyApl, Method.succeeds_bind] at processed
  obtain ⟨⟨event, seed⟩, _, opened, _, _, logged, moved⟩ := processed
  obtain ⟨s, s', rfl, called, start⟩ := onMarketWith_opened held opened
  simp only [Method.succeeds_bind] at called
  obtain ⟨oracles, s₁, wrapped, _, s₂, lent, described⟩ := called
  have keys : s₂.market.vaultKeys = s.market.vaultKeys :=
    (MarketWith.lend_vaultKeys _ _ _ _ lent).trans
      (MarketWith.wrapperMut_vaultKeys _ _ _ _ _ _ wrapped)
  exact reported_of_transfer start logged moved rfl rfl
    (singleEvent_realises described keys held vault_eq .inward rfl rfl)

theorem withdrawSupply_reported (data : WithdrawSupplyInstruction)
    (success : (WithdrawSupplyAccounts.fromAccounts env ctx infos >>= fun accounts =>
      processWithdrawSupply env ctx accounts data).Succeeds w u w') :
    Reported w.chain .withdrawSupply w w' := by
  obtain ⟨accounts, _, accepted, processed⟩ := (Method.succeeds_bind _ _ _ _ _).mp success
  obtain ⟨rfl, -, m, -, held, -, -, -, vault_eq, -⟩ :=
    PositionAccounts.fromAccounts_succeeds _ _ _ _ _ _ _ _ _ accepted
  simp only [processWithdrawSupply, Method.succeeds_bind] at processed
  obtain ⟨⟨amount, event, seed⟩, _, opened, _, _, logged, moved⟩ := processed
  obtain ⟨s, s', rfl, called, start⟩ := onMarketWith_opened held opened
  simp only [Method.succeeds_bind, Method.succeeds_pure, Prod.mk.injEq] at called
  obtain ⟨oracles, s₁, wrapped, _, s₂, withdrawn, _, _, described, ⟨rfl, rfl⟩, -⟩ := called
  have keys : s₂.market.vaultKeys = s.market.vaultKeys :=
    (MarketWith.withdrawRequested_vaultKeys _ _ _ _ withdrawn).trans
      (MarketWith.wrapperMut_vaultKeys _ _ _ _ _ _ wrapped)
  exact reported_of_transfer start logged moved rfl rfl
    (singleEvent_realises described keys held vault_eq .outward rfl rfl)

theorem borrowApl_reported (data : BorrowAplInstruction)
    (success : (BorrowAplAccounts.fromAccounts env ctx infos >>= fun accounts =>
      processBorrowApl env ctx accounts data).Succeeds w u w') :
    Reported w.chain .borrowApl w w' := by
  obtain ⟨accounts, _, accepted, processed⟩ := (Method.succeeds_bind _ _ _ _ _).mp success
  obtain ⟨rfl, -, m, -, held, -, -, -, vault_eq, -⟩ :=
    PositionAccounts.fromAccounts_succeeds _ _ _ _ _ _ _ _ _ accepted
  simp only [processBorrowApl, Method.succeeds_bind] at processed
  obtain ⟨⟨event, seed⟩, _, opened, _, _, logged, moved⟩ := processed
  obtain ⟨s, s', rfl, called, start⟩ := onMarketWith_opened held opened
  simp only [Method.succeeds_bind] at called
  obtain ⟨oracles, s₁, wrapped, _, s₂, borrowed, described⟩ := called
  have keys : s₂.market.vaultKeys = s.market.vaultKeys :=
    (MarketWith.borrow_vaultKeys _ _ _ _ _ _ borrowed).trans
      (MarketWith.wrapperMut_vaultKeys _ _ _ _ _ _ wrapped)
  exact reported_of_transfer start logged moved rfl rfl
    (singleEvent_realises described keys held vault_eq .outward rfl rfl)

theorem repayApl_reported (data : RepayAplInstruction)
    (success : (RepayAplAccounts.fromAccounts env ctx infos >>= fun accounts =>
      processRepayApl env ctx accounts data).Succeeds w u w') :
    Reported w.chain .repayApl w w' := by
  obtain ⟨accounts, _, accepted, processed⟩ := (Method.succeeds_bind _ _ _ _ _).mp success
  obtain ⟨rfl, -, m, -, held, -, -, -, vault_eq, -⟩ :=
    PositionAccounts.fromAccounts_succeeds _ _ _ _ _ _ _ _ _ accepted
  simp only [processRepayApl, Method.succeeds_bind] at processed
  obtain ⟨⟨amount, event, seed⟩, _, opened, _, _, logged, moved⟩ := processed
  obtain ⟨s, s', rfl, called, start⟩ := onMarketWith_opened held opened
  simp only [Method.succeeds_bind, Method.succeeds_pure, Prod.mk.injEq] at called
  obtain ⟨oracles, s₁, wrapped, _, s₂, repaid, _, _, described, ⟨rfl, rfl⟩, -⟩ := called
  have keys : s₂.market.vaultKeys = s.market.vaultKeys :=
    (MarketWith.repayRequested_vaultKeys _ _ _ _ _ repaid).trans
      (MarketWith.wrapperMut_vaultKeys _ _ _ _ _ _ wrapped)
  exact reported_of_transfer start logged moved rfl rfl
    (singleEvent_realises described keys held vault_eq .inward rfl rfl)

theorem depositAplCollateral_reported (data : DepositAplCollateralInstruction)
    (success : (DepositAplCollateralAccounts.fromAccounts env ctx infos >>= fun accounts =>
      processDepositAplCollateral env ctx accounts data).Succeeds w u w') :
    Reported w.chain .depositAplCollateral w w' := by
  obtain ⟨accounts, _, accepted, processed⟩ := (Method.succeeds_bind _ _ _ _ _).mp success
  obtain ⟨rfl, -, m, -, held, -, -, -, vault_eq, -⟩ :=
    PositionAccounts.fromAccounts_succeeds _ _ _ _ _ _ _ _ _ accepted
  simp only [processDepositAplCollateral, Method.succeeds_bind] at processed
  obtain ⟨⟨event, seed⟩, _, opened, _, _, logged, moved⟩ := processed
  obtain ⟨s, s', rfl, called, start⟩ := onMarketWith_opened held opened
  simp only [Method.succeeds_bind] at called
  obtain ⟨oracles, s₁, wrapped, _, s₂, deposited, described⟩ := called
  have keys : s₂.market.vaultKeys = s.market.vaultKeys :=
    (MarketWith.depositCollateral_vaultKeys _ _ _ _ deposited).trans
      (MarketWith.wrapperMut_vaultKeys _ _ _ _ _ _ wrapped)
  exact reported_of_transfer start logged moved rfl rfl
    (singleEvent_realises described keys held vault_eq .inward rfl rfl)

theorem withdrawAplCollateral_reported (data : WithdrawAplCollateralInstruction)
    (success : (WithdrawAplCollateralAccounts.fromAccounts env ctx infos >>= fun accounts =>
      processWithdrawAplCollateral env ctx accounts data).Succeeds w u w') :
    Reported w.chain .withdrawAplCollateral w w' := by
  obtain ⟨accounts, _, accepted, processed⟩ := (Method.succeeds_bind _ _ _ _ _).mp success
  obtain ⟨rfl, -, m, -, held, -, -, -, vault_eq, -⟩ :=
    PositionAccounts.fromAccounts_succeeds _ _ _ _ _ _ _ _ _ accepted
  simp only [processWithdrawAplCollateral, Method.succeeds_bind] at processed
  obtain ⟨⟨atoms, event, seed⟩, _, opened, _, _, logged, moved⟩ := processed
  obtain ⟨s, s', rfl, called, start⟩ := onMarketWith_opened held opened
  simp only [Method.succeeds_bind, Method.succeeds_pure, Prod.mk.injEq] at called
  obtain ⟨oracles, s₁, wrapped, _, s₂, withdrawn, _, _, described, ⟨rfl, rfl⟩, -⟩ := called
  have keys : s₂.market.vaultKeys = s.market.vaultKeys :=
    (MarketWith.withdrawCollateralRequested_vaultKeys _ _ _ _ _ _ withdrawn).trans
      (MarketWith.wrapperMut_vaultKeys _ _ _ _ _ _ wrapped)
  exact reported_of_transfer start logged moved rfl rfl
    (singleEvent_realises described keys held vault_eq .outward rfl rfl)

theorem borrowDepositApl_reported (data : BorrowDepositAplInstruction)
    (success : (DoublePositionAccounts.fromAccounts env ctx infos >>= fun accounts =>
      processBorrowDepositApl env ctx accounts data).Succeeds w u w') :
    Reported w.chain .borrowDepositApl w w' := by
  obtain ⟨accounts, w₀, accepted, processed⟩ := (Method.succeeds_bind _ _ _ _ _).mp success
  obtain ⟨rfl, -, m, -, held, -, -, -, supply_eq, collateral_eq⟩ :=
    DoublePositionAccounts.fromAccounts_succeeds _ _ _ _ _ _ accepted
  simp only [processBorrowDepositApl, Method.succeeds_bind] at processed
  obtain ⟨⟨event, seed⟩, _, opened, _, _, logged, _, _, moved, _, _, called_back, moved'⟩ :=
    processed
  obtain ⟨s, s', rfl, called, start⟩ := onMarketWith_opened held opened
  simp only [Method.succeeds_bind] at called
  obtain ⟨oracles, s₁, wrapped, _, s₂, deposited, _, s₃, borrowed, described⟩ := called
  have keys : s₃.market.vaultKeys = s.market.vaultKeys :=
    ((MarketWith.borrow_vaultKeys _ _ _ _ _ _ borrowed).trans
      (MarketWith.depositCollateral_vaultKeys _ _ _ _ deposited)).trans
      (MarketWith.wrapperMut_vaultKeys _ _ _ _ _ _ wrapped)
  obtain ⟨market_eq, in_eq, out_eq, mint_in, mint_out⟩ :=
    MarketWith.doubleEvent_succeeds _ _ _ _ _ _ _ _ _ described
  have placed : w₀.chain event.market = Slot.of (T := Market) s.market :=
    (congrArg w₀.chain market_eq).trans held
  rw [keys] at mint_in mint_out
  refine reported_of_transfers data.ixCallback start logged moved called_back moved' rfl rfl
    ⟨congrArg UInt64.toNat out_eq, s.market, placed, supply_eq.symm, ?_⟩
    ⟨congrArg UInt64.toNat in_eq, s.market, placed, collateral_eq.symm, ?_⟩
  · rintro _ ⟨⟩
    exact mint_out
  · rintro _ ⟨⟩
    exact mint_in

theorem withdrawRepayApl_reported (data : WithdrawRepayAplInstruction)
    (success : (DoublePositionAccounts.fromAccounts env ctx infos >>= fun accounts =>
      processWithdrawRepayApl env ctx accounts data).Succeeds w u w') :
    Reported w.chain .withdrawRepayApl w w' := by
  obtain ⟨accounts, w₀, accepted, processed⟩ := (Method.succeeds_bind _ _ _ _ _).mp success
  obtain ⟨rfl, -, m, -, held, -, -, -, supply_eq, collateral_eq⟩ :=
    DoublePositionAccounts.fromAccounts_succeeds _ _ _ _ _ _ accepted
  simp only [processWithdrawRepayApl, Method.succeeds_bind] at processed
  obtain ⟨⟨paid, withdrawn, event, seed⟩, _, opened, _, _, logged, _, _, moved, _, _, called_back,
    moved'⟩ := processed
  obtain ⟨s, s', rfl, called, start⟩ := onMarketWith_opened held opened
  simp only [Method.succeeds_bind, Method.succeeds_pure, Prod.mk.injEq] at called
  obtain ⟨oracles, s₁, wrapped, _, s₂, repaid, _, s₃, taken, _, _, described, ⟨rfl, rfl, rfl⟩, -⟩ :=
    called
  have keys : s₃.market.vaultKeys = s.market.vaultKeys :=
    ((MarketWith.withdrawCollateralRequested_vaultKeys _ _ _ _ _ _ taken).trans
      (MarketWith.repayRequested_vaultKeys _ _ _ _ _ repaid)).trans
      (MarketWith.wrapperMut_vaultKeys _ _ _ _ _ _ wrapped)
  obtain ⟨market_eq, in_eq, out_eq, mint_in, mint_out⟩ :=
    MarketWith.doubleEvent_succeeds _ _ _ _ _ _ _ _ _ described
  have placed : w₀.chain event.market = Slot.of (T := Market) s.market :=
    (congrArg w₀.chain market_eq).trans held
  rw [keys] at mint_in mint_out
  refine reported_of_transfers data.ixCallback start logged moved called_back moved' rfl rfl
    ⟨congrArg UInt64.toNat out_eq, s.market, placed, collateral_eq.symm, ?_⟩
    ⟨congrArg UInt64.toNat in_eq, s.market, placed, supply_eq.symm, ?_⟩
  · rintro _ ⟨⟩
    exact mint_out
  · rintro _ ⟨⟩
    exact mint_in

theorem liquidate_reported (data : LiquidateInstruction)
    (success : (LiquidateAccounts.fromAccounts env ctx infos >>= fun accounts =>
      processLiquidate env ctx accounts data).Succeeds w u w') :
    Reported w.chain .liquidate w w' := by
  obtain ⟨accounts, _, accepted, processed⟩ := (Method.succeeds_bind _ _ _ _ _).mp success
  obtain ⟨rfl, -, -, m, held, supply_eq, collateral_eq, -⟩ :=
    LiquidateAccounts.fromAccounts_succeeds _ _ _ _ _ _ accepted
  simp only [processLiquidate, Method.succeeds_bind] at processed
  obtain ⟨⟨liquidation, total, event, seed⟩, _, opened, _, _, logged, _, _, moved, _, _,
    called_back, moved'⟩ := processed
  obtain ⟨s, s', rfl, called, start⟩ := onMarketWith_opened held opened
  simp only [Method.succeeds_bind, Method.succeeds_lift, Method.succeeds_rejectIf,
    Method.succeeds_self, Method.succeeds_pure, Prod.mk.injEq] at called
  obtain ⟨oracles, s₁, wrapped, _, s₂, liquidated, _, _, ⟨total_ok, rfl⟩, _, _, ⟨-, rfl⟩, _, _,
    ⟨rfl, rfl⟩, ⟨rfl, rfl, rfl, rfl⟩, rfl⟩ := called
  have keys : s₂.market.vaultKeys = s.market.vaultKeys :=
    (MarketWith.liquidate_vaultKeys _ _ _ _ _ _ liquidated).trans
      (MarketWith.wrapperMut_vaultKeys _ _ _ _ _ _ wrapped)
  refine reported_of_transfers data.ixCallback start logged moved called_back moved' rfl rfl
    ⟨?_, s.market, held, collateral_eq.symm, ?_⟩ ⟨rfl, s.market, held, supply_eq.symm, ?_⟩
  · exact (U64.safeAdd_ok _ _ _).mp total_ok
  · rintro _ ⟨⟩
    exact congrArg (fun keys => (keys VaultSide.collateral).mint) keys
  · rintro _ ⟨⟩
    exact congrArg (fun keys => (keys VaultSide.supply).mint) keys

theorem socializeLoss_reported (data : SocializeLossInstruction)
    (success : (CollateralReceiverAccounts.fromAccounts env ctx infos >>= fun accounts =>
      processSocializeLoss env ctx accounts data).Succeeds w u w') :
    Reported w.chain .socializeLoss w w' := by
  obtain ⟨accounts, _, accepted, processed⟩ := (Method.succeeds_bind _ _ _ _ _).mp success
  obtain ⟨rfl, -, m, held, -, vault_eq⟩ :=
    CollateralReceiverAccounts.fromAccounts_succeeds _ _ _ _ _ _ accepted
  simp only [processSocializeLoss, Method.succeeds_bind] at processed
  obtain ⟨⟨debt, collateral, seed⟩, _, opened, _, _, logged, moved⟩ := processed
  obtain ⟨-, -, -, -, start⟩ := onMarketWith_opened held opened
  refine reported_of_transfer start logged moved rfl rfl ⟨rfl, m, held, vault_eq.symm, ?_⟩
  rintro _ ⟨⟩

theorem beginCapitalSweep_reported (data : BeginCapitalSweepInstruction)
    (success : (CollateralReceiverAccounts.fromAccounts env ctx infos >>= fun accounts =>
      processBeginCapitalSweep env ctx accounts data).Succeeds w u w') :
    Reported w.chain .beginCapitalSweep w w' := by
  obtain ⟨accounts, _, accepted, processed⟩ := (Method.succeeds_bind _ _ _ _ _).mp success
  obtain ⟨rfl, -, m, held, -, vault_eq⟩ :=
    CollateralReceiverAccounts.fromAccounts_succeeds _ _ _ _ _ _ accepted
  simp only [processBeginCapitalSweep, Method.succeeds_bind] at processed
  obtain ⟨⟨health, swept, mint, seed⟩, _, opened, _, _, logged, moved⟩ := processed
  obtain ⟨s, s', rfl, called, start⟩ := onMarketWith_opened held opened
  simp only [Method.succeeds_bind, Method.succeeds_self, Method.succeeds_pure, Prod.mk.injEq]
    at called
  obtain ⟨oracles, s₁, wrapped, _, s₂, begun, _, _, ⟨rfl, rfl⟩, ⟨rfl, rfl, rfl, rfl⟩, rfl⟩ := called
  have keys : s₂.market.vaultKeys = s.market.vaultKeys :=
    (MarketWith.beginCapitalSweep_vaultKeys _ _ _ _ _ begun).trans
      (MarketWith.wrapperMut_vaultKeys _ _ _ _ _ _ wrapped)
  refine reported_of_transfer start logged moved rfl rfl ⟨rfl, s.market, held, vault_eq.symm, ?_⟩
  rintro _ ⟨⟩
  exact congrArg (fun keys => (keys VaultSide.collateral).mint) keys

theorem settleCapitalSweep_reported (data : SettleCapitalSweepInstruction)
    (success : (SettleCapitalSweepAccounts.fromAccounts env ctx infos >>= fun accounts =>
      processSettleCapitalSweep env ctx accounts data).Succeeds w u w') :
    Reported w.chain .settleCapitalSweep w w' := by
  obtain ⟨accounts, _, accepted, processed⟩ := (Method.succeeds_bind _ _ _ _ _).mp success
  obtain ⟨rfl, -, m, held, -, supply_eq, collateral_eq⟩ :=
    SettleCapitalSweepAccounts.fromAccounts_succeeds _ _ _ _ _ _ accepted
  simp only [processSettleCapitalSweep, Method.succeeds_bind] at processed
  obtain ⟨⟨settlement, event, seed⟩, _, opened, _, _, logged, _, w₃, moved, moved'⟩ := processed
  obtain ⟨s, s', rfl, called, start⟩ := onMarketWith_opened held opened
  simp only [Method.succeeds_bind, Method.succeeds_self, Method.succeeds_pure, Prod.mk.injEq]
    at called
  obtain ⟨oracles, s₁, wrapped, _, s₂, settled, _, _, ⟨rfl, rfl⟩, ⟨rfl, rfl, rfl⟩, rfl⟩ := called
  have keys : s₂.market.vaultKeys = s.market.vaultKeys :=
    (MarketWith.settleCapitalSweep_vaultKeys _ _ _ _ _ _ _ settled).trans
      (MarketWith.wrapperMut_vaultKeys _ _ _ _ _ _ wrapped)
  have uncalled : (invokeCallback env ctx none).Succeeds w₃ () w₃ := rfl
  refine reported_of_transfers none start logged moved uncalled moved' rfl rfl
    ⟨rfl, s.market, held, supply_eq.symm, ?_⟩ ⟨rfl, s.market, held, collateral_eq.symm, ?_⟩
  · rintro _ ⟨⟩
    exact congrArg (fun keys => (keys VaultSide.supply).mint) keys
  · rintro _ ⟨⟩
    exact congrArg (fun keys => (keys VaultSide.collateral).mint) keys

theorem donateSupply_reported (data : DonateSupplyInstruction)
    (success : (DonateSupplyAccounts.fromAccounts env ctx infos >>= fun accounts =>
      processDonateSupply env ctx accounts data).Succeeds w u w') :
    Reported w.chain .donateSupply w w' := by
  obtain ⟨accounts, _, accepted, processed⟩ := (Method.succeeds_bind _ _ _ _ _).mp success
  obtain ⟨rfl, m, held, vault_eq⟩ := DonateSupplyAccounts.fromAccounts_succeeds _ _ _ _ _ _ accepted
  simp only [processDonateSupply, Method.succeeds_bind] at processed
  obtain ⟨⟨mint, seed⟩, _, opened, _, _, logged, moved⟩ := processed
  obtain ⟨m', called, start⟩ := onState_opened held opened
  simp only [Method.succeeds_bind, Method.succeeds_self, Method.succeeds_pure, Prod.mk.injEq,
    Market.donateSupplyAtoms_succeeds] at called
  obtain ⟨_, m₁, synced, _, _, ⟨tracker, -, rfl⟩, _, _, ⟨rfl, rfl⟩, ⟨rfl, rfl⟩, rfl⟩ := called
  have keys : m₁.vaultKeys = m.vaultKeys := Market.syncClock_vaultKeys _ _ _ _ synced
  refine reported_of_transfer start logged moved rfl rfl ⟨rfl, m, held, vault_eq.symm, ?_⟩
  rintro _ ⟨⟩
  exact congrArg (fun keys => (keys VaultSide.supply).mint) keys

theorem redeemFees_succeeds (redeem : LendingMethod Market U64) (feeReceiver : Pubkey)
    (kept : ∀ m m' atoms, redeem.Succeeds m atoms m' → m'.vaultKeys = m.vaultKeys) (m m' : Market)
    (redeemed : U64 × ReedeemFeeEvent × List (List UInt8))
    (success : (Market.redeemFees ctx redeem market feeReceiver).Succeeds m redeemed m') :
    redeemed.2.1.market = market ∧ redeemed.2.1.feeAmount = redeemed.1 ∧
      redeemed.2.1.mint = (m.vaultKeys .supply).mint := by
  simp only [Market.redeemFees, Method.succeeds_bind, Method.succeeds_self, Method.succeeds_lift,
    Method.succeeds_pure] at success
  obtain ⟨_, m₁, synced, atoms, m₂, taken, _, _, ⟨rfl, rfl⟩, _, _, ⟨-, rfl⟩, rfl, -⟩ := success
  have keys : m₂.vaultKeys = m.vaultKeys :=
    (kept _ _ _ taken).trans (Market.syncClock_vaultKeys _ _ _ _ synced)
  exact ⟨rfl, rfl, congrArg (fun keys => (keys VaultSide.supply).mint) keys⟩

theorem redeemProtocolFees_vaultKeys (m m' : Market) (atoms : U64)
    (success : Market.redeemProtocolFees.Succeeds m atoms m') : m'.vaultKeys = m.vaultKeys := by
  obtain ⟨tracker, -, rfl, -⟩ := Market.redeemProtocolFees_succeeds _ _ _ success
  rfl

theorem redeemCuratorFess_vaultKeys (m m' : Market) (atoms : U64)
    (success : Market.redeemCuratorFess.Succeeds m atoms m') : m'.vaultKeys = m.vaultKeys := by
  obtain ⟨tracker, -, rfl, -⟩ := Market.redeemCuratorFess_succeeds _ _ _ success
  rfl

theorem reedeemCuratorFees_reported
    (success : (RedeemCuratorFeesAccounts.fromAccounts env ctx infos >>= fun accounts =>
      processRedeemCuratorFees env ctx accounts).Succeeds w u w') :
    Reported w.chain .reedeemCuratorFees w w' := by
  obtain ⟨accounts, w₀, accepted, processed⟩ := (Method.succeeds_bind _ _ _ _ _).mp success
  obtain ⟨rfl, -, m, held, -, vault_eq⟩ :=
    RedeemCuratorFeesAccounts.fromAccounts_succeeds _ _ _ _ _ _ accepted
  simp only [processRedeemCuratorFees, Method.succeeds_bind] at processed
  obtain ⟨⟨toWithdraw, event, seed⟩, _, opened, _, _, logged, moved⟩ := processed
  obtain ⟨m', called, start⟩ := onState_opened held opened
  obtain ⟨market_eq, amount_eq, mint_eq⟩ :=
    redeemFees_succeeds _ _ _ redeemCuratorFess_vaultKeys _ _ _ called
  refine reported_of_transfer start logged moved rfl rfl
    ⟨congrArg UInt64.toNat amount_eq, m, (congrArg w₀.chain market_eq).trans held, vault_eq.symm,
      ?_⟩
  rintro _ ⟨⟩
  exact mint_eq

theorem reedeemProtocolFees_reported
    (success : (RedeemProtocolFeesAccounts.fromAccounts env ctx infos >>= fun accounts =>
      processRedeemProtocolFees env ctx accounts).Succeeds w u w') :
    Reported w.chain .reedeemProtocolFees w w' := by
  obtain ⟨accounts, w₀, accepted, processed⟩ := (Method.succeeds_bind _ _ _ _ _).mp success
  obtain ⟨rfl, -, m, held, vault_eq⟩ :=
    RedeemProtocolFeesAccounts.fromAccounts_succeeds _ _ _ _ _ _ accepted
  simp only [processRedeemProtocolFees, Method.succeeds_bind] at processed
  obtain ⟨⟨toWithdraw, event, seed⟩, _, opened, _, _, logged, moved⟩ := processed
  obtain ⟨m', called, start⟩ := onState_opened held opened
  obtain ⟨market_eq, amount_eq, mint_eq⟩ :=
    redeemFees_succeeds _ _ _ redeemProtocolFees_vaultKeys _ _ _ called
  refine reported_of_transfer start logged moved rfl rfl
    ⟨congrArg UInt64.toNat amount_eq, m, (congrArg w₀.chain market_eq).trans held, vault_eq.symm,
      ?_⟩
  rintro _ ⟨⟩
  exact mint_eq

theorem logWhitelistUpdate_reported {α : Type} {a : α} {program : Program α}
    (silent : Silent program) {marketInfo curator : AccountInfo} {liquidator : Pubkey}
    {count : LendingMethod MarketConfig Unit}
    {wrap : LiquidatorWhitelistUpdatedEvent → AutaraEvent} (prepared : program.Succeeds w a w₁)
    (success : (logWhitelistUpdate env ctx marketInfo curator liquidator count wrap).Succeeds w₁ u
      w')
    (kind : ∀ event, eventKind tag = some (wrap event).tag)
    (flows : ∀ event, (wrap event).flows = []) :
    Reported chain tag w w' := by
  obtain ⟨calls, recorded, unlogged, unmoved⟩ := silent _ _ _ prepared
  simp only [logWhitelistUpdate, Method.succeeds_bind, onState_succeeds, load_succeeds,
    invoke_succeeds] at success
  obtain ⟨_, _, ⟨_, _, -, -, rfl⟩, _, _, ⟨-, rfl⟩, -, -, logged⟩ := success
  obtain ⟨update, seed, logged⟩ : ∃ update seed,
      w'.invocations = w₁.invocations ++ [.log marketInfo.key (wrap update) seed] := ⟨_, _, logged⟩
  refine ⟨calls ++ [.log marketInfo.key (wrap update) seed], ?_, ?_, ?_⟩
  · rw [logged, recorded, List.append_assoc]
  · rw [List.filterMap_append, unlogged, kind update]
    rfl
  · rw [List.filterMap_append, unlogged, List.filterMap_append, unmoved]
    simpa only [List.filterMap, Invocation.logged, Invocation.transferred, List.nil_append,
      List.flatMap_singleton, flows] using List.Forall₂.nil

theorem addWhitelistedLiquidator_reported (data : AddWhitelistedLiquidatorInstruction)
    (success : (AddWhitelistedLiquidatorAccounts.fromAccounts env infos data >>= fun accounts =>
      processAddWhitelistedLiquidator env ctx accounts data).Succeeds w u w') :
    Reported chain .addWhitelistedLiquidator w w' := by
  obtain ⟨accounts, w₁, accepted, processed⟩ := (Method.succeeds_bind _ _ _ _ _).mp success
  obtain ⟨_, w₂, activated, logged⟩ := (Method.succeeds_bind _ _ _ _ _).mp processed
  have silent := silent_bind _ (fun accounts => activateEntry env ctx accounts data)
    (silent_addWhitelistedLiquidatorAccounts env infos data)
    fun accounts => silent_activateEntry env ctx accounts data
  exact logWhitelistUpdate_reported _ _ silent
    ((Method.succeeds_bind _ _ _ _ _).mpr ⟨accounts, w₁, accepted, activated⟩) logged
    (fun _ => rfl) (fun _ => rfl)

theorem removeWhitelistedLiquidator_reported (data : RemoveWhitelistedLiquidatorInstruction)
    (success : (RemoveWhitelistedLiquidatorAccounts.fromAccounts env infos data >>= fun accounts =>
      processRemoveWhitelistedLiquidator env ctx accounts data).Succeeds w u w') :
    Reported chain .removeWhitelistedLiquidator w w' := by
  obtain ⟨accounts, w₁, accepted, processed⟩ := (Method.succeeds_bind _ _ _ _ _).mp success
  obtain ⟨_, w₂, deactivated, logged⟩ := (Method.succeeds_bind _ _ _ _ _).mp processed
  have silent := silent_bind _
    (fun accounts : RemoveWhitelistedLiquidatorAccounts =>
      onState accounts.whitelistEntry.key (lending LiquidatorWhitelistEntry.deactivate))
    (silent_removeWhitelistedLiquidatorAccounts env infos data) fun _ => silent_onState _ _
  exact logWhitelistUpdate_reported _ _ silent
    ((Method.succeeds_bind _ _ _ _ _).mpr ⟨accounts, w₁, accepted, deactivated⟩) logged
    (fun _ => rfl) (fun _ => rfl)

end Reports

section Histories

variable (env : Environment)

/-- Every instruction that succeeds is reported. -/
theorem autaraProcessInstruction_reported (call : Call) (w w' : World) (u : Unit)
    (success : (autaraProcessInstruction env call).Succeeds w u w') :
    Reported w.chain call.instruction.tag w w' := by
  obtain ⟨infos, instruction, ctx⟩ := call
  cases instruction with
  | createMarket data => exact (silent_createMarket _ _ _ data).reported _ _ rfl _ _ _ success
  | createSupplyPosition data =>
      exact (silent_createSupplyPosition _ _ _ data).reported _ _ rfl _ _ _ success
  | supplyApl data => exact supplyApl_reported _ _ _ _ success
  | withdrawSupply data => exact withdrawSupply_reported _ _ _ _ success
  | createBorrowPosition data =>
      exact (silent_createBorrowPosition _ _ _ data).reported _ _ rfl _ _ _ success
  | borrowApl data => exact borrowApl_reported _ _ _ _ success
  | depositAplCollateral data => exact depositAplCollateral_reported _ _ _ _ success
  | withdrawAplCollateral data => exact withdrawAplCollateral_reported _ _ _ _ success
  | repayApl data => exact repayApl_reported _ _ _ _ success
  | updateConfig data => exact (silent_updateConfig _ _ _ data).reported _ _ rfl _ _ _ success
  | liquidate data => exact liquidate_reported _ _ _ _ success
  | log => exact (silent_log _).reported _ _ rfl _ _ _ success
  | createGlobalConfig data =>
      exact (silent_createGlobalConfig _ _ _ data).reported _ _ rfl _ _ _ success
  | reedeemCuratorFees => exact reedeemCuratorFees_reported _ _ _ success
  | reedeemProtocolFees => exact reedeemProtocolFees_reported _ _ _ success
  | updateGlobalConfig data =>
      exact (silent_updateGlobalConfig _ data).reported _ _ rfl _ _ _ success
  | borrowDepositApl data => exact borrowDepositApl_reported _ _ _ _ success
  | withdrawRepayApl data => exact withdrawRepayApl_reported _ _ _ _ success
  | socializeLoss data => exact socializeLoss_reported _ _ _ _ success
  | donateSupply data => exact donateSupply_reported _ _ _ _ success
  | beginCapitalSweep data => exact beginCapitalSweep_reported _ _ _ _ success
  | settleCapitalSweep data => exact settleCapitalSweep_reported _ _ _ _ success
  | addWhitelistedLiquidator data => exact addWhitelistedLiquidator_reported _ _ _ _ success
  | removeWhitelistedLiquidator data => exact removeWhitelistedLiquidator_reported _ _ _ _ success

namespace Entry

def tag (entry : Entry) : AurataInstructionTag := entry.call.instruction.tag

def events (entry : Entry) : List AutaraEvent := entry.invocations.filterMap Invocation.logged

def transfers (entry : Entry) : List Transfer := entry.invocations.filterMap Invocation.transferred

/-- The flows that the events report are the transfers that were made, in order. -/
def FlowsReported (entry : Entry) : Prop :=
  List.Forall₂ (Realises entry.before) (entry.events.flatMap AutaraEvent.flows) entry.transfers

end Entry

/-- The entries of a history are reported: each logs the kind of its instruction, and its flows. -/
theorem history_reported (start : Chain) (calls : List Call) (entry : Entry)
    (member : entry ∈ history env start calls) :
    entry.events.map AutaraEvent.tag = (eventKind entry.tag).toList ∧ entry.FlowsReported := by
  obtain ⟨after, success⟩ := mem_history env start calls entry member
  obtain ⟨u, w', processed, -, recorded⟩ := execute_succeeds env _ _ _ _ success
  obtain ⟨invocations, appended, report⟩ := autaraProcessInstruction_reported env _ _ _ _ processed
  obtain rfl : invocations = entry.invocations := by
    rw [← recorded, appended]
    rfl
  exact ⟨report.kinds, report.flows⟩

def sender : AurataEventTag → AurataInstructionTag
  | .liquidate => .liquidate
  | .supply => .supplyApl
  | .withdraw => .withdrawSupply
  | .depositCollateral => .depositAplCollateral
  | .withdrawCollateral => .withdrawAplCollateral
  | .borrow => .borrowApl
  | .repay => .repayApl
  | .redeemProtocolFees => .reedeemProtocolFees
  | .redeemCuratorFees => .reedeemCuratorFees
  | .depositAndBorrow => .borrowDepositApl
  | .withdrawAndRepay => .withdrawRepayApl
  | .socializeLoss => .socializeLoss
  | .donation => .donateSupply
  | .capitalSweepStarted => .beginCapitalSweep
  | .capitalSweepSettled => .settleCapitalSweep
  | .liquidatorWhitelistEntryAdded => .addWhitelistedLiquidator
  | .liquidatorWhitelistEntryRemoved => .removeWhitelistedLiquidator

theorem sender_eventKind (tag : AurataInstructionTag) (kind : AurataEventTag)
    (logs : eventKind tag = some kind) :
    tag = sender kind ∨ tag = .reedeemProtocolFees ∧ kind = .redeemCuratorFees := by
  cases tag <;> cases logs <;> simp [sender]

/-- One instruction redeems the fees of the protocol, the other those of the curator. -/
def RedemptionPair (first second : AurataInstructionTag) : Prop :=
  first = .reedeemProtocolFees ∧ second = .reedeemCuratorFees ∨
    first = .reedeemCuratorFees ∧ second = .reedeemProtocolFees

theorem same_kind (first second : AurataInstructionTag) (kind : AurataEventTag)
    (logs : eventKind first = some kind) (logs' : eventKind second = some kind) :
    first = second ∨ RedemptionPair first second := by
  rcases sender_eventKind first kind logs with rfl | ⟨rfl, rfl⟩
  · rcases sender_eventKind second kind logs' with rfl | ⟨rfl, rfl⟩
    · exact Or.inl rfl
    · exact Or.inr (Or.inr ⟨rfl, rfl⟩)
  · rcases sender_eventKind second _ logs' with rfl | ⟨rfl, -⟩
    · exact Or.inr (Or.inl ⟨rfl, rfl⟩)
    · exact Or.inl rfl

theorem Entry.kind_of_mem {entry : Entry} {event : AutaraEvent}
    (kinds : entry.events.map AutaraEvent.tag = (eventKind entry.tag).toList)
    (member : event ∈ entry.events) : eventKind entry.tag = some event.tag := by
  have mapped : event.tag ∈ (eventKind entry.tag).toList := by
    rw [← kinds]
    exact List.mem_map_of_mem member
  exact Option.mem_toList.mp mapped

/-- In every run, the kinds of two events tell the instructions that logged them apart unless these
are the two redemptions of fees; the flows in the events of the run are its transfers in any
case. -/
theorem event_fidelity_iff (start : Chain) (calls : List Call) (first second : Entry)
    (executed : first ∈ history env start calls) (executed' : second ∈ history env start calls)
    (event event' : AutaraEvent) (logged : event ∈ first.events)
    (logged' : event' ∈ second.events) :
    ((event.tag = event'.tag → first.tag = second.tag) ∧
        ∀ entry ∈ history env start calls, entry.FlowsReported) ↔
      ¬ RedemptionPair first.tag second.tag := by
  obtain ⟨kinds, -⟩ := history_reported env start calls first executed
  obtain ⟨kinds', -⟩ := history_reported env start calls second executed'
  have kind := Entry.kind_of_mem kinds logged
  have kind' := Entry.kind_of_mem kinds' logged'
  constructor
  · rintro ⟨determined, -⟩ (⟨protocol, curator⟩ | ⟨curator, protocol⟩)
    · rw [protocol] at kind determined
      rw [curator] at kind' determined
      exact absurd (determined (Option.some.inj (kind.symm.trans kind'))) (by decide)
    · rw [curator] at kind determined
      rw [protocol] at kind' determined
      exact absurd (determined (Option.some.inj (kind.symm.trans kind'))) (by decide)
  · intro apart
    refine ⟨fun same => ?_, fun entry member => (history_reported env start calls entry member).2⟩
    rw [← same] at kind'
    exact (same_kind _ _ _ kind kind').resolve_right apart

end Histories

def redemptionMarket : Market :=
  { Market.zeroed with
    config := { MarketConfig.zeroed with curator := plainKey 20 }
    supplyVault := { SupplyVault.zeroed with
      vault := plainKey 31
      lastUpdateUnixTimestamp := 1
      supplySharesTracker := ⟨Fixed.fromU64 10, Fixed.fromU64 1⟩
      borrowSharesTracker := .new
      pendingProtocolFeeShares := Fixed.fromU64 2
      pendingCuratorFeeShares := Fixed.fromU64 3 } }

def redemptionStart : Chain :=
  plainChain
    [(plainKey 11, Slot.of redemptionMarket),
      (plainEnvironment.findGlobalConfigPda.1,
        Slot.of (T := GlobalConfig) ⟨plainKey 21, zeroedPubkey, plainKey 22, 0⟩)]

def redemptionAccounts : List AccountInfo :=
  [plainAccount 11, plainAccount 30, plainAccount 31, plainAccount 2]

def curatorRedemption : Call :=
  ⟨plainSigner 20 :: redemptionAccounts, .reedeemCuratorFees, plainContext⟩

def protocolRedemption : Call :=
  ⟨plainSigner 21 :: ⟨plainEnvironment.findGlobalConfigPda.1, false, false⟩ :: redemptionAccounts,
    .reedeemProtocolFees, plainContext⟩

def loggedKinds (entries : List Entry) : List (AurataInstructionTag × List AurataEventTag) :=
  entries.map fun entry => (entry.tag, entry.events.map AutaraEvent.tag)

theorem exists_of_loggedKinds (entries : List Entry) (tag : AurataInstructionTag)
    (kind : AurataEventTag) (listed : (tag, [kind]) ∈ loggedKinds entries) :
    ∃ entry ∈ entries, entry.tag = tag ∧ ∃ event ∈ entry.events, event.tag = kind := by
  obtain ⟨entry, member, same⟩ := List.mem_map.mp listed
  obtain ⟨tag_eq, kinds⟩ := Prod.mk.inj same
  have mapped : kind ∈ entry.events.map AutaraEvent.tag := by
    rw [kinds]
    exact List.mem_singleton_self kind
  obtain ⟨event, logged, kind_eq⟩ := List.mem_map.mp mapped
  exact ⟨entry, member, tag_eq, event, logged, kind_eq⟩

/-- The protocol and the curator redeem their fees one after the other, and the two events are of
one kind. -/
theorem redemptions_log_one_kind :
    ∃ first ∈ history plainEnvironment redemptionStart [protocolRedemption, curatorRedemption],
    ∃ second ∈ history plainEnvironment redemptionStart [protocolRedemption, curatorRedemption],
    ∃ event ∈ first.events, ∃ event' ∈ second.events,
      event.tag = event'.tag ∧ first.tag = .reedeemProtocolFees ∧
        second.tag = .reedeemCuratorFees ∧ first.tag ≠ second.tag := by
  have kinds : loggedKinds
      (history plainEnvironment redemptionStart [protocolRedemption, curatorRedemption]) =
      [(.reedeemProtocolFees, [.redeemCuratorFees]), (.reedeemCuratorFees, [.redeemCuratorFees])] :=
    by decide +kernel
  obtain ⟨first, executed, protocol, event, logged, kind⟩ :=
    exists_of_loggedKinds _ .reedeemProtocolFees .redeemCuratorFees (by rw [kinds]; decide)
  obtain ⟨second, executed', curator, event', logged', kind'⟩ :=
    exists_of_loggedKinds _ .reedeemCuratorFees .redeemCuratorFees (by rw [kinds]; decide)
  refine ⟨first, executed, second, executed', event, logged, event', logged', ?_, protocol, curator,
    ?_⟩
  · rw [kind, kind']
  · rw [protocol, curator]
    decide

def smallDonation : Call :=
  ⟨[plainAccount 11, plainSigner 23, plainAccount 0, plainAccount 31, plainAccount 2],
    .donateSupply ⟨5⟩, plainContext⟩

theorem donation_told_from_redemption :
    ∃ first ∈ history plainEnvironment redemptionStart [smallDonation, protocolRedemption],
    ∃ second ∈ history plainEnvironment redemptionStart [smallDonation, protocolRedemption],
    ∃ event ∈ first.events, ∃ event' ∈ second.events,
      first.tag = .donateSupply ∧ second.tag = .reedeemProtocolFees ∧ event.tag ≠ event'.tag ∧
        first.FlowsReported ∧ second.FlowsReported := by
  have kinds : loggedKinds
      (history plainEnvironment redemptionStart [smallDonation, protocolRedemption]) =
      [(.donateSupply, [.donation]), (.reedeemProtocolFees, [.redeemCuratorFees])] := by
    decide +kernel
  obtain ⟨first, executed, donated, event, logged, -⟩ :=
    exists_of_loggedKinds _ .donateSupply .donation (by rw [kinds]; decide)
  obtain ⟨second, executed', redeemed, event', logged', -⟩ :=
    exists_of_loggedKinds _ .reedeemProtocolFees .redeemCuratorFees (by rw [kinds]; decide)
  have apart : ¬ RedemptionPair first.tag second.tag := by
    rw [donated, redeemed]
    rintro (⟨same, -⟩ | ⟨same, -⟩) <;> cases same
  obtain ⟨determined, reported⟩ := (event_fidelity_iff plainEnvironment redemptionStart
    [smallDonation, protocolRedemption] first second executed executed' event event' logged
    logged').mpr apart
  refine ⟨first, executed, second, executed', event, logged, event', logged', donated, redeemed,
    fun same => ?_, reported first executed, reported second executed'⟩
  have tags := determined same
  rw [donated, redeemed] at tags
  cases tags

end Transactions

end AutaraLending
