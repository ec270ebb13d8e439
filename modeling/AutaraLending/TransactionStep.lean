import AutaraLending.EventFidelity
import AutaraLending.SignedAccounts

/-! What a successful instruction does to the markets and the positions on the chain: single
operations one after the other, each with the signature that it needs, and the events that report
what they move. -/

namespace AutaraLending

open Support

/-! What a market is. No operation changes it. -/

/-- The curator of a market, the numbers in its address, and its vaults and their mints. -/
structure MarketIdentity where
  curator : Pubkey
  index : UInt8
  bump : UInt8
  vaultKeys : VaultSide → VaultKeys

def MarketIdentity.seed (self : MarketIdentity) : List (List UInt8) :=
  marketSeedWithBump self.curator (self.vaultKeys .supply).mint (self.vaultKeys .collateral).mint
    self.index self.bump

namespace Market

def identity (self : Market) : MarketIdentity :=
  ⟨self.config.curator, self.config.index, self.config.bump, self.vaultKeys⟩

/-- The collateral that the market counts in its vault. -/
def collateral (self : Market) : Int := self.collateralVault.totalCollateralAtoms.toNat

theorem seed_eq (self : Market) : self.seed = self.identity.seed := rfl

theorem isInitialized_of_identity {m m' : Market} (same : m'.identity = m.identity) :
    LendingAccount.isInitialized m' = LendingAccount.isInitialized m := by
  have curator_eq : m'.config.curator = m.config.curator := congrArg MarketIdentity.curator same
  change decide _ = decide _
  rw [curator_eq]

theorem identity_of_parts {m m' : Market} (config : m'.config = m.config)
    (keys : m'.vaultKeys = m.vaultKeys) : m'.identity = m.identity := by
  unfold identity
  rw [config, keys]

theorem processCreateMarket_identity (data : CreateMarket) (unixTimestamp : Int64) (m : Market)
    (u : Unit) (success : (processCreateMarket data unixTimestamp).Succeeds zeroed u m) :
    m.identity = ⟨data.curator, data.index, data.marketBump, fun
      | .supply => ⟨data.supplyMint, data.supplyVault⟩
      | .collateral => ⟨data.collateralMint, data.collateralVault⟩⟩ := by
  simp only [processCreateMarket, MarketConfig.initializeConfig, Method.succeeds_bind,
    onConfig_succeeds, onSupplyVault_succeeds, onCollateralVault_succeeds, Method.succeeds_self,
    Method.succeeds_assign, MarketConfig.updateMaxUtilisationRate_succeeds,
    MarketConfig.setLendingMarketFee_succeeds, MarketConfig.syncGlobalConfig_succeeds] at success
  obtain ⟨_, _, ⟨_, ⟨_, _, ltv, _, _, ⟨-, rfl⟩, _, _, ⟨-, rfl⟩, _, _, ⟨rfl, rfl⟩, _, _, rfl, rfl⟩,
    rfl⟩, _, _, ⟨_, supply, rfl⟩, _, collateral, rfl⟩ := success
  obtain ⟨rfl, -, -⟩ := MarketConfig.updateLtv_succeeds _ _ _ _ ltv
  obtain ⟨-, rfl⟩ := SupplyVault.initializeVault_succeeds _ _ _ _ _ _ _ _ _ supply
  obtain rfl := CollateralVault.initializeVault_succeeds _ _ _ _ _ _ _ collateral
  unfold identity
  congr 1

end Market

theorem SupplyEffect.identity {s s' : MarketWith SupplyPosition} (effect : SupplyEffect s s') :
    s'.market.identity = s.market.identity := by
  rw [effect.market_eq]
  rfl

theorem BorrowEffect.identity {s s' : MarketWith BorrowPosition} (effect : BorrowEffect s s') :
    s'.market.identity = s.market.identity := by
  rw [effect.market_eq]
  rfl

theorem BorrowEffect.config {s s' : MarketWith BorrowPosition} (effect : BorrowEffect s s') :
    s'.market.config = s.market.config := by
  rw [effect.market_eq]
  rfl

theorem MarketAction.execute_identity (action : MarketAction) (m m' : Market) (atoms : Int)
    (success : action.execute.Succeeds m atoms m') : m'.identity = m.identity := by
  cases action with
  | donateSupplyAtoms amount =>
      obtain ⟨_, donated, -⟩ := (Method.succeeds_bind_pure _ _ _ _ _).mp success
      obtain ⟨tracker, -, rfl⟩ := (Market.donateSupplyAtoms_succeeds _ _ _ _).mp donated
      rfl
  | syncClock unixTimestamp =>
      obtain ⟨synced, -⟩ := (withoutTransfer_succeeds _ _ _ _).mp success
      exact Market.identity_of_parts (Market.syncClock_config _ _ _ _ synced)
        (Market.syncClock_vaultKeys _ _ _ _ synced)
  | redeemProtocolFees =>
      obtain ⟨_, redeemed, -⟩ := (Method.succeeds_bind_pure _ _ _ _ _).mp success
      obtain ⟨tracker, -, rfl, -⟩ := Market.redeemProtocolFees_succeeds _ _ _ redeemed
      rfl
  | redeemCuratorFess =>
      obtain ⟨_, redeemed, -⟩ := (Method.succeeds_bind_pure _ _ _ _ _).mp success
      obtain ⟨tracker, -, rfl, -⟩ := Market.redeemCuratorFess_succeeds _ _ _ redeemed
      rfl
  | updateLtv ltvConfig =>
      obtain ⟨updated, -⟩ := (withoutTransfer_succeeds _ _ _ _).mp success
      obtain ⟨config, changed, rfl⟩ := (Market.onConfig_succeeds _ _ _ _).mp updated
      obtain ⟨rfl, -⟩ := MarketConfig.updateLtv_succeeds _ _ _ _ changed
      rfl
  | updateMaxUtilisationRate rate =>
      obtain ⟨updated, -⟩ := (withoutTransfer_succeeds _ _ _ _).mp success
      obtain ⟨config, changed, rfl⟩ := (Market.onConfig_succeeds _ _ _ _).mp updated
      obtain ⟨-, rfl⟩ := (MarketConfig.updateMaxUtilisationRate_succeeds _ _ _ _).mp changed
      rfl
  | updateMaxSupplyAtoms maxSupplyAtoms =>
      obtain ⟨updated, -⟩ := (withoutTransfer_succeeds _ _ _ _).mp success
      obtain ⟨config, changed, rfl⟩ := (Market.onConfig_succeeds _ _ _ _).mp updated
      obtain rfl := (MarketConfig.updateMaxSupplyAtoms_succeeds _ _ _ _).mp changed
      rfl
  | setLendingMarketFee lendingMarketFeeInBps =>
      obtain ⟨updated, -⟩ := (withoutTransfer_succeeds _ _ _ _).mp success
      obtain ⟨config, changed, rfl⟩ := (Market.onConfig_succeeds _ _ _ _).mp updated
      obtain ⟨-, rfl⟩ := (MarketConfig.setLendingMarketFee_succeeds _ _ _ _).mp changed
      rfl
  | syncGlobalConfig globalConfig =>
      obtain ⟨updated, -⟩ := (withoutTransfer_succeeds _ _ _ _).mp success
      obtain ⟨config, changed, rfl⟩ := (Market.onConfig_succeeds _ _ _ _).mp updated
      obtain rfl := (MarketConfig.syncGlobalConfig_succeeds _ _ _ _).mp changed
      rfl
  | setSupplyOracleConfig oracleConfig =>
      obtain ⟨updated, -⟩ := (withoutTransfer_succeeds _ _ _ _).mp success
      obtain rfl := Market.setSupplyOracleConfig_succeeds _ _ _ _ updated
      rfl
  | setCollateralOracleConfig oracleConfig =>
      obtain ⟨updated, -⟩ := (withoutTransfer_succeeds _ _ _ _).mp success
      obtain rfl := Market.setCollateralOracleConfig_succeeds _ _ _ _ updated
      rfl

/-! The markets and positions among the lending states. -/

def LendingState.isLive : LendingState → Bool
  | .market state => LendingAccount.isInitialized state
  | .borrowPosition state => LendingAccount.isInitialized state
  | .supplyPosition state => LendingAccount.isInitialized state
  | .globalConfig _ | .liquidatorWhitelistEntry _ => false

/-- The slot holds no initialised market or position. -/
def Slot.Bare (slot : Slot) : Prop := ∀ state, slot.data = .lending state → state.isLive = false

theorem Slot.bare_of_state {T : Type} [LendingAccount T] {state : T}
    (dead : (LendingAccount.wrap state).isLive = false) : (Slot.of state).Bare := by
  rintro _ ⟨⟩
  exact dead

theorem Slot.bare_of_no_state {slot : Slot} (none : ∀ state, slot.data ≠ .lending state) :
    slot.Bare :=
  fun state some => absurd some (none state)

theorem Slot.Bare.not_holds {T : Type} [LendingAccount T] {state : T} {chain : Chain} {key : Pubkey}
    (bare : (chain key).Bare)
    (live : (LendingAccount.wrap state).isLive = LendingAccount.isInitialized state) :
    ¬ chain.Holds key state := by
  intro holds
  have dead := bare (LendingAccount.wrap state) (congrArg Slot.data holds.1)
  rw [live, holds.2] at dead
  cases dead

def Invocation.calledBack : Invocation → Option Instruction
  | .callback ix => some ix
  | _ => none

def Invocation.isTransfer : Invocation → Bool
  | .transfer .. => true
  | _ => false

namespace Transactions

/-! The markets and positions on a chain. -/

structure Shows {T : Type} [UserPosition T] (chain : Chain) (market position : Pubkey)
    (s : MarketWith T) : Prop where
  market_held : chain.Holds market s.market
  position_held : chain.Holds position s.position
  placed : UserPosition.market s.position = market

def putBoth {T : Type} [LendingAccount T] (chain : Chain) (market position : Pubkey)
    (s : MarketWith T) : Chain :=
  Function.update (Function.update chain market (Slot.of s.market)) position (Slot.of s.position)

/-- Both chains hold the same markets and positions. -/
structure SameAccounts (chain chain' : Chain) : Prop where
  market : ∀ key (m : Market), chain'.Holds key m ↔ chain.Holds key m
  supply : ∀ key (p : SupplyPosition), chain'.Holds key p ↔ chain.Holds key p
  borrow : ∀ key (p : BorrowPosition), chain'.Holds key p ↔ chain.Holds key p

theorem SameAccounts.of_slots {chain chain' : Chain}
    (slots : ∀ key, chain' key = chain key ∨ (chain key).Bare ∧ (chain' key).Bare) :
    SameAccounts chain chain' := by
  constructor
  all_goals
    intro key state
    rcases slots key with same | ⟨before, after⟩
    · unfold Chain.Holds
      rw [same]
    · exact iff_of_false (after.not_holds rfl) (before.not_holds rfl)

theorem SameAccounts.update {chain : Chain} {key : Pubkey} {slot : Slot} (before : (chain key).Bare)
    (after : slot.Bare) : SameAccounts chain (Function.update chain key slot) := by
  refine .of_slots fun other => ?_
  rcases eq_or_ne other key with rfl | differ
  · rw [Function.update_self]
    exact Or.inr ⟨before, after⟩
  · rw [Function.update_of_ne differ]
    exact Or.inl rfl

abbrev Flows := Pubkey → VaultSide → Int

def moved (key : Pubkey) (supplied collateral : Int) : Flows :=
  Pi.single key fun
    | .supply => supplied
    | .collateral => collateral

theorem moved_zero (key : Pubkey) : moved key 0 0 = 0 := by
  unfold moved
  rw [Pi.single_eq_zero_iff]
  funext side
  cases side <;> rfl

@[simp] theorem moved_supply (key : Pubkey) (supplied collateral : Int) :
    moved key supplied collateral key .supply = supplied := by
  rw [moved, Pi.single_eq_same]

@[simp] theorem moved_collateral (key : Pubkey) (supplied collateral : Int) :
    moved key supplied collateral key .collateral = collateral := by
  rw [moved, Pi.single_eq_same]

theorem moved_of_ne {key other : Pubkey} (differ : other ≠ key) (supplied collateral : Int) :
    moved key supplied collateral other = 0 := by
  rw [moved, Pi.single_eq_of_ne differ]

theorem moved_add (key : Pubkey) (supplied collateral supplied' collateral' : Int) :
    moved key supplied collateral + moved key supplied' collateral' =
      moved key (supplied + supplied') (collateral + collateral') := by
  unfold moved
  rw [← Pi.single_add]
  congr 1
  funext side
  cases side <;> rfl

def BorrowAuthorized (env : Environment) (infos : List AccountInfo) (chain : Chain)
    (market : Pubkey) (s : MarketWith BorrowPosition) : BorrowAction → Prop
  | .liquidate _ _ _ =>
      ∃ liquidator, SignedBy infos liquidator ∧ MayLiquidate env chain market s.market liquidator
  | .beginCapitalSweep _ _ | .settleCapitalSweep _ _ _ _ | .socializeLoss _ _ =>
      SignedBy infos s.market.config.curator
  | .depositCollateral _ | .withdrawCollateral _ _ _ | .borrow _ _ _ | .repay _ | .repayAll =>
      SignedBy infos s.position.authority

def MarketAuthorized (env : Environment) (infos : List AccountInfo) (chain : Chain) (m : Market) :
    MarketAction → Prop
  | .donateSupplyAtoms _ => ∃ donor, SignedBy infos donor
  | .syncClock _ => True
  | .redeemProtocolFees => RedeemerSigns env infos chain
  | .syncGlobalConfig g =>
      SignedBy infos m.config.curator ∧ chain.Holds env.findGlobalConfigPda.1 g
  | .redeemCuratorFess | .updateLtv _ | .updateMaxUtilisationRate _ | .updateMaxSupplyAtoms _
  | .setLendingMarketFee _ | .setSupplyOracleConfig _ | .setCollateralOracleConfig _ =>
      SignedBy infos m.config.curator

def withWhitelist (m : Market) (count : U64) : Market :=
  { m with config := { m.config with activeWhitelistedLiquidators := count } }

/-- One operation that an instruction makes on the chain, with the atoms that it moves. -/
inductive Step (env : Environment) (infos : List AccountInfo) (chain : Chain) :
    Flows → Chain → Prop
  | supply (market position : Pubkey) (s s' : MarketWith SupplyPosition) (action : SupplyAction)
      (atoms : Int) (shown : Shows chain market position s)
      (signed : SignedBy infos s.position.authority)
      (executed : action.execute.Succeeds s atoms s') :
      Step env infos chain (moved market atoms 0) (putBoth chain market position s')
  | borrow (market position : Pubkey) (s s' : MarketWith BorrowPosition) (action : BorrowAction)
      (atoms : Int) (shown : Shows chain market position s)
      (authorized : BorrowAuthorized env infos chain market s action)
      (executed : action.execute.Succeeds s atoms s') :
      Step env infos chain (moved market atoms (s'.market.collateral - s.market.collateral))
        (putBoth chain market position s')
  | market (key : Pubkey) (m m' : Market) (action : MarketAction) (atoms : Int)
      (held : chain.Holds key m) (authorized : MarketAuthorized env infos chain m action)
      (executed : action.execute.Succeeds m atoms m') :
      Step env infos chain (moved key atoms 0) (Function.update chain key (Slot.of m'))
  | whitelist (key : Pubkey) (m : Market) (count : U64) (held : chain.Holds key m)
      (signed : SignedBy infos m.config.curator) :
      Step env infos chain 0 (Function.update chain key (Slot.of (withWhitelist m count)))
  | createMarket (key : Pubkey) (data : Market.CreateMarket) (unixTimestamp : Int64) (m : Market)
      (vacant : chain key = ⟨env.systemProgramId, .empty⟩)
      (created : (Market.processCreateMarket data unixTimestamp).Succeeds .zeroed () m)
      (derived : ∀ side, (m.vaultKeys side).vault =
        env.getAssociatedTokenAddress key (m.vaultKeys side).mint)
      (signed : SignedBy infos data.curator) :
      Step env infos chain 0 (Function.update chain key (Slot.of m))
  | createSupplyPosition (market position authority : Pubkey) (m : Market)
      (held : chain.Holds market m) (vacant : chain position = ⟨env.systemProgramId, .empty⟩)
      (signed : SignedBy infos authority) :
      Step env infos chain 0
        (Function.update chain position (Slot.of (SupplyPosition.new authority market)))
  | createBorrowPosition (market position authority : Pubkey) (m : Market)
      (held : chain.Holds market m) (vacant : chain position = ⟨env.systemProgramId, .empty⟩)
      (signed : SignedBy infos authority) :
      Step env infos chain 0
        (Function.update chain position
          (Slot.of (BorrowPosition.initializePosition authority market)))
  | other (chain' : Chain) (same : SameAccounts chain chain') : Step env infos chain 0 chain'

/-- Operations one after the other, with all that they move. -/
inductive Path (env : Environment) (infos : List AccountInfo) (start : Chain) :
    Flows → Chain → Prop
  | refl : Path env infos start 0 start
  | snoc (flows flows' : Flows) (mid final : Chain) (before : Path env infos start flows mid)
      (last : Step env infos mid flows' final) : Path env infos start (flows + flows') final

theorem Step.path {env : Environment} {infos : List AccountInfo} {chain chain' : Chain}
    {flows : Flows} (step : Step env infos chain flows chain') :
    Path env infos chain flows chain' := by
  have single := Path.snoc 0 flows chain chain' .refl step
  rwa [zero_add] at single

/-! What the events report of the flows. -/

/-- What a reported flow brings in. -/
def netAmount (flow : Flow) : Int :=
  match flow.direction with
  | .inward => flow.amount
  | .outward => -flow.amount

def netFlow (flow : Flow) : Flows :=
  match flow.side with
  | .supply => moved flow.market (netAmount flow) 0
  | .collateral => moved flow.market 0 (netAmount flow)

def netFlows (events : List AutaraEvent) : Flows :=
  ((events.flatMap AutaraEvent.flows).map netFlow).sum

@[simp] theorem netFlows_nil : netFlows [] = 0 := rfl

theorem netFlows_append (first second : List AutaraEvent) :
    netFlows (first ++ second) = netFlows first + netFlows second := by
  simp only [netFlows, List.flatMap_append, List.map_append, List.sum_append]

theorem netFlows_single {event : AutaraEvent} {flow : Flow} (flows : event.flows = [flow]) :
    netFlows [event] = netFlow flow := by
  simp only [netFlows, List.flatMap_singleton, flows, List.map_singleton, List.sum_singleton]

theorem netFlows_double {event : AutaraEvent} {flow flow' : Flow}
    (flows : event.flows = [flow, flow']) : netFlows [event] = netFlow flow + netFlow flow' := by
  simp only [netFlows, List.flatMap_singleton, flows, List.map_cons, List.map_nil, List.sum_cons,
    List.sum_nil, add_zero]

theorem netFlows_unreported {event : AutaraEvent} (flows : event.flows = []) :
    netFlows [event] = 0 := by
  simp only [netFlows, List.flatMap_singleton, flows, List.map_nil, List.sum_nil]

/-- The call is signed for: by an account that signs the instruction, or with the seeds of a market,
for a transfer from one of its own vaults. -/
def Authorised (infos : List AccountInfo) (chain : Chain) : Invocation → Prop
  | .log market _ seeds => ∃ m, chain.Holds (T := Market) market m ∧ seeds = m.seed
  | .transfer source _ authority _ seeds =>
      seeds = [] ∧ SignedBy infos authority ∨
        ∃ m side, chain.Holds (T := Market) authority m ∧ seeds = m.seed ∧
          source = (m.vaultKeys side).vault
  | .createAccount payer target .market seeds =>
      SignedBy infos payer ∧ ∃ m, chain target = Slot.of (T := Market) m ∧ seeds = m.seed
  | .createAccount payer _ _ _ | .createAta payer _ _ _ => SignedBy infos payer
  | .callback _ => True

/-- The call is the transfer that a flow stands for: with the signature of a user into the vault of
the market, or with that of the market out of it. -/
def Carries (infos : List AccountInfo) (chain : Chain) (flow : Flow) : Invocation → Prop
  | .transfer source destination authority amount seeds =>
      flow.amount = amount.toNat ∧ ∃ m, chain.Holds (T := Market) flow.market m ∧
        match flow.direction with
        | .inward =>
            seeds = [] ∧ SignedBy infos authority ∧ destination = (m.vaultKeys flow.side).vault
        | .outward =>
            authority = flow.market ∧ seeds = m.seed ∧ source = (m.vaultKeys flow.side).vault
  | _ => False

theorem Carries.authorised {infos : List AccountInfo} {chain : Chain} {flow : Flow}
    {call : Invocation} (carries : Carries infos chain flow call) :
    Authorised infos chain call := by
  obtain ⟨market, side, direction, reported, mint⟩ := flow
  cases call with
  | transfer source destination authority amount seeds =>
      obtain ⟨-, m, held, ends⟩ := carries
      cases direction with
      | inward => exact Or.inl ⟨ends.1, ends.2.1⟩
      | outward =>
          obtain ⟨rfl, signed, paid⟩ := ends
          exact Or.inr ⟨m, side, held, signed, paid⟩
  | createAccount | createAta | log | callback => cases carries

/-- The callback of an instruction, where it makes one, comes after everything that it writes. -/
inductive EndsWith (ctx : Context) (calls : List Invocation) (written : Chain) : Chain → Prop
  | quiet (none : calls.filterMap Invocation.calledBack = []) : EndsWith ctx calls written written
  | callback (ix : Instruction) (one : calls.filterMap Invocation.calledBack = [ix]) :
      EndsWith ctx calls written (ctx.callback ix written)

/-- What an instruction has done: operations that write the chain, events that report all that they
move and every transfer, calls that are signed for, and a callback at the end. -/
structure Processed (env : Environment) (ctx : Context) (infos : List AccountInfo) (w : World)
    (calls : List Invocation) (written : Chain) (w' : World) : Prop where
  path : Path env infos w.chain (netFlows (calls.filterMap Invocation.logged)) written
  recorded : w'.invocations = w.invocations ++ calls
  authorised : ∀ call ∈ calls, Authorised infos written call
  carried : List.Forall₂ (Carries infos written)
    ((calls.filterMap Invocation.logged).flatMap AutaraEvent.flows)
    (calls.filter Invocation.isTransfer)
  ends : EndsWith ctx calls written w'.chain

end Transactions

end AutaraLending
