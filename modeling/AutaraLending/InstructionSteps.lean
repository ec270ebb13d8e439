import AutaraLending.TransactionStep

/-! Every instruction of the program, as operations on the chain. -/

namespace AutaraLending

open Support

/-- An account that holds a position holds no market, and a position has an authority. -/
class PositionAccount (T : Type) [UserPosition T] : Prop where
  apart : ∀ (position : T) (m : Market), Slot.of position ≠ Slot.of m
  initialized : ∀ position : T, LendingAccount.isInitialized position =
    decide (UserPosition.authority position ≠ zeroedPubkey)

instance : PositionAccount SupplyPosition where
  apart position m same := by cases congrArg Slot.data same
  initialized _ := rfl

instance : PositionAccount BorrowPosition where
  apart position m same := by cases congrArg Slot.data same
  initialized _ := rfl

namespace Transactions

/-! Operations on a market and one of its positions. -/

section Sessions

variable {T : Type} [UserPosition T] {chain : Chain} {market position : Pubkey}
  {s s' : MarketWith T} {env : Environment} {ctx : Context} {infos : List AccountInfo}

theorem putBoth_putBoth (distinct : market ≠ position) :
    putBoth (putBoth chain market position s) market position s' =
      putBoth chain market position s' := by
  unfold putBoth
  rw [Function.update_comm distinct.symm, Function.update_idem, Function.update_idem]


variable [PositionAccount T]

theorem Shows.distinct (shown : Shows chain market position s) : market ≠ position := by
  rintro rfl
  exact PositionAccount.apart _ _ (shown.position_held.1.symm.trans shown.market_held.1)

/-- Storing both states is writing both accounts. -/
theorem Shows.put_eq (shown : Shows chain market position s) :
    (chain.put market s'.market).put position s'.position = putBoth chain market position s' := by
  rw [Chain.put_of chain market shown.market_held.1, Chain.put_of _ position]
  · rfl
  · rw [Function.update_of_ne shown.distinct.symm]
    exact shown.position_held.1

theorem Shows.putBoth (shown : Shows chain market position s)
    (identity : s'.market.identity = s.market.identity)
    (owned : OwnedBy (UserPosition.authority s.position) market s'.position) :
    Shows (putBoth chain market position s') market position s' where
  market_held := by
    refine ⟨?_, (Market.isInitialized_of_identity identity).trans shown.market_held.2⟩
    rw [Transactions.putBoth, Function.update_of_ne shown.distinct, Function.update_self]
  position_held := by
    refine ⟨?_, ?_⟩
    · rw [Transactions.putBoth, Function.update_self]
    · rw [PositionAccount.initialized, owned.1, ← PositionAccount.initialized]
      exact shown.position_held.2
  placed := owned.2

omit [UserPosition T] [PositionAccount T] in
/-- Loading the prices accrues interest and leaves the position alone. -/
theorem wrapperMut_succeeds {supplyOracle collateralOracle : AccountInfo}
    {oracles : OracleRate × OracleRate}
    (success : (MarketWith.wrapperMut ctx supplyOracle collateralOracle).Succeeds s oracles s') :
    s'.position = s.position ∧
      (MarketAction.syncClock ctx.unixTimestamp).execute.Succeeds s.market 0 s'.market := by
  simp only [MarketWith.wrapperMut, Method.succeeds_bind, Method.succeeds_self,
    Method.succeeds_lift, MarketWith.onMarket_succeeds, Method.succeeds_pure] at success
  obtain ⟨_, _, ⟨rfl, rfl⟩, _, _, ⟨-, rfl⟩, _, _, ⟨m, synced, rfl⟩, -, rfl⟩ := success
  exact ⟨rfl, (withoutTransfer_succeeds _ _ _ _).mpr ⟨synced, rfl⟩⟩

theorem Shows.wrapperMut (shown : Shows chain market position s)
    {supplyOracle collateralOracle : AccountInfo} {oracles : OracleRate × OracleRate}
    (success : (MarketWith.wrapperMut ctx supplyOracle collateralOracle).Succeeds s oracles s') :
    Step env infos chain 0 (Transactions.putBoth chain market position s') ∧
      Shows (Transactions.putBoth chain market position s') market position s' := by
  obtain ⟨position_eq, synced⟩ := wrapperMut_succeeds success
  constructor
  · have unchanged : Transactions.putBoth chain market position s' =
        Function.update chain market (Slot.of s'.market) := by
      unfold Transactions.putBoth
      rw [position_eq, ← shown.position_held.1]
      exact Function.update_eq_self_iff.mpr (Function.update_of_ne shown.distinct.symm _ _).symm
    rw [unchanged, ← moved_zero market]
    exact .market market s.market s'.market (.syncClock ctx.unixTimestamp) 0 shown.market_held
      trivial synced
  · exact shown.putBoth (MarketAction.execute_identity _ _ _ _ synced)
      ⟨by rw [position_eq], by rw [position_eq, shown.placed]⟩

end Sessions

section Sessions

variable {chain : Chain} {market position : Pubkey} {env : Environment} {ctx : Context}
  {infos : List AccountInfo} {atoms : Int}

variable (env) in
theorem Shows.supply {s s' : MarketWith SupplyPosition} {action : SupplyAction}
    (shown : Shows chain market position s) (signed : SignedBy infos s.position.authority)
    (executed : action.execute.Succeeds s atoms s') :
    Step env infos chain (moved market atoms 0) (Transactions.putBoth chain market position s') ∧
      Shows (Transactions.putBoth chain market position s') market position s' := by
  refine ⟨.supply market position s s' action atoms shown signed executed, ?_⟩
  exact shown.putBoth (action.execute_effect _ _ _ executed).identity
    (action.execute_owner.succeeds executed ⟨rfl, shown.placed⟩)

theorem Shows.borrow {s s' : MarketWith BorrowPosition} {action : BorrowAction}
    (shown : Shows chain market position s)
    (authorized : BorrowAuthorized env infos chain market s action)
    (executed : action.execute.Succeeds s atoms s') :
    Step env infos chain (moved market atoms (s'.market.collateral - s.market.collateral))
        (Transactions.putBoth chain market position s') ∧
      Shows (Transactions.putBoth chain market position s') market position s' := by
  refine ⟨.borrow market position s s' action atoms shown authorized executed, ?_⟩
  exact shown.putBoth (action.execute_effect _ _ _ executed).identity
    (action.execute_owner.succeeds executed ⟨rfl, shown.placed⟩)

end Sessions

/-! What an instruction has done to the accounts of a market and a position before it makes its
calls. -/

structure Session {T : Type} [UserPosition T] (env : Environment) (infos : List AccountInfo)
    (chain : Chain) (market position : Pubkey) (s₀ : MarketWith T) (flows : Flows)
    (s : MarketWith T) : Prop where
  start : Shows chain market position s₀
  path : Path env infos chain flows (putBoth chain market position s)
  shown : Shows (putBoth chain market position s) market position s
  identity : s.market.identity = s₀.market.identity
  config : s.market.config = s₀.market.config
  owner : UserPosition.authority s.position = UserPosition.authority s₀.position

section Sessions

variable {T : Type} [UserPosition T] [PositionAccount T] {chain : Chain} {market position : Pubkey}
  {env : Environment} {ctx : Context} {infos : List AccountInfo} {atoms : Int} {flows : Flows}

variable (env) in
theorem Session.opened {s₀ s : MarketWith T} (shown : Shows chain market position s₀)
    {supplyOracle collateralOracle : AccountInfo} {oracles : OracleRate × OracleRate}
    (wrapped : (MarketWith.wrapperMut ctx supplyOracle collateralOracle).Succeeds s₀ oracles s) :
    Session env infos chain market position s₀ 0 s := by
  obtain ⟨position_eq, synced⟩ := wrapperMut_succeeds wrapped
  obtain ⟨step, shown'⟩ := shown.wrapperMut wrapped
  refine ⟨shown, step.path, shown', MarketAction.execute_identity _ _ _ _ synced, ?_,
    by rw [position_eq]⟩
  exact Market.syncClock_config _ _ _ _ ((withoutTransfer_succeeds _ _ _ _).mp synced).1

theorem Session.supply {s₀ s s' : MarketWith SupplyPosition} {action : SupplyAction}
    (session : Session env infos chain market position s₀ flows s)
    (executed : action.execute.Succeeds s atoms s')
    (signed : SignedBy infos s₀.position.authority) :
    Session env infos chain market position s₀ (flows + moved market atoms 0) s' := by
  have owner : s.position.authority = s₀.position.authority := session.owner
  obtain ⟨step, shown⟩ := session.shown.supply env (owner ▸ signed) executed
  rw [putBoth_putBoth session.shown.distinct] at step shown
  refine ⟨session.start, session.path.snoc _ _ _ _ step, shown,
    (action.execute_effect _ _ _ executed).identity.trans session.identity, ?_, ?_⟩
  · rw [(action.execute_effect _ _ _ executed).market_eq]
    exact session.config
  · exact (action.execute_owner.succeeds executed ⟨rfl, session.shown.placed⟩).1.trans owner

theorem Session.borrow {s₀ s s' : MarketWith BorrowPosition} {action : BorrowAction}
    (session : Session env infos chain market position s₀ flows s)
    (executed : action.execute.Succeeds s atoms s')
    (authorized : BorrowAuthorized env infos (putBoth chain market position s) market s action) :
    Session env infos chain market position s₀
      (flows + moved market atoms (s'.market.collateral - s.market.collateral)) s' := by
  obtain ⟨step, shown⟩ := session.shown.borrow authorized executed
  rw [putBoth_putBoth session.shown.distinct] at step shown
  refine ⟨session.start, session.path.snoc _ _ _ _ step, shown,
    (action.execute_effect _ _ _ executed).identity.trans session.identity, ?_, ?_⟩
  · rw [(action.execute_effect _ _ _ executed).config]
    exact session.config
  · exact (action.execute_owner.succeeds executed ⟨rfl, session.shown.placed⟩).1.trans session.owner

omit [PositionAccount T] in
theorem Session.vault {s₀ s : MarketWith T} {side : VaultSide} {vault : Pubkey}
    (session : Session env infos chain market position s₀ flows s)
    (vault_eq : (s₀.market.vaultKeys side).vault = vault) :
    (s.market.vaultKeys side).vault = vault := by
  have keys : s.market.vaultKeys = s₀.market.vaultKeys :=
    congrArg MarketIdentity.vaultKeys session.identity
  rw [keys, vault_eq]

theorem Session.mayLiquidate {s₀ s : MarketWith BorrowPosition} {liquidator : Pubkey}
    (session : Session env infos chain market position s₀ flows s)
    (may : MayLiquidate env chain market s₀.market liquidator) :
    MayLiquidate env (putBoth chain market position s) market s.market liquidator := by
  intro listed
  rw [session.config] at listed
  obtain ⟨entry, held, active⟩ := may listed
  refine ⟨entry, ?_, active⟩
  have apart : ∀ key slot, chain key = slot → slot ≠ Slot.of (T := LiquidatorWhitelistEntry) entry →
      (env.findLiquidatorWhitelistEntryPda market liquidator).1 ≠ key := by
    rintro key _ rfl differ rfl
    exact differ held
  unfold putBoth
  rw [Function.update_of_ne (apart _ _ session.start.position_held.1 ?_),
    Function.update_of_ne (apart _ _ session.start.market_held.1 (market_ne_entry _ _))]
  · exact held
  · intro same
    cases congrArg Slot.data same

end Sessions

/-! What an instruction has done to the account of a market alone. -/

structure MarketSession (env : Environment) (infos : List AccountInfo) (chain : Chain)
    (key : Pubkey) (m₀ : Market) (flows : Flows) (m : Market) : Prop where
  start : chain.Holds key m₀
  path : Path env infos chain flows (Function.update chain key (Slot.of m))
  identity : m.identity = m₀.identity

section MarketSessions

variable {env : Environment} {ctx : Context} {infos : List AccountInfo} {chain : Chain}
    {key : Pubkey} {m₀ m m' : Market} {flows : Flows} {atoms : Int}

variable (env infos) in
theorem MarketSession.opened (held : chain.Holds key m₀) :
    MarketSession env infos chain key m₀ 0 m₀ := by
  refine ⟨held, ?_, rfl⟩
  rw [← held.1, Function.update_eq_self]
  exact .refl

theorem MarketSession.held (session : MarketSession env infos chain key m₀ flows m) :
    Chain.Holds (Function.update chain key (Slot.of m)) key m :=
  .update_self ((Market.isInitialized_of_identity session.identity).trans session.start.2) _ rfl

theorem MarketSession.curator (session : MarketSession env infos chain key m₀ flows m) :
    m.config.curator = m₀.config.curator :=
  congrArg MarketIdentity.curator session.identity

theorem MarketSession.vault {side : VaultSide} {vault : Pubkey}
    (session : MarketSession env infos chain key m₀ flows m)
    (vault_eq : (m₀.vaultKeys side).vault = vault) : (m.vaultKeys side).vault = vault := by
  have keys : m.vaultKeys = m₀.vaultKeys := congrArg MarketIdentity.vaultKeys session.identity
  rw [keys, vault_eq]

theorem MarketSession.globalConfig {other : Pubkey} {g : GlobalConfig}
    (session : MarketSession env infos chain key m₀ flows m) (held : chain.Holds other g) :
    Chain.Holds (Function.update chain key (Slot.of m)) other g := by
  refine held.update_of_ne ?_ _
  rintro rfl
  cases congrArg Slot.data (held.1.symm.trans session.start.1)

theorem MarketSession.act {action : MarketAction}
    (session : MarketSession env infos chain key m₀ flows m)
    (executed : action.execute.Succeeds m atoms m')
    (authorized :
      MarketAuthorized env infos (Function.update chain key (Slot.of m)) m action) :
    MarketSession env infos chain key m₀ (flows + moved key atoms 0) m' := by
  have step := Step.market key m m' action atoms session.held authorized executed
  rw [Function.update_idem] at step
  exact ⟨session.start, session.path.snoc _ _ _ _ step,
    (action.execute_identity _ _ _ executed).trans session.identity⟩

theorem MarketSession.update {method : LendingMethod Market Unit} {u : Unit}
    (session : MarketSession env infos chain key m₀ flows m) (action : MarketAction)
    (executes : action.execute = withoutTransfer method) (executed : method.Succeeds m u m')
    (authorized :
      MarketAuthorized env infos (Function.update chain key (Slot.of m)) m action) :
    MarketSession env infos chain key m₀ flows m' := by
  have executed : action.execute.Succeeds m 0 m' := by
    rw [executes]
    exact (withoutTransfer_succeeds _ _ _ _).mpr ⟨executed, rfl⟩
  have acted := session.act executed authorized
  rwa [moved_zero, add_zero] at acted

theorem MarketSession.updateSome {α : Type} {x : Option α} {method : α → LendingMethod Market Unit}
    {u : Unit} (session : MarketSession env infos chain key m₀ flows m) (action : α → MarketAction)
    (executes : ∀ a, (action a).execute = withoutTransfer (method a))
    (executed : (ifSome x method).Succeeds m u m')
    (authorized : ∀ a, MarketAuthorized env infos (Function.update chain key (Slot.of m)) m
      (action a)) :
    MarketSession env infos chain key m₀ flows m' := by
  rcases (ifSome_succeeds _ _ _ _ _).mp executed with ⟨-, rfl⟩ | ⟨a, -, made⟩
  · exact session
  · exact session.update (action a) (executes a) made (authorized a)

end MarketSessions

section Calls

open Program

variable {env : Environment} {ctx : Context} {infos : List AccountInfo} {w w₁ w₂ w₃ w₄ w' : World}
  {u v : Unit} {market source destination authority source' destination' authority' : Pubkey}
  {event : AutaraEvent} {amount amount' : U64} {seed seeds seeds' : List (List UInt8)}
  {flows : Flows} {m : Market}

theorem invoke_log (success : (invoke env ctx (.log market event seed)).Succeeds w u w') :
    w'.chain = w.chain ∧ w'.invocations = w.invocations ++ [.log market event seed] := by
  obtain ⟨-, effect, recorded⟩ := (invoke_succeeds _ _ _ _ _ _).mp success
  exact ⟨(Except.ok.inj effect).symm, recorded⟩

theorem invoke_transfer
    (success : (invoke env ctx (.transfer source destination authority amount seeds)).Succeeds w u
      w') :
    w'.chain = w.chain ∧
      w'.invocations = w.invocations ++ [.transfer source destination authority amount seeds] := by
  obtain ⟨-, effect, recorded⟩ := (invoke_succeeds _ _ _ _ _ _).mp success
  exact ⟨(Except.ok.inj effect).symm, recorded⟩

theorem invokeCallback_succeeds (callback : Option Instruction)
    (success : (invokeCallback env ctx callback).Succeeds w u w') :
    EndsWith ctx (callback.map Invocation.callback).toList w.chain w'.chain ∧
      w'.invocations = w.invocations ++ (callback.map Invocation.callback).toList := by
  rcases (ifSome_succeeds _ _ _ _ _).mp success with ⟨rfl, rfl⟩ | ⟨ix, rfl, called⟩
  · exact ⟨.quiet rfl, (List.append_nil _).symm⟩
  · obtain ⟨-, effect, recorded⟩ := (invoke_succeeds _ _ _ _ _ _).mp called
    rw [← Except.ok.inj effect]
    exact ⟨.callback ix rfl, recorded⟩

theorem EndsWith.of_calledBack {ctx : Context} {calls calls' : List Invocation}
    {written final : Chain} (ends : EndsWith ctx calls written final)
    (same : calls'.filterMap Invocation.calledBack = calls.filterMap Invocation.calledBack) :
    EndsWith ctx calls' written final := by
  cases ends with
  | quiet none => exact .quiet (same.trans none)
  | callback ix one => exact .callback ix (same.trans one)

theorem carries_inward {chain : Chain} {flow : Flow} (market_eq : flow.market = market)
    (amount_eq : flow.amount = amount.toNat) (direction_eq : flow.direction = .inward)
    (held : chain.Holds market m) (signed : SignedBy infos authority)
    (vault_eq : (m.vaultKeys flow.side).vault = destination) :
    Carries infos chain flow (.transfer source destination authority amount []) := by
  obtain ⟨_, side, _, _, mint⟩ := flow
  obtain rfl := market_eq
  obtain rfl := direction_eq
  exact ⟨amount_eq, m, held, rfl, signed, vault_eq.symm⟩

theorem carries_outward {chain : Chain} {flow : Flow} (market_eq : flow.market = market)
    (amount_eq : flow.amount = amount.toNat) (direction_eq : flow.direction = .outward)
    (held : chain.Holds market m) (seed_eq : seeds = m.seed)
    (vault_eq : (m.vaultKeys flow.side).vault = source) :
    Carries infos chain flow (.transfer source destination market amount seeds) := by
  obtain ⟨_, side, _, _, mint⟩ := flow
  obtain rfl := market_eq
  obtain rfl := direction_eq
  exact ⟨amount_eq, m, held, rfl, seed_eq, vault_eq.symm⟩

theorem processed_of_transfer {flow : Flow} (start : w₁.invocations = w.invocations)
    (path : Path env infos w.chain (netFlows [event]) w₁.chain) (held : w₁.chain.Holds market m)
    (logged : (invoke env ctx (.log market event seed)).Succeeds w₁ u w₂)
    (transferred : (invoke env ctx
      (.transfer source destination authority amount seeds)).Succeeds w₂ v w')
    (seed_eq : seed = m.seed) (flows : event.flows = [flow])
    (carries : Carries infos w₁.chain flow
      (.transfer source destination authority amount seeds)) :
    ∃ calls, Processed env ctx infos w calls w'.chain w' := by
  obtain ⟨chain_eq, logged⟩ := invoke_log logged
  obtain ⟨chain_eq', transferred⟩ := invoke_transfer transferred
  rw [← chain_eq, ← chain_eq'] at path held carries
  refine ⟨[.log market event seed, .transfer source destination authority amount seeds], path, ?_,
    ?_, ?_, .quiet rfl⟩
  · rw [transferred, logged, start, List.append_assoc]
    rfl
  · rintro call (_ | ⟨_, _ | ⟨_, ⟨⟩⟩⟩)
    · exact ⟨m, held, seed_eq⟩
    · exact carries.authorised
  · change List.Forall₂ _ (event.flows ++ []) _
    rw [flows]
    exact .cons carries .nil

theorem processed_of_transfers {flow flow' : Flow} (callback : Option Instruction)
    (start : w₁.invocations = w.invocations)
    (path : Path env infos w.chain (netFlows [event]) w₁.chain) (held : w₁.chain.Holds market m)
    (logged : (invoke env ctx (.log market event seed)).Succeeds w₁ u w₂)
    (transferred : (invoke env ctx
      (.transfer source destination authority amount seeds)).Succeeds w₂ v w₃)
    (called : (invokeCallback env ctx callback).Succeeds w₃ u w₄)
    (transferred' : (invoke env ctx
      (.transfer source' destination' authority' amount' seeds')).Succeeds w₄ v w')
    (seed_eq : seed = m.seed) (flows : event.flows = [flow, flow'])
    (carries : Carries infos w₁.chain flow (.transfer source destination authority amount seeds))
    (carries' : Carries infos w₁.chain flow'
      (.transfer source' destination' authority' amount' seeds')) :
    ∃ calls, Processed env ctx infos w calls w₁.chain w' := by
  obtain ⟨chain_eq, logged⟩ := invoke_log logged
  obtain ⟨chain_eq', transferred⟩ := invoke_transfer transferred
  obtain ⟨ends, called⟩ := invokeCallback_succeeds callback called
  obtain ⟨chain_eq'', transferred'⟩ := invoke_transfer transferred'
  rw [chain_eq', chain_eq] at ends
  refine ⟨[.log market event seed, .transfer source destination authority amount seeds] ++
      (callback.map Invocation.callback).toList ++
      [.transfer source' destination' authority' amount' seeds'], ?_, ?_, ?_, ?_, ?_⟩
  · have unlogged : ((callback.map Invocation.callback).toList).filterMap Invocation.logged =
        [] := by
      cases callback <;> rfl
    rw [List.filterMap_append, List.filterMap_append, unlogged]
    exact path
  · rw [transferred', called, transferred, logged, start]
    simp only [List.append_assoc, List.cons_append, List.nil_append]
  · intro call member
    rcases List.mem_append.mp member with member | member
    · rcases List.mem_append.mp member with member | member
      · rcases member with _ | ⟨_, _ | ⟨_, ⟨⟩⟩⟩
        · exact ⟨m, held, seed_eq⟩
        · exact carries.authorised
      · cases callback with
        | none => cases member
        | some ix =>
            obtain rfl := List.mem_singleton.mp member
            trivial
    · obtain rfl := List.mem_singleton.mp member
      exact carries'.authorised
  · cases callback with
    | none =>
        change List.Forall₂ _ (event.flows ++ []) _
        rw [flows]
        exact .cons carries (.cons carries' .nil)
    | some ix =>
        change List.Forall₂ _ (event.flows ++ []) _
        rw [flows]
        exact .cons carries (.cons carries' .nil)
  · rw [chain_eq'']
    refine ends.of_calledBack ?_
    rw [List.filterMap_append, List.filterMap_append]
    exact List.append_nil _

end Calls

end Transactions

end AutaraLending
