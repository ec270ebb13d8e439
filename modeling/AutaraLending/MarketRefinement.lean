import AutaraLending.LiquidatorWhitelist
import AutaraLending.MarketView
import Mathlib.Algebra.BigOperators.Finprod

/-! Every market on the chain is a ledger that a run of operations has led to, whatever
instructions, callbacks and programs have run and however they are interleaved. What is proved of
ledgers holds of the accounts of the chain. -/

namespace AutaraLending

open Support

namespace Ledger

variable {σ β : Type} [DecidableEq σ] [DecidableEq β] {l : Ledger σ β}

theorem Reachable.supply (reachable : l.Reachable) {key : σ} {action : SupplyAction} {atoms : Int}
    {s : MarketWith SupplyPosition} (success : action.execute.Succeeds (l.supplyView key) atoms s) :
    ((l.storeSupply key s).receive atoms).Reachable :=
  reachable.snoc ((execute_supply_succeeds key action l _ ()).mpr ⟨atoms, s, success, rfl⟩)

theorem Reachable.borrow (reachable : l.Reachable) {key : β} {action : BorrowAction} {atoms : Int}
    {s : MarketWith BorrowPosition} (success : action.execute.Succeeds (l.borrowView key) atoms s) :
    ((l.storeBorrow key s).receive atoms).Reachable :=
  reachable.snoc ((execute_borrow_succeeds key action l _ ()).mpr ⟨atoms, s, success, rfl⟩)

theorem Reachable.market (reachable : l.Reachable) {action : MarketAction} {atoms : Int}
    {m : Market} (success : action.execute.Succeeds l.market atoms m) :
    ({ l with market := m, cash := l.cash + atoms } : Ledger σ β).Reachable :=
  reachable.snoc ((execute_market_succeeds action l _ ()).mpr ⟨atoms, m, success, rfl⟩)

end Ledger

namespace Transactions

variable {env : Environment} {infos : List AccountInfo} {chain chain' : Chain} {flows : Flows}
  {key : Pubkey}

/-- Every position is one of a market of the chain. -/
def Placed (T : Type) [UserPosition T] (chain : Chain) : Prop :=
  ∀ key (p : T), chain.Holds key p → ∃ m : Market, chain.Holds (UserPosition.market p) m

/-- The market in an account is a ledger that operations have led to, whoever may come to own the
positions that are not there yet. -/
def LedgerOf (chain : Chain) (key : Pubkey) (m : Market) (cash : Int) : Prop :=
  ∀ suppliers borrowers, (marketLedger chain key m suppliers borrowers cash).Reachable

theorem LedgerOf.of_views {m m' : Market} {cash : Int} (ledger : LedgerOf chain key m cash)
    (market : m'.withoutWhitelist = m.withoutWhitelist)
    (supply : ∀ owners, ∃ owners', positionAt SupplyPosition.new chain' key owners =
      positionAt SupplyPosition.new chain key owners')
    (borrow : ∀ owners, ∃ owners', positionAt BorrowPosition.initializePosition chain' key owners =
      positionAt BorrowPosition.initializePosition chain key owners') :
    LedgerOf chain' key m' cash := by
  intro suppliers borrowers
  obtain ⟨suppliers', supply⟩ := supply suppliers
  obtain ⟨borrowers', borrow⟩ := borrow borrowers
  have kept := ledger suppliers' borrowers'
  rwa [marketLedger, ← supply, ← borrow, ← market] at kept

theorem LedgerOf.keep {m : Market} {cash : Int} (ledger : LedgerOf chain key m cash)
    (supply : ∀ owners, positionAt SupplyPosition.new chain' key owners =
      positionAt SupplyPosition.new chain key owners)
    (borrow : ∀ owners, positionAt BorrowPosition.initializePosition chain' key owners =
      positionAt BorrowPosition.initializePosition chain key owners) : LedgerOf chain' key m cash :=
  ledger.of_views rfl (fun owners => ⟨owners, supply owners⟩) fun owners => ⟨owners, borrow owners⟩

theorem borrow_apart (q : BorrowPosition) (p : SupplyPosition) : Slot.of q ≠ Slot.of p := by
  intro same
  cases congrArg Slot.data same

theorem supply_apart (q : SupplyPosition) (p : BorrowPosition) : Slot.of q ≠ Slot.of p :=
  (borrow_apart p q).symm

theorem not_holds_vacant {T : Type} [LendingAccount T] {owner : Pubkey}
    (vacant : chain key = ⟨owner, .empty⟩) (t : T) : ¬ chain.Holds key t :=
  fun held => absurd rfl (held.ne_vacant vacant)

theorem LedgerOf.supply {market position : Pubkey} {s s' : MarketWith SupplyPosition}
    {action : SupplyAction} {atoms cash : Int} (ledger : LedgerOf chain market s.market cash)
    (shown : Shows chain market position s)
    (shown' : Shows (putBoth chain market position s') market position s')
    (executed : action.execute.Succeeds s atoms s') :
    LedgerOf (putBoth chain market position s') market s'.market (cash + atoms) := by
  intro suppliers borrowers
  have blind := action.execute_blind.succeeds executed
  have view : (marketLedger chain market s.market suppliers borrowers cash).supplyView position =
      s.withoutWhitelist := by
    simp only [Ledger.supplyView, marketLedger,
      positionAt_of_holds shown.position_held shown.placed]
    rfl
  rw [← view] at blind
  have reached := (ledger suppliers borrowers).supply blind
  rw [marketLedger, positionAt_putBoth shown shown'.position_held.2 shown'.placed,
    positionAt_putBoth_other borrow_apart shown s']
  exact reached

theorem LedgerOf.borrow {market position : Pubkey} {s s' : MarketWith BorrowPosition}
    {action : BorrowAction} {atoms cash : Int} (ledger : LedgerOf chain market s.market cash)
    (shown : Shows chain market position s)
    (shown' : Shows (putBoth chain market position s') market position s')
    (executed : action.execute.Succeeds s atoms s') :
    LedgerOf (putBoth chain market position s') market s'.market (cash + atoms) := by
  intro suppliers borrowers
  have blind := action.execute_blind.succeeds executed
  have view : (marketLedger chain market s.market suppliers borrowers cash).borrowView position =
      s.withoutWhitelist := by
    simp only [Ledger.borrowView, marketLedger,
      positionAt_of_holds shown.position_held shown.placed]
    rfl
  rw [← view] at blind
  have reached := (ledger suppliers borrowers).borrow blind
  rw [marketLedger, positionAt_putBoth shown shown'.position_held.2 shown'.placed,
    positionAt_putBoth_other supply_apart shown s']
  exact reached

/-- An operation on the chain is an operation of the ledger of each market, or none. -/
theorem Step.ledger (step : Step env infos chain flows chain') {m : Market} {cash : Int}
    (held : chain.Holds key m) (ledger : LedgerOf chain key m cash) :
    ∃ m', chain'.Holds key m' ∧ LedgerOf chain' key m' (cash + flows key .supply) := by
  cases step with
  | supply market position s s' action atoms shown signed executed =>
      have shown' := (shown.supply env signed executed).2
      rcases eq_or_ne key market with rfl | elsewhere
      · obtain rfl := shown.market_held.unique held
        rw [moved_supply]
        exact ⟨s'.market, shown'.market_held, ledger.supply shown shown' executed⟩
      · rw [moved_of_ne elsewhere, Pi.zero_apply, add_zero]
        refine ⟨m, holds_putBoth held elsewhere (held.ne shown.position_held nofun),
          ledger.keep ?_ ?_⟩
        · exact fun _ => positionAt_putBoth_elsewhere shown shown'.placed elsewhere
        · exact fun _ => positionAt_putBoth_other borrow_apart shown s'
  | borrow market position s s' action atoms shown authorized executed =>
      have shown' := (shown.borrow authorized executed).2
      rcases eq_or_ne key market with rfl | elsewhere
      · obtain rfl := shown.market_held.unique held
        rw [moved_supply]
        exact ⟨s'.market, shown'.market_held, ledger.borrow shown shown' executed⟩
      · rw [moved_of_ne elsewhere, Pi.zero_apply, add_zero]
        refine ⟨m, holds_putBoth held elsewhere (held.ne shown.position_held nofun),
          ledger.keep ?_ ?_⟩
        · exact fun _ => positionAt_putBoth_other supply_apart shown s'
        · exact fun _ => positionAt_putBoth_elsewhere shown shown'.placed elsewhere
  | market other n n' action atoms held' authorized executed =>
      rcases eq_or_ne key other with rfl | elsewhere
      · obtain rfl := held'.unique held
        refine ⟨n', .update_self ?_ _ rfl, fun suppliers borrowers => ?_⟩
        · exact (Market.isInitialized_of_identity (action.execute_identity _ _ _ executed)).trans
            held.2
        · have reached := (ledger suppliers borrowers).market
            (action.execute_blind.succeeds executed)
          rw [moved_supply, marketLedger, positionAt_market held, positionAt_market held]
          exact reached
      · rw [moved_of_ne elsewhere, Pi.zero_apply, add_zero]
        refine ⟨m, held.update_of_ne elsewhere _, ledger.keep ?_ ?_⟩
        · exact fun _ => positionAt_market held'
        · exact fun _ => positionAt_market held'
  | whitelist other n count held' signed =>
      rw [Pi.zero_apply, Pi.zero_apply, add_zero]
      rcases eq_or_ne key other with rfl | elsewhere
      · obtain rfl := held'.unique held
        have initialized : LendingAccount.isInitialized (withWhitelist n count) = true := held.2
        refine ⟨_, .update_self initialized _ rfl, ledger.of_views rfl ?_ ?_⟩
        · exact fun owners => ⟨owners, positionAt_market held⟩
        · exact fun owners => ⟨owners, positionAt_market held⟩
      · refine ⟨m, held.update_of_ne elsewhere _, ledger.keep ?_ ?_⟩
        · exact fun _ => positionAt_market held'
        · exact fun _ => positionAt_market held'
  | createMarket other data unixTimestamp n vacant created derived signed =>
      rw [Pi.zero_apply, Pi.zero_apply, add_zero]
      refine ⟨m, held.update_of_ne (held.ne_vacant vacant) _, ledger.keep ?_ ?_⟩
      · exact fun _ => positionAt_update (not_holds_vacant vacant)
          (find?_eq_none fun p => PositionAccount.apart p n)
      · exact fun _ => positionAt_update (not_holds_vacant vacant)
          (find?_eq_none fun p => PositionAccount.apart p n)
  | createSupplyPosition market position authority n held' vacant signed =>
      rw [Pi.zero_apply, Pi.zero_apply, add_zero]
      refine ⟨m, held.update_of_ne (held.ne_vacant vacant) _, ledger.of_views rfl ?_ ?_⟩
      · exact positionAt_created rfl (not_holds_vacant vacant) key
      · exact fun owners => ⟨owners, positionAt_update (not_holds_vacant vacant)
          (find?_eq_none fun p => borrow_apart p _)⟩
  | createBorrowPosition market position authority n held' vacant signed =>
      rw [Pi.zero_apply, Pi.zero_apply, add_zero]
      refine ⟨m, held.update_of_ne (held.ne_vacant vacant) _, ledger.of_views rfl ?_ ?_⟩
      · exact fun owners => ⟨owners, positionAt_update (not_holds_vacant vacant)
          (find?_eq_none fun p => supply_apart p _)⟩
      · exact positionAt_created rfl (not_holds_vacant vacant) key
  | other chain' same =>
      rw [Pi.zero_apply, Pi.zero_apply, add_zero]
      refine ⟨m, (same.market key m).mpr held, ledger.keep ?_ ?_⟩
      · exact fun owners => funext fun account => positionAt_congr (same.supply account)
      · exact fun owners => funext fun account => positionAt_congr (same.borrow account)

/-! Positions stay with the markets of the chain. -/

section Placing

variable {T : Type} [UserPosition T] {position : Pubkey}

theorem Placed.update {slot : Slot} (placed : Placed T chain)
    (markets : ∀ key (m : Market), chain.Holds key m → ∃ m' : Market,
      Chain.Holds (Function.update chain position slot) key m')
    (stored : ∀ p : T, slot = Slot.of p → ∃ m : Market, chain.Holds (UserPosition.market p) m) :
    Placed T (Function.update chain position slot) := by
  intro key p held
  have before : ∃ m : Market, chain.Holds (UserPosition.market p) m := by
    rcases eq_or_ne key position with rfl | differ
    · exact stored p ((Function.update_self key slot chain).symm.trans held.1)
    · exact placed key p (held.of_update differ)
  obtain ⟨m, kept⟩ := before
  exact markets _ m kept

theorem markets_update {slot : Slot} (none : ∀ m : Market, ¬ chain.Holds position m) (key : Pubkey)
    (m : Market) (held : chain.Holds key m) :
    ∃ m' : Market, Chain.Holds (Function.update chain position slot) key m' := by
  refine ⟨m, held.update_of_ne ?_ _⟩
  rintro rfl
  exact none m held

variable [PositionAccount T]

theorem Placed.storeMarket {m' : Market} (placed : Placed T chain)
    (markets : ∀ key (m : Market), chain.Holds key m → ∃ m'' : Market,
      Chain.Holds (Function.update chain position (Slot.of m')) key m'') :
    Placed T (Function.update chain position (Slot.of m')) :=
  placed.update markets fun p same => absurd same.symm (PositionAccount.apart p m')

theorem Placed.replaceMarket {market : Pubkey} {m' : Market} (placed : Placed T chain)
    (initialized : LendingAccount.isInitialized m' = true) :
    Placed T (Function.update chain market (Slot.of m')) := by
  refine placed.storeMarket fun key n kept => ?_
  rcases eq_or_ne key market with rfl | differ
  · exact ⟨m', .update_self initialized _ rfl⟩
  · exact ⟨n, kept.update_of_ne differ _⟩

theorem Placed.putBoth {U : Type} [UserPosition U] [PositionAccount U] {market : Pubkey}
    {s s' : MarketWith U} (placed : Placed T chain) (shown : Shows chain market position s)
    (initialized : LendingAccount.isInitialized s'.market = true)
    (stored : ∀ p : T, Slot.of s'.position = Slot.of p → UserPosition.market p = market) :
    Placed T (Transactions.putBoth chain market position s') := by
  have replaced : Placed T (Function.update chain market (Slot.of s'.market)) :=
    placed.replaceMarket initialized
  refine replaced.update (markets_update fun m held => ?_) fun p same => ⟨s'.market, ?_⟩
  · have before := held.of_update shown.distinct.symm
    exact PositionAccount.apart _ _ (shown.position_held.1.symm.trans before.1)
  · rw [stored p same]
    exact .update_self initialized _ rfl

end Placing

theorem Step.placed (step : Step env infos chain flows chain')
    (supply : Placed SupplyPosition chain) (borrow : Placed BorrowPosition chain) :
    Placed SupplyPosition chain' ∧ Placed BorrowPosition chain' := by
  cases step with
  | supply market position s s' action atoms shown signed executed =>
      have shown' := (shown.supply env signed executed).2
      refine ⟨supply.putBoth shown shown'.market_held.2 fun p same => ?_,
        borrow.putBoth shown shown'.market_held.2 fun p same => ?_⟩
      · rw [← Slot.of_injective same]
        exact shown'.placed
      · exact absurd same.symm (borrow_apart p _)
  | borrow market position s s' action atoms shown authorized executed =>
      have shown' := (shown.borrow authorized executed).2
      refine ⟨supply.putBoth shown shown'.market_held.2 fun p same => ?_,
        borrow.putBoth shown shown'.market_held.2 fun p same => ?_⟩
      · exact absurd same.symm (supply_apart p _)
      · rw [← Slot.of_injective same]
        exact shown'.placed
  | market other n n' action atoms held' authorized executed =>
      have initialized :=
        (Market.isInitialized_of_identity (action.execute_identity _ _ _ executed)).trans held'.2
      exact ⟨supply.replaceMarket initialized, borrow.replaceMarket initialized⟩
  | whitelist other n count held' signed =>
      have initialized : LendingAccount.isInitialized (withWhitelist n count) = true := held'.2
      exact ⟨supply.replaceMarket initialized, borrow.replaceMarket initialized⟩
  | createMarket other data unixTimestamp n vacant created derived signed =>
      have markets : ∀ key (m : Market), chain.Holds key m → ∃ m' : Market,
          Chain.Holds (Function.update chain other (Slot.of n)) key m' :=
        markets_update (not_holds_vacant vacant)
      exact ⟨supply.storeMarket markets, borrow.storeMarket markets⟩
  | createSupplyPosition market position authority n held' vacant signed =>
      refine ⟨supply.update (markets_update (not_holds_vacant vacant)) fun p same => ?_,
        borrow.update (markets_update (not_holds_vacant vacant)) fun p same => ?_⟩
      · rw [← Slot.of_injective same]
        exact ⟨n, held'⟩
      · exact absurd same.symm (borrow_apart p _)
  | createBorrowPosition market position authority n held' vacant signed =>
      refine ⟨supply.update (markets_update (not_holds_vacant vacant)) fun p same => ?_,
        borrow.update (markets_update (not_holds_vacant vacant)) fun p same => ?_⟩
      · exact absurd same.symm (supply_apart p _)
      · rw [← Slot.of_injective same]
        exact ⟨n, held'⟩
  | other chain' same =>
      constructor
      · intro key p held
        obtain ⟨m, kept⟩ := supply key p ((same.supply key p).mp held)
        exact ⟨m, (same.market _ m).mpr kept⟩
      · intro key p held
        obtain ⟨m, kept⟩ := borrow key p ((same.borrow key p).mp held)
        exact ⟨m, (same.market _ m).mpr kept⟩

/-! New markets. -/

/-- The operation has created the market, with its vaults at the addresses derived for it. -/
structure Creates (env : Environment) (chain : Chain) (key : Pubkey) (m : Market) (flows : Flows)
    (chain' : Chain) : Prop where
  vacant : ∃ owner, chain key = ⟨owner, .empty⟩
  still : flows = 0
  stored : chain' = Function.update chain key (Slot.of m)
  created : ∃ data unixTimestamp,
    (Market.processCreateMarket data unixTimestamp).Succeeds .zeroed () m
  derived : ∀ side, (m.vaultKeys side).vault =
    env.getAssociatedTokenAddress key (m.vaultKeys side).mint

section Before

variable {T : Type} [UserPosition T] [PositionAccount T] {position : Pubkey} {m' : Market}

theorem market_before_position {p : T}
    (held : Chain.Holds (Function.update chain position (Slot.of p)) key m') :
    chain.Holds key m' := by
  refine held.of_update ?_
  rintro rfl
  exact PositionAccount.apart p m' ((Function.update_self key (Slot.of p) chain).symm.trans held.1)

theorem market_before_both {market : Pubkey} {s s' : MarketWith T}
    (shown : Shows chain market position s)
    (held : (putBoth chain market position s').Holds key m') :
    ∃ m : Market, chain.Holds key m := by
  have kept := market_before_position held
  rcases eq_or_ne key market with rfl | differ
  · exact ⟨s.market, shown.market_held⟩
  · exact ⟨m', kept.of_update differ⟩

end Before

theorem Step.market_before (step : Step env infos chain flows chain') {m' : Market}
    (held : chain'.Holds key m') :
    (∃ m : Market, chain.Holds key m) ∨ Creates env chain key m' flows chain' := by
  cases step with
  | supply market position s s' action atoms shown signed executed =>
      exact Or.inl (market_before_both shown held)
  | borrow market position s s' action atoms shown authorized executed =>
      exact Or.inl (market_before_both shown held)
  | market other n n' action atoms held' authorized executed =>
      rcases eq_or_ne key other with rfl | differ
      · exact Or.inl ⟨n, held'⟩
      · exact Or.inl ⟨m', held.of_update differ⟩
  | whitelist other n count held' signed =>
      rcases eq_or_ne key other with rfl | differ
      · exact Or.inl ⟨n, held'⟩
      · exact Or.inl ⟨m', held.of_update differ⟩
  | createMarket other data unixTimestamp n vacant created derived signed =>
      rcases eq_or_ne key other with rfl | differ
      · obtain rfl : n = m' :=
          Slot.of_injective ((Function.update_self key (Slot.of n) chain).symm.trans held.1)
        exact Or.inr ⟨⟨_, vacant⟩, rfl, rfl, ⟨data, unixTimestamp, created⟩, derived⟩
      · exact Or.inl ⟨m', held.of_update differ⟩
  | createSupplyPosition market position authority n held' vacant signed =>
      exact Or.inl ⟨m', market_before_position held⟩
  | createBorrowPosition market position authority n held' vacant signed =>
      exact Or.inl ⟨m', market_before_position held⟩
  | other chain' same => exact Or.inl ⟨m', (same.market key m').mp held⟩

theorem Step.flows_of_none (step : Step env infos chain flows chain')
    (none : ∀ m : Market, ¬ chain.Holds key m) : flows key = 0 := by
  have apart : ∀ {market : Pubkey} {m : Market}, chain.Holds market m → key ≠ market := by
    rintro market m held rfl
    exact none m held
  cases step with
  | supply market position s s' action atoms shown signed executed =>
      exact moved_of_ne (apart shown.market_held) _ _
  | borrow market position s s' action atoms shown authorized executed =>
      exact moved_of_ne (apart shown.market_held) _ _
  | market other n n' action atoms held' authorized executed => exact moved_of_ne (apart held') _ _
  | whitelist => rfl
  | createMarket => rfl
  | createSupplyPosition => rfl
  | createBorrowPosition => rfl
  | other => rfl

theorem Placed.none_of_vacant {T : Type} [UserPosition T] (placed : Placed T chain) {owner : Pubkey}
    (vacant : chain key = ⟨owner, .empty⟩) (account : Pubkey) (p : T)
    (held : chain.Holds account p) :
    UserPosition.market p ≠ key := by
  rintro rfl
  obtain ⟨m, kept⟩ := placed account p held
  exact not_holds_vacant vacant m kept

theorem Creates.ledger {m : Market} (creates : Creates env chain key m flows chain')
    (supply : Placed SupplyPosition chain) (borrow : Placed BorrowPosition chain) :
    LedgerOf chain' key m 0 := by
  intro suppliers borrowers
  obtain ⟨owner, vacant⟩ := creates.vacant
  obtain ⟨data, unixTimestamp, created⟩ := creates.created
  have unlisted : m.withoutWhitelist = m := by
    have count := (Market.processCreateMarket_config _ _ _ _ _ created).2
    change { m with config := { m.config with activeWhitelistedLiquidators := 0 } } = m
    rw [show (0 : U64) = m.config.activeWhitelistedLiquidators from count.symm]
  have shown : ∀ {T : Type} [UserPosition T] [PositionAccount T] (fresh : Pubkey → Pubkey → T)
      (owners : Pubkey → Pubkey), Placed T chain → ∀ account,
      positionAt fresh chain' key owners account = fresh (owners account) key := by
    intro T _ _ fresh owners placed account
    rw [creates.stored, positionAt_update (not_holds_vacant vacant)
      (find?_eq_none fun p => PositionAccount.apart p m)]
    exact positionAt_fresh (placed.none_of_vacant vacant account)
  refine ⟨data, _, [], ⟨⟨unixTimestamp, ?_⟩, fun account => ?_, fun account => ?_, rfl⟩, rfl⟩
  · change (Market.processCreateMarket data unixTimestamp).Succeeds _ _ m.withoutWhitelist
    rw [unlisted]
    exact created
  · exact ⟨_, _, shown SupplyPosition.new suppliers supply account⟩
  · exact ⟨_, _, shown BorrowPosition.initializePosition borrowers borrow account⟩

/-- What holds of the chain all along, with all that has moved: every market is a ledger of its
positions, and counts the collateral that has moved in. -/
structure Mirrored (flows : Flows) (chain : Chain) : Prop where
  supply : Placed SupplyPosition chain
  borrow : Placed BorrowPosition chain
  quiet : ∀ key, (∀ m : Market, ¬ chain.Holds key m) → flows key = 0
  ledger : ∀ key (m : Market), chain.Holds key m → LedgerOf chain key m (flows key .supply)
  collateral : ∀ key (m : Market), chain.Holds key m → m.collateral = flows key .collateral

theorem Mirrored.of_bare (bare : ∀ key, (chain key).Bare) : Mirrored 0 chain where
  supply key _ held := absurd held ((bare key).not_holds rfl)
  borrow key _ held := absurd held ((bare key).not_holds rfl)
  quiet _ _ := rfl
  ledger key _ held := absurd held ((bare key).not_holds rfl)
  collateral key _ held := absurd held ((bare key).not_holds rfl)

theorem Step.mirrored (step : Step env infos chain flows chain') {before : Flows}
    (mirrored : Mirrored before chain) : Mirrored (before + flows) chain' := by
  obtain ⟨supply, borrow⟩ := step.placed mirrored.supply mirrored.borrow
  refine ⟨supply, borrow, fun key none => ?_, fun key m' held => ?_, fun key m' held => ?_⟩
  · have none' : ∀ m : Market, ¬ chain.Holds key m := by
      intro m held
      obtain ⟨m', held', -⟩ := step.market_after held
      exact none m' held'
    rw [Pi.add_apply, mirrored.quiet key none', step.flows_of_none none', add_zero]
  · rcases step.market_before held with ⟨m, held₀⟩ | creates
    · obtain ⟨m'', held'', ledger⟩ := step.ledger held₀ (mirrored.ledger key m held₀)
      obtain rfl := held.unique held''
      exact ledger
    · obtain ⟨owner, vacant⟩ := creates.vacant
      rw [creates.still, add_zero, mirrored.quiet key (not_holds_vacant vacant)]
      exact creates.ledger mirrored.supply mirrored.borrow
  · rcases step.market_before held with ⟨m, held₀⟩ | creates
    · obtain ⟨m'', held'', -, moved⟩ := step.market_after held₀
      obtain rfl := held.unique held''
      rw [moved, mirrored.collateral key m held₀, Pi.add_apply, Pi.add_apply]
    · obtain ⟨owner, vacant⟩ := creates.vacant
      obtain ⟨data, unixTimestamp, created⟩ := creates.created
      obtain ⟨fresh, -⟩ := Market.processCreateMarket_fresh _ _ _ _ created
      rw [creates.still, add_zero, mirrored.quiet key (not_holds_vacant vacant), Market.collateral,
        fresh.collateral]
      rfl

/-! Whole runs. -/

section Runs

variable {allowed : Call → Prop} {start final : Chain} {events : List AutaraEvent} {m : Market}

/-- From a chain without markets and positions, every market that there is later on mirrors all that
the events report. -/
theorem Evolves.mirrored (evolves : Evolves env allowed start events final)
    (bare : ∀ key, (start key).Bare) : Mirrored (netFlows events) final := by
  have mirrored := evolves.invariant (I := Mirrored) (fun _ _ _ _ _ _ mirrored step =>
    step.mirrored mirrored) ?_ 0 (Mirrored.of_bare bare)
  · rwa [zero_add] at mirrored
  · intro flows chain chain' mirrored same
    have step : Step env [] chain 0 chain' := .other chain' same
    have kept := step.mirrored mirrored
    rwa [add_zero] at kept

/-- Whatever has run, a market and the accounts of its positions are a ledger that operations have
led to, and the events report what has been moved in and out of its supply vault. -/
theorem markets_refine_ledgers (evolves : Evolves env allowed start events final)
    (bare : ∀ key, (start key).Bare) (held : final.Holds key m)
    (suppliers borrowers : Pubkey → Pubkey) :
    (marketLedger final key m suppliers borrowers (netFlows events key .supply)).Reachable :=
  (evolves.mirrored bare).ledger key m held suppliers borrowers

theorem plainLoan_held :
    ∃ m : Market, (Machine.run (execute plainEnvironment) plainStart plainLoan).Holds
      (plainKey 11) m ∧
      m.supplyVault.borrowSharesTracker.totalShares.bits ≠ 0 ∧ m.collateral = 500 := by
  refine exists_holds _ ?_
  decide +kernel

theorem plainLoan_evolves : Evolves plainEnvironment (fun _ => True) plainStart
    (loggedEvents plainEnvironment plainStart plainLoan)
    (Machine.run (execute plainEnvironment) plainStart plainLoan) :=
  plain_evolves plainStart plainLoan
    (by simp [plainLoan, plainMarket, plainPositions, plainSupply, plainDeposit, plainBorrow])

def plainBuffered : Chain :=
  Function.update (Machine.run (execute plainEnvironment) plainStart plainLoan) (plainKey 60)
    ⟨AutaraProgram.id, .other⟩

theorem plainBuffered_evolves : Evolves plainEnvironment (fun _ => True) plainStart
    (loggedEvents plainEnvironment plainStart plainLoan) plainBuffered := by
  have vacant : (Machine.run (execute plainEnvironment) plainStart plainLoan (plainKey 60)).data =
      .empty := by decide +kernel
  have allocated : SameAccounts (Machine.run (execute plainEnvironment) plainStart plainLoan)
      plainBuffered :=
    SameAccounts.update (Slot.bare_of_no_state fun _ held => by rw [vacant] at held; cases held)
      (Slot.bare_of_no_state fun _ => nofun)
  have created : IdlStep plainBuffered plainBuffered :=
    idlStep_createBuffer ⟨plainKey 60, false⟩ ⟨plainKey 25, true⟩ (Function.update_self ..) rfl
      (by decide)
  exact .idl _ _ _ _ (.others _ _ _ _ plainLoan_evolves allocated) created

theorem plain_market_refines :
    ∃ m : Market, plainBuffered.Holds (plainKey 11) m ∧
      m.supplyVault.borrowSharesTracker.totalShares.bits ≠ 0 ∧
      ∀ suppliers borrowers,
        (marketLedger plainBuffered (plainKey 11) m suppliers borrowers
          (netFlows (loggedEvents plainEnvironment plainStart plainLoan) (plainKey 11)
            .supply)).Reachable := by
  obtain ⟨m, ⟨slot_eq, initialized⟩, some, -⟩ := plainLoan_held
  have held : plainBuffered.Holds (plainKey 11) m := by
    refine ⟨?_, initialized⟩
    rw [plainBuffered, Function.update_of_ne (by decide), slot_eq]
  exact ⟨m, held, some, markets_refine_ledgers plainBuffered_evolves plainStart_bare held⟩

/-- What an account holds of a market. -/
def heldIn {T : Type} [UserPosition T] (amount : T → Int) (chain : Chain) (market key : Pubkey) :
    Int :=
  (((chain key).find? T).filter fun p => UserPosition.market p = market).elim 0 amount

theorem amount_positionAt {T : Type} [UserPosition T] (amount : T → Int)
    (fresh : Pubkey → Pubkey → T) (chain : Chain) (market : Pubkey) (owners : Pubkey → Pubkey)
    (nothing : ∀ authority, amount (fresh authority market) = 0) (key : Pubkey) :
    amount (positionAt fresh chain market owners key) = heldIn amount chain market key := by
  unfold positionAt heldIn
  cases ((chain key).find? T).filter fun p => UserPosition.market p = market with
  | none => exact nothing _
  | some p => rfl

theorem Evolves.collateral_held (evolves : Evolves env allowed start events final)
    (bare : ∀ key, (start key).Bare) (held : final.Holds key m) :
    m.collateral = ∑ᶠ account,
      heldIn (fun p : BorrowPosition => p.collateralDepositedAtoms.toNat) final key account := by
  have := Fintype.ofFinite Pubkey
  have reachable := (evolves.mirrored bare).ledger key m held id id
  refine (congrArg Int.ofNat reachable.collateralConserved.total).trans ?_
  rw [finsum_eq_sum_of_fintype, Ledger.collateralAtoms, Int.ofNat_eq_natCast, Nat.cast_sum]
  apply Finset.sum_congr rfl
  intro account _
  exact amount_positionAt (fun p : BorrowPosition => (p.collateralDepositedAtoms.toNat : Int)) _
    final key id (fun _ => rfl) account

/-- The sums over all accounts of the chain: debt shares, supply shares with the fees that nobody
has redeemed yet, and collateral, which is also what the events report. -/
theorem accounts_conserved (evolves : Evolves env allowed start events final)
    (bare : ∀ key, (start key).Bare) (held : final.Holds key m) :
    m.supplyVault.borrowSharesTracker.totalShares.bits =
        ∑ᶠ account, heldIn (fun p : BorrowPosition => p.borrowedShares.bits) final key account ∧
      m.supplyVault.supplySharesTracker.totalShares.bits =
        ∑ᶠ account, heldIn (fun p : SupplyPosition => p.shares.bits) final key account +
          m.supplyVault.pendingProtocolFeeShares.bits + m.supplyVault.pendingCuratorFeeShares.bits ∧
      m.collateral =
        ∑ᶠ account, heldIn (fun p : BorrowPosition => p.collateralDepositedAtoms.toNat) final key
          account ∧
      m.collateral = netFlows events key .collateral := by
  have := Fintype.ofFinite Pubkey
  have mirrored := evolves.mirrored bare
  have reachable := mirrored.ledger key m held id id
  have shares := reachable.sharesConserved
  refine ⟨?_, ?_, evolves.collateral_held bare held, mirrored.collateral key m held⟩
  all_goals simp only [finsum_eq_sum_of_fintype]
  · refine shares.borrow.trans (Finset.sum_congr rfl fun account _ => ?_)
    exact amount_positionAt (fun p : BorrowPosition => p.borrowedShares.bits) _ final key id
      (fun _ => rfl) account
  · refine shares.supply.trans ?_
    congr 2
    refine Finset.sum_congr rfl fun account _ => ?_
    exact amount_positionAt (fun p : SupplyPosition => p.shares.bits) _ final key id (fun _ => rfl)
      account

theorem plain_accounts_conserved :
    ∃ m : Market, (Machine.run (execute plainEnvironment) plainStart plainLoan).Holds
      (plainKey 11) m ∧
      m.supplyVault.borrowSharesTracker.totalShares.bits ≠ 0 ∧
      m.supplyVault.borrowSharesTracker.totalShares.bits =
        ∑ᶠ account, heldIn (fun p : BorrowPosition => p.borrowedShares.bits)
          (Machine.run (execute plainEnvironment) plainStart plainLoan) (plainKey 11) account ∧
      netFlows (loggedEvents plainEnvironment plainStart plainLoan) (plainKey 11) .collateral =
        500 := by
  obtain ⟨m, held, some, collateral⟩ := plainLoan_held
  obtain ⟨debt, -, -, moved⟩ := accounts_conserved plainLoan_evolves plainStart_bare held
  exact ⟨m, held, some, debt, moved.symm.trans collateral⟩

/-- A position that owes nothing changes only with the signature of its authority: neither the
curator of its market nor a liquidator can touch it. -/
theorem debtFree_untouched {middle : Chain} {earlier : List AutaraEvent} {p : BorrowPosition}
    (built : Evolves env allowed start earlier middle) (bare : ∀ key, (start key).Bare)
    (held : middle.Holds key p) (none : p.borrowedShares = Fixed.zero)
    (inactive : p.sweptCollateralAtoms = 0)
    (evolves : Evolves env (fun call => ¬ SignedBy call.accounts p.authority) middle events final) :
    final.Holds key p := by
  have mirrored := built.mirrored bare
  obtain ⟨m, placed⟩ := mirrored.borrow key p held
  have sound := (mirrored.ledger p.market m placed id id).configSound.ltv
  exact keeps_debtFree held placed sound none inactive evolves

theorem plain_debtFree_untouched :
    ∃ p : BorrowPosition, plainSupplied.Holds (plainKey 13) p ∧
      (Machine.run (execute plainEnvironment) plainSupplied [plainSupply]).Holds
        (plainKey 13) p := by
  obtain ⟨p, held, authority, none, inactive⟩ := plainSupplied_held.2.2
  have built : Evolves plainEnvironment (fun _ => True) plainStart _ plainSupplied :=
    plain_evolves plainStart (plainMarket :: plainPositions ++ [plainSupply])
      (by simp [plainMarket, plainPositions, plainSupply])
  have unsigned : ∀ call ∈ [plainSupply], call.context = plainContext ∧
      ¬ SignedBy call.accounts p.authority := by
    rw [authority, List.forall_mem_singleton]
    exact ⟨rfl, by decide⟩
  exact ⟨p, held, debtFree_untouched built plainStart_bare held none inactive
    (plain_evolves plainSupplied _ unsigned)⟩

end Runs

end Transactions

end AutaraLending
