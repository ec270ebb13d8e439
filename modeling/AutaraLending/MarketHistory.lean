import AutaraLending.Evolution
import AutaraLending.Exit

/-! What becomes of a market and of a position in a run: they stay, they are never anyone else's,
and who does not sign cannot change them. -/

namespace AutaraLending

open Support

namespace Transactions

variable {env : Environment} {infos : List AccountInfo} {chain chain' : Chain} {flows : Flows}
  {key : Pubkey}

theorem holds_putBoth {T U : Type} [LendingAccount T] [LendingAccount U] {state : U}
    {market position : Pubkey} {s : MarketWith T} (held : chain.Holds key state)
    (market_ne : key ≠ market) (position_ne : key ≠ position) :
    (putBoth chain market position s).Holds key state :=
  (held.update_of_ne market_ne _).update_of_ne position_ne _

/-! Markets. -/

/-- What the curator of a market sets, and what the mints of its vaults fix. -/
structure MarketTerms where
  config : MarketConfig
  supplyOracle : OracleConfig
  collateralOracle : OracleConfig
  supplyDecimals : U64
  collateralDecimals : U64

def terms (m : Market) : MarketTerms where
  config := m.config
  supplyOracle := m.supplyVault.oracleConfig
  collateralOracle := m.collateralVault.oracleConfig
  supplyDecimals := m.supplyVault.mintDecimals
  collateralDecimals := m.collateralVault.mintDecimals

theorem syncClock_maintains (timestamp : Int64) (fee : UFixedPoint) (protocolBps : UInt16)
    (oracle : OracleConfig) (decimals : U64) :
    Method.Maintains (fun v => v.oracleConfig = oracle ∧ v.mintDecimals = decimals)
      (SupplyVault.syncClock timestamp fee protocolBps) := by
  refine Method.maintains_self_bind fun v _ => .ite ?_ (Method.maintains_pure _)
  refine .bind (Method.maintains_lift _) fun _ => ?_
  refine .bind (Method.maintains_zoom fun _ _ kept => kept) fun _ => ?_
  refine .bind (Method.maintains_lift _) fun _ => ?_
  refine .bind (Method.maintains_zoom fun _ _ kept => kept) fun _ => ?_
  refine .bind (Method.maintains_lift _) fun _ => ?_
  refine .bind (Method.maintains_zoom fun _ _ kept => kept) fun _ => ?_
  refine .bind (Method.maintains_lift _) fun _ => .bind (Method.maintains_lift _) fun _ => ?_
  refine .bind (Method.maintains_lift _) fun _ => Method.maintains_self_bind fun _ kept => ?_
  refine .bind (Method.maintains_assign kept) fun _ => .bind (Method.maintains_lift _) fun _ => ?_
  exact Method.maintains_self_bind fun _ kept => Method.maintains_assign kept

theorem syncClock_terms {unixTimestamp : Int64} {m m' : Market} {u : Unit}
    (success : (Market.syncClock unixTimestamp).Succeeds m u m') : terms m' = terms m := by
  simp only [Market.syncClock, Method.succeeds_bind, Method.succeeds_self,
    Market.onSupplyVault_succeeds] at success
  obtain ⟨_, _, ⟨rfl, rfl⟩, v, synced, rfl⟩ := success
  obtain ⟨oracle, decimals⟩ := (syncClock_maintains _ _ _ _ _).succeeds synced ⟨rfl, rfl⟩
  simp only [terms, oracle, decimals]

/-- The terms of a market change only in an operation that its curator signs. -/
theorem terms_of_unsigned {m m' : Market} {action : MarketAction} {atoms : Int}
    (authorized : MarketAuthorized env infos chain m action)
    (unsigned : ¬ SignedBy infos m.config.curator) (executed : action.execute.Succeeds m atoms m') :
    terms m' = terms m := by
  cases action with
  | donateSupplyAtoms amount =>
      obtain ⟨_, donated, -⟩ := (Method.succeeds_bind_pure _ _ _ _ _).mp executed
      obtain ⟨tracker, -, rfl⟩ := (Market.donateSupplyAtoms_succeeds _ _ _ _).mp donated
      rfl
  | syncClock unixTimestamp =>
    exact syncClock_terms ((withoutTransfer_succeeds _ _ _ _).mp executed).1
  | redeemProtocolFees =>
      obtain ⟨_, redeemed, -⟩ := (Method.succeeds_bind_pure _ _ _ _ _).mp executed
      obtain ⟨tracker, -, rfl, -⟩ := Market.redeemProtocolFees_succeeds _ _ _ redeemed
      rfl
  | syncGlobalConfig globalConfig => exact absurd authorized.1 unsigned
  | redeemCuratorFess => exact absurd authorized unsigned
  | updateLtv ltvConfig => exact absurd authorized unsigned
  | updateMaxUtilisationRate rate => exact absurd authorized unsigned
  | updateMaxSupplyAtoms maxSupplyAtoms => exact absurd authorized unsigned
  | setLendingMarketFee fee => exact absurd authorized unsigned
  | setSupplyOracleConfig oracleConfig => exact absurd authorized unsigned
  | setCollateralOracleConfig oracleConfig => exact absurd authorized unsigned

/-- What an operation makes of a market. -/
inductive MarketAfter (env : Environment) (infos : List AccountInfo) (chain : Chain) :
    Market → Market → Prop
  | kept (m : Market) : MarketAfter env infos chain m m
  | supply (s s' : MarketWith SupplyPosition) (effect : SupplyEffect s s') :
      MarketAfter env infos chain s.market s'.market
  | borrow (s s' : MarketWith BorrowPosition) (effect : BorrowEffect s s') :
      MarketAfter env infos chain s.market s'.market
  | market (m m' : Market) (action : MarketAction) (atoms : Int)
      (authorized : MarketAuthorized env infos chain m action)
      (executed : action.execute.Succeeds m atoms m') : MarketAfter env infos chain m m'
  | whitelist (m : Market) (count : U64) (signed : SignedBy infos m.config.curator) :
      MarketAfter env infos chain m (withWhitelist m count)

theorem MarketAfter.identity {m m' : Market} (after : MarketAfter env infos chain m m') :
    m'.identity = m.identity := by
  cases after with
  | kept => rfl
  | supply s s' effect => exact effect.identity
  | borrow s s' effect => exact effect.identity
  | market m m' action atoms authorized executed => exact action.execute_identity _ _ _ executed
  | whitelist => rfl

theorem MarketAfter.terms {m m' : Market} (after : MarketAfter env infos chain m m')
    (unsigned : ¬ SignedBy infos m.config.curator) :
    Transactions.terms m' = Transactions.terms m := by
  cases after with
  | kept => rfl
  | supply s s' effect =>
      rw [effect.market_eq]
      rfl
  | borrow s s' effect =>
      rw [effect.market_eq]
      rfl
  | market m m' action atoms authorized executed =>
      exact terms_of_unsigned authorized unsigned executed
  | whitelist m count signed => exact absurd signed unsigned

/-- A market stays in its account through every operation, and counts the collateral that moves. -/
theorem Step.market_after (step : Step env infos chain flows chain') {m : Market}
    (held : chain.Holds key m) :
    ∃ m', chain'.Holds key m' ∧ MarketAfter env infos chain m m' ∧
      m'.collateral = m.collateral + flows key .collateral := by
  cases step with
  | supply market position s s' action atoms shown signed executed =>
      have effect := action.execute_effect _ _ _ executed
      rcases eq_or_ne key market with rfl | market_ne
      · obtain rfl := shown.market_held.unique held
        refine ⟨s'.market, (shown.supply env signed executed).2.market_held,
          .supply s s' effect, ?_⟩
        rw [moved_collateral, effect.market_eq]
        exact (add_zero _).symm
      · refine ⟨m, holds_putBoth held market_ne (held.ne shown.position_held nofun), .kept m, ?_⟩
        rw [moved_of_ne market_ne]
        exact (add_zero _).symm
  | borrow market position s s' action atoms shown authorized executed =>
      rcases eq_or_ne key market with rfl | market_ne
      · obtain rfl := shown.market_held.unique held
        refine ⟨s'.market, (shown.borrow authorized executed).2.market_held,
          .borrow s s' (action.execute_effect _ _ _ executed), ?_⟩
        rw [moved_collateral]
        omega
      · refine ⟨m, holds_putBoth held market_ne (held.ne shown.position_held nofun), .kept m, ?_⟩
        rw [moved_of_ne market_ne]
        exact (add_zero _).symm
  | market other n n' action atoms held' authorized executed =>
      rcases eq_or_ne key other with rfl | differ
      · obtain rfl := held'.unique held
        refine ⟨n', .update_self ?_ _ rfl, .market n n' action atoms authorized executed, ?_⟩
        · exact (Market.isInitialized_of_identity (action.execute_identity _ _ _ executed)).trans
            held.2
        · rw [moved_collateral, Market.collateral,
            (action.execute_effect _ _ _ executed).collateral]
          exact (add_zero _).symm
      · refine ⟨m, held.update_of_ne differ _, .kept m, ?_⟩
        rw [moved_of_ne differ]
        exact (add_zero _).symm
  | whitelist other n count held' signed =>
      rcases eq_or_ne key other with rfl | differ
      · obtain rfl := held'.unique held
        have initialized : LendingAccount.isInitialized (withWhitelist n count) = true := held.2
        exact ⟨_, .update_self initialized _ rfl, .whitelist n count signed, (add_zero _).symm⟩
      · exact ⟨m, held.update_of_ne differ _, .kept m, (add_zero _).symm⟩
  | createMarket other data unixTimestamp n vacant created derived signed =>
      exact ⟨m, held.update_of_ne (held.ne_vacant vacant) _, .kept m, (add_zero _).symm⟩
  | createSupplyPosition market position authority n held' vacant signed =>
      exact ⟨m, held.update_of_ne (held.ne_vacant vacant) _, .kept m, (add_zero _).symm⟩
  | createBorrowPosition market position authority n held' vacant signed =>
      exact ⟨m, held.update_of_ne (held.ne_vacant vacant) _, .kept m, (add_zero _).symm⟩
  | other chain' same => exact ⟨m, (same.market key m).mpr held, .kept m, (add_zero _).symm⟩

/-! Supply positions. -/

/-- A supply position stays in its account through every operation, and only an operation that its
authority signs changes it. -/
theorem Step.supplyPosition_after (step : Step env infos chain flows chain') {p : SupplyPosition}
    (held : chain.Holds key p) :
    ∃ p', chain'.Holds key p' ∧ OwnedBy p.authority p.market p' ∧
      (¬ SignedBy infos p.authority → p' = p) := by
  have kept : OwnedBy p.authority p.market p ∧ (¬ SignedBy infos p.authority → p = p) :=
    ⟨⟨rfl, rfl⟩, fun _ => rfl⟩
  cases step with
  | supply market position s s' action atoms shown signed executed =>
      rcases eq_or_ne key position with rfl | position_ne
      · obtain rfl := shown.position_held.unique held
        refine ⟨s'.position, (shown.supply env signed executed).2.position_held,
          action.execute_owner.succeeds executed ⟨rfl, rfl⟩, fun unsigned => absurd signed unsigned⟩
      · exact ⟨p, holds_putBoth held (held.ne shown.market_held nofun) position_ne, kept⟩
  | borrow market position s s' action atoms shown authorized executed =>
      exact ⟨p, holds_putBoth held (held.ne shown.market_held nofun)
        (held.ne shown.position_held nofun), kept⟩
  | market other m m' action atoms held' authorized executed =>
      exact ⟨p, held.update_of_ne (held.ne held' nofun) _, kept⟩
  | whitelist other m count held' signed =>
      exact ⟨p, held.update_of_ne (held.ne held' nofun) _, kept⟩
  | createMarket other data unixTimestamp m vacant created derived signed =>
      exact ⟨p, held.update_of_ne (held.ne_vacant vacant) _, kept⟩
  | createSupplyPosition market position authority m held' vacant signed =>
      exact ⟨p, held.update_of_ne (held.ne_vacant vacant) _, kept⟩
  | createBorrowPosition market position authority m held' vacant signed =>
      exact ⟨p, held.update_of_ne (held.ne_vacant vacant) _, kept⟩
  | other chain' same => exact ⟨p, (same.supply key p).mpr held, kept⟩

/-! Borrow positions. -/

inductive BorrowPositionAfter (env : Environment) (infos : List AccountInfo) (chain : Chain) :
    BorrowPosition → BorrowPosition → Prop
  | kept (p : BorrowPosition) : BorrowPositionAfter env infos chain p p
  | acted (s s' : MarketWith BorrowPosition) (action : BorrowAction) (atoms : Int)
      (placed : chain.Holds s.position.market s.market)
      (authorized : BorrowAuthorized env infos chain s.position.market s action)
      (executed : action.execute.Succeeds s atoms s') :
      BorrowPositionAfter env infos chain s.position s'.position

theorem BorrowPositionAfter.owner {p p' : BorrowPosition}
    (after : BorrowPositionAfter env infos chain p p') : OwnedBy p.authority p.market p' := by
  cases after with
  | kept p => exact ⟨rfl, rfl⟩
  | acted s s' action atoms placed authorized executed =>
      exact action.execute_owner.succeeds executed ⟨rfl, rfl⟩

theorem Step.borrowPosition_after (step : Step env infos chain flows chain') {p : BorrowPosition}
    (held : chain.Holds key p) :
    ∃ p', chain'.Holds key p' ∧ BorrowPositionAfter env infos chain p p' := by
  cases step with
  | supply market position s s' action atoms shown signed executed =>
      exact ⟨p, holds_putBoth held (held.ne shown.market_held nofun)
        (held.ne shown.position_held nofun), .kept p⟩
  | borrow market position s s' action atoms shown authorized executed =>
      rcases eq_or_ne key position with rfl | position_ne
      · obtain rfl := shown.position_held.unique held
        obtain rfl : s.position.market = market := shown.placed
        exact ⟨s'.position, (shown.borrow authorized executed).2.position_held,
          .acted s s' action atoms shown.market_held authorized executed⟩
      · exact ⟨p, holds_putBoth held (held.ne shown.market_held nofun) position_ne, .kept p⟩
  | market other m m' action atoms held' authorized executed =>
      exact ⟨p, held.update_of_ne (held.ne held' nofun) _, .kept p⟩
  | whitelist other m count held' signed =>
      exact ⟨p, held.update_of_ne (held.ne held' nofun) _, .kept p⟩
  | createMarket other data unixTimestamp m vacant created derived signed =>
      exact ⟨p, held.update_of_ne (held.ne_vacant vacant) _, .kept p⟩
  | createSupplyPosition market position authority m held' vacant signed =>
      exact ⟨p, held.update_of_ne (held.ne_vacant vacant) _, .kept p⟩
  | createBorrowPosition market position authority m held' vacant signed =>
      exact ⟨p, held.update_of_ne (held.ne_vacant vacant) _, .kept p⟩
  | other chain' same => exact ⟨p, (same.borrow key p).mpr held, .kept p⟩

theorem signed_of_debtFree {s s' : MarketWith BorrowPosition} {market : Pubkey}
    {action : BorrowAction} {atoms : Int} (sound : s.market.config.ltvConfig.Sound)
    (none : s.position.borrowedShares = Fixed.zero) (inactive : s.position.sweptCollateralAtoms = 0)
    (authorized : BorrowAuthorized env infos chain market s action)
    (executed : action.execute.Succeeds s atoms s') : SignedBy infos s.position.authority := by
  have healthy : (Fixed.zero : IFixedPoint) < s.market.config.ltvConfig.unhealthyLtv := by
    rw [Fixed.lt_def, Fixed.zero_bits]
    exact lt_of_le_of_lt sound.maxLtv_nonneg sound.maxLtv_lt
  cases action with
  | depositCollateral amount => exact authorized
  | withdrawCollateral amount collateralOracle supplyOracle => exact authorized
  | borrow amount supplyOracle collateralOracle => exact authorized
  | repay amount => exact authorized
  | repayAll => exact authorized
  | liquidate collateralOracle supplyOracle maxRepayAtoms =>
      obtain ⟨_, liquidated, -⟩ := (Method.succeeds_bind_pure _ _ _ _ _).mp executed
      obtain ⟨effect⟩ := (MarketWith.liquidate_succeeds _ _ _ _ _ _).mp liquidated
      obtain ⟨health_ok, unhealthy, -⟩ :=
        (Market.computeLiquidationResultWithFeeForCollateral_ok _ _ _ _ _ _ _ _).mp
          effect.computed_ok
      rw [Market.ltv_of_debtFree none health_ok] at unhealthy
      exact absurd healthy unhealthy
  | beginCapitalSweep collateralOracle supplyOracle =>
      obtain ⟨_, swept, -⟩ := (Method.succeeds_bind_pure _ _ _ _ _).mp executed
      obtain ⟨-, health_ok, unhealthy, -⟩ :=
        (MarketWith.beginCapitalSweep_succeeds _ _ _ _ _).mp swept
      rw [Market.ltv_of_debtFree none health_ok] at unhealthy
      exact absurd healthy unhealthy
  | settleCapitalSweep collateralOracle supplyOracle maxRepayAtoms maxCollateralAtomsToReturn =>
      obtain ⟨_, settled, -⟩ := (Method.succeeds_bind_pure _ _ _ _ _).mp executed
      obtain ⟨effect⟩ := (MarketWith.settleCapitalSweep_succeeds _ _ _ _ _ _ _).mp settled
      exact absurd inactive effect.pending
  | socializeLoss collateralOracle supplyOracle =>
      obtain ⟨_, socialized, -⟩ := (Method.succeeds_bind_pure _ _ _ _ _).mp executed
      obtain ⟨-, health, _, _, _, health_ok, insolvent, -⟩ :=
        (MarketWith.socializeLoss_succeeds _ _ _ _ _).mp socialized
      rw [Market.ltv_of_debtFree none health_ok, Fixed.lt_def, Fixed.one_bits] at insolvent
      exact absurd (((Fixed.lt_def _ _).mp healthy).trans sound.unhealthyLtv_lt_one) insolvent

/-- Who is not the authority of a position can only lower its debt. -/
theorem debt_of_unsigned {s s' : MarketWith BorrowPosition} {market : Pubkey}
    {action : BorrowAction}
    {atoms : Int} (authorized : BorrowAuthorized env infos chain market s action)
    (unsigned : ¬ SignedBy infos s.position.authority)
    (executed : action.execute.Succeeds s atoms s') :
    s'.position.borrowedShares.bits ≤ s.position.borrowedShares.bits := by
  cases action with
  | depositCollateral amount => exact absurd authorized unsigned
  | withdrawCollateral amount collateralOracle supplyOracle => exact absurd authorized unsigned
  | borrow amount supplyOracle collateralOracle => exact absurd authorized unsigned
  | repay amount => exact absurd authorized unsigned
  | repayAll => exact absurd authorized unsigned
  | liquidate collateralOracle supplyOracle maxRepayAtoms =>
      obtain ⟨_, liquidated, -⟩ := (Method.succeeds_bind_pure _ _ _ _ _).mp executed
      obtain ⟨effect⟩ := (MarketWith.liquidate_succeeds _ _ _ _ _ _).mp liquidated
      have debt := effect.debt.shares_eq
      have paid := effect.shares.bits_nonneg
      rw [effect.final]
      change effect.borrowed.bits ≤ _
      omega
  | beginCapitalSweep collateralOracle supplyOracle =>
      obtain ⟨_, swept, -⟩ := (Method.succeeds_bind_pure _ _ _ _ _).mp executed
      obtain ⟨-, -, -, -, _, -, rfl⟩ := (MarketWith.beginCapitalSweep_succeeds _ _ _ _ _).mp swept
      exact le_rfl
  | settleCapitalSweep collateralOracle supplyOracle maxRepayAtoms maxCollateralAtomsToReturn =>
      obtain ⟨_, settled, -⟩ := (Method.succeeds_bind_pure _ _ _ _ _).mp executed
      obtain ⟨effect⟩ := (MarketWith.settleCapitalSweep_succeeds _ _ _ _ _ _ _).mp settled
      have debt := effect.debt.shares_eq
      have paid := effect.shares.bits_nonneg
      rw [effect.final]
      change effect.borrowed.bits ≤ _
      omega
  | socializeLoss collateralOracle supplyOracle =>
      obtain ⟨_, socialized, -⟩ := (Method.succeeds_bind_pure _ _ _ _ _).mp executed
      obtain ⟨-, _, _, _, _, -, -, -, -, -, rfl, -⟩ :=
        (MarketWith.socializeLoss_succeeds _ _ _ _ _).mp socialized
      exact s.position.borrowedShares.bits_nonneg

theorem MarketAfter.ltv {m m' : Market} (after : MarketAfter env infos chain m m')
    (sound : m.config.ltvConfig.Sound) : m'.config.ltvConfig.Sound := by
  cases after with
  | kept => exact sound
  | supply s s' effect =>
      rw [effect.market_eq]
      exact sound
  | borrow s s' effect =>
      rw [effect.config]
      exact sound
  | market m m' action atoms authorized executed =>
      exact (action.execute_effect _ _ _ executed).ltv sound
  | whitelist => exact sound

/-! Whole runs. -/

section Runs

variable {allowed : Call → Prop} {start final : Chain} {events : List AutaraEvent}

theorem Evolves.identity {m : Market} (evolves : Evolves env allowed start events final)
    (held : start.Holds key m) : ∃ m' : Market, final.Holds key m' ∧ m'.identity = m.identity := by
  refine evolves.preserves (P := fun chain => ∃ m' : Market, chain.Holds key m' ∧
    m'.identity = m.identity) ?_ ?_ ⟨m, held, rfl⟩
  · intro call flows chain chain' _ kept step
    obtain ⟨n, held, same⟩ := kept
    obtain ⟨n', held', after, -⟩ := step.market_after held
    exact ⟨n', held', after.identity.trans same⟩
  · intro chain chain' kept same
    obtain ⟨n, held, identity⟩ := kept
    exact ⟨n, (same.market key n).mpr held, identity⟩

/-- A market stays what it is, and the events account for the collateral that it counts. -/
theorem market_endures {m : Market} (held : start.Holds key m)
    (evolves : Evolves env allowed start events final) :
    ∃ m' : Market, final.Holds key m' ∧ m'.identity = m.identity ∧
      m'.collateral = m.collateral + netFlows events key .collateral := by
  have kept := evolves.invariant
    (I := fun flows chain => ∃ m' : Market, chain.Holds key m' ∧ m'.identity = m.identity ∧
      m'.collateral = m.collateral + flows key .collateral) ?_ ?_ 0
    ⟨m, held, rfl, (add_zero _).symm⟩
  · rwa [zero_add] at kept
  · rintro call before flows chain chain' - ⟨n, held, same, counted⟩ step
    obtain ⟨n', held', after, moved⟩ := step.market_after held
    refine ⟨n', held', after.identity.trans same, ?_⟩
    rw [moved, counted, Pi.add_apply, Pi.add_apply, add_assoc]
  · rintro flows chain chain' ⟨n, held, facts⟩ same
    exact ⟨n, (same.market key n).mpr held, facts⟩

theorem plain_market_endures :
    ∃ m m' : Market, plainSupplied.Holds (plainKey 11) m ∧
      (Machine.run (execute plainEnvironment) plainSupplied [plainDeposit, plainBorrow]).Holds
        (plainKey 11) m' ∧
      m'.identity = m.identity ∧
      m'.collateral = m.collateral + netFlows (loggedEvents plainEnvironment plainSupplied
        [plainDeposit, plainBorrow]) (plainKey 11) .collateral := by
  obtain ⟨m, held, -⟩ := plainSupplied_held.1
  have evolves : Evolves plainEnvironment (fun _ => True) plainSupplied _ _ :=
    plain_evolves plainSupplied [plainDeposit, plainBorrow] (by simp [plainDeposit, plainBorrow])
  obtain ⟨m', held', facts⟩ := market_endures held evolves
  exact ⟨m, m', held, held', facts⟩

/-- The terms of a market change only with the signature of its curator. -/
theorem terms_need_curator {m : Market} (held : start.Holds key m)
    (evolves : Evolves env (fun call => ¬ SignedBy call.accounts m.config.curator) start events
      final) : ∃ m', final.Holds key m' ∧ terms m' = terms m := by
  refine evolves.preserves (P := fun chain => ∃ m', chain.Holds key m' ∧ terms m' = terms m) ?_ ?_
    ⟨m, held, rfl⟩
  · rintro call flows chain chain' unsigned ⟨n, held, same⟩ step
    obtain ⟨n', held', after, -⟩ := step.market_after held
    have curator : n.config.curator = m.config.curator :=
      congrArg (fun terms => terms.config.curator) same
    exact ⟨n', held', (after.terms (curator ▸ unsigned)).trans same⟩
  · rintro chain chain' ⟨n, held, facts⟩ same
    exact ⟨n, (same.market key n).mpr held, facts⟩

theorem plain_terms_kept :
    ∃ m m' : Market, plainSupplied.Holds (plainKey 11) m ∧
      (Machine.run (execute plainEnvironment) plainSupplied [plainDeposit, plainBorrow]).Holds
        (plainKey 11) m' ∧ terms m' = terms m := by
  obtain ⟨m, held, curator⟩ := plainSupplied_held.1
  have unsigned : ∀ call ∈ [plainDeposit, plainBorrow], call.context = plainContext ∧
      ¬ SignedBy call.accounts m.config.curator := by
    rw [curator, List.forall_mem_cons, List.forall_mem_singleton]
    exact ⟨⟨rfl, by decide⟩, rfl, by decide⟩
  obtain ⟨m', held', same⟩ := terms_need_curator held (plain_evolves plainSupplied _ unsigned)
  exact ⟨m, m', held, held', same⟩

/-- A supply position changes only with the signature of its authority. -/
theorem supplyPosition_needs_authority {p : SupplyPosition} (held : start.Holds key p)
    (evolves : Evolves env (fun call => ¬ SignedBy call.accounts p.authority) start events final) :
    final.Holds key p := by
  refine evolves.preserves (P := fun chain => chain.Holds key p) ?_ ?_ held
  · intro call flows chain chain' unsigned held step
    obtain ⟨p', held', -, kept⟩ := step.supplyPosition_after held
    rwa [kept unsigned] at held'
  · exact fun chain chain' held same => (same.supply key p).mpr held

theorem plain_supplier_untouched :
    ∃ p : SupplyPosition, plainSupplied.Holds (plainKey 12) p ∧ p.shares.bits ≠ 0 ∧
      (Machine.run (execute plainEnvironment) plainSupplied [plainDeposit, plainBorrow]).Holds
        (plainKey 12) p := by
  obtain ⟨p, held, authority, some⟩ := plainSupplied_held.2.1
  have unsigned : ∀ call ∈ [plainDeposit, plainBorrow], call.context = plainContext ∧
      ¬ SignedBy call.accounts p.authority := by
    rw [authority, List.forall_mem_cons, List.forall_mem_singleton]
    exact ⟨⟨rfl, by decide⟩, rfl, by decide⟩
  exact ⟨p, held, some,
    supplyPosition_needs_authority held (plain_evolves plainSupplied _ unsigned)⟩

/-- The debt of a position grows only with the signature of its authority. -/
theorem debt_needs_authority {p : BorrowPosition} (held : start.Holds key p)
    (evolves : Evolves env (fun call => ¬ SignedBy call.accounts p.authority) start events final) :
    ∃ p' : BorrowPosition, final.Holds key p' ∧ OwnedBy p.authority p.market p' ∧
      p'.borrowedShares.bits ≤ p.borrowedShares.bits := by
  refine evolves.preserves (P := fun chain => ∃ p' : BorrowPosition, chain.Holds key p' ∧
    OwnedBy p.authority p.market p' ∧ p'.borrowedShares.bits ≤ p.borrowedShares.bits) ?_ ?_
    ⟨p, held, ⟨rfl, rfl⟩, le_rfl⟩
  · rintro call flows chain chain' unsigned ⟨q, held, owned, less⟩ step
    obtain ⟨q', held', after⟩ := step.borrowPosition_after held
    have authority : q.authority = p.authority := owned.1
    have market : q.market = p.market := owned.2
    refine ⟨q', held', authority ▸ market ▸ after.owner, le_trans ?_ less⟩
    cases after with
    | kept => exact le_rfl
    | acted s s' action atoms placed authorized executed =>
        exact debt_of_unsigned authorized (authority ▸ unsigned) executed
  · rintro chain chain' ⟨q, held, facts⟩ same
    exact ⟨q, (same.borrow key q).mpr held, facts⟩

theorem plain_debt_kept :
    ∃ p p' : BorrowPosition, plainSupplied.Holds (plainKey 13) p ∧
      (Machine.run (execute plainEnvironment) plainSupplied [plainSupply]).Holds (plainKey 13) p' ∧
      p'.borrowedShares.bits ≤ p.borrowedShares.bits := by
  obtain ⟨p, held, authority, -⟩ := plainSupplied_held.2.2
  have unsigned : ∀ call ∈ [plainSupply], call.context = plainContext ∧
      ¬ SignedBy call.accounts p.authority := by
    rw [authority, List.forall_mem_singleton]
    exact ⟨rfl, by decide⟩
  obtain ⟨p', held', -, less⟩ := debt_needs_authority held (plain_evolves plainSupplied _ unsigned)
  exact ⟨p, p', held, held', less⟩

theorem keeps_debtFree {p : BorrowPosition} {m : Market} (held : start.Holds key p)
    (placed : start.Holds p.market m) (sound : m.config.ltvConfig.Sound)
    (none : p.borrowedShares = Fixed.zero) (inactive : p.sweptCollateralAtoms = 0)
    (evolves : Evolves env (fun call => ¬ SignedBy call.accounts p.authority) start events final) :
    final.Holds key p := by
  refine (evolves.preserves (P := fun chain => chain.Holds key p ∧
    ∃ m, chain.Holds p.market m ∧ m.config.ltvConfig.Sound) ?_ ?_ ⟨held, m, placed, sound⟩).1
  · rintro call flows chain chain' unsigned ⟨held, n, placed, sound⟩ step
    obtain ⟨q, held', after⟩ := step.borrowPosition_after held
    obtain ⟨n', placed', after', -⟩ := step.market_after placed
    refine ⟨?_, n', placed', after'.ltv sound⟩
    cases after with
    | kept => exact held'
    | acted s s' action atoms shown authorized executed =>
        obtain rfl := shown.unique placed
        exact absurd (signed_of_debtFree sound none inactive authorized executed) unsigned
  · rintro chain chain' ⟨held, n, placed, sound⟩ same
    exact ⟨(same.borrow key p).mpr held, n, (same.market _ n).mpr placed, sound⟩

end Runs

end Transactions

end AutaraLending
