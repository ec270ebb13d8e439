import AutaraLending.InstructionSteps

/-! Every instruction of the program, as signed operations on the chain that its events report. -/

namespace AutaraLending

open Support

namespace MarketWith

/-! The seeds of the market, and what leaves or enters its collateral vault. -/

theorem singleEvent_seed {π : Type} {oracles : OracleRate × OracleRate}
    {accounts : PositionAccounts} {side : VaultSide} {atoms : U64} {s s' : MarketWith π}
    {event : SingleMarketTransactionEvent × List (List UInt8)}
    (success : (singleEvent oracles accounts side atoms).Succeeds s event s') :
    s' = s ∧ event.2 = s.market.seed := by
  simp only [singleEvent, Method.succeeds_bind, Method.succeeds_self, Method.succeeds_lift,
    Method.succeeds_pure] at success
  obtain ⟨_, _, ⟨rfl, rfl⟩, _, _, ⟨-, rfl⟩, rfl, rfl⟩ := success
  exact ⟨rfl, rfl⟩

theorem doubleEvent_seed {π : Type} {oracles : OracleRate × OracleRate}
    {accounts : DoublePositionAccounts} {sideIn sideOut : VaultSide} {amountIn amountOut : U64}
    {s s' : MarketWith π} {event : DoubleMarketTransactionEvent × List (List UInt8)}
    (success : (doubleEvent oracles accounts sideIn amountIn sideOut amountOut).Succeeds s event
      s') :
    s' = s ∧ event.2 = s.market.seed := by
  simp only [doubleEvent, Method.succeeds_bind, Method.succeeds_self, Method.succeeds_lift,
    Method.succeeds_pure] at success
  obtain ⟨_, _, ⟨rfl, rfl⟩, _, _, ⟨-, rfl⟩, rfl, rfl⟩ := success
  exact ⟨rfl, rfl⟩

theorem borrow_collateral {atoms : U64} {supplyOracle collateralOracle : OracleRate}
    {s s' : MarketWith BorrowPosition} {u : Unit}
    (success : (borrow atoms supplyOracle collateralOracle).Succeeds s u s') :
    s'.market.collateral - s.market.collateral = 0 := by
  obtain ⟨-, _, _, _, _, -, market_eq, -⟩ := borrow_succeeds _ _ _ _ _ _ success
  rw [market_eq]
  exact sub_self _

theorem depositCollateral_collateral {atoms : U64} {s s' : MarketWith BorrowPosition} {u : Unit}
    (success : (depositCollateral atoms).Succeeds s u s') :
    s'.market.collateral - s.market.collateral = atoms.toNat := by
  obtain ⟨-, _, total, -, total_eq, rfl⟩ := (depositCollateral_succeeds _ _ _ _).mp success
  change (total.toNat : Int) - s.market.collateralVault.totalCollateralAtoms.toNat = _
  omega

theorem liquidate_collateral {collateralOracle supplyOracle : OracleRate}
    {maxRepayAtoms seized : U64}
    {s s' : MarketWith BorrowPosition} {result : LiquidationResultWithCtx}
    (success : (liquidate collateralOracle supplyOracle maxRepayAtoms).Succeeds s result s')
    (seized_ok : result.liquidationResultWithBonus.totalCollateralAtomsToLiquidate = .ok seized) :
    s'.market.collateral - s.market.collateral = -(seized.toNat : Int) := by
  obtain ⟨liquidated⟩ := (liquidate_succeeds _ _ _ _ _ _).mp success
  rw [liquidated.liquidation_eq, liquidated.seized_ok] at seized_ok
  obtain rfl := Except.ok.inj seized_ok
  have total_eq := liquidated.total_eq
  have left : s'.market.collateral = liquidated.total.toNat := by
    rw [congrArg MarketWith.market liquidated.final]
    rfl
  rw [left]
  change _ - (s.market.collateralVault.totalCollateralAtoms.toNat : Int) = _
  omega

theorem beginCapitalSweep_collateral {collateralOracle supplyOracle : OracleRate}
    {s s' : MarketWith BorrowPosition} {health : BorrowPositionHealth}
    (success : (beginCapitalSweep collateralOracle supplyOracle).Succeeds s health s') :
    s'.market.collateral - s.market.collateral =
      -(s'.position.sweptCollateralAtoms.toNat : Int) := by
  obtain ⟨-, -, -, -, total, total_eq, rfl⟩ := (beginCapitalSweep_succeeds _ _ _ _ _).mp success
  change (total.toNat : Int) - s.market.collateralVault.totalCollateralAtoms.toNat =
    -(s.position.collateralDepositedAtoms.toNat : Int)
  omega

theorem settleCapitalSweep_collateral {collateralOracle supplyOracle : OracleRate}
    {maxRepayAtoms maxCollateralAtomsToReturn : U64} {s s' : MarketWith BorrowPosition}
    {result : CapitalSweepSettlementResult}
    (success : (settleCapitalSweep collateralOracle supplyOracle maxRepayAtoms
      maxCollateralAtomsToReturn).Succeeds s result s') :
    s'.market.collateral - s.market.collateral = result.collateralAtomsReturned.toNat := by
  obtain ⟨settlement⟩ := (settleCapitalSweep_succeeds _ _ _ _ _ _ _).mp success
  have total_eq := settlement.total_eq
  have left : s'.market.collateral = settlement.total.toNat := by
    rw [congrArg MarketWith.market settlement.final]
    rfl
  rw [left]
  change _ - (s.market.collateralVault.totalCollateralAtoms.toNat : Int) = _
  omega

theorem socializeLoss_collateral {collateralOracle supplyOracle : OracleRate}
    {s s' : MarketWith BorrowPosition} {paid : U64 × U64}
    (success : (socializeLoss collateralOracle supplyOracle).Succeeds s paid s') :
    s'.market.collateral - s.market.collateral = -(paid.2.toNat : Int) := by
  obtain ⟨-, _, _, _, total, -, -, -, -, total_eq, rfl, paid_eq⟩ :=
    (socializeLoss_succeeds _ _ _ _ _).mp success
  rw [paid_eq]
  change (total.toNat : Int) - s.market.collateralVault.totalCollateralAtoms.toNat = _
  omega

/-! Requests for an amount or for all are single operations. -/

theorem withdrawRequested_action {data : WithdrawSupplyInstruction}
    {s s' : MarketWith SupplyPosition} {amount : U64}
    (success : (withdrawRequested data).Succeeds s amount s') :
    ∃ action : SupplyAction, action.execute.Succeeds s (-amount.toNat) s' := by
  rcases (Method.succeeds_ite _ _ _ _ _ _).mp success with ⟨-, all⟩ | ⟨-, some⟩
  · exact ⟨.withdrawAll, (Method.succeeds_bind_pure _ _ _ _ _).mpr ⟨amount, all, rfl⟩⟩
  · obtain ⟨_, withdrawn, rfl⟩ := (Method.succeeds_bind_pure _ _ _ _ _).mp some
    exact ⟨.withdraw data.amount, (Method.succeeds_bind_pure _ _ _ _ _).mpr ⟨(), withdrawn, rfl⟩⟩

def ByAuthority (action : BorrowAction) : Prop :=
  ∀ env infos chain market (s : MarketWith BorrowPosition), SignedBy infos s.position.authority →
    Transactions.BorrowAuthorized env infos chain market s action

theorem repayRequested_action {all : Bool} {amount paid : U64} {s s' : MarketWith BorrowPosition}
    (success : (repayRequested all amount).Succeeds s paid s') :
    ∃ action : BorrowAction, ByAuthority action ∧ action.execute.Succeeds s paid.toNat s' ∧
      s'.market.collateral - s.market.collateral = 0 := by
  rcases (Method.succeeds_ite _ _ _ _ _ _).mp success with ⟨-, all⟩ | ⟨-, some⟩
  · obtain ⟨-, _, -, -, market_eq, -⟩ := repayAll_succeeds _ _ _ all
    refine ⟨.repayAll, fun _ _ _ _ _ signed => signed,
      (Method.succeeds_bind_pure _ _ _ _ _).mpr ⟨paid, all, rfl⟩, ?_⟩
    rw [market_eq]
    exact sub_self _
  · obtain ⟨_, repaid, rfl⟩ := (Method.succeeds_bind_pure _ _ _ _ _).mp some
    obtain ⟨-, _, _, -, -, market_eq, -⟩ := repay_succeeds _ _ _ _ repaid
    refine ⟨.repay amount, fun _ _ _ _ _ signed => signed,
      (Method.succeeds_bind_pure _ _ _ _ _).mpr ⟨(), repaid, rfl⟩, ?_⟩
    rw [market_eq]
    exact sub_self _

theorem withdrawCollateralRequested_action {oracles : OracleRate × OracleRate} {all : Bool}
    {amount atoms : U64} {s s' : MarketWith BorrowPosition}
    (success : (withdrawCollateralRequested oracles all amount).Succeeds s atoms s') :
    ∃ action : BorrowAction, ByAuthority action ∧ action.execute.Succeeds s 0 s' ∧
      s'.market.collateral - s.market.collateral = -(atoms.toNat : Int) := by
  simp only [withdrawCollateralRequested, Method.succeeds_bind, Method.succeeds_self,
    Method.succeeds_pure] at success
  obtain ⟨_, _, ⟨rfl, rfl⟩, _, _, withdrawn, rfl, rfl⟩ := success
  refine ⟨.withdrawCollateral _ oracles.2 oracles.1, fun _ _ _ _ _ signed => signed,
    (Method.succeeds_bind_pure _ _ _ _ _).mpr ⟨(), withdrawn, rfl⟩, ?_⟩
  obtain ⟨-, _, total, _, -, total_eq, rfl, -⟩ := withdrawCollateral_succeeds _ _ _ _ _ _ withdrawn
  change (total.toNat : Int) - s.market.collateralVault.totalCollateralAtoms.toNat = _
  omega

end MarketWith

def Context.quiet (ctx : Context) : Context := { ctx with callback := fun _ chain => chain }

namespace Transactions

open Program

variable {env : Environment} {ctx : Context} {infos : List AccountInfo} {w w₁ w' : World} {u : Unit}

/-! Instructions on a position. -/

section Position

variable {T : Type} [UserPosition T] {chain : Chain} {market position signer : Pubkey} {m : Market}
  {p : T}

theorem shows_of_reads (reads : ReadsPosition infos chain market position signer m p) :
    Shows chain market position ⟨m, p⟩ :=
  ⟨reads.market_held, reads.position_held, reads.placed⟩

theorem signedBy_of_reads {key : Pubkey}
    (reads : ReadsPosition infos chain market position signer m p) (owned : key = signer) :
    SignedBy infos key := by
  rw [owned]
  exact reads.signed

theorem onMarketWith_read [PositionAccount T] {α : Type} {a : α}
    {method : LendingMethod (MarketWith T) α}
    (reads : ReadsPosition infos w.chain market position signer m p)
    (success : (onMarketWith market position (lending method)).Succeeds w a w₁) :
    ∃ s, method.Succeeds ⟨m, p⟩ a s ∧ w₁.chain = putBoth w.chain market position s ∧
      w₁.invocations = w.invocations := by
  obtain ⟨s, s', read, position_read, called, rfl⟩ :=
    (onMarketWith_succeeds _ _ _ _ _ _).mp success
  obtain rfl := reads.market_held.read read
  obtain rfl := reads.position_held.read position_read
  exact ⟨s', (lending_succeeds _ _ _ _).mp called, (shows_of_reads reads).put_eq, rfl⟩

variable (env) in
theorem session_of_reads [PositionAccount T] {s : MarketWith T}
    (reads : ReadsPosition infos chain market position signer m p)
    {supplyOracle collateralOracle : AccountInfo} {oracles : OracleRate × OracleRate}
    (wrapped : (MarketWith.wrapperMut ctx supplyOracle collateralOracle).Succeeds ⟨m, p⟩ oracles
      s) :
    Session env infos chain market position ⟨m, p⟩ 0 s :=
  .opened env (shows_of_reads reads) wrapped

theorem Session.held [PositionAccount T] {s₀ s : MarketWith T} {flows : Flows}
    (session : Session env infos chain market position s₀ flows s) {chain' : Chain}
    (stored : chain' = putBoth chain market position s) : chain'.Holds market s.market := by
  rw [stored]
  exact session.shown.market_held

theorem Session.path_to [PositionAccount T] {s₀ s : MarketWith T} {flows flows' : Flows}
    (session : Session env infos chain market position s₀ flows s) {chain' : Chain}
    (stored : chain' = putBoth chain market position s) (net : flows = flows') :
    Path env infos chain flows' chain' := by
  rw [stored, ← net]
  exact session.path

end Position

theorem netFlows_singleEvent {π : Type} {oracles : OracleRate × OracleRate}
    {accounts : PositionAccounts} {side : VaultSide} {amount : U64} {s s' : MarketWith π}
    {described : SingleMarketTransactionEvent × List (List UInt8)}
    (success : (MarketWith.singleEvent oracles accounts side amount).Succeeds s described s')
    {event : AutaraEvent} {direction : Direction}
    (flows : event.flows = [described.1.flow side direction]) :
    netFlows [event] =
      netFlow ⟨accounts.market.key, side, direction, amount.toNat, some described.1.mint⟩ := by
  obtain ⟨market_eq, amount_eq, -⟩ := MarketWith.singleEvent_succeeds _ _ _ _ _ _ _ success
  rw [netFlows_single flows, SingleMarketTransactionEvent.flow, market_eq, amount_eq]

theorem netFlows_doubleEvent {π : Type} {oracles : OracleRate × OracleRate}
    {accounts : DoublePositionAccounts} {sideIn sideOut : VaultSide} {amountIn amountOut : U64}
    {s s' : MarketWith π} {described : DoubleMarketTransactionEvent × List (List UInt8)}
    (success : (MarketWith.doubleEvent oracles accounts sideIn amountIn sideOut amountOut).Succeeds
      s described s')
    {event : AutaraEvent}
    (flows : event.flows =
      [⟨described.1.market, sideOut, .outward, described.1.amountOut.toNat,
          some described.1.mintOut⟩,
        ⟨described.1.market, sideIn, .inward, described.1.amountIn.toNat,
          some described.1.mintIn⟩]) :
    netFlows [event] =
      netFlow ⟨accounts.market.key, sideOut, .outward, amountOut.toNat, some described.1.mintOut⟩ +
        netFlow ⟨accounts.market.key, sideIn, .inward, amountIn.toNat,
          some described.1.mintIn⟩ := by
  obtain ⟨market_eq, in_eq, out_eq, -⟩ := MarketWith.doubleEvent_succeeds _ _ _ _ _ _ _ _ _ success
  rw [netFlows_double flows, market_eq, in_eq, out_eq]

theorem carries_transferIn {π : Type} {oracles : OracleRate × OracleRate}
    {accounts : PositionAccounts} {side : VaultSide} {amount : U64} {s s' : MarketWith π}
    {described : SingleMarketTransactionEvent × List (List UInt8)}
    (success : (MarketWith.singleEvent oracles accounts side amount).Succeeds s described s')
    {chain : Chain} {m : Market} (held : chain.Holds accounts.market.key m)
    (signed : SignedBy infos accounts.authority.key)
    (vault_eq : (m.vaultKeys side).vault = accounts.marketVault.key) :
    Carries infos chain (described.1.flow side .inward) (accounts.transferIn amount) := by
  obtain ⟨market_eq, amount_eq, -⟩ := MarketWith.singleEvent_succeeds _ _ _ _ _ _ _ success
  exact carries_inward market_eq (congrArg UInt64.toNat amount_eq) rfl held signed vault_eq

theorem carries_transferOut {π : Type} {oracles : OracleRate × OracleRate}
    {accounts : PositionAccounts} {side : VaultSide} {amount : U64} {s s' : MarketWith π}
    {described : SingleMarketTransactionEvent × List (List UInt8)}
    (success : (MarketWith.singleEvent oracles accounts side amount).Succeeds s described s')
    {chain : Chain} {m : Market} (held : chain.Holds accounts.market.key m)
    (seed_eq : described.2 = m.seed)
    (vault_eq : (m.vaultKeys side).vault = accounts.marketVault.key) :
    Carries infos chain (described.1.flow side .outward)
      (accounts.transferOut amount described.2) := by
  obtain ⟨market_eq, amount_eq, -⟩ := MarketWith.singleEvent_succeeds _ _ _ _ _ _ _ success
  exact carries_outward market_eq (congrArg UInt64.toNat amount_eq) rfl held seed_eq vault_eq

theorem supplyApl_processed {data : SupplyAplInstruction}
    (success : (SupplyAplAccounts.fromAccounts env ctx infos >>= fun accounts =>
      processSupplyApl env ctx accounts data).Succeeds w u w') :
    ∃ calls, Processed env ctx infos w calls w'.chain w' := by
  obtain ⟨accounts, _, accepted, processed⟩ := (Method.succeeds_bind _ _ _ _ _).mp success
  obtain ⟨rfl, m, p, reads, owned, vault_eq⟩ := PositionAccounts.fromAccounts_reads accepted
  simp only [processSupplyApl, Method.succeeds_bind] at processed
  obtain ⟨⟨event, seed⟩, _, opened, _, _, logged, moved⟩ := processed
  obtain ⟨s, called, stored, start⟩ := onMarketWith_read reads opened
  simp only [Method.succeeds_bind] at called
  obtain ⟨oracles, s₁, wrapped, _, s₂, lent, described⟩ := called
  obtain ⟨rfl, seed_eq⟩ := MarketWith.singleEvent_seed described
  have executed : (SupplyAction.lend data.amount).execute.Succeeds s₁ data.amount.toNat s :=
    (Method.succeeds_bind_pure _ _ _ _ _).mpr ⟨(), lent, rfl⟩
  have session := (session_of_reads env reads wrapped).supply executed
    (signedBy_of_reads reads owned)
  refine processed_of_transfer start (session.path_to stored ?_) (session.held stored) logged moved
    seed_eq rfl
    (carries_transferIn described (session.held stored) reads.signed (session.vault vault_eq))
  rw [netFlows_singleEvent described rfl, zero_add]
  rfl

theorem withdrawSupply_processed {data : WithdrawSupplyInstruction}
    (success : (WithdrawSupplyAccounts.fromAccounts env ctx infos >>= fun accounts =>
      processWithdrawSupply env ctx accounts data).Succeeds w u w') :
    ∃ calls, Processed env ctx infos w calls w'.chain w' := by
  obtain ⟨accounts, _, accepted, processed⟩ := (Method.succeeds_bind _ _ _ _ _).mp success
  obtain ⟨rfl, m, p, reads, owned, vault_eq⟩ := PositionAccounts.fromAccounts_reads accepted
  simp only [processWithdrawSupply, Method.succeeds_bind] at processed
  obtain ⟨⟨amount, event, seed⟩, _, opened, _, _, logged, moved⟩ := processed
  obtain ⟨s, called, stored, start⟩ := onMarketWith_read reads opened
  simp only [Method.succeeds_bind, Method.succeeds_pure, Prod.mk.injEq] at called
  obtain ⟨oracles, s₁, wrapped, _, s₂, withdrawn, _, _, described, ⟨rfl, rfl⟩, rfl⟩ := called
  obtain ⟨rfl, seed_eq⟩ := MarketWith.singleEvent_seed described
  obtain ⟨action, executed⟩ := MarketWith.withdrawRequested_action withdrawn
  have session := (session_of_reads env reads wrapped).supply executed
    (signedBy_of_reads reads owned)
  refine processed_of_transfer start (session.path_to stored ?_) (session.held stored) logged moved
    seed_eq rfl
    (carries_transferOut described (session.held stored) seed_eq (session.vault vault_eq))
  rw [netFlows_singleEvent described rfl, zero_add]
  rfl

theorem borrowApl_processed {data : BorrowAplInstruction}
    (success : (BorrowAplAccounts.fromAccounts env ctx infos >>= fun accounts =>
      processBorrowApl env ctx accounts data).Succeeds w u w') :
    ∃ calls, Processed env ctx infos w calls w'.chain w' := by
  obtain ⟨accounts, _, accepted, processed⟩ := (Method.succeeds_bind _ _ _ _ _).mp success
  obtain ⟨rfl, m, p, reads, owned, vault_eq⟩ := PositionAccounts.fromAccounts_reads accepted
  simp only [processBorrowApl, Method.succeeds_bind] at processed
  obtain ⟨⟨event, seed⟩, _, opened, _, _, logged, moved⟩ := processed
  obtain ⟨s, called, stored, start⟩ := onMarketWith_read reads opened
  simp only [Method.succeeds_bind] at called
  obtain ⟨oracles, s₁, wrapped, _, s₂, borrowed, described⟩ := called
  obtain ⟨rfl, seed_eq⟩ := MarketWith.singleEvent_seed described
  have executed : (BorrowAction.borrow data.amount oracles.1 oracles.2).execute.Succeeds s₁
      (-data.amount.toNat) s :=
    (Method.succeeds_bind_pure _ _ _ _ _).mpr ⟨(), borrowed, rfl⟩
  have opened := session_of_reads env reads wrapped
  have session := opened.borrow executed (signedBy_of_reads reads (opened.owner.trans owned))
  refine processed_of_transfer start (session.path_to stored ?_) (session.held stored) logged moved
    seed_eq rfl
    (carries_transferOut described (session.held stored) seed_eq (session.vault vault_eq))
  rw [netFlows_singleEvent described rfl, MarketWith.borrow_collateral borrowed, zero_add]
  rfl

theorem repayApl_processed {data : RepayAplInstruction}
    (success : (RepayAplAccounts.fromAccounts env ctx infos >>= fun accounts =>
      processRepayApl env ctx accounts data).Succeeds w u w') :
    ∃ calls, Processed env ctx infos w calls w'.chain w' := by
  obtain ⟨accounts, _, accepted, processed⟩ := (Method.succeeds_bind _ _ _ _ _).mp success
  obtain ⟨rfl, m, p, reads, owned, vault_eq⟩ := PositionAccounts.fromAccounts_reads accepted
  simp only [processRepayApl, Method.succeeds_bind] at processed
  obtain ⟨⟨amount, event, seed⟩, _, opened, _, _, logged, moved⟩ := processed
  obtain ⟨s, called, stored, start⟩ := onMarketWith_read reads opened
  simp only [Method.succeeds_bind, Method.succeeds_pure, Prod.mk.injEq] at called
  obtain ⟨oracles, s₁, wrapped, _, s₂, repaid, _, _, described, ⟨rfl, rfl⟩, rfl⟩ := called
  obtain ⟨rfl, seed_eq⟩ := MarketWith.singleEvent_seed described
  obtain ⟨action, byAuthority, executed, collateral⟩ := MarketWith.repayRequested_action repaid
  have opened := session_of_reads env reads wrapped
  have session := opened.borrow executed
    (byAuthority _ _ _ _ _ (signedBy_of_reads reads (opened.owner.trans owned)))
  refine processed_of_transfer start (session.path_to stored ?_) (session.held stored) logged moved
    seed_eq rfl
    (carries_transferIn described (session.held stored) reads.signed (session.vault vault_eq))
  rw [netFlows_singleEvent described rfl, collateral, zero_add]
  rfl

theorem depositAplCollateral_processed {data : DepositAplCollateralInstruction}
    (success : (DepositAplCollateralAccounts.fromAccounts env ctx infos >>= fun accounts =>
      processDepositAplCollateral env ctx accounts data).Succeeds w u w') :
    ∃ calls, Processed env ctx infos w calls w'.chain w' := by
  obtain ⟨accounts, _, accepted, processed⟩ := (Method.succeeds_bind _ _ _ _ _).mp success
  obtain ⟨rfl, m, p, reads, owned, vault_eq⟩ := PositionAccounts.fromAccounts_reads accepted
  simp only [processDepositAplCollateral, Method.succeeds_bind] at processed
  obtain ⟨⟨event, seed⟩, _, opened, _, _, logged, moved⟩ := processed
  obtain ⟨s, called, stored, start⟩ := onMarketWith_read reads opened
  simp only [Method.succeeds_bind] at called
  obtain ⟨oracles, s₁, wrapped, _, s₂, deposited, described⟩ := called
  obtain ⟨rfl, seed_eq⟩ := MarketWith.singleEvent_seed described
  have executed : (BorrowAction.depositCollateral data.amount).execute.Succeeds s₁ 0 s :=
    (Method.succeeds_bind_pure _ _ _ _ _).mpr ⟨(), deposited, rfl⟩
  have opened := session_of_reads env reads wrapped
  have session := opened.borrow executed (signedBy_of_reads reads (opened.owner.trans owned))
  refine processed_of_transfer start (session.path_to stored ?_) (session.held stored) logged moved
    seed_eq rfl
    (carries_transferIn described (session.held stored) reads.signed (session.vault vault_eq))
  rw [netFlows_singleEvent described rfl, MarketWith.depositCollateral_collateral deposited,
    zero_add]
  rfl

theorem withdrawAplCollateral_processed {data : WithdrawAplCollateralInstruction}
    (success : (WithdrawAplCollateralAccounts.fromAccounts env ctx infos >>= fun accounts =>
      processWithdrawAplCollateral env ctx accounts data).Succeeds w u w') :
    ∃ calls, Processed env ctx infos w calls w'.chain w' := by
  obtain ⟨accounts, _, accepted, processed⟩ := (Method.succeeds_bind _ _ _ _ _).mp success
  obtain ⟨rfl, m, p, reads, owned, vault_eq⟩ := PositionAccounts.fromAccounts_reads accepted
  simp only [processWithdrawAplCollateral, Method.succeeds_bind] at processed
  obtain ⟨⟨atoms, event, seed⟩, _, opened, _, _, logged, moved⟩ := processed
  obtain ⟨s, called, stored, start⟩ := onMarketWith_read reads opened
  simp only [Method.succeeds_bind, Method.succeeds_pure, Prod.mk.injEq] at called
  obtain ⟨oracles, s₁, wrapped, _, s₂, withdrawn, _, _, described, ⟨rfl, rfl⟩, rfl⟩ := called
  obtain ⟨rfl, seed_eq⟩ := MarketWith.singleEvent_seed described
  obtain ⟨action, byAuthority, executed, collateral⟩ :=
    MarketWith.withdrawCollateralRequested_action withdrawn
  have opened := session_of_reads env reads wrapped
  have session := opened.borrow executed
    (byAuthority _ _ _ _ _ (signedBy_of_reads reads (opened.owner.trans owned)))
  refine processed_of_transfer start (session.path_to stored ?_) (session.held stored) logged moved
    seed_eq rfl
    (carries_transferOut described (session.held stored) seed_eq (session.vault vault_eq))
  rw [netFlows_singleEvent described rfl, collateral, zero_add]
  rfl

/-! Instructions with a callback. -/

theorem invoke_maintains {chain : Chain} {call : Invocation}
    (kept : ∀ chain', call.effect env ctx chain = .ok chain' → chain' = chain) :
    Method.Maintains (fun w => w.chain = chain) (invoke env ctx call) := by
  rintro w rfl
  simp only [invoke, Bind.bind, Method.self]
  cases ctx.refusal call w.chain with
  | some e => rfl
  | none =>
      cases effect : call.effect env ctx w.chain with
      | error e => rfl
      | ok chain' => exact kept chain' effect

theorem quiet_calls_maintain {chain : Chain} (market : Pubkey) (event : AutaraEvent)
    (seeds seeds₁ seeds₂ : List (List UInt8)) (source source' destination destination' authority
    authority' : Pubkey) (amount amount' : U64) (callback : Option Instruction) :
    Method.Maintains (fun w => w.chain = chain) (do
      invoke env ctx.quiet (.log market event seeds)
      invoke env ctx.quiet (.transfer source destination authority amount seeds₁)
      invokeCallback env ctx.quiet callback
      invoke env ctx.quiet (.transfer source' destination' authority' amount' seeds₂)) := by
  refine .bind (invoke_maintains ?_) fun _ => .bind (invoke_maintains ?_) fun _ =>
    .bind ?_ fun _ => invoke_maintains ?_
  · rintro _ ⟨⟩
    rfl
  · rintro _ ⟨⟩
    rfl
  · cases callback with
    | none => exact Method.maintains_pure ()
    | some ix =>
        refine invoke_maintains ?_
        rintro _ ⟨⟩
        rfl
  · rintro _ ⟨⟩
    rfl

theorem bind_of_succeeds {ε σ α β : Type} {m : Method ε σ α} {f : α → Method ε σ β} {s t : σ}
    {a : α} (success : m.Succeeds s a t) : (m >>= f) s = f a t := by
  simp only [Bind.bind, show m s = (.ok a, t) from success]

theorem chain_of_parts {α β γ : Type} {first : Program α} {second : α → Program β}
    {rest : α → β → Program γ} {w₀ : World} {a : α} {b : β} (read : first.Succeeds w a w₀)
    (written : (second a).Succeeds w₀ b w₁)
    (kept : Method.Maintains (fun w => w.chain = w₁.chain) (rest a b)) :
    ((first >>= fun a => second a >>= rest a) w).2.chain = w₁.chain := by
  rw [bind_of_succeeds read, bind_of_succeeds written]
  exact kept _ rfl

theorem borrowDepositApl_processed {data : BorrowDepositAplInstruction}
    (success : (DoublePositionAccounts.fromAccounts env ctx infos >>= fun accounts =>
      processBorrowDepositApl env ctx accounts data).Succeeds w u w') :
    ∃ calls, Processed env ctx infos w calls
      ((DoublePositionAccounts.fromAccounts env ctx.quiet infos >>= fun accounts =>
        processBorrowDepositApl env ctx.quiet accounts data) w).2.chain w' := by
  obtain ⟨accounts, w₀, accepted, processed⟩ := (Method.succeeds_bind _ _ _ _ _).mp success
  obtain ⟨rfl, m, p, reads, owned, supply_eq, collateral_eq⟩ :=
    DoublePositionAccounts.fromAccounts_reads accepted
  simp only [processBorrowDepositApl, Method.succeeds_bind] at processed
  obtain ⟨⟨event, seed⟩, w₁, opened, _, _, logged, _, _, moved, _, _, called_back, moved'⟩ :=
    processed
  obtain ⟨s, called, stored, start⟩ := onMarketWith_read reads opened
  simp only [Method.succeeds_bind] at called
  obtain ⟨oracles, s₁, wrapped, _, s₂, deposited, _, s₃, borrowed, described⟩ := called
  obtain ⟨rfl, seed_eq⟩ := MarketWith.doubleEvent_seed described
  have deposit : (BorrowAction.depositCollateral data.depositAmount).execute.Succeeds s₁ 0 s₂ :=
    (Method.succeeds_bind_pure _ _ _ _ _).mpr ⟨(), deposited, rfl⟩
  have loan : (BorrowAction.borrow data.borrowAmount oracles.1 oracles.2).execute.Succeeds s₂
      (-data.borrowAmount.toNat) s :=
    (Method.succeeds_bind_pure _ _ _ _ _).mpr ⟨(), borrowed, rfl⟩
  have opened' := session_of_reads env reads wrapped
  have halfway := opened'.borrow deposit (signedBy_of_reads reads (opened'.owner.trans owned))
  have session := halfway.borrow loan (signedBy_of_reads reads (halfway.owner.trans owned))
  have paused : ((DoublePositionAccounts.fromAccounts env ctx.quiet infos >>= fun accounts =>
      processBorrowDepositApl env ctx.quiet accounts data) w₀).2.chain = w₁.chain :=
    chain_of_parts accepted opened (quiet_calls_maintain _ _ _ _ _ _ _ _ _ _ _ _ _ _)
  rw [paused]
  obtain ⟨market_eq, in_eq, out_eq, -⟩ :=
    MarketWith.doubleEvent_succeeds _ _ _ _ _ _ _ _ _ described
  refine processed_of_transfers data.ixCallback start (session.path_to stored ?_)
    (session.held stored) logged moved called_back moved' seed_eq rfl
    (carries_outward market_eq (congrArg UInt64.toNat out_eq) rfl (session.held stored) seed_eq
      (session.vault supply_eq))
    (carries_inward market_eq (congrArg UInt64.toNat in_eq) rfl (session.held stored) reads.signed
      (session.vault collateral_eq))
  rw [netFlows_doubleEvent described rfl, MarketWith.borrow_collateral borrowed,
    MarketWith.depositCollateral_collateral deposited]
  simp only [netFlow, netAmount, moved_add, zero_add, add_zero]

theorem withdrawRepayApl_processed {data : WithdrawRepayAplInstruction}
    (success : (DoublePositionAccounts.fromAccounts env ctx infos >>= fun accounts =>
      processWithdrawRepayApl env ctx accounts data).Succeeds w u w') :
    ∃ calls, Processed env ctx infos w calls
      ((DoublePositionAccounts.fromAccounts env ctx.quiet infos >>= fun accounts =>
        processWithdrawRepayApl env ctx.quiet accounts data) w).2.chain w' := by
  obtain ⟨accounts, w₀, accepted, processed⟩ := (Method.succeeds_bind _ _ _ _ _).mp success
  obtain ⟨rfl, m, p, reads, owned, supply_eq, collateral_eq⟩ :=
    DoublePositionAccounts.fromAccounts_reads accepted
  simp only [processWithdrawRepayApl, Method.succeeds_bind] at processed
  obtain ⟨⟨paid, withdrawn, event, seed⟩, w₁, opened, _, _, logged, _, _, moved, _, _, called_back,
    moved'⟩ := processed
  obtain ⟨s, called, stored, start⟩ := onMarketWith_read reads opened
  simp only [Method.succeeds_bind, Method.succeeds_pure, Prod.mk.injEq] at called
  obtain ⟨oracles, s₁, wrapped, _, s₂, repaid, _, s₃, taken, _, _, described, ⟨rfl, rfl, rfl⟩,
    rfl⟩ := called
  obtain ⟨rfl, seed_eq⟩ := MarketWith.doubleEvent_seed described
  obtain ⟨repayment, byAuthority, repaid, kept⟩ := MarketWith.repayRequested_action repaid
  obtain ⟨withdrawal, byAuthority', taken, collateral⟩ :=
    MarketWith.withdrawCollateralRequested_action taken
  have opened' := session_of_reads env reads wrapped
  have halfway := opened'.borrow repaid
    (byAuthority _ _ _ _ _ (signedBy_of_reads reads (opened'.owner.trans owned)))
  have session := halfway.borrow taken
    (byAuthority' _ _ _ _ _ (signedBy_of_reads reads (halfway.owner.trans owned)))
  have paused : ((DoublePositionAccounts.fromAccounts env ctx.quiet infos >>= fun accounts =>
      processWithdrawRepayApl env ctx.quiet accounts data) w₀).2.chain = w₁.chain :=
    chain_of_parts accepted opened (quiet_calls_maintain _ _ _ _ _ _ _ _ _ _ _ _ _ _)
  rw [paused]
  obtain ⟨market_eq, in_eq, out_eq, -⟩ :=
    MarketWith.doubleEvent_succeeds _ _ _ _ _ _ _ _ _ described
  refine processed_of_transfers data.ixCallback start (session.path_to stored ?_)
    (session.held stored) logged moved called_back moved' seed_eq rfl
    (carries_outward market_eq (congrArg UInt64.toNat out_eq) rfl (session.held stored) seed_eq
      (session.vault collateral_eq))
    (carries_inward market_eq (congrArg UInt64.toNat in_eq) rfl (session.held stored) reads.signed
      (session.vault supply_eq))
  rw [netFlows_doubleEvent described rfl, kept, collateral]
  simp only [netFlow, netAmount, moved_add, zero_add, add_zero]

theorem liquidate_processed {data : LiquidateInstruction}
    (success : (LiquidateAccounts.fromAccounts env ctx infos >>= fun accounts =>
      processLiquidate env ctx accounts data).Succeeds w u w') :
    ∃ calls, Processed env ctx infos w calls
      ((LiquidateAccounts.fromAccounts env ctx.quiet infos >>= fun accounts =>
        processLiquidate env ctx.quiet accounts data) w).2.chain w' := by
  obtain ⟨accounts, w₀, accepted, processed⟩ := (Method.succeeds_bind _ _ _ _ _).mp success
  obtain ⟨rfl, m, p, reads, may, supply_eq, collateral_eq⟩ :=
    LiquidateAccounts.fromAccounts_reads accepted
  simp only [processLiquidate, Method.succeeds_bind] at processed
  obtain ⟨⟨liquidation, total, event, seed⟩, w₁, opened, _, _, logged, _, _, moved, _, _,
    called_back, moved'⟩ := processed
  obtain ⟨s, called, stored, start⟩ := onMarketWith_read reads opened
  simp only [Method.succeeds_bind, Method.succeeds_lift, Method.succeeds_rejectIf,
    Method.succeeds_self, Method.succeeds_pure, Prod.mk.injEq] at called
  obtain ⟨oracles, s₁, wrapped, result, s₂, liquidated, _, _, ⟨total_ok, rfl⟩, _, _, ⟨-, rfl⟩, _, _,
    ⟨rfl, rfl⟩, ⟨rfl, rfl, rfl, rfl⟩, rfl⟩ := called
  have executed : (BorrowAction.liquidate oracles.2 oracles.1 data.maxBorrowedAtomsToRepay
      ).execute.Succeeds s₁
        result.liquidationResultWithBonus.borrowedAtomsToRepay.toNat s₂ :=
    (Method.succeeds_bind_pure _ _ _ _ _).mpr ⟨_, liquidated, rfl⟩
  have opened' := session_of_reads env reads wrapped
  have session := opened'.borrow executed ⟨_, reads.signed, opened'.mayLiquidate may⟩
  have paused : ((LiquidateAccounts.fromAccounts env ctx.quiet infos >>= fun accounts =>
      processLiquidate env ctx.quiet accounts data) w₀).2.chain = w₁.chain :=
    chain_of_parts accepted opened (quiet_calls_maintain _ _ _ _ _ _ _ _ _ _ _ _ _ _)
  rw [paused]
  refine processed_of_transfers data.ixCallback start (session.path_to stored ?_)
    (session.held stored) logged moved called_back moved' rfl rfl
    (carries_outward rfl ((U64.safeAdd_ok _ _ _).mp total_ok) rfl (session.held stored) rfl
      (session.vault collateral_eq))
    (carries_inward rfl rfl rfl (session.held stored) reads.signed (session.vault supply_eq))
  rw [netFlows_double rfl, MarketWith.liquidate_collateral liquidated total_ok,
    ← (U64.safeAdd_ok _ _ _).mp total_ok]
  simp only [netFlow, netAmount, moved_add, zero_add, add_zero]
  rfl

/-! Instructions of the curator on a position. -/

theorem socializeLoss_processed {data : SocializeLossInstruction}
    (success : (CollateralReceiverAccounts.fromAccounts env ctx infos >>= fun accounts =>
      processSocializeLoss env ctx accounts data).Succeeds w u w') :
    ∃ calls, Processed env ctx infos w calls w'.chain w' := by
  obtain ⟨accounts, _, accepted, processed⟩ := (Method.succeeds_bind _ _ _ _ _).mp success
  obtain ⟨rfl, m, p, reads, curated, vault_eq⟩ :=
    CollateralReceiverAccounts.fromAccounts_reads accepted
  simp only [processSocializeLoss, Method.succeeds_bind] at processed
  obtain ⟨⟨debt, collateral, seed⟩, _, opened, _, _, logged, moved⟩ := processed
  obtain ⟨s, called, stored, start⟩ := onMarketWith_read reads opened
  simp only [Method.succeeds_bind, Method.succeeds_self, Method.succeeds_pure, Prod.mk.injEq]
    at called
  obtain ⟨oracles, s₁, wrapped, loss, s₂, spread, _, _, ⟨rfl, rfl⟩, ⟨rfl, rfl, rfl⟩, rfl⟩ := called
  have executed : (BorrowAction.socializeLoss oracles.2 oracles.1).execute.Succeeds s₁ 0 s₂ :=
    (Method.succeeds_bind_pure _ _ _ _ _).mpr ⟨_, spread, rfl⟩
  have opened' := session_of_reads env reads wrapped
  have curator : s₁.market.config.curator = accounts.curator.key :=
    (congrArg MarketConfig.curator opened'.config).trans curated
  have session := opened'.borrow executed (signedBy_of_reads reads curator)
  refine processed_of_transfer start (session.path_to stored ?_) (session.held stored) logged moved
    rfl rfl (carries_outward rfl rfl rfl (session.held stored) rfl (session.vault vault_eq))
  rw [netFlows_single rfl, MarketWith.socializeLoss_collateral spread, zero_add]
  rfl

theorem beginCapitalSweep_processed {data : BeginCapitalSweepInstruction}
    (success : (CollateralReceiverAccounts.fromAccounts env ctx infos >>= fun accounts =>
      processBeginCapitalSweep env ctx accounts data).Succeeds w u w') :
    ∃ calls, Processed env ctx infos w calls w'.chain w' := by
  obtain ⟨accounts, _, accepted, processed⟩ := (Method.succeeds_bind _ _ _ _ _).mp success
  obtain ⟨rfl, m, p, reads, curated, vault_eq⟩ :=
    CollateralReceiverAccounts.fromAccounts_reads accepted
  simp only [processBeginCapitalSweep, Method.succeeds_bind] at processed
  obtain ⟨⟨health, swept, mint, seed⟩, _, opened, _, _, logged, moved⟩ := processed
  obtain ⟨s, called, stored, start⟩ := onMarketWith_read reads opened
  simp only [Method.succeeds_bind, Method.succeeds_self, Method.succeeds_pure, Prod.mk.injEq]
    at called
  obtain ⟨oracles, s₁, wrapped, _, s₂, begun, _, _, ⟨rfl, rfl⟩, ⟨rfl, rfl, rfl, rfl⟩, rfl⟩ := called
  have executed : (BorrowAction.beginCapitalSweep oracles.2 oracles.1).execute.Succeeds s₁ 0 s₂ :=
    (Method.succeeds_bind_pure _ _ _ _ _).mpr ⟨_, begun, rfl⟩
  have opened' := session_of_reads env reads wrapped
  have curator : s₁.market.config.curator = accounts.curator.key :=
    (congrArg MarketConfig.curator opened'.config).trans curated
  have session := opened'.borrow executed (signedBy_of_reads reads curator)
  refine processed_of_transfer start (session.path_to stored ?_) (session.held stored) logged moved
    rfl rfl (carries_outward rfl rfl rfl (session.held stored) rfl (session.vault vault_eq))
  rw [netFlows_single rfl, MarketWith.beginCapitalSweep_collateral begun, zero_add]
  rfl

theorem settleCapitalSweep_processed {data : SettleCapitalSweepInstruction}
    (success : (SettleCapitalSweepAccounts.fromAccounts env ctx infos >>= fun accounts =>
      processSettleCapitalSweep env ctx accounts data).Succeeds w u w') :
    ∃ calls, Processed env ctx infos w calls w'.chain w' := by
  obtain ⟨accounts, _, accepted, processed⟩ := (Method.succeeds_bind _ _ _ _ _).mp success
  obtain ⟨rfl, m, p, reads, curated, supply_eq, collateral_eq⟩ :=
    SettleCapitalSweepAccounts.fromAccounts_reads accepted
  simp only [processSettleCapitalSweep, Method.succeeds_bind] at processed
  obtain ⟨⟨settlement, event, seed⟩, w₁, opened, _, w₂, logged, _, w₃, moved, moved'⟩ := processed
  obtain ⟨s, called, stored, start⟩ := onMarketWith_read reads opened
  simp only [Method.succeeds_bind, Method.succeeds_self, Method.succeeds_pure, Prod.mk.injEq]
    at called
  obtain ⟨oracles, s₁, wrapped, result, s₂, settled, _, _, ⟨rfl, rfl⟩, ⟨rfl, rfl, rfl⟩, rfl⟩ :=
    called
  have executed : (BorrowAction.settleCapitalSweep oracles.2 oracles.1 data.maxBorrowedAtomsToRepay
      data.maxCollateralAtomsToReturn).execute.Succeeds s₁
        result.liquidationResultWithBonus.borrowedAtomsToRepay.toNat s₂ :=
    (Method.succeeds_bind_pure _ _ _ _ _).mpr ⟨_, settled, rfl⟩
  have opened' := session_of_reads env reads wrapped
  have curator : s₁.market.config.curator = accounts.curator.key :=
    (congrArg MarketConfig.curator opened'.config).trans curated
  have session := opened'.borrow executed (signedBy_of_reads reads curator)
  have uncalled : (invokeCallback env ctx none).Succeeds w₃ () w₃ := rfl
  have written : w'.chain = w₁.chain :=
    ((invoke_transfer moved').1.trans (invoke_transfer moved).1).trans (invoke_log logged).1
  rw [written]
  refine processed_of_transfers none start (session.path_to stored ?_) (session.held stored) logged
    moved uncalled moved' rfl rfl
    (carries_inward rfl rfl rfl (session.held stored) reads.signed (session.vault supply_eq))
    (carries_inward rfl rfl rfl (session.held stored) reads.signed (session.vault collateral_eq))
  rw [netFlows_double rfl, MarketWith.settleCapitalSweep_collateral settled]
  simp only [netFlow, netAmount, moved_add, zero_add, add_zero]
  rfl

/-! Instructions on a market alone. -/

theorem onState_read {T α : Type} [LendingAccount T] {key : Pubkey} {t : T} {a : α}
    {method : LendingMethod T α} (held : w.chain.Holds key t)
    (success : (onState key (lending method)).Succeeds w a w₁) :
    ∃ t', method.Succeeds t a t' ∧ w₁.chain = Function.update w.chain key (Slot.of t') ∧
      w₁.invocations = w.invocations := by
  obtain ⟨s, s', read, called, rfl⟩ := (onState_succeeds _ _ _ _ _).mp success
  obtain rfl := held.read read
  exact ⟨s', (lending_succeeds _ _ _ _).mp called, Chain.put_of _ _ held.1 _, rfl⟩

theorem MarketSession.holds {key : Pubkey} {m₀ m : Market} {flows : Flows} {chain chain' : Chain}
    (session : MarketSession env infos chain key m₀ flows m)
    (stored : chain' = Function.update chain key (Slot.of m)) : chain'.Holds key m := by
  rw [stored]
  exact session.held

theorem MarketSession.path_to {key : Pubkey} {m₀ m : Market} {flows flows' : Flows}
    {chain chain' : Chain} (session : MarketSession env infos chain key m₀ flows m)
    (stored : chain' = Function.update chain key (Slot.of m)) (net : flows = flows') :
    Path env infos chain flows' chain' := by
  rw [stored, ← net]
  exact session.path

theorem donateSupply_processed {data : DonateSupplyInstruction}
    (success : (DonateSupplyAccounts.fromAccounts env ctx infos >>= fun accounts =>
      processDonateSupply env ctx accounts data).Succeeds w u w') :
    ∃ calls, Processed env ctx infos w calls w'.chain w' := by
  obtain ⟨accounts, _, accepted, processed⟩ := (Method.succeeds_bind _ _ _ _ _).mp success
  obtain ⟨rfl, signed, m, held, vault_eq⟩ := DonateSupplyAccounts.fromAccounts_reads accepted
  simp only [processDonateSupply, Method.succeeds_bind] at processed
  obtain ⟨⟨mint, seed⟩, _, opened, _, _, logged, moved⟩ := processed
  obtain ⟨m', called, stored, start⟩ := onState_read held opened
  simp only [Method.succeeds_bind, Method.succeeds_self, Method.succeeds_pure,
    Prod.mk.injEq] at called
  obtain ⟨_, m₁, synced, _, m₂, donated, _, _, ⟨rfl, rfl⟩, ⟨rfl, rfl⟩, rfl⟩ := called
  have executed : (MarketAction.donateSupplyAtoms data.amount).execute.Succeeds m₁
      data.amount.toNat m₂ :=
    (Method.succeeds_bind_pure _ _ _ _ _).mpr ⟨(), donated, rfl⟩
  have session := ((MarketSession.opened env infos held).update
    (.syncClock ctx.unixTimestamp) rfl synced trivial).act executed ⟨_, signed⟩
  refine processed_of_transfer start (session.path_to stored ?_) (session.holds stored) logged moved
    rfl rfl (carries_inward rfl rfl rfl (session.holds stored) signed (session.vault vault_eq))
  rw [netFlows_single rfl, zero_add]
  rfl

variable (env infos) in
theorem redeemFees_session {redeem : LendingMethod Market U64} (action : MarketAction)
    {market feeReceiver : Pubkey} {m m' : Market}
    {redeemed : U64 × ReedeemFeeEvent × List (List UInt8)}
    (executes : action.execute = redeem >>= fun atoms => pure (-atoms.toNat : Int))
    (held : w.chain.Holds market m)
    (success : (Market.redeemFees ctx redeem market feeReceiver).Succeeds m redeemed m')
    (authorized : ∀ m₁, MarketSession env infos w.chain market m 0 m₁ →
      MarketAuthorized env infos (Function.update w.chain market (Slot.of m₁)) m₁ action) :
    redeemed.2.1.market = market ∧ redeemed.2.1.feeAmount = redeemed.1 ∧
      redeemed.2.2 = m'.seed ∧
      MarketSession env infos w.chain market m (moved market (-redeemed.1.toNat) 0) m' := by
  simp only [Market.redeemFees, Method.succeeds_bind, Method.succeeds_self, Method.succeeds_lift,
    Method.succeeds_pure] at success
  obtain ⟨_, m₁, synced, atoms, m₂, taken, _, _, ⟨rfl, rfl⟩, _, _, ⟨-, rfl⟩, rfl, rfl⟩ := success
  have executed : action.execute.Succeeds m₁ (-atoms.toNat) m₂ := by
    rw [executes]
    exact (Method.succeeds_bind_pure _ _ _ _ _).mpr ⟨atoms, taken, rfl⟩
  have opened := (MarketSession.opened env infos held).update (.syncClock ctx.unixTimestamp) rfl
    synced trivial
  have session := opened.act executed (authorized m₁ opened)
  rw [zero_add] at session
  exact ⟨rfl, rfl, rfl, session⟩

theorem reedeemCuratorFees_processed
    (success : (RedeemCuratorFeesAccounts.fromAccounts env ctx infos >>= fun accounts =>
      processRedeemCuratorFees env ctx accounts).Succeeds w u w') :
    ∃ calls, Processed env ctx infos w calls w'.chain w' := by
  obtain ⟨accounts, _, accepted, processed⟩ := (Method.succeeds_bind _ _ _ _ _).mp success
  obtain ⟨rfl, m, held, signed, vault_eq⟩ := RedeemCuratorFeesAccounts.fromAccounts_reads accepted
  simp only [processRedeemCuratorFees, Method.succeeds_bind] at processed
  obtain ⟨⟨toWithdraw, event, seed⟩, _, opened, _, _, logged, moved⟩ := processed
  obtain ⟨m', called, stored, start⟩ := onState_read held opened
  obtain ⟨market_eq, amount_eq, seed_eq, session⟩ := redeemFees_session env
    infos .redeemCuratorFess rfl held called fun m₁ session => by
      change SignedBy infos m₁.config.curator
      rw [session.curator]
      exact signed
  refine processed_of_transfer start (session.path_to stored ?_) (session.holds stored) logged moved
    seed_eq rfl (carries_outward market_eq (congrArg UInt64.toNat amount_eq) rfl
      (session.holds stored) seed_eq (session.vault vault_eq))
  rw [netFlows_single rfl, market_eq, amount_eq]
  rfl

theorem reedeemProtocolFees_processed
    (success : (RedeemProtocolFeesAccounts.fromAccounts env ctx infos >>= fun accounts =>
      processRedeemProtocolFees env ctx accounts).Succeeds w u w') :
    ∃ calls, Processed env ctx infos w calls w'.chain w' := by
  obtain ⟨accounts, _, accepted, processed⟩ := (Method.succeeds_bind _ _ _ _ _).mp success
  obtain ⟨rfl, ⟨m, held, vault_eq⟩, g, signer, config_held, allowed, signed⟩ :=
    RedeemProtocolFeesAccounts.fromAccounts_reads accepted
  simp only [processRedeemProtocolFees, Method.succeeds_bind] at processed
  obtain ⟨⟨toWithdraw, event, seed⟩, _, opened, _, _, logged, moved⟩ := processed
  obtain ⟨m', called, stored, start⟩ := onState_read held opened
  obtain ⟨market_eq, amount_eq, seed_eq, session⟩ := redeemFees_session env
    infos .redeemProtocolFees rfl held called fun m₁ session =>
      ⟨g, signer, session.globalConfig config_held, allowed, signed⟩
  refine processed_of_transfer start (session.path_to stored ?_) (session.holds stored) logged moved
    seed_eq rfl (carries_outward market_eq (congrArg UInt64.toNat amount_eq) rfl
      (session.holds stored) seed_eq (session.vault vault_eq))
  rw [netFlows_single rfl, market_eq, amount_eq]
  rfl

end Transactions

end AutaraLending
