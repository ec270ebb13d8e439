import AutaraLending.InstructionPaths

/-! The instructions that create and configure accounts, as signed operations on the chain, and
with them every instruction. -/

namespace AutaraLending

open Support

namespace Transactions

open Program

variable {env : Environment} {ctx : Context} {infos : List AccountInfo} {w w₁ w' : World} {u : Unit}

theorem processed_of_calls (calls : List Invocation) (path : Path env infos w.chain 0 w'.chain)
    (recorded : w'.invocations = w.invocations ++ calls)
    (unlogged : calls.filterMap Invocation.logged = [])
    (unmoved : calls.filter Invocation.isTransfer = [])
    (uncalled : calls.filterMap Invocation.calledBack = [])
    (signed : ∀ call ∈ calls, Authorised infos w'.chain call) :
    ∃ calls, Processed env ctx infos w calls w'.chain w' := by
  refine ⟨calls, ?_, recorded, signed, ?_, .quiet uncalled⟩
  · rw [unlogged, netFlows_nil]
    exact path
  · rw [unlogged, unmoved]
    exact .nil

theorem createState_succeeds {T : Type} [LendingAccount T] {type : LendingType} {zeroed : T}
    (starts : type.zeroedState = LendingAccount.wrap zeroed) {payer : Pubkey} {target : AccountInfo}
    {seeds : List (List UInt8)} {method : Method InstructionFailure T Unit}
    (success : (do
      invoke env ctx (.createAccount payer target.key type seeds)
      let _ ← uninitializedAccountMut T target
      onState target.key method : Program Unit).Succeeds w u w') :
    w.chain target.key = ⟨env.systemProgramId, .empty⟩ ∧ ∃ t, method.Succeeds zeroed () t ∧
      w'.chain = Function.update w.chain target.key (Slot.of t) ∧
      w'.invocations = w.invocations ++ [.createAccount payer target.key type seeds] := by
  simp only [Method.succeeds_bind, invoke_succeeds, createAccount_effect,
    uninitializedAccountMut_succeeds, onState_succeeds] at success
  obtain ⟨_, w₁, ⟨-, ⟨vacant, allocated⟩, recorded⟩, _, _, ⟨-, -, -, rfl⟩, t, t', read, made,
    rfl⟩ := success
  have held : w₁.chain target.key = Slot.of zeroed := by
    rw [allocated, Function.update_self, starts]
    rfl
  obtain rfl := Slot.of_data held read
  refine ⟨vacant, t', made, ?_, recorded⟩
  rw [World.put_chain, Chain.put_of _ _ held, allocated, Function.update_idem]

theorem createSupplyPosition_processed {data : CreateSupplyPositionInstruction}
    (success : (CreatePositionAccounts.fromAccounts env infos >>= fun accounts =>
      processCreateSupplyPosition env ctx accounts data).Succeeds w u w') :
    ∃ calls, Processed env ctx infos w calls w'.chain w' := by
  obtain ⟨accounts, _, accepted, processed⟩ := (Method.succeeds_bind _ _ _ _ _).mp success
  obtain ⟨rfl, signed, paid, m, held⟩ := CreatePositionAccounts.fromAccounts_reads accepted
  obtain ⟨vacant, p, assigned, stored, recorded⟩ := createState_succeeds rfl processed
  obtain rfl := (Method.succeeds_assign _ _ _ _).mp assigned
  refine processed_of_calls _ ?_ recorded rfl rfl rfl ?_
  · rw [stored]
    exact (Step.createSupplyPosition _ _ _ m held vacant signed).path
  · rintro call (_ | ⟨_, ⟨⟩⟩)
    exact paid

theorem createBorrowPosition_processed {data : CreateBorrowPositionInstruction}
    (success : (CreatePositionAccounts.fromAccounts env infos >>= fun accounts =>
      processCreateBorrowPosition env ctx accounts data).Succeeds w u w') :
    ∃ calls, Processed env ctx infos w calls w'.chain w' := by
  obtain ⟨accounts, _, accepted, processed⟩ := (Method.succeeds_bind _ _ _ _ _).mp success
  obtain ⟨rfl, signed, paid, m, held⟩ := CreatePositionAccounts.fromAccounts_reads accepted
  obtain ⟨vacant, p, assigned, stored, recorded⟩ := createState_succeeds rfl processed
  obtain rfl := (Method.succeeds_assign _ _ _ _).mp assigned
  refine processed_of_calls _ ?_ recorded rfl rfl rfl ?_
  · rw [stored]
    exact (Step.createBorrowPosition _ _ _ m held vacant signed).path
  · rintro call (_ | ⟨_, ⟨⟩⟩)
    exact paid

theorem createGlobalConfig_processed {data : CreateGlobalConfigInstruction}
    (success : (CreateGlobalConfigAccounts.fromAccounts env infos >>= fun accounts =>
      processCreateGlobalConfig env ctx accounts data).Succeeds w u w') :
    ∃ calls, Processed env ctx infos w calls w'.chain w' := by
  obtain ⟨accounts, _, accepted, processed⟩ := (Method.succeeds_bind _ _ _ _ _).mp success
  obtain ⟨rfl, paid⟩ := CreateGlobalConfigAccounts.fromAccounts_reads accepted
  obtain ⟨vacant, g, -, stored, recorded⟩ := createState_succeeds rfl processed
  refine processed_of_calls _ ?_ recorded rfl rfl rfl ?_
  · rw [stored]
    refine (Step.other _ (.update ?_ (Slot.bare_of_state rfl))).path
    rw [vacant]
    exact Slot.bare_of_no_state fun _ => nofun
  · rintro call (_ | ⟨_, ⟨⟩⟩)
    exact paid

theorem updateGlobalConfig_processed {data : UpdateGlobalConfigInstruction}
    (success : (UpdateGlobalConfigAccounts.fromAccounts infos >>= fun accounts =>
      processUpdateGlobalConfig accounts data).Succeeds w u w') :
    ∃ calls, Processed env ctx infos w calls w'.chain w' := by
  obtain ⟨accounts, _, accepted, processed⟩ := (Method.succeeds_bind _ _ _ _ _).mp success
  obtain ⟨rfl, -, _, g, -, held⟩ :=
    UpdateGlobalConfigAccounts.fromAccounts_succeeds _ _ _ _ accepted
  obtain ⟨_, g', -, -, rfl⟩ := (onState_succeeds _ _ _ _ _).mp processed
  refine processed_of_calls [] ?_ ?_ rfl rfl rfl (List.forall_mem_nil _)
  · rw [World.put_chain, Chain.put_of _ _ held]
    refine (Step.other _ (.update ?_ (Slot.bare_of_state rfl))).path
    rw [held]
    exact Slot.bare_of_state rfl
  · rw [List.append_nil]
    rfl

theorem log_processed
    (success : (LogAccounts.fromAccounts infos >>= fun _ => pure ()).Succeeds w u w') :
    ∃ calls, Processed env ctx infos w calls w'.chain w' := by
  obtain ⟨accounts, _, accepted, done⟩ := (Method.succeeds_bind _ _ _ _ _).mp success
  obtain ⟨-, rfl⟩ := (Method.succeeds_pure _ _ _ _).mp done
  simp only [LogAccounts.fromAccounts, Method.succeeds_bind, nextAccountInfo_succeeds,
    zeroCopyOwnedAccount_succeeds, rejectIf_succeeds, Method.succeeds_pure] at accepted
  obtain ⟨_, _, ⟨-, rfl⟩, _, _, ⟨-, -, rfl⟩, _, _, ⟨-, rfl⟩, -, rfl⟩ := accepted
  exact processed_of_calls [] .refl (List.append_nil _).symm rfl rfl rfl (List.forall_mem_nil _)

theorem updateConfig_processed {data : UpdateConfigInstruction}
    (success : (UpdateConfigAccounts.fromAccounts env infos >>= fun accounts =>
      processUpdateConfig ctx accounts data).Succeeds w u w') :
    ∃ calls, Processed env ctx infos w calls w'.chain w' := by
  obtain ⟨accounts, w₀, accepted, processed⟩ := (Method.succeeds_bind _ _ _ _ _).mp success
  obtain ⟨rfl, canonical, ⟨g, config_held⟩, m, held, signed⟩ :=
    UpdateConfigAccounts.fromAccounts_reads accepted
  obtain ⟨_, _, loaded, processed⟩ := (Method.succeeds_bind _ _ _ _ _).mp processed
  obtain ⟨read, rfl⟩ := (load_succeeds _ _ _ _).mp loaded
  obtain rfl := config_held.read read
  obtain ⟨m', updated, stored, start⟩ := onState_read held processed
  simp only [Market.updateConfig, Method.succeeds_bind, Method.succeeds_self, Method.succeeds_lift,
    Method.succeeds_pure] at updated
  obtain ⟨_, _, synced, _, _, supplyOracle, _, _, collateralOracle, _, _, ltv, _, _, utilisation, _,
    _, supplyCap, _, _, fee, _, _, shared, _, _, ⟨rfl, rfl⟩, _, _, ⟨-, rfl⟩, -, rfl⟩ := updated
  have byCurator : ∀ m₁, MarketSession env infos w₀.chain accounts.market.key m 0 m₁ →
      SignedBy infos m₁.config.curator := by
    intro m₁ session
    rw [session.curator]
    exact signed
  have s₀ := (MarketSession.opened env infos held).update (.syncClock ctx.unixTimestamp) rfl synced
    trivial
  have s₁ := s₀.updateSome .setSupplyOracleConfig (fun _ => rfl) supplyOracle
    fun _ => byCurator _ s₀
  have s₂ := s₁.updateSome .setCollateralOracleConfig (fun _ => rfl) collateralOracle
    fun _ => byCurator _ s₁
  have s₃ := s₂.updateSome .updateLtv (fun _ => rfl) ltv fun _ => byCurator _ s₂
  have s₄ := s₃.updateSome .updateMaxUtilisationRate (fun _ => rfl) utilisation
    fun _ => byCurator _ s₃
  have s₅ := s₄.updateSome .updateMaxSupplyAtoms (fun _ => rfl) supplyCap fun _ => byCurator _ s₄
  have s₆ := s₅.updateSome .setLendingMarketFee (fun _ => rfl) fee fun _ => byCurator _ s₅
  have session := s₆.update (.syncGlobalConfig g) rfl shared
    ⟨byCurator _ s₆, s₆.globalConfig (canonical ▸ config_held)⟩
  refine processed_of_calls [] (session.path_to stored rfl) ?_ rfl rfl rfl (List.forall_mem_nil _)
  rw [start, List.append_nil]

theorem ensureVault_calls {accounts : CreateMarketAccounts} {vault mint : AccountInfo}
    (success : (ensureVault env ctx accounts vault mint).Succeeds w u w') :
    ∃ calls, w'.invocations = w.invocations ++ calls ∧
      ∀ call ∈ calls, ∃ ata wallet mint, call = .createAta accounts.payer.key ata wallet mint := by
  simp only [ensureVault, Method.succeeds_bind, slot_succeeds, Method.succeeds_ite, invoke_succeeds,
    Method.succeeds_pure] at success
  obtain ⟨_, _, ⟨rfl, rfl⟩, ⟨-, -, -, recorded⟩ | ⟨-, -, rfl⟩⟩ := success
  · refine ⟨_, recorded, ?_⟩
    rintro call (_ | ⟨_, ⟨⟩⟩)
    exact ⟨_, _, _, rfl⟩
  · exact ⟨[], (List.append_nil _).symm, List.forall_mem_nil _⟩

theorem processCreateMarket_calls {accounts : CreateMarketAccounts} {data : CreateMarketInstruction}
    (success : (processCreateMarket env ctx accounts data).Succeeds w u w') :
    ∃ vaults, w'.invocations = w.invocations ++ .createAccount accounts.payer.key
        accounts.market.key .market (marketSeedWithBump accounts.curator.key accounts.supplyMint.key
          accounts.collateralMint.key data.index data.marketBump) :: vaults ∧
      ∀ call ∈ vaults, ∃ ata wallet mint, call = .createAta accounts.payer.key ata wallet mint := by
  simp only [processCreateMarket, Method.succeeds_bind, invoke_succeeds,
    uninitializedAccountMut_succeeds, load_succeeds, onState_succeeds] at success
  obtain ⟨_, w₁, ⟨-, -, allocated⟩, _, w₂, supplyVault, _, w₃, collateralVault, _, _,
    ⟨-, -, -, rfl⟩, _, _, ⟨-, rfl⟩, _, _, -, -, rfl⟩ := success
  obtain ⟨supply, supply_recorded, supply_atas⟩ := ensureVault_calls supplyVault
  obtain ⟨collateral, collateral_recorded, collateral_atas⟩ := ensureVault_calls collateralVault
  refine ⟨supply ++ collateral, ?_, ?_⟩
  · change w₃.invocations = _
    rw [collateral_recorded, supply_recorded, allocated]
    simp only [List.append_assoc, List.cons_append, List.nil_append]
  · intro call member
    rcases List.mem_append.mp member with member | member
    · exact supply_atas call member
    · exact collateral_atas call member

theorem createMarket_processed {data : CreateMarketInstruction}
    (success : (CreateMarketAccounts.fromAccounts env ctx infos >>= fun accounts =>
      processCreateMarket env ctx accounts data).Succeeds w u w') :
    ∃ calls, Processed env ctx infos w calls w'.chain w' := by
  obtain ⟨accounts, w₀, accepted, processed⟩ := (Method.succeeds_bind _ _ _ _ _).mp success
  obtain ⟨rfl, signed, paid, supply_eq, collateral_eq, g, config_held⟩ :=
    CreateMarketAccounts.fromAccounts_reads accepted
  obtain ⟨creation⟩ := processCreateMarket_succeeds _ _ _ _ _ _ _ g config_held.1 processed
  obtain ⟨vaults, recorded, atas⟩ := processCreateMarket_calls processed
  have derived : ∀ side, (creation.market.vaultKeys side).vault =
      env.getAssociatedTokenAddress accounts.market.key (creation.market.vaultKeys side).mint := by
    have keys := congrArg MarketIdentity.vaultKeys
      (Market.processCreateMarket_identity _ _ _ _ creation.created)
    intro side
    change (creation.market.identity.vaultKeys side).vault =
      env.getAssociatedTokenAddress _ (creation.market.identity.vaultKeys side).mint
    rw [keys]
    cases side with
    | supply => exact supply_eq
    | collateral => exact collateral_eq
  have path : Path env infos w₀.chain 0 w'.chain := by
    have vacant : (Function.update w'.chain accounts.market.key (w₀.chain accounts.market.key))
        accounts.market.key = ⟨env.systemProgramId, .empty⟩ := by
      rw [Function.update_self, creation.vacant]
    have vaultsFirst : SameAccounts w₀.chain
        (Function.update w'.chain accounts.market.key (w₀.chain accounts.market.key)) := by
      refine .of_slots fun key => ?_
      rcases eq_or_ne key accounts.market.key with rfl | differ
      · exact Or.inl (Function.update_self _ _ _)
      · rw [Function.update_of_ne differ]
        refine (creation.others key differ).imp_right fun ⟨before, after⟩ => ?_
        rw [before, after]
        exact ⟨Slot.bare_of_no_state fun _ => nofun, Slot.bare_of_no_state fun _ => nofun⟩
    have created : Step env infos _ 0 _ :=
      .createMarket _ _ _ _ vacant creation.created derived signed
    rw [Function.update_idem, ← creation.stored, Function.update_eq_self] at created
    simpa only [add_zero] using (Step.other _ vaultsFirst).path.snoc _ _ _ _ created
  refine processed_of_calls _ path recorded ?_ ?_ ?_ ?_
  · refine List.filterMap_eq_nil_iff.mpr ?_
    rintro call (_ | ⟨_, member⟩)
    · rfl
    · obtain ⟨_, _, _, rfl⟩ := atas call member
      rfl
  · refine List.filter_eq_nil_iff.mpr ?_
    rintro call (_ | ⟨_, member⟩)
    · exact Bool.false_ne_true
    · obtain ⟨_, _, _, rfl⟩ := atas call member
      exact Bool.false_ne_true
  · refine List.filterMap_eq_nil_iff.mpr ?_
    rintro call (_ | ⟨_, member⟩)
    · rfl
    · obtain ⟨_, _, _, rfl⟩ := atas call member
      rfl
  · rintro call (_ | ⟨_, member⟩)
    · refine ⟨paid, creation.market, creation.stored, ?_⟩
      rw [Market.seed_eq, Market.processCreateMarket_identity _ _ _ _ creation.created]
      rfl
    · obtain ⟨_, _, _, rfl⟩ := atas call member
      exact paid

/-! Changes of a whitelist. -/

theorem logWhitelistUpdate_processed {market curator : AccountInfo} {liquidator entryKey : Pubkey}
    {entry : LiquidatorWhitelistEntry} {count : LendingMethod MarketConfig Unit}
    {wrap : LiquidatorWhitelistUpdatedEvent → AutaraEvent} {m : Market} {calls : List Invocation}
    (held : w.chain.Holds market.key m) (signed : SignedBy infos m.config.curator)
    (before : (w.chain entryKey).Bare) (distinct : market.key ≠ entryKey)
    (written : w₁.chain = Function.update w.chain entryKey (Slot.of entry))
    (recorded : w₁.invocations = w.invocations ++ calls)
    (created : ∀ call ∈ calls, ∃ target seeds,
      call = .createAccount m.config.curator target .liquidatorWhitelistEntry seeds)
    (counts : ∀ c c' u, count.Succeeds c u c' →
      ∃ n, c' = { c with activeWhitelistedLiquidators := n })
    (success : (logWhitelistUpdate env ctx market curator liquidator count wrap).Succeeds w₁ u w')
    (flows : ∀ event, (wrap event).flows = []) :
    ∃ calls, Processed env ctx infos w calls w'.chain w' := by
  have kept : w₁.chain.Holds market.key m := by
    rw [written]
    exact held.update_of_ne distinct _
  obtain ⟨config, counted, chain_eq, logged⟩ :=
    logWhitelistUpdate_succeeds _ _ _ _ _ _ _ _ _ _ m kept.1 success
  obtain ⟨n, rfl⟩ := counts _ _ _ counted
  have stored : w'.chain = Function.update w₁.chain market.key (Slot.of (withWhitelist m n)) :=
    chain_eq
  have entered : Step env infos w.chain 0 w₁.chain :=
    .other _ (written ▸ SameAccounts.update before (Slot.bare_of_state rfl))
  have listed : Step env infos w₁.chain 0 w'.chain := stored ▸ .whitelist market.key m n kept signed
  rw [recorded, List.append_assoc] at logged
  refine ⟨_, ?_, logged, ?_, ?_, .quiet ?_⟩
  · have quiet : calls.filterMap Invocation.logged = [] := by
      refine List.filterMap_eq_nil_iff.mpr fun call member => ?_
      obtain ⟨_, _, rfl⟩ := created call member
      rfl
    have unreported : ∀ event seed,
        netFlows ([.log market.key (wrap event) seed].filterMap Invocation.logged) = 0 :=
      fun event _ => netFlows_unreported (flows event)
    rw [List.filterMap_append, quiet, netFlows_append, unreported]
    exact entered.path.snoc _ _ _ _ listed
  · intro call member
    rcases List.mem_append.mp member with member | member
    · obtain ⟨_, _, rfl⟩ := created call member
      exact signed
    · obtain rfl := List.mem_singleton.mp member
      refine ⟨withWhitelist m n, ⟨?_, held.2⟩, rfl⟩
      rw [stored, Function.update_self]
  · have quiet : calls.filterMap Invocation.logged = [] := by
      refine List.filterMap_eq_nil_iff.mpr fun call member => ?_
      obtain ⟨_, _, rfl⟩ := created call member
      rfl
    have unmoved : calls.filter Invocation.isTransfer = [] := by
      refine List.filter_eq_nil_iff.mpr fun call member => ?_
      obtain ⟨_, _, rfl⟩ := created call member
      exact Bool.false_ne_true
    rw [List.filterMap_append, quiet, List.filter_append, unmoved]
    change List.Forall₂ _ ((wrap _).flows ++ []) _
    rw [flows]
    exact .nil
  · rw [List.filterMap_append, List.append_eq_nil_iff]
    refine ⟨List.filterMap_eq_nil_iff.mpr fun call member => ?_, rfl⟩
    obtain ⟨_, _, rfl⟩ := created call member
    rfl

theorem activateEntry_calls {accounts : AddWhitelistedLiquidatorAccounts}
    {data : AddWhitelistedLiquidatorInstruction}
    (success : (activateEntry env ctx accounts data).Succeeds w u w') :
    ∃ calls, w'.invocations = w.invocations ++ calls ∧ ∀ call ∈ calls, ∃ target seeds,
      call = .createAccount accounts.curator.key target .liquidatorWhitelistEntry seeds := by
  simp only [activateEntry, Method.succeeds_bind, slot_succeeds, Method.succeeds_ite,
    invoke_succeeds, uninitializedAccountMut_succeeds, zeroCopyOwnedAccountMut_succeeds,
    onState_succeeds] at success
  obtain ⟨_, _, ⟨rfl, rfl⟩, ⟨-, _, _, ⟨-, -, recorded⟩, _, _, ⟨-, -, -, rfl⟩, _, _, -, -, rfl⟩ |
    ⟨-, _, _, ⟨-, -, -, rfl⟩, _, _, -, -, rfl⟩⟩ := success
  · refine ⟨_, recorded, ?_⟩
    rintro call (_ | ⟨_, ⟨⟩⟩)
    exact ⟨_, _, rfl⟩
  · exact ⟨[], (List.append_nil _).symm, List.forall_mem_nil _⟩

theorem addWhitelistedLiquidator_processed {data : AddWhitelistedLiquidatorInstruction}
    (success : (AddWhitelistedLiquidatorAccounts.fromAccounts env infos data >>= fun accounts =>
      processAddWhitelistedLiquidator env ctx accounts data).Succeeds w u w') :
    ∃ calls, Processed env ctx infos w calls w'.chain w' := by
  obtain ⟨accounts, _, accepted, processed⟩ := (Method.succeeds_bind _ _ _ _ _).mp success
  obtain ⟨m, held⟩ := AddWhitelistedLiquidatorAccounts.fromAccounts_reads accepted
  obtain ⟨rfl, signed, member, -, m', held', curated, own⟩ :=
    AddWhitelistedLiquidatorAccounts.fromAccounts_succeeds _ _ _ _ _ _ accepted
  obtain rfl := Slot.of_injective (held.1.symm.trans held')
  obtain ⟨_, w₁, activation, counting⟩ := (Method.succeeds_bind _ _ _ _ _).mp processed
  obtain ⟨entry, activated, written⟩ := activateEntry_succeeds _ _ _ _ _ _ _ own activation
  obtain ⟨calls, recorded, created⟩ := activateEntry_calls activation
  rw [← curated] at created
  refine logWhitelistUpdate_processed held (curated ▸ signedBy_of_mem member signed) ?_ ?_ written
    recorded created ?_ counting fun _ => rfl
  · cases activated with
    | created vacant =>
        rw [vacant]
        exact Slot.bare_of_no_state fun _ => nofun
    | reactivated _ stored =>
        rw [stored]
        exact Slot.bare_of_state rfl
  · intro same
    rw [← same, held.1] at activated
    cases activated with
    | created vacant => cases congrArg Slot.data vacant
    | reactivated other stored => exact market_ne_entry _ _ stored
  · intro c c' u counted
    obtain ⟨n, -, rfl⟩ :=
      (MarketConfig.incrementActiveWhitelistedLiquidators_succeeds _ _ _).mp counted
    exact ⟨n, rfl⟩

theorem removeWhitelistedLiquidator_processed {data : RemoveWhitelistedLiquidatorInstruction}
    (success : (RemoveWhitelistedLiquidatorAccounts.fromAccounts env infos data >>= fun accounts =>
      processRemoveWhitelistedLiquidator env ctx accounts data).Succeeds w u w') :
    ∃ calls, Processed env ctx infos w calls w'.chain w' := by
  obtain ⟨accounts, _, accepted, processed⟩ := (Method.succeeds_bind _ _ _ _ _).mp success
  obtain ⟨m, held⟩ := RemoveWhitelistedLiquidatorAccounts.fromAccounts_reads accepted
  obtain ⟨rfl, signed, member, -, m', entry, held', curated, stored, -⟩ :=
    RemoveWhitelistedLiquidatorAccounts.fromAccounts_succeeds _ _ _ _ _ _ accepted
  obtain rfl := Slot.of_injective (held.1.symm.trans held')
  obtain ⟨_, w₁, deactivation, counting⟩ := (Method.succeeds_bind _ _ _ _ _).mp processed
  obtain ⟨_, entry', -, -, rfl⟩ := (onState_succeeds _ _ _ _ _).mp deactivation
  refine logWhitelistUpdate_processed held (curated ▸ signedBy_of_mem member signed) ?_ ?_
    (Chain.put_of _ _ stored entry') ?_ (List.forall_mem_nil _) ?_ counting
    fun event => (rfl : (AutaraEvent.liquidatorWhitelistEntryRemoved event).flows = [])
  · rw [stored]
    exact Slot.bare_of_state rfl
  · intro same
    exact market_ne_entry _ _ (held.1.symm.trans (same ▸ stored))
  · rw [List.append_nil]
    rfl
  · intro c c' u counted
    obtain ⟨n, -, rfl⟩ :=
      (MarketConfig.decrementActiveWhitelistedLiquidators_succeeds _ _ _).mp counted
    exact ⟨n, rfl⟩

/-! Every instruction. -/

def Call.quiet (call : Call) : Call := { call with context := call.context.quiet }

variable (env) in
/-- What the chain is when an instruction makes its callback. -/
def calledAt (call : Call) (w : World) : Chain :=
  (autaraProcessInstruction env call.quiet w).2.chain

theorem calledAt_quiet {call : Call} (success : (autaraProcessInstruction env call).Succeeds w u w')
    (quiet : autaraProcessInstruction env call.quiet = autaraProcessInstruction env call) :
    calledAt env call w = w'.chain := by
  unfold calledAt
  rw [quiet, show autaraProcessInstruction env call w = (.ok u, w') from success]

/-- What every instruction does when it succeeds. -/
theorem autaraProcessInstruction_processed {call : Call}
    (success : (autaraProcessInstruction env call).Succeeds w u w') :
    ∃ calls, Processed env call.context call.accounts w calls (calledAt env call w) w' := by
  obtain ⟨infos, instruction, ctx⟩ := call
  -- only three instructions have a callback; the others are the same without one
  cases instruction with
  | borrowDepositApl data => exact borrowDepositApl_processed success
  | withdrawRepayApl data => exact withdrawRepayApl_processed success
  | liquidate data => exact liquidate_processed success
  | createMarket data =>
      rw [calledAt_quiet success rfl]
      exact createMarket_processed success
  | createSupplyPosition data =>
      rw [calledAt_quiet success rfl]
      exact createSupplyPosition_processed success
  | supplyApl data =>
      rw [calledAt_quiet success rfl]
      exact supplyApl_processed success
  | withdrawSupply data =>
      rw [calledAt_quiet success rfl]
      exact withdrawSupply_processed success
  | createBorrowPosition data =>
      rw [calledAt_quiet success rfl]
      exact createBorrowPosition_processed success
  | borrowApl data =>
      rw [calledAt_quiet success rfl]
      exact borrowApl_processed success
  | depositAplCollateral data =>
      rw [calledAt_quiet success rfl]
      exact depositAplCollateral_processed success
  | withdrawAplCollateral data =>
      rw [calledAt_quiet success rfl]
      exact withdrawAplCollateral_processed success
  | repayApl data =>
      rw [calledAt_quiet success rfl]
      exact repayApl_processed success
  | updateConfig data =>
      rw [calledAt_quiet success rfl]
      exact updateConfig_processed success
  | createGlobalConfig data =>
      rw [calledAt_quiet success rfl]
      exact createGlobalConfig_processed success
  | updateGlobalConfig data =>
      rw [calledAt_quiet success rfl]
      exact updateGlobalConfig_processed success
  | socializeLoss data =>
      rw [calledAt_quiet success rfl]
      exact socializeLoss_processed success
  | donateSupply data =>
      rw [calledAt_quiet success rfl]
      exact donateSupply_processed success
  | beginCapitalSweep data =>
      rw [calledAt_quiet success rfl]
      exact beginCapitalSweep_processed success
  | settleCapitalSweep data =>
      rw [calledAt_quiet success rfl]
      exact settleCapitalSweep_processed success
  | addWhitelistedLiquidator data =>
      rw [calledAt_quiet success rfl]
      exact addWhitelistedLiquidator_processed success
  | removeWhitelistedLiquidator data =>
      rw [calledAt_quiet success rfl]
      exact removeWhitelistedLiquidator_processed success
  | log =>
      rw [calledAt_quiet success rfl]
      exact log_processed success
  | reedeemCuratorFees =>
      rw [calledAt_quiet success rfl]
      exact reedeemCuratorFees_processed success
  | reedeemProtocolFees =>
      rw [calledAt_quiet success rfl]
      exact reedeemProtocolFees_processed success

end Transactions

end AutaraLending
