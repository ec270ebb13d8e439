import AutaraLending.Administration

/-! What a successful administrative instruction has checked and what it has changed. -/

namespace AutaraLending

open Support

theorem lending_succeeds {σ α : Type} (m : LendingMethod σ α) (s t : σ) (a : α) :
    (lending m).Succeeds s a t ↔ m.Succeeds s a t :=
  Method.succeeds_mapErr _ _ _ _ _

theorem ifSome_succeeds {ε σ α : Type} (x : Option α) (m : α → Method ε σ Unit) (s t : σ)
    (u : Unit) :
    (ifSome x m).Succeeds s u t ↔
      (x = none ∧ s = t) ∨ ∃ a, x = some a ∧ (m a).Succeeds s u t := by
  cases x with
  | none => simp [ifSome, Method.succeeds_pure]
  | some a => simp [ifSome]

namespace GlobalConfig

theorem nomination_eq_some (self : GlobalConfig) (key : Pubkey) :
    self.nomination = some key ↔ self.nominatedAdmin = key ∧ key ≠ zeroedPubkey := by
  unfold nomination
  by_cases none : self.nominatedAdmin = zeroedPubkey
  · simp only [none, if_true, reduceCtorEq, false_iff, not_and, not_not]
    exact Eq.symm
  · simp only [none, if_false, Option.some.injEq]
    constructor
    · rintro rfl
      exact ⟨rfl, none⟩
    · exact And.left

inductive Entered (signer : Pubkey) (instruction : UpdateGlobalConfigInstruction)
    (c : GlobalConfig) : GlobalConfig → Prop
  | asAdmin (declines : instruction.acceptNomination = false) (admin : c.admin = signer) :
      Entered signer instruction c c
  | asNominee (accepts : instruction.acceptNomination = true)
      (nominated : c.nominatedAdmin = signer) (nonzero : signer ≠ zeroedPubkey) :
      Entered signer instruction c { c with admin := signer, nominatedAdmin := zeroedPubkey }

theorem Entered.admin_eq {signer : Pubkey} {instruction : UpdateGlobalConfigInstruction}
    {c entered : GlobalConfig} (enters : Entered signer instruction c entered) :
    entered.admin = signer := by
  cases enters with
  | asAdmin _ admin => exact admin
  | asNominee => rfl

def withFields (c : GlobalConfig) (instruction : UpdateGlobalConfigInstruction) : GlobalConfig where
  admin := c.admin
  nominatedAdmin := instruction.nominatedAdmin.getD c.nominatedAdmin
  feeReceiver := instruction.feeReceiver.getD c.feeReceiver
  protocolFeeShareInBps := instruction.protocolFeeShareInBps.getD c.protocolFeeShareInBps

theorem upgradeNomination_succeeds (c c' : GlobalConfig) (u : Unit) :
    upgradeNomination.Succeeds c u c' ↔
      c.nominatedAdmin ≠ zeroedPubkey ∧
        c' = { c with admin := c.nominatedAdmin, nominatedAdmin := zeroedPubkey } := by
  simp only [upgradeNomination, Method.succeeds_bind, Method.succeeds_self]
  by_cases none : c.nominatedAdmin = zeroedPubkey
  · simp [nomination, none, Method.succeeds_fail]
  · simp [nomination, none, Method.succeeds_assign, eq_comm]

theorem updateProtocolFeeShareInBps_succeeds (newFee : UInt16) (c c' : GlobalConfig) (u : Unit) :
    (updateProtocolFeeShareInBps newFee).Succeeds c u c' ↔
      newFee.toNat ≤ 10000 ∧ c' = { c with protocolFeeShareInBps := newFee } := by
  have bound : ¬ 10000 < newFee ↔ newFee.toNat ≤ 10000 := by
    rw [UInt16.lt_iff_toNat_lt, not_lt]
    rfl
  simp only [updateProtocolFeeShareInBps, Method.succeeds_bind, Method.succeeds_rejectIf,
    Method.succeeds_self, Method.succeeds_assign, bound]
  constructor
  · rintro ⟨_, _, ⟨within, rfl⟩, _, _, ⟨rfl, rfl⟩, rfl⟩
    exact ⟨within, rfl⟩
  · rintro ⟨within, rfl⟩
    exact ⟨(), c, ⟨within, rfl⟩, c, c, ⟨rfl, rfl⟩, rfl⟩

theorem setFeeReceiver_succeeds (feeReceiver : Pubkey) (c c' : GlobalConfig) (u : Unit) :
    (setFeeReceiver feeReceiver).Succeeds c u c' ↔ c' = { c with feeReceiver } := by
  simp only [setFeeReceiver, Method.succeeds_bind, Method.succeeds_self, Method.succeeds_assign]
  constructor
  · rintro ⟨_, _, ⟨rfl, rfl⟩, rfl⟩
    rfl
  · rintro rfl
    exact ⟨c, c, ⟨rfl, rfl⟩, rfl⟩

theorem setNominatedAdmin_succeeds (nominatedAdmin : Pubkey) (c c' : GlobalConfig) (u : Unit) :
    (setNominatedAdmin nominatedAdmin).Succeeds c u c' ↔ c' = { c with nominatedAdmin } := by
  simp only [setNominatedAdmin, Method.succeeds_bind, Method.succeeds_self, Method.succeeds_assign]
  constructor
  · rintro ⟨_, _, ⟨rfl, rfl⟩, rfl⟩
    rfl
  · rintro rfl
    exact ⟨c, c, ⟨rfl, rfl⟩, rfl⟩

theorem setFields_succeeds (instruction : UpdateGlobalConfigInstruction) (c c' : GlobalConfig)
    (u : Unit) :
    (setFields instruction).Succeeds c u c' ↔
      (∀ newFee, instruction.protocolFeeShareInBps = some newFee → newFee.toNat ≤ 10000) ∧
        c' = c.withFields instruction := by
  obtain ⟨admin, nominatedAdmin, feeReceiver, share⟩ := c
  obtain ⟨accepts, nominated, receiver, fee⟩ := instruction
  simp only [setFields, Method.succeeds_bind, ifSome_succeeds, lending_succeeds,
    updateProtocolFeeShareInBps_succeeds, setFeeReceiver_succeeds, setNominatedAdmin_succeeds]
  -- each field is set or left, independently of the others
  cases fee <;> cases receiver <;> cases nominated <;> simp [withFields, eq_comm]

theorem checkUpdateConfig_succeeds (signer : Pubkey) (c c' : GlobalConfig) (u : Unit) :
    (checkUpdateConfig signer).Succeeds c u c' ↔ c.admin = signer ∧ c = c' := by
  simp only [checkUpdateConfig, Method.succeeds_bind, Method.succeeds_self,
    Method.succeeds_rejectIf]
  simp only [canUpdateConfig, decide_eq_false_iff_not, not_not]
  constructor
  · rintro ⟨_, _, ⟨rfl, rfl⟩, admin, rfl⟩
    exact ⟨admin, rfl⟩
  · rintro ⟨admin, rfl⟩
    exact ⟨c, c, ⟨rfl, rfl⟩, admin, rfl⟩

theorem acceptNomination_succeeds (signer : Pubkey) (c c' : GlobalConfig) (u : Unit) :
    (acceptNomination signer).Succeeds c u c' ↔
      c.nominatedAdmin = signer ∧ signer ≠ zeroedPubkey ∧
        c' = { c with admin := signer, nominatedAdmin := zeroedPubkey } := by
  simp only [acceptNomination, Method.succeeds_bind, Method.succeeds_self, Method.succeeds_ite,
    lending_succeeds, upgradeNomination_succeeds, Method.succeeds_fail, canUpgradeNomination,
    decide_eq_true_eq, nomination_eq_some, and_false, or_false]
  constructor
  · rintro ⟨_, _, ⟨rfl, rfl⟩, ⟨rfl, nonzero⟩, -, rfl⟩
    exact ⟨rfl, nonzero, rfl⟩
  · rintro ⟨rfl, nonzero, rfl⟩
    exact ⟨c, c, ⟨rfl, rfl⟩, ⟨rfl, nonzero⟩, nonzero, rfl⟩

theorem update_succeeds (signer : Pubkey) (instruction : UpdateGlobalConfigInstruction)
    (c c' : GlobalConfig) (u : Unit) :
    (update signer instruction).Succeeds c u c' ↔
      ∃ entered, Entered signer instruction c entered ∧
        (∀ newFee, instruction.protocolFeeShareInBps = some newFee → newFee.toNat ≤ 10000) ∧
        c' = entered.withFields instruction := by
  simp only [update, Method.succeeds_ite, Method.succeeds_bind, acceptNomination_succeeds,
    checkUpdateConfig_succeeds, setFields_succeeds, Bool.not_eq_true]
  constructor
  · rintro (⟨accepts, _, _, ⟨nominated, nonzero, rfl⟩, _, _, ⟨-, rfl⟩, within, rfl⟩ |
      ⟨declines, _, _, ⟨admin, rfl⟩, within, rfl⟩)
    · exact ⟨_, .asNominee accepts nominated nonzero, within, rfl⟩
    · exact ⟨c, .asAdmin declines admin, within, rfl⟩
  · rintro ⟨_, entered, within, rfl⟩
    cases entered with
    | asAdmin declines admin => exact Or.inr ⟨declines, (), c, ⟨admin, rfl⟩, within, rfl⟩
    | asNominee accepts nominated nonzero =>
        exact Or.inl ⟨accepts, (), _, ⟨nominated, nonzero, rfl⟩, (), _, ⟨rfl, rfl⟩, within, rfl⟩

end GlobalConfig

section Instructions

open Program

variable (env : Environment) (ctx : Context)

theorem createAccount_effect (chain chain' : Chain) (payer target : Pubkey) (type : LendingType)
    (seeds : List (List UInt8)) :
    Invocation.effect env ctx chain (.createAccount payer target type seeds) = .ok chain' ↔
      chain target = ⟨env.systemProgramId, .empty⟩ ∧
        chain' = Function.update chain target ⟨AutaraProgram.id, .lending type.zeroedState⟩ := by
  simp only [Invocation.effect, except_ite_ok, reduceCtorEq, and_false, or_false, Except.ok.injEq,
    eq_comm (a := chain')]

theorem CreateGlobalConfigAccounts.fromAccounts_succeeds (infos : List AccountInfo) (w w' : World)
    (accounts : CreateGlobalConfigAccounts)
    (success : (fromAccounts env infos).Succeeds w accounts w') : w' = w := by
  simp only [fromAccounts, Method.succeeds_bind, nextAccountInfo_succeeds, signer_succeeds,
    programAccount_succeeds, Method.succeeds_pure, Prod.exists, and_assoc, exists_and_left,
    exists_eq_left', exists_const] at success
  obtain ⟨_, _, -, -, _, _, -, _, _, -, -, -, rfl⟩ := success
  rfl

theorem processCreateGlobalConfig_succeeds (accounts : CreateGlobalConfigAccounts)
    (data : CreateGlobalConfigInstruction) (w w' : World) (u : Unit)
    (success : (processCreateGlobalConfig env ctx accounts data).Succeeds w u w') :
    w.chain accounts.globalConfig.key = ⟨env.systemProgramId, .empty⟩ ∧
      w'.chain = Function.update w.chain accounts.globalConfig.key
        (Slot.of (GlobalConfig.mk data.admin zeroedPubkey data.feeReceiver
          data.protocolFeeShareInBps)) := by
  simp only [processCreateGlobalConfig, Method.succeeds_bind, invoke_succeeds,
    createAccount_effect, uninitializedAccountMut_succeeds, onState_succeeds, lending_succeeds,
    GlobalConfig.initializeGlobalConfig, Method.succeeds_self, Method.succeeds_assign] at success
  obtain ⟨_, created, ⟨-, ⟨vacant, allocated⟩, -⟩, _, _, ⟨-, -, -, rfl⟩, c, _, held,
    ⟨_, _, ⟨rfl, rfl⟩, rfl⟩, rfl⟩ := success
  refine ⟨vacant, ?_⟩
  rw [allocated, Function.update_self] at held
  cases held
  simp only [World.put, Chain.put, allocated, Function.update_self, Function.update_idem]
  rfl

theorem UpdateGlobalConfigAccounts.fromAccounts_succeeds (infos : List AccountInfo) (w w' : World)
    (accounts : UpdateGlobalConfigAccounts)
    (success : (fromAccounts infos).Succeeds w accounts w') :
    w' = w ∧ accounts.signer.isSigner = true ∧
      ∃ others c, infos = accounts.signer :: accounts.globalConfig :: others ∧
        w.chain accounts.globalConfig.key = Slot.of (T := GlobalConfig) c := by
  obtain ⟨signer, _, rfl, success⟩ := nextAccountInfo_bind success
  obtain ⟨signed, success⟩ := signer_bind success
  obtain ⟨account, others, rfl, success⟩ := nextAccountInfo_bind success
  obtain ⟨c, held, success⟩ := zeroCopyOwnedAccountMut_bind success
  obtain ⟨rfl, validated⟩ := validated_bind success
  obtain ⟨_, -, validated⟩ := load_bind validated
  obtain ⟨-, rfl⟩ := (rejectIf_succeeds _ _ _ _ _).mp validated
  exact ⟨rfl, signed, others, c, rfl, held⟩

theorem createAta_effect (chain chain' : Chain) (payer ata wallet mint : Pubkey) :
    Invocation.effect env ctx chain (.createAta payer ata wallet mint) = .ok chain' ↔
      chain ata = ⟨env.systemProgramId, .empty⟩ ∧
        chain' = Function.update chain ata ⟨env.aplTokenProgramId, .other⟩ := by
  simp only [Invocation.effect, except_ite_ok, reduceCtorEq, and_false, or_false, Except.ok.injEq,
    eq_comm (a := chain')]

def OnlyTokenAccountsCreated (chain chain' : Chain) : Prop :=
  ∀ key, chain' key = chain key ∨
    (chain key = ⟨env.systemProgramId, .empty⟩ ∧ chain' key = ⟨env.aplTokenProgramId, .other⟩)

theorem OnlyTokenAccountsCreated.trans {env : Environment} {first second third : Chain}
    (before : OnlyTokenAccountsCreated env first second)
    (after : OnlyTokenAccountsCreated env second third) :
    OnlyTokenAccountsCreated env first third := by
  intro key
  rcases after key with same | ⟨vacant, created⟩
  · rw [same]
    exact before key
  · rcases before key with same | ⟨-, token⟩
    · exact Or.inr ⟨same ▸ vacant, created⟩
    · rw [token] at vacant
      cases congrArg Slot.data vacant

theorem ensureVault_succeeds (accounts : CreateMarketAccounts) (vault mint : AccountInfo)
    (w w' : World) (u : Unit)
    (success : (ensureVault env ctx accounts vault mint).Succeeds w u w') :
    OnlyTokenAccountsCreated env w.chain w'.chain := by
  simp only [ensureVault, Method.succeeds_bind, slot_succeeds, Method.succeeds_ite,
    invoke_succeeds, createAta_effect, Method.succeeds_pure] at success
  obtain ⟨_, _, ⟨rfl, rfl⟩, ⟨-, -, ⟨vacant, created⟩, -⟩ | ⟨-, -, rfl⟩⟩ := success
  · intro key
    rw [created]
    by_cases here : key = vault.key
    · rw [here, Function.update_self]
      exact Or.inr ⟨vacant, rfl⟩
    · rw [Function.update_of_ne here]
      exact Or.inl rfl
  · exact fun key => Or.inl rfl

theorem CreateMarketAccounts.fromAccounts_succeeds (infos : List AccountInfo) (w w' : World)
    (accounts : CreateMarketAccounts)
    (success : (fromAccounts env ctx infos).Succeeds w accounts w') :
    w' = w ∧ accounts.globalConfig.key = env.findGlobalConfigPda.1 ∧
      ∃ g, w.chain accounts.globalConfig.key = Slot.of (T := GlobalConfig) g := by
  obtain ⟨curator, _, -, success⟩ := nextAccountInfo_bind success
  obtain ⟨-, success⟩ := signer_bind success
  obtain ⟨payer, _, -, success⟩ := nextAccountInfo_bind success
  obtain ⟨-, success⟩ := signer_bind success
  obtain ⟨config, _, -, success⟩ := nextAccountInfo_bind success
  obtain ⟨g, held, success⟩ := zeroCopyOwnedAccount_bind success
  obtain ⟨market, _, -, success⟩ := nextAccountInfo_bind success
  obtain ⟨supplyMint, _, -, success⟩ := nextAccountInfo_bind success
  obtain ⟨supplyDecimals, -, success⟩ := ofResult_bind success
  obtain ⟨supplyVault, _, -, success⟩ := nextAccountInfo_bind success
  obtain ⟨collateralMint, _, -, success⟩ := nextAccountInfo_bind success
  obtain ⟨collateralDecimals, -, success⟩ := ofResult_bind success
  obtain ⟨collateralVault, _, -, success⟩ := nextAccountInfo_bind success
  obtain ⟨tokenProgram, _, -, success⟩ := nextAccountInfo_bind success
  obtain ⟨-, success⟩ := programAccount_bind success
  obtain ⟨associatedTokenProgram, _, -, success⟩ := nextAccountInfo_bind success
  obtain ⟨-, success⟩ := programAccount_bind success
  obtain ⟨systemProgram, _, -, success⟩ := nextAccountInfo_bind success
  obtain ⟨-, success⟩ := programAccount_bind success
  obtain ⟨rfl, validated⟩ := validated_bind success
  simp only [validate, Method.succeeds_bind, rejectIf_succeeds, not_not] at validated
  obtain ⟨_, _, ⟨canonical, rfl⟩, _, _, ⟨-, rfl⟩, -, rfl⟩ := validated
  exact ⟨rfl, canonical, g, held⟩

structure MarketCreation (accounts : CreateMarketAccounts) (data : CreateMarketInstruction)
    (chain chain' : Chain) (g : GlobalConfig) where
  market : Market
  vacant : chain accounts.market.key = ⟨env.systemProgramId, .empty⟩
  created : (Market.processCreateMarket (accounts.creation data g) ctx.unixTimestamp).Succeeds
    .zeroed () market
  stored : chain' accounts.market.key = Slot.of market
  others : ∀ key, key ≠ accounts.market.key → chain' key = chain key ∨
    (chain key = ⟨env.systemProgramId, .empty⟩ ∧ chain' key = ⟨env.aplTokenProgramId, .other⟩)

theorem processCreateMarket_succeeds (accounts : CreateMarketAccounts)
    (data : CreateMarketInstruction) (w w' : World) (u : Unit) (g : GlobalConfig)
    (held : w.chain accounts.globalConfig.key = Slot.of g)
    (success : (processCreateMarket env ctx accounts data).Succeeds w u w') :
    Nonempty (MarketCreation env ctx accounts data w.chain w'.chain g) := by
  simp only [processCreateMarket, Method.succeeds_bind, invoke_succeeds, createAccount_effect,
    uninitializedAccountMut_succeeds, load_succeeds, onState_succeeds, lending_succeeds] at success
  obtain ⟨_, w₁, ⟨-, ⟨vacant, allocated⟩, -⟩, _, w₂, supplyVault, _, w₃, collateralVault, zeroed, _,
    ⟨prepared, -, -, rfl⟩, g', _, ⟨read, rfl⟩, _, market, loaded, created, rfl⟩ := success
  have vaults : OnlyTokenAccountsCreated env w₁.chain w₃.chain :=
    (ensureVault_succeeds _ _ _ _ _ _ _ _ supplyVault).trans
      (ensureVault_succeeds _ _ _ _ _ _ _ _ collateralVault)
  have distinct : accounts.globalConfig.key ≠ accounts.market.key := by
    intro same
    rw [same, vacant] at held
    cases congrArg Slot.data held
  have config_kept : w₃.chain accounts.globalConfig.key = Slot.of g := by
    rcases vaults accounts.globalConfig.key with same | ⟨none, -⟩
    · rw [same, allocated, Function.update_of_ne distinct]
      exact held
    · rw [allocated, Function.update_of_ne distinct, held] at none
      cases congrArg Slot.data none
  obtain rfl := Slot.of_data config_kept read
  have market_kept : w₃.chain accounts.market.key = Slot.of Market.zeroed := by
    rcases vaults accounts.market.key with same | ⟨none, -⟩
    · rw [same, allocated, Function.update_self]
      rfl
    · rw [allocated, Function.update_self] at none
      cases congrArg Slot.data none
  obtain rfl := Slot.of_data market_kept loaded
  refine ⟨⟨market, vacant, created, ?_, ?_⟩⟩
  · rw [World.put_chain, Chain.put_of _ _ market_kept, Function.update_self]
  · intro key other
    rw [World.put_chain, Chain.put_of _ _ market_kept, Function.update_of_ne other]
    have kept := vaults key
    rw [allocated, Function.update_of_ne other] at kept
    exact kept

theorem UpdateConfigAccounts.fromAccounts_succeeds (infos : List AccountInfo) (w w' : World)
    (accounts : UpdateConfigAccounts)
    (success : (fromAccounts env infos).Succeeds w accounts w') :
    w' = w ∧ accounts.globalConfig.key = env.findGlobalConfigPda.1 ∧
      (∃ g, w.chain accounts.globalConfig.key = Slot.of (T := GlobalConfig) g) ∧
      ∃ m, w.chain accounts.market.key = Slot.of (T := Market) m := by
  obtain ⟨market, _, -, success⟩ := nextAccountInfo_bind success
  obtain ⟨m, held, success⟩ := zeroCopyOwnedAccountMut_bind success
  obtain ⟨config, _, -, success⟩ := nextAccountInfo_bind success
  obtain ⟨g, config_held, success⟩ := zeroCopyOwnedAccount_bind success
  obtain ⟨curator, _, -, success⟩ := nextAccountInfo_bind success
  obtain ⟨-, success⟩ := signer_bind success
  obtain ⟨supplyOracle, _, -, success⟩ := nextAccountInfo_bind success
  obtain ⟨collateralOracle, _, -, success⟩ := nextAccountInfo_bind success
  obtain ⟨rfl, validated⟩ := validated_bind success
  obtain ⟨canonical, validated⟩ := rejectIf_bind validated
  obtain ⟨_, -, validated⟩ := load_bind validated
  obtain ⟨-, rfl⟩ := (rejectIf_succeeds _ _ _ _ _).mp validated
  exact ⟨rfl, not_not.mp canonical, ⟨g, config_held⟩, m, held⟩

theorem processUpdateConfig_succeeds (accounts : UpdateConfigAccounts)
    (data : UpdateConfigInstruction) (w w' : World) (u : Unit) (g : GlobalConfig) (m : Market)
    (config_held : w.chain accounts.globalConfig.key = Slot.of g)
    (held : w.chain accounts.market.key = Slot.of m)
    (success : (processUpdateConfig ctx accounts data).Succeeds w u w') :
    ∃ m', (Market.updateConfig ctx accounts data g).Succeeds m () m' ∧
      w'.chain = Function.update w.chain accounts.market.key (Slot.of m') := by
  simp only [processUpdateConfig, Method.succeeds_bind, load_succeeds, onState_succeeds,
    lending_succeeds] at success
  obtain ⟨_, _, ⟨read, rfl⟩, _, m', loaded, updated, rfl⟩ := success
  obtain rfl := Slot.of_data config_held read
  obtain rfl := Slot.of_data held loaded
  exact ⟨m', updated, Chain.put_of _ _ held _⟩

end Instructions

/-! What the instructions leave in the configuration of a market. -/

namespace MarketConfig

theorem initializeConfig_succeeds (bump index : UInt8) (curator : Pubkey) (ltvConfig : LtvConfig)
    (rate : IFixedPoint) (maxSupplyAtoms : U64) (fee : UInt16) (g : GlobalConfig)
    (c c' : MarketConfig) (u : Unit)
    (success : (initializeConfig bump index curator ltvConfig rate maxSupplyAtoms fee g).Succeeds
      c u c') :
    c'.protocolFeeShareInBps = g.protocolFeeShareInBps ∧
      c'.activeWhitelistedLiquidators = c.activeWhitelistedLiquidators := by
  simp only [initializeConfig, Method.succeeds_bind, Method.succeeds_self, Method.succeeds_assign,
    updateMaxUtilisationRate_succeeds, setLendingMarketFee_succeeds, syncGlobalConfig_succeeds]
    at success
  obtain ⟨_, _, ltv, _, _, ⟨-, rfl⟩, _, _, ⟨-, rfl⟩, _, _, ⟨rfl, rfl⟩, _, _, rfl, rfl⟩ := success
  obtain ⟨rfl, -, -⟩ := updateLtv_succeeds _ _ _ _ ltv
  exact ⟨rfl, rfl⟩

theorem incrementActiveWhitelistedLiquidators_succeeds (c c' : MarketConfig) (u : Unit) :
    incrementActiveWhitelistedLiquidators.Succeeds c u c' ↔
      ∃ count : U64, c.activeWhitelistedLiquidators.toNat + 1 = count.toNat ∧
        c' = { c with activeWhitelistedLiquidators := count } := by
  have one : (1 : U64).toNat = 1 := rfl
  simp only [incrementActiveWhitelistedLiquidators, Method.succeeds_bind, Method.succeeds_self,
    Method.succeeds_lift, Method.succeeds_assign, U64.safeAdd_ok, one]
  constructor
  · rintro ⟨_, _, ⟨rfl, rfl⟩, count, _, ⟨counted, rfl⟩, rfl⟩
    exact ⟨count, counted, rfl⟩
  · rintro ⟨count, counted, rfl⟩
    exact ⟨c, c, ⟨rfl, rfl⟩, count, c, ⟨counted, rfl⟩, rfl⟩

theorem decrementActiveWhitelistedLiquidators_succeeds (c c' : MarketConfig) (u : Unit) :
    decrementActiveWhitelistedLiquidators.Succeeds c u c' ↔
      ∃ count : U64, 1 + count.toNat = c.activeWhitelistedLiquidators.toNat ∧
        c' = { c with activeWhitelistedLiquidators := count } := by
  have one : (1 : U64).toNat = 1 := rfl
  simp only [decrementActiveWhitelistedLiquidators, Method.succeeds_bind, Method.succeeds_self,
    Method.succeeds_lift, Method.succeeds_assign, U64.safeSub_ok, one]
  constructor
  · rintro ⟨_, _, ⟨rfl, rfl⟩, count, _, ⟨counted, rfl⟩, rfl⟩
    exact ⟨count, counted, rfl⟩
  · rintro ⟨count, counted, rfl⟩
    exact ⟨c, c, ⟨rfl, rfl⟩, count, c, ⟨counted, rfl⟩, rfl⟩

end MarketConfig

namespace Market

theorem processCreateMarket_config (data : CreateMarket) (unixTimestamp : Int64) (m m' : Market)
    (u : Unit) (success : (processCreateMarket data unixTimestamp).Succeeds m u m') :
    m'.config.protocolFeeShareInBps = data.globalConfig.protocolFeeShareInBps ∧
      m'.config.activeWhitelistedLiquidators = m.config.activeWhitelistedLiquidators := by
  simp only [processCreateMarket, Method.succeeds_bind, onConfig_succeeds, onSupplyVault_succeeds,
    onCollateralVault_succeeds] at success
  obtain ⟨_, _, ⟨_, config, rfl⟩, _, _, ⟨_, -, rfl⟩, _, -, rfl⟩ := success
  exact MarketConfig.initializeConfig_succeeds _ _ _ _ _ _ _ _ _ _ _ config

theorem syncClock_config (unixTimestamp : Int64) (m m' : Market) (u : Unit)
    (success : (syncClock unixTimestamp).Succeeds m u m') : m'.config = m.config := by
  rcases syncClock_succeeds _ _ _ _ success with ⟨-, rfl⟩ | ⟨-, synced⟩
  · rfl
  · rw [synced]

theorem ifSome_keeps_count {α : Type} (x : Option α) (method : α → LendingMethod Market Unit)
    (m m' : Market) (u : Unit)
    (keeps : ∀ a, (method a).Succeeds m u m' →
      m'.config.activeWhitelistedLiquidators = m.config.activeWhitelistedLiquidators)
    (success : (ifSome x method).Succeeds m u m') :
    m'.config.activeWhitelistedLiquidators = m.config.activeWhitelistedLiquidators := by
  rcases (ifSome_succeeds _ _ _ _ _).mp success with ⟨-, rfl⟩ | ⟨a, -, made⟩
  · rfl
  · exact keeps a made

theorem updateConfig_config (ctx : Context) (accounts : UpdateConfigAccounts)
    (data : UpdateConfigInstruction) (g : GlobalConfig) (m m' : Market) (u : Unit)
    (success : (updateConfig ctx accounts data g).Succeeds m u m') :
    m'.config.protocolFeeShareInBps = g.protocolFeeShareInBps ∧
      m'.config.activeWhitelistedLiquidators = m.config.activeWhitelistedLiquidators := by
  simp only [updateConfig, Method.succeeds_bind, onConfig_succeeds, Method.succeeds_self,
    Method.succeeds_lift, Method.succeeds_pure, MarketConfig.syncGlobalConfig_succeeds] at success
  obtain ⟨_, _, synced, _, _, supplyOracle, _, _, collateralOracle, _, _, ltv, _, _, utilisation, _,
    _, supplyCap, _, _, fee, _, _, ⟨_, rfl, rfl⟩, _, _, ⟨rfl, rfl⟩, _, _, ⟨-, rfl⟩, -, rfl⟩ :=
      success
  refine ⟨rfl, ?_⟩
  have kept_fee := ifSome_keeps_count _ _ _ _ _ (fun a made => by
    obtain ⟨_, accepted, rfl⟩ := (onConfig_succeeds _ _ _ _).mp made
    obtain ⟨-, rfl⟩ := (MarketConfig.setLendingMarketFee_succeeds _ _ _ _).mp accepted
    rfl) fee
  have kept_cap := ifSome_keeps_count _ _ _ _ _ (fun a made => by
    obtain ⟨_, accepted, rfl⟩ := (onConfig_succeeds _ _ _ _).mp made
    obtain rfl := (MarketConfig.updateMaxSupplyAtoms_succeeds _ _ _ _).mp accepted
    rfl) supplyCap
  have kept_utilisation := ifSome_keeps_count _ _ _ _ _ (fun a made => by
    obtain ⟨_, accepted, rfl⟩ := (onConfig_succeeds _ _ _ _).mp made
    obtain ⟨-, rfl⟩ := (MarketConfig.updateMaxUtilisationRate_succeeds _ _ _ _).mp accepted
    rfl) utilisation
  have kept_ltv := ifSome_keeps_count _ _ _ _ _ (fun a made => by
    obtain ⟨_, accepted, rfl⟩ := (onConfig_succeeds _ _ _ _).mp made
    obtain ⟨rfl, -, -⟩ := MarketConfig.updateLtv_succeeds _ _ _ _ accepted
    rfl) ltv
  have kept_collateral := ifSome_keeps_count _ _ _ _ _ (fun a made => by
    obtain rfl := setCollateralOracleConfig_succeeds _ _ _ _ made
    rfl) collateralOracle
  have kept_supply := ifSome_keeps_count _ _ _ _ _ (fun a made => by
    obtain rfl := setSupplyOracleConfig_succeeds _ _ _ _ made
    rfl) supplyOracle
  have kept_clock :=
    congrArg MarketConfig.activeWhitelistedLiquidators (syncClock_config _ _ _ _ synced)
  exact kept_fee.trans (kept_cap.trans (kept_utilisation.trans (kept_ltv.trans
    (kept_collateral.trans (kept_supply.trans kept_clock)))))

end Market

/-! Whitelist entries. -/

namespace LiquidatorWhitelistEntry

theorem activate_succeeds (e e' : LiquidatorWhitelistEntry) (u : Unit) :
    activate.Succeeds e u e' ↔ e.isActive = false ∧ e' = { e with active := 1 } := by
  simp only [activate, Method.succeeds_bind, Method.succeeds_self, Method.succeeds_rejectIf,
    Method.succeeds_assign, Bool.not_eq_true]
  constructor
  · rintro ⟨_, _, ⟨rfl, rfl⟩, _, _, ⟨inactive, rfl⟩, rfl⟩
    exact ⟨inactive, rfl⟩
  · rintro ⟨inactive, rfl⟩
    exact ⟨e, e, ⟨rfl, rfl⟩, (), e, ⟨inactive, rfl⟩, rfl⟩

theorem deactivate_succeeds (e e' : LiquidatorWhitelistEntry) (u : Unit) :
    deactivate.Succeeds e u e' ↔ e.isActive = true ∧ e' = { e with active := 0 } := by
  simp only [deactivate, Method.succeeds_bind, Method.succeeds_self, Method.succeeds_rejectIf,
    Method.succeeds_assign, Bool.not_eq_false]
  constructor
  · rintro ⟨_, _, ⟨rfl, rfl⟩, _, _, ⟨active, rfl⟩, rfl⟩
    exact ⟨active, rfl⟩
  · rintro ⟨active, rfl⟩
    exact ⟨e, e, ⟨rfl, rfl⟩, (), e, ⟨active, rfl⟩, rfl⟩

end LiquidatorWhitelistEntry

section Instructions

open Program

variable (env : Environment) (ctx : Context)

inductive Activated (market liquidator : Pubkey) (bump : UInt8) (slot : Slot) :
    LiquidatorWhitelistEntry → Prop
  | created (vacant : slot = ⟨env.systemProgramId, .empty⟩) :
      Activated market liquidator bump slot ⟨market, liquidator, bump, 1⟩
  | reactivated (entry : LiquidatorWhitelistEntry) (held : slot = Slot.of entry)
      (market_eq : entry.market = market) (liquidator_eq : entry.liquidator = liquidator)
      (inactive : entry.isActive = false) :
      Activated market liquidator bump slot { entry with active := 1 }

theorem AddWhitelistedLiquidatorAccounts.fromAccounts_succeeds (infos : List AccountInfo)
    (data : AddWhitelistedLiquidatorInstruction) (w w' : World)
    (accounts : AddWhitelistedLiquidatorAccounts)
    (success : (fromAccounts env infos data).Succeeds w accounts w') :
    w' = w ∧ accounts.curator.isSigner = true ∧ accounts.curator ∈ infos ∧
      accounts.whitelistEntry.key =
        (env.findLiquidatorWhitelistEntryPda accounts.market.key data.liquidator).1 ∧
      ∃ m, w.chain accounts.market.key = Slot.of (T := Market) m ∧
        m.config.curator = accounts.curator.key ∧
        ∀ entry, w.chain accounts.whitelistEntry.key =
            Slot.of (T := LiquidatorWhitelistEntry) entry →
          entry.market = accounts.market.key ∧ entry.liquidator = data.liquidator := by
  obtain ⟨market, _, rfl, success⟩ := nextAccountInfo_bind success
  obtain ⟨m, held, success⟩ := zeroCopyOwnedAccountMut_bind success
  obtain ⟨curator, _, rfl, success⟩ := nextAccountInfo_bind success
  obtain ⟨signed, success⟩ := signer_bind success
  obtain ⟨entry, _, -, success⟩ := nextAccountInfo_bind success
  obtain ⟨systemProgram, _, -, success⟩ := nextAccountInfo_bind success
  obtain ⟨-, success⟩ := programAccount_bind success
  obtain ⟨rfl, validated⟩ := validated_bind success
  simp only [validate, Method.succeeds_bind, load_succeeds, slot_succeeds,
    zeroCopyOwnedAccount_succeeds, Method.succeeds_ite, rejectIf_succeeds, not_not, not_or,
    and_assoc, exists_and_left, exists_eq_left', exists_const] at validated
  obtain ⟨_, loaded, authority, expected, -, found⟩ := validated
  obtain rfl := Slot.of_data held loaded
  rcases found with ⟨-, stored, stored_eq, -, market_eq, liquidator_eq, rfl⟩ | ⟨foreign, -, rfl⟩
  · refine ⟨rfl, signed, by simp, expected, m, held, authority, ?_⟩
    intro other other_eq
    obtain rfl := Slot.of_injective (stored_eq.symm.trans other_eq)
    exact ⟨market_eq, liquidator_eq⟩
  · refine ⟨rfl, signed, by simp, expected, m, held, authority, ?_⟩
    intro other other_eq
    exact absurd (congrArg Slot.owner other_eq) foreign

theorem activateEntry_succeeds (accounts : AddWhitelistedLiquidatorAccounts)
    (data : AddWhitelistedLiquidatorInstruction) (w w' : World) (u : Unit)
    (own : ∀ entry, w.chain accounts.whitelistEntry.key =
        Slot.of (T := LiquidatorWhitelistEntry) entry →
      entry.market = accounts.market.key ∧ entry.liquidator = data.liquidator)
    (success : (activateEntry env ctx accounts data).Succeeds w u w') :
    ∃ entry, Activated env accounts.market.key data.liquidator data.bump
        (w.chain accounts.whitelistEntry.key) entry ∧
      w'.chain = Function.update w.chain accounts.whitelistEntry.key (Slot.of entry) := by
  simp only [activateEntry, Method.succeeds_bind, slot_succeeds, Method.succeeds_ite,
    invoke_succeeds, createAccount_effect, uninitializedAccountMut_succeeds,
    zeroCopyOwnedAccountMut_succeeds, onState_succeeds, lending_succeeds,
    LiquidatorWhitelistEntry.initializeEntry, Method.succeeds_self, Method.succeeds_assign,
    LiquidatorWhitelistEntry.activate_succeeds] at success
  obtain ⟨_, _, ⟨rfl, rfl⟩, ⟨-, _, created, ⟨-, ⟨vacant, allocated⟩, -⟩, _, _, ⟨-, -, -, rfl⟩, _, _,
    loaded, ⟨_, _, ⟨rfl, rfl⟩, _, _, rfl, -, rfl⟩, rfl⟩ |
    ⟨-, entry, _, ⟨held, -, -, rfl⟩, _, _, loaded, ⟨inactive, rfl⟩, rfl⟩⟩ := success
  · rw [allocated, Function.update_self] at loaded
    cases loaded
    refine ⟨_, .created vacant, ?_⟩
    simp only [World.put_chain, Chain.put, allocated, Function.update_self, Function.update_idem]
    rfl
  · obtain rfl := Slot.of_data held loaded
    obtain ⟨market_eq, liquidator_eq⟩ := own entry held
    exact ⟨_, .reactivated entry held market_eq liquidator_eq inactive, Chain.put_of _ _ held _⟩

theorem logWhitelistUpdate_succeeds (market curator : AccountInfo) (liquidator : Pubkey)
    (count : LendingMethod MarketConfig Unit)
    (event : LiquidatorWhitelistUpdatedEvent → AutaraEvent)
    (w w' : World) (u : Unit) (m : Market) (held : w.chain market.key = Slot.of m)
    (success : (logWhitelistUpdate env ctx market curator liquidator count event).Succeeds w u w') :
    ∃ config, count.Succeeds m.config () config ∧
      w'.chain = Function.update w.chain market.key (Slot.of { m with config }) ∧
      w'.invocations = w.invocations ++ [.log market.key
        (event ⟨market.key, curator.key, liquidator, config.activeWhitelistedLiquidators⟩)
        ({ m with config } : Market).seed] := by
  simp only [logWhitelistUpdate, Method.succeeds_bind, onState_succeeds, lending_succeeds,
    Market.onConfig_succeeds, load_succeeds, invoke_succeeds, Invocation.effect,
    Except.ok.injEq] at success
  obtain ⟨_, _, ⟨_, _, loaded, ⟨config, counted, rfl⟩, rfl⟩, updated, _, ⟨read, rfl⟩, -, chain_eq,
    recorded⟩ := success
  obtain rfl := Slot.of_data held loaded
  rw [World.put_chain, Chain.put_of _ _ held] at read chain_eq
  rw [Function.update_self] at read
  obtain rfl := Slot.of_data rfl read
  exact ⟨config, counted, chain_eq.symm, recorded⟩

theorem market_ne_entry (m : Market) (entry : LiquidatorWhitelistEntry) :
    Slot.of m ≠ Slot.of entry := by
  intro same
  cases congrArg Slot.data same

theorem processAddWhitelistedLiquidator_succeeds (accounts : AddWhitelistedLiquidatorAccounts)
    (data : AddWhitelistedLiquidatorInstruction) (w w' : World) (u : Unit) (m : Market)
    (held : w.chain accounts.market.key = Slot.of m)
    (own : ∀ entry, w.chain accounts.whitelistEntry.key =
        Slot.of (T := LiquidatorWhitelistEntry) entry →
      entry.market = accounts.market.key ∧ entry.liquidator = data.liquidator)
    (success : (processAddWhitelistedLiquidator env ctx accounts data).Succeeds w u w') :
    ∃ entry config,
      Activated env accounts.market.key data.liquidator data.bump
        (w.chain accounts.whitelistEntry.key) entry ∧
      MarketConfig.incrementActiveWhitelistedLiquidators.Succeeds m.config () config ∧
      w'.chain = Function.update
        (Function.update w.chain accounts.whitelistEntry.key (Slot.of entry))
        accounts.market.key (Slot.of { m with config }) := by
  obtain ⟨_, w₁, activation, counting⟩ := (Method.succeeds_bind _ _ _ _ _).mp success
  obtain ⟨entry, activated, entry_eq⟩ := activateEntry_succeeds _ _ _ _ _ _ _ own activation
  have distinct : accounts.market.key ≠ accounts.whitelistEntry.key := by
    intro same
    rw [← same, held] at activated
    cases activated with
    | created vacant => cases congrArg Slot.data vacant
    | reactivated other held' => exact market_ne_entry _ _ held'
  have kept : w₁.chain accounts.market.key = Slot.of m := by
    rw [entry_eq, Function.update_of_ne distinct]
    exact held
  obtain ⟨config, counted, chain_eq, -⟩ :=
    logWhitelistUpdate_succeeds _ _ _ _ _ _ _ _ _ _ m kept counting
  rw [entry_eq] at chain_eq
  exact ⟨entry, config, activated, counted, chain_eq⟩

theorem processRemoveWhitelistedLiquidator_succeeds (accounts : RemoveWhitelistedLiquidatorAccounts)
    (data : RemoveWhitelistedLiquidatorInstruction) (w w' : World) (u : Unit) (m : Market)
    (entry : LiquidatorWhitelistEntry) (held : w.chain accounts.market.key = Slot.of m)
    (stored : w.chain accounts.whitelistEntry.key = Slot.of entry)
    (success : (processRemoveWhitelistedLiquidator env ctx accounts data).Succeeds w u w') :
    entry.isActive = true ∧ ∃ config,
      MarketConfig.decrementActiveWhitelistedLiquidators.Succeeds m.config () config ∧
      w'.chain = Function.update
        (Function.update w.chain accounts.whitelistEntry.key (Slot.of { entry with active := 0 }))
        accounts.market.key (Slot.of { m with config }) := by
  obtain ⟨_, w₁, deactivation, counting⟩ := (Method.succeeds_bind _ _ _ _ _).mp success
  obtain ⟨_, _, read, deactivated, rfl⟩ := (onState_succeeds _ _ _ _ _).mp deactivation
  obtain rfl := Slot.of_data stored read
  obtain ⟨active, rfl⟩ := (LiquidatorWhitelistEntry.deactivate_succeeds _ _ _).mp
    ((lending_succeeds _ _ _ _).mp deactivated)
  have distinct : accounts.market.key ≠ accounts.whitelistEntry.key := by
    intro same
    rw [← same, held] at stored
    exact market_ne_entry _ _ stored
  have entry_eq : (w.put accounts.whitelistEntry.key { entry with active := 0 }).chain =
      Function.update w.chain accounts.whitelistEntry.key (Slot.of { entry with active := 0 }) :=
    Chain.put_of _ _ stored _
  have kept : (w.put accounts.whitelistEntry.key { entry with active := 0 }).chain
      accounts.market.key = Slot.of m := by
    rw [entry_eq, Function.update_of_ne distinct]
    exact held
  obtain ⟨config, counted, chain_eq, -⟩ :=
    logWhitelistUpdate_succeeds _ _ _ _ _ _ _ _ _ _ m kept counting
  rw [entry_eq] at chain_eq
  exact ⟨active, config, counted, chain_eq⟩

theorem RemoveWhitelistedLiquidatorAccounts.fromAccounts_succeeds (infos : List AccountInfo)
    (data : RemoveWhitelistedLiquidatorInstruction) (w w' : World)
    (accounts : RemoveWhitelistedLiquidatorAccounts)
    (success : (fromAccounts env infos data).Succeeds w accounts w') :
    w' = w ∧ accounts.curator.isSigner = true ∧ accounts.curator ∈ infos ∧
      accounts.whitelistEntry.key =
        (env.findLiquidatorWhitelistEntryPda accounts.market.key data.liquidator).1 ∧
      ∃ m entry, w.chain accounts.market.key = Slot.of (T := Market) m ∧
        m.config.curator = accounts.curator.key ∧
        w.chain accounts.whitelistEntry.key = Slot.of (T := LiquidatorWhitelistEntry) entry ∧
        entry.market = accounts.market.key ∧ entry.liquidator = data.liquidator := by
  obtain ⟨market, _, rfl, success⟩ := nextAccountInfo_bind success
  obtain ⟨m, held, success⟩ := zeroCopyOwnedAccountMut_bind success
  obtain ⟨curator, _, rfl, success⟩ := nextAccountInfo_bind success
  obtain ⟨signed, success⟩ := signer_bind success
  obtain ⟨account, _, -, success⟩ := nextAccountInfo_bind success
  obtain ⟨entry, stored, success⟩ := zeroCopyOwnedAccountMut_bind success
  obtain ⟨rfl, validated⟩ := validated_bind success
  simp only [validate, Method.succeeds_bind, load_succeeds, rejectIf_succeeds, not_not, not_or,
    and_assoc, exists_and_left, exists_eq_left', exists_const] at validated
  obtain ⟨_, loaded, authority, _, read, expected, market_eq, liquidator_eq, rfl⟩ := validated
  obtain rfl := Slot.of_data held loaded
  obtain rfl := Slot.of_data stored read
  exact ⟨rfl, signed, by simp, expected, m, entry, held, authority, stored, market_eq,
    liquidator_eq⟩

end Instructions

namespace Administration

theorem ne_of_slots {chain : Chain} {first second : Pubkey} {a b : Slot} (here : chain first = a)
    (there : chain second = b) (differ : a.data ≠ b.data) : first ≠ second := by
  rintro rfl
  exact differ (congrArg Slot.data (here.symm.trans there))

theorem updated_slot {chain : Chain} {first second : Pubkey} {a b : Slot}
    (after : Function.update chain second a first = b) : chain first = b ∨ a = b := by
  by_cases same : first = second
  · subst same
    rw [Function.update_self] at after
    exact Or.inr after
  · rw [Function.update_of_ne same] at after
    exact Or.inl after

/-- What a successful instruction does to the chain. -/
inductive Step (env : Environment) (call : Call) (chain : Chain) : Chain → Prop
  | createGlobalConfig (data : CreateGlobalConfigInstruction) (key : Pubkey)
      (instruction_eq : call.instruction = .createGlobalConfig data)
      (vacant : chain key = ⟨env.systemProgramId, .empty⟩) :
      Step env call chain (Function.update chain key (Slot.of
        (GlobalConfig.mk data.admin zeroedPubkey data.feeReceiver data.protocolFeeShareInBps)))
  | updateGlobalConfig (data : UpdateGlobalConfigInstruction) (signer account : AccountInfo)
      (others : List AccountInfo) (c c' : GlobalConfig)
      (instruction_eq : call.instruction = .updateGlobalConfig data)
      (accounts_eq : call.accounts = signer :: account :: others)
      (signed : signer.isSigner = true) (held : chain account.key = Slot.of c)
      (updated : (GlobalConfig.update signer.key data).Succeeds c () c') :
      Step env call chain (Function.update chain account.key (Slot.of c'))
  | createMarket (data : CreateMarketInstruction) (accounts : CreateMarketAccounts)
      (g : GlobalConfig) (chain' : Chain)
      (instruction_eq : call.instruction = .createMarket data)
      (config_held : chain env.findGlobalConfigPda.1 = Slot.of g)
      (creation : MarketCreation env call.context accounts data chain chain' g) :
      Step env call chain chain'
  | updateConfig (data : UpdateConfigInstruction) (accounts : UpdateConfigAccounts)
      (g : GlobalConfig) (m m' : Market) (instruction_eq : call.instruction = .updateConfig data)
      (config_held : chain env.findGlobalConfigPda.1 = Slot.of g)
      (held : chain accounts.market.key = Slot.of m)
      (updated : (Market.updateConfig call.context accounts data g).Succeeds m () m') :
      Step env call chain (Function.update chain accounts.market.key (Slot.of m'))
  | addWhitelistedLiquidator (data : AddWhitelistedLiquidatorInstruction) (curator : AccountInfo)
      (key : Pubkey) (m : Market) (config : MarketConfig) (entry : LiquidatorWhitelistEntry)
      (instruction_eq : call.instruction = .addWhitelistedLiquidator data)
      (signed : curator ∈ call.accounts ∧ curator.isSigner = true ∧ curator.key = m.config.curator)
      (held : chain key = Slot.of m)
      (activated : Activated env key data.liquidator data.bump
        (chain (env.findLiquidatorWhitelistEntryPda key data.liquidator).1) entry)
      (counted : MarketConfig.incrementActiveWhitelistedLiquidators.Succeeds m.config () config) :
      Step env call chain (Function.update
        (Function.update chain (env.findLiquidatorWhitelistEntryPda key data.liquidator).1
          (Slot.of entry)) key (Slot.of { m with config }))
  | removeWhitelistedLiquidator (data : RemoveWhitelistedLiquidatorInstruction)
      (curator : AccountInfo) (key : Pubkey) (m : Market) (config : MarketConfig)
      (entry : LiquidatorWhitelistEntry)
      (instruction_eq : call.instruction = .removeWhitelistedLiquidator data)
      (signed : curator ∈ call.accounts ∧ curator.isSigner = true ∧ curator.key = m.config.curator)
      (held : chain key = Slot.of m)
      (stored : chain (env.findLiquidatorWhitelistEntryPda key data.liquidator).1 = Slot.of entry)
      (market_eq : entry.market = key) (liquidator_eq : entry.liquidator = data.liquidator)
      (active : entry.isActive = true)
      (counted : MarketConfig.decrementActiveWhitelistedLiquidators.Succeeds m.config () config) :
      Step env call chain (Function.update
        (Function.update chain (env.findLiquidatorWhitelistEntryPda key data.liquidator).1
          (Slot.of { entry with active := 0 })) key (Slot.of { m with config }))

theorem execute_step (env : Environment) (call : Call) (chain chain' : Chain) (u : Unit)
    (success : (execute env call).Succeeds chain u chain') : Step env call chain chain' := by
  obtain ⟨w', processed, rfl⟩ := execute_succeeds env call chain chain' u success
  unfold process at processed
  split at processed
  · rename_i data instruction_eq
    obtain ⟨accounts, _, loaded, processed⟩ := (Method.succeeds_bind _ _ _ _ _).mp processed
    obtain rfl := CreateGlobalConfigAccounts.fromAccounts_succeeds _ _ _ _ _ loaded
    obtain ⟨vacant, chain_eq⟩ := processCreateGlobalConfig_succeeds _ _ _ _ _ _ _ processed
    rw [chain_eq]
    exact .createGlobalConfig data _ instruction_eq vacant
  · rename_i data instruction_eq
    obtain ⟨accounts, _, loaded, processed⟩ := (Method.succeeds_bind _ _ _ _ _).mp processed
    obtain ⟨rfl, signed, others, c, accounts_eq, held⟩ :=
      UpdateGlobalConfigAccounts.fromAccounts_succeeds _ _ _ _ loaded
    obtain ⟨_, c', read, updated, rfl⟩ := (Program.onState_succeeds _ _ _ _ _).mp processed
    obtain rfl := Slot.of_data held read
    rw [World.put_chain, Chain.put_of _ _ held]
    exact .updateGlobalConfig data _ _ others c c' instruction_eq accounts_eq signed held updated
  · rename_i data instruction_eq
    obtain ⟨accounts, _, loaded, processed⟩ := (Method.succeeds_bind _ _ _ _ _).mp processed
    obtain ⟨rfl, canonical, g, held⟩ :=
      CreateMarketAccounts.fromAccounts_succeeds _ _ _ _ _ _ loaded
    obtain ⟨creation⟩ := processCreateMarket_succeeds _ _ _ _ _ _ _ g held processed
    exact .createMarket data accounts g _ instruction_eq (canonical ▸ held) creation
  · rename_i data instruction_eq
    obtain ⟨accounts, _, loaded, processed⟩ := (Method.succeeds_bind _ _ _ _ _).mp processed
    obtain ⟨rfl, canonical, ⟨g, config_held⟩, m, held⟩ :=
      UpdateConfigAccounts.fromAccounts_succeeds _ _ _ _ _ loaded
    obtain ⟨m', updated, chain_eq⟩ :=
      processUpdateConfig_succeeds _ _ _ _ _ _ g m config_held held processed
    rw [chain_eq]
    exact .updateConfig data accounts g m m' instruction_eq (canonical ▸ config_held) held updated
  · rename_i data instruction_eq
    obtain ⟨accounts, _, loaded, processed⟩ := (Method.succeeds_bind _ _ _ _ _).mp processed
    obtain ⟨rfl, signed, member, expected, m, held, authority, own⟩ :=
      AddWhitelistedLiquidatorAccounts.fromAccounts_succeeds _ _ _ _ _ _ loaded
    obtain ⟨entry, config, activated, counted, chain_eq⟩ :=
      processAddWhitelistedLiquidator_succeeds _ _ _ _ _ _ _ m held own processed
    rw [expected] at activated chain_eq
    rw [chain_eq]
    exact .addWhitelistedLiquidator data accounts.curator _ m config entry instruction_eq
      ⟨member, signed, authority.symm⟩ held activated counted
  · rename_i data instruction_eq
    obtain ⟨accounts, _, loaded, processed⟩ := (Method.succeeds_bind _ _ _ _ _).mp processed
    obtain ⟨rfl, signed, member, expected, m, entry, held, authority, stored, market_eq,
      liquidator_eq⟩ := RemoveWhitelistedLiquidatorAccounts.fromAccounts_succeeds _ _ _ _ _ _ loaded
    obtain ⟨active, config, counted, chain_eq⟩ :=
      processRemoveWhitelistedLiquidator_succeeds _ _ _ _ _ _ _ m entry held stored processed
    rw [expected] at stored chain_eq
    rw [chain_eq]
    exact .removeWhitelistedLiquidator data accounts.curator _ m config entry instruction_eq
      ⟨member, signed, authority.symm⟩ held stored market_eq liquidator_eq active counted

end Administration

end AutaraLending
