import AutaraLending.Program

/-! The instructions that administer the protocol and its markets: the global configuration, the
creation and the configuration of markets, and the whitelists of liquidators. -/

namespace AutaraLending

open Support

namespace GlobalConfig

def initializeGlobalConfig (admin feeReceiver : Pubkey) (protocolFeeShareInBps : UInt16) :
    LendingMethod GlobalConfig Unit := do
  let self ← Method.self
  Method.assign { self with admin, feeReceiver, protocolFeeShareInBps }

def nomination (self : GlobalConfig) : Option Pubkey :=
  if self.nominatedAdmin = zeroedPubkey then none else some self.nominatedAdmin

def canUpgradeNomination (self : GlobalConfig) (key : Pubkey) : Bool :=
  decide (self.nomination = some key)

def canUpdateConfig (self : GlobalConfig) (key : Pubkey) : Bool := decide (self.admin = key)

def upgradeNomination : LendingMethod GlobalConfig Unit := do
  let self ← Method.self
  match self.nomination with
  | some admin => Method.assign { self with admin, nominatedAdmin := zeroedPubkey }
  | none => Method.fail LendingError.invalidNomination.into

def setFeeReceiver (feeReceiver : Pubkey) : LendingMethod GlobalConfig Unit := do
  let self ← Method.self
  Method.assign { self with feeReceiver }

def setNominatedAdmin (nominatedAdmin : Pubkey) : LendingMethod GlobalConfig Unit := do
  let self ← Method.self
  Method.assign { self with nominatedAdmin }

def updateProtocolFeeShareInBps (newFee : UInt16) : LendingMethod GlobalConfig Unit := do
  Method.rejectIf (10000 < newFee) LendingError.feeTooHigh.into
  let self ← Method.self
  Method.assign { self with protocolFeeShareInBps := newFee }

end GlobalConfig

namespace LiquidatorWhitelistEntry

def isActive (self : LiquidatorWhitelistEntry) : Bool := self.active == 1

def activate : LendingMethod LiquidatorWhitelistEntry Unit := do
  let self ← Method.self
  Method.rejectIf (self.isActive = true) LendingError.liquidatorAlreadyWhitelisted.into
  Method.assign { self with active := 1 }

def deactivate : LendingMethod LiquidatorWhitelistEntry Unit := do
  let self ← Method.self
  Method.rejectIf (self.isActive = false) LendingError.liquidatorNotWhitelisted.into
  Method.assign { self with active := 0 }

def initializeEntry (market liquidator : Pubkey) (bump : UInt8) :
    LendingMethod LiquidatorWhitelistEntry Unit := do
  let self ← Method.self
  Method.assign { self with market, liquidator, bump }
  activate

end LiquidatorWhitelistEntry

namespace MarketConfig

def liquidationsArePermissionless (self : MarketConfig) : Bool :=
  self.activeWhitelistedLiquidators == 0

def incrementActiveWhitelistedLiquidators : LendingMethod MarketConfig Unit := do
  let self ← Method.self
  let activeWhitelistedLiquidators ← Method.lift (self.activeWhitelistedLiquidators.safeAdd 1)
  Method.assign { self with activeWhitelistedLiquidators }

def decrementActiveWhitelistedLiquidators : LendingMethod MarketConfig Unit := do
  let self ← Method.self
  let activeWhitelistedLiquidators ← Method.lift (self.activeWhitelistedLiquidators.safeSub 1)
  Method.assign { self with activeWhitelistedLiquidators }

end MarketConfig

def ifSome {ε σ α : Type} (x : Option α) (m : α → Method ε σ Unit) : Method ε σ Unit :=
  match x with
  | some a => m a
  | none => pure ()

def lending {σ α : Type} (m : LendingMethod σ α) : Method InstructionFailure σ α :=
  Method.mapErr .ofLending m

section Instructions

open Program

variable (env : Environment) (ctx : Context)

structure CreateGlobalConfigAccounts where
  payer : AccountInfo
  globalConfig : AccountInfo
  systemProgram : AccountInfo

def CreateGlobalConfigAccounts.fromAccounts (accounts : List AccountInfo) :
    Program CreateGlobalConfigAccounts := do
  let (payer, accounts) ← nextAccountInfo accounts
  signer payer
  let (globalConfig, accounts) ← nextAccountInfo accounts
  let (systemProgram, _) ← nextAccountInfo accounts
  programAccount env.systemProgramId systemProgram
  pure { payer, globalConfig, systemProgram }

def processCreateGlobalConfig (accounts : CreateGlobalConfigAccounts)
    (data : CreateGlobalConfigInstruction) : Program Unit := do
  invoke env ctx (.createAccount accounts.payer.key accounts.globalConfig.key .globalConfig
    (globalConfigSeedWithBump data.bump))
  let _ ← uninitializedAccountMut GlobalConfig accounts.globalConfig
  onState accounts.globalConfig.key (lending
    (GlobalConfig.initializeGlobalConfig data.admin data.feeReceiver data.protocolFeeShareInBps))

structure UpdateGlobalConfigAccounts where
  signer : AccountInfo
  globalConfig : AccountInfo

/-- The signer is the admin or the nominee. -/
def UpdateGlobalConfigAccounts.validate (self : UpdateGlobalConfigAccounts) : Program Unit := do
  let config ← load GlobalConfig self.globalConfig.key
  rejectIf (config.canUpdateConfig self.signer.key = false ∧
      config.canUpgradeNomination self.signer.key = false)
    (.lendingAccountValidationError .invalidProtocolAuthority)

def UpdateGlobalConfigAccounts.fromAccounts (accounts : List AccountInfo) :
    Program UpdateGlobalConfigAccounts := do
  let (signer, accounts) ← nextAccountInfo accounts
  Program.signer signer
  let (globalConfig, _) ← nextAccountInfo accounts
  let _ ← zeroCopyOwnedAccountMut GlobalConfig globalConfig
  let this : UpdateGlobalConfigAccounts := { signer, globalConfig }
  this.validate
  pure this

namespace GlobalConfig

def acceptNomination (signer : Pubkey) : Method InstructionFailure GlobalConfig Unit := do
  let config ← Method.self
  if config.canUpgradeNomination signer then lending upgradeNomination
  else Method.fail (.error (.lendingError .invalidNomination) [])

def checkUpdateConfig (signer : Pubkey) : Method InstructionFailure GlobalConfig Unit := do
  let config ← Method.self
  Method.rejectIf (config.canUpdateConfig signer = false)
    (.error (.lendingAccountValidationError .invalidProtocolAuthority) [])

def setFields (instruction : UpdateGlobalConfigInstruction) :
    Method InstructionFailure GlobalConfig Unit := do
  ifSome instruction.protocolFeeShareInBps
    fun newFee => lending (updateProtocolFeeShareInBps newFee)
  ifSome instruction.feeReceiver fun feeReceiver => lending (setFeeReceiver feeReceiver)
  ifSome instruction.nominatedAdmin
    fun nominatedAdmin => lending (setNominatedAdmin nominatedAdmin)

/-- The update of the configuration. The authority is checked after an accepted nomination, so an
accepting nominee may set the other fields at once. -/
def update (signer : Pubkey) (instruction : UpdateGlobalConfigInstruction) :
    Method InstructionFailure GlobalConfig Unit :=
  if instruction.acceptNomination then do
    acceptNomination signer
    checkUpdateConfig signer
    setFields instruction
  else do
    checkUpdateConfig signer
    setFields instruction

end GlobalConfig

def processUpdateGlobalConfig (accounts : UpdateGlobalConfigAccounts)
    (instruction : UpdateGlobalConfigInstruction) : Program Unit :=
  onState accounts.globalConfig.key (GlobalConfig.update accounts.signer.key instruction)

structure CreateMarketAccounts where
  curator : AccountInfo
  payer : AccountInfo
  globalConfig : AccountInfo
  market : AccountInfo
  supplyMint : AccountInfo
  supplyMintDecimals : UInt8
  supplyVault : AccountInfo
  collateralMint : AccountInfo
  collateralMintDecimals : UInt8
  collateralVault : AccountInfo
  aplTokenProgram : AccountInfo

/-- The global configuration is the canonical one, and the vaults are the token accounts that
belong to the market. -/
def CreateMarketAccounts.validate (self : CreateMarketAccounts) : Program Unit := do
  rejectIf (self.globalConfig.key ≠ env.findGlobalConfigPda.1)
    (.lendingAccountValidationError .invalidProtocolAuthority)
  rejectIf (self.supplyVault.key ≠
      env.getAssociatedTokenAddress self.market.key self.supplyMint.key)
    (.lendingAccountValidationError .invalidMarketVault)
  rejectIf (self.collateralVault.key ≠
      env.getAssociatedTokenAddress self.market.key self.collateralMint.key)
    (.lendingAccountValidationError .invalidMarketVault)

def CreateMarketAccounts.fromAccounts (accounts : List AccountInfo) :
    Program CreateMarketAccounts := do
  let (curator, accounts) ← nextAccountInfo accounts
  signer curator
  let (payer, accounts) ← nextAccountInfo accounts
  signer payer
  let (globalConfig, accounts) ← nextAccountInfo accounts
  let _ ← zeroCopyOwnedAccount GlobalConfig globalConfig
  let (market, accounts) ← nextAccountInfo accounts
  let (supplyMint, accounts) ← nextAccountInfo accounts
  let supplyMintDecimals ← ofResult .accountValidationError (ctx.mintDecimals supplyMint.key)
  let (supplyVault, accounts) ← nextAccountInfo accounts
  let (collateralMint, accounts) ← nextAccountInfo accounts
  let collateralMintDecimals ←
    ofResult .accountValidationError (ctx.mintDecimals collateralMint.key)
  let (collateralVault, accounts) ← nextAccountInfo accounts
  let (aplTokenProgram, accounts) ← nextAccountInfo accounts
  programAccount env.aplTokenProgramId aplTokenProgram
  let (associatedTokenProgram, accounts) ← nextAccountInfo accounts
  programAccount env.associatedTokenProgramId associatedTokenProgram
  let (systemProgram, _) ← nextAccountInfo accounts
  programAccount env.systemProgramId systemProgram
  let this : CreateMarketAccounts :=
    { curator, payer, globalConfig, market, supplyMint, supplyMintDecimals, supplyVault,
      collateralMint, collateralMintDecimals, collateralVault, aplTokenProgram }
  this.validate env
  pure this

def ensureVault (accounts : CreateMarketAccounts) (vault mint : AccountInfo) : Program Unit := do
  let current ← slot vault.key
  if current.owner ≠ accounts.aplTokenProgram.key then
    invoke env ctx (.createAta accounts.payer.key vault.key accounts.market.key mint.key)
  else pure ()

def CreateMarketAccounts.creation (accounts : CreateMarketAccounts) (data : CreateMarketInstruction)
    (globalConfig : GlobalConfig) : Market.CreateMarket where
  marketBump := data.marketBump
  index := data.index
  curator := accounts.curator.key
  ltvConfig := data.ltvConfig
  maxUtilisationRate := data.maxUtilisationRate
  lendingMarketFeeInBps := data.lendingMarketFeeInBps
  globalConfig
  supplyMint := accounts.supplyMint.key
  supplyMintDecimals := accounts.supplyMintDecimals
  supplyVault := accounts.supplyVault.key
  supplyOracleConfig := data.supplyOracleConfig
  interestRate := data.interestRate
  collateralMint := accounts.collateralMint.key
  collateralMintDecimals := accounts.collateralMintDecimals
  collateralVault := accounts.collateralVault.key
  collateralOracleConfig := data.collateralOracleConfig

def processCreateMarket (accounts : CreateMarketAccounts) (data : CreateMarketInstruction) :
    Program Unit := do
  invoke env ctx (.createAccount accounts.payer.key accounts.market.key .market
    (marketSeedWithBump accounts.curator.key accounts.supplyMint.key accounts.collateralMint.key
      data.index data.marketBump))
  ensureVault env ctx accounts accounts.supplyVault accounts.supplyMint
  ensureVault env ctx accounts accounts.collateralVault accounts.collateralMint
  let _ ← uninitializedAccountMut Market accounts.market
  let globalConfig ← load GlobalConfig accounts.globalConfig.key
  onState accounts.market.key (lending
    (Market.processCreateMarket (accounts.creation data globalConfig) ctx.unixTimestamp))

structure UpdateConfigAccounts where
  market : AccountInfo
  globalConfig : AccountInfo
  curator : AccountInfo
  updatedSupplyOracle : AccountInfo
  updatedCollateralOracle : AccountInfo

def UpdateConfigAccounts.validate (self : UpdateConfigAccounts) : Program Unit := do
  rejectIf (self.globalConfig.key ≠ env.findGlobalConfigPda.1)
    (.lendingAccountValidationError .invalidProtocolAuthority)
  let market ← load Market self.market.key
  rejectIf (market.config.curator ≠ self.curator.key)
    (.lendingAccountValidationError .invalidMarketAuthority)

def UpdateConfigAccounts.fromAccounts (accounts : List AccountInfo) :
    Program UpdateConfigAccounts := do
  let (market, accounts) ← nextAccountInfo accounts
  let _ ← zeroCopyOwnedAccountMut Market market
  let (globalConfig, accounts) ← nextAccountInfo accounts
  let _ ← zeroCopyOwnedAccount GlobalConfig globalConfig
  let (curator, accounts) ← nextAccountInfo accounts
  signer curator
  let (updatedSupplyOracle, accounts) ← nextAccountInfo accounts
  let (updatedCollateralOracle, _) ← nextAccountInfo accounts
  let this : UpdateConfigAccounts :=
    { market, globalConfig, curator, updatedSupplyOracle, updatedCollateralOracle }
  this.validate env
  pure this

def Market.updateConfig (accounts : UpdateConfigAccounts) (data : UpdateConfigInstruction)
    (globalConfig : GlobalConfig) : LendingMethod Market Unit := do
  Market.syncClock ctx.unixTimestamp
  ifSome data.supplyOracleConfig Market.setSupplyOracleConfig
  ifSome data.collateralOracleConfig Market.setCollateralOracleConfig
  ifSome data.ltvConfig fun ltvConfig => Market.onConfig (MarketConfig.updateLtv ltvConfig)
  ifSome data.maxUtilisationRate
    fun rate => Market.onConfig (MarketConfig.updateMaxUtilisationRate rate)
  ifSome data.maxSupplyAtoms fun atoms => Market.onConfig (MarketConfig.updateMaxSupplyAtoms atoms)
  ifSome data.lendingMarketFeeInBps
    fun fee => Market.onConfig (MarketConfig.setLendingMarketFee fee)
  Market.onConfig (MarketConfig.syncGlobalConfig globalConfig)
  let self ← Method.self
  let _ ← Method.lift (ctx.loadOracles self accounts.updatedSupplyOracle.key
    accounts.updatedCollateralOracle.key)
  pure ()

def processUpdateConfig (accounts : UpdateConfigAccounts) (data : UpdateConfigInstruction) :
    Program Unit := do
  let globalConfig ← load GlobalConfig accounts.globalConfig.key
  onState accounts.market.key (lending (Market.updateConfig ctx accounts data globalConfig))

structure AddWhitelistedLiquidatorAccounts where
  market : AccountInfo
  curator : AccountInfo
  whitelistEntry : AccountInfo
  systemProgram : AccountInfo

/-- The entry has the address of the market and the liquidator, and it is either theirs or not
created yet. -/
def AddWhitelistedLiquidatorAccounts.validate (self : AddWhitelistedLiquidatorAccounts)
    (data : AddWhitelistedLiquidatorInstruction) : Program Unit := do
  let market ← load Market self.market.key
  rejectIf (market.config.curator ≠ self.curator.key)
    (.lendingAccountValidationError .invalidMarketAuthority)
  let (expectedEntry, expectedBump) :=
    env.findLiquidatorWhitelistEntryPda self.market.key data.liquidator
  rejectIf (self.whitelistEntry.key ≠ expectedEntry ∨ data.bump ≠ expectedBump)
    (.lendingAccountValidationError .invalidLiquidatorWhitelistEntry)
  let current ← slot self.whitelistEntry.key
  if current.owner = AutaraProgram.id then do
    let entry ← zeroCopyOwnedAccount LiquidatorWhitelistEntry self.whitelistEntry
    rejectIf (entry.market ≠ self.market.key ∨ entry.liquidator ≠ data.liquidator)
      (.lendingAccountValidationError .invalidLiquidatorWhitelistEntry)
  else
    rejectIf (current.owner ≠ env.systemProgramId)
      (.lendingAccountValidationError .invalidLiquidatorWhitelistEntry)

def AddWhitelistedLiquidatorAccounts.fromAccounts (accounts : List AccountInfo)
    (data : AddWhitelistedLiquidatorInstruction) : Program AddWhitelistedLiquidatorAccounts := do
  let (market, accounts) ← nextAccountInfo accounts
  let _ ← zeroCopyOwnedAccountMut Market market
  let (curator, accounts) ← nextAccountInfo accounts
  signer curator
  let (whitelistEntry, accounts) ← nextAccountInfo accounts
  let (systemProgram, _) ← nextAccountInfo accounts
  programAccount env.systemProgramId systemProgram
  let this : AddWhitelistedLiquidatorAccounts := { market, curator, whitelistEntry, systemProgram }
  this.validate env data
  pure this

def activateEntry (accounts : AddWhitelistedLiquidatorAccounts)
    (data : AddWhitelistedLiquidatorInstruction) : Program Unit := do
  let current ← slot accounts.whitelistEntry.key
  if current.owner ≠ AutaraProgram.id then do
    invoke env ctx (.createAccount accounts.curator.key accounts.whitelistEntry.key
      .liquidatorWhitelistEntry
      (liquidatorWhitelistEntrySeed accounts.market.key data.liquidator ++ [[data.bump]]))
    let _ ← uninitializedAccountMut LiquidatorWhitelistEntry accounts.whitelistEntry
    onState accounts.whitelistEntry.key (lending
      (LiquidatorWhitelistEntry.initializeEntry accounts.market.key data.liquidator data.bump))
  else do
    let _ ← zeroCopyOwnedAccountMut LiquidatorWhitelistEntry accounts.whitelistEntry
    onState accounts.whitelistEntry.key (lending LiquidatorWhitelistEntry.activate)

def logWhitelistUpdate (market curator : AccountInfo) (liquidator : Pubkey)
    (count : LendingMethod MarketConfig Unit)
    (event : LiquidatorWhitelistUpdatedEvent → AutaraEvent) : Program Unit := do
  onState market.key (lending (Market.onConfig count))
  let updated ← load Market market.key
  invoke env ctx (.log market.key
    (event
      { market := market.key
        curator := curator.key
        liquidator
        activeWhitelistedLiquidators := updated.config.activeWhitelistedLiquidators })
    updated.seed)

def processAddWhitelistedLiquidator (accounts : AddWhitelistedLiquidatorAccounts)
    (data : AddWhitelistedLiquidatorInstruction) : Program Unit := do
  activateEntry env ctx accounts data
  logWhitelistUpdate env ctx accounts.market accounts.curator data.liquidator
    MarketConfig.incrementActiveWhitelistedLiquidators .liquidatorWhitelistEntryAdded

structure RemoveWhitelistedLiquidatorAccounts where
  market : AccountInfo
  curator : AccountInfo
  whitelistEntry : AccountInfo

def RemoveWhitelistedLiquidatorAccounts.validate (self : RemoveWhitelistedLiquidatorAccounts)
    (data : RemoveWhitelistedLiquidatorInstruction) : Program Unit := do
  let market ← load Market self.market.key
  rejectIf (market.config.curator ≠ self.curator.key)
    (.lendingAccountValidationError .invalidMarketAuthority)
  let (expectedEntry, _) := env.findLiquidatorWhitelistEntryPda self.market.key data.liquidator
  let entry ← load LiquidatorWhitelistEntry self.whitelistEntry.key
  rejectIf (self.whitelistEntry.key ≠ expectedEntry ∨ entry.market ≠ self.market.key ∨
      entry.liquidator ≠ data.liquidator)
    (.lendingAccountValidationError .invalidLiquidatorWhitelistEntry)

def RemoveWhitelistedLiquidatorAccounts.fromAccounts (accounts : List AccountInfo)
    (data : RemoveWhitelistedLiquidatorInstruction) :
    Program RemoveWhitelistedLiquidatorAccounts := do
  let (market, accounts) ← nextAccountInfo accounts
  let _ ← zeroCopyOwnedAccountMut Market market
  let (curator, accounts) ← nextAccountInfo accounts
  signer curator
  let (whitelistEntry, _) ← nextAccountInfo accounts
  let _ ← zeroCopyOwnedAccountMut LiquidatorWhitelistEntry whitelistEntry
  let this : RemoveWhitelistedLiquidatorAccounts := { market, curator, whitelistEntry }
  this.validate env data
  pure this

def processRemoveWhitelistedLiquidator (accounts : RemoveWhitelistedLiquidatorAccounts)
    (data : RemoveWhitelistedLiquidatorInstruction) : Program Unit := do
  onState accounts.whitelistEntry.key (lending LiquidatorWhitelistEntry.deactivate)
  logWhitelistUpdate env ctx accounts.market accounts.curator data.liquidator
    MarketConfig.decrementActiveWhitelistedLiquidators .liquidatorWhitelistEntryRemoved

end Instructions

/-! Runs of administrative instructions. -/

inductive AdministrationInstruction where
  | createGlobalConfig (data : CreateGlobalConfigInstruction)
  | updateGlobalConfig (data : UpdateGlobalConfigInstruction)
  | createMarket (data : CreateMarketInstruction)
  | updateConfig (data : UpdateConfigInstruction)
  | addWhitelistedLiquidator (data : AddWhitelistedLiquidatorInstruction)
  | removeWhitelistedLiquidator (data : RemoveWhitelistedLiquidatorInstruction)

namespace Administration

/-- An instruction with the accounts passed to it, and what it finds outside of them. -/
structure Call where
  accounts : List AccountInfo
  instruction : AdministrationInstruction
  context : Context

variable (env : Environment)

def process (call : Call) : Program Unit :=
  match call.instruction with
  | .createGlobalConfig data => do
      let accounts ← CreateGlobalConfigAccounts.fromAccounts env call.accounts
      processCreateGlobalConfig env call.context accounts data
  | .updateGlobalConfig data => do
      let accounts ← UpdateGlobalConfigAccounts.fromAccounts call.accounts
      processUpdateGlobalConfig accounts data
  | .createMarket data => do
      let accounts ← CreateMarketAccounts.fromAccounts env call.context call.accounts
      processCreateMarket env call.context accounts data
  | .updateConfig data => do
      let accounts ← UpdateConfigAccounts.fromAccounts env call.accounts
      processUpdateConfig call.context accounts data
  | .addWhitelistedLiquidator data => do
      let accounts ← AddWhitelistedLiquidatorAccounts.fromAccounts env call.accounts data
      processAddWhitelistedLiquidator env call.context accounts data
  | .removeWhitelistedLiquidator data => do
      let accounts ← RemoveWhitelistedLiquidatorAccounts.fromAccounts env call.accounts data
      processRemoveWhitelistedLiquidator env call.context accounts data

/-- An instruction on the chain. The clock of a chain that runs is not zero. -/
def execute (call : Call) : Method InstructionFailure Chain Unit := fun chain =>
  if call.context.unixTimestamp = 0 then (.error .panicked, chain)
  else
    let outcome := process env call ⟨chain, []⟩
    (outcome.1, outcome.2.chain)

def run (chain : Chain) (calls : List Call) : Chain := Machine.run (execute env) chain calls

theorem execute_succeeds (call : Call) (chain chain' : Chain) (u : Unit)
    (success : (execute env call).Succeeds chain u chain') :
    ∃ w', (process env call).Succeeds ⟨chain, []⟩ u w' ∧ w'.chain = chain' := by
  unfold execute Method.Succeeds at success
  split at success
  · simp at success
  · obtain ⟨result, rfl⟩ := Prod.mk.inj success
    exact ⟨_, Prod.ext result rfl, rfl⟩

end Administration

end AutaraLending
