import AutaraLending.Administration

/-! The accounts of lending instructions, and what is checked of them. -/

namespace AutaraLending

open Support

/-- `PackedOwnedAccount<BoxedTokenAccount>` -/
structure PackedTokenAccount where
  info : AccountInfo
  mint : Pubkey
  owner : Pubkey

namespace PackedTokenAccount

def key (self : PackedTokenAccount) : Pubkey := self.info.key

def tryFrom (ctx : Context) (info : AccountInfo) : Program PackedTokenAccount := do
  let account ← Program.ofResult .accountValidationError (ctx.tokenAccount info.key)
  pure { info, mint := account.mint, owner := account.owner }

end PackedTokenAccount

section

open Program

variable (env : Environment) (ctx : Context)

/-- The two tokens of a market. -/
inductive VaultSide where
  | supply
  | collateral
  deriving DecidableEq

/-- The token account of a vault and its mint. -/
structure VaultKeys where
  mint : Pubkey
  vault : Pubkey
  deriving DecidableEq

def Market.vaultKeys (self : Market) : VaultSide → VaultKeys
  | .supply => ⟨self.supplyVault.mint, self.supplyVault.vault⟩
  | .collateral => ⟨self.collateralVault.mint, self.collateralVault.vault⟩

/-- A position of a user in a market. -/
class UserPosition (T : Type) extends LendingAccount T where
  authority : T → Pubkey
  market : T → Pubkey

instance : UserPosition SupplyPosition where
  authority := SupplyPosition.authority
  market := SupplyPosition.market

instance : UserPosition BorrowPosition where
  authority := BorrowPosition.authority
  market := BorrowPosition.market

def base58Alphabet : List Char :=
  "123456789ABCDEFGHJKLMNPQRSTUVWXYZabcdefghijkmnopqrstuvwxyz".toList

/-- Zero bytes in front are kept as ones; the rest is a number in base 58. -/
def pubkeyBase58 (pubkey : Pubkey) : String :=
  let value := pubkey.toList.foldl (fun total byte => total * 256 + byte.toNat) 0
  String.ofList ((pubkey.toList.takeWhile (· = 0)).map (fun _ => '1') ++
    (Nat.digits 58 value).reverse.map fun digit => base58Alphabet.getD digit '1')

def formatPubkeyPair (labelA : String) (a : Pubkey) (labelB : String) (b : Pubkey) : String :=
  labelA ++ "=" ++ pubkeyBase58 a ++ " " ++ labelB ++ "=" ++ pubkeyBase58 b

def reported (verbose : Bool) (labelA : String) (a : Pubkey) (labelB : String) (b : Pubkey) :
    List String :=
  if verbose then [formatPubkeyPair labelA a labelB b] else []

def rejectPair (verbose : Bool) (kind : LendingAccountValidationError) (labelA : String)
    (a : Pubkey) (labelB : String) (b : Pubkey) : Program Unit :=
  Method.rejectIf (a ≠ b)
    (.error (.lendingAccountValidationError kind) (reported verbose labelA a labelB b))

structure CreatePositionAccounts where
  market : AccountInfo
  position : AccountInfo
  authority : AccountInfo
  payer : AccountInfo

def CreatePositionAccounts.fromAccounts (accounts : List AccountInfo) :
    Program CreatePositionAccounts := do
  let (market, accounts) ← nextAccountInfo accounts
  let _ ← zeroCopyOwnedAccountMut Market market
  let (position, accounts) ← nextAccountInfo accounts
  let (authority, accounts) ← nextAccountInfo accounts
  signer authority
  let (payer, accounts) ← nextAccountInfo accounts
  signer payer
  let (systemProgram, _) ← nextAccountInfo accounts
  programAccount env.systemProgramId systemProgram
  pure { market, position, authority, payer }

abbrev CreateSupplyPositionAccounts := CreatePositionAccounts

abbrev CreateBorrowPositionAccounts := CreatePositionAccounts

structure PositionAccounts where
  market : AccountInfo
  position : AccountInfo
  authority : AccountInfo
  authorityAta : PackedTokenAccount
  marketVault : PackedTokenAccount
  supplyOracle : AccountInfo
  collateralOracle : AccountInfo

/-- The position is the authority's and the market's, and the token accounts hold the token. -/
def PositionAccounts.validate (T : Type) [UserPosition T] (side : VaultSide) (verbose : Bool)
    (self : PositionAccounts) : Program Unit := do
  let position ← load T self.position.key
  let market ← load Market self.market.key
  rejectPair verbose .invalidAuthority "position_authority" (UserPosition.authority position)
    "signer" self.authority.key
  rejectPair verbose .invalidMarket "position_market" (UserPosition.market position)
    "market" self.market.key
  rejectPair verbose .invalidMarketVault "expected_vault" (market.vaultKeys side).vault
    "provided_vault" self.marketVault.key
  rejectPair verbose .invalidMintForTokenAccount "ata_mint" self.authorityAta.mint
    "market_mint" (market.vaultKeys side).mint

def PositionAccounts.fromAccounts (T : Type) [UserPosition T] (side : VaultSide) (verbose : Bool)
    (accounts : List AccountInfo) : Program PositionAccounts := do
  let (market, accounts) ← nextAccountInfo accounts
  let _ ← zeroCopyOwnedAccountMut Market market
  let (position, accounts) ← nextAccountInfo accounts
  let _ ← zeroCopyOwnedAccountMut T position
  let (authority, accounts) ← nextAccountInfo accounts
  signer authority
  let (ata, accounts) ← nextAccountInfo accounts
  let authorityAta ← PackedTokenAccount.tryFrom ctx ata
  let (vault, accounts) ← nextAccountInfo accounts
  let marketVault ← PackedTokenAccount.tryFrom ctx vault
  let (aplTokenProgram, accounts) ← nextAccountInfo accounts
  programAccount env.aplTokenProgramId aplTokenProgram
  let (supplyOracle, accounts) ← nextAccountInfo accounts
  let (collateralOracle, _) ← nextAccountInfo accounts
  let this : PositionAccounts :=
    { market, position, authority, authorityAta, marketVault, supplyOracle, collateralOracle }
  this.validate T side verbose
  pure this

abbrev SupplyAplAccounts := PositionAccounts

def SupplyAplAccounts.fromAccounts : List AccountInfo → Program SupplyAplAccounts :=
  PositionAccounts.fromAccounts env ctx SupplyPosition .supply false

abbrev WithdrawSupplyAccounts := PositionAccounts

def WithdrawSupplyAccounts.fromAccounts : List AccountInfo → Program WithdrawSupplyAccounts :=
  PositionAccounts.fromAccounts env ctx SupplyPosition .supply false

abbrev BorrowAplAccounts := PositionAccounts

def BorrowAplAccounts.fromAccounts : List AccountInfo → Program BorrowAplAccounts :=
  PositionAccounts.fromAccounts env ctx BorrowPosition .supply true

abbrev RepayAplAccounts := PositionAccounts

def RepayAplAccounts.fromAccounts : List AccountInfo → Program RepayAplAccounts :=
  PositionAccounts.fromAccounts env ctx BorrowPosition .supply true

abbrev DepositAplCollateralAccounts := PositionAccounts

def DepositAplCollateralAccounts.fromAccounts :
    List AccountInfo → Program DepositAplCollateralAccounts :=
  PositionAccounts.fromAccounts env ctx BorrowPosition .collateral false

abbrev WithdrawAplCollateralAccounts := PositionAccounts

def WithdrawAplCollateralAccounts.fromAccounts :
    List AccountInfo → Program WithdrawAplCollateralAccounts :=
  PositionAccounts.fromAccounts env ctx BorrowPosition .collateral false

structure DoublePositionAccounts where
  market : AccountInfo
  borrowPosition : AccountInfo
  authority : AccountInfo
  authoritySupplyAta : PackedTokenAccount
  marketSupplyVault : PackedTokenAccount
  authorityCollateralAta : PackedTokenAccount
  marketCollateralVault : PackedTokenAccount
  supplyOracle : AccountInfo
  collateralOracle : AccountInfo

def DoublePositionAccounts.validate (self : DoublePositionAccounts) : Program Unit := do
  let borrowPosition ← load BorrowPosition self.borrowPosition.key
  let market ← load Market self.market.key
  rejectIf (borrowPosition.authority ≠ self.authority.key)
    (.lendingAccountValidationError .invalidAuthority)
  rejectIf (borrowPosition.market ≠ self.market.key)
    (.lendingAccountValidationError .invalidMarket)
  rejectIf (market.supplyVault.vault ≠ self.marketSupplyVault.key)
    (.lendingAccountValidationError .invalidMarketVault)
  rejectIf (self.authoritySupplyAta.mint ≠ market.supplyVault.mint)
    (.lendingAccountValidationError .invalidMintForTokenAccount)
  rejectIf (market.collateralVault.vault ≠ self.marketCollateralVault.key)
    (.lendingAccountValidationError .invalidMarketVault)
  rejectIf (self.authorityCollateralAta.mint ≠ market.collateralVault.mint)
    (.lendingAccountValidationError .invalidMintForTokenAccount)

def DoublePositionAccounts.fromAccounts (accounts : List AccountInfo) :
    Program DoublePositionAccounts := do
  let (market, accounts) ← nextAccountInfo accounts
  let _ ← zeroCopyOwnedAccountMut Market market
  let (borrowPosition, accounts) ← nextAccountInfo accounts
  let _ ← zeroCopyOwnedAccountMut BorrowPosition borrowPosition
  let (authority, accounts) ← nextAccountInfo accounts
  signer authority
  let (supplyAta, accounts) ← nextAccountInfo accounts
  let authoritySupplyAta ← PackedTokenAccount.tryFrom ctx supplyAta
  let (supplyVault, accounts) ← nextAccountInfo accounts
  let marketSupplyVault ← PackedTokenAccount.tryFrom ctx supplyVault
  let (collateralAta, accounts) ← nextAccountInfo accounts
  let authorityCollateralAta ← PackedTokenAccount.tryFrom ctx collateralAta
  let (collateralVault, accounts) ← nextAccountInfo accounts
  let marketCollateralVault ← PackedTokenAccount.tryFrom ctx collateralVault
  let (aplTokenProgram, accounts) ← nextAccountInfo accounts
  programAccount env.aplTokenProgramId aplTokenProgram
  let (supplyOracle, accounts) ← nextAccountInfo accounts
  let (collateralOracle, _) ← nextAccountInfo accounts
  let this : DoublePositionAccounts :=
    { market, borrowPosition, authority, authoritySupplyAta, marketSupplyVault,
      authorityCollateralAta, marketCollateralVault, supplyOracle, collateralOracle }
  this.validate
  pure this

abbrev BorrowDepositAplAccounts := DoublePositionAccounts

abbrev WithdrawRepayAplAccounts := DoublePositionAccounts

structure CollateralReceiverAccounts where
  market : AccountInfo
  borrowPosition : AccountInfo
  curator : AccountInfo
  receiverCollateralAta : PackedTokenAccount
  marketCollateralVault : PackedTokenAccount
  supplyOracle : AccountInfo
  collateralOracle : AccountInfo

def CollateralReceiverAccounts.validate (self : CollateralReceiverAccounts) : Program Unit := do
  let borrowPosition ← load BorrowPosition self.borrowPosition.key
  let market ← load Market self.market.key
  rejectIf (borrowPosition.market ≠ self.market.key)
    (.lendingAccountValidationError .invalidMarket)
  rejectIf (market.config.curator ≠ self.curator.key)
    (.lendingAccountValidationError .invalidMarketAuthority)
  rejectIf (self.receiverCollateralAta.mint ≠ market.collateralVault.mint)
    (.lendingAccountValidationError .invalidMintForTokenAccount)
  rejectIf (market.collateralVault.vault ≠ self.marketCollateralVault.key)
    (.lendingAccountValidationError .invalidMarketVault)
  rejectIf (self.marketCollateralVault.mint ≠ market.collateralVault.mint)
    (.lendingAccountValidationError .invalidMintForTokenAccount)

def CollateralReceiverAccounts.fromAccounts (accounts : List AccountInfo) :
    Program CollateralReceiverAccounts := do
  let (market, accounts) ← nextAccountInfo accounts
  let _ ← zeroCopyOwnedAccountMut Market market
  let (borrowPosition, accounts) ← nextAccountInfo accounts
  let _ ← zeroCopyOwnedAccountMut BorrowPosition borrowPosition
  let (curator, accounts) ← nextAccountInfo accounts
  signer curator
  let (receiverAta, accounts) ← nextAccountInfo accounts
  let receiverCollateralAta ← PackedTokenAccount.tryFrom ctx receiverAta
  let (collateralVault, accounts) ← nextAccountInfo accounts
  let marketCollateralVault ← PackedTokenAccount.tryFrom ctx collateralVault
  let (aplTokenProgram, accounts) ← nextAccountInfo accounts
  programAccount env.aplTokenProgramId aplTokenProgram
  let (supplyOracle, accounts) ← nextAccountInfo accounts
  let (collateralOracle, _) ← nextAccountInfo accounts
  let this : CollateralReceiverAccounts :=
    { market, borrowPosition, curator, receiverCollateralAta, marketCollateralVault, supplyOracle,
      collateralOracle }
  this.validate
  pure this

abbrev SocializeLossAccounts := CollateralReceiverAccounts

abbrev BeginCapitalSweepAccounts := CollateralReceiverAccounts

structure SettleCapitalSweepAccounts where
  market : AccountInfo
  borrowPosition : AccountInfo
  curator : AccountInfo
  curatorSupplyAta : PackedTokenAccount
  curatorCollateralAta : PackedTokenAccount
  marketSupplyVault : PackedTokenAccount
  marketCollateralVault : PackedTokenAccount
  supplyOracle : AccountInfo
  collateralOracle : AccountInfo

def SettleCapitalSweepAccounts.validate (self : SettleCapitalSweepAccounts) : Program Unit := do
  let borrowPosition ← load BorrowPosition self.borrowPosition.key
  let market ← load Market self.market.key
  rejectIf (borrowPosition.market ≠ self.market.key)
    (.lendingAccountValidationError .invalidMarket)
  rejectIf (market.config.curator ≠ self.curator.key)
    (.lendingAccountValidationError .invalidMarketAuthority)
  rejectIf (self.curatorSupplyAta.mint ≠ market.supplyVault.mint ∨
      self.marketSupplyVault.mint ≠ market.supplyVault.mint)
    (.lendingAccountValidationError .invalidMintForTokenAccount)
  rejectIf (self.curatorCollateralAta.mint ≠ market.collateralVault.mint ∨
      self.marketCollateralVault.mint ≠ market.collateralVault.mint)
    (.lendingAccountValidationError .invalidMintForTokenAccount)
  rejectIf (market.supplyVault.vault ≠ self.marketSupplyVault.key ∨
      market.collateralVault.vault ≠ self.marketCollateralVault.key)
    (.lendingAccountValidationError .invalidMarketVault)

def SettleCapitalSweepAccounts.fromAccounts (accounts : List AccountInfo) :
    Program SettleCapitalSweepAccounts := do
  let (market, accounts) ← nextAccountInfo accounts
  let _ ← zeroCopyOwnedAccountMut Market market
  let (borrowPosition, accounts) ← nextAccountInfo accounts
  let _ ← zeroCopyOwnedAccountMut BorrowPosition borrowPosition
  let (curator, accounts) ← nextAccountInfo accounts
  signer curator
  let (supplyAta, accounts) ← nextAccountInfo accounts
  let curatorSupplyAta ← PackedTokenAccount.tryFrom ctx supplyAta
  let (collateralAta, accounts) ← nextAccountInfo accounts
  let curatorCollateralAta ← PackedTokenAccount.tryFrom ctx collateralAta
  let (supplyVault, accounts) ← nextAccountInfo accounts
  let marketSupplyVault ← PackedTokenAccount.tryFrom ctx supplyVault
  let (collateralVault, accounts) ← nextAccountInfo accounts
  let marketCollateralVault ← PackedTokenAccount.tryFrom ctx collateralVault
  let (aplTokenProgram, accounts) ← nextAccountInfo accounts
  programAccount env.aplTokenProgramId aplTokenProgram
  let (supplyOracle, accounts) ← nextAccountInfo accounts
  let (collateralOracle, _) ← nextAccountInfo accounts
  let this : SettleCapitalSweepAccounts :=
    { market, borrowPosition, curator, curatorSupplyAta, curatorCollateralAta, marketSupplyVault,
      marketCollateralVault, supplyOracle, collateralOracle }
  this.validate
  pure this

structure DonateSupplyAccounts where
  market : AccountInfo
  authority : AccountInfo
  authoritySupplyAta : PackedTokenAccount
  marketSupplyVault : PackedTokenAccount

def DonateSupplyAccounts.validate (self : DonateSupplyAccounts) : Program Unit := do
  let market ← load Market self.market.key
  rejectIf (market.supplyVault.vault ≠ self.marketSupplyVault.key)
    (.lendingAccountValidationError .invalidMarketVault)
  rejectIf (self.authoritySupplyAta.mint ≠ market.supplyVault.mint)
    (.lendingAccountValidationError .invalidMintForTokenAccount)

def DonateSupplyAccounts.fromAccounts (accounts : List AccountInfo) :
    Program DonateSupplyAccounts := do
  let (market, accounts) ← nextAccountInfo accounts
  let _ ← zeroCopyOwnedAccountMut Market market
  let (authority, accounts) ← nextAccountInfo accounts
  signer authority
  let (supplyAta, accounts) ← nextAccountInfo accounts
  let authoritySupplyAta ← PackedTokenAccount.tryFrom ctx supplyAta
  let (supplyVault, accounts) ← nextAccountInfo accounts
  let marketSupplyVault ← PackedTokenAccount.tryFrom ctx supplyVault
  let (aplTokenProgram, _) ← nextAccountInfo accounts
  programAccount env.aplTokenProgramId aplTokenProgram
  let this : DonateSupplyAccounts := { market, authority, authoritySupplyAta, marketSupplyVault }
  this.validate
  pure this

structure RedeemCuratorFeesAccounts where
  curator : AccountInfo
  market : AccountInfo
  curatorSupplyAta : PackedTokenAccount
  marketSupplyVault : PackedTokenAccount

def RedeemCuratorFeesAccounts.validate (self : RedeemCuratorFeesAccounts) : Program Unit := do
  let market ← load Market self.market.key
  rejectIf (market.config.curator ≠ self.curator.key)
    (.lendingAccountValidationError .invalidAuthority)
  rejectIf (market.supplyVault.vault ≠ self.marketSupplyVault.key)
    (.lendingAccountValidationError .invalidMarketVault)

def RedeemCuratorFeesAccounts.fromAccounts (accounts : List AccountInfo) :
    Program RedeemCuratorFeesAccounts := do
  let (curator, accounts) ← nextAccountInfo accounts
  signer curator
  let (market, accounts) ← nextAccountInfo accounts
  let _ ← zeroCopyOwnedAccountMut Market market
  let (supplyAta, accounts) ← nextAccountInfo accounts
  let curatorSupplyAta ← PackedTokenAccount.tryFrom ctx supplyAta
  let (supplyVault, accounts) ← nextAccountInfo accounts
  let marketSupplyVault ← PackedTokenAccount.tryFrom ctx supplyVault
  let (aplTokenProgram, _) ← nextAccountInfo accounts
  programAccount env.aplTokenProgramId aplTokenProgram
  let this : RedeemCuratorFeesAccounts := { curator, market, curatorSupplyAta, marketSupplyVault }
  this.validate
  pure this

def GlobalConfig.canRedeemFees (self : GlobalConfig) (key : Pubkey) : Bool :=
  decide (self.admin = key ∨ self.feeReceiver = key)

structure RedeemProtocolFeesAccounts where
  signer : AccountInfo
  globalConfig : AccountInfo
  market : AccountInfo
  receiverSupplyAta : PackedTokenAccount
  marketSupplyVault : PackedTokenAccount

def RedeemProtocolFeesAccounts.validate (self : RedeemProtocolFeesAccounts) : Program Unit := do
  rejectIf (self.globalConfig.key ≠ env.findGlobalConfigPda.1)
    (.lendingAccountValidationError .invalidProtocolAuthority)
  let market ← load Market self.market.key
  let globalConfig ← load GlobalConfig self.globalConfig.key
  rejectIf (globalConfig.canRedeemFees self.signer.key = false)
    (.lendingAccountValidationError .invalidAuthority)
  rejectIf (market.supplyVault.vault ≠ self.marketSupplyVault.key)
    (.lendingAccountValidationError .invalidMarketVault)

def RedeemProtocolFeesAccounts.fromAccounts (accounts : List AccountInfo) :
    Program RedeemProtocolFeesAccounts := do
  let (signer, accounts) ← nextAccountInfo accounts
  Program.signer signer
  let (globalConfig, accounts) ← nextAccountInfo accounts
  let _ ← zeroCopyOwnedAccount GlobalConfig globalConfig
  let (market, accounts) ← nextAccountInfo accounts
  let _ ← zeroCopyOwnedAccountMut Market market
  let (supplyAta, accounts) ← nextAccountInfo accounts
  let receiverSupplyAta ← PackedTokenAccount.tryFrom ctx supplyAta
  let (supplyVault, accounts) ← nextAccountInfo accounts
  let marketSupplyVault ← PackedTokenAccount.tryFrom ctx supplyVault
  let (aplTokenProgram, _) ← nextAccountInfo accounts
  programAccount env.aplTokenProgramId aplTokenProgram
  let this : RedeemProtocolFeesAccounts :=
    { signer, globalConfig, market, receiverSupplyAta, marketSupplyVault }
  this.validate env
  pure this

structure LogAccounts where
  market : AccountInfo

/-- A log is signed by a market, which no one but the program can. -/
def LogAccounts.fromAccounts (accounts : List AccountInfo) : Program LogAccounts := do
  let (market, _) ← nextAccountInfo accounts
  let _ ← zeroCopyOwnedAccount Market market
  rejectIf (market.isSigner = false) (.programError .missingRequiredSignature)
  pure { market }

structure LiquidateAccounts where
  market : AccountInfo
  borrowPosition : AccountInfo
  liquidator : AccountInfo
  liquidatorSupplyAta : PackedTokenAccount
  liquidatorCollateralAta : PackedTokenAccount
  marketSupplyVault : PackedTokenAccount
  marketCollateralVault : PackedTokenAccount
  supplyOracle : AccountInfo
  collateralOracle : AccountInfo
  liquidatorWhitelistEntry : Option AccountInfo

def LiquidateAccounts.validateLiquidator (self : LiquidateAccounts) (market : Market) :
    Program Unit :=
  if market.config.liquidationsArePermissionless then pure ()
  else
    match self.liquidatorWhitelistEntry with
    | none => fail (.lendingAccountValidationError .missingLiquidatorWhitelistEntry)
    | some entry => do
        let (expectedEntry, _) :=
          env.findLiquidatorWhitelistEntryPda self.market.key self.liquidator.key
        let entryRef ← load LiquidatorWhitelistEntry entry.key
        rejectIf (entry.key ≠ expectedEntry ∨ entryRef.market ≠ self.market.key ∨
            entryRef.liquidator ≠ self.liquidator.key ∨ entryRef.isActive = false)
          (.lendingAccountValidationError .liquidatorNotWhitelisted)

def LiquidateAccounts.validate (self : LiquidateAccounts) : Program Unit := do
  let borrowPosition ← load BorrowPosition self.borrowPosition.key
  let market ← load Market self.market.key
  rejectIf (self.liquidatorCollateralAta.mint ≠ market.collateralVault.mint)
    (.lendingAccountValidationError .invalidMintForTokenAccount)
  rejectIf (self.liquidatorSupplyAta.mint ≠ market.supplyVault.mint)
    (.lendingAccountValidationError .invalidMintForTokenAccount)
  rejectIf (borrowPosition.market ≠ self.market.key)
    (.lendingAccountValidationError .invalidMarket)
  rejectIf (self.marketCollateralVault.key ≠ market.collateralVault.vault)
    (.lendingAccountValidationError .invalidMarketVault)
  rejectIf (self.marketSupplyVault.key ≠ market.supplyVault.vault)
    (.lendingAccountValidationError .invalidMarketVault)
  self.validateLiquidator env market

/-- The account of the whitelist entry is read from a market with a whitelist only. The program's
own identifier stands for an account that is left out. -/
def LiquidateAccounts.nextWhitelistEntry (market : Market) (accounts : List AccountInfo) :
    Program (Option AccountInfo) :=
  if market.config.liquidationsArePermissionless then pure none
  else do
    let (entryAccount, _) ← Method.mapErr
      (fun _ => .error (.lendingAccountValidationError .missingLiquidatorWhitelistEntry) [])
      (nextAccountInfo accounts)
    rejectIf (entryAccount.key = AutaraProgram.id)
      (.lendingAccountValidationError .missingLiquidatorWhitelistEntry)
    let _ ← Method.mapErr
      (fun _ => .error (.lendingAccountValidationError .liquidatorNotWhitelisted) [])
      (zeroCopyOwnedAccount LiquidatorWhitelistEntry entryAccount)
    pure (some entryAccount)

def LiquidateAccounts.fromAccounts (accounts : List AccountInfo) : Program LiquidateAccounts := do
  let (market, accounts) ← nextAccountInfo accounts
  let _ ← zeroCopyOwnedAccountMut Market market
  let (borrowPosition, accounts) ← nextAccountInfo accounts
  let _ ← zeroCopyOwnedAccountMut BorrowPosition borrowPosition
  let (liquidator, accounts) ← nextAccountInfo accounts
  signer liquidator
  let (supplyAta, accounts) ← nextAccountInfo accounts
  let liquidatorSupplyAta ← PackedTokenAccount.tryFrom ctx supplyAta
  let (collateralAta, accounts) ← nextAccountInfo accounts
  let liquidatorCollateralAta ← PackedTokenAccount.tryFrom ctx collateralAta
  let (supplyVault, accounts) ← nextAccountInfo accounts
  let marketSupplyVault ← PackedTokenAccount.tryFrom ctx supplyVault
  let (collateralVault, accounts) ← nextAccountInfo accounts
  let marketCollateralVault ← PackedTokenAccount.tryFrom ctx collateralVault
  let (aplTokenProgram, accounts) ← nextAccountInfo accounts
  programAccount env.aplTokenProgramId aplTokenProgram
  let (supplyOracle, accounts) ← nextAccountInfo accounts
  let (collateralOracle, accounts) ← nextAccountInfo accounts
  let loaded ← load Market market.key
  let liquidatorWhitelistEntry ← LiquidateAccounts.nextWhitelistEntry loaded accounts
  let this : LiquidateAccounts :=
    { market, borrowPosition, liquidator, liquidatorSupplyAta, liquidatorCollateralAta,
      marketSupplyVault, marketCollateralVault, supplyOracle, collateralOracle,
      liquidatorWhitelistEntry }
  this.validate env
  pure this

end

section

open Program

variable (env : Environment) (ctx : Context)

theorem PackedTokenAccount.tryFrom_succeeds (info : AccountInfo) (w w' : World)
    (packed : PackedTokenAccount) :
    (tryFrom ctx info).Succeeds w packed w' ↔
      ctx.tokenAccount info.key = .ok ⟨packed.mint, packed.owner⟩ ∧ packed.info = info ∧
        w = w' := by
  obtain ⟨packedInfo, mint, owner⟩ := packed
  simp only [tryFrom, Method.succeeds_bind, ofResult_succeeds, Method.succeeds_pure]
  constructor
  · rintro ⟨account, _, ⟨read, rfl⟩, same, rfl⟩
    cases same
    exact ⟨read, rfl, rfl⟩
  · rintro ⟨read, rfl, rfl⟩
    exact ⟨⟨mint, owner⟩, w, ⟨read, rfl⟩, rfl, rfl⟩

theorem PackedTokenAccount.next_bind {β : Type} {ctx : Context} {infos : List AccountInfo}
    {f : AccountInfo × List AccountInfo → PackedTokenAccount → Program β} {w w' : World} {b : β}
    (success : (nextAccountInfo infos >>= fun next =>
      PackedTokenAccount.tryFrom ctx next.1 >>= f next).Succeeds w b w') :
    ∃ next packed, packed.info = next.1 ∧ (f next packed).Succeeds w b w' := by
  obtain ⟨info, rest, -, success⟩ := nextAccountInfo_bind success
  obtain ⟨packed, w₁, read, success⟩ := (Method.succeeds_bind _ _ _ _ _).mp success
  obtain ⟨-, same, rfl⟩ := (PackedTokenAccount.tryFrom_succeeds _ _ _ _ _).mp read
  exact ⟨(info, rest), packed, same, success⟩

/-- A market with a whitelist is liquidated by a liquidator with an active entry of their own. -/
theorem LiquidateAccounts.validateLiquidator_succeeds (self : LiquidateAccounts) (m : Market)
    (w w' : World) (u : Unit) (restricted : m.config.liquidationsArePermissionless = false)
    (success : (self.validateLiquidator env m).Succeeds w u w') :
    ∃ account, ∃ entry : LiquidatorWhitelistEntry, self.liquidatorWhitelistEntry = some account ∧
      account.key = (env.findLiquidatorWhitelistEntryPda self.market.key self.liquidator.key).1 ∧
      (w.chain account.key).data = .lending (LendingAccount.wrap entry) ∧
      entry.market = self.market.key ∧ entry.liquidator = self.liquidator.key ∧
      entry.isActive = true := by
  unfold validateLiquidator at success
  rw [if_neg (by simp [restricted])] at success
  cases found : self.liquidatorWhitelistEntry with
  | none =>
      rw [found] at success
      exact absurd success (by simp [fail_succeeds])
  | some account =>
      simp only [found, Method.succeeds_bind, load_succeeds, rejectIf_succeeds, not_or, not_not,
        Bool.not_eq_false] at success
      obtain ⟨entry, _, ⟨read, rfl⟩, ⟨expected, market_eq, liquidator_eq, active⟩, -⟩ := success
      exact ⟨account, entry, rfl, expected, read, market_eq, liquidator_eq, active⟩

theorem LiquidateAccounts.validate_succeeds (self : LiquidateAccounts) (w w' : World) (u : Unit)
    (success : (self.validate env).Succeeds w u w') :
    ∃ m, (w.chain self.market.key).data = .lending (.market m) ∧
      (m.vaultKeys .supply).vault = self.marketSupplyVault.key ∧
      (m.vaultKeys .collateral).vault = self.marketCollateralVault.key ∧
      (self.validateLiquidator env m).Succeeds w u w' := by
  simp only [validate, Method.succeeds_bind, load_succeeds, rejectIf_succeeds, not_not] at success
  obtain ⟨_, _, ⟨-, rfl⟩, m, _, ⟨read, rfl⟩, _, _, ⟨-, rfl⟩, _, _, ⟨-, rfl⟩, _, _, ⟨-, rfl⟩, _, _,
    ⟨collateral_eq, rfl⟩, _, _, ⟨supply_eq, rfl⟩, validated⟩ := success
  exact ⟨m, read, supply_eq.symm, collateral_eq.symm, validated⟩

theorem LiquidateAccounts.validateLiquidator_reads (self : LiquidateAccounts) (m : Market)
    (w w' : World) (u : Unit) (success : (self.validateLiquidator env m).Succeeds w u w') :
    w' = w := by
  unfold validateLiquidator at success
  split at success
  · exact ((Method.succeeds_pure _ _ _ _).mp success).2.symm
  · split at success
    · exact absurd success (by simp [fail_succeeds])
    · simp only [Method.succeeds_bind, load_succeeds, rejectIf_succeeds] at success
      obtain ⟨_, _, ⟨-, rfl⟩, -, rfl⟩ := success
      rfl

theorem LiquidateAccounts.nextWhitelistEntry_succeeds (m : Market) (infos : List AccountInfo)
    (w w' : World) (found : Option AccountInfo)
    (success : (nextWhitelistEntry m infos).Succeeds w found w') :
    w' = w ∧ (m.config.liquidationsArePermissionless = false → ∃ account entry,
      found = some account ∧ w.chain account.key =
        Slot.of (T := LiquidatorWhitelistEntry) entry) := by
  simp only [nextWhitelistEntry, Method.succeeds_ite, Method.succeeds_bind, Method.succeeds_pure,
    Method.succeeds_mapErr, nextAccountInfo_succeeds, rejectIf_succeeds,
    zeroCopyOwnedAccount_succeeds] at success
  obtain ⟨permissionless, -, rfl⟩ | ⟨-, next, _, ⟨-, rfl⟩, _, _, ⟨-, rfl⟩, entry, _, ⟨held, -, rfl⟩,
    rfl, rfl⟩ := success
  · exact ⟨rfl, fun restricted => absurd permissionless (by simp [restricted])⟩
  · exact ⟨rfl, fun _ => ⟨next.1, entry, rfl, held⟩⟩

theorem LiquidateAccounts.fromAccounts_succeeds (infos : List AccountInfo) (w w' : World)
    (accounts : LiquidateAccounts) (success : (fromAccounts env ctx infos).Succeeds w accounts w') :
    w' = w ∧ accounts.liquidator ∈ infos ∧ accounts.liquidator.isSigner = true ∧
      ∃ m, w.chain accounts.market.key = Slot.of (T := Market) m ∧
        (m.vaultKeys .supply).vault = accounts.marketSupplyVault.key ∧
        (m.vaultKeys .collateral).vault = accounts.marketCollateralVault.key ∧
        (m.config.liquidationsArePermissionless = false → ∃ entry,
          w.chain (env.findLiquidatorWhitelistEntryPda accounts.market.key
            accounts.liquidator.key).1 = Slot.of (T := LiquidatorWhitelistEntry) entry ∧
          entry.market = accounts.market.key ∧ entry.liquidator = accounts.liquidator.key ∧
          entry.isActive = true) := by
  obtain ⟨market, _, rfl, success⟩ := nextAccountInfo_bind success
  obtain ⟨m, held, success⟩ := zeroCopyOwnedAccountMut_bind success
  obtain ⟨position, _, rfl, success⟩ := nextAccountInfo_bind success
  obtain ⟨p, -, success⟩ := zeroCopyOwnedAccountMut_bind success
  obtain ⟨liquidator, _, rfl, success⟩ := nextAccountInfo_bind success
  obtain ⟨signed, success⟩ := signer_bind success
  obtain ⟨_, supplyAta, -, success⟩ := PackedTokenAccount.next_bind success
  obtain ⟨_, collateralAta, -, success⟩ := PackedTokenAccount.next_bind success
  obtain ⟨_, supplyVault, -, success⟩ := PackedTokenAccount.next_bind success
  obtain ⟨_, collateralVault, -, success⟩ := PackedTokenAccount.next_bind success
  obtain ⟨tokenProgram, _, -, success⟩ := nextAccountInfo_bind success
  obtain ⟨-, success⟩ := programAccount_bind success
  obtain ⟨supplyOracle, _, -, success⟩ := nextAccountInfo_bind success
  obtain ⟨collateralOracle, _, -, success⟩ := nextAccountInfo_bind success
  obtain ⟨_, loaded, success⟩ := load_bind success
  obtain rfl := Slot.of_data held loaded
  obtain ⟨found, _, next, last⟩ := (Method.succeeds_bind _ _ _ _ _).mp success
  obtain ⟨rfl, listed⟩ := nextWhitelistEntry_succeeds _ _ _ _ _ next
  obtain ⟨rfl, validation⟩ := validated_bind last
  obtain ⟨_, read, supply_eq, collateral_eq, validated⟩ := validate_succeeds _ _ _ _ _ validation
  obtain rfl := Slot.of_data held read
  obtain rfl := validateLiquidator_reads _ _ _ _ _ _ validated
  refine ⟨rfl, by simp, signed, m, held, supply_eq, collateral_eq, fun restricted => ?_⟩
  obtain ⟨account, entry, found_eq, entry_held⟩ := listed restricted
  obtain ⟨_, _, found_eq', expected, entry_read, market_eq, liquidator_eq, active⟩ :=
    validateLiquidator_succeeds _ _ _ _ _ _ restricted validated
  obtain rfl := Option.some.inj (found_eq.symm.trans found_eq')
  obtain rfl := Slot.of_data entry_held entry_read
  exact ⟨entry, expected ▸ entry_held, market_eq, liquidator_eq, active⟩

theorem rejectPair_succeeds (verbose : Bool) (kind : LendingAccountValidationError)
    (labelA : String) (a : Pubkey) (labelB : String) (b : Pubkey) (w w' : World) (u : Unit) :
    (rejectPair verbose kind labelA a labelB b).Succeeds w u w' ↔ a = b ∧ w = w' := by
  simp only [rejectPair, Method.succeeds_rejectIf, ne_eq, not_not]

theorem PositionAccounts.fromAccounts_succeeds (T : Type) [UserPosition T] (side : VaultSide)
    (verbose : Bool) (infos : List AccountInfo) (w w' : World) (accounts : PositionAccounts)
    (success : (fromAccounts env ctx T side verbose infos).Succeeds w accounts w') :
    w' = w ∧ accounts.authority.isSigner = true ∧
      ∃ m, ∃ p : T, w.chain accounts.market.key = Slot.of (T := Market) m ∧
        w.chain accounts.position.key = Slot.of p ∧
        UserPosition.authority p = accounts.authority.key ∧
        UserPosition.market p = accounts.market.key ∧
        (m.vaultKeys side).vault = accounts.marketVault.key ∧
        accounts.authorityAta.mint = (m.vaultKeys side).mint := by
  obtain ⟨market, _, -, success⟩ := nextAccountInfo_bind success
  obtain ⟨m, held, success⟩ := zeroCopyOwnedAccountMut_bind success
  obtain ⟨position, _, -, success⟩ := nextAccountInfo_bind success
  obtain ⟨p, position_held, success⟩ := zeroCopyOwnedAccountMut_bind success
  obtain ⟨authority, _, -, success⟩ := nextAccountInfo_bind success
  obtain ⟨signed, success⟩ := signer_bind success
  obtain ⟨_, ata, -, success⟩ := PackedTokenAccount.next_bind success
  obtain ⟨_, vault, -, success⟩ := PackedTokenAccount.next_bind success
  obtain ⟨tokenProgram, _, -, success⟩ := nextAccountInfo_bind success
  obtain ⟨-, success⟩ := programAccount_bind success
  obtain ⟨supplyOracle, _, -, success⟩ := nextAccountInfo_bind success
  obtain ⟨collateralOracle, _, -, success⟩ := nextAccountInfo_bind success
  obtain ⟨rfl, validated⟩ := validated_bind success
  simp only [validate, Method.succeeds_bind, load_succeeds, rejectPair_succeeds, and_assoc,
    exists_and_left, exists_eq_left', exists_const] at validated
  obtain ⟨_, position_read, _, read, owned, placed, vault_eq, mint_eq, rfl⟩ := validated
  obtain rfl := Slot.of_data held read
  obtain rfl := Slot.of_data position_held position_read
  exact ⟨rfl, signed, m, p, held, position_held, owned, placed, vault_eq, mint_eq⟩

theorem DoublePositionAccounts.fromAccounts_succeeds (infos : List AccountInfo) (w w' : World)
    (accounts : DoublePositionAccounts)
    (success : (fromAccounts env ctx infos).Succeeds w accounts w') :
    w' = w ∧ accounts.authority.isSigner = true ∧
      ∃ m, ∃ p : BorrowPosition, w.chain accounts.market.key = Slot.of (T := Market) m ∧
        w.chain accounts.borrowPosition.key = Slot.of p ∧ p.authority = accounts.authority.key ∧
        p.market = accounts.market.key ∧
        (m.vaultKeys .supply).vault = accounts.marketSupplyVault.key ∧
        (m.vaultKeys .collateral).vault = accounts.marketCollateralVault.key := by
  obtain ⟨market, _, -, success⟩ := nextAccountInfo_bind success
  obtain ⟨m, held, success⟩ := zeroCopyOwnedAccountMut_bind success
  obtain ⟨position, _, -, success⟩ := nextAccountInfo_bind success
  obtain ⟨p, position_held, success⟩ := zeroCopyOwnedAccountMut_bind success
  obtain ⟨authority, _, -, success⟩ := nextAccountInfo_bind success
  obtain ⟨signed, success⟩ := signer_bind success
  obtain ⟨_, supplyAta, -, success⟩ := PackedTokenAccount.next_bind success
  obtain ⟨_, supplyVault, -, success⟩ := PackedTokenAccount.next_bind success
  obtain ⟨_, collateralAta, -, success⟩ := PackedTokenAccount.next_bind success
  obtain ⟨_, collateralVault, -, success⟩ := PackedTokenAccount.next_bind success
  obtain ⟨tokenProgram, _, -, success⟩ := nextAccountInfo_bind success
  obtain ⟨-, success⟩ := programAccount_bind success
  obtain ⟨supplyOracle, _, -, success⟩ := nextAccountInfo_bind success
  obtain ⟨collateralOracle, _, -, success⟩ := nextAccountInfo_bind success
  obtain ⟨rfl, validated⟩ := validated_bind success
  simp only [validate, Method.succeeds_bind, load_succeeds, rejectIf_succeeds, not_not, and_assoc,
    exists_and_left, exists_eq_left', exists_const] at validated
  obtain ⟨_, position_read, _, read, owned, placed, supply_eq, -, collateral_eq, -, rfl⟩ :=
    validated
  obtain rfl := Slot.of_data held read
  obtain rfl := Slot.of_data position_held position_read
  exact ⟨rfl, signed, m, p, held, position_held, owned, placed, supply_eq, collateral_eq⟩

theorem CollateralReceiverAccounts.fromAccounts_succeeds (infos : List AccountInfo)
    (w w' : World) (accounts : CollateralReceiverAccounts)
    (success : (fromAccounts env ctx infos).Succeeds w accounts w') :
    w' = w ∧ accounts.curator.isSigner = true ∧
      ∃ m, w.chain accounts.market.key = Slot.of (T := Market) m ∧
        m.config.curator = accounts.curator.key ∧
        (m.vaultKeys .collateral).vault = accounts.marketCollateralVault.key := by
  obtain ⟨market, _, -, success⟩ := nextAccountInfo_bind success
  obtain ⟨m, held, success⟩ := zeroCopyOwnedAccountMut_bind success
  obtain ⟨position, _, -, success⟩ := nextAccountInfo_bind success
  obtain ⟨p, -, success⟩ := zeroCopyOwnedAccountMut_bind success
  obtain ⟨curator, _, -, success⟩ := nextAccountInfo_bind success
  obtain ⟨signed, success⟩ := signer_bind success
  obtain ⟨_, receiverAta, -, success⟩ := PackedTokenAccount.next_bind success
  obtain ⟨_, collateralVault, -, success⟩ := PackedTokenAccount.next_bind success
  obtain ⟨tokenProgram, _, -, success⟩ := nextAccountInfo_bind success
  obtain ⟨-, success⟩ := programAccount_bind success
  obtain ⟨supplyOracle, _, -, success⟩ := nextAccountInfo_bind success
  obtain ⟨collateralOracle, _, -, success⟩ := nextAccountInfo_bind success
  obtain ⟨rfl, validated⟩ := validated_bind success
  simp only [validate, Method.succeeds_bind, load_succeeds, rejectIf_succeeds, not_not, and_assoc,
    exists_and_left, exists_eq_left', exists_const] at validated
  obtain ⟨_, -, _, read, -, curated, -, vault_eq, -, rfl⟩ := validated
  obtain rfl := Slot.of_data held read
  exact ⟨rfl, signed, m, held, curated, vault_eq⟩

theorem SettleCapitalSweepAccounts.fromAccounts_succeeds (infos : List AccountInfo)
    (w w' : World) (accounts : SettleCapitalSweepAccounts)
    (success : (fromAccounts env ctx infos).Succeeds w accounts w') :
    w' = w ∧ accounts.curator.isSigner = true ∧
      ∃ m, w.chain accounts.market.key = Slot.of (T := Market) m ∧
        m.config.curator = accounts.curator.key ∧
        (m.vaultKeys .supply).vault = accounts.marketSupplyVault.key ∧
        (m.vaultKeys .collateral).vault = accounts.marketCollateralVault.key := by
  obtain ⟨market, _, -, success⟩ := nextAccountInfo_bind success
  obtain ⟨m, held, success⟩ := zeroCopyOwnedAccountMut_bind success
  obtain ⟨position, _, -, success⟩ := nextAccountInfo_bind success
  obtain ⟨p, -, success⟩ := zeroCopyOwnedAccountMut_bind success
  obtain ⟨curator, _, -, success⟩ := nextAccountInfo_bind success
  obtain ⟨signed, success⟩ := signer_bind success
  obtain ⟨_, supplyAta, -, success⟩ := PackedTokenAccount.next_bind success
  obtain ⟨_, collateralAta, -, success⟩ := PackedTokenAccount.next_bind success
  obtain ⟨_, supplyVault, -, success⟩ := PackedTokenAccount.next_bind success
  obtain ⟨_, collateralVault, -, success⟩ := PackedTokenAccount.next_bind success
  obtain ⟨tokenProgram, _, -, success⟩ := nextAccountInfo_bind success
  obtain ⟨-, success⟩ := programAccount_bind success
  obtain ⟨supplyOracle, _, -, success⟩ := nextAccountInfo_bind success
  obtain ⟨collateralOracle, _, -, success⟩ := nextAccountInfo_bind success
  obtain ⟨rfl, validated⟩ := validated_bind success
  simp only [validate, Method.succeeds_bind, load_succeeds, rejectIf_succeeds, not_not, not_or,
    and_assoc, exists_and_left, exists_eq_left', exists_const] at validated
  obtain ⟨_, -, _, read, -, curated, -, -, -, -, supply_eq, collateral_eq, rfl⟩ := validated
  obtain rfl := Slot.of_data held read
  exact ⟨rfl, signed, m, held, curated, supply_eq, collateral_eq⟩

theorem DonateSupplyAccounts.fromAccounts_succeeds (infos : List AccountInfo) (w w' : World)
    (accounts : DonateSupplyAccounts)
    (success : (fromAccounts env ctx infos).Succeeds w accounts w') :
    w' = w ∧ ∃ m, w.chain accounts.market.key = Slot.of (T := Market) m ∧
      (m.vaultKeys .supply).vault = accounts.marketSupplyVault.key := by
  obtain ⟨market, _, -, success⟩ := nextAccountInfo_bind success
  obtain ⟨m, held, success⟩ := zeroCopyOwnedAccountMut_bind success
  obtain ⟨authority, _, -, success⟩ := nextAccountInfo_bind success
  obtain ⟨-, success⟩ := signer_bind success
  obtain ⟨_, supplyAta, -, success⟩ := PackedTokenAccount.next_bind success
  obtain ⟨_, supplyVault, -, success⟩ := PackedTokenAccount.next_bind success
  obtain ⟨tokenProgram, _, -, success⟩ := nextAccountInfo_bind success
  obtain ⟨-, success⟩ := programAccount_bind success
  obtain ⟨rfl, validated⟩ := validated_bind success
  simp only [validate, Method.succeeds_bind, load_succeeds, rejectIf_succeeds, not_not, and_assoc,
    exists_and_left, exists_eq_left', exists_const] at validated
  obtain ⟨_, read, vault_eq, -, rfl⟩ := validated
  obtain rfl := Slot.of_data held read
  exact ⟨rfl, m, held, vault_eq⟩

theorem RedeemCuratorFeesAccounts.fromAccounts_succeeds (infos : List AccountInfo)
    (w w' : World) (accounts : RedeemCuratorFeesAccounts)
    (success : (fromAccounts env ctx infos).Succeeds w accounts w') :
    w' = w ∧ accounts.curator.isSigner = true ∧
      ∃ m, w.chain accounts.market.key = Slot.of (T := Market) m ∧
        m.config.curator = accounts.curator.key ∧
        (m.vaultKeys .supply).vault = accounts.marketSupplyVault.key := by
  obtain ⟨curator, _, -, success⟩ := nextAccountInfo_bind success
  obtain ⟨signed, success⟩ := signer_bind success
  obtain ⟨market, _, -, success⟩ := nextAccountInfo_bind success
  obtain ⟨m, held, success⟩ := zeroCopyOwnedAccountMut_bind success
  obtain ⟨_, supplyAta, -, success⟩ := PackedTokenAccount.next_bind success
  obtain ⟨_, supplyVault, -, success⟩ := PackedTokenAccount.next_bind success
  obtain ⟨tokenProgram, _, -, success⟩ := nextAccountInfo_bind success
  obtain ⟨-, success⟩ := programAccount_bind success
  obtain ⟨rfl, validated⟩ := validated_bind success
  simp only [validate, Method.succeeds_bind, load_succeeds, rejectIf_succeeds, not_not, and_assoc,
    exists_and_left, exists_eq_left', exists_const] at validated
  obtain ⟨_, read, curated, vault_eq, rfl⟩ := validated
  obtain rfl := Slot.of_data held read
  exact ⟨rfl, signed, m, held, curated, vault_eq⟩

theorem RedeemProtocolFeesAccounts.fromAccounts_succeeds (infos : List AccountInfo)
    (w w' : World) (accounts : RedeemProtocolFeesAccounts)
    (success : (fromAccounts env ctx infos).Succeeds w accounts w') :
    w' = w ∧ accounts.signer.isSigner = true ∧
      ∃ m, w.chain accounts.market.key = Slot.of (T := Market) m ∧
        (m.vaultKeys .supply).vault = accounts.marketSupplyVault.key := by
  obtain ⟨signer, _, -, success⟩ := nextAccountInfo_bind success
  obtain ⟨signed, success⟩ := signer_bind success
  obtain ⟨config, _, -, success⟩ := nextAccountInfo_bind success
  obtain ⟨c, -, success⟩ := zeroCopyOwnedAccount_bind success
  obtain ⟨market, _, -, success⟩ := nextAccountInfo_bind success
  obtain ⟨m, held, success⟩ := zeroCopyOwnedAccountMut_bind success
  obtain ⟨_, supplyAta, -, success⟩ := PackedTokenAccount.next_bind success
  obtain ⟨_, supplyVault, -, success⟩ := PackedTokenAccount.next_bind success
  obtain ⟨tokenProgram, _, -, success⟩ := nextAccountInfo_bind success
  obtain ⟨-, success⟩ := programAccount_bind success
  obtain ⟨rfl, validated⟩ := validated_bind success
  simp only [validate, Method.succeeds_bind, load_succeeds, rejectIf_succeeds, not_not, and_assoc,
    exists_and_left, exists_eq_left', exists_const] at validated
  obtain ⟨-, _, read, _, -, -, vault_eq, rfl⟩ := validated
  obtain rfl := Slot.of_data held read
  exact ⟨rfl, signed, m, held, vault_eq⟩

end

end AutaraLending
