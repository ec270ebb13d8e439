import AutaraLending.LedgerFrame

/-! The initialised accounts that instructions read, and the signatures that they check. -/

namespace AutaraLending

open Support

/-- The account is the program's and holds the state, which is initialised. -/
def Chain.Holds {T : Type} [LendingAccount T] (chain : Chain) (key : Pubkey) (state : T) : Prop :=
  chain key = Slot.of state ∧ LendingAccount.isInitialized state = true

/-- An account with the key is passed to the instruction and signs it. -/
def SignedBy (infos : List AccountInfo) (key : Pubkey) : Prop :=
  ∃ info ∈ infos, info.isSigner = true ∧ info.key = key

instance (infos : List AccountInfo) (key : Pubkey) : Decidable (SignedBy infos key) :=
  inferInstanceAs (Decidable (∃ info ∈ infos, info.isSigner = true ∧ info.key = key))

theorem signedBy_of_mem {infos : List AccountInfo} {info : AccountInfo} (member : info ∈ infos)
    (signed : info.isSigner = true) : SignedBy infos info.key :=
  ⟨info, member, signed, rfl⟩

namespace Chain.Holds

variable {T : Type} [LendingAccount T] {chain : Chain} {key : Pubkey}

theorem unique {a b : T} (first : chain.Holds key a) (second : chain.Holds key b) : a = b :=
  Slot.of_injective (first.1.symm.trans second.1)

theorem read {a b : T} (holds : chain.Holds key a)
    (loaded : (chain key).data = .lending (LendingAccount.wrap b)) : a = b :=
  Slot.of_data holds.1 loaded

theorem ne {U : Type} [LendingAccount U] {key' : Pubkey} {a : T} {b : U} (first : chain.Holds key a)
    (second : chain.Holds key' b) (differ : LendingAccount.wrap a ≠ LendingAccount.wrap b) :
    key ≠ key' := by
  rintro rfl
  exact differ (AccountData.lending.inj (congrArg Slot.data (first.1.symm.trans second.1)))

theorem ne_vacant {state : T} {key' owner : Pubkey} (holds : chain.Holds key state)
    (vacant : chain key' = ⟨owner, .empty⟩) : key ≠ key' := by
  rintro rfl
  cases congrArg Slot.data (holds.1.symm.trans vacant)

theorem update_self {state : T} (initialized : LendingAccount.isInitialized state = true)
    (slot : Slot) (slot_eq : slot = Slot.of state) :
    Chain.Holds (Function.update chain key slot) key state :=
  ⟨by rw [Function.update_self, slot_eq], initialized⟩

theorem update_of_ne {state : T} {other : Pubkey} (holds : chain.Holds key state)
    (differ : key ≠ other) (slot : Slot) :
    Chain.Holds (Function.update chain other slot) key state :=
  ⟨by rw [Function.update_of_ne differ, holds.1], holds.2⟩

theorem of_update {state : T} {other : Pubkey} {slot : Slot}
    (holds : Chain.Holds (Function.update chain other slot) key state) (differ : key ≠ other) :
    chain.Holds key state :=
  ⟨(Function.update_of_ne differ slot chain).symm.trans holds.1, holds.2⟩

end Chain.Holds

def Slot.find? (T : Type) [LendingAccount T] (slot : Slot) : Option T :=
  match slot.data with
  | .lending state =>
      if slot.owner = AutaraProgram.id then
        (LendingAccount.unwrap state).filter LendingAccount.isInitialized
      else none
  | _ => none

theorem Slot.find?_of {T : Type} [LendingAccount T] (state : T) :
    (Slot.of state).find? T = if LendingAccount.isInitialized state then some state else none := by
  have unwrapped : LendingAccount.unwrap (LendingAccount.wrap state) = some state :=
    (LendingAccount.unwrap_iff _ _).mpr rfl
  simp only [find?, Slot.of, unwrapped, if_true, Option.filter]

theorem Slot.find?_eq_some {T : Type} [LendingAccount T] {slot : Slot} {state : T} :
    slot.find? T = some state ↔
      slot = Slot.of state ∧ LendingAccount.isInitialized state = true := by
  constructor
  · intro found
    obtain ⟨owner, data⟩ := slot
    unfold find? at found
    cases data with
    | lending held =>
        by_cases own : owner = AutaraProgram.id
        · obtain ⟨unwrapped, initialized⟩ :=
            Option.filter_eq_some_iff.mp ((if_pos own).symm.trans found)
          obtain rfl := (LendingAccount.unwrap_iff _ _).mp unwrapped
          exact ⟨by rw [own]; rfl, initialized⟩
        · exact absurd ((if_neg own).symm.trans found) nofun
    | empty => cases found
    | other => cases found
  · rintro ⟨rfl, initialized⟩
    rw [find?_of, if_pos initialized]

theorem Chain.Holds.find? {T : Type} [LendingAccount T] {chain : Chain} {key : Pubkey} {state : T}
    (held : chain.Holds key state) : (chain key).find? T = some state :=
  Slot.find?_eq_some.mpr held

theorem exists_holds {T : Type} [LendingAccount T] {chain : Chain} {key : Pubkey} (P : T → Prop)
    [DecidablePred P] (found : ((chain key).find? T).any (fun state => decide (P state)) = true) :
    ∃ state, chain.Holds key state ∧ P state := by
  obtain ⟨state, some, holds⟩ := (Option.any_eq_true _ _).mp found
  exact ⟨state, Slot.find?_eq_some.mp some, of_decide_eq_true holds⟩

namespace Program

variable {T β : Type} [LendingAccount T] {w w' : World} {b : β} {info : AccountInfo}
    {f : T → Program β}

theorem zeroCopyOwnedAccount_read
    (success : (zeroCopyOwnedAccount T info >>= f).Succeeds w b w') :
    ∃ t, w.chain.Holds info.key t ∧ (f t).Succeeds w b w' := by
  obtain ⟨t, _, read, success⟩ := (Method.succeeds_bind _ _ _ _ _).mp success
  obtain ⟨held, initialized, rfl⟩ := (zeroCopyOwnedAccount_succeeds _ _ _ _).mp read
  exact ⟨t, ⟨held, initialized⟩, success⟩

theorem zeroCopyOwnedAccountMut_read
    (success : (zeroCopyOwnedAccountMut T info >>= f).Succeeds w b w') :
    ∃ t, w.chain.Holds info.key t ∧ (f t).Succeeds w b w' := by
  obtain ⟨t, _, read, success⟩ := (Method.succeeds_bind _ _ _ _ _).mp success
  obtain ⟨held, initialized, -, rfl⟩ := (zeroCopyOwnedAccountMut_succeeds _ _ _ _).mp read
  exact ⟨t, ⟨held, initialized⟩, success⟩

end Program

section Accounts

open Program

variable {env : Environment} {ctx : Context} {infos : List AccountInfo} {w w' : World}

structure ReadsPosition {T : Type} [UserPosition T] (infos : List AccountInfo) (chain : Chain)
    (market position signer : Pubkey) (m : Market) (p : T) : Prop where
  signed : SignedBy infos signer
  market_held : chain.Holds market m
  position_held : chain.Holds position p
  placed : UserPosition.market p = market

theorem PositionAccounts.fromAccounts_reads {T : Type} [UserPosition T] {side : VaultSide}
    {verbose : Bool} {accounts : PositionAccounts}
    (success : (fromAccounts env ctx T side verbose infos).Succeeds w accounts w') :
    w' = w ∧ ∃ m, ∃ p : T, ReadsPosition infos w.chain accounts.market.key accounts.position.key
        accounts.authority.key m p ∧ UserPosition.authority p = accounts.authority.key ∧
      (m.vaultKeys side).vault = accounts.marketVault.key := by
  obtain ⟨market, _, rfl, success⟩ := nextAccountInfo_bind success
  obtain ⟨m, held, success⟩ := zeroCopyOwnedAccountMut_read success
  obtain ⟨position, _, rfl, success⟩ := nextAccountInfo_bind success
  obtain ⟨p, position_held, success⟩ := zeroCopyOwnedAccountMut_read success
  obtain ⟨authority, _, rfl, success⟩ := nextAccountInfo_bind success
  obtain ⟨signed, success⟩ := signer_bind success
  obtain ⟨_, ata, -, success⟩ := PackedTokenAccount.next_bind success
  obtain ⟨_, vault, -, success⟩ := PackedTokenAccount.next_bind success
  obtain ⟨tokenProgram, _, -, success⟩ := nextAccountInfo_bind success
  obtain ⟨-, success⟩ := programAccount_bind success
  obtain ⟨supplyOracle, _, -, success⟩ := nextAccountInfo_bind success
  obtain ⟨collateralOracle, _, -, success⟩ := nextAccountInfo_bind success
  obtain ⟨rfl, validated⟩ := validated_bind success
  simp only [validate, Method.succeeds_bind, load_succeeds, rejectPair_succeeds, and_assoc,
    exists_and_left, exists_eq_left', exists_const] at validated
  obtain ⟨_, position_read, _, read, owned, placed, vault_eq, -, rfl⟩ := validated
  obtain rfl := position_held.read position_read
  obtain rfl := held.read read
  exact ⟨rfl, m, p, ⟨signedBy_of_mem (by simp) signed, held, position_held, placed⟩, owned,
    vault_eq⟩

theorem DoublePositionAccounts.fromAccounts_reads {accounts : DoublePositionAccounts}
    (success : (fromAccounts env ctx infos).Succeeds w accounts w') :
    w' = w ∧ ∃ m, ∃ p : BorrowPosition, ReadsPosition infos w.chain accounts.market.key
        accounts.borrowPosition.key accounts.authority.key m p ∧
      p.authority = accounts.authority.key ∧
      (m.vaultKeys .supply).vault = accounts.marketSupplyVault.key ∧
      (m.vaultKeys .collateral).vault = accounts.marketCollateralVault.key := by
  obtain ⟨market, _, rfl, success⟩ := nextAccountInfo_bind success
  obtain ⟨m, held, success⟩ := zeroCopyOwnedAccountMut_read success
  obtain ⟨position, _, rfl, success⟩ := nextAccountInfo_bind success
  obtain ⟨p, position_held, success⟩ := zeroCopyOwnedAccountMut_read success
  obtain ⟨authority, _, rfl, success⟩ := nextAccountInfo_bind success
  obtain ⟨signed, success⟩ := signer_bind success
  obtain ⟨_, supplyAta, -, success⟩ := PackedTokenAccount.next_bind success
  obtain ⟨_, supplyVault, -, success⟩ := PackedTokenAccount.next_bind success
  obtain ⟨_, collateralAta, -, success⟩ := PackedTokenAccount.next_bind success
  obtain ⟨_, collateralVault, -, success⟩ := PackedTokenAccount.next_bind success
  obtain ⟨tokenProgram, _, -, success⟩ := nextAccountInfo_bind success
  obtain ⟨-, success⟩ := programAccount_bind success
  obtain ⟨supplyOracle, _, -, success⟩ := nextAccountInfo_bind success
  obtain ⟨collateralOracle, _, -, success⟩ := nextAccountInfo_bind success
  obtain ⟨rfl, validated⟩ := validated_bind success
  simp only [validate, Method.succeeds_bind, load_succeeds, rejectIf_succeeds, not_not, and_assoc,
    exists_and_left, exists_eq_left', exists_const] at validated
  obtain ⟨_, position_read, _, read, owned, placed, supply_eq, -, collateral_eq, -, rfl⟩ :=
    validated
  obtain rfl := position_held.read position_read
  obtain rfl := held.read read
  exact ⟨rfl, m, p, ⟨signedBy_of_mem (by simp) signed, held, position_held, placed⟩, owned,
    supply_eq, collateral_eq⟩

theorem CollateralReceiverAccounts.fromAccounts_reads {accounts : CollateralReceiverAccounts}
    (success : (fromAccounts env ctx infos).Succeeds w accounts w') :
    w' = w ∧ ∃ m, ∃ p : BorrowPosition, ReadsPosition infos w.chain accounts.market.key
        accounts.borrowPosition.key accounts.curator.key m p ∧
      m.config.curator = accounts.curator.key ∧
      (m.vaultKeys .collateral).vault = accounts.marketCollateralVault.key := by
  obtain ⟨market, _, rfl, success⟩ := nextAccountInfo_bind success
  obtain ⟨m, held, success⟩ := zeroCopyOwnedAccountMut_read success
  obtain ⟨position, _, rfl, success⟩ := nextAccountInfo_bind success
  obtain ⟨p, position_held, success⟩ := zeroCopyOwnedAccountMut_read success
  obtain ⟨curator, _, rfl, success⟩ := nextAccountInfo_bind success
  obtain ⟨signed, success⟩ := signer_bind success
  obtain ⟨_, receiverAta, -, success⟩ := PackedTokenAccount.next_bind success
  obtain ⟨_, collateralVault, -, success⟩ := PackedTokenAccount.next_bind success
  obtain ⟨tokenProgram, _, -, success⟩ := nextAccountInfo_bind success
  obtain ⟨-, success⟩ := programAccount_bind success
  obtain ⟨supplyOracle, _, -, success⟩ := nextAccountInfo_bind success
  obtain ⟨collateralOracle, _, -, success⟩ := nextAccountInfo_bind success
  obtain ⟨rfl, validated⟩ := validated_bind success
  simp only [validate, Method.succeeds_bind, load_succeeds, rejectIf_succeeds, not_not, and_assoc,
    exists_and_left, exists_eq_left', exists_const] at validated
  obtain ⟨_, position_read, _, read, placed, curated, -, vault_eq, -, rfl⟩ := validated
  obtain rfl := position_held.read position_read
  obtain rfl := held.read read
  exact ⟨rfl, m, p, ⟨signedBy_of_mem (by simp) signed, held, position_held, placed⟩, curated,
    vault_eq⟩

theorem SettleCapitalSweepAccounts.fromAccounts_reads {accounts : SettleCapitalSweepAccounts}
    (success : (fromAccounts env ctx infos).Succeeds w accounts w') :
    w' = w ∧ ∃ m, ∃ p : BorrowPosition, ReadsPosition infos w.chain accounts.market.key
        accounts.borrowPosition.key accounts.curator.key m p ∧
      m.config.curator = accounts.curator.key ∧
      (m.vaultKeys .supply).vault = accounts.marketSupplyVault.key ∧
      (m.vaultKeys .collateral).vault = accounts.marketCollateralVault.key := by
  obtain ⟨market, _, rfl, success⟩ := nextAccountInfo_bind success
  obtain ⟨m, held, success⟩ := zeroCopyOwnedAccountMut_read success
  obtain ⟨position, _, rfl, success⟩ := nextAccountInfo_bind success
  obtain ⟨p, position_held, success⟩ := zeroCopyOwnedAccountMut_read success
  obtain ⟨curator, _, rfl, success⟩ := nextAccountInfo_bind success
  obtain ⟨signed, success⟩ := signer_bind success
  obtain ⟨_, supplyAta, -, success⟩ := PackedTokenAccount.next_bind success
  obtain ⟨_, collateralAta, -, success⟩ := PackedTokenAccount.next_bind success
  obtain ⟨_, supplyVault, -, success⟩ := PackedTokenAccount.next_bind success
  obtain ⟨_, collateralVault, -, success⟩ := PackedTokenAccount.next_bind success
  obtain ⟨tokenProgram, _, -, success⟩ := nextAccountInfo_bind success
  obtain ⟨-, success⟩ := programAccount_bind success
  obtain ⟨supplyOracle, _, -, success⟩ := nextAccountInfo_bind success
  obtain ⟨collateralOracle, _, -, success⟩ := nextAccountInfo_bind success
  obtain ⟨rfl, validated⟩ := validated_bind success
  simp only [validate, Method.succeeds_bind, load_succeeds, rejectIf_succeeds, not_not, not_or,
    and_assoc, exists_and_left, exists_eq_left', exists_const] at validated
  obtain ⟨_, position_read, _, read, placed, curated, -, -, -, -, supply_eq, collateral_eq, rfl⟩ :=
    validated
  obtain rfl := position_held.read position_read
  obtain rfl := held.read read
  exact ⟨rfl, m, p, ⟨signedBy_of_mem (by simp) signed, held, position_held, placed⟩, curated,
    supply_eq, collateral_eq⟩

def MayLiquidate (env : Environment) (chain : Chain) (key : Pubkey) (m : Market)
    (liquidator : Pubkey) : Prop :=
  m.config.liquidationsArePermissionless = false → ∃ entry,
    chain (env.findLiquidatorWhitelistEntryPda key liquidator).1 =
        Slot.of (T := LiquidatorWhitelistEntry) entry ∧
      entry.market = key ∧ entry.liquidator = liquidator ∧ entry.isActive = true

theorem LiquidateAccounts.fromAccounts_reads {accounts : LiquidateAccounts}
    (success : (fromAccounts env ctx infos).Succeeds w accounts w') :
    w' = w ∧ ∃ m, ∃ p : BorrowPosition, ReadsPosition infos w.chain accounts.market.key
        accounts.borrowPosition.key accounts.liquidator.key m p ∧
      MayLiquidate env w.chain accounts.market.key m accounts.liquidator.key ∧
      (m.vaultKeys .supply).vault = accounts.marketSupplyVault.key ∧
      (m.vaultKeys .collateral).vault = accounts.marketCollateralVault.key := by
  obtain ⟨rfl, member, signed, m', stored, supply_eq, collateral_eq, listed⟩ :=
    fromAccounts_succeeds _ _ _ _ _ _ success
  obtain ⟨market, _, rfl, success⟩ := nextAccountInfo_bind success
  obtain ⟨m, held, success⟩ := zeroCopyOwnedAccountMut_read success
  obtain ⟨position, _, rfl, success⟩ := nextAccountInfo_bind success
  obtain ⟨p, position_held, success⟩ := zeroCopyOwnedAccountMut_read success
  obtain ⟨liquidator, _, rfl, success⟩ := nextAccountInfo_bind success
  obtain ⟨-, success⟩ := signer_bind success
  obtain ⟨_, supplyAta, -, success⟩ := PackedTokenAccount.next_bind success
  obtain ⟨_, collateralAta, -, success⟩ := PackedTokenAccount.next_bind success
  obtain ⟨_, supplyVault, -, success⟩ := PackedTokenAccount.next_bind success
  obtain ⟨_, collateralVault, -, success⟩ := PackedTokenAccount.next_bind success
  obtain ⟨tokenProgram, _, -, success⟩ := nextAccountInfo_bind success
  obtain ⟨-, success⟩ := programAccount_bind success
  obtain ⟨supplyOracle, _, -, success⟩ := nextAccountInfo_bind success
  obtain ⟨collateralOracle, _, -, success⟩ := nextAccountInfo_bind success
  obtain ⟨_, -, success⟩ := load_bind success
  obtain ⟨found, _, next, last⟩ := (Method.succeeds_bind _ _ _ _ _).mp success
  obtain ⟨rfl, -⟩ := nextWhitelistEntry_succeeds _ _ _ _ _ next
  obtain ⟨rfl, validation⟩ := validated_bind last
  simp only [validate, Method.succeeds_bind, load_succeeds, rejectIf_succeeds, not_not, and_assoc,
    exists_and_left, exists_eq_left', exists_const] at validation
  obtain ⟨_, position_read, _, -, -, -, placed, -⟩ := validation
  obtain rfl := position_held.read position_read
  obtain rfl := Slot.of_injective (stored.symm.trans held.1)
  exact ⟨rfl, m', p, ⟨signedBy_of_mem member signed, held, position_held, placed⟩, listed,
    supply_eq, collateral_eq⟩

theorem CreatePositionAccounts.fromAccounts_reads {accounts : CreatePositionAccounts}
    (success : (fromAccounts env infos).Succeeds w accounts w') :
    w' = w ∧ SignedBy infos accounts.authority.key ∧ SignedBy infos accounts.payer.key ∧
      ∃ m : Market, w.chain.Holds accounts.market.key m := by
  obtain ⟨market, _, rfl, success⟩ := nextAccountInfo_bind success
  obtain ⟨m, held, success⟩ := zeroCopyOwnedAccountMut_read success
  obtain ⟨position, _, first, success⟩ := nextAccountInfo_bind success
  obtain ⟨authority, _, second, success⟩ := nextAccountInfo_bind success
  obtain ⟨signed, success⟩ := signer_bind success
  obtain ⟨payer, _, third, success⟩ := nextAccountInfo_bind success
  obtain ⟨paid, success⟩ := signer_bind success
  obtain ⟨systemProgram, _, -, success⟩ := nextAccountInfo_bind success
  obtain ⟨-, success⟩ := programAccount_bind success
  obtain ⟨rfl, rfl⟩ := (Method.succeeds_pure _ _ _ _).mp success
  exact ⟨rfl, signedBy_of_mem (by simp [first, second]) signed,
    signedBy_of_mem (by simp [first, second, third]) paid, m, held⟩

theorem DonateSupplyAccounts.fromAccounts_reads {accounts : DonateSupplyAccounts}
    (success : (fromAccounts env ctx infos).Succeeds w accounts w') :
    w' = w ∧ SignedBy infos accounts.authority.key ∧
      ∃ m : Market, w.chain.Holds accounts.market.key m ∧
        (m.vaultKeys .supply).vault = accounts.marketSupplyVault.key := by
  obtain ⟨market, _, rfl, success⟩ := nextAccountInfo_bind success
  obtain ⟨m, held, success⟩ := zeroCopyOwnedAccountMut_read success
  obtain ⟨authority, _, rfl, success⟩ := nextAccountInfo_bind success
  obtain ⟨signed, success⟩ := signer_bind success
  obtain ⟨_, supplyAta, -, success⟩ := PackedTokenAccount.next_bind success
  obtain ⟨_, supplyVault, -, success⟩ := PackedTokenAccount.next_bind success
  obtain ⟨tokenProgram, _, -, success⟩ := nextAccountInfo_bind success
  obtain ⟨-, success⟩ := programAccount_bind success
  obtain ⟨rfl, validated⟩ := validated_bind success
  simp only [validate, Method.succeeds_bind, load_succeeds, rejectIf_succeeds, not_not, and_assoc,
    exists_and_left, exists_eq_left', exists_const] at validated
  obtain ⟨_, read, vault_eq, -, rfl⟩ := validated
  obtain rfl := held.read read
  exact ⟨rfl, signedBy_of_mem (by simp) signed, m, held, vault_eq⟩

theorem RedeemCuratorFeesAccounts.fromAccounts_reads {accounts : RedeemCuratorFeesAccounts}
    (success : (fromAccounts env ctx infos).Succeeds w accounts w') :
    w' = w ∧ ∃ m : Market, w.chain.Holds accounts.market.key m ∧ SignedBy infos m.config.curator ∧
      (m.vaultKeys .supply).vault = accounts.marketSupplyVault.key := by
  obtain ⟨curator, _, rfl, success⟩ := nextAccountInfo_bind success
  obtain ⟨signed, success⟩ := signer_bind success
  obtain ⟨market, _, rfl, success⟩ := nextAccountInfo_bind success
  obtain ⟨m, held, success⟩ := zeroCopyOwnedAccountMut_read success
  obtain ⟨_, supplyAta, -, success⟩ := PackedTokenAccount.next_bind success
  obtain ⟨_, supplyVault, -, success⟩ := PackedTokenAccount.next_bind success
  obtain ⟨tokenProgram, _, -, success⟩ := nextAccountInfo_bind success
  obtain ⟨-, success⟩ := programAccount_bind success
  obtain ⟨rfl, validated⟩ := validated_bind success
  simp only [validate, Method.succeeds_bind, load_succeeds, rejectIf_succeeds, not_not, and_assoc,
    exists_and_left, exists_eq_left', exists_const] at validated
  obtain ⟨_, read, curated, vault_eq, rfl⟩ := validated
  obtain rfl := held.read read
  exact ⟨rfl, m, held, curated ▸ signedBy_of_mem (by simp) signed, vault_eq⟩

def RedeemerSigns (env : Environment) (infos : List AccountInfo) (chain : Chain) : Prop :=
  ∃ g signer, chain.Holds (T := GlobalConfig) env.findGlobalConfigPda.1 g ∧
    g.canRedeemFees signer = true ∧ SignedBy infos signer

theorem RedeemProtocolFeesAccounts.fromAccounts_reads {accounts : RedeemProtocolFeesAccounts}
    (success : (fromAccounts env ctx infos).Succeeds w accounts w') :
    w' = w ∧ (∃ m : Market, w.chain.Holds accounts.market.key m ∧
      (m.vaultKeys .supply).vault = accounts.marketSupplyVault.key) ∧
      RedeemerSigns env infos w.chain := by
  obtain ⟨signer, _, rfl, success⟩ := nextAccountInfo_bind success
  obtain ⟨signed, success⟩ := signer_bind success
  obtain ⟨config, _, rfl, success⟩ := nextAccountInfo_bind success
  obtain ⟨g, config_held, success⟩ := zeroCopyOwnedAccount_read success
  obtain ⟨market, _, rfl, success⟩ := nextAccountInfo_bind success
  obtain ⟨m, held, success⟩ := zeroCopyOwnedAccountMut_read success
  obtain ⟨_, supplyAta, -, success⟩ := PackedTokenAccount.next_bind success
  obtain ⟨_, supplyVault, -, success⟩ := PackedTokenAccount.next_bind success
  obtain ⟨tokenProgram, _, -, success⟩ := nextAccountInfo_bind success
  obtain ⟨-, success⟩ := programAccount_bind success
  obtain ⟨rfl, validated⟩ := validated_bind success
  simp only [validate, Method.succeeds_bind, load_succeeds, rejectIf_succeeds, not_not, and_assoc,
    exists_and_left, exists_eq_left', exists_const, Bool.not_eq_false] at validated
  obtain ⟨canonical, _, read, _, config_read, allowed, vault_eq, rfl⟩ := validated
  obtain rfl := held.read read
  obtain rfl := config_held.read config_read
  exact ⟨rfl, ⟨m, held, vault_eq⟩, g, signer.key, canonical ▸ config_held, allowed,
    signedBy_of_mem (by simp) signed⟩

theorem UpdateConfigAccounts.fromAccounts_reads {accounts : UpdateConfigAccounts}
    (success : (fromAccounts env infos).Succeeds w accounts w') :
    w' = w ∧ accounts.globalConfig.key = env.findGlobalConfigPda.1 ∧
      (∃ g : GlobalConfig, w.chain.Holds accounts.globalConfig.key g) ∧
      ∃ m : Market, w.chain.Holds accounts.market.key m ∧ SignedBy infos m.config.curator := by
  obtain ⟨market, _, rfl, success⟩ := nextAccountInfo_bind success
  obtain ⟨m, held, success⟩ := zeroCopyOwnedAccountMut_read success
  obtain ⟨config, _, rfl, success⟩ := nextAccountInfo_bind success
  obtain ⟨g, config_held, success⟩ := zeroCopyOwnedAccount_read success
  obtain ⟨curator, _, rfl, success⟩ := nextAccountInfo_bind success
  obtain ⟨signed, success⟩ := signer_bind success
  obtain ⟨supplyOracle, _, -, success⟩ := nextAccountInfo_bind success
  obtain ⟨collateralOracle, _, -, success⟩ := nextAccountInfo_bind success
  obtain ⟨rfl, validated⟩ := validated_bind success
  simp only [validate, Method.succeeds_bind, load_succeeds, rejectIf_succeeds, not_not, and_assoc,
    exists_and_left, exists_eq_left', exists_const] at validated
  obtain ⟨canonical, _, read, curated, rfl⟩ := validated
  obtain rfl := held.read read
  exact ⟨rfl, canonical, ⟨g, config_held⟩, m, held, curated ▸ signedBy_of_mem (by simp) signed⟩

theorem CreateMarketAccounts.fromAccounts_reads {accounts : CreateMarketAccounts}
    (success : (fromAccounts env ctx infos).Succeeds w accounts w') :
    w' = w ∧ SignedBy infos accounts.curator.key ∧ SignedBy infos accounts.payer.key ∧
      accounts.supplyVault.key =
        env.getAssociatedTokenAddress accounts.market.key accounts.supplyMint.key ∧
      accounts.collateralVault.key =
        env.getAssociatedTokenAddress accounts.market.key accounts.collateralMint.key ∧
      ∃ g : GlobalConfig, w.chain.Holds accounts.globalConfig.key g := by
  obtain ⟨curator, _, rfl, success⟩ := nextAccountInfo_bind success
  obtain ⟨signed, success⟩ := signer_bind success
  obtain ⟨payer, _, rfl, success⟩ := nextAccountInfo_bind success
  obtain ⟨paid, success⟩ := signer_bind success
  obtain ⟨config, _, rfl, success⟩ := nextAccountInfo_bind success
  obtain ⟨g, config_held, success⟩ := zeroCopyOwnedAccount_read success
  obtain ⟨market, _, -, success⟩ := nextAccountInfo_bind success
  obtain ⟨supplyMint, _, -, success⟩ := nextAccountInfo_bind success
  obtain ⟨supplyDecimals, -, success⟩ := ofResult_bind success
  obtain ⟨supplyVault, _, -, success⟩ := nextAccountInfo_bind success
  obtain ⟨collateralMint, _, -, success⟩ := nextAccountInfo_bind success
  obtain ⟨collateralDecimals, -, success⟩ := ofResult_bind success
  obtain ⟨collateralVault, _, -, success⟩ := nextAccountInfo_bind success
  obtain ⟨tokenProgram, _, -, success⟩ := nextAccountInfo_bind success
  obtain ⟨-, success⟩ := programAccount_bind success
  obtain ⟨associatedTokenProgram, _, -, success⟩ := nextAccountInfo_bind success
  obtain ⟨-, success⟩ := programAccount_bind success
  obtain ⟨systemProgram, _, -, success⟩ := nextAccountInfo_bind success
  obtain ⟨-, success⟩ := programAccount_bind success
  obtain ⟨rfl, validated⟩ := validated_bind success
  simp only [validate, Method.succeeds_bind, rejectIf_succeeds, not_not, and_assoc, exists_and_left,
    exists_eq_left', exists_const] at validated
  obtain ⟨-, supply_eq, collateral_eq, rfl⟩ := validated
  exact ⟨rfl, signedBy_of_mem (by simp) signed, signedBy_of_mem (by simp) paid, supply_eq,
    collateral_eq, g, config_held⟩

theorem CreateGlobalConfigAccounts.fromAccounts_reads {accounts : CreateGlobalConfigAccounts}
    (success : (fromAccounts env infos).Succeeds w accounts w') :
    w' = w ∧ SignedBy infos accounts.payer.key := by
  obtain ⟨payer, _, rfl, success⟩ := nextAccountInfo_bind success
  obtain ⟨signed, success⟩ := signer_bind success
  obtain ⟨config, _, -, success⟩ := nextAccountInfo_bind success
  obtain ⟨systemProgram, _, -, success⟩ := nextAccountInfo_bind success
  obtain ⟨-, success⟩ := programAccount_bind success
  obtain ⟨rfl, rfl⟩ := (Method.succeeds_pure _ _ _ _).mp success
  exact ⟨rfl, signedBy_of_mem (by simp) signed⟩

theorem AddWhitelistedLiquidatorAccounts.fromAccounts_reads
    {data : AddWhitelistedLiquidatorInstruction} {accounts : AddWhitelistedLiquidatorAccounts}
    (success : (fromAccounts env infos data).Succeeds w accounts w') :
    ∃ m : Market, w.chain.Holds accounts.market.key m := by
  obtain ⟨market, _, rfl, success⟩ := nextAccountInfo_bind success
  obtain ⟨m, held, success⟩ := zeroCopyOwnedAccountMut_read success
  obtain ⟨curator, _, rfl, success⟩ := nextAccountInfo_bind success
  obtain ⟨-, success⟩ := signer_bind success
  obtain ⟨entry, _, -, success⟩ := nextAccountInfo_bind success
  obtain ⟨systemProgram, _, -, success⟩ := nextAccountInfo_bind success
  obtain ⟨-, success⟩ := programAccount_bind success
  obtain ⟨rfl, -⟩ := validated_bind success
  exact ⟨m, held⟩

theorem RemoveWhitelistedLiquidatorAccounts.fromAccounts_reads
    {data : RemoveWhitelistedLiquidatorInstruction} {accounts : RemoveWhitelistedLiquidatorAccounts}
    (success : (fromAccounts env infos data).Succeeds w accounts w') :
    ∃ m : Market, w.chain.Holds accounts.market.key m := by
  obtain ⟨market, _, rfl, success⟩ := nextAccountInfo_bind success
  obtain ⟨m, held, success⟩ := zeroCopyOwnedAccountMut_read success
  obtain ⟨curator, _, rfl, success⟩ := nextAccountInfo_bind success
  obtain ⟨-, success⟩ := signer_bind success
  obtain ⟨entry, _, -, success⟩ := nextAccountInfo_bind success
  obtain ⟨_, -, success⟩ := zeroCopyOwnedAccountMut_read success
  obtain ⟨rfl, -⟩ := validated_bind success
  exact ⟨m, held⟩

end Accounts

end AutaraLending
