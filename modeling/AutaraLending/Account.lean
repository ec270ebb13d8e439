import AutaraLending.Oracle
import AutaraLending.Support.Bytes
import AutaraLending.Support.Machine

/-! Accounts of the chain as a program sees them, and the loader that reads an account as a
state type. Lending accounts carry no discriminator: they are told apart by their size, and an
account counts as initialised when one key in it is not zero. -/

namespace AutaraLending

open Support

def zeroedPubkey : Pubkey := Vector.replicate 32 0

structure Account where
  owner : Pubkey
  lamports : U64
  data : List UInt8
  deriving DecidableEq

/-- An account as it is passed to an instruction. Passing a key twice passes one account. -/
structure AccountMeta where
  key : Pubkey
  isSigner : Bool
  deriving DecidableEq

abbrev Store := Pubkey → Account

inductive AccountValidationError where
  | notSigner
  | invalidData
  | invalidOwner
  | invalidKey
  | alreadyLoaded
  | notWritable
  | accountNotInitialized
  deriving DecidableEq, Repr

/-- A type an account can be loaded as: its owner, its size and its mark of initialisation. -/
structure ZeroCopyType where
  isValidOwner : Pubkey → Bool
  size : Nat
  isInitialized : List UInt8 → Bool

/-- The loader. The cast of the bytes accepts every byte string of the size of the type. -/
def ZeroCopyType.tryFrom (T : ZeroCopyType) (account : Account) :
    Except AccountValidationError Account :=
  if T.isValidOwner account.owner = false then .error .invalidOwner
  else if account.data.length ≠ T.size then .error .invalidData
  else if T.isInitialized account.data = false then .error .accountNotInitialized
  else .ok account

theorem ZeroCopyType.tryFrom_ok (T : ZeroCopyType) (account loaded : Account) :
    T.tryFrom account = .ok loaded ↔
      T.isValidOwner account.owner = true ∧ account.data.length = T.size ∧
        T.isInitialized account.data = true ∧ loaded = account := by
  unfold tryFrom
  simp only [except_ite_ok, reduceCtorEq, and_false, false_or, Bool.not_eq_false, ne_eq, not_not,
    Except.ok.injEq, eq_comm (a := account)]

def AutaraProgram.id : Pubkey :=
  #v[0x2a, 0xa4, 0x1c, 0x8f, 0x71, 0xf0, 0xed, 0xe3, 0xf3, 0x74, 0xc1, 0x5e, 0xa1, 0xca, 0x60, 0x96,
    0xc3, 0xf1, 0xc1, 0x5a, 0x10, 0xda, 0x65, 0x30, 0xc0, 0xec, 0xfa, 0x48, 0xba, 0x10, 0x95, 0x13]

inductive LendingType where
  | market
  | borrowPosition
  | supplyPosition
  | globalConfig
  | liquidatorWhitelistEntry
  deriving DecidableEq, Repr

namespace LendingType

def marketConfigFields : List Nat := [1, 1, 2, 2, 2, 32, 48, 16, 8, 8, 72]

def fields : LendingType → List Nat
  | .market => [marketConfigFields.sum, 536, 720]
  | .borrowPosition => [32, 32, 8, 8, 16, 8, 120]
  | .supplyPosition => [32, 32, 8, 16, 128]
  | .globalConfig => [32, 32, 32, 2, 158]
  | .liquidatorWhitelistEntry => [32, 32, 1, 1, 14]

def size (self : LendingType) : Nat := self.fields.sum

def keyOffset : LendingType → Nat
  | .market => (marketConfigFields.take 5).sum
  | _ => 0

def isInitialized (self : LendingType) (bytes : List UInt8) : Bool :=
  decide (Bytes.region bytes self.keyOffset (self.keyOffset + 32) ≠ zeroedPubkey.toList)

def autaraAccount (self : LendingType) : ZeroCopyType where
  isValidOwner owner := decide (owner = AutaraProgram.id)
  size := self.size
  isInitialized := self.isInitialized

theorem autaraAccount_ok (self : LendingType) (account loaded : Account) :
    self.autaraAccount.tryFrom account = .ok loaded ↔
      account.owner = AutaraProgram.id ∧ account.data.length = self.size ∧
        Bytes.region account.data self.keyOffset (self.keyOffset + 32) ≠ zeroedPubkey.toList ∧
        loaded = account := by
  simp only [ZeroCopyType.tryFrom_ok, autaraAccount, isInitialized, decide_eq_true_eq]

def all : List LendingType :=
  [.borrowPosition, .supplyPosition, .market, .globalConfig, .liquidatorWhitelistEntry]

theorem mem_all (self : LendingType) : self ∈ all := by
  cases self <;> decide

def validateAllDifferentSizes : List Nat → Bool
  | [] => true
  | size :: rest => !rest.contains size && validateAllDifferentSizes rest

theorem nodup_of_validateAllDifferentSizes (sizes : List Nat)
    (validated : validateAllDifferentSizes sizes = true) : sizes.Nodup := by
  induction sizes with
  | nil => exact List.nodup_nil
  | cons size rest ih =>
      simp only [validateAllDifferentSizes, Bool.and_eq_true, Bool.not_eq_true',
        List.contains_eq_mem, decide_eq_false_iff_not] at validated
      exact List.nodup_cons.mpr ⟨validated.1, ih validated.2⟩

theorem size_injective (first second : LendingType) (same : first.size = second.size) :
    first = second := by
  have distinct := nodup_of_validateAllDifferentSizes (all.map size) (by decide)
  exact List.inj_on_of_nodup_map distinct first.mem_all second.mem_all same

example : all.map size = [224, 216, 1448, 256, 80] := by decide

/-- An account is loaded as one lending type at most. -/
theorem autaraAccount_unique (first second : LendingType) (account : Account)
    (loaded loaded' : Account) (as_first : first.autaraAccount.tryFrom account = .ok loaded)
    (as_second : second.autaraAccount.tryFrom account = .ok loaded') : first = second := by
  obtain ⟨-, size_first, -⟩ := (autaraAccount_ok _ _ _).mp as_first
  obtain ⟨-, size_second, -⟩ := (autaraAccount_ok _ _ _).mp as_second
  exact size_injective _ _ (size_first.symm.trans size_second)

end LendingType

/-- An account that no lending instruction accepts as its state. -/
def Account.RejectedAsLending (account : Account) : Prop :=
  ∀ T : LendingType, ∀ loaded, T.autaraAccount.tryFrom account ≠ .ok loaded

end AutaraLending
