import AutaraLending.Event
import AutaraLending.Idl
import AutaraLending.Instruction

/-! The lending program on a chain of accounts: loading and storing states, and the calls of other
programs that an instruction makes. -/

namespace AutaraLending

open Support

structure LiquidatorWhitelistEntry where
  market : Pubkey
  liquidator : Pubkey
  bump : UInt8
  active : UInt8
  deriving DecidableEq

inductive LendingState where
  | market (state : Market)
  | borrowPosition (state : BorrowPosition)
  | supplyPosition (state : SupplyPosition)
  | globalConfig (state : GlobalConfig)
  | liquidatorWhitelistEntry (state : LiquidatorWhitelistEntry)
  deriving DecidableEq

def LendingType.zeroedState : LendingType → LendingState
  | .market => .market .zeroed
  | .borrowPosition => .borrowPosition (.initializePosition zeroedPubkey zeroedPubkey)
  | .supplyPosition => .supplyPosition (.new zeroedPubkey zeroedPubkey)
  | .globalConfig => .globalConfig ⟨zeroedPubkey, zeroedPubkey, zeroedPubkey, 0⟩
  | .liquidatorWhitelistEntry => .liquidatorWhitelistEntry ⟨zeroedPubkey, zeroedPubkey, 0, 0⟩

/-- The data of an account: none, a lending state, or data of another size. The sizes of the
lending types differ, so an account holds one of them at most. -/
inductive AccountData where
  | empty
  | lending (state : LendingState)
  | other
  deriving DecidableEq

structure Slot where
  owner : Pubkey
  data : AccountData
  deriving DecidableEq

abbrev Chain := Pubkey → Slot

/-- A lending type: how its states are kept in accounts, and which of them are initialised. -/
class LendingAccount (T : Type) where
  wrap : T → LendingState
  unwrap : LendingState → Option T
  unwrap_iff : ∀ state t, unwrap state = some t ↔ state = wrap t
  isInitialized : T → Bool

instance : LendingAccount Market where
  wrap := .market
  unwrap | .market state => some state | _ => none
  unwrap_iff state t := by cases state <;> simp
  isInitialized m := decide (m.config.curator ≠ zeroedPubkey)

instance : LendingAccount BorrowPosition where
  wrap := .borrowPosition
  unwrap | .borrowPosition state => some state | _ => none
  unwrap_iff state t := by cases state <;> simp
  isInitialized p := decide (p.authority ≠ zeroedPubkey)

instance : LendingAccount SupplyPosition where
  wrap := .supplyPosition
  unwrap | .supplyPosition state => some state | _ => none
  unwrap_iff state t := by cases state <;> simp
  isInitialized p := decide (p.authority ≠ zeroedPubkey)

instance : LendingAccount GlobalConfig where
  wrap := .globalConfig
  unwrap | .globalConfig state => some state | _ => none
  unwrap_iff state t := by cases state <;> simp
  isInitialized c := decide (c.admin ≠ zeroedPubkey)

instance : LendingAccount LiquidatorWhitelistEntry where
  wrap := .liquidatorWhitelistEntry
  unwrap | .liquidatorWhitelistEntry state => some state | _ => none
  unwrap_iff state t := by cases state <;> simp
  isInitialized entry := decide (entry.market ≠ zeroedPubkey)

/-- An account of the lending program that holds the state. -/
def Slot.of {T : Type} [LendingAccount T] (state : T) : Slot :=
  ⟨AutaraProgram.id, .lending (LendingAccount.wrap state)⟩

theorem LendingAccount.wrap_injective {T : Type} [LendingAccount T] :
    Function.Injective (wrap : T → LendingState) := by
  intro a b same
  have unwrapped := (unwrap_iff (wrap a) b).mpr same
  rw [(unwrap_iff (wrap a) a).mpr rfl] at unwrapped
  exact Option.some.inj unwrapped

theorem Slot.of_injective {T : Type} [LendingAccount T] :
    Function.Injective (Slot.of (T := T)) := by
  intro a b same
  exact LendingAccount.wrap_injective (AccountData.lending.inj (congrArg Slot.data same))

theorem Slot.of_data {T : Type} [LendingAccount T] {s : Slot} {a b : T} (held : s = Slot.of a)
    (read : s.data = .lending (LendingAccount.wrap b)) : a = b := by
  rw [held] at read
  exact LendingAccount.wrap_injective (AccountData.lending.inj read)

inductive LendingAccountValidationError where
  | invalidAuthority
  | invalidMarketAuthority
  | invalidMarket
  | invalidMarketVault
  | invalidMintForTokenAccount
  | invalidProtocolAuthority
  | invalidLiquidatorWhitelistEntry
  | missingLiquidatorWhitelistEntry
  | liquidatorNotWhitelisted
  deriving DecidableEq, Repr

inductive LendingProgramErrorKind where
  | programError (e : ProgramError)
  | accountValidationError (e : AccountValidationError)
  | lendingAccountValidationError (e : LendingAccountValidationError)
  | lendingError (e : LendingError)
  deriving DecidableEq

/-- How an instruction fails: with an error and its messages, or by a panic. -/
inductive InstructionFailure where
  | error (kind : LendingProgramErrorKind) (msg : List String)
  | panicked
  deriving DecidableEq

def InstructionFailure.ofLending : Failure → InstructionFailure
  | .error context => .error (.lendingError context.error) context.msg
  | .panic => .panicked

/-- A call of another program, or of the lending program itself to log an event, with the seeds
that the caller signs with. -/
inductive Invocation where
  | createAccount (payer target : Pubkey) (type : LendingType) (seeds : List (List UInt8))
  | createAta (payer ata wallet mint : Pubkey)
  | log (market : Pubkey) (event : AutaraEvent) (seeds : List (List UInt8))
  | transfer (source destination authority : Pubkey) (amount : U64) (seeds : List (List UInt8))
  | callback (instruction : Instruction)
  deriving DecidableEq

/-- The addresses that the chain fixes. -/
structure Environment where
  systemProgramId : Pubkey
  aplTokenProgramId : Pubkey
  associatedTokenProgramId : Pubkey
  findProgramAddress : List (List UInt8) → Pubkey → Pubkey × UInt8
  getAssociatedTokenAddress : Pubkey → Pubkey → Pubkey

structure TokenAccount where
  mint : Pubkey
  owner : Pubkey
  deriving DecidableEq

/-- What an instruction finds outside of the lending accounts: the clock, tokens, prices, which
calls are refused, and what a callback does. -/
structure Context where
  unixTimestamp : Int64
  mintDecimals : Pubkey → Except AccountValidationError UInt8
  tokenAccount : Pubkey → Except AccountValidationError TokenAccount
  oracleRate : OracleConfig → Pubkey → LendingResult OracleRate
  refusal : Invocation → Chain → Option ProgramError
  callback : Instruction → Chain → Chain

def Context.loadOracles (ctx : Context) (market : Market) (supplyOracle collateralOracle : Pubkey) :
    LendingResult (OracleRate × OracleRate) := do
  let supplyRate ← ctx.oracleRate market.supplyVault.oracleConfig supplyOracle
  let collateralRate ← ctx.oracleRate market.collateralVault.oracleConfig collateralOracle
  pure (supplyRate, collateralRate)

/-! The addresses that the program derives, from seeds that name what they are for. -/

def marketSeedPrefix : List UInt8 := [0x6d, 0x61, 0x72, 0x6b, 0x65, 0x74]

def globalConfigSeed : List UInt8 :=
  [0x67, 0x6c, 0x6f, 0x62, 0x61, 0x6c, 0x5f, 0x63, 0x6f, 0x6e, 0x66, 0x69, 0x67]

def liquidatorWhitelistSeedPrefix : List UInt8 :=
  [0x6c, 0x69, 0x71, 0x75, 0x69, 0x64, 0x61, 0x74, 0x6f, 0x72, 0x5f, 0x77, 0x68, 0x69, 0x74, 0x65,
    0x6c, 0x69, 0x73, 0x74]

def marketSeedWithBump (curator supplyMint collateralMint : Pubkey) (index bump : UInt8) :
    List (List UInt8) :=
  [marketSeedPrefix, curator.toList, supplyMint.toList, collateralMint.toList, [index], [bump]]

def Market.seed (self : Market) : List (List UInt8) :=
  marketSeedWithBump self.config.curator self.supplyVault.mint self.collateralVault.mint
    self.config.index self.config.bump

def globalConfigSeedWithBump (bump : UInt8) : List (List UInt8) := [globalConfigSeed, [bump]]

def liquidatorWhitelistEntrySeed (market liquidator : Pubkey) : List (List UInt8) :=
  [liquidatorWhitelistSeedPrefix, market.toList, liquidator.toList]

def Environment.findGlobalConfigPda (env : Environment) : Pubkey × UInt8 :=
  env.findProgramAddress [globalConfigSeed] AutaraProgram.id

def Environment.findLiquidatorWhitelistEntryPda (env : Environment) (market liquidator : Pubkey) :
    Pubkey × UInt8 :=
  env.findProgramAddress (liquidatorWhitelistEntrySeed market liquidator) AutaraProgram.id

/-- The chain, and the calls that the running instruction has made. -/
structure World where
  chain : Chain
  invocations : List Invocation

abbrev Program (α : Type) := Method InstructionFailure World α

namespace Program

variable {T α : Type} [LendingAccount T]

def fail (kind : LendingProgramErrorKind) : Program α := Method.fail (.error kind [])

def rejectIf (condition : Prop) [Decidable condition] (kind : LendingProgramErrorKind) :
    Program Unit :=
  Method.rejectIf condition (.error kind [])

def ofResult {ε : Type} (into : ε → LendingProgramErrorKind) (result : Except ε α) : Program α :=
  Method.lift (result.mapError fun e => .error (into e) [])

def nextAccountInfo : List AccountInfo → Program (AccountInfo × List AccountInfo)
  | account :: rest => pure (account, rest)
  | [] => fail (.programError .notEnoughAccountKeys)

def slot (key : Pubkey) : Program Slot := do
  let world ← Method.self
  pure (world.chain key)

def signer (account : AccountInfo) : Program Unit :=
  rejectIf (account.isSigner = false) (.accountValidationError .notSigner)

def programAccount (expected : Pubkey) (account : AccountInfo) : Program Unit :=
  rejectIf (account.key ≠ expected) (.accountValidationError .invalidKey)

def zeroCopyOwned (T : Type) [LendingAccount T] (initialized : Bool) (account : AccountInfo) :
    Program T := do
  let slot ← slot account.key
  rejectIf (slot.owner ≠ AutaraProgram.id) (.accountValidationError .invalidOwner)
  match slot.data with
  | .lending state =>
      match LendingAccount.unwrap state with
      | some (t : T) => do
          rejectIf (LendingAccount.isInitialized t ≠ initialized)
            (.accountValidationError .accountNotInitialized)
          pure t
      | none => fail (.accountValidationError .invalidData)
  | _ => fail (.accountValidationError .invalidData)

def zeroCopyOwnedAccount (T : Type) [LendingAccount T] (account : AccountInfo) : Program T :=
  zeroCopyOwned T true account

def zeroCopyOwnedMut (T : Type) [LendingAccount T] (initialized : Bool) (account : AccountInfo) :
    Program T := do
  let state ← zeroCopyOwned T initialized account
  rejectIf (account.isWritable = false) (.accountValidationError .notWritable)
  pure state

def zeroCopyOwnedAccountMut (T : Type) [LendingAccount T] (account : AccountInfo) : Program T :=
  zeroCopyOwnedMut T true account

def uninitializedAccountMut (T : Type) [LendingAccount T] (account : AccountInfo) : Program T :=
  zeroCopyOwnedMut T false account

/-- `load_ref`: the bytes of an account of another size do not cast. -/
def load (T : Type) [LendingAccount T] (key : Pubkey) : Program T := do
  let slot ← slot key
  match slot.data with
  | .lending state =>
      match LendingAccount.unwrap state with
      | some t => pure t
      | none => Method.fail .panicked
  | _ => Method.fail .panicked

def store (key : Pubkey) (state : T) : Program Unit := do
  let world ← Method.self
  let data := AccountData.lending (LendingAccount.wrap state)
  Method.assign
    { world with chain := Function.update world.chain key { world.chain key with data } }

def onState (key : Pubkey) (m : Method InstructionFailure T α) : Program α := do
  let state ← load T key
  store key (m state).2
  Method.lift (m state).1

def onMarketWith (market position : Pubkey)
    (m : Method InstructionFailure (MarketWith T) α) : Program α := do
  let loadedMarket ← load Market market
  let loadedPosition ← load T position
  let outcome := m ⟨loadedMarket, loadedPosition⟩
  store market outcome.2.market
  store position outcome.2.position
  Method.lift outcome.1

end Program

/-- What a call that is not refused does to the chain. Accounts are created where there is none;
tokens move, and events are logged, without a change of lending accounts. -/
def Invocation.effect (env : Environment) (ctx : Context) (chain : Chain) :
    Invocation → Except ProgramError Chain
  | .createAccount _ target type _ =>
      if chain target = ⟨env.systemProgramId, .empty⟩ then
        .ok (Function.update chain target ⟨AutaraProgram.id, .lending type.zeroedState⟩)
      else .error (.custom 0)
  | .createAta _ ata _ _ =>
      if chain ata = ⟨env.systemProgramId, .empty⟩ then
        .ok (Function.update chain ata ⟨env.aplTokenProgramId, .other⟩)
      else .error (.custom 0)
  | .log _ _ _ => .ok chain
  | .transfer _ _ _ _ _ => .ok chain
  | .callback instruction => .ok (ctx.callback instruction chain)

def Program.invoke (env : Environment) (ctx : Context) (call : Invocation) : Program Unit := do
  let world ← Method.self
  match ctx.refusal call world.chain with
  | some e => Program.fail (.programError e)
  | none => do
      let chain ← Program.ofResult .programError (call.effect env ctx world.chain)
      Method.assign { chain, invocations := world.invocations ++ [call] }

namespace Program

/-! What successful calls have found and done. -/

variable {T α : Type} [LendingAccount T]

theorem fail_succeeds (kind : LendingProgramErrorKind) (w w' : World) (a : α) :
    (fail kind).Succeeds w a w' ↔ False := Method.succeeds_fail _ _ _ _

theorem rejectIf_succeeds (condition : Prop) [Decidable condition] (kind : LendingProgramErrorKind)
    (w w' : World) (u : Unit) :
    (rejectIf condition kind).Succeeds w u w' ↔ ¬ condition ∧ w = w' :=
  Method.succeeds_rejectIf _ _ _ _ _

theorem ofResult_succeeds {ε : Type} (into : ε → LendingProgramErrorKind) (result : Except ε α)
    (w w' : World) (a : α) : (ofResult into result).Succeeds w a w' ↔ result = .ok a ∧ w = w' := by
  unfold ofResult
  rw [Method.succeeds_lift]
  cases result with
  | error e => simp [Except.mapError]
  | ok value => simp [Except.mapError]

theorem nextAccountInfo_succeeds (accounts : List AccountInfo) (w w' : World)
    (next : AccountInfo × List AccountInfo) :
    (nextAccountInfo accounts).Succeeds w next w' ↔ accounts = next.1 :: next.2 ∧ w = w' := by
  cases accounts with
  | nil => simp [nextAccountInfo, fail_succeeds]
  | cons account rest =>
      obtain ⟨first, others⟩ := next
      simp [nextAccountInfo, Method.succeeds_pure]

theorem slot_succeeds (key : Pubkey) (w w' : World) (s : Slot) :
    (slot key).Succeeds w s w' ↔ w.chain key = s ∧ w = w' := by
  simp only [slot, Method.succeeds_bind, Method.succeeds_self, Method.succeeds_pure]
  constructor
  · rintro ⟨_, _, ⟨rfl, rfl⟩, rfl, rfl⟩
    exact ⟨rfl, rfl⟩
  · rintro ⟨rfl, rfl⟩
    exact ⟨w, w, ⟨rfl, rfl⟩, rfl, rfl⟩

theorem signer_succeeds (account : AccountInfo) (w w' : World) (u : Unit) :
    (signer account).Succeeds w u w' ↔ account.isSigner = true ∧ w = w' := by
  simp only [signer, rejectIf_succeeds, Bool.not_eq_false]

theorem programAccount_succeeds (expected : Pubkey) (account : AccountInfo) (w w' : World)
    (u : Unit) :
    (programAccount expected account).Succeeds w u w' ↔ account.key = expected ∧ w = w' := by
  simp only [programAccount, rejectIf_succeeds, not_not]

theorem zeroCopyOwned_succeeds (initialized : Bool) (account : AccountInfo) (w w' : World) (t : T) :
    (zeroCopyOwned T initialized account).Succeeds w t w' ↔
      w.chain account.key = Slot.of t ∧ LendingAccount.isInitialized t = initialized ∧ w = w' := by
  simp only [zeroCopyOwned, Method.succeeds_bind, slot_succeeds, rejectIf_succeeds, not_not]
  constructor
  · rintro ⟨_, _, ⟨rfl, rfl⟩, _, _, ⟨owner, rfl⟩, read⟩
    split at read
    · rename_i state data
      split at read
      · rename_i found unwrapped
        obtain rfl := (LendingAccount.unwrap_iff _ _).mp unwrapped
        simp only [Method.succeeds_bind, rejectIf_succeeds, Method.succeeds_pure, ne_eq,
          not_not] at read
        obtain ⟨_, _, ⟨marked, rfl⟩, rfl, rfl⟩ := read
        exact ⟨by rw [Slot.of, ← owner, ← data], marked, rfl⟩
      · exact absurd read (by simp [fail_succeeds])
    · exact absurd read (by simp [fail_succeeds])
  · rintro ⟨held, marked, rfl⟩
    refine ⟨_, _, ⟨held, rfl⟩, (), _, ⟨rfl, rfl⟩, ?_⟩
    have unwrapped : LendingAccount.unwrap (LendingAccount.wrap t) = some t :=
      (LendingAccount.unwrap_iff _ _).mpr rfl
    simp only [Slot.of, unwrapped, Method.succeeds_bind, rejectIf_succeeds, Method.succeeds_pure,
      ne_eq, not_not]
    exact ⟨(), w, ⟨marked, rfl⟩, trivial, rfl⟩

theorem zeroCopyOwnedAccount_succeeds (account : AccountInfo) (w w' : World) (t : T) :
    (zeroCopyOwnedAccount T account).Succeeds w t w' ↔
      w.chain account.key = Slot.of t ∧ LendingAccount.isInitialized t = true ∧ w = w' :=
  zeroCopyOwned_succeeds _ _ _ _ _

theorem zeroCopyOwnedMut_succeeds (initialized : Bool) (account : AccountInfo) (w w' : World)
    (t : T) :
    (zeroCopyOwnedMut T initialized account).Succeeds w t w' ↔
      w.chain account.key = Slot.of t ∧ LendingAccount.isInitialized t = initialized ∧
        account.isWritable = true ∧ w = w' := by
  simp only [zeroCopyOwnedMut, Method.succeeds_bind, zeroCopyOwned_succeeds, rejectIf_succeeds,
    Method.succeeds_pure, Bool.not_eq_false]
  constructor
  · rintro ⟨_, _, ⟨held, marked, rfl⟩, _, _, ⟨writable, rfl⟩, rfl, rfl⟩
    exact ⟨held, marked, writable, rfl⟩
  · rintro ⟨held, marked, writable, rfl⟩
    exact ⟨t, _, ⟨held, marked, rfl⟩, (), _, ⟨writable, rfl⟩, rfl, rfl⟩

theorem zeroCopyOwnedAccountMut_succeeds (account : AccountInfo) (w w' : World) (t : T) :
    (zeroCopyOwnedAccountMut T account).Succeeds w t w' ↔
      w.chain account.key = Slot.of t ∧ LendingAccount.isInitialized t = true ∧
        account.isWritable = true ∧ w = w' :=
  zeroCopyOwnedMut_succeeds _ _ _ _ _

theorem uninitializedAccountMut_succeeds (account : AccountInfo) (w w' : World) (t : T) :
    (uninitializedAccountMut T account).Succeeds w t w' ↔
      w.chain account.key = Slot.of t ∧ LendingAccount.isInitialized t = false ∧
        account.isWritable = true ∧ w = w' :=
  zeroCopyOwnedMut_succeeds _ _ _ _ _

theorem load_succeeds (key : Pubkey) (w w' : World) (t : T) :
    (load T key).Succeeds w t w' ↔
      (w.chain key).data = .lending (LendingAccount.wrap t) ∧ w = w' := by
  simp only [load, Method.succeeds_bind, slot_succeeds]
  constructor
  · rintro ⟨_, _, ⟨rfl, rfl⟩, read⟩
    split at read
    · rename_i state data
      split at read
      · rename_i found unwrapped
        obtain rfl := (LendingAccount.unwrap_iff _ _).mp unwrapped
        obtain ⟨rfl, rfl⟩ := (Method.succeeds_pure _ _ _ _).mp read
        exact ⟨data, rfl⟩
      · exact absurd read (by simp [Method.succeeds_fail])
    · exact absurd read (by simp [Method.succeeds_fail])
  · rintro ⟨held, rfl⟩
    refine ⟨_, _, ⟨rfl, rfl⟩, ?_⟩
    have unwrapped : LendingAccount.unwrap (LendingAccount.wrap t) = some t :=
      (LendingAccount.unwrap_iff _ _).mpr rfl
    simp only [held, unwrapped]
    exact (Method.succeeds_pure _ _ _ _).mpr ⟨rfl, rfl⟩

end Program

def Chain.put {T : Type} [LendingAccount T] (chain : Chain) (key : Pubkey) (state : T) : Chain :=
  Function.update chain key { chain key with data := .lending (LendingAccount.wrap state) }

theorem Chain.put_of {T : Type} [LendingAccount T] (chain : Chain) (key : Pubkey) {before : T}
    (held : chain key = Slot.of before) (state : T) :
    chain.put key state = Function.update chain key (Slot.of state) := by
  unfold Chain.put
  rw [held]
  rfl

def World.put {T : Type} [LendingAccount T] (w : World) (key : Pubkey) (state : T) : World :=
  { w with chain := w.chain.put key state }

@[simp] theorem World.put_chain {T : Type} [LendingAccount T] (w : World) (key : Pubkey)
    (state : T) : (w.put key state).chain = w.chain.put key state := rfl

namespace Program

variable {T α : Type} [LendingAccount T]

theorem store_succeeds (key : Pubkey) (t : T) (w w' : World) (u : Unit) :
    (store key t).Succeeds w u w' ↔ w' = w.put key t := by
  simp only [store, Method.succeeds_bind, Method.succeeds_self, Method.succeeds_assign]
  constructor
  · rintro ⟨_, _, ⟨rfl, rfl⟩, rfl⟩
    rfl
  · rintro rfl
    exact ⟨w, w, ⟨rfl, rfl⟩, rfl⟩

theorem onState_succeeds (key : Pubkey) (m : Method InstructionFailure T α) (w w' : World) (a : α) :
    (onState key m).Succeeds w a w' ↔
      ∃ t t', (w.chain key).data = .lending (LendingAccount.wrap t) ∧ m.Succeeds t a t' ∧
        w' = w.put key t' := by
  simp only [onState, Method.succeeds_bind, load_succeeds, store_succeeds, Method.succeeds_lift]
  constructor
  · rintro ⟨t, _, ⟨held, rfl⟩, _, _, rfl, result, rfl⟩
    exact ⟨t, (m t).2, held, Prod.ext result rfl, rfl⟩
  · rintro ⟨t, t', held, success, rfl⟩
    refine ⟨t, w, ⟨held, rfl⟩, (), _, rfl, ?_, ?_⟩
    · rw [success]
    · rw [success]

theorem onMarketWith_succeeds (market position : Pubkey)
    (m : Method InstructionFailure (MarketWith T) α) (w w' : World) (a : α) :
    (onMarketWith market position m).Succeeds w a w' ↔
      ∃ s s', (w.chain market).data = .lending (.market s.market) ∧
        (w.chain position).data = .lending (LendingAccount.wrap s.position) ∧
        m.Succeeds s a s' ∧ w' = (w.put market s'.market).put position s'.position := by
  simp only [onMarketWith, Method.succeeds_bind, load_succeeds, store_succeeds,
    Method.succeeds_lift]
  constructor
  · rintro ⟨loaded, _, ⟨held, rfl⟩, other, _, ⟨kept, rfl⟩, _, _, rfl, _, _, rfl, result, rfl⟩
    exact ⟨⟨loaded, other⟩, (m ⟨loaded, other⟩).2, held, kept, Prod.ext result rfl, rfl⟩
  · rintro ⟨s, s', held, kept, success, rfl⟩
    refine ⟨s.market, w, ⟨held, rfl⟩, s.position, w, ⟨kept, rfl⟩, (), _, rfl, (), _, rfl, ?_, ?_⟩
    · rw [success]
    · rw [success]

theorem invoke_succeeds (env : Environment) (ctx : Context) (call : Invocation) (w w' : World)
    (u : Unit) :
    (invoke env ctx call).Succeeds w u w' ↔
      ctx.refusal call w.chain = none ∧ call.effect env ctx w.chain = .ok w'.chain ∧
        w'.invocations = w.invocations ++ [call] := by
  simp only [invoke, Method.succeeds_bind, Method.succeeds_self]
  constructor
  · rintro ⟨_, _, ⟨rfl, rfl⟩, called⟩
    split at called
    · exact absurd called (by simp [fail_succeeds])
    · rename_i accepted
      simp only [Method.succeeds_bind, ofResult_succeeds, Method.succeeds_assign] at called
      obtain ⟨chain, _, ⟨effect, rfl⟩, rfl⟩ := called
      exact ⟨accepted, effect, rfl⟩
  · rintro ⟨accepted, effect, recorded⟩
    refine ⟨w, w, ⟨rfl, rfl⟩, ?_⟩
    simp only [accepted, Method.succeeds_bind, ofResult_succeeds, Method.succeeds_assign]
    exact ⟨w'.chain, w, ⟨effect, rfl⟩, by rw [← recorded]⟩

/-! An instruction reads its accounts one after the other: each rule takes one read off, with what
it has checked. -/

section Reading

variable {β : Type} {w w' : World} {b : β} {infos : List AccountInfo} {info : AccountInfo}
  {expected : Pubkey} {key : Pubkey}

theorem nextAccountInfo_bind {f : AccountInfo × List AccountInfo → Program β}
    (success : (nextAccountInfo infos >>= f).Succeeds w b w') :
    ∃ info rest, infos = info :: rest ∧ (f (info, rest)).Succeeds w b w' := by
  obtain ⟨⟨info, rest⟩, found, success⟩ :=
    Method.succeeds_bind_read (fun next u => nextAccountInfo_succeeds infos w u next) success
  exact ⟨info, rest, found, success⟩

theorem signer_bind {f : Unit → Program β} (success : (signer info >>= f).Succeeds w b w') :
    info.isSigner = true ∧ (f ()).Succeeds w b w' := by
  obtain ⟨⟨⟩, signed, success⟩ :=
    Method.succeeds_bind_read (fun a u => signer_succeeds info w u a) success
  exact ⟨signed, success⟩

theorem programAccount_bind {f : Unit → Program β}
    (success : (programAccount expected info >>= f).Succeeds w b w') :
    info.key = expected ∧ (f ()).Succeeds w b w' := by
  obtain ⟨⟨⟩, known, success⟩ :=
    Method.succeeds_bind_read (fun a u => programAccount_succeeds expected info w u a) success
  exact ⟨known, success⟩

theorem zeroCopyOwnedAccount_bind {f : T → Program β}
    (success : (zeroCopyOwnedAccount T info >>= f).Succeeds w b w') :
    ∃ t, w.chain info.key = Slot.of t ∧ (f t).Succeeds w b w' := by
  obtain ⟨t, w₁, read, success⟩ := (Method.succeeds_bind _ _ _ _ _).mp success
  obtain ⟨held, -, rfl⟩ := (zeroCopyOwnedAccount_succeeds _ _ _ _).mp read
  exact ⟨t, held, success⟩

theorem zeroCopyOwnedAccountMut_bind {f : T → Program β}
    (success : (zeroCopyOwnedAccountMut T info >>= f).Succeeds w b w') :
    ∃ t, w.chain info.key = Slot.of t ∧ (f t).Succeeds w b w' := by
  obtain ⟨t, w₁, read, success⟩ := (Method.succeeds_bind _ _ _ _ _).mp success
  obtain ⟨held, -, -, rfl⟩ := (zeroCopyOwnedAccountMut_succeeds _ _ _ _).mp read
  exact ⟨t, held, success⟩

theorem load_bind {f : T → Program β} (success : (load T key >>= f).Succeeds w b w') :
    ∃ t, (w.chain key).data = .lending (LendingAccount.wrap t) ∧ (f t).Succeeds w b w' :=
  Method.succeeds_bind_read (fun t u => load_succeeds key w u t) success

theorem ofResult_bind {ε : Type} {into : ε → LendingProgramErrorKind} {result : Except ε α}
    {f : α → Program β} (success : (ofResult into result >>= f).Succeeds w b w') :
    ∃ a, result = .ok a ∧ (f a).Succeeds w b w' :=
  Method.succeeds_bind_read (fun a u => ofResult_succeeds into result w u a) success

theorem rejectIf_bind {condition : Prop} [Decidable condition] {kind : LendingProgramErrorKind}
    {f : Unit → Program β} (success : (rejectIf condition kind >>= f).Succeeds w b w') :
    ¬ condition ∧ (f ()).Succeeds w b w' := by
  obtain ⟨⟨⟩, allowed, success⟩ :=
    Method.succeeds_bind_read (fun a u => rejectIf_succeeds condition kind w u a) success
  exact ⟨allowed, success⟩

theorem validated_bind {accounts : β} {validate : Program Unit}
    (success : (validate >>= fun _ => pure accounts).Succeeds w b w') :
    b = accounts ∧ validate.Succeeds w () w' := by
  obtain ⟨⟨⟩, w₁, validated, returned⟩ := (Method.succeeds_bind _ _ _ _ _).mp success
  obtain ⟨rfl, rfl⟩ := (Method.succeeds_pure _ _ _ _).mp returned
  exact ⟨rfl, validated⟩

end Reading

end Program

/-! A plain chain: addresses are made of the first bytes of their seeds, and every call is
accepted. -/

def plainKey (n : UInt8) : Pubkey := Vector.replicate 32 n

def plainEnvironment : Environment where
  systemProgramId := plainKey 1
  aplTokenProgramId := plainKey 2
  associatedTokenProgramId := plainKey 3
  findProgramAddress seeds _ := (Vector.ofFn fun i => ((seeds[i.val]?).bind List.head?).getD 0, 255)
  getAssociatedTokenAddress wallet mint := Vector.ofFn fun i =>
    if i.val = 0 then wallet[0] else if i.val = 1 then mint[0] else 4

def plainContext : Context where
  unixTimestamp := 1
  mintDecimals _ := .ok 6
  tokenAccount key := .ok ⟨key, key⟩
  oracleRate _ _ :=
    .ok ⟨⟨2 ^ 48, by decide, by decide⟩, ⟨0, by decide, by decide⟩, by decide, by decide⟩
  refusal _ _ := none
  callback _ chain := chain

def plainChain (slots : List (Pubkey × Slot)) : Chain := fun key =>
  ((slots.find? fun entry => entry.1 = key).map Prod.snd).getD
    ⟨plainEnvironment.systemProgramId, .empty⟩

def plainSigner (n : UInt8) : AccountInfo := ⟨plainKey n, true, true⟩

def plainAccount (n : UInt8) : AccountInfo := ⟨plainKey n, false, true⟩

end AutaraLending
