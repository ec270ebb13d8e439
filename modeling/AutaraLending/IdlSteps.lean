import AutaraLending.IdlForgery
import AutaraLending.TransactionStep

/-! The IDL instructions of the program on the chain. They work on the bytes of the accounts, in
which the loader finds the states that the lending instructions work on. -/

namespace AutaraLending

open Support

namespace Idl

/-- The loader takes no IDL account of the program for a lending account. -/
def Separate (s : Store) : Prop :=
  ∀ key, IsIdl AutaraProgram.id (s key) → (s key).RejectedAsLending

/-- What the call creates or resizes gets no size at which the loader would take it for a lending
account. -/
structure AvoidsForgery (s : Store) (call : Call) : Prop where
  created : ∀ key creator, call.createdKey = some key → call.creator = some creator →
    ¬ Forges (call.createdSize s key) creator.toList
  resized : ∀ key, AvoidsLendingSizes key s call

section Frame

variable {runtime : Runtime} {s s' : Store} {call : Call}

theorem execute_frame (documented : runtime.Documented)
    (success : (execute runtime call).Succeeds s () s') (key : Pubkey)
    (other : ¬ IsIdl AutaraProgram.id (s key)) (uncreated : call.createdKey ≠ some key) :
    (s' key).owner = (s key).owner ∧ (s' key).data = (s key).data := by
  have elsewhere : ∀ written next, written ≠ key → s' = Function.update s written next →
      (s' key).owner = (s key).owner ∧ (s' key).data = (s key).data := by
    intro written next differ stored
    rw [stored, Function.update_of_ne (Ne.symm differ)]
    exact ⟨rfl, rfl⟩
  have apart : ∀ account, IsIdl AutaraProgram.id (s account) → account ≠ key :=
    fun account owned same => other (same ▸ owned)
  obtain ⟨accounts, instruction⟩ := call
  cases instruction with
  | create dataLen =>
      obtain ⟨creation⟩ := idlCreateAccount_succeeds _ _ _ _ _ _ _ success
      obtain ⟨-, -, -, kept⟩ := documented.created _ _ _ _ _ _ _ _ _ _ _ creation.invoked
      have differ : key ≠ creation.target.key := by
        intro same
        have shape := creation.accounts_eq
        simp only at shape
        exact uncreated (by simp [Call.createdKey, shape, same])
      rw [creation.stored, Function.update_of_ne differ]
      exact kept key differ
  | createBuffer =>
      obtain ⟨buffer, authority, others, rfl, -, -, -, -, stored⟩ :=
        idlCreateBuffer_succeeds _ _ _ _ _ success
      exact elsewhere _ _ (fun same => uncreated (congrArg some same)) stored
  | write data =>
      obtain ⟨idl, authority, others, -, owned, -, -, stored⟩ :=
        idlWrite_succeeds _ _ _ _ _ _ success
      exact elsewhere _ _ (apart _ owned) stored
  | setBuffer =>
      obtain ⟨buffer, idl, authority, others, -, -, owned, -, -, -, -, -, -, stored⟩ :=
        idlSetBuffer_succeeds _ _ _ _ _ _ success
      exact elsewhere _ _ (apart _ owned) stored
  | setAuthority newAuthority =>
      obtain ⟨idl, authority, others, -, owned, -, stored⟩ :=
        idlSetAuthority_succeeds _ _ _ _ _ _ success
      exact elsewhere _ _ (apart _ owned) stored
  | close =>
      obtain ⟨account, authority, others, -, owned, -, -, kept⟩ :=
        idlCloseAccount_succeeds _ _ _ _ _ _ success
      exact kept key (Ne.symm (apart _ owned))
  | resize dataLen =>
      obtain ⟨resizing⟩ := idlResizeAccount_succeeds _ documented _ _ _ _ _ _ success
      exact ⟨resizing.owner_eq key, resizing.data_eq key (Ne.symm (apart _ resizing.owned))⟩

theorem rejected_of_owner {account : Account} (foreign : account.owner ≠ AutaraProgram.id) :
    account.RejectedAsLending := by
  intro T loaded accepted
  exact foreign ((LendingType.autaraAccount_ok _ _ _).mp accepted).1

theorem rejected_of_zeroed {account : Account} (zeroed : ∀ byte ∈ account.data, byte = 0) :
    account.RejectedAsLending := by
  intro T loaded accepted
  obtain ⟨-, size_eq, marked, -⟩ := (LendingType.autaraAccount_ok _ _ _).mp accepted
  have room : T.keyOffset + 32 ≤ account.data.length := by
    rw [size_eq]
    cases T <;> decide
  apply marked
  rw [zeroedPubkey, Vector.toList_replicate]
  apply List.eq_replicate_iff.mpr
  constructor
  · rw [Bytes.length_region _ _ _ room]
    omega
  · exact fun byte member => zeroed byte (Bytes.mem_of_mem_region member)

theorem rejected_before_creation (documented : runtime.Documented)
    (success : (execute runtime call).Succeeds s () s') (key : Pubkey)
    (creates : call.createdKey = some key) : (s key).RejectedAsLending := by
  obtain ⟨accounts, instruction⟩ := call
  cases instruction with
  | create dataLen =>
      obtain ⟨creation⟩ := idlCreateAccount_succeeds _ _ _ _ _ _ _ success
      obtain ⟨unallocated, -⟩ := documented.created _ _ _ _ _ _ _ _ _ _ _ creation.invoked
      have shape := creation.accounts_eq
      simp only at shape
      obtain rfl : creation.target.key = key := by simpa [Call.createdKey, shape] using creates
      apply rejected_of_zeroed
      rw [unallocated]
      exact List.forall_mem_nil _
  | createBuffer =>
      obtain ⟨buffer, authority, others, rfl, -, -, -, zeroed, -⟩ :=
        idlCreateBuffer_succeeds _ _ _ _ _ success
      obtain rfl : buffer.key = key := Option.some.inj creates
      exact rejected_of_zeroed zeroed
  | _ => simp [Call.createdKey] at creates

/-- A call that avoids the sizes of the lending types leaves every account as it is, but for some
that are not loaded as lending accounts before nor after it. -/
theorem execute_rejected (documented : runtime.Documented)
    (foreign : runtime.systemProgramId ≠ AutaraProgram.id) (separate : Separate s)
    (avoids : AvoidsForgery s call) (success : (execute runtime call).Succeeds s () s')
    (key : Pubkey) :
    (s' key).owner = (s key).owner ∧ (s' key).data = (s key).data ∨
      (s key).RejectedAsLending ∧ (s' key).RejectedAsLending := by
  by_cases isIdl : IsIdl AutaraProgram.id (s key)
  · refine Or.inr ⟨separate key isIdl, ?_⟩
    by_cases closes : call.Closes key
    · obtain ⟨accounts, instruction⟩ := call
      obtain ⟨rfl, subject⟩ := closes
      obtain ⟨account, authority, others, rfl, -, -, owner_eq, -⟩ :=
        idlCloseAccount_succeeds _ _ _ _ _ _ success
      obtain rfl : account.key = key := Option.some.inj subject
      exact rejected_of_owner (owner_eq ▸ foreign)
    · have unforged : Unforged (s key) := ⟨isIdl, (rejected_iff _ isIdl).mp (separate key isIdl)⟩
      have kept := unforged.step documented key call s s' () closes (avoids.resized key) success
      exact (rejected_iff _ kept.isIdl).mpr kept.safe
  · by_cases creates : call.createdKey = some key
    · refine Or.inr ⟨rejected_before_creation documented success key creates, ?_⟩
      obtain ⟨isIdl', size, creator, created_by, authority⟩ :=
        processIdlInstruction_created runtime documented _ call s s' () key creates success
      rw [rejected_iff _ isIdl', size, authority]
      exact avoids.created key creator creates created_by
    · exact Or.inl (execute_frame documented success key isIdl creates)

/-- So the calls keep the IDL accounts separate. -/
theorem Separate.step (documented : runtime.Documented)
    (foreign : runtime.systemProgramId ≠ AutaraProgram.id) (separate : Separate s)
    (avoids : AvoidsForgery s call) (success : (execute runtime call).Succeeds s () s') :
    Separate s' := by
  intro key isIdl
  rcases execute_rejected documented foreign separate avoids success key with
    ⟨owner, data⟩ | ⟨-, after⟩
  · have isIdl₀ : IsIdl AutaraProgram.id (s key) :=
      ⟨owner ▸ isIdl.owner, data ▸ isIdl.header, data ▸ isIdl.discriminator⟩
    rw [rejected_iff _ isIdl, data, ← rejected_iff _ isIdl₀]
    exact separate key isIdl₀
  · exact after

end Frame

end Idl

/-! What the loader reads in the bytes of the accounts. -/

namespace LendingState

def type : LendingState → LendingType
  | .market _ => .market
  | .borrowPosition _ => .borrowPosition
  | .supplyPosition _ => .supplyPosition
  | .globalConfig _ => .globalConfig
  | .liquidatorWhitelistEntry _ => .liquidatorWhitelistEntry

def isInitialized : LendingState → Bool
  | .market state => LendingAccount.isInitialized state
  | .borrowPosition state => LendingAccount.isInitialized state
  | .supplyPosition state => LendingAccount.isInitialized state
  | .globalConfig state => LendingAccount.isInitialized state
  | .liquidatorWhitelistEntry state => LendingAccount.isInitialized state

end LendingState

/-- The data is what the bytes are read as: a state of the type with that size, initialised where
the bytes are. -/
def AccountData.Reads (bytes : List UInt8) : AccountData → Prop
  | .empty => bytes = []
  | .lending state =>
      bytes.length = state.type.size ∧ state.isInitialized = state.type.isInitialized bytes
  | .other => bytes ≠ [] ∧ ∀ T : LendingType, bytes.length ≠ T.size

structure Chain.Reads (chain : Chain) (store : Store) : Prop where
  owner : ∀ key, (chain key).owner = (store key).owner
  data : ∀ key, (chain key).data.Reads (store key).data

theorem Chain.Reads.not_holds {chain : Chain} {store : Store} (reads : chain.Reads store)
    {key : Pubkey} (rejected : (store key).RejectedAsLending) {T : Type} [LendingAccount T]
    (marked : ∀ state : T,
      (LendingAccount.wrap state).isInitialized = LendingAccount.isInitialized state)
    (state : T) : ¬ chain.Holds key state := by
  rintro ⟨held, initialized⟩
  have owner := reads.owner key
  have data := reads.data key
  rw [held] at owner data
  obtain ⟨size, bytes⟩ := data
  rw [marked, initialized] at bytes
  exact rejected (LendingAccount.wrap state).type _
    ((LendingType.autaraAccount_ok _ _ _).mpr
      ⟨owner.symm, size, of_decide_eq_true bytes.symm, rfl⟩)

namespace Transactions

/-- An IDL instruction on the chain. It runs on the bytes of the accounts. Before it no IDL account
is loaded as a lending account, and it makes none of a size at which one would be. -/
inductive IdlStep (chain chain' : Chain) : Prop
  | mk (runtime : Runtime) (documented : runtime.Documented)
      (foreign : runtime.systemProgramId ≠ AutaraProgram.id) (call : Idl.Call) (s s' : Store)
      (before : chain.Reads s) (after : chain'.Reads s')
      (kept : ∀ key, (s' key).data = (s key).data → (chain' key).data = (chain key).data)
      (separate : Idl.Separate s) (avoids : Idl.AvoidsForgery s call)
      (success : (Idl.execute runtime call).Succeeds s () s')

theorem IdlStep.same {chain chain' : Chain} (step : IdlStep chain chain') :
    SameAccounts chain chain' := by
  obtain ⟨runtime, documented, foreign, call, s, s', before, after, kept, separate, avoids,
    success⟩ := step
  have slots : ∀ key, chain' key = chain key ∨
      (s key).RejectedAsLending ∧ (s' key).RejectedAsLending := by
    intro key
    rcases Idl.execute_rejected documented foreign separate avoids success key with
      ⟨owner, data⟩ | rejected
    · have owner_eq := (after.owner key).trans (owner.trans (before.owner key).symm)
      exact Or.inl (congrArg₂ Slot.mk owner_eq (kept key data))
    · exact Or.inr rejected
  constructor
  all_goals
    intro key state
    rcases slots key with same | ⟨rejected, rejected'⟩
    · unfold Chain.Holds
      rw [same]
    · exact iff_of_false (after.not_holds rejected' (fun _ => rfl) state)
        (before.not_holds rejected (fun _ => rfl) state)

/-! Any account of the program that holds no lending state can be made a buffer. -/

def plainBytes : AccountData → List UInt8
  | .empty => []
  | .lending state => List.replicate state.type.size (if state.isInitialized then 1 else 0)
  | .other => List.replicate 100 0

theorem not_lendingSize_hundred (T : LendingType) : 100 ≠ T.size := by
  cases T <;> decide

theorem isInitialized_replicate (T : LendingType) (initialized : Bool) :
    T.isInitialized (List.replicate T.size (if initialized then 1 else 0)) = initialized := by
  cases initialized <;> cases T <;> decide +kernel

theorem plainBytes_reads (data : AccountData) : data.Reads (plainBytes data) := by
  cases data with
  | empty => rfl
  | lending state =>
      exact ⟨List.length_replicate, (isInitialized_replicate state.type state.isInitialized).symm⟩
  | other =>
      refine ⟨by decide, fun T => ?_⟩
      rw [plainBytes, List.length_replicate]
      exact not_lendingSize_hundred T

theorem plainBytes_unmarked (data : AccountData) : (0x18 : UInt8) ∉ plainBytes data := by
  intro marked
  cases data with
  | empty => cases marked
  | lending state =>
      have byte := List.eq_of_mem_replicate marked
      cases initialized : state.isInitialized <;> simp [initialized] at byte
  | other => exact absurd (List.eq_of_mem_replicate marked) (by decide)

theorem idlStep_createBuffer {chain : Chain} (buffer authority : AccountMeta)
    (slot : chain buffer.key = ⟨AutaraProgram.id, .other⟩) (signer : authority.isSigner = true)
    (kept : authority.key ≠ Idl.erasedAuthority) : IdlStep chain chain := by
  let s : Store := fun key => ⟨(chain key).owner, 0, plainBytes (chain key).data⟩
  let call : Idl.Call := ⟨[buffer, authority], .createBuffer⟩
  have zeroed : (s buffer.key).data = List.replicate 100 0 := by
    change plainBytes (chain buffer.key).data = _
    rw [slot]
    rfl
  have header : Idl.headerLen ≤ (s buffer.key).data.length := by
    rw [zeroed]
    decide
  have success : (Idl.execute Idl.plainRuntime call).Succeeds s ()
      (Function.update s buffer.key
        { s buffer.key with data := Idl.writeHeader (s buffer.key).data authority.key }) := by
    simp only [Idl.execute, Idl.processIdlInstruction, Idl.idlCreateBuffer, call,
      Method.succeeds_bind, Idl.rejectIf_succeeds, Idl.load_succeeds, Idl.save_succeeds, not_or,
      not_not, not_lt, and_assoc, exists_and_left, exists_eq_left', exists_const]
    refine ⟨congrArg Slot.owner slot, by rw [signer]; decide, kept, header, ?_, trivial⟩
    rw [zeroed]
    decide
  have hundred : (s buffer.key).data.length = 100 := by
    rw [zeroed, List.length_replicate]
  refine .mk Idl.plainRuntime Idl.plainRuntime_documented (by decide) call s _
    ⟨fun _ => rfl, fun key => plainBytes_reads _⟩ ⟨fun key => ?_, fun key => ?_⟩ (fun _ _ => rfl)
    (fun key isIdl => absurd isIdl.marked (plainBytes_unmarked _)) ⟨?_, ?_⟩ success
  · by_cases same : key = buffer.key
    · rw [same, Function.update_self]
    · rw [Function.update_of_ne same]
  · by_cases same : key = buffer.key
    · have length := (Idl.writeHeader_spec (s buffer.key).data authority.key header).1
      rw [same, Function.update_self, slot]
      refine ⟨List.length_pos_iff.mp ?_, fun T => ?_⟩
      · rw [length, hundred]
        decide
      · rw [length, hundred]
        exact not_lendingSize_hundred T
    · rw [Function.update_of_ne same]
      exact plainBytes_reads _
  · intro key creator creates _
    obtain rfl : buffer.key = key := Option.some.inj creates
    apply Idl.not_forges_of_not_lendingSize
    rintro ⟨T, size_eq⟩
    exact not_lendingSize_hundred T (hundred.symm.trans size_eq)
  · intro key dataLen resizes
    cases resizes.1

end Transactions

end AutaraLending
