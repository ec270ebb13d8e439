import AutaraLending.Idl

/-! IDL accounts against the loader of lending state. Both kinds of account belong to the program,
and the loader looks at the size and at one key only: the discriminator of an IDL account stands
where positions and configurations have that key, its authority where markets have it. -/

namespace AutaraLending

open Support

namespace Idl

def LendingSize (size : Nat) : Prop := ∃ T : LendingType, size = T.size

/-- A size at which an IDL account with this authority is loaded as lending state. -/
def Forges (size : Nat) (authority : List UInt8) : Prop :=
  (∃ T : LendingType, T ≠ .market ∧ size = T.size) ∨
    (size = LendingType.market.size ∧ authority ≠ zeroedPubkey.toList)

theorem forges_of_lendingSize {size : Nat} {authority : List UInt8} (lending : LendingSize size)
    (kept : authority ≠ zeroedPubkey.toList) : Forges size authority := by
  obtain ⟨T, size_eq⟩ := lending
  by_cases market : T = .market
  · rw [market] at size_eq
    exact Or.inr ⟨size_eq, kept⟩
  · exact Or.inl ⟨T, market, size_eq⟩

theorem not_forges_of_not_lendingSize {size : Nat} {authority : List UInt8}
    (other : ¬ LendingSize size) : ¬ Forges size authority := by
  intro forges
  rcases forges with ⟨T, -, size_eq⟩ | ⟨size_eq, -⟩
  · exact other ⟨T, size_eq⟩
  · exact other ⟨.market, size_eq⟩

theorem IsIdl.key_not_zero {programId : Pubkey} {account : Account}
    (isIdl : IsIdl programId account) :
    Bytes.region account.data 0 32 ≠ zeroedPubkey.toList := by
  intro zero
  have marked := congrArg (fun bytes => bytes[0]?) isIdl.discriminator
  have zeroed := congrArg (fun bytes => bytes[0]?) zero
  simp only [Bytes.getElem?_region] at marked zeroed
  rw [if_pos (by decide)] at marked zeroed
  rw [marked] at zeroed
  exact absurd zeroed (by decide)

theorem IsIdl.marked {programId : Pubkey} {account : Account} (isIdl : IsIdl programId account) :
    (0x18 : UInt8) ∈ account.data := by
  apply Bytes.mem_of_mem_region
  rw [isIdl.discriminator]
  decide

theorem IsIdl.not_zeroed {programId : Pubkey} {account : Account}
    (isIdl : IsIdl programId account) :
    ¬ ∀ byte ∈ account.data, byte = 0 := by
  intro zeroed
  exact absurd (zeroed _ isIdl.marked) (by decide)

theorem IsIdl.authority_room {programId : Pubkey} {account : Account}
    (isIdl : IsIdl programId account) (authority : Pubkey) :
    authorityOffset + authority.toList.length ≤ account.data.length := by
  rw [Vector.length_toList]
  exact le_trans (by decide) isIdl.header

theorem rejected_iff (account : Account) (isIdl : IsIdl AutaraProgram.id account) :
    account.RejectedAsLending ↔ ¬ Forges account.data.length (readAuthority account.data) := by
  unfold Account.RejectedAsLending
  constructor
  · intro rejected forges
    rcases forges with ⟨T, other, size_eq⟩ | ⟨size_eq, kept⟩
    · apply rejected T account
      apply (LendingType.autaraAccount_ok _ _ _).mpr
      refine ⟨isIdl.owner, size_eq, ?_, rfl⟩
      have first : T.keyOffset = 0 := by
        cases T with
        | market => exact absurd rfl other
        | _ => rfl
      rw [first]
      exact isIdl.key_not_zero
    · apply rejected .market account
      exact (LendingType.autaraAccount_ok _ _ _).mpr ⟨isIdl.owner, size_eq, kept, rfl⟩
  · intro safe T loaded accepted
    obtain ⟨-, size_eq, kept, -⟩ := (LendingType.autaraAccount_ok _ _ _).mp accepted
    apply safe
    by_cases market : T = .market
    · rw [market] at size_eq kept
      exact Or.inr ⟨size_eq, kept⟩
    · exact Or.inl ⟨T, market, size_eq⟩

namespace Call

def subject (call : Call) : Option Pubkey := call.accounts.head?.map AccountMeta.key

def Closes (call : Call) (key : Pubkey) : Prop :=
  call.instruction = .close ∧ call.subject = some key

def Resizes (call : Call) (key : Pubkey) (dataLen : U64) : Prop :=
  call.instruction = .resize dataLen ∧ call.subject = some key

def createdKey (call : Call) : Option Pubkey :=
  match call.instruction, call.accounts with
  | .create _, _ :: target :: _ => some target.key
  | .createBuffer, buffer :: _ => some buffer.key
  | _, _ => none

def creator (call : Call) : Option Pubkey :=
  match call.instruction, call.accounts with
  | .create _, payer :: _ => some payer.key
  | .createBuffer, _ :: authority :: _ => some authority.key
  | _, _ => none

/-- The size of the account that a creation initialises: the canonical account is allocated by
the call, a buffer has the size it was passed with. -/
def createdSize (call : Call) (s : Store) (key : Pubkey) : Nat :=
  match call.instruction with
  | .create dataLen => createdSpace dataLen
  | _ => (s key).data.length

end Call

/-- What a call that does not close an IDL account can do to it. -/
inductive Change (call : Call) (key : Pubkey) (before after : Account) : Prop
  | payload (owner : after.owner = before.owner)
      (length : after.data.length = before.data.length)
      (discriminator : Bytes.region after.data 0 discriminatorLen =
        Bytes.region before.data 0 discriminatorLen)
      (authority : readAuthority after.data = readAuthority before.data)
  | authority (owner : after.owner = before.owner)
      (length : after.data.length = before.data.length)
      (discriminator : Bytes.region after.data 0 discriminatorLen =
        Bytes.region before.data 0 discriminatorLen)
      (kept : readAuthority before.data ≠ erasedAuthority.toList)
  | size (dataLen : U64) (resizes : call.Resizes key dataLen) (owner : after.owner = before.owner)
      (length : after.data.length = resizedSpace before.data.length dataLen)
      (discriminator : Bytes.region after.data 0 discriminatorLen =
        Bytes.region before.data 0 discriminatorLen)
      (authority : readAuthority after.data = readAuthority before.data)
      (kept : readAuthority before.data ≠ erasedAuthority.toList)

theorem Change.ofSame (call : Call) (key : Pubkey) {before after : Account}
    (owner : after.owner = before.owner) (data : after.data = before.data) :
    Change call key before after := by
  apply Change.payload owner
  · rw [data]
  · rw [data]
  · rw [data]

theorem Change.isIdl {programId : Pubkey} {call : Call} {key : Pubkey} {before after : Account}
    (change : Change call key before after) (isIdl : IsIdl programId before) :
    IsIdl programId after := by
  have header := isIdl.header
  cases change with
  | payload owner length discriminator _ =>
      exact ⟨owner.trans isIdl.owner, by omega, discriminator.trans isIdl.discriminator⟩
  | authority owner length discriminator _ =>
      exact ⟨owner.trans isIdl.owner, by omega, discriminator.trans isIdl.discriminator⟩
  | size dataLen _ owner length discriminator _ _ =>
      unfold resizedSpace at length
      exact ⟨owner.trans isIdl.owner, by omega, discriminator.trans isIdl.discriminator⟩

theorem Creation.frame {runtime : Runtime} {programId key : Pubkey} {dataLen : U64}
    {accounts : List AccountMeta} {s s' : Store} (documented : runtime.Documented)
    (creation : Creation runtime programId dataLen accounts s s')
    (isIdl : IsIdl programId (s key)) :
    (s' key).owner = (s key).owner ∧ (s' key).data = (s key).data := by
  obtain ⟨unallocated, -, -, others⟩ :=
    documented.created _ _ _ _ _ _ _ _ _ _ _ creation.invoked
  have distinct : key ≠ creation.target.key := by
    intro same
    have header := isIdl.header
    rw [same, unallocated] at header
    exact absurd header (by decide)
  rw [creation.stored, Function.update_of_ne distinct]
  exact others key distinct

theorem region_payload_write (data : List UInt8) (offset : Nat) (patch : List UInt8) (len : Nat)
    (behind : headerLen ≤ offset) (fits : offset + patch.length ≤ data.length) :
    (writeDataLen (Bytes.overwrite data offset patch) len).length = data.length ∧
      ∀ start stop, stop ≤ dataLenOffset →
        Bytes.region (writeDataLen (Bytes.overwrite data offset patch) len) start stop =
          Bytes.region data start stop := by
  have same_length := Bytes.length_overwrite _ _ _ fits
  have header : headerLen ≤ (Bytes.overwrite data offset patch).length := by omega
  refine ⟨(length_writeDataLen _ _ header).trans same_length, fun start stop bounded => ?_⟩
  have above : stop ≤ offset := le_trans bounded (le_trans (by decide) behind)
  rw [region_writeDataLen _ _ _ _ header bounded,
    Bytes.region_overwrite_disjoint _ _ _ _ _ fits (Or.inl above)]

theorem Change.ofPayload (call : Call) (key : Pubkey) (account : Account) (offset : Nat)
    (patch : List UInt8) (len : Nat) (behind : headerLen ≤ offset)
    (fits : offset + patch.length ≤ account.data.length) :
    Change call key account
      { account with data := writeDataLen (Bytes.overwrite account.data offset patch) len } := by
  obtain ⟨length_eq, before⟩ := region_payload_write account.data offset patch len behind fits
  exact Change.payload rfl length_eq (before _ _ (by decide)) (before _ _ (by decide))

theorem Change.ofUpdate {call : Call} {key : Pubkey} {s : Store} (stored : Pubkey) (next : Account)
    (change : stored = key → Change call key (s key) next) :
    Change call key (s key) (Function.update s stored next key) := by
  by_cases same : stored = key
  · rw [← same, Function.update_self, same]
    exact change same
  · rw [Function.update_of_ne (Ne.symm same)]
    exact Change.ofSame _ _ rfl rfl

/-- One step: every call that does not close an IDL account changes it in one of three ways. -/
theorem processIdlInstruction_change (runtime : Runtime) (documented : runtime.Documented)
    (programId : Pubkey) (call : Call) (s s' : Store) (u : Unit) (key : Pubkey)
    (isIdl : IsIdl programId (s key)) (unclosed : ¬ call.Closes key)
    (success : (processIdlInstruction runtime programId call).Succeeds s u s') :
    Change call key (s key) (s' key) := by
  have header := isIdl.header
  obtain ⟨accounts, instruction⟩ := call
  cases instruction with
  | create dataLen =>
      obtain ⟨creation⟩ := idlCreateAccount_succeeds _ _ _ _ _ _ _ success
      obtain ⟨owner_eq, data_eq⟩ := creation.frame documented isIdl
      exact Change.ofSame _ _ owner_eq data_eq
  | createBuffer =>
      obtain ⟨buffer, authority, others, -, -, -, -, zeroed, stored⟩ :=
        idlCreateBuffer_succeeds _ _ _ _ _ success
      rw [stored]
      apply Change.ofUpdate
      intro same
      rw [same] at zeroed
      exact absurd zeroed isIdl.not_zeroed
  | write data =>
      obtain ⟨idl, authority, others, -, -, -, fits, stored⟩ :=
        idlWrite_succeeds _ _ _ _ _ _ success
      rw [stored]
      apply Change.ofUpdate
      intro same
      rw [same] at fits ⊢
      exact Change.ofPayload _ _ _ _ _ _ (by omega) (by omega)
  | setBuffer =>
      obtain ⟨buffer, idl, authority, others, -, -, -, -, -, -, -, fits, inside, stored⟩ :=
        idlSetBuffer_succeeds _ _ _ _ _ _ success
      rw [stored]
      apply Change.ofUpdate
      intro same
      rw [same] at fits ⊢
      apply Change.ofPayload _ _ _ _ _ _ le_rfl
      rw [Bytes.length_region _ _ _ inside]
      omega
  | setAuthority newAuthority =>
      obtain ⟨idl, authority, others, -, -, authorized, stored⟩ :=
        idlSetAuthority_succeeds _ _ _ _ _ _ success
      rw [stored]
      apply Change.ofUpdate
      intro same
      rw [same] at authorized ⊢
      have room := isIdl.authority_room newAuthority
      refine Change.authority rfl (Bytes.length_overwrite _ _ _ room) ?_ authorized.not_erased
      exact Bytes.region_overwrite_disjoint _ _ _ _ _ room (Or.inl le_rfl)
  | close =>
      obtain ⟨account, authority, others, shape, -, -, -, unchanged⟩ :=
        idlCloseAccount_succeeds _ _ _ _ _ _ success
      have distinct : key ≠ account.key := by
        intro same
        apply unclosed
        refine ⟨rfl, ?_⟩
        rw [same]
        simp only at shape
        simp [Call.subject, shape]
      exact Change.ofSame _ _ (unchanged key distinct).1 (unchanged key distinct).2
  | resize dataLen =>
      obtain ⟨resizing⟩ := idlResizeAccount_succeeds _ documented _ _ _ _ _ _ success
      by_cases same : key = resizing.idl.key
      · have resizes : Call.Resizes ⟨accounts, .resize dataLen⟩ key dataLen := by
          have shape := resizing.accounts_eq
          simp only at shape
          exact ⟨rfl, by simp [Call.subject, shape, same]⟩
        obtain ⟨rest, appended⟩ := resizing.appended
        have length := resizing.length_eq
        have kept := resizing.authorized.not_erased
        rw [← same] at appended length kept
        have region_eq (start stop : Nat) (bounded : stop ≤ headerLen) :
            Bytes.region (s' key).data start stop = Bytes.region (s key).data start stop := by
          rw [appended]
          exact Bytes.region_append _ _ _ _ (le_trans bounded header)
        exact Change.size dataLen resizes (resizing.owner_eq key) length (region_eq _ _ (by decide))
          (region_eq _ _ (by decide)) kept
      · exact Change.ofSame _ _ (resizing.owner_eq key) (resizing.data_eq key same)

/-- What a creation leaves in the account. -/
theorem processIdlInstruction_created (runtime : Runtime) (documented : runtime.Documented)
    (programId : Pubkey) (call : Call) (s s' : Store) (u : Unit) (key : Pubkey)
    (creates : call.createdKey = some key)
    (success : (processIdlInstruction runtime programId call).Succeeds s u s') :
    IsIdl programId (s' key) ∧ (s' key).data.length = call.createdSize s key ∧
      ∃ creator, call.creator = some creator ∧
        readAuthority (s' key).data = creator.toList := by
  obtain ⟨accounts, instruction⟩ := call
  cases instruction with
  | create dataLen =>
      obtain ⟨creation⟩ := idlCreateAccount_succeeds _ _ _ _ _ _ _ success
      obtain ⟨-, owner, allocated, -⟩ := documented.created _ _ _ _ _ _ _ _ _ _ _ creation.invoked
      obtain ⟨length, discriminator, authority⟩ :=
        writeHeader_spec _ creation.payer.key creation.header
      have shape := creation.accounts_eq
      simp only at shape
      have target_eq : creation.target.key = key := by simpa [Call.createdKey, shape] using creates
      have stored_eq := congrFun creation.stored creation.target.key
      rw [target_eq, Function.update_self, ← target_eq] at stored_eq
      rw [← target_eq, stored_eq]
      refine ⟨⟨owner, ?_, discriminator⟩, ?_, creation.payer.key, by simp [Call.creator, shape],
        authority⟩
      · rw [length]
        exact creation.header
      · rw [length, allocated, List.length_replicate]
        rfl
  | createBuffer =>
      obtain ⟨buffer, authority, others, shape, owner, -, header, -, stored⟩ :=
        idlCreateBuffer_succeeds _ _ _ _ _ success
      obtain ⟨length, discriminator, signed⟩ := writeHeader_spec _ authority.key header
      simp only at shape
      subst shape
      obtain rfl : buffer.key = key := by simpa [Call.createdKey] using creates
      rw [stored, Function.update_self]
      refine ⟨⟨owner, ?_, discriminator⟩, length, authority.key, rfl, signed⟩
      rw [length]
      exact header
  | _ => simp [Call.createdKey] at creates

section Runs

variable (runtime : Runtime)

/-- The calls of the deployed program, a failing one rolled back. -/
def execute (call : Call) : Handler Unit := processIdlInstruction runtime AutaraProgram.id call

def run (s : Store) (calls : List Call) : Store := Machine.run (execute runtime) s calls

/-- A call does not resize the account to the size of a lending type. -/
def AvoidsLendingSizes (key : Pubkey) (s : Store) (call : Call) : Prop :=
  ∀ dataLen, call.Resizes key dataLen → ¬ LendingSize (resizedSpace (s key).data.length dataLen)

/-- An IDL account that the loader takes for no lending type. -/
structure Unforged (account : Account) : Prop where
  isIdl : IsIdl AutaraProgram.id account
  safe : ¬ Forges account.data.length (readAuthority account.data)

variable {runtime}

theorem isIdl_run (documented : runtime.Documented) (key : Pubkey) (s : Store)
    (isIdl : IsIdl AutaraProgram.id (s key)) (calls : List Call)
    (unclosed : ∀ call ∈ calls, ¬ call.Closes key) :
    IsIdl AutaraProgram.id (run runtime s calls key) := by
  apply @Machine.run_invariant_along _ _ _ _ (execute runtime)
    (fun s => IsIdl AutaraProgram.id (s key)) (fun _ call => ¬ call.Closes key)
  · exact isIdl
  · exact Machine.along_of_forall _ s calls unclosed
  · intro s call u s' isIdl unclosed success
    exact (processIdlInstruction_change runtime documented _ call s s' u key isIdl unclosed
      success).isIdl isIdl

/-- The authority decides only at the size of a market, and it is changed by its holder only: an
account of that size whose authority is erased stays erased. -/
theorem Unforged.step (documented : runtime.Documented) (key : Pubkey) (call : Call)
    (s s' : Store) (u : Unit) (unforged : Unforged (s key)) (unclosed : ¬ call.Closes key)
    (avoids : AvoidsLendingSizes key s call) (success : (execute runtime call).Succeeds s u s') :
    Unforged (s' key) := by
  have change := processIdlInstruction_change runtime documented _ call s s' u key unforged.isIdl
    unclosed success
  refine ⟨change.isIdl unforged.isIdl, ?_⟩
  have safe := unforged.safe
  cases change with
  | payload _ length _ authority =>
      rw [length, authority]
      exact safe
  | authority _ length _ kept =>
      rw [length]
      apply not_forges_of_not_lendingSize
      intro lending
      exact safe (forges_of_lendingSize lending kept)
  | size dataLen resizes _ length _ _ _ =>
      rw [length]
      exact not_forges_of_not_lendingSize (avoids dataLen resizes)

theorem unforged_run (documented : runtime.Documented) (key : Pubkey) (s : Store)
    (unforged : Unforged (s key)) (calls : List Call)
    (unclosed : ∀ call ∈ calls, ¬ call.Closes key)
    (avoids : Machine.Along (execute runtime) (AvoidsLendingSizes key) s calls) :
    Unforged (run runtime s calls key) := by
  apply @Machine.run_invariant_along _ _ _ _ (execute runtime) (fun s => Unforged (s key))
    (fun s call => ¬ call.Closes key ∧ AvoidsLendingSizes key s call)
  · exact unforged
  · exact (Machine.along_of_forall _ s calls unclosed).and avoids
  · intro s call u s' unforged met success
    exact unforged.step documented key call s s' u met.1 met.2 success

theorem forges_of_resize (documented : runtime.Documented) (key : Pubkey) (call : Call)
    (s s' : Store) (u : Unit) (isIdl : IsIdl AutaraProgram.id (s key))
    (violated : ¬ AvoidsLendingSizes key s call)
    (success : (execute runtime call).Succeeds s u s') :
    Forges (s' key).data.length (readAuthority (s' key).data) := by
  unfold AvoidsLendingSizes at violated
  push Not at violated
  obtain ⟨dataLen, resizes, lending⟩ := violated
  obtain ⟨accounts, instruction⟩ := call
  obtain ⟨rfl, subject⟩ := resizes
  obtain ⟨resizing⟩ := idlResizeAccount_succeeds _ documented _ _ _ _ _ _ success
  have shape := resizing.accounts_eq
  simp only at shape
  obtain rfl : resizing.idl.key = key := by simpa [Call.subject, shape] using subject
  obtain ⟨rest, appended⟩ := resizing.appended
  apply forges_of_lendingSize
  · rw [resizing.length_eq]
    exact lending
  · unfold readAuthority
    rw [appended, Bytes.region_append _ _ _ _ (le_trans (by decide) isIdl.header)]
    exact resizing.authorized.not_erased

/-- After a creation, in every state of every run that does not close the account, the loader
rejects it as every lending type, exactly when the creation and the resizes avoid their sizes. -/
theorem idl_account_rejected_iff (documented : runtime.Documented) (start created : Store)
    (creation : Call) (key : Pubkey) (creates : creation.createdKey = some key)
    (success : (execute runtime creation).Succeeds start () created) (calls : List Call)
    (unclosed : ∀ call ∈ calls, ¬ call.Closes key) :
    (∀ reached, (run runtime created (calls.take reached) key).RejectedAsLending) ↔
      (∀ creator, creation.creator = some creator →
        ¬ Forges (creation.createdSize start key) creator.toList) ∧
      Machine.Along (execute runtime) (AvoidsLendingSizes key) created calls := by
  obtain ⟨isIdl, size, creator, created_by, authority⟩ :=
    processIdlInstruction_created runtime documented _ creation start created () key creates success
  have taken (reached : Nat) : ∀ call ∈ calls.take reached, ¬ call.Closes key :=
    fun call member => unclosed call (List.mem_of_mem_take member)
  constructor
  · intro rejected
    constructor
    · intro other other_by forges
      obtain rfl : creator = other := Option.some.inj (created_by.symm.trans other_by)
      rw [← size, ← authority] at forges
      exact (rejected_iff _ isIdl).mp (rejected 0) forges
    · by_contra violated
      obtain ⟨before, call, after, u, s', rfl, executed, missed⟩ :=
        Machine.exists_of_not_along _ _ _ violated
      have reached : (before ++ call :: after).take (before.length + 1) = before ++ [call] := by
        simp [List.take_append]
      have state_eq : run runtime created (before ++ [call]) = s' := by
        unfold run
        rw [Machine.run_concat]
        exact Machine.commit_of_succeeds _ executed
      have isIdl_before := isIdl_run documented key created isIdl before
        (fun earlier member => unclosed earlier (List.mem_append_left _ member))
      have forges := forges_of_resize documented key call _ s' u isIdl_before missed executed
      have isIdl_after := isIdl_run documented key created isIdl (before ++ [call])
        (reached ▸ taken (before.length + 1))
      have safe := rejected (before.length + 1)
      rw [reached, rejected_iff _ isIdl_after, state_eq] at safe
      exact safe forges
  · rintro ⟨initial, avoids⟩ reached
    have unforged : Unforged (created key) := by
      refine ⟨isIdl, ?_⟩
      rw [size, authority]
      exact initial creator created_by
    have final := unforged_run documented key created unforged (calls.take reached) (taken reached)
      (avoids.take reached)
    exact (rejected_iff _ final.isIdl).mpr final.safe

end Runs

def bufferKey : Pubkey := Vector.replicate 32 2

def buffer : AccountMeta := ⟨bufferKey, false⟩

def publisher : AccountMeta := ⟨Vector.replicate 32 1, true⟩

def allocatedBuffer (size : Nat) : Store := fun key =>
  if key = bufferKey then ⟨AutaraProgram.id, 0, List.replicate size 0⟩ else ⟨zeroedPubkey, 0, []⟩

def bufferCreation : Call := ⟨[buffer, publisher], .createBuffer⟩

def createdBuffer (size : Nat) : Store :=
  (execute plainRuntime bufferCreation (allocatedBuffer size)).2

theorem createdBuffer_succeeds (size : Nat)
    (ok : (execute plainRuntime bufferCreation (allocatedBuffer size)).1 = .ok ()) :
    (execute plainRuntime bufferCreation).Succeeds (allocatedBuffer size) () (createdBuffer size) :=
  Prod.ext ok rfl

def bufferCalls : List Call :=
  [⟨[buffer, publisher], .write [1, 2, 3]⟩,
    ⟨[buffer, publisher], .setAuthority (Vector.replicate 32 7)⟩]

theorem small_buffer_rejected :
    (run plainRuntime (createdBuffer 100) (bufferCalls.take 2) bufferKey).RejectedAsLending := by
  apply (idl_account_rejected_iff plainRuntime_documented (allocatedBuffer 100) (createdBuffer 100)
    bufferCreation bufferKey rfl (createdBuffer_succeeds 100 (by decide +kernel)) bufferCalls
    ?_).mpr
  · constructor
    · intro creator _
      apply not_forges_of_not_lendingSize
      rintro ⟨T, size_eq⟩
      cases T <;> exact absurd size_eq (by decide +kernel)
    · refine ⟨fun _ _ _ dataLen resizes => ?_, fun _ _ _ dataLen resizes => ?_, trivial⟩
      · cases resizes.1
      · cases resizes.1
  · intro call member closes
    simp only [bufferCalls, List.mem_cons, List.not_mem_nil, or_false] at member
    rcases member with rfl | rfl
    · cases closes.1
    · cases closes.1

/-- A buffer of the size of a borrow position is loaded as one. -/
theorem buffer_loads_as_borrow_position :
    (execute plainRuntime bufferCreation).Succeeds (allocatedBuffer 224) () (createdBuffer 224) ∧
      LendingType.borrowPosition.autaraAccount.tryFrom (createdBuffer 224 bufferKey) =
        .ok (createdBuffer 224 bufferKey) ∧
      ¬ (createdBuffer 224 bufferKey).RejectedAsLending := by
  have loaded : LendingType.borrowPosition.autaraAccount.tryFrom (createdBuffer 224 bufferKey) =
      .ok (createdBuffer 224 bufferKey) :=
    (LendingType.autaraAccount_ok _ _ _).mpr
      ⟨by decide +kernel, by decide +kernel, by decide +kernel, rfl⟩
  refine ⟨createdBuffer_succeeds 224 (by decide +kernel), loaded, ?_⟩
  intro rejected
  exact rejected .borrowPosition _ loaded

end Idl

end AutaraLending
