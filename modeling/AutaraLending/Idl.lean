import AutaraLending.Account

/-! The handler that publishes the interface description of the program in accounts of its own.
An IDL account starts with a discriminator, the key of its authority and the length of its
payload; the payload follows. -/

namespace AutaraLending

open Support

inductive ProgramError where
  | custom (code : UInt32)
  | invalidArgument
  | invalidInstructionData
  | invalidAccountData
  | accountDataTooSmall
  | incorrectProgramId
  | missingRequiredSignature
  | accountAlreadyInitialized
  | notEnoughAccountKeys
  | accountBorrowFailed
  | illegalOwner
  | arithmeticOverflow
  | invalidRealloc
  | incorrectAuthority
  deriving DecidableEq, Repr

/-- How an instruction fails: with an error, or by indexing outside of a byte string. -/
inductive ProgramFailure where
  | error (e : ProgramError)
  | panicked
  deriving DecidableEq, Repr

inductive SystemInstruction where
  | createAccountWithSeed (source target base : Pubkey) (seed : String) (lamports : U64)
    (space : Nat) (owner : Pubkey)
  | transfer (source target : Pubkey) (lamports : U64)

/-- What the chain provides: derived addresses, rents, calls of the system program and the
resizing of account data. -/
structure Runtime where
  systemProgramId : Pubkey
  findProgramAddress : List (List UInt8) → Pubkey → Pubkey × UInt8
  createWithSeed : Pubkey → String → Pubkey → Option Pubkey
  minimumRent : Nat → U64
  invokeSigned : SystemInstruction → List AccountMeta → List (List UInt8) → Store →
    Except ProgramError Store
  realloc : Nat → List UInt8 → Except ProgramError (List UInt8)

/-- The documented behaviour of the chain: the system program allocates zeroed data in an account
that has none and changes no other data or owner, transfers change neither, and growing account
data keeps the bytes it has. -/
structure Runtime.Documented (runtime : Runtime) : Prop where
  created : ∀ source target base seed lamports space owner accounts seeds s s',
    runtime.invokeSigned (.createAccountWithSeed source target base seed lamports space owner)
      accounts seeds s = .ok s' →
    (s target).data = [] ∧ (s' target).owner = owner ∧
      (s' target).data = List.replicate space 0 ∧
      ∀ key, key ≠ target → (s' key).owner = (s key).owner ∧ (s' key).data = (s key).data
  transferred : ∀ source target lamports accounts seeds s s',
    runtime.invokeSigned (.transfer source target lamports) accounts seeds s = .ok s' →
    ∀ key, (s' key).owner = (s key).owner ∧ (s' key).data = (s key).data
  grown : ∀ newLen data data', runtime.realloc newLen data = .ok data' → data.length ≤ newLen →
    data'.length = newLen ∧ ∃ rest, data' = data ++ rest

namespace Idl

abbrev Handler := Method ProgramFailure Store

def idlIxTagLe : List UInt8 := [0x40, 0xf4, 0xbc, 0x78, 0xa7, 0xe9, 0x69, 0x0a]

def isIdlInstruction (instructionData : List UInt8) : Bool := idlIxTagLe.isPrefixOf instructionData

def idlAccountDiscriminator : List UInt8 := [0x18, 0x46, 0x62, 0xbf, 0x3a, 0x90, 0x7b, 0x9e]

def idlSeed : String := "anchor:idl"

def discriminatorLen : Nat := 8

def authorityOffset : Nat := discriminatorLen

def dataLenOffset : Nat := discriminatorLen + 32

def headerLen : Nat := discriminatorLen + 32 + 4

def maxSpacePerOp : Nat := 10000

def erasedAuthority : Pubkey := zeroedPubkey

inductive IdlInstruction where
  | create (dataLen : U64)
  | createBuffer
  | write (data : List UInt8)
  | setBuffer
  | setAuthority (newAuthority : Pubkey)
  | close
  | resize (dataLen : U64)
  deriving DecidableEq

def fail {α : Type} (e : ProgramError) : Handler α := Method.fail (.error e)

def rejectIf (condition : Prop) [Decidable condition] (e : ProgramError) : Handler Unit :=
  Method.rejectIf condition (.error e)

def ofResult {α : Type} (result : Except ProgramError α) : Handler α :=
  Method.lift (result.mapError .error)

def load (account : AccountMeta) : Handler Account := do
  let store ← Method.self
  pure (store account.key)

def save (account : AccountMeta) (next : Account) : Handler Unit := do
  let store ← Method.self
  Method.assign (Function.update store account.key next)

def invokeSigned (runtime : Runtime) (instruction : SystemInstruction)
    (accounts : List AccountMeta) (seeds : List (List UInt8)) : Handler Unit := do
  let store ← Method.self
  let next ← ofResult (runtime.invokeSigned instruction accounts seeds store)
  Method.assign next

def realloc (runtime : Runtime) (account : AccountMeta) (newLen : Nat) : Handler Unit := do
  let current ← load account
  let data ← ofResult (runtime.realloc newLen current.data)
  save account { current with data }

def deriveIdl (runtime : Runtime) (programId : Pubkey) : Handler (Pubkey × Pubkey × UInt8) :=
  let (base, bump) := runtime.findProgramAddress [] programId
  match runtime.createWithSeed base idlSeed programId with
  | some idl => pure (idl, base, bump)
  | none => fail .invalidArgument

def checkCanonicalIdl (runtime : Runtime) (programId : Pubkey) (idl : AccountMeta) :
    Handler Unit := do
  let account ← load idl
  rejectIf (account.owner ≠ programId) .illegalOwner
  let (expected, _, _) ← deriveIdl runtime programId
  rejectIf (idl.key ≠ expected) .invalidArgument
  rejectIf (account.data.length < headerLen ∨
    Bytes.region account.data 0 discriminatorLen ≠ idlAccountDiscriminator) .invalidAccountData

def checkOwnedIdl (programId : Pubkey) (acc : AccountMeta) : Handler Unit := do
  let account ← load acc
  rejectIf (account.owner ≠ programId) .illegalOwner
  rejectIf (account.data.length < headerLen ∨
    Bytes.region account.data 0 discriminatorLen ≠ idlAccountDiscriminator) .invalidAccountData

def readAuthority (data : List UInt8) : List UInt8 :=
  Bytes.region data authorityOffset (authorityOffset + 32)

def checkAuthority (idl authority : AccountMeta) : Handler Unit := do
  rejectIf (authority.isSigner = false) .missingRequiredSignature
  rejectIf (authority.key = erasedAuthority) .invalidArgument
  let account ← load idl
  rejectIf (readAuthority account.data ≠ authority.key.toList) .invalidArgument

def readDataLen (data : List UInt8) : Nat :=
  (Bytes.toUInt32 (Bytes.region data dataLenOffset headerLen)).toNat

/-- The length is cut to 32 bits. -/
def writeDataLen (data : List UInt8) (len : Nat) : List UInt8 :=
  Bytes.overwrite data dataLenOffset (Bytes.ofUInt32 (UInt32.ofNat len))

def writeHeader (data : List UInt8) (authority : Pubkey) : List UInt8 :=
  writeDataLen (Bytes.overwrite (Bytes.overwrite data 0 idlAccountDiscriminator) authorityOffset
    authority.toList) 0

/-- The space that a creation asks for. The sum wraps. -/
def createdSpace (dataLen : U64) : Nat := min (UInt64.ofNat headerLen + dataLen).toNat maxSpacePerOp

def idlCreateAccount (runtime : Runtime) (programId : Pubkey) (dataLen : U64) :
    List AccountMeta → Handler Unit
  | payer :: target :: base :: systemProgram :: program :: _ => do
      rejectIf (program.key ≠ programId) .incorrectProgramId
      rejectIf (payer.isSigner = false) .missingRequiredSignature
      let (expectedIdl, expectedBase, bump) ← deriveIdl runtime programId
      rejectIf (target.key ≠ expectedIdl ∨ base.key ≠ expectedBase) .invalidArgument
      let space := createdSpace dataLen
      let lamports := runtime.minimumRent space
      invokeSigned runtime
        (.createAccountWithSeed payer.key target.key base.key idlSeed lamports space programId)
        [payer, target, base, systemProgram] [[bump]]
      let account ← load target
      rejectIf (account.data.length < headerLen) .accountDataTooSmall
      save target { account with data := writeHeader account.data payer.key }
  | _ => fail .notEnoughAccountKeys

def idlCreateBuffer (programId : Pubkey) : List AccountMeta → Handler Unit
  | buffer :: authority :: _ => do
      let account ← load buffer
      rejectIf (account.owner ≠ programId) .illegalOwner
      rejectIf (authority.isSigner = false ∨ authority.key = erasedAuthority)
        .missingRequiredSignature
      rejectIf (account.data.length < headerLen) .accountDataTooSmall
      rejectIf (account.data.any (fun byte => byte != 0) = true) .accountAlreadyInitialized
      save buffer { account with data := writeHeader account.data authority.key }
  | _ => fail .notEnoughAccountKeys

def idlWrite (programId : Pubkey) (idlData : List UInt8) : List AccountMeta → Handler Unit
  | idl :: authority :: _ => do
      checkOwnedIdl programId idl
      checkAuthority idl authority
      let account ← load idl
      let prevLen := readDataLen account.data
      let newLen := prevLen + idlData.length
      rejectIf (2 ^ 64 ≤ newLen) .arithmeticOverflow
      rejectIf (account.data.length < headerLen + newLen) .accountDataTooSmall
      save idl
        { account with
          data := writeDataLen (Bytes.overwrite account.data (headerLen + prevLen) idlData) newLen }
  | _ => fail .notEnoughAccountKeys

/-- Copy the payload of a buffer into the canonical account. One account cannot be both: its
data would be borrowed twice. -/
def idlSetBuffer (runtime : Runtime) (programId : Pubkey) : List AccountMeta → Handler Unit
  | buffer :: idl :: authority :: _ => do
      checkOwnedIdl programId buffer
      checkCanonicalIdl runtime programId idl
      checkAuthority idl authority
      let source ← load buffer
      let account ← load idl
      rejectIf (readAuthority source.data ≠ readAuthority account.data) .invalidArgument
      let bufferLen := readDataLen source.data
      rejectIf (buffer.key = idl.key) .accountBorrowFailed
      rejectIf (account.data.length < headerLen + bufferLen) .accountDataTooSmall
      Method.rejectIf (source.data.length < headerLen + bufferLen) .panicked
      save idl
        { account with
          data := writeDataLen (Bytes.overwrite account.data headerLen
            (Bytes.region source.data headerLen (headerLen + bufferLen))) bufferLen }
  | _ => fail .notEnoughAccountKeys

def idlSetAuthority (programId newAuthority : Pubkey) : List AccountMeta → Handler Unit
  | idl :: authority :: _ => do
      checkOwnedIdl programId idl
      checkAuthority idl authority
      let account ← load idl
      save idl
        { account with data := Bytes.overwrite account.data authorityOffset newAuthority.toList }
  | _ => fail .notEnoughAccountKeys

def resizedSpace (currentSpace : Nat) (dataLen : U64) : Nat :=
  currentSpace + min (dataLen.toNat - currentSpace) maxSpacePerOp

def topUpRent (runtime : Runtime) (newSpace : Nat) (lamports : U64)
    (idl authority systemProgram : AccountMeta) : Handler Unit :=
  let newRent := runtime.minimumRent newSpace
  let topup := newRent - min lamports newRent
  if 0 < topup then
    invokeSigned runtime (.transfer authority.key idl.key topup) [authority, idl, systemProgram] []
  else pure ()

def idlResizeAccount (runtime : Runtime) (programId : Pubkey) (dataLen : U64) :
    List AccountMeta → Handler Unit
  | idl :: authority :: systemProgram :: _ => do
      checkCanonicalIdl runtime programId idl
      checkAuthority idl authority
      let account ← load idl
      rejectIf (readDataLen account.data ≠ 0) .accountAlreadyInitialized
      let currentSpace := account.data.length
      let newSpace := resizedSpace currentSpace dataLen
      rejectIf (2 ^ 64 ≤ newSpace) .arithmeticOverflow
      if currentSpace < newSpace then do
        topUpRent runtime newSpace account.lamports idl authority systemProgram
        realloc runtime idl newSpace
      else pure ()
  | _ => fail .notEnoughAccountKeys

def idlCloseAccount (runtime : Runtime) (programId : Pubkey) : List AccountMeta → Handler Unit
  | account :: authority :: destination :: _ => do
      checkOwnedIdl programId account
      checkAuthority account authority
      rejectIf (account.key = destination.key) .accountBorrowFailed
      let source ← load account
      let receiver ← load destination
      rejectIf (2 ^ 64 ≤ receiver.lamports.toNat + source.lamports.toNat) .arithmeticOverflow
      save destination { receiver with lamports := receiver.lamports + source.lamports }
      save account
        { owner := runtime.systemProgramId, lamports := 0, data := source.data.map (fun _ => 0) }
      realloc runtime account 0
  | _ => fail .notEnoughAccountKeys

/-- An instruction with the accounts that are passed to it. -/
structure Call where
  accounts : List AccountMeta
  instruction : IdlInstruction

def processIdlInstruction (runtime : Runtime) (programId : Pubkey) (call : Call) : Handler Unit :=
  match call.instruction with
  | .create dataLen => idlCreateAccount runtime programId dataLen call.accounts
  | .createBuffer => idlCreateBuffer programId call.accounts
  | .write data => idlWrite programId data call.accounts
  | .setBuffer => idlSetBuffer runtime programId call.accounts
  | .setAuthority newAuthority => idlSetAuthority programId newAuthority call.accounts
  | .resize dataLen => idlResizeAccount runtime programId dataLen call.accounts
  | .close => idlCloseAccount runtime programId call.accounts

/-! What the writes leave in the bytes of an account. -/

theorem length_writeDataLen (data : List UInt8) (len : Nat) (header : headerLen ≤ data.length) :
    (writeDataLen data len).length = data.length :=
  Bytes.length_overwrite _ _ _ header

theorem region_writeDataLen (data : List UInt8) (len start stop : Nat)
    (header : headerLen ≤ data.length) (before : stop ≤ dataLenOffset) :
    Bytes.region (writeDataLen data len) start stop = Bytes.region data start stop :=
  Bytes.region_overwrite_disjoint _ _ _ _ _ header (Or.inl before)

theorem writeHeader_spec (data : List UInt8) (authority : Pubkey)
    (header : headerLen ≤ data.length) :
    (writeHeader data authority).length = data.length ∧
      Bytes.region (writeHeader data authority) 0 discriminatorLen = idlAccountDiscriminator ∧
      readAuthority (writeHeader data authority) = authority.toList := by
  have key_length : authority.toList.length = 32 := Vector.length_toList
  have room : authorityOffset + authority.toList.length ≤ data.length := by
    rw [key_length]
    exact le_trans (by decide) header
  have prefix_room : 0 + idlAccountDiscriminator.length ≤ data.length :=
    le_trans (by decide) header
  have marked_length := Bytes.length_overwrite data 0 idlAccountDiscriminator prefix_room
  have marked := Bytes.region_overwrite data 0 idlAccountDiscriminator prefix_room
  unfold writeHeader readAuthority
  generalize Bytes.overwrite data 0 idlAccountDiscriminator = stamped at marked_length marked ⊢
  rw [← marked_length] at room
  have signed_length := Bytes.length_overwrite stamped authorityOffset authority.toList room
  have signed := Bytes.region_overwrite stamped authorityOffset authority.toList room
  have kept := Bytes.region_overwrite_disjoint stamped authorityOffset authority.toList 0
    discriminatorLen room (Or.inl le_rfl)
  rw [key_length] at signed
  have fits : headerLen ≤ (Bytes.overwrite stamped authorityOffset authority.toList).length := by
    omega
  refine ⟨?_, ?_, ?_⟩
  · rw [length_writeDataLen _ _ fits, signed_length, marked_length]
  · rw [region_writeDataLen _ _ _ _ fits (by decide), kept]
    exact marked
  · rw [region_writeDataLen _ _ _ _ fits (by decide), signed]

/-! What successful calls check and store. -/

theorem fail_succeeds {α : Type} (e : ProgramError) (s s' : Store) (a : α) :
    (fail e : Handler α).Succeeds s a s' ↔ False := Method.succeeds_fail _ _ _ _

theorem rejectIf_succeeds (condition : Prop) [Decidable condition] (e : ProgramError)
    (s s' : Store) (u : Unit) : (rejectIf condition e).Succeeds s u s' ↔ ¬ condition ∧ s = s' :=
  Method.succeeds_rejectIf _ _ _ _ _

theorem load_succeeds (account : AccountMeta) (s s' : Store) (a : Account) :
    (load account).Succeeds s a s' ↔ s account.key = a ∧ s = s' := by
  simp only [load, Method.succeeds_bind, Method.succeeds_self, Method.succeeds_pure]
  constructor
  · rintro ⟨_, _, ⟨rfl, rfl⟩, rfl, rfl⟩
    exact ⟨rfl, rfl⟩
  · rintro ⟨rfl, rfl⟩
    exact ⟨s, s, ⟨rfl, rfl⟩, rfl, rfl⟩

theorem save_succeeds (account : AccountMeta) (next : Account) (s s' : Store) (u : Unit) :
    (save account next).Succeeds s u s' ↔ Function.update s account.key next = s' := by
  simp only [save, Method.succeeds_bind, Method.succeeds_self, Method.succeeds_assign]
  constructor
  · rintro ⟨_, _, ⟨rfl, rfl⟩, rfl⟩
    rfl
  · rintro rfl
    exact ⟨s, s, ⟨rfl, rfl⟩, rfl⟩

theorem ofResult_succeeds {α : Type} (result : Except ProgramError α) (s s' : Store) (a : α) :
    (ofResult result).Succeeds s a s' ↔ result = .ok a ∧ s = s' := by
  unfold ofResult
  rw [Method.succeeds_lift]
  cases result with
  | error e => simp [Except.mapError]
  | ok value => simp [Except.mapError]

theorem invokeSigned_succeeds (runtime : Runtime) (instruction : SystemInstruction)
    (accounts : List AccountMeta) (seeds : List (List UInt8)) (s s' : Store) (u : Unit) :
    (invokeSigned runtime instruction accounts seeds).Succeeds s u s' ↔
      runtime.invokeSigned instruction accounts seeds s = .ok s' := by
  simp only [invokeSigned, Method.succeeds_bind, Method.succeeds_self, ofResult_succeeds,
    Method.succeeds_assign]
  constructor
  · rintro ⟨_, _, ⟨rfl, rfl⟩, _, _, ⟨ok, rfl⟩, rfl⟩
    exact ok
  · intro ok
    exact ⟨s, s, ⟨rfl, rfl⟩, s', s, ⟨ok, rfl⟩, rfl⟩

theorem realloc_succeeds (runtime : Runtime) (account : AccountMeta) (newLen : Nat) (s s' : Store)
    (u : Unit) :
    (realloc runtime account newLen).Succeeds s u s' ↔
      ∃ data, runtime.realloc newLen (s account.key).data = .ok data ∧
        s' = Function.update s account.key { s account.key with data } := by
  simp only [realloc, Method.succeeds_bind, load_succeeds, ofResult_succeeds, save_succeeds]
  constructor
  · rintro ⟨_, _, ⟨rfl, rfl⟩, data, _, ⟨ok, rfl⟩, rfl⟩
    exact ⟨data, ok, rfl⟩
  · rintro ⟨data, ok, rfl⟩
    exact ⟨_, _, ⟨rfl, rfl⟩, data, _, ⟨ok, rfl⟩, rfl⟩

structure IsIdl (programId : Pubkey) (account : Account) : Prop where
  owner : account.owner = programId
  header : headerLen ≤ account.data.length
  discriminator : Bytes.region account.data 0 discriminatorLen = idlAccountDiscriminator

structure Authorized (data : List UInt8) (authority : AccountMeta) : Prop where
  signer : authority.isSigner = true
  kept : authority.key ≠ erasedAuthority
  stored : readAuthority data = authority.key.toList

theorem Authorized.not_erased {data : List UInt8} {authority : AccountMeta}
    (authorized : Authorized data authority) : readAuthority data ≠ erasedAuthority.toList := by
  rw [authorized.stored]
  intro same
  exact authorized.kept (Vector.toList_inj.mp same)

def idlAddress (runtime : Runtime) (programId : Pubkey) : Option Pubkey :=
  runtime.createWithSeed (runtime.findProgramAddress [] programId).1 idlSeed programId

theorem deriveIdl_succeeds (runtime : Runtime) (programId : Pubkey) (s s' : Store)
    (derived : Pubkey × Pubkey × UInt8) :
    (deriveIdl runtime programId).Succeeds s derived s' ↔
      idlAddress runtime programId = some derived.1 ∧
        derived.2 = runtime.findProgramAddress [] programId ∧ s = s' := by
  obtain ⟨idl, base⟩ := derived
  unfold deriveIdl idlAddress
  dsimp only
  cases runtime.createWithSeed (runtime.findProgramAddress [] programId).1 idlSeed programId with
  | none => simp [fail_succeeds]
  | some address =>
      simp only [Method.succeeds_pure, Prod.mk.injEq, Option.some.injEq, Prod.mk.eta]
      tauto

theorem checkOwnedIdl_succeeds (programId : Pubkey) (acc : AccountMeta) (s s' : Store) (u : Unit) :
    (checkOwnedIdl programId acc).Succeeds s u s' ↔ IsIdl programId (s acc.key) ∧ s = s' := by
  simp only [checkOwnedIdl, Method.succeeds_bind, load_succeeds, rejectIf_succeeds, not_or, not_lt,
    not_not]
  constructor
  · rintro ⟨_, _, ⟨rfl, rfl⟩, _, _, ⟨owner, rfl⟩, ⟨header, discriminator⟩, rfl⟩
    exact ⟨⟨owner, header, discriminator⟩, rfl⟩
  · rintro ⟨⟨owner, header, discriminator⟩, rfl⟩
    exact ⟨_, _, ⟨rfl, rfl⟩, (), _, ⟨owner, rfl⟩, ⟨header, discriminator⟩, rfl⟩

theorem checkCanonicalIdl_succeeds (runtime : Runtime) (programId : Pubkey) (idl : AccountMeta)
    (s s' : Store) (u : Unit) :
    (checkCanonicalIdl runtime programId idl).Succeeds s u s' ↔
      IsIdl programId (s idl.key) ∧ idlAddress runtime programId = some idl.key ∧ s = s' := by
  simp only [checkCanonicalIdl, Method.succeeds_bind, load_succeeds, rejectIf_succeeds, not_or,
    not_lt, not_not, deriveIdl_succeeds]
  constructor
  · rintro ⟨_, _, ⟨rfl, rfl⟩, _, _, ⟨owner, rfl⟩, ⟨_, _, _⟩, _, ⟨derived, -, rfl⟩, _, _,
      ⟨expected, rfl⟩, ⟨header, discriminator⟩, rfl⟩
    refine ⟨⟨owner, header, discriminator⟩, ?_, rfl⟩
    rw [expected]
    exact derived
  · rintro ⟨⟨owner, header, discriminator⟩, derived, rfl⟩
    exact ⟨_, _, ⟨rfl, rfl⟩, (), _, ⟨owner, rfl⟩, (idl.key, _), _, ⟨derived, rfl, rfl⟩, (), _,
      ⟨rfl, rfl⟩, ⟨header, discriminator⟩, rfl⟩

theorem checkAuthority_succeeds (idl authority : AccountMeta) (s s' : Store) (u : Unit) :
    (checkAuthority idl authority).Succeeds s u s' ↔
      Authorized (s idl.key).data authority ∧ s = s' := by
  simp only [checkAuthority, Method.succeeds_bind, load_succeeds, rejectIf_succeeds,
    Bool.not_eq_false, not_not]
  constructor
  · rintro ⟨_, _, ⟨signer, rfl⟩, _, _, ⟨kept, rfl⟩, _, _, ⟨rfl, rfl⟩, stored, rfl⟩
    exact ⟨⟨signer, kept, stored⟩, rfl⟩
  · rintro ⟨⟨signer, kept, stored⟩, rfl⟩
    exact ⟨(), _, ⟨signer, rfl⟩, (), _, ⟨kept, rfl⟩, _, _, ⟨rfl, rfl⟩, stored, rfl⟩

structure Creation (runtime : Runtime) (programId : Pubkey) (dataLen : U64)
    (accounts : List AccountMeta) (s s' : Store) where
  payer : AccountMeta
  target : AccountMeta
  base : AccountMeta
  systemProgram : AccountMeta
  program : AccountMeta
  others : List AccountMeta
  bump : UInt8
  allocated : Store
  accounts_eq : accounts = payer :: target :: base :: systemProgram :: program :: others
  signer : payer.isSigner = true
  canonical : idlAddress runtime programId = some target.key
  invoked : runtime.invokeSigned (.createAccountWithSeed payer.key target.key base.key idlSeed
    (runtime.minimumRent (createdSpace dataLen)) (createdSpace dataLen) programId)
    [payer, target, base, systemProgram] [[bump]] s = .ok allocated
  header : headerLen ≤ (allocated target.key).data.length
  stored : s' = Function.update allocated target.key
    { allocated target.key with data := writeHeader (allocated target.key).data payer.key }

theorem idlCreateAccount_succeeds (runtime : Runtime) (programId : Pubkey) (dataLen : U64)
    (accounts : List AccountMeta) (s s' : Store) (u : Unit)
    (success : (idlCreateAccount runtime programId dataLen accounts).Succeeds s u s') :
    Nonempty (Creation runtime programId dataLen accounts s s') := by
  unfold idlCreateAccount at success
  split at success
  · rename_i payer target base systemProgram program others
    simp only [Method.succeeds_bind, rejectIf_succeeds, deriveIdl_succeeds, invokeSigned_succeeds,
      load_succeeds, save_succeeds, Bool.not_eq_false, not_or, not_not, not_lt, and_assoc,
      exists_and_left, exists_eq_left', exists_const] at success
    obtain ⟨-, signer, ⟨idl, _, bump⟩, derived, -, expected, -, allocated, invoked, header,
      stored⟩ := success
    refine ⟨⟨payer, target, base, systemProgram, program, others, bump, allocated, rfl, signer, ?_,
      invoked, header, stored.symm⟩⟩
    rw [expected]
    exact derived
  · exact absurd success (by simp [fail_succeeds])

theorem idlCreateBuffer_succeeds (programId : Pubkey) (accounts : List AccountMeta) (s s' : Store)
    (u : Unit) (success : (idlCreateBuffer programId accounts).Succeeds s u s') :
    ∃ buffer authority others, accounts = buffer :: authority :: others ∧
      (s buffer.key).owner = programId ∧ authority.key ≠ erasedAuthority ∧
      headerLen ≤ (s buffer.key).data.length ∧ (∀ byte ∈ (s buffer.key).data, byte = 0) ∧
      s' = Function.update s buffer.key
        { s buffer.key with data := writeHeader (s buffer.key).data authority.key } := by
  unfold idlCreateBuffer at success
  split at success
  · rename_i buffer authority others
    simp only [Method.succeeds_bind, rejectIf_succeeds, load_succeeds, save_succeeds, not_or,
      not_not, not_lt, and_assoc, exists_and_left, exists_eq_left', exists_const] at success
    obtain ⟨owner, -, kept, header, zeroed, stored⟩ := success
    refine ⟨buffer, authority, others, rfl, owner, kept, header, ?_, stored.symm⟩
    simpa [List.any_eq_true] using zeroed
  · exact absurd success (by simp [fail_succeeds])

theorem idlWrite_succeeds (programId : Pubkey) (idlData : List UInt8) (accounts : List AccountMeta)
    (s s' : Store) (u : Unit) (success : (idlWrite programId idlData accounts).Succeeds s u s') :
    ∃ idl authority others, accounts = idl :: authority :: others ∧
      IsIdl programId (s idl.key) ∧ Authorized (s idl.key).data authority ∧
      headerLen + (readDataLen (s idl.key).data + idlData.length) ≤ (s idl.key).data.length ∧
      s' = Function.update s idl.key
        { s idl.key with
          data := writeDataLen (Bytes.overwrite (s idl.key).data
            (headerLen + readDataLen (s idl.key).data) idlData)
            (readDataLen (s idl.key).data + idlData.length) } := by
  unfold idlWrite at success
  split at success
  · rename_i idl authority others
    simp only [Method.succeeds_bind, rejectIf_succeeds, load_succeeds, save_succeeds,
      checkOwnedIdl_succeeds, checkAuthority_succeeds, not_lt, and_assoc, exists_and_left,
      exists_eq_left', exists_const] at success
    obtain ⟨owned, authorized, -, fits, stored⟩ := success
    exact ⟨idl, authority, others, rfl, owned, authorized, fits, stored.symm⟩
  · exact absurd success (by simp [fail_succeeds])

theorem idlSetBuffer_succeeds (runtime : Runtime) (programId : Pubkey)
    (accounts : List AccountMeta) (s s' : Store) (u : Unit)
    (success : (idlSetBuffer runtime programId accounts).Succeeds s u s') :
    ∃ buffer idl authority others, accounts = buffer :: idl :: authority :: others ∧
      IsIdl programId (s buffer.key) ∧ IsIdl programId (s idl.key) ∧
      idlAddress runtime programId = some idl.key ∧ Authorized (s idl.key).data authority ∧
      readAuthority (s buffer.key).data = readAuthority (s idl.key).data ∧ buffer.key ≠ idl.key ∧
      headerLen + readDataLen (s buffer.key).data ≤ (s idl.key).data.length ∧
      headerLen + readDataLen (s buffer.key).data ≤ (s buffer.key).data.length ∧
      s' = Function.update s idl.key
        { s idl.key with
          data := writeDataLen (Bytes.overwrite (s idl.key).data headerLen
            (Bytes.region (s buffer.key).data headerLen
              (headerLen + readDataLen (s buffer.key).data)))
            (readDataLen (s buffer.key).data) } := by
  unfold idlSetBuffer at success
  split at success
  · rename_i buffer idl authority others
    simp only [Method.succeeds_bind, rejectIf_succeeds, Method.succeeds_rejectIf, load_succeeds,
      save_succeeds, checkOwnedIdl_succeeds, checkCanonicalIdl_succeeds, checkAuthority_succeeds,
      not_lt, not_not, and_assoc, exists_and_left, exists_eq_left', exists_const] at success
    obtain ⟨source, owned, canonical, authorized, same, distinct, fits, inside, stored⟩ := success
    exact ⟨buffer, idl, authority, others, rfl, source, owned, canonical, authorized, same,
      distinct, fits, inside, stored.symm⟩
  · exact absurd success (by simp [fail_succeeds])

theorem idlSetAuthority_succeeds (programId newAuthority : Pubkey) (accounts : List AccountMeta)
    (s s' : Store) (u : Unit)
    (success : (idlSetAuthority programId newAuthority accounts).Succeeds s u s') :
    ∃ idl authority others, accounts = idl :: authority :: others ∧
      IsIdl programId (s idl.key) ∧ Authorized (s idl.key).data authority ∧
      s' = Function.update s idl.key
        { s idl.key with
          data := Bytes.overwrite (s idl.key).data authorityOffset newAuthority.toList } := by
  unfold idlSetAuthority at success
  split at success
  · rename_i idl authority others
    simp only [Method.succeeds_bind, load_succeeds, save_succeeds, checkOwnedIdl_succeeds,
      checkAuthority_succeeds, and_assoc, exists_and_left, exists_eq_left', exists_const] at success
    obtain ⟨owned, authorized, stored⟩ := success
    exact ⟨idl, authority, others, rfl, owned, authorized, stored.symm⟩
  · exact absurd success (by simp [fail_succeeds])

structure Resizing (runtime : Runtime) (programId : Pubkey) (dataLen : U64)
    (accounts : List AccountMeta) (s s' : Store) where
  idl : AccountMeta
  authority : AccountMeta
  others : List AccountMeta
  accounts_eq : accounts = idl :: authority :: others
  owned : IsIdl programId (s idl.key)
  canonical : idlAddress runtime programId = some idl.key
  authorized : Authorized (s idl.key).data authority
  empty : readDataLen (s idl.key).data = 0
  owner_eq : ∀ key, (s' key).owner = (s key).owner
  data_eq : ∀ key, key ≠ idl.key → (s' key).data = (s key).data
  appended : ∃ rest, (s' idl.key).data = (s idl.key).data ++ rest
  length_eq : (s' idl.key).data.length = resizedSpace (s idl.key).data.length dataLen

theorem topUpRent_succeeds (runtime : Runtime) (documented : runtime.Documented) (newSpace : Nat)
    (lamports : U64) (idl authority systemProgram : AccountMeta) (s s' : Store) (u : Unit)
    (success :
      (topUpRent runtime newSpace lamports idl authority systemProgram).Succeeds s u s')
    (key : Pubkey) : (s' key).owner = (s key).owner ∧ (s' key).data = (s key).data := by
  simp only [topUpRent, Method.succeeds_ite, invokeSigned_succeeds, Method.succeeds_pure] at success
  rcases success with ⟨-, transferred⟩ | ⟨-, -, rfl⟩
  · exact documented.transferred _ _ _ _ _ _ _ transferred key
  · exact ⟨rfl, rfl⟩

theorem idlResizeAccount_succeeds (runtime : Runtime) (documented : runtime.Documented)
    (programId : Pubkey) (dataLen : U64) (accounts : List AccountMeta) (s s' : Store) (u : Unit)
    (success : (idlResizeAccount runtime programId dataLen accounts).Succeeds s u s') :
    Nonempty (Resizing runtime programId dataLen accounts s s') := by
  unfold idlResizeAccount at success
  split at success
  · rename_i idl authority systemProgram others
    simp only [Method.succeeds_bind, Method.succeeds_ite, Method.succeeds_pure, rejectIf_succeeds,
      load_succeeds, checkCanonicalIdl_succeeds, checkAuthority_succeeds, realloc_succeeds, not_not,
      and_assoc, exists_and_left, exists_eq_left', exists_const] at success
    obtain ⟨owned, canonical, authorized, empty, -,
      ⟨grows, _, paid, topped, data, reallocated, stored⟩ | ⟨kept, -, rfl⟩⟩ := success
    · have unchanged := topUpRent_succeeds runtime documented _ _ _ _ _ _ _ _ topped
      rw [(unchanged idl.key).2] at reallocated
      obtain ⟨length_eq, appended⟩ := documented.grown _ _ _ reallocated grows.le
      have stored_eq : s' idl.key = { paid idl.key with data } := by
        rw [stored, Function.update_self]
      refine ⟨⟨idl, authority, systemProgram :: others, rfl, owned, canonical, authorized, empty,
        ?_, ?_, ?_, ?_⟩⟩
      · intro key
        by_cases same : key = idl.key
        · rw [same, stored_eq]
          exact (unchanged idl.key).1
        · rw [stored, Function.update_of_ne same]
          exact (unchanged key).1
      · intro key other
        rw [stored, Function.update_of_ne other]
        exact (unchanged key).2
      · rw [stored_eq]
        exact appended
      · rw [stored_eq]
        exact length_eq
    · refine ⟨⟨idl, authority, systemProgram :: others, rfl, owned, canonical, authorized, empty,
        fun _ => rfl, fun _ _ => rfl, ⟨[], by simp⟩, ?_⟩⟩
      unfold resizedSpace at kept ⊢
      omega
  · exact absurd success (by simp [fail_succeeds])

theorem idlCloseAccount_succeeds (runtime : Runtime) (programId : Pubkey)
    (accounts : List AccountMeta) (s s' : Store) (u : Unit)
    (success : (idlCloseAccount runtime programId accounts).Succeeds s u s') :
    ∃ account authority others, accounts = account :: authority :: others ∧
      IsIdl programId (s account.key) ∧ Authorized (s account.key).data authority ∧
      (s' account.key).owner = runtime.systemProgramId ∧
      ∀ key, key ≠ account.key → (s' key).owner = (s key).owner ∧ (s' key).data = (s key).data := by
  unfold idlCloseAccount at success
  split at success
  · rename_i account authority destination others
    simp only [Method.succeeds_bind, rejectIf_succeeds, load_succeeds, save_succeeds,
      checkOwnedIdl_succeeds, checkAuthority_succeeds, realloc_succeeds, and_assoc, exists_and_left,
      exists_eq_left', exists_const] at success
    obtain ⟨owned, authorized, -, -, data, -, rfl⟩ := success
    refine ⟨account, authority, destination :: others, rfl, owned, authorized, ?_, ?_⟩
    · simp only [Function.update_self]
    · intro key other
      rw [Function.update_of_ne other, Function.update_of_ne other]
      by_cases paid : key = destination.key
      · rw [paid, Function.update_self]
        exact ⟨rfl, rfl⟩
      · rw [Function.update_of_ne paid]
        exact ⟨rfl, rfl⟩
  · exact absurd success (by simp [fail_succeeds])

/-! A runtime for concrete runs: a system program that allocates and transfers, and resizing that
fills with zeros. Buffers need none of the addresses it derives. -/

def pay (s : Store) (key : Pubkey) (lamports : U64) : Store :=
  Function.update s key { s key with lamports }

theorem pay_unchanged (s : Store) (payee : Pubkey) (lamports : U64) (key : Pubkey) :
    (pay s payee lamports key).owner = (s key).owner ∧
      (pay s payee lamports key).data = (s key).data := by
  unfold pay
  by_cases same : key = payee
  · rw [same, Function.update_self]
    exact ⟨rfl, rfl⟩
  · rw [Function.update_of_ne same]
    exact ⟨rfl, rfl⟩

def plainRuntime : Runtime where
  systemProgramId := zeroedPubkey
  findProgramAddress _ programId := (programId, 255)
  createWithSeed base _ _ := some base
  minimumRent _ := 0
  invokeSigned instruction _ _ s :=
    match instruction with
    | .createAccountWithSeed _ target _ _ lamports space owner =>
        if (s target).data = [] then
          .ok (Function.update s target { owner, lamports, data := List.replicate space 0 })
        else .error (.custom 0)
    | .transfer source target lamports =>
        if (s source).lamports < lamports then .error (.custom 1)
        else
          let debited := pay s source ((s source).lamports - lamports)
          .ok (pay debited target ((debited target).lamports + lamports))
  realloc newLen data := .ok (data.take newLen ++ List.replicate (newLen - data.length) 0)

theorem plainRuntime_documented : plainRuntime.Documented where
  created := by
    intro source target base seed lamports space owner accounts seeds s s' invoked
    simp only [plainRuntime, except_ite_ok, reduceCtorEq, and_false, or_false,
      Except.ok.injEq] at invoked
    obtain ⟨unallocated, rfl⟩ := invoked
    refine ⟨unallocated, by rw [Function.update_self], by rw [Function.update_self], ?_⟩
    intro key other
    rw [Function.update_of_ne other]
    exact ⟨rfl, rfl⟩
  transferred := by
    intro source target lamports accounts seeds s s' invoked key
    simp only [plainRuntime, except_ite_ok, reduceCtorEq, and_false, false_or,
      Except.ok.injEq] at invoked
    obtain ⟨-, rfl⟩ := invoked
    obtain ⟨owner_eq, data_eq⟩ := pay_unchanged
      (pay s source ((s source).lamports - lamports)) target _ key
    obtain ⟨owner_eq', data_eq'⟩ := pay_unchanged s source ((s source).lamports - lamports) key
    exact ⟨owner_eq.trans owner_eq', data_eq.trans data_eq'⟩
  grown := by
    intro newLen data data' resized longer
    obtain rfl := Except.ok.inj resized
    rw [List.take_of_length_le longer]
    refine ⟨?_, _, rfl⟩
    rw [List.length_append, List.length_replicate]
    omega

end Idl

end AutaraLending
