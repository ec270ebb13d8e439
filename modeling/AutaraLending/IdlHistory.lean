import AutaraLending.IdlForgery

/-! The history of an IDL account: its payload is what has been written to it. -/

namespace AutaraLending

open Support

namespace Idl

/-- The payload of an IDL account. -/
def payload (data : List UInt8) : List UInt8 :=
  Bytes.region data headerLen (headerLen + readDataLen data)

structure WellFormed (account : Account) : Prop where
  isIdl : IsIdl AutaraProgram.id account
  fits : headerLen + readDataLen account.data ≤ account.data.length

section

variable (data : List UInt8)

theorem readDataLen_writeDataLen (len : Nat) (header : headerLen ≤ data.length)
    (small : len < 2 ^ 32) : readDataLen (writeDataLen data len) = len := by
  have room : dataLenOffset + (Bytes.ofUInt32 (UInt32.ofNat len)).length ≤ data.length := header
  have written := Bytes.region_overwrite data dataLenOffset (Bytes.ofUInt32 (UInt32.ofNat len)) room
  unfold readDataLen writeDataLen
  rw [Bytes.length_ofUInt32] at written
  rw [show headerLen = dataLenOffset + 4 from rfl, written, Bytes.toUInt32_ofUInt32]
  exact Nat.mod_eq_of_lt small

theorem readDataLen_writeHeader (authority : Pubkey) (header : headerLen ≤ data.length) :
    readDataLen (writeHeader data authority) = 0 := by
  have stamped := Bytes.length_overwrite data 0 idlAccountDiscriminator
    (le_trans (by decide) header)
  have room : authorityOffset + authority.toList.length ≤
      (Bytes.overwrite data 0 idlAccountDiscriminator).length := by
    rw [stamped, Vector.length_toList]
    exact le_trans (by decide) header
  have signed := Bytes.length_overwrite _ authorityOffset authority.toList room
  apply readDataLen_writeDataLen _ _ _ (by decide)
  rw [signed, stamped]
  exact header

theorem region_writeDataLen_behind (len start stop : Nat) (header : headerLen ≤ data.length)
    (behind : headerLen ≤ start) :
    Bytes.region (writeDataLen data len) start stop = Bytes.region data start stop :=
  Bytes.region_overwrite_disjoint _ _ _ _ _ header (Or.inr behind)

theorem payload_overwrite (offset : Nat) (patch : List UInt8)
    (behind : headerLen ≤ offset) (fits : offset + patch.length ≤ data.length)
    (small : data.length < 2 ^ 32) :
    (writeDataLen (Bytes.overwrite data offset patch)
        (offset - headerLen + patch.length)).length = data.length ∧
      readDataLen (writeDataLen (Bytes.overwrite data offset patch)
        (offset - headerLen + patch.length)) = offset - headerLen + patch.length ∧
      payload (writeDataLen (Bytes.overwrite data offset patch)
        (offset - headerLen + patch.length)) = Bytes.region data headerLen offset ++ patch := by
  have length_eq := Bytes.length_overwrite data offset patch fits
  have header : headerLen ≤ (Bytes.overwrite data offset patch).length := by omega
  have length_read := readDataLen_writeDataLen (Bytes.overwrite data offset patch)
    (offset - headerLen + patch.length) header (by omega)
  refine ⟨(length_writeDataLen _ _ header).trans length_eq, length_read, ?_⟩
  have stop_eq : headerLen + (offset - headerLen + patch.length) = offset + patch.length := by omega
  unfold payload
  rw [length_read, region_writeDataLen_behind _ _ _ _ header le_rfl, stop_eq]
  exact Bytes.region_overwrite_end _ _ _ _ behind fits

theorem length_payload (fits : headerLen + readDataLen data ≤ data.length) :
    (payload data).length = readDataLen data := by
  unfold payload
  rw [Bytes.length_region _ _ _ fits]
  omega

theorem payload_overwrite_authority (key : Pubkey) (header : headerLen ≤ data.length) :
    readDataLen (Bytes.overwrite data authorityOffset key.toList) = readDataLen data ∧
      payload (Bytes.overwrite data authorityOffset key.toList) = payload data := by
  have end_eq : authorityOffset + key.toList.length = dataLenOffset := by
    rw [Vector.length_toList]
    rfl
  have room : authorityOffset + key.toList.length ≤ data.length :=
    le_trans (by rw [end_eq]; decide) header
  have behind (start stop : Nat) (after : dataLenOffset ≤ start) :
      Bytes.region (Bytes.overwrite data authorityOffset key.toList) start stop =
        Bytes.region data start stop :=
    Bytes.region_overwrite_disjoint _ _ _ _ _ room (Or.inr (end_eq ▸ after))
  have length_read : readDataLen (Bytes.overwrite data authorityOffset key.toList) =
      readDataLen data := by
    unfold readDataLen
    rw [behind _ _ le_rfl]
  refine ⟨length_read, ?_⟩
  unfold payload
  rw [length_read, behind _ _ (by decide)]

theorem payload_append (rest : List UInt8) (fits : headerLen + readDataLen data ≤ data.length) :
    readDataLen (data ++ rest) = readDataLen data ∧ payload (data ++ rest) = payload data := by
  have header : headerLen ≤ data.length := by omega
  have length_read : readDataLen (data ++ rest) = readDataLen data := by
    unfold readDataLen
    rw [Bytes.region_append _ _ _ _ header]
  refine ⟨length_read, ?_⟩
  unfold payload
  rw [length_read, Bytes.region_append _ _ _ _ fits]

end

namespace Call

def target (call : Call) : Option Pubkey :=
  match call.instruction with
  | .create _ => none
  | .createBuffer => none
  | .setBuffer => call.accounts[1]?.map AccountMeta.key
  | _ => call.subject

def source (call : Call) : Option Pubkey :=
  match call.instruction with
  | .setBuffer => call.subject
  | _ => none

end Call

/-- What a successful operation does to the payload of one IDL account. -/
inductive Operation (call : Call) (key : Pubkey) (s : Store) (after : Account) : Prop
  | elsewhere (other : call.target ≠ some key) (owner_eq : after.owner = (s key).owner)
      (data_eq : after.data = (s key).data)
  | write (data : List UInt8) (on_key : call.target = some key)
      (instruction_eq : call.instruction = .write data)
      (payload_eq : payload after.data = payload (s key).data ++ data)
  | setBuffer (buffer : Pubkey) (on_key : call.target = some key)
      (source_eq : call.source = some buffer)
      (payload_eq : payload after.data = payload (s buffer).data)
  | setAuthority (newAuthority : Pubkey) (on_key : call.target = some key)
      (instruction_eq : call.instruction = .setAuthority newAuthority)
      (payload_eq : payload after.data = payload (s key).data)
      (authority_eq : readAuthority after.data = newAuthority.toList)
  | resize (dataLen : U64) (on_key : call.target = some key)
      (instruction_eq : call.instruction = .resize dataLen)
      (payload_eq : payload after.data = payload (s key).data)

section

variable {runtime : Runtime} {call : Call} {key : Pubkey} {s s' : Store} {u : Unit}

theorem Operation.ofUpdate {stored : Pubkey} {next : Account} (wellFormed : WellFormed (s key))
    (on_stored : call.target = some stored)
    (operation : stored = key → WellFormed next ∧ Operation call key s next) :
    WellFormed (Function.update s stored next key) ∧
      Operation call key s (Function.update s stored next key) := by
  by_cases same : stored = key
  · have done := operation same
    rw [← same, Function.update_self, same]
    exact done
  · rw [Function.update_of_ne (Ne.symm same)]
    refine ⟨wellFormed, .elsewhere ?_ rfl rfl⟩
    rw [on_stored]
    exact fun equal => same (Option.some.inj equal)

section

variable {accounts : List AccountMeta} (isIdl_after : IsIdl AutaraProgram.id (s' key))
include isIdl_after

theorem write_operation {data : List UInt8} (wellFormed : WellFormed (s key))
    (small : (s key).data.length < 2 ^ 32)
    (success : (execute runtime ⟨accounts, .write data⟩).Succeeds s u s') :
    WellFormed (s' key) ∧ Operation ⟨accounts, .write data⟩ key s (s' key) := by
  have header := wellFormed.isIdl.header
  obtain ⟨idl, authority, others, shape, -, -, fits, stored⟩ :=
    idlWrite_succeeds _ _ _ _ _ _ success
  simp only at shape
  subst shape
  rw [stored] at isIdl_after ⊢
  apply Operation.ofUpdate wellFormed rfl
  rintro rfl
  rw [Function.update_self] at isIdl_after
  -- the new bytes are put behind those that the length field counts
  obtain ⟨length_eq, length_read, payload_eq⟩ := payload_overwrite (s idl.key).data
    (headerLen + readDataLen (s idl.key).data) data (by omega) (by omega) small
  rw [Nat.add_sub_cancel_left] at length_eq length_read payload_eq
  refine ⟨⟨isIdl_after, ?_⟩, .write data rfl rfl payload_eq⟩
  rw [length_read, length_eq]
  exact fits

theorem setBuffer_operation (wellFormed : WellFormed (s key))
    (small : (s key).data.length < 2 ^ 32)
    (success : (execute runtime ⟨accounts, .setBuffer⟩).Succeeds s u s') :
    WellFormed (s' key) ∧ Operation ⟨accounts, .setBuffer⟩ key s (s' key) := by
  obtain ⟨buffer, idl, authority, others, shape, -, -, -, -, -, distinct, fits, inside, stored⟩ :=
    idlSetBuffer_succeeds _ _ _ _ _ _ success
  simp only at shape
  subst shape
  rw [stored] at isIdl_after ⊢
  apply Operation.ofUpdate wellFormed rfl
  rintro rfl
  rw [Function.update_self] at isIdl_after
  have copied : (payload (s buffer.key).data).length = readDataLen (s buffer.key).data :=
    length_payload _ inside
  obtain ⟨length_eq, length_read, payload_eq⟩ := payload_overwrite (s idl.key).data headerLen
    (payload (s buffer.key).data) le_rfl (by omega) small
  rw [Nat.sub_self, Nat.zero_add, copied] at length_eq length_read payload_eq
  refine ⟨⟨isIdl_after, ?_⟩, .setBuffer buffer.key rfl rfl ?_⟩
  · refine le_trans (le_of_eq ?_) (le_trans fits (le_of_eq length_eq.symm))
    exact congrArg (headerLen + ·) length_read
  · refine payload_eq.trans ?_
    simp [Bytes.region]

theorem setAuthority_operation {newAuthority : Pubkey} (wellFormed : WellFormed (s key))
    (success : (execute runtime ⟨accounts, .setAuthority newAuthority⟩).Succeeds s u s') :
    WellFormed (s' key) ∧ Operation ⟨accounts, .setAuthority newAuthority⟩ key s (s' key) := by
  have header := wellFormed.isIdl.header
  obtain ⟨idl, authority, others, shape, -, -, stored⟩ :=
    idlSetAuthority_succeeds _ _ _ _ _ _ success
  simp only at shape
  subst shape
  rw [stored] at isIdl_after ⊢
  apply Operation.ofUpdate wellFormed rfl
  rintro rfl
  rw [Function.update_self] at isIdl_after
  obtain ⟨length_read, payload_eq⟩ :=
    payload_overwrite_authority (s idl.key).data newAuthority header
  have room := wellFormed.isIdl.authority_room newAuthority
  have authority_eq := Bytes.region_overwrite (s idl.key).data authorityOffset
    newAuthority.toList room
  rw [Vector.length_toList] at authority_eq
  refine ⟨⟨isIdl_after, ?_⟩, .setAuthority newAuthority rfl rfl payload_eq authority_eq⟩
  rw [length_read, Bytes.length_overwrite _ _ _ room]
  exact wellFormed.fits

theorem resize_operation {dataLen : U64} (documented : runtime.Documented)
    (wellFormed : WellFormed (s key))
    (success : (execute runtime ⟨accounts, .resize dataLen⟩).Succeeds s u s') :
    WellFormed (s' key) ∧ Operation ⟨accounts, .resize dataLen⟩ key s (s' key) := by
  obtain ⟨resizing⟩ := idlResizeAccount_succeeds _ documented _ _ _ _ _ _ success
  have on_idl : Call.target ⟨accounts, .resize dataLen⟩ = some resizing.idl.key :=
    congrArg (fun infos : List AccountMeta => infos.head?.map AccountMeta.key)
      resizing.accounts_eq
  by_cases same : key = resizing.idl.key
  · obtain ⟨rest, appended⟩ := resizing.appended
    rw [← same] at appended
    obtain ⟨length_read, payload_eq⟩ := payload_append (s key).data rest wellFormed.fits
    refine ⟨⟨isIdl_after, ?_⟩, .resize dataLen (same ▸ on_idl) rfl ?_⟩
    · rw [appended, length_read, List.length_append]
      exact le_trans wellFormed.fits (Nat.le_add_right _ _)
    · rw [appended]
      exact payload_eq
  · have data_eq := resizing.data_eq key same
    refine ⟨⟨isIdl_after, by rw [data_eq]; exact wellFormed.fits⟩,
      .elsewhere ?_ (resizing.owner_eq key) data_eq⟩
    rw [on_idl]
    exact fun equal => same (Option.some.inj equal).symm

theorem close_operation (wellFormed : WellFormed (s key))
    (unclosed : ¬ Call.Closes ⟨accounts, .close⟩ key)
    (success : (execute runtime ⟨accounts, .close⟩).Succeeds s u s') :
    WellFormed (s' key) ∧ Operation ⟨accounts, .close⟩ key s (s' key) := by
  obtain ⟨account, authority, others, shape, -, -, -, unchanged⟩ :=
    idlCloseAccount_succeeds _ _ _ _ _ _ success
  simp only at shape
  subst shape
  have distinct : key ≠ account.key := by
    rintro rfl
    exact unclosed ⟨rfl, rfl⟩
  obtain ⟨owner_eq, data_eq⟩ := unchanged key distinct
  refine ⟨⟨isIdl_after, by rw [data_eq]; exact wellFormed.fits⟩, .elsewhere ?_ owner_eq data_eq⟩
  exact fun same => distinct (Option.some.inj same).symm

end

/-- One step: an operation that does not close an IDL account leaves it well formed, and appends to
its payload, replaces it by that of a buffer, or keeps it. -/
theorem processIdlInstruction_operation (documented : runtime.Documented)
    (wellFormed : WellFormed (s key)) (small : (s key).data.length < 2 ^ 32)
    (unclosed : ¬ call.Closes key) (success : (execute runtime call).Succeeds s u s') :
    WellFormed (s' key) ∧ Operation call key s (s' key) := by
  have isIdl_after := (processIdlInstruction_change runtime documented _ call s s' u key
    wellFormed.isIdl unclosed success).isIdl wellFormed.isIdl
  obtain ⟨accounts, instruction⟩ := call
  cases instruction with
  | create dataLen =>
      obtain ⟨creation⟩ := idlCreateAccount_succeeds _ _ _ _ _ _ _ success
      obtain ⟨owner_eq, data_eq⟩ := creation.frame documented wellFormed.isIdl
      refine ⟨⟨isIdl_after, ?_⟩, .elsewhere nofun owner_eq data_eq⟩
      rw [data_eq]
      exact wellFormed.fits
  | createBuffer =>
      obtain ⟨buffer, authority, others, -, -, -, -, zeroed, stored⟩ :=
        idlCreateBuffer_succeeds _ _ _ _ _ success
      have distinct : key ≠ buffer.key := by
        rintro rfl
        exact wellFormed.isIdl.not_zeroed zeroed
      rw [stored, Function.update_of_ne distinct]
      exact ⟨wellFormed, .elsewhere nofun rfl rfl⟩
  | write data => exact write_operation isIdl_after wellFormed small success
  | setBuffer => exact setBuffer_operation isIdl_after wellFormed small success
  | setAuthority newAuthority => exact setAuthority_operation isIdl_after wellFormed success
  | close => exact close_operation isIdl_after wellFormed unclosed success
  | resize dataLen => exact resize_operation isIdl_after documented wellFormed success

/-- Every operation on an IDL account, or from a buffer, has the signature of its authority. -/
theorem operation_authorized (documented : runtime.Documented)
    (success : (execute runtime call).Succeeds s u s')
    (used : call.target = some key ∨ call.source = some key) :
    ∃ authority ∈ call.accounts, Authorized (s key).data authority := by
  obtain ⟨accounts, instruction⟩ := call
  cases instruction with
  | create dataLen => simp [Call.target, Call.source] at used
  | createBuffer => simp [Call.target, Call.source] at used
  | write data =>
      obtain ⟨idl, authority, others, shape, -, authorized, -, -⟩ :=
        idlWrite_succeeds _ _ _ _ _ _ success
      simp only at shape
      subst shape
      obtain rfl : idl.key = key := by simpa [Call.target, Call.source, Call.subject] using used
      exact ⟨authority, by simp, authorized⟩
  | setBuffer =>
      obtain ⟨buffer, idl, authority, others, shape, -, -, -, authorized, same, -, -, -, -⟩ :=
        idlSetBuffer_succeeds _ _ _ _ _ _ success
      simp only at shape
      subst shape
      refine ⟨authority, by simp, ?_⟩
      rcases used with on_idl | from_buffer
      · obtain rfl : idl.key = key := by simpa [Call.target] using on_idl
        exact authorized
      · obtain rfl : buffer.key = key := by simpa [Call.source, Call.subject] using from_buffer
        exact ⟨authorized.signer, authorized.kept, same.trans authorized.stored⟩
  | setAuthority newAuthority =>
      obtain ⟨idl, authority, others, shape, -, authorized, -⟩ :=
        idlSetAuthority_succeeds _ _ _ _ _ _ success
      simp only at shape
      subst shape
      obtain rfl : idl.key = key := by simpa [Call.target, Call.source, Call.subject] using used
      exact ⟨authority, by simp, authorized⟩
  | close =>
      obtain ⟨account, authority, others, shape, -, authorized, -, -⟩ :=
        idlCloseAccount_succeeds _ _ _ _ _ _ success
      simp only at shape
      subst shape
      obtain rfl : account.key = key := by simpa [Call.target, Call.source, Call.subject] using used
      exact ⟨authority, by simp, authorized⟩
  | resize dataLen =>
      obtain ⟨idl, authority, others, shape, -, -, authorized, -⟩ :=
        (idlResizeAccount_succeeds _ documented _ _ _ _ _ _ success).some
      simp only at shape
      subst shape
      obtain rfl : idl.key = key := by simpa [Call.target, Call.source, Call.subject] using used
      exact ⟨authority, by simp, authorized⟩

theorem created_wellFormed (documented : runtime.Documented)
    (creates : call.createdKey = some key) (success : (execute runtime call).Succeeds s u s') :
    WellFormed (s' key) ∧ payload (s' key).data = [] := by
  obtain ⟨isIdl, -⟩ :=
    processIdlInstruction_created runtime documented _ call s s' u key creates success
  have stamped : ∃ data authority, headerLen ≤ data.length ∧
      (s' key).data = writeHeader data authority := by
    obtain ⟨accounts, instruction⟩ := call
    cases instruction with
    | create dataLen =>
        obtain ⟨payer, target, base, systemProgram, program, others, bump, allocated, shape, -, -,
          -, header, stored⟩ := (idlCreateAccount_succeeds _ _ _ _ _ _ _ success).some
        simp only at shape
        subst shape
        obtain rfl : target.key = key := by simpa [Call.createdKey] using creates
        exact ⟨_, payer.key, header, by rw [stored, Function.update_self]⟩
    | createBuffer =>
        obtain ⟨buffer, authority, others, shape, -, -, header, -, stored⟩ :=
          idlCreateBuffer_succeeds _ _ _ _ _ success
        simp only at shape
        subst shape
        obtain rfl : buffer.key = key := by simpa [Call.createdKey] using creates
        exact ⟨_, authority.key, header, by rw [stored, Function.update_self]⟩
    | _ => simp [Call.createdKey] at creates
  obtain ⟨data, authority, header, data_eq⟩ := stamped
  have empty : readDataLen (s' key).data = 0 := by
    rw [data_eq]
    exact readDataLen_writeHeader data authority header
  refine ⟨⟨isIdl, ?_⟩, ?_⟩
  · rw [empty]
    exact isIdl.header
  · unfold payload
    rw [empty]
    simp [Bytes.region]

end

section

variable (runtime : Runtime) (key : Pubkey)

/-- What a call appends to the payload, when it is a write that succeeds. -/
def written (s : Store) (call : Call) : List UInt8 :=
  match execute runtime call s, call.instruction with
  | (.ok _, _), .write data => if call.target = some key then data else []
  | _, _ => []

/-- The concatenation of the successful writes of a run. -/
def successfulWrites : Store → List Call → List UInt8
  | _, [] => []
  | s, call :: rest =>
      written runtime key s call ++ successfulWrites (Machine.commit (execute runtime) s call) rest

/-- The account is not closed, and its length fits into 32 bits. -/
def InScope (s : Store) (call : Call) : Prop :=
  ¬ call.Closes key ∧ (s key).data.length < 2 ^ 32

/-- The payload is not replaced by that of a buffer. -/
def KeepsPayload (call : Call) : Prop :=
  ¬ (call.instruction = .setBuffer ∧ call.target = some key)

variable {runtime key} {s : Store}

theorem wellFormed_run (documented : runtime.Documented) (wellFormed : WellFormed (s key))
    (calls : List Call) (inScope : Machine.Along (execute runtime) (InScope key) s calls) :
    WellFormed (run runtime s calls key) := by
  apply @Machine.run_invariant_along _ _ _ _ (execute runtime) (fun s => WellFormed (s key))
    (InScope key) s calls wellFormed inScope
  intro s call u s' wellFormed inScope success
  exact (processIdlInstruction_operation documented wellFormed inScope.2 inScope.1 success).1

theorem payload_commit (documented : runtime.Documented) (wellFormed : WellFormed (s key))
    (call : Call)
    (inScope : ∀ u s', (execute runtime call).Succeeds s u s' → InScope key s call)
    (keeps : ∀ u s', (execute runtime call).Succeeds s u s' → KeepsPayload key call) :
    payload (Machine.commit (execute runtime) s call key).data =
      payload (s key).data ++ written runtime key s call := by
  by_cases succeeded : ∃ u s', (execute runtime call).Succeeds s u s'
  · obtain ⟨u, s', success⟩ := succeeded
    have within := inScope u s' success
    rw [Machine.commit_of_succeeds _ success]
    have executed : execute runtime call s = (.ok u, s') := success
    unfold written
    rw [executed]
    obtain ⟨-, operation⟩ :=
      processIdlInstruction_operation documented wellFormed within.2 within.1 success
    cases operation with
    | elsewhere other owner_eq data_eq =>
        rw [data_eq]
        cases call.instruction <;> simp [other]
    | write data on_key instruction_eq payload_eq =>
        rw [payload_eq, instruction_eq]
        simp [on_key]
    | setBuffer buffer on_key source_eq payload_eq =>
        refine absurd ⟨?_, on_key⟩ (keeps u s' success)
        unfold Call.source at source_eq
        split at source_eq
        · assumption
        · cases source_eq
    | setAuthority newAuthority on_key instruction_eq payload_eq _ =>
        rw [payload_eq, instruction_eq]
        simp
    | resize dataLen on_key instruction_eq payload_eq =>
        rw [payload_eq, instruction_eq]
        simp
  · have fails : ∀ u s', ¬ (execute runtime call).Succeeds s u s' :=
      fun u s' success => succeeded ⟨u, s', success⟩
    rw [Machine.commit_of_fails _ fails]
    unfold written
    split
    · rename_i u s' data executed _
      exact absurd executed (fails u s')
    · simp

/-- A run without copies: the payload grows by what the successful writes carried. -/
theorem payload_run (documented : runtime.Documented) (wellFormed : WellFormed (s key))
    (calls : List Call) (inScope : Machine.Along (execute runtime) (InScope key) s calls)
    (keeps : Machine.Along (execute runtime) (fun _ call => KeepsPayload key call) s calls) :
    payload (run runtime s calls key).data =
      payload (s key).data ++ successfulWrites runtime key s calls := by
  induction calls generalizing s with
  | nil => simp [successfulWrites, run, Machine.run]
  | cons call rest ih =>
      have step := payload_commit documented wellFormed call inScope.1 keeps.1
      have wellFormed' := wellFormed_run documented wellFormed [call] ⟨inScope.1, trivial⟩
      have tail := ih wellFormed' inScope.2 keeps.2
      calc payload (run runtime s (call :: rest) key).data
          = payload (Machine.commit (execute runtime) s call key).data ++
              successfulWrites runtime key (Machine.commit (execute runtime) s call) rest := tail
        _ = payload (s key).data ++ successfulWrites runtime key s (call :: rest) := by
              rw [step, List.append_assoc]
              rfl

/-- An account whose authority is erased stays as it is. -/
theorem erased_run (documented : runtime.Documented) (wellFormed : WellFormed (s key))
    (erased : readAuthority (s key).data = erasedAuthority.toList) (calls : List Call)
    (inScope : Machine.Along (execute runtime) (InScope key) s calls) :
    readAuthority (run runtime s calls key).data = erasedAuthority.toList := by
  have both := @Machine.run_invariant_along _ _ _ _ (execute runtime)
    (fun s => WellFormed (s key) ∧ readAuthority (s key).data = erasedAuthority.toList)
    (InScope key) s calls ⟨wellFormed, erased⟩ inScope
  refine (both ?_).2
  rintro s call u s' ⟨wellFormed, erased⟩ inScope success
  obtain ⟨wellFormed', operation⟩ :=
    processIdlInstruction_operation documented wellFormed inScope.2 inScope.1 success
  refine ⟨wellFormed', ?_⟩
  by_cases on_key : call.target = some key
  · obtain ⟨authority, -, authorized⟩ := operation_authorized documented success (Or.inl on_key)
    exact absurd erased authorized.not_erased
  · cases operation with
    | elsewhere _ _ data_eq =>
        rw [data_eq]
        exact erased
    | write _ on_key' | setBuffer _ on_key' | setAuthority _ on_key' | resize _ on_key' =>
        exact absurd on_key' on_key

theorem run_split (first : List Call) (call : Call) (rest : List Call) :
    run runtime s (first ++ call :: rest) = run runtime (run runtime s (first ++ [call])) rest := by
  unfold run
  rw [← Machine.run_append, List.append_assoc]
  rfl

end

/-- What is known of an account after calls that follow its creation. -/
structure AccountHistory (runtime : Runtime) (key : Pubkey) (created : Store) (calls : List Call) :
    Prop where
  fits : headerLen + readDataLen (run runtime created calls key).data ≤
    (run runtime created calls key).data.length
  discriminator : Bytes.region (run runtime created calls key).data 0 discriminatorLen =
    idlAccountDiscriminator
  payload_since_creation :
    Machine.Along (execute runtime) (fun _ call => KeepsPayload key call) created calls →
    payload (run runtime created calls key).data = successfulWrites runtime key created calls
  payload_since_copy : ∀ before copy after buffer, calls = before ++ copy :: after →
    copy.target = some key → copy.source = some buffer →
    (execute runtime copy).Succeeds (run runtime created before) ()
      (run runtime created (before ++ [copy])) →
    Machine.Along (execute runtime) (fun _ call => KeepsPayload key call)
      (run runtime created (before ++ [copy])) after →
    payload (run runtime created calls key).data =
      payload (run runtime created before buffer).data ++
        successfulWrites runtime key (run runtime created (before ++ [copy])) after
  authorized : ∀ call u s', call.target = some key ∨ call.source = some key →
    (execute runtime call).Succeeds (run runtime created calls) u s' →
    ∃ authority ∈ call.accounts, Authorized (run runtime created calls key).data authority
  erased : ∀ before erasing after, calls = before ++ erasing :: after →
    erasing.target = some key → erasing.instruction = .setAuthority erasedAuthority →
    (execute runtime erasing).Succeeds (run runtime created before) ()
      (run runtime created (before ++ [erasing])) →
    ∀ call u s', call.target = some key ∨ call.source = some key →
      ¬ (execute runtime call).Succeeds (run runtime created calls) u s'
  failed : ∀ call, (∀ u s', ¬ (execute runtime call).Succeeds (run runtime created calls) u s') →
    run runtime created (calls ++ [call]) = run runtime created calls

/-- After a creation, through every sequence of calls until the account is closed, it has room for
its payload, which is what was written to it since the creation or the last copy of a buffer; every
operation on it is signed by its authority, and there is none once the authority is erased. -/
theorem idl_account_history (runtime : Runtime) (documented : runtime.Documented)
    (start created : Store) (creation : Call) (key : Pubkey)
    (creates : creation.createdKey = some key)
    (success : (execute runtime creation).Succeeds start () created) (calls : List Call)
    (inScope : Machine.Along (execute runtime) (InScope key) created calls) :
    AccountHistory runtime key created calls := by
  obtain ⟨initial, empty⟩ := created_wellFormed documented creates success
  have final := wellFormed_run documented initial calls inScope
  refine ⟨final.fits, final.isIdl.discriminator, ?_, ?_, ?_, ?_, ?_⟩
  · intro keeps
    rw [payload_run documented initial calls inScope keeps, empty, List.nil_append]
  · rintro before copy after buffer rfl on_key source_eq copied keeps
    obtain ⟨scope_before, scope_copy, scope_after⟩ := (Machine.along_append _ _ _ _ _).mp inScope
    have reached := wellFormed_run documented initial before scope_before
    obtain ⟨within, length_small⟩ := scope_copy _ _ copied
    obtain ⟨wellFormed, operation⟩ :=
      processIdlInstruction_operation documented reached length_small within copied
    have copied_eq : Machine.commit (execute runtime) (run runtime created before) copy =
        run runtime created (before ++ [copy]) := Machine.commit_of_succeeds _ copied
    have scope_after' : Machine.Along (execute runtime) (InScope key)
        (run runtime created (before ++ [copy])) after := copied_eq ▸ scope_after
    rw [run_split, payload_run documented wellFormed after scope_after' keeps]
    congr 1
    cases operation with
    | setBuffer other _ other_eq payload_eq =>
        obtain rfl := Option.some.inj (source_eq.symm.trans other_eq)
        exact payload_eq
    | elsewhere other => exact absurd on_key other
    | write _ _ instruction_eq | setAuthority _ _ instruction_eq | resize _ _ instruction_eq =>
        simp [Call.source, instruction_eq] at source_eq
  · intro call u s' used executed
    exact operation_authorized documented executed used
  · rintro before erasing after rfl on_key instruction_eq erased call u s' used executed
    obtain ⟨scope_before, scope_erasing, scope_after⟩ := (Machine.along_append _ _ _ _ _).mp inScope
    have reached := wellFormed_run documented initial before scope_before
    obtain ⟨within, length_small⟩ := scope_erasing _ _ erased
    obtain ⟨wellFormed, operation⟩ :=
      processIdlInstruction_operation documented reached length_small within erased
    have erased_eq : Machine.commit (execute runtime) (run runtime created before) erasing =
        run runtime created (before ++ [erasing]) := Machine.commit_of_succeeds _ erased
    have scope_after' : Machine.Along (execute runtime) (InScope key)
        (run runtime created (before ++ [erasing])) after := erased_eq ▸ scope_after
    have authority_eq : readAuthority (run runtime created (before ++ [erasing]) key).data =
        erasedAuthority.toList := by
      cases operation with
      | setAuthority newAuthority _ instruction_eq' _ authority_eq =>
          rw [instruction_eq] at instruction_eq'
          obtain rfl := IdlInstruction.setAuthority.inj instruction_eq'
          exact authority_eq
      | elsewhere other => exact absurd on_key other
      | write _ _ instruction_eq' | resize _ _ instruction_eq' =>
          simp [instruction_eq] at instruction_eq'
      | setBuffer _ _ source_eq => simp [Call.source, instruction_eq] at source_eq
    rw [run_split] at executed
    have stays := erased_run documented wellFormed authority_eq after scope_after'
    obtain ⟨authority, -, authorized⟩ := operation_authorized documented executed used
    exact authorized.not_erased stays
  · intro call fails
    unfold run
    rw [Machine.run_concat]
    exact Machine.commit_of_fails _ fails

def canonicalIdl : AccountMeta := ⟨AutaraProgram.id, false⟩

def idlCreation : Call :=
  ⟨[publisher, canonicalIdl, canonicalIdl, ⟨zeroedPubkey, false⟩, canonicalIdl], .create 50⟩

def createdIdl : Store := (execute plainRuntime idlCreation (allocatedBuffer 100)).2

def preparedCopy : List Call :=
  [⟨[canonicalIdl, publisher], .write [9]⟩, bufferCreation, ⟨[buffer, publisher], .write [1, 2, 3]⟩]

def idlCopy : Call := ⟨[buffer, canonicalIdl, publisher], .setBuffer⟩

def callsAfterCopy : List Call :=
  [⟨[canonicalIdl, publisher], .write [4, 5]⟩,
    ⟨[canonicalIdl, publisher], .setAuthority (Vector.replicate 32 7)⟩]

theorem copied_idl_holds_writes :
    payload (run plainRuntime createdIdl (preparedCopy ++ idlCopy :: callsAfterCopy)
      AutaraProgram.id).data = [1, 2, 3, 4, 5] := by
  have created : (execute plainRuntime idlCreation).Succeeds (allocatedBuffer 100) () createdIdl :=
    Prod.ext (by decide +kernel) rfl
  have inScope : Machine.Along (execute plainRuntime) (InScope AutaraProgram.id) createdIdl
      (preparedCopy ++ idlCopy :: callsAfterCopy) := by
    refine ⟨fun _ _ _ => ⟨?_, by decide +kernel⟩, fun _ _ _ => ⟨?_, by decide +kernel⟩,
      fun _ _ _ => ⟨?_, by decide +kernel⟩, fun _ _ _ => ⟨?_, by decide +kernel⟩,
      fun _ _ _ => ⟨?_, by decide +kernel⟩, fun _ _ _ => ⟨?_, by decide +kernel⟩, trivial⟩
    all_goals
      intro closes
      cases closes.1
  have history := idl_account_history plainRuntime plainRuntime_documented (allocatedBuffer 100)
    createdIdl idlCreation AutaraProgram.id rfl created _ inScope
  have copied : (execute plainRuntime idlCopy).Succeeds (run plainRuntime createdIdl preparedCopy)
      () (run plainRuntime createdIdl (preparedCopy ++ [idlCopy])) := by
    unfold run
    rw [Machine.run_concat]
    exact Machine.succeeds_of_ok _ (by decide +kernel)
  have keeps : Machine.Along (execute plainRuntime)
      (fun _ call => KeepsPayload AutaraProgram.id call)
      (run plainRuntime createdIdl (preparedCopy ++ [idlCopy])) callsAfterCopy := by
    refine ⟨fun _ _ _ copies => ?_, fun _ _ _ copies => ?_, trivial⟩
    · cases copies.1
    · cases copies.1
  rw [history.payload_since_copy preparedCopy idlCopy callsAfterCopy bufferKey rfl rfl rfl copied
    keeps]
  decide +kernel

end Idl

end AutaraLending
