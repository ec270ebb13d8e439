import AutaraLending.IdlHistory

/-! The client that publishes a document in the canonical IDL account: it creates the account when
there is none, resumes behind what is written, and verifies the result. -/

namespace AutaraLending

open Support

namespace Idl

def idlWriteChunk : Nat := 800

def chunks (size : Nat) (bytes : List UInt8) : List (List UInt8) :=
  (List.range ((bytes.length + size - 1) / size)).map fun i => (bytes.drop (i * size)).take size

/-- How a run of the client ends early. -/
inductive PublishError where
  | address
  | transaction (failure : ProgramFailure)
  | missing
  | accountTooSmall
  | otherDocument (written : Nat)
  | unverified (dataLen : Nat)
  | panicked
  deriving DecidableEq, Repr

abbrev Client := Method PublishError Store

section

variable (runtime : Runtime) (authority : Pubkey) (compressed : List UInt8)

def readAccountInfo (key : Pubkey) (s : Store) : Option Account :=
  if s key = ⟨runtime.systemProgramId, 0, []⟩ then none else some (s key)

def deriveIdlAccount : Except PublishError (Pubkey × Pubkey) :=
  let (base, _) := runtime.findProgramAddress [] AutaraProgram.id
  match runtime.createWithSeed base idlSeed AutaraProgram.id with
  | some idl => .ok (idl, base)
  | none => .error .address

def createCall (idl base : Pubkey) : Call where
  accounts := [⟨authority, true⟩, ⟨idl, false⟩, ⟨base, false⟩, ⟨runtime.systemProgramId, false⟩,
    ⟨AutaraProgram.id, false⟩]
  instruction := .create (UInt64.ofNat compressed.length)

def writeCall (idl : Pubkey) (chunk : List UInt8) : Call where
  accounts := [⟨idl, false⟩, ⟨authority, true⟩]
  instruction := .write chunk

def writeCalls (idl : Pubkey) (rest : List UInt8) : List Call :=
  (chunks idlWriteChunk rest).map (writeCall authority idl)

/-- The transactions that a run sends, from what it reads: a creation and all writes, or the writes
behind the part of the document that is there. -/
def plan (idl base : Pubkey) (s : Store) : Except PublishError (List Call) :=
  match readAccountInfo runtime idl s with
  | none =>
      .ok (createCall runtime authority compressed idl base :: writeCalls authority idl compressed)
  | some acc =>
      let written := readDataLen acc.data
      if acc.data.length < headerLen then .error .accountTooSmall
      else if compressed.length < written then .error (.otherDocument written)
      else if acc.data.length < headerLen + written then .error .panicked
      else if compressed.take written ≠ payload acc.data then .error (.otherDocument written)
      else .ok (writeCalls authority idl (compressed.drop written))

def sendIx (call : Call) : Client Unit := fun s =>
  ((execute runtime call s).1.mapError .transaction, Machine.commit (execute runtime) s call)

def sendAll : List Call → Client Unit
  | [] => pure ()
  | call :: rest => do
      sendIx runtime call
      sendAll rest

def verify (idl : Pubkey) : Client Unit := do
  let s ← Method.self
  match readAccountInfo runtime idl s with
  | none => Method.fail .missing
  | some acc => do
      let dataLen := readDataLen acc.data
      Method.rejectIf (acc.data.length < headerLen) .accountTooSmall
      Method.rejectIf (dataLen ≠ compressed.length) (.unverified dataLen)
      Method.rejectIf (acc.data.length < headerLen + dataLen) .panicked
      Method.rejectIf (payload acc.data ≠ compressed) (.unverified dataLen)

def publishIdl : Client Pubkey := do
  let (idl, base) ← Method.lift (deriveIdlAccount runtime)
  let s ← Method.self
  let calls ← Method.lift (plan runtime authority compressed idl base s)
  sendAll runtime calls
  verify runtime compressed idl
  pure idl

def interruptedPublishIdl (count : Nat) : Client Unit := do
  let (idl, base) ← Method.lift (deriveIdlAccount runtime)
  let s ← Method.self
  let calls ← Method.lift (plan runtime authority compressed idl base s)
  sendAll runtime (calls.take count)

/-- The chain after runs that were interrupted. -/
def afterInterruptions (s : Store) (counts : List Nat) : Store :=
  counts.foldl (fun s count => (interruptedPublishIdl runtime authority compressed count s).2) s

end

/-! The chunks make up the document. -/

theorem flatten_chunks (size : Nat) (positive : 0 < size) (bytes : List UInt8) :
    (chunks size bytes).flatten = bytes := by
  have pieces (count : Nat) :
      ((List.range count).map fun i => (bytes.drop (i * size)).take size).flatten =
        bytes.take (count * size) := by
    induction count with
    | zero => simp
    | succ count ih =>
        rw [List.range_succ, List.map_append, List.flatten_append, ih, Nat.succ_mul, List.take_add]
        simp
  unfold chunks
  rw [pieces]
  apply List.take_of_length_le
  have divided := Nat.div_add_mod (bytes.length + size - 1) size
  have remainder := Nat.mod_lt (bytes.length + size - 1) positive
  rw [Nat.mul_comm]
  omega

/-! Publishing under way. -/

structure Underway (authority : Pubkey) (compressed : List UInt8) (idl : Pubkey) (s : Store) : Prop
    where
  wellFormed : WellFormed (s idl)
  authority_eq : readAuthority (s idl).data = authority.toList
  begun : payload (s idl).data <+: compressed
  length_eq : (s idl).data.length = createdSpace (UInt64.ofNat compressed.length)

section

variable {runtime : Runtime} {authority : Pubkey} {compressed : List UInt8} {idl base : Pubkey}
  {start s s' : Store} {u : Unit}

theorem createdSpace_le (dataLen : U64) : createdSpace dataLen ≤ maxSpacePerOp :=
  Nat.min_le_right _ _

theorem createdSpace_of_fits (fits : headerLen + compressed.length ≤ maxSpacePerOp) :
    createdSpace (UInt64.ofNat compressed.length) = headerLen + compressed.length := by
  simp only [headerLen, discriminatorLen, maxSpacePerOp] at fits
  have sum : (UInt64.ofNat headerLen + UInt64.ofNat compressed.length).toNat =
      headerLen + compressed.length := by
    rw [UInt64.toNat_add, UInt64.toNat_ofNat', UInt64.toNat_ofNat']
    simp only [headerLen, discriminatorLen]
    omega
  unfold createdSpace
  rw [sum]
  simp only [headerLen, discriminatorLen, maxSpacePerOp]
  omega

theorem Underway.small (underway : Underway authority compressed idl s) :
    (s idl).data.length < 2 ^ 32 := by
  have cap := createdSpace_le (UInt64.ofNat compressed.length)
  rw [underway.length_eq]
  exact lt_of_le_of_lt cap (by decide)

theorem created_underway (documented : runtime.Documented)
    (success : (execute runtime (createCall runtime authority compressed idl base)).Succeeds s u
      s') :
    Underway authority compressed idl s' ∧ payload (s' idl).data = [] := by
  have creates : (createCall runtime authority compressed idl base).createdKey = some idl := rfl
  obtain ⟨wellFormed, empty⟩ := created_wellFormed documented creates success
  obtain ⟨-, size, creator, created_by, authority_eq⟩ :=
    processIdlInstruction_created runtime documented _ _ s s' u idl creates success
  obtain rfl : authority = creator := Option.some.inj created_by
  refine ⟨⟨wellFormed, authority_eq, ?_, size⟩, empty⟩
  rw [empty]
  exact List.nil_prefix

theorem execute_writeCall (chunk : List UInt8) :
    execute runtime (writeCall authority idl chunk) =
      idlWrite AutaraProgram.id chunk [⟨idl, false⟩, ⟨authority, true⟩] := rfl

theorem written_underway (documented : runtime.Documented)
    (underway : Underway authority compressed idl s) (chunk : List UInt8)
    (next : payload (s idl).data ++ chunk <+: compressed)
    (success : (execute runtime (writeCall authority idl chunk)).Succeeds s u s') :
    Underway authority compressed idl s' ∧
      payload (s' idl).data = payload (s idl).data ++ chunk := by
  have unclosed : ¬ (writeCall authority idl chunk).Closes idl := fun closes => nomatch closes.1
  obtain ⟨wellFormed, operation⟩ := processIdlInstruction_operation documented underway.wellFormed
    underway.small unclosed success
  have payload_eq : payload (s' idl).data = payload (s idl).data ++ chunk := by
    cases operation with
    | elsewhere other => exact absurd rfl other
    | write data _ instruction_eq payload_eq =>
        obtain rfl := IdlInstruction.write.inj instruction_eq
        exact payload_eq
    | setBuffer _ _ source_eq => cases source_eq
    | setAuthority _ _ instruction_eq => cases instruction_eq
    | resize _ _ instruction_eq => cases instruction_eq
  rw [execute_writeCall] at success
  obtain ⟨account, _, _, shape, -, -, fits, rfl⟩ := idlWrite_succeeds _ _ _ _ _ _ success
  obtain rfl : ⟨idl, false⟩ = account := (List.cons.inj shape).1
  obtain ⟨length_eq, before⟩ := region_payload_write (s idl).data
    (headerLen + readDataLen (s idl).data) chunk (readDataLen (s idl).data + chunk.length)
    (by omega) (by simpa [Nat.add_assoc] using fits)
  refine ⟨⟨wellFormed, ?_, payload_eq ▸ next, ?_⟩, payload_eq⟩
  · rw [Function.update_self]
    exact (before _ _ (by decide)).trans underway.authority_eq
  · rw [Function.update_self]
    exact length_eq.trans underway.length_eq

variable (runtime) in
theorem write_accepted (nonzero : authority ≠ erasedAuthority)
    (underway : Underway authority compressed idl s) (chunk : List UInt8)
    (fits : headerLen + (readDataLen (s idl).data + chunk.length) ≤ (s idl).data.length) :
    ∃ s', (execute runtime (writeCall authority idl chunk)).Succeeds s () s' := by
  have authorized : Authorized (s idl).data ⟨authority, true⟩ :=
    ⟨rfl, nonzero, underway.authority_eq⟩
  have small := underway.small
  refine ⟨Function.update s idl
    { s idl with
      data := writeDataLen (Bytes.overwrite (s idl).data (headerLen + readDataLen (s idl).data)
        chunk) (readDataLen (s idl).data + chunk.length) }, ?_⟩
  rw [execute_writeCall]
  simp only [idlWrite, Method.succeeds_bind, rejectIf_succeeds, load_succeeds, save_succeeds,
    checkOwnedIdl_succeeds, checkAuthority_succeeds, not_lt]
  refine ⟨(), s, ⟨underway.wellFormed.isIdl, rfl⟩, (), s, ⟨authorized, rfl⟩, s idl, s, ⟨rfl, rfl⟩,
    (), s, ⟨?_, rfl⟩, (), s, ⟨fits, rfl⟩, rfl⟩
  omega

theorem execute_createCall : execute runtime (createCall runtime authority compressed idl base) =
    idlCreateAccount runtime AutaraProgram.id (UInt64.ofNat compressed.length)
      [⟨authority, true⟩, ⟨idl, false⟩, ⟨base, false⟩, ⟨runtime.systemProgramId, false⟩,
        ⟨AutaraProgram.id, false⟩] := rfl

/-- The creation that the client asks the system program for. -/
def creationInvocation (runtime : Runtime) (authority : Pubkey) (compressed : List UInt8)
    (idl : Pubkey) (s : Store) : Except ProgramError Store :=
  let (base, bump) := runtime.findProgramAddress [] AutaraProgram.id
  let space := createdSpace (UInt64.ofNat compressed.length)
  runtime.invokeSigned (.createAccountWithSeed authority idl base idlSeed
    (runtime.minimumRent space) space AutaraProgram.id)
    [⟨authority, true⟩, ⟨idl, false⟩, ⟨base, false⟩, ⟨runtime.systemProgramId, false⟩] [[bump]] s

theorem create_accepted (documented : runtime.Documented)
    (derived : idlAddress runtime AutaraProgram.id = some idl)
    (fits : headerLen + compressed.length ≤ maxSpacePerOp)
    (funded : ∃ allocated, creationInvocation runtime authority compressed idl s = .ok allocated) :
    ∃ s', (execute runtime (createCall runtime authority compressed idl
      (runtime.findProgramAddress [] AutaraProgram.id).1)).Succeeds s () s' := by
  obtain ⟨allocated, invoked⟩ := funded
  obtain ⟨-, -, zeroed, -⟩ := documented.created _ _ _ _ _ _ _ _ _ _ _ invoked
  have room : headerLen ≤ (allocated idl).data.length := by
    rw [zeroed, List.length_replicate, createdSpace_of_fits fits]
    omega
  refine ⟨Function.update allocated idl
    { allocated idl with data := writeHeader (allocated idl).data authority }, ?_⟩
  rw [execute_createCall]
  simp only [idlCreateAccount, Method.succeeds_bind, rejectIf_succeeds, deriveIdl_succeeds,
    invokeSigned_succeeds, load_succeeds, save_succeeds, Bool.not_eq_false, not_or, not_not, not_lt]
  exact ⟨(), s, ⟨trivial, rfl⟩, (), s, ⟨trivial, rfl⟩,
    (idl, runtime.findProgramAddress [] AutaraProgram.id), s, ⟨derived, rfl, rfl⟩, (), s,
      ⟨⟨rfl, rfl⟩, rfl⟩, (), allocated, invoked, _, _, ⟨rfl, rfl⟩, (), _,
    ⟨room, rfl⟩, rfl⟩

theorem sendAll_cons_of_succeeds {call : Call} (rest : List Call)
    (success : (execute runtime call).Succeeds s u s') :
    sendAll runtime (call :: rest) s = sendAll runtime rest s' := by
  have executed : execute runtime call s = (.ok u, s') := success
  simp only [sendAll, Bind.bind, sendIx, executed, Machine.commit_of_succeeds _ success,
    Except.mapError]

theorem sendAll_cons_of_fails {call : Call} (rest : List Call)
    (fails : ∀ u s', ¬ (execute runtime call).Succeeds s u s') :
    (sendAll runtime (call :: rest) s).2 = s ∧
      ∀ u s', ¬ (sendAll runtime (call :: rest)).Succeeds s u s' := by
  have kept := Machine.commit_of_fails (execute runtime) fails
  cases executed : execute runtime call s with
  | mk result t =>
      cases result with
      | ok u => exact absurd executed (fails u t)
      | error e =>
          have outcome : sendAll runtime (call :: rest) s = (.error (.transaction e), s) := by
            simp only [sendAll, Bind.bind, sendIx, executed, kept, Except.mapError]
          refine ⟨by rw [outcome], fun u s' success => ?_⟩
          rw [Method.Succeeds, outcome] at success
          cases success

theorem sendWrites_underway (documented : runtime.Documented) (pieces : List (List UInt8))
    (underway : Underway authority compressed idl s)
    (next : payload (s idl).data ++ pieces.flatten <+: compressed) :
    Underway authority compressed idl
      (sendAll runtime (pieces.map (writeCall authority idl)) s).2 := by
  induction pieces generalizing s with
  | nil => exact underway
  | cons chunk rest ih =>
      rw [List.flatten_cons, ← List.append_assoc] at next
      by_cases accepted : ∃ u s', (execute runtime (writeCall authority idl chunk)).Succeeds s u s'
      · obtain ⟨u, s', success⟩ := accepted
        obtain ⟨underway', payload_eq⟩ := written_underway documented underway chunk
          ((List.prefix_append _ _).trans next) success
        rw [List.map_cons, sendAll_cons_of_succeeds _ success]
        exact ih underway' (payload_eq ▸ next)
      · rw [List.map_cons, (sendAll_cons_of_fails _
          (fun u s' success => accepted ⟨u, s', success⟩)).1]
        exact underway

theorem sendWrites_accepted (documented : runtime.Documented)
    (nonzero : authority ≠ erasedAuthority)
    (fits : headerLen + compressed.length ≤ maxSpacePerOp) (pieces : List (List UInt8))
    (underway : Underway authority compressed idl s)
    (next : payload (s idl).data ++ pieces.flatten <+: compressed) :
    ∃ s', (sendAll runtime (pieces.map (writeCall authority idl))).Succeeds s () s' ∧
      Underway authority compressed idl s' ∧
      payload (s' idl).data = payload (s idl).data ++ pieces.flatten := by
  induction pieces generalizing s with
  | nil => exact ⟨s, rfl, underway, by simp⟩
  | cons chunk rest ih =>
      have room : headerLen + (readDataLen (s idl).data + chunk.length) ≤ (s idl).data.length := by
        have whole := next.length_le
        have length_eq := length_payload _ underway.wellFormed.fits
        rw [underway.length_eq, createdSpace_of_fits fits]
        simp only [List.flatten_cons, List.length_append] at whole
        omega
      rw [List.flatten_cons, ← List.append_assoc] at next
      obtain ⟨sent, success⟩ := write_accepted runtime nonzero underway chunk room
      obtain ⟨underway', payload_eq⟩ := written_underway documented underway chunk
        ((List.prefix_append _ _).trans next) success
      obtain ⟨s', sent_all, final, final_eq⟩ := ih underway' (payload_eq ▸ next)
      refine ⟨s', ?_, final, ?_⟩
      · rw [Method.Succeeds, List.map_cons, sendAll_cons_of_succeeds _ success]
        exact sent_all
      · rw [final_eq, payload_eq, List.flatten_cons, List.append_assoc]

def Ready (start : Store) (authority : Pubkey) (compressed : List UInt8) (idl : Pubkey)
    (s : Store) : Prop :=
  s = start ∨ Underway authority compressed idl s

theorem flatten_take_begins (pieces : List (List UInt8)) (count : Nat) :
    (pieces.take count).flatten <+: pieces.flatten := by
  refine ⟨(pieces.drop count).flatten, ?_⟩
  rw [← List.flatten_append, List.take_append_drop]

theorem plan_start (absent : start idl = ⟨runtime.systemProgramId, 0, []⟩) :
    plan runtime authority compressed idl base start =
      .ok (createCall runtime authority compressed idl base :: writeCalls authority idl
        compressed) := by
  simp [plan, readAccountInfo, absent]

theorem Underway.read (underway : Underway authority compressed idl s) :
    readAccountInfo runtime idl s = some (s idl) := by
  unfold readAccountInfo
  rw [if_neg]
  intro same
  have header := underway.wellFormed.isIdl.header
  rw [same] at header
  exact absurd header (show ¬ headerLen ≤ 0 by decide)

theorem Underway.payload_eq (underway : Underway authority compressed idl s) :
    payload (s idl).data = compressed.take (readDataLen (s idl).data) := by
  rw [← length_payload _ underway.wellFormed.fits]
  exact List.prefix_iff_eq_take.mp underway.begun

theorem plan_underway (underway : Underway authority compressed idl s) :
    plan runtime authority compressed idl base s =
      .ok (writeCalls authority idl (compressed.drop (readDataLen (s idl).data))) := by
  have written := underway.begun.length_le
  rw [length_payload _ underway.wellFormed.fits] at written
  simp only [plan, underway.read]
  rw [if_neg (not_lt.mpr underway.wellFormed.isIdl.header), if_neg (not_lt.mpr written),
    if_neg (not_lt.mpr underway.wellFormed.fits), if_neg (not_not.mpr underway.payload_eq.symm)]

theorem Underway.next (underway : Underway authority compressed idl s) (count : Nat) :
    payload (s idl).data ++ ((chunks idlWriteChunk
      (compressed.drop (readDataLen (s idl).data))).take count).flatten <+: compressed := by
  have rest := flatten_take_begins
    (chunks idlWriteChunk (compressed.drop (readDataLen (s idl).data))) count
  rw [flatten_chunks _ (by decide)] at rest
  have joined := (List.prefix_append_right_inj
    (compressed.take (readDataLen (s idl).data))).mpr rest
  rw [List.take_append_drop] at joined
  rw [underway.payload_eq]
  exact joined

variable (base) in
/-- A run sends its plan as far as it gets, and leaves a chain from which the next one resumes. -/
theorem plan_ready (documented : runtime.Documented)
    (absent : start idl = ⟨runtime.systemProgramId, 0, []⟩)
    (ready : Ready start authority compressed idl s) :
    ∃ calls, plan runtime authority compressed idl base s = .ok calls ∧
      ∀ count, Ready start authority compressed idl (sendAll runtime (calls.take count) s).2 := by
  rcases ready with rfl | underway
  · refine ⟨_, plan_start absent, fun count => ?_⟩
    cases count with
    | zero => exact Or.inl rfl
    | succ count =>
        rw [List.take_succ_cons]
        by_cases accepted : ∃ u s', (execute runtime
            (createCall runtime authority compressed idl base)).Succeeds s u s'
        · obtain ⟨u, s', success⟩ := accepted
          obtain ⟨underway, empty⟩ := created_underway documented success
          rw [sendAll_cons_of_succeeds _ success, writeCalls, ← List.map_take]
          apply Or.inr
          apply sendWrites_underway documented _ underway
          rw [empty, List.nil_append]
          have first := flatten_take_begins (chunks idlWriteChunk compressed) count
          rw [flatten_chunks _ (by decide)] at first
          exact first
        · exact Or.inl (sendAll_cons_of_fails _
            (fun u s' success => accepted ⟨u, s', success⟩)).1
  · refine ⟨_, plan_underway underway, fun count => Or.inr ?_⟩
    rw [writeCalls, ← List.map_take]
    exact sendWrites_underway documented _ underway (underway.next count)

/-- A run for a document that fits sends its whole plan. -/
theorem plan_completes (documented : runtime.Documented) (nonzero : authority ≠ erasedAuthority)
    (derived : idlAddress runtime AutaraProgram.id = some idl)
    (fits : headerLen + compressed.length ≤ maxSpacePerOp)
    (absent : start idl = ⟨runtime.systemProgramId, 0, []⟩)
    (funded : ∃ allocated, creationInvocation runtime authority compressed idl start =
      .ok allocated)
    (ready : Ready start authority compressed idl s) :
    ∃ calls s', plan runtime authority compressed idl
        (runtime.findProgramAddress [] AutaraProgram.id).1 s = .ok calls ∧
      (sendAll runtime calls).Succeeds s () s' ∧ Underway authority compressed idl s' ∧
      payload (s' idl).data = compressed := by
  rcases ready with rfl | underway
  · obtain ⟨created, success⟩ := create_accepted documented derived fits funded
    obtain ⟨underway, empty⟩ := created_underway documented success
    have whole : payload (created idl).data ++ (chunks idlWriteChunk compressed).flatten <+:
        compressed := by
      rw [empty, List.nil_append, flatten_chunks _ (by decide)]
    obtain ⟨s', sent, underway', payload_eq⟩ :=
      sendWrites_accepted documented nonzero fits (chunks idlWriteChunk compressed) underway whole
    refine ⟨_, s', plan_start absent, ?_, underway', ?_⟩
    · rw [Method.Succeeds, sendAll_cons_of_succeeds _ success]
      exact sent
    · rw [payload_eq, empty, List.nil_append, flatten_chunks _ (by decide)]
  · have whole := underway.next
      (chunks idlWriteChunk (compressed.drop (readDataLen (s idl).data))).length
    rw [List.take_length] at whole
    obtain ⟨s', sent, underway', payload_eq⟩ :=
      sendWrites_accepted documented nonzero fits _ underway whole
    refine ⟨_, s', plan_underway underway, sent, underway', ?_⟩
    rw [payload_eq, flatten_chunks _ (by decide), underway.payload_eq, List.take_append_drop]

theorem verify_succeeds (underway : Underway authority compressed idl s) :
    (verify runtime compressed idl).Succeeds s u s' ↔
      payload (s idl).data = compressed ∧ s = s' := by
  have header := underway.wellFormed.isIdl.header
  have room := underway.wellFormed.fits
  have length_eq := length_payload _ room
  simp only [verify, Method.succeeds_bind, Method.succeeds_self]
  constructor
  · rintro ⟨_, _, ⟨rfl, rfl⟩, verified⟩
    simp only [underway.read, Method.succeeds_bind, Method.succeeds_rejectIf, not_not] at verified
    obtain ⟨_, _, ⟨-, rfl⟩, _, _, ⟨-, rfl⟩, _, _, ⟨-, rfl⟩, same, rfl⟩ := verified
    exact ⟨same, rfl⟩
  · rintro ⟨same, rfl⟩
    refine ⟨s, s, ⟨rfl, rfl⟩, ?_⟩
    simp only [underway.read, Method.succeeds_bind, Method.succeeds_rejectIf, not_not, not_lt]
    refine ⟨(), s, ⟨header, rfl⟩, (), s, ⟨?_, rfl⟩, (), s, ⟨room, rfl⟩, same, rfl⟩
    rw [← length_eq, same]

theorem deriveIdlAccount_eq (derived : idlAddress runtime AutaraProgram.id = some idl) :
    deriveIdlAccount runtime =
      .ok (idl, (runtime.findProgramAddress [] AutaraProgram.id).1) := by
  unfold idlAddress at derived
  simp only [deriveIdlAccount, derived]

theorem afterInterruptions_ready (documented : runtime.Documented)
    (derived : idlAddress runtime AutaraProgram.id = some idl)
    (absent : start idl = ⟨runtime.systemProgramId, 0, []⟩) (counts : List Nat)
    (ready : Ready start authority compressed idl s) :
    Ready start authority compressed idl
      (afterInterruptions runtime authority compressed s counts) := by
  induction counts generalizing s with
  | nil => exact ready
  | cons count rest ih =>
      obtain ⟨calls, planned, sent⟩ := plan_ready
        (runtime.findProgramAddress [] AutaraProgram.id).1 documented absent ready
      have run_eq : interruptedPublishIdl runtime authority compressed count s =
          sendAll runtime (calls.take count) s := by
        simp only [interruptedPublishIdl, Bind.bind, Method.lift, deriveIdlAccount_eq derived,
          Method.self, planned]
      have after : Ready start authority compressed idl
          (interruptedPublishIdl runtime authority compressed count s).2 := by
        rw [run_eq]
        exact sent count
      exact ih after

theorem publishIdl_succeeds (derived : idlAddress runtime AutaraProgram.id = some idl)
    (key : Pubkey) :
    (publishIdl runtime authority compressed).Succeeds s key s' ↔
      key = idl ∧ ∃ calls t, plan runtime authority compressed idl
          (runtime.findProgramAddress [] AutaraProgram.id).1 s = .ok calls ∧
        (sendAll runtime calls).Succeeds s () t ∧
        (verify runtime compressed idl).Succeeds t () s' := by
  simp only [publishIdl, Method.succeeds_bind, Method.succeeds_lift, Method.succeeds_self,
    Method.succeeds_pure, deriveIdlAccount_eq derived, Except.ok.injEq]
  constructor
  · rintro ⟨_, _, ⟨rfl, rfl⟩, _, _, ⟨rfl, rfl⟩, calls, _, ⟨planned, rfl⟩, _, t, sent, _, _,
      verified, rfl, rfl⟩
    exact ⟨rfl, calls, t, planned, sent, verified⟩
  · rintro ⟨rfl, calls, t, planned, sent, verified⟩
    exact ⟨_, s, ⟨rfl, rfl⟩, s, s, ⟨rfl, rfl⟩, calls, s, ⟨planned, rfl⟩, (), t, sent, (), s',
      verified, rfl, rfl⟩

/-- No run for a document beyond the cap of the creation is verified. -/
theorem publishIdl_fails (documented : runtime.Documented)
    (derived : idlAddress runtime AutaraProgram.id = some idl)
    (absent : start idl = ⟨runtime.systemProgramId, 0, []⟩)
    (long : maxSpacePerOp < headerLen + compressed.length)
    (ready : Ready start authority compressed idl s) (key : Pubkey) :
    ¬ (publishIdl runtime authority compressed).Succeeds s key s' := by
  intro success
  obtain ⟨-, calls, t, planned, sent, verified⟩ := (publishIdl_succeeds derived key).mp success
  obtain ⟨calls', planned', kept⟩ := plan_ready
    (runtime.findProgramAddress [] AutaraProgram.id).1 documented absent ready
  obtain rfl := Except.ok.inj (planned.symm.trans planned')
  have after := kept calls.length
  rw [List.take_length, show (sendAll runtime calls s).2 = t from congrArg Prod.snd sent] at after
  rcases after with rfl | underway
  · -- nothing was created, so there is nothing to verify
    simp only [verify, Method.succeeds_bind, Method.succeeds_self] at verified
    obtain ⟨_, _, ⟨rfl, rfl⟩, read⟩ := verified
    simp [readAccountInfo, absent, Method.succeeds_fail] at read
  · obtain ⟨whole, -⟩ := (verify_succeeds underway).mp verified
    have room := underway.wellFormed.fits
    have cap := createdSpace_le (UInt64.ofNat compressed.length)
    rw [underway.length_eq, ← length_payload _ underway.wellFormed.fits, whole] at room
    omega

end

/-- Publishing completes after any interruptions exactly when the account that the handler creates
has room for the document, which the client never enlarges. -/
theorem publish_completes_iff (runtime : Runtime) (documented : runtime.Documented)
    (authority : Pubkey) (nonzero : authority ≠ erasedAuthority) (compressed : List UInt8)
    (idl : Pubkey) (derived : idlAddress runtime AutaraProgram.id = some idl) (start : Store)
    (absent : start idl = ⟨runtime.systemProgramId, 0, []⟩)
    (funded : ∃ allocated, creationInvocation runtime authority compressed idl start =
      .ok allocated)
    (interruptions : List Nat) :
    (∃ s', (publishIdl runtime authority compressed).Succeeds
        (afterInterruptions runtime authority compressed start interruptions) idl s' ∧
      payload (s' idl).data = compressed) ↔ headerLen + compressed.length ≤ maxSpacePerOp := by
  have ready := afterInterruptions_ready documented derived absent interruptions
    (Or.inl rfl : Ready start authority compressed idl start)
  constructor
  · rintro ⟨s', success, -⟩
    by_contra long
    exact publishIdl_fails documented derived absent (not_le.mp long) ready idl success
  · intro fits
    obtain ⟨calls, s', planned, sent, underway, whole⟩ :=
      plan_completes documented nonzero derived fits absent funded ready
    refine ⟨s', (publishIdl_succeeds derived idl).mpr ⟨rfl, calls, s', planned, sent, ?_⟩, whole⟩
    exact (verify_succeeds underway).mpr ⟨whole, rfl⟩

def emptyStore : Store := fun _ => ⟨zeroedPubkey, 0, []⟩

theorem short_document_completes :
    ∃ s', (publishIdl plainRuntime (Vector.replicate 32 1) (List.replicate 1000 7)).Succeeds
        (afterInterruptions plainRuntime (Vector.replicate 32 1) (List.replicate 1000 7) emptyStore
          [0, 1, 1]) AutaraProgram.id s' ∧
      payload (s' AutaraProgram.id).data = List.replicate 1000 7 := by
  apply (publish_completes_iff plainRuntime plainRuntime_documented (Vector.replicate 32 1)
    (by decide) (List.replicate 1000 7) AutaraProgram.id rfl emptyStore rfl ⟨_, rfl⟩ [0, 1, 1]).mpr
  rw [List.length_replicate]
  decide

/-- One byte more than the creation has room for. -/
theorem long_document_fails :
    idlAddress plainRuntime AutaraProgram.id = some AutaraProgram.id ∧
      ¬ ∃ s', (publishIdl plainRuntime (Vector.replicate 32 1) (List.replicate 9957 7)).Succeeds
        (afterInterruptions plainRuntime (Vector.replicate 32 1) (List.replicate 9957 7) emptyStore
          []) AutaraProgram.id s' := by
  refine ⟨rfl, ?_⟩
  rintro ⟨s', success⟩
  have long : maxSpacePerOp < headerLen + (List.replicate 9957 (7 : UInt8)).length := by
    rw [List.length_replicate]
    decide
  have ready : Ready emptyStore (Vector.replicate 32 1) (List.replicate 9957 7) AutaraProgram.id
      emptyStore := Or.inl rfl
  exact publishIdl_fails plainRuntime_documented rfl rfl long ready _ success

end Idl

end AutaraLending
