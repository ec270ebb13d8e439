import AutaraLending.Idl

/-! The oracle program: the feed accounts that hold a price, the identifier of what is priced, and
the key that may push prices. -/

namespace AutaraLending.PriceFeed

open Support Idl

/-- The chain as the oracle program uses it, with the creation of accounts at derived addresses. -/
structure OracleRuntime extends Runtime where
  createAccount : (source target : Pubkey) → (lamports : U64) → (space : Nat) → (owner : Pubkey) →
    List AccountMeta → List (List UInt8) → Store → Except ProgramError Store

/-- The documented behaviour, as for the handler of IDL accounts: the system program creates an
account where there is no data, and changes no other. -/
structure OracleRuntime.Documented (runtime : OracleRuntime) : Prop
    extends runtime.toRuntime.Documented where
  allocated : ∀ source target lamports space owner accounts seeds s s',
    runtime.createAccount source target lamports space owner accounts seeds s = .ok s' →
    (s target).data = [] ∧
      ∀ key, key ≠ target → (s' key).owner = (s key).owner ∧ (s' key).data = (s key).data

/-! The layout of `PythPrice`, which `PythPriceAccount` extends by the authority. -/

def pythPriceLen : Nat := 120

def pythPriceAccountLen : Nat := pythPriceLen + 32

def pricePublishTimeOffset : Nat := 56

def emaPricePublishTimeOffset : Nat := 88

def pythPriceId (data : List UInt8) : List UInt8 := Bytes.region data 0 32

def feedAuthority (data : List UInt8) : List UInt8 :=
  Bytes.region data pythPriceLen pythPriceAccountLen

def writePythPrice (pythData : List UInt8) (unixTimestamp : Int64) (oracleData : List UInt8) :
    List UInt8 :=
  let time := Bytes.ofUInt64 unixTimestamp.toUInt64
  Bytes.overwrite (Bytes.overwrite (Bytes.overwrite oracleData 0 pythData) pricePublishTimeOffset
    time) emaPricePublishTimeOffset time

abbrev OracleData := Method ProgramFailure (List UInt8)

/-- The signer that creates a feed becomes its authority. On every later push the authority is
checked, and then the identifier. -/
def bindOrCheckAuthority (signer : Pubkey) (pythData : List UInt8) (justCreated : Bool) :
    OracleData Unit := do
  let oracleData ← Method.self
  if justCreated then
    Method.assign (Bytes.overwrite oracleData pythPriceLen signer.toList)
  else if feedAuthority oracleData ≠ signer.toList then
    Method.fail (.error .incorrectAuthority)
  else if pythPriceId oracleData ≠ pythPriceId pythData then
    Method.fail (.error .invalidArgument)
  else pure ()

def applyPriceUpdate (signer : Pubkey) (pythData : List UInt8) (justCreated : Bool)
    (unixTimestamp : Int64) : OracleData Unit := do
  bindOrCheckAuthority signer pythData justCreated
  let oracleData ← Method.self
  Method.assign (writePythPrice pythData unixTimestamp oracleData)

def createAccount (runtime : OracleRuntime) (source target : Pubkey) (lamports : U64) (space : Nat)
    (owner : Pubkey) (accounts : List AccountMeta) (seeds : List (List UInt8)) : Handler Unit := do
  let store ← Method.self
  let next ← ofResult
    (runtime.createAccount source target lamports space owner accounts seeds store)
  Method.assign next

def payRent (runtime : OracleRuntime) (accounts : List AccountMeta) (signer oracle : Pubkey)
    (current required : U64) : Handler Unit :=
  if current < required then
    invokeSigned runtime.toRuntime (.transfer signer oracle (required - current)) accounts []
  else pure ()

/-- Create a feed account, or grow one of the layout without an authority. Whether the feed counts
as created, which a grown one does. -/
def ensureFeedAccount (runtime : OracleRuntime) (programId : Pubkey) (accounts : List AccountMeta)
    (signer oracle : AccountMeta) (feedId : List UInt8) : Handler Bool := do
  let newLen := pythPriceAccountLen
  let account ← load oracle
  if account.owner ≠ programId then do
    let (_, bump) := runtime.findProgramAddress [feedId] programId
    createAccount runtime signer.key oracle.key (runtime.minimumRent newLen) newLen programId
      accounts [feedId, [bump]]
    pure true
  else if account.data.length = pythPriceLen then do
    payRent runtime accounts signer.key oracle.key account.lamports (runtime.minimumRent newLen)
    realloc runtime.toRuntime oracle newLen
    pure true
  else do
    rejectIf (account.data.length ≠ newLen) .invalidAccountData
    pure false

/-- A push of a price: the accounts and the data of the instruction, and the time of the chain. -/
structure Call where
  accounts : List AccountMeta
  instructionData : List UInt8
  unixTimestamp : Int64

/-- `try_from_bytes` asks for the size of a price. The cast of the account and the clock at zero
panic. -/
def processInstruction (runtime : OracleRuntime) (programId : Pubkey) (call : Call) :
    Handler Unit :=
  match call.accounts with
  | signer :: oracle :: _ => do
      rejectIf (signer.isSigner = false) .missingRequiredSignature
      rejectIf (call.instructionData.length ≠ pythPriceLen) .invalidInstructionData
      let justCreated ← ensureFeedAccount runtime programId call.accounts signer oracle
        (pythPriceId call.instructionData)
      let account ← load oracle
      Method.rejectIf (account.data.length ≠ pythPriceAccountLen) .panicked
      Method.rejectIf (call.unixTimestamp = 0) .panicked
      let outcome := applyPriceUpdate signer.key call.instructionData justCreated
        call.unixTimestamp account.data
      save oracle { account with data := outcome.2 }
      Method.lift outcome.1
  | _ => fail .notEnoughAccountKeys

/-! What a push leaves in the bytes of a feed. -/

theorem overwrite_spec (data patch : List UInt8) (start stop : Nat)
    (stop_eq : stop = start + patch.length) (inside : stop ≤ data.length) :
    (Bytes.overwrite data start patch).length = data.length ∧
      Bytes.region (Bytes.overwrite data start patch) start stop = patch ∧
      ∀ first last, last ≤ start ∨ stop ≤ first →
        Bytes.region (Bytes.overwrite data start patch) first last =
          Bytes.region data first last := by
  subst stop_eq
  exact ⟨Bytes.length_overwrite _ _ _ inside, Bytes.region_overwrite _ _ _ inside,
    fun first last disjoint => Bytes.region_overwrite_disjoint _ _ _ _ _ inside disjoint⟩

theorem writePythPrice_spec (pythData oracleData : List UInt8) (unixTimestamp : Int64)
    (price : pythData.length = pythPriceLen) (size : oracleData.length = pythPriceAccountLen) :
    (writePythPrice pythData unixTimestamp oracleData).length = pythPriceAccountLen ∧
      pythPriceId (writePythPrice pythData unixTimestamp oracleData) = pythPriceId pythData ∧
      feedAuthority (writePythPrice pythData unixTimestamp oracleData) =
        feedAuthority oracleData := by
  simp only [pythPriceAccountLen, pythPriceLen] at price size
  have id_eq : Bytes.region (Bytes.overwrite oracleData 0 pythData) 0 32 =
      Bytes.region pythData 0 32 := by
    simp only [Bytes.region, Bytes.overwrite, List.take_zero, List.nil_append, List.drop_zero,
      Nat.sub_zero]
    rw [List.take_append_of_le_length (by omega)]
  obtain ⟨priced_length, -, priced_rest⟩ :=
    overwrite_spec oracleData pythData 0 120 (by omega) (by omega)
  unfold writePythPrice pythPriceId feedAuthority
  simp only [pricePublishTimeOffset, emaPricePublishTimeOffset, pythPriceAccountLen, pythPriceLen]
  generalize Bytes.overwrite oracleData 0 pythData = priced at *
  generalize time_eq : Bytes.ofUInt64 unixTimestamp.toUInt64 = time
  have time_length : time.length = 8 := by
    rw [← time_eq, Bytes.length_ofUInt64]
  obtain ⟨timed_length, -, timed_rest⟩ := overwrite_spec priced time 56 64 (by omega) (by omega)
  generalize Bytes.overwrite priced 56 time = timed at *
  obtain ⟨dated_length, -, dated_rest⟩ := overwrite_spec timed time 88 96 (by omega) (by omega)
  refine ⟨by omega, ?_, ?_⟩
  · rw [dated_rest 0 32 (by omega), timed_rest 0 32 (by omega), id_eq]
  · rw [dated_rest 120 152 (by omega), timed_rest 120 152 (by omega),
      priced_rest 120 152 (by omega)]

theorem applyPriceUpdate_succeeds (signer : Pubkey) (pythData : List UInt8) (justCreated : Bool)
    (unixTimestamp : Int64) (data data' : List UInt8) (u : Unit) :
    (applyPriceUpdate signer pythData justCreated unixTimestamp).Succeeds data u data' ↔
      (justCreated = true ∧ data' = writePythPrice pythData unixTimestamp
        (Bytes.overwrite data pythPriceLen signer.toList)) ∨
      (justCreated = false ∧ feedAuthority data = signer.toList ∧
        pythPriceId data = pythPriceId pythData ∧
        data' = writePythPrice pythData unixTimestamp data) := by
  simp only [applyPriceUpdate, bindOrCheckAuthority, Method.succeeds_bind, Method.succeeds_self,
    Method.succeeds_ite, Method.succeeds_assign, Method.succeeds_fail, Method.succeeds_pure,
    not_not, and_false, false_or, Bool.not_eq_true]
  constructor
  · rintro ⟨_, _, ⟨_, _, ⟨rfl, rfl⟩, ⟨created, rfl⟩ | ⟨existing, bound, named, -, rfl⟩⟩, _, _,
      ⟨rfl, rfl⟩, rfl⟩
    · exact Or.inl ⟨created, rfl⟩
    · exact Or.inr ⟨existing, bound, named, rfl⟩
  · rintro (⟨created, rfl⟩ | ⟨existing, bound, named, rfl⟩)
    · exact ⟨(), _, ⟨_, _, ⟨rfl, rfl⟩, Or.inl ⟨created, rfl⟩⟩, _, _, ⟨rfl, rfl⟩, rfl⟩
    · exact ⟨(), _, ⟨_, _, ⟨rfl, rfl⟩, Or.inr ⟨existing, bound, named, trivial, rfl⟩⟩, _, _,
        ⟨rfl, rfl⟩, rfl⟩

/-! What a successful push has checked and stored. -/

def Call.Pushes (call : Call) (key : Pubkey) (signer : AccountMeta) : Prop :=
  ∃ oracle others, call.accounts = signer :: oracle :: others ∧ oracle.key = key

/-- An account of the oracle program with a price, without an authority or with one. -/
structure IsFeed (programId : Pubkey) (account : Account) : Prop where
  owner : account.owner = programId
  layout : account.data.length = pythPriceLen ∨ account.data.length = pythPriceAccountLen

inductive FeedChange (call : Call) (key : Pubkey) (before after : List UInt8) : Prop
  | elsewhere (other : ∀ signer, ¬ call.Pushes key signer) (same : after = before)
  | migrated (signer : AccountMeta) (pushes : call.Pushes key signer)
      (signed : signer.isSigner = true) (legacy : before.length = pythPriceLen)
      (length : after.length = pythPriceAccountLen)
      (id : pythPriceId after = pythPriceId call.instructionData)
      (authority : feedAuthority after = signer.key.toList)
  | updated (signer : AccountMeta) (pushes : call.Pushes key signer)
      (signed : signer.isSigner = true) (current : before.length = pythPriceAccountLen)
      (length : after.length = pythPriceAccountLen)
      (bound : feedAuthority before = signer.key.toList)
      (named : pythPriceId before = pythPriceId call.instructionData)
      (id : pythPriceId after = pythPriceId before)
      (authority : feedAuthority after = feedAuthority before)

section

variable {runtime : OracleRuntime} {programId : Pubkey}

theorem createAccount_succeeds (source target : Pubkey) (lamports : U64) (space : Nat)
    (owner : Pubkey) (accounts : List AccountMeta) (seeds : List (List UInt8)) (s s' : Store)
    (u : Unit) :
    (createAccount runtime source target lamports space owner accounts seeds).Succeeds s u s' ↔
      runtime.createAccount source target lamports space owner accounts seeds s = .ok s' := by
  simp only [createAccount, Method.succeeds_bind, Method.succeeds_self, ofResult_succeeds,
    Method.succeeds_assign]
  constructor
  · rintro ⟨_, _, ⟨rfl, rfl⟩, _, _, ⟨ok, rfl⟩, rfl⟩
    exact ok
  · intro ok
    exact ⟨s, s, ⟨rfl, rfl⟩, s', s, ⟨ok, rfl⟩, rfl⟩

inductive Prepared (programId key : Pubkey) (s s' : Store) : Bool → Prop
  | created (foreign : (s key).owner ≠ programId) : Prepared programId key s s' true
  | grown (owner : (s key).owner = programId) (legacy : (s key).data.length = pythPriceLen)
      (owner_eq : (s' key).owner = programId) (rest : List UInt8)
      (data_eq : (s' key).data = (s key).data ++ rest) : Prepared programId key s s' true
  | existing (owner : (s key).owner = programId)
      (current : (s key).data.length = pythPriceAccountLen) (same : s' = s) :
      Prepared programId key s s' false

theorem ensureFeedAccount_succeeds (documented : runtime.Documented) (accounts : List AccountMeta)
    (signer oracle : AccountMeta) (feedId : List UInt8) (s s' : Store) (justCreated : Bool)
    (success : (ensureFeedAccount runtime programId accounts signer oracle feedId).Succeeds s
      justCreated s') :
    Prepared programId oracle.key s s' justCreated ∧
      ∀ key, key ≠ oracle.key → (s' key).owner = (s key).owner ∧ (s' key).data = (s key).data := by
  simp only [ensureFeedAccount, Method.succeeds_bind, load_succeeds, Method.succeeds_ite,
    payRent, createAccount_succeeds, invokeSigned_succeeds, realloc_succeeds, rejectIf_succeeds,
    Method.succeeds_pure, not_not] at success
  obtain ⟨_, _, ⟨rfl, rfl⟩, ⟨foreign, _, created, invoked, rfl, rfl⟩ | ⟨owner, ⟨legacy, _, paid,
    topped, _, _, ⟨data, reallocated, rfl⟩, rfl, rfl⟩ | ⟨-, _, _, ⟨current, rfl⟩, rfl, rfl⟩⟩⟩ :=
    success
  · exact ⟨.created foreign, (documented.allocated _ _ _ _ _ _ _ _ _ invoked).2⟩
  · have unchanged : ∀ key, (paid key).owner = (s key).owner ∧ (paid key).data = (s key).data := by
      rcases topped with ⟨-, transferred⟩ | ⟨-, -, rfl⟩
      · exact documented.transferred _ _ _ _ _ _ _ transferred
      · exact fun key => ⟨rfl, rfl⟩
    rw [(unchanged oracle.key).2] at reallocated
    have fits : (s oracle.key).data.length ≤ pythPriceAccountLen := by
      rw [legacy]
      decide
    obtain ⟨-, rest, data_eq⟩ := documented.grown _ _ _ reallocated fits
    refine ⟨.grown owner legacy ?_ rest ?_, fun key other => ?_⟩
    · rw [Function.update_self]
      exact (unchanged oracle.key).1.trans owner
    · rw [Function.update_self]
      exact data_eq
    · rw [Function.update_of_ne other]
      exact unchanged key
  · exact ⟨.existing owner current rfl, fun key other => ⟨rfl, rfl⟩⟩

/-- One push, seen from one feed. -/
theorem processInstruction_change (documented : runtime.Documented) (call : Call) (s s' : Store)
    (u : Unit) (key : Pubkey) (feed : IsFeed programId (s key))
    (success : (processInstruction runtime programId call).Succeeds s u s') :
    (s' key).owner = programId ∧ FeedChange call key (s key).data (s' key).data := by
  unfold processInstruction at success
  split at success
  · rename_i signer oracle others accounts_eq
    simp only [Method.succeeds_bind, rejectIf_succeeds, Method.succeeds_rejectIf, load_succeeds,
      save_succeeds, Method.succeeds_lift, Bool.not_eq_false, not_not, and_assoc, exists_and_left,
      exists_eq_left', exists_const] at success
    obtain ⟨signed, priced, justCreated, prepared, ensured, size, -, result, rfl⟩ := success
    obtain ⟨preparation, kept⟩ := ensureFeedAccount_succeeds documented _ _ _ _ _ _ _ ensured
    by_cases here : key = oracle.key
    · subst here
      have pushes : call.Pushes oracle.key signer := ⟨oracle, others, accounts_eq, rfl⟩
      have written : (applyPriceUpdate signer.key call.instructionData justCreated
          call.unixTimestamp).Succeeds (prepared oracle.key).data ()
          (applyPriceUpdate signer.key call.instructionData justCreated call.unixTimestamp
            (prepared oracle.key).data).2 := Prod.ext result rfl
      rw [Function.update_self]
      generalize (applyPriceUpdate signer.key call.instructionData justCreated call.unixTimestamp
        (prepared oracle.key).data).2 = after at written ⊢
      rw [applyPriceUpdate_succeeds] at written
      cases preparation with
      | created foreign => exact absurd feed.owner foreign
      | grown owner legacy owner_eq rest data_eq =>
          obtain ⟨-, rfl⟩ | ⟨impossible, -⟩ := written
          · have key_length : signer.key.toList.length = 32 := Vector.length_toList
            have room : pythPriceAccountLen = pythPriceLen + signer.key.toList.length := by
              rw [key_length]
              rfl
            obtain ⟨bound_length, bound, -⟩ := overwrite_spec (prepared oracle.key).data
              signer.key.toList pythPriceLen pythPriceAccountLen room size.ge
            obtain ⟨length, id, authority⟩ := writePythPrice_spec call.instructionData _
              call.unixTimestamp priced (bound_length.trans size)
            exact ⟨owner_eq, .migrated signer pushes signed legacy length id
              (authority.trans bound)⟩
          · cases impossible
      | existing owner current same =>
          subst same
          obtain ⟨impossible, -⟩ | ⟨-, bound, named, rfl⟩ := written
          · cases impossible
          · obtain ⟨length, id, authority⟩ := writePythPrice_spec call.instructionData _
              call.unixTimestamp priced size
            exact ⟨owner, .updated signer pushes signed current length bound named
              (id.trans named.symm) authority⟩
    · rw [Function.update_of_ne here, (kept key here).1, (kept key here).2]
      refine ⟨feed.owner, .elsewhere ?_ rfl⟩
      rintro signer' ⟨oracle', others', accounts_eq', same⟩
      rw [accounts_eq] at accounts_eq'
      simp only [List.cons.injEq] at accounts_eq'
      exact here (by rw [accounts_eq'.2.1, same])
  · exact absurd success (by simp [fail_succeeds])

theorem FeedChange.layout {call : Call} {key : Pubkey} {before after : List UInt8}
    (change : FeedChange call key before after)
    (layout : before.length = pythPriceLen ∨ before.length = pythPriceAccountLen) :
    after.length = pythPriceLen ∨ after.length = pythPriceAccountLen := by
  cases change with
  | elsewhere other same => exact same ▸ layout
  | migrated _ _ _ _ length => exact Or.inr length
  | updated _ _ _ _ length => exact Or.inr length

def run (runtime : OracleRuntime) (programId : Pubkey) (s : Store) (calls : List Call) : Store :=
  Machine.run (processInstruction runtime programId) s calls

theorem isFeed_run (documented : runtime.Documented) (key : Pubkey) {start : Store}
    (feed : IsFeed programId (start key)) (calls : List Call) :
    IsFeed programId (run runtime programId start calls key) := by
  apply @Machine.run_invariant _ _ _ _ (processInstruction runtime programId)
    (fun s => IsFeed programId (s key)) start calls feed
  intro s call u s' feed success
  obtain ⟨owner, change⟩ := processInstruction_change documented call s s' u key feed success
  exact ⟨owner, change.layout feed.layout⟩

end

/-- What one push may do to a feed: the identifier stays; a feed with an authority changes when
that authority signs; a rejected push changes nothing. -/
structure KeepsBinding (runtime : OracleRuntime) (programId key : Pubkey) (s : Store)
    (call : Call) :
    Prop where
  id_kept : pythPriceId (run runtime programId s [call] key).data = pythPriceId (s key).data
  authority_kept : (s key).data.length = pythPriceAccountLen →
    feedAuthority (run runtime programId s [call] key).data = feedAuthority (s key).data
  authority_signs : (s key).data.length = pythPriceAccountLen →
    (run runtime programId s [call] key).owner ≠ (s key).owner ∨
      (run runtime programId s [call] key).data ≠ (s key).data →
    ∃ signer, call.Pushes key signer ∧ signer.isSigner = true ∧
      feedAuthority (s key).data = signer.key.toList
  rejected : (∀ u s', ¬ (processInstruction runtime programId call).Succeeds s u s') →
    run runtime programId s [call] = s

/-- A push to a feed without an authority carries the identifier of the feed. -/
def KeepsIdentifier (key : Pubkey) (s : Store) (call : Call) : Prop :=
  (s key).data.length = pythPriceLen → (∃ signer, call.Pushes key signer) →
    pythPriceId call.instructionData = pythPriceId (s key).data

section

variable {runtime : OracleRuntime} {programId : Pubkey}

theorem run_one_of_succeeds {call : Call} {s s' : Store} {u : Unit}
    (success : (processInstruction runtime programId call).Succeeds s u s') :
    run runtime programId s [call] = s' :=
  Machine.commit_of_succeeds _ success

theorem run_one_of_fails {call : Call} {s : Store}
    (fails : ∀ u s', ¬ (processInstruction runtime programId call).Succeeds s u s') :
    run runtime programId s [call] = s :=
  Machine.commit_of_fails _ fails

theorem keepsBinding_of_keepsIdentifier (documented : runtime.Documented) {key : Pubkey} {s : Store}
    (feed : IsFeed programId (s key)) (call : Call)
    (keeps : ∀ u s', (processInstruction runtime programId call).Succeeds s u s' →
      KeepsIdentifier key s call) : KeepsBinding runtime programId key s call := by
  by_cases succeeded : ∃ u s', (processInstruction runtime programId call).Succeeds s u s'
  · obtain ⟨u, s', success⟩ := succeeded
    have identified := keeps u s' success
    have after := run_one_of_succeeds success
    obtain ⟨owner, change⟩ := processInstruction_change documented call s s' u key feed success
    have rejected : (∀ u s', ¬ (processInstruction runtime programId call).Succeeds s u s') →
        run runtime programId s [call] = s := fun fails => absurd success (fails u s')
    cases change with
    | elsewhere other same =>
        refine ⟨by rw [after, same], fun _ => by rw [after, same], fun _ changed => ?_, rejected⟩
        rw [after] at changed
        rcases changed with moved | written
        · exact absurd (owner.trans feed.owner.symm) moved
        · exact absurd same written
    | migrated signer pushes signed legacy length id authority =>
        -- the current layout is longer
        have shorter : (s key).data.length ≠ pythPriceAccountLen := by
          rw [legacy]
          decide
        refine ⟨?_, fun current => absurd current shorter, fun current => absurd current shorter,
          rejected⟩
        rw [after, id]
        exact identified legacy ⟨signer, pushes⟩
    | updated signer pushes signed current length bound named id authority =>
        exact ⟨by rw [after, id], fun _ => by rw [after, authority],
          fun _ _ => ⟨signer, pushes, signed, bound⟩, rejected⟩
  · have fails : ∀ u s', ¬ (processInstruction runtime programId call).Succeeds s u s' :=
      fun u s' success => succeeded ⟨u, s', success⟩
    have after := run_one_of_fails fails
    refine ⟨by rw [after], fun _ => by rw [after], fun _ changed => ?_, fun _ => after⟩
    rw [after] at changed
    rcases changed with moved | written
    · exact absurd rfl moved
    · exact absurd rfl written

theorem KeepsBinding.keepsIdentifier (documented : runtime.Documented) {key : Pubkey}
    {s s' : Store} (feed : IsFeed programId (s key)) {call : Call} {u : Unit}
    (keeps : KeepsBinding runtime programId key s call)
    (success : (processInstruction runtime programId call).Succeeds s u s') :
    KeepsIdentifier key s call := by
  rintro legacy ⟨signer, pushes⟩
  have same := keeps.id_kept
  rw [run_one_of_succeeds success] at same
  obtain ⟨-, change⟩ := processInstruction_change documented call s s' u key feed success
  cases change with
  | elsewhere other _ => exact absurd pushes (other signer)
  | migrated _ _ _ _ _ id _ => exact id.symm.trans same
  | updated _ _ _ current =>
      rw [legacy] at current
      exact absurd current (by decide)

end

/-- Every push of a run keeps the binding of a feed exactly when every push that migrates it
carries its identifier. -/
theorem feed_binding_iff (runtime : OracleRuntime) (documented : runtime.Documented)
    (programId key : Pubkey) (start : Store) (feed : IsFeed programId (start key))
    (calls : List Call) :
    (∀ before call after, calls = before ++ call :: after →
      KeepsBinding runtime programId key (run runtime programId start before) call) ↔
      Machine.Along (processInstruction runtime programId) (KeepsIdentifier key) start calls := by
  constructor
  · intro keeps
    by_contra violated
    obtain ⟨before, call, after, u, s', calls_eq, success, missed⟩ :=
      Machine.exists_of_not_along _ start calls violated
    exact missed ((keeps before call after calls_eq).keepsIdentifier documented
      (isFeed_run documented key feed before) success)
  · rintro along before call after rfl
    apply keepsBinding_of_keepsIdentifier documented (isFeed_run documented key feed before)
    intro u s' success
    exact along.at_operation success

def plainOracleRuntime : OracleRuntime where
  toRuntime := plainRuntime
  createAccount _ target lamports space owner _ _ s :=
    if (s target).data = [] then
      .ok (Function.update s target { owner, lamports, data := List.replicate space 0 })
    else .error (.custom 0)

theorem plainOracleRuntime_documented : plainOracleRuntime.Documented where
  toDocumented := plainRuntime_documented
  allocated := by
    intro source target lamports space owner accounts seeds s s' invoked
    simp only [plainOracleRuntime, except_ite_ok, reduceCtorEq, and_false, or_false,
      Except.ok.injEq] at invoked
    obtain ⟨unallocated, rfl⟩ := invoked
    refine ⟨unallocated, fun key other => ?_⟩
    rw [Function.update_of_ne other]
    exact ⟨rfl, rfl⟩

/-- The feed 5 of the program 9, of the layout without an authority, with the identifier 7. -/
def legacyFeed : Store := fun key =>
  if key = Vector.replicate 32 5 then
    ⟨Vector.replicate 32 9, 0, List.replicate 32 7 ++ List.replicate 88 0⟩
  else ⟨zeroedPubkey, 0, []⟩

theorem legacyFeed_isFeed :
    IsFeed (Vector.replicate 32 9) (legacyFeed (Vector.replicate 32 5)) :=
  ⟨by decide +kernel, Or.inl (by decide +kernel)⟩

def push (signer identifier : UInt8) : Call where
  accounts := [⟨Vector.replicate 32 signer, true⟩, ⟨Vector.replicate 32 5, false⟩]
  instructionData := List.replicate 32 identifier ++ List.replicate 88 1
  unixTimestamp := 1000

theorem migrated_feed_keeps_binding :
    KeepsBinding plainOracleRuntime (Vector.replicate 32 9) (Vector.replicate 32 5) legacyFeed
        (push 1 7) ∧
      KeepsBinding plainOracleRuntime (Vector.replicate 32 9) (Vector.replicate 32 5)
        (run plainOracleRuntime (Vector.replicate 32 9) legacyFeed [push 1 7]) (push 2 7) := by
  have keeps := (feed_binding_iff plainOracleRuntime plainOracleRuntime_documented
    (Vector.replicate 32 9) (Vector.replicate 32 5) legacyFeed legacyFeed_isFeed
    [push 1 7, push 2 7]).mpr ⟨fun _ _ _ _ _ => by decide +kernel,
      fun _ _ _ _ _ => by decide +kernel, trivial⟩
  exact ⟨keeps [] (push 1 7) [push 2 7] rfl, keeps [push 1 7] (push 2 7) [] rfl⟩

/-- A stranger's push takes a feed of the old layout over, under an identifier of their own. -/
theorem migration_replaces_identifier :
    IsFeed (Vector.replicate 32 9) (legacyFeed (Vector.replicate 32 5)) ∧
      pythPriceId (legacyFeed (Vector.replicate 32 5)).data = List.replicate 32 7 ∧
      pythPriceId (run plainOracleRuntime (Vector.replicate 32 9) legacyFeed [push 2 8]
        (Vector.replicate 32 5)).data = List.replicate 32 8 ∧
      ¬ KeepsBinding plainOracleRuntime (Vector.replicate 32 9) (Vector.replicate 32 5) legacyFeed
        (push 2 8) := by
  have before : pythPriceId (legacyFeed (Vector.replicate 32 5)).data = List.replicate 32 7 := by
    decide +kernel
  have after : pythPriceId (run plainOracleRuntime (Vector.replicate 32 9) legacyFeed [push 2 8]
      (Vector.replicate 32 5)).data = List.replicate 32 8 := by
    decide +kernel
  refine ⟨legacyFeed_isFeed, before, after, fun keeps => ?_⟩
  have same := keeps.id_kept
  rw [before, after] at same
  exact absurd same (by decide)

end AutaraLending.PriceFeed
