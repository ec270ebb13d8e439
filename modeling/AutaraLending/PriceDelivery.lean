import AutaraLending.OracleLoading
import AutaraLending.Support.LastOperation

/-! The way of a price: a push writes the message into the account of its feed, with the time of
the chain, and the lending program reads it back from there. -/

namespace Support.LittleEndian

theorem decode_ofUInt64 (word : UInt64) : decode (Bytes.ofUInt64 word) = word.toNat := by
  have small := word.toNat_lt
  simp only [Bytes.ofUInt64, decode, List.map_cons, List.map_nil, Nat.ofDigits_cons,
    Nat.ofDigits_nil, UInt64.toNat_toUInt8, UInt64.toNat_shiftRight, Nat.shiftRight_eq_div_pow]
  simp
  omega

end Support.LittleEndian

namespace AutaraLending

open Support

def PythPrice.withPublishTime (self : PythPrice) (publishTime : Int64) : PythPrice :=
  { self with price := { self.price with publishTime } }

def PythProvider.rateOf (self : PythProvider) (pythPrice : PythPrice) :
    LendingResult UncheckedOracleRate :=
  if pythPrice.id ≠ self.feedId.toList then .error LendingError.invalidOracleFeedId.into
  else if maxExponentAbs < pythPrice.price.expo ∨ pythPrice.price.expo < -maxExponentAbs then
    .error (LendingError.invalidPythOracleAccount.withMsg "Invalid exponent")
  else do
    let expo := pythPrice.price.expo.toInt8
    let rate ← OracleRate.tryFromPriceExpoConf pythPrice.price.price pythPrice.price.conf expo
    pure ⟨rate.stored, pythPrice.price.publishTime⟩

/-- The body of `load_and_validate_oracle_rate`, on the two parts of an oracle configuration. -/
def loadAndValidateOracleRate
    (findProgramAddress : List (List UInt8) → Pubkey → Pubkey × UInt8) (client : Bool)
    (oracleProvider : OracleProvider) (validationConfig : OracleValidationConfig)
    (view : AccountView) (unixTimestamp : Int64) : LendingResult StoredRate := do
  let uncheckedPrice ← oracleProvider.loadOraclePrice findProgramAddress client view
  uncheckedPrice.validate validationConfig unixTimestamp

theorem PythProvider.rateOf_ok (self : PythProvider) (pythPrice : PythPrice)
    (price : UncheckedOracleRate) :
    self.rateOf pythPrice = .ok price ↔
      pythPrice.id = self.feedId.toList ∧
      (-18 ≤ pythPrice.price.expo.toInt ∧ pythPrice.price.expo.toInt ≤ 18) ∧
      ∃ rate : OracleRate, OracleRate.tryFromPriceExpoConf pythPrice.price.price
          pythPrice.price.conf pythPrice.price.expo.toInt8 = .ok rate ∧
        price = ⟨rate.stored, pythPrice.price.publishTime⟩ := by
  have within : ¬ (maxExponentAbs < pythPrice.price.expo ∨ pythPrice.price.expo < -maxExponentAbs) ↔
      -18 ≤ pythPrice.price.expo.toInt ∧ pythPrice.price.expo.toInt ≤ 18 := by
    simp only [Int64.lt_iff_toInt_lt, not_or, not_lt]
    exact and_comm
  simp only [rateOf, except_ite_ok, except_bind_ok, except_pure_ok, reduceCtorEq, and_false,
    false_or, ne_eq, not_not, within, eq_comm (a := price)]

theorem readU64_of_region {data : List UInt8} {offset : Nat} {word : UInt64}
    (region : Bytes.region data offset (offset + 8) = Bytes.ofUInt64 word) :
    readU64 data offset = word := by
  rw [readU64, region, LittleEndian.decode_ofUInt64, UInt64.ofNat_toNat]

theorem readU64_congr {data data' : List UInt8} {offset : Nat}
    (region : Bytes.region data offset (offset + 8) = Bytes.region data' offset (offset + 8)) :
    readU64 data offset = readU64 data' offset := by
  rw [readU64, readU64, region]

theorem OracleRate.validate_stored_ok (self : OracleRate) (publishTime : Int64) (maxAge : U64)
    (limit : IFixedPoint) (unixTimestamp : Int64) (rate : StoredRate) :
    (UncheckedOracleRate.mk self.stored publishTime).validate (.new maxAge limit) unixTimestamp =
        .ok rate ↔
      self.stored = rate ∧
      (-2 ^ 63 ≤ unixTimestamp.toInt - publishTime.toInt ∧
        unixTimestamp.toInt - publishTime.toInt < 2 ^ 63) ∧
      (maxAge.toNat = 0 ∨ unixTimestamp.toInt - publishTime.toInt ≤ maxAge.toNat) ∧
      (limit.bits = 0 ∨ self.confidence.bits * 2 ^ 48 / self.rate.bits ≤ limit.bits) := by
  have nonneg := self.confidence_nonneg
  have positive : 0 < self.rate.bits := lt_of_le_of_lt nonneg self.confidence_lt
  have scaled_nonneg : 0 ≤ self.confidence.bits * 2 ^ 48 := by positivity
  have quotient_lt : self.confidence.bits * 2 ^ 48 / self.rate.bits < 2 ^ 48 := by
    rw [Int.ediv_lt_iff_lt_mul positive, mul_comm (2 ^ 48 : Int)]
    exact mul_lt_mul_of_pos_right self.confidence_lt (by norm_num)
  have relative_ok (relative : IFixedPoint) : self.stored.relativeConfidence = .ok relative ↔
      self.confidence.bits * 2 ^ 48 / self.rate.bits = relative.bits := by
    rw [StoredRate.relativeConfidence, Fixed.safeDiv_ok]
    simp only [OracleRate.stored, i80f48_frac, Int.tdiv_eq_ediv_of_nonneg scaled_nonneg]
    exact and_iff_right positive.ne'
  rw [UncheckedOracleRate.validate_new_ok]
  simp only [UncheckedOracleRate.age_ok, relative_ok]
  constructor
  · rintro ⟨⟨same, -, -⟩, ⟨age, ⟨elapsed, elapsed_eq, age_eq⟩, young⟩, relative, relative_eq,
      narrow⟩
    have lower := elapsed.le_toInt
    have upper := elapsed.toInt_lt
    exact ⟨same, by omega, by omega, by omega⟩
  · rintro ⟨same, range, young, narrow⟩
    have elapsed_eq := Int64.toInt_ofInt_of_le range.1 range.2
    obtain ⟨age, age_eq⟩ := U64.exists_toNat
      (unixTimestamp.toInt - publishTime.toInt).toNat (by omega) (by omega)
    obtain ⟨relative, relative_eq⟩ := IFixedPoint.exists_bits
      (self.confidence.bits * 2 ^ 48 / self.rate.bits)
      (by have := Int.ediv_nonneg scaled_nonneg positive.le; omega) (by omega)
    exact ⟨⟨same, positive, nonneg⟩,
      ⟨age, ⟨_, elapsed_eq.symm, by rw [elapsed_eq]; omega⟩, by omega⟩,
      relative, relative_eq.symm, by omega⟩

theorem PythProvider.loadOraclePrice_of_current (client : Bool) (self : PythProvider)
    (key : Pubkey) {data : List UInt8} (current : data.length = PriceFeed.pythPriceAccountLen) :
    self.loadOraclePrice client ⟨key, data, self.programId, true⟩ =
      self.rateOf (PythPrice.fromBytes data) := by
  have read : PythPrice.tryFromView client ⟨key, data, self.programId, true⟩ =
      .ok (PythPrice.fromBytes data) := by
    simp [PythPrice.tryFromView, current]
  rw [loadOraclePrice, if_neg (by simp), read]
  rfl

theorem PythProvider.loadOraclePrice_of_absent (self : PythProvider) (view : AccountView)
    (absent : view.owner = self.programId →
      view.data.length ≠ PriceFeed.pythPriceAccountLen) (price : UncheckedOracleRate) :
    self.loadOraclePrice false view ≠ .ok price := by
  intro success
  obtain ⟨owner, ⟨pythPrice, read, -⟩, -⟩ := loadOraclePrice_ok success
  simp [PythPrice.tryFromView, absent owner] at read

namespace PriceFeed

open Idl

/-- The documented behaviour of the system program in full: what it creates has the owner it was
asked for. -/
structure OracleRuntime.Creates (runtime : OracleRuntime) : Prop where
  documented : runtime.Documented
  created : ∀ source target lamports space owner accounts seeds s s',
    runtime.createAccount source target lamports space owner accounts seeds s = .ok s' →
    (s' target).owner = owner

theorem fromBytes_writePythPrice (pythData oracleData : List UInt8) (unixTimestamp : Int64)
    (price : pythData.length = pythPriceLen) (size : oracleData.length = pythPriceAccountLen) :
    PythPrice.fromBytes (writePythPrice pythData unixTimestamp oracleData) =
      (PythPrice.fromBytes pythData).withPublishTime unixTimestamp := by
  obtain ⟨-, id, -⟩ := writePythPrice_spec pythData oracleData unixTimestamp price size
  simp only [pythPriceAccountLen, pythPriceLen] at price size
  have copied (first last : Nat) (inside : last ≤ 120) :
      Bytes.region (Bytes.overwrite oracleData 0 pythData) first last =
        Bytes.region pythData first last := by
    rw [Bytes.overwrite, List.take_zero, List.nil_append]
    exact Bytes.region_append _ _ _ _ (by omega)
  obtain ⟨priced_length, -, -⟩ := overwrite_spec oracleData pythData 0 120 (by omega) (by omega)
  unfold writePythPrice at id ⊢
  simp only [pricePublishTimeOffset, emaPricePublishTimeOffset] at id ⊢
  generalize Bytes.overwrite oracleData 0 pythData = priced at *
  generalize time_eq : Bytes.ofUInt64 unixTimestamp.toUInt64 = time at id ⊢
  have time_length : time.length = 8 := by
    rw [← time_eq, Bytes.length_ofUInt64]
  obtain ⟨timed_length, written, timed_rest⟩ :=
    overwrite_spec priced time 56 64 (by omega) (by omega)
  generalize Bytes.overwrite priced 56 time = timed at *
  obtain ⟨-, -, dated_rest⟩ := overwrite_spec timed time 88 96 (by omega) (by omega)
  generalize Bytes.overwrite timed 88 time = dated at *
  have kept (offset : Nat) (before : offset + 8 ≤ 56) :
      readU64 dated offset = readU64 pythData offset := by
    apply readU64_congr
    rw [dated_rest _ _ (by omega), timed_rest _ _ (by omega), copied _ _ (by omega)]
  have dated_time : readU64 dated 56 = unixTimestamp.toUInt64 := by
    apply readU64_of_region
    rw [dated_rest 56 (56 + 8) (by omega), written, ← time_eq]
  simp [PythPrice.fromBytes, PythPrice.withPublishTime, pricePublishTimeOffset, id, kept,
    dated_time]

theorem Call.Pushes.unique {call : Call} {key key' : Pubkey} {signer signer' : AccountMeta}
    (pushes : call.Pushes key signer) (pushes' : call.Pushes key' signer') :
    key = key' ∧ signer = signer' := by
  obtain ⟨oracle, others, accounts_eq, rfl⟩ := pushes
  obtain ⟨oracle', others', accounts_eq', rfl⟩ := pushes'
  rw [accounts_eq, List.cons.injEq, List.cons.injEq] at accounts_eq'
  exact ⟨by rw [accounts_eq'.2.1], accounts_eq'.1⟩

structure Delivers (programId : Pubkey) (call : Call) (key : Pubkey) (signer : AccountMeta)
    (s s' : Store) : Prop where
  signed : signer.isSigner = true
  bound : (s key).owner = programId → (s key).data.length = pythPriceAccountLen →
    feedAuthority (s key).data = signer.key.toList
  owner : (s' key).owner = programId
  length : (s' key).data.length = pythPriceAccountLen
  authority : feedAuthority (s' key).data = signer.key.toList
  content : PythPrice.fromBytes (s' key).data =
    (PythPrice.fromBytes call.instructionData).withPublishTime call.unixTimestamp
  others : ∀ other, other ≠ key →
    (s' other).owner = (s other).owner ∧ (s' other).data = (s other).data

section

variable {runtime : OracleRuntime} {programId : Pubkey}

theorem ensureFeedAccount_owner (creates : runtime.Creates) (accounts : List AccountMeta)
    (signer oracle : AccountMeta) (feedId : List UInt8) (s s' : Store) (justCreated : Bool)
    (success : (ensureFeedAccount runtime programId accounts signer oracle feedId).Succeeds s
      justCreated s') : (s' oracle.key).owner = programId := by
  obtain ⟨preparation, -⟩ :=
    ensureFeedAccount_succeeds creates.documented _ _ _ _ _ _ _ success
  cases preparation with
  | created foreign =>
      simp only [ensureFeedAccount, Method.succeeds_bind, load_succeeds, Method.succeeds_ite,
        createAccount_succeeds, Method.succeeds_pure] at success
      obtain ⟨_, _, ⟨rfl, rfl⟩, ⟨-, _, _, invoked, -, rfl⟩ | ⟨native, -⟩⟩ := success
      · exact creates.created _ _ _ _ _ _ _ _ _ invoked
      · exact absurd foreign native
  | grown owner legacy owner_eq rest data_eq => exact owner_eq
  | existing owner current same =>
      subst same
      exact owner

theorem processInstruction_delivers (creates : runtime.Creates) (call : Call) (s s' : Store)
    (u : Unit) (success : (processInstruction runtime programId call).Succeeds s u s') :
    ∃ key signer, call.Pushes key signer ∧ Delivers programId call key signer s s' := by
  unfold processInstruction at success
  split at success
  · rename_i signer oracle others accounts_eq
    simp only [Method.succeeds_bind, rejectIf_succeeds, Method.succeeds_rejectIf, load_succeeds,
      save_succeeds, Method.succeeds_lift, Bool.not_eq_false, not_not, and_assoc, exists_and_left,
      exists_eq_left', exists_const] at success
    obtain ⟨signed, priced, justCreated, prepared, ensured, size, -, result, rfl⟩ := success
    have owned := ensureFeedAccount_owner creates _ _ _ _ _ _ _ ensured
    obtain ⟨preparation, kept⟩ :=
      ensureFeedAccount_succeeds creates.documented _ _ _ _ _ _ _ ensured
    have written : (applyPriceUpdate signer.key call.instructionData justCreated
        call.unixTimestamp).Succeeds (prepared oracle.key).data ()
        (applyPriceUpdate signer.key call.instructionData justCreated call.unixTimestamp
          (prepared oracle.key).data).2 := Prod.ext result rfl
    generalize (applyPriceUpdate signer.key call.instructionData justCreated call.unixTimestamp
      (prepared oracle.key).data).2 = after at written
    rw [applyPriceUpdate_succeeds] at written
    -- what the price is written over: a buffer of the size of a feed, bound to the signer
    obtain ⟨buffer, buffer_length, buffer_authority, after_eq⟩ :
        ∃ buffer : List UInt8, buffer.length = pythPriceAccountLen ∧
          feedAuthority buffer = signer.key.toList ∧
          after = writePythPrice call.instructionData call.unixTimestamp buffer := by
      obtain ⟨-, rfl⟩ | ⟨-, bound, -, rfl⟩ := written
      · have key_length : signer.key.toList.length = 32 := Vector.length_toList
        have room : pythPriceAccountLen = pythPriceLen + signer.key.toList.length := by
          rw [key_length]
          rfl
        obtain ⟨bound_length, bound, -⟩ := overwrite_spec (prepared oracle.key).data
          signer.key.toList pythPriceLen pythPriceAccountLen room size.ge
        exact ⟨_, bound_length.trans size, bound, rfl⟩
      · exact ⟨_, size, bound, rfl⟩
    obtain ⟨length, -, authority⟩ := writePythPrice_spec call.instructionData buffer
      call.unixTimestamp priced buffer_length
    refine ⟨oracle.key, signer, ⟨oracle, others, accounts_eq, rfl⟩, signed, ?_, ?_, ?_, ?_, ?_, ?_⟩
    · intro native current
      cases preparation with
      | created foreign => exact absurd native foreign
      | grown _ legacy =>
          rw [legacy] at current
          exact absurd current (by decide)
      | existing _ _ same =>
          subst same
          obtain ⟨impossible, -⟩ | ⟨-, bound, -⟩ := written
          · cases impossible
          · exact bound
    · rw [Function.update_self]
      exact owned
    · rw [Function.update_self, after_eq]
      exact length
    · rw [Function.update_self, after_eq]
      exact authority.trans buffer_authority
    · rw [Function.update_self, after_eq]
      exact fromBytes_writePythPrice _ _ _ priced buffer_length
    · intro other elsewhere
      rw [Function.update_of_ne elsewhere]
      exact kept other elsewhere
  · exact absurd success (by simp [fail_succeeds])

def Call.Targets (key : Pubkey) (call : Call) : Prop := ∃ signer, call.Pushes key signer

/-- The account of a feed as the lending program sees it. The runtime hands out data that starts
at a multiple of eight. -/
def feedView (key : Pubkey) (s : Store) : AccountView := ⟨key, (s key).data, (s key).owner, true⟩

theorem feedView_elsewhere (creates : runtime.Creates) (key : Pubkey) (s : Store) (call : Call)
    (u : Unit) (s' : Store) (elsewhere : ¬ call.Targets key)
    (success : (processInstruction runtime programId call).Succeeds s u s') :
    feedView key s' = feedView key s := by
  obtain ⟨target, signer, pushes, delivers⟩ :=
    processInstruction_delivers creates call s s' u success
  have other : key ≠ target := by
    rintro rfl
    exact elsewhere ⟨signer, pushes⟩
  rw [feedView, feedView, (delivers.others key other).1, (delivers.others key other).2]

structure BoundTo (programId key authority : Pubkey) (s : Store) : Prop where
  owner : (s key).owner = programId
  length : (s key).data.length = pythPriceAccountLen
  authority : feedAuthority (s key).data = authority.toList

theorem Delivers.boundTo {call : Call} {key : Pubkey} {signer : AccountMeta} {s s' : Store}
    (delivers : Delivers programId call key signer s s') : BoundTo programId key signer.key s' :=
  ⟨delivers.owner, delivers.length, delivers.authority⟩

def PushedBy (runtime : OracleRuntime) (programId key authority : Pubkey) (s : Store)
    (calls : List Call) : Prop :=
  Machine.Along (processInstruction runtime programId)
    (fun _ call => ∀ signer, call.Pushes key signer →
      signer.isSigner = true ∧ signer.key = authority) s calls

/-- A successful push to a bound feed is the authority's own, and keeps it bound. -/
theorem BoundTo.step (creates : runtime.Creates) {key authority : Pubkey} {s s' : Store}
    (bound : BoundTo programId key authority s) {call : Call} {u : Unit}
    (success : (processInstruction runtime programId call).Succeeds s u s') :
    BoundTo programId key authority s' ∧
      ∀ signer, call.Pushes key signer → signer.isSigner = true ∧ signer.key = authority := by
  obtain ⟨target, signer, pushes, delivers⟩ :=
    processInstruction_delivers creates call s s' u success
  by_cases here : key = target
  · subst here
    have same : signer.key = authority := by
      apply Vector.toList_inj.mp
      exact (delivers.bound bound.owner bound.length).symm.trans bound.authority
    rw [← same]
    refine ⟨delivers.boundTo, fun signer' pushes' => ?_⟩
    obtain ⟨-, rfl⟩ := pushes.unique pushes'
    exact ⟨delivers.signed, rfl⟩
  · refine ⟨⟨?_, ?_, ?_⟩, fun signer' pushes' => absurd (pushes'.unique pushes).1 here⟩
    · exact (delivers.others key here).1.trans bound.owner
    · rw [(delivers.others key here).2]
      exact bound.length
    · rw [(delivers.others key here).2]
      exact bound.authority

theorem BoundTo.pushedBy (creates : runtime.Creates) {key authority : Pubkey} {s : Store}
    (bound : BoundTo programId key authority s) (calls : List Call) :
    PushedBy runtime programId key authority s calls := by
  induction calls generalizing s with
  | nil => exact trivial
  | cons call rest ih =>
      refine ⟨fun _ _ success => (bound.step creates success).2, ih ?_⟩
      rcases Machine.commit_cases (processInstruction runtime programId) s call with
        ⟨u, success⟩ | kept
      · exact (bound.step creates success).1
      · rw [kept]
        exact bound

/-- Whatever a run starts from, all that push to one feed are one signer: the first push that
succeeds was made by the authority, or made the authority. -/
theorem exists_pushedBy (creates : runtime.Creates) (key : Pubkey) (s : Store)
    (calls : List Call) : ∃ authority, PushedBy runtime programId key authority s calls := by
  induction calls generalizing s with
  | nil => exact ⟨key, trivial⟩
  | cons call rest ih =>
      by_cases pushed : ∃ u s', (processInstruction runtime programId call).Succeeds s u s' ∧
        call.Targets key
      · obtain ⟨u, s', success, signer, pushes⟩ := pushed
        obtain ⟨target, signer', pushes', delivers⟩ :=
          processInstruction_delivers creates call s s' u success
        obtain ⟨rfl, rfl⟩ := pushes.unique pushes'
        refine ⟨signer.key, fun _ _ _ other pushes_other => ?_, ?_⟩
        · obtain ⟨-, rfl⟩ := pushes.unique pushes_other
          exact ⟨delivers.signed, rfl⟩
        · rw [Machine.commit_of_succeeds _ success]
          exact delivers.boundTo.pushedBy creates rest
      · obtain ⟨authority, along⟩ :=
          ih (Machine.commit (processInstruction runtime programId) s call)
        refine ⟨authority, fun u s' success signer pushes => ?_, along⟩
        exact absurd ⟨u, s', success, signer, pushes⟩ pushed

/-- The last push of a run to a feed. -/
def LastPush (runtime : OracleRuntime) (programId key : Pubkey) (s : Store)
    (calls before : List Call) (call : Call) (after : List Call) : Prop :=
  ∃ t, Machine.LastOperation (processInstruction runtime programId)
    (Call.Targets key) s calls before call after t

theorem LastPush.delivers (creates : runtime.Creates) {key : Pubkey} {s : Store}
    {calls before after : List Call} {call : Call}
    (last : LastPush runtime programId key s calls before call after) :
    ∃ signer data, call.Pushes key signer ∧ data.length = pythPriceAccountLen ∧
      feedAuthority data = signer.key.toList ∧
      PythPrice.fromBytes data =
        (PythPrice.fromBytes call.instructionData).withPublishTime call.unixTimestamp ∧
      feedView key (run runtime programId s calls) = ⟨key, data, programId, true⟩ := by
  obtain ⟨t, last⟩ := last
  obtain ⟨u, success⟩ := last.success
  obtain ⟨target, signer, pushes, delivers⟩ :=
    processInstruction_delivers creates call _ t u success
  obtain ⟨signer', pushes'⟩ := last.member
  obtain ⟨rfl, rfl⟩ := pushes'.unique pushes
  refine ⟨signer', (t key).data, pushes, delivers.length, delivers.authority, delivers.content, ?_⟩
  calc feedView key (run runtime programId s calls)
      = feedView key (Machine.run (processInstruction runtime programId) t after) := by
        rw [run, last.run_eq]
    _ = feedView key t := last.quiet.unchanged (feedView key) (feedView_elsewhere creates key)
    _ = ⟨key, (t key).data, programId, true⟩ := by
        rw [feedView, delivers.owner]

end

section

variable {findProgramAddress : List (List UInt8) → Pubkey → Pubkey × UInt8} {client : Bool}

theorem loadOraclePrice_of_lastPush {runtime : OracleRuntime} (creates : runtime.Creates)
    (provider : PythProvider) {key : Pubkey}
    (canonical : (OracleProvider.pyth provider).oracleFeedPubkey findProgramAddress = key)
    {start : Store} {calls before after : List Call} {call : Call}
    (last : LastPush runtime provider.programId key start calls before call after) :
    (OracleProvider.pyth provider).loadOraclePrice findProgramAddress client
        (feedView key (run runtime provider.programId start calls)) =
      provider.rateOf
        ((PythPrice.fromBytes call.instructionData).withPublishTime call.unixTimestamp) := by
  obtain ⟨signer, data, -, current, -, content, view_eq⟩ := last.delivers creates
  rw [view_eq, OracleProvider.loadOraclePrice, if_neg (by simp [canonical])]
  simp only [PythProvider.loadOraclePrice_of_current client provider key current, content]

/-- The rate that a message stands for, as a provider reads it. -/
structure Quotes (provider : PythProvider) (message : PythPrice) (rate : OracleRate) : Prop where
  id : message.id = provider.feedId.toList
  exponent : -18 ≤ message.price.expo.toInt ∧ message.price.expo.toInt ≤ 18
  rate : OracleRate.tryFromPriceExpoConf message.price.price message.price.conf
    message.price.expo.toInt8 = .ok rate

theorem loadAndValidate_of_lastPush {runtime : OracleRuntime} (creates : runtime.Creates)
    (provider : PythProvider) (maxAge : U64) (limit : IFixedPoint) {key : Pubkey}
    (canonical : (OracleProvider.pyth provider).oracleFeedPubkey findProgramAddress = key)
    {start : Store} {calls before after : List Call} {call : Call}
    (last : LastPush runtime provider.programId key start calls before call after)
    (unixTimestamp : Int64) (rate : StoredRate) :
    loadAndValidateOracleRate findProgramAddress client (.pyth provider) (.new maxAge limit)
        (feedView key (run runtime provider.programId start calls)) unixTimestamp = .ok rate ↔
      ∃ checked : OracleRate,
        Quotes provider (PythPrice.fromBytes call.instructionData) checked ∧
        (UncheckedOracleRate.mk checked.stored call.unixTimestamp).validate (.new maxAge limit)
          unixTimestamp = .ok rate := by
  rw [loadAndValidateOracleRate, loadOraclePrice_of_lastPush creates provider canonical last]
  simp only [except_bind_ok, PythProvider.rateOf_ok, PythPrice.withPublishTime]
  constructor
  · intro read
    obtain ⟨price, ⟨id, exponent, checked, built, price_eq⟩, valid⟩ := read
    rw [price_eq] at valid
    exact ⟨checked, ⟨id, exponent, built⟩, valid⟩
  · intro quoted
    obtain ⟨checked, quotes, valid⟩ := quoted
    exact ⟨_, ⟨quotes.id, quotes.exponent, checked, quotes.rate, rfl⟩, valid⟩

/-- A price that is accepted at the end of a run was pushed in it, where no feed with an authority
was before. -/
theorem exists_lastPush {runtime : OracleRuntime} (creates : runtime.Creates)
    (provider : PythProvider) {key : Pubkey} {start : Store} (calls : List Call)
    (absent : (start key).owner = provider.programId →
      (start key).data.length ≠ pythPriceAccountLen) {price : UncheckedOracleRate}
    (loaded : (OracleProvider.pyth provider).loadOraclePrice findProgramAddress false
      (feedView key (run runtime provider.programId start calls)) = .ok price) :
    ∃ before call after, LastPush runtime provider.programId key start calls before call after := by
  rcases @Machine.quiet_or_last _ _ _ _ (processInstruction runtime provider.programId)
    (Call.Targets key) start calls with quiet | ⟨before, call, after, t, last⟩
  · have same : feedView key (run runtime provider.programId start calls) = feedView key start :=
      quiet.unchanged (feedView key) (feedView_elsewhere creates key)
    rw [same, OracleProvider.loadOraclePrice] at loaded
    simp only [except_ite_ok, reduceCtorEq, and_false, false_or] at loaded
    exact absurd loaded.2 (provider.loadOraclePrice_of_absent _ absent price)
  · exact ⟨before, call, after, t, last⟩

end

/-- After the last push to its feed, whatever came before and whatever else was tried since, a
market's provider accepts exactly the rate of that push, for as long as its age allows, counted
from the time at which the chain took it. -/
theorem last_push_accepted_iff (runtime : OracleRuntime) (creates : runtime.Creates)
    (findProgramAddress : List (List UInt8) → Pubkey → Pubkey × UInt8) (client : Bool)
    (provider : PythProvider) (maxAge : U64) (limit : IFixedPoint) (start : Store)
    (calls before after : List Call) (call : Call)
    (last : LastPush runtime provider.programId
      ((OracleProvider.pyth provider).oracleFeedPubkey findProgramAddress) start calls before call
      after)
    (unixTimestamp : Int64) (rate : StoredRate) :
    loadAndValidateOracleRate findProgramAddress client (.pyth provider) (.new maxAge limit)
        (feedView ((OracleProvider.pyth provider).oracleFeedPubkey findProgramAddress)
          (run runtime provider.programId start calls)) unixTimestamp = .ok rate ↔
      ∃ checked : OracleRate, checked.stored = rate ∧
        Quotes provider (PythPrice.fromBytes call.instructionData) checked ∧
        (-2 ^ 63 ≤ unixTimestamp.toInt - call.unixTimestamp.toInt ∧
          unixTimestamp.toInt - call.unixTimestamp.toInt < 2 ^ 63) ∧
        (maxAge.toNat = 0 ∨ unixTimestamp.toInt - call.unixTimestamp.toInt ≤ maxAge.toNat) ∧
        (limit.bits = 0 ∨ checked.confidence.bits * 2 ^ 48 / checked.rate.bits ≤ limit.bits) := by
  rw [loadAndValidate_of_lastPush creates provider maxAge limit rfl last]
  refine exists_congr fun checked => ?_
  rw [checked.validate_stored_ok]
  exact and_left_comm

/-- Where a price comes from: the last push to the feed, which is no older than allowed, and of
whose signer every push to the feed was. -/
structure Provenance (runtime : OracleRuntime) (provider : PythProvider) (key : Pubkey)
    (maxAge : U64) (start : Store) (calls : List Call) (unixTimestamp : Int64) (rate : StoredRate)
    (call : Call) (signer : AccountMeta) : Prop where
  last : ∃ before after,
    LastPush runtime provider.programId key start calls before call after
  pushes : call.Pushes key signer
  signed : signer.isSigner = true
  onlySigner : PushedBy runtime provider.programId key signer.key start calls
  quotes : ∃ checked : OracleRate, checked.stored = rate ∧
    Quotes provider (PythPrice.fromBytes call.instructionData) checked
  young : maxAge.toNat = 0 ∨ unixTimestamp.toInt - call.unixTimestamp.toInt ≤ maxAge.toNat

/-- No price is accepted but that of the last push, and all pushes to the feed are of one signer. -/
theorem accepted_price_was_pushed (runtime : OracleRuntime) (creates : runtime.Creates)
    (findProgramAddress : List (List UInt8) → Pubkey → Pubkey × UInt8) (provider : PythProvider)
    (maxAge : U64) (limit : IFixedPoint) (key : Pubkey)
    (canonical : (OracleProvider.pyth provider).oracleFeedPubkey findProgramAddress = key)
    (start : Store)
    (absent : (start key).owner = provider.programId →
      (start key).data.length ≠ pythPriceAccountLen)
    (calls : List Call) (unixTimestamp : Int64) (rate : StoredRate)
    (accepted : loadAndValidateOracleRate findProgramAddress false (.pyth provider)
      (.new maxAge limit) (feedView key (run runtime provider.programId start calls))
      unixTimestamp = .ok rate) :
    ∃ call signer,
      Provenance runtime provider key maxAge start calls unixTimestamp rate call signer := by
  have loaded := accepted
  simp only [loadAndValidateOracleRate, except_bind_ok] at loaded
  obtain ⟨price, loaded, -⟩ := loaded
  obtain ⟨before, call, after, last⟩ := exists_lastPush creates provider calls absent loaded
  rw [loadAndValidate_of_lastPush creates provider maxAge limit canonical last] at accepted
  obtain ⟨checked, quotes, valid⟩ := accepted
  obtain ⟨same, -, young, -⟩ := (checked.validate_stored_ok _ _ _ _ _).mp valid
  obtain ⟨authority, pushedBy⟩ :=
    @exists_pushedBy runtime provider.programId creates key start calls
  obtain ⟨t, operation⟩ := last
  obtain ⟨u, success⟩ := operation.success
  obtain ⟨signer, pushes⟩ := operation.member
  have along : Machine.Along (processInstruction runtime provider.programId)
      (fun _ call => ∀ signer, call.Pushes key signer →
        signer.isSigner = true ∧ signer.key = authority) start (before ++ call :: after) :=
    operation.split ▸ pushedBy
  obtain ⟨signed, rfl⟩ := along.at_operation success signer pushes
  exact ⟨call, signer,
    { last := ⟨before, after, t, operation⟩
      pushes
      signed
      onlySigner := pushedBy
      quotes := ⟨checked, same, quotes⟩
      young }⟩

theorem plainOracleRuntime_creates : plainOracleRuntime.Creates where
  documented := plainOracleRuntime_documented
  created := by
    intro source target lamports space owner accounts seeds s s' invoked
    simp only [plainOracleRuntime, except_ite_ok, reduceCtorEq, and_false, or_false,
      Except.ok.injEq] at invoked
    obtain ⟨-, rfl⟩ := invoked
    rw [Function.update_self]

def unallocated : Store := fun _ => ⟨zeroedPubkey, 0, []⟩

def quote (signer : UInt8) (price : U64) : Call where
  accounts := [⟨Vector.replicate 32 signer, true⟩, ⟨Vector.replicate 32 5, false⟩]
  instructionData := List.replicate 32 7 ++
    (Bytes.ofUInt64 price ++ (Bytes.ofUInt64 1 ++ List.replicate 72 0))
  unixTimestamp := 1000

def feedSeven : PythProvider := ⟨Vector.replicate 32 7, Vector.replicate 32 9⟩

def feedAddress (_ : List (List UInt8)) (_ : Pubkey) : Pubkey × UInt8 :=
  (Vector.replicate 32 5, 255)

theorem lastPush_of_refused {runtime : OracleRuntime} {programId key : Pubkey} {start : Store}
    {call refused : Call} {e : ProgramFailure} (targets : call.Targets key)
    (taken : (processInstruction runtime programId call start).1 = .ok ())
    (fails : (processInstruction runtime programId refused
      (processInstruction runtime programId call start).2).1 = .error e) :
    LastPush runtime programId key start [call, refused] [] call [refused] := by
  refine ⟨(processInstruction runtime programId call start).2, rfl, targets,
    ⟨(), Prod.ext taken rfl⟩, fun u s' again => ?_, trivial⟩
  have succeeded : (processInstruction runtime programId refused
      (processInstruction runtime programId call start).2).1 = .ok u := congrArg Prod.fst again
  rw [fails] at succeeded
  cases succeeded

theorem lastPush_of_quotes :
    LastPush plainOracleRuntime feedSeven.programId
      ((OracleProvider.pyth feedSeven).oracleFeedPubkey feedAddress) unallocated
      [quote 1 100, quote 2 3] [] (quote 1 100) [quote 2 3] :=
  lastPush_of_refused (e := .error .incorrectAuthority)
    ⟨⟨Vector.replicate 32 1, true⟩, ⟨Vector.replicate 32 5, false⟩, [], rfl, rfl⟩
    (by decide +kernel) (by decide +kernel)

theorem last_quote_accepted :
    loadAndValidateOracleRate feedAddress false (.pyth feedSeven) (.new 60 Fixed.one)
        (feedView (Vector.replicate 32 5) (run plainOracleRuntime feedSeven.programId unallocated
          [quote 1 100, quote 2 3])) 1030 = .ok ⟨Fixed.fromU64 100, Fixed.fromU64 1⟩ :=
  (last_push_accepted_iff plainOracleRuntime plainOracleRuntime_creates feedAddress false feedSeven
    60 Fixed.one unallocated [quote 1 100, quote 2 3] [] [quote 2 3] (quote 1 100)
    lastPush_of_quotes 1030 ⟨Fixed.fromU64 100, Fixed.fromU64 1⟩).mpr
      ⟨⟨Fixed.fromU64 100, Fixed.fromU64 1, by decide, by decide⟩, rfl,
        ⟨by decide +kernel, by decide +kernel, by decide +kernel⟩, by decide, by decide,
        by decide +kernel⟩

theorem accepted_quote_was_pushed :
    ∃ call signer, Provenance plainOracleRuntime feedSeven (Vector.replicate 32 5) 60 unallocated
      [quote 1 100, quote 2 3] 1030 ⟨Fixed.fromU64 100, Fixed.fromU64 1⟩ call signer :=
  accepted_price_was_pushed plainOracleRuntime plainOracleRuntime_creates feedAddress feedSeven 60
    Fixed.one (Vector.replicate 32 5) rfl unallocated
      (fun native => absurd native (by decide +kernel))
    [quote 1 100, quote 2 3] 1030 ⟨Fixed.fromU64 100, Fixed.fromU64 1⟩ (by decide +kernel)

end PriceFeed

end AutaraLending
