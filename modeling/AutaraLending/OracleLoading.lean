import AutaraLending.OracleValidation
import AutaraLending.PriceFeed
import AutaraLending.Support.LittleEndian

/-! Prices read from the bytes of accounts that anyone may hand in. -/

namespace AutaraLending

open Support

def I8.checkedAbs (a : Int8) : Option UInt8 :=
  if a.toInt = -128 then none else some (UInt8.ofNat a.toInt.natAbs)

namespace OracleRate

def scale (expo : Int8) (expoPow fixed : IFixedPoint) : LendingResult IFixedPoint :=
  if expo.toInt ≤ 0 then fixed.safeDiv expoPow else fixed.safeMul expoPow

def tryFromPriceExpoConf (price confidence : U64) (expo : Int8) : LendingResult OracleRate := do
  let index ← okOr .castOverflow (I8.checkedAbs expo)
  let expoPow ← positivePowerOfTen index
  let rate ← scale expo expoPow (Fixed.fromU64 price)
  let confidence ← scale expo expoPow (Fixed.fromU64 confidence)
  tryNew rate confidence

end OracleRate

/-- An account as a loader sees it. Whether the data starts at a multiple of eight decides if it
can be read in place. -/
structure AccountView where
  key : Pubkey
  data : List UInt8
  owner : Pubkey
  aligned : Bool
  deriving DecidableEq

def readU64 (data : List UInt8) (offset : Nat) : U64 :=
  UInt64.ofNat (LittleEndian.decode (Bytes.region data offset (offset + 8)))

structure PythPriceData where
  price : U64
  conf : U64
  expo : Int64
  publishTime : Int64
  deriving DecidableEq

/-- The part of a `PythPrice` that is used: its identifier and the price. -/
structure PythPrice where
  id : List UInt8
  price : PythPriceData
  deriving DecidableEq

namespace PythPrice

/-- The fields in the order of their layout. -/
def fromBytes (data : List UInt8) : PythPrice where
  id := PriceFeed.pythPriceId data
  price :=
    { price := readU64 data 32
      conf := readU64 data 40
      expo := (readU64 data 48).toInt64
      publishTime := (readU64 data PriceFeed.pricePublishTimeOffset).toInt64 }

/-- `try_from_bytes` asks for the exact size and the alignment. Host-side clients also read the
layout without an authority. -/
def tryFromView (client : Bool) (view : AccountView) : LendingResult PythPrice :=
  if view.aligned ∧ view.data.length = PriceFeed.pythPriceAccountLen then
    .ok (fromBytes view.data)
  else if client ∧ view.data.length = PriceFeed.pythPriceLen then
    if view.aligned then .ok (fromBytes view.data)
    else .error LendingError.invalidPythOracleAccount.into
  else .error LendingError.invalidPythOracleAccount.into

end PythPrice

def PythProvider.loadOraclePrice (client : Bool) (self : PythProvider) (view : AccountView) :
    LendingResult UncheckedOracleRate := do
  if view.owner ≠ self.programId then
    .error (LendingError.invalidPythOracleAccount.withMsg "Invalid program id")
  else do
    let pythPrice ← PythPrice.tryFromView client view
    if pythPrice.id ≠ self.feedId.toList then .error LendingError.invalidOracleFeedId.into
    else if maxExponentAbs < pythPrice.price.expo ∨ pythPrice.price.expo < -maxExponentAbs then
      .error (LendingError.invalidPythOracleAccount.withMsg "Invalid exponent")
    else do
      let expo := pythPrice.price.expo.toInt8
      let rate ← OracleRate.tryFromPriceExpoConf pythPrice.price.price pythPrice.price.conf expo
      pure ⟨rate.stored, pythPrice.price.publishTime⟩

structure ChaosPriceData where
  price : U64
  observedTs : U64
  expo : Int8
  deriving DecidableEq

structure ChaosPriceState where
  priceId : List UInt8
  price : ChaosPriceData
  numSignatures : UInt8
  deriving DecidableEq

namespace ChaosPriceState

def discriminator : List UInt8 := [168, 184, 18, 246, 179, 16, 141, 51]

def len : Nat := 2 + 32 + (8 + 8 + 1) + (8 + 8 + 1) + 1 + 8 + 8 + 1

def tryFromSlice (data : List UInt8) : Option ChaosPriceState :=
  if data.length = len then
    some
      { priceId := Bytes.region data 2 34
        price :=
          { price := readU64 data 34
            observedTs := readU64 data 42
            expo := (data.getD 50 0).toInt8 }
        numSignatures := data.getD 68 0 }
  else none

end ChaosPriceState

def ChaosProvider.loadOraclePrice (self : ChaosProvider) (view : AccountView) :
    LendingResult UncheckedOracleRate := do
  if view.owner ≠ self.programId then
    .error (LendingError.invalidChaosOracleAccount.withMsg "Invalid program id")
  else if view.data.length < 8 then .error LendingError.invalidChaosOracleAccount.into
  else if view.data.take 8 ≠ ChaosPriceState.discriminator then
    .error (LendingError.invalidChaosOracleAccount.withMsg "Invalid discriminator")
  else do
    let chaosPrice ← okOr .invalidChaosOracleAccount
      (ChaosPriceState.tryFromSlice (view.data.drop 8))
    if chaosPrice.priceId ≠ self.feedId.toList then .error LendingError.invalidOracleFeedId.into
    else if chaosPrice.numSignatures < self.requiredSignatures then
      .error (LendingError.invalidChaosOracleAccount.withMsg "Insufficient signatures")
    else if maxExponentAbs < chaosPrice.price.expo.toInt64 ∨
        chaosPrice.price.expo.toInt64 < -maxExponentAbs then
      .error (LendingError.invalidChaosOracleAccount.withMsg "Invalid exponent")
    else do
      let rate ← OracleRate.tryFromPriceExpoConf chaosPrice.price.price 0 chaosPrice.price.expo
      pure ⟨rate.stored, chaosPrice.price.observedTs.toInt64⟩

def priceConfigSeed : String := "chaos_price_config"

namespace OracleProvider

variable (findProgramAddress : List (List UInt8) → Pubkey → Pubkey × UInt8) (client : Bool)

def programId : OracleProvider → Pubkey
  | .pyth provider => provider.programId
  | .chaos provider => provider.programId

def oracleFeedPubkey : OracleProvider → Pubkey
  | .pyth provider => (findProgramAddress [provider.feedId.toList] provider.programId).1
  | .chaos provider =>
      (findProgramAddress [priceConfigSeed.toUTF8.toList, provider.feedId.toList]
        provider.programId).1

def loadOraclePrice (self : OracleProvider) (view : AccountView) :
    LendingResult UncheckedOracleRate :=
  if view.key ≠ self.oracleFeedPubkey findProgramAddress then
    .error (LendingError.invalidOracleFeedAccount.withMsg
      "oracle account is not the feed's canonical account")
  else
    match self with
    | .pyth provider => provider.loadOraclePrice client view
    | .chaos provider => provider.loadOraclePrice view

end OracleProvider

/-! A call that comes back, with a value or an error. -/

def Returns {α : Type} (x : LendingResult α) : Prop := x ≠ .error .panic

section Returns

variable {α β : Type}

@[simp] theorem returns_ok (a : α) : Returns (.ok a : LendingResult α) := by simp [Returns]

@[simp] theorem returns_pure (a : α) : Returns (pure a : LendingResult α) := returns_ok a

@[simp] theorem returns_into (error : LendingError) :
    Returns (.error error.into : LendingResult α) := by
  simp [Returns, LendingError.into]

@[simp] theorem returns_withMsg (error : LendingError) (msg : String) :
    Returns (.error (error.withMsg msg) : LendingResult α) := by
  simp [Returns, LendingError.withMsg]

@[simp] theorem returns_okOr (error : LendingError) (x : Option α) : Returns (okOr error x) := by
  cases x with
  | none => exact returns_into error
  | some a => exact returns_ok a

@[simp] theorem returns_bind (x : LendingResult α) (f : α → LendingResult β) :
    Returns (x >>= f) ↔ Returns x ∧ ∀ a, x = .ok a → Returns (f a) := by
  cases x with
  | error failure => simp [Returns, bind, Except.bind]
  | ok a => simp [Returns, bind, Except.bind]

@[simp] theorem returns_ite (condition : Prop) [Decidable condition] (x y : LendingResult α) :
    Returns (if condition then x else y) ↔
      (condition → Returns x) ∧ (¬ condition → Returns y) := by
  by_cases holds : condition <;> simp [holds]

end Returns

theorem I8.checkedAbs_some {a : Int8} {index : UInt8} (success : I8.checkedAbs a = some index) :
    index.toNat = a.toInt.natAbs := by
  have lower := a.le_toInt
  have upper := a.toInt_lt
  simp only [I8.checkedAbs, Option.ite_none_left_eq_some, Option.some.injEq] at success
  rw [← success.2, UInt8.toNat_ofNat']
  omega

namespace OracleRate

theorem scale_returns (expo : Int8) (expoPow fixed : IFixedPoint) :
    Returns (scale expo expoPow fixed) := by
  simp [scale, Fixed.safeDiv, Fixed.safeMul]

theorem tryNew_returns (rate confidence : IFixedPoint) : Returns (tryNew rate confidence) := by
  unfold tryNew
  split
  · exact returns_into _
  · split
    · exact returns_into _
    · split
      · exact returns_into _
      · exact returns_ok _

theorem tryFromPriceExpoConf_returns (price confidence : U64) (expo : Int8)
    (lower : -18 ≤ expo.toInt) (upper : expo.toInt ≤ 18) :
    Returns (tryFromPriceExpoConf price confidence expo) := by
  simp only [tryFromPriceExpoConf, returns_bind, returns_okOr, true_and, okOr_ok, scale_returns,
    tryNew_returns, implies_true, and_true]
  intro index index_eq
  have small := I8.checkedAbs_some index_eq
  rw [positivePowerOfTen, dif_pos (by omega)]
  exact returns_ok _

theorem collateralValue_le_borrowValue (self : OracleRate) {amount : U64} {decimals : UInt8}
    {collateral borrow : IFixedPoint} (low : self.collateralValue amount decimals = .ok collateral)
    (high : self.borrowValue amount decimals = .ok borrow) : collateral.bits ≤ borrow.bits := by
  rw [((self.collateralValue_ok _ _ _).mp low).2.2, ((self.borrowValue_ok _ _ _).mp high).2.2.2]
  have order := self.lower_le_upper
  exact Int.ediv_le_ediv (by positivity) (by gcongr)

end OracleRate

theorem exponent_range {expo : Int64}
    (within : ¬ (maxExponentAbs < expo ∨ expo < -maxExponentAbs)) :
    -18 ≤ expo.toInt ∧ expo.toInt ≤ 18 := by
  simp only [Int64.lt_iff_toInt_lt, not_or, not_lt] at within
  exact ⟨within.2, within.1⟩

theorem toInt8_of_range {expo : Int64} (range : -18 ≤ expo.toInt ∧ expo.toInt ≤ 18) :
    expo.toInt8.toInt = expo.toInt := by
  rw [Int64.toInt_toInt8]
  exact Int.bmod_eq_of_le (by omega) (by omega)

theorem PythPrice.tryFromView_returns (client : Bool) (view : AccountView) :
    Returns (PythPrice.tryFromView client view) := by
  simp [PythPrice.tryFromView]

theorem PythProvider.loadOraclePrice_returns (client : Bool) (self : PythProvider)
    (view : AccountView) : Returns (self.loadOraclePrice client view) := by
  simp only [loadOraclePrice, returns_ite, returns_bind, returns_withMsg, returns_into,
    returns_pure, PythPrice.tryFromView_returns, implies_true, true_and, and_true]
  intro _ price _ _ within
  have range := exponent_range within
  have same := toInt8_of_range range
  exact OracleRate.tryFromPriceExpoConf_returns _ _ _ (by omega) (by omega)

theorem ChaosProvider.loadOraclePrice_returns (self : ChaosProvider) (view : AccountView) :
    Returns (self.loadOraclePrice view) := by
  simp only [loadOraclePrice, returns_ite, returns_bind, returns_withMsg, returns_into,
    returns_pure, returns_okOr, implies_true, true_and, and_true]
  intro _ _ _ state _ _ _ within
  have range := exponent_range within
  rw [Int8.toInt_toInt64] at range
  exact OracleRate.tryFromPriceExpoConf_returns _ _ _ range.1 range.2

theorem PythProvider.loadOraclePrice_ok {client : Bool} {self : PythProvider} {view : AccountView}
    {price : UncheckedOracleRate} (success : self.loadOraclePrice client view = .ok price) :
    view.owner = self.programId ∧
      (∃ pythPrice, PythPrice.tryFromView client view = .ok pythPrice ∧
        pythPrice.id = self.feedId.toList) ∧
      ∃ rate : OracleRate, rate.stored = price.rate := by
  simp only [loadOraclePrice, except_ite_ok, except_bind_ok, except_pure_ok, reduceCtorEq,
    and_false, false_or, not_not, ne_eq] at success
  obtain ⟨owner, pythPrice, read, id, -, rate, -, rfl⟩ := success
  exact ⟨owner, ⟨pythPrice, read, id⟩, rate, rfl⟩

theorem ChaosProvider.loadOraclePrice_ok {self : ChaosProvider} {view : AccountView}
    {price : UncheckedOracleRate} (success : self.loadOraclePrice view = .ok price) :
    view.owner = self.programId ∧
      (∃ state, ChaosPriceState.tryFromSlice (view.data.drop 8) = some state ∧
        state.priceId = self.feedId.toList ∧ self.requiredSignatures ≤ state.numSignatures) ∧
      ∃ rate : OracleRate, rate.stored = price.rate := by
  simp only [loadOraclePrice, except_ite_ok, except_bind_ok, except_pure_ok, okOr_ok, reduceCtorEq,
    and_false, false_or, not_not, ne_eq] at success
  obtain ⟨owner, -, -, state, read, id, signed, -, rate, -, rfl⟩ := success
  exact ⟨owner, ⟨state, read, id, UInt8.not_lt.mp signed⟩, rate, rfl⟩

namespace OracleProvider

/-- What the bytes of an account say about themselves: the identifier of the feed and, where
the provider asks for signatures, enough of them. -/
def Records (client : Bool) (view : AccountView) : OracleProvider → Prop
  | .pyth provider => ∃ pythPrice, PythPrice.tryFromView client view = .ok pythPrice ∧
      pythPrice.id = provider.feedId.toList
  | .chaos provider => ∃ state, ChaosPriceState.tryFromSlice (view.data.drop 8) = some state ∧
      state.priceId = provider.feedId.toList ∧
      provider.requiredSignatures ≤ state.numSignatures

variable {findProgramAddress : List (List UInt8) → Pubkey → Pubkey × UInt8} {client : Bool}

theorem loadOraclePrice_ok {self : OracleProvider} {view : AccountView}
    {price : UncheckedOracleRate}
    (success : self.loadOraclePrice findProgramAddress client view = .ok price) :
    view.key = self.oracleFeedPubkey findProgramAddress ∧ view.owner = self.programId ∧
      self.Records client view ∧ ∃ rate : OracleRate, rate.stored = price.rate := by
  simp only [loadOraclePrice, except_ite_ok, reduceCtorEq, and_false, false_or, not_not,
    ne_eq] at success
  obtain ⟨key, loaded⟩ := success
  cases self with
  | pyth provider => exact ⟨key, PythProvider.loadOraclePrice_ok loaded⟩
  | chaos provider => exact ⟨key, ChaosProvider.loadOraclePrice_ok loaded⟩

/-- Whatever account is handed in, loading comes back, and what it accepts is the feed's own
account with a rate wider than its confidence. -/
theorem loadOraclePrice_safe (findProgramAddress : List (List UInt8) → Pubkey → Pubkey × UInt8)
    (client : Bool) (self : OracleProvider) (view : AccountView) :
    self.loadOraclePrice findProgramAddress client view ≠ .error .panic ∧
    ∀ price, self.loadOraclePrice findProgramAddress client view = .ok price →
      view.key = self.oracleFeedPubkey findProgramAddress ∧ view.owner = self.programId ∧
      self.Records client view ∧
      (0 ≤ price.rate.confidence.bits ∧ price.rate.confidence.bits < price.rate.rate.bits) ∧
      ∃ rate : OracleRate, rate.stored = price.rate ∧
        ∀ amount decimals collateral borrow, decimals.toNat ≤ 18 →
          rate.collateralValue amount decimals = .ok collateral →
          rate.borrowValue amount decimals = .ok borrow →
          0 ≤ collateral.bits ∧ collateral.bits ≤ borrow.bits := by
  constructor
  · change Returns _
    simp only [loadOraclePrice, returns_ite, returns_withMsg, implies_true, true_and]
    intro _
    cases self with
    | pyth provider => exact PythProvider.loadOraclePrice_returns client provider view
    | chaos provider => exact ChaosProvider.loadOraclePrice_returns provider view
  · intro price success
    obtain ⟨key, owner, records, rate, stored⟩ := loadOraclePrice_ok success
    refine ⟨key, owner, records, ?_, rate, stored, ?_⟩
    · rw [← stored]
      exact ⟨rate.confidence_nonneg, rate.confidence_lt⟩
    · intro amount decimals collateral borrow _ low high
      exact ⟨rate.collateralValue_nonneg low, rate.collateralValue_le_borrowValue low high⟩

theorem loadOraclePrice_safe_three_signatures :
    ∃ (self : OracleProvider) (view : AccountView) (price : UncheckedOracleRate),
      self.loadOraclePrice (fun _ _ => (Vector.replicate 32 9, 255)) false view = .ok price ∧
        view.owner = self.programId ∧ self.Records false view ∧
        0 ≤ price.rate.confidence.bits ∧ price.rate.confidence.bits < price.rate.rate.bits := by
  let provider : ChaosProvider := ⟨Vector.replicate 32 7, Vector.replicate 32 8, 2⟩
  -- a price of one at exponent minus two, with three signatures recorded
  let data : List UInt8 := ChaosPriceState.discriminator ++ [0, 0] ++ List.replicate 32 7 ++
    LittleEndian.encode 8 100 ++ LittleEndian.encode 8 1700000000 ++ [254] ++
    List.replicate 17 0 ++ [3] ++ List.replicate 17 0
  let view : AccountView := ⟨Vector.replicate 32 9, data, Vector.replicate 32 8, true⟩
  have success : (OracleProvider.chaos provider).loadOraclePrice
      (fun _ _ => (Vector.replicate 32 9, 255)) false view =
        .ok ⟨⟨Fixed.one, Fixed.zero⟩, 1700000000⟩ := by
    decide +kernel
  have safe := (loadOraclePrice_safe _ false (.chaos provider) view).2 _ success
  exact ⟨.chaos provider, view, _, success, safe.2.1, safe.2.2.1, safe.2.2.2.1⟩

end OracleProvider

end AutaraLending
