import AutaraLending.Oracle

/-! The checks a price has to pass before it is used, and how they move with their limits. A
limit is stored in an option that has no value for zero, so the strictest limit of all is no
limit. -/

namespace AutaraLending

open Support

class Zeroable (α : Type) where
  zeroed : α

instance : Zeroable U64 := ⟨0⟩
instance : Zeroable IFixedPoint := ⟨Fixed.zero⟩

/-- An optional value of fixed size, absent when all its bytes are zero. -/
structure PodOption (α : Type) where
  value : α
  deriving DecidableEq

namespace PodOption

variable {α : Type}

def new (value : α) : PodOption α := ⟨value⟩

def asRef [DecidableEq α] [Zeroable α] (self : PodOption α) : Option α :=
  if self.value = Zeroable.zeroed then none else some self.value

end PodOption

structure OracleValidationConfig where
  maxAge : PodOption U64
  minRelativeConfidence : PodOption IFixedPoint
  deriving DecidableEq

def OracleValidationConfig.new (maxAge : U64) (minRelativeConfidence : IFixedPoint) :
    OracleValidationConfig :=
  ⟨.new maxAge, .new minRelativeConfidence⟩

/-- The two numbers of an `OracleRate` as its bytes may hold them, with none of the checks of
`try_new` made. -/
structure StoredRate where
  rate : IFixedPoint
  confidence : IFixedPoint
  deriving DecidableEq

def StoredRate.relativeConfidence (self : StoredRate) : LendingResult IFixedPoint :=
  self.confidence.safeDiv self.rate

def OracleRate.stored (self : OracleRate) : StoredRate := ⟨self.rate, self.confidence⟩

def I64.checkedSub (a b : Int64) : Option Int64 :=
  if -2 ^ 63 ≤ a.toInt - b.toInt ∧ a.toInt - b.toInt < 2 ^ 63 then some (a - b) else none

theorem I64.checkedSub_some (a b c : Int64) :
    I64.checkedSub a b = some c ↔ a.toInt - b.toInt = c.toInt := by
  have lower := c.le_toInt
  have upper := c.toInt_lt
  simp only [I64.checkedSub, Option.ite_none_right_eq_some, Option.some.injEq]
  constructor
  · rintro ⟨range, rfl⟩
    rw [Int64.toInt_sub]
    exact (Int.bmod_eq_of_le (by omega) (by omega)).symm
  · intro difference
    refine ⟨by omega, Int64.toInt_inj.mp ?_⟩
    rw [Int64.toInt_sub, difference]
    exact Int.bmod_eq_of_le (by omega) (by omega)

structure UncheckedOracleRate where
  rate : StoredRate
  publishTime : Int64
  deriving DecidableEq

namespace UncheckedOracleRate

def age (self : UncheckedOracleRate) (unixTimestamp : Int64) : LendingResult U64 := do
  let elapsed ← okOr .subtractionOverflow (I64.checkedSub unixTimestamp self.publishTime)
  pure (UInt64.ofNat elapsed.toInt.toNat)

def validate (self : UncheckedOracleRate) (config : OracleValidationConfig)
    (unixTimestamp : Int64) : LendingResult StoredRate :=
  if self.rate.rate.isNegative then
    .error (LendingError.negativeOracleRate.withMsg "rate is negative")
  else if self.rate.confidence.isNegative then
    .error (LendingError.negativeOracleRate.withMsg "confidence is negative")
  else if self.rate.rate.isZero then .error LendingError.oracleRateIsNull.into
  else do
    let age ← self.age unixTimestamp
    if config.maxAge.asRef.any (fun maxAge => maxAge < age) then
      .error LendingError.oracleRateTooOld.into
    else do
      let relativeConfidence ← self.rate.relativeConfidence
      if config.minRelativeConfidence.asRef.any (fun minConf => minConf < relativeConfidence) then
        .error LendingError.oracleRateRelativeConfidenceTooLow.into
      else pure self.rate

theorem age_ok (self : UncheckedOracleRate) (unixTimestamp : Int64) (age : U64) :
    self.age unixTimestamp = .ok age ↔
      ∃ elapsed : Int64, unixTimestamp.toInt - self.publishTime.toInt = elapsed.toInt ∧
        age.toNat = elapsed.toInt.toNat := by
  simp only [UncheckedOracleRate.age, except_bind_ok, okOr_ok, except_pure_ok, I64.checkedSub_some]
  refine exists_congr fun elapsed => and_congr_right fun _ => ?_
  have upper := elapsed.toInt_lt
  rw [← UInt64.toNat_inj, U64.toNat_ofNat (by omega), eq_comm]

theorem age_lt {self : UncheckedOracleRate} {unixTimestamp : Int64} {age : U64}
    (success : self.age unixTimestamp = .ok age) : age.toNat < 2 ^ 63 := by
  obtain ⟨elapsed, -, age_eq⟩ := (self.age_ok unixTimestamp age).mp success
  have upper := elapsed.toInt_lt
  omega

theorem validate_new_ok (self : UncheckedOracleRate) (maxAge : U64) (limit : IFixedPoint)
    (unixTimestamp : Int64) (rate : StoredRate) :
    self.validate (.new maxAge limit) unixTimestamp = .ok rate ↔
      (self.rate = rate ∧ 0 < self.rate.rate.bits ∧ 0 ≤ self.rate.confidence.bits) ∧
      (∃ age, self.age unixTimestamp = .ok age ∧
        (maxAge.toNat = 0 ∨ age.toNat ≤ maxAge.toNat)) ∧
      ∃ relative, self.rate.relativeConfidence = .ok relative ∧
        (limit.bits = 0 ∨ relative.bits ≤ limit.bits) := by
  have maxAge_zero : maxAge = Zeroable.zeroed ↔ maxAge.toNat = 0 := by
    rw [← UInt64.toNat_inj]
    rfl
  have limit_zero : limit = Zeroable.zeroed ↔ limit.bits = 0 :=
    ⟨fun same => same ▸ rfl, fun none => Fixed.ext_bits (none.trans rfl)⟩
  have tooOld (age : U64) : (PodOption.new maxAge).asRef.any (fun maxAge => maxAge < age) = true ↔
      ¬ (maxAge.toNat = 0 ∨ age.toNat ≤ maxAge.toNat) := by
    by_cases none : maxAge.toNat = 0
    · simp [PodOption.asRef, PodOption.new, maxAge_zero, none]
    · simp [PodOption.asRef, PodOption.new, maxAge_zero, none, UInt64.lt_iff_toNat_lt]
  have tooWide (relative : IFixedPoint) :
      (PodOption.new limit).asRef.any (fun minConf => minConf < relative) = true ↔
        ¬ (limit.bits = 0 ∨ relative.bits ≤ limit.bits) := by
    by_cases none : limit.bits = 0
    · simp [PodOption.asRef, PodOption.new, limit_zero, none]
    · simp [PodOption.asRef, PodOption.new, limit_zero, none, Fixed.lt_def]
  simp only [validate, OracleValidationConfig.new, except_ite_ok, except_bind_ok, tooOld, tooWide,
    Fixed.isNegative_iff, Fixed.isZero_iff, except_pure_ok, reduceCtorEq, and_false, false_or,
    not_not]
  constructor
  · rintro ⟨rate_nonneg, confidence_nonneg, nonzero, age, age_eq, young, relative, relative_eq,
      narrow, same⟩
    exact ⟨⟨same, by omega, by omega⟩, ⟨age, age_eq, young⟩, relative, relative_eq, narrow⟩
  · rintro ⟨⟨same, positive, nonneg⟩, ⟨age, age_eq, young⟩, relative, relative_eq, narrow⟩
    exact ⟨by omega, by omega, by omega, age, age_eq, young, relative, relative_eq, narrow, same⟩

end UncheckedOracleRate

namespace OracleValidationConfig

/-- Every price of a kind that the tighter configuration accepts, the looser one accepts. -/
def Monotone (kind : StoredRate → Prop) (tighter looser : OracleValidationConfig) : Prop :=
  ∀ (price : UncheckedOracleRate) (unixTimestamp : Int64), kind price.rate →
    (∃ rate, price.validate tighter unixTimestamp = .ok rate) →
      ∃ rate, price.validate looser unixTimestamp = .ok rate

structure Spread (kind : StoredRate → Prop) (greatest : Int) : Prop where
  positive : 0 < greatest
  bounded : ∀ rate relative, kind rate → 0 < rate.rate.bits → 0 ≤ rate.confidence.bits →
    rate.relativeConfidence = .ok relative → relative.bits ≤ greatest
  attained : ∀ bits, bits = 0 ∨ bits = greatest →
    ∃ rate relative, kind rate ∧ 0 < rate.rate.bits ∧ 0 ≤ rate.confidence.bits ∧
      rate.relativeConfidence = .ok relative ∧ relative.bits = bits

variable {kind : StoredRate → Prop} {greatest : Int} {maxAge maxAge' : U64}
  {limit limit' : IFixedPoint}

theorem exists_old_price (spread : Spread kind greatest) (bits : Int)
    (extreme : bits = 0 ∨ bits = greatest) (age : Int) (nonneg : 0 ≤ age) (small : age < 2 ^ 63) :
    ∃ (price : UncheckedOracleRate) (unixTimestamp : Int64), kind price.rate ∧
      ∀ maxAge limit, (∃ rate, price.validate (.new maxAge limit) unixTimestamp = .ok rate) ↔
        (maxAge.toNat = 0 ∨ age ≤ maxAge.toNat) ∧ (limit.bits = 0 ∨ bits ≤ limit.bits) := by
  obtain ⟨rate, relative, member, positive, confidence, relative_eq, relative_bits⟩ :=
    spread.attained bits extreme
  have now : (Int64.ofInt age).toInt = age := Int64.toInt_ofInt_of_le (by omega) (by omega)
  obtain ⟨elapsed, elapsed_eq⟩ := U64.exists_toNat age nonneg (by omega)
  have age_eq : UncheckedOracleRate.age ⟨rate, 0⟩ (Int64.ofInt age) = .ok elapsed :=
    (UncheckedOracleRate.age_ok _ _ _).mpr ⟨Int64.ofInt age, by simp, by rw [now]; omega⟩
  refine ⟨⟨rate, 0⟩, Int64.ofInt age, member, fun maxAge limit => ?_⟩
  simp only [UncheckedOracleRate.validate_new_ok]
  constructor
  · rintro ⟨_, -, ⟨_, age_eq', young⟩, _, relative_eq', narrow⟩
    rw [age_eq, Except.ok.injEq] at age_eq'
    rw [relative_eq, Except.ok.injEq] at relative_eq'
    subst age_eq' relative_eq'
    exact ⟨by omega, by omega⟩
  · rintro ⟨young, narrow⟩
    exact ⟨rate, ⟨rfl, positive, confidence⟩, ⟨elapsed, age_eq, by omega⟩, relative, relative_eq,
      by omega⟩

theorem monotone_iff (spread : Spread kind greatest) (ages : maxAge ≤ maxAge')
    (nonneg : 0 ≤ limit.bits) (limits : limit ≤ limit') :
    Monotone kind (.new maxAge limit) (.new maxAge' limit') ↔
      (maxAge.toNat ≠ 0 ∨ maxAge'.toNat = 0 ∨ 2 ^ 63 - 1 ≤ maxAge'.toNat) ∧
        (limit.bits ≠ 0 ∨ limit'.bits = 0 ∨ greatest ≤ limit'.bits) := by
  have ages_le := UInt64.le_iff_toNat_le.mp ages
  have limits_le := (Fixed.le_def _ _).mp limits
  have positive := spread.positive
  constructor
  · intro monotone
    constructor
    · obtain ⟨price, now, member, accepts⟩ :=
        exists_old_price spread 0 (Or.inl rfl) (2 ^ 63 - 1) (by norm_num) (by norm_num)
      have passes := monotone price now member
      rw [accepts, accepts] at passes
      omega
    · obtain ⟨price, now, member, accepts⟩ :=
        exists_old_price spread greatest (Or.inr rfl) 0 le_rfl (by norm_num)
      have passes := monotone price now member
      rw [accepts, accepts] at passes
      omega
  · rintro ⟨age_case, limit_case⟩ price now member ⟨rate, accepted⟩
    obtain ⟨⟨same, rate_pos, confidence_nonneg⟩, ⟨age, age_eq, young⟩, relative, relative_eq,
      narrow⟩ := (price.validate_new_ok _ _ _ _).mp accepted
    have age_lt := UncheckedOracleRate.age_lt age_eq
    have bounded := spread.bounded _ _ member rate_pos confidence_nonneg relative_eq
    exact ⟨rate, (price.validate_new_ok _ _ _ _).mpr ⟨⟨same, rate_pos, confidence_nonneg⟩,
      ⟨age, age_eq, by omega⟩, relative, relative_eq, by omega⟩⟩

theorem rate_one_pos : 0 < (Fixed.one : IFixedPoint).bits := by decide

theorem relativeConfidence_one (confidence : IFixedPoint) :
    StoredRate.relativeConfidence ⟨Fixed.one, confidence⟩ = .ok confidence := by
  rw [StoredRate.relativeConfidence, Fixed.safeDiv_ok]
  simp only [Fixed.one_bits, i80f48_frac]
  exact ⟨by norm_num, Int.mul_tdiv_cancel _ (by norm_num)⟩

theorem spread_stored : Spread (fun _ => True) (2 ^ 127 - 1) where
  positive := by norm_num
  bounded _ relative _ _ _ _ := by
    have range := relative.bits_lt
    omega
  attained bits extreme := by
    obtain ⟨confidence, confidence_eq⟩ := IFixedPoint.exists_bits bits (by omega) (by omega)
    exact ⟨⟨Fixed.one, confidence⟩, confidence, trivial, rate_one_pos, by dsimp only; omega,
      relativeConfidence_one confidence, confidence_eq⟩

theorem spread_checked :
    Spread (fun rate => ∃ checked : OracleRate, checked.stored = rate) (2 ^ 48 - 1) where
  positive := by norm_num
  bounded := by
    rintro _ relative ⟨checked, rfl⟩ positive nonneg success
    obtain ⟨-, quotient⟩ := (Fixed.safeDiv_ok _ _ _).mp success
    have narrow := checked.confidence_lt
    have positive : 0 < checked.rate.bits := positive
    have below : checked.confidence.bits * 2 ^ 48 / checked.rate.bits < 2 ^ 48 := by
      rw [Int.ediv_lt_iff_lt_mul positive, mul_comm (2 ^ 48 : Int)]
      exact mul_lt_mul_of_pos_right narrow (by norm_num)
    rw [Int.tdiv_eq_ediv_of_nonneg (mul_nonneg nonneg (by positivity))] at quotient
    simp only [OracleRate.stored, i80f48_frac] at quotient
    omega
  attained bits extreme := by
    obtain ⟨confidence, confidence_eq⟩ := IFixedPoint.exists_bits bits (by omega) (by omega)
    have one_bits : (Fixed.one : IFixedPoint).bits = 2 ^ 48 := Fixed.one_bits
    exact ⟨⟨Fixed.one, confidence⟩, confidence,
      ⟨⟨Fixed.one, confidence, by omega, by omega⟩, rfl⟩, rate_one_pos, by dsimp only; omega,
      relativeConfidence_one confidence, confidence_eq⟩

/-- Validation follows the order of the limits except from a limit of zero to a limit that can
still refuse something. -/
theorem validation_monotone_iff (maxAge1 maxAge2 : U64) (limit1 limit2 : IFixedPoint)
    (ages : maxAge1 ≤ maxAge2) (nonneg : 0 ≤ limit1.bits) (limits : limit1 ≤ limit2) :
    (Monotone (fun _ => True) (.new maxAge1 limit1) (.new maxAge2 limit2) ↔
      (maxAge1.toNat ≠ 0 ∨ maxAge2.toNat = 0 ∨ 2 ^ 63 - 1 ≤ maxAge2.toNat) ∧
        (limit1.bits ≠ 0 ∨ limit2.bits = 0 ∨ 2 ^ 127 - 1 ≤ limit2.bits)) ∧
    (Monotone (fun rate => ∃ checked : OracleRate, checked.stored = rate)
        (.new maxAge1 limit1) (.new maxAge2 limit2) ↔
      (maxAge1.toNat ≠ 0 ∨ maxAge2.toNat = 0 ∨ 2 ^ 63 - 1 ≤ maxAge2.toNat) ∧
        (limit1.bits ≠ 0 ∨ limit2.bits = 0 ∨ 2 ^ 48 - 1 ≤ limit2.bits)) :=
  ⟨monotone_iff spread_stored ages nonneg limits, monotone_iff spread_checked ages nonneg limits⟩

theorem validation_monotone_minute_to_hour :
    Monotone (fun _ => True) (.new 60 Fixed.one) (.new 3600 Fixed.one) :=
  (validation_monotone_iff 60 3600 Fixed.one Fixed.one (by decide) (by decide) (by decide)).1.mpr
    ⟨by decide, by decide⟩

/-- A price of a thousand seconds passes where no age at all is allowed, and fails where a
minute is. -/
theorem zero_age_limit_accepts_stale :
    (0 : U64) ≤ 60 ∧ (0 : Int) ≤ (Fixed.one : IFixedPoint).bits ∧
      (UncheckedOracleRate.mk ⟨Fixed.one, Fixed.zero⟩ 0).validate (.new 0 Fixed.one) 1000 =
        .ok ⟨Fixed.one, Fixed.zero⟩ ∧
      (UncheckedOracleRate.mk ⟨Fixed.one, Fixed.zero⟩ 0).validate (.new 60 Fixed.one) 1000 =
        .error LendingError.oracleRateTooOld.into := by
  refine ⟨by decide, by decide, by decide +kernel, by decide +kernel⟩

end OracleValidationConfig

structure OracleConfig where
  oracleProvider : OracleProvider
  validationConfig : OracleValidationConfig
  deriving DecidableEq

def OracleConfig.validate (self : OracleConfig) : LendingResult Unit :=
  match self.oracleProvider with
  | .chaos provider =>
      if provider.requiredSignatures = 0 then
        .error (LendingError.invalidOracleConfig.withMsg
          "required_signatures must be greater than 0")
      else .ok ()
  | .pyth _ => .ok ()

end AutaraLending
