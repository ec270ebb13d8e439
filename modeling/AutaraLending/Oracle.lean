import AutaraLending.SafeMath

namespace AutaraLending

open Support

abbrev Pubkey := Vector UInt8 32

def maxExponentAbs : Int64 := 18

def positivePowerOfTen (decimals : UInt8) : LendingResult IFixedPoint :=
  if small : decimals.toNat ≤ 18 then
    .ok
      { bits := 10 ^ decimals.toNat * 2 ^ 48
        lower := by
          rw [i80f48_minBits]
          exact le_trans (by norm_num) (by positivity : (0 : Int) ≤ 10 ^ decimals.toNat * 2 ^ 48)
        upper := by
          have power : (10 : Int) ^ decimals.toNat ≤ 10 ^ 18 :=
            pow_le_pow_right₀ (by norm_num) small
          rw [i80f48_maxBits]
          omega }
  else .error .panic

/-- A rate per unit of an asset, with the interval it may be off by. -/
structure OracleRate where
  rate : IFixedPoint
  confidence : IFixedPoint
  confidence_nonneg : 0 ≤ confidence.bits
  confidence_lt : confidence.bits < rate.bits
  deriving DecidableEq

namespace OracleRate

def tryNew (rate confidence : IFixedPoint) : LendingResult OracleRate :=
  if rate.bits ≤ 0 then .error LendingError.oracleRateIsNull.into
  else if negative : confidence.bits < 0 then .error LendingError.negativeOracleRate.into
  else if exceeds : rate ≤ confidence then .error LendingError.oracleConfidenceExceedsRate.into
  else .ok ⟨rate, confidence, by omega, by rw [Fixed.le_def] at exceeds; omega⟩

def lowerBoundRate (self : OracleRate) : LendingResult IFixedPoint :=
  self.rate.safeSub self.confidence

def upperBoundRate (self : OracleRate) : LendingResult IFixedPoint :=
  self.rate.safeAdd self.confidence

def valueAtRate (rate : LendingResult IFixedPoint) (amount : U64) (decimals : UInt8) :
    LendingResult IFixedPoint := do
  let rate ← rate
  let product ← rate.safeMulU64 amount
  let power ← positivePowerOfTen decimals
  product.safeDiv power

def atomsAtRate (rate : LendingResult IFixedPoint) (value : IFixedPoint) (decimals : UInt8) :
    LendingResult IFixedPoint := do
  let power ← positivePowerOfTen decimals
  let product ← value.safeMul power
  let rate ← rate
  product.safeDiv rate

def collateralValue (self : OracleRate) (amount : U64) (decimals : UInt8) :
    LendingResult IFixedPoint :=
  valueAtRate self.lowerBoundRate amount decimals

def collateralAtoms (self : OracleRate) (value : IFixedPoint) (decimals : UInt8) :
    LendingResult IFixedPoint :=
  atomsAtRate self.lowerBoundRate value decimals

def borrowValue (self : OracleRate) (amount : U64) (decimals : UInt8) :
    LendingResult IFixedPoint :=
  valueAtRate self.upperBoundRate amount decimals

def borrowAtoms (self : OracleRate) (value : IFixedPoint) (decimals : UInt8) :
    LendingResult IFixedPoint :=
  atomsAtRate self.upperBoundRate value decimals

/-- The two bounds of the rate, in units of the last place. -/
def lower (self : OracleRate) : Int := self.rate.bits - self.confidence.bits

def upper (self : OracleRate) : Int := self.rate.bits + self.confidence.bits

theorem lower_pos (self : OracleRate) : 0 < self.lower := by
  have narrow := self.confidence_lt
  unfold lower
  omega

theorem lower_le_upper (self : OracleRate) : self.lower ≤ self.upper := by
  have nonneg := self.confidence_nonneg
  unfold lower upper
  omega

theorem upper_pos (self : OracleRate) : 0 < self.upper :=
  lt_of_lt_of_le self.lower_pos self.lower_le_upper

theorem lowerBoundRate_succeeds (self : OracleRate) :
    ∃ rate, self.lowerBoundRate = .ok rate ∧ rate.bits = self.lower := by
  have positive := self.lower_pos
  have small := self.rate.bits_lt
  have nonneg := self.confidence_nonneg
  obtain ⟨rate, rate_eq⟩ := IFixedPoint.exists_bits self.lower (by omega) (by unfold lower; omega)
  exact ⟨rate, (Fixed.safeSub_ok _ _ _).mpr rate_eq.symm, rate_eq⟩

theorem upperBoundRate_ok (self : OracleRate) (rate : IFixedPoint) :
    self.upperBoundRate = .ok rate ↔ self.upper = rate.bits := Fixed.safeAdd_ok _ _ _

theorem positivePowerOfTen_ok (decimals : UInt8) (power : IFixedPoint) :
    positivePowerOfTen decimals = .ok power ↔
      decimals.toNat ≤ 18 ∧ power.bits = 10 ^ decimals.toNat * 2 ^ 48 := by
  unfold positivePowerOfTen
  split
  · rename_i small
    rw [Except.ok.injEq]
    constructor
    · rintro rfl
      exact ⟨small, rfl⟩
    · intro scaled
      exact Fixed.ext_bits scaled.2.symm
  · rename_i large
    constructor
    · intro impossible
      cases impossible
    · intro scaled
      exact absurd scaled.1 large

theorem valueAtRate_ok (rate value : IFixedPoint) (positive : 0 < rate.bits) (amount : U64)
    (decimals : UInt8) :
    valueAtRate (.ok rate) amount decimals = .ok value ↔
      decimals.toNat ≤ 18 ∧ rate.bits * amount.toNat < 2 ^ 127 ∧
        value.bits = rate.bits * amount.toNat / 10 ^ decimals.toNat := by
  have power_pos : (0 : Int) < 10 ^ decimals.toNat := by positivity
  have product_nonneg : 0 ≤ rate.bits * amount.toNat := by positivity
  have scaled : (rate.bits * amount.toNat * 2 ^ 48).tdiv (10 ^ decimals.toNat * 2 ^ 48) =
      rate.bits * amount.toNat / 10 ^ decimals.toNat := by
    rw [Int.tdiv_eq_ediv_of_nonneg (by positivity)]
    exact Int.mul_ediv_mul_of_pos_left _ _ (by norm_num)
  simp only [valueAtRate, except_bind_ok, Except.ok.injEq, exists_eq_left', Fixed.safeMulU64_ok,
    positivePowerOfTen_ok, Fixed.safeDiv_ok, i80f48_frac]
  constructor
  · rintro ⟨product, product_eq, power, ⟨small, power_eq⟩, -, quotient⟩
    rw [power_eq, ← product_eq, scaled] at quotient
    exact ⟨small, product_eq ▸ IFixedPoint.bits_lt product, quotient.symm⟩
  · intro ⟨small, range, value_eq⟩
    obtain ⟨product, product_eq⟩ := IFixedPoint.exists_bits (rate.bits * amount.toNat)
      (by omega) range
    have power_le : (10 : Int) ^ decimals.toNat ≤ 10 ^ 18 := pow_le_pow_right₀ (by norm_num) small
    obtain ⟨power, power_eq⟩ := IFixedPoint.exists_bits (10 ^ decimals.toNat * 2 ^ 48)
      (by omega) (by omega)
    refine ⟨product, product_eq.symm, power, ⟨small, power_eq⟩, by omega, ?_⟩
    rw [power_eq, product_eq, scaled]
    exact value_eq.symm

theorem collateralValue_ok (self : OracleRate) (amount : U64) (decimals : UInt8)
    (value : IFixedPoint) :
    self.collateralValue amount decimals = .ok value ↔
      decimals.toNat ≤ 18 ∧ self.lower * amount.toNat < 2 ^ 127 ∧
        value.bits = self.lower * amount.toNat / 10 ^ decimals.toNat := by
  obtain ⟨rate, rate_ok, rate_eq⟩ := self.lowerBoundRate_succeeds
  rw [collateralValue, rate_ok, valueAtRate_ok _ _ (by rw [rate_eq]; exact self.lower_pos), rate_eq]

theorem borrowValue_ok (self : OracleRate) (amount : U64) (decimals : UInt8)
    (value : IFixedPoint) :
    self.borrowValue amount decimals = .ok value ↔
      self.upper < 2 ^ 127 ∧ decimals.toNat ≤ 18 ∧ self.upper * amount.toNat < 2 ^ 127 ∧
        value.bits = self.upper * amount.toNat / 10 ^ decimals.toNat := by
  have positive := self.upper_pos
  constructor
  · intro success
    obtain ⟨rate, rate_ok, -⟩ := (except_bind_ok _ _ _).mp success
    have rate_eq := (self.upperBoundRate_ok rate).mp rate_ok
    rw [borrowValue, rate_ok, valueAtRate_ok _ _ (by omega), ← rate_eq] at success
    exact ⟨rate_eq ▸ rate.bits_lt, success⟩
  · intro ⟨range, success⟩
    obtain ⟨rate, rate_eq⟩ := IFixedPoint.exists_bits self.upper (by omega) range
    have rate_ok := (self.upperBoundRate_ok rate).mpr rate_eq.symm
    rw [borrowValue, rate_ok, valueAtRate_ok _ _ (by omega), rate_eq]
    exact success

theorem atomsAtRate_ok (rate value atoms : IFixedPoint) (positive : 0 < rate.bits)
    (decimals : UInt8) :
    atomsAtRate (.ok rate) value decimals = .ok atoms ↔
      decimals.toNat ≤ 18 ∧
        (-2 ^ 127 ≤ value.bits * 10 ^ decimals.toNat ∧ value.bits * 10 ^ decimals.toNat < 2 ^ 127) ∧
        atoms.bits = (value.bits * 10 ^ decimals.toNat * 2 ^ 48).tdiv rate.bits := by
  have scaled : value.bits * (10 ^ decimals.toNat * 2 ^ 48) / 2 ^ 48 =
      value.bits * 10 ^ decimals.toNat := by
    rw [← mul_assoc]
    exact Int.mul_ediv_cancel _ (by norm_num)
  simp only [atomsAtRate, except_bind_ok, Except.ok.injEq, exists_eq_left', positivePowerOfTen_ok,
    Fixed.safeMul_ok, Fixed.safeDiv_ok, i80f48_frac]
  constructor
  · rintro ⟨power, ⟨small, power_eq⟩, product, product_eq, -, quotient⟩
    rw [power_eq, scaled] at product_eq
    rw [product_eq]
    exact ⟨small, ⟨product.lower, IFixedPoint.bits_lt product⟩, quotient.symm⟩
  · intro ⟨small, ⟨lower, upper⟩, quotient⟩
    have power_le : (10 : Int) ^ decimals.toNat ≤ 10 ^ 18 := pow_le_pow_right₀ (by norm_num) small
    have power_pos : (0 : Int) < 10 ^ decimals.toNat := by positivity
    obtain ⟨power, power_eq⟩ := IFixedPoint.exists_bits (10 ^ decimals.toNat * 2 ^ 48)
      (by omega) (by omega)
    obtain ⟨product, product_eq⟩ := IFixedPoint.exists_bits (value.bits * 10 ^ decimals.toNat)
      lower upper
    refine ⟨power, ⟨small, power_eq⟩, product, ?_, by omega, ?_⟩
    · rw [power_eq, scaled, product_eq]
    · rw [product_eq]
      exact quotient.symm

theorem collateralAtoms_ok (self : OracleRate) (value atoms : IFixedPoint) (decimals : UInt8) :
    self.collateralAtoms value decimals = .ok atoms ↔
      decimals.toNat ≤ 18 ∧
        (-2 ^ 127 ≤ value.bits * 10 ^ decimals.toNat ∧ value.bits * 10 ^ decimals.toNat < 2 ^ 127) ∧
        atoms.bits = (value.bits * 10 ^ decimals.toNat * 2 ^ 48).tdiv self.lower := by
  obtain ⟨rate, rate_ok, rate_eq⟩ := self.lowerBoundRate_succeeds
  rw [collateralAtoms, rate_ok, atomsAtRate_ok _ _ _ (by rw [rate_eq]; exact self.lower_pos),
    rate_eq]

theorem borrowAtoms_ok (self : OracleRate) (value atoms : IFixedPoint) (decimals : UInt8) :
    self.borrowAtoms value decimals = .ok atoms ↔
      self.upper < 2 ^ 127 ∧ decimals.toNat ≤ 18 ∧
        (-2 ^ 127 ≤ value.bits * 10 ^ decimals.toNat ∧ value.bits * 10 ^ decimals.toNat < 2 ^ 127) ∧
        atoms.bits = (value.bits * 10 ^ decimals.toNat * 2 ^ 48).tdiv self.upper := by
  have positive := self.upper_pos
  constructor
  · intro success
    have bounded : ∃ rate, self.upperBoundRate = .ok rate := by
      simp only [borrowAtoms, atomsAtRate, except_bind_ok] at success
      obtain ⟨_, -, _, -, rate, rate_ok, -⟩ := success
      exact ⟨rate, rate_ok⟩
    obtain ⟨rate, rate_ok⟩ := bounded
    have rate_eq := (self.upperBoundRate_ok rate).mp rate_ok
    rw [borrowAtoms, rate_ok, atomsAtRate_ok _ _ _ (by omega), ← rate_eq] at success
    exact ⟨rate_eq ▸ rate.bits_lt, success⟩
  · intro ⟨range, success⟩
    obtain ⟨rate, rate_eq⟩ := IFixedPoint.exists_bits self.upper (by omega) range
    have rate_ok := (self.upperBoundRate_ok rate).mpr rate_eq.symm
    rw [borrowAtoms, rate_ok, atomsAtRate_ok _ _ _ (by omega), rate_eq]
    exact success

theorem collateralValue_nonneg (self : OracleRate) {amount : U64} {decimals : UInt8}
    {value : IFixedPoint} (success : self.collateralValue amount decimals = .ok value) :
    0 ≤ value.bits := by
  have positive := self.lower_pos
  rw [((self.collateralValue_ok _ _ _).mp success).2.2]
  positivity

theorem borrowValue_nonneg (self : OracleRate) {amount : U64} {decimals : UInt8}
    {value : IFixedPoint} (success : self.borrowValue amount decimals = .ok value) :
    0 ≤ value.bits := by
  have positive := self.upper_pos
  rw [((self.borrowValue_ok _ _ _).mp success).2.2.2]
  positivity

theorem exists_value_of_le {price : Int} (positive : 0 < price) {amount less : U64}
    (decimals : UInt8) (fits : price * amount.toNat < 2 ^ 127) (le : less.toNat ≤ amount.toNat) :
    price * less.toNat < 2 ^ 127 ∧
      ∃ value : IFixedPoint, value.bits = price * less.toNat / 10 ^ decimals.toNat := by
  have product_le : price * less.toNat ≤ price * amount.toNat := by gcongr
  have product_nonneg : 0 ≤ price * less.toNat := by positivity
  have quotient_le := Int.ediv_le_self (10 ^ decimals.toNat) product_nonneg
  have quotient_nonneg : 0 ≤ price * less.toNat / 10 ^ decimals.toNat := by positivity
  exact ⟨by omega, IFixedPoint.exists_bits _ (le_trans (by norm_num) quotient_nonneg) (by omega)⟩

theorem collateralValue_of_le (self : OracleRate) {amount less : U64} {decimals : UInt8}
    {value : IFixedPoint} (success : self.collateralValue amount decimals = .ok value)
    (le : less.toNat ≤ amount.toNat) : ∃ value', self.collateralValue less decimals =
    .ok value' := by
  obtain ⟨small, fits, -⟩ := (self.collateralValue_ok _ _ _).mp success
  obtain ⟨fits', value', value'_eq⟩ := exists_value_of_le self.lower_pos decimals fits le
  exact ⟨value', (self.collateralValue_ok _ _ _).mpr ⟨small, fits', value'_eq⟩⟩

theorem borrowValue_of_le (self : OracleRate) {amount less : U64} {decimals : UInt8}
    {value : IFixedPoint} (success : self.borrowValue amount decimals = .ok value)
    (le : less.toNat ≤ amount.toNat) : ∃ value', self.borrowValue less decimals = .ok value' := by
  obtain ⟨range, small, fits, -⟩ := (self.borrowValue_ok _ _ _).mp success
  obtain ⟨fits', value', value'_eq⟩ := exists_value_of_le self.upper_pos decimals fits le
  exact ⟨value', (self.borrowValue_ok _ _ _).mpr ⟨range, small, fits', value'_eq⟩⟩

/-- The exact values of an amount at the two bounds of the rate. -/
def exactCollateralValue (self : OracleRate) (amount : ℚ) (decimals : UInt8) : ℚ :=
  amount * (self.rate.toRat - self.confidence.toRat) / 10 ^ decimals.toNat

def exactBorrowValue (self : OracleRate) (amount : ℚ) (decimals : UInt8) : ℚ :=
  amount * (self.rate.toRat + self.confidence.toRat) / 10 ^ decimals.toNat

theorem exactCollateralValue_eq (self : OracleRate) (amount : ℚ) (decimals : UInt8) :
    self.exactCollateralValue amount decimals =
      self.lower * amount / 10 ^ decimals.toNat / 2 ^ 48 := by
  simp only [exactCollateralValue, lower, Fixed.toRat, i80f48_frac, Int.cast_sub]
  ring

theorem exactBorrowValue_eq (self : OracleRate) (amount : ℚ) (decimals : UInt8) :
    self.exactBorrowValue amount decimals =
      self.upper * amount / 10 ^ decimals.toNat / 2 ^ 48 := by
  simp only [exactBorrowValue, upper, Fixed.toRat, i80f48_frac, Int.cast_add]
  ring

theorem exactCollateralValue_nonneg (self : OracleRate) {amount : ℚ} (nonneg : 0 ≤ amount)
    (decimals : UInt8) : 0 ≤ self.exactCollateralValue amount decimals := by
  have positive : (0 : ℚ) < self.lower := by exact_mod_cast self.lower_pos
  rw [exactCollateralValue_eq]
  positivity

theorem exactBorrowValue_nonneg (self : OracleRate) {amount : ℚ} (nonneg : 0 ≤ amount)
    (decimals : UInt8) : 0 ≤ self.exactBorrowValue amount decimals := by
  have positive : (0 : ℚ) < self.upper := by exact_mod_cast self.upper_pos
  rw [exactBorrowValue_eq]
  positivity

theorem exactCollateralValue_pos (self : OracleRate) (decimals : UInt8) :
    0 < self.exactCollateralValue 1 decimals := by
  have positive : (0 : ℚ) < self.lower := by exact_mod_cast self.lower_pos
  rw [exactCollateralValue_eq]
  positivity

theorem exactBorrowValue_pos (self : OracleRate) (decimals : UInt8) :
    0 < self.exactBorrowValue 1 decimals := by
  have positive : (0 : ℚ) < self.upper := by exact_mod_cast self.upper_pos
  rw [exactBorrowValue_eq]
  positivity

theorem value_bounds (bound : Int) (amount : U64) (decimals : UInt8) (value : IFixedPoint)
    (quotient : value.bits = bound * amount.toNat / 10 ^ decimals.toNat) :
    value.toRat ≤ bound * amount.toNat / 10 ^ decimals.toNat / 2 ^ 48 ∧
      (bound * amount.toNat / 10 ^ decimals.toNat / 2 ^ 48 : ℚ) < value.toRat + 1 / 2 ^ 48 := by
  obtain ⟨below, above⟩ := ediv_rat_bounds (bound * amount.toNat) (10 ^ decimals.toNat)
    (by positivity)
  rw [← quotient] at below above
  push_cast at below above
  simp only [Fixed.toRat, i80f48_frac]
  rw [← add_div]
  exact ⟨by gcongr, by gcongr⟩

theorem collateralValue_bounds (self : OracleRate) (amount : U64) (decimals : UInt8)
    (value : IFixedPoint) (success : self.collateralValue amount decimals = .ok value) :
    value.toRat ≤ self.exactCollateralValue amount.toNat decimals ∧
      self.exactCollateralValue amount.toNat decimals < value.toRat + 1 / 2 ^ 48 := by
  rw [exactCollateralValue_eq]
  exact value_bounds _ _ _ _ ((self.collateralValue_ok _ _ _).mp success).2.2

theorem borrowValue_bounds (self : OracleRate) (amount : U64) (decimals : UInt8)
    (value : IFixedPoint) (success : self.borrowValue amount decimals = .ok value) :
    value.toRat ≤ self.exactBorrowValue amount.toNat decimals ∧
      self.exactBorrowValue amount.toNat decimals < value.toRat + 1 / 2 ^ 48 := by
  rw [exactBorrowValue_eq]
  exact value_bounds _ _ _ _ ((self.borrowValue_ok _ _ _).mp success).2.2.2

theorem collateralAtoms_worth_le (self : OracleRate) (value atoms : IFixedPoint) (decimals : UInt8)
    (success : self.collateralAtoms value decimals = .ok atoms) (nonneg : 0 ≤ value.bits) :
    self.exactCollateralValue atoms.toRat decimals ≤ value.toRat := by
  have positive := self.lower_pos
  obtain ⟨-, -, quotient⟩ := (self.collateralAtoms_ok _ _ _).mp success
  rw [Int.tdiv_eq_ediv_of_nonneg (by positivity)] at quotient
  have below := Int.ediv_mul_le (value.bits * 10 ^ decimals.toNat * 2 ^ 48) positive.ne'
  rw [← quotient] at below
  have below_rat : (atoms.bits * self.lower : ℚ) ≤ value.bits * 10 ^ decimals.toNat * 2 ^ 48 := by
    exact_mod_cast below
  rw [exactCollateralValue_eq, Fixed.toRat, Fixed.toRat, i80f48_frac]
  gcongr
  rw [div_le_iff₀ (by positivity), mul_div_assoc', div_le_iff₀ (by positivity)]
  linarith

theorem lt_borrowAtoms_worth (self : OracleRate) (value atoms : IFixedPoint) (decimals : UInt8)
    (success : self.borrowAtoms value decimals = .ok atoms) (nonneg : 0 ≤ value.bits) :
    value.toRat < self.exactBorrowValue (atoms.toRat + 1 / 2 ^ 48) decimals := by
  have positive := self.upper_pos
  obtain ⟨-, -, -, quotient⟩ := (self.borrowAtoms_ok _ _ _).mp success
  rw [Int.tdiv_eq_ediv_of_nonneg (by positivity)] at quotient
  have above := Int.lt_ediv_add_one_mul_self (value.bits * 10 ^ decimals.toNat * 2 ^ 48) positive
  rw [← quotient] at above
  have above_rat : (value.bits * 10 ^ decimals.toNat * 2 ^ 48 : ℚ) <
      (atoms.bits + 1) * self.upper := by
    exact_mod_cast above
  rw [exactBorrowValue_eq, Fixed.toRat, Fixed.toRat, i80f48_frac, ← add_div]
  gcongr
  rw [lt_div_iff₀ (by positivity), mul_div_assoc', lt_div_iff₀ (by positivity)]
  linarith

/-- Back from the value of an amount to atoms: the product fits, nothing is gained, and what
is lost is one unit of the value and one unit of the atoms. -/
theorem atoms_of_value {price : Int} (positive : 0 < price) {amount : U64} {decimals : UInt8}
    {value : IFixedPoint} (fits : price * amount.toNat < 2 ^ 127)
    (quotient : value.bits = price * amount.toNat / 10 ^ decimals.toNat) :
    (-2 ^ 127 ≤ value.bits * 10 ^ decimals.toNat ∧ value.bits * 10 ^ decimals.toNat < 2 ^ 127) ∧
      ∃ atoms : IFixedPoint,
        atoms.bits = (value.bits * 10 ^ decimals.toNat * 2 ^ 48).tdiv price ∧
        atoms.toRat ≤ amount.toNat ∧
        amount.toNat - atoms.toRat ≤ 1 / 2 ^ 48 * (10 ^ decimals.toNat / (price / 2 ^ 48) + 1) := by
  have power_pos : (0 : Int) < 10 ^ decimals.toNat := by positivity
  have value_nonneg : 0 ≤ value.bits := by
    rw [quotient]
    positivity
  have worth_le : value.bits * 10 ^ decimals.toNat ≤ price * amount.toNat := by
    rw [quotient]
    exact Int.ediv_mul_le _ power_pos.ne'
  have worth_gt : price * amount.toNat < (value.bits + 1) * 10 ^ decimals.toNat := by
    rw [quotient]
    exact Int.lt_ediv_add_one_mul_self _ power_pos
  have worth_nonneg : 0 ≤ value.bits * 10 ^ decimals.toNat := by positivity
  have scaled_nonneg : 0 ≤ value.bits * 10 ^ decimals.toNat * 2 ^ 48 := by positivity
  obtain ⟨below, above⟩ :=
    ediv_rat_bounds (value.bits * 10 ^ decimals.toNat * 2 ^ 48) price positive
  have atoms_le : value.bits * 10 ^ decimals.toNat * 2 ^ 48 / price ≤ amount.toNat * 2 ^ 48 := by
    rw [Int.ediv_le_iff_le_mul positive]
    nlinarith
  have atoms_nonneg : 0 ≤ value.bits * 10 ^ decimals.toNat * 2 ^ 48 / price := by positivity
  have range := amount.toNat_lt
  obtain ⟨atoms, atoms_eq⟩ := IFixedPoint.exists_bits
    (value.bits * 10 ^ decimals.toNat * 2 ^ 48 / price) (by omega) (by omega)
  refine ⟨⟨by omega, by omega⟩, atoms, ?_, ?_, ?_⟩
  · rw [atoms_eq, Int.tdiv_eq_ediv_of_nonneg scaled_nonneg]
  · rw [Fixed.toRat, i80f48_frac, div_le_iff₀ (by positivity), atoms_eq]
    exact_mod_cast atoms_le
  · have price_pos : (0 : ℚ) < price := by exact_mod_cast positive
    have worth_gt_rat : (price * amount.toNat : ℚ) < (value.bits + 1) * 10 ^ decimals.toNat := by
      exact_mod_cast worth_gt
    have exact_loss : (amount.toNat : ℚ) <
        value.bits * 10 ^ decimals.toNat / price + 10 ^ decimals.toNat / price := by
      rw [← add_div, lt_div_iff₀ price_pos]
      linarith
    push_cast at above
    calc (amount.toNat : ℚ) - atoms.toRat
        ≤ value.bits * 10 ^ decimals.toNat / price + 10 ^ decimals.toNat / price -
            (value.bits * 10 ^ decimals.toNat * 2 ^ 48 / price - 1) / 2 ^ 48 := by
          rw [Fixed.toRat, i80f48_frac, atoms_eq]
          gcongr
          linarith
      _ = 1 / 2 ^ 48 * (10 ^ decimals.toNat / (price / 2 ^ 48) + 1) := by
          field_simp
          ring

/-- Valuing an amount and converting back at the same bound of the rate never gains. -/
theorem conversions_round_trip (self : OracleRate) (amount : U64) (decimals : UInt8) :
    (∀ value, self.collateralValue amount decimals = .ok value →
      ∃ rate atoms, self.lowerBoundRate = .ok rate ∧
        self.collateralAtoms value decimals = .ok atoms ∧ atoms.toRat ≤ amount.toNat ∧
        amount.toNat - atoms.toRat ≤ 1 / 2 ^ 48 * (10 ^ decimals.toNat / rate.toRat + 1)) ∧
    (∀ value, self.borrowValue amount decimals = .ok value →
      ∃ rate atoms, self.upperBoundRate = .ok rate ∧
        self.borrowAtoms value decimals = .ok atoms ∧ atoms.toRat ≤ amount.toNat ∧
        amount.toNat - atoms.toRat ≤ 1 / 2 ^ 48 * (10 ^ decimals.toNat / rate.toRat + 1)) := by
  constructor
  · intro value success
    obtain ⟨small, fits, quotient⟩ := (self.collateralValue_ok _ _ _).mp success
    obtain ⟨product, atoms, atoms_eq, gain, loss⟩ := atoms_of_value self.lower_pos fits quotient
    obtain ⟨rate, rate_ok, rate_eq⟩ := self.lowerBoundRate_succeeds
    refine ⟨rate, atoms, rate_ok, (self.collateralAtoms_ok _ _ _).mpr ⟨small, product, atoms_eq⟩,
      gain, ?_⟩
    have rate_rat : rate.toRat = self.lower / 2 ^ 48 := by rw [Fixed.toRat, i80f48_frac, rate_eq]
    rw [rate_rat]
    exact loss
  · intro value success
    obtain ⟨range, small, fits, quotient⟩ := (self.borrowValue_ok _ _ _).mp success
    obtain ⟨product, atoms, atoms_eq, gain, loss⟩ := atoms_of_value self.upper_pos fits quotient
    have positive := self.upper_pos
    obtain ⟨rate, rate_eq⟩ := IFixedPoint.exists_bits self.upper (by omega) range
    refine ⟨rate, atoms, (self.upperBoundRate_ok rate).mpr rate_eq.symm,
      (self.borrowAtoms_ok _ _ _).mpr ⟨range, small, product, atoms_eq⟩, gain, ?_⟩
    have rate_rat : rate.toRat = self.upper / 2 ^ 48 := by rw [Fixed.toRat, i80f48_frac, rate_eq]
    rw [rate_rat]
    exact loss

theorem conversions_round_trip_at_three_quarters :
    ∃ self : OracleRate, ∃ value rate atoms : IFixedPoint,
      self.collateralValue 10 6 = .ok value ∧ self.lowerBoundRate = .ok rate ∧
        self.collateralAtoms value 6 = .ok atoms ∧ atoms.toRat ≤ (10 : U64).toNat ∧
        (10 : U64).toNat - atoms.toRat ≤
          1 / 2 ^ 48 * (10 ^ (6 : UInt8).toNat / rate.toRat + 1) := by
  let self : OracleRate := ⟨⟨2 ^ 48, by decide, by decide⟩, ⟨2 ^ 46, by decide, by decide⟩,
    by decide, by decide⟩
  let value : IFixedPoint := ⟨3 * 2 ^ 46 * 10 / 10 ^ 6, by decide, by decide⟩
  have success : self.collateralValue 10 6 = .ok value :=
    (self.collateralValue_ok _ _ _).mpr ⟨by decide, by decide, by decide⟩
  obtain ⟨rate, atoms, result⟩ := (conversions_round_trip self 10 6).1 value success
  exact ⟨self, value, rate, atoms, success, result⟩

theorem valueAtRate_zero (rate : LendingResult IFixedPoint) (decimals : UInt8) (value : IFixedPoint)
    (success : valueAtRate rate 0 decimals = .ok value) : value.bits = 0 := by
  simp only [valueAtRate, except_bind_ok, Fixed.safeMulU64_ok, Fixed.safeDiv_ok] at success
  obtain ⟨_, -, product, product_eq, _, -, -, quotient⟩ := success
  have none : product.bits = 0 := by
    rw [← product_eq]
    simp
  rw [← quotient, none]
  simp

end OracleRate

structure PythProvider where
  feedId : Vector UInt8 32
  programId : Pubkey
  deriving DecidableEq

structure ChaosProvider where
  feedId : Vector UInt8 32
  programId : Pubkey
  requiredSignatures : UInt8
  deriving DecidableEq

inductive OracleProvider where
  | pyth (provider : PythProvider)
  | chaos (provider : ChaosProvider)
  deriving DecidableEq

end AutaraLending
