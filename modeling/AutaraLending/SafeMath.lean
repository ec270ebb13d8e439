import AutaraLending.Error
import AutaraLending.Support.FixedPoint

/-! The two fixed-point types of the protocol and their checked arithmetic. -/

namespace AutaraLending

open Support

abbrev U64 := UInt64

def u64f64 : Format := ⟨64, 128, false⟩

def i80f48 : Format := ⟨48, 128, true⟩

/-- Unsigned 64.64 numbers: shares and exchange rates. -/
abbrev UFixedPoint := Fixed u64f64

/-- Signed 80.48 numbers: prices, ratios and interest rates. -/
abbrev IFixedPoint := Fixed i80f48

inductive RoundingMode where
  | roundDown
  | roundUp
  deriving DecidableEq, Repr

@[simp] theorem u64f64_frac : u64f64.frac = 64 := rfl
@[simp] theorem i80f48_frac : i80f48.frac = 48 := rfl
@[simp] theorem i80f48_width : i80f48.width = 128 := rfl
theorem u64f64_minBits : u64f64.minBits = 0 := rfl
theorem u64f64_maxBits : u64f64.maxBits = 2 ^ 128 - 1 := by decide
theorem i80f48_minBits : i80f48.minBits = -2 ^ 127 := rfl
theorem i80f48_maxBits : i80f48.maxBits = 2 ^ 127 - 1 := by decide

theorem UFixedPoint.bits_nonneg (x : UFixedPoint) : 0 ≤ x.bits := x.lower

theorem UFixedPoint.bits_lt (x : UFixedPoint) : x.bits < 2 ^ 128 := by
  have upper := x.upper
  rw [u64f64_maxBits] at upper
  omega

theorem IFixedPoint.bits_ge (x : IFixedPoint) : -2 ^ 127 ≤ x.bits := x.lower

theorem IFixedPoint.bits_lt (x : IFixedPoint) : x.bits < 2 ^ 127 := by
  have upper := x.upper
  rw [i80f48_maxBits] at upper
  omega

theorem IFixedPoint.exists_bits (bits : Int) (lower : -2 ^ 127 ≤ bits) (upper : bits < 2 ^ 127) :
    ∃ x : IFixedPoint, x.bits = bits := by
  refine ⟨⟨bits, lower, ?_⟩, rfl⟩
  rw [i80f48_maxBits]
  omega

theorem UFixedPoint.exists_bits (bits : Int) (lower : 0 ≤ bits) (upper : bits < 2 ^ 128) :
    ∃ x : UFixedPoint, x.bits = bits := by
  refine ⟨⟨bits, lower, ?_⟩, rfl⟩
  rw [u64f64_maxBits]
  omega

/-- Both formats hold every `u64` exactly. -/
class HoldsU64 (format : Format) : Prop where
  lower : format.minBits ≤ 0
  upper : (2 ^ 64 - 1) * 2 ^ format.frac ≤ format.maxBits

instance : HoldsU64 u64f64 := ⟨by decide, by decide⟩
instance : HoldsU64 i80f48 := ⟨by decide, by decide⟩

theorem U64.toNat_lt (n : U64) : n.toNat < 2 ^ 64 := UInt64.toNat_lt n

def U64.max : U64 := UInt64.ofNat (2 ^ 64 - 1)

theorem U64.toNat_ofNat {n : Nat} (small : n < 2 ^ 64) : (UInt64.ofNat n).toNat = n :=
  UInt64.toNat_ofNat_of_lt' small

theorem U64.toNat_min (a b : U64) : (min a b).toNat = min a.toNat b.toNat :=
  apply_ite UInt64.toNat (a ≤ b) a b

theorem U64.exists_toNat (n : Int) (nonneg : 0 ≤ n) (small : n < 2 ^ 64) :
    ∃ a : U64, (a.toNat : Int) = n := by
  refine ⟨UInt64.ofNat n.toNat, ?_⟩
  rw [U64.toNat_ofNat (by omega)]
  omega

def U64.checked (n : Nat) : Option U64 := if n < 2 ^ 64 then some (UInt64.ofNat n) else none

theorem U64.checked_some (n : Nat) (a : U64) : U64.checked n = some a ↔ n = a.toNat := by
  have range := a.toNat_lt
  unfold U64.checked
  split
  · rename_i small
    rw [Option.some.injEq, ← UInt64.toNat_inj, U64.toNat_ofNat small]
  · rename_i large
    constructor
    · intro impossible
      cases impossible
    · intro same
      omega

def U64.safeAdd (a b : U64) : LendingResult U64 :=
  okOr .additionOverflow (U64.checked (a.toNat + b.toNat))

def U64.safeSub (a b : U64) : LendingResult U64 :=
  okOr .subtractionOverflow (if b.toNat ≤ a.toNat then some (a - b) else none)

theorem U64.safeAdd_ok (a b c : U64) : a.safeAdd b = .ok c ↔ a.toNat + b.toNat = c.toNat := by
  simp only [U64.safeAdd, okOr_ok, U64.checked_some]

theorem U64.safeSub_ok (a b c : U64) : a.safeSub b = .ok c ↔ b.toNat + c.toNat = a.toNat := by
  simp only [U64.safeSub, okOr_ok]
  split
  · rename_i enough
    have difference := UInt64.toNat_sub_of_le a b (by simpa [UInt64.le_iff_toNat_le] using enough)
    rw [Option.some.injEq, ← UInt64.toNat_inj, difference]
    omega
  · constructor
    · intro impossible
      cases impossible
    · intro same
      omega

theorem U64.safeAdd_succeeds (a b : U64) (small : a.toNat + b.toNat < 2 ^ 64) :
    ∃ c, a.safeAdd b = .ok c ∧ c.toNat = a.toNat + b.toNat := by
  have sum := U64.toNat_ofNat small
  exact ⟨_, (U64.safeAdd_ok _ _ _).mpr sum.symm, sum⟩

theorem U64.safeSub_succeeds (a b : U64) (enough : b.toNat ≤ a.toNat) :
    ∃ c, a.safeSub b = .ok c ∧ c.toNat = a.toNat - b.toNat := by
  have difference := UInt64.toNat_sub_of_le a b (by simpa [UInt64.le_iff_toNat_le] using enough)
  exact ⟨a - b, by simp only [U64.safeSub, if_pos enough, okOr_ok], difference⟩

end AutaraLending

namespace Support.Fixed

open AutaraLending

variable {format : Format}

def isZero (a : Fixed format) : Bool := a.bits = 0

def isNegative (a : Fixed format) : Bool := a.bits < 0

theorem isZero_iff (a : Fixed format) : a.isZero = true ↔ a.bits = 0 := by simp [isZero]

theorem isNegative_iff (a : Fixed format) : a.isNegative = true ↔ a.bits < 0 := by
  simp [isNegative]

def fromU64 [holds : HoldsU64 format] (num : U64) : Fixed format where
  bits := num.toNat * 2 ^ format.frac
  lower := by
    have nonneg : (0 : Int) ≤ num.toNat * 2 ^ format.frac := by positivity
    exact holds.lower.trans nonneg
  upper := by
    have range := num.toNat_lt
    have bounded : (num.toNat : Int) ≤ 2 ^ 64 - 1 := by omega
    exact le_trans (Int.mul_le_mul_of_nonneg_right bounded (by positivity)) holds.upper

def zero [HoldsU64 format] : Fixed format := fromU64 0

def one [HoldsU64 format] : Fixed format := fromU64 1

@[simp] theorem fromU64_bits [HoldsU64 format] (num : U64) :
    (fromU64 num : Fixed format).bits = num.toNat * 2 ^ format.frac := rfl

@[simp] theorem zero_bits [HoldsU64 format] : (zero : Fixed format).bits = 0 := by
  simp [zero]

@[simp] theorem one_bits [HoldsU64 format] : (one : Fixed format).bits = 2 ^ format.frac := by
  simp [one]

def safeAdd (a b : Fixed format) : LendingResult (Fixed format) :=
  okOr .additionOverflow (a.checkedAdd b)

def safeSub (a b : Fixed format) : LendingResult (Fixed format) :=
  okOr .subtractionOverflow (a.checkedSub b)

def safeMul (a b : Fixed format) : LendingResult (Fixed format) :=
  okOr .multiplicationOverflow (a.checkedMul b)

def safeDiv (a b : Fixed format) : LendingResult (Fixed format) :=
  okOr .divisionOverflow (a.checkedDiv b)

def safeSubU64 [HoldsU64 format] (a : Fixed format) (other : U64) : LendingResult (Fixed format) :=
  okOr .subtractionOverflow (a.checkedSub (fromU64 other))

/-- Multiplication by an integer acts on the stored integer, with no rounding. -/
def safeMulU64 (a : Fixed format) (other : U64) : LendingResult (Fixed format) :=
  okOr .multiplicationOverflow (fromBits (a.bits * other.toNat))

def safeDivU64 (a : Fixed format) (other : U64) : LendingResult (Fixed format) :=
  okOr .divisionByZero
    (if other.toNat = 0 then none else fromBits (a.bits.tdiv other.toNat))

theorem safeAdd_ok (a b c : Fixed format) : a.safeAdd b = .ok c ↔ a.bits + b.bits = c.bits := by
  simp only [safeAdd, okOr_ok, checkedAdd, fromBits_some]

theorem safeSub_ok (a b c : Fixed format) : a.safeSub b = .ok c ↔ a.bits - b.bits = c.bits := by
  simp only [safeSub, okOr_ok, checkedSub, fromBits_some]

theorem safeMul_ok (a b c : Fixed format) :
    a.safeMul b = .ok c ↔ a.bits * b.bits / 2 ^ format.frac = c.bits := by
  simp only [safeMul, okOr_ok, checkedMul, fromBits_some]

theorem safeDiv_ok (a b c : Fixed format) :
    a.safeDiv b = .ok c ↔ b.bits ≠ 0 ∧ (a.bits * 2 ^ format.frac).tdiv b.bits = c.bits := by
  simp only [safeDiv, okOr_ok, checkedDiv]
  split
  · simp_all
  · simp_all [fromBits_some]

theorem safeSubU64_ok [HoldsU64 format] (a c : Fixed format) (other : U64) :
    a.safeSubU64 other = .ok c ↔ a.bits - other.toNat * 2 ^ format.frac = c.bits := by
  simp only [safeSubU64, okOr_ok, checkedSub, fromBits_some, fromU64_bits]

theorem safeMulU64_ok (a c : Fixed format) (other : U64) :
    a.safeMulU64 other = .ok c ↔ a.bits * other.toNat = c.bits := by
  simp only [safeMulU64, okOr_ok, fromBits_some]

theorem safeDivU64_ok (a c : Fixed format) (other : U64) :
    a.safeDivU64 other = .ok c ↔ other.toNat ≠ 0 ∧ a.bits.tdiv other.toNat = c.bits := by
  simp only [safeDivU64, okOr_ok]
  split
  · simp_all
  · simp_all [fromBits_some]

def asU64RoundedDown (a : Fixed format) : LendingResult U64 :=
  okOr .castOverflow (if 0 ≤ a.floor then U64.checked a.floor.toNat else none)

def checkedToI32 (a : Fixed format) : LendingResult Int32 :=
  okOr .castOverflow
    (if -2 ^ 31 ≤ a.floor ∧ a.floor < 2 ^ 31 then some (Int32.ofInt a.floor) else none)

def asU64RoundedUp (a : Fixed format) : LendingResult U64 := do
  let roundedDown ← a.asU64RoundedDown
  pure (if a.hasFraction then UInt64.ofNat (min (roundedDown.toNat + 1) (2 ^ 64 - 1))
    else roundedDown)

def asU64Rounded (a : Fixed format) : RoundingMode → LendingResult U64
  | .roundDown => mapErr .castOverflow a.asU64RoundedDown
  | .roundUp => mapErr .castOverflow a.asU64RoundedUp

theorem asU64RoundedDown_ok (a : Fixed format) (n : U64) :
    a.asU64RoundedDown = .ok n ↔ a.floor = n.toNat := by
  simp only [asU64RoundedDown, okOr_ok]
  split
  · rw [U64.checked_some]
    omega
  · constructor
    · intro impossible
      cases impossible
    · intro same
      omega

theorem asU64RoundedUp_ok (a : Fixed format) (n : U64) :
    a.asU64RoundedUp = .ok n ↔ 0 ≤ a.floor ∧ a.floor < 2 ^ 64 ∧
      (n.toNat : Int) = if a.bits % 2 ^ format.frac = 0 then a.floor
        else min (a.floor + 1) (2 ^ 64 - 1) := by
  have fraction : a.hasFraction = true ↔ ¬ a.bits % 2 ^ format.frac = 0 := by
    simp [hasFraction]
  have saturated : ∀ m : Nat, (UInt64.ofNat (min (m + 1) (2 ^ 64 - 1))).toNat =
      min (m + 1) (2 ^ 64 - 1) := by
    intro m
    exact U64.toNat_ofNat (by omega)
  simp only [asU64RoundedUp, except_bind_ok, asU64RoundedDown_ok, except_pure_ok]
  by_cases whole : a.bits % 2 ^ format.frac = 0
  · rw [if_pos whole]
    simp only [fraction.not.mpr (not_not.mpr whole), Bool.false_eq_true, if_false]
    constructor
    · rintro ⟨m, floor_eq, rfl⟩
      have range := m.toNat_lt
      omega
    · rintro ⟨nonneg, small, value⟩
      exact ⟨n, value.symm, rfl⟩
  · rw [if_neg whole]
    simp only [fraction.mpr whole, if_true]
    constructor
    · rintro ⟨m, floor_eq, rfl⟩
      have range := m.toNat_lt
      rw [saturated]
      omega
    · rintro ⟨nonneg, small, value⟩
      have cast : (UInt64.ofNat a.floor.toNat).toNat = a.floor.toNat :=
        U64.toNat_ofNat (by omega)
      refine ⟨UInt64.ofNat a.floor.toNat, by omega, ?_⟩
      rw [← UInt64.toNat_inj, saturated, cast]
      omega

theorem asU64Rounded_roundDown_ok (a : Fixed format) (n : U64) :
    a.asU64Rounded .roundDown = .ok n ↔ a.floor = n.toNat := by
  simp only [asU64Rounded, mapErr_ok, asU64RoundedDown_ok]

theorem asU64Rounded_roundUp_ok (a : Fixed format) (n : U64) :
    a.asU64Rounded .roundUp = .ok n ↔ a.asU64RoundedUp = .ok n := by
  simp only [asU64Rounded, mapErr_ok]

def fromRatio [HoldsU64 format] (num dem : U64) : LendingResult (Fixed format) :=
  mapErr .divisionOverflow ((fromU64 num : Fixed format).safeDiv (fromU64 dem))

/-- A positive shift is a left shift, a negative one a right shift. A left shift that loses
bits is found by shifting back. -/
def checkedShift (a : Fixed format) (shift : Int) : Option (Fixed format) :=
  if shift < 0 then a.checkedShr shift.natAbs
  else do
    let shifted ← a.checkedShl shift.natAbs
    if shifted.checkedShr shift.natAbs ≠ some a then none else some shifted

end Support.Fixed

namespace AutaraLending

open Support

def IFixedPoint.fromUfixed (value : UFixedPoint) : Option IFixedPoint := value.checkedToFixed

def UFixedPoint.fromIfixed (value : IFixedPoint) : Option UFixedPoint := value.checkedToFixed

def IFixedPoint.tryFrom (value : UFixedPoint) : LendingResult IFixedPoint :=
  okOr .castOverflow (IFixedPoint.fromUfixed value)

def UFixedPoint.tryFrom (value : IFixedPoint) : LendingResult UFixedPoint :=
  okOr .castOverflow (UFixedPoint.fromIfixed value)

theorem IFixedPoint.tryFrom_ok (value : UFixedPoint) (x : IFixedPoint) :
    IFixedPoint.tryFrom value = .ok x ↔ value.bits / 2 ^ 16 = x.bits := by
  have shape : value.bits * 2 ^ 48 / 2 ^ 64 = value.bits / 2 ^ 16 := by omega
  simp only [IFixedPoint.tryFrom, IFixedPoint.fromUfixed, Fixed.checkedToFixed, okOr_ok,
    Fixed.fromBits_some, u64f64_frac, i80f48_frac, shape]

theorem UFixedPoint.tryFrom_ok (value : IFixedPoint) (x : UFixedPoint) :
    UFixedPoint.tryFrom value = .ok x ↔ value.bits * 2 ^ 16 = x.bits := by
  have shape : value.bits * 2 ^ 64 / 2 ^ 48 = value.bits * 2 ^ 16 := by omega
  simp only [UFixedPoint.tryFrom, UFixedPoint.fromIfixed, Fixed.checkedToFixed, okOr_ok,
    Fixed.fromBits_some, u64f64_frac, i80f48_frac, shape]

/-- Arithmetic of a signed number with an unsigned one converts the unsigned one first,
dropping its last sixteen fraction bits. -/
def IFixedPoint.safeAddUFixed (a : IFixedPoint) (other : UFixedPoint) :
    LendingResult IFixedPoint := do
  let other ← IFixedPoint.tryFrom other
  mapErr .additionOverflow (a.safeAdd other)

def IFixedPoint.safeMulUFixed (a : IFixedPoint) (other : UFixedPoint) :
    LendingResult IFixedPoint := do
  let other ← IFixedPoint.tryFrom other
  mapErr .multiplicationOverflow (a.safeMul other)

def IFixedPoint.safeDivUFixed (a : IFixedPoint) (other : UFixedPoint) :
    LendingResult IFixedPoint := do
  let other ← IFixedPoint.tryFrom other
  mapErr .divisionOverflow (a.safeDiv other)

theorem IFixedPoint.safeAddUFixed_ok (a c : IFixedPoint) (other : UFixedPoint)
    (success : a.safeAddUFixed other = .ok c) : a.bits + other.bits / 2 ^ 16 = c.bits := by
  simp only [IFixedPoint.safeAddUFixed, except_bind_ok, mapErr_ok, Fixed.safeAdd_ok,
    IFixedPoint.tryFrom_ok] at success
  obtain ⟨converted, conversion, sum⟩ := success
  rw [conversion, sum]

theorem IFixedPoint.safeMulUFixed_ok (a c : IFixedPoint) (other : UFixedPoint)
    (success : a.safeMulUFixed other = .ok c) :
    a.bits * (other.bits / 2 ^ 16) / 2 ^ 48 = c.bits := by
  simp only [IFixedPoint.safeMulUFixed, except_bind_ok, mapErr_ok, Fixed.safeMul_ok,
    IFixedPoint.tryFrom_ok, i80f48_frac] at success
  obtain ⟨converted, conversion, product⟩ := success
  rw [conversion, product]

theorem IFixedPoint.safeDivUFixed_ok (a c : IFixedPoint) (other : UFixedPoint)
    (success : a.safeDivUFixed other = .ok c) :
    other.bits / 2 ^ 16 ≠ 0 ∧ (a.bits * 2 ^ 48).tdiv (other.bits / 2 ^ 16) = c.bits := by
  simp only [IFixedPoint.safeDivUFixed, except_bind_ok, mapErr_ok, Fixed.safeDiv_ok,
    IFixedPoint.tryFrom_ok, i80f48_frac] at success
  obtain ⟨converted, conversion, nonzero, quotient⟩ := success
  rw [conversion]
  exact ⟨nonzero, quotient⟩

/-- The constant nearest to `digits / 10 ^ places`, ties to even, as literals are read. The range
is a Boolean check: at a literal it evaluates to `true`, and that is its proof. -/
def IFixedPoint.lit (digits places : Nat)
    (range : decide (digits * 2 ^ 48 / 10 ^ places < 2 ^ 127 - 1) = true := by
      exact Eq.refl true) : IFixedPoint where
  bits :=
    let quotient := digits * 2 ^ 48 / 10 ^ places
    let remainder := digits * 2 ^ 48 % 10 ^ places
    if 10 ^ places < 2 * remainder ∨ (2 * remainder = 10 ^ places ∧ quotient % 2 = 1) then
      ((quotient + 1 : Nat) : Int)
    else (quotient : Int)
  lower := by
    rw [i80f48_minBits]
    dsimp only
    split <;> exact le_trans (by norm_num) (Int.natCast_nonneg _)
  upper := by
    have below := of_decide_eq_true range
    rw [i80f48_maxBits]
    dsimp only
    split <;> omega

def IFixedPoint.fromI64U64Ratio (num : Int) (dem : Nat)
    (lower : decide (i80f48.minBits ≤ (num * 2 ^ 48).tdiv dem) = true := by exact Eq.refl true)
    (upper : decide ((num * 2 ^ 48).tdiv dem ≤ i80f48.maxBits) = true := by exact Eq.refl true) :
    IFixedPoint :=
  ⟨(num * 2 ^ 48).tdiv dem, of_decide_eq_true lower, of_decide_eq_true upper⟩

def secondsPerYear : U64 := 31536000

def oneInBps : U64 := 10000

def percentToBps (percent : U64) : U64 := percent * 100

def bpsToFixedPoint (bps : U64) : UFixedPoint where
  bits := bps.toNat * 2 ^ 64 / oneInBps.toNat
  lower := by
    rw [u64f64_minBits]
    positivity
  upper := by
    have range := bps.toNat_lt
    have scale : oneInBps.toNat = 10000 := rfl
    rw [u64f64_maxBits, scale]
    omega

def bpsFromFixedPoint (bps : U64) (fixed : UFixedPoint) : LendingResult UFixedPoint := do
  let scaled ← fixed.safeMulU64 bps
  expect (scaled.safeDivU64 oneInBps)

theorem bpsFromFixedPoint_ok (bps : U64) (fixed share : UFixedPoint)
    (success : bpsFromFixedPoint bps fixed = .ok share) :
    fixed.bits * bps.toNat / 10000 = share.bits := by
  have scale : oneInBps.toNat = 10000 := rfl
  simp only [bpsFromFixedPoint, except_bind_ok, Fixed.safeMulU64_ok, expect_ok,
    Fixed.safeDivU64_ok, scale] at success
  obtain ⟨scaled, product, -, quotient⟩ := success
  rw [Int.tdiv_eq_ediv_of_nonneg (UFixedPoint.bits_nonneg scaled)] at quotient
  rw [product]
  exact quotient

def U64.safeMulIFixed (a : U64) (other : IFixedPoint) : LendingResult IFixedPoint :=
  mapErr .multiplicationOverflow ((Fixed.fromU64 a : IFixedPoint).safeMul other)

def U64.safeDivIFixed (a : U64) (other : IFixedPoint) : LendingResult IFixedPoint :=
  mapErr .divisionOverflow ((Fixed.fromU64 a : IFixedPoint).safeDiv other)

def U64.safeSubIFixed (a : U64) (other : IFixedPoint) : LendingResult IFixedPoint :=
  mapErr .subtractionOverflow ((Fixed.fromU64 a : IFixedPoint).safeSub other)

end AutaraLending
