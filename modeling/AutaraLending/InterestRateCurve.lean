import AutaraLending.Exponential
import AutaraLending.SharesTracker

/-! The borrow rate curves. A curve is read, and the adaptive one also updated, at every
accrual, and its rate is compounded over the elapsed time. -/

namespace AutaraLending

open Support

structure InterestRatePerSecond where
  rate : IFixedPoint
  deriving DecidableEq

namespace InterestRatePerSecond

def fromApr (apr : IFixedPoint) : LendingResult InterestRatePerSecond :=
  InterestRatePerSecond.mk <$> expect (apr.safeDivU64 secondsPerYear)

theorem perSecond_range (apr : IFixedPoint) :
    i80f48.minBits ≤ apr.bits.tdiv secondsPerYear.toNat ∧
      apr.bits.tdiv secondsPerYear.toNat ≤ i80f48.maxBits := by
  have lower := apr.bits_ge
  have upper := apr.bits_lt
  have scale : (secondsPerYear.toNat : Int) = 31536000 := rfl
  rw [i80f48_minBits, i80f48_maxBits, scale]
  rcases le_total 0 apr.bits with nonneg | nonpos
  · rw [Int.tdiv_eq_ediv_of_nonneg nonneg]
    omega
  · have flipped : apr.bits.tdiv 31536000 = -(-apr.bits / 31536000) := by
      rw [← Int.tdiv_eq_ediv_of_nonneg (by omega), ← Int.neg_tdiv, neg_neg]
    rw [flipped]
    omega

def constFromApr (apr : IFixedPoint) : InterestRatePerSecond where
  rate := ⟨apr.bits.tdiv secondsPerYear.toNat, (perSecond_range apr).1, (perSecond_range apr).2⟩

def coumpoundingInterestRateDuringElapsedSeconds (self : InterestRatePerSecond)
    (elapsedSeconds : U64) : LendingResult InterestRate := do
  let product ← self.rate.safeMulU64 elapsedSeconds
  let growth ← IFixedPoint.checkedExp product
  InterestRate.mk <$> growth.safeSubU64 1

def adjustForUtilisationRate (self : InterestRatePerSecond) (utilisationRate : IFixedPoint) :
    LendingResult InterestRatePerSecond :=
  InterestRatePerSecond.mk <$> self.rate.safeMul utilisationRate

def clamp (self least greatest : InterestRatePerSecond) : InterestRatePerSecond :=
  if self.rate < least.rate then least
  else if greatest.rate < self.rate then greatest
  else self

end InterestRatePerSecond

structure MarketBorrowRateParameters where
  utilisationRate : IFixedPoint
  elapsedSecondsSinceLastUpdate : U64
  deriving DecidableEq

def MarketBorrowRateParameters.utilisationRateBps (self : MarketBorrowRateParameters) :
    LendingResult UInt32 := do
  let scaled ← self.utilisationRate.safeMulU64 oneInBps
  let rounded ← scaled.asU64RoundedDown
  okOr .castOverflow (if rounded.toNat < 2 ^ 32 then some rounded.toUInt32 else none)

structure PolylineInterestRatePoint where
  utilizationRateBps : UInt32
  borrowRateBps : UInt32
  deriving DecidableEq

def PolylineInterestRatePoint.maybeUninit (self : PolylineInterestRatePoint) :
    Option PolylineInterestRatePoint :=
  if self.borrowRateBps = 0 then none else some self

def polylineMaxPoints : Nat := 8

structure PolylineInterestRateCurve where
  slots : Vector PolylineInterestRatePoint polylineMaxPoints
  deriving DecidableEq

inductive PolylineInterestRateCurveError where
  | tooManyPoints
  | firstPointInvalid
  | pointsNotInOrder
  deriving DecidableEq

namespace PolylineInterestRateCurve

def validateRest (reachedEnd : Bool) (lastUtilizationRateBps lastBorrowRateBps : UInt32) :
    List PolylineInterestRatePoint → Except PolylineInterestRateCurveError Unit
  | [] => .ok ()
  | slot :: rest =>
      match slot.maybeUninit with
      | some point =>
          if reachedEnd ∨ point.utilizationRateBps ≤ lastUtilizationRateBps ∨
              point.borrowRateBps ≤ lastBorrowRateBps then
            .error .pointsNotInOrder
          else validateRest reachedEnd point.utilizationRateBps point.borrowRateBps rest
      | none => validateRest true lastUtilizationRateBps lastBorrowRateBps rest

def validatePoints (points : List PolylineInterestRatePoint) :
    Except PolylineInterestRateCurveError Unit :=
  if polylineMaxPoints < points.length then .error .tooManyPoints
  else
    match points with
    | [] => .error .firstPointInvalid
    | first :: rest =>
        if first.utilizationRateBps ≠ 0 ∨ first.borrowRateBps = 0 then .error .firstPointInvalid
        else validateRest false 0 first.borrowRateBps rest

def validate (self : PolylineInterestRateCurve) : Except PolylineInterestRateCurveError Unit :=
  validatePoints self.slots.toList

def points (self : PolylineInterestRateCurve) : List PolylineInterestRatePoint :=
  self.slots.toList.takeWhile (fun point => point.borrowRateBps ≠ 0)

/-- `Line::value_at`. A subtraction below zero and a division by zero panic, and the cast to
`u32` drops the high bits. -/
def valueAt (start finish : PolylineInterestRatePoint) (utilizationRateBps : UInt32) :
    LendingResult UInt32 := do
  let rise ← expect (U64.safeSub finish.borrowRateBps.toUInt64 start.borrowRateBps.toUInt64)
  let run ← expect (U64.safeSub utilizationRateBps.toUInt64 start.utilizationRateBps.toUInt64)
  let width ←
    expect (U64.safeSub finish.utilizationRateBps.toUInt64 start.utilizationRateBps.toUInt64)
  if width = 0 then .error .panic
  else
    let value := (rise * run / width).toUInt32
    pure (UInt32.ofNat (min (start.borrowRateBps.toNat + value.toNat) (2 ^ 32 - 1)))

/-- The segment whose end lies above the utilisation, or the last one. -/
def valueAlong (start finish : PolylineInterestRatePoint) (utilizationRateBps : UInt32) :
    List PolylineInterestRatePoint → LendingResult UInt32
  | [] => valueAt start finish utilizationRateBps
  | point :: rest =>
      if utilizationRateBps < finish.utilizationRateBps then
        valueAt start finish utilizationRateBps
      else valueAlong finish point utilizationRateBps rest

def aprBorrowRateBps (self : PolylineInterestRateCurve) (utilizationRateBps : UInt32) :
    LendingResult UInt32 :=
  match self.points with
  | [] => .error .panic
  | [start] => .ok start.borrowRateBps
  | start :: finish :: rest => valueAlong start finish utilizationRateBps rest

def interestRatePerSecond (self : PolylineInterestRateCurve) (utilizationRateBps : UInt32) :
    LendingResult InterestRatePerSecond := do
  let bps ← self.aprBorrowRateBps utilizationRateBps
  let apr ← expect ((Fixed.fromU64 bps.toUInt64 : IFixedPoint).safeDivU64 oneInBps)
  InterestRatePerSecond.fromApr apr

end PolylineInterestRateCurve

structure AdaptiveInterestRateCurve where
  rateAtTarget : InterestRatePerSecond
  deriving DecidableEq

namespace AdaptiveInterestRateCurve

def targetUtilisationRate : IFixedPoint := .fromI64U64Ratio 9 10
def oneMinusTargetUtilisationRate : IFixedPoint := .fromI64U64Ratio 1 10
def adjustmentSpeed : IFixedPoint := .fromI64U64Ratio 50 31536000
def curveSteepness : U64 := 4

def initialRateAtTarget : InterestRatePerSecond := .constFromApr (.fromI64U64Ratio 4 100)
def minRateAtTarget : InterestRatePerSecond := .constFromApr (.fromI64U64Ratio 1 100)
def maxRateAtTarget : InterestRatePerSecond := .constFromApr (.fromI64U64Ratio 200 100)

def maxSafeLinearAdaptation : IFixedPoint := .fromI64U64Ratio 5475 100
def minSafeLinearAdaptation : IFixedPoint := .fromI64U64Ratio (-3321) 100

def new : AdaptiveInterestRateCurve := ⟨.constFromApr Fixed.zero⟩

def curveCoeff (err : IFixedPoint) : LendingResult IFixedPoint :=
  if err.isNegative then do
    let inverse ← (Fixed.one : IFixedPoint).safeDivU64 curveSteepness
    (Fixed.one : IFixedPoint).safeSub inverse
  else curveSteepness.safeSubIFixed Fixed.one

def curve (rateAtTarget : InterestRatePerSecond) (err : IFixedPoint) :
    LendingResult InterestRatePerSecond := do
  let coeff ← curveCoeff err
  let slope ← coeff.safeMul err
  let factor ← slope.safeAdd Fixed.one
  InterestRatePerSecond.mk <$> factor.safeMul rateAtTarget.rate

def clampLinearAdaptation (linearAdaptation : IFixedPoint) : IFixedPoint :=
  if maxSafeLinearAdaptation < linearAdaptation then maxSafeLinearAdaptation
  else if linearAdaptation < minSafeLinearAdaptation then minSafeLinearAdaptation
  else linearAdaptation

def newRateAtTarget (startRateAtTarget : InterestRatePerSecond) (linearAdaptation : IFixedPoint) :
    LendingResult InterestRatePerSecond := do
  let growth ← IFixedPoint.checkedExp (clampLinearAdaptation linearAdaptation)
  let rate ← startRateAtTarget.rate.safeMul growth
  pure ((InterestRatePerSecond.mk rate).clamp minRateAtTarget maxRateAtTarget)

def ratesAtTarget (self : AdaptiveInterestRateCurve) (err : IFixedPoint) (elapsed : U64) :
    LendingResult (InterestRatePerSecond × InterestRatePerSecond) := do
  let startRateAtTarget := self.rateAtTarget
  if startRateAtTarget.rate.isZero then pure (initialRateAtTarget, initialRateAtTarget)
  else do
    let speed ← adjustmentSpeed.safeMul err
    let linearAdaptation ← speed.safeMulU64 elapsed
    if linearAdaptation.isZero then pure (startRateAtTarget, startRateAtTarget)
    else do
      let endRateAtTarget ← newRateAtTarget startRateAtTarget linearAdaptation
      let half ← linearAdaptation.safeDivU64 2
      let midRateAtTarget ← newRateAtTarget startRateAtTarget half
      let ends ← startRateAtTarget.rate.safeAdd endRateAtTarget.rate
      let middle ← midRateAtTarget.rate.safeMulU64 2
      let sum ← ends.safeAdd middle
      let average ← sum.safeDivU64 4
      pure (⟨average⟩, endRateAtTarget)

def utilisationErr (utilisationRate : IFixedPoint) : LendingResult IFixedPoint := do
  let errNormFactor :=
    if targetUtilisationRate < utilisationRate then oneMinusTargetUtilisationRate
    else targetUtilisationRate
  let difference ← utilisationRate.safeSub targetUtilisationRate
  difference.safeDiv errNormFactor

def computeNextRates (self : AdaptiveInterestRateCurve) (params : MarketBorrowRateParameters) :
    LendingResult (InterestRatePerSecond × InterestRatePerSecond) := do
  let err ← utilisationErr params.utilisationRate
  let rates ← self.ratesAtTarget err params.elapsedSecondsSinceLastUpdate
  let rateAtTarget ← curve rates.1 err
  pure (rateAtTarget, rates.2)

def borrowRate (params : MarketBorrowRateParameters) :
    LendingMethod AdaptiveInterestRateCurve InterestRatePerSecond := do
  let self ← Method.self
  let rates ← Method.lift (self.computeNextRates params)
  Method.assign { rateAtTarget := rates.2 }
  pure rates.1

end AdaptiveInterestRateCurve

inductive InterestRateCurveKind where
  | fixed (rate : InterestRatePerSecond)
  | polyline (curve : PolylineInterestRateCurve)
  | adaptive (curve : AdaptiveInterestRateCurve)
  deriving DecidableEq

namespace InterestRateCurveKind

def newAdaptive : InterestRateCurveKind := .adaptive .new

def isValid : InterestRateCurveKind → Bool
  | .fixed rate => !rate.rate.isNegative && decide (rate.rate ≤ .fromI64U64Ratio 5475 100)
  | .polyline curve => decide (curve.validate = .ok ())
  | .adaptive _ => true

/-- Only the adaptive curve keeps state between calls. -/
def borrowRatePerSecond (params : MarketBorrowRateParameters) :
    LendingMethod InterestRateCurveKind InterestRatePerSecond := do
  match ← Method.self with
  | .fixed rate => pure rate
  | .polyline curve => do
      let bps ← Method.lift params.utilisationRateBps
      Method.lift (curve.interestRatePerSecond bps)
  | .adaptive curve =>
      Method.zoom (fun _ => curve) (fun curve _ => .adaptive curve)
        (AdaptiveInterestRateCurve.borrowRate params)

end InterestRateCurveKind

/-! What successful calls return. -/

namespace InterestRatePerSecond

theorem fromApr_ok (apr : IFixedPoint) (rate : InterestRatePerSecond) :
    fromApr apr = .ok rate ↔ apr.bits.tdiv 31536000 = rate.rate.bits := by
  have scale : (secondsPerYear.toNat : Int) = 31536000 := rfl
  simp only [fromApr, except_map_ok, expect_ok, Fixed.safeDivU64_ok, scale]
  constructor
  · rintro ⟨perSecond, ⟨-, quotient⟩, rfl⟩
    exact quotient
  · intro quotient
    exact ⟨rate.rate, ⟨by decide, quotient⟩, rfl⟩

theorem compounding_succeeds (self : InterestRatePerSecond) (elapsed : U64)
    (nonneg : 0 ≤ self.rate.bits)
    (bounded : self.rate.bits * elapsed.toNat ≤ IFixedPoint.maxExpArg.bits) :
    ∃ growth, self.coumpoundingInterestRateDuringElapsedSeconds elapsed = .ok growth ∧
      0 ≤ growth.rate.bits := by
  have product_nonneg : 0 ≤ self.rate.bits * elapsed.toNat := by positivity
  have cap := IFixedPoint.maxExpArg_bits
  let product : IFixedPoint := ⟨self.rate.bits * elapsed.toNat, by rw [i80f48_minBits]; omega,
    by rw [i80f48_maxBits]; omega⟩
  obtain ⟨y, exponential, large⟩ := IFixedPoint.checkedExp_of_nonneg product product_nonneg bounded
  have upper := y.bits_lt
  let growth : IFixedPoint := ⟨y.bits - 2 ^ 48, by rw [i80f48_minBits]; omega,
    by rw [i80f48_maxBits]; omega⟩
  refine ⟨⟨growth⟩, ?_, by dsimp only [growth]; omega⟩
  simp only [coumpoundingInterestRateDuringElapsedSeconds, except_bind_ok, except_map_ok,
    Fixed.safeMulU64_ok, Fixed.safeSubU64_ok, i80f48_frac]
  exact ⟨product, rfl, y, exponential, growth, by simp [growth], rfl⟩

theorem compounding_ok (self : InterestRatePerSecond) (elapsed : U64) (growth : InterestRate)
    (success : self.coumpoundingInterestRateDuringElapsedSeconds elapsed = .ok growth) :
    self.rate.bits * elapsed.toNat ≤ IFixedPoint.maxExpArg.bits ∧
      (0 ≤ self.rate.bits → 0 ≤ growth.rate.bits) ∧ -2 ^ 48 ≤ growth.rate.bits := by
  simp only [coumpoundingInterestRateDuringElapsedSeconds, except_bind_ok, except_map_ok,
    Fixed.safeMulU64_ok, Fixed.safeSubU64_ok, i80f48_frac] at success
  obtain ⟨product, product_eq, y, exponential, difference, difference_eq, rfl⟩ := success
  have one : ((1 : U64).toNat : Int) = 1 := rfl
  rw [one, one_mul] at difference_eq
  have bounded := IFixedPoint.le_maxExpArg_of_checkedExp exponential
  obtain ⟨y', exponential', y_nonneg, large⟩ := IFixedPoint.checkedExp_succeeds product bounded
  obtain rfl := Except.ok.inj (exponential.symm.trans exponential')
  refine ⟨product_eq ▸ bounded, fun nonneg => ?_, by dsimp only; omega⟩
  have product_nonneg : 0 ≤ product.bits := by
    rw [← product_eq]
    positivity
  have growth_large := large product_nonneg
  dsimp only
  omega

end InterestRatePerSecond

theorem MarketBorrowRateParameters.utilisationRateBps_succeeds (self : MarketBorrowRateParameters)
    (nonneg : 0 ≤ self.utilisationRate.bits) (le_one : self.utilisationRate.bits ≤ 2 ^ 48) :
    ∃ bps, self.utilisationRateBps = .ok bps ∧
      (bps.toNat : Int) = self.utilisationRate.bits * 10000 / 2 ^ 48 := by
  have scale : (oneInBps.toNat : Int) = 10000 := rfl
  let scaled : IFixedPoint := ⟨self.utilisationRate.bits * 10000, by rw [i80f48_minBits]; omega,
    by rw [i80f48_maxBits]; omega⟩
  have floor_eq : scaled.floor = self.utilisationRate.bits * 10000 / 2 ^ 48 := rfl
  have cast := U64.toNat_ofNat (n := scaled.floor.toNat) (by omega)
  have small : (UInt64.ofNat scaled.floor.toNat).toNat < 2 ^ 32 := by omega
  refine ⟨(UInt64.ofNat scaled.floor.toNat).toUInt32, ?_, ?_⟩
  · simp only [utilisationRateBps, except_bind_ok, Fixed.safeMulU64_ok, Fixed.asU64RoundedDown_ok,
      okOr_ok, scale]
    exact ⟨scaled, rfl, UInt64.ofNat scaled.floor.toNat, by omega, if_pos small⟩
  · rw [UInt64.toNat_toUInt32, Nat.mod_eq_of_lt small]
    omega

namespace PolylineInterestRateCurve

def Rises (start finish : PolylineInterestRatePoint) : Prop :=
  start.utilizationRateBps.toNat < finish.utilizationRateBps.toNat ∧
    start.borrowRateBps.toNat < finish.borrowRateBps.toNat

theorem validateRest_rises (last : PolylineInterestRatePoint)
    (slots : List PolylineInterestRatePoint)
    (valid : validateRest false last.utilizationRateBps last.borrowRateBps slots = .ok ()) :
    List.IsChain Rises
      (last :: slots.takeWhile (fun point => point.borrowRateBps ≠ 0)) := by
  induction slots generalizing last with
  | nil => simp
  | cons slot rest ih =>
      by_cases unset : slot.borrowRateBps = 0
      · simp [unset]
      · simp only [validateRest, PolylineInterestRatePoint.maybeUninit, if_neg unset,
          Bool.false_eq_true, false_or] at valid
        split at valid
        · cases valid
        · rename_i ordered
          simp only [not_or, UInt32.le_iff_toNat_le, not_le] at ordered
          rw [List.takeWhile_cons_of_pos (by simpa using unset)]
          exact List.isChain_cons_cons.mpr ⟨ordered, ih slot valid⟩

theorem points_of_validate (self : PolylineInterestRateCurve) (valid : self.validate = .ok ()) :
    ∃ first rest, self.points = first :: rest ∧ first.utilizationRateBps.toNat = 0 ∧
      List.IsChain Rises (first :: rest) := by
  unfold validate validatePoints at valid
  unfold points
  split at valid
  · cases valid
  · cases slots : self.slots.toList with
    | nil =>
        rw [slots] at valid
        cases valid
    | cons first rest =>
        rw [slots] at valid
        dsimp only at valid
        split at valid
        · cases valid
        · rename_i opened
          simp only [not_or, not_not, ne_eq] at opened
          rw [← opened.1] at valid
          refine ⟨first, _, List.takeWhile_cons_of_pos (by simpa using opened.2), ?_,
            validateRest_rises first rest valid⟩
          simp [opened.1]

/-- The exact value of the line through two points, rounded down. -/
def lineBps (start finish : PolylineInterestRatePoint) (utilizationRateBps : Nat) : Nat :=
  (finish.borrowRateBps.toNat - start.borrowRateBps.toNat) *
    (utilizationRateBps - start.utilizationRateBps.toNat) /
    (finish.utilizationRateBps.toNat - start.utilizationRateBps.toNat)

theorem valueAt_ok (start finish : PolylineInterestRatePoint) (utilizationRateBps : UInt32)
    (rises : Rises start finish)
    (after : start.utilizationRateBps.toNat ≤ utilizationRateBps.toNat) :
    ∃ value, valueAt start finish utilizationRateBps = .ok value ∧
      value.toNat = min (start.borrowRateBps.toNat +
        lineBps start finish utilizationRateBps.toNat % 2 ^ 32) (2 ^ 32 - 1) := by
  have wide : ∀ n : UInt32, n.toUInt64.toNat = n.toNat := fun n => by simp
  have small : ∀ n : UInt32, n.toNat < 2 ^ 32 := fun n => UInt32.toNat_lt n
  obtain ⟨rise, rise_ok, rise_eq⟩ := U64.safeSub_succeeds finish.borrowRateBps.toUInt64
    start.borrowRateBps.toUInt64 (by rw [wide, wide]; exact rises.2.le)
  obtain ⟨run, run_ok, run_eq⟩ := U64.safeSub_succeeds utilizationRateBps.toUInt64
    start.utilizationRateBps.toUInt64 (by rw [wide, wide]; exact after)
  obtain ⟨width, width_ok, width_eq⟩ := U64.safeSub_succeeds finish.utilizationRateBps.toUInt64
    start.utilizationRateBps.toUInt64 (by rw [wide, wide]; exact rises.1.le)
  simp only [wide] at rise_eq run_eq width_eq
  have nonzero : width ≠ 0 := by
    intro zero
    have none : width.toNat = 0 := by simp [zero]
    have apart := rises.1
    omega
  have fits : rise.toNat * run.toNat < 2 ^ 64 := by
    have riseSmall := small finish.borrowRateBps
    have runSmall := small utilizationRateBps
    calc
      rise.toNat * run.toNat ≤ (2 ^ 32 - 1) * (2 ^ 32 - 1) := Nat.mul_le_mul (by omega) (by omega)
      _ < 2 ^ 64 := by norm_num
  have exact_value : (rise * run / width).toUInt32.toNat =
      lineBps start finish utilizationRateBps.toNat % 2 ^ 32 := by
    rw [UInt64.toNat_toUInt32, UInt64.toNat_div, UInt64.toNat_mul, Nat.mod_eq_of_lt fits, rise_eq,
      run_eq, width_eq]
    rfl
  refine ⟨UInt32.ofNat (min (start.borrowRateBps.toNat +
    (rise * run / width).toUInt32.toNat) (2 ^ 32 - 1)), ?_, ?_⟩
  · simp only [valueAt, except_bind_ok, expect_ok]
    exact ⟨rise, rise_ok, run, run_ok, width, width_ok, if_neg nonzero⟩
  · rw [exact_value]
    exact UInt32.toNat_ofNat_of_lt' (Nat.lt_of_le_of_lt (Nat.min_le_right _ _) (by decide))

theorem interestRatePerSecond_ok (self : PolylineInterestRateCurve) (utilizationRateBps : UInt32)
    (rate : InterestRatePerSecond) :
    self.interestRatePerSecond utilizationRateBps = .ok rate ↔
      ∃ bps : UInt32, self.aprBorrowRateBps utilizationRateBps = .ok bps ∧
        rate.rate.bits = bps.toNat * 2 ^ 48 / 10000 / 31536000 := by
  have scale : (oneInBps.toNat : Int) = 10000 := rfl
  have wide : ∀ n : UInt32, n.toUInt64.toNat = n.toNat := fun n => by simp
  have apr_quotient : ∀ bps : UInt32, ((bps.toNat : Int) * 2 ^ 48).tdiv 10000 =
      (bps.toNat : Int) * 2 ^ 48 / 10000 := fun bps => Int.tdiv_eq_ediv_of_nonneg (by positivity)
  simp only [interestRatePerSecond, except_bind_ok, expect_ok, Fixed.safeDivU64_ok,
    InterestRatePerSecond.fromApr_ok, Fixed.fromU64_bits, i80f48_frac, scale, wide, apr_quotient]
  constructor
  · rintro ⟨bps, evaluated, apr, ⟨-, apr_eq⟩, rate_eq⟩
    refine ⟨bps, evaluated, ?_⟩
    rw [← rate_eq, ← apr_eq, Int.tdiv_eq_ediv_of_nonneg (by positivity)]
  · rintro ⟨bps, evaluated, rate_eq⟩
    have small := UInt32.toNat_lt bps
    refine ⟨bps, evaluated, ⟨bps.toNat * 2 ^ 48 / 10000, by rw [i80f48_minBits]; omega,
      by rw [i80f48_maxBits]; omega⟩, ⟨by decide, rfl⟩, ?_⟩
    rw [rate_eq, Int.tdiv_eq_ediv_of_nonneg (by positivity)]

end PolylineInterestRateCurve

namespace AdaptiveInterestRateCurve

theorem targetUtilisationRate_bits : targetUtilisationRate.bits = 253327479039590 := by decide
theorem oneMinusTargetUtilisationRate_bits :
    oneMinusTargetUtilisationRate.bits = 28147497671065 := by decide
theorem adjustmentSpeed_bits : adjustmentSpeed.bits = 446275648 := by decide
theorem initialRateAtTarget_bits : initialRateAtTarget.rate.bits = 357020 := by decide
theorem minRateAtTarget_bits : minRateAtTarget.rate.bits = 89255 := by decide
theorem maxRateAtTarget_bits : maxRateAtTarget.rate.bits = 17851025 := by decide

def curveFactor (err : Int) : Int :=
  (if err < 0 then 3 * 2 ^ 46 * err / 2 ^ 48 else 3 * err) + 2 ^ 48

def lowCoeff : IFixedPoint := ⟨3 * 2 ^ 46, by decide, by decide⟩

def highCoeff : IFixedPoint := ⟨3 * 2 ^ 48, by decide, by decide⟩

theorem curve_ok (rateAtTarget rate : InterestRatePerSecond) (err : IFixedPoint)
    (small : err.bits.natAbs ≤ 2 ^ 120) :
    curve rateAtTarget err = .ok rate ↔
      curveFactor err.bits * rateAtTarget.rate.bits / 2 ^ 48 = rate.rate.bits := by
  let coeff := if err.bits < 0 then lowCoeff else highCoeff
  have coeff_ok : curveCoeff err = .ok coeff := by
    unfold curveCoeff
    by_cases sign : err.bits < 0
    · simp only [(Fixed.isNegative_iff err).mpr sign, if_true, coeff, if_pos sign]
      rfl
    · simp only [(Fixed.isNegative_iff err).not.mpr sign, Bool.false_eq_true, if_false, coeff,
        if_neg sign]
      rfl
  have slope_eq : coeff.bits * err.bits / 2 ^ 48 + 2 ^ 48 = curveFactor err.bits := by
    unfold curveFactor
    by_cases sign : err.bits < 0
    · simp only [coeff, if_pos sign, lowCoeff]
    · simp only [coeff, if_neg sign, highCoeff]
      omega
  have factor_small : -2 ^ 126 ≤ curveFactor err.bits ∧ curveFactor err.bits < 2 ^ 126 := by
    unfold curveFactor
    split <;> omega
  let slope : IFixedPoint := ⟨coeff.bits * err.bits / 2 ^ 48, by rw [i80f48_minBits]; omega,
    by rw [i80f48_maxBits]; omega⟩
  let factor : IFixedPoint := ⟨curveFactor err.bits, by rw [i80f48_minBits]; omega,
    by rw [i80f48_maxBits]; omega⟩
  have sloped : coeff.safeMul err = .ok slope := (Fixed.safeMul_ok _ _ _).mpr rfl
  have added : slope.safeAdd Fixed.one = .ok factor :=
    (Fixed.safeAdd_ok _ _ _).mpr (by simpa [slope, factor] using slope_eq)
  have scaled : curve rateAtTarget err =
      InterestRatePerSecond.mk <$> factor.safeMul rateAtTarget.rate := by
    unfold curve
    rw [coeff_ok]
    simp only [bind, Except.bind, sloped, added]
  rw [scaled, except_map_ok]
  constructor
  · rintro ⟨product, product_ok, rfl⟩
    exact (Fixed.safeMul_ok _ _ _).mp product_ok
  · intro product_eq
    exact ⟨rate.rate, (Fixed.safeMul_ok _ _ _).mpr product_eq, rfl⟩

theorem clamp_bounds (rate least greatest : InterestRatePerSecond)
    (ordered : least.rate.bits ≤ greatest.rate.bits) :
    least.rate.bits ≤ (rate.clamp least greatest).rate.bits ∧
      (rate.clamp least greatest).rate.bits ≤ greatest.rate.bits ∧
      (greatest.rate.bits ≤ rate.rate.bits → rate.clamp least greatest = greatest) := by
  unfold InterestRatePerSecond.clamp
  simp only [Fixed.lt_def]
  split
  · exact ⟨le_rfl, ordered, fun above => by omega⟩
  · split
    · exact ⟨ordered, le_rfl, fun _ => rfl⟩
    · refine ⟨by omega, by omega, fun above => ?_⟩
      have same : rate.rate = greatest.rate := Fixed.ext_bits (by omega)
      cases rate
      cases greatest
      simpa using same

theorem clampLinearAdaptation_exp (linearAdaptation : IFixedPoint) :
    ∃ growth, IFixedPoint.checkedExp (clampLinearAdaptation linearAdaptation) = .ok growth ∧
      0 ≤ growth.bits ∧ (0 ≤ linearAdaptation.bits → 2 ^ 48 ≤ growth.bits) := by
  have cap : maxSafeLinearAdaptation.bits = 15410754974908416 := by decide
  have least : minSafeLinearAdaptation.bits = -9347783976560885 := by decide
  have bounds : (clampLinearAdaptation linearAdaptation).bits ≤ 15410754974908416 ∧
      (0 ≤ linearAdaptation.bits → 0 ≤ (clampLinearAdaptation linearAdaptation).bits) := by
    unfold clampLinearAdaptation
    simp only [Fixed.lt_def]
    split
    · omega
    · split <;> omega
  obtain ⟨growth, exponential, nonneg, large⟩ :=
    IFixedPoint.checkedExp_succeeds (clampLinearAdaptation linearAdaptation)
      (by rw [Fixed.le_def, IFixedPoint.maxExpArg_bits]; exact bounds.1)
  exact ⟨growth, exponential, nonneg, fun sign => large (bounds.2 sign)⟩

theorem newRateAtTarget_eq (start : InterestRatePerSecond) (linearAdaptation growth : IFixedPoint)
    (exponential : IFixedPoint.checkedExp (clampLinearAdaptation linearAdaptation) = .ok growth) :
    newRateAtTarget start linearAdaptation =
      (fun rate => (InterestRatePerSecond.mk rate).clamp minRateAtTarget maxRateAtTarget) <$>
        start.rate.safeMul growth := by
  unfold newRateAtTarget
  rw [exponential]
  cases product : start.rate.safeMul growth <;>
    simp [bind, Except.bind, Functor.map, Except.map, product, pure, Except.pure]

theorem newRateAtTarget_ok (start next : InterestRatePerSecond) (linearAdaptation : IFixedPoint)
    (success : newRateAtTarget start linearAdaptation = .ok next) :
    minRateAtTarget.rate.bits ≤ next.rate.bits ∧ next.rate.bits ≤ maxRateAtTarget.rate.bits ∧
      (0 ≤ linearAdaptation.bits → maxRateAtTarget.rate.bits ≤ start.rate.bits →
        next = maxRateAtTarget) := by
  obtain ⟨growth, exponential, -, large⟩ := clampLinearAdaptation_exp linearAdaptation
  rw [newRateAtTarget_eq start linearAdaptation growth exponential, except_map_ok] at success
  obtain ⟨rate, product, rfl⟩ := success
  rw [Fixed.safeMul_ok, i80f48_frac] at product
  have bounds := clamp_bounds ⟨rate⟩ minRateAtTarget maxRateAtTarget (by decide)
  refine ⟨bounds.1, bounds.2.1, fun sign high => bounds.2.2 ?_⟩
  have base : 0 ≤ start.rate.bits := le_trans (by decide) high
  have grown : start.rate.bits * 2 ^ 48 ≤ start.rate.bits * growth.bits :=
    Int.mul_le_mul_of_nonneg_left (large sign) base
  dsimp only
  rw [← product]
  exact le_trans high (Int.le_ediv_of_mul_le (by norm_num) grown)

theorem newRateAtTarget_succeeds (start : InterestRatePerSecond) (linearAdaptation : IFixedPoint)
    (nonneg : 0 ≤ start.rate.bits) (small : start.rate.bits ≤ 2 ^ 48) :
    ∃ next, newRateAtTarget start linearAdaptation = .ok next := by
  obtain ⟨growth, exponential, positive, -⟩ := clampLinearAdaptation_exp linearAdaptation
  have range := growth.bits_lt
  have product_nonneg : 0 ≤ start.rate.bits * growth.bits / 2 ^ 48 := by positivity
  have product_small : start.rate.bits * growth.bits / 2 ^ 48 ≤ growth.bits := by
    have scaled : start.rate.bits * growth.bits ≤ 2 ^ 48 * growth.bits :=
      Int.mul_le_mul_of_nonneg_right small positive
    exact Int.ediv_le_of_le_mul (by norm_num) (by linarith)
  rw [newRateAtTarget_eq start linearAdaptation growth exponential]
  let product : IFixedPoint := ⟨start.rate.bits * growth.bits / 2 ^ 48,
    by rw [i80f48_minBits]; omega, by rw [i80f48_maxBits]; omega⟩
  have multiplied : start.rate.safeMul growth = .ok product := (Fixed.safeMul_ok _ _ _).mpr rfl
  exact ⟨_, (except_map_ok _ _ _).mpr ⟨product, multiplied, rfl⟩⟩

def errBits (utilisation : Int) : Int :=
  if targetUtilisationRate.bits < utilisation then
    (utilisation - targetUtilisationRate.bits) * 2 ^ 48 / oneMinusTargetUtilisationRate.bits
  else -((targetUtilisationRate.bits - utilisation) * 2 ^ 48 / targetUtilisationRate.bits)

theorem utilisationErr_eq (utilisationRate difference : IFixedPoint)
    (difference_eq : difference.bits = utilisationRate.bits - targetUtilisationRate.bits) :
    (difference.bits * 2 ^ 48).tdiv
        (if targetUtilisationRate < utilisationRate then oneMinusTargetUtilisationRate
          else targetUtilisationRate).bits = errBits utilisationRate.bits := by
  unfold errBits
  simp only [Fixed.lt_def]
  rw [difference_eq]
  split
  · exact Int.tdiv_eq_ediv_of_nonneg (by omega)
  · rw [← Int.tdiv_eq_ediv_of_nonneg (by omega), ← Int.neg_tdiv]
    congr 1
    ring

theorem utilisationErr_ok (utilisationRate err : IFixedPoint)
    (success : utilisationErr utilisationRate = .ok err) :
    err.bits = errBits utilisationRate.bits := by
  simp only [utilisationErr, except_bind_ok, Fixed.safeSub_ok, Fixed.safeDiv_ok,
    i80f48_frac] at success
  obtain ⟨difference, difference_eq, -, quotient⟩ := success
  rw [← quotient, utilisationErr_eq utilisationRate difference difference_eq.symm]

theorem errBits_bounds (utilisation : Int) (nonneg : 0 ≤ utilisation)
    (small : utilisation ≤ 2 ^ 112) :
    -2 ^ 48 ≤ errBits utilisation ∧ (errBits utilisation).natAbs ≤ 2 ^ 120 ∧
      (utilisation ≤ 2 ^ 48 → errBits utilisation ≤ 2 ^ 48 + 10) := by
  unfold errBits
  rw [targetUtilisationRate_bits, oneMinusTargetUtilisationRate_bits]
  split <;> omega

theorem utilisationErr_succeeds (utilisationRate : IFixedPoint)
    (nonneg : 0 ≤ utilisationRate.bits) (small : utilisationRate.bits ≤ 2 ^ 112) :
    ∃ err, utilisationErr utilisationRate = .ok err ∧ err.bits = errBits utilisationRate.bits := by
  obtain ⟨lower, bounded, -⟩ := errBits_bounds utilisationRate.bits nonneg small
  have target := targetUtilisationRate_bits
  let difference : IFixedPoint := ⟨utilisationRate.bits - targetUtilisationRate.bits,
    by rw [i80f48_minBits]; omega, by rw [i80f48_maxBits]; omega⟩
  let err : IFixedPoint := ⟨errBits utilisationRate.bits, by rw [i80f48_minBits]; omega,
    by rw [i80f48_maxBits]; omega⟩
  refine ⟨err, ?_, rfl⟩
  simp only [utilisationErr, except_bind_ok, Fixed.safeSub_ok, Fixed.safeDiv_ok, i80f48_frac]
  refine ⟨difference, rfl, ?_, utilisationErr_eq utilisationRate difference rfl⟩
  split <;> decide

def TargetRates (start err : Int) (elapsed : U64) (average finish : Int) : Prop :=
  (start = 0 ∧ average = initialRateAtTarget.rate.bits ∧
      finish = initialRateAtTarget.rate.bits) ∨
    (start ≠ 0 ∧ adjustmentSpeed.bits * err / 2 ^ 48 * elapsed.toNat = 0 ∧ average = start ∧
      finish = start) ∨
    (start ≠ 0 ∧ adjustmentSpeed.bits * err / 2 ^ 48 * elapsed.toNat ≠ 0 ∧
      minRateAtTarget.rate.bits ≤ finish ∧ finish ≤ maxRateAtTarget.rate.bits ∧
      ∃ middle, minRateAtTarget.rate.bits ≤ middle ∧ middle ≤ maxRateAtTarget.rate.bits ∧
        average = (start + finish + middle * 2).tdiv 4 ∧
        (0 ≤ adjustmentSpeed.bits * err / 2 ^ 48 * elapsed.toNat →
          maxRateAtTarget.rate.bits ≤ start →
            finish = maxRateAtTarget.rate.bits ∧ middle = maxRateAtTarget.rate.bits))

theorem ratesAtTarget_ok (self : AdaptiveInterestRateCurve) (err : IFixedPoint) (elapsed : U64)
    (average finish : InterestRatePerSecond)
    (success : self.ratesAtTarget err elapsed = .ok (average, finish)) :
    TargetRates self.rateAtTarget.rate.bits err.bits elapsed average.rate.bits
      finish.rate.bits := by
  have two : ((2 : U64).toNat : Int) = 2 := rfl
  have four : ((4 : U64).toNat : Int) = 4 := rfl
  simp only [ratesAtTarget, except_ite_ok, except_pure_ok, except_bind_ok, Fixed.isZero_iff,
    Fixed.safeMul_ok, Fixed.safeMulU64_ok, Fixed.safeDivU64_ok, Fixed.safeAdd_ok, i80f48_frac,
    Prod.mk.injEq, two, four] at success
  rcases success with ⟨empty, rfl, rfl⟩ | ⟨opened, speed, speed_eq, adaptation, adaptation_eq,
    steady | moved⟩
  · exact Or.inl ⟨empty, rfl, rfl⟩
  · obtain ⟨still, rfl, rfl⟩ := steady
    exact Or.inr (Or.inl ⟨opened, by rw [speed_eq, adaptation_eq, still], rfl, rfl⟩)
  · obtain ⟨moves, ending, ending_ok, half, ⟨-, half_eq⟩, middle, middle_ok, ends, ends_eq, doubled,
      doubled_eq, sum, sum_eq, quotient, ⟨-, quotient_eq⟩, rfl, rfl⟩ := moved
    obtain ⟨ending_ge, ending_le, ending_max⟩ := newRateAtTarget_ok _ _ _ ending_ok
    obtain ⟨middle_ge, middle_le, middle_max⟩ := newRateAtTarget_ok _ _ _ middle_ok
    refine Or.inr (Or.inr ⟨opened, by rwa [speed_eq, adaptation_eq], ending_ge, ending_le,
      middle.rate.bits, middle_ge, middle_le, ?_, fun upward high => ?_⟩)
    · dsimp only
      rw [← quotient_eq, ← sum_eq, ← ends_eq, ← doubled_eq]
    · rw [speed_eq, adaptation_eq] at upward
      have half_nonneg : 0 ≤ half.bits := by
        rw [← half_eq]
        exact Int.tdiv_nonneg upward (by norm_num)
      rw [ending_max upward high, middle_max half_nonneg high]
      exact ⟨rfl, rfl⟩

theorem ratesAtTarget_succeeds (self : AdaptiveInterestRateCurve) (err : IFixedPoint)
    (elapsed : U64) (nonneg : 0 ≤ self.rateAtTarget.rate.bits)
    (small : self.rateAtTarget.rate.bits ≤ 2 ^ 48) (bounded : err.bits.natAbs ≤ 2 ^ 49) :
    ∃ rates, self.ratesAtTarget err elapsed = .ok rates := by
  have two : ((2 : U64).toNat : Int) = 2 := rfl
  have four : ((4 : U64).toNat : Int) = 4 := rfl
  have unit := adjustmentSpeed_bits
  have least := minRateAtTarget_bits
  have greatest := maxRateAtTarget_bits
  have short := elapsed.toNat_lt
  simp only [ratesAtTarget, except_ite_ok, except_pure_ok, except_bind_ok, Fixed.isZero_iff,
    Fixed.safeMul_ok, Fixed.safeMulU64_ok, Fixed.safeDivU64_ok, Fixed.safeAdd_ok, i80f48_frac,
    two, four]
  by_cases empty : self.rateAtTarget.rate.bits = 0
  · exact ⟨_, Or.inl ⟨empty, rfl⟩⟩
  · let speed : IFixedPoint := ⟨adjustmentSpeed.bits * err.bits / 2 ^ 48,
      by rw [i80f48_minBits, unit]; omega, by rw [i80f48_maxBits, unit]; omega⟩
    have speed_small : speed.bits.natAbs ≤ 2 ^ 30 := by
      dsimp only [speed]
      rw [unit]
      omega
    have product_small : (speed.bits * elapsed.toNat).natAbs ≤ 2 ^ 94 := by
      rw [Int.natAbs_mul, Int.natAbs_natCast]
      calc
        speed.bits.natAbs * elapsed.toNat ≤ 2 ^ 30 * 2 ^ 64 := Nat.mul_le_mul speed_small short.le
        _ = 2 ^ 94 := by norm_num
    let adaptation : IFixedPoint := ⟨speed.bits * elapsed.toNat, by rw [i80f48_minBits]; omega,
      by rw [i80f48_maxBits]; omega⟩
    by_cases still : adaptation.bits = 0
    · exact ⟨_, Or.inr ⟨empty, speed, rfl, adaptation, rfl, Or.inl ⟨still, rfl⟩⟩⟩
    · have half_small := Int.natAbs_tdiv_le_natAbs adaptation.bits 2
      have adaptation_small : adaptation.bits.natAbs ≤ 2 ^ 94 := product_small
      let half : IFixedPoint := ⟨adaptation.bits.tdiv 2, by rw [i80f48_minBits]; omega,
        by rw [i80f48_maxBits]; omega⟩
      obtain ⟨ending, ending_ok⟩ := newRateAtTarget_succeeds _ adaptation nonneg small
      obtain ⟨middle, middle_ok⟩ := newRateAtTarget_succeeds _ half nonneg small
      obtain ⟨ending_ge, ending_le, -⟩ := newRateAtTarget_ok _ _ _ ending_ok
      obtain ⟨middle_ge, middle_le, -⟩ := newRateAtTarget_ok _ _ _ middle_ok
      let ends : IFixedPoint := ⟨self.rateAtTarget.rate.bits + ending.rate.bits,
        by rw [i80f48_minBits]; omega, by rw [i80f48_maxBits]; omega⟩
      let doubled : IFixedPoint := ⟨middle.rate.bits * 2,
        by rw [i80f48_minBits]; omega, by rw [i80f48_maxBits]; omega⟩
      let sum : IFixedPoint := ⟨ends.bits + doubled.bits,
        by rw [i80f48_minBits]; dsimp only [ends, doubled]; omega,
        by rw [i80f48_maxBits]; dsimp only [ends, doubled]; omega⟩
      have average_small := Int.natAbs_tdiv_le_natAbs sum.bits 4
      dsimp only [sum, ends, doubled] at average_small
      let average : IFixedPoint := ⟨sum.bits.tdiv 4,
        by rw [i80f48_minBits]; dsimp only [sum, ends, doubled]; omega,
        by rw [i80f48_maxBits]; dsimp only [sum, ends, doubled]; omega⟩
      exact ⟨_, Or.inr ⟨empty, speed, rfl, adaptation, rfl, Or.inr ⟨still, ending, ending_ok, half,
        ⟨by decide, rfl⟩, middle, middle_ok, ends, rfl, doubled, rfl, sum, rfl, average,
        ⟨by decide, rfl⟩, rfl⟩⟩⟩

structure Update (before next : AdaptiveInterestRateCurve) (params : MarketBorrowRateParameters)
    (rate : InterestRatePerSecond) where
  err : IFixedPoint
  average : InterestRatePerSecond
  err_ok : utilisationErr params.utilisationRate = .ok err
  targets : before.ratesAtTarget err params.elapsedSecondsSinceLastUpdate =
    .ok (average, next.rateAtTarget)
  charged : curve average err = .ok rate

theorem borrowRate_succeeds (params : MarketBorrowRateParameters)
    (self next : AdaptiveInterestRateCurve) (rate : InterestRatePerSecond) :
    (borrowRate params).Succeeds self rate next ↔ Nonempty (Update self next params rate) := by
  simp only [borrowRate, computeNextRates, Method.succeeds_bind, Method.succeeds_self,
    Method.succeeds_lift, Method.succeeds_assign, Method.succeeds_pure, except_bind_ok,
    except_pure_ok]
  constructor
  · rintro ⟨_, _, ⟨rfl, rfl⟩, _, _, ⟨⟨err, err_ok, ⟨average, finish⟩, targets, charged, curve_ok,
      rfl⟩, rfl⟩, _, _, rfl, rfl, rfl⟩
    exact ⟨⟨err, average, err_ok, targets, curve_ok⟩⟩
  · rintro ⟨⟨err, average, err_ok, targets, charged⟩⟩
    exact ⟨self, self, ⟨rfl, rfl⟩, (rate, next.rateAtTarget), self,
      ⟨⟨err, err_ok, (average, next.rateAtTarget), targets, rate, charged, rfl⟩, rfl⟩,
      (), next, rfl, rfl, rfl⟩

theorem curveFactor_pos (err : Int) (bounded : -2 ^ 48 ≤ err) : 0 < curveFactor err := by
  unfold curveFactor
  split <;> omega

/-- The values the rate at target takes in a curve that started from `new`. -/
def Settled (self : AdaptiveInterestRateCurve) : Prop :=
  self.rateAtTarget.rate.bits = 0 ∨ minRateAtTarget.rate.bits ≤ self.rateAtTarget.rate.bits ∧
    self.rateAtTarget.rate.bits ≤ maxRateAtTarget.rate.bits

theorem new_settled : new.Settled := Or.inl (by decide)

theorem TargetRates.settled {start err : Int} {elapsed : U64} {average finish : Int}
    (rates : TargetRates start err elapsed average finish)
    (settled : start = 0 ∨ minRateAtTarget.rate.bits ≤ start ∧ start ≤ maxRateAtTarget.rate.bits) :
    minRateAtTarget.rate.bits ≤ finish ∧ finish ≤ maxRateAtTarget.rate.bits := by
  have least := minRateAtTarget_bits
  have greatest := maxRateAtTarget_bits
  have initial := initialRateAtTarget_bits
  rcases rates with ⟨-, -, rfl⟩ | ⟨opened, -, -, rfl⟩ | ⟨-, -, finish_ge, finish_le, -⟩
  · omega
  · omega
  · exact ⟨finish_ge, finish_le⟩

theorem TargetRates.nonneg {start err : Int} {elapsed : U64} {average finish : Int}
    (rates : TargetRates start err elapsed average finish) (start_nonneg : 0 ≤ start) :
    0 ≤ average ∧ 0 ≤ finish := by
  have least := minRateAtTarget_bits
  have initial := initialRateAtTarget_bits
  rcases rates with ⟨-, rfl, rfl⟩ | ⟨opened, -, rfl, rfl⟩ |
    ⟨opened, -, finish_ge, -, middle, middle_ge, -, average_eq, -⟩
  · omega
  · omega
  · refine ⟨?_, by omega⟩
    rw [average_eq]
    exact Int.tdiv_nonneg (by omega) (by norm_num)

theorem borrowRate_nonneg (params : MarketBorrowRateParameters)
    (self next : AdaptiveInterestRateCurve) (rate : InterestRatePerSecond)
    (stored : 0 ≤ self.rateAtTarget.rate.bits) (nonneg : 0 ≤ params.utilisationRate.bits)
    (small : params.utilisationRate.bits ≤ 2 ^ 112)
    (success : (borrowRate params).Succeeds self rate next) :
    0 ≤ rate.rate.bits ∧ 0 ≤ next.rateAtTarget.rate.bits := by
  obtain ⟨update⟩ := (borrowRate_succeeds params self next rate).mp success
  have err_eq := utilisationErr_ok _ _ update.err_ok
  obtain ⟨lower, bounded, -⟩ := errBits_bounds params.utilisationRate.bits nonneg small
  rw [← err_eq] at lower bounded
  obtain ⟨average_nonneg, finish_nonneg⟩ :=
    (ratesAtTarget_ok _ _ _ _ _ update.targets).nonneg stored
  have charged := (curve_ok update.average rate update.err bounded).mp update.charged
  refine ⟨?_, finish_nonneg⟩
  rw [← charged]
  exact Int.ediv_nonneg (mul_nonneg (curveFactor_pos _ lower).le average_nonneg) (by norm_num)

theorem borrowRate_settled (params : MarketBorrowRateParameters)
    (self next : AdaptiveInterestRateCurve) (rate : InterestRatePerSecond)
    (settled : self.Settled) (nonneg : 0 ≤ params.utilisationRate.bits)
    (small : params.utilisationRate.bits ≤ 2 ^ 112)
    (success : (borrowRate params).Succeeds self rate next) :
    0 ≤ rate.rate.bits ∧ next.Settled := by
  have least := minRateAtTarget_bits
  have stored : 0 ≤ self.rateAtTarget.rate.bits := by
    rcases settled with zero | ⟨above, -⟩ <;> omega
  obtain ⟨rate_nonneg, -⟩ := borrowRate_nonneg params self next rate stored nonneg small success
  obtain ⟨update⟩ := (borrowRate_succeeds params self next rate).mp success
  exact ⟨rate_nonneg, Or.inr ((ratesAtTarget_ok _ _ _ _ _ update.targets).settled settled)⟩

end AdaptiveInterestRateCurve

namespace InterestRateCurveKind

theorem fixed_succeeds (rate rate' : InterestRatePerSecond) (params : MarketBorrowRateParameters)
    (next : InterestRateCurveKind) :
    (borrowRatePerSecond params).Succeeds (.fixed rate) rate' next ↔
      rate = rate' ∧ next = .fixed rate := by
  simp only [borrowRatePerSecond, Method.succeeds_bind, Method.succeeds_self]
  constructor
  · rintro ⟨_, _, ⟨rfl, rfl⟩, returned⟩
    obtain ⟨rfl, rfl⟩ := (Method.succeeds_pure _ _ _ _).mp returned
    exact ⟨rfl, rfl⟩
  · rintro ⟨rfl, rfl⟩
    exact ⟨_, _, ⟨rfl, rfl⟩, (Method.succeeds_pure _ _ _ _).mpr ⟨rfl, rfl⟩⟩

theorem polyline_succeeds (curve : PolylineInterestRateCurve) (rate : InterestRatePerSecond)
    (params : MarketBorrowRateParameters) (next : InterestRateCurveKind) :
    (borrowRatePerSecond params).Succeeds (.polyline curve) rate next ↔
      (∃ bps, params.utilisationRateBps = .ok bps ∧
        curve.interestRatePerSecond bps = .ok rate) ∧ next = .polyline curve := by
  simp only [borrowRatePerSecond, Method.succeeds_bind, Method.succeeds_self]
  constructor
  · rintro ⟨_, _, ⟨rfl, rfl⟩, returned⟩
    simp only [Method.succeeds_bind, Method.succeeds_lift] at returned
    obtain ⟨bps, _, ⟨converted, rfl⟩, evaluated, rfl⟩ := returned
    exact ⟨⟨bps, converted, evaluated⟩, rfl⟩
  · rintro ⟨⟨bps, converted, evaluated⟩, rfl⟩
    refine ⟨_, _, ⟨rfl, rfl⟩, ?_⟩
    simp only [Method.succeeds_bind, Method.succeeds_lift]
    exact ⟨bps, _, ⟨converted, rfl⟩, evaluated, rfl⟩

theorem adaptive_succeeds (curve : AdaptiveInterestRateCurve) (rate : InterestRatePerSecond)
    (params : MarketBorrowRateParameters) (next : InterestRateCurveKind) :
    (borrowRatePerSecond params).Succeeds (.adaptive curve) rate next ↔
      ∃ curve', (AdaptiveInterestRateCurve.borrowRate params).Succeeds curve rate curve' ∧
        next = .adaptive curve' := by
  simp only [borrowRatePerSecond, Method.succeeds_bind, Method.succeeds_self]
  constructor
  · rintro ⟨_, _, ⟨rfl, rfl⟩, returned⟩
    obtain ⟨curve', updated, stored⟩ := (Method.succeeds_zoom _ _ _ _ _ _).mp returned
    exact ⟨curve', updated, stored.symm⟩
  · rintro ⟨curve', updated, rfl⟩
    exact ⟨_, _, ⟨rfl, rfl⟩, (Method.succeeds_zoom _ _ _ _ _ _).mpr ⟨curve', updated, rfl⟩⟩

end InterestRateCurveKind

end AutaraLending
