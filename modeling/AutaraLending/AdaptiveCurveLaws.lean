import AutaraLending.ExponentialBounds
import AutaraLending.InterestRateCurve

/-! The adaptive curve over any sequence of calls: it never fails, its rate at target stays
between the two bounds once set and moves with the sign of the utilisation error. -/

namespace AutaraLending

open Support

namespace AdaptiveInterestRateCurve

theorem clampLinearAdaptation_nonpos (linearAdaptation : IFixedPoint)
    (nonpos : linearAdaptation.bits ≤ 0) : (clampLinearAdaptation linearAdaptation).bits ≤ 0 := by
  have cap : maxSafeLinearAdaptation.bits = 15410754974908416 := by decide
  have least : minSafeLinearAdaptation.bits = -9347783976560885 := by decide
  unfold clampLinearAdaptation
  simp only [Fixed.lt_def]
  split
  · omega
  · split <;> omega

theorem newRateAtTarget_direction (start next : InterestRatePerSecond)
    (linearAdaptation : IFixedPoint) (start_ge : minRateAtTarget.rate.bits ≤ start.rate.bits)
    (start_le : start.rate.bits ≤ maxRateAtTarget.rate.bits)
    (success : newRateAtTarget start linearAdaptation = .ok next) :
    (0 ≤ linearAdaptation.bits → start.rate.bits ≤ next.rate.bits) ∧
      (linearAdaptation.bits ≤ 0 → next.rate.bits ≤ start.rate.bits) := by
  have least := minRateAtTarget_bits
  obtain ⟨growth, exponential, -, large⟩ := clampLinearAdaptation_exp linearAdaptation
  rw [newRateAtTarget_eq start linearAdaptation growth exponential, except_map_ok] at success
  obtain ⟨rate, product, rfl⟩ := success
  rw [Fixed.safeMul_ok, i80f48_frac] at product
  unfold InterestRatePerSecond.clamp
  simp only [Fixed.lt_def]
  constructor
  · intro upward
    have grown : start.rate.bits * 2 ^ 48 ≤ start.rate.bits * growth.bits :=
      Int.mul_le_mul_of_nonneg_left (large upward) (by omega)
    have raised : start.rate.bits ≤ rate.bits := by
      rw [← product]
      exact Int.le_ediv_of_mul_le (by norm_num) grown
    split
    · omega
    · split
      · exact start_le
      · exact raised
  · intro downward
    have shrinks := IFixedPoint.checkedExp_le_one _ _
      (clampLinearAdaptation_nonpos linearAdaptation downward) exponential
    have shrunk : start.rate.bits * growth.bits ≤ start.rate.bits * 2 ^ 48 :=
      Int.mul_le_mul_of_nonneg_left shrinks (by omega)
    have lowered : rate.bits ≤ start.rate.bits := by
      rw [← product]
      exact Int.ediv_le_of_le_mul (by norm_num) shrunk
    split
    · exact start_ge
    · split
      · omega
      · exact lowered

theorem ratesAtTarget_finish (self : AdaptiveInterestRateCurve) (err : IFixedPoint) (elapsed : U64)
    (average finish : InterestRatePerSecond) (opened : self.rateAtTarget.rate.bits ≠ 0)
    (success : self.ratesAtTarget err elapsed = .ok (average, finish)) :
    finish = self.rateAtTarget ∨
      ∃ linearAdaptation : IFixedPoint,
        adjustmentSpeed.bits * err.bits / 2 ^ 48 * elapsed.toNat = linearAdaptation.bits ∧
        newRateAtTarget self.rateAtTarget linearAdaptation = .ok finish := by
  simp only [ratesAtTarget, except_ite_ok, except_pure_ok, except_bind_ok, Fixed.isZero_iff,
    Fixed.safeMul_ok, Fixed.safeMulU64_ok, i80f48_frac, Prod.mk.injEq] at success
  rcases success with ⟨empty, -⟩ | ⟨-, speed, speed_eq, adaptation, adaptation_eq, steady | moved⟩
  · exact absurd empty opened
  · exact Or.inl steady.2.2.symm
  · obtain ⟨-, ending, ending_ok, _, -, _, -, _, -, _, -, _, -, _, -, -, rfl⟩ := moved
    exact Or.inr ⟨adaptation, by rw [speed_eq, adaptation_eq], ending_ok⟩

theorem errBits_sign (utilisation : Int) :
    (targetUtilisationRate.bits < utilisation → 0 ≤ errBits utilisation) ∧
      (utilisation ≤ targetUtilisationRate.bits → errBits utilisation ≤ 0) := by
  have scale : 0 < oneMinusTargetUtilisationRate.bits := by decide
  have target : 0 < targetUtilisationRate.bits := by decide
  unfold errBits
  constructor
  · intro above
    rw [if_pos above]
    exact Int.ediv_nonneg (by omega) scale.le
  · intro below
    rw [if_neg (by omega)]
    have nonneg := Int.ediv_nonneg (a := (targetUtilisationRate.bits - utilisation) * 2 ^ 48)
      (by omega) target.le
    omega

theorem nine_tenths_lt_iff (utilisationRate : IFixedPoint) :
    9 / 10 < utilisationRate.toRat ↔ targetUtilisationRate.bits < utilisationRate.bits := by
  rw [targetUtilisationRate_bits, Fixed.toRat, i80f48_frac, div_lt_div_iff₀ (by norm_num)
    (by norm_num)]
  constructor
  · intro above
    have scaled : (9 : Int) * 2 ^ 48 < utilisationRate.bits * 10 := by exact_mod_cast above
    omega
  · intro above
    have scaled : (9 : Int) * 2 ^ 48 < utilisationRate.bits * 10 := by omega
    exact_mod_cast scaled

theorem Update.direction {self next : AdaptiveInterestRateCurve}
    {params : MarketBorrowRateParameters} {rate : InterestRatePerSecond}
    (update : Update self next params rate)
    (self_ge : minRateAtTarget.rate.bits ≤ self.rateAtTarget.rate.bits)
    (self_le : self.rateAtTarget.rate.bits ≤ maxRateAtTarget.rate.bits) :
    (9 / 10 < params.utilisationRate.toRat →
        self.rateAtTarget.rate.bits ≤ next.rateAtTarget.rate.bits) ∧
      (params.utilisationRate.toRat < 9 / 10 →
        next.rateAtTarget.rate.bits ≤ self.rateAtTarget.rate.bits) := by
  have least := minRateAtTarget_bits
  have speed := adjustmentSpeed_bits
  have sign := errBits_sign params.utilisationRate.bits
  rw [← utilisationErr_ok _ _ update.err_ok] at sign
  rcases ratesAtTarget_finish self update.err _ _ _ (by omega) update.targets with still |
    ⟨adaptation, adaptation_eq, moved⟩
  · rw [still]
    exact ⟨fun _ => le_rfl, fun _ => le_rfl⟩
  · obtain ⟨raises, lowers⟩ := newRateAtTarget_direction _ _ _ self_ge self_le moved
    rw [speed] at adaptation_eq
    constructor
    · intro above
      have err_nonneg := sign.1 ((nine_tenths_lt_iff _).mp above)
      apply raises
      rw [← adaptation_eq]
      exact mul_nonneg (by omega) (by positivity)
    · intro below
      have within : params.utilisationRate.bits ≤ targetUtilisationRate.bits := by
        by_contra above
        have contrary := (nine_tenths_lt_iff params.utilisationRate).mpr (by omega)
        exact absurd below contrary.le.not_gt
      have err_nonpos := sign.2 within
      apply lowers
      rw [← adaptation_eq]
      exact mul_nonpos_of_nonpos_of_nonneg (by omega) (by positivity)

theorem TargetRates.average_bounds {start err : Int} {elapsed : U64} {average finish : Int}
    (rates : TargetRates start err elapsed average finish)
    (settled : start = 0 ∨ minRateAtTarget.rate.bits ≤ start ∧ start ≤ maxRateAtTarget.rate.bits) :
    minRateAtTarget.rate.bits ≤ average ∧ average ≤ maxRateAtTarget.rate.bits := by
  have least := minRateAtTarget_bits
  have greatest := maxRateAtTarget_bits
  have initial := initialRateAtTarget_bits
  rcases rates with ⟨-, rfl, rfl⟩ | ⟨opened, -, rfl, rfl⟩ |
    ⟨opened, -, finish_ge, finish_le, middle, middle_ge, middle_le, average_eq, -⟩
  · omega
  · omega
  · rw [average_eq, Int.tdiv_eq_ediv_of_nonneg (by omega)]
    omega

theorem curveFactor_bounds (utilisation : Int) (nonneg : 0 ≤ utilisation)
    (le_one : utilisation ≤ 2 ^ 48) :
    2 ^ 46 ≤ curveFactor (errBits utilisation) ∧
      curveFactor (errBits utilisation) ≤ 2 ^ 50 + 30 := by
  obtain ⟨lower, -, upper⟩ := errBits_bounds utilisation nonneg (by omega)
  have small := upper le_one
  unfold curveFactor
  split <;> omega

/-- A call at a utilisation between zero and one. -/
structure Utilised (params : MarketBorrowRateParameters) : Prop where
  nonneg : 0 ≤ params.utilisationRate.bits
  le_one : params.utilisationRate.bits ≤ (Fixed.one : IFixedPoint).bits

/-- What one call returns and leaves behind. -/
structure Charged (before next : AdaptiveInterestRateCurve) (params : MarketBorrowRateParameters)
    (rate : InterestRatePerSecond) : Prop where
  call : (borrowRate params).Succeeds before rate next
  target_ge : minRateAtTarget.rate ≤ next.rateAtTarget.rate
  target_le : next.rateAtTarget.rate ≤ maxRateAtTarget.rate
  rate_pos : 0 < rate.rate.toRat
  rate_le : rate.rate.toRat ≤ maxRateAtTarget.rate.toRat * (4 + 1 / 2 ^ 40)

theorem charged_rate_bounds (utilisation average rate : Int) (nonneg : 0 ≤ utilisation)
    (le_one : utilisation ≤ 2 ^ 48) (average_ge : minRateAtTarget.rate.bits ≤ average)
    (average_le : average ≤ maxRateAtTarget.rate.bits)
    (charged : curveFactor (errBits utilisation) * average / 2 ^ 48 = rate) :
    0 < rate ∧ rate * 2 ^ 40 ≤ maxRateAtTarget.rate.bits * (4 * 2 ^ 40 + 1) := by
  have least := minRateAtTarget_bits
  have greatest := maxRateAtTarget_bits
  obtain ⟨factor_ge, factor_le⟩ := curveFactor_bounds utilisation nonneg le_one
  have product_ge : 2 ^ 46 * 89255 ≤ curveFactor (errBits utilisation) * average :=
    mul_le_mul factor_ge (by omega) (by norm_num) (by omega)
  have product_le : curveFactor (errBits utilisation) * average ≤ (2 ^ 50 + 30) * 17851025 :=
    mul_le_mul factor_le (by omega) (by omega) (by norm_num)
  omega

theorem exists_charged (self : AdaptiveInterestRateCurve) (params : MarketBorrowRateParameters)
    (settled : self.Settled) (utilised : Utilised params) :
    ∃ rate next, Charged self next params rate := by
  have least := minRateAtTarget_bits
  have greatest := maxRateAtTarget_bits
  have nonneg := utilised.nonneg
  have le_one : params.utilisationRate.bits ≤ 2 ^ 48 := utilised.le_one
  obtain ⟨err, err_ok, err_eq⟩ := utilisationErr_succeeds params.utilisationRate nonneg (by omega)
  obtain ⟨lower, -, upper⟩ := errBits_bounds params.utilisationRate.bits nonneg (by omega)
  have err_le := upper le_one
  obtain ⟨⟨average, finish⟩, targets⟩ := self.ratesAtTarget_succeeds err
    params.elapsedSecondsSinceLastUpdate (by rcases settled with zero | bounds <;> omega)
    (by rcases settled with zero | bounds <;> omega) (by omega)
  have rates := ratesAtTarget_ok _ _ _ _ _ targets
  obtain ⟨finish_ge, finish_le⟩ := rates.settled settled
  obtain ⟨average_ge, average_le⟩ := rates.average_bounds settled
  obtain ⟨rate_pos, rate_le⟩ := charged_rate_bounds params.utilisationRate.bits average.rate.bits _
    nonneg le_one average_ge average_le rfl
  obtain ⟨charged, charged_eq⟩ := IFixedPoint.exists_bits
    (curveFactor (errBits params.utilisationRate.bits) * average.rate.bits / 2 ^ 48)
    (by omega) (by omega)
  rw [← charged_eq] at rate_pos rate_le
  refine ⟨⟨charged⟩, ⟨finish⟩, ?_, finish_ge, finish_le, ?_, ?_⟩
  · rw [borrowRate_succeeds]
    refine ⟨⟨err, average, err_ok, targets, (curve_ok _ _ _ (by omega)).mpr ?_⟩⟩
    rw [err_eq, charged_eq]
  · rw [Fixed.toRat]
    exact div_pos (by exact_mod_cast rate_pos) (by positivity)
  · have scaled : (charged.bits * 2 ^ 40 : ℚ) ≤ maxRateAtTarget.rate.bits * (4 * 2 ^ 40 + 1) := by
      exact_mod_cast rate_le
    simp only [Fixed.toRat, i80f48_frac]
    rw [div_mul_eq_mul_div, div_le_div_iff_of_pos_right (by positivity)]
    linarith

/-- The curve after a sequence of calls that all succeed. -/
def Calls : AdaptiveInterestRateCurve → List MarketBorrowRateParameters →
    AdaptiveInterestRateCurve → Prop
  | self, [], last => self = last
  | self, params :: rest, last =>
      ∃ rate next, (borrowRate params).Succeeds self rate next ∧ Calls next rest last

theorem exists_calls (self : AdaptiveInterestRateCurve) (settled : self.Settled)
    (calls : List MarketBorrowRateParameters) (utilised : ∀ params ∈ calls, Utilised params) :
    ∃ last, Calls self calls last := by
  induction calls generalizing self with
  | nil => exact ⟨self, rfl⟩
  | cons params rest ih =>
      obtain ⟨rate, next, charged⟩ := exists_charged self params settled (utilised params (by simp))
      obtain ⟨last, later⟩ := ih next (Or.inr ⟨charged.target_ge, charged.target_le⟩)
        fun params member => utilised params (by simp [member])
      exact ⟨last, rate, next, charged.call, later⟩

/-- A sequence of calls leaves the rate at target settled, and set once there was a call. -/
theorem Calls.settled {self last : AdaptiveInterestRateCurve}
    {calls : List MarketBorrowRateParameters} (reached : Calls self calls last)
    (settled : self.Settled) (utilised : ∀ params ∈ calls, Utilised params) :
    last.Settled ∧ (calls ≠ [] → minRateAtTarget.rate.bits ≤ last.rateAtTarget.rate.bits ∧
      last.rateAtTarget.rate.bits ≤ maxRateAtTarget.rate.bits) := by
  induction calls generalizing self with
  | nil =>
      cases reached
      exact ⟨settled, fun nonempty => absurd rfl nonempty⟩
  | cons params rest ih =>
      obtain ⟨rate, next, call, later⟩ := reached
      obtain ⟨rate', next', charged⟩ :=
        exists_charged self params settled (utilised params (by simp))
      obtain ⟨rfl, rfl⟩ := Method.succeeds_unique _ _ _ _ _ _ call charged.call
      have bounds : minRateAtTarget.rate.bits ≤ next.rateAtTarget.rate.bits ∧
          next.rateAtTarget.rate.bits ≤ maxRateAtTarget.rate.bits :=
        ⟨charged.target_ge, charged.target_le⟩
      obtain ⟨kept, set⟩ := ih later (Or.inr bounds) fun params member =>
        utilised params (by simp [member])
      refine ⟨kept, fun _ => ?_⟩
      cases rest with
      | nil =>
          cases later
          exact bounds
      | cons _ _ => exact set (by simp)

/-- From `new`, whatever calls came before, the next call succeeds, keeps the rate at target
within its bounds, returns a positive rate of at most about four times the greatest, and, unless
it is the first, moves the rate at target with the utilisation. -/
theorem adaptive_never_fails (calls : List MarketBorrowRateParameters)
    (params : MarketBorrowRateParameters) (before : ∀ params ∈ calls, Utilised params)
    (utilised : Utilised params) :
    (∃ self, Calls new calls self) ∧
      ∀ self, Calls new calls self → ∃ rate next, Charged self next params rate ∧
        (calls ≠ [] →
          (9 / 10 < params.utilisationRate.toRat →
            self.rateAtTarget.rate ≤ next.rateAtTarget.rate) ∧
          (params.utilisationRate.toRat < 9 / 10 →
            next.rateAtTarget.rate ≤ self.rateAtTarget.rate)) := by
  refine ⟨exists_calls new new_settled calls before, fun self reached => ?_⟩
  obtain ⟨settled, set⟩ := reached.settled new_settled before
  obtain ⟨rate, next, charged⟩ := exists_charged self params settled utilised
  obtain ⟨update⟩ := (borrowRate_succeeds params self next rate).mp charged.call
  exact ⟨rate, next, charged, fun nonempty => update.direction (set nonempty).1 (set nonempty).2⟩

theorem adaptive_never_fails_centuries_idle :
    ∃ self rate next, Calls new [⟨Fixed.one, 1⟩] self ∧
      Charged self next ⟨Fixed.one, U64.max⟩ rate ∧
      self.rateAtTarget.rate ≤ next.rateAtTarget.rate := by
  have nonneg : 0 ≤ (Fixed.one : IFixedPoint).bits := by decide
  have full (elapsed : U64) : Utilised ⟨Fixed.one, elapsed⟩ := ⟨nonneg, le_rfl⟩
  obtain ⟨⟨self, reached⟩, next⟩ := adaptive_never_fails [⟨Fixed.one, 1⟩] ⟨Fixed.one, U64.max⟩
    (by simpa using full 1) (full U64.max)
  obtain ⟨rate, next, charged, follows⟩ := next self reached
  refine ⟨self, rate, next, reached, charged, (follows (by simp)).1 ?_⟩
  rw [nine_tenths_lt_iff]
  decide

end AdaptiveInterestRateCurve

end AutaraLending
