import AutaraLending.DebtMonotonicity

/-! Which curves never fail an accrual that comes at most a year after the last one. The
validity check looks at one second of interest at a fixed rate and at the order of the
points of a polyline, and takes every state of an adaptive curve. -/

namespace AutaraLending

open Support

namespace PolylineInterestRateCurve

def topBps (start finish : PolylineInterestRatePoint) : List PolylineInterestRatePoint → Nat
  | [] => start.borrowRateBps.toNat + lineBps start finish 10000
  | point :: rest =>
      if 10000 < finish.utilizationRateBps.toNat then
        start.borrowRateBps.toNat + lineBps start finish 10000
      else topBps finish point rest

def fullUtilisationBps (self : PolylineInterestRateCurve) : Nat :=
  match self.points with
  | [] => 0
  | [start] => start.borrowRateBps.toNat
  | start :: finish :: rest => topBps start finish rest

theorem lineBps_mono (start finish : PolylineInterestRatePoint) {low high : Nat}
    (ordered : low ≤ high) : lineBps start finish low ≤ lineBps start finish high :=
  Nat.div_le_div_right (Nat.mul_le_mul_left _ (Nat.sub_le_sub_right ordered _))

theorem lineBps_end (start finish : PolylineInterestRatePoint) (rises : Rises start finish) :
    start.borrowRateBps.toNat + lineBps start finish finish.utilizationRateBps.toNat =
      finish.borrowRateBps.toNat := by
  have apart := rises.1
  have above := rises.2
  unfold lineBps
  rw [Nat.mul_div_cancel _ (by omega)]
  omega

theorem valueAt_exact (start finish : PolylineInterestRatePoint) (utilizationRateBps : UInt32)
    (rises : Rises start finish)
    (after : start.utilizationRateBps.toNat ≤ utilizationRateBps.toNat)
    (small : start.borrowRateBps.toNat + lineBps start finish utilizationRateBps.toNat < 2 ^ 32) :
    ∃ value, valueAt start finish utilizationRateBps = .ok value ∧
      value.toNat = start.borrowRateBps.toNat + lineBps start finish utilizationRateBps.toNat := by
  obtain ⟨value, success, value_eq⟩ := valueAt_ok start finish utilizationRateBps rises after
  refine ⟨value, success, ?_⟩
  rw [value_eq, Nat.mod_eq_of_lt (by omega)]
  omega

theorem start_le_topBps (start finish : PolylineInterestRatePoint)
    (rest : List PolylineInterestRatePoint) (rises : List.IsChain Rises (start :: finish :: rest)) :
    start.borrowRateBps.toNat ≤ topBps start finish rest := by
  induction rest generalizing start finish with
  | nil => exact Nat.le_add_right _ _
  | cons point rest ih =>
      obtain ⟨first, others⟩ := List.isChain_cons_cons.mp rises
      unfold topBps
      split
      · exact Nat.le_add_right _ _
      · exact le_trans first.2.le (ih finish point others)

theorem valueAlong_le (bound : Nat) (range : bound < 2 ^ 32)
    (start finish : PolylineInterestRatePoint) (rest : List PolylineInterestRatePoint)
    (rises : List.IsChain Rises (start :: finish :: rest))
    (top : topBps start finish rest ≤ bound) (utilizationRateBps : UInt32)
    (after : start.utilizationRateBps.toNat ≤ utilizationRateBps.toNat)
    (full : utilizationRateBps.toNat ≤ 10000) :
    ∃ value, valueAlong start finish utilizationRateBps rest = .ok value ∧
      value.toNat ≤ bound := by
  induction rest generalizing start finish with
  | nil =>
      obtain ⟨first, -⟩ := List.isChain_cons_cons.mp rises
      have below := lineBps_mono start finish full
      simp only [topBps] at top
      obtain ⟨value, success, value_eq⟩ :=
        valueAt_exact start finish utilizationRateBps first after (by omega)
      exact ⟨value, success, by omega⟩
  | cons point rest ih =>
      obtain ⟨first, others⟩ := List.isChain_cons_cons.mp rises
      unfold valueAlong
      by_cases inside : utilizationRateBps < finish.utilizationRateBps
      · -- Inside the segment the value stays below its end, or below full utilisation.
        rw [if_pos inside]
        have before : utilizationRateBps.toNat < finish.utilizationRateBps.toNat :=
          UInt32.lt_iff_toNat_lt.mp inside
        have reached : start.borrowRateBps.toNat +
            lineBps start finish utilizationRateBps.toNat ≤ bound := by
          unfold topBps at top
          split at top
          · have below := lineBps_mono start finish full
            omega
          · have below := lineBps_mono start finish before.le
            have ending := lineBps_end start finish first
            have onward := start_le_topBps finish point rest others
            omega
        obtain ⟨value, success, value_eq⟩ :=
          valueAt_exact start finish utilizationRateBps first after (by omega)
        exact ⟨value, success, by omega⟩
      · rw [if_neg inside]
        have past : finish.utilizationRateBps.toNat ≤ utilizationRateBps.toNat := by
          rw [UInt32.lt_iff_toNat_lt] at inside
          omega
        unfold topBps at top
        rw [if_neg (by omega)] at top
        exact ih finish point others top past

theorem aprBorrowRateBps_le (self : PolylineInterestRateCurve) (valid : self.validate = .ok ())
    (bound : Nat) (range : bound < 2 ^ 32) (top : self.fullUtilisationBps ≤ bound)
    (utilizationRateBps : UInt32) (full : utilizationRateBps.toNat ≤ 10000) :
    ∃ value, self.aprBorrowRateBps utilizationRateBps = .ok value ∧ value.toNat ≤ bound := by
  obtain ⟨first, rest, points_eq, origin, rises⟩ := self.points_of_validate valid
  unfold aprBorrowRateBps fullUtilisationBps at *
  rw [points_eq] at top ⊢
  cases rest with
  | nil => exact ⟨first.borrowRateBps, rfl, top⟩
  | cons second rest =>
      exact valueAlong_le bound range first second rest rises top utilizationRateBps
        (by omega) full

theorem lineBps_crossing (start finish : PolylineInterestRatePoint) (rises : Rises start finish)
    (high : 2 ^ 32 ≤ lineBps start finish 10000) :
    ∃ utilization : Nat, start.utilizationRateBps.toNat ≤ utilization ∧ utilization ≤ 10000 ∧
      2 ^ 31 ≤ lineBps start finish utilization ∧ lineBps start finish utilization < 2 ^ 32 := by
  have apart := rises.1
  have riseSmall := UInt32.toNat_lt finish.borrowRateBps
  let origin := start.utilizationRateBps.toNat
  let width := finish.utilizationRateBps.toNat - origin
  let rise := finish.borrowRateBps.toNat - start.borrowRateBps.toNat
  have width_pos : 0 < width := by
    dsimp only [width, origin]
    omega
  have leaves : ∃ steps, 2 ^ 32 ≤ rise * steps / width := ⟨10000 - origin, high⟩
  have least := Nat.find_spec leaves
  have bounded : Nat.find leaves ≤ 10000 - origin := Nat.find_min' leaves high
  rw [Nat.le_div_iff_mul_le width_pos] at least
  -- A single step cannot leave the range, so the crossing is at the second step or later.
  obtain ⟨steps, steps_eq⟩ : ∃ steps, Nat.find leaves = steps + 2 := by
    rcases found : Nat.find leaves with _ | _ | steps
    · rw [found] at least
      simp only [Nat.mul_zero] at least
      omega
    · rw [found] at least
      have narrow : 2 ^ 32 ≤ 2 ^ 32 * width := Nat.le_mul_of_pos_right _ width_pos
      simp only [Nat.zero_add, Nat.mul_one] at least
      dsimp only [rise] at least
      omega
    · exact ⟨steps, rfl⟩
  have inside : ¬ 2 ^ 32 ≤ rise * (steps + 1) / width := Nat.find_min leaves (by omega)
  have shifted : lineBps start finish (origin + (steps + 1)) = rise * (steps + 1) / width := by
    unfold lineBps
    rw [Nat.add_sub_cancel_left]
  refine ⟨origin + (steps + 1), Nat.le_add_right _ _, by omega, ?_, by omega⟩
  rw [shifted, Nat.le_div_iff_mul_le width_pos]
  rw [steps_eq] at least
  have halved : rise * (steps + 2) ≤ 2 * (rise * (steps + 1)) := by
    calc
      rise * (steps + 2) ≤ rise * (2 * (steps + 1)) := Nat.mul_le_mul_left _ (by omega)
      _ = 2 * (rise * (steps + 1)) := by ring
  omega

theorem line_le_of_values (bound : Nat) (range : bound < 2 ^ 31)
    (start finish : PolylineInterestRatePoint) (rises : Rises start finish)
    (opened : start.utilizationRateBps.toNat ≤ 10000)
    (values : ∀ utilizationRateBps : UInt32,
      start.utilizationRateBps.toNat ≤ utilizationRateBps.toNat →
        utilizationRateBps.toNat ≤ 10000 →
          ∃ value, valueAt start finish utilizationRateBps = .ok value ∧ value.toNat ≤ bound) :
    start.borrowRateBps.toNat + lineBps start finish 10000 ≤ bound := by
  have computed : ∀ utilization : Nat, start.utilizationRateBps.toNat ≤ utilization →
      utilization ≤ 10000 → lineBps start finish utilization < 2 ^ 32 →
        start.borrowRateBps.toNat + lineBps start finish utilization ≤ bound := by
    intro utilization after full small
    have cast : (UInt32.ofNat utilization).toNat = utilization :=
      UInt32.toNat_ofNat_of_lt' (lt_of_le_of_lt full (by decide))
    obtain ⟨value, success, value_le⟩ :=
      values (UInt32.ofNat utilization) (by rw [cast]; exact after) (by rw [cast]; exact full)
    obtain ⟨value', success', value_eq⟩ :=
      valueAt_ok start finish (UInt32.ofNat utilization) rises (by rw [cast]; exact after)
    obtain rfl := Except.ok.inj (success.symm.trans success')
    rw [cast, Nat.mod_eq_of_lt small] at value_eq
    omega
  by_cases high : 2 ^ 32 ≤ lineBps start finish 10000
  · obtain ⟨utilization, after, full, upper, small⟩ := lineBps_crossing start finish rises high
    have contradiction := computed utilization after full small
    omega
  · exact computed 10000 opened le_rfl (by omega)

theorem topBps_le_of_values (bound : Nat) (range : bound < 2 ^ 31)
    (start finish : PolylineInterestRatePoint) (rest : List PolylineInterestRatePoint)
    (rises : List.IsChain Rises (start :: finish :: rest))
    (opened : start.utilizationRateBps.toNat ≤ 10000)
    (values : ∀ utilizationRateBps : UInt32,
      start.utilizationRateBps.toNat ≤ utilizationRateBps.toNat →
        utilizationRateBps.toNat ≤ 10000 →
          ∃ value, valueAlong start finish utilizationRateBps rest = .ok value ∧
            value.toNat ≤ bound) :
    topBps start finish rest ≤ bound := by
  induction rest generalizing start finish with
  | nil =>
      exact line_le_of_values bound range start finish (List.isChain_cons_cons.mp rises).1 opened
        values
  | cons point rest ih =>
      obtain ⟨first, others⟩ := List.isChain_cons_cons.mp rises
      unfold topBps
      split
      · rename_i beyond
        refine line_le_of_values bound range start finish first opened fun utilization after full =>
          ?_
        have inside : utilization < finish.utilizationRateBps := by
          rw [UInt32.lt_iff_toNat_lt]
          omega
        have value := values utilization after full
        rwa [valueAlong, if_pos inside] at value
      · rename_i within
        refine ih finish point others (by omega) fun utilization after full => ?_
        have past : ¬ utilization < finish.utilizationRateBps := by
          rw [UInt32.lt_iff_toNat_lt]
          omega
        have apart := first.1
        have value := values utilization (by omega) full
        rwa [valueAlong, if_neg past] at value

theorem fullUtilisationBps_le_of_values (self : PolylineInterestRateCurve)
    (valid : self.validate = .ok ()) (bound : Nat) (range : bound < 2 ^ 31)
    (values : ∀ utilizationRateBps : UInt32, utilizationRateBps.toNat ≤ 10000 →
      ∃ value, self.aprBorrowRateBps utilizationRateBps = .ok value ∧ value.toNat ≤ bound) :
    self.fullUtilisationBps ≤ bound := by
  obtain ⟨first, rest, points_eq, origin, rises⟩ := self.points_of_validate valid
  unfold aprBorrowRateBps at values
  unfold fullUtilisationBps
  rw [points_eq] at values ⊢
  cases rest with
  | nil =>
      obtain ⟨value, success, value_le⟩ := values 0 (by decide)
      obtain rfl := Except.ok.inj success
      exact value_le
  | cons second rest =>
      exact topBps_le_of_values bound range first second rest rises (by omega)
        fun utilization _ full => values utilization full

end PolylineInterestRateCurve

namespace InterestRateCurveKind

/-- One call returns a rate that is not negative and compounds over the elapsed time. -/
structure Accrual (before next : InterestRateCurveKind) (params : MarketBorrowRateParameters) :
    Prop where
  call : ∃ rate growth, (borrowRatePerSecond params).Succeeds before rate next ∧
    0 ≤ rate.rate.bits ∧
    rate.coumpoundingInterestRateDuringElapsedSeconds params.elapsedSecondsSinceLastUpdate =
      .ok growth

/-- A utilisation between zero and one, between a second and a year after the last call. -/
structure WithinYear (params : MarketBorrowRateParameters) : Prop where
  nonneg : 0 ≤ params.utilisationRate.bits
  le_one : params.utilisationRate.bits ≤ (Fixed.one : IFixedPoint).bits
  elapsed_pos : 1 ≤ params.elapsedSecondsSinceLastUpdate.toNat
  elapsed_le : params.elapsedSecondsSinceLastUpdate.toNat ≤ secondsPerYear.toNat

def Accrues : InterestRateCurveKind → List MarketBorrowRateParameters → Prop
  | _, [] => True
  | self, params :: rest => ∃ next, Accrual self next params ∧ Accrues next rest

def NeverStalls (self : InterestRateCurveKind) : Prop :=
  ∀ calls : List MarketBorrowRateParameters, (∀ params ∈ calls, WithinYear params) →
    self.Accrues calls

/-- A year of interest at the highest rate the curve can charge stays in the domain of the
exponential. For the adaptive curve that is a year at full utilisation, which drives the
rate at target to its maximum. -/
def YearWithinExpDomain : InterestRateCurveKind → Prop
  | .fixed rate => rate.rate.bits * secondsPerYear.toNat ≤ IFixedPoint.maxExpArg.bits
  | .polyline curve => curve.fullUtilisationBps ≤ 547500
  | .adaptive curve =>
      0 ≤ curve.rateAtTarget.rate.bits ∧
        (curve.rateAtTarget.rate.bits + 3 * AdaptiveInterestRateCurve.maxRateAtTarget.rate.bits) /
          4 * 4 * secondsPerYear.toNat ≤ IFixedPoint.maxExpArg.bits

theorem accrues_of_invariant (invariant : InterestRateCurveKind → Prop)
    (step : ∀ self params, invariant self → WithinYear params →
      ∃ next, Accrual self next params ∧ invariant next)
    (self : InterestRateCurveKind) (initial : invariant self) : self.NeverStalls := by
  intro calls within
  induction calls generalizing self with
  | nil => trivial
  | cons params rest ih =>
      obtain ⟨next, accrual, kept⟩ := step self params initial (within params (by simp))
      exact ⟨next, accrual, ih next kept fun later mem => within later (by simp [mem])⟩

theorem NeverStalls.call {self : InterestRateCurveKind} (safe : self.NeverStalls)
    (params : MarketBorrowRateParameters) (within : WithinYear params) :
    ∃ next, Accrual self next params := by
  obtain ⟨next, accrual, -⟩ := safe [params] (by simpa using within)
  exact ⟨next, accrual⟩

/-- What one call leaves accrues for ever as well. -/
theorem NeverStalls.next {self next : InterestRateCurveKind} (safe : self.NeverStalls)
    {params : MarketBorrowRateParameters} (within : WithinYear params)
    {rate : InterestRatePerSecond}
    (success : (borrowRatePerSecond params).Succeeds self rate next) :
    next.NeverStalls := by
  intro calls later
  obtain ⟨next', ⟨_, _, success', -, -⟩, accrues⟩ := safe (params :: calls)
    (List.forall_mem_cons.mpr ⟨within, later⟩)
  obtain rfl : next = next' := congrArg Prod.snd (success.symm.trans success')
  exact accrues

theorem compounds_within_year (rate : InterestRatePerSecond) (params : MarketBorrowRateParameters)
    (within : WithinYear params) (nonneg : 0 ≤ rate.rate.bits)
    (year : rate.rate.bits * secondsPerYear.toNat ≤ IFixedPoint.maxExpArg.bits) :
    ∃ growth, rate.coumpoundingInterestRateDuringElapsedSeconds
      params.elapsedSecondsSinceLastUpdate = .ok growth := by
  have elapsed : (params.elapsedSecondsSinceLastUpdate.toNat : Int) ≤ secondsPerYear.toNat := by
    exact_mod_cast within.elapsed_le
  have shorter := Int.mul_le_mul_of_nonneg_left elapsed nonneg
  obtain ⟨growth, success, -⟩ := rate.compounding_succeeds params.elapsedSecondsSinceLastUpdate
    nonneg (shorter.trans year)
  exact ⟨growth, success⟩

def afterYear (utilisationRate : IFixedPoint) : MarketBorrowRateParameters :=
  ⟨utilisationRate, secondsPerYear⟩

theorem afterYear_within (utilisationRate : IFixedPoint) (nonneg : 0 ≤ utilisationRate.bits)
    (le_one : utilisationRate.bits ≤ (Fixed.one : IFixedPoint).bits) :
    WithinYear (afterYear utilisationRate) :=
  ⟨nonneg, le_one, (by decide : 1 ≤ secondsPerYear.toNat), le_rfl⟩

theorem fixed_neverStalls_iff (rate : InterestRatePerSecond) (valid : isValid (.fixed rate)) :
    NeverStalls (.fixed rate) ↔ YearWithinExpDomain (.fixed rate) := by
  have nonneg : 0 ≤ rate.rate.bits := by
    simp only [isValid, Bool.and_eq_true, Bool.not_eq_true', decide_eq_true_eq] at valid
    by_contra negative
    have flagged := (Fixed.isNegative_iff rate.rate).mpr (by omega)
    rw [valid.1] at flagged
    cases flagged
  constructor
  · intro safe
    obtain ⟨next, ⟨returned, growth, success, -, compounded⟩⟩ :=
      safe.call (afterYear Fixed.zero) (afterYear_within _ (by simp) (by simp))
    obtain ⟨rfl, -⟩ := (fixed_succeeds _ _ _ _).mp success
    exact (rate.compounding_ok _ _ compounded).1
  · intro year
    refine accrues_of_invariant (fun kind => kind = .fixed rate) ?_ _ rfl
    rintro _ params rfl within
    obtain ⟨growth, compounded⟩ := compounds_within_year rate params within nonneg year
    exact ⟨.fixed rate, ⟨rate, growth, (fixed_succeeds _ _ _ _).mpr ⟨rfl, rfl⟩, nonneg, compounded⟩,
      rfl⟩

theorem polyline_rate_year (bps : Nat) :
    (bps * 2 ^ 48 / 10000 / 31536000 : Int) * secondsPerYear.toNat ≤ IFixedPoint.maxExpArg.bits ↔
      bps ≤ 547500 := by
  have scale : (secondsPerYear.toNat : Int) = 31536000 := rfl
  rw [IFixedPoint.maxExpArg_bits, scale]
  omega

theorem polyline_neverStalls_iff (curve : PolylineInterestRateCurve)
    (valid : isValid (.polyline curve)) :
    NeverStalls (.polyline curve) ↔ YearWithinExpDomain (.polyline curve) := by
  have one_bits : (Fixed.one : IFixedPoint).bits = 2 ^ 48 := by simp
  have ordered : curve.validate = .ok () := by simpa [isValid] using valid
  constructor
  · intro safe
    refine curve.fullUtilisationBps_le_of_values ordered 547500 (by norm_num) fun bps full => ?_
    -- The least utilisation that rounds down to these basis points.
    let utilisationRate : IFixedPoint := ⟨(bps.toNat * 2 ^ 48 + 9999) / 10000,
      by rw [i80f48_minBits]; omega, by rw [i80f48_maxBits]; omega⟩
    have lower : 0 ≤ utilisationRate.bits := by
      dsimp only [utilisationRate]
      omega
    have upper : utilisationRate.bits ≤ 2 ^ 48 := by
      dsimp only [utilisationRate]
      omega
    obtain ⟨next, ⟨rate, growth, success, -, compounded⟩⟩ :=
      safe.call (afterYear utilisationRate)
        (afterYear_within _ lower (by rw [one_bits]; exact upper))
    obtain ⟨⟨bps', converted, evaluated⟩, -⟩ := (polyline_succeeds _ _ _ _).mp success
    obtain ⟨bps'', converted', bps_eq⟩ :=
      (afterYear utilisationRate).utilisationRateBps_succeeds lower upper
    obtain rfl := Except.ok.inj (converted.symm.trans converted')
    have same : bps' = bps := by
      rw [← UInt32.toNat_inj]
      dsimp only [afterYear, utilisationRate] at bps_eq
      omega
    subst same
    obtain ⟨value, value_ok, rate_eq⟩ := (curve.interestRatePerSecond_ok bps' rate).mp evaluated
    have year := (rate.compounding_ok _ _ compounded).1
    rw [rate_eq] at year
    exact ⟨value, value_ok, (polyline_rate_year value.toNat).mp year⟩
  · intro year
    refine accrues_of_invariant (fun kind => kind = .polyline curve) ?_ _ rfl
    rintro _ params rfl within
    have upper : params.utilisationRate.bits ≤ 2 ^ 48 := by
      rw [← one_bits]
      exact within.le_one
    obtain ⟨bps, converted, bps_eq⟩ := params.utilisationRateBps_succeeds within.nonneg upper
    obtain ⟨value, value_ok, value_le⟩ :=
      curve.aprBorrowRateBps_le ordered 547500 (by norm_num) year bps (by omega)
    let rate : InterestRatePerSecond := ⟨⟨value.toNat * 2 ^ 48 / 10000 / 31536000,
      by rw [i80f48_minBits]; omega, by rw [i80f48_maxBits]; omega⟩⟩
    have evaluated : curve.interestRatePerSecond bps = .ok rate :=
      (curve.interestRatePerSecond_ok bps rate).mpr ⟨value, value_ok, rfl⟩
    have nonneg : 0 ≤ rate.rate.bits := by
      dsimp only [rate]
      omega
    obtain ⟨growth, compounded⟩ := compounds_within_year rate params within nonneg
      ((polyline_rate_year value.toNat).mpr value_le)
    exact ⟨.polyline curve, ⟨rate, growth, (polyline_succeeds _ _ _ _).mpr
      ⟨⟨bps, converted, evaluated⟩, rfl⟩, nonneg, compounded⟩, rfl⟩

theorem adaptive_charge_le (average err factor : Int) (average_nonneg : 0 ≤ average)
    (factor_eq : factor = AdaptiveInterestRateCurve.curveFactor err) (lower : -2 ^ 48 ≤ err)
    (charge : (average ≤ 122167958 ∧ err ≤ 2 ^ 48 + 10) ∨ (average ≤ 435118760 ∧ err ≤ 630720)) :
    factor * average / 2 ^ 48 ≤ 488671833 := by
  have factor_pos := AdaptiveInterestRateCurve.curveFactor_pos err lower
  rw [← factor_eq] at factor_pos
  have product : factor * average ≤ 488671833 * 2 ^ 48 := by
    unfold AdaptiveInterestRateCurve.curveFactor at factor_eq
    rcases charge with ⟨average_le, err_le⟩ | ⟨average_le, err_le⟩
    · have factor_le : factor ≤ 4 * 2 ^ 48 + 30 := by
        split at factor_eq <;> omega
      calc
        factor * average ≤ (4 * 2 ^ 48 + 30) * 122167958 :=
          Int.mul_le_mul factor_le average_le average_nonneg (by norm_num)
        _ ≤ 488671833 * 2 ^ 48 := by norm_num
    · have factor_le : factor ≤ 2 ^ 48 + 3 * 630720 := by
        split at factor_eq <;> omega
      calc
        factor * average ≤ (2 ^ 48 + 3 * 630720) * 435118760 :=
          Int.mul_le_mul factor_le average_le average_nonneg (by norm_num)
        _ ≤ 488671833 * 2 ^ 48 := by norm_num
  exact Int.ediv_le_of_le_mul (by norm_num) product

theorem adaptive_step (curve : AdaptiveInterestRateCurve) (params : MarketBorrowRateParameters)
    (year : YearWithinExpDomain (.adaptive curve)) (within : WithinYear params) :
    ∃ next, Accrual (.adaptive curve) (.adaptive next) params ∧
      YearWithinExpDomain (.adaptive next) := by
  have scale : (secondsPerYear.toNat : Int) = 31536000 := rfl
  have cap := IFixedPoint.maxExpArg_bits
  have least := AdaptiveInterestRateCurve.minRateAtTarget_bits
  have greatest := AdaptiveInterestRateCurve.maxRateAtTarget_bits
  have initial := AdaptiveInterestRateCurve.initialRateAtTarget_bits
  have unit := AdaptiveInterestRateCurve.adjustmentSpeed_bits
  have upper : params.utilisationRate.bits ≤ 2 ^ 48 := by simpa using within.le_one
  obtain ⟨nonneg, bounded⟩ := year
  rw [scale] at bounded
  obtain ⟨err, err_ok, err_eq⟩ :=
    AdaptiveInterestRateCurve.utilisationErr_succeeds params.utilisationRate within.nonneg
      (by omega)
  obtain ⟨err_ge, -, err_le⟩ :=
    AdaptiveInterestRateCurve.errBits_bounds params.utilisationRate.bits within.nonneg (by omega)
  have err_le := err_le upper
  rw [← err_eq] at err_ge err_le
  obtain ⟨⟨average, finish⟩, targets⟩ := curve.ratesAtTarget_succeeds err
    params.elapsedSecondsSinceLastUpdate nonneg (by omega) (by omega)
  have rates := AdaptiveInterestRateCurve.ratesAtTarget_ok _ _ _ _ _ targets
  -- The three cases of the update bound its average, and the error when nothing moves.
  have bounds : 0 ≤ average.rate.bits ∧
      ((average.rate.bits ≤ 122167958 ∧ err.bits ≤ 2 ^ 48 + 10) ∨
        (average.rate.bits ≤ 435118760 ∧ err.bits ≤ 630720)) ∧
      0 ≤ finish.rate.bits ∧ finish.rate.bits ≤ 435118760 := by
    rcases rates with ⟨-, average_eq, finish_eq⟩ | ⟨-, still, average_eq, finish_eq⟩ |
      ⟨-, -, finish_ge, finish_le, middle, middle_ge, middle_le, average_eq, -⟩
    · omega
    · have elapsed := within.elapsed_pos
      have slow : AdaptiveInterestRateCurve.adjustmentSpeed.bits * err.bits / 2 ^ 48 = 0 := by
        rcases Int.mul_eq_zero.mp still with zero | zero
        · exact zero
        · omega
      rw [unit] at slow
      omega
    · rw [Int.tdiv_eq_ediv_of_nonneg (by omega)] at average_eq
      omega
  obtain ⟨average_nonneg, charge, finish_nonneg, finish_small⟩ := bounds
  have charge_le := adaptive_charge_le _ _ _ average_nonneg rfl err_ge charge
  have charge_nonneg : 0 ≤ AdaptiveInterestRateCurve.curveFactor err.bits * average.rate.bits /
      2 ^ 48 :=
    Int.ediv_nonneg (mul_nonneg (AdaptiveInterestRateCurve.curveFactor_pos _ err_ge).le
      average_nonneg) (by norm_num)
  let rate : InterestRatePerSecond :=
    ⟨⟨AdaptiveInterestRateCurve.curveFactor err.bits * average.rate.bits / 2 ^ 48,
      by rw [i80f48_minBits]; omega, by rw [i80f48_maxBits]; omega⟩⟩
  have charged : AdaptiveInterestRateCurve.curve average err = .ok rate :=
    (AdaptiveInterestRateCurve.curve_ok average rate err (by omega)).mpr rfl
  have rate_year : rate.rate.bits * secondsPerYear.toNat ≤ IFixedPoint.maxExpArg.bits := by
    rw [scale, cap]
    dsimp only [rate]
    omega
  obtain ⟨growth, compounded⟩ := compounds_within_year rate params within charge_nonneg rate_year
  refine ⟨⟨finish⟩, ⟨rate, growth, (adaptive_succeeds _ _ _ _).mpr ⟨⟨finish⟩, ?_, rfl⟩,
    charge_nonneg, compounded⟩, finish_nonneg, ?_⟩
  · exact (AdaptiveInterestRateCurve.borrowRate_succeeds _ _ _ _).mpr
      ⟨⟨err, average, err_ok, targets, charged⟩⟩
  · rw [scale]
    dsimp only
    omega

theorem adaptive_nonneg_of_safe (curve : AdaptiveInterestRateCurve)
    (safe : NeverStalls (.adaptive curve)) : 0 ≤ curve.rateAtTarget.rate.bits := by
  obtain ⟨next, ⟨rate, growth, success, nonneg, -⟩⟩ :=
    safe.call (afterYear AdaptiveInterestRateCurve.targetUtilisationRate)
      (afterYear_within _ (by decide) (by decide))
  obtain ⟨next, updated, -⟩ := (adaptive_succeeds _ _ _ _).mp success
  obtain ⟨update⟩ := (AdaptiveInterestRateCurve.borrowRate_succeeds _ _ _ _).mp updated
  have err_eq : update.err.bits = 0 := by
    rw [AdaptiveInterestRateCurve.utilisationErr_ok _ _ update.err_ok]
    decide
  have charged := (AdaptiveInterestRateCurve.curve_ok _ _ _ (by omega)).mp update.charged
  have factor : AdaptiveInterestRateCurve.curveFactor 0 = 2 ^ 48 := by decide
  rw [err_eq, factor, Int.mul_ediv_cancel_left _ (by norm_num)] at charged
  have rates := AdaptiveInterestRateCurve.ratesAtTarget_ok _ _ _ _ _ update.targets
  rw [err_eq] at rates
  rcases rates with ⟨empty, -⟩ | ⟨-, -, average_eq, -⟩ | ⟨-, moves, -⟩
  · omega
  · omega
  · simp at moves

theorem adaptive_year_of_safe (curve : AdaptiveInterestRateCurve)
    (safe : NeverStalls (.adaptive curve)) : YearWithinExpDomain (.adaptive curve) := by
  have scale : (secondsPerYear.toNat : Int) = 31536000 := rfl
  have cap := IFixedPoint.maxExpArg_bits
  have greatest := AdaptiveInterestRateCurve.maxRateAtTarget_bits
  have nonneg := adaptive_nonneg_of_safe curve safe
  refine ⟨nonneg, ?_⟩
  obtain ⟨next, ⟨rate, growth, success, -, compounded⟩⟩ :=
    safe.call (afterYear Fixed.one) (afterYear_within _ (by decide) (by decide))
  obtain ⟨next, updated, -⟩ := (adaptive_succeeds _ _ _ _).mp success
  obtain ⟨update⟩ := (AdaptiveInterestRateCurve.borrowRate_succeeds _ _ _ _).mp updated
  have err_eq : update.err.bits = 2 ^ 48 + 10 := by
    rw [AdaptiveInterestRateCurve.utilisationErr_ok _ _ update.err_ok]
    decide
  have charged := (AdaptiveInterestRateCurve.curve_ok _ _ _ (by omega)).mp update.charged
  have factor : AdaptiveInterestRateCurve.curveFactor (2 ^ 48 + 10) = 4 * 2 ^ 48 + 30 := by decide
  have year := (rate.compounding_ok _ _ compounded).1
  have year : rate.rate.bits * secondsPerYear.toNat ≤ IFixedPoint.maxExpArg.bits := year
  rw [err_eq, factor] at charged
  have rates := AdaptiveInterestRateCurve.ratesAtTarget_ok _ _ _ _ _ update.targets
  rw [err_eq] at rates
  rw [scale] at year ⊢
  by_cases high : AdaptiveInterestRateCurve.maxRateAtTarget.rate.bits ≤
      curve.rateAtTarget.rate.bits
  · rcases rates with ⟨empty, -⟩ | ⟨-, still, -⟩ | ⟨-, -, -, -, middle, -, -, average_eq, upward⟩
    · omega
    · exact absurd still (by decide)
    · obtain ⟨finish_eq, middle_eq⟩ := upward (by decide) high
      rw [finish_eq, middle_eq, Int.tdiv_eq_ediv_of_nonneg (by omega)] at average_eq
      have charge_ge : 4 * update.average.rate.bits ≤ rate.rate.bits := by
        rw [← charged]
        exact Int.le_ediv_of_mul_le (by norm_num) (by omega)
      omega
  · omega

theorem adaptive_neverStalls (curve : AdaptiveInterestRateCurve)
    (year : YearWithinExpDomain (.adaptive curve)) : NeverStalls (.adaptive curve) := by
  refine accrues_of_invariant (fun kind => ∃ curve, kind = .adaptive curve ∧
    kind.YearWithinExpDomain) ?_ _ ⟨curve, rfl, year⟩
  rintro _ params ⟨current, rfl, holds⟩ within
  obtain ⟨next, accrual, kept⟩ := adaptive_step current params holds within
  exact ⟨.adaptive next, accrual, next, rfl, kept⟩

theorem neverStalls_of_year (curve : InterestRateCurveKind) (valid : curve.isValid)
    (year : curve.YearWithinExpDomain) : curve.NeverStalls := by
  cases curve with
  | fixed rate => exact (fixed_neverStalls_iff rate valid).mpr year
  | polyline curve => exact (polyline_neverStalls_iff curve valid).mpr year
  | adaptive curve => exact adaptive_neverStalls curve year

theorem year_of_neverStalls (curve : InterestRateCurveKind) (valid : curve.isValid)
    (safe : curve.NeverStalls) : curve.YearWithinExpDomain := by
  cases curve with
  | fixed rate => exact (fixed_neverStalls_iff rate valid).mp safe
  | polyline curve => exact (polyline_neverStalls_iff curve valid).mp safe
  | adaptive curve => exact adaptive_year_of_safe curve safe

end InterestRateCurveKind

/-- A valid curve survives every sequence of accruals at most a year apart exactly when a
year at its highest rate stays in the domain of the exponential. -/
theorem curve_never_stalls_iff (curve : InterestRateCurveKind) (valid : curve.isValid) :
    curve.NeverStalls ↔ curve.YearWithinExpDomain :=
  ⟨curve.year_of_neverStalls valid, curve.neverStalls_of_year valid⟩

theorem new_adaptive_curve_never_stalls :
    InterestRateCurveKind.newAdaptive.isValid ∧ InterestRateCurveKind.newAdaptive.NeverStalls :=
  ⟨rfl, (curve_never_stalls_iff _ rfl).mpr ⟨by decide, by decide⟩⟩

def maxValidFixedCurve : InterestRateCurveKind := .fixed ⟨IFixedPoint.maxExpArg⟩

theorem valid_fixed_curve_stalls :
    ¬ ∀ curve : InterestRateCurveKind, curve.isValid → curve.NeverStalls := by
  intro all_safe
  obtain ⟨next, ⟨rate, growth, success, -, compounded⟩⟩ :=
    (all_safe maxValidFixedCurve (by decide)).call ⟨Fixed.zero, 2⟩
      ⟨by decide, by decide, by decide, by decide⟩
  obtain ⟨rfl, -⟩ := (InterestRateCurveKind.fixed_succeeds _ _ _ _).mp success
  have bounded := (InterestRatePerSecond.compounding_ok _ _ _ compounded).1
  exact absurd bounded (by decide)

/-! The curve in the vault of a market. -/

namespace SupplyVault

/-- What `sync_clock` does once the curve has given its rate. -/
def bookAccrual (unixTimestamp : Int64) (lendingMarketFee : UFixedPoint)
    (feePercentForProtocolInBps : UInt16) (utilisationRate : IFixedPoint)
    (borrowInterestRate : InterestRatePerSecond) (borrowRateDuringElapsed : InterestRate) :
    LendingMethod SupplyVault Unit := do
  let self ← Method.self
  onBorrowTracker (SharesTracker.applyInterestRate borrowRateDuringElapsed)
  let lendingInterestRateDuringElapsed ← Method.lift
    (borrowRateDuringElapsed.adjustForUtilisationRate utilisationRate)
  let feeShares ← onSupplyTracker
    (SharesTracker.applyInterestRateWithFee lendingInterestRateDuringElapsed lendingMarketFee)
  let protocolFeeShares ← Method.lift
    (bpsFromFixedPoint feePercentForProtocolInBps.toUInt64 feeShares)
  let curatorFeeShares ← Method.lift (feeShares.safeSub protocolFeeShares)
  let pendingProtocolFeeShares ← Method.lift
    (self.pendingProtocolFeeShares.safeAdd protocolFeeShares)
  let pending ← Method.self
  Method.assign { pending with pendingProtocolFeeShares }
  let pendingCuratorFeeShares ← Method.lift
    (self.pendingCuratorFeeShares.safeAdd curatorFeeShares)
  let pending ← Method.self
  Method.assign
    { pending with
      pendingCuratorFeeShares
      lastBorrowInterestRate := borrowInterestRate
      lastUpdateUnixTimestamp := unixTimestamp }

/-- The utilisation is between zero and one, and the last sync was a second to a year before. -/
def SyncWithinYear (v : SupplyVault) (unixTimestamp : Int64) : Prop :=
  v.lastUpdateUnixTimestamp < unixTimestamp ∧
    ∃ utilisation, v.utilisationRate = .ok utilisation ∧ InterestRateCurveKind.WithinYear
      ⟨utilisation, (unixTimestamp - v.lastUpdateUnixTimestamp).toUInt64⟩

/-- What the curve answers to a sync: a rate that is not negative and compounds to `growth`. -/
structure RatedAt (v : SupplyVault) (unixTimestamp : Int64) (utilisation : IFixedPoint)
    (rate : InterestRatePerSecond) (growth : InterestRate) (next : InterestRateCurveKind) :
    Prop where
  utilised : v.utilisationRate = .ok utilisation
  answered : (InterestRateCurveKind.borrowRatePerSecond
    ⟨utilisation, (unixTimestamp - v.lastUpdateUnixTimestamp).toUInt64⟩).Succeeds
      v.interestRateCurve rate next
  nonneg : 0 ≤ rate.rate.bits
  compounded : rate.coumpoundingInterestRateDuringElapsedSeconds
    (unixTimestamp - v.lastUpdateUnixTimestamp).toUInt64 = .ok growth

theorem syncClock_eq_bookAccrual {v : SupplyVault} {unixTimestamp : Int64}
    {utilisation : IFixedPoint} {rate : InterestRatePerSecond} {growth : InterestRate}
    {next : InterestRateCurveKind} (fee : UFixedPoint) (protocolBps : UInt16)
    (later : v.lastUpdateUnixTimestamp < unixTimestamp)
    (rated : v.RatedAt unixTimestamp utilisation rate growth next) :
    syncClock unixTimestamp fee protocolBps v =
      bookAccrual unixTimestamp fee protocolBps utilisation rate growth
        { v with interestRateCurve := next } := by
  have answered := (onCurve_succeeds _ v _ _).mpr ⟨next, rated.answered, rfl⟩
  unfold syncClock
  rw [Method.run_bind ((Method.succeeds_self _ _ _).mpr ⟨rfl, rfl⟩), if_pos later,
    Method.run_bind ((Method.succeeds_lift _ _ _ _).mpr ⟨rated.utilised, rfl⟩),
    Method.run_bind answered,
    Method.run_bind ((Method.succeeds_lift _ _ _ _).mpr ⟨rated.compounded, rfl⟩)]
  rfl

end SupplyVault

namespace Ledger

variable {σ β : Type}

/-- Syncs come between a second and a year after each other, at utilisations within one. -/
def SyncsWithinYear (l : Ledger σ β) : Operation σ β → Prop
  | .market (.syncClock unixTimestamp) =>
      l.market.supplyVault.lastUpdateUnixTimestamp < unixTimestamp →
        l.market.supplyVault.SyncWithinYear unixTimestamp
  | _ => True

variable [DecidableEq σ] [DecidableEq β]

theorem neverStalls_step {l l' : Ledger σ β} (operation : Operation σ β)
    (safe : l.market.supplyVault.interestRateCurve.NeverStalls)
    (within : l.SyncsWithinYear operation) (success : (execute operation).Succeeds l () l') :
    l'.market.supplyVault.interestRateCurve.NeverStalls := by
  rcases debtTerms_step operation success with ⟨-, curve⟩ | ⟨_, _, _, rfl, ⟨sync⟩⟩
  · rw [curve]
    exact safe
  · obtain ⟨-, utilisation, utilised, year⟩ := within sync.later
    obtain rfl := Except.ok.inj (utilised.symm.trans sync.utilisation_ok)
    exact safe.next year sync.rate_ok

/-- In every run of a market that was created with such a curve, and whose syncs are at most a year
apart at utilisations within one, the next sync of that kind gets past its curve: it has a rate that
is not negative and compounds, and what follows is what it does with them. -/
theorem sync_never_stalls (data : Market.CreateMarket) (start : Ledger σ β)
    (opened : Opened data start) (year : data.interestRate.YearWithinExpDomain)
    (operations : List (Operation σ β))
    (within : Machine.Along execute SyncsWithinYear start operations) (unixTimestamp : Int64)
    (due : (start.run operations).market.supplyVault.SyncWithinYear unixTimestamp) :
    ∃ utilisation rate growth next,
      (start.run operations).market.supplyVault.RatedAt unixTimestamp utilisation rate growth
        next ∧
      ∀ fee protocolBps,
        SupplyVault.syncClock unixTimestamp fee protocolBps
            (start.run operations).market.supplyVault =
          SupplyVault.bookAccrual unixTimestamp fee protocolBps utilisation rate growth
            { (start.run operations).market.supplyVault with interestRateCurve := next } := by
  obtain ⟨fresh, curve⟩ := opened.fresh
  have initially : start.market.supplyVault.interestRateCurve.NeverStalls := by
    have valid := fresh.curve
    rw [curve] at valid ⊢
    exact InterestRateCurveKind.neverStalls_of_year _ valid year
  have safe : (start.run operations).market.supplyVault.interestRateCurve.NeverStalls :=
    @Machine.run_invariant_along _ _ _ _ _
      (fun l => l.market.supplyVault.interestRateCurve.NeverStalls) _ _ _ initially within
      (fun _ operation _ _ safe within success => neverStalls_step operation safe within success)
  obtain ⟨later, utilisation, utilised, params⟩ := due
  obtain ⟨next, ⟨rate, growth, answered, nonneg, compounded⟩⟩ := safe.call _ params
  have rated : (start.run operations).market.supplyVault.RatedAt unixTimestamp utilisation rate
      growth next := ⟨utilised, answered, nonneg, compounded⟩
  exact ⟨utilisation, rate, growth, next, rated, fun fee protocolBps =>
    SupplyVault.syncClock_eq_bookAccrual fee protocolBps later rated⟩

def syncedLoan : List (Operation Unit Unit) := smallLoan ++ [.market (.syncClock 1000000)]

theorem synced_loan_syncs :
    ∃ utilisation rate growth next,
      ((smallLedger .newAdaptive).run syncedLoan).market.supplyVault.RatedAt 15768000 utilisation
        rate growth next ∧
      ∀ fee protocolBps,
        SupplyVault.syncClock 15768000 fee protocolBps
            ((smallLedger .newAdaptive).run syncedLoan).market.supplyVault =
          SupplyVault.bookAccrual 15768000 fee protocolBps utilisation rate growth
            { ((smallLedger .newAdaptive).run syncedLoan).market.supplyVault with
              interestRateCurve := next } := by
  refine sync_never_stalls _ _ smallLedger_adaptive_opened ⟨by decide, by decide⟩ syncedLoan
    ⟨fun _ _ _ => trivial, fun _ _ _ => trivial, fun _ _ _ => trivial, fun _ _ _ later => ?_,
      trivial⟩
    15768000 ?_
  · exact ⟨later, ⟨168884986026393, by decide, by decide⟩, by decide +kernel,
      by decide, by decide, by decide +kernel, by decide +kernel⟩
  · exact ⟨by decide +kernel, ⟨169166461003104, by decide, by decide⟩, by decide +kernel,
      by decide, by decide, by decide +kernel, by decide +kernel⟩

end Ledger

end AutaraLending
