import AutaraLending.CurveSafety

/-! Whether a polyline is evaluated as drawn. The sum of a rate and the rise above it saturates,
but the rise is cut to 32 bits before the sum, so a last segment that is steep enough to pass
the range drops back to low rates. -/

namespace AutaraLending

open Support

namespace PolylineInterestRateCurve

/-- Up to a utilisation, the curve is the line of the segment that contains it, the last segment
extended beyond its end, cut off at the greatest rate. -/
structure EvaluatesCurve (curve : PolylineInterestRateCurve) (top : UInt32) : Prop where
  returns : ∀ utilization, ∃ value, curve.aprBorrowRateBps utilization = .ok value
  single : ∀ point, curve.points = [point] →
    ∀ utilization, curve.aprBorrowRateBps utilization = .ok point.borrowRateBps
  segment : ∀ before start finish after utilization, utilization ≤ top →
    curve.points = before ++ start :: finish :: after →
    start.utilizationRateBps ≤ utilization →
    (utilization < finish.utilizationRateBps ∨ after = []) →
    ∃ value, curve.aprBorrowRateBps utilization = .ok value ∧
      value.toNat = min (2 ^ 32 - 1)
        (start.borrowRateBps.toNat + lineBps start finish utilization.toNat)
  hits : ∀ point ∈ curve.points,
    curve.aprBorrowRateBps point.utilizationRateBps = .ok point.borrowRateBps
  monotone : ∀ low high value value', low ≤ high → high ≤ top →
    curve.aprBorrowRateBps low = .ok value → curve.aprBorrowRateBps high = .ok value' →
      value ≤ value'

def lastSegment (start finish : PolylineInterestRatePoint) :
    List PolylineInterestRatePoint → PolylineInterestRatePoint × PolylineInterestRatePoint
  | [] => (start, finish)
  | point :: rest => lastSegment finish point rest

/-- The last segment, extended to a utilisation, rises by less than `2^32`. -/
def LastSegmentFits (self : PolylineInterestRateCurve) (top : UInt32) : Prop :=
  match self.points with
  | start :: finish :: rest =>
      lineBps (lastSegment start finish rest).1 (lastSegment start finish rest).2 top.toNat < 2 ^ 32
  | _ => True

theorem head_le_of_rises (head : PolylineInterestRatePoint) (rest : List PolylineInterestRatePoint)
    (rises : List.IsChain Rises (head :: rest)) (point : PolylineInterestRatePoint)
    (member : point ∈ head :: rest) :
    head.utilizationRateBps.toNat ≤ point.utilizationRateBps.toNat := by
  induction rest generalizing head with
  | nil =>
      rw [List.mem_singleton.mp member]
  | cons next rest ih =>
      obtain ⟨first, others⟩ := List.isChain_cons_cons.mp rises
      rcases List.mem_cons.mp member with rfl | later
      · exact le_rfl
      · exact le_trans first.1.le (ih next others later)

/-- The walk along the curve stops at the segment that contains the utilisation. -/
theorem valueAlong_segment (start finish : PolylineInterestRatePoint)
    (rest : List PolylineInterestRatePoint)
    (rises : List.IsChain Rises (start :: finish :: rest))
    (before after : List PolylineInterestRatePoint) (left right : PolylineInterestRatePoint)
    (split : start :: finish :: rest = before ++ left :: right :: after) (utilization : UInt32)
    (from_left : left.utilizationRateBps ≤ utilization)
    (to_right : utilization < right.utilizationRateBps ∨ after = []) :
    valueAlong start finish utilization rest = valueAt left right utilization ∧
      Rises left right ∧ (after = [] → lastSegment start finish rest = (left, right)) := by
  induction rest generalizing start finish before with
  | nil =>
      have alone : before = [] := by
        cases before with
        | nil => rfl
        | cons head tail =>
            have lengths := congrArg List.length split
            simp only [List.length_cons, List.length_append, List.length_nil] at lengths
            omega
      subst alone
      obtain ⟨rfl, rfl, rfl⟩ : start = left ∧ finish = right ∧ [] = after := by
        simpa using split
      exact ⟨rfl, (List.isChain_cons_cons.mp rises).1, fun _ => rfl⟩
  | cons point rest ih =>
      obtain ⟨first, others⟩ := List.isChain_cons_cons.mp rises
      cases before with
      | nil =>
          obtain ⟨rfl, rfl, rfl⟩ : start = left ∧ finish = right ∧ point :: rest = after := by
            simpa using split
          have inside : utilization < finish.utilizationRateBps := by simpa using to_right
          refine ⟨?_, first, fun impossible => by simp at impossible⟩
          rw [valueAlong, if_pos inside]
      | cons head tail =>
          have split' : finish :: point :: rest = tail ++ left :: right :: after := by
            simpa using (List.cons.inj split).2
          -- the segment starts at the second point or later, so the walk goes on
          have past : ¬ utilization < finish.utilizationRateBps := by
            have onward := head_le_of_rises finish (point :: rest) others left
              (by rw [split']; simp)
            rw [UInt32.le_iff_toNat_le] at from_left
            rw [UInt32.lt_iff_toNat_lt]
            omega
          rw [valueAlong, if_neg past]
          exact ih finish point others tail split'

theorem exists_segment (start finish : PolylineInterestRatePoint)
    (rest : List PolylineInterestRatePoint) (utilization : UInt32)
    (after_start : start.utilizationRateBps ≤ utilization) :
    ∃ before left right after, start :: finish :: rest = before ++ left :: right :: after ∧
      left.utilizationRateBps ≤ utilization ∧
      (utilization < right.utilizationRateBps ∨ after = []) := by
  induction rest generalizing start finish with
  | nil => exact ⟨[], start, finish, [], rfl, after_start, Or.inr rfl⟩
  | cons point rest ih =>
      by_cases inside : utilization < finish.utilizationRateBps
      · exact ⟨[], start, finish, point :: rest, rfl, after_start, Or.inl inside⟩
      · obtain ⟨before, left, right, after, split, bounds⟩ :=
          ih finish point (UInt32.not_lt.mp inside)
        exact ⟨start :: before, left, right, after, by rw [split, List.cons_append], bounds⟩

theorem lineBps_le_end (start finish : PolylineInterestRatePoint) (rises : Rises start finish)
    {utilization : Nat} (within : utilization ≤ finish.utilizationRateBps.toNat) :
    start.borrowRateBps.toNat + lineBps start finish utilization ≤
      finish.borrowRateBps.toNat := by
  have below := lineBps_mono start finish within
  have ending := lineBps_end start finish rises
  omega

theorem valueAt_saturated (start finish : PolylineInterestRatePoint) (utilization : UInt32)
    (rises : Rises start finish) (after : start.utilizationRateBps ≤ utilization)
    (small : lineBps start finish utilization.toNat < 2 ^ 32) :
    ∃ value, valueAt start finish utilization = .ok value ∧
      value.toNat = min (2 ^ 32 - 1)
        (start.borrowRateBps.toNat + lineBps start finish utilization.toNat) := by
  obtain ⟨value, success, value_eq⟩ :=
    valueAt_ok start finish utilization rises (UInt32.le_iff_toNat_le.mp after)
  rw [Nat.mod_eq_of_lt small, min_comm] at value_eq
  exact ⟨value, success, value_eq⟩

theorem valueAt_monotone (start finish : PolylineInterestRatePoint) (rises : Rises start finish)
    (low high : UInt32) (ordered : low ≤ high) (after : start.utilizationRateBps ≤ low)
    (small : lineBps start finish high.toNat < 2 ^ 32) (value value' : UInt32)
    (success : valueAt start finish low = .ok value)
    (success' : valueAt start finish high = .ok value') : value.toNat ≤ value'.toNat := by
  have below := lineBps_mono start finish (UInt32.le_iff_toNat_le.mp ordered)
  obtain ⟨v, success_v, value_eq⟩ :=
    valueAt_saturated start finish low rises after (by omega)
  obtain ⟨v', success_v', value_eq'⟩ :=
    valueAt_saturated start finish high rises (UInt32.le_trans after ordered) small
  obtain rfl := Except.ok.inj (success.symm.trans success_v)
  obtain rfl := Except.ok.inj (success'.symm.trans success_v')
  omega

section Along

variable (start finish : PolylineInterestRatePoint) (rest : List PolylineInterestRatePoint)
  (rises : List.IsChain Rises (start :: finish :: rest))

include rises

theorem valueAlong_returns (utilization : UInt32)
    (after_start : start.utilizationRateBps ≤ utilization) :
    ∃ value, valueAlong start finish utilization rest = .ok value := by
  obtain ⟨before, left, right, after, split, from_left, to_right⟩ :=
    exists_segment start finish rest utilization after_start
  obtain ⟨along, left_rises, -⟩ :=
    valueAlong_segment start finish rest rises before after left right
    split utilization from_left to_right
  obtain ⟨value, success, -⟩ :=
    valueAt_ok left right utilization left_rises (UInt32.le_iff_toNat_le.mp from_left)
  exact ⟨value, along.trans success⟩

theorem valueAlong_saturated (top : UInt32)
    (fits : lineBps (lastSegment start finish rest).1 (lastSegment start finish rest).2 top.toNat <
      2 ^ 32)
    (before after : List PolylineInterestRatePoint) (left right : PolylineInterestRatePoint)
    (split : start :: finish :: rest = before ++ left :: right :: after) (utilization : UInt32)
    (below_top : utilization ≤ top) (from_left : left.utilizationRateBps ≤ utilization)
    (to_right : utilization < right.utilizationRateBps ∨ after = []) :
    ∃ value, valueAlong start finish utilization rest = .ok value ∧
      value.toNat = min (2 ^ 32 - 1)
        (left.borrowRateBps.toNat + lineBps left right utilization.toNat) := by
  obtain ⟨along, left_rises, last⟩ := valueAlong_segment start finish rest rises before after left
    right split utilization from_left to_right
  have small : lineBps left right utilization.toNat < 2 ^ 32 := by
    rcases to_right with inside | ending
    · have below := lineBps_le_end left right left_rises (UInt32.lt_iff_toNat_lt.mp inside).le
      have range := UInt32.toNat_lt right.borrowRateBps
      omega
    · rw [last ending] at fits
      exact lt_of_le_of_lt (lineBps_mono left right (UInt32.le_iff_toNat_le.mp below_top)) fits
  rw [along]
  exact valueAt_saturated left right utilization left_rises from_left small

theorem start_le_valueAlong (utilization : UInt32)
    (after_start : start.utilizationRateBps ≤ utilization) (value : UInt32)
    (success : valueAlong start finish utilization rest = .ok value) :
    start.borrowRateBps.toNat ≤ value.toNat := by
  have line (start finish : PolylineInterestRatePoint) (rises : Rises start finish)
      (after_start : start.utilizationRateBps ≤ utilization)
      (success : valueAt start finish utilization = .ok value) :
      start.borrowRateBps.toNat ≤ value.toNat := by
    obtain ⟨value', success', value_eq⟩ :=
      valueAt_ok start finish utilization rises (UInt32.le_iff_toNat_le.mp after_start)
    obtain rfl := Except.ok.inj (success.symm.trans success')
    have range := UInt32.toNat_lt start.borrowRateBps
    omega
  induction rest generalizing start finish with
  | nil => exact line start finish (List.isChain_cons_cons.mp rises).1 after_start success
  | cons point rest ih =>
      obtain ⟨first, others⟩ := List.isChain_cons_cons.mp rises
      rw [valueAlong] at success
      split at success
      · exact line start finish first after_start success
      · rename_i past
        have onward := ih finish point others (UInt32.not_lt.mp past) success
        exact le_trans first.2.le onward

theorem valueAlong_hits (point : PolylineInterestRatePoint)
    (member : point ∈ start :: finish :: rest) :
    valueAlong start finish point.utilizationRateBps rest = .ok point.borrowRateBps := by
  have at_start (start finish : PolylineInterestRatePoint) (rises : Rises start finish) :
      valueAt start finish start.utilizationRateBps = .ok start.borrowRateBps := by
    have level : lineBps start finish start.utilizationRateBps.toNat = 0 := by simp [lineBps]
    have range := UInt32.toNat_lt start.borrowRateBps
    obtain ⟨value, success, value_eq⟩ := valueAt_exact start finish start.utilizationRateBps rises
      le_rfl (by omega)
    rw [success, Except.ok.injEq, ← UInt32.toNat_inj]
    omega
  induction rest generalizing start finish with
  | nil =>
      obtain ⟨first, -⟩ := List.isChain_cons_cons.mp rises
      rcases List.mem_cons.mp member with rfl | second
      · exact at_start point finish first
      · rw [List.mem_singleton.mp second]
        have ending := lineBps_end start finish first
        have range := UInt32.toNat_lt finish.borrowRateBps
        obtain ⟨value, success, value_eq⟩ := valueAt_exact start finish finish.utilizationRateBps
          first first.1.le (by omega)
        rw [valueAlong, success, Except.ok.injEq, ← UInt32.toNat_inj]
        omega
  | cons next rest ih =>
      obtain ⟨first, others⟩ := List.isChain_cons_cons.mp rises
      rcases List.mem_cons.mp member with rfl | later
      · rw [valueAlong, if_pos (UInt32.lt_iff_toNat_lt.mpr first.1)]
        exact at_start point finish first
      · have onward := head_le_of_rises finish (next :: rest) others point later
        have past : ¬ point.utilizationRateBps < finish.utilizationRateBps := by
          rw [UInt32.lt_iff_toNat_lt]
          omega
        rw [valueAlong, if_neg past]
        exact ih finish next others later

theorem valueAlong_monotone (top : UInt32)
    (fits : lineBps (lastSegment start finish rest).1 (lastSegment start finish rest).2 top.toNat <
      2 ^ 32)
    (low high : UInt32) (after_start : start.utilizationRateBps ≤ low) (ordered : low ≤ high)
    (below_top : high ≤ top) (value value' : UInt32)
    (success : valueAlong start finish low rest = .ok value)
    (success' : valueAlong start finish high rest = .ok value') : value.toNat ≤ value'.toNat := by
  induction rest generalizing start finish with
  | nil =>
      have below := lineBps_mono start finish (UInt32.le_iff_toNat_le.mp below_top)
      exact valueAt_monotone start finish (List.isChain_cons_cons.mp rises).1 low high ordered
        after_start (lt_of_le_of_lt below fits) value value' success success'
  | cons point rest ih =>
      obtain ⟨first, others⟩ := List.isChain_cons_cons.mp rises
      have range := UInt32.toNat_lt finish.borrowRateBps
      rw [valueAlong] at success success'
      by_cases low_inside : low < finish.utilizationRateBps
      · rw [if_pos low_inside] at success
        by_cases high_inside : high < finish.utilizationRateBps
        · rw [if_pos high_inside] at success'
          have below := lineBps_le_end start finish first (UInt32.lt_iff_toNat_lt.mp high_inside).le
          exact valueAt_monotone start finish first low high ordered after_start (by omega) value
            value' success success'
        · -- the two lie on either side of a point, whose rate separates them
          rw [if_neg high_inside] at success'
          have below := lineBps_le_end start finish first (UInt32.lt_iff_toNat_lt.mp low_inside).le
          obtain ⟨v, success_v, value_eq⟩ :=
            valueAt_saturated start finish low first after_start (by omega)
          obtain rfl := Except.ok.inj (success.symm.trans success_v)
          have above := start_le_valueAlong finish point rest others high
            (UInt32.not_lt.mp high_inside) value' success'
          omega
      · have high_past : ¬ high < finish.utilizationRateBps := fun inside =>
          low_inside (UInt32.lt_of_le_of_lt ordered inside)
        rw [if_neg low_inside] at success
        rw [if_neg high_past] at success'
        exact ih finish point others fits (UInt32.not_lt.mp low_inside) success success'

end Along

theorem lineBps_first_overflow (start finish : PolylineInterestRatePoint)
    (rises : Rises start finish) (top : UInt32)
    (high : 2 ^ 32 ≤ lineBps start finish top.toNat) :
    ∃ utilization ≤ top, start.utilizationRateBps ≤ utilization ∧
      2 ^ 32 ≤ lineBps start finish utilization.toNat ∧
      start.borrowRateBps.toNat + lineBps start finish utilization.toNat % 2 ^ 32 <
        finish.borrowRateBps.toNat := by
  have apart := rises.1
  have above := rises.2
  have riseSmall := UInt32.toNat_lt finish.borrowRateBps
  let origin := start.utilizationRateBps.toNat
  let width := finish.utilizationRateBps.toNat - origin
  let rise := finish.borrowRateBps.toNat - start.borrowRateBps.toNat
  have width_pos : 0 < width := by
    dsimp only [width, origin]
    omega
  have rise_eq : start.borrowRateBps.toNat + rise = finish.borrowRateBps.toNat := by
    dsimp only [rise]
    omega
  have leaves : ∃ steps, 2 ^ 32 ≤ rise * steps / width := ⟨top.toNat - origin, high⟩
  have least := Nat.find_spec leaves
  have bounded : Nat.find leaves ≤ top.toNat - origin := Nat.find_min' leaves high
  obtain ⟨steps, steps_eq⟩ : ∃ steps, Nat.find leaves = steps + 1 := by
    rcases found : Nat.find leaves with _ | steps
    · rw [found] at least
      simp at least
    · exact ⟨steps, rfl⟩
  have inside : ¬ 2 ^ 32 ≤ rise * steps / width := Nat.find_min leaves (by omega)
  rw [steps_eq] at least bounded
  -- one step adds at most the whole rise of the segment
  have step : rise * (steps + 1) / width ≤ rise * steps / width + rise := by
    rw [Nat.mul_succ]
    calc
      (rise * steps + rise) / width ≤ (rise * steps + rise * width) / width :=
        Nat.div_le_div_right (Nat.add_le_add_left (Nat.le_mul_of_pos_right _ width_pos) _)
      _ = rise * steps / width + rise := Nat.add_mul_div_right _ _ width_pos
  have cast : (UInt32.ofNat (origin + (steps + 1))).toNat = origin + (steps + 1) :=
    UInt32.toNat_ofNat_of_lt' (by
      have range := UInt32.toNat_lt top
      have size : UInt32.size = 2 ^ 32 := rfl
      omega)
  have shifted : lineBps start finish (origin + (steps + 1)) = rise * (steps + 1) / width := by
    unfold lineBps
    rw [Nat.add_sub_cancel_left]
  refine ⟨UInt32.ofNat (origin + (steps + 1)), ?_, ?_, ?_, ?_⟩
  · rw [UInt32.le_iff_toNat_le, cast]
    omega
  · rw [UInt32.le_iff_toNat_le, cast]
    exact Nat.le_add_right _ _
  · rw [cast, shifted]
    exact least
  · rw [cast, shifted]
    omega

theorem lastSegment_split (start finish : PolylineInterestRatePoint)
    (rest : List PolylineInterestRatePoint) :
    ∃ before, start :: finish :: rest =
      before ++ [(lastSegment start finish rest).1, (lastSegment start finish rest).2] := by
  induction rest generalizing start finish with
  | nil => exact ⟨[], rfl⟩
  | cons point rest ih =>
      obtain ⟨before, split⟩ := ih finish point
      exact ⟨start :: before, by rw [split, List.cons_append, lastSegment]⟩

theorem aprBorrowRateBps_eq (self : PolylineInterestRateCurve)
    {start finish : PolylineInterestRatePoint} {rest : List PolylineInterestRatePoint}
    (points_eq : self.points = start :: finish :: rest) (utilization : UInt32) :
    self.aprBorrowRateBps utilization = valueAlong start finish utilization rest := by
  rw [aprBorrowRateBps, points_eq]

/-- A last segment that does not fit is evaluated below its own end where it first overflows. -/
theorem not_evaluates_of_overflow (self : PolylineInterestRateCurve) (top : UInt32)
    (start finish : PolylineInterestRatePoint) (rest : List PolylineInterestRatePoint)
    (points_eq : self.points = start :: finish :: rest)
    (rises : List.IsChain Rises (start :: finish :: rest))
    (overflows : 2 ^ 32 ≤
      lineBps (lastSegment start finish rest).1 (lastSegment start finish rest).2 top.toNat) :
    ¬ self.EvaluatesCurve top := by
  intro evaluates
  obtain ⟨before, split⟩ := lastSegment_split start finish rest
  generalize (lastSegment start finish rest).1 = left at *
  generalize (lastSegment start finish rest).2 = right at *
  obtain ⟨-, left_rises, -⟩ := valueAlong_segment start finish rest rises before [] left right split
    left.utilizationRateBps (UInt32.le_refl _) (Or.inr rfl)
  obtain ⟨utilization, below_top, from_left, high, low⟩ :=
    lineBps_first_overflow left right left_rises top overflows
  obtain ⟨value, success, value_eq⟩ := evaluates.segment before left right [] utilization below_top
    (points_eq.trans split) from_left (Or.inr rfl)
  obtain ⟨along, -, -⟩ := valueAlong_segment start finish rest rises before [] left right split
    utilization from_left (Or.inr rfl)
  obtain ⟨value', success', value_eq'⟩ :=
    valueAt_ok left right utilization left_rises (UInt32.le_iff_toNat_le.mp from_left)
  rw [self.aprBorrowRateBps_eq points_eq, along, success', Except.ok.injEq] at success
  subst success
  have range := UInt32.toNat_lt right.borrowRateBps
  omega

theorem evaluates_of_fits (self : PolylineInterestRateCurve) (top : UInt32)
    (start finish : PolylineInterestRatePoint) (rest : List PolylineInterestRatePoint)
    (points_eq : self.points = start :: finish :: rest)
    (origin : start.utilizationRateBps.toNat = 0)
    (rises : List.IsChain Rises (start :: finish :: rest))
    (fits : lineBps (lastSegment start finish rest).1 (lastSegment start finish rest).2 top.toNat <
      2 ^ 32) : self.EvaluatesCurve top := by
  have along := self.aprBorrowRateBps_eq points_eq
  have after_start (utilization : UInt32) : start.utilizationRateBps ≤ utilization := by
    rw [UInt32.le_iff_toNat_le]
    omega
  constructor
  case returns =>
    intro utilization
    rw [along]
    exact valueAlong_returns start finish rest rises utilization (after_start utilization)
  case single =>
    intro point alone
    rw [points_eq] at alone
    simp at alone
  case segment =>
    intro before left right after utilization below_top split from_left to_right
    rw [along]
    exact valueAlong_saturated start finish rest rises top fits before after left right
      (points_eq.symm.trans split) utilization below_top from_left to_right
  case hits =>
    intro point member
    rw [points_eq] at member
    rw [along]
    exact valueAlong_hits start finish rest rises point member
  case monotone =>
    intro low high value value' ordered below_top success success'
    rw [along] at success success'
    rw [UInt32.le_iff_toNat_le]
    exact valueAlong_monotone start finish rest rises top fits low high (after_start low) ordered
      below_top value value' success success'

theorem evaluates_of_single (self : PolylineInterestRateCurve) (first : PolylineInterestRatePoint)
    (points_eq : self.points = [first]) (top : UInt32) : self.EvaluatesCurve top := by
  have constant (utilization : UInt32) :
      self.aprBorrowRateBps utilization = .ok first.borrowRateBps := by
    rw [aprBorrowRateBps, points_eq]
  constructor
  case returns => exact fun utilization => ⟨_, constant utilization⟩
  case single =>
    intro point alone utilization
    rw [points_eq, List.cons.injEq] at alone
    rw [constant, alone.1]
  case segment =>
    intro before left right after utilization _ split
    have lengths := congrArg List.length (points_eq.symm.trans split)
    simp only [List.length_cons, List.length_append, List.length_nil] at lengths
    omega
  case hits =>
    intro point member
    rw [points_eq, List.mem_singleton] at member
    rw [constant, member]
  case monotone =>
    intro low high value value' _ _ success success'
    rw [constant, Except.ok.injEq] at success success'
    rw [← success, ← success']
    exact UInt32.le_refl _

/-- An accepted curve is evaluated as drawn up to a utilisation exactly when its last segment,
extended to it, fits. -/
theorem evaluatesCurve_iff (self : PolylineInterestRateCurve) (valid : self.validate = .ok ())
    (top : UInt32) : self.EvaluatesCurve top ↔ self.LastSegmentFits top := by
  obtain ⟨start, rest, points_eq, origin, rises⟩ := self.points_of_validate valid
  cases rest with
  | nil =>
      refine ⟨fun _ => ?_, fun _ => self.evaluates_of_single start points_eq top⟩
      rw [LastSegmentFits, points_eq]
      trivial
  | cons finish rest =>
      rw [LastSegmentFits, points_eq]
      constructor
      · intro evaluates
        by_contra overflows
        exact self.not_evaluates_of_overflow top start finish rest points_eq rises
          (Nat.le_of_not_lt overflows) evaluates
      · exact self.evaluates_of_fits top start finish rest points_eq origin rises

theorem evaluatesCurve_default :
    EvaluatesCurve ⟨#v[⟨0, 200⟩, ⟨9200, 700⟩, ⟨10000, 10000⟩, ⟨0, 0⟩, ⟨0, 0⟩, ⟨0, 0⟩, ⟨0, 0⟩,
      ⟨0, 0⟩]⟩ 1000000 := by
  have fits : lineBps ⟨9200, 700⟩ ⟨10000, 10000⟩ (1000000 : UInt32).toNat < 2 ^ 32 := by
    decide +kernel
  exact (evaluatesCurve_iff _ (by decide +kernel) 1000000).mpr fits

/-- Two points, the second at the greatest rate one basis point of utilisation further. -/
def steep : PolylineInterestRateCurve :=
  ⟨#v[⟨0, 1⟩, ⟨1, 4294967295⟩, ⟨0, 0⟩, ⟨0, 0⟩, ⟨0, 0⟩, ⟨0, 0⟩, ⟨0, 0⟩, ⟨0, 0⟩]⟩

theorem steep_falls_back :
    steep.validate = .ok () ∧ steep.aprBorrowRateBps 1 = .ok 4294967295 ∧
      steep.aprBorrowRateBps 2 = .ok 4294967293 ∧ ¬ steep.EvaluatesCurve 4294967295 := by
  have validated : steep.validate = .ok () := by decide +kernel
  have before : steep.aprBorrowRateBps 1 = .ok 4294967295 := by decide +kernel
  have after : steep.aprBorrowRateBps 2 = .ok 4294967293 := by decide +kernel
  refine ⟨validated, before, after, fun evaluates => ?_⟩
  exact absurd (evaluates.monotone 1 2 _ _ (by decide) (by decide) before after) (by decide)

end PolylineInterestRateCurve

end AutaraLending
