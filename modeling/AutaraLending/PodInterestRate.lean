import AutaraLending.InterestRateCurve
import AutaraLending.Support.Bytes
import AutaraLending.Support.Pod

/-! The borrow rate curve as a vault stores it: a tag, and the bytes of the curve at the front
of an array that is long enough for every kind. -/

namespace AutaraLending

open Support

instance : Pod IFixedPoint := Fixed.pod i80f48 16 rfl

instance : Pod InterestRatePerSecond :=
  Pod.ofFields
    { toFun := InterestRatePerSecond.rate
      invFun := InterestRatePerSecond.mk
      left_inv := fun _ => rfl
      right_inv := fun _ => rfl }

instance : Pod PolylineInterestRatePoint :=
  Pod.ofFields
    { toFun := fun point => (point.utilizationRateBps, point.borrowRateBps)
      invFun := fun fields => ⟨fields.1, fields.2⟩
      left_inv := fun _ => rfl
      right_inv := fun _ => rfl }

instance : Pod PolylineInterestRateCurve :=
  Pod.ofFields
    { toFun := PolylineInterestRateCurve.slots
      invFun := PolylineInterestRateCurve.mk
      left_inv := fun _ => rfl
      right_inv := fun _ => rfl }

instance : Pod AdaptiveInterestRateCurve :=
  Pod.ofFields
    { toFun := AdaptiveInterestRateCurve.rateAtTarget
      invFun := AdaptiveInterestRateCurve.mk
      left_inv := fun _ => rfl
      right_inv := fun _ => rfl }

theorem AdaptiveInterestRateCurve.borrowRate_keepsOnFailure (params : MarketBorrowRateParameters) :
    (borrowRate params).KeepsOnFailure := by
  refine Method.reads_self.bind fun self => ?_
  refine (Method.reads_lift _).bind fun rates => ?_
  intro curve e t failure
  cases failure

namespace InterestRateCurveKind

theorem borrowRatePerSecond_keepsOnFailure (params : MarketBorrowRateParameters) :
    (borrowRatePerSecond params).KeepsOnFailure := by
  intro kind e t failure
  cases kind with
  | fixed rate => cases failure
  | polyline curve =>
      let call : LendingMethod InterestRateCurveKind InterestRatePerSecond := do
        let bps ← Method.lift params.utilisationRateBps
        Method.lift (curve.interestRatePerSecond bps)
      have kept : call.KeepsOnFailure :=
        (Method.reads_lift _).bind fun _ => (Method.reads_lift _).keepsOnFailure
      exact kept _ e t failure
  | adaptive curve =>
      have result := congrArg Prod.fst failure
      have left := congrArg Prod.snd failure
      have kept := (AdaptiveInterestRateCurve.borrowRate_keepsOnFailure params).receiver result
      exact left.symm.trans (congrArg InterestRateCurveKind.adaptive kept)

end InterestRateCurveKind

inductive PodInterestRateCurveKind where
  | fixed
  | polyline
  | adaptive
  deriving DecidableEq

def PodInterestRateCurveKind.size : PodInterestRateCurveKind → Nat
  | .fixed => Pod.size InterestRatePerSecond
  | .polyline => Pod.size PolylineInterestRateCurve
  | .adaptive => Pod.size AdaptiveInterestRateCurve

def constMaxUsizes (items : List Nat) : Nat :=
  items.foldl (fun greatest item => if greatest < item then item else greatest) (items.headD 0)

def podUnionSize : Nat :=
  constMaxUsizes [PodInterestRateCurveKind.fixed.size, PodInterestRateCurveKind.polyline.size,
    PodInterestRateCurveKind.adaptive.size]

example : podUnionSize = 64 := by decide

theorem PodInterestRateCurveKind.size_le (kind : PodInterestRateCurveKind) :
    kind.size ≤ podUnionSize := by
  cases kind <;> decide

structure PodInterestRateCurve where
  kind : PodInterestRateCurveKind
  union : List UInt8
  union_length : union.length = podUnionSize
  deriving DecidableEq

namespace PodInterestRateCurve

section Views

variable {α β : Type} [Pod α] (fits : Pod.size α ≤ podUnionSize)

theorem length_overwrite_union (packed : PodInterestRateCurve) (value : α)
    (fits : Pod.size α ≤ podUnionSize) :
    (Bytes.overwrite packed.union 0 (Pod.bytesOf value)).length = podUnionSize := by
  rw [Bytes.length_overwrite, packed.union_length]
  rw [Pod.length_bytesOf, packed.union_length]
  omega

def store (value : α) (packed : PodInterestRateCurve) : PodInterestRateCurve where
  kind := packed.kind
  union := Bytes.overwrite packed.union 0 (Pod.bytesOf value)
  union_length := length_overwrite_union packed value fits

def load (α : Type) [Pod α] (packed : PodInterestRateCurve) : α :=
  Pod.fromBytes (Bytes.region packed.union 0 (Pod.size α))

def borrowed (call : LendingMethod α β) : LendingMethod PodInterestRateCurve β :=
  Method.zoom (load α) (store fits) call

theorem load_store (value : α) (packed : PodInterestRateCurve) :
    load α (store fits value packed) = value := by
  have written := Bytes.region_overwrite packed.union 0 (Pod.bytesOf value)
    (by rw [Pod.length_bytesOf, packed.union_length]; omega)
  rw [Pod.length_bytesOf, zero_add] at written
  rw [load, store, written, Pod.fromBytes_bytesOf]

theorem store_store (value value' : α) (packed : PodInterestRateCurve) :
    store fits value' (store fits value packed) = store fits value' packed := by
  have last := Bytes.overwrite_overwrite packed.union 0 (Pod.bytesOf value) (Pod.bytesOf value')
    (by rw [Pod.length_bytesOf, packed.union_length]; omega)
    (by rw [Pod.length_bytesOf, Pod.length_bytesOf])
  simp only [store, last]

theorem borrowed_store (call : LendingMethod α β) (value : α) (packed : PodInterestRateCurve) :
    borrowed fits call (store fits value packed) =
      ((call value).1, store fits (call value).2 packed) := by
  rw [borrowed, Method.zoom, load_store, store_store]

end Views

def zeroed (kind : PodInterestRateCurveKind) : PodInterestRateCurve where
  kind := kind
  union := List.replicate podUnionSize 0
  union_length := List.length_replicate

def fromInterestRateKind : InterestRateCurveKind → PodInterestRateCurve
  | .fixed rate => store PodInterestRateCurveKind.fixed.size_le rate (zeroed .fixed)
  | .polyline curve => store PodInterestRateCurveKind.polyline.size_le curve (zeroed .polyline)
  | .adaptive curve => store PodInterestRateCurveKind.adaptive.size_le curve (zeroed .adaptive)

def interestRateKind (self : PodInterestRateCurve) : InterestRateCurveKind :=
  match self.kind with
  | .fixed => .fixed (self.load InterestRatePerSecond)
  | .polyline => .polyline (self.load PolylineInterestRateCurve)
  | .adaptive => .adaptive (self.load AdaptiveInterestRateCurve)

/-- `interest_rate_kind_mut().borrow_rate_per_second`: each arm is called on the part of the
union it borrows. -/
def borrowRatePerSecond (params : MarketBorrowRateParameters) :
    LendingMethod PodInterestRateCurve InterestRatePerSecond := do
  match (← Method.self).kind with
  | .fixed => borrowed PodInterestRateCurveKind.fixed.size_le Method.self
  | .polyline =>
      borrowed PodInterestRateCurveKind.polyline.size_le (do
        let bps ← Method.lift params.utilisationRateBps
        let curve : PolylineInterestRateCurve ← Method.self
        Method.lift (curve.interestRatePerSecond bps))
  | .adaptive =>
      borrowed PodInterestRateCurveKind.adaptive.size_le
        (AdaptiveInterestRateCurve.borrowRate params)

theorem interestRateKind_fromInterestRateKind (kind : InterestRateCurveKind) :
    (fromInterestRateKind kind).interestRateKind = kind := by
  cases kind with
  | fixed rate =>
      exact congrArg InterestRateCurveKind.fixed
        (load_store PodInterestRateCurveKind.fixed.size_le rate (zeroed .fixed))
  | polyline curve =>
      exact congrArg InterestRateCurveKind.polyline
        (load_store PodInterestRateCurveKind.polyline.size_le curve (zeroed .polyline))
  | adaptive curve =>
      exact congrArg InterestRateCurveKind.adaptive
        (load_store PodInterestRateCurveKind.adaptive.size_le curve (zeroed .adaptive))

/-- One call on the packed curve is the call on the enum, packed again. -/
theorem borrowRatePerSecond_fromInterestRateKind (params : MarketBorrowRateParameters)
    (kind : InterestRateCurveKind) :
    borrowRatePerSecond params (fromInterestRateKind kind) =
      Prod.map id fromInterestRateKind (InterestRateCurveKind.borrowRatePerSecond params kind) := by
  cases kind with
  | fixed rate =>
      exact borrowed_store PodInterestRateCurveKind.fixed.size_le Method.self rate (zeroed .fixed)
  | polyline curve =>
      refine (borrowed_store PodInterestRateCurveKind.polyline.size_le _ curve
        (zeroed .polyline)).trans ?_
      -- Neither the utilisation nor the points change, so a failing call leaves the same bytes.
      cases outcome : params.utilisationRateBps with
      | error e => simp [InterestRateCurveKind.borrowRatePerSecond, Method.lift, Method.self, bind,
          outcome, fromInterestRateKind]
      | ok bps => simp [InterestRateCurveKind.borrowRatePerSecond, Method.lift, Method.self, bind,
          outcome, fromInterestRateKind]
  | adaptive curve =>
      exact borrowed_store PodInterestRateCurveKind.adaptive.size_le
        (AdaptiveInterestRateCurve.borrowRate params) curve (zeroed .adaptive)

/-- The adaptive rate is stored only once everything else of the call has succeeded. -/
theorem borrowRatePerSecond_failure (params : MarketBorrowRateParameters)
    (kind : InterestRateCurveKind) (e : Failure) (t : PodInterestRateCurve)
    (failure : borrowRatePerSecond params (fromInterestRateKind kind) = (.error e, t)) :
    t = fromInterestRateKind kind := by
  rw [borrowRatePerSecond_fromInterestRateKind] at failure
  have result := congrArg Prod.fst failure
  have left := congrArg Prod.snd failure
  have kept := (InterestRateCurveKind.borrowRatePerSecond_keepsOnFailure params).receiver result
  exact left.symm.trans (congrArg fromInterestRateKind kept)

theorem packed_curve_simulates (kind : InterestRateCurveKind)
    (calls : List MarketBorrowRateParameters) :
    (fromInterestRateKind kind).interestRateKind = kind ∧
      Method.trace borrowRatePerSecond (fromInterestRateKind kind) calls =
        (Method.trace InterestRateCurveKind.borrowRatePerSecond kind calls).map
          (Prod.map id fromInterestRateKind) ∧
      ∀ params e t, borrowRatePerSecond params (fromInterestRateKind kind) = (.error e, t) →
        t = fromInterestRateKind kind :=
  ⟨interestRateKind_fromInterestRateKind kind,
    Method.trace_view _ _ fromInterestRateKind borrowRatePerSecond_fromInterestRateKind kind calls,
    fun params e t => borrowRatePerSecond_failure params kind e t⟩

end PodInterestRateCurve

end AutaraLending
