import AutaraLending.SharesTracker
import AutaraLending.Support.Machine

/-! What one holder can take out of a tracker whose exchange rate does not move. Minting
and burning by atoms share one truncating division, so a deposit that rounds less than the
single-atom withdrawals it is spent on leaves shares behind. -/

namespace AutaraLending

open Support

/-- One holder's dealings with a tracker: the shares held and the atoms moved either way. -/
structure Holder where
  tracker : SharesTracker
  shares : UFixedPoint
  atomsIn : Nat
  atomsOut : Nat
  deriving DecidableEq

inductive HolderOperation where
  | depositAtoms (atoms : U64)
  | withdrawAtoms (atoms : U64)
  | withdrawShares (shares : UFixedPoint)

namespace Holder

def start (tracker : SharesTracker) : Holder := ⟨tracker, Fixed.zero, 0, 0⟩

def onTracker {α : Type} (m : LendingMethod SharesTracker α) : LendingMethod Holder α :=
  Method.zoom Holder.tracker (fun tracker self => { self with tracker }) m

/-- The position side of the market operations keeps the holder from burning more shares
than it holds. -/
def execute : HolderOperation → LendingMethod Holder Unit
  | .depositAtoms atoms => do
      let minted ← onTracker (SharesTracker.depositAtoms atoms)
      let self ← Method.self
      let shares ← Method.lift (self.shares.safeAdd minted)
      Method.assign { self with shares, atomsIn := self.atomsIn + atoms.toNat }
  | .withdrawAtoms atoms => do
      let burned ← onTracker (SharesTracker.withdrawAtoms atoms)
      let self ← Method.self
      let shares ← Method.lift (mapErr .withdrawalExceedsDeposited (self.shares.safeSub burned))
      Method.assign { self with shares, atomsOut := self.atomsOut + atoms.toNat }
  | .withdrawShares burned => do
      let atoms ← onTracker (SharesTracker.withdrawShares burned .roundDown)
      let self ← Method.self
      let shares ← Method.lift (mapErr .withdrawalExceedsDeposited (self.shares.safeSub burned))
      Method.assign { self with shares, atomsOut := self.atomsOut + atoms.toNat }

theorem onTracker_succeeds {α : Type} (m : LendingMethod SharesTracker α) (h h' : Holder) (a : α) :
    (onTracker m).Succeeds h a h' ↔
      ∃ tracker, m.Succeeds h.tracker a tracker ∧ { h with tracker } = h' := by
  simp only [onTracker, Method.succeeds_zoom]

theorem deposit_succeeds (atoms : U64) (h h' : Holder) (u : Unit) :
    (execute (.depositAtoms atoms)).Succeeds h u h' ↔
      ∃ minted : UFixedPoint, h.tracker.atomsToShares atoms = .ok minted ∧
        h'.tracker.totalShares.bits = h.tracker.totalShares.bits + minted.bits ∧
        h'.tracker.atomsPerShare = h.tracker.atomsPerShare ∧
        h'.shares.bits = h.shares.bits + minted.bits ∧
        h'.atomsIn = h.atomsIn + atoms.toNat ∧ h'.atomsOut = h.atomsOut := by
  simp only [execute, Method.succeeds_bind, onTracker_succeeds, Method.succeeds_self,
    Method.succeeds_lift, Method.succeeds_assign, Fixed.safeAdd_ok,
    SharesTracker.depositAtoms_succeeds]
  constructor
  · rintro ⟨minted, _, ⟨tracker, ⟨converted, total, price⟩, rfl⟩, _, _, ⟨rfl, rfl⟩, shares, _,
      ⟨sum, rfl⟩, rfl⟩
    exact ⟨minted, converted, total, price, sum.symm, rfl, rfl⟩
  · rintro ⟨minted, converted, total, price, sum, atomsIn, atomsOut⟩
    refine ⟨minted, { h with tracker := h'.tracker }, ⟨h'.tracker, ⟨converted, total, price⟩, rfl⟩,
      _, _, ⟨rfl, rfl⟩, h'.shares, _, ⟨sum.symm, rfl⟩, ?_⟩
    cases h'
    simp_all

theorem withdraw_succeeds (atoms : U64) (h h' : Holder) (u : Unit) :
    (execute (.withdrawAtoms atoms)).Succeeds h u h' ↔
      ∃ burned : UFixedPoint, h.tracker.atomsToShares atoms = .ok burned ∧
        h.tracker.totalShares.bits = h'.tracker.totalShares.bits + burned.bits ∧
        h'.tracker.atomsPerShare = h.tracker.atomsPerShare ∧
        h.shares.bits = h'.shares.bits + burned.bits ∧
        h'.atomsIn = h.atomsIn ∧ h'.atomsOut = h.atomsOut + atoms.toNat := by
  simp only [execute, Method.succeeds_bind, onTracker_succeeds, Method.succeeds_self,
    Method.succeeds_lift, Method.succeeds_assign, mapErr_ok, Fixed.safeSub_ok,
    SharesTracker.withdrawAtoms_succeeds]
  constructor
  · rintro ⟨burned, _, ⟨tracker, ⟨converted, total, price⟩, rfl⟩, _, _, ⟨rfl, rfl⟩, shares, _,
      ⟨difference, rfl⟩, rfl⟩
    exact ⟨burned, converted, total, price, by dsimp only at difference ⊢; omega, rfl, rfl⟩
  · rintro ⟨burned, converted, total, price, difference, atomsIn, atomsOut⟩
    refine ⟨burned, { h with tracker := h'.tracker }, ⟨h'.tracker, ⟨converted, total, price⟩, rfl⟩,
      _, _, ⟨rfl, rfl⟩, h'.shares, _, ⟨by dsimp only; omega, rfl⟩, ?_⟩
    cases h'
    simp_all

theorem withdrawShares_succeeds (burned : UFixedPoint) (h h' : Holder) (u : Unit)
    (success : (execute (.withdrawShares burned)).Succeeds h u h') :
    ∃ atoms : U64, h.tracker.sharesToAtoms burned .roundDown = .ok atoms ∧
      h.tracker.totalShares.bits = h'.tracker.totalShares.bits + burned.bits ∧
      h'.tracker.atomsPerShare = h.tracker.atomsPerShare ∧
      h.shares.bits = h'.shares.bits + burned.bits ∧
      h'.atomsIn = h.atomsIn ∧ h'.atomsOut = h.atomsOut + atoms.toNat := by
  simp only [execute, Method.succeeds_bind, onTracker_succeeds, Method.succeeds_self,
    Method.succeeds_lift, Method.succeeds_assign, mapErr_ok, Fixed.safeSub_ok,
    SharesTracker.withdrawShares_succeeds] at success
  obtain ⟨atoms, _, ⟨tracker, ⟨converted, total, price⟩, rfl⟩, _, _, ⟨rfl, rfl⟩, shares, _,
    ⟨difference, rfl⟩, rfl⟩ := success
  exact ⟨atoms, converted, total, price, by dsimp only at difference ⊢; omega, rfl, rfl⟩

structure At (tracker : SharesTracker) (held : Int) (atomsIn atomsOut : Nat) (h : Holder) :
    Prop where
  price : h.tracker.atomsPerShare = tracker.atomsPerShare
  total : h.tracker.totalShares.bits = tracker.totalShares.bits + held
  shares : h.shares.bits = held
  atomsIn : h.atomsIn = atomsIn
  atomsOut : h.atomsOut = atomsOut

theorem start_at (tracker : SharesTracker) : At tracker 0 0 0 (start tracker) :=
  ⟨rfl, by simp [start], by simp [start], rfl, rfl⟩

end Holder

def SharesTracker.unitShares (self : SharesTracker) : Int := 2 ^ 128 / self.atomsPerShare.bits

def SharesTracker.unitLoss (self : SharesTracker) : Int := 2 ^ 128 % self.atomsPerShare.bits

/-- No deposit that fits the tracker rounds less than the single-atom withdrawals it can be
spent on. -/
def SharesTracker.RoundsEvenly (self : SharesTracker) : Prop :=
  ∀ atoms : U64, self.atomsPerShare.bits ≤ atoms.toNat * self.unitLoss →
    2 ^ 128 ≤ self.totalShares.bits + (atoms.toNat + 1) * self.unitShares

namespace Holder

variable {tracker : SharesTracker}

theorem unitShares_pos (positive : 0 < tracker.atomsPerShare.bits) : 0 < tracker.unitShares := by
  have small := tracker.atomsPerShare.bits_lt
  exact Int.le_ediv_of_mul_le positive (by omega)

theorem conversion_split (positive : 0 < tracker.atomsPerShare.bits) (atoms : Nat) :
    (atoms * 2 ^ 128 / tracker.atomsPerShare.bits : Int) =
      atoms * tracker.unitShares + atoms * tracker.unitLoss / tracker.atomsPerShare.bits := by
  have decomposed : (atoms * 2 ^ 128 : Int) =
      atoms * tracker.unitLoss + tracker.atomsPerShare.bits * (atoms * tracker.unitShares) := by
    unfold SharesTracker.unitLoss SharesTracker.unitShares
    have division := Int.mul_ediv_add_emod (2 ^ 128) tracker.atomsPerShare.bits
    calc
      (atoms * 2 ^ 128 : Int) = atoms * (tracker.atomsPerShare.bits *
          (2 ^ 128 / tracker.atomsPerShare.bits) + 2 ^ 128 % tracker.atomsPerShare.bits) := by
        rw [division]
      _ = _ := by ring
  rw [decomposed, Int.add_mul_ediv_left _ _ positive.ne']
  ring

def Covered (tracker : SharesTracker) (h : Holder) : Prop :=
  ∃ held atomsIn atomsOut, At tracker held atomsIn atomsOut h ∧
    held < tracker.unitShares * (atomsIn - atomsOut + 1)

theorem covered_out_le_in (positive : 0 < tracker.atomsPerShare.bits) {h : Holder}
    (covered : Covered tracker h) : h.atomsOut ≤ h.atomsIn := by
  obtain ⟨held, atomsIn, atomsOut, position, bound⟩ := covered
  have nonneg : 0 ≤ held := position.shares ▸ h.shares.bits_nonneg
  have unit := unitShares_pos positive
  have difference : (0 : Int) < atomsIn - atomsOut + 1 := by
    by_contra negative
    have product : tracker.unitShares * ((atomsIn : Int) - atomsOut + 1) ≤ 0 :=
      mul_nonpos_of_nonneg_of_nonpos unit.le (by omega)
    omega
  rw [position.atomsIn, position.atomsOut]
  omega

theorem covered_deposit (positive : 0 < tracker.atomsPerShare.bits)
    (even : tracker.RoundsEvenly) (atoms : U64) (h h' : Holder)
    (covered : Covered tracker h)
    (success : (execute (.depositAtoms atoms)).Succeeds h () h') : Covered tracker h' := by
  obtain ⟨minted, converted, total, price, sum, atomsIn', atomsOut'⟩ :=
    (deposit_succeeds atoms h h' ()).mp success
  have ordered := covered_out_le_in positive covered
  obtain ⟨held, atomsIn, atomsOut, position, bound⟩ := covered
  rw [SharesTracker.atomsToShares_ok, position.price] at converted
  have split := conversion_split positive atoms.toNat
  have small := h'.tracker.totalShares.bits_lt
  have unit := unitShares_pos positive
  have base := position.total
  have loss_nonneg : 0 ≤ tracker.unitLoss := Int.emod_nonneg _ positive.ne'
  rw [position.atomsIn, position.atomsOut] at ordered
  refine ⟨held + minted.bits, atomsIn + atoms.toNat, atomsOut, ⟨?_, ?_, ?_, ?_, ?_⟩, ?_⟩
  · rw [price, position.price]
  · omega
  · rw [sum, position.shares]
  · rw [atomsIn', position.atomsIn]
  · rw [atomsOut', position.atomsOut]
  · by_cases gains : tracker.atomsPerShare.bits ≤ atoms.toNat * tracker.unitLoss
    · -- A deposit that gains fits only while the holder owns less than one atom's worth.
      have room := even atoms gains
      have first : tracker.unitShares ≤ tracker.unitShares * ((atomsIn : Int) - atomsOut + 1) :=
        le_mul_of_one_le_right unit.le (by omega)
      have expand : ((atoms.toNat : Int) + 1) * tracker.unitShares =
          atoms.toNat * tracker.unitShares + tracker.unitShares := by ring
      push_cast
      calc
        held + minted.bits < atoms.toNat * tracker.unitShares + tracker.unitShares := by omega
        _ ≤ atoms.toNat * tracker.unitShares +
            tracker.unitShares * ((atomsIn : Int) - atomsOut + 1) := by omega
        _ = tracker.unitShares * (atomsIn + atoms.toNat - atomsOut + 1) := by ring
    · have exact_conversion : (atoms.toNat * tracker.unitLoss / tracker.atomsPerShare.bits : Int) =
          0 :=
        Int.ediv_eq_zero_of_lt (by positivity) (by omega)
      push_cast
      calc
        held + minted.bits <
            tracker.unitShares * ((atomsIn : Int) - atomsOut + 1) +
              atoms.toNat * tracker.unitShares := by omega
        _ = tracker.unitShares * (atomsIn + atoms.toNat - atomsOut + 1) := by ring

theorem covered_withdraw (atoms : Nat) (burned : Int) (h h' : Holder)
    (covered : Covered tracker h)
    (cost : atoms * tracker.unitShares ≤ burned)
    (total : h.tracker.totalShares.bits = h'.tracker.totalShares.bits + burned)
    (price : h'.tracker.atomsPerShare = h.tracker.atomsPerShare)
    (difference : h.shares.bits = h'.shares.bits + burned)
    (atomsIn' : h'.atomsIn = h.atomsIn) (atomsOut' : h'.atomsOut = h.atomsOut + atoms) :
    Covered tracker h' := by
  obtain ⟨held, atomsIn, atomsOut, position, bound⟩ := covered
  have base := position.total
  have owned := position.shares
  refine ⟨held - burned, atomsIn, atomsOut + atoms, ⟨?_, ?_, ?_, ?_, ?_⟩, ?_⟩
  · rw [price, position.price]
  · omega
  · omega
  · rw [atomsIn', position.atomsIn]
  · rw [atomsOut', position.atomsOut]
  · push_cast
    calc
      held - burned < tracker.unitShares * ((atomsIn : Int) - atomsOut + 1) -
          atoms * tracker.unitShares := by omega
      _ = tracker.unitShares * (atomsIn - (atomsOut + atoms) + 1) := by ring

theorem covered_step (positive : 0 < tracker.atomsPerShare.bits) (even : tracker.RoundsEvenly)
    (h : Holder) (operation : HolderOperation) (u : Unit) (h' : Holder)
    (covered : Covered tracker h) (success : (execute operation).Succeeds h u h') :
    Covered tracker h' := by
  have samePrice : h.tracker.atomsPerShare = tracker.atomsPerShare := by
    obtain ⟨_, _, _, position, -⟩ := covered
    exact position.price
  cases operation with
  | depositAtoms atoms => exact covered_deposit positive even atoms h h' covered success
  | withdrawAtoms atoms =>
      obtain ⟨burned, converted, total, price, difference, atomsIn', atomsOut'⟩ :=
        (withdraw_succeeds atoms h h' u).mp success
      refine covered_withdraw atoms.toNat burned.bits h h' covered ?_ total price difference
        atomsIn' atomsOut'
      rw [SharesTracker.atomsToShares_ok, samePrice] at converted
      have split := conversion_split positive atoms.toNat
      have extra : 0 ≤ (atoms.toNat * tracker.unitLoss / tracker.atomsPerShare.bits : Int) :=
        Int.ediv_nonneg (mul_nonneg (by positivity) (Int.emod_nonneg _ positive.ne')) positive.le
      omega
  | withdrawShares shares =>
      obtain ⟨atoms, converted, total, price, difference, atomsIn', atomsOut'⟩ :=
        withdrawShares_succeeds shares h h' u success
      refine covered_withdraw atoms.toNat shares.bits h h' covered ?_ total price difference
        atomsIn' atomsOut'
      rw [SharesTracker.sharesToAtoms_roundDown_ok, samePrice] at converted
      -- The atoms paid are worth at most the shares burned, at the exact exchange rate.
      have worth : (atoms.toNat : Int) * 2 ^ 128 ≤ shares.bits * tracker.atomsPerShare.bits := by
        rw [← converted]
        exact Int.ediv_mul_le _ (by norm_num)
      have unit : tracker.unitShares * tracker.atomsPerShare.bits ≤ 2 ^ 128 :=
        Int.ediv_mul_le _ positive.ne'
      have scaled : atoms.toNat * tracker.unitShares * tracker.atomsPerShare.bits ≤
          shares.bits * tracker.atomsPerShare.bits := by
        calc
          atoms.toNat * tracker.unitShares * tracker.atomsPerShare.bits =
              atoms.toNat * (tracker.unitShares * tracker.atomsPerShare.bits) := by ring
          _ ≤ atoms.toNat * 2 ^ 128 := by gcongr
          _ ≤ _ := worth
      exact le_of_mul_le_mul_right scaled positive

/-! The other direction: a deposit that gains, repeated, is a profit. -/

theorem one_atom (tracker : SharesTracker) :
    ((1 : U64).toNat * 2 ^ 128 / tracker.atomsPerShare.bits : Int) = tracker.unitShares := by
  have one : ((1 : U64).toNat : Int) = 1 := rfl
  rw [one, one_mul]
  rfl

theorem unitShares_lt (positive : 0 < tracker.atomsPerShare.bits) {atoms : Int}
    (nonneg : 0 ≤ atoms)
    (room : tracker.totalShares.bits + (atoms + 1) * tracker.unitShares < 2 ^ 128) :
    tracker.unitShares < 2 ^ 128 := by
  have base := tracker.totalShares.bits_nonneg
  have unit := unitShares_pos positive
  have first : tracker.unitShares ≤ (atoms + 1) * tracker.unitShares :=
    le_mul_of_one_le_left unit.le (by omega)
  omega

theorem withdraw_one (positive : 0 < tracker.atomsPerShare.bits)
    (small : tracker.unitShares < 2 ^ 128) {held : Int} {atomsIn atomsOut : Nat} {h : Holder}
    (position : At tracker (held + tracker.unitShares) atomsIn atomsOut h) (nonneg : 0 ≤ held) :
    At tracker held atomsIn (atomsOut + 1)
      (Machine.commit execute h (.withdrawAtoms 1)) := by
  have unit := unitShares_pos positive
  have total := h.tracker.totalShares.bits_lt
  have base := tracker.totalShares.bits_nonneg
  have positionTotal := position.total
  have positionShares := position.shares
  let burned : UFixedPoint := ⟨tracker.unitShares, unit.le, by rw [u64f64_maxBits]; omega⟩
  let after : Holder :=
    ⟨⟨⟨tracker.totalShares.bits + held, by rw [u64f64_minBits]; omega,
      by rw [u64f64_maxBits]; omega⟩, h.tracker.atomsPerShare⟩,
      ⟨held, nonneg, by rw [u64f64_maxBits]; omega⟩, h.atomsIn, h.atomsOut + 1⟩
  have success : (execute (.withdrawAtoms 1)).Succeeds h () after := by
    refine (withdraw_succeeds 1 h after ()).mpr ⟨burned, ?_, ?_, rfl, ?_, rfl, rfl⟩
    · rw [SharesTracker.atomsToShares_ok, position.price]
      exact ⟨positive.ne', one_atom tracker⟩
    · rw [position.total]
      simp only [after, burned]
      ring
    · rw [position.shares]
  rw [Machine.commit_of_succeeds execute success]
  exact ⟨position.price, rfl, rfl, position.atomsIn, by simp [after, position.atomsOut]⟩

theorem withdraw_ones (positive : 0 < tracker.atomsPerShare.bits)
    (small : tracker.unitShares < 2 ^ 128) {held : Int} (nonneg : 0 ≤ held) (count : Nat)
    {atomsIn atomsOut : Nat} {h : Holder}
    (position : At tracker (held + count * tracker.unitShares) atomsIn atomsOut h) :
    At tracker held atomsIn (atomsOut + count)
      (Machine.run execute h (List.replicate count (.withdrawAtoms 1))) := by
  induction count generalizing h atomsOut with
  | zero => simpa [Machine.run] using position
  | succ count ih =>
      have unit := unitShares_pos positive
      have grouped : held + ((count + 1 : Nat) : Int) * tracker.unitShares =
          held + count * tracker.unitShares + tracker.unitShares := by
        push_cast
        ring
      rw [grouped] at position
      have rest := ih (withdraw_one positive small position (by positivity))
      rw [List.replicate_succ, Machine.run_cons]
      simpa only [Nat.add_assoc, Nat.add_comm 1 count] using rest

theorem least_gain (positive : 0 < tracker.atomsPerShare.bits) (atoms : U64)
    (gains : tracker.atomsPerShare.bits ≤ atoms.toNat * tracker.unitLoss) :
    ∃ least : U64, least.toNat ≤ atoms.toNat ∧
      (least.toNat * 2 ^ 128 / tracker.atomsPerShare.bits : Int) =
        least.toNat * tracker.unitShares + 1 := by
  have exists_gain : ∃ n : Nat, tracker.atomsPerShare.bits ≤ n * tracker.unitLoss :=
    ⟨atoms.toNat, gains⟩
  classical
  have smallest := Nat.find_spec exists_gain
  have bounded : Nat.find exists_gain ≤ atoms.toNat := Nat.find_min' exists_gain gains
  have range := atoms.toNat_lt
  have cast : (UInt64.ofNat (Nat.find exists_gain)).toNat = Nat.find exists_gain :=
    U64.toNat_ofNat (by omega)
  refine ⟨UInt64.ofNat (Nat.find exists_gain), by omega, ?_⟩
  rw [cast, conversion_split positive]
  congr 1
  have loss : tracker.unitLoss < tracker.atomsPerShare.bits := Int.emod_lt_of_pos _ positive
  have nonzero : Nat.find exists_gain ≠ 0 := by
    intro zero
    rw [zero] at smallest
    simp only [Nat.cast_zero, zero_mul] at smallest
    omega
  obtain ⟨previous, succ⟩ := Nat.exists_eq_succ_of_ne_zero nonzero
  have below : ¬ tracker.atomsPerShare.bits ≤ previous * tracker.unitLoss :=
    Nat.find_min exists_gain (by omega)
  rw [succ] at smallest ⊢
  have expand : ((previous.succ : Nat) : Int) * tracker.unitLoss =
      previous * tracker.unitLoss + tracker.unitLoss := by
    push_cast
    ring
  rw [expand] at smallest ⊢
  apply le_antisymm
  · exact Int.lt_add_one_iff.mp (Int.ediv_lt_of_lt_mul positive (by omega))
  · exact Int.le_ediv_of_mul_le positive (by omega)

/-- One round: deposit, then withdraw the deposit atom by atom. One unit of shares stays. -/
theorem round_gains (positive : 0 < tracker.atomsPerShare.bits) (atoms : U64)
    (minted : (atoms.toNat * 2 ^ 128 / tracker.atomsPerShare.bits : Int) =
      atoms.toNat * tracker.unitShares + 1)
    (room : tracker.totalShares.bits + (atoms.toNat + 1) * tracker.unitShares < 2 ^ 128)
    {held : Int} (nonneg : 0 ≤ held) (below : held < tracker.unitShares) {moved : Nat}
    {h : Holder} (position : At tracker held moved moved h) :
    At tracker (held + 1) (moved + atoms.toNat) (moved + atoms.toNat)
      (Machine.run execute h
        (.depositAtoms atoms :: List.replicate atoms.toNat (.withdrawAtoms 1))) := by
  have unit := unitShares_pos positive
  have base := tracker.totalShares.bits_nonneg
  have small := unitShares_lt positive (by positivity) room
  have spent : 0 ≤ (atoms.toNat : Int) * tracker.unitShares := by positivity
  have expand : ((atoms.toNat : Int) + 1) * tracker.unitShares =
      atoms.toNat * tracker.unitShares + tracker.unitShares := by ring
  let shares : UFixedPoint := ⟨atoms.toNat * tracker.unitShares + 1, by rw [u64f64_minBits]; omega,
    by rw [u64f64_maxBits]; omega⟩
  let after : Holder :=
    ⟨⟨⟨tracker.totalShares.bits + (held + 1 + atoms.toNat * tracker.unitShares),
      by rw [u64f64_minBits]; omega, by rw [u64f64_maxBits]; omega⟩, h.tracker.atomsPerShare⟩,
      ⟨held + 1 + atoms.toNat * tracker.unitShares, by rw [u64f64_minBits]; omega,
        by rw [u64f64_maxBits]; omega⟩, h.atomsIn + atoms.toNat, h.atomsOut⟩
  have success : (execute (.depositAtoms atoms)).Succeeds h () after := by
    refine (deposit_succeeds atoms h after ()).mpr ⟨shares, ?_, ?_, rfl, ?_, rfl, rfl⟩
    · rw [SharesTracker.atomsToShares_ok, position.price]
      exact ⟨positive.ne', minted⟩
    · rw [position.total]
      simp only [after, shares]
      ring
    · rw [position.shares]
      simp only [after, shares]
      ring
  have deposited : At tracker (held + 1 + atoms.toNat * tracker.unitShares)
      (moved + atoms.toNat) moved (Machine.commit execute h (.depositAtoms atoms)) := by
    rw [Machine.commit_of_succeeds execute success]
    exact ⟨position.price, rfl, rfl, by simp [after, position.atomsIn], position.atomsOut⟩
  rw [Machine.run_cons]
  exact withdraw_ones positive small (by omega) atoms.toNat deposited

theorem rounds_accumulate (positive : 0 < tracker.atomsPerShare.bits) (atoms : U64)
    (minted : (atoms.toNat * 2 ^ 128 / tracker.atomsPerShare.bits : Int) =
      atoms.toNat * tracker.unitShares + 1)
    (room : tracker.totalShares.bits + (atoms.toNat + 1) * tracker.unitShares < 2 ^ 128)
    (rounds : Nat) (bound : (rounds : Int) ≤ tracker.unitShares) :
    ∃ operations moved,
      At tracker rounds moved moved (Machine.run execute (start tracker) operations) := by
  induction rounds with
  | zero => exact ⟨[], 0, start_at tracker⟩
  | succ rounds ih =>
      obtain ⟨operations, moved, position⟩ := ih (by omega)
      refine ⟨operations ++
        (.depositAtoms atoms :: List.replicate atoms.toNat (.withdrawAtoms 1)),
        moved + atoms.toNat, ?_⟩
      rw [Machine.run_append]
      exact round_gains positive atoms minted room (by omega) (by omega) position

theorem profit_of_gain (positive : 0 < tracker.atomsPerShare.bits) (atoms : U64)
    (gains : tracker.atomsPerShare.bits ≤ atoms.toNat * tracker.unitLoss)
    (room : tracker.totalShares.bits + (atoms.toNat + 1) * tracker.unitShares < 2 ^ 128) :
    ∃ operations, (Machine.run execute (start tracker) operations).atomsIn <
      (Machine.run execute (start tracker) operations).atomsOut := by
  have unit := unitShares_pos positive
  obtain ⟨least, bounded, minted⟩ := least_gain positive atoms gains
  have smaller : ((least.toNat : Int) + 1) * tracker.unitShares ≤
      (atoms.toNat + 1) * tracker.unitShares := by gcongr
  obtain ⟨operations, moved, position⟩ :=
    rounds_accumulate positive least minted (by omega) tracker.unitShares.toNat (by omega)
  have small := unitShares_lt positive (by positivity) room
  have whole : At tracker (0 + tracker.unitShares) moved moved
      (Machine.run execute (start tracker) operations) := by
    simpa [Int.toNat_of_nonneg unit.le] using position
  have last := withdraw_one positive small whole le_rfl
  refine ⟨operations ++ [.withdrawAtoms 1], ?_⟩
  rw [Machine.run_concat, last.atomsIn, last.atomsOut]
  omega

end Holder

/-- No sequence of deposits and withdrawals at a fixed exchange rate pays out more than was
put in exactly when no deposit that fits the tracker rounds less than its single atoms do. -/
theorem no_rounding_profit_iff (tracker : SharesTracker)
    (positive : 0 < tracker.atomsPerShare.bits) :
    (∀ operations : List HolderOperation,
      (Machine.run Holder.execute (Holder.start tracker) operations).atomsOut ≤
        (Machine.run Holder.execute (Holder.start tracker) operations).atomsIn) ↔
      tracker.RoundsEvenly := by
  constructor
  · intro safe atoms gains
    by_contra room
    obtain ⟨operations, profit⟩ := Holder.profit_of_gain positive atoms gains (by omega)
    have bounded := safe operations
    omega
  · intro even operations
    have initial : Holder.Covered tracker (Holder.start tracker) := by
      have unit := Holder.unitShares_pos positive
      exact ⟨0, 0, 0, Holder.start_at tracker, by simpa using unit⟩
    exact Holder.covered_out_le_in positive
      (Machine.run_invariant operations initial (Holder.covered_step positive even))

theorem no_rounding_profit_at_par :
    0 < SharesTracker.new.atomsPerShare.bits ∧
      ∀ operations : List HolderOperation,
        (Machine.run Holder.execute (Holder.start SharesTracker.new) operations).atomsOut ≤
          (Machine.run Holder.execute (Holder.start SharesTracker.new) operations).atomsIn := by
  refine ⟨by decide, (no_rounding_profit_iff SharesTracker.new (by decide)).mpr ?_⟩
  intro atoms gains
  have exact_rate : SharesTracker.new.unitLoss = 0 := by decide
  have price : SharesTracker.new.atomsPerShare.bits = 2 ^ 64 := by decide
  rw [exact_rate, price, mul_zero] at gains
  omega

def inflatedTracker : SharesTracker where
  totalShares := Fixed.zero
  atomsPerShare := ⟨3 * 2 ^ 126, by decide, by decide⟩

/-- Three atoms buy four units of shares there, and each unit pays for one atom. -/
theorem rounding_profit_of_one_atom :
    ¬ ∀ tracker : SharesTracker, 0 < tracker.atomsPerShare.bits →
      ∀ operations : List HolderOperation,
        (Machine.run Holder.execute (Holder.start tracker) operations).atomsOut ≤
          (Machine.run Holder.execute (Holder.start tracker) operations).atomsIn := by
  intro never_gains
  have bounded := never_gains inflatedTracker (by decide)
    (.depositAtoms 3 :: List.replicate 4 (.withdrawAtoms 1))
  have paid : (Machine.run Holder.execute (Holder.start inflatedTracker)
      (.depositAtoms 3 :: List.replicate 4 (.withdrawAtoms 1))).atomsOut = 4 := by decide +kernel
  have received : (Machine.run Holder.execute (Holder.start inflatedTracker)
      (.depositAtoms 3 :: List.replicate 4 (.withdrawAtoms 1))).atomsIn = 3 := by decide +kernel
  omega

end AutaraLending
