import AutaraLending.SharesTracker
import AutaraLending.MarketConfig

/-! The exact value of the shares of a tracker, in units of `2^-128` atoms, and how each call
moves it. Whole atoms are compared with it in the direction the call rounds. -/

namespace AutaraLending

open Support

namespace SharesTracker

def exactAtoms (t : SharesTracker) : Int := t.totalShares.bits * t.atomsPerShare.bits

theorem exactAtoms_nonneg (t : SharesTracker) : 0 ≤ t.exactAtoms :=
  mul_nonneg t.totalShares.bits_nonneg t.atomsPerShare.bits_nonneg

def conversionLoss (t : SharesTracker) (atoms : U64) : Int :=
  atoms.toNat * 2 ^ 128 % t.atomsPerShare.bits

theorem atomsToShares_exact (t : SharesTracker) (atoms : U64) (shares : UFixedPoint)
    (success : t.atomsToShares atoms = .ok shares) :
    shares.bits * t.atomsPerShare.bits = atoms.toNat * 2 ^ 128 - t.conversionLoss atoms ∧
      0 ≤ t.conversionLoss atoms := by
  obtain ⟨positive, quotient⟩ := (atomsToShares_ok _ _ _).mp success
  have split := Int.mul_ediv_add_emod (atoms.toNat * 2 ^ 128) t.atomsPerShare.bits
  rw [quotient] at split
  refine ⟨?_, Int.emod_nonneg _ positive⟩
  unfold conversionLoss
  linarith

theorem exactAtoms_of_minted (t t' : SharesTracker) (shares : UFixedPoint)
    (minted : t'.totalShares.bits = t.totalShares.bits + shares.bits)
    (price : t'.atomsPerShare = t.atomsPerShare) :
    t'.exactAtoms = t.exactAtoms + shares.bits * t.atomsPerShare.bits := by
  unfold exactAtoms
  rw [minted, price]
  ring

theorem exactAtoms_of_burned (t t' : SharesTracker) (shares : UFixedPoint)
    (burned : t.totalShares.bits = t'.totalShares.bits + shares.bits)
    (price : t'.atomsPerShare = t.atomsPerShare) :
    t.exactAtoms = t'.exactAtoms + shares.bits * t.atomsPerShare.bits := by
  unfold exactAtoms
  rw [burned, price]
  ring

theorem depositAtoms_exact (atoms : U64) (t t' : SharesTracker) (shares : UFixedPoint)
    (success : (depositAtoms atoms).Succeeds t shares t') :
    t'.exactAtoms = t.exactAtoms + atoms.toNat * 2 ^ 128 - t.conversionLoss atoms ∧
      0 ≤ t.conversionLoss atoms := by
  obtain ⟨converted, minted, price⟩ := (depositAtoms_succeeds _ _ _ _).mp success
  obtain ⟨value, nonneg⟩ := atomsToShares_exact _ _ _ converted
  have moved := exactAtoms_of_minted _ _ _ minted price
  exact ⟨by linarith, nonneg⟩

theorem withdrawAtoms_exact (atoms : U64) (t t' : SharesTracker) (shares : UFixedPoint)
    (success : (withdrawAtoms atoms).Succeeds t shares t') :
    t'.exactAtoms = t.exactAtoms - atoms.toNat * 2 ^ 128 + t.conversionLoss atoms ∧
      0 ≤ t.conversionLoss atoms := by
  obtain ⟨converted, burned, price⟩ := (withdrawAtoms_succeeds _ _ _ _).mp success
  obtain ⟨value, nonneg⟩ := atomsToShares_exact _ _ _ converted
  have moved := exactAtoms_of_burned _ _ _ burned price
  exact ⟨by linarith, nonneg⟩

theorem withdrawShares_roundDown_exact (shares : UFixedPoint) (t t' : SharesTracker) (atoms : U64)
    (success : (withdrawShares shares .roundDown).Succeeds t atoms t') :
    t'.exactAtoms ≤ t.exactAtoms - atoms.toNat * 2 ^ 128 ∧
      t.exactAtoms - (atoms.toNat + 1) * 2 ^ 128 ≤ t'.exactAtoms := by
  obtain ⟨converted, burned, price⟩ := (withdrawShares_succeeds _ _ _ _ _).mp success
  have floor_eq := (sharesToAtoms_roundDown_ok _ _ _).mp converted
  have moved := exactAtoms_of_burned _ _ _ burned price
  have below := Int.ediv_mul_le (shares.bits * t.atomsPerShare.bits)
    (by norm_num : (2 : Int) ^ 128 ≠ 0)
  have above := Int.lt_ediv_add_one_mul_self (shares.bits * t.atomsPerShare.bits)
    (by norm_num : (0 : Int) < 2 ^ 128)
  rw [floor_eq] at below above
  constructor
  · linarith
  · linarith

def roundedUp (exact : Int) : Int := (exact / 2 ^ 64 + (2 ^ 64 - 1)) / 2 ^ 64

theorem roundedUp_mono (a b : Int) (le : a ≤ b) : roundedUp a ≤ roundedUp b := by
  unfold roundedUp
  omega

theorem roundedUp_covers (exact : Int) : exact < roundedUp exact * 2 ^ 128 + 2 ^ 64 := by
  unfold roundedUp
  omega

theorem roundedUp_le (exact whole : Int) (le : exact ≤ whole * 2 ^ 128) :
    roundedUp exact ≤ whole := by
  unfold roundedUp
  omega

theorem sharesToAtoms_roundUp_le (t : SharesTracker) (shares : UFixedPoint) (atoms : U64)
    (success : t.sharesToAtoms shares .roundUp = .ok atoms) :
    (atoms.toNat : Int) ≤ roundedUp (shares.bits * t.atomsPerShare.bits) ∧
      ((atoms.toNat : Int) = roundedUp (shares.bits * t.atomsPerShare.bits) ∨
        (atoms.toNat = 2 ^ 64 - 1 ∧
          (2 ^ 64 - 1) * 2 ^ 128 < shares.bits * t.atomsPerShare.bits)) := by
  obtain ⟨small, value⟩ := (sharesToAtoms_roundUp_ok _ _ _).mp success
  unfold roundedUp
  generalize shares.bits * t.atomsPerShare.bits = x at *
  split at value
  · omega
  · omega

theorem totalAtoms_roundUp_le (t : SharesTracker) (atoms : U64)
    (success : t.totalAtoms .roundUp = .ok atoms) :
    (atoms.toNat : Int) ≤ roundedUp t.exactAtoms ∧
      ((atoms.toNat : Int) = roundedUp t.exactAtoms ∨
        (atoms.toNat = 2 ^ 64 - 1 ∧ (2 ^ 64 - 1) * 2 ^ 128 < t.exactAtoms)) :=
  sharesToAtoms_roundUp_le t t.totalShares atoms success

theorem totalAtoms_roundDown_eq (t : SharesTracker) (atoms : U64)
    (success : t.totalAtoms .roundDown = .ok atoms) :
    (atoms.toNat : Int) = t.exactAtoms / 2 ^ 128 :=
  ((sharesToAtoms_roundDown_ok t t.totalShares atoms).mp success).symm

theorem paid_covers (t t' : SharesTracker) (shares : UFixedPoint) (atoms : U64)
    (fits : t.exactAtoms ≤ (2 ^ 64 - 1) * 2 ^ 128)
    (burned : t.totalShares.bits = t'.totalShares.bits + shares.bits)
    (price : t'.atomsPerShare = t.atomsPerShare)
    (converted : t.sharesToAtoms shares .roundUp = .ok atoms) :
    t.exactAtoms < t'.exactAtoms + atoms.toNat * 2 ^ 128 + 2 ^ 64 := by
  have moved := exactAtoms_of_burned _ _ _ burned price
  have rest := t'.exactAtoms_nonneg
  have covers := roundedUp_covers (shares.bits * t.atomsPerShare.bits)
  rcases (sharesToAtoms_roundUp_le _ _ _ converted).2 with exact_up | ⟨-, saturated⟩
  · rw [← exact_up] at covers
    linarith
  · linarith

theorem withdrawShares_roundUp_exact (shares : UFixedPoint) (t t' : SharesTracker) (atoms : U64)
    (fits : t.exactAtoms ≤ (2 ^ 64 - 1) * 2 ^ 128)
    (success : (withdrawShares shares .roundUp).Succeeds t atoms t') :
    t.exactAtoms < t'.exactAtoms + atoms.toNat * 2 ^ 128 + 2 ^ 64 ∧
      t'.exactAtoms ≤ t.exactAtoms := by
  obtain ⟨converted, burned, price⟩ := (withdrawShares_succeeds _ _ _ _ _).mp success
  have moved := exactAtoms_of_burned _ _ _ burned price
  have nonneg := mul_nonneg shares.bits_nonneg t.atomsPerShare.bits_nonneg
  exact ⟨paid_covers _ _ _ _ fits burned price converted, by linarith⟩

theorem withdrawAtomsCapped_exact (atoms : U64) (maxShares : UFixedPoint) (t t' : SharesTracker)
    (paid : U64) (shares : UFixedPoint) (fits : t.exactAtoms ≤ (2 ^ 64 - 1) * 2 ^ 128)
    (success : (withdrawAtomsCapped atoms maxShares .roundUp).Succeeds t (paid, shares) t') :
    paid.toNat ≤ atoms.toNat ∧
      t.exactAtoms < t'.exactAtoms + paid.toNat * 2 ^ 128 + 2 ^ 64 ∧
      t'.exactAtoms ≤ t.exactAtoms := by
  obtain ⟨outcome, burned, price⟩ := (withdrawAtomsCapped_succeeds _ _ _ _ _ _ _).mp success
  have moved := exactAtoms_of_burned _ _ _ burned price
  have nonneg := mul_nonneg shares.bits_nonneg t.atomsPerShare.bits_nonneg
  rcases outcome with ⟨wanted, converted, exceeds, value, rfl⟩ | ⟨converted, -, rfl⟩
  · obtain ⟨wanted_eq, loss⟩ := atomsToShares_exact _ _ _ converted
    have fewer : shares.bits * t.atomsPerShare.bits ≤ wanted.bits * t.atomsPerShare.bits :=
      Int.mul_le_mul_of_nonneg_right (le_of_lt exceeds) t.atomsPerShare.bits_nonneg
    have at_most : roundedUp (shares.bits * t.atomsPerShare.bits) ≤ atoms.toNat :=
      roundedUp_le _ _ (by linarith)
    have rounded := (sharesToAtoms_roundUp_le _ _ _ value).1
    exact ⟨by omega, paid_covers _ _ _ _ fits burned price value, by linarith⟩
  · obtain ⟨value, loss⟩ := atomsToShares_exact _ _ _ converted
    exact ⟨le_rfl, by linarith, by linarith⟩

theorem donateAtoms_exact (atoms : U64) (t t' : SharesTracker) (u : Unit)
    (success : (donateAtoms atoms).Succeeds t u t') :
    t.exactAtoms ≤ t'.exactAtoms ∧ t'.exactAtoms ≤ t.exactAtoms + atoms.toNat * 2 ^ 128 := by
  obtain ⟨nonempty, price, shares⟩ := (donateAtoms_succeeds _ _ _ _).mp success
  have split := Int.mul_ediv_add_emod (atoms.toNat * 2 ^ 128) t.totalShares.bits
  have dropped := Int.emod_nonneg (atoms.toNat * 2 ^ 128) nonempty
  have raised : 0 ≤ t.totalShares.bits * (atoms.toNat * 2 ^ 128 / t.totalShares.bits) :=
    mul_nonneg t.totalShares.bits_nonneg
      (Int.ediv_nonneg (by positivity) t.totalShares.bits_nonneg)
  have moved : t'.exactAtoms =
      t.exactAtoms + t.totalShares.bits * (atoms.toNat * 2 ^ 128 / t.totalShares.bits) := by
    unfold exactAtoms
    rw [price, shares]
    ring
  constructor
  · linarith
  · linarith

def spreadLoss (t : SharesTracker) (atoms : U64) : Int :=
  atoms.toNat * 2 ^ 128 % t.totalShares.bits

theorem socializeLossAtoms_exact (atoms : U64) (t t' : SharesTracker) (u : Unit)
    (success : (socializeLossAtoms atoms).Succeeds t u t') :
    t'.exactAtoms = t.exactAtoms - atoms.toNat * 2 ^ 128 + t.spreadLoss atoms := by
  obtain ⟨-, price, shares⟩ := (socializeLossAtoms_succeeds _ _ _ _).mp success
  have split := Int.mul_ediv_add_emod (atoms.toNat * 2 ^ 128) t.totalShares.bits
  have moved : t.exactAtoms =
      t'.exactAtoms + t.totalShares.bits * (atoms.toNat * 2 ^ 128 / t.totalShares.bits) := by
    unfold exactAtoms
    rw [← price, shares]
    ring
  unfold spreadLoss
  linarith

def droppedPrice (rate price : Int) : Int :=
  rate * (price / 2 ^ 16) % 2 ^ 48 * 2 ^ 16 + (2 ^ 48 + rate) * (price % 2 ^ 16)

theorem scaledPrice_eq (rate price : Int) :
    2 ^ 48 * ((rate * (price / 2 ^ 16) / 2 ^ 48 + price / 2 ^ 16) * 2 ^ 16) =
      (2 ^ 48 + rate) * price - droppedPrice rate price := by
  have cut := Int.mul_ediv_add_emod (rate * (price / 2 ^ 16)) (2 ^ 48)
  have split : (2 ^ 48 + rate) * price =
      (2 ^ 48 + rate) * (2 ^ 16 * (price / 2 ^ 16) + price % 2 ^ 16) := by
    rw [Int.mul_ediv_add_emod]
  unfold droppedPrice
  rw [split]
  linarith

theorem droppedPrice_nonneg (rate price : Int) (nonneg : 0 ≤ rate) :
    0 ≤ droppedPrice rate price := by
  have cut := Int.emod_nonneg (rate * (price / 2 ^ 16)) (by norm_num : (2 : Int) ^ 48 ≠ 0)
  have grid := mul_nonneg (by omega : (0 : Int) ≤ 2 ^ 48 + rate)
    (Int.emod_nonneg price (by norm_num : (2 : Int) ^ 16 ≠ 0))
  unfold droppedPrice
  omega

theorem droppedPrice_bounds (rate price : Int) (aligned : price % 2 ^ 16 = 0) :
    0 ≤ droppedPrice rate price ∧ droppedPrice rate price < 2 ^ 64 := by
  have below := Int.emod_nonneg (rate * (price / 2 ^ 16)) (by norm_num : (2 : Int) ^ 48 ≠ 0)
  have above := Int.emod_lt_of_pos (rate * (price / 2 ^ 16)) (by norm_num : (0 : Int) < 2 ^ 48)
  unfold droppedPrice
  rw [aligned, mul_zero, add_zero]
  omega

theorem applyInterestRate_exactAtoms (rate : InterestRate) (t t' : SharesTracker) (u : Unit)
    (success : (applyInterestRate rate).Succeeds t u t') :
    2 ^ 48 * t'.exactAtoms = (2 ^ 48 + rate.rate.bits) * t.exactAtoms -
      droppedPrice rate.rate.bits t.atomsPerShare.bits * t.totalShares.bits := by
  rcases applyInterestRate_succeeds _ _ _ _ success with ⟨empty, rfl⟩ | ⟨-, shares, price_eq⟩
  · unfold exactAtoms
    rw [empty]
    ring
  · have scaled := scaledPrice_eq rate.rate.bits t.atomsPerShare.bits
    rw [← price_eq] at scaled
    unfold exactAtoms
    rw [shares]
    calc
      2 ^ 48 * (t.totalShares.bits * t'.atomsPerShare.bits) =
          t.totalShares.bits * (2 ^ 48 * t'.atomsPerShare.bits) := by ring
      _ = _ := by
        rw [scaled]
        ring

theorem applyInterestRate_exact (rate : InterestRate) (t t' : SharesTracker) (u : Unit)
    (grain : t.atomsPerShare.bits % 2 ^ 16 = 0)
    (success : (applyInterestRate rate).Succeeds t u t') :
    t'.atomsPerShare.bits % 2 ^ 16 = 0 ∧
      2 ^ 48 * t'.exactAtoms ≤ (2 ^ 48 + rate.rate.bits) * t.exactAtoms ∧
      (2 ^ 48 + rate.rate.bits) * t.exactAtoms - 2 ^ 64 * t.totalShares.bits ≤
        2 ^ 48 * t'.exactAtoms := by
  have exact_eq := applyInterestRate_exactAtoms _ _ _ _ success
  obtain ⟨nonneg, small⟩ := droppedPrice_bounds rate.rate.bits _ grain
  have total := t.totalShares.bits_nonneg
  have lost := mul_nonneg nonneg total
  have lost_le := Int.mul_le_mul_of_nonneg_right small.le total
  refine ⟨?_, by linarith, by linarith⟩
  rcases applyInterestRate_succeeds _ _ _ _ success with ⟨-, rfl⟩ | ⟨-, -, price_eq⟩
  · exact grain
  · rw [price_eq]
    omega

/-- What an accrual with a fee loses, times `2^48`: of the rate that the fee leaves, of the new
price and of the shares minted for the fee. -/
def accrualDropped (t : SharesTracker) (rate : InterestRate) (fee : UFixedPoint) : Int :=
  let atoms := t.exactAtoms / 2 ^ 128
  let feeAtoms := rate.rate.bits * atoms * (fee.bits / 2 ^ 16) / 2 ^ 48
  let netRate := (rate.rate.bits * atoms - feeAtoms) / atoms
  let price := netRate * (t.atomsPerShare.bits / 2 ^ 16) / 2 ^ 48 + t.atomsPerShare.bits / 2 ^ 16
  (rate.rate.bits * atoms - feeAtoms) % atoms * 2 ^ 128 +
    droppedPrice netRate t.atomsPerShare.bits * t.totalShares.bits +
    feeAtoms * 2 ^ 48 % price * 2 ^ 80

theorem accrualDropped_of_idle (t : SharesTracker) {rate : InterestRate} (fee : UFixedPoint)
    (idle : rate.rate.bits = 0) : 0 ≤ t.accrualDropped rate fee := by
  unfold accrualDropped
  simp only [idle, zero_mul, Int.zero_ediv, sub_self, Int.zero_emod, zero_add, add_zero]
  exact mul_nonneg (droppedPrice_nonneg _ _ le_rfl) t.totalShares.bits_nonneg

namespace FeeAccrual

variable {t t' : SharesTracker} {rate : InterestRate} {fee feeShares : UFixedPoint}
  {totalAtoms : U64}

theorem fee_bounds (accrual : FeeAccrual t t' rate fee feeShares totalAtoms)
    (whole : fee.bits ≤ 2 ^ 64) :
    0 ≤ accrual.feeAtoms ∧ 0 ≤ accrual.netRate ∧
      accrual.netRate * totalAtoms.toNat ≤
        rate.rate.bits * totalAtoms.toNat - accrual.feeAtoms ∧
      rate.rate.bits * totalAtoms.toNat - accrual.feeAtoms <
        (accrual.netRate + 1) * totalAtoms.toNat := by
  have atoms_pos : (0 : Int) < totalAtoms.toNat := by exact_mod_cast accrual.atoms_pos
  have fee_nonneg := fee.bits_nonneg
  have interest_nonneg : 0 ≤ rate.rate.bits * totalAtoms.toNat :=
    mul_nonneg accrual.rate_nonneg atoms_pos.le
  have feeAtoms_nonneg : 0 ≤ accrual.feeAtoms := by
    rw [accrual.feeAtoms_eq]
    exact Int.ediv_nonneg (mul_nonneg interest_nonneg (by omega)) (by norm_num)
  have feeAtoms_le : accrual.feeAtoms ≤ rate.rate.bits * totalAtoms.toNat := by
    have scaled : rate.rate.bits * totalAtoms.toNat * (fee.bits / 2 ^ 16) ≤
        rate.rate.bits * totalAtoms.toNat * 2 ^ 48 :=
      Int.mul_le_mul_of_nonneg_left (by omega) interest_nonneg
    rw [accrual.feeAtoms_eq]
    omega
  have net_nonneg : 0 ≤ rate.rate.bits * totalAtoms.toNat - accrual.feeAtoms := by omega
  have netRate_eq := accrual.netRate_eq
  rw [Int.tdiv_eq_ediv_of_nonneg net_nonneg] at netRate_eq
  have below := Int.ediv_mul_le (rate.rate.bits * totalAtoms.toNat - accrual.feeAtoms)
    atoms_pos.ne'
  have above := Int.lt_ediv_add_one_mul_self
    (rate.rate.bits * totalAtoms.toNat - accrual.feeAtoms) atoms_pos
  rw [← netRate_eq] at below above
  refine ⟨feeAtoms_nonneg, ?_, below, above⟩
  rw [netRate_eq]
  exact Int.ediv_nonneg net_nonneg atoms_pos.le

theorem price_grid (accrual : FeeAccrual t t' rate fee feeShares totalAtoms) :
    t'.atomsPerShare.bits = t'.atomsPerShare.bits / 2 ^ 16 * 2 ^ 16 ∧
      0 < t'.atomsPerShare.bits / 2 ^ 16 := by
  have aligned : t'.atomsPerShare.bits = t'.atomsPerShare.bits / 2 ^ 16 * 2 ^ 16 := by
    rw [accrual.price_eq]
    omega
  have price_nonneg := t'.atomsPerShare.bits_nonneg
  have price_ne := accrual.price_pos
  exact ⟨aligned, by omega⟩

theorem feeShares_value (accrual : FeeAccrual t t' rate fee feeShares totalAtoms)
    (feeAtoms_nonneg : 0 ≤ accrual.feeAtoms) :
    feeShares.bits * t'.atomsPerShare.bits = accrual.feeAtoms * 2 ^ 80 -
      accrual.feeAtoms * 2 ^ 48 % (t'.atomsPerShare.bits / 2 ^ 16) * 2 ^ 32 := by
  obtain ⟨aligned, -⟩ := accrual.price_grid
  have shares_eq := accrual.feeShares_eq
  rw [Int.tdiv_eq_ediv_of_nonneg (by positivity)] at shares_eq
  have split := Int.mul_ediv_add_emod (accrual.feeAtoms * 2 ^ 48) (t'.atomsPerShare.bits / 2 ^ 16)
  calc
    feeShares.bits * t'.atomsPerShare.bits =
        accrual.feeAtoms * 2 ^ 48 / (t'.atomsPerShare.bits / 2 ^ 16) * 2 ^ 16 *
          (t'.atomsPerShare.bits / 2 ^ 16 * 2 ^ 16) := by rw [← aligned, shares_eq]
    _ = _ := by linarith

theorem feeShares_le (accrual : FeeAccrual t t' rate fee feeShares totalAtoms)
    (feeAtoms_nonneg : 0 ≤ accrual.feeAtoms) :
    feeShares.bits * t'.atomsPerShare.bits ≤ accrual.feeAtoms * 2 ^ 80 := by
  have lost := Int.emod_nonneg (accrual.feeAtoms * 2 ^ 48) accrual.price_pos
  rw [accrual.feeShares_value feeAtoms_nonneg]
  omega

theorem exactAtoms_eq (accrual : FeeAccrual t t' rate fee feeShares totalAtoms) :
    t'.exactAtoms = t.totalShares.bits * t'.atomsPerShare.bits +
      feeShares.bits * t'.atomsPerShare.bits := by
  unfold exactAtoms
  rw [accrual.totalShares_eq]
  ring

theorem scaled_price (accrual : FeeAccrual t t' rate fee feeShares totalAtoms) :
    2 ^ 48 * t'.atomsPerShare.bits = (2 ^ 48 + accrual.netRate) * t.atomsPerShare.bits -
      droppedPrice accrual.netRate t.atomsPerShare.bits := by
  rw [accrual.price_eq]
  exact scaledPrice_eq _ _

theorem netRate_le (accrual : FeeAccrual t t' rate fee feeShares totalAtoms)
    (whole : fee.bits ≤ 2 ^ 64) : accrual.netRate ≤ rate.rate.bits := by
  obtain ⟨feeAtoms_nonneg, -, net_le, -⟩ := accrual.fee_bounds whole
  have atoms_pos : (0 : Int) < totalAtoms.toNat := by exact_mod_cast accrual.atoms_pos
  exact le_of_mul_le_mul_right (by linarith) atoms_pos

theorem exactAtoms_le (accrual : FeeAccrual t t' rate fee feeShares totalAtoms)
    (whole : fee.bits ≤ 2 ^ 64) (atoms_eq : (totalAtoms.toNat : Int) = t.exactAtoms / 2 ^ 128) :
    2 ^ 48 * t'.exactAtoms ≤ (2 ^ 48 + rate.rate.bits) * t.exactAtoms := by
  obtain ⟨feeAtoms_nonneg, netRate_nonneg, net_le, -⟩ := accrual.fee_bounds whole
  have fee_value := accrual.feeShares_le feeAtoms_nonneg
  have scaled := accrual.scaled_price
  have lost := droppedPrice_nonneg accrual.netRate t.atomsPerShare.bits netRate_nonneg
  have price := Int.mul_le_mul_of_nonneg_left
    (by linarith : 2 ^ 48 * t'.atomsPerShare.bits ≤
      (2 ^ 48 + accrual.netRate) * t.atomsPerShare.bits) t.totalShares.bits_nonneg
  have credited : accrual.feeAtoms * 2 ^ 128 ≤
      (rate.rate.bits - accrual.netRate) * t.exactAtoms := by
    have gap : 0 ≤ rate.rate.bits - accrual.netRate := by
      have bounded := accrual.netRate_le whole
      omega
    have covered := Int.mul_le_mul_of_nonneg_left
      (by omega : (totalAtoms.toNat : Int) * 2 ^ 128 ≤ t.exactAtoms) gap
    linarith
  have old : t.totalShares.bits * t.atomsPerShare.bits = t.exactAtoms := rfl
  rw [accrual.exactAtoms_eq]
  calc
    2 ^ 48 * (t.totalShares.bits * t'.atomsPerShare.bits +
          feeShares.bits * t'.atomsPerShare.bits) ≤
        (2 ^ 48 + accrual.netRate) * t.exactAtoms + accrual.feeAtoms * 2 ^ 128 := by
      rw [← old]
      linarith
    _ ≤ (2 ^ 48 + rate.rate.bits) * t.exactAtoms := by linarith

theorem dropped_eq (accrual : FeeAccrual t t' rate fee feeShares totalAtoms)
    (net_nonneg : 0 ≤ rate.rate.bits * totalAtoms.toNat - accrual.feeAtoms)
    (atoms_eq : (totalAtoms.toNat : Int) = t.exactAtoms / 2 ^ 128) :
    t.accrualDropped rate fee =
      (rate.rate.bits * totalAtoms.toNat - accrual.feeAtoms) % totalAtoms.toNat * 2 ^ 128 +
        droppedPrice accrual.netRate t.atomsPerShare.bits * t.totalShares.bits +
        accrual.feeAtoms * 2 ^ 48 % (t'.atomsPerShare.bits / 2 ^ 16) * 2 ^ 80 := by
  have netRate_eq := accrual.netRate_eq
  rw [Int.tdiv_eq_ediv_of_nonneg net_nonneg] at netRate_eq
  have grid : t'.atomsPerShare.bits / 2 ^ 16 =
      accrual.netRate * (t.atomsPerShare.bits / 2 ^ 16) / 2 ^ 48 +
        t.atomsPerShare.bits / 2 ^ 16 := by
    rw [accrual.price_eq]
    exact Int.mul_ediv_cancel _ (by norm_num)
  unfold accrualDropped
  dsimp only
  rw [← atoms_eq, ← accrual.feeAtoms_eq, ← netRate_eq, ← grid]

/-- They are credited at least the rate on the whole atoms, less what the accrual loses. -/
theorem exactAtoms_ge (accrual : FeeAccrual t t' rate fee feeShares totalAtoms)
    (whole : fee.bits ≤ 2 ^ 64) (atoms_eq : (totalAtoms.toNat : Int) = t.exactAtoms / 2 ^ 128) :
    2 ^ 48 * t.exactAtoms + rate.rate.bits * totalAtoms.toNat * 2 ^ 128 -
        t.accrualDropped rate fee ≤ 2 ^ 48 * t'.exactAtoms := by
  obtain ⟨feeAtoms_nonneg, netRate_nonneg, net_le, -⟩ := accrual.fee_bounds whole
  have net_nonneg : 0 ≤ rate.rate.bits * totalAtoms.toNat - accrual.feeAtoms :=
    le_trans (mul_nonneg netRate_nonneg (by omega)) net_le
  have netRate_eq := accrual.netRate_eq
  rw [Int.tdiv_eq_ediv_of_nonneg net_nonneg] at netRate_eq
  have net := Int.mul_ediv_add_emod (rate.rate.bits * totalAtoms.toNat - accrual.feeAtoms)
    totalAtoms.toNat
  rw [← netRate_eq] at net
  have fee_value := accrual.feeShares_value feeAtoms_nonneg
  have price := accrual.scaled_price
  have credited := Int.mul_le_mul_of_nonneg_left
    (by omega : (totalAtoms.toNat : Int) * 2 ^ 128 ≤ t.exactAtoms) netRate_nonneg
  have old : t.totalShares.bits * t.atomsPerShare.bits = t.exactAtoms := rfl
  rw [accrual.dropped_eq net_nonneg atoms_eq]
  calc
    _ ≤ t.totalShares.bits * ((2 ^ 48 + accrual.netRate) * t.atomsPerShare.bits -
          droppedPrice accrual.netRate t.atomsPerShare.bits) +
        2 ^ 48 * (accrual.feeAtoms * 2 ^ 80 -
          accrual.feeAtoms * 2 ^ 48 % (t'.atomsPerShare.bits / 2 ^ 16) * 2 ^ 32) := by
      rw [← old] at credited ⊢
      linarith
    _ = 2 ^ 48 * t'.exactAtoms := by
      rw [← price, ← fee_value, accrual.exactAtoms_eq]
      ring

end FeeAccrual

/-- Both bounds for an accrual, also when the tracker holds no whole atom and nothing moves. -/
theorem applyInterestRateWithFee_exact (rate : InterestRate) (fee feeShares : UFixedPoint)
    (t t' : SharesTracker) (whole : fee.bits ≤ 2 ^ 64) (totalAtoms : U64)
    (total : t.totalAtoms .roundDown = .ok totalAtoms)
    (success : (applyInterestRateWithFee rate fee).Succeeds t feeShares t') :
    (totalAtoms.toNat = 0 ∧ t'.exactAtoms = t.exactAtoms) ∨
      (0 ≤ rate.rate.bits ∧
        2 ^ 48 * t'.exactAtoms ≤ (2 ^ 48 + rate.rate.bits) * t.exactAtoms ∧
        2 ^ 48 * t.exactAtoms + rate.rate.bits * totalAtoms.toNat * 2 ^ 128 -
            t.accrualDropped rate fee ≤ 2 ^ 48 * t'.exactAtoms) := by
  obtain ⟨counted, counted_ok, outcome⟩ := applyInterestRateWithFee_succeeds _ _ _ _ _ success
  obtain rfl := Except.ok.inj (total.symm.trans counted_ok)
  have atoms_eq := totalAtoms_roundDown_eq _ _ total
  rcases outcome with ⟨none, -, rfl⟩ | ⟨⟨accrual⟩⟩
  · exact Or.inl ⟨none, rfl⟩
  · exact Or.inr ⟨accrual.rate_nonneg, accrual.exactAtoms_le whole atoms_eq,
      accrual.exactAtoms_ge whole atoms_eq⟩

end SharesTracker

end AutaraLending
