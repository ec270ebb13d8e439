import AutaraLending.SafeMath

namespace AutaraLending

open Support

/-- An interest rate over a whole period. -/
structure InterestRate where
  rate : IFixedPoint
  deriving DecidableEq

def InterestRate.interestUFixed (self : InterestRate) (value : UFixedPoint) :
    LendingResult IFixedPoint :=
  IFixedPoint.safeMulUFixed self.rate value

def InterestRate.interestU64 (self : InterestRate) (value : U64) : LendingResult IFixedPoint :=
  self.rate.safeMulU64 value

def InterestRate.adjustForUtilisationRate (self : InterestRate) (utilisationRate : IFixedPoint) :
    LendingResult InterestRate :=
  InterestRate.mk <$> self.rate.safeMul utilisationRate

structure SharesTracker where
  totalShares : UFixedPoint
  atomsPerShare : UFixedPoint
  deriving DecidableEq

namespace SharesTracker

def new : SharesTracker := ⟨Fixed.fromU64 0, Fixed.fromU64 1⟩

def atomsToShares (self : SharesTracker) (atoms : U64) : LendingResult UFixedPoint :=
  (Fixed.fromU64 atoms : UFixedPoint).safeDiv self.atomsPerShare

def sharesToAtoms (self : SharesTracker) (shares : UFixedPoint) (rounding : RoundingMode) :
    LendingResult U64 := do
  let x ← shares.safeMul self.atomsPerShare
  x.asU64Rounded rounding

def totalAtoms (self : SharesTracker) (rounding : RoundingMode) : LendingResult U64 := do
  let x ← self.totalShares.safeMul self.atomsPerShare
  x.asU64Rounded rounding

def depositAtoms (atoms : U64) : LendingMethod SharesTracker UFixedPoint := do
  let self ← Method.self
  let shares ← Method.lift (self.atomsToShares atoms)
  let totalShares ← Method.lift (self.totalShares.safeAdd shares)
  Method.assign { self with totalShares }
  pure shares

def burn (shares : UFixedPoint) : LendingMethod SharesTracker Unit := do
  let self ← Method.self
  let totalShares ← Method.lift (mapErr .sharesOverflow (self.totalShares.safeSub shares))
  Method.assign { self with totalShares }

def withdrawAtoms (atoms : U64) : LendingMethod SharesTracker UFixedPoint := do
  let self ← Method.self
  let shares ← Method.lift (self.atomsToShares atoms)
  burn shares
  pure shares

def withdrawAtomsCapped (atoms : U64) (maxShares : UFixedPoint) (rounding : RoundingMode) :
    LendingMethod SharesTracker (U64 × UFixedPoint) := do
  let self ← Method.self
  let shares ← Method.lift (self.atomsToShares atoms)
  if maxShares < shares then do
    let atoms ← Method.lift (self.sharesToAtoms maxShares rounding)
    burn maxShares
    pure (atoms, maxShares)
  else do
    burn shares
    pure (atoms, shares)

def withdrawShares (shares : UFixedPoint) (rounding : RoundingMode) :
    LendingMethod SharesTracker U64 := do
  let self ← Method.self
  let atoms ← Method.lift (self.sharesToAtoms shares rounding)
  burn shares
  pure atoms

def applyInterestRate (interestRate : InterestRate) : LendingMethod SharesTracker Unit := do
  let self ← Method.self
  if self.totalShares.isZero then pure ()
  else do
    let interest ← Method.lift (interestRate.interestUFixed self.atomsPerShare)
    let grown ← Method.lift (IFixedPoint.safeAddUFixed interest self.atomsPerShare)
    let atomsPerShare ← Method.lift (UFixedPoint.tryFrom grown)
    Method.assign { self with atomsPerShare }

def applyInterestRateWithFee (interestRate : InterestRate) (fee : UFixedPoint) :
    LendingMethod SharesTracker UFixedPoint := do
  let self ← Method.self
  let totalAtomsBefore ← Method.lift (self.totalAtoms .roundDown)
  if totalAtomsBefore.toNat = 0 then pure (Fixed.fromU64 0)
  else if interestRate.rate.isNegative then do
    applyInterestRate interestRate
    Method.fail LendingError.negativeInterestRate.into
  else do
    let interestAtoms ← Method.lift (interestRate.interestU64 totalAtomsBefore)
    let feeAtoms ← Method.lift (IFixedPoint.safeMulUFixed interestAtoms fee)
    let netInterestAtoms ← Method.lift (interestAtoms.safeSub feeAtoms)
    let netInterestRate ← Method.lift (netInterestAtoms.safeDivU64 totalAtomsBefore)
    let netInterestAtomsPerShare ←
      Method.lift (IFixedPoint.safeMulUFixed netInterestRate self.atomsPerShare)
    let grown ←
      Method.lift (IFixedPoint.safeAddUFixed netInterestAtomsPerShare self.atomsPerShare)
    let atomsPerShare ← Method.lift (UFixedPoint.tryFrom grown)
    Method.assign { self with atomsPerShare }
    let quotient ← Method.lift (IFixedPoint.safeDivUFixed feeAtoms atomsPerShare)
    let feeShares ← Method.lift (UFixedPoint.tryFrom quotient)
    let totalShares ← Method.lift (feeShares.safeAdd self.totalShares)
    Method.assign { totalShares, atomsPerShare }
    pure feeShares

def donateAtoms (atoms : U64) : LendingMethod SharesTracker Unit := do
  let self ← Method.self
  Method.rejectIf (self.totalShares.isZero = true)
    (LendingError.cantModifySharePriceIfZeroShares.withMsg "donate")
  let additionalAtomsPerShare ←
    Method.lift ((Fixed.fromU64 atoms : UFixedPoint).safeDiv self.totalShares)
  let atomsPerShare ← Method.lift (self.atomsPerShare.safeAdd additionalAtomsPerShare)
  Method.assign { self with atomsPerShare }

def socializeLossAtoms (atoms : U64) : LendingMethod SharesTracker Unit := do
  let self ← Method.self
  Method.rejectIf (self.totalShares.isZero = true)
    (LendingError.cantModifySharePriceIfZeroShares.withMsg "socialize_loss")
  let lostAtomsPerShare ←
    Method.lift ((Fixed.fromU64 atoms : UFixedPoint).safeDiv self.totalShares)
  let atomsPerShare ← Method.lift (self.atomsPerShare.safeSub lostAtomsPerShare)
  Method.assign { self with atomsPerShare }

/-! What a successful call computes and stores. -/

theorem ext_fields {a b : SharesTracker} (shares : a.totalShares.bits = b.totalShares.bits)
    (price : a.atomsPerShare = b.atomsPerShare) : a = b := by
  cases a
  cases b
  cases price
  cases Fixed.ext_bits shares
  rfl

theorem atomsToShares_ok (self : SharesTracker) (atoms : U64) (shares : UFixedPoint) :
    self.atomsToShares atoms = .ok shares ↔
      self.atomsPerShare.bits ≠ 0 ∧ atoms.toNat * 2 ^ 128 / self.atomsPerShare.bits =
        shares.bits := by
  have scaled : ((atoms.toNat : Int) * 2 ^ 64) * 2 ^ 64 = atoms.toNat * 2 ^ 128 := by ring
  have nonneg : (0 : Int) ≤ atoms.toNat * 2 ^ 128 := by positivity
  simp only [atomsToShares, Fixed.safeDiv_ok, Fixed.fromU64_bits, u64f64_frac, scaled,
    Int.tdiv_eq_ediv_of_nonneg nonneg]

theorem sharesToAtoms_roundDown_ok (self : SharesTracker) (shares : UFixedPoint) (atoms : U64) :
    self.sharesToAtoms shares .roundDown = .ok atoms ↔
      shares.bits * self.atomsPerShare.bits / 2 ^ 128 = atoms.toNat := by
  have range := atoms.toNat_lt
  have nonneg : 0 ≤ shares.bits * self.atomsPerShare.bits :=
    mul_nonneg shares.bits_nonneg self.atomsPerShare.bits_nonneg
  simp only [sharesToAtoms, except_bind_ok, Fixed.safeMul_ok, Fixed.asU64Rounded_roundDown_ok,
    Fixed.floor, u64f64_frac]
  constructor
  · rintro ⟨x, product, floor_eq⟩
    omega
  · intro floor_eq
    refine ⟨⟨shares.bits * self.atomsPerShare.bits / 2 ^ 64, ?_, ?_⟩, rfl, ?_⟩
    · rw [u64f64_minBits]
      omega
    · rw [u64f64_maxBits]
      omega
    · dsimp only
      omega

theorem sharesToAtoms_roundUp_ok (self : SharesTracker) (shares : UFixedPoint) (atoms : U64) :
    self.sharesToAtoms shares .roundUp = .ok atoms ↔
      shares.bits * self.atomsPerShare.bits / 2 ^ 64 < 2 ^ 128 ∧
        (atoms.toNat : Int) =
          if shares.bits * self.atomsPerShare.bits / 2 ^ 64 % 2 ^ 64 = 0 then
            shares.bits * self.atomsPerShare.bits / 2 ^ 128
          else min (shares.bits * self.atomsPerShare.bits / 2 ^ 128 + 1) (2 ^ 64 - 1) := by
  have nonneg : 0 ≤ shares.bits * self.atomsPerShare.bits :=
    mul_nonneg shares.bits_nonneg self.atomsPerShare.bits_nonneg
  have nested : shares.bits * self.atomsPerShare.bits / 2 ^ 64 / 2 ^ 64 =
      shares.bits * self.atomsPerShare.bits / 2 ^ 128 := by omega
  simp only [sharesToAtoms, except_bind_ok, Fixed.safeMul_ok, Fixed.asU64Rounded_roundUp_ok,
    Fixed.asU64RoundedUp_ok, Fixed.floor, u64f64_frac]
  constructor
  · rintro ⟨x, product, -, -, value⟩
    rw [← product, nested] at value
    exact ⟨product ▸ UFixedPoint.bits_lt x, value⟩
  · rintro ⟨small, value⟩
    refine ⟨⟨shares.bits * self.atomsPerShare.bits / 2 ^ 64, ?_, ?_⟩, rfl, ?_, ?_, ?_⟩
    · rw [u64f64_minBits]
      omega
    · rw [u64f64_maxBits]
      omega
    · dsimp only
      omega
    · dsimp only
      omega
    · dsimp only
      rw [nested]
      exact value

theorem burn_succeeds (shares : UFixedPoint) (t t' : SharesTracker) (u : Unit) :
    (burn shares).Succeeds t u t' ↔
      t.totalShares.bits = t'.totalShares.bits + shares.bits ∧
        t'.atomsPerShare = t.atomsPerShare := by
  simp only [burn, Method.succeeds_bind, Method.succeeds_self, Method.succeeds_lift,
    Method.succeeds_assign, mapErr_ok, Fixed.safeSub_ok]
  constructor
  · rintro ⟨_, _, ⟨rfl, rfl⟩, total, _, ⟨difference, rfl⟩, rfl⟩
    exact ⟨by dsimp only; omega, rfl⟩
  · rintro ⟨difference, price⟩
    refine ⟨t, t, ⟨rfl, rfl⟩, t'.totalShares, t, ⟨by omega, rfl⟩, ?_⟩
    exact ext_fields rfl price.symm

theorem depositAtoms_succeeds (atoms : U64) (t t' : SharesTracker) (shares : UFixedPoint) :
    (depositAtoms atoms).Succeeds t shares t' ↔
      t.atomsToShares atoms = .ok shares ∧
        t'.totalShares.bits = t.totalShares.bits + shares.bits ∧
        t'.atomsPerShare = t.atomsPerShare := by
  simp only [depositAtoms, Method.succeeds_bind, Method.succeeds_self, Method.succeeds_lift,
    Method.succeeds_assign, Method.succeeds_pure, Fixed.safeAdd_ok]
  constructor
  · rintro ⟨_, _, ⟨rfl, rfl⟩, _, _, ⟨minted, rfl⟩, total, _, ⟨sum, rfl⟩, _, _, rfl, rfl, rfl⟩
    exact ⟨minted, sum.symm, rfl⟩
  · rintro ⟨minted, sum, price⟩
    refine ⟨t, t, ⟨rfl, rfl⟩, shares, t, ⟨minted, rfl⟩, t'.totalShares, t, ⟨sum.symm, rfl⟩,
      (), t', ?_, rfl, rfl⟩
    exact ext_fields rfl price.symm

theorem withdrawAtoms_succeeds (atoms : U64) (t t' : SharesTracker) (shares : UFixedPoint) :
    (withdrawAtoms atoms).Succeeds t shares t' ↔
      t.atomsToShares atoms = .ok shares ∧
        t.totalShares.bits = t'.totalShares.bits + shares.bits ∧
        t'.atomsPerShare = t.atomsPerShare := by
  simp only [withdrawAtoms, Method.succeeds_bind, Method.succeeds_self, Method.succeeds_lift,
    Method.succeeds_pure, burn_succeeds]
  constructor
  · rintro ⟨_, _, ⟨rfl, rfl⟩, _, _, ⟨converted, rfl⟩, _, _, burned, rfl, rfl⟩
    exact ⟨converted, burned⟩
  · rintro ⟨converted, burned⟩
    exact ⟨t, t, ⟨rfl, rfl⟩, shares, t, ⟨converted, rfl⟩, (), t', burned, rfl, rfl⟩

theorem withdrawShares_succeeds (shares : UFixedPoint) (rounding : RoundingMode)
    (t t' : SharesTracker) (atoms : U64) :
    (withdrawShares shares rounding).Succeeds t atoms t' ↔
      t.sharesToAtoms shares rounding = .ok atoms ∧
        t.totalShares.bits = t'.totalShares.bits + shares.bits ∧
        t'.atomsPerShare = t.atomsPerShare := by
  simp only [withdrawShares, Method.succeeds_bind, Method.succeeds_self, Method.succeeds_lift,
    Method.succeeds_pure, burn_succeeds]
  constructor
  · rintro ⟨_, _, ⟨rfl, rfl⟩, _, _, ⟨converted, rfl⟩, _, _, burned, rfl, rfl⟩
    exact ⟨converted, burned⟩
  · rintro ⟨converted, burned⟩
    exact ⟨t, t, ⟨rfl, rfl⟩, atoms, t, ⟨converted, rfl⟩, (), t', burned, rfl, rfl⟩

theorem withdrawAtomsCapped_succeeds (atoms : U64) (maxShares : UFixedPoint)
    (rounding : RoundingMode) (t t' : SharesTracker) (paid : U64) (shares : UFixedPoint) :
    (withdrawAtomsCapped atoms maxShares rounding).Succeeds t (paid, shares) t' ↔
      ((∃ wanted, t.atomsToShares atoms = .ok wanted ∧ maxShares < wanted ∧
          t.sharesToAtoms maxShares rounding = .ok paid ∧ shares = maxShares) ∨
        (t.atomsToShares atoms = .ok shares ∧ ¬ maxShares < shares ∧ paid = atoms)) ∧
        t.totalShares.bits = t'.totalShares.bits + shares.bits ∧
        t'.atomsPerShare = t.atomsPerShare := by
  simp only [withdrawAtomsCapped, Method.succeeds_bind, Method.succeeds_self,
    Method.succeeds_lift, Method.succeeds_ite, Method.succeeds_pure, burn_succeeds]
  constructor
  · rintro ⟨_, _, ⟨rfl, rfl⟩, wanted, _, ⟨converted, rfl⟩, capped | uncapped⟩
    · obtain ⟨exceeds, _, _, ⟨value, rfl⟩, _, _, burned, same, rfl⟩ := capped
      cases same
      exact ⟨Or.inl ⟨wanted, converted, exceeds, value, rfl⟩, burned⟩
    · obtain ⟨within, _, _, burned, same, rfl⟩ := uncapped
      cases same
      exact ⟨Or.inr ⟨converted, within, rfl⟩, burned⟩
  · rintro ⟨⟨wanted, converted, exceeds, value, rfl⟩ | ⟨converted, within, rfl⟩, burned⟩
    · exact ⟨t, t, ⟨rfl, rfl⟩, wanted, t, ⟨converted, rfl⟩,
        Or.inl ⟨exceeds, paid, t, ⟨value, rfl⟩, (), t', burned, rfl, rfl⟩⟩
    · exact ⟨t, t, ⟨rfl, rfl⟩, shares, t, ⟨converted, rfl⟩,
        Or.inr ⟨within, (), t', burned, rfl, rfl⟩⟩

theorem applyInterestRate_succeeds (interestRate : InterestRate) (t t' : SharesTracker) (u : Unit)
    (success : (applyInterestRate interestRate).Succeeds t u t') :
    (t.totalShares.bits = 0 ∧ t' = t) ∨
      (t.totalShares.bits ≠ 0 ∧ t'.totalShares = t.totalShares ∧
        t'.atomsPerShare.bits =
          (interestRate.rate.bits * (t.atomsPerShare.bits / 2 ^ 16) / 2 ^ 48 +
            t.atomsPerShare.bits / 2 ^ 16) * 2 ^ 16) := by
  simp only [applyInterestRate, Method.succeeds_bind, Method.succeeds_self, Method.succeeds_ite,
    Method.succeeds_lift, Method.succeeds_assign, Method.succeeds_pure, Fixed.isZero_iff,
    UFixedPoint.tryFrom_ok] at success
  obtain ⟨_, _, ⟨rfl, rfl⟩, ⟨empty, _, rfl⟩ | ⟨nonempty, interest, _, ⟨product, rfl⟩,
    grown, _, ⟨sum, rfl⟩, price, _, ⟨converted, rfl⟩, rfl⟩⟩ := success
  · exact Or.inl ⟨empty, rfl⟩
  · refine Or.inr ⟨nonempty, rfl, ?_⟩
    dsimp only
    rw [← converted, ← IFixedPoint.safeAddUFixed_ok _ _ _ sum,
      ← IFixedPoint.safeMulUFixed_ok _ _ _ product]

structure FeeAccrual (t t' : SharesTracker) (rate : InterestRate) (fee feeShares : UFixedPoint)
    (totalAtoms : U64) where
  feeAtoms : Int
  netRate : Int
  atoms_pos : 0 < totalAtoms.toNat
  rate_nonneg : 0 ≤ rate.rate.bits
  feeAtoms_eq : feeAtoms = rate.rate.bits * totalAtoms.toNat * (fee.bits / 2 ^ 16) / 2 ^ 48
  netRate_eq : netRate = (rate.rate.bits * totalAtoms.toNat - feeAtoms).tdiv totalAtoms.toNat
  price_eq : t'.atomsPerShare.bits =
    (netRate * (t.atomsPerShare.bits / 2 ^ 16) / 2 ^ 48 + t.atomsPerShare.bits / 2 ^ 16) * 2 ^ 16
  price_pos : t'.atomsPerShare.bits / 2 ^ 16 ≠ 0
  feeShares_eq :
    feeShares.bits = (feeAtoms * 2 ^ 48).tdiv (t'.atomsPerShare.bits / 2 ^ 16) * 2 ^ 16
  totalShares_eq : t'.totalShares.bits = feeShares.bits + t.totalShares.bits

theorem applyInterestRateWithFee_succeeds (rate : InterestRate) (fee feeShares : UFixedPoint)
    (t t' : SharesTracker)
    (success : (applyInterestRateWithFee rate fee).Succeeds t feeShares t') :
    ∃ totalAtoms, t.totalAtoms .roundDown = .ok totalAtoms ∧
      ((totalAtoms.toNat = 0 ∧ feeShares.bits = 0 ∧ t' = t) ∨
        Nonempty (FeeAccrual t t' rate fee feeShares totalAtoms)) := by
  simp only [applyInterestRateWithFee, Method.succeeds_bind, Method.succeeds_self,
    Method.succeeds_ite, Method.succeeds_lift, Method.succeeds_assign, Method.succeeds_pure,
    Method.succeeds_fail, Fixed.isNegative_iff, UFixedPoint.tryFrom_ok, Fixed.safeSub_ok,
    Fixed.safeDivU64_ok, Fixed.safeAdd_ok, InterestRate.interestU64, Fixed.safeMulU64_ok] at success
  obtain ⟨_, _, ⟨rfl, rfl⟩, totalAtoms, _, ⟨before, rfl⟩, accrual⟩ := success
  refine ⟨totalAtoms, before, ?_⟩
  rcases accrual with ⟨none, rfl, rfl⟩ | ⟨some, negative | accrual⟩
  · exact Or.inl ⟨none, by simp, rfl⟩
  · obtain ⟨-, _, _, -, impossible⟩ := negative
    exact impossible.elim
  · obtain ⟨nonneg, interest, _, ⟨interest_eq, rfl⟩, feeAtoms, _, ⟨fee_eq, rfl⟩, net, _,
      ⟨net_eq, rfl⟩, netRate, _, ⟨netRate_eq, rfl⟩, perShare, _, ⟨perShare_eq, rfl⟩, grown, _,
      ⟨grown_eq, rfl⟩, price, _, ⟨price_eq, rfl⟩, _, _, rfl, quotient, _, ⟨quotient_eq, rfl⟩,
      minted, _, ⟨minted_eq, rfl⟩, total, _, ⟨total_eq, rfl⟩, _, _, rfl, rfl, rfl⟩ := accrual
    have feeAtoms_eq := IFixedPoint.safeMulUFixed_ok _ _ _ fee_eq
    have quotient_eq := IFixedPoint.safeDivUFixed_ok _ _ _ quotient_eq
    refine Or.inr ⟨⟨feeAtoms.bits, netRate.bits, by omega, by omega, ?_, ?_, ?_, quotient_eq.1, ?_,
      total_eq.symm⟩⟩
    · rw [interest_eq]
      exact feeAtoms_eq.symm
    · rw [interest_eq, net_eq]
      exact netRate_eq.2.symm
    · dsimp only
      rw [← price_eq, ← IFixedPoint.safeAddUFixed_ok _ _ _ grown_eq,
        ← IFixedPoint.safeMulUFixed_ok _ _ _ perShare_eq]
    · dsimp only
      rw [quotient_eq.2]
      exact minted_eq.symm

theorem donateAtoms_succeeds (atoms : U64) (t t' : SharesTracker) (u : Unit) :
    (donateAtoms atoms).Succeeds t u t' ↔
      t.totalShares.bits ≠ 0 ∧
        t'.atomsPerShare.bits =
          t.atomsPerShare.bits + atoms.toNat * 2 ^ 128 / t.totalShares.bits ∧
        t'.totalShares = t.totalShares := by
  have scaled : ((atoms.toNat : Int) * 2 ^ 64) * 2 ^ 64 = atoms.toNat * 2 ^ 128 := by ring
  have nonneg : (0 : Int) ≤ atoms.toNat * 2 ^ 128 := by positivity
  simp only [donateAtoms, Method.succeeds_bind, Method.succeeds_self, Method.succeeds_rejectIf,
    Method.succeeds_lift, Method.succeeds_assign, Fixed.isZero_iff, Fixed.safeDiv_ok,
    Fixed.safeAdd_ok, Fixed.fromU64_bits, u64f64_frac, scaled, Int.tdiv_eq_ediv_of_nonneg nonneg]
  constructor
  · rintro ⟨_, _, ⟨rfl, rfl⟩, _, _, ⟨nonempty, rfl⟩, added, _, ⟨⟨-, quotient⟩, rfl⟩, price, _,
      ⟨sum, rfl⟩, rfl⟩
    exact ⟨nonempty, by dsimp only; omega, rfl⟩
  · rintro ⟨nonempty, price, shares⟩
    have range := t'.atomsPerShare.bits_lt
    have base := t.atomsPerShare.bits_nonneg
    have added_nonneg : 0 ≤ atoms.toNat * 2 ^ 128 / t.totalShares.bits :=
      Int.ediv_nonneg nonneg t.totalShares.bits_nonneg
    refine ⟨t, t, ⟨rfl, rfl⟩, (), t, ⟨nonempty, rfl⟩,
      ⟨atoms.toNat * 2 ^ 128 / t.totalShares.bits, ?_, ?_⟩, t, ⟨⟨nonempty, rfl⟩, rfl⟩,
      t'.atomsPerShare, t, ⟨price.symm, rfl⟩, ?_⟩
    · rw [u64f64_minBits]
      exact added_nonneg
    · rw [u64f64_maxBits]
      omega
    · exact ext_fields (by rw [shares]) rfl

theorem socializeLossAtoms_succeeds (atoms : U64) (t t' : SharesTracker) (u : Unit) :
    (socializeLossAtoms atoms).Succeeds t u t' ↔
      t.totalShares.bits ≠ 0 ∧
        t'.atomsPerShare.bits + atoms.toNat * 2 ^ 128 / t.totalShares.bits =
          t.atomsPerShare.bits ∧
        t'.totalShares = t.totalShares := by
  have scaled : ((atoms.toNat : Int) * 2 ^ 64) * 2 ^ 64 = atoms.toNat * 2 ^ 128 := by ring
  have nonneg : (0 : Int) ≤ atoms.toNat * 2 ^ 128 := by positivity
  simp only [socializeLossAtoms, Method.succeeds_bind, Method.succeeds_self,
    Method.succeeds_rejectIf, Method.succeeds_lift, Method.succeeds_assign, Fixed.isZero_iff,
    Fixed.safeDiv_ok, Fixed.safeSub_ok, Fixed.fromU64_bits, u64f64_frac, scaled,
    Int.tdiv_eq_ediv_of_nonneg nonneg]
  constructor
  · rintro ⟨_, _, ⟨rfl, rfl⟩, _, _, ⟨nonempty, rfl⟩, lost, _, ⟨⟨-, quotient⟩, rfl⟩, price, _,
      ⟨difference, rfl⟩, rfl⟩
    exact ⟨nonempty, by dsimp only; omega, rfl⟩
  · intro lessened
    obtain ⟨nonempty, price, shares⟩ := lessened
    have range := t.atomsPerShare.bits_lt
    have left_nonneg := t'.atomsPerShare.bits_nonneg
    obtain ⟨lost, lost_eq⟩ := UFixedPoint.exists_bits (atoms.toNat * 2 ^ 128 / t.totalShares.bits)
      (Int.ediv_nonneg nonneg t.totalShares.bits_nonneg) (by omega)
    refine ⟨t, t, ⟨rfl, rfl⟩, (), t, ⟨nonempty, rfl⟩, lost, t, ⟨⟨nonempty, lost_eq.symm⟩, rfl⟩,
      t'.atomsPerShare, t, ⟨by omega, rfl⟩, ?_⟩
    exact ext_fields (by rw [shares]) rfl

end SharesTracker

end AutaraLending
