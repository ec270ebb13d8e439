import AutaraLending.InterestRateCurve
import AutaraLending.OracleValidation

/-! The two vaults of a market. The collateral vault counts collateral; the supply vault
tracks what suppliers are credited with and what borrowers owe, and accrues interest on
both at every sync. -/

namespace AutaraLending

open Support

structure CollateralVault where
  mint : Pubkey
  mintDecimals : U64
  vault : Pubkey
  totalCollateralAtoms : U64
  oracleConfig : OracleConfig
  deriving DecidableEq

def OracleConfig.zeroed : OracleConfig :=
  ⟨.pyth ⟨Vector.replicate 32 0, Vector.replicate 32 0⟩, .new 0 Fixed.zero⟩

namespace CollateralVault

def zeroed : CollateralVault := ⟨Vector.replicate 32 0, 0, Vector.replicate 32 0, 0, .zeroed⟩

def initializeVault (mint : Pubkey) (mintDecimals : U64) (vault : Pubkey)
    (oracleConfig : OracleConfig) : LendingMethod CollateralVault Unit := do
  Method.rejectIf (maxExponentAbs < mintDecimals.toInt64)
    (LendingError.unsupportedMintDecimals.withMsg "collateral vault")
  Method.lift oracleConfig.validate
  let self ← Method.self
  Method.assign { self with mint, mintDecimals, vault, oracleConfig }

def setOracleConfig (oracleConfig : OracleConfig) : LendingMethod CollateralVault Unit := do
  let self ← Method.self
  Method.assign { self with oracleConfig }

def decimals (self : CollateralVault) : UInt8 := self.mintDecimals.toUInt8

def depositCollateral (atoms : U64) : LendingMethod CollateralVault Unit := do
  let self ← Method.self
  let totalCollateralAtoms ← Method.lift (self.totalCollateralAtoms.safeAdd atoms)
  Method.assign { self with totalCollateralAtoms }

def withdrawCollateral (atoms : U64) : LendingMethod CollateralVault Unit := do
  let self ← Method.self
  let totalCollateralAtoms ← Method.lift (self.totalCollateralAtoms.safeSub atoms)
  Method.assign { self with totalCollateralAtoms }

theorem initializeVault_succeeds (mint : Pubkey) (mintDecimals : U64) (vault : Pubkey)
    (oracleConfig : OracleConfig) (v v' : CollateralVault) (u : Unit)
    (success : (initializeVault mint mintDecimals vault oracleConfig).Succeeds v u v') :
    v' = { v with mint, mintDecimals, vault, oracleConfig } := by
  simp only [initializeVault, Method.succeeds_bind, Method.succeeds_rejectIf, Method.succeeds_lift,
    Method.succeeds_self, Method.succeeds_assign] at success
  obtain ⟨_, _, ⟨-, rfl⟩, _, _, ⟨-, rfl⟩, _, _, ⟨rfl, rfl⟩, rfl⟩ := success
  rfl

theorem setOracleConfig_succeeds (oracleConfig : OracleConfig) (v v' : CollateralVault) (u : Unit) :
    (setOracleConfig oracleConfig).Succeeds v u v' ↔ v' = { v with oracleConfig } := by
  simp only [setOracleConfig, Method.succeeds_bind, Method.succeeds_self, Method.succeeds_assign]
  constructor
  · rintro ⟨_, _, ⟨rfl, rfl⟩, rfl⟩
    rfl
  · rintro rfl
    exact ⟨v, v, ⟨rfl, rfl⟩, rfl⟩

theorem depositCollateral_succeeds (atoms : U64) (v v' : CollateralVault) (u : Unit) :
    (depositCollateral atoms).Succeeds v u v' ↔
      ∃ total, v.totalCollateralAtoms.toNat + atoms.toNat = total.toNat ∧
        v' = { v with totalCollateralAtoms := total } := by
  simp only [depositCollateral, Method.succeeds_bind, Method.succeeds_self, Method.succeeds_lift,
    Method.succeeds_assign, U64.safeAdd_ok]
  constructor
  · rintro ⟨_, _, ⟨rfl, rfl⟩, total, _, ⟨sum, rfl⟩, rfl⟩
    exact ⟨total, sum, rfl⟩
  · rintro ⟨total, sum, rfl⟩
    exact ⟨v, v, ⟨rfl, rfl⟩, total, v, ⟨sum, rfl⟩, rfl⟩

theorem withdrawCollateral_succeeds (atoms : U64) (v v' : CollateralVault) (u : Unit) :
    (withdrawCollateral atoms).Succeeds v u v' ↔
      ∃ total, atoms.toNat + total.toNat = v.totalCollateralAtoms.toNat ∧
        v' = { v with totalCollateralAtoms := total } := by
  simp only [withdrawCollateral, Method.succeeds_bind, Method.succeeds_self, Method.succeeds_lift,
    Method.succeeds_assign, U64.safeSub_ok]
  constructor
  · rintro ⟨_, _, ⟨rfl, rfl⟩, total, _, ⟨difference, rfl⟩, rfl⟩
    exact ⟨total, difference, rfl⟩
  · rintro ⟨total, difference, rfl⟩
    exact ⟨v, v, ⟨rfl, rfl⟩, total, v, ⟨difference, rfl⟩, rfl⟩

end CollateralVault

structure SupplyVault where
  mint : Pubkey
  mintDecimals : U64
  vault : Pubkey
  oracleConfig : OracleConfig
  supplySharesTracker : SharesTracker
  borrowSharesTracker : SharesTracker
  interestRateCurve : InterestRateCurveKind
  lastBorrowInterestRate : InterestRatePerSecond
  lastUpdateUnixTimestamp : Int64
  pendingProtocolFeeShares : UFixedPoint
  pendingCuratorFeeShares : UFixedPoint
  deriving DecidableEq

namespace SupplyVault

def zeroed : SupplyVault where
  mint := Vector.replicate 32 0
  mintDecimals := 0
  vault := Vector.replicate 32 0
  oracleConfig := .zeroed
  supplySharesTracker := ⟨Fixed.zero, Fixed.zero⟩
  borrowSharesTracker := ⟨Fixed.zero, Fixed.zero⟩
  interestRateCurve := .fixed ⟨Fixed.zero⟩
  lastBorrowInterestRate := ⟨Fixed.zero⟩
  lastUpdateUnixTimestamp := 0
  pendingProtocolFeeShares := Fixed.zero
  pendingCuratorFeeShares := Fixed.zero

def initializeVault (mint : Pubkey) (mintDecimals : U64) (vault : Pubkey)
    (oracleConfig : OracleConfig) (interestRate : InterestRateCurveKind) (timestamp : Int64) :
    LendingMethod SupplyVault Unit := do
  Method.rejectIf (maxExponentAbs < mintDecimals.toInt64)
    (LendingError.unsupportedMintDecimals.withMsg "supply vault")
  Method.rejectIf (interestRate.isValid = false) LendingError.invalidCurve.into
  Method.lift oracleConfig.validate
  let self ← Method.self
  Method.assign
    { self with
      mint
      mintDecimals
      vault
      oracleConfig
      interestRateCurve := interestRate
      supplySharesTracker := .new
      borrowSharesTracker := .new
      lastUpdateUnixTimestamp := timestamp }

def setOracleConfig (oracleConfig : OracleConfig) : LendingMethod SupplyVault Unit := do
  let self ← Method.self
  Method.assign { self with oracleConfig }

def decimals (self : SupplyVault) : UInt8 := self.mintDecimals.toUInt8

def totalSupply (self : SupplyVault) : LendingResult U64 :=
  self.supplySharesTracker.totalAtoms .roundDown

def totalBorrow (self : SupplyVault) : LendingResult U64 :=
  self.borrowSharesTracker.totalAtoms .roundUp

def computeUtilisationRate (totalBorrowed totalSupply : U64) : LendingResult IFixedPoint :=
  orElse (fun failure => if totalBorrowed ≠ 0 then .error failure else .ok Fixed.zero)
    (Fixed.fromRatio totalBorrowed totalSupply)

def utilisationRate (self : SupplyVault) : LendingResult IFixedPoint := do
  let totalSupply ← self.totalSupply
  let totalBorrowed ← self.totalBorrow
  computeUtilisationRate totalBorrowed totalSupply

def borrowSharesToAtoms (self : SupplyVault) (shares : UFixedPoint) : LendingResult U64 :=
  self.borrowSharesTracker.sharesToAtoms shares .roundUp

def onSupplyTracker {α : Type} (m : LendingMethod SharesTracker α) : LendingMethod SupplyVault α :=
  Method.zoom SupplyVault.supplySharesTracker
    (fun supplySharesTracker self => { self with supplySharesTracker }) m

def onBorrowTracker {α : Type} (m : LendingMethod SharesTracker α) : LendingMethod SupplyVault α :=
  Method.zoom SupplyVault.borrowSharesTracker
    (fun borrowSharesTracker self => { self with borrowSharesTracker }) m

def onCurve {α : Type} (m : LendingMethod InterestRateCurveKind α) : LendingMethod SupplyVault α :=
  Method.zoom SupplyVault.interestRateCurve
    (fun interestRateCurve self => { self with interestRateCurve }) m

/-- The subtraction of the timestamps wraps and is read as a `u64`, so it is the true
difference of a later and an earlier timestamp. -/
def syncClock (unixTimestamp : Int64) (lendingMarketFee : UFixedPoint)
    (feePercentForProtocolInBps : UInt16) : LendingMethod SupplyVault Unit := do
  let self ← Method.self
  if self.lastUpdateUnixTimestamp < unixTimestamp then do
    let elapsed := (unixTimestamp - self.lastUpdateUnixTimestamp).toUInt64
    let utilisationRate ← Method.lift self.utilisationRate
    let borrowInterestRate ←
      onCurve (InterestRateCurveKind.borrowRatePerSecond ⟨utilisationRate, elapsed⟩)
    let borrowRateDuringElapsed ← Method.lift
      (borrowInterestRate.coumpoundingInterestRateDuringElapsedSeconds elapsed)
    onBorrowTracker (SharesTracker.applyInterestRate borrowRateDuringElapsed)
    let lendingInterestRateDuringElapsed ← Method.lift
      (borrowRateDuringElapsed.adjustForUtilisationRate utilisationRate)
    let feeShares ← onSupplyTracker
      (SharesTracker.applyInterestRateWithFee lendingInterestRateDuringElapsed lendingMarketFee)
    let protocolFeeShares ← Method.lift
      (bpsFromFixedPoint feePercentForProtocolInBps.toUInt64 feeShares)
    let curatorFeeShares ← Method.lift (feeShares.safeSub protocolFeeShares)
    let pendingProtocolFeeShares ← Method.lift
      (self.pendingProtocolFeeShares.safeAdd protocolFeeShares)
    let pending ← Method.self
    Method.assign { pending with pendingProtocolFeeShares }
    let pendingCuratorFeeShares ← Method.lift
      (self.pendingCuratorFeeShares.safeAdd curatorFeeShares)
    let pending ← Method.self
    Method.assign
      { pending with
        pendingCuratorFeeShares
        lastBorrowInterestRate := borrowInterestRate
        lastUpdateUnixTimestamp := unixTimestamp }
  else pure ()

def lend (atoms : U64) : LendingMethod SupplyVault UFixedPoint :=
  onSupplyTracker (SharesTracker.depositAtoms atoms)

def withdrawShares (shares : UFixedPoint) : LendingMethod SupplyVault U64 :=
  onSupplyTracker (SharesTracker.withdrawShares shares .roundDown)

def withdrawAtoms (atoms : U64) : LendingMethod SupplyVault UFixedPoint :=
  onSupplyTracker (SharesTracker.withdrawAtoms atoms)

def borrow (atoms : U64) : LendingMethod SupplyVault UFixedPoint :=
  onBorrowTracker (SharesTracker.depositAtoms atoms)

def repayShares (shares : UFixedPoint) : LendingMethod SupplyVault U64 :=
  onBorrowTracker (SharesTracker.withdrawShares shares .roundUp)

def repayAtoms (atoms : U64) : LendingMethod SupplyVault UFixedPoint :=
  onBorrowTracker (SharesTracker.withdrawAtoms atoms)

def repayAtomsCapped (atoms : U64) (maxShares : UFixedPoint) :
    LendingMethod SupplyVault (U64 × UFixedPoint) :=
  onBorrowTracker (SharesTracker.withdrawAtomsCapped atoms maxShares .roundUp)

def redeemProtocolFees : LendingMethod SupplyVault U64 := do
  let self ← Method.self
  Method.assign { self with pendingProtocolFeeShares := Fixed.zero }
  withdrawShares self.pendingProtocolFeeShares

def redeemCuratorFees : LendingMethod SupplyVault U64 := do
  let self ← Method.self
  Method.assign { self with pendingCuratorFeeShares := Fixed.zero }
  withdrawShares self.pendingCuratorFeeShares

def socializeLoss (debtShares : UFixedPoint) : LendingMethod SupplyVault U64 := do
  let debt ← onBorrowTracker (SharesTracker.withdrawShares debtShares .roundUp)
  onSupplyTracker (SharesTracker.socializeLossAtoms debt)
  pure debt

def donateSupply (atoms : U64) : LendingMethod SupplyVault Unit :=
  onSupplyTracker (SharesTracker.donateAtoms atoms)

/-! What successful calls compute and store. -/

theorem initializeVault_succeeds (mint : Pubkey) (mintDecimals : U64) (vault : Pubkey)
    (oracleConfig : OracleConfig) (interestRate : InterestRateCurveKind) (timestamp : Int64)
    (v v' : SupplyVault) (u : Unit)
    (success : (initializeVault mint mintDecimals vault oracleConfig interestRate
      timestamp).Succeeds v u v') :
    interestRate.isValid = true ∧
      v' =
        { v with
          mint
          mintDecimals
          vault
          oracleConfig
          interestRateCurve := interestRate
          supplySharesTracker := .new
          borrowSharesTracker := .new
          lastUpdateUnixTimestamp := timestamp } := by
  simp only [initializeVault, Method.succeeds_bind, Method.succeeds_rejectIf, Method.succeeds_lift,
    Method.succeeds_self, Method.succeeds_assign, Bool.not_eq_false] at success
  obtain ⟨_, _, ⟨-, rfl⟩, _, _, ⟨valid, rfl⟩, _, _, ⟨-, rfl⟩, _, _, ⟨rfl, rfl⟩, rfl⟩ := success
  exact ⟨valid, rfl⟩

theorem setOracleConfig_succeeds (oracleConfig : OracleConfig) (v v' : SupplyVault) (u : Unit) :
    (setOracleConfig oracleConfig).Succeeds v u v' ↔ v' = { v with oracleConfig } := by
  simp only [setOracleConfig, Method.succeeds_bind, Method.succeeds_self, Method.succeeds_assign]
  constructor
  · rintro ⟨_, _, ⟨rfl, rfl⟩, rfl⟩
    rfl
  · rintro rfl
    exact ⟨v, v, ⟨rfl, rfl⟩, rfl⟩

theorem onSupplyTracker_succeeds {α : Type} (m : LendingMethod SharesTracker α)
    (v v' : SupplyVault) (a : α) :
    (onSupplyTracker m).Succeeds v a v' ↔
      ∃ tracker, m.Succeeds v.supplySharesTracker a tracker ∧
        v' = { v with supplySharesTracker := tracker } := by
  simp only [onSupplyTracker, Method.succeeds_zoom, eq_comm]

theorem onBorrowTracker_succeeds {α : Type} (m : LendingMethod SharesTracker α)
    (v v' : SupplyVault) (a : α) :
    (onBorrowTracker m).Succeeds v a v' ↔
      ∃ tracker, m.Succeeds v.borrowSharesTracker a tracker ∧
        v' = { v with borrowSharesTracker := tracker } := by
  simp only [onBorrowTracker, Method.succeeds_zoom, eq_comm]

theorem onCurve_succeeds {α : Type} (m : LendingMethod InterestRateCurveKind α)
    (v v' : SupplyVault) (a : α) :
    (onCurve m).Succeeds v a v' ↔
      ∃ curve, m.Succeeds v.interestRateCurve a curve ∧
        v' = { v with interestRateCurve := curve } := by
  simp only [onCurve, Method.succeeds_zoom, eq_comm]

theorem ratio_ok (num dem : U64) (rate : IFixedPoint) :
    (Fixed.fromRatio num dem : LendingResult IFixedPoint) = .ok rate ↔
      dem.toNat ≠ 0 ∧ rate.bits = num.toNat * 2 ^ 48 / dem.toNat := by
  have scaled : ((num.toNat * 2 ^ 48 * 2 ^ 48 : Int)).tdiv (dem.toNat * 2 ^ 48) =
      num.toNat * 2 ^ 48 / dem.toNat := by
    rw [Int.tdiv_eq_ediv_of_nonneg (by positivity)]
    exact Int.mul_ediv_mul_of_pos_left _ _ (by norm_num)
  rw [Fixed.fromRatio, mapErr_ok, Fixed.safeDiv_ok, Fixed.fromU64_bits, Fixed.fromU64_bits,
    i80f48_frac, scaled]
  constructor
  · rintro ⟨nonzero, quotient⟩
    exact ⟨by omega, quotient.symm⟩
  · rintro ⟨nonzero, quotient⟩
    exact ⟨by omega, quotient.symm⟩

theorem ratio_le (num dem : U64) :
    (0 : Int) ≤ num.toNat * 2 ^ 48 / dem.toNat ∧
      (num.toNat * 2 ^ 48 / dem.toNat : Int) ≤ 2 ^ 112 := by
  have small := num.toNat_lt
  have quotient_le : (num.toNat * 2 ^ 48 / dem.toNat : Int) ≤ num.toNat * 2 ^ 48 :=
    Int.ediv_le_self _ (by positivity)
  exact ⟨by positivity, by omega⟩

theorem computeUtilisationRate_ok (totalBorrowed totalSupply : U64) (rate : IFixedPoint) :
    computeUtilisationRate totalBorrowed totalSupply = .ok rate ↔
      (totalSupply.toNat ≠ 0 ∧ rate.bits = totalBorrowed.toNat * 2 ^ 48 / totalSupply.toNat) ∨
        (totalSupply.toNat = 0 ∧ totalBorrowed.toNat = 0 ∧ rate.bits = 0) := by
  have zero_iff : totalBorrowed = 0 ↔ totalBorrowed.toNat = 0 := by
    rw [← UInt64.toNat_inj]
    simp
  have range := ratio_le totalBorrowed totalSupply
  rw [computeUtilisationRate, orElse_ok, ratio_ok]
  constructor
  · rintro (divided | ⟨failure, failed, recovered⟩)
    · exact Or.inl divided
    · right
      split at recovered
      · cases recovered
      · rename_i none
        have empty : totalSupply.toNat = 0 := by
          by_contra nonzero
          have divides := (ratio_ok totalBorrowed totalSupply
            ⟨totalBorrowed.toNat * 2 ^ 48 / totalSupply.toNat, by rw [i80f48_minBits]; omega,
              by rw [i80f48_maxBits]; omega⟩).mpr ⟨nonzero, rfl⟩
          rw [failed] at divides
          cases divides
        obtain rfl := Except.ok.inj recovered
        exact ⟨empty, zero_iff.mp (by simpa using none), by simp⟩
  · rintro (divided | ⟨empty, none, zero⟩)
    · exact Or.inl divided
    · right
      cases outcome : (Fixed.fromRatio totalBorrowed totalSupply : LendingResult IFixedPoint) with
      | ok ratio =>
          have nonzero := ((ratio_ok totalBorrowed totalSupply ratio).mp outcome).1
          exact absurd empty nonzero
      | error failure =>
          refine ⟨failure, rfl, ?_⟩
          rw [if_neg (by simpa using zero_iff.mpr none)]
          exact congrArg Except.ok (Fixed.ext_bits (by simp [zero]))

theorem utilisationRate_ok (self : SupplyVault) (rate : IFixedPoint) :
    self.utilisationRate = .ok rate ↔
      ∃ supplied borrowed, self.totalSupply = .ok supplied ∧ self.totalBorrow = .ok borrowed ∧
        computeUtilisationRate borrowed supplied = .ok rate := by
  simp only [utilisationRate, except_bind_ok]
  constructor
  · rintro ⟨supplied, supply, borrowed, borrow, ratio⟩
    exact ⟨supplied, borrowed, supply, borrow, ratio⟩
  · rintro ⟨supplied, borrowed, supply, borrow, ratio⟩
    exact ⟨supplied, supply, borrowed, borrow, ratio⟩

theorem utilisationRate_range (self : SupplyVault) (rate : IFixedPoint)
    (success : self.utilisationRate = .ok rate) : 0 ≤ rate.bits ∧ rate.bits ≤ 2 ^ 112 := by
  obtain ⟨supplied, borrowed, -, -, ratio⟩ := (utilisationRate_ok self rate).mp success
  have range := ratio_le borrowed supplied
  rcases (computeUtilisationRate_ok borrowed supplied rate).mp ratio with
    ⟨-, rate_eq⟩ | ⟨-, -, rate_eq⟩
  · omega
  · omega

theorem utilisationRate_totals (self : SupplyVault) (rate : IFixedPoint)
    (success : self.utilisationRate = .ok rate) :
    ∃ supplied borrowed, self.totalSupply = .ok supplied ∧ self.totalBorrow = .ok borrowed ∧
      (supplied.toNat = 0 → borrowed.toNat = 0 ∧ rate.bits = 0) ∧
      (supplied.toNat ≠ 0 → (borrowed.toNat : Int) * 2 ^ 48 <
        (rate.bits + 1) * supplied.toNat) := by
  obtain ⟨supplied, borrowed, supply, borrow, ratio⟩ := (utilisationRate_ok self rate).mp success
  refine ⟨supplied, borrowed, supply, borrow, ?_, ?_⟩
  · intro empty
    rcases (computeUtilisationRate_ok borrowed supplied rate).mp ratio with ⟨nonempty, -⟩ | none
    · exact absurd empty nonempty
    · exact none.2
  · intro nonempty
    rcases (computeUtilisationRate_ok borrowed supplied rate).mp ratio with ⟨-, rate_eq⟩ | none
    · rw [rate_eq]
      exact Int.lt_ediv_add_one_mul_self _ (by omega)
    · exact absurd none.1 nonempty

/-- The rates at which a sync at a later time grows the debt and the supply. -/
def accrualRates (self : SupplyVault) (unixTimestamp : Int64) :
    LendingResult (InterestRate × InterestRate) := do
  let elapsed := (unixTimestamp - self.lastUpdateUnixTimestamp).toUInt64
  let utilisationRate ← self.utilisationRate
  let borrowInterestRate ←
    (InterestRateCurveKind.borrowRatePerSecond ⟨utilisationRate, elapsed⟩ self.interestRateCurve).1
  let borrowRateDuringElapsed ←
    borrowInterestRate.coumpoundingInterestRateDuringElapsedSeconds elapsed
  let lendingRateDuringElapsed ← borrowRateDuringElapsed.adjustForUtilisationRate utilisationRate
  pure (borrowRateDuringElapsed, lendingRateDuringElapsed)

/-- An accrual: everything a sync at a later timestamp computes, and what it stores. -/
structure Sync (timestamp : Int64) (fee : UFixedPoint) (protocolBps : UInt16)
    (v v' : SupplyVault) where
  utilisation : IFixedPoint
  rate : InterestRatePerSecond
  growth : InterestRate
  lending : InterestRate
  feeShares : UFixedPoint
  protocolShares : UFixedPoint
  curatorShares : UFixedPoint
  later : v.lastUpdateUnixTimestamp < timestamp
  utilisation_ok : v.utilisationRate = .ok utilisation
  rate_ok : (InterestRateCurveKind.borrowRatePerSecond
    ⟨utilisation, (timestamp - v.lastUpdateUnixTimestamp).toUInt64⟩).Succeeds v.interestRateCurve
      rate v'.interestRateCurve
  growth_ok : rate.coumpoundingInterestRateDuringElapsedSeconds
    (timestamp - v.lastUpdateUnixTimestamp).toUInt64 = .ok growth
  borrow_ok : (SharesTracker.applyInterestRate growth).Succeeds v.borrowSharesTracker ()
    v'.borrowSharesTracker
  lending_ok : growth.adjustForUtilisationRate utilisation = .ok lending
  supply_ok : (SharesTracker.applyInterestRateWithFee lending fee).Succeeds v.supplySharesTracker
    feeShares v'.supplySharesTracker
  protocol_ok : bpsFromFixedPoint protocolBps.toUInt64 feeShares = .ok protocolShares
  curator_eq : feeShares.bits = protocolShares.bits + curatorShares.bits
  pendingProtocol_eq :
    v'.pendingProtocolFeeShares.bits = v.pendingProtocolFeeShares.bits + protocolShares.bits
  pendingCurator_eq :
    v'.pendingCuratorFeeShares.bits = v.pendingCuratorFeeShares.bits + curatorShares.bits
  timestamp_eq : v'.lastUpdateUnixTimestamp = timestamp
  decimals_eq : v'.mintDecimals = v.mintDecimals

theorem Sync.accrualRates_eq {timestamp : Int64} {fee : UFixedPoint} {protocolBps : UInt16}
    {v v' : SupplyVault} (sync : Sync timestamp fee protocolBps v v') :
    v.accrualRates timestamp = .ok (sync.growth, sync.lending) := by
  simp only [accrualRates, except_bind_ok, except_pure_ok]
  exact ⟨_, sync.utilisation_ok, _, congrArg Prod.fst sync.rate_ok, _, sync.growth_ok, _,
    sync.lending_ok, rfl⟩

theorem redeem_succeeds (get : SupplyVault → UFixedPoint) (clear : SupplyVault → SupplyVault)
    (kept : ∀ v, (clear v).supplySharesTracker = v.supplySharesTracker) (v v' : SupplyVault)
    (atoms : U64)
    (success : (do
      let self ← Method.self
      Method.assign (clear self)
      withdrawShares (get self) : LendingMethod SupplyVault U64).Succeeds v atoms v') :
    ∃ tracker,
      (SharesTracker.withdrawShares (get v) .roundDown).Succeeds v.supplySharesTracker atoms
        tracker ∧
      v' = { clear v with supplySharesTracker := tracker } := by
  simp only [withdrawShares, Method.succeeds_bind, Method.succeeds_self, Method.succeeds_assign,
    onSupplyTracker_succeeds] at success
  obtain ⟨_, _, ⟨rfl, rfl⟩, _, _, rfl, tracker, burned, rfl⟩ := success
  rw [kept] at burned
  exact ⟨tracker, burned, rfl⟩

theorem syncClock_succeeds (timestamp : Int64) (fee : UFixedPoint) (protocolBps : UInt16)
    (v v' : SupplyVault) (u : Unit)
    (success : (syncClock timestamp fee protocolBps).Succeeds v u v') :
    (¬ v.lastUpdateUnixTimestamp < timestamp ∧ v' = v) ∨
      Nonempty (Sync timestamp fee protocolBps v v') := by
  simp only [syncClock, Method.succeeds_bind, Method.succeeds_self, Method.succeeds_ite,
    Method.succeeds_lift, Method.succeeds_assign, Method.succeeds_pure, onCurve_succeeds,
    onBorrowTracker_succeeds, onSupplyTracker_succeeds, Fixed.safeSub_ok, Fixed.safeAdd_ok,
    and_assoc, exists_and_left, exists_eq_left', exists_const] at success
  obtain ⟨later, synced⟩ | ⟨kept, -, rfl⟩ := success
  · obtain ⟨utilisation, utilisation_ok, rate, _, ⟨curve, rate_ok, rfl⟩, growth, growth_ok, _, _,
      ⟨borrowTracker, borrow_ok, rfl⟩, lending, lending_ok, feeShares, _,
      ⟨supplyTracker, supply_ok, rfl⟩, protocolShares, protocol_ok, curatorShares, curator_eq,
      pendingProtocol, protocol_eq, pendingCurator, pending_eq, rfl⟩ := synced
    exact Or.inr ⟨⟨utilisation, rate, growth, lending, feeShares, protocolShares, curatorShares,
      later, utilisation_ok, rate_ok, growth_ok, borrow_ok, lending_ok, supply_ok, protocol_ok,
      by omega, protocol_eq.symm, pending_eq.symm, rfl, rfl⟩⟩
  · exact Or.inl ⟨kept, rfl⟩

end SupplyVault

end AutaraLending
