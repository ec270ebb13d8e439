import AutaraLending.Oracle

/-! How much of a debt a liquidation repays and how much collateral it takes for it. -/

namespace AutaraLending

open Support

structure LiquidationResult where
  borrowedAtomsToRepay : U64
  collateralAtomsToLiquidate : U64
  deriving DecidableEq

structure LiquidationResultWithBonus where
  borrowedAtomsToRepay : U64
  collateralAtomsToLiquidate : U64
  collateralAtomsLiquidationBonus : U64
  deriving DecidableEq

def scaleToRepay (value maxRepay borrowed : U64) : U64 :=
  UInt64.ofNat (value.toNat * maxRepay.toNat / borrowed.toNat)

def LiquidationResult.adjustForMaxRepay (self : LiquidationResult) (maxRepay : U64) :
    LiquidationResult :=
  if maxRepay < self.borrowedAtomsToRepay then
    { borrowedAtomsToRepay := maxRepay
      collateralAtomsToLiquidate :=
        scaleToRepay self.collateralAtomsToLiquidate maxRepay self.borrowedAtomsToRepay }
  else self

namespace LiquidationResultWithBonus

def none : LiquidationResultWithBonus := ⟨0, 0, 0⟩

def adjustForMaxRepay (self : LiquidationResultWithBonus) (maxRepay : U64) :
    LiquidationResultWithBonus :=
  if maxRepay < self.borrowedAtomsToRepay then
    { borrowedAtomsToRepay := maxRepay
      collateralAtomsToLiquidate :=
        scaleToRepay self.collateralAtomsToLiquidate maxRepay self.borrowedAtomsToRepay
      collateralAtomsLiquidationBonus :=
        scaleToRepay self.collateralAtomsLiquidationBonus maxRepay self.borrowedAtomsToRepay }
  else self

def totalCollateralAtomsToLiquidate (self : LiquidationResultWithBonus) : LendingResult U64 :=
  self.collateralAtomsToLiquidate.safeAdd self.collateralAtomsLiquidationBonus

end LiquidationResultWithBonus

def computeLiquidation (borrowedAtoms : U64) (borrowDecimals : UInt8) (supplyOracle : OracleRate)
    (collateralAtoms : U64) (collateralDecimals : UInt8) (collateralOracle : OracleRate)
    (newLtv : IFixedPoint) : LendingResult LiquidationResult := do
  let borrowValue ← supplyOracle.borrowValue borrowedAtoms borrowDecimals
  let collateralValue ← collateralOracle.collateralValue collateralAtoms collateralDecimals
  let allowed ← collateralValue.safeMul newLtv
  let excess ← borrowValue.safeSub allowed
  let margin ← (Fixed.one : IFixedPoint).safeSub newLtv
  let valueToLiquidate ← excess.safeDiv margin
  let collateralAtomsToLiquidate ←
    collateralOracle.collateralAtoms valueToLiquidate collateralDecimals
  let borrowedAtomsToRepay ← supplyOracle.borrowAtoms valueToLiquidate borrowDecimals
  let collateralAtomsToLiquidate ← collateralAtomsToLiquidate.asU64RoundedDown
  let borrowedAtomsToRepay ← borrowedAtomsToRepay.asU64RoundedUp
  pure { borrowedAtomsToRepay, collateralAtomsToLiquidate }

/-- The bonus on a liquidation, cut to what the collateral can pay. -/
def liquidationBonus (result : LiquidationResult) (collateralAtoms : U64)
    (liquidationFee : IFixedPoint) : LendingResult LiquidationResultWithBonus := do
  let fee ← result.collateralAtomsToLiquidate.safeMulIFixed liquidationFee
  let collateralAtomsFee ← fee.asU64RoundedDown
  let total ← result.collateralAtomsToLiquidate.safeAdd collateralAtomsFee
  if collateralAtoms < total then do
    let collateralAtomsFee ← collateralAtoms.safeSub result.collateralAtomsToLiquidate
    pure ⟨result.borrowedAtomsToRepay, result.collateralAtomsToLiquidate, collateralAtomsFee⟩
  else pure ⟨result.borrowedAtomsToRepay, result.collateralAtomsToLiquidate, collateralAtomsFee⟩

def computeLiquidationWithFee (borrowedAtoms : U64) (borrowDecimals : UInt8)
    (supplyOracle : OracleRate) (collateralAtoms : U64) (collateralDecimals : UInt8)
    (collateralOracle : OracleRate) (newLtvAfterLiquidationFee liquidationFee : IFixedPoint)
    (maxBorrowedAtomsToRepay : U64) : LendingResult LiquidationResultWithBonus := do
  let onePlusLiquidationFee ← (Fixed.one : IFixedPoint).safeAdd liquidationFee
  let adjustedNewLtv ← newLtvAfterLiquidationFee.safeMul onePlusLiquidationFee
  let adjustedCollateral ← collateralAtoms.safeDivIFixed onePlusLiquidationFee
  let adjustedCollateralAtoms ← adjustedCollateral.asU64RoundedDown
  let liquidationResult ← computeLiquidation borrowedAtoms borrowDecimals supplyOracle
    adjustedCollateralAtoms collateralDecimals collateralOracle adjustedNewLtv
  let liquidationResult := liquidationResult.adjustForMaxRepay
    (min maxBorrowedAtomsToRepay borrowedAtoms)
  liquidationBonus liquidationResult collateralAtoms liquidationFee

/-! Liquidations never take more collateral than there is. -/

theorem scaleToRepay_toNat (value maxRepay borrowed : U64) (smaller : maxRepay < borrowed) :
    (scaleToRepay value maxRepay borrowed).toNat =
      value.toNat * maxRepay.toNat / borrowed.toNat := by
  have range := value.toNat_lt
  have ordered : maxRepay.toNat < borrowed.toNat := UInt64.lt_iff_toNat_lt.mp smaller
  have quotient : value.toNat * maxRepay.toNat / borrowed.toNat ≤ value.toNat :=
    Nat.div_le_of_le_mul (by
      rw [Nat.mul_comm borrowed.toNat]
      exact Nat.mul_le_mul_left _ ordered.le)
  unfold scaleToRepay
  exact U64.toNat_ofNat (lt_of_le_of_lt quotient range)

theorem scaleToRepay_mul_le (value maxRepay borrowed : U64) (smaller : maxRepay < borrowed) :
    (scaleToRepay value maxRepay borrowed).toNat * borrowed.toNat ≤
      value.toNat * maxRepay.toNat := by
  rw [scaleToRepay_toNat _ _ _ smaller]
  exact Nat.div_mul_le_self _ _

theorem scaleToRepay_le (value maxRepay borrowed : U64) (smaller : maxRepay < borrowed) :
    (scaleToRepay value maxRepay borrowed).toNat ≤ value.toNat := by
  have ordered : maxRepay.toNat < borrowed.toNat := UInt64.lt_iff_toNat_lt.mp smaller
  apply Nat.le_of_mul_le_mul_right _ (Nat.zero_lt_of_lt ordered)
  calc
    _ ≤ value.toNat * maxRepay.toNat := scaleToRepay_mul_le _ _ _ smaller
    _ ≤ value.toNat * borrowed.toNat := Nat.mul_le_mul_left _ ordered.le

theorem LiquidationResultWithBonus.adjustForMaxRepay_le (self : LiquidationResultWithBonus)
    (maxRepay : U64) :
    (self.adjustForMaxRepay maxRepay).borrowedAtomsToRepay.toNat ≤
        self.borrowedAtomsToRepay.toNat ∧
      (self.adjustForMaxRepay maxRepay).borrowedAtomsToRepay.toNat ≤ maxRepay.toNat ∧
      (self.adjustForMaxRepay maxRepay).collateralAtomsToLiquidate.toNat ≤
        self.collateralAtomsToLiquidate.toNat ∧
      (self.adjustForMaxRepay maxRepay).collateralAtomsLiquidationBonus.toNat ≤
        self.collateralAtomsLiquidationBonus.toNat := by
  unfold adjustForMaxRepay
  split
  · rename_i smaller
    have ordered : maxRepay.toNat < self.borrowedAtomsToRepay.toNat :=
      UInt64.lt_iff_toNat_lt.mp smaller
    exact ⟨ordered.le, le_rfl, scaleToRepay_le _ _ _ smaller, scaleToRepay_le _ _ _ smaller⟩
  · rename_i within
    rw [UInt64.lt_iff_toNat_lt] at within
    exact ⟨le_rfl, by omega, le_rfl, le_rfl⟩

theorem LiquidationResultWithBonus.adjustForMaxRepay_self (self : LiquidationResultWithBonus) :
    self.adjustForMaxRepay self.borrowedAtomsToRepay = self :=
  if_neg (UInt64.lt_irrefl self.borrowedAtomsToRepay)

theorem liquidationBonus_le (result : LiquidationResult) (collateralAtoms : U64)
    (liquidationFee : IFixedPoint) (liquidation : LiquidationResultWithBonus)
    (success : liquidationBonus result collateralAtoms liquidationFee = .ok liquidation) :
    liquidation.collateralAtomsToLiquidate.toNat +
      liquidation.collateralAtomsLiquidationBonus.toNat ≤ collateralAtoms.toNat := by
  simp only [liquidationBonus, except_bind_ok, U64.safeAdd_ok, except_ite_ok, U64.safeSub_ok,
    except_pure_ok, UInt64.lt_iff_toNat_lt] at success
  obtain ⟨fee, -, bonus, -, total, total_eq, ⟨-, cut, cut_eq, rfl⟩ | ⟨fits, rfl⟩⟩ := success
  · dsimp only
    omega
  · dsimp only
    omega

theorem computeLiquidationWithFee_le (borrowedAtoms : U64) (borrowDecimals : UInt8)
    (supplyOracle : OracleRate) (collateralAtoms : U64) (collateralDecimals : UInt8)
    (collateralOracle : OracleRate) (newLtvAfterLiquidationFee liquidationFee : IFixedPoint)
    (maxBorrowedAtomsToRepay : U64) (liquidation : LiquidationResultWithBonus)
    (success : computeLiquidationWithFee borrowedAtoms borrowDecimals supplyOracle collateralAtoms
      collateralDecimals collateralOracle newLtvAfterLiquidationFee liquidationFee
      maxBorrowedAtomsToRepay = .ok liquidation) :
    liquidation.collateralAtomsToLiquidate.toNat +
      liquidation.collateralAtomsLiquidationBonus.toNat ≤ collateralAtoms.toNat := by
  simp only [computeLiquidationWithFee, except_bind_ok] at success
  obtain ⟨_, -, _, -, _, -, _, -, result, -, bonus⟩ := success
  exact liquidationBonus_le _ _ _ _ bonus

end AutaraLending
