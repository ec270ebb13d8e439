import AutaraLending.Oracle

namespace AutaraLending

open Support

structure GlobalConfig where
  admin : Pubkey
  nominatedAdmin : Pubkey
  feeReceiver : Pubkey
  protocolFeeShareInBps : UInt16
  deriving DecidableEq

structure LtvConfig where
  maxLtv : IFixedPoint
  unhealthyLtv : IFixedPoint
  liquidationBonus : IFixedPoint
  deriving DecidableEq

structure MarketConfig where
  bump : UInt8
  index : UInt8
  lendingMarketFeeInBps : UInt16
  protocolFeeShareInBps : UInt16
  curator : Pubkey
  ltvConfig : LtvConfig
  maxUtilisationRate : IFixedPoint
  maxSupplyAtoms : U64
  activeWhitelistedLiquidators : U64
  deriving DecidableEq

def maxLtvWithLiquidationBonus : IFixedPoint := .lit 99 2
def maxLiquidationBonus : IFixedPoint := .lit 1 1
def minLiquidationBonus : IFixedPoint := .lit 1 3
def maxUtilisationRate : IFixedPoint := .lit 99 2
def maxLendingMarketFeeInBps : UInt16 := (percentToBps 20).toUInt16
def targetLtvLiquidationMargin : IFixedPoint := .lit 90 2

def LtvConfig.targetLtvAfterLiquidation (self : LtvConfig) : IFixedPoint :=
  let target :=
    match self.unhealthyLtv.safeMul targetLtvLiquidationMargin with
    | .ok target => target
    | .error _ => self.unhealthyLtv
  if target < self.maxLtv then self.maxLtv else target

/-- The order and the margin that an accepted loan-to-value configuration has. -/
structure LtvConfig.Sound (ltv : LtvConfig) : Prop where
  maxLtv_nonneg : 0 ≤ ltv.maxLtv.bits
  maxLtv_lt : ltv.maxLtv.bits < ltv.unhealthyLtv.bits
  unhealthyLtv_lt_one : ltv.unhealthyLtv.bits < 2 ^ 48
  bonus_ge : minLiquidationBonus.bits ≤ ltv.liquidationBonus.bits
  bonus_le : ltv.liquidationBonus.bits ≤ maxLiquidationBonus.bits

namespace MarketConfig

def zeroed : MarketConfig where
  bump := 0
  index := 0
  lendingMarketFeeInBps := 0
  protocolFeeShareInBps := 0
  curator := Vector.replicate 32 0
  ltvConfig := ⟨Fixed.zero, Fixed.zero, Fixed.zero⟩
  maxUtilisationRate := Fixed.zero
  maxSupplyAtoms := 0
  activeWhitelistedLiquidators := 0

def lendingMarketFeeFixed (self : MarketConfig) : UFixedPoint :=
  bpsToFixedPoint self.lendingMarketFeeInBps.toUInt64

def syncGlobalConfig (globalConfig : GlobalConfig) : LendingMethod MarketConfig Unit := do
  let self ← Method.self
  Method.assign { self with protocolFeeShareInBps := globalConfig.protocolFeeShareInBps }

def updateMaxSupplyAtoms (maxSupplyAtoms : U64) : LendingMethod MarketConfig Unit := do
  let self ← Method.self
  Method.assign { self with maxSupplyAtoms }

def setLendingMarketFee (lendingMarketFeeInBps : UInt16) : LendingMethod MarketConfig Unit := do
  Method.rejectIf (maxLendingMarketFeeInBps < lendingMarketFeeInBps) LendingError.feeTooHigh.into
  let self ← Method.self
  Method.assign { self with lendingMarketFeeInBps }

def updateMaxUtilisationRate (rate : IFixedPoint) : LendingMethod MarketConfig Unit := do
  Method.rejectIf (AutaraLending.maxUtilisationRate < rate)
    LendingError.invalidMaxUtilisationRate.into
  let self ← Method.self
  Method.assign { self with maxUtilisationRate := rate }

def updateLtv (ltvConfig : LtvConfig) : LendingMethod MarketConfig Unit := do
  let self ← Method.self
  Method.rejectIf (ltvConfig.maxLtv.isNegative = true ∨ ltvConfig.unhealthyLtv.isNegative = true ∨
      ltvConfig.liquidationBonus.isNegative = true)
    (LendingError.invalidLtvConfig.withMsg "ltv values must be non-negative")
  Method.rejectIf (ltvConfig.unhealthyLtv < self.ltvConfig.unhealthyLtv)
    (LendingError.invalidLtvConfig.withMsg "cannot reduce unhealthy ltv")
  Method.rejectIf (ltvConfig.unhealthyLtv ≤ ltvConfig.maxLtv)
    (LendingError.invalidLtvConfig.withMsg "max ltv must be less than unhealthy ltv")
  Method.rejectIf (maxLiquidationBonus < ltvConfig.liquidationBonus ∨
      ltvConfig.liquidationBonus < minLiquidationBonus)
    (LendingError.invalidLtvConfig.withMsg "liquidation bonus out of range")
  let onePlusLiquidationBonus ← Method.lift
    ((Fixed.one : IFixedPoint).safeAdd ltvConfig.liquidationBonus)
  let unhealthyLtvWithLiquidationBonus ← Method.lift
    (ltvConfig.unhealthyLtv.safeMul onePlusLiquidationBonus)
  Method.rejectIf (maxLtvWithLiquidationBonus < unhealthyLtvWithLiquidationBonus)
    (LendingError.invalidLtvConfig.withMsg "insufficient margin for liquidation bonus")
  Method.assign { self with ltvConfig }

def initializeConfig (bump index : UInt8) (curator : Pubkey) (ltvConfig : LtvConfig)
    (maxUtilisationRate : IFixedPoint) (maxSupplyAtoms : U64) (lendingMarketFeeInBps : UInt16)
    (globalConfig : GlobalConfig) : LendingMethod MarketConfig Unit := do
  updateLtv ltvConfig
  updateMaxUtilisationRate maxUtilisationRate
  setLendingMarketFee lendingMarketFeeInBps
  let self ← Method.self
  Method.assign { self with bump, index, curator, maxSupplyAtoms }
  syncGlobalConfig globalConfig

/-! What the accepted updates keep. -/

theorem lendingMarketFeeFixed_le (self : MarketConfig)
    (within : ¬ maxLendingMarketFeeInBps < self.lendingMarketFeeInBps) :
    self.lendingMarketFeeFixed.bits ≤ 2 ^ 64 := by
  have cap : maxLendingMarketFeeInBps.toNat = 2000 := by decide
  have scale : oneInBps.toNat = 10000 := rfl
  rw [UInt16.lt_iff_toNat_lt, cap] at within
  simp only [lendingMarketFeeFixed, bpsToFixedPoint, scale, UInt16.toNat_toUInt64]
  omega

theorem syncGlobalConfig_succeeds (globalConfig : GlobalConfig) (c c' : MarketConfig) (u : Unit) :
    (syncGlobalConfig globalConfig).Succeeds c u c' ↔
      c' = { c with protocolFeeShareInBps := globalConfig.protocolFeeShareInBps } := by
  simp only [syncGlobalConfig, Method.succeeds_bind, Method.succeeds_self, Method.succeeds_assign]
  constructor
  · rintro ⟨_, _, ⟨rfl, rfl⟩, rfl⟩
    rfl
  · rintro rfl
    exact ⟨c, c, ⟨rfl, rfl⟩, rfl⟩

theorem updateMaxSupplyAtoms_succeeds (atoms : U64) (c c' : MarketConfig) (u : Unit) :
    (updateMaxSupplyAtoms atoms).Succeeds c u c' ↔ c' = { c with maxSupplyAtoms := atoms } := by
  simp only [updateMaxSupplyAtoms, Method.succeeds_bind, Method.succeeds_self,
    Method.succeeds_assign]
  constructor
  · rintro ⟨_, _, ⟨rfl, rfl⟩, rfl⟩
    rfl
  · rintro rfl
    exact ⟨c, c, ⟨rfl, rfl⟩, rfl⟩

theorem setLendingMarketFee_succeeds (bps : UInt16) (c c' : MarketConfig) (u : Unit) :
    (setLendingMarketFee bps).Succeeds c u c' ↔
      ¬ maxLendingMarketFeeInBps < bps ∧ c' = { c with lendingMarketFeeInBps := bps } := by
  simp only [setLendingMarketFee, Method.succeeds_bind, Method.succeeds_rejectIf,
    Method.succeeds_self, Method.succeeds_assign]
  constructor
  · rintro ⟨_, _, ⟨within, rfl⟩, _, _, ⟨rfl, rfl⟩, rfl⟩
    exact ⟨within, rfl⟩
  · rintro ⟨within, rfl⟩
    exact ⟨(), c, ⟨within, rfl⟩, c, c, ⟨rfl, rfl⟩, rfl⟩

theorem updateMaxUtilisationRate_succeeds (rate : IFixedPoint) (c c' : MarketConfig) (u : Unit) :
    (updateMaxUtilisationRate rate).Succeeds c u c' ↔
      ¬ AutaraLending.maxUtilisationRate < rate ∧ c' = { c with maxUtilisationRate := rate } := by
  simp only [updateMaxUtilisationRate, Method.succeeds_bind, Method.succeeds_rejectIf,
    Method.succeeds_self, Method.succeeds_assign]
  constructor
  · rintro ⟨_, _, ⟨within, rfl⟩, _, _, ⟨rfl, rfl⟩, rfl⟩
    exact ⟨within, rfl⟩
  · rintro ⟨within, rfl⟩
    exact ⟨(), c, ⟨within, rfl⟩, c, c, ⟨rfl, rfl⟩, rfl⟩

theorem updateLtv_succeeds (ltvConfig : LtvConfig) (c c' : MarketConfig) (u : Unit)
    (success : (updateLtv ltvConfig).Succeeds c u c') :
    c' = { c with ltvConfig } ∧ c.ltvConfig.unhealthyLtv.bits ≤ ltvConfig.unhealthyLtv.bits ∧
      ltvConfig.Sound := by
  simp only [updateLtv, Method.succeeds_bind, Method.succeeds_self, Method.succeeds_rejectIf,
    Method.succeeds_lift, Method.succeeds_assign, Fixed.isNegative_iff, Fixed.lt_def, Fixed.le_def,
    Fixed.safeAdd_ok, Fixed.safeMul_ok, Fixed.one_bits, i80f48_frac, not_or, not_lt,
    not_le] at success
  obtain ⟨_, _, ⟨rfl, rfl⟩, _, _, ⟨nonneg, rfl⟩, _, _, ⟨kept, rfl⟩, _, _, ⟨ordered, rfl⟩, _, _,
    ⟨bonus, rfl⟩, onePlus, _, ⟨onePlus_eq, rfl⟩, withBonus, _, ⟨withBonus_eq, rfl⟩, _, _,
      ⟨margin, rfl⟩,
    rfl⟩ := success
  refine ⟨rfl, kept, ⟨nonneg.1, ordered, ?_, bonus.2, bonus.1⟩⟩
  have cap : maxLtvWithLiquidationBonus.bits = 278660226943549 := by decide
  have grown : ltvConfig.unhealthyLtv.bits * 2 ^ 48 ≤ ltvConfig.unhealthyLtv.bits * onePlus.bits :=
    Int.mul_le_mul_of_nonneg_left (by omega) nonneg.2.1
  omega

end MarketConfig

end AutaraLending
