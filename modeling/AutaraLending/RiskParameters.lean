import AutaraLending.MarketConfig
import AutaraLending.Support.Machine

/-! The risk parameters of a market through any sequence of updates, and the divisor of a
liquidation that rests on them. -/

namespace AutaraLending

open Support

/-- An update of a market configuration. -/
inductive ConfigUpdate where
  | updateLtv (ltvConfig : LtvConfig)
  | updateMaxUtilisationRate (maxUtilisationRate : IFixedPoint)
  | setLendingMarketFee (lendingMarketFeeInBps : UInt16)
  | updateMaxSupplyAtoms (maxSupplyAtoms : U64)

namespace ConfigUpdate

def execute : ConfigUpdate → LendingMethod MarketConfig Unit
  | .updateLtv ltvConfig => MarketConfig.updateLtv ltvConfig
  | .updateMaxUtilisationRate rate => MarketConfig.updateMaxUtilisationRate rate
  | .setLendingMarketFee bps => MarketConfig.setLendingMarketFee bps
  | .updateMaxSupplyAtoms atoms => MarketConfig.updateMaxSupplyAtoms atoms

theorem execute_keepsOnFailure (update : ConfigUpdate) : update.execute.KeepsOnFailure := by
  cases update with
  | updateLtv ltvConfig =>
      refine Method.reads_self.bind fun _ => ?_
      refine (Method.reads_rejectIf _ _).bind fun _ => ?_
      refine (Method.reads_rejectIf _ _).bind fun _ => ?_
      refine (Method.reads_rejectIf _ _).bind fun _ => ?_
      refine (Method.reads_rejectIf _ _).bind fun _ => ?_
      refine (Method.reads_lift _).bind fun _ => ?_
      refine (Method.reads_lift _).bind fun _ => ?_
      refine (Method.reads_rejectIf _ _).bind fun _ => ?_
      exact Method.keepsOnFailure_assign _
  | updateMaxUtilisationRate rate =>
      refine (Method.reads_rejectIf _ _).bind fun _ => ?_
      exact Method.reads_self.bind fun _ => Method.keepsOnFailure_assign _
  | setLendingMarketFee bps =>
      refine (Method.reads_rejectIf _ _).bind fun _ => ?_
      exact Method.reads_self.bind fun _ => Method.keepsOnFailure_assign _
  | updateMaxSupplyAtoms atoms =>
      exact Method.reads_self.bind fun _ => Method.keepsOnFailure_assign _

end ConfigUpdate

/-- The bound on the unhealthy loan-to-value ratio with the bonus on it, rounded as the code
rounds the product. -/
def LtvConfig.BonusCovered (ltv : LtvConfig) : Prop :=
  ltv.unhealthyLtv.bits * (2 ^ 48 + ltv.liquidationBonus.bits) / 2 ^ 48 ≤
    maxLtvWithLiquidationBonus.bits

/-- Risk parameters under which every liquidation is well defined. -/
structure MarketConfig.RiskSafe (c : MarketConfig) : Prop where
  maxLtv_nonneg : 0 ≤ c.ltvConfig.maxLtv.bits
  maxLtv_lt : c.ltvConfig.maxLtv < c.ltvConfig.unhealthyLtv
  bonus_ge : minLiquidationBonus ≤ c.ltvConfig.liquidationBonus
  bonus_le : c.ltvConfig.liquidationBonus ≤ maxLiquidationBonus
  covered : c.ltvConfig.BonusCovered
  utilisation_le : c.maxUtilisationRate ≤ AutaraLending.maxUtilisationRate
  fee_le : c.lendingMarketFeeInBps.toNat ≤ 2000

namespace MarketConfig

theorem updateLtv_covered (ltvConfig : LtvConfig) (c c' : MarketConfig) (u : Unit)
    (success : (updateLtv ltvConfig).Succeeds c u c') : ltvConfig.BonusCovered := by
  simp only [updateLtv, Method.succeeds_bind, Method.succeeds_self, Method.succeeds_rejectIf,
    Method.succeeds_lift, Fixed.lt_def, Fixed.safeAdd_ok, Fixed.safeMul_ok, Fixed.one_bits,
    i80f48_frac, not_lt] at success
  obtain ⟨_, _, -, _, _, -, _, _, -, _, _, -, _, _, -, onePlus, _, ⟨onePlus_eq, -⟩, withBonus, _,
    ⟨withBonus_eq, -⟩, _, _, ⟨margin, -⟩, -⟩ := success
  unfold LtvConfig.BonusCovered
  rw [onePlus_eq, withBonus_eq]
  exact margin

theorem fee_le_of_not_lt (bps : UInt16) (within : ¬ maxLendingMarketFeeInBps < bps) :
    bps.toNat ≤ 2000 := by
  have cap : maxLendingMarketFeeInBps.toNat = 2000 := by decide
  rw [UInt16.lt_iff_toNat_lt, cap] at within
  omega

theorem initializeConfig_riskSafe (bump index : UInt8) (curator : Pubkey) (ltvConfig : LtvConfig)
    (maxUtilisationRate : IFixedPoint) (maxSupplyAtoms : U64) (lendingMarketFeeInBps : UInt16)
    (globalConfig : GlobalConfig) (c c' : MarketConfig) (u : Unit)
    (success : (initializeConfig bump index curator ltvConfig maxUtilisationRate maxSupplyAtoms
      lendingMarketFeeInBps globalConfig).Succeeds c u c') : c'.RiskSafe := by
  simp only [initializeConfig, Method.succeeds_bind, Method.succeeds_self, Method.succeeds_assign,
    updateMaxUtilisationRate_succeeds, setLendingMarketFee_succeeds,
    syncGlobalConfig_succeeds] at success
  obtain ⟨_, _, ltv, _, _, ⟨rate, rfl⟩, _, _, ⟨fee, rfl⟩, _, _, ⟨rfl, rfl⟩, _, _, rfl, rfl⟩ :=
    success
  obtain ⟨rfl, -, sound⟩ := updateLtv_succeeds _ _ _ _ ltv
  exact ⟨sound.maxLtv_nonneg, sound.maxLtv_lt, sound.bonus_ge, sound.bonus_le,
    updateLtv_covered _ _ _ _ ltv, Int.not_lt.mp rate, fee_le_of_not_lt _ fee⟩

/-- An accepted update keeps the parameters safe and does not lower the unhealthy ratio. -/
theorem RiskSafe.update {c c' : MarketConfig} (safe : c.RiskSafe) (update : ConfigUpdate) (u : Unit)
    (success : update.execute.Succeeds c u c') :
    c'.RiskSafe ∧ c.ltvConfig.unhealthyLtv ≤ c'.ltvConfig.unhealthyLtv := by
  cases update with
  | updateLtv ltvConfig =>
      obtain ⟨rfl, kept, sound⟩ := updateLtv_succeeds _ _ _ _ success
      exact ⟨⟨sound.maxLtv_nonneg, sound.maxLtv_lt, sound.bonus_ge, sound.bonus_le,
        updateLtv_covered _ _ _ _ success, safe.utilisation_le, safe.fee_le⟩, kept⟩
  | updateMaxUtilisationRate rate =>
      obtain ⟨within, rfl⟩ := (updateMaxUtilisationRate_succeeds _ _ _ _).mp success
      exact ⟨⟨safe.maxLtv_nonneg, safe.maxLtv_lt, safe.bonus_ge, safe.bonus_le, safe.covered,
        Int.not_lt.mp within, safe.fee_le⟩, Int.le_refl _⟩
  | setLendingMarketFee bps =>
      obtain ⟨within, rfl⟩ := (setLendingMarketFee_succeeds _ _ _ _).mp success
      exact ⟨⟨safe.maxLtv_nonneg, safe.maxLtv_lt, safe.bonus_ge, safe.bonus_le, safe.covered,
        safe.utilisation_le, fee_le_of_not_lt _ within⟩, Int.le_refl _⟩
  | updateMaxSupplyAtoms atoms =>
      obtain rfl := (updateMaxSupplyAtoms_succeeds _ _ _ _).mp success
      exact ⟨⟨safe.maxLtv_nonneg, safe.maxLtv_lt, safe.bonus_ge, safe.bonus_le, safe.covered,
        safe.utilisation_le, safe.fee_le⟩, Int.le_refl _⟩

end MarketConfig

/-! The ratio that a liquidation aims at. -/

namespace LtvConfig

theorem targetLtvAfterLiquidation_bits (ltv : LtvConfig) (sound : ltv.Sound) :
    ltv.targetLtvAfterLiquidation.bits =
      max (ltv.unhealthyLtv.bits * targetLtvLiquidationMargin.bits / 2 ^ 48) ltv.maxLtv.bits := by
  have margin : targetLtvLiquidationMargin.bits = 253327479039590 := by decide
  have nonneg := sound.maxLtv_nonneg
  have ordered := sound.maxLtv_lt
  have below_one := sound.unhealthyLtv_lt_one
  obtain ⟨target, bits_eq⟩ := IFixedPoint.exists_bits
    (ltv.unhealthyLtv.bits * targetLtvLiquidationMargin.bits / 2 ^ 48)
    (by rw [margin]; omega) (by rw [margin]; omega)
  have product : ltv.unhealthyLtv.safeMul targetLtvLiquidationMargin = .ok target :=
    (Fixed.safeMul_ok _ _ _).mpr bits_eq.symm
  simp only [targetLtvAfterLiquidation, product]
  rw [← bits_eq]
  by_cases below : target < ltv.maxLtv
  · rw [if_pos below]
    exact (max_eq_right (le_of_lt ((Fixed.lt_def _ _).mp below))).symm
  · rw [if_neg below]
    exact (max_eq_left (Int.not_lt.mp below)).symm

theorem targetLtvAfterLiquidation_lt (ltv : LtvConfig) (sound : ltv.Sound) :
    ltv.targetLtvAfterLiquidation < ltv.unhealthyLtv := by
  have margin : targetLtvLiquidationMargin.bits = 253327479039590 := by decide
  have nonneg := sound.maxLtv_nonneg
  have ordered := sound.maxLtv_lt
  rw [Fixed.lt_def, targetLtvAfterLiquidation_bits ltv sound, margin]
  apply max_lt _ ordered
  omega

/-- `1 - target * (1 + bonus)`, computed as a liquidation computes it. -/
def liquidationDivisor (ltv : LtvConfig) : LendingResult IFixedPoint := do
  let onePlusLiquidationFee ← (Fixed.one : IFixedPoint).safeAdd ltv.liquidationBonus
  let adjustedNewLtv ← ltv.targetLtvAfterLiquidation.safeMul onePlusLiquidationFee
  (Fixed.one : IFixedPoint).safeSub adjustedNewLtv

theorem liquidationDivisor_pos (ltv : LtvConfig) (sound : ltv.Sound) (covered : ltv.BonusCovered) :
    ∃ divisor, ltv.liquidationDivisor = .ok divisor ∧ 0 < divisor.bits := by
  have cap : maxLtvWithLiquidationBonus.bits = 278660226943549 := by decide
  have bonus_floor : minLiquidationBonus.bits = 281474976711 := by decide
  have bonus_cap : maxLiquidationBonus.bits = 28147497671066 := by decide
  have bonus_ge := sound.bonus_ge
  have bonus_le := sound.bonus_le
  have target_le : ltv.targetLtvAfterLiquidation.bits ≤ ltv.unhealthyLtv.bits :=
    le_of_lt (targetLtvAfterLiquidation_lt ltv sound)
  have target_nonneg : 0 ≤ ltv.targetLtvAfterLiquidation.bits := by
    rw [targetLtvAfterLiquidation_bits ltv sound]
    exact le_max_of_le_right sound.maxLtv_nonneg
  have adjusted_nonneg :
      0 ≤ ltv.targetLtvAfterLiquidation.bits * (2 ^ 48 + ltv.liquidationBonus.bits) / 2 ^ 48 :=
    Int.ediv_nonneg (mul_nonneg target_nonneg (by omega)) (by norm_num)
  have adjusted_le :
      ltv.targetLtvAfterLiquidation.bits * (2 ^ 48 + ltv.liquidationBonus.bits) / 2 ^ 48 ≤
        maxLtvWithLiquidationBonus.bits :=
    le_trans (Int.ediv_le_ediv (by norm_num) (Int.mul_le_mul_of_nonneg_right target_le (by omega)))
      covered
  obtain ⟨onePlus, onePlus_eq⟩ :=
    IFixedPoint.exists_bits (2 ^ 48 + ltv.liquidationBonus.bits) (by omega) (by omega)
  rw [← onePlus_eq] at adjusted_nonneg adjusted_le
  obtain ⟨adjusted, adjusted_eq⟩ := IFixedPoint.exists_bits
    (ltv.targetLtvAfterLiquidation.bits * onePlus.bits / 2 ^ 48) (by omega) (by omega)
  rw [← adjusted_eq] at adjusted_nonneg adjusted_le
  obtain ⟨divisor, divisor_eq⟩ :=
    IFixedPoint.exists_bits (2 ^ 48 - adjusted.bits) (by omega) (by omega)
  refine ⟨divisor, ?_, by omega⟩
  simp only [liquidationDivisor, except_bind_ok, Fixed.safeAdd_ok, Fixed.safeMul_ok,
    Fixed.safeSub_ok, Fixed.one_bits, i80f48_frac]
  exact ⟨onePlus, onePlus_eq.symm, adjusted, adjusted_eq.symm, divisor_eq.symm⟩

end LtvConfig

theorem MarketConfig.RiskSafe.sound {c : MarketConfig} (safe : c.RiskSafe) : c.ltvConfig.Sound := by
  have cap : maxLtvWithLiquidationBonus.bits = 278660226943549 := by decide
  have bonus_floor : minLiquidationBonus.bits = 281474976711 := by decide
  have nonneg := safe.maxLtv_nonneg
  have ordered := (Fixed.lt_def _ _).mp safe.maxLtv_lt
  have bonus_ge := (Fixed.le_def _ _).mp safe.bonus_ge
  have covered := safe.covered
  refine ⟨nonneg, ordered, ?_, bonus_ge, safe.bonus_le⟩
  have grown : c.ltvConfig.unhealthyLtv.bits * 2 ^ 48 ≤
      c.ltvConfig.unhealthyLtv.bits * (2 ^ 48 + c.ltvConfig.liquidationBonus.bits) :=
    Int.mul_le_mul_of_nonneg_left (by omega) (by omega)
  unfold LtvConfig.BonusCovered at covered
  omega

namespace MarketConfig

/-- The configuration after some updates, the rejected ones without effect. -/
def afterUpdates (start : MarketConfig) (updates : List ConfigUpdate) : MarketConfig :=
  Machine.run ConfigUpdate.execute start updates

theorem RiskSafe.run {start : MarketConfig} (safe : start.RiskSafe) (updates : List ConfigUpdate) :
    (start.afterUpdates updates).RiskSafe := by
  apply Machine.run_invariant updates safe
  intro c update u c' safe success
  exact (safe.update update u success).1

theorem unhealthyLtv_run {start : MarketConfig} (safe : start.RiskSafe)
    (updates : List ConfigUpdate) :
    start.ltvConfig.unhealthyLtv ≤ (start.afterUpdates updates).ltvConfig.unhealthyLtv := by
  have both : (start.afterUpdates updates).RiskSafe ∧
      start.ltvConfig.unhealthyLtv.bits ≤
        (start.afterUpdates updates).ltvConfig.unhealthyLtv.bits := by
    apply @Machine.run_invariant _ _ _ _ ConfigUpdate.execute (fun c => c.RiskSafe ∧
      start.ltvConfig.unhealthyLtv.bits ≤ c.ltvConfig.unhealthyLtv.bits)
    · exact ⟨safe, le_rfl⟩
    · intro c update u c' reached success
      obtain ⟨safe', kept⟩ := reached.1.update update u success
      exact ⟨safe', le_trans reached.2 kept⟩
  exact both.2

/-- After a successful initialisation and any updates, with any arguments: the parameters are
safe, the unhealthy ratio never falls later, a rejected update has changed nothing, and a
liquidation aims below the unhealthy ratio and divides by a positive number. -/
theorem risk_parameters_stay_safe (bump index : UInt8) (curator : Pubkey) (ltvConfig : LtvConfig)
    (maxUtilisationRate : IFixedPoint) (maxSupplyAtoms : U64) (lendingMarketFeeInBps : UInt16)
    (globalConfig : GlobalConfig) (start : MarketConfig)
    (initialized : (initializeConfig bump index curator ltvConfig maxUtilisationRate maxSupplyAtoms
      lendingMarketFeeInBps globalConfig).Succeeds zeroed () start)
    (updates : List ConfigUpdate) :
    (start.afterUpdates updates).RiskSafe ∧
      (∀ later, (start.afterUpdates updates).ltvConfig.unhealthyLtv ≤
        (start.afterUpdates (updates ++ later)).ltvConfig.unhealthyLtv) ∧
      (∀ (update : ConfigUpdate) failure c',
        update.execute (start.afterUpdates updates) = (.error failure, c') →
          c' = start.afterUpdates updates) ∧
      (start.afterUpdates updates).ltvConfig.targetLtvAfterLiquidation <
        (start.afterUpdates updates).ltvConfig.unhealthyLtv ∧
      ∃ divisor, (start.afterUpdates updates).ltvConfig.liquidationDivisor = .ok divisor ∧
        0 < divisor.bits := by
  have safe := (initializeConfig_riskSafe _ _ _ _ _ _ _ _ _ _ _ initialized).run updates
  refine ⟨safe, ?_, ?_, ?_, ?_⟩
  · intro later
    have later_eq : start.afterUpdates (updates ++ later) =
        (start.afterUpdates updates).afterUpdates later := Machine.run_append _ _ _ _
    rw [later_eq]
    exact unhealthyLtv_run safe later
  · intro update failure c' rejected
    exact update.execute_keepsOnFailure _ _ _ rejected
  · exact LtvConfig.targetLtvAfterLiquidation_lt _ safe.sound
  · exact LtvConfig.liquidationDivisor_pos _ safe.sound safe.covered

def usualLtv : LtvConfig := ⟨.lit 70 2, .lit 80 2, .lit 5 2⟩

def usualConfig : MarketConfig :=
  (initializeConfig 255 0 (Vector.replicate 32 1) usualLtv (.lit 90 2) 1000000 1000
    ⟨Vector.replicate 32 2, Vector.replicate 32 0, Vector.replicate 32 3, 5000⟩ zeroed).2

def usualUpdates : List ConfigUpdate :=
  [.updateLtv ⟨⟨-2 ^ 127, by decide, by decide⟩, .lit 80 2, .lit 5 2⟩,
    .updateLtv ⟨.lit 0 1, .lit 85 2, .lit 1 1⟩, .setLendingMarketFee 2000]

theorem usual_config_stays_safe :
    (usualConfig.afterUpdates usualUpdates).RiskSafe ∧
      ∃ divisor, (usualConfig.afterUpdates usualUpdates).ltvConfig.liquidationDivisor =
        .ok divisor ∧
        0 < divisor.bits := by
  obtain ⟨safe, -, -, -, divisor⟩ :=
    risk_parameters_stay_safe 255 0 (Vector.replicate 32 1) usualLtv
    (.lit 90 2) 1000000 1000 ⟨Vector.replicate 32 2, Vector.replicate 32 0, Vector.replicate 32 3,
      5000⟩
    usualConfig (by decide +kernel) usualUpdates
  exact ⟨safe, divisor⟩

end MarketConfig

end AutaraLending
