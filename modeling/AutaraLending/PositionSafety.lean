import AutaraLending.Effect

/-! A position that passed the loan-to-value check stays healthy until time passes, a price
moves, or it is itself acted upon. -/

namespace AutaraLending

open Support

theorem Market.borrowPositionHealth_congr (m m' : Market) (p : BorrowPosition)
    (collateralOracle supplyOracle : OracleRate)
    (price : m'.supplyVault.borrowSharesTracker.atomsPerShare =
      m.supplyVault.borrowSharesTracker.atomsPerShare)
    (supplyDecimals : m'.supplyVault.mintDecimals = m.supplyVault.mintDecimals)
    (collateralDecimals : m'.collateralVault.mintDecimals = m.collateralVault.mintDecimals) :
    m'.borrowPositionHealth p collateralOracle supplyOracle =
      m.borrowPositionHealth p collateralOracle supplyOracle := by
  simp only [borrowPositionHealth, borrowPositionHealthWithCollateralAtoms,
    SupplyVault.borrowSharesToAtoms, SharesTracker.sharesToAtoms, SupplyVault.decimals,
    CollateralVault.decimals, price, supplyDecimals, collateralDecimals]

/-- A position below the loan-to-value at which it could be liquidated. -/
structure MarketWith.Healthy (collateralOracle supplyOracle : OracleRate)
    (s : MarketWith BorrowPosition) : Prop where
  inactive : s.position.sweptCollateralAtoms = 0
  health : ∃ health,
    s.market.borrowPositionHealth s.position collateralOracle supplyOracle = .ok health ∧
      health.ltv.bits < s.market.config.ltvConfig.unhealthyLtv.bits
  ltv : s.market.config.ltvConfig.Sound

namespace MarketWith

theorem borrow_healthy (atoms : U64) (supplyOracle collateralOracle : OracleRate)
    (s s' : MarketWith BorrowPosition) (u : Unit) (sound : s.market.config.ltvConfig.Sound)
    (success : (borrow atoms supplyOracle collateralOracle).Succeeds s u s') :
    Healthy collateralOracle supplyOracle s' := by
  obtain ⟨inactive, shares, tracker, health, _, -, market_eq, owed, health_ok, bounded, -⟩ :=
    borrow_succeeds _ _ _ _ _ _ success
  obtain ⟨-, -, swept⟩ := BorrowPosition.borrow_succeeds _ _ _ _ _ owed
  have config : s'.market.config = s.market.config := by
    rw [market_eq]
    rfl
  refine ⟨swept.trans inactive, ⟨health, health_ok, ?_⟩, by rw [config]; exact sound⟩
  rw [config] at bounded ⊢
  exact lt_of_le_of_lt bounded sound.maxLtv_lt

theorem withdrawCollateral_healthy (atoms : U64) (collateralOracle supplyOracle : OracleRate)
    (s s' : MarketWith BorrowPosition) (u : Unit) (sound : s.market.config.ltvConfig.Sound)
    (success : (withdrawCollateral atoms collateralOracle supplyOracle).Succeeds s u s') :
    Healthy collateralOracle supplyOracle s' := by
  obtain ⟨inactive, collateral, total, health, -, -, rfl, health_ok, bounded⟩ :=
    withdrawCollateral_succeeds _ _ _ _ _ _ success
  refine ⟨inactive, ⟨health, ?_, lt_of_le_of_lt bounded sound.maxLtv_lt⟩, sound⟩
  rw [← health_ok]
  exact Market.borrowPositionHealth_congr _ _ _ _ _ rfl rfl rfl

variable {collateralOracle supplyOracle : OracleRate} {s : MarketWith BorrowPosition}

theorem Healthy.sweep_inactive (healthy : Healthy collateralOracle supplyOracle s) :
    s.position.ensureCapitalSweepInactive = .ok () :=
  (BorrowPosition.ensureCapitalSweepInactive_ok _ _).mpr healthy.inactive

theorem Healthy.liquidate_fails (healthy : Healthy collateralOracle supplyOracle s)
    (maxRepayAtoms : U64) :
    (BorrowAction.liquidate collateralOracle supplyOracle maxRepayAtoms).execute s =
      (.error LendingError.positionIsHealthy.into, s) := by
  obtain ⟨health, health_ok, below⟩ := healthy.health
  have inactive := healthy.sweep_inactive
  rw [Market.borrowPositionHealth] at health_ok
  simp [BorrowAction.execute, liquidate, ensureCapitalSweepInactive, inactive, bind, Method.self,
    Method.lift, Market.computeLiquidationResultWithFee, Except.bind,
    Market.computeLiquidationResultWithFeeForCollateral, health_ok, Fixed.lt_def, below]

theorem Healthy.beginCapitalSweep_fails (healthy : Healthy collateralOracle supplyOracle s) :
    (BorrowAction.beginCapitalSweep collateralOracle supplyOracle).execute s =
      (.error LendingError.positionIsHealthy.into, s) := by
  obtain ⟨health, health_ok, below⟩ := healthy.health
  have inactive := healthy.sweep_inactive
  simp [BorrowAction.execute, beginCapitalSweep, ensureCapitalSweepInactive, inactive, bind,
    Method.self, Method.lift, health_ok, Method.rejectIf, Method.fail, Fixed.lt_def, below]

theorem Healthy.socializeLoss_fails (healthy : Healthy collateralOracle supplyOracle s) :
    (BorrowAction.socializeLoss collateralOracle supplyOracle).execute s =
      (.error LendingError.cannotSocializeDebtForHealthyPosition.into, s) := by
  obtain ⟨health, health_ok, below⟩ := healthy.health
  have solvent : health.ltv < (Fixed.one : IFixedPoint) := by
    rw [Fixed.lt_def, Fixed.one_bits]
    exact below.trans healthy.ltv.unhealthyLtv_lt_one
  have inactive := healthy.sweep_inactive
  simp [BorrowAction.execute, socializeLoss, ensureCapitalSweepInactive, inactive, bind,
    Method.self, Method.lift, health_ok, Method.rejectIf, Method.fail, solvent]

theorem Healthy.transfer (healthy : Healthy collateralOracle supplyOracle s) (m : Market)
    (price : m.supplyVault.borrowSharesTracker.atomsPerShare =
      s.market.supplyVault.borrowSharesTracker.atomsPerShare)
    (supplyDecimals : m.supplyVault.mintDecimals = s.market.supplyVault.mintDecimals)
    (collateralDecimals : m.collateralVault.mintDecimals = s.market.collateralVault.mintDecimals)
    (unhealthyLtv : s.market.config.ltvConfig.unhealthyLtv.bits ≤
      m.config.ltvConfig.unhealthyLtv.bits)
    (sound : m.config.ltvConfig.Sound) :
    Healthy collateralOracle supplyOracle ⟨m, s.position⟩ := by
  obtain ⟨health, health_ok, below⟩ := healthy.health
  refine ⟨healthy.inactive, ⟨health, ?_, lt_of_lt_of_le below unhealthyLtv⟩, sound⟩
  rw [← health_ok]
  exact Market.borrowPositionHealth_congr _ _ _ _ _ price supplyDecimals collateralDecimals

end MarketWith

/-- An operation that leaves the position under `key` and the clock of the market alone. A
sync at or before the time of the last update accrues nothing. -/
def Operation.Bystander {σ β : Type} (key : β) (now : Int64) : Operation σ β → Prop
  | .borrow other _ => other ≠ key
  | .market (.syncClock unixTimestamp) => ¬ now < unixTimestamp
  | _ => True

namespace Ledger

variable {σ β : Type} [DecidableEq σ] [DecidableEq β]

structure SafeAt (key : β) (collateralOracle supplyOracle : OracleRate) (now : Int64)
    (l : Ledger σ β) : Prop where
  healthy : MarketWith.Healthy collateralOracle supplyOracle (l.borrowView key)
  timestamp : l.market.supplyVault.lastUpdateUnixTimestamp = now

theorem SafeAt.step {key : β} {collateralOracle supplyOracle : OracleRate} {now : Int64}
    {l l' : Ledger σ β} (operation : Operation σ β)
    (safe : l.SafeAt key collateralOracle supplyOracle now)
    (bystander : operation.Bystander key now) (success : (execute operation).Succeeds l () l') :
    l'.SafeAt key collateralOracle supplyOracle now := by
  cases operation with
  | supply other action =>
      obtain ⟨atoms, s, executed, rfl⟩ := (execute_supply_succeeds _ _ _ _ _).mp success
      have effect := (action.execute_effect _ _ _ executed).market_eq
      constructor
      · apply safe.healthy.transfer s.market
        all_goals rw [effect]
        · rfl
        · rfl
        · rfl
        · exact le_rfl
        · exact safe.healthy.ltv
      · change s.market.supplyVault.lastUpdateUnixTimestamp = now
        rw [effect]
        exact safe.timestamp
  | borrow other action =>
      obtain ⟨atoms, s, executed, rfl⟩ := (execute_borrow_succeeds _ _ _ _ _).mp success
      have effect := action.execute_effect _ _ _ executed
      have kept : ((l.storeBorrow other s).receive atoms).borrowView key =
          ⟨s.market, l.borrowPositions key⟩ := by
        simp only [borrowView, receive, storeBorrow, Function.update_of_ne (Ne.symm bystander)]
      constructor
      · rw [kept]
        apply safe.healthy.transfer s.market effect.price
        all_goals rw [effect.market_eq]
        · rfl
        · rfl
        · exact le_rfl
        · exact safe.healthy.ltv
      · change s.market.supplyVault.lastUpdateUnixTimestamp = now
        rw [effect.market_eq]
        exact safe.timestamp
  | market action =>
      obtain ⟨atoms, market, executed, rfl⟩ := (execute_market_succeeds _ _ _ _).mp success
      have effect := action.execute_effect _ _ _ executed
      have idle : SupplyVault.Idle l.market.supplyVault market.supplyVault := by
        rcases effect.accrual with idle | ⟨unixTimestamp, rfl, ⟨sync⟩⟩
        · exact idle
        · have later := sync.later
          rw [safe.timestamp] at later
          exact absurd later bystander
      exact ⟨safe.healthy.transfer market (by rw [idle.borrow]; rfl) effect.supplyDecimals
        effect.collateralDecimals effect.unhealthyLtv (effect.ltv safe.healthy.ltv),
        idle.timestamp.trans safe.timestamp⟩

/-- After a successful borrow or collateral withdrawal, no operations of others make the
position liquidatable at the same time and prices. -/
theorem position_safe_after_ltv_check (l checked : Ledger σ β) (reachable : l.Reachable) (key : β)
    (action : BorrowAction) (collateralOracle supplyOracle : OracleRate)
    (checking : (∃ atoms, action = .borrow atoms supplyOracle collateralOracle) ∨
      ∃ atoms, action = .withdrawCollateral atoms collateralOracle supplyOracle)
    (success : (execute (.borrow key action)).Succeeds l () checked)
    (operations : List (Operation σ β))
    (bystanders : ∀ operation ∈ operations,
      operation.Bystander key checked.market.supplyVault.lastUpdateUnixTimestamp) :
    (∀ maxRepayAtoms,
        execute (.borrow key (.liquidate collateralOracle supplyOracle maxRepayAtoms))
            (checked.run operations) =
          (.error LendingError.positionIsHealthy.into, checked.run operations)) ∧
      execute (.borrow key (.beginCapitalSweep collateralOracle supplyOracle))
          (checked.run operations) =
        (.error LendingError.positionIsHealthy.into, checked.run operations) ∧
      execute (.borrow key (.socializeLoss collateralOracle supplyOracle))
          (checked.run operations) =
        (.error LendingError.cannotSocializeDebtForHealthyPosition.into,
          checked.run operations) := by
  have initial : checked.SafeAt key collateralOracle supplyOracle
      checked.market.supplyVault.lastUpdateUnixTimestamp := by
    obtain ⟨atoms, s, executed, rfl⟩ := (execute_borrow_succeeds _ _ _ _ _).mp success
    have view : ((l.storeBorrow key s).receive atoms).borrowView key = s := by
      simp only [borrowView, receive, storeBorrow, Function.update_self]
    refine ⟨?_, rfl⟩
    rw [view]
    rcases checking with ⟨amount, rfl⟩ | ⟨amount, rfl⟩
    · simp only [BorrowAction.execute, Method.succeeds_bind, Method.succeeds_pure] at executed
      obtain ⟨_, _, borrowed, -, rfl⟩ := executed
      exact MarketWith.borrow_healthy _ _ _ _ _ _ reachable.configSound.ltv borrowed
    · simp only [BorrowAction.execute, Method.succeeds_bind, Method.succeeds_pure] at executed
      obtain ⟨_, _, withdrawn, -, rfl⟩ := executed
      exact MarketWith.withdrawCollateral_healthy _ _ _ _ _ _ reachable.configSound.ltv withdrawn
  have safe : (checked.run operations).SafeAt key collateralOracle supplyOracle
      checked.market.supplyVault.lastUpdateUnixTimestamp :=
    Machine.run_invariant_along operations initial
      (Machine.along_of_forall execute checked operations bystanders)
      (fun _ operation _ _ safe bystander executed => safe.step operation bystander executed)
  exact ⟨fun maxRepayAtoms =>
      execute_borrow_fails _ _ _ _ (safe.healthy.liquidate_fails maxRepayAtoms),
    execute_borrow_fails _ _ _ _ safe.healthy.beginCapitalSweep_fails,
    execute_borrow_fails _ _ _ _ safe.healthy.socializeLoss_fails⟩

def beforeLoan : List (Operation Unit Unit) :=
  [.supply () (.lend 1000), .borrow () (.depositCollateral 1000)]

theorem small_loan_safe_after_donation :
    execute (.borrow () (.liquidate .par .par 600))
        ((((smallLedger .newAdaptive).run beforeLoan).run
          [.borrow () (.borrow 600 .par .par)]).run [.market (.donateSupplyAtoms 7)]) =
      (.error LendingError.positionIsHealthy.into,
        (((smallLedger .newAdaptive).run beforeLoan).run
          [.borrow () (.borrow 600 .par .par)]).run [.market (.donateSupplyAtoms 7)]) :=
  (position_safe_after_ltv_check ((smallLedger .newAdaptive).run beforeLoan) _
    ⟨_, _, beforeLoan, smallLedger_adaptive_opened, rfl⟩ () (.borrow 600 .par .par) .par .par
    (Or.inl ⟨600, rfl⟩) (Prod.ext (by decide +kernel) rfl) [.market (.donateSupplyAtoms 7)]
    (by simp [Operation.Bystander])).1 600

end Ledger

end AutaraLending
