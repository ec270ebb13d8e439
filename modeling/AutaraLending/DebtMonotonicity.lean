import AutaraLending.Effect

/-! The price of debt shares never falls, so what a position owes falls only when the position
is repaid, liquidated, settled or written off. -/

namespace AutaraLending

open Support

namespace InterestRateCurveKind

/-- A curve that charges no negative rate, now or later. -/
def Tame : InterestRateCurveKind → Prop
  | .fixed rate => 0 ≤ rate.rate.bits
  | .polyline _ => True
  | .adaptive curve => curve.Settled

theorem tame_of_valid (curve : InterestRateCurveKind) (valid : curve.isValid = true)
    (unused : ∀ adaptive, curve = .adaptive adaptive → adaptive = .new) : curve.Tame := by
  cases curve with
  | fixed rate =>
      simp only [isValid, Bool.and_eq_true, Bool.not_eq_true', ← Bool.not_eq_true,
        Fixed.isNegative_iff, not_lt] at valid
      exact valid.1
  | polyline curve => exact trivial
  | adaptive curve =>
      rw [unused curve rfl]
      exact AdaptiveInterestRateCurve.new_settled

theorem borrowRatePerSecond_tame (params : MarketBorrowRateParameters)
    (curve next : InterestRateCurveKind) (rate : InterestRatePerSecond) (tame : curve.Tame)
    (nonneg : 0 ≤ params.utilisationRate.bits) (small : params.utilisationRate.bits ≤ 2 ^ 112)
    (success : (borrowRatePerSecond params).Succeeds curve rate next) :
    0 ≤ rate.rate.bits ∧ next.Tame := by
  cases curve with
  | fixed fixedRate =>
      obtain ⟨rfl, rfl⟩ := (fixed_succeeds _ _ _ _).mp success
      exact ⟨tame, tame⟩
  | polyline polyline =>
      obtain ⟨⟨bps, -, evaluated⟩, rfl⟩ := (polyline_succeeds _ _ _ _).mp success
      obtain ⟨apr, -, rate_eq⟩ :=
        (PolylineInterestRateCurve.interestRatePerSecond_ok _ _ _).mp evaluated
      exact ⟨by rw [rate_eq]; positivity, trivial⟩
  | adaptive adaptive =>
      obtain ⟨updated, adapted, rfl⟩ := (adaptive_succeeds _ _ _ _).mp success
      exact AdaptiveInterestRateCurve.borrowRate_settled _ _ _ _ tame nonneg small adapted

end InterestRateCurveKind

theorem SharesTracker.applyInterestRate_grows (rate : InterestRate) (t t' : SharesTracker)
    (u : Unit) (nonneg : 0 ≤ rate.rate.bits) (grain : t.atomsPerShare.bits % 2 ^ 16 = 0)
    (success : (applyInterestRate rate).Succeeds t u t') :
    t'.atomsPerShare.bits % 2 ^ 16 = 0 ∧ t.atomsPerShare.bits ≤ t'.atomsPerShare.bits := by
  rcases applyInterestRate_succeeds _ _ _ _ success with ⟨-, rfl⟩ | ⟨-, -, price_eq⟩
  · exact ⟨grain, le_rfl⟩
  · have interest_nonneg :
        0 ≤ rate.rate.bits * (t.atomsPerShare.bits / 2 ^ 16) / 2 ^ 48 :=
      Int.ediv_nonneg
        (mul_nonneg nonneg (Int.ediv_nonneg t.atomsPerShare.bits_nonneg (by norm_num)))
        (by norm_num)
    rw [price_eq]
    omega

theorem SupplyVault.Sync.price_grows {timestamp : Int64} {fee : UFixedPoint}
    {protocolBps : UInt16} {v v' : SupplyVault} (sync : Sync timestamp fee protocolBps v v')
    (nonneg : 0 ≤ sync.rate.rate.bits)
    (grain : v.borrowSharesTracker.atomsPerShare.bits % 2 ^ 16 = 0) :
    v'.borrowSharesTracker.atomsPerShare.bits % 2 ^ 16 = 0 ∧
      v.borrowSharesTracker.atomsPerShare.bits ≤ v'.borrowSharesTracker.atomsPerShare.bits := by
  obtain ⟨-, growth_nonneg, -⟩ := InterestRatePerSecond.compounding_ok _ _ _ sync.growth_ok
  exact SharesTracker.applyInterestRate_grows _ _ _ _ (growth_nonneg nonneg) grain sync.borrow_ok

theorem SupplyVault.Sync.debt_grows {timestamp : Int64} {fee : UFixedPoint} {protocolBps : UInt16}
    {v v' : SupplyVault} (sync : Sync timestamp fee protocolBps v v')
    (tame : v.interestRateCurve.Tame)
    (grain : v.borrowSharesTracker.atomsPerShare.bits % 2 ^ 16 = 0) :
    v'.interestRateCurve.Tame ∧ v'.borrowSharesTracker.atomsPerShare.bits % 2 ^ 16 = 0 ∧
      v.borrowSharesTracker.atomsPerShare.bits ≤ v'.borrowSharesTracker.atomsPerShare.bits := by
  obtain ⟨nonneg, small⟩ := utilisationRate_range _ _ sync.utilisation_ok
  obtain ⟨rate_nonneg, next⟩ := InterestRateCurveKind.borrowRatePerSecond_tame _ _ _ _ tame nonneg
    small sync.rate_ok
  exact ⟨next, sync.price_grows rate_nonneg grain⟩

theorem SharesTracker.sharesToAtoms_roundUp_mono (t t' : SharesTracker)
    (shares shares' : UFixedPoint) (atoms atoms' : U64) (more : shares.bits ≤ shares'.bits)
    (dearer : t.atomsPerShare.bits ≤ t'.atomsPerShare.bits)
    (success : t.sharesToAtoms shares .roundUp = .ok atoms)
    (success' : t'.sharesToAtoms shares' .roundUp = .ok atoms') :
    atoms.toNat ≤ atoms'.toNat := by
  have product_le : shares.bits * t.atomsPerShare.bits ≤ shares'.bits * t'.atomsPerShare.bits :=
    mul_le_mul more dearer t.atomsPerShare.bits_nonneg shares'.bits_nonneg
  obtain ⟨-, value⟩ := (sharesToAtoms_roundUp_ok _ _ _).mp success
  obtain ⟨small, value'⟩ := (sharesToAtoms_roundUp_ok _ _ _).mp success'
  generalize shares.bits * t.atomsPerShare.bits = x at *
  generalize shares'.bits * t'.atomsPerShare.bits = y at *
  split at value <;> split at value' <;> omega

def BorrowAction.Repays : BorrowAction → Prop
  | .repay _ => True
  | .repayAll => True
  | .liquidate _ _ _ => True
  | .settleCapitalSweep _ _ _ _ => True
  | .socializeLoss _ _ => True
  | _ => False

theorem BorrowAction.execute_keeps_debt (action : BorrowAction) (s s' : MarketWith BorrowPosition)
    (atoms : Int) (other : ¬ action.Repays) (success : action.execute.Succeeds s atoms s') :
    s.position.borrowedShares.bits ≤ s'.position.borrowedShares.bits := by
  cases action with
  | depositCollateral amount =>
      obtain ⟨_, deposited, -⟩ := (Method.succeeds_bind_pure _ _ _ _ _).mp success
      obtain ⟨-, _, _, -, -, rfl⟩ := (MarketWith.depositCollateral_succeeds _ _ _ _).mp deposited
      exact le_rfl
  | withdrawCollateral amount collateralOracle supplyOracle =>
      obtain ⟨_, withdrawn, -⟩ := (Method.succeeds_bind_pure _ _ _ _ _).mp success
      obtain ⟨-, _, _, -, -, -, rfl, -⟩ :=
        MarketWith.withdrawCollateral_succeeds _ _ _ _ _ _ withdrawn
      exact le_rfl
  | borrow amount supplyOracle collateralOracle =>
      obtain ⟨_, borrowed, -⟩ := (Method.succeeds_bind_pure _ _ _ _ _).mp success
      obtain ⟨-, shares, _, -, -, -, -, owed, -⟩ := MarketWith.borrow_succeeds _ _ _ _ _ _ borrowed
      obtain ⟨added, -⟩ := BorrowPosition.borrow_succeeds _ _ _ _ _ owed
      have nonneg := shares.bits_nonneg
      omega
  | beginCapitalSweep collateralOracle supplyOracle =>
      obtain ⟨_, swept, -⟩ := (Method.succeeds_bind_pure _ _ _ _ _).mp success
      obtain ⟨-, -, -, -, _, -, rfl⟩ := (MarketWith.beginCapitalSweep_succeeds _ _ _ _ _).mp swept
      exact le_rfl
  | repay amount => exact absurd trivial other
  | repayAll => exact absurd trivial other
  | liquidate collateralOracle supplyOracle maxRepayAtoms => exact absurd trivial other
  | settleCapitalSweep collateralOracle supplyOracle maxRepayAtoms maxCollateralAtomsToReturn =>
      exact absurd trivial other
  | socializeLoss collateralOracle supplyOracle => exact absurd trivial other

/-- The operations that reduce the debt of the position under `key`. -/
def Operation.RepaysAt {σ β : Type} (key : β) : Operation σ β → Prop
  | .borrow other action => other = key ∧ action.Repays
  | _ => False

namespace Ledger

variable {σ β : Type}

def debtPrice (l : Ledger σ β) : Int := l.market.supplyVault.borrowSharesTracker.atomsPerShare.bits

/-- What a position owes, as the market reports it. -/
def reportedDebt (l : Ledger σ β) (key : β) : LendingResult U64 :=
  l.market.supplyVault.borrowSharesToAtoms (l.borrowPositions key).borrowedShares

structure DebtPriced (floor : Int) (l : Ledger σ β) : Prop where
  grain : l.debtPrice % 2 ^ 16 = 0
  curve : l.market.supplyVault.interestRateCurve.Tame
  price : floor ≤ l.debtPrice

theorem Opened.debtPriced {data : Market.CreateMarket} {l : Ledger σ β} (opened : Opened data l)
    (unused : ∀ adaptive, data.interestRate = .adaptive adaptive → adaptive = .new) :
    l.DebtPriced l.debtPrice := by
  obtain ⟨fresh, curve⟩ := opened.fresh
  refine ⟨?_, ?_, le_rfl⟩
  · unfold debtPrice
    rw [fresh.borrow]
    rfl
  · have valid := fresh.curve
    rw [curve] at valid ⊢
    exact InterestRateCurveKind.tame_of_valid _ valid unused

variable [DecidableEq σ] [DecidableEq β]

/-- An operation either leaves the price of debt shares and the curve alone or is a sync. -/
theorem debtTerms_step {l l' : Ledger σ β} (operation : Operation σ β)
    (success : (execute operation).Succeeds l () l') :
    (l'.debtPrice = l.debtPrice ∧
        l'.market.supplyVault.interestRateCurve = l.market.supplyVault.interestRateCurve) ∨
      ∃ timestamp fee protocolBps, operation = .market (.syncClock timestamp) ∧
        Nonempty (SupplyVault.Sync timestamp fee protocolBps l.market.supplyVault
          l'.market.supplyVault) := by
  cases operation with
  | supply key action =>
      obtain ⟨atoms, s, executed, rfl⟩ := (execute_supply_succeeds _ _ _ _ _).mp success
      have vault : s.market.supplyVault.borrowSharesTracker =
          l.market.supplyVault.borrowSharesTracker ∧
          s.market.supplyVault.interestRateCurve = l.market.supplyVault.interestRateCurve := by
        rw [(action.execute_effect _ _ _ executed).market_eq]
        exact ⟨rfl, rfl⟩
      exact Or.inl ⟨congrArg (fun t => t.atomsPerShare.bits) vault.1, vault.2⟩
  | borrow key action =>
      obtain ⟨atoms, s, executed, rfl⟩ := (execute_borrow_succeeds _ _ _ _ _).mp success
      have effect := action.execute_effect _ _ _ executed
      have curve : s.market.supplyVault.interestRateCurve =
          l.market.supplyVault.interestRateCurve := by
        rw [effect.market_eq]
        rfl
      exact Or.inl ⟨congrArg Fixed.bits effect.price, curve⟩
  | market action =>
      obtain ⟨atoms, market, executed, rfl⟩ := (execute_market_succeeds _ _ _ _).mp success
      rcases (action.execute_effect _ _ _ executed).accrual with idle | ⟨_, rfl, sync⟩
      · exact Or.inl ⟨congrArg (fun t => t.atomsPerShare.bits) idle.borrow, idle.curve⟩
      · exact Or.inr ⟨_, _, _, rfl, sync⟩

theorem DebtPriced.step {floor : Int} {l l' : Ledger σ β} (operation : Operation σ β)
    (priced : l.DebtPriced floor) (success : (execute operation).Succeeds l () l') :
    l'.DebtPriced floor := by
  rcases debtTerms_step operation success with ⟨price, curve⟩ | ⟨_, _, _, -, ⟨sync⟩⟩
  · refine ⟨?_, ?_, ?_⟩
    · rw [price]
      exact priced.grain
    · rw [curve]
      exact priced.curve
    · rw [price]
      exact priced.price
  · obtain ⟨curve, grain, grown⟩ := sync.debt_grows priced.curve priced.grain
    exact ⟨grain, curve, le_trans priced.price grown⟩

theorem DebtPriced.run {floor : Int} {l : Ledger σ β} (priced : l.DebtPriced floor)
    (operations : List (Operation σ β)) : (l.run operations).DebtPriced floor :=
  Machine.run_invariant operations priced
    (fun _ operation _ _ priced success => priced.step operation success)

def OwesAtLeast (shares : Int) (key : β) (l : Ledger σ β) : Prop :=
  shares ≤ (l.borrowPositions key).borrowedShares.bits

/-- A position that nothing repays owes at least the shares it started with. -/
theorem borrowedShares_step {l l' : Ledger σ β} (operation : Operation σ β) (key : β)
    (other : ¬ operation.RepaysAt key) (success : (execute operation).Succeeds l () l') :
    l'.OwesAtLeast (l.borrowPositions key).borrowedShares.bits key := by
  cases operation with
  | supply changed action =>
      obtain ⟨atoms, s, -, rfl⟩ := (execute_supply_succeeds _ _ _ _ _).mp success
      exact le_rfl
  | borrow changed action =>
      obtain ⟨atoms, s, executed, rfl⟩ := (execute_borrow_succeeds _ _ _ _ _).mp success
      change _ ≤ (Function.update l.borrowPositions changed s.position key).borrowedShares.bits
      by_cases same : changed = key
      · rw [same, Function.update_self]
        subst same
        exact action.execute_keeps_debt _ _ _ (fun repays => other ⟨rfl, repays⟩) executed
      · rw [Function.update_of_ne (Ne.symm same)]
  | market action =>
      obtain ⟨atoms, market, -, rfl⟩ := (execute_market_succeeds _ _ _ _).mp success
      exact le_rfl

/-- The price of debt shares stays on the grid of `2^-48` and never falls; a run in which the
reported debt of a position falls has a successful repayment, liquidation, settlement or loss
of that position. -/
theorem debt_falls_only_by_own_repayment (data : Market.CreateMarket) (start : Ledger σ β)
    (opened : Opened data start)
    (unused : ∀ adaptive, data.interestRate = .adaptive adaptive → adaptive = .new)
    (first second : List (Operation σ β)) :
    (start.run first).debtPrice % 2 ^ 16 = 0 ∧
      (start.run first).debtPrice ≤ ((start.run first).run second).debtPrice ∧
      ∀ key debt debt', (start.run first).reportedDebt key = .ok debt →
        ((start.run first).run second).reportedDebt key = .ok debt' → debt'.toNat < debt.toNat →
        ∃ before operation after reached, second = before ++ operation :: after ∧
          operation.RepaysAt key ∧
          (execute operation).Succeeds ((start.run first).run before) () reached := by
  have priced := (opened.debtPriced unused).run first
  have rebased : (start.run first).DebtPriced (start.run first).debtPrice :=
    ⟨priced.grain, priced.curve, le_rfl⟩
  have later := rebased.run second
  refine ⟨priced.grain, later.price, ?_⟩
  intro key debt debt' before_ok after_ok fallen
  have repaid : ¬ Machine.Along execute (fun _ operation => ¬ operation.RepaysAt key)
      (start.run first) second := by
    intro along
    have owed : ((start.run first).run second).OwesAtLeast
        ((start.run first).borrowPositions key).borrowedShares.bits key :=
      Machine.run_invariant_along second le_rfl along
        (fun _ operation _ _ owed other success =>
          le_trans owed (borrowedShares_step operation key other success))
    have kept := SharesTracker.sharesToAtoms_roundUp_mono _ _ _ _ _ _ owed later.price before_ok
      after_ok
    omega
  obtain ⟨before, operation, after, _, reached, split, success, repays⟩ :=
    Machine.exists_of_not_along execute _ _ repaid
  exact ⟨before, operation, after, reached, split, not_not.mp repays, success⟩

theorem small_loan_debt_falls_by_repayment :
    ∃ before operation after reached,
      [.market (.syncClock 1000000), .borrow () (.repay 100)] =
          before ++ operation :: after ∧
        Operation.RepaysAt () operation ∧
        (execute operation).Succeeds (((smallLedger .newAdaptive).run smallLoan).run before) ()
          reached :=
  (debt_falls_only_by_own_repayment _ _ smallLedger_adaptive_opened
    (fun _ same => (InterestRateCurveKind.adaptive.inj same).symm) smallLoan
    [.market (.syncClock 1000000), .borrow () (.repay 100)]).2.2 () 600 501 (by decide +kernel)
    (by decide +kernel) (by decide)

end Ledger

end AutaraLending
