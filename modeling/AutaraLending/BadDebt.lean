import AutaraLending.PositionLaws

/-! Insolvent positions: when a liquidation of the whole debt closes them, and when their debt can
be written off against the suppliers. -/

namespace AutaraLending

open Support

namespace Market

variable {m : Market} {p : BorrowPosition} {collateralOracle supplyOracle : OracleRate}
  {health : BorrowPositionHealth}

theorem sweep_inactive
    (health_ok : m.borrowPositionHealth p collateralOracle supplyOracle = .ok health)
    (owes : health.ltv.bits ≠ 0) (locked : p.Locked) : p.sweptCollateralAtoms = 0 := by
  by_contra pending
  rw [borrowPositionHealth, locked pending] at health_ok
  have zero := health_of_no_collateral _ _ _ _ _ health_ok
  rw [zero, Fixed.zero_bits] at owes
  exact owes rfl

theorem insolvent_position
    (health_ok : m.borrowPositionHealth p collateralOracle supplyOracle = .ok health)
    (insolvent : (Fixed.one : IFixedPoint) ≤ health.ltv) (locked : p.Locked) :
    p.sweptCollateralAtoms = 0 ∧ 0 < health.borrowedAtoms.toNat := by
  rw [Fixed.le_def, Fixed.one_bits, i80f48_frac] at insolvent
  constructor
  · exact sweep_inactive health_ok (by omega) locked
  · obtain ⟨-, value_ok, -, ltv_ok, -⟩ :=
      (borrowPositionHealthWithCollateralAtoms_ok _ _ _ _ _ _).mp health_ok
    by_contra nothing
    have zero : health.borrowedAtoms.toNat = 0 := by omega
    have worthless := ((OracleRate.borrowValue_ok _ _ _ _).mp value_ok).2.2.2
    rw [zero, Nat.cast_zero, mul_zero, Int.zero_ediv] at worthless
    rcases ltv_ok with ⟨-, none⟩ | ⟨some, -⟩
    · rw [none, Fixed.zero_bits] at insolvent
      omega
    · exact absurd worthless some

theorem health_of_closed
    (health_ok : m.borrowPositionHealth p collateralOracle supplyOracle = .ok health)
    (m' : Market) (p' : BorrowPosition)
    (supplyDecimals : m'.supplyVault.mintDecimals = m.supplyVault.mintDecimals)
    (collateralDecimals : m'.collateralVault.mintDecimals = m.collateralVault.mintDecimals)
    (repaid : p'.borrowedShares = Fixed.zero) (seized : p'.collateralDepositedAtoms = 0) :
    ∃ health', m'.borrowPositionHealth p' collateralOracle supplyOracle = .ok health' ∧
      health'.ltv = Fixed.zero := by
  obtain ⟨-, borrow_ok, collateral_ok, -, -⟩ :=
    (borrowPositionHealthWithCollateralAtoms_ok _ _ _ _ _ _).mp health_ok
  obtain ⟨upper_lt, supply_small, -, -⟩ := (OracleRate.borrowValue_ok _ _ _ _).mp borrow_ok
  obtain ⟨collateral_small, -, -⟩ := (OracleRate.collateralValue_ok _ _ _ _).mp collateral_ok
  have unowed : m'.supplyVault.borrowSharesToAtoms p'.borrowedShares = .ok 0 := by
    rw [repaid, SupplyVault.borrowSharesToAtoms, SharesTracker.sharesToAtoms_roundUp_ok]
    simp
  have worthless : supplyOracle.borrowValue 0 m'.supplyVault.decimals = .ok Fixed.zero := by
    rw [OracleRate.borrowValue_ok, SupplyVault.decimals, supplyDecimals]
    exact ⟨upper_lt, supply_small, by simp, by simp⟩
  have unsecured :
      collateralOracle.collateralValue 0 m'.collateralVault.decimals = .ok Fixed.zero := by
    rw [OracleRate.collateralValue_ok, CollateralVault.decimals, collateralDecimals]
    exact ⟨collateral_small, by simp, by simp⟩
  refine ⟨⟨Fixed.zero, 0, 0, Fixed.zero, Fixed.zero⟩, ?_, rfl⟩
  rw [borrowPositionHealth, seized]
  exact (borrowPositionHealthWithCollateralAtoms_ok _ _ _ _ _ _).mpr
    ⟨unowed, worthless, unsecured, Or.inl ⟨by simp, rfl⟩, rfl⟩

theorem liquidation_of_insolvent (sound : m.config.ltvConfig.Sound)
    (health_ok : m.borrowPositionHealth p collateralOracle supplyOracle = .ok health)
    (insolvent : (Fixed.one : IFixedPoint) ≤ health.ltv) (maxRepayAtoms : U64)
    (enough : health.borrowedAtoms.toNat ≤ maxRepayAtoms.toNat) :
    m.computeLiquidationResultWithFeeForCollateral p p.collateralDepositedAtoms collateralOracle
        supplyOracle maxRepayAtoms =
      .ok (health, ⟨health.borrowedAtoms, p.collateralDepositedAtoms, 0⟩) := by
  have below := sound.unhealthyLtv_lt_one
  have unhealthy : ¬ health.ltv < m.config.ltvConfig.unhealthyLtv := by
    rw [Fixed.le_def, Fixed.one_bits, i80f48_frac] at insolvent
    rw [Fixed.lt_def]
    omega
  have uncapped : ¬ maxRepayAtoms < health.borrowedAtoms := by
    rw [UInt64.lt_iff_toNat_lt]
    omega
  have collateral_eq : health.collateralAtoms = p.collateralDepositedAtoms :=
    ((borrowPositionHealthWithCollateralAtoms_ok _ _ _ _ _ _).mp health_ok).2.2.2.2
  rw [computeLiquidationResultWithFeeForCollateral_ok]
  refine ⟨health_ok, unhealthy, Or.inl ⟨insolvent, ?_⟩⟩
  rw [collateral_eq, LiquidationResultWithBonus.adjustForMaxRepay, if_neg uncapped]

end Market

namespace SharesTracker

/-- An amount that is worth at least the shares, and whose own shares fit in the format. -/
def PaidBy (t : SharesTracker) (shares : UFixedPoint) (atoms : U64) : Prop :=
  shares.bits * t.atomsPerShare.bits ≤ atoms.toNat * 2 ^ 128 ∧
    (atoms.toNat : Int) < t.atomsPerShare.bits

instance (t : SharesTracker) (shares : UFixedPoint) (atoms : U64) :
    Decidable (t.PaidBy shares atoms) := inferInstanceAs (Decidable (_ ∧ _))

theorem paidBy_iff (t : SharesTracker) (shares : UFixedPoint) (atoms : U64) :
    t.PaidBy shares atoms ↔
      ∃ wanted, t.atomsToShares atoms = .ok wanted ∧ shares.bits ≤ wanted.bits := by
  have price_nonneg := t.atomsPerShare.bits_nonneg
  constructor
  · intro ⟨covered, fits⟩
    have priced : 0 < t.atomsPerShare.bits := by omega
    have quotient_lt : (atoms.toNat : Int) * 2 ^ 128 / t.atomsPerShare.bits < 2 ^ 128 :=
      Int.ediv_lt_of_lt_mul priced (by linarith)
    obtain ⟨wanted, wanted_eq⟩ := UFixedPoint.exists_bits
      (atoms.toNat * 2 ^ 128 / t.atomsPerShare.bits)
      (Int.ediv_nonneg (by positivity) price_nonneg) quotient_lt
    refine ⟨wanted, (atomsToShares_ok _ _ _).mpr ⟨priced.ne', wanted_eq.symm⟩, ?_⟩
    rw [wanted_eq]
    exact (Int.le_ediv_iff_mul_le priced).mpr covered
  · intro ⟨wanted, converted, enough⟩
    obtain ⟨nonzero, quotient⟩ := (atomsToShares_ok _ _ _).mp converted
    have priced : 0 < t.atomsPerShare.bits := by omega
    have wanted_lt := wanted.bits_lt
    rw [← quotient] at enough wanted_lt
    have fits := Int.lt_mul_of_ediv_lt priced wanted_lt
    exact ⟨(Int.le_ediv_iff_mul_le priced).mp enough, by linarith⟩

theorem atomsToShares_fails_iff (t : SharesTracker) (atoms : U64) (failure : Failure) :
    t.atomsToShares atoms = .error failure ↔
      failure = LendingError.divisionOverflow.into ∧ t.atomsPerShare.bits ≤ atoms.toNat := by
  have unowed := t.paidBy_iff Fixed.zero atoms
  simp only [PaidBy, Fixed.zero_bits, zero_mul] at unowed
  have unconverted : t.atomsPerShare.bits ≤ atoms.toNat ↔
      ∀ shares, t.atomsToShares atoms ≠ .ok shares := by
    constructor
    · intro above shares converted
      have below := (unowed.mpr ⟨shares, converted, shares.bits_nonneg⟩).2
      omega
    · intro none
      by_contra below
      obtain ⟨shares, converted, -⟩ := unowed.mp ⟨by positivity, not_le.mp below⟩
      exact none shares converted
  rw [unconverted, atomsToShares, Fixed.safeDiv]
  cases (Fixed.fromU64 atoms : UFixedPoint).checkedDiv t.atomsPerShare with
  | none => simp [okOr, eq_comm]
  | some shares => simp [okOr]

theorem depositAtoms_fails_by_division (t : SharesTracker) (atoms : U64) (failure : Failure)
    (kind : failure.is .divisionOverflow) (fails : (depositAtoms atoms).Fails t failure) :
    t.atomsToShares atoms = .error failure := by
  rcases (Method.fails_bind _ _ _ _).mp fails with impossible | ⟨_, _, ⟨rfl, rfl⟩, rest⟩
  · cases impossible
  · rcases (Method.fails_bind _ _ _ _).mp rest with unconverted | ⟨shares, _, -, minting⟩
    · exact unconverted
    · have avoids : MethodAvoids .divisionOverflow (do
          let totalShares ← Method.lift (t.totalShares.safeAdd shares)
          Method.assign { t with totalShares }
          pure shares) := by
        refine .bind (.lift ?_) fun _ => .bind (.assign _) fun _ => .pure _
        simp [Fixed.safeAdd]
      exact absurd kind (avoids _ _ minting)

theorem withdrawAtomsCapped_all (t t' : SharesTracker) (shares : UFixedPoint) (debt : U64)
    (reported : t.sharesToAtoms shares .roundUp = .ok debt) (paid : t.PaidBy shares debt)
    (burned : t.totalShares.bits = t'.totalShares.bits + shares.bits)
    (price : t'.atomsPerShare = t.atomsPerShare) :
    (withdrawAtomsCapped debt shares .roundUp).Succeeds t (debt, shares) t' := by
  obtain ⟨wanted, converted, enough⟩ := (t.paidBy_iff shares debt).mp paid
  rw [withdrawAtomsCapped_succeeds]
  refine ⟨?_, burned, price⟩
  by_cases exceeds : shares < wanted
  · exact Or.inl ⟨wanted, converted, exceeds, reported, rfl⟩
  · rw [Fixed.lt_def] at exceeds
    have same : wanted = shares := Fixed.ext_bits (by omega)
    rw [same] at converted
    exact Or.inr ⟨converted, by rw [Fixed.lt_def]; omega, rfl⟩

theorem socializeLossAtoms_bearable_iff (t : SharesTracker) (atoms : U64)
    (some_loss : 0 < atoms.toNat) :
    (∃ t', (socializeLossAtoms atoms).Succeeds t () t') ↔
      (atoms.toNat : Int) * 2 ^ 128 < t.totalShares.bits * (t.atomsPerShare.bits + 1) := by
  have shares_nonneg := t.totalShares.bits_nonneg
  have price_lt := t.atomsPerShare.bits_lt
  simp only [socializeLossAtoms_succeeds]
  constructor
  · rintro ⟨t', nonempty, price, -⟩
    have left_nonneg := t'.atomsPerShare.bits_nonneg
    rw [mul_comm t.totalShares.bits]
    exact Int.lt_mul_of_ediv_lt (by omega) (by omega)
  · intro bearable
    have nonempty : t.totalShares.bits ≠ 0 := by
      intro empty
      rw [empty, zero_mul] at bearable
      omega
    rw [mul_comm t.totalShares.bits] at bearable
    have lost_le := Int.ediv_lt_of_lt_mul (by omega) bearable
    have lost_nonneg : 0 ≤ (atoms.toNat : Int) * 2 ^ 128 / t.totalShares.bits :=
      Int.ediv_nonneg (by positivity) shares_nonneg
    obtain ⟨price, price_eq⟩ := UFixedPoint.exists_bits
      (t.atomsPerShare.bits - atoms.toNat * 2 ^ 128 / t.totalShares.bits) (by omega) (by omega)
    exact ⟨⟨t.totalShares, price⟩, nonempty, by dsimp only; omega, rfl⟩

theorem socializeLossAtoms_price_pos_iff (t t' : SharesTracker) (atoms : U64) (u : Unit)
    (success : (socializeLossAtoms atoms).Succeeds t u t') :
    t'.totalShares.bits ≠ 0 ∧
      (0 < t'.atomsPerShare.bits ↔
        (atoms.toNat : Int) * 2 ^ 128 < t.totalShares.bits * t.atomsPerShare.bits) := by
  obtain ⟨nonempty, price, shares⟩ := (socializeLossAtoms_succeeds _ _ _ _).mp success
  have shares_nonneg := t.totalShares.bits_nonneg
  refine ⟨by rw [shares]; exact nonempty, ?_⟩
  rw [mul_comm t.totalShares.bits, ← Int.ediv_lt_iff_lt_mul (by omega)]
  omega

end SharesTracker

theorem MarketWith.lend_fails_by_division_iff (atoms : U64) (s : MarketWith SupplyPosition) :
    (∃ failure, (lend atoms).Fails s failure ∧ failure.is .divisionOverflow) ↔
      s.market.supplyVault.supplySharesTracker.atomsPerShare.bits ≤ atoms.toNat := by
  constructor
  · rintro ⟨failure, fails, kind⟩
    rcases (Method.fails_bind _ _ _ _).mp fails with minting | ⟨shares, lent, -, recording⟩
    · have unconverted := SharesTracker.depositAtoms_fails_by_division _ _ _ kind minting
      exact ((SharesTracker.atomsToShares_fails_iff _ _ _).mp unconverted).2
    · have avoids : MethodAvoids .divisionOverflow (do
          onPosition (SupplyPosition.lend atoms shares)
          let self ← Method.self
          let totalSupply ← Method.lift self.market.supplyVault.totalSupply
          Method.rejectIf (self.market.config.maxSupplyAtoms < totalSupply)
            LendingError.maxSupplyReached.into) := by
        refine .bind (.zoom _ _ ?_) fun _ => .bind .self fun _ => .bind (.lift ?_) fun _ =>
          .ite _ (.fail (by decide)) (.pure _)
        · refine .bind .self fun _ => .bind (.lift ?_) fun _ => .bind (.assign _) fun _ =>
            .bind (.lift ?_) fun _ => .assign _
          · simp [U64.safeAdd]
          · simp [Fixed.safeAdd]
        · simp [SupplyVault.totalSupply, SharesTracker.totalAtoms, Fixed.safeMul,
            Fixed.asU64Rounded]
      exact absurd kind (avoids _ _ recording)
  · intro above
    have unconverted := (SharesTracker.atomsToShares_fails_iff
      s.market.supplyVault.supplySharesTracker atoms _).mpr ⟨rfl, above⟩
    have minting : (SharesTracker.depositAtoms atoms).Fails
        s.market.supplyVault.supplySharesTracker LendingError.divisionOverflow.into :=
      (Method.fails_bind _ _ _ _).mpr (Or.inr ⟨_, _, rfl,
        (Method.fails_bind _ _ _ _).mpr (Or.inl unconverted)⟩)
    exact ⟨_, (Method.fails_bind _ _ _ _).mpr (Or.inl minting), [], rfl⟩

/-- The whole debt is repaid for all of the collateral, without a bonus, and nothing is left of
the position. -/
def MarketWith.ClosedByLiquidation (collateralOracle supplyOracle : OracleRate)
    (maxRepayAtoms debt : U64) (s : MarketWith BorrowPosition) : Prop :=
  ∃ result s', (liquidate collateralOracle supplyOracle maxRepayAtoms).Succeeds s result s' ∧
    result.liquidationResultWithBonus = ⟨debt, s.position.collateralDepositedAtoms, 0⟩ ∧
    s'.position.borrowedShares = Fixed.zero ∧ s'.position.collateralDepositedAtoms = 0

namespace MarketWith

variable {s : MarketWith BorrowPosition} {collateralOracle supplyOracle : OracleRate}
  {health : BorrowPositionHealth} {maxRepayAtoms : U64}

theorem ClosedByLiquidation.paidBy
    (closed : s.ClosedByLiquidation collateralOracle supplyOracle maxRepayAtoms
      health.borrowedAtoms)
    (computed_ok : s.market.computeLiquidationResultWithFeeForCollateral s.position
      s.position.collateralDepositedAtoms collateralOracle supplyOracle maxRepayAtoms =
        .ok (health, ⟨health.borrowedAtoms, s.position.collateralDepositedAtoms, 0⟩)) :
    s.market.supplyVault.borrowSharesTracker.PaidBy s.position.borrowedShares
      health.borrowedAtoms := by
  obtain ⟨result, s', success, -, repaid, -⟩ := closed
  obtain ⟨liquidated⟩ := (liquidate_succeeds _ _ _ _ _ _).mp success
  have planned : liquidated.computed.borrowedAtomsToRepay = health.borrowedAtoms := by
    have same := Except.ok.inj (liquidated.computed_ok.symm.trans computed_ok)
    exact congrArg (fun pair => pair.2.borrowedAtomsToRepay) same
  have debt := liquidated.debt.shares_eq
  have cleared : liquidated.borrowed.bits = 0 := by
    have none : liquidated.borrowed = Fixed.zero := by
      rw [liquidated.final] at repaid
      exact repaid
    rw [none, Fixed.zero_bits]
  have capped := liquidated.capped
  rw [planned, SharesTracker.withdrawAtomsCapped_succeeds] at capped
  rw [SharesTracker.paidBy_iff]
  rcases capped.1 with ⟨wanted, converted, exceeds, -, -⟩ | ⟨converted, -, -⟩
  · exact ⟨wanted, converted, le_of_lt exceeds⟩
  · exact ⟨liquidated.shares, converted, by omega⟩

theorem closedByLiquidation_of_paidBy
    (health_ok : s.market.borrowPositionHealth s.position collateralOracle supplyOracle =
      .ok health)
    (insolvent : (Fixed.one : IFixedPoint) ≤ health.ltv)
    (inactive : s.position.sweptCollateralAtoms = 0)
    (computed_ok : s.market.computeLiquidationResultWithFeeForCollateral s.position
      s.position.collateralDepositedAtoms collateralOracle supplyOracle maxRepayAtoms =
        .ok (health, ⟨health.borrowedAtoms, s.position.collateralDepositedAtoms, 0⟩))
    (owed_le : s.position.borrowedShares.bits ≤
      s.market.supplyVault.borrowSharesTracker.totalShares.bits)
    (deposited_le : s.position.collateralDepositedAtoms.toNat ≤
      s.market.collateralVault.totalCollateralAtoms.toNat)
    (paid : s.market.supplyVault.borrowSharesTracker.PaidBy s.position.borrowedShares
      health.borrowedAtoms) :
    s.ClosedByLiquidation collateralOracle supplyOracle maxRepayAtoms health.borrowedAtoms := by
  have reported : s.market.supplyVault.borrowSharesTracker.sharesToAtoms s.position.borrowedShares
      .roundUp = .ok health.borrowedAtoms :=
    ((Market.borrowPositionHealthWithCollateralAtoms_ok _ _ _ _ _ _).mp health_ok).1
  obtain ⟨tracker, burned, price⟩ := SharesTracker.exists_burned
    s.market.supplyVault.borrowSharesTracker s.position.borrowedShares owed_le
  have capped := SharesTracker.withdrawAtomsCapped_all _ tracker _ _ reported paid burned price
  obtain ⟨total, -, total_eq⟩ := U64.safeSub_succeeds s.market.collateralVault.totalCollateralAtoms
    s.position.collateralDepositedAtoms deposited_le
  let closed : MarketWith BorrowPosition :=
    ⟨(s.market.withBorrowTracker tracker).withCollateral total,
      { s.position with
        initialBorrowedAtoms := 0
        borrowedShares := Fixed.zero
        collateralDepositedAtoms := 0 }⟩
  obtain ⟨after, after_ok, after_zero⟩ := Market.health_of_closed health_ok closed.market
    closed.position rfl rfl rfl rfl
  have kept : LiquidationResultWithBonus.adjustForMaxRepay
      ⟨health.borrowedAtoms, s.position.collateralDepositedAtoms, 0⟩ health.borrowedAtoms =
        ⟨health.borrowedAtoms, s.position.collateralDepositedAtoms, 0⟩ :=
    LiquidationResultWithBonus.adjustForMaxRepay_self _
  refine ⟨⟨⟨health.borrowedAtoms, s.position.collateralDepositedAtoms, 0⟩, health, after⟩, closed,
    (liquidate_succeeds _ _ _ _ _ _).mpr ⟨?_⟩, rfl, rfl, rfl⟩
  exact
    { computed := ⟨health.borrowedAtoms, s.position.collateralDepositedAtoms, 0⟩
      atoms := health.borrowedAtoms
      shares := s.position.borrowedShares
      tracker
      seized := s.position.collateralDepositedAtoms
      initial := 0
      borrowed := Fixed.zero
      collateral := 0
      total
      inactive
      computed_ok
      capped
      liquidation_eq := kept.symm
      seized_ok := by
        rw [kept]
        exact (U64.safeAdd_ok _ _ _).mpr rfl
      debt := Or.inr ⟨rfl, rfl, rfl⟩
      collateral_eq := rfl
      total_eq := by omega
      final := rfl
      health_ok := after_ok
      decreased := by
        rw [Fixed.le_def, Fixed.one_bits, i80f48_frac] at insolvent
        rw [after_zero, Fixed.lt_def, Fixed.zero_bits]
        dsimp only
        omega }

end MarketWith

namespace Ledger

variable {σ β : Type} [DecidableEq σ] [DecidableEq β] [Fintype σ] [Fintype β]

/-- A liquidation that may repay the whole reported debt of an insolvent position closes it exactly
when that debt, rounded up as it is, is worth the shares owed. -/
theorem insolvent_position_closed_iff (l : Ledger σ β) (reachable : l.Reachable) (key : β)
    (collateralOracle supplyOracle : OracleRate) (health : BorrowPositionHealth)
    (health_ok : l.market.borrowPositionHealth (l.borrowPositions key) collateralOracle
      supplyOracle = .ok health)
    (insolvent : (Fixed.one : IFixedPoint) ≤ health.ltv) (maxRepayAtoms : U64)
    (enough : health.borrowedAtoms.toNat ≤ maxRepayAtoms.toNat) :
    (l.borrowView key).ClosedByLiquidation collateralOracle supplyOracle maxRepayAtoms
        health.borrowedAtoms ↔
      l.market.supplyVault.borrowSharesTracker.PaidBy (l.borrowPositions key).borrowedShares
        health.borrowedAtoms := by
  have conserved := reachable.collateralConserved
  obtain ⟨inactive, -⟩ := Market.insolvent_position health_ok insolvent (conserved.locked key)
  have computed_ok := Market.liquidation_of_insolvent reachable.configSound.ltv health_ok insolvent
    maxRepayAtoms enough
  constructor
  · intro closed
    exact closed.paidBy computed_ok
  · intro paid
    exact MarketWith.closedByLiquidation_of_paidBy health_ok insolvent inactive computed_ok
      (reachable.sharesConserved.borrowed_le key) (conserved.deposited_le key) paid

def dustyLoan : List (Operation Unit Unit) :=
  accruedLoan ++ [.borrow () .repayAll, .borrow () (.borrow 181 .par .par),
    .borrow () (.repay 100)]

def crashedRate : OracleRate := .exact ⟨2 ^ 44, by decide, by decide⟩ (by decide)

theorem crashed_small_loan_closed :
    (((smallLedger .newAdaptive).run smallLoan).borrowView ()).ClosedByLiquidation crashedRate .par
      600 600 :=
  (insolvent_position_closed_iff ((smallLedger .newAdaptive).run smallLoan)
    ⟨_, _, smallLoan, smallLedger_adaptive_opened, rfl⟩ () crashedRate .par
    ⟨⟨2702159776422297, by decide, by decide⟩, 600, 1000, Fixed.fromU64 600,
      ⟨1000 * 2 ^ 44, by decide, by decide⟩⟩
    (by decide +kernel) (by decide +kernel) 600 (by decide)).mpr (by decide +kernel)

theorem dusty_insolvent_loan_not_closed :
    ((smallLedger .newAdaptive).run dustyLoan).Reachable ∧
      (∃ health, ((smallLedger .newAdaptive).run dustyLoan).market.borrowPositionHealth
          (((smallLedger .newAdaptive).run dustyLoan).borrowPositions ()) crashedRate .par =
            .ok health ∧ (Fixed.one : IFixedPoint) ≤ health.ltv ∧ health.borrowedAtoms = 81) ∧
      (MarketWith.liquidate crashedRate .par U64.max).Fails
        (((smallLedger .newAdaptive).run dustyLoan).borrowView ())
        LendingError.divisionOverflow.into := by
  refine ⟨⟨_, _, dustyLoan, smallLedger_adaptive_opened, rfl⟩, ?_, by decide +kernel⟩
  exact ⟨⟨⟨364791569817010, by decide, by decide⟩, 81, 1000, Fixed.fromU64 81,
    ⟨1000 * 2 ^ 44, by decide, by decide⟩⟩, by decide +kernel, by decide +kernel, rfl⟩

/-- Writing off the debt of an insolvent position clears it exactly when the supply shares can bear
the reported debt, each share its part rounded down, and leaves these shares a positive price
exactly when they are worth more than that debt. A later lend fails on a division only for amounts
that have no shares at that price: all of them at a price of zero. -/
theorem loss_socialised_iff (l : Ledger σ β) (reachable : l.Reachable) (key : β)
    (collateralOracle supplyOracle : OracleRate) (health : BorrowPositionHealth)
    (health_ok : l.market.borrowPositionHealth (l.borrowPositions key) collateralOracle
      supplyOracle = .ok health)
    (insolvent : (Fixed.one : IFixedPoint) ≤ health.ltv) :
    ((∃ paid s',
        (MarketWith.socializeLoss collateralOracle supplyOracle).Succeeds (l.borrowView key) paid
          s' ∧
        s'.position.borrowedShares = Fixed.zero ∧ s'.position.collateralDepositedAtoms = 0) ↔
      (health.borrowedAtoms.toNat : Int) * 2 ^ 128 <
        l.market.supplyVault.supplySharesTracker.totalShares.bits *
          (l.market.supplyVault.supplySharesTracker.atomsPerShare.bits + 1)) ∧
    ∀ paid s',
      (MarketWith.socializeLoss collateralOracle supplyOracle).Succeeds (l.borrowView key) paid s' →
      s'.market.supplyVault.supplySharesTracker.totalShares.bits ≠ 0 ∧
        (0 < s'.market.supplyVault.supplySharesTracker.atomsPerShare.bits ↔
          (health.borrowedAtoms.toNat : Int) * 2 ^ 128 <
            l.market.supplyVault.supplySharesTracker.totalShares.bits *
              l.market.supplyVault.supplySharesTracker.atomsPerShare.bits) ∧
        ∀ (atoms : U64) (lender : SupplyPosition),
          (∃ failure, (MarketWith.lend atoms).Fails ⟨s'.market, lender⟩ failure ∧
            failure.is .divisionOverflow) ↔
          s'.market.supplyVault.supplySharesTracker.atomsPerShare.bits ≤ atoms.toNat := by
  have conserved := reachable.collateralConserved
  obtain ⟨inactive, owes⟩ := Market.insolvent_position health_ok insolvent (conserved.locked key)
  have reported : l.market.supplyVault.borrowSharesTracker.sharesToAtoms
      (l.borrowPositions key).borrowedShares .roundUp = .ok health.borrowedAtoms :=
    ((Market.borrowPositionHealthWithCollateralAtoms_ok _ _ _ _ _ _).mp health_ok).1
  -- a successful call writes off the debt that the health reports
  have written_off : ∀ paid s',
      (MarketWith.socializeLoss collateralOracle supplyOracle).Succeeds (l.borrowView key) paid s' →
      (SharesTracker.socializeLossAtoms health.borrowedAtoms).Succeeds
        l.market.supplyVault.supplySharesTracker ()
        s'.market.supplyVault.supplySharesTracker := by
    intro paid s' success
    obtain ⟨-, _, borrowTracker, supplyTracker, total, -, -, burned, lost, -, rfl, -⟩ :=
      (MarketWith.socializeLoss_succeeds _ _ _ _ _).mp success
    obtain ⟨paid_ok, -, -⟩ := (SharesTracker.withdrawShares_succeeds _ _ _ _ _).mp burned
    rw [Except.ok.inj (paid_ok.symm.trans reported)] at lost
    exact lost
  constructor
  · rw [← SharesTracker.socializeLossAtoms_bearable_iff _ _ owes]
    constructor
    · rintro ⟨paid, s', success, -, -⟩
      exact ⟨_, written_off paid s' success⟩
    · intro ⟨supplyTracker, lost⟩
      obtain ⟨tracker, burned, kept⟩ := SharesTracker.exists_burned
        l.market.supplyVault.borrowSharesTracker (l.borrowPositions key).borrowedShares
        (reachable.sharesConserved.borrowed_le key)
      have counted := conserved.deposited_le key
      obtain ⟨total, -, total_eq⟩ := U64.safeSub_succeeds
        l.market.collateralVault.totalCollateralAtoms
        (l.borrowPositions key).collateralDepositedAtoms counted
      refine ⟨(health.borrowedAtoms, (l.borrowPositions key).collateralDepositedAtoms), _,
        (MarketWith.socializeLoss_succeeds _ _ _ _ _).mpr ⟨inactive, health, tracker, supplyTracker,
          total, health_ok, ?_, ?_, lost, ?_, rfl, rfl⟩, rfl, rfl⟩
      · rw [Fixed.le_def] at insolvent
        rw [Fixed.lt_def]
        omega
      · exact (SharesTracker.withdrawShares_succeeds _ _ _ _ _).mpr ⟨reported, burned, kept⟩
      · simp only [borrowView]
        omega
  · intro paid s' success
    obtain ⟨some, positive_iff⟩ :=
      SharesTracker.socializeLossAtoms_price_pos_iff _ _ _ _ (written_off paid s' success)
    exact ⟨some, positive_iff, fun atoms lender => MarketWith.lend_fails_by_division_iff atoms _⟩

def fullyLent : List (Operation Unit Unit) :=
  [.supply () (.lend 100), .borrow () (.depositCollateral 1000), .borrow () (.borrow 90 .par .par),
    .supply () (.withdraw 10)]

theorem crashed_small_loan_socialised :
    ∃ paid s', (MarketWith.socializeLoss crashedRate .par).Succeeds
        (((smallLedger .newAdaptive).run smallLoan).borrowView ()) paid s' ∧
      s'.position.borrowedShares = Fixed.zero ∧ s'.position.collateralDepositedAtoms = 0 :=
  (loss_socialised_iff ((smallLedger .newAdaptive).run smallLoan)
    ⟨_, _, smallLoan, smallLedger_adaptive_opened, rfl⟩ () crashedRate .par
    ⟨⟨2702159776422297, by decide, by decide⟩, 600, 1000, Fixed.fromU64 600,
      ⟨1000 * 2 ^ 44, by decide, by decide⟩⟩
    (by decide +kernel) (by decide +kernel)).1.mpr (by decide +kernel)

/-- The interest of a fully lent supply makes the reported debt exceed it by less than an atom. -/
def overLent : List (Operation Unit Unit) := fullyLent ++ [.market (.syncClock 1000000)]

theorem total_loss_stops_lending_or_is_refused :
    (((smallLedger .newAdaptive).run fullyLent).Reachable ∧
      (∃ health, ((smallLedger .newAdaptive).run fullyLent).market.borrowPositionHealth
          (((smallLedger .newAdaptive).run fullyLent).borrowPositions ()) crashedRate .par =
            .ok health ∧ (Fixed.one : IFixedPoint) ≤ health.ltv) ∧
      ∃ lost, (execute (.borrow () (.socializeLoss crashedRate .par))).Succeeds
          ((smallLedger .newAdaptive).run fullyLent) () lost ∧
        lost.market.supplyVault.supplySharesTracker.totalShares.bits ≠ 0 ∧
        lost.market.supplyVault.supplySharesTracker.atomsPerShare.bits = 0 ∧
        (MarketWith.lend 1).Fails (lost.supplyView ()) LendingError.divisionOverflow.into) ∧
    ((smallLedger .newAdaptive).run overLent).Reachable ∧
      (∃ health, ((smallLedger .newAdaptive).run overLent).market.borrowPositionHealth
          (((smallLedger .newAdaptive).run overLent).borrowPositions ()) crashedRate .par =
            .ok health ∧ (Fixed.one : IFixedPoint) ≤ health.ltv) ∧
      (MarketWith.socializeLoss crashedRate .par).Fails
        (((smallLedger .newAdaptive).run overLent).borrowView ())
        LendingError.subtractionOverflow.into := by
  constructor
  · refine ⟨⟨_, _, fullyLent, smallLedger_adaptive_opened, rfl⟩, ?_, _,
      Prod.ext (by decide +kernel) rfl, by decide +kernel, by decide +kernel, by decide +kernel⟩
    exact ⟨⟨⟨405323966463344, by decide, by decide⟩, 90, 1000, Fixed.fromU64 90,
      ⟨1000 * 2 ^ 44, by decide, by decide⟩⟩, by decide +kernel, by decide +kernel⟩
  · refine ⟨⟨_, _, overLent, smallLedger_adaptive_opened, rfl⟩, ?_, by decide +kernel⟩
    exact ⟨⟨⟨409827566090715, by decide, by decide⟩, 91, 1000, Fixed.fromU64 91,
      ⟨1000 * 2 ^ 44, by decide, by decide⟩⟩, by decide +kernel, by decide +kernel⟩

end Ledger

end AutaraLending
