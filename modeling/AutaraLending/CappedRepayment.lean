import AutaraLending.LiquidationHealth
import AutaraLending.SyncBound

/-! The repayment of a liquidation is capped at the shares owed, and what it pays is the amount
that was computed: neither the second adjustment nor the second check of a settlement does
anything. Only a price of debt shares far below one leaves the amount without shares. -/

namespace AutaraLending

open Support

namespace SharesTracker

variable {t t' : SharesTracker} {owed shares : UFixedPoint} {debt atoms paid : U64}

theorem withdrawAtomsCapped_reported (reported : t.sharesToAtoms owed .roundUp = .ok debt)
    (within : atoms.toNat ≤ debt.toNat)
    (success : (withdrawAtomsCapped atoms owed .roundUp).Succeeds t (paid, shares) t') :
    paid = atoms ∧ shares.bits ≤ owed.bits ∧
      shares.bits * t.atomsPerShare.bits ≤ atoms.toNat * 2 ^ 128 := by
  obtain ⟨outcome, -, -⟩ := (withdrawAtomsCapped_succeeds _ _ _ _ _ _ _).mp success
  rcases outcome with ⟨wanted, converted, exceeds, value, rfl⟩ | ⟨converted, fits, rfl⟩
  · obtain ⟨wanted_eq, loss⟩ := atomsToShares_exact _ _ _ converted
    have fewer : shares.bits * t.atomsPerShare.bits ≤ wanted.bits * t.atomsPerShare.bits :=
      Int.mul_le_mul_of_nonneg_right (le_of_lt exceeds) t.atomsPerShare.bits_nonneg
    have worth : shares.bits * t.atomsPerShare.bits ≤ atoms.toNat * 2 ^ 128 := by linarith
    obtain rfl : debt = paid := Except.ok.inj (reported.symm.trans value)
    have at_most := (sharesToAtoms_roundUp_le _ _ _ reported).1.trans (roundedUp_le _ _ worth)
    exact ⟨UInt64.toNat_inj.mp (by omega), le_rfl, worth⟩
  · obtain ⟨worth, loss⟩ := atomsToShares_exact _ _ _ converted
    rw [Fixed.lt_def, not_lt] at fits
    exact ⟨rfl, fits, by linarith⟩

theorem withdrawAtomsCapped_succeeds_iff (reported : t.sharesToAtoms owed .roundUp = .ok debt)
    (counted : owed.bits ≤ t.totalShares.bits) :
    (∃ paid shares t', (withdrawAtomsCapped atoms owed .roundUp).Succeeds t (paid, shares) t') ↔
      (atoms.toNat : Int) < t.atomsPerShare.bits := by
  simp only [withdrawAtomsCapped_succeeds]
  cases converted : t.atomsToShares atoms with
  | error failure =>
      obtain ⟨-, above⟩ := (atomsToShares_fails_iff _ _ _).mp converted
      simp only [reduceCtorEq, false_and, exists_false, or_self, false_iff]
      omega
  | ok wanted =>
      have below : (atoms.toNat : Int) < t.atomsPerShare.bits :=
        ((t.paidBy_iff wanted atoms).mpr ⟨wanted, converted, le_rfl⟩).2
      refine iff_of_true ?_ below
      by_cases exceeds : owed < wanted
      · obtain ⟨t', burned, price⟩ := t.exists_burned owed counted
        exact ⟨debt, owed, t', Or.inl ⟨wanted, rfl, exceeds, reported, rfl⟩, burned, price⟩
      · have fits : wanted.bits ≤ t.totalShares.bits := by
          rw [Fixed.lt_def] at exceeds
          omega
        obtain ⟨t', burned, price⟩ := t.exists_burned wanted fits
        exact ⟨atoms, wanted, t', Or.inr ⟨rfl, exceeds, rfl⟩, burned, price⟩

end SharesTracker

namespace Market

theorem computed_repayment_le {m : Market} {p : BorrowPosition} {collateralAtoms : U64}
    {collateralOracle supplyOracle : OracleRate} {maxRepayAtoms : U64}
    {health : BorrowPositionHealth} {liquidation : LiquidationResultWithBonus}
    (computed : m.computeLiquidationResultWithFeeForCollateral p collateralAtoms collateralOracle
      supplyOracle maxRepayAtoms = .ok (health, liquidation)) :
    m.supplyVault.borrowSharesToAtoms p.borrowedShares = .ok health.borrowedAtoms ∧
      liquidation.borrowedAtomsToRepay.toNat ≤ health.borrowedAtoms.toNat := by
  obtain ⟨health_ok, -, ⟨-, rfl⟩ | ⟨-, computed⟩⟩ :=
    (computeLiquidationResultWithFeeForCollateral_ok _ _ _ _ _ _ _ _).mp computed
  · have reported := ((borrowPositionHealthWithCollateralAtoms_ok _ _ _ _ _ _).mp health_ok).1
    exact ⟨reported, (LiquidationResultWithBonus.adjustForMaxRepay_le _ _).1⟩
  · have reported := ((borrowPositionHealthWithCollateralAtoms_ok _ _ _ _ _ _).mp health_ok).1
    have repaid_le := computeLiquidationWithFee_repaid_le _ _ computed
    exact ⟨reported, repaid_le.trans (min_le_right _ _)⟩

/-- The capped repayment of a computed liquidation pays what was computed, so that the liquidation
adjusted to it is unchanged, and burns shares of the position that are worth no more than the
atoms paid and `2^-64`. -/
def RepaysAsComputed (m : Market) (p : BorrowPosition) (liquidation : LiquidationResultWithBonus) :
    Prop :=
  ∃ paid shares vault,
    (SupplyVault.repayAtomsCapped liquidation.borrowedAtomsToRepay p.borrowedShares).Succeeds
        m.supplyVault (paid, shares) vault ∧
      paid = liquidation.borrowedAtomsToRepay ∧ liquidation.adjustForMaxRepay paid = liquidation ∧
      shares.bits ≤ p.borrowedShares.bits ∧
      shares.toRat * m.supplyVault.borrowSharesTracker.atomsPerShare.toRat ≤
        paid.toNat + 1 / 2 ^ 64

theorem repaysAsComputed_iff {m : Market} {p : BorrowPosition} {debt : U64}
    (liquidation : LiquidationResultWithBonus)
    (reported : m.supplyVault.borrowSharesToAtoms p.borrowedShares = .ok debt)
    (within : liquidation.borrowedAtomsToRepay.toNat ≤ debt.toNat)
    (counted : p.borrowedShares.bits ≤ m.supplyVault.borrowSharesTracker.totalShares.bits) :
    m.RepaysAsComputed p liquidation ↔
      (liquidation.borrowedAtomsToRepay.toNat : Int) <
        m.supplyVault.borrowSharesTracker.atomsPerShare.bits := by
  rw [← SharesTracker.withdrawAtomsCapped_succeeds_iff reported counted]
  constructor
  · rintro ⟨paid, shares, vault, success, -⟩
    obtain ⟨tracker, capped, -⟩ := (SupplyVault.onBorrowTracker_succeeds _ _ _ _).mp success
    exact ⟨paid, shares, tracker, capped⟩
  · rintro ⟨paid, shares, tracker, capped⟩
    obtain ⟨rfl, burned, worth⟩ :=
      SharesTracker.withdrawAtomsCapped_reported reported within capped
    refine ⟨_, shares, _,
      (SupplyVault.onBorrowTracker_succeeds _ _ _ _).mpr ⟨tracker, capped, rfl⟩, rfl,
      liquidation.adjustForMaxRepay_self, burned, ?_⟩
    have worth_rat : (shares.bits * m.supplyVault.borrowSharesTracker.atomsPerShare.bits : ℚ) ≤
        liquidation.borrowedAtomsToRepay.toNat * 2 ^ 128 := by exact_mod_cast worth
    calc
      shares.toRat * m.supplyVault.borrowSharesTracker.atomsPerShare.toRat =
          (shares.bits * m.supplyVault.borrowSharesTracker.atomsPerShare.bits : ℚ) / 2 ^ 128 := by
        unfold Fixed.toRat
        rw [u64f64_frac]
        ring
      _ ≤ liquidation.borrowedAtomsToRepay.toNat := by
        rw [div_le_iff₀ (by norm_num)]
        exact worth_rat
      _ ≤ liquidation.borrowedAtomsToRepay.toNat + 1 / 2 ^ 64 := by norm_num

end Market

namespace SharesTracker

theorem withdrawAtomsCapped_keepsOnFailure (atoms : U64) (maxShares : UFixedPoint)
    (rounding : RoundingMode) :
    (withdrawAtomsCapped atoms maxShares rounding).KeepsOnFailure := by
  have burning (shares : UFixedPoint) (result : U64 × UFixedPoint) :
      (burn shares >>= fun _ => pure result : LendingMethod SharesTracker _).KeepsOnFailure := by
    intro t failure t' fails
    rcases (Method.error_bind _ _ _ _ _).mp fails with early | ⟨_, _, -, impossible⟩
    · have keeps : (burn shares).KeepsOnFailure :=
        Method.reads_self.bind fun _ =>
          (Method.reads_lift _).bind fun _ => Method.keepsOnFailure_assign _
      exact keeps _ _ _ early
    · cases impossible
  refine Method.reads_self.bind fun self => (Method.reads_lift _).bind fun shares => ?_
  split
  · exact (Method.reads_lift _).bind fun _ => burning _ _
  · exact burning _ _

end SharesTracker

namespace MarketWith

theorem repayAtomsCapped_keepsOnFailure (atoms : U64) (maxShares : UFixedPoint) :
    (onMarket (Market.onSupplyVault (SupplyVault.repayAtomsCapped atoms maxShares)) :
      LendingMethod (MarketWith BorrowPosition) _).KeepsOnFailure := by
  unfold onMarket Market.onSupplyVault SupplyVault.repayAtomsCapped SupplyVault.onBorrowTracker
  refine Method.KeepsOnFailure.zoom ?_ _ _ fun _ => rfl
  refine Method.KeepsOnFailure.zoom ?_ _ _ fun _ => rfl
  refine Method.KeepsOnFailure.zoom ?_ _ _ fun _ => rfl
  exact SharesTracker.withdrawAtomsCapped_keepsOnFailure _ _ _

theorem settlementLiquidation_repay_le {s : MarketWith BorrowPosition}
    {health : BorrowPositionHealth} {collateralOracle supplyOracle : OracleRate}
    {maxRepayAtoms : U64} {liquidation : LiquidationResultWithBonus}
    (health_ok : s.market.borrowPositionHealthWithCollateralAtoms s.position
      s.position.sweptCollateralAtoms collateralOracle supplyOracle = .ok health)
    (computed : s.settlementLiquidation health collateralOracle supplyOracle maxRepayAtoms =
      .ok liquidation) :
    liquidation.borrowedAtomsToRepay.toNat ≤ health.borrowedAtoms.toNat := by
  have reported :=
    ((Market.borrowPositionHealthWithCollateralAtoms_ok _ _ _ _ _ _).mp health_ok).1
  unfold settlementLiquidation at computed
  split at computed
  · cases computed
    exact Nat.zero_le _
  · obtain ⟨⟨health', _⟩, result_ok, rfl⟩ := (except_map_ok _ _ _).mp computed
    obtain ⟨reported', within⟩ := Market.computed_repayment_le result_ok
    rwa [Except.ok.inj (reported'.symm.trans reported)] at within

theorem settlement_tail_avoids (health : BorrowPositionHealth) (shares : UFixedPoint)
    (returned : U64) (liquidation : LiquidationResultWithBonus)
    (collateralOracle supplyOracle : OracleRate) :
    MethodAvoids .capitalSweepDidNotMeetRequirements (do
      onPosition (BorrowPosition.settleCapitalSweep shares returned)
      onMarket (Market.onCollateralVault (CollateralVault.depositCollateral returned))
      let healthAfter ← ensureLtvDecreased health collateralOracle supplyOracle
      pure (⟨liquidation, health, healthAfter, returned⟩ : CapitalSweepSettlementResult)) := by
  refine .bind (.zoom _ _ ?_) fun _ => .bind (.zoom _ _ (.zoom _ _ ?_)) fun _ => .bind ?_ fun _ =>
    .pure _
  · exact .bind .self fun _ => .bind (.ite _ (.fail (by decide)) (.pure _)) fun _ =>
      .bind (repay_avoids (Or.inr rfl) _) fun _ => .bind .self fun _ => .assign _
  · exact .bind .self fun _ => .bind (.lift (by simp [U64.safeAdd])) fun _ => .assign _
  · exact .bind .self fun _ => .bind (.lift (health_avoids (Or.inr rfl) _ _ _ _ _)) fun _ =>
      .bind (.ite _ (.fail (by decide)) (.pure _)) fun _ => .pure _

theorem settleCapitalSweep_unmet (collateralOracle supplyOracle : OracleRate)
    (maxRepayAtoms maxCollateralAtomsToReturn : U64) (s s' : MarketWith BorrowPosition)
    (failure : Failure) (unmet : failure.is .capitalSweepDidNotMeetRequirements)
    (fails : settleCapitalSweep collateralOracle supplyOracle maxRepayAtoms
      maxCollateralAtomsToReturn s = (.error failure, s')) : s' = s := by
  refine (Method.reads_self.failure_cases fails).elim id ?_
  rintro ⟨_, ⟨rfl, -⟩, guarded⟩
  refine ((Method.reads_rejectIf _ _).failure_cases guarded).elim id ?_
  rintro ⟨_, -, measured⟩
  refine ((Method.reads_lift _).failure_cases measured).elim id ?_
  rintro ⟨health, health_read, planned⟩
  refine ((Method.reads_lift _).failure_cases planned).elim id ?_
  rintro ⟨computed, computed_read, checked⟩
  refine ((Method.reads_lift _).failure_cases checked).elim id ?_
  rintro ⟨returned, returned_read, repaying⟩
  obtain ⟨health_ok, -⟩ := (Method.succeeds_lift _ _ _ _).mp health_read
  obtain ⟨computed_ok, -⟩ := (Method.succeeds_lift _ _ _ _).mp computed_read
  obtain ⟨returned_ok, -⟩ := (Method.succeeds_lift _ _ _ _).mp returned_read
  rcases (Method.error_bind _ _ _ _ _).mp repaying with unpaid | ⟨⟨paid, shares⟩, u, repaid, rest⟩
  · exact repayAtomsCapped_keepsOnFailure _ _ _ _ _ unpaid
  · have reported :=
      ((Market.borrowPositionHealthWithCollateralAtoms_ok _ _ _ _ _ _).mp health_ok).1
    simp only [SupplyVault.repayAtomsCapped, onMarket_succeeds,
      Market.borrowTracker_succeeds] at repaid
    obtain ⟨_, ⟨tracker, capped, rfl⟩, rfl⟩ := repaid
    obtain ⟨rfl, -, -⟩ := SharesTracker.withdrawAtomsCapped_reported reported
      (settlementLiquidation_repay_le health_ok computed_ok) capped
    rw [LiquidationResultWithBonus.adjustForMaxRepay_self, returned_ok] at rest
    exact absurd unmet (settlement_tail_avoids _ _ _ _ _ _ _ _ (congrArg Prod.fst rest))

end MarketWith

/-! A curve without a negative stored rate keeps the price of debt shares at one or more, where
every amount has shares. -/

namespace InterestRateCurveKind

def Nonnegative : InterestRateCurveKind → Prop
  | .fixed rate => 0 ≤ rate.rate.bits
  | .polyline _ => True
  | .adaptive curve => 0 ≤ curve.rateAtTarget.rate.bits

theorem nonnegative_of_valid (curve : InterestRateCurveKind) (valid : curve.isValid = true)
    (stored : ∀ adaptive, curve = .adaptive adaptive →
      adaptive.rateAtTarget.rate.isNegative = false) : curve.Nonnegative := by
  cases curve with
  | fixed rate =>
      simp only [isValid, Bool.and_eq_true, Bool.not_eq_true', ← Bool.not_eq_true,
        Fixed.isNegative_iff, not_lt] at valid
      exact valid.1
  | polyline curve => exact trivial
  | adaptive curve =>
      have nonneg := stored curve rfl
      rw [← Bool.not_eq_true, Fixed.isNegative_iff, not_lt] at nonneg
      exact nonneg

theorem borrowRatePerSecond_nonnegative (params : MarketBorrowRateParameters)
    (curve next : InterestRateCurveKind) (rate : InterestRatePerSecond)
    (nonnegative : curve.Nonnegative) (nonneg : 0 ≤ params.utilisationRate.bits)
    (small : params.utilisationRate.bits ≤ 2 ^ 112)
    (success : (borrowRatePerSecond params).Succeeds curve rate next) :
    0 ≤ rate.rate.bits ∧ next.Nonnegative := by
  cases curve with
  | fixed fixedRate =>
      obtain ⟨rfl, rfl⟩ := (fixed_succeeds _ _ _ _).mp success
      exact ⟨nonnegative, nonnegative⟩
  | polyline polyline =>
      obtain ⟨rate_nonneg, -⟩ := borrowRatePerSecond_tame params (.polyline polyline) next rate
        trivial nonneg small success
      obtain ⟨-, rfl⟩ := (polyline_succeeds _ _ _ _).mp success
      exact ⟨rate_nonneg, trivial⟩
  | adaptive adaptive =>
      obtain ⟨updated, adapted, rfl⟩ := (adaptive_succeeds _ _ _ _).mp success
      exact AdaptiveInterestRateCurve.borrowRate_nonneg _ _ _ _ nonnegative nonneg small adapted

end InterestRateCurveKind

namespace Ledger

variable {σ β : Type}

structure DebtAtPar (l : Ledger σ β) : Prop where
  grain : l.debtPrice % 2 ^ 16 = 0
  curve : l.market.supplyVault.interestRateCurve.Nonnegative
  price : 2 ^ 64 ≤ l.debtPrice

theorem Opened.debtAtPar {data : Market.CreateMarket} {l : Ledger σ β} (opened : Opened data l)
    (stored : ∀ adaptive, data.interestRate = .adaptive adaptive →
      adaptive.rateAtTarget.rate.isNegative = false) : l.DebtAtPar := by
  obtain ⟨fresh, curve⟩ := opened.fresh
  have price : l.debtPrice = 2 ^ 64 := by
    unfold debtPrice
    rw [fresh.borrow]
    rfl
  refine ⟨by rw [price]; rfl, ?_, price.ge⟩
  have valid := fresh.curve
  rw [curve] at valid ⊢
  exact InterestRateCurveKind.nonnegative_of_valid _ valid stored

variable [DecidableEq σ] [DecidableEq β]

theorem DebtAtPar.step {l l' : Ledger σ β} (operation : Operation σ β) (par : l.DebtAtPar)
    (success : (execute operation).Succeeds l () l') : l'.DebtAtPar := by
  rcases debtTerms_step operation success with ⟨price, curve⟩ | ⟨_, _, _, -, ⟨sync⟩⟩
  · refine ⟨?_, ?_, ?_⟩
    · rw [price]
      exact par.grain
    · rw [curve]
      exact par.curve
    · rw [price]
      exact par.price
  · obtain ⟨nonneg, small⟩ := SupplyVault.utilisationRate_range _ _ sync.utilisation_ok
    obtain ⟨rate_nonneg, next⟩ := InterestRateCurveKind.borrowRatePerSecond_nonnegative _ _ _ _
      par.curve nonneg small sync.rate_ok
    obtain ⟨grain, grown⟩ := sync.price_grows rate_nonneg par.grain
    exact ⟨grain, next, le_trans par.price grown⟩

theorem DebtAtPar.run {l : Ledger σ β} (par : l.DebtAtPar) (operations : List (Operation σ β)) :
    (l.run operations).DebtAtPar :=
  Machine.run_invariant operations par
    (fun _ operation _ _ par success => par.step operation success)

variable [Fintype σ] [Fintype β]

/-- In every state of every run the capped repayment of a computed liquidation agrees with it
exactly when the amount is below the price of debt shares in units of `2^-64`. A market whose curve
was not created with a negative stored rate always is in such a state. A settlement that fails
on the caller's limit leaves market and position as they were, at any price. -/
theorem capped_repayment_agrees_iff (data : Market.CreateMarket) (start : Ledger σ β)
    (opened : Opened data start) (operations : List (Operation σ β)) (key : β)
    (collateralOracle supplyOracle : OracleRate) (maxRepayAtoms : U64) :
    (∀ collateralAtoms health liquidation,
      (start.run operations).market.computeLiquidationResultWithFeeForCollateral
          ((start.run operations).borrowPositions key) collateralAtoms collateralOracle supplyOracle
          maxRepayAtoms = .ok (health, liquidation) →
        ((start.run operations).market.RepaysAsComputed
            ((start.run operations).borrowPositions key) liquidation ↔
          (liquidation.borrowedAtomsToRepay.toNat : Int) < (start.run operations).debtPrice) ∧
        ((∀ adaptive, data.interestRate = .adaptive adaptive →
            adaptive.rateAtTarget.rate.isNegative = false) →
          (start.run operations).market.RepaysAsComputed
            ((start.run operations).borrowPositions key) liquidation)) ∧
      ∀ maxCollateralAtomsToReturn failure s',
        MarketWith.settleCapitalSweep collateralOracle supplyOracle maxRepayAtoms
            maxCollateralAtomsToReturn ((start.run operations).borrowView key) =
          (.error failure, s') →
        failure.is .capitalSweepDidNotMeetRequirements →
        s' = (start.run operations).borrowView key := by
  have reachable : (start.run operations).Reachable := ⟨data, start, operations, opened, rfl⟩
  constructor
  · intro collateralAtoms health liquidation computed
    obtain ⟨reported, within⟩ := Market.computed_repayment_le computed
    have agrees := Market.repaysAsComputed_iff liquidation reported within
      (reachable.sharesConserved.borrowed_le key)
    refine ⟨agrees, fun stored => agrees.mpr ?_⟩
    have par := ((opened.debtAtPar stored).run operations).price
    have range := liquidation.borrowedAtomsToRepay.toNat_lt
    unfold debtPrice at par
    omega
  · intro maxCollateralAtomsToReturn failure s' fails unmet
    exact MarketWith.settleCapitalSweep_unmet _ _ _ _ _ _ _ unmet fails

theorem swept_loan_repaid_as_computed :
    ((smallLedger .newAdaptive).run sweptLoan).market.RepaysAsComputed
        (((smallLedger .newAdaptive).run sweptLoan).borrowPositions ()) ⟨395, 563, 28⟩ ∧
      ∃ failure s', MarketWith.settleCapitalSweep loweredRate .par U64.max 0
          (((smallLedger .newAdaptive).run sweptLoan).borrowView ()) = (.error failure, s') ∧
        failure.is .capitalSweepDidNotMeetRequirements ∧
        s' = ((smallLedger .newAdaptive).run sweptLoan).borrowView () := by
  have agrees := capped_repayment_agrees_iff _ _ smallLedger_adaptive_opened sweptLoan ()
    loweredRate .par U64.max
  constructor
  · have computed : Prod.snd <$>
        ((smallLedger .newAdaptive).run
          sweptLoan).market.computeLiquidationResultWithFeeForCollateral
          (((smallLedger .newAdaptive).run sweptLoan).borrowPositions ()) 1000 loweredRate .par
          U64.max = .ok ⟨395, 563, 28⟩ := by decide +kernel
    obtain ⟨⟨health, _⟩, computed_ok, rfl⟩ := (except_map_ok _ _ _).mp computed
    exact (agrees.1 1000 health _ computed_ok).2 fun _ same => by
      rw [← InterestRateCurveKind.adaptive.inj same]
      decide
  · have unmet : (MarketWith.settleCapitalSweep loweredRate .par U64.max 0).Fails
        (((smallLedger .newAdaptive).run sweptLoan).borrowView ())
        LendingError.capitalSweepDidNotMeetRequirements.into := by decide +kernel
    exact ⟨_, _, Prod.ext unmet rfl, ⟨[], rfl⟩, agrees.2 0 _ _ (Prod.ext unmet rfl) ⟨[], rfl⟩⟩

/-- An adaptive curve with a stored rate of -528 per second, which is accepted at creation. -/
def sinkingCurve : InterestRateCurveKind := .adaptive ⟨⟨.fromI64U64Ratio (-528) 1⟩⟩

/-- The utilisation of the first loan rounds to zero, so that the negative rate of the debt passes
for a lending rate of zero. A second of it brings the price of debt shares down to `2^-48`. -/
def sunkenLoan : List (Operation Unit Unit) :=
  [.supply () (.lend 1125899906842624), .borrow () (.depositCollateral 1048576),
    .borrow () (.borrow 1 .par .par), .market (.syncClock 1),
    .borrow () (.borrow 65535 .par .par)]

theorem sunken_loan_unpayable :
    ((smallLedger sinkingCurve).run sunkenLoan).Reachable ∧
      ∃ health liquidation,
        ((smallLedger sinkingCurve).run sunkenLoan).market.computeLiquidationResultWithFee
            (((smallLedger sinkingCurve).run sunkenLoan).borrowPositions ())
            (.exact (.lit 1 3) (by decide)) .par U64.max = .ok (health, liquidation) ∧
        liquidation.borrowedAtomsToRepay = 65536 ∧
        (SupplyVault.repayAtomsCapped liquidation.borrowedAtomsToRepay
            (((smallLedger sinkingCurve).run sunkenLoan).borrowPositions ()).borrowedShares).Fails
          ((smallLedger sinkingCurve).run sunkenLoan).market.supplyVault
          LendingError.divisionOverflow.into ∧
        ¬ ((smallLedger sinkingCurve).run sunkenLoan).market.RepaysAsComputed
          (((smallLedger sinkingCurve).run sunkenLoan).borrowPositions ()) liquidation := by
  refine ⟨⟨_, _, sunkenLoan, smallLedger_opened sinkingCurve (by decide +kernel), rfl⟩, ?_⟩
  have computed : (fun pair => pair.2.borrowedAtomsToRepay) <$>
      ((smallLedger sinkingCurve).run sunkenLoan).market.computeLiquidationResultWithFee
        (((smallLedger sinkingCurve).run sunkenLoan).borrowPositions ())
        (.exact (.lit 1 3) (by decide)) .par U64.max = .ok 65536 := by decide +kernel
  have fails : (SupplyVault.repayAtomsCapped 65536
      (((smallLedger sinkingCurve).run sunkenLoan).borrowPositions ()).borrowedShares).Fails
      ((smallLedger sinkingCurve).run sunkenLoan).market.supplyVault
      LendingError.divisionOverflow.into := by decide +kernel
  obtain ⟨⟨health, liquidation⟩, computed_ok, repaid⟩ := (except_map_ok _ _ _).mp computed
  dsimp only at repaid
  refine ⟨health, liquidation, computed_ok, repaid, by rw [repaid]; exact fails, ?_⟩
  rintro ⟨paid, shares, vault, success, -⟩
  rw [repaid] at success
  exact success.not_fails _ fails

end Ledger

end AutaraLending
