import AutaraLending.Conservation
import AutaraLending.DebtMonotonicity
import AutaraLending.Valuation

/-! What a position can take out or pay back in whole atoms. Amounts become shares rounded down
in both directions: the shares of an amount within a reported supply are always there, while the
shares of a reported debt, which is rounded up, may be more than the position owes. -/

namespace AutaraLending

open Support

theorem proportionalAtoms_succeeds (part whole : UFixedPoint) (atoms : U64) (less : part < whole) :
    ∃ adjusted, proportionalAtoms part whole atoms = .ok adjusted ∧
      adjusted.toNat ≤ atoms.toNat := by
  have nonneg := part.bits_nonneg
  have small := atoms.toNat_lt
  rw [Fixed.lt_def] at less
  have ratio_lt : part.bits * 2 ^ 64 / whole.bits < 2 ^ 64 :=
    Int.ediv_lt_of_lt_mul (by omega) (by linarith)
  have ratio_nonneg : 0 ≤ part.bits * 2 ^ 64 / whole.bits :=
    Int.ediv_nonneg (by omega) whole.bits_nonneg
  obtain ⟨ratio, ratio_eq⟩ := UFixedPoint.exists_bits (part.bits * 2 ^ 64 / whole.bits)
    ratio_nonneg (by omega)
  rw [← ratio_eq] at ratio_lt ratio_nonneg
  have product_le : ratio.bits * atoms.toNat ≤ 2 ^ 64 * atoms.toNat :=
    Int.mul_le_mul_of_nonneg_right ratio_lt.le (by omega)
  obtain ⟨product, product_eq⟩ := UFixedPoint.exists_bits (ratio.bits * atoms.toNat)
    (by positivity) (by omega)
  have floor_le : product.floor ≤ atoms.toNat := by
    unfold Fixed.floor
    rw [product_eq, u64f64_frac]
    omega
  have floor_nonneg : 0 ≤ product.floor :=
    Int.ediv_nonneg product.bits_nonneg (by positivity)
  have cast : (UInt64.ofNat product.floor.toNat).toNat = product.floor.toNat :=
    U64.toNat_ofNat (by omega)
  refine ⟨UInt64.ofNat product.floor.toNat, ?_, by omega⟩
  simp only [proportionalAtoms, except_bind_ok, Fixed.safeDiv_ok, Fixed.safeMulU64_ok,
    Fixed.asU64RoundedDown_ok, u64f64_frac]
  refine ⟨ratio, ⟨by omega, ?_⟩, product, product_eq.symm, by omega⟩
  rw [Int.tdiv_eq_ediv_of_nonneg (by omega)]
  exact ratio_eq.symm

theorem SupplyPosition.withdraw_of_enough (shares : UFixedPoint) (p : SupplyPosition)
    (enough : shares.bits ≤ p.shares.bits) : ∃ p', (withdraw shares).Succeeds p () p' := by
  have adjusted_ok : ∃ adjusted : U64,
      (if shares < p.shares then proportionalAtoms shares p.shares p.depositedAtoms
        else .ok p.depositedAtoms) = .ok adjusted ∧ adjusted.toNat ≤ p.depositedAtoms.toNat := by
    by_cases part : shares < p.shares
    · rw [if_pos part]
      exact proportionalAtoms_succeeds _ _ _ part
    · rw [if_neg part]
      exact ⟨p.depositedAtoms, rfl, le_rfl⟩
  obtain ⟨adjusted, adjusted_ok, within⟩ := adjusted_ok
  obtain ⟨deposited, deposited_ok, -⟩ := U64.safeSub_succeeds p.depositedAtoms adjusted within
  obtain ⟨remaining, remaining_eq⟩ := UFixedPoint.exists_bits (p.shares.bits - shares.bits)
    (by omega) (by have := p.shares.bits_lt; have := shares.bits_nonneg; omega)
  refine ⟨{ p with depositedAtoms := deposited, shares := remaining }, ?_⟩
  simp only [withdraw, Method.succeeds_bind, Method.succeeds_self, Method.succeeds_rejectIf,
    Method.succeeds_lift, Method.succeeds_assign, Fixed.safeSub_ok, Fixed.lt_def, not_lt]
  exact ⟨p, p, ⟨rfl, rfl⟩, (), p, ⟨enough, rfl⟩, adjusted, p, ⟨adjusted_ok, rfl⟩, deposited, p,
    ⟨deposited_ok, rfl⟩, (), _, rfl, remaining, _, ⟨remaining_eq.symm, rfl⟩, rfl⟩

theorem BorrowPosition.debtAfter_of_enough (shares borrowed : UFixedPoint) (initial : U64)
    (enough : shares.bits ≤ borrowed.bits) :
    ∃ initial' borrowed', DebtAfter shares borrowed initial initial' borrowed' := by
  by_cases part : shares < borrowed
  · obtain ⟨adjusted, adjusted_ok, within⟩ := proportionalAtoms_succeeds _ _ initial part
    obtain ⟨left, -, left_eq⟩ := U64.safeSub_succeeds initial adjusted within
    obtain ⟨remaining, remaining_eq⟩ := UFixedPoint.exists_bits (borrowed.bits - shares.bits)
      (by omega) (by have := borrowed.bits_lt; have := shares.bits_nonneg; omega)
    exact ⟨left, remaining, Or.inl ⟨part, remaining_eq.symm, adjusted, adjusted_ok, by omega⟩⟩
  · have same : shares = borrowed := Fixed.ext_bits (by rw [Fixed.lt_def] at part; omega)
    exact ⟨0, Fixed.zero, Or.inr ⟨same, rfl, rfl⟩⟩

namespace SharesTracker

/-- The shares of an amount are at most some others exactly when the amount is worth less than
one share unit more. -/
theorem atomsToShares_le_iff (t : SharesTracker) (atoms : U64) (limit : UFixedPoint) :
    (∃ shares, t.atomsToShares atoms = .ok shares ∧ shares.bits ≤ limit.bits) ↔
      (atoms.toNat : Int) * 2 ^ 128 < (limit.bits + 1) * t.atomsPerShare.bits := by
  have price_nonneg := t.atomsPerShare.bits_nonneg
  have atoms_nonneg : (0 : Int) ≤ atoms.toNat * 2 ^ 128 := by positivity
  have limit_lt := limit.bits_lt
  constructor
  · intro ⟨shares, converted, within⟩
    obtain ⟨priced, quotient⟩ := (atomsToShares_ok _ _ _).mp converted
    rw [← quotient] at within
    exact Int.lt_mul_of_ediv_lt (by omega) (by omega)
  · intro covered
    have priced : 0 < t.atomsPerShare.bits := by
      by_contra free
      have zero : t.atomsPerShare.bits = 0 := by omega
      rw [zero, mul_zero] at covered
      omega
    have quotient_lt : (atoms.toNat : Int) * 2 ^ 128 / t.atomsPerShare.bits < limit.bits + 1 :=
      Int.ediv_lt_of_lt_mul priced covered
    obtain ⟨shares, shares_eq⟩ := UFixedPoint.exists_bits
      (atoms.toNat * 2 ^ 128 / t.atomsPerShare.bits) (Int.ediv_nonneg atoms_nonneg price_nonneg)
      (by omega)
    exact ⟨shares, (atomsToShares_ok _ _ _).mpr ⟨priced.ne', shares_eq.symm⟩, by omega⟩

theorem exists_burned (t : SharesTracker) (shares : UFixedPoint)
    (enough : shares.bits ≤ t.totalShares.bits) :
    ∃ t' : SharesTracker, t.totalShares.bits = t'.totalShares.bits + shares.bits ∧
      t'.atomsPerShare = t.atomsPerShare := by
  obtain ⟨left, left_eq⟩ := UFixedPoint.exists_bits (t.totalShares.bits - shares.bits)
    (by omega) (by have := t.totalShares.bits_lt; have := shares.bits_nonneg; omega)
  exact ⟨⟨left, t.atomsPerShare⟩, by dsimp only; omega, rfl⟩

theorem conversionLoss_lt (t : SharesTracker) (atoms : U64) (priced : t.atomsPerShare.bits ≠ 0) :
    t.conversionLoss atoms < 2 ^ 128 := by
  have nonneg := t.atomsPerShare.bits_nonneg
  have small := t.atomsPerShare.bits_lt
  have below := Int.emod_lt_of_pos (atoms.toNat * 2 ^ 128) (by omega : 0 < t.atomsPerShare.bits)
  unfold conversionLoss
  omega

/-- What is left of some shares after the shares of an amount is worth the amount less, or one
atom more than that. -/
theorem value_after_withdrawal (t : SharesTracker) (atoms value : U64)
    (held burned left : UFixedPoint) (positive : 1 ≤ atoms.toNat)
    (converted : t.atomsToShares atoms = .ok burned)
    (info : t.sharesToAtoms held .roundDown = .ok value) (within : atoms.toNat ≤ value.toNat)
    (held_eq : held.bits = left.bits + burned.bits) :
    ∃ rest, t.sharesToAtoms left .roundDown = .ok rest ∧
      (value.toNat = rest.toNat + atoms.toNat ∨ value.toNat = rest.toNat + (atoms.toNat - 1)) := by
  have priced := ((atomsToShares_ok _ _ _).mp converted).1
  obtain ⟨burned_value, loss_nonneg⟩ := atomsToShares_exact _ _ _ converted
  have loss_lt := t.conversionLoss_lt atoms priced
  have floor_eq := (sharesToAtoms_roundDown_ok _ _ _).mp info
  have small := value.toNat_lt
  have left_value : left.bits * t.atomsPerShare.bits =
      held.bits * t.atomsPerShare.bits - atoms.toNat * 2 ^ 128 + t.conversionLoss atoms := by
    rw [held_eq, add_mul, burned_value]
    ring
  generalize held.bits * t.atomsPerShare.bits = exact at *
  generalize t.conversionLoss atoms = loss at *
  have rest_eq : left.bits * t.atomsPerShare.bits / 2 ^ 128 = value.toNat - atoms.toNat ∨
      left.bits * t.atomsPerShare.bits / 2 ^ 128 = value.toNat - atoms.toNat + 1 := by
    rw [left_value]
    omega
  have cast : (UInt64.ofNat (left.bits * t.atomsPerShare.bits / 2 ^ 128).toNat).toNat =
      (left.bits * t.atomsPerShare.bits / 2 ^ 128).toNat := U64.toNat_ofNat (by omega)
  refine ⟨UInt64.ofNat (left.bits * t.atomsPerShare.bits / 2 ^ 128).toNat, ?_, by omega⟩
  rw [sharesToAtoms_roundDown_ok]
  omega

end SharesTracker

theorem Market.rejectOverdrawn_fails (failure failure' : Failure) (m : Market) :
    (rejectOverdrawn failure).Fails m failure' ↔
      m.supplyVault.utilisationRate = .error failure' ∨
        ((∃ rate, m.supplyVault.utilisationRate = .ok rate ∧ (Fixed.one : IFixedPoint) < rate) ∧
          failure = failure') := by
  simp only [rejectOverdrawn, Method.fails_bind, Method.fails_self, Method.fails_lift,
    Method.fails_rejectIf, Method.succeeds_self, Method.succeeds_lift, false_or]
  constructor
  · rintro ⟨_, _, ⟨rfl, rfl⟩, failed | ⟨rate, _, ⟨utilised, rfl⟩, above, same⟩⟩
    · exact Or.inl failed
    · exact Or.inr ⟨⟨rate, utilised, above⟩, same⟩
  · rintro (failed | ⟨⟨rate, utilised, above⟩, same⟩)
    · exact ⟨m, m, ⟨rfl, rfl⟩, Or.inl failed⟩
    · exact ⟨m, m, ⟨rfl, rfl⟩, Or.inr ⟨rate, m, ⟨utilised, rfl⟩, above, same⟩⟩

theorem MarketWith.withdraw_fails (atoms : U64) (s : MarketWith SupplyPosition) (failure : Failure)
    (fails : (withdraw atoms).Fails s failure) :
    (SharesTracker.withdrawAtoms atoms).Fails s.market.supplyVault.supplySharesTracker failure ∨
      ∃ shares tracker,
        (SharesTracker.withdrawAtoms atoms).Succeeds s.market.supplyVault.supplySharesTracker
          shares tracker ∧
        ((Market.rejectOverdrawn LendingError.withdrawalExceedsReserves.into).Fails
            (s.market.withSupplyTracker tracker) failure ∨
          (SupplyPosition.withdraw shares).Fails s.position failure) := by
  simp only [withdraw, SupplyVault.withdrawAtoms, Method.fails_bind, onMarket_succeeds,
    Market.supplyTracker_succeeds] at fails
  rcases fails with failed | ⟨shares, _, ⟨_, ⟨tracker, burned, rfl⟩, rfl⟩, refused |
    ⟨_, _, ⟨_, checked, rfl⟩, rejected⟩⟩
  · exact Or.inl failed
  · exact Or.inr ⟨shares, tracker, burned, Or.inl refused⟩
  · exact Or.inr ⟨shares, tracker, burned, Or.inr rejected⟩

namespace Ledger

variable {σ β : Type} [DecidableEq σ] [DecidableEq β] [Fintype σ] [Fintype β]

/-- A withdrawal within the reported value of the position converts, burns and debits the shares;
only the utilisation of the reduced vault can refuse it. The position then reports the amount
less, or one atom more than that. -/
theorem withdraw_within_value (l : Ledger σ β) (reachable : l.Reachable) (key : σ)
    (atoms value : U64)
    (info : l.market.supplyPositionInfo (l.supplyPositions key) = .ok value)
    (positive : 1 ≤ atoms.toNat) (within : atoms.toNat ≤ value.toNat) :
    ∃ shares tracker,
      (SharesTracker.withdrawAtoms atoms).Succeeds l.market.supplyVault.supplySharesTracker shares
        tracker ∧
      (∀ failure, (MarketWith.withdraw atoms).Fails (l.supplyView key) failure →
        (l.market.withSupplyTracker tracker).supplyVault.utilisationRate = .error failure ∨
          ((∃ rate, (l.market.withSupplyTracker tracker).supplyVault.utilisationRate = .ok rate ∧
              (Fixed.one : IFixedPoint) < rate) ∧
            failure = LendingError.withdrawalExceedsReserves.into)) ∧
      ∀ s', (MarketWith.withdraw atoms).Succeeds (l.supplyView key) () s' →
        ∃ rest, s'.market.supplyPositionInfo s'.position = .ok rest ∧
          (value.toNat = rest.toNat + atoms.toNat ∨
            value.toNat = rest.toNat + (atoms.toNat - 1)) := by
  have floor_eq := (SharesTracker.sharesToAtoms_roundDown_ok _ _ _).mp info
  have priced_nonneg := l.market.supplyVault.supplySharesTracker.atomsPerShare.bits_nonneg
  have held := reachable.sharesConserved.supplied_le key
  -- the amount is within the exact value, so its shares are among those of the position
  have covered : (atoms.toNat : Int) * 2 ^ 128 < ((l.supplyPositions key).shares.bits + 1) *
      l.market.supplyVault.supplySharesTracker.atomsPerShare.bits := by
    have exact_value : (atoms.toNat : Int) * 2 ^ 128 ≤ (l.supplyPositions key).shares.bits *
        l.market.supplyVault.supplySharesTracker.atomsPerShare.bits := by omega
    have priced : l.market.supplyVault.supplySharesTracker.atomsPerShare.bits ≠ 0 := by
      intro free
      rw [free, mul_zero] at exact_value
      omega
    rw [add_mul]
    omega
  obtain ⟨shares, converted, owned⟩ := (SharesTracker.atomsToShares_le_iff _ _ _).mpr covered
  obtain ⟨tracker, burned, price⟩ := SharesTracker.exists_burned
    l.market.supplyVault.supplySharesTracker shares (by omega)
  have withdrawn : (SharesTracker.withdrawAtoms atoms).Succeeds
      l.market.supplyVault.supplySharesTracker shares tracker :=
    (SharesTracker.withdrawAtoms_succeeds _ _ _ _).mpr ⟨converted, burned, price⟩
  refine ⟨shares, tracker, withdrawn, ?_, ?_⟩
  · intro failure fails
    rcases MarketWith.withdraw_fails _ _ _ fails with failed | ⟨shares', tracker', withdrawn',
      refused | rejected⟩
    · exact absurd failed (withdrawn.not_fails failure)
    · obtain ⟨rfl, rfl⟩ := Method.succeeds_unique _ _ _ _ _ _ withdrawn withdrawn'
      rcases (Market.rejectOverdrawn_fails _ _ _).mp refused with unknown | ⟨above, same⟩
      · exact Or.inl unknown
      · exact Or.inr ⟨above, same.symm⟩
    · obtain ⟨rfl, rfl⟩ := Method.succeeds_unique _ _ _ _ _ _ withdrawn withdrawn'
      obtain ⟨p', debited⟩ := SupplyPosition.withdraw_of_enough shares (l.supplyPositions key) owned
      exact absurd rejected (debited.not_fails failure)
  · intro s' success
    obtain ⟨shares', tracker', withdrawn', market_eq, -, debited⟩ :=
      MarketWith.withdraw_succeeds _ _ _ _ success
    obtain ⟨rfl, rfl⟩ := Method.succeeds_unique _ _ _ _ _ _ withdrawn withdrawn'
    have position := SupplyPosition.withdraw_succeeds _ _ _ _ debited
    obtain ⟨rest, rest_ok, drop⟩ := SharesTracker.value_after_withdrawal _ _ _ _ _ _ positive
      converted info within position
    refine ⟨rest, ?_, drop⟩
    rw [market_eq, Market.supplyPositionInfo, Market.withSupplyTracker,
      SharesTracker.sharesToAtoms, price]
    exact rest_ok

end Ledger

/-- The loan after a million seconds of interest. -/
def accruedLoan : List (Operation Unit Unit) := smallLoan ++ [.market (.syncClock 1000000)]

theorem Ledger.accrued_loan_withdrawal :
    ∃ s', (MarketWith.withdraw 300).Succeeds
        (((smallLedger .newAdaptive).run accruedLoan).supplyView ()) () s' ∧
      ∃ rest, s'.market.supplyPositionInfo s'.position = .ok rest ∧
        ((1000 : U64).toNat = rest.toNat + (300 : U64).toNat ∨
          (1000 : U64).toNat = rest.toNat + ((300 : U64).toNat - 1)) := by
  obtain ⟨-, -, -, -, drops⟩ := withdraw_within_value ((smallLedger .newAdaptive).run accruedLoan)
    ⟨_, _, accruedLoan, smallLedger_adaptive_opened, rfl⟩ () 300 1000 (by decide +kernel)
    (by decide) (by decide)
  have success : (MarketWith.withdraw 300).Succeeds
      (((smallLedger .newAdaptive).run accruedLoan).supplyView ()) ()
      (MarketWith.withdraw 300 (((smallLedger .newAdaptive).run accruedLoan).supplyView ())).2 :=
    Prod.ext (by decide +kernel) rfl
  exact ⟨_, success, drops _ success⟩

namespace SharesTracker

theorem sharesToAtoms_roundUp_succeeds (t : SharesTracker) (shares : UFixedPoint)
    (small : shares.bits * t.atomsPerShare.bits / 2 ^ 64 < 2 ^ 128) :
    ∃ atoms, t.sharesToAtoms shares .roundUp = .ok atoms := by
  have nonneg := mul_nonneg shares.bits_nonneg t.atomsPerShare.bits_nonneg
  generalize value_eq : (if shares.bits * t.atomsPerShare.bits / 2 ^ 64 % 2 ^ 64 = 0 then
      shares.bits * t.atomsPerShare.bits / 2 ^ 128
    else min (shares.bits * t.atomsPerShare.bits / 2 ^ 128 + 1) (2 ^ 64 - 1)) = value
  have range : 0 ≤ value ∧ value < 2 ^ 64 := by
    generalize shares.bits * t.atomsPerShare.bits = exact at *
    split at value_eq
    · omega
    · omega
  have cast : (UInt64.ofNat value.toNat).toNat = value.toNat := U64.toNat_ofNat (by omega)
  refine ⟨UInt64.ofNat value.toNat, (sharesToAtoms_roundUp_ok _ _ _).mpr ⟨small, ?_⟩⟩
  rw [value_eq]
  omega

theorem reported_zero_iff (t : SharesTracker) (shares : UFixedPoint) (atoms : U64)
    (reported : t.sharesToAtoms shares .roundUp = .ok atoms) :
    atoms.toNat = 0 ↔ shares.bits * t.atomsPerShare.bits < 2 ^ 64 := by
  have nonneg := mul_nonneg shares.bits_nonneg t.atomsPerShare.bits_nonneg
  obtain ⟨small, value⟩ := (sharesToAtoms_roundUp_ok _ _ _).mp reported
  generalize shares.bits * t.atomsPerShare.bits = exact at *
  split at value
  · omega
  · omega

end SharesTracker

theorem MarketWith.repay_of_enough (atoms : U64) (s : MarketWith BorrowPosition)
    (shares : UFixedPoint) (inactive : s.position.sweptCollateralAtoms = 0)
    (converted : s.market.supplyVault.borrowSharesTracker.atomsToShares atoms = .ok shares)
    (owed : shares.bits ≤ s.position.borrowedShares.bits)
    (counted : s.position.borrowedShares.bits ≤
      s.market.supplyVault.borrowSharesTracker.totalShares.bits) :
    ∃ s', (repay atoms).Succeeds s () s' := by
  obtain ⟨tracker, burned, price⟩ := SharesTracker.exists_burned
    s.market.supplyVault.borrowSharesTracker shares (by omega)
  obtain ⟨initial, borrowed, debt⟩ := BorrowPosition.debtAfter_of_enough shares
    s.position.borrowedShares s.position.initialBorrowedAtoms owed
  have repaid := (BorrowPosition.repay_succeeds shares s.position _ ()).mpr
    ⟨initial, borrowed, debt, rfl⟩
  refine ⟨⟨s.market.withBorrowTracker tracker,
    { s.position with initialBorrowedAtoms := initial, borrowedShares := borrowed }⟩, ?_⟩
  simp only [repay, SupplyVault.repayAtoms, Method.succeeds_bind, onMarket_succeeds,
    onPosition_succeeds, Market.borrowTracker_succeeds, ensureCapitalSweepInactive_succeeds,
    SharesTracker.withdrawAtoms_succeeds]
  exact ⟨(), s, ⟨inactive, rfl⟩, shares, _, ⟨_, ⟨tracker, ⟨converted, burned, price⟩, rfl⟩, rfl⟩, _,
    repaid, rfl⟩

theorem MarketWith.repay_leaves (atoms : U64) (s s' : MarketWith BorrowPosition)
    (success : (repay atoms).Succeeds s () s') :
    ∃ shares, s.market.supplyVault.borrowSharesTracker.atomsToShares atoms = .ok shares ∧
      s.position.borrowedShares.bits = s'.position.borrowedShares.bits + shares.bits ∧
      ∀ atoms', s'.market.supplyVault.borrowSharesToAtoms s'.position.borrowedShares = .ok atoms' ↔
        s.market.supplyVault.borrowSharesTracker.sharesToAtoms s'.position.borrowedShares .roundUp =
          .ok atoms' := by
  obtain ⟨-, shares, tracker, converted, repayment, market_eq, -⟩ := repay_succeeds _ _ _ _ success
  refine ⟨shares, converted, repayment.repaid, fun atoms' => ?_⟩
  rw [market_eq, SupplyVault.borrowSharesToAtoms, Market.withBorrowTracker,
    SharesTracker.sharesToAtoms, SharesTracker.sharesToAtoms, repayment.price]

/-- Every amount up to `debt` can be repaid, which lowers the reported debt by it up to one atom,
and to nothing when it is all of it. -/
def MarketWith.RepayLaw (s : MarketWith BorrowPosition) (debt : U64) : Prop :=
  ∀ atoms : U64, atoms.toNat ≤ debt.toNat →
    ∃ s' left, (repay atoms).Succeeds s () s' ∧
      s'.market.supplyVault.borrowSharesToAtoms s'.position.borrowedShares = .ok left ∧
      left.toNat ≤ debt.toNat - atoms.toNat + 1 ∧ (atoms = debt → left.toNat = 0)

/-- The shares of `debt` are among those that a position owes, and leave nothing to report. -/
def SharesTracker.Clears (t : SharesTracker) (shares : UFixedPoint) (debt : U64) : Prop :=
  (debt.toNat : Int) * 2 ^ 128 < (shares.bits + 1) * t.atomsPerShare.bits ∧
    (shares.bits - debt.toNat * 2 ^ 128 / t.atomsPerShare.bits) * t.atomsPerShare.bits < 2 ^ 64

instance (t : SharesTracker) (shares : UFixedPoint) (debt : U64) :
    Decidable (t.Clears shares debt) := inferInstanceAs (Decidable (_ ∧ _))

namespace Ledger

variable {σ β : Type} [DecidableEq σ] [DecidableEq β] [Fintype σ] [Fintype β]

/-- The repayments up to a reported debt behave as reported exactly when the conversion of that
debt back to shares meets the shares owed. -/
theorem repay_law_iff (l : Ledger σ β) (reachable : l.Reachable) (key : β) (debt : U64)
    (inactive : (l.borrowPositions key).sweptCollateralAtoms = 0)
    (reported : l.reportedDebt key = .ok debt) :
    (l.borrowView key).RepayLaw debt ↔
      l.market.supplyVault.borrowSharesTracker.Clears (l.borrowPositions key).borrowedShares
        debt := by
  have counted := reachable.sharesConserved.borrowed_le key
  have reported_ok := reported
  rw [reportedDebt, SupplyVault.borrowSharesToAtoms] at reported_ok
  have small := ((SharesTracker.sharesToAtoms_roundUp_ok _ _ _).mp reported_ok).1
  generalize tracker_eq : l.market.supplyVault.borrowSharesTracker = tracker at *
  generalize owed_eq : (l.borrowPositions key).borrowedShares = owed at *
  have view_tracker : (l.borrowView key).market.supplyVault.borrowSharesTracker = tracker :=
    tracker_eq
  have view_owed : (l.borrowView key).position.borrowedShares = owed := owed_eq
  constructor
  · intro law
    obtain ⟨s', left, success, left_ok, -, cleared⟩ := law debt le_rfl
    obtain ⟨shares, converted, repaid, same⟩ := MarketWith.repay_leaves _ _ _ success
    rw [view_tracker] at converted same
    rw [view_owed] at repaid
    have nonneg := s'.position.borrowedShares.bits_nonneg
    refine ⟨(SharesTracker.atomsToShares_le_iff _ _ _).mp ⟨shares, converted, by omega⟩, ?_⟩
    have dust := (SharesTracker.reported_zero_iff _ _ _ ((same left).mp left_ok)).mp (cleared rfl)
    rw [((SharesTracker.atomsToShares_ok _ _ _).mp converted).2]
    have left_eq : owed.bits - shares.bits = s'.position.borrowedShares.bits := by omega
    rw [left_eq]
    exact dust
  · intro ⟨covered, dust⟩ atoms within
    have priced : 0 ≤ tracker.atomsPerShare.bits := tracker.atomsPerShare.bits_nonneg
    obtain ⟨shares, converted, enough⟩ :=
      (SharesTracker.atomsToShares_le_iff tracker atoms owed).mpr
      (lt_of_le_of_lt (by omega) covered)
    obtain ⟨s', success⟩ := MarketWith.repay_of_enough atoms (l.borrowView key) shares inactive
      (by rw [view_tracker]; exact converted) (by rw [view_owed]; exact enough)
      (by rw [view_owed, view_tracker]; exact counted)
    obtain ⟨shares', converted', repaid, same⟩ := MarketWith.repay_leaves _ _ _ success
    rw [view_tracker] at converted' same
    rw [view_owed] at repaid
    obtain rfl := Except.ok.inj (converted.symm.trans converted')
    obtain ⟨nonzero, quotient⟩ := (SharesTracker.atomsToShares_ok _ _ _).mp converted
    obtain ⟨value, loss_nonneg⟩ := SharesTracker.atomsToShares_exact _ _ _ converted
    have loss_lt := tracker.conversionLoss_lt atoms nonzero
    have left_value : s'.position.borrowedShares.bits * tracker.atomsPerShare.bits =
        owed.bits * tracker.atomsPerShare.bits - atoms.toNat * 2 ^ 128 +
          tracker.conversionLoss atoms := by
      rw [repaid, add_mul, value]
      ring
    have burned_le : 0 ≤ shares.bits * tracker.atomsPerShare.bits :=
      mul_nonneg shares.bits_nonneg priced
    -- the debt reported is the exact one, up to less than `2^-64` atoms
    have exact_debt : owed.bits * tracker.atomsPerShare.bits < debt.toNat * 2 ^ 128 + 2 ^ 64 := by
      have below := Int.ediv_mul_le (debt.toNat * 2 ^ 128) nonzero
      rw [sub_mul] at dust
      omega
    obtain ⟨left, left_ok⟩ := tracker.sharesToAtoms_roundUp_succeeds s'.position.borrowedShares
      (by omega)
    have bounded : SharesTracker.roundedUp
        (s'.position.borrowedShares.bits * tracker.atomsPerShare.bits) ≤
          debt.toNat - atoms.toNat + 1 := by
      unfold SharesTracker.roundedUp
      omega
    have rounded := (SharesTracker.sharesToAtoms_roundUp_le _ _ _ left_ok).1
    refine ⟨s', left, success, (same left).mpr left_ok, by omega, ?_⟩
    intro whole
    apply (SharesTracker.reported_zero_iff _ _ _ left_ok).mpr
    have left_eq : s'.position.borrowedShares.bits = owed.bits - shares.bits := by omega
    rw [left_eq, ← quotient, whole]
    exact dust

end Ledger

def renewedLoan : List (Operation Unit Unit) :=
  accruedLoan ++ [.borrow () .repayAll, .borrow () (.borrow 600 .par .par)]

theorem Ledger.renewed_loan_repay_law :
    (((smallLedger .newAdaptive).run renewedLoan).borrowView ()).RepayLaw 600 :=
  (repay_law_iff _ ⟨_, _, renewedLoan, smallLedger_adaptive_opened, rfl⟩ () 600
    (by decide +kernel) (by decide +kernel)).mpr (by decide +kernel)

theorem Ledger.accrued_debt_not_repayable :
    ((smallLedger .newAdaptive).run accruedLoan).Reachable ∧
      (((smallLedger .newAdaptive).run accruedLoan).borrowPositions ()).sweptCollateralAtoms = 0 ∧
      ((smallLedger .newAdaptive).run accruedLoan).reportedDebt () = .ok 601 ∧
      (MarketWith.repay 601).Fails (((smallLedger .newAdaptive).run accruedLoan).borrowView ())
        LendingError.sharesOverflow.into ∧
      ¬ (((smallLedger .newAdaptive).run accruedLoan).borrowView ()).RepayLaw 601 := by
  have refused : (MarketWith.repay 601).Fails
      (((smallLedger .newAdaptive).run accruedLoan).borrowView ())
      LendingError.sharesOverflow.into := by decide +kernel
  refine ⟨⟨_, _, accruedLoan, smallLedger_adaptive_opened, rfl⟩, by decide +kernel,
    by decide +kernel, refused, ?_⟩
  intro law
  obtain ⟨s', -, success, -⟩ := law 601 le_rfl
  exact success.not_fails _ refused

end AutaraLending
