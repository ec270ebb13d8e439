import AutaraLending.Effect
import Mathlib.Algebra.BigOperators.Fin

/-! Shares and collateral are conserved: what the trackers and the vault of a market count is
what its positions hold, and the collateral of a swept position stays locked until the sweep
is settled. -/

namespace AutaraLending

open Support

theorem sum_update {κ α M : Type} [Fintype κ] [DecidableEq κ] [AddCommMonoid M] (f : α → M)
    (family : κ → α) (key : κ) (value : α) :
    ∑ k, f (Function.update family key value k) + f (family key) =
      ∑ k, f (family k) + f value := by
  have outside : ∀ k ∈ Finset.univ.erase key,
      f (Function.update family key value k) = f (family k) := by
    intro k member
    rw [Function.update_of_ne (Finset.ne_of_mem_erase member)]
  rw [← Finset.sum_erase_add _ _ (Finset.mem_univ key),
    ← Finset.sum_erase_add _ (fun k => f (family k)) (Finset.mem_univ key),
    Finset.sum_congr rfl outside, Function.update_self, add_right_comm]

namespace Ledger

variable {σ β : Type}

def borrowShares [Fintype β] (l : Ledger σ β) : Int :=
  ∑ k, (l.borrowPositions k).borrowedShares.bits

def supplyShares [Fintype σ] (l : Ledger σ β) : Int := ∑ k, (l.supplyPositions k).shares.bits

def collateralAtoms [Fintype β] (l : Ledger σ β) : Nat :=
  ∑ k, (l.borrowPositions k).collateralDepositedAtoms.toNat

section Shares

variable [Fintype σ] [Fintype β]

structure SharesConserved (l : Ledger σ β) : Prop where
  borrow : l.market.supplyVault.borrowSharesTracker.totalShares.bits = l.borrowShares
  supply : l.market.supplyVault.supplySharesTracker.totalShares.bits =
    l.supplyShares + l.market.supplyVault.pendingProtocolFeeShares.bits +
      l.market.supplyVault.pendingCuratorFeeShares.bits

theorem Opened.sharesConserved {data : Market.CreateMarket} {l : Ledger σ β}
    (opened : Opened data l) : l.SharesConserved := by
  obtain ⟨fresh, -⟩ := opened.fresh
  have none_owed : ∀ k, (l.borrowPositions k).borrowedShares.bits = 0 := by
    intro k
    obtain ⟨authority, market, position⟩ := opened.borrow k
    rw [position]
    rfl
  have none_held : ∀ k, (l.supplyPositions k).shares.bits = 0 := by
    intro k
    obtain ⟨authority, market, position⟩ := opened.supply k
    rw [position]
    rfl
  constructor
  · simp [borrowShares, none_owed, fresh.borrow, SharesTracker.new]
  · simp [supplyShares, none_held, fresh.supply, fresh.protocolFees, fresh.curatorFees,
      SharesTracker.new]

theorem SharesConserved.borrowed_le {l : Ledger σ β} (conserved : l.SharesConserved) (key : β) :
    (l.borrowPositions key).borrowedShares.bits ≤
      l.market.supplyVault.borrowSharesTracker.totalShares.bits := by
  rw [conserved.borrow]
  exact Finset.single_le_sum (f := fun k => (l.borrowPositions k).borrowedShares.bits)
    (fun k _ => (l.borrowPositions k).borrowedShares.bits_nonneg) (Finset.mem_univ key)

theorem SharesConserved.supplied_le {l : Ledger σ β} (conserved : l.SharesConserved) (key : σ) :
    (l.supplyPositions key).shares.bits ≤
      l.market.supplyVault.supplySharesTracker.totalShares.bits := by
  have own : (l.supplyPositions key).shares.bits ≤ l.supplyShares :=
    Finset.single_le_sum (f := fun k => (l.supplyPositions k).shares.bits)
      (fun k _ => (l.supplyPositions k).shares.bits_nonneg) (Finset.mem_univ key)
  have protocolFees := l.market.supplyVault.pendingProtocolFeeShares.bits_nonneg
  have curatorFees := l.market.supplyVault.pendingCuratorFeeShares.bits_nonneg
  rw [conserved.supply]
  omega

variable [DecidableEq σ] [DecidableEq β]

theorem SharesConserved.step {l l' : Ledger σ β} (operation : Operation σ β)
    (conserved : l.SharesConserved) (success : (execute operation).Succeeds l () l') :
    l'.SharesConserved := by
  have borrow := conserved.borrow
  have supply := conserved.supply
  cases operation with
  | supply key action =>
      obtain ⟨atoms, s, executed, rfl⟩ := (execute_supply_succeeds _ _ _ _ _).mp success
      have effect := action.execute_effect _ _ _ executed
      have moved := effect.shares
      have total := sum_update (fun p : SupplyPosition => p.shares.bits) l.supplyPositions key
        s.position
      constructor
      · change s.market.supplyVault.borrowSharesTracker.totalShares.bits = l.borrowShares
        rw [effect.market_eq]
        exact borrow
      · change s.market.supplyVault.supplySharesTracker.totalShares.bits =
          ∑ k, (Function.update l.supplyPositions key s.position k).shares.bits +
            s.market.supplyVault.pendingProtocolFeeShares.bits +
            s.market.supplyVault.pendingCuratorFeeShares.bits
        have protocolFees : s.market.supplyVault.pendingProtocolFeeShares =
            l.market.supplyVault.pendingProtocolFeeShares := by
          rw [effect.market_eq]
          rfl
        have curatorFees : s.market.supplyVault.pendingCuratorFeeShares =
            l.market.supplyVault.pendingCuratorFeeShares := by
          rw [effect.market_eq]
          rfl
        rw [protocolFees, curatorFees]
        simp only [supplyView, supplyShares] at moved supply
        omega
  | borrow key action =>
      obtain ⟨atoms, s, executed, rfl⟩ := (execute_borrow_succeeds _ _ _ _ _).mp success
      have effect := action.execute_effect _ _ _ executed
      have moved := effect.shares
      have total := sum_update (fun p : BorrowPosition => p.borrowedShares.bits) l.borrowPositions
        key s.position
      constructor
      · change s.market.supplyVault.borrowSharesTracker.totalShares.bits =
          ∑ k, (Function.update l.borrowPositions key s.position k).borrowedShares.bits
        simp only [borrowView, borrowShares] at moved borrow
        omega
      · change s.market.supplyVault.supplySharesTracker.totalShares.bits =
          l.supplyShares + s.market.supplyVault.pendingProtocolFeeShares.bits +
            s.market.supplyVault.pendingCuratorFeeShares.bits
        rw [effect.supplyShares, effect.market_eq]
        exact supply
  | market action =>
      obtain ⟨atoms, market, executed, rfl⟩ := (execute_market_succeeds _ _ _ _).mp success
      have effect := action.execute_effect _ _ _ executed
      have moved := effect.supplyShares
      constructor
      · change market.supplyVault.borrowSharesTracker.totalShares.bits = l.borrowShares
        rw [effect.borrowShares]
        exact borrow
      · change market.supplyVault.supplySharesTracker.totalShares.bits =
          l.supplyShares + market.supplyVault.pendingProtocolFeeShares.bits +
            market.supplyVault.pendingCuratorFeeShares.bits
        omega

theorem Reachable.sharesConserved {l : Ledger σ β} (reachable : l.Reachable) : l.SharesConserved :=
  reachable.induction (fun _ _ opened => opened.sharesConserved)
    (fun _ operation _ conserved success => conserved.step operation success)

/-- The trackers count exactly the shares of the positions and of the pending fees. -/
theorem shares_conserved (l : Ledger σ β) (reachable : l.Reachable) :
    l.market.supplyVault.borrowSharesTracker.totalShares.bits =
        ∑ k, (l.borrowPositions k).borrowedShares.bits ∧
      l.market.supplyVault.supplySharesTracker.totalShares.bits =
        ∑ k, (l.supplyPositions k).shares.bits +
          l.market.supplyVault.pendingProtocolFeeShares.bits +
          l.market.supplyVault.pendingCuratorFeeShares.bits :=
  ⟨reachable.sharesConserved.borrow, reachable.sharesConserved.supply⟩

end Shares

theorem shares_conserved_in_small_loan :
    ((smallLedger .newAdaptive).run
      smallLoan).market.supplyVault.borrowSharesTracker.totalShares.bits ≠ 0 ∧
      ((smallLedger .newAdaptive).run
          smallLoan).market.supplyVault.borrowSharesTracker.totalShares.bits =
        ∑ k, (((smallLedger .newAdaptive).run smallLoan).borrowPositions k).borrowedShares.bits :=
  ⟨by decide +kernel,
    (shares_conserved _ ⟨_, _, smallLoan, smallLedger_adaptive_opened, rfl⟩).1⟩

section Collateral

variable [Fintype β]

structure CollateralConserved (l : Ledger σ β) : Prop where
  total : l.market.collateralVault.totalCollateralAtoms.toNat = l.collateralAtoms
  locked : ∀ k, (l.borrowPositions k).Locked

theorem Opened.collateralConserved {data : Market.CreateMarket} {l : Ledger σ β}
    (opened : Opened data l) : l.CollateralConserved := by
  obtain ⟨fresh, -⟩ := opened.fresh
  have none_deposited : ∀ k, (l.borrowPositions k).collateralDepositedAtoms.toNat = 0 := by
    intro k
    obtain ⟨authority, market, position⟩ := opened.borrow k
    rw [position]
    rfl
  constructor
  · simp [collateralAtoms, none_deposited, fresh.collateral]
  · intro k
    obtain ⟨authority, market, position⟩ := opened.borrow k
    rw [position]
    exact BorrowPosition.locked_of_inactive _ rfl

theorem CollateralConserved.deposited_le {l : Ledger σ β} (conserved : l.CollateralConserved)
    (key : β) : (l.borrowPositions key).collateralDepositedAtoms.toNat ≤
      l.market.collateralVault.totalCollateralAtoms.toNat := by
  rw [conserved.total]
  exact Finset.single_le_sum (f := fun k => (l.borrowPositions k).collateralDepositedAtoms.toNat)
    (fun k _ => Nat.zero_le _) (Finset.mem_univ key)

variable [DecidableEq σ] [DecidableEq β]

theorem CollateralConserved.step {l l' : Ledger σ β} (operation : Operation σ β)
    (conserved : l.CollateralConserved) (success : (execute operation).Succeeds l () l') :
    l'.CollateralConserved := by
  have total := conserved.total
  cases operation with
  | supply key action =>
      obtain ⟨atoms, s, executed, rfl⟩ := (execute_supply_succeeds _ _ _ _ _).mp success
      have effect := action.execute_effect _ _ _ executed
      refine ⟨?_, conserved.locked⟩
      change s.market.collateralVault.totalCollateralAtoms.toNat = l.collateralAtoms
      rw [effect.market_eq]
      exact total
  | borrow key action =>
      obtain ⟨atoms, s, executed, rfl⟩ := (execute_borrow_succeeds _ _ _ _ _).mp success
      have effect := action.execute_effect _ _ _ executed
      have moved := effect.collateral (conserved.locked key)
      have sum := sum_update (fun p : BorrowPosition => p.collateralDepositedAtoms.toNat)
        l.borrowPositions key s.position
      constructor
      · change s.market.collateralVault.totalCollateralAtoms.toNat =
          ∑ k, (Function.update l.borrowPositions key s.position k).collateralDepositedAtoms.toNat
        simp only [borrowView, collateralAtoms] at moved total
        omega
      · intro k
        change (Function.update l.borrowPositions key s.position k).Locked
        by_cases same : k = key
        · rw [same, Function.update_self]
          exact effect.locked
        · rw [Function.update_of_ne same]
          exact conserved.locked k
  | market action =>
      obtain ⟨atoms, market, executed, rfl⟩ := (execute_market_succeeds _ _ _ _).mp success
      have effect := action.execute_effect _ _ _ executed
      refine ⟨?_, conserved.locked⟩
      change market.collateralVault.totalCollateralAtoms.toNat = l.collateralAtoms
      rw [effect.collateral]
      exact total

theorem Reachable.collateralConserved {l : Ledger σ β} (reachable : l.Reachable) :
    l.CollateralConserved :=
  reachable.induction (fun _ _ opened => opened.collateralConserved)
    (fun _ operation _ conserved success => conserved.step operation success)

end Collateral

end Ledger

theorem BorrowAction.execute_swept (action : BorrowAction) (s : MarketWith BorrowPosition)
    (swept : s.position.sweptCollateralAtoms ≠ 0)
    (other : ∀ collateralOracle supplyOracle maxRepayAtoms maxCollateralAtomsToReturn,
      action ≠ .settleCapitalSweep collateralOracle supplyOracle maxRepayAtoms
        maxCollateralAtomsToReturn) :
    action.execute s = (.error LendingError.capitalSweepPending.into, s) := by
  have refused : MarketWith.ensureCapitalSweepInactive s =
      (.error LendingError.capitalSweepPending.into, s) := by
    simp [MarketWith.ensureCapitalSweepInactive, BorrowPosition.ensureCapitalSweepInactive,
      BorrowPosition.capitalSweepPending, swept, bind, Method.self, Method.lift]
  cases action with
  | depositCollateral amount =>
      simp only [execute, MarketWith.depositCollateral, bind, refused]
  | withdrawCollateral amount collateralOracle supplyOracle =>
      simp only [execute, MarketWith.withdrawCollateral, bind, refused]
  | borrow amount supplyOracle collateralOracle =>
      simp only [execute, MarketWith.borrow, bind, refused]
  | repay amount => simp only [execute, MarketWith.repay, bind, refused]
  | repayAll => simp only [execute, MarketWith.repayAll, bind, refused]
  | liquidate collateralOracle supplyOracle maxRepayAtoms =>
      simp only [execute, MarketWith.liquidate, bind, refused]
  | beginCapitalSweep collateralOracle supplyOracle =>
      simp only [execute, MarketWith.beginCapitalSweep, bind, refused]
  | settleCapitalSweep collateralOracle supplyOracle maxRepayAtoms maxCollateralAtomsToReturn =>
      exact absurd rfl (other _ _ _ _)
  | socializeLoss collateralOracle supplyOracle =>
      simp only [execute, MarketWith.socializeLoss, bind, refused]

theorem MarketWith.beginCapitalSweep_positive (collateralOracle supplyOracle : OracleRate)
    (s s' : MarketWith BorrowPosition) (health : BorrowPositionHealth)
    (sound : s.market.config.ltvConfig.Sound)
    (success : (beginCapitalSweep collateralOracle supplyOracle).Succeeds s health s') :
    0 < s.position.collateralDepositedAtoms.toNat := by
  obtain ⟨-, health_ok, unhealthy, -⟩ := (beginCapitalSweep_succeeds _ _ _ _ _).mp success
  by_contra empty
  have none : s.position.collateralDepositedAtoms = 0 := by
    rw [← UInt64.toNat_inj]
    exact Nat.eq_zero_of_not_pos empty
  rw [Market.borrowPositionHealth, none] at health_ok
  have zero := Market.health_of_no_collateral _ _ _ _ _ health_ok
  have ordered := sound.maxLtv_lt
  have nonneg := sound.maxLtv_nonneg
  rw [zero, Fixed.lt_def, Fixed.zero_bits] at unhealthy
  omega

namespace Ledger

variable {σ β : Type} [DecidableEq σ] [DecidableEq β]

/-- The vault counts the collateral of all positions; a swept position has none there, and
until it is settled nothing else happens to it; a sweep always takes something. -/
theorem collateral_conserved_and_swept_locked [Fintype β] (l : Ledger σ β)
    (reachable : l.Reachable) :
    l.market.collateralVault.totalCollateralAtoms.toNat =
        ∑ k, (l.borrowPositions k).collateralDepositedAtoms.toNat ∧
      (∀ key, 0 < (l.borrowPositions key).sweptCollateralAtoms.toNat →
        (l.borrowPositions key).collateralDepositedAtoms.toNat = 0) ∧
      (∀ key action, 0 < (l.borrowPositions key).sweptCollateralAtoms.toNat →
        (∀ collateralOracle supplyOracle maxRepayAtoms maxCollateralAtomsToReturn,
          action ≠ .settleCapitalSweep collateralOracle supplyOracle maxRepayAtoms
            maxCollateralAtomsToReturn) →
        execute (.borrow key action) l = (.error LendingError.capitalSweepPending.into, l)) ∧
      (∀ key collateralOracle supplyOracle l',
        (execute (.borrow key (.beginCapitalSweep collateralOracle supplyOracle))).Succeeds l ()
            l' →
          0 < (l'.borrowPositions key).sweptCollateralAtoms.toNat ∧
            l'.market.collateralVault.totalCollateralAtoms.toNat +
                (l'.borrowPositions key).sweptCollateralAtoms.toNat =
              l.market.collateralVault.totalCollateralAtoms.toNat) := by
  have conserved := reachable.collateralConserved
  have swept_of_pos : ∀ key, 0 < (l.borrowPositions key).sweptCollateralAtoms.toNat →
      (l.borrowPositions key).sweptCollateralAtoms ≠ 0 := by
    intro key positive none
    rw [none] at positive
    exact absurd positive (by decide)
  refine ⟨conserved.total, ?_, ?_, ?_⟩
  · intro key swept
    rw [conserved.locked key (swept_of_pos key swept)]
    rfl
  · intro key action swept other
    exact execute_borrow_fails key action l _
      (action.execute_swept (l.borrowView key) (swept_of_pos key swept) other)
  · intro key collateralOracle supplyOracle l' success
    obtain ⟨atoms, s, executed, rfl⟩ := (execute_borrow_succeeds _ _ _ _ _).mp success
    simp only [BorrowAction.execute, Method.succeeds_bind, Method.succeeds_pure] at executed
    obtain ⟨health, _, begun, -, rfl⟩ := executed
    have positive := MarketWith.beginCapitalSweep_positive _ _ _ _ _ reachable.configSound.ltv
      begun
    obtain ⟨-, -, -, -, total, difference, rfl⟩ :=
      (MarketWith.beginCapitalSweep_succeeds _ _ _ _ _).mp begun
    simp only [receive, storeBorrow, Function.update_self]
    refine ⟨positive, ?_⟩
    change total.toNat + _ = _
    rw [add_comm]
    exact difference

def sweptLoan : List (Operation Unit Unit) :=
  smallLoan ++ [.borrow () (.beginCapitalSweep loweredRate .par)]

theorem swept_loan_locked :
    (((smallLedger .newAdaptive).run sweptLoan).borrowPositions ()).sweptCollateralAtoms = 1000 ∧
      execute (.borrow () .repayAll) ((smallLedger .newAdaptive).run sweptLoan) =
        (.error LendingError.capitalSweepPending.into, (smallLedger .newAdaptive).run sweptLoan) :=
  have conserved := collateral_conserved_and_swept_locked _
    ⟨_, _, sweptLoan, smallLedger_adaptive_opened, rfl⟩
  ⟨by decide +kernel, conserved.2.2.1 () .repayAll (by decide +kernel) (fun _ _ _ _ => nofun)⟩

end Ledger

end AutaraLending
