import AutaraLending.Conservation
import AutaraLending.Valuation

/-! Who can leave a market, and with what. Once the loans are repaid, all who hold shares of the
supply can redeem them in any order, each for what they are worth; and who repays a loan takes all
of the collateral back. -/

namespace AutaraLending

open Support

namespace SharesTracker

def redeemable (self : SharesTracker) (shares : UFixedPoint) : Int :=
  shares.bits * self.atomsPerShare.bits / 2 ^ 128

theorem redeemable_nonneg (t : SharesTracker) (shares : UFixedPoint) : 0 ≤ t.redeemable shares :=
  Int.ediv_nonneg (mul_nonneg shares.bits_nonneg t.atomsPerShare.bits_nonneg) (by norm_num)

theorem redeem_of_outstanding (t : SharesTracker) (shares : UFixedPoint)
    (outstanding : shares.bits ≤ t.totalShares.bits) (fits : t.exactAtoms < 2 ^ 64 * 2 ^ 128) :
    ∃ atoms t', (withdrawShares shares .roundDown).Succeeds t atoms t' ∧
      (atoms.toNat : Int) = t.redeemable shares := by
  have less : shares.bits * t.atomsPerShare.bits ≤ t.exactAtoms :=
    mul_le_mul_of_nonneg_right outstanding t.atomsPerShare.bits_nonneg
  obtain ⟨atoms, atoms_eq⟩ :=
    U64.exists_toNat (t.redeemable shares) (t.redeemable_nonneg shares) (by
    unfold redeemable
    omega)
  obtain ⟨left, left_eq⟩ :=
    UFixedPoint.exists_bits (t.totalShares.bits - shares.bits) (by omega) (by
    have small := t.totalShares.bits_lt
    have nonneg := shares.bits_nonneg
    omega)
  refine ⟨atoms, { t with totalShares := left }, ?_, atoms_eq⟩
  rw [withdrawShares_succeeds, sharesToAtoms_roundDown_ok]
  refine ⟨atoms_eq.symm, ?_, rfl⟩
  dsimp only
  omega

end SharesTracker

theorem Market.covered_of_repaid (m : Market)
    (repaid : m.supplyVault.borrowSharesTracker.totalShares.bits = 0)
    (fits : m.supplyVault.supplySharesTracker.exactAtoms < 2 ^ 64 * 2 ^ 128) : m.Covered := by
  obtain ⟨supplied, supplied_eq⟩ :=
    U64.exists_toNat (m.supplyVault.supplySharesTracker.exactAtoms / 2 ^ 128)
      (Int.ediv_nonneg m.supplyVault.supplySharesTracker.exactAtoms_nonneg (by norm_num)) (by omega)
  have supply : m.supplyVault.totalSupply = .ok supplied :=
    (SharesTracker.sharesToAtoms_roundDown_ok _ _ _).mpr supplied_eq.symm
  have borrow : m.supplyVault.totalBorrow = .ok 0 := by
    refine (SharesTracker.sharesToAtoms_roundUp_ok _ _ _).mpr ?_
    rw [repaid]
    norm_num
  refine ⟨Fixed.zero, (SupplyVault.utilisationRate_ok _ _).mpr ⟨supplied, 0, supply, borrow, ?_⟩,
    ?_⟩
  · rw [SupplyVault.computeUtilisationRate_ok]
    by_cases none : supplied.toNat = 0
    · exact Or.inr ⟨none, rfl, Fixed.zero_bits⟩
    · refine Or.inl ⟨none, ?_⟩
      rw [Fixed.zero_bits]
      norm_num
  · rw [Fixed.zero_bits]
    norm_num

theorem MarketWith.withdrawAll_of (s : MarketWith SupplyPosition) {atoms : U64}
    {tracker : SharesTracker}
    (redeemed : (SharesTracker.withdrawShares s.position.shares .roundDown).Succeeds
      s.market.supplyVault.supplySharesTracker atoms tracker)
    (covered : (s.market.withSupplyTracker tracker).Covered) :
    withdrawAll.Succeeds s atoms
      ⟨s.market.withSupplyTracker tracker,
        { s.position with depositedAtoms := 0, shares := Fixed.zero }⟩ := by
  simp only [withdrawAll, SupplyVault.withdrawShares, Method.succeeds_bind, onMarket_succeeds,
    onPosition_succeeds, Market.supplyTracker_succeeds, Market.rejectOverdrawn_succeeds,
    Method.succeeds_self, Method.succeeds_pure, SupplyPosition.withdrawAll_succeeds]
  exact ⟨s, s, ⟨rfl, rfl⟩, atoms, _, ⟨_, ⟨tracker, redeemed, rfl⟩, rfl⟩, (), _,
    ⟨_, ⟨covered, rfl⟩, rfl⟩, (), _, ⟨_, rfl, rfl⟩, rfl, rfl⟩

theorem Market.redeemProtocolFees_of (m : Market) {atoms : U64} {tracker : SharesTracker}
    (redeemed : (SharesTracker.withdrawShares m.supplyVault.pendingProtocolFeeShares
      .roundDown).Succeeds m.supplyVault.supplySharesTracker atoms tracker)
    (covered : (m.withSupplyTracker tracker).Covered) :
    redeemProtocolFees.Succeeds m atoms
      { m with
        supplyVault :=
          { m.supplyVault with
            pendingProtocolFeeShares := Fixed.zero
            supplySharesTracker := tracker } } := by
  simp only [redeemProtocolFees, SupplyVault.redeemProtocolFees, SupplyVault.withdrawShares,
    Method.succeeds_bind, onSupplyVault_succeeds, Method.succeeds_self, Method.succeeds_assign,
    SupplyVault.onSupplyTracker_succeeds, rejectOverdrawn_succeeds, Method.succeeds_pure]
  exact ⟨atoms, _, ⟨_, ⟨_, _, ⟨rfl, rfl⟩, (), _, rfl, tracker, redeemed, rfl⟩, rfl⟩, (), _,
    ⟨covered, rfl⟩, rfl, rfl⟩

theorem Market.redeemCuratorFess_of (m : Market) {atoms : U64} {tracker : SharesTracker}
    (redeemed : (SharesTracker.withdrawShares m.supplyVault.pendingCuratorFeeShares
      .roundDown).Succeeds m.supplyVault.supplySharesTracker atoms tracker)
    (covered : (m.withSupplyTracker tracker).Covered) :
    redeemCuratorFess.Succeeds m atoms
      { m with
        supplyVault :=
          { m.supplyVault with
            pendingCuratorFeeShares := Fixed.zero
            supplySharesTracker := tracker } } := by
  simp only [redeemCuratorFess, SupplyVault.redeemCuratorFees, SupplyVault.withdrawShares,
    Method.succeeds_bind, onSupplyVault_succeeds, Method.succeeds_self, Method.succeeds_assign,
    SupplyVault.onSupplyTracker_succeeds, rejectOverdrawn_succeeds, Method.succeeds_pure]
  exact ⟨atoms, _, ⟨_, ⟨_, _, ⟨rfl, rfl⟩, (), _, rfl, tracker, redeemed, rfl⟩, rfl⟩, (), _,
    ⟨covered, rfl⟩, rfl, rfl⟩

/-- Who holds shares of the supply: a position, and those who redeem the fees. -/
inductive Claimant (σ : Type) where
  | supplier (key : σ)
  | protocol
  | curator
  deriving DecidableEq

namespace Claimant

variable {σ β : Type}

/-- The operation with which all of the shares are redeemed. -/
def exit : Claimant σ → Operation σ β
  | .supplier key => .supply key .withdrawAll
  | .protocol => .market .redeemProtocolFees
  | .curator => .market .redeemCuratorFess

def shares (l : Ledger σ β) : Claimant σ → UFixedPoint
  | .supplier key => (l.supplyPositions key).shares
  | .protocol => l.market.supplyVault.pendingProtocolFeeShares
  | .curator => l.market.supplyVault.pendingCuratorFeeShares

/-- What the shares are worth to the claimant. -/
def due (l : Ledger σ β) (claimant : Claimant σ) : Int :=
  l.market.supplyVault.supplySharesTracker.redeemable (claimant.shares l)

theorem shares_le [Fintype σ] [Fintype β] {l : Ledger σ β} (conserved : l.SharesConserved)
    (claimant : Claimant σ) :
    (claimant.shares l).bits ≤ l.market.supplyVault.supplySharesTracker.totalShares.bits := by
  have supplied : 0 ≤ l.supplyShares :=
    Finset.sum_nonneg fun key _ => (l.supplyPositions key).shares.bits_nonneg
  have protocolFees := l.market.supplyVault.pendingProtocolFeeShares.bits_nonneg
  have curatorFees := l.market.supplyVault.pendingCuratorFeeShares.bits_nonneg
  have supply := conserved.supply
  cases claimant with
  | supplier key => exact conserved.supplied_le key
  | protocol =>
      change l.market.supplyVault.pendingProtocolFeeShares.bits ≤ _
      omega
  | curator =>
      change l.market.supplyVault.pendingCuratorFeeShares.bits ≤ _
      omega

/-- What claimants are due together is worth no more than their shares are. -/
theorem due_sum_le (l : Ledger σ β) (claimants : List (Claimant σ)) :
    (claimants.map (due l)).sum * 2 ^ 128 ≤
      (claimants.map fun claimant => (claimant.shares l).bits).sum *
        l.market.supplyVault.supplySharesTracker.atomsPerShare.bits := by
  induction claimants with
  | nil => simp
  | cons claimant rest ih =>
      have own : claimant.due l * 2 ^ 128 ≤ (claimant.shares l).bits *
          l.market.supplyVault.supplySharesTracker.atomsPerShare.bits :=
        Int.ediv_mul_le _ (by norm_num)
      simp only [List.map_cons, List.sum_cons, add_mul]
      exact add_le_add own ih

end Claimant

namespace Ledger

variable {σ β : Type}

structure Unwinding [Fintype σ] [Fintype β] (l : Ledger σ β) : Prop where
  conserved : l.SharesConserved
  repaid : l.market.supplyVault.borrowSharesTracker.totalShares.bits = 0
  fits : l.market.supplyVault.supplySharesTracker.exactAtoms < 2 ^ 64 * 2 ^ 128

variable [DecidableEq σ]

structure Exited (claimant : Claimant σ) (l l' : Ledger σ β) : Prop where
  shares : ∀ other : Claimant σ,
    other.shares l' = if other = claimant then Fixed.zero else other.shares l
  borrow : l'.market.supplyVault.borrowSharesTracker = l.market.supplyVault.borrowSharesTracker
  price : l'.market.supplyVault.supplySharesTracker.atomsPerShare =
    l.market.supplyVault.supplySharesTracker.atomsPerShare
  total : l.market.supplyVault.supplySharesTracker.totalShares.bits =
    l'.market.supplyVault.supplySharesTracker.totalShares.bits + (claimant.shares l).bits
  cash : l'.cash = l.cash - claimant.due l

theorem Exited.due_of_ne {claimant other : Claimant σ} {l l' : Ledger σ β}
    (exited : Exited claimant l l') (differ : other ≠ claimant) : other.due l' = other.due l := by
  rw [Claimant.due, Claimant.due, SharesTracker.redeemable, SharesTracker.redeemable, exited.price,
    exited.shares, if_neg differ]

variable [DecidableEq β]

theorem exists_exit [Fintype σ] [Fintype β] {l : Ledger σ β} (unwinding : l.Unwinding)
    (claimant : Claimant σ) :
    ∃ l', (execute claimant.exit).Succeeds l () l' ∧ Exited claimant l l' := by
  obtain ⟨atoms, tracker, redeemed, due⟩ :=
    l.market.supplyVault.supplySharesTracker.redeem_of_outstanding (claimant.shares l)
      (Claimant.shares_le unwinding.conserved claimant) unwinding.fits
  obtain ⟨-, total, price⟩ := (SharesTracker.withdrawShares_succeeds _ _ _ _ _).mp redeemed
  have covered : (l.market.withSupplyTracker tracker).Covered := by
    refine Market.covered_of_repaid _ unwinding.repaid (lt_of_le_of_lt ?_ unwinding.fits)
    have burned := (claimant.shares l).bits_nonneg
    change tracker.totalShares.bits * tracker.atomsPerShare.bits ≤ _
    rw [price]
    exact mul_le_mul_of_nonneg_right (by omega)
      l.market.supplyVault.supplySharesTracker.atomsPerShare.bits_nonneg
  have paid : l.cash + -(atoms.toNat : Int) = l.cash - claimant.due l := by
    rw [Claimant.due, ← due]
    rfl
  cases claimant with
  | supplier key =>
      refine ⟨_, (execute_supply_succeeds _ _ _ _ _).mpr ⟨_, _,
        (Method.succeeds_bind_pure _ _ _ _ _).mpr ⟨atoms,
          (l.supplyView key).withdrawAll_of redeemed covered, rfl⟩, rfl⟩, ?_, rfl, price, total,
            paid⟩
      intro other
      cases other with
      | supplier other =>
          change (Function.update l.supplyPositions key _ other).shares = _
          rcases eq_or_ne other key with rfl | differ
          · rw [Function.update_self, if_pos rfl]
          · rw [Function.update_of_ne differ, if_neg (by simpa using differ)]
            rfl
      | protocol => rfl
      | curator => rfl
  | protocol =>
      refine ⟨_, (execute_market_succeeds _ _ _ _).mpr ⟨_, _,
        (Method.succeeds_bind_pure _ _ _ _ _).mpr ⟨atoms,
          l.market.redeemProtocolFees_of redeemed covered, rfl⟩, rfl⟩, ?_, rfl, price, total, paid⟩
      intro other
      cases other <;> rfl
  | curator =>
      refine ⟨_, (execute_market_succeeds _ _ _ _).mpr ⟨_, _,
        (Method.succeeds_bind_pure _ _ _ _ _).mpr ⟨atoms,
          l.market.redeemCuratorFess_of redeemed covered, rfl⟩, rfl⟩, ?_, rfl, price, total, paid⟩
      intro other
      cases other <;> rfl

theorem Exited.unwinding [Fintype σ] [Fintype β] {claimant : Claimant σ} {l l' : Ledger σ β}
    (unwinding : l.Unwinding) (success : (execute claimant.exit).Succeeds l () l')
    (exited : Exited claimant l l') : l'.Unwinding := by
  refine ⟨unwinding.conserved.step _ success, ?_, lt_of_le_of_lt ?_ unwinding.fits⟩
  · rw [exited.borrow]
    exact unwinding.repaid
  · have burned := (claimant.shares l).bits_nonneg
    have total := exited.total
    rw [SharesTracker.exactAtoms, exited.price]
    exact mul_le_mul_of_nonneg_right (by omega)
      l.market.supplyVault.supplySharesTracker.atomsPerShare.bits_nonneg

/-- What a run of exits does. -/
structure AllExited (claimants : List (Claimant σ)) (l l' : Ledger σ β) : Prop where
  shares : ∀ claimant : Claimant σ,
    claimant.shares l' = if claimant ∈ claimants then Fixed.zero else claimant.shares l
  price : l'.market.supplyVault.supplySharesTracker.atomsPerShare =
    l.market.supplyVault.supplySharesTracker.atomsPerShare
  total : l.market.supplyVault.supplySharesTracker.totalShares.bits =
    l'.market.supplyVault.supplySharesTracker.totalShares.bits +
      (claimants.map fun claimant => (claimant.shares l).bits).sum
  cash : l'.cash = l.cash - (claimants.map (Claimant.due l)).sum

theorem run_exits [Fintype σ] [Fintype β] {l : Ledger σ β} (unwinding : l.Unwinding)
    (claimants : List (Claimant σ)) (distinct : claimants.Nodup) :
    AllExited claimants l (l.run (claimants.map Claimant.exit)) := by
  induction claimants generalizing l with
  | nil => exact ⟨fun _ => rfl, rfl, (add_zero _).symm, (sub_zero _).symm⟩
  | cons claimant rest ih =>
      obtain ⟨fresh, distinct⟩ := List.nodup_cons.mp distinct
      obtain ⟨l₁, success, exited⟩ := exists_exit unwinding claimant
      have later := ih (exited.unwinding unwinding success) distinct
      have run_eq : l.run ((claimant :: rest).map Claimant.exit) =
          l₁.run (rest.map Claimant.exit) := by
        rw [run, List.map_cons, Machine.run_cons, Machine.commit_of_succeeds execute success]
        rfl
      have other : ∀ later ∈ rest, later ≠ claimant := by
        rintro later member rfl
        exact fresh member
      have same_shares : rest.map (fun other => (other.shares l₁).bits) =
          rest.map fun other => (other.shares l).bits := by
        refine List.map_congr_left fun later member => ?_
        rw [exited.shares, if_neg (other later member)]
      have same_due : rest.map (Claimant.due l₁) = rest.map (Claimant.due l) :=
        List.map_congr_left fun later member => exited.due_of_ne (other later member)
      rw [run_eq]
      refine ⟨fun whose => ?_, later.price.trans exited.price, ?_, ?_⟩
      · rw [later.shares, exited.shares]
        by_cases here : whose = claimant
        · subst here
          simp
        · simp [here]
      · rw [List.map_cons, List.sum_cons, exited.total, later.total, same_shares]
        ring
      · rw [List.map_cons, List.sum_cons, later.cash, exited.cash, same_due]
        ring

/-- When all loans are repaid, everyone who holds shares of the supply can redeem them, one after
the other in any order: all of the exits succeed, each claimant is paid what its shares were worth
at the start, nobody else's shares change, and together they are paid no more than the reported
supply. -/
theorem all_claimants_exit [Fintype σ] [Fintype β] {l : Ledger σ β} (reachable : l.Reachable)
    (repaid : l.market.supplyVault.borrowSharesTracker.totalShares.bits = 0) {supply : U64}
    (reported : l.market.supplyVault.totalSupply = .ok supply) (claimants : List (Claimant σ))
    (distinct : claimants.Nodup) :
    AllExited claimants l (l.run (claimants.map Claimant.exit)) ∧
      (claimants.map (Claimant.due l)).sum ≤ supply.toNat := by
  have supply_eq := SharesTracker.totalAtoms_roundDown_eq _ _ reported
  have small := supply.toNat_lt
  have exited := run_exits ⟨reachable.sharesConserved, repaid, by omega⟩ claimants distinct
  refine ⟨exited, ?_⟩
  have worth := Claimant.due_sum_le l claimants
  have total := exited.total
  have left := (l.run (claimants.map
    Claimant.exit)).market.supplyVault.supplySharesTracker.totalShares
    |>.bits_nonneg
  have within : (claimants.map fun claimant => (claimant.shares l).bits).sum *
      l.market.supplyVault.supplySharesTracker.atomsPerShare.bits ≤
        l.market.supplyVault.supplySharesTracker.exactAtoms :=
    mul_le_mul_of_nonneg_right (by omega)
      l.market.supplyVault.supplySharesTracker.atomsPerShare.bits_nonneg
  rw [supply_eq]
  exact (Int.le_ediv_iff_mul_le (by norm_num)).mpr (worth.trans within)

def feeLoan : List (Operation Unit Unit) :=
  smallLoan ++ [.market (.syncClock 31536000), .borrow () .repayAll]

theorem repaid_loan_claimants_exit :
    ∃ l : Ledger Unit Unit, l.Reachable ∧ l.market.supplyVault.pendingCuratorFeeShares.bits ≠ 0 ∧
      AllExited [.curator, .supplier (), .protocol] l
        (l.run ([.curator, .supplier (), .protocol].map Claimant.exit)) := by
  have reachable : ((smallLedger .newAdaptive).run feeLoan).Reachable :=
    ⟨_, _, feeLoan, smallLedger_adaptive_opened, rfl⟩
  obtain ⟨supply, reported⟩ : ∃ supply,
      ((smallLedger .newAdaptive).run feeLoan).market.supplyVault.totalSupply = .ok supply :=
    ⟨1018, by decide +kernel⟩
  refine ⟨_, reachable, ?_, (all_claimants_exit reachable ?_ reported _ (by decide)).1⟩
  · decide +kernel
  · decide +kernel

end Ledger

/-! Borrowers. -/

/-- What it takes to value any amount: decimals that the format can scale by, and an upper supply
price within its range. The product of a price and an amount can overflow all the same. -/
structure Market.Convertible (m : Market) (supplyOracle : OracleRate) : Prop where
  supplyDecimals : m.supplyVault.decimals.toNat ≤ 18
  collateralDecimals : m.collateralVault.decimals.toNat ≤ 18
  upper : supplyOracle.upper < 2 ^ 127

theorem Market.ltv_of_debtFree {m : Market} {p : BorrowPosition} {atoms : U64}
    {collateralOracle supplyOracle : OracleRate} {health : BorrowPositionHealth}
    (none : p.borrowedShares = Fixed.zero)
    (health_ok : m.borrowPositionHealthWithCollateralAtoms p atoms collateralOracle supplyOracle =
      .ok health) : health.ltv = Fixed.zero := by
  obtain ⟨debt_ok, borrow_ok, -, ⟨-, zero⟩ | ⟨some, -⟩, -⟩ :=
    (borrowPositionHealthWithCollateralAtoms_ok _ _ _ _ _ _).mp health_ok
  · exact zero
  · obtain ⟨-, debt⟩ := (SharesTracker.sharesToAtoms_roundUp_ok _ _ _).mp debt_ok
    rw [none, Fixed.zero_bits, zero_mul, Int.zero_ediv, Int.zero_emod, if_pos rfl,
      Int.zero_ediv] at debt
    obtain ⟨-, -, -, value⟩ := (supplyOracle.borrowValue_ok _ _ _).mp borrow_ok
    rw [debt, mul_zero, Int.zero_ediv] at value
    exact absurd value some

theorem Market.health_of_debtFree (m : Market) (p : BorrowPosition) (collateralAtoms : U64)
    (collateralOracle supplyOracle : OracleRate) (none : p.borrowedShares = Fixed.zero) :
    (∃ health, m.borrowPositionHealthWithCollateralAtoms p collateralAtoms collateralOracle
        supplyOracle = .ok health) ↔
      m.Convertible supplyOracle ∧ collateralOracle.lower * collateralAtoms.toNat < 2 ^ 127 := by
  have owed : m.supplyVault.borrowSharesToAtoms p.borrowedShares = .ok 0 := by
    refine (SharesTracker.sharesToAtoms_roundUp_ok _ _ _).mpr ?_
    rw [none, Fixed.zero_bits]
    norm_num
  constructor
  · rintro ⟨health, health_ok⟩
    obtain ⟨-, borrow_ok, collateral_ok, -⟩ :=
      (borrowPositionHealthWithCollateralAtoms_ok _ _ _ _ _ _).mp health_ok
    obtain ⟨upper, supplyDecimals, -⟩ := (supplyOracle.borrowValue_ok _ _ _).mp borrow_ok
    obtain ⟨collateralDecimals, small, -⟩ :=
      (collateralOracle.collateralValue_ok _ _ _).mp collateral_ok
    exact ⟨⟨supplyDecimals, collateralDecimals, upper⟩, small⟩
  · rintro ⟨convertible, small⟩
    have lower := collateralOracle.lower_pos
    have nonneg : 0 ≤ collateralOracle.lower * collateralAtoms.toNat := by positivity
    have quotient_le := Int.ediv_le_self (10 ^ m.collateralVault.decimals.toNat) nonneg
    have quotient_nonneg := Int.ediv_nonneg nonneg
      (by positivity : (0 : Int) ≤ 10 ^ m.collateralVault.decimals.toNat)
    obtain ⟨value, value_eq⟩ := IFixedPoint.exists_bits
      (collateralOracle.lower * collateralAtoms.toNat / 10 ^ m.collateralVault.decimals.toNat)
      (by omega) (by omega)
    let health : BorrowPositionHealth :=
      { ltv := Fixed.zero
        borrowedAtoms := 0
        collateralAtoms
        borrowValue := Fixed.zero
        collateralValue := value }
    refine ⟨health, (borrowPositionHealthWithCollateralAtoms_ok _ _ _ _ _ _).mpr
      ⟨owed, ?_, ?_, Or.inl ⟨Fixed.zero_bits, rfl⟩, rfl⟩⟩
    · refine (supplyOracle.borrowValue_ok _ _ _).mpr
        ⟨convertible.upper, convertible.supplyDecimals, ?_, ?_⟩
      · norm_num
      · rw [Fixed.zero_bits]
        norm_num
    · exact (collateralOracle.collateralValue_ok _ _ _).mpr
        ⟨convertible.collateralDecimals, small, value_eq⟩

namespace MarketWith

theorem withdrawCollateral_debtFree_iff (atoms : U64) (collateralOracle supplyOracle : OracleRate)
    (s : MarketWith BorrowPosition) (none : s.position.borrowedShares = Fixed.zero)
    (inactive : s.position.sweptCollateralAtoms = 0)
    (counted : s.position.collateralDepositedAtoms.toNat ≤
      s.market.collateralVault.totalCollateralAtoms.toNat)
    (sound : s.market.config.ltvConfig.Sound) :
    (∃ s', (withdrawCollateral atoms collateralOracle supplyOracle).Succeeds s () s') ↔
      atoms.toNat ≤ s.position.collateralDepositedAtoms.toNat ∧
        s.market.Convertible supplyOracle ∧
        collateralOracle.lower *
          (s.position.collateralDepositedAtoms.toNat - atoms.toNat : Nat) < 2 ^ 127 := by
  constructor
  · rintro ⟨s', success⟩
    obtain ⟨-, collateral, _, health, taken, -, rfl, health_ok, -⟩ :=
      withdrawCollateral_succeeds _ _ _ _ _ _ success
    have left_eq : s.position.collateralDepositedAtoms.toNat - atoms.toNat = collateral.toNat := by
      omega
    rw [left_eq]
    exact ⟨by omega, (s.market.health_of_debtFree _ _ _ _ none).mp ⟨health, health_ok⟩⟩
  · rintro ⟨within, valued⟩
    have deposited := s.position.collateralDepositedAtoms.toNat_lt
    have held := s.market.collateralVault.totalCollateralAtoms.toNat_lt
    obtain ⟨collateral, collateral_eq⟩ := U64.exists_toNat
      (s.position.collateralDepositedAtoms.toNat - atoms.toNat) (by omega) (by omega)
    obtain ⟨total, total_eq⟩ := U64.exists_toNat
      (s.market.collateralVault.totalCollateralAtoms.toNat - atoms.toNat) (by omega) (by omega)
    have total_left : atoms.toNat + total.toNat =
        s.market.collateralVault.totalCollateralAtoms.toNat := by omega
    have left_eq : s.position.collateralDepositedAtoms.toNat - atoms.toNat = collateral.toNat := by
      omega
    rw [left_eq] at valued
    let left : BorrowPosition := { s.position with collateralDepositedAtoms := collateral }
    obtain ⟨health, health_ok⟩ := (s.market.health_of_debtFree left collateral collateralOracle
      supplyOracle none).mpr valued
    have solvent : health.ltv.bits ≤ s.market.config.ltvConfig.maxLtv.bits := by
      rw [Market.ltv_of_debtFree none health_ok, Fixed.zero_bits]
      exact sound.maxLtv_nonneg
    refine ⟨⟨s.market.withCollateral total, left⟩, ?_⟩
    simp only [withdrawCollateral, Method.succeeds_bind, onMarket_succeeds, onPosition_succeeds,
      Market.withdrawCollateral_succeeds, BorrowPosition.withdrawCollateral_succeeds,
      ensureCapitalSweepInactive_succeeds, Method.succeeds_self, Method.succeeds_rejectIf,
      Method.succeeds_lift, Market.positionChecksOnLtvIncrease_ok]
    refine ⟨(), s, ⟨inactive, rfl⟩, (), ⟨s.market, left⟩, ⟨left, ⟨collateral, by omega, rfl⟩, rfl⟩,
      _, _, ⟨rfl, rfl⟩, (), _, ⟨?_, rfl⟩, health, _, ⟨health_ok, rfl⟩, (), _,
      ⟨_, ⟨total, total_left, rfl⟩, rfl⟩, solvent, rfl⟩
    rintro ⟨-, owing⟩
    rw [← Bool.not_eq_true, Fixed.isZero_iff] at owing
    exact owing (congrArg Fixed.bits none)

theorem repayAll_of (s : MarketWith BorrowPosition) {owed : U64}
    (inactive : s.position.sweptCollateralAtoms = 0)
    (owed_ok : s.market.supplyVault.borrowSharesToAtoms s.position.borrowedShares = .ok owed)
    (outstanding : s.position.borrowedShares.bits ≤
      s.market.supplyVault.borrowSharesTracker.totalShares.bits) :
    ∃ tracker, repayAll.Succeeds s owed
      ⟨s.market.withBorrowTracker tracker,
        { s.position with initialBorrowedAtoms := 0, borrowedShares := Fixed.zero }⟩ := by
  obtain ⟨left, left_eq⟩ := UFixedPoint.exists_bits
    (s.market.supplyVault.borrowSharesTracker.totalShares.bits - s.position.borrowedShares.bits)
    (by omega) (by
      have small := s.market.supplyVault.borrowSharesTracker.totalShares.bits_lt
      have nonneg := s.position.borrowedShares.bits_nonneg
      omega)
  let tracker : SharesTracker :=
    { s.market.supplyVault.borrowSharesTracker with totalShares := left }
  have total_left : s.market.supplyVault.borrowSharesTracker.totalShares.bits =
      tracker.totalShares.bits + s.position.borrowedShares.bits := by
    dsimp only [tracker]
    omega
  refine ⟨tracker, ?_⟩
  simp only [repayAll, SupplyVault.repayShares, Method.succeeds_bind, onMarket_succeeds,
    onPosition_succeeds, Market.borrowTracker_succeeds, ensureCapitalSweepInactive_succeeds,
    Method.succeeds_self, Method.succeeds_pure, SharesTracker.withdrawShares_succeeds,
    BorrowPosition.repayAll_succeeds]
  exact ⟨(), s, ⟨inactive, rfl⟩, s, s, ⟨rfl, rfl⟩, owed, _,
    ⟨_, ⟨tracker, ⟨owed_ok, total_left, rfl⟩, rfl⟩, rfl⟩, (), _, ⟨_, rfl, rfl⟩, rfl, rfl⟩

/-- All of the debt is repaid, then all of the collateral is taken out. -/
theorem leaves (s : MarketWith BorrowPosition) {owed : U64}
    (inactive : s.position.sweptCollateralAtoms = 0)
    (owed_ok : s.market.supplyVault.borrowSharesToAtoms s.position.borrowedShares = .ok owed)
    (outstanding : s.position.borrowedShares.bits ≤
      s.market.supplyVault.borrowSharesTracker.totalShares.bits)
    (counted : s.position.collateralDepositedAtoms.toNat ≤
      s.market.collateralVault.totalCollateralAtoms.toNat)
    (sound : s.market.config.ltvConfig.Sound) (collateralOracle supplyOracle : OracleRate)
    (convertible : s.market.Convertible supplyOracle) :
    ∃ tracker total,
      s.position.collateralDepositedAtoms.toNat + total.toNat =
        s.market.collateralVault.totalCollateralAtoms.toNat ∧
      repayAll.Succeeds s owed
        ⟨s.market.withBorrowTracker tracker,
          { s.position with initialBorrowedAtoms := 0, borrowedShares := Fixed.zero }⟩ ∧
      (withdrawCollateral s.position.collateralDepositedAtoms collateralOracle
        supplyOracle).Succeeds ⟨s.market.withBorrowTracker tracker,
          { s.position with initialBorrowedAtoms := 0, borrowedShares := Fixed.zero }⟩ ()
        ⟨(s.market.withBorrowTracker tracker).withCollateral total,
          { s.position with
            initialBorrowedAtoms := 0
            borrowedShares := Fixed.zero
            collateralDepositedAtoms := 0 }⟩ := by
  obtain ⟨tracker, repaid⟩ := s.repayAll_of inactive owed_ok outstanding
  have nothing : collateralOracle.lower * (s.position.collateralDepositedAtoms.toNat -
      s.position.collateralDepositedAtoms.toNat : Nat) < 2 ^ 127 := by
    rw [Nat.sub_self]
    norm_num
  obtain ⟨s₂, withdrawn⟩ := (withdrawCollateral_debtFree_iff s.position.collateralDepositedAtoms
    collateralOracle supplyOracle
    ⟨s.market.withBorrowTracker tracker,
      { s.position with initialBorrowedAtoms := 0, borrowedShares := Fixed.zero }⟩
    rfl inactive counted sound).mpr
    ⟨le_rfl, ⟨convertible.supplyDecimals, convertible.collateralDecimals, convertible.upper⟩,
      nothing⟩
  obtain ⟨-, collateral, total, -, taken, total_left, rfl, -⟩ :=
    withdrawCollateral_succeeds _ _ _ _ _ _ withdrawn
  obtain rfl : collateral = 0 := UInt64.toNat_inj.mp (Nat.add_eq_left.mp taken)
  exact ⟨tracker, total, total_left, repaid, withdrawn⟩

end MarketWith

namespace Ledger

variable {σ β : Type} [DecidableEq σ] [DecidableEq β]

theorem execute_borrow_again (l : Ledger σ β) (key : β) {action : BorrowAction}
    {s s' : MarketWith BorrowPosition} {moved : Int} (atoms : Int)
    (executed : action.execute.Succeeds s moved s') :
    (execute (.borrow key action)).Succeeds ((l.storeBorrow key s).receive atoms) ()
      ((l.storeBorrow key s').receive (atoms + moved)) := by
  have view : ((l.storeBorrow key s).receive atoms).borrowView key = s := by
    simp only [borrowView, storeBorrow, receive, Function.update_self]
  refine (execute_borrow_succeeds _ _ _ _ _).mpr ⟨moved, s', ?_, ?_⟩
  · rw [view]
    exact executed
  · simp only [storeBorrow, receive, Function.update_idem, add_assoc]

theorem Reachable.snoc {l : Ledger σ β} (reachable : l.Reachable)
    {operation : Operation σ β} {l' : Ledger σ β} (success : (execute operation).Succeeds l () l') :
    l'.Reachable := by
  obtain ⟨data, start, operations, opened, rfl⟩ := reachable
  refine ⟨data, start, operations ++ [operation], opened, ?_⟩
  rw [run, Machine.run_append, Machine.run_cons]
  exact (Machine.commit_of_succeeds execute success).symm

variable [Fintype β]

/-- In every ledger that operations lead to, a position without debt can take out any of its
collateral, exactly when the prices convert and the value of the rest is defined. -/
theorem debtFree_withdraws_iff {l : Ledger σ β} (reachable : l.Reachable) (key : β)
    (none : (l.borrowPositions key).borrowedShares = Fixed.zero)
    (inactive : (l.borrowPositions key).sweptCollateralAtoms = 0) (atoms : U64)
    (collateralOracle supplyOracle : OracleRate) :
    (∃ l', (execute (.borrow key
        (.withdrawCollateral atoms collateralOracle supplyOracle))).Succeeds l () l') ↔
      atoms.toNat ≤ (l.borrowPositions key).collateralDepositedAtoms.toNat ∧
        l.market.Convertible supplyOracle ∧
        collateralOracle.lower * ((l.borrowPositions key).collateralDepositedAtoms.toNat -
          atoms.toNat : Nat) < 2 ^ 127 := by
  refine Iff.trans ?_ (MarketWith.withdrawCollateral_debtFree_iff atoms collateralOracle
    supplyOracle (l.borrowView key) none inactive (reachable.collateralConserved.deposited_le key)
    reachable.configSound.ltv)
  constructor
  · rintro ⟨l', success⟩
    obtain ⟨_, s, executed, -⟩ := (execute_borrow_succeeds _ _ _ _ _).mp success
    obtain ⟨_, withdrawn, -⟩ := (Method.succeeds_bind_pure _ _ _ _ _).mp executed
    exact ⟨s, withdrawn⟩
  · rintro ⟨s, withdrawn⟩
    exact ⟨_, (execute_borrow_succeeds _ _ _ _ _).mpr
      ⟨0, s, (Method.succeeds_bind_pure _ _ _ _ _).mpr ⟨(), withdrawn, rfl⟩, rfl⟩⟩

theorem deposited_collateral_withdraws :
    ∃ l', (execute (.borrow () (.withdrawCollateral 400 loweredRate .par))).Succeeds
      ((smallLedger .newAdaptive).run [.borrow () (.depositCollateral 1000)]) () l' := by
  have reachable : ((smallLedger .newAdaptive).run
      [.borrow () (.depositCollateral 1000)]).Reachable :=
    ⟨_, _, _, smallLedger_adaptive_opened, rfl⟩
  refine (debtFree_withdraws_iff reachable () ?_ ?_ 400 loweredRate .par).mpr
    ⟨?_, ⟨?_, ?_, ?_⟩, ?_⟩
  all_goals decide +kernel

/-- A borrower that repays all that it owes can take out all of its collateral at once, whatever the
collateral is worth and whatever has happened to the market before. -/
theorem borrower_leaves [Fintype σ] {l : Ledger σ β} (reachable : l.Reachable) (key : β)
    (inactive : (l.borrowPositions key).sweptCollateralAtoms = 0) {owed : U64}
    (owed_ok : l.market.supplyVault.borrowSharesToAtoms (l.borrowPositions key).borrowedShares =
      .ok owed) (collateralOracle supplyOracle : OracleRate)
    (convertible : l.market.Convertible supplyOracle) :
    ∃ tracker total,
      (l.borrowPositions key).collateralDepositedAtoms.toNat + total.toNat =
        l.market.collateralVault.totalCollateralAtoms.toNat ∧
      l.run [.borrow key .repayAll, .borrow key (.withdrawCollateral
          (l.borrowPositions key).collateralDepositedAtoms collateralOracle supplyOracle)] =
        { l with
          market := (l.market.withBorrowTracker tracker).withCollateral total
          borrowPositions := Function.update l.borrowPositions key
            { l.borrowPositions key with
              initialBorrowedAtoms := 0
              borrowedShares := Fixed.zero
              collateralDepositedAtoms := 0 }
          cash := l.cash + owed.toNat } := by
  obtain ⟨tracker, total, total_left, repaid, withdrawn⟩ :=
    (l.borrowView key).leaves inactive owed_ok
    (reachable.sharesConserved.borrowed_le key) (reachable.collateralConserved.deposited_le key)
    reachable.configSound.ltv collateralOracle supplyOracle convertible
  have first := (execute_borrow_succeeds key .repayAll l _ ()).mpr
    ⟨_, _, (Method.succeeds_bind_pure _ _ _ _ _).mpr ⟨owed, repaid, rfl⟩, rfl⟩
  have executed : (BorrowAction.withdrawCollateral (l.borrowPositions key).collateralDepositedAtoms
      collateralOracle supplyOracle).execute.Succeeds _ 0 _ :=
    (Method.succeeds_bind_pure _ _ _ _ _).mpr ⟨(), withdrawn, rfl⟩
  have second := l.execute_borrow_again key owed.toNat executed
  refine ⟨tracker, total, total_left, ?_⟩
  rw [run, Machine.run_cons, Machine.commit_of_succeeds execute first, Machine.run_cons]
  refine (Machine.commit_of_succeeds execute second).trans ?_
  rw [add_zero]
  rfl

theorem small_loan_borrower_leaves :
    (((smallLedger .newAdaptive).run smallLoan).run [.borrow () .repayAll,
        .borrow () (.withdrawCollateral 1000 loweredRate .par)]).cash = 1000 := by
  have reachable : ((smallLedger .newAdaptive).run smallLoan).Reachable :=
    ⟨_, _, _, smallLedger_adaptive_opened, rfl⟩
  have owed_ok : ((smallLedger .newAdaptive).run smallLoan).market.supplyVault.borrowSharesToAtoms
      (((smallLedger .newAdaptive).run smallLoan).borrowPositions ()).borrowedShares = .ok 600 := by
    decide +kernel
  have deposited : (((smallLedger .newAdaptive).run smallLoan).borrowPositions
      ()).collateralDepositedAtoms = 1000 := by
    decide +kernel
  have cash : ((smallLedger .newAdaptive).run smallLoan).cash = 400 := by decide +kernel
  obtain ⟨tracker, total, -, left⟩ := borrower_leaves reachable () (by decide +kernel) owed_ok
    loweredRate .par ⟨by decide +kernel, by decide +kernel, by decide +kernel⟩
  rw [deposited] at left
  rw [left, cash]
  rfl

end Ledger

end AutaraLending
