import AutaraLending.Ledger

/-! What the utilisation and LTV checks accept, in exact rational numbers. Each compares a quotient
that is cut to 48 binary places with its limit, so it accepts up to one unit of that grid more than
the limit says, and the LTV check cuts the value of the debt besides. -/

namespace AutaraLending

open Support

namespace SupplyVault

/-- The totals are within `limit` of each other, up to one unit in the last place of a rate. -/
def UtilisedUpTo (self : SupplyVault) (limit : IFixedPoint) : Prop :=
  ∃ supplied borrowed, self.totalSupply = .ok supplied ∧ self.totalBorrow = .ok borrowed ∧
    ((borrowed.toNat : ℚ) < (limit.toRat + 1 / 2 ^ 48) * supplied.toNat ∨
      (supplied.toNat = 0 ∧ borrowed.toNat = 0 ∧ 0 ≤ limit.toRat))

theorem lt_next_iff (limit : IFixedPoint) (supplied borrowed : U64) :
    (borrowed.toNat : ℚ) < (limit.toRat + 1 / 2 ^ 48) * supplied.toNat ↔
      (borrowed.toNat : Int) * 2 ^ 48 < (limit.bits + 1) * supplied.toNat := by
  have scaled : (limit.toRat + 1 / 2 ^ 48) * supplied.toNat =
      ((limit.bits + 1) * supplied.toNat : ℚ) / 2 ^ 48 := by
    simp only [Fixed.toRat, i80f48_frac]
    ring
  rw [scaled, lt_div_iff₀ (by positivity)]
  exact_mod_cast Iff.rfl

theorem utilisation_accepted_iff (self : SupplyVault) (limit : IFixedPoint) :
    (∃ rate, self.utilisationRate = .ok rate ∧ rate.bits ≤ limit.bits) ↔
      self.UtilisedUpTo limit := by
  constructor
  · intro ⟨rate, rate_ok, within⟩
    obtain ⟨supplied, borrowed, supply, borrow, ratio⟩ := (utilisationRate_ok _ _).mp rate_ok
    refine ⟨supplied, borrowed, supply, borrow, ?_⟩
    rw [lt_next_iff, Fixed.toRat_nonneg]
    rcases (computeUtilisationRate_ok _ _ _).mp ratio with ⟨nonempty, rate_eq⟩ | ⟨empty, none, zero⟩
    · rw [rate_eq] at within
      exact Or.inl ((Int.ediv_lt_iff_lt_mul (by omega)).mp (by omega))
    · exact Or.inr ⟨empty, none, by omega⟩
  · intro ⟨supplied, borrowed, supply, borrow, accepted⟩
    rw [lt_next_iff, Fixed.toRat_nonneg] at accepted
    rcases accepted with below | ⟨empty, none, nonneg⟩
    · have nonempty : supplied.toNat ≠ 0 := by
        intro empty
        rw [empty] at below
        omega
      have cut := (Int.ediv_lt_iff_lt_mul (by omega)).mpr below
      have range := ratio_le borrowed supplied
      obtain ⟨rate, rate_eq⟩ := IFixedPoint.exists_bits
        (borrowed.toNat * 2 ^ 48 / supplied.toNat) (by omega) (by omega)
      exact ⟨rate, (utilisationRate_ok _ _).mpr ⟨supplied, borrowed, supply, borrow,
        (computeUtilisationRate_ok _ _ _).mpr (Or.inl ⟨nonempty, rate_eq⟩)⟩, by omega⟩
    · exact ⟨Fixed.zero, (utilisationRate_ok _ _).mpr ⟨supplied, borrowed, supply, borrow,
        (computeUtilisationRate_ok _ _ _).mpr (Or.inr ⟨empty, none, Fixed.zero_bits⟩)⟩,
        by rw [Fixed.zero_bits]; exact nonneg⟩

theorem UtilisedUpTo.covers {self : SupplyVault} (utilised : self.UtilisedUpTo Fixed.one)
    {supplied borrowed : U64} (supply : self.totalSupply = .ok supplied)
    (borrow : self.totalBorrow = .ok borrowed) (small : supplied.toNat ≤ 2 ^ 48) :
    borrowed.toNat ≤ supplied.toNat := by
  obtain ⟨supplied', borrowed', supply', borrow', accepted⟩ := utilised
  obtain rfl := Except.ok.inj (supply.symm.trans supply')
  obtain rfl := Except.ok.inj (borrow.symm.trans borrow')
  rw [lt_next_iff, Fixed.one_bits, i80f48_frac] at accepted
  rcases accepted with below | ⟨empty, none, -⟩
  · omega
  · omega

/-- What the check of a withdrawal leaves: at most `2^-48` of the supply is borrowed beyond it, and
nothing as long as the supply is at most `2^48` atoms. -/
def ReservesHold (self : SupplyVault) : Prop :=
  self.UtilisedUpTo Fixed.one ∧
    ∀ supplied borrowed, self.totalSupply = .ok supplied → self.totalBorrow = .ok borrowed →
      supplied.toNat ≤ 2 ^ 48 → borrowed.toNat ≤ supplied.toNat

end SupplyVault

theorem Market.Covered.reservesHold {m : Market} (covered : m.Covered) :
    m.supplyVault.ReservesHold := by
  have utilised : m.supplyVault.UtilisedUpTo Fixed.one := by
    rw [← SupplyVault.utilisation_accepted_iff, Fixed.one_bits, i80f48_frac]
    exact covered
  exact ⟨utilised, fun _ _ supply borrow small => utilised.covers supply borrow small⟩

namespace MarketWith

/-- The utilisation check accepts exactly the totals below the next rate after its limit, so this is
what borrowing, withdrawing and redeeming fees leave behind. -/
theorem utilisation_checks_accept :
    (∀ (v : SupplyVault) (limit : IFixedPoint),
      (∃ rate, v.utilisationRate = .ok rate ∧ ¬ limit < rate) ↔ v.UtilisedUpTo limit) ∧
    (∀ (atoms : U64) (supplyOracle collateralOracle : OracleRate)
      (s s' : MarketWith BorrowPosition),
        (borrow atoms supplyOracle collateralOracle).Succeeds s () s' →
        s'.market.supplyVault.UtilisedUpTo s.market.config.maxUtilisationRate) ∧
    (∀ (atoms : U64) (s s' : MarketWith SupplyPosition), (withdraw atoms).Succeeds s () s' →
      s'.market.supplyVault.ReservesHold) ∧
    (∀ (atoms : U64) (s s' : MarketWith SupplyPosition), withdrawAll.Succeeds s atoms s' →
      s'.market.supplyVault.ReservesHold) ∧
    (∀ (atoms : U64) (m m' : Market), Market.redeemProtocolFees.Succeeds m atoms m' →
      m'.supplyVault.ReservesHold) ∧
    ∀ (atoms : U64) (m m' : Market), Market.redeemCuratorFess.Succeeds m atoms m' →
      m'.supplyVault.ReservesHold := by
  refine ⟨?_, ?_, ?_, ?_, ?_, ?_⟩
  · intro v limit
    simp only [Fixed.lt_def, not_lt]
    exact v.utilisation_accepted_iff limit
  · intro atoms supplyOracle collateralOracle s s' success
    obtain ⟨-, _, _, _, rate, -, market_eq, -, -, -, rate_ok, within⟩ :=
      borrow_succeeds _ _ _ _ _ _ success
    have kept : s'.market.config = s.market.config := by
      rw [market_eq, Market.withBorrowTracker]
    rw [kept] at within
    exact (s'.market.supplyVault.utilisation_accepted_iff _).mp ⟨rate, rate_ok, within⟩
  · intro atoms s s' success
    obtain ⟨_, _, -, -, covered, -⟩ := withdraw_succeeds _ _ _ _ success
    exact covered.reservesHold
  · intro atoms s s' success
    obtain ⟨_, -, -, covered, -⟩ := withdrawAll_succeeds _ _ _ success
    exact covered.reservesHold
  · intro atoms m m' success
    obtain ⟨_, -, -, covered⟩ := Market.redeemProtocolFees_succeeds _ _ _ success
    exact covered.reservesHold
  · intro atoms m m' success
    obtain ⟨_, -, -, covered⟩ := Market.redeemCuratorFess_succeeds _ _ _ success
    exact covered.reservesHold

end MarketWith

def smallSupply : List (Operation Unit Unit) :=
  [.supply () (.lend 100), .borrow () (.depositCollateral 1000)]

def largeLoan : List (Operation Unit Unit) :=
  [.supply () (.lend 562949953421312), .borrow () (.depositCollateral 1125899906842624),
    .borrow () (.borrow 281474976710658 .par .par)]

namespace MarketWith

theorem small_supply_utilised :
    ∃ s', (borrow 90 .par .par).Succeeds
        (((smallLedger .newAdaptive).run smallSupply).borrowView ()) () s' ∧
      s'.market.supplyVault.UtilisedUpTo
        ((smallLedger .newAdaptive).run smallSupply).market.config.maxUtilisationRate := by
  have success : (borrow 90 .par .par).Succeeds
      (((smallLedger .newAdaptive).run smallSupply).borrowView ()) ()
      (borrow 90 .par .par (((smallLedger .newAdaptive).run smallSupply).borrowView ())).2 :=
    Prod.ext (by decide +kernel) rfl
  exact ⟨_, success, utilisation_checks_accept.2.1 _ _ _ _ _ success⟩

theorem utilisation_checks_not_exact :
    (∃ s', (borrow 90 .par .par).Succeeds
        (((smallLedger .newAdaptive).run smallSupply).borrowView ()) () s' ∧
      s'.market.supplyVault.totalSupply = .ok 100 ∧ s'.market.supplyVault.totalBorrow = .ok 90 ∧
      ¬ (90 : ℚ) ≤ (((smallLedger .newAdaptive).run
        smallSupply).market.config.maxUtilisationRate).toRat * 100) ∧
    ∃ s', (withdraw 281474976710655).Succeeds
        (((smallLedger .newAdaptive).run largeLoan).supplyView ()) () s' ∧
      s'.market.supplyVault.totalSupply = .ok 281474976710657 ∧
      s'.market.supplyVault.totalBorrow = .ok 281474976710658 := by
  constructor
  · refine ⟨_, Prod.ext (by decide +kernel) rfl, by decide +kernel, by decide +kernel, ?_⟩
    have limit : (((smallLedger .newAdaptive).run
        smallSupply).market.config.maxUtilisationRate).bits = 253327479039590 := by decide +kernel
    rw [Fixed.toRat, limit, i80f48_frac]
    norm_num
  · exact ⟨_, Prod.ext (by decide +kernel) rfl, by decide +kernel, by decide +kernel⟩

end MarketWith

theorem IFixedPoint.lt_next_mul (a b quotient : IFixedPoint) (nonneg : 0 ≤ a.bits)
    (positive : 0 ≤ b.bits) (divided : a.safeDiv b = .ok quotient) :
    a.toRat < (quotient.toRat + 1 / 2 ^ 48) * b.toRat := by
  obtain ⟨nonzero, quotient_eq⟩ := (Fixed.safeDiv_ok _ _ _).mp divided
  rw [i80f48_frac, Int.tdiv_eq_ediv_of_nonneg (by positivity)] at quotient_eq
  have next := Int.lt_ediv_add_one_mul_self (a.bits * 2 ^ 48) (by omega : 0 < b.bits)
  rw [quotient_eq] at next
  have next_rat : (a.bits * 2 ^ 48 : ℚ) < (quotient.bits + 1) * b.bits := by exact_mod_cast next
  simp only [Fixed.toRat, i80f48_frac]
  rw [← add_div, div_mul_div_comm, div_lt_div_iff₀ (by positivity) (by positivity)]
  calc
    (a.bits * (2 ^ 48 * 2 ^ 48) : ℚ) = a.bits * 2 ^ 48 * 2 ^ 48 := by ring
    _ < (quotient.bits + 1) * b.bits * 2 ^ 48 := by gcongr

theorem Market.health_ltv_nonneg {m : Market} {p : BorrowPosition} {collateralAtoms : U64}
    {collateralOracle supplyOracle : OracleRate} {health : BorrowPositionHealth}
    (health_ok : m.borrowPositionHealthWithCollateralAtoms p collateralAtoms collateralOracle
      supplyOracle = .ok health) : 0 ≤ health.ltv.bits := by
  obtain ⟨-, borrow_ok, collateral_ok, ltv_ok, -⟩ :=
    (borrowPositionHealthWithCollateralAtoms_ok _ _ _ _ _ _).mp health_ok
  have debt_nonneg := supplyOracle.borrowValue_nonneg borrow_ok
  have collateral_nonneg := collateralOracle.collateralValue_nonneg collateral_ok
  rcases ltv_ok with ⟨-, zero⟩ | ⟨-, divided⟩
  · rw [zero, Fixed.zero_bits]
  · rw [← ((Fixed.safeDiv_ok _ _ _).mp divided).2]
    exact Int.tdiv_nonneg (by positivity) collateral_nonneg

theorem Market.exact_ltv_lt (m : Market) (p : BorrowPosition)
    (collateralOracle supplyOracle : OracleRate) (health : BorrowPositionHealth)
    (limit : IFixedPoint)
    (health_ok : m.borrowPositionHealth p collateralOracle supplyOracle = .ok health)
    (within : health.ltv.bits ≤ limit.bits) :
    supplyOracle.exactBorrowValue health.borrowedAtoms.toNat m.supplyVault.decimals <
      (limit.toRat + 1 / 2 ^ 48) * collateralOracle.exactCollateralValue
        p.collateralDepositedAtoms.toNat m.collateralVault.decimals + 1 / 2 ^ 48 := by
  obtain ⟨-, borrow_ok, collateral_ok, ltv_ok, -⟩ :=
    (borrowPositionHealthWithCollateralAtoms_ok _ _ _ _ _ _).mp health_ok
  have debt_lt := (supplyOracle.borrowValue_bounds _ _ _ borrow_ok).2
  have collateral_le := (collateralOracle.collateralValue_bounds _ _ _ collateral_ok).1
  have within_rat : health.ltv.toRat ≤ limit.toRat := Fixed.toRat_le.mpr within
  have limit_nonneg : 0 ≤ limit.toRat :=
    le_trans (Fixed.toRat_nonneg.mpr (health_ltv_nonneg health_ok)) within_rat
  have value_nonneg := Fixed.toRat_nonneg.mpr
    (collateralOracle.collateralValue_nonneg collateral_ok)
  refine lt_of_lt_of_le debt_lt (add_le_add_left ?_ _)
  rcases ltv_ok with ⟨none, -⟩ | ⟨-, divided⟩
  · -- the value of the debt is cut to nothing, whatever the collateral is worth
    have worthless : health.borrowValue.toRat = 0 := by rw [Fixed.toRat, none]; simp
    have secured := collateralOracle.exactCollateralValue_nonneg
      (Nat.cast_nonneg (α := ℚ) p.collateralDepositedAtoms.toNat) m.collateralVault.decimals
    rw [worthless]
    positivity
  · calc
      health.borrowValue.toRat
          ≤ (health.ltv.toRat + 1 / 2 ^ 48) * health.collateralValue.toRat :=
        (IFixedPoint.lt_next_mul _ _ _ (supplyOracle.borrowValue_nonneg borrow_ok)
          (collateralOracle.collateralValue_nonneg collateral_ok) divided).le
      _ ≤ (limit.toRat + 1 / 2 ^ 48) * collateralOracle.exactCollateralValue
          p.collateralDepositedAtoms.toNat m.collateralVault.decimals := by
        gcongr

theorem MarketWith.withdrawCollateral_secured (atoms : U64)
    (collateralOracle supplyOracle : OracleRate) (s s' : MarketWith BorrowPosition)
    (success : (withdrawCollateral atoms collateralOracle supplyOracle).Succeeds s () s')
    (none : s'.position.collateralDepositedAtoms = 0) :
    s'.position.borrowedShares = Fixed.zero := by
  simp only [withdrawCollateral, Method.succeeds_bind, onMarket_succeeds, onPosition_succeeds,
    Market.withdrawCollateral_succeeds, BorrowPosition.withdrawCollateral_succeeds,
    ensureCapitalSweepInactive_succeeds, Method.succeeds_self, Method.succeeds_rejectIf,
    Method.succeeds_lift] at success
  obtain ⟨_, _, ⟨-, rfl⟩, _, _, ⟨_, ⟨collateral, -, rfl⟩, rfl⟩, _, _, ⟨rfl, rfl⟩, _, _,
    ⟨kept, rfl⟩, _, _, ⟨-, rfl⟩, _, _, ⟨_, ⟨_, -, rfl⟩, rfl⟩, -, rfl⟩ := success
  rw [not_and, Bool.not_eq_false] at kept
  exact Fixed.ext_bits (((Fixed.isZero_iff _).mp (kept none)).trans Fixed.zero_bits.symm)

/-- After borrowing or taking out collateral the exact value of the debt is within the maximal LTV
of the collateral, up to one unit in the last place of that LTV and one of the value. -/
theorem MarketWith.ltv_limit_within_grid (atoms : U64) (collateralOracle supplyOracle : OracleRate)
    (s s' : MarketWith BorrowPosition)
    (success : (borrow atoms supplyOracle collateralOracle).Succeeds s () s' ∨
      (withdrawCollateral atoms collateralOracle supplyOracle).Succeeds s () s') :
    (∃ debt, s'.market.supplyVault.borrowSharesToAtoms s'.position.borrowedShares = .ok debt ∧
      supplyOracle.exactBorrowValue debt.toNat s'.market.supplyVault.decimals <
        (s.market.config.ltvConfig.maxLtv.toRat + 1 / 2 ^ 48) *
            collateralOracle.exactCollateralValue s'.position.collateralDepositedAtoms.toNat
              s'.market.collateralVault.decimals + 1 / 2 ^ 48) ∧
    ((withdrawCollateral atoms collateralOracle supplyOracle).Succeeds s () s' →
      s'.position.collateralDepositedAtoms = 0 → s'.position.borrowedShares = Fixed.zero) := by
  refine ⟨?_, withdrawCollateral_secured atoms collateralOracle supplyOracle s s'⟩
  rcases success with borrowed | withdrawn
  · obtain ⟨-, _, _, health, _, -, market_eq, -, health_ok, within, -, -⟩ :=
      borrow_succeeds _ _ _ _ _ _ borrowed
    have kept : s'.market.config = s.market.config := by
      rw [market_eq, Market.withBorrowTracker]
    rw [kept] at within
    exact ⟨health.borrowedAtoms,
      ((Market.borrowPositionHealthWithCollateralAtoms_ok _ _ _ _ _ _).mp health_ok).1,
      Market.exact_ltv_lt _ _ _ _ _ _ health_ok within⟩
  · obtain ⟨-, collateral, total, health, -, -, rfl, health_ok, within⟩ :=
      withdrawCollateral_succeeds _ _ _ _ _ _ withdrawn
    exact ⟨health.borrowedAtoms,
      ((Market.borrowPositionHealthWithCollateralAtoms_ok _ _ _ _ _ _).mp health_ok).1,
      Market.exact_ltv_lt _ _ _ _ _ _ health_ok within⟩

def tightSupply : List (Operation Unit Unit) :=
  [.supply () (.lend 100), .borrow () (.depositCollateral 100)]

def attoMarket : Market.CreateMarket :=
  { smallMarket .newAdaptive with supplyMintDecimals := 18 }

def attoLedger : Ledger Unit Unit :=
  { smallLedger .newAdaptive with
    market := (Market.processCreateMarket attoMarket 0 Market.zeroed).2 }

theorem attoLedger_opened : Ledger.Opened attoMarket attoLedger :=
  ⟨⟨0, Prod.ext (by decide +kernel) rfl⟩, fun _ => ⟨_, _, rfl⟩, fun _ => ⟨_, _, rfl⟩, rfl⟩

theorem MarketWith.small_supply_within_ltv :
    ∃ s', (borrow 90 .par .par).Succeeds
        (((smallLedger .newAdaptive).run smallSupply).borrowView ()) () s' ∧
      ∃ debt, s'.market.supplyVault.borrowSharesToAtoms s'.position.borrowedShares = .ok debt ∧
        OracleRate.par.exactBorrowValue debt.toNat s'.market.supplyVault.decimals <
          (((smallLedger .newAdaptive).run smallSupply).market.config.ltvConfig.maxLtv.toRat +
              1 / 2 ^ 48) *
            OracleRate.par.exactCollateralValue s'.position.collateralDepositedAtoms.toNat
              s'.market.collateralVault.decimals + 1 / 2 ^ 48 := by
  have success : (borrow 90 .par .par).Succeeds
      (((smallLedger .newAdaptive).run smallSupply).borrowView ()) ()
      (borrow 90 .par .par (((smallLedger .newAdaptive).run smallSupply).borrowView ())).2 :=
    Prod.ext (by decide +kernel) rfl
  exact ⟨_, success, (ltv_limit_within_grid _ _ _ _ _ (Or.inl success)).1⟩

/-- At a price of one, 100 atoms of collateral bear a debt of 70, more than the maximal LTV on the
grid below 0.7; and 3000 atoms of a token with 18 decimals can be borrowed without collateral. -/
theorem MarketWith.ltv_limit_not_exact :
    (((smallLedger .newAdaptive).run tightSupply).Reachable ∧
      ∃ s', (borrow 70 .par .par).Succeeds
        (((smallLedger .newAdaptive).run tightSupply).borrowView ()) () s' ∧
      s'.market.supplyVault.borrowSharesToAtoms s'.position.borrowedShares = .ok 70 ∧
      s'.position.collateralDepositedAtoms = 100 ∧
      ¬ OracleRate.par.exactBorrowValue 70 s'.market.supplyVault.decimals ≤
        s'.market.config.ltvConfig.maxLtv.toRat *
          OracleRate.par.exactCollateralValue 100 s'.market.collateralVault.decimals) ∧
    (attoLedger.run [.supply () (.lend 4000)]).Reachable ∧
      ∃ s', (borrow 3000 .par .par).Succeeds
        ((attoLedger.run [.supply () (.lend 4000)]).borrowView ()) () s' ∧
      s'.market.supplyVault.borrowSharesToAtoms s'.position.borrowedShares = .ok 3000 ∧
      s'.position.collateralDepositedAtoms = 0 := by
  constructor
  · have accepted : (borrow 70 .par .par
        (((smallLedger .newAdaptive).run tightSupply).borrowView ())).1 = .ok () := by
      decide +kernel
    generalize after_eq : (borrow 70 .par .par
      (((smallLedger .newAdaptive).run tightSupply).borrowView ())).2 = after
    refine ⟨⟨_, _, tightSupply, smallLedger_adaptive_opened, rfl⟩, after,
      Prod.ext accepted after_eq, by rw [← after_eq]; decide +kernel,
      by rw [← after_eq]; decide +kernel, ?_⟩
    have parameters : after.market.config.ltvConfig.maxLtv.bits = 197032483697459 ∧
        after.market.supplyVault.decimals = 0 ∧ after.market.collateralVault.decimals = 0 := by
      rw [← after_eq]
      decide +kernel
    obtain ⟨limit, supplyDecimals, collateralDecimals⟩ := parameters
    have par_lower : OracleRate.par.lower = 2 ^ 48 := by decide
    have par_upper : OracleRate.par.upper = 2 ^ 48 := by decide
    rw [OracleRate.exactBorrowValue_eq, OracleRate.exactCollateralValue_eq, supplyDecimals,
      collateralDecimals, par_lower, par_upper, Fixed.toRat, limit, i80f48_frac]
    norm_num
  · exact ⟨⟨_, _, _, attoLedger_opened, rfl⟩, _, Prod.ext (by decide +kernel) rfl,
      by decide +kernel, by decide +kernel⟩

end AutaraLending
