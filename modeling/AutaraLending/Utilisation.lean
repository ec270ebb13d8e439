import AutaraLending.Solvency

/-! Total borrowed against total supplied. Borrowing checks a maximum below one, withdrawals
check a ratio that is exact only up to `2^48` atoms, and interest rounds the two totals apart:
at full utilisation nothing keeps the first below the second. -/

namespace AutaraLending

open Support

namespace Market

def wholeDebt (m : Market) : Int := SharesTracker.roundedUp m.debt

def wholeSupply (m : Market) : Int := m.credit / 2 ^ 128

def BorrowWithinSupply (m : Market) : Prop := m.wholeDebt ≤ m.wholeSupply

/-- A withdrawal worth `units` either leaves the debt covered, or is from a supply that the
utilisation check resolves. -/
def Liquid (m : Market) (units : Int) : Prop :=
  m.wholeSupply ≤ 2 ^ 48 ∨ m.wholeDebt * 2 ^ 128 + units ≤ m.credit

instance (m : Market) (units : Int) : Decidable (m.Liquid units) :=
  inferInstanceAs (Decidable (_ ∨ _))

theorem within_of_shrunk {m m' : Market} (within : m.BorrowWithinSupply)
    (debt : m'.debt ≤ m.debt) (credit : m.credit ≤ m'.credit) : m'.BorrowWithinSupply := by
  have less := SharesTracker.roundedUp_mono _ _ debt
  unfold BorrowWithinSupply wholeDebt wholeSupply at *
  omega

theorem within_of_covered (m : Market) (covered : m.Covered) (small : m.wholeSupply ≤ 2 ^ 48) :
    m.BorrowWithinSupply := by
  obtain ⟨utilisation, utilised, bounded⟩ := covered
  obtain ⟨supplied, borrowed, supply, borrow, empty, nonempty⟩ :=
    SupplyVault.utilisationRate_totals _ _ utilised
  have supply_eq : (supplied.toNat : Int) = m.wholeSupply :=
    SharesTracker.totalAtoms_roundDown_eq _ _ supply
  have ordered : borrowed.toNat ≤ supplied.toNat := by
    by_cases zero : supplied.toNat = 0
    · have none := (empty zero).1
      omega
    · have ratio := nonempty zero
      have scaled : (utilisation.bits + 1) * supplied.toNat ≤ (2 ^ 48 + 1) * supplied.toNat :=
        Int.mul_le_mul_of_nonneg_right (by omega) (by omega)
      omega
  unfold BorrowWithinSupply
  rcases (SharesTracker.totalAtoms_roundUp_le _ _ borrow).2 with exact_up | ⟨saturated, -⟩
  · have whole : (borrowed.toNat : Int) = m.wholeDebt := exact_up
    omega
  · omega

theorem within_of_withdrawal {m m' : Market} (units : Int) (liquid : m.Liquid units)
    (covered : m'.Covered) (debt : m'.debt = m.debt) (taken : m'.credit ≤ m.credit)
    (left : m.credit - units ≤ m'.credit) : m'.BorrowWithinSupply := by
  rcases liquid with small | enough
  · apply within_of_covered m' covered
    unfold wholeSupply at *
    omega
  · unfold BorrowWithinSupply wholeDebt wholeSupply at *
    rw [debt]
    omega

end Market

def SupplyVault.supplyValue (v : SupplyVault) (shares : UFixedPoint) : Int :=
  shares.bits * v.supplySharesTracker.atomsPerShare.bits

/-- A withdrawal stays within the supply that is not lent out, or the supply is small. -/
def SupplyAction.KeepsCover (s : MarketWith SupplyPosition) : SupplyAction → Prop
  | .lend _ => True
  | .withdraw atoms => s.market.Liquid (atoms.toNat * 2 ^ 128)
  | .withdrawAll => s.market.Liquid (s.market.supplyVault.supplyValue s.position.shares)

theorem SharesTracker.withdrawShares_value (shares : UFixedPoint) (rounding : RoundingMode)
    (t t' : SharesTracker) (atoms : U64)
    (success : (withdrawShares shares rounding).Succeeds t atoms t') :
    t'.exactAtoms ≤ t.exactAtoms ∧
      t.exactAtoms - shares.bits * t.atomsPerShare.bits ≤ t'.exactAtoms := by
  obtain ⟨-, burned, price⟩ := (withdrawShares_succeeds _ _ _ _ _).mp success
  have moved := exactAtoms_of_burned _ _ _ burned price
  have nonneg := mul_nonneg shares.bits_nonneg t.atomsPerShare.bits_nonneg
  exact ⟨by linarith, by linarith⟩

theorem SupplyAction.execute_within (action : SupplyAction) (s s' : MarketWith SupplyPosition)
    (atoms : Int) (within : s.market.BorrowWithinSupply) (kept : action.KeepsCover s)
    (success : action.execute.Succeeds s atoms s') : s'.market.BorrowWithinSupply := by
  have debt_eq := (action.execute_net _ _ _ success).2
  cases action with
  | lend amount =>
      obtain ⟨_, lent, -⟩ := (Method.succeeds_bind_pure _ _ _ _ _).mp success
      obtain ⟨shares, tracker, deposited, market_eq, -⟩ := MarketWith.lend_succeeds _ _ _ _ lent
      obtain ⟨-, minted, price⟩ := (SharesTracker.depositAtoms_succeeds _ _ _ _).mp deposited
      have moved := SharesTracker.exactAtoms_of_minted _ _ _ minted price
      have nonneg := mul_nonneg shares.bits_nonneg
        s.market.supplyVault.supplySharesTracker.atomsPerShare.bits_nonneg
      apply Market.within_of_shrunk within debt_eq.le
      rw [market_eq]
      change s.market.supplyVault.supplySharesTracker.exactAtoms ≤ tracker.exactAtoms
      linarith
  | withdraw amount =>
      obtain ⟨_, withdrawn, -⟩ := (Method.succeeds_bind_pure _ _ _ _ _).mp success
      obtain ⟨shares, tracker, removed, market_eq, covered, -⟩ :=
        MarketWith.withdraw_succeeds _ _ _ _ withdrawn
      obtain ⟨value, loss⟩ := SharesTracker.withdrawAtoms_exact _ _ _ _ removed
      obtain ⟨-, burned, price⟩ := (SharesTracker.withdrawAtoms_succeeds _ _ _ _).mp removed
      have moved := SharesTracker.exactAtoms_of_burned _ _ _ burned price
      have nonneg := mul_nonneg shares.bits_nonneg
        s.market.supplyVault.supplySharesTracker.atomsPerShare.bits_nonneg
      apply Market.within_of_withdrawal _ kept covered debt_eq
      · rw [market_eq]
        change tracker.exactAtoms ≤ s.market.supplyVault.supplySharesTracker.exactAtoms
        linarith
      · rw [market_eq]
        change s.market.supplyVault.supplySharesTracker.exactAtoms - _ ≤ tracker.exactAtoms
        linarith
  | withdrawAll =>
      obtain ⟨_, withdrawn, -⟩ := (Method.succeeds_bind_pure _ _ _ _ _).mp success
      obtain ⟨tracker, removed, market_eq, covered, -⟩ :=
        MarketWith.withdrawAll_succeeds _ _ _ withdrawn
      obtain ⟨less, left⟩ := SharesTracker.withdrawShares_value _ _ _ _ _ removed
      apply Market.within_of_withdrawal _ kept covered debt_eq
      · rw [market_eq]
        exact less
      · rw [market_eq]
        exact left

theorem BorrowEffect.debt_le {s s' : MarketWith BorrowPosition} (effect : BorrowEffect s s')
    (less : s'.position.borrowedShares.bits ≤ s.position.borrowedShares.bits) :
    s'.market.debt ≤ s.market.debt := by
  have moved := effect.shares
  unfold Market.debt SharesTracker.exactAtoms
  rw [effect.price]
  exact Int.mul_le_mul_of_nonneg_right (by omega)
    s.market.supplyVault.borrowSharesTracker.atomsPerShare.bits_nonneg

def BorrowAction.SocializesLoss : BorrowAction → Prop
  | .socializeLoss _ _ => True
  | _ => False

theorem BorrowAction.execute_within (action : BorrowAction) (s s' : MarketWith BorrowPosition)
    (atoms : Int) (within : s.market.BorrowWithinSupply) (sound : s.market.ConfigSound)
    (other : ¬ action.SocializesLoss) (success : action.execute.Succeeds s atoms s') :
    s'.market.BorrowWithinSupply := by
  have effect := action.execute_effect _ _ _ success
  cases action with
  | depositCollateral amount =>
      obtain ⟨_, deposited, -⟩ := (Method.succeeds_bind_pure _ _ _ _ _).mp success
      obtain ⟨-, _, _, -, -, rfl⟩ := (MarketWith.depositCollateral_succeeds _ _ _ _).mp deposited
      exact within
  | withdrawCollateral amount collateralOracle supplyOracle =>
      obtain ⟨_, withdrawn, -⟩ := (Method.succeeds_bind_pure _ _ _ _ _).mp success
      obtain ⟨-, _, _, -, -, -, rfl, -⟩ :=
        MarketWith.withdrawCollateral_succeeds _ _ _ _ _ _ withdrawn
      exact within
  | borrow amount supplyOracle collateralOracle =>
      obtain ⟨_, borrowed, -⟩ := (Method.succeeds_bind_pure _ _ _ _ _).mp success
      obtain ⟨-, _, tracker, _, utilisation, -, market_eq, -, -, -, utilised, bounded⟩ :=
        MarketWith.borrow_succeeds _ _ _ _ _ _ borrowed
      rw [market_eq] at bounded
      exact (SupplyVault.borrow_within_utilisation _ _ utilised
        (le_trans bounded sound.utilisation)).1
  | repay amount =>
      obtain ⟨_, repaid, -⟩ := (Method.succeeds_bind_pure _ _ _ _ _).mp success
      obtain ⟨-, shares, tracker, -, repayment, market_eq, -⟩ :=
        MarketWith.repay_succeeds _ _ _ _ repaid
      have debt := repayment.repaid
      have nonneg := shares.bits_nonneg
      apply Market.within_of_shrunk within (effect.debt_le (by omega))
      rw [market_eq]
      exact le_rfl
  | repayAll =>
      obtain ⟨_, repaid, -⟩ := (Method.succeeds_bind_pure _ _ _ _ _).mp success
      obtain ⟨-, tracker, -, repayment, market_eq, -⟩ := MarketWith.repayAll_succeeds _ _ _ repaid
      have debt := repayment.repaid
      have nonneg := s.position.borrowedShares.bits_nonneg
      apply Market.within_of_shrunk within (effect.debt_le (by omega))
      rw [market_eq]
      exact le_rfl
  | liquidate collateralOracle supplyOracle maxRepayAtoms =>
      obtain ⟨_, liquidated, -⟩ := (Method.succeeds_bind_pure _ _ _ _ _).mp success
      obtain ⟨outcome⟩ := (MarketWith.liquidate_succeeds _ _ _ _ _ _).mp liquidated
      have debt := outcome.debt.shares_eq
      have nonneg := outcome.shares.bits_nonneg
      apply Market.within_of_shrunk within
      · apply effect.debt_le
        rw [outcome.final]
        dsimp only
        omega
      · rw [outcome.final]
        exact le_rfl
  | beginCapitalSweep collateralOracle supplyOracle =>
      obtain ⟨_, swept, -⟩ := (Method.succeeds_bind_pure _ _ _ _ _).mp success
      obtain ⟨-, -, -, -, _, -, rfl⟩ := (MarketWith.beginCapitalSweep_succeeds _ _ _ _ _).mp swept
      exact within
  | settleCapitalSweep collateralOracle supplyOracle maxRepayAtoms maxCollateralAtomsToReturn =>
      obtain ⟨_, settled, -⟩ := (Method.succeeds_bind_pure _ _ _ _ _).mp success
      obtain ⟨outcome⟩ := (MarketWith.settleCapitalSweep_succeeds _ _ _ _ _ _ _).mp settled
      have debt := outcome.debt.shares_eq
      have nonneg := outcome.shares.bits_nonneg
      apply Market.within_of_shrunk within
      · apply effect.debt_le
        rw [outcome.final]
        dsimp only
        omega
      · rw [outcome.final]
        exact le_rfl
  | socializeLoss collateralOracle supplyOracle => exact absurd trivial other

/-- What the supply is at least worth after a sync, times `2^48`: the lending rate is credited on
whole atoms, less what the accrual loses. -/
def SupplyVault.grownSupply (v : SupplyVault) (fee : UFixedPoint) (unixTimestamp : Int64) : Int :=
  match v.accrualRates unixTimestamp with
  | .ok (_, lending) =>
      2 ^ 48 * v.supplySharesTracker.exactAtoms +
        lending.rate.bits * (v.supplySharesTracker.exactAtoms / 2 ^ 128) * 2 ^ 128 -
        v.supplySharesTracker.accrualDropped lending fee
  | .error _ => 0

def SupplyVault.owedAfter (v : SupplyVault) (unixTimestamp : Int64) : Int :=
  SharesTracker.roundedUp (v.grownDebt unixTimestamp / 2 ^ 48)

def SupplyVault.AccrualCovered (v : SupplyVault) (fee : UFixedPoint) (unixTimestamp : Int64) :
    Prop :=
  v.owedAfter unixTimestamp ≤ 0 ∨
    2 ^ 48 * (v.owedAfter unixTimestamp * 2 ^ 128) ≤ v.grownSupply fee unixTimestamp

instance (v : SupplyVault) (fee : UFixedPoint) (unixTimestamp : Int64) :
    Decidable (v.AccrualCovered fee unixTimestamp) :=
  inferInstanceAs (Decidable (_ ∨ _))

theorem SupplyVault.Sync.grownSupply_le {timestamp : Int64} {fee : UFixedPoint}
    {protocolBps : UInt16} {v v' : SupplyVault} (sync : Sync timestamp fee protocolBps v v')
    (whole : fee.bits ≤ 2 ^ 64) :
    v.grownSupply fee timestamp ≤ 2 ^ 48 * v'.supplySharesTracker.exactAtoms := by
  obtain ⟨supplied, _, supply, -, empty, -⟩ := utilisationRate_totals _ _ sync.utilisation_ok
  have supply_eq := SharesTracker.totalAtoms_roundDown_eq _ _ supply
  unfold grownSupply
  rw [sync.accrualRates_eq]
  dsimp only
  rcases SharesTracker.applyInterestRateWithFee_exact _ _ _ _ _ whole supplied supply
    sync.supply_ok with ⟨none, same⟩ | ⟨-, -, credited⟩
  · have idle := sync.lending_of_empty (empty none).2
    have dropped := SharesTracker.accrualDropped_of_idle v.supplySharesTracker fee idle
    rw [same, idle]
    omega
  · rw [← supply_eq]
    exact credited

theorem SupplyVault.Sync.within {timestamp : Int64} {fee : UFixedPoint} {protocolBps : UInt16}
    {v v' : SupplyVault} (sync : Sync timestamp fee protocolBps v v') (whole : fee.bits ≤ 2 ^ 64)
    (grain : v.borrowSharesTracker.atomsPerShare.bits % 2 ^ 16 = 0)
    (covered : v.AccrualCovered fee timestamp) :
    SharesTracker.roundedUp v'.borrowSharesTracker.exactAtoms ≤
        v'.supplySharesTracker.exactAtoms / 2 ^ 128 ∧
      v'.borrowSharesTracker.atomsPerShare.bits % 2 ^ 16 = 0 := by
  have aligned := (SharesTracker.applyInterestRate_exact _ _ _ _ grain sync.borrow_ok).1
  have debt_eq := SharesTracker.applyInterestRate_exactAtoms _ _ _ _ sync.borrow_ok
  have owed : SharesTracker.roundedUp v'.borrowSharesTracker.exactAtoms ≤
      v.owedAfter timestamp := by
    apply SharesTracker.roundedUp_mono
    apply Int.le_ediv_of_mul_le (by norm_num)
    unfold grownDebt
    rw [sync.accrualRates_eq]
    dsimp only
    linarith
  refine ⟨le_trans owed ?_, aligned⟩
  rcases covered with none | enough
  · exact le_trans none
      (Int.ediv_nonneg v'.supplySharesTracker.exactAtoms_nonneg (by norm_num))
  · have credited := sync.grownSupply_le whole
    apply Int.le_ediv_of_mul_le (by norm_num)
    linarith

/-- Fee redemptions are withdrawals, and a sync has to leave the debt covered. -/
def MarketAction.KeepsCover (m : Market) : MarketAction → Prop
  | .syncClock unixTimestamp =>
      m.supplyVault.lastUpdateUnixTimestamp < unixTimestamp →
        m.supplyVault.AccrualCovered m.config.lendingMarketFeeFixed unixTimestamp
  | .redeemProtocolFees =>
      m.Liquid (m.supplyVault.supplyValue m.supplyVault.pendingProtocolFeeShares)
  | .redeemCuratorFess =>
      m.Liquid (m.supplyVault.supplyValue m.supplyVault.pendingCuratorFeeShares)
  | _ => True

/-- What the theorems below carry from state to state. -/
structure Market.Utilised (m : Market) : Prop where
  grain : m.supplyVault.borrowSharesTracker.atomsPerShare.bits % 2 ^ 16 = 0
  sound : m.ConfigSound
  within : m.BorrowWithinSupply

theorem MarketAction.execute_within (action : MarketAction) (m m' : Market) (atoms : Int)
    (within : m.BorrowWithinSupply) (kept : action.KeepsCover m)
    (other : ∀ unixTimestamp, action ≠ .syncClock unixTimestamp) (debt : m'.debt = m.debt)
    (success : action.execute.Succeeds m atoms m') : m'.BorrowWithinSupply := by
  cases action with
  | donateSupplyAtoms amount =>
      obtain ⟨_, donated, -⟩ := (Method.succeeds_bind_pure _ _ _ _ _).mp success
      obtain ⟨tracker, raised, rfl⟩ := (Market.donateSupplyAtoms_succeeds _ _ _ _).mp donated
      apply Market.within_of_shrunk within debt.le
      exact (SharesTracker.donateAtoms_exact _ _ _ _ raised).1
  | syncClock unixTimestamp => exact absurd rfl (other unixTimestamp)
  | redeemProtocolFees =>
      obtain ⟨_, redeemed, -⟩ := (Method.succeeds_bind_pure _ _ _ _ _).mp success
      obtain ⟨tracker, burned, rfl, covered⟩ := Market.redeemProtocolFees_succeeds _ _ _ redeemed
      obtain ⟨less, left⟩ := SharesTracker.withdrawShares_value _ _ _ _ _ burned
      exact Market.within_of_withdrawal _ kept covered debt less left
  | redeemCuratorFess =>
      obtain ⟨_, redeemed, -⟩ := (Method.succeeds_bind_pure _ _ _ _ _).mp success
      obtain ⟨tracker, burned, rfl, covered⟩ := Market.redeemCuratorFess_succeeds _ _ _ redeemed
      obtain ⟨less, left⟩ := SharesTracker.withdrawShares_value _ _ _ _ _ burned
      exact Market.within_of_withdrawal _ kept covered debt less left
  | setSupplyOracleConfig oracleConfig =>
      obtain ⟨updated, -⟩ := (withoutTransfer_succeeds _ _ _ _).mp success
      obtain rfl := Market.setSupplyOracleConfig_succeeds _ _ _ _ updated
      exact within
  | setCollateralOracleConfig oracleConfig =>
      obtain ⟨updated, -⟩ := (withoutTransfer_succeeds _ _ _ _).mp success
      obtain rfl := Market.setCollateralOracleConfig_succeeds _ _ _ _ updated
      exact within
  | _ =>
      -- the remaining actions change the configuration alone
      obtain ⟨updated, -⟩ := (withoutTransfer_succeeds _ _ _ _).mp success
      obtain ⟨config, -, rfl⟩ := (Market.onConfig_succeeds _ _ _ _).mp updated
      exact within

theorem MarketAction.execute_utilised (action : MarketAction) (m m' : Market) (atoms : Int)
    (utilised : m.Utilised) (kept : action.KeepsCover m)
    (success : action.execute.Succeeds m atoms m') : m'.Utilised := by
  have effect := action.execute_effect _ _ _ success
  have sound : m'.ConfigSound := ⟨effect.ltv utilised.sound.ltv,
    effect.utilisation utilised.sound.utilisation, effect.fee utilised.sound.fee⟩
  by_cases clock : ∃ unixTimestamp, action = .syncClock unixTimestamp
  · obtain ⟨unixTimestamp, rfl⟩ := clock
    obtain ⟨synced, -⟩ := (withoutTransfer_succeeds _ _ _ _).mp success
    rcases Market.syncClock_succeeds _ _ _ _ synced with ⟨-, rfl⟩ | ⟨⟨sync⟩, -⟩
    · exact utilised
    · have whole := m.config.lendingMarketFeeFixed_le utilised.sound.fee
      obtain ⟨within, grain⟩ := sync.within whole utilised.grain (kept sync.later)
      exact ⟨grain, sound, within⟩
  · have other : ∀ unixTimestamp, action ≠ .syncClock unixTimestamp := not_exists.mp clock
    have idle : SupplyVault.Idle m.supplyVault m'.supplyVault := by
      rcases effect.accrual with idle | ⟨unixTimestamp, same, -⟩
      · exact idle
      · exact absurd same (other unixTimestamp)
    have debt : m'.debt = m.debt := by
      unfold Market.debt
      rw [idle.borrow]
    refine ⟨?_, sound, action.execute_within _ _ _ utilised.within kept other debt success⟩
    rw [idle.borrow]
    exact utilised.grain

/-- The reported totals and their ratio. -/
structure SupplyVault.WithinSupply (v : SupplyVault) : Prop where
  borrowed_le : ∀ totalSupply totalBorrow, v.totalSupply = .ok totalSupply →
    v.totalBorrow = .ok totalBorrow → totalBorrow.toNat ≤ totalSupply.toNat
  rate_le : ∀ rate, v.utilisationRate = .ok rate → 0 ≤ rate.bits ∧ rate.bits ≤ 2 ^ 48

theorem Market.BorrowWithinSupply.reported {m : Market} (within : m.BorrowWithinSupply) :
    m.supplyVault.WithinSupply := by
  have borrowed_le : ∀ totalSupply totalBorrow, m.supplyVault.totalSupply = .ok totalSupply →
      m.supplyVault.totalBorrow = .ok totalBorrow → totalBorrow.toNat ≤ totalSupply.toNat := by
    intro totalSupply totalBorrow supply borrow
    have supply_eq : (totalSupply.toNat : Int) = m.wholeSupply :=
      SharesTracker.totalAtoms_roundDown_eq _ _ supply
    have borrow_le : (totalBorrow.toNat : Int) ≤ m.wholeDebt :=
      (SharesTracker.totalAtoms_roundUp_le _ _ borrow).1
    unfold Market.BorrowWithinSupply at within
    omega
  refine ⟨borrowed_le, ?_⟩
  intro rate utilised
  refine ⟨(SupplyVault.utilisationRate_range _ _ utilised).1, ?_⟩
  obtain ⟨supplied, borrowed, supply, borrow, ratio⟩ :=
    (SupplyVault.utilisationRate_ok _ _).mp utilised
  have ordered := borrowed_le _ _ supply borrow
  rcases (SupplyVault.computeUtilisationRate_ok _ _ _).mp ratio with
    ⟨nonempty, rate_eq⟩ | ⟨-, -, rate_eq⟩
  · rw [rate_eq]
    apply Int.ediv_le_of_le_mul (by omega)
    rw [mul_comm]
    exact Int.mul_le_mul_of_nonneg_left (by omega) (by norm_num)
  · rw [rate_eq]
    norm_num

def Operation.SocializesLoss {σ β : Type} : Operation σ β → Prop
  | .borrow _ action => action.SocializesLoss
  | _ => False

namespace Ledger

variable {σ β : Type}

/-- Withdrawals and fee redemptions stay within what is not lent out, or the supply is at most
`2^48` atoms; interest on the debt, rounded up, is covered by interest on the supply. -/
def KeepsCover (l : Ledger σ β) : Operation σ β → Prop
  | .supply key action => action.KeepsCover (l.supplyView key)
  | .borrow _ _ => True
  | .market action => action.KeepsCover l.market

variable [DecidableEq σ] [DecidableEq β]

theorem utilised_step {l l' : Ledger σ β} (operation : Operation σ β)
    (utilised : l.market.Utilised) (kept : l.KeepsCover operation)
    (other : ¬ operation.SocializesLoss) (success : (execute operation).Succeeds l () l') :
    l'.market.Utilised := by
  have sound' := configSound_step operation utilised.sound success
  cases operation with
  | supply key action =>
      obtain ⟨atoms, s, executed, rfl⟩ := (execute_supply_succeeds _ _ _ _ _).mp success
      have within := action.execute_within (l.supplyView key) s atoms utilised.within kept executed
      refine ⟨?_, sound', within⟩
      change s.market.supplyVault.borrowSharesTracker.atomsPerShare.bits % 2 ^ 16 = 0
      rw [(action.execute_effect _ _ _ executed).market_eq]
      exact utilised.grain
  | borrow key action =>
      obtain ⟨atoms, s, executed, rfl⟩ := (execute_borrow_succeeds _ _ _ _ _).mp success
      have within := action.execute_within (l.borrowView key) s atoms utilised.within utilised.sound
        other executed
      refine ⟨?_, sound', within⟩
      change s.market.supplyVault.borrowSharesTracker.atomsPerShare.bits % 2 ^ 16 = 0
      rw [(action.execute_effect _ _ _ executed).price]
      exact utilised.grain
  | market action =>
      obtain ⟨atoms, market, executed, rfl⟩ := (execute_market_succeeds _ _ _ _).mp success
      exact action.execute_utilised _ _ _ utilised kept executed

omit [DecidableEq σ] [DecidableEq β] in
theorem Opened.utilised {data : Market.CreateMarket} {l : Ledger σ β} (opened : Opened data l) :
    l.market.Utilised := by
  obtain ⟨fresh, -⟩ := opened.fresh
  refine ⟨?_, opened.configSound, ?_⟩
  · rw [fresh.borrow]
    rfl
  · unfold Market.BorrowWithinSupply Market.wholeDebt Market.wholeSupply Market.debt Market.credit
    rw [fresh.borrow, fresh.supply]
    decide

/-- In every run without socialised losses whose steps all keep the debt covered, the borrowed
total is within the supplied total in every state. -/
theorem borrow_within_supply_while_covered (data : Market.CreateMarket) (start : Ledger σ β)
    (opened : Opened data start) (operations : List (Operation σ β))
    (lossless :
      Machine.Along execute (fun _ operation => ¬ operation.SocializesLoss) start operations)
    (covered : Machine.Along execute KeepsCover start operations) (reached : Nat) :
    (start.run (operations.take reached)).market.supplyVault.WithinSupply := by
  have utilised : (start.run (operations.take reached)).market.Utilised :=
    @Machine.run_invariant_along _ _ _ _ _ (fun l => l.market.Utilised) _ _ _ opened.utilised
      ((lossless.and covered).take reached)
      (fun _ operation _ _ utilised kept success =>
        utilised_step operation utilised kept.2 kept.1 success)
  exact utilised.within.reported

def withdrawnLoan : List (Operation Unit Unit) :=
  smallLoan ++ [.market (.syncClock 1000000), .supply () (.withdraw 300)]

theorem withdrawn_loan_within_supply :
    ((smallLedger .newAdaptive).run withdrawnLoan).market.supplyVault.WithinSupply :=
  borrow_within_supply_while_covered _ _ smallLedger_adaptive_opened withdrawnLoan
    (Machine.along_of_forall _ _ _ (by simp [withdrawnLoan, smallLoan, Operation.SocializesLoss,
      BorrowAction.SocializesLoss]))
    ⟨fun _ _ _ => trivial, fun _ _ _ => trivial, fun _ _ _ => trivial,
      fun _ _ _ _ => by decide +kernel, fun _ _ _ => Or.inr (by decide +kernel), trivial⟩ 5

/-- A loan up to the maximum utilisation, a withdrawal of all that is left, and one second of
interest: the debt of 90.9 atoms is reported as 91 and the supply of as much as 90. -/
def fullyUtilised : List (Operation Unit Unit) :=
  [.supply () (.lend 100), .borrow () (.depositCollateral 1000), .borrow () (.borrow 90 .par .par),
    .supply () (.withdraw 10), .market (.syncClock 1)]

theorem borrow_exceeds_supply_at_full_utilisation :
    Opened (smallMarket steepCurve) (smallLedger steepCurve) ∧
      (∀ params rate next,
        (InterestRateCurveKind.borrowRatePerSecond params).Succeeds steepCurve rate next →
          0 ≤ rate.rate.bits) ∧
      (∀ operation ∈ fullyUtilised, ¬ operation.SocializesLoss) ∧
      ¬ ((smallLedger steepCurve).run fullyUtilised).market.supplyVault.WithinSupply := by
  refine ⟨smallLedger_opened _ (by decide +kernel), ?_, ?_, ?_⟩
  · intro params rate next success
    rw [← ((InterestRateCurveKind.fixed_succeeds _ _ _ _).mp success).1]
    decide
  · simp [fullyUtilised, Operation.SocializesLoss, BorrowAction.SocializesLoss]
  · intro within
    have bounded := within.borrowed_le 90 91 (by decide +kernel) (by decide +kernel)
    exact absurd bounded (by decide)

end Ledger

end AutaraLending
