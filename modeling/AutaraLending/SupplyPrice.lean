import AutaraLending.Utilisation

/-! The price of supply shares. Deposits and withdrawals keep it and donations raise it, with 64
fraction bits; an accrual computes the new price in a format with 48 fraction bits, and what a
donation or a loss left below these is cut off unless the interest of one share makes up for it. -/

namespace AutaraLending

open Support

def SharesTracker.netLendingRate (lending : InterestRate) (fee : UFixedPoint) (totalAtoms : U64) :
    Int :=
  (lending.rate.bits * totalAtoms.toNat -
    lending.rate.bits * totalAtoms.toNat * (fee.bits / 2 ^ 16) / 2 ^ 48).tdiv totalAtoms.toNat

def SharesTracker.PriceSurvives (t : SharesTracker) (netRate : Int) : Prop :=
  t.atomsPerShare.bits % 2 ^ 16 = 0 ∨ 2 ^ 48 ≤ netRate * (t.atomsPerShare.bits / 2 ^ 16)

instance (t : SharesTracker) (netRate : Int) : Decidable (t.PriceSurvives netRate) :=
  inferInstanceAs (Decidable (_ ∨ _))

theorem SharesTracker.FeeAccrual.price_le_iff {t t' : SharesTracker} {rate : InterestRate}
    {fee feeShares : UFixedPoint} {totalAtoms : U64}
    (accrual : FeeAccrual t t' rate fee feeShares totalAtoms) (whole : fee.bits ≤ 2 ^ 64) :
    t.atomsPerShare.bits ≤ t'.atomsPerShare.bits ↔
      t.PriceSurvives (netLendingRate rate fee totalAtoms) := by
  obtain ⟨-, net_nonneg, -, -⟩ := accrual.fee_bounds whole
  have netRate_eq : accrual.netRate = netLendingRate rate fee totalAtoms := by
    rw [accrual.netRate_eq, accrual.feeAtoms_eq]
    rfl
  have price_nonneg := t.atomsPerShare.bits_nonneg
  have interest_nonneg : 0 ≤ accrual.netRate * (t.atomsPerShare.bits / 2 ^ 16) :=
    mul_nonneg net_nonneg (by omega)
  rw [PriceSurvives, ← netRate_eq, accrual.price_eq]
  omega

def SupplyVault.AccrualKeepsPrice (v : SupplyVault) (fee : UFixedPoint) (unixTimestamp : Int64) :
    Prop :=
  match v.totalSupply, v.accrualRates unixTimestamp with
  | .ok supplied, .ok (_, lending) =>
      supplied.toNat = 0 ∨
        v.supplySharesTracker.PriceSurvives (SharesTracker.netLendingRate lending fee supplied)
  | _, _ => True

instance (v : SupplyVault) (fee : UFixedPoint) (unixTimestamp : Int64) :
    Decidable (v.AccrualKeepsPrice fee unixTimestamp) := by
  unfold SupplyVault.AccrualKeepsPrice
  split <;> infer_instance

theorem SupplyVault.Sync.price_le_iff {timestamp : Int64} {fee : UFixedPoint} {protocolBps : UInt16}
    {v v' : SupplyVault} (sync : Sync timestamp fee protocolBps v v') (whole : fee.bits ≤ 2 ^ 64) :
    v.supplySharesTracker.atomsPerShare.bits ≤ v'.supplySharesTracker.atomsPerShare.bits ↔
      v.AccrualKeepsPrice fee timestamp := by
  obtain ⟨supplied, supply, accrued⟩ :=
    SharesTracker.applyInterestRateWithFee_succeeds _ _ _ _ _ sync.supply_ok
  have reported : v.totalSupply = .ok supplied := supply
  simp only [AccrualKeepsPrice, reported, sync.accrualRates_eq]
  rcases accrued with ⟨none, -, same⟩ | ⟨⟨accrual⟩⟩
  · rw [same]
    exact ⟨fun _ => Or.inl none, fun _ => le_rfl⟩
  · have some_atoms := accrual.atoms_pos
    rw [accrual.price_le_iff whole, or_iff_right (by omega)]

theorem BorrowAction.execute_supplyTracker (action : BorrowAction)
    (s s' : MarketWith BorrowPosition) (atoms : Int) (other : ¬ action.SocializesLoss)
    (success : action.execute.Succeeds s atoms s') :
    s'.market.supplyVault.supplySharesTracker = s.market.supplyVault.supplySharesTracker := by
  cases action with
  | depositCollateral amount =>
      obtain ⟨_, deposited, -⟩ := (Method.succeeds_bind_pure _ _ _ _ _).mp success
      obtain ⟨-, _, _, -, -, rfl⟩ := (MarketWith.depositCollateral_succeeds _ _ _ _).mp deposited
      rfl
  | withdrawCollateral amount collateralOracle supplyOracle =>
      obtain ⟨_, withdrawn, -⟩ := (Method.succeeds_bind_pure _ _ _ _ _).mp success
      obtain ⟨-, _, _, -, -, -, rfl, -⟩ :=
        MarketWith.withdrawCollateral_succeeds _ _ _ _ _ _ withdrawn
      rfl
  | borrow amount supplyOracle collateralOracle =>
      obtain ⟨_, borrowed, -⟩ := (Method.succeeds_bind_pure _ _ _ _ _).mp success
      obtain ⟨-, _, _, -, -, -, market_eq, -⟩ := MarketWith.borrow_succeeds _ _ _ _ _ _ borrowed
      rw [market_eq]
      rfl
  | repay amount =>
      obtain ⟨_, repaid, -⟩ := (Method.succeeds_bind_pure _ _ _ _ _).mp success
      obtain ⟨-, _, _, -, -, market_eq, -⟩ := MarketWith.repay_succeeds _ _ _ _ repaid
      rw [market_eq]
      rfl
  | repayAll =>
      obtain ⟨_, repaid, -⟩ := (Method.succeeds_bind_pure _ _ _ _ _).mp success
      obtain ⟨-, _, -, -, market_eq, -⟩ := MarketWith.repayAll_succeeds _ _ _ repaid
      rw [market_eq]
      rfl
  | liquidate collateralOracle supplyOracle maxRepayAtoms =>
      obtain ⟨_, liquidated, -⟩ := (Method.succeeds_bind_pure _ _ _ _ _).mp success
      obtain ⟨outcome⟩ := (MarketWith.liquidate_succeeds _ _ _ _ _ _).mp liquidated
      rw [outcome.final]
      rfl
  | beginCapitalSweep collateralOracle supplyOracle =>
      obtain ⟨_, swept, -⟩ := (Method.succeeds_bind_pure _ _ _ _ _).mp success
      obtain ⟨-, -, -, -, _, -, rfl⟩ := (MarketWith.beginCapitalSweep_succeeds _ _ _ _ _).mp swept
      rfl
  | settleCapitalSweep collateralOracle supplyOracle maxRepayAtoms maxCollateralAtomsToReturn =>
      obtain ⟨_, settled, -⟩ := (Method.succeeds_bind_pure _ _ _ _ _).mp success
      obtain ⟨outcome⟩ := (MarketWith.settleCapitalSweep_succeeds _ _ _ _ _ _ _).mp settled
      rw [outcome.final]
      rfl
  | socializeLoss collateralOracle supplyOracle => exact absurd trivial other

/-- A market action keeps the price of supply shares; only a sync needs a condition for it. -/
def MarketAction.KeepsSupplyPrice (m : Market) : MarketAction → Prop
  | .syncClock unixTimestamp =>
      m.supplyVault.lastUpdateUnixTimestamp < unixTimestamp →
        m.supplyVault.AccrualKeepsPrice m.config.lendingMarketFeeFixed unixTimestamp
  | _ => True

theorem MarketAction.execute_supplyPrice (action : MarketAction) (m m' : Market) (atoms : Int)
    (sound : m.ConfigSound) (success : action.execute.Succeeds m atoms m') :
    m.supplyVault.supplySharesTracker.atomsPerShare.bits ≤
        m'.supplyVault.supplySharesTracker.atomsPerShare.bits ↔
      action.KeepsSupplyPrice m := by
  cases action with
  | donateSupplyAtoms amount =>
      obtain ⟨_, donated, -⟩ := (Method.succeeds_bind_pure _ _ _ _ _).mp success
      obtain ⟨tracker, raised, rfl⟩ := (Market.donateSupplyAtoms_succeeds _ _ _ _).mp donated
      obtain ⟨-, price, -⟩ := (SharesTracker.donateAtoms_succeeds _ _ _ _).mp raised
      have added : 0 ≤ amount.toNat * 2 ^ 128 /
          m.supplyVault.supplySharesTracker.totalShares.bits :=
        Int.ediv_nonneg (by positivity) m.supplyVault.supplySharesTracker.totalShares.bits_nonneg
      refine iff_of_true ?_ trivial
      change _ ≤ tracker.atomsPerShare.bits
      omega
  | syncClock unixTimestamp =>
      obtain ⟨synced, -⟩ := (withoutTransfer_succeeds _ _ _ _).mp success
      rcases Market.syncClock_succeeds _ _ _ _ synced with ⟨early, rfl⟩ | ⟨⟨sync⟩, -⟩
      · exact iff_of_true le_rfl (fun later => absurd later early)
      · rw [sync.price_le_iff (MarketConfig.lendingMarketFeeFixed_le _ sound.fee)]
        exact ⟨fun kept _ => kept, fun kept => kept sync.later⟩
  | redeemProtocolFees =>
      obtain ⟨_, redeemed, -⟩ := (Method.succeeds_bind_pure _ _ _ _ _).mp success
      obtain ⟨tracker, burned, rfl, -⟩ := Market.redeemProtocolFees_succeeds _ _ _ redeemed
      obtain ⟨-, -, price⟩ := (SharesTracker.withdrawShares_succeeds _ _ _ _ _).mp burned
      exact iff_of_true (congrArg Fixed.bits price).ge trivial
  | redeemCuratorFess =>
      obtain ⟨_, redeemed, -⟩ := (Method.succeeds_bind_pure _ _ _ _ _).mp success
      obtain ⟨tracker, burned, rfl, -⟩ := Market.redeemCuratorFess_succeeds _ _ _ redeemed
      obtain ⟨-, -, price⟩ := (SharesTracker.withdrawShares_succeeds _ _ _ _ _).mp burned
      exact iff_of_true (congrArg Fixed.bits price).ge trivial
  | setSupplyOracleConfig oracleConfig =>
      obtain ⟨updated, -⟩ := (withoutTransfer_succeeds _ _ _ _).mp success
      obtain rfl := Market.setSupplyOracleConfig_succeeds _ _ _ _ updated
      exact iff_of_true le_rfl trivial
  | setCollateralOracleConfig oracleConfig =>
      obtain ⟨updated, -⟩ := (withoutTransfer_succeeds _ _ _ _).mp success
      obtain rfl := Market.setCollateralOracleConfig_succeeds _ _ _ _ updated
      exact iff_of_true le_rfl trivial
  | _ =>
      -- the remaining actions change the configuration alone
      obtain ⟨updated, -⟩ := (withoutTransfer_succeeds _ _ _ _).mp success
      obtain ⟨config, -, rfl⟩ := (Market.onConfig_succeeds _ _ _ _).mp updated
      exact iff_of_true le_rfl trivial

namespace Ledger

variable {σ β : Type}

def supplyPrice (l : Ledger σ β) : Int :=
  l.market.supplyVault.supplySharesTracker.atomsPerShare.bits

/-- The condition under which an operation that socialises no loss keeps the supply price. -/
def KeepsSupplyPrice (l : Ledger σ β) : Operation σ β → Prop
  | .market action => action.KeepsSupplyPrice l.market
  | _ => True

variable [DecidableEq σ] [DecidableEq β]

theorem supplyPrice_step {l l' : Ledger σ β} (operation : Operation σ β)
    (sound : l.market.ConfigSound) (other : ¬ operation.SocializesLoss)
    (success : (execute operation).Succeeds l () l') :
    l.supplyPrice ≤ l'.supplyPrice ↔ l.KeepsSupplyPrice operation := by
  cases operation with
  | supply key action =>
      obtain ⟨atoms, s, executed, rfl⟩ := (execute_supply_succeeds _ _ _ _ _).mp success
      have price := (action.execute_effect _ _ _ executed).price
      exact iff_of_true (congrArg Fixed.bits price).ge trivial
  | borrow key action =>
      obtain ⟨atoms, s, executed, rfl⟩ := (execute_borrow_succeeds _ _ _ _ _).mp success
      have tracker := action.execute_supplyTracker _ _ _ other executed
      refine iff_of_true ?_ trivial
      change l.supplyPrice ≤ s.market.supplyVault.supplySharesTracker.atomsPerShare.bits
      rw [tracker]
      exact le_rfl
  | market action =>
      obtain ⟨atoms, market, executed, rfl⟩ := (execute_market_succeeds _ _ _ _).mp success
      exact action.execute_supplyPrice _ _ _ sound executed

/-- The supply price falls at no step of a run but a socialised loss, exactly when every sync of
the run finds a price that it does not cut or interest that makes up for the cut. -/
theorem supply_price_kept_iff (data : Market.CreateMarket) (start : Ledger σ β)
    (opened : Opened data start) (operations : List (Operation σ β)) :
    (∀ before operation after, operations = before ++ operation :: after →
        ¬ operation.SocializesLoss →
        (start.run before).supplyPrice ≤ (start.run (before ++ [operation])).supplyPrice) ↔
      Machine.Along execute KeepsSupplyPrice start operations := by
  have sound (before : List (Operation σ β)) : (start.run before).market.ConfigSound :=
    Reachable.configSound ⟨data, start, before, opened, rfl⟩
  have stepped (before : List (Operation σ β)) (operation : Operation σ β) :
      start.run (before ++ [operation]) = Machine.commit execute (start.run before) operation :=
    Machine.run_append _ _ _ _
  constructor
  · intro kept
    by_contra violated
    obtain ⟨before, operation, after, _, reached, split, success, missed⟩ :=
      Machine.exists_of_not_along execute _ _ violated
    change (execute operation).Succeeds (start.run before) _ reached at success
    have other : ¬ operation.SocializesLoss := by
      intro socializes
      cases operation with
      | borrow key action => exact missed trivial
      | supply key action => exact socializes
      | market action => exact socializes
    have rises := kept before operation after split other
    rw [stepped, Machine.commit_of_succeeds execute success] at rises
    exact missed ((supplyPrice_step operation (sound before) other success).mp rises)
  · rintro along before operation after rfl other
    rw [stepped]
    rcases Machine.commit_cases execute (start.run before) operation with ⟨_, success⟩ | same
    · exact (supplyPrice_step operation (sound before) other success).mpr
        (along.at_operation success)
    · rw [same]

def donatedLoan : List (Operation Unit Unit) := smallLoan ++ [.market (.donateSupplyAtoms 7)]

theorem donated_loan_price_kept :
    ((smallLedger .newAdaptive).run donatedLoan).supplyPrice ≤
      ((smallLedger .newAdaptive).run
        (donatedLoan ++ [.market (.syncClock 1000000)])).supplyPrice := by
  apply (supply_price_kept_iff _ _ smallLedger_adaptive_opened
    (donatedLoan ++ [.market (.syncClock 1000000)])).mpr ?_ _ _ [] rfl
  · exact fun socializes => socializes
  · exact ⟨fun _ _ _ => trivial, fun _ _ _ => trivial, fun _ _ _ => trivial, fun _ _ _ => trivial,
      fun _ _ _ _ => by decide +kernel, trivial⟩

/-- A donation of a third of the supply, and a second without interest. -/
def cutDonation : List (Operation Unit Unit) :=
  [.supply () (.lend 3000000000000000000), .market (.donateSupplyAtoms 1000000000000000000),
    .market (.syncClock 1)]

/-- The sync takes 3552 of the donated atoms away. -/
theorem donation_cut_by_sync :
    Opened (smallMarket steepCurve) (smallLedger steepCurve) ∧
      ((smallLedger steepCurve).run (cutDonation.take 2)).market.supplyVault.totalSupply =
        .ok 3999999999999999999 ∧
      ((smallLedger steepCurve).run cutDonation).market.supplyVault.totalSupply =
        .ok 3999999999999996447 ∧
      ¬ ((smallLedger steepCurve).run (cutDonation.take 2)).supplyPrice ≤
        ((smallLedger steepCurve).run cutDonation).supplyPrice :=
  ⟨smallLedger_opened _ (by decide +kernel), by decide +kernel, by decide +kernel,
    by decide +kernel⟩

end Ledger

end AutaraLending
