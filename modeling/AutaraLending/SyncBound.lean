import AutaraLending.DebtMonotonicity
import AutaraLending.Valuation

/-! How much more a single sync can credit to suppliers and fee holders than it charges to
borrowers. -/

namespace AutaraLending

open Support

namespace SharesTracker

/-- What the shares of a tracker are worth, as a rational number of atoms. -/
def worth (t : SharesTracker) : ℚ := t.totalShares.toRat * t.atomsPerShare.toRat

theorem worth_eq (t : SharesTracker) : t.worth = t.exactAtoms / 2 ^ 128 := by
  unfold worth exactAtoms Fixed.toRat
  rw [u64f64_frac, Int.cast_mul]
  ring

theorem roundedUp_lt (exact : Int) : roundedUp exact * 2 ^ 128 < exact + 2 ^ 128 := by
  unfold roundedUp
  omega

end SharesTracker

namespace SupplyVault.Sync

variable {timestamp : Int64} {fee : UFixedPoint} {protocolBps : UInt16} {v v' : SupplyVault}
  {supplied borrowed : U64}

theorem lending_eq (sync : Sync timestamp fee protocolBps v v') :
    sync.lending.rate.bits = sync.growth.rate.bits * sync.utilisation.bits / 2 ^ 48 := by
  have adjusted := sync.lending_ok
  simp only [InterestRate.adjustForUtilisationRate, except_map_ok, Fixed.safeMul_ok,
    i80f48_frac] at adjusted
  obtain ⟨rate, product, same⟩ := adjusted
  rw [product, ← same]

theorem lending_le (sync : Sync timestamp fee protocolBps v v')
    (nonneg : 0 ≤ sync.growth.rate.bits) (supply : v.totalSupply = .ok supplied)
    (borrow : v.totalBorrow = .ok borrowed) (some : 1 ≤ supplied.toNat) :
    sync.lending.rate.bits * supplied.toNat ≤ sync.growth.rate.bits * borrowed.toNat := by
  obtain ⟨supplied', borrowed', supply', borrow', ratio⟩ :=
    (utilisationRate_ok _ _).mp sync.utilisation_ok
  obtain rfl := Except.ok.inj (supply.symm.trans supply')
  obtain rfl := Except.ok.inj (borrow.symm.trans borrow')
  have used : sync.utilisation.bits * supplied.toNat ≤ borrowed.toNat * 2 ^ 48 := by
    rcases (computeUtilisationRate_ok _ _ _).mp ratio with ⟨nonempty, rate_eq⟩ | ⟨empty, -, -⟩
    · rw [rate_eq]
      exact Int.ediv_mul_le _ (by omega)
    · omega
  have cut := Int.ediv_mul_le (sync.growth.rate.bits * sync.utilisation.bits)
    (by norm_num : (2 : Int) ^ 48 ≠ 0)
  rw [← sync.lending_eq] at cut
  have scaled := Int.mul_le_mul_of_nonneg_right cut (by omega : (0 : Int) ≤ supplied.toNat)
  have passed := Int.mul_le_mul_of_nonneg_left used nonneg
  linarith

theorem accrual (sync : Sync timestamp fee protocolBps v v')
    (supply : v.totalSupply = .ok supplied) (some : 1 ≤ supplied.toNat) :
    Nonempty (SharesTracker.FeeAccrual v.supplySharesTracker v'.supplySharesTracker sync.lending fee
      sync.feeShares supplied) := by
  obtain ⟨counted, counted_ok, outcome⟩ :=
    SharesTracker.applyInterestRateWithFee_succeeds _ _ _ _ _ sync.supply_ok
  obtain rfl := Except.ok.inj (supply.symm.trans counted_ok)
  rcases outcome with ⟨none, -, -⟩ | accrual
  · omega
  · exact accrual

/-- The growth of the credit against that of the debt, in units of `2^-176` atoms and cleared of
the division by the supplied total. -/
theorem credit_growth (sync : Sync timestamp fee protocolBps v v') (whole : fee.bits ≤ 2 ^ 64)
    (grain : v.borrowSharesTracker.atomsPerShare.bits % 2 ^ 16 = 0)
    (nonneg : 0 ≤ sync.growth.rate.bits) (supply : v.totalSupply = .ok supplied)
    (borrow : v.totalBorrow = .ok borrowed) (some : 1 ≤ supplied.toNat) :
    supplied.toNat * (2 ^ 48 *
        (v'.supplySharesTracker.exactAtoms - v.supplySharesTracker.exactAtoms)) ≤
      supplied.toNat * (2 ^ 48 *
          (v'.borrowSharesTracker.exactAtoms - v.borrowSharesTracker.exactAtoms) +
        2 ^ 64 * v.borrowSharesTracker.totalShares.bits) +
        sync.growth.rate.bits * 2 ^ 128 * (supplied.toNat + borrowed.toNat) := by
  obtain ⟨accrual⟩ := sync.accrual supply some
  have supply_eq := SharesTracker.totalAtoms_roundDown_eq _ _ supply
  have credited := accrual.exactAtoms_le whole supply_eq
  obtain ⟨-, -, charged⟩ := SharesTracker.applyInterestRate_exact _ _ _ _ grain sync.borrow_ok
  have passed := sync.lending_le nonneg supply borrow some
  have credit_nonneg := v.supplySharesTracker.exactAtoms_nonneg
  have borrowed_le := (SharesTracker.totalAtoms_roundUp_le _ _ borrow).1
  have rounded := SharesTracker.roundedUp_lt v.borrowSharesTracker.exactAtoms
  generalize v.supplySharesTracker.exactAtoms = credit at *
  generalize v'.supplySharesTracker.exactAtoms = credit' at *
  generalize v.borrowSharesTracker.exactAtoms = debt at *
  generalize v'.borrowSharesTracker.exactAtoms = debt' at *
  generalize sync.growth.rate.bits = growth at *
  generalize sync.lending.rate.bits = lending at *
  have atoms_nonneg : (0 : Int) ≤ supplied.toNat := by omega
  have owed : (borrowed.toNat : Int) * 2 ^ 128 ≤ debt + 2 ^ 128 := by omega
  have held : credit ≤ (supplied.toNat + 1) * 2 ^ 128 := by omega
  calc
    supplied.toNat * (2 ^ 48 * (credit' - credit)) ≤ supplied.toNat * (lending * credit) :=
      Int.mul_le_mul_of_nonneg_left (by linarith) atoms_nonneg
    _ = lending * supplied.toNat * credit := by ring
    _ ≤ growth * borrowed.toNat * credit := Int.mul_le_mul_of_nonneg_right passed credit_nonneg
    _ ≤ growth * borrowed.toNat * ((supplied.toNat + 1) * 2 ^ 128) :=
      Int.mul_le_mul_of_nonneg_left held (mul_nonneg nonneg (by omega))
    _ = supplied.toNat * (growth * (borrowed.toNat * 2 ^ 128)) +
        growth * 2 ^ 128 * borrowed.toNat := by ring
    _ ≤ supplied.toNat * (growth * (debt + 2 ^ 128)) + growth * 2 ^ 128 * borrowed.toNat := by
      have grown := Int.mul_le_mul_of_nonneg_left
        (Int.mul_le_mul_of_nonneg_left owed nonneg) atoms_nonneg
      linarith
    _ ≤ _ := by
      have grown := Int.mul_le_mul_of_nonneg_left charged atoms_nonneg
      linarith

theorem fee_worth (sync : Sync timestamp fee protocolBps v v') (whole : fee.bits ≤ 2 ^ 64)
    (nonneg : 0 ≤ sync.growth.rate.bits) (supply : v.totalSupply = .ok supplied)
    (borrow : v.totalBorrow = .ok borrowed) (some : 1 ≤ supplied.toNat) :
    sync.feeShares.toRat * v'.supplySharesTracker.atomsPerShare.toRat ≤
      fee.toRat * sync.growth.rate.toRat * borrowed.toNat := by
  obtain ⟨accrual⟩ := sync.accrual supply some
  have fee_nonneg := fee.bits_nonneg
  have passed := Int.mul_le_mul_of_nonneg_right (sync.lending_le nonneg supply borrow some)
    fee_nonneg
  have value := accrual.feeShares_le (accrual.fee_bounds whole).1
  have charged : accrual.feeAtoms * 2 ^ 64 ≤
      sync.lending.rate.bits * supplied.toNat * fee.bits := by
    have interest_nonneg : 0 ≤ sync.lending.rate.bits * supplied.toNat :=
      mul_nonneg accrual.rate_nonneg (by omega)
    have cut := Int.ediv_mul_le (sync.lending.rate.bits * supplied.toNat * (fee.bits / 2 ^ 16))
      (by norm_num : (2 : Int) ^ 48 ≠ 0)
    have grid := Int.mul_le_mul_of_nonneg_left
      (by omega : fee.bits / 2 ^ 16 * 2 ^ 16 ≤ fee.bits) interest_nonneg
    rw [← accrual.feeAtoms_eq] at cut
    linarith
  have bound : sync.feeShares.bits * v'.supplySharesTracker.atomsPerShare.bits ≤
      sync.growth.rate.bits * borrowed.toNat * fee.bits * 2 ^ 16 := by linarith
  have bound_rat : (sync.feeShares.bits * v'.supplySharesTracker.atomsPerShare.bits : ℚ) ≤
      sync.growth.rate.bits * borrowed.toNat * fee.bits * 2 ^ 16 := by exact_mod_cast bound
  unfold Fixed.toRat
  rw [u64f64_frac, i80f48_frac]
  calc
    (sync.feeShares.bits : ℚ) / 2 ^ 64 *
          ((v'.supplySharesTracker.atomsPerShare.bits : ℚ) / 2 ^ 64) =
        (sync.feeShares.bits * v'.supplySharesTracker.atomsPerShare.bits : ℚ) / 2 ^ 128 := by ring
    _ ≤ (sync.growth.rate.bits * borrowed.toNat * fee.bits * 2 ^ 16 : ℚ) / 2 ^ 128 := by gcongr
    _ = fee.bits / 2 ^ 64 * (sync.growth.rate.bits / 2 ^ 48) * borrowed.toNat := by ring

end SupplyVault.Sync

namespace Ledger

variable {σ β : Type} [DecidableEq σ] [DecidableEq β]

theorem Reachable.debtPrice_grain {l : Ledger σ β} (reachable : l.Reachable) :
    l.debtPrice % 2 ^ 16 = 0 := by
  apply reachable.induction
  · intro data start opened
    unfold debtPrice
    rw [opened.fresh.1.borrow]
    rfl
  · intro l operation l' grain success
    rcases debtTerms_step operation success with ⟨price, -⟩ | ⟨_, _, _, -, ⟨sync⟩⟩
    · rw [price]
      exact grain
    · exact (SharesTracker.applyInterestRate_exact _ _ _ _ grain sync.borrow_ok).1

/-- A sync at a rate `growth` credits at most what it charges, up to the interest on the atom that
each total is rounded by and one unit of the price grid for each debt share. The fee shares it
mints are split between protocol and curator and are worth at most the fee on the interest. -/
theorem sync_credit_bounded (l : Ledger σ β) (reachable : l.Reachable) (timestamp : Int64)
    (synced : Market) (growth lending : InterestRate) (supplied borrowed : U64)
    (later : l.market.supplyVault.lastUpdateUnixTimestamp < timestamp)
    (success : (Market.syncClock timestamp).Succeeds l.market () synced)
    (rates : l.market.supplyVault.accrualRates timestamp = .ok (growth, lending))
    (nonneg : 0 ≤ growth.rate.toRat) (supply : l.market.supplyVault.totalSupply = .ok supplied)
    (borrow : l.market.supplyVault.totalBorrow = .ok borrowed) (some : 1 ≤ supplied.toNat) :
    synced.supplyVault.supplySharesTracker.worth -
        l.market.supplyVault.supplySharesTracker.worth ≤
      (synced.supplyVault.borrowSharesTracker.worth -
          l.market.supplyVault.borrowSharesTracker.worth) +
        growth.rate.toRat * (1 + borrowed.toNat / supplied.toNat) +
        l.market.supplyVault.borrowSharesTracker.totalShares.toRat / 2 ^ 48 ∧
    ∃ feeShares protocolShares curatorShares : UFixedPoint,
      synced.supplyVault.supplySharesTracker.totalShares.bits =
          feeShares.bits + l.market.supplyVault.supplySharesTracker.totalShares.bits ∧
        synced.supplyVault.pendingProtocolFeeShares.bits =
          l.market.supplyVault.pendingProtocolFeeShares.bits + protocolShares.bits ∧
        synced.supplyVault.pendingCuratorFeeShares.bits =
          l.market.supplyVault.pendingCuratorFeeShares.bits + curatorShares.bits ∧
        protocolShares.bits =
          feeShares.bits * l.market.config.protocolFeeShareInBps.toNat / 10000 ∧
        feeShares.bits = protocolShares.bits + curatorShares.bits ∧
        feeShares.toRat * synced.supplyVault.supplySharesTracker.atomsPerShare.toRat ≤
          l.market.config.lendingMarketFeeFixed.toRat * growth.rate.toRat * borrowed.toNat := by
  rcases Market.syncClock_succeeds _ _ _ _ success with ⟨earlier, -⟩ | ⟨⟨sync⟩, -⟩
  · exact absurd later earlier
  obtain ⟨rfl, rfl⟩ : growth = sync.growth ∧ lending = sync.lending := by
    simpa using rates.symm.trans sync.accrualRates_eq
  have whole := l.market.config.lendingMarketFeeFixed_le reachable.configSound.fee
  have nonneg := Fixed.toRat_nonneg.mp nonneg
  constructor
  · have grown := sync.credit_growth whole reachable.debtPrice_grain nonneg supply borrow some
    have atoms_pos : (0 : ℚ) < supplied.toNat := by exact_mod_cast some
    rw [← Int.sub_nonneg] at grown
    have grown_rat : (0 : ℚ) ≤ _ := Int.cast_nonneg grown
    push_cast at grown_rat
    simp only [SharesTracker.worth_eq, Fixed.toRat, u64f64_frac, i80f48_frac]
    rw [← sub_nonneg]
    refine le_of_le_of_eq (div_nonneg grown_rat
      (by positivity : 0 ≤ supplied.toNat * (2 : ℚ) ^ 176)) ?_
    field_simp
    ring
  · have split := bpsFromFixedPoint_ok _ _ _ sync.protocol_ok
    rw [UInt16.toNat_toUInt64] at split
    exact ⟨sync.feeShares, sync.protocolShares, sync.curatorShares,
      SharesTracker.applyInterestRateWithFee_shares _ _ _ _ _ sync.supply_ok,
      sync.pendingProtocol_eq, sync.pendingCurator_eq, split.symm, sync.curator_eq,
      sync.fee_worth whole nonneg supply borrow some⟩

theorem small_loan_accrual_bounded :
    ∃ synced growth lending,
      (Market.syncClock 1000000).Succeeds ((smallLedger .newAdaptive).run smallLoan).market ()
        synced ∧
      ((smallLedger .newAdaptive).run smallLoan).market.supplyVault.accrualRates 1000000 =
        .ok (growth, lending) ∧
      0 < growth.rate.toRat ∧
      synced.supplyVault.supplySharesTracker.worth -
          ((smallLedger .newAdaptive).run smallLoan).market.supplyVault.supplySharesTracker.worth ≤
        (synced.supplyVault.borrowSharesTracker.worth -
            ((smallLedger .newAdaptive).run
              smallLoan).market.supplyVault.borrowSharesTracker.worth) +
          growth.rate.toRat * (1 + (600 : U64).toNat / (1000 : U64).toNat) +
          ((smallLedger .newAdaptive).run
            smallLoan).market.supplyVault.borrowSharesTracker.totalShares.toRat / 2 ^ 48 := by
  let growth : InterestRate := ⟨⟨267892401795, by decide, by decide⟩⟩
  let lending : InterestRate := ⟨⟨160735441076, by decide, by decide⟩⟩
  have rates : ((smallLedger .newAdaptive).run smallLoan).market.supplyVault.accrualRates 1000000 =
      .ok (growth, lending) := by decide +kernel
  have success : (Market.syncClock 1000000).Succeeds
      ((smallLedger .newAdaptive).run smallLoan).market ()
      (Market.syncClock 1000000 ((smallLedger .newAdaptive).run smallLoan).market).2 :=
    Prod.ext (by decide +kernel) rfl
  have positive : 0 < growth.rate.toRat := by
    simp only [growth, Fixed.toRat, i80f48_frac]
    norm_num
  exact ⟨_, growth, lending, success, rates, positive,
    (sync_credit_bounded _ ⟨_, _, smallLoan, smallLedger_adaptive_opened, rfl⟩ 1000000 _ growth
      lending 1000 600 (by decide +kernel) success rates positive.le (by decide +kernel)
      (by decide +kernel) (by decide)).1⟩

end Ledger

end AutaraLending
