import AutaraLending.SharesTracker
import AutaraLending.Support.Machine

/-! How far a moved exchange rate can cost a holder. A quotient by shares or by the rate is
truncated once, and what is cut off is worth less than one atom because both factors have
fewer than 128 bits. -/

namespace AutaraLending

open Support

namespace SharesTracker

theorem quotient_shortfall (dividend : Int) (divisor : UFixedPoint) (nonzero : divisor.bits ≠ 0) :
    ∃ rest, divisor.bits * (dividend / divisor.bits) = dividend - rest ∧ 0 ≤ rest ∧
      rest < 2 ^ 128 := by
  have positive : 0 < divisor.bits := lt_of_le_of_ne divisor.bits_nonneg (Ne.symm nonzero)
  have below := Int.emod_lt_of_pos dividend positive
  have range := UFixedPoint.bits_lt divisor
  refine ⟨dividend % divisor.bits, ?_, Int.emod_nonneg _ nonzero, by omega⟩
  have split := Int.mul_ediv_add_emod dividend divisor.bits
  omega

/-- However high the exchange rate has been driven, a deposit mints shares, and they are worth
the deposit or one atom less. -/
theorem deposit_survives_inflation (t t' : SharesTracker) (d : U64) (shares : UFixedPoint)
    (amount : 1 ≤ d.toNat)
    (success : (depositAtoms d).Succeeds t shares t') :
    shares.bits ≠ 0 ∧
      ∃ atoms, (withdrawShares shares .roundDown).Succeeds t' atoms t ∧
        (atoms.toNat = d.toNat ∨ atoms.toNat = d.toNat - 1) := by
  obtain ⟨converted, total, price⟩ := (depositAtoms_succeeds d t t' shares).mp success
  obtain ⟨nonzero, minted⟩ := (atomsToShares_ok t d shares).mp converted
  obtain ⟨rest, product, rest_nonneg, rest_lt⟩ :=
    quotient_shortfall (d.toNat * 2 ^ 128) t.atomsPerShare nonzero
  rw [minted, mul_comm] at product
  constructor
  · intro zero
    rw [zero, zero_mul] at product
    omega
  · have floor_range : 0 ≤ shares.bits * t.atomsPerShare.bits / 2 ^ 128 ∧
        shares.bits * t.atomsPerShare.bits / 2 ^ 128 ≤ d.toNat ∧
        (d.toNat : Int) - 1 ≤ shares.bits * t.atomsPerShare.bits / 2 ^ 128 := by
      omega
    have range := d.toNat_lt
    obtain ⟨atoms, atoms_eq⟩ := U64.exists_toNat (shares.bits * t.atomsPerShare.bits / 2 ^ 128)
      floor_range.1 (by omega)
    refine ⟨atoms, (withdrawShares_succeeds _ _ _ _ _).mpr ⟨?_, total, price.symm⟩, by omega⟩
    rw [sharesToAtoms_roundDown_ok, price]
    exact atoms_eq.symm

theorem deposit_survives_inflation_at_peak :
    ∃ t t' : SharesTracker, ∃ shares : UFixedPoint, t.atomsPerShare.bits = 2 ^ 128 - 1 ∧
      (depositAtoms 1).Succeeds t shares t' ∧ shares.bits ≠ 0 ∧
      ∃ atoms, (withdrawShares shares .roundDown).Succeeds t' atoms t ∧
        (atoms.toNat = (1 : U64).toNat ∨ atoms.toNat = (1 : U64).toNat - 1) := by
  have success : (depositAtoms 1).Succeeds ⟨Fixed.zero, ⟨2 ^ 128 - 1, by decide, by decide⟩⟩
      ⟨1, by decide, by decide⟩
      ⟨⟨1, by decide, by decide⟩, ⟨2 ^ 128 - 1, by decide, by decide⟩⟩ := by
    decide +kernel
  exact ⟨_, _, _, rfl, success, deposit_survives_inflation _ _ _ _ (by decide) success⟩

theorem donateAtoms_keepsOnFailure (a : U64) : (donateAtoms a).KeepsOnFailure := by
  refine Method.reads_self.bind fun self => ?_
  refine (Method.reads_rejectIf _ _).bind fun _ => ?_
  refine (Method.reads_lift _).bind fun added => ?_
  exact (Method.reads_lift _).bind fun price => Method.keepsOnFailure_assign _

theorem socializeLossAtoms_keepsOnFailure (a : U64) : (socializeLossAtoms a).KeepsOnFailure := by
  refine Method.reads_self.bind fun self => ?_
  refine (Method.reads_rejectIf _ _).bind fun _ => ?_
  refine (Method.reads_lift _).bind fun lost => ?_
  exact (Method.reads_lift _).bind fun price => Method.keepsOnFailure_assign _

theorem totalAtoms_roundDown_ok (t : SharesTracker) (atoms : U64) :
    t.totalAtoms .roundDown = .ok atoms ↔
      t.totalShares.bits * t.atomsPerShare.bits / 2 ^ 128 = atoms.toNat :=
  sharesToAtoms_roundDown_ok t t.totalShares atoms

theorem donateAtoms_succeeds_iff (t : SharesTracker) (a : U64) (nonempty : t.totalShares.bits ≠ 0) :
    (∃ t', (donateAtoms a).Succeeds t () t') ↔
      t.totalShares.bits * t.atomsPerShare.bits + a.toNat * 2 ^ 128 <
        t.totalShares.bits * 2 ^ 128 := by
  have positive : 0 < t.totalShares.bits :=
    lt_of_le_of_ne t.totalShares.bits_nonneg (Ne.symm nonempty)
  -- the raised rate fits exactly when the quotient is below the room left above the rate
  have fits : t.atomsPerShare.bits + a.toNat * 2 ^ 128 / t.totalShares.bits < 2 ^ 128 ↔
      t.totalShares.bits * t.atomsPerShare.bits + a.toNat * 2 ^ 128 <
        t.totalShares.bits * 2 ^ 128 := by
    rw [← lt_sub_iff_add_lt', Int.ediv_lt_iff_lt_mul positive, sub_mul, lt_sub_iff_add_lt',
      mul_comm t.atomsPerShare.bits, mul_comm (2 ^ 128 : Int) t.totalShares.bits]
  rw [← fits]
  simp only [donateAtoms_succeeds]
  constructor
  · rintro ⟨t', -, price, -⟩
    rw [← price]
    exact UFixedPoint.bits_lt _
  · intro room
    have added_nonneg : 0 ≤ a.toNat * 2 ^ 128 / t.totalShares.bits :=
      Int.ediv_nonneg (by positivity) positive.le
    obtain ⟨price, price_eq⟩ := UFixedPoint.exists_bits _
      (add_nonneg t.atomsPerShare.bits_nonneg added_nonneg) room
    exact ⟨⟨t.totalShares, price⟩, nonempty, price_eq, rfl⟩

theorem socializeLoss_of_donate {t t' : SharesTracker} {a : U64}
    (success : (donateAtoms a).Succeeds t () t') : (socializeLossAtoms a).Succeeds t' () t := by
  obtain ⟨nonempty, price, shares⟩ := (donateAtoms_succeeds a t t' ()).mp success
  rw [socializeLossAtoms_succeeds, shares]
  exact ⟨nonempty, price.symm, rfl⟩

theorem donate_of_socializeLoss {t t' : SharesTracker} {a : U64}
    (success : (socializeLossAtoms a).Succeeds t () t') : (donateAtoms a).Succeeds t' () t := by
  obtain ⟨nonempty, price, shares⟩ := (socializeLossAtoms_succeeds a t t' ()).mp success
  rw [donateAtoms_succeeds, shares]
  exact ⟨nonempty, price.symm, rfl⟩

theorem donate_exact {t t' : SharesTracker} {a : U64}
    (success : (donateAtoms a).Succeeds t () t') :
    ∃ rest, t'.totalShares.bits * t'.atomsPerShare.bits =
        t.totalShares.bits * t.atomsPerShare.bits + a.toNat * 2 ^ 128 - rest ∧
      0 ≤ rest ∧ rest < 2 ^ 128 := by
  obtain ⟨nonempty, price, shares⟩ := (donateAtoms_succeeds a t t' ()).mp success
  obtain ⟨rest, product, rest_range⟩ :=
    quotient_shortfall (a.toNat * 2 ^ 128) t.totalShares nonempty
  refine ⟨rest, ?_, rest_range⟩
  rw [shares, price, mul_add, product]
  omega

theorem donate_total {t t' : SharesTracker} {a : U64}
    (success : (donateAtoms a).Succeeds t () t') (before after : U64)
    (total : t.totalAtoms .roundDown = .ok before)
    (total' : t'.totalAtoms .roundDown = .ok after) :
    after.toNat = before.toNat + a.toNat ∨ after.toNat + 1 = before.toNat + a.toNat := by
  obtain ⟨rest, exact_eq, rest_nonneg, rest_lt⟩ := donate_exact success
  rw [totalAtoms_roundDown_ok] at total total'
  rw [exact_eq] at total'
  omega

theorem donate_total_exists {t t' : SharesTracker} {a : U64}
    (success : (donateAtoms a).Succeeds t () t') (before : U64)
    (total : t.totalAtoms .roundDown = .ok before) (room : before.toNat + a.toNat < 2 ^ 64) :
    ∃ after, t'.totalAtoms .roundDown = .ok after := by
  obtain ⟨rest, exact_eq, rest_nonneg, rest_lt⟩ := donate_exact success
  have nonneg : 0 ≤ t'.totalShares.bits * t'.atomsPerShare.bits :=
    mul_nonneg t'.totalShares.bits_nonneg t'.atomsPerShare.bits_nonneg
  rw [totalAtoms_roundDown_ok] at total
  obtain ⟨after, after_eq⟩ := U64.exists_toNat
    (t'.totalShares.bits * t'.atomsPerShare.bits / 2 ^ 128) (by omega) (by omega)
  exact ⟨after, (totalAtoms_roundDown_ok _ _).mpr after_eq.symm⟩

theorem socializeLoss_total_exists {t t' : SharesTracker} {a : U64}
    (success : (socializeLossAtoms a).Succeeds t () t') (before : U64)
    (total : t.totalAtoms .roundDown = .ok before) :
    ∃ after, t'.totalAtoms .roundDown = .ok after := by
  obtain ⟨-, price, shares⟩ := (socializeLossAtoms_succeeds a t t' ()).mp success
  have lost_nonneg : 0 ≤ a.toNat * 2 ^ 128 / t.totalShares.bits :=
    Int.ediv_nonneg (by positivity) t.totalShares.bits_nonneg
  have lowered : t'.totalShares.bits * t'.atomsPerShare.bits ≤
      t.totalShares.bits * t.atomsPerShare.bits := by
    rw [shares]
    exact mul_le_mul_of_nonneg_left (by omega) t.totalShares.bits_nonneg
  have nonneg : 0 ≤ t'.totalShares.bits * t'.atomsPerShare.bits :=
    mul_nonneg t'.totalShares.bits_nonneg t'.atomsPerShare.bits_nonneg
  have range := before.toNat_lt
  rw [totalAtoms_roundDown_ok] at total
  obtain ⟨after, after_eq⟩ := U64.exists_toNat
    (t'.totalShares.bits * t'.atomsPerShare.bits / 2 ^ 128) (by omega) (by omega)
  exact ⟨after, (totalAtoms_roundDown_ok _ _).mpr after_eq.symm⟩

/-- Donations and losses of one amount undo each other, and each moves the whole atoms of the
tracker by that amount or by one less. -/
theorem donation_and_loss_inverse (t : SharesTracker) (a : U64)
    (nonempty : t.totalShares.bits ≠ 0) :
    ((∃ t', (donateAtoms a).Succeeds t () t') ↔
      t.totalShares.bits * t.atomsPerShare.bits + a.toNat * 2 ^ 128 <
        t.totalShares.bits * 2 ^ 128) ∧
    (∀ t', (donateAtoms a).Succeeds t () t' →
      t'.totalShares = t.totalShares ∧ (socializeLossAtoms a).Succeeds t' () t ∧
      ∀ before, t.totalAtoms .roundDown = .ok before →
        (before.toNat + a.toNat < 2 ^ 64 → ∃ after, t'.totalAtoms .roundDown = .ok after) ∧
        ∀ after, t'.totalAtoms .roundDown = .ok after →
          after.toNat = before.toNat + a.toNat ∨ after.toNat + 1 = before.toNat + a.toNat) ∧
    (∀ t', (socializeLossAtoms a).Succeeds t () t' →
      t'.totalShares = t.totalShares ∧ (donateAtoms a).Succeeds t' () t ∧
      ∀ before, t.totalAtoms .roundDown = .ok before →
        ∃ after, t'.totalAtoms .roundDown = .ok after ∧
          (after.toNat + a.toNat = before.toNat ∨ after.toNat + a.toNat = before.toNat + 1)) ∧
    (donateAtoms a).KeepsOnFailure ∧ (socializeLossAtoms a).KeepsOnFailure := by
  refine ⟨donateAtoms_succeeds_iff t a nonempty, ?_, ?_, donateAtoms_keepsOnFailure a,
    socializeLossAtoms_keepsOnFailure a⟩
  · intro t' success
    have shares := ((donateAtoms_succeeds a t t' ()).mp success).2.2
    refine ⟨shares, socializeLoss_of_donate success, fun before total => ⟨?_, ?_⟩⟩
    · exact donate_total_exists success before total
    · exact fun after total' => donate_total success before after total total'
  · intro t' success
    have shares := ((socializeLossAtoms_succeeds a t t' ()).mp success).2.2
    have donated := donate_of_socializeLoss success
    refine ⟨shares, donated, fun before total => ?_⟩
    obtain ⟨after, total'⟩ := socializeLoss_total_exists success before total
    have moved := donate_total donated after before total' total
    exact ⟨after, total', by omega⟩

theorem donation_and_loss_inverse_whole_shares :
    (⟨Fixed.fromU64 3, Fixed.fromU64 1⟩ : SharesTracker).totalShares.bits ≠ 0 ∧
      ∃ t', (donateAtoms 5).Succeeds ⟨Fixed.fromU64 3, Fixed.fromU64 1⟩ () t' ∧
        (socializeLossAtoms 5).Succeeds t' () ⟨Fixed.fromU64 3, Fixed.fromU64 1⟩ := by
  have inverse :=
    donation_and_loss_inverse ⟨Fixed.fromU64 3, Fixed.fromU64 1⟩ 5 (by decide)
  obtain ⟨t', success⟩ := inverse.1.mpr (by decide +kernel)
  exact ⟨by decide, t', success, (inverse.2.1 t' success).2.1⟩

def thin : SharesTracker := ⟨⟨1, by decide, by decide⟩, Fixed.fromU64 1⟩

/-- Every total is far from its bound here, and two atoms are still refused: spread over a
single unit of shares they raise the rate past its format. -/
theorem donation_refused_with_room :
    ∃ whole : SharesTracker,
      (depositAtoms 1).Succeeds new (Fixed.fromU64 1) whole ∧
      (withdrawShares ⟨2 ^ 64 - 1, by decide, by decide⟩ .roundDown).Succeeds whole 0 thin ∧
      thin.totalShares.bits ≠ 0 ∧
      thin.totalAtoms .roundDown = .ok 0 ∧ (0 : U64).toNat + (2 : U64).toNat < 2 ^ 64 ∧
      (donateAtoms 2 thin).2 = thin ∧
      ∀ t', ¬ (donateAtoms 2).Succeeds thin () t' := by
  refine ⟨⟨Fixed.fromU64 1, Fixed.fromU64 1⟩, by decide +kernel, by decide +kernel, by decide,
    by decide +kernel, by decide, by decide +kernel, ?_⟩
  intro t' success
  have room := (donateAtoms_succeeds_iff thin 2 (by decide)).mp ⟨t', success⟩
  revert room
  decide +kernel

end SharesTracker

end AutaraLending
