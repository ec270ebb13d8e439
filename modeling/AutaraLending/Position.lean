import AutaraLending.Liquidation

/-! Supply and borrow positions. A position holds shares of a tracker of its market, and a
borrow position also holds collateral. -/

namespace AutaraLending

open Support

def proportionalAtoms (part whole : UFixedPoint) (atoms : U64) : LendingResult U64 := do
  let ratio ← part.safeDiv whole
  let product ← ratio.safeMulU64 atoms
  product.asU64RoundedDown

structure SupplyPosition where
  authority : Pubkey
  market : Pubkey
  depositedAtoms : U64
  shares : UFixedPoint
  deriving DecidableEq

namespace SupplyPosition

def new (authority market : Pubkey) : SupplyPosition := ⟨authority, market, 0, Fixed.zero⟩

def lend (atoms : U64) (shares : UFixedPoint) : LendingMethod SupplyPosition Unit := do
  let self ← Method.self
  let depositedAtoms ← Method.lift (self.depositedAtoms.safeAdd atoms)
  Method.assign { self with depositedAtoms }
  let total ← Method.lift (self.shares.safeAdd shares)
  Method.assign { self with depositedAtoms, shares := total }

def withdraw (shares : UFixedPoint) : LendingMethod SupplyPosition Unit := do
  let self ← Method.self
  Method.rejectIf (self.shares < shares) LendingError.withdrawalExceedsDeposited.into
  let adjustedAtoms ← Method.lift
    (if shares < self.shares then proportionalAtoms shares self.shares self.depositedAtoms
      else .ok self.depositedAtoms)
  let depositedAtoms ← Method.lift (self.depositedAtoms.safeSub adjustedAtoms)
  Method.assign { self with depositedAtoms }
  let remaining ← Method.lift (self.shares.safeSub shares)
  Method.assign { self with depositedAtoms, shares := remaining }

def withdrawAll : LendingMethod SupplyPosition Unit := do
  let self ← Method.self
  Method.assign { self with depositedAtoms := 0, shares := Fixed.zero }

theorem lend_succeeds (atoms : U64) (shares : UFixedPoint) (p p' : SupplyPosition) (u : Unit)
    (success : (lend atoms shares).Succeeds p u p') :
    p'.shares.bits = p.shares.bits + shares.bits := by
  simp only [lend, Method.succeeds_bind, Method.succeeds_self, Method.succeeds_lift,
    Method.succeeds_assign, Fixed.safeAdd_ok] at success
  obtain ⟨_, _, ⟨rfl, rfl⟩, deposited, _, ⟨-, rfl⟩, _, _, rfl, total, _, ⟨sum, rfl⟩, rfl⟩ := success
  exact sum.symm

theorem withdraw_succeeds (shares : UFixedPoint) (p p' : SupplyPosition) (u : Unit)
    (success : (withdraw shares).Succeeds p u p') :
    p.shares.bits = p'.shares.bits + shares.bits := by
  simp only [withdraw, Method.succeeds_bind, Method.succeeds_self, Method.succeeds_rejectIf,
    Method.succeeds_lift, Method.succeeds_assign, Fixed.safeSub_ok] at success
  obtain ⟨_, _, ⟨rfl, rfl⟩, _, _, ⟨-, rfl⟩, adjusted, _, ⟨-, rfl⟩, deposited, _, ⟨-, rfl⟩, _, _,
    rfl, remaining, _, ⟨difference, rfl⟩, rfl⟩ := success
  dsimp only
  omega

theorem withdrawAll_succeeds (p p' : SupplyPosition) (u : Unit) :
    withdrawAll.Succeeds p u p' ↔
      p' = { p with depositedAtoms := 0, shares := Fixed.zero } := by
  simp only [withdrawAll, Method.succeeds_bind, Method.succeeds_self, Method.succeeds_assign]
  constructor
  · rintro ⟨_, _, ⟨rfl, rfl⟩, rfl⟩
    rfl
  · rintro rfl
    exact ⟨p, p, ⟨rfl, rfl⟩, rfl⟩

end SupplyPosition

structure BorrowPosition where
  authority : Pubkey
  market : Pubkey
  collateralDepositedAtoms : U64
  initialBorrowedAtoms : U64
  borrowedShares : UFixedPoint
  sweptCollateralAtoms : U64
  deriving DecidableEq

namespace BorrowPosition

def initializePosition (authority market : Pubkey) : BorrowPosition :=
  ⟨authority, market, 0, 0, Fixed.zero, 0⟩

def capitalSweepPending (self : BorrowPosition) : Bool := self.sweptCollateralAtoms ≠ 0

def ensureCapitalSweepInactive (self : BorrowPosition) : LendingResult Unit :=
  if self.capitalSweepPending then .error LendingError.capitalSweepPending.into else .ok ()

def beginCapitalSweep : LendingMethod BorrowPosition U64 := do
  let self ← Method.self
  Method.lift self.ensureCapitalSweepInactive
  let sweptCollateralAtoms := self.collateralDepositedAtoms
  Method.assign { self with collateralDepositedAtoms := 0, sweptCollateralAtoms }
  pure sweptCollateralAtoms

def repayAll : LendingMethod BorrowPosition Unit := do
  let self ← Method.self
  Method.assign { self with initialBorrowedAtoms := 0, borrowedShares := Fixed.zero }

def repay (shares : UFixedPoint) : LendingMethod BorrowPosition Unit := do
  let self ← Method.self
  if shares < self.borrowedShares then do
    let adjustedAtoms ← Method.lift
      (proportionalAtoms shares self.borrowedShares self.initialBorrowedAtoms)
    let initialBorrowedAtoms ← Method.lift (self.initialBorrowedAtoms.safeSub adjustedAtoms)
    Method.assign { self with initialBorrowedAtoms }
    let borrowedShares ← Method.lift (self.borrowedShares.safeSub shares)
    Method.assign { self with initialBorrowedAtoms, borrowedShares }
  else if shares = self.borrowedShares then repayAll
  else Method.fail LendingError.repayExceedsBorrowed.into

def settleCapitalSweep (sharesRepaid : UFixedPoint) (collateralAtomsReturned : U64) :
    LendingMethod BorrowPosition Unit := do
  let self ← Method.self
  Method.rejectIf (self.capitalSweepPending = false) LendingError.noCapitalSweepPending.into
  repay sharesRepaid
  let self ← Method.self
  Method.assign
    { self with collateralDepositedAtoms := collateralAtomsReturned, sweptCollateralAtoms := 0 }

def depositCollateral (atoms : U64) : LendingMethod BorrowPosition Unit := do
  let self ← Method.self
  let collateralDepositedAtoms ← Method.lift (self.collateralDepositedAtoms.safeAdd atoms)
  Method.assign { self with collateralDepositedAtoms }

def withdrawCollateral (atoms : U64) : LendingMethod BorrowPosition Unit := do
  let self ← Method.self
  let collateralDepositedAtoms ← Method.lift
    (mapErr .withdrawalExceedsDeposited (self.collateralDepositedAtoms.safeSub atoms))
  Method.assign { self with collateralDepositedAtoms }

def borrow (atoms : U64) (shares : UFixedPoint) : LendingMethod BorrowPosition Unit := do
  let self ← Method.self
  let initialBorrowedAtoms ← Method.lift (self.initialBorrowedAtoms.safeAdd atoms)
  Method.assign { self with initialBorrowedAtoms }
  let borrowedShares ← Method.lift (self.borrowedShares.safeAdd shares)
  Method.assign { self with initialBorrowedAtoms, borrowedShares }

def liquidate (sharesLiquidated : UFixedPoint) (collateralAtomsLiquidated : U64) :
    LendingMethod BorrowPosition Unit := do
  repay sharesLiquidated
  let self ← Method.self
  let collateralDepositedAtoms ← Method.lift
    (self.collateralDepositedAtoms.safeSub collateralAtomsLiquidated)
  Method.assign { self with collateralDepositedAtoms }

theorem capitalSweepPending_false (self : BorrowPosition) :
    self.capitalSweepPending = false ↔ self.sweptCollateralAtoms = 0 := by
  simp [capitalSweepPending]

theorem ensureCapitalSweepInactive_ok (self : BorrowPosition) (u : Unit) :
    self.ensureCapitalSweepInactive = .ok u ↔ self.sweptCollateralAtoms = 0 := by
  unfold ensureCapitalSweepInactive capitalSweepPending
  by_cases pending : self.sweptCollateralAtoms = 0 <;> simp [pending]

theorem repayAll_succeeds (p p' : BorrowPosition) (u : Unit) :
    repayAll.Succeeds p u p' ↔
      p' = { p with initialBorrowedAtoms := 0, borrowedShares := Fixed.zero } := by
  simp only [repayAll, Method.succeeds_bind, Method.succeeds_self, Method.succeeds_assign]
  constructor
  · rintro ⟨_, _, ⟨rfl, rfl⟩, rfl⟩
    rfl
  · rintro rfl
    exact ⟨p, p, ⟨rfl, rfl⟩, rfl⟩

/-- What a repayment of `shares` leaves of a debt: its shares and its initial amount. -/
def DebtAfter (shares borrowed : UFixedPoint) (initial initial' : U64) (borrowed' : UFixedPoint) :
    Prop :=
  (shares < borrowed ∧ borrowed.bits - shares.bits = borrowed'.bits ∧
      ∃ adjusted, proportionalAtoms shares borrowed initial = .ok adjusted ∧
        adjusted.toNat + initial'.toNat = initial.toNat) ∨
    (shares = borrowed ∧ initial' = 0 ∧ borrowed' = Fixed.zero)

theorem DebtAfter.shares_eq {shares borrowed borrowed' : UFixedPoint} {initial initial' : U64}
    (debt : DebtAfter shares borrowed initial initial' borrowed') :
    borrowed.bits = borrowed'.bits + shares.bits := by
  rcases debt with ⟨-, difference, -⟩ | ⟨rfl, -, rfl⟩
  · omega
  · simp

theorem repay_succeeds (shares : UFixedPoint) (p p' : BorrowPosition) (u : Unit) :
    (repay shares).Succeeds p u p' ↔
      ∃ initial borrowed,
        DebtAfter shares p.borrowedShares p.initialBorrowedAtoms initial borrowed ∧
          p' = { p with initialBorrowedAtoms := initial, borrowedShares := borrowed } := by
  simp only [repay, Method.succeeds_bind, Method.succeeds_self, Method.succeeds_ite,
    Method.succeeds_lift, Method.succeeds_assign, Method.succeeds_fail, repayAll_succeeds,
    Fixed.safeSub_ok, U64.safeSub_ok, and_false, or_false]
  constructor
  · rintro ⟨_, _, ⟨rfl, rfl⟩,
      ⟨less, adjusted, _, ⟨proportional, rfl⟩, initial, _, ⟨reduced, rfl⟩, _, _, rfl, remaining, _,
        ⟨difference, rfl⟩, rfl⟩ | ⟨-, same, rfl⟩⟩
    · exact ⟨initial, remaining, Or.inl ⟨less, difference, adjusted, proportional, reduced⟩, rfl⟩
    · exact ⟨0, Fixed.zero, Or.inr ⟨same, rfl, rfl⟩, rfl⟩
  · rintro ⟨initial, remaining, ⟨less, difference, adjusted, proportional, reduced⟩ |
      ⟨same, rfl, rfl⟩, rfl⟩
    · exact ⟨p, p, ⟨rfl, rfl⟩, Or.inl ⟨less, adjusted, p, ⟨proportional, rfl⟩, initial, p,
        ⟨reduced, rfl⟩, (), _, rfl, remaining, _, ⟨difference, rfl⟩, rfl⟩⟩
    · refine ⟨p, p, ⟨rfl, rfl⟩, Or.inr ⟨?_, same, rfl⟩⟩
      rw [same, Fixed.lt_def]
      omega

theorem beginCapitalSweep_succeeds (p p' : BorrowPosition) (swept : U64) :
    beginCapitalSweep.Succeeds p swept p' ↔
      p.sweptCollateralAtoms = 0 ∧ swept = p.collateralDepositedAtoms ∧
        p' = { p with collateralDepositedAtoms := 0, sweptCollateralAtoms := swept } := by
  simp only [beginCapitalSweep, Method.succeeds_bind, Method.succeeds_self, Method.succeeds_lift,
    Method.succeeds_assign, Method.succeeds_pure, ensureCapitalSweepInactive_ok]
  constructor
  · rintro ⟨_, _, ⟨rfl, rfl⟩, _, _, ⟨inactive, rfl⟩, _, _, rfl, rfl, rfl⟩
    exact ⟨inactive, rfl, rfl⟩
  · rintro ⟨inactive, rfl, rfl⟩
    exact ⟨p, p, ⟨rfl, rfl⟩, (), p, ⟨inactive, rfl⟩, (), _, rfl, rfl, rfl⟩

theorem settleCapitalSweep_succeeds (shares : UFixedPoint) (returned : U64)
    (p p' : BorrowPosition) (u : Unit) :
    (settleCapitalSweep shares returned).Succeeds p u p' ↔
      p.sweptCollateralAtoms ≠ 0 ∧
        ∃ repaid, (repay shares).Succeeds p () repaid ∧
          p' = { repaid with collateralDepositedAtoms := returned, sweptCollateralAtoms := 0 } := by
  simp only [settleCapitalSweep, Method.succeeds_bind, Method.succeeds_self,
    Method.succeeds_rejectIf, Method.succeeds_assign, capitalSweepPending_false]
  constructor
  · rintro ⟨_, _, ⟨rfl, rfl⟩, _, _, ⟨pending, rfl⟩, _, repaid, repayment, _, _, ⟨rfl, rfl⟩, rfl⟩
    exact ⟨pending, _, repayment, rfl⟩
  · rintro ⟨pending, repaid, repayment, rfl⟩
    exact ⟨p, p, ⟨rfl, rfl⟩, (), p, ⟨pending, rfl⟩, (), repaid, repayment, repaid,
      repaid, ⟨rfl, rfl⟩, rfl⟩

theorem depositCollateral_succeeds (atoms : U64) (p p' : BorrowPosition) (u : Unit) :
    (depositCollateral atoms).Succeeds p u p' ↔
      ∃ collateral, p.collateralDepositedAtoms.toNat + atoms.toNat = collateral.toNat ∧
        p' = { p with collateralDepositedAtoms := collateral } := by
  simp only [depositCollateral, Method.succeeds_bind, Method.succeeds_self, Method.succeeds_lift,
    Method.succeeds_assign, U64.safeAdd_ok]
  constructor
  · rintro ⟨_, _, ⟨rfl, rfl⟩, collateral, _, ⟨sum, rfl⟩, rfl⟩
    exact ⟨collateral, sum, rfl⟩
  · rintro ⟨collateral, sum, rfl⟩
    exact ⟨p, p, ⟨rfl, rfl⟩, collateral, p, ⟨sum, rfl⟩, rfl⟩

theorem withdrawCollateral_succeeds (atoms : U64) (p p' : BorrowPosition) (u : Unit) :
    (withdrawCollateral atoms).Succeeds p u p' ↔
      ∃ collateral, atoms.toNat + collateral.toNat = p.collateralDepositedAtoms.toNat ∧
        p' = { p with collateralDepositedAtoms := collateral } := by
  simp only [withdrawCollateral, Method.succeeds_bind, Method.succeeds_self, Method.succeeds_lift,
    Method.succeeds_assign, mapErr_ok, U64.safeSub_ok]
  constructor
  · rintro ⟨_, _, ⟨rfl, rfl⟩, collateral, _, ⟨difference, rfl⟩, rfl⟩
    exact ⟨collateral, difference, rfl⟩
  · rintro ⟨collateral, difference, rfl⟩
    exact ⟨p, p, ⟨rfl, rfl⟩, collateral, p, ⟨difference, rfl⟩, rfl⟩

theorem borrow_succeeds (atoms : U64) (shares : UFixedPoint) (p p' : BorrowPosition) (u : Unit)
    (success : (borrow atoms shares).Succeeds p u p') :
    p'.borrowedShares.bits = p.borrowedShares.bits + shares.bits ∧
      p'.collateralDepositedAtoms = p.collateralDepositedAtoms ∧
      p'.sweptCollateralAtoms = p.sweptCollateralAtoms := by
  simp only [borrow, Method.succeeds_bind, Method.succeeds_self, Method.succeeds_lift,
    Method.succeeds_assign, Fixed.safeAdd_ok] at success
  obtain ⟨_, _, ⟨rfl, rfl⟩, initial, _, ⟨-, rfl⟩, _, _, rfl, total, _, ⟨sum, rfl⟩, rfl⟩ := success
  exact ⟨sum.symm, rfl, rfl⟩

theorem liquidate_succeeds (shares : UFixedPoint) (atoms : U64) (p p' : BorrowPosition) (u : Unit) :
    (liquidate shares atoms).Succeeds p u p' ↔
      ∃ repaid collateral, (repay shares).Succeeds p () repaid ∧
        atoms.toNat + collateral.toNat = repaid.collateralDepositedAtoms.toNat ∧
        p' = { repaid with collateralDepositedAtoms := collateral } := by
  simp only [liquidate, Method.succeeds_bind, Method.succeeds_self, Method.succeeds_lift,
    Method.succeeds_assign, U64.safeSub_ok]
  constructor
  · rintro ⟨_, repaid, repayment, _, _, ⟨rfl, rfl⟩, collateral, _, ⟨difference, rfl⟩, rfl⟩
    exact ⟨_, collateral, repayment, difference, rfl⟩
  · rintro ⟨repaid, collateral, repayment, difference, rfl⟩
    exact ⟨(), repaid, repayment, repaid, repaid, ⟨rfl, rfl⟩, collateral, repaid,
      ⟨difference, rfl⟩, rfl⟩

end BorrowPosition

structure BorrowPositionHealth where
  ltv : IFixedPoint
  borrowedAtoms : U64
  collateralAtoms : U64
  borrowValue : IFixedPoint
  collateralValue : IFixedPoint
  deriving DecidableEq

structure LiquidationResultWithCtx where
  liquidationResultWithBonus : LiquidationResultWithBonus
  healthBeforeLiquidation : BorrowPositionHealth
  healthAfterLiquidation : BorrowPositionHealth
  deriving DecidableEq

structure CapitalSweepSettlementResult where
  liquidationResultWithBonus : LiquidationResultWithBonus
  healthBeforeSettlement : BorrowPositionHealth
  healthAfterSettlement : BorrowPositionHealth
  collateralAtomsReturned : U64
  deriving DecidableEq

end AutaraLending
