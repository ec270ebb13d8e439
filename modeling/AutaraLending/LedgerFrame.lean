import AutaraLending.Effect
import AutaraLending.LendingAccounts
import AutaraLending.Support.Framing

/-! What the operations of a market leave alone: the owner of a position, what the market is, and
the count of its whitelist, which they do not see either. -/

namespace AutaraLending

open Support

section Ownership

variable {authority market : Pubkey}

/-- The position is the authority's and the market's. -/
def OwnedBy {T : Type} [UserPosition T] (authority market : Pubkey) (position : T) : Prop :=
  UserPosition.authority position = authority ∧ UserPosition.market position = market

theorem SupplyPosition.lend_owner (atoms : U64) (shares : UFixedPoint) :
    Method.Maintains (OwnedBy authority market) (lend atoms shares) := by
  refine Method.maintains_self_bind fun p owned => ?_
  refine .bind (Method.maintains_lift _) fun _ => .bind (Method.maintains_assign owned) fun _ => ?_
  exact .bind (Method.maintains_lift _) fun _ => Method.maintains_assign owned

theorem SupplyPosition.withdraw_owner (shares : UFixedPoint) :
    Method.Maintains (OwnedBy authority market) (withdraw shares) := by
  refine Method.maintains_self_bind fun p owned => ?_
  refine .bind (Method.maintains_rejectIf _ _) fun _ => .bind (Method.maintains_lift _) fun _ => ?_
  refine .bind (Method.maintains_lift _) fun _ => .bind (Method.maintains_assign owned) fun _ => ?_
  exact .bind (Method.maintains_lift _) fun _ => Method.maintains_assign owned

theorem SupplyPosition.withdrawAll_owner :
    Method.Maintains (OwnedBy authority market) withdrawAll :=
  Method.maintains_self_bind fun _ owned => Method.maintains_assign owned

namespace BorrowPosition

theorem beginCapitalSweep_owner :
    Method.Maintains (OwnedBy authority market) beginCapitalSweep := by
  refine Method.maintains_self_bind fun p owned => .bind (Method.maintains_lift _) fun _ => ?_
  exact .bind (Method.maintains_assign owned) fun _ => Method.maintains_pure _

theorem repayAll_owner : Method.Maintains (OwnedBy authority market) repayAll :=
  Method.maintains_self_bind fun _ owned => Method.maintains_assign owned

theorem repay_owner (shares : UFixedPoint) :
    Method.Maintains (OwnedBy authority market) (repay shares) := by
  refine Method.maintains_self_bind fun p owned => .ite ?_ (.ite repayAll_owner ?_)
  · refine .bind (Method.maintains_lift _) fun _ => .bind (Method.maintains_lift _) fun _ => ?_
    refine .bind (Method.maintains_assign owned) fun _ => ?_
    exact .bind (Method.maintains_lift _) fun _ => Method.maintains_assign owned
  · exact Method.maintains_fail _

theorem settleCapitalSweep_owner (sharesRepaid : UFixedPoint) (collateralAtomsReturned : U64) :
    Method.Maintains (OwnedBy authority market)
      (settleCapitalSweep sharesRepaid collateralAtomsReturned) := by
  refine Method.maintains_self_bind fun _ _ => .bind (Method.maintains_rejectIf _ _) fun _ => ?_
  refine .bind (repay_owner _) fun _ => ?_
  exact Method.maintains_self_bind fun _ owned => Method.maintains_assign owned

theorem depositCollateral_owner (atoms : U64) :
    Method.Maintains (OwnedBy authority market) (depositCollateral atoms) :=
  Method.maintains_self_bind fun _ owned =>
    .bind (Method.maintains_lift _) fun _ => Method.maintains_assign owned

theorem withdrawCollateral_owner (atoms : U64) :
    Method.Maintains (OwnedBy authority market) (withdrawCollateral atoms) :=
  Method.maintains_self_bind fun _ owned =>
    .bind (Method.maintains_lift _) fun _ => Method.maintains_assign owned

theorem borrow_owner (atoms : U64) (shares : UFixedPoint) :
    Method.Maintains (OwnedBy authority market) (borrow atoms shares) := by
  refine Method.maintains_self_bind fun p owned => .bind (Method.maintains_lift _) fun _ => ?_
  refine .bind (Method.maintains_assign owned) fun _ => ?_
  exact .bind (Method.maintains_lift _) fun _ => Method.maintains_assign owned

theorem liquidate_owner (sharesLiquidated : UFixedPoint) (collateralAtomsLiquidated : U64) :
    Method.Maintains (OwnedBy authority market)
      (liquidate sharesLiquidated collateralAtomsLiquidated) := by
  refine .bind (repay_owner _) fun _ => Method.maintains_self_bind fun _ owned => ?_
  exact .bind (Method.maintains_lift _) fun _ => Method.maintains_assign owned

end BorrowPosition

namespace MarketWith

def PositionOwnedBy {T : Type} [UserPosition T] (authority market : Pubkey) (s : MarketWith T) :
    Prop :=
  OwnedBy authority market s.position

variable {T α : Type} [UserPosition T]

theorem onMarket_owner (m : LendingMethod Market α) :
    Method.Maintains (PositionOwnedBy (T := T) authority market) (onMarket m) :=
  Method.maintains_zoom fun _ _ owned => owned

theorem onPosition_owner {m : LendingMethod T α}
    (maintains : Method.Maintains (OwnedBy authority market) m) :
    Method.Maintains (PositionOwnedBy authority market) (onPosition m) :=
  maintains.zoom (fun _ owned => owned) (fun _ _ _ owned => owned)

theorem ensureCapitalSweepInactive_owner :
    Method.Maintains (PositionOwnedBy authority market) ensureCapitalSweepInactive :=
  Method.maintains_self_bind fun _ _ => Method.maintains_lift _

theorem lend_owner (atoms : U64) :
    Method.Maintains (PositionOwnedBy authority market) (lend atoms) := by
  refine .bind (onMarket_owner _) fun _ => ?_
  refine .bind (onPosition_owner (SupplyPosition.lend_owner _ _)) fun _ => ?_
  refine Method.maintains_self_bind fun _ _ => .bind (Method.maintains_lift _) fun _ => ?_
  exact Method.maintains_rejectIf _ _

theorem withdraw_owner (atoms : U64) :
    Method.Maintains (PositionOwnedBy authority market) (withdraw atoms) := by
  refine .bind (onMarket_owner _) fun _ => .bind (onMarket_owner _) fun _ => ?_
  exact onPosition_owner (SupplyPosition.withdraw_owner _)

theorem withdrawAll_owner : Method.Maintains (PositionOwnedBy authority market) withdrawAll := by
  refine Method.maintains_self_bind fun _ _ => .bind (onMarket_owner _) fun _ => ?_
  refine .bind (onMarket_owner _) fun _ => ?_
  exact .bind (onPosition_owner SupplyPosition.withdrawAll_owner) fun _ => Method.maintains_pure _

theorem depositCollateral_owner (atoms : U64) :
    Method.Maintains (PositionOwnedBy authority market) (depositCollateral atoms) := by
  refine .bind ensureCapitalSweepInactive_owner fun _ => ?_
  exact .bind (onPosition_owner (BorrowPosition.depositCollateral_owner _)) fun _ =>
    onMarket_owner _

theorem withdrawCollateral_owner (atoms : U64) (collateralOracle supplyOracle : OracleRate) :
    Method.Maintains (PositionOwnedBy authority market)
      (withdrawCollateral atoms collateralOracle supplyOracle) := by
  refine .bind ensureCapitalSweepInactive_owner fun _ => ?_
  refine .bind (onPosition_owner (BorrowPosition.withdrawCollateral_owner _)) fun _ => ?_
  refine Method.maintains_self_bind fun _ _ => .bind (Method.maintains_rejectIf _ _) fun _ => ?_
  refine .bind (Method.maintains_lift _) fun _ => .bind (onMarket_owner _) fun _ => ?_
  exact Method.maintains_lift _

theorem borrow_owner (borrowAtoms : U64) (supplyOracle collateralOracle : OracleRate) :
    Method.Maintains (PositionOwnedBy authority market)
      (borrow borrowAtoms supplyOracle collateralOracle) := by
  refine .bind ensureCapitalSweepInactive_owner fun _ => .bind (onMarket_owner _) fun _ => ?_
  refine .bind (onPosition_owner (BorrowPosition.borrow_owner _ _)) fun _ => ?_
  refine Method.maintains_self_bind fun _ _ => .bind (Method.maintains_lift _) fun _ => ?_
  refine .bind (Method.maintains_lift _) fun _ => .bind (Method.maintains_lift _) fun _ => ?_
  exact Method.maintains_rejectIf _ _

theorem repay_owner (atoms : U64) :
    Method.Maintains (PositionOwnedBy authority market) (repay atoms) := by
  refine .bind ensureCapitalSweepInactive_owner fun _ => .bind (onMarket_owner _) fun _ => ?_
  exact onPosition_owner (BorrowPosition.repay_owner _)

theorem repayAll_owner : Method.Maintains (PositionOwnedBy authority market) repayAll := by
  refine .bind ensureCapitalSweepInactive_owner fun _ => Method.maintains_self_bind fun _ _ => ?_
  refine .bind (onMarket_owner _) fun _ => ?_
  exact .bind (onPosition_owner BorrowPosition.repayAll_owner) fun _ => Method.maintains_pure _

theorem ensureLtvDecreased_owner (healthBefore : BorrowPositionHealth)
    (collateralOracle supplyOracle : OracleRate) :
    Method.Maintains (PositionOwnedBy authority market)
      (ensureLtvDecreased healthBefore collateralOracle supplyOracle) := by
  refine Method.maintains_self_bind fun _ _ => .bind (Method.maintains_lift _) fun _ => ?_
  exact .bind (Method.maintains_rejectIf _ _) fun _ => Method.maintains_pure _

theorem liquidate_owner (collateralOracle supplyOracle : OracleRate) (maxRepayAtoms : U64) :
    Method.Maintains (PositionOwnedBy authority market)
      (liquidate collateralOracle supplyOracle maxRepayAtoms) := by
  refine .bind ensureCapitalSweepInactive_owner fun _ => Method.maintains_self_bind fun _ _ => ?_
  refine .bind (Method.maintains_lift _) fun _ => .bind (onMarket_owner _) fun _ => ?_
  refine .bind (Method.maintains_lift _) fun _ => ?_
  refine .bind (onPosition_owner (BorrowPosition.liquidate_owner _ _)) fun _ => ?_
  refine .bind (onMarket_owner _) fun _ => .bind (ensureLtvDecreased_owner _ _ _) fun _ => ?_
  exact Method.maintains_pure _

theorem beginCapitalSweep_owner (collateralOracle supplyOracle : OracleRate) :
    Method.Maintains (PositionOwnedBy authority market)
      (beginCapitalSweep collateralOracle supplyOracle) := by
  refine .bind ensureCapitalSweepInactive_owner fun _ => Method.maintains_self_bind fun _ _ => ?_
  refine .bind (Method.maintains_lift _) fun _ => .bind (Method.maintains_rejectIf _ _) fun _ => ?_
  refine .bind (Method.maintains_rejectIf _ _) fun _ => ?_
  refine .bind (onPosition_owner BorrowPosition.beginCapitalSweep_owner) fun _ => ?_
  exact .bind (onMarket_owner _) fun _ => Method.maintains_pure _

theorem settleCapitalSweep_owner (collateralOracle supplyOracle : OracleRate)
    (maxRepayAtoms maxCollateralAtomsToReturn : U64) :
    Method.Maintains (PositionOwnedBy authority market)
      (settleCapitalSweep collateralOracle supplyOracle maxRepayAtoms
        maxCollateralAtomsToReturn) := by
  refine Method.maintains_self_bind fun _ _ => .bind (Method.maintains_rejectIf _ _) fun _ => ?_
  refine .bind (Method.maintains_lift _) fun _ => .bind (Method.maintains_lift _) fun _ => ?_
  refine .bind (Method.maintains_lift _) fun _ => .bind (onMarket_owner _) fun _ => ?_
  refine .bind (Method.maintains_lift _) fun _ => ?_
  refine .bind (onPosition_owner (BorrowPosition.settleCapitalSweep_owner _ _)) fun _ => ?_
  refine .bind (onMarket_owner _) fun _ => .bind (ensureLtvDecreased_owner _ _ _) fun _ => ?_
  exact Method.maintains_pure _

theorem socializeLoss_owner (collateralOracle supplyOracle : OracleRate) :
    Method.Maintains (PositionOwnedBy authority market)
      (socializeLoss collateralOracle supplyOracle) := by
  refine .bind ensureCapitalSweepInactive_owner fun _ => Method.maintains_self_bind fun _ _ => ?_
  refine .bind (Method.maintains_lift _) fun _ => .bind (Method.maintains_rejectIf _ _) fun _ => ?_
  refine .bind (onMarket_owner _) fun _ => ?_
  refine .bind (onPosition_owner BorrowPosition.repayAll_owner) fun _ => ?_
  refine .bind (onPosition_owner (BorrowPosition.withdrawCollateral_owner _)) fun _ => ?_
  exact .bind (onMarket_owner _) fun _ => Method.maintains_pure _

end MarketWith

theorem SupplyAction.execute_owner (action : SupplyAction) :
    Method.Maintains (MarketWith.PositionOwnedBy authority market) action.execute := by
  cases action with
  | lend atoms => exact .bind (MarketWith.lend_owner _) fun _ => Method.maintains_pure _
  | withdraw atoms => exact .bind (MarketWith.withdraw_owner _) fun _ => Method.maintains_pure _
  | withdrawAll => exact .bind MarketWith.withdrawAll_owner fun _ => Method.maintains_pure _

theorem BorrowAction.execute_owner (action : BorrowAction) :
    Method.Maintains (MarketWith.PositionOwnedBy authority market) action.execute := by
  cases action with
  | depositCollateral atoms =>
      exact .bind (MarketWith.depositCollateral_owner _) fun _ => Method.maintains_pure _
  | withdrawCollateral atoms collateralOracle supplyOracle =>
      exact .bind (MarketWith.withdrawCollateral_owner _ _ _) fun _ => Method.maintains_pure _
  | borrow borrowAtoms supplyOracle collateralOracle =>
      exact .bind (MarketWith.borrow_owner _ _ _) fun _ => Method.maintains_pure _
  | repay atoms => exact .bind (MarketWith.repay_owner _) fun _ => Method.maintains_pure _
  | repayAll => exact .bind MarketWith.repayAll_owner fun _ => Method.maintains_pure _
  | liquidate collateralOracle supplyOracle maxRepayAtoms =>
      exact .bind (MarketWith.liquidate_owner _ _ _) fun _ => Method.maintains_pure _
  | beginCapitalSweep collateralOracle supplyOracle =>
      exact .bind (MarketWith.beginCapitalSweep_owner _ _) fun _ => Method.maintains_pure _
  | settleCapitalSweep collateralOracle supplyOracle maxRepayAtoms maxCollateralAtomsToReturn =>
      exact .bind (MarketWith.settleCapitalSweep_owner _ _ _ _) fun _ => Method.maintains_pure _
  | socializeLoss collateralOracle supplyOracle =>
      exact .bind (MarketWith.socializeLoss_owner _ _) fun _ => Method.maintains_pure _

end Ownership

/-! Of the configuration of a market the operations read everything but the count of its
whitelist. -/

def MarketConfig.withoutWhitelist (self : MarketConfig) : MarketConfig :=
  { self with activeWhitelistedLiquidators := 0 }

def Market.withoutWhitelist (self : Market) : Market :=
  { self with config := self.config.withoutWhitelist }

def MarketWith.withoutWhitelist {π : Type} (self : MarketWith π) : MarketWith π :=
  { self with market := self.market.withoutWhitelist }

namespace Market

def Blind {α : Type} (m : LendingMethod Market α) : Prop := Method.Simulates withoutWhitelist m m

variable {α : Type}

theorem onSupplyVault_blind (m : LendingMethod SupplyVault α) : Blind (onSupplyVault m) :=
  Method.simulates_zoom (fun _ => rfl) (fun _ _ => rfl)

theorem onCollateralVault_blind (m : LendingMethod CollateralVault α) :
    Blind (onCollateralVault m) :=
  Method.simulates_zoom (fun _ => rfl) (fun _ _ => rfl)

theorem onConfig_blind {m : LendingMethod MarketConfig α}
    (simulates : Method.Simulates MarketConfig.withoutWhitelist m m) : Blind (onConfig m) :=
  simulates.zoom (fun _ => rfl) (fun _ _ => rfl)

theorem syncClock_blind (unixTimestamp : Int64) : Blind (syncClock unixTimestamp) :=
  Method.simulates_self_bind fun _ => onSupplyVault_blind _

theorem rejectOverdrawn_blind (failure : Failure) : Blind (rejectOverdrawn failure) :=
  Method.simulates_self_bind fun _ =>
    .bind (Method.simulates_lift _) fun _ => Method.simulates_rejectIf _ _

end Market

namespace MarketConfig

theorem syncGlobalConfig_blind (globalConfig : GlobalConfig) :
    Method.Simulates withoutWhitelist (syncGlobalConfig globalConfig)
      (syncGlobalConfig globalConfig) :=
  Method.simulates_self_bind fun _ => Method.simulates_assign _

theorem updateMaxSupplyAtoms_blind (maxSupplyAtoms : U64) :
    Method.Simulates withoutWhitelist (updateMaxSupplyAtoms maxSupplyAtoms)
      (updateMaxSupplyAtoms maxSupplyAtoms) :=
  Method.simulates_self_bind fun _ => Method.simulates_assign _

theorem setLendingMarketFee_blind (fee : UInt16) :
    Method.Simulates withoutWhitelist (setLendingMarketFee fee) (setLendingMarketFee fee) :=
  .bind (Method.simulates_rejectIf _ _) fun _ =>
    Method.simulates_self_bind fun _ => Method.simulates_assign _

theorem updateMaxUtilisationRate_blind (rate : IFixedPoint) :
    Method.Simulates withoutWhitelist (updateMaxUtilisationRate rate)
      (updateMaxUtilisationRate rate) :=
  .bind (Method.simulates_rejectIf _ _) fun _ =>
    Method.simulates_self_bind fun _ => Method.simulates_assign _

theorem updateLtv_blind (ltvConfig : LtvConfig) :
    Method.Simulates withoutWhitelist (updateLtv ltvConfig) (updateLtv ltvConfig) := by
  refine Method.simulates_self_bind fun c => .bind (Method.simulates_rejectIf _ _) fun _ => ?_
  refine .bind (Method.simulates_rejectIf _ _) fun _ => ?_
  refine .bind (Method.simulates_rejectIf _ _) fun _ => ?_
  refine .bind (Method.simulates_rejectIf _ _) fun _ => ?_
  refine .bind (Method.simulates_lift _) fun _ => .bind (Method.simulates_lift _) fun _ => ?_
  exact .bind (Method.simulates_rejectIf _ _) fun _ => Method.simulates_assign _

end MarketConfig

theorem withoutTransfer_blind {σ : Type} {view : σ → σ} {m : LendingMethod σ Unit}
    (simulates : Method.Simulates view m m) :
    Method.Simulates view (withoutTransfer m) (withoutTransfer m) :=
  simulates.bind fun _ => Method.simulates_pure _

theorem MarketAction.execute_blind (action : MarketAction) : Market.Blind action.execute := by
  cases action with
  | donateSupplyAtoms atoms =>
      exact .bind (Market.onSupplyVault_blind _) fun _ => Method.simulates_pure _
  | syncClock unixTimestamp => exact withoutTransfer_blind (Market.syncClock_blind _)
  | redeemProtocolFees =>
      refine .bind (.bind (Market.onSupplyVault_blind _) fun _ => ?_) fun _ =>
        Method.simulates_pure _
      exact .bind (Market.rejectOverdrawn_blind _) fun _ => Method.simulates_pure _
  | redeemCuratorFess =>
      refine .bind (.bind (Market.onSupplyVault_blind _) fun _ => ?_) fun _ =>
        Method.simulates_pure _
      exact .bind (Market.rejectOverdrawn_blind _) fun _ => Method.simulates_pure _
  | updateLtv ltvConfig =>
      exact withoutTransfer_blind (Market.onConfig_blind (MarketConfig.updateLtv_blind _))
  | updateMaxUtilisationRate rate =>
      exact withoutTransfer_blind
        (Market.onConfig_blind (MarketConfig.updateMaxUtilisationRate_blind _))
  | updateMaxSupplyAtoms maxSupplyAtoms =>
      exact withoutTransfer_blind
        (Market.onConfig_blind (MarketConfig.updateMaxSupplyAtoms_blind _))
  | setLendingMarketFee lendingMarketFeeInBps =>
      exact withoutTransfer_blind
        (Market.onConfig_blind (MarketConfig.setLendingMarketFee_blind _))
  | syncGlobalConfig globalConfig =>
      exact withoutTransfer_blind (Market.onConfig_blind (MarketConfig.syncGlobalConfig_blind _))
  | setSupplyOracleConfig oracleConfig =>
      exact withoutTransfer_blind
        (.bind (Method.simulates_lift _) fun _ => Market.onSupplyVault_blind _)
  | setCollateralOracleConfig oracleConfig =>
      exact withoutTransfer_blind
        (.bind (Method.simulates_lift _) fun _ => Market.onCollateralVault_blind _)

namespace MarketWith

variable {π α : Type}

def Blind (m : LendingMethod (MarketWith π) α) : Prop := Method.Simulates withoutWhitelist m m

theorem onMarket_blind {m : LendingMethod Market α} (blind : Market.Blind m) :
    Blind (π := π) (onMarket m) :=
  blind.zoom (fun _ => rfl) (fun _ _ => rfl)

theorem onPosition_blind (m : LendingMethod π α) : Blind (onPosition m) :=
  Method.simulates_zoom (fun _ => rfl) (fun _ _ => rfl)

theorem onSupplyVault_blind (m : LendingMethod SupplyVault α) :
    Blind (π := π) (onMarket (Market.onSupplyVault m)) :=
  onMarket_blind (Market.onSupplyVault_blind m)

theorem onCollateralVault_blind (m : LendingMethod CollateralVault α) :
    Blind (π := π) (onMarket (Market.onCollateralVault m)) :=
  onMarket_blind (Market.onCollateralVault_blind m)

theorem lend_blind (atoms : U64) : Blind (lend atoms) := by
  refine .bind (onSupplyVault_blind _) fun _ => .bind (onPosition_blind _) fun _ => ?_
  refine Method.simulates_self_bind fun _ => .bind (Method.simulates_lift _) fun _ => ?_
  exact Method.simulates_rejectIf _ _

theorem withdraw_blind (atoms : U64) : Blind (withdraw atoms) := by
  refine .bind (onSupplyVault_blind _) fun _ => ?_
  exact .bind (onMarket_blind (Market.rejectOverdrawn_blind _)) fun _ => onPosition_blind _

theorem withdrawAll_blind : Blind withdrawAll := by
  refine Method.simulates_self_bind fun _ => .bind (onSupplyVault_blind _) fun _ => ?_
  refine .bind (onMarket_blind (Market.rejectOverdrawn_blind _)) fun _ => ?_
  exact .bind (onPosition_blind _) fun _ => Method.simulates_pure _

theorem ensureCapitalSweepInactive_blind : Blind ensureCapitalSweepInactive :=
  Method.simulates_self_bind fun _ => Method.simulates_lift _

theorem depositCollateral_blind (atoms : U64) : Blind (depositCollateral atoms) := by
  refine .bind ensureCapitalSweepInactive_blind fun _ => ?_
  exact .bind (onPosition_blind _) fun _ => onCollateralVault_blind _

theorem withdrawCollateral_blind (atoms : U64) (collateralOracle supplyOracle : OracleRate) :
    Blind (withdrawCollateral atoms collateralOracle supplyOracle) := by
  refine .bind ensureCapitalSweepInactive_blind fun _ => .bind (onPosition_blind _) fun _ => ?_
  refine Method.simulates_self_bind fun _ => .bind (Method.simulates_rejectIf _ _) fun _ => ?_
  refine .bind (Method.simulates_lift _) fun _ => .bind (onCollateralVault_blind _) fun _ => ?_
  exact Method.simulates_lift _

theorem borrow_blind (borrowAtoms : U64) (supplyOracle collateralOracle : OracleRate) :
    Blind (borrow borrowAtoms supplyOracle collateralOracle) := by
  refine .bind ensureCapitalSweepInactive_blind fun _ => .bind (onSupplyVault_blind _) fun _ => ?_
  refine .bind (onPosition_blind _) fun _ => Method.simulates_self_bind fun _ => ?_
  refine .bind (Method.simulates_lift _) fun _ => .bind (Method.simulates_lift _) fun _ => ?_
  exact .bind (Method.simulates_lift _) fun _ => Method.simulates_rejectIf _ _

theorem repay_blind (atoms : U64) : Blind (repay atoms) := by
  refine .bind ensureCapitalSweepInactive_blind fun _ => ?_
  exact .bind (onSupplyVault_blind _) fun _ => onPosition_blind _

theorem repayAll_blind : Blind repayAll := by
  refine .bind ensureCapitalSweepInactive_blind fun _ => Method.simulates_self_bind fun _ => ?_
  refine .bind (onSupplyVault_blind _) fun _ => .bind (onPosition_blind _) fun _ => ?_
  exact Method.simulates_pure _

theorem ensureLtvDecreased_blind (healthBefore : BorrowPositionHealth)
    (collateralOracle supplyOracle : OracleRate) :
    Blind (ensureLtvDecreased healthBefore collateralOracle supplyOracle) := by
  refine Method.simulates_self_bind fun _ => .bind (Method.simulates_lift _) fun _ => ?_
  exact .bind (Method.simulates_rejectIf _ _) fun _ => Method.simulates_pure _

theorem liquidate_blind (collateralOracle supplyOracle : OracleRate) (maxRepayAtoms : U64) :
    Blind (liquidate collateralOracle supplyOracle maxRepayAtoms) := by
  refine .bind ensureCapitalSweepInactive_blind fun _ => Method.simulates_self_bind fun _ => ?_
  refine .bind (Method.simulates_lift _) fun _ => .bind (onSupplyVault_blind _) fun _ => ?_
  refine .bind (Method.simulates_lift _) fun _ => .bind (onPosition_blind _) fun _ => ?_
  refine .bind (onCollateralVault_blind _) fun _ => ?_
  exact .bind (ensureLtvDecreased_blind _ _ _) fun _ => Method.simulates_pure _

theorem beginCapitalSweep_blind (collateralOracle supplyOracle : OracleRate) :
    Blind (beginCapitalSweep collateralOracle supplyOracle) := by
  refine .bind ensureCapitalSweepInactive_blind fun _ => Method.simulates_self_bind fun _ => ?_
  refine .bind (Method.simulates_lift _) fun _ => .bind (Method.simulates_rejectIf _ _) fun _ => ?_
  refine .bind (Method.simulates_rejectIf _ _) fun _ => .bind (onPosition_blind _) fun _ => ?_
  exact .bind (onCollateralVault_blind _) fun _ => Method.simulates_pure _

theorem settleCapitalSweep_blind (collateralOracle supplyOracle : OracleRate)
    (maxRepayAtoms maxCollateralAtomsToReturn : U64) :
    Blind (settleCapitalSweep collateralOracle supplyOracle maxRepayAtoms
      maxCollateralAtomsToReturn) := by
  refine Method.simulates_self_bind fun _ => .bind (Method.simulates_rejectIf _ _) fun _ => ?_
  refine .bind (Method.simulates_lift _) fun _ => .bind (Method.simulates_lift _) fun _ => ?_
  refine .bind (Method.simulates_lift _) fun _ => .bind (onSupplyVault_blind _) fun _ => ?_
  refine .bind (Method.simulates_lift _) fun _ => .bind (onPosition_blind _) fun _ => ?_
  refine .bind (onCollateralVault_blind _) fun _ => ?_
  exact .bind (ensureLtvDecreased_blind _ _ _) fun _ => Method.simulates_pure _

theorem socializeLoss_blind (collateralOracle supplyOracle : OracleRate) :
    Blind (socializeLoss collateralOracle supplyOracle) := by
  refine .bind ensureCapitalSweepInactive_blind fun _ => Method.simulates_self_bind fun _ => ?_
  refine .bind (Method.simulates_lift _) fun _ => .bind (Method.simulates_rejectIf _ _) fun _ => ?_
  refine .bind (onSupplyVault_blind _) fun _ => .bind (onPosition_blind _) fun _ => ?_
  refine .bind (onPosition_blind _) fun _ => .bind (onCollateralVault_blind _) fun _ => ?_
  exact Method.simulates_pure _

end MarketWith

theorem SupplyAction.execute_blind (action : SupplyAction) : MarketWith.Blind action.execute := by
  cases action with
  | lend atoms => exact .bind (MarketWith.lend_blind _) fun _ => Method.simulates_pure _
  | withdraw atoms => exact .bind (MarketWith.withdraw_blind _) fun _ => Method.simulates_pure _
  | withdrawAll => exact .bind MarketWith.withdrawAll_blind fun _ => Method.simulates_pure _

theorem BorrowAction.execute_blind (action : BorrowAction) : MarketWith.Blind action.execute := by
  cases action with
  | depositCollateral atoms =>
      exact .bind (MarketWith.depositCollateral_blind _) fun _ => Method.simulates_pure _
  | withdrawCollateral atoms collateralOracle supplyOracle =>
      exact .bind (MarketWith.withdrawCollateral_blind _ _ _) fun _ => Method.simulates_pure _
  | borrow borrowAtoms supplyOracle collateralOracle =>
      exact .bind (MarketWith.borrow_blind _ _ _) fun _ => Method.simulates_pure _
  | repay atoms => exact .bind (MarketWith.repay_blind _) fun _ => Method.simulates_pure _
  | repayAll => exact .bind MarketWith.repayAll_blind fun _ => Method.simulates_pure _
  | liquidate collateralOracle supplyOracle maxRepayAtoms =>
      exact .bind (MarketWith.liquidate_blind _ _ _) fun _ => Method.simulates_pure _
  | beginCapitalSweep collateralOracle supplyOracle =>
      exact .bind (MarketWith.beginCapitalSweep_blind _ _) fun _ => Method.simulates_pure _
  | settleCapitalSweep collateralOracle supplyOracle maxRepayAtoms maxCollateralAtomsToReturn =>
      exact .bind (MarketWith.settleCapitalSweep_blind _ _ _ _) fun _ => Method.simulates_pure _
  | socializeLoss collateralOracle supplyOracle =>
      exact .bind (MarketWith.socializeLoss_blind _ _) fun _ => Method.simulates_pure _

end AutaraLending
