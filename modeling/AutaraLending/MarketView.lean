import AutaraLending.MarketHistory
import AutaraLending.Conservation

/-! A market of the chain as a ledger: the market, all accounts of the chain as its positions, and
what has been moved into its supply vault. -/

namespace AutaraLending

open Support

namespace Transactions

def positionAt {T : Type} [UserPosition T] (fresh : Pubkey → Pubkey → T) (chain : Chain)
    (market : Pubkey) (owners : Pubkey → Pubkey) (key : Pubkey) : T :=
  (((chain key).find? T).filter fun p => UserPosition.market p = market).getD
    (fresh (owners key) market)

/-- The market and all accounts of the chain, as a ledger. -/
def marketLedger (chain : Chain) (key : Pubkey) (m : Market) (suppliers borrowers : Pubkey → Pubkey)
    (cash : Int) : Ledger Pubkey Pubkey where
  market := m.withoutWhitelist
  supplyPositions := positionAt SupplyPosition.new chain key suppliers
  borrowPositions := positionAt BorrowPosition.initializePosition chain key borrowers
  cash := cash

section Views

variable {T : Type} [UserPosition T] {fresh : Pubkey → Pubkey → T} {chain chain' : Chain}
  {market key : Pubkey} {owners : Pubkey → Pubkey} {p : T}

theorem positionAt_of_holds (held : chain.Holds key p) (placed : UserPosition.market p = market) :
    positionAt fresh chain market owners key = p := by
  simp only [positionAt, held.find?, Option.filter, placed, decide_true, if_true, Option.getD]

theorem positionAt_fresh (none : ∀ p : T, chain.Holds key p → UserPosition.market p ≠ market) :
    positionAt fresh chain market owners key = fresh (owners key) market := by
  have filtered : ((chain key).find? T).filter (fun p => UserPosition.market p = market) =
      .none := by
    rw [Option.filter_eq_none_iff]
    intro p found same
    exact none p (Slot.find?_eq_some.mp found) (of_decide_eq_true same)
  rw [positionAt, filtered, Option.getD]

theorem positionAt_congr (same : ∀ p : T, chain'.Holds key p ↔ chain.Holds key p) :
    positionAt fresh chain' market owners key = positionAt fresh chain market owners key := by
  have found : (chain' key).find? T = (chain key).find? T := by
    refine Option.ext fun p => ?_
    rw [Slot.find?_eq_some, Slot.find?_eq_some]
    exact same p
  rw [positionAt, positionAt, found]

theorem positionAt_update {slot : Slot} (before : ∀ p : T, ¬ chain.Holds key p)
    (after : slot.find? T = none) :
    positionAt fresh (Function.update chain key slot) market owners =
      positionAt fresh chain market owners := by
  funext other
  refine positionAt_congr fun p => ?_
  rcases eq_or_ne other key with rfl | differ
  · refine iff_of_false (fun held => ?_) (before p)
    have found := held.find?
    rw [Function.update_self, after] at found
    cases found
  · unfold Chain.Holds
    rw [Function.update_of_ne differ]

theorem positionAt_update_elsewhere {state : T}
    (before : ∀ p : T, chain.Holds key p → UserPosition.market p ≠ market)
    (elsewhere : UserPosition.market state ≠ market) :
    positionAt fresh (Function.update chain key (Slot.of state)) market owners =
      positionAt fresh chain market owners := by
  funext other
  rcases eq_or_ne other key with rfl | differ
  · rw [positionAt_fresh before, positionAt_fresh]
    intro p held
    obtain rfl := Slot.of_injective ((Function.update_self other _ chain).symm.trans held.1)
    exact elsewhere
  · refine positionAt_congr fun p => ?_
    unfold Chain.Holds
    rw [Function.update_of_ne differ]

theorem positionAt_update_self {state : T} (initialized : LendingAccount.isInitialized state = true)
    (placed : UserPosition.market state = market) :
    positionAt fresh (Function.update chain key (Slot.of state)) market owners =
      Function.update (positionAt fresh chain market owners) key state := by
  funext other
  rcases eq_or_ne other key with rfl | differ
  · rw [Function.update_self]
    exact positionAt_of_holds (.update_self initialized _ rfl) placed
  · rw [Function.update_of_ne differ]
    refine positionAt_congr fun p => ?_
    unfold Chain.Holds
    rw [Function.update_of_ne differ]

theorem positionAt_created {authority : Pubkey}
    (placed : UserPosition.market (fresh authority market) = market)
    (vacant : ∀ p : T, ¬ chain.Holds key p) (other : Pubkey) (owners : Pubkey → Pubkey) :
    ∃ owners', positionAt fresh (Function.update chain key (Slot.of (fresh authority market))) other
      owners = positionAt fresh chain other owners' := by
  rcases eq_or_ne market other with rfl | elsewhere
  · cases initialized : LendingAccount.isInitialized (fresh authority market) with
    | false =>
        exact ⟨owners, positionAt_update vacant (by rw [Slot.find?_of, initialized]; rfl)⟩
    | true =>
        refine ⟨Function.update owners key authority, ?_⟩
        rw [positionAt_update_self initialized placed]
        funext account
        rcases eq_or_ne account key with rfl | differ
        · rw [Function.update_self, positionAt_fresh fun p held => absurd held (vacant p),
            Function.update_self]
        · rw [Function.update_of_ne differ]
          simp only [positionAt, Function.update_of_ne differ]
  · exact ⟨owners, positionAt_update_elsewhere (fun p held => absurd held (vacant p))
      (by rwa [placed])⟩

theorem not_holds_of_held {U : Type} [LendingAccount U] {state : U} (held : chain.Holds key state)
    (apart : ∀ p : T, Slot.of p ≠ Slot.of state) (p : T) : ¬ chain.Holds key p :=
  fun shown => apart p (shown.1.symm.trans held.1)

theorem find?_eq_none {U : Type} [LendingAccount U] {state : U}
    (apart : ∀ p : T, Slot.of p ≠ Slot.of state) : (Slot.of state).find? T = none := by
  rw [Option.eq_none_iff_forall_ne_some]
  exact fun p found => apart p (Slot.find?_eq_some.mp found).1.symm

section Pairs

variable [PositionAccount T] {s s' : MarketWith T} {position : Pubkey}

theorem positionAt_market {m m' : Market} (held : chain.Holds key m) :
    positionAt fresh (Function.update chain key (Slot.of m')) market owners =
      positionAt fresh chain market owners :=
  positionAt_update (not_holds_of_held held fun p => PositionAccount.apart p m)
    (find?_eq_none fun p => PositionAccount.apart p m')

theorem positionAt_putBoth (shown : Shows chain market position s)
    (initialized : LendingAccount.isInitialized s'.position = true)
    (placed : UserPosition.market s'.position = market) :
    positionAt fresh (putBoth chain market position s') market owners =
      Function.update (positionAt fresh chain market owners) position s'.position := by
  rw [putBoth, positionAt_update_self initialized placed, positionAt_market shown.market_held]

theorem positionAt_putBoth_elsewhere (shown : Shows chain market position s)
    (placed : UserPosition.market s'.position = market) (elsewhere : key ≠ market) :
    positionAt fresh (putBoth chain market position s') key owners =
      positionAt fresh chain key owners := by
  rw [putBoth, positionAt_update_elsewhere, positionAt_market shown.market_held]
  · intro p held
    obtain rfl : s.position = p := Slot.of_injective
      (shown.position_held.1.symm.trans
        ((Function.update_of_ne shown.distinct.symm _ chain).symm.trans held.1))
    rw [shown.placed]
    exact elsewhere.symm
  · rw [placed]
    exact elsewhere.symm

theorem positionAt_putBoth_other {U : Type} [UserPosition U] [PositionAccount U]
    {fresh : Pubkey → Pubkey → U} (apart : ∀ (q : U) (p : T), Slot.of q ≠ Slot.of p)
    (shown : Shows chain market position s) (s' : MarketWith T) :
    positionAt fresh (putBoth chain market position s') key owners =
      positionAt fresh chain key owners := by
  rw [putBoth, positionAt_update, positionAt_market shown.market_held]
  · exact not_holds_of_held (shown.position_held.update_of_ne shown.distinct.symm _) fun q =>
      apart q s.position
  · exact find?_eq_none fun q => apart q s'.position

end Pairs

end Views

end Transactions

end AutaraLending
