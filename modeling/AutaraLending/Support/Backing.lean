import Mathlib

/-! Books that are kept in accounts: several books may share an account, and the account must hold
what all of them count together. -/

namespace Support.Backing

variable {κ β : Type} [DecidableEq κ]

/-- The balances after an amount has moved from one account to another, which may be the same. -/
def move (source destination : κ) (amount : Nat) (balance : κ → Nat) (account : κ) : Nat :=
  balance account - (if account = source then amount else 0) +
    if account = destination then amount else 0

theorem move_destination {source destination : κ} {amount : Nat} (balance : κ → Nat)
    (apart : destination ≠ source) :
    move source destination amount balance destination = balance destination + amount := by
  simp [move, apart]

theorem le_move {source account : κ} (destination : κ) (amount : Nat) (balance : κ → Nat)
    (apart : account ≠ source) :
    balance account ≤ move source destination amount balance account := by
  simp [move, apart]

theorem le_move_source (source destination : κ) (amount : Nat) (balance : κ → Nat) :
    balance source - amount ≤ move source destination amount balance source := by
  simp [move]

variable [Fintype β] [DecidableEq β] {account : β → κ} {booked : β → Int} {balance : κ → Nat}

/-- What the books of an account count together. -/
def counted (account : β → κ) (booked : β → Int) (place : κ) : Int :=
  ∑ book, if account book = place then booked book else 0

/-- Every account holds what its books count. -/
def Backed (account : β → κ) (booked : β → Int) (balance : κ → Nat) : Prop :=
  ∀ book, counted account booked (account book) ≤ balance (account book)

omit [DecidableEq β] in
theorem counted_add (first second : β → Int) (place : κ) :
    counted account (first + second) place =
      counted account first place + counted account second place := by
  unfold counted
  rw [← Finset.sum_add_distrib]
  apply Finset.sum_congr rfl
  intro book _
  split
  · rfl
  · rfl

theorem counted_single (book : β) (amount : Int) (place : κ) :
    counted account (Pi.single book amount) place = if account book = place then amount else 0 := by
  unfold counted
  rw [Finset.sum_eq_single book]
  · rw [Pi.single_eq_same]
  · intro other _ differ
    rw [Pi.single_eq_of_ne differ, ite_self]
  · intro absent
    exact absurd (Finset.mem_univ book) absent

omit [DecidableEq β] in
theorem backed_zero : Backed account (0 : β → Int) balance := by
  intro book
  simp [counted]

omit [DecidableEq β] in
theorem Backed.mono {balance' : κ → Nat} (backed : Backed account booked balance)
    (more : ∀ book, balance (account book) ≤ balance' (account book)) :
    Backed account booked balance' := by
  intro book
  exact (backed book).trans (Int.ofNat_le.mpr (more book))

theorem Backed.deposit (backed : Backed account booked balance) {source : κ} (amount : Nat)
    (elsewhere : ∀ book, account book ≠ source) (book : β) :
    Backed account (booked + Pi.single book (amount : Int))
      (move source (account book) amount balance) := by
  intro other
  have held := backed other
  rw [counted_add, counted_single]
  by_cases same : account book = account other
  · rw [if_pos same, same, move_destination balance (elsewhere other)]
    push_cast
    omega
  · have kept := le_move (account book) amount balance (elsewhere other)
    rw [if_neg same]
    omega

theorem Backed.withdraw (backed : Backed account booked balance) (book : β) {amount : Nat}
    (covered : amount ≤ balance (account book)) (destination : κ) :
    Backed account (booked + Pi.single book (-(amount : Int)))
      (move (account book) destination amount balance) := by
  intro other
  have held := backed other
  rw [counted_add, counted_single]
  by_cases same : account book = account other
  · have left := le_move_source (account other) destination amount balance
    rw [same] at covered
    rw [if_pos same, same]
    omega
  · have kept := le_move destination amount balance (Ne.symm same)
    rw [if_neg same]
    omega

omit [DecidableEq β] in
theorem Backed.alone (backed : Backed account booked balance) {book : β}
    (alone : ∀ other, account other = account book → other = book) :
    booked book ≤ balance (account book) := by
  have held := backed book
  unfold counted at held
  rw [Finset.sum_eq_single book] at held
  · rwa [if_pos rfl] at held
  · intro other _ differ
    exact if_neg fun same => differ (alone other same)
  · intro absent
    exact absurd (Finset.mem_univ book) absent

end Support.Backing
