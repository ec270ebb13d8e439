import AutaraLending.AdministrationPaths
import AutaraLending.IdlSteps

/-! Whole runs of the program on a chain: lending and IDL instructions by anyone, further
instructions inside their callbacks, and other programs between them. -/

namespace AutaraLending

open Support

namespace Transactions

/-- The chain has evolved, and the instructions on the way have logged the events. Other programs do
not touch the markets and positions, and the IDL instructions make no account that is loaded as one.
What happens inside the callback of an instruction happens between the point of the call and the end
of the instruction. -/
inductive Evolves (env : Environment) (allowed : Call → Prop) :
    Chain → List AutaraEvent → Chain → Prop
  | refl (start : Chain) : Evolves env allowed start [] start
  | others (start chain final : Chain) (events : List AutaraEvent)
      (before : Evolves env allowed start events chain) (same : SameAccounts chain final) :
      Evolves env allowed start events final
  | idl (start chain final : Chain) (events : List AutaraEvent)
      (before : Evolves env allowed start events chain) (step : IdlStep chain final) :
      Evolves env allowed start events final
  | instruction (start chain final : Chain) (events nested : List AutaraEvent) (call : Call)
      (invocations : List Invocation) (before : Evolves env allowed start events chain)
      (permitted : allowed call) (success : (execute env call).Succeeds chain invocations final)
      (within : Evolves env allowed (calledAt env call ⟨chain, []⟩) nested final) :
      Evolves env allowed start (events ++ (invocations.filterMap Invocation.logged ++ nested))
        final

section Rules

variable {env : Environment} {allowed : Call → Prop} {start final : Chain}
  {events : List AutaraEvent}

/-- What an operation keeps, all operations of an instruction keep. -/
theorem Path.invariant {infos : List AccountInfo} {flows : Flows} {I : Flows → Chain → Prop}
    (path : Path env infos start flows final)
    (step : ∀ before flows chain chain', I before chain → Step env infos chain flows chain' →
      I (before + flows) chain') (before : Flows) (holds : I before start) :
    I (before + flows) final := by
  induction path with
  | refl => rwa [add_zero]
  | snoc flows flows' mid final _ last ih =>
      rw [← add_assoc]
      exact step _ _ _ _ ih last

/-- What the operations of the instructions keep, with the flows that the events report, holds
however instructions and callbacks are nested. -/
theorem Evolves.invariant {I : Flows → Chain → Prop}
    (evolves : Evolves env allowed start events final)
    (step : ∀ call before flows chain chain', allowed call → I before chain →
      Step env call.accounts chain flows chain' → I (before + flows) chain')
    (others : ∀ flows chain chain', I flows chain → SameAccounts chain chain' → I flows chain')
    (flows : Flows) (holds : I flows start) : I (flows + netFlows events) final := by
  induction evolves generalizing flows with
  | refl start => rwa [netFlows_nil, add_zero]
  | others start chain final events before same ih => exact others _ _ _ (ih flows holds) same
  | idl start chain final events before step ih => exact others _ _ _ (ih flows holds) step.same
  | instruction start chain final events nested call invocations before permitted success within
      ih_before ih_within =>
      obtain ⟨u, w', processed, rfl, rfl⟩ := execute_succeeds env _ _ _ _ success
      obtain ⟨calls, done⟩ := autaraProcessInstruction_processed processed
      have recorded : w'.invocations = calls := done.recorded
      rw [recorded, netFlows_append, netFlows_append, ← add_assoc, ← add_assoc]
      refine ih_within _ (done.path.invariant ?_ _ (ih_before flows holds))
      exact fun before flows chain chain' => step call before flows chain chain' permitted

theorem Evolves.preserves {P : Chain → Prop} (evolves : Evolves env allowed start events final)
    (step : ∀ call flows chain chain', allowed call → P chain →
      Step env call.accounts chain flows chain' → P chain')
    (others : ∀ chain chain', P chain → SameAccounts chain chain' → P chain') (holds : P start) :
    P final :=
  evolves.invariant (I := fun _ => P)
    (fun call _ flows chain chain' permitted => step call flows chain chain' permitted)
    (fun _ => others) 0 holds

theorem Evolves.trans {mid : Chain} {events' : List AutaraEvent}
    (first : Evolves env allowed start events mid)
    (second : Evolves env allowed mid events' final) :
    Evolves env allowed start (events ++ events') final := by
  induction second with
  | refl mid => rwa [List.append_nil]
  | others mid chain final events' before same ih =>
      exact .others start chain final _ (ih first) same
  | idl mid chain final events' before step ih => exact .idl start chain final _ (ih first) step
  | instruction mid chain final events' nested call invocations before permitted success within
      ih_before ih_within =>
      rw [← List.append_assoc]
      exact .instruction start chain final _ nested call invocations (ih_before first) permitted
        success within

theorem evolves_of_execute {call : Call} {invocations : List Invocation} (permitted : allowed call)
    (quiet : call.quiet = call) (success : (execute env call).Succeeds start invocations final) :
    Evolves env allowed start (invocations.filterMap Invocation.logged) final := by
  obtain ⟨u, w', processed, chain_eq, -⟩ := execute_succeeds env _ _ _ _ success
  have written : calledAt env call ⟨start, []⟩ = final :=
    (calledAt_quiet processed (by rw [quiet])).trans chain_eq
  have run := Evolves.instruction start start final [] [] call invocations (.refl start) permitted
    success (by rw [written]; exact .refl final)
  rwa [List.nil_append, List.append_nil] at run

variable (env) in
def loggedEvents (start : Chain) (calls : List Call) : List AutaraEvent :=
  (history env start calls).flatMap Entry.events

/-- Calls one after the other, where callbacks do nothing. -/
theorem evolves_of_history (calls : List Call) (permitted : ∀ call ∈ calls, allowed call)
    (quiet : ∀ call ∈ calls, call.quiet = call) :
    Evolves env allowed start (loggedEvents env start calls)
      (Machine.run (execute env) start calls) := by
  induction calls generalizing start with
  | nil => exact .refl start
  | cons call rest ih =>
      have later : ∀ mid, Evolves env allowed mid (loggedEvents env mid rest)
          (Machine.run (execute env) mid rest) := fun mid =>
        ih (fun other member => permitted other (List.mem_cons_of_mem call member))
          fun other member => quiet other (List.mem_cons_of_mem call member)
      rw [Machine.run_cons]
      rcases outcome : execute env call start with ⟨result, after⟩
      cases result with
      | error e =>
          have kept : Machine.commit (execute env) start call = start := by
            simp only [Machine.commit, outcome]
          rw [kept, loggedEvents, history, outcome]
          exact later start
      | ok invocations =>
          have made : Machine.commit (execute env) start call = after :=
            Machine.commit_of_succeeds (execute env) outcome
          rw [made, loggedEvents, history, outcome, List.flatMap_cons]
          exact (evolves_of_execute (permitted call (List.mem_cons_self ..))
            (quiet call (List.mem_cons_self ..)) outcome).trans (later after)

end Rules

/-! A market on a plain chain, with a supplier, key 24, and a borrower, key 25. -/

def plainStart : Chain :=
  plainChain [(plainEnvironment.findGlobalConfigPda.1,
    Slot.of (T := GlobalConfig) ⟨plainKey 21, zeroedPubkey, plainKey 22, 0⟩)]

theorem plainStart_bare (key : Pubkey) : (plainStart key).Bare := by
  unfold plainStart plainChain
  by_cases canonical : plainEnvironment.findGlobalConfigPda.1 = key
  · rw [List.find?_cons_of_pos (by simpa using canonical)]
    exact Slot.bare_of_state rfl
  · rw [List.find?_cons_of_neg (by simpa using canonical)]
    exact Slot.bare_of_no_state fun _ => nofun

def plainVault (mint : UInt8) : AccountInfo :=
  ⟨plainEnvironment.getAssociatedTokenAddress (plainKey 11) (plainKey mint), false, true⟩

def positionAccounts (position authority mint : UInt8) : List AccountInfo :=
  [plainAccount 11, plainAccount position, plainSigner authority, plainAccount mint,
    plainVault mint, plainAccount 2, plainAccount 40, plainAccount 41]

def plainMarket : Call :=
  ⟨[plainSigner 20, plainSigner 20, ⟨plainEnvironment.findGlobalConfigPda.1, false, false⟩,
      plainAccount 11, plainAccount 30, plainVault 30, plainAccount 31, plainVault 31,
      plainAccount 2, plainAccount 3, plainAccount 1],
    .createMarket
      { marketBump := 255
        index := 0
        ltvConfig := ⟨.lit 7 1, .lit 8 1, .lit 5 2⟩
        maxUtilisationRate := .lit 9 1
        supplyOracleConfig := .zeroed
        collateralOracleConfig := .zeroed
        interestRate := .newAdaptive
        lendingMarketFeeInBps := 100 },
    plainContext⟩

def plainPositions : List Call :=
  [⟨[plainAccount 11, plainAccount 12, plainSigner 24, plainSigner 24, plainAccount 1],
      .createSupplyPosition ⟨255⟩, plainContext⟩,
    ⟨[plainAccount 11, plainAccount 13, plainSigner 25, plainSigner 25, plainAccount 1],
      .createBorrowPosition ⟨255⟩, plainContext⟩]

def plainSupply : Call := ⟨positionAccounts 12 24 30, .supplyApl ⟨1000⟩, plainContext⟩

def plainDeposit : Call := ⟨positionAccounts 13 25 31, .depositAplCollateral ⟨500⟩, plainContext⟩

def plainBorrow : Call := ⟨positionAccounts 13 25 30, .borrowApl ⟨300⟩, plainContext⟩

theorem plain_evolves {allowed : Call → Prop} (start : Chain) (calls : List Call)
    (plain : ∀ call ∈ calls, call.context = plainContext ∧ allowed call) :
    Evolves plainEnvironment allowed start (loggedEvents plainEnvironment start calls)
      (Machine.run (execute plainEnvironment) start calls) := by
  refine evolves_of_history calls (fun call member => (plain call member).2) fun call member => ?_
  obtain ⟨accounts, instruction, context⟩ := call
  obtain rfl : context = plainContext := (plain _ member).1
  rfl

def plainLoan : List Call :=
  plainMarket :: plainPositions ++ [plainSupply, plainDeposit, plainBorrow]

/-- An instruction that succeeds has written everything before its callback, if it makes one, runs.
What it writes are single operations that its signers may make, its events report all that they
move, and every call that it makes is signed for. -/
theorem effects_before_callback {env : Environment} {call : Call} {chain final : Chain}
    {invocations : List Invocation}
    (success : (execute env call).Succeeds chain invocations final) :
    Path env call.accounts chain (netFlows (invocations.filterMap Invocation.logged))
        (calledAt env call ⟨chain, []⟩) ∧
      (∀ invocation ∈ invocations,
        Authorised call.accounts (calledAt env call ⟨chain, []⟩) invocation) ∧
      EndsWith call.context invocations (calledAt env call ⟨chain, []⟩) final := by
  obtain ⟨u, w', processed, rfl, rfl⟩ := execute_succeeds env _ _ _ _ success
  obtain ⟨calls, done⟩ := autaraProcessInstruction_processed processed
  have recorded : w'.invocations = calls := done.recorded
  rw [recorded]
  exact ⟨done.path, done.authorised, done.ends⟩

def plainLeverage : Call where
  accounts := [plainAccount 11, plainAccount 13, plainSigner 25, plainAccount 30, plainVault 30,
    plainAccount 31, plainVault 31, plainAccount 2, plainAccount 40, plainAccount 41]
  instruction := .borrowDepositApl ⟨500, 300, some ⟨plainKey 9, [], []⟩⟩
  context := { plainContext with
    callback := fun _ chain => Function.update chain (plainKey 60) ⟨plainKey 9, .other⟩ }

def plainSupplied : Chain :=
  Machine.run (execute plainEnvironment) plainStart (plainMarket :: plainPositions ++ [plainSupply])

theorem plainSupplied_held :
    (∃ m : Market, plainSupplied.Holds (plainKey 11) m ∧ m.config.curator = plainKey 20) ∧
      (∃ p : SupplyPosition, plainSupplied.Holds (plainKey 12) p ∧ p.authority = plainKey 24 ∧
        p.shares.bits ≠ 0) ∧
      ∃ p : BorrowPosition, plainSupplied.Holds (plainKey 13) p ∧ p.authority = plainKey 25 ∧
        p.borrowedShares = Fixed.zero ∧ p.sweptCollateralAtoms = 0 := by
  refine ⟨exists_holds _ ?_, exists_holds _ ?_, exists_holds _ ?_⟩
  all_goals decide +kernel

theorem plain_leverage_calls_back :
    ∃ invocations final,
      (execute plainEnvironment plainLeverage).Succeeds plainSupplied invocations final ∧
      invocations.filterMap Invocation.calledBack = [⟨plainKey 9, [], []⟩] ∧
      final = Function.update (calledAt plainEnvironment plainLeverage ⟨plainSupplied, []⟩)
        (plainKey 60) ⟨plainKey 9, .other⟩ := by
  have outcome : (execute plainEnvironment plainLeverage plainSupplied).1.map
      (List.filterMap Invocation.calledBack) = .ok [⟨plainKey 9, [], []⟩] := by decide +kernel
  rcases made : execute plainEnvironment plainLeverage plainSupplied with ⟨result, final⟩
  rw [made] at outcome
  cases result with
  | error e => cases outcome
  | ok invocations =>
      have called := Except.ok.inj outcome
      refine ⟨invocations, final, made, called, ?_⟩
      cases (effects_before_callback made).2.2 with
      | quiet none => rw [called] at none; cases none
      | callback ix one =>
          rw [called] at one
          cases one
          rfl

end Transactions

end AutaraLending
