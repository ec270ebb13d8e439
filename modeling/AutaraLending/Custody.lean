import AutaraLending.MarketRefinement
import AutaraLending.Support.Backing

/-! The tokens behind the markets. An instruction settles its transfers with the token program in
the order of its calls, and whatever its callback runs comes between them. The vaults of every
market hold what the books of the market count. -/

namespace AutaraLending

open Support

instance : Fintype VaultSide where
  elems := {.supply, .collateral}
  complete side := by cases side <;> decide

/-- The token program, which is not part of the repository. A transfer takes its amount from one
account and adds it to the other. -/
structure TokenProgram (τ : Type) where
  balance : τ → Pubkey → Nat
  transfer : Pubkey → Pubkey → Pubkey → U64 → τ → Option τ
  moves : ∀ source destination authority amount t t',
    transfer source destination authority amount t = some t' →
      amount.toNat ≤ balance t source ∧
        balance t' = Backing.move source destination amount.toNat (balance t)

namespace Transactions

section Settlement

variable {τ : Type} (tokens : TokenProgram τ)

/-- The accounts that are derived for a wallet are spent with the authority of the wallet only. -/
def Guards (env : Environment) (wallet : Pubkey) : Prop :=
  ∀ mint destination authority amount t t',
    tokens.transfer (env.getAssociatedTokenAddress wallet mint) destination authority amount t =
      some t' → authority = wallet

/-- The transfers among the calls, one after the other. The first that fails fails all. -/
def settle : List Invocation → τ → Option τ
  | [], t => some t
  | .transfer source destination authority amount _ :: rest, t => do
      settle rest (← tokens.transfer source destination authority amount t)
  | _ :: rest, t => settle rest t

end Settlement

/-- The calls that an instruction makes before its callback. -/
def beforeCallback (calls : List Invocation) : List Invocation :=
  calls.takeWhile fun call => call.calledBack.isNone

def afterCallback (calls : List Invocation) : List Invocation :=
  calls.dropWhile fun call => call.calledBack.isNone

/-- The chain and the tokens have evolved. Only the program signs for the derived addresses: no
account with such an address signs an instruction, and what other programs do takes nothing from its
token accounts. The IDL instructions move no tokens. -/
inductive Banked {τ : Type} (env : Environment) (tokens : TokenProgram τ)
    (derived : Pubkey → Prop) : Chain × τ → List AutaraEvent → Chain × τ → Prop
  | refl (start : Chain × τ) : Banked env tokens derived start [] start
  | others (start : Chain × τ) (chain chain' : Chain) (t t' : τ) (events : List AutaraEvent)
      (before : Banked env tokens derived start events (chain, t))
      (same : SameAccounts chain chain') (kept : ∀ wallet mint, derived wallet →
        tokens.balance t (env.getAssociatedTokenAddress wallet mint) ≤
          tokens.balance t' (env.getAssociatedTokenAddress wallet mint)) :
      Banked env tokens derived start events (chain', t')
  | idl (start : Chain × τ) (chain chain' : Chain) (t : τ) (events : List AutaraEvent)
      (before : Banked env tokens derived start events (chain, t)) (step : IdlStep chain chain') :
      Banked env tokens derived start events (chain', t)
  | instruction (start : Chain × τ) (chain final : Chain) (t t₁ t₂ t₃ : τ)
      (events nested : List AutaraEvent) (call : Call) (invocations : List Invocation)
      (before : Banked env tokens derived start events (chain, t))
      (unsigned : ∀ wallet, derived wallet → ¬ SignedBy call.accounts wallet)
      (success : (execute env call).Succeeds chain invocations final)
      (paid : settle tokens (beforeCallback invocations) t = some t₁)
      (within : Banked env tokens derived (calledAt env call ⟨chain, []⟩, t₁) nested (final, t₂))
      (paid' : settle tokens (afterCallback invocations) t₂ = some t₃) :
      Banked env tokens derived start
        (events ++ (invocations.filterMap Invocation.logged ++ nested)) (final, t₃)

section

variable {τ : Type} {env : Environment} {tokens : TokenProgram τ} {derived : Pubkey → Prop}
  {infos : List AccountInfo} {key : Pubkey} {chain chain' : Chain} {t t' : τ} {paid flows : Flows}
  {m : Market}

theorem settle_filter (calls : List Invocation) (t : τ) :
    settle tokens (calls.filter Invocation.isTransfer) t = settle tokens calls t := by
  induction calls generalizing t with
  | nil => rfl
  | cons call rest ih =>
      cases call with
      | transfer source destination authority amount seeds =>
          change settle tokens (.transfer source destination authority amount seeds ::
            rest.filter Invocation.isTransfer) t = _
          simp only [settle, ih]
      | createAccount | createAta | log | callback => exact ih t

theorem Banked.evolves {start final : Chain × τ} {events : List AutaraEvent}
    (banked : Banked env tokens derived start events final) :
    Evolves env (fun call => ∀ wallet, derived wallet → ¬ SignedBy call.accounts wallet) start.1
      events final.1 := by
  induction banked with
  | refl start => exact .refl start.1
  | others start chain chain' t t' events before same kept ih => exact .others _ _ _ _ ih same
  | idl start chain chain' t events before step ih => exact .idl _ _ _ _ ih step
  | instruction start chain final t t₁ t₂ t₃ events nested call invocations before unsigned success
      paid within paid' ih ih' =>
      exact .instruction _ _ _ _ _ call invocations ih unsigned success ih'

/-- The books of a market: what has been moved into the vaults and not out of them again. -/
def VaultsBacked (tokens : TokenProgram τ) (m : Market) (booked : VaultSide → Int) (t : τ) : Prop :=
  Backing.Backed (fun side => (m.vaultKeys side).vault) booked (tokens.balance t)

/-- What holds all along of the market in an account, when the flows have been paid: its vaults are
derived for it and hold the books, and nothing is booked before there is a market. -/
structure Covered (env : Environment) (tokens : TokenProgram τ) (key : Pubkey) (paid : Flows)
    (chain : Chain) (t : τ) : Prop where
  derived : ∀ m : Market, chain.Holds key m → ∀ side,
    (m.vaultKeys side).vault = env.getAssociatedTokenAddress key (m.vaultKeys side).mint
  backed : ∀ m : Market, chain.Holds key m → VaultsBacked tokens m (paid key) t
  quiet : (∀ m : Market, ¬ chain.Holds key m) → paid key = 0

theorem Covered.of_bare (bare : (chain key).Bare) : Covered env tokens key 0 chain t where
  derived _ held := absurd held (bare.not_holds rfl)
  backed _ held := absurd held (bare.not_holds rfl)
  quiet _ := rfl

theorem VaultsBacked.of_identity {m' : Market} {booked : VaultSide → Int}
    (backed : VaultsBacked tokens m booked t) (same : m'.identity = m.identity) :
    VaultsBacked tokens m' booked t := by
  have keys : m'.vaultKeys = m.vaultKeys := congrArg MarketIdentity.vaultKeys same
  unfold VaultsBacked
  rw [keys]
  exact backed

theorem Covered.step (covered : Covered env tokens key paid chain t)
    (step : Step env infos chain flows chain') : Covered env tokens key paid chain' t := by
  refine ⟨fun m' held => ?_, fun m' held => ?_, fun none => ?_⟩
  · rcases step.market_before held with ⟨m, held₀⟩ | creates
    · obtain ⟨m'', held'', after, -⟩ := step.market_after held₀
      obtain rfl := held.unique held''
      have keys : m'.vaultKeys = m.vaultKeys := congrArg MarketIdentity.vaultKeys after.identity
      rw [keys]
      exact covered.derived m held₀
    · exact creates.derived
  · rcases step.market_before held with ⟨m, held₀⟩ | creates
    · obtain ⟨m'', held'', after, -⟩ := step.market_after held₀
      obtain rfl := held.unique held''
      exact (covered.backed m held₀).of_identity after.identity
    · obtain ⟨owner, vacant⟩ := creates.vacant
      rw [covered.quiet (not_holds_vacant vacant)]
      exact Backing.backed_zero
  · refine covered.quiet fun m held => ?_
    obtain ⟨m', held', -⟩ := step.market_after held
    exact none m' held'

theorem Covered.path (covered : Covered env tokens key paid chain t)
    (path : Path env infos chain flows chain') : Covered env tokens key paid chain' t := by
  induction path with
  | refl => exact covered
  | snoc flows flows' mid final before last ih => exact ih.step last

theorem Covered.gains (covered : Covered env tokens key paid chain t)
    (kept : ∀ mint, tokens.balance t (env.getAssociatedTokenAddress key mint) ≤
      tokens.balance t' (env.getAssociatedTokenAddress key mint)) :
    Covered env tokens key paid chain t' := by
  refine ⟨covered.derived, fun m held => ?_, covered.quiet⟩
  refine (covered.backed m held).mono fun side => ?_
  rw [covered.derived m held side]
  exact kept _

/-! What a transfer does to the books. -/

theorem netFlow_self (flow : Flow) :
    netFlow flow flow.market = Pi.single flow.side (netAmount flow) := by
  obtain ⟨market, side, direction, amount, mint⟩ := flow
  funext other
  cases side <;> cases other <;> simp [netFlow]

theorem netFlow_of_ne {flow : Flow} (differ : key ≠ flow.market) : netFlow flow key = 0 := by
  obtain ⟨market, side, direction, amount, mint⟩ := flow
  cases side with
  | supply => exact moved_of_ne differ _ _
  | collateral => exact moved_of_ne differ _ _

theorem Covered.spender (covered : Covered env tokens key paid chain t)
    (guards : Guards tokens env key) (held : chain.Holds key m) {destination authority : Pubkey}
    {amount : U64} {side : VaultSide}
    (transferred : tokens.transfer (m.vaultKeys side).vault destination authority amount t =
      some t') :
    authority = key := by
  rw [covered.derived m held side] at transferred
  exact guards _ _ _ _ _ _ transferred

theorem Covered.transfer (covered : Covered env tokens key paid chain t)
    (guards : Guards tokens env key) (unsigned : ¬ SignedBy infos key) {written : Chain}
    {flow : Flow} {source destination authority : Pubkey} {amount : U64} {seeds : List (List UInt8)}
    (carries : Carries infos written flow (.transfer source destination authority amount seeds))
    (same : ∀ m : Market, written.Holds key m →
      ∃ m' : Market, chain.Holds key m' ∧ m'.identity = m.identity)
    (transferred : tokens.transfer source destination authority amount t = some t') :
    Covered env tokens key (paid + netFlow flow) chain t' := by
  obtain ⟨enough, moved_eq⟩ := tokens.moves _ _ _ _ _ _ transferred
  obtain ⟨amount_eq, m₀, written_held, ends⟩ := carries
  refine ⟨covered.derived, fun m held => ?_, fun none => ?_⟩
  · have backed := covered.backed m held
    unfold VaultsBacked at backed ⊢
    rw [moved_eq, Pi.add_apply]
    by_cases own : flow.market = key
    · rw [own] at written_held
      obtain ⟨m', held', identity⟩ := same m₀ written_held
      obtain rfl := held.unique held'
      have keys : m.vaultKeys = m₀.vaultKeys := congrArg MarketIdentity.vaultKeys identity
      rw [← own, netFlow_self]
      cases direction : flow.direction with
      | inward =>
          rw [direction] at ends
          obtain ⟨-, signed, rfl⟩ := ends
          rw [netAmount, direction, amount_eq, ← keys]
          rw [← own] at backed
          refine backed.deposit _ (fun side vault_eq => ?_) flow.side
          rw [← vault_eq] at transferred
          exact unsigned (covered.spender guards held transferred ▸ signed)
      | outward =>
          rw [direction] at ends
          obtain ⟨-, -, rfl⟩ := ends
          rw [netAmount, direction, amount_eq, ← keys]
          rw [← own] at backed
          rw [← keys] at enough
          exact backed.withdraw flow.side enough destination
    · rw [netFlow_of_ne (Ne.symm own), add_zero]
      refine backed.mono fun side => Backing.le_move _ _ _ fun vault_eq => ?_
      rw [← vault_eq] at transferred
      have spender := covered.spender guards held transferred
      cases direction : flow.direction with
      | inward =>
          rw [direction] at ends
          exact unsigned (spender ▸ ends.2.1)
      | outward =>
          rw [direction] at ends
          exact own (ends.1.symm.trans spender)
  · have elsewhere : key ≠ flow.market := by
      rintro rfl
      obtain ⟨m', held', -⟩ := same m₀ written_held
      exact none m' held'
    rw [Pi.add_apply, covered.quiet none, netFlow_of_ne elsewhere, add_zero]

theorem Covered.settle {written : Chain} {reported : List Flow} {calls : List Invocation}
    (carried : List.Forall₂ (Carries infos written) reported calls)
    (covered : Covered env tokens key paid chain t) (guards : Guards tokens env key)
    (unsigned : ¬ SignedBy infos key)
    (same : ∀ m : Market, written.Holds key m →
      ∃ m' : Market, chain.Holds key m' ∧ m'.identity = m.identity)
    (settled : Transactions.settle tokens calls t = some t') :
    Covered env tokens key (paid + (reported.map netFlow).sum) chain t' := by
  induction carried generalizing paid t with
  | nil =>
      obtain rfl := Option.some.inj settled
      rwa [List.map_nil, List.sum_nil, add_zero]
  | @cons flow call reported rest carries _ ih =>
      cases call with
      | transfer source destination authority amount seeds =>
          obtain ⟨t₁, transferred, settled⟩ := Option.bind_eq_some_iff.mp settled
          rw [List.map_cons, List.sum_cons, ← add_assoc]
          exact ih (covered.transfer guards unsigned carries same transferred) settled
      | createAccount | createAta | log | callback => cases carries

/-- An instruction that succeeds, with whatever its callback runs between its transfers. -/
theorem Covered.instruction {call : Call} {calls : List Invocation} {w w' : World}
    {written : Chain} (done : Processed env call.context call.accounts w calls written w')
    (covered : Covered env tokens key paid w.chain t) (guards : Guards tokens env key)
    (unsigned : ¬ SignedBy call.accounts key) {t₁ t₂ : τ} {nested : Flows}
    (settled : Transactions.settle tokens (beforeCallback calls) t = some t₁)
    (within : ∀ paid, Covered env tokens key paid written t₁ →
      Covered env tokens key (paid + nested) chain t₂)
    (endures : ∀ m : Market, written.Holds key m →
      ∃ m' : Market, chain.Holds key m' ∧ m'.identity = m.identity)
    (settled' : Transactions.settle tokens (afterCallback calls) t₂ = some t') :
    Covered env tokens key
      (paid + (netFlows (calls.filterMap Invocation.logged) + nested)) chain t' := by
  have split : calls.filter Invocation.isTransfer =
      (beforeCallback calls).filter Invocation.isTransfer ++
        (afterCallback calls).filter Invocation.isTransfer := by
    rw [← List.filter_append, beforeCallback, afterCallback, List.takeWhile_append_dropWhile]
  have carried := done.carried
  rw [split] at carried
  have first := List.forall₂_take_append _ _ _ carried
  have last := List.forall₂_drop_append _ _ _ carried
  rw [← settle_filter] at settled settled'
  have started := (covered.path done.path).settle first guards unsigned
    (fun m held => ⟨m, held, rfl⟩) settled
  have finished := (within _ started).settle last guards unsigned endures settled'
  have total := List.sum_take_add_sum_drop
    (((calls.filterMap Invocation.logged).flatMap AutaraEvent.flows).map netFlow)
    ((beforeCallback calls).filter Invocation.isTransfer).length
  rw [← List.map_take, ← List.map_drop] at total
  rw [netFlows, ← total]
  rwa [add_assoc, add_assoc, add_comm nested, ← add_assoc _ _ nested] at finished

/-- However instructions, callbacks and other programs are interleaved, the vaults of a market at a
derived address stay covered. -/
theorem Banked.covered {start final : Chain × τ} {events : List AutaraEvent}
    (banked : Banked env tokens derived start events final)
    (guards : ∀ wallet, derived wallet → Guards tokens env wallet) (own : derived key)
    (covered : Covered env tokens key paid start.1 start.2) :
    Covered env tokens key (paid + netFlows events) final.1 final.2 := by
  induction banked generalizing paid with
  | refl start => rwa [netFlows_nil, add_zero]
  | others start chain chain' t t' events before same kept ih =>
      have step : Step env [] chain 0 chain' := .other chain' same
      exact ((ih covered).step step).gains fun mint => kept key mint own
  | idl start chain chain' t events before step ih =>
      have other : Step env [] chain 0 chain' := .other chain' step.same
      exact (ih covered).step other
  | instruction start chain final t t₁ t₂ t₃ events nested call invocations before unsigned success
      settled within settled' ih ih_within =>
      obtain ⟨u, w', processed, rfl, rfl⟩ := execute_succeeds env _ _ _ _ success
      obtain ⟨calls, done⟩ := autaraProcessInstruction_processed processed
      have recorded : w'.invocations = calls := done.recorded
      rw [recorded] at settled settled'
      rw [recorded, netFlows_append, netFlows_append, ← add_assoc]
      refine Covered.instruction done (ih covered) (guards key own) (unsigned key own) settled
        (fun paid covered => ih_within covered) (fun m held => ?_) settled'
      exact within.evolves.identity held

/-! Runs that can be evaluated. -/

variable (tokens) in
theorem settle_append (first second : List Invocation) (t : τ) :
    settle tokens (first ++ second) t = (settle tokens first t).bind (settle tokens second) := by
  induction first generalizing t with
  | nil => rfl
  | cons call rest ih =>
      cases call with
      | transfer source destination authority amount seeds =>
          simp only [List.cons_append, settle, ih]
          cases tokens.transfer source destination authority amount t <;> rfl
      | createAccount | createAta | log | callback => exact ih t

variable (env tokens) in
def bankStep (s : List AutaraEvent × Chain × τ) (call : Call) : List AutaraEvent × Chain × τ :=
  match execute env call s.2.1 with
  | (.ok invocations, final) =>
      match settle tokens invocations s.2.2 with
      | some t' => (s.1 ++ invocations.filterMap Invocation.logged, final, t')
      | none => s
  | (.error _, _) => s

theorem banked_of_calls {start : Chain × τ} (calls : List Call)
    (unsigned : ∀ call ∈ calls, ∀ wallet, derived wallet → ¬ SignedBy call.accounts wallet)
    (quiet : ∀ call ∈ calls, call.quiet = call) (s : List AutaraEvent × Chain × τ)
    (before : Banked env tokens derived start s.1 s.2) :
    Banked env tokens derived start (calls.foldl (bankStep env tokens) s).1
      (calls.foldl (bankStep env tokens) s).2 := by
  induction calls generalizing s with
  | nil => exact before
  | cons call rest ih =>
      have later := ih (fun other member => unsigned other (List.mem_cons_of_mem call member))
        fun other member => quiet other (List.mem_cons_of_mem call member)
      rw [List.foldl_cons]
      apply later
      obtain ⟨events, chain, t⟩ := s
      unfold bankStep
      rcases outcome : execute env call chain with ⟨_ | invocations, final⟩
      · exact before
      · rcases settled : settle tokens invocations t with _ | t'
        · simp only [settled]
          exact before
        · simp only [settled]
          obtain ⟨u, w', processed, chain_eq, -⟩ := execute_succeeds env _ _ _ _ outcome
          have written : calledAt env call ⟨chain, []⟩ = final :=
            (calledAt_quiet processed (by rw [quiet call (List.mem_cons_self ..)])).trans chain_eq
          have parts := settle_append tokens (beforeCallback invocations)
            (afterCallback invocations) t
          rw [beforeCallback, afterCallback, List.takeWhile_append_dropWhile, settled] at parts
          obtain ⟨t₁, paid, paid'⟩ := Option.bind_eq_some_iff.mp parts.symm
          have run := Banked.instruction start chain final t t₁ t₁ t' events
            [] call invocations before (unsigned call (List.mem_cons_self ..)) outcome paid
            (by rw [written]; exact .refl (final, t₁)) paid'
          rwa [List.append_nil] at run

/-- From a chain without markets and positions, the vaults of every market at a derived address hold
what the events have moved in and not out again, and all that the positions count as collateral. -/
theorem vaults_cover_books {start final : Chain × τ} {events : List AutaraEvent}
    (banked : Banked env tokens derived start events final)
    (guards : ∀ wallet, derived wallet → Guards tokens env wallet)
    (bare : ∀ account, (start.1 account).Bare) (own : derived key) (held : final.1.Holds key m) :
    VaultsBacked tokens m (fun
        | .supply => netFlows events key .supply
        | .collateral => ∑ᶠ account,
            heldIn (fun p : BorrowPosition => p.collateralDepositedAtoms.toNat) final.1 key account)
        final.2 ∧
      (m.supplyVault.vault ≠ m.collateralVault.vault →
        netFlows events key .supply ≤ tokens.balance final.2 m.supplyVault.vault ∧
          ∑ᶠ account, heldIn (fun p : BorrowPosition => p.collateralDepositedAtoms.toNat) final.1
            key account ≤ tokens.balance final.2 m.collateralVault.vault) := by
  have covered : Covered env tokens key (0 + netFlows events) final.1 final.2 :=
    banked.covered guards own (.of_bare (bare key))
  have backed := covered.backed m held
  have counted : m.collateral = netFlows events key .collateral :=
    (banked.evolves.mirrored bare).collateral key m held
  rw [zero_add] at backed
  rw [← banked.evolves.collateral_held bare held, counted]
  have books : netFlows events key = fun
      | .supply => netFlows events key .supply
      | .collateral => netFlows events key .collateral := by
    funext side
    cases side <;> rfl
  refine ⟨books ▸ backed, fun apart => ?_⟩
  have alone : ∀ side other : VaultSide,
      (m.vaultKeys other).vault = (m.vaultKeys side).vault → other = side := by
    intro side other same
    cases side <;> cases other
    · rfl
    · exact absurd same.symm apart
    · exact absurd same apart
    · rfl
  exact ⟨backed.alone (alone .supply), backed.alone (alone .collateral)⟩

def ofPlainMarket (account : Pubkey) : Bool :=
  account.toList[0]? == some 11 && account.toList[2]? == some 4

theorem ofPlainMarket_derived (mint : Pubkey) :
    ofPlainMarket (plainEnvironment.getAssociatedTokenAddress (plainKey 11) mint) = true := by
  simp [ofPlainMarket, plainEnvironment, plainKey]

def plainTokens : TokenProgram (Pubkey → Nat) where
  balance t := t
  transfer source destination authority amount t :=
    if amount.toNat ≤ t source ∧ (ofPlainMarket source = true → authority = plainKey 11) then
      some (Backing.move source destination amount.toNat t)
    else none
  moves source destination authority amount t t' transferred := by
    obtain ⟨allowed, moved_eq⟩ := Option.ite_none_right_eq_some.mp transferred
    exact ⟨allowed.1, (Option.some.inj moved_eq).symm⟩

theorem plainTokens_guards : Guards plainTokens plainEnvironment (plainKey 11) := by
  intro mint destination authority amount t t' transferred
  exact (Option.ite_none_right_eq_some.mp transferred).1.2 (ofPlainMarket_derived mint)

def plainBalances (account : Pubkey) : Nat :=
  if account = plainKey 30 ∨ account = plainKey 31 then 10000 else 0

def plainBanked : List AutaraEvent × Chain × (Pubkey → Nat) :=
  plainLoan.foldl (bankStep plainEnvironment plainTokens) ([], plainStart, plainBalances)

theorem plainBanked_banked :
    Banked plainEnvironment plainTokens (fun wallet => wallet = plainKey 11)
    (plainStart, plainBalances) plainBanked.1 plainBanked.2 := by
  have plain : ∀ call ∈ plainLoan, call.context = plainContext ∧
      ¬ SignedBy call.accounts (plainKey 11) := by
    unfold plainLoan plainPositions
    rw [List.cons_append, List.cons_append, List.cons_append, List.nil_append]
    repeat' rw [List.forall_mem_cons]
    refine ⟨⟨rfl, ?_⟩, ⟨rfl, ?_⟩, ⟨rfl, ?_⟩, ⟨rfl, ?_⟩, ⟨rfl, ?_⟩, ⟨rfl, ?_⟩, List.forall_mem_nil _⟩
    all_goals decide
  refine banked_of_calls plainLoan ?_ (fun call member => ?_) _ (.refl _)
  · rintro call member wallet rfl
    exact (plain call member).2
  obtain ⟨accounts, instruction, context⟩ := call
  obtain rfl : context = plainContext := (plain _ member).1
  rfl

theorem plain_vaults_cover_books :
    ∃ m : Market, plainBanked.2.1.Holds (plainKey 11) m ∧
      netFlows plainBanked.1 (plainKey 11) .supply ≤ plainBanked.2.2 m.supplyVault.vault ∧
      ∑ᶠ account, heldIn (fun p : BorrowPosition => p.collateralDepositedAtoms.toNat)
        plainBanked.2.1 (plainKey 11) account ≤ plainBanked.2.2 m.collateralVault.vault ∧
      plainBanked.2.2 m.supplyVault.vault = 700 ∧
      plainBanked.2.2 m.collateralVault.vault = 500 := by
  obtain ⟨m, held, apart, supply, collateral⟩ : ∃ m : Market,
    plainBanked.2.1.Holds (plainKey 11) m ∧
      m.supplyVault.vault ≠ m.collateralVault.vault ∧ plainBanked.2.2 m.supplyVault.vault = 700 ∧
        plainBanked.2.2 m.collateralVault.vault = 500 := by
    refine exists_holds _ ?_
    decide +kernel
  obtain ⟨cash, deposits⟩ := (vaults_cover_books plainBanked_banked
    (fun wallet (own : wallet = plainKey 11) => own ▸ plainTokens_guards) plainStart_bare rfl
      held).2
    apart
  exact ⟨m, held, cash, deposits, supply, collateral⟩

end

end Transactions

end AutaraLending
