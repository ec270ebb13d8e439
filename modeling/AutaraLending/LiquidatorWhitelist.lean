import AutaraLending.AdministrationStep
import AutaraLending.LendingAccounts
import Mathlib.Data.Set.Card

/-! The whitelists of liquidators: the count in each market agrees with its active entries. -/

namespace AutaraLending

open Support

instance : Finite Pubkey := by
  apply Finite.of_injective (fun (key : Pubkey) (i : Fin 32) => (key[i]).toFin)
  intro first second same
  apply Vector.ext
  intro i within
  exact UInt8.toFin_inj.mp (congrFun same ⟨i, within⟩)

namespace Administration

/-- The accounts of the active entries of a market. -/
def ActiveEntries (chain : Chain) (market : Pubkey) : Set Pubkey :=
  { key | ∃ entry, chain key = Slot.of (T := LiquidatorWhitelistEntry) entry ∧
    entry.market = market ∧ entry.isActive = true }

/-- Every entry is in its own account, for a market that exists, and every market counts its active
entries. -/
structure WhitelistConsistent (env : Environment) (chain : Chain) : Prop where
  placed : ∀ key entry, chain key = Slot.of (T := LiquidatorWhitelistEntry) entry →
    key = (env.findLiquidatorWhitelistEntryPda entry.market entry.liquidator).1
  listed : ∀ key entry, chain key = Slot.of (T := LiquidatorWhitelistEntry) entry →
    ∃ m, chain entry.market = Slot.of (T := Market) m
  counted : ∀ key m, chain key = Slot.of (T := Market) m →
    m.config.activeWhitelistedLiquidators.toNat = (ActiveEntries chain key).ncard

section

variable {env : Environment} {call : Call} {chain chain' : Chain}

def SameEntries (chain chain' : Chain) : Prop :=
  ∀ key entry, chain' key = Slot.of (T := LiquidatorWhitelistEntry) entry ↔
    chain key = Slot.of (T := LiquidatorWhitelistEntry) entry

/-- The same accounts hold markets, with the same counts; a new market counts nobody. -/
structure SameCounts (chain chain' : Chain) : Prop where
  kept : ∀ key m, chain key = Slot.of (T := Market) m → ∃ m', chain' key = Slot.of (T := Market) m'
  origin : ∀ key m', chain' key = Slot.of (T := Market) m' →
    (∃ m, chain key = Slot.of (T := Market) m ∧
      m'.config.activeWhitelistedLiquidators = m.config.activeWhitelistedLiquidators) ∨
    ((∀ m, chain key ≠ Slot.of (T := Market) m) ∧ m'.config.activeWhitelistedLiquidators = 0)

theorem SameEntries.activeEntries (same : SameEntries chain chain') (market : Pubkey) :
    ActiveEntries chain' market = ActiveEntries chain market := by
  ext key
  simp only [ActiveEntries, Set.mem_ofPred_eq, same key]

theorem sameEntries_update {key : Pubkey} {slot : Slot}
    (before : ∀ entry, chain key ≠ Slot.of (T := LiquidatorWhitelistEntry) entry)
    (after : ∀ entry, slot ≠ Slot.of (T := LiquidatorWhitelistEntry) entry) :
    SameEntries chain (Function.update chain key slot) := by
  intro other entry
  by_cases here : other = key
  · subst here
    rw [Function.update_self]
    exact iff_of_false (after entry) (before entry)
  · rw [Function.update_of_ne here]

theorem WhitelistConsistent.of_same (consistent : WhitelistConsistent env chain)
    (entries : SameEntries chain chain') (counts : SameCounts chain chain') :
    WhitelistConsistent env chain' where
  placed key entry held := consistent.placed key entry ((entries key entry).mp held)
  listed key entry held := by
    obtain ⟨m, market_held⟩ := consistent.listed key entry ((entries key entry).mp held)
    exact counts.kept _ m market_held
  counted key m' held := by
    rw [entries.activeEntries]
    rcases counts.origin key m' held with ⟨m, before, same⟩ | ⟨absent, zero⟩
    · rw [same]
      exact consistent.counted key m before
    · -- a market that was not there has no entries
      have none : ActiveEntries chain key = ∅ := by
        rw [Set.eq_empty_iff_forall_notMem]
        rintro account ⟨entry, entry_held, rfl, -⟩
        obtain ⟨m, market_held⟩ := consistent.listed account entry entry_held
        exact absent m market_held
      rw [none, Set.ncard_empty, zero]
      rfl

theorem sameEntries_market {key : Pubkey} {m : Market} (held : chain key = Slot.of m)
    (m' : Market) :
    SameEntries chain (Function.update chain key (Slot.of m')) := by
  apply sameEntries_update
  · intro entry entry_held
    rw [held] at entry_held
    exact market_ne_entry _ _ entry_held
  · exact market_ne_entry m'

theorem mem_activeEntries_update {account other market : Pubkey}
    {entry : LiquidatorWhitelistEntry} :
    other ∈ ActiveEntries (Function.update chain account (Slot.of entry)) market ↔
      (other = account ∧ entry.market = market ∧ entry.isActive = true) ∨
        (other ≠ account ∧ other ∈ ActiveEntries chain market) := by
  by_cases here : other = account
  · subst here
    simp only [ActiveEntries, Set.mem_ofPred_eq, Function.update_self, ne_eq, not_true_eq_false,
      false_and, or_false, true_and]
    constructor
    · rintro ⟨written, same, market_eq, active⟩
      obtain rfl := Slot.of_injective same
      exact ⟨market_eq, active⟩
    · rintro ⟨market_eq, active⟩
      exact ⟨entry, rfl, market_eq, active⟩
  · simp [ActiveEntries, here]

theorem WhitelistConsistent.entry_update (consistent : WhitelistConsistent env chain)
    {key account : Pubkey} {m m' : Market} {entry : LiquidatorWhitelistEntry}
    (held : chain key = Slot.of m)
    (account_eq : account = (env.findLiquidatorWhitelistEntryPda key entry.liquidator).1)
    (market_eq : entry.market = key)
    (own : ∀ before, chain account = Slot.of (T := LiquidatorWhitelistEntry) before →
      before.market = key)
    (no_market : ∀ other, chain account ≠ Slot.of (T := Market) other)
    (count : m'.config.activeWhitelistedLiquidators.toNat =
      (ActiveEntries (Function.update chain account (Slot.of entry)) key).ncard) :
    WhitelistConsistent env
      (Function.update (Function.update chain account (Slot.of entry)) key (Slot.of m')) := by
  have distinct : key ≠ account := by
    rintro rfl
    exact no_market m held
  have market_kept : Function.update chain account (Slot.of entry) key = Slot.of m := by
    rw [Function.update_of_ne distinct]
    exact held
  have entries := sameEntries_market market_kept m'
  constructor
  · intro other written written_eq
    rcases updated_slot ((entries other written).mp written_eq) with before | same
    · exact consistent.placed other written before
    · obtain rfl := Slot.of_injective same
      by_cases here : other = account
      · rw [here, market_eq]
        exact account_eq
      · rw [entries, Function.update_of_ne here] at written_eq
        exact consistent.placed other _ written_eq
  · intro other written written_eq
    have market_listed : ∃ before, chain written.market = Slot.of (T := Market) before := by
      rcases updated_slot ((entries other written).mp written_eq) with before | same
      · exact consistent.listed other written before
      · obtain rfl := Slot.of_injective same
        exact ⟨m, market_eq ▸ held⟩
    obtain ⟨before, before_eq⟩ := market_listed
    by_cases here : written.market = key
    · exact ⟨m', by rw [here, Function.update_self]⟩
    · refine ⟨before, ?_⟩
      rw [Function.update_of_ne here, Function.update_of_ne]
      · exact before_eq
      · intro same
        exact no_market before (same ▸ before_eq)
  · intro other other_market other_eq
    rw [entries.activeEntries]
    by_cases here : other = key
    · subst here
      rw [Function.update_self] at other_eq
      obtain rfl := Slot.of_injective other_eq
      exact count
    · -- the account that is written belongs to the whitelist of `key` before and after
      have unchanged : ActiveEntries (Function.update chain account (Slot.of entry)) other =
          ActiveEntries chain other := by
        ext candidate
        rw [mem_activeEntries_update]
        constructor
        · rintro (⟨-, same, -⟩ | ⟨-, member⟩)
          · exact absurd (same.symm.trans market_eq) here
          · exact member
        · intro member
          refine Or.inr ⟨?_, member⟩
          rintro rfl
          obtain ⟨before, before_eq, same, -⟩ := member
          exact here (same.symm.trans (own before before_eq))
      rw [unchanged]
      rw [Function.update_of_ne here] at other_eq
      rcases updated_slot other_eq with before | written
      · exact consistent.counted other other_market before
      · exact absurd written.symm (market_ne_entry _ _)

theorem sameCounts_update {key : Pubkey} {slot : Slot}
    (before : ∀ m, chain key ≠ Slot.of (T := Market) m)
    (after : ∀ m, slot ≠ Slot.of (T := Market) m) :
    SameCounts chain (Function.update chain key slot) where
  kept other m held := by
    refine ⟨m, ?_⟩
    rw [Function.update_of_ne]
    · exact held
    · rintro rfl
      exact before m held
  origin other m' held := by
    rcases updated_slot held with same | written
    · exact Or.inl ⟨m', same, rfl⟩
    · exact absurd written (after m')

theorem WhitelistConsistent.createMarket (consistent : WhitelistConsistent env chain)
    {ctx : Context} {accounts : CreateMarketAccounts} {data : CreateMarketInstruction}
    {g : GlobalConfig} (creation : MarketCreation env ctx accounts data chain chain' g) :
    WhitelistConsistent env chain' := by
  obtain ⟨market, vacant, created, stored, others⟩ := creation
  have not_entry : ∀ entry, chain accounts.market.key ≠
      Slot.of (T := LiquidatorWhitelistEntry) entry := by
    intro entry held
    cases congrArg Slot.data (vacant.symm.trans held)
  have count := (Market.processCreateMarket_config _ _ _ _ _ created).2
  apply consistent.of_same
  · intro key entry
    by_cases here : key = accounts.market.key
    · rw [here, stored]
      exact iff_of_false (market_ne_entry _ _) (not_entry entry)
    · rcases others key here with same | ⟨before, after⟩
      · rw [same]
      · rw [before, after]
        constructor
        · intro same
          cases congrArg Slot.data same
        · intro same
          cases congrArg Slot.data same
  · constructor
    · intro key m held
      have here : key ≠ accounts.market.key := ne_of_slots held vacant nofun
      rcases others key here with same | ⟨before, -⟩
      · exact ⟨m, same.trans held⟩
      · cases congrArg Slot.data (before.symm.trans held)
    · intro key m' held
      by_cases here : key = accounts.market.key
      · subst here
        obtain rfl := Slot.of_injective (stored.symm.trans held)
        refine Or.inr ⟨?_, count⟩
        intro m market_held
        cases congrArg Slot.data (vacant.symm.trans market_held)
      · rcases others key here with same | ⟨-, after⟩
        · exact Or.inl ⟨m', same ▸ held, rfl⟩
        · cases congrArg Slot.data (after.symm.trans held)

theorem WhitelistConsistent.updateConfig (consistent : WhitelistConsistent env chain)
    {key : Pubkey} {m m' : Market} (held : chain key = Slot.of m)
    (count : m'.config.activeWhitelistedLiquidators = m.config.activeWhitelistedLiquidators) :
    WhitelistConsistent env (Function.update chain key (Slot.of m')) := by
  apply consistent.of_same (sameEntries_market held m')
  constructor
  · intro other before before_eq
    by_cases here : other = key
    · exact ⟨m', by rw [here, Function.update_self]⟩
    · exact ⟨before, by rw [Function.update_of_ne here, before_eq]⟩
  · intro other after after_eq
    by_cases here : other = key
    · subst here
      rw [Function.update_self] at after_eq
      obtain rfl := Slot.of_injective after_eq
      exact Or.inl ⟨m, held, count⟩
    · rw [Function.update_of_ne here] at after_eq
      exact Or.inl ⟨after, after_eq, rfl⟩

theorem activated_found {market liquidator : Pubkey} {bump : UInt8} {slot : Slot}
    {entry : LiquidatorWhitelistEntry}
    (activated : Activated env market liquidator bump slot entry) :
    entry.market = market ∧ entry.liquidator = liquidator ∧ entry.isActive = true ∧
      (∀ m, slot ≠ Slot.of (T := Market) m) ∧
      ∀ before, slot = Slot.of (T := LiquidatorWhitelistEntry) before →
        before.market = market ∧ before.isActive = false := by
  cases activated with
  | created vacant =>
      refine ⟨rfl, rfl, rfl, fun m held => ?_, fun before held => ?_⟩
      · cases congrArg Slot.data (vacant.symm.trans held)
      · cases congrArg Slot.data (vacant.symm.trans held)
  | reactivated old held market_eq liquidator_eq inactive =>
      refine ⟨market_eq, liquidator_eq, rfl, fun m other => ?_, fun before other => ?_⟩
      · exact market_ne_entry _ _ (other.symm.trans held)
      · obtain rfl := Slot.of_injective (held.symm.trans other)
        exact ⟨market_eq, inactive⟩

theorem WhitelistConsistent.step (consistent : WhitelistConsistent env chain)
    (step : Step env call chain chain') : WhitelistConsistent env chain' := by
  cases step with
  | createGlobalConfig data key instruction_eq vacant =>
      apply consistent.of_same
      · apply sameEntries_update
        · intro entry held
          cases congrArg Slot.data (vacant.symm.trans held)
        · intro entry held
          cases congrArg Slot.data held
      · apply sameCounts_update
        · intro m held
          cases congrArg Slot.data (vacant.symm.trans held)
        · intro m held
          cases congrArg Slot.data held
  | updateGlobalConfig data signer account others c c' instruction_eq accounts_eq signed stored
      updated =>
      apply consistent.of_same
      · apply sameEntries_update
        · intro entry held
          cases congrArg Slot.data (stored.symm.trans held)
        · intro entry held
          cases congrArg Slot.data held
      · apply sameCounts_update
        · intro m held
          cases congrArg Slot.data (stored.symm.trans held)
        · intro m held
          cases congrArg Slot.data held
  | createMarket data accounts g _ instruction_eq config_held creation =>
      exact consistent.createMarket creation
  | updateConfig data accounts g m m' instruction_eq config_held held updated =>
      exact consistent.updateConfig held (Market.updateConfig_config _ _ _ _ _ _ _ updated).2
  | addWhitelistedLiquidator data curator key m config entry instruction_eq signed held activated
      counted =>
      obtain ⟨market_eq, liquidator_eq, active, no_market, own⟩ := activated_found activated
      obtain ⟨count, count_eq, rfl⟩ :=
        (MarketConfig.incrementActiveWhitelistedLiquidators_succeeds _ _ _).mp counted
      refine consistent.entry_update held (by rw [liquidator_eq]) market_eq
        (fun before before_eq => (own before before_eq).1) no_market ?_
      have members : ActiveEntries (Function.update chain
            (env.findLiquidatorWhitelistEntryPda key data.liquidator).1 (Slot.of entry)) key =
          insert (env.findLiquidatorWhitelistEntryPda key data.liquidator).1
            (ActiveEntries chain key) := by
        ext other
        rw [mem_activeEntries_update, Set.mem_insert_iff]
        tauto
      have fresh : (env.findLiquidatorWhitelistEntryPda key data.liquidator).1 ∉
          ActiveEntries chain key := by
        rintro ⟨before, before_eq, -, active⟩
        exact absurd active (by simp [(own before before_eq).2])
      rw [members, Set.ncard_insert_of_notMem fresh, ← consistent.counted key m held]
      exact count_eq.symm
  | removeWhitelistedLiquidator data curator key m config entry instruction_eq signed held
      entry_held market_eq liquidator_eq active counted =>
      obtain ⟨count, count_eq, rfl⟩ :=
        (MarketConfig.decrementActiveWhitelistedLiquidators_succeeds _ _ _).mp counted
      have member : (env.findLiquidatorWhitelistEntryPda key data.liquidator).1 ∈
          ActiveEntries chain key := ⟨entry, entry_held, market_eq, active⟩
      refine consistent.entry_update held (by rw [← liquidator_eq]) market_eq ?_ ?_ ?_
      · intro before before_eq
        obtain rfl := Slot.of_injective (entry_held.symm.trans before_eq)
        exact market_eq
      · intro other other_eq
        exact market_ne_entry _ _ (other_eq.symm.trans entry_held)
      · have members : ActiveEntries (Function.update chain
              (env.findLiquidatorWhitelistEntryPda key data.liquidator).1
              (Slot.of { entry with active := 0 })) key =
            ActiveEntries chain key \
              {(env.findLiquidatorWhitelistEntryPda key data.liquidator).1} := by
          ext other
          have inactive : ({ entry with active := 0 } : LiquidatorWhitelistEntry).isActive =
            false :=
            rfl
          rw [mem_activeEntries_update, Set.mem_sdiff, Set.mem_singleton_iff, inactive]
          tauto
        have total := Set.ncard_sdiff_singleton_add_one member
        rw [← consistent.counted key m held, ← count_eq, ← members] at total
        show count.toNat = _
        omega

end

/-- Nobody is whitelisted and every market counts nobody. -/
structure NobodyWhitelisted (chain : Chain) : Prop where
  no_entry : ∀ key entry, chain key ≠ Slot.of (T := LiquidatorWhitelistEntry) entry
  no_count : ∀ key m, chain key = Slot.of (T := Market) m →
    m.config.activeWhitelistedLiquidators = 0

theorem NobodyWhitelisted.consistent {env : Environment} {chain : Chain}
    (nobody : NobodyWhitelisted chain) : WhitelistConsistent env chain where
  placed key entry held := absurd held (nobody.no_entry key entry)
  listed key entry held := absurd held (nobody.no_entry key entry)
  counted key m held := by
    have none : ActiveEntries chain key = ∅ := by
      rw [Set.eq_empty_iff_forall_notMem]
      rintro account ⟨entry, entry_held, -⟩
      exact nobody.no_entry account entry entry_held
    rw [none, Set.ncard_empty, nobody.no_count key m held]
    rfl

theorem whitelist_run (env : Environment) {start : Chain}
    (consistent : WhitelistConsistent env start)
    (calls : List Call) : WhitelistConsistent env (run env start calls) := by
  apply Machine.run_invariant calls consistent
  intro chain call u chain' consistent success
  exact consistent.step (execute_step env call _ _ u success)

/-- In every run each market counts its active entries, and while it counts any, a liquidation is
accepted from a signer with an active entry of their own only. -/
theorem whitelist_counts_and_guards (env : Environment) (start : Chain)
    (nobody : NobodyWhitelisted start) (calls : List Call) (key : Pubkey) (m : Market)
    (held : run env start calls key = Slot.of m) :
    m.config.activeWhitelistedLiquidators.toNat =
        (ActiveEntries (run env start calls) key).ncard ∧
      ∀ ctx infos accounts w',
        (LiquidateAccounts.fromAccounts env ctx infos).Succeeds ⟨run env start calls, []⟩ accounts
          w' →
        accounts.market.key = key → 0 < m.config.activeWhitelistedLiquidators.toNat →
        accounts.liquidator ∈ infos ∧ accounts.liquidator.isSigner = true ∧
          ∃ entry, run env start calls
              (env.findLiquidatorWhitelistEntryPda key accounts.liquidator.key).1 =
                Slot.of (T := LiquidatorWhitelistEntry) entry ∧
            entry.market = key ∧ entry.liquidator = accounts.liquidator.key ∧
            entry.isActive = true := by
  have initial : WhitelistConsistent env start := nobody.consistent
  have consistent := whitelist_run env initial calls
  refine ⟨consistent.counted key m held, ?_⟩
  rintro ctx infos accounts w' success rfl positive
  obtain ⟨-, member, signed, _, held', -, -, guarded⟩ :=
    LiquidateAccounts.fromAccounts_succeeds _ _ _ _ _ _ success
  obtain rfl := Slot.of_injective (held.symm.trans held')
  have restricted : m.config.liquidationsArePermissionless = false := by
    simp only [MarketConfig.liquidationsArePermissionless, beq_eq_false_iff_ne, ne_eq]
    intro zero
    rw [zero] at positive
    exact absurd positive (by decide)
  exact ⟨member, signed, guarded restricted⟩

def curatedMarket : Market :=
  { Market.zeroed with config := { MarketConfig.zeroed with curator := plainKey 20 } }

def whitelistStart : Chain := plainChain [(plainKey 11, Slot.of curatedMarket)]

def entryAccount (liquidator : UInt8) : AccountInfo :=
  ⟨(plainEnvironment.findLiquidatorWhitelistEntryPda (plainKey 11) (plainKey liquidator)).1, false,
    true⟩

def addition (liquidator : UInt8) : Call :=
  ⟨[plainAccount 11, plainSigner 20, entryAccount liquidator, ⟨plainKey 1, false, false⟩],
    .addWhitelistedLiquidator ⟨plainKey liquidator, 255⟩, plainContext⟩

def removal (liquidator : UInt8) : Call :=
  ⟨[plainAccount 11, plainSigner 20, entryAccount liquidator],
    .removeWhitelistedLiquidator ⟨plainKey liquidator⟩, plainContext⟩

theorem one_liquidator_left :
    (ActiveEntries (run plainEnvironment whitelistStart
      [addition 40, addition 40, addition 41, removal 40]) (plainKey 11)).ncard = 1 := by
  have nobody : NobodyWhitelisted whitelistStart := by
    constructor
    · intro key entry held
      unfold whitelistStart plainChain at held
      by_cases here : key = plainKey 11
      · subst here
        cases congrArg Slot.data held
      · simp only [List.find?, Ne.symm here, decide_false] at held
        cases congrArg Slot.data held
    · intro key m held
      by_cases here : key = plainKey 11
      · subst here
        have stored : whitelistStart (plainKey 11) = Slot.of curatedMarket := rfl
        obtain rfl := Slot.of_injective (stored.symm.trans held)
        rfl
      · unfold whitelistStart plainChain at held
        simp only [List.find?, Ne.symm here, decide_false] at held
        cases congrArg Slot.data held
  have counted : run plainEnvironment whitelistStart
      [addition 40, addition 40, addition 41, removal 40] (plainKey 11) =
        Slot.of { curatedMarket with
          config := { curatedMarket.config with activeWhitelistedLiquidators := 1 } } := by
    decide +kernel
  exact (whitelist_counts_and_guards plainEnvironment whitelistStart nobody _ (plainKey 11) _
    counted).1.symm

end Administration

end AutaraLending
