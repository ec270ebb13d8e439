import AutaraLending.AdminHandover

/-! The share of the protocol in the fees: a proper fraction, unless the configuration was created
with another one. An update checks the share; the creation takes it as it is. -/

namespace AutaraLending

open Support

/-- A share that is a fraction, which leaves the curator's part of any fee. -/
structure ProperShare (bps : UInt16) : Prop where
  le_one : bps.toNat ≤ 10000
  splits : ∀ feeShares protocolFeeShares : UFixedPoint,
    bpsFromFixedPoint bps.toUInt64 feeShares = .ok protocolFeeShares →
      ∃ curatorFeeShares, feeShares.safeSub protocolFeeShares = .ok curatorFeeShares

theorem properShare_iff (bps : UInt16) : ProperShare bps ↔ bps.toNat ≤ 10000 := by
  refine ⟨ProperShare.le_one, fun within => ⟨within, ?_⟩⟩
  intro feeShares protocolFeeShares success
  have share_eq := bpsFromFixedPoint_ok _ _ _ success
  rw [UInt16.toNat_toUInt64] at share_eq
  have fee_nonneg := UFixedPoint.bits_nonneg feeShares
  have scaled : feeShares.bits * bps.toNat ≤ feeShares.bits * 10000 :=
    Int.mul_le_mul_of_nonneg_left (by exact_mod_cast within) fee_nonneg
  have share_nonneg := UFixedPoint.bits_nonneg protocolFeeShares
  obtain ⟨curatorFeeShares, rest⟩ : ∃ x : UFixedPoint,
      x.bits = feeShares.bits - protocolFeeShares.bits := by
    refine ⟨⟨feeShares.bits - protocolFeeShares.bits, ?_, ?_⟩, rfl⟩
    · rw [u64f64_minBits]
      omega
    · have upper := feeShares.upper
      omega
  exact ⟨curatorFeeShares, (Fixed.safeSub_ok _ _ _).mpr rest.symm⟩

namespace Administration

/-- Every configuration of the protocol and of a market has a proper share. -/
structure ProperShares (chain : Chain) : Prop where
  configs : ∀ key c, chain key = Slot.of (T := GlobalConfig) c → ProperShare c.protocolFeeShareInBps
  markets : ∀ key m, chain key = Slot.of (T := Market) m →
    ProperShare m.config.protocolFeeShareInBps

/-- A configuration is created with a share of at most the whole. -/
def CreatesProperShare (call : Call) : Prop :=
  ∀ data, call.instruction = .createGlobalConfig data → data.protocolFeeShareInBps.toNat ≤ 10000

section

variable {env : Environment} {call : Call} {chain chain' : Chain} {key : Pubkey}

theorem Step.configShare {c : GlobalConfig} (step : Step env call chain chain')
    (after : chain' key = Slot.of c) :
    (∃ before, chain key = Slot.of (T := GlobalConfig) before ∧
        c.protocolFeeShareInBps = before.protocolFeeShareInBps) ∨
      (∃ data, call.instruction = .createGlobalConfig data ∧
        c.protocolFeeShareInBps = data.protocolFeeShareInBps) ∨
      c.protocolFeeShareInBps.toNat ≤ 10000 := by
  by_cases present : ∃ before, chain key = Slot.of (T := GlobalConfig) before
  · obtain ⟨before, before_eq⟩ := present
    obtain ⟨c', after_eq, change⟩ := step.configChange before_eq
    obtain rfl := Slot.of_injective (after_eq.symm.trans after)
    cases change with
    | none elsewhere => exact Or.inl ⟨_, before_eq, rfl⟩
    | update signer data _ updates signed updated =>
        obtain ⟨entered, enters, within, rfl⟩ := (GlobalConfig.update_succeeds _ _ _ _ _).mp updated
        have entered_eq : entered.protocolFeeShareInBps = before.protocolFeeShareInBps := by
          cases enters <;> rfl
        cases given : data.protocolFeeShareInBps with
        | none =>
            refine Or.inl ⟨before, before_eq, ?_⟩
            simpa [GlobalConfig.withFields, given] using entered_eq
        | some newFee =>
            refine Or.inr (Or.inr ?_)
            simpa [GlobalConfig.withFields, given] using within newFee given
  · obtain ⟨data, instruction_eq, rfl⟩ := step.configCreated (not_exists.mp present) after
    exact Or.inr (Or.inl ⟨data, instruction_eq, rfl⟩)

theorem Step.marketShare {m : Market} (step : Step env call chain chain')
    (after : chain' key = Slot.of m) :
    (∃ before, chain key = Slot.of (T := Market) before ∧
        m.config.protocolFeeShareInBps = before.config.protocolFeeShareInBps) ∨
      ∃ g, chain env.findGlobalConfigPda.1 = Slot.of (T := GlobalConfig) g ∧
        m.config.protocolFeeShareInBps = g.protocolFeeShareInBps := by
  cases step with
  | createGlobalConfig data created instruction_eq vacant =>
      rcases updated_slot after with same | written
      · exact Or.inl ⟨m, same, rfl⟩
      · cases congrArg Slot.data written
  | updateGlobalConfig data signer account others before after' instruction_eq accounts_eq signed
      stored updated =>
      rcases updated_slot after with same | written
      · exact Or.inl ⟨m, same, rfl⟩
      · cases congrArg Slot.data written
  | createMarket data accounts g _ instruction_eq config_held creation =>
      by_cases here : key = accounts.market.key
      · rw [here, creation.stored] at after
        obtain rfl := Slot.of_injective after
        exact Or.inr ⟨g, config_held,
          (Market.processCreateMarket_config _ _ _ _ _ creation.created).1⟩
      · rcases creation.others key here with same | ⟨-, token⟩
        · exact Or.inl ⟨m, same ▸ after, rfl⟩
        · rw [token] at after
          cases congrArg Slot.data after
  | updateConfig data accounts g before m' instruction_eq config_held stored updated =>
      rcases updated_slot after with same | written
      · exact Or.inl ⟨m, same, rfl⟩
      · obtain rfl := Slot.of_injective written
        exact Or.inr ⟨g, config_held, (Market.updateConfig_config _ _ _ _ _ _ _ updated).1⟩
  | addWhitelistedLiquidator data curator market before config entry instruction_eq signed stored
      activated counted =>
      by_cases here : key = market
      · subst here
        rw [Function.update_self] at after
        obtain rfl := Slot.of_injective after
        obtain ⟨count, -, rfl⟩ :=
          (MarketConfig.incrementActiveWhitelistedLiquidators_succeeds _ _ _).mp counted
        exact Or.inl ⟨before, stored, rfl⟩
      · rw [Function.update_of_ne here] at after
        rcases updated_slot after with same | written
        · exact Or.inl ⟨m, same, rfl⟩
        · cases congrArg Slot.data written
  | removeWhitelistedLiquidator data curator market before config entry instruction_eq signed stored
      entry_stored market_eq liquidator_eq active counted =>
      by_cases here : key = market
      · subst here
        rw [Function.update_self] at after
        obtain rfl := Slot.of_injective after
        obtain ⟨count, -, rfl⟩ :=
          (MarketConfig.decrementActiveWhitelistedLiquidators_succeeds _ _ _).mp counted
        exact Or.inl ⟨before, stored, rfl⟩
      · rw [Function.update_of_ne here] at after
        rcases updated_slot after with same | written
        · exact Or.inl ⟨m, same, rfl⟩
        · cases congrArg Slot.data written

theorem ProperShares.step (proper : ProperShares chain) (step : Step env call chain chain')
    (creates : CreatesProperShare call) : ProperShares chain' where
  configs key c after := by
    rcases step.configShare after with ⟨before, held, same⟩ | ⟨data, instruction_eq, same⟩ | within
    · rw [same]
      exact proper.configs key before held
    · rw [same]
      exact (properShare_iff _).mpr (creates data instruction_eq)
    · exact (properShare_iff _).mpr within
  markets key m after := by
    rcases step.marketShare after with ⟨before, held, same⟩ | ⟨g, held, same⟩
    · rw [same]
      exact proper.markets key before held
    · rw [same]
      exact proper.configs _ g held

theorem Step.createdShare {data : CreateGlobalConfigInstruction} (step : Step env call chain chain')
    (instruction_eq : call.instruction = .createGlobalConfig data) :
    ∃ key c, chain' key = Slot.of (T := GlobalConfig) c ∧
      c.protocolFeeShareInBps = data.protocolFeeShareInBps := by
  cases step with
  | createGlobalConfig data' created instruction_eq' vacant =>
      rw [instruction_eq] at instruction_eq'
      obtain rfl := AdministrationInstruction.createGlobalConfig.inj instruction_eq'
      exact ⟨created, _, Function.update_self _ _ _, rfl⟩
  | updateGlobalConfig _ _ _ _ _ _ instruction_eq' => simp [instruction_eq] at instruction_eq'
  | createMarket _ _ _ _ instruction_eq' => simp [instruction_eq] at instruction_eq'
  | updateConfig _ _ _ _ _ instruction_eq' => simp [instruction_eq] at instruction_eq'
  | addWhitelistedLiquidator _ _ _ _ _ _ instruction_eq' => simp [instruction_eq] at instruction_eq'
  | removeWhitelistedLiquidator _ _ _ _ _ _ instruction_eq' =>
      simp [instruction_eq] at instruction_eq'

end

/-- The shares stay proper through every state of a run exactly when every configuration that is
created in it has a proper share. -/
theorem proper_shares_iff (env : Environment) (start : Chain) (proper : ProperShares start)
    (calls : List Call) :
    (∀ count, ProperShares (run env start (calls.take count))) ↔
      Machine.Along (execute env) (fun _ call => CreatesProperShare call) start calls := by
  constructor
  · intro always
    by_contra violated
    obtain ⟨before, call, after, u, chain', rfl, success, missed⟩ :=
      Machine.exists_of_not_along (execute env) start calls violated
    unfold CreatesProperShare at missed
    push Not at missed
    obtain ⟨data, instruction_eq, above⟩ := missed
    obtain ⟨key, c, held, share_eq⟩ :=
      (execute_step env call _ _ u success).createdShare instruction_eq
    have reached : run env start ((before ++ call :: after).take (before.length + 1)) = chain' := by
      have prefix_eq : (before ++ call :: after).take (before.length + 1) = before ++ [call] := by
        simp [List.take_append]
      rw [prefix_eq, run_snoc]
      exact Machine.commit_of_succeeds _ success
    have share := (always (before.length + 1)).configs key c (reached ▸ held)
    rw [share_eq] at share
    exact absurd share.le_one (not_le.mpr above)
  · intro along count
    apply Machine.run_invariant_along _ proper (along.take count)
    intro chain call u chain' proper creates success
    exact proper.step (execute_step env call _ _ u success) creates

theorem properShares_plain : ProperShares (plainChain []) where
  configs key c held := by cases congrArg Slot.data held
  markets key m held := by cases congrArg Slot.data held

def configCreation (protocolFeeShareInBps : UInt16) : Call :=
  ⟨[plainSigner 19, plainAccount 10, ⟨plainKey 1, false, false⟩],
    .createGlobalConfig ⟨255, plainKey 20, plainKey 30, protocolFeeShareInBps⟩, plainContext⟩

def shareUpdate : Call :=
  ⟨[plainSigner 20, plainAccount 10], .updateGlobalConfig ⟨false, none, none, some 9999⟩,
    plainContext⟩

theorem whole_share_stays_proper :
    ProperShares (plainChain []) ∧
      run plainEnvironment (plainChain []) [configCreation 10000, shareUpdate] (plainKey 10) =
        Slot.of (GlobalConfig.mk (plainKey 20) zeroedPubkey (plainKey 30) 9999) ∧
      ProperShares (run plainEnvironment (plainChain []) [configCreation 10000, shareUpdate]) := by
  have met : Machine.Along (execute plainEnvironment) (fun _ call => CreatesProperShare call)
      (plainChain []) [configCreation 10000, shareUpdate] := by
    apply Machine.along_of_forall
    intro call member data instruction_eq
    simp only [List.mem_cons, List.not_mem_nil, or_false] at member
    rcases member with rfl | rfl
    · obtain rfl := AdministrationInstruction.createGlobalConfig.inj instruction_eq
      decide
    · cases instruction_eq
  have always := (proper_shares_iff plainEnvironment (plainChain []) properShares_plain _).mpr met
  exact ⟨properShares_plain, by decide +kernel, always 2⟩

/-- A configuration is created with more than the whole; the split of a fee then fails. -/
theorem created_share_above_whole :
    ProperShares (plainChain []) ∧
      run plainEnvironment (plainChain []) [configCreation 10001] (plainKey 10) =
        Slot.of (GlobalConfig.mk (plainKey 20) zeroedPubkey (plainKey 30) 10001) ∧
      ¬ ProperShares (run plainEnvironment (plainChain []) [configCreation 10001]) ∧
      ∃ feeShares protocolFeeShares : UFixedPoint,
        bpsFromFixedPoint 10001 feeShares = .ok protocolFeeShares ∧
          ∀ curatorFeeShares, feeShares.safeSub protocolFeeShares ≠ .ok curatorFeeShares := by
  have created : run plainEnvironment (plainChain []) [configCreation 10001] (plainKey 10) =
      Slot.of (GlobalConfig.mk (plainKey 20) zeroedPubkey (plainKey 30) 10001) := by
    decide +kernel
  refine ⟨properShares_plain, created, ?_, ⟨10000, by decide, by decide⟩,
    ⟨10001, by decide, by decide⟩, by decide +kernel, ?_⟩
  · intro proper
    exact absurd (proper.configs _ _ created).le_one (by decide)
  · intro curatorFeeShares split
    have difference := (Fixed.safeSub_ok _ _ _).mp split
    have nonneg := UFixedPoint.bits_nonneg curatorFeeShares
    simp only at difference
    omega

end Administration

end AutaraLending
