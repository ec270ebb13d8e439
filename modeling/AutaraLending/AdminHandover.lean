import AutaraLending.AdministrationStep

/-! The handover of the admin of the protocol: the admin nominates, and only the nominee accepts. -/

namespace AutaraLending.Administration

open Support

/-- The call updates the configuration in the account `key`, in the name of `signer`. -/
def Call.Updates (call : Call) (key : Pubkey) (signer : AccountInfo)
    (data : UpdateGlobalConfigInstruction) : Prop :=
  call.instruction = .updateGlobalConfig data ∧
    ∃ account others, call.accounts = signer :: account :: others ∧ account.key = key

theorem Call.Updates.unique {call : Call} {key : Pubkey} {first second : AccountInfo}
    {data data' : UpdateGlobalConfigInstruction} (updates : call.Updates key first data)
    (updates' : call.Updates key second data') : first = second ∧ data = data' := by
  obtain ⟨instruction_eq, account, others, accounts_eq, -⟩ := updates
  obtain ⟨instruction_eq', account', others', accounts_eq', -⟩ := updates'
  rw [instruction_eq] at instruction_eq'
  rw [accounts_eq] at accounts_eq'
  exact ⟨(List.cons.inj accounts_eq').1,
    AdministrationInstruction.updateGlobalConfig.inj instruction_eq'⟩

/-- The signature of the admin, or of the nominee who accepts. -/
def MayUpdate (c : GlobalConfig) (signer : AccountInfo) (data : UpdateGlobalConfigInstruction) :
    Prop :=
  signer.isSigner = true ∧
    ((data.acceptNomination = false ∧ signer.key = c.admin) ∨
      (data.acceptNomination = true ∧ c.nomination = some signer.key))

section

variable {env : Environment} {key : Pubkey}

inductive ConfigChange (key : Pubkey) (call : Call) (c : GlobalConfig) : GlobalConfig → Prop
  | none (elsewhere : ∀ signer data, ¬ call.Updates key signer data) : ConfigChange key call c c
  | update (signer : AccountInfo) (data : UpdateGlobalConfigInstruction) (c' : GlobalConfig)
      (updates : call.Updates key signer data) (signed : signer.isSigner = true)
      (updated : (GlobalConfig.update signer.key data).Succeeds c () c') :
      ConfigChange key call c c'

theorem ConfigChange.ofOther {call : Call} (c : GlobalConfig)
    (other : ∀ data, call.instruction ≠ .updateGlobalConfig data) : ConfigChange key call c c :=
  .none fun _ data updates => other data updates.1

theorem Step.configChange {call : Call} {chain chain' : Chain} {c : GlobalConfig}
    (step : Step env call chain chain') (held : chain key = Slot.of c) :
    ∃ c', chain' key = Slot.of c' ∧ ConfigChange key call c c' := by
  cases step with
  | createGlobalConfig data created instruction_eq vacant =>
      refine ⟨c, ?_, .ofOther c (by simp [instruction_eq])⟩
      rw [Function.update_of_ne (ne_of_slots held vacant nofun)]
      exact held
  | updateGlobalConfig data signer account others before after instruction_eq accounts_eq signed
      stored updated =>
      by_cases same : key = account.key
      · subst same
        obtain rfl := Slot.of_injective (held.symm.trans stored)
        refine ⟨after, Function.update_self _ _ _, .update signer data after ?_ signed updated⟩
        exact ⟨instruction_eq, account, others, accounts_eq, rfl⟩
      · refine ⟨c, ?_, .none ?_⟩
        · rw [Function.update_of_ne same]
          exact held
        · rintro other data' ⟨-, account', others', accounts_eq', same'⟩
          rw [accounts_eq] at accounts_eq'
          simp only [List.cons.injEq] at accounts_eq'
          rw [accounts_eq'.2.1] at same
          exact same same'.symm
  | createMarket data accounts g _ instruction_eq config_held creation =>
      refine ⟨c, ?_, .ofOther c (by simp [instruction_eq])⟩
      rcases creation.others key (ne_of_slots held creation.vacant nofun) with same | ⟨vacant, -⟩
      · rw [same]
        exact held
      · rw [vacant] at held
        cases congrArg Slot.data held
  | updateConfig data accounts g m m' instruction_eq config_held stored updated =>
      refine ⟨c, ?_, .ofOther c (by simp [instruction_eq])⟩
      rw [Function.update_of_ne (ne_of_slots held stored nofun)]
      exact held
  | addWhitelistedLiquidator data curator market m config entry instruction_eq signed stored
      activated counted =>
      have distinct : key ≠ (env.findLiquidatorWhitelistEntryPda market data.liquidator).1 := by
        rintro rfl
        rw [held] at activated
        cases activated with
        | created vacant => cases congrArg Slot.data vacant
        | reactivated other held' => cases congrArg Slot.data held'
      refine ⟨c, ?_, .ofOther c (by simp [instruction_eq])⟩
      rw [Function.update_of_ne (ne_of_slots held stored nofun), Function.update_of_ne distinct]
      exact held
  | removeWhitelistedLiquidator data curator market m config entry instruction_eq signed stored
      entry_stored market_eq liquidator_eq active counted =>
      refine ⟨c, ?_, .ofOther c (by simp [instruction_eq])⟩
      rw [Function.update_of_ne (ne_of_slots held stored nofun),
        Function.update_of_ne (ne_of_slots held entry_stored nofun)]
      exact held

theorem Step.configCreated {call : Call} {chain chain' : Chain} {c : GlobalConfig}
    (step : Step env call chain chain')
    (absent : ∀ before, chain key ≠ Slot.of (T := GlobalConfig) before)
    (after : chain' key = Slot.of c) :
    ∃ data, call.instruction = .createGlobalConfig data ∧
      c = ⟨data.admin, zeroedPubkey, data.feeReceiver, data.protocolFeeShareInBps⟩ := by
  cases step with
  | createGlobalConfig data created instruction_eq vacant =>
      rcases updated_slot after with same | written
      · exact absurd same (absent c)
      · exact ⟨data, instruction_eq, (Slot.of_injective written).symm⟩
  | updateGlobalConfig data signer account others before after' instruction_eq accounts_eq signed
      stored updated =>
      by_cases same : key = account.key
      · exact absurd (same ▸ stored) (absent before)
      · rw [Function.update_of_ne same] at after
        exact absurd after (absent c)
  | createMarket data accounts g _ instruction_eq config_held creation =>
      have other : key ≠ accounts.market.key := ne_of_slots after creation.stored nofun
      rcases creation.others key other with same | ⟨-, token⟩
      · exact absurd (same ▸ after) (absent c)
      · rw [token] at after
        cases congrArg Slot.data after
  | updateConfig data accounts g m m' instruction_eq config_held stored updated =>
      rcases updated_slot after with same | written
      · exact absurd same (absent c)
      · cases congrArg Slot.data written
  | addWhitelistedLiquidator data curator market m config entry instruction_eq signed stored
      activated counted =>
      rcases updated_slot after with same | written
      · rcases updated_slot same with same | written
        · exact absurd same (absent c)
        · cases congrArg Slot.data written
      · cases congrArg Slot.data written
  | removeWhitelistedLiquidator data curator market m config entry instruction_eq signed stored
      entry_stored market_eq liquidator_eq active counted =>
      rcases updated_slot after with same | written
      · rcases updated_slot same with same | written
        · exact absurd same (absent c)
        · cases congrArg Slot.data written
      · cases congrArg Slot.data written

def LeavesNomination (key : Pubkey) (call : Call) : Prop :=
  ∀ signer data, call.Updates key signer data →
    data.nominatedAdmin = none ∧ data.acceptNomination = false

/-- The nomination that stands after a history: the last successful one, by the admin of the time,
with no acceptance and no other nomination since. -/
def Nominated (env : Environment) (start : Chain) (key : Pubkey) (history : List Call)
    (nominee : Pubkey) : Prop :=
  ∃ earlier nominating later, history = earlier ++ nominating :: later ∧
    (∃ signer data c, nominating.Updates key signer data ∧ signer.isSigner = true ∧
      data.nominatedAdmin = some nominee ∧
      (execute env nominating).Succeeds (run env start earlier) ()
        (run env start (earlier ++ [nominating])) ∧
      run env start (earlier ++ [nominating]) key = Slot.of (T := GlobalConfig) c ∧
      c.admin = signer.key) ∧
    Machine.Along (execute env) (fun _ call => LeavesNomination key call)
      (run env start (earlier ++ [nominating])) later

theorem run_snoc (start : Chain) (history : List Call) (call : Call) :
    run env start (history ++ [call]) = Machine.commit (execute env) (run env start history) call :=
  Machine.run_append _ _ _ _

theorem Nominated.snoc {start : Chain} {history : List Call} {nominee : Pubkey}
    (nominated : Nominated env start key history nominee) (call : Call)
    (leaves : ∀ u chain', (execute env call).Succeeds (run env start history) u chain' →
      LeavesNomination key call) :
    Nominated env start key (history ++ [call]) nominee := by
  obtain ⟨earlier, nominating, later, rfl, made, stands⟩ := nominated
  refine ⟨earlier, nominating, later ++ [call], by simp, made, ?_⟩
  have reached : Machine.run (execute env) (run env start (earlier ++ [nominating])) later =
      run env start (earlier ++ nominating :: later) := by
    unfold run
    rw [← Machine.run_append, List.append_assoc]
    rfl
  rw [Machine.along_append, reached]
  exact ⟨stands, leaves, trivial⟩

/-- A configuration starts with nobody nominated, whether it is there or still to be created. -/
def NobodyNominated (start : Chain) (key : Pubkey) : Prop :=
  ∀ initial, start key = Slot.of (T := GlobalConfig) initial → initial.nominatedAdmin = zeroedPubkey

theorem nominated_update {start chain' : Chain} {history : List Call} {call : Call}
    {before after : GlobalConfig} {signer : AccountInfo} {data : UpdateGlobalConfigInstruction}
    (earlier : before.nominatedAdmin ≠ zeroedPubkey →
      Nominated env start key history before.nominatedAdmin)
    (success : (execute env call).Succeeds (run env start history) () chain')
    (after_eq : chain' key = Slot.of after) (updates : call.Updates key signer data)
    (signed : signer.isSigner = true)
    (updated : (GlobalConfig.update signer.key data).Succeeds before () after)
    (stored : after.nominatedAdmin ≠ zeroedPubkey) :
    Nominated env start key (history ++ [call]) after.nominatedAdmin := by
  have after_run : run env start (history ++ [call]) = chain' := by
    rw [run_snoc]
    exact Machine.commit_of_succeeds _ success
  obtain ⟨entered, enters, -, rfl⟩ := (GlobalConfig.update_succeeds _ _ _ _ _).mp updated
  cases nominates : data.nominatedAdmin with
  | some nominee =>
      -- this call made the nomination
      have nominee_eq : (entered.withFields data).nominatedAdmin = nominee := by
        simp [GlobalConfig.withFields, nominates]
      rw [nominee_eq]
      refine ⟨history, call, [], rfl, ⟨signer, data, entered.withFields data, updates, signed,
        nominates, ?_, ?_, enters.admin_eq⟩, trivial⟩
      · rw [after_run]
        exact success
      · rw [after_run]
        exact after_eq
  | none =>
      -- the nomination was there before, and an acceptance would have consumed it
      have kept_eq : (entered.withFields data).nominatedAdmin = entered.nominatedAdmin := by
        simp [GlobalConfig.withFields, nominates]
      rw [kept_eq] at stored ⊢
      cases enters with
      | asNominee => exact absurd rfl stored
      | asAdmin declines admin =>
          refine (earlier stored).snoc call ?_
          intro _ _ _ other data' updates'
          obtain ⟨-, rfl⟩ := updates.unique updates'
          exact ⟨nominates, declines⟩

/-- A stored nomination is one that stands. -/
theorem nominated_run {start : Chain} (fresh : NobodyNominated start key) (history : List Call)
    (c : GlobalConfig) (reached : run env start history key = Slot.of c)
    (stored : c.nominatedAdmin ≠ zeroedPubkey) :
    Nominated env start key history c.nominatedAdmin := by
  induction history using List.reverseRecOn generalizing c with
  | nil => exact absurd (fresh c reached) stored
  | append_singleton history call ih =>
      by_cases succeeded : ∃ chain', (execute env call).Succeeds (run env start history) () chain'
      · obtain ⟨chain', success⟩ := succeeded
        have step := execute_step env call _ _ () success
        rw [run_snoc, Machine.commit_of_succeeds _ success] at reached
        by_cases present : ∃ before, run env start history key = Slot.of (T := GlobalConfig) before
        · obtain ⟨before, before_eq⟩ := present
          obtain ⟨after, after_eq, change⟩ := step.configChange before_eq
          obtain rfl := Slot.of_injective (after_eq.symm.trans reached)
          cases change with
          | none elsewhere =>
              exact (ih before before_eq stored).snoc call
                (fun _ _ _ signer data updates => absurd updates (elsewhere signer data))
          | update signer data _ updates signed updated =>
              exact nominated_update (ih before before_eq) success after_eq updates signed updated
                stored
        · obtain ⟨data, -, rfl⟩ := step.configCreated (not_exists.mp present) reached
          exact absurd rfl stored
      · have fails : ∀ u chain', ¬ (execute env call).Succeeds (run env start history) u chain' :=
          fun u chain' success => succeeded ⟨chain', success⟩
        rw [run_snoc, Machine.commit_of_fails _ fails] at reached
        exact (ih c reached stored).snoc call
          (fun u chain' success => absurd success (fails u chain'))

theorem ConfigChange.mayUpdate {call : Call} {c c' : GlobalConfig}
    (change : ConfigChange key call c c') :
    (c' = c ∧ ∀ signer data, ¬ call.Updates key signer data) ∨
      ∃ signer data, call.Updates key signer data ∧ MayUpdate c signer data := by
  cases change with
  | none elsewhere => exact Or.inl ⟨rfl, elsewhere⟩
  | update signer data _ updates signed updated =>
      obtain ⟨entered, enters, -, -⟩ := (GlobalConfig.update_succeeds _ _ _ _ _).mp updated
      refine Or.inr ⟨signer, data, updates, signed, ?_⟩
      cases enters with
      | asAdmin declines admin => exact Or.inl ⟨declines, admin.symm⟩
      | asNominee accepts nominated nonzero =>
          exact Or.inr ⟨accepts, (GlobalConfig.nomination_eq_some _ _).mpr ⟨nominated, nonzero⟩⟩

theorem ConfigChange.admin {call : Call} {c c' : GlobalConfig}
    (change : ConfigChange key call c c') (changed : c'.admin ≠ c.admin) :
    ∃ signer data, call.Updates key signer data ∧ signer.isSigner = true ∧
      data.acceptNomination = true ∧ signer.key = c'.admin ∧ c.nominatedAdmin = c'.admin ∧
      c'.admin ≠ zeroedPubkey := by
  cases change with
  | none elsewhere => exact absurd rfl changed
  | update signer data _ updates signed updated =>
      obtain ⟨entered, enters, -, rfl⟩ := (GlobalConfig.update_succeeds _ _ _ _ _).mp updated
      cases enters with
      | asAdmin declines admin => exact absurd rfl changed
      | asNominee accepts nominated nonzero =>
          exact ⟨signer, data, updates, signed, accepts, rfl, nominated, nonzero⟩

/-- The handover takes two steps. In every history the admin changes by the acceptance of the
nominee, who signs, and whose nomination by the admin of the time is the last one and not consumed;
and an update by anyone who is neither the admin nor an accepting nominee changes nothing. -/
theorem admin_handover (env : Environment) (start : Chain) (key : Pubkey)
    (fresh : NobodyNominated start key) (history : List Call) (call : Call) (c : GlobalConfig)
    (reached : run env start history key = Slot.of c) :
    ∃ c', run env start (history ++ [call]) key = Slot.of c' ∧
      (c'.admin ≠ c.admin → ∃ signer data, call.Updates key signer data ∧ signer.isSigner = true ∧
        data.acceptNomination = true ∧ signer.key = c'.admin ∧ c'.admin ≠ zeroedPubkey ∧
        c.nominatedAdmin = c'.admin ∧ Nominated env start key history c'.admin) ∧
      (c' ≠ c → ∃ signer data, call.Updates key signer data ∧ MayUpdate c signer data) ∧
      (∀ signer data, call.Updates key signer data → ¬ MayUpdate c signer data →
        run env start (history ++ [call]) = run env start history) := by
  by_cases succeeded : ∃ chain', (execute env call).Succeeds (run env start history) () chain'
  · obtain ⟨chain', success⟩ := succeeded
    rw [run_snoc, Machine.commit_of_succeeds _ success]
    obtain ⟨c', after_eq, change⟩ := (execute_step env call _ _ () success).configChange reached
    refine ⟨c', after_eq, ?_, ?_, ?_⟩
    · intro changed
      obtain ⟨signer, data, updates, signed, accepts, admin_eq, nominated, nonzero⟩ :=
        change.admin changed
      have stands := nominated_run fresh history c reached (nominated ▸ nonzero)
      rw [nominated] at stands
      exact ⟨signer, data, updates, signed, accepts, admin_eq, nonzero, nominated, stands⟩
    · intro changed
      rcases change.mayUpdate with ⟨same, -⟩ | allowed
      · exact absurd same changed
      · exact allowed
    · intro signer data updates refused
      rcases change.mayUpdate with ⟨-, elsewhere⟩ | ⟨other, data', updates', allowed⟩
      · exact absurd updates (elsewhere signer data)
      · obtain ⟨rfl, rfl⟩ := updates.unique updates'
        exact absurd allowed refused
  · have same : run env start (history ++ [call]) = run env start history := by
      rw [run_snoc]
      exact Machine.commit_of_fails _ (fun u chain' success => succeeded ⟨chain', success⟩)
    rw [same]
    exact ⟨c, reached, fun changed => absurd rfl changed, fun changed => absurd rfl changed,
      fun _ _ _ _ => rfl⟩

end

def handoverStart : Chain :=
  plainChain [(plainKey 10, Slot.of (GlobalConfig.mk (plainKey 20) zeroedPubkey (plainKey 30) 500))]

def nominationCall : Call :=
  ⟨[plainSigner 20, plainAccount 10], .updateGlobalConfig ⟨false, some (plainKey 21), none, none⟩,
    plainContext⟩

def acceptanceCall : Call :=
  ⟨[plainSigner 21, plainAccount 10], .updateGlobalConfig ⟨true, none, none, some 700⟩,
    plainContext⟩

theorem nominee_becomes_admin :
    run plainEnvironment handoverStart [nominationCall, acceptanceCall] (plainKey 10) =
        Slot.of (GlobalConfig.mk (plainKey 21) zeroedPubkey (plainKey 30) 700) ∧
      Nominated plainEnvironment handoverStart (plainKey 10) [nominationCall] (plainKey 21) := by
  have fresh : NobodyNominated handoverStart (plainKey 10) := by
    intro initial held
    have stored : handoverStart (plainKey 10) =
        Slot.of (GlobalConfig.mk (plainKey 20) zeroedPubkey (plainKey 30) 500) := rfl
    obtain rfl := Slot.of_injective (stored.symm.trans held)
    rfl
  have reached : run plainEnvironment handoverStart [nominationCall] (plainKey 10) =
      Slot.of (GlobalConfig.mk (plainKey 20) (plainKey 21) (plainKey 30) 500) := by
    decide +kernel
  have ended : run plainEnvironment handoverStart [nominationCall, acceptanceCall] (plainKey 10) =
      Slot.of (GlobalConfig.mk (plainKey 21) zeroedPubkey (plainKey 30) 700) := by
    decide +kernel
  obtain ⟨c', after, handed, -⟩ := admin_handover plainEnvironment handoverStart (plainKey 10) fresh
    [nominationCall] acceptanceCall _ reached
  obtain rfl := Slot.of_injective (ended.symm.trans after)
  obtain ⟨_, _, -, -, -, -, -, -, nominated⟩ := handed (by decide)
  exact ⟨ended, nominated⟩

end AutaraLending.Administration
