import AutaraLending.UpgradeLoop

/-! The whole upgrade, from the first reading of the account to its verification, and its
resumption. An attempt can break off at any call to the node, and what it has sent may be taken up
by the chain long after that, in any order, or never. -/

namespace AutaraLending

open Support

namespace Upgrade

/-- What the node returns for the program. -/
structure ProgramAccount extends Account where
  isExecutable : Bool
  deriving DecidableEq

/-- What `upgrade_in_place` sends to the chain, all of it signed by the authority. -/
inductive LoaderTransaction where
  | retract
  | transfer (lamports : U64)
  | truncate (newLen : UInt32)
  | write (instruction : LoaderWrite)
  | deploy
  deriving DecidableEq, Repr

/-- The loader as a program on the chain. A transaction changes the program account or fails. -/
structure LoaderProgram extends Loader where
  bpfLoaderId : Pubkey
  minimumRent : Nat → U64
  process : LoaderTransaction → ProgramAccount → Option ProgramAccount

def LoaderProgram.SameElf (program : LoaderProgram) (a b : ProgramAccount) : Prop :=
  b.data.length = a.data.length ∧
    b.data.drop program.programDataOffset = a.data.drop program.programDataOffset

/-- What a transaction does to the program account when it does not fail. The status in the loader
header is left open. -/
structure LoaderProgram.Documented (program : LoaderProgram) : Prop where
  retracted : ∀ a b, program.process .retract a = some b →
    b.isExecutable = false ∧ program.SameElf a b
  transferred : ∀ lamports a b, program.process (.transfer lamports) a = some b →
    b = { a with lamports := b.lamports }
  truncated : ∀ newLen a b, program.process (.truncate newLen) a = some b →
    b.isExecutable = a.isExecutable ∧
      b.data.length = program.programDataOffset + newLen.toNat ∧
      (b.data <+: a.data ∨ a.data <+: b.data)
  written : ∀ instruction a b, program.process (.write instruction) a = some b →
    b.isExecutable = a.isExecutable ∧ b.data = program.write instruction a.data
  deployed : ∀ a b, program.process .deploy a = some b →
    b.isExecutable = true ∧ program.SameElf a b

inductive UpgradeError where
  | node
  | owner
  | accountTooSmall
  | authority
  | transaction (id : Nat)
  | chunksMissing (count : Nat)
  | notExecutable
  | elfMismatch
  | panicked
  deriving DecidableEq, Repr

inductive Stage where
  | idle
  | preparing (rest : List LoaderTransaction)
  | confirming (id : Nat) (rest : List LoaderTransaction)
  | writing (upload : Upload)
  | deploying (id : Nat)
  | verifying
  | finished
  | failed (error : UpgradeError)
  deriving DecidableEq, Repr

def Stage.isRunning : Stage → Bool
  | .idle => false
  | .finished => false
  | .failed _ => false
  | _ => true

/-- The client and the chain. All transactions that were ever sent keep their place as their
identifier, and the chain takes up each of them once at most. -/
structure System where
  account : ProgramAccount
  sent : List LoaderTransaction
  processed : List (Nat × Bool)
  stage : Stage
  deriving DecidableEq

def System.status (s : System) (id : Nat) : Option Bool := s.processed.lookup id

def System.send (s : System) (transaction : LoaderTransaction) (stage : Stage) : System :=
  { s with sent := s.sent ++ [transaction], stage }

/-- The client is run, it goes on, a call of it to the node fails, or the chain takes up a
transaction. -/
inductive AttemptEvent where
  | start
  | advance
  | abort
  | land (id : Nat)
  deriving DecidableEq, Repr

section

variable (program : LoaderProgram) (elf : List UInt8) (chunkSize : Nat) (authority : Pubkey)

def preparation (acc : ProgramAccount) : List LoaderTransaction :=
  let needed := program.programDataOffset + elf.length
  let missing := program.minimumRent needed - min acc.lamports (program.minimumRent needed)
  (if acc.isExecutable then [.retract] else []) ++
    if acc.data.length ≠ needed then
      (if 0 < missing then [.transfer missing] else []) ++ [.truncate (UInt32.ofNat elf.length)]
    else []

def preflight (acc : ProgramAccount) : Stage :=
  if acc.owner ≠ program.bpfLoaderId then .failed .owner
  else if acc.data.length < program.programDataOffset then .failed .accountTooSmall
  else if Bytes.region acc.data 0 32 ≠ authority.toList then .failed .authority
  else .preparing (preparation program elf acc)

def verifyUpgrade (acc : ProgramAccount) : Stage :=
  if acc.isExecutable = false then .failed .notExecutable
  else
    match getFrom acc.data program.programDataOffset with
    | none => .failed .panicked
    | some onchain => if onchain = elf then .finished else .failed .elfMismatch

/-- The next move of the client, when there is one. It waits until the chain has taken up a
transaction that it confirms. -/
def advance (s : System) : Option System :=
  match s.stage with
  | .preparing [] =>
      some { s with stage := .writing (startUpload program.toLoader elf chunkSize s.account.data) }
  | .preparing (transaction :: rest) => some (s.send transaction (.confirming s.sent.length rest))
  | .confirming id rest =>
      (s.status id).map fun succeeded =>
        { s with stage := if succeeded then .preparing rest else .failed (.transaction id) }
  | .writing upload =>
      match upload.phase with
      | .sending =>
          some { s with
            sent := s.sent ++ upload.todo.map fun i => .write (chunkWrite elf chunkSize i)
            stage := .writing (sendPass elf chunkSize upload) }
      | .waiting =>
          some { s with
            stage := .writing (readback program.toLoader elf chunkSize
              { upload with accountData := s.account.data }) }
      | .written => some (s.send .deploy (.deploying s.sent.length))
      | .abandoned => some { s with stage := .failed (.chunksMissing upload.todo.length) }
  | .deploying id =>
      (s.status id).map fun succeeded =>
        { s with stage := if succeeded then .verifying else .failed (.transaction id) }
  | .verifying => some { s with stage := verifyUpgrade program elf s.account }
  | .idle => none
  | .finished => none
  | .failed _ => none

/-- The chain takes up a transaction, which fails or changes the account. -/
def land (s : System) (id : Nat) : Option System :=
  if (s.status id).isSome then none
  else
    (s.sent[id]?).map fun transaction =>
      match program.process transaction s.account with
      | some account => { s with account, processed := (id, true) :: s.processed }
      | none => { s with processed := (id, false) :: s.processed }

def stepAttempt (s : System) : AttemptEvent → Option System
  | .start =>
      if s.stage.isRunning then none
      else some { s with stage := preflight program elf authority s.account }
  | .advance => advance program elf chunkSize s
  | .abort => if s.stage.isRunning then some { s with stage := .failed .node } else none
  | .land id => land program s id

def executeAttempt (event : AttemptEvent) : Method Unit System Unit := fun s =>
  match stepAttempt program elf chunkSize authority s event with
  | some t => (.ok (), t)
  | none => (.error (), s)

def runAttempts (s : System) (events : List AttemptEvent) : System :=
  Machine.run (executeAttempt program elf chunkSize authority) s events

def untouched (account : ProgramAccount) : System where
  account
  sent := []
  processed := []
  stage := .idle

end

section

variable {program : LoaderProgram} {elf : List UInt8} {chunkSize : Nat} {authority : Pubkey}
  {s t : System} {event : AttemptEvent} {u : Unit}

theorem executeAttempt_succeeds :
    (executeAttempt program elf chunkSize authority event).Succeeds s u t ↔
      stepAttempt program elf chunkSize authority s event = some t := by
  unfold Method.Succeeds executeAttempt
  cases stepAttempt program elf chunkSize authority s event with
  | none => simp
  | some t' => simp

theorem commit_attempt :
    Machine.commit (executeAttempt program elf chunkSize authority) s event =
      (stepAttempt program elf chunkSize authority s event).getD s := by
  unfold Machine.commit executeAttempt
  cases stepAttempt program elf chunkSize authority s event with
  | none => rfl
  | some t' => rfl

theorem runAttempts_append (first second : List AttemptEvent) :
    runAttempts program elf chunkSize authority s (first ++ second) =
      runAttempts program elf chunkSize authority
        (runAttempts program elf chunkSize authority s first) second :=
  Machine.run_append _ _ _ _

theorem status_cons {id id' : Nat} {outcome : Bool} (s : System) :
    ({ s with processed := (id, outcome) :: s.processed } : System).status id' =
      if id' = id then some outcome else s.status id' := by
  unfold System.status
  rw [List.lookup_cons]
  by_cases same : id' = id
  · simp [same]
  · simp [same, beq_eq_false_iff_ne.mpr same]

theorem land_cases {id : Nat} (landed : land program s id = some t) :
    s.status id = none ∧ ∃ transaction, s.sent[id]? = some transaction ∧
      ((∃ account, program.process transaction s.account = some account ∧
          t = { s with account, processed := (id, true) :: s.processed }) ∨
        program.process transaction s.account = none ∧
          t = { s with processed := (id, false) :: s.processed }) := by
  unfold land at landed
  by_cases known : (s.status id).isSome
  · simp [known] at landed
  · rw [if_neg known] at landed
    obtain ⟨transaction, sent, eq⟩ := Option.map_eq_some_iff.mp landed
    refine ⟨Option.not_isSome_iff_eq_none.mp known, transaction, sent, ?_⟩
    cases processed : program.process transaction s.account with
    | none =>
        rw [processed] at eq
        exact Or.inr ⟨rfl, eq.symm⟩
    | some account =>
        rw [processed] at eq
        exact Or.inl ⟨account, rfl, eq.symm⟩

end

/-! What the transactions of an upgrade make of the account. -/

section

variable (program : LoaderProgram) (elf : List UInt8) (chunkSize : Nat)

/-- The transactions that an upgrade to this ELF can consist of. -/
def Proper : LoaderTransaction → Prop
  | .retract => True
  | .transfer _ => True
  | .truncate newLen => newLen.toNat = elf.length
  | .write instruction =>
      ∃ i, i * chunkSize < elf.length ∧ instruction = chunkWrite elf chunkSize i
  | .deploy => True

def Sized (account : ProgramAccount) : Prop :=
  account.data.length = program.programDataOffset + elf.length

/-- The account holds the ELF and nothing else. -/
def Complete (account : ProgramAccount) : Prop :=
  Sized program elf account ∧ account.data.drop program.programDataOffset = elf

/-- The hypotheses of an upgrade: chunks have a size, and 32 bits are enough for the offsets. -/
structure Deployable : Prop where
  documented : program.Documented
  positive : 0 < chunkSize
  fits : elf.length < 2 ^ 32

end

section

variable {program : LoaderProgram} {elf : List UInt8} {chunkSize : Nat} {authority : Pubkey}
  {a b : ProgramAccount} {transaction : LoaderTransaction}

theorem sized_of_sameElf (same : program.SameElf a b) (sized : Sized program elf a) :
    Sized program elf b := same.1.trans sized

theorem complete_of_sameElf (same : program.SameElf a b) (complete : Complete program elf a) :
    Complete program elf b :=
  ⟨sized_of_sameElf same complete.1, same.2.trans complete.2⟩

theorem complete_iff (positive : 0 < chunkSize) (sized : Sized program elf a) :
    Complete program elf a ↔ missingChunks program.toLoader elf chunkSize a.data = [] := by
  rw [missingChunks_eq_nil positive]
  constructor
  · intro complete
    rw [complete.2]
  · intro held
    refine ⟨sized, (held.eq_of_length ?_).symm⟩
    rw [List.length_drop, sized, Nat.add_sub_cancel_left]

theorem Deployable.sized (deployable : Deployable program elf chunkSize)
    (proper : Proper elf chunkSize transaction)
    (processed : program.process transaction a = some b) (sized : Sized program elf a) :
    Sized program elf b := by
  have documented := deployable.documented
  cases transaction with
  | retract => exact sized_of_sameElf (documented.retracted a b processed).2 sized
  | transfer lamports =>
      rw [documented.transferred lamports a b processed]
      exact sized
  | truncate newLen =>
      obtain ⟨-, length, -⟩ := documented.truncated newLen a b processed
      exact length.trans (congrArg _ proper)
  | write instruction =>
      obtain ⟨i, started, rfl⟩ := proper
      unfold Sized
      rw [(documented.written _ a b processed).2, length_write (le_of_eq sized.symm) started]
      exact sized
  | deploy => exact sized_of_sameElf (documented.deployed a b processed).2 sized

theorem Deployable.complete (deployable : Deployable program elf chunkSize)
    (proper : Proper elf chunkSize transaction)
    (processed : program.process transaction a = some b) (complete : Complete program elf a) :
    Complete program elf b := by
  have documented := deployable.documented
  have sized := deployable.sized proper processed complete.1
  cases transaction with
  | retract => exact complete_of_sameElf (documented.retracted a b processed).2 complete
  | transfer lamports =>
      rw [documented.transferred lamports a b processed]
      exact complete
  | truncate newLen =>
      obtain ⟨-, -, nested⟩ := documented.truncated newLen a b processed
      have lengths : b.data.length = a.data.length := sized.trans complete.1.symm
      have same : b.data = a.data := by
        rcases nested with shorter | longer
        · exact shorter.eq_of_length lengths
        · exact (longer.eq_of_length lengths.symm).symm
      exact ⟨sized, (congrArg _ same).trans complete.2⟩
  | write instruction =>
      obtain ⟨i, started, rfl⟩ := proper
      have below := deployable.fits
      have nothing := (complete_iff deployable.positive complete.1).mp complete
      rw [complete_iff deployable.positive sized, (documented.written _ a b processed).2,
        missingChunks_write deployable.positive (le_of_eq complete.1.symm) started (by omega),
        nothing]
      rfl
  | deploy => exact complete_of_sameElf (documented.deployed a b processed).2 complete

theorem LoaderProgram.Documented.executable (documented : program.Documented)
    (processed : program.process transaction a = some b) (executable : b.isExecutable = true) :
    transaction = .deploy ∨ transaction ≠ .retract ∧ a.isExecutable = true := by
  cases transaction with
  | retract =>
      rw [(documented.retracted a b processed).1] at executable
      cases executable
  | transfer lamports =>
      rw [documented.transferred lamports a b processed] at executable
      exact Or.inr ⟨nofun, executable⟩
  | truncate newLen =>
      rw [(documented.truncated newLen a b processed).1] at executable
      exact Or.inr ⟨nofun, executable⟩
  | write instruction =>
      rw [(documented.written instruction a b processed).1] at executable
      exact Or.inr ⟨nofun, executable⟩
  | deploy => exact Or.inl rfl

end

/-! What holds through all attempts. -/

section

variable (program : LoaderProgram) (elf : List UInt8) (chunkSize : Nat)

def truncation : LoaderTransaction := .truncate (UInt32.ofNat elf.length)

def Preparatory : LoaderTransaction → Prop
  | .retract => True
  | .transfer _ => True
  | .truncate newLen => newLen = UInt32.ofNat elf.length
  | .write _ => False
  | .deploy => False

def StageSound (account : ProgramAccount) (sent : List LoaderTransaction) : Stage → Prop
  | .idle => True
  | .preparing rest =>
      (∀ transaction ∈ rest, Preparatory elf transaction) ∧
        (Sized program elf account ∨ truncation elf ∈ rest)
  | .confirming id rest =>
      (∀ transaction ∈ rest, Preparatory elf transaction) ∧
        (Sized program elf account ∨ truncation elf ∈ rest ∨ sent[id]? = some (truncation elf))
  | .writing upload =>
      Sized program elf account ∧ (∀ i ∈ upload.todo, i * chunkSize < elf.length) ∧
        (upload.phase = .written → Complete program elf account)
  | .deploying _ => Complete program elf account
  | .verifying => Complete program elf account
  | .finished => Complete program elf account
  | .failed _ => True

def AwaitsRetraction (sent : List LoaderTransaction) : Stage → Prop
  | .idle => True
  | .preparing rest => ∃ later, rest = .retract :: later
  | .confirming id _ => sent[id]? = some .retract
  | .failed _ => True
  | _ => False

/-- The program that is to be replaced still runs, and nothing but retractions is under way. -/
structure Unreached (initial : ProgramAccount) (s : System) : Prop where
  executable : initial.isExecutable = true
  elf_kept : s.account.data.drop program.programDataOffset =
    initial.data.drop program.programDataOffset
  only_retractions : ∀ transaction ∈ s.sent, transaction = .retract
  none_succeeded : ∀ id, s.status id ≠ some true
  awaits : AwaitsRetraction s.sent s.stage

structure Safe (initial : ProgramAccount) (s : System) : Prop where
  proper : ∀ transaction ∈ s.sent, Proper elf chunkSize transaction
  sound : StageSound program elf chunkSize s.account s.sent s.stage
  writes_sized : ∀ instruction, .write instruction ∈ s.sent → Sized program elf s.account
  deploys_complete : .deploy ∈ s.sent → Complete program elf s.account
  truncations_sized : ∀ id, s.status id = some true → s.sent[id]? = some (truncation elf) →
    Sized program elf s.account
  known : ∀ id, s.status id ≠ none → id < s.sent.length
  exposed : s.account.isExecutable = true →
    Complete program elf s.account ∨ Unreached program initial s

end

section

variable {program : LoaderProgram} {elf : List UInt8} {chunkSize : Nat} {authority : Pubkey}
  {initial : ProgramAccount} {s t : System}

theorem untouched_safe (initial : ProgramAccount) :
    Safe program elf chunkSize initial (untouched initial) where
  proper _ member := nomatch member
  sound := trivial
  writes_sized _ member := nomatch member
  deploys_complete member := nomatch member
  truncations_sized _ succeeded := nomatch succeeded
  known _ processed := absurd rfl processed
  exposed executable := Or.inr ⟨executable, rfl, List.forall_mem_nil _, nofun, trivial⟩

theorem Deployable.truncation_proper (deployable : Deployable program elf chunkSize) :
    (UInt32.ofNat elf.length).toNat = elf.length := by
  rw [UInt32.toNat_ofNat']
  exact Nat.mod_eq_of_lt deployable.fits

theorem Deployable.proper_of_preparatory (deployable : Deployable program elf chunkSize)
    {transaction : LoaderTransaction} (preparatory : Preparatory elf transaction) :
    Proper elf chunkSize transaction := by
  cases transaction with
  | retract => trivial
  | transfer lamports => trivial
  | truncate newLen =>
      obtain rfl : newLen = UInt32.ofNat elf.length := preparatory
      exact deployable.truncation_proper
  | write instruction => exact preparatory.elim
  | deploy => trivial

theorem Safe.move (safe : Safe program elf chunkSize initial s) (new : List LoaderTransaction)
    (stage : Stage) (proper : ∀ transaction ∈ new, Proper elf chunkSize transaction)
    (writes : ∀ instruction, .write instruction ∈ new → Sized program elf s.account)
    (deploys : .deploy ∈ new → Complete program elf s.account)
    (sound : StageSound program elf chunkSize s.account (s.sent ++ new) stage)
    (awaits : s.account.isExecutable = true → Unreached program initial s →
      (∀ transaction ∈ new, transaction = .retract) ∧ AwaitsRetraction (s.sent ++ new) stage) :
    Safe program elf chunkSize initial { s with sent := s.sent ++ new, stage } where
  proper transaction member := by
    rcases List.mem_append.mp member with before | now
    · exact safe.proper transaction before
    · exact proper transaction now
  sound := sound
  writes_sized instruction member := by
    rcases List.mem_append.mp member with before | now
    · exact safe.writes_sized instruction before
    · exact writes instruction now
  deploys_complete member := by
    rcases List.mem_append.mp member with before | now
    · exact safe.deploys_complete before
    · exact deploys now
  truncations_sized id succeeded read := by
    have before : id < s.sent.length := safe.known id (by
      intro none
      rw [show ({ s with sent := s.sent ++ new, stage } : System).status id = s.status id from rfl,
        none] at succeeded
      cases succeeded)
    rw [List.getElem?_append_left before] at read
    exact safe.truncations_sized id succeeded read
  known id processed := by
    have before := safe.known id processed
    rw [List.length_append]
    omega
  exposed executable := by
    rcases safe.exposed executable with complete | unreached
    · exact Or.inl complete
    · obtain ⟨only, waiting⟩ := awaits executable unreached
      refine Or.inr ⟨unreached.executable, unreached.elf_kept, ?_, unreached.none_succeeded,
        waiting⟩
      intro transaction member
      rcases List.mem_append.mp member with before | now
      · exact unreached.only_retractions transaction before
      · exact only transaction now

theorem Safe.turn (safe : Safe program elf chunkSize initial s) (stage : Stage)
    (sound : StageSound program elf chunkSize s.account s.sent stage)
    (awaits : s.account.isExecutable = true → Unreached program initial s →
      AwaitsRetraction s.sent stage) :
    Safe program elf chunkSize initial { s with stage } := by
  have moved := safe.move [] stage (List.forall_mem_nil _) nofun nofun
    (by rwa [List.append_nil])
    (fun executable unreached =>
      ⟨List.forall_mem_nil _, by
        rw [List.append_nil]
        exact awaits executable unreached⟩)
  rwa [List.append_nil] at moved

theorem preparation_preparatory (account : ProgramAccount) :
    ∀ transaction ∈ preparation program elf account, Preparatory elf transaction := by
  intro transaction member
  unfold preparation at member
  simp only [List.mem_append, List.mem_ite_nil_right, List.mem_singleton] at member
  rcases member with ⟨-, rfl⟩ | ⟨-, ⟨-, rfl⟩ | rfl⟩
  · trivial
  · trivial
  · rfl

theorem preparation_sizes (account : ProgramAccount) :
    Sized program elf account ∨ truncation elf ∈ preparation program elf account := by
  by_cases sized : Sized program elf account
  · exact Or.inl sized
  · refine Or.inr ?_
    have resized : account.data.length ≠ program.programDataOffset + elf.length := sized
    simp [preparation, resized, truncation]

theorem preparation_of_executable {account : ProgramAccount}
    (executable : account.isExecutable = true) :
    ∃ later, preparation program elf account = .retract :: later := by
  unfold preparation
  rw [if_pos executable]
  exact ⟨_, rfl⟩

theorem preflight_cases (program : LoaderProgram) (elf : List UInt8) (authority : Pubkey)
    (account : ProgramAccount) :
    (∃ error, preflight program elf authority account = .failed error) ∨
      preflight program elf authority account = .preparing (preparation program elf account) := by
  unfold preflight
  split
  · exact Or.inl ⟨_, rfl⟩
  · split
    · exact Or.inl ⟨_, rfl⟩
    · split
      · exact Or.inl ⟨_, rfl⟩
      · exact Or.inr rfl

theorem Safe.start (safe : Safe program elf chunkSize initial s) :
    Safe program elf chunkSize initial
      { s with stage := preflight program elf authority s.account } := by
  apply safe.turn
  · rcases preflight_cases program elf authority s.account with ⟨error, eq⟩ | eq
    · rw [eq]
      trivial
    · rw [eq]
      exact ⟨preparation_preparatory s.account, preparation_sizes s.account⟩
  · intro executable _
    rcases preflight_cases program elf authority s.account with ⟨error, eq⟩ | eq
    · rw [eq]
      trivial
    · rw [eq]
      exact preparation_of_executable executable

theorem Safe.fail (safe : Safe program elf chunkSize initial s) (error : UpgradeError) :
    Safe program elf chunkSize initial { s with stage := .failed error } :=
  safe.turn (.failed error) trivial fun _ _ => trivial

theorem Safe.prepare (deployable : Deployable program elf chunkSize)
    (safe : Safe program elf chunkSize initial s) {transaction : LoaderTransaction}
    {rest : List LoaderTransaction} (stage : s.stage = .preparing (transaction :: rest)) :
    Safe program elf chunkSize initial
      (s.send transaction (.confirming s.sent.length rest)) := by
  have sound := safe.sound
  rw [stage] at sound
  obtain ⟨preparatory, sizes⟩ := sound
  have first := preparatory transaction (List.mem_cons_self ..)
  have last : (s.sent ++ [transaction])[s.sent.length]? = some transaction :=
    List.getElem?_concat_length
  apply safe.move [transaction] (.confirming s.sent.length rest)
  · intro _ member
    rw [List.mem_singleton.mp member]
    exact deployable.proper_of_preparatory first
  · intro instruction member
    rw [← List.mem_singleton.mp member] at first
    exact first.elim
  · intro member
    rw [← List.mem_singleton.mp member] at first
    exact first.elim
  · refine ⟨fun later member => preparatory later (List.mem_cons_of_mem _ member), ?_⟩
    rcases sizes with sized | planned
    · exact Or.inl sized
    · rcases List.mem_cons.mp planned with rfl | later
      · exact Or.inr (Or.inr last)
      · exact Or.inr (Or.inl later)
  · intro _ unreached
    have awaits := unreached.awaits
    rw [stage] at awaits
    obtain ⟨later, eq⟩ := awaits
    obtain rfl : transaction = .retract := (List.cons.inj eq).1
    refine ⟨fun _ member => List.mem_singleton.mp member, last⟩

theorem Safe.confirm (safe : Safe program elf chunkSize initial s) {id : Nat}
    {rest : List LoaderTransaction} (stage : s.stage = .confirming id rest)
    (succeeded : s.status id = some true) :
    Safe program elf chunkSize initial { s with stage := .preparing rest } := by
  have sound := safe.sound
  rw [stage] at sound
  obtain ⟨preparatory, sizes⟩ := sound
  apply safe.turn
  · refine ⟨preparatory, ?_⟩
    rcases sizes with sized | planned | sent
    · exact Or.inl sized
    · exact Or.inr planned
    · exact Or.inl (safe.truncations_sized id succeeded sent)
  · intro _ unreached
    exact absurd succeeded (unreached.none_succeeded id)

theorem Unreached.not_past (unreached : Unreached program initial s) {stage : Stage}
    (eq : s.stage = stage) (past : ∀ sent, ¬ AwaitsRetraction sent stage) : False := by
  have awaits := unreached.awaits
  rw [eq] at awaits
  exact past _ awaits

theorem missingChunks_started (positive : 0 < chunkSize) (account : ProgramAccount) :
    ∀ i ∈ missingChunks program.toLoader elf chunkSize account.data,
      i * chunkSize < elf.length :=
  fun _ missing => ((mem_missingChunks positive).mp missing).1

theorem Safe.open (deployable : Deployable program elf chunkSize)
    (safe : Safe program elf chunkSize initial s) (stage : s.stage = .preparing []) :
    Safe program elf chunkSize initial
      { s with
        stage := .writing (startUpload program.toLoader elf chunkSize s.account.data) } := by
  have sound := safe.sound
  rw [stage] at sound
  have sized : Sized program elf s.account := sound.2.resolve_right List.not_mem_nil
  apply safe.turn
  · exact ⟨sized, missingChunks_started deployable.positive s.account, nofun⟩
  · intro _ unreached
    exact (unreached.not_past stage (fun _ ⟨_, eq⟩ => nomatch eq)).elim

theorem Safe.sendPass (safe : Safe program elf chunkSize initial s) {upload : Upload}
    (stage : s.stage = .writing upload) :
    Safe program elf chunkSize initial
      { s with
        sent := s.sent ++ upload.todo.map fun i => .write (chunkWrite elf chunkSize i)
        stage := .writing (Upgrade.sendPass elf chunkSize upload) } := by
  have sound := safe.sound
  rw [stage] at sound
  obtain ⟨sized, started, -⟩ := sound
  apply safe.move
  · intro transaction member
    obtain ⟨i, todo, rfl⟩ := List.mem_map.mp member
    exact ⟨i, started i todo, rfl⟩
  · intro _ _
    exact sized
  · intro member
    obtain ⟨i, -, eq⟩ := List.mem_map.mp member
    cases eq
  · exact ⟨sized, started, nofun⟩
  · intro _ unreached
    exact (unreached.not_past stage fun _ => id).elim

theorem Safe.readback (deployable : Deployable program elf chunkSize)
    (safe : Safe program elf chunkSize initial s) {upload : Upload}
    (stage : s.stage = .writing upload) (waiting : upload.phase = .waiting) :
    Safe program elf chunkSize initial
      { s with
        stage := .writing (Upgrade.readback program.toLoader elf chunkSize
          { upload with accountData := s.account.data }) } := by
  have sound := safe.sound
  rw [stage] at sound
  have sized := sound.1
  have started : ∀ i ∈ missingChunks program.toLoader elf chunkSize s.account.data,
      i * chunkSize < elf.length := missingChunks_started deployable.positive s.account
  apply safe.turn
  · rcases readback_cases program.toLoader elf chunkSize
      { upload with accountData := s.account.data } with
      ⟨done, eq⟩ | ⟨left, -, eq⟩ | ⟨-, -, -, eq⟩ | ⟨-, -, eq⟩
    all_goals rw [eq]
    · exact ⟨sized, started, fun _ => (complete_iff deployable.positive sized).mpr done⟩
    · exact ⟨sized, started, fun written => nomatch waiting.symm.trans written⟩
    · exact ⟨sized, started, nofun⟩
    · exact ⟨sized, started, nofun⟩
  · intro _ unreached
    exact (unreached.not_past stage fun _ => id).elim

theorem Safe.deploy (safe : Safe program elf chunkSize initial s) {upload : Upload}
    (stage : s.stage = .writing upload) (written : upload.phase = .written) :
    Safe program elf chunkSize initial (s.send .deploy (.deploying s.sent.length)) := by
  have sound := safe.sound
  rw [stage] at sound
  have complete := sound.2.2 written
  apply safe.move [.deploy] (.deploying s.sent.length)
  · intro _ member
    rw [List.mem_singleton.mp member]
    trivial
  · intro instruction member
    cases List.mem_singleton.mp member
  · intro _
    exact complete
  · exact complete
  · intro _ unreached
    exact (unreached.not_past stage fun _ => id).elim

theorem Safe.deployed (safe : Safe program elf chunkSize initial s) {id : Nat}
    (stage : s.stage = .deploying id) :
    Safe program elf chunkSize initial { s with stage := .verifying } := by
  have sound := safe.sound
  rw [stage] at sound
  apply safe.turn .verifying sound
  intro _ unreached
  exact (unreached.not_past stage fun _ => False.elim).elim

theorem verifyUpgrade_cases (program : LoaderProgram) (elf : List UInt8)
    (account : ProgramAccount) :
    (∃ error, verifyUpgrade program elf account = .failed error) ∨
      account.isExecutable = true ∧ verifyUpgrade program elf account = .finished := by
  unfold verifyUpgrade
  cases executable : account.isExecutable with
  | false => exact Or.inl ⟨.notExecutable, if_pos rfl⟩
  | true =>
      cases getFrom account.data program.programDataOffset with
      | none => exact Or.inl ⟨.panicked, rfl⟩
      | some onchain =>
          by_cases same : onchain = elf
          · exact Or.inr ⟨rfl, by simp [same]⟩
          · exact Or.inl ⟨.elfMismatch, by simp [same]⟩

theorem Safe.verify (safe : Safe program elf chunkSize initial s) (stage : s.stage = .verifying) :
    Safe program elf chunkSize initial
      { s with stage := verifyUpgrade program elf s.account } := by
  have sound := safe.sound
  rw [stage] at sound
  rcases verifyUpgrade_cases program elf s.account with ⟨error, eq⟩ | ⟨-, eq⟩
  · rw [eq]
    exact safe.fail error
  · rw [eq]
    apply safe.turn .finished sound
    intro _ unreached
    exact (unreached.not_past stage fun _ => False.elim).elim

theorem Safe.advance (deployable : Deployable program elf chunkSize)
    (safe : Safe program elf chunkSize initial s)
    (advanced : advance program elf chunkSize s = some t) :
    Safe program elf chunkSize initial t := by
  unfold Upgrade.advance at advanced
  cases stage : s.stage with
  | idle => simp [stage] at advanced
  | preparing rest =>
      cases rest with
      | nil =>
          simp only [stage, Option.some.injEq] at advanced
          rw [← advanced]
          exact safe.open deployable stage
      | cons transaction rest =>
          simp only [stage, Option.some.injEq] at advanced
          rw [← advanced]
          exact safe.prepare deployable stage
  | confirming id rest =>
      simp only [stage, Option.map_eq_some_iff] at advanced
      obtain ⟨succeeded, status, rfl⟩ := advanced
      cases succeeded with
      | true => exact safe.confirm stage status
      | false => exact safe.fail (.transaction id)
  | writing upload =>
      cases phase : upload.phase with
      | sending =>
          simp only [stage, phase, Option.some.injEq] at advanced
          rw [← advanced]
          exact safe.sendPass stage
      | waiting =>
          simp only [stage, phase, Option.some.injEq] at advanced
          rw [← advanced, ← phase]
          exact safe.readback deployable stage phase
      | written =>
          simp only [stage, phase, Option.some.injEq] at advanced
          rw [← advanced]
          exact safe.deploy stage phase
      | abandoned =>
          simp only [stage, phase, Option.some.injEq] at advanced
          rw [← advanced]
          exact safe.fail (.chunksMissing upload.todo.length)
  | deploying id =>
      simp only [stage, Option.map_eq_some_iff] at advanced
      obtain ⟨succeeded, status, rfl⟩ := advanced
      cases succeeded with
      | true => exact safe.deployed stage
      | false => exact safe.fail (.transaction id)
  | verifying =>
      simp only [stage, Option.some.injEq] at advanced
      rw [← advanced]
      exact safe.verify stage
  | finished => simp [stage] at advanced
  | failed error => simp [stage] at advanced

theorem StageSound.process (deployable : Deployable program elf chunkSize) {a b : ProgramAccount}
    {transaction : LoaderTransaction} (proper : Proper elf chunkSize transaction)
    (processed : program.process transaction a = some b) {sent : List LoaderTransaction}
    {stage : Stage} (sound : StageSound program elf chunkSize a sent stage) :
    StageSound program elf chunkSize b sent stage := by
  have sized := @Deployable.sized _ _ _ a b _ deployable proper processed
  have complete := @Deployable.complete _ _ _ a b _ deployable proper processed
  cases stage with
  | idle => trivial
  | preparing rest => exact ⟨sound.1, sound.2.imp_left sized⟩
  | confirming id rest => exact ⟨sound.1, sound.2.imp_left sized⟩
  | writing upload => exact ⟨sized sound.1, sound.2.1, fun written => complete (sound.2.2 written)⟩
  | deploying id => exact complete sound
  | verifying => exact complete sound
  | finished => exact complete sound
  | failed error => trivial

theorem Safe.known_cons (safe : Safe program elf chunkSize initial s) {id : Nat}
    {transaction : LoaderTransaction} (sent : s.sent[id]? = some transaction) (outcome : Bool) :
    ∀ id', ({ s with processed := (id, outcome) :: s.processed } : System).status id' ≠ none →
      id' < s.sent.length := by
  intro id' processed
  rw [status_cons] at processed
  by_cases same : id' = id
  · rw [same]
    exact (List.getElem?_eq_some_iff.mp sent).1
  · rw [if_neg same] at processed
    exact safe.known id' processed

theorem Safe.refused (safe : Safe program elf chunkSize initial s) {id : Nat}
    {transaction : LoaderTransaction} (sent : s.sent[id]? = some transaction) :
    Safe program elf chunkSize initial { s with processed := (id, false) :: s.processed } := by
  have earlier (id' : Nat)
      (succeeded : ({ s with processed := (id, false) :: s.processed } : System).status id' =
        some true) : s.status id' = some true := by
    rw [status_cons] at succeeded
    by_cases same : id' = id
    · rw [if_pos same] at succeeded
      cases succeeded
    · rwa [if_neg same] at succeeded
  refine ⟨safe.proper, safe.sound, safe.writes_sized, safe.deploys_complete, ?_,
    safe.known_cons sent false, ?_⟩
  · intro id' succeeded read
    exact safe.truncations_sized id' (earlier id' succeeded) read
  · intro executable
    rcases safe.exposed executable with complete | unreached
    · exact Or.inl complete
    · refine Or.inr ⟨unreached.executable, unreached.elf_kept, unreached.only_retractions, ?_,
        unreached.awaits⟩
      intro id' succeeded
      exact unreached.none_succeeded id' (earlier id' succeeded)

theorem Safe.landed (deployable : Deployable program elf chunkSize)
    (safe : Safe program elf chunkSize initial s) {id : Nat} {transaction : LoaderTransaction}
    {account : ProgramAccount} (sent : s.sent[id]? = some transaction)
    (processed : program.process transaction s.account = some account) :
    Safe program elf chunkSize initial
      { s with account, processed := (id, true) :: s.processed } := by
  have member := List.mem_of_getElem? sent
  have proper := safe.proper transaction member
  have sized := @Deployable.sized _ _ _ _ _ _ deployable proper processed
  have complete := @Deployable.complete _ _ _ _ _ _ deployable proper processed
  refine ⟨safe.proper, safe.sound.process deployable proper processed,
    fun instruction written => sized (safe.writes_sized instruction written),
    fun deployed => complete (safe.deploys_complete deployed), ?_, safe.known_cons sent true, ?_⟩
  · intro id' succeeded read
    rw [show ({ s with account, processed := (id, true) :: s.processed } : System).status id' =
      ({ s with processed := (id, true) :: s.processed } : System).status id' from rfl,
      status_cons] at succeeded
    by_cases same : id' = id
    · have truncated : transaction = truncation elf := by
        rw [same] at read
        exact Option.some.inj (sent.symm.trans read)
      rw [truncated] at processed
      obtain ⟨-, length, -⟩ := deployable.documented.truncated _ _ _ processed
      exact length.trans (congrArg _ deployable.truncation_proper)
    · rw [if_neg same] at succeeded
      exact sized (safe.truncations_sized id' succeeded read)
  · intro executable
    rcases deployable.documented.executable processed executable with rfl | ⟨other, before⟩
    · exact Or.inl (complete (safe.deploys_complete member))
    · rcases safe.exposed before with whole | unreached
      · exact Or.inl (complete whole)
      · exact absurd (unreached.only_retractions transaction member) other

theorem Safe.land (deployable : Deployable program elf chunkSize)
    (safe : Safe program elf chunkSize initial s) {id : Nat} (landed : land program s id = some t) :
    Safe program elf chunkSize initial t := by
  obtain ⟨-, transaction, sent, outcome⟩ := land_cases landed
  rcases outcome with ⟨account, processed, rfl⟩ | ⟨-, rfl⟩
  · exact safe.landed deployable sent processed
  · exact safe.refused sent

/-- The step lemma, whatever the client and the chain do next. -/
theorem Safe.step (deployable : Deployable program elf chunkSize)
    (safe : Safe program elf chunkSize initial s) {event : AttemptEvent}
    (stepped : stepAttempt program elf chunkSize authority s event = some t) :
    Safe program elf chunkSize initial t := by
  cases event with
  | start =>
      simp only [stepAttempt, Option.ite_none_left_eq_some, Option.some.injEq] at stepped
      rw [← stepped.2]
      exact safe.start
  | advance => exact safe.advance deployable stepped
  | abort =>
      simp only [stepAttempt, Option.ite_none_right_eq_some, Option.some.injEq] at stepped
      rw [← stepped.2]
      exact safe.fail .node
  | land id => exact safe.land deployable stepped

theorem Safe.run (deployable : Deployable program elf chunkSize)
    (safe : Safe program elf chunkSize initial s) (events : List AttemptEvent) :
    Safe program elf chunkSize initial
      (runAttempts program elf chunkSize authority s events) := by
  apply @Machine.run_invariant _ _ _ _ (executeAttempt program elf chunkSize authority)
    (fun s => Safe program elf chunkSize initial s) s events safe
  intro s event _ t safe success
  exact safe.step deployable (executeAttempt_succeeds.mp success)

end

/-! A chain that serves the authority of the program. -/

/-- What the first checks of the client ask for. -/
structure Owned (program : LoaderProgram) (authority : Pubkey) (account : ProgramAccount) :
    Prop where
  owner : account.owner = program.bpfLoaderId
  header : program.programDataOffset ≤ account.data.length
  authority : Bytes.region account.data 0 32 = authority.toList

/-- No transaction takes the program from its authority, and none that the authority sends in its
turn is refused: retractions of a program that runs, transfers, and the rest while it does not
run. -/
structure LoaderProgram.Serves (program : LoaderProgram) (authority : Pubkey) : Prop where
  keeps : ∀ transaction a b, program.process transaction a = some b → Owned program authority a →
    b.owner = a.owner ∧ Bytes.region b.data 0 32 = Bytes.region a.data 0 32
  retracts : ∀ a, Owned program authority a → a.isExecutable = true →
    ∃ b, program.process .retract a = some b ∧ b.lamports = a.lamports
  transfers : ∀ lamports a, Owned program authority a →
    a.lamports.toNat + lamports.toNat < 2 ^ 64 →
    ∃ b, program.process (.transfer lamports) a = some b ∧ b.lamports = a.lamports + lamports
  truncates : ∀ newLen a, Owned program authority a → a.isExecutable = false →
    program.minimumRent (program.programDataOffset + newLen.toNat) ≤ a.lamports →
    ∃ b, program.process (.truncate newLen) a = some b
  writes : ∀ instruction a, Owned program authority a → a.isExecutable = false →
    program.programDataOffset + instruction.offset.toNat + instruction.bytes.length ≤
      a.data.length → ∃ b, program.process (.write instruction) a = some b
  deploys : ∀ a, Owned program authority a → a.isExecutable = false →
    ∃ b, program.process .deploy a = some b

section

variable {program : LoaderProgram} {elf : List UInt8} {chunkSize : Nat} {authority : Pubkey}
  {initial : ProgramAccount} {s t : System}

variable (program elf chunkSize authority) in
/-- The client and the chain can bring about a state. -/
def Leads (s t : System) : Prop :=
  ∃ events, runAttempts program elf chunkSize authority s events = t

theorem Leads.trans {t' : System} (first : Leads program elf chunkSize authority s t)
    (second : Leads program elf chunkSize authority t t') :
    Leads program elf chunkSize authority s t' := by
  obtain ⟨events, rfl⟩ := first
  obtain ⟨later, rfl⟩ := second
  exact ⟨events ++ later, runAttempts_append events later⟩

theorem leads_step (event : AttemptEvent)
    (stepped : stepAttempt program elf chunkSize authority s event = some t) :
    Leads program elf chunkSize authority s t := by
  refine ⟨[event], ?_⟩
  change Machine.commit (executeAttempt program elf chunkSize authority) s event = t
  rw [commit_attempt, stepped, Option.getD_some]

structure Resumable (program : LoaderProgram) (elf : List UInt8) (chunkSize : Nat)
    (authority : Pubkey) (initial : ProgramAccount) (s : System) : Prop where
  safe : Safe program elf chunkSize initial s
  owned : Owned program authority s.account

theorem Owned.process (deployable : Deployable program elf chunkSize)
    (serves : program.Serves authority) {a b : ProgramAccount} {transaction : LoaderTransaction}
    (owned : Owned program authority a) (proper : Proper elf chunkSize transaction)
    (sized : ∀ instruction, transaction = .write instruction → Sized program elf a)
    (processed : program.process transaction a = some b) : Owned program authority b := by
  obtain ⟨owner, region⟩ := serves.keeps transaction a b processed owned
  refine ⟨owner.trans owned.owner, ?_, region.trans owned.authority⟩
  have documented := deployable.documented
  cases transaction with
  | retract =>
      rw [(documented.retracted a b processed).2.1]
      exact owned.header
  | transfer lamports =>
      rw [documented.transferred lamports a b processed]
      exact owned.header
  | truncate newLen =>
      rw [(documented.truncated newLen a b processed).2.1]
      exact Nat.le_add_right _ _
  | write instruction =>
      rw [deployable.sized proper processed (sized instruction rfl)]
      exact Nat.le_add_right _ _
  | deploy =>
      rw [(documented.deployed a b processed).2.1]
      exact owned.header

theorem advance_account (advanced : advance program elf chunkSize s = some t) :
    t.account = s.account := by
  unfold Upgrade.advance at advanced
  cases stage : s.stage with
  | idle => simp [stage] at advanced
  | preparing rest =>
      cases rest with
      | nil =>
          simp only [stage, Option.some.injEq] at advanced
          rw [← advanced]
      | cons transaction rest =>
          simp only [stage, Option.some.injEq] at advanced
          rw [← advanced]
          rfl
  | confirming id rest =>
      simp only [stage, Option.map_eq_some_iff] at advanced
      obtain ⟨succeeded, -, rfl⟩ := advanced
      rfl
  | writing upload =>
      cases phase : upload.phase with
      | sending =>
          simp only [stage, phase, Option.some.injEq] at advanced
          rw [← advanced]
      | waiting =>
          simp only [stage, phase, Option.some.injEq] at advanced
          rw [← advanced]
      | written =>
          simp only [stage, phase, Option.some.injEq] at advanced
          rw [← advanced]
          rfl
      | abandoned =>
          simp only [stage, phase, Option.some.injEq] at advanced
          rw [← advanced]
  | deploying id =>
      simp only [stage, Option.map_eq_some_iff] at advanced
      obtain ⟨succeeded, -, rfl⟩ := advanced
      rfl
  | verifying =>
      simp only [stage, Option.some.injEq] at advanced
      rw [← advanced]
  | finished => simp [stage] at advanced
  | failed error => simp [stage] at advanced

theorem Resumable.step (deployable : Deployable program elf chunkSize)
    (serves : program.Serves authority)
    (resumable : Resumable program elf chunkSize authority initial s) {event : AttemptEvent}
    (stepped : stepAttempt program elf chunkSize authority s event = some t) :
    Resumable program elf chunkSize authority initial t := by
  refine ⟨resumable.safe.step deployable stepped, ?_⟩
  cases event with
  | start =>
      simp only [stepAttempt, Option.ite_none_left_eq_some, Option.some.injEq] at stepped
      rw [← stepped.2]
      exact resumable.owned
  | advance =>
      rw [advance_account stepped]
      exact resumable.owned
  | abort =>
      simp only [stepAttempt, Option.ite_none_right_eq_some, Option.some.injEq] at stepped
      rw [← stepped.2]
      exact resumable.owned
  | land id =>
      obtain ⟨-, transaction, sent, outcome⟩ := land_cases stepped
      have member := List.mem_of_getElem? sent
      rcases outcome with ⟨account, processed, rfl⟩ | ⟨-, rfl⟩
      · apply resumable.owned.process deployable serves (resumable.safe.proper _ member)
          (fun instruction eq => ?_) processed
        exact resumable.safe.writes_sized instruction (eq ▸ member)
      · exact resumable.owned

theorem Resumable.run (deployable : Deployable program elf chunkSize)
    (serves : program.Serves authority)
    (resumable : Resumable program elf chunkSize authority initial s)
    (events : List AttemptEvent) :
    Resumable program elf chunkSize authority initial
      (runAttempts program elf chunkSize authority s events) := by
  apply @Machine.run_invariant _ _ _ _ (executeAttempt program elf chunkSize authority)
    (fun s => Resumable program elf chunkSize authority initial s) s events resumable
  intro s event _ t resumable success
  exact resumable.step deployable serves (executeAttempt_succeeds.mp success)

theorem Resumable.leads (deployable : Deployable program elf chunkSize)
    (serves : program.Serves authority)
    (resumable : Resumable program elf chunkSize authority initial s)
    (leads : Leads program elf chunkSize authority s t) :
    Resumable program elf chunkSize authority initial t := by
  obtain ⟨events, rfl⟩ := leads
  exact resumable.run deployable serves events

theorem Safe.fresh (safe : Safe program elf chunkSize initial s) {id : Nat}
    (new : s.sent.length ≤ id) : s.status id = none := by
  by_contra processed
  exact absurd (safe.known id processed) (not_lt.mpr new)

variable (elf chunkSize authority) in
theorem leads_land {id : Nat} {transaction : LoaderTransaction} {account : ProgramAccount}
    (new : s.status id = none) (sent : s.sent[id]? = some transaction)
    (processed : program.process transaction s.account = some account) :
    Leads program elf chunkSize authority s
      { s with account, processed := (id, true) :: s.processed } := by
  apply leads_step (.land id)
  simp [stepAttempt, land, new, sent, processed]

variable (authority) in
theorem leads_prepare (safe : Safe program elf chunkSize initial s)
    {transaction : LoaderTransaction} {rest : List LoaderTransaction} {account : ProgramAccount}
    (stage : s.stage = .preparing (transaction :: rest))
    (processed : program.process transaction s.account = some account) :
    ∃ t, Leads program elf chunkSize authority s t ∧ t.account = account ∧
      t.stage = .preparing rest := by
  have sending : Leads program elf chunkSize authority s
      (s.send transaction (.confirming s.sent.length rest)) := by
    apply leads_step .advance
    simp [stepAttempt, advance, stage]
  have landing := @leads_land program elf chunkSize authority
    (s.send transaction (.confirming s.sent.length rest)) s.sent.length transaction account
    (safe.fresh le_rfl) List.getElem?_concat_length processed
  have confirming : Leads program elf chunkSize authority
      { s.send transaction (.confirming s.sent.length rest) with
        account, processed := (s.sent.length, true) :: s.processed }
      { s.send transaction (.preparing rest) with
        account, processed := (s.sent.length, true) :: s.processed } := by
    apply leads_step .advance
    simp [stepAttempt, advance, System.send, System.status]
  exact ⟨_, (sending.trans landing).trans confirming, rfl, rfl⟩

theorem min_eq_ite (lamports rent : U64) :
    min lamports rent = if lamports ≤ rent then lamports else rent := rfl

theorem paid_rent {lamports rent : U64} (lacks : 0 < rent - min lamports rent) :
    lamports.toNat + (rent - min lamports rent).toNat < 2 ^ 64 ∧
      lamports + (rent - min lamports rent) = rent := by
  rw [min_eq_ite] at lacks ⊢
  by_cases below : lamports ≤ rent
  · have bound := UInt64.toNat_lt rent
    have under := UInt64.le_iff_toNat_le.mp below
    have lack : (rent - lamports).toNat = rent.toNat - lamports.toNat :=
      UInt64.toNat_sub_of_le rent lamports below
    rw [if_pos below]
    refine ⟨by omega, ?_⟩
    apply UInt64.toNat.inj
    rw [UInt64.toNat_add, lack]
    omega
  · rw [if_neg below, UInt64.sub_self] at lacks
    exact absurd lacks (by decide)

theorem rent_paid {lamports rent : U64} (enough : ¬ 0 < rent - min lamports rent) :
    rent ≤ lamports := by
  rw [min_eq_ite] at enough
  by_cases below : lamports ≤ rent
  · have lack := UInt64.toNat_sub_of_le rent lamports below
    rw [if_pos below, UInt64.lt_iff_toNat_lt, lack] at enough
    rw [UInt64.le_iff_toNat_le]
    simp only [UInt64.toNat_zero] at enough
    omega
  · rw [UInt64.le_iff_toNat_le] at below ⊢
    omega

theorem preparation_eq {a b : ProgramAccount} (lamports : b.lamports = a.lamports)
    (length : b.data.length = a.data.length) (idle : b.isExecutable = false) :
    preparation program elf a =
      (if a.isExecutable then [.retract] else []) ++ preparation program elf b := by
  simp [preparation, lamports, length, idle]

theorem Resumable.truncates (deployable : Deployable program elf chunkSize)
    (serves : program.Serves authority)
    (resumable : Resumable program elf chunkSize authority initial s)
    (idle : s.account.isExecutable = false) (stage : s.stage = .preparing [truncation elf])
    (paid : program.minimumRent (program.programDataOffset + elf.length) ≤ s.account.lamports) :
    ∃ t, Leads program elf chunkSize authority s t ∧ t.account.isExecutable = false ∧
      t.stage = .preparing [] := by
  rw [← deployable.truncation_proper] at paid
  obtain ⟨account, processed⟩ := serves.truncates _ _ resumable.owned idle paid
  obtain ⟨t, leads, rfl, prepared⟩ := leads_prepare authority resumable.safe stage processed
  refine ⟨t, leads, ?_, prepared⟩
  rw [(deployable.documented.truncated _ _ _ processed).1, idle]

theorem Resumable.resizes (deployable : Deployable program elf chunkSize)
    (serves : program.Serves authority)
    (resumable : Resumable program elf chunkSize authority initial s)
    (idle : s.account.isExecutable = false)
    (stage : s.stage = .preparing (preparation program elf s.account)) :
    ∃ t, Leads program elf chunkSize authority s t ∧ t.account.isExecutable = false ∧
      t.stage = .preparing [] := by
  by_cases sized : s.account.data.length = program.programDataOffset + elf.length
  · have nothing : preparation program elf s.account = [] := by simp [preparation, idle, sized]
    exact ⟨s, ⟨[], rfl⟩, idle, stage.trans (congrArg _ nothing)⟩
  · by_cases lacks : 0 < program.minimumRent (program.programDataOffset + elf.length) -
        min s.account.lamports (program.minimumRent (program.programDataOffset + elf.length))
    · obtain ⟨inside, sum⟩ := paid_rent lacks
      obtain ⟨account, processed, lamports⟩ := serves.transfers _ _ resumable.owned inside
      have planned : s.stage = .preparing
          [.transfer (program.minimumRent (program.programDataOffset + elf.length) -
            min s.account.lamports (program.minimumRent (program.programDataOffset + elf.length))),
            truncation elf] := by
        rw [stage]
        simp [preparation, idle, sized, lacks, truncation]
      obtain ⟨t, leads, rfl, prepared⟩ := leads_prepare authority resumable.safe planned processed
      have kept : t.account.isExecutable = false := by
        rw [deployable.documented.transferred _ _ _ processed]
        exact idle
      have paid : program.minimumRent (program.programDataOffset + elf.length) ≤
          t.account.lamports := by
        rw [lamports, sum]
        exact UInt64.le_refl _
      obtain ⟨t', later, resized, done⟩ := (resumable.leads deployable serves leads).truncates
        deployable serves kept prepared paid
      exact ⟨t', leads.trans later, resized, done⟩
    · have planned : s.stage = .preparing [truncation elf] := by
        rw [stage]
        simp [preparation, idle, sized, lacks, truncation]
      exact resumable.truncates deployable serves idle planned (rent_paid lacks)

theorem Resumable.prepares (deployable : Deployable program elf chunkSize)
    (serves : program.Serves authority)
    (resumable : Resumable program elf chunkSize authority initial s)
    (stage : s.stage = .preparing (preparation program elf s.account)) :
    ∃ t, Leads program elf chunkSize authority s t ∧ t.account.isExecutable = false ∧
      t.stage = .preparing [] := by
  cases runs : s.account.isExecutable with
  | false => exact resumable.resizes deployable serves runs stage
  | true =>
      obtain ⟨account, processed, lamports⟩ := serves.retracts _ resumable.owned runs
      obtain ⟨idle, length, -⟩ := deployable.documented.retracted _ _ processed
      have planned : s.stage = .preparing (.retract :: preparation program elf account) := by
        rw [stage, preparation_eq lamports length idle, if_pos runs]
        rfl
      obtain ⟨t, leads, rfl, prepared⟩ := leads_prepare authority resumable.safe planned processed
      obtain ⟨t', later, resized, done⟩ :=
        (resumable.leads deployable serves leads).resizes deployable serves idle prepared
      exact ⟨t', leads.trans later, resized, done⟩

theorem Resumable.lands (deployable : Deployable program elf chunkSize)
    (serves : program.Serves authority)
    (resumable : Resumable program elf chunkSize authority initial s)
    (idle : s.account.isExecutable = false) (sized : Sized program elf s.account)
    (before : List LoaderTransaction) (todo : List Nat)
    (started : ∀ i ∈ todo, i * chunkSize < elf.length)
    (sent : s.sent = before ++ todo.map fun i => .write (chunkWrite elf chunkSize i))
    (new : ∀ id, before.length ≤ id → s.status id = none) :
    ∃ t, Leads program elf chunkSize authority s t ∧ t.account.isExecutable = false ∧
      Sized program elf t.account ∧ t.stage = s.stage ∧
      t.account.data = landAll program.toLoader elf chunkSize todo s.account.data := by
  induction todo generalizing s before with
  | nil => exact ⟨s, ⟨[], rfl⟩, idle, sized, rfl, rfl⟩
  | cons i rest ih =>
      have first := started i (List.mem_cons_self ..)
      obtain ⟨account, processed⟩ := serves.writes _ _ resumable.owned idle
        (chunkWrite_inside (le_of_eq sized.symm) first)
      obtain ⟨still, data⟩ := deployable.documented.written _ _ _ processed
      have place : s.sent[before.length]? = some (.write (chunkWrite elf chunkSize i)) := by
        rw [sent, List.getElem?_append_right le_rfl, Nat.sub_self]
        rfl
      have leads := leads_land elf chunkSize authority (new _ le_rfl) place processed
      have proper : Proper elf chunkSize (.write (chunkWrite elf chunkSize i)) := ⟨i, first, rfl⟩
      have kept := deployable.sized proper processed sized
      obtain ⟨t, later, stopped, whole, stage, landed⟩ := ih
        (resumable.leads deployable serves leads) (still.trans idle) kept
        (before ++ [.write (chunkWrite elf chunkSize i)])
        (fun j member => started j (List.mem_cons_of_mem _ member))
        (by simpa using sent)
        (by
          intro id beyond
          rw [List.length_append, List.length_singleton] at beyond
          change ({ s with processed := (before.length, true) :: s.processed } : System).status id =
            none
          rw [status_cons, if_neg (by omega)]
          exact new id (by omega))
      refine ⟨t, leads.trans later, stopped, whole, stage, landed.trans ?_⟩
      rw [data, landAll, landAll, List.foldl_cons]

theorem Resumable.writes (deployable : Deployable program elf chunkSize)
    (serves : program.Serves authority)
    (resumable : Resumable program elf chunkSize authority initial s)
    (idle : s.account.isExecutable = false) (stage : s.stage = .preparing []) :
    ∃ t upload, Leads program elf chunkSize authority s t ∧ t.account.isExecutable = false ∧
      t.stage = .writing upload ∧ upload.phase = .written := by
  have sound := resumable.safe.sound
  rw [stage] at sound
  have sized : Sized program elf s.account := sound.2.resolve_right List.not_mem_nil
  let upload := startUpload program.toLoader elf chunkSize s.account.data
  have started : ∀ i ∈ upload.todo, i * chunkSize < elf.length :=
    missingChunks_started deployable.positive s.account
  have opens : Leads program elf chunkSize authority s { s with stage := .writing upload } := by
    apply leads_step .advance
    simp [stepAttempt, advance, stage, upload]
  have sends : Leads program elf chunkSize authority { s with stage := .writing upload }
      { s with
        sent := s.sent ++ upload.todo.map fun i => .write (chunkWrite elf chunkSize i)
        stage := .writing (sendPass elf chunkSize upload) } := leads_step .advance rfl
  have passed := opens.trans sends
  obtain ⟨t, lands, still, sized_t, waiting, data⟩ := Resumable.lands deployable serves
    (resumable.leads deployable serves passed) idle sized s.sent upload.todo started rfl
    (fun id beyond => resumable.safe.fresh beyond)
  have nothing : missingChunks program.toLoader elf chunkSize t.account.data = [] := by
    rw [data, missingChunks_landAll deployable.positive upload.todo (le_of_eq sized.symm) started
      (fun i member => lt_of_lt_of_le (started i member) deployable.fits.le),
      List.filter_eq_nil_iff]
    intro i missing
    simp only [decide_eq_true_eq, not_not]
    exact missing
  have reads : Leads program elf chunkSize authority t
      { t with
        stage := .writing (readback program.toLoader elf chunkSize
          { sendPass elf chunkSize upload with accountData := t.account.data }) } := by
    apply leads_step .advance
    simp [stepAttempt, advance, waiting, sendPass]
  refine ⟨_, _, (passed.trans lands).trans reads, still, rfl, ?_⟩
  rcases readback_cases program.toLoader elf chunkSize
    { sendPass elf chunkSize upload with accountData := t.account.data } with
    ⟨-, eq⟩ | ⟨left, -⟩ | ⟨left, -⟩ | ⟨left, -⟩
  · rw [eq]
  · exact absurd nothing left
  · exact absurd nothing left
  · exact absurd nothing left

theorem Resumable.finishes (deployable : Deployable program elf chunkSize)
    (serves : program.Serves authority)
    (resumable : Resumable program elf chunkSize authority initial s)
    (idle : s.account.isExecutable = false) {upload : Upload} (stage : s.stage = .writing upload)
    (written : upload.phase = .written) :
    ∃ t, Leads program elf chunkSize authority s t ∧ t.account.isExecutable = true ∧
      t.stage = .finished := by
  obtain ⟨account, processed⟩ := serves.deploys _ resumable.owned idle
  obtain ⟨executable, -⟩ := deployable.documented.deployed _ _ processed
  have sends : Leads program elf chunkSize authority s
      (s.send .deploy (.deploying s.sent.length)) := by
    apply leads_step .advance
    simp [stepAttempt, advance, stage, written]
  have lands := @leads_land program elf chunkSize authority
    (s.send .deploy (.deploying s.sent.length)) s.sent.length .deploy account
    (resumable.safe.fresh le_rfl) List.getElem?_concat_length processed
  have confirms : Leads program elf chunkSize authority
      { s.send .deploy (.deploying s.sent.length) with
        account, processed := (s.sent.length, true) :: s.processed }
      { s.send .deploy .verifying with
        account, processed := (s.sent.length, true) :: s.processed } := by
    apply leads_step .advance
    simp [stepAttempt, advance, System.send, System.status]
  have deployed := (sends.trans lands).trans confirms
  have after := resumable.leads deployable serves deployed
  obtain ⟨-, whole⟩ : Complete program elf account := after.safe.sound
  have verdict : verifyUpgrade program elf account = .finished := by
    simp [verifyUpgrade, executable, getFrom, after.owned.header, whole]
  refine ⟨_, deployed.trans (leads_step .advance rfl), executable, verdict⟩

/-- A run of the client from its first reading, when nothing disturbs it. -/
theorem Resumable.completes (deployable : Deployable program elf chunkSize)
    (serves : program.Serves authority)
    (resumable : Resumable program elf chunkSize authority initial s)
    (stopped : s.stage.isRunning = false) :
    ∃ t, Leads program elf chunkSize authority s t ∧ t.account.isExecutable = true ∧
      t.stage = .finished := by
  have owned := resumable.owned
  have checked : preflight program elf authority s.account =
      .preparing (preparation program elf s.account) := by
    simp [preflight, owned.owner, owned.authority, owned.header]
  have starts : Leads program elf chunkSize authority s
      { s with stage := .preparing (preparation program elf s.account) } := by
    apply leads_step .start
    simp [stepAttempt, stopped, checked]
  obtain ⟨t₁, prepares, idle, stage₁⟩ :=
    (resumable.leads deployable serves starts).prepares deployable serves rfl
  have prepared := starts.trans prepares
  obtain ⟨t₂, upload, writes, still, stage₂, written⟩ :=
    (resumable.leads deployable serves prepared).writes deployable serves idle stage₁
  have uploaded := prepared.trans writes
  obtain ⟨t₃, finishes, executable, stage₃⟩ :=
    (resumable.leads deployable serves uploaded).finishes deployable serves still stage₂ written
  exact ⟨t₃, uploaded.trans finishes, executable, stage₃⟩

end

/-! A loader that refuses what its documentation does not allow, with a status in its header. -/

def setStatus (status : UInt8) (data : List UInt8) : List UInt8 :=
  Bytes.overwrite data 32 [status, 0, 0, 0, 0, 0, 0, 0]

def plainProcess (transaction : LoaderTransaction) (a : ProgramAccount) : Option ProgramAccount :=
  if a.data.length < 40 then none
  else
    match transaction with
    | .retract =>
        if a.isExecutable then some { a with isExecutable := false, data := setStatus 0 a.data }
        else none
    | .transfer lamports => some { a with lamports := a.lamports + lamports }
    | .truncate newLen =>
        if a.isExecutable ∨ a.lamports < UInt64.ofNat (40 + newLen.toNat) then none
        else some { a with
          data := a.data.take (40 + newLen.toNat) ++
            List.replicate (40 + newLen.toNat - a.data.length) 0 }
    | .write instruction =>
        if a.isExecutable ∨
            a.data.length < 40 + instruction.offset.toNat + instruction.bytes.length then none
        else some { a with data := plainLoader.write instruction a.data }
    | .deploy =>
        if a.isExecutable then none
        else some { a with isExecutable := true, data := setStatus 1 a.data }

def plainProgram : LoaderProgram where
  toLoader := plainLoader
  bpfLoaderId := Vector.replicate 32 1
  minimumRent size := UInt64.ofNat size
  process := plainProcess

theorem setStatus_sameElf (status : UInt8) {data : List UInt8} (header : 40 ≤ data.length) :
    (setStatus status data).length = data.length ∧
      (setStatus status data).drop 40 = data.drop 40 := by
  refine ⟨Bytes.length_overwrite _ _ _ header, ?_⟩
  apply List.ext_getElem?
  intro i
  rw [List.getElem?_drop, List.getElem?_drop, setStatus, Bytes.getElem?_overwrite _ _ _ _ header,
    if_neg (by simp only [List.length_cons, List.length_nil]; omega)]

theorem setStatus_authority (status : UInt8) {data : List UInt8} (header : 40 ≤ data.length) :
    Bytes.region (setStatus status data) 0 32 = Bytes.region data 0 32 :=
  Bytes.region_overwrite_disjoint _ _ _ _ _ header (Or.inl le_rfl)

theorem plainProcess_header {transaction : LoaderTransaction} {a b : ProgramAccount}
    (processed : plainProcess transaction a = some b) : 40 ≤ a.data.length := by
  unfold plainProcess at processed
  exact not_lt.mp (Option.ite_none_left_eq_some.mp processed).1

theorem plainProgram_documented : plainProgram.Documented where
  retracted a b processed := by
    have header := @plainProcess_header .retract a b processed
    simp only [plainProgram, plainProcess, Option.ite_none_left_eq_some,
      Option.ite_none_right_eq_some, Option.some.injEq] at processed
    obtain ⟨-, -, rfl⟩ := processed
    exact ⟨rfl, setStatus_sameElf 0 header⟩
  transferred lamports a b processed := by
    simp only [plainProgram, plainProcess, Option.ite_none_left_eq_some, Option.some.injEq]
      at processed
    obtain ⟨-, rfl⟩ := processed
    rfl
  truncated newLen a b processed := by
    simp only [plainProgram, plainProcess, Option.ite_none_left_eq_some, Option.some.injEq]
      at processed
    obtain ⟨-, -, rfl⟩ := processed
    refine ⟨rfl, ?_, ?_⟩
    · simp only [List.length_append, List.length_take, List.length_replicate, plainProgram,
        plainLoader]
      omega
    · by_cases shorter : 40 + newLen.toNat ≤ a.data.length
      · refine Or.inl ?_
        simp only [Nat.sub_eq_zero_of_le shorter, List.replicate_zero, List.append_nil]
        exact List.take_prefix _ _
      · refine Or.inr ?_
        simp only [List.take_of_length_le (le_of_not_ge shorter)]
        exact List.prefix_append _ _
  written instruction a b processed := by
    simp only [plainProgram, plainProcess, Option.ite_none_left_eq_some, Option.some.injEq]
      at processed
    obtain ⟨-, -, rfl⟩ := processed
    exact ⟨rfl, rfl⟩
  deployed a b processed := by
    have header := @plainProcess_header .deploy a b processed
    simp only [plainProgram, plainProcess, Option.ite_none_left_eq_some, Option.some.injEq]
      at processed
    obtain ⟨-, -, rfl⟩ := processed
    exact ⟨rfl, setStatus_sameElf 1 header⟩

theorem plainProcess_keeps {transaction : LoaderTransaction} {a b : ProgramAccount}
    (processed : plainProcess transaction a = some b) :
    b.owner = a.owner ∧ Bytes.region b.data 0 32 = Bytes.region a.data 0 32 := by
  have header := plainProcess_header processed
  unfold plainProcess at processed
  cases transaction with
  | retract =>
      simp only [Option.ite_none_left_eq_some, Option.ite_none_right_eq_some, Option.some.injEq]
        at processed
      obtain ⟨-, -, rfl⟩ := processed
      exact ⟨rfl, setStatus_authority 0 header⟩
  | transfer lamports =>
      simp only [Option.ite_none_left_eq_some, Option.some.injEq] at processed
      obtain ⟨-, rfl⟩ := processed
      exact ⟨rfl, rfl⟩
  | truncate newLen =>
      simp only [Option.ite_none_left_eq_some, Option.some.injEq] at processed
      obtain ⟨-, -, rfl⟩ := processed
      refine ⟨rfl, ?_⟩
      rw [Bytes.region_append _ _ _ _ (by rw [List.length_take]; omega)]
      simp only [Bytes.region, List.drop_zero, List.take_take]
      congr 1
      omega
  | write instruction =>
      simp only [Option.ite_none_left_eq_some, Option.some.injEq, not_or, not_lt] at processed
      obtain ⟨-, ⟨-, inside⟩, rfl⟩ := processed
      refine ⟨rfl, ?_⟩
      rw [plainLoader.stores instruction a.data inside]
      exact Bytes.region_overwrite_disjoint _ _ _ _ _ inside
        (Or.inl (show 32 ≤ 40 + instruction.offset.toNat by omega))
  | deploy =>
      simp only [Option.ite_none_left_eq_some, Option.some.injEq] at processed
      obtain ⟨-, -, rfl⟩ := processed
      exact ⟨rfl, setStatus_authority 1 header⟩

theorem plainProgram_serves (authority : Pubkey) : plainProgram.Serves authority where
  keeps transaction a b processed _ := plainProcess_keeps processed
  retracts a owned runs := by
    have header : ¬ a.data.length < 40 := not_lt.mpr owned.header
    simp [plainProgram, plainProcess, header, runs]
  transfers lamports a owned _ := by
    have header : ¬ a.data.length < 40 := not_lt.mpr owned.header
    simp [plainProgram, plainProcess, header]
  truncates newLen a owned idle paid := by
    have header : ¬ a.data.length < 40 := not_lt.mpr owned.header
    have enough : ¬ a.lamports < UInt64.ofNat (40 + newLen.toNat) := UInt64.not_lt.mpr paid
    exact ⟨_, (if_neg header).trans (if_neg (not_or.mpr ⟨by simp [idle], enough⟩))⟩
  writes instruction a owned idle inside := by
    have header : ¬ a.data.length < 40 := not_lt.mpr owned.header
    have room : ¬ a.data.length < 40 + instruction.offset.toNat + instruction.bytes.length :=
      not_lt.mpr inside
    simp [plainProgram, plainProcess, header, idle, room]
  deploys a owned idle := by
    have header : ¬ a.data.length < 40 := not_lt.mpr owned.header
    simp [plainProgram, plainProcess, header, idle]

/-- Whatever is broken off, lost or taken up late over any number of attempts: a program that can be
executed is the whole new ELF or, when it could be before, still the program it was. -/
theorem executable_program_intact {program : LoaderProgram} {elf : List UInt8} {chunkSize : Nat}
    (deployable : Deployable program elf chunkSize) (authority : Pubkey) (initial : ProgramAccount)
    (events : List AttemptEvent)
    (executable : (runAttempts program elf chunkSize authority (untouched initial)
      events).account.isExecutable = true) :
    let onchain := (runAttempts program elf chunkSize authority (untouched initial)
      events).account.data.drop program.programDataOffset
    onchain = elf ∨
      initial.isExecutable = true ∧ onchain = initial.data.drop program.programDataOffset := by
  have safe : Safe program elf chunkSize initial
      (runAttempts program elf chunkSize authority (untouched initial) events) :=
    (untouched_safe initial).run deployable events
  rcases safe.exposed executable with complete | unreached
  · exact Or.inl complete.2
  · exact Or.inr ⟨unreached.executable, unreached.elf_kept⟩

def deployedProgram : ProgramAccount where
  owner := Vector.replicate 32 1
  lamports := 43
  data := List.replicate 32 7 ++ [1, 0, 0, 0, 0, 0, 0, 0] ++ [9, 9, 9]
  isExecutable := true

theorem plainProgram_deployable : Deployable plainProgram [1, 2, 3, 4, 5] 2 where
  documented := plainProgram_documented
  positive := by decide
  fits := by decide

def lateTruncation : List AttemptEvent :=
  [.start, .advance, .land 0, .advance, .advance, .land 1, .advance, .advance, .abort,
    .start, .advance, .land 2, .land 3, .advance, .advance, .advance, .land 6, .land 4, .advance,
    .land 5, .advance, .advance, .land 7]

theorem late_truncation_harmless :
    (runAttempts plainProgram [1, 2, 3, 4, 5] 2 (Vector.replicate 32 7)
      (untouched deployedProgram) lateTruncation).account.data.drop 40 = [1, 2, 3, 4, 5] := by
  have executable : (runAttempts plainProgram [1, 2, 3, 4, 5] 2 (Vector.replicate 32 7)
      (untouched deployedProgram) lateTruncation).account.isExecutable = true := by decide +kernel
  rcases executable_program_intact plainProgram_deployable (Vector.replicate 32 7) deployedProgram
    lateTruncation executable with new | ⟨-, old⟩
  · exact new
  · revert old
    decide +kernel

end Upgrade

end AutaraLending
