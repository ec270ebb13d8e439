import AutaraLending.ProgramUpgrade
import AutaraLending.Support.Machine

/-! The loop of the upgrade that writes the ELF and reconciles it with the chain. Between two
readbacks any write that was ever sent may land, late or again, or not at all. -/

namespace AutaraLending

open Support

namespace Upgrade

def maxWritePasses : Nat := 4

def writeStallLimit : Nat := 4

inductive Phase where
  | sending
  | waiting
  | written
  | abandoned
  deriving DecidableEq, Repr

/-- A run of the loop, with the program account on the chain and all writes that were ever sent. -/
structure Upload where
  accountData : List UInt8
  sent : List LoaderWrite
  todo : List Nat
  pass : Nat
  stalls : Nat
  phase : Phase
  deriving DecidableEq, Repr

/-- The client goes on, a call of it to the node fails, or the chain takes up a write. -/
inductive UploadEvent where
  | advance
  | abort
  | land (instruction : LoaderWrite)
  deriving DecidableEq, Repr

section

variable (loader : Loader) (elf : List UInt8) (chunkSize : Nat)

/-- The first reading of the account decides what is to be written. -/
def startUpload (accountData : List UInt8) : Upload where
  accountData
  sent := []
  todo := missingChunks loader elf chunkSize accountData
  pass := 1
  stalls := 0
  phase := .sending

def sendPass (s : Upload) : Upload :=
  { s with sent := s.sent ++ s.todo.map (chunkWrite elf chunkSize), stalls := 0, phase := .waiting }

def readback (s : Upload) : Upload :=
  let remaining := missingChunks loader elf chunkSize s.accountData
  let stalls := if remaining.length < s.todo.length then 0 else s.stalls + 1
  let s := { s with todo := remaining, stalls }
  if remaining.isEmpty then { s with phase := .written }
  else if stalls < writeStallLimit then s
  else if s.pass < maxWritePasses then { s with pass := s.pass + 1, phase := .sending }
  else { s with phase := .abandoned }

def executeUpload : UploadEvent → Method Unit Upload Unit
  | .advance => do
      let s ← Method.self
      match s.phase with
      | .sending => Method.assign (sendPass elf chunkSize s)
      | .waiting => Method.assign (readback loader elf chunkSize s)
      | .written => Method.fail ()
      | .abandoned => Method.fail ()
  | .abort => do
      let s ← Method.self
      Method.rejectIf (s.phase = .written) ()
      Method.assign { s with phase := .abandoned }
  | .land instruction => do
      let s ← Method.self
      Method.rejectIf (instruction ∉ s.sent) ()
      Method.assign { s with accountData := loader.write instruction s.accountData }

def runUpload (s : Upload) (events : List UploadEvent) : Upload :=
  Machine.run (executeUpload loader elf chunkSize) s events

end

section

variable {loader : Loader} {elf initial : List UInt8} {chunkSize : Nat} {s t : Upload}
  {event : UploadEvent} {u : Unit}

theorem runUpload_cons (rest : List UploadEvent) :
    runUpload loader elf chunkSize s (event :: rest) =
      runUpload loader elf chunkSize (Machine.commit (executeUpload loader elf chunkSize) s event)
        rest := Machine.run_cons _ _ _ _

theorem runUpload_append (first second : List UploadEvent) :
    runUpload loader elf chunkSize s (first ++ second) =
      runUpload loader elf chunkSize (runUpload loader elf chunkSize s first) second :=
  Machine.run_append _ _ _ _

theorem executeUpload_cases
    (success : (executeUpload loader elf chunkSize event).Succeeds s u t) :
    (event = .advance ∧ s.phase = .sending ∧ t = sendPass elf chunkSize s) ∨
      (event = .advance ∧ s.phase = .waiting ∧ t = readback loader elf chunkSize s) ∨
      (event = .abort ∧ s.phase ≠ .written ∧ t = { s with phase := .abandoned }) ∨
      ∃ instruction ∈ s.sent, event = .land instruction ∧
        t = { s with accountData := loader.write instruction s.accountData } := by
  cases event with
  | advance =>
      simp only [executeUpload, Method.succeeds_bind, Method.succeeds_self] at success
      obtain ⟨_, _, ⟨rfl, rfl⟩, advanced⟩ := success
      cases phase : s.phase with
      | sending =>
          simp only [phase, Method.succeeds_assign] at advanced
          exact Or.inl ⟨rfl, rfl, advanced.symm⟩
      | waiting =>
          simp only [phase, Method.succeeds_assign] at advanced
          exact Or.inr (Or.inl ⟨rfl, rfl, advanced.symm⟩)
      | written => simp [phase, Method.succeeds_fail] at advanced
      | abandoned => simp [phase, Method.succeeds_fail] at advanced
  | abort =>
      simp only [executeUpload, Method.succeeds_bind, Method.succeeds_self,
        Method.succeeds_rejectIf, Method.succeeds_assign] at success
      obtain ⟨_, _, ⟨rfl, rfl⟩, _, _, ⟨running, rfl⟩, rfl⟩ := success
      exact Or.inr (Or.inr (Or.inl ⟨rfl, running, rfl⟩))
  | land instruction =>
      simp only [executeUpload, Method.succeeds_bind, Method.succeeds_self,
        Method.succeeds_rejectIf, Method.succeeds_assign, not_not] at success
      obtain ⟨_, _, ⟨rfl, rfl⟩, _, _, ⟨member, rfl⟩, rfl⟩ := success
      exact Or.inr (Or.inr (Or.inr ⟨instruction, member, rfl, rfl⟩))

variable (loader elf chunkSize) in
theorem readback_cases (s : Upload) :
    let remaining := missingChunks loader elf chunkSize s.accountData
    let stalls := if remaining.length < s.todo.length then 0 else s.stalls + 1
    (remaining = [] ∧ readback loader elf chunkSize s =
        { s with todo := remaining, stalls, phase := .written }) ∨
      (remaining ≠ [] ∧ stalls < writeStallLimit ∧ readback loader elf chunkSize s =
        { s with todo := remaining, stalls }) ∨
      (remaining ≠ [] ∧ writeStallLimit ≤ stalls ∧ s.pass < maxWritePasses ∧
        readback loader elf chunkSize s =
          { s with todo := remaining, stalls, pass := s.pass + 1, phase := .sending }) ∨
      (remaining ≠ [] ∧ writeStallLimit ≤ stalls ∧ readback loader elf chunkSize s =
        { s with todo := remaining, stalls, phase := .abandoned }) := by
  intro remaining stalls
  unfold readback
  by_cases done : remaining = []
  · exact Or.inl ⟨done, if_pos (by simpa using done)⟩
  · have left : ¬ remaining.isEmpty = true := by simpa using done
    by_cases patient : stalls < writeStallLimit
    · exact Or.inr (Or.inl ⟨done, patient, (if_neg left).trans (if_pos patient)⟩)
    · by_cases again : s.pass < maxWritePasses
      · exact Or.inr (Or.inr (Or.inl ⟨done, not_lt.mp patient, again,
          (if_neg left).trans ((if_neg patient).trans (if_pos again))⟩))
      · exact Or.inr (Or.inr (Or.inr ⟨done, not_lt.mp patient,
          (if_neg left).trans ((if_neg patient).trans (if_neg again))⟩))

theorem readback_accountData (s : Upload) :
    (readback loader elf chunkSize s).accountData = s.accountData := by
  rcases readback_cases loader elf chunkSize s with
    ⟨_, eq⟩ | ⟨_, _, eq⟩ | ⟨_, _, _, eq⟩ | ⟨_, _, eq⟩
  all_goals rw [eq]

/-- What holds all along the loop that began with an account. -/
structure Sound (loader : Loader) (elf : List UInt8) (chunkSize : Nat) (initial : List UInt8)
    (s : Upload) : Prop where
  length_eq : s.accountData.length = initial.length
  sent_listed : ∀ instruction ∈ s.sent, ∃ i ∈ missingChunks loader elf chunkSize initial,
    instruction = chunkWrite elf chunkSize i
  todo_listed : s.todo.Sublist (missingChunks loader elf chunkSize initial)
  missing_todo : (missingChunks loader elf chunkSize s.accountData).Sublist s.todo
  written_complete : s.phase = .written → missingChunks loader elf chunkSize s.accountData = []
  pass_le : s.pass ≤ maxWritePasses
  stalls_lt : s.phase = .waiting → s.stalls < writeStallLimit

theorem startUpload_sound (accountData : List UInt8) :
    Sound loader elf chunkSize accountData (startUpload loader elf chunkSize accountData) where
  length_eq := rfl
  sent_listed _ member := nomatch member
  todo_listed := List.Sublist.refl _
  missing_todo := List.Sublist.refl _
  written_complete written := nomatch written
  pass_le := show 1 ≤ maxWritePasses by decide
  stalls_lt waiting := nomatch waiting

theorem Sound.sendPass (sound : Sound loader elf chunkSize initial s) :
    Sound loader elf chunkSize initial (sendPass elf chunkSize s) where
  length_eq := sound.length_eq
  sent_listed instruction member := by
    rcases List.mem_append.mp member with before | new
    · exact sound.sent_listed instruction before
    · obtain ⟨i, todo, rfl⟩ := List.mem_map.mp new
      exact ⟨i, sound.todo_listed.subset todo, rfl⟩
  todo_listed := sound.todo_listed
  missing_todo := sound.missing_todo
  written_complete written := nomatch written
  pass_le := sound.pass_le
  stalls_lt _ := show 0 < writeStallLimit by decide

theorem Sound.readback (sound : Sound loader elf chunkSize initial s) :
    Sound loader elf chunkSize initial (readback loader elf chunkSize s) := by
  have listed := sound.missing_todo.trans sound.todo_listed
  rcases readback_cases loader elf chunkSize s with
    ⟨done, eq⟩ | ⟨_, patient, eq⟩ | ⟨_, _, again, eq⟩ | ⟨_, _, eq⟩
  all_goals rw [eq]
  · exact ⟨sound.length_eq, sound.sent_listed, listed, List.Sublist.refl _, fun _ => done,
      sound.pass_le, nofun⟩
  · exact ⟨sound.length_eq, sound.sent_listed, listed, List.Sublist.refl _,
      sound.written_complete, sound.pass_le, fun _ => patient⟩
  · exact ⟨sound.length_eq, sound.sent_listed, listed, List.Sublist.refl _, nofun, again, nofun⟩
  · exact ⟨sound.length_eq, sound.sent_listed, listed, List.Sublist.refl _, nofun,
      sound.pass_le, nofun⟩

/-- The hypotheses of the loop: the account has room, and no missing chunk starts too far. -/
structure Writable (loader : Loader) (elf : List UInt8) (chunkSize : Nat) (initial : List UInt8) :
    Prop where
  positive : 0 < chunkSize
  room : loader.programDataOffset + elf.length ≤ initial.length
  fits : ∀ i ∈ missingChunks loader elf chunkSize initial, i * chunkSize < 2 ^ 32

/-- Whichever sent write lands, at whatever time, the list loses its chunk and no other. -/
theorem Sound.landed (writable : Writable loader elf chunkSize initial)
    (sound : Sound loader elf chunkSize initial s) {instruction : LoaderWrite}
    (member : instruction ∈ s.sent) :
    (loader.write instruction s.accountData).length = s.accountData.length ∧
      (missingChunks loader elf chunkSize (loader.write instruction s.accountData)).Sublist
        (missingChunks loader elf chunkSize s.accountData) := by
  obtain ⟨i, listed, rfl⟩ := sound.sent_listed instruction member
  have room : loader.programDataOffset + elf.length ≤ s.accountData.length := by
    rw [sound.length_eq]
    exact writable.room
  have started := ((mem_missingChunks writable.positive).mp listed).1
  refine ⟨length_write room started, ?_⟩
  rw [missingChunks_write writable.positive room started (writable.fits i listed)]
  exact List.filter_sublist

theorem Sound.land (writable : Writable loader elf chunkSize initial)
    (sound : Sound loader elf chunkSize initial s) {instruction : LoaderWrite}
    (member : instruction ∈ s.sent) :
    Sound loader elf chunkSize initial
      { s with accountData := loader.write instruction s.accountData } := by
  obtain ⟨kept, shrinks⟩ := sound.landed writable member
  refine ⟨kept.trans sound.length_eq, sound.sent_listed, sound.todo_listed,
    shrinks.trans sound.missing_todo, fun written => ?_, sound.pass_le, sound.stalls_lt⟩
  have none := sound.written_complete written
  rw [none] at shrinks
  exact List.sublist_nil.mp shrinks

/-- The step lemma: the loop stays sound, and the chunks that are missing get fewer. -/
theorem Sound.step (writable : Writable loader elf chunkSize initial)
    (sound : Sound loader elf chunkSize initial s)
    (success : (executeUpload loader elf chunkSize event).Succeeds s u t) :
    Sound loader elf chunkSize initial t ∧
      (missingChunks loader elf chunkSize t.accountData).Sublist
        (missingChunks loader elf chunkSize s.accountData) := by
  rcases executeUpload_cases success with
    ⟨-, -, rfl⟩ | ⟨-, -, rfl⟩ | ⟨-, -, rfl⟩ | ⟨instruction, member, -, rfl⟩
  · exact ⟨sound.sendPass, List.Sublist.refl _⟩
  · rw [readback_accountData]
    exact ⟨sound.readback, List.Sublist.refl _⟩
  · exact ⟨⟨sound.length_eq, sound.sent_listed, sound.todo_listed, sound.missing_todo, nofun,
      sound.pass_le, nofun⟩, List.Sublist.refl _⟩
  · exact ⟨sound.land writable member, (sound.landed writable member).2⟩

theorem Sound.run (writable : Writable loader elf chunkSize initial)
    (sound : Sound loader elf chunkSize initial s) (events : List UploadEvent) :
    Sound loader elf chunkSize initial (runUpload loader elf chunkSize s events) ∧
      (missingChunks loader elf chunkSize
        (runUpload loader elf chunkSize s events).accountData).Sublist
        (missingChunks loader elf chunkSize s.accountData) := by
  apply @Machine.run_invariant _ _ _ _ (executeUpload loader elf chunkSize)
    (fun t => Sound loader elf chunkSize initial t ∧
      (missingChunks loader elf chunkSize t.accountData).Sublist
        (missingChunks loader elf chunkSize s.accountData))
    s events ⟨sound, List.Sublist.refl _⟩
  intro t event u t' ⟨sound, shrinks⟩ success
  obtain ⟨sound', shrinks'⟩ := sound.step writable success
  exact ⟨sound', shrinks'.trans shrinks⟩

/-! How long the client goes on. -/

/-- What is left of the client's patience: a chunk that arrives renews it. -/
def budget (s : Upload) : Nat :=
  match s.phase with
  | .sending => (s.todo.length + (maxWritePasses + 1 - s.pass)) * (writeStallLimit + 1)
  | .waiting =>
      (s.todo.length + (maxWritePasses - s.pass)) * (writeStallLimit + 1) +
        (writeStallLimit - s.stalls)
  | .written => 0
  | .abandoned => 0

theorem Sound.sendPass_budget (sound : Sound loader elf chunkSize initial s)
    (sending : s.phase = .sending) : budget (Upgrade.sendPass elf chunkSize s) < budget s := by
  have pass_le := sound.pass_le
  simp only [budget, sending, Upgrade.sendPass, maxWritePasses, writeStallLimit] at *
  omega

theorem Sound.readback_budget (sound : Sound loader elf chunkSize initial s)
    (waiting : s.phase = .waiting) :
    budget (Upgrade.readback loader elf chunkSize s) < budget s := by
  have pass_le := sound.pass_le
  have stalls_lt := sound.stalls_lt waiting
  have fewer := sound.missing_todo.length_le
  rcases readback_cases loader elf chunkSize s with
    ⟨_, eq⟩ | ⟨_, patient, eq⟩ | ⟨_, _, again, eq⟩ | ⟨_, _, eq⟩
  all_goals
    rw [eq]
    simp only [budget, waiting, maxWritePasses, writeStallLimit] at *
  · omega
  · split at patient <;> split <;> omega
  · omega
  · omega

theorem commit_advance (s : Upload) :
    Machine.commit (executeUpload loader elf chunkSize) s .advance =
      match s.phase with
      | .sending => Upgrade.sendPass elf chunkSize s
      | .waiting => Upgrade.readback loader elf chunkSize s
      | .written => s
      | .abandoned => s := by
  cases phase : s.phase with
  | sending => simp [Machine.commit, executeUpload, Bind.bind, Method.self, Method.assign, phase]
  | waiting => simp [Machine.commit, executeUpload, Bind.bind, Method.self, Method.assign, phase]
  | written => simp [Machine.commit, executeUpload, Bind.bind, Method.self, Method.fail, phase]
  | abandoned => simp [Machine.commit, executeUpload, Bind.bind, Method.self, Method.fail, phase]

theorem Sound.advance_budget (sound : Sound loader elf chunkSize initial s) :
    budget (Machine.commit (executeUpload loader elf chunkSize) s .advance) ≤ budget s - 1 := by
  rw [commit_advance]
  cases phase : s.phase with
  | sending => exact Nat.le_sub_one_of_lt (sound.sendPass_budget phase)
  | waiting => exact Nat.le_sub_one_of_lt (sound.readback_budget phase)
  | written => simp [budget, phase]
  | abandoned => simp [budget, phase]

variable (loader elf chunkSize s) in
theorem commit_budget (other : event ≠ .advance) :
    budget (Machine.commit (executeUpload loader elf chunkSize) s event) ≤ budget s := by
  rcases Machine.commit_cases (executeUpload loader elf chunkSize) s event with
    ⟨u, success⟩ | kept
  · rcases executeUpload_cases success with
      ⟨advance, -⟩ | ⟨advance, -⟩ | ⟨-, -, eq⟩ | ⟨instruction, -, -, eq⟩
    · exact absurd advance other
    · exact absurd advance other
    · rw [eq]
      exact Nat.zero_le _
    · rw [eq]
      exact le_refl (budget s)
  · rw [kept]

theorem Sound.run_budget (writable : Writable loader elf chunkSize initial)
    (sound : Sound loader elf chunkSize initial s) (events : List UploadEvent) :
    budget (runUpload loader elf chunkSize s events) ≤ budget s - events.count .advance := by
  induction events generalizing s with
  | nil => exact le_refl _
  | cons event rest ih =>
      have next : Sound loader elf chunkSize initial
          (Machine.commit (executeUpload loader elf chunkSize) s event) :=
        (sound.run writable [event]).1
      have later := ih next
      rw [runUpload_cons]
      by_cases advance : event = .advance
      · have lower := sound.advance_budget
        rw [advance] at later ⊢
        rw [List.count_cons_self]
        omega
      · have lower := commit_budget loader elf chunkSize s advance
        rw [List.count_cons_of_ne advance]
        omega

theorem Sound.budget_pos (sound : Sound loader elf chunkSize initial s)
    (unwritten : s.phase ≠ .written) (running : s.phase ≠ .abandoned) : 0 < budget s := by
  have pass_le := sound.pass_le
  cases phase : s.phase with
  | sending =>
      simp only [budget, phase, maxWritePasses, writeStallLimit] at *
      omega
  | waiting =>
      have stalls_lt := sound.stalls_lt phase
      simp only [budget, phase, writeStallLimit] at *
      omega
  | written => exact absurd phase unwritten
  | abandoned => exact absurd phase running

/-! A pass that the network does not disturb. -/

theorem run_landings (landed : List Nat)
    (sent : ∀ i ∈ landed, chunkWrite elf chunkSize i ∈ s.sent) :
    runUpload loader elf chunkSize s
        (landed.map fun i => .land (chunkWrite elf chunkSize i)) =
      { s with accountData := landAll loader elf chunkSize landed s.accountData } := by
  induction landed generalizing s with
  | nil => rfl
  | cons i rest ih =>
      have success :
          (executeUpload loader elf chunkSize (.land (chunkWrite elf chunkSize i))).Succeeds s ()
            { s with
              accountData := loader.write (chunkWrite elf chunkSize i) s.accountData } := by
        simp [executeUpload, Method.succeeds_bind, Method.succeeds_self, Method.succeeds_rejectIf,
          Method.succeeds_assign, sent i (List.mem_cons_self ..)]
      rw [List.map_cons, runUpload_cons, Machine.commit_of_succeeds _ success]
      exact ih fun j member => sent j (List.mem_cons_of_mem _ member)

theorem Sound.pass_lands (writable : Writable loader elf chunkSize initial)
    (sound : Sound loader elf chunkSize initial s) (sending : s.phase = .sending)
    (landed : List Nat) (same : ∀ i, i ∈ landed ↔ i ∈ s.todo) :
    (runUpload loader elf chunkSize s
      (.advance :: (landed.map fun i => .land (chunkWrite elf chunkSize i)) ++ [.advance])).phase =
        .written := by
  have room : loader.programDataOffset + elf.length ≤ s.accountData.length := by
    rw [sound.length_eq]
    exact writable.room
  have listed (i : Nat) (member : i ∈ landed) : i ∈ missingChunks loader elf chunkSize initial :=
    sound.todo_listed.subset ((same i).mp member)
  have sent (i : Nat) (member : i ∈ landed) :
      chunkWrite elf chunkSize i ∈ (Upgrade.sendPass elf chunkSize s).sent :=
    List.mem_append.mpr (Or.inr (List.mem_map.mpr ⟨i, (same i).mp member, rfl⟩))
  have nothing :
      missingChunks loader elf chunkSize (landAll loader elf chunkSize landed s.accountData) =
        [] := by
    rw [missingChunks_landAll writable.positive landed room
      (fun i member => ((mem_missingChunks writable.positive).mp (listed i member)).1)
      (fun i member => writable.fits i (listed i member)), List.filter_eq_nil_iff]
    intro i missing
    simpa using (same i).mpr (sound.missing_todo.subset missing)
  have landings : runUpload loader elf chunkSize s
      (.advance :: landed.map fun i => .land (chunkWrite elf chunkSize i)) =
        { Upgrade.sendPass elf chunkSize s with
          accountData := landAll loader elf chunkSize landed s.accountData } := by
    rw [runUpload_cons, commit_advance, sending]
    exact run_landings landed sent
  rw [runUpload_append, landings, runUpload_cons, commit_advance]
  rcases readback_cases loader elf chunkSize
    { Upgrade.sendPass elf chunkSize s with
      accountData := landAll loader elf chunkSize landed s.accountData } with
    ⟨-, eq⟩ | ⟨some, -⟩ | ⟨some, -⟩ | ⟨some, -⟩
  · exact congrArg Upload.phase eq
  · exact absurd nothing some
  · exact absurd nothing some
  · exact absurd nothing some

end

theorem plainLoader_writable :
    Writable plainLoader [1, 2, 3, 4, 5] 2 (List.replicate 45 0) where
  positive := by decide
  room := by decide
  fits := by decide

/-- When everything that a pass sends lands before the readback, in any order and any number of
times, the ELF is written. -/
theorem undisturbed_pass {loader : Loader} {elf initial : List UInt8} {chunkSize : Nat}
    (writable : Writable loader elf chunkSize initial) (events : List UploadEvent)
    (sending : (runUpload loader elf chunkSize (startUpload loader elf chunkSize initial)
      events).phase = .sending)
    (landed : List Nat)
    (same : ∀ i, i ∈ landed ↔
      i ∈ (runUpload loader elf chunkSize (startUpload loader elf chunkSize initial) events).todo) :
    (runUpload loader elf chunkSize (startUpload loader elf chunkSize initial)
      (events ++ (.advance :: (landed.map fun i => .land (chunkWrite elf chunkSize i)) ++
        [.advance]))).phase = .written := by
  rw [runUpload_append]
  exact ((startUpload_sound initial).run writable events).1.pass_lands writable sending landed same

theorem reordered_pass_written :
    (runUpload plainLoader [1, 2, 3, 4, 5] 2
      (startUpload plainLoader [1, 2, 3, 4, 5] 2 (List.replicate 45 0))
      (List.replicate 5 .advance ++
        (.advance :: ([2, 0, 2, 1].map fun i => .land (chunkWrite [1, 2, 3, 4, 5] 2 i)) ++
          [.advance]))).phase = .written := by
  refine undisturbed_pass plainLoader_writable (List.replicate 5 .advance) (by decide) [2, 0, 2, 1]
    fun i => ?_
  have todo : (runUpload plainLoader [1, 2, 3, 4, 5] 2
      (startUpload plainLoader [1, 2, 3, 4, 5] 2 (List.replicate 45 0))
      (List.replicate 5 .advance)).todo = [0, 1, 2] := by decide
  rw [todo]
  simp only [List.mem_cons, List.not_mem_nil, or_false]
  omega

/-- From any point of the loop on, the chunks that are missing only get fewer. -/
theorem upload_never_regresses {loader : Loader} {elf initial : List UInt8} {chunkSize : Nat}
    (writable : Writable loader elf chunkSize initial) (first second : List UploadEvent) :
    (missingChunks loader elf chunkSize (runUpload loader elf chunkSize
        (startUpload loader elf chunkSize initial) (first ++ second)).accountData).Sublist
      (missingChunks loader elf chunkSize (runUpload loader elf chunkSize
        (startUpload loader elf chunkSize initial) first).accountData) := by
  have sound := ((startUpload_sound initial).run writable first).1
  rw [runUpload_append]
  exact (sound.run writable second).2

/-- Once the loop has ended well, the program is deployed with the whole ELF, also when writes that
were sent before land after that. -/
theorem written_elf_complete {loader : Loader} {elf initial : List UInt8} {chunkSize : Nat}
    (writable : Writable loader elf chunkSize initial) (first second : List UploadEvent)
    (written : (runUpload loader elf chunkSize (startUpload loader elf chunkSize initial)
      first).phase = .written) :
    elf <+: (runUpload loader elf chunkSize (startUpload loader elf chunkSize initial)
      (first ++ second)).accountData.drop loader.programDataOffset := by
  have sound := ((startUpload_sound initial).run writable first).1
  have shrinks := upload_never_regresses writable first second
  rw [sound.written_complete written] at shrinks
  exact (missingChunks_eq_nil writable.positive).mp (List.sublist_nil.mp shrinks)

/-- An account that was resized to the ELF holds it and nothing else. -/
theorem written_elf_exact {loader : Loader} {elf initial : List UInt8} {chunkSize : Nat}
    (writable : Writable loader elf chunkSize initial)
    (resized : initial.length = loader.programDataOffset + elf.length)
    (first second : List UploadEvent)
    (written : (runUpload loader elf chunkSize (startUpload loader elf chunkSize initial)
      first).phase = .written) :
    (runUpload loader elf chunkSize (startUpload loader elf chunkSize initial)
      (first ++ second)).accountData.drop loader.programDataOffset = elf := by
  have sound := ((startUpload_sound initial).run writable (first ++ second)).1
  have complete := written_elf_complete writable first second written
  refine (complete.eq_of_length ?_).symm
  rw [List.length_drop, sound.length_eq, resized, Nat.add_sub_cancel_left]

theorem late_chunk_exact :
    (runUpload plainLoader [1, 2, 3, 4, 5] 2
      (startUpload plainLoader [1, 2, 3, 4, 5] 2 (List.replicate 45 0))
      ([.advance, .land (chunkWrite [1, 2, 3, 4, 5] 2 2), .land (chunkWrite [1, 2, 3, 4, 5] 2 0),
        .advance, .land (chunkWrite [1, 2, 3, 4, 5] 2 1), .advance] ++
        [.land (chunkWrite [1, 2, 3, 4, 5] 2 0)])).accountData.drop 40 = [1, 2, 3, 4, 5] :=
  written_elf_exact plainLoader_writable rfl _ _ (by decide +kernel)

/-- The loop ends, whatever the chain does: after five moves for every missing chunk and every pass,
the client has either seen the whole ELF or given up. -/
theorem upload_ends {loader : Loader} {elf initial : List UInt8} {chunkSize : Nat}
    (writable : Writable loader elf chunkSize initial) (events : List UploadEvent)
    (enough : ((missingChunks loader elf chunkSize initial).length + maxWritePasses) *
      (writeStallLimit + 1) ≤ events.count .advance) :
    (runUpload loader elf chunkSize (startUpload loader elf chunkSize initial) events).phase =
        .written ∨
      (runUpload loader elf chunkSize (startUpload loader elf chunkSize initial) events).phase =
        .abandoned := by
  have spent := (startUpload_sound initial).run_budget writable events
  have sound := ((startUpload_sound initial).run writable events).1
  have initially : budget (startUpload loader elf chunkSize initial) =
      ((missingChunks loader elf chunkSize initial).length + maxWritePasses) *
        (writeStallLimit + 1) := rfl
  by_contra neither
  push Not at neither
  have left := sound.budget_pos neither.1 neither.2
  omega

theorem lost_chunks_abandoned :
    (runUpload plainLoader [1, 2, 3, 4, 5] 2
      (startUpload plainLoader [1, 2, 3, 4, 5] 2 (List.replicate 45 0))
      (List.replicate 35 .advance)).phase = .written ∨
    (runUpload plainLoader [1, 2, 3, 4, 5] 2
      (startUpload plainLoader [1, 2, 3, 4, 5] 2 (List.replicate 45 0))
      (List.replicate 35 .advance)).phase = .abandoned :=
  upload_ends plainLoader_writable (List.replicate 35 .advance) (by decide +kernel)

end Upgrade

end AutaraLending
