import AutaraLending.Support.Method

/-! Runs of a machine whose operations are fallible methods on one state. A failing
operation is rolled back: the state it started from is kept. -/

namespace Support.Machine

variable {ε σ ι ο : Type} (execute : ι → Method ε σ ο)

def commit (s : σ) (operation : ι) : σ :=
  match execute operation s with
  | (.ok _, t) => t
  | (.error _, _) => s

def run (s : σ) (operations : List ι) : σ := operations.foldl (commit execute) s

/-- `condition` holds of every operation of the run that succeeds, in the state before it. -/
def Along (condition : σ → ι → Prop) : σ → List ι → Prop
  | _, [] => True
  | s, operation :: rest =>
      (∀ o t, (execute operation).Succeeds s o t → condition s operation) ∧
        Along condition (commit execute s operation) rest

theorem commit_of_succeeds {s t : σ} {operation : ι} {o : ο}
    (success : (execute operation).Succeeds s o t) : commit execute s operation = t := by
  unfold Method.Succeeds at success
  simp [commit, success]

theorem succeeds_of_ok {s : σ} {operation : ι} {o : ο} (ok : (execute operation s).1 = .ok o) :
    (execute operation).Succeeds s o (commit execute s operation) := by
  have success : (execute operation).Succeeds s o (execute operation s).2 := Prod.ext ok rfl
  rw [commit_of_succeeds execute success]
  exact success

theorem commit_cases (s : σ) (operation : ι) :
    (∃ o, (execute operation).Succeeds s o (commit execute s operation)) ∨
      commit execute s operation = s := by
  unfold commit Method.Succeeds
  rcases execute operation s with ⟨result, t⟩
  cases result with
  | error e => exact Or.inr rfl
  | ok o => exact Or.inl ⟨o, rfl⟩

theorem commit_of_fails {s : σ} {operation : ι}
    (fails : ∀ o t, ¬ (execute operation).Succeeds s o t) : commit execute s operation = s := by
  rcases commit_cases execute s operation with ⟨o, success⟩ | kept
  · exact absurd success (fails o _)
  · exact kept

theorem run_cons (s : σ) (operation : ι) (rest : List ι) :
    run execute s (operation :: rest) = run execute (commit execute s operation) rest := rfl

theorem run_append (s : σ) (first second : List ι) :
    run execute s (first ++ second) = run execute (run execute s first) second :=
  List.foldl_append

theorem run_concat (s : σ) (operations : List ι) (operation : ι) :
    run execute s (operations ++ [operation]) =
      commit execute (run execute s operations) operation :=
  List.foldl_concat ..

theorem along_of_forall {allowed : ι → Prop} (s : σ) (operations : List ι)
    (all : ∀ operation ∈ operations, allowed operation) :
    Along execute (fun _ operation => allowed operation) s operations := by
  induction operations generalizing s with
  | nil => exact trivial
  | cons operation rest ih =>
      refine ⟨fun _ _ _ => all operation (List.mem_cons_self ..), ih _ ?_⟩
      intro later member
      exact all later (List.mem_cons_of_mem _ member)

theorem along_append (condition : σ → ι → Prop) (s : σ) (first second : List ι) :
    Along execute condition s (first ++ second) ↔
      Along execute condition s first ∧ Along execute condition (run execute s first) second := by
  induction first generalizing s with
  | nil => exact ⟨fun along => ⟨trivial, along⟩, And.right⟩
  | cons operation rest ih =>
      constructor
      · intro along
        obtain ⟨before, after⟩ := (ih _).mp along.2
        exact ⟨⟨along.1, before⟩, after⟩
      · intro along
        exact ⟨along.1.1, (ih _).mpr ⟨along.1.2, along.2⟩⟩

variable {execute} in
theorem Along.take {condition : σ → ι → Prop} {s : σ} {operations : List ι}
    (along : Along execute condition s operations) (count : Nat) :
    Along execute condition s (operations.take count) := by
  induction operations generalizing s count with
  | nil =>
      rw [List.take_nil]
      exact along
  | cons operation rest ih =>
      cases count with
      | zero => exact trivial
      | succ count => exact ⟨along.1, ih along.2 count⟩

variable {execute} in
theorem Along.and {first second : σ → ι → Prop} {s : σ} {operations : List ι}
    (meets : Along execute first s operations) (also_meets : Along execute second s operations) :
    Along execute (fun s operation => first s operation ∧ second s operation) s operations := by
  induction operations generalizing s with
  | nil => exact trivial
  | cons operation rest ih =>
      refine ⟨fun o t success => ?_, ih meets.2 also_meets.2⟩
      exact ⟨meets.1 o t success, also_meets.1 o t success⟩

variable {execute} in
theorem Along.at_operation {condition : σ → ι → Prop} {s : σ} {before after : List ι}
    {operation : ι} (along : Along execute condition s (before ++ operation :: after)) {o : ο}
    {t : σ} (success : (execute operation).Succeeds (run execute s before) o t) :
    condition (run execute s before) operation := by
  induction before generalizing s with
  | nil => exact along.1 o t success
  | cons earlier before ih => exact ih along.2 success

theorem exists_of_not_along {condition : σ → ι → Prop} (s : σ) (operations : List ι)
    (violated : ¬ Along execute condition s operations) :
    ∃ before operation after o t, operations = before ++ operation :: after ∧
      (execute operation).Succeeds (run execute s before) o t ∧
      ¬ condition (run execute s before) operation := by
  induction operations generalizing s with
  | nil => exact absurd trivial violated
  | cons operation rest ih =>
      by_cases here : ∀ o t, (execute operation).Succeeds s o t → condition s operation
      · obtain ⟨before, later, after, o, t, rfl, success, missed⟩ :=
          ih (commit execute s operation) (fun along => violated ⟨here, along⟩)
        exact ⟨operation :: before, later, after, o, t, rfl, success, missed⟩
      · push Not at here
        obtain ⟨o, t, success, missed⟩ := here
        exact ⟨[], operation, rest, o, t, rfl, success, missed⟩

variable {execute}

theorem commit_preserves {invariant : σ → Prop} {s : σ} {operation : ι}
    (step : ∀ o t, (execute operation).Succeeds s o t → invariant t) (holds : invariant s) :
    invariant (commit execute s operation) := by
  rcases commit_cases execute s operation with ⟨o, success⟩ | kept
  · exact step o _ success
  · rw [kept]
    exact holds

/-- What the initial state satisfies and every successful operation preserves holds at
the end of every run. -/
theorem run_invariant {invariant : σ → Prop} {s : σ} (operations : List ι)
    (initial : invariant s)
    (step : ∀ s operation o t, invariant s → (execute operation).Succeeds s o t → invariant t) :
    invariant (run execute s operations) := by
  induction operations generalizing s with
  | nil => exact initial
  | cons operation rest ih =>
      exact ih (commit_preserves (fun o t => step s operation o t initial) initial)

/-- The same rule when a step is only known to preserve the invariant under a condition
that the run meets at each of its successful operations. -/
theorem run_invariant_along {invariant : σ → Prop} {condition : σ → ι → Prop} {s : σ}
    (operations : List ι) (initial : invariant s) (along : Along execute condition s operations)
    (step : ∀ s operation o t, invariant s → condition s operation →
      (execute operation).Succeeds s o t → invariant t) :
    invariant (run execute s operations) := by
  induction operations generalizing s with
  | nil => exact initial
  | cons operation rest ih =>
      refine ih (commit_preserves (fun o t success => ?_) initial) along.2
      exact step s operation o t initial (along.1 o t success) success

end Support.Machine
