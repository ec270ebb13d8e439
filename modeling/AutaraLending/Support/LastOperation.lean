import AutaraLending.Support.Machine

/-! The last operation of a run that meets a condition and succeeds. After it the run is quiet,
and what quiet operations keep is still as it left it. -/

namespace Support.Machine

variable {ε σ ι ο : Type} (execute : ι → Method ε σ ο)

/-- No operation of the kind succeeds along the run. -/
def Quiet (kind : ι → Prop) (s : σ) (operations : List ι) : Prop :=
  Along execute (fun _ operation => ¬ kind operation) s operations

/-- A run of `before`, then an operation of the kind that succeeds and leads to `t`, then
`after`. -/
structure LastOperation (kind : ι → Prop) (s : σ) (operations before : List ι) (operation : ι)
    (after : List ι) (t : σ) : Prop where
  split : operations = before ++ operation :: after
  member : kind operation
  success : ∃ o, (execute operation).Succeeds (run execute s before) o t
  quiet : Quiet execute kind t after

variable {execute}

theorem LastOperation.run_eq {kind : ι → Prop} {s t : σ} {operations before after : List ι}
    {operation : ι} (last : LastOperation execute kind s operations before operation after t) :
    run execute s operations = run execute t after := by
  obtain ⟨o, success⟩ := last.success
  rw [last.split, run_append, run_cons, commit_of_succeeds _ success]

theorem quiet_or_last (kind : ι → Prop) (s : σ) (operations : List ι) :
    Quiet execute kind s operations ∨
      ∃ before operation after t,
        LastOperation execute kind s operations before operation after t := by
  induction operations generalizing s with
  | nil => exact Or.inl trivial
  | cons first rest ih =>
      rcases ih (commit execute s first) with quiet | ⟨before, operation, after, t, last⟩
      · by_cases here : ∃ o t, (execute first).Succeeds s o t ∧ kind first
        · obtain ⟨o, t, success, member⟩ := here
          rw [commit_of_succeeds execute success] at quiet
          exact Or.inr ⟨[], first, rest, t, rfl, member, ⟨o, success⟩, quiet⟩
        · exact Or.inl ⟨fun o t success member => here ⟨o, t, success, member⟩, quiet⟩
      · refine Or.inr ⟨first :: before, operation, after, t, ?_, last.member, last.success,
          last.quiet⟩
        rw [last.split]
        rfl

theorem Quiet.unchanged {α : Type} {kind : ι → Prop} {s : σ} {operations : List ι}
    (quiet : Quiet execute kind s operations) (observe : σ → α)
    (kept : ∀ s operation o t, ¬ kind operation → (execute operation).Succeeds s o t →
      observe t = observe s) :
    observe (run execute s operations) = observe s := by
  apply @run_invariant_along _ _ _ _ execute (fun t => observe t = observe s) _ s operations rfl
    quiet
  intro t operation o u same outside success
  exact (kept t operation o u outside success).trans same

end Support.Machine
