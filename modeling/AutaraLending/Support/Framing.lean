import AutaraLending.Support.Method

/-! What a method does not touch: facts about the receiver that it maintains, and changes of the
receiver that it does not see. -/

namespace Support.Method

variable {ε σ τ ρ α β : Type}

/-- The method maintains the invariant of its receiver, also when it fails. -/
def Maintains (invariant : σ → Prop) (m : Method ε σ α) : Prop :=
  ∀ s, invariant s → invariant (m s).2

/-- On a receiver seen through `view`, the second method does what the first one does. -/
def Simulates (view : σ → τ) (m : Method ε σ α) (m' : Method ε τ α) : Prop :=
  ∀ s, m' (view s) = Prod.map id view (m s)

section Maintains

variable {invariant : σ → Prop}

theorem Maintains.succeeds {m : Method ε σ α} (maintains : Maintains invariant m) {s t : σ} {a : α}
    (success : m.Succeeds s a t) (holds : invariant s) : invariant t := by
  have kept := maintains s holds
  rw [success] at kept
  exact kept

theorem Reads.maintains {m : Method ε σ α} (reads : Reads m) : Maintains invariant m := by
  intro s holds
  rw [reads s]
  exact holds

@[simp] theorem maintains_pure (a : α) : Maintains invariant (pure a : Method ε σ α) :=
  fun _ holds => holds

@[simp] theorem maintains_lift (x : Except ε α) : Maintains invariant (lift x : Method ε σ α) :=
  fun _ holds => holds

@[simp] theorem maintains_fail (e : ε) : Maintains invariant (fail e : Method ε σ α) :=
  fun _ holds => holds

@[simp] theorem maintains_rejectIf (condition : Prop) [Decidable condition] (e : ε) :
    Maintains invariant (rejectIf condition e : Method ε σ Unit) :=
  (reads_rejectIf condition e).maintains

theorem maintains_assign {t : σ} (holds : invariant t) :
    Maintains invariant (assign t : Method ε σ Unit) :=
  fun _ _ => holds

theorem Maintains.bind {x : Method ε σ α} {f : α → Method ε σ β} (first : Maintains invariant x)
    (rest : ∀ a, Maintains invariant (f a)) : Maintains invariant (x >>= f) := by
  intro s holds
  have kept := first s holds
  simp only [Bind.bind]
  rcases outcome : x s with ⟨result, t⟩
  rw [outcome] at kept
  cases result with
  | error e => exact kept
  | ok a => exact rest a t kept

theorem maintains_self_bind {f : σ → Method ε σ β}
    (rest : ∀ s, invariant s → Maintains invariant (f s)) :
    Maintains invariant ((self : Method ε σ σ) >>= f) :=
  fun s holds => rest s holds s holds

theorem Maintains.ite {condition : Prop} [Decidable condition] {x y : Method ε σ α}
    (first : Maintains invariant x) (second : Maintains invariant y) :
    Maintains invariant (if condition then x else y) := by
  split
  · exact first
  · exact second

theorem Maintains.zoom {part : τ → Prop} {m : Method ε τ α} {get : σ → τ} {set : τ → σ → σ}
    (maintains : Maintains part m) (seen : ∀ s, invariant s → part (get s))
    (stored : ∀ s t, invariant s → part t → invariant (set t s)) :
    Maintains invariant (zoom get set m) :=
  fun s holds => stored s _ holds (maintains _ (seen s holds))

theorem maintains_zoom {m : Method ε τ α} {get : σ → τ} {set : τ → σ → σ}
    (stored : ∀ s t, invariant s → invariant (set t s)) : Maintains invariant (zoom get set m) :=
  fun s holds => stored s _ holds

end Maintains

section Simulates

variable {view : σ → τ}

theorem Simulates.succeeds {m : Method ε σ α} {m' : Method ε τ α} (simulates : Simulates view m m')
    {s t : σ} {a : α} (success : m.Succeeds s a t) : m'.Succeeds (view s) a (view t) := by
  unfold Succeeds
  rw [simulates s, success]
  rfl

@[simp] theorem simulates_pure (a : α) :
    Simulates view (pure a : Method ε σ α) (pure a : Method ε τ α) := fun _ => rfl

@[simp] theorem simulates_lift (x : Except ε α) :
    Simulates view (lift x : Method ε σ α) (lift x : Method ε τ α) := fun _ => rfl

@[simp] theorem simulates_rejectIf (condition : Prop) [Decidable condition] (e : ε) :
    Simulates view (rejectIf condition e : Method ε σ Unit)
      (rejectIf condition e : Method ε τ Unit) := by
  intro s
  by_cases holds : condition
  · simp [rejectIf, holds, fail]
  · simp [rejectIf, holds, pure]

@[simp] theorem simulates_assign (t : σ) :
    Simulates view (assign t : Method ε σ Unit) (assign (view t) : Method ε τ Unit) := fun _ => rfl

theorem Simulates.bind {x : Method ε σ α} {x' : Method ε τ α} {f : α → Method ε σ β}
    {f' : α → Method ε τ β} (first : Simulates view x x')
    (rest : ∀ a, Simulates view (f a) (f' a)) : Simulates view (x >>= f) (x' >>= f') := by
  intro s
  simp only [Bind.bind, first s]
  rcases x s with ⟨result, t⟩
  cases result with
  | error e => rfl
  | ok a => exact rest a t

theorem simulates_self_bind {f : σ → Method ε σ β} {f' : τ → Method ε τ β}
    (rest : ∀ s, Simulates view (f s) (f' (view s))) :
    Simulates view ((self : Method ε σ σ) >>= f) ((self : Method ε τ τ) >>= f') :=
  fun s => rest s s

theorem simulates_zoom {m : Method ε ρ α} {get : σ → ρ} {set : ρ → σ → σ} {get' : τ → ρ}
    {set' : ρ → τ → τ} (shown : ∀ s, get' (view s) = get s)
    (stored : ∀ s t, set' t (view s) = view (set t s)) :
    Simulates view (zoom get set m) (zoom get' set' m) := by
  intro s
  simp only [Method.zoom, shown, stored]
  rfl

/-- A call on a component that is itself shown through a view. -/
theorem Simulates.zoom {ρ' : Type} {inner : ρ → ρ'} {m : Method ε ρ α} {m' : Method ε ρ' α}
    {get : σ → ρ} {set : ρ → σ → σ} {get' : τ → ρ'} {set' : ρ' → τ → τ}
    (simulates : Simulates inner m m') (shown : ∀ s, get' (view s) = inner (get s))
    (stored : ∀ s t, set' (inner t) (view s) = view (set t s)) :
    Simulates view (zoom get set m) (zoom get' set' m') := by
  intro s
  simp only [Method.zoom, shown, simulates (get s), Prod.map, stored]

end Simulates

end Support.Method
