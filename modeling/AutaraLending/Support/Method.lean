import Mathlib.Logic.Basic
import Mathlib.Tactic

/-! Fallible methods on a mutable receiver. A call returns its result together with
the receiver, and a failing call returns the receiver as far as it had been changed. -/

namespace Support

theorem except_bind_ok {ε α β : Type} (x : Except ε α) (f : α → Except ε β) (b : β) :
    x >>= f = .ok b ↔ ∃ a, x = .ok a ∧ f a = .ok b := by
  cases x with
  | error e => simp [bind, Except.bind]
  | ok a => simp [bind, Except.bind]

theorem except_map_ok {ε α β : Type} (f : α → β) (x : Except ε α) (b : β) :
    f <$> x = .ok b ↔ ∃ a, x = .ok a ∧ f a = b := by
  cases x with
  | error e => simp [Functor.map, Except.map]
  | ok a => simp [Functor.map, Except.map]

@[simp] theorem except_pure_ok {ε α : Type} (a b : α) :
    (pure a : Except ε α) = .ok b ↔ a = b := by
  simp [pure, Except.pure]

theorem except_ite_ok {ε α : Type} (c : Prop) [Decidable c] (x y : Except ε α) (a : α) :
    (if c then x else y) = .ok a ↔ (c ∧ x = .ok a) ∨ (¬ c ∧ y = .ok a) := by
  by_cases condition : c <;> simp [condition]

def Method (ε σ α : Type) : Type := σ → Except ε α × σ

namespace Method

variable {ε ε' σ τ α β : Type}

instance : Monad (Method ε σ) where
  pure a := fun s => (.ok a, s)
  bind x f := fun s =>
    match x s with
    | (.ok a, t) => f a t
    | (.error e, t) => (.error e, t)

def self : Method ε σ σ := fun s => (.ok s, s)

def assign (t : σ) : Method ε σ Unit := fun _ => (.ok (), t)

def fail (e : ε) : Method ε σ α := fun s => (.error e, s)

def lift (x : Except ε α) : Method ε σ α := fun s => (x, s)

def rejectIf (condition : Prop) [Decidable condition] (e : ε) : Method ε σ Unit :=
  if condition then fail e else pure ()

/-- Call a method of a component of the receiver. A failing call still stores the
component back, as a call through a mutable reference does. -/
def zoom (get : σ → τ) (set : τ → σ → σ) (m : Method ε τ α) : Method ε σ α :=
  fun s => ((m (get s)).1, set (m (get s)).2 s)

def mapErr (translate : ε → ε') (m : Method ε σ α) : Method ε' σ α :=
  fun s => ((m s).1.mapError translate, (m s).2)

def Succeeds (m : Method ε σ α) (s : σ) (a : α) (t : σ) : Prop := m s = (.ok a, t)

instance [DecidableEq ε] [DecidableEq α] [DecidableEq σ] (m : Method ε σ α) (s : σ) (a : α)
    (t : σ) : Decidable (m.Succeeds s a t) :=
  inferInstanceAs (Decidable (m s = (.ok a, t)))

theorem exists_succeeds (m : Method ε σ α) (s : σ) (view : α → γ) (seen : γ)
    (returned : (m s).1.map view = .ok seen) : ∃ a t, m.Succeeds s a t ∧ view a = seen := by
  cases outcome : (m s).1 with
  | ok a =>
      rw [outcome] at returned
      exact ⟨a, (m s).2, Prod.ext outcome rfl, Except.ok.inj returned⟩
  | error e =>
      rw [outcome] at returned
      cases returned

theorem succeeds_pure (a b : α) (s t : σ) :
    Succeeds (pure a : Method ε σ α) s b t ↔ a = b ∧ s = t := by
  simp [Succeeds, pure]

theorem run_bind {m : Method ε σ α} {s t : σ} {a : α} (success : m.Succeeds s a t)
    (rest : α → Method ε σ β) : (m >>= rest) s = rest a t := by
  unfold Succeeds at success
  simp only [bind, success]

theorem succeeds_bind (x : Method ε σ α) (f : α → Method ε σ β) (s t : σ) (b : β) :
    Succeeds (x >>= f) s b t ↔ ∃ a u, x.Succeeds s a u ∧ (f a).Succeeds u b t := by
  simp only [Succeeds, bind]
  rcases x s with ⟨result, u⟩
  cases result with
  | error e => simp
  | ok a =>
      constructor
      · intro rest
        exact ⟨a, u, rfl, rest⟩
      · rintro ⟨a', u', first, rest⟩
        obtain ⟨rfl, rfl⟩ : a = a' ∧ u = u' := by simpa using first
        exact rest

theorem succeeds_bind_read {x : Method ε σ α} {f : α → Method ε σ β} {s t : σ} {b : β}
    {found : α → Prop} (reads : ∀ a u, x.Succeeds s a u ↔ found a ∧ s = u)
    (success : Succeeds (x >>= f) s b t) : ∃ a, found a ∧ (f a).Succeeds s b t := by
  obtain ⟨a, u, first, rest⟩ := (succeeds_bind _ _ _ _ _).mp success
  obtain ⟨holds, rfl⟩ := (reads a u).mp first
  exact ⟨a, holds, rest⟩

theorem succeeds_bind_pure (x : Method ε σ α) (f : α → β) (s t : σ) (b : β) :
    Succeeds (x >>= fun a => pure (f a)) s b t ↔ ∃ a, x.Succeeds s a t ∧ f a = b := by
  simp only [succeeds_bind, succeeds_pure]
  constructor
  · intro ⟨a, _, success, mapped, same⟩
    exact ⟨a, same ▸ success, mapped⟩
  · intro ⟨a, success, mapped⟩
    exact ⟨a, t, success, mapped, rfl⟩

theorem succeeds_self (s a t : σ) : Succeeds (self : Method ε σ σ) s a t ↔ s = a ∧ s = t := by
  simp [Succeeds, self]

theorem succeeds_assign (next s t : σ) (u : Unit) :
    Succeeds (assign next : Method ε σ Unit) s u t ↔ next = t := by
  simp [Succeeds, assign]

theorem succeeds_fail (e : ε) (s t : σ) (a : α) :
    Succeeds (fail e : Method ε σ α) s a t ↔ False := by
  simp [Succeeds, fail]

theorem succeeds_lift (x : Except ε α) (s t : σ) (a : α) :
    Succeeds (lift x : Method ε σ α) s a t ↔ x = .ok a ∧ s = t := by
  simp [Succeeds, lift]

theorem succeeds_rejectIf (condition : Prop) [Decidable condition] (e : ε) (s t : σ)
    (u : Unit) :
    Succeeds (rejectIf condition e : Method ε σ Unit) s u t ↔ ¬ condition ∧ s = t := by
  by_cases holds : condition
  · simp [rejectIf, holds, succeeds_fail]
  · simp [rejectIf, holds, succeeds_pure]

theorem succeeds_zoom (get : σ → τ) (set : τ → σ → σ) (m : Method ε τ α) (s t : σ) (a : α) :
    Succeeds (zoom get set m) s a t ↔ ∃ u, m.Succeeds (get s) a u ∧ set u s = t := by
  simp only [Succeeds, zoom]
  rcases m (get s) with ⟨result, u⟩
  simp only [Prod.mk.injEq]
  constructor
  · rintro ⟨outcome, stored⟩
    exact ⟨u, ⟨outcome, rfl⟩, stored⟩
  · rintro ⟨u', ⟨outcome, rfl⟩, stored⟩
    exact ⟨outcome, stored⟩

theorem succeeds_mapErr (translate : ε → ε') (m : Method ε σ α) (s t : σ) (a : α) :
    Succeeds (mapErr translate m) s a t ↔ m.Succeeds s a t := by
  simp only [Succeeds, mapErr]
  rcases m s with ⟨result, u⟩
  cases result with
  | error e => simp [Except.mapError]
  | ok b => simp [Except.mapError]

theorem succeeds_ite (c : Prop) [Decidable c] (x y : Method ε σ α) (s t : σ) (a : α) :
    Succeeds (if c then x else y) s a t ↔
      (c ∧ x.Succeeds s a t) ∨ (¬ c ∧ y.Succeeds s a t) := by
  by_cases condition : c <;> simp [condition]

theorem succeeds_of_isOk (m : Method ε σ α) (s : σ) (ok : (m s).1.isOk = true) :
    ∃ a t, m.Succeeds s a t := by
  unfold Succeeds
  rcases result : m s with ⟨a | a, t⟩
  · rw [result] at ok
    cases ok
  · exact ⟨a, t, rfl⟩

theorem succeeds_unique (m : Method ε σ α) (s t u : σ) (a b : α)
    (first : m.Succeeds s a t) (second : m.Succeeds s b u) : a = b ∧ t = u := by
  have same := first.symm.trans second
  simpa using same

/-! The errors a method can end with, whatever it leaves of the receiver. -/

def Fails (m : Method ε σ α) (s : σ) (e : ε) : Prop := (m s).1 = .error e

instance [DecidableEq ε] [DecidableEq α] (m : Method ε σ α) (s : σ) (e : ε) :
    Decidable (m.Fails s e) :=
  inferInstanceAs (Decidable ((m s).1 = .error e))

theorem fails_pure (a : α) (s : σ) (e : ε) : Fails (pure a : Method ε σ α) s e ↔ False := by
  simp [Fails, pure]

theorem fails_bind (x : Method ε σ α) (f : α → Method ε σ β) (s : σ) (e : ε) :
    Fails (x >>= f) s e ↔ Fails x s e ∨ ∃ a u, x.Succeeds s a u ∧ (f a).Fails u e := by
  simp only [Fails, Succeeds, bind]
  rcases x s with ⟨result, u⟩
  cases result with
  | error e' => simp
  | ok a => simp

theorem error_bind (x : Method ε σ α) (f : α → Method ε σ β) (s t : σ) (e : ε) :
    (x >>= f) s = (.error e, t) ↔
      x s = (.error e, t) ∨ ∃ a u, x.Succeeds s a u ∧ f a u = (.error e, t) := by
  simp only [Succeeds, bind]
  rcases x s with ⟨result, u⟩
  cases result with
  | error e' => simp
  | ok a => simp

theorem fails_self (s : σ) (e : ε) : Fails (self : Method ε σ σ) s e ↔ False := by
  simp [Fails, self]

theorem fails_lift (x : Except ε α) (s : σ) (e : ε) :
    Fails (lift x : Method ε σ α) s e ↔ x = .error e := Iff.rfl

theorem fails_rejectIf (condition : Prop) [Decidable condition] (e e' : ε) (s : σ) :
    Fails (rejectIf condition e : Method ε σ Unit) s e' ↔ condition ∧ e = e' := by
  by_cases holds : condition
  · simp [rejectIf, holds, Fails, fail]
  · simp [rejectIf, holds, fails_pure]

theorem Succeeds.not_fails {m : Method ε σ α} {s t : σ} {a : α} (success : m.Succeeds s a t)
    (e : ε) : ¬ m.Fails s e := by
  intro failure
  rw [Fails, congrArg Prod.fst success] at failure
  cases failure

/-! Methods that check everything before they write: a failing call returns the receiver it was
given. -/

def Reads (m : Method ε σ α) : Prop := ∀ s, (m s).2 = s

def KeepsOnFailure (m : Method ε σ α) : Prop := ∀ s e t, m s = (.error e, t) → t = s

theorem reads_self : Reads (self : Method ε σ σ) := fun _ => rfl

theorem reads_lift (x : Except ε α) : Reads (lift x : Method ε σ α) := fun _ => rfl

theorem reads_rejectIf (condition : Prop) [Decidable condition] (e : ε) :
    Reads (rejectIf condition e : Method ε σ Unit) := by
  intro s
  by_cases holds : condition
  · simp [rejectIf, holds, fail]
  · simp [rejectIf, holds, pure]

theorem Reads.keepsOnFailure {m : Method ε σ α} (reads : Reads m) : KeepsOnFailure m := by
  intro s e t failure
  exact (congrArg Prod.snd failure).symm.trans (reads s)

theorem KeepsOnFailure.receiver {m : Method ε σ α} (keeps : KeepsOnFailure m) {s : σ} {e : ε}
    (failure : m.Fails s e) : (m s).2 = s :=
  keeps s e (m s).2 (Prod.ext failure rfl)

theorem keepsOnFailure_assign (t : σ) : KeepsOnFailure (assign t : Method ε σ Unit) := by
  intro s e u failure
  simp [assign] at failure

theorem Reads.bind {x : Method ε σ α} {f : α → Method ε σ β} (reads : Reads x)
    (rest : ∀ a, KeepsOnFailure (f a)) : KeepsOnFailure (x >>= f) := by
  intro s e t failure
  have kept := reads s
  simp only [Bind.bind] at failure
  rcases outcome : x s with ⟨result, u⟩
  rw [outcome] at failure kept
  obtain rfl : u = s := kept
  cases result with
  | error e' =>
      simp only [Prod.mk.injEq] at failure
      exact failure.2.symm
  | ok a => exact rest a u e t failure

theorem Reads.failure_cases {x : Method ε σ α} {f : α → Method ε σ β} {s t : σ} {e : ε}
    (reads : Reads x) (failure : (x >>= f) s = (.error e, t)) :
    t = s ∨ ∃ a, x.Succeeds s a s ∧ f a s = (.error e, t) := by
  rcases (error_bind _ _ _ _ _).mp failure with early | ⟨a, u, success, late⟩
  · exact Or.inl (reads.keepsOnFailure s e t early)
  · obtain rfl : u = s := (congrArg Prod.snd success).symm.trans (reads s)
    exact Or.inr ⟨a, success, late⟩

theorem KeepsOnFailure.zoom {m : Method ε τ α} (keeps : KeepsOnFailure m) (get : σ → τ)
    (set : τ → σ → σ) (lawful : ∀ s, set (get s) s = s) : KeepsOnFailure (zoom get set m) := by
  intro s e t failure
  have kept := keeps.receiver (congrArg Prod.fst failure)
  have left := congrArg Prod.snd failure
  dsimp only [Method.zoom] at left
  rw [← left, kept, lawful]

/-! Runs of calls on one receiver. A failed call does not end the run. -/

def trace (call : β → Method ε σ α) : σ → List β → List (Except ε α × σ)
  | _, [] => []
  | s, input :: rest => call input s :: trace call (call input s).2 rest

/-- Calls that agree through `view` one by one agree along every run. -/
theorem trace_view (call : β → Method ε σ α) (call' : β → Method ε τ α) (view : σ → τ)
    (agree : ∀ input s, call' input (view s) = Prod.map id view (call input s)) (s : σ)
    (inputs : List β) :
    trace call' (view s) inputs = (trace call s inputs).map (Prod.map id view) := by
  induction inputs generalizing s with
  | nil => rfl
  | cons input rest ih =>
      rw [trace, trace, List.map_cons, agree]
      exact congrArg _ (ih (call input s).2)

end Method

end Support
