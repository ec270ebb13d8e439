import AutaraLending.Support.Method

namespace AutaraLending

open Support

inductive LendingError where
  | mathOverflow
  | additionOverflow
  | subtractionOverflow
  | multiplicationOverflow
  | divisionOverflow
  | divisionByZero
  | castOverflow
  | maxLtvReached
  | maxUtilisationRateReached
  | invalidMarketForPosition
  | positionIsHealthy
  | maxSupplyReached
  | invalidLtvConfig
  | invalidCurve
  | invalidExpArg
  | invalidMaxUtilisationRate
  | invalidLiquidationLtvShouldDecrease
  | invalidPythOracleAccount
  | invalidChaosOracleAccount
  | invalidOracleFeedId
  | failedToLoadAccount
  | withdrawalExceedsReserves
  | withdrawalExceedsDeposited
  | repayExceedsBorrowed
  | oracleRateTooOld
  | oracleRateRelativeConfidenceTooLow
  | negativeOracleRate
  | oracleRateIsNull
  | oracleConfidenceExceedsRate
  | liquidationDidNotMeetRequirements
  | feeTooHigh
  | sharesOverflow
  | invalidNomination
  | cantModifySharePriceIfZeroShares
  | negativeInterestRate
  | cannotSocializeDebtForHealthyPosition
  | unsupportedMintDecimals
  | invalidOracleConfig
  | capitalSweepPending
  | noCapitalSweepPending
  | capitalSweepPositionInsolvent
  | capitalSweepDidNotMeetRequirements
  | liquidatorAlreadyWhitelisted
  | liquidatorNotWhitelisted
  | invalidOracleFeedAccount
  deriving DecidableEq, Repr

/-- An error with the messages attached to it. The source also records call sites, which
nothing reads back. -/
structure ErrorWithContext where
  error : LendingError
  msg : List String
  deriving DecidableEq, Repr

/-- How a call can fail: with an error it returns, or by a panic, which aborts the
transaction (an index out of bounds, a failed `expect`, an arithmetic overflow). -/
inductive Failure where
  | error (context : ErrorWithContext)
  | panic
  deriving DecidableEq, Repr

abbrev LendingResult (α : Type) := Except Failure α

abbrev LendingMethod (σ α : Type) := Method Failure σ α

def LendingError.into (error : LendingError) : Failure := .error ⟨error, []⟩

/-- `Err(error.into()).with_msg(msg)` -/
def LendingError.withMsg (error : LendingError) (msg : String) : Failure := .error ⟨error, [msg]⟩

/-- `Failure.is e failure` reads off the error of a failure, as comparing with a
`LendingError` does in the source. -/
def Failure.is (failure : Failure) (error : LendingError) : Prop :=
  ∃ msg, failure = .error ⟨error, msg⟩

def mapErr {α : Type} (error : LendingError) : LendingResult α → LendingResult α
  | .ok a => .ok a
  | .error (.error _) => .error error.into
  | .error .panic => .error .panic

def orElse {α : Type} (recover : Failure → LendingResult α) : LendingResult α → LendingResult α
  | .ok a => .ok a
  | .error failure => recover failure

/-- `expect`: a returned error becomes a panic. -/
def expect {α : Type} : LendingResult α → LendingResult α
  | .ok a => .ok a
  | .error _ => .error .panic

def okOr {α : Type} (error : LendingError) : Option α → LendingResult α
  | some a => .ok a
  | none => .error error.into

@[simp] theorem mapErr_ok {α : Type} (error : LendingError) (x : LendingResult α) (a : α) :
    mapErr error x = .ok a ↔ x = .ok a := by
  rcases x with (context | _) | b <;> simp [mapErr]

theorem orElse_ok {α : Type} (recover : Failure → LendingResult α) (x : LendingResult α) (a : α) :
    orElse recover x = .ok a ↔
      x = .ok a ∨ ∃ failure, x = .error failure ∧ recover failure = .ok a := by
  cases x <;> simp [orElse]

@[simp] theorem expect_ok {α : Type} (x : LendingResult α) (a : α) :
    expect x = .ok a ↔ x = .ok a := by
  cases x <;> simp [expect]

@[simp] theorem okOr_ok {α : Type} (error : LendingError) (x : Option α) (a : α) :
    okOr error x = .ok a ↔ x = some a := by
  cases x <;> simp [okOr]

/-! Calls that never fail with a given error, whatever their receiver. -/

def Avoids {α : Type} (error : LendingError) (x : LendingResult α) : Prop :=
  ∀ failure, x = .error failure → ¬ failure.is error

section Avoids

variable {α β σ τ : Type} {error other : LendingError}

@[simp] theorem avoids_ok (a : α) : Avoids error (.ok a : LendingResult α) := by
  intro failure impossible
  cases impossible

@[simp] theorem avoids_pure (a : α) : Avoids error (pure a : LendingResult α) := avoids_ok a

@[simp] theorem avoids_error (context : ErrorWithContext) (different : context.error ≠ error) :
    Avoids error (.error (.error context) : LendingResult α) := by
  rintro failure same ⟨msg, rfl⟩
  cases same
  exact different rfl

@[simp] theorem avoids_panic : Avoids error (.error .panic : LendingResult α) := by
  rintro failure same ⟨msg, rfl⟩
  cases same

@[simp] theorem avoids_bind (x : LendingResult α) (f : α → LendingResult β) :
    Avoids error (x >>= f) ↔ Avoids error x ∧ ∀ a, x = .ok a → Avoids error (f a) := by
  cases x with
  | error failure => simp [Avoids, bind, Except.bind]
  | ok a => simp [bind, Except.bind]

@[simp] theorem avoids_map (f : α → β) (x : LendingResult α) :
    Avoids error (f <$> x) ↔ Avoids error x := by
  cases x with
  | error failure => simp [Avoids, Functor.map, Except.map]
  | ok a => simp [Functor.map, Except.map]

@[simp] theorem avoids_ite (condition : Prop) [Decidable condition] (x y : LendingResult α) :
    Avoids error (if condition then x else y) ↔
      (condition → Avoids error x) ∧ (¬ condition → Avoids error y) := by
  by_cases holds : condition <;> simp [holds]

@[simp] theorem avoids_okOr (different : other ≠ error) (x : Option α) :
    Avoids error (okOr other x) := by
  cases x with
  | none => exact avoids_error _ different
  | some a => exact avoids_ok a

@[simp] theorem avoids_mapErr (different : other ≠ error) (x : LendingResult α) :
    Avoids error (mapErr other x) := by
  rcases x with (context | _) | a
  · exact avoids_error _ different
  · exact avoids_panic
  · exact avoids_ok a

def MethodAvoids (error : LendingError) (m : LendingMethod σ α) : Prop :=
  ∀ s failure, m.Fails s failure → ¬ failure.is error

theorem MethodAvoids.pure (a : α) : MethodAvoids error (pure a : LendingMethod σ α) :=
  fun s _ fails => absurd fails ((Method.fails_pure a s _).mp)

theorem MethodAvoids.bind {x : LendingMethod σ α} {f : α → LendingMethod σ β}
    (first : MethodAvoids error x) (rest : ∀ a, MethodAvoids error (f a)) :
    MethodAvoids error (x >>= f) := by
  intro s failure fails
  rcases (Method.fails_bind _ _ _ _).mp fails with early | ⟨a, u, -, late⟩
  · exact first s failure early
  · exact rest a u failure late

theorem MethodAvoids.resume {x : LendingMethod σ α} {f : α → LendingMethod σ β} {s : σ}
    {failure : Failure} (avoids : MethodAvoids error x) (kind : failure.is error)
    (fails : (x >>= f).Fails s failure) : ∃ a u, x.Succeeds s a u ∧ (f a).Fails u failure :=
  ((Method.fails_bind _ _ _ _).mp fails).resolve_left fun early => avoids s failure early kind

theorem MethodAvoids.self : MethodAvoids error (Method.self : LendingMethod σ σ) :=
  fun s _ fails => absurd fails ((Method.fails_self s _).mp)

theorem MethodAvoids.assign (next : σ) : MethodAvoids error (Method.assign next) := by
  intro s failure fails
  cases fails

theorem MethodAvoids.lift {x : LendingResult α} (avoids : Avoids error x) :
    MethodAvoids error (Method.lift x : LendingMethod σ α) :=
  fun _ failure fails => avoids failure fails

theorem MethodAvoids.fail (different : other ≠ error) :
    MethodAvoids error (Method.fail other.into : LendingMethod σ α) :=
  fun _ failure fails => avoids_error _ different failure fails

theorem MethodAvoids.ite (condition : Prop) [Decidable condition] {x y : LendingMethod σ α}
    (first : MethodAvoids error x) (second : MethodAvoids error y) :
    MethodAvoids error (if condition then x else y) := by
  by_cases holds : condition
  · rw [if_pos holds]
    exact first
  · rw [if_neg holds]
    exact second

theorem MethodAvoids.zoom (get : σ → τ) (set : τ → σ → σ) {m : LendingMethod τ α}
    (inner : MethodAvoids error m) : MethodAvoids error (Method.zoom get set m) :=
  fun s failure fails => inner (get s) failure fails

end Avoids

end AutaraLending
