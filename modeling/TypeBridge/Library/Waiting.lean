import Mathlib

namespace TypeBridge.Library

/-!
# Computations that wait

A computation over a state that others may read runs up to its next call,
leaves the state as it then is and waits for the answer. Whoever drives it may
drop it there, so a run ends with a result or at a call that was never
answered.
-/

inductive Waiting {Call : Type} (Answer : Call → Type) (σ α : Type) where
  | done (state : σ) (result : α)
  | await (state : σ) (call : Call) (next : Answer call → Waiting Answer σ α)

abbrev Answered {Call : Type} (Answer : Call → Type) := (call : Call) × Answer call

inductive Stop (Call α : Type) where
  | dropped (call : Call)
  | returned (result : α)

structure Ending {Call : Type} (Answer : Call → Type) (σ α : Type) where
  answered : List (Answered Answer)
  -- the states others could read while the run waited
  shown : List σ
  state : σ
  stop : Stop Call α

namespace Waiting

variable {Call : Type} {Answer : Call → Type} {σ α β : Type}

/-- Continue with the state and the result of a computation. -/
def bind (waiting : Waiting Answer σ α) (next : σ → α → Waiting Answer σ β) : Waiting Answer σ β :=
  match waiting with
  | done state result => next state result
  | await state call rest => await state call fun answer => (rest answer).bind next

def run (environment : List (Answered Answer) → (call : Call) → Option (Answer call)) :
    List (Answered Answer) → Waiting Answer σ α → Ending Answer σ α
  | answered, done state result => ⟨answered, [], state, .returned result⟩
  | answered, await state call next =>
      match environment answered call with
      | none => ⟨answered, [state], state, .dropped call⟩
      | some answer =>
          let rest := (next answer).run environment (answered ++ [⟨call, answer⟩])
          { rest with shown := state :: rest.shown }

/-! ## Every run -/

/-- What holds whenever the computation waits and whenever it returns. -/
def Every (waits : List (Answered Answer) → σ → Call → Prop)
    (returns : List (Answered Answer) → σ → α → Prop) :
    List (Answered Answer) → Waiting Answer σ α → Prop
  | answered, done state result => returns answered state result
  | answered, await state call next =>
      waits answered state call ∧ ∀ answer,
          (next answer).Every waits returns (answered ++ [⟨call, answer⟩])

variable {waits : List (Answered Answer) → σ → Call → Prop}
  {returns : List (Answered Answer) → σ → α → Prop} {answered : List (Answered Answer)} {state : σ}

@[simp] theorem every_await {call : Call} {next : Answer call → Waiting Answer σ α} :
    (await state call next).Every waits returns answered ↔ waits answered state call ∧ ∀ answer,
          (next answer).Every waits returns (answered ++ [⟨call, answer⟩]) :=
  Iff.rfl

variable {waiting : Waiting Answer σ α}

theorem every_bind {returnsNext : List (Answered Answer) → σ → β → Prop}
    {next : σ → α → Waiting Answer σ β} :
    (waiting.bind next).Every waits returnsNext answered ↔ waiting.Every waits
        (fun answered state result => (next state result).Every waits returnsNext answered)
        answered := by
  induction waiting generalizing answered with
  | done state result => rfl
  | await state call rest ih => simp only [bind, every_await, ih]

theorem Every.imp {waitsLater : List (Answered Answer) → σ → Call → Prop}
    {returnsLater : List (Answered Answer) → σ → α → Prop}
    (every : waiting.Every waits returns answered)
    (waitsImplies : ∀ answered state call, waits answered state call →
        waitsLater answered state call)
    (returnsImplies : ∀ answered state result, returns answered state result →
        returnsLater answered state result) :
    waiting.Every waitsLater returnsLater answered := by
  induction waiting generalizing answered with
  | done state result => exact returnsImplies answered state result every
  | await state call rest ih =>
    obtain ⟨waitsHere, everyRest⟩ := every
    exact ⟨waitsImplies answered state call waitsHere, fun answer => ih answer (everyRest answer)⟩

theorem Every.extending (every : waiting.Every waits returns answered) :
    waiting.Every waits (fun later state result => answered <+: later ∧ returns later state result)
      answered := by
  induction waiting generalizing answered with
  | done state result => exact ⟨List.prefix_refl answered, every⟩
  | await state call rest ih =>
    obtain ⟨waitsHere, everyRest⟩ := every
    refine ⟨waitsHere, fun answer => ?_⟩
    refine (ih answer (everyRest answer)).imp (fun _ _ _ waits => waits) ?_
    intro later _ _ extended
    exact ⟨(List.prefix_append answered _).trans extended.1, extended.2⟩

/-! ## Where a run ends -/

/-- How a run that keeps the two properties has ended. -/
def Stopped (waits : List (Answered Answer) → σ → Call → Prop)
    (returns : List (Answered Answer) → σ → α → Prop) (ending : Ending Answer σ α) : Prop :=
  match ending.stop with
  | .dropped call => waits ending.answered ending.state call
  | .returned result => returns ending.answered ending.state result

theorem Every.stopped (every : waiting.Every waits returns answered)
    (environment : List (Answered Answer) → (call : Call) → Option (Answer call)) :
    Stopped waits returns (waiting.run environment answered) := by
  induction waiting generalizing answered with
  | done state result => exact every
  | await state call rest ih =>
    obtain ⟨waitsHere, everyRest⟩ := every
    cases given : environment answered call with
    | none =>
      simp only [run, given]
      exact waitsHere
    | some answer =>
      simp only [run, given]
      exact ih answer (everyRest answer)

theorem Every.shown (every : waiting.Every waits returns answered)
    (environment : List (Answered Answer) → (call : Call) → Option (Answer call))
    (shown : state ∈ (waiting.run environment answered).shown) :
    ∃ earlier call, waits earlier state call := by
  induction waiting generalizing answered with
  | done final result => simp only [run, List.not_mem_nil] at shown
  | await current call rest ih =>
    obtain ⟨waitsHere, everyRest⟩ := every
    cases given : environment answered call with
    | none =>
      simp only [run, given, List.mem_singleton] at shown
      subst state
      exact ⟨answered, call, waitsHere⟩
    | some answer =>
      simp only [run, given, List.mem_cons] at shown
      rcases shown with rfl | shownLater
      · exact ⟨answered, call, waitsHere⟩
      · exact ih answer (everyRest answer) shownLater

end Waiting

/-! ## State passing -/

/-- A waiting computation from the state it starts in. -/
def Async {Call : Type} (Answer : Call → Type) (σ α : Type) := σ → Waiting Answer σ α

namespace Async

variable {Call : Type} {Answer : Call → Type} {σ α β ε : Type}

instance : Monad (Async Answer σ) where
  pure result := fun state => .done state result
  bind program next := fun state => (program state).bind fun later result => next result later

def await (call : Call) : Async Answer σ (Answer call) :=
  fun state => .await state call fun answer => .done state answer

def change (update : σ → σ) : Async Answer σ Unit := fun state => .done (update state) ()

/-- Stop with a failure, or go on with a result. -/
def attempt (outcome : Except ε α) : ExceptT ε (Async Answer σ) α := ExceptT.mk (pure outcome)

/-- Wait inside a program that may fail. -/
def awaitOr (call : Call) : ExceptT ε (Async Answer σ) (Answer call) := ExceptT.lift (await call)

def Ensures (program : Async Answer σ α) (waits : List (Answered Answer) → σ → Call → Prop)
    (returns : List (Answered Answer) → σ → α → Prop) (answered : List (Answered Answer))
    (state : σ) : Prop :=
  (program state).Every waits returns answered

variable {waits : List (Answered Answer) → σ → Call → Prop} {answered : List (Answered Answer)}
  {state : σ} {returns : List (Answered Answer) → σ → α → Prop}

variable {program : Async Answer σ α}

@[simp] theorem ensures_bind {returns : List (Answered Answer) → σ → β → Prop}
    {next : α → Async Answer σ β} :
    Ensures (program >>= next) waits returns answered state ↔ Ensures program waits
        (fun answered state result => Ensures (next result) waits returns answered state)
        answered state :=
  Waiting.every_bind

variable {call : Call}

@[simp] theorem ensures_attempt {outcome : Except ε α}
    {returns : List (Answered Answer) → σ → Except ε α → Prop} :
    Ensures (attempt outcome).run waits returns answered state ↔ returns answered state outcome :=
  Iff.rfl

@[simp] theorem ensures_run_bind {returns : List (Answered Answer) → σ → Except ε β → Prop}
    {program : ExceptT ε (Async Answer σ) α} {next : α → ExceptT ε (Async Answer σ) β} :
    Ensures (program >>= next).run waits returns answered state ↔ Ensures program.run waits
        (fun answered state outcome =>
          match outcome with
          | .ok result => Ensures (next result).run waits returns answered state
          | .error failure => returns answered state (.error failure))
        answered state := by
  rw [ExceptT.run_bind, ensures_bind]
  refine iff_of_eq (congrArg (Ensures program.run waits · answered state) ?_)
  funext answered state outcome
  cases outcome <;> rfl

variable {returnsLater : List (Answered Answer) → σ → α → Prop}
  (ensures : Ensures program waits returns answered state)
include ensures

theorem Ensures.imp {waitsLater : List (Answered Answer) → σ → Call → Prop}
    (waitsImplies : ∀ answered state call, waits answered state call →
        waitsLater answered state call)
    (returnsImplies : ∀ answered state result, returns answered state result →
        returnsLater answered state result) :
    Ensures program waitsLater returnsLater answered state :=
  Waiting.Every.imp ensures waitsImplies returnsImplies

theorem Ensures.impReturns
    (returnsImplies : ∀ answered state result, returns answered state result →
        returnsLater answered state result) :
    Ensures program waits returnsLater answered state :=
  ensures.imp (fun _ _ _ waits => waits) returnsImplies

theorem Ensures.extending : Ensures program waits (fun later state result =>
        answered <+: later ∧ returns later state result) answered state :=
  Waiting.Every.extending ensures

omit ensures

@[simp] theorem ensures_run_lift {returns : List (Answered Answer) → σ → Except ε α → Prop} :
    Ensures (ExceptT.lift program : ExceptT ε (Async Answer σ) α).run waits returns answered state ↔
      Ensures program waits (fun answered state result => returns answered state (.ok result))
        answered state :=
  Waiting.every_bind

end Async

end TypeBridge.Library
