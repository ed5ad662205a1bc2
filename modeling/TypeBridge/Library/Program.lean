import Mathlib

namespace TypeBridge.Library

/-!
# Programs over answered calls

A program either is done or makes a call and continues with its answer. The
environment is free to give any answer of the call's type, so what holds for
every answer holds in every run.
-/

inductive Program {Effect : Type} (Answer : Effect → Type) (α : Type) where
  | done (result : α)
  | call (effect : Effect) (next : Answer effect → Program Answer α)

namespace Program

variable {Effect : Type} {Answer : Effect → Type} {α β : Type}

/-- Continue a program with its result. -/
def bind (program : Program Answer α) (next : α → Program Answer β) : Program Answer β :=
  match program with
  | done result => next result
  | call effect rest => call effect fun answer => (rest answer).bind next

instance : Monad (Program Answer) where
  pure := done
  bind := bind

/-- Make one call and return its answer. -/
def perform (effect : Effect) : Program Answer (Answer effect) := call effect done

def answeredBy (answer : (effect : Effect) → Answer effect) : Program Answer α → List Effect × α
  | done result => ([], result)
  | call effect next =>
      let rest := (next (answer effect)).answeredBy answer
      (effect :: rest.1, rest.2)

/-! ## Every run -/

def Every (onCall : Effect → Prop) (onResult : α → Prop) : Program Answer α → Prop
  | done result => onResult result
  | call effect next => onCall effect ∧ ∀ answer, (next answer).Every onCall onResult

variable {onCall : Effect → Prop} {onResult : α → Prop}

/-! ## Programs that may fail -/

variable {ε : Type}

/-- A computation without calls that may fail. -/
def attempt (outcome : Except ε α) : ExceptT ε (Program Answer) α := ExceptT.mk (done outcome)

end Program

end TypeBridge.Library
