import Mathlib.Algebra.Group.Int.Defs
import Mathlib.Algebra.GroupWithZero.Nat

/-!
# Errors

A function of the source that can raise returns an `Except` over these errors.
The kind is the class of the exception, because callers select on the class,
and the message is the text the source raises with.
-/

namespace Raes

/-- The exception classes the modelled functions raise.  An immutable-value
error is the `ValueError` that carries the mark of `record_immutability.py`. -/
inductive ErrorKind where
  | valueError
  | immutableValueError
  | typeError
  | attributeError
  | overflowError
  | keyError
  | indexError
  | recursionError
  | runtimeError
  | databaseError
  | stopIteration
  | invalidInputError
  | sdlSelectionError
  | conflictError
  | snapshotRevisionConflict
  | newClaimRejected
  | indeterminateClaimBlocked
  | idempotencyClaimConflictError
  | evidenceIntegrityError
  deriving DecidableEq, Repr

structure PyError where
  kind : ErrorKind
  message : String
  deriving DecidableEq, Repr

namespace PyError

def valueError (message : String) : PyError := ⟨.valueError, message⟩

def immutableValueError (message : String) : PyError := ⟨.immutableValueError, message⟩

def typeError (message : String) : PyError := ⟨.typeError, message⟩

def attributeError (message : String) : PyError := ⟨.attributeError, message⟩

def invalidInputError (message : String) : PyError := ⟨.invalidInputError, message⟩

def sdlSelectionError (message : String) : PyError := ⟨.sdlSelectionError, message⟩

def keyError (message : String) : PyError := ⟨.keyError, message⟩

def indexError (message : String) : PyError := ⟨.indexError, message⟩

def recursionError (message : String) : PyError := ⟨.recursionError, message⟩

def conflictError (message : String) : PyError := ⟨.conflictError, message⟩

def overflowError (message : String) : PyError := ⟨.overflowError, message⟩

def runtimeError (message : String) : PyError := ⟨.runtimeError, message⟩

def databaseError (message : String) : PyError := ⟨.databaseError, message⟩

def evidenceIntegrityError (message : String) : PyError := ⟨.evidenceIntegrityError, message⟩

end PyError

def refuseIf (condition : Prop) [Decidable condition] (error : PyError) : Except PyError Unit :=
  if condition then .error error else .ok ()

@[simp] theorem refuseIf_eq_ok_iff (condition : Prop) [Decidable condition] (error : PyError)
    (u : Unit) : refuseIf condition error = .ok u ↔ ¬ condition := by
  unfold refuseIf
  split <;> simp [*]

/-- A sequence of two computations answers when both answer. -/
theorem bind_eq_ok_iff {ε α β : Type} {x : Except ε α} {f : α → Except ε β} {b : β} :
    x >>= f = .ok b ↔ ∃ a, x = .ok a ∧ f a = .ok b := by
  cases x with
  | error e => simp [bind, Except.bind]
  | ok a => simp [bind, Except.bind]

/-- A check before a computation lets it answer when the check passes. -/
theorem seq_eq_ok_iff {ε β : Type} {x : Except ε Unit} {f : Unit → Except ε β} {b : β} :
    x >>= f = .ok b ↔ x = .ok () ∧ f () = .ok b := by
  cases x with
  | error e => simp [bind, Except.bind]
  | ok a => simp [bind, Except.bind]

/-- A loop of checks passes when every check passes. -/
theorem forM_eq_ok_iff {ε α : Type} {l : List α} {f : α → Except ε Unit} :
    forM l f = .ok () ↔ ∀ x ∈ l, f x = .ok () := by
  induction l with
  | nil => simp [pure, Except.pure]
  | cons x rest ih => simp [seq_eq_ok_iff, ih]

/-- The text of an `IdempotencyClaimConflictError` names no incumbent. -/
def idempotencyClaimConflict : PyError :=
  ⟨.idempotencyClaimConflictError, "idempotency claim conflicts with the original request"⟩

def snapshotRevisionConflict : PyError :=
  ⟨.snapshotRevisionConflict, "snapshot revision conflict"⟩

end Raes
