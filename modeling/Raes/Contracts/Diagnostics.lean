import Mathlib.Data.String.Basic

/-!
# Diagnostics

The diagnostics of `raes_contracts/diagnostics.py`.  The runtime message and its
portable contract model have the same fields.
-/

namespace Raes

inductive Severity where
  | error
  | warning
  | info
  deriving DecidableEq, Repr

def Severity.value : Severity → String
  | .error => "error"
  | .warning => "warning"
  | .info => "info"

structure Diagnostic where
  (code domain address message : String)
  severity : Severity
  deriving DecidableEq, Repr

def Diagnostic.LE (a b : Diagnostic) : Prop :=
  a.address < b.address ∨ a.address = b.address ∧ a.code ≤ b.code

instance (a b : Diagnostic) : Decidable (a.LE b) :=
  inferInstanceAs (Decidable (_ ∨ _ ∧ _))

end Raes
