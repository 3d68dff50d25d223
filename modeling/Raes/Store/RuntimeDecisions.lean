import Raes.Realization.ValueEquality
import Raes.Store.Durable

/-!
# Runtime decisions

The append-only decisions of `runtime_decision_store.py`, in the memory store
and in a SQL store, and the identity check of `runtime_decisions.py`.

A call is one transaction, so it either answers with a new ledger or raises and
leaves the ledger as it was.
-/

namespace Raes.Store

open PyError

structure DecisionContract (D : Type) where
  /-- `decision_id` -/
  decisionId : D → String
  /-- `model_dump(mode="json")` -/
  dump : D → Json.Value
  /-- `validate_runtime_decision` of a JSON value -/
  validate : Json → Except PyError D

/-- A decision is rebuilt from its dump, which is an object that the durable
codec can hold. -/
structure DecisionContract.Lawful {D : Type} (contract : DecisionContract D) : Prop where
  rebuilds : ∀ d, contract.validate (contract.dump d).json = .ok d
  isObj : ∀ d, (contract.dump d).json.isObj = true
  bounded : ∀ d, (contract.dump d).json.nesting ≤ durableMaxNesting

variable {D : Type} (contract : DecisionContract D)

def requireIdenticalDecision (existing candidate : D) : Except PyError Unit :=
  refuseIf ((contract.dump existing).eq (contract.dump candidate) = false)
    (conflictError "runtime decision identity conflicts with its committed value")

def decisionCandidates (decisions : List Json) : Except PyError (List D) := do
  refuseIf (¬ (1 ≤ decisions.length ∧ decisions.length ≤ 64))
    (valueError "runtime decision cuts require a bounded nonempty tuple")
  let candidates ← decisions.mapM contract.validate
  refuseIf (¬ (candidates.map contract.decisionId).Nodup)
    (valueError "runtime decision cuts require unique identities")
  return candidates

variable (existing : Dict String D)

def AllBound (candidates : List D) : Prop :=
  ∀ item ∈ candidates, existing.contains (contract.decisionId item) = true

instance (existing : Dict String D) (candidates : List D) :
    Decidable (AllBound contract existing candidates) :=
  inferInstanceAs (Decidable (∀ item ∈ candidates, _))

/-- `set(expected_ids) == existing.keys()` -/
def ExactlyBound (expectedIds : List String) : Prop :=
  (∀ k ∈ expectedIds, k ∈ existing.keys) ∧ ∀ k ∈ existing.keys, k ∈ expectedIds

instance (existing : Dict String D) (expectedIds : List String) :
    Decidable (ExactlyBound existing expectedIds) :=
  inferInstanceAs (Decidable (_ ∧ _))

def requireBound (item : D) : Except PyError Unit :=
  match existing.get? (contract.decisionId item) with
  | some bound => requireIdenticalDecision contract bound item
  | none => .ok ()

def requireDecisionCut (candidates : List D) (expectedIds : List String) : Except PyError Bool := do
  forM candidates (requireBound contract existing)
  if AllBound contract existing candidates then return false
  else do
    refuseIf (¬ ExactlyBound existing expectedIds)
      (conflictError "runtime decision set changed before admission")
    return true

namespace MemoryDecisions

def loadRuntimeDecisions (ledger : Dict String D) : List D := ledger.values

variable (ledger : Dict String D)

def claimRuntimeDecision (decision : Json) : Except PyError (Bool × Dict String D) := do
  let candidate ← contract.validate decision
  match ledger.get? (contract.decisionId candidate) with
  | some existing => do
    requireIdenticalDecision contract existing candidate
    return (false, ledger)
  | none => return (true, ledger.set (contract.decisionId candidate) candidate)

/-- `self._runtime_decisions.update(...)` -/
def appended (candidates : List D) : Dict String D :=
  candidates.foldl (fun ledger item => ledger.set (contract.decisionId item) item) ledger

def claimRuntimeDecisions (decisions : List Json)
    (expectedIds : List String) : Except PyError (Bool × Dict String D) := do
  let candidates ← decisionCandidates contract decisions
  if ← requireDecisionCut contract ledger candidates expectedIds then
    return (true, appended contract ledger candidates)
  else return (false, ledger)

end MemoryDecisions

namespace SqlDecisions

/-- The table `runtime_decisions`: content and digest under the identity. -/
abbrev Rows := Dict String (Json × String)

variable (codec : DurableCodec)

def decisionKind : String := "runtime decision"

/-- `decode_contract(*row, kind=_DECISION_KIND, rebuild=validate_runtime_decision)` -/
def decodeDecision (row : Json × String) : Except PyError D :=
  decodeContract codec row.1 row.2 decisionKind contract.validate

def encodeDecision (decision : D) : Except PyError (Json × String) :=
  encodePayload codec (contract.dump decision).json

def decisionFromRow (row : String × Json × String) : Except PyError D := do
  let decision ← decodeDecision contract codec row.2
  refuseIf (contract.decisionId decision ≠ row.1)
    (evidenceIntegrityError "runtime decision identity does not match its durable key")
  return decision

def decisionsFromRows (rows : List (String × Json × String)) : Except PyError (List D) :=
  rows.mapM (decisionFromRow contract codec)

def loadRuntimeDecisions (table : Rows) : Except PyError (List D) :=
  decisionsFromRows contract codec (sortBy (fun row => row.1) table.entries)

def claimRuntimeDecision (table : Rows) (decision : Json) : Except PyError (Bool × Rows) := do
  let candidate ← contract.validate decision
  let encoded ← encodeDecision contract codec candidate
  let identity := contract.decisionId candidate
  -- `ON CONFLICT(decision_id) DO NOTHING`: the row that stands is read back
  let standing := table.get? identity
  let existing ← decodeDecision contract codec (standing.getD encoded)
  requireIdenticalDecision contract existing candidate
  return (standing.isNone, if standing.isNone then table.set identity encoded else table)

def byIdentity (decisions : List D) : Dict String D :=
  decisions.foldl (fun d item => d.set (contract.decisionId item) item) Dict.empty

/-- Insert the encoded candidates whose identity is not bound. -/
def inserted (existing : Dict String D) (table : Rows)
    (encoded : List (String × Json × String)) : Rows :=
  encoded.foldl (fun table row =>
    if existing.contains row.1 then table else table.set row.1 row.2) table

def claimRuntimeDecisions (table : Rows) (decisions : List Json) (expectedIds : List String) :
    Except PyError (Bool × Rows) := do
  let candidates ← decisionCandidates contract decisions
  let encoded ← candidates.mapM fun item => do
    return (contract.decisionId item, ← encodeDecision contract codec item)
  let held ← decisionsFromRows contract codec table.entries
  let existing := byIdentity contract held
  if ← requireDecisionCut contract existing candidates expectedIds then
    return (true, inserted existing table encoded)
  else return (false, table)

end SqlDecisions

inductive DecisionCall where
  | claim (decision : Json)
  | claimCut (decisions : List Json) (expectedIds : List String)
  | load

/-- The outcome of a transaction and the state that it leaves. -/
def settled {σ : Type} (s : σ) : Except PyError (Bool × σ) → Except PyError Bool × σ
  | .ok (answer, t) => (.ok answer, t)
  | .error e => (.error e, s)

namespace MemoryDecisions

/-- One call on the memory store; a read answers nothing here and changes nothing. -/
def perform (ledger : Dict String D) : DecisionCall → Except PyError Bool × Dict String D
  | .claim decision => settled ledger (claimRuntimeDecision contract ledger decision)
  | .claimCut decisions expectedIds =>
    settled ledger (claimRuntimeDecisions contract ledger decisions expectedIds)
  | .load => (.ok false, ledger)

def step (ledger : Dict String D) (call : DecisionCall) : Dict String D :=
  (perform contract ledger call).2

end MemoryDecisions

namespace SqlDecisions

variable (codec : DurableCodec)

/-- One call on a SQL store; a read fails when a row does not decode. -/
def perform (table : Rows) : DecisionCall → Except PyError Bool × Rows
  | .claim decision => settled table (claimRuntimeDecision contract codec table decision)
  | .claimCut decisions expectedIds =>
    settled table (claimRuntimeDecisions contract codec table decisions expectedIds)
  | .load => settled table ((loadRuntimeDecisions contract codec table).map fun _ => (false, table))

def step (table : Rows) (call : DecisionCall) : Rows := (perform contract codec table call).2

end SqlDecisions

end Raes.Store
