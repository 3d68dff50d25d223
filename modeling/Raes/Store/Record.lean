import Raes.Contracts.Diagnostics
import Raes.Errors
import Raes.Json

/-!
# Operations

The portable values of `raes_contracts/operation_lifecycle.py` and
`raes_contracts/runtime_state.py` that an operation record carries, and the
audit events that a store keeps beside the records.
-/

namespace Raes.Store

inductive OperationState where
  | accepted
  | running
  | succeeded
  | failed
  | cancelled
  | indeterminate
  deriving DecidableEq, Repr

def OperationState.value : OperationState → String
  | .accepted => "accepted"
  | .running => "running"
  | .succeeded => "succeeded"
  | .failed => "failed"
  | .cancelled => "cancelled"
  | .indeterminate => "indeterminate"

inductive OperationKind where
  | provisioning
  | orchestration
  | evaluation
  | workflowCancellation
  | workflowTimeoutReconciliation
  | participantAction
  | participantControl
  | participantCrossing
  | compositionPhase
  | indeterminateResolution
  deriving DecidableEq, Repr

def OperationKind.value : OperationKind → String
  | .provisioning => "provisioning"
  | .orchestration => "orchestration"
  | .evaluation => "evaluation"
  | .workflowCancellation => "workflow-cancellation"
  | .workflowTimeoutReconciliation => "workflow-timeout-reconciliation"
  | .participantAction => "participant-action"
  | .participantControl => "participant-control"
  | .participantCrossing => "participant-crossing"
  | .compositionPhase => "composition-phase"
  | .indeterminateResolution => "indeterminate-resolution"

inductive RuntimeDomain where
  | provisioning
  | orchestration
  | evaluation
  | participant
  deriving DecidableEq, Repr

/-- Authority and request context fixed at admission. -/
structure OperationAdmissionContext where
  actorId : String
  authorizationScope : List String
  (targetScope runScope : String)
  operationKind : OperationKind
  requestCommitment : String
  parentOperationId : Option String
  deriving DecidableEq

structure OperationReceipt where
  operationId : String
  domain : RuntimeDomain
  submittedAt : String
  accepted : Bool
  context : OperationAdmissionContext
  schemaVersion : String
  diagnostics : List Diagnostic
  deriving DecidableEq

structure OperationStatus where
  operationId : String
  domain : RuntimeDomain
  state : OperationState
  (submittedAt updatedAt : String)
  context : OperationAdmissionContext
  schemaVersion : String
  diagnostics : List Diagnostic
  changedAddresses : List String
  deriving DecidableEq

structure AuditEvent where
  (timestamp action identity : String)
  allowed : Bool
  (target operationId reason : String)
  details : Json
  deriving DecidableEq

/-- Python `==` of two audit events: only the details hold untyped values. -/
def AuditEvent.pyEq (a b : AuditEvent) : Bool :=
  { a with details := .null } = { b with details := .null } && a.details.pyEq b.details

def legalOperationTransitions : List (OperationState × OperationState) :=
  [(.accepted, .running), (.accepted, .cancelled), (.accepted, .indeterminate),
    (.running, .succeeded), (.running, .failed), (.running, .cancelled),
    (.running, .indeterminate)]

def isOperationTransitionAllowed (source target : OperationState) : Bool :=
  (source, target) ∈ legalOperationTransitions

def isNonTerminal : OperationState → Bool
  | .accepted | .running => true
  | _ => false

def LegalStep (source target : OperationState) : Prop :=
  isOperationTransitionAllowed source target = true

theorem nonTerminal_of_legalStep {source target : OperationState}
    (h : LegalStep source target) : isNonTerminal source = true := by
  unfold LegalStep at h
  revert h
  cases source <;> cases target <;> decide

end Raes.Store

/-!
# Operation records

The persisted record of one operation (`control_plane_store.py`) with the
contract values that it retains.  A contract value keeps the members that a
store reads, beside its whole dump as `content`.

A dictionary of a record is given by its entries in key order, since no store
depends on the order in which entries were made.
-/

namespace Raes.Store

structure BackendOperationRequest where
  operationId : String
  context : OperationAdmissionContext
  commandContractId : String
  content : Json
  deriving DecidableEq

structure BackendOperationControl where
  (controlId actorId : String)
  authorizationScope : List String
  content : Json
  deriving DecidableEq

structure BackendOperationResponse where
  messageControlId : Option String
  content : Json
  deriving DecidableEq

structure InvocationLedger where
  request : BackendOperationRequest
  delivery : Option Json
  (native consumed reserved : Bool)
  releaseCommitment : Option String
  responses : List BackendOperationResponse
  controls : List BackendOperationControl
  (deliveredControls automaticControls : List String)
  (mixedBinding mixedTimeState mixedPostTimeState mixedCompositionState : Option Json)
  mixedReports : List Json
  deriving DecidableEq

/-- Retained evidence for a separately authorized absence resolution. -/
structure InvocationReconciliation where
  request : BackendOperationRequest
  control : BackendOperationControl
  response : BackendOperationResponse
  deriving DecidableEq

/-- Atomic claim of one occurrence.  `requestContent` is the dump of the trigger
request, whose digest the order head binds. -/
structure InjectOccurrence where
  (operationId requestKey occurrenceId targetScope runScope : String)
  slot : Option String
  requestContent : Json
  admission : OperationAdmissionContext
  (storeRevision predecessor : String)
  position : ℕ
  content : Json
  deriving DecidableEq

structure InjectOccurrenceOutcome where
  response : BackendOperationResponse
  proposedState : Option OperationState
  content : Json
  deriving DecidableEq

structure ParticipantInjectControlReference where
  eventId : String
  occurrenceRevision : ℕ
  digest : String
  deriving DecidableEq

structure ParticipantInjectApplication where
  (worldOperationId deliveryAddress : String)
  control : Option ParticipantInjectControlReference
  content : Json
  deriving DecidableEq

structure InjectOccurrenceCorrelation where
  (occurrence outcome result : Json)
  deriving DecidableEq

structure ParticipantInjectContent where
  application : ParticipantInjectApplication
  correlation : InjectOccurrenceCorrelation
  content : Json
  deriving DecidableEq

/-- The head of each history that a decision or a result is bound to. -/
abbrev HistoryHeads := List (String × Option String)

structure ControlPlaneOperationRecord where
  receipt : OperationReceipt
  status : OperationStatus
  (requestFingerprint idempotencyKey : String)
  resultPayload : Option Json
  (decisionHistoryHeads resultHistoryHeads : HistoryHeads)
  legacyRequestCommitment : Bool
  invocation : Option InvocationLedger
  reconciliation : Option InvocationReconciliation
  injectOccurrence : Option InjectOccurrence
  injectOutcome : Option InjectOccurrenceOutcome
  injectEvidence : Option Json
  injectDelivery : Option ParticipantInjectContent
  injectDeliveryControl : Option Json
  deriving DecidableEq

/-- Python `==` of two optional payloads. -/
def payloadEq : Option Json → Option Json → Bool
  | none, none => true
  | some a, some b => a.pyEq b
  | _, _ => false

namespace ControlPlaneOperationRecord

/-- Python `==` of two records: only the result payload holds untyped values. -/
def pyEq (a b : ControlPlaneOperationRecord) : Bool :=
  { a with resultPayload := none } = { b with resultPayload := none } &&
    payloadEq a.resultPayload b.resultPayload

def operationId (record : ControlPlaneOperationRecord) : String := record.receipt.operationId

/-- `(record.result_payload or {}).get(field)` -/
def payloadField (record : ControlPlaneOperationRecord) (field : String) : Option Json :=
  match record.resultPayload with
  | none => none
  | some payload => payload.get? field

end ControlPlaneOperationRecord

/-- Python `==` of an optional stored record and a record. -/
def storedEq (existing : Option ControlPlaneOperationRecord)
    (record : ControlPlaneOperationRecord) : Bool :=
  match existing with
  | none => false
  | some stored => stored.pyEq record

@[simp] theorem storedEq_none (record : ControlPlaneOperationRecord) :
    storedEq none record = false := rfl

@[simp] theorem storedEq_some (stored record : ControlPlaneOperationRecord) :
    storedEq (some stored) record = stored.pyEq record := rfl

theorem eq_of_pyEq {a b : ControlPlaneOperationRecord} (h : a.pyEq b = true) :
    { a with resultPayload := none } = { b with resultPayload := none } := by
  unfold ControlPlaneOperationRecord.pyEq at h
  rw [Bool.and_eq_true] at h
  exact of_decide_eq_true h.1

/-- A runtime snapshot: its histories by name and participant, and the rest as
one value. -/
structure RuntimeSnapshot where
  histories : List (String × List (String × List Json))
  content : Json
  deriving DecidableEq

def RuntimeSnapshot.pyEq (a b : RuntimeSnapshot) : Bool :=
  a.histories.length = b.histories.length &&
    ((a.histories.zip b.histories).all fun p =>
      p.1.1 = p.2.1 && p.1.2.length = p.2.2.length &&
        (p.1.2.zip p.2.2).all fun q =>
          q.1.1 = q.2.1 && (Json.arr q.1.2).pyEq (.arr q.2.2)) &&
    a.content.pyEq b.content

/-- The events of one history of one participant. -/
def RuntimeSnapshot.history (snapshot : RuntimeSnapshot) (name address : String) : List Json :=
  (((snapshot.histories.lookup name).getD []).lookup address).getD []

structure SnapshotState where
  snapshot : RuntimeSnapshot
  revision : ℤ
  deriving DecidableEq

/-- The validation of the retained contract values, and the owners that a store
asks about them.  Every result about a store holds for every choice of these. -/
structure ContractRules where
  /-- `InvocationLedger.model_validate` -/
  ledger : InvocationLedger → Except PyError Unit
  /-- `InjectOccurrenceModel.model_validate` -/
  occurrence : InjectOccurrence → Except PyError Unit
  /-- `require_inject_occurrence_invocation` -/
  occurrenceInvocation : InjectOccurrence → BackendOperationRequest → Except PyError Unit
  /-- `InjectCaptureResult.model_validate`, with the observation it holds -/
  capture : Json → Except PyError (Option Json)
  /-- `validate_inject_occurrence_outcome` of a validated outcome -/
  outcome : InjectOccurrence → BackendOperationRequest → InjectOccurrenceOutcome →
    Except PyError Unit
  /-- The validated evidence names the scenario and every reference of the outcome. -/
  evidence : Json → InjectOccurrence → InjectOccurrenceOutcome → Except PyError Unit
  /-- `ParticipantInjectContentModel.model_validate`, with its dump -/
  delivery : ParticipantInjectContent → Except PyError Json
  /-- `require_retained_delivery_control` -/
  deliveryControl : ParticipantInjectApplication → Option Json → Except PyError Unit
  /-- `delivery_invocation_binding` -/
  deliveryInvocationBinding : ControlPlaneOperationRecord → Except PyError (Option Json)
  /-- `delivery_tool_binding` -/
  deliveryToolBinding : ControlPlaneOperationRecord → Except PyError (Option Json)
  /-- `require_delivery_tool_transition` -/
  deliveryToolTransition : ControlPlaneOperationRecord → ControlPlaneOperationRecord →
    Except PyError Unit
  /-- `require_effect_claim_payload` -/
  effectClaimPayload : ControlPlaneOperationRecord → Except PyError Unit
  /-- `InvocationReconciliation.model_validate` -/
  reconciliation : InvocationReconciliation → Except PyError Unit
  /-- `validate_inject_occurrence_correlation` -/
  correlation : Option InjectOccurrence → BackendOperationRequest → InjectOccurrenceOutcome →
    InjectOccurrenceCorrelation → Except PyError Unit
  /-- `_cancellation_effect_claim(record) or cancellation_continuation_claim(record)` -/
  supervisoryEffectClaim : ControlPlaneOperationRecord → Except PyError Bool
  /-- `invocation_tool_child_of` -/
  toolChildOf : ControlPlaneOperationRecord → ControlPlaneOperationRecord → Except PyError Bool
  /-- `require_audit_event_fields` -/
  auditEventFields : AuditEvent → Except PyError Unit
  /-- `canonical_json_digest` -/
  canonicalJsonDigest : Json → String
  /-- `require_participant_autonomous_runtime_snapshot` -/
  autonomousSnapshot : RuntimeSnapshot → Except PyError Unit
  /-- `seal_snapshot_histories` -/
  sealHistories : RuntimeSnapshot → Except PyError RuntimeSnapshot
  /-- `canonical_crossing_digest` -/
  crossingDigest : Json → String

/-- Rules that accept every retained value and seal histories as they are. -/
def ContractRules.lax : ContractRules where
  ledger _ := .ok ()
  occurrence _ := .ok ()
  occurrenceInvocation _ _ := .ok ()
  capture _ := .ok none
  outcome _ _ _ := .ok ()
  evidence _ _ _ := .ok ()
  delivery value := .ok value.content
  deliveryControl _ _ := .ok ()
  deliveryInvocationBinding _ := .ok none
  deliveryToolBinding _ := .ok none
  deliveryToolTransition _ _ := .ok ()
  effectClaimPayload _ := .ok ()
  reconciliation _ := .ok ()
  correlation _ _ _ _ := .ok ()
  supervisoryEffectClaim _ := .ok false
  toolChildOf _ _ := .ok false
  auditEventFields _ := .ok ()
  canonicalJsonDigest _ := "digest"
  autonomousSnapshot _ := .ok ()
  sealHistories snapshot := .ok snapshot
  crossingDigest _ := "digest"

end Raes.Store
