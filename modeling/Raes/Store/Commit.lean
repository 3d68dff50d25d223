import Raes.Store.Guards
import Raes.Store.InjectClaims

/-!
# Claims and commits

The checks that every store provider makes before it keeps a record or a
snapshot (`control_plane_store.py`, `control_plane_store_revision.py`,
`control_plane_store_history.py`, `operation_ledger_transactions.py`), and the
operations that a provider accepts.
-/

namespace Raes.Store

open PyError

/-- Actor, operation kind and client key: one claim inside a store. -/
abbrev IdempotencyClaimIdentity := String × OperationKind × String

def idempotencyClaimIdentity (context : OperationAdmissionContext) (key : String) :
    IdempotencyClaimIdentity :=
  (context.actorId, context.operationKind, key)

def claimOf (record : ControlPlaneOperationRecord) : IdempotencyClaimIdentity :=
  idempotencyClaimIdentity record.receipt.context record.idempotencyKey

def maxIdempotencyKeyLength : ℕ := 256

/-- An empty key is no key; any other is 1-256 visible ASCII characters. -/
def requireIdempotencyKey (key : String) : Except PyError Unit :=
  refuseIf (key ≠ "" ∧ (maxIdempotencyKeyLength < key.toList.length ∨
      key.toList.any fun c => c < '!' || '~' < c))
    (invalidInputError "Idempotency-Key must be 1-256 visible ASCII characters")

/-- Authorize one replay without disclosing the incumbent on mismatch. -/
def requireSameIdempotencyReplay (existing candidate : ControlPlaneOperationRecord)
    (legacyRequestFingerprint : String) : Except PyError Unit :=
  let legacy := existing.legacyRequestCommitment && legacyRequestFingerprint ≠ ""
  let existingContext := existing.receipt.context
  let candidateContext := candidate.receipt.context
  let contextMatches :=
    if legacy then
      { existingContext with requestCommitment := candidateContext.requestCommitment } =
        candidateContext
    else existingContext = candidateContext
  let fingerprintMatches :=
    if legacy then existing.requestFingerprint = legacyRequestFingerprint
    else existing.requestFingerprint = candidate.requestFingerprint
  refuseIf (¬ contextMatches ∨ ¬ fingerprintMatches ∨
      (candidate.decisionHistoryHeads ≠ existing.decisionHistoryHeads ∧
        candidate.decisionHistoryHeads ≠ existing.resultHistoryHeads))
    idempotencyClaimConflict

inductive NewClaimBlock where
  | currentState
  | indeterminate
  | staleBaseSnapshot
  deriving DecidableEq, Repr

def newClaimBlockError : NewClaimBlock → PyError
  | .currentState => ⟨.newClaimRejected, ""⟩
  | .indeterminate => ⟨.indeterminateClaimBlocked,
      "indeterminate operation requires resolution before effectful mutation"⟩
  | .staleBaseSnapshot =>
      conflictError "explicit base snapshot does not match the authoritative runtime snapshot"

def maxSnapshotRevision : ℤ := 2 ^ 63 - 1

def requireSnapshotRevision (revision : ℤ) : Except PyError ℤ := do
  refuseIf (revision < 0 ∨ maxSnapshotRevision < revision)
    (valueError "snapshot revision is outside the supported range")
  return revision

def nextSnapshotRevision (revision : ℤ) : Except PyError ℤ := do
  let current ← requireSnapshotRevision revision
  refuseIf (current = maxSnapshotRevision)
    (valueError "snapshot revision is outside the supported range")
  return current + 1

variable (rules : ContractRules) (snapshot : RuntimeSnapshot)

def sealedState (revision : ℤ) : Except PyError SnapshotState := do
  let revision ← requireSnapshotRevision revision
  let snapshot ← rules.sealHistories snapshot
  return ⟨snapshot, revision⟩

theorem nextSnapshotRevision_ok {revision next : ℤ} (h : nextSnapshotRevision revision = .ok next) :
    next = revision + 1 := by
  unfold nextSnapshotRevision requireSnapshotRevision at h
  simp only [bind_eq_ok_iff] at h
  obtain ⟨current, ⟨_, _, hcurrent⟩, _, _, hnext⟩ := h
  cases hcurrent
  cases hnext
  rfl

theorem sealedState_ok {rules : ContractRules} {snapshot : RuntimeSnapshot} {revision : ℤ}
    {state : SnapshotState} (h : sealedState rules snapshot revision = .ok state) :
    rules.sealHistories snapshot = .ok state.snapshot ∧ state.revision = revision := by
  unfold sealedState requireSnapshotRevision at h
  simp only [bind_eq_ok_iff] at h
  obtain ⟨current, ⟨_, _, hcurrent⟩, sealedSnapshot, hseal, hstate⟩ := h
  cases hcurrent
  cases hstate
  exact ⟨hseal, rfl⟩

def participantHistoryNames : List String :=
  ["participant_episode_history", "participant_behavior_history", "participant_control_history",
    "participant_crossing_history", "participant_control_evaluation_history",
    "mixed_composition_history", "information_state_history", "participant_outcome_history"]

def textMember (event : Json) (key : String) : Option String :=
  match event.get? key with
  | some (.str value) => if value = "" then none else some value
  | _ => none

def historyRecordIdentity (event : Json) : Option String :=
  (textMember event "event_id").or (textMember event "evaluation_id")

/-- Split a text at its first colon, as `partition` does. -/
def partitionColon (text : String) : String × Option String :=
  match text.toList.span (· ≠ ':') with
  | (name, []) => (String.ofList name, none)
  | (name, _ :: address) => (String.ofList name, some (String.ofList address))

def participantHistoryHead (historyKey : String) : Except PyError (Option String) := do
  match partitionColon historyKey with
  | (name, some address) =>
    refuseIf (address = "" ∨ name ∉ participantHistoryNames)
      (valueError "participant transition history key is not supported")
    match (snapshot.history name address).getLast? with
    | none => return none
    | some event => return (historyRecordIdentity event).or (some (rules.crossingDigest event))
  | (_, none) => throw (valueError "participant transition history key is not supported")

def requireExpectedHistoryHeads (rules : ContractRules) (snapshot : RuntimeSnapshot) :
    HistoryHeads → Except PyError Unit
  | [] => .ok ()
  | (historyKey, expectedHead) :: rest => do
    let head ← participantHistoryHead rules snapshot historyKey
    refuseIf (head ≠ expectedHead)
      (conflictError "expected participant history head does not match durable state")
    requireExpectedHistoryHeads rules snapshot rest

def requireExpectedControlHead (participantAddress : String)
    (expectedHead : Option String) : Except PyError Unit :=
  let currentHead :=
    (snapshot.history "participant_control_history" participantAddress).getLast?.bind fun event =>
      textMember event "event_id"
  refuseIf (currentHead ≠ expectedHead)
    (conflictError "expected control history head does not match durable state")

inductive ObservedHeads where
  | histories (expected : HistoryHeads)
  | control (participantAddress : String) (expectedHead : Option String)

def requireObservedHeads (snapshot : RuntimeSnapshot) : ObservedHeads → Except PyError Unit
  | .histories expected => requireExpectedHistoryHeads rules snapshot expected
  | .control address head => requireExpectedControlHead snapshot address head

def terminalOperationAudit (record : ControlPlaneOperationRecord) : Except PyError AuditEvent := do
  let event : AuditEvent := {
    timestamp := record.status.updatedAt
    action := record.status.context.operationKind.value ++ "_terminal"
    identity := record.status.context.actorId
    allowed := true
    target := record.status.context.targetScope
    operationId := record.receipt.operationId
    reason := "operation-" ++ record.status.state.value
    details := .obj [("state", .str record.status.state.value)] }
  rules.auditEventFields event
  return event

variable (record : ControlPlaneOperationRecord)

def requireTerminalOperationAudit (event : AuditEvent) : Except PyError Unit := do
  let expected ← terminalOperationAudit rules record
  refuseIf (event.pyEq expected = false)
    (valueError "terminal audit does not match the immutable operation context")

def terminalEvent (auditEvent : Option AuditEvent) : Except PyError AuditEvent :=
  match auditEvent with
  | some event => .ok event
  | none => terminalOperationAudit rules record

def requireOperationAuditBinding (event : AuditEvent) : Except PyError Unit :=
  refuseIf (event.operationId ≠ record.receipt.operationId ∨
      event.identity ≠ record.status.context.actorId ∨
      event.timestamp ≠ record.status.updatedAt)
    (valueError "operation audit is not actor-bound to the immutable operation context")

inductive TerminalCommitMode where
  | snapshotBearing
  | operationOnly
  deriving DecidableEq, Repr

def requireTerminalRetryMode (currentRevision expectedRevision : ℤ) (mode : TerminalCommitMode) :
    Except PyError Unit :=
  let committedRevision :=
    match mode with
    | .snapshotBearing => expectedRevision + 1
    | .operationOnly => expectedRevision
  refuseIf (currentRevision ≠ committedRevision)
    (valueError "terminal operation retry does not match the durable commit mode")

/-- The audit trail holds the event exactly once for its operation and action. -/
def auditMatches (audit : List AuditEvent) (record : ControlPlaneOperationRecord)
    (event : AuditEvent) : Bool :=
  match audit.filter fun item =>
    item.operationId = record.receipt.operationId && item.action = event.action with
  | [found] => found.pyEq event
  | _ => false

def supervisionActor (defaultActor : String) (before after : InvocationLedger) :
    Except PyError String := do
  let newControls := after.controls.drop before.controls.length
  let newDeliveries := after.deliveredControls.drop before.deliveredControls.length
  let newResponses := after.responses.drop before.responses.length
  refuseIf (1 < newControls.length ∨ 1 < newDeliveries.length ∨ 1 < newResponses.length)
    (valueError "supervision cut exceeds its bound")
  let controlActor (controlId : String) : Except PyError String :=
    match after.controls.find? fun control => control.controlId = controlId with
    | some control => return control.actorId
    | none => throw ⟨.stopIteration, ""⟩
  match newControls, newDeliveries, newResponses with
  | control :: _, _, _ => return control.actorId
  | [], delivery :: _, _ => controlActor delivery
  | [], [], response :: _ =>
    match response.messageControlId with
    | some controlId => controlActor controlId
    | none => return defaultActor
  | [], [], [] => return defaultActor

/-- Validate an atomic supervision cut without changing portable operation state. -/
def requireSupervisionCut (expected replacement : ControlPlaneOperationRecord)
    (event : AuditEvent) : Except PyError Unit := do
  requireSameOperationIdentity rules expected replacement
  refuseIf (expected.status ≠ replacement.status)
    (valueError "supervision evidence cannot rewrite operation state")
  match expected.invocation, replacement.invocation with
  | some before, some after =>
    let actor ← supervisionActor expected.status.context.actorId before after
    refuseIf (event.allowed = false ∨ event.identity ≠ actor ∨
        event.operationId ≠ expected.receipt.operationId ∨
        event.target ≠ expected.status.context.targetScope ∨
        event.action ≠ "operation_supervision")
      (valueError "supervision audit does not match its admitted actor and operation")
  | _, _ => throw (valueError "supervision requires retained invocation authority")

theorem requireSupervisionCut_ok {rules : ContractRules}
    {expected replacement : ControlPlaneOperationRecord} {event : AuditEvent}
    (h : requireSupervisionCut rules expected replacement event = .ok ()) :
    requireSameOperationIdentity rules expected replacement = .ok () ∧
      expected.status = replacement.status ∧ expected.invocation.isSome ∧
      replacement.invocation.isSome := by
  unfold requireSupervisionCut at h
  rw [seq_eq_ok_iff, seq_eq_ok_iff, refuseIf_eq_ok_iff, not_not] at h
  obtain ⟨hsame, hstatus, h⟩ := h
  refine ⟨hsame, hstatus, ?_⟩
  cases hbefore : expected.invocation with
  | none => simp [hbefore, throw, throwThe, MonadExceptOf.throw] at h
  | some before =>
    cases hafter : replacement.invocation with
    | none => simp [hbefore, hafter, throw, throwThe, MonadExceptOf.throw] at h
    | some after => exact ⟨rfl, rfl⟩

inductive StoreOp where
  | claimRecord (record : ControlPlaneOperationRecord) (legacyRequestFingerprint : String)
      (newClaimBlocked : Option NewClaimBlock)
  | saveRecord (record : ControlPlaneOperationRecord)
  | saveSnapshot (snapshot : RuntimeSnapshot) (expectedRevision : ℤ)
  | commitParticipantTransition (heads : ObservedHeads) (expectedRevision : ℤ)
      (snapshot : RuntimeSnapshot) (record : ControlPlaneOperationRecord)
      (auditEvent : AuditEvent)
  | commitInvocationTransition (expected record : ControlPlaneOperationRecord)
      (auditEvent : AuditEvent)
  | commitTerminalOperation (snapshot : RuntimeSnapshot) (record : ControlPlaneOperationRecord)
      (auditEvent : Option AuditEvent) (mode : TerminalCommitMode) (expectedRevision : ℤ)
  | appendAudit (event : AuditEvent)
  | stopEffectAdmission (event : AuditEvent)

inductive StoreAnswer where
  | record (record : ControlPlaneOperationRecord)
  | state (state : SnapshotState)
  | done
  deriving DecidableEq

end Raes.Store
