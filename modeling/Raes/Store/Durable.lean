import Raes.Contracts.JsonPointer
import Raes.Store.Commit

/-!
# Durable values

The rows of the local store: `control_plane_store_records.py`,
`control_plane_store_claim_columns.py` and `control_plane_store_local_codec.py`.
A payload is the JSON value that its canonical text denotes.
-/

namespace Raes.Store

open PyError

def RuntimeDomain.value : RuntimeDomain → String
  | .provisioning => "provisioning"
  | .orchestration => "orchestration"
  | .evaluation => "evaluation"
  | .participant => "participant"

def strings (items : List String) : Json := .arr (items.map .str)

def optionalText : Option String → Json
  | none => .null
  | some text => .str text

def optionalDump {α : Type} (dump : α → Json) : Option α → Json
  | none => .null
  | some value => dump value

def diagnosticPayload (diagnostic : Diagnostic) : Json :=
  .obj [("code", .str diagnostic.code), ("domain", .str diagnostic.domain),
    ("address", .str diagnostic.address), ("message", .str diagnostic.message),
    ("severity", .str diagnostic.severity.value)]

def contextPayload (context : OperationAdmissionContext) : Json :=
  .obj [("actor_id", .str context.actorId),
    ("authorization_scope", strings context.authorizationScope),
    ("target_scope", .str context.targetScope), ("run_scope", .str context.runScope),
    ("operation_kind", .str context.operationKind.value),
    ("request_commitment", .str context.requestCommitment),
    ("parent_operation_id", optionalText context.parentOperationId)]

def ledgerPayload (ledger : InvocationLedger) : Json :=
  .obj [("schema_version", .str "raes-invocation-ledger/v1"),
    ("request", ledger.request.content), ("delivery", optionalDump id ledger.delivery),
    ("native", .bool ledger.native), ("consumed", .bool ledger.consumed),
    ("reserved", .bool ledger.reserved),
    ("release_commitment", optionalText ledger.releaseCommitment),
    ("responses", .arr (ledger.responses.map BackendOperationResponse.content)),
    ("controls", .arr (ledger.controls.map BackendOperationControl.content)),
    ("delivered_controls", strings ledger.deliveredControls),
    ("automatic_controls", strings ledger.automaticControls),
    ("mixed_binding", optionalDump id ledger.mixedBinding),
    ("mixed_time_state", optionalDump id ledger.mixedTimeState),
    ("mixed_post_time_state", optionalDump id ledger.mixedPostTimeState),
    ("mixed_composition_state", optionalDump id ledger.mixedCompositionState),
    ("mixed_reports", .arr ledger.mixedReports)]

def reconciliationPayload (reconciliation : InvocationReconciliation) : Json :=
  .obj [("schema_version", .str "raes-invocation-reconciliation/v1"),
    ("request", reconciliation.request.content), ("control", reconciliation.control.content),
    ("response", reconciliation.response.content)]

def headsPayload (heads : HistoryHeads) : Json :=
  .obj (heads.map fun head => (head.1, optionalText head.2))

/-- `asdict(event)` -/
def auditPayload (event : AuditEvent) : Json :=
  .obj [("timestamp", .str event.timestamp), ("action", .str event.action),
    ("identity", .str event.identity), ("allowed", .bool event.allowed),
    ("target", .str event.target), ("operation_id", .str event.operationId),
    ("reason", .str event.reason), ("details", event.details)]

/-- One history stream of the durable snapshot with its event rows. -/
structure HistoryStream where
  (field participant : String)
  length : ℕ
  head : String
  events : List (Json × String)
  deriving DecidableEq

structure SnapshotRows where
  header : Json
  digest : String
  streams : List HistoryStream
  deriving DecidableEq

/-- The contract models and the snapshot codec behind the durable rows.  Every
result about the local store holds for every choice of these. -/
structure DurableCodec where
  /-- The digest of the canonical text of a value. -/
  digest : Json → String
  /-- `DiagnosticModel(**payload).model_dump(mode="json")` -/
  diagnosticModel : Json → Except PyError Json
  /-- `_record_from_payload` -/
  recordFromPayload : Json → Except PyError ControlPlaneOperationRecord
  /-- `_audit_event_from_payload` -/
  auditEventFromPayload : Json → Except PyError AuditEvent
  /-- `_canonical_snapshot` -/
  canonicalSnapshot : RuntimeSnapshot → Except PyError RuntimeSnapshot
  /-- `persist_history_rows` and the header of `_snapshot_payload`, encoded over
  the rows that the store holds -/
  persistSnapshot : Option SnapshotRows → RuntimeSnapshot → Except PyError SnapshotRows
  /-- `restore_history_rows` of the decoded header, and `_snapshot_from_payload` -/
  restoreSnapshot : SnapshotRows → Except PyError RuntimeSnapshot

variable (codec : DurableCodec)

def isValueError (error : PyError) : Bool :=
  error.kind = .valueError || error.kind = .immutableValueError

/-- Render a diagnostic; an address that the model refuses becomes one escaped token. -/
def portableDiagnosticPayload (diagnostic : Diagnostic) : Except PyError Json :=
  match codec.diagnosticModel (diagnosticPayload diagnostic) with
  | .ok payload => .ok payload
  | .error error =>
    if isValueError error then
      let pointer := if diagnostic.address = "" then "" else "/" ++ escapeToken diagnostic.address
      codec.diagnosticModel (diagnosticPayload { diagnostic with address := pointer })
    else .error error

def receiptPayload (receipt : OperationReceipt) : Except PyError Json := do
  let diagnostics ← receipt.diagnostics.mapM (portableDiagnosticPayload codec)
  return .obj [("schema_version", .str receipt.schemaVersion),
    ("operation_id", .str receipt.operationId), ("domain", .str receipt.domain.value),
    ("submitted_at", .str receipt.submittedAt), ("accepted", .bool receipt.accepted),
    ("context", contextPayload receipt.context), ("diagnostics", .arr diagnostics)]

def statusPayload (status : OperationStatus) : Except PyError Json := do
  let diagnostics ← status.diagnostics.mapM (portableDiagnosticPayload codec)
  return .obj [("schema_version", .str status.schemaVersion),
    ("operation_id", .str status.operationId), ("domain", .str status.domain.value),
    ("state", .str status.state.value), ("submitted_at", .str status.submittedAt),
    ("updated_at", .str status.updatedAt), ("context", contextPayload status.context),
    ("diagnostics", .arr diagnostics), ("changed_addresses", strings status.changedAddresses)]

def recordPayload (record : ControlPlaneOperationRecord) : Except PyError Json := do
  let receipt ← receiptPayload codec record.receipt
  let status ← statusPayload codec record.status
  return .obj [("receipt", receipt), ("status", status),
    ("request_fingerprint", .str record.requestFingerprint),
    ("idempotency_key", .str record.idempotencyKey),
    ("result_payload", optionalDump id record.resultPayload),
    ("decision_history_heads", headsPayload record.decisionHistoryHeads),
    ("result_history_heads", headsPayload record.resultHistoryHeads),
    ("legacy_request_commitment", .bool record.legacyRequestCommitment),
    ("invocation", optionalDump ledgerPayload record.invocation),
    ("reconciliation", optionalDump reconciliationPayload record.reconciliation),
    ("inject_occurrence", optionalDump InjectOccurrence.content record.injectOccurrence),
    ("inject_outcome", optionalDump InjectOccurrenceOutcome.content record.injectOutcome),
    ("inject_evidence", optionalDump id record.injectEvidence),
    ("inject_delivery", optionalDump ParticipantInjectContent.content record.injectDelivery),
    ("inject_delivery_control", optionalDump id record.injectDeliveryControl)]

def durableMaxNesting : ℕ := 128

def encodePayload (payload : Json) : Except PyError (Json × String) := do
  refuseIf (durableMaxNesting < payload.nesting)
    (valueError "durable value exceeds the durable nesting limit")
  return (payload, codec.digest payload)

def decodePayload (content : Json) (expectedDigest kind : String) : Except PyError Json := do
  refuseIf (codec.digest content ≠ expectedDigest)
    (evidenceIntegrityError (kind ++ " failed its durable integrity check"))
  refuseIf (content.isObj = false) (evidenceIntegrityError (kind ++ " payload must be an object"))
  refuseIf (durableMaxNesting < content.nesting)
    (evidenceIntegrityError (kind ++ " exceeds the durable nesting limit"))
  return content

/-- Decode one durable object and rebuild its governed value. -/
def decodeContract {α : Type} (content : Json) (expectedDigest kind : String)
    (rebuild : Json → Except PyError α) : Except PyError α := do
  let payload ← decodePayload codec content expectedDigest kind
  match rebuild payload with
  | .ok value => return value
  | .error error =>
    if isValueError error then
      throw (evidenceIntegrityError (kind ++ " failed its durable contract check"))
    else throw error

structure ClaimColumns where
  (idempotencyKey actorId operationKind targetScope runScope requestCommitment : String)
  legacyOpaqueClaim : Bool
  requestFingerprint : String
  deriving DecidableEq

def legacyOpaqueKeyPrefixes : List (List Char) :=
  ["participant-control:".toList, "participant-crossing:".toList]

/-- A claim under a key that an earlier build derived from the request. -/
def isLegacyOpaque (record : ControlPlaneOperationRecord) : Bool :=
  record.legacyRequestCommitment &&
    legacyOpaqueKeyPrefixes.any fun p => p.isPrefixOf record.idempotencyKey.toList

def localOperationClaimColumns (record : ControlPlaneOperationRecord) : ClaimColumns where
  idempotencyKey := record.idempotencyKey
  actorId := record.receipt.context.actorId
  operationKind := record.receipt.context.operationKind.value
  targetScope := record.receipt.context.targetScope
  runScope := record.receipt.context.runScope
  requestCommitment := record.receipt.context.requestCommitment
  legacyOpaqueClaim := isLegacyOpaque record
  requestFingerprint := record.requestFingerprint

structure OperationRow where
  columns : ClaimColumns
  payload : Json
  digest : String
  deriving DecidableEq

def operationFromRow (operationId : String) (row : OperationRow) :
    Except PyError ControlPlaneOperationRecord := do
  let record ← decodeContract codec row.payload row.digest "operation record"
    codec.recordFromPayload
  refuseIf (record.receipt.operationId ≠ operationId)
    (evidenceIntegrityError "operation record identity does not match its durable key")
  refuseIf (localOperationClaimColumns record ≠ row.columns)
    (evidenceIntegrityError "operation claim columns do not match the operation record")
  return record

def operationRow (record : ControlPlaneOperationRecord) : Except PyError OperationRow := do
  let encoded ← encodePayload codec (← recordPayload codec record)
  return ⟨localOperationClaimColumns record, encoded.1, encoded.2⟩

/-- The record without the diagnostics of its receipt and status, which the
portable contract may render differently. -/
def ControlPlaneOperationRecord.withoutDiagnostics (record : ControlPlaneOperationRecord) :
    ControlPlaneOperationRecord :=
  { record with
    receipt := { record.receipt with diagnostics := [] }
    status := { record.status with diagnostics := [] } }

structure ReadsBack (written read : ControlPlaneOperationRecord) : Prop where
  restores : ∃ payload, recordPayload codec written = .ok payload ∧
    codec.recordFromPayload payload = .ok read
  same : read.withoutDiagnostics = written.withoutDiagnostics

def PortableRecord (record : ControlPlaneOperationRecord) : Prop :=
  ∃ payload, recordPayload codec record = .ok payload ∧ payload.nesting ≤ durableMaxNesting ∧
    codec.recordFromPayload payload = .ok record

def PortableEvent (event : AuditEvent) : Prop :=
  (auditPayload event).nesting ≤ durableMaxNesting ∧
    codec.auditEventFromPayload (auditPayload event) = .ok event

/-- Sealing, normalizing and restoring the snapshot over the rows of a store
gives it back. -/
def PortableSnapshot (rules : ContractRules) (rows : Option SnapshotRows)
    (snapshot : RuntimeSnapshot) : Prop :=
  rules.sealHistories snapshot = .ok snapshot ∧
    codec.canonicalSnapshot snapshot = .ok snapshot ∧
    ∃ written, codec.persistSnapshot rows snapshot = .ok written ∧
      codec.restoreSnapshot written = .ok snapshot

end Raes.Store
