import Raes.Lib.Stateful
import Raes.Store.Durable

/-!
# The local store

`LocalControlPlaneStore` of `control_plane_store_local.py` with its record and
invocation mixins, over the rows of its SQLite tables.  Every method runs in one
transaction, which an exception rolls back.
-/

namespace Raes.Store

open PyError Stateful

/-- The committed snapshot: its durable form and the revision of its state row. -/
structure SnapshotRow where
  rows : SnapshotRows
  revision : ℤ
  deriving DecidableEq

structure LocalStore where
  operations : Dict String OperationRow
  snapshot : Option SnapshotRow
  audit : List (Json × String)
  effectAdmissionStopped : Bool

/-- `RuntimeSnapshot()` -/
def emptySnapshot : RuntimeSnapshot := ⟨[], .obj []⟩

namespace LocalStore

def init : LocalStore where
  operations := Dict.empty
  snapshot := none
  audit := []
  effectAdmissionStopped := false

abbrev LocalM := Stateful PyError LocalStore

variable (rules : ContractRules) (codec : DurableCodec)

variable (store : LocalStore)

def loadRecord (operationId : String) : Except PyError (Option ControlPlaneOperationRecord) :=
  match store.operations.get? operationId with
  | none => .ok none
  | some row => some <$> operationFromRow codec operationId row

def decodeRows (rows : List (String × OperationRow)) :
    Except PyError (List ControlPlaneOperationRecord) :=
  rows.mapM fun entry => operationFromRow codec entry.1 entry.2

def orderedRows (store : LocalStore) : List (String × OperationRow) :=
  store.operations.entries.insertionSort fun a b => a.1 ≤ b.1

/-- `_load_records`: the records by identity, whose claims must replay. -/
def loadRecords (store : LocalStore) : Except PyError (List ControlPlaneOperationRecord) := do
  let records ← decodeRows codec store.orderedRows
  requireStoredInjectHistory rules records
  return records

def loadSnapshotState (store : LocalStore) : Except PyError SnapshotState := do
  match store.snapshot with
  | none => sealedState rules emptySnapshot 0
  | some row =>
    refuseIf (row.revision < 0 ∨ maxSnapshotRevision < row.revision)
      (evidenceIntegrityError "runtime snapshot revision failed its durable integrity check")
    return ⟨← codec.restoreSnapshot row.rows, row.revision⟩

def loadAudits (store : LocalStore) : Except PyError (List AuditEvent) :=
  store.audit.mapM fun row =>
    decodeContract codec row.1 row.2 "audit event" codec.auditEventFromPayload

def findByIdempotency (context : OperationAdmissionContext) (key : String) :
    Except PyError (Option ControlPlaneOperationRecord) :=
  match store.operations.entries.find? fun entry =>
      entry.2.columns.actorId = context.actorId &&
        entry.2.columns.operationKind = context.operationKind.value &&
        entry.2.columns.idempotencyKey = key with
  | none => .ok none
  | some (operationId, row) => some <$> operationFromRow codec operationId row

/-- A member of a member of a payload, as `json_extract` reads a path. -/
def path (payload : Json) : List String → Option Json
  | [] => some payload
  | name :: rest => (payload.get? name).bind fun member => path member rest

/-- The row is open, or its invocation keeps a reservation. -/
def isParentRow (row : OperationRow) : Bool :=
  path row.payload ["status", "state"] ∈
      [some (.str "accepted"), some (.str "running"), some (.str "indeterminate")] ||
    path row.payload ["invocation", "reserved"] = some (.bool true)

def isReconciliationOf (operationId : String) (row : OperationRow) : Bool :=
  path row.payload ["receipt", "context", "parent_operation_id"] = some (.str operationId) &&
    (path row.payload ["reconciliation"]).any Json.isObj

def guardRows (store : LocalStore) : List (String × OperationRow) :=
  store.operations.entries.filter fun entry =>
    isParentRow entry.2 || store.operations.entries.any fun parent =>
      isParentRow parent.2 && isReconciliationOf parent.1 entry.2

def loadClaimGuardRecords (store : LocalStore) :
    Except PyError (List ControlPlaneOperationRecord) :=
  store.guardRows.mapM fun entry =>
    decodeContract codec entry.2.payload entry.2.digest "operation record"
      codec.recordFromPayload

/-- `_require_inject_claim`: a record without an occurrence is not checked. -/
def requireInjectClaimRow (record : ControlPlaneOperationRecord) : LocalM Unit := do
  if record.injectOccurrence.isSome then
    let store ← get
    let records ← loadRecords rules codec store
    requireInjectClaim rules record records ((store.snapshot.map SnapshotRow.revision).getD 0)

/-- The first row that holds a legacy opaque claim of the actor and kind. -/
def opaqueClaimant (context : OperationAdmissionContext) : Option String :=
  (store.operations.entries.find? fun entry =>
    entry.2.columns.actorId = context.actorId &&
      entry.2.columns.operationKind = context.operationKind.value &&
      entry.2.columns.legacyOpaqueClaim).map Prod.fst

/-- The first row that holds a claim. -/
def claimant (context : OperationAdmissionContext) (key : String) : Option String :=
  (store.operations.entries.find? fun entry =>
    entry.2.columns.actorId = context.actorId &&
      entry.2.columns.operationKind = context.operationKind.value &&
      entry.2.columns.idempotencyKey = key).map Prod.fst

def requireFreeClaim (record : ControlPlaneOperationRecord) : Except PyError Unit := do
  if record.idempotencyKey ≠ "" then
    refuseIf (∃ holder ∈ store.opaqueClaimant record.receipt.context,
        holder ≠ record.receipt.operationId)
      idempotencyClaimConflict
    refuseIf (∃ holder ∈ store.claimant record.receipt.context record.idempotencyKey,
        holder ≠ record.receipt.operationId)
      (conflictError "idempotency key already belongs to another operation")

def upsertRecord (record : ControlPlaneOperationRecord) : LocalM Unit := do
  requireInjectClaimRow rules codec record
  requireFreeClaim (← get) record
  let row ← operationRow codec record
  modify fun store =>
    { store with operations := store.operations.set record.receipt.operationId row }

def insertAudit (event : AuditEvent) : LocalM Unit := do
  let row ← encodePayload codec (auditPayload event)
  modify fun store => { store with audit := store.audit ++ [row] }

def requireExpectedRevision (expectedRevision : ℤ) : LocalM SnapshotState := do
  let _ ← requireSnapshotRevision expectedRevision
  let current ← loadSnapshotState rules codec (← get)
  if current.revision ≠ expectedRevision then throw snapshotRevisionConflict
  return current

variable (snapshot : RuntimeSnapshot)

def commitSnapshot (expectedRevision : ℤ) : LocalM SnapshotState := do
  let _ ← requireExpectedRevision rules codec expectedRevision
  let revision ← nextSnapshotRevision expectedRevision
  let canonical ← codec.canonicalSnapshot snapshot
  let rows ← codec.persistSnapshot ((← get).snapshot.map SnapshotRow.rows) canonical
  modify fun store => { store with snapshot := some ⟨rows, revision⟩ }
  liftM (loadSnapshotState rules codec (← get))

variable (record : ControlPlaneOperationRecord)

/-- Answer the durable state when a repeated commit matches it. -/
def requireRetry (event : AuditEvent) (mode : TerminalCommitMode) (expectedRevision : ℤ)
    (label : String) : LocalM SnapshotState := do
  let canonical ← codec.canonicalSnapshot snapshot
  let store ← get
  let current ← loadSnapshotState rules codec store
  requireTerminalRetryMode current.revision expectedRevision mode
  refuseIf (current.snapshot.pyEq canonical = false)
    (valueError (label ++ " retry does not match the durable snapshot"))
  let audits ← loadAudits codec store
  refuseIf (auditMatches audits record event = false)
    (valueError (label ++ " retry does not match the durable audit"))
  return current

/-- The record that holds the claim of a candidate, if the candidate carries a key. -/
def incumbent (record : ControlPlaneOperationRecord) :
    Except PyError (Option ControlPlaneOperationRecord) :=
  if record.idempotencyKey = "" then .ok none
  else findByIdempotency codec store record.receipt.context record.idempotencyKey

/-- The blocks of a new claim that the effect stop and the open operations impose. -/
def requireClaimAdmitted (record : ControlPlaneOperationRecord) : Except PyError Unit := do
  if store.effectAdmissionStopped &&
      record.status.context.operationKind ≠ .indeterminateResolution then
    let supervisory ← controlRecordIsSupervisory rules record
    refuseIf (supervisory = false) (newClaimBlockError .currentState)
  let guards ← loadClaimGuardRecords codec store
  refuseIf (mixedClaimConflicts record guards = true) (newClaimBlockError .currentState)
  let conflicts ← supervisedClaimConflicts rules record guards
  refuseIf (conflicts = true) (newClaimBlockError .currentState)

def claimRecord (legacyRequestFingerprint : String)
    (newClaimBlocked : Option NewClaimBlock) : LocalM ControlPlaneOperationRecord :=
  transaction do
    requireIdempotencyKey record.idempotencyKey
    match ← incumbent codec (← get) record with
    | some existing =>
      requireSameIdempotencyReplay existing record legacyRequestFingerprint
      return existing
    | none =>
      if let some block := newClaimBlocked then throw (newClaimBlockError block)
      requireInjectClaimRow rules codec record
      requireClaimAdmitted rules codec (← get) record
      let existing ← loadRecord codec (← get) record.receipt.operationId
      let changed ← requireOperationRecordTransition rules existing record
      if changed then
        upsertRecord rules codec record
        return record
      return existing.getD record

def saveRecord (record : ControlPlaneOperationRecord) : LocalM Unit :=
  transaction do
    let existing ← loadRecord codec (← get) record.receipt.operationId
    let changed ← requireOperationRecordTransition rules existing record
    if changed then upsertRecord rules codec record

def saveSnapshot (expectedRevision : ℤ) : LocalM SnapshotState :=
  transaction do
    rules.autonomousSnapshot snapshot
    commitSnapshot rules codec snapshot expectedRevision

def commitParticipantTransition (heads : ObservedHeads) (expectedRevision : ℤ)
    (snapshot : RuntimeSnapshot) (record : ControlPlaneOperationRecord)
    (auditEvent : AuditEvent) : LocalM SnapshotState :=
  transaction do
    rules.autonomousSnapshot snapshot
    let existing ← loadRecord codec (← get) record.receipt.operationId
    if storedEq existing record then
      requireOperationAuditBinding record auditEvent
      requireRetry rules codec snapshot record auditEvent .snapshotBearing expectedRevision
        "participant transition"
    else
      let current ← requireExpectedRevision rules codec expectedRevision
      requireObservedHeads rules current.snapshot heads
      let _ ← requireOperationRecordTransition rules existing record
      requireOperationAuditBinding record auditEvent
      let committed ← commitSnapshot rules codec snapshot expectedRevision
      upsertRecord rules codec record
      insertAudit codec auditEvent
      return committed

/-- The audit trail, which a cut reads only when the stored record is its own. -/
def auditsOfRepeated (current : Option ControlPlaneOperationRecord)
    (record : ControlPlaneOperationRecord) : Except PyError (List AuditEvent) :=
  if storedEq current record then loadAudits codec store else .ok []

def commitInvocationTransition (expected record : ControlPlaneOperationRecord)
    (auditEvent : AuditEvent) : LocalM SnapshotState :=
  transaction do
    requireSupervisionCut rules expected record auditEvent
    let store ← get
    let current ← loadRecord codec store expected.receipt.operationId
    let audits ← auditsOfRepeated codec store current record
    if storedEq current record && audits.any (fun event => event.pyEq auditEvent) then
      liftM (loadSnapshotState rules codec store)
    else if storedEq current expected = false then
      throw (conflictError "invocation revision conflict")
    else
      upsertRecord rules codec record
      insertAudit codec auditEvent
      liftM (loadSnapshotState rules codec (← get))

def terminalSnapshot (current : SnapshotState) (snapshot : RuntimeSnapshot)
    (mode : TerminalCommitMode) (expectedRevision : ℤ) : LocalM SnapshotState := do
  match mode with
  | .operationOnly =>
    let canonical ← codec.canonicalSnapshot snapshot
    refuseIf (current.snapshot.pyEq canonical = false)
      (valueError "operation-only terminal commit cannot change the durable snapshot")
    return current
  | .snapshotBearing => commitSnapshot rules codec snapshot expectedRevision

def commitTerminalOperation (auditEvent : Option AuditEvent) (mode : TerminalCommitMode)
    (expectedRevision : ℤ) : LocalM SnapshotState :=
  transaction do
    rules.autonomousSnapshot snapshot
    let event ← terminalEvent rules record auditEvent
    requireTerminalOperationAudit rules record event
    let existing ← loadRecord codec (← get) record.receipt.operationId
    let changed ← requireTerminalOperationTransition rules existing record
    if changed = false then
      requireRetry rules codec snapshot record event mode expectedRevision "terminal operation"
    else
      let current ← requireExpectedRevision rules codec expectedRevision
      let committed ← terminalSnapshot rules codec current snapshot mode expectedRevision
      upsertRecord rules codec record
      insertAudit codec event
      return committed

def appendAudit (event : AuditEvent) : LocalM Unit := transaction (insertAudit codec event)

def stopEffectAdmission (event : AuditEvent) : LocalM Unit :=
  transaction do
    if (← get).effectAdmissionStopped = false then
      modify fun store => { store with effectAdmissionStopped := true }
      insertAudit codec event

def perform : StoreOp → LocalM StoreAnswer
  | .claimRecord record legacy blocked =>
    .record <$> claimRecord rules codec record legacy blocked
  | .saveRecord record => (fun _ => .done) <$> saveRecord rules codec record
  | .saveSnapshot snapshot revision => .state <$> saveSnapshot rules codec snapshot revision
  | .commitParticipantTransition heads revision snapshot record event =>
    .state <$> commitParticipantTransition rules codec heads revision snapshot record event
  | .commitInvocationTransition expected record event =>
    .state <$> commitInvocationTransition rules codec expected record event
  | .commitTerminalOperation snapshot record event mode revision =>
    .state <$> commitTerminalOperation rules codec snapshot record event mode revision
  | .appendAudit event => (fun _ => .done) <$> appendAudit codec event
  | .stopEffectAdmission event => (fun _ => .done) <$> stopEffectAdmission codec event

def step (op : StoreOp) : LocalStore :=
  (exec (perform rules codec op) store).2

def Accepts (op : StoreOp) : Prop :=
  ∃ answer, (exec (perform rules codec op) store).1 = .ok answer

end LocalStore
end Raes.Store
