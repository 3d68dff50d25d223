import Raes.Lib.Stateful
import Raes.Store.Commit

/-!
# The in-memory store

`InMemoryControlPlaneStore` of `control_plane_store_memory.py`.  Each method is
one computation under the lock of the store, and an exception keeps whatever the
method assigned before it was raised.
-/

namespace Raes.Store

open PyError Stateful

structure MemoryStore where
  snapshotState : SnapshotState
  records : Dict String ControlPlaneOperationRecord
  claimGuards : ControlOperationIndex
  operationChanges : List String
  idempotency : Dict IdempotencyClaimIdentity String
  audit : List AuditEvent
  effectAdmissionStopped : Bool

namespace MemoryStore

def init (state : SnapshotState) : MemoryStore where
  snapshotState := state
  records := Dict.empty
  claimGuards := ControlOperationIndex.empty
  operationChanges := []
  idempotency := Dict.empty
  audit := []
  effectAdmissionStopped := false

abbrev MemoryM := Stateful PyError MemoryStore

def updatedIdempotency (store : MemoryStore) (record : ControlPlaneOperationRecord) :
    Except PyError (Dict IdempotencyClaimIdentity String) := do
  if record.idempotencyKey = "" then return store.idempotency
  match store.idempotency.get? (claimOf record) with
  | none => return store.idempotency.set (claimOf record) record.receipt.operationId
  | some existing =>
    refuseIf (existing ≠ record.receipt.operationId)
      (conflictError "idempotency key already belongs to another operation")
    return store.idempotency.set (claimOf record) record.receipt.operationId

/-- Keep a record in the record table, the change feed and the guards. -/
def keepRecord (record : ControlPlaneOperationRecord) : MemoryM Unit := do
  modify fun store =>
    { store with records := store.records.set record.receipt.operationId record }
  modify fun store =>
    { store with operationChanges := store.operationChanges ++ [record.receipt.operationId] }
  modify fun store => { store with claimGuards := store.claimGuards.apply record }

def publish (record : ControlPlaneOperationRecord) (event : AuditEvent)
    (committed : SnapshotState) : MemoryM Unit := do
  let idempotency ← updatedIdempotency (← get) record
  modify fun store => { store with snapshotState := committed }
  keepRecord record
  modify fun store => { store with idempotency := idempotency }
  modify fun store => { store with audit := store.audit ++ [event] }

def requireExpectedRevision (expectedRevision : ℤ) : MemoryM Unit := do
  let _ ← requireSnapshotRevision expectedRevision
  if (← get).snapshotState.revision ≠ expectedRevision then throw snapshotRevisionConflict

def validateRetry (snapshot : RuntimeSnapshot) (record : ControlPlaneOperationRecord)
    (event : AuditEvent) (mode : TerminalCommitMode) (expectedRevision : ℤ) (label : String) :
    MemoryM SnapshotState := do
  let store ← get
  requireTerminalRetryMode store.snapshotState.revision expectedRevision mode
  refuseIf (store.snapshotState.snapshot.pyEq snapshot = false)
    (valueError (label ++ " retry does not match the durable snapshot"))
  refuseIf (auditMatches store.audit record event = false)
    (valueError (label ++ " retry does not match the durable audit"))
  return store.snapshotState

variable (rules : ContractRules)

/-- `_save_record` -/
def saveRecordLocked (record : ControlPlaneOperationRecord) : MemoryM Unit := do
  let store ← get
  requireInjectClaim rules record store.records.values store.snapshotState.revision
  let changed ← requireOperationRecordTransition rules
    (store.records.get? record.receipt.operationId) record
  if changed then
    let idempotency ← updatedIdempotency store record
    modify fun store => { store with idempotency := idempotency }
    keepRecord record

variable (store : MemoryStore)

/-- The record that holds the claim of a candidate, if the candidate carries a key. -/
def incumbent (record : ControlPlaneOperationRecord) : Option ControlPlaneOperationRecord :=
  if record.idempotencyKey = "" then none
  else (store.idempotency.get? (claimOf record)).bind store.records.get?

/-- The blocks of a new claim that the caller, the effect stop and the open
operations impose. -/
def requireClaimAdmitted (stopped : Bool)
    (guards : List ControlPlaneOperationRecord) (record : ControlPlaneOperationRecord) :
    Except PyError Unit := do
  if stopped && record.status.context.operationKind ≠ .indeterminateResolution then
    let supervisory ← controlRecordIsSupervisory rules record
    refuseIf (supervisory = false) (newClaimBlockError .currentState)
  refuseIf (mixedClaimConflicts record guards = true) (newClaimBlockError .currentState)
  let conflicts ← supervisedClaimConflicts rules record guards
  refuseIf (conflicts = true) (newClaimBlockError .currentState)

def claimRecord (record : ControlPlaneOperationRecord)
    (legacyRequestFingerprint : String) (newClaimBlocked : Option NewClaimBlock) :
    MemoryM ControlPlaneOperationRecord := do
  let store ← get
  requireIdempotencyKey record.idempotencyKey
  match store.incumbent record with
  | some existing =>
    requireSameIdempotencyReplay existing record legacyRequestFingerprint
    return existing
  | none =>
    if let some block := newClaimBlocked then throw (newClaimBlockError block)
    requireInjectClaim rules record store.records.values store.snapshotState.revision
    requireClaimAdmitted rules store.effectAdmissionStopped store.claimGuards.guardRecords record
    saveRecordLocked rules record
    return record

variable (snapshot : RuntimeSnapshot)

def saveSnapshot (expectedRevision : ℤ) : MemoryM SnapshotState := do
  rules.autonomousSnapshot snapshot
  requireExpectedRevision expectedRevision
  let committed ← sealedState rules snapshot (← nextSnapshotRevision expectedRevision)
  modify fun store => { store with snapshotState := committed }
  return committed

def commitParticipantTransition (heads : ObservedHeads)
    (expectedRevision : ℤ) (snapshot : RuntimeSnapshot) (record : ControlPlaneOperationRecord)
    (auditEvent : AuditEvent) : MemoryM SnapshotState := do
  rules.autonomousSnapshot snapshot
  let store ← get
  let existing := store.records.get? record.receipt.operationId
  if storedEq existing record then
    requireOperationAuditBinding record auditEvent
    validateRetry snapshot record auditEvent .snapshotBearing expectedRevision
      "participant transition"
  else
    requireExpectedRevision expectedRevision
    requireObservedHeads rules store.snapshotState.snapshot heads
    let _ ← requireOperationRecordTransition rules existing record
    requireOperationAuditBinding record auditEvent
    let committed ← sealedState rules snapshot (← nextSnapshotRevision expectedRevision)
    publish record auditEvent committed
    return committed

def commitInvocationTransition (expected record : ControlPlaneOperationRecord)
    (auditEvent : AuditEvent) : MemoryM SnapshotState := do
  requireSupervisionCut rules expected record auditEvent
  let store ← get
  let current := store.records.get? expected.receipt.operationId
  if storedEq current record && store.audit.any (fun event => event.pyEq auditEvent) then
    return store.snapshotState
  if storedEq current expected = false then
    throw (conflictError "invocation revision conflict")
  publish record auditEvent store.snapshotState
  return (← get).snapshotState

def terminalSnapshot (mode : TerminalCommitMode)
    (expectedRevision : ℤ) : Except PyError SnapshotState := do
  match mode with
  | .operationOnly => return store.snapshotState
  | .snapshotBearing => sealedState rules snapshot (← nextSnapshotRevision expectedRevision)

def commitTerminalOperation (record : ControlPlaneOperationRecord) (auditEvent : Option AuditEvent)
    (mode : TerminalCommitMode) (expectedRevision : ℤ) : MemoryM SnapshotState := do
  rules.autonomousSnapshot snapshot
  let event ← terminalEvent rules record auditEvent
  requireTerminalOperationAudit rules record event
  let store ← get
  let changed ← requireTerminalOperationTransition rules
    (store.records.get? record.receipt.operationId) record
  if changed = false then
    validateRetry snapshot record event mode expectedRevision "terminal operation"
  else
    requireExpectedRevision expectedRevision
    refuseIf (mode = .operationOnly ∧ store.snapshotState.snapshot.pyEq snapshot = false)
      (valueError "operation-only terminal commit cannot change the durable snapshot")
    let committed ← terminalSnapshot rules store snapshot mode expectedRevision
    publish record event committed
    return committed

def appendAudit (event : AuditEvent) : MemoryM Unit :=
  modify fun store => { store with audit := store.audit ++ [event] }

def stopEffectAdmission (event : AuditEvent) : MemoryM Unit := do
  if (← get).effectAdmissionStopped = false then
    modify fun store => { store with effectAdmissionStopped := true }
    modify fun store => { store with audit := store.audit ++ [event] }

def loadRecords (store : MemoryStore) :
    Except PyError (Dict String ControlPlaneOperationRecord) := do
  requireInjectHistory rules store.records.values
  return store.records

def perform (rules : ContractRules) : StoreOp → MemoryM StoreAnswer
  | .claimRecord record legacy blocked => .record <$> claimRecord rules record legacy blocked
  | .saveRecord record => (fun _ => .done) <$> saveRecordLocked rules record
  | .saveSnapshot snapshot revision => .state <$> saveSnapshot rules snapshot revision
  | .commitParticipantTransition heads revision snapshot record event =>
    .state <$> commitParticipantTransition rules heads revision snapshot record event
  | .commitInvocationTransition expected record event =>
    .state <$> commitInvocationTransition rules expected record event
  | .commitTerminalOperation snapshot record event mode revision =>
    .state <$> commitTerminalOperation rules snapshot record event mode revision
  | .appendAudit event => (fun _ => .done) <$> appendAudit event
  | .stopEffectAdmission event => (fun _ => .done) <$> stopEffectAdmission event

def step (op : StoreOp) : MemoryStore :=
  (exec (perform rules op) store).2

def Accepts (op : StoreOp) : Prop :=
  ∃ answer, (exec (perform rules op) store).1 = .ok answer

end MemoryStore
end Raes.Store
