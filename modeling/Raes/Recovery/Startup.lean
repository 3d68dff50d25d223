import Raes.Store.MemoryEffects

/-!
# The control plane over its store

The part of a runtime control plane that commits to a store and keeps live
caches of what the store holds (`control_plane_durability.py`).  The store is
any provider that keeps what it accepts; the in-memory store is one.
-/

namespace Raes.Recovery

open Store Stateful PyError

/-- The records and the snapshot state that a provider holds. -/
structure Held where
  records : Dict String ControlPlaneOperationRecord
  state : SnapshotState

structure Kept (rules : ContractRules) (mode : TerminalCommitMode) (snapshot : RuntimeSnapshot)
    (record : ControlPlaneOperationRecord) (before : Held) (answer : SnapshotState)
    (after : Held) : Prop where
  records : after.records = before.records.set record.receipt.operationId record
  state : after.state = answer
  operationOnly : mode = .operationOnly → answer = before.state
  snapshotBearing : mode = .snapshotBearing →
    rules.sealHistories snapshot = .ok answer.snapshot

/-- An accepted retry finds the record kept, and changes nothing. -/
structure Retried (record : ControlPlaneOperationRecord) (before after : Held) : Prop where
  stored : storedEq (before.records.get? record.receipt.operationId) record = true
  same : after = before

/-- The methods of a store provider that recovery calls, with what the provider
holds.  A commit that raises may have been kept. -/
structure ControlPlaneStore (rules : ContractRules) (σ : Type) where
  held : σ → Held
  loadRecords : σ → Except PyError (Dict String ControlPlaneOperationRecord)
  loadSnapshotState : σ → Except PyError SnapshotState
  readAudit : σ → Except PyError (List AuditEvent)
  commitTerminalOperation : RuntimeSnapshot → ControlPlaneOperationRecord → AuditEvent →
    TerminalCommitMode → ℤ → Stateful PyError σ SnapshotState
  commitParticipantTransition : HistoryHeads → ℤ → RuntimeSnapshot →
    ControlPlaneOperationRecord → AuditEvent → Stateful PyError σ SnapshotState
  loadRecords_ok : ∀ s records, loadRecords s = .ok records → records = (held s).records
  loadSnapshotState_ok : ∀ s state, loadSnapshotState s = .ok state → state = (held s).state
  terminal_ok : ∀ snapshot record event mode revision s answer t,
    exec (commitTerminalOperation snapshot record event mode revision) s = (.ok answer, t) →
      Retried record (held s) (held t) ∨
        Kept rules mode snapshot record (held s) answer (held t)
  participant_ok : ∀ heads revision snapshot record event s answer t,
    exec (commitParticipantTransition heads revision snapshot record event) s = (.ok answer, t) →
      Retried record (held s) (held t) ∨
        Kept rules .snapshotBearing snapshot record (held s) answer (held t)
  participant_error : ∀ heads revision snapshot record event s error t,
    exec (commitParticipantTransition heads revision snapshot record event) s =
        (.error error, t) →
      held t = held s ∨
        ∃ answer, Kept rules .snapshotBearing snapshot record (held s) answer (held t)

/-- What recovery asks of the observer of a backend. -/
structure RecoveryObservationRequest where
  operationId : String
  operationKind : OperationKind
  (targetScope runScope requestCommitment : String)
  baselineSnapshot : RuntimeSnapshot

/-- The store of a control plane and the live caches.  `observed` lists the calls
that the plane has made to backends. -/
structure ControlPlane (σ : Type) where
  store : σ
  operations : Dict String ControlPlaneOperationRecord
  snapshotState : SnapshotState
  durabilityPoisoned : Bool
  observed : List RecoveryObservationRequest

abbrev PlaneM (σ : Type) := Stateful PyError (ControlPlane σ)

section Durability

variable {σ α : Type} {rules : ContractRules}

/-- The caches hold what the store holds, each record under its own identity. -/
structure Loaded (store : ControlPlaneStore rules σ) (plane : ControlPlane σ) : Prop where
  operations : plane.operations = (store.held plane.store).records
  state : plane.snapshotState = (store.held plane.store).state
  keyed : ∀ id record, plane.operations.get? id = some record → record.receipt.operationId = id

/-- Call a method of the store, and answer its outcome. -/
def callStore (m : Stateful PyError σ α) : PlaneM σ (Except PyError α) := do
  let plane ← get
  set { plane with store := (exec m plane.store).2 }
  return (exec m plane.store).1

/-- `_poison_runtime_durability` -/
def poison : PlaneM σ Unit := modify fun plane => { plane with durabilityPoisoned := true }

variable (store : ControlPlaneStore rules σ)

/-- Refresh the caches after a commit; `controlProjection` is the check of the
projection that is rebuilt from them. -/
def publishCommittedState
    (controlProjection : Dict String ControlPlaneOperationRecord → SnapshotState →
      Except PyError Unit) (committed : SnapshotState) : PlaneM σ Unit := do
  match store.loadRecords (← get).store with
  | .error error =>
    poison
    throw error
  | .ok operations =>
    modify fun plane => { plane with operations := operations, snapshotState := committed }
    match controlProjection operations committed with
    | .ok () => return ()
    | .error error =>
      poison
      throw error

def reloadDerivedState (store : ControlPlaneStore rules σ) : PlaneM σ Unit := do
  let state ← liftM (store.loadSnapshotState (← get).store)
  let operations ← liftM (store.loadRecords (← get).store)
  modify fun plane => { plane with operations := operations, snapshotState := state }

def readTerminalCut (s : σ) (operationId : String) (expectedAudit : AuditEvent) :
    Except PyError (SnapshotState × Dict String ControlPlaneOperationRecord) := do
  let state ← store.loadSnapshotState s
  let operations ← store.loadRecords s
  match operations.get? operationId with
  | none => throw (runtimeError "backend effect has no authoritative terminal cut")
  | some record =>
    refuseIf (isNonTerminal record.status.state = true)
      (runtimeError "backend effect has no authoritative terminal cut")
    let audit ← store.readAudit s
    refuseIf (audit.any (fun event => event.pyEq expectedAudit) = false)
      (runtimeError "terminal operation is missing its actor-bound audit")
    return (state, operations)

/-- Read back one authoritative cut, or poison the plane. -/
def resynchronizeAfterStoreError (operationId : String)
    (expectedAudit : AuditEvent) : PlaneM σ Unit := do
  match readTerminalCut store (← get).store operationId expectedAudit with
  | .ok (state, operations) =>
    modify fun plane => { plane with operations := operations, snapshotState := state }
  | .error _ => poison

/-- Bring the caches up to date after a commit has raised. -/
def recoverCaches (operationId : String) (event : AuditEvent) (error : PyError) : PlaneM σ Unit :=
  if error.kind = .snapshotRevisionConflict then reloadDerivedState store
  else resynchronizeAfterStoreError store operationId event

/-- What a commit does with the outcome of the store. -/
def settleCommit (controlProjection : Dict String ControlPlaneOperationRecord → SnapshotState →
      Except PyError Unit)
    (operationId : String) (event : AuditEvent) : Except PyError SnapshotState → PlaneM σ Unit
  | .ok committed => publishCommittedState store controlProjection committed
  | .error error => do
    recoverCaches store operationId event error
    throw error

end Durability

end Raes.Recovery

/-!
# Startup reconciliation

`reconcile_startup_operations` of `control_plane_recovery.py`, with the checks
that it makes in `mixed_runtime_recovery.py` and the settlement of interrupted
delivery tools (`participant_delivery_tool_recovery.py`,
`participant_delivery_tool_settlement.py`).

The backends, the validation of their results and the contract models of
delivery tools are a parameter; every result holds for every choice of them.
-/

namespace Raes.Recovery

open Store Stateful PyError

/-- The reserved code and message of each non-success terminal state. -/
def terminalOperationDiagnostics : List (OperationState × String × String) :=
  [(.failed, "runtime.control-plane.operation-failed", "Operation completed with a known failure."),
    (.cancelled, "runtime.control-plane.operation-cancelled",
      "Operation was cancelled without an unclassified backend effect."),
    (.indeterminate, "runtime.control-plane.operation-indeterminate",
      "Operation outcome could not be established; explicit resolution is required.")]

def operationTerminalDiagnostic (state : OperationState) : Except PyError Diagnostic :=
  match terminalOperationDiagnostics.lookup state with
  | some (code, message) => .ok ⟨code, "runtime", "/state", message, .error⟩
  | none => .error (valueError
      "terminal diagnostic requires failed, cancelled, or indeterminate state")

def reservedState (code : String) : Option OperationState :=
  (terminalOperationDiagnostics.find? fun entry => entry.2.1 = code).map Prod.fst

/-- Require reserved terminal codes to match their state and full carrier. -/
def requireOperationTerminalDiagnostics (state : OperationState) (diagnostics : List Diagnostic) :
    Except PyError (List Diagnostic) := do
  diagnostics.forM fun diagnostic =>
    match reservedState diagnostic.code with
    | none => .ok ()
    | some reserved => do
      let stable ← operationTerminalDiagnostic reserved
      refuseIf (reserved ≠ state ∨ diagnostic ≠ stable)
        (valueError "operation terminal diagnostic is not canonical for its state")
  match operationTerminalDiagnostic state with
  | .error _ => return diagnostics
  | .ok stable =>
    refuseIf (diagnostics.count stable ≠ 1)
      (valueError "non-success terminal status requires one canonical state diagnostic")
    return diagnostics

/-- The diagnostics with exactly one canonical terminal classification. -/
def operationTerminalDiagnosticsOf (state : OperationState) (diagnostics : List Diagnostic) :
    Except PyError (List Diagnostic) := do
  if state = .succeeded then requireOperationTerminalDiagnostics state diagnostics
  else
    let stable ← operationTerminalDiagnostic state
    requireOperationTerminalDiagnostics state
      (if stable ∈ diagnostics then diagnostics else diagnostics ++ [stable])

def recoveryAddress : String := "runtime.control-plane.recovery"

def recoveryAbsent : Diagnostic where
  code := "runtime.control-plane.recovery-effect-absent"
  domain := "runtime"
  address := recoveryAddress
  message := "Recovery observation established that the interrupted effect was absent."
  severity := .error

def recoveryApplied : Diagnostic where
  code := "runtime.control-plane.recovery-effect-applied"
  domain := "runtime"
  address := recoveryAddress
  message := "Recovery observation established and validated the interrupted effect."
  severity := .info

def recoveryUnobservable : Diagnostic where
  code := "runtime.control-plane.recovery-effect-unobservable"
  domain := "runtime"
  address := recoveryAddress
  message := "The interrupted effect could not be established by recovery observation."
  severity := .error

/-- What an observer reports of an interrupted effect; only an applied effect
comes with a snapshot and addresses. -/
inductive ObservedEffect where
  | absent
  | applied (snapshot : RuntimeSnapshot) (changedAddresses : List String)
  | indeterminate

structure RecoveryObservationResult where
  effect : ObservedEffect
  (operationId requestCommitment : String)

structure ApplyResult where
  success : Bool
  snapshot : RuntimeSnapshot
  diagnostics : List Diagnostic
  changedAddresses : List String

/-- A backend as recovery sees it: its observer, and the kinds of operations
that its manifest lets the observer report on.  The observer may raise, or
answer something that is no observation result. -/
structure RecoveryTarget where
  recoveryObserver : Option
    (RecoveryObservationRequest → Except PyError (Option RecoveryObservationResult))
  recoveryObservation : Option (List OperationKind)

/-- A validated attempt event of a mixed run: its edge, and the component that
provides its allocation. -/
structure MixedAttempt where
  edgeId : Option String
  component : Option RecoveryTarget

structure MixedRuntime where
  runId : String
  /-- `MixedCompositionRuntimeEventModel.model_validate` and `_recovery_component` -/
  attempt : Json → Except PyError MixedAttempt

inductive ToolSettlement where
  | withheld
  | indeterminate
  deriving DecidableEq

def ToolSettlement.value : ToolSettlement → String
  | .withheld => "withheld"
  | .indeterminate => "indeterminate"

def ToolSettlement.terminalState : ToolSettlement → OperationState
  | .withheld => .cancelled
  | .indeterminate => .indeterminate

/-- The behavior events and the action result that settle one delivery tool. -/
structure ToolOutcome where
  participantAddress : String
  events : List Json
  actionResult : Json

/-- What recovery takes from the rest of the runtime. -/
structure RecoveryHost where
  rules : ContractRules
  /-- The time at which the terminal record of an operation is written. -/
  updatedAt : ControlPlaneOperationRecord → String
  target : Option RecoveryTarget
  mixedRuntime : Option MixedRuntime
  /-- `_validated_backend_result` of a proposed result over a baseline -/
  validatedBackendResult : String → RuntimeSnapshot → ApplyResult → ApplyResult
  /-- `control_projection` -/
  controlProjection : Dict String ControlPlaneOperationRecord → SnapshotState →
    Except PyError Unit
  /-- `tool_action_claim_payload` -/
  toolActionClaimPayload : Json → Except PyError (Option Json)
  /-- `delivery_tool_origin_matches` -/
  deliveryToolOriginMatches : Json → Json → Bool
  /-- The validated admission and request of a retained tool, its outcome record
  and its history events. -/
  toolOutcome : Json → Json → ControlPlaneOperationRecord → Json → ToolSettlement →
    RuntimeSnapshot → Except PyError ToolOutcome
  /-- `require_participant_temporal_history` and the participant state contracts -/
  requireSettledSnapshot : RuntimeSnapshot → Except PyError Unit

section Reconciliation

variable {σ : Type} (host : RecoveryHost) (store : ControlPlaneStore host.rules σ)

def commitTerminalOperation (snapshot : RuntimeSnapshot) (record : ControlPlaneOperationRecord)
    (mode : TerminalCommitMode) : PlaneM σ Unit := do
  let event ← liftM (terminalOperationAudit host.rules record)
  let revision := (← get).snapshotState.revision
  let outcome ← callStore (store.commitTerminalOperation snapshot record event mode revision)
  settleCommit store host.controlProjection record.receipt.operationId event outcome

/-- `_commit_participant_transition`.  The evaluation histories of the snapshot
are those of the plane, so no evaluation commit is pending. -/
def commitParticipantTransition (heads : HistoryHeads) (snapshot : RuntimeSnapshot)
    (record : ControlPlaneOperationRecord) (event : AuditEvent) : PlaneM σ Unit := do
  let revision := (← get).snapshotState.revision
  let outcome ← callStore (store.commitParticipantTransition heads revision snapshot record event)
  settleCommit store host.controlProjection record.receipt.operationId event outcome

/-- An unconsumed invocation gives up its reservation. -/
def releaseInvocation (ledger : InvocationLedger) : InvocationLedger :=
  if ledger.consumed then ledger else { ledger with reserved := false }

variable (record : ControlPlaneOperationRecord)

def recoveryRecord (state : OperationState)
    (diagnostics : List Diagnostic) (changedAddresses : List String) :
    Except PyError ControlPlaneOperationRecord := do
  let diagnostics ← operationTerminalDiagnosticsOf state (record.status.diagnostics ++ diagnostics)
  return { record with
    status := { record.status with
      state := state
      updatedAt := host.updatedAt record
      diagnostics := diagnostics
      changedAddresses := changedAddresses }
    invocation := record.invocation.map releaseInvocation }

def commitRecoveryTerminal (state : OperationState)
    (diagnostics : List Diagnostic) (mode : TerminalCommitMode)
    (snapshot : Option RuntimeSnapshot) (changedAddresses : List String) : PlaneM σ Unit := do
  let terminal ← liftM (recoveryRecord host record state diagnostics changedAddresses)
  let current := (← get).snapshotState.snapshot
  commitTerminalOperation host store (snapshot.getD current) terminal mode

def retainedDeliveryTool (record : ControlPlaneOperationRecord) : Option Json :=
  match record.payloadField "delivery_tool" with
  | some .null => none
  | retained => retained

variable (snapshot : RuntimeSnapshot)

/-- The heads of every retained history of a participant, in key order. -/
def expectedParticipantHistoryHeads (address : String) : HistoryHeads :=
  ["participant_behavior_history", "participant_control_evaluation_history",
    "participant_control_history", "participant_crossing_history",
    "participant_episode_history"].map fun name =>
      (name ++ ":" ++ address, (snapshot.history name address).getLast?.bind fun event =>
        (historyRecordIdentity event).or (some (host.rules.crossingDigest event)))

def setMember {α : Type} (key : String) (value : α) : List (String × α) → List (String × α)
  | [] => [(key, value)]
  | (k, v) :: rest =>
    if key = k then (key, value) :: rest
    else if key < k then (key, value) :: (k, v) :: rest
    else (k, v) :: setMember key value rest

def appendBehaviorEvents (address : String) (events : List Json) : RuntimeSnapshot :=
  let name := "participant_behavior_history"
  let histories := (snapshot.histories.lookup name).getD []
  { snapshot with
    histories := setMember name
      (setMember address (snapshot.history name address ++ events) histories) snapshot.histories }

def settledPayload (settlement : ToolSettlement) (actionResult : Json) : Json :=
  let members := match record.resultPayload with
    | some (.obj fields) => fields
    | _ => []
  .obj (Dict.setEntry "action_result" actionResult
    (Dict.setEntry "settlement" (.str settlement.value) members))

def settlementRecord (settlement : ToolSettlement)
    (outcome : ToolOutcome) (before after : RuntimeSnapshot) : ControlPlaneOperationRecord :=
  { record with
    status := { record.status with
      state := settlement.terminalState
      updatedAt := host.updatedAt record }
    resultPayload := some (settledPayload record settlement outcome.actionResult)
    decisionHistoryHeads := expectedParticipantHistoryHeads host before outcome.participantAddress
    resultHistoryHeads := expectedParticipantHistoryHeads host after outcome.participantAddress }

def terminalConfirmed (plane : ControlPlane σ) (address : String)
    (terminal : ControlPlaneOperationRecord) : Bool :=
  !plane.durabilityPoisoned &&
    storedEq (plane.operations.get? terminal.receipt.operationId) terminal &&
    expectedParticipantHistoryHeads host plane.snapshotState.snapshot address =
      terminal.resultHistoryHeads

/-- `settle_delivery_tool` of an interrupted tool. -/
def settleDeliveryTool (binding claim : Json) (record : ControlPlaneOperationRecord)
    (retained : Json) (settlement : ToolSettlement) : PlaneM σ Unit := do
  reloadDerivedState store
  let before := (← get).snapshotState.snapshot
  let outcome ← liftM (host.toolOutcome binding claim record retained settlement before)
  let after := appendBehaviorEvents before outcome.participantAddress outcome.events
  liftM (host.requireSettledSnapshot after)
  let terminal := settlementRecord host record settlement outcome before after
  let event ← liftM (terminalOperationAudit host.rules terminal)
  match ← attempt (commitParticipantTransition host store terminal.decisionHistoryHeads after
      terminal event) with
  | .ok () => return ()
  | .error error =>
    if terminalConfirmed host (← get) outcome.participantAddress terminal then return ()
    else throw error

def parentInvocation (operations : Dict String ControlPlaneOperationRecord)
    (record : ControlPlaneOperationRecord) : Except PyError (Option Json) :=
  match record.status.context.parentOperationId.bind operations.get? with
  | none => .ok none
  | some parent => host.rules.deliveryInvocationBinding parent

/-- `reconcile_delivery_tool`, which answers whether the record is a delivery
tool. -/
def reconcileDeliveryTool (record : ControlPlaneOperationRecord) : PlaneM σ Bool := do
  match retainedDeliveryTool record with
  | none => return false
  | some retained =>
    let claim ← liftM (host.toolActionClaimPayload (record.resultPayload.getD .null))
    let operations := (← get).operations
    let binding ← liftM (parentInvocation host operations record)
    match binding, claim with
    | some binding, some claim =>
      liftM (refuseIf (host.deliveryToolOriginMatches binding claim = false)
        (valueError "delivery tool recovery requires its retained invocation"))
      let settlement := if record.status.state = .accepted then ToolSettlement.withheld
        else .indeterminate
      settleDeliveryTool host store binding claim record retained settlement
      return true
    | _, _ => throw (valueError "delivery tool recovery requires its retained invocation")

/-- Exclude migrated claims whose pre-effect ordering cannot be established. -/
def acceptedClaimHasWriteAheadProvenance (record : ControlPlaneOperationRecord) : Bool :=
  "legacy:unattributed" ∉ record.status.context.authorizationScope

def mixedHistoryPrefix : List Char := "mixed_composition_history:".toList

def hasMixedHistory (record : ControlPlaneOperationRecord) : Bool :=
  record.decisionHistoryHeads.any fun entry => mixedHistoryPrefix.isPrefixOf entry.1.toList

/-- The attempt event of an operation, if there is exactly one. -/
def recoveryAttempt (binding : MixedRuntime) (operationId : String) :
    Except PyError (Option MixedAttempt) := do
  let ids : List Json := [.str ("composition:" ++ operationId ++ ":attempt"),
    .str ("composition:" ++ operationId ++ ":lifecycle-attempt")]
  let kinds : List Json := [.str "attempt", .str "lifecycle-attempt"]
  let found := (snapshot.history "mixed_composition_history" binding.runId).filter fun event =>
    ids.contains ((event.get? "event_id").getD .null) &&
      kinds.contains ((event.get? "event_kind").getD .null)
  match ← found.mapM binding.attempt with
  | [attempt] => return some attempt
  | _ => return none

def mixedAttempt (record : ControlPlaneOperationRecord) : Except PyError (Option MixedAttempt) :=
  match host.mixedRuntime with
  | none => return none
  | some binding => recoveryAttempt snapshot binding record.receipt.operationId

def isMixedAction (kind : OperationKind) : Bool :=
  kind = .participantAction || kind = .participantCrossing

def requiresMixedStageReconciliation
    (record : ControlPlaneOperationRecord) : Except PyError Bool := do
  let kind := record.status.context.operationKind
  if hasMixedHistory record = false ∨ kind ≠ .compositionPhase ∧ isMixedAction kind = false then
    return false
  else if kind = .compositionPhase then return true
  else
    match ← mixedAttempt host snapshot record with
    | none => return true
    | some attempt => return attempt.edgeId.isSome

def recoveryTarget (record : ControlPlaneOperationRecord) :
    Except PyError (Option RecoveryTarget) := do
  if host.mixedRuntime.isSome ∧ hasMixedHistory record = true ∧
      isMixedAction record.status.context.operationKind = true then
    let attempt ← mixedAttempt host snapshot record
    return attempt.bind MixedAttempt.component
  else return host.target

def isHexDigest (text : String) : Bool :=
  "sha256:".toList.isPrefixOf text.toList &&
    (text.toList.drop 7).length = 64 &&
    (text.toList.drop 7).all fun c => ('a' ≤ c && c ≤ 'f') || ('0' ≤ c && c ≤ '9')

def isBoundedText (text : String) : Bool := text ≠ "" && text.toList.length ≤ 256

def requireObservationRequest (request : RecoveryObservationRequest) : Except PyError Unit := do
  [("operation_id", request.operationId), ("target_scope", request.targetScope),
    ("run_scope", request.runScope), ("request_commitment", request.requestCommitment)].forM
      fun (name, value) => refuseIf (isBoundedText value = false)
        (valueError (name ++ " must contain between 1 and 256 characters"))
  refuseIf (isHexDigest request.requestCommitment = false)
    (valueError "request_commitment must be a canonical sha256 digest")

def boundObservationResult
    (observer : RecoveryObservationRequest → Except PyError (Option RecoveryObservationResult))
    (request : RecoveryObservationRequest) : Option ObservedEffect :=
  match observer request with
  | .ok (some result) =>
    if result.operationId = request.operationId ∧
        result.requestCommitment = request.requestCommitment then some result.effect
    else none
  | _ => none

def validatedAppliedObservation (baseline snapshot : RuntimeSnapshot)
    (changedAddresses : List String) : Option ApplyResult :=
  let validated := host.validatedBackendResult record.receipt.operationId baseline
    ⟨true, snapshot, [], changedAddresses⟩
  if validated.success then some validated else none

inductive RecoveryEffect where
  | absent
  | applied (result : ApplyResult)
  | indeterminate

def observationRequest (baseline : RuntimeSnapshot) : RecoveryObservationRequest where
  operationId := record.receipt.operationId
  operationKind := record.status.context.operationKind
  targetScope := record.status.context.targetScope
  runScope := record.status.context.runScope
  requestCommitment := record.status.context.requestCommitment
  baselineSnapshot := baseline

def classifyObservation (baseline : RuntimeSnapshot) : Option ObservedEffect → RecoveryEffect
  | some .absent => .absent
  | some (.applied snapshot changedAddresses) =>
    match validatedAppliedObservation host record baseline snapshot changedAddresses with
    | some result => .applied result
    | none => .indeterminate
  | some .indeterminate | none => .indeterminate

def observeRecoveryTarget (target : Option RecoveryTarget) : PlaneM σ RecoveryEffect := do
  match target with
  | none => return .indeterminate
  | some target =>
    match target.recoveryObserver, target.recoveryObservation with
    | some observer, some supportedOperationKinds =>
      if record.status.context.operationKind ∈ supportedOperationKinds then
        let baseline := (← get).snapshotState.snapshot
        let request := observationRequest record baseline
        liftM (requireObservationRequest request)
        modify fun plane => { plane with observed := plane.observed ++ [request] }
        return classifyObservation host record baseline (boundObservationResult observer request)
      else return .indeterminate
    | _, _ => return .indeterminate

def observeRunningRecord (record : ControlPlaneOperationRecord) : PlaneM σ RecoveryEffect := do
  let snapshot := (← get).snapshotState.snapshot
  if ← liftM (requiresMixedStageReconciliation host snapshot record) then return .indeterminate
  else if record.status.context.operationKind = .compositionPhase then return .absent
  else
    let target ← liftM (recoveryTarget host snapshot record)
    observeRecoveryTarget host record target

def reconcileAcceptedRecord (record : ControlPlaneOperationRecord) : PlaneM σ Unit :=
  if acceptedClaimHasWriteAheadProvenance record then
    commitRecoveryTerminal host store record .cancelled [recoveryAbsent] .operationOnly none []
  else
    commitRecoveryTerminal host store record .indeterminate [recoveryUnobservable] .operationOnly
      none []

/-- The record retains an invocation of its own or of a delivery. -/
def hasInvocation (record : ControlPlaneOperationRecord) : Except PyError Bool :=
  if record.invocation.isSome then .ok true
  else Option.isSome <$> host.rules.deliveryInvocationBinding record

def reconcileRunningRecord (record : ControlPlaneOperationRecord) : PlaneM σ Unit := do
  if ← liftM (hasInvocation host record) then
    commitRecoveryTerminal host store record .indeterminate [recoveryUnobservable] .operationOnly
      none []
  else
    match ← observeRunningRecord host record with
    | .absent =>
      commitRecoveryTerminal host store record .failed [recoveryAbsent] .operationOnly none []
    | .applied result =>
      commitRecoveryTerminal host store record .succeeded (recoveryApplied :: result.diagnostics)
        .snapshotBearing (some result.snapshot) result.changedAddresses
    | .indeterminate =>
      commitRecoveryTerminal host store record .indeterminate [recoveryUnobservable]
        .operationOnly none []

def reconcileRecord (record : ControlPlaneOperationRecord) : PlaneM σ Unit := do
  if ← reconcileDeliveryTool host store record then return ()
  else if record.status.state = .accepted then reconcileAcceptedRecord host store record
  else reconcileRunningRecord host store record

/-- Records are reconciled in the order of submission. -/
def submittedBefore (a b : ControlPlaneOperationRecord) : Prop :=
  a.receipt.submittedAt < b.receipt.submittedAt ∨
    a.receipt.submittedAt = b.receipt.submittedAt ∧ a.receipt.operationId ≤ b.receipt.operationId

instance : DecidableRel submittedBefore := fun _ _ =>
  inferInstanceAs (Decidable (_ ∨ _ ∧ _))

def interruptedRecords (operations : Dict String ControlPlaneOperationRecord) :
    List ControlPlaneOperationRecord :=
  (operations.values.filter fun record => isNonTerminal record.status.state).insertionSort
    submittedBefore

/-- Classify every durable non-terminal claim before runtime readiness. -/
def reconcileStartupOperations : PlaneM σ Unit := do
  let operations := (← get).operations
  forM (interruptedRecords operations) (reconcileRecord host store)

end Reconciliation

end Raes.Recovery
