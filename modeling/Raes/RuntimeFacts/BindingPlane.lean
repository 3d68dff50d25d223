import Mathlib.Data.List.Sort
import Mathlib.Data.Prod.Lex
import Mathlib.Data.Rat.Defs
import Raes.Contracts.Diagnostics
import Raes.Errors
import Raes.Lib.Dict
import Raes.Lib.Stateful

/-!
# The runtime fact plane

`raes_runtime/runtime_fact_bindings.py` and `runtime_fact_binding_policy.py`.  The
plane keeps the versions of each declared fact in the order of their sequence, and
binds the inputs of an action instance, once, to versions that the requester sees.
The values of facts are of a type `ν`, because the plane hands them on unread.
-/

namespace Raes.RuntimeFacts

open PyError Stateful

inductive ValueType where
  | string
  | integer
  | number
  | boolean
  | reference
  deriving DecidableEq, Repr

inductive SourceKind where
  | observation
  | derived
  | toolResult
  | secretReference
  deriving DecidableEq, Repr

inductive ScopeKind where
  | run
  | participant
  | episode
  | workflow
  deriving DecidableEq, Repr

inductive Sensitivity where
  | publicFact
  | internal
  | restricted
  | secret
  deriving DecidableEq, Repr

inductive Audience where
  | participant
  | workflow
  | protectedSink
  deriving DecidableEq, Repr

inductive AbsenceDisposition where
  | block
  | fail
  | inapplicable
  deriving DecidableEq, Repr

inductive BindingDisposition where
  | bound
  | absent
  | stale
  | ambiguous
  | unauthorized
  | unsupported
  | wrongType
  | wrongScope
  | secretUnavailable
  | dispatchFailed
  deriving DecidableEq, Repr

def BindingDisposition.value : BindingDisposition → String
  | .bound => "bound"
  | .absent => "absent"
  | .stale => "stale"
  | .ambiguous => "ambiguous"
  | .unauthorized => "unauthorized"
  | .unsupported => "unsupported"
  | .wrongType => "wrong_type"
  | .wrongScope => "wrong_scope"
  | .secretUnavailable => "secret_unavailable"
  | .dispatchFailed => "dispatch_failed"

inductive ActionDisposition where
  | bound
  | blocked
  | failed
  | inapplicable
  deriving DecidableEq, Repr

structure Scope where
  kind : ScopeKind
  runId : String
  (participantAddress episodeId workflowAddress : Option String)

structure Visibility where
  (participantAddresses workflowAddresses : List String)
  operatorVisible : Bool
  deriving DecidableEq

structure Declaration where
  factId : String
  valueType : ValueType
  sourceKind : SourceKind
  sensitivity : Sensitivity
  visibility : Visibility
  authorityRefs : List String
  deriving DecidableEq

structure Version (ν : Type) where
  (factId versionId : String)
  sequence : ℕ
  valueType : ValueType
  sourceKind : SourceKind
  sensitivity : Sensitivity
  scope : Scope
  observedAt : String
  expiresAt : Option String
  value : Option ν
  secretRef : Option String
  (evidenceRefs provenanceRefs : List String)

structure Sink where
  (sinkId targetField : String)
  valueType : ValueType
  allowedSourceKinds : List SourceKind
  allowedScopeKinds : List ScopeKind
  allowedSensitivities : List Sensitivity
  maxAgeSeconds : Option ℕ
  authorityRefs : List String
  audience : Audience
  absenceDisposition : AbsenceDisposition

structure Selection where
  sink : Sink
  candidateFactIds : List String

structure Request where
  (runId participantAddress episodeId : String)
  workflowAddress : Option String
  (actionInstanceId actionContractAddress : String)

abbrev ActionKey := String × String × String × Option String × String × String

def Request.actionKey (request : Request) : ActionKey :=
  (request.runId, request.participantAddress, request.episodeId, request.workflowAddress,
    request.actionInstanceId, request.actionContractAddress)

/-- Trusted control-plane authorization for one action instance. -/
structure Admission where
  actionKey : ActionKey
  requestedAt : String
  authorityRefs : List String
  selections : List Selection

structure BindingEvent where
  eventId : String
  request : Request
  (sinkId targetField : String)
  (factId factVersionId : Option String)
  disposition : BindingDisposition
  sensitivity : Option Sensitivity
  (evidenceRefs provenanceRefs authorizationRefs : List String)
  redacted : Bool
  reasonCode : Option String

structure BindingResult where
  accepted : Bool
  actionDisposition : ActionDisposition
  events : List BindingEvent
  diagnostics : List Diagnostic

structure DispatchBinding (ν : Type) where
  sink : Sink
  value : Option ν
  secretRef : Option String

/-- How the trusted dispatcher ends: it returns, with the command consumed or not, it lets a
dispatch failure through, or it raises something else. -/
inductive DispatcherEnd where
  | returned (completed : Bool)
  | failed (disposition : BindingDisposition)
  | raised

/-- What the plane takes from the standard library: the instant of an ISO 8601 text with an
offset, in microseconds, `timedelta.total_seconds`, and `repr` of a text. -/
structure Host where
  instantOf : String → Option ℤ
  totalSeconds : ℤ → ℚ
  repr : String → String

def Host.parseOffsetDatetime (host : Host) (value fieldName : String) : Except PyError ℤ :=
  match host.instantOf value with
  | some instant => .ok instant
  | none => .error (valueError
      (fieldName ++ " must be an ISO 8601 date-time with an explicit UTC offset"))

/-! ## Binding policy -/

def candidateVisible {ν : Type} (request : Request) (sink : Sink) (declaration : Declaration)
    (version : Version ν) : Prop :=
  (version.scope.runId = request.runId ∧
    (version.scope.participantAddress = none ∨
      version.scope.participantAddress = some request.participantAddress) ∧
    (version.scope.episodeId = none ∨ version.scope.episodeId = some request.episodeId) ∧
    (version.scope.workflowAddress = none ∨
      version.scope.workflowAddress = request.workflowAddress)) ∧
  match sink.audience with
  | .workflow => ∃ address ∈ declaration.visibility.workflowAddresses,
      request.workflowAddress = some address
  | .participant | .protectedSink =>
      request.participantAddress ∈ declaration.visibility.participantAddresses

instance {ν : Type} (request : Request) (sink : Sink) (declaration : Declaration)
    (version : Version ν) : Decidable (candidateVisible request sink declaration version) := by
  unfold candidateVisible
  cases sink.audience <;> infer_instance

def validateFreshness {ν : Type} (host : Host) (admission : Admission) (sink : Sink)
    (version : Version ν) : Except PyError BindingDisposition := do
  let requestedAt ← host.parseOffsetDatetime admission.requestedAt "requested_at"
  let observedAt ← host.parseOffsetDatetime version.observedAt "observed_at"
  let expiresAt ← version.expiresAt.mapM (host.parseOffsetDatetime · "expires_at")
  return if (∀ maxAge ∈ sink.maxAgeSeconds, observedAt ≤ requestedAt ∧
      host.totalSeconds (requestedAt - observedAt) ≤ maxAge) ∧
      ∀ instant ∈ expiresAt, requestedAt ≤ instant then .bound else .stale

/-- The checks of `validate_binding` but the freshness, with what each one fails with. -/
def bindingChecks {ν : Type} (admission : Admission) (sink : Sink) (declaration : Declaration)
    (version : Version ν) (supportedSourceKinds : List SourceKind) :
    List (Bool × BindingDisposition) :=
  [(version.sourceKind ∈ supportedSourceKinds, .unsupported),
    (version.valueType = sink.valueType, .wrongType),
    (version.sourceKind ∈ sink.allowedSourceKinds, .unsupported),
    (version.scope.kind ∈ sink.allowedScopeKinds, .wrongScope),
    (version.sensitivity ∈ sink.allowedSensitivities, .unauthorized),
    (sink.audience = .protectedSink ∨ version.sensitivity ≠ .secret, .unauthorized),
    (∀ ref ∈ declaration.authorityRefs ++ sink.authorityRefs, ref ∈ admission.authorityRefs,
      .unauthorized)]

def validateBinding {ν : Type} (host : Host) (admission : Admission) (sink : Sink)
    (declaration : Declaration) (version : Version ν) (supportedSourceKinds : List SourceKind) :
    Except PyError BindingDisposition :=
  match (bindingChecks admission sink declaration version supportedSourceKinds).find?
      fun check => !check.1 with
  | some check => .ok check.2
  | none => validateFreshness host admission sink version

def absenceActionDisposition : AbsenceDisposition → ActionDisposition
  | .block => .blocked
  | .fail => .failed
  | .inapplicable => .inapplicable

def aggregateActionDisposition (failures : List ActionDisposition) : ActionDisposition :=
  (([.failed, .blocked, .inapplicable] : List ActionDisposition).find? (· ∈ failures)).getD .bound

/-! ## The plane -/

/-- The fields of a `RuntimeFactBindingPlane`.  The events stand in the groups in which
they were recorded, each with its action key, and `delivered` is the trace of the commands
that the dispatcher received. -/
structure Plane (ν : Type) where
  declarations : Dict String Declaration
  versions : Dict String (List (Version ν))
  versionIds : List String
  bindingEvents : List (ActionKey × List BindingEvent)
  boundActionInstances : List ActionKey
  admissions : Dict ActionKey Admission
  supportedSourceKinds : List SourceKind
  delivered : List (ActionKey × List (DispatchBinding ν))

section Operations

variable {ν : Type} (host : Host)

/-- `__init__` -/
def Plane.create (admissions : List Admission) (supportedSourceKinds : List SourceKind) :
    Except PyError (Plane ν) := do
  let indexed ← admissions.foldlM (fun indexed admission => do
    refuseIf (indexed.get? admission.actionKey ≠ none)
      (valueError "trusted binding admissions must identify unique action instances")
    return indexed.set admission.actionKey admission) Dict.empty
  return ⟨Dict.empty, Dict.empty, [], [], [], indexed, supportedSourceKinds, []⟩

def declare (declaration : Declaration) : Stateful PyError (Plane ν) Unit := do
  let plane ← get
  refuseIf (∃ current ∈ plane.declarations.get? declaration.factId, current ≠ declaration)
    (conflictError ("fact_id " ++ host.repr declaration.factId ++
      " is already declared differently"))
  modify fun plane => { plane with
    declarations := plane.declarations.set declaration.factId declaration }
  modify fun plane => { plane with
    versions := plane.versions.set declaration.factId
      ((plane.versions.get? declaration.factId).getD []) }

/-- A timestamp of the fact source without an offset is a refusal. -/
def requireOffset (fieldName value : String) : Except PyError Unit :=
  match host.parseOffsetDatetime value fieldName with
  | .ok _ => .ok ()
  | .error _ => .error (invalidInputError
      (fieldName ++ " must be an ISO 8601 date-time with an explicit UTC offset"))

def requireOffsets (version : Version ν) : Except PyError Unit := do
  requireOffset host "observed_at" version.observedAt
  match version.expiresAt with
  | some expiresAt => requireOffset host "expires_at" expiresAt
  | none => return ()

variable (plane : Plane ν)

def Plane.history (factId : String) : List (Version ν) :=
  (plane.versions.get? factId).getD []

/-- The checks of `append` against the declaration and the versions that are there. -/
def checkVersion (version : Version ν) : Except PyError Unit :=
  match plane.declarations.get? version.factId with
  | none => .error (conflictError
      ("fact_id " ++ host.repr version.factId ++ " is not declared"))
  | some declaration => do
    refuseIf (version.versionId ∈ plane.versionIds)
      (conflictError ("version_id " ++ host.repr version.versionId ++ " already exists"))
    refuseIf (version.valueType ≠ declaration.valueType ∨
        version.sourceKind ≠ declaration.sourceKind ∨
        version.sensitivity ≠ declaration.sensitivity)
      (conflictError "fact version type, source, and sensitivity must match its declaration")
    requireOffsets host version
    refuseIf (version.sequence ≠ (plane.history version.factId).length + 1)
      (conflictError ("fact version sequence must be " ++
        toString ((plane.history version.factId).length + 1)))

def append (version : Version ν) : Stateful PyError (Plane ν) Unit := do
  let plane ← get
  checkVersion host plane version
  modify fun plane => { plane with
    versions := plane.versions.set version.factId (plane.history version.factId ++ [version]) }
  modify fun plane => { plane with versionIds := version.versionId :: plane.versionIds }

/-! ### Candidates -/

def datedVersion (version : Version ν) : Except PyError (ℤ × Version ν) := do
  let observedAt ← host.parseOffsetDatetime version.observedAt "observed_at"
  return (observedAt, version)

/-- The turn of `max`: a later version replaces the one kept. -/
def keepLater (kept : Option (ℤ × Version ν)) (d : ℤ × Version ν) : Option (ℤ × Version ν) :=
  match kept with
  | none => some d
  | some k => if k.1 < d.1 ∨ k.1 = d.1 ∧ k.2.sequence < d.2.sequence then some d else some k

/-- The latest of the dated versions that were observed by an instant: the first with the
greatest observation time and sequence. -/
def latestBy (requestedAt : ℤ) (dated : List (ℤ × Version ν)) : Option (ℤ × Version ν) :=
  (dated.filter (·.1 ≤ requestedAt)).foldl keepLater none

variable (request : Request)

/-- The turn of `_visible_candidates` for one fact. -/
def visibleCandidate (sink : Sink) (requestedAt : ℤ)
    (factId : String) : Except PyError (Option (Version ν)) := do
  let dated ← (plane.history factId).mapM (datedVersion host)
  match latestBy requestedAt dated with
  | none => return none
  | some latest =>
    match plane.declarations.get? factId with
    | none => .error (.keyError factId)
    | some declaration =>
      return if candidateVisible request sink declaration latest.2 then some latest.2 else none

variable (admission : Admission)

def visibleCandidates (selection : Selection) : Except PyError (List (Version ν)) := do
  let requestedAt ← host.parseOffsetDatetime admission.requestedAt "requested_at"
  let found ← selection.candidateFactIds.mapM
    (visibleCandidate host plane request selection.sink requestedAt)
  return found.reduceOption

/-! ### Binding -/

def bindingDiagnostic (sinkId reason : String) : Diagnostic where
  code := "runtime.fact-binding." ++ reason
  domain := "runtime"
  address := sinkId
  message := "runtime fact binding failed: " ++ reason
  severity := .error

def bindingEvent (sink : Sink) (index : ℕ)
    (disposition : BindingDisposition) (version : Option (Version ν)) : BindingEvent where
  eventId := "fact-binding." ++ request.actionInstanceId ++ "." ++ toString index
  request := request
  sinkId := sink.sinkId
  targetField := sink.targetField
  factId := version.map Version.factId
  factVersionId := version.map Version.versionId
  disposition := disposition
  sensitivity := version.map Version.sensitivity
  evidenceRefs := (version.map Version.evidenceRefs).getD []
  provenanceRefs := (version.map Version.provenanceRefs).getD []
  authorizationRefs := admission.authorityRefs.insertionSort (· ≤ ·)
  redacted := version.any fun version => version.secretRef.isSome
  reasonCode := if disposition = .bound then none
    else some ("runtime.fact-binding." ++ disposition.value)

/-- `_RuntimeFactBindingCollection` -/
structure Collection (ν : Type) where
  events : List BindingEvent
  diagnostics : List Diagnostic
  actionFailures : List ActionDisposition
  dispatchBindings : List (DispatchBinding ν)
  boundSelections : List (ℕ × Sink × Version ν)

variable (collection : Collection ν)

def Collection.refuse (request : Request) (admission : Admission)
    (sink : Sink) (index : ℕ) (disposition : BindingDisposition) (version : Option (Version ν))
    (failure : ActionDisposition) : Collection ν :=
  { collection with
    events := collection.events ++
      [bindingEvent request admission sink index disposition version]
    diagnostics := collection.diagnostics ++ [bindingDiagnostic sink.sinkId disposition.value]
    actionFailures := collection.actionFailures ++ [failure] }

def Collection.bind (sink : Sink) (index : ℕ) (version : Version ν) : Collection ν :=
  { collection with
    dispatchBindings := collection.dispatchBindings ++ [⟨sink, version.value, version.secretRef⟩]
    boundSelections := collection.boundSelections ++ [(index, sink, version)] }

/-- The version that an event of a refusal may name. -/
def safeVersion (disposition : BindingDisposition) (version : Version ν) : Option (Version ν) :=
  if disposition = .unauthorized ∨ disposition = .wrongScope then none else some version

/-- The turn of `_collect_bindings` for one selection. -/
def collectSelection (indexed : Selection × ℕ) : Except PyError (Collection ν) := do
  let sink := indexed.1.sink
  let candidates ← visibleCandidates host plane request admission indexed.1
  match candidates with
  | [] =>
    return collection.refuse request admission sink indexed.2 .absent none
      (absenceActionDisposition sink.absenceDisposition)
  | [version] =>
    match plane.declarations.get? version.factId with
    | none => .error (.keyError version.factId)
    | some declaration => do
      let disposition ← validateBinding host admission sink declaration version
        plane.supportedSourceKinds
      return if disposition = .bound then collection.bind sink indexed.2 version
        else collection.refuse request admission sink indexed.2 disposition
          (safeVersion disposition version) .failed
  | _ =>
    return collection.refuse request admission sink indexed.2 .ambiguous none .failed

def collectBindings (admission : Admission) : Except PyError (Collection ν) :=
  (admission.selections.zipIdx 1).foldlM (collectSelection host plane request admission)
    ⟨[], [], [], [], []⟩

def appendDispatchEvents (disposition : BindingDisposition) : Collection ν :=
  { collection with
    events := collection.events ++ collection.boundSelections.map fun selection =>
      bindingEvent request admission selection.2.1 selection.1 disposition (some selection.2.2)
    diagnostics := collection.diagnostics ++
      if disposition = .bound then []
      else collection.boundSelections.map fun selection =>
        bindingDiagnostic selection.2.1.sinkId disposition.value }

variable (dispatcher : Option (List (DispatchBinding ν) → DispatcherEnd)) (actionKey : ActionKey)

/-- `_dispatch`: the command goes to the dispatcher, when there is one. -/
def dispatch (bindings : List (DispatchBinding ν)) :
    Stateful PyError (Plane ν) BindingDisposition :=
  match dispatcher with
  | none => return .dispatchFailed
  | some dispatcher => do
    modify fun plane => { plane with delivered := plane.delivered ++ [(actionKey, bindings)] }
    return match dispatcher bindings with
      | .returned true => .bound
      | .failed disposition => disposition
      | .returned false | .raised => .dispatchFailed

def recordResult (collection : Collection ν) : Stateful PyError (Plane ν) BindingResult := do
  modify fun plane => { plane with
    bindingEvents := plane.bindingEvents ++ [(actionKey, collection.events)] }
  modify fun plane => { plane with
    boundActionInstances := actionKey :: plane.boundActionInstances }
  return ⟨collection.diagnostics.isEmpty, aggregateActionDisposition collection.actionFailures,
    collection.events, collection.diagnostics⟩

def finishBinding (request : Request) (admission : Admission)
    (collection : Collection ν) : Stateful PyError (Plane ν) BindingResult :=
  if collection.diagnostics.isEmpty then do
    let disposition ← dispatch dispatcher actionKey collection.dispatchBindings
    let dispatched := appendDispatchEvents request admission collection disposition
    recordResult actionKey (if disposition = .bound then dispatched
      else { dispatched with actionFailures := dispatched.actionFailures ++ [.failed] })
  else recordResult actionKey collection

def bindActionInputs (request : Request) : Stateful PyError (Plane ν) BindingResult := do
  let plane ← get
  refuseIf (request.actionKey ∈ plane.boundActionInstances)
    (conflictError ("action_instance_id " ++ host.repr request.actionInstanceId ++
      " already has immutable fact binding history"))
  match plane.admissions.get? request.actionKey with
  | none =>
    return ⟨false, .failed, [],
      [bindingDiagnostic request.actionContractAddress "unauthorized"]⟩
  | some admission => do
    let collection ← collectBindings host plane request admission
    finishBinding dispatcher request.actionKey request admission collection

end Operations

end Raes.RuntimeFacts
