import Raes.Mixed.Model
import Raes.Store.Record

/-!
# Handoffs of a phase transition

`raes_runtime/mixed_runtime_handoff.py`, `mixed_runtime_handoff_execution.py`, and
what a phase reads of a portable invocation in `mixed_backend_invocation.py` and
`mixed_backend_transcript.py`.

A service is foreign code.  It returns a value, raises an exception, or is
interrupted by an exception that is no `Exception`, which no handler of the source
catches.  A value that is not of the type that the source asks for is the error
that the source raises on it.
-/

namespace Raes.Mixed

open Store (OperationState)
open Time (CompiledAddress TimeCoordinate TimeRuntimeState ClockAuthorityKind)

/-! ## Answers of foreign code -/

inductive Answer (α : Type) where
  | returned (value : α)
  | raised (error : PyError)
  | interrupted
  deriving DecidableEq, Repr

namespace Answer

variable {α β : Type}

/-- Go on with a returned value. -/
def bind (answer : Answer α) (next : α → Answer β) : Answer β :=
  match answer with
  | .returned value => next value
  | .raised error => .raised error
  | .interrupted => .interrupted

instance : Monad Answer where
  pure := .returned
  bind := bind

/-- A computation of the source as an answer. -/
def ofExcept : Except PyError α → Answer α
  | .ok value => .returned value
  | .error error => .raised error

/-- `model_validate` of a returned value. -/
def validated (answer : Answer α) (check : α → Except PyError Unit) : Answer α := do
  let value ← answer
  ofExcept (check value)
  return value

theorem bind_eq_returned_iff {answer : Answer α} {next : α → Answer β} {b : β} :
    answer >>= next = .returned b ↔ ∃ a, answer = .returned a ∧ next a = .returned b := by
  cases answer with
  | returned a => simp [Bind.bind, bind]
  | raised error => simp [Bind.bind, bind]
  | interrupted => simp [Bind.bind, bind]

theorem ofExcept_eq_returned_iff {x : Except PyError α} {a : α} :
    ofExcept x = .returned a ↔ x = .ok a := by
  cases x with
  | ok value => simp [ofExcept]
  | error error => simp [ofExcept]

theorem validated_eq_returned_iff {answer : Answer α} {check : α → Except PyError Unit} {a : α} :
    answer.validated check = .returned a ↔ answer = .returned a ∧ check a = .ok () := by
  unfold validated
  simp only [bind_eq_returned_iff, ofExcept_eq_returned_iff]
  constructor
  · rintro ⟨value, hvalue, _, hcheck, hsame⟩
    cases hsame
    exact ⟨hvalue, hcheck⟩
  · rintro ⟨hvalue, hcheck⟩
    exact ⟨a, hvalue, (), hcheck, rfl⟩

end Answer

/-! ## Profiles -/

structure Phase where
  phaseId : String
  (activeComponentIds activeAllocationIds activeEdgeIds : List String)
  deriving DecidableEq

def Phase.membership (phase : Phase) (phaseRevision : ℕ) : Membership :=
  ⟨phaseRevision, phase.phaseId, phase.activeComponentIds, phase.activeAllocationIds,
    phase.activeEdgeIds⟩

/-- What `MixedCompositionPhaseModel` accepts: references that are not empty and
not repeated, in lists of any length. -/
structure Phase.Admitted (phase : Phase) : Prop where
  phaseId : phase.phaseId ≠ ""
  components : phase.activeComponentIds ≠ [] ∧ "" ∉ phase.activeComponentIds ∧
    phase.activeComponentIds.Nodup
  allocations : phase.activeAllocationIds ≠ [] ∧ "" ∉ phase.activeAllocationIds ∧
    phase.activeAllocationIds.Nodup
  edges : "" ∉ phase.activeEdgeIds ∧ phase.activeEdgeIds.Nodup

/-- One bounded pre-admitted phase transition.  `requiredRefs` are the evidence
references of its evidence bindings. -/
structure Transition where
  (transitionId sourcePhaseId targetPhaseId triggerRef : String)
  progressBound : ℕ
  requiredRefs : List String
  deriving DecidableEq

structure Profile where
  phases : Dict String Phase
  transitions : Dict String Transition
  phases_admitted : ∀ id phase, phases.get? id = some phase → phase.phaseId = id ∧ phase.Admitted
  transitions_admitted : ∀ id transition, transitions.get? id = some transition →
    transition.transitionId = id ∧ transition.triggerRef ≠ "" ∧ 1 ≤ transition.progressBound ∧
      transition.sourcePhaseId ≠ transition.targetPhaseId ∧
      transition.targetPhaseId ∈ phases.keys

/-! ## Time of a handoff -/

structure DeclaredClock where
  timeDomainAddress : CompiledAddress
  authorityKind : ClockAuthorityKind
  authorityRef : Time.NonEmptyString
  /-- The policy that names the clock. -/
  progressionPolicyAddress : Option CompiledAddress

structure TimeMapping where
  (numerator denominator : ℕ)
  offsetTicks : ℤ

structure TimeDeclaration where
  canonicalDigest : String
  clocks : Dict CompiledAddress DeclaredClock
  mappings : Dict String TimeMapping

/-- Python `==` of two time states: a dictionary compares without its order. -/
def SameTime (a b : TimeRuntimeState) : Prop :=
  a.declarationDigest = b.declarationDigest ∧
    (∀ address ∈ a.clocks.keys, a.clocks.get? address = b.clocks.get? address) ∧
    ∀ address ∈ b.clocks.keys, address ∈ a.clocks.keys

instance : DecidableEq Time.NonEmptyString :=
  inferInstanceAs (DecidableEq { s : String // s ≠ "" })

instance (a b : TimeRuntimeState) : Decidable (SameTime a b) := inferInstanceAs (Decidable (_ ∧ _))

def validateTimeRuntimeState (declaration : TimeDeclaration) (state : TimeRuntimeState) :
    Except PyError Unit := do
  refuseIf (state.declarationDigest ≠ declaration.canonicalDigest)
    (.valueError "runtime time state declaration_digest does not match the admitted model")
  refuseIf (¬ ((∀ a ∈ state.clocks.keys, a ∈ declaration.clocks.keys) ∧
      ∀ a ∈ declaration.clocks.keys, a ∈ state.clocks.keys))
    (.valueError "runtime time state must cover exactly the admitted clock set")
  forM state.clocks.entries fun entry =>
    match declaration.clocks.get? entry.1 with
    | none => .error (.keyError entry.1.val)
    | some declared => do
      refuseIf (entry.2.timeDomainAddress ≠ declared.timeDomainAddress)
        (.valueError s!"runtime clock '{entry.1.val}' changed its declared time domain")
      refuseIf (entry.2.authorityKind ≠ declared.authorityKind)
        (.valueError s!"runtime clock '{entry.1.val}' changed its declared authority kind")
      refuseIf (entry.2.authorityRef ≠ declared.authorityRef)
        (.valueError s!"runtime clock '{entry.1.val}' changed its declared authority reference")
      refuseIf (entry.2.progressionPolicyAddress ≠ declared.progressionPolicyAddress)
        (.valueError s!"runtime clock '{entry.1.val}' changed its declared progression policy")

/-- `state.clocks[address].coordinate`. -/
def clockCoordinate (state : TimeRuntimeState) (address : CompiledAddress) :
    Except PyError TimeCoordinate :=
  match state.clocks.get? address with
  | none => .error (.keyError address.val)
  | some clock => .ok clock.coordinate

/-! ## Evidence of a handoff -/

inductive TimeComparison where
  | ordered
  | incomparable
  deriving DecidableEq, Repr

/-- `MixedTimeCoordinationEvidence`: the grant of the time coordinator. -/
structure TimeGrant where
  (operationId mappingRef orderingBasis orderRef : String)
  comparison : TimeComparison
  (sourceCoordinate destinationCoordinate : TimeCoordinate)
  (mappingEvidenceRefs timingEvidenceRefs : List String)

def TimeGrant.check (grant : TimeGrant) : Except PyError Unit := do
  checkText "operation_id" grant.operationId
  checkText "mapping_ref" grant.mappingRef
  checkText "ordering_basis" grant.orderingBasis
  checkText "order_ref" grant.orderRef
  checkSomeRefs "mapping_evidence_refs" 64 grant.mappingEvidenceRefs
  checkSomeRefs "timing_evidence_refs" 64 grant.timingEvidenceRefs

inductive HandoffStatus where
  | committed
  | failed
  | pending
  | stale
  | unknown
  deriving DecidableEq, Repr

/-- `MixedHandoffEvidence`. -/
structure HandoffEvidence where
  (operationId transitionId sourceComponentId destinationComponentId : String)
  predecessorHistoryHead : String
  phaseRevision : ℕ
  status : HandoffStatus
  orderRef : String
  evidenceRefs : List String
  deriving DecidableEq

def HandoffEvidence.check (evidence : HandoffEvidence) : Except PyError Unit := do
  checkText "operation_id" evidence.operationId
  checkText "transition_id" evidence.transitionId
  checkText "source_component_id" evidence.sourceComponentId
  checkText "destination_component_id" evidence.destinationComponentId
  checkText "predecessor_history_head" evidence.predecessorHistoryHead
  checkText "order_ref" evidence.orderRef
  checkRefs "evidence_refs" 64 evidence.evidenceRefs

/-- `MixedHandoffReadback`. -/
structure HandoffReadback where
  (operationId ownerComponentId ownerRef : String)
  phaseRevision : ℕ
  evidenceRefs : List String
  deriving DecidableEq

def HandoffReadback.check (readback : HandoffReadback) : Except PyError Unit := do
  checkText "operation_id" readback.operationId
  checkText "owner_component_id" readback.ownerComponentId
  checkText "owner_ref" readback.ownerRef
  checkSomeRefs "evidence_refs" 64 readback.evidenceRefs

/-- `MixedHandoffBinding`: the installed transfer service of one transition.
`declaration` is the time model that the binding resolves. -/
structure HandoffBinding where
  (sourceComponentId destinationComponentId sourceOwnerRef destinationOwnerRef : String)
  declaration : TimeDeclaration
  (sourceClockAddress destinationClockAddress : CompiledAddress)
  (mappingRef orderingBasis : String)
  destination_nonempty : destinationComponentId ≠ ""
  distinct_owners : sourceComponentId ≠ destinationComponentId

structure HandoffServices where
  timeState : Answer TimeRuntimeState
  coordinate : Answer TimeGrant
  invoke : Answer HandoffEvidence
  readback : Answer HandoffReadback
  finalTimeState : Answer TimeRuntimeState

/-! ## Resolution -/

structure HandoffResolution where
  state : OperationState
  orderRef : String
  evidenceRefs : List String
  destinationComponentId : Option String
  deriving DecidableEq

structure HandoffProgress where
  confirmedRefs : List String
  correlated : Bool
  evidence : Option HandoffEvidence
  readback : Option HandoffReadback

def unsupportedHandoffTime : PyError := .conflictError "handoff time coordination is unsupported"

section Native

variable (installed : HandoffBinding) (transition : Transition) (state : RuntimeState)
variable (operationId : String) (committedTime : Option TimeRuntimeState)
variable (services : HandoffServices) (grant : TimeGrant)

def requireHandoffTimeGrant (timeState : TimeRuntimeState) : Except PyError Unit := do
  let source ← clockCoordinate timeState installed.sourceClockAddress
  let destination ← clockCoordinate timeState installed.destinationClockAddress
  match installed.declaration.mappings.get? installed.mappingRef with
  | none => .error (.keyError installed.mappingRef)
  | some mapping => do
    let mappedTick : ℚ :=
      ((source.tick * mapping.numerator : ℤ) : ℚ) / (mapping.denominator : ℚ) +
        (mapping.offsetTicks : ℚ)
    refuseIf ((grant.operationId, grant.mappingRef, grant.orderingBasis, grant.comparison,
          grant.sourceCoordinate, grant.destinationCoordinate, source.segment) ≠
        (operationId, installed.mappingRef, installed.orderingBasis, TimeComparison.ordered,
          source, destination, destination.segment))
      unsupportedHandoffTime
    refuseIf ((destination.tick : ℚ) < mappedTick ∨
        (mappedTick = (destination.tick : ℚ) ∧ destination.microstep < source.microstep))
      unsupportedHandoffTime
    refuseIf (¬ ∀ ref ∈ transition.requiredRefs,
        ref ∈ grant.mappingEvidenceRefs ∨ ref ∈ grant.timingEvidenceRefs)
      unsupportedHandoffTime

def requireCommittedTime (message : String) (timeState : TimeRuntimeState) : Except PyError Unit :=
  refuseIf (¬ ∃ committed ∈ committedTime, SameTime timeState committed)
    (.evidenceIntegrityError message)

def requestHandoffGrant : Answer (TimeRuntimeState × TimeGrant) := do
  let timeState ← services.timeState
  Answer.ofExcept (validateTimeRuntimeState installed.declaration timeState)
  Answer.ofExcept (requireCommittedTime committedTime
    "handoff time readback differs from the committed snapshot" timeState)
  let grant ← services.coordinate.validated TimeGrant.check
  Answer.ofExcept (requireHandoffTimeGrant installed transition operationId grant timeState)
  return (timeState, grant)

def handoffEvidenceCorrelated (evidence : HandoffEvidence) : Bool :=
  (evidence.operationId, evidence.transitionId, evidence.sourceComponentId,
      evidence.destinationComponentId, evidence.predecessorHistoryHead, evidence.phaseRevision,
      evidence.orderRef) =
    (operationId, transition.transitionId, installed.sourceComponentId,
      installed.destinationComponentId, state.historyHead, state.membership.phaseRevision,
      grant.orderRef) &&
    transition.requiredRefs.all fun ref => evidence.evidenceRefs.contains ref

/-- `tuple(dict.fromkeys([*confirmed, *refs]))`. -/
def mergedRefs (confirmed refs : List String) : List String := (confirmed ++ refs).eraseDups

variable (progress : HandoffProgress)

def recordEvidence (evidence : HandoffEvidence) : HandoffProgress :=
  let correlated := handoffEvidenceCorrelated installed transition state operationId grant evidence
  { progress with
    correlated
    evidence := some evidence
    confirmedRefs := if correlated = true then mergedRefs progress.confirmedRefs evidence.evidenceRefs
      else progress.confirmedRefs }

def recordReadback (readback : HandoffReadback) : HandoffProgress :=
  { progress with
    readback := some readback
    confirmedRefs := if progress.correlated = true ∧ readback.operationId = operationId then
        mergedRefs progress.confirmedRefs readback.evidenceRefs
      else progress.confirmedRefs }

/-- `(segment, tick, microstep) < (segment, tick, microstep)`. -/
def Regressed (current previous : TimeCoordinate) : Prop :=
  current.segment < previous.segment ∨
    (current.segment = previous.segment ∧ current.Before previous)

instance (current previous : TimeCoordinate) : Decidable (Regressed current previous) :=
  inferInstanceAs (Decidable (_ ∨ _))

def validateHandoffTimeReadback (timeState : TimeRuntimeState) : Answer Unit := do
  let finalTime ← services.finalTimeState
  Answer.ofExcept (validateTimeRuntimeState installed.declaration finalTime)
  Answer.ofExcept (requireCommittedTime committedTime
    "handoff post-transfer time readback differs from the committed snapshot" finalTime)
  Answer.ofExcept <| forM [installed.sourceClockAddress, installed.destinationClockAddress]
    fun address => do
      let previous ← clockCoordinate timeState address
      let current ← clockCoordinate finalTime address
      refuseIf (Regressed current previous)
        (.evidenceIntegrityError "handoff time readback regressed")

/-- `_invoke_handoff_stage`: how the stage ended, with the progress that it
leaves behind in any case. -/
def invokeHandoffStage (timeState : TimeRuntimeState) (grant : TimeGrant)
    (progress : HandoffProgress) : Answer Unit × HandoffProgress :=
  match services.invoke.validated HandoffEvidence.check with
  | .raised error => (.raised error, progress)
  | .interrupted => (.interrupted, progress)
  | .returned evidence =>
    let evidenced := recordEvidence installed transition state operationId grant progress evidence
    match services.readback.validated HandoffReadback.check with
    | .raised error => (.raised error, evidenced)
    | .interrupted => (.interrupted, evidenced)
    | .returned readback =>
      (validateHandoffTimeReadback installed committedTime services timeState,
        recordReadback operationId evidenced readback)

/-- The destination holds the responsibility of the next revision. -/
def Transferred (readback : HandoffReadback) : Prop :=
  (readback.ownerComponentId, readback.ownerRef, readback.phaseRevision) =
    (installed.destinationComponentId, installed.destinationOwnerRef,
      state.membership.phaseRevision + 1)

/-- The source still holds the responsibility of the current revision. -/
def Retained (readback : HandoffReadback) : Prop :=
  (readback.ownerComponentId, readback.ownerRef, readback.phaseRevision) =
    (installed.sourceComponentId, installed.sourceOwnerRef, state.membership.phaseRevision)

instance (readback : HandoffReadback) : Decidable (Transferred installed state readback) :=
  inferInstanceAs (Decidable (_ = _))

instance (readback : HandoffReadback) : Decidable (Retained installed state readback) :=
  inferInstanceAs (Decidable (_ = _))

def correlatedOutcome (evidence : HandoffEvidence)
    (readback : HandoffReadback) : HandoffResolution :=
  match evidence.status with
  | .committed =>
    ⟨if Transferred installed state readback then .succeeded else .indeterminate,
      evidence.orderRef, progress.confirmedRefs,
      if Transferred installed state readback then some installed.destinationComponentId else none⟩
  | .failed | .stale =>
    ⟨if Retained installed state readback then .failed else .indeterminate, evidence.orderRef,
      progress.confirmedRefs, none⟩
  | .pending | .unknown =>
    ⟨.indeterminate, evidence.orderRef, progress.confirmedRefs, none⟩

def handoffStageOutcome (progress : HandoffProgress) : HandoffResolution :=
  match progress.evidence, progress.readback with
  | some evidence, some readback =>
    if progress.correlated = true ∧ readback.operationId = operationId then
      correlatedOutcome installed state progress evidence readback
    else ⟨.indeterminate, grant.orderRef, progress.confirmedRefs, none⟩
  | _, _ => ⟨.indeterminate, grant.orderRef, progress.confirmedRefs, none⟩

def grantedProgress (grant : TimeGrant) : HandoffProgress :=
  ⟨mergedRefs grant.mappingEvidenceRefs grant.timingEvidenceRefs, false, none, none⟩

/-- `_resolve_required_handoff`, when the transition has an installed service. -/
def resolveInstalledHandoff : Answer HandoffResolution :=
  match requestHandoffGrant installed transition operationId committedTime services with
  | .raised _ => .returned ⟨.failed, "order:handoff-time-refused", [], none⟩
  | .interrupted => .interrupted
  | .returned (timeState, grant) =>
    match invokeHandoffStage installed transition state operationId committedTime services timeState
        grant (grantedProgress grant) with
    | (.raised _, progress) =>
      .returned ⟨.indeterminate, grant.orderRef, progress.confirmedRefs, none⟩
    | (.interrupted, _) => .interrupted
    | (.returned _, progress) =>
      .returned (handoffStageOutcome installed state operationId grant progress)

def resolveRequiredHandoff (installed : Option HandoffBinding) : Answer HandoffResolution :=
  match installed with
  | none => .returned ⟨.failed, "order:handoff-unbound", [], none⟩
  | some installed =>
    resolveInstalledHandoff installed transition state operationId committedTime services

end Native

/-! ## Portable handoffs

A portable invocation retains the stage reports that its transcript validator
accepts.  The transcript of an invocation is a structure that carries what the
validator requires of the reports of a handoff. -/

structure PortableSubject where
  (sourceComponentId destinationComponentId sourceOwnerRef destinationOwnerRef : String)
  requiredRefs : List String
  destination_nonempty : destinationComponentId ≠ ""

structure TimeGrantStage where
  orderRef : String
  comparison : TimeComparison

structure HandoffStage where
  status : HandoffStatus
  predecessorHistoryHead : String
  phaseRevision : ℕ
  orderRef : String
  evidenceRefs : List String

structure OwnerReadbackStage where
  (ownerComponentId ownerRef : String)
  phaseRevision : ℕ
  evidenceRefs : List String

structure StageReports (subject : PortableSubject) (state : RuntimeState) where
  grant : Option TimeGrantStage
  handoff : Option HandoffStage
  readback : Option OwnerReadbackStage
  /-- `_require_prerequisite` and `_require_handoff`. -/
  handoff_follows : ∀ stage ∈ handoff, ∃ granted ∈ grant, granted.comparison = .ordered ∧
    stage.orderRef = granted.orderRef ∧ stage.predecessorHistoryHead = state.historyHead ∧
    stage.phaseRevision = state.membership.phaseRevision ∧
    ∀ ref ∈ subject.requiredRefs, ref ∈ stage.evidenceRefs
  readback_follows : readback.isSome → handoff.isSome
  /-- Every reference is an `OperationIdentifier`. -/
  identified : (∀ granted ∈ grant, granted.orderRef ≠ "") ∧
    (∀ stage ∈ handoff, "" ∉ stage.evidenceRefs) ∧ ∀ owner ∈ readback, "" ∉ owner.evidenceRefs

/-- How `run_mixed_invocation` ended. -/
inductive PortableEnding where
  /-- `_admit_running` refused. -/
  | notAdmitted (uncertain : Bool)
  /-- The granted times are incomparable. -/
  | incomparable
  /-- The provider acknowledged without accepting. -/
  | notAccepted
  /-- A collected fact raised. -/
  | faulted (dispatched uncertain : Bool)
  /-- `_settle_stages`, with the proposal of the provider's outcome. -/
  | collected (timeConfirmed effectsVerified uncertain : Bool) (proposed : Option OperationState)

structure PortableInvocation (subject : PortableSubject) (state : RuntimeState) where
  reports : StageReports subject state
  ending : PortableEnding

/-- What a portable provider answers in one call. -/
structure PortableServices (subject : PortableSubject) (state : RuntimeState) where
  /-- The evaluator exhausted the budget of the invocation. -/
  uncertain : Bool
  run : Answer (PortableInvocation subject state)
  /-- `retain_mixed_invocation`: the invocation is still reserved. -/
  retention : Answer Bool

section Portable

variable {subject : PortableSubject} {composition : RuntimeState}

def StageReports.handoffState (reports : StageReports subject composition) (timeConfirmed : Bool) :
    OperationState :=
  match reports.handoff with
  | none =>
    if ∃ granted ∈ reports.grant, granted.comparison = .incomparable then .failed
    else .indeterminate
  | some stage =>
    match reports.readback with
    | none => .indeterminate
    | some owner =>
      if timeConfirmed = false then .indeterminate
      else if stage.status = .committed ∧
          (owner.ownerComponentId, owner.ownerRef, owner.phaseRevision) =
            (subject.destinationComponentId, subject.destinationOwnerRef,
              stage.phaseRevision + 1) then
        .succeeded
      else if stage.status ∈ [HandoffStatus.failed, .stale] ∧
          (owner.ownerComponentId, owner.ownerRef, owner.phaseRevision) =
            (subject.sourceComponentId, subject.sourceOwnerRef, stage.phaseRevision) then
        .failed
      else .indeterminate

def PortableInvocation.state (invocation : PortableInvocation subject composition) : OperationState :=
  match invocation.ending with
  | .notAdmitted uncertain => if uncertain = true then .indeterminate else .cancelled
  | .incomparable => .failed
  | .notAccepted => .indeterminate
  | .faulted dispatched uncertain =>
    if dispatched = true ∨ uncertain = true then .indeterminate else .failed
  | .collected timeConfirmed effectsVerified uncertain proposed =>
    if effectsVerified = false ∨ uncertain = true ∨
        proposed ≠ some (invocation.reports.handoffState timeConfirmed) then
      .indeterminate
    else invocation.reports.handoffState timeConfirmed

def StageReports.refs (reports : StageReports subject composition) : List String :=
  mergedRefs ((reports.handoff.map HandoffStage.evidenceRefs).getD [])
    ((reports.readback.map OwnerReadbackStage.evidenceRefs).getD [])

def portableHandoffResolution (reports : StageReports subject composition) (outcome : OperationState) :
    HandoffResolution :=
  ⟨outcome, (reports.grant.map TimeGrantStage.orderRef).getD "order:handoff-refused", reports.refs,
    if outcome = .succeeded then some subject.destinationComponentId else none⟩

/-- A prepared invocation retains no report. -/
def StageReports.none : StageReports subject state where
  grant := .none
  handoff := .none
  readback := .none
  handoff_follows := fun _ h => nomatch h
  readback_follows := fun h => h
  identified := ⟨fun _ h => (nomatch h), fun _ h => (nomatch h), fun _ h => (nomatch h)⟩

/-- The portable branch of `_execute_phase_handoff`. -/
def resolvePortableHandoff (services : PortableServices subject composition) (permitted : Bool) :
    Answer HandoffResolution :=
  if permitted = true then do
    let invocation ← services.run
    return portableHandoffResolution invocation.reports invocation.state
  else
    return portableHandoffResolution (StageReports.none : StageReports subject composition)
      (if services.uncertain = true then .indeterminate else .failed)

end Portable

end Raes.Mixed
