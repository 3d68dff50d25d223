import Raes.Mixed.Handoff
import Raes.Mixed.History

/-!
# Phase progression

`raes_runtime/mixed_runtime_phase.py` and `mixed_runtime_state.py`.  A call claims
its operation record first, then asks the evaluator of the transition and the
handoff services, and commits the next snapshot with its terminal record at the
end.  Nothing catches what is raised between the claim and the commit.
-/

namespace Raes.Mixed

open Store (OperationState)

/-! ## The plane -/

/-- What a phase reads and writes of an operation record.  The idempotency key
stands for the claim identity, and `reconciles` names the operation of which the
record is a valid reconciliation child. -/
structure LedgerRecord where
  (operationId idempotencyKey requestFingerprint runScope : String)
  state : OperationState
  diagnostics : List Diagnostic
  (decisionHistoryHeads resultHistoryHeads : List (String × String))
  reserved : Bool
  reconciles : Option String
  deriving DecidableEq

/-- The committed snapshot and the operation ledger by operation. -/
structure Plane where
  snapshot : RuntimeSnapshot
  records : Dict String LedgerRecord

/-- The configured composition of one admitted trial entry. -/
structure Binding where
  run : RunIdentity
  profile : Profile
  handoffs : Dict String HandoffBinding
  portables : Dict String PortableSubject

/-- The value that an evaluator returns.  An evaluation whose fields break their
annotations raises where the runtime compares them. -/
inductive EvaluatorValue where
  | evaluation (permitted : Bool) (attempts : ℤ) (orderRef : String) (evidenceRefs : List String)
    (provenanceRefs : List String)
  | illTyped (error : PyError)
  | other

/-- One call of `advance_mixed_composition`: its request, what the admission of
effects says of it, and what the foreign code answers. -/
structure Call where
  (transitionId operationId idempotencyKey requestFingerprint : String)
  (effectBlocked portableAdmitted : Bool)
  evaluator : Answer EvaluatorValue
  handoff : HandoffServices
  portable : (subject : PortableSubject) → (state : RuntimeState) → PortableServices subject state

/-! ## Evaluation -/

/-- `MixedPhaseTransitionEvaluation`. -/
structure PhaseEvaluation where
  permitted : Bool
  attempts : ℤ
  orderRef : String
  (evidenceRefs provenanceRefs : List String)
  deriving DecidableEq

def failedEvaluation (orderRef : String) (attempts : ℤ) : PhaseEvaluation :=
  ⟨false, attempts, orderRef, [], []⟩

/-- An evaluation that stays within the transition and cites what it requires. -/
def PhaseEvaluation.Valid (evaluation : PhaseEvaluation) (transition : Transition) : Prop :=
  (1 ≤ evaluation.attempts ∧ evaluation.attempts ≤ transition.progressBound) ∧
    evaluation.orderRef ≠ "" ∧ ∀ ref ∈ transition.requiredRefs, ref ∈ evaluation.evidenceRefs

instance (evaluation : PhaseEvaluation) (transition : Transition) :
    Decidable (evaluation.Valid transition) := inferInstanceAs (Decidable (_ ∧ _ ∧ _))

/-- The evaluation that the runtime goes on with. -/
def admittedEvaluation (transition : Transition) (evaluation : PhaseEvaluation) : PhaseEvaluation :=
  if evaluation.Valid transition then evaluation
  else failedEvaluation "order:evaluator-invalid"
    (min (max evaluation.attempts 1) transition.progressBound)

def evaluate (transition : Transition) (evaluator : Answer EvaluatorValue) :
    Answer PhaseEvaluation :=
  match evaluator with
  | .interrupted => .interrupted
  | .raised _ =>
    .returned (admittedEvaluation transition (failedEvaluation "order:evaluator-failed" 1))
  | .returned .other => .returned (failedEvaluation "order:evaluator-invalid" 1)
  | .returned (.illTyped error) => .raised error
  | .returned (.evaluation permitted attempts orderRef evidenceRefs provenanceRefs) =>
    .returned (admittedEvaluation transition
      ⟨permitted, attempts, orderRef, evidenceRefs, provenanceRefs⟩)

/-! ## Outcome -/

/-- `set(state.active_component_ids) != set(target.active_component_ids)`. -/
def NeedsHandoff (state : RuntimeState) (target : Phase) : Prop :=
  ¬ ((∀ id ∈ state.membership.activeComponentIds, id ∈ target.activeComponentIds) ∧
    ∀ id ∈ target.activeComponentIds, id ∈ state.membership.activeComponentIds)

instance (state : RuntimeState) (target : Phase) : Decidable (NeedsHandoff state target) :=
  inferInstanceAs (Decidable (¬ _))

/-- `_execute_phase_handoff`, with `_perform_handoff`. -/
def executePhaseHandoff (binding : Binding) (committedTime : Option Time.TimeRuntimeState)
    (call : Call) (transition : Transition) (target : Phase) (state : RuntimeState)
    (evaluation : PhaseEvaluation) : Answer (Option HandoffResolution) :=
  match binding.portables.get? transition.transitionId with
  | some subject => do
    let resolution ← resolvePortableHandoff (call.portable subject state) evaluation.permitted
    return some resolution
  | none =>
    if evaluation.permitted = true ∧ NeedsHandoff state target then do
      let resolution ← resolveRequiredHandoff transition state call.operationId committedTime
        call.handoff (binding.handoffs.get? transition.transitionId)
      return some resolution
    else return none

section Events

variable (transition : Transition) (target : Phase) (state : RuntimeState)
variable (evaluation : PhaseEvaluation) (operationId : String)

/-- The event of a phase transition, before its model checks it. -/
def phaseEvent : RuntimeEvent where
  eventId := "composition:" ++ operationId ++ ":phase"
  eventKind := .phaseTransition
  run := state.run
  membership := target.membership (state.membership.phaseRevision + 1)
  disposition := .committed
  predecessorEventId := some state.historyHead
  allocationId := none
  componentId := none
  edgeId := none
  controlEventRef := some transition.triggerRef
  crossingEventRef := none
  policyDecisionRef := none
  mappingRef := none
  orderRef := evaluation.orderRef
  mappingLossRefs := []
  evidenceRefs := evaluation.evidenceRefs
  provenanceRefs := evaluation.provenanceRefs

/-- The copy of the phase event that records the handoff.  `model_copy` checks
nothing. -/
def handoffEvent (handoff : HandoffResolution) : RuntimeEvent :=
  { phaseEvent transition target state evaluation operationId with
    eventId := "composition:" ++ operationId ++ ":handoff"
    eventKind := .handoff
    predecessorEventId := some ("composition:" ++ operationId ++ ":phase")
    componentId := handoff.destinationComponentId
    orderRef := handoff.orderRef
    evidenceRefs := handoff.evidenceRefs }

/-- The order and the evidence of a denied phase: a permitted evaluation adds
those of its handoff. -/
def deniedRefs (handoff : Option HandoffResolution) : String × List String :=
  match evaluation.permitted, handoff with
  | true, some handoff =>
    (handoff.orderRef, mergedRefs evaluation.evidenceRefs handoff.evidenceRefs)
  | _, _ => (evaluation.orderRef, evaluation.evidenceRefs)

def deniedState (handoff : Option HandoffResolution) : OperationState :=
  (handoff.map HandoffResolution.state).getD .failed

/-- The failure event of a denied phase, before its model checks it. -/
def failureEvent (handoff : Option HandoffResolution) : RuntimeEvent where
  eventId := "composition:" ++ operationId ++ ":failure"
  eventKind := .failure
  run := state.run
  membership := state.membership
  disposition := if deniedState handoff = .indeterminate then .indeterminate else .denied
  predecessorEventId := some state.historyHead
  allocationId := none
  componentId := none
  edgeId := none
  controlEventRef := some transition.triggerRef
  crossingEventRef := none
  policyDecisionRef := none
  mappingRef := none
  orderRef := (deniedRefs evaluation handoff).1
  mappingLossRefs := []
  evidenceRefs := (deniedRefs evaluation handoff).2
  provenanceRefs := evaluation.provenanceRefs

end Events

def transitionDenied (state : RuntimeState) : Diagnostic where
  code := "runtime.mixed-composition-transition-denied"
  domain := "runtime"
  address := "mixed-composition." ++ state.run.runId
  message :=
    "The admitted phase transition or required executable handoff did not permit progression."
  severity := .error

def Denied (state : RuntimeState) (target : Phase) (evaluation : PhaseEvaluation)
    (handoff : Option HandoffResolution) : Prop :=
  evaluation.permitted = false ∨
    (NeedsHandoff state target ∧ ∃ resolution ∈ handoff, resolution.state ≠ .succeeded)

instance (state : RuntimeState) (target : Phase) (evaluation : PhaseEvaluation)
    (handoff : Option HandoffResolution) : Decidable (Denied state target evaluation handoff) :=
  inferInstanceAs (Decidable (_ ∨ _))

structure PhaseOutcome where
  events : List RuntimeEvent
  state : OperationState
  diagnostics : List Diagnostic

/-- `_phase_outcome` and `_denied_phase_outcome`.  The assertion never fails: a
permitted phase that needs a handoff has a resolution. -/
def phaseOutcome (transition : Transition) (target : Phase) (state : RuntimeState)
    (evaluation : PhaseEvaluation) (operationId : String) (handoff : Option HandoffResolution) :
    Except PyError PhaseOutcome :=
  if Denied state target evaluation handoff then do
    let failure := failureEvent transition state evaluation operationId handoff
    failure.check
    return ⟨[failure], deniedState handoff, [transitionDenied state]⟩
  else do
    let phase := phaseEvent transition target state evaluation operationId
    phase.check
    if NeedsHandoff state target then
      match handoff with
      | none => .error (.runtimeError "assert handoff is not None")
      | some resolution =>
        return ⟨[phase, handoffEvent transition target state evaluation operationId resolution],
          .succeeded, []⟩
    else return ⟨[phase], .succeeded, []⟩

def foldedState (final : RuntimeEvent) : RuntimeState :=
  ⟨final.run, final.membership, final.eventId⟩

def appendRuntimeEvents (snapshot : RuntimeSnapshot) (state : RuntimeState)
    (events : List RuntimeEvent) (final : RuntimeEvent) : Except PyError RuntimeSnapshot :=
  match snapshot.histories.get? state.run.runId with
  | none => .error (.keyError state.run.runId)
  | some history => do
    let next : RuntimeState := { foldedState final with run := state.run }
    next.check
    RuntimeSnapshot.make (snapshot.states.set state.run.runId next)
      (snapshot.histories.set state.run.runId (history ++ events)) snapshot.timeModelState

/-! ## The call -/

variable (binding : Binding)

def runtimeState (snapshot : RuntimeSnapshot) : Except PyError RuntimeState :=
  match snapshot.states.get? binding.run.runId with
  | none => .error (.conflictError "mixed composition must be activated before dispatch")
  | some state => do
    state.check
    refuseIf ((state.run.planId, state.run.planEntryId, state.run.profileId,
          state.run.profileDigest) ≠
        (binding.run.planId, binding.run.planEntryId, binding.run.profileId,
          binding.run.profileDigest))
      (.conflictError "mixed composition runtime state differs from the admitted binding")
    refuseIf (¬ ∃ phase ∈ binding.profile.phases.get? state.membership.phaseId,
        state.membership.activeComponentIds = phase.activeComponentIds ∧
          state.membership.activeAllocationIds = phase.activeAllocationIds ∧
          state.membership.activeEdgeIds = phase.activeEdgeIds)
      (.conflictError "mixed composition runtime membership differs from the admitted phase")
    return state

def outstandingStates : List OperationState := [.accepted, .running, .indeterminate]

def historyKey (runId : String) : String := "mixed_composition_history:" ++ runId

/-- `_mixed_runtime_is_quiescent`. -/
def Quiescent (records : List LedgerRecord) (runId : String) : Prop :=
  ∀ record ∈ records, (∃ child ∈ records, child.reconciles = some record.operationId) ∨
    ¬ (record.runScope = "run:" ++ runId ∧ (record.reserved = true ∨
      (record.state ∈ outstandingStates ∧
        (historyKey runId ∈ record.decisionHistoryHeads.map Prod.fst ∨
          historyKey runId ∈ record.resultHistoryHeads.map Prod.fst))))

instance (records : List LedgerRecord) (runId : String) : Decidable (Quiescent records runId) :=
  inferInstanceAs (Decidable (∀ record ∈ records, _))

/-- The running record of a phase, from `_phase_operation`. -/
def runningRecord (call : Call) (state : RuntimeState) (reserved : Bool) : LedgerRecord where
  operationId := call.operationId
  idempotencyKey := call.idempotencyKey
  requestFingerprint := call.requestFingerprint
  runScope := "run:" ++ state.run.runId
  state := .running
  diagnostics := []
  decisionHistoryHeads := [(historyKey state.run.runId, state.historyHead)]
  resultHistoryHeads := [(historyKey state.run.runId, state.historyHead)]
  reserved := reserved
  reconciles := none

def findByIdempotency (records : List LedgerRecord) (key : String) : Option LedgerRecord :=
  if key = "" then none else records.find? fun record => record.idempotencyKey = key

inductive Unclaimed where
  | refused (error : PyError)
  | rejected
  | replayed (operationId : String)

/-- `NewClaimRejected` of a claim that the current state blocks. -/
def newClaimBlocked : PyError :=
  ⟨.newClaimRejected, ""⟩

structure Claimed (binding : Binding) (snapshot : RuntimeSnapshot) where
  transition : Transition
  target : Phase
  state : RuntimeState
  portable : Bool
  transition_admitted : binding.profile.transitions.get? transition.transitionId = some transition
  target_admitted : binding.profile.phases.get? transition.targetPhaseId = some target
  state_committed : runtimeState binding snapshot = .ok state
  source_matches : state.membership.phaseId = transition.sourcePhaseId

/-- The head of a call, up to `_claim_record`. -/
def claimPhase (plane : Plane) (call : Call) : Except Unclaimed (Claimed binding plane.snapshot) :=
  match htransition : binding.profile.transitions.get? call.transitionId with
  | none => .error (.refused (.conflictError "mixed phase transition is not admitted"))
  | some transition =>
    match hstate : runtimeState binding plane.snapshot with
    | .error error => .error (.refused error)
    | .ok state =>
      match findByIdempotency plane.records.values call.idempotencyKey with
      | some incumbent =>
        if incumbent.requestFingerprint = call.requestFingerprint then
          .error (.replayed incumbent.operationId)
        else .error (.refused idempotencyClaimConflict)
      | none =>
        if (binding.portables.get? call.transitionId).isSome ∧ call.portableAdmitted = false then
          .error .rejected
        else if hsource : state.membership.phaseId = transition.sourcePhaseId then
          if ¬ Quiescent plane.records.values state.run.runId ∨ call.effectBlocked = true then
            .error (.refused newClaimBlocked)
          else
            match htarget : binding.profile.phases.get? transition.targetPhaseId with
            | none => .error (.refused (.keyError transition.targetPhaseId))
            | some target =>
              .ok {
                transition := transition
                target := target
                state := state
                portable := (binding.portables.get? call.transitionId).isSome
                transition_admitted := by
                  rw [(binding.profile.transitions_admitted _ _ htransition).1]
                  exact htransition
                target_admitted := htarget
                state_committed := hstate
                source_matches := hsource }
        else .error (.refused newClaimBlocked)

/-- `retain_mixed_invocation`: whether the terminal record still reserves its
invocation.  A native handoff reserves nothing. -/
def retainedReservation (call : Call) (transition : Transition)
    (state : RuntimeState) : Answer Bool :=
  match binding.portables.get? transition.transitionId with
  | none => .returned false
  | some subject => (call.portable subject state).retention

/-- The work of a call between its claim and its commit. -/
def runPhase (snapshot : RuntimeSnapshot) (call : Call)
    (claimed : Claimed binding snapshot) : Answer (RuntimeSnapshot × LedgerRecord) := do
  let evaluation ← evaluate claimed.transition call.evaluator
  let handoff ← executePhaseHandoff binding snapshot.timeModelState call claimed.transition
    claimed.target claimed.state evaluation
  let outcome ← Answer.ofExcept (phaseOutcome claimed.transition claimed.target claimed.state
    evaluation call.operationId handoff)
  match outcome.events.getLast? with
  | none => .raised (.indexError "list index out of range")
  | some final => do
    let next ← Answer.ofExcept (appendRuntimeEvents snapshot claimed.state outcome.events final)
    let reserved ← retainedReservation binding call claimed.transition claimed.state
    return (next, { runningRecord call claimed.state reserved with
      state := outcome.state
      diagnostics := outcome.diagnostics
      resultHistoryHeads := [(historyKey claimed.state.run.runId, final.eventId)] })

def claimedRecords {binding : Binding} (plane : Plane) (call : Call)
    (claimed : Claimed binding plane.snapshot) : Dict String LedgerRecord :=
  plane.records.set call.operationId (runningRecord call claimed.state claimed.portable)

inductive Ending where
  | unclaimed (ending : Unclaimed)
  /-- The commit kept the snapshot with the terminal record. -/
  | settled (plane : Plane)
  /-- An exception left the call after its claim. -/
  | escaped (plane : Plane)

def finishPhase (plane : Plane) (call : Call) (claimed : Claimed binding plane.snapshot) : Ending :=
  match runPhase binding plane.snapshot call claimed with
  | .returned (snapshot, terminal) =>
    .settled ⟨snapshot, (claimedRecords plane call claimed).set call.operationId terminal⟩
  | .raised _ => .escaped ⟨plane.snapshot, claimedRecords plane call claimed⟩
  | .interrupted => .escaped ⟨plane.snapshot, claimedRecords plane call claimed⟩

/-- `advance_mixed_composition`. -/
def advance (plane : Plane) (call : Call) : Ending :=
  match claimPhase binding plane call with
  | .error ending => .unclaimed ending
  | .ok claimed => finishPhase binding plane call claimed

end Raes.Mixed
