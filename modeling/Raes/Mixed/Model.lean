import Raes.Lib.ExceptList
import Raes.Time.Coordinator

/-!
# Composition facts and snapshots

`raes_contracts/contracts/mixed_runtime.py`, `mixed_runtime_history.py`, and the
part of `RuntimeSnapshot` in `raes_contracts/runtime_state.py` that holds
compositions.  A stored payload is the event or the state that it dumps, before
the checks of its model, so a payload that the model refuses is a value here too.
-/

namespace Raes.Mixed

/-- Kinds of composition facts. -/
inductive EventKind where
  | phaseActivated
  | phaseTransition
  | decision
  | attempt
  | result
  | lifecycleDecision
  | lifecycleAttempt
  | lifecycleResult
  | delivery
  | observation
  | handoff
  | weakening
  | failure
  deriving DecidableEq, Repr

inductive Disposition where
  | committed
  | permitted
  | denied
  | succeeded
  | failed
  | indeterminate
  deriving DecidableEq, Repr

/-- The run, plan and profile that an event or a state is about. -/
structure RunIdentity where
  (runId planId planEntryId profileId profileDigest : String)
  deriving DecidableEq, Repr

/-- `_composition_membership`: the phase and what is active in it. -/
structure Membership where
  phaseRevision : ℕ
  phaseId : String
  (activeComponentIds activeAllocationIds activeEdgeIds : List String)
  deriving DecidableEq, Repr

/-- `MixedCompositionRuntimeEventModel`. -/
structure RuntimeEvent where
  eventId : String
  eventKind : EventKind
  run : RunIdentity
  membership : Membership
  disposition : Disposition
  (predecessorEventId allocationId componentId edgeId controlEventRef : Option String)
  (crossingEventRef policyDecisionRef mappingRef : Option String)
  orderRef : String
  (mappingLossRefs evidenceRefs provenanceRefs : List String)
  deriving DecidableEq, Repr

/-- `MixedCompositionRuntimeStateModel`. -/
structure RuntimeState where
  run : RunIdentity
  membership : Membership
  historyHead : String
  deriving DecidableEq, Repr

/-- `NonEmptyString`. -/
def checkText (field value : String) : Except PyError Unit :=
  refuseIf (value = "") (.valueError s!"{field}: String should have at least 1 character")

def checkOptionalText (field : String) : Option String → Except PyError Unit
  | none => .ok ()
  | some value => checkText field value

def prefixedDigestLengths : List (String × ℕ) :=
  [("sha256:", 64), ("sha384:", 96), ("sha512:", 128), ("blake3:", 64)]

def isHexDigit (c : Char) : Bool :=
  ('A' ≤ c && c ≤ 'F') || ('a' ≤ c && c ≤ 'f') || ('0' ≤ c && c ≤ '9')

/-- `PrefixedDigestString`. -/
def isPrefixedDigest (value : String) : Bool :=
  prefixedDigestLengths.any fun form =>
    form.1.toList.isPrefixOf value.toList &&
      ((value.toList.drop form.1.length).length == form.2 &&
        (value.toList.drop form.1.length).all isHexDigit)

/-- A list of references that holds at most `maximum` nonempty members. -/
def checkRefs (field : String) (maximum : ℕ) (refs : List String) : Except PyError Unit := do
  refuseIf (maximum < refs.length) (.valueError s!"{field}: List has too many items")
  forM refs (checkText field)

/-- A list of references that may not be empty. -/
def checkSomeRefs (field : String) (maximum : ℕ) (refs : List String) : Except PyError Unit := do
  refuseIf (refs = []) (.valueError s!"{field}: List should have at least 1 item after validation")
  checkRefs field maximum refs

def RunIdentity.check (run : RunIdentity) : Except PyError Unit := do
  checkText "run_id" run.runId
  checkText "plan_id" run.planId
  checkText "plan_entry_id" run.planEntryId
  checkText "profile_id" run.profileId
  refuseIf (isPrefixedDigest run.profileDigest = false)
    (.valueError "profile_digest: String should match pattern")

def maxActiveComponents : ℕ := 64

def maxActiveAllocations : ℕ := 1024

def maxActiveEdges : ℕ := 1024

def maxEventRefs : ℕ := 64

def Membership.check (membership : Membership) : Except PyError Unit := do
  checkText "phase_id" membership.phaseId
  checkSomeRefs "active_component_ids" maxActiveComponents membership.activeComponentIds
  checkSomeRefs "active_allocation_ids" maxActiveAllocations membership.activeAllocationIds
  checkRefs "active_edge_ids" maxActiveEdges membership.activeEdgeIds

def RuntimeState.check (state : RuntimeState) : Except PyError Unit := do
  state.run.check
  state.membership.check
  checkText "history_head" state.historyHead

def requireUniqueMembership (membership : Membership) : Except PyError Unit := do
  refuseIf (¬ membership.activeComponentIds.Nodup)
    (.valueError "active_component_ids must be unique")
  refuseIf (¬ membership.activeAllocationIds.Nodup)
    (.valueError "active_allocation_ids must be unique")
  refuseIf (¬ membership.activeEdgeIds.Nodup) (.valueError "active_edge_ids must be unique")

def requireEventPosition (event : RuntimeEvent) : Except PyError Unit := do
  refuseIf (event.eventKind = .phaseActivated ∧
      (event.membership.phaseRevision ≠ 0 ∨ event.predecessorEventId.isSome))
    (.valueError "initial phase fact must have revision zero and no predecessor")
  refuseIf (event.eventKind ≠ .phaseActivated ∧ event.predecessorEventId = none)
    (.valueError "subsequent composition facts require a predecessor")

def actionFactKinds : List EventKind :=
  [.decision, .attempt, .result, .delivery, .observation, .weakening]

def lifecycleFactKinds : List EventKind :=
  [.lifecycleDecision, .lifecycleAttempt, .lifecycleResult]

def RuntimeEvent.actionCoordinates (event : RuntimeEvent) : List (Option String) :=
  [event.allocationId, event.componentId, event.controlEventRef, event.crossingEventRef,
    event.policyDecisionRef]

def RuntimeEvent.lifecycleCoordinates (event : RuntimeEvent) : List (Option String) :=
  [event.allocationId, event.componentId, event.controlEventRef]

def RuntimeEvent.NamesAction (event : RuntimeEvent) : Prop :=
  event.crossingEventRef.isSome ∨ event.policyDecisionRef.isSome

instance (event : RuntimeEvent) : Decidable event.NamesAction := inferInstanceAs (Decidable (_ ∨ _))

def requireLifecycleCoordinates (event : RuntimeEvent) : Except PyError Unit := do
  refuseIf (none ∈ event.lifecycleCoordinates)
    (.valueError
      "lifecycle coordination facts require exact allocation, component, and control identity")
  refuseIf event.NamesAction
    (.valueError "lifecycle coordination facts cannot claim a participant crossing decision")

def requireFailureCoordinates (event : RuntimeEvent) : Except PyError Unit := do
  refuseIf (event.NamesAction ∧ none ∈ event.actionCoordinates)
    (.valueError "action failure identity must be complete when present")
  refuseIf (¬ event.NamesAction ∧ (event.allocationId.isSome ∨ event.componentId.isSome) ∧
      none ∈ event.lifecycleCoordinates)
    (.valueError "lifecycle failure identity must be complete when present")

def requireCoordinationIdentity (event : RuntimeEvent) : Except PyError Unit := do
  refuseIf (event.eventKind ∈ actionFactKinds ∧ none ∈ event.actionCoordinates)
    (.valueError
      "action coordination facts require exact allocation, component, control, and policy identity")
  if event.eventKind ∈ lifecycleFactKinds then requireLifecycleCoordinates event
  else if event.eventKind = .failure then requireFailureCoordinates event
  else .ok ()

def requireMappingIdentity (event : RuntimeEvent) : Except PyError Unit := do
  refuseIf (event.edgeId = none ∧ (event.mappingRef.isSome ∨ event.mappingLossRefs ≠ []))
    (.valueError "mapping facts require an exact composition edge")
  refuseIf (event.edgeId.isSome ∧ event.mappingRef = none)
    (.valueError "composition edge facts require an exact time mapping")
  refuseIf (event.eventKind = .weakening ∧ event.mappingLossRefs = [])
    (.valueError "weakening facts require an admitted mapping loss")

def RuntimeEvent.checkFields (event : RuntimeEvent) : Except PyError Unit := do
  checkText "event_id" event.eventId
  event.run.check
  event.membership.check
  checkOptionalText "predecessor_event_id" event.predecessorEventId
  checkOptionalText "allocation_id" event.allocationId
  checkOptionalText "component_id" event.componentId
  checkOptionalText "edge_id" event.edgeId
  checkOptionalText "control_event_ref" event.controlEventRef
  checkOptionalText "crossing_event_ref" event.crossingEventRef
  checkOptionalText "policy_decision_ref" event.policyDecisionRef
  checkOptionalText "mapping_ref" event.mappingRef
  checkText "order_ref" event.orderRef
  checkRefs "mapping_loss_refs" maxEventRefs event.mappingLossRefs
  checkRefs "evidence_refs" maxEventRefs event.evidenceRefs
  checkRefs "provenance_refs" maxEventRefs event.provenanceRefs

/-- The construction of an event: its fields, and then its model validator. -/
def RuntimeEvent.check (event : RuntimeEvent) : Except PyError Unit := do
  event.checkFields
  requireUniqueMembership event.membership
  requireEventPosition event
  requireCoordinationIdentity event
  requireMappingIdentity event

/-- `_iter_event_transition_violations`. -/
def eventTransitionViolations (runId : String) (previous current : RuntimeEvent) :
    List (String × String) :=
  (if current.predecessorEventId ≠ some previous.eventId then
      [(runId, "Composition event predecessor does not match the history head.")] else []) ++
    (if (current.run.planId, current.run.planEntryId, current.run.profileId,
          current.run.profileDigest) ≠
        (previous.run.planId, previous.run.planEntryId, previous.run.profileId,
          previous.run.profileDigest) then
      [(runId, "Composition plan and profile identity cannot change within a run.")] else []) ++
    (if current.eventKind = .phaseTransition then
      (if current.membership.phaseRevision ≠ previous.membership.phaseRevision + 1 then
        [(runId, "Composition phase revision must advance exactly once.")] else [])
    else if current.membership ≠ previous.membership then
      [(runId, "Only a phase transition may change active composition membership.")]
    else [])

/-- `zip(chain, chain[1:])`. -/
def adjacentViolations (runId : String) : List RuntimeEvent → List (String × String)
  | previous :: current :: rest =>
    eventTransitionViolations runId previous current ++ adjacentViolations runId (current :: rest)
  | _ => []

/-- `_iter_chain_violations`, for a chain with a first event. -/
def chainViolations (runId : String) (state : RuntimeState) (first : RuntimeEvent)
    (rest : List RuntimeEvent) : List (String × String) :=
  (if state.run.runId ≠ runId ∨ ∃ event ∈ first :: rest, event.run.runId ≠ runId then
      [(runId, "Composition map key must match the embedded run identity.")] else []) ++
    (if first.eventKind ≠ .phaseActivated then
      [(runId, "Composition history must start with phase activation.")] else []) ++
    (if ¬ ((first :: rest).map RuntimeEvent.eventId).Nodup then
      [(runId, "Composition event identities must be unique.")] else []) ++
    adjacentViolations runId (first :: rest)

def StateMatchesHistory (state : RuntimeState) (last : RuntimeEvent) : Prop :=
  (state.run = last.run ∧ state.membership = last.membership) ∧ state.historyHead = last.eventId

instance (state : RuntimeState) (last : RuntimeEvent) : Decidable (StateMatchesHistory state last) :=
  inferInstanceAs (Decidable (_ ∧ _))

variable (states : Dict String RuntimeState)

/-- `_runtime_models`: the payloads that their models accept. -/
def runtimeModels (runId : String) (events : List RuntimeEvent) : Except PyError RuntimeState :=
  match states.get? runId with
  | none => .error (.keyError runId)
  | some state => do
    state.check
    forM events RuntimeEvent.check
    return state

def maxCompositionHistory : ℕ := 4096

def historyViolations (runId : String) : List RuntimeEvent → List (String × String)
  | [] => [(runId, "Composition history must be nonempty and bounded.")]
  | first :: rest =>
    if maxCompositionHistory < (first :: rest).length then
      [(runId, "Composition history must be nonempty and bounded.")]
    else
      match runtimeModels states runId (first :: rest) with
      | .error _ => [(runId, "Composition state or history is invalid.")]
      | .ok state =>
        chainViolations runId state first rest ++
          (if StateMatchesHistory state ((first :: rest).getLast (List.cons_ne_nil _ _)) then []
          else [(runId, "Composition state must fold from the final history event.")])

/-- `iter_mixed_runtime_snapshot_violations`. -/
def snapshotViolations (histories : Dict String (List RuntimeEvent)) : List (String × String) :=
  (if (∀ runId ∈ states.keys, runId ∈ histories.keys) ∧
      ∀ runId ∈ histories.keys, runId ∈ states.keys then []
    else [("runtime.composition", "Composition state and history identities must match.")]) ++
    histories.entries.flatMap fun entry => historyViolations states entry.1 entry.2

/-- The compositions of a `RuntimeSnapshot` and the time readback that it
commits.  Only the constructor of the source builds one, so a snapshot carries
the acceptance of its histories. -/
structure RuntimeSnapshot where
  states : Dict String RuntimeState
  histories : Dict String (List RuntimeEvent)
  timeModelState : Option Time.TimeRuntimeState
  accepted : snapshotViolations states histories = []

/-- `RuntimeSnapshot.__post_init__`: the first violation is raised. -/
def RuntimeSnapshot.make (histories : Dict String (List RuntimeEvent))
    (timeModelState : Option Time.TimeRuntimeState) : Except PyError RuntimeSnapshot :=
  match h : snapshotViolations states histories with
  | [] => .ok ⟨states, histories, timeModelState, h⟩
  | violation :: _ => .error (.valueError violation.2)

theorem RuntimeSnapshot.make_eq_ok_iff {states : Dict String RuntimeState}
    {histories : Dict String (List RuntimeEvent)} {timeModelState : Option Time.TimeRuntimeState}
    {snapshot : RuntimeSnapshot} :
    RuntimeSnapshot.make states histories timeModelState = .ok snapshot ↔
      snapshot.states = states ∧ snapshot.histories = histories ∧
        snapshot.timeModelState = timeModelState := by
  unfold RuntimeSnapshot.make
  constructor
  · intro h
    split at h
    · cases h
      exact ⟨rfl, rfl, rfl⟩
    · cases h
  · obtain ⟨states', histories', time', haccepted⟩ := snapshot
    rintro ⟨rfl, rfl, rfl⟩
    split
    · rfl
    · rename_i hcons
      rw [haccepted] at hcons
      cases hcons

end Raes.Mixed
