import Raes.Outcome.Projection

/-!
# The replay of outcome histories

`require_outcome_history` of `contracts/participant_outcome_history.py` and the
producer of `participant_outcome_state.py`.  A history is accepted when every
report in it can be computed again from the cut of the behaviour history that it
names and from the report that it succeeds.  The producer computes a report from
the same parts, so what it returns may be appended; and as a cut never reaches
past its own length, a history stays accepted while the behaviour history grows.
-/

namespace Raes.Outcome

open PyError

/-- Raise a fixed `ValueError` in place of a `ValueError` or a `TypeError`. -/
def rewordError {α : Type} (message : String) : Except PyError α → Except PyError α
  | .ok a => .ok a
  | .error e =>
    if e.kind = .valueError ∨ e.kind = .typeError then .error (valueError message) else .error e

@[simp] theorem rewordError_eq_ok_iff {α : Type} {message : String} {x : Except PyError α}
    {a : α} : rewordError message x = .ok a ↔ x = .ok a := by
  cases x with
  | ok b => rfl
  | error e =>
    by_cases h : e.kind = .valueError ∨ e.kind = .typeError
    · simp [rewordError, h]
    · simp [rewordError, h]

def fieldIs (raw : Json) (field text : String) : Bool :=
  match raw.get? field with
  | some (.str value) => value = text
  | _ => false

variable (contracts : Contracts)

def outcomeHistoryDigest (history : List Json) : Except PyError String :=
  rewordError "outcome observation history contract is invalid" do
    let events ← history.mapM contracts.eventModel
    contracts.canonicalDigest (.arr (events.map contracts.eventDump))

def boundOutcomeObservation (raw : Json) (participant episode : String) :
    Except PyError BehaviorEvent := do
  let event ← rewordError "outcome observation contract is invalid" (contracts.eventModel raw)
  refuseIf (∃ action ∈ event.actionResult,
      (action.participantAddress, action.episodeId, action.actionInstanceId,
        some action.actionContractAddress) ≠
      (participant, episode, event.actionInstanceId, event.actionContractAddress))
    (valueError "outcome observation action binding is invalid")
  return event

/-- The part of the loop that adds the observation of an event; the points seen
are those of the observations found. -/
def addObservation (found : List OutcomeObservation)
    (event : BehaviorEvent) : Except PyError (List OutcomeObservation) :=
  match h : event.actionResult with
  | none => .ok found
  | some action => do
    refuseIf (action.observationPoint ∈ found.map (·.ref.observationPoint))
      (valueError "outcome observation identity is duplicated")
    let contentDigest ← contracts.canonicalDigest (contracts.eventDump event)
    return found ++ [⟨event, action,
      ⟨action.actionInstanceId, action.observationPoint, contentDigest⟩, h⟩]

/-- The body of the loop of `outcome_observations` -/
def observationStep (participantAddress episodeId : String)
    (found : List OutcomeObservation) (raw : Json) : Except PyError (List OutcomeObservation) := do
  refuseIf (raw.isObj = false) (valueError "outcome observation history contract is invalid")
  refuseIf (fieldIs raw "participant_address" participantAddress = false)
    (valueError "outcome observation participant binding is invalid")
  if fieldIs raw "episode_id" episodeId = false ∨
      fieldIs raw "event_type" "observation_emitted" = false then
    return found
  else
    let event ← boundOutcomeObservation contracts raw participantAddress episodeId
    addObservation contracts found event

def outcomeObservations (history : List Json)
    (participantAddress episodeId : String) : Except PyError (List OutcomeObservation) :=
  history.foldlM (observationStep contracts participantAddress episodeId) []

variable (report : OutcomeReport)

def requireOutcomePredecessor (previous : Option OutcomeReport) : Except PyError Unit := do
  refuseIf (report.revision ≠ (previous.map (·.revision)).getD 0 + 1 ∨
      report.predecessorEventRef ≠ previous.map (·.eventId))
    (valueError "outcome history predecessor or revision is stale")
  match previous with
  | none => return ()
  | some previous => do
    refuseIf ((report.interpretationRuleRef, report.ruleDigest) ≠
        (previous.interpretationRuleRef, previous.ruleDigest))
      (valueError "outcome identity cannot change its semantic revision")
    refuseIf (¬ ∀ ref ∈ previous.excludedObservationRefs, ref ∈ report.excludedObservationRefs)
      (valueError "outcome correction cannot silently reinstate excluded evidence")
    refuseIf (report.behaviorHistoryLength < previous.behaviorHistoryLength)
      (valueError "outcome observation cut cannot move backwards")

/-- The first check of `_require_report_replay`; a short cut is refused without
its digest. -/
def requireCut (events : List Json) : Except PyError Unit := do
  refuseIf (events.length ≠ report.behaviorHistoryLength)
    (valueError "outcome history observation cut is invalid")
  let digest ← outcomeHistoryDigest contracts events
  refuseIf (digest ≠ report.behaviorHistoryDigest)
    (valueError "outcome history observation cut is invalid")

def requireReportReplay (history : List Json) : Except PyError Unit := do
  let events := history.take report.behaviorHistoryLength
  requireCut contracts report events
  let ruleDigest ← contracts.canonicalDigest (contracts.ruleDump report.ruleSpec)
  refuseIf (ruleDigest ≠ report.ruleDigest) (valueError "outcome history rule digest is invalid")
  let observations ← outcomeObservations contracts events report.participantAddress
    report.episodeId
  refuseIf (observations.map (·.ref) ≠ report.observationRefs)
    (valueError "outcome history observation references are invalid")
  let projected ← outcomeProjection report.ruleSpec observations report.excludedObservationRefs
  refuseIf (projected ≠ (report.attainment, report.knowledge, report.evidenceRefs))
    (valueError "outcome history state disagrees with evidence")

/-- The body of the inner loop of `require_outcome_history`: the identities seen
so far and the last report of each outcome. -/
def requireStoredReport (participant : String) (history : List Json)
    (state : List String × Dict (String × String) OutcomeReport) (raw : OutcomeReport) :
    Except PyError (List String × Dict (String × String) OutcomeReport) := do
  let report ← rewordError "outcome history report contract is invalid"
    (reportModel contracts raw)
  refuseIf (report.participantAddress ≠ participant ∨ report.eventId ∈ state.1)
    (valueError "outcome history identity binding is invalid")
  requireOutcomePredecessor report (state.2.get? report.key)
  requireReportReplay contracts report history
  return (report.eventId :: state.1, state.2.set report.key report)

/-- The body of the outer loop of `require_outcome_history` -/
def requireParticipantReports (behaviorHistory : Dict String (List Json))
    (seen : List String) (entry : String × List OutcomeReport) : Except PyError (List String) := do
  let state ← entry.2.foldlM (requireStoredReport contracts entry.1
    ((behaviorHistory.get? entry.1).getD [])) (seen, Dict.empty)
  return state.1

def requireOutcomeHistory (history : Dict String (List OutcomeReport))
    (behaviorHistory : Dict String (List Json)) : Except PyError Unit := do
  let _ ← history.entries.foldlM (requireParticipantReports contracts behaviorHistory) []
  return ()

/-- The parts of a `RuntimeSnapshot` that the producer reads. -/
structure Snapshot where
  episodeResults : Dict String Json
  behaviorHistory : Dict String (List Json)
  outcomeHistory : Dict String (List OutcomeReport)

/-- A `ParticipantOutcomeUpdateRequest`; the snapshot revision is checked by its
caller. -/
structure OutcomeUpdateRequest where
  (participantAddress episodeId outcomeId eventId : String)
  expectedRevision : ℕ
  excludedObservationRefs : List String
  correctionBasis : Option String

variable (snapshot : Snapshot)

def requireLiveEpisode (request : OutcomeUpdateRequest) : Except PyError Unit := do
  let state := (snapshot.episodeResults.get? request.participantAddress).getD (.obj [])
  refuseIf (fieldIs state "participant_address" request.participantAddress = false)
    (conflictError "outcome live participant binding is invalid")
  refuseIf (fieldIs state "episode_id" request.episodeId = false ∨
      fieldIs state "status" "running" = false)
    (conflictError "outcome update requires the exact live episode")

def lastReport (reports : List OutcomeReport) (key : String × String) : Option OutcomeReport :=
  (reports.filter (·.key = key)).getLast?

def outcomeHead (participant episode outcome : String) : Except PyError (Option OutcomeReport) :=
  match lastReport ((snapshot.outcomeHistory.get? participant).getD []) (episode, outcome) with
  | none => .ok none
  | some raw => (reportModel contracts raw).map some

/-- `validate_outcome_rule`, with the local definition that it requires. -/
def validateOutcomeRule (spec : Json) :
    Except PyError (OutcomeInterpretationRule × LocalOutcomeDefinition) := do
  let rule ← contracts.ruleModel spec
  match rule.localOutcome with
  | none => .error (valueError "outcome rule has no local definition")
  | some outcome => return (rule, outcome)

def produceParticipantOutcome (rule : OutcomeRuleRuntime) (request : OutcomeUpdateRequest)
    (timestamp actorRef authorizationScope : String) : Except PyError OutcomeReport := do
  requireLiveEpisode snapshot request
  let (spec, outcome) ← validateOutcomeRule contracts rule.spec
  let previous ← outcomeHead contracts snapshot request.participantAddress request.episodeId
    request.outcomeId
  refuseIf (request.expectedRevision ≠ (previous.map (·.revision)).getD 0)
    (conflictError "outcome predecessor revision is stale")
  let history := (snapshot.behaviorHistory.get? request.participantAddress).getD []
  let observations ← outcomeObservations contracts history request.participantAddress
    request.episodeId
  let (attainment, knowledge, evidence) ←
    outcomeProjection spec observations request.excludedObservationRefs
  let ruleDigest ← contracts.canonicalDigest (contracts.ruleDump spec)
  let historyDigest ← outcomeHistoryDigest contracts history
  let report ← reportModel contracts
    { eventId := request.eventId
      schemaName := "raes.participant_runtime.outcome_report"
      schemaVersion := "2.0.0"
      eventType := "participant_outcome_report"
      extensionPolicy := "closed"
      occurredAt := timestamp
      recordedAt := timestamp
      ingestedAt := timestamp
      clockAuthority := "control-plane"
      orderingBasis := "control_plane_order"
      actorRef := actorRef
      producerRef := "runtime:participant-outcome"
      authorizationScope := authorizationScope
      participantAddress := request.participantAddress
      episodeId := request.episodeId
      outcomeId := request.outcomeId
      interpretationRuleRef := rule.address
      ruleDigest := ruleDigest
      ruleSpec := spec
      revision := request.expectedRevision + 1
      predecessorEventRef := previous.map (·.eventId)
      behaviorHistoryLength := history.length
      behaviorHistoryDigest := historyDigest
      observationRefs := observations.map (·.ref)
      excludedObservationRefs := request.excludedObservationRefs
      correctionBasis := request.correctionBasis
      category := outcome.category
      attainment := attainment
      knowledge := knowledge
      freshness := "current_at_recorded_cut"
      evidenceRefs := evidence
      provenanceRefs := rule.address :: request.correctionBasis.toList }
  requireOutcomePredecessor report previous
  return report

end Raes.Outcome
