import Raes.Lib.ThreeWay
import Raes.Realization.ValueEquality

/-!
# Revision-safe merge of concurrent results

Every field of a runtime snapshot has one owner.  A participant result may
change the mapping fields and the value fields, which are merged into the
snapshot that is committed in the meantime; the protected fields belong to the
scheduler, and a result has to carry them unchanged.

The checks of `RuntimeSnapshot` on construction read the protected fields, one
slot of a mapping field at a time, and one value field at a time; they are the
parameter `SnapshotRules`.
-/

namespace Raes.Scheduler

open Json (Value)

/-- `_BACKEND_MAPPING_FIELDS`. -/
inductive MappingField where
  | entries
  | orchestrationResults
  | orchestrationHistory
  | evaluationResults
  | evaluationHistory
  | propositionTruthResults
  | participantEpisodeResults
  | participantEpisodeHistory
  | participantEpisodeClosureRecords
  | participantBehaviorHistory
  | participantControlHistory
  | participantCrossingHistory
  | informationStateHistory
  | participantResourceBudgetStates
  | participantResourcePoolStates
  | participantResourceBudgetEvents
  | sharedStateRecords
  | sharedStateHistory
  | jointActionRecords
  | timeManagementContexts
  | metadata
  deriving DecidableEq, Repr

/-- `_BACKEND_VALUE_FIELDS`. -/
inductive ValueField where
  | realizationProvenance
  | realizationObservations
  | realizationEnvelope
  deriving DecidableEq, Repr

/-- `_PROTECTED_SCHEDULER_SNAPSHOT_FIELDS`. -/
inductive ProtectedField where
  | timeModelState
  | participantOutcomeHistory
  | materializationAttestations
  | mixedCompositionStates
  | mixedCompositionHistory
  | participantControlEvaluationHistory
  | participantAutonomousExecutionStates
  | participantExecutionServices
  deriving DecidableEq, Repr

def MappingField.name : MappingField → String
  | .entries => "entries"
  | .orchestrationResults => "orchestration_results"
  | .orchestrationHistory => "orchestration_history"
  | .evaluationResults => "evaluation_results"
  | .evaluationHistory => "evaluation_history"
  | .propositionTruthResults => "proposition_truth_results"
  | .participantEpisodeResults => "participant_episode_results"
  | .participantEpisodeHistory => "participant_episode_history"
  | .participantEpisodeClosureRecords => "participant_episode_closure_records"
  | .participantBehaviorHistory => "participant_behavior_history"
  | .participantControlHistory => "participant_control_history"
  | .participantCrossingHistory => "participant_crossing_history"
  | .informationStateHistory => "information_state_history"
  | .participantResourceBudgetStates => "participant_resource_budget_states"
  | .participantResourcePoolStates => "participant_resource_pool_states"
  | .participantResourceBudgetEvents => "participant_resource_budget_events"
  | .sharedStateRecords => "shared_state_records"
  | .sharedStateHistory => "shared_state_history"
  | .jointActionRecords => "joint_action_records"
  | .timeManagementContexts => "time_management_contexts"
  | .metadata => "metadata"

def ValueField.name : ValueField → String
  | .realizationProvenance => "realization_provenance"
  | .realizationObservations => "realization_observations"
  | .realizationEnvelope => "realization_envelope"

def ProtectedField.name : ProtectedField → String
  | .timeModelState => "time_model_state"
  | .participantOutcomeHistory => "participant_outcome_history"
  | .materializationAttestations => "materialization_attestations"
  | .mixedCompositionStates => "mixed_composition_states"
  | .mixedCompositionHistory => "mixed_composition_history"
  | .participantControlEvaluationHistory => "participant_control_evaluation_history"
  | .participantAutonomousExecutionStates => "participant_autonomous_execution_states"
  | .participantExecutionServices => "participant_execution_services"

/-- The mapping fields in the order in which they are merged. -/
def mappingFields : List MappingField :=
  [.entries, .orchestrationResults, .orchestrationHistory, .evaluationResults,
    .evaluationHistory, .propositionTruthResults, .participantEpisodeResults,
    .participantEpisodeHistory, .participantEpisodeClosureRecords,
    .participantBehaviorHistory, .participantControlHistory, .participantCrossingHistory,
    .informationStateHistory, .participantResourceBudgetStates,
    .participantResourcePoolStates, .participantResourceBudgetEvents, .sharedStateRecords,
    .sharedStateHistory, .jointActionRecords, .timeManagementContexts, .metadata]

def valueFields : List ValueField :=
  [.realizationProvenance, .realizationObservations, .realizationEnvelope]

def protectedFields : List ProtectedField :=
  [.materializationAttestations, .mixedCompositionHistory, .mixedCompositionStates,
    .participantAutonomousExecutionStates, .participantControlEvaluationHistory,
    .participantExecutionServices, .participantOutcomeHistory, .timeModelState]

theorem mem_mappingFields (field : MappingField) : field ∈ mappingFields := by
  cases field <;> decide

theorem mem_valueFields (field : ValueField) : field ∈ valueFields := by
  cases field <;> decide

structure RuntimeSnapshot where
  mapping : MappingField → Dict String Value
  value : ValueField → Value
  guarded : ProtectedField → Value

/-- What the construction of a `RuntimeSnapshot` checks.  The outcome reports
name keys of the behavior history that are read whether or not they are
present. -/
structure SnapshotRules where
  protectedState : (ProtectedField → Value) → Except PyError Unit
  reportedKeys : (ProtectedField → Value) → MappingField → List String
  slot : (ProtectedField → Value) → MappingField → String → Option Value → Except PyError Unit
  value : ValueField → Value → Except PyError Unit

variable (rules : SnapshotRules)

/-- `RuntimeSnapshot.with_entries`: the checks of the snapshot that it builds. -/
def RuntimeSnapshot.withEntries (s : RuntimeSnapshot) : Except PyError Unit := do
  rules.protectedState s.guarded
  forM mappingFields fun field =>
    forM (rules.reportedKeys s.guarded field ++ (s.mapping field).keys) fun key =>
      rules.slot s.guarded field key ((s.mapping field).get? key)
  forM valueFields fun field => rules.value field (s.value field)

def emptyTable : Value := ⟨.obj [], rfl⟩

def withConcurrentSchedulerUpdates (s : RuntimeSnapshot) (states services : Option Value) :
    RuntimeSnapshot :=
  { s with
    guarded := fun field =>
      match field with
      | .participantAutonomousExecutionStates => states.getD (s.guarded field)
      | .participantExecutionServices => services.getD (s.guarded field)
      | _ => s.guarded field }

def validateBackendState (s : RuntimeSnapshot) : Except PyError Unit :=
  (withConcurrentSchedulerUpdates s (some emptyTable) (some emptyTable)).withEntries rules

def commitConflict (fieldName : String) : PyError :=
  .conflictError s!"concurrent participant commit conflict in {fieldName}"

/-- `incoming_mapping != base_mapping`, the other way round. -/
def sameMapping (incoming base : Dict String Value) : Bool :=
  Json.pyEq (.obj (incoming.entries.map fun e => (e.1, e.2.json)))
    (.obj (base.entries.map fun e => (e.1, e.2.json)))

def mergeMappingRevisionChecked (base current incoming : Dict String Value)
    (fieldName : String) : Except PyError (Dict String Value) :=
  ThreeWay.merge Value.eq (commitConflict fieldName) base current incoming

def mergeValueRevisionChecked (base current incoming : Value) (fieldName : String) :
    Except PyError Value :=
  if incoming.eq base then .ok current
  else if current.eq base then .ok incoming
  else .error (commitConflict fieldName)

def requireProtectedFieldsUnchanged (base incoming : RuntimeSnapshot) : Except PyError Unit :=
  forM protectedFields fun field =>
    refuseIf ((incoming.guarded field).eq (base.guarded field) = false)
      (.invalidInputError s!"concurrent participant result changed protected field {field.name}")

def stageMapping (base current incoming : RuntimeSnapshot) (field : MappingField) :
    Except PyError (Dict String Value) :=
  if sameMapping (incoming.mapping field) (base.mapping field) then .ok (current.mapping field)
  else mergeMappingRevisionChecked (base.mapping field) (current.mapping field)
    (incoming.mapping field) field.name

def stageValue (base current incoming : RuntimeSnapshot) (field : ValueField) :
    Except PyError Value :=
  if (incoming.value field).eq (base.value field) then .ok (current.value field)
  else mergeValueRevisionChecked (base.value field) (current.value field)
    (incoming.value field) field.name

/-- `_stage_concurrent_action_snapshot`: the staged snapshot is a copy of the
current one in which every backend-owned field is set in turn. -/
def stageConcurrentActionSnapshot
    (base current incoming : RuntimeSnapshot) : Except PyError RuntimeSnapshot := do
  requireProtectedFieldsUnchanged base incoming
  let mapping ← mappingFields.foldlM
    (fun mapping field => do
      return Function.update mapping field (← stageMapping base current incoming field))
    current.mapping
  let value ← valueFields.foldlM
    (fun value field => do
      return Function.update value field (← stageValue base current incoming field))
    current.value
  let staged := { current with mapping := mapping, value := value }
  validateBackendState rules staged
  return staged

end Raes.Scheduler
