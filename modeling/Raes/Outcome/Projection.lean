import Mathlib.Data.Finset.Card
import Mathlib.Data.String.Basic
import Raes.Contracts.Addressing
import Raes.Json
import Raes.Lib.Dict
import Raes.Lib.ExceptList
import Raes.Lib.SortBy

/-!
# Participant outcome records

The rules that interpret a participant's observations
(`participant_outcome_semantics.py`), the behaviour events that carry the
observations (`contracts/participant_runtime.py`) and the reports that record an
interpretation at one cut of the behaviour history
(`contracts/participant_outcomes.py`).

A stored report is the dump of a validated one, so both are one record here:
reading it back repeats the checks of its model.
-/

namespace Raes.Outcome

open PyError

inductive OutcomeCategory where
  | taskCompletion | effectRealization
  deriving DecidableEq

inductive OutcomeAttainment where
  | undetermined | notAttained | partlyAttained | attained
  deriving DecidableEq

inductive OutcomeKnowledge where
  | unknown | supported | conflicting | withheld
  deriving DecidableEq

inductive ActionStatus where
  | accepted | rejected | withheld | succeeded | failed | partialSuccess | unknown
  deriving DecidableEq

inductive EffectClass where
  | intendedEffect | sideEffect | observationEffect | visibilityEffect | detectionEffect
  | evidenceEffect | noEffect | unknownEffect
  deriving DecidableEq

inductive SourceLayer where
  | participantActionOutcome | participantEpisodeStatus | objectiveResult | workflowResult
  | evaluationResult | evidenceClaim | rewardSignal | benchmarkMilestone | subtask | goldStep
  | humanAssistance | scaffoldVariant | costResourceTelemetry | privacyRedactionResult
  deriving DecidableEq

structure LocalOutcomeCriterion where
  (criterionId sourceId effectId : String)
  deriving DecidableEq

structure LocalOutcomeDefinition where
  category : OutcomeCategory
  criteria : List LocalOutcomeCriterion
  nonempty : criteria ≠ []
  uniqueIdentities : (criteria.map (·.criterionId)).Nodup
  uniqueBindings : (criteria.map fun c => (c.sourceId, c.effectId)).Nodup

structure SourceBinding where
  sourceId : String
  sourceLayer : SourceLayer
  ref : String
  evidenceRefs : List String
  deriving DecidableEq

structure OutcomeInterpretationRule where
  sourceBindings : List SourceBinding
  localOutcome : Option LocalOutcomeDefinition
  /-- The bases, targets, limitations and diagnostics -/
  content : Json
  uniqueSources : (sourceBindings.map (·.sourceId)).Nodup
  declared : ∀ outcome ∈ localOutcome, ∀ criterion ∈ outcome.criteria,
    ∃ source ∈ sourceBindings, source.sourceId = criterion.sourceId ∧
      source.sourceLayer = .participantActionOutcome

/-- A compiled `ParticipantOutcomeInterpretationRuleRuntime`. -/
structure OutcomeRuleRuntime where
  address : String
  spec : Json

structure ActionEffectResult where
  effectId : String
  effectClass : EffectClass
  evidenceRefs : List String
  deriving DecidableEq

structure ActionResult where
  status : ActionStatus
  (participantAddress episodeId actionInstanceId actionContractAddress observationPoint : String)
  effects : List ActionEffectResult
  deriving DecidableEq

/-- A validated `ParticipantBehaviorHistoryEventModel`. -/
structure BehaviorEvent where
  actionInstanceId : String
  actionContractAddress : Option String
  actionResult : Option ActionResult
  /-- The fields that no outcome reads -/
  content : Json

structure ObservationRef where
  (actionInstanceId observationPoint contentDigest : String)
  deriving DecidableEq

/-- A `ParticipantOutcomeReportV2Model`, less the optional fields of its
envelope. -/
structure OutcomeReport where
  (eventId schemaName schemaVersion eventType extensionPolicy occurredAt recordedAt : String)
  (ingestedAt clockAuthority orderingBasis actorRef producerRef authorizationScope : String)
  (participantAddress episodeId outcomeId interpretationRuleRef ruleDigest : String)
  ruleSpec : OutcomeInterpretationRule
  revision : ℕ
  predecessorEventRef : Option String
  behaviorHistoryLength : ℕ
  behaviorHistoryDigest : String
  observationRefs : List ObservationRef
  excludedObservationRefs : List String
  correctionBasis : Option String
  category : OutcomeCategory
  attainment : OutcomeAttainment
  knowledge : OutcomeKnowledge
  freshness : String
  (evidenceRefs provenanceRefs : List String)

/-- The identity under which reports succeed one another -/
def OutcomeReport.key (report : OutcomeReport) : String × String :=
  (report.episodeId, report.outcomeId)

structure Contracts where
  /-- `OutcomeInterpretationRule.model_validate` -/
  ruleModel : Json → Except PyError OutcomeInterpretationRule
  /-- `model_dump(mode="json")` of a rule -/
  ruleDump : OutcomeInterpretationRule → Json
  /-- `ParticipantBehaviorHistoryEventModel.model_validate` -/
  eventModel : Json → Except PyError BehaviorEvent
  /-- `model_dump(mode="json")` of a behaviour event -/
  eventDump : BehaviorEvent → Json
  /-- `canonical_json_digest` -/
  canonicalDigest : Json → Except PyError String
  /-- The types of the fields of a report: its texts, digests, addresses,
  timestamps and bounds -/
  reportFields : OutcomeReport → Except PyError Unit

def requireCorrectionShape (report : OutcomeReport) : Except PyError Unit := do
  let refs := report.observationRefs.map (·.observationPoint)
  refuseIf (¬ refs.Nodup ∨ ¬ report.excludedObservationRefs.Nodup)
    (valueError "outcome observation identities must be unique")
  refuseIf (¬ ∀ ref ∈ report.excludedObservationRefs, ref ∈ refs)
    (valueError "outcome correction references must resolve in its history cut")
  refuseIf (report.excludedObservationRefs ≠ [] ∧ report.correctionBasis = none)
    (valueError "outcome corrections require an explicit basis")

def localStateShape (report : OutcomeReport) : Except PyError Unit := do
  refuseIf (report.ruleSpec.localOutcome.map (·.category) ≠ some report.category)
    (valueError "local outcome category requires its versioned definition")
  refuseIf ((report.knowledge = .conflicting ∨ report.knowledge = .withheld) ∧
      report.attainment ≠ .undetermined)
    (valueError "conflicting or withheld evidence cannot establish attainment")
  refuseIf (decide (report.revision = 1) ≠ report.predecessorEventRef.isNone)
    (valueError "outcome revision requires the exact predecessor")
  requireCorrectionShape report

/-- `ParticipantOutcomeReportV2Model.model_validate`: the report that the model
admits. -/
def reportModel (contracts : Contracts) (report : OutcomeReport) :
    Except PyError OutcomeReport := do
  contracts.reportFields report
  localStateShape report
  return report

theorem reportModel_eq_ok {contracts : Contracts} {report read : OutcomeReport}
    (h : reportModel contracts report = .ok read) : read = report := by
  unfold reportModel at h
  obtain ⟨-, h⟩ := seq_eq_ok_iff.mp h
  obtain ⟨-, h⟩ := seq_eq_ok_iff.mp h
  exact (Except.ok.inj h).symm

end Raes.Outcome

/-!
# The projection of observations to an outcome

`contracts/participant_outcome_history.py`.  An outcome is attained when the
evidence of every criterion says so.  Each criterion collects the truth values
and the evidence of the observations of its action; the projection folds them
in arrival order, and the order leaves no trace in what it answers.
-/

namespace Raes.Outcome

open PyError

/-- An observation that carries an action result, with its reference. -/
structure OutcomeObservation where
  event : BehaviorEvent
  action : ActionResult
  ref : ObservationRef
  carried : event.actionResult = some action

structure CriterionEvidence where
  values : Finset Bool
  evidence : List String
  withheld : Bool
  deriving DecidableEq

/-- `_effect_evidence` for one effect: the evidence that counts, if any does. -/
def countedRefs (effectId : String) (admitted : List String) (effect : ActionEffectResult) :
    List String :=
  if effect.effectId ≠ effectId ∨ effect.effectClass = .unknownEffect then []
  else effect.evidenceRefs.filter (· ∈ admitted)

def effectEvidence (effects : List ActionEffectResult) (effectId : String)
    (admitted : List String) : Finset Bool × List String :=
  effects.foldl (fun found effect =>
    if countedRefs effectId admitted effect = [] then found
    else (insert (decide (effect.effectClass ≠ .noEffect)) found.1,
      found.2 ++ countedRefs effectId admitted effect)) (∅, [])

/-- The part of `_criterion_evidence` that reads one observation. -/
def criterionStep (actionRef : String) (evidenceRefs : List String) (effectId : String)
    (excluded : List String) (found : CriterionEvidence) (observation : OutcomeObservation) :
    CriterionEvidence :=
  let action := observation.action
  if observation.ref.observationPoint ∈ excluded ∨ action.actionContractAddress ≠ actionRef then
    found
  else if action.status = .withheld then { found with withheld := true }
  else
    let observed := effectEvidence action.effects effectId evidenceRefs
    { found with
      values := found.values ∪ observed.1
      evidence := found.evidence ++ observed.2 }

def criterionEvidence (actionRef : String) (evidenceRefs : List String) (effectId : String)
    (observations : List OutcomeObservation) (excluded : List String) : CriterionEvidence :=
  observations.foldl (criterionStep actionRef evidenceRefs effectId excluded) ⟨∅, [], false⟩

def attainmentProjection (values : List (Finset Bool)) (withheld : Bool) :
    OutcomeAttainment × OutcomeKnowledge :=
  if ∃ value ∈ values, 1 < value.card then (.undetermined, .conflicting)
  else if withheld then (.undetermined, .withheld)
  else
    let positive := values.countP (· = {true})
    let known := values.countP (· ≠ ∅)
    let knowledge := if known = values.length then .supported else .unknown
    if positive = values.length then (.attained, knowledge)
    else if positive ≠ 0 then (.partlyAttained, knowledge)
    else if known = values.length then (.notAttained, knowledge)
    else (.undetermined, knowledge)

/-- The address that an action contract reference names; empty parts are left
out. -/
def actionContractAddress (ref : String) : String :=
  if ref = "" then "participant.action-contract" else "participant.action-contract." ++ ref

/-- `render_compiled_address("participant", "action-contract", ref)` -/
def renderActionContract (ref : String) : Except PyError String :=
  Contracts.requireCompiledAddress (actionContractAddress ref)

/-- `sources[criterion.source_id]`; the source identities of a rule are
distinct. -/
def criterionSource (sources : List SourceBinding) (criterion : LocalOutcomeCriterion) :
    Except PyError SourceBinding :=
  match sources.find? (·.sourceId = criterion.sourceId) with
  | some source => .ok source
  | none => .error (keyError criterion.sourceId)

/-- The part of `outcome_projection` that reads one criterion. -/
def projectCriterion (sources : List SourceBinding) (observations : List OutcomeObservation)
    (excluded : List String) (criterion : LocalOutcomeCriterion) :
    Except PyError CriterionEvidence := do
  let source ← criterionSource sources criterion
  let actionRef ← renderActionContract source.ref
  return criterionEvidence actionRef source.evidenceRefs criterion.effectId observations excluded

def outcomeProjection (rule : OutcomeInterpretationRule)
    (observations : List OutcomeObservation) (excluded : List String) :
    Except PyError (OutcomeAttainment × OutcomeKnowledge × List String) :=
  match rule.localOutcome with
  | none => .error (valueError "outcome rule has no local definition")
  | some outcome => do
    let found ← outcome.criteria.mapM (projectCriterion rule.sourceBindings observations excluded)
    let projected := attainmentProjection (found.map (·.values)) (found.any (·.withheld))
    return (projected.1, projected.2, sortedSet (found.flatMap (·.evidence)))

/-- Two findings that differ in the order of their evidence at most. -/
structure SameEvidence (a b : CriterionEvidence) : Prop where
  values : a.values = b.values
  evidence : ∀ ref, ref ∈ a.evidence ↔ ref ∈ b.evidence
  withheld : a.withheld = b.withheld

section Observations

variable (actionRef : String) (evidenceRefs : List String) (effectId : String)
  (excluded : List String)

def contribution (observation : OutcomeObservation) : CriterionEvidence :=
  criterionStep actionRef evidenceRefs effectId excluded ⟨∅, [], false⟩ observation

theorem criterionStep_eq (found : CriterionEvidence) (observation : OutcomeObservation) :
    criterionStep actionRef evidenceRefs effectId excluded found observation =
      let added := contribution actionRef evidenceRefs effectId excluded observation
      ⟨found.values ∪ added.values, found.evidence ++ added.evidence,
        found.withheld || added.withheld⟩ := by
  unfold contribution criterionStep
  by_cases hskip : observation.ref.observationPoint ∈ excluded ∨
      observation.action.actionContractAddress ≠ actionRef
  · simp only [if_pos hskip]
    simp
  · simp only [if_neg hskip]
    by_cases hwithheld : observation.action.status = .withheld
    · simp [hwithheld]
    · simp [hwithheld]

theorem mem_foldl_criterionStep (observations : List OutcomeObservation)
    (found : CriterionEvidence) :
    let all := observations.foldl (criterionStep actionRef evidenceRefs effectId excluded) found
    let added := contribution actionRef evidenceRefs effectId excluded
    (∀ b, b ∈ all.values ↔ b ∈ found.values ∨ ∃ o ∈ observations, b ∈ (added o).values) ∧
      (∀ r, r ∈ all.evidence ↔ r ∈ found.evidence ∨ ∃ o ∈ observations, r ∈ (added o).evidence) ∧
      (all.withheld = true ↔ found.withheld = true ∨
        ∃ o ∈ observations, (added o).withheld = true) := by
  induction observations generalizing found with
  | nil => simp
  | cons o rest ih =>
    obtain ⟨hvalues, hevidence, hwithheld⟩ := ih
      (criterionStep actionRef evidenceRefs effectId excluded found o)
    rw [criterionStep_eq] at hvalues hevidence hwithheld
    refine ⟨fun b => ?_, fun r => ?_, ?_⟩
    · rw [List.foldl_cons, criterionStep_eq, hvalues b]
      simp [or_assoc]
    · rw [List.foldl_cons, criterionStep_eq, hevidence r]
      simp [or_assoc]
    · rw [List.foldl_cons, criterionStep_eq, hwithheld]
      simp [or_assoc]

theorem criterionEvidence_perm {observations others : List OutcomeObservation}
    (h : observations.Perm others) :
    SameEvidence (criterionEvidence actionRef evidenceRefs effectId observations excluded)
      (criterionEvidence actionRef evidenceRefs effectId others excluded) := by
  obtain ⟨hvalues, hevidence, hwithheld⟩ := mem_foldl_criterionStep actionRef evidenceRefs
    effectId excluded observations ⟨∅, [], false⟩
  obtain ⟨hvalues', hevidence', hwithheld'⟩ := mem_foldl_criterionStep actionRef evidenceRefs
    effectId excluded others ⟨∅, [], false⟩
  refine ⟨Finset.ext fun b => ?_, fun r => ?_, Bool.eq_iff_iff.mpr ?_⟩
  · unfold criterionEvidence
    rw [hvalues, hvalues']
    simp only [h.mem_iff]
  · unfold criterionEvidence
    rw [hevidence, hevidence']
    simp only [h.mem_iff]
  · unfold criterionEvidence
    rw [hwithheld, hwithheld']
    simp only [h.mem_iff]

end Observations

theorem attainmentProjection_perm {values others : List (Finset Bool)} (h : values.Perm others)
    (withheld : Bool) :
    attainmentProjection values withheld = attainmentProjection others withheld := by
  unfold attainmentProjection
  simp only [h.mem_iff, h.countP_eq, h.length_eq]

/-- The address under which a criterion looks for actions. -/
def criterionAddress (sources : List SourceBinding) (criterion : LocalOutcomeCriterion) : String :=
  match sources.find? (·.sourceId = criterion.sourceId) with
  | some source => actionContractAddress source.ref
  | none => ""

def criterionAdmits (sources : List SourceBinding) (criterion : LocalOutcomeCriterion) :
    List String :=
  match sources.find? (·.sourceId = criterion.sourceId) with
  | some source => source.evidenceRefs
  | none => []

/-- A declared criterion is refused for its address alone, always in the same
words. -/
theorem projectCriterion_eq {sources : List SourceBinding} {criterion : LocalOutcomeCriterion}
    (hdeclared : ∃ source ∈ sources, source.sourceId = criterion.sourceId)
    (observations : List OutcomeObservation) (excluded : List String) :
    projectCriterion sources observations excluded criterion =
      if Contracts.isCompiledAddress (criterionAddress sources criterion) then
        .ok (criterionEvidence (criterionAddress sources criterion)
          (criterionAdmits sources criterion) criterion.effectId observations excluded)
      else .error (valueError "address must be a canonical compiled address") := by
  unfold projectCriterion criterionSource criterionAddress criterionAdmits
  cases hfind : sources.find? (·.sourceId = criterion.sourceId) with
  | none =>
    obtain ⟨source, hmem, hid⟩ := hdeclared
    have hno := List.find?_eq_none.mp hfind source hmem
    exact absurd hid (by simpa using hno)
  | some source =>
    show (do
      let actionRef ← renderActionContract source.ref
      pure (criterionEvidence actionRef source.evidenceRefs criterion.effectId observations
        excluded) : Except PyError CriterionEvidence) = _
    rw [renderActionContract, Contracts.requireCompiledAddress]
    by_cases haddress : Contracts.isCompiledAddress (actionContractAddress source.ref)
    · simp only [haddress, if_true]
      rfl
    · simp only [haddress]
      rfl

theorem mapM_projectCriterion {rule : OutcomeInterpretationRule}
    {outcome : LocalOutcomeDefinition} (hlocal : rule.localOutcome = some outcome)
    (observations : List OutcomeObservation) (excluded : List String) :
    outcome.criteria.mapM (projectCriterion rule.sourceBindings observations excluded) =
      if ∀ c ∈ outcome.criteria,
          Contracts.isCompiledAddress (criterionAddress rule.sourceBindings c) then
        .ok (outcome.criteria.map fun c =>
          criterionEvidence (criterionAddress rule.sourceBindings c)
            (criterionAdmits rule.sourceBindings c) c.effectId observations excluded)
      else .error (valueError "address must be a canonical compiled address") := by
  apply mapM_eq_ite
  intro c hc
  obtain ⟨source, hmem, hid, -⟩ := rule.declared outcome hlocal c hc
  exact projectCriterion_eq ⟨source, hmem, hid⟩ observations excluded

/-- What is projected from the findings of the criteria depends neither on the
order of the criteria nor on the order of the evidence within them. -/
theorem projected_perm {criteria others : List LocalOutcomeCriterion} (h : criteria.Perm others)
    {found found' : LocalOutcomeCriterion → CriterionEvidence}
    (hfound : ∀ c, SameEvidence (found c) (found' c)) :
    attainmentProjection ((criteria.map found).map (·.values))
        ((criteria.map found).any (·.withheld)) =
      attainmentProjection ((others.map found').map (·.values))
        ((others.map found').any (·.withheld)) ∧
    sortedSet ((criteria.map found).flatMap (·.evidence)) =
      sortedSet ((others.map found').flatMap (·.evidence)) := by
  constructor
  · have hvalues : ((criteria.map found).map (·.values)).Perm ((others.map found').map (·.values)) := by
      rw [List.map_map, List.map_map]
      have hsame : (CriterionEvidence.values ∘ found) = (CriterionEvidence.values ∘ found') :=
        funext fun c => (hfound c).values
      show (criteria.map (CriterionEvidence.values ∘ found)).Perm _
      rw [hsame]
      exact h.map _
    have hwithheld : (criteria.map found).any (·.withheld) = (others.map found').any (·.withheld) := by
      rw [Bool.eq_iff_iff, List.any_eq_true, List.any_eq_true]
      simp only [List.mem_map, exists_exists_and_eq_and, h.mem_iff, (hfound _).withheld]
    rw [hwithheld]
    exact attainmentProjection_perm hvalues _
  · apply eq_of_pairwise_lt (sortedSet_pairwise _) (sortedSet_pairwise _)
    intro ref
    simp only [mem_sortedSet, List.mem_flatMap, List.mem_map, exists_exists_and_eq_and, h.mem_iff,
      (hfound _).evidence]

/-- The projection does not depend on the order of the observations, nor on the
order in which a rule lists its criteria. -/
theorem outcomeProjection_perm {rule reordered : OutcomeInterpretationRule}
    {outcome outcome' : LocalOutcomeDefinition}
    (hsources : reordered.sourceBindings = rule.sourceBindings)
    (hlocal : rule.localOutcome = some outcome) (hlocal' : reordered.localOutcome = some outcome')
    (hcriteria : outcome.criteria.Perm outcome'.criteria)
    {observations others : List OutcomeObservation} (h : observations.Perm others)
    (excluded : List String) :
    outcomeProjection rule observations excluded =
      outcomeProjection reordered others excluded := by
  have hprojected := projected_perm hcriteria
    (fun c => criterionEvidence_perm (criterionAddress rule.sourceBindings c)
      (criterionAdmits rule.sourceBindings c) c.effectId excluded h)
  have hreordered := mapM_projectCriterion hlocal' others excluded
  rw [hsources] at hreordered
  unfold outcomeProjection
  rw [hlocal, hlocal', hsources]
  simp only [mapM_projectCriterion hlocal, hreordered, hcriteria.mem_iff]
  by_cases hall : ∀ c ∈ outcome'.criteria,
      Contracts.isCompiledAddress (criterionAddress rule.sourceBindings c)
  · simp only [if_pos hall]
    show Except.ok _ = Except.ok _
    rw [hprojected.1, hprojected.2]
  · simp only [if_neg hall]

end Raes.Outcome
