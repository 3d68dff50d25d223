import Raes.Factorial.Design

/-!
# Conditions of a factorial design

The condition of one combination of levels, with its bindings and selections, and the
allocation of all conditions: their identities and their validators
(`experiment_factorial.py`, `experiment_study.py`, `experiment_bindings.py` and
`experiment_treatments.py` of the contracts).
-/

namespace Raes.Factorial

open PyError
open Trial (SelectionOutcome)

/-- The serializations that a design is expanded with -/
structure FactorialEngine where
  /-- The hexadecimal digits of `canonical_json_digest` -/
  digestHex : Json → String
  /-- The JSON text of the realization payload of a binding -/
  bindingText : FactorLevelBinding → String
  /-- The JSON text of the realization payload of a selection -/
  selectionText : FactorLevelSelection → String
  /-- The length of the effects of a level in canonical JSON -/
  effectsBytes : FactorLevelEffects → ℕ
  /-- The length of a factor id and a level id in canonical JSON -/
  joinBytes : String → String → ℕ

abbrev FactorLevels := List (String × String)

section Identities

variable (engine : FactorialEngine)

def factorLevelsJson (factorLevels : FactorLevels) : Json :=
  .obj (factorLevels.map fun level => (level.1, .str level.2))

def conditionId (factorLevels : FactorLevels) : String :=
  "condition-" ++ String.ofList ((engine.digestHex (factorLevelsJson factorLevels)).toList.take 48)

/-- The digits of `[condition_id, factor_id, target.canonical_key()]` -/
def effectDigits (conditionId factorId : String) (canonicalKey : List String) : String :=
  engine.digestHex (.arr [.str conditionId, .str factorId, .arr (canonicalKey.map .str)])

/-- `ExperimentBindingDescriptorModel` -/
structure BindingDescriptor where
  (bindingId sourceFactorId sourceFactorLevelId sourceConditionId : String)
  template : FactorLevelBinding
  deriving DecidableEq

/-- `ExperimentScenarioSelectionDescriptorModel` -/
structure SelectionDescriptor where
  (selectionId sourceFactorId sourceFactorLevelId sourceConditionId : String)
  template : FactorLevelSelection
  deriving DecidableEq

/-- `_condition_bindings` of the templates that the levels have -/
def conditionBindings (templates : String → String → List FactorLevelBinding)
    (factorLevels : FactorLevels) (conditionId : String) : List BindingDescriptor :=
  sortBy BindingDescriptor.bindingId <| factorLevels.flatMap fun level =>
    (templates level.1 level.2).map fun template =>
      { bindingId :=
          "binding-" ++ effectDigits engine conditionId level.1 template.target.canonicalKey
        sourceFactorId := level.1
        sourceFactorLevelId := level.2
        sourceConditionId := conditionId
        template }

def conditionSelections (templates : String → String → List FactorLevelSelection)
    (factorLevels : FactorLevels) (conditionId : String) : List SelectionDescriptor :=
  sortBy SelectionDescriptor.selectionId <| factorLevels.flatMap fun level =>
    (templates level.1 level.2).map fun template =>
      { selectionId :=
          "selection-" ++ effectDigits engine conditionId level.1 template.target.canonicalKey
        sourceFactorId := level.1
        sourceFactorLevelId := level.2
        sourceConditionId := conditionId
        template }

end Identities

/-- `ExperimentConditionAssignmentModel` of a generated condition -/
structure ConditionAssignment where
  conditionId : String
  factorLevels : FactorLevels
  requiredBindings : List BindingDescriptor
  requiredSelections : List SelectionDescriptor
  deriving DecidableEq

/-- `ExperimentBindingDescriptorSetModel` -/
def validateDescriptors (descriptors : List BindingDescriptor) : Except PyError Unit := do
  refuseIf (descriptors = []) (valueError "descriptors should have at least 1 item")
  refuseIf (¬ (descriptors.map BindingDescriptor.bindingId).Nodup)
    (valueError "binding_id values must be unique")
  refuseIf (¬ (descriptors.map fun d => d.sourceConditionId :: d.template.target.canonicalKey).Nodup)
    (valueError "binding descriptors must not contain a duplicate canonical target")

/-- `validate_selection_descriptor_set` -/
def validateSelections (selections : List SelectionDescriptor)
    (bindings : List BindingDescriptor) : Except PyError Unit := do
  refuseIf (¬ (selections.map SelectionDescriptor.selectionId).Nodup)
    (valueError "selection identities must be unique")
  let targets := selections.map (fun s => s.template.target) ++
    bindings.filterMap fun b => b.template.target.scenarioTarget?
  refuseIf (¬ (targets.map fun t => (t.scenarioFamilyId, t.variationPointId)).Nodup)
    (valueError "factorial effects must select each scenario point at most once")

/-- `_validate_run_level_criteria` of a generated condition -/
def ConditionAssignment.validate (assignment : ConditionAssignment) : Except PyError Unit := do
  let bindings := assignment.requiredBindings
  let selections := assignment.requiredSelections
  refuseIf (bindings = [] ∧ selections = [])
    (valueError ("condition assignments must include required_refs or required_parameters " ++
      "or required_bindings or required_selections"))
  if bindings = [] then pure () else validateDescriptors bindings
  refuseIf (∃ binding ∈ bindings, binding.sourceConditionId ≠ assignment.conditionId ∨
      assignment.factorLevels.lookup binding.sourceFactorId ≠ some binding.sourceFactorLevelId)
    (valueError
      "condition required bindings must match their factor/level/condition assignment")
  validateSelections selections bindings
  refuseIf (∃ selection ∈ selections, selection.sourceConditionId ≠ assignment.conditionId ∨
      assignment.factorLevels.lookup selection.sourceFactorId ≠ some selection.sourceFactorLevelId)
    (valueError
      "condition required selections must match their factor/level/condition assignment")

/-- `ExperimentRunAllocationPlanModel` -/
structure RunAllocationPlan where
  (allocationUnit allocationMethod : String)
  comparedConditions : List String
  conditionAssignments : Dict String ConditionAssignment
  targetRunsPerCondition : ℕ
  replicationPolicy : String
  deriving DecidableEq

section Allocations

variable (engine : FactorialEngine)

/-- `_condition_assignment_run_criteria_signature`, less what is the same in every
generated condition -/
def criteriaSignature (assignment : ConditionAssignment) : List String × List String :=
  (sortBy id (assignment.requiredBindings.map fun b => engine.bindingText b.template),
    sortBy id (assignment.requiredSelections.map fun s => engine.selectionText s.template))

/-- The groups of condition ids with one signature, each joined, in order -/
def duplicateConditions {κ : Type} [DecidableEq κ] (signature : ConditionAssignment → κ)
    (assignments : Dict String ConditionAssignment) : List String :=
  let groups := (Dict.collect (fun entry : String × ConditionAssignment => signature entry.2)
    assignments.entries).values
  sortBy id ((groups.filter fun group => group.length > 1).map fun group =>
    ",".intercalate (sortBy id (group.map Prod.fst)))

/-- `_validate_distinct_condition_criteria` -/
def validateDistinctCriteria (assignments : Dict String ConditionAssignment) :
    Except PyError Unit := do
  let levels := duplicateConditions (fun a => sortBy Prod.fst a.factorLevels) assignments
  refuseIf (levels ≠ []) (valueError
    ("run_allocation condition_assignments must use distinct factor-level combinations across " ++
      "compared_conditions: " ++ "; ".intercalate levels))
  let criteria := duplicateConditions (criteriaSignature engine) assignments
  refuseIf (criteria ≠ []) (valueError
    ("run_allocation condition_assignments must use distinct run-level criteria across " ++
      "compared_conditions: " ++ "; ".intercalate criteria))

/-- `_validate_condition_assignments` of a plan without blocking factors -/
def RunAllocationPlan.validate (plan : RunAllocationPlan) : Except PyError Unit := do
  refuseIf (¬ plan.comparedConditions.Nodup)
    (valueError "run_allocation compared_conditions must be unique")
  refuseIf (¬ ((∀ id ∈ plan.conditionAssignments.keys, id ∈ plan.comparedConditions) ∧
      ∀ id ∈ plan.comparedConditions, id ∈ plan.conditionAssignments.keys))
    (valueError "run_allocation condition_assignments keys must match compared_conditions")
  let mismatched := sortBy id ((plan.conditionAssignments.entries.filter fun entry =>
    entry.2.conditionId ≠ entry.1).map Prod.fst)
  refuseIf (mismatched ≠ []) (valueError
    ("run_allocation condition_assignments keys must match embedded condition_id: " ++
      ", ".intercalate mismatched))
  if plan.comparedConditions.length > 1 then
    validateDistinctCriteria engine plan.conditionAssignments
  else pure ()

def runAllocation (allocationMethod : String) (targetRunsPerCondition : ℕ)
    (assignments : Dict String ConditionAssignment) : RunAllocationPlan where
  allocationUnit := "run"
  allocationMethod
  comparedConditions := sortBy id assignments.keys
  conditionAssignments := assignments
  targetRunsPerCondition
  replicationPolicy := "equal independent runs"

end Allocations

end Raes.Factorial
