import Mathlib.Data.String.Basic
import Raes.Lib.Dict

/-!
# Workflow steps

The control steps of `orchestration/_steps.py` and `_workflow.py`.  A step is
one constructor for each value of `WorkflowStepType` and carries the fields that
the validators of the step allow for the type.  An empty target is absent.
-/

namespace Raes.Orchestration

/-- The first character of a portable identifier. -/
def identifierHead (c : Char) : Bool := ('a' ≤ c && c ≤ 'z') || ('0' ≤ c && c ≤ '9')

def identifierTail (c : Char) : Bool := identifierHead c || c == '_' || c == '-'

def portableIdentifier : List Char → Bool
  | [] => false
  | c :: rest => identifierHead c && rest.length ≤ 63 && rest.all identifierTail

/-- A dotted name whose leading segments are portable or the private namespace. -/
def variableTokenName (name : List Char) : Bool :=
  let segments := name.splitOn '.'
  segments.dropLast.all (fun s => portableIdentifier s || s == "__private".toList) &&
    segments.getLast?.any portableIdentifier

def isVariableRef (v : String) : Bool :=
  match v.toList with
  | '$' :: '\x7b' :: rest =>
    rest.getLast? == some '\x7d' && variableTokenName rest.dropLast
  | _ => false

def isUnresolvedVar (v : String) : Bool := isVariableRef v

example : isVariableRef "$\x7bteam.size\x7d" = true ∧ isVariableRef "size" = false := by
  decide +kernel

inductive WorkflowStepType where
  | objective | decision | switch | parallel | join | retry | call | endStep
  deriving DecidableEq, Repr

inductive WorkflowStepOutcome where
  | succeeded | failed | exhausted
  deriving DecidableEq, Repr

def WorkflowStepOutcome.value : WorkflowStepOutcome → String
  | succeeded => "succeeded"
  | failed => "failed"
  | exhausted => "exhausted"

/-- A reference of a predicate to the state of an earlier step. -/
structure WorkflowStepStateRef where
  step : String
  outcomes : List WorkflowStepOutcome
  deriving DecidableEq, Repr

structure WorkflowPredicate where
  (assertions objectives : List String)
  steps : List WorkflowStepStateRef
  deriving DecidableEq, Repr

structure WorkflowSwitchCase where
  when : WorkflowPredicate
  nextStep : String
  deriving DecidableEq, Repr

structure StepRealization where
  procedureRef : String
  (scaffoldRefs allowedActionFamilies toolAffordanceRefs capabilityRefs : List String)
  factBindingRefs : List String
  deriving DecidableEq, Repr

/-- The fields of a parallel step.  It has a join and at least two branches, and
the branches are distinct. -/
structure ParallelStep where
  branches : List String
  (join onFailure : String)
  twoBranches : 2 ≤ branches.length
  joinGiven : join ≠ ""
  branchesUnique : branches.Nodup
  deriving DecidableEq

/-- The targets of a step that ends with success or failure, and the workflow
that compensates it. -/
structure Terminator where
  (onSuccess onFailure compensateWith : String)
  deriving DecidableEq, Repr

inductive WorkflowStep where
  | objective (objective : String) (realization : StepRealization) (terminator : Terminator)
  | decision (when : WorkflowPredicate) (thenStep elseStep : String)
  | switch (cases : List WorkflowSwitchCase) (defaultStep : String)
  | parallel (fields : ParallelStep)
  | join (next : String)
  | retry (objective : String) (realization : StepRealization) (onSuccess onExhausted : String)
  | call (workflow : String) (terminator : Terminator)
  | endStep
  deriving DecidableEq

def WorkflowStep.type : WorkflowStep → WorkflowStepType
  | .objective .. => .objective
  | .decision .. => .decision
  | .switch .. => .switch
  | .parallel .. => .parallel
  | .join .. => .join
  | .retry .. => .retry
  | .call .. => .call
  | .endStep => .endStep

structure Workflow where
  start : String
  steps : Dict String WorkflowStep
  namesPortable : ∀ name ∈ steps.keys, portableIdentifier name.toList = true

inductive AssertionRole where
  | precondition | invariant | postcondition
  deriving DecidableEq, Repr

inductive ActionGranularity where
  | atomic | procedure | aggregate
  deriving DecidableEq, Repr

def ActionGranularity.value : ActionGranularity → String
  | atomic => "atomic"
  | procedure => "procedure"
  | aggregate => "aggregate"

inductive InformationBoundaryClass where
  | observableResource | telemetryStream | toolOutput | instruction | publicTaskStatement
  | starterFile | scaffoldInstruction | subtaskGuidance | hiddenTruth | privateAnswerKey
  | canary | holdoutVariant | adjudicationMaterial | archivalEvidence
  deriving DecidableEq, Repr

/-- What the checks of a workflow read of the other sections of the scenario.
The terms of the controlled vocabularies are given by the tests for them. -/
structure Sections where
  assertions : Dict String AssertionRole
  (objectives workflows : List String)
  actionContracts : Dict String ActionGranularity
  observationBoundaries : Dict String (List InformationBoundaryClass)
  toolAffordances : List String
  (governedCapabilityRef governedFactBindingRef : String → Bool)

end Raes.Orchestration

/-!
# The edges of a workflow

The first pass of `validator/_workflows_verify.py`.  Each step gives its
successors in the control graph, the step states that its predicates read, the
join that it owns, and the errors found on the way.
-/

namespace Raes.Orchestration

def observableOutcomes : WorkflowStepType → List WorkflowStepOutcome
  | .objective => [.succeeded, .failed]
  | .retry => [.succeeded, .exhausted]
  | .parallel => [.succeeded, .failed]
  | .call => [.succeeded, .failed]
  | .decision | .switch | .join | .endStep => []

def stateObservable (type : WorkflowStepType) : Bool := !(observableOutcomes type).isEmpty

def isExecutableWorkflowStep (step : WorkflowStep) : Bool := stateObservable step.type

/-- A resolved target, with the errors of the reference. -/
def validateWorkflowTargetRef (workflowName stepName fieldName target : String)
    (steps : Dict String WorkflowStep) : Option String × List String :=
  if target = "" ∨ isUnresolvedVar target = true then (none, [])
  else if steps.contains target then (some target, [])
  else (none, [s!"Workflow '{workflowName}' step '{stepName}' {fieldName} step '{target}' is not " ++
    s!"defined"])

/-- The targets of several fields of one step, in the order of the fields. -/
def validateTargetRefs (workflowName stepName : String) (steps : Dict String WorkflowStep)
    (targets : List (String × String)) : List String × List String :=
  let results := targets.map fun target =>
    validateWorkflowTargetRef workflowName stepName target.1 target.2 steps
  (results.filterMap Prod.fst, results.flatMap Prod.snd)

section Predicates

variable (sections : Sections) (steps : Dict String WorkflowStep) (workflowName stepName : String)

def assertionRefErrors (ref : String) : List String :=
  if isUnresolvedVar ref then [] else
  match sections.assertions.get? ref with
  | none => [s!"Workflow '{workflowName}' step '{stepName}' references undefined assertion '{ref}' " ++
    s!"in predicate"]
  | some .precondition => []
  | some _ =>
    [s!"Workflow '{workflowName}' step '{stepName}' assertion '{ref}' in predicate must be a " ++
      s!"precondition"]

def objectiveRefErrors (ref : String) : List String :=
  if isUnresolvedVar ref ∨ ref ∈ sections.objectives then []
  else [s!"Workflow '{workflowName}' step '{stepName}' references undefined objective '{ref}' in " ++
    s!"predicate"]

def validatePredicateSectionRefs (predicate : WorkflowPredicate) : List String :=
  predicate.assertions.flatMap (assertionRefErrors sections workflowName stepName) ++
    predicate.objectives.flatMap (objectiveRefErrors sections workflowName stepName)

def outcomesText (outcomes : List WorkflowStepOutcome) : String :=
  "[" ++ ", ".intercalate (outcomes.map fun outcome => "'" ++ outcome.value ++ "'") ++ "]"

/-- One step-state reference of a predicate: the step when it may be read, and
the errors of the reference. -/
def validateStepStateRef (ref : WorkflowStepStateRef) : Option String × List String :=
  if isUnresolvedVar ref.step then (none, [])
  else match steps.get? ref.step with
    | none =>
      (none, [s!"Workflow '{workflowName}' step '{stepName}' references undefined step state " ++
        s!"'{ref.step}' in predicate"])
    | some refStep =>
      if ref.step = stepName then
        (none, [s!"Workflow '{workflowName}' step '{stepName}' cannot reference its own state in a " ++
          s!"predicate"])
      else if stateObservable refStep.type = false then
        (none, [s!"Workflow '{workflowName}' step '{stepName}' cannot reference non-executable " ++
          s!"step '{ref.step}' in a predicate"])
      else
        let invalidOutcomes := ref.outcomes.filter (· ∉ observableOutcomes refStep.type)
        if invalidOutcomes ≠ [] then
          let invalid := outcomesText invalidOutcomes
          let allowed := ", ".intercalate
            ((observableOutcomes refStep.type).map WorkflowStepOutcome.value)
          (none, [s!"Workflow '{workflowName}' step '{stepName}' references step '{ref.step}' with " ++
            s!"impossible outcomes {invalid}; allowed outcomes are: {allowed}"])
        else (some ref.step, [])

def validatePredicateStepStates (predicate : WorkflowPredicate) : List String × List String :=
  let results := predicate.steps.map (validateStepStateRef steps workflowName stepName)
  (results.filterMap Prod.fst, results.flatMap Prod.snd)

def validateWorkflowPredicate (predicate : WorkflowPredicate) : List String × List String :=
  let states := validatePredicateStepStates steps workflowName stepName predicate
  (states.1, validatePredicateSectionRefs sections workflowName stepName predicate ++ states.2)

end Predicates

section RealizationRefs

variable (sections : Sections) (workflowName stepName : String)

def actionContractRefErrors (fieldName : String) (expected : ActionGranularity) (ref : String) :
    List String :=
  if ref = "" ∨ isUnresolvedVar ref then [] else
  match sections.actionContracts.get? ref with
  | none => [s!"Workflow '{workflowName}' step '{stepName}' {fieldName} references undefined action " ++
    s!"contract '{ref}'"]
  | some granularity =>
    if granularity = expected then [] else
    [s!"Workflow '{workflowName}' step '{stepName}' {fieldName} action contract '{ref}' must have " ++
      s!"{expected.value} behavioral granularity"]

def scaffoldBoundaryClasses : List InformationBoundaryClass :=
  [.instruction, .starterFile, .scaffoldInstruction, .subtaskGuidance]

def scaffoldRefErrors (ref : String) : List String :=
  if isUnresolvedVar ref then [] else
  match sections.observationBoundaries.get? ref with
  | none => [s!"Workflow '{workflowName}' step '{stepName}' references undefined scaffold " ++
    s!"observation boundary '{ref}'"]
  | some boundaryClasses =>
    if ∃ boundaryClass ∈ boundaryClasses, boundaryClass ∈ scaffoldBoundaryClasses then [] else
    [s!"Workflow '{workflowName}' step '{stepName}' scaffold observation boundary '{ref}' does not " ++
      s!"declare an instruction, starter-file, scaffold-instruction, or subtask-guidance view rule"]

def toolAffordanceRefErrors (ref : String) : List String :=
  if isUnresolvedVar ref ∨ ref ∈ sections.toolAffordances then [] else
  [s!"Workflow '{workflowName}' step '{stepName}' references undefined tool affordance '{ref}'"]

def capabilityRefErrors (ref : String) : List String :=
  if isUnresolvedVar ref ∨ sections.governedCapabilityRef ref then [] else
  [s!"Workflow '{workflowName}' step '{stepName}' references ungoverned participant capability " ++
    s!"'{ref}': it is neither a listed term nor an accepted extension term of the participant runtime " ++
    s!"behavior or interaction feature vocabularies"]

def factBindingRefErrors (ref : String) : List String :=
  if isUnresolvedVar ref ∨ sections.governedFactBindingRef ref then [] else
  [s!"Workflow '{workflowName}' step '{stepName}' references ungoverned runtime-fact binding " ++
    s!"'{ref}': it is neither a listed term nor an accepted extension term of the workflow step " ++
    s!"fact-binding vocabulary"]

def verifyWorkflowStepRealizationRefs (step : StepRealization) : List String :=
  actionContractRefErrors sections workflowName stepName "procedure_ref" .procedure
      step.procedureRef ++
    step.allowedActionFamilies.flatMap
      (actionContractRefErrors sections workflowName stepName "allowed_action_families"
        .aggregate) ++
    step.scaffoldRefs.flatMap (scaffoldRefErrors sections workflowName stepName) ++
    step.toolAffordanceRefs.flatMap (toolAffordanceRefErrors sections workflowName stepName) ++
    step.capabilityRefs.flatMap (capabilityRefErrors sections workflowName stepName) ++
    step.factBindingRefs.flatMap (factBindingRefErrors sections workflowName stepName)

end RealizationRefs

structure StepEdges where
  edges : List String
  predicateStepRefs : Option (List String)
  joinTarget : Option String
  errors : List String
  deriving DecidableEq, Repr

section CollectStep

variable (sections : Sections) (steps : Dict String WorkflowStep) (workflowName stepName : String)

def definedObjectiveErrors (objective : String) : List String :=
  if isUnresolvedVar objective ∨ objective ∈ sections.objectives then [] else
  [s!"Workflow '{workflowName}' step '{stepName}' references undefined objective '{objective}'"]

def definedWorkflowErrors (workflow : String) : List String :=
  if isUnresolvedVar workflow ∨ workflow ∈ sections.workflows then [] else
  [s!"Workflow '{workflowName}' step '{stepName}' references undefined workflow '{workflow}'"]

def compensationErrors (compensateWith : String) : List String :=
  if compensateWith = "" ∨ isUnresolvedVar compensateWith ∨ compensateWith ∈ sections.workflows
  then [] else
  [s!"Workflow '{workflowName}' step '{stepName}' references undefined compensation workflow " ++
    s!"'{compensateWith}'"]

def verifyStepTerminatorAndCompensation (terminator : Terminator) : List String × List String :=
  let targets := validateTargetRefs workflowName stepName steps
    [("on-success", terminator.onSuccess), ("on-failure", terminator.onFailure)]
  (targets.1,
    targets.2 ++ compensationErrors sections workflowName stepName terminator.compensateWith)

def collectObjectiveStep (objective : String) (realization : StepRealization)
    (terminator : Terminator) : StepEdges :=
  let targets := verifyStepTerminatorAndCompensation sections steps workflowName stepName terminator
  { edges := targets.1
    predicateStepRefs := none
    joinTarget := none
    errors := definedObjectiveErrors sections workflowName stepName objective ++
      verifyWorkflowStepRealizationRefs sections workflowName stepName realization ++ targets.2 }

def collectDecisionStep (when : WorkflowPredicate) (thenStep elseStep : String) : StepEdges :=
  let predicate := validateWorkflowPredicate sections steps workflowName stepName when
  let targets := validateTargetRefs workflowName stepName steps
    [("then", thenStep), ("else", elseStep)]
  { edges := targets.1
    predicateStepRefs := some predicate.1
    joinTarget := none
    errors := predicate.2 ++ targets.2 }

/-- One case of a switch: its predicate and then its target.  The predicate is
checked under the name of the case. -/
def collectSwitchCase (caseIndex : ℕ) (case : WorkflowSwitchCase) :
    List String × Option String × List String :=
  let predicate := validateWorkflowPredicate sections steps workflowName
    s!"{stepName}.case[{caseIndex}]" case.when
  let target := validateWorkflowTargetRef workflowName stepName s!"case[{caseIndex}] next"
    case.nextStep steps
  (predicate.1, target.1, predicate.2 ++ target.2)

def collectSwitchStep (cases : List WorkflowSwitchCase) (defaultStep : String) : StepEdges :=
  let results := cases.zipIdx.map fun entry =>
    collectSwitchCase sections steps workflowName stepName entry.2 entry.1
  let target := validateWorkflowTargetRef workflowName stepName "default" defaultStep steps
  { edges := results.filterMap (fun result => result.2.1) ++ target.1.toList
    predicateStepRefs := some (results.flatMap fun result => result.1)
    joinTarget := none
    errors := results.flatMap (fun result => result.2.2) ++ target.2 }

def collectParallelStep (fields : ParallelStep) : StepEdges :=
  let branches := validateTargetRefs workflowName stepName steps
    (fields.branches.map fun branch => ("branch", branch))
  let join := validateWorkflowTargetRef workflowName stepName "join" fields.join steps
  let failure := validateWorkflowTargetRef workflowName stepName "on-failure" fields.onFailure steps
  { edges := branches.1 ++ failure.1.toList
    predicateStepRefs := none
    joinTarget := join.1
    errors := branches.2 ++ join.2 ++ failure.2 }

def collectJoinStep (next : String) : StepEdges :=
  let target := validateWorkflowTargetRef workflowName stepName "next" next steps
  { edges := target.1.toList, predicateStepRefs := none, joinTarget := none, errors := target.2 }

def collectRetryStep (objective : String) (realization : StepRealization)
    (onSuccess onExhausted : String) : StepEdges :=
  let targets := validateTargetRefs workflowName stepName steps
    [("on-success", onSuccess), ("on-exhausted", onExhausted)]
  { edges := targets.1
    predicateStepRefs := none
    joinTarget := none
    errors := definedObjectiveErrors sections workflowName stepName objective ++
      verifyWorkflowStepRealizationRefs sections workflowName stepName realization ++ targets.2 }

def collectCallStep (workflow : String) (terminator : Terminator) : StepEdges :=
  let targets := verifyStepTerminatorAndCompensation sections steps workflowName stepName terminator
  { edges := targets.1
    predicateStepRefs := none
    joinTarget := none
    errors := definedWorkflowErrors sections workflowName stepName workflow ++ targets.2 }

def collectStepEdges : WorkflowStep → StepEdges
  | .objective objective realization terminator =>
    collectObjectiveStep sections steps workflowName stepName objective realization terminator
  | .decision when thenStep elseStep =>
    collectDecisionStep sections steps workflowName stepName when thenStep elseStep
  | .switch cases defaultStep =>
    collectSwitchStep sections steps workflowName stepName cases defaultStep
  | .parallel fields => collectParallelStep steps workflowName stepName fields
  | .join next => collectJoinStep steps workflowName stepName next
  | .retry objective realization onSuccess onExhausted =>
    collectRetryStep sections steps workflowName stepName objective realization onSuccess
      onExhausted
  | .call workflow terminator =>
    collectCallStep sections steps workflowName stepName workflow terminator
  | .endStep => { edges := [], predicateStepRefs := none, joinTarget := none, errors := [] }

end CollectStep

end Raes.Orchestration
