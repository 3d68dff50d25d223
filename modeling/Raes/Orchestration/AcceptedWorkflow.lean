import Raes.Orchestration.WorkflowChecks

/-!
# Accepted workflows

What the control graph of a workflow is when the checks find no error.  Control
moves along the targets of the steps, and the graph has an edge for each of
them.
-/

namespace Raes.Orchestration

/-! ## The references of a step -/

def WorkflowStep.outcomeTargets : WorkflowStep → List String
  | .objective _ _ terminator | .call _ terminator => [terminator.onSuccess, terminator.onFailure]
  | .retry _ _ onSuccess onExhausted => [onSuccess, onExhausted]
  | .decision .. | .switch .. | .parallel .. | .join .. | .endStep => []

def WorkflowStep.choiceTargets : WorkflowStep → List String
  | .decision _ thenStep elseStep => [thenStep, elseStep]
  | .switch cases defaultStep => cases.map WorkflowSwitchCase.nextStep ++ [defaultStep]
  | .objective .. | .parallel .. | .join .. | .retry .. | .call .. | .endStep => []

def WorkflowStep.targets (step : WorkflowStep) : List String :=
  match step with
  | .parallel fields => fields.branches ++ [fields.onFailure]
  | .join next => [next]
  | other => other.outcomeTargets ++ other.choiceTargets

def WorkflowStep.predicates : WorkflowStep → List WorkflowPredicate
  | .decision when _ _ => [when]
  | .switch cases _ => cases.map WorkflowSwitchCase.when
  | .objective .. | .parallel .. | .join .. | .retry .. | .call .. | .endStep => []

def WorkflowStep.stepStateRefs (step : WorkflowStep) : List String :=
  step.predicates.flatMap fun predicate => predicate.steps.map WorkflowStepStateRef.step

/-- No target or step-state reference of the workflow is a variable. -/
structure Workflow.Resolved (workflow : Workflow) : Prop where
  start : isUnresolvedVar workflow.start = false
  targets : ∀ step ∈ workflow.steps.values, ∀ target ∈ step.targets,
    isUnresolvedVar target = false
  stepStateRefs : ∀ step ∈ workflow.steps.values, ∀ ref ∈ step.stepStateRefs,
    isUnresolvedVar ref = false

/-! ## Portable names -/

theorem ne_empty_of_portable {name : String} (h : portableIdentifier name.toList = true) :
    name ≠ "" := by
  intro hempty
  subst hempty
  exact absurd h (by decide)

theorem not_variable_of_portable {name : String} (h : portableIdentifier name.toList = true) :
    isUnresolvedVar name = false := by
  cases hchars : name.toList with
  | nil => simp [isUnresolvedVar, isVariableRef, hchars]
  | cons c rest =>
    have hc : c ≠ '$' := by
      intro hdollar
      rw [hchars, hdollar, portableIdentifier] at h
      simp [show identifierHead '$' = false from by decide] at h
    simp [isUnresolvedVar, isVariableRef, hchars, hc]

namespace Workflow

variable {workflow : Workflow}

theorem portable_of_contains {name : String} (h : workflow.steps.contains name = true) :
    portableIdentifier name.toList = true :=
  workflow.namesPortable name (Dict.contains_iff.mp h)

theorem validateTargetRef_of_contains (workflowName stepName fieldName : String) {target : String}
    (h : workflow.steps.contains target = true) :
    validateWorkflowTargetRef workflowName stepName fieldName target workflow.steps =
      (some target, []) := by
  have hportable := portable_of_contains h
  have hempty := ne_empty_of_portable hportable
  have hvariable := not_variable_of_portable hportable
  simp [validateWorkflowTargetRef, hempty, hvariable, h]

@[simp] theorem validateTargetRef_eq_some_iff
    {workflowName stepName fieldName target name : String} :
    (validateWorkflowTargetRef workflowName stepName fieldName target workflow.steps).1 =
      some name ↔ name = target ∧ workflow.steps.contains name = true := by
  constructor
  · intro h
    by_cases habsent : target = "" ∨ isUnresolvedVar target = true
    · simp [validateWorkflowTargetRef, habsent] at h
    · by_cases hstep : workflow.steps.contains target = true
      · simp only [validateWorkflowTargetRef, if_neg habsent, if_pos hstep,
          Option.some.injEq] at h
        exact ⟨h.symm, h ▸ hstep⟩
      · simp [validateWorkflowTargetRef, habsent, hstep] at h
  · rintro ⟨rfl, hstep⟩
    rw [validateTargetRef_of_contains _ _ _ hstep]

theorem mem_validateTargetRefs_iff (workflowName stepName : String)
    (targets : List (String × String)) (name : String) :
    name ∈ (validateTargetRefs workflowName stepName workflow.steps targets).1 ↔
      name ∈ targets.map Prod.snd ∧ workflow.steps.contains name = true := by
  simp only [validateTargetRefs, List.mem_filterMap, List.mem_map]
  constructor
  · rintro ⟨-, ⟨⟨field, target⟩, hmem, rfl⟩, hresolved⟩
    obtain ⟨rfl, hstep⟩ := validateTargetRef_eq_some_iff.mp hresolved
    exact ⟨⟨_, hmem, rfl⟩, hstep⟩
  · rintro ⟨⟨⟨field, target⟩, hmem, rfl⟩, hstep⟩
    refine ⟨_, ⟨(field, target), hmem, rfl⟩, ?_⟩
    rw [validateTargetRef_of_contains _ _ _ hstep]

theorem exists_mem_zipIdx_iff {α : Type} (items : List α) (P : α → Prop) :
    (∃ entry ∈ items.zipIdx, P entry.1) ↔ ∃ item ∈ items, P item := by
  conv_rhs => rw [← List.zipIdx_map_fst 0 items]
  simp only [List.mem_map, exists_exists_and_eq_and]

theorem mem_edges_iff (sections : Sections) (workflowName stepName : String) (step : WorkflowStep)
    (name : String) :
    name ∈ (collectStepEdges sections workflow.steps workflowName stepName step).edges ↔
      name ∈ step.targets ∧ workflow.steps.contains name = true := by
  cases step with
  | objective objective realization terminator =>
    simp [collectStepEdges, collectObjectiveStep, verifyStepTerminatorAndCompensation,
      mem_validateTargetRefs_iff, WorkflowStep.targets, WorkflowStep.outcomeTargets,
      WorkflowStep.choiceTargets]
  | decision when thenStep elseStep =>
    simp [collectStepEdges, collectDecisionStep, mem_validateTargetRefs_iff,
      WorkflowStep.targets, WorkflowStep.outcomeTargets, WorkflowStep.choiceTargets]
  | switch cases defaultStep =>
    simp only [collectStepEdges, collectSwitchStep, collectSwitchCase, List.mem_append,
      Option.mem_toList, validateTargetRef_eq_some_iff, List.mem_filterMap,
      List.mem_map, exists_exists_and_eq_and]
    rw [exists_mem_zipIdx_iff cases fun case =>
      name = case.nextStep ∧ workflow.steps.contains name = true]
    simp only [WorkflowStep.targets, WorkflowStep.outcomeTargets, WorkflowStep.choiceTargets,
      List.nil_append, List.mem_append, List.mem_map, List.mem_singleton, or_and_right]
    refine or_congr_left ⟨?_, ?_⟩
    · rintro ⟨case, hcase, rfl, hstep⟩
      exact ⟨⟨case, hcase, rfl⟩, hstep⟩
    · rintro ⟨⟨case, hcase, rfl⟩, hstep⟩
      exact ⟨case, hcase, rfl, hstep⟩
  | parallel fields =>
    simp only [collectStepEdges, collectParallelStep, WorkflowStep.targets, List.mem_append,
      mem_validateTargetRefs_iff, Option.mem_toList, validateTargetRef_eq_some_iff,
      List.mem_singleton, List.map_map, Function.comp_def, List.map_id']
    exact or_and_right.symm
  | join next =>
    simp [collectStepEdges, collectJoinStep, WorkflowStep.targets]
  | retry objective realization onSuccess onExhausted =>
    simp [collectStepEdges, collectRetryStep, mem_validateTargetRefs_iff,
      WorkflowStep.targets, WorkflowStep.outcomeTargets, WorkflowStep.choiceTargets]
  | call workflow terminator =>
    simp [collectStepEdges, collectCallStep, verifyStepTerminatorAndCompensation,
      mem_validateTargetRefs_iff, WorkflowStep.targets, WorkflowStep.outcomeTargets,
      WorkflowStep.choiceTargets]
  | endStep => simp [collectStepEdges, WorkflowStep.targets, WorkflowStep.outcomeTargets,
      WorkflowStep.choiceTargets]

/-! ## Step-state references -/

variable {steps : Dict String WorkflowStep} {workflowName stepName : String}

theorem validateStepStateRef_eq {ref : WorkflowStepStateRef}
    (hresolved : isUnresolvedVar ref.step = false)
    (herrors : (validateStepStateRef steps workflowName stepName ref).2 = []) :
    (validateStepStateRef steps workflowName stepName ref).1 = some ref.step := by
  unfold validateStepStateRef at herrors ⊢
  rw [hresolved, if_neg Bool.false_ne_true] at herrors ⊢
  cases hstep : steps.get? ref.step with
  | none => simp [hstep] at herrors
  | some refStep =>
    simp only [hstep] at herrors ⊢
    by_cases hself : ref.step = stepName
    · simp [hself] at herrors
    · by_cases hobservable : stateObservable refStep.type = false
      · simp [hself, hobservable] at herrors
      · by_cases hinvalid : ref.outcomes.filter (· ∉ observableOutcomes refStep.type) ≠ []
        · simp only [if_neg hself, if_neg hobservable, if_pos hinvalid] at herrors
          exact absurd herrors (List.cons_ne_nil _ _)
        · simp only [if_neg hself, if_neg hobservable, if_neg hinvalid]

theorem mem_validateWorkflowPredicate {sections : Sections} {predicate : WorkflowPredicate}
    {ref : String}
    (herrors : (validateWorkflowPredicate sections steps workflowName stepName predicate).2 = [])
    (href : ref ∈ predicate.steps.map WorkflowStepStateRef.step)
    (hresolved : isUnresolvedVar ref = false) :
    ref ∈ (validateWorkflowPredicate sections steps workflowName stepName predicate).1 := by
  obtain ⟨stepRef, hmem, rfl⟩ := List.mem_map.mp href
  have hstates := (List.append_eq_nil_iff.mp herrors).2
  simp only [validatePredicateStepStates, List.flatMap_eq_nil_iff, List.mem_map,
    forall_exists_index, and_imp, forall_apply_eq_imp_iff₂] at hstates
  refine List.mem_filterMap.mpr ⟨_, List.mem_map.mpr ⟨stepRef, hmem, rfl⟩, ?_⟩
  exact validateStepStateRef_eq hresolved (hstates stepRef hmem)

theorem mem_predicateStepRefs {sections : Sections} {step : WorkflowStep} {ref : String}
    (herrors : (collectStepEdges sections steps workflowName stepName step).errors = [])
    (href : ref ∈ step.stepStateRefs) (hresolved : isUnresolvedVar ref = false) :
    ∃ refs, (collectStepEdges sections steps workflowName stepName step).predicateStepRefs =
      some refs ∧ ref ∈ refs := by
  cases step with
  | decision when thenStep elseStep =>
    refine ⟨_, rfl, ?_⟩
    have hwhen := (List.append_eq_nil_iff.mp herrors).1
    exact mem_validateWorkflowPredicate hwhen (by simpa [WorkflowStep.stepStateRefs,
      WorkflowStep.predicates] using href) hresolved
  | switch cases defaultStep =>
    refine ⟨_, rfl, ?_⟩
    have hcases := (List.append_eq_nil_iff.mp herrors).1
    obtain ⟨predicate, hpredicate, hmem⟩ := List.mem_flatMap.mp href
    obtain ⟨case, hcase, rfl⟩ := List.mem_map.mp hpredicate
    obtain ⟨entry, hentry, rfl⟩ := List.mem_map.mp
      ((List.zipIdx_map_fst 0 cases).symm ▸ hcase : case ∈ cases.zipIdx.map Prod.fst)
    have hone := List.flatMap_eq_nil_iff.mp hcases _ (List.mem_map.mpr ⟨entry, hentry, rfl⟩)
    refine List.mem_flatMap.mpr ⟨_, List.mem_map.mpr ⟨entry, hentry, rfl⟩, ?_⟩
    exact mem_validateWorkflowPredicate (List.append_eq_nil_iff.mp hone).1 hmem hresolved
  | objective _ _ _ | parallel _ | join _ | retry _ _ _ _ | call _ _ | endStep =>
    exact absurd href List.not_mem_nil

section Accepted

variable (sections : Sections) (workflowName : String) (workflow : Workflow)

def controlGraph : Dict String (List String) :=
  (buildWorkflowStepGraph sections workflowName workflow).graph

def reached : List String := reachableSteps workflow (controlGraph sections workflowName workflow)

def available (stepName : String) : List String :=
  availableStepStateBefore
    (availableStateContext workflow (buildWorkflowStepGraph sections workflowName workflow)
      (reached sections workflowName workflow))
    workflow.steps.keys.length [] stepName

def guaranteed (join stepName : String) : List String :=
  branchGuaranteedStates (controlGraph sections workflowName workflow) workflow.steps join
    workflow.steps.keys.length [] stepName

variable {sections workflowName workflow}

theorem get?_collectEdges (stepName : String) :
    (collectEdges sections workflowName workflow).get? stepName =
      (workflow.steps.get? stepName).map
        (collectStepEdges sections workflow.steps workflowName stepName) :=
  Dict.get?_mapValues _ _ _

theorem get?_controlGraph (stepName : String) :
    (controlGraph sections workflowName workflow).get? stepName =
      (workflow.steps.get? stepName).map fun step =>
        (collectStepEdges sections workflow.steps workflowName stepName step).edges := by
  rw [controlGraph, buildWorkflowStepGraph, Dict.get?_mapValues, get?_collectEdges, Option.map_map]
  rfl

@[simp] theorem keys_controlGraph :
    (controlGraph sections workflowName workflow).keys = workflow.steps.keys := by
  simp [controlGraph, buildWorkflowStepGraph, collectEdges]

theorem mem_successorsOf_iff {stepName successor : String} {step : WorkflowStep}
    (hget : workflow.steps.get? stepName = some step) :
    successor ∈ successorsOf (controlGraph sections workflowName workflow) stepName ↔
      successor ∈ step.targets ∧ workflow.steps.contains successor = true := by
  rw [successorsOf, get?_controlGraph, hget, Option.map_some, Option.getD_some, mem_edges_iff]

theorem contains_of_mem_successorsOf {stepName successor : String}
    (h : successor ∈ successorsOf (controlGraph sections workflowName workflow) stepName) :
    successor ∈ (controlGraph sections workflowName workflow).keys := by
  cases hget : workflow.steps.get? stepName with
  | none =>
    rw [successorsOf, get?_controlGraph, hget] at h
    exact absurd h List.not_mem_nil
  | some step =>
    rw [keys_controlGraph, ← Dict.contains_iff]
    exact ((mem_successorsOf_iff hget).mp h).2

/-! ### Reached steps -/

theorem start_mem_reached : workflow.start ∈ reached sections workflowName workflow :=
  Worklist.mem_seen_run _ _ _ _ _ List.mem_cons_self

theorem successor_mem_reached (hstart : workflow.steps.contains workflow.start = true)
    {stepName successor : String} (h : stepName ∈ reached sections workflowName workflow)
    (hedge : successor ∈ successorsOf (controlGraph sections workflowName workflow) stepName) :
    successor ∈ reached sections workflowName workflow := by
  have hkey : workflow.start ∈ (controlGraph sections workflowName workflow).keys := by
    rw [keys_controlGraph]
    exact Dict.contains_iff.mp hstart
  have hempty := Worklist.run_queue_nil
    (successorsOf (controlGraph sections workflowName workflow))
    (controlGraph sections workflowName workflow).keys
    (fun _ _ hy => contains_of_mem_successorsOf hy)
    (controlGraph sections workflowName workflow).keys.length [workflow.start] [workflow.start]
    (by simpa using hkey) (List.nodup_singleton _) (by simp; omega)
  have hclosed := Worklist.run_closed
    (successorsOf (controlGraph sections workflowName workflow))
    (controlGraph sections workflowName workflow).keys.length [workflow.start] [workflow.start]
    (fun _ hx => Or.inl hx) stepName h
  rw [hempty] at hclosed
  exact (hclosed.resolve_left List.not_mem_nil) successor hedge

theorem mem_joinTargetsOf_iff {collected : Dict String StepEdges} {join owner : String} :
    owner ∈ ((joinTargetsOf collected).get? join).getD [] ↔
      ∃ step, collected.get? owner = some step ∧ step.joinTarget = some join := by
  have hnames : ((joinTargetsOf collected).get? join).getD [] =
      (((Dict.collect Prod.fst <| collected.entries.filterMap fun entry =>
        entry.2.joinTarget.map fun j => (j, entry.1)).get? join).getD []).map Prod.snd := by
    rw [joinTargetsOf, Dict.get?_mapValues]
    cases (Dict.collect Prod.fst <| collected.entries.filterMap fun entry =>
      entry.2.joinTarget.map fun j => (j, entry.1)).get? join <;> rfl
  rw [hnames, Dict.getD_collect]
  simp only [List.mem_map, List.mem_filter, List.mem_filterMap, Option.map_eq_some_iff,
    decide_eq_true_eq]
  constructor
  · rintro ⟨_, ⟨⟨entry, hentry, target, htarget, rfl⟩, rfl⟩, rfl⟩
    exact ⟨entry.2, Dict.get?_eq_some_iff.mpr hentry, htarget⟩
  · rintro ⟨step, hget, htarget⟩
    exact ⟨(join, owner), ⟨⟨(owner, step), Dict.get?_eq_some_iff.mp hget, join, htarget,
      rfl⟩, rfl⟩, rfl⟩

section Errors

variable (haccepted : verifyWorkflow sections workflowName workflow = [])
  (hresolved : workflow.Resolved)

include haccepted

theorem build_errors_nil :
    (buildWorkflowStepGraph sections workflowName workflow).errors = [] := by
  simp only [verifyWorkflow, List.append_eq_nil_iff] at haccepted
  exact haccepted.1.1.1.1.2

theorem step_errors_nil {stepName : String} {step : WorkflowStep}
    (hget : workflow.steps.get? stepName = some step) :
    (collectStepEdges sections workflow.steps workflowName stepName step).errors = [] := by
  have herrors := build_errors_nil haccepted
  have hentry : (collectEdges sections workflowName workflow).get? stepName =
      some (collectStepEdges sections workflow.steps workflowName stepName step) := by
    rw [get?_collectEdges, hget, Option.map_some]
  have hmem := Dict.get?_eq_some_iff.mp hentry
  exact (List.append_eq_nil_iff.mp (List.flatMap_eq_nil_iff.mp herrors _ hmem)).2

include hresolved

theorem start_contained : workflow.steps.contains workflow.start = true := by
  simp only [verifyWorkflow, List.append_eq_nil_iff, hresolved.start] at haccepted
  by_contra hstart
  simp [hstart] at haccepted

theorem stepStateRef_available {stepName ref : String} {step : WorkflowStep}
    (hget : workflow.steps.get? stepName = some step)
    (hreached : stepName ∈ reached sections workflowName workflow)
    (href : ref ∈ step.stepStateRefs) : ref ∈ available sections workflowName workflow stepName := by
  have hrefResolved : isUnresolvedVar ref = false :=
    hresolved.stepStateRefs step (Dict.mem_values_iff.mpr ⟨stepName, hget⟩) ref href
  obtain ⟨refs, hrefs, hmem⟩ := mem_predicateStepRefs (step_errors_nil haccepted hget) href
    hrefResolved
  have hstart := start_contained haccepted hresolved
  simp only [verifyWorkflow, List.append_eq_nil_iff, hresolved.start, hstart,
    Bool.false_eq_true, Bool.true_eq_false, or_self, if_false] at haccepted
  have hchecks : verifyPredicateAvailableState workflowName workflow
      (buildWorkflowStepGraph sections workflowName workflow)
      (reached sections workflowName workflow) = [] := haccepted.2.1.2
  have hentry : (collectEdges sections workflowName workflow).get? stepName =
      some (collectStepEdges sections workflow.steps workflowName stepName step) := by
    rw [get?_collectEdges, hget, Option.map_some]
  have hlisted : (stepName, refs) ∈
      (buildWorkflowStepGraph sections workflowName workflow).predicateStepRefs :=
    List.mem_filterMap.mpr ⟨_, Dict.get?_eq_some_iff.mp hentry, by simp [hrefs]⟩
  have hone := List.flatMap_eq_nil_iff.mp hchecks _ hlisted
  rw [if_pos hreached] at hone
  have hknown := List.flatMap_eq_nil_iff.mp hone ref hmem
  by_contra hunknown
  rw [if_neg] at hknown
  · exact absurd hknown (List.cons_ne_nil _ _)
  · rw [hrefResolved]
    exact not_or.mpr ⟨Bool.false_ne_true, hunknown⟩

omit hresolved in
theorem joinTargets_length_le {join : String} (hjoin : workflow.steps.contains join = true)
    {sources : List String}
    (hsources : (buildWorkflowStepGraph sections workflowName workflow).joinTargets.get? join =
      some sources) : sources.length ≤ 1 := by
  simp only [verifyWorkflow, List.append_eq_nil_iff] at haccepted
  have hchecks : verifyWorkflowJoinTargets workflowName workflow
      (buildWorkflowStepGraph sections workflowName workflow).joinTargets = [] :=
    haccepted.1.1.1.2
  have hone := List.flatMap_eq_nil_iff.mp hchecks _ (Dict.get?_eq_some_iff.mp hsources)
  rw [verifyWorkflowJoinTarget, not_variable_of_portable (portable_of_contains hjoin),
    if_neg Bool.false_ne_true] at hone
  have hlength := (List.append_eq_nil_iff.mp hone).2
  by_contra hlong
  rw [if_pos (by simpa using hlong)] at hlength
  exact absurd hlength (List.cons_ne_nil _ _)

omit hresolved in
theorem joinOwner_eq {owner next : String} {fields : ParallelStep}
    (howner : workflow.steps.get? owner = some (.parallel fields))
    (hjoin : workflow.steps.get? fields.join = some (.join next)) :
    joinOwner (availableStateContext workflow
      (buildWorkflowStepGraph sections workflowName workflow)
      (reached sections workflowName workflow)) fields.join (.join next) = some owner := by
  have hcontains : workflow.steps.contains fields.join = true :=
    Dict.contains_iff.mpr (Dict.mem_keys_iff.mpr ⟨_, hjoin⟩)
  have hentry : (collectEdges sections workflowName workflow).get? owner =
      some (collectStepEdges sections workflow.steps workflowName owner (.parallel fields)) := by
    rw [get?_collectEdges, howner, Option.map_some]
  have htarget : (collectStepEdges sections workflow.steps workflowName owner
      (.parallel fields)).joinTarget = some fields.join :=
    validateTargetRef_eq_some_iff.mpr ⟨rfl, hcontains⟩
  have hlisted : owner ∈ (((buildWorkflowStepGraph sections workflowName workflow).joinTargets.get?
      fields.join).getD []) :=
    mem_joinTargetsOf_iff.mpr ⟨_, hentry, htarget⟩
  rw [joinOwner, if_pos (show (WorkflowStep.join next).type = .join from rfl)]
  cases hsources : (buildWorkflowStepGraph sections workflowName workflow).joinTargets.get?
      fields.join with
  | none => simp [hsources] at hlisted
  | some sources =>
    have hlength := joinTargets_length_le haccepted hcontains hsources
    rw [hsources, Option.getD_some] at hlisted
    rw [show (availableStateContext workflow
      (buildWorkflowStepGraph sections workflowName workflow) _).joinTargets.get? fields.join =
        some sources from hsources, Option.getD_some]
    cases sources with
    | nil => cases hlisted
    | cons source rest =>
      obtain rfl : rest = [] := List.length_eq_zero_iff.mp (by simpa using hlength)
      rw [List.mem_singleton.mp hlisted, List.head?_cons]

end Errors

section Edges

variable (haccepted : verifyWorkflow sections workflowName workflow = [])
  (hresolved : workflow.Resolved)

include haccepted hresolved

theorem available_edge {stepName successor : String} {step next : WorkflowStep}
    (hget : workflow.steps.get? stepName = some step)
    (hreached : stepName ∈ reached sections workflowName workflow)
    (htarget : successor ∈ step.targets)
    (hsuccessor : workflow.steps.get? successor = some next) (hnext : next.type ≠ .join)
    {name : String} (h : name ∈ available sections workflowName workflow successor) :
    (name = stepName ∧ providesOwnState step successor = true) ∨
      name ∈ available sections workflowName workflow stepName := by
  have hcontains : workflow.steps.contains successor = true :=
    Dict.contains_iff.mpr (Dict.mem_keys_iff.mpr ⟨_, hsuccessor⟩)
  have hkey : stepName ∈ workflow.steps.keys := Dict.mem_keys_iff.mpr ⟨_, hget⟩
  have hedge : successor ∈ successorsOf (controlGraph sections workflowName workflow) stepName :=
    (mem_successorsOf_iff hget).mpr ⟨htarget, hcontains⟩
  have hsuccessorReached := successor_mem_reached (start_contained haccepted hresolved) hreached
    hedge
  have hpredecessor : stepName ∈ buildPredecessors (controlGraph sections workflowName workflow)
      (reached sections workflowName workflow) successor := by
    rw [buildPredecessors, if_pos hsuccessorReached, List.mem_filter, keys_controlGraph]
    exact ⟨hkey, by simp [hreached, hedge]⟩
  have hmem := availableStepStateBefore_edge
    (availableStateContext workflow (buildWorkflowStepGraph sections workflowName workflow)
      (reached sections workflowName workflow)) workflow.steps.keys.length hsuccessor
    (by rw [joinOwner, if_neg hnext]) hpredecessor (Dict.contains_iff.mpr hkey) h
  rw [edgeAvailableState, show (availableStateContext workflow _ _).workflowSteps.get? stepName =
    some step from hget] at hmem
  by_cases hown : providesOwnState step successor = true
  · simp only [if_pos hown, List.mem_cons] at hmem
    exact hmem.imp_left fun hname => ⟨hname, hown⟩
  · simp only [if_neg hown] at hmem
    exact Or.inr hmem

omit hresolved in
theorem available_join {owner next : String} {fields : ParallelStep}
    (howner : workflow.steps.get? owner = some (.parallel fields))
    (hjoin : workflow.steps.get? fields.join = some (.join next)) {name : String}
    (h : name ∈ available sections workflowName workflow fields.join) :
    name ∈ available sections workflowName workflow owner ∨ name = owner ∨
      ∃ branch ∈ fields.branches, workflow.steps.contains branch = true ∧
        name ∈ guaranteed sections workflowName workflow fields.join branch := by
  rcases availableStepStateBefore_join _ _ hjoin (joinOwner_eq haccepted howner hjoin) h with
    hbefore | hself | hbranch
  · exact Or.inl hbefore
  · exact Or.inr (Or.inl hself)
  · apply Or.inr ∘ Or.inr
    rw [joinGuaranteedStates, show (availableStateContext workflow _ _).workflowSteps.get? owner =
      some (.parallel fields) from howner] at hbranch
    obtain ⟨branch, hmem, hname⟩ := List.mem_flatMap.mp hbranch
    rw [List.mem_filter] at hmem
    exact ⟨branch, hmem.1, hmem.2, hname⟩

end Edges

theorem guaranteed_edge {join stepName successor : String} {step : WorkflowStep}
    (hget : workflow.steps.get? stepName = some step) (htarget : successor ∈ step.targets)
    (hcontains : workflow.steps.contains successor = true) {name : String}
    (h : name ∈ guaranteed sections workflowName workflow join stepName) :
    (name = stepName ∧ isExecutableWorkflowStep step = true) ∨
      name ∈ guaranteed sections workflowName workflow join successor := by
  have hedge : successor ∈ successorsOf (controlGraph sections workflowName workflow) stepName :=
    (mem_successorsOf_iff hget).mpr ⟨htarget, hcontains⟩
  refine (branchGuaranteedStates_edge _ hedge hcontains h).imp_left ?_
  rintro ⟨hname, found, hfound, hexecutable⟩
  rw [hget, Option.some.injEq] at hfound
  exact ⟨hname, hfound ▸ hexecutable⟩

end Accepted

end Workflow

end Raes.Orchestration
