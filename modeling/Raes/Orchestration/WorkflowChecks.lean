import Mathlib.Data.List.Sort
import Raes.Graph.Cycles
import Raes.Lib.Worklist
import Raes.Orchestration.Steps

/-!
# The step state known before a predicate

The data-flow pass of `validator/_workflows_analysis.py`.  A step state is
available before a step when every way into the step provides it.  A join takes
what its owning parallel step had available, the parallel step itself, and what
each branch guarantees on all its paths to the join.

The recursions carry the steps that they are visiting, and one unit of fuel for
each step that they are not.  The memo of the source caches the results, which
changes nothing unless the graph has a cycle, and a cycle is an error of its own.
-/

namespace Raes.Orchestration

def intersection : List (List String) → List String
  | [] => []
  | states :: rest => states.filter fun name => ∀ other ∈ rest, name ∈ other

theorem mem_intersection_iff {name : String} {sets : List (List String)} :
    name ∈ intersection sets ↔ sets ≠ [] ∧ ∀ states ∈ sets, name ∈ states := by
  cases sets with
  | nil => simp [intersection]
  | cons states rest => simp [intersection]

def successorsOf (graph : Dict String (List String)) (node : String) : List String :=
  (graph.get? node).getD []

section Branches

variable (graph : Dict String (List String)) (steps : Dict String WorkflowStep) (join : String)

def allPathsReachJoin : ℕ → List String → String → Bool
  | 0, _, node => node == join
  | fuel + 1, visiting, node =>
    if node = join then true
    else if node ∈ visiting then false
    else
      let successors := successorsOf graph node
      !successors.isEmpty && successors.all (allPathsReachJoin fuel (node :: visiting))

def branchGuaranteedStates : ℕ → List String → String → List String
  | 0, _, _ => []
  | fuel + 1, visiting, node =>
    if node = join ∨ node ∈ visiting then []
    else match steps.get? node with
      | none => []
      | some step =>
        let guaranteedAfter := intersection <|
          ((successorsOf graph node).filter fun s => s = join ∨ steps.contains s = true).map
            fun s => if s = join then [] else branchGuaranteedStates fuel (node :: visiting) s
        if isExecutableWorkflowStep step then node :: guaranteedAfter else guaranteedAfter

def branchClosure (branches : List String) : List String :=
  let start := branches.filter (· ≠ join)
  (Worklist.run (fun node => (successorsOf graph node).filter (· ≠ join)) graph.keys.length
    start start).2

end Branches

/-! ## Available states -/

structure AvailableStateContext where
  workflowSteps : Dict String WorkflowStep
  graph : Dict String (List String)
  predecessors : String → List String
  start : String
  joinTargets : Dict String (List String)

/-- Leaving a step by an edge makes its own state known. -/
def providesOwnState (step : WorkflowStep) (successor : String) : Bool :=
  match step with
  | .objective .. | .retry .. | .call .. => true
  | .parallel fields => fields.onFailure != "" && successor == fields.onFailure
  | .decision .. | .switch .. | .join .. | .endStep => false

variable (ctx : AvailableStateContext)

def edgeAvailableState (stepName successor : String) (available : List String) : List String :=
  match ctx.workflowSteps.get? stepName with
  | none => available
  | some step => if providesOwnState step successor then stepName :: available else available

def joinOwner (stepName : String) (step : WorkflowStep) : Option String :=
  if step.type = .join then ((ctx.joinTargets.get? stepName).getD []).head? else none

def joinGuaranteedStates (stepName owner : String) : List String :=
  match ctx.workflowSteps.get? owner with
  | some (.parallel fields) =>
    (fields.branches.filter fun branch => ctx.workflowSteps.contains branch).flatMap fun branch =>
      branchGuaranteedStates ctx.graph ctx.workflowSteps stepName ctx.workflowSteps.keys.length []
        branch
  | _ => []

def availableStepStateBefore (ctx : AvailableStateContext) :
    ℕ → List String → String → List String
  | 0, _, _ => []
  | fuel + 1, visiting, stepName =>
    if stepName ∈ visiting then []
    else match ctx.workflowSteps.get? stepName with
      | none => []
      | some step =>
        if stepName = ctx.start then []
        else match joinOwner ctx stepName step with
          | some owner =>
            availableStepStateBefore ctx fuel (stepName :: visiting) owner ++
              owner :: joinGuaranteedStates ctx stepName owner
          | none =>
            intersection <|
              ((ctx.predecessors stepName).filter fun p => ctx.workflowSteps.contains p).map
                fun predecessor =>
                  edgeAvailableState ctx predecessor stepName
                    (availableStepStateBefore ctx fuel (stepName :: visiting) predecessor)

section Guaranteed

variable {graph : Dict String (List String)} {steps : Dict String WorkflowStep} {join : String}

theorem mem_branchGuaranteedStates_iff (fuel : ℕ) (visiting : List String) (node name : String) :
    name ∈ branchGuaranteedStates graph steps join (fuel + 1) visiting node ↔
      node ≠ join ∧ node ∉ visiting ∧ ∃ step, steps.get? node = some step ∧
        ((isExecutableWorkflowStep step = true ∧ name = node) ∨
          name ∈ intersection
            (((successorsOf graph node).filter fun s => s = join ∨ steps.contains s = true).map
              fun s => if s = join then [] else
                branchGuaranteedStates graph steps join fuel (node :: visiting) s)) := by
  rw [branchGuaranteedStates]
  by_cases hcut : node = join ∨ node ∈ visiting
  · rw [if_pos hcut]
    rcases hcut with h | h <;> simp [h]
  · rw [if_neg hcut]
    rw [not_or] at hcut
    cases hstep : steps.get? node with
    | none => simp
    | some step =>
      cases hexec : isExecutableWorkflowStep step <;> simp [hcut, hexec]

theorem branchGuaranteedStates_subset {fuel fuel' : ℕ} (hfuel : fuel ≤ fuel')
    {visiting visiting' : List String} (hvisiting : visiting' ⊆ visiting) (node : String) :
    branchGuaranteedStates graph steps join fuel visiting node ⊆
      branchGuaranteedStates graph steps join fuel' visiting' node := by
  induction fuel generalizing fuel' visiting visiting' node with
  | zero => exact List.nil_subset _
  | succ fuel ih =>
    obtain ⟨larger, rfl⟩ : ∃ larger, fuel' = larger + 1 := ⟨fuel' - 1, by omega⟩
    intro name hname
    rw [mem_branchGuaranteedStates_iff] at hname ⊢
    obtain ⟨hjoin, hnode, step, hstep, hcase⟩ := hname
    refine ⟨hjoin, fun h => hnode (hvisiting h), step, hstep, ?_⟩
    rcases hcase with hself | hafter
    · exact Or.inl hself
    · apply Or.inr
      rw [mem_intersection_iff] at hafter ⊢
      refine ⟨by simpa using hafter.1, ?_⟩
      intro states hstates
      obtain ⟨s, hs, rfl⟩ := List.mem_map.mp hstates
      have hmem := hafter.2 _ (List.mem_map.mpr ⟨s, hs, rfl⟩)
      by_cases hsjoin : s = join
      · rw [if_pos hsjoin] at hmem
        exact absurd hmem List.not_mem_nil
      · rw [if_neg hsjoin] at hmem ⊢
        exact ih (by omega) (List.cons_subset_cons node hvisiting) s hmem

theorem branchGuaranteedStates_edge (fuel : ℕ) {node successor : String}
    (hedge : successor ∈ successorsOf graph node) (hstep : steps.contains successor = true)
    {name : String} (h : name ∈ branchGuaranteedStates graph steps join fuel [] node) :
    (name = node ∧ ∃ step, steps.get? node = some step ∧ isExecutableWorkflowStep step = true) ∨
      name ∈ branchGuaranteedStates graph steps join fuel [] successor := by
  cases fuel with
  | zero => exact absurd h List.not_mem_nil
  | succ fuel =>
    rw [mem_branchGuaranteedStates_iff] at h
    obtain ⟨-, -, step, hget, ⟨hexec, rfl⟩ | hafter⟩ := h
    · exact Or.inl ⟨rfl, step, hget, hexec⟩
    · apply Or.inr
      have hmem := mem_intersection_iff.mp hafter |>.2 _
        (List.mem_map.mpr ⟨successor, List.mem_filter.mpr ⟨hedge, by simp [hstep]⟩, rfl⟩)
      by_cases hjoin : successor = join
      · rw [if_pos hjoin] at hmem
        exact absurd hmem List.not_mem_nil
      · rw [if_neg hjoin] at hmem
        exact branchGuaranteedStates_subset (Nat.le_succ fuel) (List.nil_subset _) successor hmem

@[simp] theorem branchGuaranteedStates_join (fuel : ℕ) (visiting : List String) :
    branchGuaranteedStates graph steps join fuel visiting join = [] := by
  cases fuel with
  | zero => rfl
  | succ fuel => rw [branchGuaranteedStates, if_pos (Or.inl rfl)]

end Guaranteed

section Available

variable (ctx : AvailableStateContext)

theorem edgeAvailableState_subset {available available' : List String}
    (h : available ⊆ available') (stepName successor : String) :
    edgeAvailableState ctx stepName successor available ⊆
      edgeAvailableState ctx stepName successor available' := by
  unfold edgeAvailableState
  cases ctx.workflowSteps.get? stepName with
  | none => exact h
  | some step =>
    by_cases hown : providesOwnState step successor = true
    · simp only [hown, if_true]
      exact List.cons_subset_cons stepName h
    · simp only [hown]
      exact h

theorem availableStepStateBefore_subset {fuel fuel' : ℕ} (hfuel : fuel ≤ fuel')
    {visiting visiting' : List String} (hvisiting : visiting' ⊆ visiting) (stepName : String) :
    availableStepStateBefore ctx fuel visiting stepName ⊆
      availableStepStateBefore ctx fuel' visiting' stepName := by
  induction fuel generalizing fuel' visiting visiting' stepName with
  | zero => exact List.nil_subset _
  | succ fuel ih =>
    obtain ⟨larger, rfl⟩ : ∃ larger, fuel' = larger + 1 := ⟨fuel' - 1, by omega⟩
    have hrec : ∀ name, availableStepStateBefore ctx fuel (stepName :: visiting) name ⊆
        availableStepStateBefore ctx larger (stepName :: visiting') name := fun name =>
      ih (by omega) (List.cons_subset_cons stepName hvisiting) name
    rw [availableStepStateBefore, availableStepStateBefore]
    by_cases hvisited : stepName ∈ visiting
    · rw [if_pos hvisited]
      exact List.nil_subset _
    · rw [if_neg hvisited, if_neg fun h => hvisited (hvisiting h)]
      cases ctx.workflowSteps.get? stepName with
      | none => exact List.Subset.refl _
      | some step =>
        by_cases hstart : stepName = ctx.start
        · simp only [hstart, if_true]
          exact List.Subset.refl _
        · simp only [if_neg hstart]
          cases joinOwner ctx stepName step with
          | some owner =>
            intro name hname
            rw [List.mem_append] at hname ⊢
            exact hname.imp (fun h => hrec owner h) id
          | none =>
            intro name hname
            rw [mem_intersection_iff] at hname ⊢
            refine ⟨by simpa using hname.1, ?_⟩
            intro states hstates
            obtain ⟨p, hp, rfl⟩ := List.mem_map.mp hstates
            exact edgeAvailableState_subset ctx (hrec p) p stepName
              (hname.2 _ (List.mem_map.mpr ⟨p, hp, rfl⟩))

@[simp] theorem availableStepStateBefore_start (fuel : ℕ) (visiting : List String) :
    availableStepStateBefore ctx fuel visiting ctx.start = [] := by
  cases fuel with
  | zero => rfl
  | succ fuel =>
    rw [availableStepStateBefore]
    by_cases hvisited : ctx.start ∈ visiting
    · rw [if_pos hvisited]
    · rw [if_neg hvisited]
      cases ctx.workflowSteps.get? ctx.start with
      | none => rfl
      | some step => simp

/-- A step that is not an owned join has available what each way into it provides. -/
theorem availableStepStateBefore_edge (fuel : ℕ) {stepName predecessor : String}
    {step : WorkflowStep} (hget : ctx.workflowSteps.get? stepName = some step)
    (howner : joinOwner ctx stepName step = none) (hedge : predecessor ∈ ctx.predecessors stepName)
    (hpredecessor : ctx.workflowSteps.contains predecessor = true) :
    availableStepStateBefore ctx fuel [] stepName ⊆
      edgeAvailableState ctx predecessor stepName
        (availableStepStateBefore ctx fuel [] predecessor) := by
  cases fuel with
  | zero => exact List.nil_subset _
  | succ fuel =>
    rw [availableStepStateBefore, if_neg List.not_mem_nil, hget]
    by_cases hstart : stepName = ctx.start
    · simp [hstart]
    · simp only [if_neg hstart, howner]
      intro name hname
      have hmem := mem_intersection_iff.mp hname |>.2 _
        (List.mem_map.mpr ⟨predecessor, List.mem_filter.mpr ⟨hedge, by simp [hpredecessor]⟩, rfl⟩)
      exact edgeAvailableState_subset ctx
        (availableStepStateBefore_subset ctx (Nat.le_succ fuel) (List.nil_subset _) predecessor)
        predecessor stepName hmem

theorem availableStepStateBefore_join (fuel : ℕ) {stepName owner : String} {step : WorkflowStep}
    (hget : ctx.workflowSteps.get? stepName = some step)
    (howner : joinOwner ctx stepName step = some owner) {name : String}
    (h : name ∈ availableStepStateBefore ctx fuel [] stepName) :
    name ∈ availableStepStateBefore ctx fuel [] owner ∨ name = owner ∨
      name ∈ joinGuaranteedStates ctx stepName owner := by
  cases fuel with
  | zero => exact absurd h List.not_mem_nil
  | succ fuel =>
    rw [availableStepStateBefore, if_neg List.not_mem_nil, hget] at h
    by_cases hstart : stepName = ctx.start
    · simp [hstart] at h
    · simp only [if_neg hstart, howner, List.mem_append, List.mem_cons] at h
      exact h.imp_left fun hmem =>
        availableStepStateBefore_subset ctx (Nat.le_succ fuel) (List.nil_subset _) owner hmem

end Available

end Raes.Orchestration

/-!
# The checks of a workflow

`_verify_workflow` of `validator/_workflows_verify.py`.  A workflow is accepted
when the list of its errors is empty.  The last section states what an accepted
workflow satisfies.
-/

namespace Raes.Orchestration

/-! ## The build state -/

structure WorkflowBuildState where
  graph : Dict String (List String)
  predicateStepRefs : List (String × List String)
  joinTargets : Dict String (List String)
  errors : List String

def stepNameErrors (workflowName stepName : String) : List String :=
  if '.' ∈ stepName.toList then
    [s!"Workflow '{workflowName}' step '{stepName}' cannot contain '.' because objective windows " ++
      s!"use '<workflow>.<step>' syntax"]
  else []

def collectEdges (sections : Sections) (workflowName : String) (workflow : Workflow) :
    Dict String StepEdges :=
  workflow.steps.mapValues fun stepName step =>
    collectStepEdges sections workflow.steps workflowName stepName step

def joinTargetsOf (collected : Dict String StepEdges) : Dict String (List String) :=
  (Dict.collect Prod.fst <| collected.entries.filterMap fun entry =>
    entry.2.joinTarget.map fun join => (join, entry.1)).mapValues fun _ pairs => pairs.map Prod.snd

def buildWorkflowStepGraph (sections : Sections) (workflowName : String) (workflow : Workflow) :
    WorkflowBuildState :=
  let collected := collectEdges sections workflowName workflow
  { graph := collected.mapValues fun _ step => step.edges
    predicateStepRefs := collected.entries.filterMap fun entry =>
      entry.2.predicateStepRefs.map fun refs => (entry.1, refs)
    joinTargets := joinTargetsOf collected
    errors := collected.entries.flatMap fun entry =>
      stepNameErrors workflowName entry.1 ++ entry.2.errors }

section Checks

variable (workflowName : String) (workflow : Workflow)

def verifyWorkflowJoinTarget (join : String) (sources : List String) : List String :=
  if isUnresolvedVar join then [] else
  (match workflow.steps.get? join with
    | some step =>
      if step.type = .join then [] else
      [s!"Workflow '{workflowName}' step '{join}' is used as a parallel join but is not a join step"]
    | none => []) ++
  if sources.length > 1 then
    [s!"Workflow '{workflowName}' join step '{join}' may only be targeted by one parallel step"]
  else []

def verifyWorkflowJoinTargets (joinTargets : Dict String (List String)) : List String :=
  joinTargets.entries.flatMap fun entry =>
    verifyWorkflowJoinTarget workflowName workflow entry.1 entry.2

def verifyWorkflowUnreferencedJoins (joinTargets : Dict String (List String)) : List String :=
  workflow.steps.entries.flatMap fun entry =>
    if entry.2.type = .join ∧ (joinTargets.get? entry.1).getD [] = [] then
      [s!"Workflow '{workflowName}' join step '{entry.1}' is not referenced by any parallel step"]
    else []

def reachableSteps (graph : Dict String (List String)) : List String :=
  (Worklist.run (successorsOf graph) graph.keys.length [workflow.start] [workflow.start]).2

def sortedNames (names : List String) : List String := names.insertionSort (· ≤ ·)

def verifyWorkflowReachability (reachable : List String) : List String :=
  let unreachable := workflow.steps.keys.filter (· ∉ reachable)
  if unreachable = [] then [] else
  [s!"Workflow '{workflowName}' contains unreachable steps: " ++
    ", ".intercalate (sortedNames unreachable)]

variable (graph : Dict String (List String))

/-- The reachable sources of the edges into a reachable step. -/
def buildPredecessors (reachable : List String) (target : String) : List String :=
  if target ∈ reachable then
    graph.keys.filter fun source => source ∈ reachable ∧ target ∈ successorsOf graph source
  else []

/-! ## Parallel steps -/

def verifyParallelJoinClosure (reachable : List String) (fields : ParallelStep) : List String :=
  if isUnresolvedVar fields.join ∨ workflow.steps.contains fields.join = false ∨
      fields.join ∉ reachable then []
  else
    let allowedPredecessors := branchClosure graph fields.join
      (fields.branches.filter fun branch =>
        branch ∈ reachable ∧ workflow.steps.contains branch = true)
    let foreignPredecessors := (buildPredecessors graph reachable fields.join).filter
      (· ∉ allowedPredecessors)
    if foreignPredecessors = [] then [] else
    [s!"Workflow '{workflowName}' join step '{fields.join}' may only be entered from the owning " ++
      s!"parallel's branch closure; unexpected predecessors: " ++
      ", ".intercalate (sortedNames foreignPredecessors)]

def verifyParallelJoinClosures (reachable : List String) : List String :=
  workflow.steps.values.flatMap fun step =>
    match step with
    | .parallel fields => verifyParallelJoinClosure workflowName workflow graph reachable fields
    | _ => []

def verifyBranchConvergence (stepName : String) (fields : ParallelStep) : List String :=
  if isUnresolvedVar fields.join ∨ workflow.steps.contains fields.join = false then []
  else fields.branches.flatMap fun branch =>
    if isUnresolvedVar branch ∨ workflow.steps.contains branch = false then []
    else if allPathsReachJoin graph fields.join graph.keys.length [] branch then []
    else
      [s!"Workflow '{workflowName}' parallel step '{stepName}' requires every explicit branch " ++
        s!"path from '{branch}' to converge on join '{fields.join}'"]

def verifyParallelBranchConvergence (graph : Dict String (List String)) : List String :=
  workflow.steps.entries.flatMap fun entry =>
    match entry.2 with
    | .parallel fields => verifyBranchConvergence workflowName workflow graph entry.1 fields
    | _ => []

/-! ## Predicates -/

def availableStateContext (build : WorkflowBuildState) (reachable : List String) :
    AvailableStateContext where
  workflowSteps := workflow.steps
  graph := build.graph
  predecessors := buildPredecessors build.graph reachable
  start := workflow.start
  joinTargets := build.joinTargets

def verifyPredicateRefsAvailable (stepName : String) (refs availableBefore : List String) :
    List String :=
  refs.flatMap fun refName =>
    if isUnresolvedVar refName ∨ refName ∈ availableBefore then [] else
    [s!"Workflow '{workflowName}' step '{stepName}' references step state '{refName}' that is " ++
      s!"not guaranteed to be known before this predicate"]

def verifyPredicateAvailableState (build : WorkflowBuildState) (reachable : List String) :
    List String :=
  build.predicateStepRefs.flatMap fun entry =>
    if entry.1 ∈ reachable then
      verifyPredicateRefsAvailable workflowName entry.1 entry.2 <|
        availableStepStateBefore (availableStateContext workflow build reachable)
          workflow.steps.keys.length [] entry.1
    else []

end Checks

/-! ## The whole workflow -/

/-- The errors of a workflow in the order in which the validator records them. -/
def verifyWorkflow (sections : Sections) (workflowName : String) (workflow : Workflow) :
    List String :=
  let startDefined := workflow.steps.contains workflow.start
  let build := buildWorkflowStepGraph sections workflowName workflow
  let reachable := reachableSteps workflow build.graph
  (if isUnresolvedVar workflow.start ∨ startDefined = true then []
    else [s!"Workflow '{workflowName}' start step '{workflow.start}' is not defined"]) ++
  build.errors ++
  verifyWorkflowJoinTargets workflowName workflow build.joinTargets ++
  verifyWorkflowUnreferencedJoins workflowName workflow build.joinTargets ++
  (if Graph.hasCycle build.graph then [s!"Workflow '{workflowName}' graph contains a cycle"]
    else []) ++
  if isUnresolvedVar workflow.start ∨ startDefined = false then []
  else
    verifyWorkflowReachability workflowName workflow reachable ++
    verifyParallelJoinClosures workflowName workflow build.graph reachable ++
    verifyPredicateAvailableState workflowName workflow build reachable ++
    verifyParallelBranchConvergence workflowName workflow build.graph

end Raes.Orchestration
