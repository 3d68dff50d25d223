import Raes.Orchestration.AcceptedWorkflow

/-!
# Runs of the control graph

Control stands at one step, or at a parallel step whose branches run side by
side.  A parallel step completes when every branch stands at its join, and
control goes on after the join, or when it fails.  The other executable steps
complete when control leaves them.

A predicate is evaluated when control stands at its step.  The theorem is that
in a workflow without errors every step state that the predicate refers to has
been completed by then, in each run that enters no join from outside the
branches of its parallel step, and forks no parallel step whose failure target
is one of its branches.
-/

namespace Raes.Orchestration

/-! ## Control -/

inductive Control where
  | active (stepName : String)
  | forked (owner : String) (threads : List Control)
  | ended

/-- What a step of a run does at a workflow step. -/
inductive Move where
  | completes (stepName : String)
  | chooses (stepName : String)
  | passes (stepName : String)
  | forks (stepName : String)
  deriving DecidableEq, Repr

def Move.completed : Move → List String
  | .completes stepName => [stepName]
  | .chooses _ | .passes _ | .forks _ => []

/-- One step of control.  The first index is the join of the innermost parallel
step that the control runs in. -/
inductive ControlStep (steps : Dict String WorkflowStep) :
    Option String → Control → Move → Control → Prop
  | complete {frame : Option String} {stepName target : String} {step : WorkflowStep}
      (hget : steps.get? stepName = some step) (htarget : target ∈ step.outcomeTargets)
      (hstep : steps.contains target = true) :
      ControlStep steps frame (.active stepName) (.completes stepName) (.active target)
  | finish {frame : Option String} {stepName : String} {step : WorkflowStep}
      (hget : steps.get? stepName = some step) (htarget : "" ∈ step.outcomeTargets) :
      ControlStep steps frame (.active stepName) (.completes stepName) .ended
  | choose {frame : Option String} {stepName target : String} {step : WorkflowStep}
      (hget : steps.get? stepName = some step) (htarget : target ∈ step.choiceTargets)
      (hstep : steps.contains target = true) :
      ControlStep steps frame (.active stepName) (.chooses stepName) (.active target)
  | pass {frame : Option String} {stepName next : String}
      (hget : steps.get? stepName = some (.join next)) (hframe : frame ≠ some stepName)
      (hstep : steps.contains next = true) :
      ControlStep steps frame (.active stepName) (.passes stepName) (.active next)
  | fork {frame : Option String} {stepName : String} {fields : ParallelStep}
      (hget : steps.get? stepName = some (.parallel fields))
      (hbranches : ∀ branch ∈ fields.branches, steps.contains branch = true) :
      ControlStep steps frame (.active stepName) (.forks stepName)
        (.forked stepName (fields.branches.map .active))
  | thread {frame : Option String} {owner : String} {fields : ParallelStep}
      {threads : List Control} {i : ℕ} {thread thread' : Control} {move : Move}
      (hget : steps.get? owner = some (.parallel fields)) (hthread : threads[i]? = some thread)
      (hstep : ControlStep steps (some fields.join) thread move thread') :
      ControlStep steps frame (.forked owner threads) move (.forked owner (threads.set i thread'))
  | converge {frame : Option String} {owner next : String} {fields : ParallelStep}
      {threads : List Control} (hget : steps.get? owner = some (.parallel fields))
      (hjoin : steps.get? fields.join = some (.join next))
      (hthreads : ∀ thread ∈ threads, thread = .active fields.join)
      (hstep : steps.contains next = true) :
      ControlStep steps frame (.forked owner threads) (.completes owner) (.active next)
  | fail {frame : Option String} {owner : String} {fields : ParallelStep} {threads : List Control}
      (hget : steps.get? owner = some (.parallel fields))
      (hstep : steps.contains fields.onFailure = true) :
      ControlStep steps frame (.forked owner threads) (.completes owner)
        (.active fields.onFailure)
  | abandon {frame : Option String} {owner : String} {fields : ParallelStep}
      {threads : List Control} (hget : steps.get? owner = some (.parallel fields))
      (habsent : fields.onFailure = "") :
      ControlStep steps frame (.forked owner threads) (.completes owner) .ended

/-! ## Runs -/

/-- A state of a run: the steps completed so far, and control. -/
structure RunState where
  completed : List String
  control : Control

namespace Workflow

variable (workflow : Workflow)

def initial : RunState := ⟨[], .active workflow.start⟩

def Moves (s : RunState) (move : Move) (t : RunState) : Prop :=
  ControlStep workflow.steps none s.control move t.control ∧
    t.completed = s.completed ++ move.completed

def Reachable (s : RunState) : Prop :=
  Relation.ReflTransGen (fun s t => ∃ move, workflow.Moves s move t) workflow.initial s

/-- The move passes no join from outside the branches of its parallel step, and
forks no parallel step whose failure target is one of its branches. -/
def Orderly : Move → Prop
  | .passes _ => False
  | .forks stepName => ∀ fields, workflow.steps.get? stepName = some (.parallel fields) →
      fields.onFailure ∉ fields.branches
  | .completes _ | .chooses _ => True

def OrderlyReachable (s : RunState) : Prop :=
  Relation.ReflTransGen (fun s t => ∃ move, workflow.Orderly move ∧ workflow.Moves s move t)
    workflow.initial s

end Workflow

inductive Control.At : Control → String → Prop
  | active (stepName : String) : Control.At (.active stepName) stepName
  | thread {owner : String} {threads : List Control} {thread : Control} {stepName : String}
      (hthread : thread ∈ threads) (hat : Control.At thread stepName) :
      Control.At (.forked owner threads) stepName

/-- Wherever control stands at a step with predicates, every step whose state
they refer to has been completed. -/
def Workflow.PredicatesKnown (workflow : Workflow) (s : RunState) : Prop :=
  ∀ stepName step, s.control.At stepName → workflow.steps.get? stepName = some step →
    ∀ ref ∈ step.stepStateRefs, ref ∈ s.completed

/-! ## The invariant -/

/-- Step states that are completed before control passes a join. -/
structure Obligation where
  join : String
  states : List String

/-- The obligation inside a branch of a parallel step.  The parallel step itself
is completed only when its branches have joined. -/
def Obligation.inside (owner : String) (o : Obligation) : Obligation :=
  { o with states := o.states.filter (· ≠ owner) }

section Sound

variable (sections : Sections) (workflowName : String) (workflow : Workflow)

/-- The states of an obligation are completed or still guaranteed before its join. -/
def Owed (completed : List String) (stepName : String) (o : Obligation) : Prop :=
  ∀ name ∈ o.states, name ∈ completed ∨
    name ∈ workflow.guaranteed sections workflowName o.join stepName

/-- Control stands at reached steps whose available states are completed, joins
apart, and every obligation can still be met. -/
inductive Sound (completed : List String) : List Obligation → Control → Prop
  | active {owed : List Obligation} {stepName : String} {step : WorkflowStep}
      (hget : workflow.steps.get? stepName = some step)
      (hreached : stepName ∈ workflow.reached sections workflowName)
      (hknown : step.type ≠ .join →
        workflow.available sections workflowName stepName ⊆ completed)
      (howed : ∀ o ∈ owed, Owed sections workflowName workflow completed stepName o) :
      Sound completed owed (.active stepName)
  | forked {owed : List Obligation} {owner : String} {fields : ParallelStep}
      {threads : List Control}
      (hget : workflow.steps.get? owner = some (.parallel fields))
      (hreached : owner ∈ workflow.reached sections workflowName)
      (hknown : workflow.available sections workflowName owner ⊆ completed)
      (howed : ∀ o ∈ owed, Owed sections workflowName workflow completed owner o)
      (hlength : threads.length = fields.branches.length)
      (hthreads : ∀ (i : ℕ) branch thread, fields.branches[i]? = some branch →
        threads[i]? = some thread →
        Sound completed
          (⟨fields.join, workflow.guaranteed sections workflowName fields.join branch⟩ ::
            owed.map (Obligation.inside owner)) thread) :
      Sound completed owed (.forked owner threads)
  | ended {owed : List Obligation} : Sound completed owed .ended

variable {sections workflowName workflow}

theorem Owed.mono {completed completed' : List String} (hsub : completed ⊆ completed')
    {stepName : String} {o : Obligation}
    (h : Owed sections workflowName workflow completed stepName o) :
    Owed sections workflowName workflow completed' stepName o :=
  fun name hname => (h name hname).imp_left fun hmem => hsub hmem

theorem Sound.mono {completed completed' : List String} (hsub : completed ⊆ completed')
    {owed : List Obligation} {control : Control}
    (h : Sound sections workflowName workflow completed owed control) :
    Sound sections workflowName workflow completed' owed control := by
  induction h with
  | active hget hreached hknown howed =>
    exact .active hget hreached (fun hjoin => List.Subset.trans (hknown hjoin) hsub)
      (fun o ho => (howed o ho).mono hsub)
  | forked hget hreached hknown howed hlength _ ih =>
    exact .forked hget hreached (List.Subset.trans hknown hsub) (fun o ho => (howed o ho).mono hsub) hlength ih
  | ended => exact .ended

section Edge

variable (haccepted : verifyWorkflow sections workflowName workflow = [])
  (hresolved : workflow.Resolved) {stepName target : String} {step : WorkflowStep}
  (hget : workflow.steps.get? stepName = some step)
  (hreached : stepName ∈ workflow.reached sections workflowName)
  (htarget : target ∈ step.targets) (hstep : workflow.steps.contains target = true)

include hget htarget hstep

theorem Owed.edge {completed completed' : List String} (hsub : completed ⊆ completed')
    (hself : isExecutableWorkflowStep step = true → stepName ∈ completed') {o : Obligation}
    (h : Owed sections workflowName workflow completed stepName o) :
    Owed sections workflowName workflow completed' target o := by
  intro name hname
  rcases h name hname with hdone | hguaranteed
  · exact Or.inl (hsub hdone)
  · rcases Workflow.guaranteed_edge hget htarget hstep hguaranteed with ⟨rfl, hexec⟩ | hnext
    · exact Or.inl (hself hexec)
    · exact Or.inr hnext

theorem Owed.inside {completed : List String} {o : Obligation}
    (h : Owed sections workflowName workflow completed stepName o) :
    Owed sections workflowName workflow completed target (o.inside stepName) := by
  intro name hname
  rw [Obligation.inside, List.mem_filter] at hname
  rcases h name hname.1 with hdone | hguaranteed
  · exact Or.inl hdone
  · rcases Workflow.guaranteed_edge hget htarget hstep hguaranteed with ⟨rfl, -⟩ | hnext
    · simp at hname
    · exact Or.inr hnext

include haccepted hresolved hreached

theorem Sound.follow {completed : List String} {owed : List Obligation}
    (hknown : workflow.available sections workflowName stepName ⊆ completed)
    (hself : providesOwnState step target = true → stepName ∈ completed)
    (howed : ∀ o ∈ owed, Owed sections workflowName workflow completed target o) :
    Sound sections workflowName workflow completed owed (.active target) := by
  obtain ⟨next, hnext⟩ := Dict.mem_keys_iff.mp (Dict.contains_iff.mp hstep)
  have hedge : target ∈ successorsOf (workflow.controlGraph sections workflowName) stepName :=
    (Workflow.mem_successorsOf_iff hget).mpr ⟨htarget, hstep⟩
  refine .active hnext
    (Workflow.successor_mem_reached (Workflow.start_contained haccepted hresolved) hreached hedge)
    ?_ howed
  intro hjoin name hname
  rcases Workflow.available_edge haccepted hresolved hget hreached htarget hnext hjoin hname with
    ⟨rfl, hown⟩ | hbefore
  · exact hself hown
  · exact hknown hbefore

end Edge

section Step

theorem mem_append_completed (completed : List String) (stepName : String) :
    stepName ∈ completed ++ (Move.completes stepName).completed :=
  List.mem_append_right completed List.mem_cons_self

theorem executable_of_outcomeTargets {step : WorkflowStep} {target : String}
    (h : target ∈ step.outcomeTargets) : target ∈ step.targets ∧ step.type ≠ .join := by
  cases step <;> simp_all [WorkflowStep.outcomeTargets, WorkflowStep.choiceTargets,
    WorkflowStep.targets, WorkflowStep.type]

theorem choice_of_choiceTargets {step : WorkflowStep} {target : String}
    (h : target ∈ step.choiceTargets) :
    target ∈ step.targets ∧ step.type ≠ .join ∧ isExecutableWorkflowStep step = false ∧
      providesOwnState step target = false := by
  cases step <;> simp_all [WorkflowStep.choiceTargets, WorkflowStep.outcomeTargets,
    WorkflowStep.targets, WorkflowStep.type, isExecutableWorkflowStep, stateObservable,
    observableOutcomes, providesOwnState]

variable (haccepted : verifyWorkflow sections workflowName workflow = [])
  (hresolved : workflow.Resolved)

include haccepted hresolved

variable {owed : List Obligation}

theorem Sound.fork {completed : List String} {stepName : String}
    {fields : ParallelStep} (hget : workflow.steps.get? stepName = some (.parallel fields))
    (hfailure : fields.onFailure ∉ fields.branches)
    (hbranches : ∀ branch ∈ fields.branches, workflow.steps.contains branch = true)
    (h : Sound sections workflowName workflow completed owed (.active stepName)) :
    Sound sections workflowName workflow completed owed
      (.forked stepName (fields.branches.map .active)) := by
  cases h with
  | active hfound hreached hknown howed =>
    rw [hget, Option.some.injEq] at hfound
    subst hfound
    have hbefore := hknown (by simp [WorkflowStep.type])
    refine .forked hget hreached hbefore howed (by simp) ?_
    intro i branch thread hbranch hthread
    rw [List.getElem?_map, hbranch, Option.map_some, Option.some.injEq] at hthread
    subst hthread
    have hmem : branch ∈ fields.branches := List.mem_of_getElem? hbranch
    have htarget : branch ∈ (WorkflowStep.parallel fields).targets :=
      List.mem_append_left _ hmem
    have hstep := hbranches branch hmem
    refine Sound.follow haccepted hresolved hget hreached htarget hstep hbefore ?_ ?_
    · intro hown
      simp only [providesOwnState, Bool.and_eq_true, beq_iff_eq] at hown
      exact absurd (hown.2 ▸ hmem) hfailure
    · intro o ho
      rcases List.mem_cons.mp ho with rfl | hinside
      · exact fun name hname => Or.inr hname
      · obtain ⟨outer, houter, rfl⟩ := List.mem_map.mp hinside
        exact (howed outer houter).inside hget htarget hstep

theorem Sound.converge {completed : List String} {owner next : String}
    {fields : ParallelStep} {threads : List Control}
    (hget : workflow.steps.get? owner = some (.parallel fields))
    (hjoin : workflow.steps.get? fields.join = some (.join next))
    (hthreads : ∀ thread ∈ threads, thread = .active fields.join)
    (hstep : workflow.steps.contains next = true)
    (h : Sound sections workflowName workflow completed owed (.forked owner threads)) :
    Sound sections workflowName workflow (completed ++ [owner]) owed (.active next) := by
  cases h with
  | forked hfound hreached hknown howed hlength hsound =>
    rw [hget, Option.some.injEq, WorkflowStep.parallel.injEq] at hfound
    subst hfound
    have hsub : completed ⊆ completed ++ [owner] := List.subset_append_left _ _
    -- Each branch stands at the join, where it has met its own obligation.
    have hbranch : ∀ branch ∈ fields.branches, Sound sections workflowName workflow completed
        (⟨fields.join, workflow.guaranteed sections workflowName fields.join branch⟩ ::
          owed.map (Obligation.inside owner)) (.active fields.join) := by
      intro branch hmem
      obtain ⟨i, hi⟩ := List.getElem?_of_mem hmem
      have hbound : i < threads.length := by
        rw [hlength]
        exact (List.getElem?_eq_some_iff.mp hi).1
      have hthread := hsound i branch threads[i] hi (List.getElem?_eq_getElem hbound)
      rwa [hthreads threads[i] (List.getElem_mem hbound)] at hthread
    have hat : ∀ branch ∈ fields.branches,
        fields.join ∈ workflow.reached sections workflowName ∧
          (∀ name ∈ workflow.guaranteed sections workflowName fields.join branch,
            name ∈ completed) ∧
          ∀ o ∈ owed, Owed sections workflowName workflow completed fields.join
            (o.inside owner) := by
      intro branch hmem
      cases hbranch branch hmem with
      | active _ hjoinReached _ howes =>
        refine ⟨hjoinReached, ?_, ?_⟩
        · intro name hname
          rcases howes _ List.mem_cons_self name hname with hdone | hself
          · exact hdone
          · simp [Workflow.guaranteed] at hself
        · exact fun o ho => howes _ (List.mem_cons_of_mem _ (List.mem_map_of_mem ho))
    have htwo := fields.twoBranches
    obtain ⟨branch, hmem⟩ : ∃ branch, branch ∈ fields.branches :=
      List.exists_mem_of_length_pos (by omega)
    obtain ⟨hjoinReached, -, hinside⟩ := hat branch hmem
    have hafter : workflow.available sections workflowName fields.join ⊆ completed ++ [owner] := by
      intro name hname
      rcases Workflow.available_join haccepted hget hjoin hname with
        hbefore | rfl | ⟨other, hother, -, hguaranteed⟩
      · exact hsub (hknown hbefore)
      · exact List.mem_append_right _ List.mem_cons_self
      · exact hsub ((hat other hother).2.1 name hguaranteed)
    have htarget : next ∈ (WorkflowStep.join next).targets := List.mem_singleton.mpr rfl
    refine Sound.follow haccepted hresolved hjoin hjoinReached htarget hstep hafter ?_ ?_
    · intro hown
      simp [providesOwnState] at hown
    · intro o ho name hname
      by_cases howner : name = owner
      · subst howner
        exact Or.inl (List.mem_append_right _ List.mem_cons_self)
      · have hrest : name ∈ (o.inside owner).states :=
          List.mem_filter.mpr ⟨hname, by simpa using howner⟩
        exact (hinside o ho).edge hjoin htarget hstep hsub
          (fun hexec => by simp [isExecutableWorkflowStep, WorkflowStep.type, stateObservable,
            observableOutcomes] at hexec) name hrest

theorem Sound.step {frame : Option String} {control control' : Control} {move : Move}
    (hmove : ControlStep workflow.steps frame control move control')
    (horderly : workflow.Orderly move) {completed : List String}
    (h : Sound sections workflowName workflow completed owed control) :
    Sound sections workflowName workflow (completed ++ move.completed) owed control' := by
  have hsub : completed ⊆ completed ++ move.completed := List.subset_append_left _ _
  induction hmove generalizing owed with
  | @complete _ stepName target _ hget htarget hstep =>
    cases h with
    | active hfound hreached hknown howed =>
      rw [hget, Option.some.injEq] at hfound
      subst hfound
      obtain ⟨hedge, hjoin⟩ := executable_of_outcomeTargets htarget
      have hself := mem_append_completed completed stepName
      refine Sound.follow haccepted hresolved hget hreached hedge hstep
        (List.Subset.trans (hknown hjoin) hsub) (fun _ => hself) ?_
      exact fun o ho => (howed o ho).edge hget hedge hstep hsub fun _ => hself
  | finish => exact .ended
  | choose hget htarget hstep =>
    cases h with
    | active hfound hreached hknown howed =>
      rw [hget, Option.some.injEq] at hfound
      subst hfound
      obtain ⟨hedge, hjoin, hexec, hown⟩ := choice_of_choiceTargets htarget
      refine Sound.follow haccepted hresolved hget hreached hedge hstep
        (List.Subset.trans (hknown hjoin) hsub) (fun h => absurd (hown ▸ h) Bool.false_ne_true) ?_
      exact fun o ho => (howed o ho).edge hget hedge hstep hsub
        fun h => absurd (hexec ▸ h) Bool.false_ne_true
  | pass => exact horderly.elim
  | fork hget hbranches =>
    exact (h.mono hsub).fork haccepted hresolved hget (horderly _ hget) hbranches
  | @thread _ _ _ _ i _ _ _ hget hthread hmove ih =>
    cases h with
    | forked hfound hreached hknown howed hlength hsound =>
      refine .forked hfound hreached (List.Subset.trans hknown hsub) (fun o ho => (howed o ho).mono hsub)
        (by rw [List.length_set, hlength]) ?_
      intro j branch found hbranch hfound'
      by_cases hij : i = j
      · subst hij
        have hbound := (List.getElem?_eq_some_iff.mp hthread).1
        rw [List.getElem?_set_self hbound, Option.some.injEq] at hfound'
        subst hfound'
        exact ih horderly (hsound i branch _ hbranch hthread) hsub
      · rw [List.getElem?_set_ne hij] at hfound'
        exact (hsound j branch found hbranch hfound').mono hsub
  | converge hget hjoin hthreads hstep =>
    exact h.converge haccepted hresolved hget hjoin hthreads hstep
  | @fail _ owner fields _ hget hstep =>
    cases h with
    | forked hfound hreached hknown howed hlength hsound =>
      have hself := mem_append_completed completed owner
      have hedge : fields.onFailure ∈ (WorkflowStep.parallel fields).targets :=
        List.mem_append_right _ (List.mem_singleton.mpr rfl)
      refine Sound.follow haccepted hresolved hget hreached hedge hstep (List.Subset.trans hknown hsub)
        (fun _ => hself) ?_
      exact fun o ho => (howed o ho).edge hget hedge hstep hsub fun _ => hself
  | abandon => exact .ended

end Step

/-! ## All runs -/

theorem Sound.known {completed : List String} {owed : List Obligation} {control : Control}
    {stepName : String} {step : WorkflowStep} (hat : control.At stepName)
    (hget : workflow.steps.get? stepName = some step) (hjoin : step.type ≠ .join)
    (h : Sound sections workflowName workflow completed owed control) :
    stepName ∈ workflow.reached sections workflowName ∧
      workflow.available sections workflowName stepName ⊆ completed := by
  induction hat generalizing owed with
  | active stepName =>
    cases h with
    | active hfound hreached hknown _ =>
      rw [hget, Option.some.injEq] at hfound
      subst hfound
      exact ⟨hreached, hknown hjoin⟩
  | thread hthread _ ih =>
    cases h with
    | forked _ _ _ _ hlength hsound =>
      obtain ⟨i, hi⟩ := List.getElem?_of_mem hthread
      have hbound := (List.getElem?_eq_some_iff.mp hi).1
      rw [hlength] at hbound
      exact ih hget (hsound i _ _ (List.getElem?_eq_getElem hbound) hi)

variable (haccepted : verifyWorkflow sections workflowName workflow = [])
  (hresolved : workflow.Resolved)

include haccepted hresolved

theorem sound_initial :
    Sound sections workflowName workflow workflow.initial.completed [] workflow.initial.control := by
  obtain ⟨step, hget⟩ := Dict.mem_keys_iff.mp
    (Dict.contains_iff.mp (Workflow.start_contained haccepted hresolved))
  refine .active hget Workflow.start_mem_reached ?_ (fun _ ho => absurd ho List.not_mem_nil)
  intro _ name hname
  have hnone := availableStepStateBefore_start
    (availableStateContext workflow (buildWorkflowStepGraph sections workflowName workflow)
      (workflow.reached sections workflowName)) workflow.steps.keys.length []
  rwa [Workflow.available, show workflow.start = (availableStateContext workflow _ _).start from rfl,
    hnone] at hname

theorem sound_of_orderlyReachable {s : RunState} (hrun : workflow.OrderlyReachable s) :
    Sound sections workflowName workflow s.completed [] s.control := by
  induction hrun with
  | refl => exact sound_initial haccepted hresolved
  | tail _ hmove ih =>
    obtain ⟨move, horderly, hstep, hcompleted⟩ := hmove
    rw [hcompleted]
    exact ih.step haccepted hresolved hstep horderly

end Sound

theorem type_ne_join_of_ref {step : WorkflowStep} {ref : String} (h : ref ∈ step.stepStateRefs) :
    step.type ≠ .join := by
  cases step <;> simp_all [WorkflowStep.stepStateRefs, WorkflowStep.predicates, WorkflowStep.type]

section SharedBranch

def sharedSections : Sections where
  assertions := ⟨[("ready", .precondition)], by decide⟩
  objectives := ["scan"]
  workflows := []
  actionContracts := .empty
  observationBoundaries := .empty
  toolAffordances := []
  governedCapabilityRef := fun _ => false
  governedFactBindingRef := fun _ => false

def scanStep : WorkflowStep :=
  .objective "scan" ⟨"", [], [], [], [], []⟩ ⟨"sync", "", ""⟩

def bothSteps : ParallelStep where
  branches := ["left", "right"]
  join := "sync"
  onFailure := ""
  twoBranches := by decide
  joinGiven := by decide
  branchesUnique := by decide

/-- The first decision sends control to a parallel step or into one of its
branches.  The predicate after the join reads the parallel step. -/
def sharedBranch : Workflow where
  start := "choose"
  steps := ⟨[
    ("choose", .decision ⟨["ready"], [], []⟩ "both" "left"),
    ("both", .parallel bothSteps),
    ("left", scanStep),
    ("right", scanStep),
    ("sync", .join "check"),
    ("check", .decision ⟨[], [], [⟨"both", [.succeeded]⟩]⟩ "done" "done"),
    ("done", .endStep)], by decide⟩
  namesPortable := by decide +kernel

theorem sharedBranch_accepted : verifyWorkflow sharedSections "w" sharedBranch = [] := by
  decide +kernel

theorem sharedBranch_resolved : sharedBranch.Resolved where
  start := by decide +kernel
  targets := by decide +kernel
  stepStateRefs := by decide +kernel

theorem sharedBranch_choose : sharedBranch.steps.get? "choose" =
    some (.decision ⟨["ready"], [], []⟩ "both" "left") := by decide

theorem sharedBranch_both : sharedBranch.steps.get? "both" = some (.parallel bothSteps) := by
  decide

theorem sharedBranch_left : sharedBranch.steps.get? "left" = some scanStep := by decide

theorem sharedBranch_right : sharedBranch.steps.get? "right" = some scanStep := by decide

theorem sharedBranch_orderlyReachable :
    sharedBranch.OrderlyReachable ⟨["left", "right", "both"], .active "check"⟩ := by
  have hchoose : sharedBranch.Moves sharedBranch.initial (.chooses "choose")
      ⟨[], .active "both"⟩ :=
    ⟨.choose sharedBranch_choose (by decide) (by decide), rfl⟩
  have hfork : sharedBranch.Moves ⟨[], .active "both"⟩ (.forks "both")
      ⟨[], .forked "both" [.active "left", .active "right"]⟩ :=
    ⟨.fork sharedBranch_both (by decide), rfl⟩
  have hleft : sharedBranch.Moves ⟨[], .forked "both" [.active "left", .active "right"]⟩
      (.completes "left") ⟨["left"], .forked "both" [.active "sync", .active "right"]⟩ :=
    ⟨.thread (i := 0) sharedBranch_both rfl
      (.complete sharedBranch_left (by decide) (by decide)), rfl⟩
  have hright : sharedBranch.Moves ⟨["left"], .forked "both" [.active "sync", .active "right"]⟩
      (.completes "right")
      ⟨["left", "right"], .forked "both" [.active "sync", .active "sync"]⟩ :=
    ⟨.thread (i := 1) sharedBranch_both rfl
      (.complete sharedBranch_right (by decide) (by decide)), rfl⟩
  have hconverge : sharedBranch.Moves
      ⟨["left", "right"], .forked "both" [.active "sync", .active "sync"]⟩ (.completes "both")
      ⟨["left", "right", "both"], .active "check"⟩ :=
    ⟨.converge sharedBranch_both (by decide) (by simp [bothSteps]) (by decide), rfl⟩
  have horderly : sharedBranch.Orderly (.forks "both") := by
    intro fields hget
    have hfields : bothSteps = fields := by
      rw [sharedBranch_both, Option.some.injEq, WorkflowStep.parallel.injEq] at hget
      exact hget
    rw [← hfields]
    decide
  exact (((((Relation.ReflTransGen.refl).tail ⟨.chooses "choose", trivial, hchoose⟩).tail
    ⟨_, horderly, hfork⟩).tail ⟨.completes "left", trivial, hleft⟩).tail
    ⟨.completes "right", trivial, hright⟩).tail ⟨.completes "both", trivial, hconverge⟩

/-- In a workflow without errors, every orderly run knows each step state that a
predicate refers to when control reaches the predicate. -/
theorem predicatesKnown_of_orderlyReachable (sections : Sections) (workflowName : String)
    (workflow : Workflow) (haccepted : verifyWorkflow sections workflowName workflow = [])
    (hresolved : workflow.Resolved) {s : RunState} (hrun : workflow.OrderlyReachable s) :
    workflow.PredicatesKnown s := by
  intro stepName step hat hget ref href
  have hsound := sound_of_orderlyReachable haccepted hresolved hrun
  obtain ⟨hreached, hknown⟩ := hsound.known hat hget (type_ne_join_of_ref href)
  exact hknown (Workflow.stepStateRef_available haccepted hresolved hget hreached href)

theorem predicatesKnown_after_join :
    sharedBranch.PredicatesKnown ⟨["left", "right", "both"], .active "check"⟩ :=
  predicatesKnown_of_orderlyReachable sharedSections "w" sharedBranch sharedBranch_accepted
    sharedBranch_resolved sharedBranch_orderlyReachable

theorem sharedBranch_reachable :
    sharedBranch.Reachable ⟨["left"], .active "check"⟩ := by
  have hchoose : sharedBranch.Moves sharedBranch.initial (.chooses "choose")
      ⟨[], .active "left"⟩ :=
    ⟨.choose sharedBranch_choose (by decide) (by decide), rfl⟩
  have hcomplete : sharedBranch.Moves ⟨[], .active "left"⟩ (.completes "left")
      ⟨["left"], .active "sync"⟩ :=
    ⟨.complete sharedBranch_left (by decide) (by decide), rfl⟩
  have hpass : sharedBranch.Moves ⟨["left"], .active "sync"⟩ (.passes "sync")
      ⟨["left"], .active "check"⟩ :=
    ⟨.pass (by decide) (by decide) (by decide), rfl⟩
  exact ((Relation.ReflTransGen.single ⟨_, hchoose⟩).tail ⟨_, hcomplete⟩).tail ⟨_, hpass⟩

/-- The checks accept a workflow in which a run reaches a predicate before the
step that it reads. -/
theorem not_predicatesKnown :
    ¬ ∀ (sections : Sections) (workflowName : String) (workflow : Workflow),
      verifyWorkflow sections workflowName workflow = [] → workflow.Resolved →
      ∀ s, workflow.Reachable s → workflow.PredicatesKnown s := by
  intro h
  have hknown := h sharedSections "w" sharedBranch sharedBranch_accepted sharedBranch_resolved _
    sharedBranch_reachable "check"
    (.decision ⟨[], [], [⟨"both", [.succeeded]⟩]⟩ "done" "done") (.active "check") (by decide)
    "both" (by decide)
  exact absurd hknown (by decide)

end SharedBranch

end Raes.Orchestration
