import Mathlib.Data.List.Sort
import Raes.Contracts.Diagnostics
import Raes.Orchestration.Steps

/-!
# Reported workflow results and their histories

The checks of `workflow_result_contract_checks` on one workflow result, its event
history and the compiled contracts of the workflow.  Each rule on a history is a pass
of its own, and the last section says what their conjunction leaves open.
-/

namespace Raes.Orchestration

/-! ## Results and histories -/

inductive WorkflowStepLifecycle where
  | pending | running | completed
  deriving DecidableEq, Repr

inductive WorkflowStatus where
  | pending | running | succeeded | failed | cancelled | timedOut
  deriving DecidableEq, Repr

def WorkflowStatus.value : WorkflowStatus → String
  | pending => "pending"
  | running => "running"
  | succeeded => "succeeded"
  | failed => "failed"
  | cancelled => "cancelled"
  | timedOut => "timed_out"

inductive WorkflowCompensationStatus where
  | notRequired | pending | running | succeeded | failed
  deriving DecidableEq, Repr

inductive WorkflowHistoryEventType where
  | workflowStarted | stepStarted | stepCompleted | switchCaseSelected | callStarted
  | callCompleted | branchEntered | branchConverged | workflowCompleted | workflowFailed
  | workflowCancelled | workflowTimedOut | compensationRegistered | compensationStarted
  | compensationWorkflowStarted | compensationWorkflowCompleted | compensationWorkflowFailed
  | compensationCompleted | compensationFailed
  deriving DecidableEq, Repr

def WorkflowHistoryEventType.value : WorkflowHistoryEventType → String
  | workflowStarted => "workflow_started"
  | stepStarted => "step_started"
  | stepCompleted => "step_completed"
  | switchCaseSelected => "switch_case_selected"
  | callStarted => "call_started"
  | callCompleted => "call_completed"
  | branchEntered => "branch_entered"
  | branchConverged => "branch_converged"
  | workflowCompleted => "workflow_completed"
  | workflowFailed => "workflow_failed"
  | workflowCancelled => "workflow_cancelled"
  | workflowTimedOut => "workflow_timed_out"
  | compensationRegistered => "compensation_registered"
  | compensationStarted => "compensation_started"
  | compensationWorkflowStarted => "compensation_workflow_started"
  | compensationWorkflowCompleted => "compensation_workflow_completed"
  | compensationWorkflowFailed => "compensation_workflow_failed"
  | compensationCompleted => "compensation_completed"
  | compensationFailed => "compensation_failed"

/-- `_TERMINAL_EVENT_TYPES.get(status)` -/
def terminalEventType : WorkflowStatus → Option WorkflowHistoryEventType
  | .succeeded => some .workflowCompleted
  | .failed => some .workflowFailed
  | .cancelled => some .workflowCancelled
  | .timedOut => some .workflowTimedOut
  | _ => none

/-- `_TERMINAL_EVENT_TYPES.values()` -/
def terminalEventTypes : List WorkflowHistoryEventType :=
  [.workflowCompleted, .workflowFailed, .workflowCancelled, .workflowTimedOut]

/-- `_COMPENSATION_EVENT_TYPES` -/
def compensationEventTypes : List WorkflowHistoryEventType :=
  [.compensationRegistered, .compensationStarted, .compensationWorkflowStarted,
    .compensationWorkflowCompleted, .compensationWorkflowFailed, .compensationCompleted,
    .compensationFailed]

structure WorkflowHistoryEvent where
  eventType : WorkflowHistoryEventType
  (stepName joinStep : Option String)
  /-- `str(details.get("workflow_address", ""))` -/
  workflowAddress : String
  deriving DecidableEq

def WorkflowHistoryEvent.IsTerminal (event : WorkflowHistoryEvent) : Prop :=
  event.eventType ∈ terminalEventTypes

def WorkflowHistoryEvent.IsCompensation (event : WorkflowHistoryEvent) : Prop :=
  event.eventType ∈ compensationEventTypes

instance (event : WorkflowHistoryEvent) : Decidable event.IsTerminal :=
  inferInstanceAs (Decidable (_ ∈ _))

instance (event : WorkflowHistoryEvent) : Decidable event.IsCompensation :=
  inferInstanceAs (Decidable (_ ∈ _))

structure WorkflowStepExecutionState where
  lifecycle : WorkflowStepLifecycle
  outcome : Option WorkflowStepOutcome
  attempts : ℤ
  attemptsCounted : 0 ≤ attempts
  outcomeCompleted : lifecycle ≠ .completed → outcome = none
  pendingUnattempted : lifecycle = .pending → attempts = 0

structure WorkflowExecutionState where
  stateSchemaVersion : String
  workflowStatus : WorkflowStatus
  compensationStatus : WorkflowCompensationStatus
  steps : Dict String WorkflowStepExecutionState

structure WorkflowStepSemanticContract where
  stepType : String
  stateObservable : Bool
  observableOutcomes : List String
  fixedAttempts : Option ℤ

structure WorkflowResultContract where
  stateSchemaVersion : String
  observableSteps : Dict String WorkflowStepSemanticContract

structure WorkflowExecutionContract where
  stateSchemaVersion : String
  steps : Dict String WorkflowStepSemanticContract
  (stepTypes joinOwners callSteps : Dict String String)
  compensationMode : String
  compensationTriggers : List String
  compensationTargets : Dict String String

structure WorkflowContext where
  address : String
  resultContract : WorkflowResultContract
  executionContract : WorkflowExecutionContract
  result : WorkflowExecutionState
  history : List WorkflowHistoryEvent

def contractDiagnostic (address message : String) : Diagnostic :=
  { code := "runtime.backend-contract-invalid", domain := "runtime", address, message,
    severity := .error }

/-! ## Checks of the result

`repr` is the representation of a text, which only messages show. -/

variable (repr : String → String) (context : WorkflowContext)

def schemaDiagnostics : List Diagnostic :=
  let version := context.result.stateSchemaVersion
  let report (label expected : String) : List Diagnostic :=
    if version ≠ expected then
      [contractDiagnostic context.address ("Workflow result schema version " ++ repr version ++
        " does not match " ++ label ++ " contract " ++ repr expected ++ ".")]
    else []
  report "compiled" context.resultContract.stateSchemaVersion ++
    report "execution" context.executionContract.stateSchemaVersion

def nonTerminalWorkflowHasCompensation : Bool :=
  context.result.workflowStatus ∈ [WorkflowStatus.pending, .running] &&
    context.result.compensationStatus ≠ .notRequired

def successfulCompensationSteps : List String :=
  (context.executionContract.compensationTargets.entries.filter fun target =>
    target.2 ≠ "" && (context.result.steps.get? target.1).any fun state =>
      state.lifecycle = .completed && state.outcome = some .succeeded).map Prod.fst

def terminalWorkflowRequiresCompensation : Bool :=
  context.executionContract.compensationMode = "automatic" &&
    context.executionContract.compensationTriggers.contains context.result.workflowStatus.value &&
    !(successfulCompensationSteps context).isEmpty &&
    context.result.compensationStatus = .notRequired

def workflowCompensationRequirementDiagnostics : List Diagnostic :=
  (if nonTerminalWorkflowHasCompensation context then
    [contractDiagnostic context.address
      "Non-terminal workflows may not report compensation activity."] else []) ++
  if terminalWorkflowRequiresCompensation context then
    [contractDiagnostic context.address
      "Terminal workflow requires compensation activity for completed compensable steps."] else []

def workflowStepPresenceDiagnostics : List Diagnostic :=
  let observable := context.resultContract.observableSteps.keys
  let reported := context.result.steps.keys
  let report (label : String) (names : List String) : List Diagnostic :=
    if names.isEmpty then [] else
      [contractDiagnostic context.address
        (label ++ ", ".intercalate (names.insertionSort (· ≤ ·)))]
  report "Workflow results include non-observable or undefined steps: "
      (reported.filter (· ∉ observable)) ++
    report "Workflow results must include all observable steps: "
      (observable.filter (· ∉ reported))

variable (contract : WorkflowStepSemanticContract)

def lifecycleViolations (state : WorkflowStepExecutionState) : List String :=
  (if state.lifecycle ≠ .completed ∧ state.outcome ≠ none then
    ["non-completed steps may not report an outcome"] else []) ++
  (if state.lifecycle = .pending ∧ state.attempts ≠ 0 then
    ["pending steps must report 0 attempts"] else []) ++
  if state.lifecycle = .running ∧ contract.stateObservable ∧ state.attempts < 1 then
    ["running observable steps must report at least 1 attempt"] else []

def outcomeViolations (state : WorkflowStepExecutionState) : List String :=
  if state.lifecycle ≠ .completed ∨ !contract.stateObservable then []
  else match state.outcome with
    | none => ["completed observable steps must report an outcome"]
    | some outcome =>
      if outcome.value ∈ contract.observableOutcomes then []
      else ["outcome '" ++ outcome.value ++ "' is invalid for step type '" ++ contract.stepType ++
        "' (allowed: " ++ ", ".intercalate contract.observableOutcomes ++ ")"]

def attemptLimitViolations (state : WorkflowStepExecutionState) : List String :=
  match contract.fixedAttempts with
  | none => []
  | some fixed =>
    if state.lifecycle = .completed then
      if state.attempts ≠ fixed then
        ["completed '" ++ contract.stepType ++ "' steps must report exactly " ++ toString fixed ++
          " attempts"]
      else []
    else if state.attempts > fixed then
      ["'" ++ contract.stepType ++ "' steps may not exceed " ++ toString fixed ++ " attempts"]
    else []

/-- The lifecycle of a state is one of the three that the source checks for. -/
def validateWorkflowStepResult (state : WorkflowStepExecutionState) : List String :=
  (if state.attempts < 0 then ["attempts must be >= 0"] else []) ++
    lifecycleViolations contract state ++ outcomeViolations contract state ++
    attemptLimitViolations contract state

def workflowStepContractDiagnostics : List Diagnostic :=
  context.result.steps.entries.flatMap fun (stepName, state) =>
    match context.resultContract.observableSteps.get? stepName with
    | none => []
    | some contract => (validateWorkflowStepResult contract state).map
        (contractDiagnostic (context.address ++ "." ++ stepName))

/-- `repr` of a tuple of texts -/
def reprTuple (texts : List String) : String :=
  "(" ++ ", ".intercalate (texts.map repr) ++ (if texts.length = 1 then ",)" else ")")

def workflowExecutionStepDiagnostics : List Diagnostic :=
  context.result.steps.entries.flatMap fun (stepName, state) =>
    match context.executionContract.steps.get? stepName, state.outcome with
    | none, _ => [contractDiagnostic context.address
        ("Workflow results reference unknown step '" ++ stepName ++ "'.")]
    | some _, none => []
    | some contract, some outcome =>
      if state.lifecycle = .completed ∧ contract.stateObservable ∧
          outcome.value ∉ contract.observableOutcomes then
        [contractDiagnostic (context.address ++ "." ++ stepName)
          ("Completed step reports outcome " ++ repr outcome.value ++
            " outside execution contract domain " ++ reprTuple repr contract.observableOutcomes ++
            ".")]
      else []

/-! ## Checks of single events -/

def historyStartDiagnostics : List Diagnostic :=
  if context.history.head?.map (·.eventType) = some .workflowStarted then []
  else [contractDiagnostic context.address "Workflow history must start with workflow_started."]

variable (event : WorkflowHistoryEvent)

def switchHistoryEventDiagnostics : List Diagnostic :=
  if event.eventType ≠ .switchCaseSelected then []
  else if event.stepName.bind context.executionContract.stepTypes.get? = some "switch" then []
  else [contractDiagnostic context.address
    "switch_case_selected events must reference a switch step."]

def workflowTargetMismatch (actualWorkflow expectedWorkflow targetLabel : String) : Diagnostic :=
  contractDiagnostic context.address (event.eventType.value ++ " event workflow " ++
    repr actualWorkflow ++ " does not match " ++ targetLabel ++ " " ++ repr expectedWorkflow ++ ".")

def callHistoryEventDiagnostics : List Diagnostic :=
  if event.eventType ∉ [WorkflowHistoryEventType.callStarted, .callCompleted] then []
  else if event.stepName.bind context.executionContract.stepTypes.get? ≠ some "call" then
    [contractDiagnostic context.address
      (event.eventType.value ++ " events must reference a call step.")]
  else match event.stepName.bind context.executionContract.callSteps.get? with
    | none => []
    | some expected =>
      if expected ≠ "" ∧ event.workflowAddress ≠ "" ∧ event.workflowAddress ≠ expected then
        [workflowTargetMismatch repr context event event.workflowAddress expected "call target"]
      else []

def branchHistoryEventDiagnostics : List Diagnostic :=
  if event.eventType ≠ .branchConverged then []
  else if event.joinStep.any context.executionContract.joinOwners.contains then []
  else [contractDiagnostic context.address
    "branch_converged events must reference a known join_step."]

def compensationRegistrationDiagnostics : List Diagnostic :=
  if event.eventType ≠ .compensationRegistered then []
  else if event.stepName.any context.executionContract.compensationTargets.contains then []
  else [contractDiagnostic context.address
    "compensation_registered events must reference a compensable step."]

def compensationWorkflowEventDiagnostics : List Diagnostic :=
  if event.eventType ∉ [WorkflowHistoryEventType.compensationWorkflowStarted,
      .compensationWorkflowCompleted, .compensationWorkflowFailed] then []
  else match event.stepName.bind context.executionContract.compensationTargets.get? with
    | none => [contractDiagnostic context.address
        (event.eventType.value ++ " events must reference a compensable step.")]
    | some expected =>
      if event.workflowAddress ≠ "" ∧ event.workflowAddress ≠ expected then
        [workflowTargetMismatch repr context event event.workflowAddress expected
          "compensation target"]
      else []

def historyEventDiagnostics : List Diagnostic :=
  (match event.stepName with
    | none => []
    | some stepName =>
      if stepName ≠ "" ∧ stepName ∉ context.executionContract.steps.keys then
        [contractDiagnostic context.address
          ("Workflow history references unknown step '" ++ stepName ++ "'.")]
      else []) ++
    switchHistoryEventDiagnostics context event ++
    callHistoryEventDiagnostics repr context event ++
    branchHistoryEventDiagnostics context event ++
    compensationRegistrationDiagnostics context event ++
    compensationWorkflowEventDiagnostics repr context event

/-! ## Checks of the whole history -/

def terminalHistoryDiagnostics : List Diagnostic :=
  match terminalEventType context.result.workflowStatus with
  | none => []
  | some expected =>
    let terminalIndexes := context.history.findIdxs (·.eventType = expected)
    let compensationIndexes := context.history.findIdxs (·.IsCompensation)
    (if terminalIndexes.isEmpty then
      [contractDiagnostic context.address ("Workflow terminal status " ++
        repr context.result.workflowStatus.value ++ " requires a history event " ++
        repr expected.value ++ ".")] else []) ++
    match compensationIndexes.head?, terminalIndexes.getLast? with
    | some compensation, some terminal =>
      if terminal > compensation then
        [contractDiagnostic context.address
          "Compensation events may only occur after the primary terminal workflow event."]
      else []
    | _, _ => []

def runningHistoryDiagnostics : List Diagnostic :=
  if context.result.workflowStatus ≠ .running then []
  else if context.history.getLast?.any (·.IsTerminal) then
    [contractDiagnostic context.address
      "Running workflows may not end history with a terminal event."]
  else []

def notRequiredCompensationHistoryDiagnostics (events : List WorkflowHistoryEvent) :
    List Diagnostic :=
  if context.result.compensationStatus ≠ .notRequired ∨ events.isEmpty then []
  else [contractDiagnostic context.address
    "Workflows without compensation activity may not emit compensation events."]

def runningCompensationHistoryDiagnostics (events : List WorkflowHistoryEvent) : List Diagnostic :=
  if context.result.compensationStatus ≠ .running then []
  else if events.any (·.eventType = .compensationStarted) then []
  else [contractDiagnostic context.address
    "compensation_status=running requires a compensation_started history event."]

def expectedFinalCompensationEvent :
    WorkflowCompensationStatus → Option (WorkflowHistoryEventType × String)
  | .succeeded => some (.compensationCompleted,
      "compensation_status=succeeded requires a final compensation_completed history event.")
  | .failed => some (.compensationFailed,
      "compensation_status=failed requires a final compensation_failed history event.")
  | _ => none

def completedCompensationHistoryDiagnostics (events : List WorkflowHistoryEvent) :
    List Diagnostic :=
  match events.getLast?, expectedFinalCompensationEvent context.result.compensationStatus with
  | some final, some (expected, message) =>
    if final.eventType = expected then [] else [contractDiagnostic context.address message]
  | _, _ => []

def compensationHistoryDiagnostics : List Diagnostic :=
  let events := context.history.filter (·.IsCompensation)
  notRequiredCompensationHistoryDiagnostics context events ++
    runningCompensationHistoryDiagnostics context events ++
    completedCompensationHistoryDiagnostics context events

def workflowHistoryContractDiagnostics : List Diagnostic :=
  if context.history.isEmpty then []
  else historyStartDiagnostics context ++
    context.history.flatMap (historyEventDiagnostics repr context) ++
    terminalHistoryDiagnostics repr context ++ runningHistoryDiagnostics context ++
    compensationHistoryDiagnostics context

def workflowContextDiagnostics : List Diagnostic :=
  schemaDiagnostics repr context ++ workflowCompensationRequirementDiagnostics context ++
    workflowStepPresenceDiagnostics context ++ workflowStepContractDiagnostics context ++
    workflowExecutionStepDiagnostics repr context ++
    workflowHistoryContractDiagnostics repr context

/-! ## What the checks leave open -/

variable {repr context}

/-- A history that tells of one run with the reported result. -/
structure ConsistentRun (result : WorkflowExecutionState) (history : List WorkflowHistoryEvent) :
    Prop where
  started : history.head?.map (·.eventType) = some .workflowStarted
  ended : ∀ kind, terminalEventType result.workflowStatus = some kind →
    ∃ before final after, history = before ++ final :: after ∧ final.eventType = kind ∧
      (∀ e ∈ before, ¬ e.IsTerminal) ∧ ∀ e ∈ after, e.IsCompensation
  ongoing : terminalEventType result.workflowStatus = none → ∀ e ∈ history, ¬ e.IsTerminal
  compensated : ∀ kind message,
    expectedFinalCompensationEvent result.compensationStatus = some (kind, message) →
    (∃ e ∈ history, e.eventType = .compensationStarted) ∧
      ((history.filter (·.IsCompensation)).getLast?.map (·.eventType)) = some kind

/-- What no check asks of a history: nothing but compensation follows a terminal event, a
pending workflow does not end with one, and completed compensation was started. -/
structure Sealed (result : WorkflowExecutionState) (history : List WorkflowHistoryEvent) :
    Prop where
  tail : history.Pairwise fun e later => e.IsTerminal → later.IsCompensation
  pending : result.workflowStatus = .pending → ∀ e ∈ history.getLast?, ¬ e.IsTerminal
  compensationStarted : (expectedFinalCompensationEvent result.compensationStatus).isSome →
    ∃ e ∈ history, e.eventType = .compensationStarted

theorem not_isCompensation_of_isTerminal {e : WorkflowHistoryEvent} (h : e.IsTerminal) :
    ¬ e.IsCompensation := by
  unfold WorkflowHistoryEvent.IsTerminal at h
  unfold WorkflowHistoryEvent.IsCompensation
  revert h
  cases e.eventType <;> decide

theorem isTerminal_of_terminalEventType {e : WorkflowHistoryEvent} {status : WorkflowStatus}
    (h : terminalEventType status = some e.eventType) : e.IsTerminal := by
  unfold WorkflowHistoryEvent.IsTerminal
  revert h
  generalize e.eventType = kind
  cases status <;> cases kind <;> decide

/-- The passes over the history of an accepted result. -/
structure Passed (context : WorkflowContext) : Prop where
  requirement : nonTerminalWorkflowHasCompensation context = false
  started : context.history.head?.map (·.eventType) = some .workflowStarted
  terminal : ∀ kind, terminalEventType context.result.workflowStatus = some kind →
    ∃ e ∈ context.history, e.eventType = kind
  running : context.result.workflowStatus = .running → ∀ e ∈ context.history.getLast?,
    ¬ e.IsTerminal
  notRequired : context.result.compensationStatus = .notRequired →
    context.history.filter (·.IsCompensation) = []
  completed : ∀ kind message,
    expectedFinalCompensationEvent context.result.compensationStatus = some (kind, message) →
    ∀ e ∈ (context.history.filter (·.IsCompensation)).getLast?, e.eventType = kind

theorem exists_of_terminalHistoryDiagnostics {kind : WorkflowHistoryEventType}
    (h : terminalHistoryDiagnostics repr context = [])
    (hkind : terminalEventType context.result.workflowStatus = some kind) :
    ∃ e ∈ context.history, e.eventType = kind := by
  rw [terminalHistoryDiagnostics, hkind] at h
  dsimp only at h
  by_contra hnone
  have hindexes : context.history.findIdxs (·.eventType = kind) = [] := by
    rw [List.findIdxs_eq_nil_iff]
    exact fun e he => decide_eq_false fun heq => hnone ⟨e, he, heq⟩
  rw [hindexes] at h
  exact List.cons_ne_nil _ _ (List.append_eq_nil_iff.mp h).1

theorem passed_of_workflowContextDiagnostics (hne : context.history ≠ [])
    (h : workflowContextDiagnostics repr context = []) : Passed context := by
  simp only [workflowContextDiagnostics, workflowCompensationRequirementDiagnostics,
    workflowHistoryContractDiagnostics, compensationHistoryDiagnostics, List.append_eq_nil_iff,
    List.isEmpty_iff, if_neg hne] at h
  obtain ⟨⟨⟨⟨⟨-, hrequirement, -⟩, -⟩, -⟩, -⟩, ⟨⟨⟨hstart, -⟩, hterminal⟩, hrunning⟩,
    ⟨hnotRequired, -⟩, hcompleted⟩ := h
  constructor
  · by_contra hreport
    rw [if_pos (Bool.eq_true_of_not_eq_false hreport)] at hrequirement
    cases hrequirement
  · by_contra hother
    rw [historyStartDiagnostics, if_neg hother] at hstart
    cases hstart
  · exact fun kind => exists_of_terminalHistoryDiagnostics hterminal
  · intro hstatus e he hlast
    rw [runningHistoryDiagnostics, if_neg (not_not_intro hstatus), he, Option.any_some,
      if_pos (decide_eq_true hlast)] at hrunning
    cases hrunning
  · intro hstatus
    by_contra hevents
    rw [notRequiredCompensationHistoryDiagnostics, if_neg] at hnotRequired
    · cases hnotRequired
    · rw [List.isEmpty_iff]
      exact not_or.mpr ⟨not_not_intro hstatus, hevents⟩
  · intro kind message hkind e he
    rw [completedCompensationHistoryDiagnostics, he, hkind] at hcompleted
    dsimp only at hcompleted
    by_contra hother
    rw [if_neg hother] at hcompleted
    cases hcompleted

theorem ConsistentRun.sealed {result : WorkflowExecutionState} {history : List WorkflowHistoryEvent}
    (h : ConsistentRun result history) : Sealed result history where
  tail := by
    cases hkind : terminalEventType result.workflowStatus with
    | none => exact List.pairwise_of_forall_mem_list fun e he _ _ hend =>
        absurd hend (h.ongoing hkind e he)
    | some kind =>
      obtain ⟨before, final, after, rfl, -, hbefore, hafter⟩ := h.ended kind hkind
      refine List.pairwise_append.mpr ⟨?_, List.pairwise_cons.mpr ⟨?_, ?_⟩, ?_⟩
      · exact List.pairwise_of_forall_mem_list fun e he _ _ hend => absurd hend (hbefore e he)
      · exact fun e he _ => hafter e he
      · exact List.pairwise_of_forall_mem_list fun _ _ e he _ => hafter e he
      · exact fun e he _ _ hend => absurd hend (hbefore e he)
  pending hstatus e he :=
    h.ongoing (by rw [hstatus]; rfl) e (List.mem_of_getLast? he)
  compensationStarted hsome := by
    obtain ⟨⟨kind, message⟩, hkind⟩ := Option.isSome_iff_exists.mp hsome
    exact (h.compensated kind message hkind).1

theorem Passed.not_isTerminal (h : Passed context) (hsealed : Sealed context.result context.history)
    (hkind : terminalEventType context.result.workflowStatus = none) :
    ∀ e ∈ context.history, ¬ e.IsTerminal := by
  intro e he hend
  obtain ⟨before, after, hsplit⟩ := List.append_of_mem he
  have hstatus : context.result.workflowStatus = .pending ∨
      context.result.workflowStatus = .running := by
    cases hs : context.result.workflowStatus <;> rw [hs] at hkind <;> simp_all [terminalEventType]
  have hnone : context.history.filter (·.IsCompensation) = [] := by
    refine h.notRequired (by_contra fun hstatus' => ?_)
    have hreport := h.requirement
    rw [nonTerminalWorkflowHasCompensation] at hreport
    rcases hstatus with hs | hs <;> simp [hs, hstatus'] at hreport
  have hafter : after = [] := by
    cases after with
    | nil => rfl
    | cons later rest =>
      have htail := hsealed.tail
      rw [hsplit] at htail
      have hlater : later.IsCompensation :=
        (List.pairwise_cons.mp (List.pairwise_append.mp htail).2.1).1 later List.mem_cons_self hend
      have hmem : later ∈ context.history.filter (·.IsCompensation) := by
        rw [List.mem_filter, hsplit]
        exact ⟨by simp, decide_eq_true hlater⟩
      rw [hnone] at hmem
      cases hmem
  have hlast : e ∈ context.history.getLast? := by
    rw [hsplit, hafter, List.getLast?_concat]
    rfl
  cases hstatus with
  | inl hpending => exact hsealed.pending hpending e hlast hend
  | inr hrunning => exact h.running hrunning e hlast hend

theorem Passed.consistentRun (h : Passed context)
    (hsealed : Sealed context.result context.history) :
    ConsistentRun context.result context.history where
  started := h.started
  ended kind hkind := by
    obtain ⟨final, hmem, rfl⟩ := h.terminal kind hkind
    have hfinal := isTerminal_of_terminalEventType hkind
    obtain ⟨before, after, hsplit⟩ := List.append_of_mem hmem
    have htail := hsealed.tail
    rw [hsplit, List.pairwise_append, List.pairwise_cons] at htail
    refine ⟨before, final, after, hsplit, rfl, fun e he hend => ?_, fun e he => ?_⟩
    · -- the terminal event itself would have to be a compensation event
      exact not_isCompensation_of_isTerminal hfinal
        (htail.2.2 e he final List.mem_cons_self hend)
    · exact htail.2.1.1 e he hfinal
  ongoing := h.not_isTerminal hsealed
  compensated kind message hkind := by
    obtain ⟨e, hmem, hstarted⟩ := hsealed.compensationStarted (by rw [hkind]; rfl)
    refine ⟨⟨e, hmem, hstarted⟩, ?_⟩
    have hcompensation : e ∈ context.history.filter (·.IsCompensation) := by
      rw [List.mem_filter]
      exact ⟨hmem, decide_eq_true (show e.eventType ∈ _ by rw [hstarted]; decide)⟩
    obtain ⟨final, hfinal⟩ := Option.isSome_iff_exists.mp
      (List.getLast?_isSome.mpr (List.ne_nil_of_mem hcompensation))
    rw [hfinal]
    exact congrArg some (h.completed kind message hkind final hfinal)

/-- A reported result of a workflow without steps, with a history of plain events. -/
def plainContext (status : WorkflowStatus) (kinds : List WorkflowHistoryEventType) :
    WorkflowContext where
  address := "orchestration.workflow.w"
  resultContract := ⟨"workflow-step-state/v1", .empty⟩
  executionContract :=
    ⟨"workflow-step-state/v1", .empty, .empty, .empty, .empty, "disabled", [], .empty⟩
  result := ⟨"workflow-step-state/v1", status, .notRequired, .empty⟩
  history := kinds.map fun kind => ⟨kind, none, none, ""⟩

end Raes.Orchestration
