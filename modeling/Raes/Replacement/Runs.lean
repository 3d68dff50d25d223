import Mathlib.Data.String.Basic
import Raes.Lib.SortBy
import Raes.Replacement.Plans

/-!
# Runs against their admitted plan

The join of a retained run to its admitted entry and to the receipts of its
attempts (`trial_analysis.py`), the check of a receipt against its cleanup plan
(`trial_cleanup.py`), and the successor version of a replaced run
(`trial_replacement_archive.py`).
-/

namespace Raes.Replacement

open PyError

/-! ## Cleanup receipts -/

def outcomeTrigger : TrialOutcome → CleanupTrigger
  | .succeeded => .success
  | .failed => .failure
  | .cancelled => .cancellation
  | .timedOut => .timeout
  | .aborted => .abort

def validateOwedRequiredResult (obligationId : String) (receipt : TrialCleanupReceipt) :
    Except PyError Unit :=
  match receipt.obligationResults.get? obligationId with
  | none => throw (valueError "required cleanup obligation must report an attempted outcome")
  | some status => do
    refuseIf (status ∈ [.skipped, .notTriggered])
      (valueError "required cleanup obligation must report an attempted outcome")
    refuseIf (receipt.cleanupStatus = .succeeded ∧ status ≠ .succeeded)
      (valueError "succeeded cleanup status requires required cleanup obligation to succeed")

def validateResultTriggerConsistency (triggered : Bool) (status : ResultStatus) :
    Except PyError Unit := do
  refuseIf (triggered ∧ status = .notTriggered)
    (valueError "a triggered cleanup obligation cannot be reported 'not-triggered'")
  refuseIf (¬ triggered ∧ status ≠ .notTriggered)
    (valueError "an untriggered cleanup obligation can only be reported 'not-triggered'")

def validateCleanupReceiptResults (cleanupObligations : Dict String CleanupObligation)
    (receipt : TrialCleanupReceipt) : Except PyError Unit := do
  let trigger := outcomeTrigger receipt.trialOutcome
  forM (sortBy Prod.fst cleanupObligations.entries) fun item =>
    if item.2.requirement = .required ∧ trigger ∈ item.2.triggers then
      validateOwedRequiredResult item.1 receipt
    else pure ()
  forM (sortBy Prod.fst receipt.obligationResults.entries) fun item =>
    match cleanupObligations.get? item.1 with
    | none => throw (keyError item.1)
    | some obligation => do
      validateResultTriggerConsistency (trigger ∈ obligation.triggers) item.2
      refuseIf (receipt.cleanupStatus = .succeeded ∧ item.2 ∉ [.succeeded, .notTriggered])
        (valueError "succeeded cleanup status cannot include unsuccessful result")

def validateTrialCleanupReceipt (plan : TrialCleanupPlan) (receipt : TrialCleanupReceipt) :
    Except PyError Unit := do
  refuseIf (receipt.cleanupPlanRef ≠ plan.planId)
    (valueError "cleanup receipt cleanup_plan_ref must match plan_id")
  refuseIf (receipt.planEntryId ≠ plan.planEntryId ∨ receipt.runId ≠ plan.runId)
    (valueError "cleanup receipt plan_entry_id and run_id must match the cleanup plan")
  refuseIf (∃ k ∈ receipt.obligationResults.keys, k ∉ plan.cleanupObligations.keys)
    (valueError "cleanup receipt references unknown obligations")
  validateCleanupReceiptResults plan.cleanupObligations receipt
  refuseIf (receipt.cleanStateClaim.any fun claim =>
      claim.boundaryRefs.any fun ref => ref ∉ plan.resourceBoundaries)
    (valueError "clean state claim references unknown resource boundaries")

section Run

variable (contracts : Contracts)

/-- The last receipt under an id, as a dictionary by id holds it. -/
def receiptById (receipts : List TrialCleanupReceipt) (receiptId : String) :
    Option TrialCleanupReceipt :=
  receipts.reverse.find? fun receipt => receipt.receiptId == receiptId

/-- Two lists of receipts are one dictionary by id, value for value. -/
def sameReceipts (expected supplied : List TrialCleanupReceipt) : Bool :=
  (expected ++ supplied).all fun receipt =>
    match receiptById expected receipt.receiptId, receiptById supplied receipt.receiptId with
    | some a, some b => contracts.sameReceipt a b
    | _, _ => false

def validateAccountingCleanup (entry : AdmittedTrialEntry) (cleanupPlan : TrialCleanupPlan)
    (accounting : ExecutionAccounting) (cleanupReceipts : List TrialCleanupReceipt) :
    Except PyError Unit := do
  let retained := accounting.attempts.filterMap id
  refuseIf (¬ (cleanupReceipts.map TrialCleanupReceipt.receiptId).Nodup ∨
      ¬ sameReceipts contracts retained cleanupReceipts)
    (valueError "run cleanup accounting differs from retained receipts")
  forM retained fun receipt => do
    refuseIf (receipt.planEntryId ≠ entry.planEntryId ∨ receipt.runId ≠ entry.runId)
      (valueError "run accounting cleanup receipt belongs to another entry")
    validateTrialCleanupReceipt cleanupPlan receipt

variable (plan : AdmittedTrialPlan) (run : ExperimentRun)

def accountedEntry (accounting : ExecutionAccounting) : Except PyError AdmittedTrialEntry :=
  match plan.entries.get? accounting.planEntryId with
  | none => .error (valueError "run accounting does not match the admitted entry")
  | some entry => do
    refuseIf (entry.entryDigest ≠ accounting.entryDigest ∨ entry.runId ≠ run.runId)
      (valueError "run accounting does not match the admitted entry")
    pure entry

def validateTrialAccounting (cleanupReceipts : List TrialCleanupReceipt) : Except PyError Unit :=
  match run.executionAccounting with
  | none => .error (valueError "run accounting does not match the admitted plan")
  | some accounting => do
    refuseIf (accounting.planId ≠ plan.planId ∨ accounting.planDigest ≠ plan.planDigest)
      (valueError "run accounting does not match the admitted plan")
    let entry ← accountedEntry plan run accounting
    refuseIf (¬ contracts.sameConfigurations accounting.participantConfigurations entry)
      (valueError "run accounting must preserve admitted participant configurations")
    contracts.runSelectionProvenance entry run
    contracts.runStochasticProvenance plan entry run
    let cleanupPlan ← plan.cleanupPlanOf entry
    refuseIf (accounting.attempts.length > cleanupPlan.maxAttempts)
      (valueError "run accounting attempts exceed the admitted retry policy")
    validateAccountingCleanup contracts entry cleanupPlan accounting cleanupReceipts

def validateRunPlanLinkage (run : ExperimentRun) :
    Except PyError (AdmittedTrialEntry × TrialRunProvenance) :=
  match run.trialProvenance with
  | none => .error (valueError "plan-aware archival run requires trial_provenance")
  | some linkage => do
    refuseIf (linkage.planId ≠ plan.planId ∨ linkage.planDigest ≠ plan.planDigest)
      (valueError "archival run trial provenance does not match the admitted plan")
    match plan.entries.get? linkage.planEntryId with
    | none => throw (valueError "archival run references an unknown admitted plan entry")
    | some entry =>
      refuseIf (linkage.entryDigest ≠ entry.entryDigest ∨ linkage.admittedRunId ≠ entry.runId ∨
          linkage.coordinate ≠ entry.coordinate ∨ run.runId ≠ entry.runId)
        (valueError "archival run identity or coordinate does not match the admitted entry")
      refuseIf (run.scenarioDigest ≠ linkage.instantiatedScenarioDigest)
        (valueError "archival run scenario snapshot does not match trial provenance")
      pure (entry, linkage)

/-- The last attempt under an id, as a dictionary by id holds it. -/
def attemptById (linkage : TrialRunProvenance) (attemptId : String) :
    Option TrialExecutionAttempt :=
  linkage.executionAttempts.reverse.find? fun attempt => attempt.executionAttemptId == attemptId

/-- `_validate_run_attempt_evidence`, with the receipt of the terminal attempt. -/
def validateRunAttemptEvidence (cleanupPlan : TrialCleanupPlan) (linkage : TrialRunProvenance)
    (cleanupReceipts : List TrialCleanupReceipt) : Except PyError TrialCleanupReceipt := do
  refuseIf (¬ (cleanupReceipts.map TrialCleanupReceipt.receiptId).Nodup)
    (valueError "cleanup receipt identities must be unique")
  forM linkage.executionAttempts fun named =>
    match attemptById linkage named.executionAttemptId with
    | none => throw (keyError named.executionAttemptId)
    | some attempt =>
      match receiptById cleanupReceipts attempt.cleanupReceiptRef with
      | none => throw (valueError
          "execution attempt reference does not resolve to matching cleanup evidence")
      | some receipt => do
        refuseIf (receipt.executionAttemptId ≠ attempt.executionAttemptId) (valueError
          "execution attempt reference does not resolve to matching cleanup evidence")
        validateTrialCleanupReceipt cleanupPlan receipt
  match attemptById linkage linkage.terminalAttemptId with
  | none => throw (keyError linkage.terminalAttemptId)
  | some terminalAttempt =>
    match receiptById cleanupReceipts terminalAttempt.cleanupReceiptRef with
    | none => throw (keyError terminalAttempt.cleanupReceiptRef)
    | some receipt => pure receipt

def expectedStatuses : TrialOutcome → List RunStatus
  | .succeeded => [.completed, .sealed]
  | .failed => [.failed]
  | .cancelled => [.aborted]
  | .timedOut => [.failed, .aborted]
  | .aborted => [.aborted]

def validateTrialTerminalOutcome (terminalReceipt : TrialCleanupReceipt) : Except PyError Unit :=
  refuseIf (run.runStatus ∉ [.invalidated, .superseded] ∧
      run.runStatus ∉ expectedStatuses terminalReceipt.trialOutcome)
    (valueError "archival run status does not match the terminal execution attempt")

def validateArchivalRun (cleanupReceipts : List TrialCleanupReceipt) : Except PyError Unit := do
  let (entry, linkage) ← validateRunPlanLinkage plan run
  contracts.runBindingProvenance entry run
  contracts.runStochasticProvenance plan entry run
  let cleanupPlan ← plan.cleanupPlanOf entry
  let terminalReceipt ← validateRunAttemptEvidence cleanupPlan linkage cleanupReceipts
  validateTrialTerminalOutcome run terminalReceipt

def validateAdmittedTrialRun
    (cleanupReceipts : List TrialCleanupReceipt) : Except PyError Unit := do
  contracts.runContent run
  if run.recordState = .partialRecord ∨ run.executionAccounting.isSome then
    validateTrialAccounting contracts plan run cleanupReceipts
  if run.recordState = .partialRecord then pure ()
  else validateArchivalRun contracts plan run cleanupReceipts

end Run

end Raes.Replacement

/-!
# The replaced parent and its successor version

A replacement looks at its parent once more: every attempt of the parent entry is
accounted for, the terminal cleanup left reusable resources, and the archive keeps
the successor version of the parent run (`trial_replacement_archive.py`).
-/

namespace Raes.Replacement

open PyError

structure ReplacementPlan where
  plan : AdmittedTrialPlan
  origin : TrialReplacementOrigin
  entry : AdmittedTrialEntry
  linked : plan.replacementOrigin = some origin
  single : plan.entries.values = [entry]

def SameSet {α : Type} (a b : List α) : Prop := (∀ x ∈ a, x ∈ b) ∧ ∀ x ∈ b, x ∈ a

instance {α : Type} [DecidableEq α] (a b : List α) : Decidable (SameSet a b) :=
  inferInstanceAs (Decidable ((∀ x ∈ a, x ∈ b) ∧ ∀ x ∈ b, x ∈ a))

theorem SameSet.perm_iff {α : Type} {a a' b b' : List α} (ha : a.Perm a') (hb : b.Perm b') :
    SameSet a b ↔ SameSet a' b' := by
  simp only [SameSet, ha.mem_iff, hb.mem_iff]

/-! ## The accounting of one plan -/

def receiptsOf (receiptsByEntry : List (String × TrialCleanupReceipt)) (entryId : String) :
    List TrialCleanupReceipt :=
  (receiptsByEntry.filter fun item => item.1 = entryId).map Prod.snd

/-- `_index_cleanup_receipts`, with the receipts that were seen. -/
def indexCleanupReceipts (plan : AdmittedTrialPlan) :
    List (String × TrialCleanupReceipt) → List TrialCleanupReceipt →
      Except PyError (List (String × TrialCleanupReceipt))
  | seen, [] => .ok seen
  | seen, receipt :: rest => do
    refuseIf (∃ item ∈ seen, item.2.receiptId = receipt.receiptId ∨
        item.2.executionAttemptId = receipt.executionAttemptId)
      (valueError "attempt and cleanup receipt identities must be globally unique")
    match plan.entries.get? receipt.planEntryId with
    | none => throw (valueError "cleanup receipt does not resolve to an admitted plan entry")
    | some entry => do
      refuseIf (receipt.runId ≠ entry.runId)
        (valueError "cleanup receipt does not resolve to an admitted plan entry")
      let cleanupPlan ← plan.cleanupPlanOf entry
      validateTrialCleanupReceipt cleanupPlan receipt
      let receiptsByEntry := seen ++ [(entry.planEntryId, receipt)]
      refuseIf ((receiptsOf receiptsByEntry entry.planEntryId).length > cleanupPlan.maxAttempts)
        (valueError "execution attempts exceed the admitted retry policy")
      indexCleanupReceipts plan receiptsByEntry rest

/-- `_index_archival_runs`, with the entries that have a run. -/
def indexArchivalRuns (contracts : Contracts) (plan : AdmittedTrialPlan)
    (receiptsByEntry : List (String × TrialCleanupReceipt)) :
    List String → List ExperimentRun → Except PyError (List String)
  | seen, [] => .ok seen
  | seen, run :: rest =>
    match run.trialProvenance with
    | none => .error (valueError
        "plan reconciliation requires trial provenance on every archival run")
    | some linkage => do
      refuseIf (linkage.planEntryId ∈ seen)
        (valueError "an admitted entry has more than one archival run")
      let entryReceipts := receiptsOf receiptsByEntry linkage.planEntryId
      validateAdmittedTrialRun contracts plan run entryReceipts
      refuseIf (¬ SameSet (linkage.executionAttempts.map TrialExecutionAttempt.cleanupReceiptRef)
          (entryReceipts.map TrialCleanupReceipt.receiptId))
        (valueError
          "archival run must account for every execution attempt on its admitted entry")
      indexArchivalRuns contracts plan receiptsByEntry (seen ++ [linkage.planEntryId]) rest

structure AdmittedTrialPlanReconciliation where
  entryCount : ℕ
  (attemptedEntryIds unattemptedEntryIds archivedEntryIds : List String)

variable (contracts : Contracts)

def reconcileAdmittedTrialPlan (plan : AdmittedTrialPlan)
    (runs : List ExperimentRun) (cleanupReceipts : List TrialCleanupReceipt) :
    Except PyError AdmittedTrialPlanReconciliation := do
  let receiptsByEntry ← indexCleanupReceipts plan [] cleanupReceipts
  let archived ← indexArchivalRuns contracts plan receiptsByEntry [] runs
  let attempted := (receiptsByEntry.map Prod.fst).dedup
  pure
    { entryCount := plan.entries.entries.length
      attemptedEntryIds := sortBy id attempted
      unattemptedEntryIds := sortBy id (plan.entries.keys.filter (· ∉ attempted))
      archivedEntryIds := sortBy id archived }

/-! ## The parent of a replacement -/

def replacementParentCleanup (plan : AdmittedTrialPlan)
    (run : ExperimentRun) (receipts : List TrialCleanupReceipt) :
    Except PyError TrialCleanupReceipt := do
  let _ ← reconcileAdmittedTrialPlan contracts plan [run] receipts
  let terminal := run.trialProvenance.bind fun linkage =>
    linkage.executionAttempts.find? fun attempt =>
      attempt.executionAttemptId == linkage.terminalAttemptId
  match terminal with
  | none => throw ⟨.stopIteration, ""⟩
  | some attempt =>
    match receipts.find? fun receipt => receipt.receiptId == attempt.cleanupReceiptRef with
    | none => throw ⟨.stopIteration, ""⟩
    | some receipt => pure receipt

def replacementResourcesReusable (cleanup : TrialCleanupPlan) (receipt : TrialCleanupReceipt) :
    Bool :=
  match receipt.cleanStateClaim with
  | none => false
  | some claim =>
    decide (receipt.cleanupStatus = .succeeded ∧ claim.disposition ≠ .freshRangeRequired ∧
      SameSet claim.boundaryRefs cleanup.resourceBoundaries ∧
      (claim.disposition ≠ .declaredReusable ∨ cleanup.cleanStateMode = .declaredReusable) ∧
      cleanup.cleanStateMode ≠ .freshRangeRequired)

def supersededVersion (runVersion : String) (ordinal : ℕ) : String :=
  runVersion ++ ".superseded-" ++ toString ordinal

def supersededInvalidation (run : ExperimentRun) (successor : Reference) :
    Except PyError Invalidation :=
  match run.invalidation, run.endedAt with
  | some invalidation, _ => .ok { invalidation with supersededBy := some successor }
  | none, some endedAt =>
    .ok ⟨endedAt, "failed trial replaced under the admitted experiment policy", some successor⟩
  | none, none => .error (valueError "invalidated_at must be a string")

def buildSupersededTrialRun (run : ExperimentRun)
    (child : ReplacementPlan) : Except PyError ExperimentRun := do
  let invalidation ←
    supersededInvalidation run ⟨"run", child.entry.runId, some "1", none, none⟩
  let superseded : ExperimentRun :=
    { run with
      runVersion := supersededVersion run.runVersion child.origin.ordinal
      runStatus := .superseded
      validationBasisDisclosures := []
      evidenceRequirementRelations := []
      invalidation := some invalidation
      -- the reference of three members equals no dumped reference, which has five
      derivedFromRefs :=
        run.derivedFromRefs ++ [⟨"run", run.runId, some run.runVersion, none, none⟩] }
  contracts.runContent superseded
  pure superseded

theorem buildSupersededTrialRun_key {contracts : Contracts} {run superseded : ExperimentRun}
    {child : ReplacementPlan} (h : buildSupersededTrialRun contracts run child = .ok superseded) :
    superseded.runId = run.runId ∧
      superseded.runVersion = supersededVersion run.runVersion child.origin.ordinal := by
  unfold buildSupersededTrialRun at h
  simp only [bind_eq_ok_iff] at h
  obtain ⟨invalidation, -, u, -, h⟩ := h
  cases h
  exact ⟨rfl, rfl⟩

end Raes.Replacement
