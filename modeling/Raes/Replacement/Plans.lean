import Raes.Lib.Dict
import Raes.Lib.ExceptList
import Raes.Json

/-!
# Admitted trial plans and their records

The contracts that a replacement analysis reads: an admitted trial plan with its
entries and cleanup plans (`admitted_trial_plan.py`, `trial_cleanup.py`), the
replacement policy and origin of a plan (`trial_replacement.py`), an experiment
run with its provenance (`experiment_run.py`, `trial_provenance.py`), and the
cleanup receipt of an attempt.
-/

namespace Raes.Replacement

open PyError

inductive RunStatus where
  | sealed | completed | failed | aborted | invalidated | superseded | inProgress | indeterminate
  deriving DecidableEq

inductive OutcomeStatus where
  | succeeded | failed | partly | inconclusive | notEvaluated
  deriving DecidableEq

inductive RecordState where
  | archival | partialRecord
  deriving DecidableEq

inductive TrialOutcome where
  | succeeded | failed | cancelled | timedOut | aborted
  deriving DecidableEq

inductive CleanupOutcome where
  | succeeded | failed | partly | unsupported | unverified | notRequired
  deriving DecidableEq

inductive CleanupTrigger where
  | success | failure | cancellation | timeout | retry | abort
  deriving DecidableEq

inductive CleanupRequirement where
  | required | bestEffort
  deriving DecidableEq

inductive ResultStatus where
  | succeeded | failed | skipped | unsupported | unverified | notTriggered
  deriving DecidableEq

inductive CleanStateMode where
  | fresh | verifiedReset | declaredReusable | freshRangeRequired
  deriving DecidableEq

inductive CleanStateDisposition where
  | verifiedClean | declaredReusable | freshRangeRequired
  deriving DecidableEq

/-- An `ExperimentReferenceModel`. -/
structure Reference where
  (refKind refId : String)
  (refVersion refDigest refPath : Option String)
  deriving DecidableEq

structure TrialCoordinate where
  (conditionId blockId replicateId : Option String)
  deriving DecidableEq

structure CleanupObligation where
  requirement : CleanupRequirement
  triggers : List CleanupTrigger

structure TrialCleanupPlan where
  (planId planEntryId runId : String)
  cleanStateMode : CleanStateMode
  /-- The keys of `resource_boundaries` -/
  resourceBoundaries : List String
  cleanupObligations : Dict String CleanupObligation
  /-- `retry_policy.max_attempts` -/
  maxAttempts : ℕ

structure CleanStateClaim where
  disposition : CleanStateDisposition
  boundaryRefs : List String

structure TrialCleanupReceipt where
  (receiptId cleanupPlanRef planEntryId runId executionAttemptId : String)
  trialOutcome : TrialOutcome
  cleanupStatus : CleanupOutcome
  obligationResults : Dict String ResultStatus
  cleanStateClaim : Option CleanStateClaim
  /-- The evidence of the results and of the claim -/
  content : Json

structure TrialReplacementPolicy where
  maxReplacements : ℕ
  replaceOn : List RunStatus
  deriving DecidableEq

structure TrialReplacementOrigin where
  (rootPlanId rootPlanDigest rootEntryId : String)
  ordinal : ℕ
  (parentPlanId parentPlanDigest parentEntryId parentRunId parentRunVersion : String)
  (parentRunDigest cleanupReceiptRef : String)
  deriving DecidableEq

structure AdmittedTrialEntry where
  (planEntryId runId entryDigest : String)
  coordinate : TrialCoordinate
  /-- `execution_controls.cleanup_plan_ref` -/
  cleanupPlanRef : String
  /-- The selections, bindings, draws and configurations of the entry -/
  content : Json

structure AdmittedTrialPlan where
  (planId compilerProfile : String)
  (authoringInputRef taskRef : Reference)
  cleanupPlans : Dict String TrialCleanupPlan
  replacementPolicy : Option TrialReplacementPolicy
  replacementOrigin : Option TrialReplacementOrigin
  entries : Dict String AdmittedTrialEntry
  planDigest : String
  content : Json

structure TrialExecutionAttempt where
  (executionAttemptId cleanupReceiptRef : String)

structure TrialRunProvenance where
  (planId planDigest planEntryId entryDigest admittedRunId : String)
  coordinate : TrialCoordinate
  instantiatedScenarioDigest : String
  executionAttempts : List TrialExecutionAttempt
  terminalAttemptId : String

structure ExecutionAccounting where
  (planId planDigest planEntryId entryDigest : String)
  /-- The `cleanup_receipt` of each attempt -/
  attempts : List (Option TrialCleanupReceipt)
  participantConfigurations : Json

structure Invalidation where
  (invalidatedAt reason : String)
  supersededBy : Option Reference

structure ExperimentRun where
  recordState : RecordState
  executionAccounting : Option ExecutionAccounting
  (runId runVersion : String)
  taskRef : Reference
  /-- `scenario_snapshot_ref.ref_digest` -/
  scenarioDigest : String
  trialProvenance : Option TrialRunProvenance
  endedAt : Option String
  runStatus : RunStatus
  outcomeStatus : OutcomeStatus
  invalidation : Option Invalidation
  derivedFromRefs : List Reference
  (validationBasisDisclosures evidenceRequirementRelations : List Json)
  /-- The members of the record that only its own contract reads -/
  content : Json

/-- What the analysis takes from the model library and from the contracts of the
values it does not read. -/
structure Contracts where
  /-- The validators of an admitted trial plan beside its identities and joins -/
  planContent : AdmittedTrialPlan → Except PyError Unit
  runContent : ExperimentRun → Except PyError Unit
  receiptContent : TrialCleanupReceipt → Except PyError Unit
  /-- `_digest` -/
  runDigest : ExperimentRun → String
  /-- Equality of two receipts, and of the configurations of a run and an entry -/
  sameReceipt : TrialCleanupReceipt → TrialCleanupReceipt → Bool
  sameConfigurations : Json → AdmittedTrialEntry → Bool
  runSelectionProvenance : AdmittedTrialEntry → ExperimentRun → Except PyError Unit
  runBindingProvenance : AdmittedTrialEntry → ExperimentRun → Except PyError Unit
  runStochasticProvenance :
    AdmittedTrialPlan → AdmittedTrialEntry → ExperimentRun → Except PyError Unit

namespace AdmittedTrialPlan

def replacementProfile (plan : AdmittedTrialPlan) : Bool :=
  "trial-compiler-replacement-".toList.isPrefixOf plan.compilerProfile.toList

def validateReplacement (plan : AdmittedTrialPlan) : Except PyError Unit := do
  refuseIf (plan.replacementProfile ≠ plan.replacementOrigin.isSome)
    (valueError "replacement lineage requires the replacement compiler profile")
  match plan.replacementOrigin with
  | none => pure ()
  | some origin =>
    -- without a policy every ordinal exceeds it
    refuseIf (plan.replacementPolicy.all fun policy => policy.maxReplacements < origin.ordinal)
      (valueError "replacement ordinal exceeds the original allocation policy")
    refuseIf (plan.entries.values.length ≠ 1 ∨ plan.planId ∈ [origin.rootPlanId, origin.parentPlanId])
      (valueError "replacement must be a distinct single-entry plan")
    forM plan.entries.values.head? fun entry =>
      refuseIf (entry.runId = origin.parentRunId)
        (valueError "replacement cannot reuse its parent run identity")

def validateMapKeys (plan : AdmittedTrialPlan) : Except PyError Unit := do
  forM plan.cleanupPlans.entries fun item =>
    refuseIf (item.1 ≠ item.2.planId)
      (valueError "cleanup_plans map key must equal the embedded cleanup plan_id")
  forM plan.entries.entries fun item =>
    refuseIf (item.1 ≠ item.2.planEntryId)
      (valueError "entries map key must equal the embedded plan_entry_id")

def validateIdentityGraph (plan : AdmittedTrialPlan) : Except PyError Unit := do
  let runIds := plan.entries.values.map AdmittedTrialEntry.runId
  refuseIf (¬ runIds.Nodup) (valueError "entry run_id must be unique")
  refuseIf (plan.planId ∈ runIds) (valueError "plan_id must be distinct from every entry run_id")
  refuseIf (∃ runId ∈ runIds, runId ∈ plan.entries.keys)
    (valueError "entry run_id must be distinct from every plan_entry_id")
  refuseIf (¬ (plan.entries.values.map AdmittedTrialEntry.coordinate).Nodup)
    (valueError "admitted entries must have unique logical coordinates")

def validateCleanupJoins (plan : AdmittedTrialPlan) : Except PyError Unit := do
  forM plan.entries.values fun entry =>
    match plan.cleanupPlans.get? entry.cleanupPlanRef with
    | none => throw (valueError "entry cleanup_plan_ref does not resolve to a plan cleanup block")
    | some cleanupPlan =>
      refuseIf (cleanupPlan.planEntryId ≠ entry.planEntryId ∨ cleanupPlan.runId ≠ entry.runId)
        (valueError "referenced cleanup plan must bind the same plan_entry_id and run_id as the entry")
  refuseIf (∃ ref ∈ plan.cleanupPlans.keys,
      ref ∉ plan.entries.values.map AdmittedTrialEntry.cleanupPlanRef)
    (valueError "cleanup plans must be referenced by an entry")

def validatePlan (contracts : Contracts) (plan : AdmittedTrialPlan) : Except PyError Unit := do
  plan.validateReplacement
  plan.validateMapKeys
  plan.validateIdentityGraph
  plan.validateCleanupJoins
  contracts.planContent plan

/-- `plan.cleanup_plans[entry.execution_controls.cleanup_plan_ref]` -/
def cleanupPlanOf (plan : AdmittedTrialPlan) (entry : AdmittedTrialEntry) :
    Except PyError TrialCleanupPlan :=
  match plan.cleanupPlans.get? entry.cleanupPlanRef with
  | some cleanup => .ok cleanup
  | none => .error (keyError entry.cleanupPlanRef)

end AdmittedTrialPlan

def revalidated (contracts : Contracts) (plan : AdmittedTrialPlan) :
    Except PyError AdmittedTrialPlan :=
  match plan.validatePlan contracts with
  | .ok () => .ok plan
  | .error _ => .error (valueError "Admitted trial plan contract validation failed")

theorem revalidated_ok_iff (contracts : Contracts) (plan validated : AdmittedTrialPlan) :
    revalidated contracts plan = .ok validated ↔
      plan.validatePlan contracts = .ok () ∧ validated = plan := by
  unfold revalidated
  cases plan.validatePlan contracts with
  | error error => simp
  | ok u => simp [eq_comm]

section Valid

variable {contracts : Contracts} {plan : AdmittedTrialPlan}

section

variable (h : plan.validatePlan contracts = .ok ())
include h

theorem planEntryId_of_get? {k : String}
    {entry : AdmittedTrialEntry} (hentry : plan.entries.get? k = some entry) :
    entry.planEntryId = k := by
  unfold AdmittedTrialPlan.validatePlan AdmittedTrialPlan.validateMapKeys at h
  simp only [seq_eq_ok_iff, forM_eq_ok_iff, refuseIf_eq_ok_iff, not_not] at h
  exact (h.2.1.2 (k, entry) (Dict.get?_eq_some_iff.mp hentry)).symm

/-- What a valid plan with an origin is: within its budget, and of one entry. -/
theorem single_of_origin {origin : TrialReplacementOrigin}
    (horigin : plan.replacementOrigin = some origin) :
    (∃ policy, plan.replacementPolicy = some policy ∧ origin.ordinal ≤ policy.maxReplacements) ∧
    ∃ entry, plan.entries.values = [entry] := by
  unfold AdmittedTrialPlan.validatePlan AdmittedTrialPlan.validateReplacement at h
  rw [horigin] at h
  simp only [seq_eq_ok_iff, refuseIf_eq_ok_iff, not_or] at h
  obtain ⟨⟨-, hpolicy, hsingle, -⟩, -⟩ := h
  constructor
  · cases hp : plan.replacementPolicy with
    | none =>
      rw [hp] at hpolicy
      exact absurd rfl hpolicy
    | some policy =>
      rw [hp] at hpolicy
      have hle : ¬ policy.maxReplacements < origin.ordinal := by simpa using hpolicy
      exact ⟨policy, rfl, Nat.le_of_not_lt hle⟩
  · exact List.length_eq_one_iff.mp (not_not.mp hsingle.1)

theorem cleanupPlan_binds {entry : AdmittedTrialEntry}
    (hentry : entry ∈ plan.entries.values) {cleanup : TrialCleanupPlan}
    (hcleanup : plan.cleanupPlanOf entry = .ok cleanup) :
    cleanup.planEntryId = entry.planEntryId ∧ cleanup.runId = entry.runId := by
  unfold AdmittedTrialPlan.validatePlan AdmittedTrialPlan.validateCleanupJoins at h
  simp only [seq_eq_ok_iff, forM_eq_ok_iff] at h
  have hjoin := h.2.2.2.1.1 entry hentry
  unfold AdmittedTrialPlan.cleanupPlanOf at hcleanup
  cases hget : plan.cleanupPlans.get? entry.cleanupPlanRef with
  | none =>
    rw [hget] at hcleanup
    cases hcleanup
  | some found =>
    rw [hget] at hcleanup hjoin
    cases hcleanup
    simpa [not_or] using hjoin

end

end Valid

end Raes.Replacement
