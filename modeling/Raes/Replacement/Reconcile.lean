import Raes.Replacement.Runs

/-!
# Replacement lineage across plans

`reconcile_replacement_trials` (`trial_replacement_analysis.py`): index the plans,
the run versions and the receipts, rebuild the chain of replacements of every
allocation slot, and settle the slot by the run of its last plan.
-/

namespace Raes.Replacement

open PyError

structure ReplacementTrialReconciliation where
  analysisRuns : List ExperimentRun
  (shortfallEntryIds exhaustedEntryIds : List String)

/-- `_key` -/
def runKey (run : ExperimentRun) : String × String := (run.runId, run.runVersion)

/-! ## The index -/

/-- The plan of a replacement, when it has an origin.  A plan with an origin that
passed its own validators has one entry. -/
def replacementPlan? (plan : AdmittedTrialPlan) : Option ReplacementPlan :=
  match horigin : plan.replacementOrigin, hentries : plan.entries.values with
  | some origin, [entry] => some ⟨plan, origin, entry, horigin, hentries⟩
  | _, _ => none

/-- The original plan with its replacements, in the order of their ids' insertion. -/
structure Plans where
  root : AdmittedTrialPlan
  replacements : List ReplacementPlan

namespace Plans

def all (plans : Plans) : List AdmittedTrialPlan :=
  plans.root :: plans.replacements.map ReplacementPlan.plan

def get? (plans : Plans) (planId : String) : Option AdmittedTrialPlan :=
  plans.all.find? fun plan => plan.planId == planId

def allEntries (plans : Plans) : List AdmittedTrialEntry :=
  plans.all.flatMap fun plan => plan.entries.values

end Plans

/-- The loop of `_index_plans` over the candidates, with the ids that are in use. -/
def linkPlans (contracts : Contracts) :
    List String → List AdmittedTrialPlan → Except PyError (List ReplacementPlan)
  | _, [] => .ok []
  | seen, candidate :: rest => do
    let plan ← revalidated contracts candidate
    match replacementPlan? plan with
    | none => throw (valueError "replacement plans must be distinct linked children")
    | some child => do
      refuseIf (plan.planId ∈ seen)
        (valueError "replacement plans must be distinct linked children")
      let linked ← linkPlans contracts (plan.planId :: seen) rest
      pure (child :: linked)

def indexPlans (contracts : Contracts) (root : AdmittedTrialPlan)
    (replacements : List AdmittedTrialPlan) : Except PyError Plans := do
  let linked ← linkPlans contracts [root.planId] replacements
  let plans : Plans := ⟨root, linked⟩
  refuseIf (¬ (plans.allEntries.map AdmittedTrialEntry.runId).Nodup ∨
      ¬ (plans.allEntries.map AdmittedTrialEntry.planEntryId).Nodup)
    (valueError "replacement plans must have globally distinct entry and run identities")
  pure plans

def validateReceiptIdentities (receipts : List TrialCleanupReceipt) : Except PyError Unit := do
  refuseIf (¬ (receipts.map TrialCleanupReceipt.receiptId).Nodup)
    (valueError "cleanup receipt identities must be unique")
  refuseIf (¬ (receipts.map TrialCleanupReceipt.executionAttemptId).Nodup)
    (valueError "execution attempt identities must be unique")

def receiptsOfEntry (receipts : List TrialCleanupReceipt) (entryId : String) :
    List TrialCleanupReceipt :=
  ((Dict.collect TrialCleanupReceipt.planEntryId receipts).get? entryId).getD []

def indexReceipts (plans : Plans) (receipts : List TrialCleanupReceipt) : Except PyError Unit := do
  validateReceiptIdentities receipts
  forM plans.all fun plan =>
    forM plan.entries.values fun entry => do
      let cleanup ← plan.cleanupPlanOf entry
      let entryReceipts := receiptsOfEntry receipts entry.planEntryId
      refuseIf (entryReceipts.length > cleanup.maxAttempts)
        (valueError "execution attempt history exceeds the admitted budget")
      forM entryReceipts (validateTrialCleanupReceipt cleanup)
  refuseIf (∃ receipt ∈ receipts,
      receipt.planEntryId ∉ plans.allEntries.map AdmittedTrialEntry.planEntryId)
    (valueError "cleanup evidence references an unknown trial")

/-- The body of the loop of `_index_runs`. -/
def indexRun (contracts : Contracts) (plans : Plans) (receipts : List TrialCleanupReceipt)
    (run : ExperimentRun) : Except PyError Unit :=
  match run.trialProvenance with
  | none => .error (valueError "every retained run must resolve to an admitted plan")
  | some linkage =>
    match plans.get? linkage.planId with
    | none => .error (valueError "every retained run must resolve to an admitted plan")
    | some plan => do
      let attemptReceipts := receiptsOfEntry receipts linkage.planEntryId
      validateAdmittedTrialRun contracts plan run attemptReceipts
      refuseIf (¬ SameSet (linkage.executionAttempts.map TrialExecutionAttempt.cleanupReceiptRef)
          (attemptReceipts.map TrialCleanupReceipt.receiptId))
        (valueError "archival history must account for every execution attempt")
      match plan.entries.get? linkage.planEntryId with
      | none => throw (keyError linkage.planEntryId)
      | some entry => do
        let cleanup ← plan.cleanupPlanOf entry
        refuseIf (attemptReceipts.length > cleanup.maxAttempts)
          (valueError "execution attempt history exceeds the admitted budget")

/-- The retained records that the lineage looks up. -/
structure Archive where
  runs : List ExperimentRun
  receipts : List TrialCleanupReceipt

namespace Archive

/-- `by_version.get`, for distinct versions -/
def version? (archive : Archive) (key : String × String) : Option ExperimentRun :=
  archive.runs.find? fun run => runKey run == key

/-- `by_run_id[run_id]` -/
def versionsOf (archive : Archive) (runId : String) : List ExperimentRun :=
  ((Dict.collect ExperimentRun.runId archive.runs).get? runId).getD []

end Archive

/-- `_index`, after which the plans, the versions and the receipts are joined. -/
def indexArchive (contracts : Contracts) (root : AdmittedTrialPlan)
    (replacements : List AdmittedTrialPlan) (archive : Archive) : Except PyError Plans := do
  let plans ← indexPlans contracts root replacements
  refuseIf (¬ (archive.runs.map runKey).Nodup)
    (valueError "archival run versions must be unique")
  indexReceipts plans archive.receipts
  forM archive.runs (indexRun contracts plans archive.receipts)
  pure plans

section Lineage

variable (contracts : Contracts) (root : AdmittedTrialPlan) (parent : AdmittedTrialPlan)

/-- `_validate_child_authority`, with the entry of the parent that is replaced. -/
def validateChildAuthority (child : ReplacementPlan) : Except PyError AdmittedTrialEntry := do
  refuseIf (child.plan.authoringInputRef ≠ root.authoringInputRef ∨
      child.plan.taskRef ≠ root.taskRef)
    (valueError "replacement must preserve original experiment and task authority")
  refuseIf (child.plan.replacementPolicy ≠ root.replacementPolicy ∨
      child.origin.parentPlanDigest ≠ parent.planDigest)
    (valueError "replacement must preserve the original budget and exact parent plan")
  match root.entries.get? child.origin.rootEntryId with
  | none => throw (keyError child.origin.rootEntryId)
  | some originalEntry =>
    match parent.entries.get? child.origin.parentEntryId with
    | none => throw (valueError "replacement parent entry does not resolve")
    | some priorEntry => do
      refuseIf (priorEntry.runId ≠ child.origin.parentRunId)
        (valueError "replacement parent entry does not resolve")
      refuseIf (child.entry.coordinate.conditionId ≠ originalEntry.coordinate.conditionId ∨
          child.entry.coordinate.blockId ≠ originalEntry.coordinate.blockId)
        (valueError "replacement must retain the original condition and block")
      pure priorEntry

def validateChildParent (child : ReplacementPlan)
    (archive : Archive) : Except PyError ExperimentRun :=
  match archive.version? (child.origin.parentRunId, child.origin.parentRunVersion) with
  | none => .error (valueError "replacement must preserve its exact qualifying parent artifact")
  | some run => do
    refuseIf (contracts.runDigest run ≠ child.origin.parentRunDigest ∨
        ¬ (root.replacementPolicy.any fun policy => run.runStatus ∈ policy.replaceOn))
      (valueError "replacement must preserve its exact qualifying parent artifact")
    refuseIf (parent.replacementOrigin.isSome ∧ run.runVersion ≠ "1")
      (valueError "intermediate replacement must resolve its reserved first archival version")
    refuseIf (run.taskRef ≠ child.plan.taskRef)
      (valueError "replacement parent task does not match the admitted experiment")
    refuseIf (run.trialProvenance.map TrialRunProvenance.planEntryId ≠
        some child.origin.parentEntryId)
      (valueError "replacement parent run does not match its entry")
    pure run

/-- `_validate_child_evidence`, with the version that supersedes the parent run. -/
def validateChildEvidence (child : ReplacementPlan)
    (priorEntry : AdmittedTrialEntry) (run : ExperimentRun) (archive : Archive) :
    Except PyError ExperimentRun := do
  let relevantReceipts :=
    archive.receipts.filter fun receipt => receipt.planEntryId = priorEntry.planEntryId
  let receipt ← replacementParentCleanup contracts parent run relevantReceipts
  let cleanup ← parent.cleanupPlanOf priorEntry
  refuseIf (receipt.receiptId ≠ child.origin.cleanupReceiptRef ∨
      ¬ replacementResourcesReusable cleanup receipt)
    (valueError "replacement requires established reusable initial state")
  let superseded ← buildSupersededTrialRun contracts run child
  match archive.version? (runKey superseded) with
  | none => throw (valueError
      "replacement must retain the evidence-preserving supersession version")
  | some retained => do
    refuseIf (contracts.runDigest retained ≠ contracts.runDigest superseded) (valueError
      "replacement must retain the evidence-preserving supersession version")
    pure superseded

/-- `_chains`: the replacements of each entry of the original plan. -/
def chains (plans : Plans) : Except PyError (Dict String (List ReplacementPlan)) := do
  forM plans.replacements fun child =>
    refuseIf (child.origin.rootPlanId ≠ plans.root.planId ∨
        child.origin.rootPlanDigest ≠ plans.root.planDigest ∨
        child.origin.rootEntryId ∉ plans.root.entries.keys)
      (valueError "replacement root does not match the original allocation")
  pure (Dict.collect (fun child => child.origin.rootEntryId) plans.replacements)

/-- The body of the loop of `_follow_chain`.  The parent of the first child is the
original plan. -/
def followChild (entryId : String) (archive : Archive) (ordinal : ℕ)
    (parent : Option ReplacementPlan) (child : ReplacementPlan) : Except PyError Unit := do
  let parentPlan := (parent.map ReplacementPlan.plan).getD root
  let expectedParent := (parent.map fun parent => parent.entry.planEntryId).getD entryId
  refuseIf (child.origin.ordinal ≠ ordinal ∨ child.origin.parentPlanId ≠ parentPlan.planId ∨
      child.origin.parentEntryId ≠ expectedParent)
    (valueError "replacement lineage must be contiguous and have exactly one successor")
  let priorEntry ← validateChildAuthority root parentPlan child
  let run ← validateChildParent contracts root parentPlan child archive
  let superseded ← validateChildEvidence contracts parentPlan child priorEntry run archive
  refuseIf (¬ SameSet ((archive.versionsOf child.origin.parentRunId).map ExperimentRun.runVersion)
      [child.origin.parentRunVersion, superseded.runVersion])
    (valueError "replaced parent has ambiguous archival versions")

/-- `_follow_chain`, with the leaf entry and the replaced run ids. -/
def followChain (entryId : String) (archive : Archive) :
    ℕ → Option ReplacementPlan → AdmittedTrialEntry → List ReplacementPlan →
      Except PyError (AdmittedTrialEntry × List String)
  | _, _, leaf, [] => .ok (leaf, [])
  | ordinal, parent, _, child :: rest => do
    followChild contracts root entryId archive ordinal parent child
    let (leaf, used) ← followChain entryId archive (ordinal + 1) (some child) child.entry rest
    pure (leaf, child.origin.parentRunId :: used)

end Lineage

/-! ## The accounting -/

def leafRun (leaf : AdmittedTrialEntry) (chain : List ReplacementPlan) (archive : Archive) :
    Except PyError (Option ExperimentRun) := do
  let versions := archive.versionsOf leaf.runId
  refuseIf (versions.length > 1)
    (valueError "an unreplaced allocation slot has ambiguous archival versions")
  refuseIf (chain ≠ [] ∧ ∃ run ∈ versions.head?, run.runVersion ≠ "1") (valueError
    "replacement first archival version must match its admitted supersession reference")
  pure versions.head?

def experimentRunIsAnalysisEligible (run : ExperimentRun)
    (replacementPolicy : Option TrialReplacementPolicy) : Bool :=
  decide (run.recordState = .archival) && decide (run.runStatus ∉ [.invalidated, .superseded]) &&
  decide (run.outcomeStatus ≠ .notEvaluated) &&
  !(replacementPolicy.any fun policy =>
    policy.maxReplacements ≠ 0 && decide (run.runStatus ∈ policy.replaceOn))

structure Slot where
  entryId : String
  chain : List ReplacementPlan
  leaf : AdmittedTrialEntry
  supersededRunIds : List String
  run : Option ExperimentRun

namespace Slot

def analysisRun (policy : Option TrialReplacementPolicy) (slot : Slot) : Option ExperimentRun :=
  slot.run.filter fun run => experimentRunIsAnalysisEligible run policy

def exhausted (policy : Option TrialReplacementPolicy) (slot : Slot) : Bool :=
  slot.run.isSome && policy.any fun policy =>
    policy.maxReplacements ≠ 0 && slot.chain.length = policy.maxReplacements

end Slot

/-- The body of the loop of `reconcile_replacement_trials` over the sorted entries. -/
def settleSlot (contracts : Contracts) (root : AdmittedTrialPlan) (archive : Archive)
    (children : Dict String (List ReplacementPlan)) (item : String × AdmittedTrialEntry) :
    Except PyError Slot := do
  let chain := sortBy (fun child => child.origin.ordinal) ((children.get? item.1).getD [])
  let (leaf, superseded) ← followChain contracts root item.1 archive 1 none item.2 chain
  let run ← leafRun leaf chain archive
  pure ⟨item.1, chain, leaf, superseded, run⟩

def validateOriginal (root : AdmittedTrialPlan) (replacementPlans : List AdmittedTrialPlan) :
    Except PyError Unit := do
  refuseIf root.replacementOrigin.isSome
    (valueError "replacement analysis requires an original plan")
  let maxReplacements := (root.replacementPolicy.map TrialReplacementPolicy.maxReplacements).getD 0
  refuseIf (replacementPlans.length > root.entries.entries.length * maxReplacements)
    (valueError "replacement count exceeds the original allocation budget")

/-- The three lists that the loop fills from the settled slots. -/
def reconciliationOf (policy : Option TrialReplacementPolicy) (slots : List Slot) :
    ReplacementTrialReconciliation where
  analysisRuns := slots.filterMap (Slot.analysisRun policy)
  shortfallEntryIds :=
    (slots.filter fun slot => (slot.analysisRun policy).isNone).map Slot.entryId
  exhaustedEntryIds :=
    (slots.filter fun slot =>
      (slot.analysisRun policy).isNone && slot.exhausted policy).map Slot.entryId

def reconcileReplacementTrials (contracts : Contracts) (originalPlan : AdmittedTrialPlan)
    (replacementPlans : List AdmittedTrialPlan) (runs : List ExperimentRun)
    (cleanupReceipts : List TrialCleanupReceipt) :
    Except PyError ReplacementTrialReconciliation := do
  let root ← revalidated contracts originalPlan
  forM runs contracts.runContent
  forM cleanupReceipts contracts.receiptContent
  validateOriginal root replacementPlans
  let archive : Archive := ⟨runs, cleanupReceipts⟩
  let plans ← indexArchive contracts root replacementPlans archive
  let children ← chains plans
  let slots ← (sortBy Prod.fst root.entries.entries).mapM
    (settleSlot contracts root archive children)
  let usedSuperseded := slots.flatMap Slot.supersededRunIds
  refuseIf (∃ run ∈ runs, run.runStatus = .superseded ∧ run.runId ∉ usedSuperseded)
    (valueError "superseded run has no admitted replacement")
  pure (reconciliationOf root.replacementPolicy slots)

end Raes.Replacement
