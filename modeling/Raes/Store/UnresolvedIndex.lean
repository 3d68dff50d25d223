import Raes.Lib.SortBy
import Raes.Store.GuardIndex

/-!
# The unresolved operations of an index

`ControlOperationIndex` also keeps the indeterminate operations that no stored child
discharges (`participant_control_operation_index.py`,
`control_plane_resolution_records.py`).  Recovery reads them, and the scan of
`control_plane_recovery.py` works them out from all of the records.  After any records
have been applied, the index answers as a scan of the current ones does.
-/

namespace Raes.Store

/-! ## Resolution children -/

def hasMixedResolutionCut (record : ControlPlaneOperationRecord) : Bool :=
  record.status.context.operationKind ∈ mixedClaimKinds &&
    record.decisionHistoryHeads.any fun entry => mixedHistoryPrefix.isPrefixOf entry.1.toList

/-- `{"resolution_disposition": "accept-current-snapshot"}` -/
def acceptCurrentSnapshot : Json :=
  .obj [("resolution_disposition", .str "accept-current-snapshot")]

/-- Recognize a child only when it can safely discharge its parent. -/
def isValidResolutionChild (parent child : ControlPlaneOperationRecord) : Bool :=
  if isReserved parent then validReconciliationChild parent child
  else
    !hasMixedResolutionCut parent && matchesResolutionParent parent child &&
      child.idempotencyKey ≠ "" && child.idempotencyKey ≠ parent.idempotencyKey &&
      payloadEq child.resultPayload (some acceptCurrentSnapshot)

theorem isValidResolutionChild_names_parent {parent child : ControlPlaneOperationRecord}
    (h : isValidResolutionChild parent child = true) :
    (child.reconciliation.isSome = true ∨
      child.status.context.operationKind = .indeterminateResolution) ∧
    child.status.context.parentOperationId = some parent.receipt.operationId := by
  unfold isValidResolutionChild at h
  split at h
  · exact (validReconciliationChild_names_parent h).imp_left Or.inl
  · simp only [matchesResolutionParent, Bool.and_eq_true, decide_eq_true_eq] at h
    exact ⟨Or.inr h.1.1.1.2.1.1.1.1.2, h.1.1.1.2.1.1.1.2⟩

def unresolvedBarrier : Barrier where
  may record := record.status.state = .indeterminate
  resolves := isValidResolutionChild
  named := isValidResolutionChild_names_parent

/-! ## The index -/

structure OperationIndex extends ControlOperationIndex where
  unresolved : Dict String ControlPlaneOperationRecord

namespace OperationIndex

def empty : OperationIndex := ⟨ControlOperationIndex.empty, Dict.empty⟩

/-- `_refresh_barrier`: both of the sets that it keeps. -/
def refreshBarrier (index : OperationIndex) (record : ControlPlaneOperationRecord) :
    OperationIndex :=
  let identity := record.receipt.operationId
  { index.toControlOperationIndex.refreshBarrier record with
    unresolved :=
      if record.status.state = .indeterminate &&
          !(index.childrenOf identity).any (isValidResolutionChild record) then
        index.unresolved.set identity record
      else index.unresolved.erase identity }

def refreshParent (index : OperationIndex) (record : ControlPlaneOperationRecord) :
    OperationIndex :=
  match record.receipt.context.parentOperationId with
  | none => index
  | some parent =>
    match index.records.get? parent with
    | some parentRecord => index.refreshBarrier parentRecord
    | none => index

def apply (index : OperationIndex) (record : ControlPlaneOperationRecord) : OperationIndex :=
  let added := ControlOperationIndex.addChild
    { index.toControlOperationIndex with
      records := index.records.set record.receipt.operationId record } record
  ((⟨added, index.unresolved⟩ : OperationIndex).refreshBarrier record).refreshParent record

def applyAll (records : List ControlPlaneOperationRecord) : OperationIndex :=
  records.foldl apply empty

def guardRecords (index : OperationIndex) : List ControlPlaneOperationRecord :=
  index.toControlOperationIndex.guardRecords

end OperationIndex

/-- An operation of the given scopes, where they are given. -/
def inScope (targetScope runScope : Option String) (record : ControlPlaneOperationRecord) : Bool :=
  targetScope.all (record.status.context.targetScope = ·) &&
    runScope.all (record.status.context.runScope = ·)

/-- `unresolved_indeterminate_operation_ids`, of an index -/
def unresolvedIndeterminateOperationIds (index : OperationIndex)
    (targetScope runScope : Option String) : List String :=
  sortBy id ((index.unresolved.entries.filter fun entry =>
    inScope targetScope runScope entry.2).map Prod.fst)

def resolvedParent (records : Dict String ControlPlaneOperationRecord)
    (record : ControlPlaneOperationRecord) : Option String :=
  match record.status.context.parentOperationId with
  | none => none
  | some parentId =>
    match records.get? parentId with
    | none => none
    | some parent => if isValidResolutionChild parent record then some parentId else none

def unresolvedIndeterminateOperationIdsFromRecords
    (records : Dict String ControlPlaneOperationRecord) (targetScope runScope : Option String) :
    List String :=
  let resolved := records.values.filterMap (resolvedParent records)
  sortBy id ((records.entries.filter fun entry =>
    entry.2.status.state = .indeterminate && entry.1 ∉ resolved &&
      inScope targetScope runScope entry.2).map Prod.fst)

/-! ## Applied records -/

def currentRecords (applied : List ControlPlaneOperationRecord) :
    Dict String ControlPlaneOperationRecord :=
  applied.foldl (fun records record => records.set record.receipt.operationId record) Dict.empty

/-- Records that are applied in turn over stored ones: a record has one context, and a
later version of an operation continues the version that is stored. -/
def Successive (records : Dict String ControlPlaneOperationRecord) :
    List ControlPlaneOperationRecord → Prop
  | [] => True
  | record :: rest => record.receipt.context = record.status.context ∧ Continues records record ∧
      Successive (records.set record.receipt.operationId record) rest

namespace OperationIndex

structure Describes (index : OperationIndex) (records : Dict String ControlPlaneOperationRecord) :
    Prop where
  keyed : KeyedRecords records
  indexes : index.toControlOperationIndex.Indexes records
  unresolved : ∀ id record, index.unresolved.get? id = some record ↔
    unresolvedBarrier.Holds records id record

theorem describes_empty : empty.Describes Dict.empty where
  keyed := keyedRecords_empty
  indexes := ControlOperationIndex.indexes_empty
  unresolved := by
    intro id record
    constructor
    · intro h
      cases h
    · intro h
      cases h.1

theorem refreshBarrier_eq (index : OperationIndex) (record : ControlPlaneOperationRecord) :
    index.refreshBarrier record = ⟨index.toControlOperationIndex.refreshBarrier record,
      unresolvedBarrier.refresh (index.childrenOf record.receipt.operationId) index.unresolved
        record⟩ := rfl

theorem refreshBarrier_fields (index : ControlOperationIndex)
    (record : ControlPlaneOperationRecord) :
    (index.refreshBarrier record).records = index.records ∧
      (index.refreshBarrier record).childrenOf = index.childrenOf := by
  rw [ControlOperationIndex.refreshBarrier_eq]
  exact ⟨rfl, rfl⟩

theorem refresh_eq (added : ControlOperationIndex)
    (unresolved : Dict String ControlPlaneOperationRecord) (record : ControlPlaneOperationRecord) :
    ((⟨added, unresolved⟩ : OperationIndex).refreshBarrier record).refreshParent record =
      ⟨(added.refreshBarrier record).refreshParent record,
        unresolvedBarrier.applied added.childrenOf added.records unresolved record⟩ := by
  obtain ⟨hrecords, hchildren⟩ := refreshBarrier_fields added record
  unfold refreshParent ControlOperationIndex.refreshParent Barrier.applied
  rw [refreshBarrier_eq]
  dsimp only
  rw [hrecords]
  cases record.receipt.context.parentOperationId with
  | none => rfl
  | some parent =>
    dsimp only
    cases added.records.get? parent with
    | none => rfl
    | some parentRecord =>
      dsimp only
      rw [refreshBarrier_eq]
      dsimp only
      rw [hchildren]

theorem apply_eq (index : OperationIndex) (record : ControlPlaneOperationRecord) :
    index.apply record =
      let added := ControlOperationIndex.addChild
        { index.toControlOperationIndex with
          records := index.records.set record.receipt.operationId record } record
      ⟨index.toControlOperationIndex.apply record,
        unresolvedBarrier.applied added.childrenOf added.records index.unresolved record⟩ :=
  refresh_eq _ _ _

theorem Describes.apply {index : OperationIndex}
    {records : Dict String ControlPlaneOperationRecord} (h : index.Describes records)
    {record : ControlPlaneOperationRecord} (hcontinues : Continues records record)
    (hcontext : record.receipt.context = record.status.context) :
    (index.apply record).Describes (records.set record.receipt.operationId record) := by
  have hchildren := ControlOperationIndex.childrenOf_of_children (h.indexes.addedChildren hcontinues)
  obtain ⟨hrecords, -⟩ := ControlOperationIndex.addChild_fields
    { index.toControlOperationIndex with
      records := index.records.set record.receipt.operationId record } record
  have hstored := h.indexes.stored
  subst hstored
  rw [apply_eq]
  refine ⟨h.keyed.set hcontext, h.indexes.apply h.keyed hcontinues hcontext, ?_⟩
  dsimp only
  rw [hrecords]
  exact Barrier.get?_applied h.keyed hcontinues hcontext hchildren h.unresolved

theorem Describes.foldl {index : OperationIndex} {applied : List ControlPlaneOperationRecord} :
    ∀ {records : Dict String ControlPlaneOperationRecord}, index.Describes records →
      Successive records applied →
      (applied.foldl OperationIndex.apply index).Describes
        (applied.foldl (fun records record => records.set record.receipt.operationId record)
          records) := by
  induction applied generalizing index with
  | nil => exact fun h _ => h
  | cons record rest ih =>
    intro records h hsuccessive
    obtain ⟨hcontext, hcontinues, hrest⟩ := hsuccessive
    exact ih (h.apply hcontinues hcontext) hrest

theorem applyAll_describes {applied : List ControlPlaneOperationRecord}
    (h : Successive Dict.empty applied) : (applyAll applied).Describes (currentRecords applied) :=
  describes_empty.foldl h

end OperationIndex

section Scan

variable {records : Dict String ControlPlaneOperationRecord}

theorem mem_resolved_iff (hkeyed : KeyedRecords records) {id : String}
    {record : ControlPlaneOperationRecord} (hrecord : records.get? id = some record) :
    id ∈ records.values.filterMap (resolvedParent records) ↔
      ∃ childId child, records.get? childId = some child ∧
        isValidResolutionChild record child = true := by
  rw [List.mem_filterMap]
  constructor
  · rintro ⟨child, hmem, hresolved⟩
    obtain ⟨childId, hchild⟩ := Dict.mem_values_iff.mp hmem
    refine ⟨childId, child, hchild, ?_⟩
    unfold resolvedParent at hresolved
    cases hparent : child.status.context.parentOperationId with
    | none => simp [hparent] at hresolved
    | some parentId =>
      cases hget : records.get? parentId with
      | none => simp [hparent, hget] at hresolved
      | some parent =>
        simp only [hparent, hget, Option.ite_none_right_eq_some, Option.some.injEq] at hresolved
        obtain ⟨hvalid, heq⟩ := hresolved
        rw [heq, hrecord] at hget
        rw [Option.some.inj hget]
        exact hvalid
  · rintro ⟨childId, child, hchild, hvalid⟩
    refine ⟨child, Dict.mem_values_iff.mpr ⟨childId, hchild⟩, ?_⟩
    have hparent := (isValidResolutionChild_names_parent hvalid).2
    rw [hkeyed.ids id record hrecord] at hparent
    unfold resolvedParent
    simp only [hparent, hrecord, hvalid, if_true]

theorem OperationIndex.Describes.unresolvedIds {index : OperationIndex}
    (h : index.Describes records) (targetScope runScope : Option String) :
    unresolvedIndeterminateOperationIds index targetScope runScope =
      unresolvedIndeterminateOperationIdsFromRecords records targetScope runScope := by
  have hnodup : ∀ (d : Dict String ControlPlaneOperationRecord) (p : String ×
      ControlPlaneOperationRecord → Bool), ((d.entries.filter p).map Prod.fst).Nodup :=
    fun d p => (List.filter_sublist.map Prod.fst).nodup d.nodup
  unfold unresolvedIndeterminateOperationIds unresolvedIndeterminateOperationIdsFromRecords
  refine sortBy_eq_of_perm ((List.perm_ext_iff_of_nodup (hnodup _ _) (hnodup _ _)).mpr ?_) ?_
  · intro id
    simp only [List.mem_map, List.mem_filter, Prod.exists, exists_and_right, exists_eq_right,
      Bool.and_eq_true, decide_eq_true_eq]
    refine exists_congr fun record => ?_
    rw [← Dict.get?_eq_some_iff, ← Dict.get?_eq_some_iff, h.unresolved]
    unfold Barrier.Holds unresolvedBarrier
    constructor
    · rintro ⟨⟨hrecord, hstate, hnone⟩, hscope⟩
      refine ⟨hrecord, ⟨of_decide_eq_true hstate, ?_⟩, hscope⟩
      rw [mem_resolved_iff h.keyed hrecord]
      rintro ⟨childId, child, hchild, hvalid⟩
      rw [show isValidResolutionChild record child = false from hnone childId child hchild] at hvalid
      cases hvalid
    · rintro ⟨hrecord, ⟨hstate, hnot⟩, hscope⟩
      refine ⟨⟨hrecord, decide_eq_true hstate, ?_⟩, hscope⟩
      intro childId child hchild
      rw [mem_resolved_iff h.keyed hrecord] at hnot
      by_contra hvalid
      rw [Bool.not_eq_false] at hvalid
      exact hnot ⟨childId, child, hchild, hvalid⟩
  · rw [List.map_id]
    exact hnodup _ _

end Scan

/-- After any successive records are applied, in any order of the operations, the index
answers as a scan of the current records does: the same operations are unresolved, and
a claim conflicts with the guards where it conflicts with all of the records. -/
theorem operationIndex_agrees (applied : List ControlPlaneOperationRecord)
    (h : Successive Dict.empty applied) :
    (∀ targetScope runScope,
      unresolvedIndeterminateOperationIds (OperationIndex.applyAll applied) targetScope runScope =
        unresolvedIndeterminateOperationIdsFromRecords (currentRecords applied) targetScope
          runScope) ∧
    (∀ new, mixedClaimConflicts new (OperationIndex.applyAll applied).guardRecords =
      mixedClaimConflicts new (currentRecords applied).values) ∧
    (∀ rules new,
      (supervisedClaimConflicts rules new (OperationIndex.applyAll applied).guardRecords =
          .ok false ↔
        supervisedClaimConflicts rules new (currentRecords applied).values = .ok false) ∧
      (ToolTestAnswers rules (currentRecords applied) new →
        supervisedClaimConflicts rules new (OperationIndex.applyAll applied).guardRecords =
          supervisedClaimConflicts rules new (currentRecords applied).values)) := by
  have hdescribes := OperationIndex.applyAll_describes h
  have hguards : Covers (currentRecords applied) (OperationIndex.applyAll applied).guardRecords :=
    hdescribes.indexes.guardRecords_covers
  have hall := covers_values (currentRecords applied)
  refine ⟨hdescribes.unresolvedIds, fun new => hguards.mixedClaimConflicts_eq hall new, ?_⟩
  intro rules new
  exact ⟨hguards.supervisedClaimConflicts_congr hall rules new,
    fun hanswers => hguards.supervisedClaimConflicts_eq hall hanswers⟩

/-- An operation of one run, with what a resolution of it differs in. -/
def resolutionRecord (operationId : String) (operationKind : OperationKind)
    (parentOperationId : Option String) (state : OperationState) (payload : Option Json) :
    ControlPlaneOperationRecord :=
  let context : OperationAdmissionContext := {
    actorId := "operator", authorizationScope := ["role:operator"], targetScope := "target",
    runScope := "run", operationKind := operationKind, requestCommitment := "commitment",
    parentOperationId := parentOperationId }
  { receipt := ⟨operationId, .orchestration, "t0", true, context, "v1", []⟩
    status := ⟨operationId, .orchestration, state, "t0", "t1", context, "v1", [], []⟩
    requestFingerprint := "fingerprint", idempotencyKey := operationId, resultPayload := payload
    decisionHistoryHeads := [], resultHistoryHeads := [], legacyRequestCommitment := false
    invocation := none, reconciliation := none, injectOccurrence := none, injectOutcome := none
    injectEvidence := none, injectDelivery := none, injectDeliveryControl := none }

/-- A resolution that is applied before the operation that it resolves, and another
operation that nothing resolves. -/
def resolvedLate : List ControlPlaneOperationRecord :=
  [resolutionRecord "resolution" .indeterminateResolution (some "effect") .succeeded
      (some acceptCurrentSnapshot),
    resolutionRecord "effect" .orchestration none .indeterminate none,
    resolutionRecord "other" .orchestration none .indeterminate none]

theorem operationIndex_agrees_resolvedLate :
    Successive Dict.empty resolvedLate ∧
      unresolvedIndeterminateOperationIds (OperationIndex.applyAll resolvedLate) none none =
        unresolvedIndeterminateOperationIdsFromRecords (currentRecords resolvedLate) none none ∧
      unresolvedIndeterminateOperationIdsFromRecords (currentRecords resolvedLate) none none =
        ["other"] := by
  have hnew : ∀ {records : Dict String ControlPlaneOperationRecord}
      {record : ControlPlaneOperationRecord},
      records.get? record.receipt.operationId = none → Continues records record := by
    intro records record hnone old hold
    rw [hnone] at hold
    cases hold
  have hsuccessive : Successive Dict.empty resolvedLate :=
    ⟨rfl, hnew rfl, rfl, hnew rfl, rfl, hnew rfl, trivial⟩
  exact ⟨hsuccessive, (operationIndex_agrees resolvedLate hsuccessive).1 none none,
    by decide +kernel⟩

end Raes.Store
