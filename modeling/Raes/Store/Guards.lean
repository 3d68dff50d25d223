import Raes.Lib.Dict
import Raes.Store.Transitions

/-!
# Claim guards

The records that can block a new claim: `ControlOperationIndex` of
`participant_control_operation_index.py` as far as a claim reads it, and the
conflict checks of `control_plane_store.py`, `operation_invocation_ledger.py`
and `operation_reconciliation_ledger.py`.
-/

namespace Raes.Store

/-! ## Reconciliation children -/

def matchesResolutionParent (parent child : ControlPlaneOperationRecord) : Bool :=
  parent.status.state = .indeterminate && child.status.state = .succeeded &&
    child.status.context.operationKind = .indeterminateResolution &&
    child.status.context.parentOperationId = some parent.receipt.operationId &&
    child.status.context.targetScope = parent.status.context.targetScope &&
    child.status.context.runScope = parent.status.context.runScope &&
    "role:operator" ∈ child.status.context.authorizationScope

def retainsReconciliationAuthority (parent child : ControlPlaneOperationRecord)
    (ledger : InvocationLedger) (evidence : InvocationReconciliation) : Bool :=
  parent.invocation = some ledger &&
    evidence.control.actorId = child.status.context.actorId &&
    evidence.control.authorizationScope = child.status.context.authorizationScope &&
    evidence.request = ledger.request && evidence.control ∈ ledger.controls &&
    evidence.response ∈ ledger.responses

def validReconciliationChild (parent child : ControlPlaneOperationRecord) : Bool :=
  match child.reconciliation, parent.invocation with
  | some evidence, some ledger =>
    matchesResolutionParent parent child &&
      retainsReconciliationAuthority parent child ledger evidence &&
      child.idempotencyKey ≠ "" && child.idempotencyKey ≠ parent.idempotencyKey
  | _, _ => false

theorem validReconciliationChild_names_parent {parent child : ControlPlaneOperationRecord}
    (h : validReconciliationChild parent child = true) :
    child.reconciliation.isSome ∧
      child.status.context.parentOperationId = some parent.receipt.operationId := by
  unfold validReconciliationChild at h
  cases hrec : child.reconciliation with
  | none => simp [hrec] at h
  | some evidence =>
    cases hinv : parent.invocation with
    | none => simp [hrec, hinv] at h
    | some ledger =>
      refine ⟨rfl, ?_⟩
      simp only [hrec, hinv, matchesResolutionParent, Bool.and_eq_true, decide_eq_true_eq] at h
      exact h.1.1.1.1.1.1.2

/-! ## The index -/

/-- An operation that is still open, or whose invocation keeps its reservation. -/
def isActive (state : OperationState) : Bool :=
  state = .accepted || state = .running || state = .indeterminate

def isReserved (record : ControlPlaneOperationRecord) : Bool :=
  match record.invocation with
  | some ledger => ledger.reserved
  | none => false

def mayGuard (record : ControlPlaneOperationRecord) : Bool :=
  isActive record.status.state || isReserved record

structure ControlOperationIndex where
  records : Dict String ControlPlaneOperationRecord
  children : Dict String (Dict String ControlPlaneOperationRecord)
  guards : Dict String ControlPlaneOperationRecord

namespace ControlOperationIndex

def empty : ControlOperationIndex := ⟨Dict.empty, Dict.empty, Dict.empty⟩

variable (index : ControlOperationIndex)

def childrenOf (operationId : String) : List ControlPlaneOperationRecord :=
  match index.children.get? operationId with
  | some children => children.values
  | none => []

def refreshBarrier (record : ControlPlaneOperationRecord) : ControlOperationIndex :=
  let identity := record.receipt.operationId
  if mayGuard record && !(index.childrenOf identity).any (validReconciliationChild record) then
    { index with guards := index.guards.set identity record }
  else { index with guards := index.guards.erase identity }

/-- Index a record under its parent when it can resolve it. -/
def addChild (record : ControlPlaneOperationRecord) : ControlOperationIndex :=
  match record.receipt.context.parentOperationId with
  | none => index
  | some parent =>
    if record.reconciliation.isSome ||
        record.receipt.context.operationKind = .indeterminateResolution then
      let siblings := (index.children.get? parent).getD Dict.empty
      { index with
        children := index.children.set parent (siblings.set record.receipt.operationId record) }
    else index

def refreshParent (record : ControlPlaneOperationRecord) : ControlOperationIndex :=
  match record.receipt.context.parentOperationId with
  | none => index
  | some parent =>
    match index.records.get? parent with
    | some parentRecord => index.refreshBarrier parentRecord
    | none => index

def apply (record : ControlPlaneOperationRecord) : ControlOperationIndex :=
  let index := { index with records := index.records.set record.receipt.operationId record }
  ((index.addChild record).refreshBarrier record).refreshParent record

def guardRecords (index : ControlOperationIndex) : List ControlPlaneOperationRecord :=
  index.guards.values

end ControlOperationIndex

/-! ## Conflicts -/

def mixedClaimKinds : List OperationKind :=
  [.compositionPhase, .participantAction, .participantCrossing]

def mixedHistoryPrefix : List Char := "mixed_composition_history:".toList

def historyKeys (record : ControlPlaneOperationRecord) : List String :=
  record.decisionHistoryHeads.map Prod.fst ++ record.resultHistoryHeads.map Prod.fst

def mixedKeys (record : ControlPlaneOperationRecord) : List String :=
  (historyKeys record).filter fun key => mixedHistoryPrefix.isPrefixOf key.toList

def activeMixedClaimOverlaps (context : OperationAdmissionContext) (keys : List String)
    (existing : ControlPlaneOperationRecord) : Bool :=
  existing.status.context.targetScope = context.targetScope &&
    existing.status.context.runScope = context.runScope &&
    existing.status.context.operationKind ∈ mixedClaimKinds &&
    isActive existing.status.state &&
    keys.any fun key => key ∈ historyKeys existing

/-- Serialize external mixed effects in one run. -/
def mixedClaimConflicts (new : ControlPlaneOperationRecord)
    (records : List ControlPlaneOperationRecord) : Bool :=
  new.status.context.operationKind ∈ mixedClaimKinds && !(mixedKeys new).isEmpty &&
    records.any fun existing =>
      activeMixedClaimOverlaps new.status.context (mixedKeys new) existing &&
        !records.any (validReconciliationChild existing)

variable (rules : ContractRules)

/-- A cancellation fact can claim no new dispatch grant or external effect. -/
def controlRecordIsSupervisory (record : ControlPlaneOperationRecord) : Except PyError Bool := do
  if ← rules.supervisoryEffectClaim record then return true
  return record.receipt.context.operationKind = .participantControl &&
    record.invocation = none &&
    (record.payloadField "participant_control_cancellation").any Json.isObj

def reservationBlocks (new : ControlPlaneOperationRecord)
    (records : List ControlPlaneOperationRecord) (record : ControlPlaneOperationRecord) :
    Except PyError Bool := do
  if isReserved record && record.receipt.operationId ≠ new.receipt.operationId &&
      !records.any (validReconciliationChild record) then
    if ← rules.toolChildOf record new then return false
    return record.status.context.targetScope = new.status.context.targetScope &&
      record.status.context.runScope = new.status.context.runScope
  else return false

/-- `any(...)` over the records, which stops at the first that blocks. -/
def anyBlocks (rules : ContractRules) (new : ControlPlaneOperationRecord)
    (records : List ControlPlaneOperationRecord) :
    List ControlPlaneOperationRecord → Except PyError Bool
  | [] => .ok false
  | record :: rest => do
    if ← reservationBlocks rules new records record then return true
    anyBlocks rules new records rest

def supervisedClaimConflicts (new : ControlPlaneOperationRecord)
    (records : List ControlPlaneOperationRecord) : Except PyError Bool := do
  if new.status.context.operationKind = .indeterminateResolution then return false
  if ← controlRecordIsSupervisory rules new then return false
  anyBlocks rules new records records

end Raes.Store

/-!
# Barriers of an operation index

An index holds two sets of records that a stored child may take out: the guards of a
claim, and the unresolved operations.  Both are kept alike.  When a record is applied,
its own entry and the entry of its parent are worked out again, and that is enough for
every entry to be right about all of the stored records.
-/

namespace Raes.Store

/-- Stored records under their own identities, with one context each. -/
structure KeyedRecords (records : Dict String ControlPlaneOperationRecord) : Prop where
  ids : ∀ id record, records.get? id = some record → record.receipt.operationId = id
  contexts : ∀ id record, records.get? id = some record →
    record.receipt.context = record.status.context

def resolvesParent (record : ControlPlaneOperationRecord) : Bool :=
  record.reconciliation.isSome || record.receipt.context.operationKind = .indeterminateResolution

/-- A stored record keeps its receipt and its reconciliation evidence. -/
def Continues (records : Dict String ControlPlaneOperationRecord)
    (record : ControlPlaneOperationRecord) : Prop :=
  ∀ old, records.get? record.receipt.operationId = some old → old.receipt = record.receipt ∧
    (old.reconciliation.isSome = true → record.reconciliation.isSome = true)

theorem keyedRecords_empty : KeyedRecords Dict.empty where
  ids := by
    intro id record h
    cases h
  contexts := by
    intro id record h
    cases h

theorem KeyedRecords.set {records : Dict String ControlPlaneOperationRecord}
    (h : KeyedRecords records) {record : ControlPlaneOperationRecord}
    (hcontext : record.receipt.context = record.status.context) :
    KeyedRecords (records.set record.receipt.operationId record) where
  ids := by
    intro id stored hstored
    rw [Dict.get?_set] at hstored
    split at hstored
    case isTrue hid =>
      cases hstored
      exact hid.symm
    case isFalse => exact h.ids id stored hstored
  contexts := by
    intro id stored hstored
    rw [Dict.get?_set] at hstored
    split at hstored
    · cases hstored
      exact hcontext
    · exact h.contexts id stored hstored

/-! ## One barrier -/

/-- Which records a barrier may hold, and which children take a record out of it.  A
child that does is indexed under the parent that it names. -/
structure Barrier where
  may : ControlPlaneOperationRecord → Bool
  resolves : ControlPlaneOperationRecord → ControlPlaneOperationRecord → Bool
  named : ∀ {parent child : ControlPlaneOperationRecord}, resolves parent child = true →
    (child.reconciliation.isSome = true ∨
      child.status.context.operationKind = .indeterminateResolution) ∧
    child.status.context.parentOperationId = some parent.receipt.operationId

namespace Barrier

variable (barrier : Barrier)

/-- A stored record that the barrier may hold and that no stored child takes out. -/
def Holds (records : Dict String ControlPlaneOperationRecord) (id : String)
    (record : ControlPlaneOperationRecord) : Prop :=
  records.get? id = some record ∧ barrier.may record = true ∧
    ∀ childId child, records.get? childId = some child → barrier.resolves record child = false

def refresh (children : List ControlPlaneOperationRecord)
    (entries : Dict String ControlPlaneOperationRecord) (record : ControlPlaneOperationRecord) :
    Dict String ControlPlaneOperationRecord :=
  if barrier.may record && !children.any (barrier.resolves record) then
    entries.set record.receipt.operationId record
  else entries.erase record.receipt.operationId

/-- Work out the entries of an applied record and of its stored parent. -/
def applied (childrenOf : String → List ControlPlaneOperationRecord)
    (records entries : Dict String ControlPlaneOperationRecord)
    (record : ControlPlaneOperationRecord) : Dict String ControlPlaneOperationRecord :=
  let entries := barrier.refresh (childrenOf record.receipt.operationId) entries record
  match record.receipt.context.parentOperationId with
  | none => entries
  | some parent =>
    match records.get? parent with
    | some parentRecord =>
      barrier.refresh (childrenOf parentRecord.receipt.operationId) entries parentRecord
    | none => entries

/-- The indexed children of each parent are the stored records that may resolve it. -/
def ChildrenOf (records : Dict String ControlPlaneOperationRecord)
    (childrenOf : String → List ControlPlaneOperationRecord) : Prop :=
  ∀ parent child, child ∈ childrenOf parent ↔ ∃ id, records.get? id = some child ∧
    child.receipt.context.parentOperationId = some parent ∧ resolvesParent child = true

variable {barrier} {records entries : Dict String ControlPlaneOperationRecord}
  {childrenOf : String → List ControlPlaneOperationRecord}
  {record : ControlPlaneOperationRecord}

theorem get?_refresh (children : List ControlPlaneOperationRecord) (id : String)
    (held : ControlPlaneOperationRecord) :
    (barrier.refresh children entries record).get? id = some held ↔
      if id = record.receipt.operationId then
        record = held ∧ barrier.may record = true ∧
          ∀ child ∈ children, barrier.resolves record child = false
      else entries.get? id = some held := by
  have hchildren : children.any (barrier.resolves record) = false ↔
      ∀ child ∈ children, barrier.resolves record child = false := by
    rw [List.any_eq_false]
    simp only [Bool.not_eq_true]
  unfold refresh
  simp only [Bool.and_eq_true, Bool.not_eq_true', hchildren]
  by_cases hholds : barrier.may record = true ∧
      ∀ child ∈ children, barrier.resolves record child = false
  · rw [if_pos hholds, Dict.get?_set]
    split
    · exact ⟨fun h => ⟨Option.some.inj h, hholds⟩, fun h => congrArg some h.1⟩
    · exact Iff.rfl
  · rw [if_neg hholds, Dict.get?_erase]
    split
    · simp only [reduceCtorEq, hholds, and_false]
    · exact Iff.rfl

section

variable (hkeyed : KeyedRecords records)
include hkeyed

theorem unresolved_iff (hchildren : ChildrenOf records childrenOf)
    (record : ControlPlaneOperationRecord) :
    (∀ child ∈ childrenOf record.receipt.operationId, barrier.resolves record child = false) ↔
      ∀ id child, records.get? id = some child → barrier.resolves record child = false := by
  constructor
  · intro h id child hchild
    by_contra hresolves
    rw [Bool.not_eq_false] at hresolves
    obtain ⟨hkind, hparent⟩ := barrier.named hresolves
    have hindexed : child ∈ childrenOf record.receipt.operationId := by
      rw [hchildren]
      refine ⟨id, hchild, ?_, ?_⟩
      · rw [hkeyed.contexts id child hchild]
        exact hparent
      · unfold resolvesParent
        rw [hkeyed.contexts id child hchild, Bool.or_eq_true, decide_eq_true_iff]
        exact hkind
    exact absurd hresolves (by rw [h child hindexed]; exact Bool.false_ne_true)
  · intro h child hchild
    obtain ⟨id, hstored, -⟩ := (hchildren _ _).mp hchild
    exact h id child hstored

theorem get?_refresh_stored (hchildren : ChildrenOf records childrenOf)
    (hstored : records.get? record.receipt.operationId = some record) (id : String)
    (held : ControlPlaneOperationRecord) :
    (barrier.refresh (childrenOf record.receipt.operationId) entries record).get? id = some held ↔
      if id = record.receipt.operationId then barrier.Holds records id held
      else entries.get? id = some held := by
  rw [get?_refresh, unresolved_iff hkeyed hchildren]
  by_cases hid : id = record.receipt.operationId
  · rw [if_pos hid, if_pos hid, Holds, hid, hstored, Option.some.injEq]
    constructor
    · intro h
      obtain ⟨rfl, h⟩ := h
      exact ⟨rfl, h⟩
    · intro h
      obtain ⟨rfl, h⟩ := h
      exact ⟨rfl, h⟩
  · rw [if_neg hid, if_neg hid]

theorem holds_set_iff (hcontinues : Continues records record)
    (hcontext : record.receipt.context = record.status.context) {id : String}
    (hid : id ≠ record.receipt.operationId)
    (hparent : record.receipt.context.parentOperationId ≠ some id)
    (held : ControlPlaneOperationRecord) :
    barrier.Holds (records.set record.receipt.operationId record) id held ↔
      barrier.Holds records id held := by
  unfold Holds
  rw [Dict.get?_set_ne _ _ hid]
  refine and_congr_right fun hstored => and_congr_right fun _ => ?_
  have hheld := hkeyed.ids id held hstored
  constructor
  · intro h childId child hchild
    by_cases hchildId : childId = record.receipt.operationId
    · -- The older version of the record names the same parent.
      by_contra hresolves
      rw [Bool.not_eq_false] at hresolves
      have hnamed := (barrier.named hresolves).2
      rw [hchildId] at hchild
      rw [← hkeyed.contexts _ _ hchild, (hcontinues child hchild).1, hheld] at hnamed
      exact hparent hnamed
    · exact h childId child (by rw [Dict.get?_set_ne _ _ hchildId]; exact hchild)
  · intro h childId child hchild
    rw [Dict.get?_set] at hchild
    split at hchild
    · cases hchild
      by_contra hresolves
      rw [Bool.not_eq_false] at hresolves
      have hnamed := (barrier.named hresolves).2
      rw [← hcontext, hheld] at hnamed
      exact hparent hnamed
    · exact h childId child hchild

theorem get?_applied (hcontinues : Continues records record)
    (hcontext : record.receipt.context = record.status.context)
    (hchildren : ChildrenOf (records.set record.receipt.operationId record) childrenOf)
    (hentries : ∀ id held, entries.get? id = some held ↔ barrier.Holds records id held)
    (id : String) (held : ControlPlaneOperationRecord) :
    (barrier.applied childrenOf (records.set record.receipt.operationId record) entries
        record).get? id = some held ↔
      barrier.Holds (records.set record.receipt.operationId record) id held := by
  have hkeyed' := hkeyed.set hcontext
  have hself : (barrier.refresh (childrenOf record.receipt.operationId) entries record).get? id =
      some held ↔ if id = record.receipt.operationId then
        barrier.Holds (records.set record.receipt.operationId record) id held
      else entries.get? id = some held :=
    get?_refresh_stored hkeyed' hchildren (Dict.get?_set_self _ _ _) id held
  have hothers : record.receipt.context.parentOperationId ≠ some id →
      ((barrier.refresh (childrenOf record.receipt.operationId) entries record).get? id =
        some held ↔ barrier.Holds (records.set record.receipt.operationId record) id held) := by
    intro hparent
    rw [hself]
    by_cases hid : id = record.receipt.operationId
    · rw [if_pos hid]
    · rw [if_neg hid, holds_set_iff hkeyed hcontinues hcontext hid hparent]
      exact hentries id held
  unfold applied
  cases hparent : record.receipt.context.parentOperationId with
  | none => exact hothers (by rw [hparent]; exact nofun)
  | some parent =>
    dsimp only
    cases hget : (records.set record.receipt.operationId record).get? parent with
    | none =>
      by_cases hid : id = parent
      · -- Neither the entries nor the records have a parent that is not stored.
        have hne : parent ≠ record.receipt.operationId := by
          rintro rfl
          rw [Dict.get?_set_self] at hget
          cases hget
        have hmissing : records.get? parent = none := by
          rwa [Dict.get?_set_ne _ _ hne] at hget
        rw [hself, hid, if_neg hne, hentries]
        unfold Holds
        rw [hget, hmissing]
        simp only [reduceCtorEq, false_and]
      · exact hothers (by rw [hparent]; exact fun h => hid (Option.some.inj h).symm)
    | some parentRecord =>
      have hids := hkeyed'.ids parent parentRecord hget
      dsimp only
      rw [get?_refresh_stored hkeyed' hchildren (by rw [hids]; exact hget), hids]
      by_cases hid : id = parent
      · rw [if_pos hid]
      · rw [if_neg hid]
        exact hothers (by rw [hparent]; exact fun h => hid (Option.some.inj h).symm)

end

end Barrier

end Raes.Store
