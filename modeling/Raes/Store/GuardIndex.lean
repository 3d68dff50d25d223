import Raes.Store.Guards

/-!
# The claim guards of a store

The index holds exactly the stored records that may block a new claim: the open
or reserved ones that no stored child resolves.  A list of records that holds
these, and with each its resolving children, answers the conflict checks alike.
-/

namespace Raes.Store

open PyError

def Unresolved (records : Dict String ControlPlaneOperationRecord)
    (record : ControlPlaneOperationRecord) : Prop :=
  ∀ id child, records.get? id = some child → validReconciliationChild record child = false

def guardBarrier : Barrier where
  may := mayGuard
  resolves := validReconciliationChild
  named h := (validReconciliationChild_names_parent h).imp_left Or.inl

namespace ControlOperationIndex

variable (index : ControlOperationIndex)

def child? (parent id : String) : Option ControlPlaneOperationRecord :=
  ((index.children.get? parent).getD Dict.empty).get? id

structure Indexes (index : ControlOperationIndex)
    (records : Dict String ControlPlaneOperationRecord) : Prop where
  stored : index.records = records
  children : ∀ parent id record, index.child? parent id = some record ↔
    records.get? id = some record ∧ record.receipt.context.parentOperationId = some parent ∧
      resolvesParent record = true
  guards : ∀ id record, index.guards.get? id = some record ↔
    records.get? id = some record ∧ mayGuard record = true ∧ Unresolved records record

theorem indexes_empty : Indexes empty Dict.empty where
  stored := rfl
  children := by
    intro parent id record
    constructor
    · intro h
      cases h
    · intro h
      cases h.1
  guards := by
    intro id record
    constructor
    · intro h
      cases h
    · intro h
      cases h.1

/-! ## Children -/

theorem mem_childrenOf (parent : String) (record : ControlPlaneOperationRecord) :
    record ∈ index.childrenOf parent ↔ ∃ id, index.child? parent id = some record := by
  unfold childrenOf child?
  cases index.children.get? parent with
  | none =>
    constructor
    · intro h
      cases h
    · intro h
      obtain ⟨_, h⟩ := h
      cases h
  | some children => exact Dict.mem_values_iff

variable (record : ControlPlaneOperationRecord)

theorem child?_addChild (parent id : String) : (index.addChild record).child? parent id =
      if record.receipt.context.parentOperationId = some parent ∧ resolvesParent record = true ∧
          id = record.receipt.operationId then some record
      else index.child? parent id := by
  unfold addChild resolvesParent
  cases hparent : record.receipt.context.parentOperationId with
  | none => simp
  | some holder =>
    by_cases hresolves : (record.reconciliation.isSome ||
        record.receipt.context.operationKind = .indeterminateResolution) = true
    · simp only [hresolves, if_true]
      unfold child?
      by_cases hsame : parent = holder
      · subst hsame
        rw [Dict.get?_set_self, Option.getD_some, Dict.get?_set]
        simp
      · rw [Dict.get?_set_ne _ _ hsame, if_neg]
        intro h
        exact hsame (Option.some.inj h.1).symm
    · rw [if_neg (fun h => hresolves h.2.1)]
      simp only [hresolves]
      rfl

theorem childrenOf_of_children {index : ControlOperationIndex}
    {records : Dict String ControlPlaneOperationRecord}
    (h : ∀ parent id record, index.child? parent id = some record ↔
      records.get? id = some record ∧ record.receipt.context.parentOperationId = some parent ∧
        resolvesParent record = true) :
    Barrier.ChildrenOf records index.childrenOf := by
  intro parent child
  rw [mem_childrenOf]
  exact exists_congr fun id => h parent id child

/-! ## Barriers -/

theorem refreshBarrier_eq : index.refreshBarrier record =
      { index with
        guards := guardBarrier.refresh (index.childrenOf record.receipt.operationId) index.guards
          record } := by
  unfold refreshBarrier Barrier.refresh guardBarrier
  dsimp only
  split
  · rfl
  · rfl

/-! ## Applying a record -/

theorem addChild_fields : (index.addChild record).records = index.records ∧
      (index.addChild record).guards = index.guards := by
  unfold addChild
  cases record.receipt.context.parentOperationId with
  | none => exact ⟨rfl, rfl⟩
  | some parent =>
    dsimp only
    split
    · exact ⟨rfl, rfl⟩
    · exact ⟨rfl, rfl⟩

variable {index : ControlOperationIndex} {records : Dict String ControlPlaneOperationRecord}
  {record : ControlPlaneOperationRecord}

theorem Indexes.addChild (h : Indexes index records) (hcontinues : Continues records record)
    (parent id : String) (stored : ControlPlaneOperationRecord) :
    (index.addChild record).child? parent id = some stored ↔
      (records.set record.receipt.operationId record).get? id = some stored ∧
        stored.receipt.context.parentOperationId = some parent ∧ resolvesParent stored = true := by
  rw [child?_addChild, Dict.get?_set]
  by_cases hid : id = record.receipt.operationId
  · simp only [hid, and_true, if_true, Option.some.injEq]
    -- An older version of the record was indexed under the same parent.
    have hold : index.child? parent record.receipt.operationId = some stored →
        record.receipt.context.parentOperationId = some parent ∧ resolvesParent record = true := by
      intro hchild
      obtain ⟨hstored, hparent, hresolves⟩ := (h.children _ _ _).1 hchild
      obtain ⟨hreceipt, hreconciles⟩ := hcontinues stored hstored
      rw [← hreceipt]
      refine ⟨hparent, ?_⟩
      unfold resolvesParent at hresolves ⊢
      rw [← hreceipt, Bool.or_eq_true]
      rw [Bool.or_eq_true] at hresolves
      exact hresolves.imp_left hreconciles
    split
    case isTrue hnew =>
      constructor
      · intro hstored
        cases hstored
        exact ⟨rfl, hnew⟩
      · exact fun hstored => congrArg some hstored.1
    case isFalse hnew =>
      constructor
      · exact fun hchild => absurd (hold hchild) hnew
      · intro hstored
        obtain ⟨rfl, hparent⟩ := hstored
        exact absurd hparent hnew
  · rw [if_neg fun hnew => hid hnew.2.2, if_neg hid]
    exact h.children parent id stored

theorem Indexes.addedChildren (h : Indexes index records) (hcontinues : Continues records record) :
    ∀ parent id stored, (ControlOperationIndex.addChild
        { index with records := index.records.set record.receipt.operationId record }
        record).child? parent id = some stored ↔
      (records.set record.receipt.operationId record).get? id = some stored ∧
        stored.receipt.context.parentOperationId = some parent ∧ resolvesParent stored = true := by
  intro parent id stored
  rw [← h.addChild hcontinues, child?_addChild, child?_addChild]
  rfl

def guardOf (records : Dict String ControlPlaneOperationRecord) (id : String)
    (record : ControlPlaneOperationRecord) : Prop :=
  records.get? id = some record ∧ mayGuard record = true ∧ Unresolved records record

theorem apply_eq (index : ControlOperationIndex) (record : ControlPlaneOperationRecord) :
    index.apply record =
      let added := ControlOperationIndex.addChild
        { index with records := index.records.set record.receipt.operationId record } record
      { added with
        guards := guardBarrier.applied added.childrenOf added.records added.guards record } := by
  unfold apply refreshParent Barrier.applied
  dsimp only
  rw [refreshBarrier_eq]
  cases record.receipt.context.parentOperationId with
  | none => rfl
  | some parent =>
    dsimp only
    cases (ControlOperationIndex.addChild
        { index with records := index.records.set record.receipt.operationId record }
        record).records.get? parent with
    | none => rfl
    | some parentRecord => exact refreshBarrier_eq _ _

theorem Indexes.apply (h : Indexes index records) (hkeyed : KeyedRecords records)
    (hcontinues : Continues records record)
    (hcontext : record.receipt.context = record.status.context) :
    Indexes (index.apply record) (records.set record.receipt.operationId record) := by
  obtain ⟨hrecords, hguards⟩ := addChild_fields
    { index with records := index.records.set record.receipt.operationId record } record
  have hchildren := h.addedChildren hcontinues
  have hstored := h.stored
  subst hstored
  rw [apply_eq]
  refine ⟨hrecords, hchildren, ?_⟩
  · dsimp only
    rw [hrecords, hguards]
    exact Barrier.get?_applied hkeyed hcontinues hcontext
      (childrenOf_of_children hchildren) h.guards

end ControlOperationIndex

/-! ## Conflicts -/

open ControlOperationIndex (guardOf)

/-- A list of stored records that holds every guard, and with each record that
may guard the children that resolve it. -/
structure Covers (records : Dict String ControlPlaneOperationRecord)
    (list : List ControlPlaneOperationRecord) : Prop where
  stored : ∀ record ∈ list, ∃ id, records.get? id = some record
  guards : ∀ id record, guardOf records id record → record ∈ list
  children : ∀ record ∈ list, mayGuard record = true → ∀ id child,
    records.get? id = some child → validReconciliationChild record child = true → child ∈ list

variable {records : Dict String ControlPlaneOperationRecord}
  {list : List ControlPlaneOperationRecord}

theorem Covers.blocker_iff (h : Covers records list) (record : ControlPlaneOperationRecord) :
    (record ∈ list ∧ mayGuard record = true ∧
        list.any (validReconciliationChild record) = false) ↔
      ∃ id, guardOf records id record := by
  constructor
  · intro hblocker
    obtain ⟨hmem, hguard, hnone⟩ := hblocker
    obtain ⟨id, hid⟩ := h.stored record hmem
    refine ⟨id, hid, hguard, fun childId child hchild => ?_⟩
    by_contra hvalid
    rw [Bool.not_eq_false] at hvalid
    have hlisted := h.children record hmem hguard childId child hchild hvalid
    exact absurd hvalid (List.any_eq_false.mp hnone child hlisted)
  · intro hguard
    obtain ⟨id, hguard⟩ := hguard
    refine ⟨h.guards id record hguard, hguard.2.1, ?_⟩
    rw [List.any_eq_false]
    intro child hchild
    obtain ⟨childId, hstored⟩ := h.stored child hchild
    rw [hguard.2.2 childId child hstored]
    exact Bool.false_ne_true

theorem ControlOperationIndex.Indexes.guardRecords_covers {index : ControlOperationIndex}
    (h : index.Indexes records) : Covers records index.guardRecords := by
  have hguards : ∀ record, record ∈ index.guardRecords ↔ ∃ id, guardOf records id record := by
    intro record
    unfold ControlOperationIndex.guardRecords
    rw [Dict.mem_values_iff]
    exact exists_congr fun id => h.guards id record
  refine ⟨?_, fun id record hguard => (hguards record).2 ⟨id, hguard⟩, ?_⟩
  · intro record hrecord
    obtain ⟨id, hguard⟩ := (hguards record).1 hrecord
    exact ⟨id, hguard.1⟩
  · intro record hrecord _ id child hchild hvalid
    obtain ⟨_, hguard⟩ := (hguards record).1 hrecord
    rw [hguard.2.2 id child hchild] at hvalid
    cases hvalid

theorem covers_values (records : Dict String ControlPlaneOperationRecord) :
    Covers records records.values where
  stored record hrecord := Dict.mem_values_iff.1 hrecord
  guards id record hguard := Dict.mem_values_iff.2 ⟨id, hguard.1⟩
  children _ _ _ id child hchild _ := Dict.mem_values_iff.2 ⟨id, hchild⟩

theorem mayGuard_of_overlaps {context : OperationAdmissionContext} {keys : List String}
    {existing : ControlPlaneOperationRecord}
    (h : activeMixedClaimOverlaps context keys existing = true) : mayGuard existing = true := by
  unfold activeMixedClaimOverlaps at h
  simp only [Bool.and_eq_true] at h
  unfold mayGuard
  rw [h.1.2, Bool.true_or]

theorem mixedClaimConflicts_iff (h : Covers records list) (new : ControlPlaneOperationRecord) :
    mixedClaimConflicts new list = true ↔
      new.status.context.operationKind ∈ mixedClaimKinds ∧ (mixedKeys new).isEmpty = false ∧
        ∃ existing, (∃ id, guardOf records id existing) ∧
          activeMixedClaimOverlaps new.status.context (mixedKeys new) existing = true := by
  unfold mixedClaimConflicts
  simp only [Bool.and_eq_true, decide_eq_true_eq, Bool.not_eq_true', List.any_eq_true, and_assoc]
  refine and_congr_right fun _ => and_congr_right fun _ => exists_congr fun existing => ?_
  rw [← h.blocker_iff]
  constructor
  · intro hconflict
    obtain ⟨hmem, hoverlaps, hnone⟩ := hconflict
    exact ⟨⟨hmem, mayGuard_of_overlaps hoverlaps, hnone⟩, hoverlaps⟩
  · intro hconflict
    obtain ⟨⟨hmem, _, hnone⟩, hoverlaps⟩ := hconflict
    exact ⟨hmem, hoverlaps, hnone⟩

variable (rules : ContractRules)

theorem anyBlocks_eq_ok_false_iff (new : ControlPlaneOperationRecord)
    (all rest : List ControlPlaneOperationRecord) : anyBlocks rules new all rest = .ok false ↔
      ∀ record ∈ rest, reservationBlocks rules new all record = .ok false := by
  induction rest with
  | nil => simp [anyBlocks]
  | cons record rest ih =>
    unfold anyBlocks
    rw [bind_eq_ok_iff, List.forall_mem_cons, ← ih]
    constructor
    · intro hblocks
      obtain ⟨blocks, hrecord, hrest⟩ := hblocks
      cases blocks with
      | true => cases hrest
      | false => exact ⟨hrecord, hrest⟩
    · intro hblocks
      exact ⟨false, hblocks.1, hblocks.2⟩

/-- The reservation of a record leaves room for a claim. -/
def MakesRoom (new record : ControlPlaneOperationRecord) : Prop :=
  rules.toolChildOf record new = .ok true ∨
    (rules.toolChildOf record new = .ok false ∧
      ¬ (record.status.context.targetScope = new.status.context.targetScope ∧
        record.status.context.runScope = new.status.context.runScope))

theorem reservationBlocks_eq_ok_false_iff (new record : ControlPlaneOperationRecord)
    (all : List ControlPlaneOperationRecord) : reservationBlocks rules new all record = .ok false ↔
      (isReserved record = true → record.receipt.operationId ≠ new.receipt.operationId →
        all.any (validReconciliationChild record) = false → MakesRoom rules new record) := by
  unfold reservationBlocks MakesRoom
  by_cases hblocks : isReserved record = true ∧
      record.receipt.operationId ≠ new.receipt.operationId ∧
      all.any (validReconciliationChild record) = false
  · obtain ⟨hreserved, hid, hnone⟩ := hblocks
    simp only [hreserved, hid, hnone, ne_eq, not_false_eq_true, decide_true, Bool.and_true,
      Bool.not_false, if_true, true_implies]
    cases htool : rules.toolChildOf record new with
    | error e => simp [bind, Except.bind]
    | ok tool =>
      cases tool with
      | true => simp [pure, Except.pure, bind, Except.bind]
      | false => simp [pure, Except.pure, bind, Except.bind]
  · have hskip : ¬ (isReserved record &&
        decide (record.receipt.operationId ≠ new.receipt.operationId) &&
        !all.any (validReconciliationChild record)) = true := by
      simp only [Bool.and_eq_true, decide_eq_true_eq, Bool.not_eq_true', and_assoc]
      exact hblocks
    rw [if_neg hskip]
    constructor
    · intro _ hreserved hid hnone
      exact absurd ⟨hreserved, hid, hnone⟩ hblocks
    · exact fun _ => rfl

theorem supervisedClaimConflicts_iff (h : Covers records list) (rules : ContractRules)
    (new : ControlPlaneOperationRecord) :
    supervisedClaimConflicts rules new list = .ok false ↔
      new.status.context.operationKind = .indeterminateResolution ∨
        controlRecordIsSupervisory rules new = .ok true ∨
          (controlRecordIsSupervisory rules new = .ok false ∧
            ∀ record, (∃ id, guardOf records id record) → isReserved record = true →
              record.receipt.operationId ≠ new.receipt.operationId →
              MakesRoom rules new record) := by
  unfold supervisedClaimConflicts
  by_cases hkind : new.status.context.operationKind = .indeterminateResolution
  · rw [if_pos hkind]
    exact ⟨fun _ => Or.inl hkind, fun _ => rfl⟩
  · rw [if_neg hkind, or_iff_right hkind, bind_eq_ok_iff]
    have hrest : anyBlocks rules new list list = .ok false ↔
        ∀ record, (∃ id, guardOf records id record) → isReserved record = true →
          record.receipt.operationId ≠ new.receipt.operationId → MakesRoom rules new record := by
      rw [anyBlocks_eq_ok_false_iff]
      constructor
      · intro hblocks record hguard hreserved hid
        obtain ⟨hmem, _, hnone⟩ := (h.blocker_iff record).2 hguard
        exact (reservationBlocks_eq_ok_false_iff ..).1 (hblocks record hmem) hreserved hid hnone
      · intro hroom record hmem
        rw [reservationBlocks_eq_ok_false_iff]
        intro hreserved hid hnone
        have hguard : mayGuard record = true := by
          unfold mayGuard
          rw [hreserved, Bool.or_true]
        exact hroom record ((h.blocker_iff record).1 ⟨hmem, hguard, hnone⟩) hreserved hid
    rw [← hrest]
    constructor
    · intro hsupervised
      obtain ⟨supervisory, hsupervisory, hblocks⟩ := hsupervised
      cases supervisory with
      | true => exact Or.inl hsupervisory
      | false => exact Or.inr ⟨hsupervisory, hblocks⟩
    · intro hsupervised
      rcases hsupervised with hsupervisory | ⟨hsupervisory, hblocks⟩
      · exact ⟨true, hsupervisory, rfl⟩
      · exact ⟨false, hsupervisory, hblocks⟩

variable {a b : List ControlPlaneOperationRecord}

theorem Covers.mixedClaimConflicts_eq (ha : Covers records a) (hb : Covers records b)
    (new : ControlPlaneOperationRecord) :
    mixedClaimConflicts new a = mixedClaimConflicts new b := by
  rw [Bool.eq_iff_iff, mixedClaimConflicts_iff ha, mixedClaimConflicts_iff hb]

theorem Covers.supervisedClaimConflicts_congr (ha : Covers records a) (hb : Covers records b)
    (rules : ContractRules) (new : ControlPlaneOperationRecord) :
    supervisedClaimConflicts rules new a = .ok false ↔
      supervisedClaimConflicts rules new b = .ok false := by
  rw [supervisedClaimConflicts_iff ha, supervisedClaimConflicts_iff hb]

/-- The tool claim test answers about each stored reservation. -/
def ToolTestAnswers (records : Dict String ControlPlaneOperationRecord)
    (new : ControlPlaneOperationRecord) : Prop :=
  ∀ id record, records.get? id = some record → isReserved record = true →
    ∃ tool, rules.toolChildOf record new = .ok tool

theorem anyBlocks_answers {rules : ContractRules} {new : ControlPlaneOperationRecord}
    (hanswers : ToolTestAnswers rules records new) (all : List ControlPlaneOperationRecord) :
    ∀ rest : List ControlPlaneOperationRecord,
      (∀ record ∈ rest, ∃ id, records.get? id = some record) →
      ∃ blocks, anyBlocks rules new all rest = .ok blocks := by
  intro rest
  induction rest with
  | nil => exact fun _ => ⟨false, rfl⟩
  | cons record rest ih =>
    intro hstored
    obtain ⟨others, hothers⟩ := ih fun r hr => hstored r (List.mem_cons_of_mem _ hr)
    have hrecord : ∃ blocks, reservationBlocks rules new all record = .ok blocks := by
      unfold reservationBlocks
      split
      case isTrue hblocks =>
        rw [Bool.and_eq_true, Bool.and_eq_true] at hblocks
        obtain ⟨id, hid⟩ := hstored record List.mem_cons_self
        obtain ⟨tool, htool⟩ := hanswers id record hid hblocks.1.1
        rw [htool]
        cases tool with
        | true => exact ⟨false, rfl⟩
        | false => exact ⟨_, rfl⟩
      case isFalse => exact ⟨false, rfl⟩
    obtain ⟨blocks, hblocks⟩ := hrecord
    unfold anyBlocks
    rw [hblocks]
    cases blocks with
    | true => exact ⟨true, rfl⟩
    | false => exact ⟨others, hothers⟩

theorem Covers.supervisedClaimConflicts_eq (ha : Covers records a) (hb : Covers records b)
    {rules : ContractRules}
    {new : ControlPlaneOperationRecord} (hanswers : ToolTestAnswers rules records new) :
    supervisedClaimConflicts rules new a = supervisedClaimConflicts rules new b := by
  have hcongr := ha.supervisedClaimConflicts_congr hb rules new
  obtain ⟨fromA, hfromA⟩ := anyBlocks_answers hanswers a a ha.stored
  obtain ⟨fromB, hfromB⟩ := anyBlocks_answers hanswers b b hb.stored
  unfold supervisedClaimConflicts at hcongr ⊢
  rw [hfromA, hfromB] at hcongr ⊢
  by_cases hkind : new.status.context.operationKind = .indeterminateResolution
  · rw [if_pos hkind, if_pos hkind]
  · rw [if_neg hkind, if_neg hkind] at hcongr ⊢
    cases hsupervisory : controlRecordIsSupervisory rules new with
    | error e => rfl
    | ok supervisory =>
      rw [hsupervisory] at hcongr
      cases supervisory with
      | true => rfl
      | false =>
        have hboth : fromA = false ↔ fromB = false := by
          constructor
          · intro h
            exact Except.ok.inj (hcongr.mp (congrArg Except.ok h))
          · intro h
            exact Except.ok.inj (hcongr.mpr (congrArg Except.ok h))
        show Except.ok fromA = Except.ok fromB
        cases fromA <;> cases fromB <;> simp at hboth ⊢

end Raes.Store
