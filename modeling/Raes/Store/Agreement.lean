import Raes.Store.GuardIndex
import Raes.Store.LocalRuns

/-!
# Stores that agree

A local and an in-memory store agree when they hold the same records, snapshot
state, audit trail and effect stop.  Every check that one of them makes before a
write then answers as the check of the other does, and every write keeps them in
agreement.
-/

namespace Raes.Store

open PyError Stateful
open ControlOperationIndex (guardOf)

variable {rules : ContractRules} {codec : DurableCodec}

theorem OperationKind.value_injective : Function.Injective OperationKind.value := by
  intro a b h
  cases a <;> cases b <;> first | rfl | exact absurd h (by decide)

/-- The row that a record is written as, and read back from. -/
def RowOf (codec : DurableCodec) (id : String) (row : OperationRow)
    (record : ControlPlaneOperationRecord) : Prop :=
  operationRow codec record = .ok row ∧ operationFromRow codec id row = .ok record

def AuditRowOf (codec : DurableCodec) (row : Json × String) (event : AuditEvent) : Prop :=
  encodePayload codec (auditPayload event) = .ok row ∧
    codec.auditEventFromPayload (auditPayload event) = .ok event

/-- A local and an in-memory store hold the same records, snapshot state, audit
trail and effect stop. -/
structure Agrees (rules : ContractRules) (codec : DurableCodec) (l : LocalStore)
    (m : MemoryStore) : Prop where
  rows : Dict.Related (RowOf codec) l.operations m.records
  consistent : m.Consistent
  keyed : KeyedRecords m.records
  index : m.claimGuards.Indexes m.records
  state : l.loadSnapshotState rules codec = .ok m.snapshotState
  revision : (l.snapshot.map SnapshotRow.revision).getD 0 = m.snapshotState.revision
  audit : List.Forall₂ (AuditRowOf codec) l.audit m.audit
  stopped : l.effectAdmissionStopped = m.effectAdmissionStopped

theorem PortableRecord.rowOf {record : ControlPlaneOperationRecord}
    (h : PortableRecord codec record) :
    ∃ row, RowOf codec record.receipt.operationId row record := by
  obtain ⟨payload, hpayload, hnesting, hrestores⟩ := h
  have hrow : operationRow codec record =
      .ok ⟨localOperationClaimColumns record, payload, codec.digest payload⟩ := by
    unfold operationRow
    rw [hpayload]
    show (encodePayload codec payload >>= fun encoded => _) = _
    rw [(encodePayload_ok_iff payload (payload, codec.digest payload)).2 ⟨hnesting, rfl⟩]
    rfl
  exact ⟨_, hrow, operationFromRow_operationRow ⟨⟨payload, hpayload, hrestores⟩, rfl⟩ hrow⟩

theorem PortableEvent.auditRowOf {event : AuditEvent} (h : PortableEvent codec event) :
    ∃ row, AuditRowOf codec row event :=
  ⟨_, (encodePayload_ok_iff _ _).2 ⟨h.1, rfl⟩, h.2⟩

/-! ## Reading the same records -/

namespace Agrees

variable {l : LocalStore} {m : MemoryStore}

theorem holds (h : Agrees rules codec l m) : LocalStore.Holds codec l m.records :=
  List.Forall₂.imp (fun _ _ hrow => ⟨hrow.1, hrow.2.2⟩) h.rows

theorem loadRecord (h : Agrees rules codec l m) (id : String) :
    l.loadRecord codec id = .ok (m.records.get? id) := h.holds.loadRecord id

theorem history (h : Agrees rules codec l m) (hreplays : LocalStore.Replays rules codec l) :
    ClaimHistory rules m.records.values := by
  obtain ⟨records, hholds, hhistory⟩ := hreplays
  have hsame : records.values = m.records.values := by
    have hvalues : ∀ other, LocalStore.Holds codec l other →
        LocalStore.decodeRows codec l.operations.entries = .ok other.values :=
      fun other hother => LocalStore.decodeRows_eq hother
    exact Except.ok.inj ((hvalues records hholds).symm.trans (hvalues m.records h.holds))
  rw [← hsame]
  exact hhistory

/-- The first row that meets a condition on its columns holds a record that
meets it, and without such a row no record does. -/
theorem find_columns (h : Agrees rules codec l m) (p : ClaimColumns → Bool) :
    (l.operations.entries.find? (fun entry => p entry.2.columns) = none ∧
      ∀ id record, m.records.get? id = some record →
        p (localOperationClaimColumns record) = false) ∨
    ∃ id row record, l.operations.entries.find? (fun entry => p entry.2.columns) = some (id, row) ∧
      m.records.get? id = some record ∧ operationFromRow codec id row = .ok record ∧
        p (localOperationClaimColumns record) = true := by
  have hstored : ∀ id row, (id, row) ∈ l.operations.entries →
      ∃ record, m.records.get? id = some record ∧ operationFromRow codec id row = .ok record ∧
        localOperationClaimColumns record = row.columns := by
    intro id row hmem
    rw [← Dict.get?_eq_some_iff] at hmem
    rcases Dict.Related.get? h.rows id with ⟨hnone, _⟩ | ⟨row', record, hrow', hrecord, hrowOf⟩
    · rw [hmem] at hnone
      cases hnone
    · cases hmem.symm.trans hrow'
      exact ⟨record, hrecord, hrowOf.2, (operationFromRow_ok hrowOf.2).2⟩
  cases hfind : l.operations.entries.find? fun entry => p entry.2.columns with
  | none =>
    refine Or.inl ⟨rfl, fun id record hrecord => ?_⟩
    rcases Dict.Related.get? h.rows id with ⟨_, hnone⟩ | ⟨row, record', hrow, hrecord', hrowOf⟩
    · rw [hrecord] at hnone
      cases hnone
    · cases hrecord.symm.trans hrecord'
      rw [Dict.get?_eq_some_iff] at hrow
      have hcolumns := List.find?_eq_none.1 hfind (id, row) hrow
      rw [(operationFromRow_ok hrowOf.2).2]
      exact Bool.eq_false_of_not_eq_true hcolumns
  | some entry =>
    obtain ⟨id, row⟩ := entry
    obtain ⟨record, hrecord, hread, hcolumns⟩ := hstored id row (List.mem_of_find?_eq_some hfind)
    have hp := List.find?_some hfind
    rw [← hcolumns] at hp
    exact Or.inr ⟨id, row, record, rfl, hrecord, hread, hp⟩

/-- The condition that a row holds the claim of a record. -/
def holdsClaim (context : OperationAdmissionContext) (key : String) (columns : ClaimColumns) :
    Bool :=
  columns.actorId = context.actorId && columns.operationKind = context.operationKind.value &&
    columns.idempotencyKey = key

theorem holdsClaim_iff (record other : ControlPlaneOperationRecord) :
    holdsClaim record.receipt.context record.idempotencyKey (localOperationClaimColumns other) =
      true ↔ claimOf other = claimOf record := by
  unfold holdsClaim localOperationClaimColumns claimOf idempotencyClaimIdentity
  simp only [Bool.and_eq_true, decide_eq_true_eq, Prod.mk.injEq,
    OperationKind.value_injective.eq_iff, and_assoc]

theorem claim_holder (h : Agrees rules codec l m) {record : ControlPlaneOperationRecord}
    (hkey : record.idempotencyKey ≠ "") (id : String) :
    m.idempotency.get? (claimOf record) = some id ↔
      ∃ other, m.records.get? id = some other ∧ claimOf other = claimOf record := by
  constructor
  · intro hid
    obtain ⟨other, hother, _, hclaim⟩ := h.consistent.claimant _ _ hid
    exact ⟨other, hother, hclaim⟩
  · intro hid
    obtain ⟨other, hother, hclaim⟩ := hid
    rw [← hclaim]
    refine h.consistent.claimed id other hother ?_
    have hkeys : other.idempotencyKey = record.idempotencyKey :=
      congrArg (fun claim : IdempotencyClaimIdentity => claim.2.2) hclaim
    rw [hkeys]
    exact hkey

theorem incumbent (h : Agrees rules codec l m) (record : ControlPlaneOperationRecord) :
    l.incumbent codec record = .ok (m.incumbent record) := by
  unfold LocalStore.incumbent MemoryStore.incumbent
  by_cases hkey : record.idempotencyKey = ""
  · rw [if_pos hkey, if_pos hkey]
  · rw [if_neg hkey, if_neg hkey]
    unfold LocalStore.findByIdempotency
    rcases h.find_columns (holdsClaim record.receipt.context record.idempotencyKey) with
      ⟨hnone, hfree⟩ | ⟨id, row, other, hsome, hother, hread, hclaim⟩
    · have hunclaimed : m.idempotency.get? (claimOf record) = none := by
        rw [Option.eq_none_iff_forall_ne_some]
        intro id hid
        obtain ⟨other, hother, hclaim⟩ := (h.claim_holder hkey id).1 hid
        have hnot := hfree id other hother
        rw [(holdsClaim_iff record other).2 hclaim] at hnot
        cases hnot
      unfold holdsClaim at hnone
      rw [hunclaimed, hnone]
      rfl
    · rw [holdsClaim_iff] at hclaim
      unfold holdsClaim at hsome
      rw [(h.claim_holder hkey id).2 ⟨other, hother, hclaim⟩, hsome]
      show some <$> operationFromRow codec id row = .ok (m.records.get? id)
      rw [hread, hother]
      rfl

/-! ## Claim guards -/

end Agrees

theorem path_recordPayload {record : ControlPlaneOperationRecord} {payload : Json}
    (h : recordPayload codec record = .ok payload) :
    LocalStore.path payload ["status", "state"] = some (.str record.status.state.value) ∧
      LocalStore.path payload ["invocation", "reserved"] =
        record.invocation.map (fun ledger => .bool ledger.reserved) ∧
      LocalStore.path payload ["receipt", "context", "parent_operation_id"] =
        some (optionalText record.receipt.context.parentOperationId) ∧
      LocalStore.path payload ["reconciliation"] =
        some (optionalDump reconciliationPayload record.reconciliation) := by
  unfold recordPayload receiptPayload statusPayload at h
  simp only [bind_eq_ok_iff] at h
  obtain ⟨receipt, ⟨_, _, hreceipt⟩, status, ⟨_, _, hstatus⟩, hpayload⟩ := h
  cases hreceipt
  cases hstatus
  cases hpayload
  refine ⟨rfl, ?_, rfl, rfl⟩
  cases record.invocation with
  | none => rfl
  | some ledger => rfl

theorem RowOf.payload {id : String} {row : OperationRow} {record : ControlPlaneOperationRecord}
    (h : RowOf codec id row record) : recordPayload codec record = .ok row.payload := by
  have hrow := h.1
  unfold operationRow at hrow
  simp only [bind_eq_ok_iff, encodePayload_ok_iff] at hrow
  obtain ⟨payload, hpayload, encoded, ⟨_, rfl⟩, hrow⟩ := hrow
  cases hrow
  exact hpayload

theorem RowOf.isParentRow {id : String} {row : OperationRow} {record : ControlPlaneOperationRecord}
    (h : RowOf codec id row record) : LocalStore.isParentRow row = mayGuard record := by
  obtain ⟨hstate, hreserved, _⟩ := path_recordPayload h.payload
  unfold LocalStore.isParentRow mayGuard isReserved
  rw [hstate, hreserved]
  have hactive : decide (some (Json.str record.status.state.value) ∈
      [some (Json.str "accepted"), some (Json.str "running"), some (Json.str "indeterminate")]) =
      isActive record.status.state := by
    cases record.status.state <;> decide
  rw [hactive]
  cases record.invocation with
  | none => rfl
  | some ledger =>
    have hbool : decide (some (Json.bool ledger.reserved) = some (Json.bool true)) =
        ledger.reserved := by simp
    exact congrArg _ hbool

theorem RowOf.isReconciliationOf {id : String} {row : OperationRow}
    {record : ControlPlaneOperationRecord} (h : RowOf codec id row record) (parent : String) :
    LocalStore.isReconciliationOf parent row = true ↔
      record.receipt.context.parentOperationId = some parent ∧
        record.reconciliation.isSome = true := by
  obtain ⟨_, _, hparent, hreconciliation⟩ := path_recordPayload h.payload
  unfold LocalStore.isReconciliationOf
  rw [hparent, hreconciliation, Bool.and_eq_true, decide_eq_true_eq]
  refine and_congr ?_ ?_
  · cases record.receipt.context.parentOperationId with
    | none => simp [optionalText]
    | some other => simp [optionalText]
  · cases record.reconciliation with
    | none => simp [optionalDump, Json.isObj]
    | some evidence => simp [optionalDump, reconciliationPayload, Json.isObj]

namespace Agrees

variable {l : LocalStore} {m : MemoryStore} {record : ControlPlaneOperationRecord}

theorem stored_row (h : Agrees rules codec l m) {id : String}
    (hrecord : m.records.get? id = some record) :
    ∃ row, (id, row) ∈ l.operations.entries ∧ RowOf codec id row record := by
  rcases Dict.Related.get? h.rows id with ⟨_, hnone⟩ | ⟨row, other, hrow, hother, hrowOf⟩
  · rw [hrecord] at hnone
    cases hnone
  · cases hrecord.symm.trans hother
    exact ⟨row, Dict.get?_eq_some_iff.1 hrow, hrowOf⟩

theorem stored_record (h : Agrees rules codec l m) {id : String} {row : OperationRow}
    (hrow : (id, row) ∈ l.operations.entries) :
    ∃ record, m.records.get? id = some record ∧ RowOf codec id row record := by
  rw [← Dict.get?_eq_some_iff] at hrow
  rcases Dict.Related.get? h.rows id with ⟨hnone, _⟩ | ⟨other, record, hother, hrecord, hrowOf⟩
  · rw [hrow] at hnone
    cases hnone
  · cases hrow.symm.trans hother
    exact ⟨record, hrecord, hrowOf⟩

theorem decode_row {id : String} {row : OperationRow} (h : RowOf codec id row record) :
    decodeContract codec row.payload row.digest "operation record" codec.recordFromPayload =
      .ok record := by
  have hread := h.2
  unfold operationFromRow at hread
  rw [bind_eq_ok_iff] at hread
  obtain ⟨decoded, hdecoded, hread⟩ := hread
  simp only [seq_eq_ok_iff] at hread
  cases hread.2.2
  exact hdecoded

theorem loadClaimGuardRecords (h : Agrees rules codec l m) :
    ∃ list, LocalStore.loadClaimGuardRecords codec l = .ok list ∧ Covers m.records list := by
  have hdecodes : ∀ entries : List (String × OperationRow), (∀ entry ∈ entries,
      entry ∈ l.operations.entries) → ∃ list, (entries.mapM fun entry =>
        decodeContract codec entry.2.payload entry.2.digest "operation record"
          codec.recordFromPayload) = .ok list ∧
      ∀ record, record ∈ list ↔ ∃ entry ∈ entries, RowOf codec entry.1 entry.2 record := by
    intro entries
    induction entries with
    | nil => exact fun _ => ⟨[], rfl, fun record => by simp⟩
    | cons entry rest ih =>
      intro hentries
      obtain ⟨list, hlist, hmem⟩ := ih fun e he => hentries e (List.mem_cons_of_mem _ he)
      obtain ⟨record, hrecord, hrowOf⟩ := h.stored_record (hentries entry List.mem_cons_self)
      refine ⟨record :: list, ?_, fun other => ?_⟩
      · rw [List.mapM_cons, decode_row hrowOf, hlist]
        rfl
      · rw [List.mem_cons, hmem, List.exists_mem_cons_iff]
        refine or_congr_left ⟨fun hother => hother ▸ hrowOf, fun hother => ?_⟩
        exact Except.ok.inj (hother.2.symm.trans hrowOf.2)
  obtain ⟨list, hlist, hmem⟩ := hdecodes l.guardRows fun entry hentry => List.mem_of_mem_filter hentry
  refine ⟨list, hlist, ?_, ?_, ?_⟩
  · intro record hrecord
    obtain ⟨entry, hentry, hrowOf⟩ := (hmem record).1 hrecord
    obtain ⟨other, hother, hotherOf⟩ := h.stored_record (List.mem_of_mem_filter hentry)
    cases hrowOf.2.symm.trans hotherOf.2
    exact ⟨entry.1, hother⟩
  · intro id record hguard
    obtain ⟨row, hrow, hrowOf⟩ := h.stored_row hguard.1
    refine (hmem record).2 ⟨(id, row), List.mem_filter.2 ⟨hrow, ?_⟩, hrowOf⟩
    rw [hrowOf.isParentRow, hguard.2.1, Bool.true_or]
  · intro record hrecord hguard id child hchild hvalid
    obtain ⟨entry, hentry, hrowOf⟩ := (hmem record).1 hrecord
    obtain ⟨row, hrow, hchildOf⟩ := h.stored_row hchild
    obtain ⟨hreconciles, hparent⟩ := validReconciliationChild_names_parent hvalid
    refine (hmem child).2 ⟨(id, row), List.mem_filter.2 ⟨hrow, ?_⟩, hchildOf⟩
    have hparentRow : LocalStore.isParentRow entry.2 = true := by
      rw [hrowOf.isParentRow]
      exact hguard
    have hnames : LocalStore.isReconciliationOf entry.1 row = true := by
      rw [hchildOf.isReconciliationOf, h.keyed.contexts id child hchild, hparent,
        (operationFromRow_ok hrowOf.2).1]
      exact ⟨rfl, hreconciles⟩
    rw [Bool.or_eq_true, List.any_eq_true]
    refine Or.inr ⟨entry, List.mem_of_mem_filter hentry, ?_⟩
    rw [hparentRow, hnames]
    rfl

theorem guardRecords_covers (h : Agrees rules codec l m) :
    Covers m.records m.claimGuards.guardRecords := h.index.guardRecords_covers

theorem requireClaimAdmitted_congr {records : Dict String ControlPlaneOperationRecord}
    {a b : List ControlPlaneOperationRecord} (ha : Covers records a) (hb : Covers records b)
    (stopped : Bool) (record : ControlPlaneOperationRecord) :
    MemoryStore.requireClaimAdmitted rules stopped a record = .ok () ↔
      MemoryStore.requireClaimAdmitted rules stopped b record = .ok () := by
  have hmixed := ha.mixedClaimConflicts_eq hb record
  have hsupervised := ha.supervisedClaimConflicts_congr hb rules record
  have hrest : ∀ list, (supervisedClaimConflicts rules record list >>= fun conflicts =>
      refuseIf (conflicts = true) (newClaimBlockError .currentState)) = .ok () ↔
      supervisedClaimConflicts rules record list = .ok false := by
    intro list
    rw [bind_eq_ok_iff]
    simp
  unfold MemoryStore.requireClaimAdmitted
  rw [hmixed]
  split
  · simp only [bind_eq_ok_iff, hrest, hsupervised]
  · simp only [seq_eq_ok_iff, hrest, hsupervised]

theorem requireClaimAdmitted_iff (h : Agrees rules codec l m)
    (record : ControlPlaneOperationRecord) :
    LocalStore.requireClaimAdmitted rules codec l record = .ok () ↔
      MemoryStore.requireClaimAdmitted rules m.effectAdmissionStopped m.claimGuards.guardRecords
        record = .ok () := by
  obtain ⟨list, hlist, hcovers⟩ := h.loadClaimGuardRecords
  rw [← requireClaimAdmitted_congr hcovers h.guardRecords_covers, ← h.stopped]
  unfold LocalStore.requireClaimAdmitted MemoryStore.requireClaimAdmitted
  rw [hlist]
  rfl

/-! ## Claims -/

/-- The claim of a record is free in one store when it is free in the other,
unless an earlier build claimed for the actor and kind. -/
theorem requireFreeClaim_iff (h : Agrees rules codec l m) (record : ControlPlaneOperationRecord)
    (hforeign : record.idempotencyKey ≠ "" → ∀ holder ∈ l.opaqueClaimant record.receipt.context,
      holder = record.receipt.operationId) :
    LocalStore.requireFreeClaim l record = .ok () ↔
      ∃ idempotency, MemoryStore.updatedIdempotency m record = .ok idempotency := by
  simp only [MemoryStore.updatedIdempotency_ok_iff]
  unfold LocalStore.requireFreeClaim
  by_cases hkey : record.idempotencyKey = ""
  · rw [if_neg (not_not_intro hkey)]
    exact ⟨fun _ => ⟨m.idempotency, Or.inl ⟨hkey, rfl⟩⟩, fun _ => rfl⟩
  · rw [if_pos hkey, seq_eq_ok_iff, refuseIf_eq_ok_iff, refuseIf_eq_ok_iff]
    have hfree : (¬ ∃ holder ∈ l.opaqueClaimant record.receipt.context,
        holder ≠ record.receipt.operationId) := by
      intro hheld
      obtain ⟨holder, hholder, hne⟩ := hheld
      exact hne (hforeign hkey holder hholder)
    have hclaimant : (¬ ∃ holder ∈ l.claimant record.receipt.context record.idempotencyKey,
        holder ≠ record.receipt.operationId) ↔
        ∀ id, m.idempotency.get? (claimOf record) = some id →
          id = record.receipt.operationId := by
      have hfind : l.claimant record.receipt.context record.idempotencyKey =
          (l.operations.entries.find? fun entry => holdsClaim record.receipt.context
            record.idempotencyKey entry.2.columns).map Prod.fst := rfl
      rw [hfind]
      rcases h.find_columns (holdsClaim record.receipt.context record.idempotencyKey) with
        ⟨hnone, hunheld⟩ | ⟨id, row, other, hsome, hother, _, hclaim⟩
      · rw [hnone]
        refine ⟨fun _ id hid => ?_, fun _ hheld => ?_⟩
        · obtain ⟨other, hother, hclaim⟩ := (h.claim_holder hkey id).1 hid
          have hnot := hunheld id other hother
          rw [(holdsClaim_iff record other).2 hclaim] at hnot
          cases hnot
        · obtain ⟨_, hnothing, _⟩ := hheld
          cases hnothing
      · rw [holdsClaim_iff] at hclaim
        rw [hsome, (h.claim_holder hkey id).2 ⟨other, hother, hclaim⟩]
        simp
    simp only [hfree, hclaimant, hkey, not_false_eq_true, true_and, false_and, false_or, ne_eq]
    exact ⟨fun hclaims => ⟨_, hclaims, rfl⟩, fun hclaims => hclaims.choose_spec.1⟩

/-! ## Inject claims -/

theorem distinctIds (h : Agrees rules codec l m) : DistinctIds m.records.values :=
  h.holds.distinctIds

theorem injectChecked_of_stored (h : Agrees rules codec l m)
    (hhistory : ClaimHistory rules m.records.values) {record existing : ControlPlaneOperationRecord}
    {u : LocalStore} (hu : u.operations = l.operations)
    (hstored : m.records.get? record.receipt.operationId = some existing) :
    LocalStore.InjectChecked rules codec u record := by
  intro _
  obtain ⟨loaded, hloaded, hperm⟩ := h.holds.loadRecords hhistory
  have hloads : LocalStore.loadRecords rules codec u = .ok loaded := by
    rw [← hloaded]
    unfold LocalStore.loadRecords LocalStore.orderedRows
    rw [hu]
  refine ⟨loaded, hloads, (requireInjectClaim_ok_iff ..).2 (Or.inl ⟨existing, ?_, ?_⟩)⟩
  · exact hperm.mem_iff.2 (Dict.mem_values_iff.2 ⟨_, hstored⟩)
  · exact h.holds.ids _ existing hstored

theorem requireInjectClaim_perm {a b : List ControlPlaneOperationRecord} {revision : ℤ}
    (hperm : a.Perm b)
    (hids : DistinctIds a) (h : requireInjectClaim rules record a revision = .ok ()) :
    requireInjectClaim rules record b revision = .ok () := by
  rw [requireInjectClaim_ok_iff] at h ⊢
  rcases h with ⟨item, hitem, hid⟩ | ⟨hnew, hdeliveries, hclaims⟩
  · exact Or.inl ⟨item, hperm.mem_iff.1 hitem, hid⟩
  · have happend : (a ++ [record]).Perm (b ++ [record]) := hperm.append_right _
    have hids' : DistinctIds (a ++ [record]) := by
      unfold DistinctIds at hids ⊢
      rw [List.map_append]
      refine hids.append (List.nodup_singleton _) ?_
      rw [List.map_singleton, List.disjoint_singleton, List.mem_map]
      intro hmem
      obtain ⟨item, hitem, hid⟩ := hmem
      exact hnew item hitem hid
    refine Or.inr ⟨fun item hitem => hnew item (hperm.mem_iff.2 hitem),
      hdeliveries.perm happend hids', fun occurrence hoccurrence => ?_⟩
    exact ⟨(hclaims occurrence hoccurrence).1, (hclaims occurrence hoccurrence).2.perm happend hids'⟩

/-- A new record without an occurrence, whose delivery is checked if it has one,
passes the inject check of the in-memory store. -/
theorem requireInjectClaim_of_delivery (h : Agrees rules codec l m)
    (hhistory : ClaimHistory rules m.records.values) (hoccurrence : record.injectOccurrence = none)
    (hdelivery : record.injectDelivery.isSome = true →
      LocalStore.loadRecord codec l record.receipt.operationId = .ok none →
      ∀ loaded, LocalStore.loadRecords rules codec l = .ok loaded →
        requireDeliveryClaims rules (loaded ++ [record]) conflictError = .ok ()) (revision : ℤ) :
    requireInjectClaim rules record m.records.values revision = .ok () := by
  rw [requireInjectClaim_ok_iff]
  cases hstored : m.records.get? record.receipt.operationId with
  | some existing =>
    exact Or.inl ⟨existing, Dict.mem_values_iff.2 ⟨_, hstored⟩,
      h.holds.ids _ existing hstored⟩
  | none =>
    have hids := h.holds.distinctIds_append hstored
    refine Or.inr ⟨?_, ?_, ?_⟩
    · intro item hitem hid
      have hget := h.holds.mem_values.1 hitem
      rw [show item.receipt.operationId = record.receipt.operationId from hid, hstored] at hget
      cases hget
    · cases hcontent : record.injectDelivery with
      | none => exact hhistory.deliveries.append hcontent hids
      | some content =>
        obtain ⟨loaded, hloaded, hperm⟩ := h.holds.loadRecords hhistory
        have hnone := h.loadRecord record.receipt.operationId
        rw [hstored] at hnone
        have hclaims := hdelivery (by rw [hcontent]; rfl) hnone loaded hloaded
        rw [requireDeliveryClaims_ok_iff] at hclaims
        exact hclaims.perm (hperm.append_right _) (hids.perm (hperm.append_right _).symm)
    · intro occurrence hsome
      rw [hoccurrence] at hsome
      cases hsome

theorem injectChecked_iff (h : Agrees rules codec l m)
    (hhistory : ClaimHistory rules m.records.values)
    (hdelivery : record.injectOccurrence = none → record.injectDelivery.isSome = true →
      LocalStore.loadRecord codec l record.receipt.operationId = .ok none →
      ∀ loaded, LocalStore.loadRecords rules codec l = .ok loaded →
        requireDeliveryClaims rules (loaded ++ [record]) conflictError = .ok ()) :
    LocalStore.InjectChecked rules codec l record ↔
      requireInjectClaim rules record m.records.values m.snapshotState.revision = .ok () := by
  unfold LocalStore.InjectChecked
  rw [h.revision]
  obtain ⟨loaded, hloaded, hperm⟩ := h.holds.loadRecords hhistory
  have hids : DistinctIds loaded := h.distinctIds.perm hperm.symm
  cases hoccurrence : record.injectOccurrence with
  | none =>
    exact ⟨fun _ => h.requireInjectClaim_of_delivery hhistory hoccurrence (hdelivery hoccurrence) _,
      fun _ hsome => absurd hsome Bool.false_ne_true⟩
  | some occurrence =>
    constructor
    · intro hchecked
      obtain ⟨loaded', hloaded', hclaim⟩ := hchecked rfl
      cases hloaded.symm.trans hloaded'
      exact requireInjectClaim_perm hperm hids hclaim
    · exact fun hclaim _ => ⟨loaded, hloaded, requireInjectClaim_perm hperm.symm h.distinctIds hclaim⟩

/-! ## Snapshots -/

theorem requireSnapshotRevision_ok_iff {revision current : ℤ} :
    requireSnapshotRevision revision = .ok current ↔
      0 ≤ revision ∧ revision ≤ maxSnapshotRevision ∧ current = revision := by
  unfold requireSnapshotRevision
  rw [seq_eq_ok_iff, refuseIf_eq_ok_iff, not_or, not_lt, not_lt, and_assoc]
  refine and_congr_right fun _ => and_congr_right fun _ => ?_
  exact ⟨fun h => (Except.ok.inj h).symm, fun h => congrArg _ h.symm⟩

theorem loadSnapshotState_withSnapshot (l : LocalStore) (row : SnapshotRow) (state : SnapshotState) :
    LocalStore.loadSnapshotState rules codec (l.withSnapshot row) = .ok state ↔
      0 ≤ row.revision ∧ row.revision ≤ maxSnapshotRevision ∧
        codec.restoreSnapshot row.rows = .ok state.snapshot ∧ state.revision = row.revision := by
  unfold LocalStore.loadSnapshotState LocalStore.withSnapshot
  dsimp only
  rw [seq_eq_ok_iff, refuseIf_eq_ok_iff, not_or, not_lt, not_lt, and_assoc,
    bind_eq_ok_iff]
  refine and_congr_right fun _ => and_congr_right fun _ => ?_
  constructor
  · intro h
    obtain ⟨snapshot, hsnapshot, hstate⟩ := h
    cases hstate
    exact ⟨hsnapshot, rfl⟩
  · intro h
    exact ⟨state.snapshot, h.1, by rw [← h.2]; rfl⟩

theorem requireSnapshotRevision_next {revision next : ℤ}
    (h : nextSnapshotRevision revision = .ok next) : requireSnapshotRevision next = .ok next := by
  have hnext := nextSnapshotRevision_ok h
  unfold nextSnapshotRevision at h
  simp only [bind_eq_ok_iff, requireSnapshotRevision_ok_iff, refuseIf_eq_ok_iff] at h
  obtain ⟨current, ⟨hlow, hhigh, rfl⟩, _, hmax, _⟩ := h
  rw [requireSnapshotRevision_ok_iff]
  omega

variable {snapshot : RuntimeSnapshot}

theorem sealedState_portable {rows : Option SnapshotRows}
    (hportable : PortableSnapshot codec rules rows snapshot) {revision next : ℤ}
    (hnext : nextSnapshotRevision revision = .ok next) :
    sealedState rules snapshot next = .ok ⟨snapshot, next⟩ := by
  unfold sealedState
  rw [requireSnapshotRevision_next hnext]
  show (rules.sealHistories snapshot >>= fun snapshot => _) = _
  rw [hportable.1]
  rfl

theorem snapshotCommit_forth (h : Agrees rules codec l m)
    (hportable : PortableSnapshot codec rules (l.snapshot.map SnapshotRow.rows) snapshot)
    {revision : ℤ} {row : SnapshotRow} {answer : SnapshotState}
    (hcommit : LocalStore.SnapshotCommit rules codec l snapshot revision row answer) :
    m.snapshotState.revision = revision ∧
      (∃ next, nextSnapshotRevision revision = .ok next ∧
        sealedState rules snapshot next = .ok answer) ∧
      row.revision = answer.revision := by
  obtain ⟨current, hcurrent, hrevision⟩ := hcommit.current
  cases h.state.symm.trans hcurrent
  obtain ⟨canonical, hcanonical, hwritten⟩ := hcommit.written
  obtain ⟨written, hpersists, hrestores⟩ := hportable.2.2
  cases hportable.2.1.symm.trans hcanonical
  cases hpersists.symm.trans hwritten
  obtain ⟨_, _, hrestored, hanswer⟩ := (loadSnapshotState_withSnapshot l row answer).1 hcommit.answered
  cases hrestores.symm.trans hrestored
  refine ⟨hrevision, ⟨row.revision, hcommit.next, ?_⟩, hanswer.symm⟩
  rw [sealedState_portable hportable hcommit.next, ← hanswer]

theorem snapshotCommit_back (h : Agrees rules codec l m) (hportable : PortableSnapshot codec rules
    (l.snapshot.map SnapshotRow.rows) snapshot) {revision : ℤ} {answer : SnapshotState}
    (hvalid : requireSnapshotRevision revision = .ok revision)
    (hrevision : m.snapshotState.revision = revision)
    (hsealed : ∃ next, nextSnapshotRevision revision = .ok next ∧
      sealedState rules snapshot next = .ok answer) :
    ∃ row, LocalStore.SnapshotCommit rules codec l snapshot revision row answer := by
  obtain ⟨next, hnext, hsealed⟩ := hsealed
  cases (sealedState_portable hportable hnext).symm.trans hsealed
  obtain ⟨written, hpersists, hrestores⟩ := hportable.2.2
  refine ⟨⟨written, next⟩, hvalid, ⟨m.snapshotState, h.state, hrevision⟩, hnext,
    ⟨snapshot, hportable.2.1, hpersists⟩, ?_⟩
  obtain ⟨hlow, hhigh, _⟩ := requireSnapshotRevision_ok_iff.1 (requireSnapshotRevision_next hnext)
  exact (loadSnapshotState_withSnapshot l _ _).2 ⟨hlow, hhigh, hrestores, rfl⟩

/-! ## Retries -/

theorem loadAudits (h : Agrees rules codec l m) : l.loadAudits codec = .ok m.audit := by
  unfold LocalStore.loadAudits
  have haudit := h.audit
  revert haudit
  generalize l.audit = rows
  generalize m.audit = events
  intro haudit
  induction haudit with
  | nil => rfl
  | cons hhead htail ih =>
    obtain ⟨hnesting, rfl⟩ := (encodePayload_ok_iff _ _).1 hhead.1
    rw [List.mapM_cons, decodeContract_encoded _ rfl hnesting hhead.2, ih]
    rfl

def RetryMatches (state : SnapshotState) (audits : List AuditEvent) (snapshot : RuntimeSnapshot)
    (record : ControlPlaneOperationRecord) (event : AuditEvent) (mode : TerminalCommitMode)
    (revision : ℤ) : Prop :=
  requireTerminalRetryMode state.revision revision mode = .ok () ∧
    state.snapshot.pyEq snapshot = true ∧ auditMatches audits record event = true

theorem validateRetry_ok_iff (m t : MemoryStore) (snapshot : RuntimeSnapshot)
    (record : ControlPlaneOperationRecord) (event : AuditEvent) (mode : TerminalCommitMode)
    (revision : ℤ) (label : String) (answer : SnapshotState) :
    exec (MemoryStore.validateRetry snapshot record event mode revision label) m =
        (.ok answer, t) ↔
      RetryMatches m.snapshotState m.audit snapshot record event mode revision ∧
        answer = m.snapshotState ∧ t = m := by
  unfold MemoryStore.validateRetry RetryMatches
  rw [exec_get_bind, exec_check_bind_ok_iff, exec_check_bind_ok_iff, exec_check_bind_ok_iff,
    exec_pure_ok_iff, refuseIf_eq_ok_iff, refuseIf_eq_ok_iff, Bool.not_eq_false, Bool.not_eq_false,
    and_assoc, and_assoc]

theorem requireRetry_ok_iff (h : Agrees rules codec l m)
    (hcanonical : codec.canonicalSnapshot snapshot = .ok snapshot)
    (record : ControlPlaneOperationRecord) (event : AuditEvent) (mode : TerminalCommitMode)
    (revision : ℤ) (label : String) (answer : SnapshotState) (t : LocalStore) :
    exec (LocalStore.requireRetry rules codec snapshot record event mode revision label) l =
        (.ok answer, t) ↔
      RetryMatches m.snapshotState m.audit snapshot record event mode revision ∧
        answer = m.snapshotState ∧ t = l := by
  unfold LocalStore.requireRetry RetryMatches
  rw [exec_lift_bind_ok_iff]
  simp only [hcanonical, Except.ok.injEq, exists_eq_left']
  rw [exec_get_bind, exec_lift_bind_ok_iff]
  simp only [h.state, Except.ok.injEq, exists_eq_left']
  rw [exec_check_bind_ok_iff, exec_check_bind_ok_iff, exec_lift_bind_ok_iff]
  simp only [h.loadAudits, Except.ok.injEq, exists_eq_left']
  rw [exec_check_bind_ok_iff, exec_pure_ok_iff, refuseIf_eq_ok_iff, refuseIf_eq_ok_iff,
    Bool.not_eq_false, Bool.not_eq_false, and_assoc, and_assoc]

/-! ## Writes -/

end Agrees

theorem requireSameOperationIdentity_reconciliation
    {existing replacement : ControlPlaneOperationRecord}
    (h : requireSameOperationIdentity rules existing replacement = .ok ())
    (hreconciles : existing.reconciliation.isSome = true) :
    replacement.reconciliation.isSome = true := by
  unfold requireSameOperationIdentity at h
  simp only [seq_eq_ok_iff, refuseIf_eq_ok_iff, not_and, not_not] at h
  rw [← h.2.2.2.2.2.2.2.1 hreconciles]
  exact hreconciles

theorem Replaces.continues {records : Dict String ControlPlaneOperationRecord}
    {record : ControlPlaneOperationRecord}
    (h : Replaces rules (records.get? record.receipt.operationId) record) :
    Continues records record := by
  intro old hold
  rw [hold] at h
  refine ⟨h.existing.1.receipt, ?_⟩
  cases h with
  | transition same _ => exact requireSameOperationIdentity_reconciliation same
  | supervise current cut =>
    intro hreconciles
    have hkept := congrArg (fun r : ControlPlaneOperationRecord => r.reconciliation)
      (eq_of_pyEq current)
    rw [show old.reconciliation = _ from hkept] at hreconciles
    exact requireSameOperationIdentity_reconciliation (requireSupervisionCut_ok cut).1 hreconciles

namespace Agrees

variable {l : LocalStore} {m : MemoryStore}

theorem kept (h : Agrees rules codec l m) {record : ControlPlaneOperationRecord}
    {row : OperationRow} {idempotency : Dict IdempotencyClaimIdentity String}
    (hrow : RowOf codec record.receipt.operationId row record)
    (hreplaces : Replaces rules (m.records.get? record.receipt.operationId) record)
    (hclaims : MemoryStore.updatedIdempotency m record = .ok idempotency) :
    Agrees rules codec (l.upserted record row) (m.keep record idempotency) where
  rows := Dict.Related.set h.rows hrow
  consistent := h.consistent.recordStep (.kept record hreplaces hclaims rfl)
  keyed := h.keyed.set hreplaces.record_ids.2
  index := h.index.apply h.keyed hreplaces.continues hreplaces.record_ids.2
  state := h.state
  revision := h.revision
  audit := h.audit
  stopped := h.stopped

theorem audited (h : Agrees rules codec l m) {event : AuditEvent} {row : Json × String}
    (hrow : AuditRowOf codec row event) :
    Agrees rules codec (l.audited row) { m with audit := m.audit ++ [event] } where
  rows := h.rows
  consistent := ⟨h.consistent.ids, h.consistent.claimed, h.consistent.claimant⟩
  keyed := h.keyed
  index := h.index
  state := h.state
  revision := h.revision
  audit := List.rel_append h.audit (.cons hrow .nil)
  stopped := h.stopped

theorem withSnapshot (h : Agrees rules codec l m) {row : SnapshotRow} {answer : SnapshotState}
    (hanswer : LocalStore.loadSnapshotState rules codec (l.withSnapshot row) = .ok answer)
    (hrevision : row.revision = answer.revision) :
    Agrees rules codec (l.withSnapshot row) { m with snapshotState := answer } where
  rows := h.rows
  consistent := ⟨h.consistent.ids, h.consistent.claimed, h.consistent.claimant⟩
  keyed := h.keyed
  index := h.index
  state := hanswer
  revision := hrevision
  audit := h.audit
  stopped := h.stopped

end Agrees
end Raes.Store
