import Mathlib.Data.List.Perm.Basic
import Raes.Store.Local
import Raes.Store.MemoryEffects

/-!
# What one operation does to the local store

First what a load reads back of the rows that an upsert wrote, then one lemma
for each operation that says when it is accepted and what it leaves.
-/

namespace Raes.Store

open PyError Stateful

variable {rules : ContractRules} {codec : DurableCodec}

/-! ## Reading back -/

theorem encodePayload_ok_iff (payload : Json) (encoded : Json × String) :
    encodePayload codec payload = .ok encoded ↔
      payload.nesting ≤ durableMaxNesting ∧ encoded = (payload, codec.digest payload) := by
  unfold encodePayload
  rw [seq_eq_ok_iff, refuseIf_eq_ok_iff, not_lt]
  exact and_congr_right fun _ => ⟨fun h => (Except.ok.inj h).symm, fun h => congrArg _ h.symm⟩

theorem decodePayload_encoded {payload : Json} (hobject : payload.isObj = true)
    (hnesting : payload.nesting ≤ durableMaxNesting) (kind : String) :
    decodePayload codec payload (codec.digest payload) kind = .ok payload := by
  unfold decodePayload
  simp only [seq_eq_ok_iff, refuseIf_eq_ok_iff, ne_eq, not_true_eq_false,
    not_false_eq_true, hobject, Bool.true_eq_false, not_lt, hnesting, true_and]
  rfl

theorem decodeContract_encoded {α : Type} {payload : Json} {value : α} (kind : String)
    {rebuild : Json → Except PyError α} (hobject : payload.isObj = true)
    (hnesting : payload.nesting ≤ durableMaxNesting) (hvalue : rebuild payload = .ok value) :
    decodeContract codec payload (codec.digest payload) kind rebuild = .ok value := by
  unfold decodeContract
  rw [decodePayload_encoded hobject hnesting, bind_eq_ok_iff]
  refine ⟨payload, rfl, ?_⟩
  rw [hvalue]
  rfl

variable {record : ControlPlaneOperationRecord}

theorem recordPayload_isObj {payload : Json}
    (h : recordPayload codec record = .ok payload) : payload.isObj = true := by
  unfold recordPayload at h
  simp only [bind_eq_ok_iff] at h
  obtain ⟨_, _, _, _, h⟩ := h
  cases h
  rfl

theorem PortableRecord.readsBack
    (h : PortableRecord codec record) : ReadsBack codec record record := by
  obtain ⟨payload, hpayload, _, hrestores⟩ := h
  exact ⟨⟨payload, hpayload, hrestores⟩, rfl⟩

theorem operationId_of_withoutDiagnostics {a b : ControlPlaneOperationRecord}
    (h : a.withoutDiagnostics = b.withoutDiagnostics) :
    a.receipt.operationId = b.receipt.operationId := by
  have hid := congrArg ControlPlaneOperationRecord.operationId h
  exact hid

theorem columns_of_withoutDiagnostics {a b : ControlPlaneOperationRecord}
    (h : a.withoutDiagnostics = b.withoutDiagnostics) :
    localOperationClaimColumns a = localOperationClaimColumns b := by
  have hcolumns := congrArg localOperationClaimColumns h
  exact hcolumns

theorem operationFromRow_operationRow {written read : ControlPlaneOperationRecord}
    {row : OperationRow} (h : ReadsBack codec written read)
    (hrow : operationRow codec written = .ok row) :
    operationFromRow codec written.receipt.operationId row = .ok read := by
  obtain ⟨payload, hpayload, hrestores⟩ := h.restores
  unfold operationRow at hrow
  simp only [bind_eq_ok_iff, encodePayload_ok_iff] at hrow
  obtain ⟨payload', hpayload', encoded, ⟨hnesting, rfl⟩, hrow⟩ := hrow
  cases hpayload.symm.trans hpayload'
  cases hrow
  unfold operationFromRow
  rw [bind_eq_ok_iff]
  refine ⟨read, decodeContract_encoded _ (recordPayload_isObj hpayload) hnesting hrestores, ?_⟩
  simp only [seq_eq_ok_iff, refuseIf_eq_ok_iff, not_not]
  exact ⟨operationId_of_withoutDiagnostics h.same, columns_of_withoutDiagnostics h.same, rfl⟩

theorem operationFromRow_ok {operationId : String} {row : OperationRow}
    (h : operationFromRow codec operationId row = .ok record) :
    record.receipt.operationId = operationId ∧ localOperationClaimColumns record = row.columns := by
  unfold operationFromRow at h
  rw [bind_eq_ok_iff] at h
  obtain ⟨_, _, h⟩ := h
  simp only [seq_eq_ok_iff, refuseIf_eq_ok_iff, not_not] at h
  obtain ⟨hid, hcolumns, h⟩ := h
  cases h
  exact ⟨hid, hcolumns⟩

namespace LocalStore

variable {s t : LocalStore} {records : Dict String ControlPlaneOperationRecord}

/-- A load of the operation table reads these records. -/
def Holds (codec : DurableCodec) (s : LocalStore)
    (records : Dict String ControlPlaneOperationRecord) : Prop :=
  Dict.Related (fun id row record => operationFromRow codec id row = .ok record)
    s.operations records

theorem holds_init : Holds codec init Dict.empty := Dict.related_empty

theorem Holds.loadRecord (h : Holds codec s records) (operationId : String) :
    loadRecord codec s operationId = .ok (records.get? operationId) := by
  unfold LocalStore.loadRecord
  rcases Dict.Related.get? h operationId with ⟨hrow, hrecord⟩ | ⟨row, record, hrow, hrecord, hread⟩
  · rw [hrow, hrecord]
  · rw [hrow, hrecord]
    show some <$> operationFromRow codec operationId row = _
    rw [hread]
    rfl

theorem Holds.ids (h : Holds codec s records) (id : String) (record : ControlPlaneOperationRecord)
    (hrecord : records.get? id = some record) : record.receipt.operationId = id := by
  rcases Dict.Related.get? h id with ⟨_, hnone⟩ | ⟨row, other, _, hother, hread⟩
  · rw [hrecord] at hnone
    cases hnone
  · rw [hrecord] at hother
    cases hother
    exact (operationFromRow_ok hread).1

theorem decodeRows_eq {rows : List (String × OperationRow)}
    {entries : List (String × ControlPlaneOperationRecord)}
    (h : List.Forall₂ (Dict.RelatedEntries fun id row record =>
      operationFromRow codec id row = .ok record) rows entries) :
    decodeRows codec rows = .ok (entries.map Prod.snd) := by
  unfold decodeRows
  induction h with
  | nil => rfl
  | cons hhead htail ih =>
    rw [List.mapM_cons, ih, hhead.2]
    rfl

theorem Holds.orderedRows (h : Holds codec s records) :
    ∃ loaded, decodeRows codec s.orderedRows = .ok loaded ∧ loaded.Perm records.values := by
  have hsorted : s.orderedRows.Perm s.operations.entries := List.perm_insertionSort _ _
  obtain ⟨entries, hrelated, hperm⟩ := List.perm_comp_forall₂ hsorted h
  exact ⟨entries.map Prod.snd, decodeRows_eq hrelated, hperm.map _⟩

theorem Holds.distinctIds (h : Holds codec s records) : DistinctIds records.values := by
  have hids : records.values.map ControlPlaneOperationRecord.operationId = records.keys := by
    unfold Dict.values Dict.keys
    rw [List.map_map]
    refine List.map_congr_left fun entry hentry => ?_
    exact h.ids entry.1 entry.2 (Dict.get?_eq_some_iff.2 hentry)
  unfold DistinctIds
  rw [hids]
  exact records.keys_nodup

theorem loadRecords_ok_iff (rules : ContractRules) (codec : DurableCodec) (s : LocalStore)
    (loaded : List ControlPlaneOperationRecord) :
    loadRecords rules codec s = .ok loaded ↔
      decodeRows codec s.orderedRows = .ok loaded ∧ ClaimHistory rules loaded := by
  unfold loadRecords requireStoredInjectHistory
  rw [bind_eq_ok_iff]
  simp only [seq_eq_ok_iff, requireClaimHistory_ok_iff]
  constructor
  · intro h
    obtain ⟨records, hrows, hhistory, hloaded⟩ := h
    cases hloaded
    exact ⟨hrows, hhistory⟩
  · intro h
    exact ⟨loaded, h.1, h.2, rfl⟩

theorem Holds.loadRecords (h : Holds codec s records)
    (hhistory : ClaimHistory rules records.values) :
    ∃ loaded, loadRecords rules codec s = .ok loaded ∧ loaded.Perm records.values := by
  obtain ⟨loaded, hrows, hperm⟩ := h.orderedRows
  refine ⟨loaded, ?_, hperm⟩
  rw [loadRecords_ok_iff]
  exact ⟨hrows, hhistory.perm hperm.symm h.distinctIds⟩

theorem Holds.set (h : Holds codec s records) {written read : ControlPlaneOperationRecord}
    {row : OperationRow} (hreads : ReadsBack codec written read)
    (hrow : operationRow codec written = .ok row) :
    Holds codec { s with operations := s.operations.set written.receipt.operationId row }
      (records.set written.receipt.operationId read) :=
  Dict.Related.set h (operationFromRow_operationRow hreads hrow)

/-! ## Steps of a transaction -/

/-- The inject check that an upsert makes passes: a record without an occurrence
is not checked. -/
def InjectChecked (rules : ContractRules) (codec : DurableCodec) (s : LocalStore)
    (record : ControlPlaneOperationRecord) : Prop :=
  record.injectOccurrence.isSome = true → ∃ loaded, loadRecords rules codec s = .ok loaded ∧
    requireInjectClaim rules record loaded ((s.snapshot.map SnapshotRow.revision).getD 0) = .ok ()

def upserted (s : LocalStore) (record : ControlPlaneOperationRecord) (row : OperationRow) :
    LocalStore :=
  { s with operations := s.operations.set record.receipt.operationId row }

def audited (s : LocalStore) (row : Json × String) : LocalStore :=
  { s with audit := s.audit ++ [row] }

def withSnapshot (s : LocalStore) (row : SnapshotRow) : LocalStore :=
  { s with snapshot := some row }

structure SnapshotCommit (rules : ContractRules) (codec : DurableCodec) (s : LocalStore)
    (snapshot : RuntimeSnapshot) (revision : ℤ) (row : SnapshotRow) (answer : SnapshotState) :
    Prop where
  valid : requireSnapshotRevision revision = .ok revision
  current : ∃ current, loadSnapshotState rules codec s = .ok current ∧ current.revision = revision
  next : nextSnapshotRevision revision = .ok row.revision
  written : ∃ canonical, codec.canonicalSnapshot snapshot = .ok canonical ∧
    codec.persistSnapshot (s.snapshot.map SnapshotRow.rows) canonical = .ok row.rows
  answered : loadSnapshotState rules codec (s.withSnapshot row) = .ok answer

section Steps

variable {α : Type} (f : Unit → LocalM α) (answer : α)

theorem exec_requireInjectClaimRow_bind_ok_iff (record : ControlPlaneOperationRecord) :
    exec (requireInjectClaimRow rules codec record >>= f) s = (.ok answer, t) ↔
      InjectChecked rules codec s record ∧ exec (f ()) s = (.ok answer, t) := by
  unfold requireInjectClaimRow InjectChecked
  cases record.injectOccurrence with
  | none =>
    rw [if_neg (by decide)]
    simp
  | some occurrence =>
    rw [if_pos Option.isSome_some, bind_assoc, exec_get_bind, bind_assoc, exec_lift_bind_ok_iff]
    simp only [exec_check_bind_ok_iff, Option.isSome_some, true_implies]
    constructor
    · intro h
      obtain ⟨loaded, hloaded, hclaim, h⟩ := h
      exact ⟨⟨loaded, hloaded, hclaim⟩, h⟩
    · intro h
      obtain ⟨⟨loaded, hloaded, hclaim⟩, h⟩ := h
      exact ⟨loaded, hloaded, hclaim, h⟩

theorem exec_upsertRecord_bind_ok_iff (record : ControlPlaneOperationRecord) :
    exec (upsertRecord rules codec record >>= f) s = (.ok answer, t) ↔
      InjectChecked rules codec s record ∧ requireFreeClaim s record = .ok () ∧
        ∃ row, operationRow codec record = .ok row ∧
          exec (f ()) (s.upserted record row) = (.ok answer, t) := by
  unfold upsertRecord
  rw [bind_assoc, exec_requireInjectClaimRow_bind_ok_iff, bind_assoc, exec_get_bind, bind_assoc,
    exec_check_bind_ok_iff, bind_assoc, exec_lift_bind_ok_iff]
  simp only [exec_modify_bind]
  rfl

theorem exec_insertAudit_bind_ok_iff (event : AuditEvent) :
    exec (insertAudit codec event >>= f) s = (.ok answer, t) ↔
      ∃ row, encodePayload codec (auditPayload event) = .ok row ∧
        exec (f ()) (s.audited row) = (.ok answer, t) := by
  unfold insertAudit
  rw [bind_assoc, exec_lift_bind_ok_iff]
  simp only [exec_modify_bind]
  rfl

theorem requireSnapshotRevision_eq {revision current : ℤ}
    (h : requireSnapshotRevision revision = .ok current) : current = revision := by
  unfold requireSnapshotRevision at h
  rw [seq_eq_ok_iff] at h
  cases h.2
  rfl

theorem exec_requireExpectedRevision_bind_ok_iff (revision : ℤ) (g : SnapshotState → LocalM α) :
    exec (requireExpectedRevision rules codec revision >>= g) s = (.ok answer, t) ↔
      requireSnapshotRevision revision = .ok revision ∧
        ∃ current, loadSnapshotState rules codec s = .ok current ∧ current.revision = revision ∧
          exec (g current) s = (.ok answer, t) := by
  unfold requireExpectedRevision
  simp only [bind_assoc, exec_lift_bind_ok_iff, exec_get_bind]
  constructor
  · intro h
    obtain ⟨valid, hvalid, current, hcurrent, h⟩ := h
    rw [requireSnapshotRevision_eq hvalid] at hvalid
    refine ⟨hvalid, current, hcurrent, ?_⟩
    split at h
    · change (Except.error snapshotRevisionConflict, s) = _ at h
      cases (Prod.mk.inj h).1
    case isFalse hrevision =>
      rw [not_not] at hrevision
      exact ⟨hrevision, h⟩
  · intro h
    obtain ⟨hvalid, current, hcurrent, hrevision, h⟩ := h
    refine ⟨revision, hvalid, current, hcurrent, ?_⟩
    rw [if_neg (not_not_intro hrevision)]
    exact h

theorem exec_commitSnapshot_bind_ok_iff (snapshot : RuntimeSnapshot) (revision : ℤ)
    (g : SnapshotState → LocalM α) :
    exec (commitSnapshot rules codec snapshot revision >>= g) s = (.ok answer, t) ↔
      ∃ row committed, SnapshotCommit rules codec s snapshot revision row committed ∧
        exec (g committed) (s.withSnapshot row) = (.ok answer, t) := by
  unfold commitSnapshot
  rw [bind_assoc, exec_requireExpectedRevision_bind_ok_iff]
  simp only [bind_assoc, exec_lift_bind_ok_iff, exec_get_bind, exec_modify_bind]
  constructor
  · intro h
    obtain ⟨hvalid, current, hcurrent, hrevision, next, hnext, canonical, hcanonical, rows, hrows,
      committed, hcommitted, h⟩ := h
    exact ⟨⟨rows, next⟩, committed, ⟨hvalid, ⟨current, hcurrent, hrevision⟩, hnext,
      ⟨canonical, hcanonical, hrows⟩, hcommitted⟩, h⟩
  · intro h
    obtain ⟨row, committed, hcommit, h⟩ := h
    obtain ⟨current, hcurrent, hrevision⟩ := hcommit.current
    obtain ⟨canonical, hcanonical, hrows⟩ := hcommit.written
    exact ⟨hcommit.valid, current, hcurrent, hrevision, row.revision, hcommit.next, canonical,
      hcanonical, row.rows, hrows, committed, hcommit.answered, h⟩

end Steps

/-! ## Accepted operations -/

structure Upserts (rules : ContractRules) (codec : DurableCodec) (s : LocalStore)
    (record : ControlPlaneOperationRecord) (row : OperationRow) : Prop where
  checked : InjectChecked rules codec s record
  free : requireFreeClaim s record = .ok ()
  written : operationRow codec record = .ok row

theorem claimRecord_ok_iff (record answer : ControlPlaneOperationRecord) (legacy : String)
    (blocked : Option NewClaimBlock) :
    exec (claimRecord rules codec record legacy blocked) s = (.ok answer, t) ↔
      requireIdempotencyKey record.idempotencyKey = .ok () ∧
      ((incumbent codec s record = .ok (some answer) ∧
          requireSameIdempotencyReplay answer record legacy = .ok () ∧ t = s) ∨
        (incumbent codec s record = .ok none ∧ blocked = none ∧
          InjectChecked rules codec s record ∧ requireClaimAdmitted rules codec s record = .ok () ∧
          ∃ existing, loadRecord codec s record.receipt.operationId = .ok existing ∧
            ((requireOperationRecordTransition rules existing record = .ok false ∧
                answer = existing.getD record ∧ t = s) ∨
              (requireOperationRecordTransition rules existing record = .ok true ∧
                answer = record ∧
                ∃ row, Upserts rules codec s record row ∧ t = s.upserted record row)))) := by
  unfold claimRecord
  rw [exec_transaction_ok_iff, exec_check_bind_ok_iff, exec_get_bind, exec_lift_bind_ok_iff]
  refine and_congr_right fun _ => ?_
  cases hincumbent : incumbent codec s record with
  | error e => simp
  | ok found =>
    simp only [Except.ok.injEq, exists_eq_left']
    cases found with
    | some existing =>
      rw [exec_check_bind_ok_iff, exec_pure_ok_iff]
      constructor
      · intro h
        obtain ⟨hreplay, rfl, rfl⟩ := h
        exact Or.inl ⟨rfl, hreplay, rfl⟩
      · intro h
        rcases h with ⟨heq, hreplay, ht⟩ | ⟨hnone, _⟩
        · cases heq
          exact ⟨hreplay, rfl, ht⟩
        · cases hnone
    | none =>
      cases blocked with
      | some block => simp
      | none =>
        simp only [reduceCtorEq, false_and, false_or, true_and]
        rw [exec_requireInjectClaimRow_bind_ok_iff, exec_get_bind, exec_check_bind_ok_iff,
          exec_get_bind, exec_lift_bind_ok_iff]
        simp only [exec_lift_bind_ok_iff]
        refine and_congr_right fun _ => and_congr_right fun _ => exists_congr fun existing =>
          and_congr_right fun _ => ?_
        cases htransition : requireOperationRecordTransition rules existing record with
        | error e => simp
        | ok changed =>
          cases changed with
          | false =>
            simp only [Except.ok.injEq, exists_eq_left', Bool.false_eq_true, if_false, false_and,
              or_false, true_and, exec_pure_ok_iff]
          | true =>
            simp only [Except.ok.injEq, exists_eq_left', if_true, Bool.true_eq_false, false_and,
              false_or, true_and, exec_upsertRecord_bind_ok_iff, exec_pure_ok_iff]
            constructor
            · intro h
              obtain ⟨hchecked, hfree, row, hrow, rfl, rfl⟩ := h
              exact ⟨rfl, row, ⟨hchecked, hfree, hrow⟩, rfl⟩
            · intro h
              obtain ⟨rfl, row, hupserts, rfl⟩ := h
              exact ⟨hupserts.checked, hupserts.free, row, hupserts.written, rfl, rfl⟩

theorem saveRecord_ok_iff (record : ControlPlaneOperationRecord) :
    exec (saveRecord rules codec record) s = (.ok (), t) ↔
      ∃ existing, loadRecord codec s record.receipt.operationId = .ok existing ∧
        ((requireOperationRecordTransition rules existing record = .ok false ∧ t = s) ∨
          (requireOperationRecordTransition rules existing record = .ok true ∧
            ∃ row, Upserts rules codec s record row ∧ t = s.upserted record row)) := by
  unfold saveRecord
  rw [exec_transaction_ok_iff, exec_get_bind, exec_lift_bind_ok_iff]
  simp only [exec_lift_bind_ok_iff]
  refine exists_congr fun existing => and_congr_right fun _ => ?_
  cases htransition : requireOperationRecordTransition rules existing record with
  | error e => simp
  | ok changed =>
    cases changed with
    | false =>
      simp only [Except.ok.injEq, exists_eq_left', Bool.false_eq_true, if_false, false_and,
        or_false, true_and, exec_pure_ok_iff]
    | true =>
      have hbind : upsertRecord rules codec record =
          upsertRecord rules codec record >>= fun u => pure u := (bind_pure _).symm
      simp only [Except.ok.injEq, exists_eq_left', if_true, Bool.true_eq_false, false_and,
        false_or, true_and]
      rw [hbind, exec_upsertRecord_bind_ok_iff]
      simp only [exec_pure_ok_iff, true_and]
      constructor
      · intro h
        obtain ⟨hchecked, hfree, row, hrow, rfl⟩ := h
        exact ⟨row, ⟨hchecked, hfree, hrow⟩, rfl⟩
      · intro h
        obtain ⟨row, hupserts, rfl⟩ := h
        exact ⟨hupserts.checked, hupserts.free, row, hupserts.written, rfl⟩

theorem saveSnapshot_ok_iff (snapshot : RuntimeSnapshot) (revision : ℤ) (answer : SnapshotState) :
    exec (saveSnapshot rules codec snapshot revision) s = (.ok answer, t) ↔
      rules.autonomousSnapshot snapshot = .ok () ∧
        ∃ row, SnapshotCommit rules codec s snapshot revision row answer ∧
          t = s.withSnapshot row := by
  unfold saveSnapshot
  have hbind : commitSnapshot rules codec snapshot revision =
      commitSnapshot rules codec snapshot revision >>= fun u => pure u := (bind_pure _).symm
  rw [exec_transaction_ok_iff, exec_check_bind_ok_iff, hbind, exec_commitSnapshot_bind_ok_iff]
  simp only [exec_pure_ok_iff]
  refine and_congr_right fun _ => exists_congr fun row => ?_
  constructor
  · intro h
    obtain ⟨committed, hcommit, rfl, rfl⟩ := h
    exact ⟨hcommit, rfl⟩
  · intro h
    exact ⟨answer, h.1, rfl, h.2⟩

def Publishes (rules : ContractRules) (codec : DurableCodec) (s : LocalStore)
    (record : ControlPlaneOperationRecord) (event : AuditEvent) (t : LocalStore) : Prop :=
  ∃ row audit, Upserts rules codec s record row ∧
    encodePayload codec (auditPayload event) = .ok audit ∧
    t = (s.upserted record row).audited audit

theorem exec_publish_bind_ok_iff {α : Type} (record : ControlPlaneOperationRecord)
    (event : AuditEvent) (f : Unit → LocalM α) (answer : α) :
    exec (upsertRecord rules codec record >>= fun _ => insertAudit codec event >>= f) s =
        (.ok answer, t) ↔
      ∃ u, Publishes rules codec s record event u ∧ exec (f ()) u = (.ok answer, t) := by
  rw [exec_upsertRecord_bind_ok_iff]
  simp only [exec_insertAudit_bind_ok_iff]
  constructor
  · intro h
    obtain ⟨hchecked, hfree, row, hrow, audit, haudit, h⟩ := h
    exact ⟨_, ⟨row, audit, ⟨hchecked, hfree, hrow⟩, haudit, rfl⟩, h⟩
  · intro h
    obtain ⟨u, ⟨row, audit, hupserts, haudit, rfl⟩, h⟩ := h
    exact ⟨hupserts.checked, hupserts.free, row, hupserts.written, audit, haudit, h⟩

theorem commitParticipantTransition_ok_iff (heads : ObservedHeads) (revision : ℤ)
    (snapshot : RuntimeSnapshot) (record : ControlPlaneOperationRecord) (event : AuditEvent)
    (answer : SnapshotState) :
    exec (commitParticipantTransition rules codec heads revision snapshot record event) s =
        (.ok answer, t) ↔
      rules.autonomousSnapshot snapshot = .ok () ∧
      ∃ existing, loadRecord codec s record.receipt.operationId = .ok existing ∧
        ((storedEq existing record = true ∧ requireOperationAuditBinding record event = .ok () ∧
            exec (requireRetry rules codec snapshot record event .snapshotBearing revision
              "participant transition") s = (.ok answer, t)) ∨
          (storedEq existing record = false ∧
            (∃ current, loadSnapshotState rules codec s = .ok current ∧
              requireObservedHeads rules current.snapshot heads = .ok ()) ∧
            requireOperationRecordTransition rules existing record = .ok true ∧
            requireOperationAuditBinding record event = .ok () ∧
            ∃ row, SnapshotCommit rules codec s snapshot revision row answer ∧
              Publishes rules codec (s.withSnapshot row) record event t)) := by
  unfold commitParticipantTransition
  rw [exec_transaction_ok_iff, exec_check_bind_ok_iff, exec_get_bind, exec_lift_bind_ok_iff]
  refine and_congr_right fun _ => exists_congr fun existing => and_congr_right fun _ => ?_
  cases hretry : storedEq existing record with
  | true =>
    rw [if_pos rfl, exec_check_bind_ok_iff]
    simp
  | false =>
    rw [if_neg Bool.false_ne_true, exec_requireExpectedRevision_bind_ok_iff]
    simp only [exec_check_bind_ok_iff]
    simp only [exec_lift_bind_ok_iff, exec_commitSnapshot_bind_ok_iff, exec_publish_bind_ok_iff,
      exec_pure_ok_iff, Bool.false_eq_true, false_and, false_or, true_and]
    constructor
    · intro h
      obtain ⟨_, current, hcurrent, _, hheads, changed, htransition, _, haudit, row, committed,
        hcommit, _, hpublishes, rfl, rfl⟩ := h
      have hchanged : changed = true := by
        have hstored := storedEq_of_transition htransition
        rw [hretry] at hstored
        simpa using hstored.symm
      subst hchanged
      exact ⟨⟨current, hcurrent, hheads⟩, htransition, haudit, row, hcommit, hpublishes⟩
    · intro h
      obtain ⟨⟨current, hcurrent, hheads⟩, htransition, haudit, row, hcommit, hpublishes⟩ := h
      have hrevision : current.revision = revision := by
        obtain ⟨other, hother, hrevision⟩ := hcommit.current
        cases hcurrent.symm.trans hother
        exact hrevision
      exact ⟨hcommit.valid, current, hcurrent, hrevision, hheads, true, htransition, (), haudit,
        row, answer, hcommit, t, hpublishes, rfl, rfl⟩

theorem commitInvocationTransition_ok_iff (expected record : ControlPlaneOperationRecord)
    (event : AuditEvent) (answer : SnapshotState) :
    exec (commitInvocationTransition rules codec expected record event) s = (.ok answer, t) ↔
      requireSupervisionCut rules expected record event = .ok () ∧
      ∃ current, loadRecord codec s expected.receipt.operationId = .ok current ∧
      ∃ audits, auditsOfRepeated codec s current record = .ok audits ∧
        (((storedEq current record && audits.any fun item => item.pyEq event) = true ∧
            loadSnapshotState rules codec s = .ok answer ∧ t = s) ∨
          ((storedEq current record && audits.any fun item => item.pyEq event) = false ∧
            storedEq current expected = true ∧ Publishes rules codec s record event t ∧
            loadSnapshotState rules codec t = .ok answer)) := by
  unfold commitInvocationTransition
  rw [exec_transaction_ok_iff, exec_check_bind_ok_iff, exec_get_bind, exec_lift_bind_ok_iff]
  refine and_congr_right fun _ => exists_congr fun current => and_congr_right fun _ => ?_
  rw [exec_lift_bind_ok_iff]
  refine exists_congr fun audits => and_congr_right fun _ => ?_
  cases hretry : storedEq current record && audits.any fun item => item.pyEq event with
  | true =>
    rw [if_pos rfl, exec_lift_ok_iff]
    simp
  | false =>
    cases hcurrent : storedEq current expected with
    | false => simp
    | true =>
      simp only [Bool.false_eq_true, if_false, false_and, false_or, true_and, Bool.true_eq_false,
        exec_publish_bind_ok_iff, exec_get_bind, exec_lift_ok_iff]
      constructor
      · intro h
        obtain ⟨_, hpublishes, hstate, rfl⟩ := h
        exact ⟨hpublishes, hstate⟩
      · intro h
        exact ⟨t, h.1, h.2, rfl⟩

theorem commitTerminalOperation_ok_iff (snapshot : RuntimeSnapshot)
    (record : ControlPlaneOperationRecord) (given : Option AuditEvent) (mode : TerminalCommitMode)
    (revision : ℤ) (answer : SnapshotState) :
    exec (commitTerminalOperation rules codec snapshot record given mode revision) s =
        (.ok answer, t) ↔
      rules.autonomousSnapshot snapshot = .ok () ∧
      ∃ event, terminalEvent rules record given = .ok event ∧
      requireTerminalOperationAudit rules record event = .ok () ∧
      ∃ existing, loadRecord codec s record.receipt.operationId = .ok existing ∧
        ((requireTerminalOperationTransition rules existing record = .ok false ∧
            exec (requireRetry rules codec snapshot record event mode revision
              "terminal operation") s = (.ok answer, t)) ∨
          (requireTerminalOperationTransition rules existing record = .ok true ∧
            ((mode = .operationOnly ∧ requireSnapshotRevision revision = .ok revision ∧
                loadSnapshotState rules codec s = .ok answer ∧ answer.revision = revision ∧
                (∃ canonical, codec.canonicalSnapshot snapshot = .ok canonical ∧
                  answer.snapshot.pyEq canonical = true) ∧
                Publishes rules codec s record event t) ∨
              (mode = .snapshotBearing ∧
                ∃ row, SnapshotCommit rules codec s snapshot revision row answer ∧
                  Publishes rules codec (s.withSnapshot row) record event t)))) := by
  unfold commitTerminalOperation
  rw [exec_transaction_ok_iff, exec_check_bind_ok_iff, exec_lift_bind_ok_iff]
  refine and_congr_right fun _ => exists_congr fun event => and_congr_right fun _ => ?_
  rw [exec_check_bind_ok_iff, exec_get_bind, exec_lift_bind_ok_iff]
  simp only [exec_lift_bind_ok_iff]
  refine and_congr_right fun _ => exists_congr fun existing => and_congr_right fun _ => ?_
  cases htransition : requireTerminalOperationTransition rules existing record with
  | error e => simp
  | ok changed =>
    cases changed with
    | false => simp
    | true =>
      simp only [Except.ok.injEq, exists_eq_left', Bool.true_eq_false, if_false, false_and,
        false_or, true_and, exec_requireExpectedRevision_bind_ok_iff]
      cases mode with
      | operationOnly =>
        simp only [terminalSnapshot, bind_assoc, exec_lift_bind_ok_iff, refuseIf_eq_ok_iff,
          Bool.not_eq_false, pure_bind, exec_publish_bind_ok_iff, exec_pure_ok_iff, true_and,
          reduceCtorEq, false_and, or_false]
        constructor
        · intro h
          obtain ⟨hvalid, current, hcurrent, hrevision, canonical, hcanonical, _, heq, _,
            hpublishes, rfl, rfl⟩ := h
          exact ⟨hvalid, hcurrent, hrevision, ⟨canonical, hcanonical, heq⟩, hpublishes⟩
        · intro h
          obtain ⟨hvalid, hcurrent, hrevision, ⟨canonical, hcanonical, heq⟩, hpublishes⟩ := h
          exact ⟨hvalid, answer, hcurrent, hrevision, canonical, hcanonical, (), heq, t,
            hpublishes, rfl, rfl⟩
      | snapshotBearing =>
        simp only [terminalSnapshot, exec_commitSnapshot_bind_ok_iff, exec_publish_bind_ok_iff,
          exec_pure_ok_iff, true_and, reduceCtorEq, false_and, false_or]
        constructor
        · intro h
          obtain ⟨_, _, _, _, row, committed, hcommit, _, hpublishes, rfl, rfl⟩ := h
          exact ⟨row, hcommit, hpublishes⟩
        · intro h
          obtain ⟨row, hcommit, hpublishes⟩ := h
          obtain ⟨current, hcurrent, hrevision⟩ := hcommit.current
          exact ⟨hcommit.valid, current, hcurrent, hrevision, row, answer, hcommit, t, hpublishes,
            rfl, rfl⟩

theorem appendAudit_ok_iff (event : AuditEvent) :
    exec (appendAudit codec event) s = (.ok (), t) ↔
      ∃ row, encodePayload codec (auditPayload event) = .ok row ∧ t = s.audited row := by
  unfold appendAudit
  have hbind : insertAudit codec event = insertAudit codec event >>= fun u => pure u :=
    (bind_pure _).symm
  rw [exec_transaction_ok_iff, hbind, exec_insertAudit_bind_ok_iff]
  simp only [exec_pure_ok_iff, true_and]

theorem stopEffectAdmission_ok_iff (event : AuditEvent) :
    exec (stopEffectAdmission codec event) s = (.ok (), t) ↔
      (s.effectAdmissionStopped = true ∧ t = s) ∨
        (s.effectAdmissionStopped = false ∧
          ∃ row, encodePayload codec (auditPayload event) = .ok row ∧
            t = { s with effectAdmissionStopped := true, audit := s.audit ++ [row] }) := by
  unfold stopEffectAdmission
  rw [exec_transaction_ok_iff, exec_get_bind]
  cases hstopped : s.effectAdmissionStopped with
  | true =>
    rw [if_neg (by decide), exec_pure_ok_iff]
    simp
  | false =>
    have hbind : insertAudit codec event = insertAudit codec event >>= fun u => pure u :=
      (bind_pure _).symm
    rw [if_pos rfl, exec_modify_bind, hbind, exec_insertAudit_bind_ok_iff]
    simp only [exec_pure_ok_iff, true_and, Bool.false_eq_true, false_and, false_or]
    rfl

theorem perform_atomic (op : StoreOp) : Atomic (perform rules codec op) := by
  cases op with
  | claimRecord record legacy blocked => exact (transaction_atomic _).map _
  | saveRecord record => exact (transaction_atomic _).map _
  | saveSnapshot snapshot revision => exact (transaction_atomic _).map _
  | commitParticipantTransition heads revision snapshot record event =>
    exact (transaction_atomic _).map _
  | commitInvocationTransition expected record event => exact (transaction_atomic _).map _
  | commitTerminalOperation snapshot record event mode revision =>
    exact (transaction_atomic _).map _
  | appendAudit event => exact (transaction_atomic _).map _
  | stopEffectAdmission event => exact (transaction_atomic _).map _

theorem step_of_refused {op : StoreOp} (h : ¬ Accepts rules codec s op) :
    step rules codec s op = s := by
  unfold Accepts at h
  unfold step
  cases hexec : exec (perform rules codec op) s with
  | mk r t =>
    cases r with
    | error e => exact perform_atomic op s e t hexec
    | ok answer =>
      rw [hexec] at h
      exact absurd ⟨answer, rfl⟩ h

end LocalStore
end Raes.Store
