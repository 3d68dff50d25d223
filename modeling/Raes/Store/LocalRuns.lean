import Raes.Store.ClaimHistory
import Raes.Store.LocalEffects
import Raes.Store.MemoryRuns

/-!
# Runs of the local store

When a run of the local store leaves records that every later load accepts.  An
upsert checks the deliveries of a record only when the record has an occurrence,
so a load can refuse what an operation accepted.
-/

namespace Raes.Store

open PyError Stateful

variable {rules : ContractRules} {codec : DurableCodec}

/-! ## What is read back of a record -/

theorem keepsClaims_of_withoutDiagnostics {a b : ControlPlaneOperationRecord}
    (h : b.withoutDiagnostics = a.withoutDiagnostics) : KeepsClaims a b where
  operationId := operationId_of_withoutDiagnostics h
  context := by
    have hcontext := congrArg (fun r : ControlPlaneOperationRecord => r.receipt.context) h
    exact hcontext
  occurrence := by
    have hoccurrence := congrArg ControlPlaneOperationRecord.injectOccurrence h
    exact hoccurrence
  delivery := by
    have hdelivery := congrArg ControlPlaneOperationRecord.injectDelivery h
    exact hdelivery
  outcome := by
    have houtcome := congrArg ControlPlaneOperationRecord.injectOutcome h
    intro outcome ha
    exact houtcome.trans ha
  invocation := by
    have hinvocation := congrArg ControlPlaneOperationRecord.invocation h
    intro ledger ha
    exact ⟨ledger, hinvocation.trans ha, rfl⟩

theorem acceptsControl_of_withoutDiagnostics {a b : ControlPlaneOperationRecord}
    (h : b.withoutDiagnostics = a.withoutDiagnostics) (eventId : String) :
    acceptsControl eventId b = acceptsControl eventId a := by
  have haccepts := congrArg (acceptsControl eventId) h
  exact haccepts

/-! ## What a replacement keeps -/

theorem Replaces.keepsClaims {existing record : ControlPlaneOperationRecord}
    (h : Replaces rules (some existing) record) : KeepsClaims existing record := by
  cases h with
  | transition same _ => exact keepsClaims_of_sameIdentity same
  | supervise current cut =>
    obtain ⟨hid, _, hinvocation⟩ := sameIdentity_of_pyEq current
    have heq := eq_of_pyEq current
    have houtcome := congrArg ControlPlaneOperationRecord.injectOutcome heq
    have hfirst : KeepsClaims existing _ :=
      ⟨congrArg OperationReceipt.operationId hid.receipt.symm,
        congrArg OperationReceipt.context hid.receipt.symm, hid.occurrence.symm,
        hid.delivery.symm, fun outcome ha => houtcome.symm.trans ha,
        fun ledger ha => ⟨ledger, hinvocation.symm.trans ha, rfl⟩⟩
    exact hfirst.trans (keepsClaims_of_sameIdentity (requireSupervisionCut_ok cut).1)

namespace LocalStore

variable {s t : LocalStore} {records : Dict String ControlPlaneOperationRecord}

def carried : StoreOp → Option ControlPlaneOperationRecord
  | .claimRecord record _ _ => some record
  | .saveRecord record => some record
  | .saveSnapshot _ _ => none
  | .commitParticipantTransition _ _ _ record _ => some record
  | .commitInvocationTransition _ record _ => some record
  | .commitTerminalOperation _ record _ _ _ => some record
  | .appendAudit _ => none
  | .stopEffectAdmission _ => none

/-- How an accepted operation writes the operation table: not at all, or by one
upsert of the record that it carries. -/
inductive RecordWrite (rules : ContractRules) (codec : DurableCodec) (s : LocalStore)
    (op : StoreOp) (t : LocalStore) : Prop
  | unchanged (operations : t.operations = s.operations)
  | upserted (record : ControlPlaneOperationRecord) (row : OperationRow)
      (existing : Option ControlPlaneOperationRecord) (carried : carried op = some record)
      (loaded : loadRecord codec s record.receipt.operationId = .ok existing)
      (replaces : Replaces rules existing record)
      (origin : requireOperationRecordTransition rules existing record = .ok true ∨
        ∃ expected event, op = .commitInvocationTransition expected record event)
      (checked : record.injectOccurrence.isSome = true →
        ∃ revision loaded, loadRecords rules codec s = .ok loaded ∧
          requireInjectClaim rules record loaded revision = .ok ())
      (row_eq : operationRow codec record = .ok row)
      (operations : t.operations = s.operations.set record.receipt.operationId row)

variable {record : ControlPlaneOperationRecord}

theorem Upserts.recordWrite {u : LocalStore} {row : OperationRow}
    {existing : Option ControlPlaneOperationRecord} {op : StoreOp}
    (h : Upserts rules codec u record row) (hoperations : u.operations = s.operations)
    (hcarried : carried op = some record)
    (hloaded : loadRecord codec s record.receipt.operationId = .ok existing)
    (hreplaces : Replaces rules existing record)
    (horigin : requireOperationRecordTransition rules existing record = .ok true ∨
      ∃ expected event, op = .commitInvocationTransition expected record event)
    (ht : t.operations = (u.upserted record row).operations) : RecordWrite rules codec s op t := by
  refine .upserted record row existing hcarried hloaded hreplaces horigin ?_ h.written ?_
  · intro hoccurrence
    obtain ⟨loaded, hload, hclaim⟩ := h.checked hoccurrence
    refine ⟨(u.snapshot.map SnapshotRow.revision).getD 0, loaded, ?_, hclaim⟩
    rw [← hload]
    unfold loadRecords orderedRows
    rw [hoperations]
  · rw [ht, ← hoperations]
    rfl

theorem Publishes.recordWrite {u : LocalStore} {record : ControlPlaneOperationRecord}
    {event : AuditEvent} {existing : Option ControlPlaneOperationRecord} {op : StoreOp}
    (h : Publishes rules codec u record event t) (hoperations : u.operations = s.operations)
    (hcarried : carried op = some record)
    (hloaded : loadRecord codec s record.receipt.operationId = .ok existing)
    (hreplaces : Replaces rules existing record)
    (horigin : requireOperationRecordTransition rules existing record = .ok true ∨
      ∃ expected event, op = .commitInvocationTransition expected record event) :
    RecordWrite rules codec s op t := by
  obtain ⟨row, audit, hupserts, _, rfl⟩ := h
  exact hupserts.recordWrite hoperations hcarried hloaded hreplaces horigin rfl

theorem requireRetry_readOnly (rules : ContractRules) (codec : DurableCodec)
    (snapshot : RuntimeSnapshot) (record : ControlPlaneOperationRecord) (event : AuditEvent)
    (mode : TerminalCommitMode) (revision : ℤ) (label : String) :
    ReadOnly (requireRetry rules codec snapshot record event mode revision label) := by
  unfold requireRetry
  exact (readOnly_lift _).bind fun _ => readOnly_get.bind fun _ => (readOnly_lift _).bind fun _ =>
    (readOnly_lift _).bind fun _ => (readOnly_lift _).bind fun _ => (readOnly_lift _).bind fun _ =>
    (readOnly_lift _).bind fun _ => readOnly_pure _

theorem requireRetry_state {snapshot : RuntimeSnapshot} {event : AuditEvent}
    {mode : TerminalCommitMode} {revision : ℤ} {label : String} {answer : SnapshotState}
    (h : exec (requireRetry rules codec snapshot record event mode revision label) s =
      (.ok answer, t)) : t = s := by
  have hread := requireRetry_readOnly rules codec snapshot record event mode revision label s
  rw [h] at hread
  exact hread

theorem accepted_recordWrite {op : StoreOp} (h : Accepts rules codec s op) :
    RecordWrite rules codec s op (step rules codec s op) := by
  obtain ⟨answer, hanswer⟩ := h
  have hexec : exec (perform rules codec op) s = (.ok answer, step rules codec s op) := by
    rw [← hanswer]
    rfl
  revert hexec
  generalize step rules codec s op = t
  intro hexec
  cases op with
  | claimRecord record legacy blocked =>
    obtain ⟨stored, hexec, _⟩ := exec_map_ok_iff.1 hexec
    obtain ⟨_, ⟨_, _, rfl⟩ | ⟨_, _, _, _, existing, hloaded, ⟨_, _, rfl⟩ |
      ⟨htransition, _, row, hupserts, rfl⟩⟩⟩ :=
      (claimRecord_ok_iff record stored legacy blocked).1 hexec
    · exact .unchanged rfl
    · exact .unchanged rfl
    · exact hupserts.recordWrite rfl rfl hloaded (replaces_of_transition htransition)
        (Or.inl htransition) rfl
  | saveRecord record =>
    obtain ⟨_, hexec, _⟩ := exec_map_ok_iff.1 hexec
    obtain ⟨existing, hloaded, ⟨_, rfl⟩ | ⟨htransition, row, hupserts, rfl⟩⟩ :=
      (saveRecord_ok_iff record).1 hexec
    · exact .unchanged rfl
    · exact hupserts.recordWrite rfl rfl hloaded (replaces_of_transition htransition)
        (Or.inl htransition) rfl
  | saveSnapshot snapshot revision =>
    obtain ⟨committed, hexec, _⟩ := exec_map_ok_iff.1 hexec
    obtain ⟨_, row, _, rfl⟩ := (saveSnapshot_ok_iff snapshot revision committed).1 hexec
    exact .unchanged rfl
  | commitParticipantTransition heads revision snapshot record event =>
    obtain ⟨committed, hexec, _⟩ := exec_map_ok_iff.1 hexec
    obtain ⟨_, existing, hloaded, ⟨_, _, hretry⟩ | ⟨_, _, htransition, _, row, _, hpublishes⟩⟩ :=
      (commitParticipantTransition_ok_iff heads revision snapshot record event committed).1 hexec
    · rw [requireRetry_state hretry]
      exact .unchanged rfl
    · exact hpublishes.recordWrite rfl rfl hloaded (replaces_of_transition htransition)
        (Or.inl htransition)
  | commitInvocationTransition expected record event =>
    obtain ⟨committed, hexec, _⟩ := exec_map_ok_iff.1 hexec
    obtain ⟨hcut, current, hloaded, audits, _, ⟨_, _, rfl⟩ | ⟨_, hcurrent, hpublishes, _⟩⟩ :=
      (commitInvocationTransition_ok_iff expected record event committed).1 hexec
    · exact .unchanged rfl
    · have hsame := (requireSameOperationIdentity_ok (requireSupervisionCut_ok hcut).1).2.2.2.2
      rw [hsame.receipt] at hloaded
      cases current with
      | none => cases hcurrent
      | some existing =>
        exact hpublishes.recordWrite rfl rfl hloaded (.supervise hcurrent hcut)
          (Or.inr ⟨expected, event, rfl⟩)
  | commitTerminalOperation snapshot record event mode revision =>
    obtain ⟨committed, hexec, _⟩ := exec_map_ok_iff.1 hexec
    obtain ⟨_, _, _, _, existing, hloaded, ⟨_, hretry⟩ | ⟨htransition, hcommit⟩⟩ :=
      (commitTerminalOperation_ok_iff snapshot record event mode revision committed).1 hexec
    · rw [requireRetry_state hretry]
      exact .unchanged rfl
    · have hmoved := (requireTerminalOperationTransition_ok htransition).2
      rcases hcommit with ⟨_, _, _, _, _, hpublishes⟩ | ⟨_, row, _, hpublishes⟩
      · exact hpublishes.recordWrite rfl rfl hloaded (replaces_of_transition hmoved) (Or.inl hmoved)
      · exact hpublishes.recordWrite rfl rfl hloaded (replaces_of_transition hmoved) (Or.inl hmoved)
  | appendAudit event =>
    obtain ⟨_, hexec, _⟩ := exec_map_ok_iff.1 hexec
    obtain ⟨row, _, rfl⟩ := (appendAudit_ok_iff event).1 hexec
    exact .unchanged rfl
  | stopEffectAdmission event =>
    obtain ⟨_, hexec, _⟩ := exec_map_ok_iff.1 hexec
    rcases (stopEffectAdmission_ok_iff event).1 hexec with ⟨_, rfl⟩ | ⟨_, row, _, rfl⟩
    · exact .unchanged rfl
    · exact .unchanged rfl

/-! ## What a run keeps -/

def Replays (rules : ContractRules) (codec : DurableCodec) (s : LocalStore) : Prop :=
  ∃ records, Holds codec s records ∧ ClaimHistory rules records.values

def placed (record : ControlPlaneOperationRecord) (loaded : List ControlPlaneOperationRecord) :
    List ControlPlaneOperationRecord :=
  loaded.map fun item => if item.operationId = record.operationId then record else item

/-- An operation writes only what a load accepts: the codec reads the record
back; a new record without an occurrence passes the delivery check over the
stored records; and a supervision cut leaves every control event that a stored
delivery names produced. -/
structure Reloadable (rules : ContractRules) (codec : DurableCodec) (s : LocalStore)
    (op : StoreOp) : Prop where
  readsBack : ∀ record, carried op = some record → ∃ read, ReadsBack codec record read
  delivery : ∀ record, carried op = some record → record.injectOccurrence = none →
    record.injectDelivery.isSome = true →
    loadRecord codec s record.receipt.operationId = .ok none →
    ∀ loaded, loadRecords rules codec s = .ok loaded →
      requireDeliveryClaims rules (loaded ++ [record]) conflictError = .ok ()
  control : ∀ expected record event, op = .commitInvocationTransition expected record event →
    ∀ loaded, loadRecords rules codec s = .ok loaded → KeepsControls loaded (placed record loaded)

theorem claimHistory_init : ClaimHistory rules (Dict.values
    (Dict.empty : Dict String ControlPlaneOperationRecord)) where
  deliveries := by
    rw [← requireDeliveryClaims_ok_iff rules _ conflictError]
    rfl
  unique := by
    rw [← validateInjectOccurrenceClaims_ok_iff]
    rfl
  chain := trivial

theorem replays_init : Replays rules codec init := ⟨Dict.empty, holds_init, claimHistory_init⟩

theorem Replays.loads (h : Replays rules codec s) :
    ∃ loaded, loadRecords rules codec s = .ok loaded := by
  obtain ⟨records, hholds, hhistory⟩ := h
  obtain ⟨loaded, hloaded, _⟩ := hholds.loadRecords hhistory
  exact ⟨loaded, hloaded⟩

theorem Holds.mem_values (h : Holds codec s records) :
    record ∈ records.values ↔ records.get? record.receipt.operationId = some record := by
  rw [Dict.mem_values_iff]
  constructor
  · intro hmem
    obtain ⟨id, hid⟩ := hmem
    rw [h.ids id record hid]
    exact hid
  · exact fun hid => ⟨_, hid⟩

theorem Holds.distinctIds_append (h : Holds codec s records)
    (hnew : records.get? record.receipt.operationId = none) :
    DistinctIds (records.values ++ [record]) := by
  have hids := h.distinctIds
  unfold DistinctIds at hids ⊢
  rw [List.map_append]
  refine hids.append (List.nodup_singleton _) ?_
  rw [List.map_singleton, List.disjoint_singleton, List.mem_map]
  intro hmem
  obtain ⟨item, hitem, hid⟩ := hmem
  have hstored := h.mem_values.1 hitem
  rw [show item.receipt.operationId = record.receipt.operationId from hid, hnew] at hstored
  cases hstored

theorem Replays.newRecord (hholds : Holds codec s records)
    (hhistory : ClaimHistory rules records.values)
    (hnew : records.get? record.receipt.operationId = none)
    (hchecked : record.injectOccurrence.isSome = true →
      ∃ revision loaded, loadRecords rules codec s = .ok loaded ∧
        requireInjectClaim rules record loaded revision = .ok ())
    (hdelivery : record.injectOccurrence = none → record.injectDelivery.isSome = true →
      ∀ loaded, loadRecords rules codec s = .ok loaded →
        requireDeliveryClaims rules (loaded ++ [record]) conflictError = .ok ()) :
    ClaimHistory rules (records.values ++ [record]) := by
  obtain ⟨loaded, hloaded, hperm⟩ := hholds.loadRecords hhistory
  have hfresh : ∀ item ∈ loaded, item.operationId ≠ record.operationId := by
    intro item hitem hid
    have hstored := hholds.mem_values.1 (hperm.mem_iff.1 hitem)
    rw [show item.receipt.operationId = record.receipt.operationId from hid, hnew] at hstored
    cases hstored
  have happend : (loaded ++ [record]).Perm (records.values ++ [record]) := hperm.append_right _
  have hids : DistinctIds (loaded ++ [record]) := (hholds.distinctIds_append hnew).perm happend.symm
  cases hoccurrence : record.injectOccurrence with
  | some occurrence =>
    obtain ⟨revision, loaded', hloaded', hclaim⟩ := hchecked (by rw [hoccurrence]; rfl)
    cases hloaded.symm.trans hloaded'
    rw [requireInjectClaim_ok_iff] at hclaim
    rcases hclaim with ⟨item, hitem, hid⟩ | ⟨_, _, hclaims⟩
    · exact absurd hid (hfresh item hitem)
    · exact (hclaims occurrence hoccurrence).2.perm happend hids
  | none =>
    refine hhistory.append hoccurrence ?_
    cases hcontent : record.injectDelivery with
    | some content =>
      have hclaims := hdelivery hoccurrence (by rw [hcontent]; rfl) loaded hloaded
      rw [requireDeliveryClaims_ok_iff] at hclaims
      exact hclaims.perm happend hids
    | none => exact hhistory.deliveries.append hcontent (hids.perm happend)

theorem not_acceptsControl_of_transition {existing record : ControlPlaneOperationRecord}
    (h : requireOperationRecordTransition rules (some existing) record = .ok true)
    (eventId : String) : acceptsControl eventId existing = false := by
  obtain ⟨_, ⟨hchanged, _⟩ | ⟨_, _, hlegal⟩⟩ := requireOperationRecordTransition_existing h
  · cases hchanged
  · have hopen := nonTerminal_of_legalStep hlegal
    unfold acceptsControl
    rw [Bool.and_eq_false_iff]
    right
    rw [decide_eq_false_iff_not]
    intro hsucceeded
    rw [hsucceeded] at hopen
    cases hopen

/-- A replacement that leaves the delivered control events produced keeps the history. -/
theorem Replays.replacement (hholds : Holds codec s records)
    (hhistory : ClaimHistory rules records.values)
    {existing record read : ControlPlaneOperationRecord}
    (hstored : records.get? record.receipt.operationId = some existing)
    (hreplaces : Replaces rules (some existing) record)
    (hread : read.withoutDiagnostics = record.withoutDiagnostics)
    (hcontrols : ∀ eventId ∈ deliveredEvents records.values,
      acceptsControl eventId existing = true →
        acceptsControl eventId record = true ∨ ∃ other ∈ records.values,
          other.operationId ≠ record.operationId ∧ acceptsControl eventId other = true) :
    ClaimHistory rules (records.set record.receipt.operationId read).values := by
  have hkeeps : KeepsClaims existing read :=
    hreplaces.keepsClaims.trans (keepsClaims_of_withoutDiagnostics hread)
  refine hhistory.versions hholds.distinctIds
    (Dict.forall₂_values_set KeepsClaims.refl hstored hkeeps) ?_
  intro eventId hdelivered hproduced
  rw [List.any_eq_true] at hproduced ⊢
  have hset : ∀ other ∈ records.values, other.operationId ≠ record.operationId →
      other ∈ (records.set record.receipt.operationId read).values := by
    intro other hother hne
    rw [Dict.mem_values_iff]
    refine ⟨other.receipt.operationId, ?_⟩
    have hid : other.receipt.operationId ≠ record.receipt.operationId := hne
    rw [Dict.get?_set_ne _ _ hid]
    exact hholds.mem_values.1 hother
  have hplaced : read ∈ (records.set record.receipt.operationId read).values := by
    rw [Dict.mem_values_iff]
    exact ⟨_, Dict.get?_set_self _ _ _⟩
  have hwritten : acceptsControl eventId record = true →
      ∃ x ∈ (records.set record.receipt.operationId read).values,
        acceptsControl eventId x = true := by
    intro haccepts
    refine ⟨read, hplaced, ?_⟩
    rw [acceptsControl_of_withoutDiagnostics hread]
    exact haccepts
  obtain ⟨candidate, hcandidate, haccepts⟩ := hproduced
  by_cases hid : candidate.operationId = record.operationId
  · have hsame : candidate = existing := by
      have hget := hholds.mem_values.1 hcandidate
      rw [show candidate.receipt.operationId = record.receipt.operationId from hid, hstored] at hget
      exact (Option.some.inj hget).symm
    rw [hsame] at haccepts
    rcases hcontrols eventId hdelivered haccepts with hrecord | ⟨other, hother, hne, hotherAccepts⟩
    · exact hwritten hrecord
    · exact ⟨other, hset other hother hne, hotherAccepts⟩
  · exact ⟨candidate, hset candidate hcandidate hid, haccepts⟩

theorem Replays.recordWrite {op : StoreOp} (h : Replays rules codec s)
    (hop : Reloadable rules codec s op) (hwrite : RecordWrite rules codec s op t) :
    Replays rules codec t := by
  obtain ⟨records, hholds, hhistory⟩ := h
  cases hwrite with
  | unchanged hoperations =>
    refine ⟨records, ?_, hhistory⟩
    unfold Holds
    rw [hoperations]
    exact hholds
  | upserted record row existing hcarried hloaded hreplaces horigin hchecked hrow hoperations =>
    obtain ⟨read, hreads⟩ := hop.readsBack record hcarried
    refine ⟨records.set record.receipt.operationId read, ?_, ?_⟩
    · unfold Holds
      rw [hoperations]
      exact hholds.set hreads hrow
    have hexisting : records.get? record.receipt.operationId = existing := by
      rw [hholds.loadRecord] at hloaded
      exact Except.ok.inj hloaded
    cases existing with
    | none =>
      rw [Dict.values_set_of_get?_none _ hexisting]
      have hrecord : ClaimHistory rules (records.values ++ [record]) :=
        Replays.newRecord hholds hhistory hexisting hchecked fun hoccurrence hdelivery =>
          hop.delivery record hcarried hoccurrence hdelivery hloaded
      refine hrecord.versions (hholds.distinctIds_append hexisting) ?_ ?_
      · exact List.rel_append (List.forall₂_same.mpr fun item _ => KeepsClaims.refl item)
          (.cons (keepsClaims_of_withoutDiagnostics hreads.same) .nil)
      · intro eventId _ hproduced
        rw [List.any_append, List.any_cons, acceptsControl_of_withoutDiagnostics hreads.same,
          ← List.any_cons, ← List.any_append]
        exact hproduced
    | some existing =>
      refine Replays.replacement hholds hhistory hexisting hreplaces hreads.same ?_
      intro eventId hdelivered haccepts
      rcases horigin with htransition | ⟨expected, event, rfl⟩
      · rw [not_acceptsControl_of_transition htransition] at haccepts
        cases haccepts
      · obtain ⟨loaded, hload, hperm⟩ := hholds.loadRecords hhistory
        have hevents : (deliveredEvents loaded).Perm (deliveredEvents records.values) :=
          (hperm.filterMap _).map _
        have hstored : existing ∈ loaded :=
          hperm.mem_iff.2 (Dict.mem_values_iff.2 ⟨_, hexisting⟩)
        have hkept := hop.control expected record event rfl loaded hload eventId
          (hevents.mem_iff.2 hdelivered) (List.any_eq_true.2 ⟨existing, hstored, haccepts⟩)
        obtain ⟨candidate, hcandidate, hcandidateAccepts⟩ := List.any_eq_true.1 hkept
        obtain ⟨item, hitem, rfl⟩ := List.mem_map.1 hcandidate
        split at hcandidateAccepts
        · exact Or.inl hcandidateAccepts
        case isFalse hne =>
          exact Or.inr ⟨item, hperm.mem_iff.1 hitem, hne, hcandidateAccepts⟩

theorem Replays.step (h : Replays rules codec s) {op : StoreOp}
    (hop : Reloadable rules codec s op) : Replays rules codec (step rules codec s op) := by
  by_cases haccepts : Accepts rules codec s op
  · exact h.recordWrite hop (accepted_recordWrite haccepts)
  · rw [step_of_refused haccepts]
    exact h

/-- A codec that knows the records it may restore by identity and state. -/
def plainCodec (known : List ControlPlaneOperationRecord) : DurableCodec where
  digest _ := "digest"
  diagnosticModel payload := .ok payload
  recordFromPayload payload :=
    match known.find? fun record =>
        path payload ["status", "operation_id"] = some (.str record.receipt.operationId) &&
          path payload ["status", "state"] = some (.str record.status.state.value) with
    | some record => .ok record
    | none => .error (valueError "unknown record")
  auditEventFromPayload _ := .error (valueError "unknown event")
  canonicalSnapshot snapshot := .ok snapshot
  persistSnapshot _ snapshot := .ok ⟨snapshot.content, "digest", []⟩
  restoreSnapshot rows := .ok ⟨[], rows.header⟩

open MemoryStore (plainRecord plainContext)

/-- A crossing that delivers the result of a world operation that no store holds. -/
def strayDelivery : ControlPlaneOperationRecord :=
  let context := { plainContext with operationKind := .participantCrossing }
  let record := plainRecord "a" "key" .accepted
  { record with
    receipt := { record.receipt with context := context, domain := .participant }
    status := { record.status with context := context, domain := .participant }
    injectDelivery := some
      { application := ⟨"missing", "participant", none, .obj []⟩
        correlation := ⟨.null, .null, .null⟩
        content := .obj [] } }

end LocalStore
end Raes.Store
