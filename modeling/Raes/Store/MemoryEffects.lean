import Raes.Store.Memory

/-!
# What one operation does to the in-memory store

One inversion lemma for each operation: an accepted operation answers without a
change, commits a snapshot, or keeps one record that replaces the stored one by
the rules.  A refused operation changes nothing.
-/

namespace Raes.Store

open PyError Stateful

/-! ## Replacing a record -/

/-- A record may take the place of what a store holds under its identity: as a
new record, by a legal transition, or by a supervision cut. -/
inductive Replaces (rules : ContractRules) :
    Option ControlPlaneOperationRecord → ControlPlaneOperationRecord → Prop
  | create {record : ControlPlaneOperationRecord}
      (identity : requireOperationRecordIdentity rules record = .ok ())
      (start : isNonTerminal record.status.state = true) : Replaces rules none record
  | transition {existing record : ControlPlaneOperationRecord}
      (same : requireSameOperationIdentity rules existing record = .ok ())
      (legal : LegalStep existing.status.state record.status.state) :
      Replaces rules (some existing) record
  | supervise {existing expected record : ControlPlaneOperationRecord} {event : AuditEvent}
      (current : existing.pyEq expected = true)
      (cut : requireSupervisionCut rules expected record event = .ok ()) :
      Replaces rules (some existing) record

theorem sameIdentity_of_pyEq {a b : ControlPlaneOperationRecord} (h : a.pyEq b = true) :
    SameIdentity a b ∧ a.status = b.status ∧ a.invocation = b.invocation := by
  have heq := eq_of_pyEq h
  simp only [ControlPlaneOperationRecord.mk.injEq] at heq
  obtain ⟨hreceipt, hstatus, hfingerprint, hkey, _, _, _, hlegacy, hinvocation, _, hoccurrence, _,
    _, hdelivery, hcontrol⟩ := heq
  refine ⟨⟨hreceipt, ?_, hoccurrence, hdelivery, hcontrol⟩, hstatus, hinvocation⟩
  unfold claimIdentity
  rw [hstatus, hfingerprint, hkey, hlegacy]

variable {record : ControlPlaneOperationRecord} {rules : ContractRules}

theorem Replaces.record_ids {existing : Option ControlPlaneOperationRecord}
    (h : Replaces rules existing record) : record.receipt.operationId = record.status.operationId ∧
      record.receipt.context = record.status.context := by
  cases h with
  | create identity _ => exact requireOperationRecordIdentity_ok identity
  | transition same _ =>
    exact requireOperationRecordIdentity_ok (requireSameOperationIdentity_ok same).2.1
  | supervise _ cut =>
    have hsame := (requireSupervisionCut_ok cut).1
    exact requireOperationRecordIdentity_ok (requireSameOperationIdentity_ok hsame).2.1

/-- A replacement keeps the identity, and moves the state by one legal step or
keeps the whole status. -/
theorem Replaces.existing {rules : ContractRules}
    {existing record : ControlPlaneOperationRecord} (h : Replaces rules (some existing) record) :
    SameIdentity existing record ∧
      (LegalStep existing.status.state record.status.state ∨ existing.status = record.status) := by
  cases h with
  | transition same legal => exact ⟨(requireSameOperationIdentity_ok same).2.2.2.2, Or.inl legal⟩
  | supervise current cut =>
    obtain ⟨hsame, hstatus, _⟩ := requireSupervisionCut_ok cut
    obtain ⟨hid, hcurrent, _⟩ := sameIdentity_of_pyEq current
    exact ⟨hid.trans (requireSameOperationIdentity_ok hsame).2.2.2.2,
      Or.inr (hcurrent.trans hstatus)⟩

theorem replaces_of_transition {existing : Option ControlPlaneOperationRecord}
    (h : requireOperationRecordTransition rules existing record = .ok true) :
    Replaces rules existing record := by
  cases existing with
  | none =>
    obtain ⟨hidentity, _, hstart⟩ := requireOperationRecordTransition_new h
    exact .create hidentity hstart
  | some existing =>
    obtain ⟨hsame, hretry | hlegal⟩ := requireOperationRecordTransition_existing h
    · cases hretry.1
    · exact .transition hsame hlegal.2.2

theorem storedEq_of_transition {existing : Option ControlPlaneOperationRecord} {changed : Bool}
    (h : requireOperationRecordTransition rules existing record = .ok changed) :
    storedEq existing record = !changed := by
  cases existing with
  | none =>
    rw [(requireOperationRecordTransition_new h).2.1]
    rfl
  | some existing =>
    obtain ⟨_, ⟨hchanged, heq⟩ | ⟨hchanged, hne, _⟩⟩ := requireOperationRecordTransition_existing h
    · rw [hchanged]
      exact heq
    · rw [hchanged]
      exact hne

namespace MemoryStore

variable {rules : ContractRules} {s t : MemoryStore}

/-- The store with a record kept under a new set of claims. -/
def keep (s : MemoryStore) (record : ControlPlaneOperationRecord)
    (idempotency : Dict IdempotencyClaimIdentity String) : MemoryStore :=
  { s with
    records := s.records.set record.receipt.operationId record
    operationChanges := s.operationChanges ++ [record.receipt.operationId]
    claimGuards := s.claimGuards.apply record
    idempotency := idempotency }

def published (s : MemoryStore) (record : ControlPlaneOperationRecord) (event : AuditEvent)
    (committed : SnapshotState) (idempotency : Dict IdempotencyClaimIdentity String) :
    MemoryStore :=
  { s.keep record idempotency with
    snapshotState := committed
    audit := s.audit ++ [event] }

theorem exec_keepRecord (record : ControlPlaneOperationRecord) (s : MemoryStore) :
    exec (keepRecord record) s = (.ok (), s.keep record s.idempotency) := rfl

theorem exec_publish (record : ControlPlaneOperationRecord) (event : AuditEvent)
    (committed : SnapshotState) (s : MemoryStore) :
    exec (publish record event committed) s =
      match updatedIdempotency s record with
      | .error e => (.error e, s)
      | .ok idempotency => (.ok (), s.published record event committed idempotency) := by
  unfold publish
  simp only [exec_bind, exec_get, exec_lift, exec_modify, exec_keepRecord]
  cases updatedIdempotency s record <;> rfl

theorem requireExpectedRevision_readOnly (revision : ℤ) :
    ReadOnly (requireExpectedRevision revision) := by
  unfold requireExpectedRevision
  refine (readOnly_lift _).bind fun _ => readOnly_get.bind fun store => ?_
  exact ReadOnly.ite (readOnly_throw _) (readOnly_pure _)

theorem requireExpectedRevision_ok {revision : ℤ} {u : Unit}
    (h : exec (requireExpectedRevision revision) s = (.ok u, t)) :
    t = s ∧ s.snapshotState.revision = revision := by
  have ht := requireExpectedRevision_readOnly revision s
  rw [h] at ht
  refine ⟨ht, ?_⟩
  unfold requireExpectedRevision at h
  simp only [exec_bind_ok_iff, exec_lift_ok_iff, exec_get_ok_iff] at h
  obtain ⟨_, _, ⟨_, rfl⟩, _, _, ⟨rfl, rfl⟩, h⟩ := h
  by_contra hne
  rw [if_pos hne, exec_throw] at h
  cases (Prod.mk.inj h).1

theorem validateRetry_readOnly (snapshot : RuntimeSnapshot)
    (record : ControlPlaneOperationRecord) (event : AuditEvent) (mode : TerminalCommitMode)
    (revision : ℤ) (label : String) :
    ReadOnly (validateRetry snapshot record event mode revision label) := by
  unfold validateRetry
  exact readOnly_get.bind fun _ => (readOnly_lift _).bind fun _ =>
    (readOnly_lift _).bind fun _ => (readOnly_lift _).bind fun _ => readOnly_pure _

theorem requireExpectedRevision_ok_iff (revision : ℤ) (u : Unit) (s t : MemoryStore) :
    exec (requireExpectedRevision revision) s = (.ok u, t) ↔
      requireSnapshotRevision revision = .ok revision ∧ s.snapshotState.revision = revision ∧
        t = s := by
  constructor
  · intro h
    obtain ⟨ht, hrevision⟩ := requireExpectedRevision_ok h
    refine ⟨?_, hrevision, ht⟩
    unfold requireExpectedRevision at h
    simp only [exec_bind_ok_iff, exec_lift_ok_iff] at h
    obtain ⟨current, _, ⟨hcurrent, _⟩, _⟩ := h
    have hsame : current = revision := by
      unfold requireSnapshotRevision at hcurrent
      rw [seq_eq_ok_iff] at hcurrent
      cases hcurrent.2
      rfl
    rw [hsame] at hcurrent
    exact hcurrent
  · intro h
    obtain ⟨hcurrent, hrevision, rfl⟩ := h
    unfold requireExpectedRevision
    simp only [exec_bind, exec_lift, exec_get, hcurrent]
    rw [if_neg (not_not_intro hrevision)]
    rfl

theorem exec_requireExpectedRevision_bind_ok_iff {α : Type} (revision : ℤ) (f : Unit → MemoryM α)
    (s t : MemoryStore) (answer : α) :
    exec (requireExpectedRevision revision >>= f) s = (.ok answer, t) ↔
      requireSnapshotRevision revision = .ok revision ∧ s.snapshotState.revision = revision ∧
        exec (f ()) s = (.ok answer, t) := by
  rw [exec_bind_ok_iff]
  constructor
  · intro h
    obtain ⟨u, w, hrevision, hbody⟩ := h
    obtain ⟨hvalid, hcurrent, rfl⟩ := (requireExpectedRevision_ok_iff revision u s w).1 hrevision
    exact ⟨hvalid, hcurrent, hbody⟩
  · intro h
    obtain ⟨hvalid, hcurrent, hbody⟩ := h
    exact ⟨(), s, (requireExpectedRevision_ok_iff revision () s s).2 ⟨hvalid, hcurrent, rfl⟩, hbody⟩

theorem exec_publish_bind_ok_iff {α : Type} (record : ControlPlaneOperationRecord)
    (event : AuditEvent) (committed : SnapshotState) (f : Unit → MemoryM α) (s t : MemoryStore)
    (answer : α) :
    exec (publish record event committed >>= f) s = (.ok answer, t) ↔
      ∃ idempotency, updatedIdempotency s record = .ok idempotency ∧
        exec (f ()) (s.published record event committed idempotency) = (.ok answer, t) := by
  rw [exec_bind, exec_publish]
  cases updatedIdempotency s record with
  | error e => simp
  | ok idempotency => simp

/-! ## Accepted operations -/

theorem saveRecordLocked_ok_iff (rules : ContractRules) (record : ControlPlaneOperationRecord)
    (s t : MemoryStore) :
    exec (saveRecordLocked rules record) s = (.ok (), t) ↔
      requireInjectClaim rules record s.records.values s.snapshotState.revision = .ok () ∧
      ((requireOperationRecordTransition rules (s.records.get? record.receipt.operationId)
          record = .ok false ∧ t = s) ∨
        (requireOperationRecordTransition rules (s.records.get? record.receipt.operationId)
            record = .ok true ∧
          ∃ idempotency, updatedIdempotency s record = .ok idempotency ∧
            t = s.keep record idempotency)) := by
  unfold saveRecordLocked
  simp only [exec_bind, exec_get, exec_lift]
  cases hclaim : requireInjectClaim rules record s.records.values s.snapshotState.revision with
  | error e => simp
  | ok u =>
    cases htransition : requireOperationRecordTransition rules
        (s.records.get? record.receipt.operationId) record with
    | error e => simp
    | ok changed =>
      cases changed with
      | false => simp [eq_comm]
      | true =>
        simp only [if_true, exec_bind, exec_lift]
        cases hidem : updatedIdempotency s record with
        | error e => simp
        | ok idempotency =>
          simp only [exec_modify, exec_keepRecord, true_and, Except.ok.injEq, false_and, false_or,
            exists_eq_left', Bool.true_eq_false, Prod.mk.injEq]
          exact eq_comm

theorem claimRecord_ok_iff (rules : ContractRules) (record answer : ControlPlaneOperationRecord)
    (legacy : String) (blocked : Option NewClaimBlock) (s t : MemoryStore) :
    exec (claimRecord rules record legacy blocked) s = (.ok answer, t) ↔
      requireIdempotencyKey record.idempotencyKey = .ok () ∧
      ((s.incumbent record = some answer ∧
          requireSameIdempotencyReplay answer record legacy = .ok () ∧ t = s) ∨
        (s.incumbent record = none ∧ answer = record ∧ blocked = none ∧
          requireInjectClaim rules record s.records.values s.snapshotState.revision = .ok () ∧
          requireClaimAdmitted rules s.effectAdmissionStopped s.claimGuards.guardRecords record =
            .ok () ∧
          exec (saveRecordLocked rules record) s = (.ok (), t))) := by
  unfold claimRecord
  rw [exec_get_bind, exec_check_bind_ok_iff]
  refine and_congr_right fun _ => ?_
  cases hincumbent : s.incumbent record with
  | some existing =>
    rw [exec_check_bind_ok_iff, exec_pure_ok_iff]
    constructor
    · intro h
      obtain ⟨hreplay, rfl, rfl⟩ := h
      exact Or.inl ⟨rfl, hreplay, rfl⟩
    · intro h
      rcases h with ⟨heq, hreplay, ht⟩ | ⟨hnone, _⟩
      · cases heq
        exact ⟨hreplay, rfl, ht⟩
      · cases hnone
  | none =>
    cases blocked with
    | some block => simp
    | none =>
      simp only [exec_check_bind_ok_iff]
      simp only [exec_bind_ok_iff, exec_pure_ok_iff, reduceCtorEq, false_and, false_or, true_and]
      constructor
      · intro h
        obtain ⟨hclaim, hadmitted, _, u, hsave, rfl, rfl⟩ := h
        exact ⟨rfl, hclaim, hadmitted, hsave⟩
      · intro h
        obtain ⟨rfl, hclaim, hadmitted, hsave⟩ := h
        exact ⟨hclaim, hadmitted, (), t, hsave, rfl, rfl⟩

theorem saveSnapshot_ok_iff (rules : ContractRules) (snapshot : RuntimeSnapshot) (revision : ℤ)
    (answer : SnapshotState) (s t : MemoryStore) :
    exec (saveSnapshot rules snapshot revision) s = (.ok answer, t) ↔
      rules.autonomousSnapshot snapshot = .ok () ∧
      requireSnapshotRevision revision = .ok revision ∧ s.snapshotState.revision = revision ∧
      (∃ next, nextSnapshotRevision revision = .ok next ∧
        sealedState rules snapshot next = .ok answer) ∧
      t = { s with snapshotState := answer } := by
  unfold saveSnapshot
  rw [exec_check_bind_ok_iff]
  simp only [exec_bind_ok_iff (requireExpectedRevision revision), requireExpectedRevision_ok_iff,
    exec_lift_bind_ok_iff, exec_modify_bind, exec_pure_ok_iff]
  constructor
  · intro h
    obtain ⟨hauto, _, _, ⟨hvalid, hrevision, rfl⟩, next, hnext, committed, hcommitted, rfl, rfl⟩ := h
    exact ⟨hauto, hvalid, hrevision, ⟨next, hnext, hcommitted⟩, rfl⟩
  · intro h
    obtain ⟨hauto, hvalid, hrevision, ⟨next, hnext, hcommitted⟩, rfl⟩ := h
    exact ⟨hauto, (), s, ⟨hvalid, hrevision, rfl⟩, next, hnext, answer, hcommitted, rfl, rfl⟩

theorem commitParticipantTransition_ok_iff (rules : ContractRules) (heads : ObservedHeads)
    (revision : ℤ) (snapshot : RuntimeSnapshot) (record : ControlPlaneOperationRecord)
    (event : AuditEvent) (answer : SnapshotState) (s t : MemoryStore) :
    exec (commitParticipantTransition rules heads revision snapshot record event) s =
        (.ok answer, t) ↔
      rules.autonomousSnapshot snapshot = .ok () ∧
      ((storedEq (s.records.get? record.receipt.operationId) record = true ∧
          requireOperationAuditBinding record event = .ok () ∧
          exec (validateRetry snapshot record event .snapshotBearing revision
            "participant transition") s = (.ok answer, t)) ∨
        (storedEq (s.records.get? record.receipt.operationId) record = false ∧
          requireSnapshotRevision revision = .ok revision ∧ s.snapshotState.revision = revision ∧
          requireObservedHeads rules s.snapshotState.snapshot heads = .ok () ∧
          requireOperationRecordTransition rules (s.records.get? record.receipt.operationId)
            record = .ok true ∧
          requireOperationAuditBinding record event = .ok () ∧
          (∃ next, nextSnapshotRevision revision = .ok next ∧
            sealedState rules snapshot next = .ok answer) ∧
          ∃ idempotency, updatedIdempotency s record = .ok idempotency ∧
            t = s.published record event answer idempotency)) := by
  unfold commitParticipantTransition
  rw [exec_check_bind_ok_iff, exec_get_bind]
  refine and_congr_right fun _ => ?_
  cases hretry : storedEq (s.records.get? record.receipt.operationId) record with
  | true =>
    simp only [hretry, if_true, exec_check_bind_ok_iff, true_and, Bool.true_eq_false, false_and,
      or_false]
  | false =>
    simp only [hretry, Bool.false_eq_true, if_false, false_and, false_or, true_and,
      exec_requireExpectedRevision_bind_ok_iff]
    refine and_congr_right fun _ => and_congr_right fun _ => ?_
    rw [exec_check_bind_ok_iff, exec_lift_bind_ok_iff]
    simp only [exec_check_bind_ok_iff]
    simp only [exec_lift_bind_ok_iff, exec_publish_bind_ok_iff, exec_pure_ok_iff]
    constructor
    · intro h
      obtain ⟨hheads, changed, htransition, haudit, next, hnext, committed, hcommitted,
        idempotency, hidem, rfl, rfl⟩ := h
      have hchanged : changed = true := by
        have hstored := storedEq_of_transition htransition
        rw [hretry] at hstored
        simpa using hstored.symm
      subst hchanged
      exact ⟨hheads, htransition, haudit, ⟨next, hnext, hcommitted⟩, idempotency, hidem, rfl⟩
    · intro h
      obtain ⟨hheads, htransition, haudit, ⟨next, hnext, hcommitted⟩, idempotency, hidem, rfl⟩ := h
      exact ⟨hheads, true, htransition, haudit, next, hnext, answer, hcommitted, idempotency, hidem,
        rfl, rfl⟩

theorem commitInvocationTransition_ok_iff (rules : ContractRules)
    (expected record : ControlPlaneOperationRecord) (event : AuditEvent) (answer : SnapshotState)
    (s t : MemoryStore) :
    exec (commitInvocationTransition rules expected record event) s = (.ok answer, t) ↔
      requireSupervisionCut rules expected record event = .ok () ∧
      answer = s.snapshotState ∧
      (((storedEq (s.records.get? expected.receipt.operationId) record &&
            s.audit.any fun item => item.pyEq event) = true ∧ t = s) ∨
        ((storedEq (s.records.get? expected.receipt.operationId) record &&
            s.audit.any fun item => item.pyEq event) = false ∧
          storedEq (s.records.get? expected.receipt.operationId) expected = true ∧
          ∃ idempotency, updatedIdempotency s record = .ok idempotency ∧
            t = s.published record event s.snapshotState idempotency)) := by
  unfold commitInvocationTransition
  rw [exec_check_bind_ok_iff, exec_get_bind]
  refine and_congr_right fun _ => ?_
  cases hretry : storedEq (s.records.get? expected.receipt.operationId) record &&
      s.audit.any fun item => item.pyEq event with
  | true =>
    simp only [hretry, if_true, exec_pure_ok_iff, true_and, Bool.true_eq_false, false_and, or_false]
  | false =>
    cases hcurrent : storedEq (s.records.get? expected.receipt.operationId) expected with
    | false => simp [hretry, hcurrent]
    | true =>
      simp only [hretry, hcurrent, Bool.false_eq_true, Bool.true_eq_false, if_false, false_and,
        false_or, true_and, exec_publish_bind_ok_iff, exec_get_bind, exec_pure_ok_iff]
      constructor
      · intro h
        obtain ⟨idempotency, hidem, rfl, rfl⟩ := h
        exact ⟨rfl, idempotency, hidem, rfl⟩
      · intro h
        obtain ⟨rfl, idempotency, hidem, rfl⟩ := h
        exact ⟨idempotency, hidem, rfl, rfl⟩

theorem commitTerminalOperation_ok_iff (rules : ContractRules) (snapshot : RuntimeSnapshot)
    (record : ControlPlaneOperationRecord) (given : Option AuditEvent) (mode : TerminalCommitMode)
    (revision : ℤ) (answer : SnapshotState) (s t : MemoryStore) :
    exec (commitTerminalOperation rules snapshot record given mode revision) s =
        (.ok answer, t) ↔
      rules.autonomousSnapshot snapshot = .ok () ∧
      ∃ event, terminalEvent rules record given = .ok event ∧
      requireTerminalOperationAudit rules record event = .ok () ∧
      ((requireTerminalOperationTransition rules (s.records.get? record.receipt.operationId)
            record = .ok false ∧
          exec (validateRetry snapshot record event mode revision "terminal operation") s =
            (.ok answer, t)) ∨
        (requireTerminalOperationTransition rules (s.records.get? record.receipt.operationId)
            record = .ok true ∧
          requireSnapshotRevision revision = .ok revision ∧ s.snapshotState.revision = revision ∧
          ¬ (mode = .operationOnly ∧ s.snapshotState.snapshot.pyEq snapshot = false) ∧
          terminalSnapshot rules s snapshot mode revision = .ok answer ∧
          ∃ idempotency, updatedIdempotency s record = .ok idempotency ∧
            t = s.published record event answer idempotency)) := by
  unfold commitTerminalOperation
  rw [exec_check_bind_ok_iff, exec_lift_bind_ok_iff]
  refine and_congr_right fun _ => exists_congr fun event => and_congr_right fun _ => ?_
  rw [exec_check_bind_ok_iff, exec_get_bind, exec_lift_bind_ok_iff]
  refine and_congr_right fun _ => ?_
  cases htransition : requireTerminalOperationTransition rules
      (s.records.get? record.receipt.operationId) record with
  | error e => simp
  | ok changed =>
    cases changed with
    | false => simp
    | true =>
      simp only [Except.ok.injEq, exists_eq_left', Bool.true_eq_false, if_false, false_and,
        false_or, true_and, exec_requireExpectedRevision_bind_ok_iff]
      refine and_congr_right fun _ => and_congr_right fun _ => ?_
      simp only [exec_check_bind_ok_iff, refuseIf_eq_ok_iff]
      simp only [exec_lift_bind_ok_iff, exec_publish_bind_ok_iff, exec_pure_ok_iff]
      refine and_congr_right fun _ => ?_
      constructor
      · intro h
        obtain ⟨committed, hcommitted, idempotency, hidem, rfl, rfl⟩ := h
        exact ⟨hcommitted, idempotency, hidem, rfl⟩
      · intro h
        obtain ⟨hcommitted, idempotency, hidem, rfl⟩ := h
        exact ⟨answer, hcommitted, idempotency, hidem, rfl, rfl⟩

/-! ## Refused operations -/

theorem saveRecordLocked_atomic (rules : ContractRules) (record : ControlPlaneOperationRecord) :
    Atomic (saveRecordLocked rules record) := by
  unfold saveRecordLocked
  refine readOnly_get.bind_atomic fun store => (readOnly_lift _).bind_atomic fun _ =>
    (readOnly_lift _).bind_atomic fun changed => ?_
  refine Atomic.ite ?_ (readOnly_pure _).atomic
  refine (readOnly_lift _).bind_atomic fun idempotency => atomic_of_ok fun s => ⟨(), ?_⟩
  rw [exec_modify_bind, exec_keepRecord]

theorem claimRecord_atomic (rules : ContractRules) (record : ControlPlaneOperationRecord)
    (legacy : String) (blocked : Option NewClaimBlock) :
    Atomic (claimRecord rules record legacy blocked) := by
  unfold claimRecord
  refine readOnly_get.bind_atomic fun store => (readOnly_lift _).bind_atomic fun _ => ?_
  cases store.incumbent record with
  | some existing => exact ((readOnly_lift _).bind fun _ => readOnly_pure _).atomic
  | none =>
    have hsave : Atomic (do
        saveRecordLocked rules record
        return record : MemoryM ControlPlaneOperationRecord) := by
      have h := (saveRecordLocked_atomic rules record).map fun _ => record
      rwa [← bind_pure_comp] at h
    cases blocked with
    | some block => exact (readOnly_throw _).atomic
    | none =>
      exact (readOnly_lift _).bind_atomic fun _ => (readOnly_lift _).bind_atomic fun _ => hsave

theorem saveSnapshot_atomic (rules : ContractRules) (snapshot : RuntimeSnapshot) (revision : ℤ) :
    Atomic (saveSnapshot rules snapshot revision) := by
  unfold saveSnapshot
  refine (readOnly_lift _).bind_atomic fun _ =>
    (requireExpectedRevision_readOnly revision).bind_atomic fun _ =>
    (readOnly_lift _).bind_atomic fun next => (readOnly_lift _).bind_atomic fun committed => ?_
  refine atomic_of_ok fun s => ⟨committed, ?_⟩
  rw [exec_modify_bind, exec_pure]

theorem publish_return_atomic {α : Type} (record : ControlPlaneOperationRecord)
    (event : AuditEvent) (committed : SnapshotState) (answer : Unit → MemoryM α)
    (hanswer : ∀ s, ∃ a, (exec (answer ()) s).1 = .ok a) :
    Atomic (publish record event committed >>= answer) := by
  intro s e t h
  rw [exec_bind, exec_publish] at h
  cases hclaims : updatedIdempotency s record with
  | error e' =>
    rw [hclaims] at h
    exact (Prod.mk.inj h).2.symm
  | ok idempotency =>
    rw [hclaims] at h
    obtain ⟨a, ha⟩ := hanswer (s.published record event committed idempotency)
    simp only [h] at ha
    cases ha

theorem commitParticipantTransition_atomic (rules : ContractRules) (heads : ObservedHeads)
    (revision : ℤ) (snapshot : RuntimeSnapshot) (record : ControlPlaneOperationRecord)
    (event : AuditEvent) :
    Atomic (commitParticipantTransition rules heads revision snapshot record event) := by
  unfold commitParticipantTransition
  refine (readOnly_lift _).bind_atomic fun _ => readOnly_get.bind_atomic fun store =>
    Atomic.ite ?_ ?_
  · exact (readOnly_lift _).bind_atomic fun _ => (validateRetry_readOnly _ _ _ _ _ _).atomic
  · exact (requireExpectedRevision_readOnly revision).bind_atomic fun _ =>
      (readOnly_lift _).bind_atomic fun _ => (readOnly_lift _).bind_atomic fun _ =>
      (readOnly_lift _).bind_atomic fun _ => (readOnly_lift _).bind_atomic fun _ =>
      (readOnly_lift _).bind_atomic fun committed =>
      publish_return_atomic record event committed _ fun _ => ⟨committed, rfl⟩

theorem commitInvocationTransition_atomic (rules : ContractRules)
    (expected record : ControlPlaneOperationRecord) (event : AuditEvent) :
    Atomic (commitInvocationTransition rules expected record event) := by
  unfold commitInvocationTransition
  refine (readOnly_lift _).bind_atomic fun _ => readOnly_get.bind_atomic fun store =>
    Atomic.ite (readOnly_pure _).atomic (Atomic.ite (readOnly_throw _).atomic ?_)
  exact publish_return_atomic record event store.snapshotState _ fun s => ⟨s.snapshotState, rfl⟩

theorem commitTerminalOperation_atomic (rules : ContractRules) (snapshot : RuntimeSnapshot)
    (record : ControlPlaneOperationRecord) (event : Option AuditEvent) (mode : TerminalCommitMode)
    (revision : ℤ) :
    Atomic (commitTerminalOperation rules snapshot record event mode revision) := by
  unfold commitTerminalOperation
  refine (readOnly_lift _).bind_atomic fun _ => (readOnly_lift _).bind_atomic fun event =>
    (readOnly_lift _).bind_atomic fun _ => readOnly_get.bind_atomic fun store =>
    (readOnly_lift _).bind_atomic fun changed => Atomic.ite ?_ ?_
  · exact (validateRetry_readOnly _ _ _ _ _ _).atomic
  · exact (requireExpectedRevision_readOnly revision).bind_atomic fun _ =>
      (readOnly_lift _).bind_atomic fun _ => (readOnly_lift _).bind_atomic fun committed =>
      publish_return_atomic record event committed _ fun _ => ⟨committed, rfl⟩

theorem perform_atomic (rules : ContractRules) (op : StoreOp) : Atomic (perform rules op) := by
  cases op with
  | claimRecord record legacy blocked => exact (claimRecord_atomic _ _ _ _).map _
  | saveRecord record => exact (saveRecordLocked_atomic _ _).map _
  | saveSnapshot snapshot revision => exact (saveSnapshot_atomic _ _ _).map _
  | commitParticipantTransition heads revision snapshot record event =>
    exact (commitParticipantTransition_atomic _ _ _ _ _ _).map _
  | commitInvocationTransition expected record event =>
    exact (commitInvocationTransition_atomic _ _ _ _).map _
  | commitTerminalOperation snapshot record event mode revision =>
    exact (commitTerminalOperation_atomic _ _ _ _ _ _).map _
  | appendAudit event => exact (atomic_of_ok fun s => ⟨(), rfl⟩ : Atomic (appendAudit event)).map _
  | stopEffectAdmission event =>
    have h : Atomic (stopEffectAdmission event) := by
      unfold stopEffectAdmission
      refine readOnly_get.bind_atomic fun store => Atomic.ite ?_ (readOnly_pure _).atomic
      exact atomic_of_ok fun s => ⟨(), rfl⟩
    exact h.map _

theorem step_of_refused {op : StoreOp} (h : ¬ Accepts rules s op) : step rules s op = s := by
  unfold Accepts at h
  unfold step
  cases hexec : exec (perform rules op) s with
  | mk r t =>
    cases r with
    | error e => exact perform_atomic rules op s e t hexec
    | ok answer =>
      rw [hexec] at h
      exact absurd ⟨answer, rfl⟩ h

/-! ## Terminal publishing -/

/-- The state that a terminal commit publishes: the sealed snapshot under the
next revision, or the state that the store has, which the given snapshot equals. -/
def TerminalState (rules : ContractRules) (s : MemoryStore) (snapshot : RuntimeSnapshot) :
    TerminalCommitMode → SnapshotState → Prop
  | .snapshotBearing, committed => rules.sealHistories snapshot = .ok committed.snapshot ∧
      committed.revision = s.snapshotState.revision + 1
  | .operationOnly, committed => committed = s.snapshotState ∧
      s.snapshotState.snapshot.pyEq snapshot = true

/-- A terminal commit publishes its record, its audit event and its snapshot
state in one step, or finds all three in the store and writes nothing. -/
inductive PublishedTogether (rules : ContractRules) (snapshot : RuntimeSnapshot)
    (record : ControlPlaneOperationRecord) (event : AuditEvent) (mode : TerminalCommitMode)
    (committed : SnapshotState) (s t : MemoryStore) : Prop
  | published (idempotency : Dict IdempotencyClaimIdentity String)
      (hclaims : updatedIdempotency s record = .ok idempotency)
      (hstate : TerminalState rules s snapshot mode committed)
      (ht : t = s.published record event committed idempotency)
  | visible (hrecord : storedEq (s.records.get? record.receipt.operationId) record = true)
      (haudit : auditMatches s.audit record event = true)
      (hsnapshot : s.snapshotState.snapshot.pyEq snapshot = true)
      (hstate : committed = s.snapshotState) (ht : t = s)

variable {snapshot : RuntimeSnapshot} {mode : TerminalCommitMode}

theorem validateRetry_ok {record : ControlPlaneOperationRecord}
    {event : AuditEvent} {revision : ℤ} {label : String} {answer : SnapshotState}
    (h : exec (validateRetry snapshot record event mode revision label) s = (.ok answer, t)) :
    s.snapshotState.snapshot.pyEq snapshot = true ∧ auditMatches s.audit record event = true ∧
      answer = s.snapshotState ∧ t = s := by
  unfold validateRetry at h
  rw [exec_get_bind, exec_check_bind_ok_iff, exec_check_bind_ok_iff, exec_check_bind_ok_iff,
    exec_pure_ok_iff, refuseIf_eq_ok_iff, refuseIf_eq_ok_iff, Bool.not_eq_false,
    Bool.not_eq_false] at h
  exact h.2

theorem terminalState_of_ok {committed : SnapshotState}
    (hmode : ¬ (mode = .operationOnly ∧ s.snapshotState.snapshot.pyEq snapshot = false))
    (h : terminalSnapshot rules s snapshot mode s.snapshotState.revision = .ok committed) :
    TerminalState rules s snapshot mode committed := by
  cases mode with
  | operationOnly =>
    cases h
    exact ⟨rfl, by simpa using hmode⟩
  | snapshotBearing =>
    unfold terminalSnapshot at h
    rw [bind_eq_ok_iff] at h
    obtain ⟨next, hnext, hsealed⟩ := h
    obtain ⟨hseal, hrevision⟩ := sealedState_ok hsealed
    refine ⟨hseal, ?_⟩
    rw [hrevision, nextSnapshotRevision_ok hnext]

theorem commitTerminalOperation_together {record : ControlPlaneOperationRecord}
    {given : Option AuditEvent} {revision : ℤ} {answer : SnapshotState}
    (h : exec (commitTerminalOperation rules snapshot record given mode revision) s =
      (.ok answer, t)) : ∃ event, terminalEvent rules record given = .ok event ∧
      PublishedTogether rules snapshot record event mode answer s t := by
  obtain ⟨_, event, hevent, _, ⟨htransition, hvalidate⟩ | ⟨_, _, hrevision, hmode, hterminal,
    idempotency, hclaims, ht⟩⟩ :=
    (commitTerminalOperation_ok_iff rules snapshot record given mode revision answer s t).1 h
  · have hrecord := storedEq_of_transition (requireTerminalOperationTransition_ok htransition).2
    obtain ⟨hsnapshot, haudit, hanswer, ht⟩ := validateRetry_ok hvalidate
    exact ⟨event, hevent, .visible hrecord haudit hsnapshot hanswer ht⟩
  · rw [← hrevision] at hterminal
    exact ⟨event, hevent, .published idempotency hclaims (terminalState_of_ok hmode hterminal) ht⟩

/-- An operation that raises leaves the whole store as it was, and an accepted
terminal commit shows its record, its audit event and its snapshot together. -/
theorem refusals_keep_and_terminals_publish_together (rules : ContractRules) (s : MemoryStore) :
    (∀ op error t, exec (perform rules op) s = (.error error, t) → t = s) ∧
    (∀ snapshot record given mode revision answer t,
      exec (commitTerminalOperation rules snapshot record given mode revision) s =
          (.ok answer, t) →
        ∃ event, terminalEvent rules record given = .ok event ∧
          PublishedTogether rules snapshot record event mode answer s t) := by
  refine ⟨fun op error t h => perform_atomic rules op s error t h, ?_⟩
  intro snapshot record given mode revision answer t h
  exact commitTerminalOperation_together h

end MemoryStore
end Raes.Store
