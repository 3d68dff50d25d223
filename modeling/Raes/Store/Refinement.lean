import Raes.Store.Agreement

/-!
# The two stores match

The local store and the in-memory store, presented with the same operations,
accept and refuse alike and report the same state.  The operations carry values
that the durable codec restores and meet no claim of an earlier build, and they
stay clear of the inject checks that only one of the stores makes.
-/

namespace Raes.Store

open PyError Stateful
open LocalStore (carried Reloadable InjectChecked Upserts Publishes Replays)
open MemoryStore (updatedIdempotency)

variable {rules : ContractRules} {codec : DurableCodec}

def carriedSnapshot : StoreOp → Option RuntimeSnapshot
  | .saveSnapshot snapshot _ => some snapshot
  | .commitParticipantTransition _ _ snapshot _ _ => some snapshot
  | .commitTerminalOperation snapshot _ _ _ _ => some snapshot
  | _ => none

def carriedEvent (rules : ContractRules) : StoreOp → Option AuditEvent
  | .commitParticipantTransition _ _ _ _ event => some event
  | .commitInvocationTransition _ _ event => some event
  | .commitTerminalOperation _ record event _ _ => (terminalEvent rules record event).toOption
  | .appendAudit event => some event
  | .stopEffectAdmission event => some event
  | _ => none

/-- An operation that the two stores share: what it carries is portable, no
earlier build holds an opaque claim in its way, its stored history replays, and
an occurrence that a participant transition creates passes the inject check. -/
structure Shared (rules : ContractRules) (codec : DurableCodec) (l : LocalStore) (op : StoreOp) :
    Prop where
  reloadable : Reloadable rules codec l op
  record : ∀ record, carried op = some record → PortableRecord codec record
  snapshot : ∀ snapshot, carriedSnapshot op = some snapshot →
    PortableSnapshot codec rules (l.snapshot.map SnapshotRow.rows) snapshot
  event : ∀ event, carriedEvent rules op = some event → PortableEvent codec event
  unclaimed : ∀ record, carried op = some record → record.idempotencyKey ≠ "" →
    ∀ holder ∈ l.opaqueClaimant record.receipt.context, holder = record.receipt.operationId
  occurrence : ∀ heads revision snapshot record event,
    op = .commitParticipantTransition heads revision snapshot record event →
    record.injectOccurrence.isSome = true →
    LocalStore.loadRecord codec l record.receipt.operationId = .ok none →
    ∀ loaded, LocalStore.loadRecords rules codec l = .ok loaded →
      requireInjectClaim rules record loaded (revision + 1) = .ok ()

namespace Agrees

variable {l : LocalStore} {m : MemoryStore}

/-! ## Upserts -/

section

variable (h : Agrees rules codec l m)
include h

variable {record : ControlPlaneOperationRecord}

theorem upserts_forth (hportable : PortableRecord codec record)
    (hunclaimed : record.idempotencyKey ≠ "" →
      ∀ holder ∈ l.opaqueClaimant record.receipt.context, holder = record.receipt.operationId)
    (hreplaces : Replaces rules (m.records.get? record.receipt.operationId) record)
    {row : OperationRow} (hupserts : Upserts rules codec l record row) :
    ∃ idempotency, updatedIdempotency m record = .ok idempotency ∧
      Agrees rules codec (l.upserted record row) (m.keep record idempotency) := by
  obtain ⟨idempotency, hclaims⟩ := (h.requireFreeClaim_iff record hunclaimed).1 hupserts.free
  obtain ⟨row', hrow⟩ := hportable.rowOf
  cases hupserts.written.symm.trans hrow.1
  exact ⟨idempotency, hclaims, h.kept hrow hreplaces hclaims⟩

theorem upserts_back (hportable : PortableRecord codec record)
    (hunclaimed : record.idempotencyKey ≠ "" →
      ∀ holder ∈ l.opaqueClaimant record.receipt.context, holder = record.receipt.operationId)
    (hchecked : InjectChecked rules codec l record)
    {idempotency : Dict IdempotencyClaimIdentity String}
    (hclaims : updatedIdempotency m record = .ok idempotency) :
    ∃ row, Upserts rules codec l record row := by
  obtain ⟨row, hrow⟩ := hportable.rowOf
  exact ⟨row, hchecked, (h.requireFreeClaim_iff record hunclaimed).2 ⟨idempotency, hclaims⟩, hrow.1⟩

theorem publishes_forth {event : AuditEvent} (hportable : PortableRecord codec record)
    (hevent : PortableEvent codec event) (hunclaimed : record.idempotencyKey ≠ "" →
      ∀ holder ∈ l.opaqueClaimant record.receipt.context, holder = record.receipt.operationId)
    (hreplaces : Replaces rules (m.records.get? record.receipt.operationId) record)
    {t : LocalStore} (hpublishes : Publishes rules codec l record event t) :
    ∃ idempotency, updatedIdempotency m record = .ok idempotency ∧
      Agrees rules codec t (m.published record event m.snapshotState idempotency) := by
  obtain ⟨row, audit, hupserts, haudit, rfl⟩ := hpublishes
  obtain ⟨idempotency, hclaims, hagrees⟩ :=
    h.upserts_forth hportable hunclaimed hreplaces hupserts
  obtain ⟨audit', hrow⟩ := hevent.auditRowOf
  cases haudit.symm.trans hrow.1
  exact ⟨idempotency, hclaims, hagrees.audited hrow⟩

theorem publishes_back {event : AuditEvent} (hportable : PortableRecord codec record)
    (hevent : PortableEvent codec event) (hunclaimed : record.idempotencyKey ≠ "" →
      ∀ holder ∈ l.opaqueClaimant record.receipt.context, holder = record.receipt.operationId)
    (hchecked : InjectChecked rules codec l record)
    {idempotency : Dict IdempotencyClaimIdentity String}
    (hclaims : updatedIdempotency m record = .ok idempotency) :
    ∃ t, Publishes rules codec l record event t := by
  obtain ⟨row, hupserts⟩ := h.upserts_back hportable hunclaimed hchecked hclaims
  obtain ⟨audit, hrow⟩ := hevent.auditRowOf
  exact ⟨_, row, audit, hupserts, hrow.1, rfl⟩

/-! ## Records -/

end

variable {record : ControlPlaneOperationRecord}

theorem requireInjectClaim_of_stored (h : Agrees rules codec l m)
    {existing : ControlPlaneOperationRecord}
    (hstored : m.records.get? record.receipt.operationId = some existing) (revision : ℤ) :
    requireInjectClaim rules record m.records.values revision = .ok () := by
  refine (requireInjectClaim_ok_iff ..).2 (Or.inl ⟨existing, ?_, h.holds.ids _ existing hstored⟩)
  exact Dict.mem_values_iff.2 ⟨_, hstored⟩

theorem stored_of_retry (h : requireOperationRecordTransition rules
    (m.records.get? record.receipt.operationId) record = .ok false) :
    ∃ existing, m.records.get? record.receipt.operationId = some existing := by
  have hstored := storedEq_of_transition h
  cases hget : m.records.get? record.receipt.operationId with
  | none =>
    rw [hget] at hstored
    cases hstored
  | some existing => exact ⟨existing, rfl⟩

section

variable (h : Agrees rules codec l m)
include h

theorem saveRecord_matches (hreplays : Replays rules codec l)
    (hop : Shared rules codec l (.saveRecord record)) :
    Matches (Agrees rules codec) (exec (LocalStore.saveRecord rules codec record) l)
      (exec (MemoryStore.saveRecordLocked rules record) m) := by
  have hhistory := h.history hreplays
  have hchecked := h.injectChecked_iff hhistory (hop.reloadable.delivery record rfl)
  have hportable := hop.record record rfl
  have hunclaimed := hop.unclaimed record rfl
  refine matches_of_ok ?_ ?_
  · intro _ t hexec
    obtain ⟨existing, hloaded, htransition⟩ := (LocalStore.saveRecord_ok_iff record).1 hexec
    cases (h.loadRecord _).symm.trans hloaded
    rcases htransition with ⟨htransition, rfl⟩ | ⟨htransition, row, hupserts, rfl⟩
    · obtain ⟨existing, hstored⟩ := stored_of_retry htransition
      exact ⟨(), m, (MemoryStore.saveRecordLocked_ok_iff ..).2
        ⟨h.requireInjectClaim_of_stored hstored _, Or.inl ⟨htransition, rfl⟩⟩, h⟩
    · obtain ⟨idempotency, hclaims, hagrees⟩ :=
        h.upserts_forth hportable hunclaimed (replaces_of_transition htransition) hupserts
      exact ⟨(), _, (MemoryStore.saveRecordLocked_ok_iff ..).2
        ⟨hchecked.1 hupserts.checked, Or.inr ⟨htransition, idempotency, hclaims, rfl⟩⟩, hagrees⟩
  · intro _ t hexec
    obtain ⟨hclaim, ⟨htransition, _⟩ | ⟨htransition, idempotency, hclaims, _⟩⟩ :=
      (MemoryStore.saveRecordLocked_ok_iff ..).1 hexec
    · exact ⟨(), l, (LocalStore.saveRecord_ok_iff record).2
        ⟨_, h.loadRecord _, Or.inl ⟨htransition, rfl⟩⟩⟩
    · obtain ⟨row, hupserts⟩ := h.upserts_back hportable hunclaimed (hchecked.2 hclaim) hclaims
      exact ⟨(), _, (LocalStore.saveRecord_ok_iff record).2
        ⟨_, h.loadRecord _, Or.inr ⟨htransition, row, hupserts, rfl⟩⟩⟩

theorem claimRecord_matches (hreplays : Replays rules codec l)
    {legacy : String} {blocked : Option NewClaimBlock}
    (hop : Shared rules codec l (.claimRecord record legacy blocked)) :
    Matches (Agrees rules codec) (exec (LocalStore.claimRecord rules codec record legacy blocked) l)
      (exec (MemoryStore.claimRecord rules record legacy blocked) m) := by
  have hhistory := h.history hreplays
  have hchecked := h.injectChecked_iff hhistory (hop.reloadable.delivery record rfl)
  have hportable := hop.record record rfl
  have hunclaimed := hop.unclaimed record rfl
  refine matches_of_ok ?_ ?_
  · intro answer t hexec
    obtain ⟨hkey, ⟨hincumbent, hreplay, rfl⟩ | ⟨hincumbent, hblocked, hinject, hadmitted, existing,
      hloaded, htransition⟩⟩ := (LocalStore.claimRecord_ok_iff ..).1 hexec
    · have hsame := Except.ok.inj ((h.incumbent record).symm.trans hincumbent)
      exact ⟨answer, m, (MemoryStore.claimRecord_ok_iff ..).2 ⟨hkey, Or.inl ⟨hsame, hreplay, rfl⟩⟩, h⟩
    have hnone := Except.ok.inj ((h.incumbent record).symm.trans hincumbent)
    have hclaim := hchecked.1 hinject
    have hadmits := (h.requireClaimAdmitted_iff record).1 hadmitted
    cases (h.loadRecord _).symm.trans hloaded
    rcases htransition with ⟨htransition, _, rfl⟩ | ⟨htransition, _, row, hupserts, rfl⟩
    · have hsave := (MemoryStore.saveRecordLocked_ok_iff rules record m m).2
        ⟨hclaim, Or.inl ⟨htransition, rfl⟩⟩
      exact ⟨record, m, (MemoryStore.claimRecord_ok_iff ..).2
        ⟨hkey, Or.inr ⟨hnone, rfl, hblocked, hclaim, hadmits, hsave⟩⟩, h⟩
    · obtain ⟨idempotency, hclaims, hagrees⟩ :=
        h.upserts_forth hportable hunclaimed (replaces_of_transition htransition) hupserts
      have hsave := (MemoryStore.saveRecordLocked_ok_iff rules record m _).2
        ⟨hclaim, Or.inr ⟨htransition, idempotency, hclaims, rfl⟩⟩
      exact ⟨record, _, (MemoryStore.claimRecord_ok_iff ..).2
        ⟨hkey, Or.inr ⟨hnone, rfl, hblocked, hclaim, hadmits, hsave⟩⟩, hagrees⟩
  · intro answer t hexec
    obtain ⟨hkey, ⟨hincumbent, hreplay, _⟩ | ⟨hincumbent, _, hblocked, hclaim, hadmitted, hsave⟩⟩ :=
      (MemoryStore.claimRecord_ok_iff ..).1 hexec
    · have hsame := (h.incumbent record).trans (congrArg Except.ok hincumbent)
      exact ⟨answer, l, (LocalStore.claimRecord_ok_iff ..).2
        ⟨hkey, Or.inl ⟨hsame, hreplay, rfl⟩⟩⟩
    have hnone := (h.incumbent record).trans (congrArg Except.ok hincumbent)
    have hinject := hchecked.2 hclaim
    have hadmits := (h.requireClaimAdmitted_iff record).2 hadmitted
    obtain ⟨_, ⟨htransition, _⟩ | ⟨htransition, idempotency, hclaims, _⟩⟩ :=
      (MemoryStore.saveRecordLocked_ok_iff ..).1 hsave
    · exact ⟨_, l, (LocalStore.claimRecord_ok_iff ..).2
        ⟨hkey, Or.inr ⟨hnone, hblocked, hinject, hadmits, _, h.loadRecord _,
          Or.inl ⟨htransition, rfl, rfl⟩⟩⟩⟩
    · obtain ⟨row, hupserts⟩ := h.upserts_back hportable hunclaimed hinject hclaims
      exact ⟨_, _, (LocalStore.claimRecord_ok_iff ..).2
        ⟨hkey, Or.inr ⟨hnone, hblocked, hinject, hadmits, _, h.loadRecord _,
          Or.inr ⟨htransition, rfl, row, hupserts, rfl⟩⟩⟩⟩

/-! ## Snapshots and commits -/

variable {snapshot : RuntimeSnapshot}

theorem saveSnapshot_matches {revision : ℤ} (hop : Shared rules codec l
    (.saveSnapshot snapshot revision)) :
    Matches (Agrees rules codec) (exec (LocalStore.saveSnapshot rules codec snapshot revision) l)
      (exec (MemoryStore.saveSnapshot rules snapshot revision) m) := by
  have hportable := hop.snapshot snapshot rfl
  refine matches_of_ok ?_ ?_
  · intro answer t hexec
    obtain ⟨hauto, row, hcommit, rfl⟩ := (LocalStore.saveSnapshot_ok_iff ..).1 hexec
    obtain ⟨hrevision, hsealed, hrow⟩ := h.snapshotCommit_forth hportable hcommit
    exact ⟨answer, _, (MemoryStore.saveSnapshot_ok_iff ..).2
      ⟨hauto, hcommit.valid, hrevision, hsealed, rfl⟩, h.withSnapshot hcommit.answered hrow⟩
  · intro answer t hexec
    obtain ⟨hauto, hvalid, hrevision, hsealed, rfl⟩ := (MemoryStore.saveSnapshot_ok_iff ..).1 hexec
    obtain ⟨row, hcommit⟩ := h.snapshotCommit_back hportable hvalid hrevision hsealed
    exact ⟨answer, _, (LocalStore.saveSnapshot_ok_iff ..).2 ⟨hauto, row, hcommit, rfl⟩⟩

/-- An occurrence that a participant transition creates passes the inject check,
which runs after the snapshot row is written. -/
theorem injectChecked_withSnapshot (hhistory : ClaimHistory rules m.records.values)
    {heads : ObservedHeads} {revision : ℤ} {event : AuditEvent} (hop : Shared rules codec l
      (.commitParticipantTransition heads revision snapshot record event))
    {row : SnapshotRow} (hrevision : row.revision = revision + 1) :
    InjectChecked rules codec (l.withSnapshot row) record := by
  cases hstored : m.records.get? record.receipt.operationId with
  | some existing => exact h.injectChecked_of_stored hhistory rfl hstored
  | none =>
    intro hoccurrence
    have hloaded := h.loadRecord record.receipt.operationId
    rw [hstored] at hloaded
    obtain ⟨loaded, hrecords, _⟩ := h.holds.loadRecords hhistory
    refine ⟨loaded, hrecords, ?_⟩
    show requireInjectClaim rules record loaded row.revision = .ok ()
    rw [hrevision]
    exact hop.occurrence heads revision snapshot record event rfl hoccurrence hloaded loaded
      hrecords

theorem commitParticipantTransition_matches (hreplays : Replays rules codec l)
    {heads : ObservedHeads} {revision : ℤ} {event : AuditEvent} (hop : Shared rules codec l
      (.commitParticipantTransition heads revision snapshot record event)) :
    Matches (Agrees rules codec)
      (exec (LocalStore.commitParticipantTransition rules codec heads revision snapshot record
        event) l)
      (exec (MemoryStore.commitParticipantTransition rules heads revision snapshot record
        event) m) := by
  have hhistory := h.history hreplays
  have hsnapshot := hop.snapshot snapshot rfl
  have hportable := hop.record record rfl
  have hevent := hop.event event rfl
  refine matches_of_ok ?_ ?_
  · intro answer t hexec
    obtain ⟨hauto, existing, hloaded, hcommit⟩ :=
      (LocalStore.commitParticipantTransition_ok_iff ..).1 hexec
    cases (h.loadRecord _).symm.trans hloaded
    rcases hcommit with ⟨hretry, haudit, hmatches⟩ | ⟨hnew, ⟨current, hcurrent, hheads⟩,
      htransition, haudit, row, hcommit, hpublishes⟩
    · obtain ⟨hretries, rfl, rfl⟩ := (h.requireRetry_ok_iff hsnapshot.2.1 ..).1 hmatches
      have hvalidates := (validateRetry_ok_iff m m snapshot record event .snapshotBearing revision
        "participant transition" m.snapshotState).2 ⟨hretries, rfl, rfl⟩
      exact ⟨_, m, (MemoryStore.commitParticipantTransition_ok_iff ..).2
        ⟨hauto, Or.inl ⟨hretry, haudit, hvalidates⟩⟩, h⟩
    · cases h.state.symm.trans hcurrent
      obtain ⟨hrevision, hsealed, hrow⟩ := h.snapshotCommit_forth hsnapshot hcommit
      obtain ⟨idempotency, hclaims, hagrees⟩ :=
        (h.withSnapshot hcommit.answered hrow).publishes_forth hportable hevent
          (hop.unclaimed record rfl) (replaces_of_transition htransition) hpublishes
      exact ⟨answer, _, (MemoryStore.commitParticipantTransition_ok_iff ..).2
        ⟨hauto, Or.inr ⟨hnew, hcommit.valid, hrevision, hheads, htransition, haudit, hsealed,
          idempotency, hclaims, rfl⟩⟩, hagrees⟩
  · intro answer t hexec
    obtain ⟨hauto, ⟨hretry, haudit, hvalidates⟩ | ⟨hnew, hvalid, hrevision, hheads, htransition,
      haudit, hsealed, idempotency, hclaims, _⟩⟩ :=
      (MemoryStore.commitParticipantTransition_ok_iff ..).1 hexec
    · obtain ⟨hmatches, rfl, _⟩ := (validateRetry_ok_iff ..).1 hvalidates
      have hretries := (h.requireRetry_ok_iff hsnapshot.2.1 record event .snapshotBearing revision
        "participant transition" m.snapshotState l).2 ⟨hmatches, rfl, rfl⟩
      exact ⟨_, l, (LocalStore.commitParticipantTransition_ok_iff ..).2
        ⟨hauto, _, h.loadRecord _, Or.inl ⟨hretry, haudit, hretries⟩⟩⟩
    · obtain ⟨row, hcommit⟩ := h.snapshotCommit_back hsnapshot hvalid hrevision hsealed
      obtain ⟨_, _, hrow⟩ := h.snapshotCommit_forth hsnapshot hcommit
      have hchecked := h.injectChecked_withSnapshot hhistory hop (nextSnapshotRevision_ok hcommit.next)
      obtain ⟨u, hpublishes⟩ := (h.withSnapshot hcommit.answered hrow).publishes_back hportable
        hevent (hop.unclaimed record rfl) hchecked hclaims
      exact ⟨answer, u, (LocalStore.commitParticipantTransition_ok_iff ..).2
        ⟨hauto, _, h.loadRecord _, Or.inr ⟨hnew, ⟨_, h.state, hheads⟩, htransition, haudit, row,
          hcommit, hpublishes⟩⟩⟩

end

theorem auditsOfRepeated (h : Agrees rules codec l m) (current : Option ControlPlaneOperationRecord)
    (record : ControlPlaneOperationRecord) :
    ∃ audits, LocalStore.auditsOfRepeated codec l current record = .ok audits ∧ ∀ event,
      (storedEq current record && audits.any fun item => AuditEvent.pyEq item event) =
        (storedEq current record && m.audit.any fun item => item.pyEq event) := by
  unfold LocalStore.auditsOfRepeated
  cases storedEq current record with
  | true => exact ⟨m.audit, by rw [if_pos rfl, h.loadAudits], fun _ => rfl⟩
  | false => exact ⟨[], rfl, fun _ => rfl⟩

theorem commitInvocationTransition_matches (h : Agrees rules codec l m)
    (hreplays : Replays rules codec l) {expected : ControlPlaneOperationRecord}
    {event : AuditEvent}
    (hop : Shared rules codec l (.commitInvocationTransition expected record event)) :
    Matches (Agrees rules codec)
      (exec (LocalStore.commitInvocationTransition rules codec expected record event) l)
      (exec (MemoryStore.commitInvocationTransition rules expected record event) m) := by
  have hhistory := h.history hreplays
  have hportable := hop.record record rfl
  have hevent := hop.event event rfl
  have hunclaimed := hop.unclaimed record rfl
  obtain ⟨audits, haudits, hsameAudits⟩ :=
    h.auditsOfRepeated (m.records.get? expected.receipt.operationId) record
  -- The cut keeps the receipt, so the record takes the place of the expected one.
  have hstored : requireSupervisionCut rules expected record event = .ok () →
      storedEq (m.records.get? expected.receipt.operationId) expected = true →
      ∃ existing, m.records.get? record.receipt.operationId = some existing ∧
        Replaces rules (some existing) record := by
    intro hcut hcurrent
    have hsame := (requireSameOperationIdentity_ok (requireSupervisionCut_ok hcut).1).2.2.2.2
    rw [← hsame.receipt]
    cases hget : m.records.get? expected.receipt.operationId with
    | none =>
      rw [hget] at hcurrent
      cases hcurrent
    | some existing =>
      rw [hget] at hcurrent
      exact ⟨existing, rfl, .supervise hcurrent hcut⟩
  refine matches_of_ok ?_ ?_
  · intro answer t hexec
    obtain ⟨hcut, current, hloaded, audits', haudits', hcommit⟩ :=
      (LocalStore.commitInvocationTransition_ok_iff ..).1 hexec
    cases (h.loadRecord _).symm.trans hloaded
    cases haudits.symm.trans haudits'
    rw [hsameAudits] at hcommit
    rcases hcommit with ⟨hretry, hstate, rfl⟩ | ⟨hnew, hcurrent, hpublishes, hstate⟩
    · exact ⟨_, m, (MemoryStore.commitInvocationTransition_ok_iff ..).2
        ⟨hcut, rfl, Or.inl ⟨hretry, rfl⟩⟩, h⟩
    · obtain ⟨existing, hget, hreplaces⟩ := hstored hcut hcurrent
      rw [← hget] at hreplaces
      obtain ⟨idempotency, hclaims, hagrees⟩ :=
        h.publishes_forth hportable hevent hunclaimed hreplaces hpublishes
      exact ⟨_, _, (MemoryStore.commitInvocationTransition_ok_iff ..).2
        ⟨hcut, rfl, Or.inr ⟨hnew, hcurrent, idempotency, hclaims, rfl⟩⟩, hagrees⟩
  · intro answer t hexec
    obtain ⟨hcut, _, ⟨hretry, _⟩ | ⟨hnew, hcurrent, idempotency, hclaims, _⟩⟩ :=
      (MemoryStore.commitInvocationTransition_ok_iff ..).1 hexec
    · rw [← hsameAudits] at hretry
      exact ⟨_, l, (LocalStore.commitInvocationTransition_ok_iff ..).2
        ⟨hcut, _, h.loadRecord _, audits, haudits, Or.inl ⟨hretry, h.state, rfl⟩⟩⟩
    · obtain ⟨existing, hget, hreplaces⟩ := hstored hcut hcurrent
      obtain ⟨u, hpublishes⟩ := h.publishes_back hportable hevent hunclaimed
        (h.injectChecked_of_stored hhistory rfl hget) hclaims
      rw [← hget] at hreplaces
      obtain ⟨_, _, hagrees⟩ := h.publishes_forth hportable hevent hunclaimed hreplaces hpublishes
      rw [← hsameAudits] at hnew
      exact ⟨_, u, (LocalStore.commitInvocationTransition_ok_iff ..).2
        ⟨hcut, _, h.loadRecord _, audits, haudits, Or.inr ⟨hnew, hcurrent, hpublishes,
          hagrees.state⟩⟩⟩

theorem stored_of_terminal {existing : Option ControlPlaneOperationRecord}
    (h : requireTerminalOperationTransition rules existing record = .ok true) :
    ∃ stored, existing = some stored := by
  obtain ⟨hterminal, hmoved⟩ := requireTerminalOperationTransition_ok h
  cases existing with
  | none =>
    rw [(requireOperationRecordTransition_new hmoved).2.2] at hterminal
    cases hterminal
  | some stored => exact ⟨stored, rfl⟩

section

variable (h : Agrees rules codec l m)
include h

theorem commitTerminalOperation_matches (hreplays : Replays rules codec l)
    {snapshot : RuntimeSnapshot} {given : Option AuditEvent}
    {mode : TerminalCommitMode} {revision : ℤ}
    (hop : Shared rules codec l (.commitTerminalOperation snapshot record given mode revision)) :
    Matches (Agrees rules codec)
      (exec (LocalStore.commitTerminalOperation rules codec snapshot record given mode revision) l)
      (exec (MemoryStore.commitTerminalOperation rules snapshot record given mode revision) m) := by
  have hhistory := h.history hreplays
  have hsnapshot := hop.snapshot snapshot rfl
  have hportable := hop.record record rfl
  have hunclaimed := hop.unclaimed record rfl
  have hevents : ∀ event, terminalEvent rules record given = .ok event →
      PortableEvent codec event := by
    intro event hevent
    refine hop.event event ?_
    show (terminalEvent rules record given).toOption = some event
    rw [hevent]
    rfl
  refine matches_of_ok ?_ ?_
  · intro answer t hexec
    obtain ⟨hauto, event, hevent, haudit, existing, hloaded, hcommit⟩ :=
      (LocalStore.commitTerminalOperation_ok_iff ..).1 hexec
    cases (h.loadRecord _).symm.trans hloaded
    have hportableEvent := hevents event hevent
    rcases hcommit with ⟨htransition, hmatches⟩ | ⟨htransition, hcommit⟩
    · obtain ⟨hretries, rfl, rfl⟩ := (h.requireRetry_ok_iff hsnapshot.2.1 ..).1 hmatches
      have hvalidates := (validateRetry_ok_iff m m snapshot record event mode revision
        "terminal operation" m.snapshotState).2 ⟨hretries, rfl, rfl⟩
      exact ⟨_, m, (MemoryStore.commitTerminalOperation_ok_iff ..).2
        ⟨hauto, event, hevent, haudit, Or.inl ⟨htransition, hvalidates⟩⟩, h⟩
    have hreplaces := replaces_of_transition (requireTerminalOperationTransition_ok htransition).2
    rcases hcommit with ⟨rfl, hvalid, hstate, hrevision, ⟨canonical, hcanonical, hsame⟩,
      hpublishes⟩ | ⟨rfl, row, hcommit, hpublishes⟩
    · cases h.state.symm.trans hstate
      cases hsnapshot.2.1.symm.trans hcanonical
      obtain ⟨idempotency, hclaims, hagrees⟩ :=
        h.publishes_forth hportable hportableEvent hunclaimed hreplaces hpublishes
      have hunchanged : ¬ (TerminalCommitMode.operationOnly = .operationOnly ∧
          m.snapshotState.snapshot.pyEq snapshot = false) := by
        rw [hsame]
        exact fun hchanged => Bool.true_eq_false_eq_False hchanged.2
      exact ⟨_, _, (MemoryStore.commitTerminalOperation_ok_iff ..).2
        ⟨hauto, event, hevent, haudit, Or.inr ⟨htransition, hvalid, hrevision, hunchanged, rfl,
          idempotency, hclaims, rfl⟩⟩, hagrees⟩
    · obtain ⟨hrevision, hsealed, hrow⟩ := h.snapshotCommit_forth hsnapshot hcommit
      obtain ⟨idempotency, hclaims, hagrees⟩ :=
        (h.withSnapshot hcommit.answered hrow).publishes_forth hportable hportableEvent
          hunclaimed hreplaces hpublishes
      have hterminal : MemoryStore.terminalSnapshot rules m snapshot .snapshotBearing revision =
          .ok answer := bind_eq_ok_iff.2 hsealed
      exact ⟨_, _, (MemoryStore.commitTerminalOperation_ok_iff ..).2
        ⟨hauto, event, hevent, haudit, Or.inr ⟨htransition, hcommit.valid, hrevision,
          fun hmode => (by cases hmode.1), hterminal, idempotency, hclaims, rfl⟩⟩, hagrees⟩
  · intro answer t hexec
    obtain ⟨hauto, event, hevent, haudit, hcommit⟩ :=
      (MemoryStore.commitTerminalOperation_ok_iff ..).1 hexec
    have hportableEvent := hevents event hevent
    rcases hcommit with ⟨htransition, hvalidates⟩ | ⟨htransition, hvalid, hrevision, hunchanged,
      hterminal, idempotency, hclaims, _⟩
    · obtain ⟨hmatches, rfl, _⟩ := (validateRetry_ok_iff ..).1 hvalidates
      have hretries := (h.requireRetry_ok_iff hsnapshot.2.1 record event mode revision
        "terminal operation" m.snapshotState l).2 ⟨hmatches, rfl, rfl⟩
      exact ⟨_, l, (LocalStore.commitTerminalOperation_ok_iff ..).2
        ⟨hauto, event, hevent, haudit, _, h.loadRecord _, Or.inl ⟨htransition, hretries⟩⟩⟩
    obtain ⟨existing, hstored⟩ := stored_of_terminal htransition
    have hchecked := h.injectChecked_of_stored hhistory rfl hstored
    cases mode with
    | operationOnly =>
      cases hterminal
      obtain ⟨u, hpublishes⟩ :=
        h.publishes_back hportable hportableEvent hunclaimed hchecked hclaims
      have hsame : m.snapshotState.snapshot.pyEq snapshot = true := by
        rw [← Bool.not_eq_false]
        exact fun hchanged => hunchanged ⟨rfl, hchanged⟩
      exact ⟨_, u, (LocalStore.commitTerminalOperation_ok_iff ..).2
        ⟨hauto, event, hevent, haudit, _, h.loadRecord _, Or.inr ⟨htransition, Or.inl
          ⟨rfl, hvalid, h.state, hrevision, ⟨snapshot, hsnapshot.2.1, hsame⟩, hpublishes⟩⟩⟩⟩
    | snapshotBearing =>
      obtain ⟨row, hcommit⟩ := h.snapshotCommit_back hsnapshot hvalid hrevision
        (bind_eq_ok_iff.1 hterminal)
      obtain ⟨_, _, hrow⟩ := h.snapshotCommit_forth hsnapshot hcommit
      obtain ⟨u, hpublishes⟩ := (h.withSnapshot hcommit.answered hrow).publishes_back hportable
        hportableEvent hunclaimed
        (h.injectChecked_of_stored hhistory rfl hstored) hclaims
      exact ⟨_, u, (LocalStore.commitTerminalOperation_ok_iff ..).2
        ⟨hauto, event, hevent, haudit, _, h.loadRecord _, Or.inr ⟨htransition, Or.inr
          ⟨rfl, row, hcommit, hpublishes⟩⟩⟩⟩

/-! ## Audit and effect stop -/

theorem appendAudit_matches {event : AuditEvent} (hevent : PortableEvent codec event) :
    Matches (Agrees rules codec) (exec (LocalStore.appendAudit codec event) l)
      (exec (MemoryStore.appendAudit event) m) := by
  obtain ⟨row, hrow⟩ := hevent.auditRowOf
  rw [(LocalStore.appendAudit_ok_iff event).2 ⟨row, hrow.1, rfl⟩]
  exact h.audited hrow

theorem stopEffectAdmission_matches {event : AuditEvent} (hevent : PortableEvent codec event) :
    Matches (Agrees rules codec) (exec (LocalStore.stopEffectAdmission codec event) l)
      (exec (MemoryStore.stopEffectAdmission event) m) := by
  obtain ⟨row, hrow⟩ := hevent.auditRowOf
  unfold MemoryStore.stopEffectAdmission
  rw [exec_get_bind, ← h.stopped]
  cases hstopped : l.effectAdmissionStopped with
  | true =>
    rw [(LocalStore.stopEffectAdmission_ok_iff event).2 (Or.inl ⟨hstopped, rfl⟩)]
    exact h
  | false =>
    rw [(LocalStore.stopEffectAdmission_ok_iff event).2 (Or.inr ⟨hstopped, row, hrow.1, rfl⟩)]
    have haudited := h.audited hrow
    have hconsistent := haudited.consistent
    exact ⟨haudited.rows, ⟨hconsistent.ids, hconsistent.claimed, hconsistent.claimant⟩,
      haudited.keyed, haudited.index, haudited.state, haudited.revision, haudited.audit, rfl⟩

/-! ## Runs -/

theorem perform_matches (hreplays : Replays rules codec l)
    {op : StoreOp} (hop : Shared rules codec l op) :
    Matches (Agrees rules codec) (exec (LocalStore.perform rules codec op) l)
      (exec (MemoryStore.perform rules op) m) := by
  cases op with
  | claimRecord record legacy blocked => exact (h.claimRecord_matches hreplays hop).map _ _
  | saveRecord record => exact (h.saveRecord_matches hreplays hop).map _ _
  | saveSnapshot snapshot revision => exact (h.saveSnapshot_matches hop).map _ _
  | commitParticipantTransition heads revision snapshot record event =>
    exact (h.commitParticipantTransition_matches hreplays hop).map _ _
  | commitInvocationTransition expected record event =>
    exact (h.commitInvocationTransition_matches hreplays hop).map _ _
  | commitTerminalOperation snapshot record event mode revision =>
    exact (h.commitTerminalOperation_matches hreplays hop).map _ _
  | appendAudit event => exact (h.appendAudit_matches (hop.event event rfl)).map _ _
  | stopEffectAdmission event =>
    exact (h.stopEffectAdmission_matches (hop.event event rfl)).map _ _

end

end Agrees

/-- The local store reports what the in-memory store reports: the same records
in key order, and the same snapshot and revision. -/
def SameReports (rules : ContractRules) (codec : DurableCodec) (l : LocalStore) (m : MemoryStore) :
    Prop :=
  (∃ loaded, LocalStore.loadRecords rules codec l = .ok loaded ∧
    loaded.Perm m.records.values) ∧
  MemoryStore.loadRecords rules m = .ok m.records ∧
  LocalStore.loadSnapshotState rules codec l = .ok m.snapshotState

theorem Agrees.sameReports {l : LocalStore} {m : MemoryStore} (h : Agrees rules codec l m)
    (hreplays : Replays rules codec l) : SameReports rules codec l m := by
  have hhistory := h.history hreplays
  refine ⟨h.holds.loadRecords hhistory, ?_, h.state⟩
  unfold MemoryStore.loadRecords requireInjectHistory
  rw [(requireClaimHistory_ok_iff rules _ conflictError).2 hhistory]
  rfl

theorem agrees_init {state : SnapshotState} (h : sealedState rules emptySnapshot 0 = .ok state) :
    Agrees rules codec LocalStore.init (MemoryStore.init state) where
  rows := Dict.related_empty
  consistent := MemoryStore.consistent_init state
  keyed := ⟨fun id record hrecord => (by cases hrecord), fun id record hrecord => (by cases hrecord)⟩
  index := ControlOperationIndex.indexes_empty
  state := h
  revision := (sealedState_ok h).2.symm
  audit := .nil
  stopped := rfl

open MemoryStore (plainRecord)
open LocalStore (plainCodec)

theorem shared_plain_claim :
    Shared .lax (plainCodec [plainRecord "a" "key" .accepted]) LocalStore.init
      (.claimRecord (plainRecord "a" "key" .accepted) "" none) := by
  have hportable : PortableRecord (plainCodec [plainRecord "a" "key" .accepted])
      (plainRecord "a" "key" .accepted) :=
    ⟨_, rfl, by decide +kernel, by decide +kernel⟩
  constructor
  · constructor
    · intro record hrecord
      cases hrecord
      exact ⟨_, hportable.readsBack⟩
    · intro record hrecord _ hdelivery
      cases hrecord
      cases hdelivery
    · intro _ _ _ hop
      cases hop
  · intro record hrecord
    cases hrecord
    exact hportable
  · intro _ hsnapshot
    cases hsnapshot
  · intro _ hevent
    cases hevent
  · intro record hrecord _ holder hholder
    cases hholder
  · intro _ _ _ _ _ hop
    cases hop

/-- An evaluation under a key that an earlier build derived from its request. -/
def legacyRecord : ControlPlaneOperationRecord :=
  { plainRecord "a" "participant-control:1" .accepted with legacyRequestCommitment := true }

def nested : ℕ → Json
  | 0 => .null
  | depth + 1 => .arr [nested depth]

/-- An evaluation whose result nests deeper than a durable value may. -/
def deepRecord : ControlPlaneOperationRecord :=
  { plainRecord "a" "" .accepted with resultPayload := some (nested 128) }

theorem local_refuses_beside_legacy :
    (exec (LocalStore.perform .lax (plainCodec [legacyRecord, plainRecord "b" "key" .accepted])
        (.saveRecord (plainRecord "b" "key" .accepted)))
      (Run.run (LocalStore.step .lax (plainCodec [legacyRecord, plainRecord "b" "key" .accepted]))
        LocalStore.init [.saveRecord legacyRecord])).1 = .error idempotencyClaimConflict := by
  decide +kernel

theorem memory_accepts_beside_legacy :
    (exec (MemoryStore.perform .lax (.saveRecord (plainRecord "b" "key" .accepted)))
      (Run.run (MemoryStore.step .lax) (MemoryStore.init ⟨emptySnapshot, 0⟩)
        [.saveRecord legacyRecord])).1 = .ok .done := by
  decide +kernel

theorem local_refuses_deep :
    (exec (LocalStore.perform .lax (plainCodec [deepRecord]) (.saveRecord deepRecord))
      LocalStore.init).1 =
      .error (valueError "durable value exceeds the durable nesting limit") := by
  decide +kernel

theorem memory_accepts_deep :
    (exec (MemoryStore.perform .lax (.saveRecord deepRecord))
      (MemoryStore.init ⟨emptySnapshot, 0⟩)).1 = .ok .done := by
  decide +kernel

end Raes.Store
