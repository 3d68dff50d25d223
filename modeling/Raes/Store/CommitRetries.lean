import Raes.Store.MemoryRuns

/-!
# Repeated terminal commits

A terminal commit is recognized as a repetition by the stored record, the snapshot
with its revision, and the one audit event of its operation and action.  Until the
next commit a repetition answers what the commit answered, unless something else
was written into the audit trail under the same operation and action.  At no time
does a repetition change the store.
-/

namespace Raes.Store

open PyError Stateful

/-- What the contract owners say about a value that does not change: sealing keeps
what a snapshot is equal to, and a tool claim is a continuation of itself. -/
structure ContractRules.KeepsValues (rules : ContractRules) : Prop where
  sealed : ∀ snapshot sealed, rules.sealHistories snapshot = .ok sealed →
    snapshot.pyEq snapshot = true → sealed.pyEq snapshot = true
  toolTransition : ∀ record binding, rules.deliveryToolBinding record = .ok binding →
    rules.deliveryToolTransition record record = .ok ()

theorem rewritesHistory_self {α : Type} (history : List α) : ¬ rewritesHistory history history := by
  intro h
  apply h
  rw [List.take_length]

theorem requireInvocationTransition_self (ledger : Option InvocationLedger) :
    requireInvocationTransition ledger ledger = .ok () := by
  cases ledger with
  | none => rfl
  | some ledger =>
    simp only [requireInvocationTransition, requireImmutableInvocationBinding,
      requireImmutableDeliveryBinding, requireMonotonicInvocationAuthority,
      requireAppendOnlyInvocationHistory, seq_eq_ok_iff, refuseIf_eq_ok_iff]
    simp [rewritesHistory_self]

variable {rules : ContractRules}

theorem requireSameOperationIdentity_self (hkeeps : rules.KeepsValues)
    {record : ControlPlaneOperationRecord} (hself : record.pyEq record = true)
    (hidentity : requireOperationRecordIdentity rules record = .ok ()) :
    requireSameOperationIdentity rules record record = .ok () := by
  have hpayload : payloadEq record.resultPayload record.resultPayload = true := by
    unfold ControlPlaneOperationRecord.pyEq at hself
    exact (Bool.and_eq_true_iff.mp hself).2
  have hinject : requireInjectTransition record record = .ok () := by
    simp only [requireInjectTransition, seq_eq_ok_iff, refuseIf_eq_ok_iff, hpayload]
    simp
  have hbindings := hidentity
  unfold requireOperationRecordIdentity at hbindings
  obtain ⟨-, hbindings⟩ := seq_eq_ok_iff.mp hbindings
  obtain ⟨-, hbindings⟩ := seq_eq_ok_iff.mp hbindings
  obtain ⟨-, hbindings⟩ := seq_eq_ok_iff.mp hbindings
  obtain ⟨-, hbindings⟩ := seq_eq_ok_iff.mp hbindings
  obtain ⟨invocation, hinvocation, hbindings⟩ := bind_eq_ok_iff.mp hbindings
  obtain ⟨tool, htool, -⟩ := bind_eq_ok_iff.mp hbindings
  have hdelivery : requireDeliveryInvocationTransition rules record record = .ok () := by
    unfold requireDeliveryInvocationTransition
    rw [hinvocation]
    exact (refuseIf_eq_ok_iff _ _ _).mpr (not_not_intro rfl)
  unfold requireSameOperationIdentity
  simp only [seq_eq_ok_iff, refuseIf_eq_ok_iff]
  refine ⟨hidentity, hidentity, hinject, hdelivery, hkeeps.toolTransition record tool htool, ?_,
    requireInvocationTransition_self _, ?_, ?_, ?_⟩ <;> simp

theorem requireTerminalOperationTransition_self (hkeeps : rules.KeepsValues)
    {record : ControlPlaneOperationRecord} (hself : record.pyEq record = true)
    (hterminal : isNonTerminal record.status.state = false)
    (hidentity : requireOperationRecordIdentity rules record = .ok ()) :
    requireTerminalOperationTransition rules (some record) record = .ok false := by
  have hsame := requireSameOperationIdentity_self hkeeps hself hidentity
  have htransition : requireOperationRecordTransition rules (some record) record = .ok false := by
    unfold requireOperationRecordTransition
    rw [hidentity]
    show (requireSameOperationIdentity rules record record >>= fun _ => _) = _
    rw [hsame]
    exact if_pos hself
  unfold requireTerminalOperationTransition
  rw [hterminal, htransition]
  rfl

/-- The arguments of one terminal commit. -/
structure TerminalCall where
  snapshot : RuntimeSnapshot
  record : ControlPlaneOperationRecord
  auditEvent : Option AuditEvent
  mode : TerminalCommitMode
  expectedRevision : ℤ

namespace TerminalCall

variable (call : TerminalCall)

def perform (rules : ContractRules) : MemoryStore.MemoryM SnapshotState :=
  MemoryStore.commitTerminalOperation rules call.snapshot call.record call.auditEvent call.mode
    call.expectedRevision

/-- Every argument is equal to itself, as Python compares it with the same object. -/
structure SelfEqual (call : TerminalCall) : Prop where
  snapshot : call.snapshot.pyEq call.snapshot = true
  record : call.record.pyEq call.record = true
  auditEvent : ∀ event ∈ call.auditEvent, event.pyEq event = true

/-- The events of the audit trail under the operation and the action of an event -/
def auditsOf (event : AuditEvent) (audit : List AuditEvent) : List AuditEvent :=
  audit.filter fun item =>
    item.operationId = call.record.receipt.operationId && item.action = event.action

theorem auditMatches_iff (event : AuditEvent) (audit : List AuditEvent) :
    auditMatches audit call.record event = true ↔
      ∃ found, call.auditsOf event audit = [found] ∧ found.pyEq event = true := by
  unfold auditMatches auditsOf
  split
  · rename_i found heq
    rw [heq]
    simp
  · rename_i hne
    constructor
    · intro h
      cases h
    · rintro ⟨found, hfound, -⟩
      exact absurd hfound (hne found)

theorem event_self {call : TerminalCall} (hself : call.SelfEqual) {event : AuditEvent}
    (h : terminalEvent rules call.record call.auditEvent = .ok event) :
    event.pyEq event = true := by
  cases hgiven : call.auditEvent with
  | some given =>
    rw [hgiven] at h
    cases h
    exact hself.auditEvent event hgiven
  | none =>
    rw [hgiven] at h
    obtain ⟨-, h⟩ := seq_eq_ok_iff.mp h
    cases h
    simp [AuditEvent.pyEq, Json.pyEq, Json.pyEqFields]

end TerminalCall

namespace MemoryStore

variable {s t u : MemoryStore} {call : TerminalCall} {event : AuditEvent} {answer : SnapshotState}

/-- What a store holds of a terminal commit until the next commit. -/
structure Holds (rules : ContractRules) (call : TerminalCall) (event : AuditEvent)
    (answer : SnapshotState) (u : MemoryStore) : Prop where
  record : ∃ stored, u.records.get? call.record.receipt.operationId = some stored ∧
    isNonTerminal stored.status.state = false ∧
    requireTerminalOperationTransition rules (some stored) call.record = .ok false
  state : u.snapshotState = answer
  audit : ∃ found ∈ call.auditsOf event u.audit, found.pyEq event = true

structure Repeats (rules : ContractRules) (call : TerminalCall) (event : AuditEvent)
    (answer : SnapshotState) : Prop where
  autonomous : rules.autonomousSnapshot call.snapshot = .ok ()
  event_eq : terminalEvent rules call.record call.auditEvent = .ok event
  bound : requireTerminalOperationAudit rules call.record event = .ok ()
  mode : requireTerminalRetryMode answer.revision call.expectedRevision call.mode = .ok ()
  snapshot : answer.snapshot.pyEq call.snapshot = true

theorem terminal_of_same {stored record : ControlPlaneOperationRecord}
    (h : requireTerminalOperationTransition rules (some stored) record = .ok false) :
    isNonTerminal stored.status.state = false := by
  obtain ⟨hterminal, htransition⟩ := requireTerminalOperationTransition_ok h
  obtain ⟨-, ⟨-, heq⟩ | ⟨hfalse, -⟩⟩ := requireOperationRecordTransition_existing htransition
  · rw [(sameIdentity_of_pyEq heq).2.1]
    exact hterminal
  · cases hfalse

theorem event_operation (h : requireTerminalOperationAudit rules call.record event = .ok ()) :
    event.operationId = call.record.receipt.operationId := by
  unfold requireTerminalOperationAudit at h
  obtain ⟨expected, hexpected, h⟩ := bind_eq_ok_iff.mp h
  rw [refuseIf_eq_ok_iff, Bool.not_eq_false] at h
  unfold terminalOperationAudit at hexpected
  obtain ⟨-, hexpected⟩ := seq_eq_ok_iff.mp hexpected
  cases hexpected
  unfold AuditEvent.pyEq at h
  rw [Bool.and_eq_true, decide_eq_true_eq] at h
  exact congrArg AuditEvent.operationId h.1

theorem holds_of_commit (hkeeps : rules.KeepsValues) (hself : call.SelfEqual)
    (h : exec (call.perform rules) s = (.ok answer, t)) :
    ∃ event, Holds rules call event answer t ∧ Repeats rules call event answer := by
  obtain ⟨hautonomous, event, hevent, haudit, ⟨htransition, hvalidate⟩ | ⟨htransition, -, hrevision, hmode,
    hterminal, idempotency, -, rfl⟩⟩ :=
    (commitTerminalOperation_ok_iff rules call.snapshot call.record call.auditEvent call.mode
      call.expectedRevision answer s t).1 h
  · -- The call was a repetition itself.
    refine ⟨event, ?_⟩
    obtain ⟨hsnapshot, haudits, hanswer, rfl⟩ := validateRetry_ok hvalidate
    obtain ⟨found, hfound, hequal⟩ := (call.auditMatches_iff event t.audit).mp haudits
    refine ⟨⟨?_, hanswer.symm, found, ?_, hequal⟩, hautonomous, hevent, haudit, ?_, ?_⟩
    · cases hstored : t.records.get? call.record.receipt.operationId with
      | none =>
        rw [hstored] at htransition
        have hnew := requireOperationRecordTransition_new
          (requireTerminalOperationTransition_ok htransition).2
        cases hnew.2.1
      | some stored =>
        rw [hstored] at htransition
        exact ⟨stored, rfl, terminal_of_same htransition, htransition⟩
    · rw [hfound]
      exact List.mem_singleton.mpr rfl
    · unfold validateRetry at hvalidate
      rw [exec_get_bind, exec_check_bind_ok_iff] at hvalidate
      rw [hanswer]
      exact hvalidate.1
    · rw [hanswer]
      exact hsnapshot
  · refine ⟨event, ⟨?_, rfl, event, ?_, call.event_self hself hevent⟩, ?_⟩
    · obtain ⟨hstate, hmoved⟩ := requireTerminalOperationTransition_ok htransition
      have hidentity : requireOperationRecordIdentity rules call.record = .ok () := by
        unfold requireOperationRecordTransition at hmoved
        exact (seq_eq_ok_iff.mp hmoved).1
      refine ⟨call.record, Dict.get?_set_self _ _ _, hstate, ?_⟩
      exact requireTerminalOperationTransition_self hkeeps hself.record hstate hidentity
    · refine List.mem_filter.mpr ⟨List.mem_append_right _ (List.mem_singleton.mpr rfl), ?_⟩
      rw [event_operation haudit]
      simp
    · rw [← hrevision] at hterminal
      have hpublished := terminalState_of_ok hmode hterminal
      cases hcall : call.mode with
      | operationOnly =>
        rw [hcall] at hpublished
        obtain ⟨rfl, hequal⟩ := hpublished
        refine ⟨hautonomous, hevent, haudit, ?_, hequal⟩
        rw [hcall, hrevision]
        exact (refuseIf_eq_ok_iff _ _ _).mpr (not_not_intro rfl)
      | snapshotBearing =>
        rw [hcall] at hpublished
        obtain ⟨hsealed, hnext⟩ := hpublished
        refine ⟨hautonomous, hevent, haudit, ?_, hkeeps.sealed _ _ hsealed hself.snapshot⟩
        rw [hcall, hnext, hrevision]
        exact (refuseIf_eq_ok_iff _ _ _).mpr (not_not_intro rfl)

def isCommit : StoreOp → Bool
  | .saveSnapshot .. | .commitParticipantTransition .. | .commitInvocationTransition ..
  | .commitTerminalOperation .. => true
  | .claimRecord .. | .saveRecord .. | .appendAudit .. | .stopEffectAdmission .. => false

/-- What an operation that is no commit can do: append audit events, or keep a new
or a legally moved record. -/
inductive PlainStep (rules : ContractRules) (s t : MemoryStore) : Prop
  | audited (records : t.records = s.records) (state : t.snapshotState = s.snapshotState)
      (audit : ∃ events, t.audit = s.audit ++ events)
  | kept (record : ControlPlaneOperationRecord)
      (transition : requireOperationRecordTransition rules
        (s.records.get? record.receipt.operationId) record = .ok true)
      (records : t.records = s.records.set record.receipt.operationId record)
      (state : t.snapshotState = s.snapshotState) (audit : t.audit = s.audit)

theorem PlainStep.refl (s : MemoryStore) : PlainStep rules s s :=
  .audited rfl rfl ⟨[], (List.append_nil _).symm⟩

theorem saveRecordLocked_plainStep {record : ControlPlaneOperationRecord}
    (h : exec (saveRecordLocked rules record) s = (.ok (), t)) : PlainStep rules s t := by
  obtain ⟨-, ⟨-, rfl⟩ | ⟨htransition, idempotency, -, rfl⟩⟩ :=
    (saveRecordLocked_ok_iff rules record s t).1 h
  · exact .refl t
  · exact .kept record htransition rfl rfl rfl

theorem step_plainStep (s : MemoryStore) {op : StoreOp} (hop : isCommit op = false) :
    PlainStep rules s (step rules s op) := by
  by_cases h : Accepts rules s op
  · obtain ⟨answer, hanswer⟩ := h
    have hexec : exec (perform rules op) s = (.ok answer, step rules s op) := by
      rw [← hanswer]
      rfl
    revert hexec
    generalize step rules s op = t
    intro hexec
    cases op with
    | claimRecord record legacy blocked =>
      obtain ⟨stored, hexec, -⟩ := exec_map_ok_iff.1 hexec
      obtain ⟨-, ⟨-, -, rfl⟩ | ⟨-, -, -, -, -, hsave⟩⟩ :=
        (claimRecord_ok_iff rules record stored legacy blocked s t).1 hexec
      · exact .refl t
      · exact saveRecordLocked_plainStep hsave
    | saveRecord record =>
      obtain ⟨_, hexec, -⟩ := exec_map_ok_iff.1 hexec
      exact saveRecordLocked_plainStep hexec
    | appendAudit event =>
      cases hexec
      exact .audited rfl rfl ⟨[event], rfl⟩
    | stopEffectAdmission event =>
      obtain ⟨_, hexec, -⟩ := exec_map_ok_iff.1 hexec
      unfold stopEffectAdmission at hexec
      rw [exec_get_bind] at hexec
      split at hexec
      · cases hexec
        exact .audited rfl rfl ⟨[event], rfl⟩
      · cases hexec
        exact .refl s
    | saveSnapshot snapshot revision => cases hop
    | commitParticipantTransition heads revision snapshot record event => cases hop
    | commitInvocationTransition expected record event => cases hop
    | commitTerminalOperation snapshot record event mode revision => cases hop
  · rw [step_of_refused h]
    exact .refl s

theorem Holds.plainStep (h : Holds rules call event answer s) (hstep : PlainStep rules s t) :
    Holds rules call event answer t := by
  obtain ⟨⟨stored, hstored, hterminal, hsame⟩, hstate, found, hfound, hequal⟩ := h
  cases hstep with
  | audited hrecords hsnapshot haudit =>
    obtain ⟨events, haudit⟩ := haudit
    refine ⟨⟨stored, ?_, hterminal, hsame⟩, ?_, found, ?_, hequal⟩
    · rw [hrecords]
      exact hstored
    · rw [hsnapshot]
      exact hstate
    · rw [haudit, TerminalCall.auditsOf, List.filter_append]
      exact List.mem_append_left _ hfound
  | kept record htransition hrecords hsnapshot haudit =>
    refine ⟨⟨stored, ?_, hterminal, hsame⟩, ?_, found, ?_, hequal⟩
    · -- A terminal record does not move, so another one was kept.
      rw [hrecords, Dict.get?_set]
      by_cases hid : call.record.receipt.operationId = record.receipt.operationId
      · rw [← hid, hstored] at htransition
        obtain ⟨-, ⟨hfalse, -⟩ | ⟨-, -, hlegal⟩⟩ :=
          requireOperationRecordTransition_existing htransition
        · cases hfalse
        · have hopen := nonTerminal_of_legalStep hlegal
          rw [hterminal] at hopen
          cases hopen
      · rw [if_neg hid]
        exact hstored
    · rw [hsnapshot]
      exact hstate
    · rw [haudit]
      exact hfound

theorem Holds.run (h : Holds rules call event answer s) {ops : List StoreOp}
    (hops : ∀ op ∈ ops, isCommit op = false) :
    Holds rules call event answer (Run.run (step rules) s ops) := by
  induction ops generalizing s with
  | nil => exact h
  | cons op rest ih =>
    have hop : isCommit op = false := hops op List.mem_cons_self
    exact ih (h.plainStep (step_plainStep s hop)) fun o ho => hops o (List.mem_cons_of_mem _ ho)

def retryAuditRefusal : PyError :=
  valueError "terminal operation retry does not match the durable audit"

/-- A repetition answers as the commit did exactly when the audit trail holds one
event of its operation and action. -/
theorem Holds.retry (h : Holds rules call event answer u)
    (hcall : Repeats rules call event answer) :
    exec (call.perform rules) u =
      (if (call.auditsOf event u.audit).length = 1 then .ok answer else .error retryAuditRefusal,
        u) := by
  obtain ⟨⟨stored, hstored, hterminal, hsame⟩, hstate, found, hfound, hequal⟩ := h
  have hmatches : auditMatches u.audit call.record event = true ↔
      (call.auditsOf event u.audit).length = 1 := by
    rw [call.auditMatches_iff]
    constructor
    · rintro ⟨only, honly, -⟩
      rw [honly]
      rfl
    · intro hone
      obtain ⟨only, honly⟩ := List.length_eq_one_iff.mp hone
      rw [honly, List.mem_singleton] at hfound
      exact ⟨only, honly, hfound ▸ hequal⟩
  have hsnapshot : ¬ u.snapshotState.snapshot.pyEq call.snapshot = false := by
    rw [hstate, hcall.snapshot]
    decide
  have hmode : requireTerminalRetryMode u.snapshotState.revision call.expectedRevision
      call.mode = .ok () := by
    rw [hstate]
    exact hcall.mode
  have hvalidate : exec (validateRetry call.snapshot call.record event call.mode
      call.expectedRevision "terminal operation") u =
        (if (call.auditsOf event u.audit).length = 1 then .ok answer
          else .error retryAuditRefusal, u) := by
    unfold validateRetry
    simp only [exec_bind, exec_get, exec_lift, hmode, refuseIf, if_neg hsnapshot]
    by_cases hone : (call.auditsOf event u.audit).length = 1
    · have hno : ¬ auditMatches u.audit call.record event = false := by
        rw [hmatches.mpr hone]
        decide
      rw [if_pos hone, if_neg hno, ← hstate]
      rfl
    · have hyes : auditMatches u.audit call.record event = false := by
        rw [← Bool.not_eq_true, hmatches]
        exact hone
      rw [if_neg hone, if_pos hyes]
      rfl
  unfold TerminalCall.perform commitTerminalOperation
  simp only [exec_bind, exec_get, exec_lift, hcall.autonomous, hcall.event_eq, hcall.bound, hstored,
    hsame, if_true]
  exact hvalidate

theorem terminal_unchanged {stored : ControlPlaneOperationRecord}
    (hstored : u.records.get? call.record.receipt.operationId = some stored)
    (hterminal : isNonTerminal stored.status.state = false) :
    (exec (call.perform rules) u).2 = u := by
  cases hexec : exec (call.perform rules) u with
  | mk result t =>
    cases result with
    | error e =>
      exact commitTerminalOperation_atomic rules call.snapshot call.record call.auditEvent
        call.mode call.expectedRevision u e t hexec
    | ok answer =>
      obtain ⟨-, event, -, -, ⟨-, hvalidate⟩ | ⟨htransition, -⟩⟩ :=
        (commitTerminalOperation_ok_iff rules call.snapshot call.record call.auditEvent call.mode
          call.expectedRevision answer u t).1 hexec
      · exact validateRetry_state hvalidate
      · rw [hstored] at htransition
        obtain ⟨-, ⟨hfalse, -⟩ | ⟨-, -, hlegal⟩⟩ := requireOperationRecordTransition_existing
          (requireTerminalOperationTransition_ok htransition).2
        · cases hfalse
        · have hopen := nonTerminal_of_legalStep hlegal
          rw [hterminal] at hopen
          cases hopen

/-- A terminal commit that succeeded, repeated until the next commit, answers the
same state and changes nothing when the audit trail holds no other event of its
operation and action, and is refused otherwise.  Repeated after any operations it
changes nothing. -/
theorem terminal_commit_repeats (hkeeps : rules.KeepsValues) (hself : call.SelfEqual)
    (h : exec (call.perform rules) s = (.ok answer, t)) :
    (∃ event, terminalEvent rules call.record call.auditEvent = .ok event ∧
      ∀ ops : List StoreOp, (∀ op ∈ ops, isCommit op = false) →
        exec (call.perform rules) (Run.run (step rules) t ops) =
          (if (call.auditsOf event (Run.run (step rules) t ops).audit).length = 1 then .ok answer
            else .error retryAuditRefusal, Run.run (step rules) t ops)) ∧
    ∀ ops : List StoreOp,
      (exec (call.perform rules) (Run.run (step rules) t ops)).2 = Run.run (step rules) t ops := by
  obtain ⟨event, hholds, hrepeats⟩ := holds_of_commit hkeeps hself h
  constructor
  · exact ⟨event, hrepeats.event_eq, fun ops hops => (hholds.run hops).retry hrepeats⟩
  · intro ops
    obtain ⟨stored, hstored, hterminal, -⟩ := hholds.record
    obtain ⟨after, hafter, hevolves⟩ := recordsEvolve_run rules t ops _ stored hstored
    apply terminal_unchanged hafter
    rw [hevolves.terminal hterminal]
    exact hterminal

def cancelCall : TerminalCall :=
  ⟨emptyState.snapshot, plainRecord "a" "" .cancelled, none, .snapshotBearing, 0⟩

/-- An audit event that another method recorded for the operation. -/
def earlierAudit : AuditEvent where
  timestamp := "t0"
  action := "evaluation_terminal"
  identity := "actor"
  allowed := false
  target := "target"
  operationId := "a"
  reason := "denied"
  details := .obj []

theorem lax_keepsValues : ContractRules.lax.KeepsValues := by
  constructor
  · intro snapshot sealed hsealed hself
    cases hsealed
    exact hself
  · intro record binding _
    rfl

theorem cancelCall_selfEqual : cancelCall.SelfEqual :=
  ⟨by decide +kernel, by decide +kernel, nofun⟩

theorem terminal_commit_repeats_cancel :
    ContractRules.lax.KeepsValues ∧ cancelCall.SelfEqual ∧
      (exec (cancelCall.perform .lax) (Run.run (step .lax) (init emptyState)
        [.saveRecord (plainRecord "a" "" .accepted)])).1 = .ok ⟨emptyState.snapshot, 1⟩ ∧
      ∀ ops : List StoreOp,
        (exec (cancelCall.perform .lax) (Run.run (step .lax) (exec (cancelCall.perform .lax)
          (Run.run (step .lax) (init emptyState)
            [.saveRecord (plainRecord "a" "" .accepted)])).2 ops)).2 =
          Run.run (step .lax) (exec (cancelCall.perform .lax) (Run.run (step .lax)
            (init emptyState) [.saveRecord (plainRecord "a" "" .accepted)])).2 ops := by
  have hanswer : (exec (cancelCall.perform .lax) (Run.run (step .lax) (init emptyState)
      [.saveRecord (plainRecord "a" "" .accepted)])).1 = .ok ⟨emptyState.snapshot, 1⟩ := by
    decide +kernel
  exact ⟨lax_keepsValues, cancelCall_selfEqual, hanswer,
    (terminal_commit_repeats lax_keepsValues cancelCall_selfEqual (Prod.ext hanswer rfl)).2⟩

/-- After an audit event of the same operation and action, a commit succeeds and its
repetition is refused. -/
theorem repetition_refused :
    ¬ ∀ (rules : ContractRules) (call : TerminalCall) (state : SnapshotState)
        (ops : List StoreOp) (answer : SnapshotState), rules.KeepsValues → call.SelfEqual →
      (exec (call.perform rules) (Run.run (step rules) (init state) ops)).1 = .ok answer →
      (exec (call.perform rules)
        (exec (call.perform rules) (Run.run (step rules) (init state) ops)).2).1 = .ok answer := by
  intro h
  have hanswer := h .lax cancelCall emptyState
    [.saveRecord (plainRecord "a" "" .accepted), .appendAudit earlierAudit]
    ⟨emptyState.snapshot, 1⟩ lax_keepsValues cancelCall_selfEqual (by decide +kernel)
  exact absurd hanswer (by decide +kernel)

end MemoryStore
end Raes.Store
