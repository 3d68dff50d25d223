import Raes.Store.MemoryEffects

/-!
# Runs of the in-memory store

What every run of the in-memory store keeps, with operations accepted or refused
in any order: the idempotency map names exactly the records that carry a key,
an operation only moves along legal transitions, and the revision counts the
commits that carry a snapshot.
-/

namespace Raes.Store

open PyError Stateful

/-- A later version of one operation: the same identity, a state reached by legal
transitions, and the same status once that is terminal. -/
structure Evolves (before after : ControlPlaneOperationRecord) : Prop where
  identity : SameIdentity before after
  path : Relation.ReflTransGen LegalStep before.status.state after.status.state
  terminal : isNonTerminal before.status.state = false → after.status = before.status

theorem Evolves.refl (record : ControlPlaneOperationRecord) : Evolves record record :=
  ⟨SameIdentity.refl record, .refl, fun _ => rfl⟩

theorem Evolves.trans {a b c : ControlPlaneOperationRecord} (h : Evolves a b)
    (h' : Evolves b c) : Evolves a c where
  identity := h.identity.trans h'.identity
  path := h.path.trans h'.path
  terminal := by
    intro hterminal
    have hb : b.status = a.status := h.terminal hterminal
    have hc : c.status = b.status := h'.terminal (by rw [hb]; exact hterminal)
    exact hc.trans hb

theorem Replaces.evolves {rules : ContractRules}
    {existing record : ControlPlaneOperationRecord} (h : Replaces rules (some existing) record) :
    Evolves existing record := by
  obtain ⟨hidentity, hlegal | hstatus⟩ := h.existing
  · refine ⟨hidentity, .single hlegal, fun hterminal => ?_⟩
    have hopen := nonTerminal_of_legalStep hlegal
    rw [hterminal] at hopen
    cases hopen
  · refine ⟨hidentity, ?_, fun _ => hstatus.symm⟩
    rw [hstatus]

theorem claimOf_eq_of_sameIdentity {a b : ControlPlaneOperationRecord} (h : SameIdentity a b) :
    claimOf a = claimOf b ∧ a.idempotencyKey = b.idempotencyKey := by
  have hkey : a.idempotencyKey = b.idempotencyKey := congrArg ClaimIdentity.idempotencyKey h.claim
  refine ⟨?_, hkey⟩
  unfold claimOf
  rw [h.receipt, hkey]

namespace MemoryStore

variable {rules : ContractRules} {s t u : MemoryStore}

structure Consistent (s : MemoryStore) : Prop where
  ids : ∀ id record, s.records.get? id = some record → record.receipt.operationId = id
  claimed : ∀ id record, s.records.get? id = some record → record.idempotencyKey ≠ "" →
    s.idempotency.get? (claimOf record) = some id
  claimant : ∀ claim id, s.idempotency.get? claim = some id →
    ∃ record, s.records.get? id = some record ∧ record.idempotencyKey ≠ "" ∧
      claimOf record = claim

theorem consistent_init (state : SnapshotState) : Consistent (init state) where
  ids := by
    intro id record h
    cases h
  claimed := by
    intro id record h
    cases h
  claimant := by
    intro claim id h
    cases h

theorem updatedIdempotency_ok_iff (s : MemoryStore) (record : ControlPlaneOperationRecord)
    (idempotency : Dict IdempotencyClaimIdentity String) :
    updatedIdempotency s record = .ok idempotency ↔
      (record.idempotencyKey = "" ∧ idempotency = s.idempotency) ∨
      (record.idempotencyKey ≠ "" ∧
        (∀ id, s.idempotency.get? (claimOf record) = some id →
          id = record.receipt.operationId) ∧
        idempotency = s.idempotency.set (claimOf record) record.receipt.operationId) := by
  unfold updatedIdempotency
  by_cases hkey : record.idempotencyKey = ""
  · rw [if_pos hkey]
    simp only [hkey, ne_eq, not_true_eq_false, false_and, or_false, true_and]
    exact ⟨fun h => (Except.ok.inj h).symm, fun h => congrArg Except.ok h.symm⟩
  · rw [if_neg hkey]
    simp only [hkey, ne_eq, not_false_eq_true, false_and, false_or, true_and]
    cases hheld : s.idempotency.get? (claimOf record) with
    | none =>
      simp only [reduceCtorEq, false_implies, implies_true, true_and]
      exact ⟨fun h => (Except.ok.inj h).symm, fun h => congrArg Except.ok h.symm⟩
    | some id =>
      simp only [bind_eq_ok_iff, refuseIf_eq_ok_iff, not_not, Option.some.injEq,
        forall_eq']
      constructor
      · intro h
        obtain ⟨_, hid, h⟩ := h
        exact ⟨hid, (Except.ok.inj h).symm⟩
      · intro h
        exact ⟨(), h.1, congrArg Except.ok h.2.symm⟩

/-- How an operation moves the records: not at all, or by keeping one record under
the claims updated for it. -/
inductive RecordStep (rules : ContractRules) (s t : MemoryStore) : Prop
  | unchanged (records : t.records = s.records) (idempotency : t.idempotency = s.idempotency)
  | kept (record : ControlPlaneOperationRecord)
      (replaces : Replaces rules (s.records.get? record.receipt.operationId) record)
      (claims : updatedIdempotency s record = .ok t.idempotency)
      (records : t.records = s.records.set record.receipt.operationId record)

/-! ## One step -/

theorem saveRecordLocked_recordStep {record : ControlPlaneOperationRecord}
    (h : exec (saveRecordLocked rules record) s = (.ok (), t)) :
    RecordStep rules s t ∧ t.snapshotState = s.snapshotState := by
  obtain ⟨_, ⟨_, rfl⟩ | ⟨htransition, idempotency, hclaims, rfl⟩⟩ :=
    (saveRecordLocked_ok_iff rules record s t).1 h
  · exact ⟨.unchanged rfl rfl, rfl⟩
  · exact ⟨.kept record (replaces_of_transition htransition) hclaims rfl, rfl⟩

variable {snapshot : RuntimeSnapshot} {answer : SnapshotState}

variable {record : ControlPlaneOperationRecord} {revision : ℤ} {mode : TerminalCommitMode}

variable {event : AuditEvent}

theorem validateRetry_state {label : String} (h : exec
    (validateRetry snapshot record event mode revision label) s = (.ok answer, t)) : t = s := by
  have hread := validateRetry_readOnly snapshot record event mode revision label s
  rw [h] at hread
  exact hread

theorem next_revision (h : ∃ next, nextSnapshotRevision revision = .ok next ∧
      sealedState rules snapshot next = .ok answer) : answer.revision = revision + 1 := by
  obtain ⟨next, hnext, hsealed⟩ := h
  rw [(sealedState_ok hsealed).2, nextSnapshotRevision_ok hnext]

theorem terminalSnapshot_ok (h : terminalSnapshot rules s snapshot mode revision = .ok answer) :
    (mode = .operationOnly ∧ answer = s.snapshotState) ∨
      (mode = .snapshotBearing ∧ answer.revision = revision + 1) := by
  cases mode with
  | operationOnly =>
    cases h
    exact Or.inl ⟨rfl, rfl⟩
  | snapshotBearing =>
    unfold terminalSnapshot at h
    rw [bind_eq_ok_iff] at h
    exact Or.inr ⟨rfl, next_revision h⟩

/-- The operation commits a snapshot when it is accepted for the first time. -/
def bearsSnapshot : StoreOp → Bool
  | .saveSnapshot .. => true
  | .commitParticipantTransition .. => true
  | .commitTerminalOperation _ _ _ mode _ => mode = .snapshotBearing
  | _ => false

def repeatsCommit (s : MemoryStore) : StoreOp → Bool
  | .commitParticipantTransition _ _ _ record _ =>
    storedEq (s.records.get? record.receipt.operationId) record
  | .commitTerminalOperation _ record _ _ _ =>
    storedEq (s.records.get? record.receipt.operationId) record
  | _ => false

def RevisionStep (s t : MemoryStore) (op : StoreOp) : Prop :=
  t.snapshotState.revision =
    if bearsSnapshot op && !repeatsCommit s op then s.snapshotState.revision + 1
    else s.snapshotState.revision

theorem claimRecord_step {record answer : ControlPlaneOperationRecord} {legacy : String}
    {blocked : Option NewClaimBlock}
    (h : exec (claimRecord rules record legacy blocked) s = (.ok answer, t)) :
    RecordStep rules s t ∧ t.snapshotState = s.snapshotState := by
  obtain ⟨_, ⟨_, _, rfl⟩ | ⟨_, _, _, _, _, hsave⟩⟩ :=
    (claimRecord_ok_iff rules record answer legacy blocked s t).1 h
  · exact ⟨.unchanged rfl rfl, rfl⟩
  · exact saveRecordLocked_recordStep hsave

theorem commitParticipantTransition_step {heads : ObservedHeads} {snapshot : RuntimeSnapshot}
    (h : exec (commitParticipantTransition rules heads revision snapshot record event) s =
      (.ok answer, t)) : RecordStep rules s t ∧
      RevisionStep s t (.commitParticipantTransition heads revision snapshot record event) := by
  show RecordStep rules s t ∧ t.snapshotState.revision =
    if true && !storedEq (s.records.get? record.receipt.operationId) record then
      s.snapshotState.revision + 1
    else s.snapshotState.revision
  obtain ⟨_, ⟨hretry, _, hvalidate⟩ | ⟨hretry, _, hrevision, _, htransition, _, hnext, idempotency,
    hclaims, rfl⟩⟩ :=
    (commitParticipantTransition_ok_iff rules heads revision snapshot record event answer s t).1 h
  · have ht := validateRetry_state hvalidate
    rw [hretry, ht]
    exact ⟨.unchanged rfl rfl, rfl⟩
  · refine ⟨.kept record (replaces_of_transition htransition) hclaims rfl, ?_⟩
    rw [hretry, hrevision]
    exact next_revision hnext

theorem commitInvocationTransition_step {expected record : ControlPlaneOperationRecord} (h : exec
    (commitInvocationTransition rules expected record event) s =
    (.ok answer, t)) : RecordStep rules s t ∧ t.snapshotState = s.snapshotState := by
  obtain ⟨hcut, _, ⟨_, rfl⟩ | ⟨_, hcurrent, idempotency, hclaims, rfl⟩⟩ :=
    (commitInvocationTransition_ok_iff rules expected record event answer s t).1 h
  · exact ⟨.unchanged rfl rfl, rfl⟩
  · refine ⟨.kept record ?_ hclaims rfl, rfl⟩
    -- The cut keeps the receipt, so the record takes the place of the expected one.
    have hsame := (requireSameOperationIdentity_ok (requireSupervisionCut_ok hcut).1).2.2.2.2
    rw [← hsame.receipt]
    cases hstored : s.records.get? expected.receipt.operationId with
    | none =>
      rw [hstored] at hcurrent
      cases hcurrent
    | some existing =>
      rw [hstored] at hcurrent
      exact .supervise hcurrent hcut

theorem commitTerminalOperation_step {event : Option AuditEvent} (h : exec
    (commitTerminalOperation rules snapshot record event mode revision) s =
      (.ok answer, t)) : RecordStep rules s t ∧
      RevisionStep s t (.commitTerminalOperation snapshot record event mode revision) := by
  show RecordStep rules s t ∧ t.snapshotState.revision =
    if decide (mode = .snapshotBearing) &&
        !storedEq (s.records.get? record.receipt.operationId) record then
      s.snapshotState.revision + 1
    else s.snapshotState.revision
  obtain ⟨_, event', _, _, ⟨htransition, hvalidate⟩ | ⟨htransition, _, hrevision, _, hterminal,
    idempotency, hclaims, rfl⟩⟩ :=
    (commitTerminalOperation_ok_iff rules snapshot record event mode revision answer s t).1 h
  · have ht := validateRetry_state hvalidate
    have hretry := storedEq_of_transition (requireTerminalOperationTransition_ok htransition).2
    rw [hretry, ht]
    exact ⟨.unchanged rfl rfl, by simp⟩
  · have hmoved := (requireTerminalOperationTransition_ok htransition).2
    have hretry := storedEq_of_transition hmoved
    refine ⟨.kept record (replaces_of_transition hmoved) hclaims rfl, ?_⟩
    rw [hretry]
    show answer.revision = _
    rcases terminalSnapshot_ok hterminal with ⟨rfl, rfl⟩ | ⟨rfl, hnext⟩
    · rfl
    · rw [hnext, hrevision]
      rfl

theorem accepted_step {op : StoreOp} (h : Accepts rules s op) :
    RecordStep rules s (step rules s op) ∧ RevisionStep s (step rules s op) op := by
  obtain ⟨answer, hanswer⟩ := h
  have hexec : exec (perform rules op) s = (.ok answer, step rules s op) := by
    rw [← hanswer]
    rfl
  revert hexec
  generalize step rules s op = t
  intro hexec
  cases op with
  | claimRecord record legacy blocked =>
    obtain ⟨stored, hexec, _⟩ := exec_map_ok_iff.1 hexec
    obtain ⟨hrecords, hstate⟩ := claimRecord_step hexec
    exact ⟨hrecords, congrArg SnapshotState.revision hstate⟩
  | saveRecord record =>
    obtain ⟨stored, hexec, _⟩ := exec_map_ok_iff.1 hexec
    obtain ⟨hrecords, hstate⟩ := saveRecordLocked_recordStep hexec
    exact ⟨hrecords, congrArg SnapshotState.revision hstate⟩
  | saveSnapshot snapshot revision =>
    obtain ⟨committed, hexec, _⟩ := exec_map_ok_iff.1 hexec
    obtain ⟨_, _, hrevision, hnext, rfl⟩ :=
      (saveSnapshot_ok_iff rules snapshot revision committed s t).1 hexec
    refine ⟨.unchanged rfl rfl, ?_⟩
    show committed.revision = s.snapshotState.revision + 1
    rw [next_revision hnext, hrevision]
  | commitParticipantTransition heads revision snapshot record event =>
    obtain ⟨committed, hexec, _⟩ := exec_map_ok_iff.1 hexec
    exact commitParticipantTransition_step hexec
  | commitInvocationTransition expected record event =>
    obtain ⟨committed, hexec, _⟩ := exec_map_ok_iff.1 hexec
    obtain ⟨hrecords, hstate⟩ := commitInvocationTransition_step hexec
    exact ⟨hrecords, congrArg SnapshotState.revision hstate⟩
  | commitTerminalOperation snapshot record event mode revision =>
    obtain ⟨committed, hexec, _⟩ := exec_map_ok_iff.1 hexec
    exact commitTerminalOperation_step hexec
  | appendAudit event =>
    cases hexec
    exact ⟨.unchanged rfl rfl, rfl⟩
  | stopEffectAdmission event =>
    obtain ⟨stored, hexec, _⟩ := exec_map_ok_iff.1 hexec
    unfold stopEffectAdmission at hexec
    rw [exec_get_bind] at hexec
    split at hexec
    · cases hexec
      exact ⟨.unchanged rfl rfl, rfl⟩
    · cases hexec
      exact ⟨.unchanged rfl rfl, rfl⟩

theorem recordStep_step (rules : ContractRules) (s : MemoryStore) (op : StoreOp) :
    RecordStep rules s (step rules s op) := by
  by_cases h : Accepts rules s op
  · exact (accepted_step h).1
  · rw [step_of_refused h]
    exact .unchanged rfl rfl

/-! ## The invariant -/

theorem replaced_claim {record existing : ControlPlaneOperationRecord} {id : String}
    (hreplaces : Replaces rules (s.records.get? record.receipt.operationId) record)
    (hstored : s.records.get? id = some existing) (hid : id = record.receipt.operationId) :
    claimOf existing = claimOf record ∧ existing.idempotencyKey = record.idempotencyKey := by
  rw [← hid, hstored] at hreplaces
  exact claimOf_eq_of_sameIdentity hreplaces.existing.1

theorem Consistent.recordStep (h : Consistent s) (hstep : RecordStep rules s t) :
    Consistent t := by
  cases hstep with
  | unchanged hrecords hclaims =>
    refine ⟨?_, ?_, ?_⟩
    · rw [hrecords]
      exact h.ids
    · rw [hrecords, hclaims]
      exact h.claimed
    · rw [hrecords, hclaims]
      exact h.claimant
  | kept record hreplaces hclaims hrecords =>
    rw [updatedIdempotency_ok_iff] at hclaims
    refine ⟨?_, ?_, ?_⟩
    · intro id stored hstored
      rw [hrecords, Dict.get?_set] at hstored
      split at hstored
      case isTrue hid =>
        cases hstored
        exact hid.symm
      case isFalse => exact h.ids id stored hstored
    · intro id stored hstored hkey
      rw [hrecords, Dict.get?_set] at hstored
      rcases hclaims with ⟨hkeyless, hclaims⟩ | ⟨_, hfree, hclaims⟩
      · rw [hclaims]
        split at hstored
        · cases hstored
          exact absurd hkeyless hkey
        · exact h.claimed id stored hstored hkey
      · rw [hclaims, Dict.get?_set]
        split at hstored
        case isTrue hid =>
          cases hstored
          rw [if_pos rfl, hid]
        case isFalse hid =>
          have hclaim := h.claimed id stored hstored hkey
          -- An older record under the claim of the new one would be the new one.
          have hne : claimOf stored ≠ claimOf record := by
            intro hsame
            rw [hsame] at hclaim
            exact hid (hfree id hclaim)
          rw [if_neg hne]
          exact hclaim
    · intro claim id hclaim
      have hkept : ∀ other, s.records.get? id = some other → other.idempotencyKey ≠ "" →
          claimOf other = claim → ∃ stored, t.records.get? id = some stored ∧
            stored.idempotencyKey ≠ "" ∧ claimOf stored = claim := by
        intro other hother hkey hclaimOf
        rw [hrecords, Dict.get?_set]
        by_cases hid : id = record.receipt.operationId
        · obtain ⟨hsame, hkeys⟩ := replaced_claim hreplaces hother hid
          rw [if_pos hid]
          exact ⟨record, rfl, hkeys ▸ hkey, hsame ▸ hclaimOf⟩
        · rw [if_neg hid]
          exact ⟨other, hother, hkey, hclaimOf⟩
      rcases hclaims with ⟨_, hclaims⟩ | ⟨hkey, _, hclaims⟩
      · rw [hclaims] at hclaim
        obtain ⟨other, hother, hkey, hclaimOf⟩ := h.claimant claim id hclaim
        exact hkept other hother hkey hclaimOf
      · rw [hclaims, Dict.get?_set] at hclaim
        split at hclaim
        case isTrue hsame =>
          cases hclaim
          rw [hrecords, Dict.get?_set_self]
          exact ⟨record, rfl, hkey, hsame.symm⟩
        case isFalse =>
          obtain ⟨other, hother, hkey', hclaimOf⟩ := h.claimant claim id hclaim
          exact hkept other hother hkey' hclaimOf

def RecordsEvolve (s t : MemoryStore) : Prop :=
  ∀ id before, s.records.get? id = some before →
    ∃ after, t.records.get? id = some after ∧ Evolves before after

theorem RecordsEvolve.refl (s : MemoryStore) : RecordsEvolve s s :=
  fun _ before h => ⟨before, h, Evolves.refl before⟩

theorem RecordsEvolve.trans (h : RecordsEvolve s t) (h' : RecordsEvolve t u) :
    RecordsEvolve s u := by
  intro id before hbefore
  obtain ⟨middle, hmiddle, hfirst⟩ := h id before hbefore
  obtain ⟨after, hafter, hsecond⟩ := h' id middle hmiddle
  exact ⟨after, hafter, hfirst.trans hsecond⟩

/-- What holds between a record and itself, and between a record and its replacement,
holds between the versions of every record. -/
theorem related_of_recordStep {R : ControlPlaneOperationRecord → ControlPlaneOperationRecord → Prop}
    (hrefl : ∀ record, R record record)
    (hreplaces : ∀ existing record, Replaces rules (some existing) record → R existing record)
    (hstep : RecordStep rules s t) (id : String) (before : ControlPlaneOperationRecord)
    (hbefore : s.records.get? id = some before) :
    ∃ after, t.records.get? id = some after ∧ R before after := by
  cases hstep with
  | unchanged hrecords =>
    rw [hrecords]
    exact ⟨before, hbefore, hrefl before⟩
  | kept record hreplaced _ hrecords =>
    rw [hrecords, Dict.get?_set]
    by_cases hid : id = record.receipt.operationId
    · rw [← hid, hbefore] at hreplaced
      rw [if_pos hid]
      exact ⟨record, rfl, hreplaces before record hreplaced⟩
    · rw [if_neg hid]
      exact ⟨before, hbefore, hrefl before⟩

theorem recordsEvolve_of_recordStep (hstep : RecordStep rules s t) : RecordsEvolve s t :=
  related_of_recordStep Evolves.refl (fun _ _ h => h.evolves) hstep

/-! ## Runs -/

theorem consistent_run (rules : ContractRules) (state : SnapshotState) (ops : List StoreOp) :
    Consistent (Run.run (step rules) (init state) ops) :=
  Run.run_invariant (fun s op h => h.recordStep (recordStep_step rules s op)) _ _
    (consistent_init state)

theorem recordsEvolve_run (rules : ContractRules) (s : MemoryStore) (ops : List StoreOp) :
    RecordsEvolve s (Run.run (step rules) s ops) :=
  Run.run_relation (I := fun _ => True) RecordsEvolve.refl (fun _ _ _ => RecordsEvolve.trans)
    (fun _ _ _ => trivial)
    (fun s op _ => recordsEvolve_of_recordStep (recordStep_step rules s op)) s ops trivial

/-- After every run from an empty store: the idempotency map names exactly the
records that carry a key, no two of them share a claim, every later run only
evolves the stored operations, and the next operation moves the revision by one
exactly when it is an accepted snapshot-bearing commit that repeats none. -/
theorem memory_run_invariant (rules : ContractRules) (state : SnapshotState)
    (ops more : List StoreOp) :
    let s := Run.run (step rules) (init state) ops
    (∀ a b recordA recordB, s.records.get? a = some recordA → s.records.get? b = some recordB →
      recordA.idempotencyKey ≠ "" → claimOf recordA = claimOf recordB → a = b) ∧
    (∀ claim id, s.idempotency.get? claim = some id ↔
      ∃ record, s.records.get? id = some record ∧ record.idempotencyKey ≠ "" ∧
        claimOf record = claim) ∧
    RecordsEvolve s (Run.run (step rules) s more) ∧
    (∀ op, (Accepts rules s op → (step rules s op).snapshotState.revision =
        if bearsSnapshot op && !repeatsCommit s op then s.snapshotState.revision + 1
        else s.snapshotState.revision) ∧
      (¬ Accepts rules s op → step rules s op = s)) := by
  intro s
  have hs : Consistent s := consistent_run rules state ops
  refine ⟨?_, ?_, recordsEvolve_run rules s more, fun op => ⟨?_, step_of_refused⟩⟩
  · intro a b recordA recordB ha hb hkey hclaim
    have hkeyB : recordB.idempotencyKey ≠ "" := by
      have hkeys : recordA.idempotencyKey = recordB.idempotencyKey :=
        congrArg (fun claim : IdempotencyClaimIdentity => claim.2.2) hclaim
      rw [← hkeys]
      exact hkey
    have hclaimA := hs.claimed a recordA ha hkey
    have hclaimB := hs.claimed b recordB hb hkeyB
    rw [hclaim, hclaimB] at hclaimA
    exact (Option.some.inj hclaimA).symm
  · intro claim id
    constructor
    · exact hs.claimant claim id
    · intro h
      obtain ⟨record, hrecord, hkey, rfl⟩ := h
      exact hs.claimed id record hrecord hkey
  · intro haccepts
    exact (accepted_step haccepts).2

/-! ## The effect stop -/

/-- What no operation takes back. -/
structure Grows (s t : MemoryStore) : Prop where
  audit : s.audit <+: t.audit
  changes : s.operationChanges <+: t.operationChanges
  stopped : s.effectAdmissionStopped = true → t.effectAdmissionStopped = true

theorem Grows.refl (s : MemoryStore) : Grows s s := ⟨List.prefix_rfl, List.prefix_rfl, id⟩

theorem Grows.trans (h : Grows s t) (h' : Grows t u) : Grows s u :=
  ⟨h.audit.trans h'.audit, h.changes.trans h'.changes, h'.stopped ∘ h.stopped⟩

theorem grows_saveRecordLocked {record : ControlPlaneOperationRecord}
    (h : exec (saveRecordLocked rules record) s = (.ok (), t)) : Grows s t := by
  obtain ⟨-, ⟨-, rfl⟩ | ⟨-, idempotency, -, rfl⟩⟩ := (saveRecordLocked_ok_iff rules record s t).1 h
  · exact Grows.refl _
  · exact ⟨List.prefix_rfl, List.prefix_append _ _, id⟩

theorem grows_published (committed : SnapshotState)
    (idempotency : Dict IdempotencyClaimIdentity String) :
    Grows s (s.published record event committed idempotency) :=
  ⟨List.prefix_append _ _, List.prefix_append _ _, id⟩

theorem grows_step (rules : ContractRules) (s : MemoryStore) (op : StoreOp) :
    Grows s (step rules s op) := by
  by_cases h : Accepts rules s op
  swap
  · rw [step_of_refused h]
    exact Grows.refl s
  obtain ⟨answer, hanswer⟩ := h
  have hexec : exec (perform rules op) s = (.ok answer, step rules s op) := by
    rw [← hanswer]
    rfl
  revert hexec
  generalize step rules s op = t
  intro hexec
  cases op with
  | claimRecord record legacy blocked =>
    obtain ⟨stored, hexec, -⟩ := exec_map_ok_iff.1 hexec
    obtain ⟨-, ⟨-, -, rfl⟩ | ⟨-, -, -, -, -, hsave⟩⟩ :=
      (claimRecord_ok_iff rules record stored legacy blocked s t).1 hexec
    · exact Grows.refl _
    · exact grows_saveRecordLocked hsave
  | saveRecord record =>
    obtain ⟨_, hexec, -⟩ := exec_map_ok_iff.1 hexec
    exact grows_saveRecordLocked hexec
  | saveSnapshot snapshot revision =>
    obtain ⟨committed, hexec, -⟩ := exec_map_ok_iff.1 hexec
    obtain ⟨-, -, -, -, rfl⟩ := (saveSnapshot_ok_iff rules snapshot revision committed s t).1 hexec
    exact ⟨List.prefix_rfl, List.prefix_rfl, id⟩
  | commitParticipantTransition heads revision snapshot record event =>
    obtain ⟨committed, hexec, -⟩ := exec_map_ok_iff.1 hexec
    obtain ⟨-, ⟨-, -, hretry⟩ | ⟨-, -, -, -, -, -, -, idempotency, -, rfl⟩⟩ :=
      (commitParticipantTransition_ok_iff rules heads revision snapshot record event committed s
        t).1 hexec
    · rw [validateRetry_state hretry]
      exact Grows.refl s
    · exact grows_published committed idempotency
  | commitInvocationTransition expected record event =>
    obtain ⟨committed, hexec, -⟩ := exec_map_ok_iff.1 hexec
    obtain ⟨-, -, ⟨-, rfl⟩ | ⟨-, -, idempotency, -, rfl⟩⟩ :=
      (commitInvocationTransition_ok_iff rules expected record event committed s t).1 hexec
    · exact Grows.refl _
    · exact grows_published s.snapshotState idempotency
  | commitTerminalOperation snapshot record event mode revision =>
    obtain ⟨committed, hexec, -⟩ := exec_map_ok_iff.1 hexec
    obtain ⟨-, _, -, -, ⟨-, hretry⟩ | ⟨-, -, -, -, -, idempotency, -, rfl⟩⟩ :=
      (commitTerminalOperation_ok_iff rules snapshot record event mode revision committed s t).1
        hexec
    · rw [validateRetry_state hretry]
      exact Grows.refl s
    · exact grows_published committed idempotency
  | appendAudit event =>
    cases hexec
    exact ⟨List.prefix_append _ _, List.prefix_rfl, id⟩
  | stopEffectAdmission event =>
    obtain ⟨_, hexec, -⟩ := exec_map_ok_iff.1 hexec
    unfold stopEffectAdmission at hexec
    rw [exec_get_bind] at hexec
    split at hexec
    · cases hexec
      exact ⟨List.prefix_append _ _, List.prefix_rfl, fun _ => rfl⟩
    · cases hexec
      exact Grows.refl s

theorem grows_run (rules : ContractRules) (s : MemoryStore) (ops : List StoreOp) :
    Grows s (Run.run (step rules) s ops) :=
  Run.run_relation (I := fun _ => True) Grows.refl (fun _ _ _ => Grows.trans)
    (fun _ _ _ => trivial) (fun s op _ => grows_step rules s op) s ops trivial

theorem step_stopEffectAdmission (rules : ContractRules) (s : MemoryStore) (event : AuditEvent) :
    (step rules s (.stopEffectAdmission event)).effectAdmissionStopped = true := by
  cases hstopped : s.effectAdmissionStopped with
  | true => exact (grows_step rules s _).stopped hstopped
  | false => simp [step, perform, stopEffectAdmission, hstopped]

/-- No run lifts a stop of the effects, or loses an audit event or a change. A claim that is
accepted after a stop replays the answer to an earlier one, or it resolves or supervises. -/
theorem effect_stop_is_final (rules : ContractRules) (s : MemoryStore) (event : AuditEvent)
    (ops : List StoreOp) :
    let t := Run.run (step rules) (step rules s (.stopEffectAdmission event)) ops
    t.effectAdmissionStopped = true ∧ s.audit <+: t.audit ∧
      s.operationChanges <+: t.operationChanges ∧
      ∀ record legacy blocked answer after,
        exec (claimRecord rules record legacy blocked) t = (.ok answer, after) →
          (t.incumbent record = some answer ∧ after = t) ∨
          record.status.context.operationKind = .indeterminateResolution ∨
          controlRecordIsSupervisory rules record = .ok true := by
  intro t
  have hlater : Grows (step rules s (.stopEffectAdmission event)) t := grows_run rules _ ops
  have hgrows := (grows_step rules s (.stopEffectAdmission event)).trans hlater
  have hstopped := hlater.stopped (step_stopEffectAdmission rules s event)
  refine ⟨hstopped, hgrows.audit, hgrows.changes, ?_⟩
  intro record legacy blocked answer after hclaim
  obtain ⟨-, ⟨hreplay, -, rfl⟩ | ⟨-, -, -, -, hadmitted, -⟩⟩ :=
    (claimRecord_ok_iff rules record answer legacy blocked t after).1 hclaim
  · exact .inl ⟨hreplay, rfl⟩
  by_cases hkind : record.status.context.operationKind = .indeterminateResolution
  · exact .inr (.inl hkind)
  · rw [hstopped, requireClaimAdmitted, if_pos (by simpa using hkind), bind_eq_ok_iff] at hadmitted
    obtain ⟨supervisory, hsupervisory, hrest⟩ := hadmitted
    rw [seq_eq_ok_iff, refuseIf_eq_ok_iff, Bool.not_eq_false] at hrest
    rw [hrest.1] at hsupervisory
    exact .inr (.inr hsupervisory)

/-! ## Operations without a key, and repeated commits -/

def plainContext : OperationAdmissionContext where
  actorId := "actor"
  authorizationScope := []
  targetScope := "target"
  runScope := "run"
  operationKind := .evaluation
  requestCommitment := "commitment"
  parentOperationId := none

/-- An evaluation that retains no contract value. -/
def plainRecord (operationId key : String) (state : OperationState) :
    ControlPlaneOperationRecord where
  receipt := ⟨operationId, .evaluation, "t0", true, plainContext, "v1", []⟩
  status := ⟨operationId, .evaluation, state, "t0", "t0", plainContext, "v1", [], []⟩
  requestFingerprint := "fingerprint"
  idempotencyKey := key
  resultPayload := none
  decisionHistoryHeads := []
  resultHistoryHeads := []
  legacyRequestCommitment := false
  invocation := none
  reconciliation := none
  injectOccurrence := none
  injectOutcome := none
  injectEvidence := none
  injectDelivery := none
  injectDeliveryControl := none

def emptyState : SnapshotState := ⟨⟨[], .null⟩, 0⟩

def cancelCommit : StoreOp :=
  .commitTerminalOperation emptyState.snapshot (plainRecord "a" "" .cancelled) none
    .snapshotBearing 0

/-- Two records without a key share actor, kind and (empty) key, and an exact
retry of a snapshot-bearing commit is accepted at the revision it reached. -/
theorem keyless_records_and_retries :
    (¬ ∀ (rules : ContractRules) (state : SnapshotState) (ops : List StoreOp)
        (a b : String) (recordA recordB : ControlPlaneOperationRecord),
      (Run.run (step rules) (init state) ops).records.get? a = some recordA →
      (Run.run (step rules) (init state) ops).records.get? b = some recordB →
      claimOf recordA = claimOf recordB → a = b) ∧
    ¬ ∀ (rules : ContractRules) (state : SnapshotState) (ops : List StoreOp) (op : StoreOp),
      bearsSnapshot op = true → Accepts rules (Run.run (step rules) (init state) ops) op →
      (Run.run (step rules) (init state) (ops ++ [op])).snapshotState.revision =
        (Run.run (step rules) (init state) ops).snapshotState.revision + 1 := by
  constructor
  · intro h
    have hab := h .lax emptyState
      [.saveRecord (plainRecord "a" "" .accepted), .saveRecord (plainRecord "b" "" .accepted)]
      "a" "b" (plainRecord "a" "" .accepted) (plainRecord "b" "" .accepted)
      (by decide +kernel) (by decide +kernel) (by decide +kernel)
    exact absurd hab (by decide)
  · intro h
    have hanswer : (exec (perform .lax cancelCommit)
        (Run.run (step .lax) (init emptyState)
          [.saveRecord (plainRecord "a" "" .accepted), cancelCommit])).1 =
        .ok (.state ⟨emptyState.snapshot, 1⟩) := by decide +kernel
    have hnext := h .lax emptyState
      [.saveRecord (plainRecord "a" "" .accepted), cancelCommit] cancelCommit rfl ⟨_, hanswer⟩
    exact absurd hnext (by decide +kernel)

end MemoryStore
end Raes.Store
