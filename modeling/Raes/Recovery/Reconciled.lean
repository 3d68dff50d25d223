import Raes.Recovery.Startup

/-!
# What startup reconciliation leaves

Each interrupted record ends in the terminal state that its retained evidence
and the observation of its effect give it, and the store, the caches and the
snapshot follow.
-/

namespace Raes.Recovery

open Store Stateful PyError

section Commits

variable {σ : Type} {rules : ContractRules} {store : ControlPlaneStore rules σ}

structure Commits (store : ControlPlaneStore rules σ) (mode : TerminalCommitMode)
    (snapshot : RuntimeSnapshot) (record : ControlPlaneOperationRecord)
    (plane plane' : ControlPlane σ) : Prop where
  operations : plane'.operations = plane.operations.set record.receipt.operationId record
  loaded : Loaded store plane'
  observed : plane'.observed = plane.observed
  operationOnly : mode = .operationOnly → plane'.snapshotState = plane.snapshotState
  snapshotBearing : mode = .snapshotBearing →
    rules.sealHistories snapshot = .ok plane'.snapshotState.snapshot

theorem Loaded.commits {plane plane' : ControlPlane σ} (h : Loaded store plane)
    {mode : TerminalCommitMode} {snapshot : RuntimeSnapshot}
    {record : ControlPlaneOperationRecord} {answer : SnapshotState}
    (hkept : Kept rules mode snapshot record (store.held plane.store) answer
      (store.held plane'.store))
    (hoperations : plane'.operations = (store.held plane'.store).records)
    (hstate : plane'.snapshotState = (store.held plane'.store).state)
    (hobserved : plane'.observed = plane.observed) :
    Commits store mode snapshot record plane plane' := by
  have hset : plane'.operations = plane.operations.set record.receipt.operationId record := by
    rw [hoperations, hkept.records, h.operations]
  refine ⟨hset, ⟨hoperations, hstate, ?_⟩, hobserved, ?_, ?_⟩
  · intro id other hother
    rw [hset, Dict.get?_set] at hother
    split at hother
    · rename_i hid
      obtain rfl := Option.some_inj.mp hother
      exact hid.symm
    · exact h.keyed id other hother
  · intro hmode
    rw [hstate, hkept.state, hkept.operationOnly hmode, h.state]
  · intro hmode
    rw [hstate, hkept.state]
    exact hkept.snapshotBearing hmode

theorem storedEq_of_nonTerminal {stored terminal : ControlPlaneOperationRecord}
    (hopen : isNonTerminal stored.status.state = true)
    (hterminal : isNonTerminal terminal.status.state = false) :
    storedEq (some stored) terminal = false := by
  rw [storedEq_some]
  cases hpy : stored.pyEq terminal with
  | false => rfl
  | true =>
    have hstatus := (sameIdentity_of_pyEq hpy).2.1
    rw [hstatus, hterminal] at hopen
    exact Bool.noConfusion hopen

variable {controlProjection : Dict String ControlPlaneOperationRecord → SnapshotState →
  Except PyError Unit}

theorem exec_callStore_bind {α β : Type} (m : Stateful PyError σ α)
    (f : Except PyError α → PlaneM σ β) (plane : ControlPlane σ) :
    exec (callStore m >>= f) plane =
      exec (f (exec m plane.store).1) { plane with store := (exec m plane.store).2 } := rfl

variable {plane plane' : ControlPlane σ}

theorem publishCommittedState_ok {committed : SnapshotState} (h : exec
    (publishCommittedState store controlProjection committed) plane = (.ok (), plane')) :
    ∃ operations, store.loadRecords plane.store = .ok operations ∧
      plane' = { plane with operations := operations, snapshotState := committed } := by
  unfold publishCommittedState at h
  rw [exec_get_bind] at h
  cases hload : store.loadRecords plane.store with
  | error e =>
    rw [hload] at h
    exact absurd (congrArg Prod.fst h) nofun
  | ok operations =>
    rw [hload] at h
    simp only [exec_modify_bind] at h
    cases hproject : controlProjection operations committed with
    | error e =>
      rw [hproject] at h
      exact absurd (congrArg Prod.fst h) nofun
    | ok u =>
      rw [hproject] at h
      exact ⟨operations, rfl, (congrArg Prod.snd h).symm⟩

variable {operationId : String} {event : AuditEvent}

theorem settleCommit_ok {outcome : Except PyError SnapshotState} (h : exec
    (settleCommit store controlProjection operationId event outcome) plane =
      (.ok (), plane')) : ∃ committed operations, outcome = .ok committed ∧
      store.loadRecords plane.store = .ok operations ∧
      plane' = { plane with operations := operations, snapshotState := committed } := by
  cases outcome with
  | ok committed =>
    obtain ⟨operations, hload, hplane⟩ := publishCommittedState_ok h
    exact ⟨committed, operations, rfl, hload, hplane⟩
  | error error =>
    simp only [settleCommit, exec_bind_ok_iff] at h
    obtain ⟨_, _, _, hthrow⟩ := h
    exact absurd (congrArg Prod.fst hthrow) nofun

theorem publishCommittedState_error {committed : SnapshotState} {error : PyError}
    (h : exec (publishCommittedState store controlProjection committed) plane =
      (.error error, plane')) : plane'.durabilityPoisoned = true := by
  unfold publishCommittedState at h
  rw [exec_get_bind] at h
  cases hload : store.loadRecords plane.store with
  | error e =>
    rw [hload] at h
    obtain rfl := congrArg Prod.snd h
    rfl
  | ok operations =>
    rw [hload] at h
    simp only [exec_modify_bind] at h
    cases hproject : controlProjection operations committed with
    | error e =>
      rw [hproject] at h
      obtain rfl := congrArg Prod.snd h
      rfl
    | ok u =>
      rw [hproject] at h
      exact absurd (congrArg Prod.fst h) nofun

/-- The caches after an error: poisoned, as they were, or what the store holds. -/
structure CachesAfter (store : ControlPlaneStore rules σ) (plane plane' : ControlPlane σ) :
    Prop where
  sameStore : plane'.store = plane.store
  observed : plane'.observed = plane.observed
  caches : plane'.durabilityPoisoned = true ∨ plane'.operations = plane.operations ∨
    plane'.operations = (store.held plane.store).records ∧
      plane'.snapshotState = (store.held plane.store).state

theorem reloadDerivedState_ok (h : exec (reloadDerivedState store) plane = (.ok (), plane')) :
    plane' = { plane with
      operations := (store.held plane.store).records
      snapshotState := (store.held plane.store).state } := by
  unfold reloadDerivedState at h
  simp only [exec_get_bind, exec_lift_bind_ok_iff] at h
  obtain ⟨state, hstate, operations, hoperations, h⟩ := h
  rw [← store.loadRecords_ok _ _ hoperations, ← store.loadSnapshotState_ok _ _ hstate]
  exact (congrArg Prod.snd h).symm

theorem cachesAfter_reloadDerivedState (plane : ControlPlane σ) :
    CachesAfter store plane (exec (reloadDerivedState store) plane).2 := by
  unfold reloadDerivedState
  rw [exec_get_bind]
  cases hstate : store.loadSnapshotState plane.store with
  | error e => exact ⟨rfl, rfl, Or.inr (Or.inl rfl)⟩
  | ok state =>
    cases hoperations : store.loadRecords plane.store with
    | error e =>
      simp only [exec_bind, exec_lift, exec_get, hoperations]
      exact ⟨rfl, rfl, Or.inr (Or.inl rfl)⟩
    | ok operations =>
      simp only [exec_bind, exec_lift, exec_get, hoperations]
      refine ⟨rfl, rfl, Or.inr (Or.inr ?_)⟩
      rw [← store.loadRecords_ok _ _ hoperations, ← store.loadSnapshotState_ok _ _ hstate]
      exact ⟨rfl, rfl⟩

theorem readTerminalCut_ok {s : σ} {state : SnapshotState}
    {operations : Dict String ControlPlaneOperationRecord}
    (h : readTerminalCut store s operationId event = .ok (state, operations)) :
    operations = (store.held s).records ∧ state = (store.held s).state := by
  unfold readTerminalCut at h
  simp only [bind_eq_ok_iff] at h
  obtain ⟨state', hstate, operations', hoperations, h⟩ := h
  cases hrecord : operations'.get? operationId with
  | none =>
    rw [hrecord] at h
    cases h
  | some record =>
    rw [hrecord] at h
    simp only [bind_eq_ok_iff] at h
    obtain ⟨_, _, _, _, _, _, h⟩ := h
    obtain ⟨rfl, rfl⟩ := Prod.mk.inj (Except.ok.inj h)
    exact ⟨store.loadRecords_ok _ _ hoperations, store.loadSnapshotState_ok _ _ hstate⟩

theorem cachesAfter_recoverCaches (operationId : String) (event : AuditEvent) (error : PyError)
    (plane : ControlPlane σ) :
    CachesAfter store plane (exec (recoverCaches store operationId event error) plane).2 := by
  unfold recoverCaches
  split
  · exact cachesAfter_reloadDerivedState plane
  · unfold resynchronizeAfterStoreError
    rw [exec_get_bind]
    cases hcut : readTerminalCut store plane.store operationId event with
    | error e => exact ⟨rfl, rfl, Or.inl rfl⟩
    | ok cut => exact ⟨rfl, rfl, Or.inr (Or.inr (readTerminalCut_ok hcut))⟩

theorem settleCommit_confirmed {outcome : Except PyError SnapshotState} {error : PyError}
    (h : exec (settleCommit store controlProjection operationId event outcome) plane =
      (.error error, plane')) (hpoisoned : plane'.durabilityPoisoned = false)
    (hchanged : plane'.operations ≠ plane.operations) :
    (∃ refused, outcome = .error refused) ∧ plane'.store = plane.store ∧
      plane'.observed = plane.observed ∧
      plane'.operations = (store.held plane.store).records ∧
      plane'.snapshotState = (store.held plane.store).state := by
  cases outcome with
  | ok committed =>
    rw [publishCommittedState_error h] at hpoisoned
    exact Bool.noConfusion hpoisoned
  | error refused =>
    have hcaches : CachesAfter store plane
        (exec (recoverCaches store operationId event refused) plane).2 :=
      cachesAfter_recoverCaches operationId event refused plane
    have hplane : plane' = (exec (recoverCaches store operationId event refused) plane).2 := by
      simp only [settleCommit, exec_bind] at h
      cases hrecover : exec (recoverCaches store operationId event refused) plane with
      | mk result after =>
        rw [hrecover] at h
        cases result with
        | error e => exact (congrArg Prod.snd h).symm
        | ok u => exact (congrArg Prod.snd h).symm
    rw [← hplane] at hcaches
    refine ⟨⟨refused, rfl⟩, hcaches.sameStore, hcaches.observed, ?_⟩
    rcases hcaches.caches with htrue | hsame | hheld
    · rw [htrue] at hpoisoned
      exact Bool.noConfusion hpoisoned
    · exact absurd hsame hchanged
    · exact hheld

end Commits

section Outcomes

variable (host : RecoveryHost) (before : RuntimeSnapshot)

/-- The observer of the backend of a record answers the request about it. -/
def Observes (record : ControlPlaneOperationRecord) (effect : ObservedEffect) : Prop :=
  ∃ target observer supported, recoveryTarget host before record = .ok (some target) ∧
    target.recoveryObserver = some observer ∧ target.recoveryObservation = some supported ∧
    record.status.context.operationKind ∈ supported ∧
    boundObservationResult observer (observationRequest record before) = some effect

/-- The effect of a record is known to be absent: its phase has no external
effect, or the observer reports that the effect is absent. -/
def EffectAbsent (record : ControlPlaneOperationRecord) : Prop :=
  record.status.context.operationKind = .compositionPhase ∨ Observes host before record .absent

def ValidatedEffect (record : ControlPlaneOperationRecord) (result : ApplyResult) : Prop :=
  ∃ snapshot changedAddresses,
    Observes host before record (.applied snapshot changedAddresses) ∧
      validatedAppliedObservation host record before snapshot changedAddresses = some result

/-- The snapshot after the settlement of a delivery tool: some behavior events
more. -/
def SettledTool (before after : RuntimeSnapshot) : Prop :=
  ∃ address events,
    host.rules.sealHistories (appendBehaviorEvents before address events) = .ok after

inductive Recovered (before : RuntimeSnapshot) (record : ControlPlaneOperationRecord) :
    OperationState → RuntimeSnapshot → Prop
  | withheldTool {after : RuntimeSnapshot} (tool : (retainedDeliveryTool record).isSome)
      (accepted : record.status.state = .accepted) (settled : SettledTool host before after) :
      Recovered before record .cancelled after
  | interruptedTool {after : RuntimeSnapshot} (tool : (retainedDeliveryTool record).isSome)
      (running : record.status.state ≠ .accepted) (settled : SettledTool host before after) :
      Recovered before record .indeterminate after
  | neverStarted (accepted : record.status.state = .accepted)
      (provenance : acceptedClaimHasWriteAheadProvenance record = true) :
      Recovered before record .cancelled before
  | unattributed (accepted : record.status.state = .accepted)
      (provenance : acceptedClaimHasWriteAheadProvenance record = false) :
      Recovered before record .indeterminate before
  | unobservable (running : record.status.state ≠ .accepted) :
      Recovered before record .indeterminate before
  | absent (running : record.status.state ≠ .accepted) (effect : EffectAbsent host before record) :
      Recovered before record .failed before
  | applied {after : RuntimeSnapshot} {result : ApplyResult}
      (running : record.status.state ≠ .accepted) (effect : ValidatedEffect host before record result)
      (snapshot : host.rules.sealHistories result.snapshot = .ok after) :
      Recovered before record .succeeded after

end Outcomes

section OneRecord

variable {σ : Type} {host : RecoveryHost} {store : ControlPlaneStore host.rules σ}
  {plane plane' : ControlPlane σ} {record stored terminal : ControlPlaneOperationRecord}

theorem Loaded.commits_terminal {snapshot : RuntimeSnapshot} {mode : TerminalCommitMode}
    (h : Loaded store plane)
    (hstored : plane.operations.get? terminal.receipt.operationId = some stored)
    (hopen : isNonTerminal stored.status.state = true)
    (hterminal : isNonTerminal terminal.status.state = false)
    (hexec : exec (commitTerminalOperation host store snapshot terminal mode) plane =
      (.ok (), plane')) : Commits store mode snapshot terminal plane plane' := by
  unfold commitTerminalOperation at hexec
  simp only [exec_lift_bind_ok_iff, exec_get_bind, exec_callStore_bind] at hexec
  obtain ⟨event, _, hexec⟩ := hexec
  obtain ⟨answer, operations, houtcome, hload, rfl⟩ := settleCommit_ok hexec
  have hcommit := store.terminal_ok snapshot terminal event mode plane.snapshotState.revision
    plane.store answer _ (Prod.ext houtcome rfl)
  have hoperations := store.loadRecords_ok _ _ hload
  rcases hcommit with hretried | hkept
  · have hfalse := hretried.stored
    rw [← h.operations, hstored, storedEq_of_nonTerminal hopen hterminal] at hfalse
    exact Bool.noConfusion hfalse
  · exact h.commits hkept hoperations hkept.state.symm rfl

variable {state : OperationState} {diagnostics : List Diagnostic}

theorem recoveryRecord_ok {changedAddresses : List String}
    (h : recoveryRecord host record state diagnostics changedAddresses = .ok terminal) :
    terminal.receipt = record.receipt ∧ terminal.status.state = state := by
  unfold recoveryRecord at h
  rw [bind_eq_ok_iff] at h
  obtain ⟨_, _, h⟩ := h
  obtain rfl := Except.ok.inj h
  exact ⟨rfl, rfl⟩

/-- The plane after a record was closed in a state: its terminal version is
stored and nothing else is. -/
structure Closes (plane plane' : ControlPlane σ) (store : ControlPlaneStore host.rules σ)
    (record : ControlPlaneOperationRecord) (state : OperationState)
    (after : RuntimeSnapshot) : Prop where
  closed : ∃ terminal, terminal.receipt = record.receipt ∧ terminal.status.state = state ∧
    plane'.operations = plane.operations.set record.receipt.operationId terminal
  loaded : Loaded store plane'
  snapshot : plane'.snapshotState.snapshot = after
  observed : plane'.observed = plane.observed

theorem Loaded.commits_recoveryTerminal {mode : TerminalCommitMode}
    {snapshot : Option RuntimeSnapshot} {changedAddresses : List String} (h : Loaded store plane)
    (hstored : plane.operations.get? record.receipt.operationId = some record)
    (hopen : isNonTerminal record.status.state = true) (hstate : isNonTerminal state = false)
    (hexec : exec (commitRecoveryTerminal host store record state diagnostics mode snapshot
      changedAddresses) plane = (.ok (), plane')) :
    ∃ terminal, terminal.receipt = record.receipt ∧ terminal.status.state = state ∧
      Commits store mode (snapshot.getD plane.snapshotState.snapshot) terminal plane plane' := by
  unfold commitRecoveryTerminal at hexec
  simp only [exec_lift_bind_ok_iff, exec_get_bind] at hexec
  obtain ⟨terminal, hterminal, hexec⟩ := hexec
  obtain ⟨hreceipt, hterminalState⟩ := recoveryRecord_ok hterminal
  refine ⟨terminal, hreceipt, hterminalState, h.commits_terminal ?_ hopen ?_ hexec⟩
  · rw [hreceipt]
    exact hstored
  · rw [hterminalState]
    exact hstate

theorem Loaded.closes_operationOnly (h : Loaded store plane)
    (hstored : plane.operations.get? record.receipt.operationId = some record)
    (hopen : isNonTerminal record.status.state = true) (hstate : isNonTerminal state = false)
    (hexec : exec (commitRecoveryTerminal host store record state diagnostics .operationOnly none
      []) plane = (.ok (), plane')) :
    Closes plane plane' store record state plane.snapshotState.snapshot := by
  obtain ⟨terminal, hreceipt, hterminal, hcommits⟩ :=
    h.commits_recoveryTerminal hstored hopen hstate hexec
  refine ⟨⟨terminal, hreceipt, hterminal, ?_⟩, hcommits.loaded, ?_, hcommits.observed⟩
  · rw [hcommits.operations, hreceipt]
  · rw [hcommits.operationOnly rfl]

/-- A commit of a participant transition that raised and is confirmed has closed
the record as well. -/
theorem Loaded.commits_participant {heads : HistoryHeads} {snapshot : RuntimeSnapshot}
    {event : AuditEvent} {result : Except PyError Unit} (h : Loaded store plane)
    (hstored : plane.operations.get? terminal.receipt.operationId = some stored)
    (hopen : isNonTerminal stored.status.state = true)
    (hterminal : isNonTerminal terminal.status.state = false)
    (hexec : exec (commitParticipantTransition host store heads snapshot terminal event) plane =
      (result, plane'))
    (hconfirmed : result = .ok () ∨ plane'.durabilityPoisoned = false ∧
      storedEq (plane'.operations.get? terminal.receipt.operationId) terminal = true) :
    Commits store .snapshotBearing snapshot terminal plane plane' := by
  have hold : storedEq (plane.operations.get? terminal.receipt.operationId) terminal = false := by
    rw [hstored]
    exact storedEq_of_nonTerminal hopen hterminal
  unfold commitParticipantTransition at hexec
  rw [exec_get_bind, exec_callStore_bind] at hexec
  cases result with
  | ok u =>
    obtain ⟨answer, operations, houtcome, hload, rfl⟩ := settleCommit_ok hexec
    have hcommit := store.participant_ok heads plane.snapshotState.revision snapshot terminal
      event plane.store answer _ (Prod.ext houtcome rfl)
    have hoperations := store.loadRecords_ok _ _ hload
    rcases hcommit with hretried | hkept
    · have hfalse := hretried.stored
      rw [← h.operations, hold] at hfalse
      exact Bool.noConfusion hfalse
    · exact h.commits hkept hoperations hkept.state.symm rfl
  | error error =>
    obtain ⟨hpoisoned, hnew⟩ := hconfirmed.resolve_left nofun
    have hchanged : plane'.operations ≠ plane.operations := by
      intro heq
      rw [heq, hold] at hnew
      exact Bool.noConfusion hnew
    obtain ⟨⟨refused, houtcome⟩, hstore, hobserved, hoperations, hstate⟩ :=
      settleCommit_confirmed hexec hpoisoned hchanged
    rw [← hstore] at hoperations hstate
    have hcommit := store.participant_error heads plane.snapshotState.revision snapshot terminal
      event plane.store refused plane'.store (Prod.ext houtcome hstore.symm)
    rcases hcommit with hsame | ⟨answer, hkept⟩
    · rw [hsame, ← h.operations] at hoperations
      exact absurd hoperations hchanged
    · exact h.commits hkept hoperations hstate hobserved

theorem isNonTerminal_terminalState (settlement : ToolSettlement) :
    isNonTerminal settlement.terminalState = false := by
  cases settlement <;> rfl

theorem Loaded.reload (h : Loaded store plane)
    (hexec : exec (reloadDerivedState store) plane = (.ok (), plane')) : plane' = plane := by
  rw [reloadDerivedState_ok hexec, ← h.operations, ← h.state]

theorem Loaded.closes_settleDeliveryTool {binding claim retained : Json}
    {settlement : ToolSettlement} (h : Loaded store plane)
    (hstored : plane.operations.get? record.receipt.operationId = some record)
    (hopen : isNonTerminal record.status.state = true)
    (hexec : exec (settleDeliveryTool host store binding claim record retained settlement) plane =
      (.ok (), plane')) :
    ∃ after, SettledTool host plane.snapshotState.snapshot after ∧
      Closes plane plane' store record settlement.terminalState after := by
  unfold settleDeliveryTool at hexec
  rw [exec_bind_ok_iff] at hexec
  obtain ⟨_, reloaded, hreload, hexec⟩ := hexec
  obtain rfl := h.reload hreload
  simp only [exec_get_bind, exec_lift_bind_ok_iff] at hexec
  obtain ⟨outcome, _, _, _, event, _, hexec⟩ := hexec
  generalize hterminal : settlementRecord host record settlement outcome _ _ = terminal at hexec
  have hreceipt : terminal.receipt = record.receipt := by
    rw [← hterminal]
    rfl
  have hstate : terminal.status.state = settlement.terminalState := by
    rw [← hterminal]
    rfl
  rw [exec_attempt_bind] at hexec
  generalize hcommit : exec (commitParticipantTransition host store _ _ terminal event) reloaded =
    committed at hexec
  obtain ⟨result, after⟩ := committed
  have hkept : after = plane' ∧ (result = .ok () ∨ plane'.durabilityPoisoned = false ∧
      storedEq (plane'.operations.get? terminal.receipt.operationId) terminal = true) := by
    cases result with
    | ok u => exact ⟨congrArg Prod.snd hexec, Or.inl rfl⟩
    | error error =>
      simp only [exec_get_bind] at hexec
      split at hexec
      · rename_i hconfirmed
        obtain rfl : after = plane' := congrArg Prod.snd hexec
        unfold terminalConfirmed at hconfirmed
        simp only [Bool.and_eq_true, Bool.not_eq_true'] at hconfirmed
        exact ⟨rfl, Or.inr hconfirmed.1⟩
      · exact absurd (congrArg Prod.fst hexec) nofun
  obtain ⟨rfl, hconfirmed⟩ := hkept
  have hclosed : isNonTerminal terminal.status.state = false := by
    rw [hstate]
    exact isNonTerminal_terminalState settlement
  rw [← hreceipt] at hstored
  have hcommits := h.commits_participant hstored hopen hclosed hcommit hconfirmed
  refine ⟨after.snapshotState.snapshot, ⟨_, _, hcommits.snapshotBearing rfl⟩,
    ⟨terminal, hreceipt, hstate, ?_⟩, hcommits.loaded, rfl, hcommits.observed⟩
  rw [hcommits.operations, hreceipt]

/-- A record without a retained tool is left to the other paths; a retained tool
is settled. -/
theorem Loaded.reconcileDeliveryTool_ok {isTool : Bool} (h : Loaded store plane)
    (hstored : plane.operations.get? record.receipt.operationId = some record)
    (hopen : isNonTerminal record.status.state = true)
    (hexec : exec (reconcileDeliveryTool host store record) plane = (.ok isTool, plane')) :
    (isTool = false ∧ plane' = plane) ∨
      (isTool = true ∧ (retainedDeliveryTool record).isSome ∧
        ∃ after, SettledTool host plane.snapshotState.snapshot after ∧
          Closes plane plane' store record
            (if record.status.state = .accepted then .cancelled else .indeterminate) after) := by
  unfold reconcileDeliveryTool at hexec
  cases hretained : retainedDeliveryTool record with
  | none =>
    rw [hretained] at hexec
    simp only [exec_pure_ok_iff] at hexec
    exact Or.inl hexec
  | some retained =>
    rw [hretained] at hexec
    simp only [exec_lift_bind_ok_iff, exec_get_bind] at hexec
    obtain ⟨claim, _, binding, _, hexec⟩ := hexec
    split at hexec
    · rename_i binding claim
      simp only [exec_check_bind_ok_iff] at hexec
      obtain ⟨_, hexec⟩ := hexec
      rw [exec_bind_ok_iff] at hexec
      obtain ⟨_, settled, hsettle, hexec⟩ := hexec
      rw [exec_pure_ok_iff] at hexec
      obtain ⟨rfl, rfl⟩ := hexec
      obtain ⟨after, hafter, hcloses⟩ := h.closes_settleDeliveryTool hstored hopen hsettle
      refine Or.inr ⟨rfl, rfl, after, hafter, ?_⟩
      have hstate : ToolSettlement.terminalState
          (if record.status.state = .accepted then .withheld else .indeterminate) =
          if record.status.state = .accepted then .cancelled else .indeterminate := by
        split <;> rfl
      rw [← hstate]
      exact hcloses
    · cases congrArg Prod.fst hexec

/-! ## Observation -/

/-- An observation only extends the calls of the plane, by at most its request. -/
structure ObservesOnly (plane plane' : ControlPlane σ) (record : ControlPlaneOperationRecord) :
    Prop where
  same : plane' = { plane with observed := plane'.observed }
  observed : plane'.observed = plane.observed ∨ plane'.observed =
    plane.observed ++ [observationRequest record plane.snapshotState.snapshot]

theorem ObservesOnly.refl (plane : ControlPlane σ) (record : ControlPlaneOperationRecord) :
    ObservesOnly plane plane record := ⟨rfl, Or.inl rfl⟩

/-- What a classified effect says about the observation. -/
def RecoveryEffect.Justified (host : RecoveryHost) (before : RuntimeSnapshot)
    (record : ControlPlaneOperationRecord) : RecoveryEffect → Prop
  | .absent => EffectAbsent host before record
  | .applied result => ValidatedEffect host before record result
  | .indeterminate => True

theorem justified_classifyObservation {before : RuntimeSnapshot} {effect : Option ObservedEffect}
    (h : ∀ observed, effect = some observed → Observes host before record observed) :
    (classifyObservation host record before effect).Justified host before record := by
  cases effect with
  | none => trivial
  | some effect =>
    cases effect with
    | absent => exact Or.inr (h _ rfl)
    | indeterminate => trivial
    | applied snapshot changedAddresses =>
      unfold classifyObservation
      simp only
      cases hvalid : validatedAppliedObservation host record before snapshot changedAddresses with
      | none => trivial
      | some result => exact ⟨snapshot, changedAddresses, h _ rfl, hvalid⟩

theorem observeRecoveryTarget_ok {target : Option RecoveryTarget} {effect : RecoveryEffect}
    (htarget : recoveryTarget host plane.snapshotState.snapshot record = .ok target)
    (hexec : exec (observeRecoveryTarget host record target) plane = (.ok effect, plane')) :
    ObservesOnly plane plane' record ∧
      effect.Justified host plane.snapshotState.snapshot record := by
  unfold observeRecoveryTarget at hexec
  split at hexec
  · obtain ⟨rfl, rfl⟩ := exec_pure_ok_iff.mp hexec
    exact ⟨ObservesOnly.refl .., trivial⟩
  · rename_i target
    split at hexec
    · rename_i observer supported hobserver hsupported
      split at hexec
      · rename_i hkind
        simp only [exec_get_bind, exec_lift_bind_ok_iff, exec_modify_bind,
          exec_pure_ok_iff] at hexec
        obtain ⟨_, _, rfl, rfl⟩ := hexec
        refine ⟨⟨rfl, Or.inr rfl⟩, justified_classifyObservation fun observed hobserved => ?_⟩
        exact ⟨target, observer, supported, htarget, hobserver, hsupported, hkind, hobserved⟩
      · obtain ⟨rfl, rfl⟩ := exec_pure_ok_iff.mp hexec
        exact ⟨ObservesOnly.refl .., trivial⟩
    · obtain ⟨rfl, rfl⟩ := exec_pure_ok_iff.mp hexec
      exact ⟨ObservesOnly.refl .., trivial⟩

theorem observeRunningRecord_ok {effect : RecoveryEffect}
    (hexec : exec (observeRunningRecord host record) plane = (.ok effect, plane')) :
    ObservesOnly plane plane' record ∧
      effect.Justified host plane.snapshotState.snapshot record := by
  unfold observeRunningRecord at hexec
  simp only [exec_get_bind, exec_lift_bind_ok_iff] at hexec
  obtain ⟨mixed, _, hexec⟩ := hexec
  split at hexec
  · obtain ⟨rfl, rfl⟩ := exec_pure_ok_iff.mp hexec
    exact ⟨ObservesOnly.refl .., trivial⟩
  · split at hexec
    · rename_i hphase
      obtain ⟨rfl, rfl⟩ := exec_pure_ok_iff.mp hexec
      exact ⟨ObservesOnly.refl .., Or.inl hphase⟩
    · rw [exec_lift_bind_ok_iff] at hexec
      obtain ⟨target, htarget, hexec⟩ := hexec
      exact observeRecoveryTarget_ok htarget hexec

/-! ## One step of reconciliation -/

structure Reconciles (host : RecoveryHost) (store : ControlPlaneStore host.rules σ)
    (record terminal : ControlPlaneOperationRecord) (plane plane' : ControlPlane σ) : Prop where
  recovered : Recovered host plane.snapshotState.snapshot record terminal.status.state
    plane'.snapshotState.snapshot
  receipt : terminal.receipt = record.receipt
  operations : plane'.operations = plane.operations.set record.receipt.operationId terminal
  loaded : Loaded store plane'
  observed : plane'.observed = plane.observed ∨ record.status.state ≠ .accepted ∧
    plane'.observed = plane.observed ++ [observationRequest record plane.snapshotState.snapshot]

theorem Closes.reconciles {after : RuntimeSnapshot}
    (h : Closes plane plane' store record state after)
    (hrecovered : Recovered host plane.snapshotState.snapshot record state after) :
    ∃ terminal, Reconciles host store record terminal plane plane' := by
  obtain ⟨terminal, hreceipt, hstate, hoperations⟩ := h.closed
  refine ⟨terminal, ?_, hreceipt, hoperations, h.loaded, Or.inl h.observed⟩
  rw [hstate, h.snapshot]
  exact hrecovered

theorem Loaded.reconcileAcceptedRecord_ok (h : Loaded store plane)
    (hstored : plane.operations.get? record.receipt.operationId = some record)
    (haccepted : record.status.state = .accepted)
    (hexec : exec (reconcileAcceptedRecord host store record) plane = (.ok (), plane')) :
    ∃ terminal, Reconciles host store record terminal plane plane' := by
  have hopen : isNonTerminal record.status.state = true := by
    rw [haccepted]
    rfl
  unfold reconcileAcceptedRecord at hexec
  split at hexec
  · rename_i hprovenance
    exact (h.closes_operationOnly hstored hopen rfl hexec).reconciles
      (.neverStarted haccepted hprovenance)
  · rename_i hprovenance
    exact (h.closes_operationOnly hstored hopen rfl hexec).reconciles
      (.unattributed haccepted (Bool.eq_false_iff.mpr hprovenance))

theorem Reconciles.after_observation {middle : ControlPlane σ}
    (hobserves : ObservesOnly plane middle record) (hrunning : record.status.state ≠ .accepted)
    (h : Reconciles host store record terminal middle plane')
    (hobserved : plane'.observed = middle.observed) :
    Reconciles host store record terminal plane plane' := by
  have hsnapshot : middle.snapshotState = plane.snapshotState := by rw [hobserves.same]
  have hsame : middle.operations = plane.operations := by rw [hobserves.same]
  refine ⟨?_, h.receipt, ?_, h.loaded, ?_⟩
  · rw [← hsnapshot]
    exact h.recovered
  · rw [← hsame]
    exact h.operations
  · rw [hobserved]
    exact hobserves.observed.imp id fun heq => ⟨hrunning, heq⟩

theorem ObservesOnly.loaded {middle : ControlPlane σ} (h : Loaded store plane)
    (hobserves : ObservesOnly plane middle record) : Loaded store middle := by
  rw [hobserves.same]
  exact ⟨h.operations, h.state, h.keyed⟩

theorem Loaded.reconcileRunningRecord_ok (h : Loaded store plane)
    (hstored : plane.operations.get? record.receipt.operationId = some record)
    (hopen : isNonTerminal record.status.state = true)
    (hrunning : record.status.state ≠ .accepted)
    (hexec : exec (reconcileRunningRecord host store record) plane = (.ok (), plane')) :
    ∃ terminal, Reconciles host store record terminal plane plane' := by
  unfold reconcileRunningRecord at hexec
  rw [exec_lift_bind_ok_iff] at hexec
  obtain ⟨invoked, _, hexec⟩ := hexec
  split at hexec
  · exact (h.closes_operationOnly hstored hopen rfl hexec).reconciles (.unobservable hrunning)
  · rw [exec_bind_ok_iff] at hexec
    obtain ⟨effect, middle, hobserve, hexec⟩ := hexec
    obtain ⟨hobserves, hjustified⟩ := observeRunningRecord_ok hobserve
    have hsnapshot : middle.snapshotState = plane.snapshotState := by rw [hobserves.same]
    have hloaded := hobserves.loaded h
    have hmiddle : middle.operations.get? record.receipt.operationId = some record := by
      rw [show middle.operations = plane.operations by rw [hobserves.same]]
      exact hstored
    rw [← hsnapshot] at hjustified
    cases effect with
    | absent =>
      have hcloses := hloaded.closes_operationOnly hmiddle hopen rfl hexec
      obtain ⟨terminal, hreconciles⟩ := hcloses.reconciles (.absent hrunning hjustified)
      exact ⟨terminal, hreconciles.after_observation hobserves hrunning hcloses.observed⟩
    | indeterminate =>
      have hcloses := hloaded.closes_operationOnly hmiddle hopen rfl hexec
      obtain ⟨terminal, hreconciles⟩ := hcloses.reconciles (.unobservable hrunning)
      exact ⟨terminal, hreconciles.after_observation hobserves hrunning hcloses.observed⟩
    | applied result =>
      obtain ⟨terminal, hreceipt, hstate, hcommits⟩ :=
        hloaded.commits_recoveryTerminal hmiddle hopen rfl hexec
      have hrecovered : Recovered host middle.snapshotState.snapshot record terminal.status.state
          plane'.snapshotState.snapshot := by
        rw [hstate]
        exact .applied hrunning hjustified (hcommits.snapshotBearing rfl)
      have hoperations := hcommits.operations
      rw [hreceipt] at hoperations
      have hreconciles : Reconciles host store record terminal middle plane' :=
        ⟨hrecovered, hreceipt, hoperations, hcommits.loaded, Or.inl hcommits.observed⟩
      exact ⟨terminal, hreconciles.after_observation hobserves hrunning hcommits.observed⟩

theorem Loaded.reconcileRecord_ok (h : Loaded store plane)
    (hstored : plane.operations.get? record.receipt.operationId = some record)
    (hopen : isNonTerminal record.status.state = true)
    (hexec : exec (reconcileRecord host store record) plane = (.ok (), plane')) :
    ∃ terminal, Reconciles host store record terminal plane plane' := by
  unfold reconcileRecord at hexec
  rw [exec_bind_ok_iff] at hexec
  obtain ⟨isTool, middle, htool, hexec⟩ := hexec
  rcases h.reconcileDeliveryTool_ok hstored hopen htool with
    ⟨rfl, rfl⟩ | ⟨rfl, hretained, after, hsettled, hcloses⟩
  · simp only [Bool.false_eq_true, if_false] at hexec
    split at hexec
    · rename_i haccepted
      exact h.reconcileAcceptedRecord_ok hstored haccepted hexec
    · rename_i hrunning
      exact h.reconcileRunningRecord_ok hstored hopen hrunning hexec
  · simp only [if_true, exec_pure_ok_iff] at hexec
    obtain ⟨_, rfl⟩ := hexec
    by_cases haccepted : record.status.state = .accepted
    · rw [if_pos haccepted] at hcloses
      exact hcloses.reconciles (.withheldTool hretained haccepted hsettled)
    · rw [if_neg haccepted] at hcloses
      exact hcloses.reconciles (.interruptedTool hretained haccepted hsettled)

end OneRecord

end Raes.Recovery
