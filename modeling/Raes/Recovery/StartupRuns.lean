import Raes.Recovery.Reconciled
import Raes.Store.MemoryRuns

/-!
# Whole runs of startup reconciliation

One pass over all interrupted records: none stays open, the others keep as they
are, and the snapshot and the calls to backends are accounted for record by
record.
-/

namespace Raes.Recovery

open Store Stateful PyError

/-! ## The in-memory store as a provider -/

def memoryProvider (rules : ContractRules) : ControlPlaneStore rules MemoryStore where
  held s := ⟨s.records, s.snapshotState⟩
  loadRecords := MemoryStore.loadRecords rules
  loadSnapshotState s := .ok s.snapshotState
  readAudit s := .ok s.audit
  commitTerminalOperation snapshot record event mode revision :=
    MemoryStore.commitTerminalOperation rules snapshot record (some event) mode revision
  commitParticipantTransition heads revision snapshot record event :=
    MemoryStore.commitParticipantTransition rules (.histories heads) revision snapshot record event
  loadRecords_ok := by
    intro s records h
    unfold MemoryStore.loadRecords at h
    rw [seq_eq_ok_iff] at h
    exact (Except.ok.inj h.2).symm
  loadSnapshotState_ok := fun _ _ h => (Except.ok.inj h).symm
  terminal_ok := by
    intro snapshot record event mode revision s answer t h
    rw [MemoryStore.commitTerminalOperation_ok_iff] at h
    obtain ⟨_, event', _, _, ⟨htransition, hretry⟩ | ⟨_, _, hrevision, _, hsnapshot, _, _, rfl⟩⟩ := h
    · have hstored := storedEq_of_transition (requireTerminalOperationTransition_ok htransition).2
      obtain rfl := MemoryStore.validateRetry_state hretry
      exact Or.inl ⟨hstored, rfl⟩
    · refine Or.inr ⟨rfl, rfl, ?_, ?_⟩
      · rintro rfl
        exact (Except.ok.inj hsnapshot).symm
      · rintro rfl
        unfold MemoryStore.terminalSnapshot at hsnapshot
        rw [bind_eq_ok_iff] at hsnapshot
        obtain ⟨_, _, hsealed⟩ := hsnapshot
        exact (sealedState_ok hsealed).1
  participant_ok := by
    intro heads revision snapshot record event s answer t h
    rw [MemoryStore.commitParticipantTransition_ok_iff] at h
    obtain ⟨_, ⟨hstored, _, hretry⟩ | ⟨_, _, _, _, _, _, ⟨_, _, hsealed⟩, _, _, rfl⟩⟩ := h
    · obtain rfl := MemoryStore.validateRetry_state hretry
      exact Or.inl ⟨hstored, rfl⟩
    · exact Or.inr ⟨rfl, rfl, nofun, fun _ => (sealedState_ok hsealed).1⟩
  participant_error := by
    intro heads revision snapshot record event s error t h
    obtain rfl := MemoryStore.commitParticipantTransition_atomic rules (.histories heads) revision
      snapshot record event s error t h
    exact Or.inl rfl

section Pass

variable {σ : Type} {host : RecoveryHost} {store : ControlPlaneStore host.rules σ}

/-- The records that a pass closes, each with its terminal version, and the
snapshots that it goes through. -/
inductive RecoveryRun (host : RecoveryHost) : RuntimeSnapshot →
    List (ControlPlaneOperationRecord × ControlPlaneOperationRecord) → RuntimeSnapshot → Prop
  | nil (snapshot : RuntimeSnapshot) : RecoveryRun host snapshot [] snapshot
  | cons {before middle after : RuntimeSnapshot} {record terminal : ControlPlaneOperationRecord}
      {rest : List (ControlPlaneOperationRecord × ControlPlaneOperationRecord)}
      (recovered : Recovered host before record terminal.status.state middle)
      (receipt : terminal.receipt = record.receipt) (run : RecoveryRun host middle rest after) :
      RecoveryRun host before ((record, terminal) :: rest) after

structure ObservedOnce (records : List ControlPlaneOperationRecord)
    (requests : List RecoveryObservationRequest) : Prop where
  distinct : (requests.map RecoveryObservationRequest.operationId).Sublist
    (records.map ControlPlaneOperationRecord.operationId)
  running : ∀ request ∈ requests, ∃ record ∈ records, record.status.state ≠ .accepted ∧
    ∃ before, request = observationRequest record before

theorem ObservedOnce.cons {record : ControlPlaneOperationRecord}
    {records : List ControlPlaneOperationRecord} {requests : List RecoveryObservationRequest}
    (h : ObservedOnce records requests) : ObservedOnce (record :: records) requests where
  distinct := h.distinct.cons _
  running := by
    intro request hrequest
    obtain ⟨other, hother, hrest⟩ := h.running request hrequest
    exact ⟨other, List.mem_cons_of_mem _ hother, hrest⟩

theorem ObservedOnce.cons_observed {record : ControlPlaneOperationRecord}
    {records : List ControlPlaneOperationRecord} {requests : List RecoveryObservationRequest}
    (h : ObservedOnce records requests) (hrunning : record.status.state ≠ .accepted)
    (before : RuntimeSnapshot) :
    ObservedOnce (record :: records) (observationRequest record before :: requests) where
  distinct := h.distinct.cons_cons _
  running := by
    intro request hrequest
    rcases List.mem_cons.mp hrequest with rfl | hmem
    · exact ⟨record, List.mem_cons_self, hrunning, before, rfl⟩
    · exact h.cons.running request hmem

structure Passes (host : RecoveryHost) (store : ControlPlaneStore host.rules σ)
    (records : List ControlPlaneOperationRecord) (plane plane' : ControlPlane σ) : Prop where
  loaded : Loaded store plane'
  run : ∃ closed, closed.map Prod.fst = records ∧
    RecoveryRun host plane.snapshotState.snapshot closed plane'.snapshotState.snapshot ∧
    ∀ pair ∈ closed, plane'.operations.get? pair.1.receipt.operationId = some pair.2
  others : ∀ id, id ∉ records.map ControlPlaneOperationRecord.operationId →
    plane'.operations.get? id = plane.operations.get? id
  observed : ∃ requests, plane'.observed = plane.observed ++ requests ∧
    ObservedOnce records requests

variable {plane : ControlPlane σ}

theorem passes_nil (h : Loaded store plane) : Passes host store [] plane plane where
  loaded := h
  run := ⟨[], rfl, .nil _, fun _ hpair => absurd hpair List.not_mem_nil⟩
  others := fun _ _ => rfl
  observed := ⟨[], (List.append_nil _).symm, List.nil_sublist _,
    fun _ hrequest => absurd hrequest List.not_mem_nil⟩

theorem Reconciles.passes_cons {plane middle plane' : ControlPlane σ}
    {record terminal : ControlPlaneOperationRecord} {records : List ControlPlaneOperationRecord}
    (hfirst : Reconciles host store record terminal plane middle)
    (hrest : Passes host store records middle plane')
    (hnew : record.receipt.operationId ∉ records.map ControlPlaneOperationRecord.operationId) :
    Passes host store (record :: records) plane plane' := by
  obtain ⟨closed, hclosed, hrun, hstored⟩ := hrest.run
  obtain ⟨requests, hrequests, honce⟩ := hrest.observed
  refine ⟨hrest.loaded, ⟨(record, terminal) :: closed, ?_, ?_, ?_⟩, ?_, ?_⟩
  · rw [List.map_cons, hclosed]
  · exact .cons hfirst.recovered hfirst.receipt hrun
  · intro pair hpair
    rcases List.mem_cons.mp hpair with rfl | hmem
    · rw [hrest.others _ hnew, hfirst.operations, Dict.get?_set_self]
    · exact hstored pair hmem
  · intro id hid
    rw [List.map_cons, List.mem_cons, not_or] at hid
    rw [hrest.others id hid.2, hfirst.operations]
    exact Dict.get?_set_ne _ _ hid.1
  · rcases hfirst.observed with hsame | ⟨hrunning, hone⟩
    · exact ⟨requests, by rw [hrequests, hsame], honce.cons⟩
    · refine ⟨observationRequest record plane.snapshotState.snapshot :: requests, ?_,
        honce.cons_observed hrunning _⟩
      rw [hrequests, hone, List.append_assoc, List.singleton_append]

theorem Loaded.passes {records : List ControlPlaneOperationRecord}
    (hdistinct : (records.map ControlPlaneOperationRecord.operationId).Nodup)
    {plane plane' : ControlPlane σ} (h : Loaded store plane)
    (hstored : ∀ record ∈ records,
      plane.operations.get? record.receipt.operationId = some record ∧
        isNonTerminal record.status.state = true)
    (hexec : exec (forM records (reconcileRecord host store)) plane = (.ok (), plane')) :
    Passes host store records plane plane' := by
  induction records generalizing plane with
  | nil =>
    obtain rfl : plane = plane' := congrArg Prod.snd hexec
    exact passes_nil h
  | cons record rest ih =>
    rw [List.map_cons, List.nodup_cons] at hdistinct
    rw [List.forM_cons, exec_bind_ok_iff] at hexec
    obtain ⟨_, middle, hfirst, hrest⟩ := hexec
    obtain ⟨hrecord, hopen⟩ := hstored record List.mem_cons_self
    obtain ⟨terminal, hreconciles⟩ := h.reconcileRecord_ok hrecord hopen hfirst
    refine hreconciles.passes_cons (ih hdistinct.2 hreconciles.loaded ?_ hrest) hdistinct.1
    intro other hother
    have hne : other.receipt.operationId ≠ record.receipt.operationId := by
      intro heq
      exact hdistinct.1 (List.mem_map.mpr ⟨other, hother, heq⟩)
    rw [hreconciles.operations, Dict.get?_set_ne _ _ hne]
    exact hstored other (List.mem_cons_of_mem _ hother)

/-! ## The whole pass -/

/-- What startup reconciliation leaves of the operations, the snapshot and the
backends.  An operation that was open ends succeeded only after a validated
observation, and failed only when its effect is known to be absent. -/
structure StartupReconciled (host : RecoveryHost) (plane plane' : ControlPlane σ) : Prop where
  settled : ∀ id record, plane'.operations.get? id = some record →
    isNonTerminal record.status.state = false
  unchanged : ∀ id record, plane.operations.get? id = some record →
    isNonTerminal record.status.state = false → plane'.operations.get? id = some record
  recovered : ∀ id record, plane.operations.get? id = some record →
    isNonTerminal record.status.state = true →
    ∃ terminal, plane'.operations.get? id = some terminal ∧ terminal.receipt = record.receipt ∧
      ((terminal.status.state = .cancelled ∧ record.status.state = .accepted) ∨
        terminal.status.state = .indeterminate ∨
        (terminal.status.state = .failed ∧ record.status.state = .running ∧
          ∃ before, EffectAbsent host before record) ∨
        (terminal.status.state = .succeeded ∧ record.status.state = .running ∧
          ∃ before result, ValidatedEffect host before record result))
  fresh : ∀ id, plane.operations.get? id = none → plane'.operations.get? id = none
  snapshot : plane'.snapshotState.snapshot = plane.snapshotState.snapshot ∨
    ∃ id record terminal, plane.operations.get? id = some record ∧
      isNonTerminal record.status.state = true ∧ plane'.operations.get? id = some terminal ∧
      (terminal.status.state = .succeeded ∨ (retainedDeliveryTool record).isSome)
  run : ∃ closed, closed.map Prod.fst = interruptedRecords plane.operations ∧
    RecoveryRun host plane.snapshotState.snapshot closed plane'.snapshotState.snapshot ∧
    ∀ pair ∈ closed, plane'.operations.get? pair.1.receipt.operationId = some pair.2
  observed : ∃ requests, plane'.observed = plane.observed ++ requests ∧
    (requests.map RecoveryObservationRequest.operationId).Nodup ∧
    ∀ request ∈ requests, ∃ record before,
      plane.operations.get? request.operationId = some record ∧
        record.status.state = .running ∧ request = observationRequest record before

theorem running_of_nonTerminal {state : OperationState} (hopen : isNonTerminal state = true)
    (hnot : state ≠ .accepted) : state = .running := by
  cases state with
  | running => rfl
  | accepted => exact absurd rfl hnot
  | succeeded | failed | cancelled | indeterminate => exact Bool.noConfusion hopen

theorem Recovered.outcome {before after : RuntimeSnapshot} {record : ControlPlaneOperationRecord}
    {state : OperationState} (hopen : isNonTerminal record.status.state = true)
    (h : Recovered host before record state after) :
    isNonTerminal state = false ∧
      ((state = .cancelled ∧ record.status.state = .accepted) ∨ state = .indeterminate ∨
        (state = .failed ∧ record.status.state = .running ∧
          ∃ before, EffectAbsent host before record) ∨
        (state = .succeeded ∧ record.status.state = .running ∧
          ∃ before result, ValidatedEffect host before record result)) := by
  cases h with
  | withheldTool tool accepted settled => exact ⟨rfl, Or.inl ⟨rfl, accepted⟩⟩
  | interruptedTool tool running settled => exact ⟨rfl, Or.inr (Or.inl rfl)⟩
  | neverStarted accepted provenance => exact ⟨rfl, Or.inl ⟨rfl, accepted⟩⟩
  | unattributed accepted provenance => exact ⟨rfl, Or.inr (Or.inl rfl)⟩
  | unobservable running => exact ⟨rfl, Or.inr (Or.inl rfl)⟩
  | absent running effect =>
    exact ⟨rfl, Or.inr (Or.inr (Or.inl ⟨rfl, running_of_nonTerminal hopen running, before,
      effect⟩))⟩
  | applied running effect snapshot =>
    exact ⟨rfl, Or.inr (Or.inr (Or.inr ⟨rfl, running_of_nonTerminal hopen running, before, _,
      effect⟩))⟩

theorem Recovered.snapshot {before after : RuntimeSnapshot} {record : ControlPlaneOperationRecord}
    {state : OperationState} (h : Recovered host before record state after)
    (hstate : state ≠ .succeeded) (htool : ¬ (retainedDeliveryTool record).isSome) :
    after = before := by
  cases h with
  | withheldTool tool accepted settled => exact absurd tool htool
  | interruptedTool tool running settled => exact absurd tool htool
  | neverStarted accepted provenance => rfl
  | unattributed accepted provenance => rfl
  | unobservable running => rfl
  | absent running effect => rfl
  | applied running effect snapshot => exact absurd rfl hstate

theorem RecoveryRun.pair {before after : RuntimeSnapshot}
    {closed : List (ControlPlaneOperationRecord × ControlPlaneOperationRecord)}
    (h : RecoveryRun host before closed after)
    {pair : ControlPlaneOperationRecord × ControlPlaneOperationRecord} (hpair : pair ∈ closed) :
    pair.2.receipt = pair.1.receipt ∧
      ∃ before after, Recovered host before pair.1 pair.2.status.state after := by
  induction h with
  | nil => exact absurd hpair List.not_mem_nil
  | cons recovered receipt run ih =>
    rcases List.mem_cons.mp hpair with rfl | hmem
    · exact ⟨receipt, _, _, recovered⟩
    · exact ih hmem

theorem RecoveryRun.snapshot {before after : RuntimeSnapshot}
    {closed : List (ControlPlaneOperationRecord × ControlPlaneOperationRecord)}
    (h : RecoveryRun host before closed after)
    (hclosed : ∀ pair ∈ closed, pair.2.status.state ≠ .succeeded ∧
      ¬ (retainedDeliveryTool pair.1).isSome) : after = before := by
  induction h with
  | nil => rfl
  | cons recovered receipt run ih =>
    rw [ih fun pair hpair => hclosed pair (List.mem_cons_of_mem _ hpair)]
    obtain ⟨hstate, htool⟩ := hclosed _ List.mem_cons_self
    exact recovered.snapshot hstate htool

theorem Loaded.mem_interruptedRecords (h : Loaded store plane)
    (record : ControlPlaneOperationRecord) : record ∈ interruptedRecords plane.operations ↔
      plane.operations.get? record.receipt.operationId = some record ∧
        isNonTerminal record.status.state = true := by
  unfold interruptedRecords
  rw [List.mem_insertionSort, List.mem_filter, Dict.mem_values_iff]
  refine and_congr_left fun _ => ⟨?_, fun hget => ⟨_, hget⟩⟩
  rintro ⟨id, hget⟩
  rw [h.keyed id record hget]
  exact hget

theorem Loaded.distinct_interruptedRecords (h : Loaded store plane) :
    ((interruptedRecords plane.operations).map ControlPlaneOperationRecord.operationId).Nodup := by
  have hids : plane.operations.values.map ControlPlaneOperationRecord.operationId =
      plane.operations.keys := by
    unfold Dict.values Dict.keys
    rw [List.map_map]
    refine List.map_congr_left fun entry hentry => ?_
    exact h.keyed entry.1 entry.2 (Dict.get?_eq_some_iff.2 hentry)
  have hvalues : (plane.operations.values.map ControlPlaneOperationRecord.operationId).Nodup := by
    rw [hids]
    exact plane.operations.keys_nodup
  have hperm := List.perm_insertionSort submittedBefore
    (plane.operations.values.filter fun record => isNonTerminal record.status.state)
  unfold interruptedRecords
  rw [(hperm.map ControlPlaneOperationRecord.operationId).nodup_iff]
  exact hvalues.sublist (List.filter_sublist.map _)

/-- After a pass there is nothing left to reconcile: a later pass, of any host over any
store, answers and changes nothing. -/
theorem reconcileStartupOperations_again {plane plane' : ControlPlane σ} (h : Loaded store plane)
    (hexec : exec (reconcileStartupOperations host store) plane = (.ok (), plane'))
    (later : RecoveryHost) (laterStore : ControlPlaneStore later.rules σ) :
    exec (reconcileStartupOperations later laterStore) plane' = (.ok (), plane') := by
  unfold reconcileStartupOperations at hexec
  rw [exec_get_bind] at hexec
  have hpasses := h.passes h.distinct_interruptedRecords
    (fun record hrecord => (h.mem_interruptedRecords record).mp hrecord) hexec
  obtain ⟨closed, hclosed, hrun, hstored⟩ := hpasses.run
  have hnone : interruptedRecords plane'.operations = [] := by
    refine List.eq_nil_iff_forall_not_mem.mpr fun record hrecord => ?_
    obtain ⟨hget, hopen⟩ := (hpasses.loaded.mem_interruptedRecords record).mp hrecord
    by_cases hid : record.operationId ∈
        (interruptedRecords plane.operations).map ControlPlaneOperationRecord.operationId
    · -- The pass closed the operation, and stored how it ended.
      obtain ⟨first, hfirst, hsame⟩ := List.mem_map.mp hid
      have hwas := ((h.mem_interruptedRecords first).mp hfirst).2
      rw [← hclosed] at hfirst
      obtain ⟨pair, hpair, rfl⟩ := List.mem_map.mp hfirst
      have hterminal := hstored pair hpair
      rw [show pair.1.receipt.operationId = record.receipt.operationId from hsame, hget] at hterminal
      obtain rfl := Option.some.inj hterminal
      obtain ⟨-, _, _, hrecovered⟩ := hrun.pair hpair
      rw [(hrecovered.outcome hwas).1] at hopen
      cases hopen
    · have hsame := hpasses.others _ hid
      rw [show record.operationId = record.receipt.operationId from rfl, hget] at hsame
      exact hid (List.mem_map_of_mem ((h.mem_interruptedRecords record).mpr ⟨hsame.symm, hopen⟩))
  unfold reconcileStartupOperations
  rw [exec_get_bind]
  dsimp only
  rw [hnone]
  rfl

end Pass

/-! ## Planes over the in-memory store -/

def restoredPlane (s : MemoryStore) : ControlPlane MemoryStore :=
  ⟨s, s.records, s.snapshotState, false, []⟩

theorem loaded_restoredPlane (rules : ContractRules) (state : SnapshotState)
    (ops : List StoreOp) :
    Loaded (memoryProvider rules)
      (restoredPlane (Run.run (MemoryStore.step rules) (MemoryStore.init state) ops)) where
  operations := rfl
  state := rfl
  keyed := (MemoryStore.consistent_run rules state ops).ids

open MemoryStore (plainRecord plainContext)

def plainHost : RecoveryHost where
  rules := .lax
  updatedAt _ := "t1"
  target := none
  mixedRuntime := none
  validatedBackendResult _ _ result := result
  controlProjection _ _ := .ok ()
  toolActionClaimPayload _ := .ok none
  deliveryToolOriginMatches _ _ := false
  toolOutcome _ _ _ _ _ _ := .error (valueError "no delivery tool")
  requireSettledSnapshot _ := .ok ()

def planeOver (record : ControlPlaneOperationRecord) : ControlPlane MemoryStore :=
  restoredPlane (Run.run (MemoryStore.step .lax) (MemoryStore.init MemoryStore.emptyState)
    [.saveRecord record])

theorem reconciled_again_plain_claim :
    let plane' := (exec (reconcileStartupOperations plainHost (memoryProvider .lax))
      (planeOver (plainRecord "a" "" .accepted))).2
    exec (reconcileStartupOperations plainHost (memoryProvider .lax)) plane' = (.ok (), plane') :=
  reconcileStartupOperations_again (loaded_restoredPlane .lax MemoryStore.emptyState _)
    (Prod.ext (by decide +kernel) rfl) plainHost (memoryProvider .lax)

def interruptedPhase : ControlPlaneOperationRecord :=
  let context := { plainContext with operationKind := .compositionPhase }
  let record := plainRecord "a" "" .running
  { record with
    receipt := { record.receipt with context := context }
    status := { record.status with context := context } }

end Raes.Recovery
