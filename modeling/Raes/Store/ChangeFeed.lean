import Raes.Lib.ChangeFeed
import Raes.Store.MemoryEffects

/-!
# The change feed of the in-memory store

`load_operation_changes` of the in-memory store and its consumer,
`_refresh_operation_records` of `control_plane_durability.py`.  A reader that
passes back the cursor it received has the records of the store after every call,
whatever writes the store accepted or refused in between.
-/

namespace Raes.Store

open PyError Stateful

/-- A provider-owned cursor and records changed since the previous cursor. -/
structure OperationChanges where
  cursor : ℤ
  records : Dict String ControlPlaneOperationRecord
  reset : Bool

def requireChangeCursor (cursor : Option ℤ) : Except PyError Unit :=
  refuseIf (∃ n ∈ cursor, n < 0)
    (valueError "operation change cursor must be a non-negative integer")

def requireOperationChanges (changes : OperationChanges) (cursor : Option ℤ) :
    Except PyError OperationChanges := do
  requireChangeCursor (some changes.cursor)
  refuseIf (changes.reset = false ∧ ∀ n ∈ cursor, changes.cursor < n)
    (valueError "store operation change cursor did not preserve its source cut")
  return changes

namespace MemoryStore

/-- The operations that a call reports: all of them after a reset, otherwise those
written since the cursor, each once. -/
def changedIdentities (store : MemoryStore) : Option ℤ → Bool × List String
  | none => (true, store.records.keys)
  | some cursor =>
    if (store.operationChanges.length : ℤ) < cursor then (true, store.records.keys)
    else (false, (store.operationChanges.drop cursor.toNat).eraseDups)

/-- `{key: self._records[key] for key in identities}` -/
def recordsOf (store : MemoryStore) (identities : List String) :
    Except PyError (Dict String ControlPlaneOperationRecord) :=
  identities.foldlM (fun found key =>
    match store.records.get? key with
    | some record => .ok (found.set key record)
    | none => .error (keyError key)) Dict.empty

def loadOperationChanges (store : MemoryStore) (cursor : Option ℤ) :
    Except PyError OperationChanges := do
  requireChangeCursor cursor
  let (reset, identities) := store.changedIdentities cursor
  let records ← store.recordsOf identities
  return ⟨store.operationChanges.length, records, reset⟩

end MemoryStore

structure OperationMirror where
  operations : Dict String ControlPlaneOperationRecord
  cursor : Option ℤ
  index : Option ControlOperationIndex

namespace OperationMirror

def empty : OperationMirror := ⟨Dict.empty, none, none⟩

/-- The mirror after the changes that a call reported. -/
def consume (mirror : OperationMirror) (changes : OperationChanges) : OperationMirror :=
  if changes.reset = true then ⟨changes.records, some changes.cursor, none⟩
  else
    ⟨ChangeFeed.update mirror.operations changes.records.entries, some changes.cursor,
      mirror.index.map fun index => changes.records.values.foldl ControlOperationIndex.apply index⟩

/-- `_refresh_operation_records` -/
def refresh (mirror : OperationMirror) (store : MemoryStore) : Except PyError OperationMirror := do
  let loaded ← store.loadOperationChanges mirror.cursor
  let changes ← requireOperationChanges loaded mirror.cursor
  return mirror.consume changes

end OperationMirror

/-! ## Writes -/

namespace MemoryStore

variable {rules : ContractRules} {s t : MemoryStore}

inductive FeedStep (s t : MemoryStore) : Prop
  | unchanged (records : t.records = s.records)
      (changes : t.operationChanges = s.operationChanges)
  | wrote (record : ControlPlaneOperationRecord)
      (records : t.records = s.records.set record.receipt.operationId record)
      (changes : t.operationChanges = s.operationChanges ++ [record.receipt.operationId])

theorem FeedStep.refl (s : MemoryStore) : FeedStep s s := .unchanged rfl rfl

theorem saveRecordLocked_feedStep {record : ControlPlaneOperationRecord}
    (h : exec (saveRecordLocked rules record) s = (.ok (), t)) : FeedStep s t := by
  obtain ⟨-, ⟨-, rfl⟩ | ⟨-, idempotency, -, rfl⟩⟩ := (saveRecordLocked_ok_iff rules record s t).1 h
  · exact .refl t
  · exact .wrote record rfl rfl

theorem perform_feedStep {op : StoreOp} {answer : StoreAnswer}
    (h : exec (perform rules op) s = (.ok answer, t)) : FeedStep s t := by
  cases op with
  | claimRecord record legacy blocked =>
    obtain ⟨stored, h, -⟩ := exec_map_ok_iff.1 h
    obtain ⟨-, ⟨-, -, rfl⟩ | ⟨-, -, -, -, -, hsave⟩⟩ :=
      (claimRecord_ok_iff rules record stored legacy blocked s t).1 h
    · exact .refl t
    · exact saveRecordLocked_feedStep hsave
  | saveRecord record =>
    obtain ⟨_, h, -⟩ := exec_map_ok_iff.1 h
    exact saveRecordLocked_feedStep h
  | saveSnapshot snapshot revision =>
    obtain ⟨committed, h, -⟩ := exec_map_ok_iff.1 h
    obtain ⟨-, -, -, -, rfl⟩ := (saveSnapshot_ok_iff rules snapshot revision committed s t).1 h
    exact .unchanged rfl rfl
  | commitParticipantTransition heads revision snapshot record event =>
    obtain ⟨committed, h, -⟩ := exec_map_ok_iff.1 h
    obtain ⟨-, ⟨-, -, hretry⟩ | ⟨-, -, -, -, -, -, -, idempotency, -, rfl⟩⟩ :=
      (commitParticipantTransition_ok_iff rules heads revision snapshot record event committed s
        t).1 h
    · rw [(validateRetry_ok hretry).2.2.2]
      exact .refl s
    · exact .wrote record rfl rfl
  | commitInvocationTransition expected record event =>
    obtain ⟨committed, h, -⟩ := exec_map_ok_iff.1 h
    obtain ⟨-, -, ⟨-, rfl⟩ | ⟨-, -, idempotency, -, rfl⟩⟩ :=
      (commitInvocationTransition_ok_iff rules expected record event committed s t).1 h
    · exact .refl t
    · exact .wrote record rfl rfl
  | commitTerminalOperation snapshot record event mode revision =>
    obtain ⟨committed, h, -⟩ := exec_map_ok_iff.1 h
    obtain ⟨-, published, -, -, ⟨-, hretry⟩ | ⟨-, -, -, -, -, idempotency, -, rfl⟩⟩ :=
      (commitTerminalOperation_ok_iff rules snapshot record event mode revision committed s t).1 h
    · rw [(validateRetry_ok hretry).2.2.2]
      exact .refl s
    · exact .wrote record rfl rfl
  | appendAudit event =>
    cases h
    exact .unchanged rfl rfl
  | stopEffectAdmission event =>
    obtain ⟨_, h, -⟩ := exec_map_ok_iff.1 h
    unfold stopEffectAdmission at h
    rw [exec_get_bind] at h
    split at h
    · cases h
      exact .unchanged rfl rfl
    · cases h
      exact .unchanged rfl rfl

theorem step_feedStep (rules : ContractRules) (s : MemoryStore) (op : StoreOp) :
    FeedStep s (step rules s op) := by
  by_cases h : Accepts rules s op
  · obtain ⟨answer, hanswer⟩ := h
    have hexec : exec (perform rules op) s = (.ok answer, step rules s op) := by
      rw [← hanswer]
      rfl
    exact perform_feedStep hexec
  · rw [step_of_refused h]
    exact .refl s

/-! ## Calls -/

theorem recordsOf_ok {identities : List String}
    (hstored : ∀ key ∈ identities, key ∈ s.records.keys) :
    ∃ found, s.recordsOf identities = .ok found ∧
      (∀ key record, found.get? key = some record ↔
        key ∈ identities ∧ s.records.get? key = some record) := by
  suffices hfold : ∀ (seen : List String) (d : Dict String ControlPlaneOperationRecord),
      (∀ key record, d.get? key = some record ↔
        key ∈ seen ∧ s.records.get? key = some record) →
      ∃ found, identities.foldlM (fun found key =>
          match s.records.get? key with
          | some record => Except.ok (found.set key record)
          | none => Except.error (keyError key)) d = .ok found ∧
        ∀ key record, found.get? key = some record ↔
          key ∈ seen ++ identities ∧ s.records.get? key = some record by
    apply hfold [] Dict.empty
    intro key record
    simp
  induction identities with
  | nil =>
    intro seen d hd
    refine ⟨d, rfl, ?_⟩
    rw [List.append_nil]
    exact hd
  | cons key rest ih =>
    intro seen d hd
    obtain ⟨record, hrecord⟩ := Dict.mem_keys_iff.mp (hstored key List.mem_cons_self)
    rw [List.foldlM_cons, hrecord]
    have hnext : ∀ k r, (d.set key record).get? k = some r ↔
        k ∈ seen ++ [key] ∧ s.records.get? k = some r := by
      intro k r
      rw [Dict.get?_set, List.mem_append, List.mem_singleton]
      by_cases hk : k = key
      · subst hk
        simp [hrecord]
      · simp [hk, hd]
    have hrest := ih (fun k hk => hstored k (List.mem_cons_of_mem _ hk)) (seen ++ [key])
      (d.set key record) hnext
    rw [List.append_assoc] at hrest
    exact hrest

end MemoryStore

/-! ## The mirror -/

open MemoryStore

/-- The mirror lags behind its store by the writes after its cursor. -/
def Mirrors (store : MemoryStore) (mirror : OperationMirror) : Prop :=
  ChangeFeed.Logged store.records store.operationChanges ∧
    ∀ cursor ∈ mirror.cursor, 0 ≤ cursor ∧ ChangeFeed.Current store.records
      store.operationChanges cursor.toNat mirror.operations

variable {store : MemoryStore} {mirror : OperationMirror}

theorem mirrors_init (state : SnapshotState) : Mirrors (MemoryStore.init state) .empty := by
  constructor
  · intro key hkey
    cases hkey
  · intro cursor hcursor
    cases hcursor

theorem Mirrors.feedStep {next : MemoryStore} (h : Mirrors store mirror)
    (hstep : FeedStep store next) : Mirrors next mirror := by
  obtain ⟨hlogged, hcurrent⟩ := h
  cases hstep with
  | unchanged hrecords hchanges =>
    unfold Mirrors
    rw [hrecords, hchanges]
    exact ⟨hlogged, hcurrent⟩
  | wrote record hrecords hchanges =>
    unfold Mirrors
    rw [hrecords, hchanges]
    exact ⟨hlogged.write _ _, fun cursor hcursor =>
      ⟨(hcurrent cursor hcursor).1, (hcurrent cursor hcursor).2.write _ _⟩⟩

theorem loadOperationChanges_ok (h : Mirrors store mirror) :
    ∃ changes, store.loadOperationChanges mirror.cursor = .ok changes ∧
      changes.cursor = store.operationChanges.length ∧
      (∀ key record, changes.records.get? key = some record →
        store.records.get? key = some record) ∧
      (changes.reset = true → ∀ key, changes.records.get? key = store.records.get? key) ∧
      (changes.reset = false → ∃ cursor, mirror.cursor = some cursor ∧
        cursor ≤ changes.cursor ∧
        ∀ key ∈ store.operationChanges.drop cursor.toNat, key ∈ changes.records.keys) := by
  obtain ⟨hlogged, hcurrent⟩ := h
  cases hcursor : mirror.cursor with
  | none =>
    have hkeys : ∀ key ∈ store.records.keys, key ∈ store.records.keys := fun _ hkey => hkey
    obtain ⟨found, hfound, hget⟩ := recordsOf_ok hkeys
    refine ⟨⟨store.operationChanges.length, found, true⟩, ?_, rfl, ?_, ?_, fun hreset => by cases hreset⟩
    · simp only [loadOperationChanges, requireChangeCursor, changedIdentities, hfound]
      rfl
    · intro key record hkey
      exact ((hget key record).mp hkey).2
    · intro _ key
      apply Option.ext
      intro record
      rw [hget key record]
      constructor
      · exact And.right
      · intro hkey
        exact ⟨Dict.mem_keys_iff.mpr ⟨record, hkey⟩, hkey⟩
  | some cursor =>
    obtain ⟨hnonneg, hle, -⟩ := hcurrent cursor hcursor
    have hlog : ∀ key ∈ (store.operationChanges.drop cursor.toNat).eraseDups,
        key ∈ store.records.keys := by
      intro key hkey
      rw [List.mem_eraseDups] at hkey
      exact hlogged key (List.mem_of_mem_drop hkey)
    obtain ⟨found, hfound, hget⟩ := recordsOf_ok hlog
    have hbehind : ¬ (store.operationChanges.length : ℤ) < cursor := by omega
    refine ⟨⟨store.operationChanges.length, found, false⟩, ?_, rfl, ?_, fun hreset => (by cases hreset), ?_⟩
    · have hcheck : requireChangeCursor (some cursor) = .ok () := by
        rw [requireChangeCursor, refuseIf_eq_ok_iff]
        rintro ⟨n, hn, hneg⟩
        cases hn
        omega
      simp only [loadOperationChanges, hcheck, changedIdentities, if_neg hbehind, hfound]
      rfl
    · intro key record hkey
      exact ((hget key record).mp hkey).2
    · intro _
      refine ⟨cursor, rfl, by show cursor ≤ (store.operationChanges.length : ℤ); omega, ?_⟩
      intro key hkey
      obtain ⟨record, hrecord⟩ :=
        Dict.mem_keys_iff.mp (hlogged key (List.mem_of_mem_drop hkey))
      exact Dict.mem_keys_iff.mpr
        ⟨record, (hget key record).mpr ⟨List.mem_eraseDups.mpr hkey, hrecord⟩⟩

theorem refresh_ok (h : Mirrors store mirror) :
    ∃ next, mirror.refresh store = .ok next ∧ Mirrors store next ∧
      ∀ key, next.operations.get? key = store.records.get? key := by
  obtain ⟨changes, hload, hcursor, hvalues, hreset, hchanged⟩ := loadOperationChanges_ok h
  have hchecked : requireOperationChanges changes mirror.cursor = .ok changes := by
    unfold requireOperationChanges requireChangeCursor
    rw [seq_eq_ok_iff, seq_eq_ok_iff, refuseIf_eq_ok_iff, refuseIf_eq_ok_iff]
    refine ⟨?_, ?_, rfl⟩
    · rintro ⟨n, hn, hneg⟩
      cases hn
      omega
    · rintro ⟨hfalse, hbefore⟩
      obtain ⟨cursor, hmirror, hle, -⟩ := hchanged hfalse
      exact absurd (hbefore cursor hmirror) (by omega)
  have hmirror : ∀ key, (mirror.consume changes).operations.get? key =
      store.records.get? key := by
    unfold OperationMirror.consume
    cases hflag : changes.reset with
    | true => exact hreset hflag
    | false =>
      obtain ⟨cursor, hsome, -, hall⟩ := hchanged hflag
      have hstored : ∀ e ∈ changes.records.entries, store.records.get? e.1 = some e.2 :=
        fun e he => hvalues e.1 e.2 (Dict.get?_eq_some_iff.mpr he)
      exact ((h.2 cursor hsome).2.update hstored hall).get?_eq
  refine ⟨mirror.consume changes, ?_, ⟨h.1, ?_⟩, hmirror⟩
  · simp only [OperationMirror.refresh, hload, hchecked, bind, Except.bind]
    rfl
  · intro cursor hsome
    have heq : cursor = store.operationChanges.length := by
      rw [← hcursor]
      unfold OperationMirror.consume at hsome
      split at hsome
      · exact (Option.some.inj hsome).symm
      · exact (Option.some.inj hsome).symm
    subst heq
    exact ⟨Int.natCast_nonneg _, ChangeFeed.current_end hmirror⟩

/-! ## Runs -/

/-- What happens to a store with one reader: an operation of the store, accepted or
refused, or a call of the reader. -/
inductive FeedEvent where
  | write (op : StoreOp)
  | call

/-- A call that raises leaves the mirror as it is. -/
def feedStep (rules : ContractRules) (state : MemoryStore × OperationMirror) :
    FeedEvent → MemoryStore × OperationMirror
  | .write op => (MemoryStore.step rules state.1 op, state.2)
  | .call =>
    match state.2.refresh state.1 with
    | .ok next => (state.1, next)
    | .error _ => state

theorem mirrors_run (rules : ContractRules) (state : SnapshotState) (events : List FeedEvent) :
    Mirrors (Run.run (feedStep rules) (MemoryStore.init state, .empty) events).1
      (Run.run (feedStep rules) (MemoryStore.init state, .empty) events).2 := by
  apply Run.run_invariant (I := fun state : MemoryStore × OperationMirror =>
    Mirrors state.1 state.2)
  · intro state event h
    cases event with
    | write op => exact h.feedStep (step_feedStep rules state.1 op)
    | call =>
      obtain ⟨next, hnext, hmirrors, -⟩ := refresh_ok h
      show Mirrors (feedStep rules state .call).1 (feedStep rules state .call).2
      rw [feedStep, hnext]
      exact hmirrors
  · exact mirrors_init state

/-- After any writes and calls, the next call succeeds and makes the mirror equal to
what the store then loads. -/
theorem change_feed_complete (rules : ContractRules) (state : SnapshotState)
    (events : List FeedEvent) :
    ∃ mirror, (Run.run (feedStep rules) (MemoryStore.init state, .empty) events).2.refresh
          (Run.run (feedStep rules) (MemoryStore.init state, .empty) events).1 = .ok mirror ∧
      (∀ id, mirror.operations.get? id =
        (Run.run (feedStep rules) (MemoryStore.init state, .empty) events).1.records.get? id) ∧
      ∀ records, loadRecords rules
          (Run.run (feedStep rules) (MemoryStore.init state, .empty) events).1 = .ok records →
        ∀ id, mirror.operations.get? id = records.get? id := by
  obtain ⟨mirror, hmirror, -, hequal⟩ := refresh_ok (mirrors_run rules state events)
  refine ⟨mirror, hmirror, hequal, ?_⟩
  intro records hrecords
  unfold loadRecords at hrecords
  obtain ⟨-, hrecords⟩ := seq_eq_ok_iff.mp hrecords
  cases hrecords
  exact hequal

end Raes.Store
