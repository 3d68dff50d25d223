import Raes.Lib.ExceptList
import Raes.Store.HistoryPersist

/-!
# History rows read back

Rows that stand for a family of histories are restored to exactly these
histories, and the rows that a snapshot commit leaves stand for the histories of
the snapshot.
-/

namespace Raes.Store

open PyError

variable {rules : HistoryRules} {rows : HistoryRows} {c : StoredHistories}

/-! ## One stream -/

def positionedRows (rules : HistoryRules) (records : List HistoryRecord) :
    List (ℕ × Json × String) :=
  records.mapIdx fun i record => (i, recordRow rules record)

variable (records : List HistoryRecord)

theorem mem_positionedRows (i : ℕ) (row : Json × String) :
    (i, row) ∈ positionedRows rules records ↔ records[i]?.map (recordRow rules) = some row := by
  unfold positionedRows
  rw [List.mem_mapIdx, Option.map_eq_some_iff]
  constructor
  · rintro ⟨j, hj, heq⟩
    obtain ⟨rfl, rfl⟩ := Prod.mk.inj heq
    exact ⟨_, List.getElem?_eq_getElem hj, rfl⟩
  · rintro ⟨record, hrecord, rfl⟩
    obtain ⟨hi, rfl⟩ := List.getElem?_eq_some_iff.mp hrecord
    exact ⟨i, hi, rfl⟩

theorem positionedRows_sorted : (positionedRows rules records).Pairwise fun a b => a.1 < b.1 := by
  unfold positionedRows
  rw [List.pairwise_iff_getElem]
  intro i j _ _ hij
  rw [List.getElem_mapIdx, List.getElem_mapIdx]
  exact hij

theorem positionedRows_positions :
    (positionedRows rules records).map Prod.fst = List.range records.length := by
  apply List.ext_getElem
  · simp [positionedRows]
  · intro i _ _
    simp [positionedRows]

theorem streamRows_eq (hrows : HoldHistories rules rows c) {key : StreamKey}
    {records : List HistoryRecord} (hkey : c key = some records) :
    rows.streamRows key = positionedRows rules records := by
  have hmem : ∀ i row, (i, row) ∈ rows.streamRows key ↔
      records[i]?.map (recordRow rules) = some row := by
    intro i row
    unfold HistoryRows.streamRows
    rw [(List.perm_insertionSort _ _).mem_iff, List.mem_map]
    have hget : rows.history.get? (key, i) = records[i]?.map (recordRow rules) := by
      rw [hrows.history, hkey]
      rfl
    rw [← hget, Dict.get?_eq_some_iff]
    constructor
    · rintro ⟨⟨⟨k, j⟩, r⟩, hentry, heq⟩
      rw [List.mem_filter, decide_eq_true_iff] at hentry
      obtain ⟨hentry, hk⟩ := hentry
      obtain ⟨rfl, rfl⟩ := Prod.mk.inj heq
      change k = key at hk
      rw [← hk]
      exact hentry
    · intro hentry
      exact ⟨((key, i), row), List.mem_filter.mpr ⟨hentry, decide_eq_true rfl⟩, rfl⟩
  have hnodup : (rows.streamRows key).Nodup := by
    unfold HistoryRows.streamRows
    rw [(List.perm_insertionSort _ _).nodup_iff]
    apply List.Nodup.map_on _ (rows.history.entries_nodup.filter _)
    rintro ⟨⟨k, i⟩, r⟩ ha ⟨⟨k', j⟩, r'⟩ hb heq
    rw [List.mem_filter, decide_eq_true_iff] at ha hb
    have hk : k = key := ha.2
    have hk' : k' = key := hb.2
    obtain ⟨hi, hr⟩ := Prod.mk.inj heq
    change i = j at hi
    change r = r' at hr
    rw [hk, hk', hi, hr]
  have hsorted : (rows.streamRows key).Pairwise fun a b => a.1 ≤ b.1 := by
    have htotal : Std.Total fun a b : ℕ × Json × String => a.1 ≤ b.1 :=
      ⟨fun a b => le_total a.1 b.1⟩
    have htrans : IsTrans (ℕ × Json × String) fun a b => a.1 ≤ b.1 :=
      ⟨fun _ _ _ hab hbc => le_trans hab hbc⟩
    exact List.pairwise_insertionSort _ _
  have hperm : (rows.streamRows key).Perm (positionedRows rules records) := by
    apply (List.perm_ext_iff_of_nodup hnodup _).mpr
    · rintro ⟨i, row⟩
      rw [hmem, mem_positionedRows]
    · exact (positionedRows_sorted records).imp fun hlt heq => absurd hlt (by rw [heq]; omega)
  apply hperm.eq_of_pairwise _ hsorted ((positionedRows_sorted records).imp le_of_lt)
  rintro ⟨i, row⟩ ⟨j, row'⟩ ha hb hij hji
  have hi : i = j := le_antisymm hij hji
  subst hi
  rw [hmem] at ha
  rw [mem_positionedRows, ha] at hb
  rw [Option.some.inj hb]

theorem restoreRecord_recordRow {record : HistoryRecord}
    (hnesting : (Json.obj record).nesting ≤ durableMaxNesting) (i : ℕ) :
    restoreRecord rules (i, recordRow rules record) = .ok record := by
  unfold restoreRecord recordRow
  rw [decodePayload_encoded rfl hnesting]
  rfl

def rowRecord (row : ℕ × Json × String) : HistoryRecord :=
  match row.2.1 with
  | .obj members => members
  | _ => []

theorem mapM_restoreRecord {records : List HistoryRecord}
    (hnesting : ∀ record ∈ records, (Json.obj record).nesting ≤ durableMaxNesting) :
    (positionedRows rules records).mapM (restoreRecord rules) = .ok records := by
  have hrow : ∀ row ∈ positionedRows rules records,
      restoreRecord rules row = .ok (rowRecord row) := by
    rintro ⟨i, row⟩ hmem
    rw [mem_positionedRows, Option.map_eq_some_iff] at hmem
    obtain ⟨record, hrecord, rfl⟩ := hmem
    exact restoreRecord_recordRow (hnesting record (List.mem_of_getElem? hrecord)) i
  have hrecords : (positionedRows rules records).map rowRecord = records := by
    apply List.ext_getElem
    · simp [positionedRows]
    · intro i _ _
      simp [positionedRows, rowRecord, recordRow]
  rw [mapM_eq_ok_map hrow, hrecords]

theorem restoreStream_ok (hrows : HoldHistories rules rows c) {key : StreamKey}
    {records : List HistoryRecord} (hkey : c key = some records) (hfield : key.1 ∈ historyFields)
    (hseal : sealHistory rules key.1 [(key.2, records)] = .ok ()) :
    restoreStream rules rows (key, streamRow rules records) = .ok (key, records) := by
  unfold restoreStream
  simp only [streamRow, streamRows_eq hrows hkey, bind_eq_ok_iff, refuseIf_eq_ok_iff]
  have hlength : (positionedRows rules records).length = records.length := by
    rw [positionedRows, List.length_mapIdx]
  refine ⟨(), not_not.mpr hfield, (), ?_, records,
    mapM_restoreRecord (hrows.nesting key records hkey), ?_⟩
  · rw [hlength, positionedRows_positions]
    simp
  · rw [hseal]
    simp [pure, Except.pure, refuseIf, bind, Except.bind]

/-! ## All streams -/

theorem mem_orderedStreams (hrows : HoldHistories rules rows c) (key : StreamKey)
    (row : ℕ × String) :
    (key, row) ∈ rows.orderedStreams ↔ ∃ records, c key = some records ∧ row = streamRow rules records := by
  unfold HistoryRows.orderedStreams
  rw [(List.perm_insertionSort _ _).mem_iff, ← Dict.get?_eq_some_iff, hrows.streams,
    Option.map_eq_some_iff]
  simp only [eq_comm]

theorem orderedStreams_nodup (rows : HistoryRows) :
    (rows.orderedStreams.map Prod.fst).Nodup :=
  ((List.perm_insertionSort _ _).map Prod.fst).nodup_iff.mpr rows.streams.nodup

theorem history_length (hrows : HoldHistories rules rows c) :
    rows.history.entries.length = (rows.orderedStreams.map fun e => e.2.1).sum := by
  have hnodup : (rows.orderedStreams.flatMap fun e =>
      (List.range e.2.1).map fun i => (e.1, i)).Nodup := by
    rw [List.nodup_flatMap]
    constructor
    · intro e _
      exact List.nodup_range.map fun i j h => (Prod.mk.inj h).2
    · have hkeys := orderedStreams_nodup rows
      rw [List.Nodup, List.pairwise_map] at hkeys
      apply hkeys.imp
      intro a b hne k ha hb
      obtain ⟨i, -, rfl⟩ := List.mem_map.mp ha
      obtain ⟨j, -, hj⟩ := List.mem_map.mp hb
      exact hne (Prod.mk.inj hj).1.symm
  have hperm : rows.history.keys.Perm (rows.orderedStreams.flatMap fun e =>
      (List.range e.2.1).map fun i => (e.1, i)) := by
    apply (List.perm_ext_iff_of_nodup rows.history.keys_nodup hnodup).mpr
    rintro ⟨key, i⟩
    rw [Dict.mem_keys_iff, List.mem_flatMap]
    constructor
    · rintro ⟨row, hrow⟩
      rw [hrows.history] at hrow
      cases hkey : c key with
      | none =>
        rw [hkey] at hrow
        cases hrow
      | some records =>
        rw [hkey] at hrow
        obtain ⟨record, hrecord, -⟩ := Option.map_eq_some_iff.mp hrow
        obtain ⟨hi, -⟩ := List.getElem?_eq_some_iff.mp hrecord
        exact ⟨(key, streamRow rules records),
          (mem_orderedStreams hrows _ _).mpr ⟨records, hkey, rfl⟩,
          List.mem_map.mpr ⟨i, List.mem_range.mpr hi, rfl⟩⟩
    · rintro ⟨⟨k, row⟩, hstream, hposition⟩
      obtain ⟨records, hkey, rfl⟩ := (mem_orderedStreams hrows _ _).mp hstream
      obtain ⟨j, hj, heq⟩ := List.mem_map.mp hposition
      obtain ⟨rfl, rfl⟩ := Prod.mk.inj heq
      have hlt : j < records.length := List.mem_range.mp hj
      refine ⟨recordRow rules records[j], ?_⟩
      rw [hrows.history]
      show (Option.map (recordRow rules) ((c k).bind fun records => records[j]?)) = _
      rw [hkey, Option.bind_some, List.getElem?_eq_getElem hlt]
      rfl
  have hlength : rows.history.entries.length = rows.history.keys.length := by
    rw [Dict.keys, List.length_map]
  rw [hlength, hperm.length_eq, List.length_flatMap]
  congr 1
  apply List.map_congr_left
  intro e _
  rw [List.length_map, List.length_range]

theorem get?_historiesOf (restored : List (StreamKey × List HistoryRecord))
    (hnodup : (restored.map Prod.fst).Nodup) (field participant : String)
    (records : List HistoryRecord) :
    (historiesOf restored field).get? participant = some records ↔
      ((field, participant), records) ∈ restored := by
  have hfold : ∀ d : Dict String (List HistoryRecord),
      ((field, participant) ∈ restored.map Prod.fst → d.get? participant = none) →
      ((restored.foldl (fun d e => if e.1.1 = field then d.set e.1.2 e.2 else d) d).get?
          participant = some records ↔
        ((field, participant), records) ∈ restored ∨ d.get? participant = some records) := by
    induction restored with
    | nil =>
      intro d _
      simp
    | cons e rest ih =>
      intro d hfresh
      obtain ⟨⟨f, p⟩, found⟩ := e
      rw [List.map_cons, List.nodup_cons] at hnodup
      rw [List.map_cons, List.mem_cons] at hfresh
      by_cases hkey : (field, participant) = (f, p)
      · obtain ⟨rfl, rfl⟩ := Prod.mk.inj hkey
        rw [List.foldl_cons, if_pos rfl, ih hnodup.2 _ fun hmem => absurd hmem hnodup.1,
          Dict.get?_set_self, hfresh (Or.inl rfl), List.mem_cons]
        simp only [Option.some.injEq, Prod.mk.injEq, true_and, reduceCtorEq, or_false]
        rw [or_comm, eq_comm]
      · have hsame : (if f = field then d.set p found else d).get? participant =
            d.get? participant := by
          by_cases hfield : f = field
          · rw [if_pos hfield, Dict.get?_set_ne]
            rintro rfl
            exact hkey (by rw [hfield])
          · rw [if_neg hfield]
        have hne : ((field, participant), records) ≠ ((f, p), found) :=
          fun h => hkey (Prod.mk.inj h).1
        rw [List.foldl_cons, ih hnodup.2 _ fun hmem => by rw [hsame]; exact hfresh (Or.inr hmem),
          hsame, List.mem_cons, or_iff_right hne]
  unfold historiesOf
  rw [hfold Dict.empty fun _ => rfl]
  simp

theorem get?_restored (hrows : HoldHistories rules rows c) (field participant : String) :
    (historiesOf (rows.orderedStreams.map fun e => (e.1, (c e.1).getD [])) field).get?
        participant = c (field, participant) := by
  have hkeys : (rows.orderedStreams.map fun e => (e.1, (c e.1).getD [])).map Prod.fst =
      rows.orderedStreams.map Prod.fst := by
    rw [List.map_map]
    rfl
  have hnodup : ((rows.orderedStreams.map fun e => (e.1, (c e.1).getD [])).map Prod.fst).Nodup := by
    rw [hkeys]
    exact orderedStreams_nodup rows
  apply Option.ext
  intro records
  rw [get?_historiesOf _ hnodup, List.mem_map]
  constructor
  · rintro ⟨⟨key, row⟩, hmem, heq⟩
    obtain ⟨found, hfound, -⟩ := (mem_orderedStreams hrows _ _).mp hmem
    obtain ⟨rfl, rfl⟩ := Prod.mk.inj heq
    change c (field, participant) = some ((c (field, participant)).getD [])
    rw [hfound]
    rfl
  · intro hkey
    refine ⟨((field, participant), streamRow rules records),
      (mem_orderedStreams hrows _ _).mpr ⟨records, hkey, rfl⟩, ?_⟩
    rw [hkey]
    rfl

def EmptyHistories (header : Json) : Prop :=
  ∀ field ∈ historyFields, ((header.get? field).getD .null).truthy = false

theorem restoreHistoryRows_ok {header : Json} (hrows : HoldHistories rules rows c)
    (hformat : rows.format = some "1") (hheader : EmptyHistories header)
    (hfields : ∀ key records, c key = some records → key.1 ∈ historyFields)
    (hstream : ∀ key records, c key = some records →
      sealHistory rules key.1 [(key.2, records)] = .ok ())
    (hsealed : ∀ field ∈ historyFields, ∀ histories : Dict String (List HistoryRecord),
      (∀ participant, histories.get? participant = c (field, participant)) →
        sealHistory rules field histories.entries = .ok ()) :
    ∃ histories, restoreHistoryRows rules rows header = .ok ⟨header, some histories⟩ ∧
      ∀ field participant, (histories field).get? participant = c (field, participant) := by
  refine ⟨_, ?_, get?_restored hrows⟩
  have hstreams : rows.orderedStreams.mapM (restoreStream rules rows) =
      .ok (rows.orderedStreams.map fun e => (e.1, (c e.1).getD [])) := by
    apply mapM_eq_ok_map
    rintro ⟨key, row⟩ hmem
    obtain ⟨records, hkey, rfl⟩ := (mem_orderedStreams hrows _ _).mp hmem
    rw [hkey]
    exact restoreStream_ok hrows hkey (hfields key records hkey) (hstream key records hkey)
  unfold restoreHistoryRows
  simp only [hformat, bind_eq_ok_iff, refuseIf_eq_ok_iff, not_not]
  refine ⟨(), trivial, (), history_length hrows, _, hstreams, (), ?_, (), ?_, rfl⟩
  · rw [List.any_eq_true]
    rintro ⟨field, hmem, htruthy⟩
    rw [hheader field hmem] at htruthy
    cases htruthy
  · apply forM_eq_ok_iff.mpr
    intro field hmem
    exact hsealed field hmem _ (get?_restored hrows field)

/-- The histories of a snapshot survive a commit: rows that stood for any earlier
histories are restored to exactly the histories of the snapshot that was committed
over them. -/
theorem restored_upsertHistories {written : HistoryRows} {stored : StoredHistories}
    {snapshot : SnapshotHistories} {header : Json} (hrows : HoldHistories rules rows stored)
    (hcollision : ∀ key old records, stored key = some old →
      snapshotStreams snapshot key = some records → NoCollision rules old records)
    (hheader : EmptyHistories header)
    (h : upsertHistories rules rows snapshot = .ok written) :
    HoldHistories rules written (snapshotStreams snapshot) ∧
      ∃ histories, restoreHistoryRows rules written header = .ok ⟨header, some histories⟩ ∧
        ∀ field ∈ historyFields, ∀ participant,
          (histories field).get? participant = (snapshot field).get? participant := by
  simp only [upsertHistories, bind_eq_ok_iff] at h
  obtain ⟨persisted, hpersist, hwritten⟩ := h
  cases hwritten
  obtain ⟨hholds, hsealed⟩ := persistHistoryRows_holds hrows hcollision hpersist
  have hmarked : HoldHistories rules { persisted with format := some "1" }
      (snapshotStreams snapshot) := ⟨hholds.streams, hholds.history, hholds.nesting⟩
  have hstored : ∀ key records, snapshotStreams snapshot key = some records →
      key.1 ∈ historyFields ∧ (snapshot key.1).get? key.2 = some records := by
    intro key records hkey
    unfold snapshotStreams at hkey
    split at hkey
    · exact ⟨‹_›, hkey⟩
    · cases hkey
  obtain ⟨histories, hrestore, hget⟩ := restoreHistoryRows_ok hmarked rfl hheader
    (fun key records hkey => (hstored key records hkey).1)
    (fun key records hkey => by
      obtain ⟨hfield, hrecords⟩ := hstored key records hkey
      exact sealHistory_single (Dict.get?_eq_some_iff.mp hrecords)
        (hsealed key.1 hfield))
    (fun field hfield histories hsame => by
      apply sealHistory_perm _ (hsealed field hfield)
      apply Dict.entries_perm
      intro participant
      rw [hsame, snapshotStreams, if_pos hfield])
  refine ⟨hmarked, histories, hrestore, ?_⟩
  intro field hfield participant
  rw [hget, snapshotStreams, if_pos hfield]

def sampleRecord (n : ℤ) : HistoryRecord := [("n", .int n)]

/-- The SHA-256 digests of the texts of two records. -/
def sampleCodec : DurableCodec where
  digest content :=
    if content = .obj (sampleRecord 1) then
      "2bfd14f43d17fc7cea24e0917a8879b4b2f880b8baeec1b9d90fbaad655e71bd"
    else "363379742f80b51bdb9206579af7754911543079b9399cb3fc315fb199f476e8"
  diagnosticModel payload := .ok payload
  recordFromPayload _ := .error (valueError "not an operation record")
  auditEventFromPayload _ := .error (valueError "not an audit event")
  canonicalSnapshot snapshot := .ok snapshot
  persistSnapshot _ snapshot := .ok ⟨snapshot.content, "", []⟩
  restoreSnapshot rows := .ok ⟨[], rows.header⟩

/-- The SHA-256 digests of the texts that the sample histories hash. -/
def sampleRules : HistoryRules where
  codec := sampleCodec
  emptyDigest := "e3b0c44298fc1c149afbf4c8996fb92427ae41e4649b934ca495991b7852b855"
  chain digest content :=
    if content = .obj (sampleRecord 1) then
      "8204a60c1adb032a32b77d3d56757c95f1b7144899c08ad821234f23ba2169fc"
    else if digest = "e3b0c44298fc1c149afbf4c8996fb92427ae41e4649b934ca495991b7852b855" then
      "53e1a276f1496e76561001114d85a933f25251b7c7354319852ee9d9cde2a686"
    else "99be2981af400e3a022c5c77eb439b575cecae387ee7b006469edc96d54c5ee4"
  controlIdentity _ _ _ := .error (valueError "not a control event")
  crossingIdentity _ _ := .error (valueError "not a crossing event")
  controlEvaluationIdentity _ _ := .error (valueError "not a control evaluation")

def sampleBefore : SnapshotHistories := fun field =>
  if field = "shared_state_history" then
    ⟨[("a", [sampleRecord 1]), ("b", [sampleRecord 1]), ("c", [sampleRecord 1])], by decide⟩
  else Dict.empty

/-- One history grew, one changed and one is gone. -/
def sampleAfter : SnapshotHistories := fun field =>
  if field = "shared_state_history" then
    ⟨[("a", [sampleRecord 1, sampleRecord 2]), ("b", [sampleRecord 2])], by decide⟩
  else Dict.empty

theorem sample_noCollision (key : StreamKey) (old records : List HistoryRecord)
    (hold : snapshotStreams sampleBefore key = some old)
    (hrecords : snapshotStreams sampleAfter key = some records) :
    NoCollision sampleRules old records := by
  obtain ⟨field, participant⟩ := key
  have hentry : ∀ (snapshot : SnapshotHistories) found,
      snapshotStreams snapshot (field, participant) = some found →
        (participant, found) ∈ (snapshot field).entries := by
    intro snapshot found hfound
    unfold snapshotStreams at hfound
    split at hfound
    · exact Dict.get?_eq_some_iff.mp hfound
    · cases hfound
  have hbefore := hentry _ _ hold
  have hafter := hentry _ _ hrecords
  unfold sampleBefore at hbefore
  unfold sampleAfter at hafter
  by_cases hfield : field = "shared_state_history"
  · rw [if_pos hfield] at hbefore hafter
    simp only [List.mem_cons, List.not_mem_nil, or_false, Prod.mk.injEq] at hbefore hafter
    have hold : old = [sampleRecord 1] := by
      rcases hbefore with h | h | h <;> exact h.2
    intro i ra rb hra hrb hdigest
    subst hold
    obtain ⟨hi, hrecord⟩ := List.getElem?_eq_some_iff.mp hra
    have hzero : i = 0 := by
      rw [List.length_singleton] at hi
      omega
    subst hzero
    cases hra
    rcases hafter with ⟨-, rfl⟩ | ⟨-, rfl⟩
    · cases hrb
      exact ⟨rfl, rfl⟩
    · cases hrb
      exact absurd hdigest (by decide)
  · rw [if_neg hfield] at hbefore
    exact absurd hbefore List.not_mem_nil

theorem restored_sample :
    ∃ first second histories,
      upsertHistories sampleRules HistoryRows.init sampleBefore = .ok first ∧
        upsertHistories sampleRules first sampleAfter = .ok second ∧
        restoreHistoryRows sampleRules second (.obj []) = .ok ⟨.obj [], some histories⟩ ∧
        (histories "shared_state_history").get? "a" = some [sampleRecord 1, sampleRecord 2] ∧
        (histories "shared_state_history").get? "b" = some [sampleRecord 2] ∧
        (histories "shared_state_history").get? "c" = none := by
  have hheader : EmptyHistories (.obj []) := fun _ _ => rfl
  have haccepted : (do
      let first ← upsertHistories sampleRules HistoryRows.init sampleBefore
      upsertHistories sampleRules first sampleAfter).toBool = true := by
    decide +kernel
  obtain ⟨second, hrun⟩ := exists_ok_of_toBool haccepted
  obtain ⟨first, hfirst, hsecond⟩ := bind_eq_ok_iff.mp hrun
  obtain ⟨hstored, -⟩ := restored_upsertHistories
    (holdHistories_init sampleRules) (fun _ _ _ hnone => nomatch hnone) hheader hfirst
  obtain ⟨-, histories, hrestore, hget⟩ :=
    restored_upsertHistories hstored sample_noCollision hheader hsecond
  have hshared : "shared_state_history" ∈ historyFields := by decide
  refine ⟨first, second, histories, hfirst, hsecond, hrestore, ?_⟩
  rw [hget _ hshared, hget _ hshared, hget _ hshared]
  decide

end Raes.Store
