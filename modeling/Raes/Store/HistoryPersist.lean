import Raes.Store.HistoryRows
import Raes.Store.LocalEffects

/-!
# What a snapshot commit leaves in the history rows

The rows stand for a family of histories, one for each stream.  A stream that is
persisted replaces its history in that family, whether its rows were extended or
written again; the streams that the snapshot no longer has are dropped.
-/

namespace Raes.Store

open PyError

abbrev StoredHistories := StreamKey → Option (List HistoryRecord)

variable {rules : HistoryRules}

/-! ## Prefix digests -/

theorem prefixDigest_succ {records : List HistoryRecord} {i : ℕ} {record : HistoryRecord}
    (h : records[i]? = some record) :
    prefixDigest rules records (i + 1) =
      rules.chain (prefixDigest rules records i) (.obj record) := by
  unfold prefixDigest historyDigest
  rw [List.take_add_one, h, Option.toList_some, List.foldl_append, List.foldl_cons,
    List.foldl_nil]

/-- No two texts that the chains of two histories hash at one position have one
digest. -/
def NoCollision (rules : HistoryRules) (a b : List HistoryRecord) : Prop :=
  ∀ i ra rb, a[i]? = some ra → b[i]? = some rb →
    rules.chain (prefixDigest rules a i) (.obj ra) =
        rules.chain (prefixDigest rules b i) (.obj rb) →
      prefixDigest rules a i = prefixDigest rules b i ∧ ra = rb

theorem take_eq_of_prefixDigest_eq {a b : List HistoryRecord} (h : NoCollision rules a b) :
    ∀ n, n ≤ a.length → n ≤ b.length → prefixDigest rules a n = prefixDigest rules b n →
      a.take n = b.take n := by
  intro n
  induction n with
  | zero =>
    intro _ _ _
    rfl
  | succ n ih =>
    intro ha hb hdigest
    have hra : a[n]? = some a[n] := List.getElem?_eq_getElem (by omega)
    have hrb : b[n]? = some b[n] := List.getElem?_eq_getElem (by omega)
    rw [prefixDigest_succ hra, prefixDigest_succ hrb] at hdigest
    obtain ⟨hstart, hrecord⟩ := h n _ _ hra hrb hdigest
    rw [List.take_add_one, List.take_add_one, hra, hrb, hrecord,
      ih (by omega) (by omega) hstart]

/-! ## The histories that rows stand for -/

def recordRow (rules : HistoryRules) (record : HistoryRecord) : Json × String :=
  (.obj record, rules.codec.digest (.obj record))

def streamRow (rules : HistoryRules) (records : List HistoryRecord) : ℕ × String :=
  (records.length, prefixDigest rules records records.length)

structure HoldHistories (rules : HistoryRules) (rows : HistoryRows) (c : StoredHistories) :
    Prop where
  streams : ∀ key, rows.streams.get? key = (c key).map (streamRow rules)
  history : ∀ key i, rows.history.get? (key, i) =
    ((c key).bind fun records => records[i]?).map (recordRow rules)
  nesting : ∀ key records, c key = some records →
    ∀ record ∈ records, (Json.obj record).nesting ≤ durableMaxNesting

theorem holdHistories_init (rules : HistoryRules) :
    HoldHistories rules HistoryRows.init fun _ => none where
  streams _ := rfl
  history _ _ := rfl
  nesting _ _ h := nomatch h

variable {rows : HistoryRows} {c : StoredHistories}

theorem HoldHistories.filter (h : HoldHistories rules rows c) (keep : StreamKey → Prop)
    [DecidablePred keep] : HoldHistories rules { rows with
      history := rows.history.filterKeys fun k => keep k.1
      streams := rows.streams.filterKeys keep } fun key => if keep key then c key else none where
  streams key := by
    show (rows.streams.filterKeys keep).get? key = _
    rw [Dict.get?_filterKeys]
    by_cases hkeep : keep key
    · rw [if_pos hkeep, if_pos hkeep, h.streams]
    · rw [if_neg hkeep, if_neg hkeep]
      rfl
  history key i := by
    show (rows.history.filterKeys fun k => keep k.1).get? (key, i) = _
    rw [Dict.get?_filterKeys]
    by_cases hkeep : keep key
    · rw [if_pos hkeep, if_pos hkeep, h.history]
    · rw [if_neg hkeep, if_neg hkeep]
      rfl
  nesting key records hc := by
    split at hc
    · exact h.nesting key records hc
    · cases hc

/-! ## Persisting one stream -/

variable {key : StreamKey}

/-- The rows after an insertion: the inserted positions hold the records, and
every other row is what it was. -/
theorem insertRecords_ok {position : ℕ} {records : List HistoryRecord}
    {history written : Dict (StreamKey × ℕ) (Json × String)}
    (h : insertRecords rules key position records history = .ok written) :
    (∀ record ∈ records, (Json.obj record).nesting ≤ durableMaxNesting) ∧
      (∀ i, position ≤ i → i < position + records.length →
        written.get? (key, i) = records[i - position]?.map (recordRow rules)) ∧
      ∀ k, (k.1 = key → k.2 < position ∨ position + records.length ≤ k.2) →
        written.get? k = history.get? k := by
  induction records generalizing position history with
  | nil =>
    cases h
    refine ⟨fun _ hmem => absurd hmem List.not_mem_nil, ?_, fun _ _ => rfl⟩
    intro i hlow hhigh
    rw [List.length_nil] at hhigh
    omega
  | cons record rest ih =>
    simp only [insertRecords, bind_eq_ok_iff, encodePayload_ok_iff] at h
    obtain ⟨row, ⟨hnesting, rfl⟩, -, -, hrest⟩ := h
    obtain ⟨hall, hinserted, hframe⟩ := ih hrest
    refine ⟨List.forall_mem_cons.mpr ⟨hnesting, hall⟩, ?_, ?_⟩
    · intro i hlow hhigh
      rw [List.length_cons] at hhigh
      by_cases hi : i = position
      · subst hi
        rw [hframe (key, i) fun _ => Or.inl (by show i < i + 1; omega), Dict.get?_set_self,
          Nat.sub_self]
        rfl
      · obtain ⟨d, rfl⟩ : ∃ d, i = position + 1 + d := ⟨i - (position + 1), by omega⟩
        rw [hinserted _ (by omega) (by omega)]
        have hshift : position + 1 + d - position = (position + 1 + d - (position + 1)) + 1 := by
          omega
        rw [hshift, List.getElem?_cons_succ]
    · intro k houtside
      rw [List.length_cons] at houtside
      have hne : k ≠ (key, position) := by
        rintro rfl
        have hpos := houtside rfl
        simp only at hpos
        omega
      rw [hframe k fun hkey => by have hpos := houtside hkey; omega, Dict.get?_set_ne _ _ hne]

structure KeptRows (rules : HistoryRules) (rows : HistoryRows) (key : StreamKey)
    (records : List HistoryRecord) (kept : Dict (StreamKey × ℕ) (Json × String)) (start : ℕ) :
    Prop where
  start_le : start ≤ records.length
  other : ∀ k, k.1 ≠ key → kept.get? k = rows.history.get? k
  own : ∀ i, i < start ∨ records.length ≤ i →
    kept.get? (key, i) = records[i]?.map (recordRow rules)
  nesting : ∀ record ∈ records.take start, (Json.obj record).nesting ≤ durableMaxNesting

theorem keptRows_rewrite (rows : HistoryRows) (key : StreamKey) (records : List HistoryRecord) :
    KeptRows rules rows key records (rows.history.filterKeys fun k => k.1 ≠ key) 0 where
  start_le := Nat.zero_le _
  other k hk := by rw [Dict.get?_filterKeys, if_pos hk]
  own i hi := by
    have hlength : records.length ≤ i := by omega
    rw [Dict.get?_filterKeys, if_neg (fun h => h rfl), List.getElem?_eq_none hlength]
    rfl
  nesting record hmem := by
    rw [List.take_zero] at hmem
    exact absurd hmem List.not_mem_nil

theorem keptRows_new (records : List HistoryRecord) (hrows : HoldHistories rules rows c)
    (hkey : c key = none) : KeptRows rules rows key records rows.history 0 where
  start_le := Nat.zero_le _
  other _ _ := rfl
  own i hi := by
    have hlength : records.length ≤ i := by omega
    rw [hrows.history, hkey, List.getElem?_eq_none hlength]
    rfl
  nesting record hmem := by
    rw [List.take_zero] at hmem
    exact absurd hmem List.not_mem_nil

theorem keptRows_extend {records old : List HistoryRecord} (hrows : HoldHistories rules rows c)
    (hkey : c key = some old) (hlength : old.length ≤ records.length)
    (hold : old = records.take old.length) :
    KeptRows rules rows key records rows.history old.length where
  start_le := hlength
  other _ _ := rfl
  own i hi := by
    rw [hrows.history, hkey]
    show Option.map (recordRow rules) old[i]? = _
    rcases hi with hlow | hhigh
    · rw [hold, List.getElem?_take_of_lt hlow]
    · rw [List.getElem?_eq_none hhigh, List.getElem?_eq_none (by omega)]
  nesting record hmem := by
    rw [← hold] at hmem
    exact hrows.nesting key old hkey record hmem

theorem KeptRows.stored {rows written : HistoryRows} {c : StoredHistories}
    {records : List HistoryRecord} {kept : Dict (StreamKey × ℕ) (Json × String)} {start : ℕ}
    (hkept : KeptRows rules rows key records kept start) (hrows : HoldHistories rules rows c)
    (hinsert : insertRecords rules key start (records.drop start) kept = .ok written.history)
    (hstreams : ∀ k, written.streams.get? k =
      if k = key then some (streamRow rules records) else rows.streams.get? k) :
    HoldHistories rules written (Function.update c key (some records)) := by
  obtain ⟨hnesting, hinserted, hframe⟩ := insertRecords_ok hinsert
  have hend : start + (records.drop start).length = records.length := by
    have hle := hkept.start_le
    rw [List.length_drop]
    omega
  rw [hend] at hinserted hframe
  constructor
  · intro k
    rw [hstreams]
    by_cases hk : k = key
    · rw [if_pos hk, hk, Function.update_self]
      rfl
    · rw [if_neg hk, Function.update_of_ne hk, hrows.streams]
  · intro k i
    by_cases hk : k = key
    · subst hk
      rw [Function.update_self]
      show _ = Option.map (recordRow rules) records[i]?
      by_cases hi : start ≤ i ∧ i < records.length
      · rw [hinserted i hi.1 hi.2, List.getElem?_drop]
        have hposition : start + (i - start) = i := by omega
        rw [hposition]
      · have houtside : i < start ∨ records.length ≤ i := by omega
        rw [hframe (k, i) fun _ => houtside, hkept.own i houtside]
    · rw [Function.update_of_ne hk, hframe (k, i) fun h => absurd h hk, hkept.other (k, i) hk,
        hrows.history]
  · intro k found hfound
    by_cases hk : k = key
    · subst hk
      rw [Function.update_self] at hfound
      cases hfound
      intro record hmem
      rw [← List.take_append_drop start records, List.mem_append] at hmem
      rcases hmem with htake | hdrop
      · exact hkept.nesting record htake
      · exact hnesting record hdrop
    · rw [Function.update_of_ne hk] at hfound
      exact hrows.nesting k found hfound

variable {prior : Dict StreamKey (ℕ × String)}

theorem persistStream_holds {key : StreamKey}
    {records : List HistoryRecord} {rows written : HistoryRows} {c : StoredHistories}
    (hrows : HoldHistories rules rows c) (hprior : prior.get? key = rows.streams.get? key)
    (hcollision : ∀ old, c key = some old → NoCollision rules old records)
    (h : persistStream rules prior key records rows = .ok written) :
    HoldHistories rules written (Function.update c key (some records)) := by
  simp only [persistStream, bind_eq_ok_iff] at h
  obtain ⟨history, hinsert, hwritten⟩ := h
  cases hwritten
  have hstreams : ∀ k, (if prior.get? key = some (streamRow rules records) then rows.streams
        else rows.streams.set key (streamRow rules records)).get? k =
      if k = key then some (streamRow rules records) else rows.streams.get? k := by
    intro k
    by_cases hsame : prior.get? key = some (streamRow rules records)
    · rw [if_pos hsame]
      by_cases hk : k = key
      · rw [if_pos hk, hk, ← hprior, hsame]
      · rw [if_neg hk]
    · rw [if_neg hsame, Dict.get?_set]
  have hstored : prior.get? key = (c key).map (streamRow rules) := by
    rw [hprior, hrows.streams]
  rw [hstored] at hinsert
  cases hkey : c key with
  | none =>
    rw [hkey] at hinsert
    have hkeep : ¬ (records.length < 0 ∨
        prefixDigest rules records 0 ≠ prefixDigest rules records 0) := by
      simp
    simp only [Option.map_none, Option.getD_none, if_neg hkeep] at hinsert
    exact (keptRows_new records hrows hkey).stored hrows hinsert hstreams
  | some old =>
    rw [hkey] at hinsert
    simp only [Option.map_some, Option.getD_some, streamRow] at hinsert
    by_cases hrewrite : records.length < old.length ∨
        prefixDigest rules records old.length ≠ prefixDigest rules old old.length
    · simp only [hrewrite, if_true] at hinsert
      exact (keptRows_rewrite rows key records).stored hrows hinsert hstreams
    · simp only [hrewrite, if_false] at hinsert
      rw [not_or, not_lt, not_not] at hrewrite
      have hstart : old.take old.length = records.take old.length :=
        take_eq_of_prefixDigest_eq (hcollision old hkey) old.length (Nat.le_refl _)
          hrewrite.1 hrewrite.2.symm
      rw [List.take_length] at hstart
      exact (keptRows_extend hrows hkey hrewrite.1 hstart).stored hrows hinsert hstreams

/-! ## Persisting all streams -/

variable (c : StoredHistories)

def withStreams (field : String)
    (histories : List (String × List HistoryRecord)) : StoredHistories := fun key =>
  if key.1 = field then (histories.lookup key.2).or (c key) else c key

theorem withStreams_cons (field participant : String)
    (records : List HistoryRecord) (rest : List (String × List HistoryRecord))
    (hnew : participant ∉ rest.map Prod.fst) :
    withStreams (Function.update c (field, participant) (some records)) field rest =
      withStreams c field ((participant, records) :: rest) := by
  funext key
  obtain ⟨f, p⟩ := key
  unfold withStreams
  by_cases hfield : f = field
  · subst hfield
    simp only [if_true]
    by_cases hp : p = participant
    · subst hp
      rw [(lookup_eq_none_iff_notMem p rest).mpr hnew, List.lookup_cons, beq_self_eq_true,
        Function.update_self]
      rfl
    · have hne : (f, p) ≠ (f, participant) := fun h => hp (Prod.mk.inj h).2
      rw [List.lookup_cons, beq_eq_false_iff_ne.mpr hp, Function.update_of_ne hne]
  · have hne : (f, p) ≠ (field, participant) := fun h => hfield (Prod.mk.inj h).1
    show (if f = field then _ else _) = if f = field then _ else _
    rw [if_neg hfield, if_neg hfield, Function.update_of_ne hne]

theorem persistStreams_holds {field : String}
    {histories : List (String × List HistoryRecord)} {rows written : HistoryRows}
    {c : StoredHistories} (hrows : HoldHistories rules rows c)
    (hnodup : (histories.map Prod.fst).Nodup)
    (hprior : ∀ e ∈ histories, prior.get? (field, e.1) = (c (field, e.1)).map (streamRow rules))
    (hcollision : ∀ e ∈ histories, ∀ old, c (field, e.1) = some old →
      NoCollision rules old e.2)
    (h : persistStreams rules prior field histories rows = .ok written) :
    HoldHistories rules written (withStreams c field histories) := by
  induction histories generalizing rows c with
  | nil =>
    cases h
    have hsame : withStreams c field [] = c := by
      funext key
      unfold withStreams
      split <;> rfl
    rw [hsame]
    exact hrows
  | cons e rest ih =>
    obtain ⟨participant, records⟩ := e
    rw [List.map_cons, List.nodup_cons] at hnodup
    rw [List.forall_mem_cons] at hprior hcollision
    simp only [persistStreams, bind_eq_ok_iff] at h
    obtain ⟨next, hstep, hrest⟩ := h
    have hkey : prior.get? (field, participant) = rows.streams.get? (field, participant) := by
      rw [hprior.1, hrows.streams]
    have hnext := persistStream_holds hrows hkey hcollision.1 hstep
    have hother : ∀ e ∈ rest, Function.update c (field, participant) (some records) (field, e.1) =
        c (field, e.1) := by
      intro e hmem
      apply Function.update_of_ne
      intro heq
      exact hnodup.1 (List.mem_map.mpr ⟨e, hmem, (Prod.mk.inj heq).2⟩)
    rw [← withStreams_cons c field participant records rest hnodup.1]
    apply ih hnext hnodup.2 _ _ hrest
    · intro e hmem
      rw [hother e hmem]
      exact hprior.2 e hmem
    · intro e hmem old hold
      rw [hother e hmem] at hold
      exact hcollision.2 e hmem old hold

def withFields (snapshot : SnapshotHistories) (fields : List String) : StoredHistories := fun key =>
  if key.1 ∈ fields then ((snapshot key.1).get? key.2).or (c key) else c key

theorem withFields_cons (snapshot : SnapshotHistories) (field : String)
    (rest : List String) (hnew : field ∉ rest) :
    withFields (withStreams c field (snapshot field).entries) snapshot rest =
      withFields c snapshot (field :: rest) := by
  funext key
  unfold withFields withStreams
  by_cases hfield : key.1 = field
  · rw [if_neg (hfield ▸ hnew), if_pos hfield, if_pos (hfield ▸ List.mem_cons_self), hfield]
    rfl
  · by_cases hmem : key.1 ∈ rest
    · rw [if_pos hmem, if_neg hfield, if_pos (List.mem_cons_of_mem _ hmem)]
    · have hout : key.1 ∉ field :: rest := by
        rw [List.mem_cons, not_or]
        exact ⟨hfield, hmem⟩
      rw [if_neg hmem, if_neg hfield, if_neg hout]

theorem persistFields_holds {snapshot : SnapshotHistories}
    {fields : List String} {rows written : HistoryRows} {c : StoredHistories}
    (hrows : HoldHistories rules rows c) (hnodup : fields.Nodup)
    (hprior : ∀ key : StreamKey, key.1 ∈ fields → prior.get? key = (c key).map (streamRow rules))
    (hcollision : ∀ key : StreamKey, key.1 ∈ fields → ∀ old records, c key = some old →
      (snapshot key.1).get? key.2 = some records → NoCollision rules old records)
    (h : persistFields rules prior snapshot fields rows = .ok written) :
    HoldHistories rules written (withFields c snapshot fields) ∧
      ∀ field ∈ fields, sealHistory rules field (snapshot field).entries = .ok () := by
  induction fields generalizing rows c with
  | nil =>
    cases h
    refine ⟨?_, fun _ hmem => absurd hmem List.not_mem_nil⟩
    have hsame : withFields c snapshot [] = c := by
      funext key
      exact if_neg List.not_mem_nil
    rw [hsame]
    exact hrows
  | cons field rest ih =>
    rw [List.nodup_cons] at hnodup
    simp only [persistFields, bind_eq_ok_iff] at h
    obtain ⟨_, hseal, next, hstep, hrest⟩ := h
    have hnext : HoldHistories rules next (withStreams c field (snapshot field).entries) := by
      apply persistStreams_holds hrows (snapshot field).nodup _ _ hstep
      · intro e _
        exact hprior (field, e.1) List.mem_cons_self
      · intro e hmem old hold
        exact hcollision (field, e.1) List.mem_cons_self old e.2 hold (Dict.get?_eq_some_iff.mpr hmem)
    have hother : ∀ key : StreamKey, key.1 ≠ field →
        withStreams c field (snapshot field).entries key = c key := fun key hne => if_neg hne
    have hrestfield : ∀ key : StreamKey, key.1 ∈ rest → key.1 ≠ field := by
      intro key hmem heq
      exact hnodup.1 (heq ▸ hmem)
    rw [← withFields_cons c snapshot field rest hnodup.1, List.forall_mem_cons]
    have hlater := ih hnext hnodup.2
      (fun key hmem => by
        rw [hother key (hrestfield key hmem)]
        exact hprior key (List.mem_cons_of_mem _ hmem))
      (fun key hmem old records hold => by
        rw [hother key (hrestfield key hmem)] at hold
        exact hcollision key (List.mem_cons_of_mem _ hmem) old records hold)
      hrest
    exact ⟨hlater.1, hseal, hlater.2⟩

def snapshotStreams (snapshot : SnapshotHistories) : StoredHistories := fun key =>
  if key.1 ∈ historyFields then (snapshot key.1).get? key.2 else none

theorem historyFields_nodup : historyFields.Nodup := by decide

/-- What a commit leaves: the rows stand for the histories of the snapshot, which
can be sealed field by field. -/
theorem persistHistoryRows_holds {rows written : HistoryRows} {snapshot : SnapshotHistories}
    {stored : StoredHistories} (hrows : HoldHistories rules rows stored)
    (hcollision : ∀ key old records, stored key = some old →
      snapshotStreams snapshot key = some records → NoCollision rules old records)
    (h : persistHistoryRows rules rows snapshot = .ok written) :
    HoldHistories rules written (snapshotStreams snapshot) ∧
      ∀ field ∈ historyFields, sealHistory rules field (snapshot field).entries = .ok () := by
  simp only [persistHistoryRows, bind_eq_ok_iff] at h
  obtain ⟨middle, hfields, hwritten⟩ := h
  obtain ⟨hmiddle, hsealed⟩ := persistFields_holds hrows historyFields_nodup
    (fun key _ => hrows.streams key)
    (fun key hmem old records hold hrecords => hcollision key old records hold (by
      rw [snapshotStreams, if_pos hmem]
      exact hrecords))
    hfields
  refine ⟨?_, hsealed⟩
  have hkept := hmiddle.filter fun key =>
    ¬ (rows.streams.contains key = true ∧ ¬ Retained snapshot key)
  have hstreams : (fun key : StreamKey =>
      if ¬ (rows.streams.contains key = true ∧ ¬ Retained snapshot key)
        then withFields stored snapshot historyFields key else none) =
      snapshotStreams snapshot := by
    funext key
    have hcontains : rows.streams.contains key = (stored key).isSome := by
      rw [Dict.contains, hrows.streams, Option.isSome_map]
    -- A stream that the snapshot does not have is dropped, whether or not it was stored.
    have hdropped : ¬ Retained snapshot key →
        (if ¬ (rows.streams.contains key = true ∧ ¬ Retained snapshot key)
          then stored key else none) = none := by
      intro hgone
      rw [hcontains]
      cases hkey : stored key with
      | none => simp
      | some old => simp [hgone]
    unfold withFields snapshotStreams
    by_cases hfield : key.1 ∈ historyFields
    · rw [if_pos hfield, if_pos hfield]
      cases hget : (snapshot key.1).get? key.2 with
      | none =>
        apply hdropped
        rintro ⟨-, hpresent⟩
        rw [Dict.contains, hget] at hpresent
        cases hpresent
      | some records =>
        have hretained : Retained snapshot key := ⟨hfield, by rw [Dict.contains, hget]; rfl⟩
        rw [if_pos fun hstale => hstale.2 hretained]
        rfl
    · rw [if_neg hfield, if_neg hfield]
      exact hdropped fun hretained => hfield hretained.1
  rw [hstreams] at hkept
  cases hwritten
  exact hkept

end Raes.Store
