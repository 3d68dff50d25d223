import Mathlib.Data.List.Flatten
import Mathlib.Data.List.Perm.Basic
import Raes.Store.Durable

/-!
# History rows

The rows in which a durable store keeps the histories of a snapshot
(`control_plane_store_history_rows.py`), with the sealing of histories and the
digests of their prefixes (`immutable_history.py`, `snapshot_histories.py`).

The text of a row is given by the value it denotes; a record is given by its
members in key order.  The SHA-256 chain and the contract models of records are
a parameter.
-/

namespace Raes.Store

open PyError

abbrev HistoryRecord := List (String × Json)

abbrev StreamKey := String × String

/-! ## Sealed histories -/

inductive HistoryIdentity where
  | id (value : String)
  | keyed (participant value : String)
  deriving DecidableEq

structure HistoryRules where
  codec : DurableCodec
  /-- The digest of no content. -/
  emptyDigest : String
  /-- The digest of a record after the digest of the records before it. -/
  chain : String → Json → String
  /-- `_control_identity` -/
  controlIdentity : String → HistoryRecord → ℕ → Except PyError String
  /-- `_crossing_identity` -/
  crossingIdentity : String → HistoryRecord → Except PyError String
  /-- `_control_evaluation_identity` -/
  controlEvaluationIdentity : String → HistoryRecord → Except PyError String

def historyFields : List String :=
  ["orchestration_history", "evaluation_history", "participant_episode_history",
    "participant_episode_closure_records", "participant_behavior_history",
    "participant_control_history", "participant_crossing_history",
    "participant_control_evaluation_history", "mixed_composition_history",
    "information_state_history", "participant_outcome_history", "shared_state_history"]

structure HistoryFieldPolicy where
  recordIdentity : String → HistoryRecord → ℕ → Except PyError (Option HistoryIdentity)
  retainsInvalidRecords : Bool

def defaultHistoryPolicy : HistoryFieldPolicy := ⟨fun _ _ _ => .ok none, false⟩

variable (rules : HistoryRules)

def historyPolicy (field : String) : HistoryFieldPolicy :=
  if field = "participant_control_history" then
    ⟨fun participant record position =>
      (fun id => some (.id id)) <$> rules.controlIdentity participant record position, true⟩
  else if field = "participant_crossing_history" then
    ⟨fun participant record _ =>
      (fun id => some (.keyed participant id)) <$> rules.crossingIdentity participant record, true⟩
  else if field = "participant_control_evaluation_history" then
    ⟨fun participant record _ =>
      (fun id => some (.id id)) <$> rules.controlEvaluationIdentity participant record, false⟩
  else defaultHistoryPolicy

/-- `field.replace('_', ' ')` -/
def spacedName (field : String) : String :=
  String.ofList (field.toList.map fun c => if c = '_' then ' ' else c)

def recordIdentity (field : String) (policy : HistoryFieldPolicy) (participant : String)
    (record : HistoryRecord) (position : ℕ) (identities : List HistoryIdentity) :
    Except PyError (Option HistoryIdentity) := do
  let identity ← policy.recordIdentity participant record position
  refuseIf (∃ i ∈ identities, identity = some i)
    (valueError (spacedName field ++ " record identities must be unique and append-only"))
  return identity

/-- Preserve opaque legacy store data without certifying its semantic shape. -/
def retainedIdentity (field : String) (policy : HistoryFieldPolicy) (participant : String)
    (record : HistoryRecord) (position : ℕ) (identities : List HistoryIdentity) :
    Except PyError (Option HistoryIdentity) :=
  match recordIdentity field policy participant record position identities with
  | .ok identity => .ok identity
  | .error error =>
    if policy.retainsInvalidRecords = true ∧ (error.kind = .typeError ∨ isValueError error = true)
    then .ok none
    else .error error

def sealStream (field : String) (policy : HistoryFieldPolicy) (participant : String) :
    ℕ → List HistoryRecord → List HistoryIdentity → Except PyError (List HistoryIdentity)
  | _, [], identities => .ok identities
  | position, record :: rest, identities => do
    let identity ← retainedIdentity field policy participant record position identities
    sealStream field policy participant (position + 1) rest (identities ++ identity.toList)

/-- The identities after the histories of several participants. -/
def sealStreams (field : String) (policy : HistoryFieldPolicy) :
    List (String × List HistoryRecord) → List HistoryIdentity →
      Except PyError (List HistoryIdentity)
  | [], identities => .ok identities
  | (participant, records) :: rest, identities => do
    refuseIf (participant = "") (valueError "history keys must be non-empty strings")
    let identities ← sealStream field policy participant 1 records identities
    sealStreams field policy rest identities

/-- `seal_history`.  A history that is sealed already was accepted before. -/
def sealHistory (field : String)
    (histories : List (String × List HistoryRecord)) : Except PyError Unit :=
  (fun _ => ()) <$> sealStreams field (historyPolicy rules field) histories []

def historyDigest (records : List HistoryRecord) : String :=
  records.foldl (fun digest record => rules.chain digest (.obj record)) rules.emptyDigest

def prefixDigest (records : List HistoryRecord) (length : ℕ) : String :=
  historyDigest rules (records.take length)

/-! ## Rows -/

/-- The tables `snapshot_history_streams` and `snapshot_history`, and the format
marker. -/
structure HistoryRows where
  streams : Dict StreamKey (ℕ × String)
  history : Dict (StreamKey × ℕ) (Json × String)
  format : Option String

def HistoryRows.init : HistoryRows := ⟨Dict.empty, Dict.empty, none⟩

abbrev SnapshotHistories := String → Dict String (List HistoryRecord)

variable (rules : HistoryRules)

def insertRecords (key : StreamKey) : ℕ → List HistoryRecord →
    Dict (StreamKey × ℕ) (Json × String) →
      Except PyError (Dict (StreamKey × ℕ) (Json × String))
  | _, [], history => .ok history
  | position, record :: rest, history => do
    let row ← encodePayload rules.codec (.obj record)
    refuseIf ((history.get? (key, position)).isSome)
      (databaseError "UNIQUE constraint failed: snapshot_history")
    insertRecords key (position + 1) rest (history.set (key, position) row)

/-- Keep or delete the rows that a stream has, and insert the records that they
do not hold. -/
def persistStream (prior : Dict StreamKey (ℕ × String)) (key : StreamKey)
    (records : List HistoryRecord) (rows : HistoryRows) : Except PyError HistoryRows := do
  let (length, head) := (prior.get? key).getD (0, prefixDigest rules records 0)
  let rewrite : Prop := records.length < length ∨ prefixDigest rules records length ≠ head
  let kept := if rewrite then rows.history.filterKeys fun k => k.1 ≠ key else rows.history
  let start := if rewrite then 0 else length
  let history ← insertRecords rules key start (records.drop start) kept
  let current := (records.length, prefixDigest rules records records.length)
  return { rows with
    history := history
    streams := if prior.get? key = some current then rows.streams
      else rows.streams.set key current }

def persistStreams (prior : Dict StreamKey (ℕ × String)) (field : String) :
    List (String × List HistoryRecord) → HistoryRows → Except PyError HistoryRows
  | [], rows => .ok rows
  | (participant, records) :: rest, rows => do
    let rows ← persistStream rules prior (field, participant) records rows
    persistStreams prior field rest rows

def persistFields (prior : Dict StreamKey (ℕ × String)) (snapshot : SnapshotHistories) :
    List String → HistoryRows → Except PyError HistoryRows
  | [], rows => .ok rows
  | field :: rest, rows => do
    sealHistory rules field (snapshot field).entries
    let rows ← persistStreams rules prior field (snapshot field).entries rows
    persistFields prior snapshot rest rows

def Retained (snapshot : SnapshotHistories) (key : StreamKey) : Prop :=
  key.1 ∈ historyFields ∧ (snapshot key.1).contains key.2 = true

instance (snapshot : SnapshotHistories) : DecidablePred (Retained snapshot) := fun _ =>
  inferInstanceAs (Decidable (_ ∧ _))

variable (rows : HistoryRows)

def persistHistoryRows (snapshot : SnapshotHistories) : Except PyError HistoryRows := do
  let written ← persistFields rules rows.streams snapshot historyFields rows
  let stale (key : StreamKey) : Prop := rows.streams.contains key = true ∧ ¬ Retained snapshot key
  return { written with
    history := written.history.filterKeys fun k => ¬ stale k.1
    streams := written.streams.filterKeys fun key => ¬ stale key }

/-- The histories and the format marker that a snapshot commit writes. -/
def upsertHistories (snapshot : SnapshotHistories) : Except PyError HistoryRows := do
  let written ← persistHistoryRows rules rows snapshot
  return { written with format := some "1" }

/-! ## Restoring -/

def HistoryRows.streamRows (key : StreamKey) : List (ℕ × Json × String) :=
  ((rows.history.entries.filter fun e => e.1.1 = key).map fun e => (e.1.2, e.2)).insertionSort
    fun a b => a.1 ≤ b.1

/-- The streams by field and participant. -/
def HistoryRows.orderedStreams (rows : HistoryRows) : List (StreamKey × ℕ × String) :=
  rows.streams.entries.insertionSort fun a b =>
    a.1.1 < b.1.1 ∨ a.1.1 = b.1.1 ∧ a.1.2 ≤ b.1.2

def restoreRecord (row : ℕ × Json × String) : Except PyError HistoryRecord := do
  match ← decodePayload rules.codec row.2.1 row.2.2 "snapshot history record" with
  | .obj members => return members
  | _ => throw (evidenceIntegrityError "snapshot history record payload must be an object")

def restoreStream (stream : StreamKey × ℕ × String) :
    Except PyError (StreamKey × List HistoryRecord) := do
  let (key, length, head) := stream
  refuseIf (key.1 ∉ historyFields)
    (evidenceIntegrityError "snapshot history stream coordinates are invalid")
  let found := rows.streamRows key
  refuseIf (found.length ≠ length ∨ found.map Prod.fst ≠ List.range found.length)
    (evidenceIntegrityError "snapshot history stream is incomplete")
  let records ← found.mapM (restoreRecord rules)
  match sealHistory rules key.1 [(key.2, records)] with
  | .ok () =>
    refuseIf (prefixDigest rules records length ≠ head)
      (evidenceIntegrityError "snapshot history stream failed its prefix integrity check")
    return (key, records)
  | .error error =>
    if isValueError error then
      throw (evidenceIntegrityError "snapshot history stream failed its prefix integrity check")
    else throw error

def historiesOf (restored : List (StreamKey × List HistoryRecord)) (field : String) :
    Dict String (List HistoryRecord) :=
  restored.foldl (fun d e => if e.1.1 = field then d.set e.1.2 e.2 else d) Dict.empty

/-- A snapshot payload, with the histories that replace its history members when
they were read from rows. -/
structure RestoredPayload where
  payload : Json
  histories : Option SnapshotHistories

def restoreHistoryRows (payload : Json) : Except PyError RestoredPayload := do
  match rows.format with
  | none => return ⟨payload, none⟩
  | some format =>
    refuseIf (format ≠ "1") (conflictError "snapshot history format is unsupported")
    let streams := rows.orderedStreams
    refuseIf (rows.history.entries.length ≠ (streams.map fun e => e.2.1).sum)
      (evidenceIntegrityError "snapshot history contains unbound records")
    let restored ← streams.mapM (restoreStream rules rows)
    refuseIf ((historyFields.any fun field => ((payload.get? field).getD .null).truthy) = true)
      (evidenceIntegrityError "normalized snapshot header contains duplicate history")
    historyFields.forM fun field => sealHistory rules field (historiesOf restored field).entries
    return ⟨payload, some (historiesOf restored)⟩

end Raes.Store

/-!
# What sealing accepts

Sealing goes through the records of a field and carries the identities seen so
far.  What it accepts does not depend on the order of the participants: every
outcome of the field's identity rule is retained, and the identities of a field
that certifies its records are distinct.
-/

namespace Raes.Store

open PyError

/-- What the identity rule of a field says of one record. -/
abbrev IdentityOutcome := Except PyError (Option HistoryIdentity)

def identityOutcomes (policy : HistoryFieldPolicy) (participant : String) :
    ℕ → List HistoryRecord → List IdentityOutcome
  | _, [] => []
  | position, record :: rest =>
    policy.recordIdentity participant record position ::
      identityOutcomes policy participant (position + 1) rest

def outcomeIdentity : IdentityOutcome → Option HistoryIdentity
  | .ok identity => identity
  | .error _ => none

theorem filterMap_outcomeIdentity_ok (identity : Option HistoryIdentity)
    (rest : List IdentityOutcome) :
    ((.ok identity : IdentityOutcome) :: rest).filterMap outcomeIdentity =
      identity.toList ++ rest.filterMap outcomeIdentity := by
  cases identity with
  | none => exact List.filterMap_cons_none rfl
  | some i => exact List.filterMap_cons_some rfl

def Retainable (policy : HistoryFieldPolicy) (outcome : IdentityOutcome) : Prop :=
  ∀ error, outcome = .error error →
    policy.retainsInvalidRecords = true ∧ (error.kind = .typeError ∨ isValueError error = true)

/-- The outcomes of all records of one field can be sealed together. -/
def Sealable (policy : HistoryFieldPolicy) (outcomes : List IdentityOutcome) : Prop :=
  (∀ outcome ∈ outcomes, Retainable policy outcome) ∧
    (policy.retainsInvalidRecords = false → (outcomes.filterMap outcomeIdentity).Nodup)

theorem Sealable.perm {policy : HistoryFieldPolicy} {a b : List IdentityOutcome}
    (h : Sealable policy a) (hperm : a.Perm b) : Sealable policy b := by
  constructor
  · intro outcome hmem
    exact h.1 outcome (hperm.mem_iff.mpr hmem)
  · intro hcertified
    exact (hperm.filterMap outcomeIdentity).nodup_iff.mp (h.2 hcertified)

theorem Sealable.sublist {policy : HistoryFieldPolicy} {a b : List IdentityOutcome}
    (h : Sealable policy a) (hsub : b.Sublist a) : Sealable policy b := by
  constructor
  · intro outcome hmem
    exact h.1 outcome (hsub.subset hmem)
  · intro hcertified
    exact (h.2 hcertified).sublist (hsub.filterMap outcomeIdentity)

variable {field : String} {policy : HistoryFieldPolicy}

/-! ## A field that certifies its records -/

theorem retainedIdentity_certified (hcertified : policy.retainsInvalidRecords = false)
    (participant : String) (record : HistoryRecord) (position : ℕ)
    (identities : List HistoryIdentity) (identity : Option HistoryIdentity) :
    retainedIdentity field policy participant record position identities = .ok identity ↔
      policy.recordIdentity participant record position = .ok identity ∧
        ∀ i ∈ identities, identity ≠ some i := by
  have hrule : recordIdentity field policy participant record position identities =
        .ok identity ↔
      policy.recordIdentity participant record position = .ok identity ∧
        ∀ i ∈ identities, identity ≠ some i := by
    unfold recordIdentity
    simp only [bind_eq_ok_iff, refuseIf_eq_ok_iff, not_exists, not_and]
    constructor
    · rintro ⟨found, hfound, _, hnew, hpure⟩
      cases hpure
      exact ⟨hfound, hnew⟩
    · rintro ⟨hfound, hnew⟩
      exact ⟨identity, hfound, (), hnew, rfl⟩
  rw [← hrule, retainedIdentity]
  split
  · rename_i found hfound
    rw [hfound]
  · rename_i error herror
    rw [herror, hcertified]
    simp

theorem sealStream_certified (hcertified : policy.retainsInvalidRecords = false)
    (participant : String) (position : ℕ) (records : List HistoryRecord)
    (identities out : List HistoryIdentity) (hnodup : identities.Nodup) :
    sealStream field policy participant position records identities = .ok out ↔
      (∀ outcome ∈ identityOutcomes policy participant position records,
          Retainable policy outcome) ∧ out.Nodup ∧
        out = identities ++
          (identityOutcomes policy participant position records).filterMap outcomeIdentity := by
  induction records generalizing position identities with
  | nil =>
    simp only [sealStream, identityOutcomes, List.filterMap_nil, List.append_nil]
    constructor
    · intro h
      cases h
      exact ⟨fun _ hmem => absurd hmem List.not_mem_nil, hnodup, rfl⟩
    · rintro ⟨-, -, rfl⟩
      rfl
  | cons record rest ih =>
    simp only [sealStream, identityOutcomes, bind_eq_ok_iff,
      retainedIdentity_certified hcertified, List.forall_mem_cons]
    constructor
    · rintro ⟨identity, ⟨hrule, hnew⟩, hrest⟩
      have hnext : (identities ++ identity.toList).Nodup := by
        rw [List.nodup_append]
        refine ⟨hnodup, by cases identity <;> simp, ?_⟩
        intro i hi j hj heq
        subst heq
        exact hnew i hi (Option.mem_toList.mp hj)
      obtain ⟨hall, hout, heq⟩ := (ih _ _ hnext).mp hrest
      refine ⟨⟨?_, hall⟩, hout, ?_⟩
      · intro error herror
        rw [hrule] at herror
        cases herror
      · rw [heq, hrule, filterMap_outcomeIdentity_ok, List.append_assoc]
    · rintro ⟨⟨hfirst, hall⟩, hout, heq⟩
      obtain ⟨identity, hrule⟩ : ∃ identity,
          policy.recordIdentity participant record position = .ok identity := by
        cases hoc : policy.recordIdentity participant record position with
        | ok identity => exact ⟨identity, rfl⟩
        | error error =>
          have hretains := (hfirst error hoc).1
          rw [hcertified] at hretains
          cases hretains
      have hsplit : out = (identities ++ identity.toList) ++
          (identityOutcomes policy participant (position + 1) rest).filterMap
            outcomeIdentity := by
        rw [heq, hrule, filterMap_outcomeIdentity_ok, List.append_assoc]
      have hnext : (identities ++ identity.toList).Nodup := by
        rw [hsplit] at hout
        exact hout.of_append_left
      refine ⟨identity, ⟨hrule, ?_⟩, (ih _ _ hnext).mpr ⟨hall, hout, hsplit⟩⟩
      intro i hi heq
      subst heq
      rw [List.nodup_append] at hnext
      exact hnext.2.2 i hi i (by simp) rfl

/-! ## A field that retains invalid records -/

theorem retainedIdentity_retaining (field : String) (hretains : policy.retainsInvalidRecords = true)
    (participant : String) (record : HistoryRecord) (position : ℕ)
    (identities : List HistoryIdentity) :
    (∃ identity, retainedIdentity field policy participant record position identities =
        .ok identity) ↔
      Retainable policy (policy.recordIdentity participant record position) := by
  unfold retainedIdentity recordIdentity Retainable
  cases policy.recordIdentity participant record position with
  | error error =>
    simp only [bind, Except.bind, hretains, true_and, Except.error.injEq, forall_eq']
    split <;> simp_all
  | ok identity =>
    simp only [bind, Except.bind, reduceCtorEq, IsEmpty.forall_iff, implies_true, iff_true]
    by_cases hrepeat : ∃ i ∈ identities, identity = some i
    · -- A repeated identity is a value error, which the field retains.
      refine ⟨none, ?_⟩
      simp [refuseIf, hrepeat, hretains, isValueError, valueError]
    · refine ⟨identity, ?_⟩
      simp only [refuseIf, if_neg hrepeat]
      rfl

theorem sealStream_retaining (field : String) (hretains : policy.retainsInvalidRecords = true)
    (participant : String) (position : ℕ) (records : List HistoryRecord)
    (identities : List HistoryIdentity) :
    (∃ out, sealStream field policy participant position records identities = .ok out) ↔
      ∀ outcome ∈ identityOutcomes policy participant position records,
        Retainable policy outcome := by
  induction records generalizing position identities with
  | nil => simp [sealStream, identityOutcomes]
  | cons record rest ih =>
    simp only [sealStream, identityOutcomes, bind_eq_ok_iff, List.forall_mem_cons,
      ← retainedIdentity_retaining field hretains participant record position identities]
    constructor
    · rintro ⟨out, identity, hidentity, hrest⟩
      exact ⟨⟨identity, hidentity⟩, (ih _ _).mp ⟨out, hrest⟩⟩
    · rintro ⟨⟨identity, hidentity⟩, hall⟩
      obtain ⟨out, hrest⟩ := (ih (position + 1) (identities ++ identity.toList)).mpr hall
      exact ⟨out, identity, hidentity, hrest⟩

/-! ## The histories of one field -/

def fieldOutcomes (policy : HistoryFieldPolicy) (histories : List (String × List HistoryRecord)) :
    List IdentityOutcome :=
  histories.flatMap fun e => identityOutcomes policy e.1 1 e.2

theorem sealStreams_certified (hcertified : policy.retainsInvalidRecords = false)
    (histories : List (String × List HistoryRecord)) (identities out : List HistoryIdentity)
    (hnodup : identities.Nodup) :
    sealStreams field policy histories identities = .ok out ↔
      (∀ e ∈ histories, e.1 ≠ "") ∧
        (∀ outcome ∈ fieldOutcomes policy histories, Retainable policy outcome) ∧ out.Nodup ∧
        out = identities ++ (fieldOutcomes policy histories).filterMap outcomeIdentity := by
  induction histories generalizing identities with
  | nil =>
    simp only [sealStreams, fieldOutcomes, List.flatMap_nil, List.filterMap_nil, List.append_nil]
    constructor
    · intro h
      cases h
      exact ⟨fun _ hmem => absurd hmem List.not_mem_nil,
        fun _ hmem => absurd hmem List.not_mem_nil, hnodup, rfl⟩
    · rintro ⟨-, -, -, rfl⟩
      rfl
  | cons e rest ih =>
    obtain ⟨participant, records⟩ := e
    have hcons : fieldOutcomes policy ((participant, records) :: rest) =
        identityOutcomes policy participant 1 records ++ fieldOutcomes policy rest :=
      List.flatMap_cons
    simp only [sealStreams, bind_eq_ok_iff, refuseIf_eq_ok_iff, hcons,
      List.forall_mem_cons, List.forall_mem_append, List.filterMap_append]
    constructor
    · rintro ⟨_, hname, middle, hstream, hrest⟩
      obtain ⟨hfirst, hmiddle, rfl⟩ :=
        (sealStream_certified hcertified _ _ _ _ _ hnodup).mp hstream
      obtain ⟨hnames, hall, hout, heq⟩ := (ih _ hmiddle).mp hrest
      exact ⟨⟨hname, hnames⟩, ⟨hfirst, hall⟩, hout, by rw [heq, List.append_assoc]⟩
    · rintro ⟨⟨hname, hnames⟩, ⟨hfirst, hall⟩, hout, heq⟩
      rw [← List.append_assoc] at heq
      have hmiddle : (identities ++ (identityOutcomes policy participant 1 records).filterMap
          outcomeIdentity).Nodup := by
        rw [heq] at hout
        exact hout.of_append_left
      exact ⟨(), hname, _,
        (sealStream_certified hcertified _ _ _ _ _ hnodup).mpr ⟨hfirst, hmiddle, rfl⟩,
        (ih _ hmiddle).mpr ⟨hnames, hall, hout, heq⟩⟩

theorem sealStreams_retaining (hretains : policy.retainsInvalidRecords = true)
    (histories : List (String × List HistoryRecord)) (identities : List HistoryIdentity) :
    (∃ out, sealStreams field policy histories identities = .ok out) ↔
      (∀ e ∈ histories, e.1 ≠ "") ∧
        ∀ outcome ∈ fieldOutcomes policy histories, Retainable policy outcome := by
  induction histories generalizing identities with
  | nil => simp [sealStreams, fieldOutcomes]
  | cons e rest ih =>
    obtain ⟨participant, records⟩ := e
    have hcons : fieldOutcomes policy ((participant, records) :: rest) =
        identityOutcomes policy participant 1 records ++ fieldOutcomes policy rest :=
      List.flatMap_cons
    simp only [sealStreams, bind_eq_ok_iff, refuseIf_eq_ok_iff, hcons,
      List.forall_mem_cons, List.forall_mem_append]
    constructor
    · rintro ⟨out, _, hname, middle, hstream, hrest⟩
      obtain ⟨hnames, hall⟩ := (ih middle).mp ⟨out, hrest⟩
      exact ⟨⟨hname, hnames⟩, (sealStream_retaining field hretains _ _ _ _).mp ⟨middle, hstream⟩, hall⟩
    · rintro ⟨⟨hname, hnames⟩, hfirst, hall⟩
      obtain ⟨middle, hstream⟩ :=
        (sealStream_retaining field hretains participant 1 records identities).mpr hfirst
      obtain ⟨out, hrest⟩ := (ih middle).mpr ⟨hnames, hall⟩
      exact ⟨out, (), hname, middle, hstream, hrest⟩

theorem sealHistory_ok_iff (rules : HistoryRules) (field : String)
    (histories : List (String × List HistoryRecord)) :
    sealHistory rules field histories = .ok () ↔
      (∀ e ∈ histories, e.1 ≠ "") ∧
        Sealable (historyPolicy rules field) (fieldOutcomes (historyPolicy rules field) histories) := by
  have hok : sealHistory rules field histories = .ok () ↔
      ∃ out, sealStreams field (historyPolicy rules field) histories [] = .ok out := by
    unfold sealHistory
    cases sealStreams field (historyPolicy rules field) histories [] with
    | error error => simp [Functor.map, Except.map]
    | ok out => simp [Functor.map, Except.map]
  rw [hok]
  unfold Sealable
  cases hretains : (historyPolicy rules field).retainsInvalidRecords with
  | true =>
    rw [sealStreams_retaining hretains]
    simp
  | false =>
    constructor
    · rintro ⟨out, hout⟩
      obtain ⟨hnames, hall, hnodup, rfl⟩ :=
        (sealStreams_certified hretains _ _ _ List.nodup_nil).mp hout
      exact ⟨hnames, hall, fun _ => hnodup⟩
    · rintro ⟨hnames, hall, hnodup⟩
      exact ⟨_, (sealStreams_certified hretains _ _ _ List.nodup_nil).mpr
        ⟨hnames, hall, hnodup rfl, rfl⟩⟩

/-- Sealing accepts the same histories in any order of the participants. -/
theorem sealHistory_perm {rules : HistoryRules} {field : String}
    {a b : List (String × List HistoryRecord)} (hperm : a.Perm b)
    (h : sealHistory rules field a = .ok ()) : sealHistory rules field b = .ok () := by
  rw [sealHistory_ok_iff] at h ⊢
  constructor
  · intro e hmem
    exact h.1 e (hperm.mem_iff.mpr hmem)
  · exact h.2.perm (hperm.flatMap_right _)

theorem sealHistory_single {rules : HistoryRules} {field : String}
    {histories : List (String × List HistoryRecord)} {e : String × List HistoryRecord}
    (hmem : e ∈ histories) (h : sealHistory rules field histories = .ok ()) :
    sealHistory rules field [e] = .ok () := by
  rw [sealHistory_ok_iff] at h ⊢
  have hsub : [e].Sublist histories := List.singleton_sublist.mpr hmem
  constructor
  · intro e' hmem'
    exact h.1 e' (hsub.subset hmem')
  · exact h.2.sublist (hsub.flatMap _)

end Raes.Store
