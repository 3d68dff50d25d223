import Raes.Store.LocalRuns

/-!
# The inject chain of a store

The inject occurrences that a store holds form one chain: their positions count
from one, and each names the order head of the one before it.  The chain is
spread over the records, so it is kept by what every operation does to one
record.  A claim and a save check the whole history.  A participant transition
checks nothing of it, so a run keeps the chain when its participant transitions
extend it.
-/

namespace Raes.Store

open PyError Stateful

variable {rules : ContractRules}

/-! ## Chains -/

/-- The head that the next occurrence must name. -/
def lastHead (rules : ContractRules) (head : String) (claims : List InjectOccurrence) : String :=
  claims.foldl (fun _ claim => injectOrderHead rules claim) head

theorem orderChain_append (head : String) (position : ℕ) (claims : List InjectOccurrence)
    (claim : InjectOccurrence) :
    OrderChain rules head position (claims ++ [claim]) ↔
      OrderChain rules head position claims ∧ claim.position = position + claims.length ∧
        claim.predecessor = lastHead rules head claims := by
  induction claims generalizing head position with
  | nil => simp [OrderChain, lastHead]
  | cons first rest ih =>
    simp only [List.cons_append, OrderChain, ih, lastHead, List.foldl_cons, List.length_cons,
      and_assoc]
    rw [show position + 1 + rest.length = position + (rest.length + 1) by omega]

variable {claims : List InjectOccurrence}

theorem OrderChain.positions {head : String} {position : ℕ}
    (h : OrderChain rules head position claims) :
    claims.map InjectOccurrence.position = List.range' position claims.length := by
  induction claims generalizing head position with
  | nil => rfl
  | cons claim rest ih =>
    obtain ⟨hposition, _, hrest⟩ := h
    rw [List.map_cons, List.length_cons, List.range'_succ, hposition, ih hrest]

theorem OrderChain.first {head : String} {position : ℕ}
    (h : OrderChain rules head position claims) (hi : 0 < claims.length) :
    claims[0].predecessor = head := by
  cases claims with
  | nil => cases hi
  | cons claim rest => exact h.2.1

theorem OrderChain.next {head : String} {position : ℕ} (h : OrderChain rules head position claims)
    (i : ℕ) (hi : i + 1 < claims.length) :
    claims[i + 1].predecessor = injectOrderHead rules claims[i] := by
  induction claims generalizing head position i with
  | nil => cases hi
  | cons claim rest ih =>
    have hrest := h.2.2
    cases i with
    | zero => exact hrest.first (Nat.lt_of_succ_lt_succ hi)
    | succ i => exact ih hrest i (Nat.lt_of_succ_lt_succ hi)

theorem orderedClaims_append {records : List ControlPlaneOperationRecord}
    {record : ControlPlaneOperationRecord} {occurrence : InjectOccurrence}
    (hchain : OrderChain rules injectGenesisHead 1 (orderedClaims records))
    (hoccurrence : record.injectOccurrence = some occurrence)
    (hposition : occurrence.position = (orderedClaims records).length + 1) :
    orderedClaims (records ++ [record]) = orderedClaims records ++ [occurrence] := by
  have hpositions := hchain.positions
  have hbelow : ∀ claim ∈ orderedClaims records, claim.position < occurrence.position := by
    intro claim hclaim
    have hmem : claim.position ∈ List.range' 1 (orderedClaims records).length := by
      rw [← hpositions]
      exact List.mem_map_of_mem hclaim
    rw [List.mem_range'_1] at hmem
    omega
  have hclaims : occurrences (records ++ [record]) = occurrences records ++ [occurrence] := by
    unfold occurrences
    rw [List.filterMap_append, List.filterMap_cons_some hoccurrence, List.filterMap_nil]
  have hperm : (orderedClaims (records ++ [record])).Perm
      (orderedClaims records ++ [occurrence]) := by
    refine (orderedClaims_perm _).trans ?_
    rw [hclaims]
    exact (orderedClaims_perm records).symm.append_right _
  have hsorted : (orderedClaims records ++ [occurrence]).Pairwise
      fun x y => x.position ≤ y.position := by
    rw [List.pairwise_append]
    refine ⟨List.pairwise_insertionSort _ _, List.pairwise_singleton _ _, ?_⟩
    intro claim hclaim last hlast
    rw [List.mem_singleton.mp hlast]
    exact (hbelow claim hclaim).le
  have hnodup : ((orderedClaims records ++ [occurrence]).map InjectOccurrence.position).Nodup := by
    rw [List.map_append, hpositions]
    refine (List.nodup_range').append (List.nodup_singleton _) ?_
    rw [List.map_singleton, List.disjoint_singleton, List.mem_range'_1]
    omega
  refine List.Perm.eq_of_pairwise ?_ (List.pairwise_insertionSort _ _) hsorted hperm
  intro x y hx hy hxy hyx
  exact List.inj_on_of_nodup_map hnodup (hperm.mem_iff.mp hx) hy (le_antisymm hxy hyx)

/-- The occurrences of the records form one chain from the genesis head, and no
delivery pair is claimed twice. -/
structure InjectOrder (rules : ContractRules) (records : List ControlPlaneOperationRecord) :
    Prop where
  chain : OrderChain rules injectGenesisHead 1 (orderedClaims records)
  worlds : (worldPairs records).Nodup
  controls : (controlPairs records).Nodup

variable {before after : List ControlPlaneOperationRecord}

theorem InjectOrder.versions (h : InjectOrder rules before) (hversions : Versions before after) :
    InjectOrder rules after where
  chain := by
    have hordered : orderedClaims after = orderedClaims before :=
      congrArg (List.insertionSort _) hversions.occurrences
    rw [hordered]
    exact h.chain
  worlds := by
    rw [hversions.worldPairs]
    exact h.worlds
  controls := by
    rw [hversions.controlPairs]
    exact h.controls

theorem InjectOrder.claimed (h : InjectOrder rules before)
    {record : ControlPlaneOperationRecord} {revision : ℤ}
    (hnew : ∀ item ∈ before, item.operationId ≠ record.operationId)
    (hchecked : requireInjectClaim rules record before revision = .ok ()) :
    InjectOrder rules (before ++ [record]) := by
  rw [requireInjectClaim_ok_iff] at hchecked
  rcases hchecked with ⟨item, hitem, hid⟩ | ⟨_, hdeliveries, hclaims⟩
  · exact absurd hid (hnew item hitem)
  · refine ⟨?_, hdeliveries.worlds, hdeliveries.controls⟩
    cases hoccurrence : record.injectOccurrence with
    | some occurrence => exact (hclaims occurrence hoccurrence).2.chain
    | none =>
      have hordered : orderedClaims (before ++ [record]) = orderedClaims before := by
        unfold orderedClaims
        rw [List.filterMap_append, List.filterMap_cons_none hoccurrence, List.filterMap_nil,
          List.append_nil]
      rw [hordered]
      exact h.chain

/-- A new record is the next of the chain: its occurrence follows the last one,
and its delivery claims pairs that no record claims. -/
structure ExtendsOrder (rules : ContractRules) (records : List ControlPlaneOperationRecord)
    (record : ControlPlaneOperationRecord) : Prop where
  occurrence : ∀ occurrence, record.injectOccurrence = some occurrence →
    occurrence.position = (orderedClaims records).length + 1 ∧
      occurrence.predecessor = lastHead rules injectGenesisHead (orderedClaims records)
  world : ∀ content, record.injectDelivery = some content → worldPair content ∉ worldPairs records
  control : ∀ content pair, record.injectDelivery = some content →
    controlPair content = some pair → pair ∉ controlPairs records

theorem nodup_filterMap_append {α β : Type} {f : α → Option β} {l : List α} {a : α}
    (h : (l.filterMap f).Nodup) (hnew : ∀ b, f a = some b → b ∉ l.filterMap f) :
    ((l ++ [a]).filterMap f).Nodup := by
  rw [List.filterMap_append]
  cases ha : f a with
  | none =>
    rw [List.filterMap_cons_none ha, List.filterMap_nil, List.append_nil]
    exact h
  | some b =>
    rw [List.filterMap_cons_some ha, List.filterMap_nil]
    exact h.append (List.nodup_singleton b) (List.disjoint_singleton.mpr (hnew b ha))

theorem InjectOrder.extended (h : InjectOrder rules before)
    {record : ControlPlaneOperationRecord} (hrecord : ExtendsOrder rules before record) :
    InjectOrder rules (before ++ [record]) where
  chain := by
    cases hoccurrence : record.injectOccurrence with
    | some occurrence =>
      obtain ⟨hposition, hpredecessor⟩ := hrecord.occurrence occurrence hoccurrence
      rw [orderedClaims_append h.chain hoccurrence hposition, orderChain_append]
      exact ⟨h.chain, by omega, hpredecessor⟩
    | none =>
      unfold orderedClaims
      rw [List.filterMap_append, List.filterMap_cons_none hoccurrence, List.filterMap_nil,
        List.append_nil]
      exact h.chain
  worlds := by
    refine nodup_filterMap_append h.worlds fun pair hpair => ?_
    obtain ⟨content, hcontent, rfl⟩ := Option.map_eq_some_iff.mp hpair
    exact hrecord.world content hcontent
  controls := by
    refine nodup_filterMap_append h.controls fun pair hpair => ?_
    obtain ⟨content, hcontent, hpair⟩ := Option.bind_eq_some_iff.mp hpair
    exact hrecord.control content pair hcontent hpair

namespace MemoryStore

variable {s t : MemoryStore}

/-! ## One operation -/

/-- How an accepted operation writes the record table: not at all, by a later
version of a stored record, by a new record that passed the claim check, or by a
new record of a participant transition. -/
inductive ClaimStep (rules : ContractRules) (s : MemoryStore) (op : StoreOp) (t : MemoryStore) :
    Prop
  | unchanged (records : t.records = s.records)
  | replaced (existing record : ControlPlaneOperationRecord)
      (stored : s.records.get? record.receipt.operationId = some existing)
      (replaces : Replaces rules (some existing) record)
      (records : t.records = s.records.set record.receipt.operationId record)
  | claimed (record : ControlPlaneOperationRecord)
      (fresh : s.records.get? record.receipt.operationId = none)
      (checked : requireInjectClaim rules record s.records.values s.snapshotState.revision = .ok ())
      (records : t.records = s.records.set record.receipt.operationId record)
  | transitioned (heads : ObservedHeads) (revision : ℤ) (snapshot : RuntimeSnapshot)
      (record : ControlPlaneOperationRecord) (event : AuditEvent)
      (op_eq : op = .commitParticipantTransition heads revision snapshot record event)
      (fresh : s.records.get? record.receipt.operationId = none)
      (records : t.records = s.records.set record.receipt.operationId record)

theorem saveRecordLocked_claimStep {op : StoreOp} {record : ControlPlaneOperationRecord}
    (h : exec (saveRecordLocked rules record) s = (.ok (), t)) : ClaimStep rules s op t := by
  obtain ⟨hchecked, ⟨_, rfl⟩ | ⟨htransition, idempotency, _, rfl⟩⟩ :=
    (saveRecordLocked_ok_iff rules record s t).1 h
  · exact .unchanged rfl
  · have hreplaces := replaces_of_transition htransition
    cases hstored : s.records.get? record.receipt.operationId with
    | none => exact .claimed record hstored hchecked rfl
    | some existing =>
      rw [hstored] at hreplaces
      exact .replaced existing record hstored hreplaces rfl

theorem accepted_claimStep {op : StoreOp} (h : Accepts rules s op) :
    ClaimStep rules s op (step rules s op) := by
  obtain ⟨answer, hanswer⟩ := h
  have hexec : exec (perform rules op) s = (.ok answer, step rules s op) := by
    rw [← hanswer]
    rfl
  revert hexec
  generalize step rules s op = t
  intro hexec
  cases op with
  | claimRecord record legacy blocked =>
    obtain ⟨stored, hexec, _⟩ := exec_map_ok_iff.1 hexec
    obtain ⟨_, ⟨_, _, rfl⟩ | ⟨_, _, _, _, _, hsave⟩⟩ :=
      (claimRecord_ok_iff rules record stored legacy blocked s t).1 hexec
    · exact .unchanged rfl
    · exact saveRecordLocked_claimStep hsave
  | saveRecord record =>
    obtain ⟨_, hexec, _⟩ := exec_map_ok_iff.1 hexec
    exact saveRecordLocked_claimStep hexec
  | saveSnapshot snapshot revision =>
    obtain ⟨committed, hexec, _⟩ := exec_map_ok_iff.1 hexec
    obtain ⟨_, _, _, _, rfl⟩ := (saveSnapshot_ok_iff rules snapshot revision committed s t).1 hexec
    exact .unchanged rfl
  | commitParticipantTransition heads revision snapshot record event =>
    obtain ⟨committed, hexec, _⟩ := exec_map_ok_iff.1 hexec
    obtain ⟨_, ⟨_, _, hretry⟩ | ⟨_, _, _, _, htransition, _, _, idempotency, _, rfl⟩⟩ :=
      (commitParticipantTransition_ok_iff rules heads revision snapshot record event committed s
        t).1 hexec
    · rw [validateRetry_state hretry]
      exact .unchanged rfl
    · have hreplaces := replaces_of_transition htransition
      cases hstored : s.records.get? record.receipt.operationId with
      | none => exact .transitioned heads revision snapshot record event rfl hstored rfl
      | some existing =>
        rw [hstored] at hreplaces
        exact .replaced existing record hstored hreplaces rfl
  | commitInvocationTransition expected record event =>
    obtain ⟨committed, hexec, _⟩ := exec_map_ok_iff.1 hexec
    obtain ⟨hcut, _, ⟨_, rfl⟩ | ⟨_, hcurrent, idempotency, _, rfl⟩⟩ :=
      (commitInvocationTransition_ok_iff rules expected record event committed s t).1 hexec
    · exact .unchanged rfl
    · have hsame := (requireSameOperationIdentity_ok (requireSupervisionCut_ok hcut).1).2.2.2.2
      rw [hsame.receipt] at hcurrent
      cases hstored : s.records.get? record.receipt.operationId with
      | none =>
        rw [hstored] at hcurrent
        cases hcurrent
      | some existing =>
        rw [hstored] at hcurrent
        exact .replaced existing record hstored (.supervise hcurrent hcut) rfl
  | commitTerminalOperation snapshot record event mode revision =>
    obtain ⟨committed, hexec, _⟩ := exec_map_ok_iff.1 hexec
    obtain ⟨_, _, _, _, ⟨_, hretry⟩ | ⟨htransition, _, _, _, _, idempotency, _, rfl⟩⟩ :=
      (commitTerminalOperation_ok_iff rules snapshot record event mode revision committed s
        t).1 hexec
    · rw [validateRetry_state hretry]
      exact .unchanged rfl
    · obtain ⟨hterminal, hmoved⟩ := requireTerminalOperationTransition_ok htransition
      cases hstored : s.records.get? record.receipt.operationId with
      | none =>
        rw [hstored] at hmoved
        have hopen := (requireOperationRecordTransition_new hmoved).2.2
        rw [hterminal] at hopen
        cases hopen
      | some existing =>
        have hreplaces := replaces_of_transition hmoved
        rw [hstored] at hreplaces
        exact .replaced existing record hstored hreplaces rfl
  | appendAudit event =>
    cases hexec
    exact .unchanged rfl
  | stopEffectAdmission event =>
    refine .unchanged ?_
    obtain ⟨_, hexec, _⟩ := exec_map_ok_iff.1 hexec
    unfold stopEffectAdmission at hexec
    rw [exec_get_bind] at hexec
    split at hexec
    · cases hexec
      rfl
    · cases hexec
      rfl

/-! ## Runs -/

def Extends (rules : ContractRules) (s : MemoryStore) : StoreOp → Prop
  | .commitParticipantTransition _ _ _ record _ =>
    s.records.get? record.receipt.operationId = none → ExtendsOrder rules s.records.values record
  | _ => True

/-- The store holds one inject order, under the keys of its records. -/
structure Ordered (rules : ContractRules) (s : MemoryStore) : Prop where
  consistent : Consistent s
  order : InjectOrder rules s.records.values

theorem ordered_init (state : SnapshotState) : Ordered rules (init state) where
  consistent := consistent_init state
  order := ⟨trivial, List.nodup_nil, List.nodup_nil⟩

theorem Consistent.fresh_ids (h : Consistent s) {record : ControlPlaneOperationRecord}
    (hfresh : s.records.get? record.receipt.operationId = none) :
    ∀ item ∈ s.records.values, item.operationId ≠ record.operationId := by
  intro item hitem hid
  obtain ⟨id, hstored⟩ := Dict.mem_values_iff.mp hitem
  have hkey : record.receipt.operationId = id := hid.symm.trans (h.ids id item hstored)
  rw [hkey, hstored] at hfresh
  cases hfresh

theorem Ordered.step (h : Ordered rules s) {op : StoreOp} (hop : Extends rules s op) :
    Ordered rules (step rules s op) := by
  refine ⟨h.consistent.recordStep (recordStep_step rules s op), ?_⟩
  by_cases haccepts : Accepts rules s op
  · cases accepted_claimStep haccepts with
    | unchanged hrecords =>
      rw [hrecords]
      exact h.order
    | replaced existing record hstored hreplaces hrecords =>
      rw [hrecords]
      exact h.order.versions
        (Dict.forall₂_values_set KeepsClaims.refl hstored hreplaces.keepsClaims)
    | claimed record hfresh hchecked hrecords =>
      rw [hrecords, Dict.values_set_of_get?_none _ hfresh]
      exact h.order.claimed (h.consistent.fresh_ids hfresh) hchecked
    | transitioned heads revision snapshot record event hop_eq hfresh hrecords =>
      subst hop_eq
      rw [hrecords, Dict.values_set_of_get?_none _ hfresh]
      exact h.order.extended (hop hfresh)
  · rw [step_of_refused haccepts]
    exact h.order

theorem ordered_run (rules : ContractRules) (state : SnapshotState) (ops : List StoreOp)
    (h : Run.Along (step rules) (Extends rules) (init state) ops) :
    Ordered rules (Run.run (step rules) (init state) ops) :=
  Run.run_invariant_along (fun _ _ hs hop => hs.step hop) _ _ (ordered_init state) h

/-- An inject operation whose occurrence claims the second position. -/
def strayOccurrence : ControlPlaneOperationRecord :=
  let record := plainRecord "a" "key" .accepted
  { record with
    receipt := { record.receipt with domain := .orchestration }
    status := { record.status with domain := .orchestration }
    requestFingerprint := "commitment"
    invocation := some
      { request := ⟨"a", plainContext, "inject-occurrence-v1", .null⟩
        delivery := none, native := false, consumed := false, reserved := true
        releaseCommitment := none, responses := [], controls := [], deliveredControls := []
        automaticControls := [], mixedBinding := none, mixedTimeState := none
        mixedPostTimeState := none, mixedCompositionState := none, mixedReports := [] }
    injectOccurrence := some
      { operationId := "a", requestKey := "key", occurrenceId := "occurrence"
        targetScope := "target", runScope := "run", slot := none, requestContent := .null
        admission := plainContext, storeRevision := "0", predecessor := "elsewhere"
        position := 2, content := .null } }

def strayTransition : StoreOp :=
  .commitParticipantTransition (.histories []) 0 emptyState.snapshot strayOccurrence
    ⟨"t0", "action", "actor", true, "target", "a", "", .null⟩

end MemoryStore
end Raes.Store
