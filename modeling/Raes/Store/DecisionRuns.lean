import Raes.Store.DecisionLedger
import Raes.Store.LocalRuns

/-!
# The decision ledger in both stores

A SQL store answers every call as the memory store does and holds the same
decisions.
-/

namespace Raes.Store

open PyError

variable {D : Type} {contract : DecisionContract D}

section Sql

variable (contract) (codec : DurableCodec)

def rowOf (d : D) : Json × String :=
  ((contract.dump d).json, codec.digest (contract.dump d).json)

/-- Two decisions of one identity with one JSON value. -/
def SameDecision (k : String) (e d : D) : Prop :=
  contract.decisionId e = k ∧ contract.decisionId d = k ∧
    (contract.dump e).same (contract.dump d) = true

def Holds (table : SqlDecisions.Rows) (ledger : Dict String D) : Prop :=
  ∀ k, Option.Rel (fun row d => ∃ e, row = rowOf contract codec e ∧ SameDecision contract k e d)
    (table.get? k) (ledger.get? k)

def SameLedger (existing ledger : Dict String D) : Prop :=
  ∀ k, Option.Rel (SameDecision contract k) (existing.get? k) (ledger.get? k)

end Sql

theorem exists_of_rel_some {α β : Type} {R : α → β → Prop} {a : α} {o : Option β}
    (h : Option.Rel R (some a) o) : ∃ b, o = some b ∧ R a b := by
  cases h with
  | some h => exact ⟨_, rfl, h⟩

theorem eq_none_of_rel_none {α β : Type} {R : α → β → Prop} {o : Option β}
    (h : Option.Rel R (none : Option α) o) : o = none := by
  cases h
  rfl

theorem SameLedger.contains_iff {existing ledger : Dict String D}
    (h : SameLedger contract existing ledger) (k : String) :
    k ∈ existing.keys ↔ k ∈ ledger.keys := by
  rw [Dict.mem_keys_iff, Dict.mem_keys_iff]
  have hk := h k
  cases he : existing.get? k with
  | none =>
    rw [he] at hk
    rw [eq_none_of_rel_none hk]
  | some e =>
    rw [he] at hk
    obtain ⟨d, hd, -⟩ := exists_of_rel_some hk
    rw [hd]
    simp

theorem SameLedger.requireDecisionCut_eq {existing ledger : Dict String D}
    (h : SameLedger contract existing ledger) (candidates : List D) (expectedIds : List String) :
    requireDecisionCut contract existing candidates expectedIds =
      requireDecisionCut contract ledger candidates expectedIds := by
  have hid : Identical contract existing candidates ↔ Identical contract ledger candidates := by
    refine forall₂_congr fun item _ => ?_
    have hk := h (contract.decisionId item)
    cases he : existing.get? (contract.decisionId item) with
    | none =>
      rw [he] at hk
      rw [eq_none_of_rel_none hk]
    | some e =>
      rw [he] at hk
      obtain ⟨d, hd, -, -, hsame⟩ := exists_of_rel_some hk
      have heq := Json.Value.eq_of_same _ _ hsame
      simp only [hd, Option.some.injEq, forall_eq']
      constructor
      · exact fun hitem => Json.Value.eq_trans (Json.Value.eq_symm _ _ heq) hitem
      · exact fun hitem => Json.Value.eq_trans heq hitem
  have hall : AllBound contract existing candidates ↔ AllBound contract ledger candidates := by
    refine forall₂_congr fun item _ => ?_
    rw [Dict.contains_iff, Dict.contains_iff, h.contains_iff]
  have hset : ExactlyBound existing expectedIds ↔ ExactlyBound ledger expectedIds := by
    simp only [ExactlyBound, h.contains_iff]
  by_cases h1 : Identical contract ledger candidates
  · by_cases h2 : AllBound contract ledger candidates
    · rw [requireDecisionCut_bound (hid.mpr h1) (hall.mpr h2), requireDecisionCut_bound h1 h2]
    · by_cases h3 : ExactlyBound ledger expectedIds
      · rw [requireDecisionCut_append (hid.mpr h1) (mt hall.mp h2) (hset.mpr h3),
          requireDecisionCut_append h1 h2 h3]
      · rw [requireDecisionCut_changed (hid.mpr h1) (mt hall.mp h2) (mt hset.mp h3),
          requireDecisionCut_changed h1 h2 h3]
  · rw [requireDecisionCut_conflict (mt hid.mp h1), requireDecisionCut_conflict h1]

section Agreement

variable {codec : DurableCodec} (hlawful : contract.Lawful)

include hlawful

theorem encodeDecision_eq_ok (d : D) :
    SqlDecisions.encodeDecision contract codec d = .ok (rowOf contract codec d) :=
  (encodePayload_ok_iff _ _).mpr ⟨hlawful.bounded d, rfl⟩

theorem decodeDecision_rowOf (d : D) :
    SqlDecisions.decodeDecision contract codec (rowOf contract codec d) = .ok d :=
  decodeContract_encoded _ (hlawful.isObj d) (hlawful.bounded d) (hlawful.rebuilds d)

theorem decisionFromRow_rowOf {k : String} {d : D} (hk : contract.decisionId d = k) :
    SqlDecisions.decisionFromRow contract codec (k, rowOf contract codec d) = .ok d := by
  unfold SqlDecisions.decisionFromRow
  rw [bind_eq_ok_iff]
  refine ⟨d, decodeDecision_rowOf hlawful d, ?_⟩
  rw [seq_eq_ok_iff, refuseIf_eq_ok_iff, not_not]
  exact ⟨hk, rfl⟩

theorem decisionsFromRows_eq_ok {table : SqlDecisions.Rows} {ledger : Dict String D}
    (h : Holds contract codec table ledger) (rows : List (String × Json × String))
    (hrows : ∀ row ∈ rows, row ∈ table.entries) :
    ∃ held, SqlDecisions.decisionsFromRows contract codec rows = .ok held ∧
      held.map contract.decisionId = rows.map Prod.fst ∧
      ∀ e ∈ held, (contract.decisionId e, rowOf contract codec e) ∈ rows := by
  unfold SqlDecisions.decisionsFromRows
  induction rows with
  | nil => exact ⟨[], rfl, rfl, by simp⟩
  | cons row rest ih =>
    rw [List.forall_mem_cons] at hrows
    obtain ⟨held, hheld, hids, hmem⟩ := ih hrows.2
    obtain ⟨k, content⟩ := row
    have hget : table.get? k = some content := Dict.get?_eq_some_iff.mpr hrows.1
    have hrel := h k
    rw [hget] at hrel
    obtain ⟨d, -, e, rfl, hid, -⟩ := exists_of_rel_some hrel
    refine ⟨e :: held, ?_, ?_, ?_⟩
    · rw [List.mapM_cons, decisionFromRow_rowOf hlawful hid, hheld]
      rfl
    · rw [List.map_cons, List.map_cons, hids, hid]
    · rw [List.forall_mem_cons]
      refine ⟨?_, fun e he => List.mem_cons_of_mem _ (hmem e he)⟩
      rw [hid]
      exact List.mem_cons_self

omit hlawful in
theorem sameLedger_byIdentity {table : SqlDecisions.Rows} {ledger : Dict String D}
    (h : Holds contract codec table ledger) {held : List D}
    (hids : held.map contract.decisionId = table.entries.map Prod.fst)
    (hmem : ∀ e ∈ held, (contract.decisionId e, rowOf contract codec e) ∈ table.entries) :
    SameLedger contract (SqlDecisions.byIdentity contract held) ledger := by
  have hnodup : (held.map contract.decisionId).Nodup := by
    rw [hids]
    exact table.nodup
  intro k
  have hget : (SqlDecisions.byIdentity contract held).get? k =
      boundAfter contract Dict.empty held k := get?_appended hnodup k
  rw [hget]
  unfold boundAfter
  have hrel := h k
  cases hfind : held.find? fun item => contract.decisionId item = k with
  | none =>
    have hnone : table.get? k = none := by
      rw [Dict.get?_eq_none_iff, Dict.keys, ← hids, List.mem_map]
      rintro ⟨e, he, hek⟩
      have := List.find?_eq_none.mp hfind e he
      simp [hek] at this
    rw [hnone] at hrel
    rw [eq_none_of_rel_none hrel]
    exact .none
  | some e =>
    have he := List.mem_of_find?_eq_some hfind
    have hek : contract.decisionId e = k := by simpa using List.find?_some hfind
    have hrow : table.get? k = some (rowOf contract codec e) :=
      Dict.get?_eq_some_iff.mpr (hek ▸ hmem e he)
    rw [hrow] at hrel
    obtain ⟨d, hd, e', hrows, -, hdk, hsame⟩ := exists_of_rel_some hrel
    rw [hd]
    have hdump : contract.dump e = contract.dump e' := Json.Value.ext (congrArg Prod.fst hrows)
    exact .some ⟨hek, hdk, hdump ▸ hsame⟩

theorem claim_agrees {table : SqlDecisions.Rows} {ledger : Dict String D}
    (h : Holds contract codec table ledger) (decision : Json) :
    (SqlDecisions.perform contract codec table (.claim decision)).1 =
        (MemoryDecisions.perform contract ledger (.claim decision)).1 ∧
      Holds contract codec (SqlDecisions.perform contract codec table (.claim decision)).2
        (MemoryDecisions.perform contract ledger (.claim decision)).2 := by
  unfold SqlDecisions.perform MemoryDecisions.perform
  dsimp only
  unfold SqlDecisions.claimRuntimeDecision MemoryDecisions.claimRuntimeDecision
  cases hvalidate : contract.validate decision with
  | error e => exact ⟨rfl, h⟩
  | ok candidate =>
    have hrel := h (contract.decisionId candidate)
    cases hstanding : table.get? (contract.decisionId candidate) with
    | none =>
      rw [hstanding] at hrel
      have hnone := eq_none_of_rel_none hrel
      have hself : requireIdenticalDecision contract candidate candidate = .ok () :=
        (requireIdenticalDecision_eq_ok_iff _ _).mpr (Json.Value.eq_self _)
      simp only [bind, Except.bind, encodeDecision_eq_ok hlawful, hstanding, hnone,
        Option.getD_none, decodeDecision_rowOf hlawful, hself, Option.isNone_none, if_true, pure,
        Except.pure, settled, true_and]
      intro k
      rw [Dict.get?_set, Dict.get?_set]
      by_cases hk : k = contract.decisionId candidate
      · rw [if_pos hk, if_pos hk]
        exact .some ⟨candidate, rfl, hk.symm, hk.symm, Json.Value.same_self _⟩
      · rw [if_neg hk, if_neg hk]
        exact h k
    | some row =>
      rw [hstanding] at hrel
      obtain ⟨d, hd, e, rfl, -, -, hsame⟩ := exists_of_rel_some hrel
      have heq := Json.Value.eq_of_same _ _ hsame
      have hrequire : requireIdenticalDecision contract e candidate =
          requireIdenticalDecision contract d candidate := by
        unfold requireIdenticalDecision
        have hiff : (contract.dump e).eq (contract.dump candidate) =
            (contract.dump d).eq (contract.dump candidate) := by
          rw [Bool.eq_iff_iff]
          constructor
          · exact fun hc => Json.Value.eq_trans (Json.Value.eq_symm _ _ heq) hc
          · exact fun hc => Json.Value.eq_trans heq hc
        rw [hiff]
      simp only [bind, Except.bind, encodeDecision_eq_ok hlawful, hstanding, hd,
        Option.getD_some, decodeDecision_rowOf hlawful, hrequire, Option.isNone_some,
        Bool.false_eq_true, if_false, pure, Except.pure]
      cases requireIdenticalDecision contract d candidate with
      | error e => exact ⟨rfl, h⟩
      | ok u => exact ⟨rfl, h⟩

omit hlawful in
theorem get?_inserted {existing : Dict String D} {table : SqlDecisions.Rows} {candidates : List D}
    (hnodup : (candidates.map contract.decisionId).Nodup) (k : String) :
    (SqlDecisions.inserted existing table
      (candidates.map fun item => (contract.decisionId item, rowOf contract codec item))).get? k =
      match candidates.find? fun item => contract.decisionId item = k with
      | some item => if existing.contains k then table.get? k else some (rowOf contract codec item)
      | none => table.get? k := by
  unfold SqlDecisions.inserted
  induction candidates generalizing table with
  | nil => rfl
  | cons item rest ih =>
    rw [List.map_cons, List.nodup_cons] at hnodup
    rw [List.map_cons, List.foldl_cons, ih hnodup.2, List.find?_cons]
    by_cases hk : contract.decisionId item = k
    · have hnone : rest.find? (fun other => contract.decisionId other = k) = none := by
        rw [List.find?_eq_none]
        intro other hother
        have hne : contract.decisionId other ≠ contract.decisionId item := fun heq =>
          hnodup.1 (heq ▸ List.mem_map_of_mem hother)
        simpa [← hk] using hne
      rw [hnone]
      by_cases hbound : existing.contains k = true
      · simp [hk, hbound]
      · simp [hk, hbound]
    · have hget : (if existing.contains (contract.decisionId item) = true then table
          else table.set (contract.decisionId item) (rowOf contract codec item)).get? k =
            table.get? k := by
        split
        · rfl
        · exact Dict.get?_set_ne table _ fun heq => hk heq.symm
      simp only [hget, hk, decide_false]

variable {table : SqlDecisions.Rows} {ledger : Dict String D}

section

variable (h : Holds contract codec table ledger)
include h

theorem claimCut_agrees {decisions : List Json} {expectedIds : List String}
    (hcall : FaithfulCall contract ledger (.claimCut decisions expectedIds)) :
    (SqlDecisions.perform contract codec table (.claimCut decisions expectedIds)).1 =
        (MemoryDecisions.perform contract ledger (.claimCut decisions expectedIds)).1 ∧
      Holds contract codec
        (SqlDecisions.perform contract codec table (.claimCut decisions expectedIds)).2
        (MemoryDecisions.perform contract ledger (.claimCut decisions expectedIds)).2 := by
  unfold SqlDecisions.perform MemoryDecisions.perform
  dsimp only
  unfold SqlDecisions.claimRuntimeDecisions MemoryDecisions.claimRuntimeDecisions
  cases hcandidates : decisionCandidates contract decisions with
  | error e => exact ⟨rfl, h⟩
  | ok candidates =>
    have hnodup := decisionCandidates_nodup hcandidates
    have hencoded : (candidates.mapM fun item => do
        return (contract.decisionId item, ← SqlDecisions.encodeDecision contract codec item)) =
          .ok (candidates.map fun item => (contract.decisionId item, rowOf contract codec item)) := by
      refine mapM_eq_ok_map fun item _ => ?_
      rw [encodeDecision_eq_ok hlawful]
      rfl
    obtain ⟨held, hheld, hids, hmem⟩ := decisionsFromRows_eq_ok hlawful h table.entries
      fun _ hrow => hrow
    have hsame := sameLedger_byIdentity h hids hmem
    simp only [bind, Except.bind] at hencoded ⊢
    simp only [hencoded, hheld, hsame.requireDecisionCut_eq]
    cases hcut : requireDecisionCut contract ledger candidates expectedIds with
    | error e => exact ⟨rfl, h⟩
    | ok append =>
      cases append with
      | false => exact ⟨rfl, h⟩
      | true =>
        have hconflicts : ¬ Conflicts contract ledger candidates := by
          rw [← (hcall candidates hcandidates).identical_iff]
          by_contra hid
          rw [requireDecisionCut_conflict hid] at hcut
          cases hcut
        refine ⟨rfl, fun k => ?_⟩
        show Option.Rel _ ((SqlDecisions.inserted _ table _).get? k)
          ((MemoryDecisions.appended contract ledger candidates).get? k)
        rw [get?_inserted hnodup, get?_appended hnodup]
        unfold boundAfter
        have hrel := h k
        cases hfind : candidates.find? fun item => contract.decisionId item = k with
        | none => exact hrel
        | some item =>
          have hitem := List.mem_of_find?_eq_some hfind
          have hid : contract.decisionId item = k := by simpa using List.find?_some hfind
          dsimp only
          by_cases hbound : (SqlDecisions.byIdentity contract held).contains k = true
          · rw [if_pos hbound]
            have hk : k ∈ ledger.keys := by
              rw [← hsame.contains_iff, ← Dict.contains_iff]
              exact hbound
            obtain ⟨d, hd⟩ := Dict.mem_keys_iff.mp hk
            rw [hd] at hrel
            cases hrow : table.get? k with
            | none =>
              rw [hrow] at hrel
              cases hrel
            | some row =>
              rw [hrow] at hrel
              obtain ⟨d', hd', e, rfl, hek, -, hed⟩ := exists_of_rel_some hrel
              obtain rfl := Option.some.inj hd'
              have hdi : (contract.dump d).same (contract.dump item) = true := by
                by_contra hne
                exact hconflicts ⟨item, hitem, d, hid ▸ hd, Bool.not_eq_true _ ▸ hne⟩
              exact .some ⟨e, rfl, hek, hid, Json.Value.same_trans hed hdi⟩
          · rw [if_neg hbound]
            exact .some ⟨item, rfl, hid, hid, Json.Value.same_self _⟩

theorem load_ok : ∃ held, SqlDecisions.loadRuntimeDecisions contract codec table = .ok held ∧
      held.map contract.decisionId = (sortBy (fun row => row.1) table.entries).map Prod.fst ∧
      ∀ e ∈ held, ∃ d, ledger.get? (contract.decisionId e) = some d ∧
        SameDecision contract (contract.decisionId e) e d := by
  have hperm := sortBy_perm (fun row : String × Json × String => row.1) table.entries
  obtain ⟨held, hheld, hids, hmem⟩ := decisionsFromRows_eq_ok hlawful h
    (sortBy (fun row => row.1) table.entries) fun row hrow => hperm.mem_iff.mp hrow
  refine ⟨held, hheld, hids, fun e he => ?_⟩
  have hrow : table.get? (contract.decisionId e) = some (rowOf contract codec e) :=
    Dict.get?_eq_some_iff.mpr (hperm.mem_iff.mp (hmem e he))
  have hrel := h (contract.decisionId e)
  rw [hrow] at hrel
  obtain ⟨d, hd, e', hrows, -, hdk, hsame⟩ := exists_of_rel_some hrel
  have hdump : contract.dump e = contract.dump e' := Json.Value.ext (congrArg Prod.fst hrows)
  exact ⟨d, hd, rfl, hdk, hdump ▸ hsame⟩

theorem perform_agrees {call : DecisionCall} (hcall : FaithfulCall contract ledger call) :
    (SqlDecisions.perform contract codec table call).1 =
        (MemoryDecisions.perform contract ledger call).1 ∧
      Holds contract codec (SqlDecisions.perform contract codec table call).2
        (MemoryDecisions.perform contract ledger call).2 := by
  cases call with
  | claim decision => exact claim_agrees hlawful h decision
  | claimCut decisions expectedIds => exact claimCut_agrees hlawful h hcall
  | load =>
    obtain ⟨held, hheld, -⟩ := load_ok hlawful h
    unfold SqlDecisions.perform MemoryDecisions.perform
    dsimp only
    rw [hheld]
    exact ⟨rfl, h⟩

end

end Agreement

end Raes.Store

/-!
# Runs of the runtime decision ledger

The calls of any number of clients reach a store one after another.  After every
run of faithful calls an identity has the value that it was first claimed with,
claims and cuts follow their laws, of two cuts prepared from one read at most
one appends, and a SQL store answers and holds what the memory store does.
-/

namespace Raes.Store

variable {D : Type}

structure LedgerSound (contract : DecisionContract D) (codec : DurableCodec)
    (calls : List DecisionCall) : Prop where
  /-- A bound identity keeps its value through the rest of the run. -/
  bound : ∀ earlier later, calls = earlier ++ later →
    Extends contract (Run.run (MemoryDecisions.step contract) Dict.empty earlier)
      (Run.run (MemoryDecisions.step contract) Dict.empty calls)
  claims : ∀ decision,
    FaithfulCall contract (Run.run (MemoryDecisions.step contract) Dict.empty calls)
      (.claim decision) →
    ClaimLaw contract (Run.run (MemoryDecisions.step contract) Dict.empty calls) decision
  cuts : ∀ decisions expectedIds,
    FaithfulCall contract (Run.run (MemoryDecisions.step contract) Dict.empty calls)
      (.claimCut decisions expectedIds) →
    CutLaw contract (Run.run (MemoryDecisions.step contract) Dict.empty calls) decisions
      expectedIds
  /-- A cut that expects what an earlier cut expected does not append after it. -/
  once : ∀ earlier between first second expectedIds expectedIds' after final,
    calls = earlier ++ .claimCut first expectedIds :: between →
    MemoryDecisions.perform contract
        (Run.run (MemoryDecisions.step contract) Dict.empty earlier)
        (.claimCut first expectedIds) = (.ok true, after) →
    (∀ k, k ∈ expectedIds ↔ k ∈ expectedIds') →
    MemoryDecisions.perform contract (Run.run (MemoryDecisions.step contract) Dict.empty calls)
        (.claimCut second expectedIds') ≠ (.ok true, final)
  answers : ∀ call,
    FaithfulCall contract (Run.run (MemoryDecisions.step contract) Dict.empty calls) call →
    (SqlDecisions.perform contract codec
        (Run.run (SqlDecisions.step contract codec) Dict.empty calls) call).1 =
      (MemoryDecisions.perform contract
        (Run.run (MemoryDecisions.step contract) Dict.empty calls) call).1
  holds : Holds contract codec (Run.run (SqlDecisions.step contract codec) Dict.empty calls)
    (Run.run (MemoryDecisions.step contract) Dict.empty calls)
  /-- A read of the SQL store yields the decisions of the memory store. -/
  loads : ∃ held, SqlDecisions.loadRuntimeDecisions contract codec
      (Run.run (SqlDecisions.step contract codec) Dict.empty calls) = .ok held ∧
    (∀ e ∈ held, ∃ d ∈ MemoryDecisions.loadRuntimeDecisions
        (Run.run (MemoryDecisions.step contract) Dict.empty calls),
      SameDecision contract (contract.decisionId e) e d) ∧
    ∀ d ∈ MemoryDecisions.loadRuntimeDecisions
        (Run.run (MemoryDecisions.step contract) Dict.empty calls),
      ∃ e ∈ held, SameDecision contract (contract.decisionId e) e d

section Runs

variable {contract : DecisionContract D} {codec : DurableCodec}

variable (codec) in
theorem holds_of_run (hlawful : contract.Lawful) {calls : List DecisionCall}
    (hcalls : Run.Along (MemoryDecisions.step contract) (FaithfulCall contract) Dict.empty calls) :
    Holds contract codec (Run.run (SqlDecisions.step contract codec) Dict.empty calls)
      (Run.run (MemoryDecisions.step contract) Dict.empty calls) := by
  have hstep : ∀ (ledger : Dict String D) (table : SqlDecisions.Rows) (call : DecisionCall),
      Holds contract codec table ledger → FaithfulCall contract ledger call →
      Holds contract codec (SqlDecisions.step contract codec table call)
        (MemoryDecisions.step contract ledger call) :=
    fun _ _ _ h hcall => (perform_agrees hlawful h hcall).2
  exact Run.run_simulation hstep Dict.empty Dict.empty calls (fun _ => .none) hcalls

theorem extends_of_append {earlier later : List DecisionCall}
    (hcalls : Run.Along (MemoryDecisions.step contract) (FaithfulCall contract) Dict.empty
      (earlier ++ later)) :
    Extends contract (Run.run (MemoryDecisions.step contract) Dict.empty earlier)
      (Run.run (MemoryDecisions.step contract) Dict.empty (earlier ++ later)) := by
  rw [Run.run_append]
  exact extends_run (Run.along_append_right hcalls)

theorem loads_of_holds (hlawful : contract.Lawful) {table : SqlDecisions.Rows}
    {ledger : Dict String D} (h : Holds contract codec table ledger) :
    ∃ held, SqlDecisions.loadRuntimeDecisions contract codec table = .ok held ∧
      (∀ e ∈ held, ∃ d ∈ MemoryDecisions.loadRuntimeDecisions ledger,
        SameDecision contract (contract.decisionId e) e d) ∧
      ∀ d ∈ MemoryDecisions.loadRuntimeDecisions ledger,
        ∃ e ∈ held, SameDecision contract (contract.decisionId e) e d := by
  obtain ⟨held, hheld, hids, hmem⟩ := load_ok hlawful h
  refine ⟨held, hheld, fun e he => ?_, fun d hd => ?_⟩
  · obtain ⟨d, hd, hsame⟩ := hmem e he
    exact ⟨d, Dict.mem_values_iff.mpr ⟨_, hd⟩, hsame⟩
  · obtain ⟨k, hk⟩ := Dict.mem_values_iff.mp hd
    have hrow : k ∈ table.entries.map Prod.fst := by
      have hrel := h k
      rw [hk] at hrel
      cases hget : table.get? k with
      | none =>
        rw [hget] at hrel
        cases hrel
      | some row => exact List.mem_map.mpr ⟨(k, row), Dict.get?_eq_some_iff.mp hget, rfl⟩
    have hheldId : k ∈ held.map contract.decisionId := by
      rw [hids]
      exact ((sortBy_perm _ table.entries).map Prod.fst).mem_iff.mpr hrow
    obtain ⟨e, he, rfl⟩ := List.mem_map.mp hheldId
    obtain ⟨d', hd', hsame⟩ := hmem e he
    rw [hk] at hd'
    obtain rfl := Option.some.inj hd'
    exact ⟨e, he, hsame⟩

/-- After every run of faithful calls the ledger is sound in both stores. -/
theorem decision_ledger_sound (contract : DecisionContract D) (codec : DurableCodec)
    (hlawful : contract.Lawful) (calls : List DecisionCall)
    (hcalls : Run.Along (MemoryDecisions.step contract) (FaithfulCall contract) Dict.empty calls) :
    LedgerSound contract codec calls := by
  have hholds := holds_of_run codec hlawful hcalls
  refine ⟨?_, fun _ h => claimLaw h, fun _ _ h => cutLaw h, ?_,
    fun _ h => (perform_agrees hlawful hholds h).1, hholds, loads_of_holds hlawful hholds⟩
  · rintro earlier later rfl
    exact extends_of_append hcalls
  · rintro earlier between first second expectedIds expectedIds' after final rfl hfirst hsame
    have hrest := Run.along_append_right hcalls
    have hafter : MemoryDecisions.step contract
        (Run.run (MemoryDecisions.step contract) Dict.empty earlier)
        (.claimCut first expectedIds) = after := congrArg Prod.snd hfirst
    have hlater : Extends contract after (Run.run (MemoryDecisions.step contract) Dict.empty
        (earlier ++ .claimCut first expectedIds :: between)) := by
      rw [Run.run_append, Run.run_cons, hafter]
      exact extends_run (hafter ▸ hrest.2)
    exact not_both_append hfirst hlater hsame

end Runs

/-! ## Values that Python takes for equal -/

/-- The archive candidate of a run, by the one value that its parameter set holds. -/
structure ParameterDecision where
  runId : String
  value : DomainScalar
  deriving DecidableEq

namespace ParameterDecision

def json (d : ParameterDecision) : Json :=
  .obj [("run_id", .str d.runId), ("value", d.value.toJson)]

theorem json_wellFormed (d : ParameterDecision) : d.json.wellFormed = true := by
  cases d with
  | mk runId value => cases value <;> rfl

def validate : Json → Except PyError ParameterDecision
  | .obj [("run_id", .str runId), ("value", .bool value)] => .ok ⟨runId, .bool value⟩
  | .obj [("run_id", .str runId), ("value", .int value)] => .ok ⟨runId, .int value⟩
  | .obj [("run_id", .str runId), ("value", .float value)] => .ok ⟨runId, .float value⟩
  | .obj [("run_id", .str runId), ("value", .str value)] => .ok ⟨runId, .str value⟩
  | _ => .error (PyError.valueError "invalid runtime decision")

def contract : DecisionContract ParameterDecision where
  decisionId := runId
  dump d := ⟨d.json, d.json_wellFormed⟩
  validate := validate

theorem contract_lawful : contract.Lawful := by
  refine ⟨?_, fun _ => rfl, ?_⟩
  · rintro ⟨runId, value⟩
    cases value <;> rfl
  · rintro ⟨runId, value⟩
    cases value <;> exact Nat.le_of_ble_eq_true rfl

end ParameterDecision

open ParameterDecision in
/-- A claim and its repetition keep the ledger sound. -/
theorem decision_ledger_sound_claimed_twice :
    LedgerSound contract (LocalStore.plainCodec [])
      [.claim (json ⟨"run", .int 1⟩), .claim (json ⟨"run", .int 1⟩)] := by
  refine decision_ledger_sound contract (LocalStore.plainCodec []) contract_lawful _ ⟨?_, ?_, trivial⟩
  · intro candidate _ item _ bound hbound
    cases hbound
  · intro candidate hcandidate item hitem bound hbound _
    cases hcandidate
    obtain rfl := List.mem_singleton.mp hitem
    cases hbound
    rfl

open ParameterDecision in
/-- A second value that Python takes for the bound one is not refused. -/
theorem equal_values_not_refused :
    ¬ ∀ (calls : List DecisionCall) (decision : Json), ClaimLaw contract
      (Run.run (MemoryDecisions.step contract) Dict.empty calls) decision := by
  intro h
  have hlaw := (h [.claim (json ⟨"run", .int 1⟩)] (json ⟨"run", .bool true⟩)).refuses
    ⟨"run", .bool true⟩ ⟨"run", .int 1⟩ rfl rfl rfl
  have hanswer := congrArg Prod.fst hlaw
  cases hanswer

end Raes.Store
