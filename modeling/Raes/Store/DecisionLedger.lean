import Raes.Lib.ExceptList
import Raes.Store.RuntimeDecisions

/-!
# The runtime decision ledger

A decision identity keeps the value that it was first claimed with, and a cut is
appended whole or not at all.  The identity check compares with Python's `==`, so
the laws hold for calls in which no candidate equals a bound decision to Python
without being the same JSON value.
-/

namespace Raes.Store

open PyError

variable {D : Type} {contract : DecisionContract D}

/-! ## The cut check -/

theorem requireIdenticalDecision_eq_ok_iff (existing candidate : D) :
    requireIdenticalDecision contract existing candidate = .ok () ↔
      (contract.dump existing).eq (contract.dump candidate) = true := by
  unfold requireIdenticalDecision
  rw [refuseIf_eq_ok_iff, Bool.not_eq_false]

def identityConflict : PyError :=
  conflictError "runtime decision identity conflicts with its committed value"

def setConflict : PyError := conflictError "runtime decision set changed before admission"

theorem requireIdenticalDecision_error {existing candidate : D}
    (h : (contract.dump existing).eq (contract.dump candidate) = false) :
    requireIdenticalDecision contract existing candidate = .error identityConflict :=
  if_pos h

/-- Every bound candidate has the bound value, up to Python equality. -/
def Identical (contract : DecisionContract D) (ledger : Dict String D) (candidates : List D) :
    Prop :=
  ∀ item ∈ candidates, ∀ bound, ledger.get? (contract.decisionId item) = some bound →
    (contract.dump bound).eq (contract.dump item) = true

theorem requireBound_eq_ok_iff (ledger : Dict String D) (item : D) :
    requireBound contract ledger item = .ok () ↔
      ∀ bound, ledger.get? (contract.decisionId item) = some bound →
        (contract.dump bound).eq (contract.dump item) = true := by
  unfold requireBound
  cases h : ledger.get? (contract.decisionId item) with
  | none => simp
  | some bound => simp [requireIdenticalDecision_eq_ok_iff]

theorem requireBound_error {ledger : Dict String D} {item : D} {e : PyError}
    (h : requireBound contract ledger item = .error e) : e = identityConflict := by
  unfold requireBound at h
  split at h
  · unfold requireIdenticalDecision refuseIf at h
    split at h
    · exact (Except.error.inj h).symm
    · cases h
  · cases h

theorem forM_requireBound_ok_iff (ledger : Dict String D) (candidates : List D) :
    forM candidates (requireBound contract ledger) = .ok () ↔
      Identical contract ledger candidates := by
  simp only [forM_eq_ok_iff, requireBound_eq_ok_iff]
  rfl

section Cut

variable {ledger : Dict String D} {candidates : List D} {expectedIds : List String}

theorem requireDecisionCut_conflict (h : ¬ Identical contract ledger candidates) :
    requireDecisionCut contract ledger candidates expectedIds = .error identityConflict := by
  unfold requireDecisionCut
  cases hloop : forM candidates (requireBound contract ledger) with
  | ok u => exact absurd ((forM_requireBound_ok_iff ledger candidates).mp hloop) h
  | error e =>
    obtain ⟨item, -, hitem⟩ := exists_of_forM_eq_error hloop
    rw [requireBound_error hitem]
    rfl

section

variable (h : Identical contract ledger candidates)
include h

theorem requireDecisionCut_bound (hall : AllBound contract ledger candidates) :
    requireDecisionCut contract ledger candidates expectedIds = .ok false := by
  unfold requireDecisionCut
  rw [seq_eq_ok_iff]
  exact ⟨(forM_requireBound_ok_iff ledger candidates).mpr h, if_pos hall⟩

theorem requireDecisionCut_changed (hall : ¬ AllBound contract ledger candidates)
    (hset : ¬ ExactlyBound ledger expectedIds) :
    requireDecisionCut contract ledger candidates expectedIds = .error setConflict := by
  unfold requireDecisionCut
  rw [(forM_requireBound_ok_iff ledger candidates).mpr h]
  show (if AllBound contract ledger candidates then _ else _) = _
  rw [if_neg hall]
  unfold refuseIf
  rw [if_pos hset]
  rfl

theorem requireDecisionCut_append (hall : ¬ AllBound contract ledger candidates)
    (hset : ExactlyBound ledger expectedIds) :
    requireDecisionCut contract ledger candidates expectedIds = .ok true := by
  unfold requireDecisionCut
  rw [seq_eq_ok_iff]
  refine ⟨(forM_requireBound_ok_iff ledger candidates).mpr h, ?_⟩
  rw [if_neg hall, seq_eq_ok_iff, refuseIf_eq_ok_iff, not_not]
  exact ⟨hset, rfl⟩

end

end Cut

theorem decisionCandidates_nodup {decisions : List Json} {candidates : List D}
    (h : decisionCandidates contract decisions = .ok candidates) :
    (candidates.map contract.decisionId).Nodup := by
  unfold decisionCandidates at h
  rw [seq_eq_ok_iff, bind_eq_ok_iff] at h
  obtain ⟨-, items, -, h⟩ := h
  rw [seq_eq_ok_iff, refuseIf_eq_ok_iff, not_not] at h
  obtain ⟨hnodup, h⟩ := h
  cases h
  exact hnodup

/-! ## What a call on the memory store does -/

/-- The candidate of an identity, or what the ledger binds it to. -/
def boundAfter (contract : DecisionContract D) (ledger : Dict String D) (candidates : List D)
    (k : String) : Option D :=
  match candidates.find? fun item => contract.decisionId item = k with
  | some item => some item
  | none => ledger.get? k

variable {ledger : Dict String D} {candidates : List D}

theorem get?_appended (hnodup : (candidates.map contract.decisionId).Nodup) (k : String) :
    (MemoryDecisions.appended contract ledger candidates).get? k =
      boundAfter contract ledger candidates k := by
  unfold MemoryDecisions.appended boundAfter
  induction candidates generalizing ledger with
  | nil => rfl
  | cons item rest ih =>
    rw [List.map_cons, List.nodup_cons] at hnodup
    rw [List.foldl_cons, ih hnodup.2, List.find?_cons]
    by_cases hk : contract.decisionId item = k
    · have hnone : rest.find? (fun other => contract.decisionId other = k) = none := by
        rw [List.find?_eq_none]
        intro other hother
        have hne : contract.decisionId other ≠ contract.decisionId item := fun heq =>
          hnodup.1 (heq ▸ List.mem_map_of_mem hother)
        simpa [← hk] using hne
      rw [hnone]
      simp [hk]
    · have hget : (ledger.set (contract.decisionId item) item).get? k = ledger.get? k :=
        Dict.get?_set_ne ledger item fun heq => hk heq.symm
      simp only [hget, hk, decide_false]

/-- What the ledger binds is the JSON value of every candidate that equals it to Python. -/
def Faithful (contract : DecisionContract D) (ledger : Dict String D) (candidates : List D) :
    Prop :=
  ∀ item ∈ candidates, ∀ bound, ledger.get? (contract.decisionId item) = some bound →
    (contract.dump bound).eq (contract.dump item) = true →
      (contract.dump bound).same (contract.dump item) = true

def FaithfulCall (contract : DecisionContract D) (ledger : Dict String D) : DecisionCall → Prop
  | .claim decision =>
    ∀ candidate, contract.validate decision = .ok candidate → Faithful contract ledger [candidate]
  | .claimCut decisions _ =>
    ∀ candidates, decisionCandidates contract decisions = .ok candidates →
      Faithful contract ledger candidates
  | .load => True

/-- Some candidate has an identity that is bound to another JSON value. -/
def Conflicts (contract : DecisionContract D) (ledger : Dict String D) (candidates : List D) :
    Prop :=
  ∃ item ∈ candidates, ∃ bound, ledger.get? (contract.decisionId item) = some bound ∧
    (contract.dump bound).same (contract.dump item) = false

/-- Under faithful candidates, the check with Python's `==` is the check of the JSON value. -/
theorem Faithful.identical_iff (h : Faithful contract ledger candidates) :
    Identical contract ledger candidates ↔ ¬ Conflicts contract ledger candidates := by
  constructor
  · rintro hidentical ⟨item, hitem, bound, hbound, hsame⟩
    rw [h item hitem bound hbound (hidentical item hitem bound hbound)] at hsame
    cases hsame
  · intro hconflicts item hitem bound hbound
    apply Json.Value.eq_of_same
    by_contra hsame
    exact hconflicts ⟨item, hitem, bound, hbound, Bool.not_eq_true _ ▸ hsame⟩

structure ClaimLaw (contract : DecisionContract D) (ledger : Dict String D) (decision : Json) :
    Prop where
  binds : ∀ candidate, contract.validate decision = .ok candidate →
    ledger.get? (contract.decisionId candidate) = none →
      MemoryDecisions.perform contract ledger (.claim decision) =
        (.ok true, ledger.set (contract.decisionId candidate) candidate)
  repeats : ∀ candidate bound, contract.validate decision = .ok candidate →
    ledger.get? (contract.decisionId candidate) = some bound →
    (contract.dump bound).same (contract.dump candidate) = true →
      MemoryDecisions.perform contract ledger (.claim decision) = (.ok false, ledger)
  refuses : ∀ candidate bound, contract.validate decision = .ok candidate →
    ledger.get? (contract.decisionId candidate) = some bound →
    (contract.dump bound).same (contract.dump candidate) = false →
      MemoryDecisions.perform contract ledger (.claim decision) =
        (.error identityConflict, ledger)

structure CutLaw (contract : DecisionContract D) (ledger : Dict String D) (decisions : List Json)
    (expectedIds : List String) : Prop where
  refuses : ∀ candidates, decisionCandidates contract decisions = .ok candidates →
    Conflicts contract ledger candidates →
      MemoryDecisions.perform contract ledger (.claimCut decisions expectedIds) =
        (.error identityConflict, ledger)
  repeats : ∀ candidates, decisionCandidates contract decisions = .ok candidates →
    ¬ Conflicts contract ledger candidates → AllBound contract ledger candidates →
      MemoryDecisions.perform contract ledger (.claimCut decisions expectedIds) =
        (.ok false, ledger)
  changed : ∀ candidates, decisionCandidates contract decisions = .ok candidates →
    ¬ Conflicts contract ledger candidates → ¬ AllBound contract ledger candidates →
    ¬ ExactlyBound ledger expectedIds →
      MemoryDecisions.perform contract ledger (.claimCut decisions expectedIds) =
        (.error setConflict, ledger)
  appends : ∀ candidates, decisionCandidates contract decisions = .ok candidates →
    ¬ Conflicts contract ledger candidates → ¬ AllBound contract ledger candidates →
    ExactlyBound ledger expectedIds →
      ∃ after, MemoryDecisions.perform contract ledger (.claimCut decisions expectedIds) =
          (.ok true, after) ∧
        ∀ k, after.get? k = boundAfter contract ledger candidates k

theorem claimLaw {decision : Json}
    (h : FaithfulCall contract ledger (.claim decision)) : ClaimLaw contract ledger decision := by
  have hclaim : ∀ candidate bound, contract.validate decision = .ok candidate →
      ledger.get? (contract.decisionId candidate) = some bound →
      MemoryDecisions.claimRuntimeDecision contract ledger decision =
        (requireIdenticalDecision contract bound candidate >>= fun _ => .ok (false, ledger)) := by
    intro candidate bound hvalidate hbound
    unfold MemoryDecisions.claimRuntimeDecision
    rw [hvalidate]
    show (match ledger.get? (contract.decisionId candidate) with
      | some existing => _
      | none => _) = _
    rw [hbound]
    rfl
  refine ⟨?_, ?_, ?_⟩
  · intro candidate hvalidate hnone
    show settled ledger (MemoryDecisions.claimRuntimeDecision contract ledger decision) = _
    unfold MemoryDecisions.claimRuntimeDecision
    rw [hvalidate]
    show settled ledger (match ledger.get? (contract.decisionId candidate) with
      | some existing => _
      | none => _) = _
    rw [hnone]
    rfl
  · intro candidate bound hvalidate hbound hsame
    have hpass : requireIdenticalDecision contract bound candidate = .ok () :=
      (requireIdenticalDecision_eq_ok_iff bound candidate).mpr (Json.Value.eq_of_same _ _ hsame)
    rw [MemoryDecisions.perform, hclaim candidate bound hvalidate hbound, hpass]
    rfl
  · intro candidate bound hvalidate hbound hsame
    have hne : (contract.dump bound).eq (contract.dump candidate) = false := by
      by_contra heq
      rw [Bool.not_eq_false] at heq
      rw [h candidate hvalidate candidate List.mem_cons_self bound hbound heq] at hsame
      cases hsame
    rw [MemoryDecisions.perform, hclaim candidate bound hvalidate hbound,
      requireIdenticalDecision_error hne]
    rfl

theorem cutLaw {decisions : List Json} {expectedIds : List String}
    (h : FaithfulCall contract ledger (.claimCut decisions expectedIds)) :
    CutLaw contract ledger decisions expectedIds := by
  have hcut : ∀ candidates, decisionCandidates contract decisions = .ok candidates →
      MemoryDecisions.claimRuntimeDecisions contract ledger decisions expectedIds =
        (requireDecisionCut contract ledger candidates expectedIds >>= fun append =>
          if append then .ok (true, MemoryDecisions.appended contract ledger candidates)
          else .ok (false, ledger)) := by
    intro candidates hcandidates
    unfold MemoryDecisions.claimRuntimeDecisions
    rw [hcandidates]
    rfl
  refine ⟨?_, ?_, ?_, ?_⟩
  · intro candidates hcandidates hconflicts
    have hnot : ¬ Identical contract ledger candidates :=
      fun hid => ((h candidates hcandidates).identical_iff.mp hid) hconflicts
    rw [MemoryDecisions.perform, hcut candidates hcandidates, requireDecisionCut_conflict hnot]
    rfl
  · intro candidates hcandidates hconflicts hall
    have hid := (h candidates hcandidates).identical_iff.mpr hconflicts
    rw [MemoryDecisions.perform, hcut candidates hcandidates, requireDecisionCut_bound hid hall]
    rfl
  · intro candidates hcandidates hconflicts hall hset
    have hid := (h candidates hcandidates).identical_iff.mpr hconflicts
    rw [MemoryDecisions.perform, hcut candidates hcandidates,
      requireDecisionCut_changed hid hall hset]
    rfl
  · intro candidates hcandidates hconflicts hall hset
    have hid := (h candidates hcandidates).identical_iff.mpr hconflicts
    refine ⟨MemoryDecisions.appended contract ledger candidates, ?_,
      get?_appended (decisionCandidates_nodup hcandidates)⟩
    rw [MemoryDecisions.perform, hcut candidates hcandidates,
      requireDecisionCut_append hid hall hset]
    rfl

/-! ## Runs of the memory store -/

/-- Every bound identity stays bound to the same JSON value. -/
def Extends (contract : DecisionContract D) (ledger later : Dict String D) : Prop :=
  ∀ k d, ledger.get? k = some d → ∃ e, later.get? k = some e ∧
    (contract.dump d).same (contract.dump e) = true

theorem Extends.refl (ledger : Dict String D) : Extends contract ledger ledger :=
  fun _ d hd => ⟨d, hd, Json.Value.same_self _⟩

theorem Extends.trans {a b c : Dict String D} (hab : Extends contract a b)
    (hbc : Extends contract b c) : Extends contract a c := by
  intro k d hd
  obtain ⟨e, he, hde⟩ := hab k d hd
  obtain ⟨f, hf, hef⟩ := hbc k e he
  exact ⟨f, hf, Json.Value.same_trans hde hef⟩

theorem Extends.contains {ledger later : Dict String D} (h : Extends contract ledger later)
    {k : String} (hk : k ∈ ledger.keys) : k ∈ later.keys := by
  obtain ⟨d, hd⟩ := Dict.mem_keys_iff.mp hk
  obtain ⟨e, he, -⟩ := h k d hd
  exact Dict.mem_keys_iff.mpr ⟨e, he⟩

theorem extends_of_boundAfter {ledger after : Dict String D}
    (hconflicts : ¬ Conflicts contract ledger candidates)
    (hafter : ∀ k, after.get? k = boundAfter contract ledger candidates k) :
    Extends contract ledger after := by
  intro k d hd
  rw [hafter]
  unfold boundAfter
  cases hfind : candidates.find? fun item => contract.decisionId item = k with
  | none => exact ⟨d, hd, Json.Value.same_self _⟩
  | some item =>
    refine ⟨item, rfl, ?_⟩
    have hid : contract.decisionId item = k := by simpa using List.find?_some hfind
    by_contra hsame
    refine hconflicts ⟨item, List.mem_of_find?_eq_some hfind, d, hid ▸ hd, ?_⟩
    exact Bool.not_eq_true _ ▸ hsame

theorem perform_cases {call : DecisionCall} (h : FaithfulCall contract ledger call) :
    MemoryDecisions.step contract ledger call = ledger ∨
      ∃ candidates, ¬ Conflicts contract ledger candidates ∧
        ∀ k, (MemoryDecisions.step contract ledger call).get? k =
          boundAfter contract ledger candidates k := by
  unfold MemoryDecisions.step
  cases call with
  | load => exact .inl rfl
  | claim decision =>
    cases hvalidate : contract.validate decision with
    | error e =>
      left
      show (settled ledger (MemoryDecisions.claimRuntimeDecision contract ledger decision)).2 = _
      unfold MemoryDecisions.claimRuntimeDecision
      rw [hvalidate]
      rfl
    | ok candidate =>
      have hlaw := claimLaw h
      cases hbound : ledger.get? (contract.decisionId candidate) with
      | none =>
        right
        rw [hlaw.binds candidate hvalidate hbound]
        refine ⟨[candidate], ?_, ?_⟩
        · rintro ⟨item, hitem, bound, hget, -⟩
          obtain rfl := List.mem_singleton.mp hitem
          rw [hbound] at hget
          cases hget
        · intro k
          show (ledger.set (contract.decisionId candidate) candidate).get? k = _
          rw [Dict.get?_set]
          unfold boundAfter
          by_cases hk : contract.decisionId candidate = k
          · simp [hk]
          · have hne : k ≠ contract.decisionId candidate := fun heq => hk heq.symm
            simp [hk, hne]
      | some bound =>
        left
        cases hsame : (contract.dump bound).same (contract.dump candidate) with
        | true => rw [hlaw.repeats candidate bound hvalidate hbound hsame]
        | false => rw [hlaw.refuses candidate bound hvalidate hbound hsame]
  | claimCut decisions expectedIds =>
    cases hcandidates : decisionCandidates contract decisions with
    | error e =>
      left
      show (settled ledger
        (MemoryDecisions.claimRuntimeDecisions contract ledger decisions expectedIds)).2 = _
      unfold MemoryDecisions.claimRuntimeDecisions
      rw [hcandidates]
      rfl
    | ok candidates =>
      have hlaw := cutLaw h
      by_cases hconflicts : Conflicts contract ledger candidates
      · left
        rw [hlaw.refuses candidates hcandidates hconflicts]
      · by_cases hall : AllBound contract ledger candidates
        · left
          rw [hlaw.repeats candidates hcandidates hconflicts hall]
        · by_cases hset : ExactlyBound ledger expectedIds
          · right
            obtain ⟨after, hperform, hafter⟩ := hlaw.appends candidates hcandidates hconflicts hall hset
            rw [hperform]
            exact ⟨candidates, hconflicts, hafter⟩
          · left
            rw [hlaw.changed candidates hcandidates hconflicts hall hset]

theorem extends_step {call : DecisionCall} (h : FaithfulCall contract ledger call) :
    Extends contract ledger (MemoryDecisions.step contract ledger call) := by
  rcases perform_cases h with heq | ⟨candidates, hconflicts, hafter⟩
  · rw [heq]
    exact Extends.refl ledger
  · exact extends_of_boundAfter hconflicts hafter

theorem extends_run {calls : List DecisionCall}
    (h : Run.Along (MemoryDecisions.step contract) (FaithfulCall contract) ledger calls) :
    Extends contract ledger (Run.run (MemoryDecisions.step contract) ledger calls) :=
  Run.run_invariant_along (I := Extends contract ledger)
    (fun _ _ hext hcall => hext.trans (extends_step hcall)) ledger calls (Extends.refl ledger) h

theorem claimCut_appends {ledger after : Dict String D} {decisions : List Json}
    {expectedIds : List String}
    (h : MemoryDecisions.perform contract ledger (.claimCut decisions expectedIds) =
      (.ok true, after)) :
    ExactlyBound ledger expectedIds ∧ ∃ k, k ∉ ledger.keys ∧ k ∈ after.keys := by
  have hcut : MemoryDecisions.claimRuntimeDecisions contract ledger decisions expectedIds =
      .ok (true, after) := by
    unfold MemoryDecisions.perform settled at h
    dsimp only at h
    split at h
    · rename_i answer t hanswer
      cases h
      exact hanswer
    · cases h
  unfold MemoryDecisions.claimRuntimeDecisions at hcut
  rw [bind_eq_ok_iff] at hcut
  obtain ⟨candidates, hcandidates, hcut⟩ := hcut
  rw [bind_eq_ok_iff] at hcut
  obtain ⟨append, hdecision, hcut⟩ := hcut
  cases append with
  | false => cases hcut
  | true =>
    cases hcut
    by_cases hid : Identical contract ledger candidates
    · by_cases hall : AllBound contract ledger candidates
      · rw [requireDecisionCut_bound hid hall] at hdecision
        cases hdecision
      · by_cases hset : ExactlyBound ledger expectedIds
        · refine ⟨hset, ?_⟩
          simp only [AllBound, not_forall] at hall
          obtain ⟨item, hitem, hnew⟩ := hall
          refine ⟨contract.decisionId item, ?_, ?_⟩
          · rw [← Dict.contains_iff]
            exact hnew
          · rw [Dict.mem_keys_iff]
            rw [get?_appended (decisionCandidates_nodup hcandidates)]
            unfold boundAfter
            cases hfind : candidates.find? fun other =>
                contract.decisionId other = contract.decisionId item with
            | some other => exact ⟨other, rfl⟩
            | none =>
              have hnone := List.find?_eq_none.mp hfind item hitem
              simp at hnone
        · rw [requireDecisionCut_changed hid hall hset] at hdecision
          cases hdecision
    · rw [requireDecisionCut_conflict hid] at hdecision
      cases hdecision

/-- Two cuts that were prepared from one read do not both append. -/
theorem not_both_append {ledger after later final : Dict String D} {first second : List Json}
    {expectedIds expectedIds' : List String}
    (hfirst : MemoryDecisions.perform contract ledger (.claimCut first expectedIds) =
      (.ok true, after))
    (hlater : Extends contract after later) (hsame : ∀ k, k ∈ expectedIds ↔ k ∈ expectedIds') :
    MemoryDecisions.perform contract later (.claimCut second expectedIds') ≠ (.ok true, final) := by
  intro hsecond
  obtain ⟨⟨-, hheld⟩, k, hnew, hk⟩ := claimCut_appends hfirst
  obtain ⟨⟨hexpected, hbound⟩, -⟩ := claimCut_appends hsecond
  obtain ⟨⟨hsub, -⟩, -⟩ := claimCut_appends hfirst
  have hlate : k ∈ later.keys := hlater.contains hk
  exact hnew (hsub k ((hsame k).mpr (hbound k hlate)))

end Raes.Store
