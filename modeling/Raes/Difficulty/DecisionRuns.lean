import Mathlib.Data.List.Chain
import Raes.Difficulty.Resolution
import Raes.Lib.ExceptList
import Raes.Lib.Stateful

/-!
# Runs of difficulty decisions

A run makes one call after the other, and gives each call the decisions that the calls
before it made.  The cadence bounds hold along every run, because the resolver reads
them off the prior decisions.  The intervention bound is read off the request.
-/

namespace Raes.Difficulty

open PyError

variable {ρ : Type} [DecidableEq ρ] {digests : Digests ρ} {policy : Policy ρ}
  {request : DecisionRequest ρ} {prior : List (Decision ρ)} {decision : Decision ρ}

def call (digests : Digests ρ) (policy : Policy ρ) (prior : List (Decision ρ))
    (request : DecisionRequest ρ) : List (Decision ρ) :=
  match resolveDifficultyPolicy digests policy request prior with
  | .ok (.decided decision) => if decision ∈ prior then prior else prior ++ [decision]
  | _ => prior

def decisions (digests : Digests ρ) (policy : Policy ρ) (requests : List (DecisionRequest ρ)) :
    List (Decision ρ) :=
  Run.run (call digests policy) [] requests

omit [DecidableEq ρ] in
def SameOrder (decision : Decision ρ) (request : DecisionRequest ρ) : Prop :=
  decision.runId = request.runId ∧
    decision.stateCut.orderDomain = request.stateCut.orderDomain ∧
    decision.stateCut.episodeId = request.stateCut.episodeId

/-! ## One call -/

/-- What a new decision says about its request and the decisions before it. -/
structure Decides (digests : Digests ρ) (policy : Policy ρ) (request : DecisionRequest ρ)
    (prior : List (Decision ρ)) (decision : Decision ρ) : Prop where
  fresh : ∀ other ∈ prior, other.idempotencyKey ≠ request.idempotencyKey
  advances : ∀ previous ∈ prior.getLast?,
    previous.stateCut.coordinate < request.stateCut.coordinate
  content : ∃ disposition selected affectedRefs, decision.toDecisionPayload =
    decisionPayload digests policy request prior disposition selected affectedRefs
  permitted : decision.disposition = .selected ∨ decision.disposition = .noChange →
    boundedDisposition policy request prior = none

omit [DecidableEq ρ] in
theorem historyContinues_scope {head : Option String} {cut : Option ℕ}
    (h : HistoryContinues policy request head cut prior) :
    ∀ decision ∈ prior, SameOrder decision request := by
  induction prior generalizing head cut with
  | nil =>
    intro _ hmem
    cases hmem
  | cons first rest ih =>
    obtain ⟨⟨-, -, -, -, hrun, horder, hepisode, -⟩, hrest⟩ := h
    rw [List.forall_mem_cons]
    exact ⟨⟨hrun, horder, hepisode⟩, ih hrest⟩

omit [DecidableEq ρ] in
theorem historyContinues_concat {head : Option String} {cut : Option ℕ}
    (h : HistoryContinues policy request head cut prior)
    (hlast : DecisionMatchesHistoryScope policy request decision
      ((prior.getLast?.map Decision.historyHead).or head)
      ((prior.getLast?.map fun last => last.stateCut.coordinate).or cut)) :
    HistoryContinues policy request head cut (prior ++ [decision]) := by
  induction prior generalizing head cut with
  | nil => exact ⟨hlast, trivial⟩
  | cons first rest ih =>
    refine ⟨h.1, ih h.2 ?_⟩
    cases rest with
    | nil => exact hlast
    | cons second rest =>
      rw [List.getLast?_cons_cons] at hlast
      cases hget : (second :: rest).getLast? with
      | none => exact absurd (List.getLast?_eq_none_iff.mp hget) (List.cons_ne_nil _ _)
      | some last =>
        rw [hget] at hlast
        exact hlast

omit [DecidableEq ρ] in
theorem decisionResult_decided {disposition : Disposition} {selected : Option ThresholdRule}
    (h : decisionResult digests policy request prior disposition selected =
      .ok (.decided decision)) :
    decision.disposition = disposition ∧ ∃ affectedRefs, decision.toDecisionPayload =
      decisionPayload digests policy request prior disposition selected affectedRefs := by
  unfold decisionResult at h
  obtain ⟨affectedRefs, -, h⟩ := bind_eq_ok_iff.mp h
  obtain ⟨-, -, h⟩ := bind_eq_ok_iff.mp h
  cases h
  exact ⟨rfl, affectedRefs, rfl⟩

theorem resolveNewDecision_decided
    (h : resolveNewDecision digests policy request prior = .ok (.decided decision)) :
    (∃ disposition selected affectedRefs, decision.toDecisionPayload =
      decisionPayload digests policy request prior disposition selected affectedRefs) ∧
    (decision.disposition = .selected ∨ decision.disposition = .noChange →
      boundedDisposition policy request prior = none) := by
  have hother : ∀ {disposition selected}, decisionResult digests policy request prior disposition
      selected = .ok (.decided decision) → disposition ≠ .selected → disposition ≠ .noChange →
      (∃ disposition selected affectedRefs, decision.toDecisionPayload =
        decisionPayload digests policy request prior disposition selected affectedRefs) ∧
      (decision.disposition = .selected ∨ decision.disposition = .noChange →
        boundedDisposition policy request prior = none) := by
    intro disposition selected hresult hselected hnoChange
    obtain ⟨rfl, hcontent⟩ := decisionResult_decided hresult
    exact ⟨⟨_, _, hcontent⟩, fun hone => absurd hone (not_or.mpr ⟨hselected, hnoChange⟩)⟩
  have hbounded : ∀ {bounded}, boundedDisposition policy request prior = some bounded →
      bounded = .terminal ∨ bounded = .denied := by
    intro bounded hb
    unfold boundedDisposition at hb
    split at hb
    · exact Or.inl (Option.some.inj hb).symm
    · split at hb
      · cases hb
      · split at hb
        · exact Or.inr (Option.some.inj hb).symm
        · split at hb
          · exact Or.inr (Option.some.inj hb).symm
          · cases hb
  unfold resolveNewDecision at h
  split at h
  · rename_i authority hauthority
    unfold resolveAdaptivePolicy at h
    split at h
    · cases h
    · split at h
      · exact hother h (by decide) (by decide)
      · split at h
        · rename_i bounded hb
          rcases hbounded hb with rfl | rfl
          · exact hother h (by decide) (by decide)
          · exact hother h (by decide) (by decide)
        · rename_i hb
          obtain ⟨selected, -, h⟩ := bind_eq_ok_iff.mp h
          obtain ⟨-, hcontent⟩ := decisionResult_decided h
          exact ⟨⟨_, _, hcontent⟩, fun _ => hb⟩
  · split at h
    · cases h
    · exact hother h (by decide) (by decide)

omit [DecidableEq ρ] in
theorem validatePolicyIdentity_eq_none_iff :
    validatePolicyIdentity policy request = none ↔ NamesPolicy policy request := by
  unfold validatePolicyIdentity
  split <;> simp [*]

omit [DecidableEq ρ] in
theorem validatePriorHistory_eq_none_iff : validatePriorHistory policy request prior = none ↔
    HistoryContinues policy request none none prior := by
  unfold validatePriorHistory
  split <;> simp [*]

theorem resolve_decided
    (h : resolveDifficultyPolicy digests policy request prior = .ok (.decided decision)) :
    NamesPolicy policy request ∧ HistoryContinues policy request none none prior ∧
      (decision ∈ prior ∧ decision.idempotencyKey = request.idempotencyKey ∧
          decision.requestFingerprint = digests.fingerprint request ∨
        Decides digests policy request prior decision) := by
  unfold resolveDifficultyPolicy at h
  split at h
  · cases h
  · rename_i hnamed
    split at h
    · cases h
    · rename_i hcontinues
      refine ⟨validatePolicyIdentity_eq_none_iff.mp hnamed,
        validatePriorHistory_eq_none_iff.mp hcontinues, ?_⟩
      split at h
      · rename_i resolution hreplay
        unfold replayOrConflict at hreplay
        obtain ⟨replay, hfind, hresolution⟩ := Option.map_eq_some_iff.mp hreplay
        rw [Except.ok.inj h] at hresolution
        split at hresolution
        · rename_i hfingerprint
          cases hresolution
          exact Or.inl ⟨List.mem_of_find?_eq_some hfind,
            of_decide_eq_true (List.find?_some hfind :), hfingerprint⟩
        · cases hresolution
      · rename_i hfresh
        have hfresh := List.find?_eq_none.mp (Option.map_eq_none_iff.mp hfresh)
        split at h
        · cases h
        · rename_i hhistory
          obtain ⟨hcontent, hpermitted⟩ := resolveNewDecision_decided h
          refine Or.inr ⟨fun other hother heq => hfresh other hother (decide_eq_true heq),
            fun previous hprevious => ?_, hcontent, hpermitted⟩
          unfold validateHistory at hhistory
          rw [hprevious] at hhistory
          simp only at hhistory
          split at hhistory
          · cases hhistory
          · split at hhistory
            · rename_i hcut
              exact hcut.2.2
            · cases hhistory

/-! ## Histories -/

/-- The decisions of a run, in their order: each is of the policy and answers a request of the
run, they stand in one order with ever later cuts and their own keys, and they keep the
cadence. -/
structure History (digests : Digests ρ) (policy : Policy ρ)
    (requests : List (DecisionRequest ρ)) (history : List (Decision ρ)) : Prop where
  declared : ∀ decision ∈ history, decision.disposition = .selected → ∃ request ∈ requests,
    decision.idempotencyKey = request.idempotencyKey ∧
      decision.requestFingerprint = digests.fingerprint request ∧
      request.interventionCount < policy.bounds.maximumInterventions
  keys : history.Pairwise fun a b => a.idempotencyKey ≠ b.idempotencyKey
  increasing : history.Pairwise fun a b => a.stateCut.coordinate < b.stateCut.coordinate
  cooldown : history.Pairwise fun a b => a.disposition = .selected → b.disposition = .selected →
    a.stateCut.coordinate + policy.bounds.cooldown ≤ b.stateCut.coordinate
  interval : history.IsChain fun a b => b.disposition = .selected ∨ b.disposition = .noChange →
    a.stateCut.coordinate + policy.bounds.minimumDecisionInterval ≤ b.stateCut.coordinate
  continues : ∀ request, NamesPolicy policy request →
    (∀ decision ∈ history, SameOrder decision request) →
    HistoryContinues policy request none none history
  ordered : ∀ a ∈ history, ∀ b ∈ history, ∀ request, SameOrder a request → SameOrder b request

omit [DecidableEq ρ] in
theorem le_getLast {previous : Decision ρ} (hlast : prior.getLast? = some previous)
    (h : prior.Pairwise fun a b => a.stateCut.coordinate < b.stateCut.coordinate) :
    ∀ other ∈ prior, other.stateCut.coordinate ≤ previous.stateCut.coordinate := by
  obtain ⟨init, rfl⟩ := List.getLast?_eq_some_iff.mp hlast
  intro other hother
  rcases List.mem_append.mp hother with hmem | hmem
  · exact le_of_lt ((List.pairwise_append.mp h).2.2 other hmem previous
      (List.mem_singleton_self previous))
  · rw [List.mem_singleton.mp hmem]

omit [DecidableEq ρ] in
theorem le_lastSelected {other : Decision ρ} (hother : other ∈ prior)
    (hselected : other.disposition = .selected)
    (h : prior.Pairwise fun a b => a.stateCut.coordinate < b.stateCut.coordinate) :
    ∃ last, lastSelected prior = some last ∧
      other.stateCut.coordinate ≤ last.stateCut.coordinate := by
  unfold lastSelected
  cases hfind : prior.reverse.find? fun decision => decision.disposition = .selected with
  | none =>
    have hnone := List.find?_eq_none.mp hfind other (List.mem_reverse.mpr hother)
    exact absurd (decide_eq_true hselected) hnone
  | some last =>
    obtain ⟨-, later, earlier, hsplit, hlater⟩ := List.find?_eq_some_iff_append.mp hfind
    refine ⟨last, rfl, ?_⟩
    have hpairs := List.pairwise_reverse.mpr h
    rw [hsplit] at hpairs
    have hmem := List.mem_reverse.mpr hother
    rw [hsplit] at hmem
    rcases List.mem_append.mp hmem with hmem | hmem
    · have hnot := hlater other hmem
      rw [decide_eq_true hselected] at hnot
      cases hnot
    · rcases List.mem_cons.mp hmem with rfl | hmem
      · exact le_refl _
      · have hafter := (List.pairwise_append.mp hpairs).2.1
        exact le_of_lt ((List.pairwise_cons.mp hafter).1 other hmem)

omit [DecidableEq ρ] in
theorem boundedDisposition_none (h : boundedDisposition policy request prior = none) :
    request.interventionCount < policy.bounds.maximumInterventions ∧
      ∀ previous ∈ prior.getLast?,
        previous.stateCut.coordinate + policy.bounds.minimumDecisionInterval ≤
            request.stateCut.coordinate ∧
          ∀ selected ∈ lastSelected prior,
            selected.stateCut.coordinate + policy.bounds.cooldown ≤
              request.stateCut.coordinate := by
  unfold boundedDisposition at h
  split at h
  · cases h
  · rename_i hcount
    refine ⟨Nat.lt_of_not_le hcount, fun previous hprevious => ?_⟩
    rw [hprevious] at h
    simp only at h
    split at h
    · cases h
    · rename_i hinterval
      split at h
      · cases h
      · rename_i hcooldown
        refine ⟨Nat.le_of_not_lt hinterval, fun selected hselected => ?_⟩
        exact Nat.le_of_not_lt fun hlt => hcooldown ⟨selected, hselected, hlt⟩

omit [DecidableEq ρ] in
theorem history_nil (requests : List (DecisionRequest ρ)) : History digests policy requests [] :=
  ⟨fun _ h => (nomatch h), .nil, .nil, .nil, .nil, fun _ _ _ => trivial, fun _ h => (nomatch h)⟩

omit [DecidableEq ρ] in
theorem History.mono {requests more : List (DecisionRequest ρ)}
    (h : History digests policy requests prior) (hsub : requests ⊆ more) :
    History digests policy more prior := by
  refine ⟨fun decision hmem hselected => ?_, h.keys, h.increasing, h.cooldown, h.interval,
    h.continues, h.ordered⟩
  obtain ⟨request, hrequest, hanswer⟩ := h.declared decision hmem hselected
  exact ⟨request, hsub hrequest, hanswer⟩

omit [DecidableEq ρ] in
theorem History.concat {requests : List (DecisionRequest ρ)}
    (h : History digests policy requests prior) (hrequest : request ∈ requests)
    (hscope : HistoryContinues policy request none none prior)
    (hnew : Decides digests policy request prior decision) :
    History digests policy requests (prior ++ [decision]) := by
  obtain ⟨hfresh, hadvances, ⟨disposition, selected, affectedRefs, hcontent⟩, hpermitted⟩ := hnew
  have hkey : decision.idempotencyKey = request.idempotencyKey :=
    congrArg DecisionPayload.idempotencyKey hcontent
  have hcut : decision.stateCut = request.stateCut := congrArg DecisionPayload.stateCut hcontent
  have hsame : SameOrder decision request :=
    ⟨congrArg DecisionPayload.runId hcontent, congrArg StateCut.orderDomain hcut,
      congrArg StateCut.episodeId hcut⟩
  have hlater : ∀ other ∈ prior, other.stateCut.coordinate < request.stateCut.coordinate := by
    intro other hother
    cases hlast : prior.getLast? with
    | none =>
      rw [List.getLast?_eq_none_iff.mp hlast] at hother
      cases hother
    | some previous =>
      exact lt_of_le_of_lt (le_getLast hlast h.increasing other hother)
        (hadvances previous hlast)
  refine ⟨fun other hother hselected => ?_, ?_, ?_, ?_, ?_, fun later hnamed hall => ?_, ?_⟩
  · rcases List.mem_append.mp hother with hmem | hmem
    · exact h.declared other hmem hselected
    · obtain rfl := List.mem_singleton.mp hmem
      exact ⟨request, hrequest, hkey, congrArg DecisionPayload.requestFingerprint hcontent,
        (boundedDisposition_none (hpermitted (Or.inl hselected))).1⟩
  · refine List.pairwise_append.mpr ⟨h.keys, List.pairwise_singleton _ _, fun a ha b hb => ?_⟩
    rw [List.mem_singleton.mp hb, hkey]
    exact hfresh a ha
  · refine List.pairwise_append.mpr
      ⟨h.increasing, List.pairwise_singleton _ _, fun a ha b hb => ?_⟩
    rw [List.mem_singleton.mp hb, hcut]
    exact hlater a ha
  · refine List.pairwise_append.mpr
      ⟨h.cooldown, List.pairwise_singleton _ _, fun a ha b hb haselected hbselected => ?_⟩
    rw [List.mem_singleton.mp hb] at hbselected ⊢
    obtain ⟨last, hlast, hle⟩ := le_lastSelected ha haselected h.increasing
    cases hprevious : prior.getLast? with
    | none =>
      rw [List.getLast?_eq_none_iff.mp hprevious] at ha
      cases ha
    | some previous =>
      have hbound := ((boundedDisposition_none (hpermitted (Or.inl hbselected))).2 previous
        hprevious).2 last hlast
      rw [hcut]
      omega
  · refine List.isChain_append.mpr ⟨h.interval, .singleton _, fun a ha b hb hone => ?_⟩
    obtain rfl := Option.some.inj hb
    rw [hcut]
    exact ((boundedDisposition_none (hpermitted hone)).2 a ha).1
  · rw [List.forall_mem_append] at hall
    have hdecision := hall.2 decision (List.mem_singleton_self decision)
    refine historyContinues_concat (h.continues later hnamed hall.1) ⟨?_, ?_, ?_, ?_,
      hdecision.1, hdecision.2.1, hdecision.2.2, ?_⟩
    · rw [Option.or_none]
      exact congrArg DecisionPayload.priorHistoryHead hcontent
    · exact congrArg DecisionPayload.policyId hcontent
    · exact congrArg DecisionPayload.policyVersion hcontent
    · exact congrArg DecisionPayload.policyDigest hcontent
    · intro cut hmem
      rw [Option.or_none] at hmem
      obtain ⟨previous, hprevious, rfl⟩ := Option.map_eq_some_iff.mp hmem
      rw [hcut]
      exact hadvances previous hprevious
  · have hone : ∀ a ∈ prior ++ [decision], SameOrder a request := by
      rw [List.forall_mem_append, List.forall_mem_singleton]
      exact ⟨historyContinues_scope hscope, hsame⟩
    intro a ha b hb later hlater
    obtain ⟨hrun, horder, hepisode⟩ := hone a ha
    obtain ⟨hrun', horder', hepisode'⟩ := hone b hb
    exact ⟨hrun'.trans (hrun.symm.trans hlater.1),
      horder'.trans (horder.symm.trans hlater.2.1),
      hepisode'.trans (hepisode.symm.trans hlater.2.2)⟩

theorem call_cases (digests : Digests ρ) (policy : Policy ρ) (prior : List (Decision ρ)) (request : DecisionRequest ρ) :
    call digests policy prior request = prior ∨ ∃ decision,
      HistoryContinues policy request none none prior ∧
      Decides digests policy request prior decision ∧
      call digests policy prior request = prior ++ [decision] := by
  unfold call
  split
  · rename_i decision hresolve
    obtain ⟨-, hscope, hold | hnew⟩ := resolve_decided hresolve
    · exact Or.inl (if_pos hold.1)
    · by_cases hmem : decision ∈ prior
      · exact Or.inl (if_pos hmem)
      · exact Or.inr ⟨decision, hscope, hnew, if_neg hmem⟩
  · exact Or.inl rfl

theorem mem_call
    (h : resolveDifficultyPolicy digests policy request prior = .ok (.decided decision)) :
    decision ∈ call digests policy prior request := by
  unfold call
  rw [h]
  by_cases hold : decision ∈ prior
  · simp only [if_pos hold]
    exact hold
  · simp only [if_neg hold]
    exact List.mem_append_right _ (List.mem_singleton_self decision)

theorem history_decisions (digests : Digests ρ) (policy : Policy ρ)
    (requests : List (DecisionRequest ρ)) :
    History digests policy requests (decisions digests policy requests) := by
  induction requests using List.reverseRecOn with
  | nil => exact history_nil []
  | append_singleton before request ih =>
    unfold decisions at ih ⊢
    rw [Run.run_append]
    have hbefore := ih.mono (List.subset_append_left before [request])
    rcases call_cases digests policy
      (Run.run (call digests policy) [] before) request with hsame | ⟨decision, hscope, hnew, hcall⟩
    · rw [Run.run_cons, hsame]
      exact hbefore
    · rw [Run.run_cons, hcall]
      exact hbefore.concat (List.mem_append_right _ (List.mem_singleton_self request)) hscope hnew

theorem subset_run (requests : List (DecisionRequest ρ)) (prior : List (Decision ρ)) :
    prior ⊆ Run.run (call digests policy) prior requests := by
  refine Run.run_relation (I := fun _ => True) (R := fun a b : List (Decision ρ) => a ⊆ b)
    (fun _ => List.Subset.refl _) (fun _ _ _ => List.Subset.trans) (fun _ _ _ => trivial)
    (fun s request _ => ?_) prior requests trivial
  rcases call_cases digests policy s request with
    hsame | ⟨decision, -, -, hcall⟩
  · rw [hsame]
    exact List.Subset.refl s
  · rw [hcall]
    exact List.subset_append_left s [decision]

/-- A request of the policy in the order of a history, with a key that is used, gets the
decision of that key or an idempotency conflict. -/
theorem History.replay {requests : List (DecisionRequest ρ)}
    (h : History digests policy requests prior) (hnamed : NamesPolicy policy request)
    (hscope : ∀ decision ∈ prior, SameOrder decision request) (hmem : decision ∈ prior)
    (hkey : decision.idempotencyKey = request.idempotencyKey) :
    resolveDifficultyPolicy digests policy request prior =
      .ok (if decision.requestFingerprint = digests.fingerprint request then .decided decision
        else .refused (difficultyDiagnostic "difficulty.idempotency-conflict" "/idempotency_key"
          ("The idempotency identity was already used for a different bounded decision " ++
            "request."))) := by
  have hfind : (prior.find? fun other => other.idempotencyKey = request.idempotencyKey) =
      some decision := by
    cases hfound : prior.find? fun other => other.idempotencyKey = request.idempotencyKey with
    | none => exact absurd (decide_eq_true hkey) (List.find?_eq_none.mp hfound decision hmem)
    | some found =>
      have hfoundKey := of_decide_eq_true (List.find?_some hfound :)
      by_contra hne
      have hnodup : (prior.map fun other => other.idempotencyKey).Nodup :=
        List.pairwise_map.mpr h.keys
      exact hne (congrArg some (List.inj_on_of_nodup_map hnodup
        (List.mem_of_find?_eq_some hfound) hmem (hfoundKey.trans hkey.symm)))
  unfold resolveDifficultyPolicy replayOrConflict
  rw [validatePolicyIdentity_eq_none_iff.mpr hnamed,
    validatePriorHistory_eq_none_iff.mpr (h.continues request hnamed hscope), hfind]
  rfl

/-! ## Runs -/

/-- What holds of the calls of a run, whatever the requests are. -/
structure RunWithinPolicy (digests : Digests ρ) (policy : Policy ρ)
    (requests : List (DecisionRequest ρ)) : Prop where
  history : History digests policy requests (decisions digests policy requests)
  replays : ∀ request decision, NamesPolicy policy request →
    (∀ other ∈ decisions digests policy requests, SameOrder other request) →
    decision ∈ decisions digests policy requests →
    decision.idempotencyKey = request.idempotencyKey →
    resolveDifficultyPolicy digests policy request (decisions digests policy requests) =
      .ok (if decision.requestFingerprint = digests.fingerprint request then .decided decision
        else .refused (difficultyDiagnostic "difficulty.idempotency-conflict" "/idempotency_key"
          ("The idempotency identity was already used for a different bounded decision " ++
            "request.")))
  repeats : ∀ before request after decision, requests = before ++ request :: after →
    resolveDifficultyPolicy digests policy request (decisions digests policy before) =
      .ok (.decided decision) →
    resolveDifficultyPolicy digests policy request (decisions digests policy requests) =
      .ok (.decided decision)

theorem resolveDifficultyPolicy_run (digests : Digests ρ) (policy : Policy ρ)
    (requests : List (DecisionRequest ρ)) : RunWithinPolicy digests policy requests := by
  have hhistory := history_decisions digests policy requests
  refine ⟨hhistory, fun request decision hnamed hscope hmem hkey =>
    hhistory.replay hnamed hscope hmem hkey, ?_⟩
  rintro before request after decision rfl hresolve
  obtain ⟨hnamed, hcontinues, hone⟩ := resolve_decided hresolve
  have hanswers : decision.idempotencyKey = request.idempotencyKey ∧
      decision.requestFingerprint = digests.fingerprint request ∧ SameOrder decision request := by
    rcases hone with ⟨hmem, hkey, hfingerprint⟩ | ⟨-, -, ⟨_, _, _, hcontent⟩, -⟩
    · exact ⟨hkey, hfingerprint, historyContinues_scope hcontinues decision hmem⟩
    · have hcut := congrArg DecisionPayload.stateCut hcontent
      exact ⟨congrArg DecisionPayload.idempotencyKey hcontent,
        congrArg DecisionPayload.requestFingerprint hcontent,
        congrArg DecisionPayload.runId hcontent, congrArg StateCut.orderDomain hcut,
        congrArg StateCut.episodeId hcut⟩
  have hmem : decision ∈ decisions digests policy (before ++ request :: after) := by
    unfold decisions
    rw [Run.run_append, Run.run_cons]
    exact subset_run after _ (mem_call hresolve)
  rw [hhistory.replay hnamed
    (fun other hother => hhistory.ordered decision hmem other hother request hanswers.2.2) hmem
    hanswers.1, if_pos hanswers.2.1]

/-! ## A run past the declared bounds -/

def stepCut (coordinate : ℕ) : StateCut := ⟨"logical-step", coordinate, "episode.1"⟩

def progressRequest (coordinate : ℕ) (head : Option String) (key : String) :
    DecisionRequest String :=
  ⟨"policy.1", "1.0.0", "sha256:policy", "run.1", stepCut coordinate,
    [⟨⟨"progress", "measure.1", "run.1", "evidence.1", stepCut coordinate⟩, .number 1⟩], 0, head,
    key, "2026-01-01T00:00:00Z"⟩

/-- Digests that keep the requests and the decisions below apart. -/
def keyDigests : Digests String where
  fingerprint := fun request => "sha256:" ++ request.idempotencyKey
  historyHead := fun payload => "sha256:head." ++ payload.idempotencyKey
  supportedEvaluator := ("adaptive-threshold-v1", some "1.0.0", some "sha256:profile")

/-- A policy of at most one intervention, with five steps between decisions. -/
def onePolicy : Policy String where
  policyId := "policy.1"
  policyVersion := "1.0.0"
  policyDigest := "sha256:policy"
  authority := some {
    evaluatorRef := ("adaptive-threshold-v1", some "1.0.0", some "sha256:profile")
    observationSources := Dict.empty.set "progress" ⟨"measure.1", 0⟩
    thresholdRules := Dict.empty.set "rule.1"
      ⟨"rule.1", "progress", .gte, .number 1, "action.1", 1⟩
    actions := Dict.empty.set "action.1" [("scaffold", "hint.1")] }
  bounds := ⟨1, 5, 0⟩
  validityEffect := "disclosed"

/-- Three requests that each declare no intervention: the first and the last are selected,
which is one more than the policy allows, and the second is recorded as denied, one step
after the first. -/
theorem three_requests :
    let history := decisions keyDigests onePolicy [progressRequest 1 none "key.1",
      progressRequest 2 (some "sha256:head.key.1") "key.2",
      progressRequest 7 (some "sha256:head.key.2") "key.3"]
    ¬ history.countP (fun decision => decision.disposition = .selected) ≤
        onePolicy.bounds.maximumInterventions ∧
      ¬ history.IsChain fun a b =>
        a.stateCut.coordinate + onePolicy.bounds.minimumDecisionInterval ≤
          b.stateCut.coordinate := by
  decide +kernel

end Raes.Difficulty
