import Raes.ExploitPath.EvidenceOrder

/-!
# Two orders of one search

Two runs of the search that iterate its sets in two orders.  A set of facts is sorted
before it is read, so its order is lost.  The set of visited states is read in its order
once, by the maximum that the unsatisfied goal is taken from.
-/

namespace Raes.ExploitPath

theorem insertionSort_eq_sortedFacts {facts : List String} (h : facts.Nodup) :
    facts.insertionSort (· ≤ ·) = sortedFacts facts.toFinset := by
  have hperm : (facts.insertionSort (· ≤ ·)).Perm (sortedFacts facts.toFinset) := by
    refine (List.perm_insertionSort _ _).trans ?_
    apply (List.perm_ext_iff_of_nodup h (Finset.sort_nodup _ _)).mpr
    intro fact
    exact List.mem_toFinset.symm.trans (Finset.mem_sort _).symm
  exact hperm.eq_of_pairwise (fun _ _ _ _ => le_antisymm) (List.pairwise_insertionSort _ _)
    (Finset.pairwise_sort _ _)

section Longest

variable {states : List AttackState}

theorem longestState_spec (h : states ≠ []) :
    longestState states ∈ states ∧ ∀ state ∈ states, state.card ≤ (longestState states).card := by
  cases states with
  | nil => exact absurd rfl h
  | cons state rest => exact foldl_maxBy Finset.card rest state

theorem longestState_cons {state : AttackState} (h : ∀ other ∈ states, other.card ≤ state.card) :
    longestState (state :: states) = state :=
  foldl_maxBy_eq h

def inFront (state : AttackState) (states : List AttackState) : List AttackState :=
  if states.contains state then state :: states.erase state else states

theorem inFront_perm (state : AttackState) (states : List AttackState) :
    (inFront state states).Perm states := by
  unfold inFront
  by_cases hmem : states.contains state
  · rw [if_pos hmem]
    exact (List.perm_cons_erase (List.contains_iff_mem.mp hmem)).symm
  · rw [if_neg hmem]

theorem longestState_inFront {state : AttackState} (hmem : state ∈ states)
    (h : ∀ other ∈ states, other.card ≤ state.card) : longestState (inFront state states) = state := by
  rw [inFront, if_pos (List.contains_iff_mem.mpr hmem)]
  exact longestState_cons fun other hother => h other (List.mem_of_mem_erase hother)

end Longest

section Orders

variable {digest : List String → String} {order order' : List AttackState → List AttackState}

theorem sortedFacts_injective : Function.Injective sortedFacts := by
  intro a b hab
  have hsets := congrArg List.toFinset hab
  rwa [sortedFacts, sortedFacts, Finset.sort_toFinset, Finset.sort_toFinset] at hsets

theorem mem_foldl_union (states : List AttackState) (start : AttackState) (fact : String) :
    fact ∈ states.foldl (· ∪ ·) start ↔ fact ∈ start ∨ ∃ state ∈ states, fact ∈ state := by
  induction states generalizing start with
  | nil => simp
  | cons state rest ih =>
    rw [List.foldl_cons, ih, Finset.mem_union]
    simp [or_assoc]

theorem unsatisfiedGoal_of_covered {env : SearchEnv} {goal : AttackState}
    {visited : List AttackState} (h : ∀ fact ∈ goal, ∃ state ∈ visited, fact ∈ state) :
    unsatisfiedGoal env goal visited =
      sortedFacts (goal \ longestState (env.iterationOrder visited)) := by
  have hnone : sortedFacts (goal \ visited.foldl (· ∪ ·) ∅) = [] := by
    rw [sortedFacts_eq_nil_iff, Finset.sdiff_eq_empty_iff_subset]
    intro fact hfact
    rw [mem_foldl_union]
    exact Or.inr (h fact hfact)
  unfold unsatisfiedGoal
  exact if_pos hnone

theorem unsatisfiedGoal_of_not_covered {goal : AttackState} {visited : List AttackState}
    (h : ¬ ∀ fact ∈ goal, ∃ state ∈ visited, fact ∈ state) :
    unsatisfiedGoal ⟨digest, order⟩ goal visited = unsatisfiedGoal ⟨digest, order'⟩ goal visited := by
  have hsome : sortedFacts (goal \ visited.foldl (· ∪ ·) ∅) ≠ [] := by
    rw [Ne, sortedFacts_eq_nil_iff, Finset.sdiff_eq_empty_iff_subset]
    intro hsub
    apply h
    intro fact hfact
    have hmem := hsub hfact
    rw [mem_foldl_union] at hmem
    exact hmem.resolve_left (Finset.notMem_empty fact)
  unfold unsatisfiedGoal
  simp only [if_neg hsome]

theorem runSearchRounds_order (context : SearchContext) :
    runSearchRounds ⟨digest, order⟩ context = runSearchRounds ⟨digest, order'⟩ context := rfl

variable {request : AnalysisInput} {acc : Accumulator}

theorem search_eq_invalid
    (hgoal : ¬ (searchContext request).goal ⊆ (searchContext request).initial)
    (hrun : runSearchRounds ⟨digest, order⟩ (searchContext request) = .ok acc)
    (hcap : ¬ maxDiagnostics < acc.blocked.keys.length + acc.impossible.length + 1) :
    search ⟨digest, order⟩ request =
      invalidSearchResult ⟨digest, order⟩ (searchContext request).goal acc := by
  simp only [search, if_neg hgoal, hrun, diagnosticCapResult, if_neg hcap, Option.getD_none]

theorem search_eq_of_unsatisfiedGoal
    (h : ¬ (searchContext request).goal ⊆ (searchContext request).initial →
      ∀ acc, runSearchRounds ⟨digest, order⟩ (searchContext request) = .ok acc →
      ¬ maxDiagnostics < acc.blocked.keys.length + acc.impossible.length + 1 →
      unsatisfiedGoal ⟨digest, order⟩ (searchContext request).goal acc.visited =
        unsatisfiedGoal ⟨digest, order'⟩ (searchContext request).goal acc.visited) :
    search ⟨digest, order⟩ request = search ⟨digest, order'⟩ request := by
  by_cases hgoal : (searchContext request).goal ⊆ (searchContext request).initial
  · simp only [search, if_pos hgoal]
    rfl
  · have hrounds : runSearchRounds ⟨digest, order'⟩ (searchContext request) =
        runSearchRounds ⟨digest, order⟩ (searchContext request) := runSearchRounds_order _
    cases hrun : runSearchRounds ⟨digest, order⟩ (searchContext request) with
    | error result => simp only [search, if_neg hgoal, hrounds, hrun]
    | ok acc =>
      by_cases hcap : maxDiagnostics < acc.blocked.keys.length + acc.impossible.length + 1
      · simp only [search, if_neg hgoal, hrounds, hrun, diagnosticCapResult, if_pos hcap,
          Option.getD_some]
      · rw [search_eq_invalid hgoal hrun hcap, search_eq_invalid hgoal (hrounds.trans hrun) hcap]
        unfold invalidSearchResult
        rw [h hgoal acc hrun hcap]

theorem largest_longestState {env : SearchEnv} {context : SearchContext}
    (hsettled : Settled env context acc) (hqueue : acc.queue = [])
    (horder : (order acc.visited).Perm acc.visited) :
    Largest context (longestState (order acc.visited)) := by
  have hvisited := mem_visited_iff hsettled hqueue
  have hstart : context.initial ∈ acc.visited :=
    (hvisited context.initial).mpr ⟨[], rfl, Nat.zero_le _⟩
  have hne : order acc.visited ≠ [] := List.ne_nil_of_mem (horder.mem_iff.mpr hstart)
  obtain ⟨hmem, hmax⟩ := longestState_spec hne
  refine ⟨(hvisited _).mp (horder.mem_iff.mp hmem), ?_⟩
  intro other hother
  exact hmax other (horder.mem_iff.mpr ((hvisited other).mpr hother))

end Orders

/-- The result of a search does not depend on the order of its set of states when no two
largest states tie with different unsatisfied goals, and only then. -/
theorem search_order_iff (digest : List String → String) (request : AnalysisInput) :
    (∀ order order' : List AttackState → List AttackState,
      (∀ states, (order states).Perm states) → (∀ states, (order' states).Perm states) →
      search ⟨digest, order⟩ request = search ⟨digest, order'⟩ request) ↔
    ¬ TiedGoal ⟨digest, id⟩ (searchContext request) := by
  constructor
  · intro hsame htied
    obtain ⟨hnone, hfits, hcovered, a, b, ha, hb, hne⟩ := htied
    have hgoal : ¬ (searchContext request).goal ⊆ (searchContext request).initial := by
      intro hsub
      have hlt := hnone [] ⟨_, rfl, hsub⟩
      exact absurd hlt (Nat.not_lt_zero _)
    rcases runSearchRounds_records ⟨digest, id⟩ hgoal with
      ⟨_, _, ⟨attack, hattack, hle⟩ | hover⟩ | ⟨acc, hrun, hqueue, hsettled, hrecorded⟩
    · exact absurd (hnone attack hattack) (Nat.not_lt.mpr hle)
    · exact hover hfits
    · have hcap : ¬ maxDiagnostics < acc.blocked.keys.length + acc.impossible.length + 1 :=
        fun hmany => not_evidenceFits_of_records hrecorded hmany hfits
      have hvisited := mem_visited_iff hsettled hqueue
      have hreport : ∀ state, Largest (searchContext request) state →
          (search ⟨digest, inFront state⟩ request).failure.map
            InvalidPathEvidence.unsatisfiedGoal =
            some (sortedFacts ((searchContext request).goal \ state)) := by
        intro state hstate
        have hlongest : longestState (inFront state acc.visited) = state :=
          longestState_inFront ((hvisited state).mpr hstate.1)
            fun other hother => hstate.2 other ((hvisited other).mp hother)
        have hgoals : ∀ fact ∈ (searchContext request).goal,
            ∃ state ∈ acc.visited, fact ∈ state := by
          intro fact hfact
          obtain ⟨s, hs, hmem⟩ := hcovered fact hfact
          exact ⟨s, (hvisited s).mpr hs, hmem⟩
        rw [search_eq_invalid hgoal ((runSearchRounds_order _).trans hrun) hcap]
        show some (unsatisfiedGoal _ _ _) = _
        rw [unsatisfiedGoal_of_covered hgoals]
        show some (sortedFacts (_ \ longestState (inFront state acc.visited))) = _
        rw [hlongest]
      have hsame' := hsame (inFront a) (inFront b) (inFront_perm a) (inFront_perm b)
      have hreport' := hreport b hb
      rw [← hsame', hreport a ha] at hreport'
      exact hne (sortedFacts_injective (Option.some.inj hreport'))
  · intro hfree order order' horder horder'
    apply search_eq_of_unsatisfiedGoal
    intro hgoal acc hrun hcap
    rcases runSearchRounds_records ⟨digest, id⟩ hgoal with
      ⟨result, herror, _⟩ | ⟨acc', hrun', hqueue, hsettled, hrecorded⟩
    · cases herror.symm.trans hrun
    · obtain rfl : acc' = acc := Except.ok.inj (hrun'.symm.trans hrun)
      by_cases hcovered : ∀ fact ∈ (searchContext request).goal,
          ∃ state ∈ acc'.visited, fact ∈ state
      · rw [unsatisfiedGoal_of_covered hcovered, unsatisfiedGoal_of_covered hcovered]
        congr 1
        by_contra hne
        apply hfree
        have hvisited := mem_visited_iff hsettled hqueue
        refine ⟨fun attack => (no_attack_of_settled _ hsettled hqueue).1 attack,
          evidenceFits_of_recorded hsettled hqueue hrecorded (Nat.not_lt.mp hcap), ?_, _, _,
          largest_longestState hsettled hqueue (horder _),
          largest_longestState hsettled hqueue (horder' _), hne⟩
        intro fact hfact
        obtain ⟨state, hmem, hin⟩ := hcovered fact hfact
        exact ⟨state, (hvisited state).mp hmem, hin⟩
      · exact unsatisfiedGoal_of_not_covered hcovered

/-- Two transitions that add one goal fact each, within a depth of one. -/
def tiedInput : AnalysisInput where
  transitions := [⟨"first", "monotonic-additive/v1", ["start"], ["a"], []⟩,
    ⟨"second", "monotonic-additive/v1", ["start"], ["b"], []⟩]
  query := ⟨["start"], ["a", "b"], ["monotonic-additive/v1"], 1⟩

/-- The two states that add one goal fact are equally large: the order of the set decides
which goal fact the evidence names. -/
theorem search_order_tied :
    ((search ⟨String.join, id⟩ tiedInput).failure.map InvalidPathEvidence.unsatisfiedGoal =
        some ["b"]) ∧
      (search ⟨String.join, List.reverse⟩ tiedInput).failure.map
        InvalidPathEvidence.unsatisfiedGoal = some ["a"] := by
  decide +kernel

end Raes.ExploitPath
