import Raes.ExploitPath.SearchExact

/-!
# The order of the visited states

The search iterates its set of visited states once: when every goal fact is in some
state, the evidence of an invalid path names the goal facts that the first of the
largest states lacks.  Two orders of the set give two results when two largest states
lack different goal facts.

To say this of the request, the records of the search are given in full: a search that
leaves its loop with an empty queue has seen every state within the depth and has the
record of every transition that a state strictly within the depth blocks or repeats.
-/

namespace Raes.ExploitPath

open BreadthFirst

section Evidence

variable (env : SearchEnv) (context : SearchContext)

/-- A state that the search expands: some attack reaches it strictly within the depth. -/
def Expanded (state : AttackState) : Prop :=
  ∃ attack, Attack context context.initial attack state ∧ attack.length < context.query.maxDepth

def BlockedRecord (key : String × String) : Prop :=
  ∃ transition ∈ context.transitions, ∃ state, Expanded context state ∧
    ¬ Enabled transition state ∧ key = (transition.transitionId, stateDigest env state)

def ImpossibleRecord (transitionId : String) : Prop :=
  ∃ transition ∈ context.transitions, ∃ state, Expanded context state ∧
    Enabled transition state ∧ nextState transition state = state ∧
    transitionId = transition.transitionId

def EvidenceFits : Prop :=
  (∀ states : List AttackState, states.Nodup → (∀ state ∈ states, WithinDepth context state) →
    states.length ≤ maxExploredStates) ∧
  ∀ (blocked : List (String × String)) (impossible : List String),
    blocked.Nodup → impossible.Nodup → (∀ key ∈ blocked, BlockedRecord env context key) →
    (∀ transitionId ∈ impossible, ImpossibleRecord context transitionId) →
    blocked.length + impossible.length + 1 ≤ maxDiagnostics

def Largest (state : AttackState) : Prop :=
  WithinDepth context state ∧
    ∀ other, WithinDepth context other → other.card ≤ state.card

/-- The request has no attack within its depth, its evidence fits, its goal facts are each
in some state within the depth, and two of the largest states lack different goal facts. -/
def TiedGoal : Prop :=
  (∀ attack, Satisfies context attack → context.query.maxDepth < attack.length) ∧
    EvidenceFits env context ∧
    (∀ fact ∈ context.goal, ∃ state, WithinDepth context state ∧ fact ∈ state) ∧
    ∃ a b, Largest context a ∧ Largest context b ∧ context.goal \ a ≠ context.goal \ b

/-- A search that ends inside its loop has found the goal or more than the evidence carries. -/
def EndedEarly : Prop :=
  (∃ attack, Satisfies context attack ∧ attack.length ≤ context.query.maxDepth) ∨
    ¬ EvidenceFits env context

end Evidence

/-! ## The records of the search -/

/-- What a state owes the records for a transition. -/
def Noted (env : SearchEnv) (acc : Accumulator) (state : AttackState)
    (transition : AttackTransition) : Prop :=
  (¬ Enabled transition state →
    (transition.transitionId, stateDigest env state) ∈ acc.blocked.keys) ∧
  (Enabled transition state → nextState transition state = state →
    transition.transitionId ∈ acc.impossible)

/-- The records are of expanded states, and those of the expanded states that do not wait
are there, up to the pending transitions. -/
structure Recorded (env : SearchEnv) (context : SearchContext)
    (Pending : AttackState → AttackTransition → Prop) (acc : Accumulator) : Prop where
  blocked : ∀ key ∈ acc.blocked.keys, BlockedRecord env context key
  impossible : ∀ transitionId ∈ acc.impossible, ImpossibleRecord context transitionId
  impossible_nodup : acc.impossible.Nodup
  noted : ∀ state ∈ acc.visited, state ∉ acc.queue.map Prod.fst → Expanded context state →
    ∀ transition ∈ context.transitions, ¬ Pending state transition →
      Noted env acc state transition

def Remaining (state : AttackState) (todo : List AttackTransition) (other : AttackState)
    (transition : AttackTransition) : Prop :=
  other = state ∧ transition ∈ todo

section Records

variable {env : SearchEnv} {context : SearchContext} {acc acc' : Accumulator} {level : ℕ}
  {state : AttackState} {attack : List AttackTransition} {transition : AttackTransition}
  {todo : List AttackTransition}

def Records (env : SearchEnv) (context : SearchContext) (state : AttackState)
    (todo : List AttackTransition) : Except SearchResult Accumulator → Prop
  | .error _ => EndedEarly env context
  | .ok acc' => Recorded env context (Remaining state todo) acc'

theorem Recorded.note (h : Recorded env context (Remaining state (transition :: todo)) acc)
    (hstates : ∀ s ∈ acc'.visited, s ∉ acc'.queue.map Prod.fst →
      s ∈ acc.visited ∧ s ∉ acc.queue.map Prod.fst)
    (hblocked : ∀ key ∈ acc'.blocked.keys, BlockedRecord env context key)
    (himpossible : ∀ transitionId ∈ acc'.impossible, ImpossibleRecord context transitionId)
    (hnodup : acc'.impossible.Nodup) (hkeys : acc.blocked.keys ⊆ acc'.blocked.keys)
    (hids : acc.impossible ⊆ acc'.impossible) (hnoted : Noted env acc' state transition) :
    Recorded env context (Remaining state todo) acc' := by
  refine ⟨hblocked, himpossible, hnodup, ?_⟩
  intro s hs hwaits hexpanded t ht hpending
  by_cases hnew : s = state ∧ t = transition
  · rw [hnew.1, hnew.2]
    exact hnoted
  · have hold : ¬ Remaining state (transition :: todo) s t := by
      intro hremaining
      rcases List.mem_cons.mp hremaining.2 with rfl | hmem
      · exact hnew ⟨hremaining.1, rfl⟩
      · exact hpending ⟨hremaining.1, hmem⟩
    obtain ⟨hmem, hqueue⟩ := hstates s hs hwaits
    have hbefore := h.noted s hmem hqueue hexpanded t ht hold
    exact ⟨fun hdisabled => hkeys (hbefore.1 hdisabled),
      fun henabled hself => hids (hbefore.2 henabled hself)⟩

theorem not_evidenceFits_of_records {Pending : AttackState → AttackTransition → Prop}
    (h : Recorded env context Pending acc)
    (hmany : maxDiagnostics < acc.blocked.keys.length + acc.impossible.length + 1) :
    ¬ EvidenceFits env context := by
  intro hfits
  have hle := hfits.2 acc.blocked.keys acc.impossible acc.blocked.keys_nodup h.impossible_nodup
    h.blocked h.impossible
  omega

theorem recordBlockedTransition_records
    (h : Recorded env context (Remaining state (transition :: todo)) acc)
    (hexpanded : Expanded context state) (hmem : transition ∈ context.transitions)
    (hdisabled : ¬ Enabled transition state) (missing : List String) :
    Records env context state todo
      (recordBlockedTransition acc transition (stateDigest env state) missing) := by
  rw [recordBlockedTransition]
  by_cases hknown : acc.blocked.contains (transition.transitionId, stateDigest env state)
  · rw [if_pos hknown]
    exact h.note (fun s hs hw => ⟨hs, hw⟩) h.blocked h.impossible h.impossible_nodup
      (List.Subset.refl _) (List.Subset.refl _)
      ⟨fun _ => Dict.contains_iff.mp hknown, fun henabled => absurd henabled hdisabled⟩
  · rw [if_neg hknown]
    by_cases hfull : maxBlockedTransitions ≤ acc.blocked.keys.length
    · rw [if_pos hfull]
      refine Or.inr (not_evidenceFits_of_records h ?_)
      simp only [maxBlockedTransitions, maxDiagnostics] at hfull ⊢
      omega
    · rw [if_neg hfull]
      refine h.note (fun s hs hw => ⟨hs, hw⟩) ?_ h.impossible h.impossible_nodup ?_
        (List.Subset.refl _) ⟨fun _ => ?_, fun henabled => absurd henabled hdisabled⟩
      · intro key hkey
        rcases (Dict.mem_keys_set _ _ _ _).mp hkey with rfl | hkey
        · exact ⟨transition, hmem, state, hexpanded, hdisabled, rfl⟩
        · exact h.blocked key hkey
      · intro key hkey
        exact (Dict.mem_keys_set _ _ _ _).mpr (Or.inr hkey)
      · exact (Dict.mem_keys_set _ _ _ _).mpr (Or.inl rfl)

theorem recordImpossibleTransition_records
    (h : Recorded env context (Remaining state (transition :: todo)) acc)
    (hexpanded : Expanded context state) (hmem : transition ∈ context.transitions)
    (henabled : Enabled transition state) (hself : nextState transition state = state) :
    Records env context state todo (recordImpossibleTransition acc transition.transitionId) := by
  rw [recordImpossibleTransition]
  by_cases hknown : transition.transitionId ∈ acc.impossible
  · rw [if_pos hknown]
    exact h.note (fun s hs hw => ⟨hs, hw⟩) h.blocked h.impossible h.impossible_nodup
      (List.Subset.refl _) (List.Subset.refl _)
      ⟨fun hdisabled => absurd henabled hdisabled, fun _ _ => hknown⟩
  · rw [if_neg hknown]
    by_cases hfull : maxImpossibleTransitions ≤ acc.impossible.length
    · rw [if_pos hfull]
      refine Or.inr (not_evidenceFits_of_records h ?_)
      simp only [maxImpossibleTransitions, maxDiagnostics] at hfull ⊢
      omega
    · rw [if_neg hfull]
      refine h.note (fun s hs hw => ⟨hs, hw⟩) h.blocked ?_ ?_ (List.Subset.refl _)
        (List.subset_append_left _ _) ⟨fun hdisabled => absurd henabled hdisabled, fun _ _ => ?_⟩
      · intro transitionId hid
        rcases List.mem_append.mp hid with hid | hid
        · exact h.impossible transitionId hid
        · rw [List.mem_singleton.mp hid]
          exact ⟨transition, hmem, state, hexpanded, henabled, hself, rfl⟩
      · exact h.impossible_nodup.append (List.nodup_singleton _)
          (List.disjoint_singleton.mpr hknown)
      · exact List.mem_append_right _ (List.mem_singleton_self _)

/-- A transition with a new effect adds no record.  A new state waits before it is due. -/
theorem recordTransitionProgress_records {Owed : AttackState → AttackState → Prop}
    (hs : Searched env context Owed level acc)
    (h : Recorded env context (Remaining state (transition :: todo)) acc)
    (hattack : Attack context context.initial attack state)
    (hdepth : attack.length < context.query.maxDepth) (hmem : transition ∈ context.transitions)
    (henabled : Enabled transition state) (hmoves : nextState transition state ≠ state)
    (steps : List ExploitPathStep) :
    Records env context state todo
      (recordTransitionProgress env context transition acc state steps) := by
  have hnext := attack_append_singleton hattack hmem henabled
  have hlength : (attack ++ [transition]).length ≤ context.query.maxDepth := by
    rw [List.length_append, List.length_singleton]
    exact hdepth
  have hnoted : ∀ acc', Noted env acc' state transition := fun acc' =>
    ⟨fun hdisabled => absurd henabled hdisabled, fun _ hself => absurd hself hmoves⟩
  rw [recordTransitionProgress]
  by_cases hgoal : context.goal ⊆ nextState transition state
  · simp only [if_pos hgoal]
    exact Or.inl ⟨attack ++ [transition], ⟨_, hnext, hgoal⟩, hlength⟩
  · simp only [if_neg hgoal]
    by_cases hseen : nextState transition state ∈ acc.visited
    · rw [if_neg (not_not.mpr hseen)]
      exact h.note (fun s hs hw => ⟨hs, hw⟩) h.blocked h.impossible h.impossible_nodup
        (List.Subset.refl _) (List.Subset.refl _) (hnoted acc)
    · rw [if_pos hseen, queueNextState]
      by_cases hfull : maxExploredStates ≤ acc.visited.length
      · rw [if_pos hfull]
        right
        intro hfits
        have hle := hfits.1 (acc.visited ++ [nextState transition state])
          (hs.nodup.append (List.nodup_singleton _) (List.disjoint_singleton.mpr hseen)) ?_
        · rw [List.length_append, List.length_singleton] at hle
          omega
        · intro s hmem
          rcases List.mem_append.mp hmem with hmem | hmem
          · exact hs.within s hmem
          · rw [List.mem_singleton.mp hmem]
            exact ⟨attack ++ [transition], hnext, hlength⟩
      · rw [if_neg hfull]
        refine h.note ?_ h.blocked h.impossible h.impossible_nodup (List.Subset.refl _)
          (List.Subset.refl _) (hnoted _)
        intro s hmem hwaits
        simp only [List.map_append, List.map_cons, List.map_nil, List.mem_append,
          List.mem_singleton, not_or] at hwaits
        exact ⟨(List.mem_append.mp hmem).resolve_right fun heq =>
          hwaits.2 (List.mem_singleton.mp heq), hwaits.1⟩

theorem advanceTransition_records {Owed : AttackState → AttackState → Prop}
    (hs : Searched env context Owed level acc)
    (h : Recorded env context (Remaining state (transition :: todo)) acc)
    (hattack : Attack context context.initial attack state)
    (hdepth : attack.length < context.query.maxDepth) (hmem : transition ∈ context.transitions)
    (steps : List ExploitPathStep) :
    Records env context state todo (advanceTransition env context state steps acc transition) := by
  have hexpanded : Expanded context state := ⟨attack, hattack, hdepth⟩
  rw [advanceTransition]
  by_cases hmissing : missingPrerequisites transition state = []
  · rw [if_neg (not_not.mpr hmissing)]
    have henabled := missingPrerequisites_eq_nil_iff.mp hmissing
    by_cases happlied : appliedEffects transition state = []
    · rw [if_pos happlied]
      exact recordImpossibleTransition_records h hexpanded hmem henabled
        (nextState_eq_self happlied)
    · rw [if_neg happlied]
      have hmoves : nextState transition state ≠ state := by
        intro hself
        apply happlied
        rw [appliedEffects, sortedFacts_eq_nil_iff, Finset.sdiff_eq_empty_iff_subset]
        exact Finset.union_eq_left.mp hself
      exact recordTransitionProgress_records hs h hattack hdepth hmem henabled hmoves steps
  · rw [if_pos hmissing]
    have hdisabled : ¬ Enabled transition state := by
      rw [← missingPrerequisites_eq_nil_iff]
      exact hmissing
    exact recordBlockedTransition_records h hexpanded hmem hdisabled _

theorem foldlM_records
    (hs : Searched env context (Untried state todo) attack.length acc)
    (h : Recorded env context (Remaining state todo) acc)
    (hattack : Attack context context.initial attack state)
    (hstate : Distance (Moves context) (Start context) attack.length state)
    (hdepth : attack.length < context.query.maxDepth)
    (hmem : ∀ transition ∈ todo, transition ∈ context.transitions) :
    Records env context state []
      (todo.foldlM (advanceTransition env context state (stepsOf env 0 context.initial attack))
        acc) := by
  induction todo generalizing acc with
  | nil => exact h
  | cons transition rest ih =>
    have hseen : state ∈ acc.visited :=
      hs.frontier.seen_of_reaches (fun u hu n hn => hs.frontier.level_le hu hn)
        (owed_level hstate (Nat.le_of_lt hdepth) (transition :: rest) acc.exhaustedDepth)
        (reaches_of_attack_initial hattack) (Nat.le_refl _)
    have hadvance := advanceTransition_advances hs hattack hstate hdepth
      (hmem transition List.mem_cons_self) hseen
    have hrecords := advanceTransition_records hs h hattack hdepth
      (hmem transition List.mem_cons_self) (stepsOf env 0 context.initial attack)
    rw [List.foldlM_cons]
    cases hstep : advanceTransition env context state (stepsOf env 0 context.initial attack) acc
        transition with
    | error result =>
      rw [hstep] at hrecords
      exact hrecords
    | ok acc' =>
      rw [hstep] at hadvance hrecords
      exact ih hadvance.1 hrecords fun t ht => hmem t (List.mem_cons_of_mem _ ht)

/-- Nothing is pending. -/
abbrev AllRecorded (env : SearchEnv) (context : SearchContext) (acc : Accumulator) : Prop :=
  Recorded env context (fun _ _ => False) acc

/-- How the loop ends: early, or with all records. -/
def Ends (env : SearchEnv) (context : SearchContext) : Except SearchResult Accumulator → Prop
  | .error _ => EndedEarly env context
  | .ok acc => AllRecorded env context acc

theorem searchRound_records (hs : Settled env context acc) (h : AllRecorded env context acc) :
    (∀ acc', searchRound env context acc = .inr acc' → AllRecorded env context acc') ∧
      ∀ done, searchRound env context acc = .inl done → Ends env context done := by
  obtain ⟨level, hs⟩ := hs
  cases hqueue : acc.queue with
  | nil =>
    simp only [searchRound, hqueue]
    refine ⟨(fun _ hround => by cases hround), ?_⟩
    intro done hdone
    obtain rfl := Sum.inl.inj hdone
    exact h
  | cons entry rest =>
    obtain ⟨state, steps⟩ := entry
    obtain ⟨attack, hattack, hsteps, hdist', -⟩ :=
      hs.entries (state, steps) (hqueue ▸ List.mem_cons_self)
    simp only at hattack hsteps hdist'
    subst hsteps
    have hwaits : ∀ s, s ≠ state → s ∉ rest.map Prod.fst → s ∉ acc.queue.map Prod.fst := by
      intro s hne hs hmem
      rw [hqueue, List.map_cons] at hmem
      exact (List.mem_cons.mp hmem).elim hne hs
    by_cases hbound : context.query.maxDepth ≤ attack.length
    · simp only [searchRound, hqueue, stepsOf_length, if_pos hbound]
      refine ⟨?_, fun _ hround => by cases hround⟩
      intro acc' hacc'
      obtain rfl := Sum.inr.inj hacc'
      refine ⟨h.blocked, h.impossible, h.impossible_nodup, ?_⟩
      intro s hmem hnot hexpanded t ht hpending
      have hne : s ≠ state := by
        rintro rfl
        obtain ⟨other, hother, hlt⟩ := hexpanded
        have hle := hdist'.2 _ (reaches_of_attack_initial hother)
        omega
      exact h.noted s hmem (hwaits s hne hnot) hexpanded t ht hpending
    · simp only [searchRound, hqueue, stepsOf_length, if_neg hbound, advanceFromState]
      have hlt := Nat.lt_of_not_le hbound
      have hsearched : Searched env context (Untried state context.transitions) attack.length
          { acc with queue := rest } := searched_pop hs hqueue hdist'
      have hrecorded : Recorded env context (Remaining state context.transitions)
          { acc with queue := rest } := by
        refine ⟨h.blocked, h.impossible, h.impossible_nodup, ?_⟩
        intro s hmem hnot hexpanded t ht hpending
        have hne : s ≠ state := fun heq => hpending ⟨heq, ht⟩
        exact h.noted s hmem (hwaits s hne hnot) hexpanded t ht id
      have hfold := foldlM_records hsearched hrecorded hattack hdist' hlt fun t ht => ht
      cases hstep : context.transitions.foldlM (advanceTransition env context state
          (stepsOf env 0 context.initial attack)) { acc with queue := rest } with
      | error result =>
        rw [hstep] at hfold
        refine ⟨(fun _ hround => by cases hround), ?_⟩
        intro done hdone
        obtain rfl := Sum.inl.inj hdone
        exact hfold
      | ok acc' =>
        rw [hstep] at hfold
        refine ⟨?_, fun _ hround => by cases hround⟩
        intro acc'' hacc''
        obtain rfl := Sum.inr.inj hacc''
        refine ⟨hfold.blocked, hfold.impossible, hfold.impossible_nodup, ?_⟩
        intro s hmem hnot hexpanded t ht _
        exact hfold.noted s hmem hnot hexpanded t ht fun hremaining => by
          cases hremaining.2

end Records

section Rounds

variable {env : SearchEnv} {context : SearchContext}

theorem runSearchRounds_records (env : SearchEnv) (hgoal : ¬ context.goal ⊆ context.initial) :
    (∃ result, runSearchRounds env context = .error result ∧ EndedEarly env context) ∨
      ∃ acc, runSearchRounds env context = .ok acc ∧ acc.queue = [] ∧
        Settled env context acc ∧ AllRecorded env context acc := by
  have hrounds : (initialAccumulator context).rounds < maxExploredStates + 1 := by
    show 1 + (maxExploredStates - 1) < maxExploredStates + 1
    decide
  have hstart : AllRecorded env context (initialAccumulator context) := by
    refine ⟨nofun, nofun, List.nodup_nil, ?_⟩
    intro state hstate hwaits
    exact absurd hstate hwaits
  obtain ⟨done, hrun, hdone, hends⟩ := Loop.iterate_total
    (fun acc (hacc : Settled env context acc ∧ AllRecorded env context acc) =>
      (searchRound_round hacc.1.choose_spec).and (searchRound_records hacc.1 hacc.2).1
        (searchRound_records hacc.1 hacc.2).2)
    ⟨settled_initial env hgoal, hstart⟩ hrounds
  cases done with
  | error result => exact Or.inl ⟨result, by rw [runSearchRounds, hrun], hends⟩
  | ok acc => exact Or.inr ⟨acc, by rw [runSearchRounds, hrun], hdone.1, hdone.2, hends⟩

/-- A search that leaves its loop with an empty queue has seen the states within the depth. -/
theorem mem_visited_iff {acc : Accumulator} (h : Settled env context acc)
    (hqueue : acc.queue = []) (state : AttackState) :
    state ∈ acc.visited ↔ WithinDepth context state := by
  obtain ⟨level, h⟩ := h
  constructor
  · exact h.within state
  · intro hwithin
    obtain ⟨attack, hattack, hlength⟩ := hwithin
    have hfrontier := h.frontier
    rw [hqueue, List.map_nil] at hfrontier
    exact hfrontier.complete_upto context.query.maxDepth
      (fun u v n howed hn => howed.elim (fun hskip => hskip.2 n hn) False.elim)
      (reaches_of_attack_initial hattack) hlength

theorem evidenceFits_of_recorded {acc : Accumulator} (hsettled : Settled env context acc)
    (hqueue : acc.queue = []) (h : AllRecorded env context acc)
    (hcap : acc.blocked.keys.length + acc.impossible.length + 1 ≤ maxDiagnostics) :
    EvidenceFits env context := by
  have hvisited := mem_visited_iff hsettled hqueue
  obtain ⟨level, hs⟩ := hsettled
  have hnoted : ∀ state, Expanded context state → ∀ transition ∈ context.transitions,
      Noted env acc state transition := by
    intro state hexpanded transition hmem
    obtain ⟨attack, hattack, hlt⟩ := hexpanded
    have hseen := (hvisited state).mpr ⟨attack, hattack, Nat.le_of_lt hlt⟩
    have hwaits : state ∉ acc.queue.map Prod.fst := by
      rw [hqueue]
      exact List.not_mem_nil
    exact h.noted state hseen hwaits ⟨attack, hattack, hlt⟩ transition hmem id
  constructor
  · intro states hnodup hwithin
    have hsub : states ⊆ acc.visited := fun state hmem => (hvisited state).mpr (hwithin state hmem)
    exact Nat.le_trans (List.subperm_of_subset hnodup hsub).length_le hs.length_le
  · intro blocked impossible hblocked himpossible hkeys hids
    have hkeys' : blocked ⊆ acc.blocked.keys := by
      intro key hmem
      obtain ⟨transition, ht, state, hexpanded, hdisabled, rfl⟩ := hkeys key hmem
      exact (hnoted state hexpanded transition ht).1 hdisabled
    have hids' : impossible ⊆ acc.impossible := by
      intro transitionId hmem
      obtain ⟨transition, ht, state, hexpanded, henabled, hself, rfl⟩ := hids transitionId hmem
      exact (hnoted state hexpanded transition ht).2 henabled hself
    have hle := (List.subperm_of_subset hblocked hkeys').length_le
    have hle' := (List.subperm_of_subset himpossible hids').length_le
    omega

end Rounds

end Raes.ExploitPath
