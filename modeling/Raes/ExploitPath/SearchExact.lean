import Raes.ExploitPath.Search
import Raes.Lib.Worklist

/-!
# Exactness of the exploit-path search

The search keeps a breadth-first frontier over attack states.  A state that it
leaves unexpanded because of the depth owes its edges, and from then on the
search says that it has exhausted the depth.
-/

namespace Raes.ExploitPath

open BreadthFirst

/-! ## Attacks -/

def Enabled (transition : AttackTransition) (state : AttackState) : Prop :=
  ∀ fact ∈ transition.prerequisites, fact ∈ state

/-- A sequence of transitions of the context leads from one state to another.
Each transition has its prerequisites in the state that it is applied to. -/
def Attack (context : SearchContext) :
    AttackState → List AttackTransition → AttackState → Prop
  | state, [], final => state = final
  | state, transition :: rest, final =>
    transition ∈ context.transitions ∧ Enabled transition state ∧
      Attack context (nextState transition state) rest final

def Satisfies (context : SearchContext) (attack : List AttackTransition) : Prop :=
  ∃ final, Attack context context.initial attack final ∧ context.goal ⊆ final

def WithinDepth (context : SearchContext) (state : AttackState) : Prop :=
  ∃ attack, Attack context context.initial attack state ∧ attack.length ≤ context.query.maxDepth

def stepsOf (env : SearchEnv) : ℕ → AttackState → List AttackTransition → List ExploitPathStep
  | _, _, [] => []
  | stepIndex, state, transition :: rest =>
    stepOf env transition stepIndex state ::
      stepsOf env (stepIndex + 1) (nextState transition state) rest

variable {state : AttackState}

theorem sortedFacts_eq_nil_iff : sortedFacts state = [] ↔ state = ∅ := by
  simp only [sortedFacts, List.eq_nil_iff_forall_not_mem, Finset.mem_sort,
    Finset.eq_empty_iff_forall_notMem]

theorem missingPrerequisites_eq_nil_iff {transition : AttackTransition} :
    missingPrerequisites transition state = [] ↔ Enabled transition state := by
  rw [missingPrerequisites, sortedFacts_eq_nil_iff, Finset.sdiff_eq_empty_iff_subset]
  simp only [Enabled, Finset.subset_iff, List.mem_toFinset]

theorem nextState_eq_self {transition : AttackTransition} (h : appliedEffects transition state =
    []) : nextState transition state = state := by
  rw [appliedEffects, sortedFacts_eq_nil_iff, Finset.sdiff_eq_empty_iff_subset] at h
  exact Finset.union_eq_left.mpr h

section Attacks

variable {context : SearchContext} {env : SearchEnv} {attack : List AttackTransition}

theorem attack_append_singleton {state middle : AttackState} {transition : AttackTransition}
    (h : Attack context state attack middle)
    (hmem : transition ∈ context.transitions) (henabled : Enabled transition middle) :
    Attack context state (attack ++ [transition]) (nextState transition middle) := by
  induction attack generalizing state with
  | nil =>
    obtain rfl : state = middle := h
    exact ⟨hmem, henabled, rfl⟩
  | cons head rest ih => exact ⟨h.1, h.2.1, ih h.2.2⟩

theorem stepsOf_append_singleton (env : SearchEnv) (stepIndex : ℕ) {state middle : AttackState}
    (transition : AttackTransition) (h : Attack context state attack middle) :
    stepsOf env stepIndex state (attack ++ [transition]) =
      stepsOf env stepIndex state attack ++
        [stepOf env transition (stepIndex + attack.length) middle] := by
  induction attack generalizing state stepIndex with
  | nil =>
    obtain rfl : state = middle := h
    rfl
  | cons head rest ih =>
    have hindex : stepIndex + 1 + rest.length = stepIndex + (head :: rest).length := by
      rw [List.length_cons]
      omega
    rw [List.cons_append, stepsOf, stepsOf, ih _ h.2.2, hindex, List.cons_append]

theorem stepsOf_length (stepIndex : ℕ) (state : AttackState) (attack : List AttackTransition) :
    (stepsOf env stepIndex state attack).length = attack.length := by
  induction attack generalizing stepIndex state with
  | nil => rfl
  | cons head rest ih => rw [stepsOf, List.length_cons, ih, List.length_cons]

theorem mem_of_attack {state final : AttackState} (h : Attack context state attack final) :
    ∀ transition ∈ attack, transition ∈ context.transitions := by
  induction attack generalizing state with
  | nil => exact fun _ hmem => absurd hmem List.not_mem_nil
  | cons head rest ih =>
    intro transition hmem
    rcases List.mem_cons.mp hmem with rfl | hmem
    · exact h.1
    · exact ih h.2.2 transition hmem

/-! ## Attacks as steps of a graph -/

def Moves (context : SearchContext) (state next : AttackState) : Prop :=
  ∃ transition ∈ context.transitions, Enabled transition state ∧ next = nextState transition state

def Start (context : SearchContext) (state : AttackState) : Prop := state = context.initial

theorem reaches_of_attack {state final : AttackState} {n : ℕ}
    (hn : Reaches (Moves context) (Start context) n state) (h : Attack context state attack final) :
    Reaches (Moves context) (Start context) (n + attack.length) final := by
  induction attack generalizing state n with
  | nil =>
    obtain rfl : state = final := h
    exact hn
  | cons head rest ih =>
    have hstep := hn.step ⟨head, h.1, h.2.1, rfl⟩
    have hlen : n + (head :: rest).length = n + 1 + rest.length := by
      rw [List.length_cons]
      omega
    rw [hlen]
    exact ih hstep h.2.2

theorem reaches_of_attack_initial {final : AttackState}
    (h : Attack context context.initial attack final) :
    Reaches (Moves context) (Start context) attack.length final := by
  have hreach := reaches_of_attack (Reaches.start (rfl : Start context context.initial)) h
  rwa [Nat.zero_add] at hreach

end Attacks

section Answers

variable (env : SearchEnv) (context : SearchContext)

def IsBlocked (key : String × String) : Prop :=
  ∃ transition ∈ context.transitions, ∃ state, WithinDepth context state ∧
    ¬ Enabled transition state ∧ key = (transition.transitionId, stateDigest env state)

def IsImpossible (transitionId : String) : Prop :=
  ∃ transition ∈ context.transitions, ∃ state, WithinDepth context state ∧
    Enabled transition state ∧ nextState transition state = state ∧
    transitionId = transition.transitionId

/-- There is more within the depth than the evidence contract can carry. -/
def Overflow : Prop :=
  (∃ states : List AttackState, states.Nodup ∧ maxExploredStates < states.length ∧
    ∀ state ∈ states, WithinDepth context state) ∨
  ∃ (blocked : List (String × String)) (impossible : List String),
    blocked.Nodup ∧ impossible.Nodup ∧
    maxDiagnostics < blocked.length + impossible.length + 1 ∧
    (∀ key ∈ blocked, IsBlocked env context key) ∧
    ∀ transitionId ∈ impossible, IsImpossible context transitionId

/-- The answer is a shortest attack that satisfies the goal, within the depth. -/
def FoundShortest (result : SearchResult) : Prop :=
  ∃ attack final, Attack context context.initial attack final ∧ context.goal ⊆ final ∧
    attack.length ≤ context.query.maxDepth ∧
    result = validSearchResult env context (stepsOf env 0 context.initial attack) final ∧
    ∀ other, Satisfies context other → attack.length ≤ other.length

/-- The answer ends the search: a shortest attack, or evidence that does not
fit. -/
def Decided (result : SearchResult) : Prop :=
  FoundShortest env context result ∨
    (∃ address message, result = unsupportedSearchResult address message) ∧ Overflow env context

end Answers

/-! ## The invariant of the search -/

def Entry (env : SearchEnv) (context : SearchContext)
    (entry : AttackState × List ExploitPathStep) : Prop :=
  ∃ attack, Attack context context.initial attack entry.1 ∧
    entry.2 = stepsOf env 0 context.initial attack ∧
    Distance (Moves context) (Start context) attack.length entry.1 ∧
    attack.length ≤ context.query.maxDepth

/-- Edges that the depth bound leaves unfollowed. -/
def Skipped (context : SearchContext) (exhausted : Bool) (state _next : AttackState) : Prop :=
  exhausted = true ∧
    ∀ n, Reaches (Moves context) (Start context) n state → context.query.maxDepth ≤ n

structure Searched (env : SearchEnv) (context : SearchContext)
    (Pending : AttackState → AttackState → Prop) (level : ℕ) (acc : Accumulator) : Prop where
  frontier : Frontier (Moves context) (Start context)
    (fun u v => Skipped context acc.exhaustedDepth u v ∨ Pending u v) level
    {state | state ∈ acc.visited} (acc.queue.map Prod.fst)
  nodup : acc.visited.Nodup
  length_le : acc.visited.length ≤ maxExploredStates
  unsatisfied : ∀ state ∈ acc.visited, ¬ context.goal ⊆ state
  within : ∀ state ∈ acc.visited, WithinDepth context state
  entries : ∀ entry ∈ acc.queue, Entry env context entry
  blocked : ∀ key ∈ acc.blocked.keys, IsBlocked env context key
  impossible : ∀ transitionId ∈ acc.impossible, IsImpossible context transitionId
  impossible_nodup : acc.impossible.Nodup

/-- How many rounds the search can still take. -/
def Accumulator.rounds (acc : Accumulator) : ℕ :=
  acc.queue.length + (maxExploredStates - acc.visited.length)

section Rounds

variable {env : SearchEnv} {context : SearchContext} {acc : Accumulator} {level : ℕ}
  {state : AttackState} {attack : List AttackTransition} {transition : AttackTransition}
  {todo : List AttackTransition}

/-- The edges that are owed while the transitions of one state are tried. -/
def Untried (state : AttackState) (todo : List AttackTransition) (u v : AttackState) : Prop :=
  u = state ∧ ∃ transition ∈ todo, Enabled transition state ∧ v = nextState transition state

/-- What one transition does: the search goes on with it tried, or is decided. -/
def Advances (env : SearchEnv) (context : SearchContext) (state : AttackState)
    (todo : List AttackTransition) (level : ℕ) (acc : Accumulator) :
    Except SearchResult Accumulator → Prop
  | .error result => Decided env context result
  | .ok acc' => Searched env context (Untried state todo) level acc' ∧ acc'.rounds = acc.rounds

section

variable (h : Searched env context (Untried state (transition :: todo)) level acc)
include h

theorem Searched.tried
    (hseen : Enabled transition state → nextState transition state ∈ acc.visited) :
    Searched env context (Untried state todo) level acc := by
  refine ⟨h.frontier.owe ?_, h.nodup, h.length_le, h.unsatisfied, h.within, h.entries, h.blocked,
    h.impossible, h.impossible_nodup⟩
  rintro u v (hskip | ⟨rfl, t, ht, henabled, rfl⟩)
  · exact Or.inr (Or.inl hskip)
  · rcases List.mem_cons.mp ht with rfl | ht
    · exact Or.inl (hseen henabled)
    · exact Or.inr (Or.inr ⟨rfl, t, ht, henabled, rfl⟩)

theorem recordBlockedTransition_advances (hstate : WithinDepth context state)
    (hmem : transition ∈ context.transitions)
    (hdisabled : ¬ Enabled transition state) (missing : List String) :
    Advances env context state todo level acc
      (recordBlockedTransition acc transition (stateDigest env state) missing) := by
  have htried := h.tried fun henabled => absurd henabled hdisabled
  have hblocked : IsBlocked env context (transition.transitionId, stateDigest env state) :=
    ⟨transition, hmem, state, hstate, hdisabled, rfl⟩
  rw [recordBlockedTransition]
  by_cases hknown : acc.blocked.contains (transition.transitionId, stateDigest env state)
  · rw [if_pos hknown]
    exact ⟨htried, rfl⟩
  · rw [if_neg hknown]
    by_cases hfull : maxBlockedTransitions ≤ acc.blocked.keys.length
    · rw [if_pos hfull]
      refine Or.inr ⟨⟨_, _, rfl⟩, Or.inr ⟨acc.blocked.keys, acc.impossible, acc.blocked.keys_nodup,
        h.impossible_nodup, ?_, h.blocked, h.impossible⟩⟩
      simp only [maxBlockedTransitions, maxDiagnostics] at hfull ⊢
      omega
    · rw [if_neg hfull]
      refine ⟨⟨htried.frontier, h.nodup, h.length_le, h.unsatisfied, h.within, h.entries, ?_,
        h.impossible, h.impossible_nodup⟩, rfl⟩
      intro key hkey
      rcases (Dict.mem_keys_set _ _ _ _).mp hkey with rfl | hkey
      · exact hblocked
      · exact h.blocked key hkey

theorem recordImpossibleTransition_advances (hstate : WithinDepth context state)
    (hseen : state ∈ acc.visited)
    (hmem : transition ∈ context.transitions) (henabled : Enabled transition state)
    (hself : nextState transition state = state) : Advances env context state todo level acc
      (recordImpossibleTransition acc transition.transitionId) := by
  have htried := h.tried fun _ => hself.symm ▸ hseen
  have himpossible : IsImpossible context transition.transitionId :=
    ⟨transition, hmem, state, hstate, henabled, hself, rfl⟩
  rw [recordImpossibleTransition]
  by_cases hknown : transition.transitionId ∈ acc.impossible
  · rw [if_pos hknown]
    exact ⟨htried, rfl⟩
  · rw [if_neg hknown]
    by_cases hfull : maxImpossibleTransitions ≤ acc.impossible.length
    · rw [if_pos hfull]
      refine Or.inr ⟨⟨_, _, rfl⟩, Or.inr ⟨acc.blocked.keys, acc.impossible, acc.blocked.keys_nodup,
        h.impossible_nodup, ?_, h.blocked, h.impossible⟩⟩
      simp only [maxImpossibleTransitions, maxDiagnostics] at hfull ⊢
      omega
    · rw [if_neg hfull]
      refine ⟨⟨htried.frontier, h.nodup, h.length_le, h.unsatisfied, h.within, h.entries,
        h.blocked, ?_, ?_⟩, rfl⟩
      · intro transitionId hid
        rcases List.mem_append.mp hid with hid | hid
        · exact h.impossible transitionId hid
        · rw [List.mem_singleton.mp hid]
          exact himpossible
      · exact h.impossible_nodup.append (List.nodup_singleton _)
          (List.disjoint_singleton.mpr hknown)

end

/-- No owed edge leaves a state nearer than the one that is expanded. -/
theorem owed_level (hstate : Distance (Moves context) (Start context) level state)
    (hdepth : level ≤ context.query.maxDepth) (todo : List AttackTransition) (exhausted : Bool)
    (u v : AttackState) (n : ℕ) (howed : Skipped context exhausted u v ∨ Untried state todo u v)
    (hn : Reaches (Moves context) (Start context) n u) : level ≤ n := by
  rcases howed with hskip | ⟨rfl, _⟩
  · have := hskip.2 n hn
    omega
  · exact hstate.2 n hn

/-- A transition with a new effect finds the goal, a seen state, or a new state
one step further away. -/
theorem recordTransitionProgress_advances
    (h : Searched env context (Untried state (transition :: todo)) attack.length acc)
    (hattack : Attack context context.initial attack state)
    (hstate : Distance (Moves context) (Start context) attack.length state)
    (hdepth : attack.length < context.query.maxDepth) (hmem : transition ∈ context.transitions)
    (henabled : Enabled transition state) :
    Advances env context state todo attack.length acc
      (recordTransitionProgress env context transition acc state
        (stepsOf env 0 context.initial attack)) := by
  have hnext := attack_append_singleton hattack hmem henabled
  have hsteps := stepsOf_append_singleton env 0 transition hattack
  rw [Nat.zero_add] at hsteps
  have howed := owed_level hstate (Nat.le_of_lt hdepth) (transition :: todo) acc.exhaustedDepth
  have hwithin : WithinDepth context (nextState transition state) := by
    refine ⟨attack ++ [transition], hnext, ?_⟩
    rw [List.length_append, List.length_singleton]
    exact hdepth
  rw [recordTransitionProgress]
  simp only [stepsOf_length]
  by_cases hgoal : context.goal ⊆ nextState transition state
  · rw [if_pos hgoal]
    refine Or.inl ⟨attack ++ [transition], nextState transition state, hnext, hgoal, ?_, ?_, ?_⟩
    · rw [List.length_append, List.length_singleton]
      exact hdepth
    · rw [hsteps]
    · rintro other ⟨final, hother, hfinal⟩
      rw [List.length_append, List.length_singleton]
      rcases Nat.lt_or_ge attack.length other.length with hlt | hge
      · exact hlt
      · have hseen := h.frontier.seen_of_reaches (fun u hu n hn => h.frontier.level_le hu hn) howed
          (reaches_of_attack_initial hother) hge
        exact absurd hfinal (h.unsatisfied final hseen)
  · rw [if_neg hgoal]
    by_cases hseen : nextState transition state ∈ acc.visited
    · rw [if_neg (not_not.mpr hseen)]
      exact ⟨h.tried fun _ => hseen, rfl⟩
    · rw [if_pos hseen, queueNextState]
      by_cases hfull : maxExploredStates ≤ acc.visited.length
      · rw [if_pos hfull]
        refine Or.inr ⟨⟨_, _, rfl⟩, Or.inl ⟨acc.visited ++ [nextState transition state], ?_, ?_, ?_⟩⟩
        · exact h.nodup.append (List.nodup_singleton _) (List.disjoint_singleton.mpr hseen)
        · rw [List.length_append, List.length_singleton]
          omega
        · intro s hs
          rcases List.mem_append.mp hs with hs | hs
          · exact h.within s hs
          · rw [List.mem_singleton.mp hs]
            exact hwithin
      · rw [if_neg hfull]
        have hdisc := h.frontier.discover howed hstate
          (⟨transition, hmem, henabled, rfl⟩ : Moves context state (nextState transition state))
          hseen
        have hset : {s | s ∈ acc.visited ++ [nextState transition state]} =
            insert (nextState transition state) {s | s ∈ acc.visited} := by
          ext s
          simp [or_comm]
        refine ⟨⟨?_, ?_, ?_, ?_, ?_, ?_, h.blocked, h.impossible, h.impossible_nodup⟩, ?_⟩
        · simp only [List.map_append, List.map_cons, List.map_nil]
          rw [hset]
          refine hdisc.2.owe ?_
          rintro u v (hskip | ⟨rfl, t, ht, hen, rfl⟩)
          · exact Or.inr (Or.inl hskip)
          · rcases List.mem_cons.mp ht with rfl | ht
            · exact Or.inl (Set.mem_insert _ _)
            · exact Or.inr (Or.inr ⟨rfl, t, ht, hen, rfl⟩)
        · exact h.nodup.append (List.nodup_singleton _) (List.disjoint_singleton.mpr hseen)
        · rw [List.length_append, List.length_singleton]
          omega
        · intro s hs
          rcases List.mem_append.mp hs with hs | hs
          · exact h.unsatisfied s hs
          · rw [List.mem_singleton.mp hs]
            exact hgoal
        · intro s hs
          rcases List.mem_append.mp hs with hs | hs
          · exact h.within s hs
          · rw [List.mem_singleton.mp hs]
            exact hwithin
        · intro entry hentry
          rcases List.mem_append.mp hentry with hentry | hentry
          · exact h.entries entry hentry
          · rw [List.mem_singleton.mp hentry]
            refine ⟨attack ++ [transition], hnext, hsteps.symm, ?_, ?_⟩
            · rw [List.length_append, List.length_singleton]
              exact hdisc.1
            · rw [List.length_append, List.length_singleton]
              exact hdepth
        · simp only [Accumulator.rounds, List.length_append, List.length_singleton]
          omega

theorem advanceTransition_advances
    (h : Searched env context (Untried state (transition :: todo)) attack.length acc)
    (hattack : Attack context context.initial attack state)
    (hstate : Distance (Moves context) (Start context) attack.length state)
    (hdepth : attack.length < context.query.maxDepth) (hmem : transition ∈ context.transitions)
    (hseen : state ∈ acc.visited) :
    Advances env context state todo attack.length acc
      (advanceTransition env context state (stepsOf env 0 context.initial attack) acc
        transition) := by
  have hwithin : WithinDepth context state := ⟨attack, hattack, Nat.le_of_lt hdepth⟩
  rw [advanceTransition]
  by_cases hmissing : missingPrerequisites transition state = []
  · rw [if_neg (not_not.mpr hmissing)]
    have henabled := missingPrerequisites_eq_nil_iff.mp hmissing
    by_cases happlied : appliedEffects transition state = []
    · rw [if_pos happlied]
      exact recordImpossibleTransition_advances h hwithin hseen hmem henabled
        (nextState_eq_self happlied)
    · rw [if_neg happlied]
      exact recordTransitionProgress_advances h hattack hstate hdepth hmem henabled
  · rw [if_pos hmissing]
    have hdisabled : ¬ Enabled transition state := by
      rw [← missingPrerequisites_eq_nil_iff]
      exact hmissing
    exact recordBlockedTransition_advances h hwithin hmem hdisabled _

theorem foldlM_advances
    (h : Searched env context (Untried state todo) attack.length acc)
    (hattack : Attack context context.initial attack state)
    (hstate : Distance (Moves context) (Start context) attack.length state)
    (hdepth : attack.length < context.query.maxDepth)
    (hmem : ∀ transition ∈ todo, transition ∈ context.transitions) :
    Advances env context state [] attack.length acc
      (todo.foldlM (advanceTransition env context state (stepsOf env 0 context.initial attack))
        acc) := by
  have hseen : state ∈ acc.visited :=
    h.frontier.seen_of_reaches (fun u hu n hn => h.frontier.level_le hu hn)
      (owed_level hstate (Nat.le_of_lt hdepth) todo acc.exhaustedDepth)
      (reaches_of_attack_initial hattack) (Nat.le_refl _)
  induction todo generalizing acc with
  | nil => exact ⟨h, rfl⟩
  | cons transition rest ih =>
    rw [List.foldlM_cons]
    have hone := advanceTransition_advances h hattack hstate hdepth
      (hmem transition List.mem_cons_self) hseen
    cases hstep : advanceTransition env context state (stepsOf env 0 context.initial attack) acc
        transition with
    | error result =>
      rw [hstep] at hone
      exact hone
    | ok acc' =>
      rw [hstep] at hone
      have hrest := ih hone.1 (fun t ht => hmem t (List.mem_cons_of_mem _ ht))
        (hone.1.frontier.seen_of_reaches (fun u hu n hn => hone.1.frontier.level_le hu hn)
          (owed_level hstate (Nat.le_of_lt hdepth) rest acc'.exhaustedDepth)
          (reaches_of_attack_initial hattack) (Nat.le_refl _))
      show Advances env context state [] attack.length acc (rest.foldlM _ acc')
      cases hfold : rest.foldlM (advanceTransition env context state
          (stepsOf env 0 context.initial attack)) acc' with
      | error result =>
        rw [hfold] at hrest
        exact hrest
      | ok final =>
        rw [hfold] at hrest
        exact ⟨hrest.1, hrest.2.trans hone.2⟩

/-- Nothing is owed beside what the depth bound skips. -/
abbrev Settled (env : SearchEnv) (context : SearchContext) (acc : Accumulator) : Prop :=
  ∃ level, Searched env context (fun _ _ => False) level acc

theorem searched_pop {steps : List ExploitPathStep}
    {rest : List (AttackState × List ExploitPathStep)}
    (h : Searched env context (fun _ _ => False) level acc)
    (hqueue : acc.queue = (state, steps) :: rest)
    (hstate : Distance (Moves context) (Start context) attack.length state) :
    Searched env context (Untried state context.transitions) attack.length
      { acc with queue := rest } := by
  have hfrontier := h.frontier
  rw [hqueue, List.map_cons] at hfrontier
  obtain ⟨n, _, hdist, hpop⟩ := hfrontier.pop
  obtain rfl : n = attack.length := hdist.unique hstate
  refine ⟨hpop.owe ?_, h.nodup, h.length_le, h.unsatisfied, h.within, ?_, h.blocked,
    h.impossible, h.impossible_nodup⟩
  · rintro u v ((hskip | hno) | ⟨rfl, t, ht, henabled, rfl⟩)
    · exact Or.inr (Or.inl hskip)
    · exact hno.elim
    · exact Or.inr (Or.inr ⟨rfl, t, ht, henabled, rfl⟩)
  · intro entry hentry
    exact h.entries entry (hqueue ▸ List.mem_cons_of_mem _ hentry)

theorem searchRound_round (h : Searched env context (fun _ _ => False) level acc) :
    Loop.Round (searchRound env context) (Settled env context) Accumulator.rounds
      (fun done => match done with
        | .error result => Decided env context result
        | .ok acc => acc.queue = [] ∧ Settled env context acc) acc := by
  cases hqueue : acc.queue with
  | nil =>
    refine Or.inl ⟨.ok acc, ?_, hqueue, level, h⟩
    rw [searchRound, hqueue]
  | cons entry rest =>
    obtain ⟨state, steps⟩ := entry
    have hfrontier := h.frontier
    rw [hqueue, List.map_cons] at hfrontier
    obtain ⟨n, _, hdist, hpop⟩ := hfrontier.pop
    obtain ⟨attack, hattack, hsteps, hdist', hdepth⟩ :=
      h.entries (state, steps) (hqueue ▸ List.mem_cons_self)
    simp only at hattack hsteps hdist' hdepth
    obtain rfl : n = attack.length := hdist.unique hdist'
    subst hsteps
    have hentries : ∀ entry ∈ rest, Entry env context entry := fun entry hentry =>
      h.entries entry (hqueue ▸ List.mem_cons_of_mem _ hentry)
    have hrounds : ({ acc with queue := rest } : Accumulator).rounds < acc.rounds := by
      simp only [Accumulator.rounds, hqueue, List.length_cons]
      omega
    by_cases hbound : context.query.maxDepth ≤ attack.length
    · refine Or.inr ⟨{ acc with queue := rest, exhaustedDepth := true }, ?_,
        ⟨attack.length, ?_⟩, hrounds⟩
      · simp only [searchRound, hqueue, stepsOf_length, if_pos hbound]
      · refine ⟨hpop.owe ?_, h.nodup, h.length_le, h.unsatisfied, h.within, hentries, h.blocked,
          h.impossible, h.impossible_nodup⟩
        rintro u v ((hskip | hno) | ⟨rfl, _⟩)
        · exact Or.inr (Or.inl ⟨rfl, hskip.2⟩)
        · exact hno.elim
        · refine Or.inr (Or.inl ⟨rfl, fun m hm => ?_⟩)
          exact Nat.le_trans hbound (hdist'.2 m hm)
    · have hpending : Searched env context (Untried state context.transitions) attack.length
          { acc with queue := rest } := searched_pop h hqueue hdist'
      have hadvance := foldlM_advances hpending hattack hdist' (Nat.lt_of_not_le hbound)
        fun t ht => ht
      cases hstep : context.transitions.foldlM (advanceTransition env context state
          (stepsOf env 0 context.initial attack)) { acc with queue := rest } with
      | error result =>
        rw [hstep] at hadvance
        refine Or.inl ⟨.error result, ?_, hadvance⟩
        simp only [searchRound, hqueue, stepsOf_length, if_neg hbound, advanceFromState, hstep]
      | ok acc' =>
        rw [hstep] at hadvance
        refine Or.inr ⟨acc', ?_, ⟨attack.length, ?_⟩, ?_⟩
        · simp only [searchRound, hqueue, stepsOf_length, if_neg hbound, advanceFromState, hstep]
        · have hdone := hadvance.1
          refine ⟨hdone.frontier.owe ?_, hdone.nodup, hdone.length_le, hdone.unsatisfied,
            hdone.within, hdone.entries, hdone.blocked, hdone.impossible, hdone.impossible_nodup⟩
          rintro u v (hskip | ⟨_, t, ht, _⟩)
          · exact Or.inr (Or.inl hskip)
          · exact absurd ht List.not_mem_nil
        · rw [hadvance.2]
          exact hrounds

theorem settled_initial (env : SearchEnv) (hgoal : ¬ context.goal ⊆ context.initial) :
    Settled env context (initialAccumulator context) := by
  have hzero : Distance (Moves context) (Start context) 0 context.initial :=
    ⟨Reaches.start rfl, fun _ _ => Nat.zero_le _⟩
  have hwithin : WithinDepth context context.initial := ⟨[], rfl, Nat.zero_le _⟩
  refine ⟨0, ?_, List.nodup_singleton _, ?_, ?_, ?_, ?_, nofun, nofun, List.nodup_nil⟩
  · have hstart : Frontier (Moves context) (Start context) (fun _ _ => False) 0
        {s | s ∈ [context.initial]} [context.initial] :=
      frontier_start fun s => by rw [List.mem_singleton, Start]
    exact hstart.owe fun _ _ hno => hno.elim
  · show 1 ≤ maxExploredStates
    decide
  · intro s hs
    rw [List.mem_singleton.mp hs]
    exact hgoal
  · intro s hs
    rw [List.mem_singleton.mp hs]
    exact hwithin
  · intro entry hentry
    rw [List.mem_singleton.mp hentry]
    exact ⟨[], rfl, rfl, hzero, Nat.zero_le _⟩

end Rounds

section Exact

variable (env : SearchEnv)

theorem runSearchRounds_cases {context : SearchContext}
    (hgoal : ¬ context.goal ⊆ context.initial) :
    (∃ result, runSearchRounds env context = .error result ∧ Decided env context result) ∨
      ∃ acc, runSearchRounds env context = .ok acc ∧ acc.queue = [] ∧
        Settled env context acc := by
  have hrounds : (initialAccumulator context).rounds < maxExploredStates + 1 := by
    show 1 + (maxExploredStates - 1) < maxExploredStates + 1
    decide
  obtain ⟨done, hrun, hdone⟩ := Loop.iterate_total
    (fun acc (hacc : Settled env context acc) => searchRound_round hacc.choose_spec)
    (settled_initial env hgoal) hrounds
  cases done with
  | error result => exact Or.inl ⟨result, by rw [runSearchRounds, hrun], hdone⟩
  | ok acc => exact Or.inr ⟨acc, by rw [runSearchRounds, hrun], hdone⟩

/-- A search that leaves its loop has seen no state that satisfies the goal
within the depth, and none at all when the depth was not exhausted. -/
theorem no_attack_of_settled {context : SearchContext} {acc : Accumulator}
    (h : Settled env context acc) (hqueue : acc.queue = []) :
    (∀ attack, Satisfies context attack → context.query.maxDepth < attack.length) ∧
      (acc.exhaustedDepth = false → ∀ attack, ¬ Satisfies context attack) := by
  obtain ⟨level, h⟩ := h
  have hfrontier := h.frontier
  rw [hqueue, List.map_nil] at hfrontier
  constructor
  · rintro attack ⟨final, hattack, hgoal⟩
    rcases Nat.lt_or_ge context.query.maxDepth attack.length with hlt | hge
    · exact hlt
    · have hseen := hfrontier.complete_upto context.query.maxDepth
        (fun u v n howed hn => howed.elim (fun hskip => hskip.2 n hn) False.elim)
        (reaches_of_attack_initial hattack) hge
      exact absurd hgoal (h.unsatisfied final hseen)
  · rintro hexhausted attack ⟨final, hattack, hgoal⟩
    have hnone : Frontier (Moves context) (Start context) (fun _ _ => False) level
        {state | state ∈ acc.visited} [] := by
      refine hfrontier.owe ?_
      rintro u v (hskip | hno)
      · rw [hexhausted] at hskip
        exact Bool.noConfusion hskip.1
      · exact hno.elim
    have hseen := (hnone.mem_seen_iff final).mpr ⟨_, reaches_of_attack_initial hattack⟩
    exact h.unsatisfied final hseen hgoal

theorem search_cases (request : AnalysisInput) :
    Decided env (searchContext request) (search env request) ∨
      ∃ failure, (search env request).outcome = .invalidPath ∧
        (search env request).witness = none ∧ (search env request).failure = some failure ∧
        (∀ attack, Satisfies (searchContext request) attack →
          request.query.maxDepth < attack.length) ∧
        (failure.exhaustedDepth = false →
          ∀ attack, ¬ Satisfies (searchContext request) attack) := by
  rw [search]
  by_cases hgoal : (searchContext request).goal ⊆ (searchContext request).initial
  · simp only [if_pos hgoal]
    exact Or.inl (Or.inl ⟨[], _, rfl, hgoal, Nat.zero_le _, rfl, fun _ _ => Nat.zero_le _⟩)
  · simp only [if_neg hgoal]
    rcases runSearchRounds_cases env hgoal with ⟨result, hrun, hdecided⟩ | ⟨acc, hrun, hqueue, h⟩
    · rw [hrun]
      exact Or.inl hdecided
    · rw [hrun]
      simp only [diagnosticCapResult]
      by_cases hcap : maxDiagnostics < acc.blocked.keys.length + acc.impossible.length + 1
      · rw [if_pos hcap]
        obtain ⟨level, h⟩ := h
        exact Or.inl (Or.inr ⟨⟨_, _, rfl⟩, Or.inr ⟨acc.blocked.keys, acc.impossible,
          acc.blocked.keys_nodup, h.impossible_nodup, hcap, h.blocked, h.impossible⟩⟩)
      · rw [if_neg hcap]
        have hnone := no_attack_of_settled env h hqueue
        exact Or.inr ⟨_, rfl, rfl, rfl, hnone.1, hnone.2⟩

/-- The search is sound and complete up to its bound.  Unless the evidence does
not fit, it answers with a valid path exactly when some sequence of allowed
transitions within the depth satisfies the goal; its witness then records a
shortest one.  An invalid path whose depth was not exhausted means that no
sequence of any length satisfies the goal. -/
theorem search_exact (request : AnalysisInput) :
    ((search env request).outcome = .validPath ↔
        (search env request).outcome ≠ .unsupported ∧
        ∃ attack, Satisfies (searchContext request) attack ∧
          attack.length ≤ request.query.maxDepth) ∧
      ((search env request).outcome = .unsupported → Overflow env (searchContext request)) ∧
      ((search env request).witness.isSome ↔ (search env request).outcome = .validPath) ∧
      (∀ witness, (search env request).witness = some witness →
        ∃ attack final, Attack (searchContext request) request.query.startFacts.toFinset attack
            final ∧
          request.query.goalFacts.toFinset ⊆ final ∧
          (∀ transition ∈ attack, transition ∈ request.transitions ∧
            transition.semantics ∈ request.query.allowedTransitionSemantics) ∧
          attack.length ≤ request.query.maxDepth ∧
          witness.steps = stepsOf env 0 request.query.startFacts.toFinset attack ∧
          witness.finalState = sortedFacts final ∧
          ∀ other, Satisfies (searchContext request) other → attack.length ≤ other.length) ∧
      ∀ failure, (search env request).failure = some failure →
        (search env request).outcome = .invalidPath ∧
        (failure.exhaustedDepth = false →
          ∀ attack, ¬ Satisfies (searchContext request) attack) := by
  rcases search_cases env request with
    (⟨attack, final, hattack, hgoal, hlen, hresult, hshort⟩ | ⟨⟨address, message, hresult⟩, hover⟩) |
    ⟨failure, hout, hwitness, hfailure, hnone, hall⟩
  · rw [hresult]
    refine ⟨⟨fun _ => ⟨nofun, attack, ⟨final, hattack, hgoal⟩, hlen⟩, fun _ => rfl⟩, nofun,
      by simp [validSearchResult], ?_, nofun⟩
    intro witness hwitness
    obtain rfl := Option.some_inj.mp hwitness
    refine ⟨attack, final, hattack, hgoal, ?_, hlen, rfl, rfl, hshort⟩
    intro transition hmem
    simpa [searchContext] using mem_of_attack hattack transition hmem
  · rw [hresult]
    exact ⟨⟨nofun, fun h => absurd rfl h.1⟩, fun _ => hover, by simp [unsupportedSearchResult],
      nofun, nofun⟩
  · rw [hout, hwitness, hfailure]
    refine ⟨⟨nofun, ?_⟩, nofun, by simp, nofun, ?_⟩
    · rintro ⟨_, attack, hsat, hlen⟩
      exact absurd (hnone attack hsat) (Nat.not_lt.mpr hlen)
    · intro failure' hfailure'
      obtain rfl := Option.some_inj.mp hfailure'
      exact ⟨rfl, hall⟩

end Exact

/-! ## A run -/

def twoStepInput : AnalysisInput where
  transitions := [⟨"dump", "monotonic-additive/v1", ["shell"], ["data"], []⟩,
    ⟨"exploit", "monotonic-additive/v1", ["foothold"], ["shell"], []⟩]
  query := ⟨["foothold"], ["data"], ["monotonic-additive/v1"], 2⟩

example : ((search ⟨String.join, id⟩ twoStepInput).witness.map fun witness =>
    witness.steps.map ExploitPathStep.transitionId) = some ["exploit", "dump"] := by
  decide +kernel

end Raes.ExploitPath
