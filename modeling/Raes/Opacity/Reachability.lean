import Raes.Lib.Worklist
import Raes.Lib.Loop
import Raes.Opacity.TransitionModel

/-!
# The reachable fixed point

The breadth-first exploration of a transition model and the path that its parent
table gives to a state, after `participant_opacity/_model_check.py`.

The exploration keeps a breadth-first frontier, and the parent of a state is an
edge out of a state that is one step nearer.  A path read back along the parents
is therefore as long as the distance of its end.
-/

namespace Raes.Opacity

open BreadthFirst

/-! ## The exploration -/

/-- What the exploration has seen, how it came there, and what waits. -/
structure Exploration where
  visited : List ℕ
  parents : Dict ℕ (Option ModelTransition)
  queue : List ℕ
  exploredTransitions : List ModelTransition

def adjacency (request : ModelCheckInput) : Dict ℕ (List ModelTransition) :=
  Dict.collect ModelTransition.sourceStateOrdinal request.transitions

def initialExploration (request : ModelCheckInput) : Exploration where
  visited := request.initialStateOrdinals
  parents := request.initialStateOrdinals.foldl (fun parents o => parents.set o none) Dict.empty
  queue := request.initialStateOrdinals
  exploredTransitions := []

def followTransition (e : Exploration) (transition : ModelTransition) : Exploration :=
  let explored := e.exploredTransitions ++ [transition]
  let target := transition.targetStateOrdinal
  if target ∈ e.visited then { e with exploredTransitions := explored }
  else
    { visited := e.visited ++ [target]
      parents := e.parents.set target (some transition)
      queue := e.queue ++ [target]
      exploredTransitions := explored }

def exploreNext (adjacency : Dict ℕ (List ModelTransition)) (e : Exploration) :
    Exploration ⊕ Exploration :=
  match e.queue with
  | [] => .inl e
  | source :: rest =>
    .inr (((adjacency.get? source).getD []).foldl followTransition { e with queue := rest })

/-- One round takes one state from the queue, so a round for each declared state
and one more end the loop. -/
def reachableFixedPoint (request : ModelCheckInput) : Exploration :=
  match Loop.iterate (exploreNext (adjacency request)) (request.states.length + 1)
    (initialExploration request) with
  | .inl e => e
  | .inr e => e

def reachableStates (request : ModelCheckInput) : List ModelState :=
  statesAt request (sortedSet (reachableFixedPoint request).visited)

/-- One step back along the parents.  The ordinals of the edges are collected
from the end of the path. -/
def followParent (parents : Dict ℕ (Option ModelTransition)) (s : ℕ × List ℕ) :
    List ℕ ⊕ (ℕ × List ℕ) :=
  match parents.get? s.1 with
  | some (some transition) => .inr (transition.sourceStateOrdinal, s.2 ++ [transition.ordinal])
  | _ => .inl s.2.reverse

def counterexamplePath (actualStateOrdinal : ℕ) (parents : Dict ℕ (Option ModelTransition)) :
    List ℕ :=
  match Loop.iterate (followParent parents) (parents.keys.length + 1) (actualStateOrdinal, []) with
  | .inl path => path
  | .inr s => s.2.reverse

/-! ## Paths of the model -/

variable (request : ModelCheckInput)

def Edge (x y : ℕ) : Prop :=
  ∃ transition ∈ request.transitions,
    transition.sourceStateOrdinal = x ∧ transition.targetStateOrdinal = y

def Initial (x : ℕ) : Prop := x ∈ request.initialStateOrdinals

/-- A path of transition ordinals leads from one state to another. -/
def Leads (request : ModelCheckInput) : ℕ → List ℕ → ℕ → Prop
  | x, [], y => x = y
  | x, ordinal :: rest, y => ∃ transition, request.transitions[ordinal]? = some transition ∧
      transition.sourceStateOrdinal = x ∧ Leads request transition.targetStateOrdinal rest y

def Reachable (y : ℕ) : Prop :=
  ∃ x path, Initial request x ∧ Leads request x path y

theorem leads_append {request : ModelCheckInput} {x z : ℕ} {path rest : List ℕ} :
    Leads request x (path ++ rest) z ↔ ∃ y, Leads request x path y ∧ Leads request y rest z := by
  induction path generalizing x with
  | nil => simp [Leads]
  | cons ordinal path ih =>
    simp only [List.cons_append, Leads, ih]
    constructor
    · rintro ⟨transition, hget, hsource, y, hpath, hrest⟩
      exact ⟨y, ⟨transition, hget, hsource, hpath⟩, hrest⟩
    · rintro ⟨y, ⟨transition, hget, hsource, hpath⟩, hrest⟩
      exact ⟨transition, hget, hsource, y, hpath, hrest⟩

theorem leads_append_singleton {request : ModelCheckInput} {x : ℕ} {path : List ℕ}
    {transition : ModelTransition} {ordinal : ℕ}
    (hget : request.transitions[ordinal]? = some transition)
    (h : Leads request x path transition.sourceStateOrdinal) :
    Leads request x (path ++ [ordinal]) transition.targetStateOrdinal :=
  leads_append.mpr ⟨_, h, transition, hget, rfl, rfl⟩

theorem reaches_of_leads {request : ModelCheckInput} {x y : ℕ} {path : List ℕ} {n : ℕ}
    (hx : Reaches (Edge request) (Initial request) n x) (h : Leads request x path y) :
    Reaches (Edge request) (Initial request) (n + path.length) y := by
  induction path generalizing x n with
  | nil =>
    obtain rfl : x = y := h
    exact hx
  | cons ordinal rest ih =>
    obtain ⟨transition, hget, rfl, hrest⟩ := h
    have hstep := hx.step ⟨transition, List.mem_of_getElem? hget, rfl, rfl⟩
    rw [List.length_cons, Nat.add_comm rest.length 1, ← Nat.add_assoc]
    exact ih hstep hrest

theorem leads_of_reaches {request : ModelCheckInput} {y : ℕ} {n : ℕ}
    (h : Reaches (Edge request) (Initial request) n y) :
    ∃ x path, Initial request x ∧ Leads request x path y ∧ path.length = n := by
  induction h with
  | @start x hx => exact ⟨x, [], hx, rfl, rfl⟩
  | step _ hxy ih =>
    obtain ⟨x, path, hx, hpath, hlen⟩ := ih
    obtain ⟨transition, hmem, rfl, rfl⟩ := hxy
    obtain ⟨ordinal, hget⟩ := List.mem_iff_getElem?.mp hmem
    refine ⟨x, path ++ [ordinal], hx, leads_append_singleton hget hpath, ?_⟩
    rw [List.length_append, hlen, List.length_singleton]

theorem reachable_iff {request : ModelCheckInput} {y : ℕ} :
    Reachable request y ↔ ∃ n, Reaches (Edge request) (Initial request) n y := by
  constructor
  · rintro ⟨x, path, hx, hpath⟩
    exact ⟨_, reaches_of_leads (Reaches.start hx) hpath⟩
  · rintro ⟨n, hn⟩
    obtain ⟨x, path, hx, hpath, _⟩ := leads_of_reaches hn
    exact ⟨x, path, hx, hpath⟩

/-! ## The invariant of the exploration -/

/-- The parent of a state says how the exploration came there. -/
def ParentOf (parents : Dict ℕ (Option ModelTransition)) (y : ℕ) : Prop :=
  (parents.get? y = some none ∧ Initial request y) ∨
    ∃ transition n, parents.get? y = some (some transition) ∧
      transition ∈ request.transitions ∧ transition.targetStateOrdinal = y ∧
      Distance (Edge request) (Initial request) n transition.sourceStateOrdinal ∧
      Distance (Edge request) (Initial request) (n + 1) y

structure Explored (request : ModelCheckInput) (Owed : ℕ → ℕ → Prop) (level : ℕ)
    (e : Exploration) : Prop where
  frontier : Frontier (Edge request) (Initial request) Owed level {x | x ∈ e.visited} e.queue
  nodup : e.visited.Nodup
  declared : ∀ x ∈ e.visited, x < request.states.length
  parents : ∀ x ∈ e.visited, ParentOf request e.parents x
  keys : ∀ x ∈ e.visited, x ∈ e.parents.keys

/-- How many rounds the loop can still take. -/
def Exploration.rounds (e : Exploration) : ℕ :=
  e.queue.length + (request.states.length - e.visited.length)

theorem Explored.length_le {request : ModelCheckInput} {Owed : ℕ → ℕ → Prop} {level : ℕ}
    {e : Exploration} (h : Explored request Owed level e) :
    e.visited.length ≤ request.states.length := by
  have hsub : e.visited ⊆ List.range request.states.length := by
    intro x hx
    exact List.mem_range.mpr (h.declared x hx)
  simpa using (List.subperm_of_subset h.nodup hsub).length_le

theorem initial_parents (ordinals : List ℕ) (parents : Dict ℕ (Option ModelTransition)) (x : ℕ) :
    (ordinals.foldl (fun parents o => parents.set o none) parents).get? x =
      if x ∈ ordinals then some none else parents.get? x := by
  induction ordinals generalizing parents with
  | nil => simp
  | cons o rest ih =>
    rw [List.foldl_cons, ih, Dict.get?_set]
    by_cases hrest : x ∈ rest
    · simp [hrest]
    · by_cases hx : x = o <;> simp [hrest, hx]

theorem explored_initial (request : ValidatedInput) :
    Explored request.toModelCheckInput (fun _ _ => False) 0
      (initialExploration request.toModelCheckInput) := by
  have hparent : ∀ x ∈ request.initialStateOrdinals,
      (initialExploration request.toModelCheckInput).parents.get? x = some none := by
    intro x hx
    rw [initialExploration, initial_parents, if_pos hx]
  refine ⟨frontier_start fun _ => Iff.rfl, request.initial_nodup, ?_, ?_, ?_⟩
  · exact fun x hx => request.initial_lt hx
  · exact fun x hx => Or.inl ⟨hparent x hx, hx⟩
  · exact fun x hx => Dict.mem_keys_iff.mpr ⟨none, hparent x hx⟩

section Follow

variable {request : ValidatedInput} {e : Exploration} {level source : ℕ}

/-- The edges that are owed while the edges out of one state are followed. -/
def Pending (source : ℕ) (todo : List ModelTransition) (x y : ℕ) : Prop :=
  x = source ∧ ∃ transition ∈ todo, transition.targetStateOrdinal = y

theorem explored_followTransition {transition : ModelTransition} {todo : List ModelTransition}
    (h : Explored request.toModelCheckInput (Pending source (transition :: todo)) level e)
    (hsource : Distance (Edge request.toModelCheckInput) (Initial request.toModelCheckInput) level
      source)
    (hmem : transition ∈ request.transitions) (hfrom : transition.sourceStateOrdinal = source) :
    Explored request.toModelCheckInput (Pending source todo) level
        (followTransition e transition) ∧
      (followTransition e transition).rounds request.toModelCheckInput =
        e.rounds request.toModelCheckInput := by
  have hpay : ∀ {seen : Set ℕ}, transition.targetStateOrdinal ∈ seen → ∀ x y,
      Pending source (transition :: todo) x y → y ∈ seen ∨ Pending source todo x y := by
    intro seen hseen x y hxy
    obtain ⟨rfl, u, hu, rfl⟩ := hxy
    rcases List.mem_cons.mp hu with rfl | hu
    · exact Or.inl hseen
    · exact Or.inr ⟨rfl, u, hu, rfl⟩
  by_cases hvisited : transition.targetStateOrdinal ∈ e.visited
  · rw [followTransition]
    simp only [if_pos hvisited]
    exact ⟨⟨h.frontier.owe (hpay hvisited), h.nodup, h.declared, h.parents, h.keys⟩, rfl⟩
  · have hdisc := h.frontier.discover (fun u v n howe hn => hsource.2 n (howe.1 ▸ hn)) hsource
      (⟨transition, hmem, hfrom, rfl⟩ : Edge request.toModelCheckInput source
        transition.targetStateOrdinal) hvisited
    have hnew : Explored request.toModelCheckInput (Pending source todo) level
        (followTransition e transition) := by
      rw [followTransition]
      simp only [if_neg hvisited]
      refine ⟨?_, ?_, ?_, ?_, ?_⟩
      · have hset : {x | x ∈ e.visited ++ [transition.targetStateOrdinal]} =
            insert transition.targetStateOrdinal {x | x ∈ e.visited} := by
          ext x
          simp [or_comm]
        show Frontier _ _ _ _ {x | x ∈ e.visited ++ [transition.targetStateOrdinal]} _
        rw [hset]
        exact hdisc.2.owe (hpay (Set.mem_insert _ _))
      · exact h.nodup.append (List.nodup_singleton _) (List.disjoint_singleton.mpr hvisited)
      · intro x hx
        rcases List.mem_append.mp hx with hx | hx
        · exact h.declared x hx
        · rw [List.mem_singleton.mp hx]
          exact request.target_lt hmem
      · intro x hx
        by_cases hxt : x = transition.targetStateOrdinal
        · subst hxt
          refine Or.inr ⟨transition, level, ?_, hmem, rfl, ?_, hdisc.1⟩
          · rw [Dict.get?_set, if_pos rfl]
          · rw [hfrom]
            exact hsource
        · have hx' : x ∈ e.visited := by simpa [hxt] using hx
          unfold ParentOf
          rw [Dict.get?_set_ne _ _ hxt]
          exact h.parents x hx'
      · intro x hx
        rw [Dict.mem_keys_set]
        rcases List.mem_append.mp hx with hx | hx
        · exact Or.inr (h.keys x hx)
        · exact Or.inl (List.mem_singleton.mp hx)
    refine ⟨hnew, ?_⟩
    have hroom := hnew.length_le
    rw [followTransition] at hroom ⊢
    simp only [if_neg hvisited, Exploration.rounds, List.length_append, List.length_singleton]
      at hroom ⊢
    omega

theorem explored_foldl {todo : List ModelTransition}
    (h : Explored request.toModelCheckInput (Pending source todo) level e)
    (hsource : Distance (Edge request.toModelCheckInput) (Initial request.toModelCheckInput) level
      source)
    (htodo : ∀ transition ∈ todo,
      transition ∈ request.transitions ∧ transition.sourceStateOrdinal = source) :
    Explored request.toModelCheckInput (fun _ _ => False) level (todo.foldl followTransition e) ∧
      (todo.foldl followTransition e).rounds request.toModelCheckInput =
        e.rounds request.toModelCheckInput := by
  induction todo generalizing e with
  | nil =>
    refine ⟨⟨h.frontier.owe ?_, h.nodup, h.declared, h.parents, h.keys⟩, rfl⟩
    rintro x y ⟨_, transition, hmem, _⟩
    exact absurd hmem List.not_mem_nil
  | cons transition rest ih =>
    have hhead := htodo transition List.mem_cons_self
    have hone := explored_followTransition h hsource hhead.1 hhead.2
    have hrest := ih hone.1 fun t ht => htodo t (List.mem_cons_of_mem _ ht)
    exact ⟨hrest.1, hrest.2.trans hone.2⟩

theorem explored_round (h : Explored request.toModelCheckInput (fun _ _ => False) level e) :
    Loop.Round (exploreNext (adjacency request.toModelCheckInput))
      (fun e => ∃ level, Explored request.toModelCheckInput (fun _ _ => False) level e)
      (Exploration.rounds request.toModelCheckInput)
      (fun e => e.queue = [] ∧
        ∃ level, Explored request.toModelCheckInput (fun _ _ => False) level e) e := by
  cases hqueue : e.queue with
  | nil =>
    refine Or.inl ⟨e, ?_, hqueue, level, h⟩
    rw [exploreNext, hqueue]
  | cons source rest =>
    have hfrontier := h.frontier
    rw [hqueue] at hfrontier
    obtain ⟨n, _, hdist, hpop⟩ := hfrontier.pop
    have hadj : ((adjacency request.toModelCheckInput).get? source).getD [] =
        request.transitions.filter fun t => decide (t.sourceStateOrdinal = source) :=
      Dict.getD_collect _ _ _
    have hpending : Explored request.toModelCheckInput
        (Pending source (((adjacency request.toModelCheckInput).get? source).getD [])) n
        { e with queue := rest } := by
      refine ⟨hpop.owe ?_, h.nodup, h.declared, h.parents, h.keys⟩
      rintro x y (hno | ⟨rfl, transition, hmem, hfrom, hto⟩)
      · exact hno.elim
      · refine Or.inr ⟨rfl, transition, ?_, hto⟩
        rw [hadj, List.mem_filter]
        exact ⟨hmem, decide_eq_true hfrom⟩
    have hfold := explored_foldl hpending hdist (by
      intro transition hmem
      rw [hadj, List.mem_filter] at hmem
      exact ⟨hmem.1, of_decide_eq_true hmem.2⟩)
    refine Or.inr ⟨_, ?_, ⟨n, hfold.1⟩, ?_⟩
    · rw [exploreNext, hqueue]
    · rw [hfold.2]
      simp only [Exploration.rounds, hqueue, List.length_cons]
      omega

end Follow

section FixedPoint

variable (request : ValidatedInput)

theorem reachableFixedPoint_explored :
    (reachableFixedPoint request.toModelCheckInput).queue = [] ∧
      ∃ level, Explored request.toModelCheckInput (fun _ _ => False) level
        (reachableFixedPoint request.toModelCheckInput) := by
  have hrounds : (initialExploration request.toModelCheckInput).rounds request.toModelCheckInput <
      request.states.length + 1 := by
    have hle := (explored_initial request).length_le
    simp only [Exploration.rounds, initialExploration] at hle ⊢
    omega
  obtain ⟨e, hrun, he⟩ := Loop.iterate_total
    (fun e (he : ∃ level, Explored request.toModelCheckInput (fun _ _ => False) level e) =>
      explored_round he.choose_spec) ⟨0, explored_initial request⟩ hrounds
  rw [reachableFixedPoint, hrun]
  exact he

theorem mem_visited_iff (x : ℕ) :
    x ∈ (reachableFixedPoint request.toModelCheckInput).visited ↔
      Reachable request.toModelCheckInput x := by
  obtain ⟨hqueue, level, h⟩ := reachableFixedPoint_explored request
  have hfrontier := h.frontier
  rw [hqueue] at hfrontier
  rw [reachable_iff]
  exact hfrontier.mem_seen_iff x

theorem mem_reachableStates_iff (state : ModelState) :
    state ∈ reachableStates request.toModelCheckInput ↔
      state ∈ request.states ∧ Reachable request.toModelCheckInput state.ordinal := by
  rw [reachableStates, statesAt, List.mem_filterMap]
  simp only [mem_sortedSet, mem_visited_iff]
  constructor
  · rintro ⟨x, hx, hget⟩
    rw [request.ordinal_of_getElem? hget]
    exact ⟨List.mem_of_getElem? hget, hx⟩
  · rintro ⟨hmem, hreach⟩
    obtain ⟨i, hi⟩ := List.mem_iff_getElem?.mp hmem
    have hord : state.ordinal = i := request.ordinal_of_getElem? hi
    exact ⟨state.ordinal, hreach, by rw [hord]; exact hi⟩

/-! ## Paths along the parents -/

theorem followParent_path {n : ℕ} {y : ℕ} {fuel : ℕ} (rest : List ℕ) {z : ℕ}
    (hy : Distance (Edge request.toModelCheckInput) (Initial request.toModelCheckInput) n y)
    (hfuel : n < fuel) (hrest : Leads request.toModelCheckInput y rest.reverse z) :
    ∃ path x, Loop.iterate (followParent (reachableFixedPoint request.toModelCheckInput).parents)
        fuel (y, rest) = .inl path ∧ Initial request.toModelCheckInput x ∧
      Leads request.toModelCheckInput x path z ∧ path.length = n + rest.length := by
  obtain ⟨_, level, h⟩ := reachableFixedPoint_explored request
  obtain ⟨fuel, rfl⟩ : ∃ k, fuel = k + 1 := ⟨fuel - 1, by omega⟩
  induction n generalizing y rest fuel with
  | zero =>
    have hvisited := (mem_visited_iff request y).mpr (reachable_iff.mpr ⟨0, hy.1⟩)
    rcases h.parents y hvisited with ⟨hnone, hinit⟩ | ⟨transition, m, _, _, _, _, hdist⟩
    · refine ⟨rest.reverse, y, ?_, hinit, hrest, by simp⟩
      rw [Loop.iterate, followParent]
      simp only [hnone]
    · exact absurd (hy.unique hdist) (by omega)
  | succ n ih =>
    have hvisited := (mem_visited_iff request y).mpr (reachable_iff.mpr ⟨n + 1, hy.1⟩)
    rcases h.parents y hvisited with ⟨_, hinit⟩ | ⟨transition, m, hget, hmem, rfl, hsource, hdist⟩
    · have := hy.2 0 (Reaches.start hinit)
      omega
    · obtain rfl : n = m := by
        have := hy.unique hdist
        omega
      have hordinal : request.transitions[transition.ordinal]? = some transition := by
        obtain ⟨i, hi⟩ := List.mem_iff_getElem?.mp hmem
        rw [request.transition_ordinal_of_getElem? hi]
        exact hi
      obtain ⟨fuel, rfl⟩ : ∃ k, fuel = k + 1 := ⟨fuel - 1, by omega⟩
      have hlonger : Leads request.toModelCheckInput transition.sourceStateOrdinal
          (rest ++ [transition.ordinal]).reverse z := by
        rw [List.reverse_append, List.reverse_singleton]
        exact ⟨transition, hordinal, rfl, hrest⟩
      obtain ⟨path, x, hpath, hx, hleads, hlen⟩ := ih _ hsource hlonger fuel (by omega)
      refine ⟨path, x, ?_, hx, hleads, ?_⟩
      · rw [Loop.iterate, followParent]
        simp only [hget]
        exact hpath
      · rw [hlen, List.length_append, List.length_singleton]
        omega

theorem counterexamplePath_shortest {y : ℕ} (hy : Reachable request.toModelCheckInput y) :
    (∃ x, Initial request.toModelCheckInput x ∧ Leads request.toModelCheckInput x
        (counterexamplePath y (reachableFixedPoint request.toModelCheckInput).parents) y) ∧
      ∀ x path, Initial request.toModelCheckInput x → Leads request.toModelCheckInput x path y →
        (counterexamplePath y (reachableFixedPoint request.toModelCheckInput).parents).length ≤
          path.length := by
  obtain ⟨_, level, h⟩ := reachableFixedPoint_explored request
  obtain ⟨n, hn⟩ := h.frontier.seen_reached y ((mem_visited_iff request y).mpr hy)
  have hfuel : n < (reachableFixedPoint request.toModelCheckInput).parents.keys.length := by
    refine hn.lt_length ?_
    intro z m hz
    exact h.keys z ((mem_visited_iff request z).mpr (reachable_iff.mpr ⟨m, hz⟩))
  obtain ⟨path, x, hpath, hx, hleads, hlen⟩ :=
    followParent_path request [] hn (Nat.lt_succ_of_lt hfuel) (rfl : y = y)
  have heq : counterexamplePath y (reachableFixedPoint request.toModelCheckInput).parents = path := by
    rw [counterexamplePath, hpath]
  rw [heq]
  refine ⟨⟨x, hx, hleads⟩, ?_⟩
  intro x' path' hx' hpath'
  have hmin := hn.2 _ (reaches_of_leads (Reaches.start hx') hpath')
  rw [hlen]
  simpa using hmin

end FixedPoint

end Raes.Opacity
