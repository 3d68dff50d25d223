import Raes.Lib.Loop
import Raes.Lib.Totals
import Raes.Orchestration.WorkflowChecks

/-!
# The convergence of parallel branches

`_all_paths_reach_join` with its memo and its set of visited steps, and the loop of
`branch_closure` with its stack, as the source runs them.  They are compared with the
paths of the graph: a branch converges when every maximal path passes through the join,
and the closure of the branches is what their paths reach before the join.
-/

namespace Raes.Orchestration

open Graph

section Traversals

variable (graph : Dict String (List String)) (join : String)

/-! ## The recursion -/

/-- The memo and the set of steps that the recursion is visiting. -/
structure PathSearch where
  memo : Dict String Bool
  visiting : List String

/-- `all(...)` over a generator: it stops at the first step that fails the check. -/
def allSuccessors (check : String → PathSearch → Bool × PathSearch) :
    List String → PathSearch → Bool × PathSearch
  | [], search => (true, search)
  | successor :: rest, search =>
    match check successor search with
    | (true, search) => allSuccessors check rest search
    | (false, search) => (false, search)

/-- `_all_paths_reach_join`.  The fuel bounds the depth of the recursion. -/
def searchPaths : ℕ → String → PathSearch → Bool × PathSearch
  | 0, _, search => (false, search)
  | fuel + 1, node, search =>
    if node = join then (true, search)
    else
      let search :=
        if search.memo.contains node = false ∧ node ∉ search.visiting then
          let successors := successorsOf graph node
          let (reached, search) := allSuccessors (searchPaths fuel) successors
            { search with visiting := node :: search.visiting }
          { memo := search.memo.set node (!successors.isEmpty && reached)
            visiting := search.visiting.filter (· ≠ node) }
        else search
      ((search.memo.get? node).getD false, search)

/-- The recursion as the verifier starts it. -/
def allPathsReachJoinMemo (node : String) : Bool :=
  (searchPaths graph join (graph.keys.length + 1) node ⟨Dict.empty, []⟩).1

/-! ## The stack -/

/-- The closure so far, and the stack with its top in front. -/
structure ClosureSearch where
  (closure stack : List String)

def closureRound (search : ClosureSearch) : List String ⊕ ClosureSearch :=
  match search.stack with
  | [] => .inl search.closure
  | node :: rest =>
    if node = join ∨ node ∈ search.closure then .inr { search with stack := rest }
    else .inr
      { closure := search.closure ++ [node]
        stack := ((successorsOf graph node).filter (· ≠ join)).reverse ++ rest }

/-- The rounds that the loop can still take: the stack, and the edges out of the keys
that are not in the closure. -/
def ClosureSearch.rounds (search : ClosureSearch) : ℕ :=
  search.stack.length +
    graph.total fun node successors => if node ∈ search.closure then 0 else successors.length

/-- `branch_closure` -/
def branchClosureStack (branches : List String) : List String :=
  let start : ClosureSearch := ⟨[], branches.reverse⟩
  match Loop.iterate (closureRound graph join) (start.rounds graph + 1) start with
  | .inl closure => closure
  | .inr search => search.closure

end Traversals

/-! ## Paths -/

variable (graph : Dict String (List String))

def IsPath (path : List String) : Prop :=
  path.IsChain fun a b => b ∈ successorsOf graph a

structure MaximalPath (graph : Dict String (List String)) (node : String) (path : List String) :
    Prop where
  start : path.head? = some node
  isPath : IsPath graph path
  last : ∀ last, path.getLast? = some last → successorsOf graph last = []

def Converges (join node : String) : Prop :=
  ∀ path, MaximalPath graph node path → join ∈ path

/-- Some path from a branch that does not pass through the join ends at the step. -/
def ReachesBefore (join : String) (branches : List String) (step : String) : Prop :=
  ∃ path, IsPath graph path ∧ (∃ branch ∈ branches, path.head? = some branch) ∧
    path.getLast? = some step ∧ join ∉ path

section Paths

variable {graph : Dict String (List String)} {join node : String} {path : List String}

theorem maximalPath_singleton (h : successorsOf graph node = []) :
    MaximalPath graph node [node] := by
  refine ⟨rfl, List.isChain_singleton node, ?_⟩
  intro last hlast
  rw [← Option.some.inj hlast]
  exact h

theorem MaximalPath.cons {next : String} (h : MaximalPath graph next path)
    (hnext : next ∈ successorsOf graph node) : MaximalPath graph node (node :: path) := by
  obtain ⟨hstart, hpath, hlast⟩ := h
  cases path with
  | nil => cases hstart
  | cons first rest =>
    obtain rfl : first = next := Option.some.inj hstart
    refine ⟨rfl, List.isChain_cons_cons.mpr ⟨hnext, hpath⟩, ?_⟩
    intro last h
    rw [List.getLast?_cons_cons] at h
    exact hlast last h

theorem MaximalPath.cases (h : MaximalPath graph node path) :
    successorsOf graph node = [] ∧ path = [node] ∨
      ∃ next ∈ successorsOf graph node, ∃ rest, MaximalPath graph next rest ∧
        path = node :: rest := by
  obtain ⟨hstart, hpath, hlast⟩ := h
  cases path with
  | nil => cases hstart
  | cons first rest =>
    obtain rfl : first = node := Option.some.inj hstart
    cases rest with
    | nil => exact Or.inl ⟨hlast first rfl, rfl⟩
    | cons next rest =>
      obtain ⟨hnext, hrest⟩ := List.isChain_cons_cons.mp hpath
      refine Or.inr ⟨next, hnext, next :: rest, ⟨rfl, hrest, ?_⟩, rfl⟩
      intro last h
      apply hlast last
      rw [List.getLast?_cons_cons]
      exact h

theorem converges_join : Converges graph join join := by
  intro path hpath
  exact List.mem_of_mem_head? hpath.start

theorem converges_iff (hne : node ≠ join) :
    Converges graph join node ↔
      successorsOf graph node ≠ [] ∧ ∀ next ∈ successorsOf graph node, Converges graph join next := by
  constructor
  · intro h
    refine ⟨?_, ?_⟩
    · intro hleaf
      have hmem := h [node] (maximalPath_singleton hleaf)
      exact hne (List.mem_singleton.mp hmem).symm
    · intro next hnext path hpath
      have hmem := h (node :: path) (hpath.cons hnext)
      exact (List.mem_cons.mp hmem).resolve_left fun heq => hne heq.symm
  · intro h path hpath
    rcases hpath.cases with ⟨hleaf, -⟩ | ⟨next, hnext, rest, hrest, rfl⟩
    · exact absurd hleaf h.1
    · exact List.mem_cons_of_mem _ (h.2 next hnext rest hrest)

end Paths

section Recursion

variable {graph : Dict String (List String)} {join : String}

theorem edge_iff_mem_successorsOf {a b : String} : Edge graph a b ↔ b ∈ successorsOf graph a := by
  unfold Edge successorsOf
  cases graph.get? a with
  | none => simp
  | some adjacent => simp

/-- The memo holds what is true of the paths. -/
def MemoSound (graph : Dict String (List String)) (join : String) (memo : Dict String Bool) :
    Prop :=
  ∀ node reached, memo.get? node = some reached → (reached = true ↔ Converges graph join node)

/-- A check that answers for a step by its paths, leaves a sound memo and leaves the set of
visited steps as it was. -/
def Answers (graph : Dict String (List String)) (join node : String) (search : PathSearch)
    (result : Bool × PathSearch) : Prop :=
  (result.1 = true ↔ Converges graph join node) ∧ MemoSound graph join result.2.memo ∧
    result.2.visiting = search.visiting

theorem allSuccessors_answers {check : String → PathSearch → Bool × PathSearch}
    {visiting : List String} (successors : List String)
    (hcheck : ∀ next ∈ successors, ∀ search, MemoSound graph join search.memo →
      search.visiting = visiting → Answers graph join next search (check next search))
    (search : PathSearch) (hmemo : MemoSound graph join search.memo)
    (hvisiting : search.visiting = visiting) :
    ((allSuccessors check successors search).1 = true ↔
      ∀ next ∈ successors, Converges graph join next) ∧
    MemoSound graph join (allSuccessors check successors search).2.memo ∧
    (allSuccessors check successors search).2.visiting = visiting := by
  induction successors generalizing search with
  | nil => exact ⟨by simp [allSuccessors], hmemo, hvisiting⟩
  | cons next rest ih =>
    have hnext := hcheck next List.mem_cons_self search hmemo hvisiting
    rw [List.forall_mem_cons]
    cases hresult : check next search with
    | mk reached search' =>
      rw [hresult] at hnext
      obtain ⟨hreached, hmemo', hvisiting'⟩ := hnext
      cases reached with
      | true =>
        have hrest := ih (fun y hy => hcheck y (List.mem_cons_of_mem _ hy)) search' hmemo'
          (hvisiting'.trans hvisiting)
        have hconverges := hreached.mp rfl
        simp only [allSuccessors, hresult]
        refine ⟨?_, hrest.2⟩
        rw [hrest.1]
        exact ⟨fun h => ⟨hconverges, h⟩, fun h => h.2⟩
      | false =>
        have hconverges : ¬ Converges graph join next := fun h => nomatch hreached.mpr h
        simp only [allSuccessors, hresult]
        refine ⟨?_, hmemo', hvisiting'.trans hvisiting⟩
        exact iff_of_false (fun h => nomatch h) fun h => hconverges h.1

theorem MemoSound.set {memo : Dict String Bool} (h : MemoSound graph join memo) {node : String}
    {reached : Bool} (hreached : reached = true ↔ Converges graph join node) :
    MemoSound graph join (memo.set node reached) := by
  intro other value hvalue
  rw [Dict.get?_set] at hvalue
  by_cases hother : other = node
  · rw [if_pos hother] at hvalue
    rw [hother, ← Option.some.inj hvalue]
    exact hreached
  · rw [if_neg hother] at hvalue
    exact h other value hvalue

theorem searchPaths_succ {fuel : ℕ} {node : String} {search : PathSearch}
    (hmemo : MemoSound graph join search.memo) (hnode : node ∉ search.visiting)
    (hsuccessors : ∀ next ∈ successorsOf graph node, ∀ inner : PathSearch,
      MemoSound graph join inner.memo → inner.visiting = node :: search.visiting →
      Answers graph join next inner (searchPaths graph join fuel next inner)) :
    Answers graph join node search (searchPaths graph join (fuel + 1) node search) := by
  rw [searchPaths]
  by_cases hjoin : node = join
  · rw [if_pos hjoin, hjoin]
    exact ⟨iff_of_true rfl converges_join, hmemo, rfl⟩
  · rw [if_neg hjoin]
    by_cases hknown : search.memo.contains node = false
    · obtain ⟨hreached, hinner, hrestored⟩ := allSuccessors_answers (successorsOf graph node)
        hsuccessors { search with visiting := node :: search.visiting } hmemo rfl
      have hentry : (!(successorsOf graph node).isEmpty &&
          (allSuccessors (searchPaths graph join fuel) (successorsOf graph node)
            { search with visiting := node :: search.visiting }).1) = true ↔
          Converges graph join node := by
        rw [Bool.and_eq_true, hreached, converges_iff hjoin]
        simp
      simp only [if_pos (And.intro hknown hnode)]
      refine ⟨?_, hinner.set hentry, ?_⟩
      · rw [Dict.get?_set, if_pos rfl]
        exact hentry
      · have hothers : ∀ visited ∈ search.visiting, visited ≠ node := by
          intro visited hvisited heq
          exact hnode (heq ▸ hvisited)
        rw [hrestored]
        simpa using hothers
    · simp only [if_neg (fun h : _ ∧ _ => hknown h.1)]
      obtain ⟨reached, hget⟩ : ∃ reached, search.memo.get? node = some reached := by
        apply Dict.mem_keys_iff.mp
        apply Dict.contains_iff.mp
        simpa using hknown
      refine ⟨?_, hmemo, rfl⟩
      rw [hget]
      exact hmemo node reached hget

section

variable (hacyclic : ∀ x, ¬ Relation.TransGen (Edge graph) x x)
include hacyclic

/-- In a graph without a cycle the recursion answers by the paths.  No visited step comes
up again, because every visited step leads to the present one. -/
theorem searchPaths_answers (fuel : ℕ)
    (node : String) (search : PathSearch) (hfuel : walks graph fuel node = false)
    (hmemo : MemoSound graph join search.memo)
    (hvisiting : ∀ visited ∈ search.visiting, Relation.TransGen (Edge graph) visited node) :
    Answers graph join node search (searchPaths graph join (fuel + 1) node search) := by
  have hnode : node ∉ search.visiting := fun hmem => hacyclic node (hvisiting node hmem)
  induction fuel generalizing node search with
  | zero =>
    apply searchPaths_succ hmemo hnode
    intro next hnext
    obtain ⟨adjacent, hadjacent, -⟩ := edge_iff_mem_successorsOf.mpr hnext
    have hkey := Dict.contains_iff.mpr
      (Dict.mem_keys_iff.mpr ⟨adjacent, hadjacent⟩)
    rw [walks, hkey] at hfuel
    cases hfuel
  | succ fuel ih =>
    apply searchPaths_succ hmemo hnode
    intro next hnext inner hinner hentered
    have hedge := edge_iff_mem_successorsOf.mpr hnext
    have hwalk : walks graph fuel next = false := by
      rw [Bool.eq_false_iff]
      intro hwalk
      rw [(walks_succ_iff fuel node).mpr ⟨next, hedge, hwalk⟩] at hfuel
      cases hfuel
    have hvisited : ∀ visited ∈ inner.visiting, Relation.TransGen (Edge graph) visited next := by
      rw [hentered, List.forall_mem_cons]
      exact ⟨Relation.TransGen.single hedge, fun visited hmem => (hvisiting visited hmem).tail hedge⟩
    exact ih next inner hwalk hinner hvisited fun hmem => hacyclic next (hvisited next hmem)

theorem allPathsReachJoinMemo_iff (node : String) :
    allPathsReachJoinMemo graph join node = true ↔ Converges graph join node := by
  have hcycle : hasCycle graph = false := by
    rw [Bool.eq_false_iff]
    intro h
    obtain ⟨x, hx⟩ := (hasCycle_iff graph).mp h
    exact hacyclic x hx
  exact (searchPaths_answers hacyclic graph.keys.length node ⟨Dict.empty, []⟩
    (walks_eq_false hcycle (Nat.le_refl _) node) nofun nofun).1

/-- The check that carries the visited steps and no memo answers by the paths as well. -/
theorem allPathsReachJoin_iff (fuel : ℕ)
    (visiting : List String) (node : String) (hfuel : walks graph fuel node = false)
    (hvisiting : ∀ visited ∈ visiting, Relation.TransGen (Edge graph) visited node) :
    allPathsReachJoin graph join fuel visiting node = true ↔ Converges graph join node := by
  induction fuel generalizing visiting node with
  | zero =>
    rw [allPathsReachJoin, beq_iff_eq]
    by_cases hjoin : node = join
    · rw [hjoin]
      exact iff_of_true rfl converges_join
    · have hleaf : successorsOf graph node = [] := by
        rw [walks, Dict.contains, Option.isSome_eq_false_iff, Option.isNone_iff_eq_none] at hfuel
        unfold successorsOf
        rw [hfuel]
        rfl
      rw [converges_iff hjoin]
      exact iff_of_false hjoin fun h => h.1 hleaf
  | succ fuel ih =>
    have hnode : node ∉ visiting := fun hmem => hacyclic node (hvisiting node hmem)
    rw [allPathsReachJoin]
    by_cases hjoin : node = join
    · rw [if_pos hjoin, hjoin]
      exact iff_of_true rfl converges_join
    · rw [if_neg hjoin, if_neg hnode, converges_iff hjoin, Bool.and_eq_true, List.all_eq_true]
      apply and_congr
      · simp
      · apply forall₂_congr
        intro next hnext
        have hedge := edge_iff_mem_successorsOf.mpr hnext
        apply ih
        · rw [Bool.eq_false_iff]
          intro hwalk
          rw [(walks_succ_iff fuel node).mpr ⟨next, hedge, hwalk⟩] at hfuel
          cases hfuel
        · rw [List.forall_mem_cons]
          exact ⟨Relation.TransGen.single hedge,
            fun visited hmem => (hvisiting visited hmem).tail hedge⟩

end

end Recursion

section Stack

variable {graph : Dict String (List String)} {join : String} {branches : List String}

theorem reachesBefore_branch {branch : String} (hbranch : branch ∈ branches)
    (hne : branch ≠ join) : ReachesBefore graph join branches branch := by
  refine ⟨[branch], List.isChain_singleton branch, ⟨branch, hbranch, rfl⟩, rfl, ?_⟩
  rw [List.mem_singleton]
  exact hne.symm

theorem ReachesBefore.step {node next : String} (h : ReachesBefore graph join branches node)
    (hnext : next ∈ successorsOf graph node) (hne : next ≠ join) :
    ReachesBefore graph join branches next := by
  obtain ⟨path, hpath, ⟨branch, hbranch, hhead⟩, hlast, hjoin⟩ := h
  refine ⟨path ++ [next], ?_, ⟨branch, hbranch, ?_⟩, List.getLast?_concat, ?_⟩
  · apply List.IsChain.append hpath (List.isChain_singleton next)
    intro last hmem first hfirst
    rw [hlast] at hmem
    rw [← Option.some.inj hmem, ← Option.some.inj hfirst]
    exact hnext
  · rw [List.head?_append, hhead]
    rfl
  · rw [List.mem_append, List.mem_singleton, not_or]
    exact ⟨hjoin, hne.symm⟩

/-- A set that holds the branches and is closed under the edges that do not lead to the join
holds what the branches reach before the join. -/
theorem mem_of_reachesBefore {S : String → Prop}
    (hbranches : ∀ branch ∈ branches, branch ≠ join → S branch)
    (hclosed : ∀ node, S node → ∀ next ∈ successorsOf graph node, next ≠ join → S next)
    {step : String} (h : ReachesBefore graph join branches step) : S step := by
  obtain ⟨path, hpath, ⟨branch, hbranch, hhead⟩, hlast, hjoin⟩ := h
  have hall : ∀ (rest : List String) (first : String), IsPath graph (first :: rest) →
      join ∉ first :: rest → S first → ∀ last, (first :: rest).getLast? = some last → S last := by
    intro rest
    induction rest with
    | nil =>
      intro first _ _ hfirst last hlast
      rw [← Option.some.inj hlast]
      exact hfirst
    | cons second rest ih =>
      intro first hpath hjoin hfirst last hlast
      obtain ⟨hedge, hrest⟩ := List.isChain_cons_cons.mp hpath
      have hjoin' : join ∉ second :: rest := fun hmem => hjoin (List.mem_cons_of_mem _ hmem)
      have hne : second ≠ join := fun heq => hjoin' (heq ▸ List.mem_cons_self)
      rw [List.getLast?_cons_cons] at hlast
      exact ih second hrest hjoin' (hclosed first hfirst second hedge hne) last hlast
  cases path with
  | nil => cases hhead
  | cons first rest =>
    obtain rfl : first = branch := Option.some.inj hhead
    have hne : first ≠ join := fun heq => hjoin (heq ▸ List.mem_cons_self)
    exact hall rest first hpath hjoin (hbranches first hbranch hne) step hlast

/-- What the loop keeps: the closure and the stack hold steps that the branches reach before
the join, and what the closure leads to is in one of them. -/
structure Closing (graph : Dict String (List String)) (join : String) (branches : List String)
    (search : ClosureSearch) : Prop where
  closure : ∀ node ∈ search.closure, ReachesBefore graph join branches node
  stack : ∀ node ∈ search.stack, node ≠ join → ReachesBefore graph join branches node
  starts : ∀ branch ∈ branches, branch ≠ join → branch ∈ search.closure ∨ branch ∈ search.stack
  followed : ∀ node ∈ search.closure, ∀ next ∈ successorsOf graph node, next ≠ join →
    next ∈ search.closure ∨ next ∈ search.stack

theorem rounds_add {search : ClosureSearch} {node : String} {rest : List String}
    (hstack : search.stack = node :: rest) (hnode : node ∉ search.closure) :
    ClosureSearch.rounds graph
      { closure := search.closure ++ [node]
        stack := ((successorsOf graph node).filter (· ≠ join)).reverse ++ rest } <
      search.rounds graph := by
  have hpushed : ((successorsOf graph node).filter (· ≠ join)).length ≤
      (successorsOf graph node).length := List.length_filter_le _ _
  have hedges : (graph.total fun k successors =>
        if k ∈ search.closure ++ [node] then 0 else successors.length) +
      (successorsOf graph node).length =
      graph.total fun k successors => if k ∈ search.closure then 0 else successors.length := by
    have hsame : ∀ k v, (graph.erase node).get? k = some v →
        (if k ∈ search.closure ++ [node] then 0 else v.length) =
          if k ∈ search.closure then 0 else v.length := by
      intro k v hk
      have hne : k ≠ node := by
        intro heq
        rw [Dict.get?_erase, if_pos heq] at hk
        cases hk
      simp [hne]
    cases hget : graph.get? node with
    | none =>
      have hsucc : successorsOf graph node = [] := by
        unfold successorsOf
        rw [hget]
        rfl
      rw [hsucc, List.length_nil, Nat.add_zero]
      apply Dict.total_congr
      intro k v hk
      apply hsame k v
      have hne : k ≠ node := by
        intro heq
        rw [heq, hget] at hk
        cases hk
      rw [Dict.get?_erase, if_neg hne]
      exact hk
    | some successors =>
      have hsucc : successorsOf graph node = successors := by
        unfold successorsOf
        rw [hget]
        rfl
      rw [Dict.total_eq_add_erase hget, Dict.total_eq_add_erase hget, Dict.total_congr hsame, hsucc]
      simp [hnode, Nat.add_comm]
  unfold ClosureSearch.rounds
  simp only [hstack, List.length_append, List.length_reverse, List.length_cons]
  omega

theorem closureRound_round (search : ClosureSearch) (h : Closing graph join branches search) :
    Loop.Round (closureRound graph join) (Closing graph join branches)
      (ClosureSearch.rounds graph)
      (fun closure => ∀ step, step ∈ closure ↔ ReachesBefore graph join branches step) search := by
  cases hstack : search.stack with
  | nil =>
    left
    refine ⟨search.closure, by rw [closureRound, hstack], ?_⟩
    intro step
    refine ⟨h.closure step, fun hreach => ?_⟩
    refine mem_of_reachesBefore ?_ ?_ hreach
    · intro branch hbranch hne
      have hmem := h.starts branch hbranch hne
      rw [hstack] at hmem
      exact hmem.resolve_right List.not_mem_nil
    · intro node hnode next hnext hne
      have hmem := h.followed node hnode next hnext hne
      rw [hstack] at hmem
      exact hmem.resolve_right List.not_mem_nil
  | cons node rest =>
    right
    have hrest : ∀ other ∈ rest, other ∈ search.stack := by
      intro other hmem
      rw [hstack]
      exact List.mem_cons_of_mem _ hmem
    by_cases hskip : node = join ∨ node ∈ search.closure
    · have hkeep : ∀ other, other ≠ join → other ∈ search.closure ∨ other ∈ search.stack →
          other ∈ search.closure ∨ other ∈ rest := by
        intro other hne hmem
        rcases hmem with hmem | hmem
        · exact Or.inl hmem
        · rw [hstack] at hmem
          rcases List.mem_cons.mp hmem with heq | hmem
          · left
            rw [heq] at hne ⊢
            exact hskip.resolve_left hne
          · exact Or.inr hmem
      refine ⟨{ search with stack := rest }, by simp only [closureRound, hstack, if_pos hskip], ?_, ?_⟩
      · exact ⟨h.closure, fun other hmem => h.stack other (hrest other hmem),
          fun branch hbranch hne => hkeep branch hne (h.starts branch hbranch hne),
          fun other hmem next hnext hne => hkeep next hne (h.followed other hmem next hnext hne)⟩
      · unfold ClosureSearch.rounds
        simp only [hstack, List.length_cons]
        omega
    · rw [not_or] at hskip
      have hreach := h.stack node (by rw [hstack]; exact List.mem_cons_self) hskip.1
      have hkeep : ∀ other, other ∈ search.closure ∨ other ∈ search.stack →
          other ∈ search.closure ++ [node] ∨
            other ∈ ((successorsOf graph node).filter (· ≠ join)).reverse ++ rest := by
        intro other hmem
        rw [hstack, List.mem_cons] at hmem
        simp only [List.mem_append, List.mem_singleton]
        rcases hmem with hmem | hmem | hmem
        · exact Or.inl (Or.inl hmem)
        · exact Or.inl (Or.inr hmem)
        · exact Or.inr (Or.inr hmem)
      refine ⟨_, by simp only [closureRound, hstack, if_neg (not_or.mpr hskip)]; rfl, ?_,
        rounds_add hstack hskip.2⟩
      refine ⟨?_, ?_, fun branch hbranch hne => hkeep branch (h.starts branch hbranch hne), ?_⟩
      · intro other hmem
        rcases List.mem_append.mp hmem with hmem | hmem
        · exact h.closure other hmem
        · rw [List.mem_singleton.mp hmem]
          exact hreach
      · intro other hmem hne
        rcases List.mem_append.mp hmem with hmem | hmem
        · rw [List.mem_reverse, List.mem_filter] at hmem
          exact hreach.step hmem.1 hne
        · exact h.stack other (hrest other hmem) hne
      · intro other hmem next hnext hne
        rcases List.mem_append.mp hmem with hmem | hmem
        · exact hkeep next (h.followed other hmem next hnext hne)
        · right
          rw [List.mem_singleton.mp hmem] at hnext
          rw [List.mem_append, List.mem_reverse, List.mem_filter]
          exact Or.inl ⟨hnext, by simpa using hne⟩

theorem mem_branchClosureStack_iff (graph : Dict String (List String)) (join : String)
    (branches : List String) (step : String) :
    step ∈ branchClosureStack graph join branches ↔ ReachesBefore graph join branches step := by
  have hstart : Closing graph join branches ⟨[], branches.reverse⟩ := by
    refine ⟨nofun, ?_, ?_, nofun⟩
    · intro node hnode hne
      exact reachesBefore_branch (List.mem_reverse.mp hnode) hne
    · intro branch hbranch _
      exact Or.inr (List.mem_reverse.mpr hbranch)
  obtain ⟨closure, hrun, hclosure⟩ := Loop.iterate_total closureRound_round hstart
    (Nat.lt_succ_self (ClosureSearch.rounds graph ⟨[], branches.reverse⟩))
  unfold branchClosureStack
  simp only [hrun]
  exact hclosure step

/-- The queue of the closure check reaches the same steps, when the branches are different
steps of the graph and its edges lead to steps. -/
theorem mem_branchClosure_iff (hsteps : ∀ a, ∀ b ∈ successorsOf graph a, b ∈ graph.keys)
    (hbranches : ∀ branch ∈ branches, branch ∈ graph.keys) (hnodup : branches.Nodup)
    (step : String) :
    step ∈ branchClosure graph join branches ↔ step ∈ branchClosureStack graph join branches := by
  rw [mem_branchClosureStack_iff]
  unfold branchClosure
  rw [Worklist.mem_run_iff _ graph.keys _ _ (hnodup.filter _) _ _ (Nat.le_refl _)]
  · constructor
    · rintro ⟨branch, hbranch, hreach⟩
      have hbranch : branch ∈ branches ∧ branch ≠ join := by simpa using hbranch
      induction hreach with
      | refl => exact reachesBefore_branch hbranch.1 hbranch.2
      | tail _ hstep ih =>
        obtain ⟨hnext, hne⟩ := List.mem_filter.mp hstep
        exact ih.step hnext (by simpa using hne)
    · apply mem_of_reachesBefore
      · intro branch hbranch hne
        exact ⟨branch, List.mem_filter.mpr ⟨hbranch, by simpa using hne⟩,
          Relation.ReflTransGen.refl⟩
      · intro node hnode next hnext hne
        obtain ⟨branch, hbranch, hreach⟩ := hnode
        exact ⟨branch, hbranch, hreach.tail (List.mem_filter.mpr ⟨hnext, by simpa using hne⟩)⟩
  · intro a b hb
    exact hsteps a b (List.mem_filter.mp hb).1
  · intro branch hbranch
    exact hbranches branch (List.mem_filter.mp hbranch).1

end Stack

/-- In a workflow graph without a cycle the recursion is true exactly when every maximal path
from the step passes through the join, and the closure of the branches is what they reach by
paths that do not pass through the join. -/
theorem branches_converge (graph : Dict String (List String)) (join : String)
    (hacyclic : ∀ x, ¬ Relation.TransGen (Edge graph) x x) :
    (∀ node, allPathsReachJoinMemo graph join node = true ↔
      ∀ path, MaximalPath graph node path → join ∈ path) ∧
    ∀ branches step, step ∈ branchClosureStack graph join branches ↔
      ∃ path, IsPath graph path ∧ (∃ branch ∈ branches, path.head? = some branch) ∧
        path.getLast? = some step ∧ join ∉ path :=
  ⟨allPathsReachJoinMemo_iff hacyclic, mem_branchClosureStack_iff graph join⟩

/-- The recursion without a memo answers as the one with a memo, and the queue of the closure
sees the steps that its stack sees. -/
theorem traversals_agree (graph : Dict String (List String)) (join : String)
    (hacyclic : ∀ x, ¬ Relation.TransGen (Edge graph) x x)
    (hsteps : ∀ a, ∀ b ∈ successorsOf graph a, b ∈ graph.keys) (branches : List String)
    (hbranches : ∀ branch ∈ branches, branch ∈ graph.keys) (hnodup : branches.Nodup) :
    (∀ node, allPathsReachJoin graph join graph.keys.length [] node =
      allPathsReachJoinMemo graph join node) ∧
    ∀ step, step ∈ branchClosure graph join branches ↔
      step ∈ branchClosureStack graph join branches := by
  refine ⟨fun node => ?_, mem_branchClosure_iff hsteps hbranches hnodup⟩
  have hcycle : hasCycle graph = false := by
    rw [Bool.eq_false_iff]
    intro h
    obtain ⟨x, hx⟩ := (hasCycle_iff graph).mp h
    exact hacyclic x hx
  rw [Bool.eq_iff_iff, allPathsReachJoinMemo_iff hacyclic]
  exact allPathsReachJoin_iff hacyclic _ [] node (walks_eq_false hcycle (Nat.le_refl _) node) (by simp)

def sharedBranches : Dict String (List String) :=
  ⟨[("left", ["shared"]), ("right", ["shared", "join"]), ("shared", ["join"]), ("join", ["end"]),
    ("end", [])], by decide⟩

theorem sharedBranches_acyclic (x : String) :
    ¬ Relation.TransGen (Edge sharedBranches) x x := by
  intro hx
  have hcycle := (hasCycle_iff sharedBranches).mpr ⟨x, hx⟩
  have hnone : hasCycle sharedBranches = false := by decide +kernel
  rw [hnone] at hcycle
  cases hcycle

theorem branches_converge_shared :
    (∀ path, MaximalPath sharedBranches "right" path → "join" ∈ path) ∧
      ¬ ∃ path, IsPath sharedBranches path ∧
        (∃ branch ∈ ["left", "right"], path.head? = some branch) ∧
        path.getLast? = some "end" ∧ "join" ∉ path := by
  obtain ⟨hpaths, hclosure⟩ := branches_converge sharedBranches "join" sharedBranches_acyclic
  exact ⟨(hpaths "right").mp (by decide +kernel),
    fun h => absurd ((hclosure ["left", "right"] "end").mpr h) (by decide +kernel)⟩

theorem traversals_agree_shared :
    allPathsReachJoin sharedBranches "join" 5 [] "right" =
      allPathsReachJoinMemo sharedBranches "join" "right" := by
  have hsteps : ∀ a, ∀ b ∈ successorsOf sharedBranches a, b ∈ sharedBranches.keys := by
    intro a b hb
    obtain ⟨adjacent, hadjacent, hmem⟩ := edge_iff_mem_successorsOf.mpr hb
    have hentries : ∀ entry ∈ sharedBranches.entries, ∀ b ∈ entry.2, b ∈ sharedBranches.keys := by
      decide
    exact hentries (a, adjacent) (Dict.get?_eq_some_iff.mp hadjacent) b hmem
  exact (traversals_agree sharedBranches "join" sharedBranches_acyclic hsteps [] (by simp)
    List.nodup_nil).1 "right"

end Raes.Orchestration
