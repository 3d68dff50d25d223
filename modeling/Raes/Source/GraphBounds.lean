import Mathlib.Data.Set.Finite.Basic
import Raes.Lib.Stateful
import Raes.Source.NodeGraph

/-!
# Bounds of a source graph

`_GraphMetrics` of `raes/_source_validation.py`.  A shared node is measured once
and its measures are looked up at every further use; the numbers must be those of
the tree that the aliases stand for, which may be exponentially larger than the
graph.
-/

namespace Raes.Source

open Stateful

/-- The limits of `SDLParserLimits` that bound a node graph; each is positive. -/
structure SDLParserLimits where
  (maxDepth maxNodes maxExpandedNodes : Nat)
  positive : 0 < maxDepth ∧ 0 < maxNodes ∧ 0 < maxExpandedNodes

namespace NodeGraph

variable (g : NodeGraph) (limits : SDLParserLimits)

def children (n : g.Id) : List g.Id :=
  match g.node n with
  | .mapping pairs => pairs.flatMap fun pair => [pair.1, pair.2]
  | .sequence items => items
  | .scalar _ _ => []

/-- The fields `unique` and `memoized`; the nodes that are `active` are an argument. -/
structure GraphMetrics where
  unique : Finset g.Id
  memoized : Dict g.Id (Nat × Nat)

def GraphMetrics.empty : GraphMetrics g := ⟨∅, Dict.empty⟩

/-- `_raise_source_limit`: the message and the node whose mark it carries. -/
abbrev SourceLimit := String × g.Id

variable {g}

def depthLimit (node : g.Id) : SourceLimit g :=
  (s!"SDL node depth exceeds {limits.maxDepth}.", node)

def trackUnique (node : g.Id) : Stateful (SourceLimit g) (GraphMetrics g) Unit := do
  let state ← get
  if node ∈ state.unique then pure ()
  else do
    set { state with unique := insert node state.unique }
    if limits.maxNodes < (insert node state.unique).card then
      throw (s!"SDL node graph has more than {limits.maxNodes} unique nodes.", node)

def addChild (node : g.Id) (total child : Nat × Nat) :
    Except (SourceLimit g) (Nat × Nat) :=
  let cost := total.1 + child.1
  if limits.maxExpandedNodes < cost then
    .error (s!"SDL alias-expanded work exceeds {limits.maxExpandedNodes} nodes.", node)
  else .ok (cost, max total.2 (child.2 + 1))

/-- `calculate`: the number of nodes below `node` after the expansion of aliases,
and the height.  Each call is one level deeper, and `max_depth` bounds the level. -/
def calculate (active : Finset g.Id) (node : g.Id) (depth : Nat) :
    Stateful (SourceLimit g) (GraphMetrics g) (Nat × Nat) :=
  if _h : limits.maxDepth < depth then throw (depthLimit limits node)
  else if node ∈ active then pure (0, 0)
  else do
    trackUnique limits node
    match (← get).memoized.get? node with
    | some cached =>
      if limits.maxDepth < depth + cached.2 - 1 then throw (depthLimit limits node)
      else pure cached
    | none => do
      let metrics ← (g.children node).foldlM (fun total child => do
        liftM (addChild limits node total
          (← calculate (insert node active) child (depth + 1)))) (1, 1)
      modify fun state => { state with memoized := state.memoized.set node metrics }
      pure metrics
termination_by limits.maxDepth + 1 - depth

def validateSourceGraph (root : g.Id) :
    Stateful (SourceLimit g) (GraphMetrics g) (Nat × Nat) :=
  calculate limits ∅ root 1

/-! ## The alias-expanded tree -/

inductive Tree where
  | node (children : List Tree)

def Tree.size : Tree → Nat
  | .node children => 1 + (children.map fun child => child.size).sum

def Tree.height : Tree → Nat
  | .node children => (children.map fun child => child.height + 1).foldl max 1

def Child (g : NodeGraph) (n c : g.Id) : Prop := c ∈ g.children n

def Acyclic (g : NodeGraph) : Prop := ∀ n, ¬ Relation.TransGen g.Child n n

theorem Acyclic.wellFounded (h : g.Acyclic) : WellFounded fun c n => g.Child n c := by
  have : IsTrans g.Id fun c n => Relation.TransGen g.Child n c :=
    ⟨fun _ _ _ hab hbc => hbc.trans hab⟩
  have : Std.Irrefl fun c n => Relation.TransGen g.Child n c := ⟨h⟩
  exact Subrelation.wf (fun h => .single h)
    (Finite.wellFounded_of_trans_of_irrefl fun c n => Relation.TransGen g.Child n c)

/-- The tree in which every alias is replaced by what it stands for. -/
noncomputable def expandedTree (h : g.Acyclic) : g.Id → Tree :=
  h.wellFounded.fix fun n expand => .node ((g.children n).attach.map fun c => expand c.1 c.2)

variable (h : g.Acyclic)

theorem expandedTree_eq (n : g.Id) :
    expandedTree h n = .node ((g.children n).map (expandedTree h)) := by
  unfold expandedTree
  rw [WellFounded.fix_eq]
  simp

noncomputable def metrics (n : g.Id) : Nat × Nat :=
  ((expandedTree h n).size, (expandedTree h n).height)

theorem metrics_eq (n : g.Id) :
    metrics h n = (1 + ((g.children n).map fun c => (metrics h c).1).sum,
      ((g.children n).map fun c => (metrics h c).2 + 1).foldl max 1) := by
  unfold metrics
  rw [expandedTree_eq, Tree.size, Tree.height, List.map_map, List.map_map]
  rfl

theorem foldl_max_le_iff (l : List Nat) (b k : Nat) :
    l.foldl max b ≤ k ↔ b ≤ k ∧ ∀ x ∈ l, x ≤ k := by
  induction l generalizing b with
  | nil => simp
  | cons x l ih => simp [ih, and_assoc]

/-- The nodes that some node of a list reaches. -/
noncomputable def nodesFrom (roots : List g.Id) : Finset g.Id :=
  (Set.toFinite {x | ∃ n ∈ roots, Relation.ReflTransGen g.Child n x}).toFinset

theorem mem_nodesFrom {roots : List g.Id} {x : g.Id} :
    x ∈ nodesFrom roots ↔ ∃ n ∈ roots, Relation.ReflTransGen g.Child n x := by
  simp [nodesFrom]

theorem nodesFrom_cons (n : g.Id) (roots : List g.Id) :
    nodesFrom (n :: roots) = nodesFrom [n] ∪ nodesFrom roots := by
  ext x
  simp [mem_nodesFrom]

theorem nodesFrom_singleton (n : g.Id) :
    nodesFrom [n] = insert n (nodesFrom (g.children n)) := by
  ext x
  simp only [mem_nodesFrom, List.mem_singleton, exists_eq_left, Finset.mem_insert]
  rw [Relation.ReflTransGen.cases_head_iff, eq_comm]
  rfl

/-! ## Measures of the expansion -/

/-- What the traversal keeps: the measures that it has stored are those of the
expansion, and the nodes that they cover have been counted. -/
structure Ready (state : GraphMetrics g) : Prop where
  nodes : state.unique.card ≤ limits.maxNodes
  memo : ∀ n m, state.memoized.get? n = some m →
    m = metrics h n ∧ m.1 ≤ limits.maxExpandedNodes ∧ nodesFrom [n] ⊆ state.unique

def NodeFits (state : GraphMetrics g) (n : g.Id) (depth : Nat) : Prop :=
  (state.unique ∪ nodesFrom [n]).card ≤ limits.maxNodes ∧
    (metrics h n).1 ≤ limits.maxExpandedNodes ∧
    depth + (metrics h n).2 ≤ limits.maxDepth + 1

def Measured (state : GraphMetrics g) (n : g.Id) (m : Nat × Nat) (next : GraphMetrics g) : Prop :=
  m = metrics h n ∧ Ready limits h next ∧ next.unique = state.unique ∪ nodesFrom [n]

variable {limits h} {state : GraphMetrics g}

theorem height_pos (n : g.Id) : 1 ≤ (metrics h n).2 := by
  rw [metrics_eq]
  exact ((foldl_max_le_iff _ 1 _).mp (le_refl _)).1

theorem trackUnique_settles (n : g.Id) (hstate : Ready limits h state) :
    Settles (exec (trackUnique limits n) state)
      ((insert n state.unique).card ≤ limits.maxNodes)
      fun _ next => Ready limits h next ∧ next.unique = insert n state.unique := by
  unfold trackUnique
  rw [exec_get_bind]
  by_cases hn : n ∈ state.unique
  · rw [if_pos hn, exec_pure, Finset.insert_eq_of_mem hn]
    exact ⟨hstate.nodes, hstate, rfl⟩
  · rw [if_neg hn, exec_bind, exec_set]
    dsimp only
    by_cases hcard : limits.maxNodes < (insert n state.unique).card
    · rw [if_pos hcard, exec_throw]
      exact Nat.not_le.mpr hcard
    · rw [if_neg hcard, exec_pure]
      have hle := Nat.not_lt.mp hcard
      refine ⟨hle, ⟨hle, fun k m hk => ?_⟩, rfl⟩
      obtain ⟨hm, hcost, hsub⟩ := hstate.memo k m hk
      exact ⟨hm, hcost, hsub.trans (Finset.subset_insert n _)⟩

theorem addChild_settles (n : g.Id) (total child : Nat × Nat) :
    Settles (exec (liftM (addChild limits n total child) :
        Stateful (SourceLimit g) (GraphMetrics g) (Nat × Nat)) state)
      (total.1 + child.1 ≤ limits.maxExpandedNodes)
      fun m next => m = (total.1 + child.1, max total.2 (child.2 + 1)) ∧ next = state := by
  unfold addChild
  rw [exec_lift]
  dsimp only
  split
  · rename_i hcost
    exact Nat.not_le.mpr hcost
  · rename_i hcost
    exact ⟨Nat.not_lt.mp hcost, rfl, rfl⟩

theorem children_settle {measure : g.Id → Stateful (SourceLimit g) (GraphMetrics g) (Nat × Nat)}
    (depth : Nat) (n : g.Id) (cs : List g.Id)
    (hmeasure : ∀ c ∈ cs, ∀ state, Ready limits h state →
      Settles (exec (measure c) state) (NodeFits limits h state c (depth + 1))
        (Measured limits h state c))
    (total : Nat × Nat) (state : GraphMetrics g) (hstate : Ready limits h state)
    (hcost : total.1 ≤ limits.maxExpandedNodes) :
    Settles (exec (cs.foldlM (fun total child => do
        liftM (addChild limits n total (← measure child))) total) state)
      ((state.unique ∪ nodesFrom cs).card ≤ limits.maxNodes ∧
        total.1 + (cs.map fun c => (metrics h c).1).sum ≤ limits.maxExpandedNodes ∧
        ∀ c ∈ cs, depth + (metrics h c).2 ≤ limits.maxDepth)
      fun m next =>
        m = (total.1 + (cs.map fun c => (metrics h c).1).sum,
          (cs.map fun c => (metrics h c).2 + 1).foldl max total.2) ∧
        Ready limits h next ∧ next.unique = state.unique ∪ nodesFrom cs := by
  induction cs generalizing total state with
  | nil =>
    have hunion : state.unique ∪ nodesFrom [] = state.unique := by
      ext x
      simp [mem_nodesFrom]
    rw [List.foldlM_nil, exec_pure, hunion]
    exact ⟨⟨hstate.nodes, by simpa using hcost, by simp⟩, by simp, hstate, rfl⟩
  | cons c cs ih =>
    rw [List.foldlM_cons, bind_assoc, nodesFrom_cons, ← Finset.union_assoc]
    simp only [List.map_cons, List.sum_cons, List.foldl_cons, List.forall_mem_cons,
      ← Nat.add_assoc]
    refine Settles.bind (hmeasure c List.mem_cons_self state hstate) ?_ ?_
    · intro hfits
      refine ⟨(Finset.card_le_card Finset.subset_union_left).trans hfits.1, ?_, ?_⟩
      · have := hfits.2.1
        omega
      · have := hfits.2.2.1
        omega
    intro m next hc hnext
    obtain ⟨rfl, hready, hunique⟩ := hnext
    refine Settles.bind (addChild_settles n total (metrics h c)) ?_ ?_
    · intro hfits
      have := hfits.2.1
      omega
    intro sum next' hsum hnext'
    obtain ⟨rfl, rfl⟩ := hnext'
    have hrest := ih (fun d hd => hmeasure d (List.mem_cons_of_mem c hd))
      (total.1 + (metrics h c).1, max total.2 ((metrics h c).2 + 1)) next' hready hsum
    rw [hunique] at hrest
    refine hrest.mono ?_ fun m next hm => hm
    have := hc.2.2
    have hdepth : depth + (metrics h c).2 ≤ limits.maxDepth := by omega
    simp [hdepth]

/-- A call measures its node as the expansion does, unless a limit is exceeded. -/
theorem calculate_settles {active : Finset g.Id} {n : g.Id} {depth : Nat}
    (hactive : ∀ a ∈ active, Relation.TransGen g.Child a n) (hstate : Ready limits h state) :
    Settles (exec (calculate limits active n depth) state) (NodeFits limits h state n depth)
      (Measured limits h state n) := by
  induction hk : limits.maxDepth + 1 - depth generalizing active n depth state with
  | zero =>
    have hdepth : limits.maxDepth < depth := by omega
    rw [calculate, dif_pos hdepth, exec_throw]
    intro hfits
    have := hfits.2.2
    have := height_pos (h := h) n
    omega
  | succ k ih =>
    have hdepth : ¬ limits.maxDepth < depth := by omega
    rw [calculate, dif_neg hdepth, if_neg fun hn => h n (hactive n hn)]
    refine Settles.bind (trackUnique_settles n hstate) ?_ ?_
    · intro hfits
      refine (Finset.card_le_card ?_).trans hfits.1
      rw [nodesFrom_singleton, Finset.union_insert]
      exact Finset.insert_subset_insert n Finset.subset_union_left
    intro _ next _ hnext
    obtain ⟨hready, hunique⟩ := hnext
    have hunion : next.unique ∪ nodesFrom (g.children n) = state.unique ∪ nodesFrom [n] := by
      rw [hunique, nodesFrom_singleton, Finset.union_insert, Finset.insert_union]
    rw [exec_get_bind]
    cases hget : next.memoized.get? n with
    | some cached =>
      obtain ⟨rfl, hcost, hsub⟩ := hready.memo n cached hget
      have hall : state.unique ∪ nodesFrom [n] = next.unique := by
        refine hunion.symm.trans (Finset.union_eq_left.mpr ?_)
        rw [nodesFrom_singleton] at hsub
        exact (Finset.subset_insert n _).trans hsub
      dsimp only
      split
      · rename_i hheight
        intro hfits
        have := hfits.2.2
        omega
      · rename_i hheight
        rw [exec_pure]
        refine ⟨⟨?_, hcost, by omega⟩, rfl, hready, hall.symm⟩
        rw [hall]
        exact hready.nodes
    | none =>
      have hchildren := children_settle depth n (g.children n)
        (fun c hc state hstate => ih
          ((Finset.forall_mem_insert n active _).mpr ⟨.single hc, fun a ha => (hactive a ha).tail hc⟩)
          hstate (by omega)) (1, 1) next hready limits.positive.2.2
      rw [hunion] at hchildren
      have hmetrics := metrics_eq h n
      refine Settles.bind hchildren ?_ ?_
      · intro hfits
        obtain ⟨hnodes, hcost, hheight⟩ := hfits
        rw [hmetrics] at hcost hheight
        refine ⟨hnodes, hcost, fun c hc => ?_⟩
        have hle : _ ≤ limits.maxDepth + 1 - depth := Nat.le_sub_of_add_le' hheight
        have := ((foldl_max_le_iff _ 1 _).mp hle).2 _ (List.mem_map_of_mem hc)
        omega
      intro m last hfits hlast
      obtain ⟨rfl, hlast, hunique'⟩ := hlast
      rw [exec_modify_bind, exec_pure, ← hmetrics]
      obtain ⟨hnodes, hcost, hheight⟩ := hfits
      refine ⟨⟨hnodes, ?_, ?_⟩, rfl, ⟨hlast.nodes, ?_⟩, hunique'⟩
      · rw [hmetrics]
        exact hcost
      · rw [hmetrics]
        have := (foldl_max_le_iff ((g.children n).map fun c => (metrics h c).2 + 1) 1
          (limits.maxDepth + 1 - depth)).mpr ⟨by omega, fun x hx => by
            obtain ⟨c, hc, rfl⟩ := List.mem_map.mp hx
            have := hheight c hc
            omega⟩
        omega
      · intro k m hm
        rw [Dict.get?_set] at hm
        split at hm
        · rename_i heq
          cases hm
          subst heq
          refine ⟨rfl, ?_, ?_⟩
          · rw [hmetrics]
            exact hcost
          · rw [hunique']
            exact Finset.subset_union_right
        · exact hlast.memo k m hm

theorem ready_empty : Ready limits h (.empty g) :=
  ⟨Nat.zero_le _, fun _ _ hm => nomatch hm⟩

/-- An edge back to a node that is still being visited adds nothing; where there is
no such edge, a document is accepted when its nodes, the nodes of its expansion and
the depth of the expansion are within the limits, and these are the numbers that
the traversal computes and stores. -/
theorem source_graph_bounds (g : NodeGraph) (limits : SDLParserLimits) :
    (∀ (active : Finset g.Id) (n back : g.Id) (depth : Nat) (total : Nat × Nat) state,
      back ∈ active → depth ≤ limits.maxDepth →
      total.1 ≤ limits.maxExpandedNodes → 1 ≤ total.2 →
      exec (calculate limits active back depth >>= fun child =>
        liftM (addChild limits n total child)) state = (.ok total, state)) ∧
    ∀ (h : g.Acyclic) (root : g.Id),
      ((∃ m, (exec (validateSourceGraph limits root) (.empty g)).1 = .ok m) ↔
        (nodesFrom [root]).card ≤ limits.maxNodes ∧
        (expandedTree h root).size ≤ limits.maxExpandedNodes ∧
        (expandedTree h root).height ≤ limits.maxDepth) ∧
      ∀ m last, exec (validateSourceGraph limits root) (.empty g) = (.ok m, last) →
        m = ((expandedTree h root).size, (expandedTree h root).height) ∧
        last.unique = nodesFrom [root] ∧
        ∀ n cached, last.memoized.get? n = some cached →
          cached = ((expandedTree h n).size, (expandedTree h n).height) := by
  refine ⟨?_, fun h root => ?_⟩
  · intro active n back depth total state hback hdepth hcost hheight
    rw [calculate, dif_neg (Nat.not_lt.mpr hdepth), if_pos hback, exec_bind, exec_pure]
    have hadd : addChild limits n total (0, 0) = .ok total := by simp [addChild, hcost, hheight]
    dsimp only
    rw [hadd, exec_lift]
  have hrun : Settles (exec (validateSourceGraph limits root) (.empty g))
      (NodeFits limits h (.empty g) root 1) (Measured limits h (.empty g) root) :=
    calculate_settles (fun a ha => absurd ha (Finset.notMem_empty a)) ready_empty
  have hempty : (GraphMetrics.empty g).unique ∪ nodesFrom [root] = nodesFrom [root] :=
    Finset.empty_union _
  refine ⟨?_, fun m last hlast => ?_⟩
  · rw [hrun.answers_iff, NodeFits, hempty]
    simp [metrics, Nat.add_comm 1]
  · rw [hlast] at hrun
    obtain ⟨-, hm, hready, hunique⟩ := hrun
    exact ⟨hm, hunique.trans hempty, fun n cached hn => (hready.memo n cached hn).1⟩

/-- Two aliases of one scalar, `[&a x, *a]`: two nodes that stand for three. -/
abbrev sharedPair : NodeGraph where
  size := 2
  node n := if n = 0 then .sequence [1, 1] else .scalar stringTag "x"
  startMark _ := ⟨0, 0⟩
  endMark _ := ⟨0, 0⟩

theorem sharedPair_acyclic : sharedPair.Acyclic := by
  have hedge : ∀ n c : Fin 2, c ∈ sharedPair.children n → n < c := by decide
  have hpath : ∀ n c, Relation.TransGen sharedPair.Child n c → n < c := by
    intro n c hpath
    induction hpath with
    | single hstep => exact hedge _ _ hstep
    | tail _ hstep ih => exact Nat.lt_trans ih (hedge _ _ hstep)
  exact fun n hn => Nat.lt_irrefl _ (hpath n n hn)

def pairLimits : SDLParserLimits := ⟨2, 2, 3, by decide⟩

theorem source_graph_bounds_sharedPair :
    exec (calculate (g := sharedPair) pairLimits {0} 0 1 >>= fun child =>
      liftM (addChild (g := sharedPair) pairLimits 0 (1, 1) child)) (.empty sharedPair) =
        (.ok (1, 1), .empty sharedPair) ∧
    ∃ last, exec (validateSourceGraph pairLimits 0) (.empty sharedPair) = (.ok (3, 2), last) := by
  have hbounds := source_graph_bounds sharedPair pairLimits
  refine ⟨hbounds.1 {0} 0 0 1 (1, 1) _ (by decide) (by decide) (by decide) (by decide), ?_⟩
  have hroot : expandedTree sharedPair_acyclic 0 = .node [.node [], .node []] := by
    rw [expandedTree_eq]
    have hleaf := expandedTree_eq sharedPair_acyclic 1
    exact congrArg (fun leaf => Tree.node [leaf, leaf]) hleaf
  obtain ⟨haccepted, hnumbers⟩ := hbounds.2 sharedPair_acyclic 0
  rw [hroot] at haccepted hnumbers
  have hsize : (Tree.node [.node [], .node []]).size = 3 := by simp [Tree.size]
  have hheight : (Tree.node [.node [], .node []]).height = 2 := by simp [Tree.height]
  rw [hsize, hheight] at haccepted hnumbers
  obtain ⟨m, hm⟩ := haccepted.mpr ⟨Finset.card_le_univ _, le_refl 3, le_refl 2⟩
  have hlast := Prod.ext (y := (_, _)) hm rfl
  exact ⟨_, (hnumbers m _ hlast).1 ▸ hlast⟩

end NodeGraph
end Raes.Source
