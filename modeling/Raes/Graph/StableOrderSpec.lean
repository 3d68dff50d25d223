import Raes.Graph.Cycles
import Raes.Graph.StableOrder
import Raes.Lib.SortBy

/-!
# What a stable order is

The sorter is only read through the sorted list of its nodes and through the
membership in its dependency lists, so `settle`, the same loop over those two, is
the order that it computes (`stableTopologicalOrder_eq_settle`).  What `settle`
places is closed under dependencies and complete, and what it does not place
depends on a cycle.
-/

namespace Raes.Graph

open Relation TopologicalSorter

variable {N : Type} [DecidableEq N]

/-- The nodes that are not handed out and whose dependencies are all done. -/
def releases (nodes : List N) (deps : N → List N) (passed finished : List N) : List N :=
  nodes.filter fun n => n ∉ passed ∧ ∀ d ∈ deps n, d ∈ finished

/-- Serve the ready queue over the nodes and their dependencies. -/
def settle (nodes : List N) (deps : N → List N) : ℕ → List N → List N → List N → List N
  | 0, _, _, order => order
  | _ + 1, _, [], order => order
  | fuel + 1, passed, node :: rest, order =>
    let released := releases nodes deps passed (order ++ [node])
    settle nodes deps fuel (passed ++ released) (rest ++ released) (order ++ [node])

/-! ## The sorter of a graph -/

variable (s : TopologicalSorter N)

def predecessors (node : N) : List N :=
  (s.node2info.get? node).getD []

theorem predecessors_getNodeinfo (node x : N) :
    predecessors (s.getNodeinfo node) x = predecessors s x := by
  unfold predecessors getNodeinfo
  split
  · rfl
  · rename_i hnew
    rw [Dict.get?_set]
    by_cases hx : x = node
    · have hnone : s.node2info.get? node = none := by
        rw [Dict.get?_eq_none_iff]
        exact fun hmem => hnew (Dict.contains_iff.mpr hmem)
      rw [if_pos hx, hx, hnone]
      rfl
    · rw [if_neg hx]

theorem predecessors_foldl_getNodeinfo (l : List N) (s : TopologicalSorter N) (x : N) :
    predecessors (l.foldl getNodeinfo s) x = predecessors s x := by
  induction l generalizing s with
  | nil => rfl
  | cons y rest ih => rw [List.foldl_cons, ih, predecessors_getNodeinfo]

theorem predecessors_add (node : N) (preds : List N) (x : N) : predecessors (s.add node preds) x =
      if x = node then predecessors s x ++ preds else predecessors s x := by
  rw [add, predecessors_foldl_getNodeinfo]
  have hknown : ((s.getNodeinfo node).node2info.get? node).getD [] = predecessors s node :=
    predecessors_getNodeinfo s node node
  show ((Dict.set _ node _).get? x).getD [] = _
  rw [Dict.get?_set]
  by_cases hx : x = node
  · rw [if_pos hx, if_pos hx, hknown, hx]
    rfl
  · rw [if_neg hx, if_neg hx]
    exact predecessors_getNodeinfo s node x

theorem predecessors_foldl_add {l : List N} (hl : l.Nodup) (preds : N → List N)
    (s : TopologicalSorter N) (x : N) :
    predecessors (l.foldl (fun s n => s.add n (preds n)) s) x =
      if x ∈ l then predecessors s x ++ preds x else predecessors s x := by
  induction l generalizing s with
  | nil => simp
  | cons y rest ih =>
    rw [List.nodup_cons] at hl
    rw [List.foldl_cons, ih hl.2, predecessors_add]
    by_cases hxy : x = y
    · rw [if_pos hxy, hxy, if_neg hl.1, if_pos List.mem_cons_self]
    · rw [if_neg hxy]
      simp [hxy]

theorem keys_getNodeinfo_of_mem {s : TopologicalSorter N} {node : N}
    (h : node ∈ s.node2info.keys) : s.getNodeinfo node = s :=
  if_pos (Dict.contains_iff.mpr h)

theorem foldl_getNodeinfo_of_subset {l : List N} {s : TopologicalSorter N}
    (h : ∀ x ∈ l, x ∈ s.node2info.keys) : l.foldl getNodeinfo s = s := by
  induction l with
  | nil => rfl
  | cons y rest ih =>
    rw [List.foldl_cons, keys_getNodeinfo_of_mem (h y List.mem_cons_self)]
    exact ih fun x hx => h x (List.mem_cons_of_mem y hx)

theorem keys_set_of_mem {s : Dict N (List N)} {node : N} (preds : List N) (h : node ∈ s.keys) :
    (s.set node preds).keys = s.keys := by
  show (Dict.setEntry node preds s.entries).map Prod.fst = _
  rw [Dict.keys_setEntry, if_pos (show node ∈ s.entries.map Prod.fst from h)]
  rfl

theorem keys_add_of_mem {s : TopologicalSorter N} {node : N} {preds : List N}
    (hnode : node ∈ s.node2info.keys) (hpreds : ∀ d ∈ preds, d ∈ s.node2info.keys) :
    (s.add node preds).node2info.keys = s.node2info.keys := by
  rw [add, keys_getNodeinfo_of_mem hnode]
  rw [foldl_getNodeinfo_of_subset]
  · exact keys_set_of_mem _ hnode
  · intro d hd
    show d ∈ (Dict.set _ _ _).keys
    rw [keys_set_of_mem _ hnode]
    exact hpreds d hd

theorem keys_foldl_add_of_mem {l : List N} {preds : N → List N} {s : TopologicalSorter N}
    (hl : ∀ x ∈ l, x ∈ s.node2info.keys) (hpreds : ∀ x ∈ l, ∀ d ∈ preds x, d ∈ s.node2info.keys) :
    (l.foldl (fun s n => s.add n (preds n)) s).node2info.keys = s.node2info.keys := by
  induction l generalizing s with
  | nil => rfl
  | cons y rest ih =>
    have hsame := keys_add_of_mem (hl y List.mem_cons_self) (hpreds y List.mem_cons_self)
    rw [List.foldl_cons, ih, hsame]
    · intro x hx
      rw [hsame]
      exact hl x (List.mem_cons_of_mem y hx)
    · intro x hx d hd
      rw [hsame]
      exact hpreds x (List.mem_cons_of_mem y hx) d hd

theorem keys_add_new {s : TopologicalSorter N} {node : N} (h : node ∉ s.node2info.keys) :
    (s.add node []).node2info.keys = s.node2info.keys ++ [node] := by
  have hcontains : s.node2info.contains node = false := by
    rw [Bool.eq_false_iff]
    exact fun hc => h (Dict.contains_iff.mp hc)
  have hadded : (s.getNodeinfo node).node2info.keys = s.node2info.keys ++ [node] := by
    rw [getNodeinfo, if_neg (by simp [hcontains])]
    show (Dict.setEntry node [] s.node2info.entries).map Prod.fst = _
    rw [Dict.keys_setEntry,
      if_neg (show node ∉ s.node2info.entries.map Prod.fst from h)]
    rfl
  rw [add]
  show (Dict.set _ node _).keys = _
  rw [keys_set_of_mem _ (by rw [hadded]; simp), hadded]

theorem keys_foldl_add_new {l : List N} {s : TopologicalSorter N}
    (h : (s.node2info.keys ++ l).Nodup) :
    (l.foldl (fun s n => s.add n []) s).node2info.keys = s.node2info.keys ++ l := by
  induction l generalizing s with
  | nil => simp
  | cons y rest ih =>
    have hnew : y ∉ s.node2info.keys := fun hmem =>
      (List.nodup_append.mp h).2.2 y hmem y List.mem_cons_self rfl
    have hadded := keys_add_new hnew
    rw [List.foldl_cons, ih (by rw [hadded]; simpa using h), hadded]
    simp

theorem drain_eq_settle {nodes : List N} {deps : N → List N} (fuel : ℕ)
    {s : TopologicalSorter N} (waiting : List N) {order : List N}
    (hkeys : s.node2info.keys = nodes)
    (hdeps : ∀ x ∈ nodes, ∀ d, d ∈ predecessors s x ↔ d ∈ deps x) (hfinished : s.finished = order) :
    drain fuel s waiting order = settle nodes deps fuel s.passedOut waiting order := by
  induction fuel generalizing s waiting order with
  | zero => rfl
  | succ fuel ih =>
    cases waiting with
    | nil => rfl
    | cons node rest =>
      have hreleased : (s.done node).ready =
          releases nodes deps s.passedOut (order ++ [node]) := by
        unfold ready releases
        show s.node2info.keys.filter _ = _
        rw [hkeys]
        apply List.filter_congr
        intro x hx
        rw [decide_eq_decide]
        show (x ∉ s.passedOut ∧ ∀ d ∈ predecessors s x, d ∈ s.finished ++ [node]) ↔ _
        rw [hfinished]
        exact and_congr_right fun _ => forall_congr' fun d => imp_congr_left (hdeps x hx d)
      have hpassed : (s.done node).getReady.2.passedOut =
          s.passedOut ++ releases nodes deps s.passedOut (order ++ [node]) := by
        show s.passedOut ++ (s.done node).ready = _
        rw [hreleased]
      have hdone : (s.done node).getReady.2.finished = order ++ [node] := by
        show s.finished ++ [node] = _
        rw [hfinished]
      have hnext := ih (s := (s.done node).getReady.2) (rest ++ (s.done node).ready) hkeys hdeps
        hdone
      rw [hpassed, hreleased] at hnext
      rw [drain, settle]
      show drain fuel (s.done node).getReady.2 (rest ++ (s.done node).ready) (order ++ [node]) = _
      rw [hreleased]
      exact hnext

variable {K : Type} [LinearOrder K] (graph : Dict N (List N))

def dependencies (node : N) : List N := (graph.get? node).getD []

theorem edge_iff_mem_dependencies (x d : N) : Edge graph x d ↔ d ∈ dependencies graph x := by
  unfold Edge dependencies
  cases graph.get? x with
  | none => simp
  | some adjacent => simp

def DependenciesKnown (graph : Dict N (List N)) : Prop :=
  ∀ x d, Edge graph x d → d ∈ graph.keys

/-- The nodes that leave the queue of a mapping. -/
def placedNodes (key : N → K) : List N :=
  let nodes := sortBy key graph.keys
  let ready := releases nodes (dependencies graph) [] []
  settle nodes (dependencies graph) nodes.length ready ready []

theorem stableTopologicalOrder_eq_settle (key : N → K) (h : DependenciesKnown graph) :
    stableTopologicalOrder graph key =
      if (placedNodes graph key).length ≠ (sortBy key graph.keys).length then
        placedNodes graph key ++ (sortBy key graph.keys).filter (· ∉ placedNodes graph key)
      else placedNodes graph key := by
  set nodes := sortBy key graph.keys with hnodes
  have hperm : nodes.Perm graph.keys := sortBy_perm key _
  have hnodup : nodes.Nodup := hperm.nodup_iff.mpr graph.keys_nodup
  set first := nodes.foldl (fun s n => s.add n []) (TopologicalSorter.empty : TopologicalSorter N)
    with hfirst
  set sorter := nodes.foldl (fun s n => s.add n (dependencies graph n)) first with hsorter
  have hempty : (TopologicalSorter.empty : TopologicalSorter N).node2info.keys = [] := rfl
  have hkeysFirst : first.node2info.keys = nodes := by
    rw [hfirst, keys_foldl_add_new (by rw [hempty, List.nil_append]; exact hnodup), hempty,
      List.nil_append]
  have hkeys : sorter.node2info.keys = nodes := by
    rw [hsorter, keys_foldl_add_of_mem (by rw [hkeysFirst]; exact fun x hx => hx), hkeysFirst]
    intro x _ d hd
    rw [hkeysFirst, hperm.mem_iff]
    exact h x d ((edge_iff_mem_dependencies graph x d).mpr hd)
  have hdeps : ∀ x ∈ nodes, ∀ d, d ∈ predecessors sorter x ↔ d ∈ dependencies graph x := by
    intro x hx d
    rw [hsorter, predecessors_foldl_add hnodup, if_pos hx, hfirst,
      predecessors_foldl_add hnodup (fun _ => []), if_pos hx]
    have hnone : predecessors (TopologicalSorter.empty : TopologicalSorter N) x = [] := rfl
    rw [hnone]
    simp
  have hpassed : sorter.passedOut = [] := by
    rw [hsorter, passedOut_foldl_add, hfirst, passedOut_foldl_add nodes (fun _ => [])]
    rfl
  have hfinished : sorter.finished = [] := by
    have hadd : ∀ (s : TopologicalSorter N) (n : N) (ps : List N),
        (s.add n ps).finished = s.finished := by
      intro s n ps
      have hget : ∀ (s : TopologicalSorter N) (l : List N),
          (l.foldl getNodeinfo s).finished = s.finished := by
        intro s l
        induction l generalizing s with
        | nil => rfl
        | cons y rest ih =>
          rw [List.foldl_cons, ih, getNodeinfo]
          split <;> rfl
      rw [add, hget, getNodeinfo]
      split <;> rfl
    have hfold : ∀ (l : List N) (preds : N → List N) (s : TopologicalSorter N),
        (l.foldl (fun s n => s.add n (preds n)) s).finished = s.finished := by
      intro l preds s
      induction l generalizing s with
      | nil => rfl
      | cons y rest ih => rw [List.foldl_cons, ih, hadd]
    rw [hsorter, hfold, hfirst, hfold nodes (fun _ => [])]
    rfl
  have hready : sorter.ready = releases nodes (dependencies graph) [] [] := by
    unfold ready releases
    rw [hkeys, hpassed, hfinished]
    apply List.filter_congr
    intro x hx
    rw [decide_eq_decide]
    exact and_congr_right fun _ => forall_congr' fun d => imp_congr_left (hdeps x hx d)
  have hdrain : drain sorter.getReady.2.node2info.keys.length sorter.getReady.2
      sorter.getReady.1 [] = placedNodes graph key := by
    rw [drain_eq_settle (s := sorter.getReady.2) _ _ hkeys hdeps hfinished]
    show settle nodes (dependencies graph) sorter.node2info.keys.length
      (sorter.passedOut ++ sorter.ready) sorter.ready [] = _
    rw [hkeys, hpassed, hready]
    rfl
  have hdef : stableTopologicalOrder graph key =
      if (drain sorter.getReady.2.node2info.keys.length sorter.getReady.2
          sorter.getReady.1 []).length ≠ nodes.length then
        drain sorter.getReady.2.node2info.keys.length sorter.getReady.2 sorter.getReady.1 [] ++
          nodes.filter (· ∉ drain sorter.getReady.2.node2info.keys.length sorter.getReady.2
            sorter.getReady.1 [])
      else drain sorter.getReady.2.node2info.keys.length sorter.getReady.2
        sorter.getReady.1 [] := rfl
  rw [hdef, hdrain]

/-! ## What is placed -/

/-- What the loop keeps: a placed node has its dependencies before it, and a node
whose dependencies are all placed is placed or waiting. -/
structure Settling (nodes : List N) (deps : N → List N) (passed waiting order : List N) :
    Prop where
  nodup : (order ++ waiting).Nodup
  passed : ∀ x, x ∈ passed ↔ x ∈ order ++ waiting
  known : ∀ x ∈ order ++ waiting, x ∈ nodes
  ready : ∀ x ∈ waiting, ∀ d ∈ deps x, d ∈ order
  respects : ∀ before x after, order = before ++ x :: after → ∀ d ∈ deps x, d ∈ before
  complete : ∀ x ∈ nodes, (∀ d ∈ deps x, d ∈ order) → x ∈ order ++ waiting

theorem settling_start {nodes : List N} (deps : N → List N) (hnodup : nodes.Nodup) :
    Settling nodes deps (releases nodes deps [] []) (releases nodes deps [] []) [] := by
  refine ⟨hnodup.filter _, fun x => Iff.rfl, fun x hx => (List.mem_filter.mp hx).1, ?_, ?_, ?_⟩
  · intro x hx
    exact (of_decide_eq_true (List.mem_filter.mp hx).2).2
  · intro before x after h
    exact absurd h.symm (by simp)
  · intro x hx hdeps
    exact List.mem_filter.mpr ⟨hx, decide_eq_true ⟨List.not_mem_nil, hdeps⟩⟩

theorem settling_step {nodes : List N} {deps : N → List N} {passed rest order : List N} {node : N}
    (hnodes : nodes.Nodup) (h : Settling nodes deps passed (node :: rest) order) :
    Settling nodes deps (passed ++ releases nodes deps passed (order ++ [node]))
      (rest ++ releases nodes deps passed (order ++ [node])) (order ++ [node]) := by
  have hsplit : order ++ node :: rest = (order ++ [node]) ++ rest := by simp
  have hmem : ∀ x, x ∈ passed ↔ x ∈ (order ++ [node]) ++ rest := fun x => by
    rw [h.passed, hsplit]
  constructor
  · rw [← List.append_assoc, ← hsplit]
    refine h.nodup.append (hnodes.filter _) ?_
    intro x hx hreleased
    exact (of_decide_eq_true (List.mem_filter.mp hreleased).2).1 ((h.passed x).mpr hx)
  · intro x
    rw [List.mem_append, hmem, ← List.append_assoc]
    exact List.mem_append.symm
  · intro x hx
    rw [← List.append_assoc, ← hsplit] at hx
    rcases List.mem_append.mp hx with hx | hx
    · exact h.known x hx
    · exact (List.mem_filter.mp hx).1
  · intro x hx d hd
    rcases List.mem_append.mp hx with hx | hx
    · exact List.mem_append_left _ (h.ready x (List.mem_cons_of_mem _ hx) d hd)
    · exact (of_decide_eq_true (List.mem_filter.mp hx).2).2 d hd
  · intro before x after heq d hd
    rcases List.eq_nil_or_concat after with rfl | ⟨after', last, rfl⟩
    · obtain ⟨rfl, hxn⟩ := List.append_inj' heq rfl
      obtain rfl := (List.cons.inj hxn).1
      exact h.ready node List.mem_cons_self d hd
    · have hcons : before ++ x :: after'.concat last = (before ++ x :: after') ++ [last] := by simp
      rw [hcons] at heq
      obtain ⟨hbefore, -⟩ := List.append_inj' heq rfl
      exact h.respects before x after' hbefore d hd
  · intro x hx hdeps
    rw [← List.append_assoc, List.mem_append]
    by_cases hpassed : x ∈ passed
    · exact Or.inl ((hmem x).mp hpassed)
    · exact Or.inr (List.mem_filter.mpr ⟨hx, decide_eq_true ⟨hpassed, hdeps⟩⟩)

theorem settle_settled {nodes : List N} {deps : N → List N} (hnodes : nodes.Nodup) (fuel : ℕ)
    {passed waiting order : List N} (h : Settling nodes deps passed waiting order)
    (hfuel : nodes.length ≤ order.length + fuel) :
    ∃ passed', Settling nodes deps passed' [] (settle nodes deps fuel passed waiting order) := by
  induction fuel generalizing passed waiting order with
  | zero =>
    have hle : (order ++ waiting).length ≤ nodes.length :=
      (List.subperm_of_subset h.nodup h.known).length_le
    rw [List.length_append] at hle
    have hempty : waiting = [] := List.length_eq_zero_iff.mp (by omega)
    subst hempty
    exact ⟨passed, h⟩
  | succ fuel ih =>
    cases waiting with
    | nil => exact ⟨passed, h⟩
    | cons node rest =>
      apply ih (settling_step hnodes h)
      rw [List.length_append, List.length_singleton]
      omega

/-! ## Nodes that a cycle blocks -/

/-- A node depends on a cycle: it is on one, or a chain of dependencies leads to one. -/
def DependsOnCycle (R : N → N → Prop) (x : N) : Prop :=
  ∃ y, ReflTransGen R x y ∧ TransGen R y y

omit [DecidableEq N] in
theorem DependsOnCycle.exists_edge {R : N → N → Prop} {x : N} (h : DependsOnCycle R x) :
    ∃ d, R x d ∧ DependsOnCycle R d := by
  obtain ⟨y, hto, hcycle⟩ := h
  rcases ReflTransGen.cases_head hto with rfl | ⟨d, hedge, hrest⟩
  · obtain ⟨d, hedge, hback⟩ := TransGen.head'_iff.mp hcycle
    exact ⟨d, hedge, x, hback, hcycle⟩
  · exact ⟨d, hedge, y, hrest, hcycle⟩

/-- Where every node of a set has a dependency in the set, every node of the set
depends on a cycle: a chain that is longer than the graph repeats a node. -/
theorem dependsOnCycle_of_forall_exists {graph : Dict N (List N)} {S : N → Prop}
    (hkeys : ∀ x, S x → x ∈ graph.keys) (hS : ∀ x, S x → ∃ d, Edge graph x d ∧ S d) {x : N}
    (hx : S x) : DependsOnCycle (Edge graph) x := by
  have hchain : ∀ n x, S x → ∃ rest : List N, rest.length = n ∧
      (x :: rest).IsChain (Edge graph) ∧ ∀ y ∈ x :: rest, S y := by
    intro n
    induction n with
    | zero => exact fun x hx => ⟨[], rfl, List.isChain_singleton x, by simpa using hx⟩
    | succ n ih =>
      intro x hx
      obtain ⟨d, hedge, hd⟩ := hS x hx
      obtain ⟨rest, hlength, hrest, hall⟩ := ih d hd
      refine ⟨d :: rest, by rw [List.length_cons, hlength],
        List.isChain_cons_cons.mpr ⟨hedge, hrest⟩, ?_⟩
      exact List.forall_mem_cons.mpr ⟨hx, hall⟩
  obtain ⟨rest, hlength, hrest, hall⟩ := hchain graph.keys.length x hx
  have hpairwise : (x :: rest).Pairwise (TransGen (Edge graph)) :=
    (hrest.imp fun _ _ => TransGen.single).pairwise
  by_contra hnot
  have hacyclic : ∀ y ∈ x :: rest, ¬ TransGen (Edge graph) y y := by
    intro y hy hcycle
    apply hnot
    rcases List.mem_cons.mp hy with rfl | hy
    · exact ⟨y, ReflTransGen.refl, hcycle⟩
    · exact ⟨y, ((List.pairwise_cons.mp hpairwise).1 y hy).to_reflTransGen, hcycle⟩
  have hnodup : (x :: rest).Nodup := by
    apply hpairwise.imp_of_mem
    intro a b ha _ hab heq
    exact hacyclic a ha (heq ▸ hab)
  have hle := (List.subperm_of_subset hnodup fun y hy => hkeys y (hall y hy)).length_le
  rw [List.length_cons, hlength] at hle
  omega

/-- A stable order: all nodes once, those that no cycle blocks after their
dependencies, and the others last in key order. -/
structure IsStableOrder (graph : Dict N (List N)) (key : N → K) (order : List N) : Prop where
  perm : order.Perm graph.keys
  blockedLast : ∃ placed blocked, order = placed ++ blocked ∧
    (∀ x, x ∈ blocked ↔ x ∈ graph.keys ∧ DependsOnCycle (Edge graph) x) ∧
    blocked.Pairwise fun a b => key a ≤ key b
  respects : ∀ before x after, order = before ++ x :: after → ¬ DependsOnCycle (Edge graph) x →
    ∀ d, Edge graph x d → d ∈ before

theorem isStableOrder_stableTopologicalOrder (graph : Dict N (List N)) (key : N → K)
    (h : DependenciesKnown graph) :
    IsStableOrder graph key (stableTopologicalOrder graph key) := by
  set nodes := sortBy key graph.keys with hnodesDef
  have hperm : nodes.Perm graph.keys := sortBy_perm key _
  have hnodes : nodes.Nodup := hperm.nodup_iff.mpr graph.keys_nodup
  obtain ⟨passed, hsettled⟩ : ∃ passed, Settling nodes (dependencies graph) passed []
      (placedNodes graph key) :=
    settle_settled hnodes nodes.length (settling_start (dependencies graph) hnodes) (by simp)
  set placed := placedNodes graph key with hplaced
  have hnodup : placed.Nodup := by simpa using hsettled.nodup
  have hsub : ∀ x ∈ placed, x ∈ nodes := fun x hx => hsettled.known x (by simpa using hx)
  have hcomplete : ∀ x ∈ nodes, (∀ d ∈ dependencies graph x, d ∈ placed) → x ∈ placed :=
    fun x hx hd => by simpa using hsettled.complete x hx hd
  -- No placed node depends on a cycle, by the order in which they were placed.
  have hfree : ∀ before after, placed = before ++ after → ∀ x ∈ before,
      ¬ DependsOnCycle (Edge graph) x := by
    intro before
    induction before using List.reverseRecOn with
    | nil => simp
    | append_singleton before y ih =>
      intro after heq x hx
      rw [List.append_assoc] at heq
      rcases List.mem_append.mp hx with hx | hx
      · exact ih _ heq x hx
      · rw [List.mem_singleton.mp hx]
        intro hcycle
        obtain ⟨d, hedge, hd⟩ := hcycle.exists_edge
        have hbefore := hsettled.respects before y after heq d
          ((edge_iff_mem_dependencies graph y d).mp hedge)
        exact ih _ heq d hbefore hd
  have hblocked : ∀ x, x ∈ nodes.filter (· ∉ placed) ↔
      x ∈ graph.keys ∧ DependsOnCycle (Edge graph) x := by
    intro x
    rw [List.mem_filter, decide_eq_true_iff, hperm.mem_iff]
    refine and_congr_right fun hx => ⟨fun hnot => ?_, fun hcycle hmem => ?_⟩
    · apply dependsOnCycle_of_forall_exists (S := fun y => y ∈ graph.keys ∧ y ∉ placed)
        (fun y hy => hy.1) _ ⟨hx, hnot⟩
      rintro y ⟨hy, hyoff⟩
      by_contra hnone
      apply hyoff
      apply hcomplete y (hperm.mem_iff.mpr hy)
      intro d hd
      by_contra hdoff
      have hedge := (edge_iff_mem_dependencies graph y d).mpr hd
      exact hnone ⟨d, hedge, h y d hedge, hdoff⟩
    · exact hfree placed [] (by simp) x hmem hcycle
  have horder : stableTopologicalOrder graph key = placed ++ nodes.filter (· ∉ placed) := by
    rw [stableTopologicalOrder_eq_settle graph key h]
    split
    · rfl
    · rename_i hlength
      have hcover : placed.Perm nodes :=
        (List.subperm_of_subset hnodup hsub).perm_of_length_le
          (le_of_eq (not_ne_iff.mp hlength).symm)
      have hnil : nodes.filter (· ∉ placed) = [] := by
        rw [List.filter_eq_nil_iff]
        intro x hx
        simpa using hcover.mem_iff.mpr hx
      rw [hnil, List.append_nil]
  rw [horder]
  refine ⟨?_, ⟨placed, nodes.filter (· ∉ placed), rfl, hblocked, ?_⟩, ?_⟩
  · refine List.Perm.trans ?_ hperm
    rw [List.perm_ext_iff_of_nodup _ hnodes]
    · intro x
      rw [List.mem_append, List.mem_filter, decide_eq_true_iff]
      constructor
      · rintro (hx | hx)
        · exact hsub x hx
        · exact hx.1
      · intro hx
        by_cases hmem : x ∈ placed
        · exact Or.inl hmem
        · exact Or.inr ⟨hx, hmem⟩
    · refine hnodup.append (hnodes.filter _) ?_
      intro x hx hfilter
      exact absurd hx (of_decide_eq_true (List.mem_filter.mp hfilter).2)
  · exact (sortBy_pairwise key graph.keys).filter _
  · intro before x after heq hfreeX d hedge
    have hd := (edge_iff_mem_dependencies graph x d).mp hedge
    rcases List.append_eq_append_iff.mp heq with ⟨extra, hbefore, hfilter⟩ | ⟨extra, hplacedEq, hrest⟩
    · -- The node would stand among the blocked ones.
      exfalso
      have hmem : x ∈ nodes.filter (· ∉ placed) := by
        rw [hfilter]
        simp
      exact hfreeX ((hblocked x).mp hmem).2
    · cases extra with
      | nil =>
        exfalso
        have hmem : x ∈ nodes.filter (· ∉ placed) := by
          rw [List.nil_append] at hrest
          rw [← hrest]
          exact List.mem_cons_self
        exact hfreeX ((hblocked x).mp hmem).2
      | cons y extra =>
        rw [List.cons_append] at hrest
        obtain ⟨rfl, -⟩ := List.cons.inj hrest
        exact hsettled.respects before x extra hplacedEq d hd

/-! ## Insertion order -/

theorem settle_congr {nodes : List N} {deps deps' : N → List N}
    (h : ∀ x ∈ nodes, ∀ d, d ∈ deps x ↔ d ∈ deps' x) (fuel : ℕ) (passed waiting order : List N) :
    settle nodes deps fuel passed waiting order = settle nodes deps' fuel passed waiting order := by
  have hreleases : ∀ passed finished,
      releases nodes deps passed finished = releases nodes deps' passed finished := by
    intro passed finished
    apply List.filter_congr
    intro x hx
    rw [decide_eq_decide]
    exact and_congr_right fun _ => forall_congr' fun d => imp_congr_left (h x hx d)
  induction fuel generalizing passed waiting order with
  | zero => rfl
  | succ fuel ih =>
    cases waiting with
    | nil => rfl
    | cons node rest =>
      rw [settle, settle, hreleases]
      exact ih _ _ _

/-- Two mappings hold the same dependencies, in whatever order they were inserted. -/
def SameDependencies (graph graph' : Dict N (List N)) : Prop :=
  graph.keys.Perm graph'.keys ∧ ∀ x d, Edge graph x d ↔ Edge graph' x d

/-- With keys that tell the nodes apart, the order does not depend on insertion. -/
theorem stableTopologicalOrder_congr {graph graph' : Dict N (List N)} {key : N → K}
    (hkey : ∀ a ∈ graph.keys, ∀ b ∈ graph.keys, key a = key b → a = b)
    (hknown : DependenciesKnown graph) (hsame : SameDependencies graph graph') :
    stableTopologicalOrder graph' key = stableTopologicalOrder graph key := by
  obtain ⟨hperm, hedges⟩ := hsame
  have hknown' : DependenciesKnown graph' := fun x d hedge =>
    hperm.mem_iff.mp (hknown x d ((hedges x d).mpr hedge))
  have hsort : sortBy key graph'.keys = sortBy key graph.keys :=
    (sortBy_eq_of_perm_of_injOn hperm hkey).symm
  have hdeps : ∀ x, ∀ d, d ∈ dependencies graph' x ↔ d ∈ dependencies graph x := fun x d => by
    rw [← edge_iff_mem_dependencies, ← edge_iff_mem_dependencies]
    exact (hedges x d).symm
  have hready : releases (sortBy key graph.keys) (dependencies graph') [] [] =
      releases (sortBy key graph.keys) (dependencies graph) [] [] := by
    apply List.filter_congr
    intro x _
    rw [decide_eq_decide]
    exact and_congr_right fun _ => forall_congr' fun d => imp_congr_left (hdeps x d)
  have hplaced : placedNodes graph' key = placedNodes graph key := by
    unfold placedNodes
    rw [hsort]
    dsimp only
    rw [hready]
    exact settle_congr (fun x _ => hdeps x) _ _ _ _
  rw [stableTopologicalOrder_eq_settle graph' key hknown',
    stableTopologicalOrder_eq_settle graph key hknown, hplaced, hsort]

/-! ## Orders of graphs without a cycle -/

def RespectsAll (graph : Dict N (List N)) (order : List N) : Prop :=
  ∀ before x after, order = before ++ x :: after → ∀ d, Edge graph x d → d ∈ before

theorem RespectsAll.reached {graph : Dict N (List N)} {order : List N}
    (h : RespectsAll graph order) {x y : N}
    (hreach : TransGen (Edge graph) x y) {before after : List N}
    (heq : order = before ++ x :: after) : y ∈ before := by
  induction hreach with
  | single hedge => exact h before x after heq _ hedge
  | @tail y z _ hedge ih =>
    obtain ⟨first, rest, rfl⟩ := List.append_of_mem ih
    have hy : order = first ++ y :: (rest ++ x :: after) := by simp [heq]
    exact List.mem_append_left _ (h first y _ hy z hedge)

/-- The order is a topological order exactly of the graphs that `has_cycle` lets pass. -/
theorem stableTopologicalOrder_respectsAll_iff (graph : Dict N (List N)) (key : N → K)
    (hknown : DependenciesKnown graph) :
    RespectsAll graph (stableTopologicalOrder graph key) ↔ hasCycle graph = false := by
  have horder := isStableOrder_stableTopologicalOrder graph key hknown
  rw [Bool.eq_false_iff, Ne, hasCycle_iff, not_exists]
  constructor
  · intro hall x hcycle
    obtain ⟨d, ⟨adjacent, hadjacent, -⟩, -⟩ := TransGen.head'_iff.mp hcycle
    have hx : x ∈ stableTopologicalOrder graph key :=
      horder.perm.mem_iff.mpr (Dict.mem_keys_iff.mpr ⟨adjacent, hadjacent⟩)
    obtain ⟨before, after, heq⟩ := List.append_of_mem hx
    have hnodup := horder.perm.nodup_iff.mpr graph.keys_nodup
    rw [heq] at hnodup
    exact List.disjoint_of_nodup_append hnodup (hall.reached hcycle heq) List.mem_cons_self
  · intro hacyclic before x after heq
    refine horder.respects before x after heq ?_
    rintro ⟨y, -, hy⟩
    exact hacyclic y hy

def loopGraph : Dict ℕ (List ℕ) := ⟨[(1, [2]), (2, [1])], by decide⟩

theorem stableTopologicalOrder_respectsAll_iff_loop :
    ¬ RespectsAll loopGraph (stableTopologicalOrder loopGraph id) := by
  have hknown : DependenciesKnown loopGraph := by
    intro x d hedge
    obtain ⟨adjacent, hadjacent, hd⟩ := hedge
    obtain ⟨rfl, rfl⟩ | ⟨rfl, rfl⟩ : (x = 1 ∧ adjacent = [2]) ∨ (x = 2 ∧ adjacent = [1]) := by
      simpa [loopGraph] using Dict.get?_eq_some_iff.mp hadjacent
    all_goals rw [List.mem_singleton.mp hd]; decide
  rw [stableTopologicalOrder_respectsAll_iff loopGraph id hknown]
  decide +kernel

end Raes.Graph
