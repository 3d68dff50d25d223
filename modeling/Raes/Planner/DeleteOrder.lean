import Raes.Graph.StableOrderSpec
import Raes.Planner.Dependencies

/-!
# Delete order

The topological and the delete order of `raes_processor/semantics/planner.py`.  The
planner drops the dependencies on unknown resources before it orders the others,
and orders by addresses, which tell the resources apart; so its orders are stable
orders of every set of resources.
-/

namespace Raes.Planner

open Contracts Graph

def reverseDeleteOrder (dependenciesByNode : Dict String (List String)) :
    Except PyError (List String) := do
  let order ← topologicalDependencyOrder dependenciesByNode
  return order.reverse

def resourceTopologicalOrder (resources : Dict String DependencySemantics) :
    Except PyError (List String) := do
  let graph ← dependencyGraphForResources resources .ordering
  topologicalDependencyOrder graph

def resourceDeleteOrder (resources : Dict String DependencySemantics) :
    Except PyError (List String) := do
  let order ← resourceTopologicalOrder resources
  return order.reverse

variable (graph : Dict String (List String))

def DependsOnKnown (x d : String) : Prop :=
  d ∈ adjacent graph x ∧ d ∈ graph.keys

def OrderedAfter (resources : Dict String DependencySemantics) (x d : String) : Prop :=
  d ∈ resources.keys ∧
    ∃ resource, resources.get? x = some resource ∧ d ∈ resource.orderingDependencies

/-- A delete order: all nodes once, and a node that no cycle blocks before the nodes
it depends on. -/
structure IsDeleteOrder (keys : List String) (R : String → String → Prop)
    (order : List String) : Prop where
  perm : order.Perm keys
  respects : ∀ before x after, order = before ++ x :: after → ¬ DependsOnCycle R x →
    ∀ d, R x d → d ∈ after

theorem edge_dependencyGraph : Edge (dependencyGraph graph) = DependsOnKnown graph := by
  funext x d
  rw [eq_iff_iff, edge_iff_mem_dependencies]
  exact mem_adjacent_dependencyGraph graph x d

theorem dependenciesKnown_dependencyGraph : DependenciesKnown (dependencyGraph graph) := by
  intro x d hedge
  rw [edge_dependencyGraph] at hedge
  rw [keys_dependencyGraph]
  exact hedge.2

theorem dependsOnKnown_resourceGraph (resources : Dict String DependencySemantics) :
    DependsOnKnown (resourceGraph resources .ordering) = OrderedAfter resources := by
  funext x d
  rw [eq_iff_iff, DependsOnKnown, mem_keys_resourceGraph, mem_adjacent_resourceGraph]
  exact and_iff_left_of_imp And.left

theorem topologicalDependencyOrder_ok {graph : Dict String (List String)} {order : List String}
    (h : topologicalDependencyOrder graph = .ok order) :
    IsStableOrder (dependencyGraph graph) id order := by
  unfold topologicalDependencyOrder at h
  obtain ⟨_, _, hreturn⟩ := bind_eq_ok_iff.mp h
  rw [← Except.ok.inj hreturn]
  exact isStableOrder_stableTopologicalOrder _ id (dependenciesKnown_dependencyGraph graph)

theorem isDeleteOrder_reverse {graph : Dict String (List String)} {order : List String}
    (h : IsStableOrder graph id order) : IsDeleteOrder graph.keys (Edge graph) order.reverse := by
  refine ⟨(List.reverse_perm order).trans h.perm, ?_⟩
  intro before x after heq hfree d hedge
  have horder : order = after.reverse ++ x :: before.reverse := by
    rw [← List.reverse_reverse order, heq]
    simp
  exact List.mem_reverse.mp (h.respects after.reverse x before.reverse horder hfree d hedge)

theorem reverseDeleteOrder_isDeleteOrder {graph : Dict String (List String)} {order : List String}
    (h : reverseDeleteOrder graph = .ok order) :
    IsDeleteOrder graph.keys (DependsOnKnown graph) order := by
  unfold reverseDeleteOrder at h
  obtain ⟨forward, hforward, hreturn⟩ := bind_eq_ok_iff.mp h
  rw [← Except.ok.inj hreturn, ← edge_dependencyGraph, ← keys_dependencyGraph]
  exact isDeleteOrder_reverse (topologicalDependencyOrder_ok hforward)

theorem resourceDeleteOrder_isDeleteOrder {resources : Dict String DependencySemantics}
    {order : List String} (hkeys : IsCompiledKeys resources)
    (h : resourceDeleteOrder resources = .ok order) :
    IsDeleteOrder resources.keys (OrderedAfter resources) order := by
  unfold resourceDeleteOrder resourceTopologicalOrder at h
  rw [dependencyGraphForResources_ok .ordering hkeys] at h
  have hreverse := @reverseDeleteOrder_isDeleteOrder (resourceGraph resources .ordering) _ h
  rw [dependsOnKnown_resourceGraph] at hreverse
  refine ⟨hreverse.perm.trans ?_, hreverse.respects⟩
  rw [List.perm_ext_iff_of_nodup (Dict.keys_nodup _) (Dict.keys_nodup _)]
  exact mem_keys_resourceGraph resources .ordering

theorem exists_resourceDeleteOrder {resources : Dict String DependencySemantics}
    (hkeys : IsCompiledKeys resources) : ∃ order, resourceDeleteOrder resources = .ok order := by
  have hgraph : IsCompiledKeys (resourceGraph resources .ordering) := fun x hx =>
    hkeys x ((mem_keys_resourceGraph resources .ordering x).mp hx)
  obtain ⟨order, horder, -⟩ := mem_topologicalDependencyOrder _ hgraph
  refine ⟨order.reverse, ?_⟩
  unfold resourceDeleteOrder resourceTopologicalOrder
  rw [dependencyGraphForResources_ok .ordering hkeys]
  show (topologicalDependencyOrder (resourceGraph resources .ordering)).bind _ = _
  rw [horder]
  rfl

/-- A mapping of known dependencies has a stable order, which under a key that tells
the nodes apart does not depend on insertion, and the planner's delete order of any
resources puts each before the resources it depends on. -/
theorem stableOrder_and_deleteOrder :
    (∀ {N K : Type} [DecidableEq N] [LinearOrder K] (graph : Dict N (List N)) (key : N → K),
      DependenciesKnown graph →
        IsStableOrder graph key (stableTopologicalOrder graph key) ∧
          ((∀ a ∈ graph.keys, ∀ b ∈ graph.keys, key a = key b → a = b) →
            ∀ graph', SameDependencies graph graph' →
              stableTopologicalOrder graph' key = stableTopologicalOrder graph key)) ∧
      ∀ resources : Dict String DependencySemantics, IsCompiledKeys resources →
        ∃ order, resourceDeleteOrder resources = .ok order ∧
          IsDeleteOrder resources.keys (OrderedAfter resources) order := by
  constructor
  · intro N K _ _ graph key hknown
    exact ⟨isStableOrder_stableTopologicalOrder graph key hknown,
      fun hkey graph' hsame => stableTopologicalOrder_congr hkey hknown hsame⟩
  · intro resources hkeys
    obtain ⟨order, horder⟩ := exists_resourceDeleteOrder hkeys
    exact ⟨order, horder, resourceDeleteOrder_isDeleteOrder hkeys horder⟩

def twoResources : Dict String DependencySemantics :=
  ⟨[("node.a", ⟨["node.b"], []⟩), ("node.b", ⟨[], []⟩)], by decide⟩

/-- The dependent of two resources is deleted first, and their order is stable. -/
theorem stableOrder_and_deleteOrder_two :
    IsStableOrder (⟨[(1, [2]), (2, [])], by decide⟩ : Dict ℕ (List ℕ)) id [2, 1] ∧
      ∃ order, resourceDeleteOrder twoResources = .ok order ∧
        IsDeleteOrder twoResources.keys (OrderedAfter twoResources) order := by
  refine ⟨?_, stableOrder_and_deleteOrder.2 twoResources (by decide +kernel)⟩
  have hknown : DependenciesKnown (⟨[(1, [2]), (2, [])], by decide⟩ : Dict ℕ (List ℕ)) := by
    intro x d hedge
    obtain ⟨adjacent, hadjacent, hd⟩ := hedge
    obtain ⟨rfl, rfl⟩ | ⟨rfl, rfl⟩ : (x = 1 ∧ adjacent = [2]) ∨ (x = 2 ∧ adjacent = []) := by
      simpa using Dict.get?_eq_some_iff.mp hadjacent
    · rw [List.mem_singleton.mp hd]
      decide
    · cases hd
  exact (stableOrder_and_deleteOrder.1 _ id hknown).1

/-- A dependency that is not a key is placed too, and a key that does not tell two
nodes apart leaves them in insertion order. -/
theorem stableOrder_needs_known_nodes :
    ¬ (stableTopologicalOrder (⟨[(1, [2])], by decide⟩ : Dict ℕ (List ℕ)) id).Perm [1] ∧
      stableTopologicalOrder (⟨[(1, []), (2, [])], by decide⟩ : Dict ℕ (List ℕ))
          (fun _ => 0) ≠
        stableTopologicalOrder (⟨[(2, []), (1, [])], by decide⟩ : Dict ℕ (List ℕ))
          (fun _ => 0) := by
  decide +kernel

end Raes.Planner
