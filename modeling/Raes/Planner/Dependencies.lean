import Mathlib.Data.String.Basic
import Raes.Contracts.Addressing
import Raes.Graph.StableOrder
import Raes.Lib.Worklist

/-!
# Dependency semantics

The dependency graphs of `raes_processor/semantics/planner.py` and the nodes
that a change refreshes.
-/

namespace Raes.Planner

open Contracts Graph

inductive DependencyKind where
  | ordering
  | refresh
  deriving DecidableEq, Repr

/-- A normalized dependency edge between canonical resource identities. -/
structure DependencyEdge where
  (source target : String)
  kind : DependencyKind
  deriving DecidableEq, Repr

/-- The shape of a resource that the dependency analysis reads. -/
structure DependencySemantics where
  (orderingDependencies refreshDependencies : List String)

def canonicalResourceIdentity (address : String) : Except PyError String :=
  requireCompiledAddress address

/-- Sort by canonical identity.  The sort computes the key of every item before
it compares two, so one address that is not compiled refuses the whole list. -/
def sortedByIdentity (addresses : List String) : Except PyError (List String) := do
  let _ ← addresses.mapM canonicalResourceIdentity
  return addresses.insertionSort (· ≤ ·)

def dependencyGraph (dependenciesByNode : Dict String (List String)) : Dict String (List String) :=
  dependenciesByNode.mapValues fun _ dependencies =>
    dependencies.filter fun dependency => dependenciesByNode.contains dependency

/-- Append the target of an edge to the list of its source, if the source is known. -/
def addEdge (graph : Dict String (List String)) (edge : DependencyEdge) :
    Dict String (List String) :=
  match graph.get? edge.source with
  | some targets => graph.set edge.source (targets ++ [edge.target])
  | none => graph

def dependencyGraphFromEdges (edges : List DependencyEdge) (knownNodes : List String) :
    Dict String (List String) :=
  dependencyGraph
    (edges.foldl addEdge (knownNodes.foldl (fun graph node => graph.set node []) Dict.empty))

def dependenciesOfKind (resource : DependencySemantics) : DependencyKind → List String
  | .ordering => resource.orderingDependencies
  | .refresh => resource.refreshDependencies

variable (resources : Dict String DependencySemantics)

def edgesFrom (kind : DependencyKind) (source : String) : List DependencyEdge :=
  match resources.get? source with
  | none => []
  | some resource =>
    ((dependenciesOfKind resource kind).filter fun target => resources.contains target).map
      fun target => ⟨source, target, kind⟩

def dependencyEdges (kind : DependencyKind) : Except PyError (List DependencyEdge) := do
  let sources ← sortedByIdentity resources.keys
  return sources.flatMap (edgesFrom resources kind)

def dependencyGraphForResources (kind : DependencyKind) : Except PyError (Dict String
    (List String)) := do
  let edges ← dependencyEdges resources kind
  return dependencyGraphFromEdges edges resources.keys

def topologicalDependencyOrder (dependenciesByNode : Dict String (List String)) :
    Except PyError (List String) := do
  let graph := dependencyGraph dependenciesByNode
  let _ ← graph.keys.mapM canonicalResourceIdentity
  return stableTopologicalOrder graph id

/-- Record a node under each of its dependencies. -/
def addDependents (dependents : Dict String (List String)) (entry : String × List String) :
    Dict String (List String) :=
  entry.2.foldl (fun dependents dependency =>
    dependents.set dependency ((dependents.get? dependency).getD [] ++ [entry.1])) dependents

def dependentsOf (refreshGraph : Dict String (List String)) : Dict String (List String) :=
  refreshGraph.entries.foldl addDependents (refreshGraph.mapValues fun _ _ => [])

/-- The nodes that must refresh because a dependency of theirs changed.  The
worklist starts with the changed nodes seen, so what it sees beyond them is the
impacted set of the source. -/
def refreshImpactedNodes (changed : List String) : Except PyError (List String) := do
  let refreshGraph ← dependencyGraphForResources resources .refresh
  let dependents := dependentsOf refreshGraph
  let queue ← sortedByIdentity changed
  let next := fun dependency =>
    ((dependents.get? dependency).getD []).insertionSort (· ≤ ·)
  let seen := (Worklist.run next (changed.length + refreshGraph.keys.length) queue queue).2
  let refreshOrder ← topologicalDependencyOrder refreshGraph
  return refreshOrder.filter fun address => address ∈ seen ∧ address ∉ changed

/-! ## What the graphs hold -/

variable (graph : Dict String (List String))

def adjacent (node : String) : List String :=
  (graph.get? node).getD []

theorem adjacent_set (k : String) (l : List String) (node : String) :
    adjacent (graph.set k l) node = if node = k then l else adjacent graph node := by
  unfold adjacent
  rw [Dict.get?_set]
  split <;> rfl

theorem mem_keys_addEdge (edge : DependencyEdge)
    (x : String) : x ∈ (addEdge graph edge).keys ↔ x ∈ graph.keys := by
  unfold addEdge
  cases h : graph.get? edge.source with
  | none => rfl
  | some targets =>
    have hsource : edge.source ∈ graph.keys := Dict.mem_keys_iff.mpr ⟨_, h⟩
    rw [Dict.mem_keys_set]
    constructor
    · intro hx
      rcases hx with rfl | hx
      · exact hsource
      · exact hx
    · exact Or.inr

theorem mem_adjacent_addEdge (edge : DependencyEdge) (node x : String) :
    x ∈ adjacent (addEdge graph edge) node ↔
      x ∈ adjacent graph node ∨
        (node ∈ graph.keys ∧ edge.source = node ∧ edge.target = x) := by
  unfold addEdge
  cases h : graph.get? edge.source with
  | none =>
    have hsource : edge.source ∉ graph.keys := Dict.get?_eq_none_iff.mp h
    constructor
    · exact Or.inl
    · intro hx
      rcases hx with hx | ⟨hnode, rfl, _⟩
      · exact hx
      · exact absurd hnode hsource
  | some targets =>
    have hsource : edge.source ∈ graph.keys := Dict.mem_keys_iff.mpr ⟨_, h⟩
    have htargets : adjacent graph edge.source = targets := by
      unfold adjacent
      rw [h]
      rfl
    rw [adjacent_set]
    by_cases hn : node = edge.source
    · subst hn
      rw [if_pos rfl, htargets, List.mem_append, List.mem_singleton]
      constructor
      · intro hx
        exact hx.imp id fun hx => ⟨hsource, rfl, hx.symm⟩
      · intro hx
        exact hx.imp id fun hx => hx.2.2.symm
    · rw [if_neg hn]
      constructor
      · exact Or.inl
      · intro hx
        rcases hx with hx | ⟨_, hs, _⟩
        · exact hx
        · exact absurd hs.symm hn

variable (edges : List DependencyEdge)

theorem mem_keys_foldl_addEdge (graph : Dict String (List String))
    (x : String) : x ∈ (edges.foldl addEdge graph).keys ↔ x ∈ graph.keys := by
  induction edges generalizing graph with
  | nil => rfl
  | cons edge rest ih => rw [List.foldl_cons, ih, mem_keys_addEdge]

theorem mem_adjacent_foldl_addEdge (graph : Dict String (List String)) (node x : String) :
    x ∈ adjacent (edges.foldl addEdge graph) node ↔
      x ∈ adjacent graph node ∨
        (node ∈ graph.keys ∧ ∃ edge ∈ edges, edge.source = node ∧ edge.target = x) := by
  induction edges generalizing graph with
  | nil => simp
  | cons edge rest ih =>
    rw [List.foldl_cons, ih, mem_adjacent_addEdge, mem_keys_addEdge, List.exists_mem_cons_iff,
      or_assoc, ← and_or_left]

theorem mem_keys_foldl_set_nil (nodes : List String) (graph : Dict String (List String))
    (x : String) :
    x ∈ (nodes.foldl (fun graph node => graph.set node []) graph).keys ↔
      x ∈ nodes ∨ x ∈ graph.keys := by
  induction nodes generalizing graph with
  | nil => simp
  | cons node rest ih =>
    rw [List.foldl_cons, ih, Dict.mem_keys_set, List.mem_cons, or_left_comm, or_assoc]

theorem adjacent_foldl_set_nil (nodes : List String) (graph : Dict String (List String))
    (h : ∀ node, adjacent graph node = []) (node : String) :
    adjacent (nodes.foldl (fun graph node => graph.set node []) graph) node = [] := by
  induction nodes generalizing graph with
  | nil => exact h node
  | cons first rest ih =>
    apply ih
    intro y
    rw [adjacent_set]
    split
    · rfl
    · exact h y

theorem keys_dependencyGraph :
    (dependencyGraph graph).keys = graph.keys := Dict.keys_mapValues graph _

theorem mem_adjacent_dependencyGraph (node x : String) :
    x ∈ adjacent (dependencyGraph graph) node ↔ x ∈ adjacent graph node ∧ x ∈ graph.keys := by
  unfold adjacent dependencyGraph
  rw [Dict.get?_mapValues]
  cases graph.get? node with
  | none => simp
  | some dependencies =>
    rw [Option.map_some, Option.getD_some, Option.getD_some, List.mem_filter, Dict.contains_iff]

theorem mem_keys_dependencyGraphFromEdges (known : List String)
    (x : String) : x ∈ (dependencyGraphFromEdges edges known).keys ↔ x ∈ known := by
  unfold dependencyGraphFromEdges
  rw [keys_dependencyGraph, mem_keys_foldl_addEdge, mem_keys_foldl_set_nil]
  simp [Dict.keys, Dict.empty]

theorem mem_adjacent_dependencyGraphFromEdges (known : List String) (node x : String) :
    x ∈ adjacent (dependencyGraphFromEdges edges known) node ↔
      node ∈ known ∧ x ∈ known ∧ ∃ edge ∈ edges, edge.source = node ∧ edge.target = x := by
  have hkeys : ∀ y, y ∈ (known.foldl (fun graph node => graph.set node [])
      (Dict.empty : Dict String (List String))).keys ↔ y ∈ known := by
    intro y
    rw [mem_keys_foldl_set_nil]
    simp [Dict.keys, Dict.empty]
  unfold dependencyGraphFromEdges
  rw [mem_adjacent_dependencyGraph, mem_keys_foldl_addEdge, mem_adjacent_foldl_addEdge,
    adjacent_foldl_set_nil _ _ (fun _ => rfl), hkeys, hkeys]
  simp only [List.not_mem_nil, false_or]
  tauto

theorem mem_adjacent_addDependents (dependents : Dict String (List String))
    (entry : String × List String) (node x : String) :
    x ∈ adjacent (addDependents dependents entry) node ↔
      x ∈ adjacent dependents node ∨ (entry.1 = x ∧ node ∈ entry.2) := by
  obtain ⟨address, dependencies⟩ := entry
  unfold addDependents
  induction dependencies generalizing dependents with
  | nil => simp
  | cons dependency rest ih =>
    rw [List.foldl_cons, ih]
    show x ∈ adjacent (dependents.set dependency (adjacent dependents dependency ++ [address]))
      node ∨ _ ↔ _
    rw [adjacent_set, List.mem_cons]
    by_cases h : node = dependency
    · subst h
      rw [if_pos rfl, List.mem_append, List.mem_singleton]
      constructor
      · intro hx
        rcases hx with (hx | rfl) | ⟨rfl, hx⟩
        · exact Or.inl hx
        · exact Or.inr ⟨rfl, Or.inl rfl⟩
        · exact Or.inr ⟨rfl, Or.inr hx⟩
      · intro hx
        rcases hx with hx | ⟨rfl, _⟩
        · exact Or.inl (Or.inl hx)
        · exact Or.inl (Or.inr rfl)
    · rw [if_neg h]
      simp [h]

theorem mem_adjacent_foldl_addDependents (entries : List (String × List String))
    (dependents : Dict String (List String)) (node x : String) :
    x ∈ adjacent (entries.foldl addDependents dependents) node ↔
      x ∈ adjacent dependents node ∨ ∃ entry ∈ entries, entry.1 = x ∧ node ∈ entry.2 := by
  induction entries generalizing dependents with
  | nil => simp
  | cons entry rest ih =>
    rw [List.foldl_cons, ih, mem_adjacent_addDependents, List.exists_mem_cons_iff, or_assoc]

theorem mem_adjacent_dependentsOf (node x : String) :
    x ∈ adjacent (dependentsOf graph) node ↔ node ∈ adjacent graph x := by
  have hnil : adjacent (graph.mapValues fun _ _ => ([] : List String)) node = [] := by
    unfold adjacent
    rw [Dict.get?_mapValues]
    cases graph.get? node <;> rfl
  unfold dependentsOf
  rw [mem_adjacent_foldl_addDependents, hnil]
  simp only [List.not_mem_nil, false_or]
  constructor
  · intro h
    obtain ⟨⟨address, dependencies⟩, hmem, rfl, hnode⟩ := h
    unfold adjacent
    rw [Dict.get?_eq_some_iff.mpr hmem]
    exact hnode
  · intro h
    unfold adjacent at h
    cases hx : graph.get? x with
    | none => simp [hx] at h
    | some dependencies =>
      rw [hx] at h
      exact ⟨(x, dependencies), Dict.get?_eq_some_iff.mp hx, rfl, h⟩

/-! ## The graph of a set of resources -/

def IsCompiledKeys {α : Type} (resources : Dict String α) : Prop :=
  ∀ address ∈ resources.keys, isCompiledAddress address = true

instance {α : Type} (resources : Dict String α) : Decidable (IsCompiledKeys resources) :=
  inferInstanceAs (Decidable (∀ address ∈ resources.keys, isCompiledAddress address = true))

def addressRefusal : PyError := .valueError "address must be a canonical compiled address"

variable {addresses : List String}

theorem mapM_canonicalResourceIdentity_ok (h : ∀ a ∈ addresses, isCompiledAddress a = true) :
    addresses.mapM canonicalResourceIdentity = .ok addresses :=
  (mapM_requireCompiledAddress addresses).trans (if_pos h)

theorem sortedByIdentity_ok (h : ∀ a ∈ addresses, isCompiledAddress a = true) :
    sortedByIdentity addresses = .ok (addresses.insertionSort (· ≤ ·)) := by
  unfold sortedByIdentity
  rw [mapM_canonicalResourceIdentity_ok h]
  rfl

theorem sortedByIdentity_error (h : ¬ ∀ a ∈ addresses, isCompiledAddress a = true) :
    sortedByIdentity addresses = .error addressRefusal := by
  have hmap : addresses.mapM canonicalResourceIdentity = .error addressRefusal :=
    (mapM_requireCompiledAddress addresses).trans (if_neg h)
  unfold sortedByIdentity
  rw [hmap]
  rfl

/-- The graph that `dependencyGraphForResources` builds when it does not refuse. -/
def resourceGraph (kind : DependencyKind) : Dict String (List String) :=
  dependencyGraphFromEdges
    ((resources.keys.insertionSort (· ≤ ·)).flatMap (edgesFrom resources kind)) resources.keys

theorem dependencyGraphForResources_ok {resources : Dict String DependencySemantics}
    (kind : DependencyKind) (h : IsCompiledKeys resources) :
    dependencyGraphForResources resources kind = .ok (resourceGraph resources kind) := by
  unfold dependencyGraphForResources dependencyEdges
  rw [sortedByIdentity_ok h]
  rfl

theorem dependencyGraphForResources_error {resources : Dict String DependencySemantics}
    (kind : DependencyKind) (h : ¬ IsCompiledKeys resources) :
    dependencyGraphForResources resources kind = .error addressRefusal := by
  unfold dependencyGraphForResources dependencyEdges
  rw [sortedByIdentity_error h]
  rfl

theorem mem_keys_resourceGraph (kind : DependencyKind) (x : String) :
    x ∈ (resourceGraph resources kind).keys ↔ x ∈ resources.keys :=
  mem_keys_dependencyGraphFromEdges _ _ x

theorem mem_adjacent_resourceGraph (kind : DependencyKind) (node x : String) :
    x ∈ adjacent (resourceGraph resources kind) node ↔
      x ∈ resources.keys ∧
        ∃ resource, resources.get? node = some resource ∧
          x ∈ dependenciesOfKind resource kind := by
  unfold resourceGraph
  rw [mem_adjacent_dependencyGraphFromEdges]
  constructor
  · intro h
    obtain ⟨_, hx, edge, hedge, hsource, htarget⟩ := h
    refine ⟨hx, ?_⟩
    obtain ⟨source, _, hmem⟩ := List.mem_flatMap.mp hedge
    unfold edgesFrom at hmem
    cases hget : resources.get? source with
    | none =>
      rw [hget] at hmem
      exact absurd hmem List.not_mem_nil
    | some resource =>
      rw [hget] at hmem
      obtain ⟨target, htarget', rfl⟩ := List.mem_map.mp hmem
      subst hsource htarget
      exact ⟨resource, hget, (List.mem_filter.mp htarget').1⟩
  · intro h
    obtain ⟨hx, resource, hget, hdep⟩ := h
    have hnode : node ∈ resources.keys := Dict.mem_keys_iff.mpr ⟨resource, hget⟩
    refine ⟨hnode, hx, ⟨node, x, kind⟩, ?_, rfl, rfl⟩
    refine List.mem_flatMap.mpr ⟨node, (List.mem_insertionSort _).mpr hnode, ?_⟩
    unfold edgesFrom
    rw [hget]
    refine List.mem_map.mpr ⟨x, List.mem_filter.mpr ⟨hdep, ?_⟩, rfl⟩
    exact Dict.contains_iff.mpr hx

/-! ## The refreshed nodes -/

/-- A refresh dependency: the resource at `dependent` names `dependency`. -/
def RefreshEdge (dependency dependent : String) : Prop :=
  ∃ resource, resources.get? dependent = some resource ∧
    dependency ∈ resource.refreshDependencies

theorem mem_topologicalDependencyOrder (h : IsCompiledKeys graph) :
    ∃ order, topologicalDependencyOrder graph = .ok order ∧
      ∀ x, x ∈ order ↔ x ∈ graph.keys := by
  have hkeys : (dependencyGraph graph).keys = graph.keys := keys_dependencyGraph graph
  refine ⟨stableTopologicalOrder (dependencyGraph graph) id, ?_, ?_⟩
  · have hcompiled : ∀ a ∈ (dependencyGraph graph).keys, isCompiledAddress a = true := by
      rw [hkeys]
      exact h
    unfold topologicalDependencyOrder
    simp only [mapM_canonicalResourceIdentity_ok hcompiled]
    rfl
  · intro x
    rw [mem_stableTopologicalOrder (dependencyGraph graph) id, hkeys]
    intro node dependencies hget dependency hdep
    have hadj : dependency ∈ adjacent (dependencyGraph graph) node := by
      unfold adjacent
      rw [hget]
      exact hdep
    rw [hkeys]
    exact ((mem_adjacent_dependencyGraph graph node dependency).mp hadj).2

theorem step_refresh_iff (x y : String) : Worklist.Step (fun dependency =>
        (((dependentsOf (resourceGraph resources .refresh)).get? dependency).getD
          []).insertionSort (· ≤ ·)) x y ↔
      x ∈ resources.keys ∧ RefreshEdge resources x y := by
  show y ∈ (adjacent (dependentsOf (resourceGraph resources .refresh)) x).insertionSort _ ↔ _
  rw [List.mem_insertionSort, mem_adjacent_dependentsOf, mem_adjacent_resourceGraph]
  rfl

theorem mem_reachable_refresh_iff (S : Set String) (hS : ∀ x ∈ S, x ∈ resources.keys) (y : String) :
    y ∈ Worklist.reachable (fun x y => x ∈ resources.keys ∧ RefreshEdge resources x y) S ↔
      y ∈ Worklist.reachable (RefreshEdge resources) S := by
  constructor
  · intro h
    obtain ⟨x, hx, hxy⟩ := h
    exact ⟨x, hx, Relation.ReflTransGen.mono (fun _ _ hstep => hstep.2) _ _ hxy⟩
  · intro h
    have hleast := Worklist.isLeast_reachable
      (fun x y => x ∈ resources.keys ∧ RefreshEdge resources x y) S
    obtain ⟨x, hx, hxy⟩ := h
    refine (?_ : y ∈ Worklist.reachable _ S ∧ y ∈ resources.keys).1
    induction hxy with
    | refl => exact ⟨hleast.1.1 hx, hS x hx⟩
    | tail _ hstep ih =>
      refine ⟨hleast.1.2 _ ih.1 _ ⟨ih.2, hstep⟩, ?_⟩
      obtain ⟨resource, hget, _⟩ := hstep
      exact Dict.mem_keys_iff.mpr ⟨resource, hget⟩

theorem refreshImpactedNodes_error {resources : Dict String DependencySemantics}
    (changed : List String) (h : ¬ IsCompiledKeys resources) :
    refreshImpactedNodes resources changed = .error addressRefusal := by
  unfold refreshImpactedNodes
  rw [dependencyGraphForResources_error .refresh h]
  rfl

theorem refreshImpactedNodes_ok {resources : Dict String DependencySemantics}
    (changed : List String) (hcompiled : IsCompiledKeys resources) (hnd : changed.Nodup)
    (hknown : ∀ a ∈ changed, a ∈ resources.keys) :
    ∃ impacted, refreshImpactedNodes resources changed = .ok impacted ∧
      ∀ a, a ∈ impacted ↔ a ∉ changed ∧
        a ∈ Worklist.reachable (RefreshEdge resources) {c | c ∈ changed} := by
  set graph := resourceGraph resources .refresh with hgraph
  set next : String → List String := fun dependency =>
    (((dependentsOf graph).get? dependency).getD []).insertionSort (· ≤ ·) with hnext
  set queue := changed.insertionSort (· ≤ ·) with hqueue
  have hkeys : ∀ x, x ∈ graph.keys ↔ x ∈ resources.keys :=
    mem_keys_resourceGraph resources .refresh
  have hqueue_mem : ∀ x, x ∈ queue ↔ x ∈ changed := fun x => List.mem_insertionSort _
  obtain ⟨order, horder, hmem_order⟩ := mem_topologicalDependencyOrder graph
    fun a ha => hcompiled a ((hkeys a).mp ha)
  refine ⟨order.filter fun address =>
    address ∈ (Worklist.run next (changed.length + graph.keys.length) queue queue).2 ∧
      address ∉ changed, ?_, ?_⟩
  · unfold refreshImpactedNodes
    rw [dependencyGraphForResources_ok .refresh hcompiled,
      sortedByIdentity_ok fun a ha => hcompiled a (hknown a ha)]
    show (do
      let refreshOrder ← topologicalDependencyOrder graph
      return refreshOrder.filter _) = _
    rw [horder]
    rfl
  · intro a
    have hseen : a ∈ (Worklist.run next (changed.length + graph.keys.length) queue queue).2 ↔
        a ∈ Worklist.reachable (RefreshEdge resources) {c | c ∈ changed} := by
      have hset : {x | x ∈ queue} = {c | c ∈ changed} := Set.ext hqueue_mem
      have hstep : Worklist.Step next =
          fun x y => x ∈ resources.keys ∧ RefreshEdge resources x y :=
        funext₂ fun x y => propext (step_refresh_iff resources x y)
      rw [Worklist.mem_run_iff next graph.keys, hset, hstep]
      · exact mem_reachable_refresh_iff resources _ hknown a
      · intro x y hy
        obtain ⟨_, resource, hget, _⟩ := (step_refresh_iff resources x y).mp hy
        exact (hkeys y).mpr (Dict.mem_keys_iff.mpr ⟨resource, hget⟩)
      · exact (List.perm_insertionSort _ changed).nodup_iff.mpr hnd
      · exact fun x hx => (hkeys x).mpr (hknown x ((hqueue_mem x).mp hx))
      · omega
    rw [List.mem_filter, decide_eq_true_eq, hseen, hmem_order, hkeys]
    constructor
    · exact fun h => ⟨h.2.2, h.2.1⟩
    · intro h
      obtain ⟨hne, hreach⟩ := h
      refine ⟨?_, hreach, hne⟩
      obtain ⟨x, hx, hxa⟩ := hreach
      cases hxa with
      | refl => exact absurd hx hne
      | tail _ hstep =>
        obtain ⟨resource, hget, _⟩ := hstep
        exact Dict.mem_keys_iff.mpr ⟨resource, hget⟩

end Raes.Planner
