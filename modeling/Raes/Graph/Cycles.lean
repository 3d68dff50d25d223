import Mathlib.Data.List.Chain
import Mathlib.Data.List.Perm.Subperm
import Raes.Lib.Dict

/-!
# Cycles

The cycle check of `graphs.py`.  A graph has a cycle when it has a walk that is
longer than the number of its nodes.
-/

namespace Raes.Graph

variable {N : Type} [DecidableEq N]

/-- A walk from a node that visits the given number of further nodes, all of them
keys of the graph. -/
def walks (graph : Dict N (List N)) : ℕ → N → Bool
  | 0, node => graph.contains node
  | n + 1, node =>
    match graph.get? node with
    | none => false
    | some adjacent => adjacent.any (walks graph n)

def hasCycle (graph : Dict N (List N)) : Bool :=
  graph.keys.any (walks graph graph.keys.length)

def Edge (graph : Dict N (List N)) (x y : N) : Prop :=
  ∃ adjacent, graph.get? x = some adjacent ∧ y ∈ adjacent

variable {graph : Dict N (List N)}

theorem walks_succ_iff (n : ℕ) (node : N) :
    walks graph (n + 1) node = true ↔ ∃ y, Edge graph node y ∧ walks graph n y = true := by
  rw [walks]
  cases hnode : graph.get? node with
  | none => simp [Edge, hnode]
  | some adjacent =>
    simp only [List.any_eq_true, Edge, hnode, Option.some.injEq, exists_eq_left']

theorem walks_key {n : ℕ} {node : N} (h : walks graph n node = true) : node ∈ graph.keys := by
  cases n with
  | zero => exact Dict.contains_iff.mp h
  | succ n =>
    obtain ⟨y, ⟨adjacent, hadjacent, -⟩, -⟩ := (walks_succ_iff n node).mp h
    exact Dict.mem_keys_iff.mpr ⟨adjacent, hadjacent⟩

theorem walks_of_le {m n : ℕ} (hmn : m ≤ n) {node : N} (h : walks graph n node = true) :
    walks graph m node = true := by
  induction m generalizing n node with
  | zero => exact Dict.contains_iff.mpr (walks_key h)
  | succ m ih =>
    obtain ⟨k, rfl⟩ : ∃ k, n = k + 1 := ⟨n - 1, by omega⟩
    obtain ⟨y, hedge, hy⟩ := (walks_succ_iff k node).mp h
    exact (walks_succ_iff m node).mpr ⟨y, hedge, ih (by omega) hy⟩

theorem walks_eq_false (h : hasCycle graph = false) {n : ℕ} (hn : graph.keys.length ≤ n)
    (node : N) : walks graph n node = false := by
  rw [Bool.eq_false_iff]
  intro hwalk
  have hcycle : hasCycle graph = true :=
    List.any_eq_true.mpr ⟨node, walks_key hwalk, walks_of_le hn hwalk⟩
  rw [h] at hcycle
  cases hcycle

theorem exists_chain_of_walks {n : ℕ} {node : N} (h : walks graph n node = true) :
    ∃ rest : List N, rest.length = n ∧ (node :: rest).IsChain (Edge graph) ∧
      ∀ x ∈ node :: rest, x ∈ graph.keys := by
  induction n generalizing node with
  | zero =>
    refine ⟨[], rfl, List.isChain_singleton node, ?_⟩
    intro x hx
    rw [List.mem_singleton] at hx
    exact hx ▸ walks_key h
  | succ n ih =>
    obtain ⟨y, hedge, hy⟩ := (walks_succ_iff n node).mp h
    obtain ⟨rest, hlength, hchain, hkeys⟩ := ih hy
    refine ⟨y :: rest, by rw [List.length_cons, hlength], ?_, ?_⟩
    · exact List.isChain_cons_cons.mpr ⟨hedge, hchain⟩
    · exact List.forall_mem_cons.mpr ⟨walks_key h, hkeys⟩

theorem walks_of_cycle {x : N} (h : Relation.TransGen (Edge graph) x x) (n : ℕ) :
    walks graph n x = true := by
  induction n generalizing x with
  | zero =>
    obtain ⟨y, ⟨adjacent, hadjacent, -⟩, -⟩ := Relation.TransGen.head'_iff.mp h
    exact Dict.contains_iff.mpr (Dict.mem_keys_iff.mpr ⟨adjacent, hadjacent⟩)
  | succ n ih =>
    obtain ⟨y, hedge, hback⟩ := Relation.TransGen.head'_iff.mp h
    exact (walks_succ_iff n x).mpr ⟨y, hedge, ih (Relation.TransGen.tail' hback hedge)⟩

/-- The check finds exactly the graphs in which some node reaches itself. -/
theorem hasCycle_iff (graph : Dict N (List N)) :
    hasCycle graph = true ↔ ∃ x, Relation.TransGen (Edge graph) x x := by
  unfold hasCycle
  rw [List.any_eq_true]
  constructor
  · rintro ⟨node, -, hwalk⟩
    obtain ⟨rest, hlength, hchain, hkeys⟩ := exists_chain_of_walks hwalk
    by_contra hacyclic
    rw [not_exists] at hacyclic
    have hpairwise : (node :: rest).Pairwise (Relation.TransGen (Edge graph)) :=
      (hchain.imp fun _ _ => Relation.TransGen.single).pairwise
    have hnodup : (node :: rest).Nodup := by
      apply hpairwise.imp
      intro a b hab heq
      exact hacyclic a (heq ▸ hab)
    -- A walk without repetition has at most as many nodes as there are keys.
    have hle := (List.subperm_of_subset hnodup hkeys).length_le
    rw [List.length_cons, hlength] at hle
    omega
  · rintro ⟨x, hx⟩
    exact ⟨x, walks_key (walks_of_cycle hx 0), walks_of_cycle hx _⟩

end Raes.Graph
