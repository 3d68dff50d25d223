import Mathlib.Data.List.Perm.Subperm
import Mathlib.Data.List.Sort
import Raes.Lib.Dict

/-!
# Stable dependency order

`stable_topological_order` of `raes_contracts/graphs.py`, over the documented
contract of `graphlib.TopologicalSorter`: `getReady` hands out, once each, the
nodes whose predecessors are all marked done.
-/

namespace Raes.Graph

variable {N : Type} [DecidableEq N]

/-- A sorter holds the predecessors of each node it was given, in insertion
order, the nodes it has handed out and the nodes marked done. -/
structure TopologicalSorter (N : Type) where
  node2info : Dict N (List N)
  (passedOut finished : List N)

namespace TopologicalSorter

def empty : TopologicalSorter N := ⟨Dict.empty, [], []⟩

variable (s : TopologicalSorter N)

def getNodeinfo (node : N) : TopologicalSorter N :=
  if s.node2info.contains node then s
  else { s with node2info := s.node2info.set node [] }

def add (node : N) (predecessors : List N) : TopologicalSorter N :=
  let s := s.getNodeinfo node
  let known := (s.node2info.get? node).getD []
  let s := { s with node2info := s.node2info.set node (known ++ predecessors) }
  predecessors.foldl getNodeinfo s

/-- The nodes not yet handed out whose predecessors are all done. -/
def ready (s : TopologicalSorter N) : List N :=
  s.node2info.keys.filter fun node =>
    node ∉ s.passedOut ∧ ∀ p ∈ (s.node2info.get? node).getD [], p ∈ s.finished

def getReady (s : TopologicalSorter N) : List N × TopologicalSorter N :=
  (s.ready, { s with passedOut := s.passedOut ++ s.ready })

def done (node : N) : TopologicalSorter N :=
  { s with finished := s.finished ++ [node] }

theorem mem_keys_getNodeinfo (node x : N) :
    x ∈ (s.getNodeinfo node).node2info.keys ↔ x = node ∨ x ∈ s.node2info.keys := by
  rw [getNodeinfo]
  split
  · rename_i h
    rw [Dict.contains_iff] at h
    constructor
    · exact Or.inr
    · rintro (rfl | hx)
      · exact h
      · exact hx
  · exact Dict.mem_keys_set _ _ _ _

theorem mem_keys_foldl_getNodeinfo (l : List N) (s : TopologicalSorter N) (x : N) :
    x ∈ (l.foldl getNodeinfo s).node2info.keys ↔ x ∈ l ∨ x ∈ s.node2info.keys := by
  induction l generalizing s with
  | nil => simp
  | cons y rest ih =>
    rw [List.foldl_cons, ih, mem_keys_getNodeinfo, List.mem_cons, or_comm (a := x ∈ rest),
      or_assoc, or_assoc, or_comm (a := x ∈ rest)]

theorem mem_keys_add (node : N) (predecessors : List N) (x : N) :
    x ∈ (s.add node predecessors).node2info.keys ↔
      x ∈ predecessors ∨ x = node ∨ x ∈ s.node2info.keys := by
  rw [add, mem_keys_foldl_getNodeinfo, Dict.mem_keys_set, mem_keys_getNodeinfo]
  tauto

theorem mem_keys_foldl_add (l : List N) (preds : N → List N) (s : TopologicalSorter N) (x : N) :
    x ∈ (l.foldl (fun s n => s.add n (preds n)) s).node2info.keys ↔
      (∃ n ∈ l, x ∈ preds n ∨ x = n) ∨ x ∈ s.node2info.keys := by
  induction l generalizing s with
  | nil => simp
  | cons y rest ih =>
    rw [List.foldl_cons, ih, mem_keys_add, List.exists_mem_cons_iff]
    constructor
    · rintro (h | h | h | h)
      · exact Or.inl (Or.inr h)
      · exact Or.inl (Or.inl (Or.inl h))
      · exact Or.inl (Or.inl (Or.inr h))
      · exact Or.inr h
    · rintro ((h | h) | h)
      · exact Or.inr (h.imp id Or.inl)
      · exact Or.inl h
      · exact Or.inr (Or.inr (Or.inr h))

theorem passedOut_foldl_getNodeinfo (l : List N) (s : TopologicalSorter N) :
    (l.foldl getNodeinfo s).passedOut = s.passedOut := by
  induction l generalizing s with
  | nil => rfl
  | cons y rest ih =>
    rw [List.foldl_cons, ih, getNodeinfo]
    split <;> rfl

theorem passedOut_foldl_add (l : List N) (preds : N → List N) (s : TopologicalSorter N) :
    (l.foldl (fun s n => s.add n (preds n)) s).passedOut = s.passedOut := by
  induction l generalizing s with
  | nil => rfl
  | cons y rest ih =>
    rw [List.foldl_cons, ih, add, passedOut_foldl_getNodeinfo, getNodeinfo]
    split <;> rfl

end TopologicalSorter

open TopologicalSorter

/-- Serve the ready queue: place its head, mark it done, and append the nodes
this makes ready. -/
def drain : Nat → TopologicalSorter N → List N → List N → List N
  | 0, _, _, order => order
  | _ + 1, _, [], order => order
  | fuel + 1, sorter, node :: rest, order =>
    let (released, sorter) := (sorter.done node).getReady
    drain fuel sorter (rest ++ released) (order ++ [node])

variable {K : Type} [LinearOrder K]

def stableTopologicalOrder (graph : Dict N (List N)) (key : N → K) : List N :=
  let nodes := graph.keys.insertionSort fun a b => key a ≤ key b
  let sorter := nodes.foldl (fun s n => s.add n []) TopologicalSorter.empty
  let sorter := nodes.foldl (fun s n => s.add n ((graph.get? n).getD [])) sorter
  let (ready, sorter) := sorter.getReady
  let order := drain sorter.node2info.keys.length sorter ready []
  -- A cycle blocks only the nodes that depend on it, and those follow in key order.
  if order.length ≠ nodes.length then order ++ nodes.filter (· ∉ order) else order

/-! ## Every node is placed -/

/-- What the drain loop keeps: a node is placed or waiting at most once, and
only if the sorter handed it out. -/
structure Draining (s : TopologicalSorter N) (waiting order : List N) : Prop where
  nodup : (order ++ waiting).Nodup
  handedOut : ∀ x ∈ order ++ waiting, x ∈ s.passedOut
  known : ∀ x ∈ s.passedOut, x ∈ s.node2info.keys

theorem draining_getReady {s : TopologicalSorter N} {waiting order : List N}
    (h : Draining s waiting order) :
    Draining s.getReady.2 (waiting ++ s.getReady.1) order := by
  have hfresh : ∀ x ∈ s.ready, x ∉ s.passedOut := by
    intro x hx
    have := (List.mem_filter.mp hx).2
    exact (of_decide_eq_true this).1
  have hkeys : ∀ x ∈ s.ready, x ∈ s.node2info.keys := fun x hx => (List.mem_filter.mp hx).1
  refine ⟨?_, ?_, ?_⟩
  · rw [← List.append_assoc]
    refine h.nodup.append (s.node2info.keys_nodup.filter _) ?_
    intro x hx hr
    exact hfresh x hr (h.handedOut x hx)
  · intro x hx
    rw [← List.append_assoc] at hx
    rcases List.mem_append.mp hx with hx | hx
    · exact List.mem_append_left _ (h.handedOut x hx)
    · exact List.mem_append_right _ hx
  · intro x hx
    rcases List.mem_append.mp hx with hx | hx
    · exact h.known x hx
    · exact hkeys x hx

omit [DecidableEq N] in
theorem draining_done {s : TopologicalSorter N} {node : N} {rest order : List N}
    (h : Draining s (node :: rest) order) : Draining (s.done node) rest (order ++ [node]) := by
  have hsplit : (order ++ [node]) ++ rest = order ++ node :: rest := by simp
  refine ⟨?_, ?_, h.known⟩
  · rw [hsplit]
    exact h.nodup
  · rw [hsplit]
    exact h.handedOut

theorem drain_draining (fuel : Nat) (s : TopologicalSorter N) (waiting order : List N)
    (h : Draining s waiting order) :
    (drain fuel s waiting order).Nodup ∧
      ∀ x ∈ drain fuel s waiting order, x ∈ s.node2info.keys := by
  induction fuel generalizing s waiting order with
  | zero =>
    exact ⟨(List.nodup_append.mp h.nodup).1,
      fun x hx => h.known x (h.handedOut x (List.mem_append_left _ hx))⟩
  | succ fuel ih =>
    cases waiting with
    | nil =>
      exact ⟨(List.nodup_append.mp h.nodup).1,
        fun x hx => h.known x (h.handedOut x (List.mem_append_left _ hx))⟩
    | cons node rest => exact ih _ _ _ (draining_getReady (draining_done h))

theorem mem_stableTopologicalOrder (graph : Dict N (List N)) (key : N → K)
    (hdeps : ∀ n deps, graph.get? n = some deps → ∀ d ∈ deps, d ∈ graph.keys) (x : N) :
    x ∈ stableTopologicalOrder graph key ↔ x ∈ graph.keys := by
  set nodes := graph.keys.insertionSort fun a b => key a ≤ key b with hnodes
  have hperm : nodes.Perm graph.keys := List.perm_insertionSort _ _
  set sorter := nodes.foldl (fun s n => s.add n ((graph.get? n).getD []))
    (nodes.foldl (fun s n => s.add n []) TopologicalSorter.empty) with hsorter
  have hkeys : ∀ y, y ∈ sorter.node2info.keys ↔ y ∈ nodes := by
    intro y
    rw [hsorter, mem_keys_foldl_add, mem_keys_foldl_add nodes (fun _ => [])]
    constructor
    · rintro (⟨n, hn, hy | rfl⟩ | ⟨n, hn, hy | rfl⟩ | hy)
      · cases hg : graph.get? n with
        | none => simp [hg] at hy
        | some deps =>
          rw [hg, Option.getD_some] at hy
          exact hperm.mem_iff.mpr (hdeps n deps hg y hy)
      · exact hn
      · exact absurd hy List.not_mem_nil
      · exact hn
      · exact absurd hy List.not_mem_nil
    · exact fun hy => Or.inl ⟨y, hy, Or.inr rfl⟩
  have hpassed : sorter.passedOut = [] := by
    rw [hsorter, passedOut_foldl_add, passedOut_foldl_add nodes (fun _ => [])]
    rfl
  have hstart : Draining sorter [] [] :=
    ⟨List.nodup_nil, by simp, by rw [hpassed]; simp⟩
  set order := drain sorter.getReady.2.node2info.keys.length sorter.getReady.2
    sorter.getReady.1 [] with horder
  obtain ⟨hnd, hsub⟩ := drain_draining sorter.getReady.2.node2info.keys.length
    sorter.getReady.2 sorter.getReady.1 [] (draining_getReady hstart)
  have hsub' : ∀ y ∈ order, y ∈ nodes := fun y hy => (hkeys y).mp (hsub y hy)
  have hdef : stableTopologicalOrder graph key =
      if order.length ≠ nodes.length then order ++ nodes.filter (· ∉ order) else order := rfl
  rw [hdef, ← hperm.mem_iff]
  split
  · rw [List.mem_append, List.mem_filter]
    by_cases hx : x ∈ order
    · simp [hx, hsub' x hx]
    · simp [hx]
  · rename_i hlen
    have hlen' : nodes.length ≤ order.length := by omega
    have hcover : order.Perm nodes :=
      (List.subperm_of_subset hnd hsub').perm_of_length_le hlen'
    exact hcover.mem_iff

end Raes.Graph
