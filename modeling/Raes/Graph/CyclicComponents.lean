import Raes.Graph.Cycles
import Raes.Lib.SortBy

/-!
# Cyclic components

`cyclic_components` of `raes_contracts/graphs.py`, an iterative form of Tarjan's
traversal.  A frame holds a node and the rest of the iterator over its successors,
and the stacks have their top first.

A traversal that does not end within its bound yields nothing, so that a result is
also a proof that the loop ended.
-/

namespace Raes.Graph

variable {N : Type} [DecidableEq N]

/-- A mapping of each node to its successors, every successor being a key. -/
structure DirectedGraph (N : Type) [DecidableEq N] where
  adjacency : Dict N (List N)
  closed : ∀ x adjacent, adjacency.get? x = some adjacent → ∀ y ∈ adjacent, y ∈ adjacency.keys

def DirectedGraph.nodes (g : DirectedGraph N) : List N := g.adjacency.keys

/-- `graph[node]` -/
def DirectedGraph.successors (g : DirectedGraph N) (node : N) : List N :=
  (g.adjacency.get? node).getD []

structure Tarjan (N : Type) where
  index : ℕ
  (indices lowlinks : Dict N ℕ)
  (stack onStack : List N)
  components : List (List N)

abbrev Frame (N : Type) : Type := N × List N

namespace Tarjan

def start : Tarjan N := ⟨0, Dict.empty, Dict.empty, [], [], []⟩

variable (st : Tarjan N)

/-- `self.indices[node]` -/
def number (node : N) : ℕ := (st.indices.get? node).getD 0

/-- `self.lowlinks[node]` -/
def lowlink (node : N) : ℕ := (st.lowlinks.get? node).getD 0

def visit (node : N) : Tarjan N where
  index := st.index + 1
  indices := st.indices.set node st.index
  lowlinks := st.lowlinks.set node st.index
  stack := node :: st.stack
  onStack := node :: st.onStack
  components := st.components

/-- `self.lowlinks[node] = min(self.lowlinks[node], value)` -/
def lower (node : N) (value : ℕ) : Tarjan N :=
  { st with lowlinks := st.lowlinks.set node (min (st.lowlink node) value) }

/-- Advance an iterator to the next unvisited node, and lower the link of `node` for
each visited one on the stack. -/
def unvisitedSuccessor (node : N) : List N → Tarjan N → Option (N × List N) × Tarjan N
  | [], st => (none, st)
  | successor :: rest, st =>
    if !st.indices.contains successor then (some (successor, rest), st)
    else if successor ∈ st.onStack then
      unvisitedSuccessor node rest (st.lower node (st.number successor))
    else unvisitedSuccessor node rest st

/-- Pop the stack down to a node: the popped members and what is left. -/
def popUntil (node : N) : List N → List N × List N
  | [] => ([], [])
  | member :: rest =>
    if member = node then ([member], rest)
    else (member :: (popUntil node rest).1, (popUntil node rest).2)

variable {K : Type} [LinearOrder K] (g : DirectedGraph N)

/-- Close the component of a node.  It is kept where it has more than one member or
its first member has a loop. -/
def closeComponent (key : N → K) (node : N) (st : Tarjan N) : Tarjan N :=
  let popped := popUntil node st.stack
  let component := sortBy key popped.1
  { st with
    stack := popped.2
    onStack := st.onStack.filter fun member => member ∉ popped.1
    components :=
      if 1 < component.length || component.head?.any (fun first => first ∈ g.successors first) then
        st.components ++ [component]
      else st.components }

/-- What follows when a node has no unvisited successor left: its frame is popped, its
link goes to its parent, and its component is closed where it is the root of one. -/
def leave (key : N → K) (node : N) (frames : List (Frame N)) (st : Tarjan N) : Tarjan N :=
  let st :=
    match frames with
    | [] => st
    | (parent, _) :: _ => st.lower parent (st.lowlink node)
  if st.lowlink node = st.number node then closeComponent g key node st else st

/-- The loop of `strongconnect`. -/
def strongconnectLoop (g : DirectedGraph N) (key : N → K) :
    ℕ → Tarjan N → List (Frame N) → Option (Tarjan N)
  | _, st, [] => some st
  | 0, _, _ :: _ => none
  | fuel + 1, st, (node, successors) :: frames =>
    match unvisitedSuccessor node successors st with
    | (some (successor, rest), st) =>
      strongconnectLoop g key fuel (st.visit successor)
        ((successor, g.successors successor) :: (node, rest) :: frames)
    | (none, st) => strongconnectLoop g key fuel (leave g key node frames st) frames

def strongconnect (key : N → K) (st : Tarjan N) (root : N) : Option (Tarjan N) :=
  strongconnectLoop g key (2 * g.nodes.length + 1) (st.visit root) [(root, g.successors root)]

end Tarjan

variable {K : Type} [LinearOrder K]

/-- Connect a node unless the traversal has visited it. -/
def connectUnvisited (g : DirectedGraph N) (key : N → K) (st : Tarjan N) (node : N) :
    Option (Tarjan N) :=
  if st.indices.contains node then some st else st.strongconnect g key node

/-- `cyclic_components`: the strongly connected components that contain a cycle. -/
def cyclicComponents (g : DirectedGraph N) (key : N → K) : Option (List (List N)) := do
  let traversal ← (sortBy key g.nodes).foldlM (connectUnvisited g key) Tarjan.start
  return sortBy (fun component => component.map key) traversal.components

end Raes.Graph

/-!
# The invariant of the traversal

The stack is cut into segments, one for each frame: the node of the frame, and
above it the nodes that were left and still reach it.  The link of a frame bounds
the numbers of the stacked successors of its whole segment.  When a frame is left
with its link at its own number, no edge leads from its segment to the stack below,
so the segment is a strongly connected component.
-/

namespace Raes.Graph

open Relation Tarjan

variable {N : Type} [DecidableEq N] {g : DirectedGraph N}

def Reach (g : DirectedGraph N) (x y : N) : Prop := ReflTransGen (Edge g.adjacency) x y

theorem edge_iff {x y : N} : Edge g.adjacency x y ↔ y ∈ g.successors x := by
  unfold Edge DirectedGraph.successors
  cases h : g.adjacency.get? x with
  | none => simp
  | some adjacent => simp

theorem mem_nodes_of_edge {x y : N} (h : Edge g.adjacency x y) : y ∈ g.nodes := by
  obtain ⟨adjacent, hadjacent, hy⟩ := h
  exact g.closed x adjacent hadjacent y hy

namespace Tarjan

variable (st : Tarjan N) (node x : N)

theorem number_visit : (st.visit node).number x = if x = node then st.index else st.number x := by
  unfold number visit
  rw [Dict.get?_set]
  split <;> rfl

theorem lowlink_visit :
    (st.visit node).lowlink x = if x = node then st.index else st.lowlink x := by
  unfold lowlink visit
  rw [Dict.get?_set]
  split <;> rfl

theorem lowlink_lower (value : ℕ) : (st.lower node value).lowlink x =
      if x = node then min (st.lowlink node) value else st.lowlink x := by
  unfold lower
  show (Dict.get? _ x).getD 0 = _
  rw [Dict.get?_set]
  split
  · rfl
  · rfl

theorem lowlink_lower_le (value : ℕ) : (st.lower node value).lowlink x ≤ st.lowlink x := by
  rw [lowlink_lower]
  split
  · rename_i h
    rw [h]
    exact Nat.min_le_left _ _
  · exact le_refl _

@[simp] theorem number_lower (value : ℕ) : (st.lower node value).number x = st.number x := rfl

end Tarjan

/-- A successor of a segment is visited, and on the stack it is bounded by the link. -/
def Handled (st : Tarjan N) (node y : N) : Prop :=
  y ∈ st.indices.keys ∧ (y ∈ st.stack → st.lowlink node ≤ st.number y)

def Segments (g : DirectedGraph N) (st : Tarjan N) : List (Frame N) → List N → Prop
  | [], stack => stack = []
  | (node, rest) :: frames, stack => ∃ above below done,
      stack = above ++ node :: below ∧
      (∀ x ∈ above, Reach g x node ∧ ∀ y, Edge g.adjacency x y → Handled st node y) ∧
      g.successors node = done ++ rest ∧ (∀ y ∈ done, Handled st node y) ∧
      Segments g st frames below

/-- A state in which everything that was handled is still handled. -/
def Keeps (st st' : Tarjan N) (frames : List (Frame N)) : Prop :=
  ∀ f ∈ frames, ∀ y, Handled st f.1 y → Handled st' f.1 y

theorem Segments.keep {st st' : Tarjan N} {frames : List (Frame N)} {stack : List N}
    (h : Segments g st frames stack) (hkeep : Keeps st st' frames) :
    Segments g st' frames stack := by
  induction frames generalizing stack with
  | nil => exact h
  | cons f frames ih =>
    obtain ⟨node, rest⟩ := f
    obtain ⟨above, below, done, hstack, habove, hdone, hhandled, hbelow⟩ := h
    have hnode := hkeep (node, rest) List.mem_cons_self
    refine ⟨above, below, done, hstack, ?_, hdone, fun y hy => hnode y (hhandled y hy), ?_⟩
    · intro x hx
      exact ⟨(habove x hx).1, fun y hy => hnode y ((habove x hx).2 y hy)⟩
    · exact ih hbelow fun f hf => hkeep f (List.mem_cons_of_mem _ hf)

theorem Segments.mem {st : Tarjan N} {frames : List (Frame N)} {stack : List N}
    (h : Segments g st frames stack) {f : Frame N} (hf : f ∈ frames) : f.1 ∈ stack := by
  induction frames generalizing stack with
  | nil => cases hf
  | cons e frames ih =>
    obtain ⟨node, rest⟩ := e
    obtain ⟨above, below, done, rfl, -, -, -, hbelow⟩ := h
    rcases List.mem_cons.mp hf with rfl | hf
    · exact List.mem_append_right _ List.mem_cons_self
    · exact List.mem_append_right _ (List.mem_cons_of_mem _ (ih hbelow hf))

variable {K : Type} [LinearOrder K]

/-- A strongly connected component with a cycle, as the traversal records it. -/
structure IsCyclicComponent (g : DirectedGraph N) (key : N → K) (c : List N) : Prop where
  nodup : c.Nodup
  sorted : c.Pairwise fun a b => key a ≤ key b
  component : ∃ x ∈ g.nodes, ∀ y, y ∈ c ↔ Reach g x y ∧ Reach g y x
  cyclic : 1 < c.length ∨ ∃ x ∈ c, Edge g.adjacency x x

/-- The components recorded so far are those of the visited nodes off the stack. -/
structure Recorded (g : DirectedGraph N) (key : N → K) (st : Tarjan N) : Prop where
  settled : ∀ c ∈ st.components, ∀ x ∈ c, x ∈ st.indices.keys ∧ x ∉ st.stack
  disjoint : st.components.Pairwise List.Disjoint
  exact : ∀ c ∈ st.components, IsCyclicComponent g key c
  complete : ∀ x ∈ st.indices.keys, x ∉ st.stack → TransGen (Edge g.adjacency) x x →
    ∃ c ∈ st.components, x ∈ c

/-- What the traversal keeps between its steps. -/
structure Invariant (g : DirectedGraph N) (key : N → K) (st : Tarjan N)
    (frames : List (Frame N)) : Prop where
  known : ∀ x ∈ st.indices.keys, x ∈ g.nodes
  fresh : ∀ x ∈ st.indices.keys, st.number x < st.index
  visited : ∀ x ∈ st.stack, x ∈ st.indices.keys
  sorted : st.stack.Pairwise fun a b => st.number b < st.number a
  onStack : ∀ x, x ∈ st.onStack ↔ x ∈ st.stack
  reach : ∀ x ∈ st.stack, ∀ y ∈ st.stack, st.number x ≤ st.number y → Reach g x y
  links : ∀ f ∈ frames, ∃ y ∈ st.stack, st.number y = st.lowlink f.1 ∧
    st.number y ≤ st.number f.1 ∧ Reach g f.1 y
  segments : Segments g st frames st.stack
  settled : ∀ x ∈ st.indices.keys, x ∉ st.stack → ∀ y, Edge g.adjacency x y →
    y ∈ st.indices.keys ∧ y ∉ st.stack
  recorded : Recorded g key st

variable {key : N → K} {st : Tarjan N} {frames : List (Frame N)}

theorem invariant_start : Invariant g key (Tarjan.start : Tarjan N) [] where
  known := fun x hx => absurd hx (by simp [Tarjan.start, Dict.keys, Dict.empty])
  fresh := fun x hx => absurd hx (by simp [Tarjan.start, Dict.keys, Dict.empty])
  visited := fun x hx => absurd hx (by simp [Tarjan.start])
  sorted := List.Pairwise.nil
  onStack := fun _ => Iff.rfl
  reach := fun x hx => absurd hx (by simp [Tarjan.start])
  links := fun f hf => absurd hf (by simp)
  segments := rfl
  settled := fun x hx => absurd hx (by simp [Tarjan.start, Dict.keys, Dict.empty])
  recorded :=
    ⟨fun c hc => absurd hc (by simp [Tarjan.start]), List.Pairwise.nil,
      fun c hc => absurd hc (by simp [Tarjan.start]),
      fun x hx => absurd hx (by simp [Tarjan.start, Dict.keys, Dict.empty])⟩

theorem Invariant.nodup (h : Invariant g key st frames) : st.stack.Nodup := by
  apply h.sorted.imp
  intro a b hab heq
  rw [heq] at hab
  exact absurd hab (Nat.lt_irrefl _)

theorem keeps_lower (node : N) (value : ℕ) : Keeps st (st.lower node value) frames :=
  fun f _ _ hy => ⟨hy.1, fun hmem => le_trans (lowlink_lower_le st node f.1 value) (hy.2 hmem)⟩

theorem invariant_lower (h : Invariant g key st frames) {node y : N} (hy : y ∈ st.stack)
    (hreach : Reach g node y) :
    Invariant g key (st.lower node (st.number y)) frames where
  known := h.known
  fresh := h.fresh
  visited := h.visited
  sorted := h.sorted
  onStack := h.onStack
  reach := h.reach
  links := by
    intro f hf
    rw [lowlink_lower]
    by_cases hnode : f.1 = node
    · rw [if_pos hnode]
      obtain ⟨z, hz, hnum, hzle, hzreach⟩ := h.links f hf
      by_cases hmin : st.lowlink node ≤ st.number y
      · rw [Nat.min_eq_left hmin, ← hnode]
        exact ⟨z, hz, hnum, hzle, hzreach⟩
      · rw [hnode] at hnum hzle ⊢
        rw [Nat.min_eq_right (by omega)]
        exact ⟨y, hy, rfl, by rw [number_lower, number_lower]; omega, hreach⟩
    · rw [if_neg hnode]
      exact h.links f hf
  segments := h.segments.keep (keeps_lower node _)
  settled := h.settled
  recorded := ⟨h.recorded.settled, h.recorded.disjoint, h.recorded.exact, h.recorded.complete⟩

theorem invariant_advance {node y : N} {rest : List N}
    (h : Invariant g key st ((node, y :: rest) :: frames)) (hy : Handled st node y) :
    Invariant g key st ((node, rest) :: frames) := by
  refine ⟨h.known, h.fresh, h.visited, h.sorted, h.onStack, h.reach, ?_, ?_, h.settled,
    h.recorded⟩
  · intro f hf
    rcases List.mem_cons.mp hf with rfl | hf
    · exact h.links (node, y :: rest) List.mem_cons_self
    · exact h.links f (List.mem_cons_of_mem _ hf)
  · obtain ⟨above, below, done, hstack, habove, hdone, hhandled, hbelow⟩ := h.segments
    refine ⟨above, below, done ++ [y], hstack, habove, by simp [hdone], ?_, hbelow⟩
    intro z hz
    rcases List.mem_append.mp hz with hz | hz
    · exact hhandled z hz
    · rw [List.mem_singleton.mp hz]
      exact hy

theorem Invariant.edge {node y : N} {rest : List N}
    (h : Invariant g key st ((node, rest) :: frames)) (hy : y ∈ rest) :
    Edge g.adjacency node y := by
  obtain ⟨above, below, done, -, -, hdone, -, -⟩ := h.segments
  rw [edge_iff, hdone]
  exact List.mem_append_right _ hy

theorem Invariant.top_mem {node : N} {rest : List N}
    (h : Invariant g key st ((node, rest) :: frames)) : node ∈ st.stack :=
  h.segments.mem (f := (node, rest)) List.mem_cons_self

theorem invariant_unvisitedSuccessor {node : N} (rest : List N) {st : Tarjan N}
    (h : Invariant g key st ((node, rest) :: frames)) :
    (unvisitedSuccessor node rest st).2.indices = st.indices ∧
      match (unvisitedSuccessor node rest st).1 with
      | none => Invariant g key (unvisitedSuccessor node rest st).2 ((node, []) :: frames)
      | some (y, left) => y ∉ st.indices.keys ∧
          Invariant g key (unvisitedSuccessor node rest st).2 ((node, y :: left) :: frames) := by
  induction rest generalizing st with
  | nil => exact ⟨rfl, h⟩
  | cons y rest ih =>
    by_cases hvisited : y ∈ st.indices.keys
    · have hcontains : st.indices.contains y = true := Dict.contains_iff.mpr hvisited
      by_cases hon : y ∈ st.onStack
      · have hstack : y ∈ st.stack := (h.onStack y).mp hon
        have hedge : Reach g node y := ReflTransGen.single (h.edge List.mem_cons_self)
        have hdef : unvisitedSuccessor node (y :: rest) st =
            unvisitedSuccessor node rest (st.lower node (st.number y)) := by
          rw [unvisitedSuccessor, if_neg (by simp [hcontains]), if_pos hon]
        rw [hdef]
        have hhandled : Handled (st.lower node (st.number y)) node y := by
          refine ⟨hvisited, fun _ => ?_⟩
          rw [lowlink_lower, if_pos rfl, number_lower]
          exact Nat.min_le_right _ _
        exact ih (invariant_advance (invariant_lower h hstack hedge) hhandled)
      · have hoff : y ∉ st.stack := fun hy => hon ((h.onStack y).mpr hy)
        have hdef : unvisitedSuccessor node (y :: rest) st = unvisitedSuccessor node rest st := by
          rw [unvisitedSuccessor, if_neg (by simp [hcontains]), if_neg hon]
        rw [hdef]
        exact ih (invariant_advance h ⟨hvisited, fun hy => absurd hy hoff⟩)
    · have hdef : unvisitedSuccessor node (y :: rest) st = (some (y, rest), st) := by
        have hcontains : st.indices.contains y = false := by
          rw [Bool.eq_false_iff]
          exact fun hc => hvisited (Dict.contains_iff.mp hc)
        rw [unvisitedSuccessor, if_pos (by simp [hcontains])]
      rw [hdef]
      exact ⟨rfl, hvisited, h⟩

end Raes.Graph
