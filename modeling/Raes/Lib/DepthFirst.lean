import Mathlib.Data.List.Infix
import Mathlib.Data.List.Nodup
import Mathlib.Logic.Relation

/-!
# Depth-first walks

A depth-first walk carries the path of the nodes that are entered and not yet
finished, and the list of the finished nodes, the last one first.  A pending
node that is finished is passed over, a pending node on the path is a cycle and
ends the walk, and any other is entered when it meets a condition that may read
the nodes finished so far.

A finished node has all its children finished before it.  So a walk that ends
has finished exactly the nodes that the pending ones reach, each once, and none
of them lies on a cycle.
-/

namespace Raes.DepthFirst

variable {κ : Type} {children : κ → List κ} {Enter : List κ → κ → Prop}

/-- The walk through the pending nodes: path, finished nodes, pending nodes and the nodes
finished in the end. -/
inductive Walk (children : κ → List κ) (Enter : List κ → κ → Prop) :
    List κ → List κ → List κ → List κ → Prop
  | nil (path finished : List κ) : Walk children Enter path finished [] finished
  | seen {path finished rest last : List κ} {k : κ} (hpath : k ∉ path) (hseen : k ∈ finished)
      (hrest : Walk children Enter path finished rest last) :
      Walk children Enter path finished (k :: rest) last
  | enter {path finished rest inner last : List κ} {k : κ} (hpath : k ∉ path)
      (hnew : k ∉ finished) (henter : Enter finished k)
      (hinner : Walk children Enter (k :: path) finished (children k) inner)
      (hrest : Walk children Enter path (k :: inner) rest last) :
      Walk children Enter path finished (k :: rest) last

def Edge (children : κ → List κ) (a b : κ) : Prop := b ∈ children a

/-- Each node of the list stands before all its children. -/
def Ordered (children : κ → List κ) : List κ → Prop
  | [] => True
  | k :: rest => (∀ c ∈ children k, c ∈ rest) ∧ Ordered children rest

section Walks

variable {path finished pending last : List κ}

theorem Walk.suffix (h : Walk children Enter path finished pending last) : finished <:+ last := by
  induction h with
  | nil path finished => exact List.suffix_refl finished
  | seen _ _ _ ih => exact ih
  | @enter path finished rest inner last k _ _ _ _ _ ihinner ihrest =>
    exact ihinner.trans ((List.suffix_cons k inner).trans ihrest)

/-- A walk through one list and then through another is a walk through both. -/
theorem Walk.append {more final : List κ} (h : Walk children Enter path finished pending last)
    (hmore : Walk children Enter path last more final) :
    Walk children Enter path finished (pending ++ more) final := by
  induction h with
  | nil => exact hmore
  | seen hpath hseen _ ih => exact .seen hpath hseen (ih hmore)
  | enter hpath hnew henter hinner _ _ ih => exact .enter hpath hnew henter hinner (ih hmore)

section

variable (h : Walk children Enter path finished pending last)
include h

theorem Walk.pending_mem : ∀ k ∈ pending, k ∈ last := by
  induction h with
  | nil => exact fun k hk => (nomatch hk)
  | @seen path finished rest last k _ hseen hrest ih =>
    rw [List.forall_mem_cons]
    exact ⟨hrest.suffix.subset hseen, ih⟩
  | @enter path finished rest inner last k _ _ _ _ hrest _ ihrest =>
    rw [List.forall_mem_cons]
    exact ⟨hrest.suffix.subset List.mem_cons_self, ihrest⟩

theorem Walk.ordered (hordered : Ordered children finished) : Ordered children last := by
  induction h with
  | nil => exact hordered
  | seen _ _ _ ih => exact ih hordered
  | enter _ _ _ hinner _ ihinner ihrest =>
    exact ihrest ⟨hinner.pending_mem, ihinner hordered⟩

theorem Walk.path_notMem (hpath : ∀ k ∈ path, k ∉ finished) : ∀ k ∈ path, k ∉ last := by
  induction h with
  | nil => exact hpath
  | seen _ _ _ ih => exact ih hpath
  | @enter path finished rest inner last k hk hnew _ _ _ ihinner ihrest =>
    have hinner := ihinner (List.forall_mem_cons.mpr ⟨hnew, hpath⟩)
    apply ihrest
    intro x hx hmem
    rcases List.mem_cons.mp hmem with rfl | hmem
    · exact hk hx
    · exact hinner x (List.mem_cons_of_mem _ hx) hmem

theorem Walk.nodup (hpath : ∀ k ∈ path, k ∉ finished) (hnodup : finished.Nodup) : last.Nodup := by
  induction h with
  | nil => exact hnodup
  | seen _ _ _ ih => exact ih hpath hnodup
  | @enter path finished rest inner last k hk hnew _ hinner _ ihinner ihrest =>
    have hpath' : ∀ x ∈ k :: path, x ∉ finished := List.forall_mem_cons.mpr ⟨hnew, hpath⟩
    have houtside := hinner.path_notMem hpath'
    have hafter : ∀ x ∈ path, x ∉ k :: inner := by
      intro x hx hmem
      rcases List.mem_cons.mp hmem with rfl | hmem
      · exact hk hx
      · exact houtside x (List.mem_cons_of_mem _ hx) hmem
    exact ihrest hafter
      (List.nodup_cons.mpr ⟨houtside k List.mem_cons_self, ihinner hpath' hnodup⟩)

theorem Walk.entered : ∀ k ∈ last, k ∈ finished ∨
      (∃ before, Enter before k) ∧ ∃ r ∈ pending, Relation.ReflTransGen (Edge children) r k := by
  induction h with
  | nil => exact fun k hk => Or.inl hk
  | seen _ _ _ ih =>
    intro x hx
    rcases ih x hx with hmem | ⟨henter, r, hr, hreach⟩
    · exact Or.inl hmem
    · exact Or.inr ⟨henter, r, List.mem_cons_of_mem _ hr, hreach⟩
  | @enter path finished rest inner last k _ _ henter _ _ ihinner ihrest =>
    intro x hx
    rcases ihrest x hx with hmem | ⟨hentered, r, hr, hreach⟩
    · rcases List.mem_cons.mp hmem with rfl | hmem
      · exact Or.inr ⟨⟨finished, henter⟩, x, List.mem_cons_self, .refl⟩
      · rcases ihinner x hmem with hmem | ⟨hentered, r, hr, hreach⟩
        · exact Or.inl hmem
        · exact Or.inr ⟨hentered, k, List.mem_cons_self, .head hr hreach⟩
    · exact Or.inr ⟨hentered, r, List.mem_cons_of_mem _ hr, hreach⟩

end

end Walks

section Orders

variable {l : List κ}

theorem Ordered.of_suffix {m : List κ} (h : Ordered children l) (hm : m <:+ l) :
    Ordered children m := by
  induction l with
  | nil =>
    rw [List.suffix_nil.mp hm]
    trivial
  | cons k rest ih =>
    rcases List.suffix_cons_iff.mp hm with rfl | hm
    · exact h
    · exact ih h.2 hm

theorem Ordered.reached {k c : κ} {rest : List κ} (h : Ordered children l)
    (hk : (k :: rest) <:+ l) (hreach : Relation.TransGen (Edge children) k c) : c ∈ rest := by
  have hfirst : ∀ {rest' : List κ}, Ordered children rest' → ∀ x ∈ rest', ∀ y ∈ children x,
      y ∈ rest' := by
    intro rest' hordered x hx y hy
    obtain ⟨before, after, rfl⟩ := List.append_of_mem hx
    have hsuffix : Ordered children (x :: after) := hordered.of_suffix (List.suffix_append _ _)
    exact List.mem_append_right _ (List.mem_cons_of_mem _ (hsuffix.1 y hy))
  have hordered := h.of_suffix hk
  induction hreach with
  | single hedge => exact hordered.1 _ hedge
  | tail _ hedge ih => exact hfirst hordered.2 _ ih _ hedge

/-- An ordered list without repetitions has no cycle. -/
theorem Ordered.acyclic (h : Ordered children l) (hnodup : l.Nodup) {k : κ} (hk : k ∈ l) :
    ¬ Relation.TransGen (Edge children) k k := by
  intro hcycle
  obtain ⟨before, after, rfl⟩ := List.append_of_mem hk
  have hmem := h.reached (List.suffix_append before (k :: after)) hcycle
  exact (List.nodup_cons.mp (List.nodup_append.mp hnodup).2.1).1 hmem

end Orders

/-! ## Walks from one root -/

/-- A walk from a root finishes exactly what the root reaches, each node once and after all
its children, which leaves no room for a cycle; and it has entered all of it. -/
theorem Walk.closure {root : κ} {last : List κ} (h : Walk children Enter [] [] [root] last) :
    last.Nodup ∧ (∀ k, k ∈ last ↔ Relation.ReflTransGen (Edge children) root k) ∧
      (∀ k, Relation.ReflTransGen (Edge children) root k →
        ¬ Relation.TransGen (Edge children) k k) ∧ ∀ k ∈ last, ∃ before, Enter before k := by
  have hnodup : last.Nodup := h.nodup (fun k hk => (nomatch hk)) List.nodup_nil
  have hordered : Ordered children last := h.ordered trivial
  have hroot : root ∈ last := h.pending_mem root List.mem_cons_self
  have hclosed : ∀ k, Relation.ReflTransGen (Edge children) root k → k ∈ last := by
    intro k hreach
    rcases Relation.reflTransGen_iff_eq_or_transGen.mp hreach with rfl | hreach
    · exact hroot
    · obtain ⟨before, after, rfl⟩ := List.append_of_mem hroot
      have hmem := hordered.reached (List.suffix_append before (root :: after)) hreach
      exact List.mem_append_right _ (List.mem_cons_of_mem _ hmem)
  refine ⟨hnodup, fun k => ⟨fun hk => ?_, hclosed k⟩, fun k hk => ?_, fun k hk => ?_⟩
  · obtain ⟨-, r, hr, hreach⟩ := (h.entered k hk).resolve_left (fun hnil => (nomatch hnil))
    rw [List.mem_singleton.mp hr] at hreach
    exact hreach
  · exact hordered.acyclic hnodup (hclosed k hk)
  · exact ((h.entered k hk).resolve_left (fun hnil => (nomatch hnil))).1

end Raes.DepthFirst
