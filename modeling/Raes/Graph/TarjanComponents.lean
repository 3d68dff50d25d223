import Raes.Graph.CyclicComponents

/-!
# The components of the traversal

Visiting a node opens a segment, and leaving a node closes its segment as a
component or merges it into the segment of its parent.  From these steps follow
the loop, the whole traversal, and what `cyclic_components` returns.
-/

namespace Raes.Graph

open Relation Tarjan

variable {N : Type} [DecidableEq N] {g : DirectedGraph N} {K : Type} [LinearOrder K]
  {key : N → K} {st : Tarjan N} {frames : List (Frame N)}

/-! ## Visiting -/

theorem mem_keys_visit (node x : N) :
    x ∈ (st.visit node).indices.keys ↔ x = node ∨ x ∈ st.indices.keys :=
  Dict.mem_keys_set _ _ _ _

theorem invariant_visit (h : Invariant g key st frames) {node : N}
    (hnew : node ∉ st.indices.keys) (hnode : node ∈ g.nodes)
    (hreach : ∀ x ∈ st.stack, Reach g x node) :
    Invariant g key (st.visit node) ((node, g.successors node) :: frames) := by
  have hne : ∀ x ∈ st.stack, x ≠ node := fun x hx heq => hnew (heq ▸ h.visited x hx)
  have hnumber : ∀ x ∈ st.stack, (st.visit node).number x = st.number x := fun x hx => by
    rw [number_visit, if_neg (hne x hx)]
  have hself : (st.visit node).number node = st.index := by rw [number_visit, if_pos rfl]
  constructor
  · intro x hx
    rcases (mem_keys_visit node x).mp hx with rfl | hx
    · exact hnode
    · exact h.known x hx
  · intro x hx
    show _ < st.index + 1
    rw [number_visit]
    split
    · omega
    · rename_i hxn
      have hlt := h.fresh x (((mem_keys_visit node x).mp hx).resolve_left hxn)
      omega
  · intro x hx
    rw [mem_keys_visit]
    exact (List.mem_cons.mp hx).imp_right (h.visited x)
  · refine List.pairwise_cons.mpr ⟨?_, ?_⟩
    · intro x hx
      rw [hnumber x hx, hself]
      exact h.fresh x (h.visited x hx)
    · refine h.sorted.imp_of_mem ?_
      intro a b ha hb hab
      rw [hnumber a ha, hnumber b hb]
      exact hab
  · intro x
    show x ∈ node :: st.onStack ↔ x ∈ node :: st.stack
    rw [List.mem_cons, List.mem_cons, h.onStack]
  · intro x hx y hy hle
    rcases List.mem_cons.mp hx with hxnode | hxold
    · rcases List.mem_cons.mp hy with hynode | hyold
      · rw [hxnode, hynode]
        exact ReflTransGen.refl
      · rw [hxnode, hself, hnumber y hyold] at hle
        have hlt := h.fresh y (h.visited y hyold)
        omega
    · rcases List.mem_cons.mp hy with hynode | hyold
      · rw [hynode]
        exact hreach x hxold
      · rw [hnumber x hxold, hnumber y hyold] at hle
        exact h.reach x hxold y hyold hle
  · intro f hf
    rcases List.mem_cons.mp hf with rfl | hf
    · refine ⟨node, List.mem_cons_self, ?_, le_refl _, ReflTransGen.refl⟩
      rw [hself, lowlink_visit, if_pos rfl]
    · have hfmem := h.segments.mem hf
      obtain ⟨y, hy, hlink, hle, hpath⟩ := h.links f hf
      refine ⟨y, List.mem_cons_of_mem _ hy, ?_, ?_, hpath⟩
      · rw [hnumber y hy, lowlink_visit, if_neg (hne f.1 hfmem)]
        exact hlink
      · rw [hnumber y hy, hnumber f.1 hfmem]
        exact hle
  · refine ⟨[], st.stack, [], rfl, by simp, rfl, by simp, ?_⟩
    apply h.segments.keep
    intro f hf y hy
    refine ⟨(mem_keys_visit node y).mpr (Or.inr hy.1), ?_⟩
    intro hmem
    rcases List.mem_cons.mp hmem with rfl | hmem
    · exact absurd hy.1 hnew
    · rw [hnumber y hmem, lowlink_visit, if_neg (hne f.1 (h.segments.mem hf))]
      exact hy.2 hmem
  · intro x hx hoff y hedge
    rw [mem_keys_visit] at hx ⊢
    have hxn : x ≠ node := fun heq => hoff (heq ▸ List.mem_cons_self)
    obtain ⟨hy, hyoff⟩ := h.settled x (hx.resolve_left hxn)
      (fun hmem => hoff (List.mem_cons_of_mem _ hmem)) y hedge
    refine ⟨Or.inr hy, ?_⟩
    intro hmem
    rcases List.mem_cons.mp hmem with rfl | hmem
    · exact hnew hy
    · exact hyoff hmem
  · refine ⟨?_, h.recorded.disjoint, h.recorded.exact, ?_⟩
    · intro c hc x hx
      obtain ⟨hvisited, hoff⟩ := h.recorded.settled c hc x hx
      refine ⟨(mem_keys_visit node x).mpr (Or.inr hvisited), ?_⟩
      intro hmem
      rcases List.mem_cons.mp hmem with rfl | hmem
      · exact hnew hvisited
      · exact hoff hmem
    · intro x hx hoff hcycle
      have hxn : x ≠ node := fun heq => hoff (heq ▸ List.mem_cons_self)
      exact h.recorded.complete x (((mem_keys_visit node x).mp hx).resolve_left hxn)
        (fun hmem => hoff (List.mem_cons_of_mem _ hmem)) hcycle

theorem invariant_advance_below {f : Frame N} {node y : N} {rest : List N}
    (h : Invariant g key st (f :: (node, y :: rest) :: frames)) (hy : Handled st node y) :
    Invariant g key st (f :: (node, rest) :: frames) := by
  refine ⟨h.known, h.fresh, h.visited, h.sorted, h.onStack, h.reach, ?_, ?_, h.settled,
    h.recorded⟩
  · intro e he
    rcases List.mem_cons.mp he with rfl | he
    · exact h.links e List.mem_cons_self
    · rcases List.mem_cons.mp he with rfl | he
      · exact h.links (node, y :: rest) (List.mem_cons_of_mem _ List.mem_cons_self)
      · exact h.links e (List.mem_cons_of_mem _ (List.mem_cons_of_mem _ he))
  · obtain ⟨above, below, done, hstack, habove, hdone, hhandled, hbelow⟩ := h.segments
    obtain ⟨above', below', done', hstack', habove', hdone', hhandled', hbelow'⟩ := hbelow
    refine ⟨above, below, done, hstack, habove, hdone, hhandled, above', below', done' ++ [y],
      hstack', habove', by simp [hdone'], ?_, hbelow'⟩
    intro z hz
    rcases List.mem_append.mp hz with hz | hz
    · exact hhandled' z hz
    · rw [List.mem_singleton.mp hz]
      exact hy

variable {node : N}

theorem Invariant.reach_top {rest : List N}
    (h : Invariant g key st ((node, rest) :: frames)) {x : N} (hx : x ∈ st.stack) :
    Reach g x node := by
  obtain ⟨above, below, done, hstack, habove, -, -, -⟩ := h.segments
  have hsorted := h.sorted
  rw [hstack] at hsorted
  have hmem := hx
  rw [hstack] at hmem
  rcases List.mem_append.mp hmem with hmem | hmem
  · exact (habove x hmem).1
  · rcases List.mem_cons.mp hmem with rfl | hmem
    · exact ReflTransGen.refl
    · have hlt := (List.pairwise_cons.mp (List.pairwise_append.mp hsorted).2.1).1 x hmem
      exact h.reach x hx node h.top_mem (Nat.le_of_lt hlt)

theorem invariant_descend {node y : N} {rest : List N}
    (h : Invariant g key st ((node, y :: rest) :: frames)) (hnew : y ∉ st.indices.keys) :
    Invariant g key (st.visit y) ((y, g.successors y) :: (node, rest) :: frames) := by
  have hedge := h.edge List.mem_cons_self
  have hvisit := invariant_visit h hnew (mem_nodes_of_edge hedge)
    fun x hx => (h.reach_top hx).tail hedge
  apply invariant_advance_below hvisit
  refine ⟨(mem_keys_visit y y).mpr (Or.inl rfl), fun _ => ?_⟩
  have hne : node ≠ y := fun heq => hnew (heq ▸ h.visited node h.top_mem)
  obtain ⟨z, hz, hlink, -, -⟩ := h.links (node, y :: rest) List.mem_cons_self
  rw [lowlink_visit, if_neg hne, number_visit, if_pos rfl, ← hlink]
  exact Nat.le_of_lt (h.fresh z (h.visited z hz))

/-! ## Leaving -/

theorem Invariant.top_segment {rest above below : List N}
    (h : Invariant g key st ((node, rest) :: frames)) (hstack : st.stack = above ++ node :: below) :
    (∀ x ∈ above, st.number node < st.number x) ∧
      (∀ x ∈ below, st.number x < st.number node) := by
  have hsorted := h.sorted
  rw [hstack] at hsorted
  obtain ⟨-, hlower, hcross⟩ := List.pairwise_append.mp hsorted
  exact ⟨fun x hx => hcross x hx node List.mem_cons_self, (List.pairwise_cons.mp hlower).1⟩

theorem invariant_merge {node parent : N} {rest : List N}
    (h : Invariant g key st ((node, []) :: (parent, rest) :: frames))
    (hlink : st.lowlink node ≠ st.number node) (hparent : st.lowlink parent ≤ st.lowlink node) :
    Invariant g key st ((parent, rest) :: frames) := by
  refine ⟨h.known, h.fresh, h.visited, h.sorted, h.onStack, h.reach,
    fun f hf => h.links f (List.mem_cons_of_mem _ hf), ?_, h.settled, h.recorded⟩
  obtain ⟨above, below, done, hstack, habove, hdone, hhandled, hbelow⟩ := h.segments
  obtain ⟨above', below', done', rfl, habove', hdone', hhandled', hbelow'⟩ := hbelow
  obtain ⟨hover, hunder⟩ := h.top_segment hstack
  obtain ⟨y, hy, hnumber, hle, hpath⟩ := h.links (node, []) List.mem_cons_self
  -- The link of the node leads below the node, and from there to the parent.
  have hynode : st.number y < st.number node := by
    rw [hnumber] at hle ⊢
    exact Nat.lt_of_le_of_ne hle hlink
  have hyparent : Reach g y parent := by
    have hmem := hy
    rw [hstack] at hmem
    rcases List.mem_append.mp hmem with hmem | hmem
    · have hlt := hover y hmem
      omega
    · rcases List.mem_cons.mp hmem with rfl | hmem
      · exact absurd hynode (Nat.lt_irrefl _)
      · rcases List.mem_append.mp hmem with hmem | hmem
        · exact (habove' y hmem).1
        · have hparentMem : parent ∈ st.stack := by
            rw [hstack]
            simp
          rcases List.mem_cons.mp hmem with rfl | hmem
          · exact ReflTransGen.refl
          · have hsorted := h.sorted
            rw [hstack, List.pairwise_append, List.pairwise_cons, List.pairwise_append,
              List.pairwise_cons] at hsorted
            exact h.reach y hy parent hparentMem
              (Nat.le_of_lt (hsorted.2.1.2.2.1.1 y hmem))
  have hnodeParent : Reach g node parent := ReflTransGen.trans hpath hyparent
  have hweaken : ∀ z, Handled st node z → Handled st parent z := fun z hz =>
    ⟨hz.1, fun hmem => le_trans hparent (hz.2 hmem)⟩
  refine ⟨above ++ node :: above', below', done', by simp [hstack], ?_, hdone', hhandled',
    hbelow'⟩
  intro x hx
  rcases List.mem_append.mp hx with hx | hx
  · exact ⟨ReflTransGen.trans (habove x hx).1 hnodeParent,
      fun z hz => hweaken z ((habove x hx).2 z hz)⟩
  · rcases List.mem_cons.mp hx with rfl | hx
    · refine ⟨hnodeParent, fun z hz => hweaken z (hhandled z ?_)⟩
      rw [edge_iff, hdone, List.append_nil] at hz
      exact hz
    · exact habove' x hx

theorem popUntil_append {above : List N} (below : List N) (h : node ∉ above) :
    popUntil node (above ++ node :: below) = (above ++ [node], below) := by
  induction above with
  | nil => simp [popUntil]
  | cons x above ih =>
    rw [List.mem_cons, not_or] at h
    rw [List.cons_append, popUntil, if_neg (Ne.symm h.1), ih h.2]
    rfl

theorem Invariant.component (h : Invariant g key st ((node, []) :: frames))
    (hlink : st.lowlink node = st.number node) {above below : List N}
    (hstack : st.stack = above ++ node :: below)
    (habove : ∀ x ∈ above, Reach g x node ∧ ∀ y, Edge g.adjacency x y → Handled st node y)
    (hnode : ∀ y, Edge g.adjacency node y → Handled st node y) :
    (∀ x ∈ above ++ [node], ∀ y, Edge g.adjacency x y →
      y ∈ st.indices.keys ∧ y ∉ below) ∧
      ∀ y, y ∈ above ++ [node] ↔ Reach g node y ∧ Reach g y node := by
  obtain ⟨hover, hunder⟩ := h.top_segment hstack
  have hedges : ∀ x ∈ above ++ [node], ∀ y, Edge g.adjacency x y → Handled st node y := by
    intro x hx
    rcases List.mem_append.mp hx with hx | hx
    · exact (habove x hx).2
    · rw [List.mem_singleton.mp hx]
      exact hnode
  have hbelow : ∀ y, Handled st node y → y ∉ below := by
    intro y hy hmem
    have hle := hy.2 (by rw [hstack]; simp [hmem])
    have hlt := hunder y hmem
    omega
  -- A path from the segment stays in it or leaves to settled nodes for good.
  have hclosed : ∀ x y, Reach g x y → x ∈ above ++ [node] →
      y ∈ above ++ [node] ∨ y ∈ st.indices.keys ∧ y ∉ st.stack := by
    intro x y hpath hx
    induction hpath with
    | refl => exact Or.inl hx
    | @tail b c _ hedge ih =>
      rcases ih with hb | ⟨hb, hoff⟩
      · have hc := hedges b hb c hedge
        by_cases hcstack : c ∈ st.stack
        · left
          rw [hstack] at hcstack
          have hcbelow := hbelow c hc
          simp only [List.mem_append, List.mem_cons] at hcstack ⊢
          tauto
        · exact Or.inr ⟨hc.1, hcstack⟩
      · exact Or.inr (h.settled b hb hoff c hedge)
  have hsettled : ∀ x y, Reach g x y → x ∈ st.indices.keys ∧ x ∉ st.stack →
      y ∈ st.indices.keys ∧ y ∉ st.stack := by
    intro x y hpath hx
    induction hpath with
    | refl => exact hx
    | tail _ hedge ih => exact h.settled _ ih.1 ih.2 _ hedge
  refine ⟨fun x hx y hedge => ⟨(hedges x hx y hedge).1, hbelow y (hedges x hx y hedge)⟩, ?_⟩
  intro y
  constructor
  · intro hy
    have hmem : y ∈ st.stack := by
      rw [hstack]
      simp only [List.mem_append, List.mem_cons] at hy ⊢
      tauto
    refine ⟨?_, h.reach_top hmem⟩
    apply h.reach node h.top_mem y hmem
    rcases List.mem_append.mp hy with hy | hy
    · exact Nat.le_of_lt (hover y hy)
    · rw [List.mem_singleton.mp hy]
  · rintro ⟨hto, hback⟩
    rcases hclosed node y hto (by simp) with hy | hy
    · exact hy
    · exact absurd h.top_mem (hsettled y node hback hy).2

theorem recorded_close (h : Recorded g key st) {above below : List N}
    (hstack : st.stack = above ++ node :: below) (hnodup : st.stack.Nodup)
    (hvisited : ∀ x ∈ st.stack, x ∈ st.indices.keys) (hnode : node ∈ g.nodes)
    (hcomponent : ∀ y, y ∈ above ++ [node] ↔ Reach g node y ∧ Reach g y node) :
    Recorded g key (closeComponent g key node st) := by
  have hsplit : st.stack = (above ++ [node]) ++ below := by simp [hstack]
  have hparts := hnodup
  rw [hsplit] at hparts
  obtain ⟨hsegment, -, hdisjoint⟩ := List.nodup_append.mp hparts
  have hnot : node ∉ above := fun hmem =>
    (List.nodup_append.mp hsegment).2.2 node hmem node (List.mem_singleton.mpr rfl) rfl
  have hpop : popUntil node st.stack = (above ++ [node], below) := by
    rw [hstack, popUntil_append below hnot]
  have hperm : (sortBy key (above ++ [node])).Perm (above ++ [node]) := sortBy_perm key _
  have hkeep : ∀ x, x ∉ st.stack → x ∉ below := fun x hx hmem =>
    hx (by rw [hsplit]; exact List.mem_append_right _ hmem)
  have hoff : ∀ x ∈ above ++ [node], x ∈ st.indices.keys ∧ x ∉ below := fun x hx =>
    ⟨hvisited x (by rw [hsplit]; exact List.mem_append_left _ hx),
      fun hmem => hdisjoint x hx x hmem rfl⟩
  have holder : ∀ c ∈ st.components, ∀ x ∈ c, x ∈ st.indices.keys ∧ x ∉ below := fun c hc x hx =>
    ⟨(h.settled c hc x hx).1, hkeep x (h.settled c hc x hx).2⟩
  unfold closeComponent
  rw [hpop]
  dsimp only
  by_cases hcyclic : 1 < (sortBy key (above ++ [node])).length ||
      (sortBy key (above ++ [node])).head?.any fun first => first ∈ g.successors first
  · rw [if_pos hcyclic]
    constructor
    · intro c hc x hx
      rcases List.mem_append.mp hc with hc | hc
      · exact holder c hc x hx
      · rw [List.mem_singleton.mp hc] at hx
        exact hoff x (hperm.mem_iff.mp hx)
    · refine List.pairwise_append.mpr ⟨h.disjoint, List.pairwise_singleton _ _, ?_⟩
      intro c hc d hd x hx hxd
      rw [List.mem_singleton.mp hd] at hxd
      apply (h.settled c hc x hx).2
      rw [hsplit]
      exact List.mem_append_left _ (hperm.mem_iff.mp hxd)
    · intro c hc
      rcases List.mem_append.mp hc with hc | hc
      · exact h.exact c hc
      · rw [List.mem_singleton.mp hc]
        refine ⟨hperm.nodup_iff.mpr hsegment, sortBy_pairwise key _, ⟨node, hnode, ?_⟩, ?_⟩
        · intro y
          rw [hperm.mem_iff]
          exact hcomponent y
        · rw [Bool.or_eq_true, decide_eq_true_iff] at hcyclic
          rcases hcyclic with hlength | hloop
          · exact Or.inl hlength
          · cases hfirst : (sortBy key (above ++ [node])).head? with
            | none =>
              rw [hfirst] at hloop
              cases hloop
            | some first =>
              rw [hfirst, Option.any_some, decide_eq_true_iff] at hloop
              exact Or.inr ⟨first, List.mem_of_mem_head? hfirst, edge_iff.mpr hloop⟩
    · intro x hx hxoff hcycle
      by_cases hmem : x ∈ st.stack
      · refine ⟨_, List.mem_append_right _ (List.mem_singleton.mpr rfl), ?_⟩
        rw [hsplit] at hmem
        exact hperm.mem_iff.mpr ((List.mem_append.mp hmem).resolve_right hxoff)
      · obtain ⟨c, hc, hxc⟩ := h.complete x hx hmem hcycle
        exact ⟨c, List.mem_append_left _ hc, hxc⟩
  · rw [if_neg hcyclic]
    refine ⟨holder, h.disjoint, h.exact, ?_⟩
    intro x hx hxoff hcycle
    by_cases hmem : x ∈ st.stack
    · -- The segment is the node alone, and the node has no loop.
      exfalso
      rw [hsplit] at hmem
      have hxsegment := (List.mem_append.mp hmem).resolve_right hxoff
      rw [Bool.or_eq_true, decide_eq_true_iff, not_or] at hcyclic
      obtain ⟨hshort, hloop⟩ := hcyclic
      have hlength : (above ++ [node]).length ≤ 1 := by
        rw [← hperm.length_eq]
        omega
      have hempty : above = [] := by
        rw [List.length_append, List.length_singleton] at hlength
        exact List.length_eq_zero_iff.mp (by omega)
      subst hempty
      rw [List.nil_append, List.mem_singleton] at hxsegment
      subst hxsegment
      obtain ⟨y, hedge, hback⟩ := TransGen.head'_iff.mp hcycle
      have hy := (hcomponent y).mpr ⟨ReflTransGen.single hedge, hback⟩
      rw [List.nil_append, List.mem_singleton] at hy
      rw [hy] at hedge
      exact hloop (by simpa [sortBy] using edge_iff.mp hedge)
    · exact h.complete x hx hmem hcycle

theorem invariant_close (h : Invariant g key st ((node, []) :: frames))
    (hlink : st.lowlink node = st.number node) :
    Invariant g key (closeComponent g key node st) frames := by
  obtain ⟨above, below, done, hstack, habove, hdone, hhandled, hbelow⟩ := h.segments
  have hnodeEdges : ∀ y, Edge g.adjacency node y → Handled st node y := by
    intro y hy
    rw [edge_iff, hdone, List.append_nil] at hy
    exact hhandled y hy
  obtain ⟨hout, hcomponent⟩ := h.component hlink hstack habove hnodeEdges
  have hrecorded := recorded_close h.recorded hstack h.nodup h.visited
    (h.known node (h.visited node h.top_mem)) hcomponent
  have hnot : node ∉ above := by
    have hnodup := h.nodup
    rw [hstack] at hnodup
    intro hmem
    exact (List.nodup_append.mp hnodup).2.2 node hmem node List.mem_cons_self rfl
  have hpop : popUntil node st.stack = (above ++ [node], below) := by
    rw [hstack, popUntil_append below hnot]
  have hstack' : (closeComponent g key node st).stack = below := by
    rw [closeComponent, hpop]
  have hsub : ∀ x ∈ below, x ∈ st.stack := fun x hx => by
    rw [hstack]
    simp [hx]
  have hsplit : ∀ x ∈ st.stack, x ∉ below → x ∈ above ++ [node] := by
    intro x hx hoff
    rw [hstack] at hx
    simp only [List.mem_append, List.mem_cons] at hx ⊢
    tauto
  obtain ⟨hover, hunder⟩ := h.top_segment hstack
  constructor
  · exact h.known
  · exact h.fresh
  · intro x hx
    rw [hstack'] at hx
    exact h.visited x (hsub x hx)
  · rw [hstack']
    have hsorted := h.sorted
    rw [hstack, List.pairwise_append, List.pairwise_cons] at hsorted
    exact hsorted.2.1.2
  · intro x
    rw [hstack']
    have honStack : (closeComponent g key node st).onStack =
        st.onStack.filter fun member => member ∉ above ++ [node] := by
      rw [closeComponent, hpop]
    rw [honStack, List.mem_filter, h.onStack, decide_eq_true_iff]
    constructor
    · rintro ⟨hx, hoff⟩
      by_contra hxbelow
      exact hoff (hsplit x hx hxbelow)
    · intro hx
      refine ⟨hsub x hx, ?_⟩
      intro hmem
      have hlt := hunder x hx
      rcases List.mem_append.mp hmem with hmem | hmem
      · have hgt := hover x hmem
        omega
      · rw [List.mem_singleton.mp hmem] at hlt
        exact absurd hlt (Nat.lt_irrefl _)
  · intro x hx y hy hle
    rw [hstack'] at hx hy
    exact h.reach x (hsub x hx) y (hsub y hy) hle
  · intro f hf
    obtain ⟨y, hy, hnumber, hle, hpath⟩ := h.links f (List.mem_cons_of_mem _ hf)
    refine ⟨y, ?_, hnumber, hle, hpath⟩
    rw [hstack']
    by_contra hoff
    have hfbelow := hbelow.mem hf
    have hlt := hunder f.1 hfbelow
    rcases List.mem_append.mp (hsplit y hy hoff) with hmem | hmem
    · have hgt := hover y hmem
      omega
    · rw [List.mem_singleton.mp hmem] at hle
      omega
  · rw [hstack']
    apply hbelow.keep
    intro f _ y hy
    refine ⟨hy.1, fun hmem => hy.2 (hsub y ?_)⟩
    rw [hstack'] at hmem
    exact hmem
  · intro x hx hoff y hedge
    rw [hstack'] at hoff ⊢
    by_cases hmem : x ∈ st.stack
    · exact hout x (hsplit x hmem hoff) y hedge
    · obtain ⟨hy, hyoff⟩ := h.settled x hx hmem y hedge
      exact ⟨hy, fun hybelow => hyoff (hsub y hybelow)⟩
  · exact hrecorded

theorem invariant_leave (h : Invariant g key st ((node, []) :: frames)) :
    Invariant g key (leave g key node frames st) frames := by
  obtain ⟨y, hy, hnumber, hle, hpath⟩ := h.links (node, []) List.mem_cons_self
  obtain ⟨above, below, done, hstack, -, -, -, hbelow⟩ := h.segments
  obtain ⟨hover, hunder⟩ := h.top_segment hstack
  cases frames with
  | nil =>
    -- A root has nothing below it, so its link is its own number.
    have hlink : st.lowlink node = st.number node := by
      have hempty : below = [] := hbelow
      rw [hstack, hempty] at hy
      rcases List.mem_append.mp hy with hy | hy
      · have hgt := hover y hy
        dsimp only at hle
        omega
      · rw [List.mem_singleton.mp hy] at hnumber
        exact hnumber.symm
    unfold leave
    dsimp only
    rw [if_pos hlink]
    exact invariant_close h hlink
  | cons f frames =>
    obtain ⟨parent, rest⟩ := f
    have hparentMem : parent ∈ below := hbelow.mem (f := (parent, rest)) List.mem_cons_self
    have hparentLt := hunder parent hparentMem
    have hparentStack : parent ∈ st.stack := by
      rw [hstack]
      simp [hparentMem]
    have hne : node ≠ parent := by
      intro heq
      rw [heq] at hparentLt
      exact absurd hparentLt (Nat.lt_irrefl _)
    have hparentPath : Reach g parent y := ReflTransGen.trans
      (h.reach parent hparentStack node h.top_mem (Nat.le_of_lt hparentLt)) hpath
    have hlowered := invariant_lower h hy hparentPath
    rw [hnumber] at hlowered
    dsimp only at hlowered
    have hkept : (st.lower parent (st.lowlink node)).lowlink node = st.lowlink node := by
      rw [lowlink_lower, if_neg hne]
    have hbound : (st.lower parent (st.lowlink node)).lowlink parent ≤
        (st.lower parent (st.lowlink node)).lowlink node := by
      rw [hkept, lowlink_lower, if_pos rfl]
      exact Nat.min_le_right _ _
    unfold leave
    dsimp only
    by_cases hlink : (st.lower parent (st.lowlink node)).lowlink node =
        (st.lower parent (st.lowlink node)).number node
    · rw [if_pos hlink]
      exact invariant_close hlowered hlink
    · rw [if_neg hlink]
      exact invariant_merge hlowered hlink hbound

/-! ## The loop -/

def unvisited (g : DirectedGraph N) (st : Tarjan N) : List N :=
  g.nodes.filter fun x => x ∉ st.indices.keys

theorem length_unvisited_visit (hnode : node ∈ g.nodes) (hnew : node ∉ st.indices.keys) :
    (unvisited g (st.visit node)).length < (unvisited g st).length := by
  have hfilter : unvisited g (st.visit node) =
      (unvisited g st).filter fun x => x ≠ node := by
    unfold unvisited
    rw [List.filter_filter]
    apply List.filter_congr
    intro x _
    rw [Bool.eq_iff_iff]
    simp [mem_keys_visit]
  rw [hfilter]
  apply List.length_filter_lt_length_iff_exists.mpr
  exact ⟨node, List.mem_filter.mpr ⟨hnode, by simpa using hnew⟩, by simp⟩

theorem indices_leave (node : N) : (leave g key node frames st).indices = st.indices := by
  unfold leave
  cases frames with
  | nil =>
    dsimp only
    split <;> rfl
  | cons f frames =>
    dsimp only
    split <;> rfl

theorem strongconnectLoop_spec (fuel : ℕ) {st : Tarjan N} {frames : List (Frame N)}
    (h : Invariant g key st frames)
    (hfuel : 2 * (unvisited g st).length + frames.length ≤ fuel) :
    ∃ st', strongconnectLoop g key fuel st frames = some st' ∧ Invariant g key st' [] ∧
      ∀ x ∈ st.indices.keys, x ∈ st'.indices.keys := by
  induction fuel generalizing st frames with
  | zero =>
    cases frames with
    | nil => exact ⟨st, rfl, h, fun _ hx => hx⟩
    | cons f frames =>
      rw [List.length_cons] at hfuel
      omega
  | succ fuel ih =>
    cases frames with
    | nil => exact ⟨st, rfl, h, fun _ hx => hx⟩
    | cons f frames =>
      obtain ⟨node, successors⟩ := f
      rw [List.length_cons] at hfuel
      obtain ⟨hindices, hnext⟩ := invariant_unvisitedSuccessor successors h
      rw [strongconnectLoop]
      rcases hsearch : unvisitedSuccessor node successors st with ⟨found, st₁⟩
      rw [hsearch] at hindices hnext
      dsimp only at hindices hnext
      have hsame : unvisited g st₁ = unvisited g st := by rw [unvisited, hindices, unvisited]
      cases found with
      | none =>
        have hleft := invariant_leave hnext
        have hcount : unvisited g (leave g key node frames st₁) = unvisited g st := by
          rw [unvisited, indices_leave, ← unvisited, hsame]
        obtain ⟨st', hrun, hend, hkeep⟩ := ih hleft (by rw [hcount]; omega)
        refine ⟨st', hrun, hend, fun x hx => hkeep x ?_⟩
        rw [indices_leave, hindices]
        exact hx
      | some found =>
        obtain ⟨y, rest⟩ := found
        obtain ⟨hnew, hinv⟩ := hnext
        rw [← hindices] at hnew
        have hlt := length_unvisited_visit (mem_nodes_of_edge (hinv.edge List.mem_cons_self)) hnew
        rw [hsame] at hlt
        obtain ⟨st', hrun, hend, hkeep⟩ := ih (invariant_descend hinv hnew)
          (by rw [List.length_cons, List.length_cons]; omega)
        refine ⟨st', hrun, hend, fun x hx => hkeep x ?_⟩
        rw [mem_keys_visit, hindices]
        exact Or.inr hx

theorem connectUnvisited_spec (h : Invariant g key st []) {node : N} (hnode : node ∈ g.nodes) :
    ∃ st', connectUnvisited g key st node = some st' ∧ Invariant g key st' [] ∧
      node ∈ st'.indices.keys ∧ ∀ x ∈ st.indices.keys, x ∈ st'.indices.keys := by
  unfold connectUnvisited
  by_cases hvisited : node ∈ st.indices.keys
  · rw [if_pos (Dict.contains_iff.mpr hvisited)]
    exact ⟨st, rfl, h, hvisited, fun _ hx => hx⟩
  · rw [if_neg fun hc => hvisited (Dict.contains_iff.mp hc), strongconnect]
    have hempty : st.stack = [] := h.segments
    have hvisit := invariant_visit h hvisited hnode (by rw [hempty]; simp)
    have hlength : (unvisited g (st.visit node)).length ≤ g.nodes.length :=
      List.length_filter_le _ _
    obtain ⟨st', hrun, hend, hkeep⟩ := strongconnectLoop_spec (2 * g.nodes.length + 1) hvisit
      (by rw [List.length_singleton]; omega)
    refine ⟨st', hrun, hend, hkeep node ((mem_keys_visit node node).mpr (Or.inl rfl)), ?_⟩
    exact fun x hx => hkeep x ((mem_keys_visit node x).mpr (Or.inr hx))

theorem foldlM_connectUnvisited (nodes : List N) (hnodes : ∀ x ∈ nodes, x ∈ g.nodes)
    {st : Tarjan N} (h : Invariant g key st []) :
    ∃ st', nodes.foldlM (connectUnvisited g key) st = some st' ∧ Invariant g key st' [] ∧
      (∀ x ∈ nodes, x ∈ st'.indices.keys) ∧ ∀ x ∈ st.indices.keys, x ∈ st'.indices.keys := by
  induction nodes generalizing st with
  | nil => exact ⟨st, rfl, h, by simp, fun _ hx => hx⟩
  | cons node rest ih =>
    obtain ⟨st₁, hstep, hinv, hnode, hkeep⟩ := connectUnvisited_spec h
      (hnodes node List.mem_cons_self)
    obtain ⟨st', hrest, hend, hall, hkeep'⟩ := ih
      (fun x hx => hnodes x (List.mem_cons_of_mem _ hx)) hinv
    refine ⟨st', ?_, hend, ?_, fun x hx => hkeep' x (hkeep x hx)⟩
    · rw [List.foldlM_cons, hstep]
      exact hrest
    · intro x hx
      rcases List.mem_cons.mp hx with rfl | hx
      · exact hkeep' x hnode
      · exact hall x hx

/-! ## The result -/

theorem cycle_iff (x : N) :
    TransGen (Edge g.adjacency) x x ↔
      (∃ y, y ≠ x ∧ Reach g x y ∧ Reach g y x) ∨ Edge g.adjacency x x := by
  constructor
  · intro hcycle
    obtain ⟨y, hedge, hback⟩ := TransGen.head'_iff.mp hcycle
    by_cases hyx : y = x
    · rw [hyx] at hedge
      exact Or.inr hedge
    · exact Or.inl ⟨y, hyx, ReflTransGen.single hedge, hback⟩
  · rintro (⟨y, hyx, hto, hback⟩ | hloop)
    · rcases ReflTransGen.cases_head hto with heq | ⟨z, hedge, hzy⟩
      · exact absurd heq.symm hyx
      · exact TransGen.head' hedge (ReflTransGen.trans hzy hback)
    · exact TransGen.single hloop

/-- `cyclic_components` ends on every directed graph.  It returns strongly connected
components with more than one member or a loop, each once and all of them, and it
returns none exactly when the graph has no cycle. -/
theorem cyclicComponents_exact (g : DirectedGraph N) (key : N → K) :
    ∃ components, cyclicComponents g key = some components ∧
      (∀ c ∈ components, IsCyclicComponent g key c) ∧
      components.Pairwise List.Disjoint ∧
      (∀ x ∈ g.nodes, (∃ y, y ≠ x ∧ Reach g x y ∧ Reach g y x) ∨ Edge g.adjacency x x →
        ∃ c ∈ components, x ∈ c) ∧
      (components ≠ [] ↔ hasCycle g.adjacency = true) := by
  obtain ⟨st, hrun, hend, hall, -⟩ := foldlM_connectUnvisited (sortBy key g.nodes)
    (fun x hx => (sortBy_perm key g.nodes).mem_iff.mp hx)
    (invariant_start : Invariant g key (Tarjan.start : Tarjan N) [])
  have hempty : st.stack = [] := hend.segments
  have hvisited : ∀ x ∈ g.nodes, x ∈ st.indices.keys := fun x hx =>
    hall x ((sortBy_perm key g.nodes).mem_iff.mpr hx)
  have hperm : (sortBy (fun c : List N => c.map key) st.components).Perm st.components :=
    sortBy_perm _ _
  have hcomplete : ∀ x ∈ g.nodes, TransGen (Edge g.adjacency) x x →
      ∃ c ∈ sortBy (fun c : List N => c.map key) st.components, x ∈ c := by
    intro x hx hcycle
    obtain ⟨c, hc, hxc⟩ := hend.recorded.complete x (hvisited x hx) (by simp [hempty]) hcycle
    exact ⟨c, hperm.mem_iff.mpr hc, hxc⟩
  refine ⟨sortBy (fun c : List N => c.map key) st.components, ?_, ?_, ?_, ?_, ?_⟩
  · rw [cyclicComponents, hrun]
    rfl
  · intro c hc
    exact hend.recorded.exact c (hperm.mem_iff.mp hc)
  · exact hperm.symm.pairwise hend.recorded.disjoint fun h x hx hy => h hy hx
  · intro x hx hcyclic
    exact hcomplete x hx ((cycle_iff x).mpr hcyclic)
  · rw [hasCycle_iff]
    constructor
    · intro hne
      obtain ⟨c, hc⟩ := List.exists_mem_of_ne_nil _ hne
      have hcomponent := hend.recorded.exact c (hperm.mem_iff.mp hc)
      obtain ⟨x, hx, hmembers⟩ := hcomponent.component
      rcases hcomponent.cyclic with hlength | ⟨y, hy, hloop⟩
      · -- A second member is on a cycle with the first.
        obtain ⟨a, b, rest, rfl⟩ : ∃ a b rest, c = a :: b :: rest := by
          cases c with
          | nil => simp at hlength
          | cons a c =>
            cases c with
            | nil => simp at hlength
            | cons b rest => exact ⟨a, b, rest, rfl⟩
        have hab : a ≠ b := by
          intro heq
          have hnodup := hcomponent.nodup
          rw [heq] at hnodup
          exact (List.nodup_cons.mp hnodup).1 List.mem_cons_self
        have ha := (hmembers a).mp List.mem_cons_self
        have hb := (hmembers b).mp (List.mem_cons_of_mem _ List.mem_cons_self)
        exact ⟨a, (cycle_iff a).mpr (Or.inl ⟨b, hab.symm,
          ReflTransGen.trans ha.2 hb.1, ReflTransGen.trans hb.2 ha.1⟩)⟩
      · exact ⟨y, TransGen.single hloop⟩
    · rintro ⟨x, hcycle⟩ hnil
      obtain ⟨y, hedge, -⟩ := TransGen.head'_iff.mp hcycle
      have hx : x ∈ g.nodes := by
        obtain ⟨adjacent, hadjacent, -⟩ := hedge
        exact Dict.mem_keys_iff.mpr ⟨adjacent, hadjacent⟩
      obtain ⟨c, hc, -⟩ := hcomplete x hx hcycle
      rw [hnil] at hc
      cases hc

end Raes.Graph
