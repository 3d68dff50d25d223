import Mathlib.Data.List.Nodup
import Mathlib.Data.List.Perm.Subperm
import Mathlib.Order.Bounds.Basic

/-!
# Worklist saturation

A worklist takes items from the front of a queue, looks at the successors of
each item, and appends the successors it has not seen before.  The items seen
at the end are exactly those the start reaches along successor steps.

The queue loop carries a fuel argument.  `run_queue_nil` states how much fuel
empties the queue: one unit for each item that can still enter it.
-/

namespace Raes.Worklist

variable {α : Type} [DecidableEq α]

/-- Append to the queue and to the seen items those of a list that are new. -/
def visit (seen queue : List α) : List α → List α × List α
  | [] => (seen, queue)
  | x :: rest =>
    if x ∈ seen then visit seen queue rest else visit (seen ++ [x]) (queue ++ [x]) rest

/-- Serve the queue until it is empty or the fuel is spent. -/
def run (next : α → List α) : Nat → List α → List α → List α × List α
  | 0, queue, seen => (queue, seen)
  | _ + 1, [], seen => ([], seen)
  | fuel + 1, x :: rest, seen =>
    let (seen', queue') := visit seen rest (next x)
    run next fuel queue' seen'

/-! ## Reachable sets -/

/-- The items that a set of starts reaches along a relation. -/
def reachable {β : Type} (r : β → β → Prop) (S : Set β) : Set β :=
  {y | ∃ x ∈ S, Relation.ReflTransGen r x y}

theorem isLeast_reachable {β : Type} (r : β → β → Prop) (S : Set β) :
    IsLeast {T : Set β | S ⊆ T ∧ ∀ x ∈ T, ∀ y, r x y → y ∈ T} (reachable r S) := by
  refine ⟨⟨?_, ?_⟩, ?_⟩
  · intro x hx
    exact ⟨x, hx, Relation.ReflTransGen.refl⟩
  · intro y hy z hyz
    obtain ⟨x, hx, hxy⟩ := hy
    exact ⟨x, hx, hxy.tail hyz⟩
  · intro T hT y hy
    obtain ⟨hS, hclosed⟩ := hT
    obtain ⟨x, hx, hxy⟩ := hy
    induction hxy with
    | refl => exact hS hx
    | tail _ hstep ih => exact hclosed _ ih _ hstep

/-! ## One visit -/

variable (seen queue xs : List α)

theorem mem_visit_seen (y : α) : y ∈ (visit seen queue xs).1 ↔ y ∈ seen ∨ y ∈ xs := by
  induction xs generalizing seen queue with
  | nil => simp [visit]
  | cons x rest ih =>
    rw [visit]
    split
    · rename_i hx
      rw [ih, List.mem_cons]
      constructor
      · rintro (h | h)
        · exact Or.inl h
        · exact Or.inr (Or.inr h)
      · rintro (h | rfl | h)
        · exact Or.inl h
        · exact Or.inl hx
        · exact Or.inr h
    · rw [ih, List.mem_append, List.mem_singleton, List.mem_cons, or_assoc]

theorem mem_visit_queue (y : α) :
    y ∈ (visit seen queue xs).2 ↔ y ∈ queue ∨ (y ∈ xs ∧ y ∉ seen) := by
  induction xs generalizing seen queue with
  | nil => simp [visit]
  | cons x rest ih =>
    rw [visit]
    split
    · rename_i hx
      rw [ih, List.mem_cons]
      constructor
      · rintro (h | ⟨h, hs⟩)
        · exact Or.inl h
        · exact Or.inr ⟨Or.inr h, hs⟩
      · rintro (h | ⟨rfl | h, hs⟩)
        · exact Or.inl h
        · exact absurd hx hs
        · exact Or.inr ⟨h, hs⟩
    · rename_i hx
      rw [ih]
      simp only [List.mem_append, List.mem_cons, List.not_mem_nil, or_false, not_or]
      constructor
      · rintro ((h | rfl) | ⟨h, hs, _⟩)
        · exact Or.inl h
        · exact Or.inr ⟨Or.inl rfl, hx⟩
        · exact Or.inr ⟨Or.inr h, hs⟩
      · rintro (h | ⟨rfl | h, hs⟩)
        · exact Or.inl (Or.inl h)
        · exact Or.inl (Or.inr rfl)
        · by_cases hyx : y = x
          · exact Or.inl (Or.inr hyx)
          · exact Or.inr ⟨h, hs, hyx⟩

theorem visit_nodup {seen : List α} (queue xs : List α) (h : seen.Nodup) :
    (visit seen queue xs).1.Nodup := by
  induction xs generalizing seen queue with
  | nil => exact h
  | cons x rest ih =>
    rw [visit]
    split
    · exact ih queue h
    · rename_i hx
      exact ih _ (h.append (List.nodup_singleton x) (List.disjoint_singleton.mpr hx))

theorem visit_length : (visit seen queue xs).2.length + seen.length =
      queue.length + (visit seen queue xs).1.length := by
  induction xs generalizing seen queue with
  | nil => simp [visit]
  | cons x rest ih =>
    rw [visit]
    split
    · exact ih seen queue
    · have h := ih (seen ++ [x]) (queue ++ [x])
      simp only [List.length_append, List.length_singleton] at h
      omega

/-! ## The queue loop -/

variable (next : α → List α)

def Step (x y : α) : Prop := y ∈ next x

theorem mem_seen_run (fuel : Nat) (queue seen : List α) (y : α) (h : y ∈ seen) :
    y ∈ (run next fuel queue seen).2 := by
  induction fuel generalizing queue seen with
  | zero => exact h
  | succ fuel ih =>
    cases queue with
    | nil => exact h
    | cons x rest => exact ih _ _ ((mem_visit_seen seen rest (next x) y).mpr (Or.inl h))

theorem run_sound (P : α → Prop) (hstep : ∀ x y, P x → y ∈ next x → P y)
    (fuel : Nat) (queue seen : List α) (hq : ∀ x ∈ queue, P x) (hs : ∀ x ∈ seen, P x) :
    ∀ y ∈ (run next fuel queue seen).2, P y := by
  induction fuel generalizing queue seen with
  | zero => exact hs
  | succ fuel ih =>
    cases queue with
    | nil => exact hs
    | cons x rest =>
      have hx : P x := hq x List.mem_cons_self
      apply ih
      · intro y hy
        rcases (mem_visit_queue seen rest (next x) y).mp hy with h | ⟨h, _⟩
        · exact hq y (List.mem_cons_of_mem _ h)
        · exact hstep x y hx h
      · intro y hy
        rcases (mem_visit_seen seen rest (next x) y).mp hy with h | h
        · exact hs y h
        · exact hstep x y hx h

theorem run_closed (fuel : Nat) (queue seen : List α)
    (h : ∀ x ∈ seen, x ∈ queue ∨ ∀ y ∈ next x, y ∈ seen) :
    ∀ x ∈ (run next fuel queue seen).2,
      x ∈ (run next fuel queue seen).1 ∨ ∀ y ∈ next x, y ∈ (run next fuel queue seen).2 := by
  induction fuel generalizing queue seen with
  | zero => exact h
  | succ fuel ih =>
    cases queue with
    | nil => exact h
    | cons x rest =>
      apply ih
      intro z hz
      have hmono : ∀ y ∈ seen, y ∈ (visit seen rest (next x)).1 := fun y hy =>
        (mem_visit_seen seen rest (next x) y).mpr (Or.inl hy)
      rcases (mem_visit_seen seen rest (next x) z).mp hz with hs | hn
      · rcases h z hs with hq | hsucc
        · rcases List.mem_cons.mp hq with rfl | hrest
          · exact Or.inr fun y hy => (mem_visit_seen seen rest (next z) y).mpr (Or.inr hy)
          · exact Or.inl ((mem_visit_queue seen rest (next x) z).mpr (Or.inl hrest))
        · exact Or.inr fun y hy => hmono y (hsucc y hy)
      · by_cases hzs : z ∈ seen
        · rcases h z hzs with hq | hsucc
          · rcases List.mem_cons.mp hq with rfl | hrest
            · exact Or.inr fun y hy => (mem_visit_seen seen rest (next z) y).mpr (Or.inr hy)
            · exact Or.inl ((mem_visit_queue seen rest (next x) z).mpr (Or.inl hrest))
          · exact Or.inr fun y hy => hmono y (hsucc y hy)
        · exact Or.inl ((mem_visit_queue seen rest (next x) z).mpr (Or.inr ⟨hn, hzs⟩))

/-- The queue is empty after one round for each item of a bounding list that is
waiting or not yet seen. -/
theorem run_queue_nil (U : List α) (hU : ∀ x, ∀ y ∈ next x, y ∈ U)
    (fuel : Nat) (queue seen : List α) (hs : ∀ x ∈ seen, x ∈ U) (hnd : seen.Nodup)
    (hfuel : queue.length + U.length ≤ fuel + seen.length) :
    (run next fuel queue seen).1 = [] := by
  induction fuel generalizing queue seen with
  | zero =>
    have hle : seen.length ≤ U.length :=
      (List.subperm_of_subset hnd fun x hx => hs x hx).length_le
    have hq : queue.length = 0 := by omega
    exact List.length_eq_zero_iff.mp hq
  | succ fuel ih =>
    cases queue with
    | nil => rfl
    | cons x rest =>
      apply ih
      · intro y hy
        rcases (mem_visit_seen seen rest (next x) y).mp hy with h | h
        · exact hs y h
        · exact hU x y h
      · exact visit_nodup rest (next x) hnd
      · have hlen := visit_length seen rest (next x)
        simp only [List.length_cons] at hfuel
        omega

/-- With enough fuel the worklist sees exactly what the start reaches. -/
theorem mem_run_iff (U : List α) (hU : ∀ x, ∀ y ∈ next x, y ∈ U)
    (start : List α) (hnd : start.Nodup) (hs : ∀ x ∈ start, x ∈ U)
    (fuel : Nat) (hfuel : U.length ≤ fuel) (y : α) :
    y ∈ (run next fuel start start).2 ↔ y ∈ reachable (Step next) {x | x ∈ start} := by
  have hleast := isLeast_reachable (Step next) {x | x ∈ start}
  constructor
  · intro hy
    refine run_sound next (fun z => z ∈ reachable (Step next) {x | x ∈ start})
      ?_ fuel start start ?_ ?_ y hy
    · exact fun x z hx hz => hleast.1.2 x hx z hz
    · exact fun x hx => hleast.1.1 hx
    · exact fun x hx => hleast.1.1 hx
  · intro hy
    have hnil : (run next fuel start start).1 = [] :=
      run_queue_nil next U hU fuel start start hs hnd (by omega)
    have hclosed := run_closed next fuel start start (fun z hz => Or.inl hz)
    have hseen : {z | z ∈ (run next fuel start start).2} ∈
        {T : Set α | {x | x ∈ start} ⊆ T ∧ ∀ x ∈ T, ∀ y, Step next x y → y ∈ T} := by
      refine ⟨fun x hx => mem_seen_run next fuel start start x hx, ?_⟩
      intro x hx z hz
      rcases hclosed x hx with hq | hsucc
      · rw [hnil] at hq
        exact absurd hq List.not_mem_nil
      · exact hsucc z hz
    exact hleast.2 hseen hy

end Raes.Worklist

/-!
# Breadth-first search

A breadth-first search keeps the nodes it has seen and a queue of the seen nodes
whose edges it has not followed.  `Frontier` is its invariant.  The queue holds
nodes of one level and behind them nodes of the next level, and an edge out of a
seen node leads to a seen node unless the node still waits or the edge is owed.

The invariant speaks about distances from the start and about no table of the
search.  A search that stops early, that follows some of the edges of a node, or
that leaves the nodes beyond a depth unexpanded keeps it, with the edges that it
has not followed owed.
-/

namespace Raes.BreadthFirst

variable {α : Type} {Step : α → α → Prop} {Start : α → Prop}

/-! ## Distances -/

inductive Reaches (Step : α → α → Prop) (Start : α → Prop) : ℕ → α → Prop
  | start {x : α} (h : Start x) : Reaches Step Start 0 x
  | step {n : ℕ} {x y : α} (h : Reaches Step Start n x) (hxy : Step x y) :
      Reaches Step Start (n + 1) y

def Distance (Step : α → α → Prop) (Start : α → Prop) (n : ℕ) (x : α) : Prop :=
  Reaches Step Start n x ∧ ∀ m, Reaches Step Start m x → n ≤ m

theorem Distance.unique {m n : ℕ} {x : α} (hm : Distance Step Start m x)
    (hn : Distance Step Start n x) : m = n :=
  Nat.le_antisymm (hm.2 n hn.1) (hn.2 m hm.1)

theorem Distance.pred {n : ℕ} {y : α} (h : Distance Step Start (n + 1) y) :
    ∃ x, Distance Step Start n x ∧ Step x y := by
  obtain ⟨hy, hmin⟩ := h
  cases hy with
  | step hx hxy =>
    refine ⟨_, ⟨hx, ?_⟩, hxy⟩
    intro m hm
    have := hmin (m + 1) (hm.step hxy)
    omega

theorem Distance.exists_nodup {n : ℕ} {x : α} (h : Distance Step Start n x) :
    ∃ l : List α, l.length = n + 1 ∧ l.Nodup ∧ ∀ z ∈ l, ∃ m ≤ n, Distance Step Start m z := by
  induction n generalizing x with
  | zero =>
    refine ⟨[x], rfl, List.nodup_singleton x, ?_⟩
    intro z hz
    rw [List.mem_singleton.mp hz]
    exact ⟨0, Nat.le_refl 0, h⟩
  | succ n ih =>
    obtain ⟨w, hw, _⟩ := h.pred
    obtain ⟨l, hlen, hnd, hl⟩ := ih hw
    have hx : x ∉ l := by
      intro hmem
      obtain ⟨m, hm, hdist⟩ := hl x hmem
      have := hdist.unique h
      omega
    refine ⟨x :: l, by rw [List.length_cons, hlen], List.nodup_cons.mpr ⟨hx, hnd⟩, ?_⟩
    intro z hz
    rcases List.mem_cons.mp hz with rfl | hz
    · exact ⟨n + 1, Nat.le_refl _, h⟩
    · obtain ⟨m, hm, hdist⟩ := hl z hz
      exact ⟨m, by omega, hdist⟩

theorem Distance.lt_length {n : ℕ} {x : α} (h : Distance Step Start n x) {l : List α}
    (hl : ∀ z m, Reaches Step Start m z → z ∈ l) : n < l.length := by
  obtain ⟨chain, hlen, hnd, hchain⟩ := h.exists_nodup
  have hsub : chain ⊆ l := by
    intro z hz
    obtain ⟨m, _, hdist⟩ := hchain z hz
    exact hl z m hdist.1
  have := (List.subperm_of_subset hnd hsub).length_le
  omega

/-! ## The invariant -/

/-- The state of a breadth-first search.  `Owed` holds the edges that the search
has not followed out of the nodes that it has taken from the queue. -/
structure Frontier (Step : α → α → Prop) (Start : α → Prop) (Owed : α → α → Prop) (level : ℕ)
    (seen : Set α) (queue : List α) : Prop where
  start_seen : ∀ x, Start x → x ∈ seen
  queue_seen : ∀ x ∈ queue, x ∈ seen
  seen_reached : ∀ x ∈ seen, ∃ n, Distance Step Start n x
  levels : ∃ here next, queue = here ++ next ∧
    (∀ x ∈ here, Distance Step Start level x) ∧
    ∀ x ∈ next, Distance Step Start (level + 1) x
  followed : ∀ x ∈ seen, x ∉ queue → ∀ y, Step x y → y ∈ seen ∨ Owed x y

variable {Owed Owed' : α → α → Prop} {level : ℕ} {seen : Set α} {queue : List α}

theorem Frontier.level_le (h : Frontier Step Start Owed level seen queue) {x : α}
    (hx : x ∈ queue) {n : ℕ} (hn : Reaches Step Start n x) : level ≤ n := by
  obtain ⟨here, next, rfl, hhere, hnext⟩ := h.levels
  rcases List.mem_append.mp hx with hx | hx
  · exact (hhere x hx).2 n hn
  · have := (hnext x hx).2 n hn
    omega

/-- Everything within a number of steps is seen when no nearer node waits and no
nearer node owes an edge. -/
theorem Frontier.seen_of_reaches (h : Frontier Step Start Owed level seen queue) {bound : ℕ}
    (hqueue : ∀ x ∈ queue, ∀ n, Reaches Step Start n x → bound ≤ n)
    (howed : ∀ x y n, Owed x y → Reaches Step Start n x → bound ≤ n) {n : ℕ} {y : α}
    (hy : Reaches Step Start n y) (hn : n ≤ bound) : y ∈ seen := by
  induction hy with
  | start hx => exact h.start_seen _ hx
  | @step n x y hx hxy ih =>
    have hseen : x ∈ seen := ih (by omega)
    have hqueued : x ∉ queue := by
      intro hmem
      have := hqueue x hmem n hx
      omega
    rcases h.followed x hseen hqueued y hxy with hy | howe
    · exact hy
    · have := howed x y n howe hx
      omega

theorem frontier_start (hqueue : ∀ x, x ∈ queue ↔ Start x) :
    Frontier Step Start (fun _ _ => False) 0 {x | x ∈ queue} queue where
  start_seen x hx := (hqueue x).mpr hx
  queue_seen x hx := hx
  seen_reached x hx := ⟨0, Reaches.start ((hqueue x).mp hx), fun _ _ => Nat.zero_le _⟩
  levels := by
    refine ⟨queue, [], (List.append_nil queue).symm, ?_, ?_⟩
    · intro x hx
      exact ⟨Reaches.start ((hqueue x).mp hx), fun _ _ => Nat.zero_le _⟩
    · intro x hx
      exact absurd hx List.not_mem_nil
  followed x hx hqueued := absurd hx hqueued

/-- An edge stays owed only while it leads out of the seen nodes. -/
theorem Frontier.owe (h : Frontier Step Start Owed level seen queue)
    (howed : ∀ x y, Owed x y → y ∈ seen ∨ Owed' x y) :
    Frontier Step Start Owed' level seen queue where
  start_seen := h.start_seen
  queue_seen := h.queue_seen
  seen_reached := h.seen_reached
  levels := h.levels
  followed x hx hqueued y hxy := by
    rcases h.followed x hx hqueued y hxy with hy | howe
    · exact Or.inl hy
    · exact howed x y howe

theorem Frontier.pop {x : α} (h : Frontier Step Start Owed level seen (x :: queue)) :
    ∃ n, level ≤ n ∧ Distance Step Start n x ∧
      Frontier Step Start (fun u v => Owed u v ∨ u = x ∧ Step x v) n seen queue := by
  have hfollowed : ∀ u ∈ seen, u ∉ queue → ∀ v, Step u v →
      v ∈ seen ∨ Owed u v ∨ u = x ∧ Step x v := by
    intro u hu hqueued v huv
    by_cases hux : u = x
    · subst hux
      exact Or.inr (Or.inr ⟨rfl, huv⟩)
    · rcases h.followed u hu (by simp [hux, hqueued]) v huv with hv | hv
      · exact Or.inl hv
      · exact Or.inr (Or.inl hv)
  have hqueue : ∀ u ∈ queue, u ∈ seen := fun u hu => h.queue_seen u (List.mem_cons_of_mem _ hu)
  obtain ⟨here, next, hsplit, hhere, hnext⟩ := h.levels
  cases here with
  | nil =>
    have hall : ∀ u ∈ x :: queue, Distance Step Start (level + 1) u := by
      intro u hu
      rw [hsplit] at hu
      exact hnext u hu
    refine ⟨level + 1, Nat.le_succ level, hall x List.mem_cons_self, ?_⟩
    refine ⟨h.start_seen, hqueue, h.seen_reached, ⟨queue, [], by simp, ?_, ?_⟩, hfollowed⟩
    · intro u hu
      exact hall u (List.mem_cons_of_mem _ hu)
    · intro u hu
      exact absurd hu List.not_mem_nil
  | cons z here =>
    obtain ⟨rfl, rfl⟩ : x = z ∧ queue = here ++ next := by simpa using hsplit
    refine ⟨level, Nat.le_refl level, hhere x List.mem_cons_self, ?_⟩
    refine ⟨h.start_seen, hqueue, h.seen_reached, ⟨here, next, rfl, ?_, hnext⟩, hfollowed⟩
    intro u hu
    exact hhere u (List.mem_cons_of_mem _ hu)

/-- A new node at the end of an edge out of a node of the level is one step
further away, and it goes to the end of the queue. -/
theorem Frontier.discover (h : Frontier Step Start Owed level seen queue)
    (howed : ∀ u v n, Owed u v → Reaches Step Start n u → level ≤ n) {x y : α}
    (hx : Distance Step Start level x) (hxy : Step x y) (hy : y ∉ seen) :
    Distance Step Start (level + 1) y ∧
      Frontier Step Start Owed level (insert y seen) (queue ++ [y]) := by
  have hdist : Distance Step Start (level + 1) y := by
    refine ⟨hx.1.step hxy, ?_⟩
    intro m hm
    rcases Nat.lt_or_ge level m with hlt | hge
    · exact hlt
    · exact absurd (h.seen_of_reaches (fun u hu n hn => h.level_le hu hn) howed hm hge) hy
  refine ⟨hdist, ⟨?_, ?_, ?_, ?_, ?_⟩⟩
  · exact fun u hu => Set.mem_insert_of_mem y (h.start_seen u hu)
  · intro u hu
    rcases List.mem_append.mp hu with hu | hu
    · exact Set.mem_insert_of_mem y (h.queue_seen u hu)
    · rw [List.mem_singleton.mp hu]
      exact Set.mem_insert y seen
  · intro u hu
    rcases hu with rfl | hu
    · exact ⟨level + 1, hdist⟩
    · exact h.seen_reached u hu
  · obtain ⟨here, next, rfl, hhere, hnext⟩ := h.levels
    refine ⟨here, next ++ [y], List.append_assoc here next [y], hhere, ?_⟩
    intro u hu
    rcases List.mem_append.mp hu with hu | hu
    · exact hnext u hu
    · rw [List.mem_singleton.mp hu]
      exact hdist
  · intro u hu hqueued v huv
    have hne : u ≠ y := by
      rintro rfl
      exact hqueued (by simp)
    have huseen : u ∈ seen := hu.resolve_left hne
    rcases h.followed u huseen (fun hmem => hqueued (List.mem_append_left _ hmem)) v huv with hv | hv
    · exact Or.inl (Set.mem_insert_of_mem y hv)
    · exact Or.inr hv

/-- A search whose queue is empty has seen everything up to the depth at which
edges are owed. -/
theorem Frontier.complete_upto (h : Frontier Step Start Owed level seen []) (bound : ℕ)
    (howed : ∀ x y n, Owed x y → Reaches Step Start n x → bound ≤ n) {n : ℕ} {y : α}
    (hy : Reaches Step Start n y) (hn : n ≤ bound) : y ∈ seen :=
  h.seen_of_reaches (fun _ hx => absurd hx List.not_mem_nil) howed hy hn

/-- A search that owes no edge and whose queue is empty has seen exactly what
the start reaches. -/
theorem Frontier.mem_seen_iff (h : Frontier Step Start (fun _ _ => False) level seen []) (y : α) :
    y ∈ seen ↔ ∃ n, Reaches Step Start n y := by
  constructor
  · intro hy
    obtain ⟨n, hn⟩ := h.seen_reached y hy
    exact ⟨n, hn.1⟩
  · rintro ⟨n, hn⟩
    exact h.complete_upto n (fun _ _ _ howe => howe.elim) hn (Nat.le_refl n)

end Raes.BreadthFirst
