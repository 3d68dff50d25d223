import Mathlib.Data.List.Dedup
import Mathlib.Data.List.Sort

/-!
# Sorting by a key

A list whose keys are distinct has one order by key, which does not depend on the
order that the list had.
-/

namespace Raes

variable {α κ : Type} [LinearOrder κ] {key : α → κ}

def sortBy (key : α → κ) (l : List α) : List α := l.insertionSort fun a b => key a ≤ key b

theorem sortBy_perm (key : α → κ) (l : List α) : (sortBy key l).Perm l :=
  List.perm_insertionSort _ _

theorem sortBy_pairwise (key : α → κ) (l : List α) :
    (sortBy key l).Pairwise fun a b => key a ≤ key b := by
  have htotal : Std.Total fun a b : α => key a ≤ key b := ⟨fun a b => le_total (key a) (key b)⟩
  have htrans : IsTrans α fun a b => key a ≤ key b := ⟨fun _ _ _ hab hbc => le_trans hab hbc⟩
  exact List.pairwise_insertionSort _ _

omit [LinearOrder κ] in
theorem eq_of_key_eq {l : List α} (h : (l.map key).Nodup) {a b : α} (ha : a ∈ l) (hb : b ∈ l)
    (hkey : key a = key b) : a = b :=
  List.inj_on_of_nodup_map h ha hb hkey

omit [LinearOrder κ] in
theorem find?_key_eq_some_iff [DecidableEq κ] {l : List α} (h : (l.map key).Nodup) (k : κ)
    (a : α) : (l.find? fun x => key x == k) = some a ↔ a ∈ l ∧ key a = k := by
  constructor
  · intro hfound
    exact ⟨List.mem_of_find?_eq_some hfound, by simpa using List.find?_some hfound⟩
  · rintro ⟨hmem, rfl⟩
    cases hfound : l.find? fun x => key x == key a with
    | none => simpa using List.find?_eq_none.mp hfound a hmem
    | some b =>
      have hb := List.mem_of_find?_eq_some hfound
      have hsame : key b = key a := by simpa using List.find?_some hfound
      rw [eq_of_key_eq h hb hmem hsame]

variable {l m : List α}

omit [LinearOrder κ] in
theorem find?_key_of_perm [DecidableEq κ] (hperm : l.Perm m) (h : (l.map key).Nodup) (k : κ) :
    (l.find? fun x => key x == k) = m.find? fun x => key x == k := by
  apply Option.ext
  intro a
  rw [find?_key_eq_some_iff h, find?_key_eq_some_iff ((hperm.map key).nodup_iff.mp h),
    hperm.mem_iff]

theorem eq_of_perm_of_pairwise_le (hperm : l.Perm m) (hnodup : (l.map key).Nodup)
    (hl : l.Pairwise fun a b => key a ≤ key b) (hm : m.Pairwise fun a b => key a ≤ key b) :
    l = m := by
  apply hperm.eq_of_pairwise _ hl hm
  intro a b ha hb hab hba
  exact eq_of_key_eq hnodup ha (hperm.mem_iff.mpr hb) (le_antisymm hab hba)

theorem sortBy_eq_of_perm (hperm : l.Perm m) (hnodup : (l.map key).Nodup) :
    sortBy key l = sortBy key m := by
  have hsorted : (sortBy key l).Perm (sortBy key m) :=
    (sortBy_perm key l).trans (hperm.trans (sortBy_perm key m).symm)
  apply eq_of_perm_of_pairwise_le hsorted _ (sortBy_pairwise key l) (sortBy_pairwise key m)
  exact ((sortBy_perm key l).map key).nodup_iff.mpr hnodup

/-- The order of a list whose members are told apart by their keys, repeated members included. -/
theorem sortBy_eq_of_perm_of_injOn (hperm : l.Perm m)
    (hinj : ∀ a ∈ l, ∀ b ∈ l, key a = key b → a = b) : sortBy key l = sortBy key m := by
  have hsorted : (sortBy key l).Perm (sortBy key m) :=
    (sortBy_perm key l).trans (hperm.trans (sortBy_perm key m).symm)
  apply hsorted.eq_of_pairwise _ (sortBy_pairwise key l) (sortBy_pairwise key m)
  intro a b ha hb hab hba
  refine hinj a ((sortBy_perm key l).mem_iff.mp ha) b ?_ (le_antisymm hab hba)
  exact hperm.mem_iff.mpr ((sortBy_perm key m).mem_iff.mp hb)

theorem sortBy_map {β : Type} (f : β → α) (l : List β) :
    sortBy key (l.map f) = (sortBy (fun b => key (f b)) l).map f := by
  unfold sortBy
  exact (List.map_insertionSort (fun a b => key (f a) ≤ key (f b))
    (fun a b => key a ≤ key b) f l fun _ _ _ _ => Iff.rfl).symm

omit [LinearOrder κ] in
theorem flatMap_filter_perm [DecidableEq κ] {keys : List κ} (hnodup : keys.Nodup) {l : List α}
    (h : ∀ a ∈ l, key a ∈ keys) : (keys.flatMap fun k => l.filter fun a => key a = k).Perm l := by
  induction keys generalizing l with
  | nil =>
    have hnil : l = [] := List.eq_nil_iff_forall_not_mem.mpr fun a ha => nomatch h a ha
    rw [hnil]
    exact List.Perm.refl _
  | cons k rest ih =>
    rw [List.nodup_cons] at hnodup
    have hrest : ∀ a ∈ l.filter fun a => !decide (key a = k), key a ∈ rest := by
      intro a ha
      obtain ⟨ha, hk⟩ := List.mem_filter.mp ha
      have hne : key a ≠ k := by simpa using hk
      exact (List.mem_cons.mp (h a ha)).resolve_left hne
    have hgroups : (rest.flatMap fun k' => l.filter fun a => key a = k') =
        rest.flatMap fun k' => (l.filter fun a => !decide (key a = k)).filter fun a =>
          key a = k' := by
      apply List.flatMap_congr
      intro k' hk'
      have hne : k' ≠ k := fun heq => hnodup.1 (heq ▸ hk')
      rw [List.filter_filter]
      apply List.filter_congr
      intro a _
      by_cases hkey : key a = k'
      · simp [hkey, hne]
      · simp [hkey]
    rw [List.flatMap_cons, hgroups]
    exact ((ih hnodup.2 hrest).append_left _).trans
      (List.filter_append_perm (fun a => decide (key a = k)) l)

end Raes

/-!
# Sorted sets

The sorted list of the members of a list, each once.  A list that is its own
sorted set is strictly increasing, and the other way around.
-/

namespace Raes

variable {α : Type} [LinearOrder α]

def sortedSet (l : List α) : List α := l.dedup.insertionSort (· ≤ ·)

@[simp] theorem mem_sortedSet {l : List α} {x : α} : x ∈ sortedSet l ↔ x ∈ l := by
  rw [sortedSet, List.mem_insertionSort, List.mem_dedup]

theorem sortedSet_nodup (l : List α) : (sortedSet l).Nodup :=
  (List.perm_insertionSort _ _).nodup_iff.mpr l.nodup_dedup

theorem sortedSet_pairwise (l : List α) : (sortedSet l).Pairwise (· < ·) := by
  have hle : (sortedSet l).Pairwise (· ≤ ·) := List.pairwise_insertionSort _ _
  exact (hle.and (sortedSet_nodup l)).imp fun h => lt_of_le_of_ne h.1 h.2

theorem eq_of_pairwise_lt {l m : List α} (hl : l.Pairwise (· < ·)) (hm : m.Pairwise (· < ·))
    (h : ∀ x, x ∈ l ↔ x ∈ m) : l = m := by
  have hperm : l.Perm m := (List.perm_ext_iff_of_nodup (hl.imp fun h => ne_of_lt h)
    (hm.imp fun h => ne_of_lt h)).mpr h
  exact hperm.eq_of_pairwise (fun a b _ _ hab hba => absurd hab (lt_asymm hba)) hl hm

end Raes

/-!
# The first greatest member

`max(members, key=...)`: the first of the members with the greatest key.
-/

namespace Raes

variable {α : Type} {key : α → ℕ}

def maxBy (key : α → ℕ) : List α → Option α
  | [] => none
  | a :: rest => some (rest.foldl (fun best next => if key best < key next then next else best) a)

theorem foldl_maxBy (key : α → ℕ) (l : List α) (a : α) :
    let best := l.foldl (fun best next => if key best < key next then next else best) a
    best ∈ a :: l ∧ ∀ b ∈ a :: l, key b ≤ key best := by
  induction l generalizing a with
  | nil => simp
  | cons next rest ih =>
    rw [List.foldl_cons]
    by_cases hlt : key a < key next
    · rw [if_pos hlt]
      obtain ⟨hmem, hmax⟩ := ih next
      refine ⟨List.mem_cons_of_mem _ hmem, ?_⟩
      rw [List.forall_mem_cons]
      exact ⟨Nat.le_trans (Nat.le_of_lt hlt) (hmax next List.mem_cons_self), hmax⟩
    · rw [if_neg hlt]
      obtain ⟨hmem, hmax⟩ := ih a
      refine ⟨?_, ?_⟩
      · rcases List.mem_cons.mp hmem with hmem | hmem
        · exact List.mem_cons.mpr (Or.inl hmem)
        · exact List.mem_cons_of_mem _ (List.mem_cons_of_mem _ hmem)
      · rw [List.forall_mem_cons] at hmax ⊢
        refine ⟨hmax.1, ?_⟩
        rw [List.forall_mem_cons]
        exact ⟨Nat.le_trans (Nat.le_of_not_lt hlt) hmax.1, hmax.2⟩

/-- A candidate that no other exceeds stays the best. -/
theorem foldl_maxBy_eq {l : List α} {a : α} (h : ∀ b ∈ l, key b ≤ key a) :
    l.foldl (fun best next => if key best < key next then next else best) a = a := by
  induction l with
  | nil => rfl
  | cons next rest ih =>
    rw [List.forall_mem_cons] at h
    rw [List.foldl_cons, if_neg (Nat.not_lt.mpr h.1)]
    exact ih h.2

theorem maxBy_eq_none_iff {l : List α} : maxBy key l = none ↔ l = [] := by
  cases l with
  | nil => exact iff_of_true rfl rfl
  | cons a rest => exact iff_of_false (fun h => nomatch h) (fun h => nomatch h)

theorem maxBy_spec {l : List α} {a : α} (h : maxBy key l = some a) :
    a ∈ l ∧ ∀ b ∈ l, key b ≤ key a := by
  cases l with
  | nil => cases h
  | cons first rest =>
    rw [← Option.some.inj h]
    exact foldl_maxBy key rest first

end Raes
