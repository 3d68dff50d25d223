import Mathlib.Algebra.BigOperators.Group.List.Basic
import Raes.Lib.Dict

/-!
# Totals over a dictionary

The sum of a quantity over the entries of a dictionary.  It depends on the
entries and not on their order, so an update changes it by the quantities of the
old and the new entry only.
-/

namespace Raes.Dict

variable {κ α : Type} [DecidableEq κ]

def total (d : Dict κ α) (f : κ → α → ℕ) : ℕ := (d.entries.map fun e => f e.1 e.2).sum

omit [DecidableEq κ] in
@[simp] theorem total_empty (f : κ → α → ℕ) : (empty : Dict κ α).total f = 0 := rfl

variable {d : Dict κ α}

theorem total_congr {f g : κ → α → ℕ}
    (h : ∀ k v, d.get? k = some v → f k v = g k v) : d.total f = d.total g := by
  have hentries : ∀ e ∈ d.entries, f e.1 e.2 = g e.1 e.2 := fun e he =>
    h e.1 e.2 (Dict.get?_eq_some_iff.mpr he)
  rw [total, List.map_congr_left hentries, total]

theorem total_eq_zero {f : κ → α → ℕ}
    (h : ∀ k v, d.get? k = some v → f k v = 0) : d.total f = 0 := by
  rw [total_congr h, total, List.sum_eq_zero]
  simp

theorem total_eq_of_get?_eq {d e : Dict κ α} (h : ∀ k, d.get? k = e.get? k) (f : κ → α → ℕ) :
    d.total f = e.total f := ((entries_perm h).map _).sum_eq

/-- A total is the quantity of one entry and the total of the other entries. -/
theorem total_eq_add_erase {k : κ} {v : α} (h : d.get? k = some v)
    (f : κ → α → ℕ) : d.total f = f k v + (d.erase k).total f := by
  have hmem : (k, v) ∈ d.entries := Dict.get?_eq_some_iff.mp h
  have hperm : d.entries.Perm ((k, v) :: (d.erase k).entries) := by
    refine (List.perm_ext_iff_of_nodup d.entries_nodup ?_).mpr ?_
    · refine List.nodup_cons.mpr ⟨?_, (d.erase k).entries_nodup⟩
      intro hin
      have hget := Dict.get?_eq_some_iff.mpr hin
      rw [get?_erase, if_pos rfl] at hget
      cases hget
    · rintro ⟨x, w⟩
      rw [List.mem_cons, ← get?_eq_some_iff, ← get?_eq_some_iff, get?_erase]
      by_cases hx : x = k
      · subst hx
        rw [h, if_pos rfl]
        simp [eq_comm]
      · simp [hx]
  rw [total, (hperm.map _).sum_eq, List.map_cons, List.sum_cons, total]

theorem le_total {k : κ} {v : α} (h : d.get? k = some v) (f : κ → α → ℕ) : f k v ≤ d.total f := by
  rw [total_eq_add_erase h]
  exact Nat.le_add_right _ _

theorem total_set (d : Dict κ α) (k : κ) (v : α) (f : κ → α → ℕ) :
    (d.set k v).total f = f k v + (d.erase k).total f := by
  rw [total_eq_add_erase (get?_set_self d k v)]
  congr 1
  refine total_eq_of_get?_eq (fun x => ?_) f
  rw [get?_erase, get?_erase, get?_set]
  split <;> rfl

theorem total_set_of_get?_some {k : κ} {u : α} (h : d.get? k = some u) (v : α)
    (f : κ → α → ℕ) : (d.set k v).total f + f k u = d.total f + f k v := by
  rw [total_set, total_eq_add_erase h]
  omega

theorem total_set_of_get?_none {k : κ} (h : d.get? k = none) (v : α)
    (f : κ → α → ℕ) : (d.set k v).total f = d.total f + f k v := by
  have herase : (d.erase k).total f = d.total f := by
    refine total_eq_of_get?_eq (fun x => ?_) f
    rw [get?_erase]
    split
    · next hx => rw [hx, h]
    · rfl
  rw [total_set, herase, Nat.add_comm]

/-- Two quantities that differ at one entry only. -/
theorem total_add_of_eq_off {k : κ} {v : α} (h : d.get? k = some v)
    {f g : κ → α → ℕ} (hoff : ∀ x w, x ≠ k → d.get? x = some w → f x w = g x w) :
    d.total f + g k v = d.total g + f k v := by
  have herase : (d.erase k).total f = (d.erase k).total g := by
    refine total_congr fun x w hx => ?_
    rw [get?_erase] at hx
    split at hx
    · cases hx
    · next hne => exact hoff x w hne hx
  rw [total_eq_add_erase h, total_eq_add_erase h, herase]
  omega

end Raes.Dict
