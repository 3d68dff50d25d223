import Mathlib.Algebra.BigOperators.Group.List.Basic
import Raes.Errors

/-!
# Computations that charge a budget

A computation reads what is used of a budget so far and answers with what is used
after it.  It charges an amount when, from within the limit, it answers exactly
if the amount still fits and a condition of its own holds.
-/

namespace Raes

variable {ε α : Type}

def Charges (limit : ℕ) (m : ℕ → Except ε ℕ) (work : ℕ) (ok : Prop) : Prop :=
  ∀ used, used ≤ limit → ∀ after, m used = .ok after ↔
    used + work ≤ limit ∧ ok ∧ after = used + work

section Charges

variable {limit work work' : ℕ} {m n : ℕ → Except ε ℕ} {ok ok' : Prop}

theorem charges_pure : Charges limit (fun used => (pure used : Except ε ℕ)) 0 True := by
  intro used hused after
  constructor
  · intro h
    exact ⟨hused, trivial, (Except.ok.inj h).symm⟩
  · rintro ⟨-, -, rfl⟩
    rfl

theorem Charges.bind (hm : Charges limit m work ok) (hn : Charges limit n work' ok') :
    Charges limit (fun used => m used >>= n) (work + work') (ok ∧ ok') := by
  intro used hused after
  rw [bind_eq_ok_iff]
  constructor
  · rintro ⟨between, hbetween, hafter⟩
    obtain ⟨hfits, hok, rfl⟩ := (hm used hused between).mp hbetween
    obtain ⟨hfits', hok', rfl⟩ := (hn _ hfits after).mp hafter
    exact ⟨by omega, ⟨hok, hok'⟩, by omega⟩
  · rintro ⟨hfits, ⟨hok, hok'⟩, rfl⟩
    have hfirst : used + work ≤ limit := by omega
    refine ⟨used + work, (hm used hused _).mpr ⟨hfirst, hok, rfl⟩, ?_⟩
    exact (hn _ hfirst _).mpr ⟨by omega, hok', by omega⟩

theorem charges_check (check : Except ε Unit) :
    Charges limit (fun used => do check; return used) 0 (check = .ok ()) := by
  intro used hused after
  show (check >>= fun _ => pure used) = .ok after ↔ _
  rw [bind_eq_ok_iff]
  constructor
  · rintro ⟨⟨⟩, hcheck, h⟩
    exact ⟨hused, hcheck, (Except.ok.inj h).symm⟩
  · rintro ⟨-, hcheck, rfl⟩
    exact ⟨(), hcheck, rfl⟩

theorem Charges.check (hn : Charges limit n work ok) (check : Except ε Unit) :
    Charges limit (fun used => check >>= fun _ => n used) work (check = .ok () ∧ ok) := by
  intro used hused after
  rw [bind_eq_ok_iff]
  constructor
  · rintro ⟨⟨⟩, hcheck, hafter⟩
    obtain ⟨hfits, hok, rfl⟩ := (hn used hused after).mp hafter
    exact ⟨hfits, ⟨hcheck, hok⟩, rfl⟩
  · rintro ⟨hfits, ⟨hcheck, hok⟩, rfl⟩
    exact ⟨(), hcheck, (hn used hused _).mpr ⟨hfits, hok, rfl⟩⟩

theorem Charges.congr (h : Charges limit m work ok) (hwork : work = work') (hok : ok ↔ ok') :
    Charges limit m work' ok' := by
  subst hwork
  intro used hused after
  rw [h used hused after, hok]

/-- A loop charges the sum of what its rounds charge. -/
theorem charges_foldlM {f : α → ℕ → Except ε ℕ} {cost : α → ℕ} {holds : α → Prop} {l : List α}
    (h : ∀ a ∈ l, Charges limit (f a) (cost a) (holds a)) :
    Charges limit (fun used => l.foldlM (fun used a => f a used) used) (l.map cost).sum
      (∀ a ∈ l, holds a) := by
  induction l with
  | nil => exact charges_pure.congr rfl (by simp)
  | cons a rest ih =>
    rw [List.forall_mem_cons] at h
    have hsum : cost a + (rest.map cost).sum = ((a :: rest).map cost).sum := by
      rw [List.map_cons, List.sum_cons]
    have hcons := ((h.1.bind (ih h.2)).congr hsum List.forall_mem_cons.symm)
    intro used hused after
    show (a :: rest).foldlM (fun used a => f a used) used = .ok after ↔ _
    rw [List.foldlM_cons]
    exact hcons used hused after

end Charges

end Raes
