import Mathlib.Data.List.Forall2
import Raes.Lib.Stateful

/-!
# Verdicts of bounded computations

A bounded computation answers with outcomes, or it raises.  An outcome is good, or it
says that a bound was spent, or it is neither.  What the computation would say without
bounds is its ideal: a Boolean, or an error.

A bounded computation decides its ideal when an answer with no spent outcome tells
whether the ideal is true, and when it raises only where the ideal raises.  A bounded
computation that looks for a value may also fail, with one outcome; its ideal is then
an error that is `none`.
-/

namespace Raes

/-- Why the search for a value stopped. -/
inductive Stop (ρ ε : Type) where
  | failed (outcome : ρ)
  | raised (error : ε)
  deriving DecidableEq

/-- How the outcomes of a computation are read. -/
structure Reading (ρ : Type) where
  (good spent : ρ → Prop)

/-- A value that carries outcomes. -/
class Outcomes (ρ α : Type) where
  outcomes : α → List ρ

export Outcomes (outcomes)

instance {ρ : Type} : Outcomes ρ ρ := ⟨fun r => [r]⟩

instance {ρ : Type} : Outcomes ρ (Option ρ) := ⟨Option.toList⟩

instance {ρ α : Type} [Outcomes ρ α] : Outcomes ρ (List α) := ⟨fun l => l.flatMap outcomes⟩

instance {ρ α β : Type} [Outcomes ρ α] [Outcomes ρ β] : Outcomes ρ (α × β) :=
  ⟨fun p => outcomes p.1 ++ outcomes p.2⟩

namespace Verdict

open Stateful

section Ideals

variable {ε κ : Type}

/-- Both ideals hold.  The second is reached whatever the first says. -/
def both (p q : Except ε Bool) : Except ε Bool := do
  let a ← p
  let b ← q
  return a && b

/-- Every ideal of a list holds, and each of them is reached. -/
def every : List (Except ε Bool) → Except ε Bool
  | [] => .ok true
  | p :: rest => both p (every rest)

/-- A failed search makes an ideal false. -/
def settled (found : Except (Option ε) κ) (f : κ → Except ε Bool) : Except ε Bool :=
  match found with
  | .ok k => f k
  | .error none => .ok false
  | .error (some e) => .error e

def Answers (p : Except ε Bool) : Prop := ∃ b, p = .ok b

@[simp] theorem answers_ok (b : Bool) : Answers (.ok b : Except ε Bool) := ⟨b, rfl⟩

@[simp] theorem answers_error (e : ε) : ¬ Answers (.error e : Except ε Bool) :=
  fun h => nomatch h

@[simp] theorem answers_both (p q : Except ε Bool) :
    Answers (both p q) ↔ Answers p ∧ Answers q := by
  cases p <;> cases q <;> simp [both, Answers, bind, Except.bind, pure, Except.pure]

@[simp] theorem every_nil : every ([] : List (Except ε Bool)) = .ok true := rfl

@[simp] theorem every_cons (p : Except ε Bool) (rest : List (Except ε Bool)) :
    every (p :: rest) = both p (every rest) := rfl

theorem answers_every (l : List (Except ε Bool)) :
    Answers (every l) ↔ ∀ p ∈ l, Answers p := by
  induction l with
  | nil => simp
  | cons p rest ih => rw [every_cons, answers_both, ih, List.forall_mem_cons]

theorem answers_settled (found : Except (Option ε) κ) (f : κ → Except ε Bool) :
    Answers (settled found f) ↔
      (∀ e, found ≠ .error (some e)) ∧ ∀ k, found = .ok k → Answers (f k) := by
  rcases found with ⟨_ | e⟩ | k <;> simp [settled]

end Ideals

variable {ρ ε σ α β γ : Type} [Outcomes ρ α] [Outcomes ρ β] [Outcomes ρ γ] (R : Reading ρ)

/-- What an answer says about an ideal. -/
def Agrees (p : Except ε Bool) : Except ε α → Prop
  | .ok a => (∃ r ∈ (outcomes a : List ρ), R.spent r) ∨
      ∃ b, p = .ok b ∧ (b = true ↔ ∀ r ∈ (outcomes a : List ρ), R.good r)
  | .error _ => ¬ Answers p

/-- Whatever the state that it starts from, the computation agrees with the ideal. -/
def Decides (m : Stateful ε σ α) (p : Except ε Bool) : Prop := ∀ s, Agrees R p (exec m s).1

/-- What an answer says about the value that is looked for. -/
def Reports {δ κ : Type} (S : δ → κ → Prop) (p : Except (Option ε) κ) :
    Except (Stop ρ ε) δ → Prop
  | .ok d => ∃ k, p = .ok k ∧ S d k
  | .error (.failed r) => R.spent r ∨ ¬ R.good r ∧ p = .error none
  | .error (.raised _) => ∃ e, p = .error (some e)

/-- The computation looks for a value, up to a relation between values. -/
def Seeks {δ κ : Type} (S : δ → κ → Prop) (m : Stateful (Stop ρ ε) σ δ)
    (p : Except (Option ε) κ) : Prop := ∀ s, Reports R S p (exec m s).1

abbrev Finds {δ : Type} (m : Stateful (Stop ρ ε) σ δ) (p : Except (Option ε) δ) : Prop :=
  Seeks R Eq m p

def Total {ε δ : Type} (m : Stateful ε σ δ) : Prop := ∀ s, ∃ d, (exec m s).1 = .ok d

variable {R}

section Total

variable {ε δ κ : Type} {m : Stateful ε σ δ}

theorem total_modify (f : σ → σ) : Total (modify f : Stateful ε σ PUnit) :=
  fun _ => ⟨⟨⟩, rfl⟩

theorem total_get : Total (get : Stateful ε σ σ) := fun s => ⟨s, rfl⟩

theorem total_pure (d : δ) : Total (pure d : Stateful ε σ δ) := fun _ => ⟨d, rfl⟩

theorem Total.bind {f : δ → Stateful ε σ κ} (h : Total m) (hf : ∀ d, Total (f d)) :
    Total (m >>= f) := by
  intro s
  obtain ⟨d, hd⟩ := h s
  rw [exec_bind]
  rcases hm : exec m s with ⟨r, t⟩
  rw [hm] at hd
  cases hd
  exact hf d t

/-- What every continuation of a computation that always answers says, the whole says. -/
theorem Total.exec_bind {f : δ → Stateful ε σ κ} {P : Except ε κ → Prop} (h : Total m)
    (hf : ∀ d s, P (exec (f d) s).1) (s : σ) : P (exec (m >>= f) s).1 := by
  obtain ⟨d, hd⟩ := h s
  rw [Stateful.exec_bind]
  rcases hm : exec m s with ⟨r, t⟩
  rw [hm] at hd
  cases hd
  exact hf d t

end Total

section Decides

variable {m : Stateful ε σ α} {n : Stateful ε σ β} {p q : Except ε Bool}

theorem decides_pure {a : α} {b : Bool}
    (h : b = true ↔ ∀ r ∈ (outcomes a : List ρ), R.good r) :
    Decides R (pure a : Stateful ε σ α) (.ok b) := fun _ => Or.inr ⟨b, rfl, h⟩

theorem decides_none {a : α} (h : (outcomes a : List ρ) = []) :
    Decides R (pure a : Stateful ε σ α) (.ok true) := by
  refine decides_pure (iff_of_true rfl ?_)
  rw [h]
  exact fun _ hr => nomatch hr

theorem decides_good {a : α} {r : ρ} (h : outcomes a = [r]) (hr : R.good r) :
    Decides R (pure a : Stateful ε σ α) (.ok true) := by
  refine decides_pure (iff_of_true rfl ?_)
  rw [h]
  simpa using hr

theorem decides_bad {a : α} {r : ρ} (h : outcomes a = [r]) (hr : ¬ R.good r) :
    Decides R (pure a : Stateful ε σ α) (.ok false) := by
  refine decides_pure (iff_of_false Bool.false_ne_true ?_)
  rw [h]
  simpa using hr

theorem decides_spent {a : α} {r : ρ} (h : outcomes a = [r]) (hr : R.spent r) :
    Decides R (pure a : Stateful ε σ α) p := by
  refine fun _ => Or.inl ⟨r, ?_, hr⟩
  rw [h]
  exact List.mem_singleton_self r

theorem Total.bind_decides {δ : Type} {m : Stateful ε σ δ} {f : δ → Stateful ε σ α}
    (h : Total m) (hf : ∀ d, Decides R (f d) p) : Decides R (m >>= f) p :=
  h.exec_bind hf

/-- A pure computation that may raise, read by a function of its value. -/
theorem decides_lift {x : Except ε Bool} {f : Bool → α}
    (hf : ∀ b, b = true ↔ ∀ r ∈ (outcomes (f b) : List ρ), R.good r) :
    Decides R (do
      let b ← (liftM x : Stateful ε σ Bool)
      return f b) x := by
  intro s
  rw [exec_bind, exec_lift]
  cases x with
  | error e => exact answers_error e
  | ok b => exact decides_pure (hf b) s

theorem Decides.relabel (h : Decides R m p) {f : α → β}
    (hf : ∀ a, (outcomes (f a) : List ρ) = outcomes a) :
    Decides R (do
      let a ← m
      return f a) p := by
  intro s
  have hm := h s
  revert hm
  rw [exec_bind]
  rcases exec m s with ⟨e | a, t⟩ <;> intro hm
  case error => exact hm
  show (∃ r ∈ (outcomes (f a) : List ρ), R.spent r) ∨
    ∃ b, p = .ok b ∧ (b = true ↔ ∀ r ∈ (outcomes (f a) : List ρ), R.good r)
  rw [hf]
  exact hm

theorem Decides.both (hm : Decides R m p) (hn : Decides R n q) {f : α → β → γ}
    (hf : ∀ a b, (outcomes (f a b) : List ρ) = outcomes a ++ outcomes b) :
    Decides R (do
      let a ← m
      let b ← n
      return f a b) (Verdict.both p q) := by
  intro s
  have hfirst := hm s
  revert hfirst
  rw [exec_bind]
  rcases exec m s with ⟨e | a, t⟩ <;> intro hfirst
  case error => exact fun h => hfirst ((answers_both p q).mp h).1
  have hsecond := hn t
  revert hsecond
  show Agrees R q (exec n t).1 →
    Agrees R (Verdict.both p q) (exec (n >>= fun b => pure (f a b)) t).1
  rw [exec_bind]
  rcases exec n t with ⟨e | b, u⟩ <;> intro hsecond
  case error => exact fun h => hsecond ((answers_both p q).mp h).2
  show (∃ r ∈ (outcomes (f a b) : List ρ), R.spent r) ∨ ∃ c, Verdict.both p q = .ok c ∧
    (c = true ↔ ∀ r ∈ (outcomes (f a b) : List ρ), R.good r)
  rw [hf]
  rcases hfirst with ⟨r, hr, hspent⟩ | ⟨c, rfl, hc⟩
  · exact Or.inl ⟨r, List.mem_append_left _ hr, hspent⟩
  rcases hsecond with ⟨r, hr, hspent⟩ | ⟨d, rfl, hd⟩
  · exact Or.inl ⟨r, List.mem_append_right _ hr, hspent⟩
  refine Or.inr ⟨c && d, rfl, ?_⟩
  rw [Bool.and_eq_true, hc, hd, List.forall_mem_append]

theorem decides_mapM {δ κ : Type} {f : δ → Stateful ε σ α} {g : κ → Except ε Bool} {l : List δ}
    {ideals : List κ} (h : List.Forall₂ (fun d k => Decides R (f d) (g k)) l ideals) :
    Decides R (l.mapM f) (every (ideals.map g)) := by
  induction h with
  | nil => exact decides_none rfl
  | cons hfirst _ ih =>
    rw [List.mapM_cons, List.map_cons, every_cons]
    exact hfirst.both ih fun _ _ => rfl

/-- One outcome in the place of many: good when all are, spent when one is. -/
structure Combines (R : Reading ρ) (combine : List ρ → ρ) : Prop where
  good : ∀ results, R.good (combine results) ↔ ∀ r ∈ results, R.good r
  spent : ∀ results, (∃ r ∈ results, R.spent r) → R.spent (combine results)

/-- An outcome combines those of an answer, in some order. -/
def CombinesOutcomes (combine : List ρ → ρ) (outcome : ρ) (a : α) : Prop :=
  ∃ l, outcome = combine l ∧ ∀ r, r ∈ l ↔ r ∈ (outcomes a : List ρ)

theorem Decides.combine {combine : List ρ → ρ} (hcombine : Combines R combine) {f : α → ρ}
    (hf : ∀ a, CombinesOutcomes combine (f a) a) (h : Decides R m p) :
    Decides R (do
      let a ← m
      return f a) p := by
  intro s
  have hm := h s
  revert hm
  rw [exec_bind]
  rcases exec m s with ⟨e | a, t⟩ <;> intro hm
  case error => exact hm
  obtain ⟨l, hl, hmem⟩ := hf a
  show (∃ r ∈ [f a], R.spent r) ∨ ∃ b, p = .ok b ∧ (b = true ↔ ∀ r ∈ [f a], R.good r)
  rw [hl]
  rcases hm with ⟨r, hr, hspent⟩ | ⟨b, hp, hb⟩
  · exact Or.inl ⟨_, List.mem_singleton_self _, hcombine.spent l ⟨r, (hmem r).mpr hr, hspent⟩⟩
  · refine Or.inr ⟨b, hp, hb.trans ?_⟩
    rw [List.forall_mem_singleton, hcombine.good]
    exact forall_congr' fun r => imp_congr_left (hmem r).symm

theorem Decides.both_combine {combine : List ρ → ρ} (hcombine : Combines R combine)
    (hm : Decides R m p) (hn : Decides R n q) {f : α → β → ρ}
    (hf : ∀ a b, CombinesOutcomes combine (f a b) (a, b)) :
    Decides R (do
      let a ← m
      let b ← n
      return f a b) (Verdict.both p q) := by
  have hpair := hm.both hn (f := Prod.mk) fun _ _ => rfl
  have h := hpair.combine hcombine (f := fun pair => f pair.1 pair.2) fun pair => hf pair.1 pair.2
  simp only [bind_assoc, pure_bind] at h
  exact h

end Decides

section Seeks

variable {δ κ ι η : Type} {S : δ → κ → Prop} {T : ι → η → Prop}
  {m : Stateful (Stop ρ ε) σ δ} {p : Except (Option ε) κ}

/-- A pure computation that may raise, in a search. -/
def raising (x : Except ε δ) : Stateful (Stop ρ ε) σ δ :=
  liftM (x.mapError Stop.raised : Except (Stop ρ ε) δ)

theorem seeks_pure {d : δ} {k : κ} (h : S d k) :
    Seeks R S (pure d : Stateful (Stop ρ ε) σ δ) (.ok k) := fun _ => ⟨k, rfl, h⟩

theorem finds_raising (x : Except ε δ) :
    Finds R (raising x : Stateful (Stop ρ ε) σ δ) (x.mapError some) := by
  intro s
  rw [raising, exec_lift]
  cases x with
  | error e => exact ⟨e, rfl⟩
  | ok d => exact ⟨d, rfl, rfl⟩

theorem seeks_fail {r : ρ} (hr : ¬ R.good r) :
    Seeks R S (throw (.failed r) : Stateful (Stop ρ ε) σ δ) (.error none) :=
  fun _ => Or.inr ⟨hr, rfl⟩

theorem seeks_stop {r : ρ} (hr : R.spent r) :
    Seeks R S (throw (.failed r) : Stateful (Stop ρ ε) σ δ) p := fun _ => Or.inl hr

theorem Total.bind_seeks {μ : Type} {m : Stateful (Stop ρ ε) σ μ}
    {f : μ → Stateful (Stop ρ ε) σ δ} (h : Total m) (hf : ∀ d, Seeks R S (f d) p) :
    Seeks R S (m >>= f) p :=
  h.exec_bind hf

theorem Seeks.bind {f : δ → Stateful (Stop ρ ε) σ ι} {g : κ → Except (Option ε) η}
    (h : Seeks R S m p) (hf : ∀ d k, S d k → Seeks R T (f d) (g k)) :
    Seeks R T (m >>= f) (p >>= g) := by
  intro s
  have hm := h s
  revert hm
  rw [exec_bind]
  rcases exec m s with ⟨stop | d, t⟩ <;> intro hm
  case ok =>
    obtain ⟨k, rfl, hS⟩ := hm
    exact hf d k hS t
  cases stop with
  | failed r =>
    rcases hm with hspent | ⟨hr, rfl⟩
    · exact Or.inl hspent
    · exact Or.inr ⟨hr, rfl⟩
  | raised e =>
    obtain ⟨e', rfl⟩ := hm
    exact ⟨e', rfl⟩

theorem Seeks.after {step : Stateful (Stop ρ ε) σ Unit} (hstep : Finds R step (.ok ()))
    (h : Seeks R S m p) : Seeks R S (do step; m) p :=
  hstep.bind (g := fun _ => p) fun _ _ _ => h

/-- A search step by step along a list. -/
theorem seeks_foldlM {μ : Type} {f : δ → μ → Stateful (Stop ρ ε) σ δ}
    {g : κ → μ → Except (Option ε) κ} (l : List μ)
    (h : ∀ d k x, x ∈ l → S d k → Seeks R S (f d x) (g k x)) {d : δ} {k : κ} (hS : S d k) :
    Seeks R S (l.foldlM f d) (l.foldlM g k) := by
  induction l generalizing d k with
  | nil => exact seeks_pure hS
  | cons x rest ih =>
    rw [List.foldlM_cons, List.foldlM_cons]
    refine (h d k x List.mem_cons_self hS).bind fun d' k' hS' => ?_
    exact ih (fun d k y hy => h d k y (List.mem_cons_of_mem _ hy)) hS'

def settle (m : Stateful (Stop ρ ε) σ δ) : Stateful ε σ (Except ρ δ) := fun s =>
  match exec m s with
  | (.ok d, t) => (.ok (.ok d), t)
  | (.error (.failed r), t) => (.ok (.error r), t)
  | (.error (.raised e), t) => (.error e, t)

theorem exec_settle (m : Stateful (Stop ρ ε) σ δ) (s : σ) :
    exec (settle m) s =
      match exec m s with
      | (.ok d, t) => (.ok (.ok d), t)
      | (.error (.failed r), t) => (.ok (.error r), t)
      | (.error (.raised e), t) => (.error e, t) := rfl

theorem Seeks.settle_decides {f : Except ρ δ → Stateful ε σ α} {g : κ → Except ε Bool}
    (h : Seeks R S m p)
    (hspent : ∀ r, R.spent r → ∀ q, Decides R (f (.error r)) q)
    (hfail : ∀ r, ¬ R.good r → Decides R (f (.error r)) (.ok false))
    (hok : ∀ d k, p = .ok k → S d k → Decides R (f (.ok d)) (g k)) :
    Decides R (settle m >>= f) (settled p g) := by
  intro s
  have hm := h s
  revert hm
  rw [exec_bind, exec_settle]
  rcases exec m s with ⟨stop | d, t⟩ <;> intro hm
  case ok =>
    obtain ⟨k, rfl, hS⟩ := hm
    exact hok d k rfl hS t
  cases stop with
  | failed r =>
    rcases hm with hr | ⟨hr, rfl⟩
    · exact hspent r hr _ t
    · exact hfail r hr t
  | raised e =>
    obtain ⟨e', rfl⟩ := hm
    exact answers_error e'

end Seeks

end Verdict
end Raes
