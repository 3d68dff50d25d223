import Mathlib.Logic.Relation

/-!
# Computations on a state that may raise

A `Stateful` computation reads and writes a state and may raise.  A raise keeps
the state reached so far, as an exception of the source keeps the assignments
made before it.  A computation is atomic when it raises only with the state
that it started from.

The second half is about runs of a state machine: what one step keeps, a run of
any length keeps.
-/

namespace Raes

abbrev Stateful (ε σ : Type) := ExceptT ε (StateM σ)

namespace Stateful

variable {ε σ α β : Type}

/-- The outcome of a computation, and the state that it leaves. -/
def exec (m : Stateful ε σ α) (s : σ) : Except ε α × σ := StateT.run (ExceptT.run m) s

@[simp] theorem exec_pure (a : α) (s : σ) :
    exec (pure a : Stateful ε σ α) s = (.ok a, s) := rfl

@[simp] theorem exec_throw (e : ε) (s : σ) :
    exec (throw e : Stateful ε σ α) s = (.error e, s) := rfl

@[simp] theorem exec_get (s : σ) : exec (get : Stateful ε σ σ) s = (.ok s, s) := rfl

@[simp] theorem exec_set (t s : σ) : exec (set t : Stateful ε σ PUnit) s = (.ok ⟨⟩, t) := rfl

@[simp] theorem exec_modify (f : σ → σ) (s : σ) :
    exec (modify f : Stateful ε σ PUnit) s = (.ok ⟨⟩, f s) := rfl

variable (x : Except ε α)

@[simp] theorem exec_lift (s : σ) : exec (liftM x : Stateful ε σ α) s = (x, s) := by
  cases x <;> rfl

@[simp] theorem exec_bind (m : Stateful ε σ α) (f : α → Stateful ε σ β) (s : σ) :
    exec (m >>= f) s =
      match exec m s with
      | (.ok a, t) => exec (f a) t
      | (.error e, t) => (.error e, t) := by
  unfold exec StateT.run ExceptT.run
  simp only [bind, ExceptT.bind, ExceptT.mk, StateT.bind, ExceptT.bindCont]
  cases m s with
  | mk r t => cases r <;> rfl

@[simp] theorem exec_map (f : α → β) (m : Stateful ε σ α) (s : σ) :
    exec (f <$> m) s =
      match exec m s with
      | (.ok a, t) => (.ok (f a), t)
      | (.error e, t) => (.error e, t) := by
  rw [← bind_pure_comp, exec_bind]
  rfl

theorem lift_bind (f : α → Except ε β) :
    (liftM (x >>= f) : Stateful ε σ β) = liftM x >>= fun a => liftM (f a) := by
  cases x <;> rfl

theorem exec_bind_ok_iff (m : Stateful ε σ α) (f : α → Stateful ε σ β) (s t : σ) (b : β) :
    exec (m >>= f) s = (.ok b, t) ↔
      ∃ a u, exec m s = (.ok a, u) ∧ exec (f a) u = (.ok b, t) := by
  rw [exec_bind]
  cases h : exec m s with
  | mk r u =>
    cases r with
    | error e => simp
    | ok a =>
      constructor
      · exact fun hf => ⟨a, u, rfl, hf⟩
      · intro hf
        obtain ⟨a', u', heq, hf⟩ := hf
        cases heq
        exact hf

theorem exec_lift_ok_iff (s t : σ) (a : α) :
    exec (liftM x : Stateful ε σ α) s = (.ok a, t) ↔ x = .ok a ∧ t = s := by
  rw [exec_lift, Prod.mk.injEq, eq_comm (a := s)]

theorem exec_get_ok_iff (s t a : σ) :
    exec (get : Stateful ε σ σ) s = (.ok a, t) ↔ a = s ∧ t = s := by
  rw [exec_get, Prod.mk.injEq, Except.ok.injEq, eq_comm (a := s), eq_comm (a := s)]

theorem exec_pure_ok_iff {a b : α} {s t : σ} :
    exec (pure a : Stateful ε σ α) s = (.ok b, t) ↔ b = a ∧ t = s := by
  rw [exec_pure, Prod.mk.injEq, Except.ok.injEq, eq_comm (a := a), eq_comm (a := s)]

@[simp] theorem exec_get_bind (f : σ → Stateful ε σ α) (s : σ) :
    exec (get >>= f) s = exec (f s) s := by
  rw [exec_bind, exec_get]

@[simp] theorem exec_modify_bind (g : σ → σ) (f : PUnit → Stateful ε σ α) (s : σ) :
    exec (modify g >>= f) s = exec (f ⟨⟩) (g s) := by
  rw [exec_bind, exec_modify]

theorem exec_lift_bind_ok_iff (f : α → Stateful ε σ β) (s t : σ) (b : β) :
    exec (liftM x >>= f) s = (.ok b, t) ↔ ∃ a, x = .ok a ∧ exec (f a) s = (.ok b, t) := by
  rw [exec_bind, exec_lift]
  cases x <;> simp

theorem exec_check_bind_ok_iff (x : Except ε Unit) (f : Unit → Stateful ε σ β) (s t : σ) (b : β) :
    exec (liftM x >>= f) s = (.ok b, t) ↔ x = .ok () ∧ exec (f ()) s = (.ok b, t) := by
  rw [exec_bind, exec_lift]
  cases x <;> simp

theorem exec_map_ok_iff {f : α → β} {m : Stateful ε σ α} {s t : σ} {b : β} :
    exec (f <$> m) s = (.ok b, t) ↔ ∃ a, exec m s = (.ok a, t) ∧ f a = b := by
  rw [exec_map]
  cases exec m s with
  | mk r u =>
    cases r with
    | error e => simp
    | ok a =>
      simp only [Prod.mk.injEq, Except.ok.injEq]
      constructor
      · exact fun h => ⟨a, ⟨rfl, h.2⟩, h.1⟩
      · intro h
        obtain ⟨a', ⟨rfl, hu⟩, hf⟩ := h
        exact ⟨hf, hu⟩

/-! ## Computations that spend -/

/-- The computation answers from the states that fit, and moves them by a function. -/
def Spends (m : Stateful ε σ Unit) (fits : σ → Prop) (spend : σ → σ) : Prop :=
  ∀ s t, exec m s = (.ok (), t) ↔ fits s ∧ t = spend s

/-! ## Runs that answer when a condition holds -/

/-- The run answers exactly when `fits` holds, and then as `post` says. -/
def Settles (run : Except ε α × σ) (fits : Prop) (post : α → σ → Prop) : Prop :=
  match run with
  | (.ok a, t) => fits ∧ post a t
  | (.error _, _) => ¬ fits

section Settles

variable {fits fits' : Prop} {post : α → σ → Prop} {s : σ}

theorem Settles.bind {m : Stateful ε σ α} {f : α → Stateful ε σ β} {post' : β → σ → Prop}
    (hm : Settles (exec m s) fits post) (hfits : fits' → fits)
    (hf : ∀ a t, fits → post a t → Settles (exec (f a) t) fits' post') :
    Settles (exec (m >>= f) s) fits' post' := by
  rw [exec_bind]
  cases hrun : exec m s with
  | mk r t =>
    rw [hrun] at hm
    cases r with
    | error e => exact fun h => hm (hfits h)
    | ok a => exact hf a t hm.1 hm.2

theorem Settles.mono {run : Except ε α × σ} {post' : α → σ → Prop}
    (h : Settles run fits post) (hfits : fits ↔ fits') (hpost : ∀ a t, post a t → post' a t) :
    Settles run fits' post' := by
  cases run with
  | mk r t =>
    cases r with
    | error e => exact fun hf => h (hfits.mpr hf)
    | ok a => exact ⟨hfits.mp h.1, hpost a t h.2⟩

theorem Settles.answers_iff {run : Except ε α × σ} (h : Settles run fits post) :
    (∃ a, run.1 = .ok a) ↔ fits := by
  cases run with
  | mk r t =>
    cases r with
    | error e => simpa [Settles] using h
    | ok a => simpa using h.1

end Settles

/-! ## Atomic computations -/

/-- The computation leaves the state as it is. -/
def ReadOnly (m : Stateful ε σ α) : Prop := ∀ s, (exec m s).2 = s

/-- The computation leaves the state as it is when it raises. -/
def Atomic (m : Stateful ε σ α) : Prop := ∀ s e t, exec m s = (.error e, t) → t = s

variable {m : Stateful ε σ α}

theorem ReadOnly.atomic (h : ReadOnly m) : Atomic m := by
  intro s e t hm
  have := h s
  rw [hm] at this
  exact this

theorem readOnly_pure (a : α) : ReadOnly (pure a : Stateful ε σ α) := fun _ => rfl

theorem readOnly_throw (e : ε) : ReadOnly (throw e : Stateful ε σ α) := fun _ => rfl

theorem readOnly_get : ReadOnly (get : Stateful ε σ σ) := fun _ => rfl

theorem readOnly_lift (x : Except ε α) : ReadOnly (liftM x : Stateful ε σ α) := by
  intro s
  rw [exec_lift]

theorem ReadOnly.bind {f : α → Stateful ε σ β} (hm : ReadOnly m)
    (hf : ∀ a, ReadOnly (f a)) : ReadOnly (m >>= f) := by
  intro s
  have h := hm s
  rw [exec_bind]
  cases hx : exec m s with
  | mk r t =>
    rw [hx] at h
    cases r with
    | error e => exact h
    | ok a => exact (hf a t).trans h

theorem ReadOnly.ite {p : Prop} [Decidable p] {m n : Stateful ε σ α} (hm : ReadOnly m)
    (hn : ReadOnly n) : ReadOnly (if p then m else n) := by
  split
  · exact hm
  · exact hn

/-- Checks before an atomic computation keep it atomic. -/
theorem ReadOnly.bind_atomic {f : α → Stateful ε σ β} (hm : ReadOnly m)
    (hf : ∀ a, Atomic (f a)) : Atomic (m >>= f) := by
  intro s e t h
  have hs := hm s
  rw [exec_bind] at h
  cases hx : exec m s with
  | mk r u =>
    rw [hx] at h hs
    cases r with
    | error e' => exact (Prod.mk.inj h).2.symm.trans hs
    | ok a => exact (hf a u e t h).trans hs

theorem Atomic.map (hm : Atomic m) (f : α → β) : Atomic (f <$> m) := by
  intro s e t h
  rw [exec_map] at h
  cases hx : exec m s with
  | mk r u =>
    rw [hx] at h
    cases r with
    | error e' =>
      obtain ⟨_, rfl⟩ := Prod.mk.inj h
      exact hm s e' _ hx
    | ok a => cases (Prod.mk.inj h).1

theorem Atomic.ite {p : Prop} [Decidable p] {m n : Stateful ε σ α} (hm : Atomic m)
    (hn : Atomic n) : Atomic (if p then m else n) := by
  split
  · exact hm
  · exact hn

/-- Writes that cannot raise are atomic. -/
theorem atomic_of_ok (h : ∀ s, ∃ a, (exec m s).1 = .ok a) : Atomic m := by
  intro s e t hm
  obtain ⟨a, ha⟩ := h s
  rw [hm] at ha
  cases ha

/-- Commit the changes of a computation together, or roll them all back. -/
def transaction (m : Stateful ε σ α) : Stateful ε σ α := fun s =>
  match exec m s with
  | (.ok a, t) => (.ok a, t)
  | (.error e, _) => (.error e, s)

theorem exec_transaction (m : Stateful ε σ α) (s : σ) :
    exec (transaction m) s =
      match exec m s with
      | (.ok a, t) => (.ok a, t)
      | (.error e, _) => (.error e, s) := rfl

theorem transaction_atomic (m : Stateful ε σ α) : Atomic (transaction m) := by
  intro s e t h
  rw [exec_transaction] at h
  cases hm : exec m s with
  | mk r u =>
    rw [hm] at h
    cases r with
    | error e' => exact (Prod.mk.inj h).2.symm
    | ok a => cases (Prod.mk.inj h).1

/-- A transaction answers exactly when its body does, with the state of its body. -/
theorem exec_transaction_ok_iff (m : Stateful ε σ α) (s t : σ) (a : α) :
    exec (transaction m) s = (.ok a, t) ↔ exec m s = (.ok a, t) := by
  rw [exec_transaction]
  cases hm : exec m s with
  | mk r u =>
    cases r with
    | error e => simp
    | ok b => rfl

/-- Run a computation and answer its outcome instead of raising. -/
def attempt (m : Stateful ε σ α) : Stateful ε σ (Except ε α) := fun s =>
  (.ok (exec m s).1, (exec m s).2)

theorem exec_attempt_bind (m : Stateful ε σ α) (f : Except ε α → Stateful ε σ β) (s : σ) :
    exec (attempt m >>= f) s = exec (f (exec m s).1) (exec m s).2 := by
  rw [exec_bind]
  rfl

/-! ## Computations on two states -/

/-- Two outcomes match: both answers, in related states, or both refusals. -/
def Matches {τ : Type} (R : σ → τ → Prop) : Except ε α × σ → Except ε β × τ → Prop
  | (.ok _, s), (.ok _, t) => R s t
  | (.error _, _), (.error _, _) => True
  | _, _ => False

section Matches

variable {τ : Type} {R : σ → τ → Prop} {m : Stateful ε σ α} {n : Stateful ε τ β} {s : σ} {t : τ}

/-- Outcomes match when an answer of each computation gives one of the other, in
related states. -/
theorem matches_of_ok
    (hforth : ∀ a s', exec m s = (.ok a, s') → ∃ b t', exec n t = (.ok b, t') ∧ R s' t')
    (hback : ∀ b t', exec n t = (.ok b, t') → ∃ a s', exec m s = (.ok a, s')) :
    Matches R (exec m s) (exec n t) := by
  cases hm : exec m s with
  | mk r s' =>
    cases hn : exec n t with
    | mk q t' =>
      cases r with
      | ok a =>
        obtain ⟨b, u, hu, hR⟩ := hforth a s' hm
        rw [hn] at hu
        cases hu
        exact hR
      | error e =>
        cases q with
        | error e' => trivial
        | ok b =>
          obtain ⟨a, u, hu⟩ := hback b t' hn
          rw [hm] at hu
          cases (Prod.mk.inj hu).1

theorem Matches.map {γ δ : Type} (h : Matches R (exec m s) (exec n t)) (f : α → γ) (g : β → δ) :
    Matches R (exec (f <$> m) s) (exec (g <$> n) t) := by
  rw [exec_map, exec_map]
  cases hm : exec m s with
  | mk r s' =>
    cases hn : exec n t with
    | mk q t' =>
      rw [hm, hn] at h
      cases r <;> cases q <;> exact h

theorem Matches.ok_iff (h : Matches R (exec m s) (exec n t)) :
    (∃ a, (exec m s).1 = .ok a) ↔ ∃ b, (exec n t).1 = .ok b := by
  revert h
  rcases exec m s with ⟨r, s'⟩
  rcases exec n t with ⟨q, t'⟩
  intro h
  cases r <;> cases q <;> simp_all [Matches]

theorem Matches.related (h : Matches R (exec m s) (exec n t)) (hm : Atomic m) (hn : Atomic n)
    (hR : R s t) : R (exec m s).2 (exec n t).2 := by
  cases hexec : exec m s with
  | mk r s' =>
    cases hexec' : exec n t with
    | mk q t' =>
      rw [hexec, hexec'] at h
      cases r with
      | ok a =>
        cases q with
        | ok b => exact h
        | error e => cases h
      | error e =>
        cases q with
        | ok b => cases h
        | error e' =>
          show R s' t'
          rw [hm s e s' hexec, hn t e' t' hexec']
          exact hR

end Matches

end Stateful

/-! ## Runs -/

namespace Run

variable {σ τ Op : Type} (step : σ → Op → σ)

/-- The state after a list of operations. -/
def run (s : σ) (ops : List Op) : σ := ops.foldl step s

@[simp] theorem run_nil (s : σ) : run step s [] = s := rfl

@[simp] theorem run_cons (s : σ) (op : Op) (ops : List Op) :
    run step s (op :: ops) = run step (step s op) ops := rfl

theorem run_append (s : σ) (ops more : List Op) :
    run step s (ops ++ more) = run step (run step s ops) more := List.foldl_append

variable {step : σ → Op → σ}

/-- What every step keeps, a run keeps. -/
theorem run_invariant {I : σ → Prop}
    (hstep : ∀ s op, I s → I (step s op)) (s : σ) (ops : List Op) (h : I s) :
    I (run step s ops) := by
  induction ops generalizing s with
  | nil => exact h
  | cons op rest ih => exact ih (step s op) (hstep s op h)

/-- Every step of a run meets a condition on the state before it. -/
def Along (step : σ → Op → σ) (C : σ → Op → Prop) : σ → List Op → Prop
  | _, [] => True
  | s, op :: rest => C s op ∧ Along step C (step s op) rest

variable {C : σ → Op → Prop}

theorem along_of_append {s : σ} {ops more : List Op}
    (h : Along step C s (ops ++ more)) : Along step C s ops := by
  induction ops generalizing s with
  | nil => trivial
  | cons op rest ih => exact ⟨h.1, ih h.2⟩

theorem along_append_right {s : σ} {ops more : List Op}
    (h : Along step C s (ops ++ more)) : Along step C (run step s ops) more := by
  induction ops generalizing s with
  | nil => exact h
  | cons op rest ih => exact ih h.2

variable {I : σ → Prop}

/-- What every step that meets a condition keeps, a run of such steps keeps. -/
theorem run_invariant_along (hstep : ∀ s op, I s → C s op → I (step s op)) (s : σ) (ops : List Op)
    (h : I s) (hC : Along step C s ops) : I (run step s ops) := by
  induction ops generalizing s with
  | nil => exact h
  | cons op rest ih => exact ih (step s op) (hstep s op h hC.1) hC.2

/-- Two conditions that agree on every step from a state with an invariant agree on runs. -/
theorem along_iff {C D E : σ → Op → Prop} (hkeep : ∀ s op, I s → C s op → I (step s op))
    (hiff : ∀ s op, I s → C s op → (D s op ↔ E s op)) {s : σ} {ops : List Op} (h : I s)
    (hC : Along step C s ops) : Along step D s ops ↔ Along step E s ops := by
  induction ops generalizing s with
  | nil => exact Iff.rfl
  | cons op rest ih => exact and_congr (hiff s op h hC.1) (ih (hkeep s op h hC.1) hC.2)

/-- What holds of every step from a state with an invariant holds along runs. -/
theorem along_of_invariant {C D : σ → Op → Prop} (hkeep : ∀ s op, I s → C s op → I (step s op))
    (hstep : ∀ s op, I s → C s op → D s op)
    {s : σ} {ops : List Op} (h : I s) (hC : Along step C s ops) : Along step D s ops := by
  induction ops generalizing s with
  | nil => trivial
  | cons op rest ih => exact ⟨hstep s op h hC.1, ih (hkeep s op h hC.1) hC.2⟩

/-- Two conditions on the steps of a run, the second under an assumption. -/
theorem along_and {C D : σ → Op → Prop} {P : Prop} {s : σ} {ops : List Op}
    (hC : Along step C s ops) (hD : P → Along step D s ops) :
    Along step (fun s op => C s op ∧ (P → D s op)) s ops := by
  induction ops generalizing s with
  | nil => trivial
  | cons op rest ih => exact ⟨⟨hC.1, fun h => (hD h).1⟩, ih hC.2 fun h => (hD h).2⟩

/-- A relation between a state and every later one: it holds of each state with
itself, composes, and holds over each step from a state that keeps an invariant. -/
theorem run_relation {R : σ → σ → Prop}
    (hrefl : ∀ s, R s s) (htrans : ∀ s t u, R s t → R t u → R s u)
    (hkeep : ∀ s op, I s → I (step s op)) (hstep : ∀ s op, I s → R s (step s op))
    (s : σ) (ops : List Op) (h : I s) : R s (run step s ops) := by
  induction ops generalizing s with
  | nil => exact hrefl s
  | cons op rest ih =>
    exact htrans _ _ _ (hstep s op h) (ih (step s op) (hkeep s op h))

/-- Two machines that stay related step by step stay related over a run. -/
theorem run_simulation {step' : τ → Op → τ} {C : σ → Op → Prop}
    {R : σ → τ → Prop} (hstep : ∀ s t op, R s t → C s op → R (step s op) (step' t op))
    (s : σ) (t : τ) (ops : List Op) (h : R s t) (hC : Along step C s ops) :
    R (run step s ops) (run step' t ops) := by
  induction ops generalizing s t with
  | nil => exact h
  | cons op rest ih => exact ih _ _ (hstep s t op h hC.1) hC.2

end Run
end Raes

/-!
# Triples

Pre- and postconditions of computations that may raise: a triple says what holds of
the state and the answer where the computation answers, and of the state and the
exception where it raises.  The rules follow the computation, so a proof about a
program is the composition of proofs about its parts.
-/

namespace Raes

open Stateful

variable {ε σ α β ι : Type}

/-- From a state with `P` the computation answers with `Q` or raises with `E`. -/
def Triple (P : σ → Prop) (m : Stateful ε σ α) (Q : α → σ → Prop) (E : ε → σ → Prop) : Prop :=
  ∀ s, P s →
    match exec m s with
    | (.ok a, t) => Q a t
    | (.error e, t) => E e t

namespace Triple

variable {P P' : σ → Prop} {m : Stateful ε σ α} {Q Q' : α → σ → Prop} {R : β → σ → Prop}
  {E : ε → σ → Prop}

theorem pure_ (a : α) (h : ∀ s, P s → Q a s) : Triple P (pure a : Stateful ε σ α) Q E :=
  fun s hs => h s hs

theorem bind {f : α → Stateful ε σ β} (hm : Triple P m Q E) (hf : ∀ a, Triple (Q a) (f a) R E) :
    Triple P (m >>= f) R E := by
  intro s hs
  have hfirst := hm s hs
  rw [exec_bind]
  rcases hexec : exec m s with ⟨r, t⟩
  rw [hexec] at hfirst
  cases r with
  | error e => exact hfirst
  | ok a => exact hf a t hfirst

theorem consequence (hm : Triple P' m Q' E) (hpre : ∀ s, P s → P' s)
    (hpost : ∀ a s, Q' a s → Q a s) : Triple P m Q E := by
  intro s hs
  have h := hm s (hpre s hs)
  rcases hexec : exec m s with ⟨r, t⟩
  rw [hexec] at h
  cases r with
  | error e => exact h
  | ok a => exact hpost a t h

end Triple

end Raes
