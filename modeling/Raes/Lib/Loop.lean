import Mathlib.Data.Nat.Notation

/-!
# While loops

A while loop repeats a body that either leaves the loop with a result or goes on
with a new state.  The loop carries a fuel argument.  `iterate_total` is its
total correctness rule, by an invariant and a variant that bounds the rounds.
-/

namespace Raes.Loop

variable {σ ρ : Type}

/-- Repeat the body until it leaves the loop or the fuel is spent. -/
def iterate (body : σ → ρ ⊕ σ) : ℕ → σ → ρ ⊕ σ
  | 0, s => .inr s
  | fuel + 1, s =>
    match body s with
    | .inl r => .inl r
    | .inr t => iterate body fuel t

/-- What a round of the loop does under an invariant.  It leaves with a result
that meets the postcondition, or it keeps the invariant and lowers the
variant. -/
def Round (body : σ → ρ ⊕ σ) (I : σ → Prop) (variant : σ → ℕ) (Q : ρ → Prop) (s : σ) : Prop :=
  (∃ r, body s = .inl r ∧ Q r) ∨ ∃ t, body s = .inr t ∧ I t ∧ variant t < variant s

theorem Round.and {body : σ → ρ ⊕ σ} {I J : σ → Prop} {variant : σ → ℕ} {Q P : ρ → Prop} {s : σ}
    (h : Round body I variant Q s) (hstep : ∀ t, body s = .inr t → J t)
    (hdone : ∀ r, body s = .inl r → P r) :
    Round body (fun s => I s ∧ J s) variant (fun r => Q r ∧ P r) s := by
  rcases h with ⟨r, hr, hQ⟩ | ⟨t, ht, hI, hlt⟩
  · exact Or.inl ⟨r, hr, hQ, hdone r hr⟩
  · exact Or.inr ⟨t, ht, ⟨hI, hstep t ht⟩, hlt⟩

/-- A loop with more fuel than its variant leaves with a result that meets the
postcondition. -/
theorem iterate_total {body : σ → ρ ⊕ σ} {I : σ → Prop} {variant : σ → ℕ} {Q : ρ → Prop}
    (hround : ∀ s, I s → Round body I variant Q s) {fuel : ℕ} {s : σ} (hs : I s)
    (hfuel : variant s < fuel) : ∃ r, iterate body fuel s = .inl r ∧ Q r := by
  induction fuel generalizing s with
  | zero => exact absurd hfuel (Nat.not_lt_zero _)
  | succ fuel ih =>
    rcases hround s hs with ⟨r, hr, hQ⟩ | ⟨t, ht, hI, hlt⟩
    · refine ⟨r, ?_, hQ⟩
      rw [iterate, hr]
    · have hrest : ∃ r, iterate body fuel t = .inl r ∧ Q r := ih hI (by omega)
      obtain ⟨r, hr, hQ⟩ := hrest
      refine ⟨r, ?_, hQ⟩
      rw [iterate, ht]
      exact hr

end Raes.Loop
