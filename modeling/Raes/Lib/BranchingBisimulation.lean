import Mathlib.Data.List.Infix
import Mathlib.Logic.Relation

/-!
# Branching bisimulation with explicit divergence

Two labelled transition systems over one set of labels are compared after some
labels are hidden.  A branching bisimulation lets the answering side take hidden
steps that stay related before it answers.  It preserves divergence when an
infinite hidden run of one side, all of whose states are related to one state of
the other side, is answered by an infinite hidden run of that other side.

`Refinement` is the case in which one system is the image of the other under a
state map.  The map is constant along hidden steps, and a rank falls along them.
-/

namespace Raes.Lts

variable {S T L : Type}

def Internal (step : S → L → S → Prop) (hidden : L → Prop) (s s' : S) : Prop :=
  ∃ l, hidden l ∧ step s l s'

/-- Equal labels, or two hidden ones. -/
def SameLabel (hidden : L → Prop) (l m : L) : Prop := m = l ∨ hidden l ∧ hidden m

variable (stepS : S → L → S → Prop) (stepT : T → L → T → Prop) (hidden : L → Prop)

/-- Every step of the left system is answered by the right one. -/
def Transfers (R : S → T → Prop) : Prop :=
  ∀ s t, R s t → ∀ l s', stepS s l s' →
    (hidden l ∧ R s' t) ∨
      ∃ t₁ m t₂, Relation.ReflTransGen (Internal stepT hidden) t t₁ ∧ R s t₁ ∧
        stepT t₁ m t₂ ∧ SameLabel hidden l m ∧ R s' t₂

/-- Every divergence of the left system at a related pair is one of the right system. -/
def PreservesDivergence (R : S → T → Prop) : Prop :=
  ∀ s t, R s t → ∀ run : ℕ → S, run 0 = s →
    (∀ n, Internal stepS hidden (run n) (run (n + 1))) → (∀ n, R (run n) t) →
      ∃ answer : ℕ → T, answer 0 = t ∧
        (∀ n, Internal stepT hidden (answer n) (answer (n + 1))) ∧ ∀ n k, R (run n) (answer k)

structure BranchingBisimulation (stepS : S → L → S → Prop) (stepT : T → L → T → Prop)
    (hidden : L → Prop) (R : S → T → Prop) : Prop where
  forth : Transfers stepS stepT hidden R
  back : Transfers stepT stepS hidden (flip R)
  divergesForth : PreservesDivergence stepS stepT hidden R
  divergesBack : PreservesDivergence stepT stepS hidden (flip R)

/-- Some divergence-preserving branching bisimulation relates the two states. -/
def BranchingBisimilar (s : S) (t : T) : Prop :=
  ∃ R, BranchingBisimulation stepS stepT hidden R ∧ R s t

inductive Run (step : S → L → S → Prop) (start : S) : List L → S → Prop where
  | start : Run step start [] start
  | snoc {ls : List L} {s s' : S} {l : L} :
      Run step start ls s → step s l s' → Run step start (ls ++ [l]) s'

theorem Run.invariant {step : S → L → S → Prop} {I : List L → S → Prop} {start s : S}
    {ls : List L} (hstart : I [] start)
    (hstep : ∀ ls s l s', I ls s → step s l s' → I (ls ++ [l]) s')
    (hrun : Run step start ls s) : I ls s := by
  induction hrun with
  | start => exact hstart
  | snoc _ h ih => exact hstep _ _ _ _ ih h

theorem not_diverges {step : S → L → S → Prop} {hidden : L → Prop} {I : S → Prop}
    {rank : S → ℕ} (hrank : ∀ s s', I s → Internal step hidden s s' → rank s' < rank s)
    {run : ℕ → S} (hI : ∀ n, I (run n))
    (hrun : ∀ n, Internal step hidden (run n) (run (n + 1))) : False := by
  have hfalls : ∀ n, rank (run n) + n ≤ rank (run 0) := by
    intro n
    induction n with
    | zero => exact Nat.le_refl _
    | succ n ih =>
      have hlt := hrank _ _ (hI n) (hrun n)
      omega
  have hbound := hfalls (rank (run 0) + 1)
  omega

/-- A state map under which the abstract system answers the concrete one, with
an invariant of the concrete system and a rank that falls along hidden steps. -/
structure Refinement (stepA : S → L → S → Prop) (stepC : T → L → T → Prop)
    (hidden : L → Prop) where
  abstraction : T → S
  invariant : T → Prop
  rank : T → ℕ
  keeps : ∀ t l t', invariant t → stepC t l t' → invariant t'
  stutters : ∀ t l t', invariant t → stepC t l t' → hidden l →
    abstraction t' = abstraction t ∧ rank t' < rank t
  answers : ∀ t l t', invariant t → stepC t l t' → ¬ hidden l →
    stepA (abstraction t) l (abstraction t')
  offers : ∀ t l s, invariant t → stepA (abstraction t) l s →
    (∃ t', Internal stepC hidden t t') ∨ ∃ t', stepC t l t' ∧ abstraction t' = s
  visible : ∀ t l s, invariant t → stepA (abstraction t) l s → ¬ hidden l

namespace Refinement

variable {stepA : S → L → S → Prop} {stepC : T → L → T → Prop} {hidden : L → Prop}
  (ref : Refinement stepA stepC hidden)

def Related (s : S) (t : T) : Prop := ref.invariant t ∧ ref.abstraction t = s

theorem exists_answer {t : T} (ht : ref.invariant t) {l : L} {s : S}
    (hstep : stepA (ref.abstraction t) l s) :
    ∃ t₁ t₂, Relation.ReflTransGen (Internal stepC hidden) t t₁ ∧
      ref.Related (ref.abstraction t) t₁ ∧ stepC t₁ l t₂ ∧ ref.Related s t₂ := by
  induction hn : ref.rank t using Nat.strongRecOn generalizing t with
  | ind n ih =>
    rcases ref.offers t l s ht hstep with ⟨t', m, hm, ht'⟩ | ⟨t', ht', hs⟩
    · have hI' := ref.keeps t m t' ht ht'
      obtain ⟨habs, hlt⟩ := ref.stutters t m t' ht ht' hm
      have hstep' : stepA (ref.abstraction t') l s := by
        rw [habs]
        exact hstep
      obtain ⟨t₁, t₂, hreach, hrel, hanswer, hrel'⟩ := ih (ref.rank t') (hn ▸ hlt) hI' hstep' rfl
      refine ⟨t₁, t₂, Relation.ReflTransGen.head ⟨m, hm, ht'⟩ hreach, ?_, hanswer, hrel'⟩
      rw [← habs]
      exact hrel
    · exact ⟨t, t', Relation.ReflTransGen.refl, ⟨ht, rfl⟩, ht', ref.keeps t l t' ht ht', hs⟩

theorem transfers : Transfers stepA stepC hidden ref.Related := by
  intro s t hrel l s' hstep
  obtain ⟨ht, habs⟩ := hrel
  subst habs
  obtain ⟨t₁, t₂, hreach, hrel₁, hanswer, hrel₂⟩ := ref.exists_answer ht hstep
  exact .inr ⟨t₁, l, t₂, hreach, hrel₁, hanswer, .inl rfl, hrel₂⟩

theorem transfers_flip : Transfers stepC stepA hidden (flip ref.Related) := by
  intro t s hrel l t' hstep
  obtain ⟨ht, habs⟩ := hrel
  have hI' := ref.keeps t l t' ht hstep
  by_cases hl : hidden l
  · refine .inl ⟨hl, hI', ?_⟩
    rw [(ref.stutters t l t' ht hstep hl).1]
    exact habs
  · subst habs
    exact .inr ⟨_, l, _, Relation.ReflTransGen.refl, ⟨ht, rfl⟩, ref.answers t l t' ht hstep hl,
      .inl rfl, hI', rfl⟩

/-- A refinement is a divergence-preserving branching bisimulation.  Neither
system has an infinite hidden run at a related state. -/
theorem branchingBisimulation : BranchingBisimulation stepA stepC hidden ref.Related where
  forth := ref.transfers
  back := ref.transfers_flip
  divergesForth := by
    intro s t hrel run hzero hrun _
    obtain ⟨ht, habs⟩ := hrel
    obtain ⟨l, hl, hstep⟩ := hrun 0
    rw [hzero, ← habs] at hstep
    exact absurd hl (ref.visible t l _ ht hstep)
  divergesBack := by
    intro t s _ run _ hrun hrel
    have hfalls : ∀ u u', ref.invariant u → Internal stepC hidden u u' →
        ref.rank u' < ref.rank u := by
      intro u u' hu hint
      obtain ⟨l, hl, hstep⟩ := hint
      exact (ref.stutters u l u' hu hstep hl).2
    exact (not_diverges hfalls (fun n => (hrel n).1) hrun).elim

end Refinement

end Raes.Lts
