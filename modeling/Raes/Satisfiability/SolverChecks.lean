import Raes.Satisfiability.Solver

/-!
# What a check says

The solver is correct when it answers about interpretations of what was asserted:
integers for the symbols and truth values for the trackers.  A correct check is a
statement about assignments to the domains, because a tracked clause bounds its symbol
and a symbol without a bound may take the first member of its domain.
-/

namespace Raes.Satisfiability

open Stateful NormalizedConstraintModel

variable {clock : Clock} {solver : Solver} {model : NormalizedConstraintModel}

/-! ## A correct solver -/

structure Interpretation where
  index : String → ℤ
  tracked : String → Bool

variable (I : Interpretation)

def Interpretation.Models (assertions : List Assertion) : Prop :=
  ∀ a ∈ assertions, I.tracked a.tracker = true → ∃ i ∈ a.indexes, I.index a.symbolId = (i : ℤ)

def Interpretation.Assumes (I : Interpretation) : Assumption → Prop
  | .tracker clauseId => I.tracked clauseId = true
  | .fixed symbolId index => I.index symbolId = (index : ℤ)

def Consistent (assertions : List Assertion) (assumptions : List Assumption) : Prop :=
  ∃ I : Interpretation, I.Models assertions ∧ ∀ a ∈ assumptions, I.Assumes a

def assertionsOf (model : NormalizedConstraintModel) : List Assertion :=
  model.clauses.map (clauseAssertion model)

/-- The solver's `sat` and `unsat` are right about the session of a model. -/
def SolverCorrect (model : NormalizedConstraintModel) (solver : Solver) : Prop :=
  ∀ checkCount timeoutMs assumptions,
    (solver checkCount timeoutMs assumptions = .sat →
      Consistent (assertionsOf model) assumptions) ∧
    (solver checkCount timeoutMs assumptions = .unsat →
      ¬ Consistent (assertionsOf model) assumptions)

/-! ## Assignments and interpretations -/

def Agrees (σ : Assignment) (fixed : List (String × ℕ)) : Prop := ∀ f ∈ fixed, σ f.1 = f.2

/-- Some assignment meets the clauses and takes the fixed indexes. -/
def Feasible (model : NormalizedConstraintModel) (ids : List String) (fixed : List (String × ℕ)) :
    Prop :=
  ∃ σ, model.Satisfies σ ids ∧ Agrees σ fixed

def FixedInDomain (model : NormalizedConstraintModel) (fixed : List (String × ℕ)) : Prop :=
  ∀ f ∈ fixed, ∃ symbol ∈ model.symbols, symbol.symbolId = f.1 ∧ f.2 < symbol.domain.length

theorem agrees_append (σ : Assignment) (fixed : List (String × ℕ)) (symbolId : String) (i : ℕ) :
    Agrees σ (fixed ++ [(symbolId, i)]) ↔ Agrees σ fixed ∧ σ symbolId = i := by
  unfold Agrees
  rw [List.forall_mem_append]
  simp

theorem mem_allowedIndexes (domain allowedValues : List Scalar) (i : ℕ) :
    i ∈ allowedIndexes domain allowedValues ↔
      ∃ value, domain[i]? = some value ∧ value ∈ allowedValues := by
  unfold allowedIndexes
  rw [List.mem_map]
  constructor
  · rintro ⟨⟨value, j⟩, hmem, rfl⟩
    obtain ⟨hzip, hallowed⟩ := List.mem_filter.mp hmem
    exact ⟨value, List.mem_zipIdx_iff_getElem?.mp hzip, by simpa using hallowed⟩
  · rintro ⟨value, hget, hallowed⟩
    exact ⟨(value, i), List.mem_filter.mpr ⟨List.mem_zipIdx_iff_getElem?.mpr hget,
      by simpa using hallowed⟩, rfl⟩

variable {symbol : ConstraintSymbol}

theorem find?_symbol (h : symbol ∈ model.symbols) :
    (model.symbols.find? fun s => s.symbolId = symbol.symbolId) = some symbol := by
  cases hfind : model.symbols.find? fun s => s.symbolId = symbol.symbolId with
  | none =>
    have hnone := List.find?_eq_none.mp hfind symbol h
    simp at hnone
  | some found =>
    have hid : found.symbolId = symbol.symbolId := by simpa using List.find?_some hfind
    rw [symbol_eq (List.mem_of_find?_eq_some hfind) h hid]

theorem clauseDomain_eq {clause : ConstraintClause} (h : symbol ∈ model.symbols)
    (hid : symbol.symbolId = clause.symbolId) : clauseDomain model clause = symbol.domain := by
  rw [clauseDomain, ← hid, find?_symbol h]
  rfl

def indexIn (symbol : ConstraintSymbol) : ℕ :=
  if 0 ≤ I.index symbol.symbolId ∧ (I.index symbol.symbolId).toNat < symbol.domain.length then
    (I.index symbol.symbolId).toNat
  else 0

theorem indexIn_lt (symbol : ConstraintSymbol) : indexIn I symbol < symbol.domain.length := by
  unfold indexIn
  split
  · rename_i h
    exact h.2
  · exact List.length_pos_iff.mpr symbol.nonempty

theorem indexIn_eq {I : Interpretation} {i : ℕ}
    (h : I.index symbol.symbolId = (i : ℤ)) (hi : i < symbol.domain.length) :
    indexIn I symbol = i := by
  unfold indexIn
  rw [h]
  simp [hi]

theorem consistent_iff_feasible {ids : List String} {fixed : List (String × ℕ)}
    (hfixed : FixedInDomain model fixed) :
    Consistent (assertionsOf model) (assumptionsOf ids fixed) ↔ Feasible model ids fixed := by
  constructor
  · rintro ⟨I, hmodels, hassumes⟩
    have hindex : ∀ id, ∃ i, ∀ symbol ∈ model.symbols, symbol.symbolId = id →
        i = indexIn I symbol := by
      intro id
      by_cases hid : ∃ symbol ∈ model.symbols, symbol.symbolId = id
      · obtain ⟨symbol, hsymbol, hsid⟩ := hid
        refine ⟨indexIn I symbol, ?_⟩
        intro other hother hoid
        rw [symbol_eq hsymbol hother (hsid.trans hoid.symm)]
      · exact ⟨0, fun symbol hsymbol hsid => absurd ⟨symbol, hsymbol, hsid⟩ hid⟩
    choose σ hσ using hindex
    have hvalue : ∀ symbol ∈ model.symbols, σ symbol.symbolId = indexIn I symbol :=
      fun symbol hsymbol => hσ symbol.symbolId symbol hsymbol rfl
    refine ⟨σ, ⟨?_, ?_⟩, ?_⟩
    · intro symbol hsymbol
      rw [hvalue symbol hsymbol]
      exact indexIn_lt I symbol
    · intro clause hclause hid
      obtain ⟨symbol, hsymbol, hsid⟩ := model.declared clause hclause
      have htracked : I.tracked clause.clauseId = true :=
        hassumes (.tracker clause.clauseId)
          (List.mem_append_left _ (List.mem_map.mpr ⟨clause.clauseId, hid, rfl⟩))
      obtain ⟨i, hi, hindexed⟩ := hmodels (clauseAssertion model clause)
        (List.mem_map.mpr ⟨clause, hclause, rfl⟩) htracked
      rw [clauseAssertion, clauseDomain_eq hsymbol hsid] at hi
      obtain ⟨value, hget, hallowed⟩ := (mem_allowedIndexes _ _ _).mp hi
      have hlt : i < symbol.domain.length := (List.getElem?_eq_some_iff.mp hget).1
      refine ⟨symbol, hsymbol, hsid, value, ?_, hallowed⟩
      rw [valueOf, hvalue symbol hsymbol, indexIn_eq (by rw [hsid]; exact hindexed) hlt]
      exact hget
    · intro f hf
      obtain ⟨symbol, hsymbol, hsid, hlt⟩ := hfixed f hf
      have hassumed : I.index f.1 = (f.2 : ℤ) :=
        hassumes (.fixed f.1 f.2) (List.mem_append_right _ (List.mem_map.mpr ⟨f, hf, rfl⟩))
      rw [← hsid, hvalue symbol hsymbol]
      exact indexIn_eq (by rw [hsid]; exact hassumed) hlt
  · rintro ⟨σ, hsatisfies, hagrees⟩
    refine ⟨⟨fun id => (σ id : ℤ), fun id => ids.contains id⟩, ?_, ?_⟩
    · intro a ha htracked
      obtain ⟨clause, hclause, rfl⟩ := List.mem_map.mp ha
      have hid : clause.clauseId ∈ ids := List.contains_iff_mem.mp htracked
      obtain ⟨symbol, hsymbol, hsid, value, hget, hallowed⟩ :=
        hsatisfies.meets clause hclause hid
      refine ⟨σ clause.symbolId, ?_, rfl⟩
      rw [clauseAssertion, clauseDomain_eq hsymbol hsid, mem_allowedIndexes]
      rw [valueOf, hsid] at hget
      exact ⟨value, hget, hallowed⟩
    · intro a ha
      rcases List.mem_append.mp ha with ha | ha
      · obtain ⟨id, hid, rfl⟩ := List.mem_map.mp ha
        show ids.contains id = true
        simpa using hid
      · obtain ⟨f, hf, rfl⟩ := List.mem_map.mp ha
        show (σ f.1 : ℤ) = (f.2 : ℤ)
        rw [hagrees f hf]

/-! ## Triples of the adapter -/

def Used (limit used : ℕ) (budget : CheckBudget) : Prop :=
  budget.maxChecks = limit ∧ budget.checksUsed ≤ used

/-- The adapter raised for another reason than its budget or the selection. -/
def Raised (limit : ℕ) (e : SolverOperationalError) (budget : CheckBudget) : Prop :=
  e.message ≠ budgetExhausted ∧ e.message ≠ selectionFailed ∧ Used limit limit budget

/-- A computation that uses at most `cost` checks and answers with `Q`. -/
def Spends {α : Type} (limit : ℕ) (m : SolverM α) (cost : ℕ) (Q : α → Prop) : Prop :=
  ∀ used, used + cost ≤ limit →
    Triple (Used limit used) m (fun a t => Q a ∧ Used limit (used + cost) t) (Raised limit)

namespace Spends

variable {α β : Type} {limit cost cost' : ℕ} {m : SolverM α} {Q Q' : α → Prop} {R : β → Prop}

theorem pure_ (a : α) (h : Q a) : Spends limit (pure a : SolverM α) 0 Q :=
  fun _ _ => Triple.pure_ a fun _ hs => ⟨h, hs⟩

theorem bind {f : α → SolverM β} (hm : Spends limit m cost Q)
    (hf : ∀ a, Q a → Spends limit (f a) cost' R) : Spends limit (m >>= f) (cost + cost') R := by
  intro used hused
  refine Triple.bind (hm used (by omega)) fun a => ?_
  intro s hs
  have hrest := hf a hs.1 (used + cost) (by omega) s hs.2
  rw [Nat.add_assoc] at hrest
  exact hrest

theorem throw_ (e : SolverOperationalError) (hbudget : e.message ≠ budgetExhausted)
    (hselection : e.message ≠ selectionFailed) : Spends limit (throw e : SolverM α) cost Q := by
  intro used hused s hs
  exact ⟨hbudget, hselection, hs.1, by have := hs.2; omega⟩

theorem bindFree {f : α → SolverM β} (hm : Spends limit m 0 Q)
    (hf : ∀ a, Q a → Spends limit (f a) cost R) : Spends limit (m >>= f) cost R := by
  have h := hm.bind hf
  rwa [Nat.zero_add] at h

theorem weaken (hm : Spends limit m cost Q) (hcost : cost ≤ cost') (himp : ∀ a, Q a → Q' a) :
    Spends limit m cost' Q' := by
  intro used hused
  refine (hm used (by omega)).consequence (fun _ hs => hs) fun a t ht => ?_
  exact ⟨himp a ht.1, ht.2.1, by have := ht.2.2; omega⟩

theorem forM {ι : Type} {f : ι → SolverM PUnit} (l : List ι)
    (h : ∀ i ∈ l, Spends limit (f i) 0 fun _ => True) :
    Spends limit (l.forM f) 0 fun _ => True := by
  induction l with
  | nil => exact pure_ PUnit.unit trivial
  | cons i rest ih =>
    exact (h i List.mem_cons_self).bindFree fun _ _ =>
      ih fun j hj => h j (List.mem_cons_of_mem i hj)

theorem look {f : CheckBudget → SolverM β} (hf : ∀ budget, Spends limit (f budget) cost R) :
    Spends limit (get >>= f) cost R := by
  intro used hused s hs
  rw [exec_get_bind]
  exact hf s used hused s hs

end Spends

variable {limit : ℕ}

theorem monotonicNs_spends : Spends limit (monotonicNs clock) 0 fun _ => True :=
  fun _ _ _ hs => ⟨trivial, hs⟩

theorem checkpoint_spends (phase : String) (checkCount : Option ℕ) :
    Spends limit (checkpoint clock phase checkCount) 0 fun _ => True := by
  unfold checkpoint
  refine monotonicNs_spends.bindFree fun now _ => Spends.look fun budget => ?_
  split
  · exact Spends.throw_ _ (by show "solver operation deadline exhausted" ≠ _; decide)
      (by show "solver operation deadline exhausted" ≠ _; decide)
  · exact Spends.pure_ _ trivial

theorem remainingTimeoutMs_spends (phase : String) (checkCount : ℕ) :
    Spends limit (remainingTimeoutMs clock phase checkCount) 0 fun _ => True := by
  have hlate : ∀ now, Spends limit (checkpointIfLate clock phase checkCount now) 0
      fun _ => True := by
    intro now
    unfold checkpointIfLate
    refine Spends.look fun budget => ?_
    split
    · exact checkpoint_spends phase _
    · exact Spends.pure_ _ trivial
  unfold remainingTimeoutMs
  refine monotonicNs_spends.bindFree fun now _ => (hlate now).bindFree fun _ _ => ?_
  exact Spends.look fun budget => Spends.pure_ _ trivial

theorem consume_spends (phase : String) : Spends limit (consume clock phase) 1 fun _ => True := by
  unfold consume
  intro used hused
  refine Triple.bind (checkpoint_spends phase none used (by omega)) fun _ => ?_
  rintro s ⟨-, hlimit, hle⟩
  have hroom : ¬ s.maxChecks ≤ s.checksUsed := by omega
  rw [exec_get_bind, if_neg hroom]
  exact ⟨trivial, hlimit, by show s.checksUsed + 1 ≤ used + 1; omega⟩

theorem startSession_spends (model : NormalizedConstraintModel) :
    Spends limit (startSession clock model) 0 fun _ => True := by
  have hlook : Spends limit (constructionCheckpoint clock) 0 fun _ => True :=
    Spends.look fun budget => checkpoint_spends _ _
  have hclause : ∀ clause, Spends limit (assertClause clock model clause) 0 fun _ => True := by
    intro clause
    exact (Spends.forM _ fun _ _ => hlook).bindFree fun _ _ =>
      hlook.bindFree fun _ _ => Spends.pure_ _ trivial
  have hclauses : ∀ clauses : List ConstraintClause,
      Spends limit (clauses.mapM (assertClause clock model)) 0 fun _ => True := by
    intro clauses
    induction clauses with
    | nil => exact Spends.pure_ _ trivial
    | cons clause rest ih =>
      rw [List.mapM_cons]
      exact (hclause clause).bindFree fun _ _ => ih.bindFree fun _ _ => Spends.pure_ _ trivial
  unfold startSession
  exact hlook.bindFree fun _ _ => (Spends.forM _ fun _ _ => hlook).bindFree fun _ _ =>
    (hclauses model.clauses).bindFree fun _ _ => hlook.bindFree fun _ _ => Spends.pure_ _ trivial

theorem check_spends (hsolver : SolverCorrect model solver) {ids : List String}
    {fixed : List (String × ℕ)} (hfixed : FixedInDomain model fixed) (phase : String) :
    Spends limit (check clock solver ids fixed phase) 1
      fun answer => answer = true ↔ Feasible model ids fixed := by
  unfold check
  show Spends limit _ (1 + 0) _
  refine (consume_spends phase).bind fun checkCount _ =>
    (remainingTimeoutMs_spends phase checkCount).bindFree fun timeoutMs _ =>
      (checkpoint_spends phase _).bindFree fun _ _ => ?_
  obtain ⟨hsat, hunsat⟩ := hsolver checkCount timeoutMs (assumptionsOf ids fixed)
  cases hresult : solver checkCount timeoutMs (assumptionsOf ids fixed) with
  | sat =>
    refine Spends.pure_ _ ⟨fun _ => ?_, fun _ => rfl⟩
    exact (consistent_iff_feasible hfixed).mp (hsat hresult)
  | unsat =>
    refine Spends.pure_ _ ⟨fun h => absurd h (by decide), fun h => ?_⟩
    exact absurd ((consistent_iff_feasible hfixed).mpr h) (hunsat hresult)
  | unknown reason =>
    refine Spends.look fun budget => ?_
    exact Spends.throw_ _ (by show "solver returned unknown" ≠ _; decide)
      (by show "solver returned unknown" ≠ _; decide)

end Raes.Satisfiability
