import Raes.Satisfiability.SolverChecks

/-!
# Canonical witnesses and cores

The greedy witness takes for each symbol the first index that leaves an assignment
feasible, so it is least in the lexicographic order.  The reduction of the core keeps
it unsatisfiable and drops every clause whose removal leaves it so.  Each of the two
asks at most as often as the budget allows for.
-/

namespace Raes.Satisfiability

open Stateful NormalizedConstraintModel

variable {clock : Clock} {solver : Solver} {model : NormalizedConstraintModel} {limit : ℕ}

theorem feasible_nil_iff {ids : List String} : Feasible model ids [] ↔ model.Satisfiable ids := by
  constructor
  · rintro ⟨σ, hσ, -⟩
    exact ⟨σ, hσ⟩
  · rintro ⟨σ, hσ⟩
    exact ⟨σ, hσ, fun f hf => absurd hf List.not_mem_nil⟩

theorem fixedInDomain_append {fixed : List (String × ℕ)} (hfixed : FixedInDomain model fixed)
    {symbol : ConstraintSymbol} (hsymbol : symbol ∈ model.symbols) {i : ℕ}
    (hi : i < symbol.domain.length) : FixedInDomain model (fixed ++ [(symbol.symbolId, i)]) := by
  intro f hf
  rcases List.mem_append.mp hf with hf | hf
  · exact hfixed f hf
  · rw [List.mem_singleton.mp hf]
    exact ⟨symbol, hsymbol, rfl, hi⟩

/-! ## The witness -/

/-- What the search through the members of a domain finds. -/
structure Selected (model : NormalizedConstraintModel) (ids : List String)
    (fixed : List (String × ℕ)) (symbolId : String) (members : List (Scalar × ℕ))
    (found : ℕ × Scalar) : Prop where
  mem : (found.2, found.1) ∈ members
  feasible : Feasible model ids (fixed ++ [(symbolId, found.1)])
  first : ∀ m ∈ members, m.2 < found.1 → ¬ Feasible model ids (fixed ++ [(symbolId, m.2)])

/-- Where some member is feasible the search finds the first, with one check for each
member that it looks at. -/
theorem selectMember_spends (hsolver : SolverCorrect model solver) {ids : List String}
    {fixed : List (String × ℕ)} {symbolId : String} :
    ∀ members : List (Scalar × ℕ),
      (members.map Prod.snd).Pairwise (· < ·) →
      (∀ m ∈ members, FixedInDomain model (fixed ++ [(symbolId, m.2)])) →
      (∃ m ∈ members, Feasible model ids (fixed ++ [(symbolId, m.2)])) →
      Spends limit (selectMember clock solver ids fixed symbolId members) members.length
        (Selected model ids fixed symbolId members) := by
  intro members
  induction members with
  | nil =>
    intro _ _ hsome
    obtain ⟨m, hm, -⟩ := hsome
    exact absurd hm List.not_mem_nil
  | cons member rest ih =>
    intro horder hfixed hsome
    obtain ⟨value, index⟩ := member
    rw [List.map_cons, List.pairwise_cons] at horder
    obtain ⟨hless, horder⟩ := horder
    rw [selectMember, List.length_cons, Nat.add_comm]
    refine (check_spends hsolver (hfixed (value, index) List.mem_cons_self) _).bind
      fun answer hanswer => ?_
    cases answer with
    | true =>
      refine (Spends.pure_ (index, value) ?_).weaken (Nat.zero_le _) fun _ h => h
      refine ⟨List.mem_cons_self, hanswer.mp rfl, ?_⟩
      intro m hm hlt
      rcases List.mem_cons.mp hm with rfl | hm
      · exact absurd hlt (Nat.lt_irrefl index)
      · have := hless m.2 (List.mem_map.mpr ⟨m, hm, rfl⟩)
        exact absurd hlt (by show ¬ m.2 < index; omega)
    | false =>
      have hnot : ¬ Feasible model ids (fixed ++ [(symbolId, index)]) :=
        fun h => absurd (hanswer.mpr h) (by decide)
      have hsome' : ∃ m ∈ rest, Feasible model ids (fixed ++ [(symbolId, m.2)]) := by
        obtain ⟨m, hm, hfeasible⟩ := hsome
        rcases List.mem_cons.mp hm with rfl | hm
        · exact absurd hfeasible hnot
        · exact ⟨m, hm, hfeasible⟩
      refine (ih horder (fun m hm => hfixed m (List.mem_cons_of_mem _ hm)) hsome').weaken
        (Nat.le_refl _) fun found hfound => ?_
      refine ⟨List.mem_cons_of_mem _ hfound.mem, hfound.feasible, ?_⟩
      intro m hm hlt
      rcases List.mem_cons.mp hm with rfl | hm
      · exact hnot
      · exact hfound.first m hm hlt

def recordValue (σ : Assignment) (assignment : Dict String Scalar) (symbol : ConstraintSymbol) :
    Dict String Scalar :=
  (valueOf σ symbol).elim assignment fun value => assignment.set symbol.variable_ value

def witnessOf (model : NormalizedConstraintModel) (σ : Assignment) : Dict String Scalar :=
  model.symbols.foldl (recordValue σ) Dict.empty

/-- What the selection makes of the symbols that are left. -/
structure Witness (model : NormalizedConstraintModel) (ids : List String)
    (fixed : List (String × ℕ)) (rest : List ConstraintSymbol) (σ : Assignment) : Prop where
  satisfies : model.Satisfies σ ids
  agrees : Agrees σ fixed
  least : ∀ τ, model.Satisfies τ ids → Agrees τ fixed →
    (rest.map fun symbol => σ symbol.symbolId) ≤ rest.map fun symbol => τ symbol.symbolId

theorem Witness.cons {ids : List String} {fixed : List (String × ℕ)}
    {rest : List ConstraintSymbol} {symbol : ConstraintSymbol} {σ : Assignment} {i : ℕ}
    (hfirst : ∀ j < i, ¬ Feasible model ids (fixed ++ [(symbol.symbolId, j)]))
    (h : Witness model ids (fixed ++ [(symbol.symbolId, i)]) rest σ) :
    Witness model ids fixed (symbol :: rest) σ := by
  obtain ⟨hagrees, hindex⟩ := (agrees_append σ fixed symbol.symbolId i).mp h.agrees
  refine ⟨h.satisfies, hagrees, ?_⟩
  intro τ hτ hτfixed
  rw [List.map_cons, List.map_cons, hindex]
  rcases Nat.lt_trichotomy i (τ symbol.symbolId) with hlt | heq | hgt
  · exact le_of_lt (List.Lex.rel hlt)
  · have hrest := h.least τ hτ
      ((agrees_append τ fixed symbol.symbolId i).mpr ⟨hτfixed, heq.symm⟩)
    rw [← heq]
    exact List.cons_le_cons i hrest
  · refine absurd ⟨τ, hτ, ?_⟩ (hfirst _ hgt)
    exact (agrees_append τ fixed symbol.symbolId _).mpr ⟨hτfixed, rfl⟩

/-- The selection finds a least assignment, with a check for each member of a domain
at most. -/
theorem selectWitness_spends (hsolver : SolverCorrect model solver) {ids : List String} :
    ∀ (rest : List ConstraintSymbol) (fixed : List (String × ℕ))
      (assignment : Dict String Scalar),
      (∀ symbol ∈ rest, symbol ∈ model.symbols) → FixedInDomain model fixed →
      Feasible model ids fixed →
      Spends limit (selectWitness clock solver ids rest fixed assignment)
        (rest.map fun symbol => symbol.domain.length).sum
        fun result => ∃ σ, Witness model ids fixed rest σ ∧
          result = rest.foldl (recordValue σ) assignment := by
  intro rest
  induction rest with
  | nil =>
    intro fixed assignment _ _ hfeasible
    obtain ⟨σ, hσ, hagrees⟩ := hfeasible
    exact Spends.pure_ assignment ⟨σ, ⟨hσ, hagrees, fun _ _ _ => le_refl _⟩, rfl⟩
  | cons symbol rest ih =>
    intro fixed assignment hrest hfixed hfeasible
    have hsymbol := hrest symbol List.mem_cons_self
    have horder : (symbol.domain.zipIdx.map Prod.snd).Pairwise (· < ·) := by
      rw [List.zipIdx_map_snd]
      exact List.pairwise_lt_range'
    have hmembers : ∀ m ∈ symbol.domain.zipIdx,
        FixedInDomain model (fixed ++ [(symbol.symbolId, m.2)]) := by
      intro m hm
      exact fixedInDomain_append hfixed hsymbol
        (List.getElem?_eq_some_iff.mp (List.mem_zipIdx_iff_getElem?.mp hm)).1
    have hsome : ∃ m ∈ symbol.domain.zipIdx,
        Feasible model ids (fixed ++ [(symbol.symbolId, m.2)]) := by
      obtain ⟨σ, hσ, hagrees⟩ := hfeasible
      have hlt := hσ.inDomain symbol hsymbol
      refine ⟨(symbol.domain[σ symbol.symbolId], σ symbol.symbolId), ?_, σ, hσ, ?_⟩
      · exact List.mem_zipIdx_iff_getElem?.mpr (List.getElem?_eq_getElem hlt)
      · exact (agrees_append σ fixed symbol.symbolId _).mpr ⟨hagrees, rfl⟩
    have hselect := @selectMember_spends clock _ _ limit hsolver _ _ _
      symbol.domain.zipIdx horder hmembers hsome
    rw [List.length_zipIdx] at hselect
    rw [selectWitness, List.map_cons, List.sum_cons]
    refine hselect.bind fun found hfound => ?_
    obtain ⟨index, value⟩ := found
    have hget : symbol.domain[index]? = some value :=
      List.mem_zipIdx_iff_getElem?.mp hfound.mem
    have hlt : index < symbol.domain.length := (List.getElem?_eq_some_iff.mp hget).1
    refine (ih (fixed ++ [(symbol.symbolId, index)]) (assignment.set symbol.variable_ value)
      (fun s hs => hrest s (List.mem_cons_of_mem _ hs))
      (fixedInDomain_append hfixed hsymbol hlt) hfound.feasible).weaken
        (Nat.le_refl _) fun result hresult => ?_
    obtain ⟨σ, hσ, hfold⟩ := hresult
    have hfirst : ∀ j < index, ¬ Feasible model ids (fixed ++ [(symbol.symbolId, j)]) := by
      intro j hj
      have hmem : (symbol.domain[j], j) ∈ symbol.domain.zipIdx :=
        List.mem_zipIdx_iff_getElem?.mpr (List.getElem?_eq_getElem (by omega))
      exact hfound.first _ hmem hj
    refine ⟨σ, hσ.cons hfirst, ?_⟩
    have hindex : σ symbol.symbolId = index :=
      ((agrees_append σ fixed symbol.symbolId index).mp hσ.agrees).2
    have hvalue : valueOf σ symbol = some value := by rw [valueOf, hindex, hget]
    rw [hfold, List.foldl_cons, recordValue, hvalue]
    rfl

theorem get?_foldl_recordValue (σ : Assignment) :
    ∀ (symbols : List ConstraintSymbol) (assignment : Dict String Scalar) (variable_ : String),
      variable_ ∉ symbols.map (·.variable_) →
      (symbols.foldl (recordValue σ) assignment).get? variable_ = assignment.get? variable_ := by
  intro symbols
  induction symbols with
  | nil => intro assignment _ _; rfl
  | cons symbol rest ih =>
    intro assignment variable_ hnot
    rw [List.map_cons, List.mem_cons, not_or] at hnot
    rw [List.foldl_cons, ih _ _ hnot.2, recordValue]
    cases valueOf σ symbol with
    | none => rfl
    | some value => exact Dict.get?_set_ne assignment value hnot.1

theorem get?_foldl_recordValue_of_mem (σ : Assignment) :
    ∀ (symbols : List ConstraintSymbol) (assignment : Dict String Scalar),
      (symbols.map (·.variable_)).Nodup →
      (∀ symbol ∈ symbols, (valueOf σ symbol).isSome) →
      ∀ symbol ∈ symbols,
        (symbols.foldl (recordValue σ) assignment).get? symbol.variable_ = valueOf σ symbol := by
  intro symbols
  induction symbols with
  | nil => intro _ _ _ symbol hsymbol; exact absurd hsymbol List.not_mem_nil
  | cons head rest ih =>
    intro assignment hnodup hsome symbol hsymbol
    rw [List.map_cons, List.nodup_cons] at hnodup
    rw [List.foldl_cons]
    rcases List.mem_cons.mp hsymbol with heq | hsymbol
    · obtain ⟨value, hvalue⟩ := Option.isSome_iff_exists.mp (hsome head List.mem_cons_self)
      rw [heq, get?_foldl_recordValue σ rest _ _ hnodup.1, recordValue, hvalue]
      exact Dict.get?_set_self assignment head.variable_ value
    · exact ih _ hnodup.2 (fun s hs => hsome s (List.mem_cons_of_mem _ hs)) symbol hsymbol

/-! ## The core -/

/-- The reduction keeps the core unsatisfiable, and a clause that it has been past is
one that the core needs. -/
theorem reduceCore_spends (hsolver : SolverCorrect model solver) :
    ∀ rest core : List String, ¬ model.Satisfiable core →
      (∀ id ∈ core, id ∈ rest ∨ model.Satisfiable (core.filter (· ≠ id))) →
      Spends limit (reduceCore clock solver rest core) rest.length
        fun result => (∀ id ∈ result, id ∈ core) ∧ ¬ model.Satisfiable result ∧
          ∀ id ∈ result, model.Satisfiable (result.filter (· ≠ id)) := by
  intro rest
  induction rest with
  | nil =>
    intro core hunsat hneeded
    refine Spends.pure_ core ⟨fun _ hid => hid, hunsat, ?_⟩
    intro id hid
    exact (hneeded id hid).resolve_left List.not_mem_nil
  | cons clauseId rest ih =>
    intro core hunsat hneeded
    rw [reduceCore, List.length_cons, Nat.add_comm]
    refine (check_spends hsolver (fun f hf => absurd hf List.not_mem_nil) _).bind
      fun answer hanswer => ?_
    rw [feasible_nil_iff] at hanswer
    cases answer with
    | true =>
      refine ih core hunsat ?_
      intro id hid
      rcases hneeded id hid with hmem | hsat
      · rcases List.mem_cons.mp hmem with heq | hmem
        · rw [heq]
          exact Or.inr (hanswer.mp rfl)
        · exact Or.inl hmem
      · exact Or.inr hsat
    | false =>
      have hunsat' : ¬ model.Satisfiable (core.filter fun item => item ≠ clauseId) :=
        fun h => absurd (hanswer.mpr h) (by decide)
      refine (ih _ hunsat' ?_).weaken (Nat.le_refl _) fun result hresult => ?_
      · intro id hid
        obtain ⟨hcore, hne⟩ := List.mem_filter.mp hid
        have hne : id ≠ clauseId := by simpa using hne
        rcases hneeded id hcore with hmem | hsat
        · exact Or.inl ((List.mem_cons.mp hmem).resolve_left hne)
        · refine Or.inr (hsat.mono ?_)
          intro other hother
          obtain ⟨hin, hother⟩ := List.mem_filter.mp hother
          exact List.mem_filter.mpr ⟨(List.mem_filter.mp hin).1, hother⟩
      · obtain ⟨hsub, hresult⟩ := hresult
        exact ⟨fun id hid => (List.mem_filter.mp (hsub id hid)).1, hresult⟩

/-! ## The result -/

def ResultCorrect (model : NormalizedConstraintModel) : SolverResult → Prop
  | .satisfiable assignment => ∃ σ, model.IsLeast σ ∧ assignment = witnessOf model σ
  | .unsatisfiable core => model.IsIrreducibleCore core

theorem isIrreducibleCore_sortBy {core : List String} (hsub : ∀ id ∈ core, id ∈ model.clauseIds)
    (hunsat : ¬ model.Satisfiable core)
    (hneeded : ∀ id ∈ core, model.Satisfiable (core.filter (· ≠ id))) :
    model.IsIrreducibleCore (sortBy id core) := by
  have hmem : ∀ i, i ∈ sortBy id core ↔ i ∈ core := fun i => (sortBy_perm id core).mem_iff
  refine ⟨fun i hi => hsub i ((hmem i).mp hi), ?_, ?_⟩
  · intro hsat
    exact hunsat (hsat.mono fun i hi => (hmem i).mpr hi)
  · intro i hi
    refine (hneeded i ((hmem i).mp hi)).mono ?_
    intro j hj
    obtain ⟨hj, hne⟩ := List.mem_filter.mp hj
    exact List.mem_filter.mpr ⟨(hmem j).mp hj, hne⟩

theorem selectResult_spends (hsolver : SolverCorrect model solver) (feasible : Bool)
    (hfeasible : feasible = true ↔ model.Satisfiable model.clauseIds) :
    Spends limit (selectResult clock solver model feasible)
      (max ((model.symbols.map fun symbol => symbol.domain.length).sum) model.clauses.length)
      (ResultCorrect model) := by
  cases feasible with
  | true =>
    have hstart : Feasible model model.clauseIds [] :=
      feasible_nil_iff.mpr (hfeasible.mp rfl)
    have hwitness := @selectWitness_spends clock _ _ limit hsolver _
      model.symbols [] Dict.empty (fun _ h => h) (fun f hf => absurd hf List.not_mem_nil) hstart
    rw [selectResult]
    refine (hwitness.bind fun assignment hassignment => ?_).weaken
      (by rw [Nat.add_zero]; exact Nat.le_max_left _ _) fun _ h => h
    obtain ⟨σ, hσ, hfold⟩ := hassignment
    refine Spends.pure_ _ ⟨σ, ⟨hσ.satisfies, ?_⟩, hfold⟩
    intro τ hτ
    exact hσ.least τ hτ fun f hf => absurd hf List.not_mem_nil
  | false =>
    have hunsat : ¬ model.Satisfiable model.clauseIds :=
      fun h => absurd (hfeasible.mpr h) (by decide)
    have hcore := @reduceCore_spends clock _ _ limit hsolver
      model.clauseIds model.clauseIds hunsat fun _ hid => Or.inl hid
    rw [clauseIds, List.length_map] at hcore
    rw [selectResult]
    refine (hcore.bind fun core hcore => ?_).weaken
      (by rw [Nat.add_zero]; exact Nat.le_max_right _ _) fun _ h => h
    obtain ⟨hsub, hunsat, hneeded⟩ := hcore
    exact Spends.pure_ _ (isIrreducibleCore_sortBy hsub hunsat hneeded)

theorem solveModelM_spends (hsolver : SolverCorrect model solver) :
    Spends limit (solveModelM clock solver model) (solverCheckBudget model)
      (ResultCorrect model) := by
  have hunique : Spends limit (requireUniqueClauseIds model) 0 fun _ => True := by
    rw [requireUniqueClauseIds, if_pos clauseIds_nodup]
    exact Spends.pure_ _ trivial
  unfold solveModelM
  refine hunique.bindFree fun _ _ => Spends.look fun budget =>
    (checkpoint_spends _ _).bindFree fun _ _ => (startSession_spends model).bindFree fun _ _ => ?_
  refine (check_spends hsolver (fun f hf => absurd hf List.not_mem_nil) _).bind
    fun feasible hfeasible => ?_
  rw [feasible_nil_iff] at hfeasible
  rw [← Nat.add_zero (max _ _)]
  refine (selectResult_spends hsolver feasible hfeasible).bind fun result hresult => ?_
  exact Spends.look fun budget => (checkpoint_spends _ _).bindFree fun _ _ =>
    Spends.pure_ result hresult

/-- A reported witness is the least satisfying assignment, a reported core is
irreducible, and the budget of checks is never exhausted. -/
theorem solveModel_canonical (model : NormalizedConstraintModel) (clock : Clock)
    (solver : Solver) (hsolver : SolverCorrect model solver) :
    (∀ assignment, (solveModel clock solver model).1 = .ok (.satisfiable assignment) →
      ∃ σ, model.IsLeast σ ∧ assignment = witnessOf model σ ∧
        ((model.symbols.map (·.variable_)).Nodup →
          ∀ symbol ∈ model.symbols, assignment.get? symbol.variable_ = valueOf σ symbol)) ∧
    (∀ core, (solveModel clock solver model).1 = .ok (.unsatisfiable core) →
      model.IsIrreducibleCore core) ∧
    (∀ e, (solveModel clock solver model).1 = .error e →
      e.message ≠ budgetExhausted ∧ e.message ≠ selectionFailed) ∧
    (solveModel clock solver model).2.checksUsed ≤ solverCheckBudget model := by
  have hrun := @solveModelM_spends clock _ _ (solverCheckBudget model) hsolver 0
    (by omega) (startBudget clock model) ⟨rfl, Nat.le_refl 0⟩
  rw [solveModel]
  rcases hexec : exec (solveModelM clock solver model) (startBudget clock model) with ⟨r, t⟩
  rw [hexec] at hrun
  cases r with
  | error e =>
    obtain ⟨hbudget, hselection, -, hused⟩ := hrun
    refine ⟨fun _ h => ?_, fun _ h => ?_, fun e' h => ?_, hused⟩
    · exact absurd h (by simp)
    · exact absurd h (by simp)
    · rw [← Except.error.inj h]
      exact ⟨hbudget, hselection⟩
  | ok result =>
    obtain ⟨hcorrect, -, hused⟩ := hrun
    rw [Nat.zero_add] at hused
    refine ⟨fun assignment h => ?_, fun core h => ?_, fun e h => absurd h (by simp), hused⟩
    · rw [Except.ok.inj h] at hcorrect
      obtain ⟨σ, hσ, hassignment⟩ := hcorrect
      refine ⟨σ, hσ, hassignment, fun hvariables symbol hsymbol => ?_⟩
      rw [hassignment, witnessOf]
      refine get?_foldl_recordValue_of_mem σ _ _ hvariables (fun s hs => ?_) symbol hsymbol
      rw [valueOf, Option.isSome_iff_exists]
      exact ⟨_, List.getElem?_eq_getElem (hσ.satisfies.inDomain s hs)⟩
    · rw [Except.ok.inj h] at hcorrect
      exact hcorrect

/-- A symbol with two members, and a clause that allows the second. -/
def oneSymbolModel : NormalizedConstraintModel where
  symbols := [⟨"symbol:role", "role", [.str "client", .str "server"], by decide⟩]
  clauses := [⟨"target:role", "symbol:role", [.str "server"]⟩]
  symbolOrder := by decide
  clauseOrder := by decide
  declared := by decide

/-- A solver of the checks that this model gives rise to. -/
def oneSymbolSolver : Solver := fun _ _ assumptions =>
  if assumptions = [.tracker "target:role"] then .sat
  else if assumptions = [.tracker "target:role", .fixed "symbol:role" 0] then .unsat
  else if assumptions = [.tracker "target:role", .fixed "symbol:role" 1] then .sat
  else .unknown "not asked"

theorem oneSymbolSolver_correct : SolverCorrect oneSymbolModel oneSymbolSolver := by
  have hassertions : (assertionsOf oneSymbolModel).map (fun a => (a.tracker, a.symbolId, a.indexes))
      = [("target:role", "symbol:role", [1])] := by decide
  have hmodels : (⟨fun _ => 1, fun _ => true⟩ : Interpretation).Models
      (assertionsOf oneSymbolModel) := by
    intro a ha _
    have hmem := List.mem_map_of_mem (f := fun a : Assertion => (a.tracker, a.symbolId, a.indexes)) ha
    rw [hassertions, List.mem_singleton, Prod.mk.injEq, Prod.mk.injEq] at hmem
    exact ⟨1, by rw [hmem.2.2]; decide, rfl⟩
  intro checkCount timeoutMs assumptions
  constructor
  · intro h
    have hasked : assumptions = [.tracker "target:role"] ∨
        assumptions = [.tracker "target:role", .fixed "symbol:role" 1] := by
      unfold oneSymbolSolver at h
      split_ifs at h with h₁ h₂ h₃
      · exact Or.inl h₁
      · exact Or.inr h₃
    refine ⟨⟨fun _ => 1, fun _ => true⟩, hmodels, ?_⟩
    rcases hasked with rfl | rfl
    · simp [Interpretation.Assumes]
    · simp [Interpretation.Assumes]
  · intro h
    have hasked : assumptions = [.tracker "target:role", .fixed "symbol:role" 0] := by
      unfold oneSymbolSolver at h
      split_ifs at h with h₁ h₂
      exact h₂
    rintro ⟨I, hI, hassumed⟩
    rw [hasked] at hassumed
    have htracked : I.tracked "target:role" = true :=
      hassumed (.tracker "target:role") (by decide)
    have hzero : I.index "symbol:role" = 0 := hassumed (.fixed "symbol:role" 0) (by decide)
    obtain ⟨i, hi, hindex⟩ := hI ⟨"target:role", "symbol:role", [1]⟩
      (by show _ ∈ [clauseAssertion oneSymbolModel ⟨"target:role", "symbol:role", [.str "server"]⟩]
          exact List.mem_singleton.mpr rfl) htracked
    rw [List.mem_singleton.mp hi] at hindex
    exact absurd (hzero.symm.trans hindex) (by decide)

theorem solveModel_canonical_oneSymbol :
    (solveModel id oneSymbolSolver oneSymbolModel).2.checksUsed ≤
        solverCheckBudget oneSymbolModel ∧
      ∃ σ, oneSymbolModel.IsLeast σ ∧ some (.str "server") =
        valueOf σ ⟨"symbol:role", "role", [.str "client", .str "server"], by decide⟩ := by
  obtain ⟨hsat, -, -, hused⟩ :=
    solveModel_canonical oneSymbolModel id oneSymbolSolver oneSymbolSolver_correct
  refine ⟨hused, ?_⟩
  obtain ⟨σ, hσ, -, hvalue⟩ := hsat (Dict.empty.set "role" (.str "server")) (by decide +kernel)
  refine ⟨σ, hσ, ?_⟩
  exact hvalue (by decide) _ (List.mem_singleton.mpr rfl)

end Raes.Satisfiability
