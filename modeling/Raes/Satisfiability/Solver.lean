import Mathlib.Data.String.Basic
import Raes.Lib.Dict
import Raes.Lib.SortBy
import Raes.Lib.Stateful

/-!
# Finite-domain constraint models

The normalized constraint models of `raes_processor/satisfiability/evidence.py`, and
what it means for an assignment to satisfy one.  An assignment gives each symbol the
index of a member of its domain.
-/

namespace Raes.Satisfiability

/-- A JSON scalar of a domain: a value equals another one of its own type only. -/
inductive Scalar where
  | str (value : String)
  | int (value : ℤ)
  | bool (value : Bool)
  deriving DecidableEq, Repr

structure ConstraintSymbol where
  (symbolId variable_ : String)
  domain : List Scalar
  nonempty : domain ≠ []

structure ConstraintClause where
  (clauseId symbolId : String)
  allowedValues : List Scalar
  deriving DecidableEq

/-- A normalized model: symbols and clauses in the order of their ids, every clause
about a declared symbol. -/
structure NormalizedConstraintModel where
  symbols : List ConstraintSymbol
  clauses : List ConstraintClause
  symbolOrder : (symbols.map (·.symbolId)).Pairwise (· < ·)
  clauseOrder : (clauses.map (·.clauseId)).Pairwise (· < ·)
  declared : ∀ clause ∈ clauses, ∃ symbol ∈ symbols, symbol.symbolId = clause.symbolId

namespace NormalizedConstraintModel

variable (model : NormalizedConstraintModel)

def clauseIds : List String := model.clauses.map (·.clauseId)

abbrev Assignment : Type := String → ℕ

def valueOf (σ : Assignment) (symbol : ConstraintSymbol) : Option Scalar :=
  symbol.domain[σ symbol.symbolId]?

def MeetsClause (σ : Assignment) (clause : ConstraintClause) : Prop :=
  ∃ symbol ∈ model.symbols, symbol.symbolId = clause.symbolId ∧
    ∃ value, valueOf σ symbol = some value ∧ value ∈ clause.allowedValues

/-- An assignment gives every symbol a member of its domain and meets the clauses
with these ids. -/
structure Satisfies (σ : Assignment) (ids : List String) : Prop where
  inDomain : ∀ symbol ∈ model.symbols, σ symbol.symbolId < symbol.domain.length
  meets : ∀ clause ∈ model.clauses, clause.clauseId ∈ ids → model.MeetsClause σ clause

def Satisfiable (ids : List String) : Prop := ∃ σ, model.Satisfies σ ids

def indexes (σ : Assignment) : List ℕ := model.symbols.map fun symbol => σ symbol.symbolId

/-- A satisfying assignment that is lexicographically least among all of them. -/
structure IsLeast (σ : Assignment) : Prop where
  satisfies : model.Satisfies σ model.clauseIds
  least : ∀ τ, model.Satisfies τ model.clauseIds → model.indexes σ ≤ model.indexes τ

/-- An unsatisfiable list of clauses from which none can be removed. -/
structure IsIrreducibleCore (core : List String) : Prop where
  subset : ∀ id ∈ core, id ∈ model.clauseIds
  unsatisfiable : ¬ model.Satisfiable core
  irreducible : ∀ id ∈ core, model.Satisfiable (core.filter (· ≠ id))

variable {model}

theorem Satisfies.mono {σ : Assignment} {ids ids' : List String} (h : model.Satisfies σ ids)
    (hsub : ∀ id ∈ ids', id ∈ ids) : model.Satisfies σ ids' :=
  ⟨h.inDomain, fun clause hclause hid => h.meets clause hclause (hsub _ hid)⟩

theorem Satisfiable.mono {ids ids' : List String} (h : model.Satisfiable ids)
    (hsub : ∀ id ∈ ids', id ∈ ids) : model.Satisfiable ids' := by
  obtain ⟨σ, hσ⟩ := h
  exact ⟨σ, hσ.mono hsub⟩

theorem symbolIds_nodup : (model.symbols.map (·.symbolId)).Nodup :=
  model.symbolOrder.imp ne_of_lt

theorem clauseIds_nodup : model.clauseIds.Nodup := model.clauseOrder.imp ne_of_lt

theorem symbol_eq {a b : ConstraintSymbol} (ha : a ∈ model.symbols) (hb : b ∈ model.symbols)
    (h : a.symbolId = b.symbolId) : a = b :=
  List.inj_on_of_nodup_map symbolIds_nodup ha hb h

end NormalizedConstraintModel

end Raes.Satisfiability

/-!
# The solver adapter

`raes_processor/satisfiability/_solver.py`.  The adapter asserts, for each clause, that
its tracker implies the disjunction of the indexes that the clause allows, and then
asks the solver about trackers and fixed indexes.  It counts its checks against a
budget and reads a monotonic clock against a deadline.

The solver and the clock are parameters.  A solver answers a check, counted from one,
with a time limit and a list of assumptions; a clock gives its readings in turn.
-/

namespace Raes.Satisfiability

open Stateful

def solverTimeoutMs : ℕ := 5000

def nanosecondsPerMillisecond : ℕ := 1000000

/-- What the solver is asked to assume: a tracker, or an index of a symbol. -/
inductive Assumption where
  | tracker (clauseId : String)
  | fixed (symbolId : String) (index : ℕ)
  deriving DecidableEq, Repr

inductive CheckSatResult where
  | sat
  | unsat
  | unknown (reason : String)
  deriving DecidableEq, Repr

/-- A tracker implies that a symbol has one of these indexes. -/
structure Assertion where
  (tracker symbolId : String)
  indexes : List ℕ

structure SolverOperationalError where
  (message phase : String)
  (checkCount checkBudget : Option ℕ)
  reason : Option String
  deriving DecidableEq

/-- `_CheckBudget`, with the number of clock readings so far. -/
structure CheckBudget where
  (maxChecks checksUsed deadlineNs readings : ℕ)

abbrev SolverM (α : Type) : Type := Stateful SolverOperationalError CheckBudget α

abbrev Clock : Type := ℕ → ℕ

abbrev Solver : Type := ℕ → ℕ → List Assumption → CheckSatResult

variable (clock : Clock) (solver : Solver)

def monotonicNs : SolverM ℕ := do
  let budget ← get
  set { budget with readings := budget.readings + 1 }
  pure (clock budget.readings)

def checkpoint (phase : String) (checkCount : Option ℕ) : SolverM PUnit := do
  let now ← monotonicNs clock
  let budget ← get
  if budget.deadlineNs ≤ now then
    throw ⟨"solver operation deadline exhausted", phase,
      some (checkCount.getD budget.checksUsed), some budget.maxChecks,
      some "operation-deadline-exhausted"⟩
  else pure ⟨⟩

/-- A remaining time of nothing leaves it to the checkpoint to raise. -/
def checkpointIfLate (phase : String) (checkCount now : ℕ) : SolverM PUnit := do
  let budget ← get
  if budget.deadlineNs ≤ now then checkpoint clock phase (some checkCount) else pure ⟨⟩

def remainingTimeoutMs (phase : String) (checkCount : ℕ) : SolverM ℕ := do
  let now ← monotonicNs clock
  checkpointIfLate clock phase checkCount now
  let budget ← get
  let remaining := budget.deadlineNs - now
  pure (min solverTimeoutMs
    (max 1 ((remaining + nanosecondsPerMillisecond - 1) / nanosecondsPerMillisecond)))

def budgetExhausted : String := "solver check budget exhausted"

def consume (phase : String) : SolverM ℕ := do
  checkpoint clock phase none
  let budget ← get
  if budget.maxChecks ≤ budget.checksUsed then
    throw ⟨budgetExhausted, phase, some budget.checksUsed, some budget.maxChecks,
      some "derived-check-budget-exhausted"⟩
  else do
    set { budget with checksUsed := budget.checksUsed + 1 }
    pure (budget.checksUsed + 1)

def solverCheckBudget (model : NormalizedConstraintModel) : ℕ :=
  1 + max ((model.symbols.map fun symbol => symbol.domain.length).sum) model.clauses.length

def allowedIndexes (domain allowedValues : List Scalar) : List ℕ :=
  (domain.zipIdx.filter fun member => allowedValues.contains member.1).map Prod.snd

variable (model : NormalizedConstraintModel)

def clauseDomain (clause : ConstraintClause) : List Scalar :=
  ((model.symbols.find? fun symbol => symbol.symbolId = clause.symbolId).map (·.domain)).getD []

def clauseAssertion (clause : ConstraintClause) : Assertion :=
  ⟨clause.clauseId, clause.symbolId,
    allowedIndexes (clauseDomain model clause) clause.allowedValues⟩

def constructionCheckpoint : SolverM PUnit := do
  let budget ← get
  checkpoint clock "model-construction" (some budget.checksUsed)

/-- The assertion of a clause, with a look at the clock for each member of the
domain. -/
def assertClause (clause : ConstraintClause) : SolverM Assertion := do
  (clauseDomain model clause).forM fun _ => constructionCheckpoint clock
  constructionCheckpoint clock
  pure (clauseAssertion model clause)

/-- `_SolverSession.__init__` -/
def startSession (model : NormalizedConstraintModel) : SolverM (List Assertion) := do
  constructionCheckpoint clock
  model.symbols.forM fun _ => constructionCheckpoint clock
  let assertions ← model.clauses.mapM (assertClause clock model)
  constructionCheckpoint clock
  pure assertions

def assumptionsOf (clauseIds : List String) (fixed : List (String × ℕ)) : List Assumption :=
  clauseIds.map .tracker ++ fixed.map fun f => .fixed f.1 f.2

/-- `check`: whether the clauses are satisfiable with the fixed indexes. -/
def check (clauseIds : List String) (fixed : List (String × ℕ)) (phase : String) :
    SolverM Bool := do
  let checkCount ← consume clock phase
  let timeoutMs ← remainingTimeoutMs clock phase checkCount
  let result := solver checkCount timeoutMs (assumptionsOf clauseIds fixed)
  checkpoint clock phase (some checkCount)
  match result with
  | .sat => pure true
  | .unsat => pure false
  | .unknown reason => do
    let budget ← get
    throw ⟨"solver returned unknown", phase, some checkCount, some budget.maxChecks,
      some reason⟩

def selectionFailed : String := "deterministic witness selection failed"

def selectMember (clauseIds : List String) (fixed : List (String × ℕ)) (symbolId : String) :
    List (Scalar × ℕ) → SolverM (ℕ × Scalar)
  | [] => do
    let budget ← get
    throw ⟨selectionFailed, "witness-selection", some budget.checksUsed, some budget.maxChecks,
      some "no-feasible-domain-member-after-sat"⟩
  | (value, index) :: rest => do
    let feasible ← check clock solver clauseIds (fixed ++ [(symbolId, index)]) "witness-selection"
    if feasible then pure (index, value) else selectMember clauseIds fixed symbolId rest

def selectWitness (clauseIds : List String) :
    List ConstraintSymbol → List (String × ℕ) → Dict String Scalar → SolverM (Dict String Scalar)
  | [], _, assignment => pure assignment
  | symbol :: rest, fixed, assignment => do
    let (index, value) ← selectMember clock solver clauseIds fixed symbol.symbolId
      symbol.domain.zipIdx
    selectWitness clauseIds rest (fixed ++ [(symbol.symbolId, index)])
      (assignment.set symbol.variable_ value)

/-- The loop of `_reduce_unsat_core`. -/
def reduceCore : List String → List String → SolverM (List String)
  | [], core => pure core
  | clauseId :: rest, core => do
    let candidate := core.filter fun item => item ≠ clauseId
    let satisfiable ← check clock solver candidate [] "core-reduction"
    reduceCore rest (if satisfiable then core else candidate)

inductive SolverResult where
  | satisfiable (assignment : Dict String Scalar)
  | unsatisfiable (core : List String)
  deriving DecidableEq

def requireUniqueClauseIds (model : NormalizedConstraintModel) : SolverM PUnit :=
  if model.clauseIds.Nodup then pure ⟨⟩
  else throw ⟨"normalized model contains duplicate clause ids", "model-validation", none, none,
    some "duplicate-clause-id"⟩

/-- The branch of `solve_model` after its first check. -/
def selectResult (model : NormalizedConstraintModel) : Bool → SolverM SolverResult
  | true => do
    let assignment ← selectWitness clock solver model.clauseIds model.symbols [] Dict.empty
    pure (.satisfiable assignment)
  | false => do
    let core ← reduceCore clock solver model.clauseIds model.clauseIds
    pure (.unsatisfiable (sortBy id core))

/-- The body of `solve_model`, from the budget that it starts with. -/
def solveModelM (model : NormalizedConstraintModel) : SolverM SolverResult := do
  requireUniqueClauseIds model
  let budget ← get
  checkpoint clock "model-validation" (some budget.checksUsed)
  let _ ← startSession clock model
  let feasible ← check clock solver model.clauseIds [] "initial-decision"
  let result ← selectResult clock solver model feasible
  let budget ← get
  checkpoint clock "result-selection" (some budget.checksUsed)
  pure result

def startBudget (model : NormalizedConstraintModel) : CheckBudget where
  maxChecks := solverCheckBudget model
  checksUsed := 0
  deadlineNs := clock 0 + solverTimeoutMs * nanosecondsPerMillisecond
  readings := 1

/-- `solve_model`, with the budget at its end. -/
def solveModel (model : NormalizedConstraintModel) :
    Except SolverOperationalError SolverResult × CheckBudget :=
  exec (solveModelM clock solver model) (startBudget clock model)

end Raes.Satisfiability
