import Mathlib.Data.Finset.Sort
import Raes.Contracts.Diagnostics
import Raes.Contracts.JsonPointer
import Raes.Lib.Dict
import Raes.Lib.Loop
import Raes.Lib.SortBy

/-!
# Exploit-path search

The deterministic attack-graph search of `exploit_path/_search.py`.  An attack
state is a set of facts.  A transition of an allowed semantics adds its effects
to a state that has its prerequisites.  The search is breadth first, up to the
depth of the query, and it stops when the evidence contract cannot carry what it
has found.
-/

namespace Raes.ExploitPath

structure AttackObservation where
  observationId : String
  deriving DecidableEq, Repr

structure AttackTransition where
  (transitionId semantics : String)
  (prerequisites effects : List String)
  observations : List AttackObservation
  deriving DecidableEq, Repr

structure ExploitPathQuery where
  (startFacts goalFacts allowedTransitionSemantics : List String)
  maxDepth : ℕ
  deriving DecidableEq, Repr

structure AnalysisInput where
  transitions : List AttackTransition
  query : ExploitPathQuery
  deriving DecidableEq, Repr

abbrev AttackState := Finset String

/-- What the search takes from its surroundings: the digest of a sorted fact
list, and the order in which a set of states is iterated. -/
structure SearchEnv where
  canonicalStateDigest : List String → String
  iterationOrder : List AttackState → List AttackState

inductive ExploitPathOutcome where
  | validPath
  | invalidPath
  | unsupported
  deriving DecidableEq, Repr

structure ExploitPathStep where
  stepIndex : ℕ
  (transitionId stateBeforeDigest : String)
  (satisfiedPrerequisites appliedEffects emittedObservations : List String)
  stateAfterDigest : String
  deriving DecidableEq, Repr

structure ValidPathWitness where
  (initialState goalFacts : List String)
  steps : List ExploitPathStep
  finalState : List String
  finalStateDigest : String
  deriving DecidableEq, Repr

structure BlockedTransition where
  (transitionId stateDigest : String)
  missingPrerequisites : List String
  deriving DecidableEq, Repr

structure InvalidPathEvidence where
  exploredStateCount : ℕ
  exhaustedDepth : Bool
  blockedTransitions : List BlockedTransition
  (impossibleTransitions unsatisfiedGoal : List String)
  deriving DecidableEq, Repr

structure SearchResult where
  outcome : ExploitPathOutcome
  witness : Option ValidPathWitness
  failure : Option InvalidPathEvidence
  unsupportedReasonCodes : Option (List String)
  diagnostics : List Diagnostic
  deriving DecidableEq, Repr

def maxBlockedTransitions : ℕ := 256

def maxDiagnostics : ℕ := 64

def maxExploredStates : ℕ := 4096

def maxImpossibleTransitions : ℕ := 512

def boundExceededCode : String := "exploit-path.analysis-bound-exceeded"

def diagnostic (code address message : String) : Diagnostic where
  code := code
  domain := "exploit-path"
  address := address
  message := message
  severity := .error

/-- One diagnostic for each address and code, the last one given. -/
def dedupeDiagnostics (items : List Diagnostic) : List Diagnostic :=
  let keyed : Dict (String × String) Diagnostic :=
    items.foldl (fun keyed item => keyed.set (item.address, item.code) item) Dict.empty
  keyed.values.insertionSort Diagnostic.LE

def sortedFacts (state : AttackState) : List String := state.sort (· ≤ ·)

variable (transition : AttackTransition)

def missingPrerequisites (state : AttackState) : List String :=
  sortedFacts (transition.prerequisites.toFinset \ state)

def appliedEffects (state : AttackState) : List String :=
  sortedFacts (transition.effects.toFinset \ state)

def nextState (state : AttackState) : AttackState :=
  state ∪ transition.effects.toFinset

structure SearchContext where
  query : ExploitPathQuery
  transitions : List AttackTransition
  (goal initial : AttackState)

def searchContext (request : AnalysisInput) : SearchContext where
  query := request.query
  transitions := request.transitions.filter fun transition =>
    transition.semantics ∈ request.query.allowedTransitionSemantics
  goal := request.query.goalFacts.toFinset
  initial := request.query.startFacts.toFinset

/-- What the search has seen and what waits.  A waiting state comes with the
steps that led to it. -/
structure Accumulator where
  visited : List AttackState
  queue : List (AttackState × List ExploitPathStep)
  blocked : Dict (String × String) BlockedTransition
  impossible : List String
  exhaustedDepth : Bool

section Search

variable (env : SearchEnv)

def stateDigest (state : AttackState) : String := env.canonicalStateDigest (sortedFacts state)

def stepOf (transition : AttackTransition) (stepIndex : ℕ) (state : AttackState) :
    ExploitPathStep where
  stepIndex := stepIndex
  transitionId := transition.transitionId
  stateBeforeDigest := stateDigest env state
  satisfiedPrerequisites := transition.prerequisites.insertionSort (· ≤ ·)
  appliedEffects := appliedEffects transition state
  emittedObservations :=
    (transition.observations.map AttackObservation.observationId).insertionSort (· ≤ ·)
  stateAfterDigest := stateDigest env (nextState transition state)

variable (context : SearchContext)

def witnessOf (steps : List ExploitPathStep) (finalState : AttackState) : ValidPathWitness where
  initialState := sortedFacts context.initial
  goalFacts := context.query.goalFacts.insertionSort (· ≤ ·)
  steps := steps
  finalState := sortedFacts finalState
  finalStateDigest := stateDigest env finalState

def validSearchResult (steps : List ExploitPathStep) (finalState : AttackState) : SearchResult where
  outcome := .validPath
  witness := some (witnessOf env context steps finalState)
  failure := none
  unsupportedReasonCodes := none
  diagnostics := []

def unsupportedSearchResult (address message : String) : SearchResult where
  outcome := .unsupported
  witness := none
  failure := none
  unsupportedReasonCodes := some [boundExceededCode]
  diagnostics := [diagnostic boundExceededCode address message]

variable (acc : Accumulator)

def recordBlockedTransition (transition : AttackTransition)
    (beforeDigest : String) (missing : List String) : Except SearchResult Accumulator :=
  let key := (transition.transitionId, beforeDigest)
  let item : BlockedTransition := ⟨transition.transitionId, beforeDigest, missing⟩
  if acc.blocked.contains key then .ok acc
  else if maxBlockedTransitions ≤ acc.blocked.keys.length then
    .error (unsupportedSearchResult "/search/blocked_transitions"
      ("The bounded search produced more blocked-transition evidence than the contract can " ++
        "carry."))
  else .ok { acc with blocked := acc.blocked.set key item }

def recordImpossibleTransition (transitionId : String) : Except SearchResult Accumulator :=
  if transitionId ∈ acc.impossible then .ok acc
  else if maxImpossibleTransitions ≤ acc.impossible.length then
    .error (unsupportedSearchResult "/search/impossible_transitions"
      ("The bounded search produced more impossible-transition evidence than the contract can " ++
        "carry."))
  else .ok { acc with impossible := acc.impossible ++ [transitionId] }

def queueNextState (next : AttackState) (nextSteps : List ExploitPathStep) :
    Except SearchResult Accumulator :=
  if maxExploredStates ≤ acc.visited.length then
    .error (unsupportedSearchResult "/search/explored_state_count"
      "The bounded search reached more attack states than the evidence contract can carry.")
  else .ok { acc with
    visited := acc.visited ++ [next], queue := acc.queue ++ [(next, nextSteps)] }

def recordTransitionProgress (transition : AttackTransition)
    (acc : Accumulator) (state : AttackState) (steps : List ExploitPathStep) :
    Except SearchResult Accumulator :=
  let next := nextState transition state
  let nextSteps := steps ++ [stepOf env transition steps.length state]
  if context.goal ⊆ next then .error (validSearchResult env context nextSteps next)
  else if next ∉ acc.visited then queueNextState acc next nextSteps
  else .ok acc

def advanceTransition (state : AttackState)
    (steps : List ExploitPathStep) (acc : Accumulator) (transition : AttackTransition) :
    Except SearchResult Accumulator :=
  let missing := missingPrerequisites transition state
  if missing ≠ [] then recordBlockedTransition acc transition (stateDigest env state) missing
  else if appliedEffects transition state = [] then
    recordImpossibleTransition acc transition.transitionId
  else recordTransitionProgress env context transition acc state steps

def advanceFromState (state : AttackState)
    (steps : List ExploitPathStep) : Except SearchResult Accumulator :=
  context.transitions.foldlM (advanceTransition env context state steps) acc

/-- One round of the loop.  It leaves with a result or with an empty queue. -/
def searchRound (acc : Accumulator) : Except SearchResult Accumulator ⊕ Accumulator :=
  match acc.queue with
  | [] => .inl (.ok acc)
  | (state, steps) :: rest =>
    if context.query.maxDepth ≤ steps.length then
      .inr { acc with queue := rest, exhaustedDepth := true }
    else match advanceFromState env context { acc with queue := rest } state steps with
      | .error result => .inl (.error result)
      | .ok acc => .inr acc

def initialAccumulator (context : SearchContext) : Accumulator where
  visited := [context.initial]
  queue := [(context.initial, [])]
  blocked := Dict.empty
  impossible := []
  exhaustedDepth := false

/-- One round takes one of at most `maxExploredStates` states from the queue. -/
def runSearchRounds (context : SearchContext) : Except SearchResult Accumulator :=
  match Loop.iterate (searchRound env context) (maxExploredStates + 1)
    (initialAccumulator context) with
  | .inl done => done
  | .inr acc => .ok acc

def longestState : List AttackState → AttackState
  | [] => ∅
  | state :: rest =>
    rest.foldl (fun best next => if best.card < next.card then next else best) state

def unsatisfiedGoal (goal : AttackState) (visited : List AttackState) : List String :=
  let unsatisfied := sortedFacts (goal \ visited.foldl (· ∪ ·) ∅)
  if unsatisfied = [] then sortedFacts (goal \ longestState (env.iterationOrder visited))
  else unsatisfied

def invalidPathDiagnostics (acc : Accumulator) : List Diagnostic :=
  acc.blocked.values.map (fun item =>
    diagnostic "exploit-path.missing-prerequisite"
      ("/normalized_graph/transitions/" ++ escapeToken item.transitionId)
      ("A transition was blocked because at least one prerequisite was absent from the reached " ++
        "state.")) ++
  (acc.impossible.insertionSort (· ≤ ·)).map (fun transitionId =>
    diagnostic "exploit-path.impossible-transition"
      ("/normalized_graph/transitions/" ++ escapeToken transitionId)
      "A transition could not advance the attack state under monotonic-additive semantics.") ++
  [diagnostic "exploit-path.unsatisfied-goal" "/query/goal_facts"
    "The search exhausted the bounded transition space without satisfying the goal."]

def BlockedTransition.LE (a b : BlockedTransition) : Prop :=
  a.transitionId < b.transitionId ∨ a.transitionId = b.transitionId ∧ a.stateDigest ≤ b.stateDigest

instance (a b : BlockedTransition) : Decidable (a.LE b) :=
  inferInstanceAs (Decidable (_ ∨ _ ∧ _))

def invalidSearchResult (goal : AttackState) (acc : Accumulator) : SearchResult where
  outcome := .invalidPath
  witness := none
  failure := some
    { exploredStateCount := acc.visited.length
      exhaustedDepth := acc.exhaustedDepth
      blockedTransitions := acc.blocked.values.insertionSort BlockedTransition.LE
      impossibleTransitions := acc.impossible.insertionSort (· ≤ ·)
      unsatisfiedGoal := unsatisfiedGoal env goal acc.visited }
  unsupportedReasonCodes := none
  diagnostics := dedupeDiagnostics (invalidPathDiagnostics acc)

def diagnosticCapResult (acc : Accumulator) : Option SearchResult :=
  if maxDiagnostics < acc.blocked.keys.length + acc.impossible.length + 1 then
    some (unsupportedSearchResult "/diagnostics"
      "The bounded search produced more diagnostics than the evidence contract can carry.")
  else none

def search (request : AnalysisInput) : SearchResult :=
  let context := searchContext request
  if context.goal ⊆ context.initial then validSearchResult env context [] context.initial
  else match runSearchRounds env context with
    | .error result => result
    | .ok acc => (diagnosticCapResult acc).getD (invalidSearchResult env context.goal acc)

end Search

end Raes.ExploitPath
