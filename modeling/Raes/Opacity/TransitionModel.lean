import Mathlib.Data.Finset.Prod
import Mathlib.Data.String.Basic
import Raes.Errors
import Raes.Lib.Dict
import Raes.Lib.SortBy

/-!
# Opacity transition models

The finite transition model that the opacity model checker is given, after
`raes_contracts/_participant_opacity_model.py`.  A state says whether it is an
evaluation point, whether the secret holds there, and what an observer has seen.
Whether a state is reachable is not part of the model.

`ValidatedInput` is a request with the proof that the validators accept it.
-/

namespace Raes.Opacity

open PyError

/-! ## The request -/

structure ModelState where
  ordinal : ℕ
  (stateRef runRef cutRef strategyRef schedulerRef environmentRef orderRef : String)
  (evaluationPoint secretHolds : Bool)
  (initialInformationKey observationKey memoryKey releaseStateKey : String)
  coalitionFusionKey : Option String
  deriving DecidableEq, Repr

structure ModelTransition where
  ordinal : ℕ
  transitionRef : String
  (sourceStateOrdinal targetStateOrdinal : ℕ)
  deriving DecidableEq, Repr

inductive OrderTreatment where
  | totalOrder
  | namedLinearization
  | allLinearizations
  | partialOrder
  | causalFrontier
  deriving DecidableEq, Repr

/-- The domains that the behavioral profile declares. -/
structure ModelAssumptions where
  (strategyRefs schedulerRefs environmentRefs : List String)
  orderTreatment : OrderTreatment
  orderRefs : List String
  cutRef : String
  deriving DecidableEq, Repr

structure DeclaredCounts where
  (states transitions initialStates evaluationPoints runs cuts strategies : ℕ)
  (schedulerEnvironmentPairs orderVariants : ℕ)
  deriving DecidableEq, Repr

structure ModelCheckInput where
  completeModel : Bool
  assumptions : ModelAssumptions
  declaredCounts : DeclaredCounts
  initialStateOrdinals : List ℕ
  states : List ModelState
  transitions : List ModelTransition
  deriving DecidableEq, Repr

/-! ## Validators -/

/-- The coordinates that a transition may not leave. -/
def ModelState.domain (state : ModelState) : String × String × String × String :=
  (state.strategyRef, state.schedulerRef, state.environmentRef, state.orderRef)

def ModelState.schedulerEnvironment (state : ModelState) : String × String :=
  (state.schedulerRef, state.environmentRef)

/-- The check that the assumptions make of their own domains. -/
def validateCanonicalDomains (assumptions : ModelAssumptions) : Except PyError Unit :=
  forM [(assumptions.strategyRefs, "strategy refs"), (assumptions.schedulerRefs, "scheduler refs"),
      (assumptions.environmentRefs, "environment refs"), (assumptions.orderRefs, "order refs")]
    fun domain => refuseIf (domain.1 ≠ sortedSet domain.1)
      (valueError (domain.2 ++ " must be unique and sorted"))

def validateModelIdentities (request : ModelCheckInput) : Except PyError Unit := do
  refuseIf (request.states.map ModelState.ordinal ≠ List.range request.states.length)
    (valueError "state ordinals must canonically and contiguously cover the state count")
  refuseIf (request.transitions.map ModelTransition.ordinal
      ≠ List.range request.transitions.length)
    (valueError "transition ordinals must canonically and contiguously cover the transition count")
  refuseIf ((request.states.map ModelState.stateRef).toFinset.card ≠ request.states.length)
    (valueError "model state refs must be unique")
  refuseIf ((request.transitions.map ModelTransition.transitionRef).toFinset.card
      ≠ request.transitions.length)
    (valueError "model transition refs must be unique")
  refuseIf (request.initialStateOrdinals ≠ sortedSet request.initialStateOrdinals)
    (valueError "initial state ordinals must be unique and sorted")
  refuseIf (∃ ordinal ∈ request.initialStateOrdinals, ¬ ordinal < request.states.length)
    (valueError "initial state ordinals must reference declared states")

def validateModelTransition (request : ModelCheckInput) (transition : ModelTransition) :
    Except PyError Unit := do
  refuseIf (request.states.length ≤ transition.sourceStateOrdinal ∨
      request.states.length ≤ transition.targetStateOrdinal)
    (valueError "transition endpoints must reference declared states")
  let source := request.states[transition.sourceStateOrdinal]?
  let target := request.states[transition.targetStateOrdinal]?
  refuseIf (source.map ModelState.domain ≠ target.map ModelState.domain)
    (valueError
      "transitions must remain inside one strategy/scheduler/environment/order domain")

def validateModelTransitions (request : ModelCheckInput) : Except PyError Unit :=
  forM request.transitions (validateModelTransition request)

def realizedCounts (request : ModelCheckInput) : DeclaredCounts where
  states := request.states.length
  transitions := request.transitions.length
  initialStates := request.initialStateOrdinals.length
  evaluationPoints := request.states.countP ModelState.evaluationPoint
  runs := (request.states.map ModelState.runRef).toFinset.card
  cuts := (request.states.map ModelState.cutRef).toFinset.card
  strategies := (request.states.map ModelState.strategyRef).toFinset.card
  schedulerEnvironmentPairs := (request.states.map ModelState.schedulerEnvironment).toFinset.card
  orderVariants := (request.states.map ModelState.orderRef).toFinset.card

def validateModelCounts (request : ModelCheckInput) : Except PyError Unit :=
  refuseIf (realizedCounts request ≠ request.declaredCounts)
    (valueError "declared model-check counts must exactly match the transition model")

def validateModelDeclaredDomains (request : ModelCheckInput) : Except PyError Unit := do
  let assumptions := request.assumptions
  refuseIf ((request.states.map ModelState.strategyRef).toFinset
      ≠ assumptions.strategyRefs.toFinset)
    (valueError "transition-model strategy domain must exactly match the assumptions")
  refuseIf ((request.states.map ModelState.schedulerRef).toFinset
      ≠ assumptions.schedulerRefs.toFinset)
    (valueError "transition-model scheduler domain must exactly match the assumptions")
  refuseIf ((request.states.map ModelState.environmentRef).toFinset
      ≠ assumptions.environmentRefs.toFinset)
    (valueError "transition-model environment domain must exactly match the assumptions")
  refuseIf ((request.states.map ModelState.schedulerEnvironment).toFinset
      ≠ assumptions.schedulerRefs.toFinset ×ˢ assumptions.environmentRefs.toFinset)
    (valueError
      "transition-model scheduler/environment domain must be the assumptions Cartesian product")
  refuseIf ((request.states.map ModelState.orderRef).toFinset ≠ assumptions.orderRefs.toFinset)
    (valueError "transition-model order domain must exactly match the assumptions")
  refuseIf ((request.states.map ModelState.cutRef).toFinset ≠ {assumptions.cutRef})
    (valueError "transition-model cut domain must exactly match the assumptions")

def statesAt (request : ModelCheckInput) (ordinals : List ℕ) : List ModelState :=
  ordinals.filterMap fun ordinal => request.states[ordinal]?

def validateModelInitialDomain (request : ModelCheckInput) : Except PyError Unit :=
  let actual := ((statesAt request request.initialStateOrdinals).map ModelState.domain).toFinset
  let assumptions := request.assumptions
  let expected := assumptions.strategyRefs.toFinset ×ˢ assumptions.schedulerRefs.toFinset
    ×ˢ assumptions.environmentRefs.toFinset ×ˢ assumptions.orderRefs.toFinset
  refuseIf (actual ≠ expected)
    (valueError
      "initial states must cover every assumed strategy/scheduler/environment/order domain")

def validateTransitionModel (request : ModelCheckInput) : Except PyError Unit := do
  validateCanonicalDomains request.assumptions
  validateModelIdentities request
  validateModelTransitions request
  validateModelCounts request
  validateModelDeclaredDomains request
  validateModelInitialDomain request

/-- A request that the validators accept. -/
structure ValidatedInput extends ModelCheckInput where
  valid : validateTransitionModel toModelCheckInput = .ok ()

/-! ## What validation gives -/

namespace ValidatedInput

variable (request : ValidatedInput)

theorem identities_ok : validateModelIdentities request.toModelCheckInput = .ok () := by
  have h := request.valid
  simp only [validateTransitionModel, seq_eq_ok_iff] at h
  exact h.2.1

theorem transitions_ok : validateModelTransitions request.toModelCheckInput = .ok () := by
  have h := request.valid
  simp only [validateTransitionModel, seq_eq_ok_iff] at h
  exact h.2.2.1

theorem state_ordinals :
    request.states.map ModelState.ordinal = List.range request.states.length := by
  have h := request.identities_ok
  simp only [validateModelIdentities, seq_eq_ok_iff, refuseIf_eq_ok_iff, not_not] at h
  exact h.1

theorem transition_ordinals :
    request.transitions.map ModelTransition.ordinal = List.range request.transitions.length := by
  have h := request.identities_ok
  simp only [validateModelIdentities, seq_eq_ok_iff, refuseIf_eq_ok_iff, not_not] at h
  exact h.2.1

theorem initial_nodup : request.initialStateOrdinals.Nodup := by
  have h := request.identities_ok
  simp only [validateModelIdentities, seq_eq_ok_iff, refuseIf_eq_ok_iff, not_not] at h
  have hsorted : request.initialStateOrdinals = sortedSet request.initialStateOrdinals :=
    h.2.2.2.2.1
  rw [hsorted]
  exact sortedSet_nodup _

theorem initial_lt {ordinal : ℕ} (h : ordinal ∈ request.initialStateOrdinals) :
    ordinal < request.states.length := by
  have hids := request.identities_ok
  simp only [validateModelIdentities, seq_eq_ok_iff, refuseIf_eq_ok_iff, not_not] at hids
  by_contra hlt
  exact hids.2.2.2.2.2 ⟨ordinal, h, hlt⟩

theorem target_lt {transition : ModelTransition} (h : transition ∈ request.transitions) :
    transition.targetStateOrdinal < request.states.length := by
  have hall := request.transitions_ok
  rw [validateModelTransitions, forM_eq_ok_iff] at hall
  have hone := hall transition h
  simp only [validateModelTransition, seq_eq_ok_iff, refuseIf_eq_ok_iff] at hone
  omega

theorem ordinal_of_getElem? {ordinal : ℕ} {state : ModelState}
    (h : request.states[ordinal]? = some state) : state.ordinal = ordinal := by
  have hmap : (request.states.map ModelState.ordinal)[ordinal]? = some state.ordinal := by
    rw [List.getElem?_map, h, Option.map_some]
  have hlt : ordinal < request.states.length := (List.getElem?_eq_some_iff.mp h).1
  rw [request.state_ordinals, List.getElem?_range hlt, Option.some_inj] at hmap
  exact hmap.symm

theorem transition_ordinal_of_getElem? {ordinal : ℕ} {transition : ModelTransition}
    (h : request.transitions[ordinal]? = some transition) : transition.ordinal = ordinal := by
  have hmap : (request.transitions.map ModelTransition.ordinal)[ordinal]? =
      some transition.ordinal := by
    rw [List.getElem?_map, h, Option.map_some]
  have hlt : ordinal < request.transitions.length := (List.getElem?_eq_some_iff.mp h).1
  rw [request.transition_ordinals, List.getElem?_range hlt, Option.some_inj] at hmap
  exact hmap.symm

end ValidatedInput

end Raes.Opacity

/-!
# The information-cell kernel

The scan of `participant_opacity/_kernel.py` over one carrier of points.  Points
that an observer cannot tell apart form a cell, and a secret point is covered
when its cell holds a point without the secret.  The scan keeps the first secret
point that is not covered, in the order of ordinals.
-/

namespace Raes.Opacity

/-- The coordinates that an observer can tell points apart by. -/
structure CellKey where
  (initialInformationKey observationKey memoryKey releaseStateKey : String)
  coalitionFusionKey : Option String
  (strategyRef orderRef : String)
  deriving DecidableEq, Repr

structure KernelResult where
  (checkedPoints checkedSecretPoints : ℕ)
  (counterexampleActualOrdinal counterexampleCellSize : Option ℕ)
  deriving DecidableEq, Repr

def informationCellKey (point : ModelState) : CellKey where
  initialInformationKey := point.initialInformationKey
  observationKey := point.observationKey
  memoryKey := point.memoryKey
  releaseStateKey := point.releaseStateKey
  coalitionFusionKey := point.coalitionFusionKey
  strategyRef := point.strategyRef
  orderRef := point.orderRef

def canonicalPoints (points : List ModelState) : List ModelState :=
  points.insertionSort fun a b => a.ordinal ≤ b.ordinal

def scanSecretPoint (cells : Dict CellKey (List ModelState)) (failure : Option (ℕ × ℕ))
    (actual : ModelState) : Option (ℕ × ℕ) :=
  let cell := (cells.get? (informationCellKey actual)).getD []
  if ∃ candidate ∈ cell, candidate.secretHolds = false then failure
  else match failure with
    | none => some (actual.ordinal, cell.length)
    | some found => some found

def evaluateOpacityKernel (points : List ModelState) : KernelResult :=
  let canonical := canonicalPoints points
  let cells := Dict.collect informationCellKey canonical
  let secretPoints := canonical.filter ModelState.secretHolds
  let failure := secretPoints.foldl (scanSecretPoint cells) none
  { checkedPoints := canonical.length
    checkedSecretPoints := secretPoints.length
    counterexampleActualOrdinal := failure.map Prod.fst
    counterexampleCellSize := failure.map Prod.snd }

/-! ## Covered points -/

variable (points : List ModelState)

/-- Some point without the secret looks the same to the observer. -/
def Covered (actual : ModelState) : Prop :=
  ∃ candidate ∈ points,
    informationCellKey candidate = informationCellKey actual ∧ candidate.secretHolds = false

def Exposed (actual : ModelState) : Prop :=
  actual ∈ points ∧ actual.secretHolds = true ∧ ¬ Covered points actual

instance (points : List ModelState) (actual : ModelState) : Decidable (Covered points actual) :=
  inferInstanceAs (Decidable (∃ candidate ∈ points, _ ∧ _))

theorem mem_canonicalPoints {points : List ModelState} {p : ModelState} :
    p ∈ canonicalPoints points ↔ p ∈ points := by
  rw [canonicalPoints, List.mem_insertionSort]

theorem covered_canonicalPoints {points : List ModelState} {actual : ModelState} :
    Covered (canonicalPoints points) actual ↔ Covered points actual := by
  simp only [Covered, mem_canonicalPoints]

theorem scanSecretPoint_collect (failure : Option (ℕ × ℕ)) (actual : ModelState) :
    scanSecretPoint (Dict.collect informationCellKey points) failure actual =
      if Covered points actual then failure
      else match failure with
        | none => some (actual.ordinal, (points.filter fun candidate =>
            decide (informationCellKey candidate = informationCellKey actual)).length)
        | some found => some found := by
  have hcell : (∃ candidate ∈ points.filter fun candidate =>
      decide (informationCellKey candidate = informationCellKey actual),
      candidate.secretHolds = false) ↔ Covered points actual := by
    simp only [Covered, List.mem_filter, decide_eq_true_eq, and_assoc]
  simp only [scanSecretPoint, Dict.getD_collect, hcell]

theorem foldl_scan_some (points actuals : List ModelState) (found : ℕ × ℕ) :
    actuals.foldl (scanSecretPoint (Dict.collect informationCellKey points)) (some found) =
      some found := by
  induction actuals with
  | nil => rfl
  | cons actual rest ih =>
    rw [List.foldl_cons, scanSecretPoint_collect]
    simpa using ih

theorem foldl_scan_eq_none_iff (points actuals : List ModelState) :
    actuals.foldl (scanSecretPoint (Dict.collect informationCellKey points)) none = none ↔
      ∀ actual ∈ actuals, Covered points actual := by
  induction actuals with
  | nil => simp
  | cons actual rest ih =>
    rw [List.foldl_cons, scanSecretPoint_collect]
    by_cases h : Covered points actual
    · simp [h, ih]
    · simp [h, foldl_scan_some]

theorem foldl_scan_lowest {actuals : List ModelState} {ordinal size : ℕ}
    (hsorted : actuals.Pairwise fun a b => a.ordinal ≤ b.ordinal)
    (h : actuals.foldl (scanSecretPoint (Dict.collect informationCellKey points)) none =
      some (ordinal, size)) :
    ∃ actual ∈ actuals, actual.ordinal = ordinal ∧ ¬ Covered points actual ∧
      ∀ other ∈ actuals, ¬ Covered points other → ordinal ≤ other.ordinal := by
  induction actuals with
  | nil => exact absurd h (by simp)
  | cons actual rest ih =>
    rw [List.pairwise_cons] at hsorted
    rw [List.foldl_cons, scanSecretPoint_collect] at h
    by_cases hcov : Covered points actual
    · rw [if_pos hcov] at h
      obtain ⟨found, hmem, hord, hfound, hlow⟩ := ih hsorted.2 h
      refine ⟨found, List.mem_cons_of_mem _ hmem, hord, hfound, ?_⟩
      intro other hother hexposed
      rcases List.mem_cons.mp hother with rfl | hother
      · exact absurd hcov hexposed
      · exact hlow other hother hexposed
    · rw [if_neg hcov, foldl_scan_some, Option.some_inj, Prod.mk.injEq] at h
      refine ⟨actual, List.mem_cons_self, h.1, hcov, ?_⟩
      intro other hother _
      rw [← h.1]
      rcases List.mem_cons.mp hother with rfl | hother
      · exact Nat.le_refl _
      · exact hsorted.1 other hother

section Kernel

variable (points : List ModelState)

theorem kernel_secretPoints_eq_zero_iff :
    (evaluateOpacityKernel points).checkedSecretPoints = 0 ↔
      ∀ p ∈ points, p.secretHolds = false := by
  show ((canonicalPoints points).filter ModelState.secretHolds).length = 0 ↔ _
  rw [List.length_eq_zero_iff, List.filter_eq_nil_iff]
  simp only [mem_canonicalPoints, Bool.not_eq_true]

theorem kernel_counterexample_eq_none_iff :
    (evaluateOpacityKernel points).counterexampleActualOrdinal = none ↔
      ∀ p, ¬ Exposed points p := by
  show Option.map Prod.fst _ = none ↔ _
  rw [Option.map_eq_none_iff, foldl_scan_eq_none_iff]
  simp only [List.mem_filter, mem_canonicalPoints, covered_canonicalPoints, Exposed]
  constructor
  · intro h p hp
    exact hp.2.2 (h p ⟨hp.1, hp.2.1⟩)
  · intro h p hp
    by_contra hcov
    exact h p ⟨hp.1, hp.2, hcov⟩

theorem kernel_cellSize_of_ordinal {ordinal : ℕ}
    (h : (evaluateOpacityKernel points).counterexampleActualOrdinal = some ordinal) :
    ∃ size, (evaluateOpacityKernel points).counterexampleCellSize = some size := by
  obtain ⟨failure, hfailure, _⟩ := Option.map_eq_some_iff.mp h
  exact ⟨failure.2, Option.map_eq_some_iff.mpr ⟨failure, hfailure, rfl⟩⟩

theorem kernel_counterexample_lowest {ordinal : ℕ}
    (h : (evaluateOpacityKernel points).counterexampleActualOrdinal = some ordinal) :
    ∃ p, Exposed points p ∧ p.ordinal = ordinal ∧
      ∀ q, Exposed points q → ordinal ≤ q.ordinal := by
  replace h : Option.map Prod.fst (((canonicalPoints points).filter ModelState.secretHolds).foldl
    (scanSecretPoint (Dict.collect informationCellKey (canonicalPoints points))) none) =
      some ordinal := h
  obtain ⟨⟨_, size⟩, hfound, rfl⟩ := Option.map_eq_some_iff.mp h
  have hsorted : (canonicalPoints points).Pairwise fun a b => a.ordinal ≤ b.ordinal :=
    List.pairwise_insertionSort _ _
  obtain ⟨p, hp, hord, hcov, hlow⟩ :=
    foldl_scan_lowest (canonicalPoints points) (hsorted.sublist List.filter_sublist) hfound
  simp only [List.mem_filter, mem_canonicalPoints, covered_canonicalPoints] at hp hcov hlow
  refine ⟨p, ⟨hp.1, hp.2, hcov⟩, hord, ?_⟩
  intro q hq
  exact hlow q ⟨hq.1, hq.2.1⟩ hq.2.2

end Kernel

end Raes.Opacity
