import Raes.Contracts.Diagnostics
import Raes.Opacity.Reachability

/-!
# The opacity model check

The verdict of `participant_opacity/_model_check.py` on one admitted transition
model.  A model outside the checker's profile is unsupported.  Otherwise the
reachable evaluation points go through the information-cell kernel, and a
failure is reported with a path to it.
-/

namespace Raes.Opacity

inductive ModelCheckOutcome where
  | holds
  | counterexample
  | vacuous
  | unsupported
  deriving DecidableEq, Repr

structure StrategyCoverage where
  strategyRef : String
  (exploredStates exploredTransitions reachableEvaluationPoints reachableSecretPoints : ℕ)
  deriving DecidableEq, Repr

structure ModelCheckCoverage where
  declared : DeclaredCounts
  (exploredStates exploredTransitions reachableEvaluationPoints reachableSecretPoints : ℕ)
  strategyCoverage : List StrategyCoverage
  (exploredSchedulerEnvironmentPairs exploredOrderVariants : ℕ)
  completeFixedPoint : Bool
  deriving DecidableEq, Repr

structure ModelCheckCounterexample where
  safeRef : String
  actualStateOrdinal : ℕ
  actualPathTransitionOrdinals : List ℕ
  strategyRef : String
  examinedCellSize : ℕ
  deriving DecidableEq, Repr

structure ModelCheckEvidence where
  coverage : ModelCheckCoverage
  outcome : ModelCheckOutcome
  diagnostics : List Diagnostic
  counterexample : Option ModelCheckCounterexample
  unsupportedReasonCodes : Option (List String)
  deriving DecidableEq, Repr

structure CheckerConfiguration where
  (maxStates maxTransitions : ℕ)

def checkerConfiguration : CheckerConfiguration where
  maxStates := 4096
  maxTransitions := 65536

def diagnostic (code address message : String) : Diagnostic where
  code := code
  domain := "participant-opacity-model-check"
  address := address
  message := message
  severity := .error

def incompleteDiagnostic : Diagnostic :=
  diagnostic "participant-opacity-model-check.incomplete-model" "/complete_model"
    "The transition artifact is not declared to be the complete finite model."

def boundDiagnostic : Diagnostic :=
  diagnostic "participant-opacity-model-check.bound-exceeded" "/declared_counts"
    "The complete finite model exceeds the deterministic checker resource profile."

def schedulerDiagnostic : Diagnostic :=
  diagnostic "participant-opacity-model-check.unsupported-scheduler-quantification" "/assumptions"
    ("The v1 checker supports only the profile's unambiguous singleton " ++
      "scheduler/environment posture.")

def orderDiagnostic : Diagnostic :=
  diagnostic "participant-opacity-model-check.unsupported-order-treatment"
    "/assumptions/order_treatment" "The v1 checker supports exact total-order models only."

def vacuousDiagnostic : Diagnostic :=
  diagnostic "participant-opacity-model-check.vacuous-secret-domain" "/states"
    "The reachable evaluation-point carrier contains no protected secret point."

variable (request : ModelCheckInput)

def unsupportedDiagnostics (checker : CheckerConfiguration) : List Diagnostic :=
  let incomplete := if request.completeModel then [] else [incompleteDiagnostic]
  let bound :=
    if checker.maxStates < request.declaredCounts.states ∨
      checker.maxTransitions < request.declaredCounts.transitions
    then [boundDiagnostic] else []
  let scheduler :=
    if request.assumptions.schedulerRefs.length ≠ 1 ∨
      request.assumptions.environmentRefs.length ≠ 1
    then [schedulerDiagnostic] else []
  let order :=
    if request.assumptions.orderTreatment ≠ OrderTreatment.totalOrder
    then [orderDiagnostic] else []
  (incomplete ++ bound ++ scheduler ++ order).insertionSort Diagnostic.LE

def emptyCoverage (request : ModelCheckInput) : ModelCheckCoverage where
  declared := request.declaredCounts
  exploredStates := 0
  exploredTransitions := 0
  reachableEvaluationPoints := 0
  reachableSecretPoints := 0
  strategyCoverage := []
  exploredSchedulerEnvironmentPairs := 0
  exploredOrderVariants := 0
  completeFixedPoint := false

def strategyCoverage (states : List ModelState)
    (transitions : List ModelTransition) (strategyRef : String) : StrategyCoverage :=
  let strategyStates := states.filter fun state => state.strategyRef = strategyRef
  let strategyEvaluation := strategyStates.filter ModelState.evaluationPoint
  { strategyRef := strategyRef
    exploredStates := strategyStates.length
    exploredTransitions := transitions.countP fun transition =>
      request.states[transition.sourceStateOrdinal]?.map ModelState.strategyRef = some strategyRef
    reachableEvaluationPoints := strategyEvaluation.length
    reachableSecretPoints := strategyEvaluation.countP ModelState.secretHolds }

def coverage (states : List ModelState) (transitions : List ModelTransition) : ModelCheckCoverage :=
  let evaluationStates := states.filter ModelState.evaluationPoint
  { declared := request.declaredCounts
    exploredStates := states.length
    exploredTransitions := transitions.length
    reachableEvaluationPoints := evaluationStates.length
    reachableSecretPoints := evaluationStates.countP ModelState.secretHolds
    strategyCoverage := request.assumptions.strategyRefs.map
      (strategyCoverage request states transitions)
    exploredSchedulerEnvironmentPairs :=
      (states.map ModelState.schedulerEnvironment).toFinset.card
    exploredOrderVariants := (states.map ModelState.orderRef).toFinset.card
    completeFixedPoint := true }

def unsupportedEvidence (diagnostics : List Diagnostic) : ModelCheckEvidence where
  coverage := emptyCoverage request
  outcome := .unsupported
  diagnostics := diagnostics
  counterexample := none
  unsupportedReasonCodes := some (sortedSet (diagnostics.map Diagnostic.code))

/-- The ordinal in six digits at least, as the format `06d` writes it. -/
def sixDigits (n : ℕ) : String :=
  String.ofList (List.replicate (6 - (toString n).length) '0') ++ toString n

def counterexampleEvidence (parents : Dict ℕ (Option ModelTransition)) (actualState : ModelState)
    (actualOrdinal cellSize : ℕ) : ModelCheckCounterexample where
  safeRef := "participant-opacity-model-check-counterexample:" ++ sixDigits actualOrdinal
  actualStateOrdinal := actualOrdinal
  actualPathTransitionOrdinals := counterexamplePath actualOrdinal parents
  strategyRef := actualState.strategyRef
  examinedCellSize := cellSize

def evaluationStates (request : ModelCheckInput) : List ModelState :=
  (reachableStates request).filter ModelState.evaluationPoint

/-- The evidence on the reachable evaluation points.  There is none when the
kernel names a state that the model does not have. -/
def reachableEvidence (request : ModelCheckInput) : Option ModelCheckEvidence :=
  let explored := reachableFixedPoint request
  let kernelResult := evaluateOpacityKernel (evaluationStates request)
  let coverage := coverage request (reachableStates request) explored.exploredTransitions
  if kernelResult.checkedSecretPoints = 0 then
    some { coverage, outcome := .vacuous, diagnostics := [vacuousDiagnostic]
           counterexample := none, unsupportedReasonCodes := some [vacuousDiagnostic.code] }
  else match kernelResult.counterexampleActualOrdinal, kernelResult.counterexampleCellSize with
    | some actualOrdinal, some cellSize =>
      request.states[actualOrdinal]?.map fun actualState =>
        { coverage, outcome := .counterexample, diagnostics := []
          counterexample := some
            (counterexampleEvidence explored.parents actualState actualOrdinal cellSize)
          unsupportedReasonCodes := none }
    | some _, none => none
    | none, _ =>
      some { coverage, outcome := .holds, diagnostics := [], counterexample := none
             unsupportedReasonCodes := none }

def modelCheckParticipantOpacityInput (request : ModelCheckInput) : Option ModelCheckEvidence :=
  let diagnostics := unsupportedDiagnostics request checkerConfiguration
  if diagnostics ≠ [] then some (unsupportedEvidence request diagnostics)
  else reachableEvidence request

section Exact

def EvaluationState (request : ModelCheckInput) (state : ModelState) : Prop :=
  state ∈ request.states ∧ Reachable request state.ordinal ∧ state.evaluationPoint = true

/-- A reachable evaluation point without the secret that looks the same. -/
def Cover (request : ModelCheckInput) (state cover : ModelState) : Prop :=
  EvaluationState request cover ∧ informationCellKey cover = informationCellKey state ∧
    cover.secretHolds = false

def Failing (request : ModelCheckInput) (state : ModelState) : Prop :=
  EvaluationState request state ∧ state.secretHolds = true ∧ ¬ ∃ cover, Cover request state cover

variable (request : ValidatedInput)

theorem mem_evaluationStates_iff (state : ModelState) :
    state ∈ evaluationStates request.toModelCheckInput ↔
      EvaluationState request.toModelCheckInput state := by
  rw [evaluationStates, List.mem_filter, mem_reachableStates_iff, EvaluationState, and_assoc]

theorem exposed_iff_failing (state : ModelState) :
    Exposed (evaluationStates request.toModelCheckInput) state ↔
      Failing request.toModelCheckInput state := by
  simp only [Exposed, Covered, Failing, Cover, mem_evaluationStates_iff]

/-- The evidence on a model within the profile.  Its three outcomes are: no
reachable secret evaluation point, a failing one, or neither. -/
theorem reachableEvidence_cases :
    ∃ evidence, reachableEvidence request.toModelCheckInput = some evidence ∧
      ((evidence.outcome = .vacuous ∧ evidence.counterexample = none ∧
          ∀ s, EvaluationState request.toModelCheckInput s → s.secretHolds = false) ∨
        (evidence.outcome = .holds ∧ evidence.counterexample = none ∧
          (∃ s, EvaluationState request.toModelCheckInput s ∧ s.secretHolds = true) ∧
          ∀ s, ¬ Failing request.toModelCheckInput s) ∨
        (evidence.outcome = .counterexample ∧ ∃ s c, evidence.counterexample = some c ∧
          Failing request.toModelCheckInput s ∧ s.ordinal = c.actualStateOrdinal ∧
          (∀ t, Failing request.toModelCheckInput t → s.ordinal ≤ t.ordinal) ∧
          c.actualPathTransitionOrdinals = counterexamplePath s.ordinal
            (reachableFixedPoint request.toModelCheckInput).parents)) := by
  have hzero :=
    kernel_secretPoints_eq_zero_iff (evaluationStates request.toModelCheckInput)
  have hnone :=
    kernel_counterexample_eq_none_iff (evaluationStates request.toModelCheckInput)
  simp only [mem_evaluationStates_iff] at hzero
  simp only [exposed_iff_failing] at hnone
  rw [reachableEvidence]
  by_cases hsecret : (evaluateOpacityKernel
      (evaluationStates request.toModelCheckInput)).checkedSecretPoints = 0
  · simp only [if_pos hsecret]
    exact ⟨_, rfl, Or.inl ⟨rfl, rfl, hzero.mp hsecret⟩⟩
  · simp only [if_neg hsecret]
    have hsome : ∃ s, EvaluationState request.toModelCheckInput s ∧ s.secretHolds = true := by
      by_contra hall
      refine hsecret (hzero.mpr fun p hp => ?_)
      by_contra hp'
      exact hall ⟨p, hp, by simpa using hp'⟩
    cases hordinal : (evaluateOpacityKernel
        (evaluationStates request.toModelCheckInput)).counterexampleActualOrdinal with
    | none => exact ⟨_, rfl, Or.inr (Or.inl ⟨rfl, rfl, hsome, hnone.mp hordinal⟩)⟩
    | some ordinal =>
      obtain ⟨s, hexposed, rfl, hlow⟩ := kernel_counterexample_lowest _ hordinal
      simp only [exposed_iff_failing] at hexposed hlow
      have hstate : request.states[s.ordinal]? = some s := by
        obtain ⟨i, hi⟩ := List.mem_iff_getElem?.mp hexposed.1.1
        rw [request.ordinal_of_getElem? hi]
        exact hi
      obtain ⟨size, hsize⟩ := kernel_cellSize_of_ordinal _ hordinal
      simp only [hsize, hstate, Option.map_some]
      exact ⟨_, rfl, Or.inr (Or.inr ⟨rfl, s, _, rfl, hexposed, rfl, hlow, rfl⟩)⟩

/-- The model check is exact.  It reports that opacity holds when the model is
within the profile, some reachable evaluation point is secret, and each of those
shares its cell with a reachable evaluation point that is not; and when it
reports a violation, it names the failing state with the lowest ordinal and a
shortest path of the model to it. -/
theorem modelCheck_exact :
    ∃ evidence, modelCheckParticipantOpacityInput request.toModelCheckInput = some evidence ∧
      (evidence.outcome = .holds ↔
        unsupportedDiagnostics request.toModelCheckInput checkerConfiguration = [] ∧
        (∃ s, EvaluationState request.toModelCheckInput s ∧ s.secretHolds = true) ∧
        ∀ s, EvaluationState request.toModelCheckInput s → s.secretHolds = true →
          ∃ cover, Cover request.toModelCheckInput s cover) ∧
      (evidence.outcome = .counterexample ↔
        unsupportedDiagnostics request.toModelCheckInput checkerConfiguration = [] ∧
        ∃ s, Failing request.toModelCheckInput s) ∧
      (evidence.counterexample.isSome ↔ evidence.outcome = .counterexample) ∧
      ∀ c, evidence.counterexample = some c →
        ∃ s, Failing request.toModelCheckInput s ∧ s.ordinal = c.actualStateOrdinal ∧
          (∀ t, Failing request.toModelCheckInput t → s.ordinal ≤ t.ordinal) ∧
          (∃ x, Initial request.toModelCheckInput x ∧
            Leads request.toModelCheckInput x c.actualPathTransitionOrdinals s.ordinal) ∧
          ∀ x path, Initial request.toModelCheckInput x →
            Leads request.toModelCheckInput x path s.ordinal →
            c.actualPathTransitionOrdinals.length ≤ path.length := by
  have hcovered : (∀ s, EvaluationState request.toModelCheckInput s → s.secretHolds = true →
      ∃ cover, Cover request.toModelCheckInput s cover) ↔
        ∀ s, ¬ Failing request.toModelCheckInput s := by
    constructor
    · intro h s hs
      exact hs.2.2 (h s hs.1 hs.2.1)
    · intro h s hs hsecret
      by_contra hcover
      exact h s ⟨hs, hsecret, hcover⟩
  rw [modelCheckParticipantOpacityInput, hcovered]
  by_cases hdiag : unsupportedDiagnostics request.toModelCheckInput checkerConfiguration = []
  · simp only [hdiag, ne_eq, not_true_eq_false, if_false, true_and]
    obtain ⟨evidence, hevidence, hcases⟩ := reachableEvidence_cases request
    refine ⟨evidence, hevidence, ?_⟩
    rcases hcases with ⟨hout, hnone, hsecret⟩ | ⟨hout, hnone, hsome, hfail⟩ |
      ⟨hout, s, c, hsome, hfailing, hord, hlow, hpath⟩
    · rw [hout, hnone]
      refine ⟨⟨nofun, ?_⟩, ⟨nofun, ?_⟩, by simp, nofun⟩
      · rintro ⟨⟨s, hs, htrue⟩, _⟩
        rw [hsecret s hs] at htrue
        exact Bool.noConfusion htrue
      · rintro ⟨s, hs⟩
        rw [Failing, hsecret s hs.1] at hs
        exact Bool.noConfusion hs.2.1
    · rw [hout, hnone]
      refine ⟨⟨fun _ => ⟨hsome, hfail⟩, fun _ => rfl⟩, ⟨nofun, ?_⟩, by simp, nofun⟩
      rintro ⟨s, hs⟩
      exact absurd hs (hfail s)
    · rw [hout, hsome]
      refine ⟨⟨nofun, fun h => absurd hfailing (h.2 s)⟩, ⟨fun _ => ⟨s, hfailing⟩, fun _ => rfl⟩,
        by simp, ?_⟩
      intro c' hc'
      obtain rfl : c = c' := Option.some_inj.mp hc'
      have hshort := counterexamplePath_shortest request hfailing.1.2.1
      rw [← hpath] at hshort
      exact ⟨s, hfailing, hord, hlow, hshort⟩
  · rw [if_pos hdiag]
    refine ⟨_, rfl, ⟨nofun, fun h => absurd h.1 hdiag⟩, ⟨nofun, fun h => absurd h.1 hdiag⟩, ?_,
      nofun⟩
    simp [unsupportedEvidence]

end Exact

def plainState (ordinal : ℕ) (ref : String) (secretHolds : Bool) (observationKey : String) :
    ModelState where
  ordinal := ordinal
  stateRef := ref
  runRef := "run"
  cutRef := "cut"
  strategyRef := "strategy"
  schedulerRef := "scheduler"
  environmentRef := "environment"
  orderRef := "order"
  evaluationPoint := true
  secretHolds := secretHolds
  initialInformationKey := "initial"
  observationKey := observationKey
  memoryKey := "memory"
  releaseStateKey := "release"
  coalitionFusionKey := none

/-- What is observed in the last state gives its secret away. -/
def leakyModel : ModelCheckInput where
  completeModel := true
  assumptions :=
    { strategyRefs := ["strategy"], schedulerRefs := ["scheduler"]
      environmentRefs := ["environment"], orderTreatment := .totalOrder, orderRefs := ["order"]
      cutRef := "cut" }
  declaredCounts :=
    { states := 3, transitions := 3, initialStates := 1, evaluationPoints := 3, runs := 1
      cuts := 1, strategies := 1, schedulerEnvironmentPairs := 1, orderVariants := 1 }
  initialStateOrdinals := [0]
  states :=
    [plainState 0 "a" false "low", plainState 1 "b" true "low", plainState 2 "c" true "high"]
  transitions := [⟨0, "ab", 0, 1⟩, ⟨1, "bc", 1, 2⟩, ⟨2, "ac", 0, 2⟩]

example : validateTransitionModel leakyModel = .ok () := by decide +kernel

example : ((modelCheckParticipantOpacityInput leakyModel).bind
    ModelCheckEvidence.counterexample).map
      (fun c => (c.actualStateOrdinal, c.actualPathTransitionOrdinals)) = some (2, [2]) := by
  decide +kernel

end Raes.Opacity
