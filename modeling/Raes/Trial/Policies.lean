import Raes.Contracts.BoundedDomains
import Raes.Graph.Cycles

/-!
# Selection policies

The selection policies of an experiment and their validators
(`experiment_selection.py` of the contracts), with the admission of a policy
registry against a scenario family (`experiment_selection.py` of the SDL).
-/

namespace Raes.Trial

open PyError

inductive SelectionOutcome where
  | literal (value : Option DomainScalar)
  | reference (referenceId : String)
  | member (memberId : String)
  | subset (memberIds : List String)
  | order (memberIds : List String)
  deriving DecidableEq

inductive SelectionPurpose where
  | controlledFactor | nuisanceVariation | fixedConfiguration
  deriving DecidableEq

structure SelectionStratum where
  (stratumId outcomeRef factorId factorLevelId conditionId : String)
  outputCount : ℕ
  deriving DecidableEq

inductive SelectionPolicy where
  | fixed (policyId : String) (purpose : SelectionPurpose) (pointRef : String)
      (outcome : SelectionOutcome) (outputBound : ℕ)
  | enumerate (policyId : String) (purpose : SelectionPurpose) (pointRef : String)
      (outputBound : ℕ)
  | product (policyId : String) (purpose : SelectionPurpose) (policyRefs : List String)
      (outputBound : ℕ)
  | stratified (policyId : String) (purpose : SelectionPurpose) (pointRef : String)
      (outcomes : Dict String SelectionOutcome) (strata : Dict String SelectionStratum)
      (outputBound : ℕ)
  | sample (policyId : String) (purpose : SelectionPurpose) (pointRef : String)
      (sampleCount outputBound : ℕ) (stochasticControlRef : String)

namespace SelectionPolicy

def policyId : SelectionPolicy → String
  | fixed id .. | enumerate id .. | product id .. | stratified id .. | sample id .. => id

def purpose : SelectionPolicy → SelectionPurpose
  | fixed _ purpose .. | enumerate _ purpose .. | product _ purpose ..
  | stratified _ purpose .. | sample _ purpose .. => purpose

def outputBound : SelectionPolicy → ℕ
  | fixed _ _ _ _ bound | enumerate _ _ _ bound | product _ _ _ bound
  | stratified _ _ _ _ _ bound | sample _ _ _ _ bound _ => bound

def kind : SelectionPolicy → String
  | fixed .. => "fixed"
  | enumerate .. => "enumerate"
  | product .. => "product"
  | stratified .. => "stratified"
  | sample .. => "sample"

def policyRefs : SelectionPolicy → List String
  | product _ _ refs _ => refs
  | _ => []

/-- A policy whose rows do not depend on the coordinates. -/
def isStatic : SelectionPolicy → Bool
  | fixed .. | enumerate .. | product .. => true
  | stratified .. | sample .. => false

def isFixed : SelectionPolicy → Bool
  | fixed .. => true
  | _ => false

end SelectionPolicy

def maxSelectionPolicyRefs : ℕ := 64

def maxSelectionOutputBound : ℕ := 1000000

/-! ## Validators of one policy -/

/-- The validators of the policy models. -/
def SelectionPolicy.validate : SelectionPolicy → Except PyError Unit
  | .fixed _ _ _ _ bound =>
    refuseIf (bound ≠ 1) (valueError "fixed selection policy output_bound must equal one")
  | .enumerate .. => .ok ()
  | .product _ _ refs _ => refuseIf (¬ refs.Nodup) (valueError "product policy_refs must be unique")
  | .stratified _ _ _ outcomes strata bound => do
    refuseIf (∃ e ∈ strata.entries, e.1 ≠ e.2.stratumId)
      (valueError "selection strata keys must match embedded stratum_id")
    refuseIf (∃ e ∈ strata.entries, e.1 ≠ e.2.conditionId)
      (valueError "selection stratum condition_id must match its keyed allocation condition")
    refuseIf (∃ s ∈ strata.values, outcomes.contains s.outcomeRef = false)
      (valueError "selection strata must reference declared outcomes")
    let counts := strata.values.map SelectionStratum.outputCount
    refuseIf (counts.dedup.length ≠ 1)
      (valueError "equal balanced strata must have identical output_count values")
    refuseIf (counts.sum ≠ bound)
      (valueError "stratified policy output_bound must equal the sum of stratum output counts")
  | .sample _ _ _ count bound _ =>
    refuseIf (count ≠ bound) (valueError "sample_count must equal sample policy output_bound")

def SelectionPolicy.FieldsInRange (policy : SelectionPolicy) : Prop :=
  1 ≤ policy.outputBound ∧ policy.outputBound ≤ maxSelectionOutputBound ∧
    match policy with
    | .product _ _ refs _ => 2 ≤ refs.length ∧ refs.length ≤ maxSelectionPolicyRefs
    | _ => True

instance (policy : SelectionPolicy) : Decidable policy.FieldsInRange := by
  unfold SelectionPolicy.FieldsInRange
  cases policy <;> infer_instance

/-! ## Validators of the registry -/

structure RunAllocation where
  comparedConditions : List String
  targetRunsPerCondition : ℕ
  deriving DecidableEq

/-- What policy validation reads of a run plan. -/
structure RunPlan where
  allocation : Option RunAllocation
  targetRunCount : Option ℕ
  controlIds : List String
  /-- `_validate_sample_control` for the control of a sample policy. -/
  sampleControl : String → Except PyError Unit
  selectionPolicies : Dict String SelectionPolicy

def RunPlan.totalRuns (plan : RunPlan) : Option ℕ :=
  match plan.allocation with
  | some allocation =>
    some (allocation.comparedConditions.length * allocation.targetRunsPerCondition)
  | none => plan.targetRunCount

/-- `_product_output_bound`, from the product of the references read so far. -/
def productOutputBound (policies : Dict String SelectionPolicy) :
    ℕ → List String → Except PyError ℕ
  | expected, [] => .ok expected
  | expected, ref :: rest =>
    match policies.get? ref with
    | none => .error (keyError ref)
    | some policy => do
      refuseIf (expected * policy.outputBound > maxSelectionOutputBound)
        (valueError "product policy output_bound exceeds the admission bound")
      productOutputBound policies (expected * policy.outputBound) rest

def validateProductPolicy (policies : Dict String SelectionPolicy) (purpose : SelectionPurpose)
    (refs : List String) (bound : ℕ) : Except PyError Unit := do
  refuseIf (∃ ref ∈ refs, policies.contains ref = false)
    (valueError "product policy_refs must reference declared selection policies")
  let expected ← productOutputBound policies 1 refs
  refuseIf (expected ≠ bound)
    (valueError "product policy output_bound must equal the product of referenced bounds")
  let controlled := refs.any fun ref =>
    (policies.get? ref).any fun policy => policy.purpose = .controlledFactor
  refuseIf ((purpose = .controlledFactor) ≠ (controlled = true))
    (valueError ("product controlled-factor purpose must match its authoritative " ++
      "controlled-factor dimensions"))

def productGraph (policies : Dict String SelectionPolicy) : Dict String (List String) :=
  ((policies.filterValues fun policy => policy.kind = "product").mapValues
    fun _ policy => policy.policyRefs)

def validateProductGraph (policies : Dict String SelectionPolicy) : Except PyError Unit := do
  forM policies.values fun policy =>
    match policy with
    | .product _ purpose refs bound => validateProductPolicy policies purpose refs bound
    | _ => .ok ()
  refuseIf (Graph.hasCycle (productGraph policies) = true)
    (valueError "selection policy reference graph must be acyclic")

def validateSelectionPolicyRegistry (plan : RunPlan) : Except PyError Unit := do
  refuseIf (∃ e ∈ plan.selectionPolicies.entries, e.1 ≠ e.2.policyId)
    (valueError "selection policy map keys must match embedded policy_id")
  refuseIf (¬ plan.controlIds.Nodup) (valueError "run_plan stochastic control ids must be unique")
  match plan.totalRuns with
  | none =>
    throw (valueError "run plan must declare a run allocation before validating selection policies")
  | some totalRuns =>
    forM plan.selectionPolicies.values fun policy => do
      refuseIf (policy.outputBound > totalRuns)
        (valueError "selection policy output_bound must not exceed the declared run allocation")
      match policy with
      | .sample _ _ _ count _ control => do
        refuseIf (count ≠ totalRuns)
          (valueError "sample_count must equal the declared run allocation")
        plan.sampleControl control
      | _ => .ok ()
    validateProductGraph plan.selectionPolicies

/-! ## Admission against a scenario family -/

inductive VariationPoint where
  | parameter (domain : DomainDescriptor)
  | logicalTiming (domain : DomainDescriptor)
  | governedReference (allowedRefs : List String)
  | alternative (alternatives : List String)
  | subset (members : List String) (minimum : ℕ) (maximum : Option ℕ)
  | order (members : List String) (precedence : List (String × String))
      (fixedPositions : List (String × ℤ))

/-- What selection reads of an expanded scenario. -/
structure ScenarioFamily where
  name : String
  semanticValidated : Bool
  variationPoints : Dict String VariationPoint

/-- What admission reads of an experiment, beside its run plan. -/
structure ExperimentSpec where
  runPlan : RunPlan
  /-- Kind and id of the intended scenario. -/
  intendedScenarioRef : Option (String × String)
  /-- The scenario family that each binding descriptor targets, if its target has one. -/
  bindingFamilies : List (Option String)

def integerIntervalBounds (domain : NumericIntervalDomain) : ℤ × ℤ :=
  let lower := domain.lower.ceil
  let upper := domain.upper.floor
  (if domain.lowerClosed = false ∧ (lower : ℚ) = domain.lower then lower + 1 else lower,
    if domain.upperClosed = false ∧ (upper : ℚ) = domain.upper then upper - 1 else upper)

def integerIntervalCardinality : DomainDescriptor → Except PyError ℕ
  | .numericInterval domain => do
    refuseIf (domain.numericType ≠ .integer)
      (sdlSelectionError "continuous or unsupported domains cannot be enumerated or sampled")
    let (lower, upper) := integerIntervalBounds domain
    refuseIf (upper - lower + 1 < 1) (sdlSelectionError "selection policy domain is empty")
    return (upper - lower + 1).toNat
  | _ =>
    .error (sdlSelectionError "continuous or unsupported domains cannot be enumerated or sampled")

def scalarDomainCardinality : DomainDescriptor → Except PyError ℕ
  | .exact _ => .ok 1
  | .enum values => .ok values.length
  | .boolean value => .ok (if value.isSome then 1 else 2)
  | domain => integerIntervalCardinality domain

/-- The number of outcomes of a point. -/
def pointCardinality : VariationPoint → Except PyError ℕ
  | .parameter domain | .logicalTiming domain => scalarDomainCardinality domain
  | .governedReference allowedRefs => .ok allowedRefs.length
  | .alternative alternatives => .ok alternatives.length
  | .subset .. | .order .. => .error (sdlSelectionError
      "selection policy kind is unsupported for subset or order variation points")

def finitePolicyPopulation (point : VariationPoint) : Except PyError ℕ := do
  let cardinality ← pointCardinality point
  refuseIf (cardinality > maxSelectionOutputBound)
    (sdlSelectionError "selection policy finite population exceeds the admission bound")
  return cardinality

variable (orders : VersionOrders)

def validateSelectionOutcome (point : VariationPoint)
    (outcome : SelectionOutcome) : Except PyError Unit :=
  match point, outcome with
  | .parameter domain, .literal value | .logicalTiming domain, .literal value => do
    let admitted ← scalarInDomain orders ((value.map DomainScalar.toJson).getD .null) domain
    refuseIf (admitted = false)
      (sdlSelectionError "fixed selection literal is outside the declared point domain")
  | .parameter _, _ | .logicalTiming _, _ =>
    .error (sdlSelectionError "fixed selection literal is outside the declared point domain")
  | .governedReference allowedRefs, .reference id =>
    refuseIf (id ∉ allowedRefs)
      (sdlSelectionError "fixed selection reference is outside the declared point domain")
  | .governedReference _, _ =>
    .error (sdlSelectionError "fixed selection reference is outside the declared point domain")
  | .alternative alternatives, .member id =>
    refuseIf (id ∉ alternatives)
      (sdlSelectionError "fixed selection member is outside the declared point domain")
  | .alternative _, _ =>
    .error (sdlSelectionError "fixed selection member is outside the declared point domain")
  | .subset members minimum maximum, .subset ids => do
    let selected := ids.dedup
    refuseIf (¬ ∀ id ∈ selected, id ∈ members)
      (sdlSelectionError "subset selection includes an undeclared member")
    refuseIf (¬ (minimum ≤ selected.length ∧ selected.length ≤ maximum.getD members.length))
      (sdlSelectionError "subset selection violates declared cardinality")
  | .subset .., _ =>
    .error (sdlSelectionError "subset variation point requires a subset selection outcome")
  | .order members precedence fixedPositions, .order ids => do
    refuseIf (¬ ((∀ id ∈ ids, id ∈ members) ∧ ∀ member ∈ members, member ∈ ids))
      (sdlSelectionError "order selection must contain every declared member exactly once")
    refuseIf (∃ edge ∈ precedence, ids.idxOf edge.2 ≤ ids.idxOf edge.1)
      (sdlSelectionError "order selection violates declared precedence")
    refuseIf (∃ e ∈ fixedPositions, (ids.idxOf e.1 : ℤ) ≠ e.2)
      (sdlSelectionError "order selection violates declared fixed positions")
  | .order .., _ =>
    .error (sdlSelectionError "order variation point requires an order selection outcome")

def resolvePoint (family : ScenarioFamily) (pointRef : String) : Except PyError VariationPoint :=
  match family.variationPoints.get? pointRef with
  | some point => .ok point
  | none => .error (sdlSelectionError
      ("selection policy variation point '" ++ pointRef ++ "' is not declared"))

def validatePolicyAgainstFamily (family : ScenarioFamily) : SelectionPolicy → Except PyError Unit
  | .product .. => .ok ()
  | .fixed _ _ pointRef outcome _ => do
    let point ← resolvePoint family pointRef
    validateSelectionOutcome orders point outcome
  | .enumerate _ _ pointRef bound => do
    let point ← resolvePoint family pointRef
    let population ← finitePolicyPopulation point
    refuseIf (population ≠ bound) (sdlSelectionError
      "enumerate policy output_bound must equal the finite point domain cardinality")
  | .sample _ _ pointRef _ _ _ => do
    let point ← resolvePoint family pointRef
    let _ ← finitePolicyPopulation point
  | .stratified _ _ pointRef outcomes _ _ => do
    let point ← resolvePoint family pointRef
    forM outcomes.values (validateSelectionOutcome orders point)

/-- `validate_experiment_selection_against_family`, for an experiment without a
factorial design. -/
def validateExperimentSelection (spec : ExperimentSpec)
    (family : ScenarioFamily) : Except PyError Unit := do
  refuseIf (family.semanticValidated = false) (sdlSelectionError
    "experiment selection requires a semantically admitted ExpandedScenario")
  if spec.runPlan.selectionPolicies.entries.isEmpty then
    return ()
  refuseIf (spec.intendedScenarioRef ≠ some ("scenario", family.name)) (sdlSelectionError
    "experiment selection family identity must match intended_scenario_ref")
  refuseIf (∃ target ∈ spec.bindingFamilies, target.getD family.name ≠ family.name)
    (sdlSelectionError
      "scenario binding target family identity does not match selection family")
  forM spec.runPlan.selectionPolicies.values (validatePolicyAgainstFamily orders family)

end Raes.Trial
