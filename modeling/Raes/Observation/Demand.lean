import Mathlib.Data.Prod.Lex
import Raes.Contracts.Diagnostics
import Raes.Contracts.JsonPointer
import Raes.Errors
import Raes.Lib.SortBy

/-!
# Observation demand

The rules, selectors and effective demands of `observation_demand.py`, with the
validators of their contract models.
-/

namespace Raes.Observation

open PyError

inductive ObservationPurpose where
  | experimental | realizationDescription | operational
  deriving DecidableEq

def ObservationPurpose.value : ObservationPurpose → String
  | .experimental => "experimental"
  | .realizationDescription => "realization-description"
  | .operational => "operational"

inductive ObservationDemandMode where
  | inherit | none | operationalOnly | selected | exhaustive
  deriving DecidableEq

def ObservationDemandMode.value : ObservationDemandMode → String
  | .inherit => "inherit"
  | .none => "none"
  | .operationalOnly => "operational-only"
  | .selected => "selected"
  | .exhaustive => "exhaustive"

inductive ObservationLifecycleStage where
  | collection | retention | exporting
  deriving DecidableEq

def ObservationLifecycleStage.value : ObservationLifecycleStage → String
  | .collection => "collection"
  | .retention => "retention"
  | .exporting => "export"

inductive ObservationLifecycleDecision where
  | inherit | forbid | disable | require
  deriving DecidableEq

def ObservationLifecycleDecision.value : ObservationLifecycleDecision → String
  | .inherit => "inherit"
  | .forbid => "forbid"
  | .disable => "disable"
  | .require => "require"

inductive ObservationBasis where
  | backendSelected | observed | independentlyVerified | operational
  deriving DecidableEq

def ObservationBasis.value : ObservationBasis → String
  | .backendSelected => "backend-selected"
  | .observed => "observed"
  | .independentlyVerified => "independently-verified"
  | .operational => "operational"

inductive ObservationDataKind where
  | field | stream | artifact
  deriving DecidableEq

structure ObservationSelector where
  semanticScope : SemanticScope
  excludedScopes : List SemanticScope
  componentRefs : List String
  dataKind : ObservationDataKind
  (names windowRefs : List String)
  coverageProfile : Option String
  maxItems : Option ℕ
  deriving DecidableEq

/-- `_validate_unique_values` -/
structure ObservationSelector.Valid (selector : ObservationSelector) : Prop where
  unique : selector.excludedScopes.Nodup ∧ selector.componentRefs.Nodup ∧
    selector.names.Nodup ∧ selector.windowRefs.Nodup
  inside : ∀ excluded ∈ selector.excludedScopes,
    selector.semanticScope.StrictlyContains excluded
  coverage : selector.coverageProfile.isSome = selector.maxItems.isSome

structure ObservationDemandRule where
  ruleId : String
  scope : SemanticScope
  purpose : ObservationPurpose
  mode : Option ObservationDemandMode
  selector : Option ObservationSelector
  (collection retention exporting : Option ObservationLifecycleDecision)
  basis : Option ObservationBasis
  prohibitedStages : List ObservationLifecycleStage
  (redaction integrity : Option String)
  required : Bool
  authorityRef : String
  deriving DecidableEq

/-- `mode in {SELECTED, EXHAUSTIVE}` -/
def ObservationDemandMode.Selecting (mode : ObservationDemandMode) : Prop :=
  mode = .selected ∨ mode = .exhaustive

instance (mode : ObservationDemandMode) : Decidable mode.Selecting :=
  inferInstanceAs (Decidable (_ ∨ _))

/-- `validate_observation_demand_rule` -/
structure ObservationDemandRule.Valid (rule : ObservationDemandRule) : Prop where
  selector : ∀ selector, rule.selector = some selector → selector.Valid
  prohibited : rule.prohibitedStages.Nodup
  declares : rule.mode.isSome ∨ rule.selector.isSome ∨ rule.collection.isSome ∨
    rule.retention.isSome ∨ rule.exporting.isSome ∨ rule.basis.isSome ∨ rule.redaction.isSome ∨
    rule.integrity.isSome ∨ rule.prohibitedStages ≠ []
  selects : ∀ mode, rule.mode = some mode → mode.Selecting → rule.selector.isSome
  exhausts : rule.mode = some .exhaustive →
    ∃ selector, rule.selector = some selector ∧ selector.coverageProfile.isSome
  protects : ∀ mode, rule.purpose = .experimental → rule.mode = some mode → mode.Selecting →
    rule.redaction.isSome ∧ rule.integrity.isSome

/-- A document, with the rules that its contract model has admitted. -/
structure ObservationDemandDocument where
  rules : List ObservationDemandRule
  valid : ∀ rule ∈ rules, rule.Valid
  unique : (rules.map ObservationDemandRule.ruleId).Nodup

structure EffectiveObservationDemand where
  scope : SemanticScope
  purpose : ObservationPurpose
  mode : ObservationDemandMode
  selectors : List ObservationSelector
  (collection retention exporting : ObservationLifecycleDecision)
  basis : ObservationBasis
  prohibitedStages : List ObservationLifecycleStage
  (redaction integrity : Option String)
  required : Bool
  origins : List (String × String)
  deriving DecidableEq

namespace EffectiveObservationDemand

variable (demand : EffectiveObservationDemand)

/-- `_effective_decisions` -/
def decisions : List ObservationLifecycleDecision :=
  [demand.collection, demand.retention, demand.exporting]

def requireEffectiveMode : Except PyError Unit :=
  refuseIf (demand.mode = .inherit)
    (valueError "effective observation demand cannot retain inherited mode")

def requireConcreteLifecycle : Except PyError Unit :=
  refuseIf (∃ value ∈ demand.decisions, value = .inherit ∨ value = .forbid)
    (valueError "effective observation demand must contain concrete lifecycle decisions")

def requireEffectiveSelection : Except PyError Unit := do
  refuseIf (demand.mode = .none ∧ (demand.selectors ≠ [] ∨ .require ∈ demand.decisions))
    (valueError "none observation demand cannot select or process data")
  refuseIf (demand.mode.Selecting ∧ demand.selectors = [])
    (valueError "selecting observation demand requires selectors")
  refuseIf (demand.mode = .exhaustive ∧ ∃ selector ∈ demand.selectors,
      selector.coverageProfile = none ∨ selector.maxItems = none)
    (valueError "exhaustive observation demand requires named finite coverage")

def requireCollectionForLaterStages : Except PyError Unit :=
  refuseIf ((demand.retention = .require ∨ demand.exporting = .require) ∧
      demand.collection ≠ .require)
    (valueError "retention and export require collection")

def requireOperationalOnlyLifecycle : Except PyError Unit :=
  refuseIf (demand.mode = .operationalOnly ∧ (demand.purpose ≠ .operational ∨
      demand.retention = .require ∨ demand.exporting = .require))
    (valueError "operational-only demand cannot become retained or exported study data")

/-- The field bound of `SemanticScope`. -/
def maxScopeLength : ℕ := 4096

def requireScopeLength : Except PyError Unit :=
  refuseIf (maxScopeLength < demand.scope.text.length)
    (valueError "String should have at most 4096 characters")

/-- The fields and `validate_effective_observation_demand` -/
def validate : Except PyError Unit := do
  demand.requireScopeLength
  demand.requireEffectiveMode
  demand.requireConcreteLifecycle
  demand.requireEffectiveSelection
  demand.requireCollectionForLaterStages
  demand.requireOperationalOnlyLifecycle

end EffectiveObservationDemand

structure ObservationDemandResolution where
  effective : List EffectiveObservationDemand
  diagnostics : List Diagnostic

end Raes.Observation

/-!
# Scope partitioning of observation demand

`observation_demand_scope.py`: clipping a selector to a scope, the rule that wins
an axis, the partition of demands among nested scopes, and overlapping selectors.
-/

namespace Raes.Observation

/-! ## Axes -/

/-- A policy axis: the field of a rule, and the text of a value of it. -/
structure Axis (α : Type) where
  name : String
  get : ObservationDemandRule → Option α
  text : α → String

namespace Axis

def mode : Axis ObservationDemandMode :=
  ⟨"mode", ObservationDemandRule.mode, ObservationDemandMode.value⟩

def collection : Axis ObservationLifecycleDecision :=
  ⟨"collection", ObservationDemandRule.collection, ObservationLifecycleDecision.value⟩

def retention : Axis ObservationLifecycleDecision :=
  ⟨"retention", ObservationDemandRule.retention, ObservationLifecycleDecision.value⟩

def exporting : Axis ObservationLifecycleDecision :=
  ⟨"export", ObservationDemandRule.exporting, ObservationLifecycleDecision.value⟩

def basis : Axis ObservationBasis :=
  ⟨"basis", ObservationDemandRule.basis, ObservationBasis.value⟩

def redaction : Axis String := ⟨"redaction", ObservationDemandRule.redaction, id⟩

def integrity : Axis String := ⟨"integrity", ObservationDemandRule.integrity, id⟩

/-- `getattr(rule, stage.value)` -/
def ofStage : ObservationLifecycleStage → Axis ObservationLifecycleDecision
  | .collection => collection
  | .retention => retention
  | .exporting => exporting

end Axis

def observationRuleDepth (rule : ObservationDemandRule) : ℕ := rule.scope.depth

/-- The key of `min(candidates, key=lambda rule: (rule.authority_ref, rule.rule_id))` -/
def ruleKey (rule : ObservationDemandRule) : String ×ₗ String :=
  toLex (rule.authorityRef, rule.ruleId)

def firstRule (rules : List ObservationDemandRule) : Option ObservationDemandRule :=
  (sortBy ruleKey rules).head?

/-- `max(map(observation_rule_depth, rules))` -/
def deepest (rules : List ObservationDemandRule) : ℕ :=
  (rules.map observationRuleDepth).foldr max 0

namespace Axis

variable {α : Type} (axis : Axis α)

/-- `value not in {"inherit", "forbid"}` -/
def Concrete (value : α) : Prop := axis.text value ≠ "inherit" ∧ axis.text value ≠ "forbid"

instance (value : α) : Decidable (axis.Concrete value) := inferInstanceAs (Decidable (_ ∧ _))

def Declares (rule : ObservationDemandRule) : Prop :=
  ∃ value ∈ axis.get rule, axis.Concrete value

instance (rule : ObservationDemandRule) : Decidable (axis.Declares rule) :=
  inferInstanceAs (Decidable (∃ value ∈ axis.get rule, _))

def declared (rules : List ObservationDemandRule) : List ObservationDemandRule :=
  rules.filter fun rule => axis.Declares rule

def candidates (rules : List ObservationDemandRule) : List ObservationDemandRule :=
  let declared := axis.declared rules
  let mandatory := declared.filter fun rule => rule.required
  if mandatory = [] then
    declared.filter fun rule => observationRuleDepth rule = deepest declared
  else mandatory

end Axis

def observationAxisWinner {α : Type} (rules : List ObservationDemandRule) (axis : Axis α) :
    Option ObservationDemandRule :=
  firstRule (axis.candidates rules)

/-! ## Selectors and scopes -/

variable (selector : ObservationSelector)

def clippedScope (scope : SemanticScope) : Option SemanticScope :=
  if selector.semanticScope.Contains scope then some scope
  else if scope.Contains selector.semanticScope then some selector.semanticScope
  else none

def clippedObservationSelector (scope : SemanticScope) : Option ObservationSelector :=
  match clippedScope selector scope with
  | none => none
  | some selected =>
    if ∃ excluded ∈ selector.excludedScopes, excluded.Contains selected then none
    else some { selector with
      semanticScope := selected
      excludedScopes := selector.excludedScopes.filter fun excluded => selected.Contains excluded }

variable (demand : EffectiveObservationDemand)

def NarrowerScopeOwnsSelector (demands : List EffectiveObservationDemand) : Prop :=
  ∃ candidate ∈ demands, candidate.purpose = demand.purpose ∧ candidate.scope ≠ demand.scope ∧
    candidate.scope = selector.semanticScope

instance (selector : ObservationSelector) (demand : EffectiveObservationDemand)
    (demands : List EffectiveObservationDemand) :
    Decidable (NarrowerScopeOwnsSelector selector demand demands) :=
  inferInstanceAs (Decidable (∃ candidate ∈ demands, _))

def descendantScopes (demands : List EffectiveObservationDemand) : List SemanticScope :=
  (demands.filter fun candidate => candidate ≠ demand ∧ candidate.purpose = demand.purpose ∧
    candidate.scope ≠ selector.semanticScope ∧
    selector.semanticScope.Contains candidate.scope).map EffectiveObservationDemand.scope

def partitionedSelector (demands : List EffectiveObservationDemand) : ObservationSelector :=
  { selector with
    excludedScopes := sortBy SemanticScope.text
      (selector.excludedScopes ++ descendantScopes selector demand demands).dedup }

def partitionedDemand
    (demands : List EffectiveObservationDemand) : Option EffectiveObservationDemand :=
  let selectors := (demand.selectors.filter fun selector =>
    ¬ NarrowerScopeOwnsSelector selector demand demands).map fun selector =>
      partitionedSelector selector demand demands
  if selectors = [] ∧ demand.selectors ≠ [] then none
  else some { demand with selectors := selectors }

def partitionDescendantObservationPolicies (demands : List EffectiveObservationDemand) :
    List EffectiveObservationDemand :=
  demands.filterMap fun demand => partitionedDemand demand demands

/-! ## Overlapping selectors -/

/-- `left and right and not set(left).intersection(right)` -/
def Apart (left right : List String) : Prop :=
  left ≠ [] ∧ right ≠ [] ∧ ∀ item ∈ left, item ∉ right

instance (left right : List String) : Decidable (Apart left right) :=
  inferInstanceAs (Decidable (_ ∧ _ ∧ _))

def SelectorsOverlap (left right : ObservationSelector) : Prop :=
  left.dataKind = right.dataKind ∧ (∃ name ∈ left.names, name ∈ right.names) ∧
    ¬ Apart left.componentRefs right.componentRefs ∧
    clippedObservationSelector left right.semanticScope ≠ none ∧
    clippedObservationSelector right left.semanticScope ≠ none

instance (left right : ObservationSelector) : Decidable (SelectorsOverlap left right) :=
  inferInstanceAs (Decidable (_ ∧ _ ∧ _ ∧ _ ∧ _))

/-- `getattr(demand, stage.value)` -/
def EffectiveObservationDemand.decision (demand : EffectiveObservationDemand) :
    ObservationLifecycleStage → ObservationLifecycleDecision
  | .collection => demand.collection
  | .retention => demand.retention
  | .exporting => demand.exporting

def StageOverlapConflicts (stage : ObservationLifecycleStage)
    (left right : EffectiveObservationDemand) (leftRules rightRules : List ObservationDemandRule) :
    Prop :=
  ((left.decision stage = .require ∧ stage ∈ right.prohibitedStages) ∨
    (right.decision stage = .require ∧ stage ∈ left.prohibitedStages)) ∨
  ((left.required = true ∧ right.required = true ∧ left.decision stage ≠ right.decision stage) ∧
    observationAxisWinner (if left.decision stage = .disable then leftRules else rightRules)
      (Axis.ofStage stage) ≠ none)

instance (stage : ObservationLifecycleStage) (left right : EffectiveObservationDemand)
    (leftRules rightRules : List ObservationDemandRule) :
    Decidable (StageOverlapConflicts stage left right leftRules rightRules) :=
  inferInstanceAs (Decidable (_ ∨ _))

def SelectorLifecycleOverlapConflicts (left right : EffectiveObservationDemand)
    (leftRules rightRules : List ObservationDemandRule) : Prop :=
  (∃ a ∈ left.selectors, ∃ b ∈ right.selectors, SelectorsOverlap a b) ∧
    ∃ stage ∈ [ObservationLifecycleStage.collection, .retention, .exporting],
      StageOverlapConflicts stage left right leftRules rightRules

instance (left right : EffectiveObservationDemand) (leftRules rightRules : List ObservationDemandRule) :
    Decidable (SelectorLifecycleOverlapConflicts left right leftRules rightRules) :=
  inferInstanceAs (Decidable (_ ∧ _))

end Raes.Observation
