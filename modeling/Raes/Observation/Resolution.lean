import Raes.Observation.Demand
import Raes.Realization.Models

/-!
# Normalization of observation demand

`observation_demand_resolution.py`: the effective demands of the target scopes,
with the diagnostics of conflicting authorities.  Each function yields the
diagnostics that the source appends, in its order.
-/

namespace Raes.Observation

open PyError

def defaultMode (purpose : ObservationPurpose) : ObservationDemandMode :=
  if purpose = .operational then .operationalOnly else .none

def defaultBasis : ObservationPurpose → ObservationBasis
  | .realizationDescription => .backendSelected
  | .operational => .operational
  | .experimental => .observed

/-- `", ".join(sorted(f"{rule.authority_ref}:{rule.rule_id}" for rule in rules))` -/
def conflictOrigins (rules : List ObservationDemandRule) : String :=
  ", ".intercalate (sortBy id (rules.map fun rule => rule.authorityRef ++ ":" ++ rule.ruleId))

def conflict (scope : SemanticScope) (axis : String) (rules : List ObservationDemandRule) :
    Diagnostic where
  code := "observation.authority-conflict"
  domain := "observation-demand"
  address := if scope.text = "" then "observation-demand.root" else scope.text
  message := "Independent observation authorities conflict on '" ++ axis ++ "' (" ++
    conflictOrigins rules ++ ")."
  severity := .error

/-- A resolved axis: the declared value, where one is declared, and its origin. -/
structure AxisResult (α : Type) where
  value : Option α
  origin : String
  conflicts : List Diagnostic

/-- `",".join(sorted(rule.rule_id for rule in rules))` -/
def ruleOrigin (rules : List ObservationDemandRule) : String :=
  ",".intercalate (sortBy id (rules.map ObservationDemandRule.ruleId))

namespace Axis

variable {α : Type} [DecidableEq α] (axis : Axis α)

def forbidden (rules : List ObservationDemandRule) : List ObservationDemandRule :=
  rules.filter fun rule => ∃ value ∈ axis.get rule, axis.text value = "forbid"

/-- `_axis`; the default is left to the caller. -/
def resolve (rules : List ObservationDemandRule) (scope : SemanticScope) : AxisResult α :=
  match firstRule (axis.candidates rules) with
  | none => {
      value := none
      origin := if axis.forbidden rules = [] then "root-default" else ruleOrigin (axis.forbidden rules)
      conflicts := [] }
  | some winner => {
      value := axis.get winner
      origin := ruleOrigin (axis.candidates rules)
      conflicts := if 1 < ((axis.candidates rules).map axis.get).dedup.length then
        [conflict scope axis.name (axis.candidates rules)] else [] }

end Axis

/-- `rule.purpose is purpose and _scope_applies(rule.scope, scope)` -/
def Applies (scope : SemanticScope) (purpose : ObservationPurpose) (rule : ObservationDemandRule) :
    Prop :=
  rule.purpose = purpose ∧ rule.scope.Contains scope

instance (scope : SemanticScope) (purpose : ObservationPurpose) (rule : ObservationDemandRule) :
    Decidable (Applies scope purpose rule) :=
  inferInstanceAs (Decidable (_ ∧ _))

variable (rules : List ObservationDemandRule)

def applicableRules (scope : SemanticScope)
    (purpose : ObservationPurpose) : List ObservationDemandRule :=
  rules.filter fun rule => Applies scope purpose rule

/-- What `_selector_rules` selects of one authority. -/
def authoritySelectorRules (authority : String) : List ObservationDemandRule :=
  let authorityRules := rules.filter fun rule => rule.authorityRef = authority
  let required := authorityRules.filter fun rule => rule.required ∧ rule.selector ≠ none
  let ordinary := authorityRules.filter fun rule => ¬ rule.required ∧ rule.selector ≠ none
  required ++ ordinary.filter fun rule => observationRuleDepth rule = deepest ordinary

def selectorRules (rules : List ObservationDemandRule) : List ObservationDemandRule :=
  sortBy ruleKey ((sortedSet (rules.map ObservationDemandRule.authorityRef)).flatMap
    (authoritySelectorRules rules))

def InheritedAuthorityPolicy (rule selected : ObservationDemandRule) : Prop :=
  rule.selector = none ∨
    (rule.required = false ∧ rule.scope ≠ selected.scope ∧ rule.scope.Contains selected.scope)

instance (rule selected : ObservationDemandRule) :
    Decidable (InheritedAuthorityPolicy rule selected) :=
  inferInstanceAs (Decidable (_ ∨ _))

def ObservationDemandRule.lifecycle (rule : ObservationDemandRule) :
    List (Option ObservationLifecycleDecision) :=
  [rule.collection, rule.retention, rule.exporting]

def IndependentConstraint (rule : ObservationDemandRule) : Prop :=
  rule.selector = none ∧
    (rule.required = true ∨ rule.prohibitedStages ≠ [] ∨ some .forbid ∈ rule.lifecycle)

instance (rule : ObservationDemandRule) : Decidable (IndependentConstraint rule) :=
  inferInstanceAs (Decidable (_ ∧ _))

def RuleAppliesToSelectedPolicy (rule selected : ObservationDemandRule) : Prop :=
  rule = selected ∨
    (rule.authorityRef = selected.authorityRef ∧ InheritedAuthorityPolicy rule selected) ∨
    IndependentConstraint rule

instance (rule selected : ObservationDemandRule) :
    Decidable (RuleAppliesToSelectedPolicy rule selected) :=
  inferInstanceAs (Decidable (_ ∨ _))

variable (applicable : List ObservationDemandRule)

def policyRules (selected : ObservationDemandRule) : List ObservationDemandRule :=
  applicable.filter fun rule => RuleAppliesToSelectedPolicy rule selected

def selectedDefaultMode (selected : Option ObservationDemandRule) (purpose : ObservationPurpose) :
    ObservationDemandMode :=
  if selected ≠ none ∧ purpose ≠ .operational then .selected else defaultMode purpose

def rulesAtEffectiveModeDepth (mode : ObservationDemandMode) : List ObservationDemandRule :=
  if mode ≠ .none then applicable
  else match observationAxisWinner applicable Axis.mode with
    | none => applicable
    | some winner => applicable.filter fun rule =>
        observationRuleDepth winner ≤ observationRuleDepth rule

def effectiveSelector (selected : Option ObservationDemandRule)
    (effectiveRules : List ObservationDemandRule) (scope : SemanticScope) :
    Option ObservationSelector :=
  match selected with
  | none => none
  | some rule =>
    if rule ∉ effectiveRules then none
    else match rule.selector with
      | none => none
      | some selector => clippedObservationSelector selector scope

def defaultCollection (purpose : ObservationPurpose) (mode : ObservationDemandMode)
    (hasSelectors : Bool) : ObservationLifecycleDecision :=
  if purpose ≠ .realizationDescription ∧ (mode = .selected ∨ mode = .exhaustive ∨
      mode = .operationalOnly) ∧ hasSelectors = true then .require
  else .disable

structure ResolvedPolicyAxes where
  (collection retention exporting : ObservationLifecycleDecision)
  basis : ObservationBasis
  (redaction integrity : Option String)
  origins : List (String × String)

def resolvePolicyAxes (purpose : ObservationPurpose)
    (mode : ObservationDemandMode) (hasSelectors : Bool) (scope : SemanticScope) :
    ResolvedPolicyAxes × List Diagnostic :=
  let collection := Axis.collection.resolve rules scope
  let retention := Axis.retention.resolve rules scope
  let exporting := Axis.exporting.resolve rules scope
  let basis := Axis.basis.resolve rules scope
  let redaction := Axis.redaction.resolve rules scope
  let integrity := Axis.integrity.resolve rules scope
  ({ collection := collection.value.getD (defaultCollection purpose mode hasSelectors)
     retention := retention.value.getD .disable
     exporting := exporting.value.getD .disable
     basis := basis.value.getD (defaultBasis purpose)
     redaction := redaction.value
     integrity := integrity.value
     origins := [("collection", collection.origin), ("retention", retention.origin),
       ("export", exporting.origin), ("basis", basis.origin), ("redaction", redaction.origin),
       ("integrity", integrity.origin)] },
   collection.conflicts ++ retention.conflicts ++ exporting.conflicts ++ basis.conflicts ++
     redaction.conflicts ++ integrity.conflicts)

/-- `_disabled_lifecycle_axes` -/
def ResolvedPolicyAxes.disabled (axes : ResolvedPolicyAxes) : ResolvedPolicyAxes :=
  { axes with collection := .disable, retention := .disable, exporting := .disable }

structure NormalAxes where
  mode : ObservationDemandMode
  selectors : List ObservationSelector
  axes : ResolvedPolicyAxes
  conflicts : List Diagnostic

def normalizeEffectiveAxes (mode : ObservationDemandMode) (selectors : List ObservationSelector)
    (axes : ResolvedPolicyAxes) (applicable : List ObservationDemandRule) (scope : SemanticScope) :
    NormalAxes :=
  if mode = .none then
    { mode := mode
      selectors := []
      axes := axes.disabled
      conflicts := if selectors ≠ [] ∨ axes.collection = .require ∨ axes.retention = .require ∨
          axes.exporting = .require then [conflict scope "mode/lifecycle" applicable] else [] }
  else if mode.Selecting ∧ selectors = [] then
    { mode := .none
      selectors := selectors
      axes := axes.disabled
      conflicts := [conflict scope "mode/selectors" applicable] }
  else if (axes.retention = .require ∨ axes.exporting = .require) ∧ axes.collection ≠ .require then
    { mode := mode
      selectors := selectors
      axes := axes.disabled
      conflicts := [conflict scope "collection/lifecycle" applicable] }
  else { mode := mode, selectors := selectors, axes := axes, conflicts := [] }

/-- The stages of `decisions` in `_prohibited_stages`, in the order of their texts. -/
def lifecycleStages : List ObservationLifecycleStage := [.collection, .exporting, .retention]

/-- `sorted({...}, key=lambda stage: stage.value)` -/
def prohibitedStages (rules : List ObservationDemandRule) : List ObservationLifecycleStage :=
  lifecycleStages.filter fun stage =>
    ∃ rule ∈ rules, stage ∈ rule.prohibitedStages ∨ (Axis.ofStage stage).get rule = some .forbid

def selectedOrigins : Option ObservationDemandRule → List (String × String)
  | none => []
  | some rule => [("selector", rule.ruleId), ("authority", rule.authorityRef)]

variable (scope : SemanticScope) (purpose : ObservationPurpose)

/-- The mode of a policy before its normal form. -/
def policyMode (selected : Option ObservationDemandRule) : ObservationDemandMode :=
  ((Axis.mode.resolve applicable scope).value).getD (selectedDefaultMode selected purpose)

/-- What `_effective_for` builds, before its contract model is checked. -/
def effectiveDemand (selected : Option ObservationDemandRule) :
    EffectiveObservationDemand × List Diagnostic :=
  let applicable := applicableRules rules scope purpose
  let resolved := Axis.mode.resolve applicable scope
  let mode := policyMode applicable scope purpose selected
  let effectiveRules := rulesAtEffectiveModeDepth applicable mode
  let selectors := (effectiveSelector selected effectiveRules scope).toList
  let axes := resolvePolicyAxes effectiveRules purpose mode (! selectors.isEmpty) scope
  let normal := normalizeEffectiveAxes mode selectors axes.1 applicable scope
  ({ scope := scope
     purpose := purpose
     mode := normal.mode
     selectors := normal.selectors
     collection := normal.axes.collection
     retention := normal.axes.retention
     exporting := normal.axes.exporting
     basis := normal.axes.basis
     prohibitedStages := prohibitedStages applicable
     redaction := normal.axes.redaction
     integrity := normal.axes.integrity
     required := applicable.any fun rule => rule.required
     origins := selectedOrigins selected ++ ("mode", resolved.origin) :: normal.axes.origins },
   resolved.conflicts ++ axes.2 ++ normal.conflicts)

def effectiveFor (selected : Option ObservationDemandRule) :
    Except PyError (EffectiveObservationDemand × List Diagnostic) := do
  (effectiveDemand rules scope purpose selected).1.validate
  return effectiveDemand rules scope purpose selected

def selectedRules (scope : SemanticScope) : List ObservationDemandRule :=
  (selectorRules applicable).filter fun rule =>
    ∃ selector ∈ rule.selector, clippedObservationSelector selector scope ≠ none

def overlapConflicts (scope : SemanticScope) (selected : List ObservationDemandRule) :
    List (EffectiveObservationDemand × List ObservationDemandRule) → List Diagnostic
  | [] => []
  | left :: rest =>
    ((rest.filter fun right =>
      SelectorLifecycleOverlapConflicts left.1 right.1 left.2 right.2).map fun _ =>
        conflict scope "overlapping-selector/lifecycle" selected) ++
      overlapConflicts scope selected rest

def scopeDemands (purpose : ObservationPurpose) :
    Except PyError (List EffectiveObservationDemand × List Diagnostic) := do
  let applicable := applicableRules rules scope purpose
  let selected := selectedRules applicable scope
  if selected = [] then do
    let demand ← effectiveFor (applicable.filter fun rule => rule.selector = none) scope purpose none
    return ([demand.1], demand.2)
  else do
    let effective ← selected.mapM fun rule =>
      effectiveFor (policyRules applicable rule) scope purpose (some rule)
    let policies := selected.map (policyRules applicable)
    return (effective.map Prod.fst, (effective.map Prod.snd).flatten ++
      overlapConflicts scope selected ((effective.map Prod.fst).zip policies))

/-- `{ObservationPurpose.EXPERIMENTAL, *(rule.purpose for rule in rules)}`, sorted -/
def demandPurposes (rules : List ObservationDemandRule) : List ObservationPurpose :=
  sortBy ObservationPurpose.value
    (ObservationPurpose.experimental :: rules.map ObservationDemandRule.purpose).dedup

def demandTargets (targetScopes : List SemanticScope) : List (SemanticScope × ObservationPurpose) :=
  targetScopes.flatMap fun scope =>
    ((demandPurposes rules).filter fun purpose =>
      purpose = .experimental ∨ ∃ rule ∈ rules, Applies scope purpose rule).map fun purpose =>
        (scope, purpose)

def normalizeObservationDemands (document : Option ObservationDemandDocument)
    (targetScopes : List SemanticScope) (limits : Realization.Limits) :
    Except PyError ObservationDemandResolution := do
  refuseIf (targetScopes = [] ∨ limits.maxMembers < targetScopes.length)
    (valueError "observation-demand-limit-exceeded")
  refuseIf (¬ targetScopes.Nodup) (valueError "observation-demand-duplicate-scope")
  let rules := (document.map ObservationDemandDocument.rules).getD []
  refuseIf (limits.maxNodes < rules.length) (valueError "observation-demand-limit-exceeded")
  refuseIf (∃ scope ∈ targetScopes, limits.maxScalarBytes < scope.text.utf8ByteSize)
    (valueError "observation-demand-limit-exceeded")
  let demands ← (demandTargets rules targetScopes).mapM fun target =>
    scopeDemands rules target.1 target.2
  return {
    effective := partitionDescendantObservationPolicies (demands.map Prod.fst).flatten
    diagnostics := (demands.map Prod.snd).flatten }

end Raes.Observation
