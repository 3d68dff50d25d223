import Raes.Observation.Effective

/-!
# Mandatory observation rules

What a required rule without a selector asks for, and what the rules without
selectors prohibit, in the effective demands of a scope.
-/

namespace Raes.Observation

structure RuleKept (rule : ObservationDemandRule) (demand : EffectiveObservationDemand) : Prop where
  mode : ∀ value ∈ rule.mode, Axis.mode.Concrete value → demand.mode = value
  stages : ∀ stage, ∀ value ∈ (Axis.ofStage stage).get rule, (Axis.ofStage stage).Concrete value →
    demand.decision stage = value
  basis : ∀ value ∈ rule.basis, demand.basis = value
  redaction : ∀ value ∈ rule.redaction, demand.redaction = some value
  integrity : ∀ value ∈ rule.integrity, demand.integrity = some value

variable (rules : List ObservationDemandRule) (scope : SemanticScope) (purpose : ObservationPurpose)

/-- The required rules without selectors that apply to a scope. -/
def Mandatory (rule : ObservationDemandRule) : Prop :=
  rule ∈ applicableRules rules scope purpose ∧ rule.required = true ∧ rule.selector = none

def MandatoryKept (demands : List EffectiveObservationDemand) : Prop :=
  ∀ rule, Mandatory rules scope purpose rule → ∀ demand ∈ demands, RuleKept rule demand

def Prohibits (rule : ObservationDemandRule) (stage : ObservationLifecycleStage) : Prop :=
  stage ∈ rule.prohibitedStages ∨ (Axis.ofStage stage).get rule = some .forbid

/-- The demands of a scope prohibit what its rules without selectors prohibit. -/
def ProhibitionsKept (demands : List EffectiveObservationDemand) : Prop :=
  ∀ rule ∈ applicableRules rules scope purpose, rule.selector = none →
    ∀ stage, Prohibits rule stage → ∀ demand ∈ demands, stage ∈ demand.prohibitedStages

section Axes

variable {α : Type} (axis : Axis α) {rules : List ObservationDemandRule}

variable {rule : ObservationDemandRule}

theorem firstRule_mem (h : firstRule rules = some rule) : rule ∈ rules :=
  (sortBy_perm ruleKey rules).mem_iff.mp (List.mem_of_head? h)

theorem firstRule_eq_none_iff : firstRule rules = none ↔ rules = [] := by
  unfold firstRule
  rw [List.head?_eq_none_iff]
  exact ⟨fun h => List.perm_nil.mp (h ▸ (sortBy_perm ruleKey rules).symm),
    fun h => by rw [h]; rfl⟩

theorem eq_of_length_le_one {β : Type} {l : List β} (h : l.length ≤ 1) {a b : β} (ha : a ∈ l)
    (hb : b ∈ l) : a = b := by
  match l with
  | [] => cases ha
  | [c] => rw [List.mem_singleton.mp ha, List.mem_singleton.mp hb]
  | _ :: _ :: _ => simp at h

theorem Axis.mem_candidates (h : rule ∈ axis.candidates rules) :
    rule ∈ rules ∧ axis.Declares rule := by
  have hdeclared : rule ∈ axis.declared rules := by
    unfold Axis.candidates at h
    dsimp only at h
    split at h
    · exact (List.mem_filter.mp h).1
    · exact (List.mem_filter.mp h).1
  unfold Axis.declared at hdeclared
  rw [List.mem_filter, decide_eq_true_eq] at hdeclared
  exact hdeclared

theorem Axis.mem_candidates_of_required (hrule : rule ∈ rules)
    (hrequired : rule.required = true) (hdeclares : axis.Declares rule) :
    rule ∈ axis.candidates rules := by
  have hmandatory : rule ∈ (axis.declared rules).filter fun rule => rule.required := by
    unfold Axis.declared
    rw [List.mem_filter, List.mem_filter, decide_eq_true_eq]
    exact ⟨⟨hrule, hdeclares⟩, hrequired⟩
  unfold Axis.candidates
  dsimp only
  rw [if_neg (List.ne_nil_of_mem hmandatory)]
  exact hmandatory

theorem Axis.concrete_of_resolve [DecidableEq α] {scope : SemanticScope} {value : α}
    (h : (axis.resolve rules scope).value = some value) : axis.Concrete value := by
  unfold Axis.resolve at h
  split at h
  · cases h
  · rename_i winner hwinner
    obtain ⟨other, hother, hconcrete⟩ := (axis.mem_candidates (firstRule_mem hwinner)).2
    have : other = value := Option.some.inj (hother.symm.trans h)
    exact this ▸ hconcrete

theorem Axis.resolve_of_required [DecidableEq α] {scope : SemanticScope}
    {rule : ObservationDemandRule} (hrule : rule ∈ rules) (hrequired : rule.required = true)
    {value : α} (hvalue : value ∈ axis.get rule) (hconcrete : axis.Concrete value)
    (hconflicts : (axis.resolve rules scope).conflicts = []) :
    (axis.resolve rules scope).value = some value := by
  have hmem := axis.mem_candidates_of_required hrule hrequired ⟨value, hvalue, hconcrete⟩
  unfold Axis.resolve at hconflicts ⊢
  cases hwinner : firstRule (axis.candidates rules) with
  | none =>
    rw [firstRule_eq_none_iff.mp hwinner] at hmem
    cases hmem
  | some winner =>
    rw [hwinner] at hconflicts
    dsimp only at hconflicts ⊢
    have hone : ((axis.candidates rules).map axis.get).dedup.length ≤ 1 := by
      by_contra hmany
      rw [if_pos (Nat.not_le.mp hmany)] at hconflicts
      cases hconflicts
    have heq := eq_of_length_le_one hone
      (List.mem_dedup.mpr (List.mem_map_of_mem (firstRule_mem hwinner)))
      (List.mem_dedup.mpr (List.mem_map_of_mem hmem))
    exact heq.trans hvalue

end Axes

/-! ## The normal form -/

/-- Without a conflict, the normal form keeps the mode, and disables the lifecycle of a mode
`none` that required none of it. -/
theorem normalizeEffectiveAxes_of_no_conflict {mode : ObservationDemandMode}
    {selectors : List ObservationSelector} {axes : ResolvedPolicyAxes}
    {applicable : List ObservationDemandRule} {scope : SemanticScope}
    (h : (normalizeEffectiveAxes mode selectors axes applicable scope).conflicts = []) :
    (normalizeEffectiveAxes mode selectors axes applicable scope).mode = mode ∧
      (mode = .none → (normalizeEffectiveAxes mode selectors axes applicable scope).axes =
          axes.disabled ∧ axes.collection ≠ .require ∧ axes.retention ≠ .require ∧
          axes.exporting ≠ .require) ∧
      (mode ≠ .none →
        (normalizeEffectiveAxes mode selectors axes applicable scope).axes = axes) := by
  unfold normalizeEffectiveAxes at h ⊢
  by_cases hnone : mode = .none
  · simp only [if_pos hnone] at h ⊢
    refine ⟨trivial, fun _ => ⟨trivial, ?_⟩, fun hne => absurd hnone hne⟩
    by_contra hrequired
    rw [if_pos] at h
    · cases h
    · refine .inr ?_
      by_contra hnot
      simp only [not_or] at hnot
      exact hrequired hnot
  · simp only [if_neg hnone] at h ⊢
    by_cases hselecting : mode.Selecting ∧ selectors = []
    · rw [if_pos hselecting] at h
      cases h
    · rw [if_neg hselecting] at h ⊢
      by_cases hlater : (axes.retention = .require ∨ axes.exporting = .require) ∧
          axes.collection ≠ .require
      · rw [if_pos hlater] at h
        cases h
      · rw [if_neg hlater]
        exact ⟨rfl, fun heq => absurd heq hnone, fun _ => rfl⟩

/-! ## The demand of a policy -/

namespace Policy

variable (policy : Policy) (scope : SemanticScope) (purpose : ObservationPurpose)

def mode : ObservationDemandMode := policyMode policy.rules scope purpose policy.selected

def kept : List ObservationDemandRule :=
  rulesAtEffectiveModeDepth policy.rules (policy.mode scope purpose)

structure Resolves (demand : EffectiveObservationDemand) : Prop where
  modeConflicts : (Axis.mode.resolve policy.rules scope).conflicts = []
  stageConflicts : ∀ stage,
    ((Axis.ofStage stage).resolve (policy.kept scope purpose) scope).conflicts = []
  basisConflicts : (Axis.basis.resolve (policy.kept scope purpose) scope).conflicts = []
  redactionConflicts : (Axis.redaction.resolve (policy.kept scope purpose) scope).conflicts = []
  integrityConflicts : (Axis.integrity.resolve (policy.kept scope purpose) scope).conflicts = []
  mode : demand.mode = policy.mode scope purpose
  basis : demand.basis = ((Axis.basis.resolve (policy.kept scope purpose) scope).value).getD
    (defaultBasis purpose)
  redaction : demand.redaction = (Axis.redaction.resolve (policy.kept scope purpose) scope).value
  integrity : demand.integrity = (Axis.integrity.resolve (policy.kept scope purpose) scope).value
  /-- A mode `none` disables every stage, and leaves none required among the rules it keeps. -/
  disabled : policy.mode scope purpose = .none → ∀ stage, demand.decision stage = .disable ∧
    ((Axis.ofStage stage).resolve (policy.kept scope purpose) scope).value ≠ some .require
  enabled : policy.mode scope purpose ≠ .none → ∀ stage value,
    ((Axis.ofStage stage).resolve (policy.kept scope purpose) scope).value = some value →
      demand.decision stage = value

end Policy

theorem ne_some_of_getD_ne {β : Type} {value : Option β} {fallback b : β}
    (h : value.getD fallback ≠ b) : value ≠ some b := by
  rintro rfl
  exact h rfl

theorem resolves_of_no_conflict {rules : List ObservationDemandRule} {scope : SemanticScope}
    {purpose : ObservationPurpose} {policy : Policy} (hpolicy : policy ∈ policies rules scope purpose)
    (h : (policy.demand scope purpose).2 = []) :
    policy.Resolves scope purpose (policy.demand scope purpose).1 := by
  have happlicable := applicableRules_policy hpolicy
  unfold Policy.demand effectiveDemand at h ⊢
  dsimp only at h ⊢
  rw [happlicable] at h ⊢
  rw [List.append_eq_nil_iff, List.append_eq_nil_iff] at h
  obtain ⟨⟨hmode, haxes⟩, hnormal⟩ := h
  unfold resolvePolicyAxes at haxes
  dsimp only at haxes
  simp only [List.append_eq_nil_iff] at haxes
  obtain ⟨⟨⟨⟨⟨hcollection, hretention⟩, hexporting⟩, hbasis⟩, hredaction⟩, hintegrity⟩ := haxes
  obtain ⟨hkeepMode, hnone, hsome⟩ := normalizeEffectiveAxes_of_no_conflict hnormal
  have hstages : ∀ stage, ((Axis.ofStage stage).resolve (policy.kept scope purpose) scope).conflicts =
      [] := by
    intro stage
    cases stage with
    | collection => exact hcollection
    | retention => exact hretention
    | exporting => exact hexporting
  by_cases hmodeNone : policyMode policy.rules scope purpose policy.selected = .none
  · obtain ⟨heq, hcol, hret, hexp⟩ := hnone hmodeNone
    rw [heq]
    refine ⟨hmode, hstages, hbasis, hredaction, hintegrity, hkeepMode, rfl, rfl, rfl,
      fun _ stage => ?_, fun hne => absurd hmodeNone hne⟩
    cases stage with
    | collection => exact ⟨rfl, ne_some_of_getD_ne hcol⟩
    | retention => exact ⟨rfl, ne_some_of_getD_ne hret⟩
    | exporting => exact ⟨rfl, ne_some_of_getD_ne hexp⟩
  · rw [hsome hmodeNone]
    refine ⟨hmode, hstages, hbasis, hredaction, hintegrity, hkeepMode, rfl, rfl, rfl,
      fun heq => absurd heq hmodeNone, fun _ stage value hvalue => ?_⟩
    cases stage with
    | collection => exact congrArg (Option.getD · _) hvalue
    | retention => exact congrArg (Option.getD · _) hvalue
    | exporting => exact congrArg (Option.getD · _) hvalue

/-! ## When mandatory rules are kept -/

/-- A rule asks for nothing that the demand of a policy does not give without it. -/
structure Harmless (rule : ObservationDemandRule) (policy : Policy) (scope : SemanticScope)
    (purpose : ObservationPurpose) : Prop where
  stages : ∀ stage, (Axis.ofStage stage).get rule ≠ some .require
  basis : ∀ value ∈ rule.basis,
    ((Axis.basis.resolve (policy.kept scope purpose) scope).value).getD (defaultBasis purpose) = value
  redaction : ∀ value ∈ rule.redaction,
    (Axis.redaction.resolve (policy.kept scope purpose) scope).value = some value
  integrity : ∀ value ∈ rule.integrity,
    (Axis.integrity.resolve (policy.kept scope purpose) scope).value = some value

/-- A policy does not weaken a rule: the rule's texts are not read as markers, and where the
mode `none` of a deeper rule drops the rule, the rule is harmless. -/
structure Unweakened (rule : ObservationDemandRule) (policy : Policy) (scope : SemanticScope)
    (purpose : ObservationPurpose) : Prop where
  redaction : ∀ value ∈ rule.redaction, Axis.redaction.Concrete value
  integrity : ∀ value ∈ rule.integrity, Axis.integrity.Concrete value
  harmless : rule ∉ policy.kept scope purpose → Harmless rule policy scope purpose

theorem independent_mem_policy {rules : List ObservationDemandRule} {scope : SemanticScope}
    {purpose : ObservationPurpose} {rule : ObservationDemandRule}
    (happlicable : rule ∈ applicableRules rules scope purpose) (h : IndependentConstraint rule)
    {policy : Policy} (hpolicy : policy ∈ policies rules scope purpose) : rule ∈ policy.rules := by
  unfold policies at hpolicy
  dsimp only at hpolicy
  split at hpolicy
  · obtain rfl := List.mem_singleton.mp hpolicy
    rw [List.mem_filter, decide_eq_true_eq]
    exact ⟨happlicable, h.1⟩
  · obtain ⟨selected, -, rfl⟩ := List.mem_map.mp hpolicy
    unfold policyRules
    rw [List.mem_filter, decide_eq_true_eq]
    exact ⟨happlicable, .inr (.inr h)⟩

theorem disable_of_concrete {stage : ObservationLifecycleStage}
    {value : ObservationLifecycleDecision} (hconcrete : (Axis.ofStage stage).Concrete value)
    (hrequire : value ≠ .require) : .disable = value := by
  have htext : (Axis.ofStage stage).text = ObservationLifecycleDecision.value := by
    cases stage <;> rfl
  unfold Axis.Concrete at hconcrete
  rw [htext] at hconcrete
  cases value with
  | inherit => exact absurd rfl hconcrete.1
  | forbid => exact absurd rfl hconcrete.2
  | disable => rfl
  | require => exact absurd rfl hrequire

theorem require_concrete (stage : ObservationLifecycleStage) :
    (Axis.ofStage stage).Concrete .require := by
  cases stage <;> decide

theorem basis_concrete (value : ObservationBasis) : Axis.basis.Concrete value := by
  cases value <;> decide

theorem mode_of_dropped {policy : Policy} {scope : SemanticScope} {purpose : ObservationPurpose}
    {rule : ObservationDemandRule} (hrule : rule ∈ policy.rules)
    (hdropped : rule ∉ policy.kept scope purpose) : policy.mode scope purpose = .none := by
  by_contra hne
  unfold Policy.kept rulesAtEffectiveModeDepth at hdropped
  rw [if_pos hne] at hdropped
  exact hdropped hrule

section Policies

variable {scope : SemanticScope} {purpose : ObservationPurpose} {rule : ObservationDemandRule}
  {policy : Policy} {demand : EffectiveObservationDemand}
  (hresolves : policy.Resolves scope purpose demand) (hmem : rule ∈ policy.rules)

include hresolves hmem

theorem unweakened_of_ruleKept (hkept : RuleKept rule demand) :
    Unweakened rule policy scope purpose := by
  refine ⟨fun value hvalue => ?_, fun value hvalue => ?_, fun hdropped => ?_⟩
  · exact Axis.redaction.concrete_of_resolve
      (hresolves.redaction.symm.trans (hkept.redaction value hvalue))
  · exact Axis.integrity.concrete_of_resolve
      (hresolves.integrity.symm.trans (hkept.integrity value hvalue))
  · have hnone := mode_of_dropped hmem hdropped
    refine ⟨fun stage hrequire => ?_, fun value hvalue => ?_, fun value hvalue => ?_,
      fun value hvalue => ?_⟩
    · have hdecision := hkept.stages stage .require hrequire (require_concrete stage)
      rw [(hresolves.disabled hnone stage).1] at hdecision
      cases hdecision
    · exact hresolves.basis.symm.trans (hkept.basis value hvalue)
    · exact hresolves.redaction.symm.trans (hkept.redaction value hvalue)
    · exact hresolves.integrity.symm.trans (hkept.integrity value hvalue)

variable (hrequired : rule.required = true)

include hrequired

theorem mode_of_required : ∀ value ∈ rule.mode, Axis.mode.Concrete value →
    demand.mode = value := by
  intro value hvalue hconcrete
  rw [hresolves.mode]
  unfold Policy.mode policyMode
  rw [Axis.mode.resolve_of_required hmem hrequired hvalue hconcrete hresolves.modeConflicts]
  rfl

theorem ruleKept_of_kept (hkept : rule ∈ policy.kept scope purpose)
    (hunweakened : Unweakened rule policy scope purpose) : RuleKept rule demand := by
  refine ⟨mode_of_required hresolves hmem hrequired, fun stage value hvalue hconcrete => ?_,
    fun value hvalue => ?_, fun value hvalue => ?_, fun value hvalue => ?_⟩
  · have hstage := (Axis.ofStage stage).resolve_of_required hkept hrequired hvalue hconcrete
      (hresolves.stageConflicts stage)
    by_cases hnone : policy.mode scope purpose = .none
    · obtain ⟨hdisabled, hunrequired⟩ := hresolves.disabled hnone stage
      rw [hdisabled]
      exact disable_of_concrete hconcrete fun hrequire => hunrequired (hrequire ▸ hstage)
    · exact hresolves.enabled hnone stage value hstage
  · rw [hresolves.basis, Axis.basis.resolve_of_required hkept hrequired hvalue (basis_concrete value)
      hresolves.basisConflicts]
    rfl
  · rw [hresolves.redaction]
    exact Axis.redaction.resolve_of_required hkept hrequired hvalue
      (hunweakened.redaction value hvalue) hresolves.redactionConflicts
  · rw [hresolves.integrity]
    exact Axis.integrity.resolve_of_required hkept hrequired hvalue
      (hunweakened.integrity value hvalue) hresolves.integrityConflicts

theorem ruleKept_of_harmless (hdropped : rule ∉ policy.kept scope purpose)
    (hharmless : Harmless rule policy scope purpose) : RuleKept rule demand := by
  have hnone := mode_of_dropped hmem hdropped
  refine ⟨mode_of_required hresolves hmem hrequired, fun stage value hvalue hconcrete => ?_,
    fun value hvalue => ?_, fun value hvalue => ?_, fun value hvalue => ?_⟩
  · rw [(hresolves.disabled hnone stage).1]
    exact disable_of_concrete hconcrete fun hrequire =>
      hharmless.stages stage (hrequire ▸ hvalue)
  · exact hresolves.basis.trans (hharmless.basis value hvalue)
  · exact hresolves.redaction.trans (hharmless.redaction value hvalue)
  · exact hresolves.integrity.trans (hharmless.integrity value hvalue)

end Policies

/-- Without a conflict, a policy keeps a mandatory rule exactly when it does not weaken it. -/
theorem ruleKept_iff {rules : List ObservationDemandRule} {scope : SemanticScope}
    {purpose : ObservationPurpose} {rule : ObservationDemandRule}
    (h : Mandatory rules scope purpose rule) {policy : Policy}
    (hpolicy : policy ∈ policies rules scope purpose)
    (hdiagnostics : (policy.demand scope purpose).2 = []) :
    RuleKept rule (policy.demand scope purpose).1 ↔ Unweakened rule policy scope purpose := by
  have hmem := independent_mem_policy h.1 ⟨h.2.2, .inl h.2.1⟩ hpolicy
  have hresolves := resolves_of_no_conflict hpolicy hdiagnostics
  constructor
  · exact unweakened_of_ruleKept hresolves hmem
  · intro hunweakened
    by_cases hkept : rule ∈ policy.kept scope purpose
    · exact ruleKept_of_kept hresolves hmem h.2.1 hkept hunweakened
    · exact ruleKept_of_harmless hresolves hmem h.2.1 hkept (hunweakened.harmless hkept)

/-! ## The demands of a scope -/

def NothingWeakened (rules : List ObservationDemandRule) (scope : SemanticScope)
    (purpose : ObservationPurpose) : Prop :=
  ∀ rule, Mandatory rules scope purpose rule → ∀ policy ∈ policies rules scope purpose,
    Unweakened rule policy scope purpose

theorem mem_prohibitedStages {rules : List ObservationDemandRule}
    {stage : ObservationLifecycleStage} :
    stage ∈ prohibitedStages rules ↔ ∃ rule ∈ rules, Prohibits rule stage := by
  unfold prohibitedStages
  rw [List.mem_filter, decide_eq_true_eq]
  refine and_iff_right ?_
  cases stage <;> decide

theorem Prohibits.independent {rule : ObservationDemandRule} {stage : ObservationLifecycleStage}
    (h : Prohibits rule stage) (hselector : rule.selector = none) : IndependentConstraint rule := by
  refine ⟨hselector, .inr ?_⟩
  rcases h with hprohibited | hforbid
  · exact .inl (List.ne_nil_of_mem hprohibited)
  · right
    unfold ObservationDemandRule.lifecycle
    rw [← hforbid]
    cases stage with
    | collection => exact List.mem_cons_self
    | retention => exact List.mem_cons_of_mem _ List.mem_cons_self
    | exporting => exact List.mem_cons_of_mem _ (List.mem_cons_of_mem _ List.mem_cons_self)

section Scope

variable {rules : List ObservationDemandRule} {scope : SemanticScope}
  {purpose : ObservationPurpose} {demands : List EffectiveObservationDemand}
  {diagnostics : List Diagnostic}
  (h : scopeDemands rules scope purpose = .ok (demands, diagnostics))

include h

theorem mandatoryKept_iff (hdiagnostics : diagnostics = []) :
    MandatoryKept rules scope purpose demands ↔ NothingWeakened rules scope purpose := by
  obtain ⟨-, hout⟩ := (scopeDemands_eq_ok_iff _ _ _ _).mp h
  obtain ⟨rfl, rfl⟩ := Prod.mk.inj hout
  rw [List.append_eq_nil_iff, List.flatten_eq_nil_iff, List.forall_mem_map] at hdiagnostics
  unfold MandatoryKept NothingWeakened
  refine forall₂_congr fun rule hrule => ?_
  rw [List.forall_mem_map]
  refine forall₂_congr fun policy hpolicy => ?_
  exact ruleKept_iff hrule hpolicy (hdiagnostics.1 policy hpolicy)

/-- What a rule without a selector prohibits is prohibited by every demand of the scope. -/
theorem prohibitionsKept : ProhibitionsKept rules scope purpose demands := by
  obtain ⟨-, hout⟩ := (scopeDemands_eq_ok_iff _ _ _ _).mp h
  obtain ⟨rfl, -⟩ := Prod.mk.inj hout
  intro rule hrule hselector stage hprohibits
  rw [List.forall_mem_map]
  intro policy hpolicy
  have happlicable := applicableRules_policy hpolicy
  have hmem := independent_mem_policy hrule (hprohibits.independent hselector) hpolicy
  unfold Policy.demand effectiveDemand
  dsimp only
  rw [happlicable, mem_prohibitedStages]
  exact ⟨rule, hmem, hprohibits⟩

end Scope

end Raes.Observation
