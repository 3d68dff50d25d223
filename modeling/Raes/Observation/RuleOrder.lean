import Mathlib.Data.List.Perm.Basic
import Raes.Observation.Mandatory
import Raes.Observation.Narrowest

/-!
# The order of observation rules

Normalization does not depend on the order of a document's rules: every choice
among rules is by the texts of their authority and identity.
-/

namespace Raes.Observation

def ToldApart (rules : List ObservationDemandRule) : Prop :=
  ∀ a ∈ rules, ∀ b ∈ rules, a.ruleId = b.ruleId → a = b

theorem toldApart_of_nodup {rules : List ObservationDemandRule}
    (h : (rules.map ObservationDemandRule.ruleId).Nodup) : ToldApart rules :=
  fun _ ha _ hb hab => eq_of_key_eq h ha hb hab

theorem ToldApart.mono {rules other : List ObservationDemandRule} (h : ToldApart rules)
    (hsub : ∀ rule ∈ other, rule ∈ rules) : ToldApart other :=
  fun a ha b hb hab => h a (hsub a ha) b (hsub b hb) hab

section Choices

variable {rules other : List ObservationDemandRule} (hperm : rules.Perm other)

include hperm

theorem sortBy_ruleKey_eq (htold : ToldApart rules) :
    sortBy ruleKey rules = sortBy ruleKey other := by
  refine sortBy_eq_of_perm_of_injOn hperm fun a ha b hb hab => htold a ha b hb ?_
  exact congrArg (fun key => (ofLex key).2) hab

theorem firstRule_eq (htold : ToldApart rules) : firstRule rules = firstRule other := by
  unfold firstRule
  rw [sortBy_ruleKey_eq hperm htold]

theorem deepest_eq : deepest rules = deepest other :=
  (hperm.map observationRuleDepth).foldr_op_eq

theorem sortBy_texts_eq (text : ObservationDemandRule → String) :
    sortBy id (rules.map text) = sortBy id (other.map text) :=
  sortBy_eq_of_perm_of_injOn (hperm.map text) fun _ _ _ _ hab => hab

theorem conflict_eq (scope : SemanticScope) (axis : String) :
    conflict scope axis rules = conflict scope axis other := by
  unfold conflict conflictOrigins
  rw [sortBy_texts_eq hperm]

theorem ruleOrigin_eq : ruleOrigin rules = ruleOrigin other := by
  unfold ruleOrigin
  rw [sortBy_texts_eq hperm]

theorem nil_iff_of_perm : rules = [] ↔ other = [] := by
  constructor
  · rintro rfl
    exact hperm.nil_eq.symm
  · rintro rfl
    exact hperm.eq_nil

section Axes

variable {α : Type} (axis : Axis α)

theorem Axis.candidates_perm : (axis.candidates rules).Perm (axis.candidates other) := by
  have hdeclared : (axis.declared rules).Perm (axis.declared other) := hperm.filter _
  have hmandatory := hdeclared.filter fun rule => rule.required
  unfold Axis.candidates
  dsimp only
  by_cases hnone : ((axis.declared rules).filter fun rule => rule.required) = []
  · rw [if_pos hnone, if_pos ((nil_iff_of_perm hmandatory).mp hnone), deepest_eq hdeclared]
    exact hdeclared.filter _
  · rw [if_neg hnone, if_neg (mt (nil_iff_of_perm hmandatory).mpr hnone)]
    exact hmandatory

theorem Axis.firstCandidate_eq (htold : ToldApart rules) :
    firstRule (axis.candidates rules) = firstRule (axis.candidates other) :=
  firstRule_eq (axis.candidates_perm hperm)
    (htold.mono fun _ hrule => (axis.mem_candidates hrule).1)

theorem Axis.resolve_eq [DecidableEq α] (htold : ToldApart rules) (scope : SemanticScope) :
    axis.resolve rules scope = axis.resolve other scope := by
  have hcandidates := axis.candidates_perm hperm
  have hforbidden : (axis.forbidden rules).Perm (axis.forbidden other) := hperm.filter _
  have hvalues := ((hcandidates.map axis.get).dedup).length_eq
  have hnone := nil_iff_of_perm hforbidden
  unfold Axis.resolve
  rw [axis.firstCandidate_eq hperm htold]
  cases firstRule (axis.candidates other) with
  | none => simp only [hnone, ruleOrigin_eq hforbidden]
  | some winner => simp only [hvalues, ruleOrigin_eq hcandidates, conflict_eq hcandidates]

end Axes

/-! ## One demand -/

theorem applicableRules_perm (scope : SemanticScope) (purpose : ObservationPurpose) :
    (applicableRules rules scope purpose).Perm (applicableRules other scope purpose) :=
  hperm.filter _

theorem policyRules_perm (selected : ObservationDemandRule) :
    (policyRules rules selected).Perm (policyRules other selected) :=
  hperm.filter _

theorem rulesAtEffectiveModeDepth_perm (htold : ToldApart rules) (mode : ObservationDemandMode) :
    (rulesAtEffectiveModeDepth rules mode).Perm (rulesAtEffectiveModeDepth other mode) := by
  have hwinner : observationAxisWinner rules Axis.mode = observationAxisWinner other Axis.mode :=
    Axis.mode.firstCandidate_eq hperm htold
  unfold rulesAtEffectiveModeDepth
  by_cases hmode : mode ≠ .none
  · rw [if_pos hmode, if_pos hmode]
    exact hperm
  · rw [if_neg hmode, if_neg hmode, hwinner]
    cases observationAxisWinner other Axis.mode with
    | none => exact hperm
    | some winner => exact hperm.filter _

omit hperm in
theorem rulesAtEffectiveModeDepth_subset {mode : ObservationDemandMode} :
    ∀ rule ∈ rulesAtEffectiveModeDepth rules mode, rule ∈ rules := by
  intro rule hrule
  unfold rulesAtEffectiveModeDepth at hrule
  split at hrule
  · exact hrule
  · split at hrule
    · exact hrule
    · exact (List.mem_filter.mp hrule).1

theorem effectiveSelector_eq (selected : Option ObservationDemandRule) (scope : SemanticScope) :
    effectiveSelector selected rules scope = effectiveSelector selected other scope := by
  unfold effectiveSelector
  cases selected with
  | none => rfl
  | some rule => simp only [hperm.mem_iff]

theorem resolvePolicyAxes_eq (htold : ToldApart rules) (purpose : ObservationPurpose)
    (mode : ObservationDemandMode) (hasSelectors : Bool) (scope : SemanticScope) :
    resolvePolicyAxes rules purpose mode hasSelectors scope =
      resolvePolicyAxes other purpose mode hasSelectors scope := by
  unfold resolvePolicyAxes
  simp only [Axis.resolve_eq hperm _ htold]

theorem normalizeEffectiveAxes_eq (mode : ObservationDemandMode)
    (selectors : List ObservationSelector) (axes : ResolvedPolicyAxes) (scope : SemanticScope) :
    normalizeEffectiveAxes mode selectors axes rules scope =
      normalizeEffectiveAxes mode selectors axes other scope := by
  unfold normalizeEffectiveAxes
  simp only [conflict_eq hperm]

theorem prohibitedStages_eq : prohibitedStages rules = prohibitedStages other := by
  unfold prohibitedStages
  refine List.filter_congr fun stage _ => ?_
  simp only [hperm.mem_iff]

theorem effectiveDemand_eq (htold : ToldApart rules) (scope : SemanticScope)
    (purpose : ObservationPurpose) (selected : Option ObservationDemandRule) :
    effectiveDemand rules scope purpose selected = effectiveDemand other scope purpose selected := by
  have happlicable := applicableRules_perm hperm scope purpose
  have htold' : ToldApart (applicableRules rules scope purpose) :=
    htold.mono fun _ hrule => (mem_applicableRules.mp hrule).1
  have hmode : policyMode (applicableRules rules scope purpose) scope purpose selected =
      policyMode (applicableRules other scope purpose) scope purpose selected := by
    unfold policyMode
    rw [Axis.mode.resolve_eq happlicable htold']
  have hkept := rulesAtEffectiveModeDepth_perm happlicable htold'
    (policyMode (applicableRules other scope purpose) scope purpose selected)
  have hrequired : (applicableRules rules scope purpose).any (fun rule => rule.required) =
      (applicableRules other scope purpose).any fun rule => rule.required := happlicable.any_eq
  unfold effectiveDemand
  dsimp only
  rw [Axis.mode.resolve_eq happlicable htold', hmode, effectiveSelector_eq hkept,
    resolvePolicyAxes_eq hkept (htold'.mono fun rule hrule =>
      rulesAtEffectiveModeDepth_subset rule hrule),
    normalizeEffectiveAxes_eq happlicable, prohibitedStages_eq happlicable, hrequired]

/-! ## The demands of a scope -/

theorem authoritySelectorRules_perm (authority : String) :
    (authoritySelectorRules rules authority).Perm (authoritySelectorRules other authority) := by
  have hauthority := hperm.filter fun rule => rule.authorityRef = authority
  have hordinary := hauthority.filter fun rule => ¬ rule.required ∧ rule.selector ≠ none
  unfold authoritySelectorRules
  dsimp only
  rw [deepest_eq hordinary]
  exact (hauthority.filter _).append (hordinary.filter _)

theorem selectorRules_eq (htold : ToldApart rules) : selectorRules rules = selectorRules other := by
  have hauthorities : sortedSet (rules.map ObservationDemandRule.authorityRef) =
      sortedSet (other.map ObservationDemandRule.authorityRef) := by
    refine eq_of_pairwise_lt (sortedSet_pairwise _) (sortedSet_pairwise _) fun authority => ?_
    rw [mem_sortedSet, mem_sortedSet, (hperm.map _).mem_iff]
  unfold selectorRules
  rw [hauthorities]
  refine sortBy_eq_of_perm_of_injOn
    (List.Perm.flatMap_left _ fun authority _ => authoritySelectorRules_perm hperm authority) ?_
  intro a ha b hb hab
  obtain ⟨authority, -, ha⟩ := List.mem_flatMap.mp ha
  obtain ⟨authority', -, hb⟩ := List.mem_flatMap.mp hb
  exact htold a (mem_authoritySelectorRules ha) b (mem_authoritySelectorRules hb)
    (congrArg (fun key => (ofLex key).2) hab)

theorem selectedRules_eq (htold : ToldApart rules) (scope : SemanticScope) :
    selectedRules rules scope = selectedRules other scope := by
  unfold selectedRules
  rw [selectorRules_eq hperm htold]

end Choices

def SameRules (rules other : List ObservationDemandRule) : Prop :=
  rules.Perm other ∧ ToldApart rules

theorem stageOverlapConflicts_iff {stage : ObservationLifecycleStage}
    {left right : EffectiveObservationDemand}
    {leftRules leftOther rightRules rightOther : List ObservationDemandRule}
    (hleft : SameRules leftRules leftOther) (hright : SameRules rightRules rightOther) :
    StageOverlapConflicts stage left right leftRules rightRules ↔
      StageOverlapConflicts stage left right leftOther rightOther := by
  have hwinner : observationAxisWinner
        (if left.decision stage = .disable then leftRules else rightRules) (Axis.ofStage stage) =
      observationAxisWinner (if left.decision stage = .disable then leftOther else rightOther)
        (Axis.ofStage stage) := by
    split
    · exact (Axis.ofStage stage).firstCandidate_eq hleft.1 hleft.2
    · exact (Axis.ofStage stage).firstCandidate_eq hright.1 hright.2
  unfold StageOverlapConflicts
  rw [hwinner]

theorem overlapConflicts_eq (scope : SemanticScope) (selected : List ObservationDemandRule)
    {pairs others : List (EffectiveObservationDemand × List ObservationDemandRule)}
    (h : List.Forall₂ (fun a b => a.1 = b.1 ∧ SameRules a.2 b.2) pairs others) :
    overlapConflicts scope selected pairs = overlapConflicts scope selected others := by
  induction h with
  | nil => rfl
  | @cons left left' rest rest' hleft hrest ih =>
    unfold overlapConflicts
    rw [ih]
    have hconflicts : ∀ ⦃right right' : EffectiveObservationDemand × List ObservationDemandRule⦄,
        right.1 = right'.1 ∧ SameRules right.2 right'.2 →
        (decide (SelectorLifecycleOverlapConflicts left.1 right.1 left.2 right.2) = true ↔
          decide (SelectorLifecycleOverlapConflicts left'.1 right'.1 left'.2 right'.2) = true) := by
      intro right right' hright
      rw [decide_eq_true_eq, decide_eq_true_eq, hleft.1, hright.1]
      refine and_congr_right fun _ => ?_
      simp only [stageOverlapConflicts_iff hleft.2 hright.2]
    have hlength := (List.rel_filter hconflicts hrest).length_eq
    rw [List.map_const', List.map_const', hlength]

theorem forall₂_policies {f g : ObservationDemandRule → List ObservationDemandRule}
    (h : ∀ rule, SameRules (f rule) (g rule)) (demands : List EffectiveObservationDemand)
    (selected : List ObservationDemandRule) :
    List.Forall₂ (fun a b => a.1 = b.1 ∧ SameRules a.2 b.2) (demands.zip (selected.map f))
      (demands.zip (selected.map g)) := by
  induction demands generalizing selected with
  | nil => exact .nil
  | cons demand rest ih =>
    cases selected with
    | nil => exact .nil
    | cons rule more => exact .cons ⟨rfl, h rule⟩ (ih more)

theorem scopeDemands_eq {rules other : List ObservationDemandRule} (hperm : rules.Perm other)
    (htold : ToldApart rules) (scope : SemanticScope) (purpose : ObservationPurpose) :
    scopeDemands rules scope purpose = scopeDemands other scope purpose := by
  have happlicable := applicableRules_perm hperm scope purpose
  have htold' : ToldApart (applicableRules rules scope purpose) :=
    htold.mono fun _ hrule => (mem_applicableRules.mp hrule).1
  have hpolicy : ∀ rule, SameRules (policyRules (applicableRules rules scope purpose) rule)
      (policyRules (applicableRules other scope purpose) rule) := fun rule =>
    ⟨policyRules_perm happlicable rule, htold'.mono fun _ h => (List.mem_filter.mp h).1⟩
  have heffective : ∀ rule,
      effectiveFor (policyRules (applicableRules rules scope purpose) rule) scope purpose (some rule) =
        effectiveFor (policyRules (applicableRules other scope purpose) rule) scope purpose
          (some rule) := by
    intro rule
    unfold effectiveFor
    rw [effectiveDemand_eq (hpolicy rule).1 (hpolicy rule).2]
  have hplain : effectiveFor ((applicableRules rules scope purpose).filter fun rule =>
        rule.selector = none) scope purpose none =
      effectiveFor ((applicableRules other scope purpose).filter fun rule =>
        rule.selector = none) scope purpose none := by
    unfold effectiveFor
    rw [effectiveDemand_eq (happlicable.filter _) (htold'.mono fun _ h => (List.mem_filter.mp h).1)]
  unfold scopeDemands
  dsimp only
  rw [selectedRules_eq happlicable htold' scope, hplain]
  simp only [heffective, overlapConflicts_eq scope _ (forall₂_policies hpolicy _ _)]

/-! ## Normalization -/

theorem ObservationPurpose.value_injective {a b : ObservationPurpose} (h : a.value = b.value) :
    a = b := by
  cases a <;> cases b <;> first | rfl | exact absurd h (by decide)

theorem demandTargets_eq {rules other : List ObservationDemandRule} (hperm : rules.Perm other)
    (targetScopes : List SemanticScope) :
    demandTargets rules targetScopes = demandTargets other targetScopes := by
  have hpurposes : demandPurposes rules = demandPurposes other := by
    unfold demandPurposes
    refine sortBy_eq_of_perm_of_injOn ?_ fun _ _ _ _ h => ObservationPurpose.value_injective h
    exact ((hperm.map ObservationDemandRule.purpose).cons _).dedup
  unfold demandTargets
  simp only [hpurposes, hperm.mem_iff]

theorem normalizeObservationDemands_eq {document other : ObservationDemandDocument}
    (hperm : document.rules.Perm other.rules) (targetScopes : List SemanticScope)
    (limits : Realization.Limits) :
    normalizeObservationDemands (some document) targetScopes limits =
      normalizeObservationDemands (some other) targetScopes limits := by
  have htold := toldApart_of_nodup document.unique
  unfold normalizeObservationDemands
  dsimp only [Option.map_some, Option.getD_some]
  simp only [hperm.length_eq, demandTargets_eq hperm, scopeDemands_eq hperm htold]

/-! ## Sound demands -/

structure DemandsSound (document : ObservationDemandDocument) : Prop where
  /-- Without a diagnostic, the demands of a scope keep the mandatory rules exactly when
  nothing weakens them. -/
  mandatory : ∀ scope purpose demands diagnostics,
    scopeDemands document.rules scope purpose = .ok (demands, diagnostics) → diagnostics = [] →
      (MandatoryKept document.rules scope purpose demands ↔
        NothingWeakened document.rules scope purpose)
  prohibitions : ∀ scope purpose demands diagnostics,
    scopeDemands document.rules scope purpose = .ok (demands, diagnostics) →
      ProhibitionsKept document.rules scope purpose demands
  /-- Normalization yields demands of scopes, with selectors left out, and their diagnostics. -/
  effective : ∀ targetScopes limits resolution,
    normalizeObservationDemands (some document) targetScopes limits = .ok resolution →
      ∀ demand ∈ resolution.effective, ∃ demands diagnostics,
        scopeDemands document.rules demand.scope demand.purpose = .ok (demands, diagnostics) ∧
        (∀ diagnostic ∈ diagnostics, diagnostic ∈ resolution.diagnostics) ∧
        ∃ whole ∈ demands, ∃ selectors, demand = { whole with selectors := selectors }
  order : ∀ other : ObservationDemandDocument, document.rules.Perm other.rules →
    ∀ targetScopes limits, normalizeObservationDemands (some document) targetScopes limits =
      normalizeObservationDemands (some other) targetScopes limits

theorem effective_of_scopeDemands {document : ObservationDemandDocument}
    {targetScopes : List SemanticScope} {limits : Realization.Limits}
    {resolution : ObservationDemandResolution}
    (h : normalizeObservationDemands (some document) targetScopes limits = .ok resolution)
    {demand : EffectiveObservationDemand} (hdemand : demand ∈ resolution.effective) :
    ∃ demands diagnostics,
      scopeDemands document.rules demand.scope demand.purpose = .ok (demands, diagnostics) ∧
      (∀ diagnostic ∈ diagnostics, diagnostic ∈ resolution.diagnostics) ∧
      ∃ whole ∈ demands, ∃ selectors, demand = { whole with selectors := selectors } := by
  obtain ⟨-, hvalid, rfl⟩ := normalizeObservationDemands_eq_ok_iff.mp h
  obtain ⟨whole, hwhole, hsome⟩ := mem_partition_iff.mp hdemand
  obtain ⟨⟨selectors, rfl⟩, -⟩ := partitionedDemand_eq_some hsome
  obtain ⟨scope, purpose, htarget, policy, hpolicy, rfl⟩ := mem_resolvedDemands.mp hwhole
  refine ⟨_, _, (scopeDemands_eq_ok_iff _ _ _ _).mpr ⟨hvalid (scope, purpose) htarget, rfl⟩, ?_,
    _, List.mem_map_of_mem hpolicy, selectors, rfl⟩
  intro diagnostic hdiagnostic
  exact List.mem_flatMap.mpr ⟨(scope, purpose), htarget, hdiagnostic⟩

/-- Mandatory rules are kept unless they are weakened, prohibitions are kept, and the order of
the rules does not matter. -/
theorem observation_demands_sound (document : ObservationDemandDocument) :
    DemandsSound document where
  mandatory := fun _ _ _ _ h hdiagnostics => mandatoryKept_iff h hdiagnostics
  prohibitions := fun _ _ _ _ h => prohibitionsKept h
  effective := fun _ _ _ h _ hdemand => effective_of_scopeDemands h hdemand
  order := fun _ hperm targetScopes limits =>
    normalizeObservationDemands_eq hperm targetScopes limits

/-! ## A mandatory rule above a mode `none` -/

/-- A required rule of the whole document that asks for collection. -/
def mandatoryCollection : ObservationDemandRule where
  ruleId := "mandatory"
  scope := ⟨[]⟩
  purpose := .experimental
  mode := none
  selector := none
  collection := some .require
  retention := none
  exporting := none
  basis := none
  prohibitedStages := []
  redaction := none
  integrity := none
  required := true
  authorityRef := "operator-policy"

/-- An optional rule of `/nodes` that asks for nothing. -/
def localNone : ObservationDemandRule where
  ruleId := "local"
  scope := ⟨["nodes"]⟩
  purpose := .experimental
  mode := some .none
  selector := none
  collection := none
  retention := none
  exporting := none
  basis := none
  prohibitedStages := []
  redaction := none
  integrity := none
  required := false
  authorityRef := "author"

theorem mandatoryCollection_valid : mandatoryCollection.Valid where
  selector := fun _ h => nomatch h
  prohibited := List.nodup_nil
  declares := by decide
  selects := fun _ h => nomatch h
  exhausts := fun h => nomatch h
  protects := fun _ _ h => nomatch h

theorem localNone_valid : localNone.Valid where
  selector := fun _ h => nomatch h
  prohibited := List.nodup_nil
  declares := by decide
  selects := by
    intro mode hmode hselecting
    cases hmode
    rcases hselecting with h | h <;> cases h
  exhausts := fun h => nomatch h
  protects := by
    intro mode _ hmode hselecting
    cases hmode
    rcases hselecting with h | h <;> cases h

def weakenedDocument : ObservationDemandDocument where
  rules := [mandatoryCollection, localNone]
  valid := by
    rintro rule hrule
    rcases List.mem_cons.mp hrule with rfl | hrule
    · exact mandatoryCollection_valid
    · obtain rfl := List.mem_singleton.mp hrule
      exact localNone_valid
  unique := by decide

/-- An optional `none` of a deeper rule drops a mandatory rule without a diagnostic. -/
theorem deeper_none_drops_mandatory : ¬ ∀ (document : ObservationDemandDocument) scope purpose
    demands diagnostics,
    scopeDemands document.rules scope purpose = .ok (demands, diagnostics) →
      MandatoryKept document.rules scope purpose demands ∨ diagnostics ≠ [] := by
  intro hclaim
  have hpolicies : policies weakenedDocument.rules ⟨["nodes"]⟩ .experimental =
      [⟨weakenedDocument.rules, none⟩] := by decide +kernel
  obtain ⟨⟨demands, diagnostics⟩, h⟩ := exists_ok_of_toBool
    (x := scopeDemands weakenedDocument.rules ⟨["nodes"]⟩ .experimental) (by decide +kernel)
  obtain ⟨-, hout⟩ := (scopeDemands_eq_ok_iff _ _ _ _).mp h
  obtain ⟨rfl, hdiagnostics⟩ := Prod.mk.inj hout
  rw [hpolicies] at h hdiagnostics
  rcases hclaim _ _ _ _ _ h with hkept | hreported
  · have hmandatory : Mandatory weakenedDocument.rules ⟨["nodes"]⟩ .experimental
        mandatoryCollection := ⟨by decide +kernel, rfl, rfl⟩
    have hcollection := (hkept mandatoryCollection hmandatory _ List.mem_cons_self).stages
      .collection .require rfl (by decide)
    revert hcollection
    decide +kernel
  · refine hreported (hdiagnostics.trans ?_)
    decide +kernel

end Raes.Observation
