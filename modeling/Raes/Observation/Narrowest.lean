import Raes.Observation.Effective

/-!
# The partition of demands among nested scopes

What a list of demands must satisfy for its partition to leave every address to
the narrowest scope, whatever rules the demands come from.
-/

namespace Raes.Observation

def ObservationSelector.Covers (selector : ObservationSelector) (address : SemanticScope) : Prop :=
  selector.semanticScope.Contains address ∧
    ∀ excluded ∈ selector.excludedScopes, ¬ excluded.Contains address

/-- No demand reaches into a narrower scope of its purpose, so whatever covers an
address is a demand of the narrowest target scope around the address. -/
structure NarrowestScopeGoverns (effective : List EffectiveObservationDemand)
    (targetScopes : List SemanticScope) : Prop where
  isolates : ∀ demand ∈ effective, ∀ narrower ∈ effective, demand.purpose = narrower.purpose →
    demand.scope.StrictlyContains narrower.scope → ∀ selector ∈ demand.selectors,
      ∀ address, narrower.scope.Contains address → ¬ selector.Covers address
  governs : ∀ demand ∈ effective, ∀ selector ∈ demand.selectors, ∀ address,
    selector.Covers address → demand.scope.Contains address ∧
      ∀ scope ∈ targetScopes, scope.Contains address → scope.Contains demand.scope

structure ScopedDemands (demands : List EffectiveObservationDemand)
    (targetScopes : List SemanticScope) : Prop where
  scopes : ∀ demand ∈ demands, demand.scope ∈ targetScopes
  inside : ∀ demand ∈ demands, ∀ selector ∈ demand.selectors,
    demand.scope.Contains selector.semanticScope
  excluded : ∀ demand ∈ demands, ∀ selector ∈ demand.selectors,
    ∀ excluded ∈ selector.excludedScopes, selector.semanticScope.StrictlyContains excluded
  /-- A purpose that is resolved at a scope is resolved at every target scope inside it. -/
  downward : ∀ demand ∈ demands, ∀ scope ∈ targetScopes, demand.scope.Contains scope →
    ∃ candidate ∈ demands, candidate.scope = scope ∧ candidate.purpose = demand.purpose

/-! ## The partition -/

variable {demands : List EffectiveObservationDemand}

theorem mem_partitionedSelector_excludedScopes {selector : ObservationSelector}
    {demand : EffectiveObservationDemand} {scope : SemanticScope} :
    scope ∈ (partitionedSelector selector demand demands).excludedScopes ↔
      scope ∈ selector.excludedScopes ∨ ∃ candidate ∈ demands, candidate.scope = scope ∧
        candidate ≠ demand ∧ candidate.purpose = demand.purpose ∧
        candidate.scope ≠ selector.semanticScope ∧
        selector.semanticScope.Contains candidate.scope := by
  unfold partitionedSelector descendantScopes
  rw [(sortBy_perm _ _).mem_iff, List.mem_dedup, List.mem_append, List.mem_map]
  simp only [List.mem_filter, decide_eq_true_eq]
  constructor
  · rintro (h | ⟨candidate, ⟨hmem, hcandidate⟩, hscope⟩)
    · exact .inl h
    · exact .inr ⟨candidate, hmem, hscope, hcandidate⟩
  · rintro (h | ⟨candidate, hmem, hscope, hcandidate⟩)
    · exact .inl h
    · exact .inr ⟨candidate, ⟨hmem, hcandidate⟩, hscope⟩

theorem mem_partition_iff {after : EffectiveObservationDemand} :
    after ∈ partitionDescendantObservationPolicies demands ↔
      ∃ demand ∈ demands, partitionedDemand demand demands = some after := by
  unfold partitionDescendantObservationPolicies
  rw [List.mem_filterMap]

/-- What is kept of a demand has its scope and its purpose, and selectors of it. -/
theorem partitionedDemand_eq_some {demand after : EffectiveObservationDemand}
    (h : partitionedDemand demand demands = some after) :
    (∃ selectors, after = { demand with selectors := selectors }) ∧
      ∀ kept, kept ∈ after.selectors ↔ ∃ selector ∈ demand.selectors,
        ¬ NarrowerScopeOwnsSelector selector demand demands ∧
        partitionedSelector selector demand demands = kept := by
  unfold partitionedDemand at h
  dsimp only at h
  split at h
  · cases h
  · cases h
    refine ⟨⟨_, rfl⟩, fun kept => ?_⟩
    simp only [List.mem_map, List.mem_filter, decide_eq_true_eq]
    constructor
    · rintro ⟨selector, ⟨hmem, howns⟩, hkept⟩
      exact ⟨selector, hmem, howns, hkept⟩
    · rintro ⟨selector, hmem, howns, hkept⟩
      exact ⟨selector, ⟨hmem, howns⟩, hkept⟩

theorem exists_partitioned {demand : EffectiveObservationDemand} (hdemand : demand ∈ demands)
    {selector : ObservationSelector} (hselector : selector ∈ demand.selectors)
    (howns : ¬ NarrowerScopeOwnsSelector selector demand demands) :
    ∃ after ∈ partitionDescendantObservationPolicies demands, after.scope = demand.scope ∧
      partitionedSelector selector demand demands ∈ after.selectors := by
  have hkept : partitionedSelector selector demand demands ∈
      ((demand.selectors.filter fun selector =>
        ¬ NarrowerScopeOwnsSelector selector demand demands).map fun selector =>
          partitionedSelector selector demand demands) := by
    refine List.mem_map.mpr ⟨selector, ?_, rfl⟩
    rw [List.mem_filter, decide_eq_true_eq]
    exact ⟨hselector, howns⟩
  refine ⟨_, mem_partition_iff.mpr ⟨demand, hdemand, if_neg fun h => ?_⟩, rfl, hkept⟩
  rw [h.1] at hkept
  cases hkept

section Scoped

variable {demands : List EffectiveObservationDemand} {targetScopes : List SemanticScope}
  (h : ScopedDemands demands targetScopes)

include h

variable {demand : EffectiveObservationDemand}

section

variable (hdemand : demand ∈ demands)
include hdemand

variable {selector : ObservationSelector}

theorem ScopedDemands.owns (hselector : selector ∈ demand.selectors)
    (htarget : selector.semanticScope ∈ targetScopes)
    (hne : selector.semanticScope ≠ demand.scope) :
    NarrowerScopeOwnsSelector selector demand demands := by
  obtain ⟨candidate, hcandidate, hscope, hpurpose⟩ :=
    h.downward demand hdemand _ htarget (h.inside demand hdemand selector hselector)
  exact ⟨candidate, hcandidate, hpurpose, hscope ▸ hne, hscope⟩

theorem ScopedDemands.not_covers (hselector : selector ∈ demand.selectors)
    {scope address : SemanticScope} (hscope : scope ∈ targetScopes)
    (hinside : selector.semanticScope.StrictlyContains scope) (haddress : scope.Contains address) :
    ¬ (partitionedSelector selector demand demands).Covers address := by
  rintro ⟨-, hexcluded⟩
  have hselectorInside := h.inside demand hdemand selector hselector
  obtain ⟨candidate, hcandidate, hcandidateScope, hpurpose⟩ :=
    h.downward demand hdemand scope hscope (hselectorInside.trans hinside.1)
  refine hexcluded scope ?_ haddress
  rw [mem_partitionedSelector_excludedScopes]
  refine .inr ⟨candidate, hcandidate, hcandidateScope, ?_, hpurpose, ?_, ?_⟩
  · rintro rfl
    exact hinside.not_contains (hcandidateScope ▸ hselectorInside)
  · rw [hcandidateScope]
    exact fun heq => hinside.2 heq.symm
  · rw [hcandidateScope]
    exact hinside.1

theorem ScopedDemands.covers_self (hselector : selector ∈ demand.selectors) :
    (partitionedSelector selector demand demands).Covers selector.semanticScope := by
  refine ⟨SemanticScope.contains_self _, fun excluded hexcluded => ?_⟩
  rw [mem_partitionedSelector_excludedScopes] at hexcluded
  rcases hexcluded with hexcluded | ⟨candidate, -, rfl, -, -, hne, hcontains⟩
  · exact (h.excluded demand hdemand selector hselector excluded hexcluded).not_contains
  · exact SemanticScope.StrictlyContains.not_contains ⟨hcontains, hne.symm⟩

/-- A selector that covers an address of a scope inside its demand's scope, and is not owned,
lies strictly inside that scope. -/
theorem ScopedDemands.strictly_inside (hselector : selector ∈ demand.selectors)
    (howns : ¬ NarrowerScopeOwnsSelector selector demand demands) {scope address : SemanticScope}
    (hscope : scope ∈ targetScopes) (hstrict : demand.scope.StrictlyContains scope)
    (haddress : scope.Contains address)
    (hcovers : (partitionedSelector selector demand demands).Covers address) :
    scope.StrictlyContains selector.semanticScope := by
  have hne : scope ≠ selector.semanticScope := by
    rintro rfl
    exact howns (h.owns hdemand hselector hscope hstrict.2.symm)
  rcases SemanticScope.Contains.total haddress hcovers.1 with hinside | houtside
  · exact ⟨hinside, hne⟩
  · exact absurd hcovers (h.not_covers hdemand hselector hscope ⟨houtside, hne.symm⟩ haddress)

end

/-- The narrowest scope governs exactly when every selector that lies strictly inside a target
scope which lies strictly inside the scope of its demand is about a target scope itself. -/
theorem ScopedDemands.narrowestScopeGoverns_iff :
    NarrowestScopeGoverns (partitionDescendantObservationPolicies demands) targetScopes ↔
      ∀ demand ∈ demands, ∀ selector ∈ demand.selectors, ∀ scope ∈ targetScopes,
        demand.scope.StrictlyContains scope → scope.StrictlyContains selector.semanticScope →
          selector.semanticScope ∈ targetScopes := by
  constructor
  · intro hgoverns demand hdemand selector hselector scope hscope hstrict hinside
    by_contra hmissing
    have howns : ¬ NarrowerScopeOwnsSelector selector demand demands := by
      rintro ⟨candidate, hcandidate, -, -, heq⟩
      exact hmissing (heq ▸ h.scopes candidate hcandidate)
    obtain ⟨after, hafter, hafterScope, hkept⟩ := exists_partitioned hdemand hselector howns
    have hlaw := (hgoverns.governs after hafter _ hkept _
      (h.covers_self hdemand hselector)).2 scope hscope hinside.1
    rw [hafterScope] at hlaw
    exact hstrict.not_contains hlaw
  · intro hresolved
    -- a covered address of a target scope inside the demand's scope would give a selector
    -- strictly inside that scope, whose own scope is a target scope and so owns it
    have hcore : ∀ demand ∈ demands, ∀ selector ∈ demand.selectors,
        ¬ NarrowerScopeOwnsSelector selector demand demands → ∀ scope ∈ targetScopes,
        demand.scope.StrictlyContains scope → ∀ address, scope.Contains address →
        ¬ (partitionedSelector selector demand demands).Covers address := by
      intro demand hdemand selector hselector howns scope hscope hstrict address haddress hcovers
      have hinside := h.strictly_inside hdemand hselector howns hscope hstrict haddress hcovers
      have htarget := hresolved demand hdemand selector hselector scope hscope hstrict hinside
      refine howns (h.owns hdemand hselector htarget fun heq => ?_)
      exact hstrict.not_contains (heq ▸ hinside.1)
    constructor
    · intro after hafter narrower hnarrower hpurpose hstrict kept hkept address haddress
      obtain ⟨demand, hdemand, hsome⟩ := mem_partition_iff.mp hafter
      obtain ⟨⟨_, rfl⟩, hselectors⟩ := partitionedDemand_eq_some hsome
      obtain ⟨selector, hselector, howns, rfl⟩ := (hselectors kept).mp hkept
      obtain ⟨other, hother, hsome'⟩ := mem_partition_iff.mp hnarrower
      obtain ⟨⟨_, rfl⟩, -⟩ := partitionedDemand_eq_some hsome'
      exact hcore demand hdemand selector hselector howns _ (h.scopes other hother) hstrict address
        haddress
    · intro after hafter kept hkept address hcovers
      obtain ⟨demand, hdemand, hsome⟩ := mem_partition_iff.mp hafter
      obtain ⟨⟨_, rfl⟩, hselectors⟩ := partitionedDemand_eq_some hsome
      obtain ⟨selector, hselector, howns, rfl⟩ := (hselectors kept).mp hkept
      have hdemandAddress : demand.scope.Contains address :=
        (h.inside demand hdemand selector hselector).trans hcovers.1
      refine ⟨hdemandAddress, fun scope hscope haddress => ?_⟩
      rcases SemanticScope.Contains.total haddress hdemandAddress with hwider | hnarrower
      · exact hwider
      · by_contra hnot
        have hstrict : demand.scope.StrictlyContains scope :=
          ⟨hnarrower, fun heq => hnot (heq ▸ SemanticScope.contains_self _)⟩
        exact hcore demand hdemand selector hselector howns scope hscope hstrict address haddress
          hcovers

end Scoped

end Raes.Observation

/-!
# The narrowest observation scope

A demand hands over what a narrower scope governs when a selector reaches to that
scope or beyond it.  A selector strictly inside the narrower scope stays with both
demands, unless its own scope is a target scope.
-/

namespace Raes.Observation

open PyError

/-! ## The selectors of a policy -/

theorem normalizeEffectiveAxes_selectors (mode : ObservationDemandMode)
    (selectors : List ObservationSelector) (axes : ResolvedPolicyAxes)
    (applicable : List ObservationDemandRule) (scope : SemanticScope) :
    (normalizeEffectiveAxes mode selectors axes applicable scope).selectors =
      if mode = .none then [] else selectors := by
  unfold normalizeEffectiveAxes
  by_cases hnone : mode = .none
  · rw [if_pos hnone, if_pos hnone]
  · rw [if_neg hnone, if_neg hnone]
    split
    · rfl
    · split <;> rfl

theorem effectiveDemand_selectors (rules : List ObservationDemandRule) (scope : SemanticScope)
    (purpose : ObservationPurpose) (selected : Option ObservationDemandRule) :
    (effectiveDemand rules scope purpose selected).1.selectors =
      if policyMode (applicableRules rules scope purpose) scope purpose selected = .none then []
      else (effectiveSelector selected (applicableRules rules scope purpose) scope).toList := by
  unfold effectiveDemand
  dsimp only
  rw [normalizeEffectiveAxes_selectors]
  by_cases hnone : policyMode (applicableRules rules scope purpose) scope purpose selected = .none
  · rw [if_pos hnone, if_pos hnone]
  · rw [if_neg hnone, if_neg hnone]
    unfold rulesAtEffectiveModeDepth
    rw [if_pos hnone]

def selectorMode (rules : List ObservationDemandRule) (scope : SemanticScope)
    (purpose : ObservationPurpose) (rule : ObservationDemandRule) : ObservationDemandMode :=
  policyMode (policyRules (applicableRules rules scope purpose) rule) scope purpose (some rule)

/-- The selectors of a policy are the clipped selector of its rule, unless its mode is `none`. -/
theorem mem_policy_selectors {rules : List ObservationDemandRule} {scope : SemanticScope}
    {purpose : ObservationPurpose} {selector : ObservationSelector} :
    (∃ policy ∈ policies rules scope purpose,
        selector ∈ (policy.demand scope purpose).1.selectors) ↔
      ∃ rule ∈ selectedRules (applicableRules rules scope purpose) scope,
        selectorMode rules scope purpose rule ≠ .none ∧ ∃ whole ∈ rule.selector,
          clippedObservationSelector whole scope = some selector := by
  have hselected : ∀ rule ∈ selectedRules (applicableRules rules scope purpose) scope,
      effectiveSelector (some rule) (policyRules (applicableRules rules scope purpose) rule) scope =
        rule.selector.bind fun whole => clippedObservationSelector whole scope := by
    intro rule hrule
    have hmem : rule ∈ policyRules (applicableRules rules scope purpose) rule := by
      unfold policyRules
      rw [List.mem_filter, decide_eq_true_eq]
      exact ⟨(mem_selectedRules hrule).1, .inl rfl⟩
    unfold effectiveSelector
    dsimp only
    rw [if_neg (not_not.mpr hmem)]
    cases rule.selector <;> rfl
  constructor
  · rintro ⟨policy, hpolicy, hselector⟩
    have happlicable := applicableRules_policy hpolicy
    unfold Policy.demand at hselector
    rw [effectiveDemand_selectors, happlicable] at hselector
    unfold policies at hpolicy
    dsimp only at hpolicy
    split at hpolicy
    · obtain rfl := List.mem_singleton.mp hpolicy
      split at hselector <;> cases hselector
    · obtain ⟨rule, hrule, rfl⟩ := List.mem_map.mp hpolicy
      dsimp only at hselector
      rw [hselected rule hrule] at hselector
      split at hselector
      · cases hselector
      · rename_i hmode
        rw [Option.mem_toList, Option.bind_eq_some_iff] at hselector
        exact ⟨rule, hrule, hmode, hselector⟩
  · rintro ⟨rule, hrule, hmode, hclip⟩
    have hne : selectedRules (applicableRules rules scope purpose) scope ≠ [] :=
      List.ne_nil_of_mem hrule
    have hpolicy : (⟨policyRules (applicableRules rules scope purpose) rule, some rule⟩ : Policy) ∈
        policies rules scope purpose := by
      unfold policies
      dsimp only
      rw [if_neg hne]
      exact List.mem_map_of_mem hrule
    refine ⟨_, hpolicy, ?_⟩
    have happlicable := applicableRules_policy hpolicy
    unfold selectorMode at hmode
    unfold Policy.demand
    rw [effectiveDemand_selectors, happlicable]
    dsimp only
    rw [if_neg hmode, hselected rule hrule, Option.mem_toList, Option.bind_eq_some_iff]
    exact hclip

section Clip

variable {whole selector : ObservationSelector} {scope : SemanticScope}
  (h : clippedObservationSelector whole scope = some selector)

include h

theorem clipped_eq : clippedScope whole scope = some selector.semanticScope ∧
    ∀ excluded ∈ selector.excludedScopes, selector.semanticScope.StrictlyContains excluded := by
  unfold clippedObservationSelector at h
  split at h
  · cases h
  · rename_i selected hselected
    split at h
    · cases h
    · rename_i hexcluded
      cases h
      refine ⟨hselected, fun excluded hmem => ?_⟩
      dsimp only at hmem ⊢
      rw [List.mem_filter, decide_eq_true_eq] at hmem
      refine ⟨hmem.2, ?_⟩
      rintro rfl
      exact hexcluded ⟨selected, hmem.1, SemanticScope.contains_self _⟩

theorem clipped_semanticScope : scope.Contains selector.semanticScope ∧
    (selector.semanticScope = scope ∨ selector.semanticScope = whole.semanticScope) := by
  have hclipped := (clipped_eq h).1
  unfold clippedScope at hclipped
  split at hclipped
  · cases hclipped
    exact ⟨SemanticScope.contains_self _, .inl rfl⟩
  · split at hclipped
    · rename_i hinside
      rw [← Option.some.inj hclipped]
      exact ⟨hinside, .inr rfl⟩
    · cases hclipped

end Clip

theorem clipped_inside {whole selector : ObservationSelector} {scope : SemanticScope}
    (h : clippedObservationSelector whole scope = some selector)
    (hinside : scope.StrictlyContains whole.semanticScope) :
    selector.semanticScope = whole.semanticScope := by
  have hclipped := (clipped_eq h).1
  unfold clippedScope at hclipped
  rw [if_neg hinside.not_contains, if_pos hinside.1] at hclipped
  exact (Option.some.inj hclipped).symm

/-! ## The resolved demands -/

theorem mem_resolvedDemands {rules : List ObservationDemandRule}
    {targetScopes : List SemanticScope} {demand : EffectiveObservationDemand} :
    demand ∈ resolvedDemands rules targetScopes ↔
      ∃ scope purpose, (scope, purpose) ∈ demandTargets rules targetScopes ∧
        ∃ policy ∈ policies rules scope purpose, (policy.demand scope purpose).1 = demand := by
  unfold resolvedDemands
  rw [List.mem_flatMap]
  constructor
  · rintro ⟨⟨scope, purpose⟩, htarget, hdemand⟩
    exact ⟨scope, purpose, htarget, List.mem_map.mp hdemand⟩
  · rintro ⟨scope, purpose, htarget, hdemand⟩
    exact ⟨(scope, purpose), htarget, List.mem_map.mpr hdemand⟩

theorem resolvedDemands_scoped (rules : List ObservationDemandRule)
    (targetScopes : List SemanticScope) :
    ScopedDemands (resolvedDemands rules targetScopes) targetScopes := by
  have hclip : ∀ demand ∈ resolvedDemands rules targetScopes, ∀ selector ∈ demand.selectors,
      ∃ whole, clippedObservationSelector whole demand.scope = some selector := by
    intro demand hdemand selector hselector
    obtain ⟨scope, purpose, -, policy, hpolicy, rfl⟩ := mem_resolvedDemands.mp hdemand
    obtain ⟨rule, -, -, whole, -, h⟩ := mem_policy_selectors.mp ⟨policy, hpolicy, hselector⟩
    exact ⟨whole, h⟩
  constructor
  · intro demand hdemand
    obtain ⟨scope, purpose, htarget, policy, -, rfl⟩ := mem_resolvedDemands.mp hdemand
    exact (mem_demandTargets.mp htarget).1
  · intro demand hdemand selector hselector
    obtain ⟨whole, h⟩ := hclip demand hdemand selector hselector
    exact (clipped_semanticScope h).1
  · intro demand hdemand selector hselector
    obtain ⟨whole, h⟩ := hclip demand hdemand selector hselector
    exact (clipped_eq h).2
  · intro demand hdemand inner hinner hcontains
    obtain ⟨scope, purpose, htarget, policy, -, rfl⟩ := mem_resolvedDemands.mp hdemand
    have hdown := demandTargets_downward htarget hinner hcontains
    obtain ⟨candidate, hcandidate⟩ := List.exists_mem_of_ne_nil _ (policies_ne_nil rules inner purpose)
    exact ⟨_, mem_resolvedDemands.mpr ⟨inner, purpose, hdown, candidate, hcandidate, rfl⟩, rfl, rfl⟩

/-! ## When the narrowest scope governs -/

/-- A selector that a target scope has, and that lies strictly inside another target scope
inside it, is about a target scope itself. -/
def NestedSelectorsAreTargets (rules : List ObservationDemandRule)
    (targetScopes : List SemanticScope) : Prop :=
  ∀ outer ∈ targetScopes, ∀ purpose,
    ∀ rule ∈ selectedRules (applicableRules rules outer purpose) outer,
    selectorMode rules outer purpose rule ≠ .none → ∀ selector ∈ rule.selector,
    ∀ inner ∈ targetScopes, outer.StrictlyContains inner →
      inner.StrictlyContains selector.semanticScope → selector.semanticScope ∈ targetScopes

theorem nestedSelectorsAreTargets_iff {rules : List ObservationDemandRule}
    {targetScopes : List SemanticScope} :
    NestedSelectorsAreTargets rules targetScopes ↔
      ∀ demand ∈ resolvedDemands rules targetScopes, ∀ selector ∈ demand.selectors,
        ∀ scope ∈ targetScopes, demand.scope.StrictlyContains scope →
          scope.StrictlyContains selector.semanticScope →
            selector.semanticScope ∈ targetScopes := by
  constructor
  · intro h demand hdemand selector hselector scope hscope hstrict hinside
    obtain ⟨outer, purpose, htarget, policy, hpolicy, rfl⟩ := mem_resolvedDemands.mp hdemand
    obtain ⟨rule, hrule, hmode, whole, hwhole, hclip⟩ :=
      mem_policy_selectors.mp ⟨policy, hpolicy, hselector⟩
    have hown : selector.semanticScope = whole.semanticScope := by
      rcases (clipped_semanticScope hclip).2 with heq | heq
      · exact absurd (heq ▸ hinside.1) hstrict.not_contains
      · exact heq
    rw [hown] at hinside ⊢
    exact h outer (mem_demandTargets.mp htarget).1 purpose rule hrule hmode whole hwhole scope
      hscope hstrict hinside
  · intro h outer houter purpose rule hrule hmode whole hwhole inner hinner hstrict hinside
    obtain ⟨hmem, selector, hselector, hclip⟩ := mem_selectedRules hrule
    obtain rfl : selector = whole := Option.some.inj (hselector.symm.trans hwhole)
    obtain ⟨clipped, hclipped⟩ := Option.ne_none_iff_exists'.mp hclip
    obtain ⟨policy, hpolicy, hkept⟩ :=
      mem_policy_selectors.mpr ⟨rule, hrule, hmode, selector, hwhole, hclipped⟩
    have hdeep : outer.StrictlyContains selector.semanticScope :=
      ⟨hstrict.1.trans hinside.1, fun heq => hstrict.not_contains (heq ▸ hinside.1)⟩
    have hown := clipped_inside hclipped hdeep
    obtain ⟨hrules, happlies⟩ := mem_applicableRules.mp hmem
    have htarget : (outer, purpose) ∈ demandTargets rules targetScopes :=
      mem_demandTargets.mpr ⟨houter, .inr ⟨rule, hrules, happlies⟩⟩
    have hlaw := h _ (mem_resolvedDemands.mpr ⟨outer, purpose, htarget, policy, hpolicy, rfl⟩)
      clipped hkept inner hinner hstrict
    rw [hown] at hlaw
    exact hlaw hinside

/-- The narrowest scope governs exactly when nested selectors are about target scopes. -/
theorem narrowest_scope_governs_iff (document : Option ObservationDemandDocument)
    (targetScopes : List SemanticScope) (limits : Realization.Limits)
    (resolution : ObservationDemandResolution)
    (h : normalizeObservationDemands document targetScopes limits = .ok resolution) :
    NarrowestScopeGoverns resolution.effective targetScopes ↔
      NestedSelectorsAreTargets (documentRules document) targetScopes := by
  obtain ⟨-, -, rfl⟩ := normalizeObservationDemands_eq_ok_iff.mp h
  rw [nestedSelectorsAreTargets_iff]
  exact (resolvedDemands_scoped _ _).narrowestScopeGoverns_iff

/-! ## A selector below a nested scope -/

def streamSelector (scope : SemanticScope) (name : String) : ObservationSelector where
  semanticScope := scope
  excludedScopes := []
  componentRefs := []
  dataKind := .stream
  names := [name]
  windowRefs := []
  coverageProfile := none
  maxItems := none

theorem streamSelector_valid (scope : SemanticScope) (name : String) :
    (streamSelector scope name).Valid :=
  ⟨⟨List.nodup_nil, List.nodup_nil, List.nodup_singleton name, List.nodup_nil⟩,
    fun _ h => (nomatch h), rfl⟩

/-- A rule of the author that collects one stream for the experiment. -/
def streamRule (ruleId : String) (scope streamScope : SemanticScope) : ObservationDemandRule where
  ruleId := ruleId
  scope := scope
  purpose := .experimental
  mode := some .selected
  selector := some (streamSelector streamScope "trace")
  collection := some .require
  retention := none
  exporting := none
  basis := none
  prohibitedStages := []
  redaction := some "none"
  integrity := some "none"
  required := false
  authorityRef := "author"

theorem streamRule_valid (ruleId : String) (scope streamScope : SemanticScope) :
    (streamRule ruleId scope streamScope).Valid where
  selector := by
    rintro selector h
    cases h
    exact streamSelector_valid streamScope "trace"
  prohibited := List.nodup_nil
  declares := .inl rfl
  selects := fun _ _ _ => rfl
  exhausts := fun h => nomatch h
  protects := fun _ _ _ _ => ⟨rfl, rfl⟩

def singleRule (rule : ObservationDemandRule) (h : rule.Valid) : ObservationDemandDocument where
  rules := [rule]
  valid := by
    rintro other hother
    obtain rfl := List.mem_singleton.mp hother
    exact h
  unique := List.nodup_singleton _

/-- The rule of the whole document asks for the trace of `/nodes/kali`. -/
def kaliTrace : ObservationDemandDocument :=
  singleRule (streamRule "trace" ⟨[]⟩ ⟨["nodes", "kali"]⟩) (streamRule_valid _ _ _)

theorem narrowest_scope_governs_iff_kali : ∃ resolution,
    normalizeObservationDemands (some kaliTrace) [⟨[]⟩, ⟨["nodes", "kali"]⟩]
      Realization.defaultLimits = .ok resolution ∧
    (NarrowestScopeGoverns resolution.effective [⟨[]⟩, ⟨["nodes", "kali"]⟩] ↔
      NestedSelectorsAreTargets (documentRules (some kaliTrace)) [⟨[]⟩, ⟨["nodes", "kali"]⟩]) := by
  obtain ⟨resolution, h⟩ := exists_ok_of_toBool
    (x := normalizeObservationDemands (some kaliTrace) [⟨[]⟩, ⟨["nodes", "kali"]⟩]
      Realization.defaultLimits) (by decide +kernel)
  exact ⟨resolution, h, narrowest_scope_governs_iff _ _ _ resolution h⟩

/-- The trace of `/nodes/kali` stays with the demand of the whole document beside `/nodes`. -/
theorem nested_selector_stays : ¬ ∀ document targetScopes limits resolution,
    normalizeObservationDemands document targetScopes limits = .ok resolution →
      NarrowestScopeGoverns resolution.effective targetScopes := by
  intro hclaim
  obtain ⟨resolution, h⟩ := exists_ok_of_toBool
    (x := normalizeObservationDemands (some kaliTrace) [⟨[]⟩, ⟨["nodes"]⟩]
      Realization.defaultLimits) (by decide +kernel)
  have hgoverns := hclaim _ _ _ resolution h
  obtain ⟨-, -, rfl⟩ := normalizeObservationDemands_eq_ok_iff.mp h
  have hnested := nestedSelectorsAreTargets_iff.mpr
    ((resolvedDemands_scoped _ _).narrowestScopeGoverns_iff.mp hgoverns)
  have htarget := hnested ⟨[]⟩ (by decide) .experimental (streamRule "trace" ⟨[]⟩ ⟨["nodes", "kali"]⟩)
    (by decide +kernel) (by decide +kernel) (streamSelector ⟨["nodes", "kali"]⟩ "trace") rfl
    ⟨["nodes"]⟩ (by decide) (by decide) (by decide)
  revert htarget
  decide

end Raes.Observation
