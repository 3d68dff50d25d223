import Raes.Lib.ExceptList
import Raes.Observation.Resolution

/-!
# What normalization resolves

The demands that a scope and a purpose resolve to, as a list of policies, and the
answers of the functions of the source in terms of it.
-/

namespace Raes.Observation

open PyError

variable {rules : List ObservationDemandRule} {scope : SemanticScope} {purpose : ObservationPurpose}

variable {rule : ObservationDemandRule}

theorem mem_applicableRules :
    rule ∈ applicableRules rules scope purpose ↔ rule ∈ rules ∧ Applies scope purpose rule := by
  unfold applicableRules
  rw [List.mem_filter, decide_eq_true_eq]

theorem applicableRules_eq_self (h : ∀ rule ∈ rules, Applies scope purpose rule) :
    applicableRules rules scope purpose = rules := by
  unfold applicableRules
  rw [List.filter_eq_self]
  exact fun rule hrule => decide_eq_true (h rule hrule)

theorem mem_authoritySelectorRules {authority : String}
    {rule : ObservationDemandRule} (h : rule ∈ authoritySelectorRules rules authority) :
    rule ∈ rules := by
  unfold authoritySelectorRules at h
  rcases List.mem_append.mp h with hrequired | hordinary
  · exact (List.mem_filter.mp (List.mem_filter.mp hrequired).1).1
  · exact (List.mem_filter.mp (List.mem_filter.mp (List.mem_filter.mp hordinary).1).1).1

theorem mem_selectorRules (h : rule ∈ selectorRules rules) : rule ∈ rules := by
  unfold selectorRules at h
  rw [(sortBy_perm _ _).mem_iff, List.mem_flatMap] at h
  obtain ⟨authority, -, hrule⟩ := h
  exact mem_authoritySelectorRules hrule

theorem mem_selectedRules (h : rule ∈ selectedRules rules scope) :
    rule ∈ rules ∧ ∃ selector ∈ rule.selector, clippedObservationSelector selector scope ≠ none := by
  unfold selectedRules at h
  rw [List.mem_filter, decide_eq_true_eq] at h
  exact ⟨mem_selectorRules h.1, h.2⟩

structure Policy where
  rules : List ObservationDemandRule
  selected : Option ObservationDemandRule
  deriving DecidableEq

/-- The policies of a scope and a purpose: one for each rule whose selector reaches the
scope, or else the one of the rules without selectors. -/
def policies (rules : List ObservationDemandRule) (scope : SemanticScope)
    (purpose : ObservationPurpose) : List Policy :=
  let applicable := applicableRules rules scope purpose
  if selectedRules applicable scope = [] then
    [⟨applicable.filter fun rule => rule.selector = none, none⟩]
  else (selectedRules applicable scope).map fun rule => ⟨policyRules applicable rule, some rule⟩

def Policy.demand (policy : Policy) (scope : SemanticScope) (purpose : ObservationPurpose) :
    EffectiveObservationDemand × List Diagnostic :=
  effectiveDemand policy.rules scope purpose policy.selected

theorem policies_ne_nil (rules : List ObservationDemandRule) (scope : SemanticScope)
    (purpose : ObservationPurpose) : policies rules scope purpose ≠ [] := by
  unfold policies
  dsimp only
  split
  · exact List.cons_ne_nil _ _
  · rename_i h
    exact fun hmap => h (List.map_eq_nil_iff.mp hmap)

theorem applies_of_policy {policy : Policy} (h : policy ∈ policies rules scope purpose)
    {rule : ObservationDemandRule} (hrule : rule ∈ policy.rules) :
    rule ∈ applicableRules rules scope purpose := by
  unfold policies at h
  dsimp only at h
  split at h
  · obtain rfl := List.mem_singleton.mp h
    exact (List.mem_filter.mp hrule).1
  · obtain ⟨selected, -, rfl⟩ := List.mem_map.mp h
    exact (List.mem_filter.mp hrule).1

theorem applicableRules_policy {policy : Policy} (h : policy ∈ policies rules scope purpose) :
    applicableRules policy.rules scope purpose = policy.rules :=
  applicableRules_eq_self fun _ hrule => (mem_applicableRules.mp (applies_of_policy h hrule)).2

theorem effectiveFor_eq_ok_iff (rules : List ObservationDemandRule) (scope : SemanticScope)
    (purpose : ObservationPurpose) (selected : Option ObservationDemandRule)
    (out : EffectiveObservationDemand × List Diagnostic) :
    effectiveFor rules scope purpose selected = .ok out ↔
      (effectiveDemand rules scope purpose selected).1.validate = .ok () ∧
        out = effectiveDemand rules scope purpose selected := by
  unfold effectiveFor
  rw [seq_eq_ok_iff]
  refine and_congr_right fun _ => ?_
  show Except.ok _ = Except.ok _ ↔ _
  rw [Except.ok.injEq]
  exact eq_comm

def overlaps (rules : List ObservationDemandRule) (scope : SemanticScope)
    (purpose : ObservationPurpose) : List Diagnostic :=
  let applicable := applicableRules rules scope purpose
  overlapConflicts scope (selectedRules applicable scope)
    (((selectedRules applicable scope).map fun rule =>
      (effectiveDemand (policyRules applicable rule) scope purpose (some rule)).1).zip
        ((selectedRules applicable scope).map (policyRules applicable)))

theorem scopeDemands_eq_ok_iff (rules : List ObservationDemandRule) (scope : SemanticScope)
    (purpose : ObservationPurpose) (out : List EffectiveObservationDemand × List Diagnostic) :
    scopeDemands rules scope purpose = .ok out ↔
      (∀ policy ∈ policies rules scope purpose, (policy.demand scope purpose).1.validate = .ok ()) ∧
        out = ((policies rules scope purpose).map fun policy => (policy.demand scope purpose).1,
          ((policies rules scope purpose).map fun policy => (policy.demand scope purpose).2).flatten ++
            overlaps rules scope purpose) := by
  unfold scopeDemands policies overlaps
  dsimp only
  by_cases hselected : selectedRules (applicableRules rules scope purpose) scope = []
  · rw [if_pos hselected, if_pos hselected, bind_eq_ok_iff, hselected, List.map_nil,
      List.zip_nil_left]
    simp only [effectiveFor_eq_ok_iff, List.mem_singleton, forall_eq, List.map_cons, List.map_nil]
    constructor
    · rintro ⟨demand, ⟨hvalid, rfl⟩, hout⟩
      cases hout
      refine ⟨hvalid, ?_⟩
      simp [overlapConflicts, Policy.demand]
    · rintro ⟨hvalid, rfl⟩
      refine ⟨_, ⟨hvalid, rfl⟩, ?_⟩
      simp [overlapConflicts, Policy.demand, pure, Except.pure]
  · rw [if_neg hselected, if_neg hselected, bind_eq_ok_iff]
    simp only [mapM_eq_ok_iff_map fun rule _ out => effectiveFor_eq_ok_iff _ _ _ _ out,
      List.forall_mem_map, List.map_map]
    constructor
    · rintro ⟨effective, ⟨hvalid, rfl⟩, hout⟩
      cases hout
      refine ⟨hvalid, ?_⟩
      simp only [List.map_map]
      rfl
    · rintro ⟨hvalid, rfl⟩
      refine ⟨_, ⟨hvalid, rfl⟩, ?_⟩
      simp only [List.map_map]
      rfl

structure WithinLimits (rules : List ObservationDemandRule) (targetScopes : List SemanticScope)
    (limits : Realization.Limits) : Prop where
  members : ¬ (targetScopes = [] ∨ limits.maxMembers < targetScopes.length)
  distinct : targetScopes.Nodup
  nodes : ¬ limits.maxNodes < rules.length
  bytes : ¬ ∃ scope ∈ targetScopes, limits.maxScalarBytes < scope.text.utf8ByteSize

def documentRules (document : Option ObservationDemandDocument) : List ObservationDemandRule :=
  (document.map ObservationDemandDocument.rules).getD []

def resolvedDemands (rules : List ObservationDemandRule) (targetScopes : List SemanticScope) :
    List EffectiveObservationDemand :=
  (demandTargets rules targetScopes).flatMap fun target =>
    (policies rules target.1 target.2).map fun policy => (policy.demand target.1 target.2).1

def resolvedDiagnostics (rules : List ObservationDemandRule) (targetScopes : List SemanticScope) :
    List Diagnostic :=
  (demandTargets rules targetScopes).flatMap fun target =>
    ((policies rules target.1 target.2).map fun policy =>
      (policy.demand target.1 target.2).2).flatten ++ overlaps rules target.1 target.2

variable {targetScopes : List SemanticScope}

theorem normalizeObservationDemands_eq_ok_iff {document : Option ObservationDemandDocument}
    {limits : Realization.Limits} {resolution : ObservationDemandResolution} :
    normalizeObservationDemands document targetScopes limits = .ok resolution ↔
      WithinLimits (documentRules document) targetScopes limits ∧
      (∀ target ∈ demandTargets (documentRules document) targetScopes,
        ∀ policy ∈ policies (documentRules document) target.1 target.2,
          (policy.demand target.1 target.2).1.validate = .ok ()) ∧
      resolution = ⟨partitionDescendantObservationPolicies
        (resolvedDemands (documentRules document) targetScopes),
        resolvedDiagnostics (documentRules document) targetScopes⟩ := by
  unfold normalizeObservationDemands
  rw [seq_eq_ok_iff, seq_eq_ok_iff]
  dsimp only
  rw [seq_eq_ok_iff, seq_eq_ok_iff, bind_eq_ok_iff]
  simp only [refuseIf_eq_ok_iff, not_not,
    mapM_eq_ok_iff_map fun (target : SemanticScope × ObservationPurpose) _ out =>
      scopeDemands_eq_ok_iff _ target.1 target.2 out]
  constructor
  · rintro ⟨hmembers, hdistinct, hnodes, hbytes, demands, ⟨hvalid, rfl⟩, hout⟩
    cases hout
    refine ⟨⟨hmembers, hdistinct, hnodes, hbytes⟩, hvalid, ?_⟩
    simp only [List.map_map, resolvedDemands, resolvedDiagnostics, List.flatMap]
    rfl
  · rintro ⟨⟨hmembers, hdistinct, hnodes, hbytes⟩, hvalid, rfl⟩
    refine ⟨hmembers, hdistinct, hnodes, hbytes, _, ⟨hvalid, rfl⟩, ?_⟩
    simp only [List.map_map, resolvedDemands, resolvedDiagnostics, List.flatMap]
    rfl

theorem mem_demandPurposes : purpose ∈ demandPurposes rules ↔
      purpose = .experimental ∨ ∃ rule ∈ rules, rule.purpose = purpose := by
  unfold demandPurposes
  rw [(sortBy_perm _ _).mem_iff, List.mem_dedup, List.mem_cons, List.mem_map]

theorem mem_demandTargets {scope : SemanticScope} {purpose : ObservationPurpose} :
    (scope, purpose) ∈ demandTargets rules targetScopes ↔
      scope ∈ targetScopes ∧
        (purpose = .experimental ∨ ∃ rule ∈ rules, Applies scope purpose rule) := by
  unfold demandTargets
  simp only [List.mem_flatMap, List.mem_map, List.mem_filter, decide_eq_true_eq, Prod.mk.injEq,
    mem_demandPurposes]
  constructor
  · rintro ⟨scope', hscope, purpose', ⟨-, hgoverned⟩, rfl, rfl⟩
    exact ⟨hscope, hgoverned⟩
  · rintro ⟨hscope, hgoverned⟩
    refine ⟨scope, hscope, purpose, ⟨?_, hgoverned⟩, rfl, rfl⟩
    rcases hgoverned with hexperimental | ⟨rule, hrule, hpurpose, -⟩
    · exact .inl hexperimental
    · exact .inr ⟨rule, hrule, hpurpose⟩

/-- A purpose that governs a scope governs every scope inside it. -/
theorem demandTargets_downward {scope inner : SemanticScope}
    {purpose : ObservationPurpose} (h : (scope, purpose) ∈ demandTargets rules targetScopes)
    (hinner : inner ∈ targetScopes) (hcontains : scope.Contains inner) :
    (inner, purpose) ∈ demandTargets rules targetScopes := by
  rw [mem_demandTargets] at h ⊢
  refine ⟨hinner, h.2.imp id ?_⟩
  rintro ⟨rule, hrule, hpurpose, hscope⟩
  exact ⟨rule, hrule, hpurpose, hscope.trans hcontains⟩

end Raes.Observation
