import Raes.Trial.Selections

/-!
# Accepted registries

What the validators establish of a policy registry, and of the outcomes of the
points that it enumerates.
-/

namespace Raes.Trial

open PyError

/-! ## The registry -/

def boundOf (policies : Dict String SelectionPolicy) (id : String) : ℕ :=
  ((policies.get? id).map SelectionPolicy.outputBound).getD 0

variable {policies : Dict String SelectionPolicy}

theorem boundOf_eq {id : String} {policy : SelectionPolicy} (h : policies.get? id = some policy) :
    boundOf policies id = policy.outputBound := by
  rw [boundOf, h]
  rfl

/-- What the validators establish of a registry. -/
structure Registry (policies : Dict String SelectionPolicy) : Prop where
  keys : ∀ id policy, policies.get? id = some policy → policy.policyId = id
  positive : ∀ id policy, policies.get? id = some policy → 1 ≤ policy.outputBound
  fixed : ∀ key id purpose point outcome bound,
    policies.get? key = some (.fixed id purpose point outcome bound) → bound = 1
  refs : ∀ key id purpose refs bound,
    policies.get? key = some (.product id purpose refs bound) →
      refs ≠ [] ∧ ∀ ref ∈ refs, ∃ policy, policies.get? ref = some policy
  computed : ∀ key id purpose refs bound,
    policies.get? key = some (.product id purpose refs bound) →
      productOutputBound policies 1 refs = .ok bound
  acyclic : Graph.hasCycle (productGraph policies) = false

variable {refs : List String}

theorem productOutputBound_ok {expected bound : ℕ}
    (h : productOutputBound policies expected refs = .ok bound) :
    bound = expected * (refs.map (boundOf policies)).prod := by
  induction refs generalizing expected with
  | nil =>
    cases h
    exact (Nat.mul_one _).symm
  | cons ref rest ih =>
    rw [productOutputBound] at h
    cases hpolicy : policies.get? ref with
    | none =>
      rw [hpolicy] at h
      cases h
    | some policy =>
      rw [hpolicy] at h
      simp only [bind_eq_ok_iff] at h
      obtain ⟨_, -, hrest⟩ := h
      rw [ih hrest, List.map_cons, List.prod_cons, boundOf_eq hpolicy, Nat.mul_assoc]

theorem validateProductPolicy_ok {purpose : SelectionPurpose} {bound : ℕ}
    (h : validateProductPolicy policies purpose refs bound = .ok ()) :
    (∀ ref ∈ refs, ∃ policy, policies.get? ref = some policy) ∧
      productOutputBound policies 1 refs = .ok bound := by
  simp only [validateProductPolicy, bind_eq_ok_iff, refuseIf_eq_ok_iff] at h
  obtain ⟨_, hrefs, expected, hexpected, _, hbound, -⟩ := h
  constructor
  · intro ref hmem
    by_contra hmissing
    apply hrefs
    refine ⟨ref, hmem, ?_⟩
    rw [Dict.contains, Option.isSome_eq_false_iff, Option.isNone_iff_eq_none]
    cases hget : policies.get? ref with
    | none => rfl
    | some policy => exact absurd ⟨policy, hget⟩ hmissing
  · rw [hexpected, not_not.mp hbound]

theorem Registry.bounds (hregistry : Registry policies)
    {key id : String} {purpose : SelectionPurpose} {bound : ℕ}
    (hpolicy : policies.get? key = some (.product id purpose refs bound)) :
    bound = (refs.map (boundOf policies)).prod := by
  rw [productOutputBound_ok (hregistry.computed _ _ _ _ _ hpolicy), Nat.one_mul]

theorem registry_of_validated {plan : RunPlan}
    (hmodels : ∀ policy ∈ plan.selectionPolicies.values,
      policy.FieldsInRange ∧ policy.validate = .ok ())
    (hplan : validateSelectionPolicyRegistry plan = .ok ()) : Registry plan.selectionPolicies := by
  have hvalue : ∀ id policy, plan.selectionPolicies.get? id = some policy →
      policy ∈ plan.selectionPolicies.values := fun id policy h =>
    Dict.mem_values_iff.mpr ⟨id, h⟩
  simp only [validateSelectionPolicyRegistry, bind_eq_ok_iff, refuseIf_eq_ok_iff] at hplan
  obtain ⟨_, hkeys, _, -, hplan⟩ := hplan
  have hgraph : validateProductGraph plan.selectionPolicies = .ok () := by
    cases htotal : plan.totalRuns with
    | none =>
      rw [htotal] at hplan
      cases hplan
    | some totalRuns =>
      rw [htotal] at hplan
      simp only [bind_eq_ok_iff] at hplan
      obtain ⟨_, -, hgraph⟩ := hplan
      exact hgraph
  simp only [validateProductGraph, bind_eq_ok_iff, refuseIf_eq_ok_iff] at hgraph
  obtain ⟨_, hproducts, hacyclic⟩ := hgraph
  have hproduct : ∀ key id purpose refs bound,
      plan.selectionPolicies.get? key = some (.product id purpose refs bound) →
        validateProductPolicy plan.selectionPolicies purpose refs bound = .ok () := by
    intro key id purpose refs bound hget
    exact forM_eq_ok_iff.mp hproducts _ (hvalue key _ hget)
  constructor
  · intro id policy hget
    by_contra hne
    apply hkeys
    exact ⟨(id, policy), Dict.get?_eq_some_iff.mp hget, fun heq => hne heq.symm⟩
  · intro id policy hget
    exact (hmodels policy (hvalue id policy hget)).1.1
  · intro key id purpose point outcome bound hget
    have hvalid := (hmodels _ (hvalue key _ hget)).2
    rw [SelectionPolicy.validate, refuseIf_eq_ok_iff, not_not] at hvalid
    exact hvalid
  · intro key id purpose refs bound hget
    have hrange := (hmodels _ (hvalue key _ hget)).1.2.2
    refine ⟨?_, (validateProductPolicy_ok (hproduct _ _ _ _ _ hget)).1⟩
    rintro rfl
    exact absurd hrange.1 (by decide)
  · intro key id purpose refs bound hget
    exact (validateProductPolicy_ok (hproduct _ _ _ _ _ hget)).2
  · exact Bool.eq_false_iff.mpr hacyclic

/-! ## The outcomes of enumerated points -/

variable {engine : CompilerEngine}

theorem sortedScalars_ok {values sorted : List DomainScalar}
    (h : sortedScalars engine values = .ok sorted) : sorted.Perm values := by
  simp only [sortedScalars, bind_eq_ok_iff, mapM_eq_ok_iff] at h
  obtain ⟨keyed, hkeyed, hsorted⟩ := h
  cases hsorted
  have hvalues : keyed.map Prod.snd = values := by
    induction hkeyed with
    | nil => rfl
    | cons hfirst _ ih =>
      obtain ⟨key, -, hpair⟩ := hfirst
      cases hpair
      rw [List.map_cons, ih]
  exact ((sortBy_perm _ _).map _).trans (by rw [hvalues])

theorem integersBetween_nodup (lower upper : ℤ) : (integersBetween lower upper).Nodup := by
  apply List.nodup_range.map
  intro i j h
  have hsame : lower + (i : ℤ) = lower + (j : ℤ) := h
  omega

theorem scalarValues_length {domain : DomainDescriptor} {values : List DomainScalar} {n : ℕ}
    (hvalues : scalarValues engine domain = .ok values)
    (hcardinality : scalarDomainCardinality domain = .ok n) : values.length = n := by
  cases domain with
  | exact value =>
    cases hvalues
    cases hcardinality
    rfl
  | enum members =>
    rw [scalarValues, raises_eq_ok_iff] at hvalues
    cases hcardinality
    exact (sortedScalars_ok hvalues).length_eq
  | boolean value =>
    cases value <;> cases hvalues <;> cases hcardinality <;> rfl
  | numericInterval domain =>
    simp only [scalarDomainCardinality, integerIntervalCardinality, bind_eq_ok_iff,
      refuseIf_eq_ok_iff, not_not] at hcardinality
    obtain ⟨_, hinteger, _, -, hn⟩ := hcardinality
    cases hn
    simp only [scalarValues, intervalBounds, if_pos hinteger, bind_eq_ok_iff] at hvalues
    obtain ⟨bounds, hbounds, hvalues⟩ := hvalues
    cases hbounds
    cases hvalues
    rw [List.length_map, integersBetween, List.length_map, List.length_range]
  | null => cases hvalues
  | version domain => cases hvalues
  | governedReference authority refs => cases hvalues
  | record fields extra => cases hvalues

theorem scalarValues_nodup {orders : VersionOrders} {domain : DomainDescriptor}
    {values : List DomainScalar} (hvalid : domain.Valid orders)
    (hvalues : scalarValues engine domain = .ok values) : values.Nodup := by
  cases domain with
  | exact value =>
    cases hvalues
    exact List.nodup_singleton _
  | enum members =>
    rw [scalarValues, raises_eq_ok_iff] at hvalues
    exact (sortedScalars_ok hvalues).nodup_iff.mpr hvalid.2
  | boolean value =>
    cases value <;> cases hvalues <;> simp
  | numericInterval domain =>
    simp only [scalarValues, bind_eq_ok_iff] at hvalues
    obtain ⟨bounds, -, hvalues⟩ := hvalues
    cases hvalues
    exact (integersBetween_nodup _ _).map fun _ _ h => DomainScalar.int.inj h
  | null => cases hvalues
  | version domain => cases hvalues
  | governedReference authority refs => cases hvalues
  | record fields extra => cases hvalues

def VariationPoint.Valid (orders : VersionOrders) : VariationPoint → Prop
  | .parameter domain | .logicalTiming domain => domain.Valid orders
  | .governedReference allowedRefs => allowedRefs ≠ [] ∧ allowedRefs.Nodup
  | .alternative alternatives => alternatives.Nodup
  | .subset members _ _ => members ≠ [] ∧ members.Nodup
  | .order members _ _ => members ≠ [] ∧ members.Nodup

variable {outcomes : List SelectionOutcome} {point : VariationPoint}

theorem materializedOutcomes_length {n : ℕ}
    (houtcomes : materializedOutcomes engine point = .ok outcomes)
    (hcardinality : pointCardinality point = .ok n) : outcomes.length = n := by
  cases point with
  | parameter domain | logicalTiming domain =>
    simp only [materializedOutcomes, bind_eq_ok_iff] at houtcomes
    obtain ⟨values, hvalues, houtcomes⟩ := houtcomes
    cases houtcomes
    rw [List.length_map]
    exact scalarValues_length hvalues hcardinality
  | governedReference refs =>
    cases houtcomes
    cases hcardinality
    rw [List.length_map, (sortBy_perm _ _).length_eq]
  | alternative names =>
    cases houtcomes
    cases hcardinality
    rw [List.length_map, (sortBy_perm _ _).length_eq]
  | subset members minimum maximum => cases houtcomes
  | order members precedence fixedPositions => cases houtcomes

theorem materializedOutcomes_nodup {orders : VersionOrders} (hvalid : point.Valid orders)
    (houtcomes : materializedOutcomes engine point = .ok outcomes) : outcomes.Nodup := by
  cases point with
  | parameter domain | logicalTiming domain =>
    simp only [materializedOutcomes, bind_eq_ok_iff] at houtcomes
    obtain ⟨values, hvalues, houtcomes⟩ := houtcomes
    cases houtcomes
    exact (scalarValues_nodup hvalid hvalues).map
      fun _ _ h => Option.some.inj (SelectionOutcome.literal.inj h)
  | governedReference refs =>
    cases houtcomes
    exact ((sortBy_perm _ _).nodup_iff.mpr hvalid.2).map
      fun _ _ h => SelectionOutcome.reference.inj h
  | alternative names =>
    cases houtcomes
    exact ((sortBy_perm _ _).nodup_iff.mpr hvalid).map fun _ _ h => SelectionOutcome.member.inj h
  | subset members minimum maximum => cases houtcomes
  | order members precedence fixedPositions => cases houtcomes

theorem materialized_of_canonical {maximum : ℕ}
    (h : canonicalDomainOutcomes engine point maximum = .ok outcomes) :
    materializedOutcomes engine point = .ok outcomes := by
  simp only [canonicalDomainOutcomes, bind_eq_ok_iff] at h
  obtain ⟨_, -, _, -, _, -, houtcomes⟩ := h
  exact houtcomes

/-! ## Acceptance -/

structure Accepted (orders : VersionOrders) (spec : ExperimentSpec) (family : ScenarioFamily) :
    Prop where
  models : ∀ policy ∈ spec.runPlan.selectionPolicies.values,
    policy.FieldsInRange ∧ policy.validate = .ok ()
  plan : validateSelectionPolicyRegistry spec.runPlan = .ok ()
  points : ∀ point ∈ family.variationPoints.values, point.Valid orders
  admission : validateExperimentSelection orders spec family = .ok ()

variable {orders : VersionOrders} {spec : ExperimentSpec} {family : ScenarioFamily}

theorem Accepted.registry (h : Accepted orders spec family) :
    Registry spec.runPlan.selectionPolicies :=
  registry_of_validated h.models h.plan

theorem Accepted.policy (h : Accepted orders spec family) {id : String}
    {policy : SelectionPolicy} (hget : spec.runPlan.selectionPolicies.get? id = some policy) :
    validatePolicyAgainstFamily orders family policy = .ok () := by
  have hadmission := h.admission
  simp only [validateExperimentSelection, bind_eq_ok_iff, refuseIf_eq_ok_iff] at hadmission
  obtain ⟨_, -, hrest⟩ := hadmission
  have hmem := Dict.get?_eq_some_iff.mp hget
  have hfull : spec.runPlan.selectionPolicies.entries.isEmpty = false := by
    rw [List.isEmpty_eq_false_iff]
    rintro hnil
    rw [hnil] at hmem
    exact List.not_mem_nil hmem
  rw [hfull] at hrest
  simp only [Bool.false_eq_true, if_false, bind_eq_ok_iff, refuseIf_eq_ok_iff] at hrest
  obtain ⟨_, -, _, -, hpolicies⟩ := hrest
  exact forM_eq_ok_iff.mp hpolicies _ (Dict.mem_values_iff.mpr ⟨id, hget⟩)

theorem Accepted.enumerated (h : Accepted orders spec family) {key id pointRef : String}
    {purpose : SelectionPurpose} {bound maximum : ℕ} {point : VariationPoint}
    {outcomes : List SelectionOutcome}
    (hget : spec.runPlan.selectionPolicies.get? key = some (.enumerate id purpose pointRef bound))
    (hpoint : family.variationPoints.get? pointRef = some point)
    (houtcomes : canonicalDomainOutcomes engine point maximum = .ok outcomes) :
    outcomes.length = bound ∧ outcomes.Nodup := by
  have hvalid := h.policy hget
  simp only [validatePolicyAgainstFamily, resolvePoint, hpoint, finitePolicyPopulation,
    bind_eq_ok_iff, refuseIf_eq_ok_iff, not_not] at hvalid
  obtain ⟨_, hsame, population, ⟨cardinality, hcardinality, _, -, hpopulation⟩, hbound⟩ := hvalid
  cases hsame
  cases hpopulation
  have hmaterialized := materialized_of_canonical houtcomes
  rw [hbound] at hcardinality
  exact ⟨materializedOutcomes_length hmaterialized hcardinality,
    materializedOutcomes_nodup (h.points _ (Dict.mem_values_iff.mpr ⟨_, hpoint⟩))
      hmaterialized⟩

end Raes.Trial
