import Mathlib.Data.String.Basic
import Raes.Lib.Charges
import Raes.Lib.Dict
import Raes.Lib.ExceptList
import Raes.Lib.SortBy

/-!
# The context of a composition profile

`raes_contracts/contracts/mixed_composition_resolution.py`.  A mixed composition
profile names components, allocations, edges and transitions, and trusted indexes
of the caller say what each of them has to be.  Every join of a profile with an
index charges a work budget.

A reference model that the code compares as a whole is a value of the type `ι`.
-/

namespace Raes.Composition

open PyError

/-! ## Profiles -/

inductive AllocationTargetKind where
  | participant
  | controlledScope
  | actionFamily
  | observationSource
  | crossing
  deriving DecidableEq, Repr

inductive SupportLevel where
  | unsupported
  | disclosedWeak
  | bounded
  | exact
  deriving DecidableEq, Repr

inductive OrderingBasis where
  | totalOrder
  | partialOrder
  | simultaneous
  | serializedBackendOrder
  | simulationTick
  | controlPlaneOrder
  | logicalClock
  | vectorClock
  | wallClockOnly
  | unknown
  | unsupported
  deriving DecidableEq, Repr

inductive TemporalCoupling where
  | tight
  | boundedAsynchronous
  | asynchronous
  deriving DecidableEq, Repr

structure ScenarioReference (ι : Type) where
  refId : String
  reference : ι
  deriving DecidableEq

structure Component (ι : Type) where
  (componentId apparatusIdentityRef : String)
  (manifestRef realizationEnvelope : ι)
  nativeOwnershipRef : Option String
  deriving DecidableEq

structure FeatureRequirement where
  feature : String
  requiredLevel : SupportLevel
  allowedDowngradeLevel : Option SupportLevel
  (downgradePolicyRef downgradeProvenanceRef : Option String)
  deriving DecidableEq

structure Allocation where
  allocationId : String
  targetKind : AllocationTargetKind
  (targetAddress providerComponentId participantIdentityRef controllerRef : String)
  (actionAuthorityRef routingRef : String)
  featureRequirements : List FeatureRequirement
  deriving DecidableEq

structure EvidenceBinding where
  (obligationRef evidenceRef : String)
  deriving DecidableEq

structure TimeBinding where
  (timeModelRef timeModelDigest sourceClockAddress targetClockAddress mappingAddress : String)
  orderingBasis : OrderingBasis
  temporalCoupling : TemporalCoupling
  deriving DecidableEq

structure CompositionEdge (ι : Type) where
  (edgeId sourceComponentId targetComponentId crossingScopeAddress : String)
  crossingSubject : ι
  audienceScopeRef : String
  policy : ι
  (controllerRef authorityRef routingRef disclosureAuthorityRef : String)
  nativeOwnershipRef : Option String
  timeBinding : TimeBinding
  (mappingLoss failureBehavior : ι)
  evidenceBindings : List EvidenceBinding
  deriving DecidableEq

structure Phase where
  phaseId : String
  activeAllocationIds : List String
  evidenceBindings : List EvidenceBinding
  deriving DecidableEq

structure Transition where
  (transitionId sourcePhaseId targetPhaseId triggerRef evaluatorRef : String)
  evidenceBindings : List EvidenceBinding
  deriving DecidableEq

structure Profile (ι : Type) where
  profileId : String
  scenarioSnapshotRef : ScenarioReference ι
  components : Dict String (Component ι)
  allocations : Dict String Allocation
  edges : Dict String (CompositionEdge ι)
  phases : Dict String Phase
  transitions : Dict String Transition
  nestedProfileRefs : Dict String String
  profileDigest : String
  deriving DecidableEq

/-- `MixedCompositionValidationLimits`, the limits that the resolution reads. -/
structure ValidationLimits where
  (maxComponents maxAllocations maxEdges maxPhases maxTransitions maxNestedProfiles : ℕ)
  maxContextWork : ℕ

/-! ## Trusted indexes -/

/-- Trusted relationship joining one component to its admitted identities. -/
structure TrustedComponent (ι : Type) where
  (profileId componentId apparatusIdentityRef : String)
  (manifestRef realizationEnvelope : ι)
  nativeOwnershipRef : Option String
  deriving DecidableEq

/-- Trusted relationship joining one allocation to its semantic authority. -/
structure TrustedAllocation where
  (profileId allocationId : String)
  targetKind : AllocationTargetKind
  (targetAddress providerComponentId participantIdentityRef controllerRef : String)
  (actionAuthorityRef routingRef : String)
  deriving DecidableEq

/-- Trusted relationship joining one crossing to all of its authorities. -/
structure TrustedEdge (ι : Type) where
  (profileId edgeId sourceComponentId targetComponentId crossingScopeAddress : String)
  crossingSubject : ι
  audienceScopeRef : String
  policy : ι
  (controllerRef authorityRef routingRef disclosureAuthorityRef : String)
  nativeOwnershipRef : Option String
  timeBinding : TimeBinding
  (mappingLoss failureBehavior : ι)
  deriving DecidableEq

/-- Trusted relationship joining one staged transition to its evaluator. -/
structure TrustedTransition where
  (profileId transitionId sourcePhaseId targetPhaseId triggerRef evaluatorRef : String)
  deriving DecidableEq

/-- Exact trusted authorization for one weaker feature level. -/
structure DowngradeAuthorization where
  (profileId providerComponentId feature : String)
  requiredLevel : SupportLevel
  allowedDowngradeLevel : Option SupportLevel
  policyRef : String
  provenanceRef : Option String
  deriving DecidableEq

structure TimeMapping where
  (sourceDomainAddress targetDomainAddress : String)

structure TimeModelDeclaration where
  clocks : String → Option String
  mappings : String → Option TimeMapping

/-- Trusted, caller-supplied indexes used for contextual profile validation. -/
structure Context (ι : Type) where
  scenarioSnapshots : String → Option (ScenarioReference ι)
  compiledTargets : String → Option AllocationTargetKind
  components : String × String → Option (TrustedComponent ι)
  allocations : String × String → Option TrustedAllocation
  edges : String × String → Option (TrustedEdge ι)
  transitions : String × String → Option TrustedTransition
  featureSupportResolver : String → String → FeatureRequirement → Except PyError Unit
  featureDowngradeAuthorizations : List DowngradeAuthorization
  timeModels : String → Option TimeModelDeclaration
  timeModelDigests : String → Option String
  evidenceSatisfaction : String × String → Option (List String)
  nestedProfiles : String → Option (Profile ι)
  allocationEffects : String × String → Option (List String)
  resourceRefs : String → Option (List String)
  componentProjectionMembership : String × String → Option Bool

def observedComponent {ι : Type} (profileId : String) (component : Component ι) :
    TrustedComponent ι :=
  ⟨profileId, component.componentId, component.apparatusIdentityRef, component.manifestRef,
    component.realizationEnvelope, component.nativeOwnershipRef⟩

def observedAllocation (profileId : String) (allocation : Allocation) : TrustedAllocation :=
  ⟨profileId, allocation.allocationId, allocation.targetKind, allocation.targetAddress,
    allocation.providerComponentId, allocation.participantIdentityRef, allocation.controllerRef,
    allocation.actionAuthorityRef, allocation.routingRef⟩

def observedEdge {ι : Type} (profileId : String) (edge : CompositionEdge ι) : TrustedEdge ι :=
  ⟨profileId, edge.edgeId, edge.sourceComponentId, edge.targetComponentId,
    edge.crossingScopeAddress, edge.crossingSubject, edge.audienceScopeRef, edge.policy,
    edge.controllerRef, edge.authorityRef, edge.routingRef, edge.disclosureAuthorityRef,
    edge.nativeOwnershipRef, edge.timeBinding, edge.mappingLoss, edge.failureBehavior⟩

def observedTransition (profileId : String) (transition : Transition) : TrustedTransition :=
  ⟨profileId, transition.transitionId, transition.sourcePhaseId, transition.targetPhaseId,
    transition.triggerRef, transition.evaluatorRef⟩

section Checks

variable {ι : Type} [DecidableEq ι]

def sortedValues {α : Type} (d : Dict String α) : List α :=
  (sortBy Prod.fst d.entries).map Prod.snd

variable (context : Context ι) (profileId : String)

def checkComponent (component : Component ι) : Except PyError Unit :=
  refuseIf (context.components (profileId, component.componentId) ≠
      some (observedComponent profileId component))
    (valueError "composition component identity relationship is unresolved or stale")

/-- `isolated_host_call` around the resolver: whatever it raises is one refusal. -/
def resolveFeatureSupport (allocation : Allocation)
    (requirement : FeatureRequirement) : Except PyError Unit :=
  match context.featureSupportResolver profileId allocation.providerComponentId requirement with
  | .ok () => .ok ()
  | .error _ => .error (valueError "composition allocation feature support resolution failed")

def checkFeatureRequirement (allocation : Allocation)
    (requirement : FeatureRequirement) : Except PyError Unit := do
  refuseIf (requirement.downgradePolicyRef.any fun policyRef =>
      (⟨profileId, allocation.providerComponentId, requirement.feature,
        requirement.requiredLevel, requirement.allowedDowngradeLevel, policyRef,
        requirement.downgradeProvenanceRef⟩ : DowngradeAuthorization) ∉
        context.featureDowngradeAuthorizations)
    (valueError "composition feature downgrade authorization is unresolved")
  resolveFeatureSupport context profileId allocation requirement

def checkAllocation (allocation : Allocation) : Except PyError Unit := do
  refuseIf (context.compiledTargets allocation.targetAddress ≠ some allocation.targetKind)
    (valueError "composition allocation compiled target is unresolved or has the wrong kind")
  refuseIf (context.allocations (profileId, allocation.allocationId) ≠
      some (observedAllocation profileId allocation))
    (valueError "composition allocation authority relationship is unresolved or stale")

def checkEvidenceBinding (binding : EvidenceBinding) : Except PyError Unit :=
  refuseIf (binding.evidenceRef ∉
      (context.evidenceSatisfaction (profileId, binding.obligationRef)).getD [])
    (valueError "composition obligation-to-evidence relationship is unresolved")

def checkEdge (edge : CompositionEdge ι) : Except PyError Unit :=
  refuseIf (context.edges (profileId, edge.edgeId) ≠ some (observedEdge profileId edge))
    (valueError "composition edge authority relationship is unresolved or stale")

/-- The time model of an edge: its digest, its clocks and the ends of its mapping. -/
def checkEdgeTime (binding : TimeBinding) : Except PyError Unit :=
  match context.timeModels binding.timeModelRef with
  | none => .error (valueError "composition edge time model is unresolved or stale")
  | some timeModel => do
    refuseIf (context.timeModelDigests binding.timeModelRef ≠ some binding.timeModelDigest)
      (valueError "composition edge time model is unresolved or stale")
    match timeModel.clocks binding.sourceClockAddress,
        timeModel.clocks binding.targetClockAddress,
        timeModel.mappings binding.mappingAddress with
    | some sourceDomain, some targetDomain, some mapping =>
      refuseIf (mapping.sourceDomainAddress ≠ sourceDomain ∨
          mapping.targetDomainAddress ≠ targetDomain)
        (valueError "composition edge time mapping endpoints do not match its clocks")
    | _, _, _ =>
      .error (valueError "composition edge clock or mapping reference is unresolved")

def checkTransition (transition : Transition) : Except PyError Unit :=
  refuseIf (context.transitions (profileId, transition.transitionId) ≠
      some (observedTransition profileId transition))
    (valueError "composition transition trigger or evaluator relationship is unresolved or stale")

/-- `_profile_limit_violation` and `_validate_profile_limits` -/
def validateProfileLimits (profile : Profile ι) (limits : ValidationLimits) :
    Except PyError Unit := do
  let check (actual maximum : ℕ) (label : String) : Except PyError Unit :=
    refuseIf (actual > maximum)
      (valueError ("mixed composition exceeds the configured " ++ label ++ " limit"))
  check profile.components.entries.length limits.maxComponents "component"
  check profile.allocations.entries.length limits.maxAllocations "allocation"
  check profile.edges.entries.length limits.maxEdges "edge"
  check profile.phases.entries.length limits.maxPhases "phase"
  check profile.transitions.entries.length limits.maxTransitions "transition"
  check profile.nestedProfileRefs.entries.length limits.maxNestedProfiles "nested profile"

/-! ## Trial admission -/

/-- `_resolved_allocation_effects` of one allocation: no effect is as good as no answer. -/
def resolvedAllocationEffects (profileId allocationId : String) : Except PyError (List String) :=
  match context.allocationEffects (profileId, allocationId) with
  | some (effect :: rest) => .ok (effect :: rest)
  | _ => .error (valueError "composition allocation semantic-effect coverage is unresolved")

def orderedPairs {α : Type} : List α → List (α × α)
  | [] => []
  | a :: rest => rest.map (fun b => (a, b)) ++ orderedPairs rest

def lookupKey {α : Type} (d : Dict String α) (k : String) : Except PyError α :=
  match d.get? k with
  | some value => .ok value
  | none => .error (.keyError k)

/-- The inner loop body of `_validate_active_effect_overlap`. -/
def checkEffectOverlap (profile : Profile ι) (effects : Dict String (List String))
    (ids : String × String) : Except PyError Unit := do
  let first ← lookupKey profile.allocations ids.1
  let second ← lookupKey profile.allocations ids.2
  if first.providerComponentId ≠ second.providerComponentId then do
    let firstEffects ← lookupKey effects ids.1
    let secondEffects ← lookupKey effects ids.2
    refuseIf (∃ effect ∈ firstEffects, effect ∈ secondEffects)
      (valueError "active composition providers overlap one canonical semantic effect")
  else return ()

def validateTrialAdmissionContext (profile : Profile ι) : Except PyError Unit := do
  forM profile.components.keys fun componentId =>
    refuseIf (context.componentProjectionMembership (profile.profileId, componentId) ≠ some true)
      (valueError "composition component realization-envelope projection is unresolved or rejected")
  let effects ← profile.allocations.keys.foldlM (fun effects allocationId => do
    let resolved ← resolvedAllocationEffects context profile.profileId allocationId
    return effects.set allocationId resolved) Dict.empty
  forM profile.phases.values fun phase =>
    forM (orderedPairs (phase.activeAllocationIds.insertionSort (· ≤ ·)))
      (checkEffectOverlap profile effects)
  refuseIf (context.resourceRefs profile.profileId = none)
    (valueError "composition all-phase resource coverage is unresolved")

/-! ## Checks that charge -/

def charge (limit amount used : ℕ) : Except PyError ℕ :=
  if used + amount > limit then
    .error (valueError "mixed composition contextual validation exceeded its work limit")
  else .ok (used + amount)

variable (limit : ℕ)

def charged (check : Except PyError Unit) (used : ℕ) : Except PyError ℕ := do
  let used ← charge limit 1 used
  check
  return used

def validateAllocationContext (profileId : String)
    (allocation : Allocation) (used : ℕ) : Except PyError ℕ := do
  let used ← charged limit (checkAllocation context profileId allocation) used
  allocation.featureRequirements.foldlM (fun used requirement =>
    charged limit (checkFeatureRequirement context profileId allocation requirement) used) used

def validateEvidenceBindings (profileId : String)
    (bindings : List EvidenceBinding) (used : ℕ) : Except PyError ℕ :=
  bindings.foldlM (fun used binding =>
    charged limit (checkEvidenceBinding context profileId binding) used) used

def validateEdgeContext (profileId : String)
    (edge : CompositionEdge ι) (used : ℕ) : Except PyError ℕ := do
  let used ← charged limit (checkEdge context profileId edge) used
  let used ← validateEvidenceBindings context limit profileId edge.evidenceBindings used
  checkEdgeTime context edge.timeBinding
  return used

def evidenceCarriers (profile : Profile ι) : List (List EvidenceBinding) :=
  (sortedValues profile.phases).map Phase.evidenceBindings ++
    (sortedValues profile.transitions).map Transition.evidenceBindings

def validateProfileContext (profile : Profile ι) (used : ℕ) : Except PyError ℕ := do
  refuseIf (context.scenarioSnapshots profile.scenarioSnapshotRef.refId ≠
      some profile.scenarioSnapshotRef)
    (valueError "composition scenario snapshot is unresolved or stale")
  let used ← (sortedValues profile.components).foldlM (fun used component =>
    charged limit (checkComponent context profile.profileId component) used) used
  let used ← (sortedValues profile.allocations).foldlM (fun used allocation =>
    validateAllocationContext context limit profile.profileId allocation used) used
  let used ← (sortedValues profile.edges).foldlM (fun used edge =>
    validateEdgeContext context limit profile.profileId edge used) used
  let used ← (sortedValues profile.transitions).foldlM (fun used transition =>
    charged limit (checkTransition context profile.profileId transition) used) used
  (evidenceCarriers profile).foldlM (fun used bindings =>
    validateEvidenceBindings context limit profile.profileId bindings used) used

end Checks

section Work

variable {ι : Type} [DecidableEq ι]

def contextWork (profile : Profile ι) : ℕ :=
  (sortedValues profile.components).length +
    ((sortedValues profile.allocations).map fun allocation =>
      1 + allocation.featureRequirements.length).sum +
    ((sortedValues profile.edges).map fun edge => 1 + edge.evidenceBindings.length).sum +
    (sortedValues profile.transitions).length +
    ((evidenceCarriers profile).map List.length).sum

/-- Every join of a profile with an index is the one that the index holds. -/
structure ContextResolved (context : Context ι) (profile : Profile ι) : Prop where
  scenario : context.scenarioSnapshots profile.scenarioSnapshotRef.refId =
    some profile.scenarioSnapshotRef
  components : ∀ component ∈ sortedValues profile.components,
    checkComponent context profile.profileId component = .ok ()
  allocations : ∀ allocation ∈ sortedValues profile.allocations,
    checkAllocation context profile.profileId allocation = .ok () ∧
      ∀ requirement ∈ allocation.featureRequirements,
        checkFeatureRequirement context profile.profileId allocation requirement = .ok ()
  edges : ∀ edge ∈ sortedValues profile.edges,
    checkEdge context profile.profileId edge = .ok () ∧
      (∀ binding ∈ edge.evidenceBindings,
        checkEvidenceBinding context profile.profileId binding = .ok ()) ∧
      checkEdgeTime context edge.timeBinding = .ok ()
  transitions : ∀ transition ∈ sortedValues profile.transitions,
    checkTransition context profile.profileId transition = .ok ()
  evidence : ∀ bindings ∈ evidenceCarriers profile, ∀ binding ∈ bindings,
    checkEvidenceBinding context profile.profileId binding = .ok ()

theorem charges_charge (limit amount : ℕ) : Charges limit (charge limit amount) amount True := by
  intro used _ after
  unfold charge
  by_cases hover : used + amount > limit
  · rw [if_pos hover]
    exact iff_of_false (fun h => nomatch h) fun h => absurd h.1 (not_le.mpr hover)
  · rw [if_neg hover, Except.ok.injEq, eq_comm]
    exact ⟨fun h => ⟨not_lt.mp hover, trivial, h⟩, fun h => h.2.2⟩

theorem charges_charged (limit : ℕ) (check : Except PyError Unit) :
    Charges limit (charged limit check) 1 (check = .ok ()) :=
  ((charges_charge limit 1).bind (charges_check check)).congr rfl (by rw [true_and])

theorem charges_forEach {α : Type} (limit : ℕ) (check : α → Except PyError Unit) (l : List α) :
    Charges limit (fun used => l.foldlM (fun used a => charged limit (check a) used) used)
      l.length (∀ a ∈ l, check a = .ok ()) := by
  have hloop := charges_foldlM (l := l) fun a _ => charges_charged limit (check a)
  exact hloop.congr (by simp) Iff.rfl

variable (context : Context ι)

omit [DecidableEq ι] in
theorem charges_allocation (limit : ℕ) (profileId : String) (allocation : Allocation) :
    Charges limit (validateAllocationContext context limit profileId allocation)
      (1 + allocation.featureRequirements.length)
      (checkAllocation context profileId allocation = .ok () ∧
        ∀ requirement ∈ allocation.featureRequirements,
          checkFeatureRequirement context profileId allocation requirement = .ok ()) :=
  (charges_charged limit _).bind (charges_forEach limit _ _)

theorem charges_edge (limit : ℕ) (profileId : String) (edge : CompositionEdge ι) :
    Charges limit (validateEdgeContext context limit profileId edge)
      (1 + edge.evidenceBindings.length)
      (checkEdge context profileId edge = .ok () ∧
        (∀ binding ∈ edge.evidenceBindings,
          checkEvidenceBinding context profileId binding = .ok ()) ∧
        checkEdgeTime context edge.timeBinding = .ok ()) :=
  (charges_charged limit _).bind ((charges_forEach limit _ _).bind (charges_check _))

theorem charges_profileContext (limit : ℕ) (profile : Profile ι) :
    Charges limit (validateProfileContext context limit profile) (contextWork profile)
      (ContextResolved context profile) := by
  have hcomponents := charges_forEach limit (checkComponent context profile.profileId)
    (sortedValues profile.components)
  have hallocations := charges_foldlM (l := sortedValues profile.allocations) fun allocation _ =>
    charges_allocation context limit profile.profileId allocation
  have hedges := charges_foldlM (l := sortedValues profile.edges) fun edge _ =>
    charges_edge context limit profile.profileId edge
  have htransitions := charges_forEach limit (checkTransition context profile.profileId)
    (sortedValues profile.transitions)
  have hevidence := charges_foldlM (l := evidenceCarriers profile) fun bindings _ =>
    charges_forEach limit (checkEvidenceBinding context profile.profileId) bindings
  have hloops := hcomponents.bind (hallocations.bind (hedges.bind (htransitions.bind hevidence)))
  have hall := hloops.check (refuseIf (context.scenarioSnapshots
    profile.scenarioSnapshotRef.refId ≠ some profile.scenarioSnapshotRef)
    (valueError "composition scenario snapshot is unresolved or stale"))
  refine hall.congr ?_ ?_
  · unfold contextWork
    omega
  · rw [refuseIf_eq_ok_iff, not_not]
    constructor
    · rintro ⟨hscenario, hcomponents, hallocations, hedges, htransitions, hevidence⟩
      exact ⟨hscenario, hcomponents, hallocations, hedges, htransitions, hevidence⟩
    · rintro ⟨hscenario, hcomponents, hallocations, hedges, htransitions, hevidence⟩
      exact ⟨hscenario, hcomponents, hallocations, hedges, htransitions, hevidence⟩

end Work

end Raes.Composition
