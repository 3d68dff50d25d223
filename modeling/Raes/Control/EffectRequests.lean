import Raes.Graph.Cycles
import Raes.Json

/-!
# Participant control requests

The records of `contracts/participant_control_*.py` that the composition of
control effects reads: coordinates, typed effect requests, the selection of
mechanisms and the context of an evaluation.  The structures carry the checks
of the source's validators that the composition relies on.
-/

namespace Raes.Control

inductive ArtifactKind where
  | profile | mechanism | implementation | authority | evidence | limitation | memory | apparatus
  | run | crossing | history | providerState | input | clock | trigger | rule | injectDelivery
  | disclosure | manifest | installation | control | transformation | action | lifecycle | audit
  | receipt | projection | policy | constraint | flowRelation
  deriving DecidableEq, Repr

structure ArtifactReference where
  kind : ArtifactKind
  (ref revision digest : String)
  deriving DecidableEq, Repr

structure SubjectReference where
  (subjectKind contractId subjectRef : String)
  (subjectRevision subjectDigest : Option String)
  (participantAddress episodeId : String)
  deriving DecidableEq, Repr

structure LogicalEffectKey where
  (runRef triggerRoot ruleId ruleRevision slot firingEpoch : String)
  deriving DecidableEq, Repr

def LogicalEffectKey.rule (key : LogicalEffectKey) : String × String :=
  (key.ruleId, key.ruleRevision)

structure PriorEffectClaim where
  effectId : String
  key : LogicalEffectKey
  contentDigest : String
  deriving DecidableEq, Repr

structure RuleFirings where
  (ruleId ruleRevision : String)
  firingEpochs : List String
  deriving DecidableEq, Repr

def RuleFirings.rule (firings : RuleFirings) : String × String :=
  (firings.ruleId, firings.ruleRevision)

/-- What composition reads of the context of an evaluation.  The digest is that
of the complete record.  Rules, claimed identities and claimed keys are
distinct, and each claim has its firing epoch retained. -/
structure ControlContext where
  run : ArtifactReference
  inputs : List ArtifactReference
  clock : ArtifactReference
  order : ℕ
  triggerRoot : String
  (depth effectsConsumed : ℕ)
  priorEffectClaims : List PriorEffectClaim
  ruleFirings : List RuleFirings
  digest : String
  rulesUnique : (ruleFirings.map RuleFirings.rule).Nodup
  claimIdsUnique : (priorEffectClaims.map PriorEffectClaim.effectId).Nodup
  claimKeysUnique : (priorEffectClaims.map PriorEffectClaim.key).Nodup
  claimsFired : ∀ claim ∈ priorEffectClaims, ∃ firings ∈ ruleFirings,
    firings.rule = claim.key.rule ∧ claim.key.firingEpoch ∈ firings.firingEpochs

inductive CrossingKind where
  | permit | deny | withhold
  deriving DecidableEq, Repr

inductive TransformationKind where
  | transform | mask | route
  deriving DecidableEq, Repr

inductive LifecycleKind where
  | interrupt | shutdown
  deriving DecidableEq, Repr

inductive LifecycleTargetKind where
  | participant | episode | execution | workflow | run
  deriving DecidableEq, Repr

inductive LifecycleOperation where
  | pause | cancel | interrupt | terminate
  deriving DecidableEq, Repr

structure CrossingEffect where
  kind : CrossingKind
  crossingDecision : ArtifactReference
  subject : SubjectReference
  deriving DecidableEq, Repr

structure TransformationEffect where
  kind : TransformationKind
  transformation : ArtifactReference
  (source result : SubjectReference)
  destinationRef : String
  admissionPolicy : ArtifactReference
  deriving DecidableEq, Repr

/-- An inject effect.  The world request is kept as its payload. -/
structure InjectEffect where
  deliveryRef : ArtifactReference
  (injectRef eventRef scriptRef storyRef sourceItemRef resultItemRef participantAddress : String)
  episodeId : String
  disclosureRef : ArtifactReference
  worldRequest : Option Json
  deriving DecidableEq

structure DelayEffect where
  subject : SubjectReference
  clock : ArtifactReference
  (earliestOrder latestOrder expiryOrder : ℕ)
  resumptionPolicy : ArtifactReference
  deriving DecidableEq, Repr

structure HandoffEffect where
  transition : ArtifactReference
  (participantAddress episodeId priorControllerRef resultingControllerRef : String)
  expectedStateRevision : ℕ
  completionObligation : ArtifactReference
  deriving DecidableEq, Repr

structure ReviewEffect where
  parent : SubjectReference
  obligationRef : String
  (supervisorAuthority approvalRef denialRef clock : ArtifactReference)
  expiryOrder : ℕ
  resumptionPolicy : ArtifactReference
  deriving DecidableEq, Repr

structure LifecycleEffect where
  kind : LifecycleKind
  targetKind : LifecycleTargetKind
  targetRef : String
  operation : LifecycleOperation
  lifecycleAuthority : ArtifactReference
  expectedRevision : String
  deriving DecidableEq, Repr

structure AuditEffect where
  subject : SubjectReference
  auditRecord : ArtifactReference
  audienceRef : String
  retentionPolicy : ArtifactReference
  deriving DecidableEq, Repr

inductive EffectTarget where
  | crossing (effect : CrossingEffect)
  | transformation (effect : TransformationEffect)
  | inject (effect : InjectEffect)
  | delay (effect : DelayEffect)
  | handoff (effect : HandoffEffect)
  | requestReview (effect : ReviewEffect)
  | lifecycle (effect : LifecycleEffect)
  | audit (effect : AuditEffect)
  deriving DecidableEq

inductive EffectPhase where
  | requiredPredecessor | subsequent
  deriving DecidableEq, Repr

structure EffectRequest where
  effectId : String
  key : LogicalEffectKey
  (rule authority : ArtifactReference)
  phase : EffectPhase
  predecessorEffectIds : List String
  target : EffectTarget
  evidence : List ArtifactReference
  deriving DecidableEq

/-- What composition reads of an information-flow fact. -/
inductive IfcFact where
  | teaching (sourceRefs : List ArtifactReference)
  | security
  | owner (profile : ArtifactReference)
  deriving DecidableEq, Repr

inductive DecisionDisposition where
  | permit | deny | withhold | abstain
  deriving DecidableEq, Repr

inductive ResultKind where
  | ifcFact | decision | advisory | effectRequest
  deriving DecidableEq, Repr

inductive ResultPayload where
  | ifcFact (fact : IfcFact)
  | decision (disposition : DecisionDisposition)
  | advisory
  | effectRequest (request : EffectRequest)
  deriving DecidableEq

def ResultPayload.kind : ResultPayload → ResultKind
  | .ifcFact _ => .ifcFact
  | .decision _ => .decision
  | .advisory => .advisory
  | .effectRequest _ => .effectRequest

inductive ResolutionStatus where
  | resolved | missing | unknown | unsupported | stale | failed | weakened
  deriving DecidableEq, Repr

/-- The result of one mechanism for one slot.  It carries a payload exactly when
it is resolved. -/
structure MechanismResult where
  (resultId slotId instanceId bindingDigest contextDigest : String)
  status : ResolutionStatus
  payload : Option ResultPayload
  resolvedPayload : status = .resolved ↔ payload.isSome = true
  deriving DecidableEq

inductive SupportLevel where
  | exact | bounded | disclosedWeak | unsupported
  deriving DecidableEq, Repr

structure EffectiveSupport where
  instanceId : String
  effectiveLevel : SupportLevel
  status : ResolutionStatus
  contextDigest : String
  deriving DecidableEq, Repr

inductive RealizationDisposition where
  | applied | failed | indeterminate | unsupported | withheld
  deriving DecidableEq, Repr

structure RealizationBinding where
  effectId : String
  disposition : RealizationDisposition
  deriving DecidableEq, Repr

/-- A selected mechanism, with the digest of the complete record. -/
structure MechanismBinding where
  instanceId : String
  profiles : List ArtifactReference
  digest : String
  deriving DecidableEq, Repr

inductive SlotRole where
  | mandatory | advisory
  deriving DecidableEq, Repr

structure ResultSlot where
  (slotId instanceId : String)
  kind : ResultKind
  role : SlotRole
  dependencies : List String
  deriving DecidableEq, Repr

structure CausalBounds where
  (maxDepth maxEffects maxFanout maxFiringsPerRule expiresAtOrder : ℕ)
  deriving DecidableEq, Repr

def slotGraph (slots : List ResultSlot) (h : (slots.map ResultSlot.slotId).Nodup) :
    Dict String (List String) :=
  ⟨slots.map fun slot => (slot.slotId, slot.dependencies), by
    rw [List.map_map]
    exact h⟩

/-- A selection.  Identities are distinct, every slot has its instance and its
dependencies among the selected ones, and dependencies have no cycle. -/
structure ControlSelection where
  bindings : List MechanismBinding
  slots : List ResultSlot
  bounds : CausalBounds
  instancesUnique : (bindings.map MechanismBinding.instanceId).Nodup
  slotsUnique : (slots.map ResultSlot.slotId).Nodup
  instancesPresent : ∀ slot ∈ slots, slot.instanceId ∈ bindings.map MechanismBinding.instanceId
  dependenciesPresent : ∀ slot ∈ slots, ∀ dependency ∈ slot.dependencies,
    dependency ∈ slots.map ResultSlot.slotId
  acyclic : Graph.hasCycle (slotGraph slots slotsUnique) = false

structure ControlRequest where
  selection : ControlSelection
  context : ControlContext

end Raes.Control
