import Mathlib.Data.Finset.Insert
import Mathlib.Data.String.Basic
import Raes.Control.EffectRequests
import Raes.Errors
import Raes.Lib.Worklist

/-!
# Effect compatibility

`participant_control_effect_composition.py`: which pairs of requested effects
conflict, which effects are already claimed, which bounds the new ones use, and
the blockers that follow.

The source keeps blockers as texts and splits a text at its first colon to read
the reason back.  Here a blocker is a constructor for each reason, and its text
is what a composition records.
-/

namespace Raes.Control

def effectSubject : EffectTarget → String
  | .transformation effect => effect.source.subjectRef
  | .requestReview effect => effect.parent.subjectRef
  | .lifecycle effect => effect.targetRef
  | .inject effect => effect.participantAddress
  | .handoff effect => effect.participantAddress
  | .crossing effect => effect.subject.subjectRef
  | .delay effect => effect.subject.subjectRef
  | .audit effect => effect.subject.subjectRef

def operationScope : EffectTarget → Option (String × String)
  | .inject effect => some (effect.participantAddress, effect.episodeId)
  | .handoff effect => some (effect.participantAddress, effect.episodeId)
  | .transformation effect => some (effect.result.participantAddress, effect.result.episodeId)
  | .crossing effect =>
    if effect.kind = .permit then
      some (effect.subject.participantAddress, effect.subject.episodeId)
    else none
  | .delay effect => some (effect.subject.participantAddress, effect.subject.episodeId)
  | .requestReview _ | .lifecycle _ | .audit _ => none

def lifecycleInvalidates (lifecycle operation : EffectTarget) (context : ControlContext) : Bool :=
  match lifecycle, operationScope operation with
  | .lifecycle effect, some (participant, episode) =>
    match effect.targetKind with
    | .participant => participant == effect.targetRef
    | .episode => episode == effect.targetRef
    | .run => context.run.ref == effect.targetRef
    -- Membership in a workflow or an execution is not encoded, so it overlaps.
    | .execution | .workflow => true
  | _, _ => false

def sameSubjectConflicts (a b : EffectTarget) : Bool :=
  match a, b with
  | .delay a, .delay b =>
    a.clock != b.clock ||
      min a.latestOrder b.latestOrder < max a.earliestOrder b.earliestOrder
  | .handoff a, .handoff b => a.resultingControllerRef != b.resultingControllerRef
  | .transformation a, .transformation b => a != b
  | .lifecycle a, .lifecycle b => a.kind != b.kind
  | _, _ => false

def bothDelay : EffectTarget → EffectTarget → Bool
  | .delay _, .delay _ => true
  | _, _ => false

def effectPairConflicts (left right : EffectRequest) (ancestors : String → List String)
    (context : ControlContext) : Bool :=
  let leftFirst := decide (left.effectId ∈ ancestors right.effectId)
  let rightFirst := decide (right.effectId ∈ ancestors left.effectId)
  if (leftFirst && lifecycleInvalidates left.target right.target context) ||
      (rightFirst && lifecycleInvalidates right.target left.target context) then true
  else
    let sameSubject := effectSubject left.target == effectSubject right.target
    if sameSubject && bothDelay left.target right.target then
      sameSubjectConflicts left.target right.target
    else
      (sameSubject && sameSubjectConflicts left.target right.target) ||
        !(leftFirst || rightFirst)

theorem sameSubjectConflicts_comm (a b : EffectTarget) :
    sameSubjectConflicts a b = sameSubjectConflicts b a := by
  cases a <;> cases b <;>
    simp only [sameSubjectConflicts, bne_comm, min_comm, max_comm]

theorem bothDelay_comm (a b : EffectTarget) : bothDelay a b = bothDelay b a := by
  cases a <;> cases b <;> rfl

theorem effectPairConflicts_symm (left right : EffectRequest) (ancestors : String → List String)
    (context : ControlContext) :
    effectPairConflicts left right ancestors context =
      effectPairConflicts right left ancestors context := by
  simp only [effectPairConflicts]
  rw [sameSubjectConflicts_comm right.target, bothDelay_comm right.target,
    show (effectSubject right.target == effectSubject left.target) =
      (effectSubject left.target == effectSubject right.target) from Bool.beq_comm,
    Bool.or_comm (decide (right.effectId ∈ ancestors left.effectId) &&
      lifecycleInvalidates right.target left.target context),
    Bool.or_comm (decide (right.effectId ∈ ancestors left.effectId))]

/-- Every variant of an identity contributes its predecessors. -/
def effectGraph (effects : List EffectRequest) : Dict String (List String) :=
  (Dict.collect EffectRequest.effectId effects).mapValues fun _ variants =>
    (variants.flatMap EffectRequest.predecessorEffectIds).dedup

def predecessorsOf (graph : Dict String (List String)) (identity : String) : List String :=
  (graph.get? identity).getD []

def ancestorsOf (graph : Dict String (List String)) (identity : String) : List String :=
  let start := predecessorsOf graph identity
  (Worklist.run (predecessorsOf graph) graph.keys.length start start).2

def effectAncestors (effects : List EffectRequest) : Except PyError (String → List String) := do
  let graph := effectGraph effects
  refuseIf (∃ predecessors ∈ graph.values, ∃ identity ∈ predecessors, identity ∉ graph.keys)
    (.valueError "effect predecessor is unresolved")
  refuseIf (Graph.hasCycle graph = true) (.valueError "effect predecessor cycle")
  return ancestorsOf graph

section Claims

variable (digest : EffectRequest → String) (context : ControlContext)

def claimConflicts (effect : EffectRequest) : Bool :=
  (match context.priorEffectClaims.find? fun claim => claim.key == effect.key with
    | some prior => prior.effectId != effect.effectId || prior.contentDigest != digest effect
    | none => false) ||
  match context.priorEffectClaims.find? fun claim => claim.effectId == effect.effectId with
  | some prior => prior.key != effect.key
  | none => false

def newEffectKeys (effects : List EffectRequest) : List LogicalEffectKey :=
  ((effects.map EffectRequest.key).dedup).filter fun key =>
    key ∉ context.priorEffectClaims.map PriorEffectClaim.key

def validateNewEffectWindow (target : EffectTarget) (bounds : CausalBounds) :
    Except PyError Unit :=
  match target with
  | .delay effect => do
    refuseIf (¬ (effect.clock = context.clock ∧ context.order ≤ effect.expiryOrder ∧
        effect.expiryOrder ≤ bounds.expiresAtOrder))
      (.valueError "effect clock or expiry is not admitted")
    refuseIf (effect.latestOrder < context.order) (.valueError "delay window is exhausted")
  | .requestReview effect =>
    refuseIf (¬ (effect.clock = context.clock ∧ context.order ≤ effect.expiryOrder ∧
        effect.expiryOrder ≤ bounds.expiresAtOrder))
      (.valueError "effect clock or expiry is not admitted")
  | _ => .ok ()

def firingEpochs (effects : List EffectRequest) (rule : String × String) : List String :=
  ((context.ruleFirings.filter fun firings => firings.rule == rule).flatMap
      RuleFirings.firingEpochs ++
    (effects.filter fun effect => effect.key.rule == rule).map fun effect =>
      effect.key.firingEpoch).dedup

def firedRules (effects : List EffectRequest) : List (String × String) :=
  context.ruleFirings.map RuleFirings.rule ++ effects.map fun effect => effect.key.rule

def validateEffectBounds (effects : List EffectRequest) (newKeys : List LogicalEffectKey)
    (bounds : CausalBounds) : Except PyError Unit := do
  forM effects fun effect =>
    -- Replaying a claimed intent does not admit or dispatch it again.
    if effect.key ∈ newKeys then validateNewEffectWindow context effect.target bounds else .ok ()
  refuseIf (∃ rule ∈ firedRules context effects,
      bounds.maxFiringsPerRule < (firingEpochs context effects rule).length)
    (.valueError "effect requests exceed per-rule firing budget")
  refuseIf (newKeys ≠ [] ∧ bounds.maxDepth ≤ context.depth)
    (.valueError "effect requests exceed causal depth")
  refuseIf (bounds.maxFanout < newKeys.length ∨
      bounds.maxEffects < newKeys.length + context.effectsConsumed)
    (.valueError "effect requests exceed causal budget")

end Claims

def ResultPayload.effect? : ResultPayload → Option EffectRequest
  | .effectRequest request => some request
  | .ifcFact _ | .decision _ | .advisory => none

def MechanismResult.effect? (result : MechanismResult) : Option EffectRequest :=
  result.payload.bind ResultPayload.effect?

def requestedEffects (results : List MechanismResult) : List EffectRequest :=
  (results.filterMap MechanismResult.effect?).dedup

def requireUnique {α : Type} (values : List α) [Decidable values.Nodup] : Except PyError Unit :=
  refuseIf (¬ values.Nodup) (.valueError "participant control identities must be unique")

inductive Blocker where
  | slot (slotId : String)
  | dependency (slotId : String)
  | support (instanceId : String)
  | predecessor (effectId : String)
  | effectConflict
  | incumbentGates
  deriving DecidableEq, Repr

def Blocker.text : Blocker → String
  | .slot slotId => "slot:" ++ slotId
  | .dependency slotId => "dependency:" ++ slotId
  | .support instanceId => "support:" ++ instanceId
  | .predecessor effectId => "predecessor:" ++ effectId
  | .effectConflict => "effect-conflict"
  | .incumbentGates => "incumbent-gates"

def variantConflicts (left right : EffectRequest) : Bool :=
  left != right && (left.effectId == right.effectId || left.key == right.key)

def effectsConflict (digest : EffectRequest → String) (context : ControlContext)
    (effects : List EffectRequest) (ancestors : String → List String) : Prop :=
  (∃ left ∈ effects, ∃ right ∈ effects, variantConflicts left right = true) ∨
    (∃ effect ∈ effects, claimConflicts digest context effect = true) ∨
    ¬ effects.Pairwise fun left right => effectPairConflicts left right ancestors context = false

instance (digest : EffectRequest → String) (context : ControlContext)
    (effects : List EffectRequest) (ancestors : String → List String) :
    Decidable (effectsConflict digest context effects ancestors) :=
  inferInstanceAs (Decidable (_ ∨ _ ∨ _))

def predecessorBlockers (effects : List EffectRequest) : List Blocker :=
  (effects.filter fun effect => effect.phase = .requiredPredecessor).map
    fun effect => .predecessor effect.effectId

def controlEffectBlockers (digest : EffectRequest → String) (request : ControlRequest)
    (results : List MechanismResult) (realizations : List RealizationBinding) :
    Except PyError (Finset Blocker) := do
  let effects := requestedEffects results
  let context := request.context
  forM effects fun effect =>
    refuseIf ((effect.key.runRef, effect.key.triggerRoot) ≠ (context.run.ref, context.triggerRoot))
      (.valueError "effect causal root differs from its request")
  let ancestors ← effectAncestors effects
  validateEffectBounds context effects (newEffectKeys context effects) request.selection.bounds
  requireUnique (realizations.map RealizationBinding.effectId)
  refuseIf (∃ realization ∈ realizations, realization.effectId ∉ effects.map EffectRequest.effectId)
    (.valueError "realization references an absent requested effect")
  let conflicts := if effectsConflict digest context effects ancestors then [.effectConflict] else []
  return (predecessorBlockers effects ++ conflicts).toFinset

variable (effects : List EffectRequest)

def Precedes (identity predecessor : String) : Prop :=
  ∃ effect ∈ effects, effect.effectId = identity ∧ predecessor ∈ effect.predecessorEffectIds

theorem mem_keys_effectGraph (identity : String) :
    identity ∈ (effectGraph effects).keys ↔ identity ∈ effects.map EffectRequest.effectId := by
  rw [effectGraph, Dict.keys_mapValues, Dict.mem_keys_collect]

theorem mem_predecessorsOf_iff (identity predecessor : String) :
    predecessor ∈ predecessorsOf (effectGraph effects) identity ↔
      Precedes effects identity predecessor := by
  have hvariants : predecessorsOf (effectGraph effects) identity =
      ((((Dict.collect EffectRequest.effectId effects).get? identity).getD []).flatMap
        EffectRequest.predecessorEffectIds).dedup := by
    rw [predecessorsOf, effectGraph, Dict.get?_mapValues]
    cases (Dict.collect EffectRequest.effectId effects).get? identity <;> rfl
  rw [hvariants, Dict.getD_collect, List.mem_dedup]
  simp only [Precedes, List.mem_flatMap, List.mem_filter, decide_eq_true_eq, and_assoc]

theorem edge_effectGraph_iff (identity predecessor : String) :
    Graph.Edge (effectGraph effects) identity predecessor ↔
      Precedes effects identity predecessor := by
  rw [← mem_predecessorsOf_iff, Graph.Edge, predecessorsOf]
  cases hget : (effectGraph effects).get? identity <;> simp

theorem predecessorsOf_nodup (identity : String) :
    (predecessorsOf (effectGraph effects) identity).Nodup := by
  rw [predecessorsOf, effectGraph, Dict.get?_mapValues]
  cases (Dict.collect EffectRequest.effectId effects).get? identity with
  | none => exact List.nodup_nil
  | some variants => exact List.nodup_dedup _

def Resolved (effects : List EffectRequest) : Prop :=
  ∀ effect ∈ effects, ∀ predecessor ∈ effect.predecessorEffectIds,
    predecessor ∈ effects.map EffectRequest.effectId

theorem Resolved.mem {effects : List EffectRequest} (h : Resolved effects)
    {identity predecessor : String} (hprecedes : Precedes effects identity predecessor) :
    predecessor ∈ effects.map EffectRequest.effectId := by
  obtain ⟨effect, heffect, -, hmem⟩ := hprecedes
  exact h effect heffect predecessor hmem

theorem mem_ancestorsOf_iff {effects : List EffectRequest} (h : Resolved effects)
    (identity ancestor : String) :
    ancestor ∈ ancestorsOf (effectGraph effects) identity ↔
      Relation.TransGen (Precedes effects) identity ancestor := by
  have hkeys : ∀ x, ∀ y ∈ predecessorsOf (effectGraph effects) x,
      y ∈ (effectGraph effects).keys := by
    intro x y hy
    rw [mem_keys_effectGraph]
    exact h.mem ((mem_predecessorsOf_iff effects x y).mp hy)
  have hstep : Worklist.Step (predecessorsOf (effectGraph effects)) = Precedes effects := by
    funext x y
    exact propext (mem_predecessorsOf_iff effects x y)
  have hrun := Worklist.mem_run_iff (predecessorsOf (effectGraph effects))
    (effectGraph effects).keys hkeys (predecessorsOf (effectGraph effects) identity)
    (predecessorsOf_nodup effects identity) (hkeys identity) (effectGraph effects).keys.length
    le_rfl ancestor
  rw [ancestorsOf, hrun, Relation.TransGen.head'_iff, hstep]
  simp only [Worklist.reachable, Set.mem_ofPred_eq, mem_predecessorsOf_iff]

theorem effectAncestors_eq_ok_iff (ancestors : String → List String) :
    effectAncestors effects = .ok ancestors ↔ Resolved effects ∧
      (∀ identity, ¬ Relation.TransGen (Precedes effects) identity identity) ∧
      ancestorsOf (effectGraph effects) = ancestors := by
  have hedge : Graph.Edge (effectGraph effects) = Precedes effects := by
    funext x y
    exact propext (edge_effectGraph_iff effects x y)
  have hresolved : (¬ ∃ predecessors ∈ (effectGraph effects).values, ∃ identity ∈ predecessors,
      identity ∉ (effectGraph effects).keys) ↔ Resolved effects := by
    constructor
    · intro hall effect heffect predecessor hmem
      by_contra habsent
      obtain ⟨predecessors, hget, hlisted⟩ := (edge_effectGraph_iff effects effect.effectId
        predecessor).mpr ⟨effect, heffect, rfl, hmem⟩
      apply hall
      refine ⟨predecessors, Dict.mem_values_iff.mpr ⟨_, hget⟩, predecessor, hlisted, ?_⟩
      rwa [mem_keys_effectGraph]
    · rintro hall ⟨predecessors, hvalues, identity, hmem, habsent⟩
      obtain ⟨owner, hget⟩ := Dict.mem_values_iff.mp hvalues
      rw [mem_keys_effectGraph] at habsent
      exact habsent (hall.mem ((edge_effectGraph_iff effects owner identity).mp
        ⟨predecessors, hget, hmem⟩))
  simp only [effectAncestors, seq_eq_ok_iff, refuseIf_eq_ok_iff, hresolved,
    Graph.hasCycle_iff, hedge, not_exists, pure, Except.pure, Except.ok.injEq]

structure EffectsAdmitted (request : ControlRequest) (effects : List EffectRequest)
    (realizations : List RealizationBinding) : Prop where
  causalRoot : ∀ effect ∈ effects, (effect.key.runRef, effect.key.triggerRoot) =
    (request.context.run.ref, request.context.triggerRoot)
  resolved : Resolved effects
  acyclic : ∀ identity, ¬ Relation.TransGen (Precedes effects) identity identity
  windows : ∀ effect ∈ effects, effect.key ∈ newEffectKeys request.context effects →
    validateNewEffectWindow request.context effect.target request.selection.bounds = .ok ()
  firings : ∀ rule ∈ firedRules request.context effects,
    (firingEpochs request.context effects rule).length ≤
      request.selection.bounds.maxFiringsPerRule
  depth : newEffectKeys request.context effects ≠ [] →
    request.context.depth < request.selection.bounds.maxDepth
  fanout : (newEffectKeys request.context effects).length ≤ request.selection.bounds.maxFanout
  budget : (newEffectKeys request.context effects).length + request.context.effectsConsumed ≤
    request.selection.bounds.maxEffects
  realizationsUnique : (realizations.map RealizationBinding.effectId).Nodup
  realizationsPresent : ∀ realization ∈ realizations,
    realization.effectId ∈ effects.map EffectRequest.effectId

theorem validateEffectBounds_eq_ok_iff (context : ControlContext) (effects : List EffectRequest)
    (newKeys : List LogicalEffectKey) (bounds : CausalBounds) :
    validateEffectBounds context effects newKeys bounds = .ok () ↔
      (∀ effect ∈ effects, effect.key ∈ newKeys →
        validateNewEffectWindow context effect.target bounds = .ok ()) ∧
      (∀ rule ∈ firedRules context effects,
        (firingEpochs context effects rule).length ≤ bounds.maxFiringsPerRule) ∧
      (newKeys ≠ [] → context.depth < bounds.maxDepth) ∧
      newKeys.length ≤ bounds.maxFanout ∧
      newKeys.length + context.effectsConsumed ≤ bounds.maxEffects := by
  have hwindow : ∀ effect : EffectRequest, (if effect.key ∈ newKeys then
      validateNewEffectWindow context effect.target bounds else .ok ()) = Except.ok () ↔
      (effect.key ∈ newKeys →
        validateNewEffectWindow context effect.target bounds = .ok ()) := by
    intro effect
    by_cases hnew : effect.key ∈ newKeys <;> simp [hnew]
  simp only [validateEffectBounds, seq_eq_ok_iff, forM_eq_ok_iff, hwindow,
    refuseIf_eq_ok_iff, not_exists, not_and, not_or, not_lt, not_le]

def effectBlockers (digest : EffectRequest → String) (context : ControlContext)
    (effects : List EffectRequest) : Finset Blocker :=
  (predecessorBlockers effects ++
    if effectsConflict digest context effects (ancestorsOf (effectGraph effects))
    then [Blocker.effectConflict] else []).toFinset

theorem controlEffectBlockers_eq_ok_iff (digest : EffectRequest → String)
    (request : ControlRequest) (results : List MechanismResult)
    (realizations : List RealizationBinding) (blockers : Finset Blocker) :
    controlEffectBlockers digest request results realizations = .ok blockers ↔
      EffectsAdmitted request (requestedEffects results) realizations ∧
      effectBlockers digest request.context (requestedEffects results) = blockers := by
  simp only [controlEffectBlockers, requireUnique, seq_eq_ok_iff, forM_eq_ok_iff,
    refuseIf_eq_ok_iff, not_not, ne_eq]
  rw [bind_eq_ok_iff]
  simp only [seq_eq_ok_iff, effectAncestors_eq_ok_iff, validateEffectBounds_eq_ok_iff,
    refuseIf_eq_ok_iff, pure, Except.pure, Except.ok.injEq, not_not, not_exists, not_and]
  constructor
  · rintro ⟨hroot, ancestors, ⟨hresolved, hacyclic, rfl⟩,
      ⟨hwindows, hfirings, hdepth, hfanout, hbudget⟩, hunique, hpresent, hblockers⟩
    exact ⟨⟨hroot, hresolved, hacyclic, hwindows, hfirings, hdepth, hfanout, hbudget, hunique,
      hpresent⟩, hblockers⟩
  · rintro ⟨h, hblockers⟩
    exact ⟨h.causalRoot, _, ⟨h.resolved, h.acyclic, rfl⟩,
      ⟨h.windows, h.firings, h.depth, h.fanout, h.budget⟩, h.realizationsUnique,
      h.realizationsPresent, hblockers⟩

end Raes.Control
