import Mathlib.Data.Finset.Option
import Mathlib.Data.Finset.Sort
import Mathlib.Data.Prod.Lex
import Raes.Control.EffectComposition
import Raes.Lib.SortBy

/-!
# Control composition

`participant_control_composition.py`: the blockers of an evaluation, the
disposition that they cause, the composition record, and the effect requests
that a composition admits.
-/

namespace Raes.Control

def resultSatisfied (result : MechanismResult) : Bool :=
  result.status = .resolved &&
    match result.payload with
    | some (.decision disposition) => disposition = .permit
    | _ => true

def validateResultBinding (result : MechanismResult) (slot : ResultSlot)
    (binding : MechanismBinding) (contextDigest : String) : Except PyError Unit := do
  refuseIf (result.instanceId ≠ slot.instanceId ∨ result.bindingDigest ≠ binding.digest)
    (.valueError "mechanism result does not bind the selected instance")
  refuseIf (result.contextDigest ≠ contextDigest)
    (.valueError "mechanism result uses a stale or different exact context")
  refuseIf (∃ payload ∈ result.payload, payload.kind ≠ slot.kind)
    (.valueError "mechanism result payload does not match its typed slot")

def IfcFact.expectedProfile : IfcFact → String
  | .teaching _ => "teaching-influence"
  | .security => "participant-boundary-flow-policy-v1"
  | .owner _ => "participant-owner-flow-policy-v1"

def validateIfcResult (result : MechanismResult) (binding : MechanismBinding)
    (context : ControlContext) : Except PyError Unit :=
  match result.payload with
  | some (.ifcFact fact) => do
    refuseIf (fact.expectedProfile ∉ binding.profiles.map ArtifactReference.ref)
      (.valueError "IFC fact domain is not selected by its mechanism")
    match fact with
    | .owner profile =>
      refuseIf (profile ∉ binding.profiles)
        (.valueError "owner IFC fact exact profile is not selected by its mechanism")
    | .teaching sourceRefs =>
      refuseIf (¬ (sourceRefs ⊆ context.inputs ∧ context.inputs ⊆ sourceRefs))
        (.valueError "teaching propagation must cover every admitted input")
    | .security => .ok ()
  | _ => .ok ()

/-- Contributors in canonical order.  The order grants no precedence. -/
def contributingResultIds (results : List MechanismResult) : List String :=
  (sortBy (fun result => toLex (result.instanceId, result.slotId)) results).map
    MechanismResult.resultId

def resultFor (results : List MechanismResult) (slotId : String) : Option MechanismResult :=
  results.find? fun result => result.slotId == slotId

def requireResultIndex (selection : ControlSelection) (results : List MechanismResult) :
    Except PyError Unit := do
  requireUnique (results.map MechanismResult.slotId)
  requireUnique (results.map MechanismResult.resultId)
  let slotIds := selection.slots.map ResultSlot.slotId
  refuseIf (¬ (results.map MechanismResult.slotId ⊆ slotIds ∧
      slotIds ⊆ results.map MechanismResult.slotId))
    (.valueError "every selected slot requires an explicit result or absence record")

variable (request : ControlRequest)

def validateSlotResult (result : MechanismResult) : Except PyError Unit :=
  match request.selection.slots.find? fun slot => slot.slotId == result.slotId with
  | none => .error (.keyError result.slotId)
  | some slot =>
    match request.selection.bindings.find? fun binding => binding.instanceId == slot.instanceId with
    | none => .error (.keyError slot.instanceId)
    | some binding => do
      validateResultBinding result slot binding request.context.digest
      validateIfcResult result binding request.context

variable (selection : ControlSelection)

def dependenciesOf (slotId : String) : List String :=
  ((slotGraph selection.slots selection.slotsUnique).get? slotId).getD []

/-- The result of a slot and of all its dependencies are satisfied.  The source
visits the slots in dependency order; here the fuel bounds the depth, which is
below the number of slots. -/
def slotSatisfied (selection : ControlSelection) (results : List MechanismResult) :
    ℕ → String → Bool
  | 0, _ => false
  | fuel + 1, slotId =>
    (resultFor results slotId).any resultSatisfied &&
      (dependenciesOf selection slotId).all (slotSatisfied selection results fuel)

def mandatoryBlockers (results : List MechanismResult) : List Blocker :=
  selection.slots.flatMap fun slot =>
    (if slot.role = .mandatory ∧ (resultFor results slot.slotId).any resultSatisfied = false
      then [.slot slot.slotId] else []) ++
    if slot.role = .mandatory ∧ ∃ dependency ∈ slot.dependencies,
        slotSatisfied selection results selection.slots.length dependency = false
      then [.dependency slot.slotId] else []

def resultBlockers (results : List MechanismResult) : Except PyError (Finset Blocker) := do
  requireResultIndex request.selection results
  forM results (validateSlotResult request)
  return (mandatoryBlockers request.selection results).toFinset

def supportBlockers (support : List EffectiveSupport) : Except PyError (Finset Blocker) := do
  requireUnique (support.map EffectiveSupport.instanceId)
  let instanceIds := request.selection.bindings.map MechanismBinding.instanceId
  refuseIf (¬ (support.map EffectiveSupport.instanceId ⊆ instanceIds ∧
      instanceIds ⊆ support.map EffectiveSupport.instanceId))
    (.valueError "support must cover every selected instance exactly")
  forM support fun item =>
    refuseIf (item.contextDigest ≠ request.context.digest)
      (.valueError "effective support is bound to a different context")
  return ((support.filter fun item =>
    item.status ≠ .resolved ∨ item.effectiveLevel ≠ .exact).map
      fun item => Blocker.support item.instanceId).toFinset

inductive Disposition where
  | eligible | deny | withhold | unsupported | stale | failed | weakened | conflict
  deriving DecidableEq, Repr

inductive GateDisposition where
  | permit | deny | withhold | unsupported | stale | failed
  deriving DecidableEq, Repr

def dispositionPrecedence : List Disposition :=
  [.conflict, .stale, .unsupported, .weakened, .deny, .withhold, .failed]

def unsatisfiedStatus : ResolutionStatus → Disposition
  | .stale => .stale
  | .unsupported => .unsupported
  | .weakened => .weakened
  | .failed | .missing | .unknown | .resolved => .failed

def resultCause (result : MechanismResult) : Option Disposition :=
  if result.status ≠ .resolved then some (unsatisfiedStatus result.status)
  else match result.payload with
    | some (.decision .deny) => some .deny
    | some (.decision .withhold) => some .withhold
    -- A mandatory abstain is unsatisfied, never implicit permission.
    | some (.decision .abstain) => some .failed
    | _ => none

def supportCause (item : EffectiveSupport) : Disposition :=
  if item.effectiveLevel = .unsupported then .unsupported
  else if item.status ≠ .resolved then unsatisfiedStatus item.status
  else .weakened

def gateCause : GateDisposition → Option Disposition
  | .permit => none
  | .deny => some .deny
  | .withhold => some .withhold
  | .unsupported => some .unsupported
  | .stale => some .stale
  | .failed => some .failed

def dependencyClosure (slotId : String) : List String :=
  (Worklist.run (dependenciesOf selection) (selection.slots.length + 1) [slotId] [slotId]).2

variable (results : List MechanismResult)

/-- The reasons in the dependency closure of one slot. -/
def slotCauses (slotId : String) : Finset Disposition :=
  ((dependencyClosure selection slotId).filterMap fun current =>
    (resultFor results current).bind resultCause).toFinset

def blockerCauses (support : List EffectiveSupport)
    (gate : GateDisposition) : Blocker → Finset Disposition
  | .slot slotId | .dependency slotId => slotCauses request.selection results slotId
  | .support instanceId =>
    ((support.find? fun item => item.instanceId == instanceId).map supportCause).toFinset
  -- A required predecessor withholds its parent until it is realized.
  | .predecessor _ => {.withhold}
  | .effectConflict => {.conflict}
  | .incumbentGates => (gateCause gate).toFinset

def compositionDisposition (support : List EffectiveSupport) (blockers : Finset Blocker)
    (gate : GateDisposition) : Disposition :=
  if blockers = ∅ then .eligible
  else
    let causes := blockers.biUnion (blockerCauses request results support gate)
    (dispositionPrecedence.find? fun item => item ∈ causes).getD .failed

structure Composition where
  disposition : Disposition
  (blockers contributingResultIds : List String)
  incumbentGateDisposition : GateDisposition
  incumbentGateEvidence : ArtifactReference
  deriving DecidableEq, Repr

variable (digest : EffectRequest → String)

def evaluationBlockers (request : ControlRequest)
    (results : List MechanismResult) (support : List EffectiveSupport)
    (realizations : List RealizationBinding) (gate : GateDisposition) :
    Except PyError (Finset Blocker) := do
  let fromResults ← resultBlockers request results
  let fromSupport ← supportBlockers request support
  let fromEffects ← controlEffectBlockers digest request results realizations
  let fromGate := if gate ≠ .permit then {.incumbentGates} else ∅
  return fromResults ∪ fromSupport ∪ fromEffects ∪ fromGate

instance string_le_trans : IsTrans String (· ≤ ·) := instIsTransLe

instance string_le_antisymm : Std.Antisymm fun a b : String => a ≤ b := instAntisymmLe

def canonicalBlockers (blockers : Finset Blocker) : List String :=
  (blockers.image Blocker.text).sort (· ≤ ·)

/-- The bounds that a list of references must keep. -/
def requireControlRefs (refs : List String) : Except PyError Unit :=
  refuseIf (256 < refs.length ∨ ∃ ref ∈ refs, 256 < ref.length)
    (.valueError "participant control references exceed their bounds")

def deriveControlComposition (request : ControlRequest)
    (results : List MechanismResult) (support : List EffectiveSupport)
    (realizations : List RealizationBinding) (gate : GateDisposition)
    (gateEvidence : ArtifactReference) : Except PyError Composition := do
  let blockers ← evaluationBlockers digest request results support realizations gate
  requireControlRefs (canonicalBlockers blockers)
  requireControlRefs (contributingResultIds results)
  return {
    disposition := compositionDisposition request results support blockers gate
    blockers := canonicalBlockers blockers
    contributingResultIds := contributingResultIds results
    incumbentGateDisposition := gate
    incumbentGateEvidence := gateEvidence }

structure Evaluation where
  request : ControlRequest
  results : List MechanismResult
  support : List EffectiveSupport
  composition : Composition
  realizations : List RealizationBinding

def validateEvaluationStructure (document : Evaluation) : Except PyError Unit := do
  let gate := document.composition.incumbentGateDisposition
  let blockers ← evaluationBlockers digest document.request document.results document.support
    document.realizations gate
  refuseIf (document.composition.contributingResultIds ≠ contributingResultIds document.results)
    (.valueError "composition must preserve every contributor in canonical order")
  refuseIf (canonicalBlockers blockers ≠ document.composition.blockers)
    (.valueError "composition must retain exactly every blocking reason")
  let canonical := compositionDisposition document.request document.results document.support
    blockers gate
  refuseIf (document.composition.disposition ≠ canonical)
    (.valueError "composition disposition must be the canonical cause of its blockers")

def admittedEffectPhase (composition : Composition) : Option EffectPhase :=
  if composition.blockers = [] then some .subsequent
  else if ∀ blocker ∈ composition.blockers, "predecessor:".toList.isPrefixOf blocker.toList = true
  then some .requiredPredecessor
  else none

def admittedEffectRequests (composition : Composition) (results : List MechanismResult) :
    List EffectRequest :=
  match admittedEffectPhase composition with
  | none => []
  | some phase => (results.filterMap MechanismResult.effect?).filter fun effect =>
      effect.phase = phase

structure ResultsAdmitted (request : ControlRequest) (results : List MechanismResult) : Prop where
  slotsUnique : (results.map MechanismResult.slotId).Nodup
  idsUnique : (results.map MechanismResult.resultId).Nodup
  selected : results.map MechanismResult.slotId ⊆ request.selection.slots.map ResultSlot.slotId
  covered : request.selection.slots.map ResultSlot.slotId ⊆ results.map MechanismResult.slotId
  bound : ∀ result ∈ results, validateSlotResult request result = .ok ()

structure SupportAdmitted (request : ControlRequest) (support : List EffectiveSupport) :
    Prop where
  instancesUnique : (support.map EffectiveSupport.instanceId).Nodup
  selected : support.map EffectiveSupport.instanceId ⊆
    request.selection.bindings.map MechanismBinding.instanceId
  covered : request.selection.bindings.map MechanismBinding.instanceId ⊆
    support.map EffectiveSupport.instanceId
  bound : ∀ item ∈ support, item.contextDigest = request.context.digest

def weakSupport (support : List EffectiveSupport) : List Blocker :=
  (support.filter fun item => item.status ≠ .resolved ∨ item.effectiveLevel ≠ .exact).map
    fun item => .support item.instanceId

def gateBlockers (gate : GateDisposition) : Finset Blocker :=
  if gate ≠ .permit then {.incumbentGates} else ∅

def standingBlockers (request : ControlRequest)
    (results : List MechanismResult) (support : List EffectiveSupport) (gate : GateDisposition) :
    Finset Blocker :=
  (mandatoryBlockers request.selection results).toFinset ∪ (weakSupport support).toFinset ∪
    effectBlockers digest request.context (requestedEffects results) ∪ gateBlockers gate

structure EvaluationAdmitted (request : ControlRequest) (results : List MechanismResult)
    (support : List EffectiveSupport) (realizations : List RealizationBinding) : Prop where
  resultsAdmitted : ResultsAdmitted request results
  supportAdmitted : SupportAdmitted request support
  effectsAdmitted : EffectsAdmitted request (requestedEffects results) realizations

theorem resultBlockers_eq_ok_iff (results : List MechanismResult) (blockers : Finset Blocker) :
    resultBlockers request results = .ok blockers ↔ ResultsAdmitted request results ∧
      (mandatoryBlockers request.selection results).toFinset = blockers := by
  simp only [resultBlockers, requireResultIndex, requireUnique, seq_eq_ok_iff,
    forM_eq_ok_iff, refuseIf_eq_ok_iff, pure, Except.pure, Except.ok.injEq, not_not]
  constructor
  · rintro ⟨⟨hslots, hids, hselected, hcovered⟩, hbound, hblockers⟩
    exact ⟨⟨hslots, hids, hselected, hcovered, hbound⟩, hblockers⟩
  · rintro ⟨h, hblockers⟩
    exact ⟨⟨h.slotsUnique, h.idsUnique, h.selected, h.covered⟩, h.bound, hblockers⟩

theorem supportBlockers_eq_ok_iff (support : List EffectiveSupport) (blockers : Finset Blocker) :
    supportBlockers request support = .ok blockers ↔ SupportAdmitted request support ∧
      (weakSupport support).toFinset = blockers := by
  simp only [supportBlockers, requireUnique, seq_eq_ok_iff, forM_eq_ok_iff,
    refuseIf_eq_ok_iff, pure, Except.pure, Except.ok.injEq, not_not, ne_eq]
  constructor
  · rintro ⟨hunique, ⟨hselected, hcovered⟩, hbound, hblockers⟩
    exact ⟨⟨hunique, hselected, hcovered, hbound⟩, hblockers⟩
  · rintro ⟨h, hblockers⟩
    exact ⟨h.instancesUnique, ⟨h.selected, h.covered⟩, h.bound, hblockers⟩

theorem evaluationBlockers_eq_ok_iff (request : ControlRequest)
    (results : List MechanismResult) (support : List EffectiveSupport)
    (realizations : List RealizationBinding) (gate : GateDisposition) (blockers : Finset Blocker) :
    evaluationBlockers digest request results support realizations gate = .ok blockers ↔
      EvaluationAdmitted request results support realizations ∧
      standingBlockers digest request results support gate = blockers := by
  simp only [evaluationBlockers, bind_eq_ok_iff, resultBlockers_eq_ok_iff,
    supportBlockers_eq_ok_iff, controlEffectBlockers_eq_ok_iff, pure, Except.pure, Except.ok.injEq]
  constructor
  · rintro ⟨_, ⟨hresults, rfl⟩, _, ⟨hsupport, rfl⟩, _, ⟨heffects, rfl⟩, hblockers⟩
    exact ⟨⟨hresults, hsupport, heffects⟩, hblockers⟩
  · rintro ⟨h, hblockers⟩
    exact ⟨_, ⟨h.resultsAdmitted, rfl⟩, _, ⟨h.supportAdmitted, rfl⟩, _,
      ⟨h.effectsAdmitted, rfl⟩, hblockers⟩

/-- A composition is derived when the checks pass, and it records the standing
blockers. -/
theorem deriveControlComposition_eq_ok_iff {digest : EffectRequest → String}
    {request : ControlRequest} {results : List MechanismResult} {support : List EffectiveSupport}
    {realizations : List RealizationBinding} {gate : GateDisposition}
    {gateEvidence : ArtifactReference} {composition : Composition} :
    deriveControlComposition digest request results support realizations gate gateEvidence =
        .ok composition ↔
      EvaluationAdmitted request results support realizations ∧
      requireControlRefs
        (canonicalBlockers (standingBlockers digest request results support gate)) = .ok () ∧
      requireControlRefs (contributingResultIds results) = .ok () ∧
      ({ disposition := compositionDisposition request results support
            (standingBlockers digest request results support gate) gate
         blockers := canonicalBlockers (standingBlockers digest request results support gate)
         contributingResultIds := contributingResultIds results
         incumbentGateDisposition := gate
         incumbentGateEvidence := gateEvidence } : Composition) = composition := by
  rw [deriveControlComposition, bind_eq_ok_iff]
  simp only [seq_eq_ok_iff, evaluationBlockers_eq_ok_iff, pure, Except.pure,
    Except.ok.injEq]
  constructor
  · rintro ⟨_, ⟨hadmitted, rfl⟩, hrest⟩
    exact ⟨hadmitted, hrest⟩
  · rintro ⟨hadmitted, hrest⟩
    exact ⟨_, ⟨hadmitted, rfl⟩, hrest⟩

end Raes.Control
