import Raes.Control.Composition

/-!
# Order independence

A composition depends on the results, the support and the realizations as sets.
Every check and every blocker is a statement about members, so a permutation of
the lists passes the same checks and leaves the same composition.
-/

namespace Raes.Control

section Effects

variable {effects effects' : List EffectRequest} (h : effects.Perm effects')

include h

theorem precedes_of_perm : Precedes effects = Precedes effects' := by
  funext identity predecessor
  simp only [Precedes, h.mem_iff]

theorem resolved_of_perm : Resolved effects ↔ Resolved effects' := by
  simp only [Resolved, (h.map EffectRequest.effectId).mem_iff, h.mem_iff]

variable (context : ControlContext)

theorem newEffectKeys_perm :
    (newEffectKeys context effects).Perm (newEffectKeys context effects') :=
  ((h.map EffectRequest.key).dedup).filter _

theorem firingEpochs_perm (rule : String × String) :
    (firingEpochs context effects rule).Perm (firingEpochs context effects' rule) :=
  (((h.filter _).map _).append_left _).dedup

theorem mem_firedRules_of_perm (rule : String × String) :
    rule ∈ firedRules context effects ↔ rule ∈ firedRules context effects' := by
  simp only [firedRules, List.mem_append, (h.map fun effect => effect.key.rule).mem_iff]

theorem mem_ancestorsOf_of_perm (hresolved : Resolved effects) (identity ancestor : String) :
    ancestor ∈ ancestorsOf (effectGraph effects) identity ↔
      ancestor ∈ ancestorsOf (effectGraph effects') identity := by
  rw [mem_ancestorsOf_iff hresolved, mem_ancestorsOf_iff ((resolved_of_perm h).mp hresolved),
    precedes_of_perm h]

omit h in
theorem effectPairConflicts_congr {ancestors ancestors' : String → List String}
    (hmem : ∀ identity ancestor, ancestor ∈ ancestors identity ↔ ancestor ∈ ancestors' identity)
    (left right : EffectRequest) (context : ControlContext) :
    effectPairConflicts left right ancestors context =
      effectPairConflicts left right ancestors' context := by
  simp only [effectPairConflicts, hmem]

theorem effectsConflict_of_perm (hresolved : Resolved effects) (digest : EffectRequest → String)
    (context : ControlContext) :
    effectsConflict digest context effects (ancestorsOf (effectGraph effects)) ↔
      effectsConflict digest context effects' (ancestorsOf (effectGraph effects')) := by
  have hpair : ∀ left right,
      effectPairConflicts left right (ancestorsOf (effectGraph effects)) context =
        effectPairConflicts left right (ancestorsOf (effectGraph effects')) context :=
    fun left right => effectPairConflicts_congr (mem_ancestorsOf_of_perm h hresolved) left right
      context
  have hsymm : ∀ {left right : EffectRequest},
      effectPairConflicts left right (ancestorsOf (effectGraph effects')) context = false →
      effectPairConflicts right left (ancestorsOf (effectGraph effects')) context = false :=
    fun hfalse => by rwa [effectPairConflicts_symm]
  unfold effectsConflict
  simp only [h.mem_iff, hpair, h.pairwise_iff hsymm]

theorem EffectsAdmitted.of_perm {request : ControlRequest}
    {realizations realizations' : List RealizationBinding}
    (hrealizations : realizations.Perm realizations')
    (hadmitted : EffectsAdmitted request effects realizations) :
    EffectsAdmitted request effects' realizations' where
  causalRoot := fun effect heffect => hadmitted.causalRoot effect (h.mem_iff.mpr heffect)
  resolved := (resolved_of_perm h).mp hadmitted.resolved
  acyclic := precedes_of_perm h ▸ hadmitted.acyclic
  windows := fun effect heffect hnew => hadmitted.windows effect (h.mem_iff.mpr heffect)
    ((newEffectKeys_perm h _).mem_iff.mpr hnew)
  firings := fun rule hrule => by
    rw [← (firingEpochs_perm h _ rule).length_eq]
    exact hadmitted.firings rule ((mem_firedRules_of_perm h _ rule).mpr hrule)
  depth := fun hnew => hadmitted.depth fun hempty =>
    hnew (List.perm_nil.mp (hempty ▸ (newEffectKeys_perm h _).symm))
  fanout := by
    rw [← (newEffectKeys_perm h _).length_eq]
    exact hadmitted.fanout
  budget := by
    rw [← (newEffectKeys_perm h _).length_eq]
    exact hadmitted.budget
  realizationsUnique :=
    (hrealizations.map RealizationBinding.effectId).nodup_iff.mp hadmitted.realizationsUnique
  realizationsPresent := fun realization hmem =>
    (h.map EffectRequest.effectId).mem_iff.mp
      (hadmitted.realizationsPresent realization (hrealizations.mem_iff.mpr hmem))

theorem effectBlockers_of_perm (hresolved : Resolved effects) (digest : EffectRequest → String)
    (context : ControlContext) :
    effectBlockers digest context effects = effectBlockers digest context effects' := by
  have hpredecessors : (predecessorBlockers effects).Perm (predecessorBlockers effects') :=
    (h.filter _).map _
  ext blocker
  simp only [effectBlockers, List.mem_toFinset, List.mem_append, hpredecessors.mem_iff,
    effectsConflict_of_perm h hresolved]

end Effects

theorem requestedEffects_perm {results results' : List MechanismResult}
    (h : results.Perm results') : (requestedEffects results).Perm (requestedEffects results') :=
  (h.filterMap _).dedup

theorem controlEffectBlockers_of_perm (digest : EffectRequest → String) (request : ControlRequest)
    {results results' : List MechanismResult} {realizations realizations' : List RealizationBinding}
    (hresults : results.Perm results') (hrealizations : realizations.Perm realizations')
    {blockers : Finset Blocker}
    (hok : controlEffectBlockers digest request results realizations = .ok blockers) :
    controlEffectBlockers digest request results' realizations' = .ok blockers := by
  rw [controlEffectBlockers_eq_ok_iff] at hok ⊢
  obtain ⟨hadmitted, rfl⟩ := hok
  have heffects := requestedEffects_perm hresults
  exact ⟨hadmitted.of_perm heffects hrealizations,
    (effectBlockers_of_perm heffects hadmitted.resolved digest request.context).symm⟩

section Results

variable {results results' : List MechanismResult} (h : results.Perm results')
  (hunique : (results.map MechanismResult.slotId).Nodup)

include h hunique

theorem resultFor_of_perm : resultFor results = resultFor results' :=
  funext (find?_key_of_perm h hunique)

theorem slotSatisfied_of_perm (selection : ControlSelection) (fuel : ℕ) (slotId : String) :
    slotSatisfied selection results fuel slotId = slotSatisfied selection results' fuel slotId := by
  induction fuel generalizing slotId with
  | zero => rfl
  | succ fuel ih =>
    have hrest : slotSatisfied selection results fuel = slotSatisfied selection results' fuel :=
      funext ih
    rw [slotSatisfied, slotSatisfied, resultFor_of_perm h hunique, hrest]

theorem mandatoryBlockers_of_perm (selection : ControlSelection) :
    mandatoryBlockers selection results = mandatoryBlockers selection results' := by
  have hsatisfied : slotSatisfied selection results = slotSatisfied selection results' := by
    funext fuel slotId
    exact slotSatisfied_of_perm h hunique selection fuel slotId
  rw [mandatoryBlockers, mandatoryBlockers, resultFor_of_perm h hunique, hsatisfied]

theorem contributingResultIds_of_perm :
    contributingResultIds results = contributingResultIds results' := by
  have hkeys : (results.map fun result => toLex (result.instanceId, result.slotId)).Nodup := by
    apply List.Nodup.of_map fun key => (ofLex key).2
    rwa [List.map_map]
  rw [contributingResultIds, contributingResultIds, sortBy_eq_of_perm h hkeys]

end Results

theorem ResultsAdmitted.of_perm {request : ControlRequest} {results results' : List MechanismResult}
    (h : results.Perm results') (hadmitted : ResultsAdmitted request results) :
    ResultsAdmitted request results' where
  slotsUnique := (h.map MechanismResult.slotId).nodup_iff.mp hadmitted.slotsUnique
  idsUnique := (h.map MechanismResult.resultId).nodup_iff.mp hadmitted.idsUnique
  selected := fun _ hmem =>
    hadmitted.selected ((h.map MechanismResult.slotId).mem_iff.mpr hmem)
  covered := fun _ hmem =>
    (h.map MechanismResult.slotId).mem_iff.mp (hadmitted.covered hmem)
  bound := fun result hmem => hadmitted.bound result (h.mem_iff.mpr hmem)

section Support

variable {support support' : List EffectiveSupport} (h : support.Perm support')

include h

theorem SupportAdmitted.of_perm {request : ControlRequest}
    (hadmitted : SupportAdmitted request support) : SupportAdmitted request support' where
  instancesUnique :=
    (h.map EffectiveSupport.instanceId).nodup_iff.mp hadmitted.instancesUnique
  selected := fun _ hmem =>
    hadmitted.selected ((h.map EffectiveSupport.instanceId).mem_iff.mpr hmem)
  covered := fun _ hmem =>
    (h.map EffectiveSupport.instanceId).mem_iff.mp (hadmitted.covered hmem)
  bound := fun item hmem => hadmitted.bound item (h.mem_iff.mpr hmem)

theorem weakSupport_perm : (weakSupport support).Perm (weakSupport support') :=
  (h.filter _).map _

end Support

section Compositions

variable {request : ControlRequest} {results results' : List MechanismResult}
  {support support' : List EffectiveSupport} {realizations realizations' : List RealizationBinding}
  (hresults : results.Perm results') (hsupport : support.Perm support')
  (hrealizations : realizations.Perm realizations')

include hresults hsupport

theorem standingBlockers_of_perm
    (hadmitted : EvaluationAdmitted request results support realizations)
    (digest : EffectRequest → String) (gate : GateDisposition) :
    standingBlockers digest request results support gate =
      standingBlockers digest request results' support' gate := by
  have hweak : (weakSupport support).toFinset = (weakSupport support').toFinset :=
    List.toFinset_eq_of_perm _ _ (weakSupport_perm hsupport)
  rw [standingBlockers, standingBlockers, hweak,
    mandatoryBlockers_of_perm hresults hadmitted.resultsAdmitted.slotsUnique,
    effectBlockers_of_perm (requestedEffects_perm hresults) hadmitted.effectsAdmitted.resolved]

theorem blockerCauses_of_perm
    (hadmitted : EvaluationAdmitted request results support realizations)
    (gate : GateDisposition) :
    blockerCauses request results support gate = blockerCauses request results' support' gate := by
  have hslot : slotCauses request.selection results = slotCauses request.selection results' := by
    funext slotId
    rw [slotCauses, slotCauses,
      resultFor_of_perm hresults hadmitted.resultsAdmitted.slotsUnique]
  funext blocker
  cases blocker with
  | slot slotId => exact congrFun hslot slotId
  | dependency slotId => exact congrFun hslot slotId
  | support instanceId =>
    rw [blockerCauses, blockerCauses,
      find?_key_of_perm hsupport hadmitted.supportAdmitted.instancesUnique instanceId]
  | predecessor effectId => rfl
  | effectConflict => rfl
  | incumbentGates => rfl

include hrealizations in
theorem EvaluationAdmitted.of_perm
    (hadmitted : EvaluationAdmitted request results support realizations) :
    EvaluationAdmitted request results' support' realizations' where
  resultsAdmitted := hadmitted.resultsAdmitted.of_perm hresults
  supportAdmitted := hadmitted.supportAdmitted.of_perm hsupport
  effectsAdmitted := hadmitted.effectsAdmitted.of_perm (requestedEffects_perm hresults)
    hrealizations

include hrealizations in
theorem deriveControlComposition_of_perm (digest : EffectRequest → String)
    (gate : GateDisposition) (gateEvidence : ArtifactReference) {composition : Composition}
    (hok : deriveControlComposition digest request results support realizations gate
      gateEvidence = .ok composition) :
    deriveControlComposition digest request results' support' realizations' gate gateEvidence =
      .ok composition := by
  rw [deriveControlComposition_eq_ok_iff] at hok ⊢
  obtain ⟨hadmitted, hblockers, hcontributors, rfl⟩ := hok
  have hstanding := standingBlockers_of_perm hresults hsupport hadmitted digest gate
  have hids := contributingResultIds_of_perm hresults hadmitted.resultsAdmitted.slotsUnique
  have hcauses := blockerCauses_of_perm hresults hsupport hadmitted gate
  refine ⟨hadmitted.of_perm hresults hsupport hrealizations, hstanding ▸ hblockers,
    hids ▸ hcontributors, ?_⟩
  rw [compositionDisposition, compositionDisposition, hstanding, hids, hcauses]

end Compositions

/-! ## Permutations -/

theorem toOption_eq_of_ok_iff {α : Type} {x y : Except PyError α}
    (h : ∀ a, x = .ok a ↔ y = .ok a) : x.toOption = y.toOption := by
  cases x with
  | ok a => rw [(h a).mp rfl]
  | error e =>
    cases y with
    | ok b => exact absurd ((h b).mpr rfl) (by simp)
    | error e' => rfl

theorem admittedEffectRequests_perm (composition : Composition)
    {results results' : List MechanismResult} (h : results.Perm results') :
    (admittedEffectRequests composition results).Perm
      (admittedEffectRequests composition results') := by
  unfold admittedEffectRequests
  cases admittedEffectPhase composition with
  | none => exact List.Perm.refl _
  | some phase => exact (h.filterMap _).filter _

/-- The conflict relation is symmetric, and the blockers, the composition and the
admitted effects do not depend on the order of the records. -/
theorem composition_order_independent (digest : EffectRequest → String) (request : ControlRequest)
    {results results' : List MechanismResult} {support support' : List EffectiveSupport}
    {realizations realizations' : List RealizationBinding} (gate : GateDisposition)
    (gateEvidence : ArtifactReference) (hresults : results.Perm results')
    (hsupport : support.Perm support') (hrealizations : realizations.Perm realizations') :
    (∀ left right ancestors, effectPairConflicts left right ancestors request.context =
      effectPairConflicts right left ancestors request.context) ∧
    (controlEffectBlockers digest request results realizations).toOption =
      (controlEffectBlockers digest request results' realizations').toOption ∧
    (deriveControlComposition digest request results support realizations gate
        gateEvidence).toOption =
      (deriveControlComposition digest request results' support' realizations' gate
        gateEvidence).toOption ∧
    ∀ composition,
      deriveControlComposition digest request results support realizations gate gateEvidence =
        .ok composition →
      (admittedEffectRequests composition results).Perm
        (admittedEffectRequests composition results') := by
  refine ⟨fun left right ancestors => effectPairConflicts_symm left right ancestors _, ?_, ?_, ?_⟩
  · apply toOption_eq_of_ok_iff
    intro blockers
    constructor
    · exact controlEffectBlockers_of_perm digest request hresults hrealizations
    · exact controlEffectBlockers_of_perm digest request hresults.symm hrealizations.symm
  · apply toOption_eq_of_ok_iff
    intro composition
    constructor
    · exact deriveControlComposition_of_perm hresults hsupport hrealizations digest gate
        gateEvidence
    · exact deriveControlComposition_of_perm hresults.symm hsupport.symm hrealizations.symm digest
        gate gateEvidence
  · exact fun composition _ => admittedEffectRequests_perm composition hresults

section Sample

def sampleArtifact (kind : ArtifactKind) (ref : String) : ArtifactReference :=
  ⟨kind, ref, "1", "sha256:0"⟩

def sampleContext : ControlContext where
  run := sampleArtifact .run "run"
  inputs := []
  clock := sampleArtifact .clock "clock"
  order := 5
  triggerRoot := "root"
  depth := 0
  effectsConsumed := 0
  priorEffectClaims := []
  ruleFirings := []
  digest := "context"
  rulesUnique := by decide
  claimIdsUnique := by decide
  claimKeysUnique := by decide
  claimsFired := by decide

/-- One mechanism with two slots, of which the second depends on the first. -/
def sampleSelection : ControlSelection where
  bindings := [⟨"monitor", [], "binding"⟩]
  slots := [⟨"first", "monitor", .effectRequest, .mandatory, []⟩,
    ⟨"second", "monitor", .effectRequest, .mandatory, ["first"]⟩]
  bounds := ⟨3, 4, 2, 2, 9⟩
  instancesUnique := by decide
  slotsUnique := by decide
  instancesPresent := by decide
  dependenciesPresent := by decide
  acyclic := by decide +kernel

def sampleRequest : ControlRequest := ⟨sampleSelection, sampleContext⟩

def sampleEffect (effectId slot : String) (predecessorEffectIds : List String) : EffectRequest where
  effectId := effectId
  key := ⟨"run", "root", "rule", "1", slot, "epoch"⟩
  rule := sampleArtifact .rule "rule"
  authority := sampleArtifact .authority "owner"
  phase := .subsequent
  predecessorEffectIds := predecessorEffectIds
  target := .audit ⟨⟨"action", "contract", effectId, none, none, "participant", "episode"⟩,
    sampleArtifact .audit effectId, "audience", sampleArtifact .policy "retention"⟩
  evidence := [sampleArtifact .evidence "evidence"]

def sampleResult (slotId : String) (effect : EffectRequest) : MechanismResult where
  resultId := "result-" ++ slotId
  slotId := slotId
  instanceId := "monitor"
  bindingDigest := "binding"
  contextDigest := "context"
  status := .resolved
  payload := some (.effectRequest effect)
  resolvedPayload := by simp

def firstResult : MechanismResult := sampleResult "first" (sampleEffect "audit-1" "first" [])

def secondResult : MechanismResult :=
  sampleResult "second" (sampleEffect "audit-2" "second" ["audit-1"])

def sampleSupport : List EffectiveSupport := [⟨"monitor", .exact, .resolved, "context"⟩]

def sampleRealizations : List RealizationBinding := [⟨"audit-1", .applied⟩]

def sampleGate : ArtifactReference := sampleArtifact .evidence "gate"

/-- The records compose to an eligible evaluation in both orders. -/
theorem composition_order_independent_swap :
    (deriveControlComposition EffectRequest.effectId sampleRequest [firstResult, secondResult]
        sampleSupport sampleRealizations .permit sampleGate).toOption =
      (deriveControlComposition EffectRequest.effectId sampleRequest [secondResult, firstResult]
        sampleSupport sampleRealizations .permit sampleGate).toOption :=
  (composition_order_independent EffectRequest.effectId sampleRequest .permit sampleGate
    (List.Perm.swap secondResult firstResult []) (List.Perm.refl sampleSupport)
    (List.Perm.refl sampleRealizations)).2.2.1

example : ((deriveControlComposition EffectRequest.effectId sampleRequest
    [firstResult, secondResult] sampleSupport sampleRealizations .permit sampleGate).toOption.map
      Composition.disposition) = some .eligible := by
  decide +kernel

end Sample

end Raes.Control
