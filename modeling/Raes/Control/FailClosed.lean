import Raes.Control.OrderIndependence

/-!
# Fail-closed admission

An evaluation is eligible only when nothing blocks it, and it admits effects only
when nothing but required predecessors does.  The claims that it newly admits
keep the bounds of the selection, and a replay of retained claims uses none of
them.
-/

namespace Raes.Control

/-! ## The dependency closure -/

def DependsOn (selection : ControlSelection) (slotId dependency : String) : Prop :=
  dependency ∈ dependenciesOf selection slotId

section Closure

variable (selection : ControlSelection) (results : List MechanismResult)

theorem dependenciesOf_slot {slot : ResultSlot} (hslot : slot ∈ selection.slots) :
    dependenciesOf selection slot.slotId = slot.dependencies := by
  have hentry : (slotGraph selection.slots selection.slotsUnique).get? slot.slotId =
      some slot.dependencies :=
    Dict.get?_eq_some_iff.mpr (List.mem_map.mpr ⟨slot, hslot, rfl⟩)
  rw [dependenciesOf, hentry, Option.getD_some]

theorem dependency_mem_keys {slotId dependency : String}
    (hdepends : DependsOn selection slotId dependency) :
    dependency ∈ (slotGraph selection.slots selection.slotsUnique).keys := by
  unfold DependsOn dependenciesOf at hdepends
  cases hget : (slotGraph selection.slots selection.slotsUnique).get? slotId with
  | none => simp [hget] at hdepends
  | some dependencies =>
    rw [hget, Option.getD_some] at hdepends
    obtain ⟨slot, hslot, hentry⟩ := List.mem_map.mp (Dict.get?_eq_some_iff.mp hget)
    obtain ⟨-, rfl⟩ := Prod.mk.inj hentry
    have hkeys : (slotGraph selection.slots selection.slotsUnique).keys =
        selection.slots.map ResultSlot.slotId := by
      simp [slotGraph, Dict.keys]
    rw [hkeys]
    exact selection.dependenciesPresent slot hslot dependency hdepends

theorem slotSatisfied_succ_iff (fuel : ℕ) (slotId : String) :
    slotSatisfied selection results (fuel + 1) slotId = true ↔
      (resultFor results slotId).any resultSatisfied = true ∧
      ∀ dependency ∈ dependenciesOf selection slotId,
        slotSatisfied selection results fuel dependency = true := by
  rw [slotSatisfied, Bool.and_eq_true, List.all_eq_true]

theorem slotSatisfied_of_closure {slotId : String} {fuel : ℕ}
    (hslot : slotId ∈ (slotGraph selection.slots selection.slotsUnique).keys)
    (hwalk : Graph.walks (slotGraph selection.slots selection.slotsUnique) fuel slotId = false)
    (hclosure : ∀ other, Relation.ReflTransGen (DependsOn selection) slotId other →
      (resultFor results other).any resultSatisfied = true) :
    slotSatisfied selection results fuel slotId = true := by
  induction fuel generalizing slotId with
  | zero =>
    rw [Graph.walks, Dict.contains_iff.mpr hslot] at hwalk
    cases hwalk
  | succ fuel ih =>
    rw [slotSatisfied_succ_iff]
    refine ⟨hclosure slotId .refl, fun dependency hdepends => ?_⟩
    obtain ⟨dependencies, hget⟩ := Dict.mem_keys_iff.mp hslot
    have hmem : dependency ∈ dependencies := by
      rwa [dependenciesOf, hget, Option.getD_some] at hdepends
    apply ih
    · exact dependency_mem_keys selection hdepends
    · by_contra hlong
      rw [Bool.not_eq_false] at hlong
      rw [(Graph.walks_succ_iff _ _).mpr ⟨dependency, ⟨dependencies, hget, hmem⟩, hlong⟩] at hwalk
      cases hwalk
    · exact fun other hother => hclosure other (.head hdepends hother)

theorem resultSatisfied_of_reaches {slotId other : String}
    (hreaches : Relation.ReflTransGen (DependsOn selection) slotId other) {fuel : ℕ}
    (hsatisfied : slotSatisfied selection results fuel slotId = true) :
    (resultFor results other).any resultSatisfied = true := by
  induction hreaches using Relation.ReflTransGen.head_induction_on generalizing fuel with
  | refl =>
    cases fuel with
    | zero => cases hsatisfied
    | succ fuel => exact ((slotSatisfied_succ_iff selection results fuel other).mp hsatisfied).1
  | head hdepends _ ih =>
    cases fuel with
    | zero => cases hsatisfied
    | succ fuel =>
      exact ih (((slotSatisfied_succ_iff selection results fuel _).mp hsatisfied).2 _ hdepends)

theorem mandatory_closure_satisfied (hblockers : mandatoryBlockers selection results = [])
    {slot : ResultSlot} (hslot : slot ∈ selection.slots) (hrole : slot.role = .mandatory)
    {slotId : String} (hreaches : Relation.ReflTransGen (DependsOn selection) slot.slotId slotId) :
    (resultFor results slotId).any resultSatisfied = true := by
  have hone := List.append_eq_nil_iff.mp (List.flatMap_eq_nil_iff.mp hblockers slot hslot)
  have hself : (resultFor results slot.slotId).any resultSatisfied = true := by
    by_contra hunsatisfied
    rw [Bool.not_eq_true] at hunsatisfied
    have hslotBlocker := hone.1
    rw [if_pos ⟨hrole, hunsatisfied⟩] at hslotBlocker
    exact absurd hslotBlocker (List.cons_ne_nil _ _)
  rcases Relation.ReflTransGen.cases_head hreaches with rfl | ⟨dependency, hdepends, hrest⟩
  · exact hself
  · rw [DependsOn, dependenciesOf_slot selection hslot] at hdepends
    apply resultSatisfied_of_reaches selection results hrest
    by_contra hunsatisfied
    rw [Bool.not_eq_true] at hunsatisfied
    have hdependencyBlocker := hone.2
    rw [if_pos ⟨hrole, dependency, hdepends, hunsatisfied⟩] at hdependencyBlocker
    exact absurd hdependencyBlocker (List.cons_ne_nil _ _)

/-- A mandatory slot is blocked by its dependencies when a result somewhere behind it, at
whatever depth, is not satisfied, and only then. -/
theorem dependency_blocker_iff (slotId : String) :
    .dependency slotId ∈ mandatoryBlockers selection results ↔
      (∃ slot ∈ selection.slots, slot.slotId = slotId ∧ slot.role = .mandatory) ∧
      ∃ other, Relation.TransGen (DependsOn selection) slotId other ∧
        (resultFor results other).any resultSatisfied = false := by
  have hlength : (slotGraph selection.slots selection.slotsUnique).keys.length ≤
      selection.slots.length := by
    simp [slotGraph, Dict.keys]
  rw [mandatoryBlockers, List.mem_flatMap]
  constructor
  · rintro ⟨slot, hslot, hmem⟩
    simp only [List.mem_append, List.mem_ite_nil_right, List.mem_singleton, reduceCtorEq,
      and_false, false_or, Blocker.dependency.injEq] at hmem
    obtain ⟨⟨hrole, dependency, hdependency, hfalse⟩, rfl⟩ := hmem
    refine ⟨⟨slot, hslot, rfl, hrole⟩, ?_⟩
    by_contra hnone
    have hdepends : DependsOn selection slot.slotId dependency := by
      rwa [DependsOn, dependenciesOf_slot selection hslot]
    have htrue := slotSatisfied_of_closure selection results (dependency_mem_keys selection hdepends)
      (Graph.walks_eq_false selection.acyclic hlength dependency) fun other hother => by
        by_contra hfalse
        exact hnone ⟨other, .head' hdepends hother, Bool.not_eq_true _ ▸ hfalse⟩
    rw [hfalse] at htrue
    cases htrue
  · rintro ⟨⟨slot, hslot, rfl, hrole⟩, other, hreaches, hfalse⟩
    obtain ⟨dependency, hdepends, hrest⟩ := Relation.TransGen.head'_iff.mp hreaches
    refine ⟨slot, hslot, List.mem_append_right _ ?_⟩
    rw [DependsOn, dependenciesOf_slot selection hslot] at hdepends
    rw [if_pos, List.mem_singleton]
    refine ⟨hrole, dependency, hdepends, ?_⟩
    by_contra htrue
    rw [resultSatisfied_of_reaches selection results hrest (Bool.not_eq_false _ ▸ htrue)] at hfalse
    cases hfalse

end Closure

/-! ## Blockers -/

theorem compositionDisposition_eq_eligible_iff (request : ControlRequest)
    (results : List MechanismResult) (support : List EffectiveSupport)
    (blockers : Finset Blocker) (gate : GateDisposition) :
    compositionDisposition request results support blockers gate = .eligible ↔ blockers = ∅ := by
  constructor
  · intro heligible
    by_contra hblocked
    rw [compositionDisposition, if_neg hblocked] at heligible
    dsimp only at heligible
    cases hfound : dispositionPrecedence.find? fun item =>
        item ∈ blockers.biUnion (blockerCauses request results support gate) with
    | none =>
      rw [hfound, Option.getD_none] at heligible
      cases heligible
    | some item =>
      have hmem := List.mem_of_find?_eq_some hfound
      rw [hfound, Option.getD_some] at heligible
      rw [heligible] at hmem
      exact absurd hmem (by decide)
  · rintro rfl
    rw [compositionDisposition, if_pos rfl]

theorem canonicalBlockers_eq_nil_iff {blockers : Finset Blocker} :
    canonicalBlockers blockers = [] ↔ blockers = ∅ := by
  rw [canonicalBlockers, ← List.length_eq_zero_iff, Finset.length_sort, Finset.card_eq_zero,
    Finset.image_eq_empty]

theorem mem_canonicalBlockers_iff {blockers : Finset Blocker} {text : String} :
    text ∈ canonicalBlockers blockers ↔ ∃ blocker ∈ blockers, blocker.text = text := by
  rw [canonicalBlockers, Finset.mem_sort, Finset.mem_image]

theorem isPrefix_text_iff (blocker : Blocker) :
    "predecessor:".toList.isPrefixOf blocker.text.toList = true ↔
      ∃ effectId, blocker = .predecessor effectId := by
  cases blocker <;> simp [Blocker.text, String.toList_append]

/-! ## Validated evaluations -/

theorem validateEvaluationStructure_eq_ok_iff (digest : EffectRequest → String)
    (document : Evaluation) :
    validateEvaluationStructure digest document = .ok () ↔
      EvaluationAdmitted document.request document.results document.support
        document.realizations ∧
      document.composition.contributingResultIds = contributingResultIds document.results ∧
      canonicalBlockers (standingBlockers digest document.request document.results
        document.support document.composition.incumbentGateDisposition) =
          document.composition.blockers ∧
      document.composition.disposition = compositionDisposition document.request
        document.results document.support
        (standingBlockers digest document.request document.results document.support
          document.composition.incumbentGateDisposition)
        document.composition.incumbentGateDisposition := by
  rw [validateEvaluationStructure, bind_eq_ok_iff]
  simp only [seq_eq_ok_iff, evaluationBlockers_eq_ok_iff, refuseIf_eq_ok_iff, not_not,
    ne_eq]
  constructor
  · rintro ⟨_, ⟨hadmitted, rfl⟩, hrest⟩
    exact ⟨hadmitted, hrest⟩
  · rintro ⟨hadmitted, hrest⟩
    exact ⟨_, ⟨hadmitted, rfl⟩, hrest⟩

/-- The structure check accepts the compositions that the derivation returns and no other,
among those whose references are within their bounds. -/
theorem evaluation_valid_iff_derived (digest : EffectRequest → String) (document : Evaluation) :
    deriveControlComposition digest document.request document.results document.support
        document.realizations document.composition.incumbentGateDisposition
        document.composition.incumbentGateEvidence = .ok document.composition ↔
      validateEvaluationStructure digest document = .ok () ∧
        requireControlRefs document.composition.blockers = .ok () ∧
        requireControlRefs document.composition.contributingResultIds = .ok () := by
  rw [deriveControlComposition_eq_ok_iff, validateEvaluationStructure_eq_ok_iff]
  constructor
  · rintro ⟨hadmitted, hblockers, hresults, hcomposition⟩
    rw [← hcomposition]
    exact ⟨⟨hadmitted, rfl, rfl, rfl⟩, hblockers, hresults⟩
  · rintro ⟨⟨hadmitted, hcontributing, hstanding, hdisposition⟩, hblockers, hresults⟩
    rw [hstanding, ← hcontributing, ← hdisposition]
    exact ⟨hadmitted, hblockers, hresults, rfl⟩

def Evaluation.standing (digest : EffectRequest → String) (document : Evaluation) :
    Finset Blocker :=
  standingBlockers digest document.request document.results document.support
    document.composition.incumbentGateDisposition

def Evaluation.admitted (document : Evaluation) : List EffectRequest :=
  admittedEffectRequests document.composition document.results

theorem mem_admitted_iff (document : Evaluation) (effect : EffectRequest) :
    effect ∈ document.admitted ↔ effect ∈ requestedEffects document.results ∧
      admittedEffectPhase document.composition = some effect.phase := by
  unfold Evaluation.admitted admittedEffectRequests
  cases hphase : admittedEffectPhase document.composition with
  | none => simp
  | some phase =>
    simp only [List.mem_filter, decide_eq_true_eq, requestedEffects, List.mem_dedup,
      Option.some.injEq]
    rw [eq_comm]

/-! ## Conflicts -/

/-- Neither two effects nor an effect and a retained claim disagree. -/
structure Compatible (digest : EffectRequest → String) (context : ControlContext)
    (effects : List EffectRequest) : Prop where
  identities : ∀ left ∈ effects, ∀ right ∈ effects, left ≠ right →
    left.effectId ≠ right.effectId ∧ left.key ≠ right.key
  claims : ∀ effect ∈ effects, claimConflicts digest context effect = false
  pairs : ∀ left ∈ effects, ∀ right ∈ effects, left ≠ right →
    effectPairConflicts left right (ancestorsOf (effectGraph effects)) context = false

theorem compatible_of_not_effectsConflict {digest : EffectRequest → String}
    {context : ControlContext} {effects : List EffectRequest}
    (h : ¬ effectsConflict digest context effects (ancestorsOf (effectGraph effects))) :
    Compatible digest context effects := by
  simp only [effectsConflict, not_or, not_exists, not_and, not_not, Bool.not_eq_true] at h
  obtain ⟨hvariants, hclaims, hpairs⟩ := h
  refine ⟨?_, hclaims, ?_⟩
  · intro left hleft right hright hne
    have hvariant := hvariants left hleft right hright
    simp only [variantConflicts, Bool.and_eq_false_iff, bne_eq_false_iff_eq, Bool.or_eq_false_iff,
      beq_eq_false_iff_ne] at hvariant
    exact hvariant.resolve_left hne
  · intro left hleft right hright hne
    have hsymm : Std.Symm fun left right : EffectRequest =>
        effectPairConflicts left right (ancestorsOf (effectGraph effects)) context = false :=
      ⟨fun left right hfalse => by rwa [effectPairConflicts_symm]⟩
    exact hpairs.forall hleft hright hne

section Bounds

variable (context : ControlContext)

def freshEffects (effects : List EffectRequest) : List EffectRequest :=
  effects.filter fun effect => effect.key ∉ context.priorEffectClaims.map PriorEffectClaim.key

variable (effects : List EffectRequest)

theorem newEffectKeys_nodup : (newEffectKeys context effects).Nodup :=
  (List.nodup_dedup _).filter _

theorem newEffectKeys_length_le {larger smaller : List EffectRequest} (h : smaller ⊆ larger) :
    (newEffectKeys context smaller).length ≤ (newEffectKeys context larger).length := by
  apply (List.subperm_of_subset (newEffectKeys_nodup context smaller) ?_).length_le
  intro key hkey
  simp only [newEffectKeys, List.mem_filter, List.mem_dedup, List.mem_map] at hkey ⊢
  obtain ⟨⟨effect, heffect, rfl⟩, hfresh⟩ := hkey
  exact ⟨⟨effect, h heffect, rfl⟩, hfresh⟩

theorem mem_firingEpochs_iff (rule : String × String) (epoch : String) :
    epoch ∈ firingEpochs context effects rule ↔
      (∃ firings ∈ context.ruleFirings, firings.rule = rule ∧ epoch ∈ firings.firingEpochs) ∨
      ∃ effect ∈ effects, effect.key.rule = rule ∧ effect.key.firingEpoch = epoch := by
  simp only [firingEpochs, List.mem_dedup, List.mem_append, List.mem_flatMap, List.mem_filter,
    List.mem_map, beq_iff_eq, and_assoc]

theorem firingEpochs_length_le {larger smaller : List EffectRequest} (rule : String × String)
    (h : ∀ epoch ∈ firingEpochs context smaller rule, epoch ∈ firingEpochs context larger rule) :
    (firingEpochs context smaller rule).length ≤ (firingEpochs context larger rule).length :=
  (List.subperm_of_subset (List.nodup_dedup _) h).length_le

theorem newEffectKeys_freshEffects : (newEffectKeys context (freshEffects context effects)).length =
      (newEffectKeys context effects).length := by
  apply le_antisymm
  · exact newEffectKeys_length_le context (List.filter_subset_self _)
  · apply (List.subperm_of_subset (newEffectKeys_nodup context effects) ?_).length_le
    intro key hkey
    simp only [newEffectKeys, List.mem_filter, List.mem_dedup, List.mem_map, freshEffects,
      decide_eq_true_eq] at hkey ⊢
    obtain ⟨⟨effect, heffect, rfl⟩, hfresh⟩ := hkey
    exact ⟨⟨effect, ⟨heffect, hfresh⟩, rfl⟩, hfresh⟩

theorem firingEpochs_freshEffects (rule : String × String) :
    (firingEpochs context (freshEffects context effects) rule).length =
      (firingEpochs context effects rule).length := by
  apply le_antisymm
  · apply firingEpochs_length_le
    intro epoch hepoch
    rw [mem_firingEpochs_iff] at hepoch ⊢
    refine hepoch.imp_right ?_
    rintro ⟨effect, heffect, hrest⟩
    exact ⟨effect, (List.mem_filter.mp heffect).1, hrest⟩
  · apply firingEpochs_length_le
    intro epoch hepoch
    rw [mem_firingEpochs_iff] at hepoch ⊢
    rcases hepoch with hretained | ⟨effect, heffect, hrule, hfiring⟩
    · exact Or.inl hretained
    · by_cases hclaimed : effect.key ∈ context.priorEffectClaims.map PriorEffectClaim.key
      · -- The epoch of a retained claim is retained with its rule.
        obtain ⟨claim, hclaim, hkey⟩ := List.mem_map.mp hclaimed
        obtain ⟨firings, hfirings, hfired, hepoch⟩ := context.claimsFired claim hclaim
        rw [hkey] at hfired hepoch
        exact Or.inl ⟨firings, hfirings, hfired.trans hrule, hfiring ▸ hepoch⟩
      · exact Or.inr ⟨effect, List.mem_filter.mpr ⟨heffect, by simpa using hclaimed⟩, hrule,
          hfiring⟩

end Bounds

/-! ## Admission -/

structure Eligible (digest : EffectRequest → String) (document : Evaluation) : Prop where
  slots : ∀ slot ∈ document.request.selection.slots, slot.role = .mandatory →
    ∀ slotId, Relation.ReflTransGen (DependsOn document.request.selection) slot.slotId slotId →
      ∃ result ∈ document.results, result.slotId = slotId ∧ resultSatisfied result = true
  support : ∀ binding ∈ document.request.selection.bindings, ∃ item ∈ document.support,
    item.instanceId = binding.instanceId ∧ item.status = .resolved ∧ item.effectiveLevel = .exact
  compatible : Compatible digest document.request.context (requestedEffects document.results)
  gate : document.composition.incumbentGateDisposition = .permit

variable {document : Evaluation}

theorem eligible_of_standing_eq_empty {digest : EffectRequest → String}
    (hadmitted : EvaluationAdmitted document.request document.results document.support
      document.realizations) (hempty : document.standing digest = ∅) :
    Eligible digest document := by
  simp only [Evaluation.standing, standingBlockers, Finset.union_eq_empty,
    List.toFinset_eq_empty_iff] at hempty
  obtain ⟨⟨⟨hmandatory, hweak⟩, heffects⟩, hgate⟩ := hempty
  refine ⟨?_, ?_, ?_, ?_⟩
  · intro slot hslot hrole slotId hreaches
    have hsatisfied := mandatory_closure_satisfied _ _ hmandatory hslot hrole hreaches
    cases hfound : resultFor document.results slotId with
    | none => simp [hfound] at hsatisfied
    | some result =>
      rw [hfound, Option.any_some] at hsatisfied
      have hresult : result ∈ document.results ∧ result.slotId = slotId :=
        (find?_key_eq_some_iff hadmitted.resultsAdmitted.slotsUnique slotId result).mp hfound
      exact ⟨result, hresult.1, hresult.2, hsatisfied⟩
  · intro binding hbinding
    obtain ⟨item, hitem, hinstance⟩ := List.mem_map.mp
      (hadmitted.supportAdmitted.covered (List.mem_map_of_mem hbinding))
    rw [weakSupport, List.map_eq_nil_iff, List.filter_eq_nil_iff] at hweak
    have hstrong := hweak item hitem
    simp only [ne_eq, decide_eq_true_eq, not_or, not_not] at hstrong
    exact ⟨item, hitem, hinstance, hstrong.1, hstrong.2⟩
  · apply compatible_of_not_effectsConflict
    intro hconflict
    rw [effectBlockers, if_pos hconflict] at heffects
    simp at heffects
  · by_contra hblocked
    rw [gateBlockers, if_pos hblocked] at hgate
    exact absurd hgate (Finset.singleton_ne_empty _)

/-- Effects are admitted when nothing stands in the way, or when only required
predecessors do, and then those predecessors alone. -/
theorem admitted_cases {digest : EffectRequest → String} (hblockers : canonicalBlockers
    (document.standing digest) = document.composition.blockers)
    {effect : EffectRequest} (heffect : effect ∈ document.admitted) :
    (document.standing digest = ∅ ∧ effect.phase = .subsequent) ∨
      ((∀ blocker ∈ document.standing digest, ∃ effectId, blocker = .predecessor effectId) ∧
        effect.phase = .requiredPredecessor) := by
  have hphase := ((mem_admitted_iff document effect).mp heffect).2
  rw [admittedEffectPhase, ← hblockers] at hphase
  by_cases hempty : canonicalBlockers (document.standing digest) = []
  · rw [if_pos hempty, Option.some.injEq] at hphase
    exact Or.inl ⟨canonicalBlockers_eq_nil_iff.mp hempty, hphase.symm⟩
  · rw [if_neg hempty] at hphase
    by_cases hpredecessors : ∀ text ∈ canonicalBlockers (document.standing digest),
        "predecessor:".toList.isPrefixOf text.toList = true
    · rw [if_pos hpredecessors, Option.some.injEq] at hphase
      refine Or.inr ⟨?_, hphase.symm⟩
      intro blocker hblocker
      exact (isPrefix_text_iff blocker).mp
        (hpredecessors _ (mem_canonicalBlockers_iff.mpr ⟨blocker, hblocker, rfl⟩))
    · rw [if_neg hpredecessors] at hphase
      cases hphase

/-- The newly admitted claims keep every bound, and a replay uses none. -/
structure WithinBounds (context : ControlContext) (bounds : CausalBounds)
    (admitted : List EffectRequest) : Prop where
  fanout : (newEffectKeys context admitted).length ≤ bounds.maxFanout
  budget : (newEffectKeys context admitted).length + context.effectsConsumed ≤ bounds.maxEffects
  depth : newEffectKeys context admitted ≠ [] → context.depth < bounds.maxDepth
  firings : ∀ rule, (∃ effect ∈ admitted, effect.key.rule = rule) →
    (firingEpochs context admitted rule).length ≤ bounds.maxFiringsPerRule
  replayedKeys : (newEffectKeys context (freshEffects context admitted)).length =
    (newEffectKeys context admitted).length
  replayedFirings : ∀ rule, (firingEpochs context (freshEffects context admitted) rule).length =
    (firingEpochs context admitted rule).length

theorem withinBounds_of_admitted (hadmitted : EffectsAdmitted document.request
    (requestedEffects document.results)
      document.realizations) :
    WithinBounds document.request.context document.request.selection.bounds
      document.admitted := by
  have hsub : document.admitted ⊆ requestedEffects document.results :=
    fun effect heffect => ((mem_admitted_iff document effect).mp heffect).1
  have hlength := newEffectKeys_length_le document.request.context hsub
  refine ⟨hlength.trans hadmitted.fanout, ?_, ?_, ?_, newEffectKeys_freshEffects _ _,
    firingEpochs_freshEffects _ _⟩
  · exact (Nat.add_le_add_right hlength _).trans hadmitted.budget
  · intro hnew
    apply hadmitted.depth
    intro hnone
    rw [hnone] at hlength
    exact hnew (List.length_eq_zero_iff.mp (Nat.le_zero.mp hlength))
  · rintro rule ⟨effect, heffect, rfl⟩
    have hfired : effect.key.rule ∈
        firedRules document.request.context (requestedEffects document.results) :=
      List.mem_append_right _ (List.mem_map.mpr ⟨effect, hsub heffect, rfl⟩)
    refine (firingEpochs_length_le _ _ ?_).trans (hadmitted.firings _ hfired)
    intro epoch hepoch
    rw [mem_firingEpochs_iff] at hepoch ⊢
    refine hepoch.imp_right ?_
    rintro ⟨other, hother, hrest⟩
    exact ⟨other, hsub hother, hrest⟩

/-- Admission is fail-closed: for every validated evaluation. -/
theorem admission_fail_closed (digest : EffectRequest → String) (document : Evaluation)
    (hvalid : validateEvaluationStructure digest document = .ok ()) :
    (document.composition.disposition = .eligible → Eligible digest document) ∧
    (∀ effect ∈ document.admitted,
      (document.standing digest = ∅ ∧ effect.phase = .subsequent) ∨
      ((∀ blocker ∈ document.standing digest, ∃ effectId, blocker = .predecessor effectId) ∧
        effect.phase = .requiredPredecessor)) ∧
    WithinBounds document.request.context document.request.selection.bounds
      document.admitted := by
  obtain ⟨hadmitted, -, hblockers, hdisposition⟩ :=
    (validateEvaluationStructure_eq_ok_iff digest document).mp hvalid
  refine ⟨?_, fun effect heffect => admitted_cases hblockers heffect,
    withinBounds_of_admitted hadmitted.effectsAdmitted⟩
  intro heligible
  rw [hdisposition, compositionDisposition_eq_eligible_iff] at heligible
  exact eligible_of_standing_eq_empty hadmitted heligible

def sampleEvaluation : Evaluation where
  request := sampleRequest
  results := [firstResult, secondResult]
  support := sampleSupport
  composition := ⟨.eligible, [], ["result-first", "result-second"], .permit, sampleGate⟩
  realizations := sampleRealizations

theorem admission_fail_closed_sample :
    sampleEvaluation.composition.disposition = .eligible ∧
      Eligible EffectRequest.effectId sampleEvaluation ∧
      WithinBounds sampleContext sampleSelection.bounds sampleEvaluation.admitted := by
  have hclosed := admission_fail_closed EffectRequest.effectId sampleEvaluation
    (by decide +kernel)
  exact ⟨rfl, hclosed.1 rfl, hclosed.2.2⟩

end Raes.Control
