import Mathlib.Algebra.BigOperators.Group.List.Basic
import Mathlib.Data.String.Basic
import Raes.Lib.SortBy
import Raes.Trial.Policies

/-!
# Factorial designs

The crossed dimensions of an experiment and the bounds that are checked before any
condition is generated (`experiment_factorial.py` of the contracts).  The two profiles
share the dimensions; a level of `factorial-bindings-v1` holds binding templates, one of
`factorial-treatments-v1` holds bindings and selections.
-/

namespace Raes.Factorial

open PyError
open Trial (SelectionOutcome SelectionPurpose)

/-- `ScenarioBindingTargetModel` -/
structure ScenarioTarget where
  (scenarioFamilyId variationPointId targetId : String)
  deriving DecidableEq

def ScenarioTarget.canonicalKey (target : ScenarioTarget) : List String :=
  ["scenario", target.scenarioFamilyId, target.variationPointId, target.targetId]

inductive BindingTarget where
  | scenario (target : ScenarioTarget)
  | participantImplementation (participantAddress implementationName implementationVersion
      manifestVersion targetId : String)
  deriving DecidableEq

namespace BindingTarget

def canonicalKey : BindingTarget → List String
  | scenario target => target.canonicalKey
  | participantImplementation address name version manifest target =>
    ["participant-implementation", address, name, version, manifest, target]

def scenarioTarget? : BindingTarget → Option ScenarioTarget
  | scenario target => some target
  | participantImplementation .. => none

end BindingTarget

/-- A binding template; `content` is its type, value and owner. -/
structure FactorLevelBinding where
  target : BindingTarget
  content : Json
  deriving DecidableEq

/-- A selection template; `content` is its family digest and owner. -/
structure FactorLevelSelection where
  target : ScenarioTarget
  outcome : SelectionOutcome
  content : Json
  deriving DecidableEq

structure FactorLevelEffects where
  bindings : List FactorLevelBinding
  selections : List FactorLevelSelection
  deriving DecidableEq

/-- A design of either profile, with the effects of its levels.  Its validator has sorted
the factor ids. -/
structure FactorialDesign (α : Type) where
  factorIds : List String
  levels : Dict String (Dict String α)
  targetRunsPerCondition : {n : ℕ // 1 ≤ n ∧ n ≤ 999999}
  conditionBound : {n : ℕ // 1 ≤ n ∧ n ≤ 10000}
  factorIds_sorted : factorIds.Pairwise (· < ·)
  mem_factorIds_iff : ∀ id, id ∈ factorIds ↔ id ∈ levels.keys

abbrev BindingDesign := FactorialDesign (List FactorLevelBinding)

abbrev TreatmentDesign := FactorialDesign FactorLevelEffects

section Design

variable {α : Type}

theorem pairwise_lt_sortBy_id {l : List String} (h : l.Nodup) :
    (sortBy id l).Pairwise (· < ·) :=
  ((sortBy_pairwise id l).and ((sortBy_perm id l).nodup_iff.mpr h)).imp
    fun h => lt_of_le_of_ne h.1 h.2

/-- `_validate_dimensions` of either design; `name` is its field of levels. -/
def FactorialDesign.validateDimensions (name : String) (factorIds : List String)
    (levels : Dict String (Dict String α)) (runs : {n : ℕ // 1 ≤ n ∧ n ≤ 999999})
    (bound : {n : ℕ // 1 ≤ n ∧ n ≤ 10000}) : Except PyError (FactorialDesign α) :=
  if h : factorIds.Nodup ∧ (∀ id ∈ factorIds, id ∈ levels.keys) ∧
      ∀ id ∈ levels.keys, id ∈ factorIds then
    .ok
      { factorIds := sortBy id factorIds
        levels
        targetRunsPerCondition := runs
        conditionBound := bound
        factorIds_sorted := pairwise_lt_sortBy_id h.1
        mem_factorIds_iff := fun id => by
          rw [(sortBy_perm _ factorIds).mem_iff]
          exact ⟨h.2.1 id, h.2.2 id⟩ }
  else .error (valueError s!"factorial factor ids must be unique and match {name}")

def FactorialDesign.effects? (design : FactorialDesign α) (factorId levelId : String) : Option α :=
  (design.levels.get? factorId).bind (·.get? levelId)

/-- `ExperimentStudyFactorModel`, as far as a design reads it -/
structure StudyFactor where
  levels : List String
  deriving DecidableEq

variable (design : FactorialDesign α) (factors : Dict String StudyFactor)

def dimensionLevels (factorId : String) : Except PyError (List String) := do
  let declared := ((factors.get? factorId).map StudyFactor.levels).getD []
  refuseIf (declared = [] ∨ ¬ declared.Nodup)
    (valueError "factorial dimensions require declared nonempty unique factor levels")
  match design.levels.get? factorId with
  | none => throw (keyError factorId)
  | some levels =>
    refuseIf (¬ ((∀ level ∈ levels.keys, level ∈ declared) ∧
        ∀ level ∈ declared, level ∈ levels.keys))
      (valueError "factorial level bindings must cover exactly the declared levels")
    return declared

def conditionBoundExceeded : PyError :=
  valueError "factorial condition bound exceeded before expansion"

/-- The body of the loop of `_factorial_condition_count` -/
def countDimension (count : ℕ) (factorId : String) : Except PyError ℕ := do
  let levels ← dimensionLevels design factors factorId
  refuseIf (levels.length > design.conditionBound.val / count) conditionBoundExceeded
  return count * levels.length

def factorialConditionCount : Except PyError ℕ :=
  design.factorIds.foldlM (countDimension design factors) 1

def levelsOf (factorId : String) : List String :=
  ((factors.get? factorId).map StudyFactor.levels).getD []

/-- A dimension that can be crossed: its declared levels are not empty nor repeated, and
the design has the effects of each of them and of no other. -/
structure Crossable (factorId : String) : Prop where
  nonempty : levelsOf factors factorId ≠ []
  nodup : (levelsOf factors factorId).Nodup
  covered : ∀ level, level ∈ levelsOf factors factorId ↔
    ∃ effects, design.effects? factorId level = some effects

def combinationCount (factorIds : List String) : ℕ :=
  (factorIds.map fun factorId => (levelsOf factors factorId).length).prod

variable {design factors} {factorId : String}

theorem dimensionLevels_eq_ok_iff (hfactor : factorId ∈ design.factorIds) (levels : List String) :
    dimensionLevels design factors factorId = .ok levels ↔
      Crossable design factors factorId ∧ levels = levelsOf factors factorId := by
  obtain ⟨found, hfound⟩ := Dict.mem_keys_iff.mp ((design.mem_factorIds_iff factorId).mp hfactor)
  have heffects (level : String) : (∃ effects, design.effects? factorId level = some effects) ↔
      level ∈ found.keys := by
    rw [FactorialDesign.effects?, hfound, Option.bind_some, Dict.mem_keys_iff]
  unfold dimensionLevels
  rw [seq_eq_ok_iff, refuseIf_eq_ok_iff, hfound]
  dsimp only
  rw [seq_eq_ok_iff, refuseIf_eq_ok_iff]
  simp only [not_not, not_or]
  constructor
  · intro h
    obtain ⟨⟨hnonempty, hnodup⟩, ⟨hdeclared, hcovered⟩, hlevels⟩ := h
    refine ⟨⟨hnonempty, hnodup, fun level => ?_⟩, (Except.ok.inj hlevels).symm⟩
    rw [heffects]
    exact ⟨hcovered level, hdeclared level⟩
  · intro h
    obtain ⟨hcrossable, rfl⟩ := h
    refine ⟨⟨hcrossable.nonempty, hcrossable.nodup⟩, ⟨fun level hlevel => ?_, fun level hlevel => ?_⟩, rfl⟩
    · exact (hcrossable.covered level).mpr ((heffects level).mpr hlevel)
    · exact (heffects level).mp ((hcrossable.covered level).mp hlevel)

theorem Crossable.length_pos (h : Crossable design factors factorId) :
    1 ≤ (levelsOf factors factorId).length :=
  List.length_pos_iff.mpr h.nonempty

variable {factorIds : List String}

theorem combinationCount_pos (h : ∀ factorId ∈ factorIds, Crossable design factors factorId) :
    1 ≤ combinationCount factors factorIds := by
  induction factorIds with
  | nil => exact Nat.le_refl 1
  | cons factorId rest ih =>
    rw [List.forall_mem_cons] at h
    rw [combinationCount, List.map_cons, List.prod_cons]
    exact Nat.mul_pos h.1.length_pos (ih h.2)

theorem bound_div_lt_iff {length bound count : ℕ} (h : 1 ≤ count) :
    length > bound / count ↔ bound < count * length := by
  rw [gt_iff_lt, Nat.div_lt_iff_lt_mul h, Nat.mul_comm]

variable {count : ℕ}

theorem countDimension_eq_ok_iff (hfactor : factorId ∈ design.factorIds) (hcount : 1 ≤ count)
    (total : ℕ) : countDimension design factors count factorId = .ok total ↔
      Crossable design factors factorId ∧
        total = count * (levelsOf factors factorId).length ∧ total ≤ design.conditionBound.val := by
  unfold countDimension
  rw [bind_eq_ok_iff]
  constructor
  · intro h
    obtain ⟨levels, hlevels, hrest⟩ := h
    obtain ⟨hcrossable, rfl⟩ := (dimensionLevels_eq_ok_iff hfactor levels).mp hlevels
    rw [seq_eq_ok_iff, refuseIf_eq_ok_iff, bound_div_lt_iff hcount, Nat.not_lt] at hrest
    obtain ⟨hbound, htotal⟩ := hrest
    have htotal := (Except.ok.inj htotal).symm
    exact ⟨hcrossable, htotal, htotal ▸ hbound⟩
  · intro h
    obtain ⟨hcrossable, rfl, hbound⟩ := h
    refine ⟨_, (dimensionLevels_eq_ok_iff hfactor _).mpr ⟨hcrossable, rfl⟩, ?_⟩
    rw [seq_eq_ok_iff, refuseIf_eq_ok_iff, bound_div_lt_iff hcount, Nat.not_lt]
    exact ⟨hbound, rfl⟩

theorem countDimension_exceeds (hfactor : factorId ∈ design.factorIds)
    (hcrossable : Crossable design factors factorId) (hcount : 1 ≤ count)
    (h : design.conditionBound.val < count * (levelsOf factors factorId).length) :
    countDimension design factors count factorId = .error conditionBoundExceeded := by
  have hlevels := (dimensionLevels_eq_ok_iff hfactor _).mpr ⟨hcrossable, rfl⟩
  unfold countDimension
  rw [hlevels]
  show (refuseIf _ _ >>= fun _ => _) = _
  rw [refuseIf, if_pos ((bound_div_lt_iff hcount).mpr h)]
  rfl

/-- The count goes on from a product with that of the factors that are left, where they
can be crossed within the bound. -/
theorem countDimensions_eq_ok_iff (hfactors : ∀ factorId ∈ factorIds, factorId ∈ design.factorIds)
    (hcount : 1 ≤ count) (hbound : count ≤ design.conditionBound.val) (total : ℕ) :
    factorIds.foldlM (countDimension design factors) count = .ok total ↔
      (∀ factorId ∈ factorIds, Crossable design factors factorId) ∧
        total = count * combinationCount factors factorIds ∧ total ≤ design.conditionBound.val := by
  induction factorIds generalizing count with
  | nil =>
    rw [List.foldlM_nil]
    constructor
    · intro h
      have htotal : count = total := Except.ok.inj h
      rw [← htotal]
      exact ⟨fun _ hmem => (nomatch hmem), (Nat.mul_one count).symm, hbound⟩
    · intro h
      obtain ⟨-, rfl, -⟩ := h
      exact congrArg Except.ok (Nat.mul_one count).symm
  | cons factorId rest ih =>
    rw [List.forall_mem_cons] at hfactors
    rw [List.foldlM_cons, bind_eq_ok_iff, List.forall_mem_cons, combinationCount,
      List.map_cons, List.prod_cons, ← Nat.mul_assoc]
    constructor
    · intro h
      obtain ⟨next, hnext, hrest⟩ := h
      obtain ⟨hcrossable, rfl, hle⟩ := (countDimension_eq_ok_iff hfactors.1 hcount next).mp hnext
      have hpos := Nat.mul_pos hcount hcrossable.length_pos
      obtain ⟨hcrossables, htotal⟩ := (ih hfactors.2 hpos hle).mp hrest
      exact ⟨⟨hcrossable, hcrossables⟩, htotal⟩
    · intro h
      obtain ⟨⟨hcrossable, hcrossables⟩, htotal, hle⟩ := h
      have hpos := Nat.mul_pos hcount hcrossable.length_pos
      -- the product so far is within the bound, because the rest of it is not zero
      have hprefix : count * (levelsOf factors factorId).length ≤ design.conditionBound.val := by
        rw [htotal] at hle
        exact Nat.le_trans (Nat.le_mul_of_pos_right _ (combinationCount_pos hcrossables)) hle
      exact ⟨_, (countDimension_eq_ok_iff hfactors.1 hcount _).mpr ⟨hcrossable, rfl, hprefix⟩,
        (ih hfactors.2 hpos hprefix).mpr ⟨hcrossables, htotal, hle⟩⟩

theorem countDimensions_exceeds (hfactors : ∀ factorId ∈ factorIds, factorId ∈ design.factorIds)
    (hcrossable : ∀ factorId ∈ factorIds, Crossable design factors factorId) (hcount : 1 ≤ count)
    (hbound : count ≤ design.conditionBound.val)
    (h : design.conditionBound.val < count * combinationCount factors factorIds) :
    factorIds.foldlM (countDimension design factors) count = .error conditionBoundExceeded := by
  induction factorIds generalizing count with
  | nil =>
    rw [combinationCount, List.map_nil, List.prod_nil, Nat.mul_one] at h
    omega
  | cons factorId rest ih =>
    rw [List.forall_mem_cons] at hfactors hcrossable
    rw [combinationCount, List.map_cons, List.prod_cons, ← Nat.mul_assoc] at h
    rw [List.foldlM_cons]
    by_cases hnext : count * (levelsOf factors factorId).length ≤ design.conditionBound.val
    · rw [(countDimension_eq_ok_iff hfactors.1 hcount _).mpr ⟨hcrossable.1, rfl, hnext⟩]
      exact ih hfactors.2 hcrossable.2 (Nat.mul_pos hcount hcrossable.1.length_pos) hnext h
    · rw [countDimension_exceeds hfactors.1 hcrossable.1 hcount (Nat.lt_of_not_le hnext)]
      rfl

/-- The number of conditions is counted where every dimension can be crossed and the
product of their levels is within the bound. -/
theorem factorialConditionCount_eq_ok_iff : factorialConditionCount design factors = .ok count ↔
      (∀ factorId ∈ design.factorIds, Crossable design factors factorId) ∧
        count = combinationCount factors design.factorIds ∧ count ≤ design.conditionBound.val := by
  rw [factorialConditionCount, countDimensions_eq_ok_iff (fun _ h => h) (Nat.le_refl 1)
    design.conditionBound.property.1, Nat.one_mul]

theorem factorialConditionCount_exceeds
    (hcrossable : ∀ factorId ∈ design.factorIds, Crossable design factors factorId)
    (h : design.conditionBound.val < combinationCount factors design.factorIds) :
    factorialConditionCount design factors = .error conditionBoundExceeded :=
  countDimensions_exceeds (fun _ h => h) hcrossable (Nat.le_refl 1)
    design.conditionBound.property.1 (by rwa [Nat.one_mul])

end Design

/-- `max` of the numbers of a factor -/
def greatest (numbers : List ℕ) : ℕ := numbers.foldl max 0

def coordinateBoundExceeded : PyError :=
  valueError "factorial coordinate bound exceeded before expansion"

def bindingsPerCondition (design : BindingDesign) : ℕ :=
  (design.factorIds.map fun factorId =>
    greatest (((design.levels.get? factorId).map Dict.values).getD [] |>.map List.length)).sum

def validateFactorialBounds (design : BindingDesign) (factors : Dict String StudyFactor) :
    Except PyError Unit := do
  let count ← factorialConditionCount design factors
  refuseIf (count * design.targetRunsPerCondition.val > 10000) coordinateBoundExceeded
  refuseIf (count * bindingsPerCondition design > 10000)
    (valueError "factorial binding work bound exceeded before expansion")

/-- `ExperimentFixedSelectionPolicyModel`, as far as a design reads it -/
structure FixedPolicy where
  purpose : SelectionPurpose
  pointRef : String
  outcome : SelectionOutcome
  bindingDescriptorRefs : List String
  deriving DecidableEq

def outcomeCost : SelectionOutcome → ℕ
  | .subset memberIds | .order memberIds => 1 + memberIds.length
  | .literal _ | .reference _ | .member _ => 1

def maxSelectionPolicies : ℕ := 128

def fixedPolicies (policies : Dict String FixedPolicy) : Except PyError (List FixedPolicy) := do
  refuseIf (policies.entries.length > maxSelectionPolicies)
    (valueError "factorial fixed policies must be a bounded mapping")
  let fixed := policies.values
  refuseIf (∃ policy ∈ fixed, policy.purpose ≠ .fixedConfiguration ∨
      policy.bindingDescriptorRefs ≠ [])
    (valueError "factorial policies must be fixed configuration without binding claims")
  refuseIf (¬ (fixed.map FixedPolicy.pointRef).Nodup)
    (valueError "factorial fixed policies must not repeat a point")
  return fixed

def FactorLevelEffects.work (effects : FactorLevelEffects) : ℕ :=
  effects.bindings.length + (effects.selections.map fun s => outcomeCost s.outcome).sum

def treatmentWork (design : TreatmentDesign) (fixed : List FixedPolicy) : ℕ :=
  (fixed.map fun policy => outcomeCost policy.outcome).sum +
    (design.factorIds.map fun factorId =>
      greatest (((design.levels.get? factorId).map Dict.values).getD [] |>.map
        FactorLevelEffects.work)).sum

def validateWork (design : TreatmentDesign) (count : ℕ) (fixed : List FixedPolicy) :
    Except PyError Unit := do
  let runs := count * design.targetRunsPerCondition.val
  refuseIf (runs > 10000) coordinateBoundExceeded
  refuseIf (runs * treatmentWork design fixed > 10000)
    (valueError "factorial combined effect work bound exceeded before expansion")

end Raes.Factorial
