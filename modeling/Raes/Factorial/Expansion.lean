import Raes.Factorial.Conditions
import Raes.Lib.CartesianProduct
import Raes.Lib.ExceptList
import Raes.Lib.Stateful

/-!
# The expansion of a factorial design

`generate_factorial_conditions`, `expand_factorial_input` and `expand_treatment_input`.
The number of conditions is bounded before the first of them is made, and an expansion
that answers has one condition for each combination of levels, in the order of their
product.
-/

namespace Raes.Factorial

open PyError Stateful

/-- The conditions made so far -/
structure Expansion where
  assignments : Dict String ConditionAssignment
  descriptors : List BindingDescriptor
  pointSets : List (List String)

def Expansion.empty : Expansion := ⟨.empty, [], []⟩

abbrev Expanding := Stateful PyError Expansion

/-- What an expansion gives its experiment -/
structure Materialization where
  allocation : RunAllocationPlan
  descriptors : Option (List BindingDescriptor)

section Expansion

variable {α : Type} (engine : FactorialEngine)

/-- `product(*(sorted(factors[f].levels) for f in design.factor_ids))`, each with the
factors that it has the levels of -/
def combinations (design : FactorialDesign α) (factors : Dict String StudyFactor) :
    List FactorLevels :=
  namedChoices (fun factorId => sortBy id (levelsOf factors factorId)) design.factorIds

/-- The body of the loop of an expansion; `build` makes the assignment of a condition, and
the points that it covers. -/
def expandCondition
    (build : FactorLevels → String → Except PyError (ConditionAssignment × List String))
    (factorLevels : FactorLevels) : Expanding Unit := do
  let id := conditionId engine factorLevels
  let expansion ← get
  liftM (refuseIf (expansion.assignments.contains id = true)
    (valueError "factorial condition identity collision"))
  let (assignment, points) ← liftM (build factorLevels id)
  set
    { assignments := expansion.assignments.set id assignment
      descriptors := expansion.descriptors ++ assignment.requiredBindings
      pointSets := expansion.pointSets ++ [points] : Expansion }

def expandConditions
    (build : FactorLevels → String → Except PyError (ConditionAssignment × List String))
    (design : FactorialDesign α) (factors : Dict String StudyFactor) : Expanding Unit :=
  forM (combinations design factors) (expandCondition engine build)

/-! ## Scalar bindings -/

variable (design : BindingDesign)

def bindingCondition (factorLevels : FactorLevels) (id : String) :
    Except PyError (ConditionAssignment × List String) := do
  let templates factorId levelId := (design.effects? factorId levelId).getD []
  let assignment : ConditionAssignment :=
    { conditionId := id
      factorLevels
      requiredBindings := conditionBindings engine templates factorLevels id
      requiredSelections := [] }
  assignment.validate
  return (assignment, [])

/-- The children of a scalar expansion -/
def materializeBindings (expansion : Expansion) : Except PyError Materialization := do
  let allocation := runAllocation "factorial-bindings-v1" design.targetRunsPerCondition.val
    expansion.assignments
  allocation.validate engine
  let descriptors := sortBy BindingDescriptor.bindingId expansion.descriptors
  validateDescriptors descriptors
  return ⟨allocation, some descriptors⟩

def generateFactorialConditions (factors : Dict String StudyFactor) :
    Expanding Materialization := do
  liftM (validateFactorialBounds design factors)
  expandConditions engine (bindingCondition engine design) design factors
  liftM (materializeBindings engine design (← get))

/-! ## Treatments -/

def treatmentCondition (design : TreatmentDesign) (fixed : List FixedPolicy)
    (factorLevels : FactorLevels) (condition : String) :
    Except PyError (ConditionAssignment × List String) := do
  let effects factorId levelId := design.effects? factorId levelId
  let bindings := conditionBindings engine
    (fun factorId levelId => ((effects factorId levelId).map FactorLevelEffects.bindings).getD [])
    factorLevels condition
  let selections := conditionSelections engine
    (fun factorId levelId => ((effects factorId levelId).map FactorLevelEffects.selections).getD [])
    factorLevels condition
  let points := selections.map (fun s => s.template.target.variationPointId) ++
    (bindings.filterMap fun b => b.template.target.scenarioTarget?.map
      ScenarioTarget.variationPointId) ++ fixed.map FixedPolicy.pointRef
  refuseIf (¬ points.Nodup)
    (valueError "factorial effects and fixed policies must not repeat a point")
  let assignment : ConditionAssignment :=
    { conditionId := condition
      factorLevels
      requiredBindings := bindings
      requiredSelections := selections }
  assignment.validate
  return (assignment, sortBy id points)

def conditionBytes (design : TreatmentDesign) : ℕ :=
  512 + (design.factorIds.map fun factorId =>
    greatest (((design.levels.get? factorId).map Dict.entries).getD [] |>.map fun level =>
      engine.effectsBytes level.2 + (level.2.bindings.length + level.2.selections.length) *
        (512 + engine.joinBytes factorId level.1))).sum

def maxExpandedTreatmentBytes : ℕ := 8 * 1024 * 1024

/-- What an expansion reads of its experiment beside the design -/
structure FactorialInput where
  factors : Dict String StudyFactor
  /-- `run_plan.target_run_count` -/
  targetRunCount : Option ℕ
  /-- `run_plan.selection_policies`, each a fixed policy -/
  selectionPolicies : Dict String FixedPolicy
  bindingSemantics : String
  /-- The length of the compact input in canonical JSON -/
  sourceBytes : Except PyError ℕ
  /-- The length of the expanded input in canonical JSON -/
  expandedBytes : Materialization → Except PyError ℕ
  /-- `_validate_supplied_materializations` -/
  validateSupplied : Materialization → Except PyError Unit

variable (input : FactorialInput) (design : TreatmentDesign)

def validateByteBound (count : ℕ) : Except PyError Unit := do
  let sourceBytes ← input.sourceBytes
  refuseIf (sourceBytes + 2 * count * conditionBytes engine design > maxExpandedTreatmentBytes)
    (valueError "expanded factorial treatment byte bound exceeded before expansion")

def validateTreatments (design : TreatmentDesign) : Except PyError (List FixedPolicy) := do
  let count ← factorialConditionCount design input.factors
  refuseIf (input.targetRunCount ≠ none)
    (valueError "factorial design cannot also declare target_run_count")
  let fixed ← fixedPolicies input.selectionPolicies
  validateWork design count fixed
  validateByteBound engine input design count
  return fixed

def materializeTreatments (expansion : Expansion) : Except PyError Materialization := do
  refuseIf (expansion.pointSets.dedup.length ≠ 1)
    (valueError "factorial conditions must cover the same scenario points")
  let allocation := runAllocation "factorial-treatments-v1" design.targetRunsPerCondition.val
    expansion.assignments
  allocation.validate engine
  let descriptors := sortBy BindingDescriptor.bindingId expansion.descriptors
  if expansion.descriptors = [] then return ⟨allocation, none⟩
  else do
    validateDescriptors descriptors
    return ⟨allocation, some descriptors⟩

def requireBindingSemantics : Except PyError Unit :=
  refuseIf (input.bindingSemantics ≠ "descriptive" ∧ input.bindingSemantics ≠ "explicit-required")
    (valueError "unsupported factorial binding semantics")

def completeTreatments (expansion : Expansion) : Except PyError Materialization := do
  let children ← materializeTreatments engine design expansion
  input.validateSupplied children
  requireBindingSemantics input
  let bytes ← input.expandedBytes children
  refuseIf (bytes > maxExpandedTreatmentBytes)
    (valueError "expanded factorial treatment byte bound exceeded")
  return children

def expandTreatmentInput (design : TreatmentDesign) : Expanding Materialization := do
  let fixed ← liftM (validateTreatments engine input design)
  expandConditions engine (treatmentCondition engine design fixed) design input.factors
  liftM (completeTreatments engine input design (← get))

/-- The checks of `expand_factorial_input` after the generation -/
def admitChildren (children : Materialization) : Except PyError Materialization := do
  refuseIf (input.targetRunCount ≠ none)
    (valueError "factorial design cannot also declare target_run_count")
  input.validateSupplied children
  requireBindingSemantics input
  return children

/-- `expand_factorial_input` of a design of scalar bindings -/
def expandFactorialInput (design : BindingDesign) : Expanding Materialization := do
  let children ← generateFactorialConditions engine design input.factors
  liftM (admitChildren input children)

end Expansion

section Loop

variable {α : Type} {engine : FactorialEngine}
  {build : FactorLevels → String → Except PyError (ConditionAssignment × List String)}

def Expansion.add (expansion : Expansion) (id : String)
    (condition : ConditionAssignment × List String) : Expansion where
  assignments := expansion.assignments.set id condition.1
  descriptors := expansion.descriptors ++ condition.1.requiredBindings
  pointSets := expansion.pointSets ++ [condition.2]

theorem expandCondition_ok_iff (factorLevels : FactorLevels) (s t : Expansion) :
    exec (expandCondition engine build factorLevels) s = (.ok (), t) ↔
      s.assignments.get? (conditionId engine factorLevels) = none ∧
        ∃ condition, build factorLevels (conditionId engine factorLevels) = .ok condition ∧
          t = s.add (conditionId engine factorLevels) condition := by
  unfold expandCondition
  rw [exec_get_bind, exec_check_bind_ok_iff, refuseIf_eq_ok_iff, exec_lift_bind_ok_iff]
  refine and_congr ?_ (exists_congr fun condition => and_congr_right fun _ => ?_)
  · rw [Dict.contains_iff, Dict.get?_eq_none_iff]
  · rw [exec_set]
    constructor
    · intro h
      cases h
      rfl
    · intro h
      rw [h]
      rfl

def Expansion.addAll (engine : FactorialEngine) (expansion : Expansion)
    (built : List (FactorLevels × ConditionAssignment × List String)) : Expansion :=
  built.foldl (fun expansion entry => expansion.add (conditionId engine entry.1) entry.2) expansion

/-- A loop answers where it can build every condition, and no two have one identity. -/
theorem expandAll_ok_iff (rows : List FactorLevels) (s t : Expansion) :
    exec (forM rows (expandCondition engine build)) s = (.ok (), t) ↔
      (s.assignments.keys ++ rows.map (conditionId engine)).Nodup ∧
        ∃ built, rows.mapM (fun row => build row (conditionId engine row)) = .ok built ∧
          t = s.addAll engine (rows.zip built) := by
  induction rows generalizing s with
  | nil =>
    rw [List.forM_nil, exec_pure_ok_iff, List.map_nil, List.append_nil, List.mapM_nil]
    constructor
    · intro h
      exact ⟨s.assignments.keys_nodup, [], rfl, h.2⟩
    · intro h
      obtain ⟨-, _, -, ht⟩ := h
      exact ⟨rfl, ht⟩
  | cons row rest ih =>
    have hkeys (condition : ConditionAssignment × List String)
        (hfresh : s.assignments.get? (conditionId engine row) = none) :
        (s.add (conditionId engine row) condition).assignments.keys =
          s.assignments.keys ++ [conditionId engine row] := by
      rw [Dict.keys, Expansion.add, Dict.entries_set_of_get?_none _ hfresh, List.map_append]
      rfl
    rw [List.forM_cons, exec_bind_ok_iff, List.mapM_cons, List.map_cons]
    constructor
    · intro h
      obtain ⟨⟨⟩, u, hrow, hrest⟩ := h
      obtain ⟨hfresh, condition, hcondition, rfl⟩ := (expandCondition_ok_iff row s u).mp hrow
      obtain ⟨hnodup, built, hbuilt, rfl⟩ := (ih _).mp hrest
      rw [hkeys condition hfresh, List.append_assoc] at hnodup
      refine ⟨hnodup, condition :: built, ?_, rfl⟩
      exact bind_eq_ok_iff.mpr
        ⟨condition, hcondition, bind_eq_ok_iff.mpr ⟨built, hbuilt, rfl⟩⟩
    · intro h
      obtain ⟨hnodup, built, hbuilt, rfl⟩ := h
      simp only [bind_eq_ok_iff] at hbuilt
      obtain ⟨condition, hcondition, conditions, hconditions, hbuilt⟩ := hbuilt
      cases hbuilt
      have hfresh : s.assignments.get? (conditionId engine row) = none := by
        rw [Dict.get?_eq_none_iff]
        exact fun hmem => List.disjoint_of_nodup_append hnodup hmem List.mem_cons_self
      refine ⟨(), s.add (conditionId engine row) condition,
        (expandCondition_ok_iff row s _).mpr ⟨hfresh, condition, hcondition, rfl⟩,
        (ih _).mpr ⟨?_, conditions, hconditions, rfl⟩⟩
      rw [hkeys condition hfresh, List.append_assoc]
      exact hnodup

theorem entries_addAll (engine : FactorialEngine)
    (built : List (FactorLevels × ConditionAssignment × List String)) (s : Expansion)
    (h : (s.assignments.keys ++ built.map fun entry => conditionId engine entry.1).Nodup) :
    (s.addAll engine built).assignments.entries = s.assignments.entries ++
      built.map fun entry => (conditionId engine entry.1, entry.2.1) := by
  induction built generalizing s with
  | nil => exact (List.append_nil _).symm
  | cons entry rest ih =>
    have hfresh : s.assignments.get? (conditionId engine entry.1) = none := by
      rw [Dict.get?_eq_none_iff]
      exact fun hmem => List.disjoint_of_nodup_append h hmem List.mem_cons_self
    have hentries := Dict.entries_set_of_get?_none entry.2.1 hfresh
    have hnodup : ((s.add (conditionId engine entry.1) entry.2).assignments.keys ++
        rest.map fun entry => conditionId engine entry.1).Nodup := by
      rw [Dict.keys, Expansion.add, hentries, List.map_append, List.append_assoc]
      exact h
    have hrest := ih _ hnodup
    rw [Expansion.add, hentries, List.append_assoc] at hrest
    exact hrest

end Loop

section Exact

variable {α : Type} (design : FactorialDesign α) (factors : Dict String StudyFactor)

def Crosses : Prop := ∀ factorId ∈ design.factorIds, Crossable design factors factorId

/-- The assignments have one condition for each combination of the declared levels of the
factors, in the order of the combinations. -/
structure ExactlyExpands (assignments : Dict String ConditionAssignment) : Prop where
  mem_iff : ∀ row : FactorLevels, row ∈ assignments.values.map ConditionAssignment.factorLevels ↔
    row.map Prod.fst = design.factorIds ∧ ∀ level ∈ row, level.2 ∈ levelsOf factors level.1
  nodup : (assignments.values.map ConditionAssignment.factorLevels).Nodup
  ordered : (assignments.values.map fun assignment => assignment.factorLevels.map Prod.snd).Pairwise
    (List.Lex (· < ·))
  count : assignments.values.length = combinationCount factors design.factorIds
  identified : ∀ entry ∈ assignments.entries, entry.2.conditionId = entry.1

variable {design factors}

theorem mem_combinations (row : FactorLevels) :
    row ∈ combinations design factors ↔
      row.map Prod.fst = design.factorIds ∧ ∀ level ∈ row, level.2 ∈ levelsOf factors level.1 := by
  rw [combinations, mem_namedChoices]
  simp only [(sortBy_perm id _).mem_iff]

theorem nodup_combinations (h : Crosses design factors) : (combinations design factors).Nodup :=
  nodup_namedChoices _ _ fun factorId hfactor =>
    (sortBy_perm id _).nodup_iff.mpr (h factorId hfactor).nodup

theorem length_combinations :
    (combinations design factors).length = combinationCount factors design.factorIds := by
  rw [combinations, length_namedChoices, combinationCount]
  simp only [(sortBy_perm id _).length_eq]

theorem ordered_combinations (h : Crosses design factors) :
    ((combinations design factors).map fun row => row.map Prod.snd).Pairwise
      (List.Lex (· < ·)) :=
  pairwise_lex_namedChoices _ _ fun factorId hfactor =>
    pairwise_lt_sortBy_id (h factorId hfactor).nodup

theorem exactlyExpands_of_levels (h : Crosses design factors)
    {assignments : Dict String ConditionAssignment}
    (hlevels : assignments.values.map ConditionAssignment.factorLevels = combinations design factors)
    (hidentified : ∀ entry ∈ assignments.entries, entry.2.conditionId = entry.1) :
    ExactlyExpands design factors assignments where
  mem_iff row := by rw [hlevels, mem_combinations]
  nodup := by
    rw [hlevels]
    exact nodup_combinations h
  ordered := by
    have hordered := ordered_combinations h
    rw [← hlevels, List.map_map] at hordered
    exact hordered
  count := by rw [← length_combinations, ← hlevels, List.length_map]
  identified := hidentified

/-- A builder that makes the condition that it is asked for -/
def Builds (build : FactorLevels → String → Except PyError (ConditionAssignment × List String)) :
    Prop :=
  ∀ row id condition, build row id = .ok condition →
    condition.1.factorLevels = row ∧ condition.1.conditionId = id

theorem expandConditions_exact {engine : FactorialEngine}
    {build : FactorLevels → String → Except PyError (ConditionAssignment × List String)}
    (hbuild : Builds build) (h : Crosses design factors) {t : Expansion}
    (hloop : exec (expandConditions engine build design factors) .empty = (.ok (), t)) :
    ExactlyExpands design factors t.assignments := by
  obtain ⟨hnodup, built, hbuilt, rfl⟩ := (expandAll_ok_iff _ _ _).mp hloop
  rw [mapM_eq_ok_iff] at hbuilt
  have hlength := hbuilt.length_eq
  have hfst : ((combinations design factors).zip built).map Prod.fst = combinations design factors :=
    List.map_fst_zip (Nat.le_of_eq hlength)
  have hmember (entry) (hentry : entry ∈ (combinations design factors).zip built) :
      entry.2.1.factorLevels = entry.1 ∧ entry.2.1.conditionId = conditionId engine entry.1 :=
    hbuild _ _ _ (List.forall₂_zip hbuilt hentry)
  have hids : ((combinations design factors).zip built).map (fun entry => conditionId engine entry.1) =
      (combinations design factors).map (conditionId engine) := by
    have hmap := congrArg (List.map (conditionId engine)) hfst
    rw [List.map_map] at hmap
    exact hmap
  have hentries := entries_addAll engine ((combinations design factors).zip built) .empty (by
    rw [hids]
    exact hnodup)
  refine exactlyExpands_of_levels h ?_ fun entry hentry => ?_
  · rw [Dict.values, hentries, List.map_map, List.map_append, List.map_map]
    exact (List.map_congr_left fun entry hentry => (hmember entry hentry).1).trans hfst
  · rw [hentries] at hentry
    obtain ⟨row, hrow, rfl⟩ := List.mem_map.mp hentry
    exact (hmember row hrow).2

end Exact

section Bounded

variable {α : Type} {design : FactorialDesign α} {factors : Dict String StudyFactor}

def WithinBound (design : FactorialDesign α) (factors : Dict String StudyFactor) : Prop :=
  combinationCount factors design.factorIds ≤ design.conditionBound.val

/-- An expansion that compares the number of its conditions with its bound before it makes
one, and then makes exactly the conditions of its design.  Beside the bound it answers
as its other checks do. -/
structure BoundedExpansion (design : FactorialDesign α) (factors : Dict String StudyFactor)
    (otherChecks : Prop) (expand : Expanding Materialization) : Prop where
  counts : Crosses design factors → WithinBound design factors →
    factorialConditionCount design factors = .ok (combinationCount factors design.factorIds)
  refuses : Crosses design factors → ¬ WithinBound design factors → ∀ expansion,
    exec expand expansion = (.error conditionBoundExceeded, expansion)
  answers_iff : (∃ children left, exec expand .empty = (.ok children, left)) ↔
    Crosses design factors ∧ WithinBound design factors ∧ otherChecks
  exact : ∀ children left, exec expand .empty = (.ok children, left) →
    ExactlyExpands design factors children.allocation.conditionAssignments ∧
      children.allocation.comparedConditions =
        sortBy id children.allocation.conditionAssignments.keys

theorem factorialConditionCount_eq_ok (h : Crosses design factors)
    (hbound : WithinBound design factors) :
    factorialConditionCount design factors = .ok (combinationCount factors design.factorIds) :=
  factorialConditionCount_eq_ok_iff.mpr ⟨h, rfl, hbound⟩

end Bounded

section Expansions

variable (engine : FactorialEngine) (input : FactorialInput)

/-- Every condition can be built with an identity of its own, and the children of the
experiment are valid. -/
def Generates {α : Type} (design : FactorialDesign α) (factors : Dict String StudyFactor)
    (build : FactorLevels → String → Except PyError (ConditionAssignment × List String))
    (finish : Expansion → Except PyError Materialization) : Prop :=
  ((combinations design factors).map (conditionId engine)).Nodup ∧
    ∃ built children, (combinations design factors).mapM
        (fun row => build row (conditionId engine row)) = .ok built ∧
      finish (Expansion.empty.addAll engine ((combinations design factors).zip built)) = .ok children

structure BindingChecks (design : BindingDesign) (factors : Dict String StudyFactor)
    (finish : Expansion → Except PyError Materialization) : Prop where
  coordinates : combinationCount factors design.factorIds * design.targetRunsPerCondition.val ≤ 10000
  bindings : combinationCount factors design.factorIds * bindingsPerCondition design ≤ 10000
  generates : Generates engine design factors (bindingCondition engine design) finish

def TreatmentChecks (design : TreatmentDesign) : Prop :=
  input.targetRunCount = none ∧ ∃ fixed, fixedPolicies input.selectionPolicies = .ok fixed ∧
    validateWork design (combinationCount input.factors design.factorIds) fixed = .ok () ∧
    validateByteBound engine input design (combinationCount input.factors design.factorIds) = .ok () ∧
    Generates engine design input.factors (treatmentCondition engine design fixed)
      (completeTreatments engine input design)

end Expansions

section Expands

variable {α β : Type} {engine : FactorialEngine} {design : FactorialDesign α}
  {factors : Dict String StudyFactor} {checks : Except PyError β}
  {build : β → FactorLevels → String → Except PyError (ConditionAssignment × List String)}
  {finish : Expansion → Except PyError Materialization}

def boundedLoop (engine : FactorialEngine) (design : FactorialDesign α)
    (factors : Dict String StudyFactor) (checks : Except PyError β)
    (build : β → FactorLevels → String → Except PyError (ConditionAssignment × List String))
    (finish : Expansion → Except PyError Materialization) : Expanding Materialization := do
  let found ← liftM checks
  expandConditions engine (build found) design factors
  liftM (finish (← get))

theorem boundedLoop_ok_iff {children : Materialization} {t : Expansion} :
    exec (boundedLoop engine design factors checks build finish) .empty = (.ok children, t) ↔
      ∃ found, checks = .ok found ∧
        exec (expandConditions engine (build found) design factors) .empty = (.ok (), t) ∧
        finish t = .ok children := by
  unfold boundedLoop
  rw [exec_lift_bind_ok_iff]
  refine exists_congr fun found => and_congr_right fun _ => ?_
  rw [exec_bind_ok_iff]
  constructor
  · intro h
    obtain ⟨⟨⟩, u, hloop, hrest⟩ := h
    rw [exec_get_bind, exec_lift_ok_iff] at hrest
    obtain ⟨hfinish, rfl⟩ := hrest
    exact ⟨hloop, hfinish⟩
  · intro h
    refine ⟨(), t, h.1, ?_⟩
    rw [exec_get_bind, exec_lift_ok_iff]
    exact ⟨h.2, rfl⟩

/-- An expansion is bounded and exact where its checks start with the bound, its builder
makes the conditions it is asked for and its children are those of the loop. -/
theorem boundedExpansion_of_loop {otherChecks : Prop}
    (hrefuses : Crosses design factors → ¬ WithinBound design factors →
      checks = .error conditionBoundExceeded)
    (hchecks : ∀ found, checks = .ok found → Crosses design factors ∧ WithinBound design factors)
    (hbuild : ∀ found, Builds (build found))
    (hfinish : ∀ expansion children, finish expansion = .ok children →
      children.allocation.conditionAssignments = expansion.assignments ∧
        children.allocation.comparedConditions = sortBy id expansion.assignments.keys)
    (hother : Crosses design factors → WithinBound design factors →
      ((∃ found, checks = .ok found ∧ Generates engine design factors (build found) finish) ↔
        otherChecks)) :
    BoundedExpansion design factors otherChecks
      (boundedLoop engine design factors checks build finish) where
  counts h hbound := factorialConditionCount_eq_ok h hbound
  refuses h hbound expansion := by
    unfold boundedLoop
    rw [hrefuses h hbound, exec_bind, exec_lift]
  answers_iff := by
    have hanswers : (∃ children left, exec (boundedLoop engine design factors checks build finish)
        .empty = (.ok children, left)) ↔
          ∃ found, checks = .ok found ∧ Generates engine design factors (build found) finish := by
      simp only [boundedLoop_ok_iff, expandConditions, (expandAll_ok_iff _ _ _)]
      constructor
      · intro h
        obtain ⟨children, left, found, hfound, ⟨hnodup, built, hbuilt, rfl⟩, hchildren⟩ := h
        exact ⟨found, hfound, hnodup, built, children, hbuilt, hchildren⟩
      · intro h
        obtain ⟨found, hfound, hnodup, built, children, hbuilt, hchildren⟩ := h
        exact ⟨children, _, found, hfound, ⟨hnodup, built, hbuilt, rfl⟩, hchildren⟩
    rw [hanswers]
    constructor
    · intro h
      obtain ⟨found, hfound, hgenerates⟩ := h
      obtain ⟨hcrosses, hbound⟩ := hchecks found hfound
      exact ⟨hcrosses, hbound, (hother hcrosses hbound).mp ⟨found, hfound, hgenerates⟩⟩
    · intro h
      obtain ⟨hcrosses, hbound, hrest⟩ := h
      exact (hother hcrosses hbound).mpr hrest
  exact children left h := by
    obtain ⟨found, hfound, hloop, hchildren⟩ := boundedLoop_ok_iff.mp h
    obtain ⟨hassignments, hcompared⟩ := hfinish left children hchildren
    rw [hassignments, hcompared]
    exact ⟨expandConditions_exact (hbuild found) (hchecks found hfound).1 hloop, rfl⟩

end Expands

section Profiles

variable (engine : FactorialEngine) (input : FactorialInput) (design : BindingDesign)

theorem bindingCondition_builds : Builds (bindingCondition engine design) := by
  intro row id condition h
  unfold bindingCondition at h
  rw [seq_eq_ok_iff] at h
  obtain ⟨-, h⟩ := h
  cases h
  exact ⟨rfl, rfl⟩

theorem treatmentCondition_builds (design : TreatmentDesign) (fixed : List FixedPolicy) :
    Builds (treatmentCondition engine design fixed) := by
  intro row id condition h
  unfold treatmentCondition at h
  rw [seq_eq_ok_iff, seq_eq_ok_iff] at h
  obtain ⟨-, -, h⟩ := h
  cases h
  exact ⟨rfl, rfl⟩

variable {children : Materialization} {expansion : Expansion}

theorem materializeBindings_allocation {design : BindingDesign}
    (h : materializeBindings engine design expansion = .ok children) :
    children.allocation = runAllocation "factorial-bindings-v1" design.targetRunsPerCondition.val
      expansion.assignments := by
  unfold materializeBindings at h
  rw [seq_eq_ok_iff, seq_eq_ok_iff] at h
  obtain ⟨-, -, h⟩ := h
  cases h
  rfl

theorem materializeTreatments_allocation {design : TreatmentDesign}
    (h : materializeTreatments engine design expansion = .ok children) :
    children.allocation = runAllocation "factorial-treatments-v1"
      design.targetRunsPerCondition.val expansion.assignments := by
  unfold materializeTreatments at h
  rw [seq_eq_ok_iff, seq_eq_ok_iff] at h
  obtain ⟨-, -, h⟩ := h
  split at h
  · cases h
    rfl
  · rw [seq_eq_ok_iff] at h
    obtain ⟨-, h⟩ := h
    cases h
    rfl

theorem completeTreatments_allocation {design : TreatmentDesign}
    (h : completeTreatments engine input design expansion = .ok children) :
    children.allocation = runAllocation "factorial-treatments-v1"
      design.targetRunsPerCondition.val expansion.assignments := by
  unfold completeTreatments at h
  simp only [bind_eq_ok_iff] at h
  obtain ⟨made, hmade, -, -, -, -, -, -, -, -, h⟩ := h
  cases h
  exact materializeTreatments_allocation engine hmade

theorem admitChildren_eq {children admitted : Materialization}
    (h : admitChildren input children = .ok admitted) : admitted = children := by
  unfold admitChildren at h
  simp only [seq_eq_ok_iff] at h
  exact (Except.ok.inj h.2.2.2).symm

theorem validateFactorialBounds_exceeds {design : BindingDesign} {factors : Dict String StudyFactor}
    (h : Crosses design factors) (hbound : ¬ WithinBound design factors) :
    validateFactorialBounds design factors = .error conditionBoundExceeded := by
  unfold validateFactorialBounds
  rw [factorialConditionCount_exceeds h (Nat.lt_of_not_le hbound)]
  rfl

theorem validateFactorialBounds_eq_ok_iff (factors : Dict String StudyFactor) :
    validateFactorialBounds design factors = .ok () ↔
      Crosses design factors ∧ WithinBound design factors ∧
        combinationCount factors design.factorIds * design.targetRunsPerCondition.val ≤ 10000 ∧
        combinationCount factors design.factorIds * bindingsPerCondition design ≤ 10000 := by
  unfold validateFactorialBounds
  simp only [bind_eq_ok_iff, refuseIf_eq_ok_iff, factorialConditionCount_eq_ok_iff,
    Nat.not_lt, gt_iff_lt]
  constructor
  · intro h
    obtain ⟨_, ⟨hcrosses, rfl, hbound⟩, -, hrest⟩ := h
    exact ⟨hcrosses, hbound, hrest⟩
  · intro h
    obtain ⟨hcrosses, hbound, hrest⟩ := h
    exact ⟨_, ⟨hcrosses, rfl, hbound⟩, (), hrest⟩

theorem validateTreatments_exceeds {design : TreatmentDesign} (h : Crosses design input.factors)
    (hbound : ¬ WithinBound design input.factors) :
    validateTreatments engine input design = .error conditionBoundExceeded := by
  unfold validateTreatments
  rw [factorialConditionCount_exceeds h (Nat.lt_of_not_le hbound)]
  rfl

theorem validateTreatments_eq_ok_iff (design : TreatmentDesign) (fixed : List FixedPolicy) :
    validateTreatments engine input design = .ok fixed ↔
      (Crosses design input.factors ∧ WithinBound design input.factors) ∧
        input.targetRunCount = none ∧ fixedPolicies input.selectionPolicies = .ok fixed ∧
        validateWork design (combinationCount input.factors design.factorIds) fixed = .ok () ∧
        validateByteBound engine input design
          (combinationCount input.factors design.factorIds) = .ok () := by
  unfold validateTreatments
  simp only [bind_eq_ok_iff, refuseIf_eq_ok_iff, factorialConditionCount_eq_ok_iff,
    not_not]
  constructor
  · intro h
    obtain ⟨_, ⟨hcrosses, rfl, hbound⟩, -, htarget, found, hfound, ⟨⟩, hwork, ⟨⟩, hbytes, hfixed⟩ := h
    cases hfixed
    exact ⟨⟨hcrosses, hbound⟩, htarget, hfound, hwork, hbytes⟩
  · intro h
    obtain ⟨⟨hcrosses, hbound⟩, htarget, hfixed, hwork, hbytes⟩ := h
    exact ⟨_, ⟨hcrosses, rfl, hbound⟩, (), htarget, fixed, hfixed, (), hwork, (), hbytes, rfl⟩

theorem bindingLoop_bounded (factors : Dict String StudyFactor)
    (accept : Materialization → Except PyError Materialization)
    (haccept : ∀ children admitted, accept children = .ok admitted → admitted = children) :
    BoundedExpansion design factors
      (BindingChecks engine design factors fun expansion =>
        materializeBindings engine design expansion >>= accept)
      (boundedLoop engine design factors (validateFactorialBounds design factors)
        (fun _ => bindingCondition engine design)
        fun expansion => materializeBindings engine design expansion >>= accept) := by
  refine boundedExpansion_of_loop (fun h hbound => validateFactorialBounds_exceeds h hbound)
    (fun found h => ?_) (fun _ => bindingCondition_builds engine design)
    (fun expansion children h => ?_) fun hcrosses hbound => ?_
  · obtain ⟨hcrosses, hbound, -⟩ := (validateFactorialBounds_eq_ok_iff design factors).mp h
    exact ⟨hcrosses, hbound⟩
  · rw [bind_eq_ok_iff] at h
    obtain ⟨made, hmade, h⟩ := h
    rw [haccept made children h, materializeBindings_allocation engine hmade]
    exact ⟨rfl, rfl⟩
  · constructor
    · intro h
      obtain ⟨found, hfound, hgenerates⟩ := h
      obtain ⟨-, -, hcoordinates, hbindings⟩ :=
        (validateFactorialBounds_eq_ok_iff design factors).mp hfound
      exact ⟨hcoordinates, hbindings, hgenerates⟩
    · intro h
      exact ⟨(), (validateFactorialBounds_eq_ok_iff design factors).mpr
        ⟨hcrosses, hbound, h.coordinates, h.bindings⟩, h.generates⟩

theorem treatmentLoop_bounded (design : TreatmentDesign) :
    BoundedExpansion design input.factors (TreatmentChecks engine input design)
      (expandTreatmentInput engine input design) := by
  refine boundedExpansion_of_loop (fun h hbound => validateTreatments_exceeds engine input h hbound)
    (fun fixed h => ((validateTreatments_eq_ok_iff engine input design fixed).mp h).1)
    (fun fixed => treatmentCondition_builds engine design fixed)
    (fun expansion children h => ?_) fun hcrosses hbound => ?_
  · rw [completeTreatments_allocation engine input h]
    exact ⟨rfl, rfl⟩
  · simp only [validateTreatments_eq_ok_iff]
    constructor
    · intro h
      obtain ⟨fixed, ⟨-, htarget, hfixed, hwork, hbytes⟩, hgenerates⟩ := h
      exact ⟨htarget, fixed, hfixed, hwork, hbytes, hgenerates⟩
    · intro h
      obtain ⟨htarget, fixed, hfixed, hwork, hbytes, hgenerates⟩ := h
      exact ⟨fixed, ⟨⟨hcrosses, hbound⟩, htarget, hfixed, hwork, hbytes⟩, hgenerates⟩

theorem expandFactorialInput_eq : expandFactorialInput engine input design =
      boundedLoop engine design input.factors (validateFactorialBounds design input.factors)
        (fun _ => bindingCondition engine design) fun expansion =>
          materializeBindings engine design expansion >>= admitChildren input := by
  unfold expandFactorialInput generateFactorialConditions boundedLoop
  simp only [bind_assoc, lift_bind]

/-- A factorial expansion, of scalar bindings or of treatments, counts its conditions and
compares the count with its bound before it makes any: beyond the bound it is refused and
nothing is made.  When it answers it has made one condition for each combination of
levels, in the order of their product.  Within the bound, and at it, it answers as its
other checks do. -/
theorem factorial_expansion_bounded (design : BindingDesign) (treatments : TreatmentDesign) :
    BoundedExpansion design input.factors
      (BindingChecks engine design input.factors (materializeBindings engine design))
      (generateFactorialConditions engine design input.factors) ∧
    BoundedExpansion design input.factors
      (BindingChecks engine design input.factors fun expansion =>
        materializeBindings engine design expansion >>= admitChildren input)
      (expandFactorialInput engine input design) ∧
    BoundedExpansion treatments input.factors (TreatmentChecks engine input treatments)
      (expandTreatmentInput engine input treatments) := by
  refine ⟨?_, ?_, treatmentLoop_bounded engine input treatments⟩
  · have h := bindingLoop_bounded engine design input.factors pure fun _ _ h =>
      (Except.ok.inj h).symm
    simp only [bind_pure] at h
    exact h
  · rw [expandFactorialInput_eq]
    exact bindingLoop_bounded engine design input.factors (admitChildren input) fun _ _ h =>
      admitChildren_eq input h

end Profiles

/-! ## A design at its bound -/

def twoLevelDesign (runs : {n : ℕ // 1 ≤ n ∧ n ≤ 999999}) : BindingDesign where
  factorIds := ["path"]
  levels := ⟨[("path", ⟨[("long", [⟨.scenario ⟨"family", "point", "target"⟩, .str "long"⟩]),
    ("short", [⟨.scenario ⟨"family", "point", "target"⟩, .str "short"⟩])], by decide⟩)], by decide⟩
  targetRunsPerCondition := runs
  conditionBound := ⟨2, by decide⟩
  factorIds_sorted := List.pairwise_singleton _ _
  mem_factorIds_iff _ := Iff.rfl

def twoLevelFactors : Dict String StudyFactor := ⟨[("path", ⟨["long", "short"]⟩)], by decide⟩

/-- Serializations that tell the levels of that factor apart -/
def levelEngine : FactorialEngine where
  digestHex
    | .obj [("path", .str level)] => level
    | .arr (.str condition :: _) => condition
    | _ => "digest"
  bindingText template := match template.content with
    | .str text => text
    | _ => ""
  selectionText _ := ""
  effectsBytes _ := 0
  joinBytes _ _ := 0

/-- A design at the bound of its conditions that is refused for the runs of each of them -/
theorem generateFactorialConditions_atBound :
    factorialConditionCount (twoLevelDesign ⟨5001, by decide⟩) twoLevelFactors =
      .ok (twoLevelDesign ⟨5001, by decide⟩).conditionBound.val ∧
    (exec (generateFactorialConditions levelEngine (twoLevelDesign ⟨5001, by decide⟩)
      twoLevelFactors) .empty).1 = .error coordinateBoundExceeded := by
  constructor
  · rfl
  · rfl

example : ((exec (generateFactorialConditions levelEngine (twoLevelDesign ⟨5000, by decide⟩)
    twoLevelFactors) .empty).1.toOption.map fun children => children.allocation.comparedConditions) =
      some ["condition-long", "condition-short"] := by
  decide +kernel

end Raes.Factorial
