import Mathlib.Data.String.Basic
import Raes.Lib.CartesianProduct
import Raes.Lib.ExceptList
import Raes.Lib.SortBy
import Raes.Trial.Policies

/-!
# Coordinate selections

The compilation of a policy registry into one selection set for each trial
coordinate (`policies.py` of the trial compiler, with the materialization of
finite domains in `domains.py`), for an experiment without a factorial design.
-/

namespace Raes.Trial

open PyError

/-- A `CompilationFailure`, or an exception of another class. -/
inductive CompileError where
  | failure (code address message : String)
  | raised (error : PyError)
  deriving DecidableEq

structure CompilationLimits where
  (maxDomainValuesPerPoint maxProductOutputs : ℕ)
  deriving DecidableEq

structure TrialCoordinate where
  conditionId : Option String
  replicateId : String
  deriving DecidableEq

structure ResolvedSelection where
  (pointId policyId policyKind : String)
  outcome : SelectionOutcome
  deriving DecidableEq

/-- Selections of distinct points. -/
abbrev SelectionRow := List ResolvedSelection

structure CoordinateSelections where
  selections : SelectionRow
  draws : List Json

/-- What the compiler takes from other packages. -/
structure CompilerEngine where
  /-- `canonical_json_bytes`, as the text of the bytes -/
  canonicalText : Json → Except PyError String
  /-- The draws of a sample policy over a number of outcomes, one for each
  coordinate, with their records. -/
  draws : (policyId pointRef controlRef : String) → ℕ → List TrialCoordinate →
    Except CompileError (List (ℕ × Json))

def failIf (condition : Prop) [Decidable condition] (code address message : String) :
    Except CompileError Unit :=
  if condition then .error (.failure code address message) else .ok ()

@[simp] theorem failIf_eq_ok_iff (condition : Prop) [Decidable condition]
    (code address message : String) (u : Unit) :
    failIf condition code address message = .ok u ↔ ¬ condition := by
  unfold failIf
  split <;> simp [*]

/-- An exception of another class goes through the compiler. -/
def raises {α : Type} : Except PyError α → Except CompileError α
  | .ok a => .ok a
  | .error error => .error (.raised error)

@[simp] theorem raises_eq_ok_iff {α : Type} (x : Except PyError α) (a : α) :
    raises x = .ok a ↔ x = .ok a := by
  cases x <;> simp [raises]

/-! ## Finite domains -/

def domainAddress : String := "/family/variation_points"

def finiteDomainMessage : String := "trial-compiler-v1 admits only finite scalar domains"

def scalarTypeName : DomainScalar → String
  | .bool _ => "boolean"
  | .int _ => "integer"
  | .float _ => "number"
  | .str _ => "string"

variable (engine : CompilerEngine)

def canonicalScalarKey (value : DomainScalar) : Except PyError String :=
  engine.canonicalText (.obj [("type", .str (scalarTypeName value)), ("value", value.toJson)])

/-- `sorted(values, key=_canonical_scalar_key)` -/
def sortedScalars (values : List DomainScalar) : Except PyError (List DomainScalar) := do
  let keyed ← values.mapM fun value => do
    let key ← canonicalScalarKey engine value
    return (key, value)
  return (sortBy Prod.fst keyed).map Prod.snd

def finiteDomainFailure {α : Type} : Except CompileError α :=
  .error (.failure "domain-not-finite" domainAddress finiteDomainMessage)

def unsupportedPointFailure {α : Type} : Except CompileError α :=
  .error (.failure "domain-kind-unsupported" domainAddress
    "the selected policy does not support this variation-point kind")

/-- `_integer_interval_bounds` of the compiler. -/
def intervalBounds (domain : NumericIntervalDomain) : Except CompileError (ℤ × ℤ) :=
  if domain.numericType = .integer then .ok (integerIntervalBounds domain)
  else finiteDomainFailure

def scalarCardinality : DomainDescriptor → Except CompileError ℕ
  | .exact _ => .ok 1
  | .enum values => .ok values.length
  | .boolean value => .ok (if value.isSome then 1 else 2)
  | .numericInterval domain => do
    let (lower, upper) ← intervalBounds domain
    return (upper - lower + 1).toNat
  | _ => finiteDomainFailure

def domainCardinality : VariationPoint → Except CompileError ℕ
  | .parameter domain | .logicalTiming domain => scalarCardinality domain
  | .governedReference allowedRefs => .ok allowedRefs.length
  | .alternative alternatives => .ok alternatives.length
  | .subset .. | .order .. => unsupportedPointFailure

/-- The integers of an interval in order. -/
def integersBetween (lower upper : ℤ) : List ℤ :=
  (List.range (upper - lower + 1).toNat).map fun i : ℕ => lower + (i : ℤ)

def scalarValues : DomainDescriptor → Except CompileError (List DomainScalar)
  | .exact value => .ok [value]
  | .enum values => raises (sortedScalars engine values)
  | .boolean (some value) => .ok [.bool value]
  | .boolean none => .ok [.bool false, .bool true]
  | .numericInterval domain => do
    let (lower, upper) ← intervalBounds domain
    return (integersBetween lower upper).map .int
  | _ => finiteDomainFailure

def materializedOutcomes : VariationPoint → Except CompileError (List SelectionOutcome)
  | .parameter domain | .logicalTiming domain => do
    let values ← scalarValues engine domain
    return values.map fun value => .literal (some value)
  | .governedReference allowedRefs => .ok ((sortBy id allowedRefs).map .reference)
  | .alternative alternatives => .ok ((sortBy id alternatives).map .member)
  | .subset .. | .order .. => unsupportedPointFailure

def canonicalDomainOutcomes (point : VariationPoint) (maximum : ℕ) :
    Except CompileError (List SelectionOutcome) := do
  let cardinality ← domainCardinality point
  failIf (cardinality = 0) "domain-empty" domainAddress "a selected variation-point domain is empty"
  failIf (cardinality > maximum) "domain-limit-exceeded" domainAddress
    "a variation-point domain exceeds the compilation limit"
  materializedOutcomes engine point

/-! ## Rows -/

def selectionPoliciesAddress : String := "/run_plan/selection_policies"

def policyAddress (policyId : String) : String := selectionPoliciesAddress ++ "/" ++ policyId

def addSelection (merged : Dict String ResolvedSelection) (selection : ResolvedSelection) :
    Except CompileError (Dict String ResolvedSelection) := do
  failIf (merged.contains selection.pointId = true) "point-selected-multiple-times"
    selectionPoliciesAddress "multiple selection policies resolve the same variation point"
  return merged.set selection.pointId selection

def mergeRows (rows additions : SelectionRow) : Except CompileError SelectionRow := do
  let start := rows.foldl (fun d s => d.set s.pointId s) Dict.empty
  let merged ← additions.foldlM addSelection start
  return (sortBy Prod.fst merged.entries).map Prod.snd

/-- The number of combinations, counted list by list.  The count so far is never
zero, because every policy has a row. -/
def productCardinality (limit : ℕ) (policyId : String) :
    ℕ → List ℕ → Except CompileError ℕ
  | cardinality, [] => .ok cardinality
  | cardinality, length :: rest => do
    failIf (length > limit / cardinality) "product-limit-exceeded" (policyAddress policyId)
      "selection product exceeds the compilation limit"
    productCardinality limit policyId (cardinality * length) rest

def productRows (limit : ℕ) (policyId : String) (bound : ℕ) (childRows : List (List SelectionRow)) :
    Except CompileError (List SelectionRow) := do
  let cardinality ← productCardinality limit policyId 1 (childRows.map List.length)
  failIf (cardinality ≠ bound) "policy-cardinality-mismatch" (policyAddress policyId)
    "selection policy output cardinality does not match its declared bound"
  (choices childRows).mapM fun combination => combination.foldlM mergeRows []

variable (policies : Dict String SelectionPolicy) (family : ScenarioFamily)
  (limits : CompilationLimits)

def familyPoint (pointRef : String) : Except CompileError VariationPoint :=
  match family.variationPoints.get? pointRef with
  | some point => .ok point
  | none => .error (.raised (keyError pointRef))

/-- `_static_rows`, to a depth of nested policies. -/
def staticRows : ℕ → String → Except CompileError (List SelectionRow)
  | 0, _ => .error (.raised (recursionError "maximum recursion depth exceeded"))
  | depth + 1, policyId =>
    match policies.get? policyId with
    | none => .error (.raised (keyError policyId))
    | some (.fixed id _ pointRef outcome _) => .ok [[⟨pointRef, id, "fixed", outcome⟩]]
    | some (.enumerate id _ pointRef _) => do
      let point ← familyPoint family pointRef
      let outcomes ← canonicalDomainOutcomes engine point limits.maxDomainValuesPerPoint
      return outcomes.map fun outcome => [⟨pointRef, id, "enumerate", outcome⟩]
    | some (.product _ _ refs bound) => do
      let childRows ← (sortBy id refs).mapM (staticRows depth)
      productRows limits.maxProductOutputs policyId bound childRows
    | some _ => .error (.failure "product-child-unsupported" (policyAddress policyId)
        ("product dimensions admit only fixed, enumerate, or nested product policies in v1"))

variable (policyId pointRef : String)

def stratifiedRow (outcomes : Dict String SelectionOutcome)
    (strata : Dict String SelectionStratum) (coordinate : TrialCoordinate) :
    Except CompileError (SelectionStratum × SelectionRow) :=
  match strata.get? (coordinate.conditionId.getD "") with
  | none => .error (.failure "stratum-coordinate-missing" (policyAddress policyId)
      "a stratified policy does not cover a logical trial coordinate")
  | some stratum =>
    match outcomes.get? stratum.outcomeRef with
    | none => .error (.raised (keyError stratum.outcomeRef))
    | some outcome => .ok (stratum, [⟨pointRef, policyId, "stratified", outcome⟩])

def stratifiedRows (outcomes : Dict String SelectionOutcome)
    (strata : Dict String SelectionStratum) (coordinates : List TrialCoordinate) :
    Except CompileError (List SelectionRow) := do
  let selected ← coordinates.mapM (stratifiedRow policyId pointRef outcomes strata)
  let count (id : String) : ℕ := selected.countP fun e => e.1.stratumId = id
  failIf (∃ e ∈ strata.entries, count e.1 ≠ e.2.outputCount) "stratum-cardinality-mismatch"
    (policyAddress policyId)
    "stratified output counts do not match the logical coordinate allocation"
  return selected.map Prod.snd

def sampleRow (outcomes : List SelectionOutcome)
    (draw : ℕ × Json) : Except CompileError CoordinateSelections :=
  match outcomes[draw.1]? with
  | some outcome => .ok ⟨[⟨pointRef, policyId, "sample", outcome⟩], [draw.2]⟩
  | none => .error (.failure "sample-rejection-exhausted" (policyAddress policyId)
      "sample policy exhausted its bounded transform")

def sampleRows (policyId pointRef controlRef : String) (coordinates : List TrialCoordinate) :
    Except CompileError (List CoordinateSelections) := do
  let point ← familyPoint family pointRef
  let outcomes ← canonicalDomainOutcomes engine point limits.maxDomainValuesPerPoint
  let draws ← engine.draws policyId pointRef controlRef outcomes.length coordinates
  draws.mapM (sampleRow policyId pointRef outcomes)

/-! ## Compilation -/

def policyRoots : List String :=
  sortBy id (policies.keys.filter fun id =>
    id ∉ policies.values.flatMap SelectionPolicy.policyRefs)

def nonFixedRoots : List String :=
  (policyRoots policies).filter fun id => ¬ (policies.get? id).any SelectionPolicy.isFixed

def fixedSelection : SelectionPolicy → Option ResolvedSelection
  | .fixed id _ pointRef outcome _ => some ⟨pointRef, id, "fixed", outcome⟩
  | _ => none

def fixedAdditions : SelectionRow :=
  (policyRoots policies).filterMap fun id => (policies.get? id).bind fixedSelection

/-- A deeper nesting than the number of policies would repeat one. -/
def nestingDepth : ℕ := policies.entries.length + 1

def rootRows (coordinates : List TrialCoordinate) (root : String) :
    Except CompileError (List CoordinateSelections) :=
  match policies.get? root with
  | none => .error (.raised (keyError root))
  | some (.stratified id _ pointRef outcomes strata _) => do
    let rows ← stratifiedRows id pointRef outcomes strata coordinates
    return rows.map fun row => ⟨row, []⟩
  | some (.sample id _ pointRef _ _ control) =>
    sampleRows engine family limits id pointRef control coordinates
  | some policy => do
    let rows ← staticRows engine policies family limits (nestingDepth policies) policy.policyId
    failIf (rows.length ≠ coordinates.length) "policy-cardinality-mismatch"
      (policyAddress policy.policyId)
      "selection policy output does not exactly cover the logical coordinates"
    return rows.map fun row => ⟨row, []⟩

/-- The rows before the selections of the fixed roots. -/
def baseRows (coordinates : List TrialCoordinate) :
    Except CompileError (List CoordinateSelections) :=
  match nonFixedRoots policies with
  | [] => .ok (coordinates.map fun _ => ⟨[], []⟩)
  | root :: _ => rootRows engine policies family limits coordinates root

def completeRow (row : CoordinateSelections) : Except CompileError CoordinateSelections := do
  let selections ← mergeRows row.selections (fixedAdditions policies)
  return ⟨selections, row.draws⟩

def CoversFamily (row : CoordinateSelections) : Prop :=
  (∀ s ∈ row.selections, s.pointId ∈ family.variationPoints.keys) ∧
    ∀ point ∈ family.variationPoints.keys, point ∈ row.selections.map ResolvedSelection.pointId

instance (row : CoordinateSelections) : Decidable (CoversFamily family row) :=
  inferInstanceAs (Decidable (_ ∧ _))

def compileCoordinateSelections (coordinates : List TrialCoordinate) :
    Except CompileError (List CoordinateSelections) := do
  failIf ((nonFixedRoots policies).length > 1) "policy-roots-ambiguous" selectionPoliciesAddress
    "multiple non-fixed selection policy roots are ambiguous"
  let rows ← baseRows engine policies family limits coordinates
  let completed ← rows.mapM (completeRow policies)
  failIf (∃ row ∈ completed, ¬ CoversFamily family row) "variation-points-uncovered"
    selectionPoliciesAddress "every family variation point must be selected exactly once"
  return completed

end Raes.Trial

/-!
# Joined rows

Merging rows succeeds exactly when no point is selected twice, and yields all
their selections in the order of the points.
-/

namespace Raes.Trial

def joined (selections : SelectionRow) : SelectionRow :=
  sortBy ResolvedSelection.pointId selections

/-- No point is selected twice. -/
def PointsDistinct (selections : SelectionRow) : Prop :=
  (selections.map ResolvedSelection.pointId).Nodup

theorem joined_perm (selections : SelectionRow) : (joined selections).Perm selections :=
  sortBy_perm _ _

theorem PointsDistinct.perm {a b : SelectionRow} (h : PointsDistinct a) (hperm : a.Perm b) :
    PointsDistinct b :=
  (hperm.map ResolvedSelection.pointId).nodup_iff.mp h

theorem joined_eq_of_perm {a b : SelectionRow} (hperm : a.Perm b) (h : PointsDistinct a) :
    joined a = joined b :=
  sortBy_eq_of_perm hperm h

def keyedByPoint (selections : SelectionRow) : List (String × ResolvedSelection) :=
  selections.map fun s => (s.pointId, s)

variable {selections : SelectionRow}

theorem mem_keys_keyedByPoint {merged : Dict String ResolvedSelection}
    (h : merged.entries = keyedByPoint selections) (point : String) :
    merged.contains point = true ↔ point ∈ selections.map ResolvedSelection.pointId := by
  have hkeys : merged.keys = selections.map ResolvedSelection.pointId := by
    rw [Dict.keys, h, keyedByPoint, List.map_map]
    rfl
  rw [Dict.contains_iff, hkeys]

theorem addSelection_of_new {merged : Dict String ResolvedSelection}
    (hmerged : merged.entries = keyedByPoint selections) {selection : ResolvedSelection}
    (hnew : selection.pointId ∉ selections.map ResolvedSelection.pointId) :
    ∃ next, addSelection merged selection = .ok next ∧
      next.entries = keyedByPoint (selections ++ [selection]) := by
  have hfresh : ¬ merged.contains selection.pointId = true := by
    rw [mem_keys_keyedByPoint hmerged]
    exact hnew
  have hnone : merged.get? selection.pointId = none := by
    rw [Dict.get?_eq_none_iff, ← Dict.contains_iff]
    exact hfresh
  refine ⟨merged.set selection.pointId selection, ?_, ?_⟩
  · simp only [addSelection, bind_eq_ok_iff, failIf_eq_ok_iff]
    exact ⟨(), hfresh, rfl⟩
  · rw [Dict.entries_set_of_get?_none _ hnone, hmerged, keyedByPoint, keyedByPoint,
      List.map_append]
    rfl

theorem new_of_addSelection {merged next : Dict String ResolvedSelection}
    (hmerged : merged.entries = keyedByPoint selections)
    {selection : ResolvedSelection} (h : addSelection merged selection = .ok next) :
    selection.pointId ∉ selections.map ResolvedSelection.pointId := by
  simp only [addSelection, bind_eq_ok_iff, failIf_eq_ok_iff,
    mem_keys_keyedByPoint hmerged] at h
  obtain ⟨_, hnew, -⟩ := h
  exact hnew

theorem pointsDistinct_append_cons (selections rest : SelectionRow)
    (selection : ResolvedSelection) :
    PointsDistinct (selections ++ selection :: rest) ↔
      PointsDistinct ((selections ++ [selection]) ++ rest) := by
  rw [List.append_assoc]
  rfl

theorem foldlM_addSelection_ok_iff {merged next : Dict String ResolvedSelection}
    (hmerged : merged.entries = keyedByPoint selections) (additions : SelectionRow) :
    additions.foldlM addSelection merged = .ok next ↔
      PointsDistinct (selections ++ additions) ∧
        next.entries = keyedByPoint (selections ++ additions) := by
  induction additions generalizing merged selections with
  | nil =>
    rw [List.foldlM_nil, List.append_nil, ← hmerged]
    have hnodup : PointsDistinct selections := by
      have hkeys := merged.nodup
      rw [hmerged, keyedByPoint, List.map_map] at hkeys
      exact hkeys
    constructor
    · intro h
      cases h
      exact ⟨hnodup, rfl⟩
    · rintro ⟨-, hnext⟩
      cases merged
      cases next
      cases hnext
      rfl
  | cons selection rest ih =>
    rw [List.foldlM_cons, bind_eq_ok_iff, pointsDistinct_append_cons]
    constructor
    · rintro ⟨middle, hstep, hrest⟩
      obtain ⟨found, hfound, hentries⟩ :=
        addSelection_of_new hmerged (new_of_addSelection hmerged hstep)
      rw [hstep] at hfound
      cases hfound
      obtain ⟨hdistinct, hnext⟩ := (ih hentries).mp hrest
      rw [List.append_assoc] at hnext
      exact ⟨hdistinct, hnext⟩
    · rintro ⟨hdistinct, hnext⟩
      have hnew : selection.pointId ∉ selections.map ResolvedSelection.pointId := by
        intro hmem
        rw [PointsDistinct, List.map_append, List.map_append] at hdistinct
        have hstart := hdistinct.of_append_left
        rw [List.nodup_append] at hstart
        exact hstart.2.2 _ hmem _ (by simp) rfl
      obtain ⟨middle, hstep, hmiddle⟩ := addSelection_of_new hmerged hnew
      refine ⟨middle, hstep, (ih hmiddle).mpr ⟨hdistinct, ?_⟩⟩
      rw [hnext, List.append_assoc]
      rfl

theorem sorted_keyedByPoint (selections : SelectionRow) :
    (sortBy Prod.fst (keyedByPoint selections)).map Prod.snd = joined selections := by
  rw [keyedByPoint, sortBy_map, List.map_map]
  exact List.map_id _

theorem keyedByPoint_foldl_set {rows : SelectionRow} (h : PointsDistinct rows) :
    (rows.foldl (fun d s => d.set s.pointId s) Dict.empty).entries = keyedByPoint rows := by
  have hfold : ∀ (d : Dict String ResolvedSelection) (before : SelectionRow),
      d.entries = keyedByPoint before → PointsDistinct (before ++ rows) →
      (rows.foldl (fun d s => d.set s.pointId s) d).entries = keyedByPoint (before ++ rows) := by
    clear h
    induction rows with
    | nil =>
      intro d before hd _
      rw [List.append_nil]
      exact hd
    | cons s rest ih =>
      intro d before hd hdistinct
      rw [pointsDistinct_append_cons] at hdistinct
      have hnone : d.get? s.pointId = none := by
        rw [Dict.get?_eq_none_iff, ← Dict.contains_iff, mem_keys_keyedByPoint hd]
        intro hmem
        rw [PointsDistinct, List.map_append, List.map_append] at hdistinct
        have hstart := hdistinct.of_append_left
        rw [List.nodup_append] at hstart
        exact hstart.2.2 _ hmem _ (by simp) rfl
      have hset : (d.set s.pointId s).entries = keyedByPoint (before ++ [s]) := by
        rw [Dict.entries_set_of_get?_none _ hnone, hd, keyedByPoint, keyedByPoint,
          List.map_append]
        rfl
      rw [List.foldl_cons, ih _ _ hset hdistinct, List.append_assoc]
      rfl
  exact hfold Dict.empty [] rfl h

theorem mergeRows_ok_iff {rows : SelectionRow} (hrows : PointsDistinct rows)
    (additions merged : SelectionRow) :
    mergeRows rows additions = .ok merged ↔
      PointsDistinct (rows ++ additions) ∧ merged = joined (rows ++ additions) := by
  have hstart := keyedByPoint_foldl_set hrows
  simp only [mergeRows, bind_eq_ok_iff, foldlM_addSelection_ok_iff hstart]
  constructor
  · rintro ⟨next, ⟨hdistinct, hnext⟩, hmerged⟩
    cases hmerged
    rw [hnext, sorted_keyedByPoint]
    exact ⟨hdistinct, rfl⟩
  · rintro ⟨hdistinct, rfl⟩
    have hkeys : ((keyedByPoint (rows ++ additions)).map Prod.fst).Nodup := by
      rw [keyedByPoint, List.map_map]
      exact hdistinct
    refine ⟨⟨keyedByPoint (rows ++ additions), hkeys⟩, ⟨hdistinct, rfl⟩, ?_⟩
    rw [sorted_keyedByPoint]
    rfl

theorem foldlM_mergeRows_ok_iff {before : SelectionRow} (hbefore : PointsDistinct before)
    (combination : List SelectionRow) (merged : SelectionRow) :
    combination.foldlM mergeRows (joined before) = .ok merged ↔
      PointsDistinct (before ++ combination.flatten) ∧
        merged = joined (before ++ combination.flatten) := by
  induction combination generalizing before with
  | nil =>
    rw [List.foldlM_nil, List.flatten_nil, List.append_nil]
    constructor
    · intro h
      cases h
      exact ⟨hbefore, rfl⟩
    · rintro ⟨-, rfl⟩
      rfl
  | cons row rest ih =>
    have hjoined : PointsDistinct (joined before) := hbefore.perm (joined_perm before).symm
    have hperm : (joined before ++ row).Perm (before ++ row) := (joined_perm before).append_right row
    rw [List.foldlM_cons, bind_eq_ok_iff, List.flatten_cons, ← List.append_assoc]
    simp only [mergeRows_ok_iff hjoined]
    constructor
    · rintro ⟨next, ⟨hdistinct, rfl⟩, hrest⟩
      rw [joined_eq_of_perm hperm hdistinct] at hrest
      exact (ih (hdistinct.perm hperm)).mp hrest
    · rintro ⟨hdistinct, hmerged⟩
      have hnext : PointsDistinct (before ++ row) := by
        rw [PointsDistinct, List.map_append] at hdistinct
        exact hdistinct.of_append_left
      refine ⟨_, ⟨hnext.perm hperm.symm, rfl⟩, ?_⟩
      rw [joined_eq_of_perm hperm (hnext.perm hperm.symm)]
      exact (ih hnext).mpr ⟨hdistinct, hmerged⟩

theorem mergeCombination_ok_iff (combination : List SelectionRow) (merged : SelectionRow) :
    combination.foldlM mergeRows [] = .ok merged ↔
      PointsDistinct combination.flatten ∧ merged = joined combination.flatten := by
  have hempty : PointsDistinct [] := List.nodup_nil
  exact foldlM_mergeRows_ok_iff hempty combination merged

end Raes.Trial
