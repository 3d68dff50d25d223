import Raes.Trial.Registry

/-!
# The rows of a policy

A policy expands to points and rows: a leaf selects one point, and a product
joins every combination of the rows of its factors.  The compiler computes these
rows, exactly when no two factors select one point.
-/

namespace Raes.Trial

/-- A factor of a product, with the points and the rows that it expands to. -/
structure Factor where
  policyId : String
  points : List String
  rows : List SelectionRow

def joinedRows (factors : List Factor) : List SelectionRow :=
  (choices (factors.map Factor.rows)).map fun choice => joined choice.flatten

variable (engine : CompilerEngine) (policies : Dict String SelectionPolicy)
  (family : ScenarioFamily) (limits : CompilationLimits)

/-- A policy selects some points by some rows. -/
inductive Expands : String → List String → List SelectionRow → Prop
  | fixed {key id pointRef : String} {purpose : SelectionPurpose} {outcome : SelectionOutcome}
      {bound : ℕ} (hpolicy : policies.get? key = some (.fixed id purpose pointRef outcome bound)) :
      Expands key [pointRef] [[⟨pointRef, id, "fixed", outcome⟩]]
  | enumerate {key id pointRef : String} {purpose : SelectionPurpose} {bound : ℕ}
      {point : VariationPoint} {outcomes : List SelectionOutcome}
      (hpolicy : policies.get? key = some (.enumerate id purpose pointRef bound))
      (hpoint : family.variationPoints.get? pointRef = some point)
      (houtcomes : canonicalDomainOutcomes engine point limits.maxDomainValuesPerPoint =
        .ok outcomes) :
      Expands key [pointRef] (outcomes.map fun outcome => [⟨pointRef, id, "enumerate", outcome⟩])
  | product {key policyId : String} {purpose : SelectionPurpose} {refs : List String} {bound : ℕ}
      (factors : List Factor)
      (hpolicy : policies.get? key = some (.product policyId purpose refs bound))
      (hrefs : factors.map Factor.policyId = sortBy id refs)
      (hfactors : ∀ f ∈ factors, Expands f.policyId f.points f.rows)
      (hlimit : (factors.map fun f => f.rows.length).prod ≤ limits.maxProductOutputs) :
      Expands key (factors.flatMap Factor.points) (joinedRows factors)

variable {engine policies family limits}

/-! ## The points of a row -/

theorem flatten_points {factors : List Factor}
    (hrows : ∀ f ∈ factors, ∀ row ∈ f.rows,
      (row.map ResolvedSelection.pointId).Perm f.points) {choice : List SelectionRow}
    (hchoice : List.Forall₂ (· ∈ ·) choice (factors.map Factor.rows)) :
    (choice.flatten.map ResolvedSelection.pointId).Perm (factors.flatMap Factor.points) := by
  induction factors generalizing choice with
  | nil =>
    cases hchoice
    exact List.Perm.refl _
  | cons f rest ih =>
    cases hchoice with
    | cons hrow hrest =>
      rw [List.forall_mem_cons] at hrows
      rw [List.flatten_cons, List.map_append, List.flatMap_cons]
      exact (hrows.1 _ hrow).append (ih hrows.2 hrest)

theorem Expands.row_points {key : String} {points : List String} {rows : List SelectionRow}
    (h : Expands engine policies family limits key points rows) :
    ∀ row ∈ rows, (row.map ResolvedSelection.pointId).Perm points := by
  induction h with
  | fixed hpolicy =>
    intro row hrow
    rw [List.mem_singleton] at hrow
    subst hrow
    exact List.Perm.refl _
  | enumerate hpolicy hpoint houtcomes =>
    intro row hrow
    obtain ⟨outcome, -, rfl⟩ := List.mem_map.mp hrow
    exact List.Perm.refl _
  | product factors hpolicy hrefs hfactors hlimit ih =>
    intro row hrow
    obtain ⟨choice, hchoice, rfl⟩ := List.mem_map.mp hrow
    rw [mem_choices] at hchoice
    exact ((joined_perm _).map _).trans (flatten_points ih hchoice)

theorem Expands.row_sorted {key : String} {points : List String} {rows : List SelectionRow}
    (h : Expands engine policies family limits key points rows) :
    ∀ row ∈ rows, row.Pairwise fun a b => a.pointId ≤ b.pointId := by
  intro row hrow
  cases h with
  | fixed hpolicy =>
    rw [List.mem_singleton] at hrow
    subst hrow
    exact List.pairwise_singleton _ _
  | enumerate hpolicy hpoint houtcomes =>
    obtain ⟨outcome, -, rfl⟩ := List.mem_map.mp hrow
    exact List.pairwise_singleton _ _
  | product factors hpolicy hrefs hfactors hlimit =>
    obtain ⟨choice, -, rfl⟩ := List.mem_map.mp hrow
    exact sortBy_pairwise _ _

/-! ## The number of rows -/

theorem joinedRows_length (factors : List Factor) :
    (joinedRows factors).length = (factors.map fun f => f.rows.length).prod := by
  rw [joinedRows, List.length_map, length_choices, List.map_map]
  rfl

theorem Registry.factors_prod (hregistry : Registry policies) {key policyId : String}
    {purpose : SelectionPurpose} {refs : List String} {bound : ℕ} {factors : List Factor}
    (hpolicy : policies.get? key = some (.product policyId purpose refs bound))
    (hrefs : factors.map Factor.policyId = sortBy id refs)
    (hlengths : ∀ f ∈ factors, f.rows.length = boundOf policies f.policyId) :
    (factors.map fun f => f.rows.length).prod = bound := by
  have hbounds : (factors.map fun f => f.rows.length) =
      (factors.map Factor.policyId).map (boundOf policies) := by
    rw [List.map_map]
    exact List.map_congr_left hlengths
  rw [hbounds, hrefs, hregistry.bounds hpolicy]
  exact ((sortBy_perm id refs).map _).prod_eq

variable {orders : VersionOrders} {spec : ExperimentSpec} {points : List String}

variable {rows : List SelectionRow}

theorem Expands.length_eq (haccepted : Accepted orders spec family) {key : String}
    (h : Expands engine spec.runPlan.selectionPolicies family limits key points rows) :
    rows.length = boundOf spec.runPlan.selectionPolicies key := by
  induction h with
  | fixed hpolicy =>
    rw [boundOf_eq hpolicy]
    exact (haccepted.registry.fixed _ _ _ _ _ _ hpolicy).symm
  | enumerate hpolicy hpoint houtcomes =>
    rw [boundOf_eq hpolicy, List.length_map]
    exact (haccepted.enumerated hpolicy hpoint houtcomes).1
  | product factors hpolicy hrefs hfactors hlimit ih =>
    rw [boundOf_eq hpolicy, joinedRows_length]
    exact haccepted.registry.factors_prod hpolicy hrefs ih

theorem Registry.boundOf_pos (hregistry : Registry policies) {id : String}
    (h : ∃ policy, policies.get? id = some policy) : 1 ≤ boundOf policies id := by
  obtain ⟨policy, hpolicy⟩ := h
  rw [boundOf_eq hpolicy]
  exact hregistry.positive id policy hpolicy

variable {factors : List Factor}

theorem Registry.factors_pos (hregistry : Registry policies) {key policyId : String}
    {purpose : SelectionPurpose} {refs : List String} {bound : ℕ}
    (hpolicy : policies.get? key = some (.product policyId purpose refs bound))
    (hrefs : factors.map Factor.policyId = sortBy id refs)
    (hlengths : ∀ f ∈ factors, f.rows.length = boundOf policies f.policyId) :
    (∀ f ∈ factors, 1 ≤ f.rows.length) ∧ factors ≠ [] := by
  obtain ⟨hfull, hdeclared⟩ := hregistry.refs _ _ _ _ _ hpolicy
  constructor
  · intro f hf
    rw [hlengths f hf]
    have hmem : f.policyId ∈ sortBy id refs := hrefs ▸ List.mem_map_of_mem hf
    exact hregistry.boundOf_pos (hdeclared _ ((sortBy_perm id refs).mem_iff.mp hmem))
  · rintro rfl
    have hnil : sortBy id refs = [] := hrefs.symm
    have hperm := sortBy_perm id refs
    rw [hnil] at hperm
    exact hfull hperm.symm.eq_nil

theorem productCardinality_ok_iff {limit cardinality : ℕ} {policyId : String} {lengths : List ℕ}
    (hcardinality : 0 < cardinality) (hlengths : ∀ n ∈ lengths, 1 ≤ n) (count : ℕ) :
    productCardinality limit policyId cardinality lengths = .ok count ↔
      count = cardinality * lengths.prod ∧
        (lengths ≠ [] → cardinality * lengths.prod ≤ limit) := by
  induction lengths generalizing cardinality with
  | nil =>
    rw [productCardinality, List.prod_nil, Nat.mul_one]
    constructor
    · intro h
      cases h
      exact ⟨rfl, fun hne => absurd rfl hne⟩
    · rintro ⟨rfl, -⟩
      rfl
  | cons n rest ih =>
    rw [List.forall_mem_cons] at hlengths
    have hpos : 0 < cardinality * n := Nat.mul_pos hcardinality hlengths.1
    have hrest : 1 ≤ rest.prod := List.prod_pos_iff_forall_pos_nat.mpr hlengths.2
    simp only [productCardinality, bind_eq_ok_iff, failIf_eq_ok_iff, not_lt,
      ih hpos hlengths.2, Nat.le_div_iff_mul_le hcardinality, List.prod_cons]
    rw [Nat.mul_comm n cardinality, ← Nat.mul_assoc]
    constructor
    · rintro ⟨_, hfirst, hcount, hlater⟩
      refine ⟨hcount, fun _ => ?_⟩
      cases rest with
      | nil =>
        rw [List.prod_nil, Nat.mul_one]
        exact hfirst
      | cons m later => exact hlater (List.cons_ne_nil m later)
    · rintro ⟨hcount, hlimit⟩
      have htotal := hlimit (List.cons_ne_nil n rest)
      have hfirst : cardinality * n ≤ cardinality * n * rest.prod :=
        Nat.le_mul_of_pos_right _ hrest
      exact ⟨(), le_trans hfirst htotal, hcount, fun _ => htotal⟩

/-! ## The compiler computes the expansion -/

theorem productRows_ok_iff {limit bound : ℕ} {policyId : String}
    (hfactors : ∀ f ∈ factors, ∀ row ∈ f.rows,
      (row.map ResolvedSelection.pointId).Perm f.points)
    (hpositive : ∀ f ∈ factors, 1 ≤ f.rows.length) (hfull : factors ≠ [])
    (hbound : (factors.map fun f => f.rows.length).prod = bound) (rows : List SelectionRow) :
    productRows limit policyId bound (factors.map Factor.rows) = .ok rows ↔
      (factors.map fun f => f.rows.length).prod ≤ limit ∧
        (factors.flatMap Factor.points).Nodup ∧ rows = joinedRows factors := by
  have hlengths : (factors.map Factor.rows).map List.length =
      factors.map fun f => f.rows.length := by
    rw [List.map_map]
    rfl
  have hones : ∀ n ∈ factors.map fun f => f.rows.length, 1 ≤ n := by
    intro n hn
    obtain ⟨f, hf, rfl⟩ := List.mem_map.mp hn
    exact hpositive f hf
  have hne : (factors.map fun f => f.rows.length) ≠ [] := by
    intro hnil
    exact hfull (List.map_eq_nil_iff.mp hnil)
  -- The points of one choice are those of every choice, and there is a choice.
  have hpoints : (∀ choice ∈ choices (factors.map Factor.rows), PointsDistinct choice.flatten) ↔
      (factors.flatMap Factor.points).Nodup := by
    have hperm : ∀ choice ∈ choices (factors.map Factor.rows),
        (choice.flatten.map ResolvedSelection.pointId).Perm (factors.flatMap Factor.points) :=
      fun choice hchoice => flatten_points hfactors ((mem_choices _ _).mp hchoice)
    constructor
    · intro hdistinct
      have hsome : choices (factors.map Factor.rows) ≠ [] := by
        rw [← List.length_pos_iff, length_choices, hlengths]
        exact List.prod_pos_iff_forall_pos_nat.mpr hones
      obtain ⟨choice, hchoice⟩ := List.exists_mem_of_ne_nil _ hsome
      exact (hperm choice hchoice).nodup_iff.mp (hdistinct choice hchoice)
    · intro hnodup choice hchoice
      exact (hperm choice hchoice).nodup_iff.mpr hnodup
  have hmerge : ∀ choice ∈ choices (factors.map Factor.rows), ∀ row,
      choice.foldlM mergeRows [] = .ok row ↔
        PointsDistinct choice.flatten ∧ row = joined choice.flatten :=
    fun choice _ row => mergeCombination_ok_iff choice row
  simp only [productRows, bind_eq_ok_iff, hlengths,
    productCardinality_ok_iff Nat.one_pos hones, failIf_eq_ok_iff, not_not, Nat.one_mul, hbound]
  rw [← hbound]
  constructor
  · rintro ⟨_, ⟨-, hlimit⟩, _, -, hrows⟩
    obtain ⟨hdistinct, hrows⟩ := (mapM_eq_ok_iff_map hmerge rows).mp hrows
    exact ⟨hlimit hne, hpoints.mp hdistinct, hrows⟩
  · rintro ⟨hlimit, hnodup, hrows⟩
    exact ⟨_, ⟨rfl, fun _ => hlimit⟩, (), rfl,
      (mapM_eq_ok_iff_map hmerge rows).mpr ⟨hpoints.mpr hnodup, hrows⟩⟩

theorem exists_factors {P : String → List String → List SelectionRow → Prop} {ids : List String}
    {childRows : List (List SelectionRow)}
    (h : List.Forall₂ (fun id rows => ∃ points, P id points rows) ids childRows) :
    ∃ factors : List Factor, factors.map Factor.policyId = ids ∧
      factors.map Factor.rows = childRows ∧ ∀ f ∈ factors, P f.policyId f.points f.rows := by
  induction h with
  | nil => exact ⟨[], rfl, rfl, fun _ hmem => absurd hmem List.not_mem_nil⟩
  | @cons policyId rows ids childRows hfirst _ ih =>
    obtain ⟨points, hpoints⟩ := hfirst
    obtain ⟨factors, rfl, rfl, hfactors⟩ := ih
    exact ⟨⟨policyId, points, rows⟩ :: factors, rfl, rfl, List.forall_mem_cons.mpr ⟨hpoints, hfactors⟩⟩

theorem expands_of_staticRows (haccepted : Accepted orders spec family) {depth : ℕ} {key : String}
    (h : staticRows engine spec.runPlan.selectionPolicies family limits depth key = .ok rows) :
    ∃ points, Expands engine spec.runPlan.selectionPolicies family limits key points rows ∧
      points.Nodup := by
  induction depth generalizing key rows with
  | zero => cases h
  | succ depth ih =>
    rw [staticRows] at h
    cases hpolicy : spec.runPlan.selectionPolicies.get? key with
    | none =>
      rw [hpolicy] at h
      cases h
    | some policy =>
      rw [hpolicy] at h
      cases policy with
      | fixed id purpose pointRef outcome bound =>
        cases h
        exact ⟨[pointRef], .fixed hpolicy, List.nodup_singleton _⟩
      | enumerate id purpose pointRef bound =>
        simp only [familyPoint, bind_eq_ok_iff] at h
        obtain ⟨point, hpoint, outcomes, houtcomes, hrows⟩ := h
        cases hrows
        cases hfound : family.variationPoints.get? pointRef with
        | none =>
          rw [hfound] at hpoint
          cases hpoint
        | some found =>
          rw [hfound] at hpoint
          cases hpoint
          exact ⟨[pointRef], .enumerate hpolicy hfound houtcomes, List.nodup_singleton _⟩
      | product id purpose refs bound =>
        simp only [bind_eq_ok_iff, mapM_eq_ok_iff] at h
        obtain ⟨childRows, hchildren, hrows⟩ := h
        obtain ⟨factors, hrefs, rfl, hfactors⟩ :=
          exists_factors (hchildren.imp fun _ _ hchild => ih hchild)
        have hlengths : ∀ f ∈ factors,
            f.rows.length = boundOf spec.runPlan.selectionPolicies f.policyId :=
          fun f hf => (hfactors f hf).1.length_eq haccepted
        have hbound := haccepted.registry.factors_prod hpolicy hrefs hlengths
        obtain ⟨hpositive, hfull⟩ := haccepted.registry.factors_pos hpolicy hrefs hlengths
        obtain ⟨hlimit, hnodup, rfl⟩ := (productRows_ok_iff
          (fun f hf => (hfactors f hf).1.row_points) hpositive hfull hbound rows).mp hrows
        exact ⟨_, .product factors hpolicy hrefs (fun f hf => (hfactors f hf).1) hlimit, hnodup⟩
      | stratified id purpose pointRef outcomes strata bound => cases h
      | sample id purpose pointRef count bound control => cases h

/-- An expansion without a repeated point is computed, at any depth that the
nesting does not exceed. -/
theorem Expands.staticRows_ok (haccepted : Accepted orders spec family) {key : String}
    (h : Expands engine spec.runPlan.selectionPolicies family limits key points rows)
    (hnodup : points.Nodup) {depth : ℕ}
    (hdepth : Graph.walks (productGraph spec.runPlan.selectionPolicies) depth key = false) :
    staticRows engine spec.runPlan.selectionPolicies family limits (depth + 1) key = .ok rows := by
  induction h generalizing depth with
  | fixed hpolicy => rw [staticRows, hpolicy]
  | enumerate hpolicy hpoint houtcomes =>
    rw [staticRows, hpolicy]
    simp only [familyPoint, hpoint, bind_eq_ok_iff]
    exact ⟨_, rfl, _, houtcomes, rfl⟩
  | @product key policyId purpose refs bound factors hpolicy hrefs hfactors hlimit ih =>
    have hnode : (productGraph spec.runPlan.selectionPolicies).get? key = some refs := by
      rw [productGraph, Dict.get?_mapValues, Dict.get?_filterValues, hpolicy]
      rfl
    cases depth with
    | zero =>
      rw [Graph.walks, Dict.contains, hnode] at hdepth
      cases hdepth
    | succ depth =>
      have hchildren : ∀ f ∈ factors,
          Graph.walks (productGraph spec.runPlan.selectionPolicies) depth f.policyId = false := by
        intro f hf
        rw [Bool.eq_false_iff]
        intro hwalk
        have hmem : f.policyId ∈ sortBy id refs := hrefs ▸ List.mem_map_of_mem hf
        have hlong := (Graph.walks_succ_iff depth key).mpr
          ⟨f.policyId, ⟨refs, hnode, (sortBy_perm id refs).mem_iff.mp hmem⟩, hwalk⟩
        rw [hdepth] at hlong
        cases hlong
      have hpart : ∀ f ∈ factors, f.points.Nodup := by
        intro f hf
        rw [List.nodup_flatMap] at hnodup
        exact hnodup.1 f hf
      have hlengths : ∀ f ∈ factors,
          f.rows.length = boundOf spec.runPlan.selectionPolicies f.policyId :=
        fun f hf => (hfactors f hf).length_eq haccepted
      obtain ⟨hpositive, hfull⟩ := haccepted.registry.factors_pos hpolicy hrefs hlengths
      rw [staticRows, hpolicy]
      simp only [bind_eq_ok_iff, mapM_eq_ok_iff]
      refine ⟨factors.map Factor.rows, ?_, ?_⟩
      · rw [← hrefs, List.forall₂_map_left_iff, List.forall₂_map_right_iff, List.forall₂_same]
        intro f hf
        exact ih f hf (hpart f hf) (hchildren f hf)
      · exact (productRows_ok_iff (fun f hf => (hfactors f hf).row_points) hpositive hfull
          (haccepted.registry.factors_prod hpolicy hrefs hlengths) _).mpr ⟨hlimit, hnodup, rfl⟩

/-- No nesting of an accepted registry is deeper than the compiler's recursion. -/
theorem Registry.walks_eq_false (hregistry : Registry policies) (key : String) :
    Graph.walks (productGraph policies) policies.entries.length key = false := by
  apply Graph.walks_eq_false hregistry.acyclic
  rw [productGraph, Dict.keys_mapValues, Dict.keys, List.length_map]
  exact List.length_filter_le _ _

/-- `_static_rows` of a policy. -/
def policyRows (engine : CompilerEngine) (policies : Dict String SelectionPolicy)
    (family : ScenarioFamily) (limits : CompilationLimits) (key : String) :
    Except CompileError (List SelectionRow) :=
  staticRows engine policies family limits (nestingDepth policies) key

/-- The compiler computes exactly the expansions that repeat no point. -/
theorem policyRows_ok_iff (haccepted : Accepted orders spec family) (key : String)
    (rows : List SelectionRow) :
    policyRows engine spec.runPlan.selectionPolicies family limits key = .ok rows ↔
      ∃ points, Expands engine spec.runPlan.selectionPolicies family limits key points rows ∧
        points.Nodup := by
  constructor
  · exact expands_of_staticRows haccepted
  · rintro ⟨points, hexpands, hnodup⟩
    exact hexpands.staticRows_ok haccepted hnodup (haccepted.registry.walks_eq_false key)

/-! ## No row is lost or repeated -/

theorem filter_points_eq {row rest : SelectionRow} (hrow :
    (row.map ResolvedSelection.pointId).Perm points) (hrest : ∀ s ∈ rest, s.pointId ∉ points) :
    (row ++ rest).filter (fun s => s.pointId ∈ points) = row := by
  have hkept : row.filter (fun s => s.pointId ∈ points) = row := by
    rw [List.filter_eq_self]
    intro s hs
    exact decide_eq_true (hrow.mem_iff.mp (List.mem_map_of_mem hs))
  have hdropped : rest.filter (fun s => s.pointId ∈ points) = [] := by
    rw [List.filter_eq_nil_iff]
    intro s hs hin
    exact hrest s hs (of_decide_eq_true hin)
  rw [List.filter_append, hkept, hdropped, List.append_nil]

theorem filter_not_points_eq {row rest : SelectionRow} (hrow :
    (row.map ResolvedSelection.pointId).Perm points) (hrest : ∀ s ∈ rest, s.pointId ∉ points) :
    (row ++ rest).filter (fun s => ¬ s.pointId ∈ points) = rest := by
  have hdropped : row.filter (fun s => ¬ s.pointId ∈ points) = [] := by
    rw [List.filter_eq_nil_iff]
    intro s hs hout
    exact of_decide_eq_true hout (hrow.mem_iff.mp (List.mem_map_of_mem hs))
  have hkept : rest.filter (fun s => ¬ s.pointId ∈ points) = rest := by
    rw [List.filter_eq_self]
    intro s hs
    exact decide_eq_true (hrest s hs)
  rw [List.filter_append, hdropped, hkept, List.nil_append]

theorem choice_eq_of_flatten_perm (hpoints : ∀ f ∈ factors, ∀ row ∈ f.rows,
      (row.map ResolvedSelection.pointId).Perm f.points)
    (hsorted : ∀ f ∈ factors, ∀ row ∈ f.rows, row.Pairwise fun a b => a.pointId ≤ b.pointId)
    (hnodup : (factors.flatMap Factor.points).Nodup) {a b : List SelectionRow}
    (ha : List.Forall₂ (· ∈ ·) a (factors.map Factor.rows))
    (hb : List.Forall₂ (· ∈ ·) b (factors.map Factor.rows))
    (hperm : a.flatten.Perm b.flatten) : a = b := by
  induction factors generalizing a b with
  | nil =>
    cases ha
    cases hb
    rfl
  | cons f rest ih =>
    cases ha with
    | @cons rowA _ choiceA _ hrowA hrestA =>
      cases hb with
      | @cons rowB _ choiceB _ hrowB hrestB =>
        rw [List.forall_mem_cons] at hpoints hsorted
        rw [List.flatMap_cons, List.nodup_append] at hnodup
        obtain ⟨hpart, hlater, hdisjoint⟩ := hnodup
        -- The later factors select none of the points of the first.
        have houtside : ∀ choice, List.Forall₂ (· ∈ ·) choice (rest.map Factor.rows) →
            ∀ s ∈ choice.flatten, s.pointId ∉ f.points := by
          intro choice hchoice s hs hin
          have hmem : s.pointId ∈ rest.flatMap Factor.points :=
            (flatten_points hpoints.2 hchoice).mem_iff.mp (List.mem_map_of_mem hs)
          exact hdisjoint _ hin _ hmem rfl
        have houtA := houtside choiceA hrestA
        have houtB := houtside choiceB hrestB
        rw [List.flatten_cons, List.flatten_cons] at hperm
        have hrow : rowA.Perm rowB := by
          have hfiltered := hperm.filter fun s => s.pointId ∈ f.points
          rwa [filter_points_eq (hpoints.1 _ hrowA) houtA,
            filter_points_eq (hpoints.1 _ hrowB) houtB] at hfiltered
        have hrests : choiceA.flatten.Perm choiceB.flatten := by
          have hfiltered := hperm.filter fun s => ¬ s.pointId ∈ f.points
          rwa [filter_not_points_eq (hpoints.1 _ hrowA) houtA,
            filter_not_points_eq (hpoints.1 _ hrowB) houtB] at hfiltered
        have hdistinct : PointsDistinct rowA := (hpoints.1 _ hrowA).nodup_iff.mpr hpart
        rw [eq_of_perm_of_pairwise_le hrow hdistinct (hsorted.1 _ hrowA) (hsorted.1 _ hrowB),
          ih hpoints.2 hsorted.2 hlater hrestA hrestB hrests]

theorem Expands.rows_nodup (haccepted : Accepted orders spec family) {key : String}
    (h : Expands engine spec.runPlan.selectionPolicies family limits key points rows)
    (hnodup : points.Nodup) : rows.Nodup := by
  induction h with
  | fixed hpolicy => exact List.nodup_singleton _
  | enumerate hpolicy hpoint houtcomes =>
    apply (haccepted.enumerated hpolicy hpoint houtcomes).2.map
    intro a b hab
    exact (ResolvedSelection.mk.inj (List.cons.inj hab).1).2.2.2
  | product factors hpolicy hrefs hfactors hlimit ih =>
    have hpart : ∀ f ∈ factors, f.points.Nodup := by
      intro f hf
      rw [List.nodup_flatMap] at hnodup
      exact hnodup.1 f hf
    have hrows : ∀ rows ∈ factors.map Factor.rows, rows.Nodup := by
      intro rows hmem
      obtain ⟨f, hf, rfl⟩ := List.mem_map.mp hmem
      exact ih f hf (hpart f hf)
    apply (nodup_choices hrows).map_on
    intro a ha b hb hjoined
    rw [mem_choices] at ha hb
    have hperm : a.flatten.Perm b.flatten :=
      (joined_perm _).symm.trans (hjoined ▸ joined_perm _)
    exact choice_eq_of_flatten_perm (fun f hf => (hfactors f hf).row_points)
      (fun f hf => (hfactors f hf).row_sorted) hnodup ha hb hperm

end Raes.Trial
