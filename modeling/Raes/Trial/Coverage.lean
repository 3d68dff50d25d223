import Raes.Trial.Expansion

/-!
# Coordinate selections cover the policy space

For an accepted registry of fixed, enumerate and product policies the compiler
answers exactly when the roots select every point of the family once and have one
row for each coordinate; then it returns these rows.
-/

namespace Raes.Trial

variable {engine : CompilerEngine} {policies : Dict String SelectionPolicy}
  {family : ScenarioFamily} {limits : CompilationLimits} {orders : VersionOrders}
  {spec : ExperimentSpec} {coordinates : List TrialCoordinate}

/-- A registry of policies whose rows do not depend on the coordinates. -/
def StaticPolicies (policies : Dict String SelectionPolicy) : Prop :=
  ∀ policy ∈ policies.values, policy.isStatic = true

def fixedPoints (policies : Dict String SelectionPolicy) : List String :=
  (fixedAdditions policies).map ResolvedSelection.pointId

def ExactlyFamily (family : ScenarioFamily) (points : List String) : Prop :=
  points.Perm family.variationPoints.keys

theorem ExactlyFamily.nodup {points : List String} (h : ExactlyFamily family points) :
    points.Nodup :=
  h.nodup_iff.mpr family.variationPoints.keys_nodup

/-! ## Completing the rows -/

theorem completeRow_ok_iff {row : CoordinateSelections} (hrow : PointsDistinct row.selections)
    (completed : CoordinateSelections) :
    completeRow policies row = .ok completed ↔
      PointsDistinct (row.selections ++ fixedAdditions policies) ∧
        completed = ⟨joined (row.selections ++ fixedAdditions policies), row.draws⟩ := by
  simp only [completeRow, bind_eq_ok_iff, mergeRows_ok_iff hrow]
  constructor
  · rintro ⟨selections, ⟨hdistinct, rfl⟩, hcompleted⟩
    cases hcompleted
    exact ⟨hdistinct, rfl⟩
  · rintro ⟨hdistinct, rfl⟩
    exact ⟨_, ⟨hdistinct, rfl⟩, rfl⟩

theorem coversFamily_iff {row : CoordinateSelections} (hrow : PointsDistinct row.selections) :
    CoversFamily family row ↔
      ExactlyFamily family (row.selections.map ResolvedSelection.pointId) := by
  unfold CoversFamily ExactlyFamily
  rw [List.perm_ext_iff_of_nodup hrow family.variationPoints.keys_nodup]
  constructor
  · rintro ⟨hsub, hall⟩ point
    constructor
    · intro hmem
      obtain ⟨s, hs, rfl⟩ := List.mem_map.mp hmem
      exact hsub s hs
    · exact hall point
  · intro hsame
    exact ⟨fun s hs => (hsame s.pointId).mp (List.mem_map_of_mem hs),
      fun point hpoint => (hsame point).mpr hpoint⟩

/-- Rows that all select the same points are completed exactly when these are the
points of the family that the fixed roots leave. -/
theorem completeRows_ok_iff {base result : List CoordinateSelections} {points : List String}
    (hbase : base ≠ []) (hnodup : points.Nodup)
    (hpoints : ∀ row ∈ base, (row.selections.map ResolvedSelection.pointId).Perm points) :
    (base.mapM (completeRow policies) = .ok result ∧
        ¬ ∃ row ∈ result, ¬ CoversFamily family row) ↔
      ExactlyFamily family (points ++ fixedPoints policies) ∧
        result = base.map fun row =>
          ⟨joined (row.selections ++ fixedAdditions policies), row.draws⟩ := by
  have hrow : ∀ row ∈ base, PointsDistinct row.selections := fun row hrow =>
    (hpoints row hrow).nodup_iff.mpr hnodup
  have hjoined : ∀ row ∈ base, ((joined (row.selections ++ fixedAdditions policies)).map
      ResolvedSelection.pointId).Perm (points ++ fixedPoints policies) := by
    intro row hmem
    apply ((joined_perm _).map _).trans
    rw [List.map_append]
    exact (hpoints row hmem).append_right _
  rw [mapM_eq_ok_iff_map fun row hmem => completeRow_ok_iff (hrow row hmem)]
  constructor
  · rintro ⟨⟨hdistinct, rfl⟩, hcovered⟩
    refine ⟨?_, rfl⟩
    obtain ⟨row, hmem⟩ := List.exists_mem_of_ne_nil base hbase
    have hcover : CoversFamily family
        ⟨joined (row.selections ++ fixedAdditions policies), row.draws⟩ := by
      by_contra hout
      exact hcovered ⟨_, List.mem_map_of_mem hmem, hout⟩
    rw [coversFamily_iff ((hdistinct row hmem).perm (joined_perm _).symm)] at hcover
    exact (hjoined row hmem).symm.trans hcover
  · rintro ⟨hexact, rfl⟩
    have hdistinct : ∀ row ∈ base,
        PointsDistinct (row.selections ++ fixedAdditions policies) := fun row hmem =>
      PointsDistinct.perm ((hjoined row hmem).nodup_iff.mpr hexact.nodup) (joined_perm _)
    refine ⟨⟨hdistinct, rfl⟩, ?_⟩
    rintro ⟨completed, hmem, hout⟩
    obtain ⟨row, hrowmem, rfl⟩ := List.mem_map.mp hmem
    apply hout
    rw [coversFamily_iff ((hdistinct row hrowmem).perm (joined_perm _).symm)]
    exact (hjoined row hrowmem).trans hexact

/-! ## The roots -/

theorem mem_policyRoots {root : String} (h : root ∈ policyRoots policies) :
    ∃ policy, policies.get? root = some policy := by
  have hmem := (sortBy_perm id _).mem_iff.mp h
  rw [List.mem_filter] at hmem
  exact Dict.mem_keys_iff.mp hmem.1

theorem rootRows_ok_iff (haccepted : Accepted orders spec family)
    (hstatic : StaticPolicies spec.runPlan.selectionPolicies) {root : String}
    (hroot : ∃ policy, spec.runPlan.selectionPolicies.get? root = some policy)
    (base : List CoordinateSelections) :
    rootRows engine spec.runPlan.selectionPolicies family limits coordinates root = .ok base ↔
      ∃ rows, policyRows engine spec.runPlan.selectionPolicies family limits root = .ok rows ∧
        rows.length = coordinates.length ∧ base = rows.map fun row => ⟨row, []⟩ := by
  obtain ⟨policy, hpolicy⟩ := hroot
  have hkind := hstatic policy (Dict.mem_values_iff.mpr ⟨root, hpolicy⟩)
  have hkey : policy.policyId = root := haccepted.registry.keys root policy hpolicy
  have hstep : rootRows engine spec.runPlan.selectionPolicies family limits coordinates root =
      (do
        let rows ← policyRows engine spec.runPlan.selectionPolicies family limits root
        failIf (rows.length ≠ coordinates.length) "policy-cardinality-mismatch"
          (policyAddress root)
          "selection policy output does not exactly cover the logical coordinates"
        return rows.map fun row => ⟨row, []⟩) := by
    rw [rootRows, hpolicy, ← hkey]
    cases policy with
    | fixed | enumerate | product => rfl
    | stratified | sample => cases hkind
  rw [hstep]
  simp only [bind_eq_ok_iff, failIf_eq_ok_iff, not_not]
  constructor
  · rintro ⟨rows, hrows, _, hlength, hbase⟩
    cases hbase
    exact ⟨rows, hrows, hlength, rfl⟩
  · rintro ⟨rows, hrows, hlength, rfl⟩
    exact ⟨rows, hrows, (), hlength, rfl⟩

/-- What a registry compiles to: the rows of its one root that is not fixed, or an
empty row for each coordinate, each joined with the selections of the fixed roots. -/
def CompilesTo (engine : CompilerEngine) (policies : Dict String SelectionPolicy)
    (family : ScenarioFamily) (limits : CompilationLimits) (coordinates : List TrialCoordinate)
    (result : List CoordinateSelections) : Prop :=
  match nonFixedRoots policies with
  | [] =>
    ExactlyFamily family (fixedPoints policies) ∧
      result = coordinates.map fun _ => ⟨joined (fixedAdditions policies), []⟩
  | [root] =>
    ∃ points rows, Expands engine policies family limits root points rows ∧
      rows.length = coordinates.length ∧
      ExactlyFamily family (points ++ fixedPoints policies) ∧
      result = rows.map fun row => ⟨joined (row ++ fixedAdditions policies), []⟩
  | _ => False

theorem compileCoordinateSelections_ok_iff (haccepted : Accepted orders spec family)
    (hstatic : StaticPolicies spec.runPlan.selectionPolicies) (hcoordinates : coordinates ≠ [])
    (result : List CoordinateSelections) :
    compileCoordinateSelections engine spec.runPlan.selectionPolicies family limits coordinates =
        .ok result ↔
      CompilesTo engine spec.runPlan.selectionPolicies family limits coordinates result := by
  have hcompile : compileCoordinateSelections engine spec.runPlan.selectionPolicies family limits
        coordinates = .ok result ↔
      (nonFixedRoots spec.runPlan.selectionPolicies).length ≤ 1 ∧
        ∃ base, baseRows engine spec.runPlan.selectionPolicies family limits coordinates =
            .ok base ∧
          base.mapM (completeRow spec.runPlan.selectionPolicies) = .ok result ∧
          ¬ ∃ row ∈ result, ¬ CoversFamily family row := by
    simp only [compileCoordinateSelections, bind_eq_ok_iff, failIf_eq_ok_iff, not_lt]
    constructor
    · rintro ⟨_, hroots, base, hbase, completed, hcompleted, _, hcovered, hresult⟩
      cases hresult
      exact ⟨hroots, base, hbase, hcompleted, hcovered⟩
    · rintro ⟨hroots, base, hbase, hcompleted, hcovered⟩
      exact ⟨(), hroots, base, hbase, result, hcompleted, (), hcovered, rfl⟩
  rw [hcompile]
  unfold CompilesTo baseRows
  have hmem : ∀ root ∈ nonFixedRoots spec.runPlan.selectionPolicies,
      ∃ policy, spec.runPlan.selectionPolicies.get? root = some policy :=
    fun root hroot => mem_policyRoots (List.mem_filter.mp hroot).1
  cases hroots : nonFixedRoots spec.runPlan.selectionPolicies with
  | nil =>
    have hbase : (coordinates.map fun _ => (⟨[], []⟩ : CoordinateSelections)) ≠ [] := by
      intro hnil
      exact hcoordinates (List.map_eq_nil_iff.mp hnil)
    have hpoints : ∀ row ∈ coordinates.map fun _ => (⟨[], []⟩ : CoordinateSelections),
        (row.selections.map ResolvedSelection.pointId).Perm [] := by
      intro row hrow
      obtain ⟨_, -, rfl⟩ := List.mem_map.mp hrow
      exact List.Perm.refl _
    constructor
    · rintro ⟨-, base, hrows, hcompleted, hcovered⟩
      cases hrows
      obtain ⟨hexact, rfl⟩ :=
        (completeRows_ok_iff hbase List.nodup_nil hpoints).mp ⟨hcompleted, hcovered⟩
      refine ⟨hexact, ?_⟩
      rw [List.map_map]
      rfl
    · rintro ⟨hexact, rfl⟩
      refine ⟨Nat.zero_le 1, _, rfl, ?_⟩
      apply (completeRows_ok_iff hbase List.nodup_nil hpoints).mpr
      refine ⟨hexact, ?_⟩
      rw [List.map_map]
      rfl
  | cons root rest =>
    cases rest with
    | cons second later =>
      constructor
      · rintro ⟨hlength, -⟩
        rw [List.length_cons, List.length_cons] at hlength
        omega
      · intro h
        cases h
    | nil =>
      have hroot := hmem root (hroots ▸ List.mem_singleton_self root)
      simp only [rootRows_ok_iff haccepted hstatic hroot, policyRows_ok_iff haccepted]
      have hcomplete : ∀ points rows,
          Expands engine spec.runPlan.selectionPolicies family limits root points rows →
          points.Nodup → rows.length = coordinates.length →
          ((rows.map fun row => (⟨row, []⟩ : CoordinateSelections)).mapM
              (completeRow spec.runPlan.selectionPolicies) = .ok result ∧
            ¬ (∃ row ∈ result, ¬ CoversFamily family row) ↔
          ExactlyFamily family (points ++ fixedPoints spec.runPlan.selectionPolicies) ∧
            result = rows.map fun row =>
              ⟨joined (row ++ fixedAdditions spec.runPlan.selectionPolicies), []⟩) := by
        intro points rows hexpands hnodup hlength
        have hbase : (rows.map fun row => (⟨row, []⟩ : CoordinateSelections)) ≠ [] := by
          intro hnil
          rw [List.map_eq_nil_iff] at hnil
          rw [hnil] at hlength
          exact hcoordinates (List.eq_nil_of_length_eq_zero hlength.symm)
        have hpoints : ∀ row ∈ rows.map fun row => (⟨row, []⟩ : CoordinateSelections),
            (row.selections.map ResolvedSelection.pointId).Perm points := by
          intro row hrow
          obtain ⟨selections, hselections, rfl⟩ := List.mem_map.mp hrow
          exact hexpands.row_points selections hselections
        rw [completeRows_ok_iff hbase hnodup hpoints, List.map_map]
        exact Iff.rfl
      constructor
      · rintro ⟨-, base, ⟨rows, ⟨points, hexpands, hnodup⟩, hlength, rfl⟩, hcompleted⟩
        obtain ⟨hexact, hresult⟩ := (hcomplete points rows hexpands hnodup hlength).mp hcompleted
        exact ⟨points, rows, hexpands, hlength, hexact, hresult⟩
      · rintro ⟨points, rows, hexpands, hlength, hexact, hresult⟩
        have hnodup : points.Nodup := hexact.nodup.of_append_left
        exact ⟨Nat.le_refl 1, _, ⟨rows, ⟨points, hexpands, hnodup⟩, hlength, rfl⟩,
          (hcomplete points rows hexpands hnodup hlength).mpr ⟨hexact, hresult⟩⟩

/-! ## Coverage -/

/-- Every row selects each point of the family exactly once, and there is a row for
each coordinate. -/
theorem CompilesTo.covers {result : List CoordinateSelections}
    (h : CompilesTo engine policies family limits coordinates result) :
    result.length = coordinates.length ∧ ∀ row ∈ result,
      ExactlyFamily family (row.selections.map ResolvedSelection.pointId) := by
  unfold CompilesTo at h
  split at h
  · obtain ⟨hexact, rfl⟩ := h
    refine ⟨List.length_map _, ?_⟩
    intro row hrow
    obtain ⟨_, -, rfl⟩ := List.mem_map.mp hrow
    exact ((joined_perm _).map _).trans hexact
  · obtain ⟨points, rows, hexpands, hlength, hexact, rfl⟩ := h
    refine ⟨by rw [List.length_map, hlength], ?_⟩
    intro row hrow
    obtain ⟨selections, hselections, rfl⟩ := List.mem_map.mp hrow
    apply ((joined_perm _).map _).trans
    rw [List.map_append]
    exact ((hexpands.row_points selections hselections).append_right _).trans hexact
  · cases h

/-- The rows of a product policy are the joined combinations of the rows of its
factors, each once, as many as the bound that was computed before the expansion. -/
theorem product_policyRows (haccepted : Accepted orders spec family) {key policyId : String}
    {purpose : SelectionPurpose} {refs : List String} {bound : ℕ} {rows : List SelectionRow}
    (hpolicy : spec.runPlan.selectionPolicies.get? key =
      some (.product policyId purpose refs bound))
    (hrows : policyRows engine spec.runPlan.selectionPolicies family limits key = .ok rows) :
    ∃ childRows, List.Forall₂ (fun ref rows =>
        policyRows engine spec.runPlan.selectionPolicies family limits ref = .ok rows)
          (sortBy id refs) childRows ∧
      rows = (choices childRows).map (fun choice => joined choice.flatten) ∧ rows.Nodup ∧
      rows.length = bound ∧
      productOutputBound spec.runPlan.selectionPolicies 1 refs = .ok rows.length := by
  obtain ⟨points, hexpands, hnodup⟩ := (policyRows_ok_iff haccepted key rows).mp hrows
  have hlength : rows.length = bound := by
    rw [hexpands.length_eq haccepted, boundOf_eq hpolicy]
    rfl
  have hcomputed := haccepted.registry.computed _ _ _ _ _ hpolicy
  have hdistinct := hexpands.rows_nodup haccepted hnodup
  cases hexpands with
  | fixed hother =>
    rw [hpolicy] at hother
    cases hother
  | enumerate hother _ _ =>
    rw [hpolicy] at hother
    cases hother
  | product factors hsame hrefs hfactors hlimit =>
    rw [hpolicy] at hsame
    cases hsame
    refine ⟨factors.map Factor.rows, ?_, rfl, hdistinct, hlength, hlength ▸ hcomputed⟩
    rw [← hrefs, List.forall₂_map_left_iff, List.forall₂_map_right_iff, List.forall₂_same]
    intro f hf
    rw [List.nodup_flatMap] at hnodup
    exact (policyRows_ok_iff haccepted f.policyId f.rows).mpr
      ⟨f.points, hfactors f hf, hnodup.1 f hf⟩

/-- Coordinate selection covers exactly the space of an accepted registry. -/
theorem compiled_selections_cover (haccepted : Accepted orders spec family)
    (hstatic : StaticPolicies spec.runPlan.selectionPolicies) (hcoordinates : coordinates ≠ []) :
    (∀ result,
      compileCoordinateSelections engine spec.runPlan.selectionPolicies family limits
          coordinates = .ok result ↔
        CompilesTo engine spec.runPlan.selectionPolicies family limits coordinates result) ∧
    (∀ result,
      compileCoordinateSelections engine spec.runPlan.selectionPolicies family limits
          coordinates = .ok result →
        result.length = coordinates.length ∧ ∀ row ∈ result,
          ExactlyFamily family (row.selections.map ResolvedSelection.pointId)) ∧
    ∀ key policyId purpose refs bound rows,
      spec.runPlan.selectionPolicies.get? key = some (.product policyId purpose refs bound) →
      policyRows engine spec.runPlan.selectionPolicies family limits key = .ok rows →
        ∃ childRows, List.Forall₂ (fun ref rows =>
            policyRows engine spec.runPlan.selectionPolicies family limits ref = .ok rows)
              (sortBy id refs) childRows ∧
          rows = (choices childRows).map (fun choice => joined choice.flatten) ∧ rows.Nodup ∧
          rows.length = bound ∧
          productOutputBound spec.runPlan.selectionPolicies 1 refs = .ok rows.length := by
  refine ⟨compileCoordinateSelections_ok_iff haccepted hstatic hcoordinates, ?_, ?_⟩
  · intro result hresult
    exact ((compileCoordinateSelections_ok_iff haccepted hstatic hcoordinates result).mp
      hresult).covers
  · intro key policyId purpose refs bound rows hpolicy hrows
    exact product_policyRows haccepted hpolicy hrows

/-! ## Samples -/

/-- An engine for policies that sort no scalars and draw no samples. -/
def sampleEngine : CompilerEngine where
  canonicalText _ := .error (.valueError "no canonical text")
  draws _ _ _ _ _ := .error (.failure "sample-control-unresolved" selectionPoliciesAddress
    "sample policy control is not executable")

def sampleOrders : VersionOrders := ⟨fun _ _ => 0, fun _ _ => 0⟩

def sampleFamily : ScenarioFamily where
  name := "family"
  semanticValidated := true
  variationPoints := ⟨[("flag", .parameter (.boolean none)),
    ("route", .alternative ["east", "north", "west"]),
    ("scope", .governedReference ["host"])], by decide⟩

def sampleSpec (policies : Dict String SelectionPolicy) (runs : ℕ) : ExperimentSpec where
  runPlan := ⟨none, some runs, [], fun _ => .ok (), policies⟩
  intendedScenarioRef := some ("scenario", "family")
  bindingFamilies := []

/-- A product within a product, beside a fixed root. -/
def samplePolicies : Dict String SelectionPolicy :=
  ⟨[("all", .product "all" .nuisanceVariation ["routes", "flags"] 6),
    ("flags", .enumerate "flags" .nuisanceVariation "flag" 2),
    ("host", .fixed "host" .fixedConfiguration "scope" (.reference "host") 1),
    ("routes", .product "routes" .nuisanceVariation ["host", "ways"] 3),
    ("ways", .enumerate "ways" .nuisanceVariation "route" 3)], by decide⟩

theorem sampleFamily_valid :
    ∀ point ∈ sampleFamily.variationPoints.values, point.Valid sampleOrders := by
  intro point hpoint
  simp only [sampleFamily, Dict.values, List.map_cons, List.map_nil, List.mem_cons,
    List.not_mem_nil, or_false] at hpoint
  rcases hpoint with rfl | rfl | rfl
  · trivial
  · show ["east", "north", "west"].Nodup
    decide
  · show ["host"] ≠ [] ∧ ["host"].Nodup
    decide

theorem samplePolicies_accepted :
    Accepted sampleOrders (sampleSpec samplePolicies 6) sampleFamily where
  models := by decide +kernel
  plan := by decide +kernel
  points := sampleFamily_valid
  admission := by decide +kernel

theorem samplePolicies_static :
    StaticPolicies (sampleSpec samplePolicies 6).runPlan.selectionPolicies := by
  unfold StaticPolicies
  decide +kernel

def sampleCoordinates (runs : ℕ) : List TrialCoordinate :=
  (List.range runs).map fun i => ⟨none, toString i⟩

/-- Six coordinates select every combination of a flag and a route once. -/
theorem sample_selections_cover :
    ∃ result rows,
      compileCoordinateSelections sampleEngine samplePolicies sampleFamily ⟨10, 10⟩
          (sampleCoordinates 6) = .ok result ∧
        result.length = 6 ∧
        (∀ row ∈ result,
          ExactlyFamily sampleFamily (row.selections.map ResolvedSelection.pointId)) ∧
        policyRows sampleEngine samplePolicies sampleFamily ⟨10, 10⟩ "all" = .ok rows ∧
        rows.Nodup ∧ rows.length = 6 := by
  have hanswers : (compileCoordinateSelections sampleEngine samplePolicies sampleFamily ⟨10, 10⟩
      (sampleCoordinates 6)).toBool = true := by
    decide +kernel
  have hexpands : (policyRows sampleEngine samplePolicies sampleFamily ⟨10, 10⟩ "all").toBool =
      true := by
    decide +kernel
  obtain ⟨result, hresult⟩ := exists_ok_of_toBool hanswers
  obtain ⟨rows, hrows⟩ := exists_ok_of_toBool hexpands
  have hcoordinates : sampleCoordinates 6 ≠ [] := by decide
  obtain ⟨hlength, hcovers⟩ := (compiled_selections_cover samplePolicies_accepted
    samplePolicies_static hcoordinates).2.1 result hresult
  obtain ⟨_, -, -, hnodup, hbound, -⟩ := (compiled_selections_cover samplePolicies_accepted
    samplePolicies_static hcoordinates).2.2 "all" _ _ _ _ rows rfl hrows
  exact ⟨result, rows, hresult, hlength, hcovers, hrows, hnodup, hbound⟩

/-- A registry that leaves points of the family unselected. -/
def partialPolicies : Dict String SelectionPolicy :=
  ⟨[("host", .fixed "host" .fixedConfiguration "scope" (.reference "host") 1)], by decide⟩

theorem partialPolicies_accepted :
    Accepted sampleOrders (sampleSpec partialPolicies 1) sampleFamily where
  models := by decide +kernel
  plan := by decide +kernel
  points := sampleFamily_valid
  admission := by decide +kernel

/-- The validators accept a registry that the compiler refuses. -/
theorem accepted_not_compiled :
    compileCoordinateSelections sampleEngine partialPolicies sampleFamily ⟨10, 10⟩
        (sampleCoordinates 1) =
      .error (.failure "variation-points-uncovered" selectionPoliciesAddress
        "every family variation point must be selected exactly once") ∧
    ¬ ∀ (engine : CompilerEngine) (orders : VersionOrders) (spec : ExperimentSpec)
        (family : ScenarioFamily) (limits : CompilationLimits)
        (coordinates : List TrialCoordinate),
      Accepted orders spec family → StaticPolicies spec.runPlan.selectionPolicies →
      spec.runPlan.totalRuns = some coordinates.length →
      ∃ result, compileCoordinateSelections engine spec.runPlan.selectionPolicies family limits
        coordinates = .ok result := by
  have hrefused : (compileCoordinateSelections sampleEngine partialPolicies sampleFamily ⟨10, 10⟩
        (sampleCoordinates 1)) =
      .error (.failure "variation-points-uncovered" selectionPoliciesAddress
        "every family variation point must be selected exactly once") := by
    rfl
  refine ⟨hrefused, fun h => ?_⟩
  obtain ⟨result, hresult⟩ := h sampleEngine sampleOrders (sampleSpec partialPolicies 1)
    sampleFamily ⟨10, 10⟩ (sampleCoordinates 1) partialPolicies_accepted
    (by unfold StaticPolicies; decide +kernel) rfl
  have hsame := hrefused.symm.trans hresult
  cases hsame

end Raes.Trial
