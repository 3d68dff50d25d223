import Mathlib.Data.List.Perm.Subperm
import Raes.Composition.ClosureExact

/-!
# The nesting limit

`_begin_visit` compares `max_nested_profiles` with the profiles that are visited.
The profiles on the active path are not among them, so a closure may be larger
than the limit: a chain of any length is, whatever the limit.
-/

namespace Raes.Composition

open PyError DepthFirst ContextValidator

variable {ι : Type} [DecidableEq ι]

def Refuses (validator : ContextValidator ι) (profile : Profile ι) : Prop :=
  ∃ error, validator.resolveMixedCompositionProfiles profile = .error (some error)

/-- What the resolution of nested profiles is for.  It ends; what it returns is the closure
of the reconstructed root, each profile once and accepted; and it refuses a cycle, more
nested profiles than the limit, and more work than the limit. -/
structure ResolvesClosure (validator : ContextValidator ι) (profile : Profile ι) : Prop where
  terminates : validator.resolveMixedCompositionProfiles profile ≠ .error none
  exact : ∀ root result, validator.reconstruct profile = .ok root →
    validator.resolveMixedCompositionProfiles profile = .ok result →
    (result.map Profile.profileId).Pairwise (· < ·) ∧
    (∀ nested, nested ∈ result ↔ ∃ profileId, validator.Reachable root profileId ∧
      validator.profileOf root profileId = some nested) ∧
    (∀ profileId, validator.Reachable root profileId →
      ∃ nested, validator.profileOf root profileId = some nested) ∧
    ∀ nested ∈ result, validator.Accepted nested
  cycle : ∀ root profileId, validator.reconstruct profile = .ok root →
    validator.Reachable root profileId →
    Relation.TransGen (Edge (validator.childrenOf root)) profileId profileId →
    Refuses validator profile
  nested : ∀ root (profileIds : List String), validator.reconstruct profile = .ok root →
    profileIds.Nodup →
    (∀ profileId ∈ profileIds,
      Relation.TransGen (Edge (validator.childrenOf root)) root.profileId profileId) →
    validator.limits.maxNestedProfiles < profileIds.length → Refuses validator profile
  work : ∀ root (closure : List String), validator.reconstruct profile = .ok root →
    closure.Nodup → (∀ profileId, profileId ∈ closure ↔ validator.Reachable root profileId) →
    validator.limits.maxContextWork < validator.closureWork root closure →
    Refuses validator profile

/-- A closure that can be walked, depth first and in the order of the ids, with fewer than
`max_nested_profiles` profiles finished whenever one is entered, has no more nested
profiles than that. -/
def NestingCounted (validator : ContextValidator ι) (profile : Profile ι) : Prop :=
  ∀ root closure, validator.reconstruct profile = .ok root →
    validator.ClosesWithin root closure →
    closure.length ≤ validator.limits.maxNestedProfiles + 1

section Resolves

variable {validator : ContextValidator ι} {profile root : Profile ι}

/-- A resolution that does not refuse has a closure, with the list that it returns. -/
theorem refuses_or_closes (hroot : validator.reconstruct profile = .ok root) :
    Refuses validator profile ∨ ∃ closure result,
      validator.resolveMixedCompositionProfiles profile = .ok result ∧
      validator.ClosesWithin root closure ∧ validator.Lists root closure result := by
  cases h : validator.resolveMixedCompositionProfiles profile with
  | ok result =>
    obtain ⟨closure, hcloses, hlists⟩ := resolve_closes hroot h
    exact Or.inr ⟨closure, result, rfl, hcloses, hlists⟩
  | error error =>
    cases error with
    | none => exact absurd h (resolve_ne_spent profile)
    | some error => exact Or.inl ⟨error, h⟩

theorem ContextValidator.ClosesWithin.mem_iff {closure : List String} (h : validator.ClosesWithin root closure)
    (profileId : String) : profileId ∈ closure ↔ validator.Reachable root profileId :=
  h.1.closure.2.1 profileId

section

variable (hroot : validator.reconstruct profile = .ok root)
include hroot

theorem resolves_exact {result : List (Profile ι)}
    (h : validator.resolveMixedCompositionProfiles profile = .ok result) :
    (result.map Profile.profileId).Pairwise (· < ·) ∧
    (∀ nested, nested ∈ result ↔ ∃ profileId, validator.Reachable root profileId ∧
      validator.profileOf root profileId = some nested) ∧
    (∀ profileId, validator.Reachable root profileId →
      ∃ nested, validator.profileOf root profileId = some nested) ∧
    ∀ nested ∈ result, validator.Accepted nested := by
  obtain ⟨closure, hcloses, hlists⟩ := resolve_closes hroot h
  obtain ⟨-, hreached, -, hentered⟩ := hcloses.1.closure
  have hstands : ∀ profileId ∈ closure, ∃ nested,
      validator.profileOf root profileId = some nested ∧ validator.Accepted nested := by
    intro profileId hmem
    obtain ⟨before, -, nested, hnested, haccepted⟩ := hentered profileId hmem
    exact ⟨nested, hnested, haccepted⟩
  refine ⟨hlists.sorted, fun nested => ?_, fun profileId hreach => ?_, fun nested hmem => ?_⟩
  · rw [hlists.members]
    simp only [hreached, Reachable]
  · obtain ⟨nested, hnested, -⟩ := hstands profileId ((hreached profileId).mpr hreach)
    exact ⟨nested, hnested⟩
  · obtain ⟨profileId, hmem, hnested⟩ := (hlists.members nested).mp hmem
    obtain ⟨other, hother, haccepted⟩ := hstands profileId hmem
    rw [hnested, Option.some.injEq] at hother
    rw [hother]
    exact haccepted

theorem refuses_cycle {profileId : String} (hreach : validator.Reachable root profileId)
    (hcycle : Relation.TransGen (Edge (validator.childrenOf root)) profileId profileId) :
    Refuses validator profile := by
  rcases refuses_or_closes hroot with hrefuses | ⟨closure, -, -, hcloses, -⟩
  · exact hrefuses
  · exact absurd hcycle (hcloses.1.closure.2.2.1 profileId hreach)

theorem refuses_work {closure : List String} (hnodup : closure.Nodup)
    (hclosure : ∀ profileId, profileId ∈ closure ↔ validator.Reachable root profileId)
    (hwork : validator.limits.maxContextWork < validator.closureWork root closure) :
    Refuses validator profile := by
  rcases refuses_or_closes hroot with hrefuses | ⟨walked, -, -, hcloses, -⟩
  · exact hrefuses
  · have hperm : walked.Perm closure :=
      (List.perm_ext_iff_of_nodup hcloses.1.closure.1 hnodup).mpr fun profileId => by
        rw [hcloses.mem_iff, hclosure]
    have hsame : validator.closureWork root walked = validator.closureWork root closure :=
      congrArg (1 + ·) (hperm.map (validator.profileWork root)).sum_eq
    have hwithin := hcloses.2
    omega

end

theorem nested_length_lt {closure : List String} (hcloses : validator.ClosesWithin root closure)
    {profileIds : List String} (hnodup : profileIds.Nodup)
    (hnested : ∀ profileId ∈ profileIds,
      Relation.TransGen (Edge (validator.childrenOf root)) root.profileId profileId) :
    profileIds.length < closure.length := by
  have hroot : root.profileId ∉ profileIds := fun hmem =>
    hcloses.1.closure.2.2.1 root.profileId .refl (hnested _ hmem)
  have hall : (root.profileId :: profileIds).Nodup := List.nodup_cons.mpr ⟨hroot, hnodup⟩
  have hsub : root.profileId :: profileIds ⊆ closure := by
    intro profileId hmem
    rw [hcloses.mem_iff]
    rcases List.mem_cons.mp hmem with rfl | hmem
    · exact .refl
    · exact (hnested profileId hmem).to_reflTransGen
  have hlength := (List.subperm_of_subset hall hsub).length_le
  rw [List.length_cons] at hlength
  omega

/-- The resolution does what it is for exactly when the profiles on the active path do not
hide how many there are. -/
theorem resolvesClosure_iff (validator : ContextValidator ι) (profile : Profile ι) :
    ResolvesClosure validator profile ↔ NestingCounted validator profile := by
  constructor
  · intro h root closure hroot hcloses
    by_contra hlong
    obtain ⟨result, hresult⟩ := resolve_of_closes hroot hcloses
    have hreached := hcloses.1.closure.2.1
    have hrefuses := h.nested root (closure.erase root.profileId) hroot
      (hcloses.1.closure.1.erase _) (fun profileId hmem => ?_) ?_
    · obtain ⟨error, herror⟩ := hrefuses
      rw [hresult] at herror
      cases herror
    · have hne := (hcloses.1.closure.1.mem_erase_iff.mp hmem).1
      have hreach := (hreached profileId).mp (List.mem_of_mem_erase hmem)
      exact (Relation.reflTransGen_iff_eq_or_transGen.mp hreach).resolve_left hne
    · rw [List.length_erase_of_mem ((hreached root.profileId).mpr .refl)]
      omega
  · intro h
    refine ⟨resolve_ne_spent profile, fun root result hroot hresult =>
      resolves_exact hroot hresult, fun root profileId hroot hreach hcycle =>
      refuses_cycle hroot hreach hcycle, fun root profileIds hroot hnodup hnested hmany => ?_,
      fun root closure hroot hnodup hclosure hwork =>
      refuses_work hroot hnodup hclosure hwork⟩
    rcases refuses_or_closes hroot with hrefuses | ⟨closure, -, -, hcloses, -⟩
    · exact hrefuses
    · have hlong := nested_length_lt hcloses hnodup hnested
      have hshort := h root closure hroot hcloses
      omega

end Resolves

section Chain

def chainProfile (profileId : String) (nestedProfileRefs : Dict String String) :
    Profile String where
  profileId := profileId
  scenarioSnapshotRef := ⟨"scenario.1", "sha256:scenario"⟩
  components := Dict.empty.set "component.1"
    ⟨"component.1", "apparatus.1", "manifest.1", "envelope.1", none⟩
  allocations := Dict.empty.set "allocation.1"
    ⟨"allocation.1", .participant, "participants.red", "component.1", "identity.red",
      "controller.1", "authority.1", "routing.1", []⟩
  edges := Dict.empty
  phases := Dict.empty.set "phase.1"
    ⟨"phase.1", ["allocation.1"], [⟨"obligation.1", "evidence.1"⟩]⟩
  transitions := Dict.empty
  nestedProfileRefs := nestedProfileRefs
  profileDigest := "sha256:" ++ profileId

def chainEnd : Profile String := chainProfile "end" Dict.empty

def chainMiddle : Profile String :=
  chainProfile "middle" (Dict.empty.set "end" "sha256:end")

def chainRoot : Profile String :=
  chainProfile "root" (Dict.empty.set "middle" "sha256:middle")

/-- A validator that knows the chain and allows one nested profile. -/
def chainValidator : ContextValidator String where
  context := {
    scenarioSnapshots := fun _ => some ⟨"scenario.1", "sha256:scenario"⟩
    compiledTargets := fun _ => some .participant
    components := fun key => some ⟨key.1, "component.1", "apparatus.1", "manifest.1",
      "envelope.1", none⟩
    allocations := fun key => some ⟨key.1, "allocation.1", .participant, "participants.red",
      "component.1", "identity.red", "controller.1", "authority.1", "routing.1"⟩
    edges := fun _ => none
    transitions := fun _ => none
    featureSupportResolver := fun _ _ _ => .ok ()
    featureDowngradeAuthorizations := []
    timeModels := fun _ => none
    timeModelDigests := fun _ => none
    evidenceSatisfaction := fun _ => some ["evidence.1"]
    nestedProfiles := fun profileId =>
      if profileId = "middle" then some chainMiddle
      else if profileId = "end" then some chainEnd else none
    allocationEffects := fun _ => none
    resourceRefs := fun _ => none
    componentProjectionMembership := fun _ => none }
  reconstruct := fun profile => .ok profile
  limits := ⟨1, 1, 1, 1, 1, 1, 100⟩
  requireTrialAdmission := false

/-- Two profiles are nested below the root of the chain, one more than the limit, and the
resolution returns all three. -/
theorem chain_resolves : ¬ ResolvesClosure chainValidator chainRoot := by
  intro h
  have hmiddle : Edge (chainValidator.childrenOf chainRoot) "root" "middle" := by
    show "middle" ∈ chainValidator.childrenOf chainRoot "root"
    decide +kernel
  have hend : Edge (chainValidator.childrenOf chainRoot) "middle" "end" := by
    show "end" ∈ chainValidator.childrenOf chainRoot "middle"
    decide +kernel
  obtain ⟨error, hrefused⟩ := h.nested chainRoot ["middle", "end"] rfl (by decide)
    (by
      intro profileId hmem
      rcases List.mem_cons.mp hmem with rfl | hmem
      · exact .single hmiddle
      · rw [List.mem_singleton.mp hmem]
        exact .tail (.single hmiddle) hend)
    (by decide)
  have hresolved :
      (chainValidator.resolveMixedCompositionProfiles chainRoot).toOption.isSome = true := by
    decide +kernel
  rw [hrefused] at hresolved
  cases hresolved

end Chain

end Raes.Composition
