import Raes.Composition.Context
import Raes.Lib.DepthFirst

/-!
# The closure of nested profiles

`_ContextValidator` and `resolve_mixed_composition_profiles`.  The nested profiles
of a root are visited depth first, in the order of their sorted ids.  The profiles
that are being visited, those that are visited, the work that is used and the
profiles that are collected are the state of the visit.

The construction of a profile model from its own dump is the parameter
`reconstruct`.  The fuel of a visit is never spent, since every visit charges the
work budget; an error that is `none` would say that it is.
-/

namespace Raes.Composition

open PyError DepthFirst

variable {ι : Type} [DecidableEq ι]

/-- What a `_ContextValidator` is made of. -/
structure ContextValidator (ι : Type) where
  context : Context ι
  reconstruct : Profile ι → Except PyError (Profile ι)
  limits : ValidationLimits
  requireTrialAdmission : Bool

/-- What the visits of a `_ContextValidator` change. -/
structure Progress (ι : Type) where
  used : ℕ
  (visited visiting : List String)
  profiles : Dict String (Profile ι)

namespace ContextValidator

variable (validator : ContextValidator ι)

/-- The `try` around a reconstruction. -/
def closedReconstruction (refusal : String) (profile : Profile ι) :
    Except PyError (Profile ι) :=
  match validator.reconstruct profile with
  | .ok reconstructed => .ok reconstructed
  | .error error =>
    if error.kind = .typeError ∨ error.kind = .valueError ∨ error.kind = .immutableValueError then
      .error (valueError refusal)
    else .error error

/-- The child that a reference names, without the charge. -/
def resolvedChild (ref : String × String) : Except PyError (Profile ι) :=
  match validator.context.nestedProfiles ref.1 with
  | none => .error (valueError "composition nested profile is unresolved or stale")
  | some child => do
    refuseIf (child.profileId ≠ ref.1 ∨ child.profileDigest ≠ ref.2)
      (valueError "composition nested profile is unresolved or stale")
    let reconstructed ← validator.closedReconstruction
      "composition nested profile failed closed reconstruction" child
    refuseIf (reconstructed.profileId ≠ ref.1 ∨ reconstructed.profileDigest ≠ ref.2)
      (valueError "composition nested profile is unresolved or stale")
    return reconstructed

def resolveChild (ref : String × String) (s : Progress ι) :
    Except PyError (Profile ι × Progress ι) := do
  let used ← charge validator.limits.maxContextWork 1 s.used
  let child ← validator.resolvedChild ref
  return (child, { s with used := used })

def beginVisit (profileId : String) (s : Progress ι) : Except PyError (Bool × Progress ι) := do
  let used ← charge validator.limits.maxContextWork 1 s.used
  refuseIf (profileId ∈ s.visiting)
    (valueError "mixed composition nested profile cycle detected")
  if profileId ∈ s.visited then return (false, { s with used := used })
  else do
    refuseIf (s.visited.length ≥ validator.limits.maxNestedProfiles)
      (valueError "mixed composition nested profile limit exceeded")
    return (true, { s with used := used, visiting := profileId :: s.visiting })

def checkTrialAdmission (profile : Profile ι) : Except PyError Unit :=
  if validator.requireTrialAdmission then
    validateTrialAdmissionContext validator.context profile
  else .ok ()

/-- The checks of an entered profile, which is then collected. -/
def collect (profile : Profile ι) (s : Progress ι) : Except PyError (Progress ι) := do
  validateProfileLimits profile validator.limits
  let used ← validateProfileContext validator.context validator.limits.maxContextWork profile
    s.used
  validator.checkTrialAdmission profile
  return { s with used := used, profiles := s.profiles.set profile.profileId profile }

def sortedRefs (profile : Profile ι) : List (String × String) :=
  sortBy Prod.fst profile.nestedProfileRefs.entries

def finish (profileId : String) (s : Progress ι) : Progress ι :=
  { s with visiting := s.visiting.erase profileId, visited := profileId :: s.visited }

def visit : ℕ → Profile ι → Progress ι → Except (Option PyError) (Progress ι)
  | 0, _, _ => .error none
  | fuel + 1, profile, s => do
    let (first, s) ← (validator.beginVisit profile.profileId s).mapError some
    if first then do
      let s ← (validator.collect profile s).mapError some
      let s ← (sortedRefs profile).foldlM (fun s ref => do
        let (child, s) ← (validator.resolveChild ref s).mapError some
        visit fuel child s) s
      return finish profile.profileId s
    else return s

def visitRefs (fuel : ℕ) (refs : List (String × String)) (s : Progress ι) :
    Except (Option PyError) (Progress ι) :=
  refs.foldlM (fun s ref => do
    let (child, s) ← (validator.resolveChild ref s).mapError some
    validator.visit fuel child s) s

def resolveMixedCompositionProfiles (profile : Profile ι) :
    Except (Option PyError) (List (Profile ι)) := do
  let root ← (validator.closedReconstruction
    "mixed composition root profile failed closed reconstruction" profile).mapError some
  let s ← validator.visit (validator.limits.maxContextWork + 1) root ⟨0, [], [], Dict.empty⟩
  return sortedValues s.profiles

/-! ## The graph of nested profiles -/

variable (root : Profile ι)

def profileOf (profileId : String) : Option (Profile ι) :=
  if profileId = root.profileId then some root
  else
    match validator.context.nestedProfiles profileId with
    | none => none
    | some child =>
      match validator.reconstruct child with
      | .ok reconstructed =>
        if reconstructed.profileId = profileId then some reconstructed else none
      | .error _ => none

def childrenOf (profileId : String) : List String :=
  match validator.profileOf root profileId with
  | some profile => (sortedRefs profile).map Prod.fst
  | none => []

/-- The work of one profile of a closure: its joins, and for each nested reference its
resolution and the start of a visit. -/
def profileWork (profileId : String) : ℕ :=
  match validator.profileOf root profileId with
  | some profile => contextWork profile + 2 * (sortedRefs profile).length
  | none => 0

def closureWork (closure : List String) : ℕ :=
  1 + (closure.map (validator.profileWork root)).sum

/-- A profile that passes its own checks and whose references resolve. -/
structure Accepted (profile : Profile ι) : Prop where
  limits : validateProfileLimits profile validator.limits = .ok ()
  context : ContextResolved validator.context profile
  admission : validator.checkTrialAdmission profile = .ok ()
  refs : ∀ ref ∈ sortedRefs profile, ∃ child, validator.resolvedChild ref = .ok child

/-- What lets a walk enter a profile: fewer than `max_nested_profiles` are finished, and
it is accepted. -/
def Enters (finished : List String) (profileId : String) : Prop :=
  finished.length < validator.limits.maxNestedProfiles ∧
    ∃ profile, validator.profileOf root profileId = some profile ∧ validator.Accepted profile

end ContextValidator

end Raes.Composition
