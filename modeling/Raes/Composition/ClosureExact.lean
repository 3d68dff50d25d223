import Raes.Composition.Closure

/-!
# What a closure returns

A visit that ends well is a depth-first walk that enters accepted profiles within
the work limit, and such a walk lets the visit end well.
-/

namespace Raes.Composition

open PyError DepthFirst

variable {ι : Type} [DecidableEq ι] {validator : ContextValidator ι}

namespace ContextValidator

theorem mapError_eq_ok_iff {ε ε' α : Type} {f : ε → ε'} {x : Except ε α} {a : α} :
    x.mapError f = .ok a ↔ x = .ok a := by
  cases x <;> simp [Except.mapError]

/-! ## The parts of a visit -/

theorem charge_eq_ok_iff (limit amount used after : ℕ) :
    charge limit amount used = .ok after ↔ used + amount ≤ limit ∧ after = used + amount := by
  unfold charge
  by_cases hover : used + amount > limit
  · rw [if_pos hover]
    exact iff_of_false (fun h => nomatch h) fun h => absurd h.1 (not_le.mpr hover)
  · rw [if_neg hover, Except.ok.injEq, eq_comm]
    exact ⟨fun h => ⟨not_lt.mp hover, h⟩, fun h => h.2⟩

omit [DecidableEq ι] in
theorem resolveChild_eq_ok_iff (ref : String × String) (s t : Progress ι) (child : Profile ι) :
    validator.resolveChild ref s = .ok (child, t) ↔
      s.used + 1 ≤ validator.limits.maxContextWork ∧ validator.resolvedChild ref = .ok child ∧
      t = { s with used := s.used + 1 } := by
  unfold resolveChild
  rw [bind_eq_ok_iff]
  simp only [charge_eq_ok_iff, bind_eq_ok_iff]
  constructor
  · rintro ⟨used, ⟨hfits, rfl⟩, child', hchild, h⟩
    cases Except.ok.inj h
    exact ⟨hfits, hchild, rfl⟩
  · rintro ⟨hfits, hchild, rfl⟩
    exact ⟨_, ⟨hfits, rfl⟩, child, hchild, rfl⟩

omit [DecidableEq ι] in
/-- A visit starts with a profile that is not being visited: it is passed over when it is
visited, and otherwise entered while fewer than the limit are visited. -/
theorem beginVisit_eq_ok_iff (profileId : String) (s t : Progress ι) (first : Bool) :
    validator.beginVisit profileId s = .ok (first, t) ↔
      s.used + 1 ≤ validator.limits.maxContextWork ∧ profileId ∉ s.visiting ∧
      ((profileId ∈ s.visited ∧ first = false ∧ t = { s with used := s.used + 1 }) ∨
        (profileId ∉ s.visited ∧ s.visited.length < validator.limits.maxNestedProfiles ∧
          first = true ∧
          t = { s with used := s.used + 1, visiting := profileId :: s.visiting })) := by
  unfold beginVisit
  rw [bind_eq_ok_iff]
  simp only [charge_eq_ok_iff, seq_eq_ok_iff, refuseIf_eq_ok_iff]
  constructor
  · rintro ⟨used, ⟨hfits, rfl⟩, hvisiting, h⟩
    refine ⟨hfits, hvisiting, ?_⟩
    by_cases hvisited : profileId ∈ s.visited
    · rw [if_pos hvisited] at h
      cases Except.ok.inj h
      exact Or.inl ⟨hvisited, rfl, rfl⟩
    · rw [if_neg hvisited, seq_eq_ok_iff, refuseIf_eq_ok_iff] at h
      cases Except.ok.inj h.2
      exact Or.inr ⟨hvisited, not_le.mp h.1, rfl, rfl⟩
  · rintro ⟨hfits, hvisiting, h⟩
    refine ⟨_, ⟨hfits, rfl⟩, hvisiting, ?_⟩
    rcases h with ⟨hvisited, rfl, rfl⟩ | ⟨hvisited, hlimit, rfl, rfl⟩
    · rw [if_pos hvisited]
      rfl
    · rw [if_neg hvisited, seq_eq_ok_iff, refuseIf_eq_ok_iff]
      exact ⟨not_le.mpr hlimit, rfl⟩

/-- The checks of an entered profile, but for its references. -/
structure Checked (validator : ContextValidator ι) (profile : Profile ι) : Prop where
  limits : validateProfileLimits profile validator.limits = .ok ()
  context : ContextResolved validator.context profile
  admission : validator.checkTrialAdmission profile = .ok ()

theorem collect_eq_ok_iff (profile : Profile ι) (s t : Progress ι)
    (hused : s.used ≤ validator.limits.maxContextWork) :
    validator.collect profile s = .ok t ↔
      s.used + contextWork profile ≤ validator.limits.maxContextWork ∧
      validator.Checked profile ∧
      t = { s with
        used := s.used + contextWork profile
        profiles := s.profiles.set profile.profileId profile } := by
  have hcontext := charges_profileContext validator.context validator.limits.maxContextWork
    profile s.used hused
  unfold collect
  rw [seq_eq_ok_iff, bind_eq_ok_iff]
  simp only [hcontext, seq_eq_ok_iff]
  constructor
  · rintro ⟨hlimits, used, ⟨hfits, hresolved, rfl⟩, hadmitted, h⟩
    cases Except.ok.inj h
    exact ⟨hfits, ⟨hlimits, hresolved, hadmitted⟩, rfl⟩
  · rintro ⟨hfits, ⟨hlimits, hresolved, hadmitted⟩, rfl⟩
    exact ⟨hlimits, _, ⟨hfits, hresolved, rfl⟩, hadmitted, rfl⟩

theorem accepted_iff (profile : Profile ι) : validator.Accepted profile ↔
    validator.Checked profile ∧
      ∀ ref ∈ sortedRefs profile, ∃ child, validator.resolvedChild ref = .ok child :=
  ⟨fun h => ⟨⟨h.limits, h.context, h.admission⟩, h.refs⟩,
    fun h => ⟨h.1.limits, h.1.context, h.1.admission, h.2⟩⟩

omit [DecidableEq ι] in
theorem resolvedChild_spec {ref : String × String} {child : Profile ι}
    (h : validator.resolvedChild ref = .ok child) :
    child.profileId = ref.1 ∧ ∀ root : Profile ι, ref.1 ≠ root.profileId →
      validator.profileOf root ref.1 = some child := by
  unfold resolvedChild at h
  cases hnested : validator.context.nestedProfiles ref.1 with
  | none =>
    rw [hnested] at h
    cases h
  | some authored =>
    rw [hnested] at h
    rw [seq_eq_ok_iff, bind_eq_ok_iff] at h
    obtain ⟨-, reconstructed, hreconstructed, h⟩ := h
    rw [seq_eq_ok_iff, refuseIf_eq_ok_iff, not_or, not_not, not_not] at h
    obtain ⟨⟨hid, -⟩, h⟩ := h
    cases Except.ok.inj h
    refine ⟨hid, fun root hne => ?_⟩
    have hmade : validator.reconstruct authored = .ok child := by
      unfold closedReconstruction at hreconstructed
      cases hmake : validator.reconstruct authored with
      | ok made =>
        rw [hmake] at hreconstructed
        exact congrArg Except.ok (Except.ok.inj hreconstructed)
      | error error =>
        rw [hmake] at hreconstructed
        by_cases hkind : error.kind = .typeError ∨ error.kind = .valueError ∨
            error.kind = .immutableValueError
        · simp [hkind] at hreconstructed
        · simp [hkind] at hreconstructed
    unfold profileOf
    rw [if_neg hne, hnested]
    simp only [hmade, hid, if_true]

/-! ## Fuel -/

/-- A computation that does not run out of fuel, and answers within the limit with no less
work than was used before. -/
def Within (validator : ContextValidator ι) (used : ℕ) :
    Except (Option PyError) (Progress ι) → Prop
  | .ok t => used ≤ t.used ∧ t.used ≤ validator.limits.maxContextWork
  | .error none => False
  | .error (some _) => True

omit [DecidableEq ι] in
theorem within_bind_mapError {α : Type} {x : Except PyError α} {used : ℕ}
    {f : α → Except (Option PyError) (Progress ι)}
    (h : ∀ a, x = .ok a → validator.Within used (f a)) :
    validator.Within used (x.mapError some >>= f) := by
  cases x with
  | error e => exact trivial
  | ok a => exact h a rfl

omit [DecidableEq ι] in
theorem Within.weaken {used used' : ℕ} {x : Except (Option PyError) (Progress ι)}
    (h : validator.Within used x) (hle : used' ≤ used) : validator.Within used' x := by
  cases x with
  | error e =>
    cases e with
    | none => exact h.elim
    | some e => exact trivial
  | ok t => exact ⟨hle.trans h.1, h.2⟩

omit [DecidableEq ι] in
theorem Within.bind {used : ℕ} {x : Except (Option PyError) (Progress ι)}
    {f : Progress ι → Except (Option PyError) (Progress ι)} (hx : validator.Within used x)
    (h : ∀ t, used ≤ t.used → t.used ≤ validator.limits.maxContextWork →
      validator.Within t.used (f t)) : validator.Within used (x >>= f) := by
  cases x with
  | error e =>
    cases e with
    | none => exact hx.elim
    | some e => exact trivial
  | ok t =>
    exact (h t hx.1 hx.2).weaken hx.1

theorem within_visitRefs {fuel : ℕ}
    (hvisit : ∀ (profile : Profile ι) (s : Progress ι),
      s.used ≤ validator.limits.maxContextWork →
      validator.limits.maxContextWork < fuel + s.used →
      validator.Within s.used (validator.visit fuel profile s))
    (refs : List (String × String)) (s : Progress ι)
    (hused : s.used ≤ validator.limits.maxContextWork)
    (hfuel : validator.limits.maxContextWork < fuel + s.used) :
    validator.Within s.used (validator.visitRefs fuel refs s) := by
  induction refs generalizing s with
  | nil => exact ⟨le_refl _, hused⟩
  | cons ref rest ih =>
    unfold visitRefs
    rw [List.foldlM_cons]
    refine Within.bind (within_bind_mapError fun resolved hresolved => ?_) fun t hle ht => ?_
    · obtain ⟨child, u⟩ := resolved
      obtain ⟨hfits, -, rfl⟩ := (resolveChild_eq_ok_iff ref s u child).mp hresolved
      refine (hvisit child { s with used := s.used + 1 } hfits ?_).weaken (Nat.le_succ s.used)
      show validator.limits.maxContextWork < fuel + (s.used + 1)
      omega
    · exact ih t ht (by omega)

/-- Every visit charges the budget, so fuel for the work that is left is never spent. -/
theorem within_visit (fuel : ℕ) (profile : Profile ι) (s : Progress ι)
    (hused : s.used ≤ validator.limits.maxContextWork)
    (hfuel : validator.limits.maxContextWork < fuel + s.used) :
    validator.Within s.used (validator.visit fuel profile s) := by
  induction fuel generalizing profile s with
  | zero => omega
  | succ fuel ih =>
    unfold visit
    refine within_bind_mapError fun begun hbegun => ?_
    obtain ⟨first, t⟩ := begun
    obtain ⟨hfits, -, h⟩ := (beginVisit_eq_ok_iff profile.profileId s t first).mp hbegun
    rcases h with ⟨-, rfl, rfl⟩ | ⟨-, -, rfl, rfl⟩
    · exact ⟨Nat.le_succ s.used, hfits⟩
    · show validator.Within s.used ((validator.collect profile _).mapError some >>= _)
      refine within_bind_mapError fun u hcollect => ?_
      obtain ⟨hcharged, -, rfl⟩ := (collect_eq_ok_iff profile _ u hfits).mp hcollect
      refine Within.bind ((within_visitRefs ih (sortedRefs profile)
        { s with
          used := s.used + 1 + contextWork profile
          visiting := profile.profileId :: s.visiting
          profiles := s.profiles.set profile.profileId profile } hcharged ?_).weaken ?_)
        fun v _ hv => ⟨le_refl v.used, hv⟩
      · show validator.limits.maxContextWork < fuel + (s.used + 1 + contextWork profile)
        omega
      · show s.used ≤ s.used + 1 + contextWork profile
        omega

section Walks

variable {root : Profile ι}

/-- The state of the visits at a point of a walk. -/
structure Tracks (validator : ContextValidator ι) (root : Profile ι) (s : Progress ι)
    (path finished : List String) : Prop where
  visiting : s.visiting = path
  visited : s.visited = finished
  profiles : ∀ profileId profile, s.profiles.get? profileId = some profile ↔
    (profileId ∈ path ∨ profileId ∈ finished) ∧
      validator.profileOf root profileId = some profile

def total (validator : ContextValidator ι) (root : Profile ι) (finished : List String) : ℕ :=
  (finished.map (validator.profileWork root)).sum

omit [DecidableEq ι] in
@[simp] theorem total_cons (profileId : String) (finished : List String) :
    validator.total root (profileId :: finished) =
      validator.profileWork root profileId + validator.total root finished := by
  unfold total
  rw [List.map_cons, List.sum_cons]

omit [DecidableEq ι] in
theorem total_le_of_suffix {finished last : List String} (h : finished <:+ last) :
    validator.total root finished ≤ validator.total root last := by
  obtain ⟨before, rfl⟩ := h
  unfold total
  rw [List.map_append, List.sum_append]
  exact Nat.le_add_left _ _

omit [DecidableEq ι] in
theorem profileWork_eq {profile : Profile ι} {profileId : String}
    (h : validator.profileOf root profileId = some profile) :
    validator.profileWork root profileId =
      contextWork profile + 2 * (sortedRefs profile).length := by
  unfold profileWork
  rw [h]

omit [DecidableEq ι] in
theorem childrenOf_eq {profile : Profile ι} {profileId : String}
    (h : validator.profileOf root profileId = some profile) :
    validator.childrenOf root profileId = (sortedRefs profile).map Prod.fst := by
  unfold childrenOf
  rw [h]

omit [DecidableEq ι] in
theorem Tracks.enter {s : Progress ι} {path finished : List String} {profile : Profile ι}
    (h : validator.Tracks root s path finished)
    (hprofile : validator.profileOf root profile.profileId = some profile) (used : ℕ) :
    validator.Tracks root
      { s with
        used := used
        visiting := profile.profileId :: s.visiting
        profiles := s.profiles.set profile.profileId profile }
      (profile.profileId :: path) finished where
  visiting := congrArg _ h.visiting
  visited := h.visited
  profiles := by
    intro profileId other
    show (s.profiles.set profile.profileId profile).get? profileId = some other ↔ _
    rw [Dict.get?_set]
    by_cases hid : profileId = profile.profileId
    · subst hid
      rw [if_pos rfl, Option.some.injEq, hprofile, Option.some.injEq]
      exact ⟨fun heq => ⟨Or.inl List.mem_cons_self, heq⟩, fun h => h.2⟩
    · rw [if_neg hid, h.profiles, List.mem_cons, or_iff_right hid]

omit [DecidableEq ι] in
theorem Tracks.finish {s : Progress ι} {path finished : List String} {profileId : String}
    (h : validator.Tracks root s (profileId :: path) finished) :
    validator.Tracks root (finish profileId s) path (profileId :: finished) where
  visiting := by
    show s.visiting.erase profileId = path
    rw [h.visiting, List.erase_cons_head]
  visited := congrArg _ h.visited
  profiles := by
    intro other profile
    show s.profiles.get? other = some profile ↔ _
    rw [h.profiles, List.mem_cons, List.mem_cons, or_assoc, or_left_comm]

omit [DecidableEq ι] in
theorem Tracks.use {s : Progress ι} {path finished : List String}
    (h : validator.Tracks root s path finished) (used : ℕ) :
    validator.Tracks root { s with used := used } path finished :=
  ⟨h.visiting, h.visited, h.profiles⟩

/-- A visit, or a loop of visits, is a walk that enters accepted profiles, and it charges
what the profiles it finishes cost beyond the pending ones. -/
def Walked (validator : ContextValidator ι) (root : Profile ι) (s t : Progress ι)
    (path finished pending : List String) (cost : ℕ) : Prop :=
  ∃ last, Walk (validator.childrenOf root) (validator.Enters root) path finished pending last ∧
    validator.Tracks root t path last ∧ t.used ≤ validator.limits.maxContextWork ∧
    t.used + validator.total root finished = s.used + cost + validator.total root last

/-- What an induction over the fuel knows of the visits below. -/
def VisitsWalk (validator : ContextValidator ι) (root : Profile ι) (fuel : ℕ) : Prop :=
  ∀ (profile : Profile ι) (s t : Progress ι) (path finished : List String),
    validator.Tracks root s path finished → s.used ≤ validator.limits.maxContextWork →
    (root.profileId ∈ path ∨ profile = root) →
    (profile.profileId ∉ path → validator.profileOf root profile.profileId = some profile) →
    validator.visit fuel profile s = .ok t →
    validator.Walked root s t path finished [profile.profileId] 1

theorem visitRefs_walked {fuel : ℕ} (hvisit : validator.VisitsWalk root fuel)
    {refs : List (String × String)} {s t : Progress ι} {path finished : List String}
    (htracks : validator.Tracks root s path finished)
    (hused : s.used ≤ validator.limits.maxContextWork) (hroot : root.profileId ∈ path)
    (h : validator.visitRefs fuel refs s = .ok t) :
    validator.Walked root s t path finished (refs.map Prod.fst) (2 * refs.length) ∧
      ∀ ref ∈ refs, ∃ child, validator.resolvedChild ref = .ok child := by
  induction refs generalizing s finished with
  | nil =>
    cases Except.ok.inj h
    exact ⟨⟨finished, .nil path finished, htracks, hused, rfl⟩, fun ref href => (nomatch href)⟩
  | cons ref rest ih =>
    unfold visitRefs at h
    rw [List.foldlM_cons, bind_eq_ok_iff] at h
    obtain ⟨u, hfirst, hrest⟩ := h
    rw [bind_eq_ok_iff] at hfirst
    obtain ⟨⟨child, v⟩, hresolve, hchild⟩ := hfirst
    rw [mapError_eq_ok_iff] at hresolve
    obtain ⟨hfits, hresolved, rfl⟩ := (resolveChild_eq_ok_iff ref s v child).mp hresolve
    obtain ⟨hid, hprofile⟩ := resolvedChild_spec hresolved
    have hknown : child.profileId ∉ path →
        validator.profileOf root child.profileId = some child := by
      intro houtside
      rw [hid] at houtside ⊢
      apply hprofile
      rintro heq
      exact houtside (heq ▸ hroot)
    obtain ⟨between, hwalk, htracks', hused', hcost⟩ := hvisit child _ u path finished
      (htracks.use (s.used + 1)) hfits (Or.inl hroot) hknown hchild
    obtain ⟨⟨last, hwalkRest, htracksLast, husedLast, hcostRest⟩, hresolvedRest⟩ :=
      ih htracks' hused' hrest
    rw [hid] at hwalk
    refine ⟨⟨last, hwalk.append hwalkRest, htracksLast, husedLast, ?_⟩, ?_⟩
    · simp only [List.length_cons] at hcost ⊢
      omega
    · rw [List.forall_mem_cons]
      exact ⟨⟨child, hresolved⟩, hresolvedRest⟩

theorem visit_walked (fuel : ℕ) : validator.VisitsWalk root fuel := by
  induction fuel with
  | zero => exact fun _ _ _ _ _ _ _ _ _ h => nomatch h
  | succ fuel ih =>
    intro profile s t path finished htracks hused hroot hprofile h
    unfold visit at h
    rw [bind_eq_ok_iff] at h
    obtain ⟨⟨first, u⟩, hbegin, h⟩ := h
    rw [mapError_eq_ok_iff] at hbegin
    obtain ⟨hfits, hvisiting, hbegun⟩ :=
      (beginVisit_eq_ok_iff profile.profileId s u first).mp hbegin
    rw [htracks.visiting] at hvisiting
    rcases hbegun with ⟨hvisited, rfl, rfl⟩ | ⟨hvisited, hlimit, rfl, rfl⟩
    · cases Except.ok.inj h
      rw [htracks.visited] at hvisited
      exact ⟨finished, .seen hvisiting hvisited (.nil path finished), htracks.use _, hfits, rfl⟩
    · rw [htracks.visited] at hvisited hlimit
      replace h : ((validator.collect profile _).mapError some >>= fun s => _) = .ok t := h
      rw [bind_eq_ok_iff] at h
      obtain ⟨v, hcollect, h⟩ := h
      rw [mapError_eq_ok_iff] at hcollect
      obtain ⟨hcharged, hchecked, rfl⟩ := (collect_eq_ok_iff profile _ v hfits).mp hcollect
      rw [bind_eq_ok_iff] at h
      obtain ⟨w, hloop, h⟩ := h
      cases Except.ok.inj h
      have hknown := hprofile hvisiting
      have hpath : root.profileId ∈ profile.profileId :: path := by
        rcases hroot with hmem | rfl
        · exact List.mem_cons_of_mem _ hmem
        · exact List.mem_cons_self
      obtain ⟨⟨inner, hwalk, htracksInner, husedInner, hcost⟩, hresolved⟩ :=
        visitRefs_walked ih (htracks.enter hknown (s.used + 1 + contextWork profile)) hcharged
          hpath hloop
      have henters : validator.Enters root finished profile.profileId :=
        ⟨hlimit, profile, hknown, (accepted_iff profile).mpr ⟨hchecked, hresolved⟩⟩
      rw [← childrenOf_eq hknown] at hwalk
      refine ⟨profile.profileId :: inner, .enter hvisiting hvisited henters hwalk (.nil _ _),
        htracksInner.finish, husedInner, ?_⟩
      rw [total_cons, profileWork_eq hknown]
      show w.used + _ = _
      simp only at hcost
      omega

end Walks

section Complete

variable {root : Profile ι}

/-- A visit of an accepted profile ends well when the loop over its references does. -/
theorem visit_of_refs {fuel : ℕ} {profile : Profile ι} {s : Progress ι}
    {path finished inner : List String} (htracks : validator.Tracks root s path finished)
    (hpath : profile.profileId ∉ path) (hnew : profile.profileId ∉ finished)
    (hlimit : finished.length < validator.limits.maxNestedProfiles)
    (hprofile : validator.profileOf root profile.profileId = some profile)
    (haccepted : validator.Accepted profile)
    (hfits : s.used + 1 + contextWork profile ≤ validator.limits.maxContextWork)
    (hrefs : ∀ u : Progress ι,
      validator.Tracks root u (profile.profileId :: path) finished →
      u.used = s.used + 1 + contextWork profile →
      ∃ t, validator.visitRefs fuel (sortedRefs profile) u = .ok t ∧
        validator.Tracks root t (profile.profileId :: path) inner) :
    ∃ t, validator.visit (fuel + 1) profile s = .ok t ∧
      validator.Tracks root t path (profile.profileId :: inner) := by
  have hbegin : validator.beginVisit profile.profileId s =
      .ok (true, { s with used := s.used + 1, visiting := profile.profileId :: s.visiting }) := by
    rw [beginVisit_eq_ok_iff, htracks.visiting, htracks.visited]
    exact ⟨by omega, hpath, Or.inr ⟨hnew, hlimit, rfl, rfl⟩⟩
  have hone : s.used + 1 ≤ validator.limits.maxContextWork := by omega
  have hcollect := (collect_eq_ok_iff profile
    { s with used := s.used + 1, visiting := profile.profileId :: s.visiting }
    { s with
      used := s.used + 1 + contextWork profile
      visiting := profile.profileId :: s.visiting
      profiles := s.profiles.set profile.profileId profile } hone).mpr
    ⟨hfits, ((accepted_iff profile).mp haccepted).1, rfl⟩
  obtain ⟨t, hloop, htracksInner⟩ := hrefs _
    (htracks.enter hprofile (s.used + 1 + contextWork profile)) rfl
  refine ⟨finish profile.profileId t, ?_, htracksInner.finish⟩
  unfold visit
  rw [bind_eq_ok_iff]
  refine ⟨_, mapError_eq_ok_iff.mpr hbegin, ?_⟩
  show ((validator.collect profile _).mapError some >>= fun s => _) = _
  rw [bind_eq_ok_iff]
  refine ⟨_, mapError_eq_ok_iff.mpr hcollect, ?_⟩
  rw [bind_eq_ok_iff]
  exact ⟨t, hloop, rfl⟩

theorem visitRefs_cons {fuel : ℕ} {ref : String × String} {refs : List (String × String)}
    {s t u : Progress ι} {child : Profile ι} (hchild : validator.resolvedChild ref = .ok child)
    (hused : s.used + 1 ≤ validator.limits.maxContextWork)
    (hvisit : validator.visit fuel child { s with used := s.used + 1 } = .ok t)
    (hloop : validator.visitRefs fuel refs t = .ok u) :
    validator.visitRefs fuel (ref :: refs) s = .ok u := by
  unfold visitRefs
  rw [List.foldlM_cons, bind_eq_ok_iff]
  refine ⟨t, ?_, hloop⟩
  rw [bind_eq_ok_iff]
  exact ⟨(child, _), mapError_eq_ok_iff.mpr
    ((resolveChild_eq_ok_iff _ _ _ _).mpr ⟨hused, hchild, rfl⟩), hvisit⟩

/-- A walk through the references of a profile, with work and fuel left for it, lets the loop
over the references end well. -/
theorem visitRefs_of_walk {path finished pending last : List String}
    (h : Walk (validator.childrenOf root) (validator.Enters root) path finished pending last)
    (hroot : root.profileId ∈ path) {refs : List (String × String)}
    (hpending : pending = refs.map Prod.fst)
    (hresolved : ∀ ref ∈ refs, ∃ child, validator.resolvedChild ref = .ok child)
    {fuel : ℕ} {s : Progress ι} (htracks : validator.Tracks root s path finished)
    (hwork : s.used + 2 * refs.length + validator.total root last ≤
      validator.limits.maxContextWork + validator.total root finished)
    (hfuel : validator.limits.maxContextWork < fuel + s.used) :
    ∃ t, validator.visitRefs fuel refs s = .ok t ∧ validator.Tracks root t path last := by
  induction h generalizing refs fuel s with
  | nil path finished =>
    rw [List.map_eq_nil_iff.mp hpending.symm]
    exact ⟨s, rfl, htracks⟩
  | @seen path finished rest last k hpath hseen hrest ih =>
    obtain ⟨ref, refs, rfl, rfl, rfl⟩ := List.map_eq_cons_iff.mp hpending.symm
    rw [List.forall_mem_cons] at hresolved
    obtain ⟨⟨child, hchild⟩, hresolved⟩ := hresolved
    have hmore : validator.total root finished ≤ validator.total root last :=
      total_le_of_suffix hrest.suffix
    rw [List.length_cons] at hwork
    obtain ⟨fuel, rfl⟩ : ∃ n, fuel = n + 1 := ⟨fuel - 1, by omega⟩
    have hpassed : validator.visit (fuel + 1) child { s with used := s.used + 1 } =
        .ok { s with used := s.used + 1 + 1 } := by
      unfold visit
      rw [bind_eq_ok_iff]
      refine ⟨(false, _), mapError_eq_ok_iff.mpr
        ((beginVisit_eq_ok_iff _ _ _ _).mpr ⟨?_, ?_, Or.inl ⟨?_, rfl, rfl⟩⟩), rfl⟩
      · show s.used + 1 + 1 ≤ validator.limits.maxContextWork
        omega
      · rw [(resolvedChild_spec hchild).1]
        exact htracks.visiting ▸ hpath
      · rw [(resolvedChild_spec hchild).1]
        exact htracks.visited ▸ hseen
    have hrefs : ∃ t, validator.visitRefs (fuel + 1) refs { s with used := s.used + 1 + 1 } =
        .ok t ∧ validator.Tracks root t path last := by
      refine ih hroot rfl hresolved (htracks.use (s.used + 1 + 1)) ?_ ?_
      · show s.used + 1 + 1 + 2 * refs.length + _ ≤ _
        omega
      · show _ < fuel + 1 + (s.used + 1 + 1)
        omega
    obtain ⟨t, hloop, htracksLast⟩ := hrefs
    exact ⟨t, visitRefs_cons hchild (by omega) hpassed hloop, htracksLast⟩
  | @enter path finished rest inner last k hpath hnew henter hinner hrest ihinner ihrest =>
    obtain ⟨ref, refs, rfl, rfl, rfl⟩ := List.map_eq_cons_iff.mp hpending.symm
    rw [List.forall_mem_cons] at hresolved
    obtain ⟨⟨child, hchild⟩, hresolved⟩ := hresolved
    obtain ⟨hid, hprofile⟩ := resolvedChild_spec hchild
    have hne : ref.1 ≠ root.profileId := fun heq => hpath (heq ▸ hroot)
    have hknown := hprofile root hne
    obtain ⟨hlimit, profile, hentered, haccepted⟩ := henter
    rw [hknown, Option.some.injEq] at hentered
    subst hentered
    have hmore : validator.total root (ref.1 :: inner) ≤ validator.total root last :=
      total_le_of_suffix hrest.suffix
    have hwithin : validator.total root finished ≤ validator.total root inner :=
      total_le_of_suffix hinner.suffix
    rw [total_cons, profileWork_eq hknown] at hmore
    rw [List.length_cons] at hwork
    obtain ⟨fuel, rfl⟩ : ∃ n, fuel = n + 1 := ⟨fuel - 1, by omega⟩
    have hentering : ∃ t, validator.visit (fuel + 1) child { s with used := s.used + 1 } = .ok t ∧
        validator.Tracks root t path (child.profileId :: inner) := by
      refine visit_of_refs (htracks.use (s.used + 1)) (hid ▸ hpath) (hid ▸ hnew) hlimit
        (hid ▸ hknown) haccepted ?_ fun u htracksInner hused => ?_
      · show s.used + 1 + 1 + contextWork child ≤ validator.limits.maxContextWork
        omega
      · replace hused : u.used = s.used + 1 + 1 + contextWork child := hused
        rw [hid] at htracksInner ⊢
        exact ihinner (List.mem_cons_of_mem _ hroot) (childrenOf_eq hknown) haccepted.refs
          htracksInner (by omega) (by omega)
    obtain ⟨t, hvisit, htracksInner⟩ := hentering
    have hwalked : validator.Walked root { s with used := s.used + 1 } t path finished
        [child.profileId] 1 := by
      refine visit_walked (fuel + 1) child _ t path finished (htracks.use (s.used + 1)) ?_
        (Or.inl hroot) (fun _ => hid ▸ hknown) hvisit
      show s.used + 1 ≤ validator.limits.maxContextWork
      omega
    obtain ⟨last', -, htracks', -, hcost⟩ := hwalked
    rw [← htracks'.visited, htracksInner.visited, hid, total_cons, profileWork_eq hknown] at hcost
    rw [hid] at htracksInner
    replace hcost : t.used + validator.total root finished = s.used + 1 + 1 +
      (contextWork child + 2 * (sortedRefs child).length + validator.total root inner) := hcost
    have hrefs : ∃ u, validator.visitRefs (fuel + 1) refs t = .ok u ∧
        validator.Tracks root u path last := by
      refine ihrest hroot rfl hresolved htracksInner ?_ (by omega)
      rw [total_cons, profileWork_eq hknown]
      omega
    obtain ⟨u, hloop, htracksLast⟩ := hrefs
    exact ⟨u, visitRefs_cons hchild (by omega) hvisit hloop, htracksLast⟩

end Complete

section Root

variable {root : Profile ι}

def Reachable (validator : ContextValidator ι) (root : Profile ι) (profileId : String) : Prop :=
  Relation.ReflTransGen (Edge (validator.childrenOf root)) root.profileId profileId

structure Lists (validator : ContextValidator ι) (root : Profile ι) (closure : List String)
    (result : List (Profile ι)) : Prop where
  sorted : (result.map Profile.profileId).Pairwise (· < ·)
  members : ∀ profile, profile ∈ result ↔
    ∃ profileId ∈ closure, validator.profileOf root profileId = some profile

omit [DecidableEq ι] in
theorem profileOf_profileId {profileId : String} {profile : Profile ι}
    (h : validator.profileOf root profileId = some profile) :
    profile.profileId = profileId := by
  unfold profileOf at h
  by_cases hroot : profileId = root.profileId
  · rw [if_pos hroot] at h
    rw [← Option.some.inj h, hroot]
  · rw [if_neg hroot] at h
    cases hnested : validator.context.nestedProfiles profileId with
    | none =>
      rw [hnested] at h
      cases h
    | some child =>
      rw [hnested] at h
      cases hmake : validator.reconstruct child with
      | error e =>
        simp only [hmake] at h
        cases h
      | ok made =>
        simp only [hmake] at h
        by_cases hid : made.profileId = profileId
        · rw [if_pos hid] at h
          rw [← Option.some.inj h, hid]
        · rw [if_neg hid] at h
          cases h

omit [DecidableEq ι] in
theorem Tracks.lists {s : Progress ι} {closure : List String}
    (h : validator.Tracks root s [] closure) :
    validator.Lists root closure (sortedValues s.profiles) := by
  have hmem : ∀ profileId profile, (profileId, profile) ∈ s.profiles.entries ↔
      profileId ∈ closure ∧ validator.profileOf root profileId = some profile := by
    intro profileId profile
    rw [← lookup_eq_some_iff s.profiles.nodup]
    have hget := h.profiles profileId profile
    rw [or_iff_right List.not_mem_nil] at hget
    exact hget
  have hperm := sortBy_perm Prod.fst s.profiles.entries
  constructor
  · have hids : (sortedValues s.profiles).map Profile.profileId =
        (sortBy Prod.fst s.profiles.entries).map Prod.fst := by
      unfold sortedValues
      rw [List.map_map]
      apply List.map_congr_left
      intro entry hentry
      exact profileOf_profileId ((hmem entry.1 entry.2).mp (hperm.mem_iff.mp hentry)).2
    rw [hids]
    have hle : ((sortBy Prod.fst s.profiles.entries).map Prod.fst).Pairwise (· ≤ ·) :=
      List.pairwise_map.mpr (sortBy_pairwise Prod.fst s.profiles.entries)
    have hnodup : ((sortBy Prod.fst s.profiles.entries).map Prod.fst).Nodup :=
      (hperm.map Prod.fst).nodup_iff.mpr s.profiles.nodup
    exact (hle.and hnodup).imp fun h => lt_of_le_of_ne h.1 h.2
  · intro profile
    unfold sortedValues
    rw [List.mem_map]
    constructor
    · rintro ⟨entry, hentry, rfl⟩
      exact ⟨entry.1, (hmem entry.1 entry.2).mp (hperm.mem_iff.mp hentry)⟩
    · rintro ⟨profileId, hentry⟩
      exact ⟨(profileId, profile), hperm.mem_iff.mpr ((hmem profileId profile).mpr hentry), rfl⟩

omit [DecidableEq ι] in
theorem tracks_start (root : Profile ι) :
    validator.Tracks root ⟨0, [], [], Dict.empty⟩ [] [] where
  visiting := rfl
  visited := rfl
  profiles := by
    intro profileId profile
    refine iff_of_false (fun h => nomatch h) ?_
    rintro ⟨h | h, -⟩ <;> cases h

omit [DecidableEq ι] in
theorem profileOf_root (root : Profile ι) :
    validator.profileOf root root.profileId = some root := if_pos rfl

/-- The walk of a closure: its profiles are accepted, each entered while fewer than
`max_nested_profiles` are finished, and its work is within the limit. -/
def ClosesWithin (validator : ContextValidator ι) (root : Profile ι) (closure : List String) :
    Prop :=
  Walk (validator.childrenOf root) (validator.Enters root) [] [] [root.profileId] closure ∧
    validator.closureWork root closure ≤ validator.limits.maxContextWork

theorem visit_root_closes {s : Progress ι} {fuel : ℕ}
    (h : validator.visit fuel root ⟨0, [], [], Dict.empty⟩ = .ok s) :
    ∃ closure, validator.ClosesWithin root closure ∧
      validator.Lists root closure (sortedValues s.profiles) := by
  obtain ⟨closure, hwalk, htracks, hused, hcost⟩ := visit_walked fuel root _ s [] []
    (tracks_start root) (Nat.zero_le _) (Or.inr rfl) (fun _ => profileOf_root root) h
  refine ⟨closure, ⟨hwalk, ?_⟩, htracks.lists⟩
  have hwork : s.used = validator.closureWork root closure := by
    have hnil : validator.total root [] = 0 := rfl
    rw [hnil] at hcost
    show s.used = 1 + validator.total root closure
    simp only at hcost
    omega
  rw [← hwork]
  exact hused

theorem visit_of_closes {closure : List String} (h : validator.ClosesWithin root closure) :
    ∃ s, validator.visit (validator.limits.maxContextWork + 1) root ⟨0, [], [], Dict.empty⟩ =
      .ok s := by
  obtain ⟨hwalk, hwork⟩ := h
  cases hwalk with
  | seen _ hseen _ => cases hseen
  | @enter _ _ _ inner _ _ _ _ henter hinner hrest =>
    cases hrest
    obtain ⟨hlimit, profile, hroot, haccepted⟩ := henter
    rw [profileOf_root, Option.some.injEq] at hroot
    subst hroot
    have hcost : 1 + validator.total root (root.profileId :: inner) ≤
        validator.limits.maxContextWork := hwork
    rw [total_cons, profileWork_eq (profileOf_root root)] at hcost
    have hrun : ∃ s, validator.visit (validator.limits.maxContextWork + 1) root
        ⟨0, [], [], Dict.empty⟩ = .ok s ∧
        validator.Tracks root s [] (root.profileId :: inner) := by
      refine visit_of_refs (tracks_start root) List.not_mem_nil List.not_mem_nil hlimit
        (profileOf_root root) haccepted ?_ fun u htracks hused => ?_
      · show 0 + 1 + contextWork root ≤ validator.limits.maxContextWork
        omega
      · replace hused : u.used = 0 + 1 + contextWork root := hused
        have hnil : validator.total root [] = 0 := rfl
        exact visitRefs_of_walk hinner List.mem_cons_self (childrenOf_eq (profileOf_root root))
          haccepted.refs htracks (by omega) (by omega)
    obtain ⟨s, hs, -⟩ := hrun
    exact ⟨s, hs⟩

end Root

section Resolution

variable {profile root : Profile ι}

omit [DecidableEq ι] in
theorem closedReconstruction_eq (h : validator.reconstruct profile = .ok root)
    (refusal : String) : validator.closedReconstruction refusal profile = .ok root := by
  unfold closedReconstruction
  rw [h]

/-- The resolution of a profile answers with the list of its closure, when it has one. -/
theorem resolve_closes (hroot : validator.reconstruct profile = .ok root)
    {result : List (Profile ι)}
    (h : validator.resolveMixedCompositionProfiles profile = .ok result) :
    ∃ closure, validator.ClosesWithin root closure ∧ validator.Lists root closure result := by
  unfold resolveMixedCompositionProfiles at h
  rw [closedReconstruction_eq hroot] at h
  obtain ⟨_, hmade, h⟩ := bind_eq_ok_iff.mp h
  cases Except.ok.inj hmade
  obtain ⟨s, hvisit, hresult⟩ := bind_eq_ok_iff.mp h
  cases Except.ok.inj hresult
  exact visit_root_closes hvisit

theorem resolve_of_closes (hroot : validator.reconstruct profile = .ok root)
    {closure : List String} (h : validator.ClosesWithin root closure) :
    ∃ result, validator.resolveMixedCompositionProfiles profile = .ok result := by
  obtain ⟨s, hvisit⟩ := visit_of_closes h
  refine ⟨sortedValues s.profiles, ?_⟩
  unfold resolveMixedCompositionProfiles
  rw [closedReconstruction_eq hroot]
  refine bind_eq_ok_iff.mpr ⟨root, rfl, ?_⟩
  exact bind_eq_ok_iff.mpr ⟨s, hvisit, rfl⟩

theorem resolve_ne_spent (profile : Profile ι) :
    validator.resolveMixedCompositionProfiles profile ≠ .error none := by
  intro h
  unfold resolveMixedCompositionProfiles at h
  cases hroot : validator.closedReconstruction
      "mixed composition root profile failed closed reconstruction" profile with
  | error e =>
    rw [hroot] at h
    cases h
  | ok root =>
    rw [hroot] at h
    have hwithin : validator.Within 0 (validator.visit (validator.limits.maxContextWork + 1) root
        ⟨0, [], [], Dict.empty⟩) :=
      within_visit _ root ⟨0, [], [], Dict.empty⟩ (Nat.zero_le _) (Nat.lt_succ_self _)
    replace h : (validator.visit (validator.limits.maxContextWork + 1) root
      ⟨0, [], [], Dict.empty⟩ >>= fun s => pure (sortedValues s.profiles)) = .error none := h
    cases hvisit : validator.visit (validator.limits.maxContextWork + 1) root
        ⟨0, [], [], Dict.empty⟩ with
    | ok s =>
      rw [hvisit] at h
      cases h
    | error e =>
      rw [hvisit] at h hwithin
      cases e with
      | none => exact hwithin
      | some e => cases h

end Resolution

end ContextValidator

end Raes.Composition
