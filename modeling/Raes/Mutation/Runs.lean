import Raes.Mutation.Exclusion

/-!
# Runs of the mutation authority

What holds after every run of the authority, in whatever order its threads and
tasks take their steps, when three kinds of steps come at a time that the source
does not check.  A step of each kind at another time breaks it.
-/

namespace Raes.Mutation

/-! ## What the authority promises -/

def Holds (s : System) : Owner → Prop
  | .thread t => s.authority.ownerThread = some t
  | .reservation r => s.authority.reservation = some r

/-- A non-supervisory effect of the participant is in progress.  A thread's
lasts as long as an own context outside a supervisory cut is open, a
reservation's from the grant until its context and all that runs under it has
closed. -/
def InEffect (s : System) : Owner → Prop
  | .thread t => NonSupervisory (s.threads t).mutations
  | .reservation r => (s.tasks r).granted = true ∨ ∃ t, (s.threads t).Under r

def Idle (s : System) : Prop :=
  (∀ t, (s.threads t).mutations = [] ∧ (s.threads t).external = .absent) ∧
    ∀ r, s.tasks r = .unstarted ∨ s.tasks r = .left

structure Exclusive (s : System) : Prop where
  permit : ∀ p q, Holds s p → Holds s q → p = q
  runs : ∀ t, 0 < ownFrames (s.threads t).mutations →
    (∀ saved, (s.threads t).external ≠ .inside saved) → (s.threads t).abandonedDepth = 0 →
    Holds s (.thread t)
  effect : ∀ p q, InEffect s p → InEffect s q → p = q
  idle : Idle s → s.authority = initialAuthority ∧ ∀ t, (s.threads t).abandonedDepth = 0

section Promise

variable {s : System}

section

variable (h : Consistent s)
include h

theorem Consistent.permit {p q : Owner} (hp : Holds s p) (hq : Holds s q) : p = q := by
  cases p with
  | thread t =>
    have hp : s.authority.ownerThread = some t := hp
    cases q with
    | thread u => exact congrArg Owner.thread (Option.some_inj.mp (hp.symm.trans hq))
    | reservation r =>
      have hnone := h.single (by rw [hp]; exact nofun)
      exact absurd (hnone.symm.trans hq) nofun
  | reservation r =>
    have hp : s.authority.reservation = some r := hp
    cases q with
    | thread u =>
      have hq : s.authority.ownerThread = some u := hq
      have hnone := h.single (by rw [hq]; exact nofun)
      exact absurd (hnone.symm.trans hp) nofun
    | reservation r' => exact congrArg Owner.reservation (Option.some_inj.mp (hp.symm.trans hq))

theorem Consistent.runs {t : ThreadId} (hframes : 0 < ownFrames (s.threads t).mutations)
    (houtside : ∀ saved, (s.threads t).external ≠ .inside saved)
    (habandoned : (s.threads t).abandonedDepth = 0) : Holds s (.thread t) := by
  have hbalance := (h.thread t).balance
  have hsaved : (s.threads t).external.savedDepth t = 0 := by
    cases hexternal : (s.threads t).external with
    | absent => rfl
    | requested under => rfl
    | inside saved => exact absurd hexternal (houtside saved)
  by_contra hown
  have hown : s.authority.ownerThread ≠ some t := hown
  simp only [heldDepth, hsaved, if_neg hown] at hbalance
  omega

/-- An effect in progress has the effect reservation, or its thread has the
permit and nobody has the effect reservation. -/
theorem Consistent.effectOwner_of_inEffect {p : Owner} (hp : InEffect s p) :
    s.authority.effectOwner = some p ∨ Holds s p ∧ s.authority.effectOwner = none := by
  cases p with
  | thread t => exact (h.thread t).nonSupervisory hp
  | reservation r =>
    refine Or.inl ((h.task r).granted.mp ?_)
    rcases hp with hgranted | ⟨t, hunder⟩
    · exact hgranted
    · rw [h.under t r hunder]
      rfl

theorem Consistent.effect {p q : Owner} (hp : InEffect s p) (hq : InEffect s q) : p = q := by
  rcases h.effectOwner_of_inEffect hp with hp' | ⟨hpHolds, hpNone⟩
  · rcases h.effectOwner_of_inEffect hq with hq' | ⟨_, hqNone⟩
    · exact Option.some_inj.mp (hp'.symm.trans hq')
    · exact absurd (hp'.symm.trans hqNone) nofun
  · rcases h.effectOwner_of_inEffect hq with hq' | ⟨hqHolds, _⟩
    · exact absurd (hq'.symm.trans hpNone) nofun
    · exact h.permit hpHolds hqHolds

theorem Consistent.idle (hidle : Idle s) :
    s.authority = initialAuthority ∧ ∀ t, (s.threads t).abandonedDepth = 0 := by
  obtain ⟨hthreads, htasks⟩ := hidle
  have hframes : ∀ t, ownFrames (s.threads t).mutations = 0 := by
    intro t
    rw [(hthreads t).1]
    rfl
  have hbalance : ∀ t, (s.threads t).abandonedDepth +
      (if s.authority.ownerThread = some t then s.authority.depth else 0) = 0 := by
    intro t
    have := (h.thread t).balance
    simp only [hframes, heldDepth, (hthreads t).2, ExternalCall.savedDepth] at this
    omega
  have hgranted : ∀ r, (s.tasks r).granted = false ∧ (s.tasks r).queued = false := by
    intro r
    rcases htasks r with hr | hr <;> rw [hr] <;> exact ⟨rfl, rfl⟩
  have howner : s.authority.ownerThread = none := by
    by_contra hsome
    obtain ⟨t, ht⟩ := Option.ne_none_iff_exists'.mp hsome
    have hdepth := (h.thread t).owner_depth ht
    have hnonneg := (h.thread t).abandoned_nonneg
    have := hbalance t
    rw [if_pos ht] at this
    omega
  have heffect : s.authority.effectOwner = none := by
    by_contra hsome
    obtain ⟨o, ho⟩ := Option.ne_none_iff_exists'.mp hsome
    cases o with
    | thread t =>
      have hpos := (h.thread t).effect ho
      rw [hframes t] at hpos
      exact absurd hpos (Int.lt_irrefl 0)
    | reservation r =>
      have htrue := (h.task r).granted.mpr ho
      rw [(hgranted r).1] at htrue
      exact Bool.noConfusion htrue
  have hreservation : s.authority.reservation = none := by
    by_contra hsome
    obtain ⟨r, hr⟩ := Option.ne_none_iff_exists'.mp hsome
    exact Option.some_ne_none _ ((h.reservation r hr).symm.trans heffect)
  have hwaiters : s.authority.asyncWaiters = [] := by
    refine List.eq_nil_iff_forall_not_mem.mpr fun r hr => ?_
    have hqueued := (h.task r).queued hr
    rw [(hgranted r).2] at hqueued
    exact Bool.noConfusion hqueued
  refine ⟨?_, fun t => ?_⟩
  · have hdepth := h.free_depth howner
    show Authority.mk _ _ _ _ _ = Authority.mk _ _ _ _ _
    rw [howner, hreservation, heffect, hwaiters, hdepth]
  · have := hbalance t
    rw [if_neg (by simp [howner])] at this
    omega

theorem Consistent.exclusive : Exclusive s where
  permit := fun _ _ hp hq => h.permit hp hq
  runs := fun _ hframes houtside habandoned => h.runs hframes houtside habandoned
  effect := fun _ _ hp hq => h.effect hp hq
  idle := h.idle

end

end Promise

/-! ## Steps and runs -/

/-- The times that the source does not check: the section of an external call
that gives up the permit, the end of one that does not get it back, and the end
of a `reserve` context. -/
def StepSafe (s : System) : Action → Prop
  | .enterExternal t => EntersOwned s t
  | .timeOutExternal t => TimesOutOnce s t
  | .leave r => LeavesLast s r
  | _ => True

theorem consistent_initial : Consistent initialSystem where
  single := fun _ => rfl
  free_depth := fun _ => rfl
  reservation := nofun
  waiters_nodup := List.nodup_nil
  thread := fun t => {
    balance := rfl
    abandoned_nonneg := Int.le_refl 0
    owner_depth := nofun
    owner_outside := nofun
    saved := nofun
    effect := nofun
    nonSupervisory := fun ⟨_, hmem, _⟩ => absurd hmem List.not_mem_nil }
  task := fun r => {
    granted := iff_of_false Bool.false_ne_true nofun
    queued := fun hmem => absurd hmem List.not_mem_nil
    resolved := nofun }
  under := by
    rintro t r (⟨_, hmem, _⟩ | hrequested | ⟨_, hinside, _⟩)
    · exact absurd hmem List.not_mem_nil
    · exact nomatch hrequested
    · exact nomatch hinside

theorem consistent_after {s s' : System} {action : Action} (h : Consistent s)
    (hsafe : StepSafe s action) (hs : s.after action = some s') : Consistent s' := by
  cases action with
  | enterMutation t active supervision => exact consistent_enterMutation h hs
  | exitMutation t => exact consistent_exitMutation h hs
  | requestExternal t active => exact consistent_requestExternal h hs
  | enterExternal t => exact consistent_enterExternal h hsafe hs
  | returnExternal t => exact consistent_returnExternal h hs
  | timeOutExternal t => exact consistent_timeOutExternal h hsafe hs
  | reserve r => exact consistent_reserve h hs
  | completeWaiter r => exact consistent_completeWaiter h hs
  | interrupt r => exact consistent_interrupt h hs
  | resume r => exact consistent_resume h hs
  | abort r => exact consistent_abort h hs
  | leave r => exact consistent_leave h hsafe hs

theorem consistent_step (s : System) (action : Action) (h : Consistent s)
    (hsafe : StepSafe s action) : Consistent (step s action) := by
  unfold step
  cases hs : s.after action with
  | none => exact h
  | some s' => exact consistent_after h hsafe hs

theorem exclusive_along (actions : List Action)
    (hsafe : Run.Along step StepSafe initialSystem actions) :
    Exclusive (Run.run step initialSystem actions) :=
  (Run.run_invariant_along consistent_step initialSystem actions consistent_initial hsafe).exclusive

/-- A plain mutation with an external call in it. -/
theorem exclusive_along_plainMutation :
    Exclusive (Run.run step initialSystem [.enterMutation 1 none false, .requestExternal 1 none,
      .enterExternal 1, .returnExternal 1, .exitMutation 1]) := by
  refine exclusive_along _ ⟨trivial, trivial, ?_, trivial, trivial, trivial⟩
  intro _ _
  exact ⟨Or.inl (by decide +kernel), fun _ _ => by decide +kernel⟩

/-! ## Steps at another time -/

theorem not_exclusive_of_lost {s : System} {t : ThreadId}
    (hframes : 0 < ownFrames (s.threads t).mutations) (houtside : (s.threads t).external = .absent)
    (habandoned : (s.threads t).abandonedDepth = 0) (hlost : s.authority.ownerThread ≠ some t) :
    ¬ Exclusive s := by
  intro h
  refine hlost (h.runs t hframes ?_ habandoned)
  intro saved
  rw [houtside]
  exact nofun

/-- The task of a reservation closes its context while a worker thread is in an
external call under it. -/
def cancelledTask : List Action :=
  [.reserve 0, .enterMutation 1 (some 0) false, .requestExternal 1 (some 0), .enterExternal 1,
    .leave 0, .returnExternal 1, .exitMutation 1]

theorem idle_cancelledTask : Idle (Run.run step initialSystem cancelledTask) := by
  constructor
  · intro t
    by_cases ht : t = 1
    · subst ht
      decide +kernel
    · have hidle : (Run.run step initialSystem cancelledTask).threads t = idleThread :=
        calc (Run.run step initialSystem cancelledTask).threads t
            = _ := Function.update_of_ne ht ..
          _ = _ := Function.update_of_ne ht ..
          _ = _ := Function.update_of_ne ht ..
          _ = _ := Function.update_of_ne ht ..
          _ = idleThread := Function.update_of_ne ht ..
      rw [hidle]
      exact ⟨rfl, rfl⟩
  · intro r
    by_cases hr : r = 0
    · subst hr
      exact Or.inr (by decide +kernel)
    · refine Or.inl ?_
      calc (Run.run step initialSystem cancelledTask).tasks r
          = _ := Function.update_of_ne hr ..
        _ = .unstarted := Function.update_of_ne hr ..

/-- A thread loses the permit in an external call, opens a supervisory cut, and
loses the permit again. -/
def lostTwice : List Action :=
  [.enterMutation 1 none false, .requestExternal 1 none, .enterExternal 1,
    .enterMutation 2 none true, .timeOutExternal 1, .exitMutation 2,
    .enterMutation 1 none true, .requestExternal 1 none, .enterExternal 1,
    .enterMutation 2 none true, .timeOutExternal 1, .exitMutation 1, .exitMutation 1]

/-- Two threads start an external call under one reservation, and a supervisory
cut opens between the two. -/
def sharedReservation : List Action :=
  [.reserve 0, .requestExternal 1 (some 0), .requestExternal 2 (some 0), .enterExternal 1,
    .enterMutation 3 none true, .enterExternal 2]

/-- Each unsafe step breaks a promise: the cancelled task leaks the permit, the
thread that loses its permit twice closes another thread's context, and the
second thread of the reservation takes the supervisor's permit. -/
theorem not_exclusive_unsafe :
    ¬ Exclusive (Run.run step initialSystem cancelledTask) ∧
      ¬ Exclusive (Run.run step initialSystem lostTwice) ∧
      ¬ Exclusive (Run.run step initialSystem sharedReservation) := by
  refine ⟨?_, ?_, ?_⟩
  · intro h
    have hauthority := (h.idle idle_cancelledTask).1
    exact absurd hauthority (by decide +kernel)
  · exact not_exclusive_of_lost (t := 2) (by decide +kernel) (by decide +kernel)
      (by decide +kernel) (by decide +kernel)
  · exact not_exclusive_of_lost (t := 3) (by decide +kernel) (by decide +kernel)
      (by decide +kernel) (by decide +kernel)

end Raes.Mutation
