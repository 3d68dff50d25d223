import Raes.Mutation.Authority

/-!
# Exclusion under the mutation authority

The accounting that the steps of the authority keep.  The own mutation contexts
of a thread are those that its depth counts, in the authority or saved by an
external call, and those that it has abandoned; an effect reservation belongs to
a thread with an own context or to a task whose waiter was granted.
-/

namespace Raes.Mutation

/-! ## Accounts -/

/-- How many contexts do not run under a reservation. -/
def ownFrames (frames : List MutationFrame) : ℤ :=
  (frames.countP fun frame => frame.reserved.isNone : ℕ)

/-- Some own context is outside a supervisory cut. -/
def NonSupervisory (frames : List MutationFrame) : Prop :=
  ∃ frame ∈ frames, frame.reserved = none ∧ frame.supervisoryCut = false

def ThreadLocal.Under (l : ThreadLocal) (r : ReservationId) : Prop :=
  (∃ frame ∈ l.mutations, frame.reserved = some r) ∨ l.external = .requested (some r) ∨
    ∃ saved, l.external = .inside saved ∧ saved.reservation = some r

def ExternalCall.savedDepth (t : ThreadId) : ExternalCall → ℤ
  | .inside saved => if saved.ownerThread = some t then saved.depth else 0
  | _ => 0

def heldDepth (a : Authority) (t : ThreadId) (l : ThreadLocal) : ℤ :=
  (if a.ownerThread = some t then a.depth else 0) + l.external.savedDepth t

def Task.granted : Task → Bool
  | .awaiting waiter => waiter.granted
  | .interrupted waiter => waiter.granted
  | .inside => true
  | _ => false

def Task.queued : Task → Bool
  | .awaiting waiter => !waiter.granted
  | .interrupted waiter => !waiter.granted
  | _ => false

/-- The permit that an external call has saved is the thread's own or that of
the reservation of its context. -/
def SavedPermit.Of (saved : SavedPermit) (t : ThreadId) : Prop :=
  (saved.ownerThread = some t ∧ saved.reservation = none ∧ 0 < saved.depth) ∨
    (saved.ownerThread = none ∧ saved.reservation ≠ none ∧ saved.depth = 0)

structure ThreadConsistent (a : Authority) (t : ThreadId) (l : ThreadLocal) : Prop where
  balance : ownFrames l.mutations = l.abandonedDepth + heldDepth a t l
  abandoned_nonneg : 0 ≤ l.abandonedDepth
  owner_depth : a.ownerThread = some t → 0 < a.depth
  owner_outside : a.ownerThread = some t → ∀ saved, l.external ≠ .inside saved
  saved : ∀ saved, l.external = .inside saved → saved.Of t
  effect : a.effectOwner = some (.thread t) → 0 < ownFrames l.mutations
  nonSupervisory : NonSupervisory l.mutations → a.effectOwner = some (.thread t) ∨
    a.ownerThread = some t ∧ a.effectOwner = none

structure TaskConsistent (a : Authority) (r : ReservationId) (task : Task) : Prop where
  granted : task.granted = true ↔ a.effectOwner = some (.reservation r)
  queued : r ∈ a.asyncWaiters → task.queued = true
  resolved : ∀ waiter, task = .awaiting waiter → waiter.future = .resolved → waiter.granted = true

structure Consistent (s : System) : Prop where
  single : s.authority.ownerThread ≠ none → s.authority.reservation = none
  free_depth : s.authority.ownerThread = none → s.authority.depth = 0
  reservation : ∀ r, s.authority.reservation = some r →
    s.authority.effectOwner = some (.reservation r)
  waiters_nodup : s.authority.asyncWaiters.Nodup
  thread : ∀ t, ThreadConsistent s.authority t (s.threads t)
  task : ∀ r, TaskConsistent s.authority r (s.tasks r)
  under : ∀ t r, (s.threads t).Under r → s.tasks r = .inside

section Facts

variable {s : System} {a a' : Authority} {t u : ThreadId} {r q : ReservationId} {l : ThreadLocal}

@[simp] theorem authority_setThread : (s.setThread t l).authority = s.authority := rfl

variable (task : Task)

@[simp] theorem authority_setTask : (s.setTask r task).authority = s.authority := rfl

@[simp] theorem authority_setAuthority : (s.setAuthority a).authority = a := rfl

@[simp] theorem threads_setAuthority : (s.setAuthority a).threads = s.threads := rfl

@[simp] theorem threads_setTask : (s.setTask r task).threads = s.threads := rfl

@[simp] theorem tasks_setAuthority : (s.setAuthority a).tasks = s.tasks := rfl

@[simp] theorem tasks_setThread : (s.setThread t l).tasks = s.tasks := rfl

@[simp] theorem threads_setThread_same : (s.setThread t l).threads t = l :=
  Function.update_self ..

theorem threads_setThread_ne (h : u ≠ t) : (s.setThread t l).threads u = s.threads u :=
  Function.update_of_ne h ..

@[simp] theorem tasks_setTask_same : (s.setTask r task).tasks r = task :=
  Function.update_self ..

theorem tasks_setTask_ne (h : q ≠ r) : (s.setTask r task).tasks q = s.tasks q :=
  Function.update_of_ne h ..

@[simp] theorem tasks_grant_same : (s.grant r).tasks r = (s.tasks r).grant :=
  tasks_setTask_same _

theorem tasks_grant_ne (h : q ≠ r) : (s.grant r).tasks q = s.tasks q := tasks_setTask_ne _ h

@[simp] theorem setThread_setThread (l l' : ThreadLocal) :
    (s.setThread t l).setThread t l' = s.setThread t l' := by
  unfold System.setThread
  rw [Function.update_idem]

theorem ThreadConsistent.of_other (h : ThreadConsistent a u l)
    (howner : a'.ownerThread = some u ↔ a.ownerThread = some u)
    (hdepth : a.ownerThread = some u → a'.depth = a.depth)
    (heffect : a'.effectOwner = some (.thread u) ↔ a.effectOwner = some (.thread u))
    (hnone : a.ownerThread = some u → a.effectOwner = none → a'.effectOwner = none) :
    ThreadConsistent a' u l where
  balance := by
    have hheld : heldDepth a' u l = heldDepth a u l := by
      unfold heldDepth
      by_cases hu : a.ownerThread = some u
      · rw [if_pos hu, if_pos (howner.mpr hu), hdepth hu]
      · rw [if_neg hu, if_neg fun h => hu (howner.mp h)]
    rw [hheld]
    exact h.balance
  abandoned_nonneg := h.abandoned_nonneg
  owner_depth := by
    intro hu
    rw [hdepth (howner.mp hu)]
    exact h.owner_depth (howner.mp hu)
  owner_outside := fun hu => h.owner_outside (howner.mp hu)
  saved := h.saved
  effect := fun hu => h.effect (heffect.mp hu)
  nonSupervisory := by
    intro hns
    rcases h.nonSupervisory hns with heff | ⟨hu, hn⟩
    · exact Or.inl (heffect.mpr heff)
    · exact Or.inr ⟨howner.mpr hu, hnone hu hn⟩

theorem TaskConsistent.of_other {task : Task} (h : TaskConsistent a q task)
    (heffect : a'.effectOwner = some (.reservation q) ↔ a.effectOwner = some (.reservation q))
    (hqueue : q ∈ a'.asyncWaiters → q ∈ a.asyncWaiters) : TaskConsistent a' q task where
  granted := h.granted.trans heffect.symm
  queued := fun hq => h.queued (hqueue hq)
  resolved := h.resolved

end Facts

/-! ## Granting the next waiter -/

theorem queued_grant {task : Task} (h : task.queued = true) :
    task.grant.granted = true ∧
      ∀ waiter, task.grant = .awaiting waiter → waiter.granted = true := by
  cases task with
  | awaiting waiter =>
    refine ⟨rfl, ?_⟩
    intro w hw
    obtain rfl := Task.awaiting.inj hw
    rfl
  | interrupted waiter => exact ⟨rfl, nofun⟩
  | unstarted => exact Bool.noConfusion h
  | inside => exact Bool.noConfusion h
  | left => exact Bool.noConfusion h

theorem not_granted_of_queued {task : Task} (h : task.queued = true) : task.granted = false := by
  cases task with
  | awaiting waiter => simpa [Task.queued, Task.granted] using h
  | interrupted waiter => simpa [Task.queued, Task.granted] using h
  | unstarted => rfl
  | inside => exact Bool.noConfusion h
  | left => rfl

theorem consistent_grantNextWaiterLocked {s : System} (h : Consistent s) :
    Consistent s.grantNextWaiterLocked := by
  unfold System.grantNextWaiterLocked
  by_cases hbusy : s.authority.effectOwner ≠ none ∨ ¬ s.authority.permitIsFree
  · simp only [if_pos hbusy]
    exact h
  · simp only [if_neg hbusy]
    obtain ⟨heffect, hfree⟩ : s.authority.effectOwner = none ∧ s.authority.permitIsFree := by
      simpa only [not_or, ne_eq, not_not] using hbusy
    have hsub := List.dropWhile_sublist s.futureCancelled (l := s.authority.asyncWaiters)
    cases hdrop : s.authority.asyncWaiters.dropWhile s.futureCancelled with
    | nil =>
      refine ⟨h.single, h.free_depth, h.reservation, List.nodup_nil, ?_, ?_, h.under⟩
      · intro t
        exact (h.thread t).of_other Iff.rfl (fun _ => rfl) Iff.rfl fun _ hn => hn
      · intro r
        exact (h.task r).of_other Iff.rfl fun hr => absurd hr List.not_mem_nil
    | cons r rest =>
      rw [hdrop] at hsub
      have hnodup := h.waiters_nodup.sublist hsub
      rw [List.nodup_cons] at hnodup
      have hqueued := (h.task r).queued (hsub.subset List.mem_cons_self)
      have hgrant := queued_grant hqueued
      show Consistent ((s.setAuthority { s.authority with
        reservation := some r
        effectOwner := some (.reservation r)
        asyncWaiters := rest }).grant r)
      refine ⟨fun hown => absurd hfree.1 hown, h.free_depth, ?_, hnodup.2, ?_, ?_, ?_⟩
      · intro q hq
        obtain rfl : r = q := Option.some_inj.mp hq
        rfl
      · intro t
        refine (h.thread t).of_other Iff.rfl (fun _ => rfl) ?_ ?_
        · show some (Owner.reservation r) = _ ↔ s.authority.effectOwner = _
          simp [heffect]
        · intro hown _
          rw [hfree.1] at hown
          exact nomatch hown
      · intro q
        by_cases hq : q = r
        · subst hq
          rw [tasks_grant_same]
          exact ⟨iff_of_true hgrant.1 rfl, fun hmem => absurd hmem hnodup.1,
            fun waiter hw _ => hgrant.2 waiter hw⟩
        · rw [tasks_grant_ne hq]
          refine (h.task q).of_other ?_ ?_
          · show some (Owner.reservation r) = _ ↔ s.authority.effectOwner = _
            simp [heffect, Ne.symm hq]
          · intro hmem
            exact hsub.subset (List.mem_cons_of_mem r hmem)
      · intro t q hunder
        have hinside := h.under t q hunder
        have hq : q ≠ r := by
          rintro rfl
          rw [hinside] at hqueued
          exact Bool.noConfusion hqueued
        rw [tasks_grant_ne hq]
        exact hinside

section OneThread

variable {s s' : System} {a' : Authority} {t : ThreadId} {l : ThreadLocal}

/-- A step of one thread keeps the accounts when it keeps the thread's own and
takes nothing that the others read. -/
theorem Consistent.update_thread (h : Consistent s)
    (hsingle : a'.ownerThread ≠ none → a'.reservation = none)
    (hfree : a'.ownerThread = none → a'.depth = 0)
    (hreservation : ∀ r, a'.reservation = some r → a'.effectOwner = some (.reservation r))
    (hwaiters : a'.asyncWaiters = s.authority.asyncWaiters)
    (ht : ThreadConsistent a' t l)
    (howner : ∀ u, u ≠ t → (a'.ownerThread = some u ↔ s.authority.ownerThread = some u))
    (hdepth : ∀ u, u ≠ t → s.authority.ownerThread = some u → a'.depth = s.authority.depth)
    (heffect : ∀ o, o ≠ Owner.thread t →
      (a'.effectOwner = some o ↔ s.authority.effectOwner = some o))
    (hnone : ∀ u, u ≠ t → s.authority.ownerThread = some u → s.authority.effectOwner = none →
      a'.effectOwner = none)
    (hunder : ∀ r, l.Under r → s.tasks r = .inside) :
    Consistent ((s.setAuthority a').setThread t l) := by
  refine ⟨hsingle, hfree, hreservation, ?_, ?_, ?_, ?_⟩
  · show a'.asyncWaiters.Nodup
    rw [hwaiters]
    exact h.waiters_nodup
  · intro u
    by_cases hu : u = t
    · subst hu
      rw [threads_setThread_same]
      exact ht
    · rw [threads_setThread_ne hu]
      exact (h.thread u).of_other (howner u hu) (hdepth u hu)
        (heffect _ fun heq => hu (Owner.thread.inj heq)) (hnone u hu)
  · intro r
    refine (h.task r).of_other (heffect _ nofun) ?_
    show r ∈ a'.asyncWaiters → _
    rw [hwaiters]
    exact id
  · intro u r hr
    by_cases hu : u = t
    · subst hu
      rw [threads_setThread_same] at hr
      exact hunder r hr
    · rw [threads_setThread_ne hu] at hr
      exact h.under u r hr

theorem Consistent.update_local (h : Consistent s) (ht : ThreadConsistent s.authority t l)
    (hunder : ∀ r, l.Under r → s.tasks r = .inside) : Consistent (s.setThread t l) :=
  h.update_thread h.single h.free_depth h.reservation rfl ht (fun _ _ => Iff.rfl)
    (fun _ _ _ => rfl) (fun _ _ => Iff.rfl) (fun _ _ _ hn => hn) hunder

/-! ## Contexts -/

theorem ownFrames_cons (frame : MutationFrame) (rest : List MutationFrame) :
    ownFrames (frame :: rest) = ownFrames rest + if frame.reserved.isSome then 0 else 1 := by
  unfold ownFrames
  rw [List.countP_cons]
  cases frame.reserved <;> simp

theorem ownFrames_cons_reserved (r : ReservationId) (cut : Bool) (rest : List MutationFrame) :
    ownFrames (⟨some r, cut⟩ :: rest) = ownFrames rest := by
  rw [ownFrames_cons]
  exact Int.add_zero _

theorem ownFrames_cons_own (cut : Bool) (rest : List MutationFrame) :
    ownFrames (⟨none, cut⟩ :: rest) = ownFrames rest + 1 :=
  ownFrames_cons ..

theorem ownFrames_nonneg (frames : List MutationFrame) : 0 ≤ ownFrames frames :=
  Int.natCast_nonneg _

theorem nonSupervisory_cons_reserved {r : ReservationId} {cut : Bool}
    {rest : List MutationFrame} :
    NonSupervisory (⟨some r, cut⟩ :: rest) ↔ NonSupervisory rest := by
  simp [NonSupervisory]

theorem nonSupervisory_of_cons {cut : Bool} {rest : List MutationFrame}
    (h : NonSupervisory (⟨none, cut⟩ :: rest)) : NonSupervisory rest ∨ cut = false := by
  obtain ⟨frame, hmem, hres, hcut⟩ := h
  rcases List.mem_cons.mp hmem with rfl | hmem
  · exact Or.inr hcut
  · exact Or.inl ⟨frame, hmem, hres, hcut⟩

variable {frame : MutationFrame} {rest : List MutationFrame}

theorem nonSupervisory_cons (h : NonSupervisory rest) : NonSupervisory (frame :: rest) := by
  obtain ⟨other, hmem, hother⟩ := h
  exact ⟨other, List.mem_cons_of_mem _ hmem, hother⟩

theorem nonSupervisory_of_ownFrames {frames : List MutationFrame} (hown : 0 < ownFrames frames)
    (hcut : frames.any MutationFrame.supervisoryCut = false) : NonSupervisory frames := by
  have hcount : 0 < frames.countP fun frame => frame.reserved.isNone := by
    unfold ownFrames at hown
    omega
  obtain ⟨frame, hmem, hres⟩ := List.countP_pos_iff.mp hcount
  refine ⟨frame, hmem, by simpa using hres, ?_⟩
  have hall := List.any_eq_false.mp hcut frame hmem
  simpa using hall

theorem under_cons_own {cut : Bool} {r : ReservationId}
    (h : ({ l with mutations := ⟨none, cut⟩ :: l.mutations } : ThreadLocal).Under r) :
    l.Under r := by
  rcases h with ⟨frame, hmem, hframe⟩ | hexternal
  · rcases List.mem_cons.mp hmem with rfl | hmem
    · exact nomatch hframe
    · exact Or.inl ⟨frame, hmem, hframe⟩
  · exact Or.inr hexternal

theorem under_of_rest {abandoned : ℤ} {r : ReservationId} (hframes : l.mutations = frame :: rest)
    (h : ({ l with mutations := rest, abandonedDepth := abandoned } : ThreadLocal).Under r) :
    l.Under r := by
  rcases h with ⟨other, hmem, hother⟩ | hexternal
  · exact Or.inl ⟨other, hframes ▸ List.mem_cons_of_mem _ hmem, hother⟩
  · exact Or.inr hexternal

theorem ownFrames_pos {frames : List MutationFrame} (h : NonSupervisory frames) :
    0 < ownFrames frames := by
  obtain ⟨frame, hmem, hres, _⟩ := h
  have hcount : 0 < frames.countP fun frame => frame.reserved.isNone :=
    List.countP_pos_iff.mpr ⟨frame, hmem, by simp [hres]⟩
  unfold ownFrames
  omega

theorem consistent_enterMutation {active : Option ReservationId} {supervision : Bool}
    (h : Consistent s) (hs : s.enterMutation t active supervision = some s') : Consistent s' := by
  have ht := h.thread t
  unfold System.enterMutation at hs
  simp only at hs
  split at hs
  · exact nomatch hs
  · rename_i hexternal
    have habsent : (s.threads t).external = .absent := by simpa using hexternal
    cases active with
    | some r =>
      simp only at hs
      split at hs
      · rename_i hactive
        obtain rfl := Option.some_inj.mp hs
        refine h.update_local ⟨?_, ht.abandoned_nonneg, ht.owner_depth, ht.owner_outside, ht.saved,
          ?_, ?_⟩ ?_
        · rw [ownFrames_cons_reserved]
          exact ht.balance
        · rw [ownFrames_cons_reserved]
          exact ht.effect
        · rw [nonSupervisory_cons_reserved]
          exact ht.nonSupervisory
        · rintro q (⟨frame, hmem, hframe⟩ | hq)
          · rcases List.mem_cons.mp hmem with rfl | hmem
            · obtain rfl := Option.some_inj.mp hframe
              have hgranted := (h.task r).granted.mpr (h.reservation r hactive.2)
              refine hactive.1.resolve_right fun hleft => ?_
              rw [hleft] at hgranted
              exact Bool.noConfusion hgranted
            · exact h.under t q (Or.inl ⟨frame, hmem, hframe⟩)
          · exact h.under t q (Or.inr hq)
      · exact nomatch hs
    | none =>
      simp only at hs
      split at hs
      · rename_i hown
        obtain rfl := Option.some_inj.mp hs
        have hpos := ht.owner_depth hown
        refine h.update_thread h.single (fun hno => absurd hown (by rw [hno]; simp)) h.reservation
          rfl ⟨?_, ht.abandoned_nonneg, fun _ => ?_, ht.owner_outside, ht.saved, ?_, ?_⟩
          (fun _ _ => Iff.rfl) ?_ (fun _ _ => Iff.rfl) (fun _ _ _ hn => hn)
          (fun r hr => h.under t r (under_cons_own hr))
        · rw [ownFrames_cons_own]
          have hbalance := ht.balance
          simp only [heldDepth, if_pos hown] at hbalance ⊢
          omega
        · show 0 < s.authority.depth + 1
          omega
        · intro _
          rw [ownFrames_cons_own]
          have := ownFrames_nonneg (s.threads t).mutations
          omega
        · intro hns
          refine ht.nonSupervisory ?_
          rcases nonSupervisory_of_cons hns with hl | hcut
          · exact hl
          · have hbalance := ht.balance
            have hnonneg := ht.abandoned_nonneg
            simp only [heldDepth, if_pos hown, habsent, ExternalCall.savedDepth] at hbalance
            exact nonSupervisory_of_ownFrames (by omega) (Bool.or_eq_false_iff.mp hcut).2
        · intro u hu hown'
          rw [hown] at hown'
          exact absurd (Option.some_inj.mp hown').symm hu
      · split at hs
        · rename_i hown hadmit
          obtain rfl := Option.some_inj.mp hs
          obtain ⟨⟨hno, hres⟩, hguard⟩ := hadmit
          have hnobody : ∀ u, s.authority.ownerThread ≠ some u := by
            intro u
            rw [hno]
            exact nofun
          refine h.update_thread (fun _ => hres) nofun ?_ rfl
            ⟨?_, ht.abandoned_nonneg, fun _ => Int.one_pos, ?_, ht.saved, ?_, ?_⟩ ?_ ?_ ?_ ?_
            (fun r hr => h.under t r (under_cons_own hr))
          · intro r hr
            rw [show s.authority.reservation = some r from hr] at hres
            exact nomatch hres
          · rw [ownFrames_cons_own]
            have hbalance := ht.balance
            simp only [heldDepth, if_neg (hnobody t), habsent, ExternalCall.savedDepth] at hbalance ⊢
            simp only [if_true]
            omega
          · intro _ saved hsaved
            rw [show (s.threads t).external = .inside saved from hsaved] at habsent
            exact nomatch habsent
          · intro _
            rw [ownFrames_cons_own]
            have := ownFrames_nonneg (s.threads t).mutations
            omega
          · intro hns
            by_cases hcut : (supervision ||
                (s.threads t).mutations.any MutationFrame.supervisoryCut) = true
            · refine Or.inl ?_
              rcases nonSupervisory_of_cons hns with hl | hcut'
              · rcases ht.nonSupervisory hl with heff | ⟨hown', _⟩
                · simpa [hcut] using heff
                · exact absurd hown' (hnobody t)
              · rw [hcut] at hcut'
                exact Bool.noConfusion hcut'
            · exact Or.inl (by simp [hcut])
          · intro u hu
            refine iff_of_false ?_ (hnobody u)
            exact fun heq => hu (Option.some_inj.mp heq).symm
          · exact fun u _ hown' => absurd hown' (hnobody u)
          · intro o ho
            by_cases hcut : (supervision ||
                (s.threads t).mutations.any MutationFrame.supervisoryCut) = true
            · simp [hcut]
            · have heffect : s.authority.effectOwner = none := (hguard.resolve_left hcut).1
              simp [hcut, heffect, Ne.symm ho]
          · exact fun u _ hown' => absurd hown' (hnobody u)
        · exact nomatch hs

/-! ## Closing a context -/

theorem consistent_releaseMutationLocked (h : Consistent s) (habsent :
    (s.threads t).external = .absent) (hframes : (s.threads t).mutations = frame :: rest)
    (hcount : ownFrames (s.threads t).mutations = ownFrames rest + 1) :
    Consistent ((s.setThread t { s.threads t with mutations := rest }).releaseMutationLocked t) := by
  have ht := h.thread t
  have hbalance := ht.balance
  have hab := ht.abandoned_nonneg
  have hrest := ownFrames_nonneg rest
  have hns : NonSupervisory rest → NonSupervisory (s.threads t).mutations := by
    intro hrest
    rw [hframes]
    exact nonSupervisory_cons hrest
  simp only [heldDepth, habsent, ExternalCall.savedDepth] at hbalance
  unfold System.releaseMutationLocked
  simp only [threads_setThread_same, authority_setThread]
  split
  · rename_i habandoned
    unfold System.releaseAbandonedMutationLocked
    simp only [threads_setThread_same, authority_setThread, setThread_setThread]
    split
    · -- The last abandoned context gives up the effect reservation.
      rename_i hlast
      obtain ⟨hone, heffect⟩ := hlast
      refine consistent_grantNextWaiterLocked (s := (s.setAuthority
        { s.authority with effectOwner := none }).setThread t _) ?_
      refine h.update_thread h.single h.free_depth ?_ rfl
        ⟨?_, ?_, ht.owner_depth, ht.owner_outside, ht.saved, nofun, ?_⟩ (fun _ _ => Iff.rfl)
        (fun _ _ _ => rfl) ?_ (fun _ _ _ _ => rfl) (fun r hr => h.under t r (under_of_rest hframes hr))
      · intro r hr
        have := h.reservation r hr
        rw [heffect] at this
        exact nomatch this
      · simp only [heldDepth, habsent, ExternalCall.savedDepth]
        show ownFrames rest = _
        omega
      · show 0 ≤ (s.threads t).abandonedDepth - 1
        omega
      · intro hnsrest
        refine Or.inr ⟨?_, rfl⟩
        by_contra hown
        have hpos : 0 < ownFrames rest := ownFrames_pos hnsrest
        rw [if_neg hown] at hbalance
        omega
      · intro o ho
        rw [heffect]
        simp [Ne.symm ho]
    · rename_i hmore
      refine h.update_local ⟨?_, ?_, ht.owner_depth, ht.owner_outside, ht.saved, ?_,
        fun hnsrest => ht.nonSupervisory (hns hnsrest)⟩
        (fun r hr => h.under t r (under_of_rest hframes hr))
      · simp only [heldDepth, habsent, ExternalCall.savedDepth]
        show ownFrames rest = _
        omega
      · show 0 ≤ (s.threads t).abandonedDepth - 1
        omega
      · intro heffect
        have hne : (s.threads t).abandonedDepth ≠ 1 := fun hone => hmore ⟨hone, heffect⟩
        show 0 < ownFrames rest
        by_cases hown : s.authority.ownerThread = some t
        · have := ht.owner_depth hown
          rw [if_pos hown] at hbalance
          omega
        · rw [if_neg hown] at hbalance
          omega
  · rename_i habandoned
    have hown : s.authority.ownerThread = some t := by
      by_contra hown
      rw [if_neg hown] at hbalance
      omega
    rw [if_pos hown] at hbalance
    have hothers : ∀ u, u ≠ t → s.authority.ownerThread ≠ some u := by
      intro u hu hown'
      rw [hown] at hown'
      exact hu (Option.some_inj.mp hown').symm
    show Consistent (if s.authority.depth - 1 = 0 then _ else _)
    by_cases hzero : s.authority.depth - 1 = 0
    · rw [if_pos hzero]
      refine consistent_grantNextWaiterLocked (s := (s.setAuthority _).setThread t _) ?_
      refine h.update_thread (fun hno => absurd rfl hno) (fun _ => rfl) ?_ rfl
        ⟨?_, hab, nofun, nofun, ht.saved, ?_, ?_⟩ ?_ ?_ ?_ ?_
        (fun r hr => h.under t r (under_of_rest hframes hr))
      · intro r hr
        have hnone := h.single (by rw [hown]; exact nofun)
        rw [show s.authority.reservation = some r from hr] at hnone
        exact nomatch hnone
      · simp only [heldDepth, habsent, ExternalCall.savedDepth, reduceCtorEq, if_false]
        show ownFrames rest = _
        omega
      · intro heffect
        by_cases heq : s.authority.effectOwner = some (.thread t)
        · simp [heq] at heffect
        · exact absurd ((if_neg heq).symm.trans heffect) heq
      · intro hnsrest
        have hpos : 0 < ownFrames rest := ownFrames_pos hnsrest
        omega
      · exact fun u hu => iff_of_false nofun (hothers u hu)
      · exact fun u hu hown' => absurd hown' (hothers u hu)
      · intro o ho
        by_cases heq : s.authority.effectOwner = some (.thread t)
        · simp [heq, Ne.symm ho]
        · simp [heq]
      · exact fun u hu hown' => absurd hown' (hothers u hu)
    · rw [if_neg hzero]
      refine h.update_thread h.single (fun hno => absurd hown (by rw [hno]; exact nofun))
        h.reservation rfl ⟨?_, hab, ?_, ht.owner_outside, ht.saved, ?_,
          fun hnsrest => ht.nonSupervisory (hns hnsrest)⟩ (fun _ _ => Iff.rfl) ?_
        (fun _ _ => Iff.rfl) (fun _ _ _ hn => hn) (fun r hr => h.under t r (under_of_rest hframes hr))
      · simp only [heldDepth, habsent, ExternalCall.savedDepth, if_pos hown]
        show ownFrames rest = _
        omega
      · intro _
        show 0 < s.authority.depth - 1
        omega
      · intro _
        show 0 < ownFrames rest
        omega
      · exact fun u hu hown' => absurd hown' (hothers u hu)

theorem consistent_exitMutation (h : Consistent s) (hs : s.exitMutation t = some s') :
    Consistent s' := by
  have ht := h.thread t
  unfold System.exitMutation at hs
  simp only at hs
  split at hs
  · exact nomatch hs
  · rename_i hexternal
    have habsent : (s.threads t).external = .absent := by simpa using hexternal
    split at hs
    · exact nomatch hs
    · rename_i frame rest hframes
      have hcount := ownFrames_cons frame rest
      rw [← hframes] at hcount
      obtain rfl := Option.some_inj.mp hs
      split
      · rename_i hreserved
        rw [if_pos hreserved, Int.add_zero] at hcount
        refine h.update_local ⟨?_, ht.abandoned_nonneg, ht.owner_depth, ht.owner_outside, ht.saved,
          ?_, ?_⟩ (fun r hr => h.under t r (under_of_rest hframes hr))
        · rw [← hcount]
          exact ht.balance
        · rw [← hcount]
          exact ht.effect
        · intro hrest
          refine ht.nonSupervisory ?_
          rw [hframes]
          exact nonSupervisory_cons hrest
      · rename_i hreserved
        rw [if_neg hreserved] at hcount
        exact consistent_releaseMutationLocked h habsent hframes hcount

/-! ## External calls -/

theorem consistent_requestExternal {active : Option ReservationId} (h : Consistent s)
    (hs : s.requestExternal t active = some s') : Consistent s' := by
  have ht := h.thread t
  unfold System.requestExternal at hs
  simp only at hs
  split at hs
  · rename_i hguard
    obtain rfl := Option.some_inj.mp hs
    refine h.update_local ⟨?_, ht.abandoned_nonneg, ht.owner_depth, fun _ _ => nofun, nofun,
      ht.effect, ht.nonSupervisory⟩ ?_
    · have hbalance := ht.balance
      simp only [heldDepth, hguard.1, ExternalCall.savedDepth] at hbalance ⊢
      exact hbalance
    · rintro r (hframe | hrequested | ⟨saved, hsaved, _⟩)
      · exact h.under t r (Or.inl hframe)
      · obtain ⟨_, hcarried, howned⟩ := hguard
        by_cases hown : s.authority.ownerThread = some t
        · simp [hown] at hrequested
        · simp only [if_neg hown, ExternalCall.requested.injEq] at hrequested
          subst hrequested
          have hgranted := (h.task r).granted.mpr (h.reservation r (howned.resolve_left hown).2)
          refine (hcarried r rfl).resolve_right fun hleft => ?_
          rw [hleft] at hgranted
          exact Bool.noConfusion hgranted
      · exact nomatch hsaved
  · exact nomatch hs

/-- The permit is still the thread's when it starts an external call, and a
thread with a non-supervisory context has its effect reservation. -/
def EntersOwned (s : System) (t : ThreadId) : Prop :=
  ∀ under, (s.threads t).external = .requested under →
    s.authority.ownedBy t under ∧
      (s.authority.ownerThread = some t → NonSupervisory (s.threads t).mutations →
        s.authority.effectOwner = some (.thread t))

theorem consistent_enterExternal (h : Consistent s) (hstill : EntersOwned s t)
    (hs : s.enterExternal t = some s') : Consistent s' := by
  have ht := h.thread t
  have hbalance := ht.balance
  unfold System.enterExternal at hs
  simp only at hs
  split at hs
  · rename_i under hrequested
    obtain ⟨howned, heffect⟩ := hstill under hrequested
    obtain rfl := Option.some_inj.mp hs
    simp only [heldDepth, hrequested, ExternalCall.savedDepth] at hbalance
    by_cases hown : s.authority.ownerThread = some t
    · have hothers : ∀ u, u ≠ t → s.authority.ownerThread ≠ some u := by
        intro u hu hown'
        rw [hown] at hown'
        exact hu (Option.some_inj.mp hown').symm
      rw [if_pos hown] at hbalance
      refine h.update_thread (fun _ => rfl) (fun _ => rfl) nofun rfl
        ⟨?_, ht.abandoned_nonneg, nofun, nofun, ?_, ht.effect, ?_⟩ ?_ ?_ (fun _ _ => Iff.rfl) ?_ ?_
      · simp only [heldDepth, ExternalCall.savedDepth, if_pos hown, reduceCtorEq, if_false]
        omega
      · intro saved hsaved
        obtain rfl := ExternalCall.inside.inj hsaved
        exact Or.inl ⟨hown, h.single (by rw [hown]; exact nofun), ht.owner_depth hown⟩
      · exact fun hns => Or.inl (heffect hown hns)
      · exact fun u hu => iff_of_false nofun (hothers u hu)
      · exact fun u hu hown' => absurd hown' (hothers u hu)
      · exact fun u hu hown' => absurd hown' (hothers u hu)
      · rintro r (hframe | hreq | ⟨saved, hsaved, hres⟩)
        · exact h.under t r (Or.inl hframe)
        · exact nomatch hreq
        · obtain rfl := ExternalCall.inside.inj hsaved
          have hnone := h.single (by rw [hown]; exact nofun)
          exact absurd (hnone.symm.trans hres) nofun
    · obtain ⟨hactive, hres⟩ := howned.resolve_left hown
      have hno : s.authority.ownerThread = none := by
        by_contra hsome
        exact hactive (hres.symm.trans (h.single hsome))
      have hnobody : ∀ u, s.authority.ownerThread ≠ some u := by
        intro u
        rw [hno]
        exact nofun
      rw [if_neg hown] at hbalance
      refine h.update_thread (fun _ => rfl) (fun _ => rfl) nofun rfl
        ⟨?_, ht.abandoned_nonneg, nofun, nofun, ?_, ht.effect, ?_⟩ ?_ ?_ (fun _ _ => Iff.rfl) ?_ ?_
      · simp only [heldDepth, ExternalCall.savedDepth, if_neg hown, reduceCtorEq, if_false]
        omega
      · intro saved hsaved
        obtain rfl := ExternalCall.inside.inj hsaved
        refine Or.inr ⟨hno, ?_, h.free_depth hno⟩
        show s.authority.reservation ≠ none
        rw [hres]
        exact hactive
      · intro hns
        exact Or.inl ((ht.nonSupervisory hns).resolve_right fun hboth => hown hboth.1)
      · exact fun u _ => iff_of_false nofun (hnobody u)
      · exact fun u _ hown' => absurd hown' (hnobody u)
      · exact fun u _ hown' => absurd hown' (hnobody u)
      · rintro r (hframe | hreq | ⟨saved, hsaved, hsavedRes⟩)
        · exact h.under t r (Or.inl hframe)
        · exact nomatch hreq
        · obtain rfl := ExternalCall.inside.inj hsaved
          refine h.under t r (Or.inr (Or.inl ?_))
          rw [hrequested, ← hres, show s.authority.reservation = some r from hsavedRes]
  · exact nomatch hs

theorem consistent_returnExternal (h : Consistent s) (hs : s.returnExternal t = some s') :
    Consistent s' := by
  have ht := h.thread t
  have hbalance := ht.balance
  unfold System.returnExternal at hs
  simp only at hs
  split at hs
  · rename_i saved hinside
    split at hs
    · rename_i hfree
      obtain rfl := Option.some_inj.mp hs
      have hnobody : ∀ u, s.authority.ownerThread ≠ some u := by
        intro u hu
        cases hfree.1.symm.trans hu
      simp only [heldDepth, hinside, ExternalCall.savedDepth, if_neg (hnobody t)] at hbalance
      have heffect : NonSupervisory (s.threads t).mutations →
          s.authority.effectOwner = some (.thread t) := fun hns =>
        (ht.nonSupervisory hns).resolve_right fun hboth => hnobody t hboth.1
      have hunder : ∀ r, ({ s.threads t with external := .absent } : ThreadLocal).Under r →
          s.tasks r = .inside := by
        rintro r (hframe | hreq | ⟨_, hsaved, _⟩)
        · exact h.under t r (Or.inl hframe)
        · cases hreq
        · cases hsaved
      rcases ht.saved saved hinside with ⟨hthread, hres, hpos⟩ | ⟨hthread, hres, hzero⟩
      · rw [if_pos hthread] at hbalance
        refine h.update_thread (fun _ => hres) (fun hno => ?_) ?_ rfl
          ⟨?_, ht.abandoned_nonneg, fun _ => hpos, fun _ _ hin => (by cases hin), fun _ hin => (by cases hin), ht.effect,
            fun hns => Or.inl (heffect hns)⟩ ?_ ?_ (fun _ _ => Iff.rfl) ?_ hunder
        · cases hthread.symm.trans hno
        · intro r hr
          cases hres.symm.trans hr
        · simp only [heldDepth, ExternalCall.savedDepth, if_pos hthread]
          omega
        · intro u hu
          refine iff_of_false ?_ (hnobody u)
          intro heq
          exact hu (Option.some_inj.mp (hthread.symm.trans heq)).symm
        · exact fun u _ hown' => absurd hown' (hnobody u)
        · exact fun u _ hown' => absurd hown' (hnobody u)
      · have hnot : saved.ownerThread ≠ some t := by
          simp [hthread]
        rw [if_neg hnot] at hbalance
        refine h.update_thread (fun hsome => absurd hthread hsome) (fun _ => hzero) ?_ rfl
          ⟨?_, ht.abandoned_nonneg, fun hown => absurd hown hnot, fun _ _ hin => (by cases hin), fun _ hin => (by cases hin),
            ht.effect, fun hns => Or.inl (heffect hns)⟩ ?_ ?_ (fun _ _ => Iff.rfl) ?_ hunder
        · intro r hr
          refine (h.task r).granted.mp ?_
          rw [h.under t r (Or.inr (Or.inr ⟨saved, hinside, hr⟩))]
          rfl
        · simp only [heldDepth, ExternalCall.savedDepth, if_neg hnot]
          omega
        · intro u _
          refine iff_of_false ?_ (hnobody u)
          intro heq
          cases hthread.symm.trans heq
        · exact fun u _ hown' => absurd hown' (hnobody u)
        · exact fun u _ hown' => absurd hown' (hnobody u)
    · cases hs
  · cases hs

/-- A thread that loses its own permit has not lost it before. -/
def TimesOutOnce (s : System) (t : ThreadId) : Prop :=
  ∀ saved, (s.threads t).external = .inside saved → saved.reservation = none →
    (s.threads t).abandonedDepth = 0

theorem consistent_timeOutExternal (h : Consistent s) (honce : TimesOutOnce s t)
    (hs : s.timeOutExternal t = some s') : Consistent s' := by
  have ht := h.thread t
  have hbalance := ht.balance
  unfold System.timeOutExternal at hs
  simp only at hs
  split at hs
  · rename_i saved hinside
    split at hs
    · cases hs
    · obtain rfl := Option.some_inj.mp hs
      have hown : s.authority.ownerThread ≠ some t := fun hown =>
        ht.owner_outside hown saved hinside
      simp only [heldDepth, hinside, ExternalCall.savedDepth, if_neg hown] at hbalance
      have hns : NonSupervisory (s.threads t).mutations →
          s.authority.effectOwner = some (.thread t) ∨
            s.authority.ownerThread = some t ∧ s.authority.effectOwner = none := ht.nonSupervisory
      have hunder : ∀ abandoned r, ({ s.threads t with
          external := .absent, abandonedDepth := abandoned } : ThreadLocal).Under r →
          s.tasks r = .inside := by
        rintro abandoned r (hframe | hreq | ⟨_, hsaved, _⟩)
        · exact h.under t r (Or.inl hframe)
        · cases hreq
        · cases hsaved
      rcases ht.saved saved hinside with ⟨hthread, hres, hpos⟩ | ⟨hthread, hres, _⟩
      · have hzero := honce saved hinside hres
        rw [if_pos hthread] at hbalance
        refine h.update_local ⟨?_, ?_, ht.owner_depth, fun _ _ hin => (by cases hin),
          fun _ hin => (by cases hin), ht.effect, hns⟩
          (hunder _)
        · simp only [heldDepth, ExternalCall.savedDepth, if_neg hown, if_pos hres]
          omega
        · simp only [if_pos hres]
          omega
      · have hnot : saved.ownerThread ≠ some t := by
          simp [hthread]
        rw [if_neg hnot] at hbalance
        refine h.update_local ⟨?_, ?_, ht.owner_depth, fun _ _ hin => (by cases hin),
          fun _ hin => (by cases hin), ht.effect, hns⟩
          (hunder _)
        · simp only [heldDepth, ExternalCall.savedDepth, if_neg hown, if_neg hres]
          omega
        · simp only [if_neg hres]
          exact ht.abandoned_nonneg
  · cases hs

end OneThread

section OneTask

variable {s s' : System} {a' : Authority} {r : ReservationId} {task : Task}

section

variable (h : Consistent s)
include h

/-- A step of one task keeps the accounts when it keeps the task's own and takes
nothing that the others read. -/
theorem Consistent.update_task (howner : a'.ownerThread = s.authority.ownerThread)
    (hdepth : a'.depth = s.authority.depth)
    (hsingle : a'.ownerThread ≠ none → a'.reservation = none)
    (hreservation : ∀ q, a'.reservation = some q → a'.effectOwner = some (.reservation q))
    (hnodup : a'.asyncWaiters.Nodup)
    (hqueue : ∀ q, q ≠ r → q ∈ a'.asyncWaiters → q ∈ s.authority.asyncWaiters)
    (heffect : ∀ o, o ≠ Owner.reservation r →
      (a'.effectOwner = some o ↔ s.authority.effectOwner = some o))
    (hnone : s.authority.ownerThread ≠ none → s.authority.effectOwner = none →
      a'.effectOwner = none) (htask : TaskConsistent a' r task)
    (hunder : task = .inside ∨ ∀ t, ¬ (s.threads t).Under r) :
    Consistent ((s.setAuthority a').setTask r task) := by
  refine ⟨hsingle, ?_, hreservation, hnodup, ?_, ?_, ?_⟩
  · intro hno
    show a'.depth = 0
    rw [hdepth]
    exact h.free_depth (howner.symm.trans hno)
  · intro t
    refine (h.thread t).of_other ?_ (fun _ => hdepth) (heffect _ nofun) ?_
    · show a'.ownerThread = some t ↔ _
      rw [howner]
    · intro hown hn
      exact hnone (by rw [hown]; exact nofun) hn
  · intro q
    by_cases hq : q = r
    · subst hq
      rw [tasks_setTask_same]
      exact htask
    · rw [tasks_setTask_ne _ hq]
      exact (h.task q).of_other (heffect _ fun heq => hq (Owner.reservation.inj heq)) (hqueue q hq)
  · intro t q ht
    by_cases hq : q = r
    · subst hq
      rw [tasks_setTask_same]
      exact hunder.resolve_right fun hno => hno t ht
    · rw [tasks_setTask_ne _ hq]
      exact h.under t q ht

theorem Consistent.update_future (htask : TaskConsistent s.authority r task)
    (hunder : task = .inside ∨ ∀ t, ¬ (s.threads t).Under r) : Consistent (s.setTask r task) :=
  h.update_task rfl rfl h.single h.reservation h.waiters_nodup (fun _ _ hq => hq)
    (fun _ _ => Iff.rfl) (fun _ hn => hn) htask hunder

theorem Consistent.not_under (hr : s.tasks r ≠ .inside) : ∀ t, ¬ (s.threads t).Under r :=
  fun t ht => hr (h.under t r ht)

theorem consistent_reserve (hs : s.reserve r = some s') : Consistent s' := by
  have htask := h.task r
  unfold System.reserve at hs
  simp only at hs
  split at hs
  · exact nomatch hs
  · rename_i hstarted
    have hunstarted : s.tasks r = .unstarted := by simpa using hstarted
    rw [hunstarted] at htask
    split at hs
    · rename_i hadmit
      obtain ⟨hfree, heffect, hwaiters⟩ := hadmit
      obtain rfl := Option.some_inj.mp hs
      refine h.update_task rfl rfl (fun hown => absurd hfree.1 hown) ?_ h.waiters_nodup
        (fun _ _ hq => hq) ?_ (fun hown _ => absurd hfree.1 hown) ⟨iff_of_true rfl rfl, ?_, nofun⟩
        (Or.inl rfl)
      · intro q hq
        obtain rfl := Option.some_inj.mp hq
        rfl
      · intro o ho
        simp [heffect, Ne.symm ho]
      · intro hmem
        exact Bool.noConfusion (htask.queued hmem)
    · obtain rfl := Option.some_inj.mp hs
      have hnot : r ∉ s.authority.asyncWaiters := fun hmem =>
        Bool.noConfusion (htask.queued hmem)
      refine h.update_task rfl rfl h.single h.reservation ?_ ?_ (fun _ _ => Iff.rfl)
        (fun _ hn => hn) ⟨htask.granted, fun _ => rfl, ?_⟩ (Or.inr (h.not_under ?_))
      · exact List.nodup_append.mpr ⟨h.waiters_nodup, by simp, by
          intro q hq p hp heq
          rw [List.mem_singleton.mp hp] at heq
          exact hnot (heq ▸ hq)⟩
      · intro q hq hmem
        exact (List.mem_append.mp hmem).resolve_right fun hr => hq (List.mem_singleton.mp hr)
      · intro waiter hwaiter hresolved
        obtain rfl := Task.awaiting.inj hwaiter
        exact nomatch hresolved
      · rw [hunstarted]
        exact nofun

theorem consistent_completeWaiter (hs : s.completeWaiter r = some s') : Consistent s' := by
  have htask := h.task r
  unfold System.completeWaiter at hs
  split at hs
  · rename_i waiter hawaiting
    rw [hawaiting] at htask
    split at hs
    · rename_i hgranted
      obtain rfl := Option.some_inj.mp hs
      refine h.update_future ⟨htask.granted, htask.queued, ?_⟩ (Or.inr (h.not_under ?_))
      · intro other hother _
        obtain rfl := Task.awaiting.inj hother
        exact hgranted.1
      · rw [hawaiting]
        exact nofun
    · exact nomatch hs
  · exact nomatch hs

theorem consistent_interrupt (hs : s.interrupt r = some s') : Consistent s' := by
  have htask := h.task r
  unfold System.interrupt at hs
  split at hs
  · rename_i waiter hawaiting
    rw [hawaiting] at htask
    obtain rfl := Option.some_inj.mp hs
    refine h.update_future ⟨htask.granted, htask.queued, nofun⟩ (Or.inr (h.not_under ?_))
    rw [hawaiting]
    exact nofun
  · exact nomatch hs

theorem consistent_resume (hs : s.resume r = some s') : Consistent s' := by
  have htask := h.task r
  unfold System.resume at hs
  split at hs
  · rename_i waiter hawaiting
    rw [hawaiting] at htask
    split at hs
    · rename_i hresolved
      have hgranted := htask.resolved waiter rfl hresolved
      obtain rfl := Option.some_inj.mp hs
      refine h.update_future ⟨iff_of_true rfl (htask.granted.mp hgranted), ?_, nofun⟩ (Or.inl rfl)
      intro hmem
      have hqueued := htask.queued hmem
      simp [Task.queued, hgranted] at hqueued
    · exact nomatch hs
  · exact nomatch hs

theorem consistent_releaseReservationLocked (hqueue : r ∉ s.authority.asyncWaiters)
    (hunder : ∀ t, ¬ (s.threads t).Under r) :
    Consistent ((s.setTask r .left).releaseReservationLocked r) := by
  unfold System.releaseReservationLocked
  show Consistent (if s.authority.reservation ≠ some r ∧
    s.authority.effectOwner ≠ some (.reservation r) then _ else _)
  by_cases hinactive : s.authority.reservation ≠ some r ∧
      s.authority.effectOwner ≠ some (.reservation r)
  · rw [if_pos hinactive]
    refine h.update_future ⟨iff_of_false Bool.false_ne_true hinactive.2, ?_, nofun⟩ (Or.inr hunder)
    exact fun hmem => absurd hmem hqueue
  · rw [if_neg hinactive]
    have heffect : s.authority.effectOwner = some (.reservation r) := by
      by_contra hne
      refine hinactive ⟨?_, hne⟩
      exact fun hres => hne (h.reservation r hres)
    have hreservation : ∀ q, s.authority.reservation = some q → q = r := by
      intro q hq
      have hboth := (h.reservation q hq).symm.trans heffect
      exact Owner.reservation.inj (Option.some_inj.mp hboth)
    have hreleased : (if s.authority.reservation = some r then none else s.authority.reservation)
        = none := by
      split
      · rfl
      · rename_i hne
        by_contra hsome
        obtain ⟨q, hq⟩ := Option.ne_none_iff_exists'.mp hsome
        exact hne (by rw [hq, hreservation q hq])
    refine consistent_grantNextWaiterLocked (s := (s.setAuthority _).setTask r .left) ?_
    refine h.update_task rfl rfl (fun _ => hreleased) ?_ h.waiters_nodup (fun _ _ hq => hq) ?_ ?_
      ⟨iff_of_false Bool.false_ne_true ?_, fun hmem => absurd hmem hqueue, nofun⟩ (Or.inr hunder)
    · intro q hq
      exact absurd (hreleased.symm.trans hq) nofun
    · intro o ho
      simp [heffect, Ne.symm ho]
    · intro _ hn
      exact absurd (heffect.symm.trans hn) nofun
    · simp [heffect]

theorem consistent_abort (hs : s.abort r = some s') : Consistent s' := by
  have htask := h.task r
  unfold System.abort at hs
  split at hs
  · rename_i waiter hinterrupted
    rw [hinterrupted] at htask
    have hunder : ∀ t, ¬ (s.threads t).Under r := by
      refine h.not_under ?_
      rw [hinterrupted]
      exact nofun
    simp only at hs
    obtain rfl := Option.some_inj.mp hs
    split
    · rename_i hgranted
      refine consistent_releaseReservationLocked h ?_ hunder
      intro hmem
      have hqueued := htask.queued hmem
      simp [Task.queued, hgranted] at hqueued
    · rename_i hwaits
      refine h.update_task rfl rfl h.single h.reservation (h.waiters_nodup.erase r) ?_
        (fun _ _ => Iff.rfl) (fun _ hn => hn) ⟨?_, ?_, nofun⟩ (Or.inr hunder)
      · exact fun q _ hmem => List.mem_of_mem_erase hmem
      · refine iff_of_false Bool.false_ne_true ?_
        exact fun heffect => hwaits (htask.granted.mpr heffect)
      · intro hmem
        exact absurd rfl (h.waiters_nodup.mem_erase_iff.mp hmem).1
  · exact nomatch hs

end

/-- A task closes its `reserve` context when no thread is under its
reservation. -/
def LeavesLast (s : System) (r : ReservationId) : Prop := ∀ t, ¬ (s.threads t).Under r

theorem consistent_leave (h : Consistent s) (hlast : LeavesLast s r)
    (hs : s.leave r = some s') : Consistent s' := by
  have htask := h.task r
  unfold System.leave at hs
  split at hs
  · rename_i hinside
    rw [hinside] at htask
    obtain rfl := Option.some_inj.mp hs
    refine consistent_releaseReservationLocked h ?_ hlast
    exact fun hmem => Bool.noConfusion (htask.queued hmem)
  · exact nomatch hs

end OneTask

end Raes.Mutation
