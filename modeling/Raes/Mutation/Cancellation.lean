import Mathlib.Data.List.TakeWhile
import Raes.Mutation.Exclusion

/-!
# Cancelled and timed-out reservations

What a `reserve` call leaves behind when its wait is interrupted, in every run of the
authority.  The queue of the waiters and the grants keep their order whatever the
threads and the tasks do.  The exception that leaves the call is the original one when
the cleanup finds its waiter granted or still queued; a release in between may have
taken the cancelled waiter out, and then the cleanup raises an error of its own.
-/

namespace Raes.Mutation

/-! ## The cleanup of an interrupted call -/

/-- What leaves the cleanup of an interrupted `reserve` call. -/
inductive CleanupExit where
  | original
  | valueError
  | runtimeError
  deriving DecidableEq, Repr

/-- A release of this reservation does not raise. -/
def Authority.active (a : Authority) (r : ReservationId) : Prop :=
  a.reservation = some r ∨ a.effectOwner = some (.reservation r)

instance (a : Authority) (r : ReservationId) : Decidable (a.active r) :=
  inferInstanceAs (Decidable (_ ∨ _))

/-- The cleanup releases a granted waiter and removes another one from the queue. -/
def System.cleanupExit (s : System) (r : ReservationId) (waiter : AsyncWaiter) : CleanupExit :=
  if waiter.granted then
    if s.authority.active r then .original else .runtimeError
  else if r ∈ s.authority.asyncWaiters then .original else .valueError

/-- The call that is interrupted, and the one that closes its context, end with the
exception that ended them, if any. -/
def Reraises (s : System) : Action → Prop
  | .abort r => ∀ waiter, s.tasks r = .interrupted waiter → s.cleanupExit r waiter = .original
  | .leave r => s.tasks r = .inside → s.authority.active r
  | _ => True

/-- The cleanup comes before a release takes the cancelled waiter out of the queue. -/
def CleansUpFirst (s : System) : Action → Prop
  | .abort r => ∀ waiter, s.tasks r = .interrupted waiter →
      waiter.granted = true ∨ r ∈ s.authority.asyncWaiters
  | _ => True

/-- An external call that ends puts back a reservation only while it is still active. -/
def RestoresActive (s : System) : Action → Prop
  | .returnExternal t => ∀ saved r, (s.threads t).external = .inside saved →
      saved.reservation = some r → s.authority.effectOwner = some (.reservation r)
  | _ => True

/-! ## Order -/

/-- A step takes waiters out of the queue from the front, except for cancelled ones, and
grants the first that is not cancelled. -/
structure InOrder (s s' : System) : Prop where
  rest : ∃ kept new, kept.Sublist s.authority.asyncWaiters ∧
    s'.authority.asyncWaiters = kept ++ new
  first : ∀ q, (s.tasks q).granted = false → (s'.tasks q).granted = true →
    s.authority.asyncWaiters = [] ∨ ∃ passed, s.authority.asyncWaiters =
      passed ++ q :: s'.authority.asyncWaiters ∧ ∀ p ∈ passed, s.futureCancelled p = true
  removed : ∀ p ∈ s.authority.asyncWaiters, p ∉ s'.authority.asyncWaiters →
    (s'.tasks p).granted = true ∨ s.futureCancelled p = true

/-- A granted call that leaves while no thread has the permit hands it to the first
waiter that is not cancelled. -/
def HandsOn (s s' : System) : Prop :=
  ∀ r, (s.tasks r).granted = true → s'.tasks r = .left → s.authority.ownerThread = none →
    ∀ passed q rest, s.authority.asyncWaiters = passed ++ q :: rest →
      (∀ p ∈ passed, s.futureCancelled p = true) → s.futureCancelled q = false →
      (s'.tasks q).granted = true

structure Serves (s s' : System) : Prop where
  order : InOrder s s'
  handsOn : HandsOn s s'

/-! ## The account of the waiters -/

structure TaskServed (a : Authority) (r : ReservationId) (task : Task) : Prop
    extends TaskConsistent a r task where
  waiting : ∀ waiter, task = .awaiting waiter → waiter.granted = false →
    waiter.future = .pending ∧ r ∈ a.asyncWaiters
  interrupted : ∀ waiter, task = .interrupted waiter → waiter.granted = false →
    waiter.future = .cancelled

structure Served (s : System) : Prop where
  reservation : ∀ r, s.authority.reservation = some r →
    s.authority.effectOwner = some (.reservation r)
  waiters_nodup : s.authority.asyncWaiters.Nodup
  task : ∀ r, TaskServed s.authority r (s.tasks r)

section Steps

variable {s s' : System} {t : ThreadId} {r : ReservationId}

theorem Served.of_same (h : Served s) (htasks : s'.tasks = s.tasks)
    (hqueue : s'.authority.asyncWaiters = s.authority.asyncWaiters)
    (hreservation : ∀ r, s'.authority.reservation = some r →
      s'.authority.effectOwner = some (.reservation r))
    (heffect : ∀ r, s'.authority.effectOwner = some (.reservation r) ↔
      s.authority.effectOwner = some (.reservation r)) : Served s' := by
  refine ⟨hreservation, by rw [hqueue]; exact h.waiters_nodup, fun r => ?_⟩
  have htask := h.task r
  rw [htasks]
  refine ⟨htask.toTaskConsistent.of_other (heffect r) (by rw [hqueue]; exact id), ?_,
    htask.interrupted⟩
  rw [hqueue]
  exact htask.waiting

theorem Serves.of_same (htasks : s'.tasks = s.tasks)
    (hqueue : s'.authority.asyncWaiters = s.authority.asyncWaiters) : Serves s s' := by
  constructor
  · refine ⟨⟨s.authority.asyncWaiters, [], List.Sublist.refl _, by rw [hqueue, List.append_nil]⟩,
      ?_, ?_⟩
    · intro q hno hyes
      rw [htasks, hno] at hyes
      exact Bool.noConfusion hyes
    · intro p hp hnot
      rw [hqueue] at hnot
      exact absurd hp hnot
  · intro r hgranted hleft
    rw [htasks] at hleft
    rw [hleft] at hgranted
    exact Bool.noConfusion hgranted

theorem Served.futureCancelled_eq_false (h : Served s) {waiter : AsyncWaiter}
    (hawaiting : s.tasks r = .awaiting waiter) (hno : waiter.granted = false) :
    s.futureCancelled r = false := by
  have hpending := ((h.task r).waiting waiter hawaiting hno).1
  unfold System.futureCancelled
  rw [hawaiting]
  show decide (waiter.future = .cancelled) = false
  rw [hpending]
  rfl

/-! ## The next grant -/

theorem grantNext_cases (s : System) :
    ((s.authority.effectOwner ≠ none ∨ ¬ s.authority.permitIsFree) ∧
      s.grantNextWaiterLocked = s) ∨
    (s.authority.effectOwner = none ∧ s.authority.permitIsFree ∧
      (∀ p ∈ s.authority.asyncWaiters, s.futureCancelled p = true) ∧
      s.grantNextWaiterLocked = s.setAuthority { s.authority with asyncWaiters := [] }) ∨
    (s.authority.effectOwner = none ∧ s.authority.permitIsFree ∧
      ∃ passed q rest, s.authority.asyncWaiters = passed ++ q :: rest ∧
        (∀ p ∈ passed, s.futureCancelled p = true) ∧ s.futureCancelled q = false ∧
        s.grantNextWaiterLocked = (s.setAuthority { s.authority with
          reservation := some q
          effectOwner := some (.reservation q)
          asyncWaiters := rest }).grant q) := by
  unfold System.grantNextWaiterLocked
  dsimp only
  by_cases hbusy : s.authority.effectOwner ≠ none ∨ ¬ s.authority.permitIsFree
  · rw [if_pos hbusy]
    exact Or.inl ⟨hbusy, rfl⟩
  · rw [if_neg hbusy]
    obtain ⟨heffect, hfree⟩ : s.authority.effectOwner = none ∧ s.authority.permitIsFree := by
      simpa only [not_or, ne_eq, not_not] using hbusy
    refine Or.inr ?_
    have hsplit := List.takeWhile_append_dropWhile (p := s.futureCancelled)
      (l := s.authority.asyncWaiters)
    cases hdrop : s.authority.asyncWaiters.dropWhile s.futureCancelled with
    | nil => exact Or.inl ⟨heffect, hfree, List.dropWhile_eq_nil_iff.mp hdrop, rfl⟩
    | cons q rest =>
      rw [hdrop] at hsplit
      refine Or.inr ⟨heffect, hfree, _, q, rest, hsplit.symm, ?_, ?_, rfl⟩
      · exact fun p hp => List.mem_takeWhile_imp hp
      · have hhead := List.head?_dropWhile_not s.futureCancelled s.authority.asyncWaiters
        rw [hdrop] at hhead
        exact hhead

theorem serves_grantNext (h : Served s) : InOrder s s.grantNextWaiterLocked ∧
    (∀ r, s.grantNextWaiterLocked.tasks r = .left → s.tasks r = .left) ∧
    (s.authority.effectOwner = none → s.authority.permitIsFree →
      ∀ passed q rest, s.authority.asyncWaiters = passed ++ q :: rest →
        (∀ p ∈ passed, s.futureCancelled p = true) → s.futureCancelled q = false →
        (s.grantNextWaiterLocked.tasks q).granted = true) := by
  rcases grantNext_cases s with ⟨hbusy, heq⟩ | ⟨heffect, hfree, hall, heq⟩ |
    ⟨heffect, hfree, passed, q, rest, hqueue, hpassed, hlive, heq⟩
  · rw [heq]
    refine ⟨(Serves.of_same rfl rfl).order, fun _ hleft => hleft, fun heffect hfree => ?_⟩
    rcases hbusy with hbusy | hbusy
    · exact absurd heffect hbusy
    · exact absurd hfree hbusy
  · rw [heq]
    refine ⟨⟨⟨[], [], List.nil_sublist _, rfl⟩, ?_, fun p hp _ => Or.inr (hall p hp)⟩,
      fun _ hleft => hleft, ?_⟩
    · intro q hno hyes
      rw [tasks_setAuthority, hno] at hyes
      exact Bool.noConfusion hyes
    · intro _ _ passed q rest hsplit _ hlive
      have hcancelled := hall q (by rw [hsplit]; exact List.mem_append_right _ List.mem_cons_self)
      rw [hcancelled] at hlive
      exact Bool.noConfusion hlive
  · have hmem : q ∈ s.authority.asyncWaiters := by
      rw [hqueue]
      exact List.mem_append_right _ List.mem_cons_self
    have hgranted : ((s.grantNextWaiterLocked).tasks q).granted = true := by
      rw [heq, tasks_grant_same]
      exact (queued_grant ((h.task q).queued hmem)).1
    have hother : ∀ p, p ≠ q → (s.grantNextWaiterLocked).tasks p = s.tasks p := by
      intro p hp
      rw [heq, tasks_grant_ne hp]
      rfl
    have hrest : (s.grantNextWaiterLocked).authority.asyncWaiters = rest := by
      rw [heq]
      rfl
    refine ⟨⟨⟨rest, [], ?_, by rw [hrest, List.append_nil]⟩, ?_, ?_⟩, ?_, ?_⟩
    · rw [hqueue]
      exact (List.sublist_cons_self q rest).trans (List.sublist_append_right _ _)
    · intro p hno hyes
      by_cases hp : p = q
      · rw [hp, hrest]
        exact Or.inr ⟨passed, hqueue, hpassed⟩
      · rw [hother p hp, hno] at hyes
        exact Bool.noConfusion hyes
    · intro p hp hnot
      rw [hrest] at hnot
      rw [hqueue, List.mem_append, List.mem_cons] at hp
      rcases hp with hp | rfl | hp
      · exact Or.inr (hpassed p hp)
      · exact Or.inl hgranted
      · exact absurd hp hnot
    · intro p hleft
      by_cases hp : p = q
      · rw [hp] at hleft
        rw [hleft] at hgranted
        exact Bool.noConfusion hgranted
      · rwa [hother p hp] at hleft
    · intro _ _ passed' q' rest' hsplit hpassed' hlive'
      -- The first waiter that is not cancelled is unique.
      have hfind : ∀ {pre : List ReservationId} {x : ReservationId} {post : List ReservationId},
          s.authority.asyncWaiters = pre ++ x :: post →
          (∀ p ∈ pre, s.futureCancelled p = true) → s.futureCancelled x = false →
          s.authority.asyncWaiters.find? (fun p => !s.futureCancelled p) = some x := by
        intro pre x post hsplit hpre hx
        rw [hsplit, List.find?_append, List.find?_eq_none.mpr fun p hp => by simp [hpre p hp],
          List.find?_cons]
        simp [hx]
      have hsame := (hfind hsplit hpassed' hlive').symm.trans (hfind hqueue hpassed hlive)
      rw [Option.some_inj.mp hsame]
      exact hgranted

theorem served_grantNext (h : Served s) : Served s.grantNextWaiterLocked := by
  rcases grantNext_cases s with ⟨_, heq⟩ | ⟨heffect, hfree, hall, heq⟩ |
    ⟨heffect, hfree, passed, q, rest, hqueue, hpassed, hlive, heq⟩
  · rw [heq]
    exact h
  · rw [heq]
    refine ⟨h.reservation, List.nodup_nil, fun r => ?_⟩
    have htask := h.task r
    refine ⟨htask.toTaskConsistent.of_other Iff.rfl fun hr => absurd hr List.not_mem_nil, ?_,
      htask.interrupted⟩
    intro waiter hawaiting hno
    have hmem := (htask.waiting waiter hawaiting hno).2
    have hlive := h.futureCancelled_eq_false hawaiting hno
    rw [hall r hmem] at hlive
    exact Bool.noConfusion hlive
  · have hnodup := h.waiters_nodup
    rw [hqueue, List.nodup_append] at hnodup
    obtain ⟨-, hnodup, -⟩ := hnodup
    rw [List.nodup_cons] at hnodup
    have hmem : q ∈ s.authority.asyncWaiters := by
      rw [hqueue]
      exact List.mem_append_right _ List.mem_cons_self
    have hqueued := (h.task q).queued hmem
    rw [heq]
    refine ⟨?_, hnodup.2, fun r => ?_⟩
    · intro r hr
      obtain rfl : q = r := Option.some_inj.mp hr
      rfl
    · by_cases hr : r = q
      · subst hr
        have hgrant := queued_grant hqueued
        rw [tasks_grant_same]
        refine ⟨⟨iff_of_true hgrant.1 rfl, fun hmem => absurd hmem hnodup.1,
          fun waiter hw _ => hgrant.2 waiter hw⟩, ?_, ?_⟩
        · intro waiter hw hno
          rw [hgrant.2 waiter hw] at hno
          exact Bool.noConfusion hno
        · intro waiter hw hno
          have hyes := hgrant.1
          rw [show (s.tasks r).grant = .interrupted waiter from hw] at hyes
          rw [show waiter.granted = true from hyes] at hno
          exact Bool.noConfusion hno
      · have htask := h.task r
        rw [tasks_grant_ne hr]
        refine ⟨htask.toTaskConsistent.of_other ?_ ?_, ?_, htask.interrupted⟩
        · show some (Owner.reservation q) = _ ↔ s.authority.effectOwner = _
          simp [heffect, Ne.symm hr]
        · intro hin
          rw [hqueue]
          exact List.mem_append_right _ (List.mem_cons_of_mem q hin)
        · intro waiter hawaiting hno
          obtain ⟨hpending, hin⟩ := htask.waiting waiter hawaiting hno
          refine ⟨hpending, ?_⟩
          rw [hqueue, List.mem_append, List.mem_cons] at hin
          rcases hin with hin | heq | hin
          · have hfalse := h.futureCancelled_eq_false hawaiting hno
            rw [hpassed r hin] at hfalse
            exact Bool.noConfusion hfalse
          · exact absurd heq hr
          · exact hin

/-- The next grant after a part of a step that leaves the tasks and the queue alone. -/
theorem Serves.grantNext {s₁ : System} (h : Served s₁) (htasks : s₁.tasks = s.tasks)
    (hqueue : s₁.authority.asyncWaiters = s.authority.asyncWaiters) :
    Serves s s₁.grantNextWaiterLocked := by
  obtain ⟨horder, hleft, -⟩ := serves_grantNext h
  have hcancelled : s₁.futureCancelled = s.futureCancelled := by
    funext p
    unfold System.futureCancelled
    rw [htasks]
  constructor
  · refine ⟨?_, ?_, ?_⟩
    · rw [← hqueue]
      exact horder.rest
    · rw [← hqueue, ← htasks, ← hcancelled]
      exact horder.first
    · rw [← hqueue, ← hcancelled]
      exact horder.removed
  · intro q hgranted hafter
    have hbefore := hleft q hafter
    rw [htasks] at hbefore
    rw [hbefore] at hgranted
    exact Bool.noConfusion hgranted

/-! ## Steps of one thread -/

theorem served_enterMutation {active : Option ReservationId} {supervision : Bool}
    (h : Served s) (hs : s.enterMutation t active supervision = some s') :
    Served s' ∧ Serves s s' := by
  unfold System.enterMutation at hs
  dsimp only at hs
  split at hs
  · exact nomatch hs
  · split at hs
    · split at hs
      · obtain rfl := Option.some_inj.mp hs
        exact ⟨h.of_same rfl rfl h.reservation fun _ => Iff.rfl, Serves.of_same rfl rfl⟩
      · exact nomatch hs
    · split at hs
      · obtain rfl := Option.some_inj.mp hs
        exact ⟨h.of_same rfl rfl h.reservation fun _ => Iff.rfl, Serves.of_same rfl rfl⟩
      · split at hs
        · rename_i hadmit
          obtain ⟨⟨-, hnone⟩, hguard⟩ := hadmit
          obtain rfl := Option.some_inj.mp hs
          refine ⟨h.of_same rfl rfl ?_ ?_, Serves.of_same rfl rfl⟩
          · intro r hr
            rw [show s.authority.reservation = some r from hr] at hnone
            exact nomatch hnone
          · intro r
            show (if _ then s.authority.effectOwner else some (.thread t)) = _ ↔ _
            split
            · exact Iff.rfl
            · rename_i hcut
              rw [(hguard.resolve_left hcut).1]
              simp
        · exact nomatch hs

theorem served_releaseMutationLocked (h : Served s) :
    Served (s.releaseMutationLocked t) ∧ Serves s (s.releaseMutationLocked t) := by
  unfold System.releaseMutationLocked
  dsimp only
  split
  · unfold System.releaseAbandonedMutationLocked
    dsimp only
    split
    · rename_i hlast
      have hserved : Served ((s.setThread t { s.threads t with
          abandonedDepth := (s.threads t).abandonedDepth - 1 }).setAuthority
            { s.authority with effectOwner := none }) := by
        refine h.of_same rfl rfl ?_ fun r => ?_
        · intro r hr
          have := h.reservation r hr
          rw [hlast.2] at this
          exact nomatch this
        · rw [hlast.2]
          simp
      exact ⟨served_grantNext hserved, Serves.grantNext hserved rfl rfl⟩
    · exact ⟨h.of_same rfl rfl h.reservation fun _ => Iff.rfl, Serves.of_same rfl rfl⟩
  · split
    · have hserved : Served (s.setAuthority { s.authority with
          depth := 0
          ownerThread := none
          effectOwner := if s.authority.effectOwner = some (.thread t) then none
            else s.authority.effectOwner }) := by
        refine h.of_same rfl rfl ?_ fun r => ?_
        · intro r hr
          have heffect := h.reservation r hr
          show (if _ then none else s.authority.effectOwner) = _
          rw [heffect, if_neg nofun]
        · show (if _ then none else s.authority.effectOwner) = _ ↔ _
          split
          · rename_i hthread
            rw [hthread]
            simp
          · exact Iff.rfl
      exact ⟨served_grantNext hserved, Serves.grantNext hserved rfl rfl⟩
    · exact ⟨h.of_same rfl rfl h.reservation fun _ => Iff.rfl, Serves.of_same rfl rfl⟩

theorem served_exitMutation (h : Served s) (hs : s.exitMutation t = some s') :
    Served s' ∧ Serves s s' := by
  unfold System.exitMutation at hs
  dsimp only at hs
  split at hs
  · exact nomatch hs
  · split at hs
    · exact nomatch hs
    · rename_i frame rest hframes
      obtain rfl := Option.some_inj.mp hs
      have hpopped : Served (s.setThread t { s.threads t with mutations := rest }) :=
        h.of_same rfl rfl h.reservation fun _ => Iff.rfl
      split
      · exact ⟨hpopped, Serves.of_same rfl rfl⟩
      · obtain ⟨hserved, horder, hhands⟩ := served_releaseMutationLocked (t := t) hpopped
        exact ⟨hserved, ⟨horder.rest, horder.first, horder.removed⟩, hhands⟩

theorem served_requestExternal {active : Option ReservationId} (h : Served s)
    (hs : s.requestExternal t active = some s') : Served s' ∧ Serves s s' := by
  unfold System.requestExternal at hs
  dsimp only at hs
  split at hs
  · obtain rfl := Option.some_inj.mp hs
    exact ⟨h.of_same rfl rfl h.reservation fun _ => Iff.rfl, Serves.of_same rfl rfl⟩
  · exact nomatch hs

section

variable (h : Served s)
include h

theorem served_enterExternal (hs : s.enterExternal t = some s') : Served s' ∧ Serves s s' := by
  unfold System.enterExternal at hs
  dsimp only at hs
  split at hs
  · obtain rfl := Option.some_inj.mp hs
    exact ⟨h.of_same rfl rfl nofun fun _ => Iff.rfl, Serves.of_same rfl rfl⟩
  · exact nomatch hs

theorem served_returnExternal (hactive : RestoresActive s (.returnExternal t))
    (hs : s.returnExternal t = some s') : Served s' ∧ Serves s s' := by
  unfold System.returnExternal at hs
  dsimp only at hs
  split at hs
  · rename_i saved hinside
    split at hs
    · obtain rfl := Option.some_inj.mp hs
      exact ⟨h.of_same rfl rfl (fun r hr => hactive saved r hinside hr) fun _ => Iff.rfl,
        Serves.of_same rfl rfl⟩
    · exact nomatch hs
  · exact nomatch hs

theorem served_timeOutExternal (hs : s.timeOutExternal t = some s') : Served s' ∧ Serves s s' := by
  unfold System.timeOutExternal at hs
  dsimp only at hs
  split at hs
  · split at hs
    · exact nomatch hs
    · obtain rfl := Option.some_inj.mp hs
      exact ⟨h.of_same rfl rfl h.reservation fun _ => Iff.rfl, Serves.of_same rfl rfl⟩
  · exact nomatch hs

/-! ## Steps of one task -/

theorem served_setTask {task : Task} (htask : TaskServed s.authority r task)
    (hgranted : task.granted = (s.tasks r).granted) (hleft : task ≠ .left) :
    Served (s.setTask r task) ∧ Serves s (s.setTask r task) := by
  have hsame : ∀ q, ((s.setTask r task).tasks q).granted = (s.tasks q).granted := by
    intro q
    by_cases hq : q = r
    · rw [hq, tasks_setTask_same, hgranted]
    · rw [tasks_setTask_ne _ hq]
  refine ⟨⟨h.reservation, h.waiters_nodup, fun q => ?_⟩, ⟨⟨?_, ?_, ?_⟩, ?_⟩⟩
  · by_cases hq : q = r
    · rw [hq, tasks_setTask_same]
      exact htask
    · rw [tasks_setTask_ne _ hq]
      exact h.task q
  · exact ⟨s.authority.asyncWaiters, [], List.Sublist.refl _, (List.append_nil _).symm⟩
  · intro q hno hyes
    rw [hsame q, hno] at hyes
    exact Bool.noConfusion hyes
  · exact fun p hp hnot => absurd hp hnot
  · intro q hyes hafter
    by_cases hq : q = r
    · rw [hq, tasks_setTask_same] at hafter
      exact absurd hafter hleft
    · rw [tasks_setTask_ne _ hq] at hafter
      rw [hafter] at hyes
      exact Bool.noConfusion hyes

theorem served_reserve (hs : s.reserve r = some s') : Served s' ∧ Serves s s' := by
  have htask := h.task r
  unfold System.reserve at hs
  dsimp only at hs
  split at hs
  · exact nomatch hs
  · rename_i hstarted
    have hunstarted : s.tasks r = .unstarted := by simpa using hstarted
    rw [hunstarted] at htask
    have hnot : r ∉ s.authority.asyncWaiters := fun hmem =>
      Bool.noConfusion (htask.queued hmem)
    have hother : ∀ {a : Authority} {task : Task} {q : ReservationId}, q ≠ r →
        ((s.setAuthority a).setTask r task).tasks q = s.tasks q := by
      intro a task q hq
      rw [tasks_setTask_ne _ hq]
      rfl
    -- A task that is started is not the one that leaves.
    have hhands : ∀ {a : Authority} {task : Task}, task ≠ .left →
        HandsOn s ((s.setAuthority a).setTask r task) := by
      intro a task hleft q hyes hafter
      by_cases hq : q = r
      · rw [hq, tasks_setTask_same] at hafter
        exact absurd hafter hleft
      · rw [hother hq] at hafter
        rw [hafter] at hyes
        exact Bool.noConfusion hyes
    split at hs
    · rename_i hadmit
      obtain ⟨hfree, heffect, hwaiters⟩ := hadmit
      obtain rfl := Option.some_inj.mp hs
      refine ⟨⟨?_, h.waiters_nodup, fun q => ?_⟩, ⟨⟨?_, ?_, ?_⟩, hhands nofun⟩⟩
      · intro q hq
        obtain rfl := Option.some_inj.mp hq
        rfl
      · by_cases hq : q = r
        · rw [hq, tasks_setTask_same]
          exact ⟨⟨iff_of_true rfl rfl, fun hmem => absurd hmem hnot, nofun⟩, nofun, nofun⟩
        · rw [hother hq]
          have hq' := h.task q
          refine ⟨hq'.toTaskConsistent.of_other ?_ id, hq'.waiting, hq'.interrupted⟩
          show some (Owner.reservation r) = _ ↔ _
          simp [heffect, Ne.symm hq]
      · exact ⟨s.authority.asyncWaiters, [], List.Sublist.refl _, (List.append_nil _).symm⟩
      · exact fun _ _ _ => Or.inl hwaiters
      · exact fun p hp hkept => absurd hp hkept
    · obtain rfl := Option.some_inj.mp hs
      refine ⟨⟨h.reservation, ?_, fun q => ?_⟩, ⟨⟨?_, ?_, ?_⟩, hhands nofun⟩⟩
      · exact List.nodup_append.mpr ⟨h.waiters_nodup, by simp, by
          intro q hq p hp heq
          rw [List.mem_singleton.mp hp] at heq
          exact hnot (heq ▸ hq)⟩
      · by_cases hq : q = r
        · rw [hq, tasks_setTask_same]
          refine ⟨⟨htask.granted, fun _ => rfl, ?_⟩, ?_, nofun⟩
          · intro waiter hwaiter hresolved
            obtain rfl := Task.awaiting.inj hwaiter
            exact nomatch hresolved
          · intro waiter hwaiter _
            obtain rfl := Task.awaiting.inj hwaiter
            exact ⟨rfl, List.mem_append_right _ (List.mem_singleton.mpr rfl)⟩
        · rw [hother hq]
          have hq' := h.task q
          refine ⟨hq'.toTaskConsistent.of_other Iff.rfl ?_, ?_, hq'.interrupted⟩
          · intro hmem
            exact (List.mem_append.mp hmem).resolve_right fun hr => hq (List.mem_singleton.mp hr)
          · intro waiter hwaiter hno
            obtain ⟨hpending, hmem⟩ := hq'.waiting waiter hwaiter hno
            exact ⟨hpending, List.mem_append_left _ hmem⟩
      · exact ⟨s.authority.asyncWaiters, [r], List.Sublist.refl _, rfl⟩
      · intro q hno hyes
        by_cases hq : q = r
        · rw [hq, tasks_setTask_same] at hyes
          exact Bool.noConfusion hyes
        · rw [hother hq, hno] at hyes
          exact Bool.noConfusion hyes
      · intro p hp hkept
        exact absurd (List.mem_append_left _ hp) hkept

theorem served_completeWaiter (hs : s.completeWaiter r = some s') : Served s' ∧ Serves s s' := by
  have htask := h.task r
  unfold System.completeWaiter at hs
  split at hs
  · rename_i waiter hawaiting
    rw [hawaiting] at htask
    split at hs
    · rename_i hgranted
      obtain rfl := Option.some_inj.mp hs
      refine served_setTask h ⟨⟨htask.granted, htask.queued, ?_⟩, ?_, nofun⟩
        (by rw [hawaiting]; rfl) nofun
      · intro other hother _
        obtain rfl := Task.awaiting.inj hother
        exact hgranted.1
      · intro other hother hno
        obtain rfl := Task.awaiting.inj hother
        exact absurd hgranted.1 (by rw [show waiter.granted = false from hno]; exact nofun)
    · exact nomatch hs
  · exact nomatch hs

theorem served_interrupt (hs : s.interrupt r = some s') : Served s' ∧ Serves s s' := by
  have htask := h.task r
  unfold System.interrupt at hs
  split at hs
  · rename_i waiter hawaiting
    rw [hawaiting] at htask
    obtain rfl := Option.some_inj.mp hs
    refine served_setTask h ⟨⟨htask.granted, htask.queued, nofun⟩, nofun, ?_⟩
      (by rw [hawaiting]; rfl) nofun
    intro other hother hno
    obtain rfl := Task.interrupted.inj hother
    show (if waiter.future = .pending then FutureState.cancelled else waiter.future) = .cancelled
    rw [if_pos (htask.waiting waiter rfl hno).1]
  · exact nomatch hs

theorem served_resume (hs : s.resume r = some s') : Served s' ∧ Serves s s' := by
  have htask := h.task r
  unfold System.resume at hs
  split at hs
  · rename_i waiter hawaiting
    rw [hawaiting] at htask
    split at hs
    · rename_i hresolved
      have hgranted := htask.resolved waiter rfl hresolved
      obtain rfl := Option.some_inj.mp hs
      refine served_setTask h ⟨⟨iff_of_true rfl (htask.granted.mp hgranted), ?_, fun _ heq => (by cases heq)⟩,
        fun _ heq => (by cases heq), fun _ heq => (by cases heq)⟩
        (by rw [hawaiting]; exact hgranted.symm) fun heq => by cases heq
      intro hmem
      have hqueued := htask.queued hmem
      simp [Task.queued, hgranted] at hqueued
    · cases hs
  · cases hs

theorem served_release (hgranted : (s.tasks r).granted = true) :
    Served ((s.setTask r .left).releaseReservationLocked r) ∧
      Serves s ((s.setTask r .left).releaseReservationLocked r) := by
  have heffect := (h.task r).granted.mp hgranted
  have hqueue : r ∉ s.authority.asyncWaiters := by
    intro hmem
    rw [not_granted_of_queued ((h.task r).queued hmem)] at hgranted
    exact Bool.noConfusion hgranted
  have hreleased : (if s.authority.reservation = some r then none else s.authority.reservation) =
      none := by
    cases hreservation : s.authority.reservation with
    | none => exact ite_self none
    | some q =>
      have hboth := (h.reservation q hreservation).symm.trans heffect
      rw [Owner.reservation.inj (Option.some_inj.mp hboth), if_pos rfl]
  obtain ⟨s₁, hs₁⟩ : ∃ s₁, s₁ = (s.setTask r .left).setAuthority { s.authority with
      reservation := if s.authority.reservation = some r then none else s.authority.reservation
      effectOwner := if s.authority.effectOwner = some (.reservation r) then none
        else s.authority.effectOwner } := ⟨_, rfl⟩
  have hrelease : (s.setTask r .left).releaseReservationLocked r = s₁.grantNextWaiterLocked := by
    unfold System.releaseReservationLocked
    dsimp only
    rw [if_neg (by rw [authority_setTask, heffect]; exact fun h => h.2 rfl), hs₁]
    rfl
  have hauthority : s₁.authority = { s.authority with reservation := none, effectOwner := none } := by
    rw [hs₁, authority_setAuthority, hreleased, heffect, if_pos rfl]
  have htasks : ∀ q, q ≠ r → s₁.tasks q = s.tasks q := by
    intro q hq
    rw [hs₁, tasks_setAuthority, tasks_setTask_ne _ hq]
  have hself : s₁.tasks r = .left := by
    rw [hs₁, tasks_setAuthority, tasks_setTask_same]
  have hcancelled : ∀ p ∈ s.authority.asyncWaiters, s₁.futureCancelled p = s.futureCancelled p := by
    intro p hp
    have hne : p ≠ r := fun heq => hqueue (heq ▸ hp)
    unfold System.futureCancelled
    rw [htasks p hne]
  have hserved : Served s₁ := by
    refine ⟨?_, by rw [hauthority]; exact h.waiters_nodup, fun q => ?_⟩
    · intro q hq
      rw [hauthority] at hq
      exact nomatch hq
    · rw [hauthority]
      by_cases hq : q = r
      · rw [hq, hself]
        exact ⟨⟨iff_of_false Bool.false_ne_true nofun, fun hmem => absurd hmem hqueue, nofun⟩,
          nofun, nofun⟩
      · rw [htasks q hq]
        have hq' := h.task q
        refine ⟨hq'.toTaskConsistent.of_other ?_ id, hq'.waiting, hq'.interrupted⟩
        simp [heffect, Ne.symm hq]
  have hsame : s₁.authority.asyncWaiters = s.authority.asyncWaiters := by rw [hauthority]
  rw [hrelease]
  refine ⟨served_grantNext hserved, ?_⟩
  obtain ⟨horder, -, hgrants⟩ := serves_grantNext hserved
  constructor
  · refine ⟨by rw [← hsame]; exact horder.rest, ?_, ?_⟩
    · intro q hno hyes
      have hno₁ : (s₁.tasks q).granted = false := by
        by_cases hq : q = r
        · rw [hq, hself]
          rfl
        · rw [htasks q hq]
          exact hno
      rw [← hsame]
      refine (horder.first q hno₁ hyes).imp_right ?_
      rintro ⟨passed, hsplit, hpassed⟩
      refine ⟨passed, hsplit, fun p hp => ?_⟩
      rw [← hcancelled p (by rw [← hsame, hsplit]; exact List.mem_append_left _ hp)]
      exact hpassed p hp
    · intro p hp hnot
      rw [← hcancelled p hp]
      exact horder.removed p (by rw [hsame]; exact hp) hnot
  · intro _ _ _ hnobody passed q rest hsplit hpassed hlive
    refine hgrants (by rw [hauthority]) (by rw [hauthority]; exact ⟨hnobody, rfl⟩) passed q rest
      (by rw [hsame]; exact hsplit) (fun p hp => ?_) ?_
    · rw [hcancelled p (by rw [hsplit]; exact List.mem_append_left _ hp)]
      exact hpassed p hp
    · rw [hcancelled q (by rw [hsplit]; exact List.mem_append_right _ List.mem_cons_self)]
      exact hlive

theorem served_abort (hs : s.abort r = some s') : Served s' ∧ Serves s s' := by
  have htask := h.task r
  unfold System.abort at hs
  split at hs
  · rename_i waiter hinterrupted
    dsimp only at hs
    obtain rfl := Option.some_inj.mp hs
    split
    · rename_i hgranted
      exact served_release h (by rw [hinterrupted]; exact hgranted)
    · rename_i hwaits
      rw [hinterrupted] at htask
      have hno : waiter.granted = false := by simpa using hwaits
      have hother : ∀ q, q ≠ r → ((s.setTask r .left).setAuthority { s.authority with
          asyncWaiters := s.authority.asyncWaiters.erase r }).tasks q = s.tasks q := by
        intro q hq
        rw [tasks_setAuthority, tasks_setTask_ne _ hq]
      have hself : ((s.setTask r .left).setAuthority { s.authority with
          asyncWaiters := s.authority.asyncWaiters.erase r }).tasks r = .left := by
        rw [tasks_setAuthority, tasks_setTask_same]
      refine ⟨⟨h.reservation, h.waiters_nodup.erase r, fun q => ?_⟩, ⟨⟨?_, ?_, ?_⟩, ?_⟩⟩
      · by_cases hq : q = r
        · rw [hq, hself]
          refine ⟨⟨iff_of_false Bool.false_ne_true fun heffect => ?_, fun hmem => ?_, nofun⟩,
            nofun, nofun⟩
          · exact hwaits (htask.granted.mpr heffect)
          · exact absurd rfl (h.waiters_nodup.mem_erase_iff.mp hmem).1
        · rw [hother q hq]
          have hq' := h.task q
          refine ⟨hq'.toTaskConsistent.of_other Iff.rfl fun hmem => List.mem_of_mem_erase hmem, ?_,
            hq'.interrupted⟩
          intro other hawaiting hnot
          obtain ⟨hpending, hmem⟩ := hq'.waiting other hawaiting hnot
          exact ⟨hpending, h.waiters_nodup.mem_erase_iff.mpr ⟨hq, hmem⟩⟩
      · exact ⟨s.authority.asyncWaiters.erase r, [], List.erase_sublist,
          (List.append_nil _).symm⟩
      · intro q hnot hyes
        by_cases hq : q = r
        · rw [hq, hself] at hyes
          exact Bool.noConfusion hyes
        · rw [hother q hq, hnot] at hyes
          exact Bool.noConfusion hyes
      · intro p hp hnot
        have hpr : p = r := by
          by_contra hne
          exact hnot (h.waiters_nodup.mem_erase_iff.mpr ⟨hne, hp⟩)
        refine Or.inr ?_
        unfold System.futureCancelled
        rw [hpr, hinterrupted]
        exact decide_eq_true (htask.interrupted waiter rfl hno)
      · intro q hyes hafter
        by_cases hq : q = r
        · rw [hq, hinterrupted] at hyes
          exact absurd hyes (by rw [show (Task.interrupted waiter).granted = false from hno]; exact nofun)
        · rw [hother q hq] at hafter
          rw [hafter] at hyes
          exact Bool.noConfusion hyes
  · exact nomatch hs

theorem served_leave (hs : s.leave r = some s') : Served s' ∧ Serves s s' := by
  unfold System.leave at hs
  split at hs
  · rename_i hinside
    obtain rfl := Option.some_inj.mp hs
    exact served_release h (by rw [hinside]; rfl)
  · exact nomatch hs

end

end Steps

/-! ## Runs -/

theorem served_after {s s' : System} {action : Action} (h : Served s)
    (hactive : RestoresActive s action) (hs : s.after action = some s') :
    Served s' ∧ Serves s s' := by
  cases action with
  | enterMutation t active supervision => exact served_enterMutation h hs
  | exitMutation t => exact served_exitMutation h hs
  | requestExternal t active => exact served_requestExternal h hs
  | enterExternal t => exact served_enterExternal h hs
  | returnExternal t => exact served_returnExternal h hactive hs
  | timeOutExternal t => exact served_timeOutExternal h hs
  | reserve r => exact served_reserve h hs
  | completeWaiter r => exact served_completeWaiter h hs
  | interrupt r => exact served_interrupt h hs
  | resume r => exact served_resume h hs
  | abort r => exact served_abort h hs
  | leave r => exact served_leave h hs

theorem served_step (s : System) (action : Action) (h : Served s)
    (hactive : RestoresActive s action) :
    Served (step s action) ∧ Serves s (step s action) := by
  unfold step
  cases hs : s.after action with
  | none => exact ⟨h, Serves.of_same rfl rfl⟩
  | some s' => exact served_after h hactive hs

theorem served_initial : Served initialSystem where
  reservation := nofun
  waiters_nodup := List.nodup_nil
  task := fun _ => ⟨⟨iff_of_false Bool.false_ne_true nofun, fun hmem => absurd hmem List.not_mem_nil,
    nofun⟩, nofun, nofun⟩

theorem Served.reraises_iff {s : System} (h : Served s) (action : Action) :
    CleansUpFirst s action ↔ Reraises s action := by
  cases action with
  | abort r =>
    refine forall_congr' fun waiter => forall_congr' fun hinterrupted => ?_
    have hgranted := (h.task r).granted
    rw [hinterrupted] at hgranted
    unfold System.cleanupExit
    by_cases hyes : waiter.granted = true
    · have hactive : s.authority.active r := Or.inr (hgranted.mp hyes)
      rw [if_pos hyes, if_pos hactive]
      exact iff_of_true (Or.inl hyes) rfl
    · rw [if_neg hyes]
      by_cases hmem : r ∈ s.authority.asyncWaiters
      · rw [if_pos hmem]
        exact iff_of_true (Or.inr hmem) rfl
      · rw [if_neg hmem]
        exact iff_of_false (not_or.mpr ⟨hyes, hmem⟩) nofun
  | leave r =>
    refine iff_of_true trivial fun hinside => Or.inr ((h.task r).granted.mp ?_)
    rw [hinside]
    rfl
  | _ => exact Iff.rfl

/-- What a call that has left does not keep. -/
def LeavesNothing (s : System) : Prop :=
  ∀ r, s.tasks r = .left → r ∉ s.authority.asyncWaiters ∧ s.authority.reservation ≠ some r ∧
    s.authority.effectOwner ≠ some (.reservation r)

theorem Served.leavesNothing {s : System} (h : Served s) : LeavesNothing s := by
  intro r hleft
  have htask := h.task r
  rw [hleft] at htask
  have heffect : s.authority.effectOwner ≠ some (.reservation r) :=
    fun heffect => Bool.noConfusion (htask.granted.mpr heffect)
  exact ⟨fun hmem => Bool.noConfusion (htask.queued hmem),
    fun hreservation => heffect (h.reservation r hreservation), heffect⟩

/-- Over every run whose external calls put back only active reservations: each cleanup
re-raises exactly where each comes before its waiter is taken out of the queue, every
step serves the waiters in order, and a call that has left has left nothing. -/
theorem reserve_interrupted (actions : List Action)
    (hactive : Run.Along step RestoresActive initialSystem actions) :
    (Run.Along step CleansUpFirst initialSystem actions ↔
      Run.Along step Reraises initialSystem actions) ∧
    Run.Along step (fun s action => Serves s (step s action)) initialSystem actions ∧
    LeavesNothing (Run.run step initialSystem actions) := by
  have hkeep : ∀ s action, Served s → RestoresActive s action → Served (step s action) :=
    fun s action h hactive => (served_step s action h hactive).1
  refine ⟨Run.along_iff hkeep (fun s action h _ => h.reraises_iff action) served_initial hactive,
    Run.along_of_invariant hkeep (fun s action h hactive => (served_step s action h hactive).2)
      served_initial hactive, ?_⟩
  exact (Run.run_invariant_along hkeep initialSystem actions served_initial hactive).leavesNothing

/-- A waiter that times out, cleans up, and leaves the next one to the release. -/
def cleanupInTime : List Action :=
  [.reserve 0, .reserve 1, .reserve 2, .interrupt 1, .abort 1, .leave 0, .completeWaiter 2,
    .resume 2]

theorem reserve_interrupted_cleanupInTime :
    LeavesNothing (Run.run step initialSystem cleanupInTime) ∧
      (Run.run step initialSystem cleanupInTime).tasks 2 = .inside :=
  ⟨(reserve_interrupted cleanupInTime ⟨trivial, trivial, trivial, trivial, trivial, trivial,
    trivial, trivial, trivial⟩).2.2, by decide +kernel⟩

/-- The holder of the permit leaves between the cancellation of a waiter and the
cleanup. -/
def overtakenCleanup : List Action :=
  [.reserve 0, .reserve 1, .interrupt 1, .leave 0, .abort 1]

/-- A granted waiter is cancelled while an external call that began under the holder
before it has saved its permit. -/
def restoredLate : List Action :=
  [.reserve 0, .requestExternal 1 (some 0), .reserve 1, .leave 0, .enterExternal 1, .interrupt 1,
    .abort 1, .returnExternal 1]

/-- The cleanup of the overtaken waiter raises another error, and the late external call
gives a permit to a call that has left. -/
theorem not_reraises_overtaken :
    ¬ Run.Along step Reraises initialSystem overtakenCleanup ∧
      ¬ LeavesNothing (Run.run step initialSystem restoredLate) := by
  constructor
  · intro h
    have hexit := h.2.2.2.2.1 ⟨false, .cancelled⟩ (by decide +kernel)
    exact absurd hexit (by decide +kernel)
  · intro h
    exact (h 1 (by decide +kernel)).2.1 (by decide +kernel)

end Raes.Mutation
