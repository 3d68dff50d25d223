import Mathlib.Data.Int.Notation
import Mathlib.Data.Nat.Notation
import Mathlib.Logic.Function.Basic
import Raes.Lib.Stateful

/-!
# The mutation authority

The mutation authority of `control_plane_mutation.py` among the threads and the
asynchronous tasks that use it.  Each section that the source runs under its
lock is one step, and so is each event of the event loop on the future of a
waiter.  A thread opens and closes its contexts one inside the other; the
threads and tasks take their steps in any order.

A step that the source refuses, by an error or because the admission budget runs
out, changes nothing and is not enabled.
-/

namespace Raes.Mutation

abbrev ThreadId := ℕ

/-- The identity of one `reserve` call. -/
abbrev ReservationId := ℕ

/-! ## States -/

/-- Who can hold the state permit or an effect reservation. -/
inductive Owner where
  | thread (id : ThreadId)
  | reservation (id : ReservationId)
  deriving DecidableEq, Repr

inductive FutureState where
  | pending
  | resolved
  | cancelled
  deriving DecidableEq, Repr

structure AsyncWaiter where
  granted : Bool
  future : FutureState
  deriving DecidableEq, Repr

/-- Where one `reserve` call stands.  It is interrupted when the wait for its
future has raised. -/
inductive Task where
  | unstarted
  | awaiting (waiter : AsyncWaiter)
  | interrupted (waiter : AsyncWaiter)
  | inside
  | left
  deriving DecidableEq, Repr

/-- An open `mutation` context.  It runs under the reservation of a task, or it
is the thread's own. -/
structure MutationFrame where
  reserved : Option ReservationId
  supervisoryCut : Bool
  deriving DecidableEq, Repr

/-- What an external call gives up and takes back. -/
structure SavedPermit where
  ownerThread : Option ThreadId
  reservation : Option ReservationId
  depth : ℤ
  deriving DecidableEq, Repr

/-- Where a thread stands in an external call.  It first checks that it owns the
permit, itself or under a reservation, and gives the permit up in a later
section. -/
inductive ExternalCall where
  | absent
  | requested (under : Option ReservationId)
  | inside (saved : SavedPermit)
  deriving DecidableEq, Repr

/-- What belongs to one thread: its open mutation contexts, innermost first, its
external call and its abandoned depth. -/
structure ThreadLocal where
  mutations : List MutationFrame
  external : ExternalCall
  abandonedDepth : ℤ
  deriving DecidableEq, Repr

/-- The fields that the lock protects. -/
structure Authority where
  ownerThread : Option ThreadId
  reservation : Option ReservationId
  effectOwner : Option Owner
  asyncWaiters : List ReservationId
  depth : ℤ
  deriving DecidableEq, Repr

structure System where
  authority : Authority
  threads : ThreadId → ThreadLocal
  tasks : ReservationId → Task

def initialAuthority : Authority where
  ownerThread := none
  reservation := none
  effectOwner := none
  asyncWaiters := []
  depth := 0

def idleThread : ThreadLocal where
  mutations := []
  external := .absent
  abandonedDepth := 0

def initialSystem : System where
  authority := initialAuthority
  threads := fun _ => idleThread
  tasks := fun _ => .unstarted

/-! ## Sections under the lock -/

def Authority.permitIsFree (a : Authority) : Prop := a.ownerThread = none ∧ a.reservation = none

instance (a : Authority) : Decidable a.permitIsFree := inferInstanceAs (Decidable (_ ∧ _))

/-- `owns_current_thread` in a context that carries a reservation or not. -/
def Authority.ownedBy (a : Authority) (t : ThreadId) (active : Option ReservationId) : Prop :=
  a.ownerThread = some t ∨ active ≠ none ∧ a.reservation = active

instance (a : Authority) (t : ThreadId) (active : Option ReservationId) :
    Decidable (a.ownedBy t active) :=
  inferInstanceAs (Decidable (_ ∨ _ ∧ _))

/-- A context carries a reservation only from the opening of its `reserve`
context on, and a copy of it outlives that context. -/
def Task.carried (task : Task) : Prop := task = .inside ∨ task = .left

instance (task : Task) : Decidable task.carried := inferInstanceAs (Decidable (_ ∨ _))

/-- Mark the waiter of a `reserve` call as granted. -/
def Task.grant : Task → Task
  | .awaiting waiter => .awaiting { waiter with granted := true }
  | .interrupted waiter => .interrupted { waiter with granted := true }
  | task => task

namespace System

variable (s : System)

def setThread (t : ThreadId) (l : ThreadLocal) : System :=
  { s with threads := Function.update s.threads t l }

def setTask (r : ReservationId) (task : Task) : System :=
  { s with tasks := Function.update s.tasks r task }

def setAuthority (a : Authority) : System := { s with authority := a }

/-- `waiter.future.cancelled()` -/
def futureCancelled (r : ReservationId) : Bool :=
  match s.tasks r with
  | .awaiting waiter => waiter.future = .cancelled
  | .interrupted waiter => waiter.future = .cancelled
  | _ => false

def grant (s : System) (r : ReservationId) : System := s.setTask r (s.tasks r).grant

/-- Hand the permit to the first waiter whose future is not cancelled. -/
def grantNextWaiterLocked (s : System) : System :=
  let a := s.authority
  if a.effectOwner ≠ none ∨ ¬ a.permitIsFree then s
  else match a.asyncWaiters.dropWhile s.futureCancelled with
    | [] => s.setAuthority { a with asyncWaiters := [] }
    | r :: rest =>
      (s.setAuthority { a with
        reservation := some r
        effectOwner := some (.reservation r)
        asyncWaiters := rest }).grant r

/-- An inactive reservation makes the source raise and changes nothing. -/
def releaseReservationLocked (r : ReservationId) : System :=
  let a := s.authority
  if a.reservation ≠ some r ∧ a.effectOwner ≠ some (.reservation r) then s
  else
    (s.setAuthority { a with
      reservation := if a.reservation = some r then none else a.reservation
      effectOwner := if a.effectOwner = some (.reservation r) then none else a.effectOwner
    }).grantNextWaiterLocked

def releaseAbandonedMutationLocked (t : ThreadId) : System :=
  let l := s.threads t
  let s' := s.setThread t { l with abandonedDepth := l.abandonedDepth - 1 }
  if l.abandonedDepth = 1 ∧ s.authority.effectOwner = some (.thread t) then
    (s'.setAuthority { s.authority with effectOwner := none }).grantNextWaiterLocked
  else s'

def releaseMutationLocked (t : ThreadId) : System :=
  let a := s.authority
  if (s.threads t).abandonedDepth ≠ 0 then s.releaseAbandonedMutationLocked t
  else if a.depth - 1 = 0 then
    (s.setAuthority { a with
      depth := 0
      ownerThread := none
      effectOwner := if a.effectOwner = some (.thread t) then none else a.effectOwner
    }).grantNextWaiterLocked
  else s.setAuthority { a with depth := a.depth - 1 }

/-! ## Steps -/

/-- Open a `mutation` context, through `supervision` or not, in a context that
carries a reservation or not. -/
def enterMutation (t : ThreadId) (active : Option ReservationId)
    (supervision : Bool) : Option System :=
  let a := s.authority
  let l := s.threads t
  let cut := supervision || l.mutations.any MutationFrame.supervisoryCut
  let push (reserved : Option ReservationId) : ThreadLocal :=
    { l with mutations := ⟨reserved, cut⟩ :: l.mutations }
  if l.external ≠ .absent then none
  else match active with
    | some r =>
      if (s.tasks r).carried ∧ a.reservation = some r then some (s.setThread t (push (some r)))
      else none
    | none =>
      if a.ownerThread = some t then
        some ((s.setAuthority { a with depth := a.depth + 1 }).setThread t (push none))
      else if a.permitIsFree ∧ (cut = true ∨ a.effectOwner = none ∧ a.asyncWaiters = []) then
        some ((s.setAuthority { a with
          ownerThread := some t
          depth := 1
          effectOwner := if cut then a.effectOwner else some (.thread t)
        }).setThread t (push none))
      else none

/-- Close the innermost `mutation` context of a thread. -/
def exitMutation (t : ThreadId) : Option System :=
  let l := s.threads t
  if l.external ≠ .absent then none
  else match l.mutations with
    | [] => none
    | frame :: rest =>
      let s' := s.setThread t { l with mutations := rest }
      some (if frame.reserved.isSome then s' else s'.releaseMutationLocked t)

/-- The check of `external_call` that the thread owns the permit. -/
def requestExternal (t : ThreadId) (active : Option ReservationId) : Option System :=
  let l := s.threads t
  if l.external = .absent ∧ (∀ r ∈ active, (s.tasks r).carried) ∧ s.authority.ownedBy t active then
    let under := if s.authority.ownerThread = some t then none else active
    some (s.setThread t { l with external := .requested under })
  else none

/-- The section of `external_call` that gives up the permit. -/
def enterExternal (t : ThreadId) : Option System :=
  let a := s.authority
  let l := s.threads t
  match l.external with
  | .requested _ =>
    some ((s.setAuthority { a with ownerThread := none, reservation := none, depth := 0 }).setThread
      t { l with external := .inside ⟨a.ownerThread, a.reservation, a.depth⟩ })
  | _ => none

/-- The end of an external call that gets the permit back. -/
def returnExternal (t : ThreadId) : Option System :=
  let a := s.authority
  let l := s.threads t
  match l.external with
  | .inside saved =>
    if a.permitIsFree then
      some ((s.setAuthority { a with
        ownerThread := saved.ownerThread
        reservation := saved.reservation
        depth := saved.depth }).setThread t { l with external := .absent })
    else none
  | _ => none

/-- The end of an external call whose wait for the permit times out. -/
def timeOutExternal (t : ThreadId) : Option System :=
  let l := s.threads t
  match l.external with
  | .inside saved =>
    if s.authority.permitIsFree then none
    else some (s.setThread t { l with
      external := .absent
      abandonedDepth := if saved.reservation = none then saved.depth else l.abandonedDepth })
  | _ => none

def reserve (r : ReservationId) : Option System :=
  let a := s.authority
  if s.tasks r ≠ .unstarted then none
  else if a.permitIsFree ∧ a.effectOwner = none ∧ a.asyncWaiters = [] then
    some ((s.setAuthority { a with
      reservation := some r, effectOwner := some (.reservation r) }).setTask r .inside)
  else
    some ((s.setAuthority { a with asyncWaiters := a.asyncWaiters ++ [r] }).setTask r
      (.awaiting ⟨false, .pending⟩))

/-- The event loop completes the future of a granted waiter. -/
def completeWaiter (r : ReservationId) : Option System :=
  match s.tasks r with
  | .awaiting waiter =>
    if waiter.granted ∧ waiter.future = .pending then
      some (s.setTask r (.awaiting { waiter with future := .resolved }))
    else none
  | _ => none

def interrupt (r : ReservationId) : Option System :=
  match s.tasks r with
  | .awaiting waiter =>
    let future := if waiter.future = .pending then FutureState.cancelled else waiter.future
    some (s.setTask r (.interrupted { waiter with future := future }))
  | _ => none

def resume (r : ReservationId) : Option System :=
  match s.tasks r with
  | .awaiting waiter => if waiter.future = .resolved then some (s.setTask r .inside) else none
  | _ => none

/-- The section of `reserve` after an interrupted wait.  A waiter that is not
queued any more makes the source raise and changes nothing. -/
def abort (r : ReservationId) : Option System :=
  match s.tasks r with
  | .interrupted waiter =>
    let s' := s.setTask r .left
    some (if waiter.granted then s'.releaseReservationLocked r
      else s'.setAuthority { s.authority with asyncWaiters := s.authority.asyncWaiters.erase r })
  | _ => none

def leave (r : ReservationId) : Option System :=
  match s.tasks r with
  | .inside => some ((s.setTask r .left).releaseReservationLocked r)
  | _ => none

end System

inductive Action where
  | enterMutation (t : ThreadId) (active : Option ReservationId) (supervision : Bool)
  | exitMutation (t : ThreadId)
  | requestExternal (t : ThreadId) (active : Option ReservationId)
  | enterExternal (t : ThreadId)
  | returnExternal (t : ThreadId)
  | timeOutExternal (t : ThreadId)
  | reserve (r : ReservationId)
  | completeWaiter (r : ReservationId)
  | interrupt (r : ReservationId)
  | resume (r : ReservationId)
  | abort (r : ReservationId)
  | leave (r : ReservationId)
  deriving DecidableEq, Repr

/-- The state after an enabled step. -/
def System.after (s : System) : Action → Option System
  | .enterMutation t active supervision => s.enterMutation t active supervision
  | .exitMutation t => s.exitMutation t
  | .requestExternal t active => s.requestExternal t active
  | .enterExternal t => s.enterExternal t
  | .returnExternal t => s.returnExternal t
  | .timeOutExternal t => s.timeOutExternal t
  | .reserve r => s.reserve r
  | .completeWaiter r => s.completeWaiter r
  | .interrupt r => s.interrupt r
  | .resume r => s.resume r
  | .abort r => s.abort r
  | .leave r => s.leave r

/-- A step that is not enabled changes nothing. -/
def step (s : System) (action : Action) : System := (s.after action).getD s

end Raes.Mutation
