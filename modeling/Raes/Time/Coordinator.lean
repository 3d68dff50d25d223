import Mathlib.Data.Int.Notation
import Raes.Contracts.Addressing
import Raes.Lib.Dict

/-!
# Runtime clock states

`raes_contracts/contracts/time_model.py`.  A clock reads a coordinate of one
discontinuity segment.  Its state carries the append-only history of its
transitions, and the construction of a state checks the history event by event.
An address is a compiled address and a reference is not empty by their types,
so the fields that pydantic checks alone need no check here.
-/

namespace Raes.Time

def CompiledAddress : Type := { s : String // Contracts.isCompiledAddress s = true }

instance : DecidableEq CompiledAddress :=
  inferInstanceAs (DecidableEq { s : String // Contracts.isCompiledAddress s = true })

def NonEmptyString : Type := { s : String // s ≠ "" }

instance : DecidableEq NonEmptyString := inferInstanceAs (DecidableEq { s : String // s ≠ "" })

inductive ClockAuthorityKind where
  | runtime
  | backend
  | system
  | external
  deriving DecidableEq, Repr

inductive ClockLifecycleState where
  | running
  | paused
  deriving DecidableEq, Repr

inductive ClockTransitionKind where
  | initialise
  | advance
  | pause
  | resume
  | jump
  | reset
  | replay
  deriving DecidableEq, Repr

/-- Exact superdense coordinate within one discontinuity segment. -/
structure TimeCoordinate where
  segment : ℕ
  tick : ℤ
  microstep : ℕ
  deriving DecidableEq, Repr

def negativeField (field : String) : PyError :=
  .valueError s!"{field}: Input should be greater than or equal to 0"

def TimeCoordinate.make (segment tick microstep : ℤ) : Except PyError TimeCoordinate := do
  refuseIf (segment < 0) (negativeField "segment")
  refuseIf (microstep < 0) (negativeField "microstep")
  return ⟨segment.toNat, tick, microstep.toNat⟩

@[simp] theorem TimeCoordinate.make_ofNat (segment : ℕ) (tick : ℤ) (microstep : ℕ) :
    TimeCoordinate.make segment tick microstep = .ok ⟨segment, tick, microstep⟩ := by
  unfold TimeCoordinate.make refuseIf
  rw [if_neg (by omega), if_neg (by omega)]
  rfl

/-- `(tick, microstep) < (tick, microstep)`. -/
def TimeCoordinate.Before (a b : TimeCoordinate) : Prop :=
  a.tick < b.tick ∨ (a.tick = b.tick ∧ a.microstep < b.microstep)

instance (a b : TimeCoordinate) : Decidable (a.Before b) :=
  inferInstanceAs (Decidable (_ ∨ _))

structure ClockTransitionEvent where
  sequence : ℕ
  kind : ClockTransitionKind
  previous : Option TimeCoordinate
  resulting : TimeCoordinate
  resultingState : ClockLifecycleState
  deriving DecidableEq, Repr

structure RuntimeClockState where
  (clockAddress timeDomainAddress : CompiledAddress)
  progressionPolicyAddress : Option CompiledAddress
  authorityKind : ClockAuthorityKind
  authorityRef : NonEmptyString
  state : ClockLifecycleState
  coordinate : TimeCoordinate
  sequence : ℕ
  history : List ClockTransitionEvent
  deriving DecidableEq

def validateTransition (prior event : ClockTransitionEvent) : Except PyError Unit :=
  match event.kind with
  | .advance => do
    refuseIf (event.resulting.segment ≠ prior.resulting.segment)
      (.valueError "advance must remain in the current segment")
    refuseIf (¬ prior.resulting.Before event.resulting)
      (.valueError "advance must increase the superdense coordinate")
  | .pause | .resume =>
    refuseIf (event.resulting ≠ prior.resulting)
      (.valueError "pause and resume must preserve the coordinate")
  | .jump | .reset | .replay =>
    refuseIf (event.resulting.segment ≠ prior.resulting.segment + 1)
      (.valueError "jump, reset, and replay must create exactly one new segment")
  | .initialise =>
    .error (.valueError "initialize may appear only as the first clock event")

variable (prior : Option ClockTransitionEvent)

/-- The check of an event after the events before it. -/
def validateEvent (expectedSequence : ℕ) (event : ClockTransitionEvent) : Except PyError Unit := do
  refuseIf (event.sequence ≠ expectedSequence)
    (.valueError "clock history sequence values must be contiguous from zero")
  match prior with
  | none => .ok ()
  | some prior => do
    refuseIf (event.previous ≠ some prior.resulting)
      (.valueError "clock transition previous coordinate must match prior result")
    validateTransition prior event

/-- The loop over a history. -/
def validateEvents : Option ClockTransitionEvent → ℕ → List ClockTransitionEvent →
    Except PyError Unit
  | _, _, [] => .ok ()
  | prior, expectedSequence, event :: rest => do
    validateEvent prior expectedSequence event
    validateEvents (some event) (expectedSequence + 1) rest

def firstEventError : PyError :=
  .valueError "clock history must begin with initialize and no previous coordinate"

def finalEventError : PyError :=
  .valueError "runtime clock state must equal the final history event"

/-- `RuntimeClockStateModel`, whose `history` has at least one event. -/
def RuntimeClockState.validateHistory (clock : RuntimeClockState) : Except PyError Unit :=
  match clock.history with
  | [] => .error (.valueError "history: List should have at least 1 item after validation, not 0")
  | first :: rest => do
    refuseIf (first.kind ≠ .initialise ∨ first.previous ≠ none) firstEventError
    validateEvents none 0 (first :: rest)
    let final := (first :: rest).getLast (by simp)
    refuseIf (clock.sequence ≠ final.sequence ∨ clock.coordinate ≠ final.resulting ∨
      clock.state ≠ final.resultingState) finalEventError

/-- The last event before a position, where the loop has read `prior` before the list. -/
def lastEvent (events : List ClockTransitionEvent) : Option ClockTransitionEvent :=
  events.getLast?.or prior

theorem validateEvents_append (expectedSequence : ℕ)
    (events : List ClockTransitionEvent) (event : ClockTransitionEvent) :
    validateEvents prior expectedSequence (events ++ [event]) = .ok () ↔
      validateEvents prior expectedSequence events = .ok () ∧
        validateEvent (lastEvent prior events) (expectedSequence + events.length) event = .ok () := by
  induction events generalizing prior expectedSequence with
  | nil =>
    show (do validateEvent prior expectedSequence event; Except.ok ()) = .ok () ↔ _
    rw [seq_eq_ok_iff]
    simp [validateEvents, lastEvent]
  | cons first rest ih =>
    show (do validateEvent prior expectedSequence first
             validateEvents (some first) (expectedSequence + 1) (rest ++ [event])) = .ok () ↔ _
    have hlast : lastEvent (some first) rest = lastEvent prior (first :: rest) := by
      unfold lastEvent
      cases rest with
      | nil => rfl
      | cons second more => simp [List.getLast?_eq_some_getLast]
    have hposition : expectedSequence + 1 + rest.length =
        expectedSequence + (first :: rest).length := by
      rw [List.length_cons]
      omega
    rw [seq_eq_ok_iff, ih, hlast, hposition, ← and_assoc]
    refine and_congr_left fun _ => ?_
    show _ ↔ (do validateEvent prior expectedSequence first
                 validateEvents (some first) (expectedSequence + 1) rest) = .ok ()
    rw [seq_eq_ok_iff]

theorem RuntimeClockState.validateHistory_eq_ok_iff (clock : RuntimeClockState) :
    clock.validateHistory = .ok () ↔ ∃ first rest final, clock.history = first :: rest ∧
      first.kind = .initialise ∧ first.previous = none ∧
      validateEvents none 0 clock.history = .ok () ∧ clock.history.getLast? = some final ∧
      clock.sequence = final.sequence ∧ clock.coordinate = final.resulting ∧
      clock.state = final.resultingState := by
  unfold RuntimeClockState.validateHistory
  cases hhistory : clock.history with
  | nil => simp
  | cons first rest =>
    dsimp only
    rw [seq_eq_ok_iff, seq_eq_ok_iff, refuseIf_eq_ok_iff, refuseIf_eq_ok_iff]
    rw [List.getLast?_eq_some_getLast (by simp)]
    constructor
    · rintro ⟨hfirst, hevents, hfinal⟩
      refine ⟨first, rest, _, rfl, ?_, ?_, hevents, rfl, ?_, ?_, ?_⟩ <;> by_contra h <;> simp_all
    · rintro ⟨first', rest', final, heq, hkind, hprevious, hevents, hlast, hsequence,
        hcoordinate, hstate⟩
      obtain ⟨rfl, rfl⟩ := List.cons.inj heq
      obtain rfl := Option.some.inj hlast
      exact ⟨by simp [hkind, hprevious], hevents, by simp [hsequence, hcoordinate, hstate]⟩

theorem sequence_of_validateEvents {expectedSequence : ℕ} {events : List ClockTransitionEvent}
    {final : ClockTransitionEvent} (h : validateEvents none expectedSequence events = .ok ())
    (hlast : events.getLast? = some final) :
    final.sequence + 1 = expectedSequence + events.length := by
  obtain ⟨before, rfl⟩ := List.getLast?_eq_some_iff.mp hlast
  have hevent := ((validateEvents_append none expectedSequence before final).mp h).2
  unfold validateEvent at hevent
  rw [seq_eq_ok_iff, refuseIf_eq_ok_iff, not_not] at hevent
  rw [hevent.1, List.length_append, List.length_singleton]
  omega

/-- A checked clock state grows by an event that continues it, and the grown
state is accepted exactly when it carries the lifecycle state of the event. -/
theorem RuntimeClockState.validateHistory_grow {clock next : RuntimeClockState}
    {event : ClockTransitionEvent} (hvalid : clock.validateHistory = .ok ())
    (hhistory : next.history = clock.history ++ [event])
    (hnumber : event.sequence = clock.sequence + 1)
    (hprevious : event.previous = some clock.coordinate)
    (htransition : ∀ prior : ClockTransitionEvent, prior.resulting = clock.coordinate →
      validateTransition prior event = .ok ())
    (hsequence : next.sequence = event.sequence) (hcoordinate : next.coordinate = event.resulting) :
    next.validateHistory = .ok () ↔ next.state = event.resultingState := by
  obtain ⟨first, rest, final, hfirst, hkind, hnone, hevents, hlast, hseq, hcoord, -⟩ :=
    (validateHistory_eq_ok_iff clock).mp hvalid
  have hposition := sequence_of_validateEvents hevents hlast
  have hevent : validateEvent (lastEvent none clock.history) (0 + clock.history.length) event =
      .ok () := by
    have hlast' : lastEvent none clock.history = some final := by
      unfold lastEvent
      rw [hlast]
      rfl
    rw [hlast']
    unfold validateEvent
    rw [seq_eq_ok_iff, refuseIf_eq_ok_iff]
    refine ⟨by omega, ?_⟩
    show (do refuseIf _ _; validateTransition final event) = _
    rw [seq_eq_ok_iff, refuseIf_eq_ok_iff]
    exact ⟨by simp [hprevious, hcoord], htransition final hcoord.symm⟩
  have hgrown : validateEvents none 0 (clock.history ++ [event]) = .ok () :=
    (validateEvents_append none 0 clock.history event).mpr ⟨hevents, hevent⟩
  rw [validateHistory_eq_ok_iff, hhistory]
  constructor
  · rintro ⟨_, _, final', -, -, -, -, hlast', -, -, hstate⟩
    rw [List.getLast?_concat] at hlast'
    rw [hstate, ← Option.some.inj hlast']
  · intro hstate
    refine ⟨first, rest ++ [event], event, by rw [hfirst]; rfl, hkind, hnone, hgrown, ?_,
      hsequence, hcoordinate, hstate⟩
    exact List.getLast?_concat

/-- `TimeRuntimeStateModel`. -/
structure TimeRuntimeState where
  declarationDigest : String
  clocks : Dict CompiledAddress RuntimeClockState

def TimeRuntimeState.validateClockKeys (state : TimeRuntimeState) : Except PyError Unit := do
  refuseIf (state.clocks.entries = [])
    (.valueError "clocks: Dictionary should have at least 1 item after validation, not 0")
  forM state.clocks.entries fun entry =>
    refuseIf (entry.1 ≠ entry.2.clockAddress)
      (.valueError "runtime clock-state map key must equal clock_address")

def validateTimeRuntimeTransition (previous nextState : Option TimeRuntimeState) :
    Except PyError Unit :=
  match previous, nextState with
  | none, _ => .ok ()
  | some _, none =>
    .error (.valueError "runtime transition removed initialized shared-time state")
  | some previous, some nextState => do
    refuseIf (previous.declarationDigest ≠ nextState.declarationDigest)
      (.valueError "runtime transition changed the admitted time-model digest")
    refuseIf (¬ ((∀ a ∈ previous.clocks.keys, a ∈ nextState.clocks.keys) ∧
        ∀ a ∈ nextState.clocks.keys, a ∈ previous.clocks.keys))
      (.valueError "runtime transition changed the admitted clock set")
    forM previous.clocks.entries fun entry =>
      match nextState.clocks.get? entry.1 with
      | none => .error (.keyError entry.1.val)
      | some nextClock => do
        refuseIf (nextClock.history.length < entry.2.history.length)
          (.valueError s!"runtime clock '{entry.1.val}' truncated append-only history")
        refuseIf (nextClock.history.take entry.2.history.length ≠ entry.2.history)
          (.valueError s!"runtime clock '{entry.1.val}' rewrote append-only history")

end Raes.Time

/-!
# The shared-time coordinator

`raes_runtime/time_coordinator.py`.  The coordinator is a pure function of its
declaration: each request reads the state of one clock from a snapshot and
gives the snapshot in which this state is replaced by the next one.  Of a
snapshot only the shared-time state is modelled; `with_entries` leaves the rest
as it is.
-/

namespace Raes.Time

inductive TimeAdvancementMode where
  | realTime
  | dilated
  | stepped
  | eventDriven
  | externallyPaced
  deriving DecidableEq, Repr

inductive TimeResetBehavior where
  | unsupported
  | newSegmentZero
  | newSegmentPreserveValue
  deriving DecidableEq, Repr

inductive TimeReplayBehavior where
  | unsupported
  | restartFromAnchor
  | restoreRecordedAdvances
  deriving DecidableEq, Repr

structure CompiledClock where
  (address timeDomainAddress : CompiledAddress)
  authorityKind : ClockAuthorityKind
  authorityRef : NonEmptyString
  (supportsPause supportsReset supportsJump : Bool)

structure CompiledTimeProgressionPolicy where
  (address clockAddress : CompiledAddress)
  advancementMode : TimeAdvancementMode
  stepTicks : Option ℕ
  resetBehavior : TimeResetBehavior
  replayBehavior : TimeReplayBehavior

/-- What the coordinator reads of the metadata of an admitted declaration.  The
fields that it does not read enter through the digest of the declaration. -/
structure CompiledTimeModel where
  canonicalDigest : String
  clocks : List CompiledClock
  progressionPolicies : List CompiledTimeProgressionPolicy
  clocks_nonempty : clocks ≠ []
  /-- A clock may have at most one progression policy. -/
  policy_unique : (progressionPolicies.map (·.clockAddress)).Nodup

structure TimeCoordinator where
  declarationDigest : String
  clocks : Dict CompiledAddress CompiledClock
  policies : Dict CompiledAddress CompiledTimeProgressionPolicy

def clockByAddress (clocks : List CompiledClock) : Dict CompiledAddress CompiledClock :=
  clocks.foldl (fun byAddress clock => byAddress.set clock.address clock) Dict.empty

def policyByClock (policies : List CompiledTimeProgressionPolicy) :
    Except PyError (Dict CompiledAddress CompiledTimeProgressionPolicy) :=
  policies.foldlM
    (fun byClock policy =>
      if byClock.contains policy.clockAddress then
        .error (.valueError "a clock may have at most one compiled progression policy")
      else .ok (byClock.set policy.clockAddress policy))
    Dict.empty

/-- `TimeCoordinator.__init__`. -/
def TimeCoordinator.new (timeModel : CompiledTimeModel) : Except PyError TimeCoordinator := do
  let policies ← policyByClock timeModel.progressionPolicies
  return ⟨timeModel.canonicalDigest, clockByAddress timeModel.clocks, policies⟩

structure RuntimeSnapshot where
  timeModelState : Option TimeRuntimeState

/-- One exact superdense runtime clock reading. -/
structure ClockReading where
  (segment tick microstep : ℤ)

/-- `_transition`: the resulting state depends on the kind alone. -/
def transition (sequence : ℕ) (kind : ClockTransitionKind) (current : ClockReading)
    (previous : Option ClockReading) : Except PyError ClockTransitionEvent := do
  let previousCoordinate ←
    match previous with
    | none => pure none
    | some previous => some <$> TimeCoordinate.make previous.segment previous.tick previous.microstep
  let resulting ← TimeCoordinate.make current.segment current.tick current.microstep
  return {
    sequence := sequence
    kind := kind
    previous := previousCoordinate
    resulting := resulting
    resultingState := if kind = .pause then .paused else .running }

namespace TimeCoordinator

variable (c : TimeCoordinator) (snapshot : RuntimeSnapshot) (clockAddress : CompiledAddress)

def clock : Except PyError CompiledClock :=
  match c.clocks.get? clockAddress with
  | some clock => .ok clock
  | none => .error (.keyError s!"unknown compiled clock '{clockAddress.val}'")

def context : Except PyError RuntimeClockState := do
  let _ ← c.clock clockAddress
  match snapshot.timeModelState.bind fun state => state.clocks.get? clockAddress with
  | none => .error (.keyError s!"clock '{clockAddress.val}' is not initialized")
  | some context =>
    if context.clockAddress ≠ clockAddress then
      .error (.valueError "runtime time context key disagrees with clock_address")
    else .ok context

def reading : Except PyError ClockReading := do
  let context ← c.context snapshot clockAddress
  return ⟨context.coordinate.segment, context.coordinate.tick, context.coordinate.microstep⟩

def initialContext (clockAddress : CompiledAddress) (clock : CompiledClock) :
    Except PyError RuntimeClockState := do
  let initialTransition ← transition 0 .initialise ⟨0, 0, 0⟩ none
  let context : RuntimeClockState := {
    clockAddress := clockAddress
    timeDomainAddress := clock.timeDomainAddress
    progressionPolicyAddress := (c.policies.get? clockAddress).map (·.address)
    authorityKind := clock.authorityKind
    authorityRef := clock.authorityRef
    state := .running
    coordinate := initialTransition.resulting
    sequence := 0
    history := [initialTransition] }
  context.validateHistory
  return context

/-- `initialize`. -/
def initialise : Except PyError RuntimeSnapshot := do
  refuseIf (snapshot.timeModelState.isSome) (.valueError "shared time model is already initialized")
  let contexts ← c.clocks.entries.foldlM
    (fun contexts entry => do
      return Dict.set contexts entry.1 (← c.initialContext entry.1 entry.2))
    Dict.empty
  let state : TimeRuntimeState := ⟨c.declarationDigest, contexts⟩
  state.validateClockKeys
  return { snapshot with timeModelState := some state }

def replaceContext (context : RuntimeClockState) (kind : ClockTransitionKind)
    (current : ClockReading) (state : ClockLifecycleState) : Except PyError RuntimeSnapshot := do
  let previous ← c.reading snapshot clockAddress
  let event ← transition (context.sequence + 1) kind current (some previous)
  let coordinate ← TimeCoordinate.make current.segment current.tick current.microstep
  let nextClock : RuntimeClockState :=
    { context with
      state := state
      coordinate := coordinate
      sequence := context.sequence + 1
      history := context.history ++ [event] }
  nextClock.validateHistory
  match snapshot.timeModelState with
  | none => .error (.keyError s!"clock '{clockAddress.val}' is not initialized")
  | some timeState =>
    let nextState : TimeRuntimeState :=
      ⟨timeState.declarationDigest, timeState.clocks.set clockAddress nextClock⟩
    nextState.validateClockKeys
    return { snapshot with timeModelState := some nextState }

def policy (message : String) : Except PyError CompiledTimeProgressionPolicy :=
  match c.policies.get? clockAddress with
  | some policy => .ok policy
  | none => .error (.valueError message)

def advance (ticks microstep : ℤ) : Except PyError RuntimeSnapshot := do
  refuseIf (ticks < 0 ∨ microstep < 0) (.valueError "clock advance must be non-negative")
  let context ← c.context snapshot clockAddress
  refuseIf (context.state ≠ .running) (.valueError "a paused clock cannot advance")
  let policy ← c.policy clockAddress "clock advancement requires a compiled progression policy"
  refuseIf (policy.advancementMode = .stepped ∧ policy.stepTicks.map Int.ofNat ≠ some ticks)
    (.valueError "stepped clock advances must equal the declared step_ticks")
  let previous ← c.reading snapshot clockAddress
  refuseIf (ticks = 0 ∧ microstep = 0) (.valueError "clock advance must change tick or microstep")
  let nextMicrostep := if ticks ≠ 0 then microstep else previous.microstep + microstep
  c.replaceContext snapshot clockAddress context .advance
    ⟨previous.segment, previous.tick + ticks, nextMicrostep⟩ .running

def pause : Except PyError RuntimeSnapshot := do
  let clock ← c.clock clockAddress
  refuseIf (clock.supportsPause = false) (.valueError "clock does not support pause")
  let context ← c.context snapshot clockAddress
  refuseIf (context.state ≠ .running) (.valueError "only a running clock may be paused")
  let reading ← c.reading snapshot clockAddress
  c.replaceContext snapshot clockAddress context .pause reading .paused

def resume : Except PyError RuntimeSnapshot := do
  let context ← c.context snapshot clockAddress
  refuseIf (context.state ≠ .paused) (.valueError "only a paused clock may be resumed")
  let reading ← c.reading snapshot clockAddress
  c.replaceContext snapshot clockAddress context .resume reading .running

def jump (tick microstep : ℤ) : Except PyError RuntimeSnapshot := do
  let clock ← c.clock clockAddress
  refuseIf (clock.supportsJump = false) (.valueError "clock does not support jumps")
  let context ← c.context snapshot clockAddress
  let reading ← c.reading snapshot clockAddress
  c.replaceContext snapshot clockAddress context .jump ⟨reading.segment + 1, tick, microstep⟩
    context.state

/-- The behavior that a reset or a replay asks of the policy.  Of the behaviors
only `unsupported` and `new_segment_preserve_value` are told apart, and the
latter is a reset behavior. -/
def requestedBehavior (policy : CompiledTimeProgressionPolicy) (replay : Bool) : TimeResetBehavior :=
  if replay then
    match policy.replayBehavior with
    | .unsupported => .unsupported
    | .restartFromAnchor | .restoreRecordedAdvances => .newSegmentZero
  else policy.resetBehavior

def reset (replay : Bool) : Except PyError RuntimeSnapshot := do
  let clock ← c.clock clockAddress
  refuseIf (clock.supportsReset = false) (.valueError "clock does not support reset")
  let policy ← c.policy clockAddress "clock reset requires a compiled progression policy"
  refuseIf (requestedBehavior policy replay = .unsupported)
    (.valueError "clock policy does not support the requested lifecycle operation")
  let context ← c.context snapshot clockAddress
  let reading ← c.reading snapshot clockAddress
  let preserve := requestedBehavior policy replay = .newSegmentPreserveValue
  c.replaceContext snapshot clockAddress context (if replay then .replay else .reset)
    ⟨reading.segment + 1, if preserve then reading.tick else 0,
      if preserve then reading.microstep else 0⟩ .running

end TimeCoordinator

inductive Request where
  | initialise
  | advance (clockAddress : CompiledAddress) (ticks microstep : ℤ)
  | pause (clockAddress : CompiledAddress)
  | resume (clockAddress : CompiledAddress)
  | jump (clockAddress : CompiledAddress) (tick microstep : ℤ)
  | reset (clockAddress : CompiledAddress) (replay : Bool)
  deriving DecidableEq

def TimeCoordinator.serve (c : TimeCoordinator) (snapshot : RuntimeSnapshot) :
    Request → Except PyError RuntimeSnapshot
  | .initialise => c.initialise snapshot
  | .advance clockAddress ticks microstep => c.advance snapshot clockAddress ticks microstep
  | .pause clockAddress => c.pause snapshot clockAddress
  | .resume clockAddress => c.resume snapshot clockAddress
  | .jump clockAddress tick microstep => c.jump snapshot clockAddress tick microstep
  | .reset clockAddress replay => c.reset snapshot clockAddress replay

end Raes.Time
