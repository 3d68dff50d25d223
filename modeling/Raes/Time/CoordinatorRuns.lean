import Raes.Lib.Stateful
import Raes.Time.Coordinator

/-!
# Runs of the shared-time coordinator

The coordinator writes the next state of a clock and the event that leads to it
from different sources: the state from the operation, the lifecycle state of
the event from the kind of the transition alone.  The two agree for every
operation but a jump of a paused clock, which keeps the clock paused and
records a running one.  The state is then refused, so this request fails.

Every other request that meets its preconditions succeeds, and both validators
accept what it gives.
-/

namespace Raes.Time

def RuntimeSnapshot.clockState (s : RuntimeSnapshot) (clockAddress : CompiledAddress) :
    Option RuntimeClockState :=
  s.timeModelState.bind fun state => state.clocks.get? clockAddress

/-! ## The invariant -/

structure Accepted (c : TimeCoordinator) (state : TimeRuntimeState) : Prop where
  digest : state.declarationDigest = c.declarationDigest
  keys : state.validateClockKeys = .ok ()
  clocks : ∀ a clock, state.clocks.get? a = some clock → clock.validateHistory = .ok ()
  declared : ∀ a, a ∈ state.clocks.keys ↔ a ∈ c.clocks.keys

/-- What holds of every snapshot that a run leads to. -/
def WellFormed (c : TimeCoordinator) (s : RuntimeSnapshot) : Prop :=
  ∀ state, s.timeModelState = some state → Accepted c state

theorem validateClockKeys_eq_ok_iff (state : TimeRuntimeState) :
    state.validateClockKeys = .ok () ↔ state.clocks.entries ≠ [] ∧
      ∀ a clock, state.clocks.get? a = some clock → clock.clockAddress = a := by
  unfold TimeRuntimeState.validateClockKeys
  rw [seq_eq_ok_iff, refuseIf_eq_ok_iff, forM_eq_ok_iff]
  simp only [refuseIf_eq_ok_iff, not_not, Dict.get?_eq_some_iff]
  refine and_congr_right fun _ => ?_
  constructor
  · intro h a clock hmem
    exact (h (a, clock) hmem).symm
  · rintro h ⟨a, clock⟩ hmem
    exact (h a clock hmem).symm

section Contexts

variable {c : TimeCoordinator} {s : RuntimeSnapshot} {a : CompiledAddress}
  {context : RuntimeClockState}

theorem clockState_eq_some_iff : s.clockState a = some context ↔
    ∃ state, s.timeModelState = some state ∧ state.clocks.get? a = some context := by
  unfold RuntimeSnapshot.clockState
  rw [Option.bind_eq_some_iff]

theorem WellFormed.clock (h : WellFormed c s) (hcontext : s.clockState a = some context) :
    context.validateHistory = .ok () ∧ context.clockAddress = a ∧
      ∃ declared, c.clocks.get? a = some declared := by
  obtain ⟨state, hstate, hget⟩ := clockState_eq_some_iff.mp hcontext
  have haccepted := h state hstate
  refine ⟨haccepted.clocks a context hget,
    ((validateClockKeys_eq_ok_iff state).mp haccepted.keys).2 a context hget, ?_⟩
  exact Dict.mem_keys_iff.mp
    ((haccepted.declared a).mp (Dict.mem_keys_iff.mpr ⟨context, hget⟩))

theorem context_eq_ok (h : WellFormed c s) (hcontext : s.clockState a = some context) :
    c.context s a = .ok context := by
  obtain ⟨-, haddress, declared, hdeclared⟩ := h.clock hcontext
  unfold TimeCoordinator.context TimeCoordinator.clock
  unfold RuntimeSnapshot.clockState at hcontext
  rw [hdeclared, hcontext]
  show (if context.clockAddress ≠ a then _ else _) = _
  rw [if_neg (by simp [haddress])]

theorem reading_eq_ok (h : WellFormed c s) (hcontext : s.clockState a = some context) :
    c.reading s a = .ok ⟨context.coordinate.segment, context.coordinate.tick,
      context.coordinate.microstep⟩ := by
  unfold TimeCoordinator.reading
  rw [context_eq_ok h hcontext]
  rfl

end Contexts

/-! ## Replacing the state of a clock -/

def recordedState (kind : ClockTransitionKind) : ClockLifecycleState :=
  if kind = .pause then .paused else .running

def eventTo (context : RuntimeClockState) (kind : ClockTransitionKind) (target : TimeCoordinate) :
    ClockTransitionEvent :=
  ⟨context.sequence + 1, kind, some context.coordinate, target, recordedState kind⟩

def nextClock (context : RuntimeClockState) (kind : ClockTransitionKind) (target : TimeCoordinate)
    (state : ClockLifecycleState) : RuntimeClockState :=
  { context with
    state := state
    coordinate := target
    sequence := context.sequence + 1
    history := context.history ++ [eventTo context kind target] }

def RuntimeSnapshot.setClock (s : RuntimeSnapshot) (a : CompiledAddress)
    (clock : RuntimeClockState) : RuntimeSnapshot :=
  ⟨s.timeModelState.map fun state => { state with clocks := state.clocks.set a clock }⟩

theorem clockState_setClock_self {s : RuntimeSnapshot} {a : CompiledAddress}
    {context : RuntimeClockState} (hcontext : s.clockState a = some context)
    (clock : RuntimeClockState) : (s.setClock a clock).clockState a = some clock := by
  obtain ⟨state, hstate, -⟩ := clockState_eq_some_iff.mp hcontext
  unfold RuntimeSnapshot.setClock
  rw [clockState_eq_some_iff, hstate]
  exact ⟨_, rfl, Dict.get?_set_self _ _ _⟩

theorem clockState_setClock_ne (s : RuntimeSnapshot) {a b : CompiledAddress}
    (clock : RuntimeClockState) (h : b ≠ a) :
    (s.setClock a clock).clockState b = s.clockState b := by
  unfold RuntimeSnapshot.setClock RuntimeSnapshot.clockState
  cases s.timeModelState with
  | none => rfl
  | some state => exact Dict.get?_set_ne state.clocks clock h

section Replace

variable {c : TimeCoordinator} {s s' : RuntimeSnapshot} {a : CompiledAddress}
  {context : RuntimeClockState} {kind : ClockTransitionKind} {target : TimeCoordinate}
  {state : ClockLifecycleState}

theorem transition_eq_ok (previous : TimeCoordinate) (sequence : ℕ) :
    transition sequence kind ⟨target.segment, target.tick, target.microstep⟩
        (some ⟨previous.segment, previous.tick, previous.microstep⟩) =
      .ok ⟨sequence, kind, some previous, target, recordedState kind⟩ := by
  unfold transition
  simp only [TimeCoordinate.make_ofNat]
  rfl

theorem Accepted.setClock {timeState : TimeRuntimeState} (h : Accepted c timeState)
    (hget : timeState.clocks.get? a = some context) {clock : RuntimeClockState}
    (haddress : clock.clockAddress = a) (hvalid : clock.validateHistory = .ok ()) :
    Accepted c { timeState with clocks := timeState.clocks.set a clock } where
  digest := h.digest
  keys := by
    rw [validateClockKeys_eq_ok_iff]
    refine ⟨?_, fun b other hother => ?_⟩
    · intro hempty
      have hself := Dict.get?_set_self timeState.clocks a clock
      rw [Dict.get?_eq_some_iff, hempty] at hself
      cases hself
    · rw [Dict.get?_set] at hother
      split at hother
      · rename_i hb
        rw [← Option.some.inj hother, haddress, hb]
      · exact ((validateClockKeys_eq_ok_iff timeState).mp h.keys).2 b other hother
  clocks b other hother := by
    rw [Dict.get?_set] at hother
    split at hother
    · rw [← Option.some.inj hother]
      exact hvalid
    · exact h.clocks b other hother
  declared b := by
    rw [Dict.mem_keys_set, ← h.declared b]
    constructor
    · rintro (rfl | hmem)
      · exact Dict.mem_keys_iff.mpr ⟨context, hget⟩
      · exact hmem
    · exact Or.inr

/-- A transition that the history validator allows succeeds exactly when the
operation asks for the lifecycle state that the event records. -/
theorem replaceContext_eq_ok_iff (h : WellFormed c s) (hcontext : s.clockState a = some context)
    (htransition : ∀ prior : ClockTransitionEvent, prior.resulting = context.coordinate →
      validateTransition prior (eventTo context kind target) = .ok ()) :
    c.replaceContext s a context kind ⟨target.segment, target.tick, target.microstep⟩ state = .ok s' ↔
      state = recordedState kind ∧ s' = s.setClock a (nextClock context kind target state) := by
  obtain ⟨timeState, hstate, hget⟩ := clockState_eq_some_iff.mp hcontext
  obtain ⟨hvalid, haddress, -⟩ := h.clock hcontext
  have hgrow : (nextClock context kind target state).validateHistory = .ok () ↔
      state = recordedState kind :=
    RuntimeClockState.validateHistory_grow hvalid rfl rfl rfl htransition rfl rfl
  have hbody : c.replaceContext s a context kind
      ⟨target.segment, target.tick, target.microstep⟩ state = (do
        (nextClock context kind target state).validateHistory
        ({ timeState with clocks := timeState.clocks.set a (nextClock context kind target state) } :
          TimeRuntimeState).validateClockKeys
        return s.setClock a (nextClock context kind target state)) := by
    unfold TimeCoordinator.replaceContext RuntimeSnapshot.setClock
    rw [reading_eq_ok h hcontext]
    simp only [bind, Except.bind, transition_eq_ok, TimeCoordinate.make_ofNat, hstate]
    rfl
  rw [hbody, seq_eq_ok_iff, seq_eq_ok_iff, hgrow]
  constructor
  · rintro ⟨hsame, -, hs'⟩
    exact ⟨hsame, (Except.ok.inj hs').symm⟩
  · rintro ⟨hsame, rfl⟩
    have hnext : (nextClock context kind target state).clockAddress = a := haddress
    exact ⟨hsame, ((h timeState hstate).setClock hget hnext (hgrow.mpr hsame)).keys, rfl⟩

theorem WellFormed.setClock (h : WellFormed c s) (hcontext : s.clockState a = some context)
    {clock : RuntimeClockState} (haddress : clock.clockAddress = a)
    (hvalid : clock.validateHistory = .ok ()) : WellFormed c (s.setClock a clock) := by
  obtain ⟨timeState, hstate, hget⟩ := clockState_eq_some_iff.mp hcontext
  intro nextState hnext
  unfold RuntimeSnapshot.setClock at hnext
  rw [hstate] at hnext
  rw [← Option.some.inj hnext]
  exact (h timeState hstate).setClock hget haddress hvalid

theorem validateTimeRuntimeTransition_setClock {events : List ClockTransitionEvent}
    (hcontext : s.clockState a = some context) {clock : RuntimeClockState}
    (hhistory : clock.history = context.history ++ events) :
    validateTimeRuntimeTransition s.timeModelState (s.setClock a clock).timeModelState = .ok () := by
  obtain ⟨timeState, hstate, hget⟩ := clockState_eq_some_iff.mp hcontext
  have hkeys : ∀ b, b ∈ (timeState.clocks.set a clock).keys ↔ b ∈ timeState.clocks.keys := by
    intro b
    rw [Dict.mem_keys_set]
    constructor
    · rintro (rfl | hmem)
      · exact Dict.mem_keys_iff.mpr ⟨context, hget⟩
      · exact hmem
    · exact Or.inr
  unfold RuntimeSnapshot.setClock
  rw [hstate]
  show (do refuseIf _ _; refuseIf _ _; forM timeState.clocks.entries _) = _
  rw [seq_eq_ok_iff, seq_eq_ok_iff, refuseIf_eq_ok_iff, refuseIf_eq_ok_iff,
    forM_eq_ok_iff]
  refine ⟨by simp, ?_, ?_⟩
  · rw [not_not]
    exact ⟨fun b hb => (hkeys b).mpr hb, fun b hb => (hkeys b).mp hb⟩
  · rintro ⟨b, prior⟩ hmem
    have hprior := Dict.get?_eq_some_iff.mpr hmem
    dsimp only
    rw [Dict.get?_set]
    by_cases hb : b = a
    · subst hb
      rw [hget] at hprior
      obtain rfl := Option.some.inj hprior
      rw [if_pos rfl]
      dsimp only
      rw [seq_eq_ok_iff, refuseIf_eq_ok_iff, refuseIf_eq_ok_iff, hhistory]
      simp
    · rw [if_neg hb, hprior]
      dsimp only
      rw [seq_eq_ok_iff, refuseIf_eq_ok_iff, refuseIf_eq_ok_iff]
      simp

end Replace

/-! ## Preconditions and effects -/

def Request.clock? : Request → Option CompiledAddress
  | .initialise => none
  | .advance a _ _ | .pause a | .resume a | .jump a _ _ | .reset a _ => some a

variable (c : TimeCoordinator)

/-- The preconditions of the coordinator: the shared time is not yet initialized,
or the clock is known and initialized, and its declaration, its policy and its
lifecycle state allow the operation.  The target of a jump is a coordinate. -/
def Admissible (s : RuntimeSnapshot) : Request → Prop
  | .initialise => s.timeModelState = none
  | .advance a ticks microstep =>
    0 ≤ ticks ∧ 0 ≤ microstep ∧ ¬ (ticks = 0 ∧ microstep = 0) ∧
      ∃ policy context, c.policies.get? a = some policy ∧
        (policy.advancementMode = .stepped → policy.stepTicks.map Int.ofNat = some ticks) ∧
        s.clockState a = some context ∧ context.state = .running
  | .pause a => ∃ clock context, c.clocks.get? a = some clock ∧ clock.supportsPause = true ∧
      s.clockState a = some context ∧ context.state = .running
  | .resume a => ∃ context, s.clockState a = some context ∧ context.state = .paused
  | .jump a _ microstep => 0 ≤ microstep ∧
      ∃ clock context, c.clocks.get? a = some clock ∧ clock.supportsJump = true ∧
        s.clockState a = some context
  | .reset a replay => ∃ clock policy context, c.clocks.get? a = some clock ∧
      clock.supportsReset = true ∧ c.policies.get? a = some policy ∧
      TimeCoordinator.requestedBehavior policy replay ≠ .unsupported ∧
      s.clockState a = some context

def Moved (context next : RuntimeClockState) : Request → Prop
  | .initialise => True
  | .advance _ _ _ => next.coordinate.segment = context.coordinate.segment ∧
      context.coordinate.Before next.coordinate ∧ next.state = .running
  | .pause _ => next.coordinate = context.coordinate ∧ next.state = .paused
  | .resume _ => next.coordinate = context.coordinate ∧ next.state = .running
  | .jump _ tick microstep => next.coordinate.segment = context.coordinate.segment + 1 ∧
      next.coordinate.tick = tick ∧ (next.coordinate.microstep : ℤ) = microstep ∧
      next.state = context.state
  | .reset a replay => next.coordinate.segment = context.coordinate.segment + 1 ∧
      next.state = .running ∧
      ∀ policy, c.policies.get? a = some policy →
        if TimeCoordinator.requestedBehavior policy replay = .newSegmentPreserveValue then
          next.coordinate.tick = context.coordinate.tick ∧
            next.coordinate.microstep = context.coordinate.microstep
        else next.coordinate.tick = 0 ∧ next.coordinate.microstep = 0

/-- A step from one snapshot to another that both validators accept, and that
does to the clocks what the request asks for. -/
structure SoundStep (c : TimeCoordinator) (s : RuntimeSnapshot) (request : Request)
    (s' : RuntimeSnapshot) : Prop where
  clocksValid : ∀ a clock, s'.clockState a = some clock → clock.validateHistory = .ok ()
  stateValid : ∃ state, s'.timeModelState = some state ∧ state.validateClockKeys = .ok ()
  transitionValid : validateTimeRuntimeTransition s.timeModelState s'.timeModelState = .ok ()
  others : ∀ b, request.clock? ≠ some b → request ≠ .initialise → s'.clockState b = s.clockState b
  moved : ∀ a, request.clock? = some a → ∃ context next, s.clockState a = some context ∧
    s'.clockState a = some next ∧ Moved c context next request
  initialised : request = .initialise → ∀ a, a ∈ c.clocks.keys →
    ∃ clock, s'.clockState a = some clock ∧ clock.coordinate = ⟨0, 0, 0⟩ ∧ clock.state = .running

def ServedSoundly (s : RuntimeSnapshot) (request : Request) : Prop :=
  ∃ s', c.serve s request = .ok s' ∧ SoundStep c s request s'

def PausedJump (s : RuntimeSnapshot) : Request → Prop
  | .jump a _ _ => ∃ context, s.clockState a = some context ∧ context.state = .paused
  | _ => False

section Steps

variable {c : TimeCoordinator} {s s' : RuntimeSnapshot} {a : CompiledAddress}
  {context : RuntimeClockState} {kind : ClockTransitionKind} {target : TimeCoordinate}
  {request : Request}

theorem soundStep_setClock (h : WellFormed c s) (hcontext : s.clockState a = some context)
    (htransition : ∀ prior : ClockTransitionEvent, prior.resulting = context.coordinate →
      validateTransition prior (eventTo context kind target) = .ok ())
    (hclock : request.clock? = some a)
    (hmoved : Moved c context (nextClock context kind target (recordedState kind)) request) :
    SoundStep c s request (s.setClock a (nextClock context kind target (recordedState kind))) ∧
      WellFormed c (s.setClock a (nextClock context kind target (recordedState kind))) := by
  obtain ⟨hvalid, haddress, -⟩ := h.clock hcontext
  have hgrow : (nextClock context kind target (recordedState kind)).validateHistory = .ok () :=
    (RuntimeClockState.validateHistory_grow hvalid rfl rfl rfl htransition rfl rfl).mpr rfl
  have hnext : (nextClock context kind target (recordedState kind)).clockAddress = a := haddress
  have hformed := h.setClock hcontext hnext hgrow
  obtain ⟨timeState, hstate, hget⟩ := clockState_eq_some_iff.mp hcontext
  refine ⟨⟨fun b clock hb => (hformed.clock hb).1, ?_, ?_, ?_, ?_, ?_⟩, hformed⟩
  · refine ⟨_, by rw [RuntimeSnapshot.setClock, hstate]; rfl, ?_⟩
    exact ((h timeState hstate).setClock hget hnext hgrow).keys
  · exact validateTimeRuntimeTransition_setClock hcontext rfl
  · intro b hb _
    rw [hclock] at hb
    exact clockState_setClock_ne s _ fun heq => hb (congrArg some heq.symm)
  · intro b hb
    rw [hclock] at hb
    obtain rfl := Option.some.inj hb
    exact ⟨context, _, hcontext, clockState_setClock_self hcontext _, hmoved⟩
  · intro hinitial
    rw [hinitial] at hclock
    cases hclock

def Serves (c : TimeCoordinator) (s : RuntimeSnapshot) (request : Request) : Prop :=
  ∃ s', c.serve s request = .ok s' ∧ SoundStep c s request s' ∧ WellFormed c s'

theorem serves_of_replace (kind : ClockTransitionKind) (target : TimeCoordinate)
    (h : WellFormed c s) (hcontext : s.clockState a = some context)
    (hserve : c.serve s request = c.replaceContext s a context kind
      ⟨target.segment, target.tick, target.microstep⟩ (recordedState kind))
    (htransition : ∀ prior : ClockTransitionEvent, prior.resulting = context.coordinate →
      validateTransition prior (eventTo context kind target) = .ok ())
    (hclock : request.clock? = some a)
    (hmoved : Moved c context (nextClock context kind target (recordedState kind)) request) :
    Serves c s request := by
  refine ⟨_, ?_, soundStep_setClock h hcontext htransition hclock hmoved⟩
  rw [hserve]
  exact (replaceContext_eq_ok_iff h hcontext htransition).mpr ⟨rfl, rfl⟩

theorem clock_eq_ok {clock : CompiledClock} (h : c.clocks.get? a = some clock) :
    c.clock a = .ok clock := by
  unfold TimeCoordinator.clock
  rw [h]

theorem policy_eq_ok {policy : CompiledTimeProgressionPolicy} {message : String}
    (h : c.policies.get? a = some policy) : c.policy a message = .ok policy := by
  unfold TimeCoordinator.policy
  rw [h]

theorem refuseIf_eq_ok {condition : Prop} [Decidable condition] {error : PyError}
    (h : ¬ condition) : refuseIf condition error = .ok () :=
  (refuseIf_eq_ok_iff condition error ()).mpr h

theorem validateTransition_advance (hsegment : target.segment = context.coordinate.segment)
    (hbefore : context.coordinate.Before target) (prior : ClockTransitionEvent)
    (hprior : prior.resulting = context.coordinate) :
    validateTransition prior (eventTo context .advance target) = .ok () := by
  show (do refuseIf _ _; refuseIf _ _) = _
  rw [seq_eq_ok_iff, refuseIf_eq_ok_iff, refuseIf_eq_ok_iff, hprior, not_not, not_not]
  exact ⟨hsegment, hbefore⟩

theorem validateTransition_keep (hkind : kind = .pause ∨ kind = .resume)
    (prior : ClockTransitionEvent) (hprior : prior.resulting = context.coordinate) :
    validateTransition prior (eventTo context kind context.coordinate) = .ok () := by
  rcases hkind with rfl | rfl <;>
  · show refuseIf (context.coordinate ≠ prior.resulting) _ = _
    exact refuseIf_eq_ok (by simp [hprior])

theorem validateTransition_segment (hkind : kind = .jump ∨ kind = .reset ∨ kind = .replay)
    (hsegment : target.segment = context.coordinate.segment + 1) (prior : ClockTransitionEvent)
    (hprior : prior.resulting = context.coordinate) :
    validateTransition prior (eventTo context kind target) = .ok () := by
  rcases hkind with rfl | rfl | rfl <;>
  · show refuseIf (target.segment ≠ prior.resulting.segment + 1) _ = _
    exact refuseIf_eq_ok (by simp [hprior, hsegment])

theorem serves_advance {ticks microstep : ℤ} (h : WellFormed c s)
    (hadmissible : Admissible c s (.advance a ticks microstep)) :
    Serves c s (.advance a ticks microstep) := by
  obtain ⟨hticks, hmicro, hmoves, policy, context, hpolicy, hstep, hcontext, hrunning⟩ := hadmissible
  -- The microstep starts again at a new tick and grows within one.
  let target : TimeCoordinate := ⟨context.coordinate.segment, context.coordinate.tick + ticks,
    if ticks ≠ 0 then microstep.toNat else context.coordinate.microstep + microstep.toNat⟩
  have hbefore : context.coordinate.Before target := by
    by_cases hzero : ticks = 0
    · refine Or.inr ⟨?_, ?_⟩
      · show context.coordinate.tick = context.coordinate.tick + ticks
        omega
      · show context.coordinate.microstep < if ticks ≠ 0 then _ else _
        rw [if_neg (by simpa using hzero)]
        have hpositive : microstep ≠ 0 := fun hm => hmoves ⟨hzero, hm⟩
        omega
    · refine Or.inl ?_
      show context.coordinate.tick < context.coordinate.tick + ticks
      omega
  have hmicrostep : (target.microstep : ℤ) =
      if ticks ≠ 0 then microstep else context.coordinate.microstep + microstep := by
    show ((if ticks ≠ 0 then microstep.toNat
      else context.coordinate.microstep + microstep.toNat : ℕ) : ℤ) = _
    split <;> omega
  refine serves_of_replace .advance target h hcontext ?_
    (validateTransition_advance rfl hbefore) rfl ⟨rfl, hbefore, rfl⟩
  show c.advance s a ticks microstep = _
  unfold TimeCoordinator.advance
  rw [refuseIf_eq_ok (by omega), context_eq_ok h hcontext]
  simp only [bind, Except.bind]
  rw [refuseIf_eq_ok (by simp [hrunning]), policy_eq_ok hpolicy]
  simp only []
  rw [refuseIf_eq_ok (by rintro ⟨hmode, hne⟩; exact hne (hstep hmode)), reading_eq_ok h hcontext]
  simp only []
  rw [refuseIf_eq_ok hmoves, hmicrostep]
  rfl

theorem serves_pause (h : WellFormed c s) (hadmissible : Admissible c s (.pause a)) :
    Serves c s (.pause a) := by
  obtain ⟨clock, context, hdeclared, hsupports, hcontext, hrunning⟩ := hadmissible
  refine serves_of_replace .pause context.coordinate h hcontext ?_
    (validateTransition_keep (Or.inl rfl)) rfl ⟨rfl, rfl⟩
  show c.pause s a = _
  unfold TimeCoordinator.pause
  rw [clock_eq_ok hdeclared]
  simp only [bind, Except.bind]
  rw [refuseIf_eq_ok (by simp [hsupports]), context_eq_ok h hcontext]
  simp only []
  rw [refuseIf_eq_ok (by simp [hrunning]), reading_eq_ok h hcontext]
  rfl

theorem serves_resume (h : WellFormed c s) (hadmissible : Admissible c s (.resume a)) :
    Serves c s (.resume a) := by
  obtain ⟨context, hcontext, hpaused⟩ := hadmissible
  refine serves_of_replace .resume context.coordinate h hcontext ?_
    (validateTransition_keep (Or.inr rfl)) rfl ⟨rfl, rfl⟩
  show c.resume s a = _
  unfold TimeCoordinator.resume
  rw [context_eq_ok h hcontext]
  simp only [bind, Except.bind]
  rw [refuseIf_eq_ok (by simp [hpaused]), reading_eq_ok h hcontext]
  rfl

variable {tick microstep : ℤ}

theorem jump_eq {clock : CompiledClock} (h : WellFormed c s)
    (hmicro : 0 ≤ microstep) (hdeclared : c.clocks.get? a = some clock)
    (hsupports : clock.supportsJump = true) (hcontext : s.clockState a = some context) :
    c.jump s a tick microstep = c.replaceContext s a context .jump
      ⟨(context.coordinate.segment + 1 : ℕ), tick, microstep.toNat⟩ context.state := by
  unfold TimeCoordinator.jump
  rw [clock_eq_ok hdeclared]
  simp only [bind, Except.bind]
  rw [refuseIf_eq_ok (by simp [hsupports]), context_eq_ok h hcontext]
  simp only [reading_eq_ok h hcontext]
  rw [Int.toNat_of_nonneg hmicro]
  rfl

theorem serves_jump (h : WellFormed c s) (hadmissible : Admissible c s (.jump a tick microstep))
    (hrunning : ¬ PausedJump s (.jump a tick microstep)) : Serves c s (.jump a tick microstep) := by
  obtain ⟨hmicro, clock, context, hdeclared, hsupports, hcontext⟩ := hadmissible
  have hstate : context.state = .running := by
    cases hstate : context.state with
    | running => rfl
    | paused => exact absurd ⟨context, hcontext, hstate⟩ hrunning
  refine serves_of_replace .jump ⟨context.coordinate.segment + 1, tick, microstep.toNat⟩ h
    hcontext ?_
    (validateTransition_segment (Or.inl rfl) rfl) rfl
    ⟨rfl, rfl, Int.toNat_of_nonneg hmicro, hstate.symm⟩
  show c.jump s a tick microstep = _
  rw [jump_eq h hmicro hdeclared hsupports hcontext, hstate]
  rfl

theorem jump_paused (h : WellFormed c s) (hadmissible : Admissible c s (.jump a tick microstep))
    (hpaused : PausedJump s (.jump a tick microstep)) (s' : RuntimeSnapshot) :
    c.serve s (.jump a tick microstep) ≠ .ok s' := by
  obtain ⟨hmicro, clock, context, hdeclared, hsupports, hcontext⟩ := hadmissible
  obtain ⟨context', hcontext', hstate⟩ := hpaused
  rw [hcontext] at hcontext'
  obtain rfl := Option.some.inj hcontext'
  intro hserve
  have hjump : c.jump s a tick microstep = .ok s' := hserve
  rw [jump_eq h hmicro hdeclared hsupports hcontext] at hjump
  have htransition : ∀ prior : ClockTransitionEvent, prior.resulting = context.coordinate →
      validateTransition prior (eventTo context .jump
        ⟨context.coordinate.segment + 1, tick, microstep.toNat⟩) = .ok () :=
    validateTransition_segment (Or.inl rfl) rfl
  have hrecorded := ((replaceContext_eq_ok_iff h hcontext htransition).mp hjump).1
  rw [hstate] at hrecorded
  cases hrecorded

theorem serves_reset {replay : Bool} (h : WellFormed c s)
    (hadmissible : Admissible c s (.reset a replay)) : Serves c s (.reset a replay) := by
  obtain ⟨clock, policy, context, hdeclared, hsupports, hpolicy, hbehavior, hcontext⟩ := hadmissible
  let preserve : Prop := TimeCoordinator.requestedBehavior policy replay = .newSegmentPreserveValue
  let target : TimeCoordinate := ⟨context.coordinate.segment + 1,
    if preserve then context.coordinate.tick else 0,
    if preserve then context.coordinate.microstep else 0⟩
  refine serves_of_replace (if replay then .replay else .reset) target h
    hcontext ?_ (validateTransition_segment ?_ rfl) rfl ⟨rfl, ?_, ?_⟩
  · show c.reset s a replay = _
    unfold TimeCoordinator.reset
    rw [clock_eq_ok hdeclared]
    simp only [bind, Except.bind]
    rw [refuseIf_eq_ok (by simp [hsupports]), policy_eq_ok hpolicy]
    simp only []
    rw [refuseIf_eq_ok hbehavior]
    simp only [context_eq_ok h hcontext, reading_eq_ok h hcontext]
    have hrecorded : recordedState (if replay then .replay else .reset) = .running := by
      cases replay <;> rfl
    have hmicrostep : (target.microstep : ℤ) =
        if preserve then (context.coordinate.microstep : ℤ) else 0 := by
      show ((if preserve then context.coordinate.microstep else 0 : ℕ) : ℤ) = _
      split <;> rfl
    rw [hrecorded, hmicrostep]
    rfl
  · cases replay with
    | false => exact Or.inr (Or.inl rfl)
    | true => exact Or.inr (Or.inr rfl)
  · cases replay <;> rfl
  · intro policy' hpolicy'
    rw [hpolicy] at hpolicy'
    obtain rfl := Option.some.inj hpolicy'
    by_cases hpreserve : preserve
    · rw [if_pos hpreserve]
      exact ⟨if_pos hpreserve, if_pos hpreserve⟩
    · rw [if_neg hpreserve]
      exact ⟨if_neg hpreserve, if_neg hpreserve⟩

/-! ## Initialization -/

def firstClock (c : TimeCoordinator) (a : CompiledAddress) (clock : CompiledClock) :
    RuntimeClockState :=
  { clockAddress := a
    timeDomainAddress := clock.timeDomainAddress
    progressionPolicyAddress := (c.policies.get? a).map (·.address)
    authorityKind := clock.authorityKind
    authorityRef := clock.authorityRef
    state := .running
    coordinate := ⟨0, 0, 0⟩
    sequence := 0
    history := [⟨0, .initialise, none, ⟨0, 0, 0⟩, .running⟩] }

theorem firstClock_valid (clock : CompiledClock) :
    (firstClock c a clock).validateHistory = .ok () := by
  rw [RuntimeClockState.validateHistory_eq_ok_iff]
  exact ⟨_, [], _, rfl, rfl, rfl, by rfl, rfl, rfl, rfl, rfl⟩

theorem initialContext_eq_ok (clock : CompiledClock) :
    c.initialContext a clock = .ok (firstClock c a clock) := by
  have hvalid := firstClock_valid (c := c) (a := a) clock
  unfold TimeCoordinator.initialContext
  have htransition : transition 0 .initialise ⟨0, 0, 0⟩ none =
      .ok ⟨0, .initialise, none, ⟨0, 0, 0⟩, .running⟩ := by rfl
  rw [htransition]
  show (do (firstClock c a clock).validateHistory; Except.ok (firstClock c a clock)) = _
  rw [hvalid]
  rfl

theorem foldlM_initialContext (entries : List (CompiledAddress × CompiledClock))
    (contexts : Dict CompiledAddress RuntimeClockState) :
    entries.foldlM (fun contexts entry => do
      return Dict.set contexts entry.1 (← c.initialContext entry.1 entry.2)) contexts =
    Except.ok (entries.foldl
      (fun contexts entry => contexts.set entry.1 (firstClock c entry.1 entry.2)) contexts) := by
  induction entries generalizing contexts with
  | nil => rfl
  | cons entry rest ih =>
    rw [List.foldlM_cons, initialContext_eq_ok]
    exact ih _

def firstClocks (c : TimeCoordinator) : Dict CompiledAddress RuntimeClockState :=
  c.clocks.entries.foldl
    (fun contexts entry => contexts.set entry.1 (firstClock c entry.1 entry.2)) Dict.empty

theorem get?_firstClocks (a : CompiledAddress) :
    (firstClocks c).get? a = (c.clocks.get? a).map (firstClock c a) := by
  unfold firstClocks
  rw [Dict.get?_foldl_set (fun a clock => firstClock c a clock) _ _ c.clocks.nodup]
  rw [show c.clocks.entries.lookup a = c.clocks.get? a from rfl]
  cases c.clocks.get? a <;> rfl

section

variable (hclocks : c.clocks.entries ≠ [])
include hclocks

theorem accepted_firstClocks : Accepted c ⟨c.declarationDigest, firstClocks c⟩ where
  digest := rfl
  keys := by
    rw [validateClockKeys_eq_ok_iff]
    constructor
    · intro hempty
      -- A declared clock has a first state, which an empty table does not hold.
      obtain ⟨⟨a, clock⟩, hmem⟩ := List.exists_mem_of_ne_nil _ hclocks
      have hfirst := get?_firstClocks (c := c) a
      rw [Dict.get?_eq_some_iff.mpr hmem, Option.map_some,
        Dict.get?_eq_some_iff, hempty] at hfirst
      cases hfirst
    · intro a clock hget
      rw [get?_firstClocks] at hget
      obtain ⟨declared, -, rfl⟩ := Option.map_eq_some_iff.mp hget
      rfl
  clocks a clock hget := by
    rw [get?_firstClocks] at hget
    obtain ⟨declared, -, rfl⟩ := Option.map_eq_some_iff.mp hget
    exact firstClock_valid declared
  declared a := by
    rw [Dict.mem_keys_iff, Dict.mem_keys_iff, get?_firstClocks]
    cases c.clocks.get? a <;> simp

theorem serves_initialise (hadmissible : Admissible c s .initialise) : Serves c s .initialise := by
  have hnone : s.timeModelState = none := hadmissible
  have haccepted := accepted_firstClocks hclocks
  have hformed : WellFormed c ⟨some ⟨c.declarationDigest, firstClocks c⟩⟩ := by
    intro state hstate
    rw [← Option.some.inj hstate]
    exact haccepted
  refine ⟨⟨some ⟨c.declarationDigest, firstClocks c⟩⟩, ?_, ⟨?_, ?_, ?_, ?_, ?_, ?_⟩, hformed⟩
  · show c.initialise s = _
    unfold TimeCoordinator.initialise
    rw [refuseIf_eq_ok (by simp [hnone]), foldlM_initialContext]
    have hkeys := haccepted.keys
    unfold firstClocks at hkeys
    simp only [bind, Except.bind, hkeys]
    rfl
  · intro a clock hclock
    exact (hformed.clock hclock).1
  · exact ⟨_, rfl, haccepted.keys⟩
  · rw [hnone]
    rfl
  · intro _ _ hrequest
    exact absurd rfl hrequest
  · intro a hclock
    cases hclock
  · intro _ a hdeclared
    obtain ⟨clock, hclock⟩ := Dict.mem_keys_iff.mp hdeclared
    refine ⟨firstClock c a clock, ?_, rfl, rfl⟩
    show (firstClocks c).get? a = _
    rw [get?_firstClocks, hclock]
    rfl

theorem serves_of_admissible (h : WellFormed c s)
    (hadmissible : Admissible c s request) (hjump : ¬ PausedJump s request) :
    Serves c s request := by
  cases request with
  | initialise => exact serves_initialise hclocks hadmissible
  | advance a ticks microstep => exact serves_advance h hadmissible
  | pause a => exact serves_pause h hadmissible
  | resume a => exact serves_resume h hadmissible
  | jump a tick microstep => exact serves_jump h hadmissible hjump
  | reset a replay => exact serves_reset h hadmissible

theorem servedSoundly_iff (h : WellFormed c s) (hadmissible : Admissible c s request) :
    ServedSoundly c s request ↔ ¬ PausedJump s request := by
  constructor
  · rintro ⟨s', hserve, -⟩ hpaused
    cases request with
    | jump a tick microstep => exact jump_paused h hadmissible hpaused s' hserve
    | _ => exact hpaused
  · intro hjump
    obtain ⟨s', hserve, hsound, -⟩ := serves_of_admissible hclocks h hadmissible hjump
    exact ⟨s', hserve, hsound⟩

end

end Steps

/-! ## Runs -/

def TimeCoordinator.step (c : TimeCoordinator) (s : RuntimeSnapshot) (request : Request) :
    RuntimeSnapshot :=
  match c.serve s request with
  | .ok s' => s'
  | .error _ => s

theorem WellFormed.step {c : TimeCoordinator} {s : RuntimeSnapshot} {request : Request}
    (hclocks : c.clocks.entries ≠ []) (h : WellFormed c s) (hadmissible : Admissible c s request) :
    WellFormed c (c.step s request) := by
  unfold TimeCoordinator.step
  by_cases hjump : PausedJump s request
  · cases request with
    | jump a tick microstep =>
      cases hserve : c.serve s (.jump a tick microstep) with
      | ok s' => exact absurd hserve (jump_paused h hadmissible hjump s')
      | error e => exact h
    | _ => exact hjump.elim
  · obtain ⟨s', hserve, -, hformed⟩ := serves_of_admissible hclocks h hadmissible hjump
    rw [hserve]
    exact hformed

theorem clocks_nonempty_of_new {timeModel : CompiledTimeModel} {c : TimeCoordinator}
    (h : TimeCoordinator.new timeModel = .ok c) : c.clocks.entries ≠ [] := by
  unfold TimeCoordinator.new at h
  rw [bind_eq_ok_iff] at h
  obtain ⟨policies, -, h⟩ := h
  obtain rfl := Except.ok.inj h
  obtain ⟨clock, hclock⟩ := List.exists_mem_of_ne_nil _ timeModel.clocks_nonempty
  have hkeys : ∀ (clocks : List CompiledClock) (byAddress : Dict CompiledAddress CompiledClock),
      clock ∈ clocks ∨ clock.address ∈ byAddress.keys → clock.address ∈ (clocks.foldl
        (fun byAddress clock => byAddress.set clock.address clock) byAddress).keys := by
    intro clocks
    induction clocks with
    | nil => simp
    | cons first rest ih =>
      intro byAddress hmem
      refine ih _ ?_
      rw [Dict.mem_keys_set]
      rcases hmem with hmem | hmem
      · rcases List.mem_cons.mp hmem with rfl | hmem
        · exact Or.inr (Or.inl rfl)
        · exact Or.inl hmem
      · exact Or.inr (Or.inr hmem)
  intro hempty
  have hmem := hkeys timeModel.clocks Dict.empty (Or.inl hclock)
  unfold clockByAddress at hempty
  unfold Dict.keys at hmem
  rw [hempty] at hmem
  cases hmem

/-- A coordinator serves every request of a run soundly exactly when no request
of the run is a jump of a clock that is paused. -/
theorem coordinator_sound_iff (timeModel : CompiledTimeModel) (c : TimeCoordinator)
    (requests : List Request) (hc : TimeCoordinator.new timeModel = .ok c)
    (hadmissible : Run.Along c.step (Admissible c) ⟨none⟩ requests) :
    Run.Along c.step (ServedSoundly c) ⟨none⟩ requests ↔
      Run.Along c.step (fun s request => ¬ PausedJump s request) ⟨none⟩ requests := by
  have hclocks := clocks_nonempty_of_new hc
  refine Run.along_iff (I := WellFormed c) (fun s request h hadm => h.step hclocks hadm)
    (fun s request h hadm => servedSoundly_iff hclocks h hadm) ?_ hadmissible
  intro state hstate
  cases hstate

/-! ## Accepted requests -/

section Accepted

variable {c : TimeCoordinator} {s s' : RuntimeSnapshot} {a : CompiledAddress} {request : Request}

theorem clockState_of_context {context : RuntimeClockState}
    (h : c.context s a = .ok context) : s.clockState a = some context := by
  rw [TimeCoordinator.context, bind_eq_ok_iff] at h
  obtain ⟨_, -, h⟩ := h
  unfold RuntimeSnapshot.clockState
  split at h
  · cases h
  · rename_i found hfound
    split at h
    · cases h
    · rw [hfound, Except.ok.inj h]

theorem get?_of_clock {clock : CompiledClock} (h : c.clock a = .ok clock) :
    c.clocks.get? a = some clock := by
  unfold TimeCoordinator.clock at h
  split at h
  · rename_i found hfound
    rw [hfound, Except.ok.inj h]
  · cases h

theorem get?_of_policy {policy : CompiledTimeProgressionPolicy} {message : String}
    (h : c.policy a message = .ok policy) : c.policies.get? a = some policy := by
  unfold TimeCoordinator.policy at h
  split at h
  · rename_i found hfound
    rw [hfound, Except.ok.inj h]
  · cases h

theorem microstep_of_replaceContext {context : RuntimeClockState} {kind : ClockTransitionKind}
    {current : ClockReading} {state : ClockLifecycleState}
    (h : c.replaceContext s a context kind current state = .ok s') : 0 ≤ current.microstep := by
  simp only [TimeCoordinator.replaceContext, bind_eq_ok_iff, TimeCoordinate.make,
    refuseIf_eq_ok_iff] at h
  obtain ⟨_, -, _, -, _, ⟨_, -, _, hmicro, -⟩, -⟩ := h
  exact Int.not_lt.mp hmicro

theorem admissible_of_serve (h : c.serve s request = .ok s') : Admissible c s request := by
  cases request with
  | initialise =>
    rw [TimeCoordinator.serve, TimeCoordinator.initialise, seq_eq_ok_iff, refuseIf_eq_ok_iff] at h
    exact Option.not_isSome_iff_eq_none.mp h.1
  | advance a ticks microstep =>
    simp only [TimeCoordinator.serve, TimeCoordinator.advance, bind_eq_ok_iff,
      refuseIf_eq_ok_iff] at h
    obtain ⟨_, hsign, context, hcontext, _, hrunning, policy, hpolicy, _, hstepped, _, -, _,
      hzero, -⟩ := h
    rw [not_or, Int.not_lt, Int.not_lt] at hsign
    refine ⟨hsign.1, hsign.2, hzero, policy, context, get?_of_policy hpolicy, ?_,
      clockState_of_context hcontext, not_ne_iff.mp hrunning⟩
    exact fun hmode => not_ne_iff.mp fun hne => hstepped ⟨hmode, hne⟩
  | pause a =>
    simp only [TimeCoordinator.serve, TimeCoordinator.pause, bind_eq_ok_iff,
      refuseIf_eq_ok_iff] at h
    obtain ⟨clock, hclock, _, hsupports, context, hcontext, _, hrunning, -⟩ := h
    exact ⟨clock, context, get?_of_clock hclock, Bool.not_eq_false _ ▸ hsupports,
      clockState_of_context hcontext, not_ne_iff.mp hrunning⟩
  | resume a =>
    simp only [TimeCoordinator.serve, TimeCoordinator.resume, bind_eq_ok_iff,
      refuseIf_eq_ok_iff] at h
    obtain ⟨context, hcontext, _, hpaused, -⟩ := h
    exact ⟨context, clockState_of_context hcontext, not_ne_iff.mp hpaused⟩
  | jump a tick microstep =>
    simp only [TimeCoordinator.serve, TimeCoordinator.jump, bind_eq_ok_iff,
      refuseIf_eq_ok_iff] at h
    obtain ⟨clock, hclock, _, hsupports, context, hcontext, _, -, hreplace⟩ := h
    exact ⟨microstep_of_replaceContext hreplace, clock, context, get?_of_clock hclock,
      Bool.not_eq_false _ ▸ hsupports, clockState_of_context hcontext⟩
  | reset a replay =>
    simp only [TimeCoordinator.serve, TimeCoordinator.reset, bind_eq_ok_iff,
      refuseIf_eq_ok_iff] at h
    obtain ⟨clock, hclock, _, hsupports, policy, hpolicy, _, hbehavior, context, hcontext, -⟩ := h
    exact ⟨clock, policy, context, get?_of_clock hclock, Bool.not_eq_false _ ▸ hsupports,
      get?_of_policy hpolicy, hbehavior, clockState_of_context hcontext⟩

variable (hclocks : c.clocks.entries ≠ [])
include hclocks

theorem WellFormed.step_any (h : WellFormed c s) : WellFormed c (c.step s request) := by
  cases hserve : c.serve s request with
  | ok s' => exact h.step hclocks (admissible_of_serve hserve)
  | error e =>
    rw [TimeCoordinator.step, hserve]
    exact h

theorem serve_eq_ok_cases (h : WellFormed c s) :
    ((∃ s', c.serve s request = .ok s') ↔ Admissible c s request ∧ ¬ PausedJump s request) ∧
      ∀ s', c.serve s request = .ok s' → SoundStep c s request s' := by
  have hsound : Admissible c s request → ¬ PausedJump s request → ServedSoundly c s request :=
    fun hadmissible => (servedSoundly_iff hclocks h hadmissible).mpr
  have hnotPaused : ∀ s', c.serve s request = .ok s' → ¬ PausedJump s request := by
    intro s' hserve hpaused
    cases request with
    | jump a tick microstep => exact jump_paused h (admissible_of_serve hserve) hpaused s' hserve
    | _ => exact hpaused
  refine ⟨⟨?_, ?_⟩, ?_⟩
  · rintro ⟨s', hserve⟩
    exact ⟨admissible_of_serve hserve, hnotPaused s' hserve⟩
  · rintro ⟨hadmissible, hjump⟩
    obtain ⟨s', hserve, -⟩ := hsound hadmissible hjump
    exact ⟨s', hserve⟩
  · intro s' hserve
    obtain ⟨s'', hserve', hstep⟩ := hsound (admissible_of_serve hserve) (hnotPaused s' hserve)
    rw [hserve] at hserve'
    rwa [Except.ok.inj hserve']

end Accepted

/-- Whatever was requested of a coordinator before, it accepts the requests that meet their
preconditions and are no jump of a paused clock, and what it accepts is sound. -/
theorem accepted_requests_exact (timeModel : CompiledTimeModel) (c : TimeCoordinator)
    (requests : List Request) (request : Request) (hc : TimeCoordinator.new timeModel = .ok c) :
    ((∃ s', c.serve (Run.run c.step ⟨none⟩ requests) request = .ok s') ↔
        Admissible c (Run.run c.step ⟨none⟩ requests) request ∧
          ¬ PausedJump (Run.run c.step ⟨none⟩ requests) request) ∧
      ∀ s', c.serve (Run.run c.step ⟨none⟩ requests) request = .ok s' →
        SoundStep c (Run.run c.step ⟨none⟩ requests) request s' := by
  have hclocks := clocks_nonempty_of_new hc
  have hstart : WellFormed c ⟨none⟩ := by
    intro state hstate
    cases hstate
  exact serve_eq_ok_cases hclocks
    (Run.run_invariant (I := WellFormed c) (fun s request h => h.step_any hclocks) _ requests hstart)

/-! ## A clock that pauses and jumps -/

def sampleAddress : CompiledAddress := ⟨"time.clock", by decide⟩

def sampleTimeModel : CompiledTimeModel where
  canonicalDigest := "sha256:0"
  clocks := [⟨sampleAddress, ⟨"time.domain", by decide⟩, .runtime, ⟨"runtime", by decide⟩, true, true,
    true⟩]
  progressionPolicies := [⟨⟨"time.policy", by decide⟩, sampleAddress, .eventDriven, none,
    .newSegmentZero, .restartFromAnchor⟩]
  clocks_nonempty := by simp
  policy_unique := by simp

def sampleCoordinator : TimeCoordinator where
  declarationDigest := "sha256:0"
  clocks := clockByAddress sampleTimeModel.clocks
  policies := Dict.empty.set sampleAddress ⟨⟨"time.policy", by decide⟩, sampleAddress, .eventDriven,
    none, .newSegmentZero, .restartFromAnchor⟩

theorem coordinator_sound_iff_sample :
    Run.Along sampleCoordinator.step (ServedSoundly sampleCoordinator) ⟨none⟩
        [.initialise, .advance sampleAddress 5 0, .jump sampleAddress 2 1, .pause sampleAddress] ↔
      Run.Along sampleCoordinator.step (fun s request => ¬ PausedJump s request) ⟨none⟩
        [.initialise, .advance sampleAddress 5 0, .jump sampleAddress 2 1, .pause sampleAddress] :=
  coordinator_sound_iff sampleTimeModel sampleCoordinator
    [.initialise, .advance sampleAddress 5 0, .jump sampleAddress 2 1, .pause sampleAddress] rfl
    ⟨rfl, ⟨by decide, by decide, by decide, _, _, rfl, nofun, rfl, rfl⟩,
      ⟨by decide, _, _, rfl, rfl, rfl⟩, ⟨_, _, rfl, rfl, rfl, rfl⟩, trivial⟩

theorem accepted_requests_exact_sample :
    SoundStep sampleCoordinator ⟨none⟩ .initialise
      (sampleCoordinator.step ⟨none⟩ .initialise) :=
  (accepted_requests_exact sampleTimeModel sampleCoordinator [] .initialise rfl).2 _ rfl

/-- A paused clock that supports jumps cannot jump: the requests are admissible,
and the last one fails. -/
theorem coordinator_not_sound :
    Run.Along sampleCoordinator.step (Admissible sampleCoordinator) ⟨none⟩
        [.initialise, .pause sampleAddress, .jump sampleAddress 2 0] ∧
      ¬ Run.Along sampleCoordinator.step (ServedSoundly sampleCoordinator) ⟨none⟩
        [.initialise, .pause sampleAddress, .jump sampleAddress 2 0] := by
  refine ⟨⟨rfl, ⟨_, _, rfl, rfl, rfl, rfl⟩, ⟨by decide, _, _, rfl, rfl, rfl⟩, trivial⟩, ?_⟩
  rintro ⟨-, -, ⟨s', hserve, -⟩, -⟩
  have hfails : (sampleCoordinator.serve (sampleCoordinator.step (sampleCoordinator.step ⟨none⟩
      .initialise) (.pause sampleAddress)) (.jump sampleAddress 2 0)).toBool = false := by
    decide +kernel
  rw [hserve] at hfails
  cases hfails

end Raes.Time
