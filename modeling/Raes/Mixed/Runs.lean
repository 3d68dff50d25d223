import Raes.Mixed.Advance

/-!
# Runs of compositions

Runs of claimed calls between the other operations of a plane.  What an operation
settled stays: the store keeps terminal records and appends to histories.
-/

namespace Raes.Mixed

open Store (OperationState)

variable {binding : Binding}

/-- What every operation keeps of a plane: its terminal records, and the events
of its histories. -/
structure Keeps (before after : Plane) : Prop where
  records : ∀ id record, before.records.get? id = some record → record.state ∈ terminalStates →
    ∃ kept, after.records.get? id = some kept ∧ kept.state = record.state ∧
      kept.resultHistoryHeads = record.resultHistoryHeads
  histories : ∀ runId history, before.snapshot.histories.get? runId = some history →
    ∃ more, after.snapshot.histories.get? runId = some (history ++ more)

/-- A call that claimed its record in a run. -/
structure PhaseStep (binding : Binding) where
  before : Plane
  call : Call
  claimed : Claimed binding before.snapshot
  claims : claimPhase binding before call = .ok claimed
  fresh : Fresh before claimed.state.run.runId call.operationId
  after : Plane
  ended : advance binding before call = .settled after ∨ advance binding before call = .escaped after

def PhaseStep.runId (step : PhaseStep binding) : String := step.claimed.state.run.runId

/-- The step committed its terminal record with its events. -/
def PhaseStep.Settles (step : PhaseStep binding) : Prop :=
  advance binding step.before step.call = .settled step.after ∧
    Settled binding step.before step.call step.claimed step.after

def PhaseStep.Recordable (step : PhaseStep binding) : Prop :=
  Mixed.Recordable binding step.before.snapshot step.call step.claimed

inductive Run (binding : Binding) : Plane → List (PhaseStep binding) → Plane → Prop
  | start (plane : Plane) : Run binding plane [] plane
  | other {start middle finish : Plane} {steps : List (PhaseStep binding)}
    (run : Run binding start steps middle) (keeps : Keeps middle finish) :
    Run binding start steps finish
  | phase {start : Plane} {steps : List (PhaseStep binding)} (step : PhaseStep binding)
    (run : Run binding start steps step.before) : Run binding start (steps ++ [step]) step.after

/-- The operation of a step is settled in a plane: its record is terminal, and
its result head is an event of the history of its run. -/
def SettledIn (step : PhaseStep binding) (plane : Plane) : Prop :=
  ∃ terminal history event, plane.records.get? step.call.operationId = some terminal ∧
    terminal.state ∈ terminalStates ∧
    plane.snapshot.histories.get? step.runId = some history ∧ event ∈ history ∧
    terminal.resultHistoryHeads = [(historyKey step.runId, event.eventId)]

theorem PhaseStep.settles_iff (step : PhaseStep binding) : step.Settles ↔ step.Recordable := by
  rw [PhaseStep.Recordable, ← exists_settled_iff step.claims step.fresh]
  constructor
  · intro h
    exact ⟨step.after, h⟩
  · rintro ⟨after, hadvance, hsettled⟩
    rcases step.ended with hended | hended
    · rw [hadvance] at hended
      cases hended
      exact ⟨hadvance, hsettled⟩
    · rw [hadvance] at hended
      cases hended

variable {step : PhaseStep binding}

theorem PhaseStep.Settles.settledIn (h : step.Settles) : SettledIn step step.after := by
  obtain ⟨terminal, history, events, final, hrecord, _, hterminal, hheads, _, hfinal, hhistory, _⟩ :=
    h.2.committed
  exact ⟨terminal, history ++ events, final, hrecord, hterminal, hhistory,
    List.mem_append_right _ (List.mem_of_getLast? hfinal), hheads⟩

theorem PhaseStep.Settles.keeps (h : step.Settles) : Keeps step.before step.after where
  records := by
    intro id record hget hterminal
    have hother : id ≠ step.call.operationId := by
      rintro rfl
      rw [step.fresh.record] at hget
      cases hget
    exact ⟨record, by rw [h.2.others id hother, hget], rfl, rfl⟩
  histories := by
    intro runId history hget
    obtain ⟨_, history', events, _, _, _, _, _, hbefore, _, hafter, _⟩ := h.2.committed
    by_cases hsame : runId = step.claimed.state.run.runId
    · subst hsame
      rw [hget] at hbefore
      cases hbefore
      exact ⟨events, hafter⟩
    · exact ⟨[], by rw [(h.2.otherRuns runId hsame).1, hget, List.append_nil]⟩

theorem Keeps.settledIn {before after : Plane} (h : Keeps before after)
    (hsettled : SettledIn step before) : SettledIn step after := by
  obtain ⟨terminal, history, event, hrecord, hterminal, hhistory, hevent, hheads⟩ := hsettled
  obtain ⟨kept, hkept, hstate, hkeptHeads⟩ := h.records _ _ hrecord hterminal
  obtain ⟨more, hmore⟩ := h.histories _ _ hhistory
  exact ⟨kept, history ++ more, event, hkept, hstate ▸ hterminal, hmore,
    List.mem_append_left _ hevent, hkeptHeads.trans hheads⟩

/-- Every claimed call of a run settles exactly when it can be recorded.  The
histories of every plane that a run reaches are chains that fold to its states,
and when all calls of the run can be recorded, all their operations are settled
at its end. -/
theorem run_settles {start finish : Plane} {steps : List (PhaseStep binding)}
    (run : Run binding start steps finish) :
    (∀ step ∈ steps, step.Settles ↔ step.Recordable) ∧
      (∀ runId history, finish.snapshot.histories.get? runId = some history →
        ∃ state, finish.snapshot.states.get? runId = some state ∧
          RunHistory runId state history) ∧
      ((∀ step ∈ steps, step.Recordable) → ∀ step ∈ steps, SettledIn step finish) := by
  refine ⟨fun step _ => step.settles_iff, fun runId history => finish.snapshot.runHistory, ?_⟩
  induction run with
  | start =>
    intro _ step hstep
    cases hstep
  | other run keeps ih =>
    intro hrecordable step hstep
    exact keeps.settledIn (ih hrecordable step hstep)
  | phase last run ih =>
    intro hrecordable step hstep
    have hlast : last.Settles :=
      last.settles_iff.mpr (hrecordable last (List.mem_append_right _ (List.mem_singleton_self _)))
    rcases List.mem_append.mp hstep with hearlier | hsame
    · exact hlast.keeps.settledIn
        (ih (fun other hother => hrecordable other (List.mem_append_left _ hother)) step hearlier)
    · rw [List.mem_singleton] at hsame
      subst hsame
      exact hlast.settledIn

/-! ## A run whose history is full

A denied call records one failure, so calls that are denied again and again fill
the history.  The call after that is permitted, finds no room, and leaves its
record running. -/

def mixedRun : RunIdentity :=
  ⟨"run", "plan", "entry", "profile",
    "sha256:0000000000000000000000000000000000000000000000000000000000000000"⟩

def firstPhase : Phase := ⟨"first", ["component"], ["left"], []⟩

def secondPhase : Phase := ⟨"second", ["component"], ["right"], []⟩

def nextTransition : Transition := ⟨"next", "first", "second", "trigger", 1, ["evidence"]⟩

def mixedProfile : Profile where
  phases := (Dict.empty.set "first" firstPhase).set "second" secondPhase
  transitions := Dict.empty.set "next" nextTransition
  phases_admitted := by
    intro id phase h
    rw [Dict.get?_set, Dict.get?_set] at h
    split at h
    · rename_i hid
      cases h
      exact ⟨hid.symm, by constructor <;> simp [secondPhase]⟩
    · split at h
      · rename_i hid
        cases h
        exact ⟨hid.symm, by constructor <;> simp [firstPhase]⟩
      · cases h
  transitions_admitted := by
    intro id transition h
    rw [Dict.get?_set] at h
    split at h
    · rename_i hid
      cases h
      exact ⟨hid.symm, by decide, by decide, by decide, by decide⟩
    · cases h

def mixedBinding : Binding := ⟨mixedRun, mixedProfile, .empty, .empty⟩

/-- The call `next`, which its evaluator permits. -/
def nextCall : Call where
  transitionId := "next"
  operationId := "operation"
  idempotencyKey := ""
  requestFingerprint := "fingerprint"
  effectBlocked := false
  portableAdmitted := true
  evaluator := .returned (.evaluation true 1 "order" ["evidence"] [])
  handoff := ⟨.interrupted, .interrupted, .interrupted, .interrupted, .interrupted⟩
  portable := fun _ _ => ⟨false, .interrupted, .interrupted⟩

/-- The identity of the event at a position. -/
def positionId (position : ℕ) : String := String.ofList (List.replicate (position + 1) 'e')

theorem positionId_injective {m n : ℕ} (h : positionId m = positionId n) : m = n := by
  have hlist : List.replicate (m + 1) 'e' = List.replicate (n + 1) 'e' :=
    String.ofList_injective h
  have hlength := congrArg List.length hlist
  simp only [List.length_replicate] at hlength
  omega

def firstPhaseEvent (kind : EventKind) (position : ℕ) (previous : Option String) : RuntimeEvent where
  eventId := positionId position
  eventKind := kind
  run := mixedRun
  membership := firstPhase.membership 0
  disposition := .denied
  predecessorEventId := previous
  allocationId := none
  componentId := none
  edgeId := none
  controlEventRef := some "trigger"
  crossingEventRef := none
  policyDecisionRef := none
  mappingRef := none
  orderRef := "order"
  mappingLossRefs := []
  evidenceRefs := []
  provenanceRefs := []

def deniedHistory : ℕ → List RuntimeEvent
  | 0 => [firstPhaseEvent .phaseActivated 0 none]
  | denied + 1 => deniedHistory denied ++
      [firstPhaseEvent .failure (denied + 1) (some (positionId denied))]

def deniedStateAt (denied : ℕ) : RuntimeState :=
  ⟨mixedRun, firstPhase.membership 0, positionId denied⟩

theorem positionId_nonempty (position : ℕ) : positionId position ≠ "" := by
  intro h
  have hlist := congrArg String.toList h
  simp [positionId, List.replicate_succ] at hlist

variable (denied : ℕ)

theorem length_deniedHistory : (deniedHistory denied).length = denied + 1 := by
  induction denied with
  | zero => rfl
  | succ denied ih => rw [deniedHistory, List.length_append, ih, List.length_singleton]

theorem eventIds_deniedHistory :
    (deniedHistory denied).map RuntimeEvent.eventId = (List.range (denied + 1)).map positionId := by
  induction denied with
  | zero => rfl
  | succ denied ih =>
    rw [deniedHistory, List.map_append, ih, List.range_succ (n := denied + 1), List.map_append]
    rfl

theorem getLast?_deniedHistory : ∃ last, (deniedHistory denied).getLast? = some last ∧
      StateMatchesHistory (deniedStateAt denied) last ∧ last.eventId = positionId denied := by
  cases denied with
  | zero => exact ⟨_, rfl, ⟨⟨rfl, rfl⟩, rfl⟩, rfl⟩
  | succ denied =>
    refine ⟨firstPhaseEvent .failure (denied + 1) (some (positionId denied)), ?_,
      ⟨⟨rfl, rfl⟩, rfl⟩, rfl⟩
    rw [deniedHistory, List.getLast?_concat]

theorem runHistory_deniedHistory (h : denied < maxCompositionHistory) :
    RunHistory "run" (deniedStateAt denied) (deniedHistory denied) := by
  have hrun : mixedRun.check = .ok () := by decide +kernel
  have hmembership : (firstPhase.membership 0).check = .ok () := by decide +kernel
  have hunique : requireUniqueMembership (firstPhase.membership 0) = .ok () := by decide +kernel
  have hempty : RefsFit [] := by decide
  have hstate : ∀ position, (deniedStateAt position).check = .ok () := by
    intro position
    unfold RuntimeState.check deniedStateAt
    simp only [seq_eq_ok_iff, checkText_eq_ok_iff]
    exact ⟨hrun, hmembership, positionId_nonempty position⟩
  induction denied with
  | zero =>
    exact {
      bounded := by decide
      stateValid := hstate 0
      eventsValid := by
        show ∀ event ∈ [_], _
        rw [List.forall_mem_singleton]
        decide +kernel
      stateRun := rfl
      eventRuns := by
        show ∀ event ∈ [_], _
        rw [List.forall_mem_singleton]
        rfl
      starts := ⟨_, rfl, rfl⟩
      distinct := List.nodup_singleton _
      chained := List.isChain_singleton _
      folds := ⟨_, rfl, ⟨⟨rfl, rfl⟩, rfl⟩⟩ }
  | succ denied ih =>
    obtain ⟨last, hlast, ⟨⟨hlastRun, hlastMembership⟩, _⟩, hlastId⟩ := getLast?_deniedHistory denied
    have hphase : (firstPhaseEvent .failure (denied + 1) (some (positionId denied))).OfPhase := {
      eventId := positionId_nonempty _
      orderRef := by
        show "order" ≠ ""
        decide
      kind := .inr (.inr rfl)
      predecessor := ⟨_, rfl, positionId_nonempty _⟩
      allocation := rfl
      component := fun _ hid => by cases hid
      edge := rfl
      control := ⟨_, rfl, by decide⟩
      crossing := rfl
      policy := rfl
      mapping := rfl
      losses := rfl }
    rw [deniedHistory, (ih (by omega)).append_iff hlast rfl (by simp [firstPhaseEvent, mixedRun])
      rfl ?_ (List.isChain_singleton _) ?_ ⟨⟨rfl, rfl⟩, rfl⟩]
    · refine ⟨?_, hstate _, ?_⟩
      · rw [length_deniedHistory, List.length_singleton]
        omega
      · rw [List.forall_mem_singleton, hphase.check_iff hrun]
        exact ⟨⟨hmembership, hunique⟩, hempty, hempty⟩
    · have hids := eventIds_deniedHistory (denied + 1)
      rw [deniedHistory] at hids
      rw [hids]
      exact List.nodup_range.map fun _ _ => positionId_injective
    · intro event hevent
      cases hevent
      exact {
        predecessor := by rw [hlastId]; rfl
        plan := by rw [← hlastRun]; rfl
        advances := fun hkind => by cases hkind
        keeps := fun _ => hlastMembership }

/-- The plane after so many denied calls, with no record outstanding. -/
def deniedPlane (h : denied < maxCompositionHistory) : Plane where
  snapshot :=
    { states := Dict.empty.set "run" (deniedStateAt denied)
      histories := Dict.empty.set "run" (deniedHistory denied)
      timeModelState := none
      accepted := by
        have hempty : snapshotViolations Dict.empty Dict.empty = [] := by decide
        exact (snapshotViolations_set_eq_nil_iff ⟨.empty, .empty, none, hempty⟩ "run" _ _).mpr
          (runHistory_deniedHistory denied h) }
  records := .empty

theorem get?_deniedPlane {denied : ℕ} (h : denied < maxCompositionHistory) :
    (deniedPlane denied h).snapshot.histories.get? "run" = some (deniedHistory denied) :=
  Dict.get?_set_self _ _ _

theorem claimPhase_deniedPlane {denied : ℕ} (h : denied < maxCompositionHistory) :
    ∃ claimed, claimPhase mixedBinding (deniedPlane denied h) nextCall = .ok claimed ∧
      claimed.transition = nextTransition ∧ claimed.target = secondPhase ∧
      claimed.state = deniedStateAt denied := by
  have htransition : mixedBinding.profile.transitions.get? nextCall.transitionId =
      some nextTransition := by decide
  have htarget : mixedBinding.profile.phases.get? nextTransition.targetPhaseId =
      some secondPhase := by decide
  have hstate : runtimeState mixedBinding (deniedPlane denied h).snapshot =
      .ok (deniedStateAt denied) := by
    have hget : (deniedPlane denied h).snapshot.states.get? mixedBinding.run.runId =
        some (deniedStateAt denied) := Dict.get?_set_self _ _ _
    have hvalid := (runHistory_deniedHistory denied h).stateValid
    unfold runtimeState
    rw [hget]
    show (_ >>= _ : Except PyError RuntimeState) = _
    rw [seq_eq_ok_iff, seq_eq_ok_iff, seq_eq_ok_iff]
    refine ⟨hvalid, (refuseIf_eq_ok_iff _ _ _).mpr fun hne => hne rfl, ?_, rfl⟩
    rw [refuseIf_eq_ok_iff, not_not]
    have hphase : mixedBinding.profile.phases.get? "first" = some firstPhase := by decide
    exact ⟨firstPhase, hphase, rfl, rfl, rfl⟩
  unfold claimPhase
  split
  · rename_i hnone
    rw [htransition] at hnone
    cases hnone
  · rename_i transition hsome
    rw [htransition] at hsome
    cases hsome
    split
    · rename_i error herror
      rw [hstate] at herror
      cases herror
    · rename_i state hok
      rw [hstate] at hok
      cases hok
      have hfind : findByIdempotency (deniedPlane denied h).records.values
          nextCall.idempotencyKey = none := if_pos rfl
      have hopen : ¬ (¬ Quiescent (deniedPlane denied h).records.values
          (deniedStateAt denied).run.runId ∨ nextCall.effectBlocked = true) := by
        rintro (hbusy | hblocked)
        · exact hbusy fun record hrecord => nomatch hrecord
        · cases hblocked
      simp only [hfind]
      rw [if_neg (by decide), dif_pos (show (deniedStateAt denied).membership.phaseId =
        nextTransition.sourcePhaseId from rfl), if_neg hopen]
      split
      · rename_i hnone
        rw [htarget] at hnone
        cases hnone
      · rename_i target hsome
        rw [htarget] at hsome
        cases hsome
        exact ⟨_, rfl, rfl, rfl, rfl⟩

theorem fresh_deniedPlane {denied : ℕ} (h : denied < maxCompositionHistory) :
    Fresh (deniedPlane denied h) "run" "operation" where
  record := rfl
  events := by
    intro history hhistory event hevent
    rw [get?_deniedPlane] at hhistory
    cases hhistory
    have hid : event.eventId ∈ (deniedHistory denied).map RuntimeEvent.eventId :=
      List.mem_map_of_mem hevent
    rw [eventIds_deniedHistory] at hid
    obtain ⟨position, _, hposition⟩ := List.mem_map.mp hid
    have hletter : event.eventId.toList.head? = some 'e' := by
      rw [← hposition]
      simp [positionId, List.replicate_succ]
    intro hmem
    have hprefixed : ∀ id ∈ phaseEventIds "operation", id.toList.head? = some 'c' := by
      decide +kernel
    rw [hprefixed _ hmem] at hletter
    cases hletter

theorem recordable_deniedPlane_iff {denied : ℕ} (h : denied < maxCompositionHistory)
    {claimed : Claimed mixedBinding (deniedPlane denied h).snapshot}
    (htransition : claimed.transition = nextTransition) (htarget : claimed.target = secondPhase)
    (hstate : claimed.state = deniedStateAt denied) :
    Recordable mixedBinding (deniedPlane denied h).snapshot nextCall claimed ↔
      denied + 2 ≤ maxCompositionHistory := by
  have hevaluated : evaluate nextTransition nextCall.evaluator =
      .returned ⟨true, 1, "order", ["evidence"], []⟩ := by decide
  have hkept : ¬ NeedsHandoff (deniedStateAt denied) secondPhase := by
    intro hneeds
    exact hneeds ⟨fun _ hid => hid, fun _ hid => hid⟩
  have hresolved : executePhaseHandoff mixedBinding (deniedPlane denied h).snapshot.timeModelState
      nextCall nextTransition secondPhase (deniedStateAt denied)
      ⟨true, 1, "order", ["evidence"], []⟩ = .returned none := by
    have hnone : ¬ (true = true ∧ NeedsHandoff (deniedStateAt denied) secondPhase) :=
      fun hboth => hkept hboth.2
    have hportable : mixedBinding.portables.get? nextTransition.transitionId = none := rfl
    unfold executePhaseHandoff
    rw [hportable]
    exact if_neg hnone
  have hadmitted : ¬ Denied (deniedStateAt denied) secondPhase
      ⟨true, 1, "order", ["evidence"], []⟩ none := by
    rintro (hrefused | ⟨hneeds, _⟩)
    · cases hrefused
    · exact hkept hneeds
  have hcount : recordedEvents (deniedStateAt denied) secondPhase
      ⟨true, 1, "order", ["evidence"], []⟩ none = 1 := by
    rw [recordedEvents, if_neg (fun hboth => hkept hboth.2)]
  have hlength := length_deniedHistory denied
  unfold Recordable
  rw [htransition, htarget, hstate]
  constructor
  · rintro ⟨evaluation, handoff, reserved, history, hevaluation, hhandoff, _, hhistory, _, hroom⟩
    rw [hevaluated] at hevaluation
    cases hevaluation
    rw [hresolved] at hhandoff
    cases hhandoff
    have hsame : history = deniedHistory denied :=
      (Option.some.inj ((get?_deniedPlane h).symm.trans hhistory)).symm
    rw [hcount, hsame, hlength] at hroom
    omega
  · intro hroom
    refine ⟨_, _, false, deniedHistory denied, hevaluated, hresolved, rfl, get?_deniedPlane h, ?_, ?_⟩
    · refine ⟨by decide, ?_⟩
      rw [if_neg hadmitted]
      exact ⟨by decide, by decide, fun hneeds => absurd hneeds hkept⟩
    · rw [hcount, hlength]
      omega

/-- A run whose one call settles. -/
theorem run_settles_next :
    ∃ (finish : Plane) (step : PhaseStep mixedBinding),
      Run mixedBinding (deniedPlane 0 (by decide)) [step] finish ∧ step.call = nextCall ∧
        SettledIn step finish := by
  obtain ⟨claimed, hclaim, htransition, htarget, hstate⟩ :=
    claimPhase_deniedPlane (show 0 < maxCompositionHistory by decide)
  have hfresh : Fresh (deniedPlane 0 (by decide)) claimed.state.run.runId nextCall.operationId := by
    rw [hstate]
    exact fresh_deniedPlane (by decide)
  have hrecordable := (recordable_deniedPlane_iff (show 0 < maxCompositionHistory by decide) htransition htarget
    hstate).mpr (by decide)
  obtain ⟨after, hadvance, _⟩ := (exists_settled_iff hclaim hfresh).mpr hrecordable
  let step : PhaseStep mixedBinding :=
    ⟨deniedPlane 0 (by decide), nextCall, claimed, hclaim, hfresh, after, .inl hadvance⟩
  have hrun : Run mixedBinding (deniedPlane 0 (by decide)) [step] after :=
    .phase step (.start _)
  refine ⟨after, step, hrun, rfl, (run_settles hrun).2.2 ?_ step (List.mem_singleton_self _)⟩
  rw [List.forall_mem_singleton]
  exact hrecordable

/-- At the bound of the history the call claims its record, the evaluator permits
the transition, and nothing is committed: the record stays running. -/
theorem fullHistory_escapes :
    ∃ (claimed : Claimed mixedBinding
        (deniedPlane (maxCompositionHistory - 1) (by decide)).snapshot) (after : Plane)
      (record : LedgerRecord),
      claimPhase mixedBinding (deniedPlane (maxCompositionHistory - 1) (by decide)) nextCall =
        .ok claimed ∧
      Fresh (deniedPlane (maxCompositionHistory - 1) (by decide)) "run" "operation" ∧
      Permitted claimed.transition nextCall.evaluator ∧
      advance mixedBinding (deniedPlane (maxCompositionHistory - 1) (by decide)) nextCall =
        .escaped after ∧
      after.records.get? "operation" = some record ∧ record.state = .running ∧
      record.state ∉ terminalStates := by
  obtain ⟨claimed, hclaim, htransition, htarget, hstate⟩ :=
    claimPhase_deniedPlane (show maxCompositionHistory - 1 < maxCompositionHistory by decide)
  have hfull := fresh_deniedPlane (show maxCompositionHistory - 1 < maxCompositionHistory by decide)
  have hfresh : Fresh (deniedPlane (maxCompositionHistory - 1) (by decide))
      claimed.state.run.runId nextCall.operationId := by
    rw [hstate]
    exact hfull
  have hrefused : ¬ Recordable mixedBinding _ nextCall claimed := by
    rw [recordable_deniedPlane_iff _ htransition htarget hstate]
    decide
  refine ⟨claimed, _, _, hclaim, hfull, ?_,
    escaped_of_not_recordable hclaim hfresh hrefused, Dict.get?_set_self _ _ _, rfl, ?_⟩
  · rw [htransition]
    exact ⟨1, "order", ["evidence"], [], rfl, by decide⟩
  · show OperationState.running ∉ terminalStates
    decide

end Raes.Mixed
