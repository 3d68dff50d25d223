import Raes.Mixed.Settlement

/-!
# Runs of phases

A call settles when it leaves exactly one record of its operation, a terminal one,
together with events that continue the history of its run, and moves the phase
only as the evaluator and the handoff allow.  Over any run of calls between other
operations, a claimed call settles when what it records fits and the history has
room for it, and what settled stays.
-/

namespace Raes.Mixed

open Store (OperationState)

section Recording

variable {transition : Transition} {target : Phase} {state : RuntimeState}
variable {evaluation : PhaseEvaluation} {operationId : String}
variable {handoff : Option HandoffResolution} {outcome : PhaseOutcome}

def phaseEventIds (operationId : String) : List String :=
  ["composition:" ++ operationId ++ ":phase", "composition:" ++ operationId ++ ":handoff",
    "composition:" ++ operationId ++ ":failure"]

theorem phaseEventId_ne_handoffEventId (operationId : String) :
    "composition:" ++ operationId ++ ":phase" ≠ "composition:" ++ operationId ++ ":handoff" := by
  intro h
  have hlist := congrArg String.toList h
  simp at hlist

section

variable (h : Recorded transition target state evaluation operationId handoff outcome)
include h

theorem Recorded.runs : ∀ event ∈ outcome.events, event.run = state.run := by
  cases h with
  | denied _ =>
    rw [List.forall_mem_singleton]
    rfl
  | advanced _ _ =>
    rw [List.forall_mem_singleton]
    rfl
  | handedOver _ _ resolution _ =>
    rw [List.forall_mem_cons, List.forall_mem_singleton]
    exact ⟨rfl, rfl⟩

theorem Recorded.eventIds : (outcome.events.map RuntimeEvent.eventId).Nodup ∧
      ∀ event ∈ outcome.events, event.eventId ∈ phaseEventIds operationId := by
  cases h with
  | denied _ =>
    refine ⟨List.nodup_singleton _, ?_⟩
    rw [List.forall_mem_singleton]
    simp [phaseEventIds, failureEvent]
  | advanced _ _ =>
    refine ⟨List.nodup_singleton _, ?_⟩
    rw [List.forall_mem_singleton]
    simp [phaseEventIds, phaseEvent]
  | handedOver _ _ resolution _ =>
    constructor
    · simp only [List.map_cons, List.map_nil, List.nodup_cons, List.mem_singleton,
        List.not_mem_nil, not_false_eq_true, List.nodup_nil, and_true]
      exact phaseEventId_ne_handoffEventId operationId
    · rw [List.forall_mem_cons, List.forall_mem_singleton]
      constructor
      · simp [phaseEventIds, phaseEvent]
      · simp [phaseEventIds, handoffEvent]

theorem Recorded.exists_final :
    ∃ final, outcome.events.getLast? = some final ∧ final ∈ outcome.events := by
  cases h with
  | denied _ => exact ⟨_, rfl, List.mem_singleton_self _⟩
  | advanced _ _ => exact ⟨_, rfl, List.mem_singleton_self _⟩
  | handedOver _ _ resolution _ =>
    exact ⟨_, rfl, List.mem_cons_of_mem _ (List.mem_singleton_self _)⟩

/-- The events of a phase continue the history that its state folds. -/
theorem Recorded.continues {last : RuntimeEvent} (hfold : StateMatchesHistory state last) :
    outcome.events.IsChain Follows ∧ ∀ event ∈ outcome.events.head?, Follows last event := by
  obtain ⟨⟨hrun, hmembership⟩, hhead⟩ := hfold
  have hphase : Follows last (phaseEvent transition target state evaluation operationId) := {
    predecessor := congrArg some hhead
    plan := by rw [← hrun]; rfl
    advances := fun _ => by rw [← hmembership]; rfl
    keeps := fun hkind => absurd rfl hkind }
  cases h with
  | denied _ =>
    refine ⟨List.isChain_singleton _, ?_⟩
    intro event hevent
    cases hevent
    exact {
      predecessor := congrArg some hhead
      plan := by rw [← hrun]; rfl
      advances := fun hkind => nomatch hkind
      keeps := fun _ => hmembership }
  | advanced _ _ =>
    refine ⟨List.isChain_singleton _, ?_⟩
    intro event hevent
    cases hevent
    exact hphase
  | handedOver _ _ resolution _ =>
    constructor
    · rw [List.isChain_cons_cons]
      refine ⟨?_, List.isChain_singleton _⟩
      exact {
        predecessor := rfl
        plan := rfl
        advances := fun hkind => nomatch hkind
        keeps := fun _ => rfl }
    · intro event hevent
      cases hevent
      exact hphase

end

end Recording

/-! ## Settled calls -/

variable {binding : Binding}

/-- No record and no event uses the identity that a call drew. -/
structure Fresh (plane : Plane) (runId operationId : String) : Prop where
  record : plane.records.get? operationId = none
  events : ∀ history ∈ plane.snapshot.histories.get? runId, ∀ event ∈ history,
    event.eventId ∉ phaseEventIds operationId

/-- The phase moved: the call found the state in the source phase, the evaluator
permitted the transition with all the required evidence, and a change of the
active components was confirmed by evidence and readback. -/
structure Moved (binding : Binding) (plane : Plane) (call : Call)
    (claimed : Claimed binding plane.snapshot) (events : List RuntimeEvent)
    (final : RuntimeEvent) (outcome : OperationState) : Prop where
  membership : final.membership =
    claimed.target.membership (claimed.state.membership.phaseRevision + 1)
  recorded : ∃ event ∈ events, event.eventKind = .phaseTransition
  source : claimed.state.membership.phaseId = claimed.transition.sourcePhaseId
  permitted : Permitted claimed.transition call.evaluator
  confirmed : NeedsHandoff claimed.state claimed.target →
    Confirmed binding plane.snapshot.timeModelState call claimed.transition claimed.state
  succeeded : outcome = .succeeded

/-- The phase stayed: the membership is what it was, and a failure is recorded. -/
structure Stayed (state : RuntimeState) (events : List RuntimeEvent) (final : RuntimeEvent)
    (outcome : OperationState) : Prop where
  membership : final.membership = state.membership
  recorded : ∃ event ∈ events, event.eventKind = .failure
  failed : outcome ≠ .succeeded

structure Settled (binding : Binding) (plane : Plane) (call : Call)
    (claimed : Claimed binding plane.snapshot) (after : Plane) : Prop where
  others : ∀ id, id ≠ call.operationId → after.records.get? id = plane.records.get? id
  otherRuns : ∀ runId, runId ≠ claimed.state.run.runId →
    after.snapshot.histories.get? runId = plane.snapshot.histories.get? runId ∧
      after.snapshot.states.get? runId = plane.snapshot.states.get? runId
  committed : ∃ terminal history events final,
    after.records.get? call.operationId = some terminal ∧
    terminal.operationId = call.operationId ∧ terminal.state ∈ terminalStates ∧
    terminal.resultHistoryHeads = [(historyKey claimed.state.run.runId, final.eventId)] ∧
    plane.snapshot.histories.get? claimed.state.run.runId = some history ∧
    events.getLast? = some final ∧
    after.snapshot.histories.get? claimed.state.run.runId = some (history ++ events) ∧
    after.snapshot.states.get? claimed.state.run.runId = some (foldedState final) ∧
    RunHistory claimed.state.run.runId (foldedState final) (history ++ events) ∧
    (Moved binding plane call claimed events final terminal.state ∨
      Stayed claimed.state events final terminal.state)

/-- A call whose operation can be recorded: no foreign exception cuts it short,
the lists that its events record fit their model, and the history of its run has
room for them. -/
def Recordable (binding : Binding) (snapshot : RuntimeSnapshot) (call : Call)
    (claimed : Claimed binding snapshot) : Prop :=
  ∃ evaluation handoff reserved history,
    evaluate claimed.transition call.evaluator = .returned evaluation ∧
    executePhaseHandoff binding snapshot.timeModelState call claimed.transition claimed.target
      claimed.state evaluation = .returned handoff ∧
    retainedReservation binding call claimed.transition claimed.state = .returned reserved ∧
    snapshot.histories.get? claimed.state.run.runId = some history ∧
    EventsFit claimed.state claimed.target evaluation handoff ∧
    history.length + recordedEvents claimed.state claimed.target evaluation handoff ≤
      maxCompositionHistory

theorem Claimed.exists_history {snapshot : RuntimeSnapshot} (claimed : Claimed binding snapshot) :
    ∃ history, snapshot.histories.get? claimed.state.run.runId = some history ∧
      RunHistory claimed.state.run.runId claimed.state history := by
  have hcommitted := claimed.state_committed
  unfold runtimeState at hcommitted
  split at hcommitted
  · cases hcommitted
  · rename_i stored hstored
    simp only [seq_eq_ok_iff, refuseIf_eq_ok_iff] at hcommitted
    obtain ⟨_, _, _, hsame⟩ := hcommitted
    have hstate : stored = claimed.state := Except.ok.inj hsame
    subst hstate
    obtain ⟨history, hhistory, hrun⟩ := snapshot.exists_history hstored
    have hrunId := hrun.stateRun
    rw [← hrunId] at hhistory hrun
    exact ⟨history, hhistory, hrun⟩

variable {state : RuntimeState}

theorem RunHistory.membership_unique {runId : String} {events : List RuntimeEvent}
    (h : RunHistory runId state events) : requireUniqueMembership state.membership = .ok () := by
  obtain ⟨last, hlast, ⟨_, hmembership⟩, _⟩ := h.folds
  have hcheck := h.eventsValid last (List.mem_of_getLast? hlast)
  unfold RuntimeEvent.check at hcheck
  simp only [seq_eq_ok_iff] at hcheck
  rw [hmembership]
  exact hcheck.2.1

theorem Claimed.sources {snapshot : RuntimeSnapshot} (claimed : Claimed binding snapshot)
    {call : Call} {evaluation : PhaseEvaluation} {handoff : Option HandoffResolution}
    (hevaluated : evaluate claimed.transition call.evaluator = .returned evaluation)
    (hresolved : executePhaseHandoff binding snapshot.timeModelState call claimed.transition
      claimed.target claimed.state evaluation = .returned handoff) :
    Sources claimed.transition claimed.target claimed.state evaluation handoff := by
  obtain ⟨history, _, hrun⟩ := claimed.exists_history
  exact {
    stateValid := hrun.stateValid
    unique := hrun.membership_unique
    targetAdmitted := (binding.profile.phases_admitted _ _ claimed.target_admitted).2
    trigger := (binding.profile.transitions_admitted _ _ claimed.transition_admitted).2.1
    order := evaluate_orderRef hevaluated
    resolved := executePhaseHandoff_recorded hresolved }

theorem appendRuntimeEvents_eq_ok_iff {snapshot : RuntimeSnapshot}
    {events history : List RuntimeEvent} {final : RuntimeEvent} {next : RuntimeSnapshot}
    (hhistory : snapshot.histories.get? state.run.runId = some history)
    (hrun : final.run = state.run) : appendRuntimeEvents snapshot state events final = .ok next ↔
      (foldedState final).check = .ok () ∧
      next.states = snapshot.states.set state.run.runId (foldedState final) ∧
      next.histories = snapshot.histories.set state.run.runId (history ++ events) ∧
      next.timeModelState = snapshot.timeModelState := by
  unfold appendRuntimeEvents
  rw [hhistory]
  show (_ >>= _ : Except PyError RuntimeSnapshot) = _ ↔ _
  rw [seq_eq_ok_iff, RuntimeSnapshot.make_eq_ok_iff, ← hrun]
  rfl

theorem foldedState_check {event : RuntimeEvent} (h : event.check = .ok ()) :
    (foldedState event).check = .ok () := by
  unfold RuntimeEvent.check RuntimeEvent.checkFields at h
  simp only [seq_eq_ok_iff] at h
  obtain ⟨⟨hid, hrun, hmembership, _⟩, _⟩ := h
  unfold RuntimeState.check
  simp only [seq_eq_ok_iff]
  exact ⟨hrun, hmembership, checkText_eq_ok_iff.mpr (checkText_eq_ok_iff.mp hid)⟩

theorem Recorded.runHistory_iff {transition : Transition} {target : Phase}
    {evaluation : PhaseEvaluation} {operationId : String} {handoff : Option HandoffResolution}
    {outcome : PhaseOutcome} {final : RuntimeEvent} {history : List RuntimeEvent}
    (h : Recorded transition target state evaluation operationId handoff outcome)
    (hsources : Sources transition target state evaluation handoff)
    (hrun : RunHistory state.run.runId state history)
    (hfresh : ∀ event ∈ history, event.eventId ∉ phaseEventIds operationId)
    (hfinal : outcome.events.getLast? = some final) (hmem : final ∈ outcome.events) :
    RunHistory state.run.runId (foldedState final) (history ++ outcome.events) ↔
      EventsFit state target evaluation handoff ∧
        history.length + recordedEvents state target evaluation handoff ≤
          maxCompositionHistory := by
  obtain ⟨last, hlast, hfold⟩ := hrun.folds
  obtain ⟨hchain, hfollows⟩ := h.continues hfold
  obtain ⟨hnodup, hids⟩ := h.eventIds
  have hdistinct : ((history ++ outcome.events).map RuntimeEvent.eventId).Nodup := by
    rw [List.map_append, List.nodup_append]
    refine ⟨hrun.distinct, hnodup, ?_⟩
    intro id hid id' hid' hsame
    obtain ⟨event, hevent, rfl⟩ := List.mem_map.mp hid
    obtain ⟨event', hevent', rfl⟩ := List.mem_map.mp hid'
    exact hfresh event hevent (hsame ▸ hids event' hevent')
  have hfinalRun : (foldedState final).run.runId = state.run.runId :=
    congrArg RunIdentity.runId (h.runs final hmem)
  rw [hrun.append_iff hlast hfinal
    (fun event hevent => congrArg RunIdentity.runId (h.runs event hevent)) hfinalRun hdistinct
    hchain hfollows ⟨⟨rfl, rfl⟩, rfl⟩, h.events_check_iff hsources, h.length_eq]
  constructor
  · rintro ⟨hroom, _, hfit⟩
    exact ⟨hfit, hroom⟩
  · rintro ⟨hfit, hroom⟩
    exact ⟨hroom, foldedState_check (((h.events_check_iff hsources).mpr hfit) final hmem), hfit⟩

variable {plane : Plane} {call : Call} {claimed : Claimed binding plane.snapshot}

theorem runPhase_eq_returned_iff (hfresh : Fresh plane claimed.state.run.runId call.operationId)
    (next : RuntimeSnapshot) (terminal : LedgerRecord) :
    runPhase binding plane.snapshot call claimed = .returned (next, terminal) ↔
      ∃ evaluation handoff outcome reserved history final,
        evaluate claimed.transition call.evaluator = .returned evaluation ∧
        executePhaseHandoff binding plane.snapshot.timeModelState call claimed.transition
          claimed.target claimed.state evaluation = .returned handoff ∧
        Recorded claimed.transition claimed.target claimed.state evaluation call.operationId
          handoff outcome ∧
        retainedReservation binding call claimed.transition claimed.state = .returned reserved ∧
        plane.snapshot.histories.get? claimed.state.run.runId = some history ∧
        outcome.events.getLast? = some final ∧
        (EventsFit claimed.state claimed.target evaluation handoff ∧
          history.length + recordedEvents claimed.state claimed.target evaluation handoff ≤
            maxCompositionHistory) ∧
        next.states = plane.snapshot.states.set claimed.state.run.runId (foldedState final) ∧
        next.histories =
          plane.snapshot.histories.set claimed.state.run.runId (history ++ outcome.events) ∧
        next.timeModelState = plane.snapshot.timeModelState ∧
        terminal = { runningRecord call claimed.state reserved with
          state := outcome.state
          diagnostics := outcome.diagnostics
          resultHistoryHeads := [(historyKey claimed.state.run.runId, final.eventId)] } := by
  obtain ⟨history, hhistory, hrun⟩ := claimed.exists_history
  have hnew := hfresh.events history hhistory
  unfold runPhase
  constructor
  · intro h
    obtain ⟨evaluation, hevaluated, h⟩ := Answer.bind_eq_returned_iff.mp h
    obtain ⟨handoff, hresolved, h⟩ := Answer.bind_eq_returned_iff.mp h
    obtain ⟨outcome, houtcome, h⟩ := Answer.bind_eq_returned_iff.mp h
    rw [Answer.ofExcept_eq_returned_iff] at houtcome
    obtain ⟨hrecorded, _⟩ := phaseOutcome_eq_ok_iff.mp houtcome
    have hsources := claimed.sources hevaluated hresolved
    obtain ⟨final, hfinal, hmem⟩ := hrecorded.exists_final
    rw [hfinal] at h
    obtain ⟨snapshot, happended, h⟩ := Answer.bind_eq_returned_iff.mp h
    obtain ⟨reserved, hreserved, h⟩ := Answer.bind_eq_returned_iff.mp h
    cases h
    rw [Answer.ofExcept_eq_returned_iff,
      appendRuntimeEvents_eq_ok_iff hhistory (hrecorded.runs final hmem)] at happended
    obtain ⟨_, hstates, hhistories, htime⟩ := happended
    have haccepted := next.accepted
    rw [hstates, hhistories, snapshotViolations_set_eq_nil_iff] at haccepted
    exact ⟨evaluation, handoff, outcome, reserved, history, final, hevaluated, hresolved,
      hrecorded, hreserved, hhistory, hfinal,
      (hrecorded.runHistory_iff hsources hrun hnew hfinal hmem).mp haccepted, hstates, hhistories,
      htime, rfl⟩
  · rintro ⟨evaluation, handoff, outcome, reserved, history', final, hevaluated, hresolved,
      hrecorded, hreserved, hhistory', hfinal, hfit, hstates, hhistories, htime, rfl⟩
    rw [hhistory] at hhistory'
    cases hhistory'
    have hsources := claimed.sources hevaluated hresolved
    obtain ⟨final', hfinal', hmem⟩ := hrecorded.exists_final
    rw [hfinal] at hfinal'
    cases hfinal'
    have hchecks := (hrecorded.events_check_iff hsources).mpr hfit.1
    have houtcome : phaseOutcome claimed.transition claimed.target claimed.state evaluation
        call.operationId handoff = .ok outcome :=
      phaseOutcome_eq_ok_iff.mpr
        ⟨hrecorded, fun event hevent => hchecks event (List.mem_of_mem_head? hevent)⟩
    refine Answer.bind_eq_returned_iff.mpr ⟨evaluation, hevaluated, ?_⟩
    refine Answer.bind_eq_returned_iff.mpr ⟨handoff, hresolved, ?_⟩
    refine Answer.bind_eq_returned_iff.mpr
      ⟨outcome, Answer.ofExcept_eq_returned_iff.mpr houtcome, ?_⟩
    rw [hfinal]
    refine Answer.bind_eq_returned_iff.mpr
      ⟨next, Answer.ofExcept_eq_returned_iff.mpr ?_, ?_⟩
    · rw [appendRuntimeEvents_eq_ok_iff hhistory (hrecorded.runs final hmem)]
      exact ⟨foldedState_check (hchecks final hmem), hstates, hhistories, htime⟩
    · exact Answer.bind_eq_returned_iff.mpr ⟨reserved, hreserved, rfl⟩

theorem deniedState_terminal {handoff : Option HandoffResolution}
    (h : ∀ resolution ∈ handoff, resolution.Recorded) : deniedState handoff ∈ terminalStates := by
  cases handoff with
  | none => simp [deniedState, terminalStates]
  | some resolution => exact (h resolution rfl).terminal

/-- What a recorded phase means: it moved on an admitted evaluation and a
confirmed handoff, or it stayed with its failure. -/
theorem Recorded.moved_or_stayed {evaluation : PhaseEvaluation}
    {handoff : Option HandoffResolution} {outcome : PhaseOutcome} {final : RuntimeEvent}
    (h : Recorded claimed.transition claimed.target claimed.state evaluation call.operationId
      handoff outcome)
    (hevaluated : evaluate claimed.transition call.evaluator = .returned evaluation)
    (hresolved : executePhaseHandoff binding plane.snapshot.timeModelState call
      claimed.transition claimed.target claimed.state evaluation = .returned handoff)
    (hfinal : outcome.events.getLast? = some final) : outcome.state ∈ terminalStates ∧
      (Moved binding plane call claimed outcome.events final outcome.state ∨
        Stayed claimed.state outcome.events final outcome.state) := by
  have hpermitted : ¬ Denied claimed.state claimed.target evaluation handoff →
      evaluation.permitted = true := by
    intro hdenied
    cases hp : evaluation.permitted with
    | true => rfl
    | false => exact absurd (.inl hp) hdenied
  cases h with
  | denied hdenied =>
    cases hfinal
    refine ⟨deniedState_terminal (executePhaseHandoff_recorded hresolved), .inr ?_⟩
    refine ⟨rfl, ⟨_, List.mem_singleton_self _, rfl⟩, ?_⟩
    show deniedState handoff ≠ .succeeded
    rcases hdenied with hrefused | ⟨_, resolution, hresolution, hstate⟩
    · cases handoff with
      | none => simp [deniedState]
      | some resolution =>
        intro hsucceeded
        unfold executePhaseHandoff at hresolved
        split at hresolved
        · obtain ⟨resolved, hportable, hsame⟩ := Answer.bind_eq_returned_iff.mp hresolved
          cases hsame
          rw [hrefused] at hportable
          cases hportable
          simp only [deniedState, Option.map_some, Option.getD_some,
            portableHandoffResolution] at hsucceeded
          split at hsucceeded <;> cases hsucceeded
        · rw [if_neg (by simp [hrefused])] at hresolved
          cases hresolved
    · cases hresolution
      exact hstate
  | advanced hdenied hkept =>
    cases hfinal
    refine ⟨by simp [terminalStates], .inl ?_⟩
    exact {
      membership := rfl
      recorded := ⟨_, List.mem_singleton_self _, rfl⟩
      source := claimed.source_matches
      permitted := evaluate_permitted hevaluated (hpermitted hdenied)
      confirmed := fun hneeds => absurd hneeds hkept
      succeeded := rfl }
  | handedOver hdenied hneeds resolution hresolution =>
    cases hfinal
    subst hresolution
    have hstate : resolution.state = .succeeded := by
      by_contra hne
      exact hdenied (.inr ⟨hneeds, resolution, rfl, hne⟩)
    refine ⟨by simp [terminalStates], .inl ?_⟩
    exact {
      membership := rfl
      recorded := ⟨_, List.mem_cons_self, rfl⟩
      source := claimed.source_matches
      permitted := evaluate_permitted hevaluated (hpermitted hdenied)
      confirmed := fun _ => executePhaseHandoff_confirmed hresolved hstate
      succeeded := rfl }

theorem advance_eq_of_claimed (h : claimPhase binding plane call = .ok claimed) :
    advance binding plane call = finishPhase binding plane call claimed := by
  unfold advance
  rw [h]

theorem settled_of_returned {next : RuntimeSnapshot} {terminal : LedgerRecord}
    (hfresh : Fresh plane claimed.state.run.runId call.operationId)
    (h : runPhase binding plane.snapshot call claimed = .returned (next, terminal)) :
    Settled binding plane call claimed
      ⟨next, (claimedRecords plane call claimed).set call.operationId terminal⟩ := by
  have haccepted := next.accepted
  obtain ⟨evaluation, handoff, outcome, reserved, history, final, hevaluated, hresolved, hrecorded,
    _, hhistory, hfinal, _, hstates, hhistories, _, rfl⟩ :=
    (runPhase_eq_returned_iff hfresh next terminal).mp h
  obtain ⟨hterminal, hlaw⟩ := hrecorded.moved_or_stayed hevaluated hresolved hfinal
  rw [hstates, hhistories, snapshotViolations_set_eq_nil_iff] at haccepted
  constructor
  · intro id hid
    show ((claimedRecords plane call claimed).set _ _).get? id = _
    rw [Dict.get?_set_ne _ _ hid, claimedRecords, Dict.get?_set_ne _ _ hid]
  · intro runId hother
    show next.histories.get? runId = _ ∧ next.states.get? runId = _
    rw [hstates, hhistories, Dict.get?_set_ne _ _ hother, Dict.get?_set_ne _ _ hother]
    exact ⟨rfl, rfl⟩
  · refine ⟨_, history, outcome.events, final, Dict.get?_set_self _ _ _, rfl, hterminal, rfl,
      hhistory, hfinal, ?_, ?_, haccepted, hlaw⟩
    · show next.histories.get? _ = _
      rw [hhistories, Dict.get?_set_self]
    · show next.states.get? _ = _
      rw [hstates, Dict.get?_set_self]

theorem exists_settled_iff (hclaim : claimPhase binding plane call = .ok claimed)
    (hfresh : Fresh plane claimed.state.run.runId call.operationId) :
    (∃ after, advance binding plane call = .settled after ∧
      Settled binding plane call claimed after) ↔
      Recordable binding plane.snapshot call claimed := by
  rw [advance_eq_of_claimed hclaim, finishPhase]
  constructor
  · rintro ⟨after, hadvance, _⟩
    split at hadvance
    · rename_i next terminal hreturned
      obtain ⟨evaluation, handoff, outcome, reserved, history, final, hevaluated, hresolved, _,
        hreserved, hhistory, _, ⟨hfit, hroom⟩, _⟩ :=
        (runPhase_eq_returned_iff hfresh next terminal).mp hreturned
      exact ⟨evaluation, handoff, reserved, history, hevaluated, hresolved, hreserved, hhistory,
        hfit, hroom⟩
    · cases hadvance
    · cases hadvance
  · rintro ⟨evaluation, handoff, reserved, history, hevaluated, hresolved, hreserved, hhistory,
      hfit, hroom⟩
    obtain ⟨outcome, hrecorded⟩ : ∃ outcome, Recorded claimed.transition claimed.target
        claimed.state evaluation call.operationId handoff outcome := by
      by_cases hdenied : Denied claimed.state claimed.target evaluation handoff
      · exact ⟨_, .denied hdenied⟩
      · by_cases hneeds : NeedsHandoff claimed.state claimed.target
        · have hpermitted : evaluation.permitted = true := by
            cases hp : evaluation.permitted with
            | true => rfl
            | false => exact absurd (.inl hp) hdenied
          obtain ⟨resolution, hsome⟩ := executePhaseHandoff_isSome hresolved hpermitted hneeds
          exact ⟨_, .handedOver hdenied hneeds resolution hsome⟩
        · exact ⟨_, .advanced hdenied hneeds⟩
    obtain ⟨final, hfinal, hmem⟩ := hrecorded.exists_final
    obtain ⟨history', hhistory', hrun⟩ := claimed.exists_history
    rw [hhistory] at hhistory'
    cases hhistory'
    have hnext : RunHistory claimed.state.run.runId (foldedState final)
        (history ++ outcome.events) :=
      (hrecorded.runHistory_iff (claimed.sources hevaluated hresolved) hrun
        (hfresh.events history hhistory) hfinal hmem).mpr ⟨hfit, hroom⟩
    have hreturned := (runPhase_eq_returned_iff hfresh
      ⟨plane.snapshot.states.set claimed.state.run.runId (foldedState final),
        plane.snapshot.histories.set claimed.state.run.runId (history ++ outcome.events),
        plane.snapshot.timeModelState,
        (snapshotViolations_set_eq_nil_iff _ _ _ _).mpr hnext⟩ _).mpr
      ⟨evaluation, handoff, outcome, reserved, history, final, hevaluated, hresolved, hrecorded,
        hreserved, hhistory, hfinal, ⟨hfit, hroom⟩, rfl, rfl, rfl, rfl⟩
    rw [hreturned]
    exact ⟨_, rfl, settled_of_returned hfresh hreturned⟩

/-- A claimed call that cannot be recorded commits nothing: the snapshot stays,
and its record stays behind as running. -/
theorem escaped_of_not_recordable (hclaim : claimPhase binding plane call = .ok claimed)
    (hfresh : Fresh plane claimed.state.run.runId call.operationId)
    (h : ¬ Recordable binding plane.snapshot call claimed) :
    advance binding plane call = .escaped ⟨plane.snapshot, claimedRecords plane call claimed⟩ := by
  rw [← exists_settled_iff hclaim hfresh] at h
  have hadvance := advance_eq_of_claimed hclaim
  cases hrun : runPhase binding plane.snapshot call claimed with
  | returned result =>
    refine absurd ⟨_, ?_, settled_of_returned hfresh hrun⟩ h
    rw [hadvance, finishPhase, hrun]
  | raised error => rw [hadvance, finishPhase, hrun]
  | interrupted => rw [hadvance, finishPhase, hrun]

end Raes.Mixed
