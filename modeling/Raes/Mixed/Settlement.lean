import Raes.Mixed.Confirmation

/-!
# Settlement of a phase

A call that claimed its operation record commits its terminal record with its
history events exactly when the events that it records fit their model and the
history of the run has room for them.  Otherwise the refusal of an event or of
the next snapshot leaves the call, after the evaluator and the handoff services
ran, and the claimed record stays behind as running.
-/

namespace Raes.Mixed

open Store (OperationState)
open Time (TimeRuntimeState)

/-! ## Evaluations -/

/-- The evaluator permitted the transition within its bound and cited all the
evidence that the transition requires. -/
def Permitted (transition : Transition) (evaluator : Answer EvaluatorValue) : Prop :=
  ∃ attempts orderRef evidenceRefs provenanceRefs,
    evaluator =
      .returned (.evaluation true attempts orderRef evidenceRefs provenanceRefs) ∧
    (⟨true, attempts, orderRef, evidenceRefs, provenanceRefs⟩ : PhaseEvaluation).Valid transition

theorem admittedEvaluation_orderRef (transition : Transition) (evaluation : PhaseEvaluation) :
    (admittedEvaluation transition evaluation).orderRef ≠ "" := by
  unfold admittedEvaluation
  by_cases h : evaluation.Valid transition
  · rw [if_pos h]
    exact h.2.1
  · rw [if_neg h]
    simp [failedEvaluation]

variable {transition : Transition} {evaluation : PhaseEvaluation}

theorem admittedEvaluation_permitted (h :
    (admittedEvaluation transition evaluation).permitted = true) :
    evaluation.Valid transition ∧ evaluation.permitted = true := by
  unfold admittedEvaluation at h
  by_cases hvalid : evaluation.Valid transition
  · rw [if_pos hvalid] at h
    exact ⟨hvalid, h⟩
  · rw [if_neg hvalid] at h
    cases h

theorem evaluate_orderRef {evaluator : Answer EvaluatorValue}
    (h : evaluate transition evaluator = .returned evaluation) : evaluation.orderRef ≠ "" := by
  unfold evaluate at h
  split at h
  · cases h
  · cases h
    exact admittedEvaluation_orderRef _ _
  · cases h
    simp [failedEvaluation]
  · cases h
  · cases h
    exact admittedEvaluation_orderRef _ _

theorem evaluate_permitted {evaluator : Answer EvaluatorValue}
    (h : evaluate transition evaluator = .returned evaluation)
    (hpermitted : evaluation.permitted = true) : Permitted transition evaluator := by
  unfold evaluate at h
  split at h
  · cases h
  · cases h
    have hfailed := (admittedEvaluation_permitted hpermitted).2
    cases hfailed
  · cases h
    cases hpermitted
  · cases h
  · rename_i permitted attempts orderRef evidenceRefs provenanceRefs
    cases h
    obtain ⟨hvalid, htrue⟩ := admittedEvaluation_permitted hpermitted
    have hsame : permitted = true := htrue
    subst hsame
    exact ⟨attempts, orderRef, evidenceRefs, provenanceRefs, rfl, hvalid⟩

/-! ## Handoffs -/

/-- The handoff of a transition is confirmed by evidence and readback. -/
def Confirmed (binding : Binding) (committedTime : Option TimeRuntimeState) (call : Call)
    (transition : Transition) (state : RuntimeState) : Prop :=
  match binding.portables.get? transition.transitionId with
  | some subject => PortableConfirmed (call.portable subject state)
  | none => ∃ installed, binding.handoffs.get? transition.transitionId = some installed ∧
      NativeConfirmed installed transition state call.operationId committedTime call.handoff

section Handoff

variable {binding : Binding} {committedTime : Option TimeRuntimeState} {call : Call}
variable {transition : Transition} {target : Phase} {state : RuntimeState}
variable {evaluation : PhaseEvaluation} {handoff : Option HandoffResolution}

theorem executePhaseHandoff_recorded
    (h : executePhaseHandoff binding committedTime call transition target state evaluation =
      .returned handoff) : ∀ resolution ∈ handoff, resolution.Recorded := by
  intro resolution hresolution
  unfold executePhaseHandoff at h
  split at h
  · obtain ⟨resolved, hresolved, hsome⟩ := Answer.bind_eq_returned_iff.mp h
    cases hsome
    cases hresolution
    exact resolvePortableHandoff_recorded hresolved
  · split at h
    · obtain ⟨resolved, hresolved, hsome⟩ := Answer.bind_eq_returned_iff.mp h
      cases hsome
      cases hresolution
      unfold resolveRequiredHandoff at hresolved
      split at hresolved
      · cases hresolved
        exact ⟨by simp, by simp, by simp [terminalStates], fun id hid => nomatch hid⟩
      · exact resolveInstalledHandoff_recorded hresolved
    · cases h
      cases hresolution

theorem executePhaseHandoff_isSome
    (h : executePhaseHandoff binding committedTime call transition target state evaluation =
      .returned handoff) (hpermitted : evaluation.permitted = true)
    (hneeds : NeedsHandoff state target) : ∃ resolution, handoff = some resolution := by
  unfold executePhaseHandoff at h
  split at h
  · obtain ⟨resolved, _, hsome⟩ := Answer.bind_eq_returned_iff.mp h
    cases hsome
    exact ⟨resolved, rfl⟩
  · rw [if_pos ⟨hpermitted, hneeds⟩] at h
    obtain ⟨resolved, _, hsome⟩ := Answer.bind_eq_returned_iff.mp h
    cases hsome
    exact ⟨resolved, rfl⟩

theorem executePhaseHandoff_confirmed {resolution : HandoffResolution}
    (h : executePhaseHandoff binding committedTime call transition target state evaluation =
      .returned (some resolution)) (hsucceeded : resolution.state = .succeeded) :
    Confirmed binding committedTime call transition state := by
  unfold executePhaseHandoff at h
  unfold Confirmed
  cases hportable : binding.portables.get? transition.transitionId with
  | some subject =>
    rw [hportable] at h
    obtain ⟨resolved, hresolved, hsome⟩ := Answer.bind_eq_returned_iff.mp h
    cases hsome
    exact resolvePortableHandoff_confirmed hresolved hsucceeded
  | none =>
    simp only [hportable] at h
    split at h
    · obtain ⟨resolved, hresolved, hsome⟩ := Answer.bind_eq_returned_iff.mp h
      cases hsome
      unfold resolveRequiredHandoff at hresolved
      split at hresolved
      · cases hresolved
        cases hsucceeded
      · rename_i installed hinstalled
        exact ⟨installed, hinstalled, resolveInstalledHandoff_confirmed hresolved hsucceeded⟩
    · cases h

end Handoff

section Recording

variable {transition : Transition} {target : Phase} {state : RuntimeState}
variable {evaluation : PhaseEvaluation} {operationId : String}
variable {handoff : Option HandoffResolution} {outcome : PhaseOutcome}

inductive Recorded (transition : Transition) (target : Phase) (state : RuntimeState)
    (evaluation : PhaseEvaluation) (operationId : String) (handoff : Option HandoffResolution) :
    PhaseOutcome → Prop
  | denied (h : Denied state target evaluation handoff) :
    Recorded transition target state evaluation operationId handoff
      ⟨[failureEvent transition state evaluation operationId handoff], deniedState handoff,
        [transitionDenied state]⟩
  | advanced (h : ¬ Denied state target evaluation handoff) (hkept : ¬ NeedsHandoff state target) :
    Recorded transition target state evaluation operationId handoff
      ⟨[phaseEvent transition target state evaluation operationId], .succeeded, []⟩
  | handedOver (h : ¬ Denied state target evaluation handoff) (hneeds : NeedsHandoff state target)
    (resolution : HandoffResolution) (hresolution : handoff = some resolution) :
    Recorded transition target state evaluation operationId handoff
      ⟨[phaseEvent transition target state evaluation operationId,
        handoffEvent transition target state evaluation operationId resolution], .succeeded, []⟩

theorem phaseOutcome_eq_ok_iff :
    phaseOutcome transition target state evaluation operationId handoff = .ok outcome ↔
      Recorded transition target state evaluation operationId handoff outcome ∧
        ∀ event ∈ outcome.events.head?, event.check = .ok () := by
  unfold phaseOutcome
  by_cases hdenied : Denied state target evaluation handoff
  · rw [if_pos hdenied, seq_eq_ok_iff]
    constructor
    · rintro ⟨hcheck, hsame⟩
      cases hsame
      exact ⟨.denied hdenied, fun event hevent => by cases hevent; exact hcheck⟩
    · rintro ⟨hrecorded, hcheck⟩
      cases hrecorded with
      | denied _ => exact ⟨hcheck _ rfl, rfl⟩
      | advanced h _ => exact absurd hdenied h
      | handedOver h _ _ _ => exact absurd hdenied h
  · rw [if_neg hdenied, seq_eq_ok_iff]
    by_cases hneeds : NeedsHandoff state target
    · rw [if_pos hneeds]
      constructor
      · rintro ⟨hcheck, hsame⟩
        split at hsame
        · cases hsame
        · rename_i resolution
          cases hsame
          exact ⟨.handedOver hdenied hneeds resolution rfl,
            fun event hevent => by cases hevent; exact hcheck⟩
      · rintro ⟨hrecorded, hcheck⟩
        cases hrecorded with
        | denied h => exact absurd h hdenied
        | advanced _ hkept => exact absurd hneeds hkept
        | handedOver _ _ resolution hresolution =>
          subst hresolution
          exact ⟨hcheck _ rfl, rfl⟩
    · rw [if_neg hneeds]
      constructor
      · rintro ⟨hcheck, hsame⟩
        cases hsame
        exact ⟨.advanced hdenied hneeds, fun event hevent => by cases hevent; exact hcheck⟩
      · rintro ⟨hrecorded, hcheck⟩
        cases hrecorded with
        | denied h => exact absurd h hdenied
        | advanced _ _ => exact ⟨hcheck _ rfl, rfl⟩
        | handedOver _ hn _ _ => exact absurd hn hneeds

def EventsFit (state : RuntimeState) (target : Phase) (evaluation : PhaseEvaluation)
    (handoff : Option HandoffResolution) : Prop :=
  RefsFit evaluation.provenanceRefs ∧
    if Denied state target evaluation handoff then RefsFit (deniedRefs evaluation handoff).2
    else RefsFit evaluation.evidenceRefs ∧ PhaseFits target ∧
      (NeedsHandoff state target → ∀ resolution ∈ handoff, RefsFit resolution.evidenceRefs)

def recordedEvents (state : RuntimeState) (target : Phase) (evaluation : PhaseEvaluation)
    (handoff : Option HandoffResolution) : ℕ :=
  if ¬ Denied state target evaluation handoff ∧ NeedsHandoff state target then 2 else 1

/-- What a call may rely on of the values that its events are built from. -/
structure Sources (transition : Transition) (target : Phase) (state : RuntimeState)
    (evaluation : PhaseEvaluation) (handoff : Option HandoffResolution) : Prop where
  stateValid : state.check = .ok ()
  unique : requireUniqueMembership state.membership = .ok ()
  targetAdmitted : target.Admitted
  trigger : transition.triggerRef ≠ ""
  order : evaluation.orderRef ≠ ""
  resolved : ∀ resolution ∈ handoff, resolution.Recorded

theorem eventId_nonempty (operationId suffix : String) :
    "composition:" ++ operationId ++ suffix ≠ "" := by
  intro h
  have hlist := congrArg String.toList h
  simp at hlist

section

variable (h : Sources transition target state evaluation handoff)
include h

theorem Sources.head_nonempty :
    state.run.check = .ok () ∧ state.membership.check = .ok () ∧ state.historyHead ≠ "" := by
  have hcheck := h.stateValid
  unfold RuntimeState.check at hcheck
  simp only [seq_eq_ok_iff, checkText_eq_ok_iff] at hcheck
  exact hcheck

theorem deniedRefs_orderRef : (deniedRefs evaluation handoff).1 ≠ "" := by
  unfold deniedRefs
  split
  · exact (h.resolved _ rfl).orderRef
  · exact h.order

theorem failureEvent_ofPhase :
    (failureEvent transition state evaluation operationId handoff).OfPhase where
  eventId := eventId_nonempty _ _
  orderRef := deniedRefs_orderRef h
  kind := .inr (.inr rfl)
  predecessor := ⟨_, rfl, h.head_nonempty.2.2⟩
  allocation := rfl
  component := fun _ hid => nomatch hid
  edge := rfl
  control := ⟨_, rfl, h.trigger⟩
  crossing := rfl
  policy := rfl
  mapping := rfl
  losses := rfl

theorem phaseEvent_ofPhase :
    (phaseEvent transition target state evaluation operationId).OfPhase where
  eventId := eventId_nonempty _ _
  orderRef := h.order
  kind := .inl rfl
  predecessor := ⟨_, rfl, h.head_nonempty.2.2⟩
  allocation := rfl
  component := fun _ hid => nomatch hid
  edge := rfl
  control := ⟨_, rfl, h.trigger⟩
  crossing := rfl
  policy := rfl
  mapping := rfl
  losses := rfl

end

theorem handoffEvent_ofPhase {resolution : HandoffResolution}
    (h : Sources transition target state evaluation (some resolution)) :
    (handoffEvent transition target state evaluation operationId resolution).OfPhase where
  eventId := eventId_nonempty _ _
  orderRef := (h.resolved _ rfl).orderRef
  kind := .inr (.inl rfl)
  predecessor := ⟨_, rfl, eventId_nonempty _ _⟩
  allocation := rfl
  component := fun id hid => ⟨(h.resolved _ rfl).destination id hid, nofun⟩
  edge := rfl
  control := ⟨_, rfl, h.trigger⟩
  crossing := rfl
  policy := rfl
  mapping := rfl
  losses := rfl

/-- The events of a phase are accepted when the lists that they record fit. -/
theorem Recorded.events_check_iff
    (hrecorded : Recorded transition target state evaluation operationId handoff outcome)
    (h : Sources transition target state evaluation handoff) :
    (∀ event ∈ outcome.events, event.check = .ok ()) ↔
      EventsFit state target evaluation handoff := by
  obtain ⟨hrun, hmembership, _⟩ := h.head_nonempty
  have hphase : (phaseEvent transition target state evaluation operationId).check = .ok () ↔
      PhaseFits target ∧ RefsFit evaluation.evidenceRefs ∧ RefsFit evaluation.provenanceRefs := by
    rw [(phaseEvent_ofPhase h).check_iff hrun]
    exact and_congr (h.targetAdmitted.membership_check_iff _) Iff.rfl
  unfold EventsFit
  cases hrecorded with
  | denied hdenied =>
    rw [if_pos hdenied, List.forall_mem_singleton, (failureEvent_ofPhase h).check_iff hrun]
    constructor
    · rintro ⟨_, hevidence, hprovenance⟩
      exact ⟨hprovenance, hevidence⟩
    · rintro ⟨hprovenance, hevidence⟩
      exact ⟨⟨hmembership, h.unique⟩, hevidence, hprovenance⟩
  | advanced hdenied hkept =>
    rw [if_neg hdenied, List.forall_mem_singleton, hphase]
    constructor
    · rintro ⟨hfits, hevidence, hprovenance⟩
      exact ⟨hprovenance, hevidence, hfits, fun hneeds => absurd hneeds hkept⟩
    · rintro ⟨hprovenance, hevidence, hfits, _⟩
      exact ⟨hfits, hevidence, hprovenance⟩
  | handedOver hdenied hneeds resolution hresolution =>
    subst hresolution
    have hhandoff : (handoffEvent transition target state evaluation operationId
        resolution).check = .ok () ↔
        PhaseFits target ∧ RefsFit resolution.evidenceRefs ∧
          RefsFit evaluation.provenanceRefs := by
      rw [(handoffEvent_ofPhase h).check_iff hrun]
      exact and_congr (h.targetAdmitted.membership_check_iff _) Iff.rfl
    rw [if_neg hdenied, List.forall_mem_cons, List.forall_mem_singleton, hphase, hhandoff]
    constructor
    · rintro ⟨⟨hfits, hevidence, hprovenance⟩, _, hconfirmed, _⟩
      exact ⟨hprovenance, hevidence, hfits, fun _ other hother => by cases hother; exact hconfirmed⟩
    · rintro ⟨hprovenance, hevidence, hfits, hconfirmed⟩
      exact ⟨⟨hfits, hevidence, hprovenance⟩, hfits, hconfirmed hneeds resolution rfl, hprovenance⟩

theorem Recorded.length_eq
    (hrecorded : Recorded transition target state evaluation operationId handoff outcome) :
    outcome.events.length = recordedEvents state target evaluation handoff := by
  unfold recordedEvents
  cases hrecorded with
  | denied hdenied => simp [hdenied]
  | advanced hdenied hkept => simp [hkept]
  | handedOver hdenied hneeds resolution hresolution => simp [hdenied, hneeds]

end Recording

end Raes.Mixed
