import Raes.Mixed.Phase

/-!
# The events of a phase

When the models accept the events that a phase records, and how these events
continue the history of the run.
-/

namespace Raes.Mixed

open Store (OperationState)

/-! ## Lists of references -/

structure RefsFit (refs : List String) : Prop where
  bounded : refs.length ≤ maxEventRefs
  nonempty : "" ∉ refs

instance (refs : List String) : Decidable (RefsFit refs) :=
  decidable_of_iff (refs.length ≤ maxEventRefs ∧ "" ∉ refs)
    ⟨fun h => ⟨h.1, h.2⟩, fun h => ⟨h.bounded, h.nonempty⟩⟩

@[simp] theorem checkText_eq_ok_iff {field value : String} :
    checkText field value = .ok () ↔ value ≠ "" := by
  simp [checkText]

variable (field : String)

theorem checkRefs_eq_ok_iff (maximum : ℕ) (refs : List String) :
    checkRefs field maximum refs = .ok () ↔ refs.length ≤ maximum ∧ "" ∉ refs := by
  unfold checkRefs
  simp only [seq_eq_ok_iff, refuseIf_eq_ok_iff, forM_eq_ok_iff, checkText_eq_ok_iff,
    not_lt]
  constructor
  · rintro ⟨hbound, hnonempty⟩
    exact ⟨hbound, fun hmem => hnonempty "" hmem rfl⟩
  · rintro ⟨hbound, hnonempty⟩
    exact ⟨hbound, fun ref hmem heq => hnonempty (heq ▸ hmem)⟩

theorem checkEventRefs_eq_ok_iff (refs : List String) :
    checkRefs field maxEventRefs refs = .ok () ↔ RefsFit refs := by
  rw [checkRefs_eq_ok_iff]
  exact ⟨fun h => ⟨h.1, h.2⟩, fun h => ⟨h.bounded, h.nonempty⟩⟩

theorem checkSomeRefs_eq_ok_iff (maximum : ℕ) (refs : List String) :
    checkSomeRefs field maximum refs = .ok () ↔
      refs ≠ [] ∧ refs.length ≤ maximum ∧ "" ∉ refs := by
  unfold checkSomeRefs
  rw [seq_eq_ok_iff, refuseIf_eq_ok_iff, checkRefs_eq_ok_iff]

theorem mem_mergedRefs {ref : String} {confirmed refs : List String} :
    ref ∈ mergedRefs confirmed refs ↔ ref ∈ confirmed ∨ ref ∈ refs := by
  rw [mergedRefs, List.mem_eraseDups, List.mem_append]

/-! ## Membership -/

structure PhaseFits (phase : Phase) : Prop where
  components : phase.activeComponentIds.length ≤ maxActiveComponents
  allocations : phase.activeAllocationIds.length ≤ maxActiveAllocations
  edges : phase.activeEdgeIds.length ≤ maxActiveEdges

instance (phase : Phase) : Decidable (PhaseFits phase) :=
  decidable_of_iff (phase.activeComponentIds.length ≤ maxActiveComponents ∧
      phase.activeAllocationIds.length ≤ maxActiveAllocations ∧
      phase.activeEdgeIds.length ≤ maxActiveEdges)
    ⟨fun h => ⟨h.1, h.2.1, h.2.2⟩, fun h => ⟨h.components, h.allocations, h.edges⟩⟩

theorem requireUniqueMembership_eq_ok_iff (membership : Membership) :
    requireUniqueMembership membership = .ok () ↔ membership.activeComponentIds.Nodup ∧
      membership.activeAllocationIds.Nodup ∧ membership.activeEdgeIds.Nodup := by
  simp [requireUniqueMembership, seq_eq_ok_iff]

theorem Membership.check_eq_ok_iff (membership : Membership) :
    membership.check = .ok () ↔ membership.phaseId ≠ "" ∧
      (membership.activeComponentIds ≠ [] ∧
        membership.activeComponentIds.length ≤ maxActiveComponents ∧
        "" ∉ membership.activeComponentIds) ∧
      (membership.activeAllocationIds ≠ [] ∧
        membership.activeAllocationIds.length ≤ maxActiveAllocations ∧
        "" ∉ membership.activeAllocationIds) ∧
      membership.activeEdgeIds.length ≤ maxActiveEdges ∧ "" ∉ membership.activeEdgeIds := by
  simp only [Membership.check, seq_eq_ok_iff, checkText_eq_ok_iff, checkSomeRefs_eq_ok_iff,
    checkRefs_eq_ok_iff]

theorem Phase.Admitted.membership_check_iff {phase : Phase} (h : phase.Admitted)
    (phaseRevision : ℕ) :
    ((phase.membership phaseRevision).check = .ok () ∧
        requireUniqueMembership (phase.membership phaseRevision) = .ok ()) ↔ PhaseFits phase := by
  rw [Membership.check_eq_ok_iff, requireUniqueMembership_eq_ok_iff]
  constructor
  · rintro ⟨⟨_, ⟨_, hcomponents, _⟩, ⟨_, hallocations, _⟩, hedges, _⟩, _⟩
    exact ⟨hcomponents, hallocations, hedges⟩
  · intro hfits
    exact ⟨⟨h.phaseId, ⟨h.components.1, hfits.components, h.components.2.1⟩,
      ⟨h.allocations.1, hfits.allocations, h.allocations.2.1⟩, hfits.edges, h.edges.1⟩,
      h.components.2.2, h.allocations.2.2, h.edges.2⟩

/-! ## Events -/

/-- What every event of a phase shares: it continues the history under a control
event and names neither an edge nor a participant crossing. -/
structure RuntimeEvent.OfPhase (event : RuntimeEvent) : Prop where
  eventId : event.eventId ≠ ""
  orderRef : event.orderRef ≠ ""
  kind : event.eventKind = .phaseTransition ∨ event.eventKind = .handoff ∨
    event.eventKind = .failure
  predecessor : ∃ previous, event.predecessorEventId = some previous ∧ previous ≠ ""
  allocation : event.allocationId = none
  component : ∀ id ∈ event.componentId, id ≠ "" ∧ event.eventKind ≠ .failure
  edge : event.edgeId = none
  control : ∃ ref, event.controlEventRef = some ref ∧ ref ≠ ""
  crossing : event.crossingEventRef = none
  policy : event.policyDecisionRef = none
  mapping : event.mappingRef = none
  losses : event.mappingLossRefs = []

theorem checkOptionalText_eq_ok_iff (value : Option String) :
    checkOptionalText field value = .ok () ↔ ∀ text ∈ value, text ≠ "" := by
  cases value with
  | none => simp [checkOptionalText]
  | some text => simp [checkOptionalText]

theorem RuntimeEvent.OfPhase.validators {event : RuntimeEvent} (h : event.OfPhase) :
    requireEventPosition event = .ok () ∧ requireCoordinationIdentity event = .ok () ∧
      requireMappingIdentity event = .ok () := by
  obtain ⟨previous, hprevious, _⟩ := h.predecessor
  have hinitial : event.eventKind ≠ .phaseActivated := by
    rcases h.kind with hkind | hkind | hkind <;> simp [hkind]
  have hweakening : event.eventKind ≠ .weakening := by
    rcases h.kind with hkind | hkind | hkind <;> simp [hkind]
  have haction : event.eventKind ∉ actionFactKinds := by
    rcases h.kind with hkind | hkind | hkind <;> simp [hkind, actionFactKinds]
  have hlifecycle : event.eventKind ∉ lifecycleFactKinds := by
    rcases h.kind with hkind | hkind | hkind <;> simp [hkind, lifecycleFactKinds]
  have hnames : ¬ event.NamesAction := by
    simp [RuntimeEvent.NamesAction, h.crossing, h.policy]
  refine ⟨?_, ?_, ?_⟩
  · simp [requireEventPosition, seq_eq_ok_iff, hinitial, hprevious]
  · unfold requireCoordinationIdentity
    rw [seq_eq_ok_iff, if_neg hlifecycle, refuseIf_eq_ok_iff]
    refine ⟨fun hmem => haction hmem.1, ?_⟩
    by_cases hfailure : event.eventKind = .failure
    · have hcomponent : event.componentId = none := by
        cases hc : event.componentId with
        | none => rfl
        | some id => exact absurd hfailure (h.component id hc).2
      rw [if_pos hfailure]
      simp [requireFailureCoordinates, seq_eq_ok_iff, hnames, h.allocation, hcomponent]
    · rw [if_neg hfailure]
  · simp [requireMappingIdentity, seq_eq_ok_iff, h.edge, h.mapping, h.losses, hweakening]

/-- An event of a phase is accepted when its membership and its lists of
references are. -/
theorem RuntimeEvent.OfPhase.check_iff {event : RuntimeEvent} (h : event.OfPhase)
    (hrun : event.run.check = .ok ()) :
    event.check = .ok () ↔
      (event.membership.check = .ok () ∧ requireUniqueMembership event.membership = .ok ()) ∧
        RefsFit event.evidenceRefs ∧ RefsFit event.provenanceRefs := by
  obtain ⟨previous, hprevious, hpreviousText⟩ := h.predecessor
  obtain ⟨control, hcontrol, hcontrolText⟩ := h.control
  obtain ⟨hposition, hcoordination, hmapping⟩ := h.validators
  have hcomponent : ∀ id ∈ event.componentId, id ≠ "" := fun id hid => (h.component id hid).1
  simp only [RuntimeEvent.check, RuntimeEvent.checkFields, seq_eq_ok_iff,
    checkText_eq_ok_iff, checkOptionalText_eq_ok_iff, checkEventRefs_eq_ok_iff, hrun, hposition,
    hcoordination, hmapping, hprevious, hcontrol, h.allocation, h.edge, h.crossing, h.policy,
    h.mapping, h.losses, true_and, and_true]
  constructor
  · rintro ⟨⟨_, hmembership, _, _, _, _, _, _, _, _, _, _, hevidence, hprovenance⟩, hunique⟩
    exact ⟨⟨hmembership, hunique⟩, hevidence, hprovenance⟩
  · rintro ⟨⟨hmembership, hunique⟩, hevidence, hprovenance⟩
    refine ⟨⟨h.eventId, hmembership, ?_, ?_, hcomponent, ?_, ?_, ?_, ?_, ?_, h.orderRef, ?_,
      hevidence, hprovenance⟩, hunique⟩
    · simpa using hpreviousText
    · simp
    · simp
    · simpa using hcontrolText
    · simp
    · simp
    · simp
    · exact ⟨by simp [maxEventRefs], by simp⟩

end Raes.Mixed

/-!
# Confirmed handoffs

What the resolution of a handoff records, and that it succeeds only on evidence
that correlates with the call and on a readback of the destination owner.
-/

namespace Raes.Mixed

open Store (OperationState)
open Time (TimeRuntimeState)

def terminalStates : List OperationState := [.succeeded, .failed, .cancelled, .indeterminate]

/-- What every resolution gives the events of a phase. -/
structure HandoffResolution.Recorded (resolution : HandoffResolution) : Prop where
  orderRef : resolution.orderRef ≠ ""
  refs : "" ∉ resolution.evidenceRefs
  terminal : resolution.state ∈ terminalStates
  destination : ∀ id ∈ resolution.destinationComponentId, id ≠ ""

theorem mergedRefs_nonempty {confirmed refs : List String} (hconfirmed : "" ∉ confirmed)
    (hrefs : "" ∉ refs) : "" ∉ mergedRefs confirmed refs := by
  rw [mem_mergedRefs]
  rintro (h | h)
  · exact hconfirmed h
  · exact hrefs h

section Native

variable {installed : HandoffBinding} {transition : Transition} {state : RuntimeState}
variable {operationId : String} {committedTime : Option TimeRuntimeState}
variable {services : HandoffServices}

theorem requestHandoffGrant_check {timeState : TimeRuntimeState} {grant : TimeGrant}
    (h : requestHandoffGrant installed transition operationId committedTime services =
      .returned (timeState, grant)) : grant.check = .ok () := by
  unfold requestHandoffGrant at h
  simp only [Answer.bind_eq_returned_iff, Answer.validated_eq_returned_iff] at h
  obtain ⟨_, _, _, _, _, _, grant', ⟨_, hcheck⟩, _, _, hpair⟩ := h
  cases hpair
  exact hcheck

variable {grant : TimeGrant}

theorem TimeGrant.check_refs (h : grant.check = .ok ()) :
    grant.orderRef ≠ "" ∧ "" ∉ (grantedProgress grant).confirmedRefs := by
  unfold TimeGrant.check at h
  simp only [seq_eq_ok_iff, checkText_eq_ok_iff, checkSomeRefs_eq_ok_iff] at h
  obtain ⟨_, _, _, horder, ⟨_, _, hmapping⟩, _, _, htiming⟩ := h
  exact ⟨horder, mergedRefs_nonempty hmapping htiming⟩

theorem HandoffEvidence.check_refs {evidence : HandoffEvidence} (h : evidence.check = .ok ()) :
    evidence.orderRef ≠ "" ∧ "" ∉ evidence.evidenceRefs := by
  unfold HandoffEvidence.check at h
  simp only [seq_eq_ok_iff, checkText_eq_ok_iff, checkRefs_eq_ok_iff] at h
  obtain ⟨_, _, _, _, _, horder, _, hrefs⟩ := h
  exact ⟨horder, hrefs⟩

theorem HandoffReadback.check_refs {readback : HandoffReadback} (h : readback.check = .ok ()) :
    "" ∉ readback.evidenceRefs := by
  unfold HandoffReadback.check at h
  simp only [seq_eq_ok_iff, checkText_eq_ok_iff, checkSomeRefs_eq_ok_iff] at h
  exact h.2.2.2.2.2

/-- Where the progress of a stage comes from. -/
structure HandoffProgress.Sound (installed : HandoffBinding) (transition : Transition)
    (state : RuntimeState) (operationId : String) (services : HandoffServices) (grant : TimeGrant)
    (progress : HandoffProgress) : Prop where
  refs : "" ∉ progress.confirmedRefs
  evidence : ∀ evidence ∈ progress.evidence, services.invoke = .returned evidence ∧
    evidence.check = .ok () ∧
    progress.correlated =
      handoffEvidenceCorrelated installed transition state operationId grant evidence
  readback : ∀ readback ∈ progress.readback, services.readback = .returned readback

variable {progress : HandoffProgress}

theorem recordEvidence_sound {evidence : HandoffEvidence} (hrefs : "" ∉ progress.confirmedRefs)
    (hreadback : progress.readback = none) (hreturned : services.invoke = .returned evidence)
    (hcheck : evidence.check = .ok ()) :
    (recordEvidence installed transition state operationId grant progress evidence).Sound
      installed transition state operationId services grant where
  refs := by
    show "" ∉ ite _ _ _
    split
    · exact mergedRefs_nonempty hrefs (HandoffEvidence.check_refs hcheck).2
    · exact hrefs
  evidence := by
    intro evidence' hsame
    cases hsame
    exact ⟨hreturned, hcheck, rfl⟩
  readback := by
    intro readback hsome
    have hnone : some readback = none := hsome.symm.trans hreadback
    cases hnone

theorem recordReadback_sound {readback : HandoffReadback}
    (h : progress.Sound installed transition state operationId services grant)
    (hreturned : services.readback = .returned readback) (hcheck : readback.check = .ok ()) :
    (recordReadback operationId progress readback).Sound installed transition state operationId
      services grant where
  refs := by
    show "" ∉ ite _ _ _
    split
    · exact mergedRefs_nonempty h.refs (HandoffReadback.check_refs hcheck)
    · exact h.refs
  evidence := h.evidence
  readback := by
    intro readback' hsame
    cases hsame
    exact hreturned

theorem invokeHandoffStage_sound (timeState : TimeRuntimeState) {grant : TimeGrant}
    (hgrant : "" ∉ (grantedProgress grant).confirmedRefs) :
    (invokeHandoffStage installed transition state operationId committedTime services timeState
      grant (grantedProgress grant)).2.Sound installed transition state operationId services
        grant := by
  have hstart : (grantedProgress grant).Sound installed transition state operationId services
      grant := ⟨hgrant, fun _ h => (nomatch h), fun _ h => (nomatch h)⟩
  unfold invokeHandoffStage
  cases hinvoke : services.invoke.validated HandoffEvidence.check with
  | raised error => exact hstart
  | interrupted => exact hstart
  | returned evidence =>
    obtain ⟨hreturned, hcheck⟩ := Answer.validated_eq_returned_iff.mp hinvoke
    have hevidenced : (recordEvidence installed transition state operationId grant
        (grantedProgress grant) evidence).Sound installed transition state operationId services
          grant :=
      recordEvidence_sound hgrant rfl hreturned hcheck
    cases hreadback : services.readback.validated HandoffReadback.check with
    | raised error => exact hevidenced
    | interrupted => exact hevidenced
    | returned readback =>
      obtain ⟨hread, hreadCheck⟩ := Answer.validated_eq_returned_iff.mp hreadback
      exact recordReadback_sound hevidenced hread hreadCheck

/-- The handoff is confirmed: the coordinator granted the order, the transfer
service gave committed evidence that correlates with the call and cites what the
transition requires, and the readback shows the destination owner. -/
structure NativeConfirmed (installed : HandoffBinding) (transition : Transition)
    (state : RuntimeState) (operationId : String) (committedTime : Option TimeRuntimeState)
    (services : HandoffServices) : Prop where
  evidence : ∃ timeState grant evidence,
    requestHandoffGrant installed transition operationId committedTime services =
      .returned (timeState, grant) ∧
    services.invoke = .returned evidence ∧ evidence.status = .committed ∧
    handoffEvidenceCorrelated installed transition state operationId grant evidence = true
  readback : ∃ readback, services.readback = .returned readback ∧
    readback.operationId = operationId ∧ Transferred installed state readback

theorem correlatedOutcome_recorded {evidence : HandoffEvidence}
    (readback : HandoffReadback) (hrefs : "" ∉ progress.confirmedRefs)
    (horder : evidence.orderRef ≠ "") :
    (correlatedOutcome installed state progress evidence readback).Recorded := by
  unfold correlatedOutcome
  cases evidence.status with
  | committed =>
    by_cases h : Transferred installed state readback
    · simp only [if_pos h]
      refine ⟨horder, hrefs, by simp [terminalStates], ?_⟩
      intro id hid
      cases hid
      exact installed.destination_nonempty
    · simp only [if_neg h]
      exact ⟨horder, hrefs, by simp [terminalStates], fun id hid => nomatch hid⟩
  | failed =>
    refine ⟨horder, hrefs, ?_, fun id hid => nomatch hid⟩
    by_cases h : Retained installed state readback <;> simp [h, terminalStates]
  | stale =>
    refine ⟨horder, hrefs, ?_, fun id hid => nomatch hid⟩
    by_cases h : Retained installed state readback <;> simp [h, terminalStates]
  | pending => exact ⟨horder, hrefs, by simp [terminalStates], fun id hid => nomatch hid⟩
  | unknown => exact ⟨horder, hrefs, by simp [terminalStates], fun id hid => nomatch hid⟩

theorem indeterminate_recorded {orderRef : String} {refs : List String} (horder : orderRef ≠ "")
    (hrefs : "" ∉ refs) :
    (⟨.indeterminate, orderRef, refs, none⟩ : HandoffResolution).Recorded :=
  ⟨horder, hrefs, by simp [terminalStates], fun id hid => nomatch hid⟩

theorem handoffStageOutcome_recorded (horder : grant.orderRef ≠ "")
    (h : progress.Sound installed transition state operationId services grant) :
    (handoffStageOutcome installed state operationId grant progress).Recorded := by
  unfold handoffStageOutcome
  split
  · rename_i evidence readback hevidence hreadback
    split
    · exact correlatedOutcome_recorded readback h.refs
        (HandoffEvidence.check_refs (h.evidence evidence hevidence).2.1).1
    · exact indeterminate_recorded horder h.refs
  · exact indeterminate_recorded horder h.refs

theorem resolveInstalledHandoff_recorded {resolution : HandoffResolution}
    (h : resolveInstalledHandoff installed transition state operationId committedTime services =
      .returned resolution) : resolution.Recorded := by
  unfold resolveInstalledHandoff at h
  split at h
  · cases h
    exact ⟨by simp, by simp, by simp [terminalStates], fun id hid => nomatch hid⟩
  · cases h
  · rename_i timeState grant hgrant
    obtain ⟨horder, hrefs⟩ := TimeGrant.check_refs (requestHandoffGrant_check hgrant)
    have hsound := @invokeHandoffStage_sound installed transition state operationId committedTime
      services timeState grant hrefs
    split at h
    · rename_i progress hstage
      rw [hstage] at hsound
      cases h
      exact indeterminate_recorded horder hsound.refs
    · cases h
    · rename_i progress hstage
      rw [hstage] at hsound
      cases h
      exact handoffStageOutcome_recorded horder hsound

theorem handoffStageOutcome_succeeded
    (h : progress.Sound installed transition state operationId services grant)
    (hsucceeded : (handoffStageOutcome installed state operationId grant progress).state =
      .succeeded) :
    (∃ evidence, services.invoke = .returned evidence ∧ evidence.status = .committed ∧
      handoffEvidenceCorrelated installed transition state operationId grant evidence = true) ∧
    ∃ readback, services.readback = .returned readback ∧ readback.operationId = operationId ∧
      Transferred installed state readback := by
  unfold handoffStageOutcome at hsucceeded
  split at hsucceeded
  · rename_i evidence readback hevidence hreadback
    obtain ⟨hreturned, _, hcorrelated⟩ := h.evidence evidence hevidence
    split at hsucceeded
    · rename_i hmatch
      have hcommitted : evidence.status = .committed ∧ Transferred installed state readback := by
        unfold correlatedOutcome at hsucceeded
        cases hstatus : evidence.status with
        | committed =>
          rw [hstatus] at hsucceeded
          by_cases htransferred : Transferred installed state readback
          · exact ⟨rfl, htransferred⟩
          · simp [htransferred] at hsucceeded
        | failed =>
          rw [hstatus] at hsucceeded
          by_cases hretained : Retained installed state readback <;> simp [hretained] at hsucceeded
        | stale =>
          rw [hstatus] at hsucceeded
          by_cases hretained : Retained installed state readback <;> simp [hretained] at hsucceeded
        | pending => simp [hstatus] at hsucceeded
        | unknown => simp [hstatus] at hsucceeded
      exact ⟨⟨evidence, hreturned, hcommitted.1, hcorrelated ▸ hmatch.1⟩,
        readback, h.readback readback hreadback, hmatch.2, hcommitted.2⟩
    · cases hsucceeded
  · cases hsucceeded

theorem resolveInstalledHandoff_confirmed {resolution : HandoffResolution}
    (h : resolveInstalledHandoff installed transition state operationId committedTime services =
      .returned resolution) (hsucceeded : resolution.state = .succeeded) :
    NativeConfirmed installed transition state operationId committedTime services := by
  unfold resolveInstalledHandoff at h
  split at h
  · cases h
    cases hsucceeded
  · cases h
  · rename_i timeState grant hgrant
    obtain ⟨_, hrefs⟩ := TimeGrant.check_refs (requestHandoffGrant_check hgrant)
    have hsound := @invokeHandoffStage_sound installed transition state operationId committedTime
      services timeState grant hrefs
    split at h
    · cases h
      cases hsucceeded
    · cases h
    · rename_i progress hstage
      rw [hstage] at hsound
      cases h
      obtain ⟨⟨evidence, hreturned, hstatus, hcorrelated⟩, hreadback⟩ :=
        handoffStageOutcome_succeeded hsound hsucceeded
      exact ⟨⟨timeState, grant, evidence, hgrant, hreturned, hstatus, hcorrelated⟩, hreadback⟩

end Native

section Portable

variable {subject : PortableSubject} {composition : RuntimeState}

/-- The retained reports confirm the handoff: a committed transfer that cites
what the subject requires, and a readback of the destination owner. -/
structure PortableConfirmed (services : PortableServices subject composition) : Prop where
  reports : ∃ invocation stage owner, services.run = .returned invocation ∧
    invocation.reports.handoff = some stage ∧ invocation.reports.readback = some owner ∧
    stage.status = .committed ∧ (∀ ref ∈ subject.requiredRefs, ref ∈ stage.evidenceRefs) ∧
    (owner.ownerComponentId, owner.ownerRef, owner.phaseRevision) =
      (subject.destinationComponentId, subject.destinationOwnerRef,
        composition.membership.phaseRevision + 1)

variable (reports : StageReports subject composition)

theorem StageReports.handoffState_terminal
    (timeConfirmed : Bool) : reports.handoffState timeConfirmed ∈ terminalStates := by
  unfold StageReports.handoffState
  repeat' split
  all_goals simp [terminalStates]

theorem PortableInvocation.state_terminal (invocation : PortableInvocation subject composition) :
    invocation.state ∈ terminalStates := by
  unfold PortableInvocation.state
  split
  · split <;> simp [terminalStates]
  · simp [terminalStates]
  · simp [terminalStates]
  · split <;> simp [terminalStates]
  · split
    · simp [terminalStates]
    · exact invocation.reports.handoffState_terminal _

theorem StageReports.refs_nonempty : "" ∉ reports.refs := by
  obtain ⟨_, hhandoff, hreadback⟩ := reports.identified
  refine mergedRefs_nonempty ?_ ?_
  · cases hstage : reports.handoff with
    | none => simp
    | some stage => exact hhandoff stage hstage
  · cases howner : reports.readback with
    | none => simp
    | some owner => exact hreadback owner howner

theorem portableHandoffResolution_recorded {outcome : OperationState}
    (h : outcome ∈ terminalStates) : (portableHandoffResolution reports outcome).Recorded where
  orderRef := by
    show (reports.grant.map TimeGrantStage.orderRef).getD "order:handoff-refused" ≠ ""
    cases hgrant : reports.grant with
    | none => simp
    | some granted => exact reports.identified.1 granted hgrant
  refs := reports.refs_nonempty
  terminal := h
  destination := by
    intro id hid
    have hsome : (if outcome = .succeeded then some subject.destinationComponentId else none) =
      some id := hid
    split at hsome
    · cases hsome
      exact subject.destination_nonempty
    · cases hsome

theorem resolvePortableHandoff_recorded {services : PortableServices subject composition}
    {permitted : Bool} {resolution : HandoffResolution}
    (h : resolvePortableHandoff services permitted = .returned resolution) :
    resolution.Recorded := by
  unfold resolvePortableHandoff at h
  split at h
  · obtain ⟨invocation, _, hresolution⟩ := Answer.bind_eq_returned_iff.mp h
    cases hresolution
    exact portableHandoffResolution_recorded _ invocation.state_terminal
  · cases h
    refine portableHandoffResolution_recorded _ ?_
    split <;> simp [terminalStates]

theorem StageReports.handoffState_succeeded {reports : StageReports subject composition}
    {timeConfirmed : Bool} (h : reports.handoffState timeConfirmed = .succeeded) :
    ∃ stage owner, reports.handoff = some stage ∧ reports.readback = some owner ∧
      stage.status = .committed ∧ (∀ ref ∈ subject.requiredRefs, ref ∈ stage.evidenceRefs) ∧
      (owner.ownerComponentId, owner.ownerRef, owner.phaseRevision) =
        (subject.destinationComponentId, subject.destinationOwnerRef,
          composition.membership.phaseRevision + 1) := by
  unfold StageReports.handoffState at h
  split at h
  · split at h <;> cases h
  · rename_i stage hstage
    split at h
    · cases h
    · rename_i owner howner
      obtain ⟨_, _, _, _, _, hrevision, hrequired⟩ := reports.handoff_follows stage hstage
      split at h
      · cases h
      · split at h
        · rename_i hcommitted
          rw [hrevision] at hcommitted
          exact ⟨stage, owner, hstage, howner, hcommitted.1, hrequired, hcommitted.2⟩
        · split at h <;> cases h

theorem resolvePortableHandoff_confirmed {services : PortableServices subject composition}
    {permitted : Bool} {resolution : HandoffResolution}
    (h : resolvePortableHandoff services permitted = .returned resolution)
    (hsucceeded : resolution.state = .succeeded) : PortableConfirmed services := by
  unfold resolvePortableHandoff at h
  split at h
  · obtain ⟨invocation, hrun, hresolution⟩ := Answer.bind_eq_returned_iff.mp h
    cases hresolution
    have hstate : invocation.state = .succeeded := hsucceeded
    unfold PortableInvocation.state at hstate
    split at hstate
    · split at hstate <;> cases hstate
    · cases hstate
    · cases hstate
    · split at hstate <;> cases hstate
    · split at hstate
      · cases hstate
      · obtain ⟨stage, owner, hstage, howner, hrest⟩ :=
          StageReports.handoffState_succeeded hstate
        exact ⟨⟨invocation, stage, owner, hrun, hstage, howner, hrest⟩⟩
  · cases h
    have hstate : (if services.uncertain = true then OperationState.indeterminate else .failed) =
      .succeeded := hsucceeded
    split at hstate <;> cases hstate

end Portable

end Raes.Mixed
