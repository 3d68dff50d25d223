import Raes.Lib.ExceptList
import Raes.Store.InjectClaims

/-!
# Keeping a claim history

What may happen to records that replay as one admitted history so that they
still do: a record is replaced by a later version of its operation, or a record
without an occurrence is added whose delivery is checked.
-/

namespace Raes.Store

open PyError

variable {rules : ContractRules}

/-- Everything of a record that a later history check reads is kept, except the
control event that it may have produced. -/
structure KeepsClaims (before after : ControlPlaneOperationRecord) : Prop where
  operationId : after.operationId = before.operationId
  context : after.receipt.context = before.receipt.context
  occurrence : after.injectOccurrence = before.injectOccurrence
  delivery : after.injectDelivery = before.injectDelivery
  outcome : ∀ outcome, before.injectOutcome = some outcome → after.injectOutcome = some outcome
  invocation : ∀ ledger, before.invocation = some ledger →
    ∃ later, after.invocation = some later ∧ later.request = ledger.request

theorem KeepsClaims.refl (record : ControlPlaneOperationRecord) : KeepsClaims record record :=
  ⟨rfl, rfl, rfl, rfl, fun _ h => h, fun ledger h => ⟨ledger, h, rfl⟩⟩

theorem KeepsClaims.trans {a b c : ControlPlaneOperationRecord} (h : KeepsClaims a b)
    (h' : KeepsClaims b c) : KeepsClaims a c where
  operationId := h'.operationId.trans h.operationId
  context := h'.context.trans h.context
  occurrence := h'.occurrence.trans h.occurrence
  delivery := h'.delivery.trans h.delivery
  outcome := fun outcome ha => h'.outcome outcome (h.outcome outcome ha)
  invocation := by
    intro ledger ha
    obtain ⟨middle, hmiddle, hfirst⟩ := h.invocation ledger ha
    obtain ⟨later, hlater, hsecond⟩ := h'.invocation middle hmiddle
    exact ⟨later, hlater, hsecond.trans hfirst⟩

theorem requireInvocationTransition_ok {prior replacement : Option InvocationLedger}
    (h : requireInvocationTransition prior replacement = .ok ()) :
    ∀ ledger, prior = some ledger →
      ∃ later, replacement = some later ∧ later.request = ledger.request := by
  intro ledger hprior
  subst hprior
  cases replacement with
  | none => cases h
  | some later =>
    unfold requireInvocationTransition requireImmutableInvocationBinding at h
    simp only [seq_eq_ok_iff, refuseIf_eq_ok_iff, not_or, not_not] at h
    exact ⟨later, rfl, h.1.1.1.symm⟩

theorem keepsClaims_of_sameIdentity {existing replacement : ControlPlaneOperationRecord}
    (h : requireSameOperationIdentity rules existing replacement = .ok ()) :
    KeepsClaims existing replacement := by
  obtain ⟨_, _, hinvocation, hinject, hsame⟩ := requireSameOperationIdentity_ok h
  refine ⟨?_, ?_, hsame.occurrence.symm, hsame.delivery.symm, ?_,
    requireInvocationTransition_ok hinvocation⟩
  · show replacement.receipt.operationId = existing.receipt.operationId
    rw [hsame.receipt]
  · rw [hsame.receipt]
  · intro outcome houtcome
    unfold requireInjectTransition at hinject
    simp only [seq_eq_ok_iff, refuseIf_eq_ok_iff, not_and, not_not] at hinject
    rw [← hinject.2.1 (by rw [houtcome]; rfl), houtcome]

/-! ## Versions of a list of records -/

abbrev Versions := List.Forall₂ KeepsClaims

variable {before after : List ControlPlaneOperationRecord}

theorem Versions.occurrences (h : Versions before after) :
    occurrences after = occurrences before := by
  unfold Store.occurrences
  induction h with
  | nil => rfl
  | cons hhead htail ih => rw [List.filterMap_cons, List.filterMap_cons, hhead.occurrence, ih]

theorem Versions.worldPairs (h : Versions before after) : worldPairs after = worldPairs before := by
  unfold Store.worldPairs
  induction h with
  | nil => rfl
  | cons hhead htail ih => rw [List.filterMap_cons, List.filterMap_cons, hhead.delivery, ih]

theorem Versions.controlPairs (h : Versions before after) :
    controlPairs after = controlPairs before := by
  unfold Store.controlPairs
  induction h with
  | nil => rfl
  | cons hhead htail ih => rw [List.filterMap_cons, List.filterMap_cons, hhead.delivery, ih]

theorem Versions.operationIds (h : Versions before after) :
    after.map ControlPlaneOperationRecord.operationId =
      before.map ControlPlaneOperationRecord.operationId := by
  induction h with
  | nil => rfl
  | cons hhead htail ih => rw [List.map_cons, List.map_cons, hhead.operationId, ih]

variable {record : ControlPlaneOperationRecord}

theorem Versions.exists_before (h : Versions before after)
    (hrecord : record ∈ after) : ∃ old ∈ before, KeepsClaims old record :=
  exists_left_of_forall₂ h hrecord

theorem Versions.exists_after (h : Versions before after)
    (hrecord : record ∈ before) : ∃ new ∈ after, KeepsClaims record new :=
  exists_left_of_forall₂ (R := flip KeepsClaims) (List.Forall₂.flip h) hrecord

theorem DeliveryPredecessor.keeps {world world' record record' : ControlPlaneOperationRecord}
    {content : ParticipantInjectContent} (hworld : KeepsClaims world world')
    (hrecord : KeepsClaims record record') (h : DeliveryPredecessor rules world record content) :
    DeliveryPredecessor rules world' record' content := by
  obtain ⟨outcome, ledger, houtcome, hledger, hcorrelation, htarget, hrun⟩ := h
  obtain ⟨later, hlater, hrequest⟩ := hworld.invocation ledger hledger
  refine ⟨outcome, later, hworld.outcome outcome houtcome, hlater, ?_, ?_, ?_⟩
  · rw [hworld.occurrence, hrequest]
    exact hcorrelation
  · rw [hworld.context, hrecord.context]
    exact htarget
  · rw [hworld.context, hrecord.context]
    exact hrun

def deliveredEvents (records : List ControlPlaneOperationRecord) : List String :=
  (controlPairs records).map Prod.fst

theorem mem_deliveredEvents {records : List ControlPlaneOperationRecord}
    {content : ParticipantInjectContent}
    {control : ParticipantInjectControlReference} (hrecord : record ∈ records)
    (hcontent : record.injectDelivery = some content)
    (hcontrol : content.application.control = some control) :
    control.eventId ∈ deliveredEvents records := by
  unfold deliveredEvents controlPairs
  rw [List.mem_map]
  refine ⟨(control.eventId, content.application.deliveryAddress), ?_, rfl⟩
  rw [List.mem_filterMap]
  refine ⟨record, hrecord, ?_⟩
  rw [hcontent]
  show controlPair content = _
  unfold controlPair
  rw [hcontrol]
  rfl

def KeepsControls (before after : List ControlPlaneOperationRecord) : Prop :=
  ∀ eventId ∈ deliveredEvents before, before.any (acceptsControl eventId) = true →
    after.any (acceptsControl eventId) = true

theorem DeliveryClaims.versions (h : DeliveryClaims rules before) (hids : DistinctIds before)
    (hversions : Versions before after) (hcontrols : KeepsControls before after) :
    DeliveryClaims rules after where
  predecessor := by
    intro record hrecord content hcontent
    obtain ⟨old, hold, hkeeps⟩ := hversions.exists_before hrecord
    rw [hkeeps.delivery] at hcontent
    obtain ⟨world, hworld, hpredecessor⟩ := h.predecessor old hold content hcontent
    obtain ⟨hmem, hid⟩ := (recordById_eq_some_iff hids _ _).1 hworld
    obtain ⟨world', hmem', hkeepsWorld⟩ := hversions.exists_after hmem
    have hids' : DistinctIds after := by
      unfold DistinctIds
      rw [hversions.operationIds]
      exact hids
    refine ⟨world', ?_, hpredecessor.keeps hkeepsWorld hkeeps⟩
    rw [recordById_eq_some_iff hids']
    exact ⟨hmem', hkeepsWorld.operationId.trans hid⟩
  control := by
    intro record hrecord content hcontent control hcontrol
    obtain ⟨old, hold, hkeeps⟩ := hversions.exists_before hrecord
    rw [hkeeps.delivery] at hcontent
    have hproduced : before.any (acceptsControl control.eventId) = true :=
      List.any_eq_true.mpr (h.control old hold content hcontent control hcontrol)
    exact List.any_eq_true.mp
      (hcontrols control.eventId (mem_deliveredEvents hold hcontent hcontrol) hproduced)
  worlds := by
    rw [hversions.worldPairs]
    exact h.worlds
  controls := by
    rw [hversions.controlPairs]
    exact h.controls

theorem ClaimHistory.versions (h : ClaimHistory rules before) (hids : DistinctIds before)
    (hversions : Versions before after) (hcontrols : KeepsControls before after) :
    ClaimHistory rules after where
  deliveries := h.deliveries.versions hids hversions hcontrols
  unique := by
    rw [hversions.occurrences]
    exact h.unique
  chain := by
    have hordered : orderedClaims after = orderedClaims before := by
      unfold orderedClaims
      exact congrArg (List.insertionSort _) hversions.occurrences
    rw [hordered]
    exact h.chain

/-! ## A new record -/

theorem DeliveryClaims.append (h : DeliveryClaims rules before)
    (hdelivery : record.injectDelivery = none)
    (hids : DistinctIds (before ++ [record])) : DeliveryClaims rules (before ++ [record]) := by
  have hbefore : DistinctIds before := by
    unfold DistinctIds at hids ⊢
    rw [List.map_append] at hids
    exact hids.of_append_left
  have hcarries : ∀ item ∈ before ++ [record], ∀ content,
      item.injectDelivery = some content → item ∈ before := by
    intro item hitem content hcontent
    rcases List.mem_append.mp hitem with hold | hnew
    · exact hold
    · rw [List.mem_singleton.mp hnew, hdelivery] at hcontent
      cases hcontent
  refine ⟨?_, ?_, ?_, ?_⟩
  · intro item hitem content hcontent
    obtain ⟨world, hworld, hpredecessor⟩ :=
      h.predecessor item (hcarries item hitem content hcontent) content hcontent
    obtain ⟨hmem, hid⟩ := (recordById_eq_some_iff hbefore _ _).1 hworld
    refine ⟨world, ?_, hpredecessor⟩
    rw [recordById_eq_some_iff hids]
    exact ⟨List.mem_append_left _ hmem, hid⟩
  · intro item hitem content hcontent control hcontrol
    obtain ⟨candidate, hmem, haccepts⟩ :=
      h.control item (hcarries item hitem content hcontent) content hcontent control hcontrol
    exact ⟨candidate, List.mem_append_left _ hmem, haccepts⟩
  · unfold Store.worldPairs
    rw [List.filterMap_append, List.filterMap_cons_none (by rw [hdelivery]; rfl),
      List.filterMap_nil, List.append_nil]
    exact h.worlds
  · unfold Store.controlPairs
    rw [List.filterMap_append, List.filterMap_cons_none (by rw [hdelivery]; rfl),
      List.filterMap_nil, List.append_nil]
    exact h.controls

theorem ClaimHistory.append (h : ClaimHistory rules before)
    (hoccurrence : record.injectOccurrence = none)
    (hdeliveries : DeliveryClaims rules (before ++ [record])) :
    ClaimHistory rules (before ++ [record]) := by
  have hclaims : (before ++ [record]).filterMap ControlPlaneOperationRecord.injectOccurrence =
      before.filterMap ControlPlaneOperationRecord.injectOccurrence := by
    rw [List.filterMap_append, List.filterMap_cons_none hoccurrence, List.filterMap_nil,
      List.append_nil]
  refine ⟨hdeliveries, ?_, ?_⟩
  · unfold Store.occurrences
    rw [hclaims]
    exact h.unique
  · unfold orderedClaims
    rw [hclaims]
    exact h.chain

theorem requireInjectClaim_ok_iff (rules : ContractRules) (record : ControlPlaneOperationRecord)
    (existing : List ControlPlaneOperationRecord) (revision : ℤ) :
    requireInjectClaim rules record existing revision = .ok () ↔
      (∃ item ∈ existing, item.operationId = record.operationId) ∨
        ((∀ item ∈ existing, item.operationId ≠ record.operationId) ∧
          DeliveryClaims rules (existing ++ [record]) ∧
          ∀ occurrence, record.injectOccurrence = some occurrence →
            occurrence.storeRevision = toString revision ∧
              ClaimHistory rules (existing ++ [record])) := by
  unfold requireInjectClaim
  by_cases hknown : ∃ item ∈ existing, item.operationId = record.operationId
  · have hany : (existing.any fun item => item.operationId = record.operationId) = true := by
      simpa using hknown
    rw [if_pos hany]
    exact ⟨fun _ => Or.inl hknown, fun _ => rfl⟩
  · have hany : ¬ (existing.any fun item => item.operationId = record.operationId) = true := by
      simpa using hknown
    have hnew : ∀ item ∈ existing, item.operationId ≠ record.operationId :=
      fun item hitem hsame => hknown ⟨item, hitem, hsame⟩
    rw [if_neg hany, or_iff_right hknown]
    simp only [seq_eq_ok_iff, requireDeliveryClaims_ok_iff]
    cases record.injectOccurrence with
    | none =>
      simp only [reduceCtorEq, false_implies, implies_true, and_true]
      exact ⟨fun h => ⟨hnew, h.1⟩, fun h => ⟨h.2, rfl⟩⟩
    | some occurrence =>
      simp only [seq_eq_ok_iff, refuseIf_eq_ok_iff, not_not, requireInjectHistory,
        requireClaimHistory_ok_iff, Option.some.injEq, forall_eq']
      exact ⟨fun h => ⟨hnew, h⟩, fun h => h.2⟩

end Raes.Store
