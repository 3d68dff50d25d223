import Raes.Store.Record

/-!
# Record identity and transition rules

`control_plane_store_transitions.py`, with the record checks that it calls in
`operation_invocation_ledger.py` and `inject_claims.py`.  Every store applies
these rules to each record that it is about to keep.
-/

namespace Raes.Store

open PyError

variable (rules : ContractRules)

def requireRecordInvocation (record : ControlPlaneOperationRecord) : Except PyError Unit := do
  match record.invocation with
  | none => return ()
  | some ledger =>
    rules.ledger ledger
    refuseIf (ledger.request.operationId ≠ record.receipt.operationId ∨
        ledger.request.context ≠ record.receipt.context)
      (immutableValueError "invocation does not match immutable operation authority")
    refuseIf (record.status.state = .accepted ∧ ledger.consumed = true)
      (valueError "accepted operation cannot carry a consumed grant")
    refuseIf (record.status.state = .running ∧ ledger.consumed = false)
      (valueError "running supervised operation requires a consumed grant")

def requireImmutableDeliveryBinding (prior replacement : InvocationLedger) :
    Except PyError Unit := do
  refuseIf (prior.delivery.isSome ∧ prior.delivery ≠ replacement.delivery)
    (immutableValueError "engine delivery binding is immutable")
  refuseIf (prior.consumed = true ∧ prior.delivery ≠ replacement.delivery)
    (valueError "consumed invocation cannot acquire another delivery binding")

def requireImmutableInvocationBinding (prior replacement : InvocationLedger) :
    Except PyError Unit := do
  refuseIf (prior.request ≠ replacement.request ∨ prior.native ≠ replacement.native)
    (immutableValueError "invocation binding and command commitment are immutable")
  refuseIf (prior.mixedBinding ≠ replacement.mixedBinding ∨
      prior.mixedTimeState ≠ replacement.mixedTimeState ∨
      prior.mixedCompositionState ≠ replacement.mixedCompositionState)
    (immutableValueError "mixed invocation cut is immutable")
  refuseIf (prior.mixedPostTimeState.isSome ∧
      replacement.mixedPostTimeState ≠ prior.mixedPostTimeState)
    (immutableValueError "mixed post-effect readback is immutable")
  requireImmutableDeliveryBinding prior replacement

def requireMonotonicInvocationAuthority (prior replacement : InvocationLedger) :
    Except PyError Unit := do
  refuseIf (prior.consumed = true ∧ replacement.consumed = false)
    (valueError "consumed invocation cannot be granted again")
  refuseIf (prior.reserved = false ∧ replacement.reserved = true)
    (valueError "released invocation cannot acquire another effect reservation")
  refuseIf (prior.releaseCommitment.isSome ∧
      prior.releaseCommitment ≠ replacement.releaseCommitment)
    (immutableValueError "release evidence is immutable")

/-- `after[: len(before)] != before` -/
def rewritesHistory {α : Type} (before after : List α) : Prop :=
  after.take before.length ≠ before

instance {α : Type} [DecidableEq α] (before after : List α) :
    Decidable (rewritesHistory before after) :=
  inferInstanceAs (Decidable (after.take before.length ≠ before))

def requireAppendOnlyInvocationHistory (prior replacement : InvocationLedger) :
    Except PyError Unit := do
  refuseIf (rewritesHistory prior.responses replacement.responses ∨
      rewritesHistory prior.controls replacement.controls ∨
      rewritesHistory prior.deliveredControls replacement.deliveredControls ∨
      rewritesHistory prior.automaticControls replacement.automaticControls ∨
      rewritesHistory prior.mixedReports replacement.mixedReports)
    (valueError "invocation history is append-only")
  let newControls :=
    (replacement.controls.drop prior.controls.length).map BackendOperationControl.controlId
  refuseIf (¬ ∀ control ∈ replacement.automaticControls.drop prior.automaticControls.length,
      control ∈ newControls)
    (valueError "retained controls cannot be reclassified as automatic")

def requireInvocationTransition (prior replacement : Option InvocationLedger) :
    Except PyError Unit := do
  match prior, replacement with
  | none, none => return ()
  | none, some _ =>
    throw (valueError "a historical operation cannot acquire fabricated invocation authority")
  | some _, none => throw (valueError "retained invocation authority cannot be dropped")
  | some prior, some replacement =>
    requireImmutableInvocationBinding prior replacement
    requireMonotonicInvocationAuthority prior replacement
    requireAppendOnlyInvocationHistory prior replacement

def requireNoUnboundInjectEvidence (record : ControlPlaneOperationRecord) :
    Except PyError Unit :=
  refuseIf (record.injectOutcome.isSome ∨ record.injectEvidence.isSome ∨
      record.invocation.map (fun ledger => ledger.request.commandContractId) =
        some "inject-occurrence-v1")
    (valueError "inject invocation requires its retained occurrence")

def requireOccurrenceRecord (record : ControlPlaneOperationRecord)
    (occurrence : InjectOccurrence) : Except PyError InvocationLedger := do
  rules.occurrence occurrence
  match record.invocation with
  | none => throw (valueError "inject occurrence requires its invocation ledger")
  | some invocation =>
    refuseIf (invocation.native = true ∨ record.receipt.domain ≠ .orchestration)
      (valueError "inject occurrence requires its orchestration provider invocation")
    rules.occurrenceInvocation occurrence invocation.request
    refuseIf (record.idempotencyKey ≠ occurrence.requestKey ∨
        record.requestFingerprint ≠ occurrence.admission.requestCommitment)
      (valueError "inject occurrence must retain its retry claim and admission commitment")
    refuseIf (record.status.state = .succeeded ∧ record.injectOutcome = none)
      (valueError "inject success requires its independently validated outcome")
    return invocation

def requireOutcomeRecord (record : ControlPlaneOperationRecord)
    (occurrence : InjectOccurrence) (invocation : InvocationLedger)
    (outcome : InjectOccurrenceOutcome) : Except PyError Unit := do
  rules.outcome occurrence invocation.request outcome
  refuseIf (outcome.response ∉ invocation.responses)
    (valueError "inject outcome requires retained backend evidence")
  refuseIf (record.status.state ≠ outcome.proposedState.getD .failed)
    (valueError "inject outcome disagrees with terminal operation state")
  match record.injectEvidence with
  | none => throw (valueError "inject outcome requires its durable artifact evidence")
  | some evidence => rules.evidence evidence occurrence outcome

def requireInjectRecord (record : ControlPlaneOperationRecord) : Except PyError Unit := do
  match record.injectOccurrence with
  | none => requireNoUnboundInjectEvidence record
  | some occurrence =>
    let invocation ← requireOccurrenceRecord rules record occurrence
    if let some payload := record.resultPayload then
      let observation ← rules.capture payload
      if let some observation := observation then
        refuseIf (observation.get? "operation_id" ≠ some (.str record.receipt.operationId))
          (valueError "inject capture must retain its world operation identity")
    match record.injectOutcome with
    | some outcome => requireOutcomeRecord rules record occurrence invocation outcome
    | none =>
      refuseIf record.injectEvidence.isSome
        (valueError "inject artifact evidence requires its validated occurrence outcome")

def requireInjectTransition (prior replacement : ControlPlaneOperationRecord) :
    Except PyError Unit := do
  refuseIf (prior.injectOccurrence ≠ replacement.injectOccurrence)
    (immutableValueError "inject occurrence pins are immutable")
  refuseIf (prior.injectOutcome.isSome ∧ prior.injectOutcome ≠ replacement.injectOutcome)
    (immutableValueError "inject outcome is immutable")
  refuseIf (prior.injectEvidence.isSome ∧ prior.injectEvidence ≠ replacement.injectEvidence)
    (immutableValueError "inject artifact evidence is immutable")
  refuseIf (prior.injectOutcome.isSome ∧
      payloadEq prior.resultPayload replacement.resultPayload = false)
    (immutableValueError "inject capture result is immutable")

def requireDeliveryRecord (record : ControlPlaneOperationRecord) : Except PyError Unit := do
  match record.injectDelivery with
  | some delivery =>
    let dump ← rules.delivery delivery
    refuseIf (record.receipt.context.operationKind ≠ .participantCrossing)
      (valueError "inject delivery requires its crossing operation")
    refuseIf (record.status.state = .succeeded ∧
        payloadEq record.resultPayload (some dump) = false)
      (valueError "inject delivery must retain its exact disclosed result")
    rules.deliveryControl delivery.application record.injectDeliveryControl
  | none =>
    refuseIf record.injectDeliveryControl.isSome
      (valueError "inject control join requires its delivery application")

def requireReceiptStatusIdentity (record : ControlPlaneOperationRecord) : Except PyError Unit := do
  refuseIf (record.receipt.operationId ≠ record.status.operationId)
    (valueError "operation receipt and status identities do not match")
  refuseIf (record.receipt.domain ≠ record.status.domain)
    (valueError "operation receipt and status domains do not match")
  refuseIf (record.receipt.submittedAt ≠ record.status.submittedAt)
    (valueError "operation receipt and status submission times do not match")
  refuseIf (record.receipt.context ≠ record.status.context)
    (valueError "operation receipt and status contexts do not match")
  refuseIf (record.receipt.accepted = false)
    (valueError "denied operation receipts cannot be persisted")

def requireReconciliationBinding (record : ControlPlaneOperationRecord) : Except PyError Unit := do
  match record.reconciliation with
  | none => return ()
  | some reconciliation =>
    rules.reconciliation reconciliation
    refuseIf (record.status.context.parentOperationId ≠ some reconciliation.request.operationId)
      (valueError "reconciliation parent binding mismatch")

def requireOperationRecordIdentity
    (record : ControlPlaneOperationRecord) : Except PyError Unit := do
  requireReceiptStatusIdentity record
  requireRecordInvocation rules record
  requireInjectRecord rules record
  requireDeliveryRecord rules record
  let _ ← rules.deliveryInvocationBinding record
  let _ ← rules.deliveryToolBinding record
  rules.effectClaimPayload record
  requireReconciliationBinding rules record

def requireDeliveryInvocationTransition
    (existing replacement : ControlPlaneOperationRecord) : Except PyError Unit := do
  let original ← rules.deliveryInvocationBinding existing
  let updated ← rules.deliveryInvocationBinding replacement
  refuseIf (original ≠ updated)
    (immutableValueError "delivery invocation binding is immutable")

/-- The members beside the receipt that the durable claim of a record fixes. -/
structure ClaimIdentity where
  (schemaVersion operationId : String)
  domain : RuntimeDomain
  submittedAt : String
  context : OperationAdmissionContext
  (idempotencyKey requestFingerprint : String)
  legacyRequestCommitment : Bool
  deriving DecidableEq

def claimIdentity (record : ControlPlaneOperationRecord) : ClaimIdentity where
  schemaVersion := record.status.schemaVersion
  operationId := record.status.operationId
  domain := record.status.domain
  submittedAt := record.status.submittedAt
  context := record.status.context
  idempotencyKey := record.idempotencyKey
  requestFingerprint := record.requestFingerprint
  legacyRequestCommitment := record.legacyRequestCommitment

def requireSameOperationIdentity
    (existing replacement : ControlPlaneOperationRecord) : Except PyError Unit := do
  requireOperationRecordIdentity rules existing
  requireOperationRecordIdentity rules replacement
  requireInjectTransition existing replacement
  requireDeliveryInvocationTransition rules existing replacement
  rules.deliveryToolTransition existing replacement
  refuseIf (existing.injectDelivery ≠ replacement.injectDelivery ∨
      existing.injectDeliveryControl ≠ replacement.injectDeliveryControl)
    (immutableValueError "inject delivery binding is immutable")
  requireInvocationTransition existing.invocation replacement.invocation
  refuseIf (existing.reconciliation.isSome ∧
      existing.reconciliation ≠ replacement.reconciliation)
    (immutableValueError "reconciliation evidence is immutable")
  refuseIf (existing.receipt ≠ replacement.receipt)
    (immutableValueError "operation receipt is immutable after its durable claim")
  refuseIf (claimIdentity existing ≠ claimIdentity replacement)
    (immutableValueError "operation identity is immutable after its durable claim")

def operationTransitionRefusal : PyError :=
  valueError ("runtime.control-plane.operation-transition-invalid: " ++
    "Operation lifecycle transition is not permitted.")

variable (existing : Option ControlPlaneOperationRecord)

/-- Validate creation, transition or exact retry, and answer whether the record
changes. -/
def requireOperationRecordTransition
    (replacement : ControlPlaneOperationRecord) : Except PyError Bool := do
  requireOperationRecordIdentity rules replacement
  match existing with
  | none =>
    refuseIf (isNonTerminal replacement.status.state = false)
      (valueError "new operation record requires an accepted or running status")
    return true
  | some existing =>
    requireSameOperationIdentity rules existing replacement
    if existing.pyEq replacement then return false
    refuseIf (isOperationTransitionAllowed existing.status.state replacement.status.state = false)
      operationTransitionRefusal
    return true

def terminalTransitionError (error : PyError) : PyError :=
  if error.kind = .valueError ∧ existing.any (fun r => !isNonTerminal r.status.state) then
    valueError "a terminal operation record cannot be rewritten"
  else error

/-- Validate a terminal transition and answer whether it changes the record. -/
def requireTerminalOperationTransition
    (replacement : ControlPlaneOperationRecord) : Except PyError Bool := do
  refuseIf (isNonTerminal replacement.status.state = true)
    (valueError "terminal operation commit requires a terminal status")
  match requireOperationRecordTransition rules existing replacement with
  | .ok changed => return changed
  | .error error => throw (terminalTransitionError existing error)

/-- Two versions of one operation agree on everything that its claim fixes. -/
structure SameIdentity (a b : ControlPlaneOperationRecord) : Prop where
  receipt : a.receipt = b.receipt
  claim : claimIdentity a = claimIdentity b
  occurrence : a.injectOccurrence = b.injectOccurrence
  delivery : a.injectDelivery = b.injectDelivery
  deliveryControl : a.injectDeliveryControl = b.injectDeliveryControl

theorem SameIdentity.refl (a : ControlPlaneOperationRecord) : SameIdentity a a :=
  ⟨rfl, rfl, rfl, rfl, rfl⟩

theorem SameIdentity.trans {a b c : ControlPlaneOperationRecord} (h : SameIdentity a b)
    (h' : SameIdentity b c) : SameIdentity a c :=
  ⟨h.receipt.trans h'.receipt, h.claim.trans h'.claim, h.occurrence.trans h'.occurrence,
    h.delivery.trans h'.delivery, h.deliveryControl.trans h'.deliveryControl⟩

variable {rules : ContractRules} {existing replacement record : ControlPlaneOperationRecord}

theorem requireReceiptStatusIdentity_ok (h : requireReceiptStatusIdentity record = .ok ()) :
    record.receipt.operationId = record.status.operationId ∧
      record.receipt.context = record.status.context := by
  unfold requireReceiptStatusIdentity at h
  simp only [bind_eq_ok_iff, refuseIf_eq_ok_iff, not_not] at h
  obtain ⟨_, hid, _, _, _, _, _, hcontext, _⟩ := h
  exact ⟨hid, hcontext⟩

theorem requireOperationRecordIdentity_ok
    (h : requireOperationRecordIdentity rules record = .ok ()) :
    record.receipt.operationId = record.status.operationId ∧
      record.receipt.context = record.status.context := by
  unfold requireOperationRecordIdentity at h
  rw [bind_eq_ok_iff] at h
  obtain ⟨_, hreceipt, _⟩ := h
  exact requireReceiptStatusIdentity_ok hreceipt

theorem requireSameOperationIdentity_ok
    (h : requireSameOperationIdentity rules existing replacement = .ok ()) :
    requireOperationRecordIdentity rules existing = .ok () ∧
      requireOperationRecordIdentity rules replacement = .ok () ∧
      requireInvocationTransition existing.invocation replacement.invocation = .ok () ∧
      requireInjectTransition existing replacement = .ok () ∧
      SameIdentity existing replacement := by
  unfold requireSameOperationIdentity at h
  simp only [bind_eq_ok_iff, refuseIf_eq_ok_iff, not_or, not_and, not_not] at h
  obtain ⟨_, hexisting, _, hreplacement, _, hinject, _, _, _, _, _, hdelivery, _, hinvocation, _,
    _, _, hreceipt, hclaim⟩ := h
  refine ⟨hexisting, hreplacement, hinvocation, hinject, hreceipt, hclaim, ?_, hdelivery.1,
    hdelivery.2⟩
  unfold requireInjectTransition at hinject
  rw [bind_eq_ok_iff] at hinject
  obtain ⟨_, hoccurrence, _⟩ := hinject
  rw [refuseIf_eq_ok_iff, not_not] at hoccurrence
  exact hoccurrence

/-- A new record is accepted only in a state that work starts from. -/
theorem requireOperationRecordTransition_new {changed : Bool}
    (h : requireOperationRecordTransition rules none replacement = .ok changed) :
    requireOperationRecordIdentity rules replacement = .ok () ∧ changed = true ∧
      isNonTerminal replacement.status.state = true := by
  unfold requireOperationRecordTransition at h
  simp only [bind_eq_ok_iff, refuseIf_eq_ok_iff, Bool.not_eq_false] at h
  obtain ⟨_, hidentity, _, hstate, hchanged⟩ := h
  cases hchanged
  exact ⟨hidentity, rfl, hstate⟩

/-- An accepted replacement keeps the identity of the stored record.  It is an
exact retry, or a legal transition. -/
theorem requireOperationRecordTransition_existing {changed : Bool}
    (h : requireOperationRecordTransition rules (some existing) replacement = .ok changed) :
    requireSameOperationIdentity rules existing replacement = .ok () ∧
      ((changed = false ∧ existing.pyEq replacement = true) ∨
        (changed = true ∧ existing.pyEq replacement = false ∧
          LegalStep existing.status.state replacement.status.state)) := by
  unfold requireOperationRecordTransition at h
  simp only [bind_eq_ok_iff] at h
  obtain ⟨_, _, _, hsame, h⟩ := h
  refine ⟨hsame, ?_⟩
  cases heq : existing.pyEq replacement with
  | true =>
    rw [heq, if_pos rfl] at h
    cases h
    exact Or.inl ⟨rfl, rfl⟩
  | false =>
    rw [heq] at h
    simp only [Bool.false_eq_true, if_false, bind_eq_ok_iff, refuseIf_eq_ok_iff,
      Bool.not_eq_false] at h
    obtain ⟨_, hlegal, hchanged⟩ := h
    cases hchanged
    exact Or.inr ⟨rfl, rfl, hlegal⟩

theorem requireTerminalOperationTransition_ok {stored : Option ControlPlaneOperationRecord}
    {changed : Bool}
    (h : requireTerminalOperationTransition rules stored replacement = .ok changed) :
    isNonTerminal replacement.status.state = false ∧
      requireOperationRecordTransition rules stored replacement = .ok changed := by
  unfold requireTerminalOperationTransition at h
  rw [bind_eq_ok_iff] at h
  obtain ⟨_, hstate, h⟩ := h
  rw [refuseIf_eq_ok_iff, Bool.not_eq_true] at hstate
  refine ⟨hstate, ?_⟩
  cases hr : requireOperationRecordTransition rules stored replacement with
  | error e =>
    rw [hr] at h
    cases h
  | ok b =>
    rw [hr] at h
    cases h
    rfl

end Raes.Store
