import Raes.Store.MemoryRuns

/-!
# Invocation ledgers over runs

What the ledger of one operation may become while the store accepts updates of
its record.  The rules compare the stored ledger with its replacement; the
comparison composes, so it holds between any two moments of a run.
-/

namespace Raes.Store

open PyError Stateful

variable {rules : ContractRules}

/-- A later ledger of one invocation.  The request and the bindings stay, a
consumed grant stays consumed, a reservation that was given up stays given up,
and every history is a prefix of the later one. -/
structure LedgerGrows (before after : InvocationLedger) : Prop where
  request : after.request = before.request
  native : after.native = before.native
  delivery : ∀ binding, before.delivery = some binding → after.delivery = some binding
  consumedDelivery : before.consumed = true → after.delivery = before.delivery
  mixedBinding : after.mixedBinding = before.mixedBinding
  mixedTimeState : after.mixedTimeState = before.mixedTimeState
  mixedCompositionState : after.mixedCompositionState = before.mixedCompositionState
  mixedPostTimeState : ∀ cut, before.mixedPostTimeState = some cut →
    after.mixedPostTimeState = some cut
  consumed : before.consumed = true → after.consumed = true
  released : before.reserved = false → after.reserved = false
  releaseCommitment : ∀ evidence, before.releaseCommitment = some evidence →
    after.releaseCommitment = some evidence
  responses : before.responses <+: after.responses
  controls : before.controls <+: after.controls
  deliveredControls : before.deliveredControls <+: after.deliveredControls
  automaticControls : before.automaticControls <+: after.automaticControls
  mixedReports : before.mixedReports <+: after.mixedReports

theorem LedgerGrows.refl (ledger : InvocationLedger) : LedgerGrows ledger ledger where
  request := rfl
  native := rfl
  delivery := fun _ h => h
  consumedDelivery := fun _ => rfl
  mixedBinding := rfl
  mixedTimeState := rfl
  mixedCompositionState := rfl
  mixedPostTimeState := fun _ h => h
  consumed := fun h => h
  released := fun h => h
  releaseCommitment := fun _ h => h
  responses := List.prefix_rfl
  controls := List.prefix_rfl
  deliveredControls := List.prefix_rfl
  automaticControls := List.prefix_rfl
  mixedReports := List.prefix_rfl

theorem LedgerGrows.trans {a b c : InvocationLedger} (h : LedgerGrows a b)
    (h' : LedgerGrows b c) : LedgerGrows a c where
  request := h'.request.trans h.request
  native := h'.native.trans h.native
  delivery := fun binding ha => h'.delivery binding (h.delivery binding ha)
  consumedDelivery := fun ha =>
    (h'.consumedDelivery (h.consumed ha)).trans (h.consumedDelivery ha)
  mixedBinding := h'.mixedBinding.trans h.mixedBinding
  mixedTimeState := h'.mixedTimeState.trans h.mixedTimeState
  mixedCompositionState := h'.mixedCompositionState.trans h.mixedCompositionState
  mixedPostTimeState := fun cut ha => h'.mixedPostTimeState cut (h.mixedPostTimeState cut ha)
  consumed := fun ha => h'.consumed (h.consumed ha)
  released := fun ha => h'.released (h.released ha)
  releaseCommitment := fun evidence ha =>
    h'.releaseCommitment evidence (h.releaseCommitment evidence ha)
  responses := h.responses.trans h'.responses
  controls := h.controls.trans h'.controls
  deliveredControls := h.deliveredControls.trans h'.deliveredControls
  automaticControls := h.automaticControls.trans h'.automaticControls
  mixedReports := h.mixedReports.trans h'.mixedReports

/-- An operation keeps its ledger and lets it grow, or never has one. -/
def InvocationGrows : Option InvocationLedger → Option InvocationLedger → Prop
  | none, none => True
  | some before, some after => LedgerGrows before after
  | _, _ => False

theorem InvocationGrows.refl (invocation : Option InvocationLedger) :
    InvocationGrows invocation invocation := by
  cases invocation with
  | none => trivial
  | some ledger => exact LedgerGrows.refl ledger

theorem InvocationGrows.trans {a b c : Option InvocationLedger} (h : InvocationGrows a b)
    (h' : InvocationGrows b c) : InvocationGrows a c := by
  cases a with
  | none =>
    cases b with
    | none => exact h'
    | some b => cases h
  | some a =>
    cases b with
    | none => cases h
    | some b =>
      cases c with
      | none => cases h'
      | some c => exact LedgerGrows.trans h h'

/-! ## One update -/

theorem prefix_of_not_rewritesHistory {α : Type} {before after : List α}
    (h : ¬ rewritesHistory before after) : before <+: after := by
  have htake : after.take before.length = before := not_not.mp h
  rw [← htake]
  exact List.take_prefix _ _

theorem fixed_of_refuse {α : Type} {before after : Option α}
    (h : ¬ (before.isSome = true ∧ before ≠ after)) :
    ∀ value, before = some value → after = some value := by
  intro value hvalue
  rw [hvalue] at h
  simp only [Option.isSome_some, ne_eq, true_and, not_not] at h
  exact h.symm

theorem ledgerGrows_of_ok {before after : InvocationLedger}
    (h : requireInvocationTransition (some before) (some after) = .ok ()) :
    LedgerGrows before after := by
  unfold requireInvocationTransition requireImmutableInvocationBinding
    requireImmutableDeliveryBinding requireMonotonicInvocationAuthority
    requireAppendOnlyInvocationHistory at h
  simp only [seq_eq_ok_iff, refuseIf_eq_ok_iff, not_or] at h
  obtain ⟨⟨⟨hrequest, hnative⟩, ⟨hbinding, htime, hcomposition⟩, hpost, hdelivery, hconsumed⟩,
    ⟨hgrant, hreservation, hrelease⟩,
    ⟨hresponses, hcontrols, hdelivered, hautomatic, hreports⟩, _⟩ := h
  exact {
    request := (not_not.mp hrequest).symm
    native := (not_not.mp hnative).symm
    delivery := fixed_of_refuse hdelivery
    consumedDelivery := fun ha => by
      by_contra hne
      exact hconsumed ⟨ha, fun heq => hne heq.symm⟩
    mixedBinding := (not_not.mp hbinding).symm
    mixedTimeState := (not_not.mp htime).symm
    mixedCompositionState := (not_not.mp hcomposition).symm
    mixedPostTimeState := by
      refine fixed_of_refuse fun hchanged => hpost ⟨hchanged.1, fun heq => hchanged.2 heq.symm⟩
    consumed := fun ha => by
      by_contra hlost
      exact hgrant ⟨ha, Bool.eq_false_of_not_eq_true hlost⟩
    released := fun ha => by
      by_contra hregained
      exact hreservation ⟨ha, Bool.eq_true_of_not_eq_false hregained⟩
    releaseCommitment := fixed_of_refuse hrelease
    responses := prefix_of_not_rewritesHistory hresponses
    controls := prefix_of_not_rewritesHistory hcontrols
    deliveredControls := prefix_of_not_rewritesHistory hdelivered
    automaticControls := prefix_of_not_rewritesHistory hautomatic
    mixedReports := prefix_of_not_rewritesHistory hreports }

theorem invocationGrows_of_ok {before after : Option InvocationLedger}
    (h : requireInvocationTransition before after = .ok ()) : InvocationGrows before after := by
  cases before with
  | none =>
    cases after with
    | none => trivial
    | some after => cases h
  | some before =>
    cases after with
    | none => cases h
    | some after => exact ledgerGrows_of_ok h

theorem Replaces.invocationGrows {existing record : ControlPlaneOperationRecord}
    (h : Replaces rules (some existing) record) :
    InvocationGrows existing.invocation record.invocation := by
  cases h with
  | transition same _ => exact invocationGrows_of_ok (requireSameOperationIdentity_ok same).2.2.1
  | supervise current cut =>
    rw [(sameIdentity_of_pyEq current).2.2]
    have hsame := (requireSupervisionCut_ok cut).1
    exact invocationGrows_of_ok (requireSameOperationIdentity_ok hsame).2.2.1

namespace MemoryStore

variable {s t u : MemoryStore}

def LedgersGrow (s t : MemoryStore) : Prop :=
  ∀ id before, s.records.get? id = some before →
    ∃ after, t.records.get? id = some after ∧ InvocationGrows before.invocation after.invocation

theorem LedgersGrow.refl (s : MemoryStore) : LedgersGrow s s :=
  fun _ before h => ⟨before, h, InvocationGrows.refl before.invocation⟩

theorem LedgersGrow.trans (h : LedgersGrow s t) (h' : LedgersGrow t u) : LedgersGrow s u := by
  intro id before hbefore
  obtain ⟨middle, hmiddle, hfirst⟩ := h id before hbefore
  obtain ⟨after, hafter, hsecond⟩ := h' id middle hmiddle
  exact ⟨after, hafter, hfirst.trans hsecond⟩

theorem ledgersGrow_of_recordStep (h : RecordStep rules s t) : LedgersGrow s t :=
  related_of_recordStep (fun record => InvocationGrows.refl record.invocation)
    (fun _ _ h => h.invocationGrows) h

/-- Between any two moments of any run, the ledger of every stored operation only
grows: what is consumed stays consumed, what is released stays released, the
request and the bindings stay, and every history is extended at its end. -/
theorem ledgersGrow_run (rules : ContractRules) (state : SnapshotState) (ops more : List StoreOp) :
    LedgersGrow (Run.run (step rules) (init state) ops)
      (Run.run (step rules) (init state) (ops ++ more)) := by
  rw [Run.run_append]
  exact Run.run_relation (I := fun _ => True) LedgersGrow.refl (fun _ _ _ => LedgersGrow.trans)
    (fun _ _ _ => trivial)
    (fun s op _ => ledgersGrow_of_recordStep (recordStep_step rules s op)) _ more trivial

end MemoryStore
end Raes.Store
