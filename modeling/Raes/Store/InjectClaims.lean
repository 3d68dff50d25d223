import Mathlib.Data.List.Sort
import Raes.Store.Transitions

/-!
# Inject claims

`inject_claims.py`: the delivery and order checks that run inside the claim of a
store, and again over the stored records when they are loaded.

A check over a list of records accepts or refuses whatever the order of the
list, which is what lets one store hold its records in claim order and the other
in key order.
-/

namespace Raes.Store

open PyError

def injectGenesisHead : String := "inject-order:genesis"

variable (rules : ContractRules)

/-- The head that the next permit binds. -/
def injectOrderHead (occurrence : InjectOccurrence) : String :=
  rules.canonicalJsonDigest (.obj [
    ("domain", .str "raes.inject-order-head/v1"),
    ("request", .str (rules.canonicalJsonDigest occurrence.requestContent)),
    ("position", .int occurrence.position)])

def maxInjectClaims : ℕ := 1024

def injectRetryKey (occurrence : InjectOccurrence) : String × String × String :=
  (occurrence.admission.actorId, occurrence.admission.operationKind.value, occurrence.requestKey)

/-- Refuse reuse of a retry key, occurrence, operation, order position,
predecessor or schedule slot. -/
def validateInjectOccurrenceClaims (occurrences : List InjectOccurrence) :
    Except PyError Unit := do
  refuseIf (maxInjectClaims < occurrences.length)
    (valueError "inject occurrence claim set exceeds its bound")
  refuseIf (¬ ∀ a ∈ occurrences, ∀ b ∈ occurrences,
      (a.targetScope, a.runScope) = (b.targetScope, b.runScope))
    (valueError "inject occurrence claims must share one target/run store")
  refuseIf (¬ (occurrences.map injectRetryKey).Nodup)
    (valueError "inject occurrence retry key is already claimed")
  refuseIf (¬ (occurrences.map InjectOccurrence.occurrenceId).Nodup)
    (valueError "inject occurrence occurrence is already claimed")
  refuseIf (¬ (occurrences.map InjectOccurrence.operationId).Nodup)
    (valueError "inject occurrence operation is already claimed")
  refuseIf (¬ (occurrences.map InjectOccurrence.position).Nodup)
    (valueError "inject occurrence order position is already claimed")
  refuseIf (¬ (occurrences.map InjectOccurrence.predecessor).Nodup)
    (valueError "inject occurrence order predecessor is already claimed")
  refuseIf (¬ (occurrences.filterMap InjectOccurrence.slot).Nodup)
    (valueError "inject occurrence schedule slot is already claimed")

/-! ## Deliveries -/

variable (records : List ControlPlaneOperationRecord)

/-- The record that a dictionary by operation identity holds. -/
def recordById (operationId : String) : Option ControlPlaneOperationRecord :=
  records.reverse.find? fun record => record.operationId = operationId

variable (refusal : String → PyError) (record : ControlPlaneOperationRecord)

def requireDeliveryPredecessor (content : ParticipantInjectContent) : Except PyError Unit := do
  let unavailable := refusal "inject delivery world predecessor is unavailable"
  match recordById records content.application.worldOperationId with
  | none => throw unavailable
  | some world =>
    match world.injectOutcome, world.invocation with
    | some outcome, some invocation =>
      match rules.correlation world.injectOccurrence invocation.request outcome
          content.correlation with
      | .ok () => pure ()
      | .error error =>
        -- Only a `ValueError` of the contract becomes a refusal of the claim.
        if error.kind = .valueError ∨ error.kind = .immutableValueError then
          throw (refusal "inject delivery correlation differs from its world predecessor")
        else throw error
      refuseIf ((world.receipt.context.targetScope, world.receipt.context.runScope) ≠
          (record.receipt.context.targetScope, record.receipt.context.runScope))
        (refusal "inject delivery predecessor scope differs")
    | _, _ => throw unavailable

def acceptsControl (eventId : String) (candidate : ControlPlaneOperationRecord) : Bool :=
  (match candidate.payloadField "participant_control_occurrence_ref" with
    | some value => value.pyEq (.str eventId)
    | none => false) && candidate.status.state = .succeeded

def requireControlPredecessor (eventId : String) (records : List ControlPlaneOperationRecord)
    (refusal : String → PyError) : Except PyError Unit :=
  refuseIf (records.any (acceptsControl eventId) = false)
    (refusal "inject delivery accepted control predecessor is unavailable")

abbrev WorldPair := Json × String × Option ParticipantInjectControlReference

abbrev ControlPair := String × String

def worldPair (content : ParticipantInjectContent) : WorldPair :=
  (content.correlation.occurrence, content.application.deliveryAddress,
    content.application.control)

def controlPair (content : ParticipantInjectContent) : Option ControlPair :=
  content.application.control.map fun control =>
    (control.eventId, content.application.deliveryAddress)

/-- Check one delivery after those already seen. -/
def requireDelivery (worlds : List WorldPair) (controls : List ControlPair)
    (record : ControlPlaneOperationRecord) (content : ParticipantInjectContent) :
    Except PyError Unit := do
  requireDeliveryPredecessor rules records refusal record content
  refuseIf (worldPair content ∈ worlds) (refusal "inject result delivery is already claimed")
  match content.application.control with
  | none => return ()
  | some control =>
    requireControlPredecessor control.eventId records refusal
    refuseIf ((control.eventId, content.application.deliveryAddress) ∈ controls)
      (refusal "control occurrence delivery is already claimed")

/-- The loop of `_require_delivery_claims` over the records still to see. -/
def deliveryLoop (rules : ContractRules) (records : List ControlPlaneOperationRecord)
    (refusal : String → PyError) :
    List ControlPlaneOperationRecord → List WorldPair → List ControlPair → Except PyError Unit
  | [], _, _ => .ok ()
  | record :: rest, worlds, controls =>
    match record.injectDelivery with
    | none => deliveryLoop rules records refusal rest worlds controls
    | some content => do
      requireDelivery rules records refusal worlds controls record content
      deliveryLoop rules records refusal rest (worldPair content :: worlds)
        ((controlPair content).toList ++ controls)

def requireDeliveryClaims (refusal : String → PyError) : Except PyError Unit :=
  deliveryLoop rules records refusal records [] []

/-! ## Order -/

/-- Each claim follows the head of the claim before it, from one position to the next. -/
def requireOrderChain (rules : ContractRules) (refusal : String → PyError) :
    String → ℕ → List InjectOccurrence → Except PyError Unit
  | _, _, [] => .ok ()
  | head, position, claim :: rest => do
    refuseIf (claim.position ≠ position)
      (refusal "inject order position does not follow the admitted chain")
    refuseIf (claim.predecessor ≠ head)
      (refusal "inject order head does not follow the preceding admitted claim")
    requireOrderChain rules refusal (injectOrderHead rules claim) (position + 1) rest

def orderedClaims (records : List ControlPlaneOperationRecord) : List InjectOccurrence :=
  (records.filterMap ControlPlaneOperationRecord.injectOccurrence).insertionSort
    fun a b => a.position ≤ b.position

def requireClaimHistory (refusal : String → PyError) : Except PyError Unit := do
  requireDeliveryClaims rules records refusal
  match validateInjectOccurrenceClaims (orderedClaims records) with
  | .ok () => pure ()
  | .error _ => throw (refusal "inject occurrence claim reuses an admitted claim identity")
  requireOrderChain rules refusal injectGenesisHead 1 (orderedClaims records)

def requireInjectHistory (records : List ControlPlaneOperationRecord) : Except PyError Unit :=
  requireClaimHistory rules records conflictError

/-- Refuse stored records whose claims do not replay as one admitted history. -/
def requireStoredInjectHistory (records : List ControlPlaneOperationRecord) : Except PyError Unit :=
  requireClaimHistory rules records evidenceIntegrityError

def requireInjectClaim (existing : List ControlPlaneOperationRecord)
    (revision : ℤ) : Except PyError Unit := do
  if existing.any (fun item => item.operationId = record.operationId) then return ()
  requireDeliveryClaims rules (existing ++ [record]) conflictError
  match record.injectOccurrence with
  | none => return ()
  | some occurrence =>
    refuseIf (occurrence.storeRevision ≠ toString revision)
      (conflictError "inject claim snapshot revision is stale")
    requireInjectHistory rules (existing ++ [record])

/-! ## What the delivery checks accept -/

/-- The world operation that a delivery names has settled the occurrence that
the delivery correlates with, in the scope of the delivery. -/
def DeliveryPredecessor (world record : ControlPlaneOperationRecord)
    (content : ParticipantInjectContent) : Prop :=
  ∃ outcome invocation, world.injectOutcome = some outcome ∧ world.invocation = some invocation ∧
    rules.correlation world.injectOccurrence invocation.request outcome content.correlation =
      .ok () ∧
    world.receipt.context.targetScope = record.receipt.context.targetScope ∧
    world.receipt.context.runScope = record.receipt.context.runScope

def worldPairs (records : List ControlPlaneOperationRecord) : List WorldPair :=
  records.filterMap fun record => record.injectDelivery.map worldPair

def controlPairs (records : List ControlPlaneOperationRecord) : List ControlPair :=
  records.filterMap fun record => record.injectDelivery.bind controlPair

/-- Every delivery has its predecessors, and no result and no control event is
delivered twice to one address. -/
structure DeliveryClaims (rules : ContractRules) (records : List ControlPlaneOperationRecord) :
    Prop where
  predecessor : ∀ record ∈ records, ∀ content, record.injectDelivery = some content →
    ∃ world, recordById records content.application.worldOperationId = some world ∧
      DeliveryPredecessor rules world record content
  control : ∀ record ∈ records, ∀ content, record.injectDelivery = some content →
    ∀ control, content.application.control = some control →
      ∃ candidate ∈ records, acceptsControl control.eventId candidate = true
  worlds : (worldPairs records).Nodup
  controls : (controlPairs records).Nodup

theorem requireDeliveryPredecessor_ok_iff (content : ParticipantInjectContent) :
    requireDeliveryPredecessor rules records refusal record content = .ok () ↔
      ∃ world, recordById records content.application.worldOperationId = some world ∧
        DeliveryPredecessor rules world record content := by
  unfold requireDeliveryPredecessor DeliveryPredecessor
  cases hworld : recordById records content.application.worldOperationId with
  | none => simp [throw, throwThe, MonadExceptOf.throw]
  | some world =>
    cases houtcome : world.injectOutcome with
    | none => simp [throw, throwThe, MonadExceptOf.throw, houtcome]
    | some outcome =>
      cases hinvocation : world.invocation with
      | none => simp [throw, throwThe, MonadExceptOf.throw, hinvocation]
      | some invocation =>
        cases hcorrelation : rules.correlation world.injectOccurrence invocation.request outcome
            content.correlation with
        | error error =>
          by_cases hk : error.kind = .valueError ∨ error.kind = .immutableValueError
          · simp [throw, throwThe, MonadExceptOf.throw, houtcome, hinvocation, hcorrelation, hk,
              bind, Except.bind]
          · simp [throw, throwThe, MonadExceptOf.throw, houtcome, hinvocation, hcorrelation, hk,
              bind, Except.bind]
        | ok u =>
          simp [houtcome, hinvocation, hcorrelation]

theorem requireDelivery_ok_iff (worlds : List WorldPair) (controls : List ControlPair)
    (record : ControlPlaneOperationRecord) (content : ParticipantInjectContent) :
    requireDelivery rules records refusal worlds controls record content = .ok () ↔
      (∃ world, recordById records content.application.worldOperationId = some world ∧
        DeliveryPredecessor rules world record content) ∧
      worldPair content ∉ worlds ∧
      (∀ control, content.application.control = some control →
        ∃ candidate ∈ records, acceptsControl control.eventId candidate = true) ∧
      ∀ pair ∈ (controlPair content).toList, pair ∉ controls := by
  unfold requireDelivery requireControlPredecessor controlPair
  rw [seq_eq_ok_iff, seq_eq_ok_iff, requireDeliveryPredecessor_ok_iff,
    refuseIf_eq_ok_iff]
  cases content.application.control with
  | none => simp [pure, Except.pure]
  | some control => simp [seq_eq_ok_iff]

theorem worldPairs_cons {record : ControlPlaneOperationRecord}
    {content : ParticipantInjectContent} (h : record.injectDelivery = some content)
    (rest : List ControlPlaneOperationRecord) :
    worldPairs (record :: rest) = worldPair content :: worldPairs rest := by
  unfold worldPairs
  rw [List.filterMap_cons_some]
  rw [h]
  rfl

theorem controlPairs_cons {record : ControlPlaneOperationRecord}
    {content : ParticipantInjectContent} (h : record.injectDelivery = some content)
    (rest : List ControlPlaneOperationRecord) :
    controlPairs (record :: rest) = (controlPair content).toList ++ controlPairs rest := by
  unfold controlPairs
  cases hpair : controlPair content with
  | none =>
    rw [List.filterMap_cons_none]
    · rfl
    · rw [h]
      exact hpair
  | some pair =>
    rw [List.filterMap_cons_some]
    · rfl
    · rw [h]
      exact hpair

theorem deliveryLoop_ok_iff (rest : List ControlPlaneOperationRecord)
    (worlds : List WorldPair) (controls : List ControlPair) :
    deliveryLoop rules records refusal rest worlds controls = .ok () ↔
      (∀ record ∈ rest, ∀ content, record.injectDelivery = some content →
        (∃ world, recordById records content.application.worldOperationId = some world ∧
          DeliveryPredecessor rules world record content) ∧
        ∀ control, content.application.control = some control →
          ∃ candidate ∈ records, acceptsControl control.eventId candidate = true) ∧
      ((worldPairs rest).Nodup ∧ ∀ pair ∈ worldPairs rest, pair ∉ worlds) ∧
      (controlPairs rest).Nodup ∧ ∀ pair ∈ controlPairs rest, pair ∉ controls := by
  induction rest generalizing worlds controls with
  | nil => simp [deliveryLoop, worldPairs, controlPairs]
  | cons record rest ih =>
    unfold deliveryLoop
    cases hdelivery : record.injectDelivery with
    | none =>
      rw [ih]
      simp [hdelivery, worldPairs, controlPairs]
    | some content =>
      have hnodup : ((controlPair content).toList).Nodup := by
        cases controlPair content <;> simp
      rw [seq_eq_ok_iff, requireDelivery_ok_iff, ih, worldPairs_cons hdelivery,
        controlPairs_cons hdelivery, List.forall_mem_cons, List.forall_mem_cons,
        List.forall_mem_append, List.nodup_cons, List.nodup_append']
      constructor
      · intro h
        obtain ⟨⟨hpred, hfresh, hcontrol, hfree⟩, hrest, ⟨hnd, hold⟩, hcnd, hcold⟩ := h
        refine ⟨⟨?_, hrest⟩, ⟨⟨?_, hnd⟩, hfresh, ?_⟩, ⟨hnodup, hcnd, ?_⟩, hfree, ?_⟩
        · intro c hc
          cases hdelivery.symm.trans hc
          exact ⟨hpred, hcontrol⟩
        · exact fun hmem => hold _ hmem List.mem_cons_self
        · exact fun p hp hw => hold p hp (List.mem_cons_of_mem _ hw)
        · exact fun p hp hr => hcold p hr (List.mem_append_left _ hp)
        · exact fun p hp hc => hcold p hp (List.mem_append_right _ hc)
      · intro h
        obtain ⟨⟨hfirst, hrest⟩, ⟨⟨hne, hnd⟩, hfresh, hold⟩, ⟨_, hcnd, hdisjoint⟩, hfree, hcold⟩ := h
        obtain ⟨hpred, hcontrol⟩ := hfirst content hdelivery
        refine ⟨⟨hpred, hfresh, hcontrol, hfree⟩, hrest, ⟨hnd, ?_⟩, hcnd, ?_⟩
        · intro p hp hmem
          rcases List.mem_cons.mp hmem with rfl | hw
          · exact hne hp
          · exact hold p hp hw
        · intro p hp hmem
          rcases List.mem_append.mp hmem with hc | hc
          · exact hdisjoint hc hp
          · exact hcold p hp hc

theorem requireDeliveryClaims_ok_iff :
    requireDeliveryClaims rules records refusal = .ok () ↔ DeliveryClaims rules records := by
  unfold requireDeliveryClaims
  rw [deliveryLoop_ok_iff]
  constructor
  · intro h
    obtain ⟨hpred, ⟨hworlds, _⟩, hcontrols, _⟩ := h
    exact ⟨fun r hr c hc => (hpred r hr c hc).1, fun r hr c hc => (hpred r hr c hc).2, hworlds,
      hcontrols⟩
  · intro h
    exact ⟨fun r hr c hc => ⟨h.predecessor r hr c hc, h.control r hr c hc⟩, ⟨h.worlds, by simp⟩,
      h.controls, by simp⟩

/-! ## What the history check accepts -/

structure UniqueClaims (occurrences : List InjectOccurrence) : Prop where
  bound : occurrences.length ≤ maxInjectClaims
  scope : ∀ a ∈ occurrences, ∀ b ∈ occurrences,
    (a.targetScope, a.runScope) = (b.targetScope, b.runScope)
  retryKey : (occurrences.map injectRetryKey).Nodup
  occurrenceId : (occurrences.map InjectOccurrence.occurrenceId).Nodup
  operationId : (occurrences.map InjectOccurrence.operationId).Nodup
  position : (occurrences.map InjectOccurrence.position).Nodup
  predecessor : (occurrences.map InjectOccurrence.predecessor).Nodup
  slot : (occurrences.filterMap InjectOccurrence.slot).Nodup

theorem validateInjectOccurrenceClaims_ok_iff {occurrences : List InjectOccurrence} :
    validateInjectOccurrenceClaims occurrences = .ok () ↔ UniqueClaims occurrences := by
  unfold validateInjectOccurrenceClaims
  simp only [seq_eq_ok_iff, refuseIf_eq_ok_iff, not_not, not_lt]
  constructor
  · intro h
    obtain ⟨h₁, h₂, h₃, h₄, h₅, h₆, h₇, h₈⟩ := h
    exact ⟨h₁, h₂, h₃, h₄, h₅, h₆, h₇, h₈⟩
  · intro h
    exact ⟨h.bound, h.scope, h.retryKey, h.occurrenceId, h.operationId, h.position,
      h.predecessor, h.slot⟩

theorem UniqueClaims.perm {a b : List InjectOccurrence} (hperm : a.Perm b)
    (h : UniqueClaims a) : UniqueClaims b where
  bound := hperm.length_eq ▸ h.bound
  scope := fun x hx y hy => h.scope x (hperm.mem_iff.mpr hx) y (hperm.mem_iff.mpr hy)
  retryKey := (hperm.map _).nodup_iff.mp h.retryKey
  occurrenceId := (hperm.map _).nodup_iff.mp h.occurrenceId
  operationId := (hperm.map _).nodup_iff.mp h.operationId
  position := (hperm.map _).nodup_iff.mp h.position
  predecessor := (hperm.map _).nodup_iff.mp h.predecessor
  slot := (hperm.filterMap _).nodup_iff.mp h.slot

/-- Each claim of a list stands at the next position and follows the head of the
claim before it. -/
def OrderChain (rules : ContractRules) : String → ℕ → List InjectOccurrence → Prop
  | _, _, [] => True
  | head, position, claim :: rest =>
    claim.position = position ∧ claim.predecessor = head ∧
      OrderChain rules (injectOrderHead rules claim) (position + 1) rest

theorem requireOrderChain_ok_iff (head : String) (position : ℕ) (claims : List InjectOccurrence) :
    requireOrderChain rules refusal head position claims = .ok () ↔
      OrderChain rules head position claims := by
  induction claims generalizing head position with
  | nil => simp [requireOrderChain, OrderChain]
  | cons claim rest ih =>
    unfold requireOrderChain OrderChain
    simp only [seq_eq_ok_iff, refuseIf_eq_ok_iff, not_not, ih]

def occurrences (records : List ControlPlaneOperationRecord) : List InjectOccurrence :=
  records.filterMap ControlPlaneOperationRecord.injectOccurrence

structure ClaimHistory (rules : ContractRules) (records : List ControlPlaneOperationRecord) :
    Prop where
  deliveries : DeliveryClaims rules records
  unique : UniqueClaims (occurrences records)
  chain : OrderChain rules injectGenesisHead 1 (orderedClaims records)

theorem orderedClaims_perm : (orderedClaims records).Perm (occurrences records) :=
  List.perm_insertionSort _ _

theorem requireClaimHistory_ok_iff :
    requireClaimHistory rules records refusal = .ok () ↔ ClaimHistory rules records := by
  unfold requireClaimHistory
  rw [seq_eq_ok_iff, requireDeliveryClaims_ok_iff]
  cases hvalid : validateInjectOccurrenceClaims (orderedClaims records) with
  | error error =>
    constructor
    · intro h
      cases h.2
    · intro h
      have hunique := h.unique.perm (orderedClaims_perm records).symm
      rw [← validateInjectOccurrenceClaims_ok_iff, hvalid] at hunique
      cases hunique
  | ok u =>
    have hunique := validateInjectOccurrenceClaims_ok_iff.mp hvalid
    simp only [requireOrderChain_ok_iff]
    constructor
    · exact fun h => ⟨h.1, hunique.perm (orderedClaims_perm records), h.2⟩
    · exact fun h => ⟨h.deliveries, h.chain⟩

variable {a b : List ControlPlaneOperationRecord}

theorem orderedClaims_eq_of_perm (hperm : a.Perm b)
    (hpositions : ((occurrences a).map InjectOccurrence.position).Nodup) :
    orderedClaims a = orderedClaims b := by
  have hclaims : (occurrences a).Perm (occurrences b) := hperm.filterMap _
  have ha : (orderedClaims a).Pairwise fun x y => x.position ≤ y.position :=
    List.pairwise_insertionSort _ _
  have hb : (orderedClaims b).Pairwise fun x y => x.position ≤ y.position :=
    List.pairwise_insertionSort _ _
  refine List.Perm.eq_of_pairwise ?_ ha hb
    ((orderedClaims_perm a).trans (hclaims.trans (orderedClaims_perm b).symm))
  intro x y hx hy hxy hyx
  have hx' : x ∈ occurrences a := (orderedClaims_perm a).mem_iff.mp hx
  have hy' : y ∈ occurrences a :=
    hclaims.mem_iff.mpr ((orderedClaims_perm b).mem_iff.mp hy)
  exact List.inj_on_of_nodup_map hpositions hx' hy' (le_antisymm hxy hyx)

/-! ## The order of the records does not matter -/

def DistinctIds (records : List ControlPlaneOperationRecord) : Prop :=
  (records.map ControlPlaneOperationRecord.operationId).Nodup

theorem recordById_eq_some_iff {records : List ControlPlaneOperationRecord}
    (h : DistinctIds records) (operationId : String) (world : ControlPlaneOperationRecord) :
    recordById records operationId = some world ↔
      world ∈ records ∧ world.operationId = operationId := by
  unfold recordById
  constructor
  · intro hfind
    have hmem := List.mem_of_find?_eq_some hfind
    have hid := List.find?_some hfind
    exact ⟨List.mem_reverse.mp hmem, of_decide_eq_true hid⟩
  · intro hworld
    obtain ⟨hmem, hid⟩ := hworld
    cases hfind : records.reverse.find? fun record => record.operationId = operationId with
    | none =>
      have hnone := List.find?_eq_none.mp hfind world (List.mem_reverse.mpr hmem)
      exact absurd (decide_eq_true hid) hnone
    | some found =>
      have hfound := List.mem_reverse.mp (List.mem_of_find?_eq_some hfind)
      have hsame := List.find?_some hfind
      rw [List.inj_on_of_nodup_map h hfound hmem ((of_decide_eq_true hsame).trans hid.symm)]

theorem DistinctIds.perm (hperm : a.Perm b) (h : DistinctIds a) : DistinctIds b :=
  (hperm.map _).nodup_iff.mp h

theorem recordById_perm (hperm : a.Perm b) (h : DistinctIds a) (operationId : String) :
    recordById a operationId = recordById b operationId := by
  apply Option.ext
  intro world
  rw [recordById_eq_some_iff h, recordById_eq_some_iff (h.perm hperm), hperm.mem_iff]

theorem DeliveryClaims.perm {rules : ContractRules} {a b : List ControlPlaneOperationRecord}
    (hperm : a.Perm b) (hids : DistinctIds a) (h : DeliveryClaims rules a) :
    DeliveryClaims rules b where
  predecessor := by
    intro record hrecord content hcontent
    rw [← recordById_perm hperm hids]
    exact h.predecessor record (hperm.mem_iff.mpr hrecord) content hcontent
  control := by
    intro record hrecord content hcontent control hcontrol
    obtain ⟨candidate, hmem, haccepts⟩ :=
      h.control record (hperm.mem_iff.mpr hrecord) content hcontent control hcontrol
    exact ⟨candidate, hperm.mem_iff.mp hmem, haccepts⟩
  worlds := (hperm.filterMap _).nodup_iff.mp h.worlds
  controls := (hperm.filterMap _).nodup_iff.mp h.controls

theorem ClaimHistory.perm {rules : ContractRules} {a b : List ControlPlaneOperationRecord}
    (hperm : a.Perm b) (hids : DistinctIds a) (h : ClaimHistory rules a) :
    ClaimHistory rules b where
  deliveries := h.deliveries.perm hperm hids
  unique := h.unique.perm (hperm.filterMap _)
  chain := orderedClaims_eq_of_perm hperm h.unique.position ▸ h.chain

end Raes.Store
