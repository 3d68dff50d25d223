import Raes.Budget.Reservation

/-!
# Settlement of reservations

`participant_resource_accounting.py` commits, releases and reconciles the
reservations of a snapshot.
-/

namespace Raes.Budget

def staleGenerationCode : String := "runtime.participant-resource-stale-generation"

def commitEventId (operationId stateRef : String) : String :=
  operationId ++ ":" ++ stateRef ++ ":commit"

def releaseEventId (operationId stateRef : String) : String :=
  operationId ++ ":" ++ stateRef ++ ":release"

/-- `tuple(dict.fromkeys((*current, *added)))`: the first occurrence of each reference. -/
def mergeRefs (current added : List String) : List String :=
  (current ++ added).foldl (fun merged ref => if ref ∈ merged then merged else merged ++ [ref]) []

def require {α : Type} (d : Dict String α) (key : String) : Except PyError α :=
  match d.get? key with
  | some a => .ok a
  | none => .error (.keyError key)

/-- `_operation_reservations`; the events of a snapshot have passed their validator. -/
def operationReservations (events : Dict String BudgetEvent) (operationId : String) :
    List BudgetEvent :=
  events.values.filter fun event =>
    event.operationId = operationId ∧ event.transition = .reserve

variable (digest : PoolDigest)

def updatePool (working : Snapshot) (current : BudgetState)
    (f : PoolState → Except PyError PoolState) : Except PyError (Dict String PoolState) := do
  let poolRef := digest.poolStateRef current.pool
  let pool ← require working.pools poolRef
  pool.require digest
  let updated ← f pool
  return working.pools.set poolRef updated

variable (snapshot : Snapshot)

/-- A refusal to settle across a generation boundary. -/
def staleRefusal (policyAddress message : String) : Halt :=
  refusal snapshot policyAddress staleGenerationCode message

def missingReservationResult (operationId : String) : ApplyResult :=
  let committed := snapshot.events.values.any fun event =>
    event.operationId = operationId ∧ event.transition = .commit
  { success := committed
    snapshot := snapshot
    diagnostics := if committed then [] else
      [diagnostic "runtime.participant-resource-reservation-missing" "unknown"
        ("operation " ++ operationId ++ " has no resource reservation")] }

def ValidMeasurementVector (reservations : List BudgetEvent) (measured : Dict String ℤ)
    (evidenceRefs : List String) : Prop :=
  (∀ ref, ref ∈ measured.keys ↔ ref ∈ reservations.map BudgetEvent.budgetStateRef) ∧
    evidenceRefs ≠ [] ∧
    ∀ reservation ∈ reservations, ∀ quantity, measured.get? reservation.budgetStateRef =
      some quantity → 0 ≤ quantity ∧ quantity ≤ reservation.requested

instance (reservations : List BudgetEvent) (measured : Dict String ℤ)
    (evidenceRefs : List String) :
    Decidable (ValidMeasurementVector reservations measured evidenceRefs) :=
  decidable_of_iff
    (((∀ ref ∈ measured.keys, ref ∈ reservations.map BudgetEvent.budgetStateRef) ∧
      ∀ ref ∈ reservations.map BudgetEvent.budgetStateRef, ref ∈ measured.keys) ∧
      evidenceRefs ≠ [] ∧
      ∀ reservation ∈ reservations, ∀ quantity ∈ measured.get? reservation.budgetStateRef,
        0 ≤ quantity ∧ quantity ≤ reservation.requested)
    (by
      refine and_congr ?_ (and_congr_right fun _ => Iff.rfl)
      exact ⟨fun h ref => ⟨h.1 ref, h.2 ref⟩,
        fun h => ⟨fun ref => (h ref).mp, fun ref => (h ref).mpr⟩⟩)

def committedState (current : BudgetState) (requested measured : ℕ) (eventId : String)
    (evidenceRefs : List String) : BudgetState :=
  { current with
    reserved := current.reserved - requested
    cumulativeUse := current.cumulativeUse + measured
    lastEventRef := eventId
    evidenceRefs := mergeRefs current.evidenceRefs evidenceRefs }

def settlementEvent (reservation : BudgetEvent) (current : BudgetState) (eventId : String)
    (executionGeneration : ℤ) (transition : Transition) (measured : Option ℕ)
    (evidenceRefs : List String) : BudgetEvent where
  eventId := eventId
  operationId := reservation.operationId
  budgetStateRef := reservation.budgetStateRef
  budgetId := reservation.budgetId
  policyAddress := reservation.policyAddress
  ownerRef := current.pool.ownerRef
  poolRef := current.pool.poolRef
  executionGeneration := executionGeneration
  transition := transition
  disposition := transition.disposition
  requested := reservation.requested
  measured := measured
  resourceKind := current.pool.resourceKind
  unit := current.pool.unit
  meterProfileRef := current.pool.meterProfileRef
  predecessorEventRef := some reservation.eventId
  evidenceRefs := evidenceRefs

variable (operationId : String) (executionGeneration : ℤ) (evidenceRefs : List String)

variable (working : Snapshot)

/-- The part of `_commit_reservation` after the test for an earlier commit. -/
def commitOpen (reservation : BudgetEvent) (measured : ℕ) : Except Halt Snapshot := do
  let commitId := commitEventId operationId reservation.budgetStateRef
  let current ← raising (require working.states reservation.budgetStateRef)
  raising current.require
  haltIf (current.generation ≠ executionGeneration)
    (staleRefusal snapshot reservation.policyAddress
      ("operation " ++ operationId ++ " cannot commit across a generation boundary"))
  let event := settlementEvent reservation current commitId executionGeneration .commit
    (some measured) evidenceRefs
  raising event.require
  let pools ← raising (updatePool digest working current fun pool =>
    pool.commit current.stateRef reservation.requested measured)
  return {
    states := working.states.set reservation.budgetStateRef
      (committedState current reservation.requested measured commitId evidenceRefs)
    pools := pools
    events := working.events.set commitId event }

def commitReservation (measured : Dict String ℤ) (evidenceRefs : List String)
    (working : Snapshot) (reservation : BudgetEvent) : Except Halt Snapshot :=
  match measured.get? reservation.budgetStateRef with
  | none => .error (.raised (.keyError reservation.budgetStateRef))
  | some quantity =>
    if working.events.contains (commitEventId operationId reservation.budgetStateRef) then
      .ok working
    else
      commitOpen digest snapshot operationId executionGeneration evidenceRefs working reservation
        quantity.toNat

/-- `commit_participant_resource_reservation` -/
def commitResources (measured : Dict String ℤ)
    (evidenceRefs : List String) : Except PyError ApplyResult :=
  match operationReservations snapshot.events operationId with
  | [] => .ok (missingReservationResult snapshot operationId)
  | first :: rest =>
    if ¬ ValidMeasurementVector (first :: rest) measured evidenceRefs then
      .ok ⟨false, snapshot, [diagnostic "runtime.participant-resource-measurement-invalid"
        first.policyAddress
        "resource commit requires an exact, bounded measured vector and native evidence"]⟩
    else settleCall do
      let working ← (first :: rest).foldlM (commitReservation digest snapshot operationId
        executionGeneration measured evidenceRefs) snapshot
      let next ← raising (withEntries digest working)
      return ⟨true, next, []⟩

def releasedState (current : BudgetState) (requested : ℕ) (eventId : String)
    (evidenceRefs : List String) : BudgetState :=
  { current with
    reserved := current.reserved - requested
    lastEventRef := eventId
    evidenceRefs := mergeRefs current.evidenceRefs evidenceRefs }

/-- The part of a round of the release loop after the test for an earlier release. -/
def releaseOpen (reservation : BudgetEvent) : Except Halt Snapshot := do
  let releaseId := releaseEventId operationId reservation.budgetStateRef
  let current ← raising (require working.states reservation.budgetStateRef)
  raising current.require
  haltIf (current.generation ≠ executionGeneration)
    (staleRefusal snapshot reservation.policyAddress
      ("operation " ++ operationId ++ " cannot release across a generation boundary"))
  let event := settlementEvent reservation current releaseId executionGeneration .release none
    evidenceRefs
  raising event.require
  let pools ← raising (updatePool digest working current fun pool =>
    pool.release current.stateRef reservation.requested)
  return {
    states := working.states.set current.stateRef
      (releasedState current reservation.requested releaseId evidenceRefs)
    pools := pools
    events := working.events.set releaseId event }

/-- One round of the loop of `release_participant_resource_reservation` -/
def releaseReservation (reservation : BudgetEvent) : Except Halt Snapshot :=
  if working.events.contains (releaseEventId operationId reservation.budgetStateRef) then
    .ok working
  else
    releaseOpen digest snapshot operationId executionGeneration evidenceRefs working reservation

/-- `release_participant_resource_reservation` -/
def releaseResources (evidenceRefs : List String) : Except PyError ApplyResult :=
  match operationReservations snapshot.events operationId with
  | [] => .ok ⟨true, snapshot, []⟩
  | first :: rest => settleCall do
    let working ← (first :: rest).foldlM (releaseReservation digest snapshot operationId
      executionGeneration evidenceRefs) snapshot
    let next ← raising (withEntries digest working)
    return ⟨true, next, []⟩

def ResetMode.value : ResetMode → String
  | .episode => "episode"
  | .timeSegment => "time_segment"
  | .run => "run"
  | .reconciled => "reconciled"

variable (policyAddress : String) (nextGeneration : ℤ)

def reconcileEventId (stateRef : String) : String :=
  "reconcile:" ++ policyAddress ++ ":" ++ toString nextGeneration ++ ":" ++ stateRef

def reconcileEvent (evidenceRefs : List String)
    (stateRef : String) (current : BudgetState) : BudgetEvent where
  eventId := reconcileEventId policyAddress nextGeneration stateRef
  operationId := "reconcile:" ++ policyAddress ++ ":" ++ toString nextGeneration
  budgetStateRef := stateRef
  budgetId := current.budgetId
  policyAddress := policyAddress
  ownerRef := current.pool.ownerRef
  poolRef := current.pool.poolRef
  executionGeneration := nextGeneration
  transition := .reconcile
  disposition := .reconciled
  requested := 0
  measured := some 0
  resourceKind := current.pool.resourceKind
  unit := current.pool.unit
  meterProfileRef := current.pool.meterProfileRef
  predecessorEventRef := some current.lastEventRef
  evidenceRefs := evidenceRefs

def Clears (current : BudgetState) (boundary : String) : Prop := current.reset.value = boundary

instance (current : BudgetState) (boundary : String) : Decidable (Clears current boundary) :=
  inferInstanceAs (Decidable (_ = _))

def reconciledState (current : BudgetState) (nextGeneration : ℤ) (boundary eventId : String)
    (evidenceRefs : List String) : BudgetState :=
  { current with
    generation := nextGeneration
    reserved := 0
    currentUse := if Clears current boundary then 0 else current.currentUse
    cumulativeUse := if Clears current boundary then 0 else current.cumulativeUse
    reconciliationStatus := .reconciled
    lastEventRef := eventId
    evidenceRefs := mergeRefs current.evidenceRefs evidenceRefs }

/-- One round of the second loop of `reconcile_participant_resource_budgets` -/
def reconcileBudget (boundary : String) (evidenceRefs : List String) (working : Snapshot)
    (selected : String × BudgetState) : Except PyError Snapshot := do
  let event := reconcileEvent policyAddress nextGeneration evidenceRefs selected.1 selected.2
  event.require
  let pools ← updatePool digest working selected.2 fun pool =>
    pool.reconcile selected.2 nextGeneration (Clears selected.2 boundary)
  return {
    states := working.states.set selected.1
      (reconciledState selected.2 nextGeneration boundary event.eventId evidenceRefs)
    pools := pools
    events := working.events.set event.eventId event }

def policyBudgets (policyAddress : String) : List (String × BudgetState) :=
  snapshot.states.entries.filter fun entry => entry.2.policyAddress = policyAddress

/-- `reconcile_participant_resource_budgets` -/
def reconcileBudgets (currentGeneration nextGeneration : ℤ) (boundary : String)
    (evidenceRefs : List String) : Except PyError ApplyResult := do
  refuseIf (nextGeneration ≤ currentGeneration)
    (.valueError "resource-budget reconciliation must advance generation")
  let selected := policyBudgets snapshot policyAddress
  forM selected fun entry => entry.2.require
  match selected.find? fun entry => entry.2.generation ≠ currentGeneration with
  | some stale =>
    return ⟨false, snapshot, [diagnostic staleGenerationCode policyAddress
      ("resource budget " ++ stale.1 ++ " cannot reconcile from generation " ++
        toString currentGeneration)]⟩
  | none =>
    let working ← selected.foldlM
      (reconcileBudget digest policyAddress nextGeneration boundary evidenceRefs) snapshot
    let next ← withEntries digest working
    return ⟨true, next, []⟩

inductive Call where
  | initializeBudgets (policies : List ResourcePolicy) (capabilities : Capabilities)
      (executionGeneration : ℤ)
  | reserve (policy : ResourcePolicy) (operationId : String) (executionGeneration : ℤ)
      (requestedQuantities : Option (Dict String ℤ))
  | commit (operationId : String) (executionGeneration : ℤ) (measuredQuantities : Dict String ℤ)
      (evidenceRefs : List String)
  | release (operationId : String) (executionGeneration : ℤ) (evidenceRefs : List String)
  | reconcile (policyAddress : String) (currentGeneration nextGeneration : ℤ) (boundary : String)
      (evidenceRefs : List String)

def applyCall (snapshot : Snapshot) : Call → Except PyError ApplyResult
  | .initializeBudgets policies capabilities executionGeneration =>
    Budget.initializeBudgets digest snapshot policies capabilities executionGeneration
  | .reserve policy operationId executionGeneration requestedQuantities =>
    reserveResources digest snapshot policy operationId executionGeneration requestedQuantities
  | .commit operationId executionGeneration measuredQuantities evidenceRefs =>
    commitResources digest snapshot operationId executionGeneration measuredQuantities evidenceRefs
  | .release operationId executionGeneration evidenceRefs =>
    releaseResources digest snapshot operationId executionGeneration evidenceRefs
  | .reconcile policyAddress currentGeneration nextGeneration boundary evidenceRefs =>
    reconcileBudgets digest snapshot policyAddress currentGeneration nextGeneration boundary
      evidenceRefs

/-- The snapshot that the caller holds after a call.  A call that raises returns none. -/
def callStep (call : Call) : Snapshot :=
  match applyCall digest snapshot call with
  | .ok result => result.snapshot
  | .error _ => snapshot

end Raes.Budget
