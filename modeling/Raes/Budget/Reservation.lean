import Raes.Budget.Models
import Raes.Contracts.Diagnostics

/-!
# Initialization of budgets

`participant_resource_budgets.py` materializes the budgets of policies and their
allocations in the configured pools.
-/

namespace Raes.Budget

structure ResourceDemand where
  budgetId : String
  pool : PoolIdentity
  (limit reservation : ℕ)
  reset : ResetMode
  deriving DecidableEq, Repr

structure ResourcePolicy where
  address : String
  demands : List ResourceDemand
  fairness : Fairness
  deriving DecidableEq, Repr

structure Capabilities where
  configuredPools : List ResourcePool
  measureSupported : PoolIdentity → ResetMode → Bool

structure ApplyResult where
  success : Bool
  snapshot : Snapshot
  diagnostics : List Diagnostic

/-- Why a computation of a call ends early: an exception, or a result that the call
returns. -/
inductive Halt where
  | raised (error : PyError)
  | returned (result : ApplyResult)

/-- A computation that can raise, inside a call. -/
def raising {α : Type} : Except PyError α → Except Halt α
  | .ok a => .ok a
  | .error error => .error (.raised error)

/-- End a call when a condition holds. -/
def haltIf (condition : Prop) [Decidable condition] (halt : Halt) : Except Halt Unit :=
  if condition then .error halt else .ok ()

@[simp] theorem haltIf_eq_ok_iff (condition : Prop) [Decidable condition] (halt : Halt) (u : Unit) :
    haltIf condition halt = .ok u ↔ ¬ condition := by
  unfold haltIf
  split <;> simp [*]

def settleCall : Except Halt ApplyResult → Except PyError ApplyResult
  | .ok result => .ok result
  | .error (.raised error) => .error error
  | .error (.returned result) => .ok result

def diagnostic (code policyAddress message : String) : Diagnostic where
  code := code
  domain := "participant-runtime"
  address := "/participant_resource_budgets/" ++ policyAddress
  message := message
  severity := .error

def refusal (snapshot : Snapshot) (policyAddress code message : String) : Halt :=
  .returned ⟨false, snapshot, [diagnostic code policyAddress message]⟩

/-! ## New budgets -/

def matchingPool (demand : ResourceDemand) (capabilities : Capabilities) : Option ResourcePool :=
  if capabilities.measureSupported demand.pool demand.reset then
    capabilities.configuredPools.find? fun pool => pool.pool = demand.pool
  else none

def newBudgetState (policy : ResourcePolicy) (demand : ResourceDemand) (pool : ResourcePool)
    (executionGeneration : ℤ) : BudgetState where
  stateRef := budgetStateRef policy.address demand.budgetId
  budgetId := demand.budgetId
  policyAddress := policy.address
  pool := demand.pool
  reset := demand.reset
  generation := executionGeneration
  limit := demand.limit
  configuredCapacity := pool.capacity
  reserved := 0
  currentUse := 0
  cumulativeUse := 0
  throttled := 0
  rejected := 0
  reconciliationStatus := .reconciled
  lastEventRef := "initial:" ++ budgetStateRef policy.address demand.budgetId
  evidenceRefs := []

variable (digest : PoolDigest)

/-- The pool of a new budget: the ledger of the snapshot, or a new one. -/
def physicalPool (working : Snapshot) (pool : ResourcePool) : Except PyError PoolState :=
  match working.pools.get? (digest.poolStateRef pool.pool) with
  | none => newPoolState digest pool
  | some existing => do
    existing.require digest
    return existing

def initializeNewBudget (snapshot working : Snapshot)
    (policy : ResourcePolicy) (demand : ResourceDemand) (pool : ResourcePool)
    (executionGeneration : ℤ) : Except Halt Snapshot := do
  let budgetState := newBudgetState policy demand pool executionGeneration
  raising budgetState.require
  let existing ← raising (physicalPool digest working pool)
  match ensureAllocation existing budgetState policy.fairness with
  | .error error =>
    if error.kind = .conflictError then
      throw (refusal snapshot policy.address "runtime.participant-resource-pool-conflict"
        poolAllocationConflict)
    else throw (.raised error)
  | .ok ensured =>
    return { working with
      states := working.states.set budgetState.stateRef budgetState
      pools := working.pools.set (digest.poolStateRef pool.pool) ensured }

def initializeDemand (snapshot : Snapshot) (policy : ResourcePolicy)
    (capabilities : Capabilities) (executionGeneration : ℤ) (working : Snapshot)
    (demand : ResourceDemand) : Except Halt Snapshot :=
  match matchingPool demand capabilities with
  | none =>
    .error (refusal snapshot policy.address "runtime.participant-resource-capacity-missing"
      ("no exact configured capacity matches resource budget " ++ demand.budgetId))
  | some pool =>
    if policy.fairness.guarded ∧ pool.protectedCapacity < demand.reservation then
      .error (refusal snapshot policy.address
        "runtime.participant-resource-protected-capacity-missing"
        ("resource budget " ++ demand.budgetId ++ " lacks its protected reservation"))
    else
      match working.states.get? (budgetStateRef policy.address demand.budgetId) with
      | none => initializeNewBudget digest snapshot working policy demand pool executionGeneration
      | some existing => do
        raising existing.require
        haltIf (existing.generation ≠ executionGeneration)
          (refusal snapshot policy.address "runtime.participant-resource-state-conflict"
            ("resource budget " ++ demand.budgetId ++ " already has incompatible state"))
        return working

/-- `initialize_participant_resource_budgets` -/
def initializeBudgets (snapshot : Snapshot) (policies : List ResourcePolicy)
    (capabilities : Capabilities) (executionGeneration : ℤ) : Except PyError ApplyResult :=
  settleCall do
    let working ← policies.foldlM (fun working policy =>
      policy.demands.foldlM
        (initializeDemand digest snapshot policy capabilities executionGeneration) working) snapshot
    let next ← raising (withEntries digest working)
    return ⟨true, next, []⟩

end Raes.Budget

/-!
# Reservations

`participant_resource_reservation.py` reserves the complete resource vector of a
policy or none of it.
-/

namespace Raes.Budget

/-- `_event_id` -/
def reserveEventId (operationId stateRef : String) : String :=
  operationId ++ ":" ++ stateRef ++ ":reserve"

def throttleEventId (operationId stateRef : String) : String :=
  operationId ++ ":" ++ stateRef ++ ":throttle"

/-- A reservation that can be applied. -/
structure ReservationCheck where
  demand : ResourceDemand
  current : BudgetState
  physicalPool : PoolState
  amount : ℕ

def requestedAmount (demand : ResourceDemand) (requestedQuantities : Option (Dict String ℤ)) :
    Except PyError ℕ := do
  let amount : ℤ := match requestedQuantities with
    | some quantities => (quantities.get? demand.budgetId).getD demand.reservation
    | none => demand.reservation
  refuseIf (amount < 0)
    (.valueError "requested participant resource quantities must be non-negative")
  return amount.toNat

def throttleEvent (policy : ResourcePolicy) (operationId : String) (executionGeneration : ℤ)
    (demand : ResourceDemand) (current : BudgetState) (amount : ℕ) : BudgetEvent where
  eventId := throttleEventId operationId current.stateRef
  operationId := operationId
  budgetStateRef := current.stateRef
  budgetId := demand.budgetId
  policyAddress := policy.address
  ownerRef := current.pool.ownerRef
  poolRef := current.pool.poolRef
  executionGeneration := executionGeneration
  transition := .throttle
  disposition := .throttled
  requested := amount
  measured := none
  resourceKind := current.pool.resourceKind
  unit := current.pool.unit
  meterProfileRef := current.pool.meterProfileRef
  predecessorEventRef := some current.lastEventRef
  evidenceRefs := []

variable (current : BudgetState)

def throttledState (eventId : String) : BudgetState :=
  { current with throttled := current.throttled + 1, lastEventRef := eventId }

/-- The carriers after a throttled reservation. -/
def throttledSnapshot (snapshot : Snapshot) (current : BudgetState) (event : BudgetEvent) :
    Snapshot :=
  { snapshot with
    states := snapshot.states.set current.stateRef (throttledState current event.eventId)
    events := snapshot.events.set event.eventId event }

variable (digest : PoolDigest) (snapshot : Snapshot) (policy : ResourcePolicy)

variable (operationId : String) (executionGeneration : ℤ)

def throttledResult (demand : ResourceDemand)
    (current : BudgetState) (amount : ℕ) (budgetAvailable : Bool) : Except PyError ApplyResult := do
  let event := throttleEvent policy operationId executionGeneration demand current amount
  event.require
  let next ← withEntries digest (throttledSnapshot snapshot current event)
  return ⟨false, next, [diagnostic "runtime.participant-resource-throttled" policy.address
    ("resource budget " ++ demand.budgetId ++ " has insufficient " ++
      (if budgetAvailable then "shared pool" else "logical budget") ++ " capacity")]⟩

def budgetAvailable (amount : ℕ) : Bool :=
  decide (current.usedCapacity + amount ≤ min current.limit current.configuredCapacity)

/-- The pool is only asked where the budget has room. -/
def capacityAvailable (pool : PoolState) (amount : ℕ) : Except PyError Bool :=
  if budgetAvailable current amount then canReserve pool current.stateRef amount else .ok false

def capacityFailure (demand : ResourceDemand)
    (current : BudgetState) (pool : PoolState) (amount : ℕ) : Except Halt Unit := do
  let available ← raising (capacityAvailable current pool amount)
  if available then
    return ()
  else
    let result ← raising (throttledResult digest snapshot policy operationId executionGeneration
      demand current amount (budgetAvailable current amount))
    throw (.returned result)

def checkReservation (requestedQuantities : Option (Dict String ℤ)) (demand : ResourceDemand) :
    Except Halt ReservationCheck :=
  match snapshot.states.get? (budgetStateRef policy.address demand.budgetId) with
  | none =>
    .error (refusal snapshot policy.address "runtime.participant-resource-state-missing"
      ("resource budget " ++ demand.budgetId ++ " was not initialized"))
  | some current => do
    raising current.require
    haltIf (current.generation ≠ executionGeneration)
      (refusal snapshot policy.address "runtime.participant-resource-stale-generation"
        ("resource budget " ++ demand.budgetId ++ " is generation " ++
          toString current.generation ++ "; request is generation " ++
          toString executionGeneration))
    let amount ← raising (requestedAmount demand requestedQuantities)
    match snapshot.pools.get? (digest.poolStateRef current.pool) with
    | none =>
      throw (refusal snapshot policy.address "runtime.participant-resource-pool-state-missing"
        ("physical pool for resource budget " ++ demand.budgetId ++ " was not initialized"))
    | some pool =>
      raising (pool.require digest)
      capacityFailure digest snapshot policy operationId executionGeneration demand current pool
        amount
      return ⟨demand, current, pool, amount⟩

def reserveEvent (check : ReservationCheck) : BudgetEvent where
  eventId := reserveEventId operationId check.current.stateRef
  operationId := operationId
  budgetStateRef := check.current.stateRef
  budgetId := check.demand.budgetId
  policyAddress := policy.address
  ownerRef := check.current.pool.ownerRef
  poolRef := check.current.pool.poolRef
  executionGeneration := executionGeneration
  transition := .reserve
  disposition := .reserved
  requested := check.amount
  measured := none
  resourceKind := check.current.pool.resourceKind
  unit := check.current.pool.unit
  meterProfileRef := check.current.pool.meterProfileRef
  predecessorEventRef := some check.current.lastEventRef
  evidenceRefs := []

def reservedState (amount : ℕ) (eventId : String) : BudgetState :=
  { current with reserved := current.reserved + amount, lastEventRef := eventId }

theorem usedCapacity_reservedState (amount : ℕ) (eventId : String) :
    (reservedState current amount eventId).usedCapacity = current.usedCapacity + amount := by
  by_cases hgauge : current.pool.accountingMode.isGauge <;>
    simp [BudgetState.usedCapacity, reservedState, hgauge, Nat.add_assoc]

def applyReservation (working : Snapshot) (check : ReservationCheck) : Except PyError Snapshot := do
  let event := reserveEvent policy operationId executionGeneration check
  event.require
  let pool ← check.physicalPool.reserve check.current.stateRef check.amount
  return {
    states := working.states.set check.current.stateRef
      (reservedState check.current check.amount event.eventId)
    pools := working.pools.set check.physicalPool.poolStateRef pool
    events := working.events.set event.eventId event }

def reserveEventIds (operationId : String) : List String :=
  policy.demands.map fun demand =>
    reserveEventId operationId (budgetStateRef policy.address demand.budgetId)

/-- `reserve_participant_resources` -/
def reserveResources (requestedQuantities : Option (Dict String ℤ)) : Except PyError ApplyResult :=
  if reserveEventIds policy operationId ≠ [] ∧
      ∀ eventId ∈ reserveEventIds policy operationId, snapshot.events.contains eventId = true then
    .ok ⟨true, snapshot, []⟩
  else settleCall do
    let checked ← policy.demands.mapM
      (checkReservation digest snapshot policy operationId executionGeneration requestedQuantities)
    let working ← raising (checked.foldlM
      (applyReservation policy operationId executionGeneration) snapshot)
    let next ← raising (withEntries digest working)
    return ⟨true, next, []⟩

end Raes.Budget
