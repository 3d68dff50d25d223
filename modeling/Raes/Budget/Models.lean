import Raes.Errors
import Raes.Lib.Totals

/-!
# Resource-budget carriers

The budget states, pool states and events of
`contracts/participant_resource_budgets.py` with their validators.  A quantity
that a contract bounds below by zero is a natural number.
-/

namespace Raes.Budget

inductive OwnerKind where
  | participant
  | deploymentTenant
  | sharedService
  | fleet
  deriving DecidableEq, Repr

structure DomainProfileCoordinate where
  (nameSpace authority profileId revision definitionDigest : String)
  deriving DecidableEq, Repr

inductive ResourceKind where
  | actionRate
  | concurrentActions
  | storageGrowth
  | inferenceTokens
  | imageGenerations
  | accelerator
  | profile (coordinate : DomainProfileCoordinate)
  deriving DecidableEq, Repr

inductive AccountingMode where
  | windowedCounter
  | cumulativeCounter
  | reservableGauge
  | growthCounter
  | lease
  deriving DecidableEq, Repr

inductive ResetMode where
  | episode
  | timeSegment
  | run
  | reconciled
  deriving DecidableEq, Repr

def ResourceKind.value : ResourceKind → String
  | .actionRate => "action_rate"
  | .concurrentActions => "concurrent_actions"
  | .storageGrowth => "storage_growth"
  | .inferenceTokens => "inference_tokens"
  | .imageGenerations => "image_generations"
  | .accelerator => "accelerator"
  | .profile coordinate => coordinate.profileId

def AccountingMode.value : AccountingMode → String
  | .windowedCounter => "windowed_counter"
  | .cumulativeCounter => "cumulative_counter"
  | .reservableGauge => "reservable_gauge"
  | .growthCounter => "growth_counter"
  | .lease => "lease"

/-- `RESOURCE_UNIT`; an extension kind has no unit of its own. -/
def resourceUnit : ResourceKind → Option String
  | .actionRate | .concurrentActions => some "actions"
  | .storageGrowth => some "bytes"
  | .inferenceTokens => some "tokens"
  | .imageGenerations => some "images"
  | .accelerator => some "accelerator_milliseconds"
  | .profile _ => none

def resourceAccounting : ResourceKind → List AccountingMode
  | .actionRate => [.windowedCounter]
  | .concurrentActions => [.reservableGauge]
  | .storageGrowth => [.growthCounter]
  | .inferenceTokens | .imageGenerations => [.windowedCounter, .cumulativeCounter]
  | .accelerator => [.lease]
  | .profile _ => []

def requireQuantitySemantics (kind : ResourceKind) (unit : String) (mode : AccountingMode) :
    Except PyError Unit :=
  match resourceUnit kind with
  | none => .ok ()
  | some expected => do
    refuseIf (unit ≠ expected)
      (.valueError (kind.value ++ " resource quantity requires unit '" ++ expected ++ "'"))
    refuseIf (mode ∉ resourceAccounting kind)
      (.valueError (kind.value ++ " resource quantity does not support accounting mode '" ++
        mode.value ++ "'"))

/-- The largest quantity that a carrier holds. -/
def quantityBound : ℕ := 10 ^ 18

def tickBound : ℕ := 1000000000

/-- The error of a field that is outside its declared type. -/
def fieldError : PyError := .valueError "validation error"

/-- The identity of one exact physical accounting pool. -/
structure PoolIdentity where
  poolRef : String
  ownerKind : OwnerKind
  ownerRef : String
  resourceKind : ResourceKind
  unit : String
  accountingMode : AccountingMode
  meterProfileRef : String
  deriving DecidableEq, Repr

/-- The hash of the JSON text of an identity, as a function of the identity. -/
structure PoolDigest where
  hexDigest : PoolIdentity → String

/-- `participant_resource_budget_state_ref` -/
def budgetStateRef (policyAddress budgetId : String) : String :=
  policyAddress ++ ".resource-budget-state." ++ budgetId

/-- `participant_resource_pool_state_ref` -/
def PoolDigest.poolStateRef (digest : PoolDigest) (pool : PoolIdentity) : String :=
  "participant-resource-pool:sha256:" ++ digest.hexDigest pool

inductive ReconciliationStatus where
  | reconciled
  | pending
  | unreconciled
  deriving DecidableEq, Repr

structure BudgetState where
  (stateRef budgetId policyAddress : String)
  pool : PoolIdentity
  reset : ResetMode
  generation : ℤ
  (limit configuredCapacity reserved currentUse cumulativeUse throttled rejected : ℕ)
  reconciliationStatus : ReconciliationStatus
  lastEventRef : String
  evidenceRefs : List String
  deriving DecidableEq, Repr

def requireIdentity (pool : PoolIdentity) : Except PyError Unit :=
  refuseIf (pool.poolRef = "" ∨ pool.ownerRef = "" ∨ pool.unit = "" ∨ pool.meterProfileRef = "")
    fieldError

def BudgetState.require (state : BudgetState) : Except PyError Unit := do
  requireIdentity state.pool
  refuseIf (state.stateRef = "" ∨ state.budgetId = "" ∨ state.policyAddress = "" ∨
    state.lastEventRef = "" ∨ "" ∈ state.evidenceRefs) fieldError
  refuseIf (state.generation < 0) fieldError
  refuseIf (¬ (1 ≤ state.limit ∧ state.limit ≤ quantityBound)) fieldError
  refuseIf (¬ (1 ≤ state.configuredCapacity ∧ state.configuredCapacity ≤ quantityBound)) fieldError
  refuseIf (quantityBound < state.reserved ∨ quantityBound < state.currentUse ∨
    quantityBound < state.cumulativeUse) fieldError
  requireQuantitySemantics state.pool.resourceKind state.pool.unit state.pool.accountingMode
  refuseIf (state.stateRef ≠ budgetStateRef state.policyAddress state.budgetId)
    (.valueError "resource budget state_ref must equal its canonical policy-scoped identity")
  refuseIf (state.limit < state.reserved + state.currentUse)
    (.valueError "resource budget reserved and current use cannot exceed limit")
  refuseIf (state.configuredCapacity < state.reserved + state.currentUse)
    (.valueError "resource budget reserved and current use cannot exceed configured capacity")
  refuseIf (¬ state.evidenceRefs.Nodup)
    (.valueError "resource budget evidence refs must be unique")

/-- Whether what is counted against a capacity is what is in use, and not what was used. -/
def AccountingMode.isGauge (mode : AccountingMode) : Prop :=
  mode = .reservableGauge ∨ mode = .lease

instance (mode : AccountingMode) : Decidable mode.isGauge :=
  inferInstanceAs (Decidable (_ ∨ _))

def BudgetState.usedCapacity (state : BudgetState) : ℕ :=
  if state.pool.accountingMode.isGauge then state.currentUse + state.reserved
  else state.cumulativeUse + state.reserved

structure PoolAllocation where
  (budgetStateRef policyAddress budgetId : String)
  generation : ℤ
  priorityClass : String
  weight : ℕ
  guarded : Bool
  (borrowing reclaim : String)
  (maxQueueTicks starvationBoundTicks reserved currentUse cumulativeUse : ℕ)
  deriving DecidableEq, Repr

structure PoolState where
  poolStateRef : String
  pool : PoolIdentity
  (capacity protectedCapacity : ℕ)
  fairnessPolicy : String
  priorityClasses : List String
  (borrowing reclaim : String)
  (maxQueueTicks starvationBoundTicks : ℕ)
  allocations : Dict String PoolAllocation

def PoolAllocation.require (allocation : PoolAllocation) : Except PyError Unit := do
  refuseIf (allocation.budgetStateRef = "" ∨ allocation.policyAddress = "" ∨
    allocation.budgetId = "" ∨ allocation.priorityClass = "" ∨ allocation.borrowing = "" ∨
    allocation.reclaim = "") fieldError
  refuseIf (allocation.generation < 0) fieldError
  refuseIf (¬ (1 ≤ allocation.weight ∧ allocation.weight ≤ 1000000)) fieldError
  refuseIf (tickBound < allocation.maxQueueTicks) fieldError
  refuseIf (¬ (1 ≤ allocation.starvationBoundTicks ∧
    allocation.starvationBoundTicks ≤ tickBound)) fieldError
  refuseIf (quantityBound < allocation.reserved ∨ quantityBound < allocation.currentUse ∨
    quantityBound < allocation.cumulativeUse) fieldError
  refuseIf (allocation.budgetStateRef ≠
      Budget.budgetStateRef allocation.policyAddress allocation.budgetId)
    (.valueError "pool allocation must reference its canonical policy-scoped budget state")

def PoolState.allocationUse (pool : PoolState) (allocation : PoolAllocation) : ℕ :=
  if pool.pool.accountingMode.isGauge then allocation.currentUse + allocation.reserved
  else allocation.cumulativeUse + allocation.reserved

/-- `pool_allocated_total` -/
def PoolState.allocatedTotal (pool : PoolState) : ℕ :=
  pool.allocations.total fun _ allocation => pool.allocationUse allocation

/-- What the allocations without protection use. -/
def PoolState.unprotectedTotal (pool : PoolState) : ℕ :=
  pool.allocations.total fun _ allocation =>
    if allocation.guarded then 0 else pool.allocationUse allocation

def validatePoolAllocations (pool : PoolState) : Except PyError Unit :=
  forM pool.allocations.entries fun (allocationRef, allocation) => do
    refuseIf (allocationRef ≠ allocation.budgetStateRef)
      (.valueError "pool allocation map key must equal budget_state_ref")
    refuseIf (allocation.priorityClass ∉ pool.priorityClasses)
      (.valueError "pool allocation priority class must be configured")
    refuseIf (allocation.borrowing ≠ pool.borrowing ∨ allocation.reclaim ≠ pool.reclaim)
      (.valueError "pool allocation borrowing and reclaim must match pool authority")
    refuseIf (allocation.maxQueueTicks < pool.maxQueueTicks ∨
        allocation.starvationBoundTicks < pool.starvationBoundTicks)
      (.valueError "pool allocation fairness bounds are weaker than required")

def PoolState.require (digest : PoolDigest) (pool : PoolState) : Except PyError Unit := do
  requireIdentity pool.pool
  refuseIf (pool.poolStateRef = "" ∨ pool.fairnessPolicy = "" ∨ pool.borrowing = "" ∨
    pool.reclaim = "" ∨ pool.priorityClasses = [] ∨ "" ∈ pool.priorityClasses) fieldError
  refuseIf (¬ (1 ≤ pool.capacity ∧ pool.capacity ≤ quantityBound)) fieldError
  refuseIf (quantityBound < pool.protectedCapacity) fieldError
  refuseIf (tickBound < pool.maxQueueTicks) fieldError
  refuseIf (¬ (1 ≤ pool.starvationBoundTicks ∧ pool.starvationBoundTicks ≤ tickBound)) fieldError
  forM pool.allocations.entries fun entry => entry.2.require
  requireQuantitySemantics pool.pool.resourceKind pool.pool.unit pool.pool.accountingMode
  refuseIf (pool.poolStateRef ≠ digest.poolStateRef pool.pool)
    (.valueError "pool_state_ref must equal the canonical exact-pool identity")
  refuseIf (pool.capacity < pool.protectedCapacity)
    (.valueError "protected capacity cannot exceed physical pool capacity")
  validatePoolAllocations pool
  refuseIf (pool.capacity < pool.allocatedTotal)
    (.valueError "physical pool allocations cannot exceed capacity")

inductive Transition where
  | reserve
  | commit
  | release
  | throttle
  | reject
  | reconcile
  deriving DecidableEq, Repr

inductive Disposition where
  | reserved
  | committed
  | released
  | throttled
  | rejected
  | reconciled
  deriving DecidableEq, Repr

/-- `EVENT_DISPOSITION` -/
def Transition.disposition : Transition → Disposition
  | .reserve => .reserved
  | .commit => .committed
  | .release => .released
  | .throttle => .throttled
  | .reject => .rejected
  | .reconcile => .reconciled

structure BudgetEvent where
  (eventId operationId budgetStateRef budgetId policyAddress ownerRef poolRef : String)
  executionGeneration : ℤ
  transition : Transition
  disposition : Disposition
  requested : ℕ
  measured : Option ℕ
  resourceKind : ResourceKind
  (unit meterProfileRef : String)
  predecessorEventRef : Option String
  evidenceRefs : List String
  deriving DecidableEq, Repr

/-- The fields and the validator of an event. -/
def BudgetEvent.require (event : BudgetEvent) : Except PyError Unit := do
  refuseIf (event.eventId = "" ∨ event.operationId = "" ∨ event.budgetStateRef = "" ∨
    event.budgetId = "" ∨ event.policyAddress = "" ∨ event.ownerRef = "" ∨ event.poolRef = "" ∨
    event.unit = "" ∨ event.meterProfileRef = "" ∨ event.predecessorEventRef = some "" ∨
    "" ∈ event.evidenceRefs) fieldError
  refuseIf (event.executionGeneration < 0) fieldError
  refuseIf (quantityBound < event.requested ∨ quantityBound < event.measured.getD 0) fieldError
  refuseIf (event.budgetStateRef ≠ Budget.budgetStateRef event.policyAddress event.budgetId)
    (.valueError "resource budget event must reference its canonical policy-scoped state")
  refuseIf (event.disposition ≠ event.transition.disposition)
    (.valueError "resource budget event disposition must match its transition")
  refuseIf (event.transition = .commit ∧ event.measured = none)
    (.valueError "commit events require measured resource use")
  refuseIf (¬ event.evidenceRefs.Nodup)
    (.valueError "resource budget event evidence refs must be unique")

structure Snapshot where
  states : Dict String BudgetState
  pools : Dict String PoolState
  events : Dict String BudgetEvent

def Snapshot.empty : Snapshot := ⟨Dict.empty, Dict.empty, Dict.empty⟩

/-- `_require_participant_resource_budget_snapshot` -/
def Snapshot.require (digest : PoolDigest) (snapshot : Snapshot) : Except PyError Unit := do
  forM snapshot.states.entries fun (stateRef, state) => do
    state.require
    refuseIf (stateRef ≠ state.stateRef)
      (.valueError "participant resource-budget state key must equal state_ref")
  forM snapshot.pools.entries fun (poolStateRef, pool) => do
    pool.require digest
    refuseIf (poolStateRef ≠ pool.poolStateRef)
      (.valueError "participant resource-pool state key must equal pool_state_ref")
  forM snapshot.events.entries fun (eventId, event) => do
    event.require
    refuseIf (eventId ≠ event.eventId)
      (.valueError "participant resource-budget event key must equal event_id")

/-- `RuntimeSnapshot.with_entries` with new budget carriers -/
def withEntries (digest : PoolDigest) (snapshot : Snapshot) : Except PyError Snapshot := do
  snapshot.require digest
  return snapshot

end Raes.Budget

/-!
# The pool ledger

The allocation operations of `participant_resource_pool_ledger.py` on one
physical pool, and what each does to the totals of the pool.
-/

namespace Raes.Budget

/-- What a policy asks of the scheduling of a pool. -/
structure Fairness where
  priorityClass : String
  weight : ℕ
  guarded : Bool
  (borrowing reclaim : String)
  (maxQueueTicks starvationBoundTicks : ℕ)
  deriving DecidableEq, Repr

/-- A pool as the backend configures it. -/
structure ResourcePool where
  pool : PoolIdentity
  (capacity protectedCapacity : ℕ)
  fairnessPolicy : String
  priorityClasses : List String
  (borrowing reclaim : String)
  (maxQueueTicks starvationBoundTicks : ℕ)
  deriving DecidableEq, Repr

def poolAllocationConflict : String :=
  "physical pool allocation conflicts with its canonical budget state"

def newPoolState (digest : PoolDigest) (pool : ResourcePool) : Except PyError PoolState := do
  let state : PoolState :=
    { poolStateRef := digest.poolStateRef pool.pool
      pool := pool.pool
      capacity := pool.capacity
      protectedCapacity := pool.protectedCapacity
      fairnessPolicy := pool.fairnessPolicy
      priorityClasses := pool.priorityClasses
      borrowing := pool.borrowing
      reclaim := pool.reclaim
      maxQueueTicks := pool.maxQueueTicks
      starvationBoundTicks := pool.starvationBoundTicks
      allocations := Dict.empty }
  state.require digest
  return state

variable (pool : PoolState)

def PoolState.withAllocation (ref : String) (allocation : PoolAllocation) : PoolState :=
  { pool with allocations := pool.allocations.set ref allocation }

def newAllocation (budget : BudgetState) (fairness : Fairness) : PoolAllocation where
  budgetStateRef := budget.stateRef
  policyAddress := budget.policyAddress
  budgetId := budget.budgetId
  generation := budget.generation
  priorityClass := fairness.priorityClass
  weight := fairness.weight
  guarded := fairness.guarded
  borrowing := fairness.borrowing
  reclaim := fairness.reclaim
  maxQueueTicks := fairness.maxQueueTicks
  starvationBoundTicks := fairness.starvationBoundTicks
  reserved := 0
  currentUse := 0
  cumulativeUse := 0

def ensureAllocation (budget : BudgetState) (fairness : Fairness) : Except PyError PoolState :=
  match pool.allocations.get? budget.stateRef with
  | some existing =>
    if existing.policyAddress ≠ budget.policyAddress ∨ existing.budgetId ≠ budget.budgetId ∨
        existing.guarded ≠ fairness.guarded then
      .error (.conflictError poolAllocationConflict)
    else .ok pool
  | none => do
    (newAllocation budget fairness).require
    return pool.withAllocation budget.stateRef (newAllocation budget fairness)

/-- An allocation that has to be there; the key error of a dictionary otherwise. -/
def PoolState.allocation (pool : PoolState) (budgetStateRef : String) :
    Except PyError PoolAllocation :=
  match pool.allocations.get? budgetStateRef with
  | some allocation => .ok allocation
  | none => .error (.keyError budgetStateRef)

def canReserve (budgetStateRef : String) (amount : ℕ) : Except PyError Bool := do
  let allocation ← pool.allocation budgetStateRef
  return decide (pool.allocatedTotal + amount ≤ pool.capacity ∧
    (allocation.guarded = true ∨
      (pool.unprotectedTotal + amount : ℤ) ≤ pool.capacity - pool.protectedCapacity))

def PoolState.update (budgetStateRef : String)
    (f : PoolAllocation → PoolAllocation) : Except PyError PoolState := do
  let current ← pool.allocation budgetStateRef
  return pool.withAllocation budgetStateRef (f current)

variable (allocation : PoolAllocation)

def PoolAllocation.reserve (amount : ℕ) : PoolAllocation :=
  { allocation with reserved := allocation.reserved + amount }

/-- The subtraction of natural numbers stops at zero. -/
def PoolAllocation.commit (reserved measured : ℕ) : PoolAllocation :=
  { allocation with
    reserved := allocation.reserved - reserved
    cumulativeUse := allocation.cumulativeUse + measured }

def PoolAllocation.release (amount : ℕ) : PoolAllocation :=
  { allocation with reserved := allocation.reserved - amount }

def PoolAllocation.reconcile (generation : ℤ) (clears : Prop) [Decidable clears] : PoolAllocation :=
  { allocation with
    generation := generation
    reserved := 0
    currentUse := if clears then 0 else allocation.currentUse
    cumulativeUse := if clears then 0 else allocation.cumulativeUse }

def PoolState.reserve (pool : PoolState) (budgetStateRef : String) (amount : ℕ) :
    Except PyError PoolState :=
  pool.update budgetStateRef fun current => current.reserve amount

def PoolState.commit (pool : PoolState) (budgetStateRef : String) (reserved measured : ℕ) :
    Except PyError PoolState :=
  pool.update budgetStateRef fun current => current.commit reserved measured

def PoolState.release (pool : PoolState) (budgetStateRef : String) (amount : ℕ) :
    Except PyError PoolState :=
  pool.update budgetStateRef fun current => current.release amount

def PoolState.reconcile (pool : PoolState) (budget : BudgetState) (generation : ℤ)
    (clears : Prop) [Decidable clears] : Except PyError PoolState :=
  pool.update budget.stateRef fun current => current.reconcile generation clears

theorem PoolState.allocation_ok_iff (ref : String) (a : PoolAllocation) :
    pool.allocation ref = .ok a ↔ pool.allocations.get? ref = some a := by
  unfold PoolState.allocation
  cases pool.allocations.get? ref <;> simp

theorem PoolState.update_ok_iff (ref : String)
    (f : PoolAllocation → PoolAllocation) (p : PoolState) :
    pool.update ref f = .ok p ↔ ∃ a, pool.allocations.get? ref = some a ∧
      p = pool.withAllocation ref (f a) := by
  unfold PoolState.update
  rw [bind_eq_ok_iff]
  refine exists_congr fun a => and_congr (pool.allocation_ok_iff ref a) ?_
  exact ⟨fun h => (Except.ok.inj h).symm, fun h => congrArg Except.ok h.symm⟩

variable {ref : String}

theorem allocatedTotal_update {pool : PoolState} {a : PoolAllocation}
    (h : pool.allocations.get? ref = some a) (b : PoolAllocation) :
    (pool.withAllocation ref b).allocatedTotal +
        pool.allocationUse a = pool.allocatedTotal + pool.allocationUse b :=
  Dict.total_set_of_get?_some h b _

theorem unprotectedTotal_update {pool : PoolState} {a : PoolAllocation}
    (h : pool.allocations.get? ref = some a) (b : PoolAllocation) :
    (pool.withAllocation ref b).unprotectedTotal +
        (if a.guarded then 0 else pool.allocationUse a) =
      pool.unprotectedTotal + if b.guarded then 0 else pool.allocationUse b :=
  Dict.total_set_of_get?_some h b _

theorem allocatedTotal_new {pool : PoolState} (h : pool.allocations.get? ref = none)
    (b : PoolAllocation) :
    (pool.withAllocation ref b).allocatedTotal = pool.allocatedTotal + pool.allocationUse b :=
  Dict.total_set_of_get?_none h b _

theorem unprotectedTotal_new {pool : PoolState} (h : pool.allocations.get? ref = none)
    (b : PoolAllocation) : (pool.withAllocation ref b).unprotectedTotal =
      pool.unprotectedTotal + if b.guarded then 0 else pool.allocationUse b :=
  Dict.total_set_of_get?_none h b _

end Raes.Budget
