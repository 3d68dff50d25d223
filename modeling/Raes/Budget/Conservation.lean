import Raes.Lib.ExceptList
import Raes.Budget.Books
import Raes.Budget.Ledger

/-!
# Conservation

Each call keeps the books and the ledger of a snapshot, as long as it settles no
reservation twice or across a reconciliation and overwrites no event of a
reservation.
-/

namespace Raes.Budget

theorem raising_ok_iff {α : Type} (x : Except PyError α) (a : α) :
    raising x = .ok a ↔ x = .ok a := by
  cases x <;> simp [raising]

theorem settleCall_ok_iff (m : Except Halt ApplyResult) (result : ApplyResult) :
    settleCall m = .ok result ↔ m = .ok result ∨ m = .error (.returned result) := by
  match m with
  | .ok r => simp [settleCall]
  | .error (.raised error) => simp [settleCall]
  | .error (.returned r) => simp [settleCall]

theorem require_ok_iff {α : Type} {d : Dict String α} {key : String} {a : α} :
    require d key = .ok a ↔ d.get? key = some a := by
  unfold require
  cases d.get? key <;> simp

theorem withEntries_eq {digest : PoolDigest} {working next : Snapshot}
    (h : withEntries digest working = .ok next) : next = working := by
  unfold withEntries at h
  rw [bind_eq_ok_iff] at h
  obtain ⟨_, _, h⟩ := h
  exact (Except.ok.inj h).symm

/-- The books and the ledger of a snapshot; where it is asked for, nothing of an earlier
generation is outstanding. -/
structure Conserved (digest : PoolDigest) (strict : Prop) (snapshot : Snapshot) : Prop where
  books : Books snapshot.states snapshot.events
  ledger : Ledger digest snapshot.states snapshot.pools
  current : strict → Current snapshot.states snapshot.events

theorem conserved_empty (digest : PoolDigest) (strict : Prop) :
    Conserved digest strict Snapshot.empty where
  books := books_empty
  ledger := ledger_empty digest
  current _ _ _ h := nomatch h

section Conserved

variable {digest : PoolDigest} {strict : Prop} {snapshot working next : Snapshot}

/-! ## Initialization -/

variable {pool : ResourcePool}

theorem newPoolState_ok {state : PoolState} (h : newPoolState digest pool = .ok state) :
    state.allocations = Dict.empty ∧ state.poolStateRef = digest.poolStateRef pool.pool ∧
      state.Within := by
  unfold newPoolState at h
  rw [seq_eq_ok_iff] at h
  obtain ⟨hrequire, hstate⟩ := h
  cases hstate
  refine ⟨rfl, rfl, Nat.zero_le _, ?_⟩
  unfold PoolState.require at hrequire
  simp only [seq_eq_ok_iff, refuseIf_eq_ok_iff] at hrequire
  obtain ⟨_, _, _, _, _, _, _, _, _, hprotected, _⟩ := hrequire
  show 0 + pool.protectedCapacity ≤ pool.capacity
  rw [Nat.zero_add]
  exact not_lt.mp hprotected

theorem physicalPool_ok {state : PoolState} (h : physicalPool digest working pool = .ok state) :
    working.pools.get? (digest.poolStateRef pool.pool) = some state ∨
      working.pools.get? (digest.poolStateRef pool.pool) = none ∧
        state.allocations = Dict.empty ∧ state.poolStateRef = digest.poolStateRef pool.pool ∧
          state.Within := by
  unfold physicalPool at h
  split at h
  · next hnone => exact Or.inr ⟨hnone, newPoolState_ok h⟩
  · next existing hexisting =>
    rw [seq_eq_ok_iff] at h
    cases h.2
    exact Or.inl hexisting

theorem Conserved.initializeNewBudget (h : Conserved digest strict working)
    {policy : ResourcePolicy} {demand : ResourceDemand} {pool : ResourcePool}
    {executionGeneration : ℤ} (hpool : pool.pool = demand.pool)
    (hnone : working.states.get? (budgetStateRef policy.address demand.budgetId) = none)
    (hok : initializeNewBudget digest snapshot working policy demand pool executionGeneration =
      .ok next) : Conserved digest strict next := by
  unfold Budget.initializeNewBudget at hok
  rw [bind_eq_ok_iff] at hok
  obtain ⟨_, _, hok⟩ := hok
  rw [bind_eq_ok_iff] at hok
  obtain ⟨existing, hexisting, hok⟩ := hok
  rw [raising_ok_iff] at hexisting
  have hphysical := physicalPool_ok hexisting
  have hstate : ∀ poolState, poolState = existing.withAllocation
      (budgetStateRef policy.address demand.budgetId)
        (newAllocation (newBudgetState policy demand pool executionGeneration) policy.fairness) →
      next = { working with
        states := working.states.set (budgetStateRef policy.address demand.budgetId)
          (newBudgetState policy demand pool executionGeneration)
        pools := working.pools.set (digest.poolStateRef pool.pool) poolState } →
      Conserved digest strict next := by
    rintro poolState rfl rfl
    exact {
      books := h.books.new_state hnone rfl
      ledger := h.ledger.new_budget hnone hphysical rfl (by rw [hpool]; rfl) ⟨rfl, rfl, rfl⟩
        rfl rfl rfl
      current := fun hstrict => (h.current hstrict).new_state h.books hnone _ }
  have hunallocated : existing.allocations.get?
      (budgetStateRef policy.address demand.budgetId) = none := by
    rcases hphysical with hphysical | ⟨_, hempty, _⟩
    · cases hget : existing.allocations.get? (budgetStateRef policy.address demand.budgetId) with
      | none => rfl
      | some a =>
        obtain ⟨b, hb, _⟩ := h.ledger.allocated _ existing hphysical _ a hget
        rw [hnone] at hb
        cases hb
    · rw [hempty]
      rfl
  have hensure : ensureAllocation existing (newBudgetState policy demand pool executionGeneration)
      policy.fairness = (do
        (newAllocation (newBudgetState policy demand pool executionGeneration)
          policy.fairness).require
        return existing.withAllocation (budgetStateRef policy.address demand.budgetId)
          (newAllocation (newBudgetState policy demand pool executionGeneration)
            policy.fairness)) := by
    unfold ensureAllocation
    have hget : existing.allocations.get?
        (newBudgetState policy demand pool executionGeneration).stateRef = none := hunallocated
    rw [hget]
    rfl
  split at hok
  · split at hok <;> cases hok
  · next ensured hensured =>
    rw [hensure, seq_eq_ok_iff] at hensured
    cases hok
    exact hstate ensured (Except.ok.inj hensured.2).symm rfl

theorem matchingPool_pool {demand : ResourceDemand} {capabilities : Capabilities}
    (h : matchingPool demand capabilities = some pool) : pool.pool = demand.pool := by
  unfold matchingPool at h
  split at h
  · have hfound := List.find?_some h
    exact of_decide_eq_true hfound
  · cases h

theorem Conserved.initializeDemand (h : Conserved digest strict working)
    {policy : ResourcePolicy} {capabilities : Capabilities} {demand : ResourceDemand}
    {executionGeneration : ℤ}
    (hok : initializeDemand digest snapshot policy capabilities executionGeneration working
      demand = .ok next) : Conserved digest strict next := by
  unfold Budget.initializeDemand at hok
  split at hok
  · cases hok
  · next pool hpool =>
    split at hok
    · cases hok
    · split at hok
      · next hnone => exact h.initializeNewBudget (matchingPool_pool hpool) hnone hok
      · next existing hexisting =>
        rw [bind_eq_ok_iff] at hok
        obtain ⟨_, _, hok⟩ := hok
        rw [seq_eq_ok_iff] at hok
        cases hok.2
        exact h

/-! ## Reservation -/

variable {policy : ResourcePolicy} {operationId : String} {executionGeneration : ℤ}

theorem canReserve_of_capacityFailure {demand : ResourceDemand}
    {current : BudgetState} {pool : PoolState} {amount : ℕ} {u : Unit}
    (h : capacityFailure digest snapshot policy operationId executionGeneration demand current pool
      amount = .ok u) :
    current.usedCapacity + amount ≤ min current.limit current.configuredCapacity ∧
      canReserve pool current.stateRef amount = .ok true := by
  unfold capacityFailure at h
  rw [bind_eq_ok_iff] at h
  obtain ⟨available, havailable, h⟩ := h
  rw [raising_ok_iff, capacityAvailable] at havailable
  split at h
  · next htrue =>
    subst htrue
    split at havailable
    · next hbudget => exact ⟨of_decide_eq_true hbudget, havailable⟩
    · cases havailable
  · rw [bind_eq_ok_iff] at h
    obtain ⟨result, _, h⟩ := h
    cases h

/-- What a check has found when it admits a reservation. -/
structure Fits (digest : PoolDigest) (working : Snapshot) (operationId : String)
    (executionGeneration : ℤ) (check : ReservationCheck) : Prop where
  state : working.states.get? check.current.stateRef = some check.current
  generation : check.current.generation = executionGeneration
  pool : working.pools.get? (digest.poolStateRef check.current.pool) = some check.physicalPool
  budget : check.current.usedCapacity + check.amount ≤
    min check.current.limit check.current.configuredCapacity
  admits : canReserve check.physicalPool check.current.stateRef check.amount = .ok true
  fresh : working.events.get? (reserveEventId operationId check.current.stateRef) = none

theorem checkReservation_ok {requested : Option (Dict String ℤ)}
    {demand : ResourceDemand} {check : ReservationCheck} (h : Conserved digest strict snapshot)
    (hfresh : snapshot.events.get? (reserveEventId operationId
      (budgetStateRef policy.address demand.budgetId)) = none)
    (hok : checkReservation digest snapshot policy operationId executionGeneration requested
      demand = .ok check) : check.current.stateRef = budgetStateRef policy.address demand.budgetId ∧
      Fits digest snapshot operationId executionGeneration check := by
  unfold checkReservation at hok
  split at hok
  · cases hok
  · next current hcurrent =>
    rw [bind_eq_ok_iff] at hok
    obtain ⟨_, _, hok⟩ := hok
    rw [seq_eq_ok_iff, haltIf_eq_ok_iff, not_not] at hok
    obtain ⟨hgeneration, hok⟩ := hok
    rw [bind_eq_ok_iff] at hok
    obtain ⟨amount, _, hok⟩ := hok
    split at hok
    · cases hok
    · next pool hpool =>
      rw [bind_eq_ok_iff] at hok
      obtain ⟨_, _, hok⟩ := hok
      rw [bind_eq_ok_iff] at hok
      obtain ⟨_, hcapacity, hok⟩ := hok
      cases hok
      have hkey := h.ledger.stateKey _ current hcurrent
      obtain ⟨hbudget, hadmits⟩ := canReserve_of_capacityFailure hcapacity
      refine ⟨hkey, ?_, hgeneration, hpool, hbudget, hadmits, ?_⟩
      · exact hkey ▸ hcurrent
      · exact hkey ▸ hfresh

theorem applyReservation_ok {check : ReservationCheck} {allocation : PoolAllocation}
    (hallocation : check.physicalPool.allocations.get? check.current.stateRef = some allocation)
    (hok : applyReservation policy operationId executionGeneration working check = .ok next) :
    next =
      { states := working.states.set check.current.stateRef (reservedState check.current
          check.amount (reserveEventId operationId check.current.stateRef))
        pools := working.pools.set check.physicalPool.poolStateRef
          (check.physicalPool.withAllocation check.current.stateRef
            (allocation.reserve check.amount))
        events := working.events.set (reserveEventId operationId check.current.stateRef)
          (reserveEvent policy operationId executionGeneration check) } := by
  unfold applyReservation at hok
  rw [seq_eq_ok_iff, bind_eq_ok_iff] at hok
  obtain ⟨_, pool, hpool, hok⟩ := hok
  rw [PoolState.reserve, PoolState.update_ok_iff] at hpool
  obtain ⟨a, ha, rfl⟩ := hpool
  rw [hallocation] at ha
  cases ha
  exact (Except.ok.inj hok).symm

/-- A reservation that fits keeps the books and the ledger, and what fits another pool. -/
theorem Conserved.applyReservation (h : Conserved digest strict working)
    {policy : ResourcePolicy} {operationId : String} {executionGeneration : ℤ}
    {check : ReservationCheck} (hfits : Fits digest working operationId executionGeneration check)
    (hok : applyReservation policy operationId executionGeneration working check = .ok next) :
    Conserved digest strict next ∧ ∀ other : ReservationCheck,
      digest.poolStateRef check.current.pool ≠ digest.poolStateRef other.current.pool →
        Fits digest working operationId executionGeneration other →
          Fits digest next operationId executionGeneration other := by
  obtain ⟨pool, allocation, hpool, hallocation, hmirrors⟩ := h.ledger.mirrored _ _ hfits.state
  rw [hfits.pool] at hpool
  cases hpool
  have hnext := applyReservation_ok hallocation hok
  have hpoolKey := h.ledger.poolKey _ _ hfits.pool
  have hwithin := (h.ledger.poolBound _ _ hfits.pool).reserve hallocation hfits.admits
  have hbudget : (reservedState check.current check.amount
      (reserveEventId operationId check.current.stateRef)).usedCapacity ≤
      min check.current.limit check.current.configuredCapacity := by
    rw [usedCapacity_reservedState]
    exact hfits.budget
  subst hnext
  constructor
  · refine ⟨?_, ?_, fun hstrict => ?_⟩
    · exact h.books.reserve (reserveEvent policy operationId executionGeneration check) rfl
        hfits.fresh hfits.state hfits.generation.symm rfl rfl
    · rw [hpoolKey]
      exact h.ledger.update hfits.state hfits.pool rfl rfl
        ⟨congrArg (· + check.amount) hmirrors.1, hmirrors.2⟩ hbudget hwithin
    · exact (h.current hstrict).reserve
        (reserveEvent policy operationId executionGeneration check) rfl hfits.fresh
        hfits.state hfits.generation.symm rfl
  · intro other hne hother
    have href : other.current.stateRef ≠ check.current.stateRef := by
      intro heq
      have hsame := hother.state
      rw [heq, hfits.state] at hsame
      exact hne (congrArg (fun state : BudgetState => digest.poolStateRef state.pool)
        (Option.some.inj hsame))
    refine ⟨?_, hother.generation, ?_, hother.budget, hother.admits, ?_⟩
    · exact (Dict.get?_set_ne _ _ href).trans hother.state
    · rw [hpoolKey]
      exact (Dict.get?_set_ne _ _ (Ne.symm hne)).trans hother.pool
    · refine (Dict.get?_set_ne _ _ fun heq => href ?_).trans hother.fresh
      exact reserveEventId_inj heq

/-- Reservations in different pools do not stand in each other's way. -/
theorem Conserved.applyReservations {checked : List ReservationCheck}
    (h : Conserved digest strict working)
    (hfits : ∀ check ∈ checked, Fits digest working operationId executionGeneration check)
    (hpools : checked.Pairwise fun check other =>
      digest.poolStateRef check.current.pool ≠ digest.poolStateRef other.current.pool)
    (hok : checked.foldlM (Budget.applyReservation policy operationId executionGeneration) working =
      .ok next) : Conserved digest strict next := by
  induction checked generalizing working with
  | nil =>
    cases hok
    exact h
  | cons check rest ih =>
    rw [List.foldlM_cons, bind_eq_ok_iff] at hok
    obtain ⟨middle, hmiddle, hok⟩ := hok
    rw [List.pairwise_cons] at hpools
    obtain ⟨hconserved, hkeeps⟩ := h.applyReservation (hfits check List.mem_cons_self) hmiddle
    refine ih hconserved (fun other hother => ?_) hpools.2 hok
    exact hkeeps other (hpools.1 other hother) (hfits other (List.mem_cons_of_mem _ hother))

theorem Conserved.throttled (h : Conserved digest strict snapshot) {current : BudgetState}
    {event : BudgetEvent} (hstate : snapshot.states.get? current.stateRef = some current)
    (ht : event.transition = .throttle)
    (hkey : event.eventId = throttleEventId event.operationId current.stateRef) :
    Conserved digest strict (throttledSnapshot snapshot current event) := by
  have hneutral : event.Neutral := BudgetEvent.neutral_of_transition (Or.inl ht)
  have hold : ∀ old, snapshot.events.get? event.eventId = some old → old.Neutral := by
    intro old hget
    rw [hkey] at hget
    refine ⟨fun hreserve => ?_, fun hcommit => ?_, fun hrelease => ?_⟩
    · exact throttleEventId_ne_reserveEventId _ _ _ _ (h.books.reserveKey _ old hget hreserve)
    · exact throttleEventId_ne_commitEventId _ _ _ _ (h.books.commitKey _ old hget hcommit)
    · exact throttleEventId_ne_releaseEventId _ _ _ _ (h.books.releaseKey _ old hget hrelease)
  have hbound : (throttledState current event.eventId).usedCapacity ≤
      min current.limit current.configuredCapacity := h.ledger.budgetBound _ current hstate
  refine ⟨?_, ?_, fun hstrict => ?_⟩
  · exact (h.books.set_state (throttledState current event.eventId) hstate rfl
      rfl).set_neutral hneutral hold
  · exact h.ledger.set_state hstate rfl rfl (fun _ hmirrors => hmirrors) hbound
  · exact ((h.current hstrict).set_state (throttledState current event.eventId) hstate
      rfl).set_event hneutral.1 hold

/-! ## Settlement -/

/-- What a round of a settlement loop does to the carriers when it settles a reservation. -/
structure SettleStep (digest : PoolDigest) (settlementId : String → String)
    (executionGeneration : ℤ) (reservation : BudgetEvent) (working next : Snapshot) : Prop where
  fresh : working.events.get? (settlementId reservation.budgetStateRef) = none
  settles : ∃ state state' settlement pool allocation allocation',
    working.states.get? reservation.budgetStateRef = some state ∧
      state.generation = executionGeneration ∧ state'.stateRef = state.stateRef ∧
      state'.pool = state.pool ∧ state'.generation = state.generation ∧
      state'.limit = state.limit ∧ state'.configuredCapacity = state.configuredCapacity ∧
      state'.reserved = state.reserved - reservation.requested ∧
      state'.currentUse = state.currentUse ∧
      (∃ measured ≤ reservation.requested,
        state'.cumulativeUse = state.cumulativeUse + measured) ∧
      Settles settlement reservation ∧
      (settlement.transition = .commit ∧ settlementId reservation.budgetStateRef =
          commitEventId settlement.operationId settlement.budgetStateRef ∨
        settlement.transition = .release ∧ settlementId reservation.budgetStateRef =
          releaseEventId settlement.operationId settlement.budgetStateRef) ∧
      working.pools.get? (digest.poolStateRef state.pool) = some pool ∧
      pool.allocations.get? state.stateRef = some allocation ∧
      (Mirrors allocation state → Mirrors allocation' state') ∧
      allocation'.guarded = allocation.guarded ∧
      next =
        { states := working.states.set reservation.budgetStateRef state'
          pools := working.pools.set (digest.poolStateRef state.pool)
            (pool.withAllocation state.stateRef allocation')
          events := working.events.set (settlementId reservation.budgetStateRef) settlement }

theorem use_settled_le {isGauge : Prop} [Decidable isGauge]
    {current reserved cumulative requested measured : ℕ} (hmeasured : measured ≤ requested)
    (hrequested : requested ≤ reserved) :
    (if isGauge then current + (reserved - requested)
      else cumulative + measured + (reserved - requested)) ≤
    if isGauge then current + reserved else cumulative + reserved := by
  split <;> omega

theorem Conserved.settle (h : Conserved digest strict working) {settlementId : String → String}
    {executionGeneration : ℤ} {id : String} {reservation : BudgetEvent}
    (hget : working.events.get? id = some reservation) (ht : reservation.transition = .reserve)
    (hopen : ¬ Settled working.events reservation)
    (hgeneration : reservation.executionGeneration = executionGeneration)
    (hstep : SettleStep digest settlementId executionGeneration reservation working next) :
    Conserved digest strict next := by
  obtain ⟨hfresh, state, state', settlement, pool, allocation, allocation', hstate, hgen, hkey,
    hidentity, hgeneration', hlimit, hcapacity, hreserved, hcurrent,
    ⟨measured, hmeasured, hcumulative⟩, hsettles, hid, hpool, hallocation, hmirrors, hguarded,
    rfl⟩ := hstep
  have hstateKey := h.ledger.stateKey _ state hstate
  rw [hstateKey] at hallocation
  obtain ⟨pool', allocation'', hpool', hallocation', hmirror⟩ := h.ledger.mirrored _ state hstate
  rw [hpool] at hpool'
  cases hpool'
  rw [hallocation] at hallocation'
  cases hallocation'
  have hrequested := h.books.requested_le hget ht hopen hstate (hgeneration.trans hgen.symm)
  have hmirror' := hmirrors hmirror
  have hbudget : state'.usedCapacity ≤ min state'.limit state'.configuredCapacity := by
    refine le_trans ?_ ((h.ledger.budgetBound _ state hstate).trans_eq (by rw [hlimit, hcapacity]))
    unfold BudgetState.usedCapacity
    rw [hidentity, hcurrent, hreserved, hcumulative]
    exact use_settled_le hmeasured hrequested
  have huse : pool.allocationUse allocation' ≤ pool.allocationUse allocation := by
    unfold PoolState.allocationUse
    rw [hmirror'.1, hmirror'.2.1, hmirror'.2.2, hmirror.1, hmirror.2.1, hmirror.2.2, hcurrent,
      hreserved, hcumulative]
    exact use_settled_le hmeasured hrequested
  refine ⟨?_, ?_, fun hstrict => ?_⟩
  · exact h.books.settle hget ht hopen hsettles hfresh hid hstate (hgeneration.trans hgen.symm)
      hgeneration' hreserved
  · rw [hstateKey]
    exact h.ledger.update hstate hpool hkey hidentity hmirror' hbudget
      ((h.ledger.poolBound _ pool hpool).lower hallocation hguarded huse)
  · refine ((h.current hstrict).set_state _ hstate hgeneration').set_event ?_ fun old hold => ?_
    · intro hreserve
      exact not_settles_of_reserve hreserve reservation hsettles
    · rw [hfresh] at hold
      cases hold

/-- A reservation that a settlement may reach: where the loop settles it, it is outstanding
and of the generation of its budget. -/
def Settleable (settlementId : String → String) (executionGeneration : ℤ) (snapshot : Snapshot)
    (reservation : BudgetEvent) : Prop :=
  snapshot.events.get? (settlementId reservation.budgetStateRef) = none →
    ∀ state, snapshot.states.get? reservation.budgetStateRef = some state →
      state.generation = executionGeneration →
        ¬ Settled snapshot.events reservation ∧
          reservation.executionGeneration = executionGeneration

theorem Settleable.settle {settlementId : String → String} {executionGeneration : ℤ}
    {reservation other : BudgetEvent}
    (hstep : SettleStep digest settlementId executionGeneration reservation working next)
    (hne : other.budgetStateRef ≠ reservation.budgetStateRef)
    (h : Settleable settlementId executionGeneration working other) :
    Settleable settlementId executionGeneration next other := by
  obtain ⟨hfresh, state, state', settlement, pool, allocation, allocation', _, _, _, _, _, _, _, _,
    _, _, hsettles, _, _, _, _, _, rfl⟩ := hstep
  intro hnone b hb hgeneration
  rw [Dict.get?_set] at hnone
  split at hnone
  · cases hnone
  · rw [Dict.get?_set_ne _ _ hne] at hb
    obtain ⟨hopen, hown⟩ := h hnone b hb hgeneration
    refine ⟨fun hsettled => ?_, hown⟩
    rcases (settled_set_settlement hfresh other).mp hsettled with hold | hnew
    · exact hopen hold
    · exact hne (hnew.2.2.symm.trans hsettles.2.2)

/-- A settlement loop keeps the books and the ledger, when each of its rounds leaves the
carriers or settles its reservation. -/
theorem Conserved.settleAll (settlementId : String → String) {executionGeneration : ℤ}
    {round : Snapshot → BudgetEvent → Except Halt Snapshot}
    {reservations : List BudgetEvent} (h : Conserved digest strict working)
    (hround : ∀ working, ∀ reservation ∈ reservations, ∀ next,
      Conserved digest strict working → round working reservation = .ok next → next = working ∨
        SettleStep digest settlementId executionGeneration reservation working next)
    (hevents : ∀ reservation ∈ reservations, reservation.transition = .reserve ∧
      ∃ id, working.events.get? id = some reservation)
    (hsettleable : ∀ reservation ∈ reservations,
      Settleable settlementId executionGeneration working reservation)
    (hdistinct : (reservations.map BudgetEvent.budgetStateRef).Nodup)
    (hok : reservations.foldlM round working = .ok next) : Conserved digest strict next := by
  induction reservations generalizing working with
  | nil =>
    cases hok
    exact h
  | cons reservation rest ih =>
    rw [List.foldlM_cons, bind_eq_ok_iff] at hok
    obtain ⟨middle, hmiddle, hok⟩ := hok
    rw [List.map_cons, List.nodup_cons] at hdistinct
    obtain ⟨ht, id, hget⟩ := hevents reservation List.mem_cons_self
    have hrest := fun working other hother => hround working other (List.mem_cons_of_mem _ hother)
    rcases hround working reservation List.mem_cons_self middle h hmiddle with rfl | hstep
    · exact ih h hrest (fun other hother => hevents other (List.mem_cons_of_mem _ hother))
        (fun other hother => hsettleable other (List.mem_cons_of_mem _ hother)) hdistinct.2 hok
    · have hstep' := hstep
      obtain ⟨hfresh, state, state', settlement, _, _, _, hstate, hgen, _, _, _, _, _, _, _, _, _, _,
        _, _, _, _, hmiddleEq⟩ := hstep
      obtain ⟨hopen, hgeneration⟩ :=
        hsettleable reservation List.mem_cons_self hfresh state hstate hgen
      have hne : ∀ other ∈ rest, other.budgetStateRef ≠ reservation.budgetStateRef :=
        fun other hother heq => hdistinct.1 (List.mem_map.mpr ⟨other, hother, heq⟩)
      refine ih (h.settle hget ht hopen hgeneration hstep') hrest (fun other hother => ?_)
        (fun other hother => ?_) hdistinct.2 hok
      · obtain ⟨ht', id', hget'⟩ := hevents other (List.mem_cons_of_mem _ hother)
        refine ⟨ht', id', ?_⟩
        rw [hmiddleEq]
        refine (Dict.get?_set_ne _ _ ?_).trans hget'
        rintro rfl
        rw [hfresh] at hget'
        cases hget'
      · exact (hsettleable other (List.mem_cons_of_mem _ hother)).settle hstep' (hne other hother)

end Conserved

end Raes.Budget
