import Raes.Lib.Stateful
import Raes.Budget.Calls

/-!
# Runs of calls

A call is sound when it cannot settle a reservation twice or across a
reconciliation, draws on different pools and overwrites no event of a
reservation.  A run of sound calls conserves every budget.
-/

namespace Raes.Budget

section Rounds

variable {digest : PoolDigest} {strict : Prop} {snapshot working next : Snapshot}

/-! ## Rounds of the settlement loops -/

theorem updatePool_ok {current : BudgetState} {f : PoolState → Except PyError PoolState}
    {pools : Dict String PoolState} (h : updatePool digest working current f = .ok pools) :
    ∃ pool updated, working.pools.get? (digest.poolStateRef current.pool) = some pool ∧
      f pool = .ok updated ∧
      pools = working.pools.set (digest.poolStateRef current.pool) updated := by
  unfold updatePool at h
  rw [bind_eq_ok_iff] at h
  obtain ⟨pool, hpool, h⟩ := h
  rw [seq_eq_ok_iff, bind_eq_ok_iff] at h
  obtain ⟨_, updated, hupdated, h⟩ := h
  exact ⟨pool, updated, require_ok_iff.mp hpool, hupdated, (Except.ok.inj h).symm⟩

variable {evidenceRefs : List String} {reservation : BudgetEvent} {operationId : String}

theorem settleStep_commitOpen {executionGeneration : ℤ} {measured : ℕ}
    (hop : reservation.operationId = operationId) (hmeasured : measured ≤ reservation.requested)
    (hfresh : working.events.get? (commitEventId operationId reservation.budgetStateRef) = none)
    (hok : commitOpen digest snapshot operationId executionGeneration evidenceRefs working
      reservation measured = .ok next) :
    SettleStep digest (commitEventId operationId) executionGeneration reservation working next := by
  unfold commitOpen at hok
  simp only [bind_eq_ok_iff, raising_ok_iff, require_ok_iff, haltIf_eq_ok_iff,
    not_not] at hok
  obtain ⟨state, hstate, _, _, _, hgeneration, _, _, pools, hpools, hok⟩ := hok
  obtain ⟨pool, updated, hpool, hupdated, rfl⟩ := updatePool_ok hpools
  rw [PoolState.commit, PoolState.update_ok_iff] at hupdated
  obtain ⟨allocation, hallocation, rfl⟩ := hupdated
  cases hok
  refine ⟨hfresh, state, committedState state reservation.requested measured
    (commitEventId operationId reservation.budgetStateRef) evidenceRefs,
    settlementEvent reservation state (commitEventId operationId reservation.budgetStateRef)
      executionGeneration .commit (some measured) evidenceRefs,
    pool, allocation, allocation.commit reservation.requested measured, hstate, hgeneration, rfl, rfl, rfl, rfl, rfl, rfl, rfl, ⟨measured, hmeasured, rfl⟩,
    ⟨Or.inl rfl, rfl, rfl⟩, Or.inl ⟨rfl, ?_⟩, hpool, hallocation, fun hmirrors => ?_, rfl, rfl⟩
  · exact congrArg (commitEventId · reservation.budgetStateRef) hop.symm
  · exact ⟨congrArg (· - reservation.requested) hmirrors.1, hmirrors.2.1,
      congrArg (· + measured) hmirrors.2.2⟩

theorem settleStep_releaseOpen (h : Conserved digest strict working) {executionGeneration : ℤ}
    (hop : reservation.operationId = operationId)
    (hfresh : working.events.get? (releaseEventId operationId reservation.budgetStateRef) = none)
    (hok : releaseOpen digest snapshot operationId executionGeneration evidenceRefs working
      reservation = .ok next) :
    SettleStep digest (releaseEventId operationId) executionGeneration reservation working
      next := by
  unfold releaseOpen at hok
  simp only [bind_eq_ok_iff, raising_ok_iff, require_ok_iff, haltIf_eq_ok_iff,
    not_not] at hok
  obtain ⟨state, hstate, _, _, _, hgeneration, _, _, pools, hpools, hok⟩ := hok
  obtain ⟨pool, updated, hpool, hupdated, rfl⟩ := updatePool_ok hpools
  rw [PoolState.release, PoolState.update_ok_iff] at hupdated
  obtain ⟨allocation, hallocation, rfl⟩ := hupdated
  have hkey := h.ledger.stateKey _ state hstate
  rw [hkey] at hallocation hok
  cases hok
  refine ⟨hfresh, state, releasedState state reservation.requested
    (releaseEventId operationId reservation.budgetStateRef) evidenceRefs,
    settlementEvent reservation state (releaseEventId operationId reservation.budgetStateRef)
      executionGeneration .release none evidenceRefs,
    pool, allocation, allocation.release reservation.requested, hstate, hgeneration, rfl, rfl, rfl, rfl, rfl, rfl, rfl, ⟨0, Nat.zero_le _, rfl⟩,
    ⟨Or.inr rfl, rfl, rfl⟩, Or.inr ⟨rfl, ?_⟩, hpool, hkey.symm ▸ hallocation,
    fun hmirrors => ?_, rfl, ?_⟩
  · exact congrArg (releaseEventId · reservation.budgetStateRef) hop.symm
  · exact ⟨congrArg (· - reservation.requested) hmirrors.1, hmirrors.2⟩
  · rw [hkey]

/-! ## The reservations of an operation -/

theorem mem_operationReservations {events : Dict String BudgetEvent}
    (h : reservation ∈ operationReservations events operationId) :
    reservation.operationId = operationId ∧ reservation.transition = .reserve ∧
      ∃ id, events.get? id = some reservation := by
  rw [operationReservations, List.mem_filter] at h
  obtain ⟨hop, ht⟩ := of_decide_eq_true h.2
  exact ⟨hop, ht, Dict.mem_values_iff.mp h.1⟩

theorem operationReservations_distinct {states : Dict String BudgetState}
    {events : Dict String BudgetEvent} (h : Books states events) (operationId : String) :
    ((operationReservations events operationId).map BudgetEvent.budgetStateRef).Nodup := by
  let own : String × BudgetEvent → Bool := fun entry =>
    decide (entry.2.operationId = operationId ∧ entry.2.transition = .reserve)
  have hlist : operationReservations events operationId =
      (events.entries.filter own).map Prod.snd := by
    unfold operationReservations Dict.values
    rw [List.filter_map]
    rfl
  have hkeys : (events.entries.filter own).map Prod.fst =
      ((events.entries.filter own).map (fun entry => entry.2.budgetStateRef)).map
        (reserveEventId operationId) := by
    rw [List.map_map]
    refine List.map_congr_left fun entry hentry => ?_
    rw [List.mem_filter] at hentry
    obtain ⟨hop, ht⟩ := of_decide_eq_true hentry.2
    have hget := Dict.get?_eq_some_iff.mpr hentry.1
    rw [h.reserveKey entry.1 entry.2 hget ht, hop]
    rfl
  have hnodup : ((events.entries.filter own).map Prod.fst).Nodup :=
    events.nodup.sublist (List.filter_sublist.map _)
  rw [hkeys] at hnodup
  rw [hlist, List.map_map]
  exact hnodup.of_map _

/-! ## Reconciliation -/

theorem Conserved.reconcileBudget (h : Conserved digest strict working) {policyAddress : String}
    {currentGeneration nextGeneration : ℤ} {boundary : String} {evidenceRefs : List String}
    {ref : String} {state : BudgetState} (hstate : working.states.get? ref = some state)
    (hgeneration : state.generation = currentGeneration)
    (hlater : currentGeneration < nextGeneration)
    (hneutral : ∀ old, working.events.get? (reconcileEventId policyAddress nextGeneration ref) =
      some old → old.Neutral)
    (hdrained : strict → ∀ id event, working.events.get? id = some event →
      ¬ Outstanding working.events ref event)
    (hok : reconcileBudget digest policyAddress nextGeneration boundary evidenceRefs working
      (ref, state) = .ok next) :
    Conserved digest strict next ∧
      next.events = working.events.set (reconcileEventId policyAddress nextGeneration ref)
        (reconcileEvent policyAddress nextGeneration evidenceRefs ref state) ∧
      ∃ state', next.states = working.states.set ref state' := by
  unfold Budget.reconcileBudget at hok
  rw [seq_eq_ok_iff, bind_eq_ok_iff] at hok
  obtain ⟨_, pools, hpools, hok⟩ := hok
  obtain ⟨pool, updated, hpool, hupdated, rfl⟩ := updatePool_ok hpools
  rw [PoolState.reconcile, PoolState.update_ok_iff] at hupdated
  obtain ⟨allocation, hallocation, rfl⟩ := hupdated
  have hkey := h.ledger.stateKey _ state hstate
  rw [hkey] at hallocation
  obtain ⟨pool', allocation', hpool', hallocation', hmirrors⟩ := h.ledger.mirrored _ state hstate
  rw [hpool] at hpool'
  cases hpool'
  rw [hallocation] at hallocation'
  cases hallocation'
  cases hok
  have hevent : (reconcileEvent policyAddress nextGeneration evidenceRefs ref state).Neutral :=
    BudgetEvent.neutral_of_transition (Or.inr rfl)
  refine ⟨⟨?_, ?_, fun hstrict => ?_⟩, rfl, _, rfl⟩
  · refine (h.books.advance hstate ?_ rfl).set_neutral hevent hneutral
    exact hgeneration.trans_lt hlater
  · show Ledger digest _ (working.pools.set (digest.poolStateRef state.pool)
      (pool.withAllocation state.stateRef _))
    rw [hkey]
    refine h.ledger.update hstate hpool rfl rfl ⟨rfl, ?_, ?_⟩ ?_ ?_
    · show (if _ then 0 else allocation.currentUse) = if _ then 0 else state.currentUse
      rw [hmirrors.2.1]
    · show (if _ then 0 else allocation.cumulativeUse) = if _ then 0 else state.cumulativeUse
      rw [hmirrors.2.2]
    · refine le_trans ?_ (h.ledger.budgetBound _ state hstate)
      unfold BudgetState.usedCapacity
      show (if state.pool.accountingMode.isGauge then (if _ then 0 else state.currentUse) + 0
        else (if _ then 0 else state.cumulativeUse) + 0) ≤ _
      split <;> split <;> omega
    · refine (h.ledger.poolBound _ pool hpool).lower hallocation rfl ?_
      unfold PoolState.allocationUse
      show (if pool.pool.accountingMode.isGauge then (if _ then 0 else allocation.currentUse) + 0
        else (if _ then 0 else allocation.cumulativeUse) + 0) ≤ _
      split <;> split <;> omega
  · exact ((h.current hstrict).advance (hdrained hstrict) _).set_event hevent.1 hneutral

theorem Conserved.reconcileAll {policyAddress : String} {currentGeneration nextGeneration : ℤ}
    {boundary : String} {selected : List (String × BudgetState)}
    (h : Conserved digest strict working) (hlater : currentGeneration < nextGeneration)
    (hdistinct : (selected.map Prod.fst).Nodup)
    (hstates : ∀ entry ∈ selected, working.states.get? entry.1 = some entry.2 ∧
      entry.2.generation = currentGeneration)
    (hneutral : ∀ entry ∈ selected, ∀ old, working.events.get?
      (reconcileEventId policyAddress nextGeneration entry.1) = some old → old.Neutral)
    (hdrained : strict → ∀ entry ∈ selected, ∀ id event, working.events.get? id = some event →
      ¬ Outstanding working.events entry.1 event)
    (hok : selected.foldlM (Budget.reconcileBudget digest policyAddress nextGeneration boundary
      evidenceRefs) working = .ok next) : Conserved digest strict next := by
  induction selected generalizing working with
  | nil =>
    cases hok
    exact h
  | cons entry rest ih =>
    obtain ⟨ref, state⟩ := entry
    rw [List.foldlM_cons, bind_eq_ok_iff] at hok
    obtain ⟨middle, hmiddle, hok⟩ := hok
    rw [List.map_cons, List.nodup_cons] at hdistinct
    obtain ⟨hstate, hgeneration⟩ := hstates _ List.mem_cons_self
    have hold := hneutral _ List.mem_cons_self
    obtain ⟨hconserved, hevents, state', hstates'⟩ := h.reconcileBudget hstate hgeneration hlater
      hold (fun hstrict => hdrained hstrict _ List.mem_cons_self) hmiddle
    have hevent : (reconcileEvent policyAddress nextGeneration evidenceRefs ref state).Neutral :=
      BudgetEvent.neutral_of_transition (Or.inr rfl)
    refine ih hconserved hdistinct.2 (fun other hother => ?_) (fun other hother old hget => ?_)
      (fun hstrict other hother id event hget => ?_) hok
    · have hne : other.1 ≠ ref := fun heq =>
        hdistinct.1 (List.mem_map.mpr ⟨other, hother, heq⟩)
      rw [hstates', Dict.get?_set_ne _ _ hne]
      exact hstates other (List.mem_cons_of_mem _ hother)
    · rw [hevents, Dict.get?_set] at hget
      split at hget
      · cases hget
        exact hevent
      · exact hneutral other (List.mem_cons_of_mem _ hother) old hget
    · rw [hevents] at hget ⊢
      rintro ⟨ht, href, hopen⟩
      rw [settled_set_iff (hevent.not_settles event) fun old hget' =>
        (hold old hget').not_settles event] at hopen
      rw [Dict.get?_set] at hget
      split at hget
      · cases hget
        exact hevent.1 ht
      · exact hdrained hstrict other (List.mem_cons_of_mem _ hother) id event hget
          ⟨ht, href, hopen⟩

end Rounds

/-! ## Sound calls -/

def DifferentPools (digest : PoolDigest) (snapshot : Snapshot) (policy : ResourcePolicy)
    (demand other : ResourceDemand) : Prop :=
  ∀ state state',
    snapshot.states.get? (budgetStateRef policy.address demand.budgetId) = some state →
      snapshot.states.get? (budgetStateRef policy.address other.budgetId) = some state' →
        digest.poolStateRef state.pool ≠ digest.poolStateRef state'.pool

/-- A call that cannot mistake one reservation for another. -/
def Sound (digest : PoolDigest) (snapshot : Snapshot) : Call → Prop
  | .initializeBudgets _ _ _ => True
  | .reserve policy operationId _ _ =>
    (reserveEventIds policy operationId ≠ [] ∧
      ∀ eventId ∈ reserveEventIds policy operationId, snapshot.events.contains eventId = true) ∨
    (∀ eventId ∈ reserveEventIds policy operationId, snapshot.events.get? eventId = none) ∧
      policy.demands.Pairwise (DifferentPools digest snapshot policy)
  | .commit operationId executionGeneration _ _ =>
    ∀ reservation ∈ operationReservations snapshot.events operationId,
      Settleable (commitEventId operationId) executionGeneration snapshot reservation
  | .release operationId executionGeneration _ =>
    ∀ reservation ∈ operationReservations snapshot.events operationId,
      Settleable (releaseEventId operationId) executionGeneration snapshot reservation
  | .reconcile policyAddress _ nextGeneration _ _ =>
    ∀ entry ∈ policyBudgets snapshot policyAddress, ∀ old, snapshot.events.get?
      (reconcileEventId policyAddress nextGeneration entry.1) = some old → old.Neutral

/-- A reconciliation finds no reservation of its budgets outstanding. -/
def Drained (snapshot : Snapshot) : Call → Prop
  | .reconcile policyAddress _ _ _ _ =>
    ∀ entry ∈ policyBudgets snapshot policyAddress, ∀ id event,
      snapshot.events.get? id = some event → ¬ Outstanding snapshot.events entry.1 event
  | _ => True

section Steps

variable {digest : PoolDigest} {strict : Prop} {snapshot : Snapshot}

theorem Conserved.onlyThrottles (h : Conserved digest strict snapshot) {next : Snapshot}
    (hnext : OnlyThrottles snapshot next) : Conserved digest strict next := by
  rcases hnext with rfl | ⟨current, event, hstate, ht, hkey, rfl⟩
  · exact h
  · exact h.throttled hstate ht hkey

theorem Conserved.settleCall (h : Conserved digest strict snapshot)
    {m : Except Halt Snapshot} {result : ApplyResult} (hm : Refusing snapshot m)
    (hdone : ∀ working, m = .ok working → Conserved digest strict working)
    (hok : settleCall (m >>= fun working => do
      let next ← raising (withEntries digest working)
      return (⟨true, next, []⟩ : ApplyResult)) = .ok result) :
    Conserved digest strict result.snapshot := by
  rcases settleCall_cases hm hok with ⟨working, hworking, hresult⟩ | hthrottles
  · rw [hresult]
    exact hdone working hworking
  · exact h.onlyThrottles hthrottles

theorem Conserved.initialization (h : Conserved digest strict snapshot)
    {policies : List ResourcePolicy} {capabilities : Capabilities} {executionGeneration : ℤ}
    {result : ApplyResult}
    (hok : initializeBudgets digest snapshot policies capabilities executionGeneration =
      .ok result) : Conserved digest strict result.snapshot := by
  refine h.settleCall (refusing_initialization policies capabilities executionGeneration)
    (fun working hworking => ?_) hok
  refine foldlM_keeps (fun next policy _ hnext later hlater => ?_) h hworking
  exact foldlM_keeps (fun next demand _ hnext later hlater =>
    hnext.initializeDemand hlater) hnext hlater

theorem Conserved.reserve (h : Conserved digest strict snapshot) {policy : ResourcePolicy}
    {operationId : String} {executionGeneration : ℤ} {requested : Option (Dict String ℤ)}
    {result : ApplyResult}
    (hsound : Sound digest snapshot (.reserve policy operationId executionGeneration requested))
    (hok : reserveResources digest snapshot policy operationId executionGeneration requested =
      .ok result) : Conserved digest strict result.snapshot := by
  unfold reserveResources at hok
  split at hok
  · cases hok
    exact h
  · next hnew =>
    rcases hsound with hrepeated | ⟨hfresh, hpools⟩
    · exact absurd hrepeated hnew
    have hfreshDemand : ∀ demand ∈ policy.demands, snapshot.events.get? (reserveEventId operationId
        (budgetStateRef policy.address demand.budgetId)) = none := fun demand hdemand =>
      hfresh _ (List.mem_map.mpr ⟨demand, hdemand, rfl⟩)
    refine h.settleCall (refusing_reservation h.ledger policy operationId executionGeneration
      requested) (fun working hworking => ?_) (by rw [bind_assoc]; exact hok)
    rw [bind_eq_ok_iff] at hworking
    obtain ⟨checked, hchecked, hworking⟩ := hworking
    rw [raising_ok_iff] at hworking
    rw [mapM_eq_ok_iff] at hchecked
    refine h.applyReservations (fun check hcheck => ?_) ?_ hworking
    · obtain ⟨demand, hdemand, hok⟩ := exists_left_of_forall₂ hchecked hcheck
      exact (checkReservation_ok h (hfreshDemand demand hdemand) hok).2
    · -- each check knows the budget that its demand names
      have hnamed : List.Forall₂ (fun demand (check : ReservationCheck) => snapshot.states.get?
          (budgetStateRef policy.address demand.budgetId) = some check.current)
          policy.demands checked := by
        refine forall₂_imp_of_mem hchecked fun demand hdemand check hok => ?_
        obtain ⟨hkey, hfits⟩ := checkReservation_ok h (hfreshDemand demand hdemand) hok
        exact hkey ▸ hfits.state
      exact pairwise_of_forall₂ hnamed hpools fun _ check _ check' hcheck hcheck' hdifferent =>
        hdifferent check.current check'.current hcheck hcheck'

theorem Conserved.commit (h : Conserved digest strict snapshot) {operationId : String}
    {executionGeneration : ℤ} {measured : Dict String ℤ} {evidenceRefs : List String}
    {result : ApplyResult}
    (hsound : Sound digest snapshot
      (.commit operationId executionGeneration measured evidenceRefs))
    (hok : commitResources digest snapshot operationId executionGeneration measured evidenceRefs =
      .ok result) : Conserved digest strict result.snapshot := by
  unfold commitResources at hok
  split at hok
  · cases hok
    exact h
  · next first rest hreservations =>
    split at hok
    · cases hok
      exact h
    · next hvalid =>
      rw [not_not] at hvalid
      refine h.settleCall (refusing_commits _ operationId executionGeneration measured
        evidenceRefs) (fun working hworking => ?_) hok
      rw [← hreservations] at hworking hvalid
      refine h.settleAll (commitEventId operationId) ?_
        (fun reservation hmem => (mem_operationReservations hmem).2) hsound
        (operationReservations_distinct h.books operationId) hworking
      intro working reservation hmem next hconserved hround
      unfold commitReservation at hround
      split at hround
      · cases hround
      · next quantity hquantity =>
        split at hround
        · cases hround
          exact Or.inl rfl
        · next hfresh =>
          have hbound := hvalid.2.2 reservation hmem quantity hquantity
          refine Or.inr (settleStep_commitOpen (mem_operationReservations hmem).1 ?_
            (get?_of_not_contains (Bool.eq_false_iff.mpr hfresh)) hround)
          exact Int.toNat_le.mpr hbound.2

theorem Conserved.release (h : Conserved digest strict snapshot) {operationId : String}
    {executionGeneration : ℤ} {evidenceRefs : List String} {result : ApplyResult}
    (hsound : Sound digest snapshot (.release operationId executionGeneration evidenceRefs))
    (hok : releaseResources digest snapshot operationId executionGeneration evidenceRefs =
      .ok result) : Conserved digest strict result.snapshot := by
  unfold releaseResources at hok
  split at hok
  · cases hok
    exact h
  · next first rest hreservations =>
    refine h.settleCall (refusing_releases _ operationId executionGeneration evidenceRefs)
      (fun working hworking => ?_) hok
    rw [← hreservations] at hworking
    refine h.settleAll (releaseEventId operationId) ?_
      (fun reservation hmem => (mem_operationReservations hmem).2) hsound
      (operationReservations_distinct h.books operationId) hworking
    intro working reservation hmem next hconserved hround
    unfold releaseReservation at hround
    split at hround
    · cases hround
      exact Or.inl rfl
    · next hfresh =>
      exact Or.inr (settleStep_releaseOpen hconserved (mem_operationReservations hmem).1
        (get?_of_not_contains (Bool.eq_false_iff.mpr hfresh)) hround)

theorem Conserved.reconcile (h : Conserved digest strict snapshot) {policyAddress : String}
    {currentGeneration nextGeneration : ℤ} {boundary : String} {evidenceRefs : List String}
    {result : ApplyResult}
    (hsound : Sound digest snapshot
      (.reconcile policyAddress currentGeneration nextGeneration boundary evidenceRefs))
    (hdrained : strict → Drained snapshot
      (.reconcile policyAddress currentGeneration nextGeneration boundary evidenceRefs))
    (hok : reconcileBudgets digest snapshot policyAddress currentGeneration nextGeneration boundary
      evidenceRefs = .ok result) : Conserved digest strict result.snapshot := by
  unfold reconcileBudgets at hok
  rw [seq_eq_ok_iff, refuseIf_eq_ok_iff, not_le, seq_eq_ok_iff] at hok
  obtain ⟨hlater, _, hok⟩ := hok
  split at hok
  · cases hok
    exact h
  · next hcurrent =>
    rw [bind_eq_ok_iff] at hok
    obtain ⟨working, hworking, hok⟩ := hok
    rw [bind_eq_ok_iff] at hok
    obtain ⟨next, hnext, hok⟩ := hok
    cases hok
    show Conserved digest strict next
    rw [withEntries_eq hnext]
    refine h.reconcileAll hlater ?_ (fun entry hentry => ⟨?_, ?_⟩) hsound hdrained hworking
    · exact snapshot.states.nodup.sublist (List.filter_sublist.map _)
    · exact Dict.get?_eq_some_iff.mpr (List.mem_filter.mp hentry).1
    · have hnone := List.find?_eq_none.mp hcurrent entry hentry
      simpa using hnone

theorem Conserved.applyCall (h : Conserved digest strict snapshot) {call : Call}
    {result : ApplyResult} (hsound : Sound digest snapshot call)
    (hdrained : strict → Drained snapshot call)
    (hok : applyCall digest snapshot call = .ok result) : Conserved digest strict result.snapshot := by
  cases call with
  | initializeBudgets policies capabilities executionGeneration => exact h.initialization hok
  | reserve policy operationId executionGeneration requested => exact h.reserve hsound hok
  | commit operationId executionGeneration measured evidenceRefs => exact h.commit hsound hok
  | release operationId executionGeneration evidenceRefs => exact h.release hsound hok
  | reconcile policyAddress currentGeneration nextGeneration boundary evidenceRefs =>
    exact h.reconcile hsound hdrained hok

theorem Conserved.callStep (h : Conserved digest strict snapshot) {call : Call}
    (hsound : Sound digest snapshot call) (hdrained : strict → Drained snapshot call) :
    Conserved digest strict (callStep digest snapshot call) := by
  unfold Budget.callStep
  split
  · next result hok => exact h.applyCall hsound hdrained hok
  · exact h

end Steps

/-! ## Runs -/

def runCalls (digest : PoolDigest) (calls : List Call) : Snapshot :=
  Run.run (callStep digest) Snapshot.empty calls

/-- Every call of a run meets a condition on the snapshot before it. -/
def AlongCalls (digest : PoolDigest) (condition : Snapshot → Call → Prop) (calls : List Call) :
    Prop :=
  Run.Along (callStep digest) condition Snapshot.empty calls

theorem conserved_run {digest : PoolDigest} {calls : List Call}
    (h : AlongCalls digest (Sound digest) calls) :
    Conserved digest (AlongCalls digest Drained calls) (runCalls digest calls) :=
  Run.run_invariant_along (fun _ _ hconserved hcall => hconserved.callStep hcall.1 hcall.2) _ _
    (conserved_empty digest _) (Run.along_and h id)

/-- What has to hold of a snapshot that calls have reached. -/
structure Conserves (digest : PoolDigest) (snapshot : Snapshot) : Prop where
  reserved : ∀ ref state, snapshot.states.get? ref = some state →
    state.reserved = outstanding snapshot.events ref
  mirrored : ∀ ref state, snapshot.states.get? ref = some state → ∃ pool allocation,
    snapshot.pools.get? (digest.poolStateRef state.pool) = some pool ∧
      pool.allocations.get? ref = some allocation ∧ Mirrors allocation state
  budgetBound : ∀ ref state, snapshot.states.get? ref = some state →
    state.usedCapacity ≤ min state.limit state.configuredCapacity
  poolBound : ∀ ref pool, snapshot.pools.get? ref = some pool →
    pool.allocatedTotal ≤ pool.capacity ∧
      pool.unprotectedTotal + pool.protectedCapacity ≤ pool.capacity
  raised : ∀ call error, applyCall digest snapshot call = .error error →
    callStep digest snapshot call = snapshot
  refused : ∀ call result, applyCall digest snapshot call = .ok result →
    result.success = false → OnlyThrottles snapshot (callStep digest snapshot call)

/-- A run of sound calls whose reconciliations find nothing outstanding conserves every
budget. -/
theorem budgets_conserved (digest : PoolDigest) (calls : List Call)
    (hsound : AlongCalls digest (Sound digest) calls)
    (hdrained : AlongCalls digest Drained calls) :
    Conserves digest (runCalls digest calls) := by
  have hconserved := conserved_run hsound
  refine ⟨fun ref state hstate => ?_, hconserved.ledger.mirrored, hconserved.ledger.budgetBound,
    hconserved.ledger.poolBound, fun call error herror => ?_, fun call result hresult hrefused => ?_⟩
  · rw [(hconserved.current hdrained).outstanding_eq hstate]
    exact hconserved.books.reserved ref state hstate
  · unfold callStep
    rw [herror]
  · have hstep : callStep digest (runCalls digest calls) call = result.snapshot := by
      unfold callStep
      rw [hresult]
    rw [hstep]
    exact onlyThrottles_of_refused hconserved.ledger hresult hrefused

/-! ## A reservation that is settled twice -/

def sampleDigest : PoolDigest := ⟨fun _ => "digest"⟩

def samplePoolIdentity : PoolIdentity :=
  ⟨"pool", .participant, "owner", .inferenceTokens, "tokens", .cumulativeCounter, "meter"⟩

def samplePolicy : ResourcePolicy :=
  ⟨"policy", [⟨"tokens", samplePoolIdentity, 10, 1, .run⟩],
    ⟨"standard", 1, false, "none", "none", 0, 1⟩⟩

def sampleCapabilities : Capabilities :=
  ⟨[⟨samplePoolIdentity, 100, 0, "bounded", ["standard"], "none", "none", 0, 1⟩],
    fun _ _ => true⟩

def sampleRef : String := "policy.resource-budget-state.tokens"

def quantities (ref : String) (quantity : ℤ) : Dict String ℤ := Dict.empty.set ref quantity

/-- Two operations reserve three and four tokens. -/
def sampleReservations : List Call :=
  [.initializeBudgets [samplePolicy] sampleCapabilities 0,
    .reserve samplePolicy "a" 0 (some (quantities "tokens" 3)),
    .reserve samplePolicy "b" 0 (some (quantities "tokens" 4))]

/-- The first operation is committed and then released. -/
def sampleDoubleSettlement : List Call :=
  sampleReservations ++ [.commit "a" 0 (quantities sampleRef 3) ["evidence"],
    .release "a" 0 ["evidence"]]

theorem not_budgets_conserved :
    ¬ ∀ (digest : PoolDigest) (calls : List Call), Conserves digest (runCalls digest calls) := by
  intro h
  have hreserved := (h sampleDigest sampleDoubleSettlement).reserved sampleRef
  have hstate : ((runCalls sampleDigest sampleDoubleSettlement).states.get? sampleRef).map
      BudgetState.reserved = some 1 := by decide +kernel
  have houtstanding :
      outstanding (runCalls sampleDigest sampleDoubleSettlement).events sampleRef = 4 := by
    decide +kernel
  obtain ⟨state, hget, hone⟩ := Option.map_eq_some_iff.mp hstate
  rw [hreserved state hget, houtstanding] at hone
  cases hone

def sampleSettlement : List Call :=
  sampleReservations ++ [.commit "a" 0 (quantities sampleRef 3) ["evidence"]]

theorem sampleSettlement_sound :
    AlongCalls sampleDigest (Sound sampleDigest) sampleSettlement := by
  refine ⟨trivial, Or.inr ⟨?_, List.pairwise_singleton _ _⟩,
    Or.inr ⟨?_, List.pairwise_singleton _ _⟩, ?_, trivial⟩
  · decide +kernel
  · decide +kernel
  · have hopen : ∀ reservation ∈
        operationReservations (runCalls sampleDigest sampleReservations).events "a",
        ¬ Settled (runCalls sampleDigest sampleReservations).events reservation ∧
          reservation.executionGeneration = 0 := by decide +kernel
    exact fun reservation hmem _ _ _ _ => hopen reservation hmem

theorem budgets_conserved_sampleSettlement :
    Conserves sampleDigest (runCalls sampleDigest sampleSettlement) :=
  budgets_conserved sampleDigest sampleSettlement sampleSettlement_sound
    ⟨trivial, trivial, trivial, trivial, trivial⟩

end Raes.Budget
