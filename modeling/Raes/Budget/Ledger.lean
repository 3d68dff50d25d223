import Raes.Budget.Accounting

/-!
# The ledger of the pools

What holds between the budgets of a snapshot and the allocations of the pools
they draw on, and how much both may use.
-/

namespace Raes.Budget

def Mirrors (allocation : PoolAllocation) (state : BudgetState) : Prop :=
  allocation.reserved = state.reserved ∧ allocation.currentUse = state.currentUse ∧
    allocation.cumulativeUse = state.cumulativeUse

/-- A pool is within its capacity, and what is unprotected leaves the protected part. -/
def PoolState.Within (pool : PoolState) : Prop :=
  pool.allocatedTotal ≤ pool.capacity ∧
    pool.unprotectedTotal + pool.protectedCapacity ≤ pool.capacity

structure Ledger (digest : PoolDigest) (states : Dict String BudgetState)
    (pools : Dict String PoolState) : Prop where
  stateKey : ∀ ref state, states.get? ref = some state → state.stateRef = ref
  poolKey : ∀ poolRef pool, pools.get? poolRef = some pool → pool.poolStateRef = poolRef
  mirrored : ∀ ref state, states.get? ref = some state → ∃ pool allocation,
    pools.get? (digest.poolStateRef state.pool) = some pool ∧
      pool.allocations.get? ref = some allocation ∧ Mirrors allocation state
  allocated : ∀ poolRef pool, pools.get? poolRef = some pool → ∀ ref allocation,
    pool.allocations.get? ref = some allocation →
      ∃ state, states.get? ref = some state ∧ digest.poolStateRef state.pool = poolRef
  budgetBound : ∀ ref state, states.get? ref = some state →
    state.usedCapacity ≤ min state.limit state.configuredCapacity
  poolBound : ∀ poolRef pool, pools.get? poolRef = some pool → pool.Within

theorem ledger_empty (digest : PoolDigest) : Ledger digest Dict.empty Dict.empty where
  stateKey _ _ h := nomatch h
  poolKey _ _ h := nomatch h
  mirrored _ _ h := nomatch h
  allocated _ _ h := nomatch h
  budgetBound _ _ h := nomatch h
  poolBound _ _ h := nomatch h

section Ledger

variable {digest : PoolDigest} {states : Dict String BudgetState} {pools : Dict String PoolState}

/-- A budget and its allocation change together, within the capacities. -/
theorem Ledger.update (h : Ledger digest states pools) {ref : String}
    {state state' : BudgetState} {pool : PoolState} {allocation' : PoolAllocation}
    (hstate : states.get? ref = some state)
    (hpool : pools.get? (digest.poolStateRef state.pool) = some pool)
    (hkey : state'.stateRef = state.stateRef) (hidentity : state'.pool = state.pool)
    (hmirrors : Mirrors allocation' state')
    (hbudget : state'.usedCapacity ≤ min state'.limit state'.configuredCapacity)
    (hwithin : (pool.withAllocation ref allocation').Within) :
    Ledger digest (states.set ref state')
      (pools.set (digest.poolStateRef state.pool) (pool.withAllocation ref allocation')) := by
  constructor
  · intro ref' b hb
    rw [Dict.get?_set] at hb
    split at hb
    · next heq =>
      cases hb
      rw [heq, hkey]
      exact h.stateKey ref state hstate
    · exact h.stateKey ref' b hb
  · intro poolRef p hp
    rw [Dict.get?_set] at hp
    split at hp
    · next heq =>
      cases hp
      rw [heq]
      exact h.poolKey _ pool hpool
    · exact h.poolKey poolRef p hp
  · intro ref' b hb
    rw [Dict.get?_set] at hb
    split at hb
    · next heq =>
      cases hb
      refine ⟨pool.withAllocation ref allocation', allocation', ?_, ?_, hmirrors⟩
      · rw [hidentity]
        exact Dict.get?_set_self _ _ _
      · rw [heq]
        exact Dict.get?_set_self _ _ _
    · next hne =>
      obtain ⟨p, a, hp, ha, hm⟩ := h.mirrored ref' b hb
      rw [Dict.get?_set]
      split
      · next heq =>
        rw [heq, hpool] at hp
        cases hp
        exact ⟨pool.withAllocation ref allocation', a, rfl,
          (Dict.get?_set_ne _ _ hne).trans ha, hm⟩
      · exact ⟨p, a, hp, ha, hm⟩
  · intro poolRef p hp ref' a ha
    rw [Dict.get?_set]
    split
    · next heq =>
      refine ⟨state', rfl, ?_⟩
      rw [hidentity]
      rw [Dict.get?_set] at hp
      split at hp
      · next hpoolRef => exact hpoolRef.symm
      · obtain ⟨b, hb, hpoolRef⟩ := h.allocated poolRef p hp ref' a ha
        rw [heq, hstate] at hb
        cases hb
        exact hpoolRef
    · next hne =>
      rw [Dict.get?_set] at hp
      split at hp
      · next hpoolRef =>
        cases hp
        rw [hpoolRef]
        exact h.allocated _ pool hpool ref' a ((Dict.get?_set_ne _ _ hne).symm.trans ha)
      · exact h.allocated poolRef p hp ref' a ha
  · intro ref' b hb
    rw [Dict.get?_set] at hb
    split at hb
    · cases hb
      exact hbudget
    · exact h.budgetBound ref' b hb
  · intro poolRef p hp
    rw [Dict.get?_set] at hp
    split at hp
    · cases hp
      exact hwithin
    · exact h.poolBound poolRef p hp

theorem PoolState.Within.lower {pool : PoolState} (h : pool.Within) {ref : String}
    {allocation allocation' : PoolAllocation}
    (hallocation : pool.allocations.get? ref = some allocation)
    (hguarded : allocation'.guarded = allocation.guarded)
    (huse : pool.allocationUse allocation' ≤ pool.allocationUse allocation) :
    (pool.withAllocation ref allocation').Within := by
  have htotal := allocatedTotal_update hallocation allocation'
  have hunprotected := unprotectedTotal_update hallocation allocation'
  obtain ⟨hcapacity, hprotected⟩ := h
  refine ⟨?_, ?_⟩
  · show PoolState.allocatedTotal _ ≤ pool.capacity
    omega
  · show PoolState.unprotectedTotal _ + pool.protectedCapacity ≤ pool.capacity
    rw [hguarded] at hunprotected
    split at hunprotected <;> omega

theorem PoolState.Within.reserve {pool : PoolState} {ref : String} {amount : ℕ}
    {allocation : PoolAllocation}
    (hallocation : pool.allocations.get? ref = some allocation)
    (hwithin : pool.Within) (hadmits : canReserve pool ref amount = .ok true) :
    (pool.withAllocation ref (allocation.reserve amount)).Within := by
  have htotal := allocatedTotal_update hallocation (allocation.reserve amount)
  have hunprotected := unprotectedTotal_update hallocation (allocation.reserve amount)
  have huse : pool.allocationUse (allocation.reserve amount) =
      pool.allocationUse allocation + amount := by
    unfold PoolState.allocationUse
    split <;> exact (Nat.add_assoc _ _ _).symm
  have hguarded : (allocation.reserve amount).guarded = allocation.guarded := rfl
  have hchecked : pool.allocatedTotal + amount ≤ pool.capacity ∧
      (allocation.guarded = true ∨
        (pool.unprotectedTotal + amount : ℤ) ≤ pool.capacity - pool.protectedCapacity) := by
    unfold canReserve at hadmits
    rw [bind_eq_ok_iff] at hadmits
    obtain ⟨a, ha, hdecide⟩ := hadmits
    rw [PoolState.allocation_ok_iff, hallocation] at ha
    cases ha
    exact of_decide_eq_true (Except.ok.inj hdecide)
  obtain ⟨hcapacity, hprotected⟩ := hwithin
  refine ⟨?_, ?_⟩
  · show PoolState.allocatedTotal _ ≤ pool.capacity
    omega
  · show PoolState.unprotectedTotal _ + pool.protectedCapacity ≤ pool.capacity
    rw [hguarded] at hunprotected
    by_cases hflag : allocation.guarded = true
    · rw [if_pos hflag, if_pos hflag] at hunprotected
      omega
    · rw [if_neg hflag, if_neg hflag] at hunprotected
      have hfits := hchecked.2.resolve_left hflag
      omega

theorem Ledger.new_budget (h : Ledger digest states pools) {ref poolRef : String}
    {state : BudgetState} {pool : PoolState} {allocation : PoolAllocation}
    (hnone : states.get? ref = none)
    (hpool : pools.get? poolRef = some pool ∨
      pools.get? poolRef = none ∧ pool.allocations = Dict.empty ∧ pool.poolStateRef = poolRef ∧
        pool.Within)
    (hkey : state.stateRef = ref) (hidentity : digest.poolStateRef state.pool = poolRef)
    (hmirrors : Mirrors allocation state) (hreserved : state.reserved = 0)
    (hcurrent : state.currentUse = 0) (hcumulative : state.cumulativeUse = 0) :
    Ledger digest (states.set ref state)
      (pools.set poolRef (pool.withAllocation ref allocation)) := by
  have hunallocated : pool.allocations.get? ref = none := by
    rcases hpool with hpool | ⟨_, hempty, _⟩
    · cases hget : pool.allocations.get? ref with
      | none => rfl
      | some a =>
        obtain ⟨b, hb, _⟩ := h.allocated poolRef pool hpool ref a hget
        rw [hnone] at hb
        cases hb
    · rw [hempty]
      rfl
  have hwithin : pool.Within := by
    rcases hpool with hpool | ⟨_, _, _, hwithin⟩
    · exact h.poolBound poolRef pool hpool
    · exact hwithin
  have huse : pool.allocationUse allocation = 0 := by
    obtain ⟨ha, hb, hc⟩ := hmirrors
    unfold PoolState.allocationUse
    split <;> omega
  constructor
  · intro ref' b hb
    rw [Dict.get?_set] at hb
    split at hb
    · next heq =>
      cases hb
      rw [heq, hkey]
    · exact h.stateKey ref' b hb
  · intro poolRef' p hp
    rw [Dict.get?_set] at hp
    split at hp
    · next heq =>
      cases hp
      rw [heq]
      rcases hpool with hpool | ⟨_, _, hpoolKey, _⟩
      · exact h.poolKey poolRef pool hpool
      · exact hpoolKey
    · exact h.poolKey poolRef' p hp
  · intro ref' b hb
    rw [Dict.get?_set] at hb
    split at hb
    · next heq =>
      cases hb
      refine ⟨pool.withAllocation ref allocation, allocation, ?_, ?_, hmirrors⟩
      · rw [hidentity]
        exact Dict.get?_set_self _ _ _
      · rw [heq]
        exact Dict.get?_set_self _ _ _
    · next hne =>
      obtain ⟨p, a, hp, ha, hm⟩ := h.mirrored ref' b hb
      rw [Dict.get?_set]
      split
      · next heq =>
        rw [heq] at hp
        rcases hpool with hpool | ⟨hnew, _⟩
        · rw [hpool] at hp
          cases hp
          exact ⟨pool.withAllocation ref allocation, a, rfl,
            (Dict.get?_set_ne _ _ hne).trans ha, hm⟩
        · rw [hnew] at hp
          cases hp
      · exact ⟨p, a, hp, ha, hm⟩
  · intro poolRef' p hp ref' a ha
    rw [Dict.get?_set] at hp
    rw [Dict.get?_set]
    split at hp
    · next hpoolRef =>
      cases hp
      split
      · exact ⟨state, rfl, hidentity.trans hpoolRef.symm⟩
      · next hne =>
        have ha' : pool.allocations.get? ref' = some a :=
          (Dict.get?_set_ne _ _ hne).symm.trans ha
        rcases hpool with hpool | ⟨_, hempty, _⟩
        · rw [hpoolRef]
          exact h.allocated poolRef pool hpool ref' a ha'
        · rw [hempty] at ha'
          cases ha'
    · obtain ⟨b, hb, hpoolRef⟩ := h.allocated poolRef' p hp ref' a ha
      split
      · next heq =>
        rw [heq, hnone] at hb
        cases hb
      · exact ⟨b, hb, hpoolRef⟩
  · intro ref' b hb
    rw [Dict.get?_set] at hb
    split at hb
    · cases hb
      unfold BudgetState.usedCapacity
      split <;> omega
    · exact h.budgetBound ref' b hb
  · intro poolRef' p hp
    rw [Dict.get?_set] at hp
    split at hp
    · cases hp
      refine ⟨?_, ?_⟩
      · rw [allocatedTotal_new hunallocated, huse]
        exact hwithin.1
      · rw [unprotectedTotal_new hunallocated, huse, ite_self]
        exact hwithin.2
    · exact h.poolBound poolRef' p hp

theorem Ledger.set_state (h : Ledger digest states pools) {ref : String}
    {state state' : BudgetState} (hstate : states.get? ref = some state)
    (hkey : state'.stateRef = state.stateRef) (hidentity : state'.pool = state.pool)
    (hmirrors : ∀ allocation, Mirrors allocation state → Mirrors allocation state')
    (hbudget : state'.usedCapacity ≤ min state'.limit state'.configuredCapacity) :
    Ledger digest (states.set ref state') pools := by
  constructor
  · intro ref' b hb
    rw [Dict.get?_set] at hb
    split at hb
    · next heq =>
      cases hb
      rw [heq, hkey]
      exact h.stateKey ref state hstate
    · exact h.stateKey ref' b hb
  · exact h.poolKey
  · intro ref' b hb
    rw [Dict.get?_set] at hb
    split at hb
    · next heq =>
      cases hb
      rw [hidentity, heq]
      obtain ⟨p, a, hp, ha, hm⟩ := h.mirrored ref state hstate
      exact ⟨p, a, hp, ha, hmirrors a hm⟩
    · exact h.mirrored ref' b hb
  · intro poolRef p hp ref' a ha
    obtain ⟨b, hb, hpoolRef⟩ := h.allocated poolRef p hp ref' a ha
    rw [Dict.get?_set]
    split
    · next heq =>
      rw [heq, hstate] at hb
      cases hb
      exact ⟨state', rfl, by rw [hidentity]; exact hpoolRef⟩
    · exact ⟨b, hb, hpoolRef⟩
  · intro ref' b hb
    rw [Dict.get?_set] at hb
    split at hb
    · cases hb
      exact hbudget
    · exact h.budgetBound ref' b hb
  · exact h.poolBound

end Ledger

end Raes.Budget
