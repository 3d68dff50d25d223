import Raes.Budget.Conservation

/-!
# Calls

What a refused call leaves as it was, and which calls keep the books and the
ledger.
-/

namespace Raes.Budget

section Calls

variable {digest : PoolDigest} {strict : Prop} {snapshot working next : Snapshot}

/-! ## Refusals -/

/-- A refused call changes the throttling counter and the last event of one budget and
records the throttling, or nothing. -/
def OnlyThrottles (snapshot next : Snapshot) : Prop :=
  next = snapshot ∨ ∃ current event, snapshot.states.get? current.stateRef = some current ∧
    event.transition = .throttle ∧
    event.eventId = throttleEventId event.operationId current.stateRef ∧
    next = throttledSnapshot snapshot current event

def Halt.Refuses (snapshot : Snapshot) : Halt → Prop
  | .raised _ => True
  | .returned result => result.success = false ∧ OnlyThrottles snapshot result.snapshot

variable {α : Type}

/-- A part of a call that ends it with a refusal, if it ends it. -/
def Refusing (snapshot : Snapshot) (m : Except Halt α) : Prop :=
  ∀ halt, m = .error halt → halt.Refuses snapshot

theorem refusing_ok (a : α) : Refusing snapshot (.ok a : Except Halt α) :=
  fun _ h => nomatch h

theorem refusing_raising (x : Except PyError α) : Refusing snapshot (raising x) := by
  intro halt h
  cases x with
  | ok a => cases h
  | error error =>
    cases h
    trivial

theorem refuses_refusal (policyAddress code message : String) :
    (refusal snapshot policyAddress code message).Refuses snapshot := ⟨rfl, Or.inl rfl⟩

theorem refusing_error {halt : Halt} (h : halt.Refuses snapshot) :
    Refusing snapshot (.error halt : Except Halt α) := by
  intro other heq
  cases heq
  exact h

theorem refusing_haltIf {condition : Prop} [Decidable condition] {halt : Halt}
    (h : halt.Refuses snapshot) : Refusing snapshot (haltIf condition halt) := by
  unfold haltIf
  split
  · exact refusing_error h
  · exact refusing_ok ()

theorem Refusing.bind {α β : Type} {m : Except Halt α} {f : α → Except Halt β}
    (hm : Refusing snapshot m) (hf : ∀ a, m = .ok a → Refusing snapshot (f a)) :
    Refusing snapshot (m >>= f) := by
  intro halt h
  cases hcase : m with
  | error other =>
    rw [hcase] at h
    cases h
    exact hm halt hcase
  | ok a =>
    rw [hcase] at h
    exact hf a hcase halt h

theorem refusing_foldlM {f : Snapshot → α → Except Halt Snapshot} (l : List α)
    (h : ∀ working, ∀ a ∈ l, Refusing snapshot (f working a)) (working : Snapshot) :
    Refusing snapshot (l.foldlM f working) := by
  induction l generalizing working with
  | nil => exact refusing_ok working
  | cons a rest ih =>
    rw [List.foldlM_cons]
    exact (h working a List.mem_cons_self).bind fun next _ =>
      ih (fun working other hother => h working other (List.mem_cons_of_mem _ hother)) next

theorem refusing_mapM {α β : Type} {f : α → Except Halt β} (l : List α)
    (h : ∀ a ∈ l, Refusing snapshot (f a)) : Refusing snapshot (l.mapM f) := by
  induction l with
  | nil => exact refusing_ok []
  | cons a rest ih =>
    rw [List.mapM_cons]
    refine (h a List.mem_cons_self).bind fun b _ => ?_
    refine (ih fun other hother => h other (List.mem_cons_of_mem _ hother)).bind fun bs _ => ?_
    exact refusing_ok _

theorem refusing_finish (digest : PoolDigest) (working : Snapshot) : Refusing snapshot (do
    let next ← raising (withEntries digest working)
    return (⟨true, next, []⟩ : ApplyResult)) :=
  (refusing_raising _).bind fun _ _ => refusing_ok _

theorem refusing_initializeDemand (policy : ResourcePolicy) (capabilities : Capabilities)
    (executionGeneration : ℤ) (working : Snapshot) (demand : ResourceDemand) :
    Refusing snapshot (initializeDemand digest snapshot policy capabilities executionGeneration
      working demand) := by
  unfold initializeDemand
  split
  · exact refusing_error (refuses_refusal _ _ _)
  · split
    · exact refusing_error (refuses_refusal _ _ _)
    · split
      · unfold initializeNewBudget
        refine (refusing_raising _).bind fun _ _ => (refusing_raising _).bind fun _ _ => ?_
        split
        · split
          · exact refusing_error (refuses_refusal _ _ _)
          · exact refusing_error trivial
        · exact refusing_ok _
      · exact (refusing_raising _).bind fun _ _ =>
          (refusing_haltIf (refuses_refusal _ _ _)).bind fun _ _ => refusing_ok _

theorem refusing_checkReservation (h : Ledger digest snapshot.states snapshot.pools)
    (policy : ResourcePolicy) (operationId : String) (executionGeneration : ℤ)
    (requested : Option (Dict String ℤ)) (demand : ResourceDemand) :
    Refusing snapshot (checkReservation digest snapshot policy operationId executionGeneration
      requested demand) := by
  unfold checkReservation
  split
  · exact refusing_error (refuses_refusal _ _ _)
  · next current hcurrent =>
    refine (refusing_raising _).bind fun _ _ =>
      (refusing_haltIf (refuses_refusal _ _ _)).bind fun _ _ =>
        (refusing_raising _).bind fun amount _ => ?_
    split
    · exact refusing_error (refuses_refusal _ _ _)
    · refine (refusing_raising _).bind fun _ _ => Refusing.bind ?_ fun _ _ => refusing_ok _
      unfold capacityFailure
      refine (refusing_raising _).bind fun available _ => ?_
      split
      · exact refusing_ok _
      · refine (refusing_raising _).bind fun result hresult => refusing_error ?_
        rw [raising_ok_iff, throttledResult, seq_eq_ok_iff, bind_eq_ok_iff] at hresult
        obtain ⟨_, next, hnext, hresult⟩ := hresult
        cases hresult
        refine ⟨rfl, Or.inr ⟨current, _, ?_, rfl, rfl, withEntries_eq hnext⟩⟩
        rw [h.stateKey _ current hcurrent]
        exact hcurrent

theorem refusing_commitReservation (operationId : String) (executionGeneration : ℤ)
    (measured : Dict String ℤ) (evidenceRefs : List String) (working : Snapshot)
    (reservation : BudgetEvent) :
    Refusing snapshot (commitReservation digest snapshot operationId executionGeneration measured
      evidenceRefs working reservation) := by
  unfold commitReservation
  split
  · exact refusing_error trivial
  · split
    · exact refusing_ok _
    · exact (refusing_raising _).bind fun _ _ => (refusing_raising _).bind fun _ _ =>
        (refusing_haltIf (refuses_refusal _ _ _)).bind fun _ _ =>
          (refusing_raising _).bind fun _ _ => (refusing_raising _).bind fun _ _ => refusing_ok _

theorem refusing_releaseReservation (operationId : String) (executionGeneration : ℤ)
    (evidenceRefs : List String) (working : Snapshot) (reservation : BudgetEvent) :
    Refusing snapshot (releaseReservation digest snapshot operationId executionGeneration
      evidenceRefs working reservation) := by
  unfold releaseReservation
  split
  · exact refusing_ok _
  · exact (refusing_raising _).bind fun _ _ => (refusing_raising _).bind fun _ _ =>
      (refusing_haltIf (refuses_refusal _ _ _)).bind fun _ _ =>
        (refusing_raising _).bind fun _ _ => (refusing_raising _).bind fun _ _ => refusing_ok _

variable {result : ApplyResult}

theorem success_of_finish {working : Snapshot} (h : (do
      let next ← raising (withEntries digest working)
      return (⟨true, next, []⟩ : ApplyResult)) = .ok result) : result = ⟨true, working, []⟩ := by
  rw [bind_eq_ok_iff] at h
  obtain ⟨next, hnext, h⟩ := h
  rw [raising_ok_iff] at hnext
  cases h
  rw [withEntries_eq hnext]

/-- The two ways in which a call that changes the carriers ends: it has changed them, or it
only throttles. -/
theorem settleCall_cases {m : Except Halt Snapshot} (hm : Refusing snapshot m)
    (hok : settleCall (m >>= fun working => do
      let next ← raising (withEntries digest working)
      return (⟨true, next, []⟩ : ApplyResult)) = .ok result) :
    (∃ working, m = .ok working ∧ result = ⟨true, working, []⟩) ∨
      OnlyThrottles snapshot result.snapshot := by
  rcases (settleCall_ok_iff _ result).mp hok with hfinish | hreturned
  · rw [bind_eq_ok_iff] at hfinish
    obtain ⟨working, hworking, hfinish⟩ := hfinish
    exact Or.inl ⟨working, hworking, success_of_finish hfinish⟩
  · have hrefuses := (hm.bind fun working _ => refusing_finish digest working) _
      hreturned
    exact Or.inr hrefuses.2

theorem onlyThrottles_of_settleCall {m : Except Halt Snapshot} (hm : Refusing snapshot m)
    (hok : settleCall (m >>= fun working => do
      let next ← raising (withEntries digest working)
      return (⟨true, next, []⟩ : ApplyResult)) = .ok result)
    (hrefused : result.success = false) : OnlyThrottles snapshot result.snapshot := by
  rcases settleCall_cases hm hok with ⟨working, _, hresult⟩ | hthrottles
  · rw [hresult] at hrefused
    cases hrefused
  · exact hthrottles

theorem refusing_initialization (policies : List ResourcePolicy) (capabilities : Capabilities)
    (executionGeneration : ℤ) :
    Refusing snapshot (policies.foldlM (fun working policy => policy.demands.foldlM
      (initializeDemand digest snapshot policy capabilities executionGeneration) working)
        snapshot) :=
  refusing_foldlM policies (fun working policy _ => refusing_foldlM _ (fun working demand _ =>
    refusing_initializeDemand policy capabilities executionGeneration working demand) working)
    snapshot

theorem refusing_reservation (h : Ledger digest snapshot.states snapshot.pools)
    (policy : ResourcePolicy) (operationId : String) (executionGeneration : ℤ)
    (requested : Option (Dict String ℤ)) :
    Refusing snapshot (policy.demands.mapM (checkReservation digest snapshot policy operationId
      executionGeneration requested) >>= fun checked => raising (checked.foldlM
        (applyReservation policy operationId executionGeneration) snapshot)) :=
  (refusing_mapM policy.demands fun demand _ => refusing_checkReservation h policy operationId
    executionGeneration requested demand).bind fun _ _ => refusing_raising _

theorem refusing_commits (reservations : List BudgetEvent) (operationId : String)
    (executionGeneration : ℤ) (measured : Dict String ℤ) (evidenceRefs : List String) :
    Refusing snapshot (reservations.foldlM (commitReservation digest snapshot operationId
      executionGeneration measured evidenceRefs) snapshot) :=
  refusing_foldlM _ (fun working reservation _ => refusing_commitReservation operationId
    executionGeneration measured evidenceRefs working reservation) snapshot

theorem refusing_releases (reservations : List BudgetEvent) (operationId : String)
    (executionGeneration : ℤ) (evidenceRefs : List String) :
    Refusing snapshot (reservations.foldlM (releaseReservation digest snapshot operationId
      executionGeneration evidenceRefs) snapshot) :=
  refusing_foldlM _ (fun working reservation _ => refusing_releaseReservation operationId
    executionGeneration evidenceRefs working reservation) snapshot

theorem onlyThrottles_of_refused (h : Ledger digest snapshot.states snapshot.pools) {call : Call}
    (hok : applyCall digest snapshot call = .ok result)
    (hrefused : result.success = false) : OnlyThrottles snapshot result.snapshot := by
  cases call with
  | initializeBudgets policies capabilities executionGeneration =>
    exact onlyThrottles_of_settleCall (refusing_initialization policies capabilities
      executionGeneration) hok hrefused
  | reserve policy operationId executionGeneration requested =>
    simp only [applyCall, reserveResources] at hok
    split at hok
    · cases hok
      cases hrefused
    · exact onlyThrottles_of_settleCall (refusing_reservation h policy operationId
        executionGeneration requested) (by rw [bind_assoc]; exact hok) hrefused
  | commit operationId executionGeneration measured evidenceRefs =>
    simp only [applyCall, commitResources] at hok
    split at hok
    · cases hok
      exact Or.inl rfl
    · split at hok
      · cases hok
        exact Or.inl rfl
      · exact onlyThrottles_of_settleCall (refusing_commits _ operationId executionGeneration
          measured evidenceRefs) hok hrefused
  | release operationId executionGeneration evidenceRefs =>
    simp only [applyCall, releaseResources] at hok
    split at hok
    · cases hok
      cases hrefused
    · exact onlyThrottles_of_settleCall (refusing_releases _ operationId executionGeneration
        evidenceRefs) hok hrefused
  | reconcile policyAddress currentGeneration nextGeneration boundary evidenceRefs =>
    simp only [applyCall, reconcileBudgets] at hok
    rw [seq_eq_ok_iff, seq_eq_ok_iff] at hok
    obtain ⟨_, _, hok⟩ := hok
    split at hok
    · cases hok
      exact Or.inl rfl
    · simp only [bind_eq_ok_iff] at hok
      obtain ⟨working, _, next, _, hok⟩ := hok
      cases hok
      cases hrefused

end Calls

end Raes.Budget
