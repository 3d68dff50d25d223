import Raes.Budget.Accounting

/-!
# The books of a budget

What the events of a snapshot say about the quantity that each budget holds.  A
reservation is outstanding until an event commits or releases it.
-/

namespace Raes.Budget

/-! ## Event identities -/

theorem reserveEventId_inj {operationId ref ref' : String}
    (h : reserveEventId operationId ref = reserveEventId operationId ref') : ref = ref' := by
  unfold reserveEventId at h
  rwa [String.append_left_inj, String.append_right_inj] at h

theorem append_ne_append {a b s t : String} (n : ℕ) (hs : n ≤ s.toList.length)
    (ht : n ≤ t.toList.length) (h : s.toList.reverse.take n ≠ t.toList.reverse.take n) :
    a ++ s ≠ b ++ t := by
  intro heq
  apply h
  have hlast := congrArg (fun text : String => text.toList.reverse.take n) heq
  simp only [String.toList_append, List.reverse_append] at hlast
  rwa [List.take_append_of_le_length (by rw [List.length_reverse]; exact hs),
    List.take_append_of_le_length (by rw [List.length_reverse]; exact ht)] at hlast

variable (operationId ref operationId' ref' : String)

theorem throttleEventId_ne_reserveEventId :
    throttleEventId operationId ref ≠ reserveEventId operationId' ref' :=
  append_ne_append 3 (by decide) (by decide) (by decide)

theorem throttleEventId_ne_commitEventId :
    throttleEventId operationId ref ≠ commitEventId operationId' ref' :=
  append_ne_append 3 (by decide) (by decide) (by decide)

theorem throttleEventId_ne_releaseEventId :
    throttleEventId operationId ref ≠ releaseEventId operationId' ref' :=
  append_ne_append 3 (by decide) (by decide) (by decide)

/-! ## Outstanding reservations -/

def Settles (settlement reservation : BudgetEvent) : Prop :=
  (settlement.transition = .commit ∨ settlement.transition = .release) ∧
    settlement.operationId = reservation.operationId ∧
    settlement.budgetStateRef = reservation.budgetStateRef

instance (settlement reservation : BudgetEvent) : Decidable (Settles settlement reservation) :=
  inferInstanceAs (Decidable (_ ∧ _ ∧ _))

variable (events : Dict String BudgetEvent)

/-- A reservation that has been committed or released. -/
def Settled (reservation : BudgetEvent) : Prop :=
  ∃ settlement ∈ events.values, Settles settlement reservation

instance (events : Dict String BudgetEvent) (reservation : BudgetEvent) :
    Decidable (Settled events reservation) :=
  inferInstanceAs (Decidable (∃ settlement ∈ _, _))

/-- A reservation of a budget that has been neither committed nor released. -/
def Outstanding (stateRef : String) (event : BudgetEvent) : Prop :=
  event.transition = .reserve ∧ event.budgetStateRef = stateRef ∧ ¬ Settled events event

instance (events : Dict String BudgetEvent) (stateRef : String) (event : BudgetEvent) :
    Decidable (Outstanding events stateRef event) :=
  inferInstanceAs (Decidable (_ ∧ _ ∧ _))

def outstanding (stateRef : String) : ℕ :=
  events.total fun _ event => if Outstanding events stateRef event then event.requested else 0

/-- The part of that sum that was reserved in one generation. -/
def outstandingAt (stateRef : String) (generation : ℤ) : ℕ :=
  events.total fun _ event =>
    if Outstanding events stateRef event ∧ event.executionGeneration = generation then
      event.requested
    else 0

theorem settled_iff {events : Dict String BudgetEvent} {reservation : BudgetEvent} :
    Settled events reservation ↔
      ∃ id settlement, events.get? id = some settlement ∧ Settles settlement reservation := by
  unfold Settled
  constructor
  · rintro ⟨settlement, hmem, hsettles⟩
    obtain ⟨id, hget⟩ := Dict.mem_values_iff.mp hmem
    exact ⟨id, settlement, hget, hsettles⟩
  · rintro ⟨id, settlement, hget, hsettles⟩
    exact ⟨settlement, Dict.mem_values_iff.mpr ⟨id, hget⟩, hsettles⟩

/-! ## Books -/

/-- An event that neither makes nor settles a reservation. -/
def BudgetEvent.Neutral (event : BudgetEvent) : Prop :=
  event.transition ≠ .reserve ∧ event.transition ≠ .commit ∧ event.transition ≠ .release

theorem BudgetEvent.neutral_of_transition {event : BudgetEvent}
    (h : event.transition = .throttle ∨ event.transition = .reconcile) : event.Neutral := by
  rcases h with h | h <;> refine ⟨?_, ?_, ?_⟩ <;> rw [h] <;> decide

structure Books (states : Dict String BudgetState) (events : Dict String BudgetEvent) : Prop where
  reserveKey : ∀ id event, events.get? id = some event → event.transition = .reserve →
    id = reserveEventId event.operationId event.budgetStateRef
  commitKey : ∀ id event, events.get? id = some event → event.transition = .commit →
    id = commitEventId event.operationId event.budgetStateRef
  releaseKey : ∀ id event, events.get? id = some event → event.transition = .release →
    id = releaseEventId event.operationId event.budgetStateRef
  settles : ∀ id event, events.get? id = some event →
    event.transition = .commit ∨ event.transition = .release →
    events.contains (reserveEventId event.operationId event.budgetStateRef) = true
  budget : ∀ id event, events.get? id = some event → event.transition = .reserve →
    ∃ state, states.get? event.budgetStateRef = some state ∧
      event.executionGeneration ≤ state.generation
  reserved : ∀ ref state, states.get? ref = some state →
    state.reserved = outstandingAt events ref state.generation

theorem books_empty : Books Dict.empty Dict.empty where
  reserveKey _ _ h := nomatch h
  commitKey _ _ h := nomatch h
  releaseKey _ _ h := nomatch h
  settles _ _ h := nomatch h
  budget _ _ h := nomatch h
  reserved _ _ h := nomatch h

section Books

variable {states : Dict String BudgetState} {events : Dict String BudgetEvent}

theorem contains_of_get? {α : Type} {d : Dict String α} {key : String} {a : α}
    (h : d.get? key = some a) : d.contains key = true := by
  rw [Dict.contains, h]
  rfl

theorem get?_of_not_contains {α : Type} {d : Dict String α} {key : String}
    (h : d.contains key = false) : d.get? key = none := by
  rw [Dict.contains] at h
  simpa using h

theorem contains_set {α : Type} {d : Dict String α} {key : String} (x : String) (a : α)
    (h : d.contains key = true) : (d.set x a).contains key = true := by
  rw [Dict.contains_iff] at h ⊢
  exact (Dict.mem_keys_set d x a key).mpr (Or.inr h)

section

variable (h : Books states events)
include h

theorem Books.key_unique {id id' : String} {r r' : BudgetEvent}
    (hr : events.get? id = some r) (hr' : events.get? id' = some r')
    (ht : r.transition = .reserve) (ht' : r'.transition = .reserve)
    (hop : r.operationId = r'.operationId) (href : r.budgetStateRef = r'.budgetStateRef) :
    id = id' := by
  rw [h.reserveKey id r hr ht, h.reserveKey id' r' hr' ht', hop, href]

theorem Books.outstandingAt_eq_zero {ref : String} {generation : ℤ}
    (hnew : ∀ state, states.get? ref = some state → state.generation < generation) :
    outstandingAt events ref generation = 0 := by
  refine Dict.total_eq_zero fun id event hget => if_neg ?_
  rintro ⟨⟨htransition, href, _⟩, hgeneration⟩
  obtain ⟨state, hstate, hle⟩ := h.budget id event hget htransition
  have hlt : state.generation < generation := hnew state (href ▸ hstate)
  omega

/-- Changes of the budgets that keep what is reserved and the generations. -/
theorem Books.set_state {ref : String} {state : BudgetState} (state' : BudgetState)
    (hstate : states.get? ref = some state) (hgeneration : state'.generation = state.generation)
    (hreserved : state'.reserved = state.reserved) : Books (states.set ref state') events where
  reserveKey := h.reserveKey
  commitKey := h.commitKey
  releaseKey := h.releaseKey
  settles := h.settles
  budget id event hget ht := by
    obtain ⟨b, hb, hle⟩ := h.budget id event hget ht
    rw [Dict.get?_set]
    split
    · next heq =>
      rw [heq, hstate] at hb
      cases hb
      exact ⟨state', rfl, hgeneration ▸ hle⟩
    · exact ⟨b, hb, hle⟩
  reserved ref' b hb := by
    rw [Dict.get?_set] at hb
    split at hb
    · next heq =>
      cases hb
      rw [heq, hreserved, hgeneration]
      exact h.reserved ref state hstate
    · exact h.reserved ref' b hb

theorem Books.new_state {ref : String} {state : BudgetState}
    (hnone : states.get? ref = none) (hreserved : state.reserved = 0) :
    Books (states.set ref state) events where
  reserveKey := h.reserveKey
  commitKey := h.commitKey
  releaseKey := h.releaseKey
  settles := h.settles
  budget id event hget ht := by
    obtain ⟨b, hb, hle⟩ := h.budget id event hget ht
    refine ⟨b, ?_, hle⟩
    rw [Dict.get?_set_ne]
    · exact hb
    · rintro heq
      rw [heq, hnone] at hb
      cases hb
  reserved ref' b hb := by
    rw [Dict.get?_set] at hb
    split at hb
    · next heq =>
      cases hb
      rw [heq, hreserved]
      refine (h.outstandingAt_eq_zero fun b hb => ?_).symm
      rw [hnone] at hb
      cases hb
    · exact h.reserved ref' b hb

/-! ## Neutral events -/

end

theorem settled_set_iff {id : String} {event reservation : BudgetEvent}
    (hevent : ¬ Settles event reservation)
    (hold : ∀ old, events.get? id = some old → ¬ Settles old reservation) :
    Settled (events.set id event) reservation ↔ Settled events reservation := by
  rw [settled_iff, settled_iff]
  refine exists_congr fun id' => exists_congr fun settlement => ?_
  rw [Dict.get?_set]
  split
  · next heq =>
    subst heq
    refine iff_of_false ?_ fun h => hold settlement h.1 h.2
    rintro ⟨hget, hsettles⟩
    cases hget
    exact hevent hsettles
  · rfl

variable {event : BudgetEvent}

theorem BudgetEvent.Neutral.not_settles (h : event.Neutral)
    (reservation : BudgetEvent) : ¬ Settles event reservation :=
  fun hsettles => hsettles.1.elim h.2.1 h.2.2

theorem outstandingAt_set_neutral {id : String} (hneutral : event.Neutral)
    (hold : ∀ old, events.get? id = some old → old.Neutral) (ref : String) (generation : ℤ) :
    outstandingAt (events.set id event) ref generation = outstandingAt events ref generation := by
  have hzero : ∀ old : BudgetEvent, old.Neutral → ∀ other : Dict String BudgetEvent,
      (if Outstanding other ref old ∧ old.executionGeneration = generation then old.requested
        else 0) = 0 := fun old h other => if_neg fun hcounts => h.1 hcounts.1.1
  have hsame : ∀ other : BudgetEvent, Outstanding (events.set id event) ref other ↔
      Outstanding events ref other := fun other =>
    and_congr_right fun _ => and_congr_right fun _ =>
      not_congr (settled_set_iff (hneutral.not_settles other) fun old hget =>
        (hold old hget).not_settles other)
  unfold outstandingAt
  simp only [hsame]
  cases hget : events.get? id with
  | none => rw [Dict.total_set_of_get?_none hget, hzero event hneutral events, Nat.add_zero]
  | some old =>
    have htotal := Dict.total_set_of_get?_some hget event fun _ event =>
      if Outstanding events ref event ∧ event.executionGeneration = generation then
        event.requested else 0
    simp only [hzero event hneutral events, hzero old (hold old hget) events] at htotal
    exact htotal

theorem Books.set_neutral (h : Books states events) {id : String} (hneutral : event.Neutral)
    (hold : ∀ old, events.get? id = some old → old.Neutral) :
    Books states (events.set id event) := by
  have hback : ∀ id' other, (events.set id event).get? id' = some other → ¬ other.Neutral →
      events.get? id' = some other := by
    intro id' other hget hnot
    rw [Dict.get?_set] at hget
    split at hget
    · cases hget
      exact absurd hneutral hnot
    · exact hget
  exact {
    reserveKey := fun id' other hget ht =>
      h.reserveKey id' other (hback id' other hget fun hn => hn.1 ht) ht
    commitKey := fun id' other hget ht =>
      h.commitKey id' other (hback id' other hget fun hn => hn.2.1 ht) ht
    releaseKey := fun id' other hget ht =>
      h.releaseKey id' other (hback id' other hget fun hn => hn.2.2 ht) ht
    settles := fun id' other hget ht =>
      contains_set id event (h.settles id' other
        (hback id' other hget fun hn => ht.elim hn.2.1 hn.2.2) ht)
    budget := fun id' other hget ht =>
      h.budget id' other (hback id' other hget fun hn => hn.1 ht) ht
    reserved := fun ref state hstate => by
      rw [outstandingAt_set_neutral hneutral hold]
      exact h.reserved ref state hstate }

/-! ## Reservations -/

theorem not_settles_of_reserve (h : event.transition = .reserve)
    (reservation : BudgetEvent) : ¬ Settles event reservation := by
  rintro ⟨hcommit | hrelease, _⟩
  · rw [h] at hcommit
    cases hcommit
  · rw [h] at hrelease
    cases hrelease

section Reserve

variable {event : BudgetEvent}

theorem settled_set_reserve (ht : event.transition = .reserve)
    (hnone : events.get? (reserveEventId event.operationId event.budgetStateRef) = none)
    (reservation : BudgetEvent) :
    Settled (events.set (reserveEventId event.operationId event.budgetStateRef) event) reservation ↔
      Settled events reservation :=
  settled_set_iff (not_settles_of_reserve ht reservation) fun old hget => by
    rw [hnone] at hget
    cases hget

theorem Books.not_settled_of_new (h : Books states events)
    (hnone : events.get? (reserveEventId event.operationId event.budgetStateRef) = none) :
    ¬ Settled events event := by
  rw [settled_iff]
  rintro ⟨id, settlement, hget, htransition, hop, href⟩
  have hcontains := h.settles id settlement hget htransition
  rw [hop, href, Dict.contains, hnone] at hcontains
  cases hcontains

theorem Books.outstandingAt_reserve (h : Books states events) (ht : event.transition = .reserve)
    (hnone : events.get? (reserveEventId event.operationId event.budgetStateRef) = none)
    (ref : String) (generation : ℤ) :
    outstandingAt (events.set (reserveEventId event.operationId event.budgetStateRef) event) ref
        generation = outstandingAt events ref generation +
      if event.budgetStateRef = ref ∧ event.executionGeneration = generation then event.requested
      else 0 := by
  have hsame : ∀ other : BudgetEvent,
      Outstanding (events.set (reserveEventId event.operationId event.budgetStateRef) event) ref
        other ↔ Outstanding events ref other := fun other =>
    and_congr_right fun _ => and_congr_right fun _ => not_congr (settled_set_reserve ht hnone other)
  have hnew : Outstanding events ref event ↔ event.budgetStateRef = ref :=
    ⟨fun hout => hout.2.1, fun href => ⟨ht, href, h.not_settled_of_new hnone⟩⟩
  unfold outstandingAt
  simp only [hsame]
  rw [Dict.total_set_of_get?_none hnone]
  simp only [hnew]

theorem Books.reserve (h : Books states events) (event : BudgetEvent) {state state' : BudgetState}
    (ht : event.transition = .reserve)
    (hnone : events.get? (reserveEventId event.operationId event.budgetStateRef) = none)
    (hstate : states.get? event.budgetStateRef = some state)
    (hgeneration : event.executionGeneration = state.generation)
    (hgeneration' : state'.generation = state.generation)
    (hreserved : state'.reserved = state.reserved + event.requested) :
    Books (states.set event.budgetStateRef state')
      (events.set (reserveEventId event.operationId event.budgetStateRef) event) := by
  have hcases : ∀ id other, (events.set (reserveEventId event.operationId event.budgetStateRef)
      event).get? id = some other →
      id = reserveEventId event.operationId event.budgetStateRef ∧ other = event ∨
        events.get? id = some other := by
    intro id other hget
    rw [Dict.get?_set] at hget
    split at hget
    · next heq =>
      cases hget
      exact Or.inl ⟨heq, rfl⟩
    · exact Or.inr hget
  have hother : ∀ {transition : Transition}, transition ≠ .reserve →
      event.transition ≠ transition := fun hne heq => hne (heq ▸ ht)
  constructor
  · intro id other hget ht'
    rcases hcases id other hget with ⟨rfl, rfl⟩ | hback
    · rfl
    · exact h.reserveKey id other hback ht'
  · intro id other hget ht'
    rcases hcases id other hget with ⟨_, rfl⟩ | hback
    · exact absurd ht' (hother (by decide))
    · exact h.commitKey id other hback ht'
  · intro id other hget ht'
    rcases hcases id other hget with ⟨_, rfl⟩ | hback
    · exact absurd ht' (hother (by decide))
    · exact h.releaseKey id other hback ht'
  · intro id other hget ht'
    rcases hcases id other hget with ⟨_, rfl⟩ | hback
    · exact absurd ht' (not_or.mpr ⟨hother (by decide), hother (by decide)⟩)
    · exact contains_set _ _ (h.settles id other hback ht')
  · intro id other hget ht'
    rcases hcases id other hget with ⟨_, rfl⟩ | hback
    · exact ⟨state', Dict.get?_set_self _ _ _, by rw [hgeneration, hgeneration']⟩
    · obtain ⟨b, hb, hle⟩ := h.budget id other hback ht'
      rw [Dict.get?_set]
      split
      · next heq =>
        rw [heq, hstate] at hb
        cases hb
        exact ⟨state', rfl, hgeneration' ▸ hle⟩
      · exact ⟨b, hb, hle⟩
  · intro ref b hb
    rw [h.outstandingAt_reserve ht hnone]
    rw [Dict.get?_set] at hb
    split at hb
    · next heq =>
      cases hb
      rw [if_pos ⟨heq.symm, by rw [hgeneration, hgeneration']⟩, hreserved, heq, hgeneration',
        h.reserved _ state hstate]
    · next hne =>
      rw [if_neg fun hcounts => hne hcounts.1.symm, Nat.add_zero]
      exact h.reserved ref b hb

end Reserve

section Settle

variable {id settlementId : String} {reservation settlement : BudgetEvent}

theorem settled_set_settlement (hnone : events.get? settlementId = none)
    (event : BudgetEvent) :
    Settled (events.set settlementId settlement) event ↔
      Settled events event ∨ Settles settlement event := by
  by_cases hsettles : Settles settlement event
  · refine iff_of_true ?_ (Or.inr hsettles)
    exact settled_iff.mpr ⟨settlementId, settlement, Dict.get?_set_self _ _ _, hsettles⟩
  · rw [settled_set_iff hsettles fun old hget => by rw [hnone] at hget; cases hget]
    exact (or_iff_left hsettles).symm

theorem Books.outstandingAt_settle (h : Books states events)
    (hget : events.get? id = some reservation) (ht : reservation.transition = .reserve)
    (hopen : ¬ Settled events reservation) (hsettles : Settles settlement reservation)
    (hnone : events.get? settlementId = none) (ref : String) (generation : ℤ) :
    outstandingAt (events.set settlementId settlement) ref generation +
        (if reservation.budgetStateRef = ref ∧ reservation.executionGeneration = generation then
          reservation.requested else 0) =
      outstandingAt events ref generation := by
  have hnew : ¬ Outstanding (events.set settlementId settlement) ref settlement := by
    rintro ⟨hreserve, _⟩
    exact not_settles_of_reserve hreserve reservation hsettles
  have hgone : ¬ Outstanding (events.set settlementId settlement) ref reservation := fun hout =>
    hout.2.2 ((settled_set_settlement hnone reservation).mpr (Or.inr hsettles))
  have hcounted : Outstanding events ref reservation ↔ reservation.budgetStateRef = ref :=
    ⟨fun hout => hout.2.1, fun href => ⟨ht, href, hopen⟩⟩
  have hsplit := Dict.total_add_of_eq_off hget
    (f := fun _ event => if Outstanding (events.set settlementId settlement) ref event ∧
      event.executionGeneration = generation then event.requested else 0)
    (g := fun _ event => if Outstanding events ref event ∧
      event.executionGeneration = generation then event.requested else 0) (by
    intro id' other hne hget'
    -- another reservation of the same operation and budget would have the same identity
    have hsame : Outstanding (events.set settlementId settlement) ref other ↔
        Outstanding events ref other := by
      refine and_congr_right fun ht' => and_congr_right fun _ => not_congr ?_
      rw [settled_set_settlement hnone]
      refine or_iff_left fun hsettles' => hne ?_
      exact h.key_unique hget' hget ht' ht (hsettles'.2.1.symm.trans hsettles.2.1)
        (hsettles'.2.2.symm.trans hsettles.2.2)
    simp only [hsame])
  simp only [hgone, hcounted, false_and, if_false, Nat.add_zero] at hsplit
  unfold outstandingAt
  rw [Dict.total_set_of_get?_none hnone]
  simp only [hnew, false_and, if_false, Nat.add_zero]
  exact hsplit

theorem Books.requested_le (h : Books states events) {state : BudgetState}
    (hget : events.get? id = some reservation) (ht : reservation.transition = .reserve)
    (hopen : ¬ Settled events reservation)
    (hstate : states.get? reservation.budgetStateRef = some state)
    (hgeneration : reservation.executionGeneration = state.generation) :
    reservation.requested ≤ state.reserved := by
  rw [h.reserved _ state hstate]
  have hle := Dict.le_total hget fun _ event =>
    if Outstanding events reservation.budgetStateRef event ∧
      event.executionGeneration = state.generation then event.requested else 0
  rwa [if_pos ⟨⟨ht, rfl, hopen⟩, hgeneration⟩] at hle

/-- A settlement under an identity of its own, of a reservation that nothing settles. -/
theorem Books.settle (h : Books states events) {state state' : BudgetState}
    (hget : events.get? id = some reservation) (ht : reservation.transition = .reserve)
    (hopen : ¬ Settled events reservation) (hsettles : Settles settlement reservation)
    (hnone : events.get? settlementId = none)
    (hkey : settlement.transition = .commit ∧
        settlementId = commitEventId settlement.operationId settlement.budgetStateRef ∨
      settlement.transition = .release ∧
        settlementId = releaseEventId settlement.operationId settlement.budgetStateRef)
    (hstate : states.get? reservation.budgetStateRef = some state)
    (hgeneration : reservation.executionGeneration = state.generation)
    (hgeneration' : state'.generation = state.generation)
    (hreserved : state'.reserved = state.reserved - reservation.requested) :
    Books (states.set reservation.budgetStateRef state')
      (events.set settlementId settlement) := by
  have hcases : ∀ id other, (events.set settlementId settlement).get? id = some other →
      id = settlementId ∧ other = settlement ∨ events.get? id = some other := by
    intro id other hget
    rw [Dict.get?_set] at hget
    split at hget
    · next heq =>
      cases hget
      exact Or.inl ⟨heq, rfl⟩
    · exact Or.inr hget
  have hnotReserve : settlement.transition ≠ .reserve := fun hreserve =>
    not_settles_of_reserve hreserve reservation hsettles
  constructor
  · intro id other hget ht'
    rcases hcases id other hget with ⟨_, rfl⟩ | hback
    · exact absurd ht' hnotReserve
    · exact h.reserveKey id other hback ht'
  · intro id other hget ht'
    rcases hcases id other hget with ⟨rfl, rfl⟩ | hback
    · rcases hkey with ⟨_, hid⟩ | ⟨hrelease, _⟩
      · exact hid
      · rw [hrelease] at ht'
        cases ht'
    · exact h.commitKey id other hback ht'
  · intro id other hget ht'
    rcases hcases id other hget with ⟨rfl, rfl⟩ | hback
    · rcases hkey with ⟨hcommit, _⟩ | ⟨_, hid⟩
      · rw [hcommit] at ht'
        cases ht'
      · exact hid
    · exact h.releaseKey id other hback ht'
  · intro id' other hget' ht'
    rcases hcases id' other hget' with ⟨_, rfl⟩ | hback
    · rw [hsettles.2.1, hsettles.2.2, ← h.reserveKey id reservation hget ht]
      exact contains_set _ _ (contains_of_get? hget)
    · exact contains_set _ _ (h.settles id' other hback ht')
  · intro id' other hget' ht'
    rcases hcases id' other hget' with ⟨_, rfl⟩ | hback
    · exact absurd ht' hnotReserve
    · obtain ⟨b, hb, hle⟩ := h.budget id' other hback ht'
      rw [Dict.get?_set]
      split
      · next heq =>
        rw [heq, hstate] at hb
        cases hb
        exact ⟨state', rfl, hgeneration' ▸ hle⟩
      · exact ⟨b, hb, hle⟩
  · intro ref b hb
    have hout := h.outstandingAt_settle hget ht hopen hsettles hnone ref b.generation
    rw [Dict.get?_set] at hb
    split at hb
    · next heq =>
      cases hb
      rw [heq, hgeneration', if_pos ⟨rfl, hgeneration⟩, ← h.reserved _ state hstate] at hout
      rw [heq, hgeneration', hreserved]
      omega
    · next hne =>
      rw [if_neg fun hcounts => hne hcounts.1.symm, Nat.add_zero] at hout
      rw [hout]
      exact h.reserved ref b hb

end Settle

/-! ## Reconciliations -/

theorem Books.advance (h : Books states events) {ref : String} {state state' : BudgetState}
    (hstate : states.get? ref = some state) (hgeneration : state.generation < state'.generation)
    (hreserved : state'.reserved = 0) : Books (states.set ref state') events where
  reserveKey := h.reserveKey
  commitKey := h.commitKey
  releaseKey := h.releaseKey
  settles := h.settles
  budget id event hget ht := by
    obtain ⟨b, hb, hle⟩ := h.budget id event hget ht
    rw [Dict.get?_set]
    split
    · next heq =>
      rw [heq, hstate] at hb
      cases hb
      exact ⟨state', rfl, hle.trans hgeneration.le⟩
    · exact ⟨b, hb, hle⟩
  reserved ref' b hb := by
    rw [Dict.get?_set] at hb
    split at hb
    · next heq =>
      cases hb
      rw [heq, hreserved]
      refine (h.outstandingAt_eq_zero fun b hb => ?_).symm
      rw [hstate] at hb
      cases hb
      exact hgeneration
    · exact h.reserved ref' b hb

/-! ## Reservations of the current generation -/

/-- Every outstanding reservation is of the generation of its budget. -/
def Current (states : Dict String BudgetState) (events : Dict String BudgetEvent) : Prop :=
  ∀ id event, events.get? id = some event → Outstanding events event.budgetStateRef event →
    ∀ state, states.get? event.budgetStateRef = some state →
      event.executionGeneration = state.generation

section

variable (h : Current states events)
include h

theorem Current.outstanding_eq {ref : String} {state : BudgetState}
    (hstate : states.get? ref = some state) :
    outstanding events ref = outstandingAt events ref state.generation := by
  refine Dict.total_congr fun id event hget => ?_
  by_cases hout : Outstanding events ref event
  · have hown : Outstanding events event.budgetStateRef event := ⟨hout.1, rfl, hout.2.2⟩
    have hgeneration := h id event hget hown state (hout.2.1 ▸ hstate)
    rw [if_pos hout, if_pos ⟨hout, hgeneration⟩]
  · rw [if_neg hout, if_neg fun hcounts => hout hcounts.1]

theorem Current.set_state {ref : String} {state : BudgetState} (state' : BudgetState)
    (hstate : states.get? ref = some state) (hgeneration : state'.generation = state.generation) :
    Current (states.set ref state') events := by
  intro id event hget hout b hb
  rw [Dict.get?_set] at hb
  split at hb
  · next heq =>
    cases hb
    rw [hgeneration]
    exact h id event hget hout state (heq ▸ hstate)
  · exact h id event hget hout b hb

theorem Current.new_state (hbooks : Books states events)
    {ref : String} (hnone : states.get? ref = none) (state : BudgetState) :
    Current (states.set ref state) events := by
  intro id event hget hout b hb
  obtain ⟨old, hold, _⟩ := hbooks.budget id event hget hout.1
  rw [Dict.get?_set] at hb
  split at hb
  · next heq =>
    rw [heq, hnone] at hold
    cases hold
  · exact h id event hget hout b hb

/-- A budget whose reservations are all settled enters any generation. -/
theorem Current.advance {ref : String}
    (hdrained : ∀ id event, events.get? id = some event → ¬ Outstanding events ref event)
    (state : BudgetState) : Current (states.set ref state) events := by
  intro id event hget hout b hb
  rw [Dict.get?_set] at hb
  split at hb
  · next heq => exact absurd (heq ▸ hout) (hdrained id event hget)
  · exact h id event hget hout b hb

theorem Current.set_event {id : String} {event : BudgetEvent} (ht : event.transition ≠ .reserve)
    (hold : ∀ old, events.get? id = some old → old.Neutral) :
    Current states (events.set id event) := by
  intro id' other hget hout b hb
  rw [Dict.get?_set] at hget
  split at hget
  · cases hget
    exact absurd hout.1 ht
  · refine h id' other hget ⟨hout.1, rfl, fun hsettled => hout.2.2 ?_⟩ b hb
    rw [settled_iff] at hsettled ⊢
    obtain ⟨key, settlement, hkey, hsettles⟩ := hsettled
    refine ⟨key, settlement, ?_, hsettles⟩
    have hne : key ≠ id := by
      rintro rfl
      exact (hold settlement hkey).not_settles other hsettles
    rw [Dict.get?_set_ne _ _ hne]
    exact hkey

end

theorem Current.reserve (h : Current states events) (event : BudgetEvent)
    {state state' : BudgetState} (ht : event.transition = .reserve)
    (hnone : events.get? (reserveEventId event.operationId event.budgetStateRef) = none)
    (hstate : states.get? event.budgetStateRef = some state)
    (hgeneration : event.executionGeneration = state.generation)
    (hgeneration' : state'.generation = state.generation) :
    Current (states.set event.budgetStateRef state')
      (events.set (reserveEventId event.operationId event.budgetStateRef) event) := by
  intro id other hget hout b hb
  rw [Dict.get?_set] at hget
  split at hget
  · cases hget
    rw [Dict.get?_set_self] at hb
    cases hb
    rw [hgeneration, hgeneration']
  · have hout' : Outstanding events other.budgetStateRef other :=
      ⟨hout.1, rfl, fun hsettled => hout.2.2 ((settled_set_reserve ht hnone other).mpr hsettled)⟩
    exact (h.set_state _ hstate hgeneration') id other hget hout' b hb

end Books

end Raes.Budget
