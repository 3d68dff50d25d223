import Raes.Crossing.MultiAbstract
import Raes.Crossing.MultiConcrete
import Raes.Lib.BranchingBisimulation

/-!
# The invariant of the concrete crossing model

What holds in every state that the concrete model reaches: the ledger stays in
the profile, the head counts the resolved entries, and the attempt in flight
carries the data of the phase it is in.
-/

namespace Raes.Crossing
namespace Concrete

/-- A fresh attempt claims the first free slot and a retry a retained one. -/
def Claims (s : State) (i : Intent) : Prop :=
  match i.mode with
  | .fresh => i.slot = s.ledger.length ∧ i.slot < 2
  | .retry => i.slot < s.ledger.length

def awaiting (s : State) (i : Intent) : Entry :=
  { item := i.item
    body := i.body
    policy := some s.cut
    decisionHead := s.head - 1
    resultHead := s.head
    outcome := s.decision }

/-- Nothing is decided or changed for the attempt yet. -/
def Undecided (s : State) : Prop := s.decision = .none ∧ s.changed = false

def AttemptOk (s : State) : Prop :=
  match s.phase with
  | .idle => s.intent = none ∧ s.decision = .none
  | .validating | .resolvingCut => ∃ i, s.intent = some i ∧ Claims s i ∧ Undecided s
  | .resolvingCapability =>
    ∃ i, s.intent = some i ∧ Claims s i ∧ Undecided s ∧ i.item ≠ .unresolved
  | .gating =>
    ∃ i, s.intent = some i ∧ Claims s i ∧ Undecided s ∧
      outcomeOf s i.item = Abstract.policy s.cut i.item
  | .preparingRecord =>
    ∃ i, s.intent = some i ∧ ClaimsFresh s i ∧ s.decision = Abstract.policy s.cut i.item
  | .committing =>
    ∃ i, s.intent = some i ∧ ClaimsFresh s i ∧ s.decision = Abstract.policy s.cut i.item ∧
      ¬ Unchanged s
  | .delivering =>
    ∃ i front, s.intent = some i ∧ i.slot = front.length ∧ i.slot < 2 ∧
      s.ledger = front ++ [awaiting s i] ∧ 0 < s.head ∧ s.decision.isRefusal = false
  | .responding => ∃ i, s.intent = some i ∧ i.slot < 2

structure Consistent (s : State) : Prop where
  bounded : s.ledger.length ≤ 2
  policies : ∀ e ∈ s.ledger, e.policy = none ↔ e.item = .unresolved
  counted : s.head = resolvedCount s.ledger
  attempt : AttemptOk s

theorem consistent_initial : Consistent initial where
  bounded := by decide
  policies := by simp [initial]
  counted := rfl
  attempt := ⟨rfl, rfl⟩

theorem Claims.lt {s : State} {i : Intent} (h : Claims s i) (hle : s.ledger.length ≤ 2) :
    i.slot < 2 := by
  unfold Claims at h
  cases hmode : i.mode with
  | fresh =>
    rw [hmode] at h
    exact h.2
  | retry =>
    rw [hmode] at h
    exact Nat.lt_of_lt_of_le h hle

theorem Claims.fresh {s : State} {i : Intent} (h : Claims s i) (hmode : i.mode = .fresh) :
    ClaimsFresh s i := by
  unfold Claims at h
  rw [hmode] at h
  exact ⟨h.1, hmode, h.2⟩

theorem policy_eq_unresolved_iff (cut : PolicyCut) (item : Input) :
    Abstract.policy cut item = .unresolved ↔ item = .unresolved := by
  cases cut <;> cases item <;> decide

theorem policy_of_not_refusal {cut : PolicyCut} {item : Input}
    (h : (Abstract.policy cut item).isRefusal = false) :
    Abstract.policy cut item = .permit ∨ Abstract.policy cut item = .transform ∨
      Abstract.policy cut item = .declassify := by
  revert h
  cases cut <;> cases item <;> decide

theorem outcomeOf_resolved (s : State) {item : Input} (h : item ≠ .unresolved) :
    outcomeOf (resolved s item) item = Abstract.policy s.cut item := by
  unfold outcomeOf resolved
  cases hcut : s.cut <;> cases item <;> simp_all [Abstract.policy]

theorem outcomeOf_unresolved (s : State) : outcomeOf s .unresolved = .unresolved := if_pos rfl

theorem Consistent.attempted {s t : State} (h : Consistent s) (hledger : t.ledger = s.ledger)
    (hhead : t.head = s.head) (hattempt : AttemptOk t) : Consistent t where
  bounded := by
    rw [hledger]
    exact h.bounded
  policies := by
    rw [hledger]
    exact h.policies
  counted := by
    rw [hledger, hhead]
    exact h.counted
  attempt := hattempt

theorem Consistent.commit {s : State} {i : Intent} (h : Consistent s)
    (hphase : s.phase = .committing) (hi : s.intent = some i) (hclaims : ClaimsFresh s i) :
    Consistent (committed s i) := by
  have hattempt := h.attempt
  unfold AttemptOk at hattempt
  rw [hphase] at hattempt
  obtain ⟨j, hj, -, hdecision, -⟩ := hattempt
  obtain rfl : i = j := Option.some.inj (hi.symm.trans hj)
  have hresolved := policy_eq_unresolved_iff s.cut i.item
  rw [← hdecision] at hresolved
  have hlen : s.ledger.length < 2 := by
    obtain ⟨hslot, -, hlt⟩ := hclaims
    omega
  refine ⟨?_, ?_, ?_, ?_⟩
  · simp only [committed, List.length_append, List.length_singleton]
    omega
  · intro e he
    simp only [committed, List.mem_append, List.mem_singleton] at he
    rcases he with he | rfl
    · exact h.policies e he
    · by_cases hitem : i.item = .unresolved <;> simp [entryOf, policyOf, hitem]
  · simp only [committed, resolvedCount_append, entryOf, hresolved, h.counted]
    split <;> simp
  · cases hrefusal : s.decision.isRefusal with
    | true =>
      simp only [AttemptOk, committed, hrefusal, if_true]
      exact ⟨i, hi, hclaims.2.2⟩
    | false =>
      have hitem : i.item ≠ .unresolved := by
        intro hitem
        rw [hresolved.mpr hitem] at hrefusal
        exact absurd hrefusal (by decide)
      simp only [AttemptOk, committed, hrefusal, Bool.false_eq_true, if_false]
      refine ⟨i, s.ledger, hi, hclaims.1, hclaims.2.2, ?_, ?_, trivial⟩
      · simp [entryOf, awaiting, policyOf, hitem]
      · simp [entryOf, hitem]

theorem Consistent.move {s t : State} {l : Label} (h : Consistent s) (hmove : Move s l t) :
    Consistent t := by
  have hattempt := h.attempt
  unfold AttemptOk at hattempt
  have hresponse : ∀ {i : Intent} {key : Key} {outcome : Decision},
      (l, t) ∈ responses (reset s) i key outcome → Consistent t := by
    intro i key outcome hmem
    rcases (mem_responses_iff _ _ _ _ _ _).mp hmem with ⟨-, rfl⟩ | ⟨-, rfl⟩ | ⟨-, rfl⟩
    · exact h.attempted rfl rfl ⟨rfl, rfl⟩
    · exact h.attempted rfl rfl ⟨rfl, rfl⟩
    · exact h.attempted rfl rfl ⟨rfl, rfl⟩
  cases hmove with
  | restart _ => exact h
  | advance hphase _ =>
    rw [hphase] at hattempt
    refine h.attempted rfl rfl ?_
    simp only [AttemptOk, hphase]
    exact hattempt
  | fresh item _ hlt =>
    exact h.attempted rfl rfl ⟨_, rfl, ⟨rfl, hlt⟩, rfl, rfl⟩
  | status _ _ _ _ => exact h
  | retry slot entry item body _ hentry =>
    exact h.attempted rfl rfl ⟨_, rfl, (List.getElem?_eq_some_iff.mp hentry).1, rfl, rfl⟩
  | validate i hphase _ _ =>
    rw [hphase] at hattempt
    exact h.attempted rfl rfl hattempt
  | resolveCut i hphase hi _ =>
    rw [hphase] at hattempt
    obtain ⟨j, hj, hclaims, hdecision⟩ := hattempt
    obtain rfl : i = j := Option.some.inj (hi.symm.trans hj)
    refine h.attempted rfl rfl ?_
    by_cases hitem : i.item = .unresolved
    · simp only [AttemptOk, if_pos hitem]
      refine ⟨i, hi, hclaims, hdecision, ?_⟩
      rw [hitem]
      exact (outcomeOf_unresolved _).trans (by cases s.cut <;> rfl)
    · simp only [AttemptOk, if_neg hitem]
      exact ⟨i, hi, hclaims, hdecision, hitem⟩
  | resolveCapability i hphase hi _ =>
    rw [hphase] at hattempt
    obtain ⟨j, hj, hclaims, hdecision, hitem⟩ := hattempt
    obtain rfl : i = j := Option.some.inj (hi.symm.trans hj)
    exact h.attempted rfl rfl ⟨i, hi, hclaims, hdecision, outcomeOf_resolved s hitem⟩
  | reject _ _ _ _ _ _ _ _ => exact h.attempted rfl rfl ⟨rfl, rfl⟩
  | replay _ _ _ _ _ _ _ _ _ _ hmem => exact hresponse hmem
  | decide i hphase hi _ hmode =>
    rw [hphase] at hattempt
    obtain ⟨j, hj, hclaims, hdecision, houtcome⟩ := hattempt
    obtain rfl : i = j := Option.some.inj (hi.symm.trans hj)
    exact h.attempted rfl rfl ⟨i, hi, hclaims.fresh hmode, houtcome⟩
  | change i hphase hi _ _ =>
    rw [hphase] at hattempt
    refine h.attempted rfl rfl ?_
    simp only [AttemptOk, hphase]
    exact hattempt
  | prepare i hphase hi _ hunchanged =>
    rw [hphase] at hattempt
    obtain ⟨j, hj, hclaims, hdecision⟩ := hattempt
    exact h.attempted rfl rfl ⟨j, hj, hclaims, hdecision, hunchanged⟩
  | commit i hphase hi hclaims => exact h.commit hphase hi hclaims
  | deliver i hphase hi hslot => exact h.attempted rfl rfl ⟨i, hi, hslot⟩
  | respond _ _ _ _ _ _ hmem => exact hresponse hmem

theorem Consistent.step {s t : State} {l : Label} (h : Consistent s) (hstep : Step s l t) :
    Consistent t :=
  h.move ((step_iff h.bounded l t).mp hstep)

end Concrete
end Raes.Crossing
