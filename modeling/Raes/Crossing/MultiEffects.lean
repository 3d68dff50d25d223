import Raes.Crossing.MultiRefinement

/-!
# Effects of the concrete crossing model

Every deliverable entry of the ledger is delivered once, by the attempt that
committed it.  Retries and restarts deliver nothing.
-/

namespace Raes.Crossing
namespace Concrete

/-- The entry of a slot is deliverable and its delivery is not awaited. -/
def delivered (s : State) (slot : ℕ) : Bool :=
  match s.ledger[slot]? with
  | none => false
  | some entry =>
    !entry.outcome.isRefusal && !(s.phase = .delivering && slot + 1 = s.ledger.length)

/-- One while the last entry awaits its delivery. -/
def awaited (s : State) : ℕ := if s.phase = .delivering then 1 else 0

/-- What a move does to the ledger and to the effects. -/
inductive Accounting (s : State) (l : Label) (t : State) : Prop where
  | keeps : (∀ key, l ≠ .delivery key) → t.ledger = s.ledger → t.effects = s.effects →
      s.phase ≠ .delivering → t.phase ≠ .delivering → Accounting s l t
  | commits (i : Intent) : s.phase = .committing → (∀ key, l ≠ .delivery key) →
      t = committed s i → Accounting s l t
  | delivers (i : Intent) : s.phase = .delivering → s.intent = some i →
      l = .delivery (keyOf i.slot) →
      t = { s with phase := .responding, effects := s.effects + 1 } → Accounting s l t

variable {s t : State}

theorem Move.accounting {l : Label} (h : Move s l t) : Accounting s l t := by
  have hreset : ∀ {i : Intent} {key : Key} {outcome : Decision}, s.phase ≠ .delivering →
      (l, t) ∈ responses (reset s) i key outcome → Accounting s l t := by
    intro i key outcome hphase hmem
    rcases (mem_responses_iff _ _ _ _ _ _).mp hmem with ⟨rfl, rfl⟩ | ⟨rfl, rfl⟩ | ⟨rfl, rfl⟩
    · exact .keeps (by simp) rfl rfl hphase (by simp [reset])
    · exact .keeps (by simp) rfl rfl hphase (by simp [reset])
    · exact .keeps (by simp) rfl rfl hphase (by simp [reset])
  cases h with
  | restart hphase => exact .keeps (by simp) rfl rfl (by simp [hphase]) (by simp [hphase])
  | advance hphase _ => exact .keeps (by simp) rfl rfl (by simp [hphase]) (by simp [hphase])
  | fresh _ hphase _ => exact .keeps (by simp) rfl rfl (by simp [hphase]) (by simp [candidate])
  | status _ _ hphase _ => exact .keeps (by simp) rfl rfl (by simp [hphase]) (by simp [hphase])
  | retry _ _ _ _ hphase _ =>
    exact .keeps (by simp) rfl rfl (by simp [hphase]) (by simp [candidate])
  | validate _ hphase _ _ => exact .keeps (by simp) rfl rfl (by simp [hphase]) (by simp)
  | resolveCut i hphase _ _ =>
    refine .keeps (by simp) rfl rfl (by simp [hphase]) ?_
    by_cases hitem : i.item = .unresolved <;> simp [hitem]
  | resolveCapability _ hphase _ _ =>
    exact .keeps (by simp) rfl rfl (by simp [hphase]) (by simp [resolved])
  | reject _ _ hphase _ _ _ _ _ => exact .keeps (by simp) rfl rfl (by simp [hphase]) (by simp [reset])
  | replay _ _ _ _ hphase _ _ _ _ _ hmem => exact hreset (by simp [hphase]) hmem
  | decide _ hphase _ _ _ =>
    exact .keeps (by simp [decisionLabel]) rfl rfl (by simp [hphase]) (by simp)
  | change _ hphase _ _ _ => exact .keeps (by simp) rfl rfl (by simp [hphase]) (by simp [hphase])
  | prepare _ hphase _ _ _ => exact .keeps (by simp) rfl rfl (by simp [hphase]) (by simp)
  | commit i hphase _ _ => exact .commits i hphase (by simp) rfl
  | deliver i hphase hi _ => exact .delivers i hphase hi rfl rfl
  | respond _ _ _ hphase _ _ hmem => exact hreset (by simp [hphase]) hmem

theorem ledger_isPrefix_of_accounting {l : Label} (h : Accounting s l t) :
    s.ledger <+: t.ledger := by
  cases h with
  | keeps _ hledger _ _ _ =>
    rw [hledger]
  | commits i _ _ ht =>
    subst ht
    exact List.prefix_append _ _
  | delivers i _ _ _ ht =>
    subst ht
    exact List.prefix_rfl

theorem effects_of_accounting {l : Label} (h : Accounting s l t)
    (hs : s.effects + awaited s = deliverableCount s.ledger) :
    t.effects + awaited t = deliverableCount t.ledger := by
  cases h with
  | keeps _ hledger heffects hsphase htphase =>
    rw [awaited, if_neg hsphase] at hs
    rw [awaited, if_neg htphase, hledger, heffects]
    exact hs
  | commits i hphase _ ht =>
    subst ht
    have hs' : s.effects = deliverableCount s.ledger := by
      rw [awaited, if_neg (by rw [hphase]; decide)] at hs
      exact hs
    simp only [committed, awaited, deliverableCount_append, entryOf, ← hs']
    by_cases hrefusal : s.decision.isRefusal = true <;> simp [hrefusal]
  | delivers i hphase _ _ ht =>
    subst ht
    rw [awaited, if_pos hphase] at hs
    exact hs

theorem delivered_of_accounting {l : Label} (hs : Consistent s) (h : Accounting s l t) (key : Key) :
    (delivered t key.slot).toNat =
      (delivered s key.slot).toNat + if l = .delivery key then 1 else 0 := by
  cases h with
  | keeps hlabel hledger _ hsphase htphase =>
    simp [delivered, hledger, hsphase, htphase, hlabel key]
  | commits i hphase hlabel ht =>
    subst ht
    rw [if_neg (hlabel key), Nat.add_zero]
    congr 1
    unfold delivered
    simp only [committed, List.length_append, List.length_singleton]
    by_cases hslot : key.slot < s.ledger.length
    · rw [List.getElem?_append_left hslot]
      simp [hphase, Nat.ne_of_lt hslot]
    · have hnone : s.ledger[key.slot]? = none := List.getElem?_eq_none_iff.mpr (by omega)
      rw [List.getElem?_append_right (by omega), hnone]
      by_cases hlast : key.slot = s.ledger.length
      · rw [hlast, Nat.sub_self]
        by_cases hrefusal : s.decision.isRefusal = true <;> simp [entryOf, hrefusal]
      · have hout : [entryOf s i][key.slot - s.ledger.length]? = none :=
          List.getElem?_eq_none_iff.mpr (by simp; omega)
        rw [hout]
  | delivers i hphase hi hlabel ht =>
    subst ht
    have hattempt := hs.attempt
    unfold AttemptOk at hattempt
    rw [hphase] at hattempt
    obtain ⟨j, front, hj, hslot, hlt, hledger, -, hrefusal⟩ := hattempt
    obtain rfl : i = j := Option.some.inj (hi.symm.trans hj)
    have hiff : l = .delivery key ↔ front.length = key.slot := by
      rw [hlabel, Label.delivery.injEq, keyOf_eq_iff hlt, hslot]
    simp only [hiff]
    unfold delivered
    simp only [hphase]
    rw [hledger]
    rcases Nat.lt_trichotomy key.slot front.length with hkey | hkey | hkey
    · rw [List.getElem?_append_left hkey]
      simp [Nat.ne_of_lt hkey, Nat.ne_of_gt hkey]
    · rw [hkey, List.getElem?_append_right (Nat.le_refl _), Nat.sub_self]
      simp [awaiting, hrefusal]
    · have hnone : (front ++ [awaiting s i])[key.slot]? = none :=
        List.getElem?_eq_none_iff.mpr (by simp; omega)
      rw [hnone]
      simp [Nat.ne_of_lt hkey]

/-- What holds of the labels and the state of a run. -/
structure Accounted (ls : List Label) (s : State) : Prop where
  consistent : Consistent s
  effects : s.effects + awaited s = deliverableCount s.ledger
  deliveries : ∀ key, ls.count (.delivery key) = (delivered s key.slot).toNat

theorem accounted_of_run {ls : List Label} {s : State} (hrun : Lts.Run Step initial ls s) :
    Accounted ls s := by
  refine hrun.invariant (I := Accounted) ⟨consistent_initial, rfl, ?_⟩ ?_
  · intro key
    cases key <;> rfl
  · intro ls s l t h hstep
    have hmove := (step_iff h.consistent.bounded l t).mp hstep
    have haccounting := hmove.accounting
    refine ⟨h.consistent.move hmove, effects_of_accounting haccounting h.effects, ?_⟩
    intro key
    rw [List.count_append, h.deliveries key, delivered_of_accounting h.consistent haccounting key,
      List.count_singleton]
    simp

theorem exists_move {s : State} (h : Consistent s) : ∃ l t, Move s l t := by
  have hattempt := h.attempt
  unfold AttemptOk at hattempt
  cases hphase : s.phase with
  | idle => exact ⟨_, _, .restart hphase⟩
  | validating =>
    rw [hphase] at hattempt
    obtain ⟨i, hi, hclaims, -⟩ := hattempt
    exact ⟨_, _, .validate i hphase hi (hclaims.lt h.bounded)⟩
  | resolvingCut =>
    rw [hphase] at hattempt
    obtain ⟨i, hi, hclaims, -⟩ := hattempt
    exact ⟨_, _, .resolveCut i hphase hi (hclaims.lt h.bounded)⟩
  | resolvingCapability =>
    rw [hphase] at hattempt
    obtain ⟨i, hi, hclaims, -⟩ := hattempt
    exact ⟨_, _, .resolveCapability i hphase hi (hclaims.lt h.bounded)⟩
  | gating =>
    rw [hphase] at hattempt
    obtain ⟨i, hi, hclaims, -⟩ := hattempt
    have hslot := hclaims.lt h.bounded
    cases hmode : i.mode with
    | fresh => exact ⟨_, _, .decide i hphase hi hslot hmode⟩
    | retry =>
      unfold Claims at hclaims
      rw [hmode] at hclaims
      have hentry : s.ledger[i.slot]? = some s.ledger[i.slot] := List.getElem?_eq_getElem hclaims
      by_cases hreplay : Replayable s i s.ledger[i.slot]
      · exact ⟨_, _, .replay i _ _ _ hphase hi hslot hmode hentry hreplay List.mem_cons_self⟩
      · exact ⟨_, _, .reject i _ hphase hi hslot hmode hentry hreplay⟩
  | preparingRecord =>
    rw [hphase] at hattempt
    obtain ⟨i, hi, hclaims, -⟩ := hattempt
    by_cases hunchanged : Unchanged s
    · exact ⟨_, _, .change i hphase hi hclaims.2.2 hunchanged⟩
    · exact ⟨_, _, .prepare i hphase hi hclaims.2.2 hunchanged⟩
  | committing =>
    rw [hphase] at hattempt
    obtain ⟨i, hi, hclaims, -⟩ := hattempt
    exact ⟨_, _, .commit i hphase hi hclaims⟩
  | delivering =>
    rw [hphase] at hattempt
    obtain ⟨i, -, hi, -, hlt, -⟩ := hattempt
    exact ⟨_, _, .deliver i hphase hi hlt⟩
  | responding =>
    rw [hphase] at hattempt
    obtain ⟨i, hi, hlt⟩ := hattempt
    exact ⟨_, _, .respond i _ _ hphase hi hlt List.mem_cons_self⟩

theorem successors_ok {s : State} (h : Consistent s) : ∃ edges, successors s = .ok edges := by
  obtain ⟨l, t, hmove⟩ := exists_move h
  obtain ⟨edges, hedges, -⟩ := (step_iff h.bounded l t).mpr hmove
  exact ⟨edges, hedges⟩

theorem ledger_isPrefix_of_run {ms : List Label} (h : Consistent s)
    (hrun : Lts.Run Step s ms t) : s.ledger <+: t.ledger := by
  have hboth : Consistent t ∧ s.ledger <+: t.ledger := by
    refine hrun.invariant (I := fun _ t => Consistent t ∧ s.ledger <+: t.ledger)
      ⟨h, List.prefix_rfl⟩ ?_
    rintro _ u l v ⟨hu, hprefix⟩ hstep
    have hmove := (step_iff hu.bounded l v).mp hstep
    exact ⟨hu.move hmove, hprefix.trans (ledger_isPrefix_of_accounting hmove.accounting)⟩
  exact hboth.2

/-- The concrete two-operation kernel refines the abstract authority.  The two
are divergence-preserving branching bisimilar once the internal labels are
hidden.  In every state that a run of the kernel reaches, the internal steps
lower the rank, the ledger has only grown and goes on to grow, the head counts
the resolved entries, and each deliverable entry is delivered once, by a
delivery of its own key. -/
theorem multi_crossing_refines :
    Lts.BranchingBisimilar Abstract.Step Step Hidden Abstract.initial initial ∧
      ∀ ls s, Lts.Run Step initial ls s →
        (∃ edges, successors s = .ok edges) ∧
          (∀ l t, Step s l t → Hidden l → internalRank t < internalRank s) ∧
          (∀ ms t, Lts.Run Step s ms t → s.ledger <+: t.ledger) ∧
          s.head = resolvedCount s.ledger ∧
          s.effects + awaited s = deliverableCount s.ledger ∧
          ∀ key, ls.count (.delivery key) = if delivered s key.slot then 1 else 0 := by
  refine ⟨⟨refinement.Related, refinement.branchingBisimulation, consistent_initial, rfl⟩, ?_⟩
  intro ls s hrun
  have haccounted := accounted_of_run hrun
  have hs := haccounted.consistent
  refine ⟨successors_ok hs, ?_, ?_, hs.counted, haccounted.effects, ?_⟩
  · intro l t hstep hl
    exact (stutters hs ((step_iff hs.bounded l t).mp hstep) hl).2
  · intro ms t hcontinues
    exact ledger_isPrefix_of_run hs hcontinues
  · intro key
    rw [haccounted.deliveries key]
    cases delivered s key.slot <;> rfl

end Concrete
end Raes.Crossing
