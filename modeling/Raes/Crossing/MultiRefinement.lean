import Raes.Crossing.MultiInvariant

/-!
# The concrete crossing model refines the abstract one

The abstraction of a concrete state forgets the hidden stages.  A refusal that is
decided but not committed counts as recorded, and a committed result that is not
delivered counts as not recorded: the abstract model records a refusal with its
decision and a delivery with its effect.
-/

namespace Raes.Crossing
namespace Concrete

/-- The coordinates that both models carry. -/
def image (s : State) (phase : Abstract.Phase) : Abstract.State :=
  { phase := phase
    cut := s.cut
    head := s.head
    ledger := s.ledger
    effects := s.effects
    known := s.known
    intent := s.intent
    decision := s.decision }

def decidedImage (s : State) (i : Intent) : Abstract.State :=
  if s.decision.isRefusal then Abstract.recorded (image s .offered) i false
  else if s.decision = .permit ∨ s.changed = true then image s .delivering
  else image s .decided

def abstraction (s : State) : Abstract.State :=
  match s.phase with
  | .idle => image s .idle
  | .validating | .resolvingCut | .resolvingCapability | .gating => image s .offered
  | .preparingRecord | .committing =>
    match s.intent with
    | none => image s .offered
    | some i => decidedImage s i
  | .delivering =>
    { image s .delivering with head := s.head - 1, ledger := s.ledger.dropLast }
  | .responding => image s .responding

/-! ## The abstraction in each phase -/

variable {s : State}

theorem abstraction_idle (h : s.phase = .idle) : abstraction s = image s .idle := by
  simp only [abstraction, h]

theorem abstraction_gating (h : s.phase = .gating) : abstraction s = image s .offered := by
  simp only [abstraction, h]

variable {i : Intent}

theorem abstraction_preparing (h : s.phase = .preparingRecord)
    (hi : s.intent = some i) : abstraction s = decidedImage s i := by
  simp only [abstraction, h, hi]

theorem abstraction_committing (h : s.phase = .committing)
    (hi : s.intent = some i) : abstraction s = decidedImage s i := by
  simp only [abstraction, h, hi]

theorem abstraction_delivering (h : s.phase = .delivering) : abstraction s =
    { image s .delivering with head := s.head - 1, ledger := s.ledger.dropLast } := by
  simp only [abstraction, h]

theorem abstraction_responding (h : s.phase = .responding) :
    abstraction s = image s .responding := by
  simp only [abstraction, h]

theorem abstraction_reset (s : State) (phase : Abstract.Phase) :
    abstraction (reset s) = Abstract.settled (image s phase) := rfl

theorem abstraction_candidate (hdecision : s.decision = .none) (i : Intent) :
    abstraction (candidate s i) = Abstract.offer (image s .idle) i := by
  simp only [abstraction, candidate, image, Abstract.offer, hdecision]

theorem settled_image (hdecision : s.decision = .none) (phase : Abstract.Phase) :
    { image s phase with phase := .idle, intent := none } = Abstract.settled (image s phase) := by
  simp only [image, Abstract.settled, hdecision]

theorem decidedImage_unchanged (h : Unchanged s) (i : Intent) :
    decidedImage s i = image s .decided := by
  obtain ⟨hdecision, hchanged⟩ := h
  unfold decidedImage
  rcases hdecision with hd | hd <;> simp [hd, hchanged, Decision.isRefusal]

theorem mem_responses_image_iff (phase : Abstract.Phase) (i : Intent) (key : Key)
    (outcome : Decision) (l : Label) (a : Abstract.State) :
    (l, a) ∈ Abstract.responses (Abstract.settled (image s phase)) i key outcome ↔
      ∃ t, (l, t) ∈ responses (reset s) i key outcome ∧ abstraction t = a := by
  simp only [Abstract.mem_responses_iff, mem_responses_iff]
  constructor
  · rintro (⟨rfl, rfl⟩ | ⟨rfl, rfl⟩ | ⟨rfl, rfl⟩)
    · exact ⟨_, .inl ⟨rfl, rfl⟩, rfl⟩
    · exact ⟨_, .inr (.inl ⟨rfl, rfl⟩), rfl⟩
    · exact ⟨_, .inr (.inr ⟨rfl, rfl⟩), rfl⟩
  · rintro ⟨t, ⟨rfl, rfl⟩ | ⟨rfl, rfl⟩ | ⟨rfl, rfl⟩, rfl⟩
    · exact .inl ⟨rfl, rfl⟩
    · exact .inr (.inl ⟨rfl, rfl⟩)
    · exact .inr (.inr ⟨rfl, rfl⟩)

theorem replayable_image_iff {entry : Entry}
    (hpolicy : entry.policy = none ↔ entry.item = .unresolved) (phase : Abstract.Phase) :
    Abstract.Replayable (image s phase) i entry ↔ Replayable s i entry := by
  unfold Abstract.Replayable Replayable policyOf image
  simp only [Prod.mk.injEq, not_or, not_and_or, not_not]
  constructor
  · rintro ⟨⟨hitem, hbody⟩, hcut, hhead⟩
    refine ⟨⟨hitem, hbody, ?_⟩, hhead⟩
    rw [hitem]
    by_cases hu : entry.item = .unresolved
    · rw [if_pos hu, hpolicy.mpr hu]
    · rw [if_neg hu]
      exact (hcut.resolve_left fun h => hu (hpolicy.mp h)).symm
  · rintro ⟨⟨hitem, hbody, hcut⟩, hhead⟩
    refine ⟨⟨hitem, hbody⟩, ?_, hhead⟩
    by_cases hu : i.item = .unresolved
    · rw [if_pos hu] at hcut
      exact .inl hcut.symm
    · rw [if_neg hu] at hcut
      exact .inr hcut.symm

theorem entryOf_image (hdecision : s.decision = Abstract.policy s.cut i.item)
    (phase : Abstract.Phase) : Abstract.entryOf (image s phase) i = entryOf s i := by
  have hresolved := policy_eq_unresolved_iff s.cut i.item
  rw [← hdecision] at hresolved
  by_cases hitem : i.item = .unresolved
  · simp [Abstract.entryOf, entryOf, image, policyOf, hresolved, hitem]
  · simp [Abstract.entryOf, entryOf, image, policyOf, hresolved, hitem]

theorem bounded_abstraction (h : Consistent s) : (abstraction s).ledger.length ≤ 2 := by
  have hattempt := h.attempt
  have hle := h.bounded
  unfold AttemptOk at hattempt
  have hdecided : ∀ i, ClaimsFresh s i → (decidedImage s i).ledger.length ≤ 2 := by
    intro i hclaims
    obtain ⟨hslot, -, hlt⟩ := hclaims
    unfold decidedImage
    split
    · simp only [Abstract.recorded, image, List.length_append, List.length_singleton]
      omega
    · split
      · exact hle
      · exact hle
  unfold abstraction
  cases hphase : s.phase with
  | idle | validating | resolvingCut | resolvingCapability | gating | responding => exact hle
  | preparingRecord =>
    rw [hphase] at hattempt
    obtain ⟨i, hi, hclaims, -⟩ := hattempt
    simp only [hi]
    exact hdecided i hclaims
  | committing =>
    rw [hphase] at hattempt
    obtain ⟨i, hi, hclaims, -⟩ := hattempt
    simp only [hi]
    exact hdecided i hclaims
  | delivering =>
    simp only [List.length_dropLast]
    omega

/-! ## Hidden steps -/

theorem abstraction_committed (h : Consistent s)
    (hphase : s.phase = .committing) (hi : s.intent = some i) :
    abstraction (committed s i) = abstraction s := by
  have hattempt := h.attempt
  unfold AttemptOk at hattempt
  rw [hphase] at hattempt
  obtain ⟨j, hj, hclaims, hdecision, hchanged⟩ := hattempt
  obtain rfl : i = j := Option.some.inj (hi.symm.trans hj)
  rw [abstraction_committing hphase hi]
  unfold decidedImage
  cases hrefusal : s.decision.isRefusal with
  | true =>
    simp only [abstraction, committed, hrefusal, if_true, Abstract.recorded,
      entryOf_image hdecision]
    simp [image]
  | false =>
    have hitem : i.item ≠ .unresolved := by
      intro hitem
      rw [hdecision, (policy_eq_unresolved_iff _ _).mpr hitem] at hrefusal
      exact absurd hrefusal (by decide)
    have hdelivers : s.decision = .permit ∨ s.changed = true := by
      by_contra hnot
      rw [not_or, Bool.not_eq_true] at hnot
      refine hchanged ⟨?_, hnot.2⟩
      rw [hdecision] at hnot hrefusal ⊢
      exact (policy_of_not_refusal hrefusal).resolve_left hnot.1
    simp only [abstraction, committed, hrefusal, Bool.false_eq_true, if_false, if_pos hdelivers]
    simp [image, entryOf, hitem]

variable {l : Label}

theorem stutters {s t : State} (h : Consistent s) (hmove : Move s l t)
    (hl : Hidden l) : abstraction t = abstraction s ∧ internalRank t < internalRank s := by
  obtain ⟨stage, rfl⟩ := (hidden_iff l).mp hl
  have hvisible : ∀ {i : Intent} {key : Key} {outcome : Decision} {u : State},
      (Label.internal stage, t) ∉ responses u i key outcome := by
    intro i key outcome u hmem
    rcases (mem_responses_iff _ _ _ _ _ _).mp hmem with ⟨hlabel, -⟩ | ⟨hlabel, -⟩ | ⟨hlabel, -⟩ <;>
      cases hlabel
  cases hmove with
  | validate i hphase _ _ => simp [abstraction, internalRank, hphase, image]
  | resolveCut i hphase _ _ =>
    by_cases hitem : i.item = .unresolved <;>
      simp [abstraction, internalRank, hphase, hitem, image]
  | resolveCapability i hphase _ _ => simp [abstraction, internalRank, hphase, resolved, image]
  | prepare i hphase hi _ _ =>
    refine ⟨?_, by simp [internalRank, hphase]⟩
    rw [abstraction_preparing hphase hi]
    exact abstraction_committing rfl hi
  | commit i hphase hi _ =>
    refine ⟨abstraction_committed h hphase hi, ?_⟩
    cases hrefusal : s.decision.isRefusal <;> simp [internalRank, committed, hphase, hrefusal]
  | replay _ _ _ _ _ _ _ _ _ _ hmem => exact absurd hmem hvisible
  | respond _ _ _ _ _ _ hmem => exact absurd hmem hvisible

/-! ## Visible steps -/

theorem decidedImage_of_not_refusal (hrefusal : s.decision.isRefusal = false)
    (hchanged : s.changed = false) (i : Intent) :
    decidedImage s i = image s (if s.decision = .permit then .delivering else .decided) := by
  unfold decidedImage
  simp only [hrefusal, hchanged, Bool.false_eq_true, or_false, if_false]
  split <;> rfl

theorem abstraction_decided (hi : s.intent = some i) (outcome : Decision) :
    abstraction { s with phase := .preparingRecord, decision := outcome } =
      decidedImage { s with phase := .preparingRecord, decision := outcome } i :=
  abstraction_preparing rfl hi

theorem decision_image (hi : s.intent = some i)
    (hclaims : ClaimsFresh s i) (hchanged : s.changed = false)
    (houtcome : outcomeOf s i.item = Abstract.policy s.cut i.item) :
    Abstract.Move (image s .offered) (decisionLabel (outcomeOf s i.item) (keyOf i.slot))
      (abstraction { s with phase := .preparingRecord, decision := outcomeOf s i.item }) := by
  rw [abstraction_decided hi, houtcome]
  unfold decisionLabel
  cases hrefusal : (Abstract.policy s.cut i.item).isRefusal with
  | true =>
    have hrecorded : decidedImage
        { s with phase := .preparingRecord, decision := Abstract.policy s.cut i.item } i =
          Abstract.recorded
            { image s .offered with decision := Abstract.policy s.cut i.item } i false :=
      if_pos hrefusal
    rw [hrecorded, if_pos rfl]
    exact Abstract.Move.refuse i rfl hi hclaims.2.1 ⟨hclaims.1, hclaims.2.2⟩ hrefusal
  | false =>
    have hdecided := decidedImage_of_not_refusal
      (s := { s with phase := .preparingRecord, decision := Abstract.policy s.cut i.item })
      hrefusal hchanged i
    rw [hdecided, if_neg Bool.false_ne_true]
    exact Abstract.Move.permit i rfl hi hclaims.2.2 hclaims.2.1 hrefusal

theorem abstraction_delivered {front : List Entry}
    (hphase : s.phase = .delivering) (hledger : s.ledger = front ++ [awaiting s i])
    (hhead : 0 < s.head) (hrefusal : s.decision.isRefusal = false) :
    abstraction { s with phase := .responding, effects := s.effects + 1 } =
      Abstract.recorded (abstraction s) i true := by
  have hdrop : s.ledger.dropLast = front := by
    rw [hledger, List.dropLast_concat]
  have hresolved : s.decision ≠ .unresolved := by
    intro h
    rw [h] at hrefusal
    exact absurd hrefusal (by decide)
  have hpred : s.head - 1 + 1 = s.head := Nat.sub_add_cancel hhead
  rw [abstraction_delivering hphase, hdrop]
  have hentry : Abstract.entryOf
      { image s .delivering with head := s.head - 1, ledger := front } i = awaiting s i := by
    simp [Abstract.entryOf, awaiting, image, hresolved, hpred]
  unfold Abstract.recorded
  rw [hentry]
  simp only [abstraction, image, awaiting, Bool.toNat_true]
  rw [hledger]
  rfl

theorem claimsFresh_abstraction {front : List Entry}
    (hphase : s.phase = .delivering) (hslot : i.slot = front.length) (hlt : i.slot < 2)
    (hledger : s.ledger = front ++ [awaiting s i]) : Abstract.ClaimsFresh (abstraction s) i := by
  rw [abstraction_delivering hphase, hledger, List.dropLast_concat]
  exact ⟨hslot, hlt⟩

theorem answers {s t : State} (h : Consistent s) (hmove : Move s l t)
    (hl : ¬ Hidden l) : Abstract.Move (abstraction s) l (abstraction t) := by
  have hattempt := h.attempt
  unfold AttemptOk at hattempt
  cases hmove with
  | restart hphase =>
    rw [abstraction_idle hphase]
    exact .restart rfl
  | advance hphase hcut =>
    have htarget : abstraction { s with cut := .p1 } = { image s .idle with cut := .p1 } :=
      abstraction_idle hphase
    rw [abstraction_idle hphase, htarget]
    exact .advance rfl hcut
  | fresh item hphase hlt =>
    rw [hphase] at hattempt
    rw [abstraction_idle hphase, abstraction_candidate hattempt.2]
    exact .fresh item rfl hlt
  | status slot entry hphase hentry =>
    rw [abstraction_idle hphase]
    exact .status slot entry rfl hentry
  | retry slot entry item body hphase hentry =>
    rw [hphase] at hattempt
    rw [abstraction_idle hphase, abstraction_candidate hattempt.2]
    exact .retry slot entry item body rfl hentry
  | reject i entry hphase hi hslot hmode hentry hreplay =>
    rw [hphase] at hattempt
    obtain ⟨-, -, -, ⟨hdecision, -⟩, -⟩ := hattempt
    have hpolicy := h.policies entry (List.mem_of_getElem? hentry)
    rw [abstraction_gating hphase, abstraction_reset s .offered, ← settled_image hdecision]
    exact .reject i entry rfl hi hslot hmode hentry
      (mt (replayable_image_iff hpolicy .offered).mp hreplay)
  | replay i entry _ _ hphase hi hslot hmode hentry hreplay hmem =>
    rw [hphase] at hattempt
    obtain ⟨-, -, -, ⟨hdecision, -⟩, -⟩ := hattempt
    have hpolicy := h.policies entry (List.mem_of_getElem? hentry)
    rw [abstraction_gating hphase]
    refine .replay i entry _ _ rfl hi hslot hmode hentry
      ((replayable_image_iff hpolicy .offered).mpr hreplay) ?_
    rw [settled_image hdecision]
    exact (mem_responses_image_iff .offered i _ _ _ _).mpr ⟨_, hmem, rfl⟩
  | decide i hphase hi _ hmode =>
    rw [hphase] at hattempt
    obtain ⟨j, hj, hclaims, ⟨-, hchanged⟩, houtcome⟩ := hattempt
    obtain rfl : i = j := Option.some.inj (hi.symm.trans hj)
    rw [abstraction_gating hphase]
    exact decision_image hi (hclaims.fresh hmode) hchanged houtcome
  | change i hphase hi hslot hunchanged =>
    have htarget : abstraction { s with changed := true } = image s .delivering := by
      rw [abstraction_preparing (s := { s with changed := true }) hphase hi]
      obtain ⟨hdecision, -⟩ := hunchanged
      unfold decidedImage
      rcases hdecision with hd | hd <;> simp [hd, Decision.isRefusal, image]
    rw [abstraction_preparing hphase hi, decidedImage_unchanged hunchanged, htarget]
    exact .change i rfl hi hslot
  | deliver i hphase hi _ =>
    rw [hphase] at hattempt
    obtain ⟨j, front, hj, hslot, hlt, hledger, hhead, hrefusal⟩ := hattempt
    obtain rfl : i = j := Option.some.inj (hi.symm.trans hj)
    rw [abstraction_delivered hphase hledger hhead hrefusal]
    refine .deliver i ?_ ?_ (claimsFresh_abstraction hphase hslot hlt hledger)
    · rw [abstraction_delivering hphase]
      rfl
    · rw [abstraction_delivering hphase]
      exact hi
  | respond i _ _ hphase hi hslot hmem =>
    rw [abstraction_responding hphase]
    exact .respond i _ _ rfl hi hslot
      ((mem_responses_image_iff .responding i _ _ _ _).mpr ⟨_, hmem, rfl⟩)
  | validate _ _ _ _ | resolveCut _ _ _ _ | resolveCapability _ _ _ _ | prepare _ _ _ _ _
  | commit _ _ _ _ => exact absurd (hidden_internal _) hl

variable {a : Abstract.State}

theorem offers_idle (h : Consistent s) (hphase : s.phase = .idle) (hmove : Abstract.Move
    (image s .idle) l a) : ∃ t, Move s l t ∧ abstraction t = a := by
  have hattempt := h.attempt
  unfold AttemptOk at hattempt
  rw [hphase] at hattempt
  cases hmove with
  | restart _ => exact ⟨s, .restart hphase, abstraction_idle hphase⟩
  | advance _ hcut =>
    exact ⟨_, .advance hphase hcut, abstraction_idle (s := { s with cut := .p1 }) hphase⟩
  | fresh item _ hlt => exact ⟨_, .fresh item hphase hlt, abstraction_candidate hattempt.2 _⟩
  | status slot entry _ hentry =>
    exact ⟨s, .status slot entry hphase hentry, abstraction_idle hphase⟩
  | retry slot entry item body _ hentry =>
    exact ⟨_, .retry slot entry item body hphase hentry, abstraction_candidate hattempt.2 _⟩
  | _ => contradiction

theorem offers_gating (h : Consistent s) (hphase : s.phase = .gating) (hmove : Abstract.Move
    (image s .offered) l a) : ∃ t, Move s l t ∧ abstraction t = a := by
  have hattempt := h.attempt
  unfold AttemptOk at hattempt
  rw [hphase] at hattempt
  obtain ⟨j, hj, hclaims, ⟨hdecision, hchanged⟩, houtcome⟩ := hattempt
  cases hmove with
  | reject i entry _ hi hslot hmode hentry hreplay =>
    have hpolicy := h.policies entry (List.mem_of_getElem? hentry)
    rw [settled_image hdecision]
    exact ⟨_, .reject i entry hphase hi hslot hmode hentry
      (mt (replayable_image_iff hpolicy .offered).mpr hreplay), abstraction_reset s .offered⟩
  | replay i entry _ _ _ hi hslot hmode hentry hreplay hmem =>
    have hpolicy := h.policies entry (List.mem_of_getElem? hentry)
    rw [settled_image hdecision] at hmem
    obtain ⟨t, hresponse, habs⟩ := (mem_responses_image_iff .offered i _ _ _ _).mp hmem
    exact ⟨t, .replay i entry _ _ hphase hi hslot hmode hentry
      ((replayable_image_iff hpolicy .offered).mp hreplay) hresponse, habs⟩
  | refuse i _ hi hmode hslot hrefusal =>
    have hrefusal : (Abstract.policy s.cut i.item).isRefusal = true := hrefusal
    obtain rfl : i = j := Option.some.inj (hi.symm.trans hj)
    have hmove := Move.decide i hphase hi hslot.2 hmode
    rw [houtcome] at hmove
    refine ⟨_, ?_, (abstraction_decided hi (Abstract.policy s.cut i.item)).trans (if_pos hrefusal)⟩
    rw [decisionLabel, if_pos hrefusal] at hmove
    exact hmove
  | permit i _ hi hslot hmode hrefusal =>
    have hrefusal : (Abstract.policy s.cut i.item).isRefusal = false := hrefusal
    obtain rfl : i = j := Option.some.inj (hi.symm.trans hj)
    have hmove := Move.decide i hphase hi hslot hmode
    rw [houtcome] at hmove
    have hdecided := decidedImage_of_not_refusal
      (s := { s with phase := .preparingRecord, decision := Abstract.policy s.cut i.item })
      hrefusal hchanged i
    refine ⟨_, ?_, (abstraction_decided hi _).trans hdecided⟩
    have hlabel : decisionLabel (Abstract.policy s.cut i.item) (keyOf i.slot) =
        .decision .permit (keyOf i.slot) := by
      rw [decisionLabel, hrefusal, if_neg Bool.false_ne_true]
    rw [hlabel] at hmove
    exact hmove
  | _ => contradiction

theorem offers_abstract (h : Consistent s) (hmove : Abstract.Move (abstraction s) l a) :
    (∃ m t, Hidden m ∧ Move s m t) ∨ ∃ t, Move s l t ∧ abstraction t = a := by
  have hattempt := h.attempt
  unfold AttemptOk at hattempt
  cases hphase : s.phase with
  | idle =>
    rw [abstraction_idle hphase] at hmove
    exact .inr (offers_idle h hphase hmove)
  | validating =>
    rw [hphase] at hattempt
    obtain ⟨i, hi, hclaims, -⟩ := hattempt
    exact .inl ⟨_, _, hidden_internal _, .validate i hphase hi (hclaims.lt h.bounded)⟩
  | resolvingCut =>
    rw [hphase] at hattempt
    obtain ⟨i, hi, hclaims, -⟩ := hattempt
    exact .inl ⟨_, _, hidden_internal _, .resolveCut i hphase hi (hclaims.lt h.bounded)⟩
  | resolvingCapability =>
    rw [hphase] at hattempt
    obtain ⟨i, hi, hclaims, -⟩ := hattempt
    exact .inl ⟨_, _, hidden_internal _, .resolveCapability i hphase hi (hclaims.lt h.bounded)⟩
  | gating =>
    rw [abstraction_gating hphase] at hmove
    exact .inr (offers_gating h hphase hmove)
  | preparingRecord =>
    rw [hphase] at hattempt
    obtain ⟨i, hi, hclaims, -⟩ := hattempt
    by_cases hunchanged : Unchanged s
    · rw [abstraction_preparing hphase hi, decidedImage_unchanged hunchanged] at hmove
      right
      cases hmove with
      | change j _ hj hslot =>
        refine ⟨_, .change j hphase hj hslot hunchanged, ?_⟩
        rw [abstraction_preparing (s := { s with changed := true }) hphase hi]
        obtain ⟨hdecision, -⟩ := hunchanged
        unfold decidedImage
        rcases hdecision with hd | hd <;> simp [hd, Decision.isRefusal, image]
      | _ => contradiction
    · exact .inl ⟨_, _, hidden_internal _, .prepare i hphase hi hclaims.2.2 hunchanged⟩
  | committing =>
    rw [hphase] at hattempt
    obtain ⟨i, hi, hclaims, -⟩ := hattempt
    exact .inl ⟨_, _, hidden_internal _, .commit i hphase hi hclaims⟩
  | delivering =>
    rw [hphase] at hattempt
    obtain ⟨i, front, hi, hslot, hlt, hledger, hhead, hrefusal⟩ := hattempt
    have hdelivered := abstraction_delivered hphase hledger hhead hrefusal
    right
    rw [abstraction_delivering hphase] at hmove hdelivered
    cases hmove with
    | deliver j _ hj _ =>
      obtain rfl : j = i := Option.some.inj (hj.symm.trans hi)
      exact ⟨_, .deliver j hphase hi hlt, hdelivered⟩
    | _ => contradiction
  | responding =>
    rw [abstraction_responding hphase] at hmove
    right
    cases hmove with
    | respond i _ _ _ hi hslot hmem =>
      obtain ⟨t, hresponse, habs⟩ := (mem_responses_image_iff .responding i _ _ _ _).mp hmem
      exact ⟨t, .respond i _ _ hphase hi hslot hresponse, habs⟩
    | _ => contradiction

def refinement : Lts.Refinement Abstract.Step Step Hidden where
  abstraction := abstraction
  invariant := Consistent
  rank := internalRank
  keeps _ _ _ h hstep := h.step hstep
  stutters _ l t h hstep hl := stutters h ((step_iff h.bounded l t).mp hstep) hl
  answers _ l t h hstep hl :=
    (Abstract.step_iff (bounded_abstraction h) l _).mpr
      (answers h ((step_iff h.bounded l t).mp hstep) hl)
  offers s l a h hstep := by
    have hmove := (Abstract.step_iff (bounded_abstraction h) l a).mp hstep
    rcases offers_abstract h hmove with ⟨m, t, hm, ht⟩ | ⟨t, ht, habs⟩
    · exact .inl ⟨t, m, hm, (step_iff h.bounded m t).mpr ht⟩
    · exact .inr ⟨t, (step_iff h.bounded l t).mpr ht, habs⟩
  visible s l a h hstep := by
    have hmove := (Abstract.step_iff (bounded_abstraction h) l a).mp hstep
    exact hmove.visible

end Concrete
end Raes.Crossing
