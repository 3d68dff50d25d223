import Raes.Crossing.MultiProfile
import Raes.Lib.ExceptList

/-!
# The concrete two-operation model

`multi_concrete.py`: the kernel of API-423 and RUN-319.  A request is validated,
its policy cut and its capability are resolved, and only a fresh claim prepares
and commits a result, which a delivery then follows.
-/

namespace Raes.Crossing
namespace Concrete

open PyError

inductive Phase where
  | idle
  | validating
  | resolvingCut
  | resolvingCapability
  | gating
  | preparingRecord
  | committing
  | delivering
  | responding
  deriving DecidableEq

inductive Gate where
  | unresolved
  | deny
  | permit
  deriving DecidableEq

inductive Capability where
  | unresolved
  | unsupported
  | supported
  deriving DecidableEq

structure State where
  phase : Phase
  cut : PolicyCut
  head : ℕ
  ledger : List Entry
  (effects known : ℕ)
  intent : Option Intent
  decision : Decision
  gate : Gate
  capability : Capability
  changed : Bool
  deriving DecidableEq

def initial : State :=
  { phase := .idle, cut := .p0, head := 0, ledger := [], effects := 0, known := 0,
    intent := none, decision := .none, gate := .unresolved, capability := .unresolved,
    changed := false }

variable (state : State)

def candidate (intent : Intent) : State :=
  { state with
    phase := .validating, intent := some intent, decision := .none, gate := .unresolved,
    capability := .unresolved, changed := false }

/-- What an idle state offers at one position of the ledger, the first free one included. -/
def offers (position : ℕ) : Except PyError (List (Label × State)) := do
  let key ← keyAt position
  if position = state.ledger.length then
    return inputs.map fun item =>
      (.request .fresh key, candidate state ⟨position, item, .original, .fresh⟩)
  else
    let incumbent ← entryAt state.ledger position
    return (.status (!incumbent.outcome.isRefusal) key, state) ::
      inputs.flatMap fun item =>
        [Body.original, Body.changed].map fun body =>
          (.request .retry key, candidate state ⟨position, item, body, .retry⟩)

def environment (state : State) : Except PyError (List (Label × State)) := do
  let positions := state.ledger.length + if state.ledger.length < 2 then 1 else 0
  let offered ← (List.range positions).mapM (offers state)
  return (.restart, state) ::
    ((if state.cut = .p0 then [(.policyCutAdvance, { state with cut := .p1 })] else []) ++
      offered.flatten)

def reset (state : State) : State :=
  { state with
    phase := .idle, intent := none, decision := .none, gate := .unresolved,
    capability := .unresolved, changed := false }

/-- The answers to a request whose result is retained. -/
def responses (reset : State) (intent : Intent) (key : Key) (outcome : Decision) :
    List (Label × State) :=
  [(.result outcome key, { reset with known := reset.known ||| (1 <<< intent.slot) }),
    (.outcomeUnknown key, reset), (.restart, reset)]

def policyOf (item : Input) : Option PolicyCut :=
  if item = .unresolved then none else some state.cut

def replay (intent : Intent) (key : Key) : Except PyError (List (Label × State)) := do
  let incumbent ← entryAt state.ledger intent.slot
  if (intent.item, intent.body, policyOf state intent.item) ≠
        (incumbent.item, incumbent.body, incumbent.policy) ∨
      state.head ≠ incumbent.decisionHead ∧ state.head ≠ incumbent.resultHead then
    return [(.replayReject key, reset state)]
  else
    return responses (reset state) intent key incumbent.outcome

def outcomeOf (item : Input) : Decision :=
  if item = .unresolved then .unresolved
  else if state.gate = .deny then .deny
  else if state.capability ≠ .supported then .unsupported
  else match item with
    | .transform => .transform
    | .declassify => .declassify
    | _ => .permit

def gating (intent : Intent) (key : Key) : Except PyError (List (Label × State)) :=
  if intent.mode = .retry then replay state intent key
  else
    let outcome := outcomeOf state intent.item
    let label := if outcome.isRefusal then outcome else .permit
    return [(.decision label key, { state with phase := .preparingRecord, decision := outcome })]

def entryOf (intent : Intent) : Entry :=
  { item := intent.item
    body := intent.body
    policy := policyOf state intent.item
    decisionHead := state.head
    resultHead := if intent.item = .unresolved then state.head else state.head + 1
    outcome := state.decision }

def commit (intent : Intent) : Except PyError State := do
  refuseIf (intent.slot ≠ state.ledger.length ∨ intent.mode ≠ .fresh ∨ 2 ≤ intent.slot)
    (valueError "invalid concrete fresh claim")
  return { state with
    phase := if state.decision.isRefusal then .responding else .delivering
    head := (entryOf state intent).resultHead
    ledger := state.ledger ++ [entryOf state intent] }

def successors (state : State) : Except PyError (List (Label × State)) :=
  match state.phase with
  | .idle => environment state
  | .validating => do
    let _ ← requestOf state.intent
    return [(.internal .validate, { state with phase := .resolvingCut })]
  | .resolvingCut => do
    let (intent, _) ← requestOf state.intent
    let phase := if intent.item = .unresolved then Phase.gating else .resolvingCapability
    return [(.internal .resolvePolicyCut, { state with phase := phase })]
  | .resolvingCapability => do
    let (intent, _) ← requestOf state.intent
    let capability := if intent.item = .unsupported then Capability.unsupported else .supported
    let denied := intent.item = .forbidden ∨ intent.item = .declassify ∧ state.cut = .p0
    return [(.internal .resolveCapability, { state with
      phase := .gating, capability := capability, gate := if denied then .deny else .permit })]
  | .gating => do
    let (intent, key) ← requestOf state.intent
    gating state intent key
  | .preparingRecord => do
    let (_, key) ← requestOf state.intent
    if (state.decision = .transform ∨ state.decision = .declassify) ∧ state.changed = false then
      return [(.change state.decision key, { state with changed := true })]
    else
      return [(.internal .prepareRecord, { state with phase := .committing })]
  | .committing => do
    let (intent, _) ← requestOf state.intent
    return [(.internal .atomicCommit, ← commit state intent)]
  | .delivering => do
    let (_, key) ← requestOf state.intent
    return [(.delivery key, { state with phase := .responding, effects := state.effects + 1 })]
  | .responding => do
    let (intent, key) ← requestOf state.intent
    return responses (reset state) intent key state.decision

def Step (label : Label) (target : State) : Prop :=
  ∃ edges, successors state = .ok edges ∧ (label, target) ∈ edges

def internalRank (state : State) : ℕ :=
  match state.phase with
  | .validating => 6
  | .resolvingCut => 5
  | .resolvingCapability => 4
  | .gating => 3
  | .preparingRecord => 2
  | .committing => 1
  | .idle | .delivering | .responding => 0

end Concrete
end Raes.Crossing

/-!
# The moves of the concrete crossing model

What a step of the concrete model can be, as for the abstract one.
-/

namespace Raes.Crossing
namespace Concrete

variable (state : State)

/-- The request and a head of a retained result are those of a retry. -/
def Replayable (intent : Intent) (incumbent : Entry) : Prop :=
  ¬ ((intent.item, intent.body, policyOf state intent.item) ≠
        (incumbent.item, incumbent.body, incumbent.policy) ∨
      state.head ≠ incumbent.decisionHead ∧ state.head ≠ incumbent.resultHead)

/-- The attempt claims the first free slot. -/
def ClaimsFresh (intent : Intent) : Prop :=
  intent.slot = state.ledger.length ∧ intent.mode = .fresh ∧ intent.slot < 2

/-- The visible change of a permitted request is still to come. -/
def Unchanged (state : State) : Prop :=
  (state.decision = .transform ∨ state.decision = .declassify) ∧ state.changed = false

def committed (intent : Intent) : State :=
  { state with
    phase := if state.decision.isRefusal then .responding else .delivering
    head := (entryOf state intent).resultHead
    ledger := state.ledger ++ [entryOf state intent] }

def resolved (item : Input) : State :=
  { state with
    phase := .gating
    capability := if item = .unsupported then .unsupported else .supported
    gate := if item = .forbidden ∨ item = .declassify ∧ state.cut = .p0 then .deny else .permit }

def decisionLabel (outcome : Decision) (key : Key) : Label :=
  .decision (if outcome.isRefusal then outcome else .permit) key

inductive Move (s : State) : Label → State → Prop where
  | restart : s.phase = .idle → Move s .restart s
  | advance : s.phase = .idle → s.cut = .p0 → Move s .policyCutAdvance { s with cut := .p1 }
  | fresh (item : Input) : s.phase = .idle → s.ledger.length < 2 →
      Move s (.request .fresh (keyOf s.ledger.length))
        (candidate s ⟨s.ledger.length, item, .original, .fresh⟩)
  | status (slot : ℕ) (entry : Entry) : s.phase = .idle → s.ledger[slot]? = some entry →
      Move s (.status (!entry.outcome.isRefusal) (keyOf slot)) s
  | retry (slot : ℕ) (entry : Entry) (item : Input) (body : Body) : s.phase = .idle →
      s.ledger[slot]? = some entry →
      Move s (.request .retry (keyOf slot)) (candidate s ⟨slot, item, body, .retry⟩)
  | validate (i : Intent) : s.phase = .validating → s.intent = some i → i.slot < 2 →
      Move s (.internal .validate) { s with phase := .resolvingCut }
  | resolveCut (i : Intent) : s.phase = .resolvingCut → s.intent = some i → i.slot < 2 →
      Move s (.internal .resolvePolicyCut) { s with
        phase := if i.item = .unresolved then .gating else .resolvingCapability }
  | resolveCapability (i : Intent) : s.phase = .resolvingCapability → s.intent = some i →
      i.slot < 2 → Move s (.internal .resolveCapability) (resolved s i.item)
  | reject (i : Intent) (entry : Entry) : s.phase = .gating → s.intent = some i → i.slot < 2 →
      i.mode = .retry → s.ledger[i.slot]? = some entry → ¬ Replayable s i entry →
      Move s (.replayReject (keyOf i.slot)) (reset s)
  | replay (i : Intent) (entry : Entry) (l : Label) (t : State) : s.phase = .gating →
      s.intent = some i → i.slot < 2 → i.mode = .retry → s.ledger[i.slot]? = some entry →
      Replayable s i entry → (l, t) ∈ responses (reset s) i (keyOf i.slot) entry.outcome →
      Move s l t
  | decide (i : Intent) : s.phase = .gating → s.intent = some i → i.slot < 2 → i.mode = .fresh →
      Move s (decisionLabel (outcomeOf s i.item) (keyOf i.slot))
        { s with phase := .preparingRecord, decision := outcomeOf s i.item }
  | change (i : Intent) : s.phase = .preparingRecord → s.intent = some i → i.slot < 2 →
      Unchanged s → Move s (.change s.decision (keyOf i.slot)) { s with changed := true }
  | prepare (i : Intent) : s.phase = .preparingRecord → s.intent = some i → i.slot < 2 →
      ¬ Unchanged s → Move s (.internal .prepareRecord) { s with phase := .committing }
  | commit (i : Intent) : s.phase = .committing → s.intent = some i → ClaimsFresh s i →
      Move s (.internal .atomicCommit) (committed s i)
  | deliver (i : Intent) : s.phase = .delivering → s.intent = some i → i.slot < 2 →
      Move s (.delivery (keyOf i.slot))
        { s with phase := .responding, effects := s.effects + 1 }
  | respond (i : Intent) (l : Label) (t : State) : s.phase = .responding → s.intent = some i →
      i.slot < 2 → (l, t) ∈ responses (reset s) i (keyOf i.slot) s.decision → Move s l t

theorem mem_responses_iff (s : State) (i : Intent) (key : Key) (outcome : Decision) (l : Label)
    (t : State) :
    (l, t) ∈ responses s i key outcome ↔
      l = .result outcome key ∧ t = { s with known := s.known ||| (1 <<< i.slot) } ∨
        l = .outcomeUnknown key ∧ t = s ∨ l = .restart ∧ t = s := by
  simp [responses]

theorem commit_eq_ok_iff (s : State) (i : Intent) (t : State) :
    commit s i = .ok t ↔ ClaimsFresh s i ∧ t = committed s i := by
  unfold commit ClaimsFresh
  rw [seq_eq_ok_iff, refuseIf_eq_ok_iff]
  simp only [not_or, not_not, Nat.not_le]
  refine and_congr_right fun _ => ?_
  constructor
  · intro h
    exact (Except.ok.inj h).symm
  · rintro rfl
    rfl

/-- What an idle state offers at a position, when the ledger has at most two results. -/
def offered (s : State) (position : ℕ) : List (Label × State) :=
  match s.ledger[position]? with
  | none =>
    inputs.map fun item =>
      (.request .fresh (keyOf position), candidate s ⟨position, item, .original, .fresh⟩)
  | some incumbent =>
    (.status (!incumbent.outcome.isRefusal) (keyOf position), s) ::
      inputs.flatMap fun item => [Body.original, Body.changed].map fun body =>
        (.request .retry (keyOf position), candidate s ⟨position, item, body, .retry⟩)

variable {s : State}

theorem offers_eq_ok {position : ℕ} (hlt : position < 2)
    (hle : position ≤ s.ledger.length) : offers s position = .ok (offered s position) := by
  unfold offers offered
  rw [keyAt_of_lt hlt]
  cases hentry : s.ledger[position]? with
  | none =>
    have hlen : position = s.ledger.length :=
      Nat.le_antisymm hle (List.getElem?_eq_none_iff.mp hentry)
    show (if position = s.ledger.length then _ else _) = _
    rw [if_pos hlen]
    rfl
  | some incumbent =>
    have hne : position ≠ s.ledger.length :=
      Nat.ne_of_lt (List.getElem?_eq_some_iff.mp hentry).1
    show (if position = s.ledger.length then _ else _) = _
    rw [if_neg hne, entryAt_eq_ok_iff.mpr hentry]
    rfl

theorem step_idle_iff (hle : s.ledger.length ≤ 2) (hphase : s.phase = .idle)
    (l : Label) (t : State) : Step s l t ↔ Move s l t := by
  have hpositions : ∀ p ∈ List.range (s.ledger.length + if s.ledger.length < 2 then 1 else 0),
      offers s p = .ok (offered s p) := by
    intro p hp
    rw [List.mem_range] at hp
    split at hp
    · exact offers_eq_ok (by omega) (by omega)
    · exact offers_eq_ok (by omega) (by omega)
  have hstep : Step s l t ↔ (l = .restart ∧ t = s) ∨
      (s.cut = .p0 ∧ l = .policyCutAdvance ∧ t = { s with cut := .p1 }) ∨
      ∃ p < s.ledger.length + (if s.ledger.length < 2 then 1 else 0), (l, t) ∈ offered s p := by
    unfold Step successors environment
    rw [hphase]
    dsimp only
    rw [mapM_eq_ok_map hpositions]
    constructor
    · rintro ⟨edges, hedges, hmem⟩
      cases hedges
      rw [List.mem_cons, List.mem_append] at hmem
      rcases hmem with h | h | h
      · exact .inl (Prod.mk.inj h)
      · by_cases hcut : s.cut = .p0
        · rw [if_pos hcut, List.mem_singleton] at h
          exact .inr (.inl ⟨hcut, Prod.mk.inj h⟩)
        · rw [if_neg hcut] at h
          cases h
      · obtain ⟨edges, hedges, hmem⟩ := List.mem_flatten.mp h
        obtain ⟨p, hp, rfl⟩ := List.mem_map.mp hedges
        exact .inr (.inr ⟨p, List.mem_range.mp hp, hmem⟩)
    · rintro (⟨rfl, rfl⟩ | ⟨hcut, rfl, rfl⟩ | ⟨p, hp, hmem⟩)
      · exact ⟨_, rfl, List.mem_cons_self⟩
      · refine ⟨_, rfl, List.mem_cons_of_mem _ (List.mem_append_left _ ?_)⟩
        rw [if_pos hcut]
        exact List.mem_singleton_self _
      · refine ⟨_, rfl, List.mem_cons_of_mem _ (List.mem_append_right _ ?_)⟩
        exact List.mem_flatten.mpr ⟨_, List.mem_map_of_mem (List.mem_range.mpr hp), hmem⟩
  rw [hstep]
  constructor
  · rintro (⟨rfl, rfl⟩ | ⟨hcut, rfl, rfl⟩ | ⟨p, hp, hmem⟩)
    · exact .restart hphase
    · exact .advance hphase hcut
    · unfold offered at hmem
      cases hentry : s.ledger[p]? with
      | none =>
        rw [hentry] at hmem
        obtain ⟨item, _, h⟩ := List.mem_map.mp hmem
        have hlen := List.getElem?_eq_none_iff.mp hentry
        have hlt : s.ledger.length < 2 := by
          by_contra hge
          rw [if_neg hge] at hp
          omega
        rw [if_pos hlt] at hp
        obtain rfl : p = s.ledger.length := by omega
        cases h
        exact .fresh item hphase hlt
      | some entry =>
        rw [hentry] at hmem
        rcases List.mem_cons.mp hmem with h | h
        · cases h
          exact .status p entry hphase hentry
        · obtain ⟨item, _, h⟩ := List.mem_flatMap.mp h
          obtain ⟨body, _, h⟩ := List.mem_map.mp h
          cases h
          exact .retry p entry item body hphase hentry
  · intro hmove
    cases hmove with
    | restart => exact .inl ⟨rfl, rfl⟩
    | advance _ hcut => exact .inr (.inl ⟨hcut, rfl, rfl⟩)
    | fresh item _ hlt =>
      refine .inr (.inr ⟨s.ledger.length, by rw [if_pos hlt]; omega, ?_⟩)
      unfold offered
      rw [List.getElem?_eq_none_iff.mpr (Nat.le_refl _)]
      exact List.mem_map.mpr ⟨item, mem_inputs item, rfl⟩
    | status slot entry _ hentry =>
      have hslot := (List.getElem?_eq_some_iff.mp hentry).1
      refine .inr (.inr ⟨slot, by omega, ?_⟩)
      unfold offered
      rw [hentry]
      exact List.mem_cons_self
    | retry slot entry item body _ hentry =>
      have hslot := (List.getElem?_eq_some_iff.mp hentry).1
      refine .inr (.inr ⟨slot, by omega, ?_⟩)
      unfold offered
      rw [hentry]
      refine List.mem_cons_of_mem _ (List.mem_flatMap.mpr ⟨item, mem_inputs item, ?_⟩)
      exact List.mem_map.mpr ⟨body, by cases body <;> simp, rfl⟩
    | validate _ h | resolveCut _ h | resolveCapability _ h | reject _ _ h | replay _ _ _ _ h
    | decide _ h | change _ h | prepare _ h | commit _ h | deliver _ h | respond _ _ _ h =>
      exact absurd (hphase.symm.trans h) (by decide)

theorem mem_replay_iff (s : State) (i : Intent) (key : Key) (l : Label) (t : State) :
    (∃ edges, replay s i key = .ok edges ∧ (l, t) ∈ edges) ↔
      ∃ entry, s.ledger[i.slot]? = some entry ∧
        (Replayable s i entry ∧ (l, t) ∈ responses (reset s) i key entry.outcome ∨
          ¬ Replayable s i entry ∧ l = .replayReject key ∧ t = reset s) := by
  unfold replay
  simp only [bind_eq_ok_iff, entryAt_eq_ok_iff]
  constructor
  · rintro ⟨edges, ⟨entry, hentry, hedges⟩, hmem⟩
    refine ⟨entry, hentry, ?_⟩
    by_cases h : Replayable s i entry
    · cases hedges.symm.trans (if_neg h)
      exact .inl ⟨h, hmem⟩
    · cases hedges.symm.trans (if_pos (not_not.mp h))
      exact .inr ⟨h, Prod.mk.inj (List.mem_singleton.mp hmem)⟩
  · rintro ⟨entry, hentry, ⟨h, hmem⟩ | ⟨h, rfl, rfl⟩⟩
    · exact ⟨_, ⟨entry, hentry, if_neg h⟩, hmem⟩
    · exact ⟨_, ⟨entry, hentry, if_pos (not_not.mp h)⟩, List.mem_singleton_self _⟩

theorem step_gating_iff (hphase : s.phase = .gating) (l : Label) (t : State) :
    Step s l t ↔ Move s l t := by
  have hstep : Step s l t ↔ ∃ i, s.intent = some i ∧ i.slot < 2 ∧
      ((i.mode = .retry ∧ ∃ edges, replay s i (keyOf i.slot) = .ok edges ∧ (l, t) ∈ edges) ∨
        (i.mode = .fresh ∧ l = decisionLabel (outcomeOf s i.item) (keyOf i.slot) ∧
          t = { s with phase := .preparingRecord, decision := outcomeOf s i.item })) := by
    unfold Step successors
    rw [hphase]
    simp only [attempt_eq_ok_iff]
    unfold gating
    constructor
    · rintro ⟨edges, ⟨i, hi, hslot, hedges⟩, hmem⟩
      refine ⟨i, hi, hslot, ?_⟩
      cases hmode : i.mode with
      | retry => exact .inl ⟨rfl, edges, hedges.symm.trans (if_pos hmode) |>.symm, hmem⟩
      | fresh =>
        cases hedges.symm.trans (if_neg (by rw [hmode]; decide))
        exact .inr ⟨rfl, Prod.mk.inj (List.mem_singleton.mp hmem)⟩
    · rintro ⟨i, hi, hslot, ⟨hmode, edges, hedges, hmem⟩ | ⟨hmode, rfl, rfl⟩⟩
      · exact ⟨edges, ⟨i, hi, hslot, (if_pos hmode).trans hedges⟩, hmem⟩
      · exact ⟨_, ⟨i, hi, hslot, if_neg (by rw [hmode]; decide)⟩, List.mem_singleton_self _⟩
  rw [hstep]
  simp only [mem_replay_iff]
  constructor
  · rintro ⟨i, hi, hslot, ⟨hmode, entry, hentry, ⟨h, hmem⟩ | ⟨h, rfl, rfl⟩⟩ | ⟨hmode, rfl, rfl⟩⟩
    · exact .replay i entry l t hphase hi hslot hmode hentry h hmem
    · exact .reject i entry hphase hi hslot hmode hentry h
    · exact .decide i hphase hi hslot hmode
  · intro hmove
    cases hmove with
    | reject i entry _ hi hslot hmode hentry h =>
      exact ⟨i, hi, hslot, .inl ⟨hmode, entry, hentry, .inr ⟨h, rfl, rfl⟩⟩⟩
    | replay i entry _ _ _ hi hslot hmode hentry h hmem =>
      exact ⟨i, hi, hslot, .inl ⟨hmode, entry, hentry, .inl ⟨h, hmem⟩⟩⟩
    | decide i _ hi hslot hmode => exact ⟨i, hi, hslot, .inr ⟨hmode, rfl, rfl⟩⟩
    | _ => exact absurd (hphase.symm.trans (by assumption)) (by decide)

theorem step_preparing_iff (hphase : s.phase = .preparingRecord) (l : Label)
    (t : State) : Step s l t ↔ Move s l t := by
  unfold Step successors
  rw [hphase]
  simp only [attempt_eq_ok_iff]
  constructor
  · rintro ⟨edges, ⟨i, hi, hslot, hedges⟩, hmem⟩
    by_cases h : Unchanged s
    · cases hedges.symm.trans (if_pos h)
      obtain ⟨rfl, rfl⟩ := Prod.mk.inj (List.mem_singleton.mp hmem)
      have hmove := Move.change i hphase hi hslot h
      rw [hphase] at hmove
      exact hmove
    · cases hedges.symm.trans (if_neg h)
      obtain ⟨rfl, rfl⟩ := Prod.mk.inj (List.mem_singleton.mp hmem)
      exact .prepare i hphase hi hslot h
  · intro hmove
    cases hmove with
    | change i _ hi hslot h =>
      refine ⟨_, ⟨i, hi, hslot, if_pos h⟩, ?_⟩
      rw [hphase]
      exact List.mem_singleton_self _
    | prepare i _ hi hslot h =>
      exact ⟨_, ⟨i, hi, hslot, if_neg h⟩, List.mem_singleton_self _⟩
    | _ => exact absurd (hphase.symm.trans (by assumption)) (by decide)

theorem step_iff (hle : s.ledger.length ≤ 2) (l : Label) (t : State) : Step s l t ↔ Move s l t := by
  cases hphase : s.phase with
  | idle => exact step_idle_iff hle hphase l t
  | gating => exact step_gating_iff hphase l t
  | preparingRecord => exact step_preparing_iff hphase l t
  | validating =>
    unfold Step successors
    rw [hphase]
    simp only [attempt_eq_ok_iff]
    constructor
    · rintro ⟨edges, ⟨i, hi, hslot, hedges⟩, hmem⟩
      cases hedges
      obtain ⟨rfl, rfl⟩ := Prod.mk.inj (List.mem_singleton.mp hmem)
      exact .validate i hphase hi hslot
    · intro hmove
      cases hmove with
      | validate i _ hi hslot => exact ⟨_, ⟨i, hi, hslot, rfl⟩, List.mem_singleton_self _⟩
      | _ => exact absurd (hphase.symm.trans (by assumption)) (by decide)
  | resolvingCut =>
    unfold Step successors
    rw [hphase]
    simp only [attempt_eq_ok_iff]
    constructor
    · rintro ⟨edges, ⟨i, hi, hslot, hedges⟩, hmem⟩
      cases hedges
      obtain ⟨rfl, rfl⟩ := Prod.mk.inj (List.mem_singleton.mp hmem)
      exact .resolveCut i hphase hi hslot
    · intro hmove
      cases hmove with
      | resolveCut i _ hi hslot => exact ⟨_, ⟨i, hi, hslot, rfl⟩, List.mem_singleton_self _⟩
      | _ => exact absurd (hphase.symm.trans (by assumption)) (by decide)
  | resolvingCapability =>
    unfold Step successors
    rw [hphase]
    simp only [attempt_eq_ok_iff]
    constructor
    · rintro ⟨edges, ⟨i, hi, hslot, hedges⟩, hmem⟩
      cases hedges
      obtain ⟨rfl, rfl⟩ := Prod.mk.inj (List.mem_singleton.mp hmem)
      exact .resolveCapability i hphase hi hslot
    · intro hmove
      cases hmove with
      | resolveCapability i _ hi hslot =>
        exact ⟨_, ⟨i, hi, hslot, rfl⟩, List.mem_singleton_self _⟩
      | _ => exact absurd (hphase.symm.trans (by assumption)) (by decide)
  | committing =>
    unfold Step successors
    rw [hphase]
    simp only [attempt_eq_ok_iff]
    simp only [bind_eq_ok_iff, commit_eq_ok_iff]
    constructor
    · rintro ⟨edges, ⟨i, hi, -, _, ⟨hclaims, rfl⟩, hedges⟩, hmem⟩
      cases hedges
      obtain ⟨rfl, rfl⟩ := Prod.mk.inj (List.mem_singleton.mp hmem)
      exact .commit i hphase hi hclaims
    · intro hmove
      cases hmove with
      | commit i _ hi hclaims =>
        exact ⟨_, ⟨i, hi, hclaims.2.2, _, ⟨hclaims, rfl⟩, rfl⟩, List.mem_singleton_self _⟩
      | _ => exact absurd (hphase.symm.trans (by assumption)) (by decide)
  | delivering =>
    unfold Step successors
    rw [hphase]
    simp only [attempt_eq_ok_iff]
    constructor
    · rintro ⟨edges, ⟨i, hi, hslot, hedges⟩, hmem⟩
      cases hedges
      obtain ⟨rfl, rfl⟩ := Prod.mk.inj (List.mem_singleton.mp hmem)
      exact .deliver i hphase hi hslot
    · intro hmove
      cases hmove with
      | deliver i _ hi hslot => exact ⟨_, ⟨i, hi, hslot, rfl⟩, List.mem_singleton_self _⟩
      | _ => exact absurd (hphase.symm.trans (by assumption)) (by decide)
  | responding =>
    unfold Step successors
    rw [hphase]
    simp only [attempt_eq_ok_iff]
    constructor
    · rintro ⟨edges, ⟨i, hi, hslot, hedges⟩, hmem⟩
      cases hedges
      exact .respond i l t hphase hi hslot hmem
    · intro hmove
      cases hmove with
      | respond i _ _ _ hi hslot hmem => exact ⟨_, ⟨i, hi, hslot, rfl⟩, hmem⟩
      | _ => exact absurd (hphase.symm.trans (by assumption)) (by decide)

end Concrete
end Raes.Crossing
