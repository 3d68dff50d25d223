import Raes.Crossing.MultiProfile
import Raes.Lib.ExceptList

/-!
# The abstract two-operation model

`multi_abstract.py`: the authority for the fixed two-operation profile.  A
delivery records the result and its effect in one step.
-/

namespace Raes.Crossing
namespace Abstract

open PyError

inductive Phase where
  | idle
  | offered
  | decided
  | delivering
  | responding
  deriving DecidableEq

structure State where
  phase : Phase
  cut : PolicyCut
  head : ℕ
  ledger : List Entry
  (effects known : ℕ)
  intent : Option Intent
  decision : Decision
  deriving DecidableEq

def initial : State :=
  { phase := .idle, cut := .p0, head := 0, ledger := [], effects := 0, known := 0,
    intent := none, decision := .none }

def policy : PolicyCut → Input → Decision
  | _, .plain => .permit
  | _, .transform => .transform
  | .p0, .declassify => .deny
  | .p1, .declassify => .declassify
  | _, .unsupported => .unsupported
  | _, .forbidden => .deny
  | _, .unresolved => .unresolved

variable (state : State)

def offer (intent : Intent) : State :=
  { state with phase := .offered, intent := some intent }

/-- What an idle state offers about one retained result. -/
def retained (result : Entry × ℕ) : Except PyError (List (Label × State)) := do
  let key ← keyAt result.2
  return (.status (!result.1.outcome.isRefusal) key, state) ::
    inputs.flatMap fun item =>
      [Body.original, Body.changed].map fun body =>
        (.request .retry key, offer state ⟨result.2, item, body, .retry⟩)

def idle (state : State) : Except PyError (List (Label × State)) := do
  let slot := state.ledger.length
  let fresh ←
    if slot < 2 then do
      let key ← keyAt slot
      pure (inputs.map fun item =>
        (Label.request .fresh key, offer state ⟨slot, item, .original, .fresh⟩))
    else pure []
  let retries ← state.ledger.zipIdx.mapM (retained state)
  return (.restart, state) ::
    ((if state.cut = .p0 then [(.policyCutAdvance, { state with cut := .p1 })] else []) ++
      fresh ++ retries.flatten)

def entryOf (intent : Intent) : Entry :=
  { item := intent.item
    body := intent.body
    policy := if state.decision = .unresolved then none else some state.cut
    decisionHead := state.head
    resultHead := state.head + if state.decision = .unresolved then 0 else 1
    outcome := state.decision }

def record (intent : Intent) (effect : Bool) : Except PyError State := do
  refuseIf (intent.slot ≠ state.ledger.length ∨ 2 ≤ intent.slot)
    (valueError "invalid fresh identity")
  return { state with
    phase := .responding
    head := (entryOf state intent).resultHead
    ledger := state.ledger ++ [entryOf state intent]
    effects := state.effects + effect.toNat }

/-- The answers to a request whose result is retained: the result, a lost
response, or a restart. -/
def responses (idle : State) (intent : Intent) (key : Key) (outcome : Decision) :
    List (Label × State) :=
  [(.result outcome key, { idle with known := idle.known ||| (1 <<< intent.slot) }),
    (.outcomeUnknown key, idle), (.restart, idle)]

def replay (intent : Intent) (key : Key) : Except PyError (List (Label × State)) := do
  let result ← entryAt state.ledger intent.slot
  let exact := intent.item = result.item ∧ intent.body = result.body
  let currentPolicy := result.policy = none ∨ result.policy = some state.cut
  let sameHistory := state.head = result.decisionHead ∨ state.head = result.resultHead
  let idle := { state with phase := .idle, intent := none }
  if exact ∧ currentPolicy ∧ sameHistory then
    return responses idle intent key result.outcome
  else
    return [(.replayReject key, idle)]

def decide (intent : Intent) (key : Key) : Except PyError (List (Label × State)) := do
  let decided := { state with decision := policy state.cut intent.item }
  if decided.decision.isRefusal then
    return [(.decision decided.decision key, ← record decided intent false)]
  else
    let phase := if decided.decision = .permit then Phase.delivering else .decided
    return [(.decision .permit key, { decided with phase := phase })]

def successors (state : State) : Except PyError (List (Label × State)) :=
  match state.phase with
  | .idle => idle state
  | .offered => do
    let (intent, key) ← requestOf state.intent
    if intent.mode = .retry then replay state intent key else decide state intent key
  | .decided => do
    let (_, key) ← requestOf state.intent
    return [(.change state.decision key, { state with phase := .delivering })]
  | .delivering => do
    let (intent, key) ← requestOf state.intent
    return [(.delivery key, ← record state intent true)]
  | .responding => do
    let (intent, key) ← requestOf state.intent
    return responses { state with phase := .idle, intent := none, decision := .none } intent key
      state.decision

def Step (label : Label) (target : State) : Prop :=
  ∃ edges, successors state = .ok edges ∧ (label, target) ∈ edges

end Abstract
end Raes.Crossing

/-!
# The moves of the abstract crossing model

The model lists its successors.  The moves below say once what a step can be,
so that the refinement is a case analysis over them.
-/

namespace Raes.Crossing

namespace Abstract

def settled (state : State) : State :=
  { state with phase := .idle, intent := none, decision := .none }

def recorded (state : State) (intent : Intent) (effect : Bool) : State :=
  { state with
    phase := .responding
    head := (entryOf state intent).resultHead
    ledger := state.ledger ++ [entryOf state intent]
    effects := state.effects + effect.toNat }

/-- The request, its policy and a head of a retained result are those of a retry. -/
def Replayable (state : State) (intent : Intent) (result : Entry) : Prop :=
  (intent.item = result.item ∧ intent.body = result.body) ∧
    (result.policy = none ∨ result.policy = some state.cut) ∧
      (state.head = result.decisionHead ∨ state.head = result.resultHead)

/-- The attempt claims the first free slot. -/
def ClaimsFresh (state : State) (intent : Intent) : Prop :=
  intent.slot = state.ledger.length ∧ intent.slot < 2

inductive Move (s : State) : Label → State → Prop where
  | restart : s.phase = .idle → Move s .restart s
  | advance : s.phase = .idle → s.cut = .p0 → Move s .policyCutAdvance { s with cut := .p1 }
  | fresh (item : Input) : s.phase = .idle → s.ledger.length < 2 →
      Move s (.request .fresh (keyOf s.ledger.length))
        (offer s ⟨s.ledger.length, item, .original, .fresh⟩)
  | status (slot : ℕ) (entry : Entry) : s.phase = .idle → s.ledger[slot]? = some entry →
      Move s (.status (!entry.outcome.isRefusal) (keyOf slot)) s
  | retry (slot : ℕ) (entry : Entry) (item : Input) (body : Body) : s.phase = .idle →
      s.ledger[slot]? = some entry →
      Move s (.request .retry (keyOf slot)) (offer s ⟨slot, item, body, .retry⟩)
  | reject (i : Intent) (entry : Entry) : s.phase = .offered → s.intent = some i → i.slot < 2 →
      i.mode = .retry → s.ledger[i.slot]? = some entry → ¬ Replayable s i entry →
      Move s (.replayReject (keyOf i.slot)) { s with phase := .idle, intent := none }
  | replay (i : Intent) (entry : Entry) (l : Label) (t : State) : s.phase = .offered →
      s.intent = some i → i.slot < 2 → i.mode = .retry → s.ledger[i.slot]? = some entry →
      Replayable s i entry →
      (l, t) ∈ responses { s with phase := .idle, intent := none } i (keyOf i.slot) entry.outcome →
      Move s l t
  | refuse (i : Intent) : s.phase = .offered → s.intent = some i → i.mode = .fresh →
      ClaimsFresh s i → (policy s.cut i.item).isRefusal = true →
      Move s (.decision (policy s.cut i.item) (keyOf i.slot))
        (recorded { s with decision := policy s.cut i.item } i false)
  | permit (i : Intent) : s.phase = .offered → s.intent = some i → i.slot < 2 → i.mode = .fresh →
      (policy s.cut i.item).isRefusal = false →
      Move s (.decision .permit (keyOf i.slot)) { s with
        decision := policy s.cut i.item
        phase := if policy s.cut i.item = .permit then .delivering else .decided }
  | change (i : Intent) : s.phase = .decided → s.intent = some i → i.slot < 2 →
      Move s (.change s.decision (keyOf i.slot)) { s with phase := .delivering }
  | deliver (i : Intent) : s.phase = .delivering → s.intent = some i → ClaimsFresh s i →
      Move s (.delivery (keyOf i.slot)) (recorded s i true)
  | respond (i : Intent) (l : Label) (t : State) : s.phase = .responding → s.intent = some i →
      i.slot < 2 → (l, t) ∈ responses (settled s) i (keyOf i.slot) s.decision → Move s l t

theorem record_eq_ok_iff (s : State) (i : Intent) (effect : Bool) (t : State) :
    record s i effect = .ok t ↔ ClaimsFresh s i ∧ t = recorded s i effect := by
  unfold record ClaimsFresh
  rw [seq_eq_ok_iff, refuseIf_eq_ok_iff]
  simp only [not_or, not_not, Nat.not_le]
  refine and_congr_right fun _ => ?_
  constructor
  · intro h
    exact (Except.ok.inj h).symm
  · rintro rfl
    rfl

theorem mem_responses_iff (s : State) (i : Intent) (key : Key) (outcome : Decision) (l : Label)
    (t : State) :
    (l, t) ∈ responses s i key outcome ↔
      l = .result outcome key ∧ t = { s with known := s.known ||| (1 <<< i.slot) } ∨
        l = .outcomeUnknown key ∧ t = s ∨ l = .restart ∧ t = s := by
  simp [responses]

theorem idle_eq_ok {s : State} (hle : s.ledger.length ≤ 2) :
    idle s = .ok ((.restart, s) ::
      ((if s.cut = .p0 then [(.policyCutAdvance, { s with cut := .p1 })] else []) ++
        (if s.ledger.length < 2 then
          inputs.map fun item => (Label.request .fresh (keyOf s.ledger.length),
            offer s ⟨s.ledger.length, item, .original, .fresh⟩)
        else []) ++
        (s.ledger.zipIdx.map fun result =>
          (Label.status (!result.1.outcome.isRefusal) (keyOf result.2), s) ::
            inputs.flatMap fun item => [Body.original, Body.changed].map fun body =>
              (.request .retry (keyOf result.2), offer s ⟨result.2, item, body, .retry⟩)).flatten)) := by
  have hretained : ∀ result ∈ s.ledger.zipIdx, retained s result =
      .ok ((Label.status (!result.1.outcome.isRefusal) (keyOf result.2), s) ::
        inputs.flatMap fun item => [Body.original, Body.changed].map fun body =>
          (.request .retry (keyOf result.2), offer s ⟨result.2, item, body, .retry⟩)) := by
    rintro ⟨entry, slot⟩ hmem
    have hslot := slot_lt_of_getElem? hle (List.mem_zipIdx_iff_getElem?.mp hmem)
    rw [retained, keyAt_of_lt hslot]
    rfl
  unfold idle
  rw [mapM_eq_ok_map hretained]
  by_cases hlt : s.ledger.length < 2
  · simp only [if_pos hlt, keyAt_of_lt hlt]
    rfl
  · simp only [if_neg hlt]
    rfl

theorem step_idle_iff {s : State} (hle : s.ledger.length ≤ 2) (hphase : s.phase = .idle)
    (l : Label) (t : State) : Step s l t ↔ Move s l t := by
  unfold Step successors
  rw [hphase]
  simp only [idle_eq_ok hle, Except.ok.injEq, exists_eq_left', List.mem_cons, List.mem_append,
    List.mem_flatten, List.mem_map, Prod.mk.injEq]
  constructor
  · rintro (⟨rfl, rfl⟩ | ((hadvance | hfresh) | ⟨edges, ⟨⟨entry, slot⟩, hresult, rfl⟩, hedge⟩))
    · exact .restart hphase
    · by_cases hcut : s.cut = .p0
      · rw [if_pos hcut, List.mem_singleton] at hadvance
        cases hadvance
        exact .advance hphase hcut
      · rw [if_neg hcut] at hadvance
        cases hadvance
    · by_cases hlt : s.ledger.length < 2
      · rw [if_pos hlt, List.mem_map] at hfresh
        obtain ⟨item, _, h⟩ := hfresh
        cases h
        exact .fresh item hphase hlt
      · rw [if_neg hlt] at hfresh
        cases hfresh
    · have hentry := List.mem_zipIdx_iff_getElem?.mp hresult
      rw [List.mem_cons, List.mem_flatMap] at hedge
      rcases hedge with h | ⟨item, _, h⟩
      · cases h
        exact .status slot entry hphase hentry
      · obtain ⟨body, _, h⟩ := List.mem_map.mp h
        cases h
        exact .retry slot entry item body hphase hentry
  · intro hmove
    cases hmove with
    | restart => exact .inl ⟨rfl, rfl⟩
    | advance _ hcut => exact .inr (.inl (.inl (by rw [if_pos hcut]; exact List.mem_singleton_self _)))
    | fresh item _ hlt =>
      refine .inr (.inl (.inr ?_))
      rw [if_pos hlt]
      exact List.mem_map.mpr ⟨item, mem_inputs item, rfl⟩
    | status slot entry _ hentry =>
      exact .inr (.inr ⟨_, ⟨(entry, slot), List.mem_zipIdx_iff_getElem?.mpr hentry, rfl⟩,
        List.mem_cons_self⟩)
    | retry slot entry item body _ hentry =>
      refine .inr (.inr ⟨_, ⟨(entry, slot), List.mem_zipIdx_iff_getElem?.mpr hentry, rfl⟩,
        List.mem_cons_of_mem _ (List.mem_flatMap.mpr ⟨item, mem_inputs item, ?_⟩)⟩)
      exact List.mem_map.mpr ⟨body, by cases body <;> simp, rfl⟩
    | reject _ _ h | replay _ _ _ _ h | refuse _ h | permit _ h | change _ h | deliver _ h
    | respond _ _ _ h => exact absurd (hphase.symm.trans h) (by decide)

theorem mem_replay_iff (s : State) (i : Intent) (key : Key) (l : Label) (t : State) :
    (∃ edges, replay s i key = .ok edges ∧ (l, t) ∈ edges) ↔
      ∃ entry, s.ledger[i.slot]? = some entry ∧
        (Replayable s i entry ∧
            (l, t) ∈ responses { s with phase := .idle, intent := none } i key entry.outcome ∨
          ¬ Replayable s i entry ∧ l = .replayReject key ∧
            t = { s with phase := .idle, intent := none }) := by
  unfold replay
  simp only [bind_eq_ok_iff, entryAt_eq_ok_iff]
  constructor
  · rintro ⟨edges, ⟨entry, hentry, hedges⟩, hmem⟩
    refine ⟨entry, hentry, ?_⟩
    by_cases h : Replayable s i entry
    · cases hedges.symm.trans (if_pos h)
      exact .inl ⟨h, hmem⟩
    · cases hedges.symm.trans (if_neg h)
      exact .inr ⟨h, Prod.mk.inj (List.mem_singleton.mp hmem)⟩
  · rintro ⟨entry, hentry, ⟨h, hmem⟩ | ⟨h, rfl, rfl⟩⟩
    · exact ⟨_, ⟨entry, hentry, if_pos h⟩, hmem⟩
    · exact ⟨_, ⟨entry, hentry, if_neg h⟩, List.mem_singleton_self _⟩

theorem mem_decide_iff (s : State) (i : Intent) (key : Key) (l : Label) (t : State) :
    (∃ edges, decide s i key = .ok edges ∧ (l, t) ∈ edges) ↔
      ((policy s.cut i.item).isRefusal = true ∧ ClaimsFresh s i ∧
          l = .decision (policy s.cut i.item) key ∧
          t = recorded { s with decision := policy s.cut i.item } i false) ∨
        (policy s.cut i.item).isRefusal = false ∧ l = .decision .permit key ∧
          t = { s with
            decision := policy s.cut i.item
            phase := if policy s.cut i.item = .permit then .delivering else .decided } := by
  unfold decide
  cases hrefusal : (policy s.cut i.item).isRefusal with
  | true =>
    simp only [hrefusal, if_true, bind_eq_ok_iff, record_eq_ok_iff]
    constructor
    · rintro ⟨edges, ⟨_, ⟨hclaims, rfl⟩, hedges⟩, hmem⟩
      cases hedges
      exact .inl ⟨trivial, hclaims, Prod.mk.inj (List.mem_singleton.mp hmem)⟩
    · rintro (⟨-, hclaims, rfl, rfl⟩ | ⟨h, -⟩)
      · exact ⟨_, ⟨_, ⟨hclaims, rfl⟩, rfl⟩, List.mem_singleton_self _⟩
      · cases h
  | false =>
    simp only [hrefusal, Bool.false_eq_true, if_false]
    constructor
    · rintro ⟨edges, hedges, hmem⟩
      cases hedges
      exact .inr ⟨trivial, Prod.mk.inj (List.mem_singleton.mp hmem)⟩
    · rintro (⟨h, -⟩ | ⟨-, rfl, rfl⟩)
      · cases h
      · exact ⟨_, rfl, List.mem_singleton_self _⟩

theorem step_offered_iff {s : State} (hphase : s.phase = .offered) (l : Label) (t : State) :
    Step s l t ↔ Move s l t := by
  have hstep : Step s l t ↔ ∃ i, s.intent = some i ∧ i.slot < 2 ∧
      ((i.mode = .retry ∧ ∃ edges, replay s i (keyOf i.slot) = .ok edges ∧ (l, t) ∈ edges) ∨
        (i.mode = .fresh ∧ ∃ edges, decide s i (keyOf i.slot) = .ok edges ∧ (l, t) ∈ edges)) := by
    unfold Step successors
    rw [hphase]
    simp only [attempt_eq_ok_iff]
    constructor
    · rintro ⟨edges, ⟨i, hi, hslot, hedges⟩, hmem⟩
      refine ⟨i, hi, hslot, ?_⟩
      cases hmode : i.mode with
      | retry =>
        rw [if_pos hmode] at hedges
        exact .inl ⟨rfl, edges, hedges, hmem⟩
      | fresh =>
        rw [if_neg (by rw [hmode]; decide)] at hedges
        exact .inr ⟨rfl, edges, hedges, hmem⟩
    · rintro ⟨i, hi, hslot, ⟨hmode, edges, hedges, hmem⟩ | ⟨hmode, edges, hedges, hmem⟩⟩
      · exact ⟨edges, ⟨i, hi, hslot, by rw [if_pos hmode]; exact hedges⟩, hmem⟩
      · refine ⟨edges, ⟨i, hi, hslot, ?_⟩, hmem⟩
        rw [if_neg (by rw [hmode]; decide)]
        exact hedges
  rw [hstep]
  simp only [mem_replay_iff, mem_decide_iff]
  constructor
  · rintro ⟨i, hi, hslot, ⟨hmode, entry, hentry, ⟨h, hmem⟩ | ⟨h, rfl, rfl⟩⟩ |
      ⟨hmode, ⟨hrefusal, hclaims, rfl, rfl⟩ | ⟨hrefusal, rfl, rfl⟩⟩⟩
    · exact .replay i entry l t hphase hi hslot hmode hentry h hmem
    · exact .reject i entry hphase hi hslot hmode hentry h
    · exact .refuse i hphase hi hmode hclaims hrefusal
    · exact .permit i hphase hi hslot hmode hrefusal
  · intro hmove
    cases hmove with
    | reject i entry _ hi hslot hmode hentry h =>
      exact ⟨i, hi, hslot, .inl ⟨hmode, entry, hentry, .inr ⟨h, rfl, rfl⟩⟩⟩
    | replay i entry _ _ _ hi hslot hmode hentry h hmem =>
      exact ⟨i, hi, hslot, .inl ⟨hmode, entry, hentry, .inl ⟨h, hmem⟩⟩⟩
    | refuse i _ hi hmode hclaims hrefusal =>
      exact ⟨i, hi, hclaims.2, .inr ⟨hmode, .inl ⟨hrefusal, hclaims, rfl, rfl⟩⟩⟩
    | permit i _ hi hslot hmode hrefusal =>
      exact ⟨i, hi, hslot, .inr ⟨hmode, .inr ⟨hrefusal, rfl, rfl⟩⟩⟩
    | _ => exact absurd (hphase.symm.trans (by assumption)) (by decide)

theorem step_iff {s : State} (hle : s.ledger.length ≤ 2) (l : Label) (t : State) :
    Step s l t ↔ Move s l t := by
  cases hphase : s.phase with
  | idle => exact step_idle_iff hle hphase l t
  | offered => exact step_offered_iff hphase l t
  | decided =>
    unfold Step successors
    rw [hphase]
    simp only [attempt_eq_ok_iff]
    constructor
    · rintro ⟨edges, ⟨i, hi, hslot, hedges⟩, hmem⟩
      cases hedges
      obtain ⟨rfl, rfl⟩ := Prod.mk.inj (List.mem_singleton.mp hmem)
      exact .change i hphase hi hslot
    · intro hmove
      cases hmove with
      | change i _ hi hslot => exact ⟨_, ⟨i, hi, hslot, rfl⟩, List.mem_singleton_self _⟩
      | _ => exact absurd (hphase.symm.trans (by assumption)) (by decide)
  | delivering =>
    unfold Step successors
    rw [hphase]
    simp only [attempt_eq_ok_iff]
    simp only [bind_eq_ok_iff, record_eq_ok_iff]
    constructor
    · rintro ⟨edges, ⟨i, hi, -, _, ⟨hclaims, rfl⟩, hedges⟩, hmem⟩
      cases hedges
      obtain ⟨rfl, rfl⟩ := Prod.mk.inj (List.mem_singleton.mp hmem)
      exact .deliver i hphase hi hclaims
    · intro hmove
      cases hmove with
      | deliver i _ hi hclaims =>
        exact ⟨_, ⟨i, hi, hclaims.2, _, ⟨hclaims, rfl⟩, rfl⟩, List.mem_singleton_self _⟩
      | _ => exact absurd (hphase.symm.trans (by assumption)) (by decide)
  | responding =>
    unfold Step successors
    rw [hphase]
    simp only [attempt_eq_ok_iff]
    constructor
    · rintro ⟨edges, ⟨i, hi, hslot, hedges⟩, hmem⟩
      cases hedges
      exact .respond i l t hphase hi hslot hmem
    · intro hmove
      cases hmove with
      | respond i _ _ _ hi hslot hmem => exact ⟨_, ⟨i, hi, hslot, rfl⟩, hmem⟩
      | _ => exact absurd (hphase.symm.trans (by assumption)) (by decide)

theorem Move.visible {s t : State} {l : Label} (h : Move s l t) : ¬ Hidden l := by
  rw [hidden_iff]
  rintro ⟨stage, rfl⟩
  cases h with
  | replay _ _ _ _ _ _ _ _ _ _ hmem => simp [responses] at hmem
  | respond _ _ _ _ _ _ hmem => simp [responses] at hmem

end Abstract
end Raes.Crossing
