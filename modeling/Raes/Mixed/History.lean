import Mathlib.Data.List.Chain
import Raes.Mixed.Model

/-!
# The history of a composition

What the constructor of a snapshot accepts, said of each run: one chain of
events from the activation, each naming its predecessor, whose last event is
what the stored state holds.
-/

namespace Raes.Mixed

/-- An event continues another: it names it, keeps the plan and the profile, and
changes the membership only as a phase transition that counts one revision. -/
structure Follows (previous current : RuntimeEvent) : Prop where
  predecessor : current.predecessorEventId = some previous.eventId
  plan : (current.run.planId, current.run.planEntryId, current.run.profileId,
      current.run.profileDigest) =
    (previous.run.planId, previous.run.planEntryId, previous.run.profileId,
      previous.run.profileDigest)
  advances : current.eventKind = .phaseTransition →
    current.membership.phaseRevision = previous.membership.phaseRevision + 1
  keeps : current.eventKind ≠ .phaseTransition → current.membership = previous.membership

/-- A history that a snapshot may hold for a run beside its state. -/
structure RunHistory (runId : String) (state : RuntimeState) (events : List RuntimeEvent) :
    Prop where
  bounded : events.length ≤ maxCompositionHistory
  stateValid : state.check = .ok ()
  eventsValid : ∀ event ∈ events, event.check = .ok ()
  stateRun : state.run.runId = runId
  eventRuns : ∀ event ∈ events, event.run.runId = runId
  starts : ∃ first, events.head? = some first ∧ first.eventKind = .phaseActivated
  distinct : (events.map RuntimeEvent.eventId).Nodup
  chained : events.IsChain Follows
  folds : ∃ last, events.getLast? = some last ∧ StateMatchesHistory state last

theorem violation_eq_nil_iff {p : Prop} [Decidable p] {violation : String × String} :
    (if p then [violation] else []) = [] ↔ ¬ p := by
  by_cases h : p
  · simp [h]
  · simp [h]

theorem eventTransitionViolations_eq_nil_iff (runId : String) (previous current : RuntimeEvent) :
    eventTransitionViolations runId previous current = [] ↔ Follows previous current := by
  unfold eventTransitionViolations
  rw [List.append_eq_nil_iff, List.append_eq_nil_iff, violation_eq_nil_iff, violation_eq_nil_iff,
    not_not, not_not]
  by_cases hkind : current.eventKind = .phaseTransition
  · rw [if_pos hkind, violation_eq_nil_iff, not_not]
    constructor
    · rintro ⟨⟨hpredecessor, hplan⟩, hrevision⟩
      exact ⟨hpredecessor, hplan, fun _ => hrevision, fun hne => absurd hkind hne⟩
    · intro h
      exact ⟨⟨h.predecessor, h.plan⟩, h.advances hkind⟩
  · rw [if_neg hkind, violation_eq_nil_iff, not_not]
    constructor
    · rintro ⟨⟨hpredecessor, hplan⟩, hmembership⟩
      exact ⟨hpredecessor, hplan, fun heq => absurd heq hkind, fun _ => hmembership⟩
    · intro h
      exact ⟨⟨h.predecessor, h.plan⟩, h.keeps hkind⟩

theorem adjacentViolations_eq_nil_iff (runId : String) (events : List RuntimeEvent) :
    adjacentViolations runId events = [] ↔ events.IsChain Follows := by
  induction events with
  | nil => simp [adjacentViolations]
  | cons previous rest ih =>
    cases rest with
    | nil => simp [adjacentViolations]
    | cons current rest =>
      rw [adjacentViolations, List.append_eq_nil_iff, eventTransitionViolations_eq_nil_iff, ih,
        List.isChain_cons_cons]

theorem chainViolations_eq_nil_iff (runId : String) (state : RuntimeState) (first : RuntimeEvent)
    (rest : List RuntimeEvent) :
    chainViolations runId state first rest = [] ↔
      (state.run.runId = runId ∧ ∀ event ∈ first :: rest, event.run.runId = runId) ∧
        first.eventKind = .phaseActivated ∧ ((first :: rest).map RuntimeEvent.eventId).Nodup ∧
        (first :: rest).IsChain Follows := by
  unfold chainViolations
  rw [List.append_eq_nil_iff, List.append_eq_nil_iff, List.append_eq_nil_iff,
    violation_eq_nil_iff, violation_eq_nil_iff, violation_eq_nil_iff,
    adjacentViolations_eq_nil_iff, not_not, not_not]
  simp only [not_or, not_not, not_exists, not_and, ne_eq, and_assoc]

theorem runtimeModels_eq_ok_iff {states : Dict String RuntimeState} {runId : String}
    {events : List RuntimeEvent} {state : RuntimeState} :
    runtimeModels states runId events = .ok state ↔
      states.get? runId = some state ∧ state.check = .ok () ∧
        ∀ event ∈ events, event.check = .ok () := by
  unfold runtimeModels
  cases hget : states.get? runId with
  | none => simp
  | some stored =>
    simp only [seq_eq_ok_iff, forM_eq_ok_iff]
    constructor
    · rintro ⟨hstate, hevents, hsame⟩
      cases hsame
      exact ⟨rfl, hstate, hevents⟩
    · rintro ⟨hsame, hstate, hevents⟩
      cases hsame
      exact ⟨hstate, hevents, rfl⟩

theorem historyViolations_eq_nil_iff (states : Dict String RuntimeState) (runId : String)
    (events : List RuntimeEvent) :
    historyViolations states runId events = [] ↔
      ∃ state, states.get? runId = some state ∧ RunHistory runId state events := by
  cases events with
  | nil =>
    constructor
    · intro h
      cases h
    · rintro ⟨_, _, history⟩
      obtain ⟨_, hfirst, _⟩ := history.starts
      cases hfirst
  | cons first rest =>
    have hlast : (first :: rest).getLast? =
        some ((first :: rest).getLast (List.cons_ne_nil _ _)) :=
      List.getLast?_eq_getLast_of_ne_nil _
    rw [historyViolations]
    by_cases hbound : maxCompositionHistory < (first :: rest).length
    · rw [if_pos hbound]
      constructor
      · intro h
        cases h
      · rintro ⟨_, _, history⟩
        exact absurd history.bounded (by omega)
    · rw [if_neg hbound]
      constructor
      · intro h
        split at h
        · cases h
        · rename_i state hmodels
          obtain ⟨hget, hstate, hevents⟩ := runtimeModels_eq_ok_iff.mp hmodels
          rw [List.append_eq_nil_iff, chainViolations_eq_nil_iff] at h
          obtain ⟨⟨⟨hrun, hruns⟩, hfirst, hdistinct, hchain⟩, hfold⟩ := h
          refine ⟨state, hget, ?_⟩
          have hmatches : StateMatchesHistory state
              ((first :: rest).getLast (List.cons_ne_nil _ _)) := by
            by_contra hne
            rw [if_neg hne] at hfold
            cases hfold
          exact {
            bounded := by omega
            stateValid := hstate
            eventsValid := hevents
            stateRun := hrun
            eventRuns := hruns
            starts := ⟨first, rfl, hfirst⟩
            distinct := hdistinct
            chained := hchain
            folds := ⟨_, hlast, hmatches⟩ }
      · rintro ⟨state, hget, history⟩
        rw [runtimeModels_eq_ok_iff.mpr
          ⟨hget, history.stateValid, history.eventsValid⟩]
        obtain ⟨first', hhead, hkind⟩ := history.starts
        obtain ⟨last, hsome, hmatches⟩ := history.folds
        rw [hlast] at hsome
        cases hhead
        cases hsome
        show _ ++ _ = []
        rw [if_pos hmatches, List.append_nil, chainViolations_eq_nil_iff]
        exact ⟨⟨history.stateRun, history.eventRuns⟩, hkind, history.distinct, history.chained⟩

theorem snapshotViolations_eq_nil_iff {states : Dict String RuntimeState}
    {histories : Dict String (List RuntimeEvent)} :
    snapshotViolations states histories = [] ↔
      (∀ runId, runId ∈ states.keys ↔ runId ∈ histories.keys) ∧
        ∀ runId events, histories.get? runId = some events →
          ∃ state, states.get? runId = some state ∧ RunHistory runId state events := by
  unfold snapshotViolations
  rw [List.append_eq_nil_iff, List.flatMap_eq_nil_iff]
  have hkeys : ((∀ runId ∈ states.keys, runId ∈ histories.keys) ∧
      ∀ runId ∈ histories.keys, runId ∈ states.keys) ↔
      ∀ runId, runId ∈ states.keys ↔ runId ∈ histories.keys := by
    constructor
    · rintro ⟨hleft, hright⟩ runId
      exact ⟨hleft runId, hright runId⟩
    · intro h
      exact ⟨fun runId => (h runId).mp, fun runId => (h runId).mpr⟩
  have hentries : (∀ entry ∈ histories.entries, historyViolations states entry.1 entry.2 = []) ↔
      ∀ runId events, histories.get? runId = some events →
        ∃ state, states.get? runId = some state ∧ RunHistory runId state events := by
    constructor
    · intro h runId events hget
      rw [← historyViolations_eq_nil_iff]
      exact h (runId, events) (Dict.get?_eq_some_iff.mp hget)
    · rintro h ⟨runId, events⟩ hmem
      rw [historyViolations_eq_nil_iff]
      exact h runId events (Dict.get?_eq_some_iff.mpr hmem)
  rw [hentries, ← hkeys]
  by_cases h : (∀ runId ∈ states.keys, runId ∈ histories.keys) ∧
      ∀ runId ∈ histories.keys, runId ∈ states.keys
  · rw [if_pos h]
    constructor
    · rintro ⟨_, hruns⟩
      exact ⟨h, hruns⟩
    · rintro ⟨_, hruns⟩
      exact ⟨rfl, hruns⟩
  · rw [if_neg h]
    simp only [h, false_and, List.cons_ne_nil]

variable (snapshot : RuntimeSnapshot)

theorem RuntimeSnapshot.runHistory {runId : String}
    {events : List RuntimeEvent} (h : snapshot.histories.get? runId = some events) :
    ∃ state, snapshot.states.get? runId = some state ∧ RunHistory runId state events :=
  (snapshotViolations_eq_nil_iff.mp snapshot.accepted).2 runId events h

theorem RuntimeSnapshot.exists_history {runId : String}
    {state : RuntimeState} (h : snapshot.states.get? runId = some state) :
    ∃ events, snapshot.histories.get? runId = some events ∧ RunHistory runId state events := by
  have hkey : runId ∈ snapshot.histories.keys :=
    ((snapshotViolations_eq_nil_iff.mp snapshot.accepted).1 runId).mp
      (Dict.mem_keys_iff.mpr ⟨state, h⟩)
  obtain ⟨events, hevents⟩ := Dict.mem_keys_iff.mp hkey
  obtain ⟨state', hstate, history⟩ := snapshot.runHistory hevents
  rw [h] at hstate
  cases hstate
  exact ⟨events, hevents, history⟩

/-- A snapshot whose composition of one run is replaced is accepted when the new
history is one of the run. -/
theorem snapshotViolations_set_eq_nil_iff (runId : String)
    (state : RuntimeState) (events : List RuntimeEvent) :
    snapshotViolations (snapshot.states.set runId state) (snapshot.histories.set runId events) = [] ↔
      RunHistory runId state events := by
  obtain ⟨hkeys, hruns⟩ := snapshotViolations_eq_nil_iff.mp snapshot.accepted
  rw [snapshotViolations_eq_nil_iff]
  constructor
  · rintro ⟨_, h⟩
    obtain ⟨state', hstate, history⟩ := h runId events (Dict.get?_set_self _ _ _)
    rw [Dict.get?_set_self] at hstate
    cases hstate
    exact history
  · intro history
    constructor
    · intro other
      rw [Dict.mem_keys_set, Dict.mem_keys_set, hkeys other]
    · intro other events' hget
      by_cases hother : other = runId
      · subst hother
        rw [Dict.get?_set_self] at hget
        cases hget
        exact ⟨state, Dict.get?_set_self _ _ _, history⟩
      · rw [Dict.get?_set_ne _ _ hother] at hget
        rw [Dict.get?_set_ne _ _ hother]
        exact hruns other events' hget

theorem RunHistory.append_iff {runId : String} {state next : RuntimeState}
    {events added : List RuntimeEvent} (history : RunHistory runId state events)
    {last final : RuntimeEvent} (hlast : events.getLast? = some last)
    (hfinal : added.getLast? = some final)
    (hruns : ∀ event ∈ added, event.run.runId = runId) (hrun : next.run.runId = runId)
    (hdistinct : ((events ++ added).map RuntimeEvent.eventId).Nodup)
    (hchain : added.IsChain Follows) (hfollows : ∀ event ∈ added.head?, Follows last event)
    (hfolds : StateMatchesHistory next final) :
    RunHistory runId next (events ++ added) ↔
      events.length + added.length ≤ maxCompositionHistory ∧ next.check = .ok () ∧
        ∀ event ∈ added, event.check = .ok () := by
  constructor
  · intro h
    have hbounded := h.bounded
    rw [List.length_append] at hbounded
    exact ⟨hbounded, h.stateValid,
      fun event hmem => h.eventsValid event (List.mem_append_right events hmem)⟩
  · rintro ⟨hbounded, hvalid, hadded⟩
    obtain ⟨first, hfirst, hkind⟩ := history.starts
    exact {
      bounded := by rw [List.length_append]; exact hbounded
      stateValid := hvalid
      eventsValid := fun event hmem =>
        (List.mem_append.mp hmem).elim (history.eventsValid event) (hadded event)
      stateRun := hrun
      eventRuns := fun event hmem =>
        (List.mem_append.mp hmem).elim (history.eventRuns event) (hruns event)
      starts := ⟨first, by rw [List.head?_append, hfirst]; rfl, hkind⟩
      distinct := hdistinct
      chained := by
        refine history.chained.append hchain ?_
        rintro x hx
        rw [hlast] at hx
        cases hx
        exact hfollows
      folds := ⟨final, by rw [List.getLast?_append, hfinal]; rfl, hfolds⟩ }

end Raes.Mixed
