import Raes.Outcome.History
import Mathlib.Data.List.Pairwise

/-!
# Outcome histories replay for ever

What `requireOutcomeHistory` accepts, said without its loops: every report of a
participant replays and succeeds the last report of its outcome before it, and
no two reports share an event identity.  Appending a produced report, growing
the behaviour history and cutting the reports short each keep that.
-/

namespace Raes.Outcome

open PyError

variable {contracts : Contracts} {participant : String} {history : List Json}

/-! ## One participant -/

/-- A report that can be computed again from the behaviour history of its
participant. -/
structure Replays (contracts : Contracts) (participant : String) (history : List Json)
    (report : OutcomeReport) : Prop where
  admitted : reportModel contracts report = .ok report
  participant_eq : report.participantAddress = participant
  replay : requireReportReplay contracts report history = .ok ()

/-- A report that may follow the reports before it. -/
def Succeeds (reports : List OutcomeReport) (report : OutcomeReport) : Prop :=
  requireOutcomePredecessor report (lastReport reports report.key) = .ok ()

/-- The reports of one participant that replay one after the other. -/
inductive Replayed (contracts : Contracts) (participant : String) (history : List Json) :
    List OutcomeReport → Prop where
  | nil : Replayed contracts participant history []
  | snoc {reports : List OutcomeReport} {report : OutcomeReport}
      (before : Replayed contracts participant history reports)
      (replays : Replays contracts participant history report)
      (succeeds : Succeeds reports report) :
      Replayed contracts participant history (reports ++ [report])

theorem lastReport_snoc (reports : List OutcomeReport) (report : OutcomeReport)
    (key : String × String) :
    lastReport (reports ++ [report]) key =
      if key = report.key then some report else lastReport reports key := by
  unfold lastReport
  rw [List.filter_append]
  by_cases h : key = report.key
  · simp [h]
  · have hne : report.key ≠ key := fun heq => h heq.symm
    simp [h, hne]

theorem requireStoredReport_eq_ok_iff
    (state after : List String × Dict (String × String) OutcomeReport) (report : OutcomeReport) :
    requireStoredReport contracts participant history state report = .ok after ↔
      Replays contracts participant history report ∧ report.eventId ∉ state.1 ∧
        requireOutcomePredecessor report (state.2.get? report.key) = .ok () ∧
        after = (report.eventId :: state.1, state.2.set report.key report) := by
  unfold requireStoredReport
  rw [bind_eq_ok_iff]
  constructor
  · rintro ⟨read, hread, h⟩
    have hread := rewordError_eq_ok_iff.mp hread
    obtain rfl := reportModel_eq_ok hread
    obtain ⟨hidentity, h⟩ := seq_eq_ok_iff.mp h
    rw [refuseIf_eq_ok_iff, not_or, not_not] at hidentity
    obtain ⟨hpredecessor, h⟩ := seq_eq_ok_iff.mp h
    obtain ⟨hreplay, h⟩ := seq_eq_ok_iff.mp h
    exact ⟨⟨hread, hidentity.1, hreplay⟩, hidentity.2, hpredecessor, (Except.ok.inj h).symm⟩
  · rintro ⟨⟨hread, hparticipant, hreplay⟩, hfresh, hpredecessor, rfl⟩
    refine ⟨report, rewordError_eq_ok_iff.mpr hread, ?_⟩
    refine seq_eq_ok_iff.mpr ⟨?_, ?_⟩
    · rw [refuseIf_eq_ok_iff, not_or, not_not]
      exact ⟨hparticipant, hfresh⟩
    · rw [hpredecessor, hreplay]
      rfl

variable {reports : List OutcomeReport} {seen : List String}

/-- What the inner loop has accepted: the reports replay, their identities are
new, and the heads are the last reports. -/
theorem replayed_of_foldlM {after : List String × Dict (String × String) OutcomeReport}
    (hseen : seen.Nodup)
    (h : reports.foldlM (requireStoredReport contracts participant history) (seen, Dict.empty) =
      .ok after) : Replayed contracts participant history reports ∧
      after.1 = (reports.map (·.eventId)).reverse ++ seen ∧ after.1.Nodup ∧
      ∀ key, after.2.get? key = lastReport reports key := by
  induction reports using List.reverseRecOn generalizing after with
  | nil =>
    obtain rfl : (seen, Dict.empty) = after := Except.ok.inj h
    exact ⟨.nil, rfl, hseen, fun key => rfl⟩
  | append_singleton reports report ih =>
    rw [List.foldlM_append, bind_eq_ok_iff] at h
    obtain ⟨middle, hmiddle, h⟩ := h
    rw [List.foldlM_cons, bind_eq_ok_iff] at h
    obtain ⟨last, hlast, h⟩ := h
    obtain rfl : last = after := Except.ok.inj h
    obtain ⟨hreplayed, hids, hnodup, hheads⟩ := ih hmiddle
    obtain ⟨hreplays, hfresh, hpredecessor, rfl⟩ := (requireStoredReport_eq_ok_iff _ _ _).mp hlast
    rw [hheads] at hpredecessor
    refine ⟨.snoc hreplayed hreplays hpredecessor, ?_, List.nodup_cons.mpr ⟨hfresh, hnodup⟩, ?_⟩
    · simp [hids]
    · intro key
      rw [Dict.get?_set, lastReport_snoc, hheads]

theorem foldlM_of_replayed (h : Replayed contracts participant history reports)
    (hnodup : ((reports.map (·.eventId)).reverse ++ seen).Nodup) :
    ∃ after, reports.foldlM (requireStoredReport contracts participant history)
      (seen, Dict.empty) = .ok after := by
  induction h with
  | nil => exact ⟨_, rfl⟩
  | @snoc reports report before replays succeeds ih =>
    rw [List.map_append, List.reverse_append, List.append_assoc] at hnodup
    obtain ⟨hfresh, hrest⟩ := List.nodup_cons.mp hnodup
    change report.eventId ∉ (reports.map (·.eventId)).reverse ++ seen at hfresh
    change ((reports.map (·.eventId)).reverse ++ seen).Nodup at hrest
    obtain ⟨middle, hmiddle⟩ := ih hrest
    obtain ⟨-, hids, -, hheads⟩ := replayed_of_foldlM (List.Nodup.of_append_right hrest) hmiddle
    rw [← hids] at hfresh
    have hstep := (requireStoredReport_eq_ok_iff middle _ report).mpr
      ⟨replays, hfresh, by rw [hheads]; exact succeeds, rfl⟩
    refine ⟨(report.eventId :: middle.1, middle.2.set report.key report), ?_⟩
    rw [List.foldlM_append, hmiddle]
    show (requireStoredReport contracts participant history middle report >>= pure) = _
    rw [hstep]
    rfl

/-! ## All participants -/

def eventIds (entries : List (String × List OutcomeReport)) : List String :=
  entries.flatMap fun entry => entry.2.map (·.eventId)

theorem foldlM_requireParticipantReports_eq_ok_iff (behavior : Dict String (List Json))
    (entries : List (String × List OutcomeReport)) (hseen : seen.Nodup) (after : List String) :
    entries.foldlM (requireParticipantReports contracts behavior) seen = .ok after ↔
      (∀ entry ∈ entries,
        Replayed contracts entry.1 ((behavior.get? entry.1).getD []) entry.2) ∧
      after = (eventIds entries).reverse ++ seen ∧ after.Nodup := by
  induction entries generalizing seen with
  | nil =>
    constructor
    · intro h
      obtain rfl : seen = after := Except.ok.inj h
      exact ⟨fun entry hentry => absurd hentry List.not_mem_nil, rfl, hseen⟩
    · rintro ⟨-, rfl, -⟩
      rfl
  | cons entry rest ih =>
    have hids : (eventIds (entry :: rest)).reverse ++ seen =
        (eventIds rest).reverse ++ ((entry.2.map (·.eventId)).reverse ++ seen) := by
      rw [eventIds, List.flatMap_cons, List.reverse_append, List.append_assoc]
      rfl
    rw [List.foldlM_cons, bind_eq_ok_iff, List.forall_mem_cons, hids]
    constructor
    · rintro ⟨middle, hmiddle, h⟩
      unfold requireParticipantReports at hmiddle
      obtain ⟨state, hstate, hmiddle⟩ := bind_eq_ok_iff.mp hmiddle
      obtain rfl : state.1 = middle := Except.ok.inj hmiddle
      obtain ⟨hreplayed, hseen', hnodup, -⟩ := replayed_of_foldlM hseen hstate
      obtain ⟨hrest, hafter, hall⟩ := (ih hnodup).mp h
      rw [hseen'] at hafter
      exact ⟨⟨hreplayed, hrest⟩, hafter, hall⟩
    · rintro ⟨⟨hreplayed, hrest⟩, hafter, hall⟩
      have hnodup : ((entry.2.map (·.eventId)).reverse ++ seen).Nodup :=
        List.Nodup.of_append_right (hafter ▸ hall)
      obtain ⟨state, hstate⟩ := foldlM_of_replayed hreplayed hnodup
      obtain ⟨-, hseen', hnodup', -⟩ := replayed_of_foldlM hseen hstate
      refine ⟨state.1, ?_, (ih hnodup').mpr ⟨hrest, ?_, hall⟩⟩
      · unfold requireParticipantReports
        rw [hstate]
        rfl
      · rw [hafter, hseen']

structure UniqueIds (reports : Dict String (List OutcomeReport)) : Prop where
  within : ∀ participant mine, reports.get? participant = some mine →
    (mine.map (·.eventId)).Nodup
  across : ∀ participant other mine theirs, participant ≠ other →
    reports.get? participant = some mine → reports.get? other = some theirs →
    List.Disjoint (mine.map (·.eventId)) (theirs.map (·.eventId))

theorem eventIds_nodup_iff {reports : Dict String (List OutcomeReport)} :
    (eventIds reports.entries).Nodup ↔ UniqueIds reports := by
  rw [eventIds, List.nodup_flatMap]
  constructor
  · rintro ⟨hwithin, hacross⟩
    constructor
    · intro participant mine hmine
      exact hwithin _ (Dict.get?_eq_some_iff.mp hmine)
    · intro participant other mine theirs hne hmine htheirs
      have hsymm : Std.Symm (Function.onFun List.Disjoint
          fun entry : String × List OutcomeReport => entry.2.map (·.eventId)) :=
        ⟨fun a b hab => hab.symm⟩
      exact hacross.forall (Dict.get?_eq_some_iff.mp hmine)
        (Dict.get?_eq_some_iff.mp htheirs) fun heq => hne (congrArg Prod.fst heq)
  · rintro ⟨hwithin, hacross⟩
    constructor
    · rintro ⟨participant, mine⟩ hmem
      exact hwithin participant mine (Dict.get?_eq_some_iff.mpr hmem)
    · have hkeys : reports.entries.Pairwise fun a b => a.1 ≠ b.1 := List.pairwise_map.mp reports.nodup
      refine hkeys.imp_of_mem ?_
      rintro ⟨participant, mine⟩ ⟨other, theirs⟩ hmine htheirs hne
      exact hacross participant other mine theirs hne (Dict.get?_eq_some_iff.mpr hmine)
        (Dict.get?_eq_some_iff.mpr htheirs)

structure AcceptedHistory (contracts : Contracts) (reports : Dict String (List OutcomeReport))
    (behavior : Dict String (List Json)) : Prop where
  replayed : ∀ participant mine, reports.get? participant = some mine →
    Replayed contracts participant ((behavior.get? participant).getD []) mine
  uniqueIds : UniqueIds reports

theorem requireOutcomeHistory_eq_ok_iff (reports : Dict String (List OutcomeReport))
    (behavior : Dict String (List Json)) :
    requireOutcomeHistory contracts reports behavior = .ok () ↔
      AcceptedHistory contracts reports behavior := by
  unfold requireOutcomeHistory
  rw [bind_eq_ok_iff]
  constructor
  · rintro ⟨after, hafter, -⟩
    obtain ⟨hreplayed, hids, hnodup⟩ :=
      (foldlM_requireParticipantReports_eq_ok_iff _ _ List.nodup_nil _).mp hafter
    rw [hids, List.append_nil, List.nodup_reverse] at hnodup
    exact ⟨fun participant mine hmine =>
      hreplayed _ (Dict.get?_eq_some_iff.mp hmine), eventIds_nodup_iff.mp hnodup⟩
  · rintro ⟨hreplayed, hunique⟩
    refine ⟨_, (foldlM_requireParticipantReports_eq_ok_iff _ _ List.nodup_nil _).mpr
      ⟨?_, rfl, ?_⟩, rfl⟩
    · rintro ⟨participant, mine⟩ hmem
      exact hreplayed participant mine (Dict.get?_eq_some_iff.mpr hmem)
    · rw [List.append_nil, List.nodup_reverse]
      exact eventIds_nodup_iff.mpr hunique

/-! ## Growth and cutting -/

theorem requireReportReplay_grow {report : OutcomeReport} {following : List Json}
    (hgrow : history <+: following)
    (h : requireReportReplay contracts report history = .ok ()) :
    requireReportReplay contracts report following = .ok () := by
  have hlength : (history.take report.behaviorHistoryLength).length =
      report.behaviorHistoryLength := by
    unfold requireReportReplay at h
    obtain ⟨hcut, -⟩ := seq_eq_ok_iff.mp h
    obtain ⟨hlength, -⟩ := seq_eq_ok_iff.mp hcut
    simpa using hlength
  have htake : following.take report.behaviorHistoryLength =
      history.take report.behaviorHistoryLength := by
    obtain ⟨later, rfl⟩ := hgrow
    rw [List.length_take] at hlength
    exact List.take_append_of_le_length (by omega)
  unfold requireReportReplay at h ⊢
  rwa [htake]

theorem Replayed.grow {following : List Json}
    (h : Replayed contracts participant history reports) (hgrow : history <+: following) :
    Replayed contracts participant following reports := by
  induction h with
  | nil => exact .nil
  | snoc _ replays succeeds ih =>
    exact .snoc ih ⟨replays.admitted, replays.participant_eq,
      requireReportReplay_grow hgrow replays.replay⟩ succeeds

theorem Replayed.take {reports before : List OutcomeReport}
    (h : Replayed contracts participant history reports) (hbefore : before <+: reports) :
    Replayed contracts participant history before := by
  induction h with
  | nil =>
    obtain rfl := List.prefix_nil.mp hbefore
    exact .nil
  | snoc earlier replays succeeds ih =>
    rcases List.prefix_concat_iff.mp hbefore with heq | hcut
    · rw [heq]
      exact .snoc earlier replays succeeds
    · exact ih hcut

theorem AcceptedHistory.take {reports before : Dict String (List OutcomeReport)}
    {behavior : Dict String (List Json)} (h : AcceptedHistory contracts reports behavior)
    (hbefore : ∀ participant mine, before.get? participant = some mine →
      mine <+: (reports.get? participant).getD []) :
    AcceptedHistory contracts before behavior := by
  have hwhole : ∀ participant mine, before.get? participant = some mine →
      mine = [] ∨ ∃ all, reports.get? participant = some all ∧ mine <+: all := by
    intro participant mine hmine
    have hcut := hbefore participant mine hmine
    cases hall : reports.get? participant with
    | none =>
      rw [hall] at hcut
      exact .inl (List.prefix_nil.mp hcut)
    | some all =>
      rw [hall] at hcut
      exact .inr ⟨all, rfl, hcut⟩
  refine ⟨fun participant mine hmine => ?_, fun participant mine hmine => ?_, ?_⟩
  · rcases hwhole participant mine hmine with rfl | ⟨all, hall, hcut⟩
    · exact .nil
    · exact (h.replayed participant all hall).take hcut
  · rcases hwhole participant mine hmine with rfl | ⟨all, hall, hcut⟩
    · exact List.nodup_nil
    · exact (h.uniqueIds.within participant all hall).sublist (hcut.sublist.map _)
  · intro participant other mine theirs hne hmine htheirs
    rcases hwhole participant mine hmine with rfl | ⟨all, hall, hcut⟩
    · exact List.disjoint_nil_left _
    · rcases hwhole other theirs htheirs with rfl | ⟨all', hall', hcut'⟩
      · exact List.disjoint_nil_right _
      · have hdisjoint := h.uniqueIds.across participant other all all' hne hall hall'
        exact fun id hmine' htheirs' => hdisjoint ((hcut.sublist.map _).subset hmine')
          ((hcut'.sublist.map _).subset htheirs')

/-! ## Production -/

theorem outcomeHead_eq_ok {snapshot : Snapshot} {episode outcome : String}
    {previous : Option OutcomeReport}
    (h : outcomeHead contracts snapshot participant episode outcome = .ok previous) :
    previous = lastReport ((snapshot.outcomeHistory.get? participant).getD [])
      (episode, outcome) := by
  unfold outcomeHead at h
  cases hlast : lastReport ((snapshot.outcomeHistory.get? participant).getD [])
      (episode, outcome) with
  | none =>
    rw [hlast] at h
    exact (Except.ok.inj h).symm
  | some raw =>
    rw [hlast] at h
    change (reportModel contracts raw).map some = .ok previous at h
    cases hread : reportModel contracts raw with
    | error e =>
      rw [hread] at h
      exact absurd h (by simp [Except.map])
    | ok read =>
      rw [hread] at h
      rw [← reportModel_eq_ok hread]
      exact (Except.ok.inj h).symm

/-- What the producer returns replays from the history it was computed from, and
succeeds the last report of its outcome. -/
theorem produceParticipantOutcome_eq_ok {snapshot : Snapshot} {rule : OutcomeRuleRuntime}
    {request : OutcomeUpdateRequest} {timestamp actorRef authorizationScope : String}
    {report : OutcomeReport}
    (h : produceParticipantOutcome contracts snapshot rule request timestamp actorRef
      authorizationScope = .ok report) :
    report.eventId = request.eventId ∧
      Replays contracts request.participantAddress
        ((snapshot.behaviorHistory.get? request.participantAddress).getD []) report ∧
      Succeeds ((snapshot.outcomeHistory.get? request.participantAddress).getD []) report := by
  unfold produceParticipantOutcome at h
  obtain ⟨-, h⟩ := seq_eq_ok_iff.mp h
  obtain ⟨⟨spec, outcome⟩, -, h⟩ := bind_eq_ok_iff.mp h
  obtain ⟨previous, hprevious, h⟩ := bind_eq_ok_iff.mp h
  obtain ⟨-, h⟩ := seq_eq_ok_iff.mp h
  obtain ⟨observations, hobservations, h⟩ := bind_eq_ok_iff.mp h
  obtain ⟨⟨attainment, knowledge, evidence⟩, hprojected, h⟩ := bind_eq_ok_iff.mp h
  obtain ⟨ruleDigest, hruleDigest, h⟩ := bind_eq_ok_iff.mp h
  obtain ⟨historyDigest, hhistoryDigest, h⟩ := bind_eq_ok_iff.mp h
  obtain ⟨read, hread, h⟩ := bind_eq_ok_iff.mp h
  obtain ⟨hpredecessor, h⟩ := seq_eq_ok_iff.mp h
  obtain rfl : read = report := Except.ok.inj h
  have hfields := reportModel_eq_ok hread
  subst hfields
  refine ⟨rfl, ⟨hread, rfl, ?_⟩, ?_⟩
  · unfold requireReportReplay requireCut
    simp only [List.take_length, hhistoryDigest, hruleDigest, hobservations]
    simp [refuseIf, bind, Except.bind, hprojected]
  · show requireOutcomePredecessor _
      (lastReport _ (request.episodeId, request.outcomeId)) = _
    rw [← outcomeHead_eq_ok hprevious]
    exact hpredecessor

theorem AcceptedHistory.append {reports : Dict String (List OutcomeReport)}
    {behavior : Dict String (List Json)} {report : OutcomeReport}
    (h : AcceptedHistory contracts reports behavior)
    (hfresh : ∀ other mine, reports.get? other = some mine →
      report.eventId ∉ mine.map (·.eventId))
    (hreplays : Replays contracts participant ((behavior.get? participant).getD []) report)
    (hsucceeds : Succeeds ((reports.get? participant).getD []) report) :
    AcceptedHistory contracts
      (reports.set participant ((reports.get? participant).getD [] ++ [report])) behavior := by
  have hold : Replayed contracts participant ((behavior.get? participant).getD [])
        ((reports.get? participant).getD []) ∧
      (((reports.get? participant).getD []).map (·.eventId)).Nodup ∧
      report.eventId ∉ ((reports.get? participant).getD []).map (·.eventId) ∧
      ∀ other theirs, participant ≠ other → reports.get? other = some theirs →
        List.Disjoint (((reports.get? participant).getD []).map (·.eventId))
          (theirs.map (·.eventId)) := by
    cases hmine : reports.get? participant with
    | none => exact ⟨.nil, List.nodup_nil, List.not_mem_nil, fun _ _ _ _ => List.disjoint_nil_left _⟩
    | some mine =>
      exact ⟨h.replayed participant mine hmine, h.uniqueIds.within participant mine hmine,
        hfresh participant mine hmine, fun other theirs hne htheirs =>
          h.uniqueIds.across participant other mine theirs hne hmine htheirs⟩
  obtain ⟨hreplayed, hnodup, hnew, hacross⟩ := hold
  have hdisjoint : ∀ other theirs, participant ≠ other → reports.get? other = some theirs →
      List.Disjoint (((reports.get? participant).getD [] ++ [report]).map (·.eventId))
        (theirs.map (·.eventId)) := by
    intro other theirs hne htheirs
    rw [List.map_append]
    exact List.disjoint_append_left.mpr ⟨hacross other theirs hne htheirs,
      List.singleton_disjoint.mpr (hfresh other theirs htheirs)⟩
  refine ⟨fun other mine hmine => ?_, fun other mine hmine => ?_, ?_⟩
  · rw [Dict.get?_set] at hmine
    split at hmine
    · rename_i heq
      obtain rfl := Option.some.inj hmine
      rw [heq]
      exact .snoc hreplayed hreplays hsucceeds
    · exact h.replayed other mine hmine
  · rw [Dict.get?_set] at hmine
    split at hmine
    · obtain rfl := Option.some.inj hmine
      rw [List.map_append]
      exact hnodup.append (List.nodup_singleton _) (List.disjoint_singleton.mpr hnew)
    · exact h.uniqueIds.within other mine hmine
  · intro one other mine theirs hne hmine htheirs
    rw [Dict.get?_set] at hmine htheirs
    split at hmine
    · rename_i hone
      rw [if_neg fun heq => hne (hone.trans heq.symm)] at htheirs
      obtain rfl := Option.some.inj hmine
      exact hdisjoint other theirs (fun heq => hne (hone.trans heq)) htheirs
    · rename_i hone
      split at htheirs
      · obtain rfl := Option.some.inj htheirs
        exact (hdisjoint one mine (fun heq => hone heq.symm) hmine).symm
      · exact h.uniqueIds.across one other mine theirs hne hmine htheirs

/-- A produced report under a new event identity may be appended to its
participant's history; an accepted history stays accepted while the behaviour
history grows, and each of its prefixes is accepted; and neither the order of
the observations nor that of the criteria changes a projection. -/
theorem outcomeHistory_replays (contracts : Contracts) :
    (∀ (snapshot : Snapshot) (rule : OutcomeRuleRuntime) (request : OutcomeUpdateRequest)
        (timestamp actorRef authorizationScope : String) (report : OutcomeReport),
      requireOutcomeHistory contracts snapshot.outcomeHistory snapshot.behaviorHistory = .ok () →
      (∀ participant mine, snapshot.outcomeHistory.get? participant = some mine →
        request.eventId ∉ mine.map (·.eventId)) →
      produceParticipantOutcome contracts snapshot rule request timestamp actorRef
        authorizationScope = .ok report →
      requireOutcomeHistory contracts
        (snapshot.outcomeHistory.set request.participantAddress
          ((snapshot.outcomeHistory.get? request.participantAddress).getD [] ++ [report]))
        snapshot.behaviorHistory = .ok ()) ∧
    (∀ (reports : Dict String (List OutcomeReport)) (behavior following : Dict String (List Json)),
      requireOutcomeHistory contracts reports behavior = .ok () →
      (∀ participant, (behavior.get? participant).getD [] <+:
        (following.get? participant).getD []) →
      requireOutcomeHistory contracts reports following = .ok ()) ∧
    (∀ (reports before : Dict String (List OutcomeReport)) (behavior : Dict String (List Json)),
      requireOutcomeHistory contracts reports behavior = .ok () →
      (∀ participant mine, before.get? participant = some mine →
        mine <+: (reports.get? participant).getD []) →
      requireOutcomeHistory contracts before behavior = .ok ()) ∧
    (∀ (rule reordered : OutcomeInterpretationRule) (outcome outcome' : LocalOutcomeDefinition)
        (observations others : List OutcomeObservation) (excluded : List String),
      reordered.sourceBindings = rule.sourceBindings →
      rule.localOutcome = some outcome → reordered.localOutcome = some outcome' →
      outcome.criteria.Perm outcome'.criteria → observations.Perm others →
      outcomeProjection rule observations excluded =
        outcomeProjection reordered others excluded) := by
  refine ⟨?_, ?_, ?_, ?_⟩
  · intro snapshot rule request timestamp actorRef authorizationScope report haccepted hfresh hreport
    rw [requireOutcomeHistory_eq_ok_iff] at haccepted ⊢
    obtain ⟨hid, hreplays, hsucceeds⟩ := produceParticipantOutcome_eq_ok hreport
    rw [← hid] at hfresh
    exact haccepted.append hfresh hreplays hsucceeds
  · intro reports behavior following haccepted hgrow
    rw [requireOutcomeHistory_eq_ok_iff] at haccepted ⊢
    exact ⟨fun participant mine hmine =>
      (haccepted.replayed participant mine hmine).grow (hgrow participant), haccepted.uniqueIds⟩
  · intro reports before behavior haccepted hbefore
    rw [requireOutcomeHistory_eq_ok_iff] at haccepted ⊢
    exact haccepted.take hbefore
  · intro rule reordered outcome outcome' observations others excluded hsources hlocal hlocal'
      hcriteria hperm
    exact outcomeProjection_perm hsources hlocal hlocal' hcriteria hperm excluded

def scanRule : OutcomeInterpretationRule where
  sourceBindings := [⟨"scan", .participantActionOutcome, "scan", ["proof"]⟩]
  localOutcome := some
    { category := .taskCompletion
      criteria := [⟨"found", "scan", "host-found"⟩]
      nonempty := List.cons_ne_nil _ _
      uniqueIdentities := List.nodup_singleton _
      uniqueBindings := List.nodup_singleton _ }
  content := .str "rule"
  uniqueSources := List.nodup_singleton _
  declared := by
    intro outcome houtcome criterion hcriterion
    obtain rfl := Option.some.inj houtcome
    obtain rfl := List.mem_singleton.mp hcriterion
    exact ⟨_, List.mem_singleton_self _, rfl, rfl⟩

/-- Models that read one scan in every event and hash by kind. -/
def scanContracts : Contracts where
  ruleModel _ := .ok scanRule
  ruleDump rule := rule.content
  eventModel raw := .ok
    { actionInstanceId := "scan-1"
      actionContractAddress := some "participant.action-contract.scan"
      actionResult := some ⟨.succeeded, "participant.red", "episode-1", "scan-1",
        "participant.action-contract.scan", "point-1",
        [⟨"host-found", .intendedEffect, ["proof"]⟩]⟩
      content := raw }
  eventDump event := event.content
  canonicalDigest
    | .arr _ => .ok "sha256:a"
    | .obj _ => .ok "sha256:b"
    | _ => .ok "sha256:c"
  reportFields report :=
    refuseIf (report.eventId = "" ∨ report.occurredAt = "") (valueError "report fields")

def scanEvent : Json :=
  .obj [("event_type", .str "observation_emitted"), ("participant_address", .str "participant.red"),
    ("episode_id", .str "episode-1")]

def scanSnapshot : Snapshot where
  episodeResults := Dict.empty.set "participant.red"
    (.obj [("participant_address", .str "participant.red"), ("episode_id", .str "episode-1"),
      ("status", .str "running")])
  behaviorHistory := Dict.empty.set "participant.red" [scanEvent]
  outcomeHistory := Dict.empty

def scanRequest : OutcomeUpdateRequest :=
  ⟨"participant.red", "episode-1", "goal", "event-1", 0, [], none⟩

theorem outcomeHistory_replays_scan :
    ∃ report, produceParticipantOutcome scanContracts scanSnapshot ⟨"rule.scan", .null⟩ scanRequest
        "2026-01-01T00:00:00Z" "operator" "role:operator" = .ok report ∧
      requireOutcomeHistory scanContracts
        (scanSnapshot.outcomeHistory.set scanRequest.participantAddress
          ((scanSnapshot.outcomeHistory.get? scanRequest.participantAddress).getD [] ++ [report]))
        scanSnapshot.behaviorHistory = .ok () := by
  obtain ⟨report, hreport⟩ : ∃ report, produceParticipantOutcome scanContracts scanSnapshot
      ⟨"rule.scan", .null⟩ scanRequest "2026-01-01T00:00:00Z" "operator" "role:operator" =
      .ok report := exists_ok_of_toBool (by decide +kernel)
  have hnone : ∀ participant mine, scanSnapshot.outcomeHistory.get? participant = some mine →
      scanRequest.eventId ∉ mine.map (·.eventId) := fun participant mine hmine => (nomatch hmine)
  exact ⟨report, hreport, (outcomeHistory_replays scanContracts).1 scanSnapshot _ scanRequest _ _ _
    report rfl hnone hreport⟩

end Raes.Outcome
