import Raes.FlowControl.Obligations

/-!
# Release lineages

A sink decision lists the releases that lead to its label.  The list is read twice:
the field check wants the ids in sorted order (`_require_canonical_refs`), and the
check of the decision wants the releases in the order of their labels
(`_validate_decision_release_lineage`).  Both are met exactly by the lineages whose
ids increase along the lineage.
-/

namespace Raes.FlowControl

open PyError

/-- The two checks of the release list of a decision: of the field, and of the
lineage that it names. -/
def validateDecisionLineage (relation : Relation) (decision : SinkDecision) :
    Except PyError Unit := do
  requireCanonicalRefs decision.releaseRefs "release_refs"
  validateSinkDecision relation decision

def SinkDecision.listing (decision : SinkDecision) (releases : List Release) : SinkDecision :=
  { decision with releaseRefs := releases.map Release.releaseId }

def Relation.deciding (relation : Relation) (decisions : List SinkDecision) : Relation :=
  { relation with sinkDecisions := decisions }

/-- Recorded releases for the sink of a decision, each of which starts at the label
that the one before it ends at, up to the label of the decision.  A release id is a
`NonEmptyString`. -/
structure ReleaseLineage (relation : Relation) (decision : SinkDecision)
    (lineage : List Release) : Prop where
  recorded : ∀ release ∈ lineage, relation.release? release.releaseId = some release
  named : ∀ release ∈ lineage, release.releaseId ≠ ""
  sink : ∀ release ∈ lineage, release.sinkRef = decision.sink.sinkRef ∧
    release.destinationRef = decision.sink.destinationRef ∧
    release.audienceScopeRef = decision.sink.audienceScopeRef
  ordered : lineage.IsChain fun prior successor =>
    prior.resultLabelRef = successor.sourceLabelRef
  ends : ∀ release ∈ lineage.getLast?, release.resultLabelRef = decision.labelRef
  label : ∃ label, relation.label? decision.labelRef = some label ∧
    label.subject = decision.subject ∧ label.policy = decision.policy

/-! ## The checks of a decision -/

theorem forall_zip_tail_iff {α : Type} {R : α → α → Prop} (l : List α) :
    (∀ pair ∈ l.zip l.tail, R pair.1 pair.2) ↔ l.IsChain R := by
  induction l with
  | nil => simp
  | cons a rest ih =>
    cases rest with
    | nil => simp
    | cons b rest =>
      rw [List.isChain_cons_cons, ← ih]
      simp

theorem requireCanonicalRefs_ok_iff (values : List String) (label : String) :
    requireCanonicalRefs values label = .ok () ↔ values.Pairwise (· < ·) ∧ "" ∉ values := by
  unfold requireCanonicalRefs
  simp only [seq_eq_ok_iff, refuseIf_eq_ok_iff, not_not]

section Decision

variable {relation : Relation} {decision : SinkDecision} {lineage : List Release}

section

variable (h : ReleaseLineage relation decision lineage)
include h

theorem ReleaseLineage.resolved :
    (lineage.map Release.releaseId).mapM (resolveDecisionRelease relation decision) =
      .ok lineage := by
  rw [mapM_eq_ok_iff, List.forall₂_map_left_iff]
  apply List.forall₂_same.mpr
  intro release hrelease
  obtain ⟨hsink, hdestination, haudience⟩ := h.sink release hrelease
  unfold resolveDecisionRelease
  rw [h.recorded release hrelease]
  simp [hsink, hdestination, haudience, refuseIf]

theorem ReleaseLineage.ordered_ok :
    validateDecisionReleaseLineage (decision.listing lineage) lineage = .ok () := by
  unfold validateDecisionReleaseLineage
  rw [seq_eq_ok_iff, forM_eq_ok_iff, refuseIf_eq_ok_iff]
  constructor
  · intro pair hpair
    rw [refuseIf_eq_ok_iff, not_not]
    exact (forall_zip_tail_iff (R := fun prior successor : Release =>
      prior.resultLabelRef = successor.sourceLabelRef) lineage).mpr h.ordered pair hpair
  · cases hlast : lineage.getLast? with
    | none => simp
    | some release =>
      have hends : release.resultLabelRef = decision.labelRef := h.ends release hlast
      simp [hends, SinkDecision.listing]

theorem ReleaseLineage.decision_ok :
    validateSinkDecision relation (decision.listing lineage) = .ok () := by
  obtain ⟨label, hlabel, hsubject, hpolicy⟩ := h.label
  have hresolved : resolveLabel relation (decision.listing lineage).labelRef = .ok label := by
    show resolveLabel relation decision.labelRef = .ok label
    unfold resolveLabel
    rw [hlabel]
  unfold validateSinkDecision
  refine bind_eq_ok_iff.mpr ⟨label, hresolved, ?_⟩
  rw [seq_eq_ok_iff, refuseIf_eq_ok_iff, not_or, not_not, not_not]
  refine ⟨⟨hsubject, hpolicy⟩, ?_⟩
  exact bind_eq_ok_iff.mpr ⟨lineage, h.resolved, h.ordered_ok⟩

theorem ReleaseLineage.named_map : "" ∉ lineage.map Release.releaseId := by
  intro hmem
  obtain ⟨release, hrelease, hempty⟩ := List.mem_map.mp hmem
  exact h.named release hrelease hempty

end

end Decision

section Frame

variable {relation : Relation} {before after : List SinkDecision} {decision : SinkDecision}
  {lineage : List Release}

/-- A decision that is complete but for its releases accepts the lists of sorted ids. -/
theorem SinkDecision.validate_listing_iff (hrest : (decision.listing []).validate = .ok ()) :
    (decision.listing lineage).validate = .ok () ↔
      requireCanonicalRefs (lineage.map Release.releaseId) "release_refs" = .ok () := by
  unfold SinkDecision.validate at hrest ⊢
  rw [seq_eq_ok_iff] at hrest ⊢
  exact and_iff_left hrest.2

theorem map_listing {β : Type} (f : SinkDecision → β)
    (hf : f (decision.listing lineage) = f (decision.listing [])) :
    (before ++ decision.listing lineage :: after).map f =
      (before ++ decision.listing [] :: after).map f := by
  rw [List.map_append, List.map_append, List.map_cons, List.map_cons, hf]

theorem forall_mem_listing {P : SinkDecision → Prop} :
    (∀ d ∈ before ++ decision :: after, P d) ↔
      P decision ∧ ∀ d ∈ before ++ after, P d := by
  simp only [List.forall_mem_append, List.forall_mem_cons]
  exact and_left_comm

theorem targetPolicy?_listing (binding : CarrierBinding) :
    targetPolicy? (relation.deciding (before ++ decision.listing lineage :: after)) binding =
      targetPolicy? (relation.deciding (before ++ decision.listing [] :: after)) binding := by
  unfold targetPolicy?
  cases binding.targetKind with
  | label => rfl
  | derivation => rfl
  | release => rfl
  | sinkDecision =>
    show Option.map _ ((before ++ decision.listing lineage :: after).find? _) =
      Option.map _ ((before ++ decision.listing [] :: after).find? _)
    rw [List.find?_append, List.find?_append]
    cases before.find? fun d => d.decisionId == binding.targetRef with
    | some found => rfl
    | none =>
      have hid : ∀ releases, ((decision.listing releases).decisionId == binding.targetRef) =
          (decision.decisionId == binding.targetRef) := fun _ => rfl
      rw [Option.none_or, Option.none_or, List.find?_cons, List.find?_cons, hid, hid]
      cases decision.decisionId == binding.targetRef with
      | true => rfl
      | false => rfl

theorem validateBindingTarget_listing (binding : CarrierBinding) :
    validateBindingTarget (relation.deciding (before ++ decision.listing lineage :: after))
        binding =
      validateBindingTarget (relation.deciding (before ++ decision.listing [] :: after))
        binding := by
  unfold validateBindingTarget
  rw [targetPolicy?_listing]
  rfl

theorem validateProfileCoordinates_listing :
    validateProfileCoordinates
        (relation.deciding (before ++ decision.listing lineage :: after)) =
      validateProfileCoordinates (relation.deciding (before ++ decision.listing [] :: after)) := by
  unfold validateProfileCoordinates
  have hprofiles :
      (relation.deciding (before ++ decision.listing lineage :: after)).sinkDecisions.map
          SinkDecision.profile =
        (relation.deciding (before ++ decision.listing [] :: after)).sinkDecisions.map
          SinkDecision.profile := map_listing SinkDecision.profile rfl
  simp only [hprofiles]
  rfl

theorem validateFields_listing_iff
    (hrest : validateFields (relation.deciding (before ++ decision.listing [] :: after)) =
      .ok ()) :
    validateFields (relation.deciding (before ++ decision.listing lineage :: after)) = .ok () ↔
      requireCanonicalRefs (lineage.map Release.releaseId) "release_refs" = .ok () := by
  unfold validateFields requireBounded Relation.deciding at hrest ⊢
  simp only [seq_eq_ok_iff, forM_eq_ok_iff, refuseIf_eq_ok_iff,
    forall_mem_listing, List.length_append, List.length_cons] at hrest ⊢
  obtain ⟨hlabels, hlabel, hderivations, hderivation, hreleases, hrelease, hdecisions,
    ⟨hdecision, hothers⟩, hbindings, hbinding⟩ := hrest
  rw [SinkDecision.validate_listing_iff hdecision]
  constructor
  · intro h
    exact h.2.2.2.2.2.2.2.1.1
  · intro h
    exact ⟨hlabels, hlabel, hderivations, hderivation, hreleases, hrelease, hdecisions,
      ⟨h, hothers⟩, hbindings, hbinding⟩

/-- In a relation that is complete but for the releases of one decision, the release list is
all that is left to check. -/
theorem validateRelation_listing_iff
    (hrest : validateRelation (relation.deciding (before ++ decision.listing [] :: after)) =
      .ok ()) :
    validateRelation (relation.deciding (before ++ decision.listing lineage :: after)) =
        .ok () ↔
      validateDecisionLineage relation (decision.listing lineage) = .ok () := by
  unfold validateRelation at hrest ⊢
  unfold validateDecisionLineage
  rw [seq_eq_ok_iff] at hrest
  rw [seq_eq_ok_iff, seq_eq_ok_iff, validateFields_listing_iff hrest.1,
    validateProfileCoordinates_listing]
  obtain ⟨hfields, hrest⟩ := hrest
  have hids : (relation.deciding (before ++ decision.listing lineage :: after)).sinkDecisions.map
      SinkDecision.decisionId =
      (relation.deciding (before ++ decision.listing [] :: after)).sinkDecisions.map
        SinkDecision.decisionId := map_listing SinkDecision.decisionId rfl
  simp only [seq_eq_ok_iff, forM_eq_ok_iff, hids,
    validateBindingTarget_listing] at hrest ⊢
  obtain ⟨hlabel, hderivationId, hreleaseId, hdecisionId, hbindingId, hprofile, hderivation,
    hcycles, hrelease, hgraph, hdecision, hbinding⟩ := hrest
  have hothers := (forall_mem_listing.mp hdecision).2
  constructor
  · rintro ⟨hsorted, -, -, -, -, -, -, -, -, -, -, hdecisions, -⟩
    exact ⟨hsorted, (forall_mem_listing.mp hdecisions).1⟩
  · rintro ⟨hsorted, hlineage⟩
    exact ⟨hsorted, hlabel, hderivationId, hreleaseId, hdecisionId, hbindingId, hprofile,
      hderivation, hcycles, hrelease, hgraph, forall_mem_listing.mpr ⟨hlineage, hothers⟩,
      hbinding⟩

end Frame

/-- The lineage checks accept a release lineage when the ids of its releases increase
along it, and no other lineage; the same holds of a whole relation that is complete
but for the release list of the decision. -/
theorem lineage_accepted_iff (relation : Relation) (decision : SinkDecision)
    (lineage : List Release) (h : ReleaseLineage relation decision lineage) :
    (validateDecisionLineage relation (decision.listing lineage) = .ok () ↔
      (lineage.map Release.releaseId).Pairwise (· < ·)) ∧
    ∀ before after : List SinkDecision,
      validateRelation (relation.deciding (before ++ decision.listing [] :: after)) = .ok () →
      (validateRelation (relation.deciding (before ++ decision.listing lineage :: after)) =
          .ok () ↔
        (lineage.map Release.releaseId).Pairwise (· < ·)) := by
  have hchecks : validateDecisionLineage relation (decision.listing lineage) = .ok () ↔
      (lineage.map Release.releaseId).Pairwise (· < ·) := by
    unfold validateDecisionLineage
    rw [seq_eq_ok_iff]
    show requireCanonicalRefs (lineage.map Release.releaseId) "release_refs" = .ok () ∧ _ ↔ _
    rw [requireCanonicalRefs_ok_iff, and_iff_left h.decision_ok, and_iff_left h.named_map]
  refine ⟨hchecks, fun before after hrest => ?_⟩
  rw [validateRelation_listing_iff hrest, hchecks]

/-! ## Two releases -/

/-- A release of the result of a fact: a declassification, then an endorsement of what it
released.  The ids of the two releases are the arguments. -/
def releaseOf (releaseId : String) (source result : SubjectReference)
    (sourceLabelRef resultLabelRef : String) (kind : ReleaseKind) : Release where
  releaseId := releaseId
  profile := flowProfile
  policy := flowCut
  sourceSubject := source
  sourceLabelRef := sourceLabelRef
  resultSubject := result
  resultLabelRef := resultLabelRef
  sinkRef := "sink.1"
  destinationRef := "destination.1"
  audienceScopeRef := "audience.1"
  predecessorRefs := ["event.1"]
  evidenceRefs := ["evidence.1"]
  limitationRefs := ["limitation.1"]
  kind := kind

def endorsedSubject : SubjectReference := flowSubject .derivedResult "result.3"

def releasePair (firstId secondId : String) : List Release :=
  [releaseOf firstId resultSubject releasedSubject "label.result" "label.released"
      (.declassification ["confidentiality:restricted"]),
    releaseOf secondId releasedSubject endorsedSubject "label.released" "label.endorsed"
      (.endorsement [⟨"integrity:tool", "integrity:reviewed"⟩])]

def pairDecision : SinkDecision where
  decisionId := "decision.1"
  profile := flowProfile
  policy := flowCut
  subject := endorsedSubject
  labelRef := "label.endorsed"
  sink := ⟨"sink.1", "destination.1", "audience.1"⟩
  confidentialityResult := .satisfied
  integrityResult := .satisfied
  releaseRefs := []
  expectedHistoryHeadRefs := ["head.1"]
  finalDisposition := .permit
  evidenceRefs := ["evidence.1"]
  limitationRefs := ["limitation.1"]

def pairRelation (firstId secondId : String) : Relation :=
  { secondLabelRelation "label.result" with
    labels :=
      [flowLabel "label.fact" factSubject ["confidentiality:restricted"] ["integrity:tool"],
        flowLabel "label.result" resultSubject ["confidentiality:restricted"] ["integrity:tool"],
        { flowLabel "label.released" releasedSubject [] ["integrity:tool"] with
          influenceRefs := ["fact-version.1", "result.1", "result.2"] },
        { flowLabel "label.endorsed" endorsedSubject [] ["integrity:reviewed"] with
          influenceRefs := ["fact-version.1", "result.1", "result.2"] }]
    releases := releasePair firstId secondId
    sinkDecisions := [pairDecision] }

theorem releasePair_lineage {firstId secondId : String} (hfirst : firstId ≠ "")
    (hsecond : secondId ≠ "") (hne : firstId ≠ secondId) :
    ReleaseLineage (pairRelation firstId secondId) pairDecision
      (releasePair firstId secondId) where
  recorded := by
    have hbeq : (firstId == secondId) = false := beq_eq_false_iff_ne.mpr hne
    simp [releasePair, pairRelation, Relation.release?, releaseOf, List.find?_cons, hbeq]
  named := by simp [releasePair, releaseOf, hfirst, hsecond]
  sink := by simp [releasePair, releaseOf, pairDecision]
  ordered := by simp [releasePair, releaseOf]
  ends := by simp [releasePair, releaseOf, pairDecision]
  label := by
    simp [pairRelation, pairDecision, Relation.label?, flowLabel]

/-- An endorsement whose id sorts before that of the declassification it follows: the
lineage is genuine and the relation complete, and no list of the two releases is
accepted. -/
theorem genuine_lineage_refused :
    ReleaseLineage (pairRelation "release.declassify" "release.assure") pairDecision
        (releasePair "release.declassify" "release.assure") ∧
      validateRelation ((pairRelation "release.declassify" "release.assure").deciding
        [pairDecision.listing []]) = .ok () ∧
      validateDecisionLineage (pairRelation "release.declassify" "release.assure")
        (pairDecision.listing (releasePair "release.declassify" "release.assure")) ≠ .ok () ∧
      validateRelation ((pairRelation "release.declassify" "release.assure").deciding
        [pairDecision.listing (releasePair "release.declassify" "release.assure")]) ≠ .ok () ∧
      validateDecisionLineage (pairRelation "release.declassify" "release.assure")
        (pairDecision.listing
          (releasePair "release.declassify" "release.assure").reverse) ≠ .ok () :=
  ⟨releasePair_lineage (by decide +kernel) (by decide +kernel) (by decide +kernel),
    by decide +kernel, by decide +kernel, by decide +kernel, by decide +kernel⟩

theorem lineage_accepted_iff_pair :
    (validateDecisionLineage (pairRelation "release.declassify" "release.endorse")
        (pairDecision.listing (releasePair "release.declassify" "release.endorse")) = .ok () ↔
      ((releasePair "release.declassify" "release.endorse").map Release.releaseId).Pairwise
        (· < ·)) ∧
    ∀ before after : List SinkDecision,
      validateRelation ((pairRelation "release.declassify" "release.endorse").deciding
        (before ++ pairDecision.listing [] :: after)) = .ok () →
      (validateRelation ((pairRelation "release.declassify" "release.endorse").deciding
          (before ++ pairDecision.listing
            (releasePair "release.declassify" "release.endorse") :: after)) = .ok () ↔
        ((releasePair "release.declassify" "release.endorse").map Release.releaseId).Pairwise
          (· < ·)) :=
  lineage_accepted_iff _ _ _
    (releasePair_lineage (by decide +kernel) (by decide +kernel) (by decide +kernel))

end Raes.FlowControl
