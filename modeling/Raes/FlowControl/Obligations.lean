import Raes.FlowControl.Relation
import Raes.Lib.ExceptList

/-!
# Obligations along a lineage

A derivation hands every obligation of its inputs to its result label, and a release
hands on all that it does not remove.  The records name labels, and a decision names a
label of its subject, so a second label of a derived subject is where an obligation
can get lost.
-/

namespace Raes.FlowControl

/-- The two coordinates of a label. -/
inductive Coordinate where
  | confidentiality | integrity

def EffectiveLabel.obligations (label : EffectiveLabel) : Coordinate → List String
  | .confidentiality => label.confidentialityObligationRefs
  | .integrity => label.integrityObligationRefs

/-- The obligations of a coordinate that a release removes from its source label: a
declassification those of confidentiality, an endorsement those of integrity. -/
def Release.removed (release : Release) : Coordinate → List String
  | .confidentiality =>
    match release.kind with
    | .declassification removed => removed
    | .endorsement _ => []
  | .integrity =>
    match release.kind with
    | .declassification _ => []
    | .endorsement replacements => replacements.map ObligationReplacement.sourceObligationRef

def Derived (relation : Relation) (label : EffectiveLabel) : Prop :=
  (∃ derivation ∈ relation.derivations,
      relation.label? derivation.resultLabelRef = some label) ∨
    ∃ release ∈ relation.releases, relation.label? release.resultLabelRef = some label

/-- One step forward along the records, with the release of the step.  A record of a
subject is behind every label of that subject. -/
inductive LineageStep (relation : Relation) :
    EffectiveLabel → List Release → EffectiveLabel → Prop
  | derivation {derivation : Derivation} {item : DerivationInput}
      {source result : EffectiveLabel} (hderivation : derivation ∈ relation.derivations)
      (hitem : item ∈ derivation.inputs) (hsource : relation.label? item.labelRef = some source)
      (hresult : relation.label? derivation.resultLabelRef = some result) :
      LineageStep relation source [] result
  | release {release : Release} {source result : EffectiveLabel}
      (hrelease : release ∈ relation.releases)
      (hsource : relation.label? release.sourceLabelRef = some source)
      (hresult : relation.label? release.resultLabelRef = some result) :
      LineageStep relation source [release] result
  | subject {derived label : EffectiveLabel} (hderived : Derived relation derived)
      (hlabel : label ∈ relation.labels) (hsubject : label.subject = derived.subject) :
      LineageStep relation derived [] label

inductive Lineage (relation : Relation) :
    EffectiveLabel → List Release → EffectiveLabel → Prop
  | refl (label : EffectiveLabel) : Lineage relation label [] label
  | step {a b c : EffectiveLabel} {releases rest : List Release}
      (hstep : LineageStep relation a releases b) (hrest : Lineage relation b rest c) :
      Lineage relation a (releases ++ rest) c

def KeptOrRemoved (label : EffectiveLabel) (releases : List Release) (coordinate : Coordinate)
    (obligation : String) : Prop :=
  obligation ∈ label.obligations coordinate ∨
    ∃ release ∈ releases, obligation ∈ release.removed coordinate

def ObligationsKept (relation : Relation) : Prop :=
  ∀ decision ∈ relation.sinkDecisions, ∀ label,
    relation.label? decision.labelRef = some label →
    ∀ ancestor releases, Lineage relation ancestor releases label →
    ∀ coordinate, ∀ obligation ∈ ancestor.obligations coordinate,
      KeptOrRemoved label releases coordinate obligation

/-- What a second label of a derived subject omits is in the label of the decision
after it, or removed in between. -/
def SecondLabelsKeep (relation : Relation) : Prop :=
  ∀ decision ∈ relation.sinkDecisions, ∀ label,
    relation.label? decision.labelRef = some label →
    ∀ derived second releases, Derived relation derived → second ∈ relation.labels →
      second.subject = derived.subject → Lineage relation second releases label →
    ∀ coordinate, ∀ obligation ∈ derived.obligations coordinate,
      obligation ∉ second.obligations coordinate →
      KeptOrRemoved label releases coordinate obligation

section Records

variable {relation : Relation}

theorem resolveLabel_ok_iff (labelRef : String) (label : EffectiveLabel) :
    resolveLabel relation labelRef = .ok label ↔ relation.label? labelRef = some label := by
  unfold resolveLabel
  cases relation.label? labelRef with
  | none => simp
  | some found => simp

theorem resolveLabelInput_label {item : DerivationInput} {label : EffectiveLabel}
    (h : resolveLabelInput relation item = .ok label) :
    relation.label? item.labelRef = some label := by
  unfold resolveLabelInput at h
  simp only [bind_eq_ok_iff, resolveLabel_ok_iff] at h
  obtain ⟨found, hfound, -, -, h⟩ := h
  cases h
  exact hfound

variable {obligation : String}

theorem derivation_keeps {derivation : Derivation}
    (h : validateDerivation relation derivation = .ok ()) {item : DerivationInput}
    (hitem : item ∈ derivation.inputs) {source result : EffectiveLabel}
    (hsource : relation.label? item.labelRef = some source)
    (hresult : relation.label? derivation.resultLabelRef = some result)
    (coordinate : Coordinate) (hobligation : obligation ∈ source.obligations coordinate) :
    obligation ∈ result.obligations coordinate := by
  unfold validateDerivation at h
  simp only [bind_eq_ok_iff, resolveLabel_ok_iff] at h
  obtain ⟨inputs, hinputs, found, hfound, -, -, -, -, -, -, u, hunion, -⟩ := h
  have hsame : found = result := Option.some.inj (hfound.symm.trans hresult)
  subst hsame
  rw [mapM_eq_ok_iff] at hinputs
  obtain ⟨input, hinput, hresolved⟩ := exists_left_of_forall₂ hinputs.flip hitem
  have hsource' : input = source :=
    Option.some.inj ((resolveLabelInput_label hresolved).symm.trans hsource)
  subst hsource'
  unfold validateDerivationObligations at hunion
  rw [refuseIf_eq_ok_iff, not_or, not_not, not_not] at hunion
  cases coordinate with
  | confidentiality =>
    exact hunion.1.2 _ (List.mem_flatMap.mpr ⟨input, hinput, hobligation⟩)
  | integrity => exact hunion.2.2 _ (List.mem_flatMap.mpr ⟨input, hinput, hobligation⟩)

theorem release_keeps {release : Release} (h : validateRelease relation release = .ok ())
    {source result : EffectiveLabel}
    (hsource : relation.label? release.sourceLabelRef = some source)
    (hresult : relation.label? release.resultLabelRef = some result)
    (coordinate : Coordinate) (hobligation : obligation ∈ source.obligations coordinate)
    (hkept : obligation ∉ release.removed coordinate) :
    obligation ∈ result.obligations coordinate := by
  unfold validateRelease at h
  simp only [bind_eq_ok_iff, resolveLabel_ok_iff] at h
  obtain ⟨a, ha, b, hb, -, -, -, -, -, -, -, -, -, -, hkind⟩ := h
  have hsame : a = source := Option.some.inj (ha.symm.trans hsource)
  have hsame' : b = result := Option.some.inj (hb.symm.trans hresult)
  subst hsame hsame'
  unfold Release.removed at hkept
  cases hrelease : release.kind with
  | declassification removed =>
    rw [hrelease] at hkind
    simp only [validateDeclassification, bind_eq_ok_iff, refuseIf_eq_ok_iff, not_not]
      at hkind
    obtain ⟨-, -, -, hdelta, hunchanged⟩ := hkind
    cases coordinate with
    | confidentiality =>
      rw [hrelease] at hkept
      exact hdelta.2 _ (List.mem_filter.mpr ⟨hobligation, decide_eq_true hkept⟩)
    | integrity =>
      show obligation ∈ b.integrityObligationRefs
      rw [hunchanged]
      exact hobligation
  | endorsement replacements =>
    rw [hrelease] at hkind
    simp only [validateEndorsement, bind_eq_ok_iff, refuseIf_eq_ok_iff, not_not] at hkind
    obtain ⟨-, -, -, hdelta, hunchanged⟩ := hkind
    cases coordinate with
    | confidentiality =>
      show obligation ∈ b.confidentialityObligationRefs
      rw [hunchanged]
      exact hobligation
    | integrity =>
      rw [hrelease] at hkept
      exact hdelta.2 _ (List.mem_append_left _
        (List.mem_filter.mpr ⟨hobligation, decide_eq_true hkept⟩))

theorem validateRelation_records (h : validateRelation relation = .ok ()) :
    (∀ derivation ∈ relation.derivations, validateDerivation relation derivation = .ok ()) ∧
      ∀ release ∈ relation.releases, validateRelease relation release = .ok () := by
  unfold validateRelation at h
  simp only [seq_eq_ok_iff, forM_eq_ok_iff] at h
  exact ⟨h.2.2.2.2.2.2.2.1, h.2.2.2.2.2.2.2.2.2.1⟩

theorem LineageStep.keeps (h : validateRelation relation = .ok ()) {a b : EffectiveLabel}
    {releases : List Release} (hstep : LineageStep relation a releases b)
    (coordinate : Coordinate) (hobligation : obligation ∈ a.obligations coordinate) :
    KeptOrRemoved b releases coordinate obligation ∨
      (Derived relation a ∧ b ∈ relation.labels ∧ b.subject = a.subject ∧
        obligation ∉ b.obligations coordinate) := by
  obtain ⟨hderivations, hreleases⟩ := validateRelation_records h
  cases hstep with
  | derivation hderivation hitem hsource hresult =>
    exact Or.inl (Or.inl (derivation_keeps (hderivations _ hderivation) hitem hsource hresult
      coordinate hobligation))
  | @release release source result hrelease hsource hresult =>
    by_cases hremoved : obligation ∈ release.removed coordinate
    · exact Or.inl (Or.inr ⟨release, List.mem_singleton.mpr rfl, hremoved⟩)
    · exact Or.inl (Or.inl (release_keeps (hreleases _ hrelease) hsource hresult coordinate
        hobligation hremoved))
  | subject hderived hlabel hsubject =>
    by_cases hkept : obligation ∈ b.obligations coordinate
    · exact Or.inl (Or.inl hkept)
    · exact Or.inr ⟨hderived, hlabel, hsubject, hkept⟩

end Records

/-! ## Whole lineages -/

theorem KeptOrRemoved.append {label : EffectiveLabel} {releases rest : List Release}
    {coordinate : Coordinate} {obligation : String}
    (h : KeptOrRemoved label rest coordinate obligation) :
    KeptOrRemoved label (releases ++ rest) coordinate obligation := by
  rcases h with h | ⟨release, hrelease, hremoved⟩
  · exact Or.inl h
  · exact Or.inr ⟨release, List.mem_append_right _ hrelease, hremoved⟩

theorem SecondLabelsKeep.kept {relation : Relation} (h : validateRelation relation = .ok ())
    (hsecond : SecondLabelsKeep relation) : ObligationsKept relation := by
  intro decision hdecision label hlabel ancestor releases hlineage coordinate
  -- along the path to the label of the decision
  induction hlineage with
  | refl label => exact fun obligation hobligation => Or.inl hobligation
  | step hstep hrest ih =>
    intro obligation hobligation
    rcases hstep.keeps h coordinate hobligation with
      (hkept | ⟨release, hrelease, hremoved⟩) | ⟨hderived, hmem, hsubject, homitted⟩
    · exact (ih hlabel obligation hkept).append
    · exact Or.inr ⟨release, List.mem_append_left _ hrelease, hremoved⟩
    · exact (hsecond decision hdecision _ hlabel _ _ _ hderived hmem hsubject hrest coordinate
        obligation hobligation homitted).append

/-- The labels of the decisions of an accepted relation carry the obligations of their
lineages exactly when no second label loses one. -/
theorem obligations_kept_iff (relation : Relation) (h : validateRelation relation = .ok ()) :
    ObligationsKept relation ↔ SecondLabelsKeep relation := by
  refine ⟨?_, SecondLabelsKeep.kept h⟩
  intro hkept decision hdecision label hlabel derived second releases hderived hsecond
    hsubject hlineage coordinate obligation hobligation _
  exact hkept decision hdecision label hlabel derived ([] ++ releases)
    (.step (.subject hderived hsecond hsubject) hlineage) coordinate obligation hobligation

/-! ## A second label -/

def flowProfile : ProfileReference :=
  ⟨"participant-boundary-flow-policy-v1", "rev1", "sha256:profile", "sem-233/rev1"⟩

def flowCut : PolicyCutReference :=
  ⟨"policy.blue", "1", "sha256:policy", "decision.1", "cut.1", "1", 0⟩

def flowSubject (kind : SubjectKind) (subjectRef : String) : SubjectReference :=
  ⟨kind, subjectRef, "1", "participants.blue.analyst", "episode-1"⟩

def factSubject : SubjectReference := flowSubject .runtimeFactVersion "fact-version.1"

def resultSubject : SubjectReference := flowSubject .derivedResult "result.1"

def releasedSubject : SubjectReference := flowSubject .derivedResult "result.2"

def flowLabel (labelId : String) (subject : SubjectReference)
    (confidentiality integrity : List String) : EffectiveLabel where
  labelId := labelId
  subject := subject
  profile := flowProfile
  policy := flowCut
  resolutionStatus := .resolved
  confidentialityObligationRefs := confidentiality
  integrityObligationRefs := integrity
  provenanceRefs := ["provenance:fact.1"]
  influenceRefs := ["fact-version.1", "result.1"]
  evidenceRefs := ["evidence.1"]

/-- A result derived from a restricted fact, with a second label that has no obligation.
The decision is made on the label of the given id. -/
def secondLabelRelation (labelRef : String) : Relation where
  profile := flowProfile
  labels :=
    [flowLabel "label.fact" factSubject ["confidentiality:restricted"] ["integrity:tool"],
      flowLabel "label.result" resultSubject ["confidentiality:restricted"] ["integrity:tool"],
      flowLabel "label.second" resultSubject [] [],
      flowLabel "label.released" releasedSubject [] ["integrity:tool"]]
  derivations := [{
    derivationId := "derivation.1", profile := flowProfile, policy := flowCut
    inputs := [⟨factSubject, "label.fact"⟩]
    resultSubject := resultSubject, resultLabelRef := "label.result"
    predecessorRefs := ["event.1"], provenanceRefs := ["provenance:fact.1"]
    influenceRefs := ["fact-version.1"], evidenceRefs := ["evidence.1"]
    nonInfluenceAssertion := none }]
  releases := [{
    releaseId := "release.1", profile := flowProfile, policy := flowCut
    sourceSubject := resultSubject, sourceLabelRef := "label.result"
    resultSubject := releasedSubject, resultLabelRef := "label.released"
    sinkRef := "sink.1", destinationRef := "destination.1", audienceScopeRef := "audience.1"
    predecessorRefs := ["event.1"], evidenceRefs := ["evidence.1"]
    limitationRefs := ["limitation.1"]
    kind := .declassification ["confidentiality:restricted"] }]
  sinkDecisions := [{
    decisionId := "decision.1", profile := flowProfile, policy := flowCut
    subject := resultSubject, labelRef := labelRef
    sink := ⟨"sink.1", "destination.1", "audience.1"⟩
    confidentialityResult := .satisfied, integrityResult := .satisfied, releaseRefs := []
    expectedHistoryHeadRefs := ["head.1"], finalDisposition := .permit
    evidenceRefs := ["evidence.1"], limitationRefs := ["limitation.1"] }]
  bindings := [{
    bindingId := "binding.1", profile := flowProfile, policy := flowCut
    targetKind := .label, targetRef := "label.result"
    sourceParticipantAddress := "participants.blue.analyst", sourceEpisodeId := "episode-1"
    targetParticipantAddress := "participants.blue.analyst", targetEpisodeId := "episode-1"
    crossingRefs := [], memoryPredecessorRefs := []
    carrier := .runtimeFact "fact-version.1" }]

/-- A permit on the second label is accepted, and the label has lost the obligations of
the fact that its subject is derived from. -/
theorem second_label_loses_obligation :
    validateRelation (secondLabelRelation "label.second") = .ok () ∧
      ¬ ObligationsKept (secondLabelRelation "label.second") := by
  refine ⟨by decide +kernel, fun hkept => ?_⟩
  let relation := secondLabelRelation "label.second"
  let fact := flowLabel "label.fact" factSubject ["confidentiality:restricted"] ["integrity:tool"]
  let derived :=
    flowLabel "label.result" resultSubject ["confidentiality:restricted"] ["integrity:tool"]
  let second := flowLabel "label.second" resultSubject [] []
  have hderivation : LineageStep relation fact [] derived :=
    .derivation List.mem_cons_self List.mem_cons_self (by decide +kernel) (by decide +kernel)
  have hsubject : LineageStep relation derived [] second :=
    .subject (Or.inl ⟨_, List.mem_cons_self, by decide +kernel⟩) (by decide +kernel) rfl
  have hlineage : Lineage relation fact [] second :=
    .step hderivation (.step hsubject (.refl second))
  rcases hkept _ List.mem_cons_self second (by decide +kernel) fact [] hlineage .confidentiality
    "confidentiality:restricted" List.mem_cons_self with hmem | ⟨release, hrelease, -⟩
  · cases hmem
  · cases hrelease

/-- A decision on the derived label. -/
theorem obligations_kept_iff_derived :
    ObligationsKept (secondLabelRelation "label.result") ↔
      SecondLabelsKeep (secondLabelRelation "label.result") :=
  obligations_kept_iff _ (by decide +kernel)

end Raes.FlowControl
