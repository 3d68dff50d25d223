import Mathlib.Data.String.Basic
import Raes.Errors
import Raes.Graph.Cycles

/-!
# Flow-control relation documents

The records of a participant flow-control relation and the checks that each record
makes on itself (`participant_flow_control_semantics.py`,
`participant_flow_control.py`): effective labels, derivations, releases, sink
decisions and carrier bindings.
-/

namespace Raes.FlowControl

open PyError

inductive SubjectKind where
  | runtimeFactVersion | actionArgument | participantControlOccurrence
  | participantCrossingOccurrence | derivedResult
  deriving DecidableEq

def SubjectKind.value : SubjectKind → String
  | .runtimeFactVersion => "runtime-fact-version"
  | .actionArgument => "action-argument"
  | .participantControlOccurrence => "participant-control-occurrence"
  | .participantCrossingOccurrence => "participant-crossing-occurrence"
  | .derivedResult => "derived-result"

inductive LabelResolutionStatus where
  | resolved | unresolved | unsupported
  deriving DecidableEq

inductive CoordinateResult where
  | satisfied | deny | unsupported | stale | unresolved | unknown | ambiguous
  deriving DecidableEq

inductive FinalDisposition where
  | permit | deny | unsupported | stale | unresolved
  deriving DecidableEq

structure ProfileReference where
  (profileId profileRevision profileDigest authorityRevision : String)
  deriving DecidableEq

structure PolicyCutReference where
  (policyId policyRevision policyDigest policyDecisionRef decisionCutRef : String)
  decisionCutRevision : String
  effectiveOrder : ℕ
  deriving DecidableEq

/-- A governed subject.  Its `FlowSubjectKey` is the tuple of all its members. -/
structure SubjectReference where
  subjectKind : SubjectKind
  (subjectRef subjectRevision participantAddress episodeId : String)
  deriving DecidableEq

/-- `_require_canonical_refs`: the values are their own sorted set, and none is empty. -/
def requireCanonicalRefs (values : List String) (label : String) : Except PyError Unit := do
  refuseIf (¬ values.Pairwise (· < ·))
    (valueError (label ++ " must be unique and use canonical sorted order"))
  refuseIf ("" ∈ values) (valueError (label ++ " entries must be non-empty"))

/-- The `min_length=1` of a field. -/
def requireMember {α : Type} (values : List α) (label : String) : Except PyError Unit :=
  refuseIf (values.length < 1) (valueError (label ++ " should have at least 1 item"))

structure EffectiveLabel where
  labelId : String
  subject : SubjectReference
  profile : ProfileReference
  policy : PolicyCutReference
  resolutionStatus : LabelResolutionStatus
  (confidentialityObligationRefs integrityObligationRefs provenanceRefs influenceRefs : List String)
  evidenceRefs : List String
  deriving DecidableEq

def EffectiveLabel.validate (label : EffectiveLabel) : Except PyError Unit := do
  requireCanonicalRefs label.confidentialityObligationRefs "confidentiality_obligation_refs"
  requireCanonicalRefs label.integrityObligationRefs "integrity_obligation_refs"
  requireMember label.provenanceRefs "provenance_refs"
  requireCanonicalRefs label.provenanceRefs "provenance_refs"
  requireMember label.influenceRefs "influence_refs"
  requireCanonicalRefs label.influenceRefs "influence_refs"
  requireMember label.evidenceRefs "evidence_refs"
  requireCanonicalRefs label.evidenceRefs "evidence_refs"

structure DerivationInput where
  subject : SubjectReference
  labelRef : String

structure NonInfluenceAssertion where
  (excludedInputRefs evidenceRefs : List String)

structure Derivation where
  derivationId : String
  profile : ProfileReference
  policy : PolicyCutReference
  inputs : List DerivationInput
  resultSubject : SubjectReference
  resultLabelRef : String
  (predecessorRefs provenanceRefs influenceRefs evidenceRefs : List String)
  nonInfluenceAssertion : Option NonInfluenceAssertion

def DerivationInput.key (item : DerivationInput) : String × String × String :=
  (item.subject.subjectKind.value, item.subject.subjectRef, item.labelRef)

def keyLt (a b : String × String × String) : Prop :=
  a.1 < b.1 ∨ a.1 = b.1 ∧ (a.2.1 < b.2.1 ∨ a.2.1 = b.2.1 ∧ a.2.2 < b.2.2)

instance : DecidableRel keyLt := fun a b => inferInstanceAs (Decidable
  (a.1 < b.1 ∨ a.1 = b.1 ∧ (a.2.1 < b.2.1 ∨ a.2.1 = b.2.1 ∧ a.2.2 < b.2.2)))

def NonInfluenceAssertion.validate (assertion : NonInfluenceAssertion) :
    Except PyError Unit := do
  requireMember assertion.excludedInputRefs "excluded_input_refs"
  requireCanonicalRefs assertion.excludedInputRefs "excluded_input_refs"
  requireMember assertion.evidenceRefs "evidence_refs"
  requireCanonicalRefs assertion.evidenceRefs "evidence_refs"

def Derivation.validate (derivation : Derivation) : Except PyError Unit := do
  requireMember derivation.inputs "inputs"
  requireMember derivation.predecessorRefs "predecessor_refs"
  requireCanonicalRefs derivation.predecessorRefs "predecessor_refs"
  requireMember derivation.provenanceRefs "provenance_refs"
  requireCanonicalRefs derivation.provenanceRefs "provenance_refs"
  requireMember derivation.influenceRefs "influence_refs"
  requireCanonicalRefs derivation.influenceRefs "influence_refs"
  requireMember derivation.evidenceRefs "evidence_refs"
  requireCanonicalRefs derivation.evidenceRefs "evidence_refs"
  forM derivation.nonInfluenceAssertion NonInfluenceAssertion.validate
  refuseIf (¬ (derivation.inputs.map DerivationInput.key).Pairwise keyLt)
    (valueError "derivation inputs must be unique and use canonical sorted order")
  refuseIf (derivation.nonInfluenceAssertion.any fun assertion =>
      derivation.inputs.any fun item => item.subject.subjectRef ∈ assertion.excludedInputRefs)
    (valueError "non-influence assertion cannot exclude a declared possible input")

structure ObligationReplacement where
  (sourceObligationRef resultObligationRef : String)

/-- What a release does to the obligations of its source label. -/
inductive ReleaseKind where
  | declassification (removedConfidentialityObligationRefs : List String)
  | endorsement (integrityObligationReplacements : List ObligationReplacement)

structure Release where
  releaseId : String
  profile : ProfileReference
  policy : PolicyCutReference
  sourceSubject : SubjectReference
  sourceLabelRef : String
  resultSubject : SubjectReference
  (resultLabelRef sinkRef destinationRef audienceScopeRef : String)
  (predecessorRefs evidenceRefs limitationRefs : List String)
  kind : ReleaseKind

def ReleaseKind.validate : ReleaseKind → Except PyError Unit
  | .declassification removed => do
    requireMember removed "removed_confidentiality_obligation_refs"
    requireCanonicalRefs removed "removed confidentiality obligation refs"
  | .endorsement replacements => do
    requireMember replacements "integrity_obligation_replacements"
    refuseIf (¬ (replacements.map fun item =>
        ("", item.sourceObligationRef, item.resultObligationRef)).Pairwise keyLt)
      (valueError "integrity obligation replacements must be unique and canonical")
    refuseIf (¬ (replacements.map ObligationReplacement.sourceObligationRef).Nodup)
      (valueError "integrity endorsement cannot replace one source obligation more than once")

def Release.validate (release : Release) : Except PyError Unit := do
  requireMember release.predecessorRefs "predecessor_refs"
  requireCanonicalRefs release.predecessorRefs "predecessor_refs"
  requireMember release.evidenceRefs "evidence_refs"
  requireCanonicalRefs release.evidenceRefs "evidence_refs"
  requireMember release.limitationRefs "limitation_refs"
  requireCanonicalRefs release.limitationRefs "limitation_refs"
  release.kind.validate

structure SinkReference where
  (sinkRef destinationRef audienceScopeRef : String)

structure SinkDecision where
  decisionId : String
  profile : ProfileReference
  policy : PolicyCutReference
  subject : SubjectReference
  labelRef : String
  sink : SinkReference
  (confidentialityResult integrityResult : CoordinateResult)
  (releaseRefs expectedHistoryHeadRefs : List String)
  finalDisposition : FinalDisposition
  (evidenceRefs limitationRefs : List String)

/-- `participant_flow_coordinate_disposition` -/
def coordinateDisposition (confidentiality integrity : CoordinateResult) : FinalDisposition :=
  let values := [confidentiality, integrity]
  if .deny ∈ values then .deny
  else if .unsupported ∈ values then .unsupported
  else if .stale ∈ values then .stale
  else if .unresolved ∈ values ∨ .unknown ∈ values ∨ .ambiguous ∈ values then .unresolved
  else .permit

def SinkDecision.validate (decision : SinkDecision) : Except PyError Unit := do
  requireCanonicalRefs decision.releaseRefs "release_refs"
  requireMember decision.expectedHistoryHeadRefs "expected_history_head_refs"
  requireCanonicalRefs decision.expectedHistoryHeadRefs "expected_history_head_refs"
  requireMember decision.evidenceRefs "evidence_refs"
  requireCanonicalRefs decision.evidenceRefs "evidence_refs"
  requireMember decision.limitationRefs "limitation_refs"
  requireCanonicalRefs decision.limitationRefs "limitation_refs"
  refuseIf (coordinateDisposition decision.confidentialityResult decision.integrityResult ≠
      .permit ∧ decision.finalDisposition = .permit)
    (valueError "final disposition cannot permit a non-permitting coordinate result")

inductive RelationTargetKind where
  | label | derivation | release | sinkDecision
  deriving DecidableEq

/-- The carrier of a binding, with what names the source of its influence. -/
inductive BindingCarrier where
  | runtimeFact (factVersionRef : String)
  | actionArgument (proposalRef normalizedArgumentName : String)
  | participantControl (eventId : String)
      (authorityBasisRefs relatedOccurrenceRefs predecessorEventRefs : List String)
  | participantCrossing (eventId : String) (subjectRevision subjectDigest : Option String)
      (relatedStageRefs predecessorEventRefs : List String)

structure CarrierBinding where
  bindingId : String
  profile : ProfileReference
  policy : PolicyCutReference
  targetKind : RelationTargetKind
  (targetRef sourceParticipantAddress sourceEpisodeId targetParticipantAddress : String)
  targetEpisodeId : String
  (crossingRefs memoryPredecessorRefs : List String)
  carrier : BindingCarrier

def BindingCarrier.validate : BindingCarrier → Except PyError Unit
  | .runtimeFact _ => pure ()
  | .actionArgument _ _ => pure ()
  | .participantControl _ authorityBasisRefs relatedOccurrenceRefs predecessorEventRefs => do
    requireMember authorityBasisRefs "authority_basis_refs"
    requireCanonicalRefs authorityBasisRefs "authority_basis_refs"
    requireCanonicalRefs relatedOccurrenceRefs "related_occurrence_refs"
    requireCanonicalRefs predecessorEventRefs "predecessor_event_refs"
  | .participantCrossing _ subjectRevision subjectDigest relatedStageRefs
      predecessorEventRefs => do
    refuseIf (subjectRevision = none ∧ subjectDigest = none)
      (valueError "flow crossing subject requires a revision or digest")
    requireCanonicalRefs relatedStageRefs "related_stage_refs"
    requireCanonicalRefs predecessorEventRefs "predecessor_event_refs"

def CarrierBinding.validate (binding : CarrierBinding) : Except PyError Unit := do
  requireCanonicalRefs binding.crossingRefs "crossing_refs"
  requireCanonicalRefs binding.memoryPredecessorRefs "memory_predecessor_refs"
  refuseIf ((binding.sourceParticipantAddress ≠ binding.targetParticipantAddress ∨
      binding.sourceEpisodeId ≠ binding.targetEpisodeId) ∧
      (binding.crossingRefs = [] ∨ binding.memoryPredecessorRefs = []))
    (valueError "cross-scope bindings require crossing and memory predecessor refs")
  binding.carrier.validate

/-- `_binding_source_ref` -/
def BindingCarrier.sourceRef : BindingCarrier → String
  | .runtimeFact factVersionRef => factVersionRef
  | .actionArgument proposalRef normalizedArgumentName =>
    proposalRef ++ ":" ++ normalizedArgumentName
  | .participantControl eventId _ _ _ => eventId
  | .participantCrossing eventId _ _ _ _ => eventId

structure Relation where
  profile : ProfileReference
  labels : List EffectiveLabel
  derivations : List Derivation
  releases : List Release
  sinkDecisions : List SinkDecision
  bindings : List CarrierBinding

end Raes.FlowControl

/-!
# Relation validation

The joins across the records of a relation
(`participant_flow_control_relation_validation.py`): conservative derivations, exact
releases, an acyclic lineage with fresh results, and sink decisions on exact labels.
-/

namespace Raes.FlowControl

open PyError

variable (relation : Relation)

/-- `labels.get`, for distinct label ids -/
def Relation.label? (labelRef : String) : Option EffectiveLabel :=
  relation.labels.find? fun label => label.labelId == labelRef

def Relation.release? (releaseRef : String) : Option Release :=
  relation.releases.find? fun release => release.releaseId == releaseRef

def resolveLabel (labelRef : String) : Except PyError EffectiveLabel :=
  match relation.label? labelRef with
  | some label => .ok label
  | none => .error (valueError "flow label reference must resolve")

def resolveLabelInput (item : DerivationInput) : Except PyError EffectiveLabel := do
  let label ← resolveLabel relation item.labelRef
  refuseIf (label.subject ≠ item.subject)
    (valueError "derivation input label must match its exact subject")
  pure label

def sameRefs (a b : List String) : Prop := (∀ x ∈ a, x ∈ b) ∧ ∀ x ∈ b, x ∈ a

instance (a b : List String) : Decidable (sameRefs a b) :=
  inferInstanceAs (Decidable ((∀ x ∈ a, x ∈ b) ∧ ∀ x ∈ b, x ∈ a))

def validateDerivationObligations (inputs : List EffectiveLabel) (result : EffectiveLabel) :
    Except PyError Unit :=
  refuseIf (¬ sameRefs result.confidentialityObligationRefs
        (inputs.flatMap EffectiveLabel.confidentialityObligationRefs) ∨
      ¬ sameRefs result.integrityObligationRefs
        (inputs.flatMap EffectiveLabel.integrityObligationRefs))
    (valueError "derivation result must equal the coordinate-wise union of all possible inputs")

def validateDerivationResolution (inputs : List EffectiveLabel) (result : EffectiveLabel) :
    Except PyError Unit :=
  refuseIf ((∃ item ∈ inputs, item.resolutionStatus ≠ .resolved) ∧
      result.resolutionStatus = .resolved)
    (valueError "derivation with an unresolved input cannot produce a resolved label")

def validateDerivationLineage (derivation : Derivation) (inputs : List EffectiveLabel)
    (result : EffectiveLabel) : Except PyError Unit := do
  refuseIf (∃ ref ∈ derivation.provenanceRefs ++ inputs.flatMap EffectiveLabel.provenanceRefs,
      ref ∉ result.provenanceRefs)
    (valueError "derivation result must conservatively retain complete provenance")
  refuseIf (∃ ref ∈ derivation.influenceRefs ++
        (derivation.inputs.map fun item => item.subject.subjectRef) ++
        inputs.flatMap EffectiveLabel.influenceRefs, ref ∉ result.influenceRefs)
    (valueError "derivation result must conservatively retain complete influence")

def validateDerivation (derivation : Derivation) : Except PyError Unit := do
  let inputs ← derivation.inputs.mapM (resolveLabelInput relation)
  let result ← resolveLabel relation derivation.resultLabelRef
  refuseIf (derivation.policy ≠ result.policy ∨ ∃ item ∈ inputs, derivation.policy ≠ item.policy)
    (valueError "derivation inputs and result must use its exact policy and cut")
  refuseIf (result.subject ≠ derivation.resultSubject)
    (valueError "derivation result label subject must match its fresh result subject")
  refuseIf (derivation.resultSubject ∈ derivation.inputs.map DerivationInput.subject)
    (valueError "derivation requires a fresh result identity")
  validateDerivationObligations inputs result
  validateDerivationResolution inputs result
  validateDerivationLineage derivation inputs result

def validateReleaseResolution (source result : EffectiveLabel) : Except PyError Unit :=
  refuseIf (source.resolutionStatus ≠ .resolved ∧ result.resolutionStatus = .resolved)
    (valueError "release with an unresolved source cannot produce a resolved label")

def validateReleaseLineage (source result : EffectiveLabel) : Except PyError Unit := do
  refuseIf (∃ ref ∈ source.provenanceRefs, ref ∉ result.provenanceRefs)
    (valueError "release result must preserve source provenance")
  refuseIf (∃ ref ∈ source.influenceRefs ++ [source.subject.subjectRef],
      ref ∉ result.influenceRefs)
    (valueError "release result must preserve source influence")

def validateDeclassification (removed : List String) (source result : EffectiveLabel) :
    Except PyError Unit := do
  refuseIf (∃ ref ∈ removed, ref ∉ source.confidentialityObligationRefs)
    (valueError "declassification can remove only present confidentiality obligations")
  refuseIf (¬ sameRefs result.confidentialityObligationRefs
      (source.confidentialityObligationRefs.filter (· ∉ removed)))
    (valueError "declassification result must encode the exact confidentiality delta")
  refuseIf (result.integrityObligationRefs ≠ source.integrityObligationRefs)
    (valueError "declassification must leave the integrity coordinate unchanged")

def validateEndorsement (replacements : List ObligationReplacement)
    (source result : EffectiveLabel) : Except PyError Unit := do
  let removed := replacements.map ObligationReplacement.sourceObligationRef
  let added := replacements.map ObligationReplacement.resultObligationRef
  refuseIf (∃ ref ∈ removed, ref ∉ source.integrityObligationRefs)
    (valueError "endorsement can replace only present integrity obligations")
  refuseIf (¬ sameRefs result.integrityObligationRefs
      ((source.integrityObligationRefs.filter (· ∉ removed)) ++ added))
    (valueError "endorsement result must encode the exact integrity delta")
  refuseIf (result.confidentialityObligationRefs ≠ source.confidentialityObligationRefs)
    (valueError "endorsement must leave the confidentiality coordinate unchanged")

def validateRelease (release : Release) : Except PyError Unit := do
  let source ← resolveLabel relation release.sourceLabelRef
  let result ← resolveLabel relation release.resultLabelRef
  refuseIf (release.sourceSubject = release.resultSubject)
    (valueError "release requires a fresh result identity")
  refuseIf (source.subject ≠ release.sourceSubject ∨ result.subject ≠ release.resultSubject)
    (valueError "release source and result labels must match their exact subjects")
  refuseIf (release.policy ≠ source.policy ∨ release.policy ≠ result.policy)
    (valueError "release policy and cut must match its source and result labels")
  validateReleaseResolution source result
  validateReleaseLineage source result
  match release.kind with
  | .declassification removed => validateDeclassification removed source result
  | .endorsement replacements => validateEndorsement replacements source result

/-- `_resolve_decision_releases` -/
def resolveDecisionRelease (decision : SinkDecision) (releaseRef : String) :
    Except PyError Release :=
  match relation.release? releaseRef with
  | none => .error (valueError "sink decision release reference must resolve")
  | some release => do
    refuseIf (release.sinkRef ≠ decision.sink.sinkRef ∨
        release.destinationRef ≠ decision.sink.destinationRef ∨
        release.audienceScopeRef ≠ decision.sink.audienceScopeRef)
      (valueError "sink decision releases must bind the exact final sink")
    pure release

def validateDecisionReleaseLineage (decision : SinkDecision) (releases : List Release) :
    Except PyError Unit := do
  forM (releases.zip releases.tail) fun pair =>
    refuseIf (pair.1.resultLabelRef ≠ pair.2.sourceLabelRef)
      (valueError "sink decision releases must form one ordered label lineage")
  refuseIf (releases.getLast?.any fun release => release.resultLabelRef ≠ decision.labelRef)
    (valueError "sink decision release lineage must end at the selected label")

def validateSinkDecision (decision : SinkDecision) : Except PyError Unit := do
  let label ← resolveLabel relation decision.labelRef
  refuseIf (label.subject ≠ decision.subject ∨ label.policy ≠ decision.policy)
    (valueError "sink decision must bind its exact effective label and policy cut")
  let decisionReleases ← decision.releaseRefs.mapM (resolveDecisionRelease relation decision)
  validateDecisionReleaseLineage decision decisionReleases

/-- `graph.setdefault(source, set()).add(result)` -/
def addEdge (graph : Dict SubjectReference (List SubjectReference))
    (edge : SubjectReference × SubjectReference) :
    Dict SubjectReference (List SubjectReference) :=
  graph.set edge.1 (edge.2 :: ((graph.get? edge.1).getD []).filter (· ≠ edge.2))

def derivationEdges (relation : Relation) : List (SubjectReference × SubjectReference) :=
  relation.derivations.flatMap fun derivation =>
    derivation.inputs.map fun item => (item.subject, derivation.resultSubject)

def releaseEdges (relation : Relation) : List (SubjectReference × SubjectReference) :=
  relation.releases.map fun release => (release.sourceSubject, release.resultSubject)

def rejectCycles (edges : List (SubjectReference × SubjectReference)) : Except PyError Unit :=
  refuseIf (Graph.hasCycle (edges.foldl addEdge Dict.empty))
    (valueError "flow derivation cycle is not allowed")

def validateLineageGraph (relation : Relation) : Except PyError Unit := do
  refuseIf (¬ (relation.derivations.map Derivation.resultSubject ++
      relation.releases.map Release.resultSubject).Nodup)
    (valueError "every derivation and release requires a globally fresh result identity")
  rejectCycles (derivationEdges relation ++ releaseEdges relation)

def targetPolicy? (binding : CarrierBinding) : Option PolicyCutReference :=
  match binding.targetKind with
  | .label => (relation.label? binding.targetRef).map EffectiveLabel.policy
  | .derivation => (relation.derivations.find? fun derivation =>
      derivation.derivationId == binding.targetRef).map Derivation.policy
  | .release => (relation.release? binding.targetRef).map Release.policy
  | .sinkDecision => (relation.sinkDecisions.find? fun decision =>
      decision.decisionId == binding.targetRef).map SinkDecision.policy

def validateBindingLabel (binding : CarrierBinding) (label : EffectiveLabel) :
    Except PyError Unit := do
  refuseIf (binding.targetParticipantAddress ≠ label.subject.participantAddress ∨
      binding.targetEpisodeId ≠ label.subject.episodeId)
    (valueError "carrier binding target scope must match its effective label")
  refuseIf (binding.carrier.sourceRef ∉ label.influenceRefs)
    (valueError "carrier binding cannot erase its upstream influence")

/-- The body of the loop of `_validate_binding_targets`. -/
def validateBindingTarget (binding : CarrierBinding) : Except PyError Unit :=
  match targetPolicy? relation binding with
  | none => .error (valueError "carrier binding relation target must resolve")
  | some policy => do
    refuseIf (binding.policy ≠ policy)
      (valueError "carrier binding target must use its exact policy and cut")
    if binding.targetKind = .label then
      forM (relation.label? binding.targetRef) (validateBindingLabel binding)
    else pure ()

def uniqueById (ids : List String) (label : String) : Except PyError Unit :=
  refuseIf (¬ ids.Nodup) (valueError (label ++ " identity was reused"))

def validateProfileCoordinates (relation : Relation) : Except PyError Unit :=
  refuseIf (∃ profile ∈ relation.labels.map EffectiveLabel.profile ++
      relation.derivations.map Derivation.profile ++ relation.releases.map Release.profile ++
      relation.sinkDecisions.map SinkDecision.profile ++
      relation.bindings.map CarrierBinding.profile, profile ≠ relation.profile)
    (valueError "every flow relation record must use the document's exact profile")

/-- The `min_length` and `max_length` of a field of records. -/
def requireBounded {α : Type} (records : List α) (label : String) : Except PyError Unit :=
  refuseIf (records.length < 1 ∨ records.length > 256)
    (valueError (label ++ " should have between 1 and 256 items"))

def validateFields (relation : Relation) : Except PyError Unit := do
  requireBounded relation.labels "labels"
  forM relation.labels EffectiveLabel.validate
  requireBounded relation.derivations "derivations"
  forM relation.derivations Derivation.validate
  requireBounded relation.releases "releases"
  forM relation.releases Release.validate
  requireBounded relation.sinkDecisions "sink_decisions"
  forM relation.sinkDecisions SinkDecision.validate
  requireBounded relation.bindings "bindings"
  forM relation.bindings CarrierBinding.validate

/-- `_validate_relation_graph`, after the checks of the fields. -/
def validateRelation (relation : Relation) : Except PyError Unit := do
  validateFields relation
  uniqueById (relation.labels.map EffectiveLabel.labelId) "label"
  uniqueById (relation.derivations.map Derivation.derivationId) "derivation"
  uniqueById (relation.releases.map Release.releaseId) "release"
  uniqueById (relation.sinkDecisions.map SinkDecision.decisionId) "sink decision"
  uniqueById (relation.bindings.map CarrierBinding.bindingId) "carrier binding"
  validateProfileCoordinates relation
  forM relation.derivations (validateDerivation relation)
  rejectCycles (derivationEdges relation)
  forM relation.releases (validateRelease relation)
  validateLineageGraph relation
  forM relation.sinkDecisions (validateSinkDecision relation)
  forM relation.bindings (validateBindingTarget relation)

end Raes.FlowControl
