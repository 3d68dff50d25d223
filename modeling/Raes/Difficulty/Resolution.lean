import Mathlib.Data.Rat.Defs
import Raes.Contracts.Diagnostics
import Raes.Errors
import Raes.Lib.Dict
import Raes.Lib.SortBy

/-!
# Difficulty decisions

`raes_contracts/contracts/difficulty_resolution.py`: one request against a difficulty
policy gives one sealed decision or one diagnostic.  The decisions that came before
are an argument; nothing is stored.

A reference model that the code compares as a whole is a value of the type `ρ`.
-/

namespace Raes.Difficulty

open PyError

structure StateCut where
  orderDomain : String
  coordinate : ℕ
  episodeId : String
  deriving DecidableEq

/-- A typed threshold or observed value; a finite `int` or `float` is its number. -/
inductive ThresholdValue where
  | str (text : String)
  | number (value : ℚ)
  | bool (value : Bool)
  deriving DecidableEq

structure ObservationReference (ρ : Type) where
  sourceId : String
  sourceRef : ρ
  runId : String
  evidenceRef : ρ
  observedCut : StateCut
  deriving DecidableEq

structure ObservationInput (ρ : Type) extends ObservationReference ρ where
  value : ThresholdValue

structure ObservationSource (ρ : Type) where
  sourceRef : ρ
  maximumAge : ℕ

inductive Operator where
  | lt
  | lte
  | eq
  | ne
  | gte
  | gt
  deriving DecidableEq, Repr

structure ThresholdRule where
  (ruleId observationSourceId : String)
  operator : Operator
  threshold : ThresholdValue
  actionId : String
  priority : ℕ

structure PolicyBounds where
  (maximumInterventions minimumDecisionInterval cooldown : ℕ)

/-- The evaluator and the intervention authority of a policy.  An action is its affected
references, each a kind and an id. -/
structure Authority (ρ : Type) where
  evaluatorRef : String × Option String × Option String
  observationSources : Dict String (ObservationSource ρ)
  thresholdRules : Dict String ThresholdRule
  actions : Dict String (List (String × String))

/-- `DifficultyPolicyModel`.  A fixed policy has no authority, an adaptive or scaffolded one
has. -/
structure Policy (ρ : Type) where
  (policyId policyVersion policyDigest : String)
  authority : Option (Authority ρ)
  bounds : PolicyBounds
  validityEffect : String

structure DecisionRequest (ρ : Type) where
  (policyId policyVersion policyDigest runId : String)
  stateCut : StateCut
  observationInputs : List (ObservationInput ρ)
  interventionCount : ℕ
  expectedHistoryHead : Option String
  (idempotencyKey requestedAt : String)

inductive Disposition where
  | fixed
  | selected
  | noChange
  | terminal
  | denied
  | unsupported
  deriving DecidableEq, Repr

/-- The content of a decision, which its history head is the digest of. -/
structure DecisionPayload (ρ : Type) where
  (decisionId idempotencyKey requestFingerprint : String)
  priorHistoryHead : Option String
  (policyId policyVersion policyDigest runId : String)
  stateCut : StateCut
  observationRefs : List (ObservationReference ρ)
  (triggerRuleId selectedActionId : Option String)
  affectedRefs : List (String × String)
  disposition : Disposition
  (decidedAt validityEffect : String)
  deriving DecidableEq

structure Decision (ρ : Type) extends DecisionPayload ρ where
  historyHead : String
  deriving DecidableEq

inductive Resolution (ρ : Type) where
  | decided (decision : Decision ρ)
  | refused (diagnostic : Diagnostic)
  deriving DecidableEq

/-- The canonical digests: of a request and of the content of a decision, and the identity
of the supported evaluator profile, which ends with the digest of the profile. -/
structure Digests (ρ : Type) where
  fingerprint : DecisionRequest ρ → String
  historyHead : DecisionPayload ρ → String
  supportedEvaluator : String × Option String × Option String

def difficultyDiagnostic (code address message : String) : Diagnostic where
  code := code
  domain := "difficulty"
  address := address
  message := message
  severity := .error

def observationInputsAddress : String := "/observation_inputs"

section Resolve

variable {ρ : Type} [DecidableEq ρ] (digests : Digests ρ) (policy : Policy ρ)
  (request : DecisionRequest ρ) (prior : List (Decision ρ))

omit [DecidableEq ρ] in
def NamesPolicy : Prop :=
  request.policyId = policy.policyId ∧ request.policyVersion = policy.policyVersion ∧
    request.policyDigest = policy.policyDigest

instance : Decidable (NamesPolicy policy request) := inferInstanceAs (Decidable (_ ∧ _))

def validatePolicyIdentity : Option Diagnostic :=
  if NamesPolicy policy request then none
  else some (difficultyDiagnostic "difficulty.policy-mismatch" "/policy_id"
    "The decision request does not match the declared policy identity.")

def DecisionMatchesHistoryScope (decision : Decision ρ) (priorHead : Option String)
    (priorCut : Option ℕ) : Prop :=
  decision.priorHistoryHead = priorHead ∧ decision.policyId = policy.policyId ∧
    decision.policyVersion = policy.policyVersion ∧
    decision.policyDigest = policy.policyDigest ∧ decision.runId = request.runId ∧
    decision.stateCut.orderDomain = request.stateCut.orderDomain ∧
    decision.stateCut.episodeId = request.stateCut.episodeId ∧
    ∀ cut ∈ priorCut, cut < decision.stateCut.coordinate

instance (decision : Decision ρ) (priorHead : Option String) (priorCut : Option ℕ) :
    Decidable (DecisionMatchesHistoryScope policy request decision priorHead priorCut) :=
  inferInstanceAs (Decidable (_ ∧ _))

/-- The loop of `_validate_prior_history`. -/
def HistoryContinues : Option String → Option ℕ → List (Decision ρ) → Prop
  | _, _, [] => True
  | priorHead, priorCut, decision :: rest =>
    DecisionMatchesHistoryScope policy request decision priorHead priorCut ∧
      HistoryContinues (some decision.historyHead) (some decision.stateCut.coordinate) rest

instance decidableHistoryContinues : ∀ priorHead priorCut (decisions : List (Decision ρ)),
    Decidable (HistoryContinues policy request priorHead priorCut decisions)
  | _, _, [] => isTrue trivial
  | _, _, decision :: rest =>
    have := decidableHistoryContinues (some decision.historyHead)
      (some decision.stateCut.coordinate) rest
    inferInstanceAs (Decidable (_ ∧ _))

def validatePriorHistory : Option Diagnostic :=
  if HistoryContinues policy request none none prior then none
  else some (difficultyDiagnostic "difficulty.history-conflict" "/expected_history_head"
    "The supplied adaptive-decision history is discontinuous or belongs to another scope.")

def replayOrConflict : Option (Resolution ρ) :=
  (prior.find? fun decision => decision.idempotencyKey = request.idempotencyKey).map
    fun replay =>
      if replay.requestFingerprint = digests.fingerprint request then .decided replay
      else .refused (difficultyDiagnostic "difficulty.idempotency-conflict" "/idempotency_key"
        ("The idempotency identity was already used for a different bounded decision " ++
          "request."))

def priorHead : Option String := prior.getLast?.map Decision.historyHead

def validateHistory : Option Diagnostic :=
  if request.expectedHistoryHead ≠ priorHead prior then
    some (difficultyDiagnostic "difficulty.history-conflict" "/expected_history_head"
      "The expected adaptive-decision history head is stale.")
  else
    match prior.getLast? with
    | none => none
    | some previous =>
      if previous.stateCut.orderDomain = request.stateCut.orderDomain ∧
          previous.stateCut.episodeId = request.stateCut.episodeId ∧
          previous.stateCut.coordinate < request.stateCut.coordinate then none
      else some (difficultyDiagnostic "difficulty.state-cut-conflict" "/state_cut"
        "The adaptive-decision state cut must advance the current run episode order.")

/-! ## Observations and rules -/

def inputsBySource : Dict String (ObservationInput ρ) :=
  request.observationInputs.foldl (fun inputs item => inputs.set item.sourceId item) Dict.empty

/-- The check of one observation input against the source that the policy declares. -/
def observationFailure (source : ObservationSource ρ) (item : ObservationInput ρ) :
    Option Diagnostic :=
  if item.sourceRef ≠ source.sourceRef then
    some (difficultyDiagnostic "difficulty.observation-source-mismatch" observationInputsAddress
      "An observation input does not match the policy's exact source definition.")
  else if item.runId = request.runId ∧
      item.observedCut.episodeId = request.stateCut.episodeId ∧
      item.observedCut.orderDomain = request.stateCut.orderDomain ∧
      item.observedCut.coordinate ≤ request.stateCut.coordinate ∧
      request.stateCut.coordinate - item.observedCut.coordinate ≤ source.maximumAge then none
  else some (difficultyDiagnostic "difficulty.observation-cut-invalid" observationInputsAddress
    "An observation input is outside the declared run, episode, order, or freshness boundary.")

def validateObservations (sources : Dict String (ObservationSource ρ)) : Option Diagnostic :=
  if (∃ sourceId ∈ (inputsBySource request).keys, sourceId ∉ sources.keys) ∨
      ∃ sourceId ∈ sources.keys, sourceId ∉ (inputsBySource request).keys then
    some (difficultyDiagnostic "difficulty.observation-set-mismatch" observationInputsAddress
      "The decision request must supply exactly the policy's declared observation sources.")
  else (inputsBySource request).entries.findSome? fun entry =>
    (sources.get? entry.1).bind fun source => observationFailure request source entry.2

/-- The number that a value compares as: a `bool` is an `int`. -/
def ThresholdValue.number? : ThresholdValue → Option ℚ
  | .str _ => none
  | .number value => some value
  | .bool value => some (if value then 1 else 0)

/-- `==` of two values -/
def ThresholdValue.equals (a b : ThresholdValue) : Bool :=
  match a.number?, b.number? with
  | some m, some n => m = n
  | _, _ => a = b

/-- An ordered comparison, of two numbers that are not `bool`. -/
def ThresholdValue.ordered (comparator : ℚ → ℚ → Bool) : ThresholdValue → ThresholdValue → Bool
  | .number observed, .number threshold => comparator observed threshold
  | _, _ => false

def compare (rule : ThresholdRule) (observation : ObservationInput ρ) : Bool :=
  match rule.operator with
  | .eq => observation.value.equals rule.threshold
  | .ne => !observation.value.equals rule.threshold
  | .lt => observation.value.ordered (· < ·) rule.threshold
  | .lte => observation.value.ordered (· ≤ ·) rule.threshold
  | .gte => observation.value.ordered (· ≥ ·) rule.threshold
  | .gt => observation.value.ordered (· > ·) rule.threshold

def firstMatch (inputs : Dict String (ObservationInput ρ)) :
    List ThresholdRule → Except PyError (Option ThresholdRule)
  | [] => .ok none
  | rule :: rest =>
    match inputs.get? rule.observationSourceId with
    | none => .error (.keyError rule.observationSourceId)
    | some observation =>
      if compare rule observation then .ok (some rule) else firstMatch inputs rest

def selectedRule (authority : Authority ρ) : Except PyError (Option ThresholdRule) :=
  firstMatch (inputsBySource request)
    (sortBy ThresholdRule.priority authority.thresholdRules.values)

/-! ## Decisions -/

def affectedBy (selected : Option ThresholdRule) : Except PyError (List (String × String)) :=
  match selected, policy.authority with
  | none, _ => .ok []
  | some rule, none => .error (.keyError rule.actionId)
  | some rule, some authority =>
    match authority.actions.get? rule.actionId with
    | some affectedRefs => .ok affectedRefs
    | none => .error (.keyError rule.actionId)

/-- The first 24 characters of a fingerprint without its prefix. -/
def shortFingerprint (fingerprint : String) : String :=
  let digits := if "sha256:".toList.isPrefixOf fingerprint.toList then fingerprint.toList.drop 7
    else fingerprint.toList
  String.ofList (digits.take 24)

/-- `_decision_payload`, with the affected references resolved. -/
def decisionPayload (disposition : Disposition) (selected : Option ThresholdRule)
    (affectedRefs : List (String × String)) : DecisionPayload ρ where
  decisionId := "difficulty-decision-" ++ shortFingerprint (digests.fingerprint request)
  idempotencyKey := request.idempotencyKey
  requestFingerprint := digests.fingerprint request
  priorHistoryHead := priorHead prior
  policyId := policy.policyId
  policyVersion := policy.policyVersion
  policyDigest := policy.policyDigest
  runId := request.runId
  stateCut := request.stateCut
  observationRefs := request.observationInputs.map ObservationInput.toObservationReference
  triggerRuleId := selected.map ThresholdRule.ruleId
  selectedActionId := selected.map ThresholdRule.actionId
  affectedRefs := affectedRefs
  disposition := disposition
  decidedAt := request.requestedAt
  validityEffect := policy.validityEffect

/-- The validators of `DifficultyDecisionRecordModel` on a content. -/
def validateDecision (payload : DecisionPayload ρ) : Except PyError Unit := do
  refuseIf (¬ (payload.observationRefs.map ObservationReference.sourceId).Nodup)
    (valueError "difficulty decision observation source ids must be unique")
  refuseIf (∃ observation ∈ payload.observationRefs, ¬ (observation.runId = payload.runId ∧
      observation.observedCut.orderDomain = payload.stateCut.orderDomain ∧
      observation.observedCut.episodeId = payload.stateCut.episodeId ∧
      observation.observedCut.coordinate ≤ payload.stateCut.coordinate))
    (valueError "difficulty decision observations must precede the decision in one run scope")
  refuseIf (payload.disposition = .selected ∧ (payload.triggerRuleId = none ∨
      payload.selectedActionId = none ∨ payload.affectedRefs = [] ∨
      payload.observationRefs = []))
    (valueError
      "selected difficulty decisions require trigger, action, affected, and observation refs")
  refuseIf (payload.disposition ≠ .selected ∧ (payload.triggerRuleId ≠ none ∨
      payload.selectedActionId ≠ none ∨ payload.affectedRefs ≠ []))
    (valueError "selected actions require selected disposition")

/-- `_decision_result`: the decision is sealed with its history head. -/
def decisionResult (disposition : Disposition) (selected : Option ThresholdRule) :
    Except PyError (Resolution ρ) := do
  let affectedRefs ← affectedBy policy selected
  let payload := decisionPayload digests policy request prior disposition selected affectedRefs
  validateDecision payload
  return .decided { payload with historyHead := digests.historyHead payload }

def lastSelected : Option (Decision ρ) :=
  prior.reverse.find? fun decision => decision.disposition = .selected

def boundedDisposition : Option Disposition :=
  if request.interventionCount ≥ policy.bounds.maximumInterventions then some .terminal
  else
    match prior.getLast? with
    | none => none
    | some previous =>
      if request.stateCut.coordinate <
          previous.stateCut.coordinate + policy.bounds.minimumDecisionInterval then some .denied
      else if ∃ selected ∈ lastSelected prior, request.stateCut.coordinate <
          selected.stateCut.coordinate + policy.bounds.cooldown then some .denied
      else none

def resolveAdaptivePolicy (authority : Authority ρ) : Except PyError (Resolution ρ) :=
  match validateObservations request authority.observationSources with
  | some diagnostic => .ok (.refused diagnostic)
  | none =>
    if authority.evaluatorRef ≠ digests.supportedEvaluator then
      decisionResult digests policy request prior .unsupported none
    else
      match boundedDisposition policy request prior with
      | some bounded => decisionResult digests policy request prior bounded none
      | none => do
        let selected ← selectedRule request authority
        decisionResult digests policy request prior
          (if selected.isSome then .selected else .noChange) selected

def resolveNewDecision : Except PyError (Resolution ρ) :=
  match policy.authority with
  | some authority => resolveAdaptivePolicy digests policy request prior authority
  | none =>
    if request.observationInputs ≠ [] ∨ request.interventionCount ≠ 0 then
      .ok (.refused (difficultyDiagnostic "difficulty.fixed-authority-invalid"
        observationInputsAddress
        "Fixed difficulty requests must not supply adaptive observations or intervention state."))
    else decisionResult digests policy request prior .fixed none

def resolveDifficultyPolicy : Except PyError (Resolution ρ) :=
  match validatePolicyIdentity policy request with
  | some diagnostic => .ok (.refused diagnostic)
  | none =>
    match validatePriorHistory policy request prior with
    | some diagnostic => .ok (.refused diagnostic)
    | none =>
      match replayOrConflict digests request prior with
      | some resolution => .ok resolution
      | none =>
        match validateHistory request prior with
        | some diagnostic => .ok (.refused diagnostic)
        | none => resolveNewDecision digests policy request prior

end Resolve

end Raes.Difficulty
