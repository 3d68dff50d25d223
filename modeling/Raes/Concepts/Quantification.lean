import Mathlib.Data.Prod.Lex
import Mathlib.Data.String.Basic
import Raes.Lib.Dict
import Raes.Lib.ExceptList
import Raes.Lib.PartialKnowledge
import Raes.Lib.SortBy

/-!
# Quantified rows of a semantic projection

`raes_contracts/semantic_projection_quantification.py`.  A concept is classified
by a quantifier over native subjects, or over pairs of a binding and its subject.
The native results of a unit are joined, a unit without a result is unknown, and
differing results of one unit make the row ambiguous.
-/

namespace Raes.Concepts

open PyError

/-- A subject coordinate; its `_subject_key` is the tuple of all its members. -/
structure Subject where
  (subjectKind owningContractId lifecyclePhase canonicalRef artifactDigest : String)
  deriving DecidableEq, Repr

inductive FactOutcome where
  | satisfied
  | notSatisfied
  | unknown
  | unsupported
  deriving DecidableEq, Repr

structure Fact where
  subject : Subject
  outcome : FactOutcome
  (nativeResultId nativeResultDigest producerContractId : String)
  evidenceDigests : List String

structure Binding where
  bindingId : String
  subject : Subject

structure BindingObservation where
  (bindingId resolutionOutcome relationshipKind semanticEffect confidencePosture : String)
  approximationPosture : String
  (lossDetails limitations : List String)
  reviewStatus : String
  deriving DecidableEq

inductive QuantifiedUnit where
  | distinctNativeSubjects
  | bindingSubjectPairs
  deriving DecidableEq, Repr

/-- The kind of a quantifier.  A threshold is there for one kind only, and is positive. -/
inductive QuantifierKind where
  | existential
  | universal
  | threshold (least : { n : ℕ // 1 ≤ n ∧ n ≤ 4096 })

structure Frame where
  scopeComplete : Bool
  kind : QuantifierKind
  quantifiedUnit : QuantifiedUnit
  profileDigest : String

inductive Classification where
  | witness
  | gap
  | unknown
  | ambiguous
  | excluded
  deriving DecidableEq, Repr

structure Witness where
  subject : Subject
  (nativeResultId nativeResultDigest producerContractId predicateProfileDigest : String)
  evidenceDigests : List String
  deriving DecidableEq

structure Row where
  conceptId : String
  classification : Classification
  bindings : List BindingObservation
  witnesses : List Witness
  reasonCodes : List String
  deriving DecidableEq

def requireSortedUnique {α : Type} [LinearOrder α] (values : List α) (label : String) :
    Except PyError Unit :=
  refuseIf (¬ values.Pairwise (· < ·)) (valueError (label ++ " must be sorted and unique"))

def Witness.validate (witness : Witness) : Except PyError Unit := do
  refuseIf (witness.evidenceDigests.length < 1)
    (valueError "evidence_digests should have at least 1 item")
  refuseIf (witness.evidenceDigests.length > 256)
    (valueError "evidence_digests should have at most 256 items")
  requireSortedUnique witness.evidenceDigests "witness evidence digests"

def Witness.key (witness : Witness) : String ×ₗ String ×ₗ String ×ₗ String :=
  toLex (witness.subject.canonicalRef, toLex (witness.subject.artifactDigest,
    toLex (witness.nativeResultId, witness.nativeResultDigest)))

def Row.validate (row : Row) : Except PyError Unit := do
  refuseIf (row.bindings.length > 4096) (valueError "bindings should have at most 4096 items")
  refuseIf (row.witnesses.length > 4096) (valueError "witnesses should have at most 4096 items")
  requireSortedUnique (row.bindings.map BindingObservation.bindingId) "row bindings"
  requireSortedUnique (row.witnesses.map Witness.key) "row witnesses"
  requireSortedUnique row.reasonCodes "row reason codes"
  refuseIf (decide (row.classification = .witness) ≠ !row.witnesses.isEmpty)
    (valueError "only witness rows carry one or more replayable witnesses")

def Row.make (row : Row) : Except PyError Row := do
  row.validate
  return row

inductive UnitKey where
  | subject (subject : Subject)
  | pair (bindingId : String) (subject : Subject)
  deriving DecidableEq

variable (frame : Frame)

def Frame.unitKey (binding : Binding) : UnitKey :=
  match frame.quantifiedUnit with
  | .distinctNativeSubjects => .subject binding.subject
  | .bindingSubjectPairs => .pair binding.bindingId binding.subject

/-- The units that have no result yet. -/
def populationKeys (allBindings : List Binding) (subjects : List Subject) : List UnitKey :=
  match frame.quantifiedUnit with
  | .distinctNativeSubjects => subjects.map .subject
  | .bindingSubjectPairs => allBindings.map fun binding =>
      .pair binding.bindingId binding.subject

/-- `units.setdefault(key, []).extend(...)` -/
def joinFacts (facts : List Fact) (units : Dict UnitKey (List Fact))
    (binding : Binding) : Dict UnitKey (List Fact) :=
  units.set (frame.unitKey binding) (((units.get? (frame.unitKey binding)).getD []) ++
    facts.filter fun fact => fact.subject = binding.subject)

def quantifiedUnits (allBindings bindings : List Binding) (facts : List Fact)
    (subjects : List Subject) : Dict UnitKey (List Fact) :=
  bindings.foldl (joinFacts frame facts)
    ((populationKeys frame allBindings subjects).foldl (fun units key => units.set key [])
      Dict.empty)

def unitOutcome (unitFacts : List Fact) : FactOutcome :=
  match unitFacts with
  | [] => .unknown
  | fact :: _ => fact.outcome

structure OutcomeCounts where
  (satisfied notSatisfied unknown : ℕ)

def unitOutcomeCounts (units : List (List Fact)) : OutcomeCounts :=
  let unitOutcomes := units.map unitOutcome
  let satisfied := unitOutcomes.count .satisfied
  let notSatisfied := unitOutcomes.count .notSatisfied
  ⟨satisfied, notSatisfied, unitOutcomes.length - satisfied - notSatisfied⟩

def existentialClassification (population : ℕ) (counts : OutcomeCounts) : Classification :=
  if counts.satisfied ≠ 0 then .witness
  else if frame.scopeComplete ∧ counts.notSatisfied = population then .gap
  else .unknown

def universalClassification (population : ℕ) (counts : OutcomeCounts) : Classification :=
  if counts.satisfied = population then .witness
  else if frame.scopeComplete ∧ counts.notSatisfied ≠ 0 then .gap
  else .unknown

def thresholdClassification (threshold : ℕ) (counts : OutcomeCounts) : Classification :=
  if counts.satisfied ≥ threshold then .witness
  else if frame.scopeComplete ∧ counts.satisfied + counts.unknown < threshold then .gap
  else .unknown

def quantifiedClassification (population : ℕ) (counts : OutcomeCounts) : Classification :=
  if population = 0 then .unknown
  else
    match frame.kind with
    | .existential => existentialClassification frame population counts
    | .universal => universalClassification frame population counts
    | .threshold least => thresholdClassification frame least.1 counts

/-- `_QUANTIFIED_REASON_CODES` -/
def projectionReasonCodes : Classification → Except PyError (List String)
  | .witness => .ok []
  | .gap => .ok ["decisive-native-negative"]
  | .unknown => .ok ["native-result-undecidable"]
  | .ambiguous => .error (.keyError "ambiguous")
  | .excluded => .error (.keyError "excluded")

def witnessOf (fact : Fact) : Except PyError Witness := do
  let witness : Witness := ⟨fact.subject, fact.nativeResultId, fact.nativeResultDigest,
    fact.producerContractId, frame.profileDigest, fact.evidenceDigests⟩
  witness.validate
  return witness

def projectionWitnesses (bindings : List Binding) (facts : List Fact) :
    Except PyError (List Witness) := do
  let selected := facts.filter fun fact =>
    fact.outcome = .satisfied ∧ bindings.any fun binding => fact.subject = binding.subject
  let witnesses ← selected.mapM (witnessOf frame)
  return sortBy Witness.key witnesses

def conflicting (unitFacts : List Fact) : Bool :=
  (unitFacts.map Fact.outcome).dedup.length > 1

def QuantifierKind.threshold? : QuantifierKind → Option ℕ
  | .existential => none
  | .universal => none
  | .threshold least => some least.1

def quantifiedProjectionRow (conceptId : String) (frame : Frame)
    (observations : List BindingObservation) (allBindings bindings : List Binding)
    (facts : List Fact) (subjects : List Subject) : Except PyError Row := do
  let units := (quantifiedUnits frame allBindings bindings facts subjects).values
  refuseIf (frame.kind.threshold?.any fun threshold => threshold > units.length)
    (valueError "projection threshold cannot exceed the exact finite quantified population")
  if units.any conflicting then
    Row.make ⟨conceptId, .ambiguous, observations, [], ["ambiguous-native-result-join"]⟩
  else do
    let classification := quantifiedClassification frame units.length (unitOutcomeCounts units)
    let witnesses ← projectionWitnesses frame bindings facts
    let reasonCodes ← projectionReasonCodes classification
    Row.make ⟨conceptId, classification, observations,
      if classification = .witness then witnesses else [], reasonCodes⟩

/-- A truth value that agrees with every decided fact of a unit. -/
def Settles (unitFacts : List Fact) (value : Bool) : Prop :=
  (∀ fact ∈ unitFacts, fact.outcome = .satisfied → value = true) ∧
    ∀ fact ∈ unitFacts, fact.outcome = .notSatisfied → value = false

def Completion (units : List (List Fact)) (values : List Bool) : Prop :=
  Completes Settles (frame.scopeComplete = true) units values

def Frame.statement (frame : Frame) : Quantified :=
  match frame.kind with
  | .existential => .existential
  | .universal => .universal
  | .threshold least => .threshold least.1

def FactOutcome.known : FactOutcome → Known
  | .satisfied => .yes
  | .notSatisfied => .no
  | .unknown => .unknown
  | .unsupported => .unknown

theorem conflicting_iff (unitFacts : List Fact) :
    conflicting unitFacts = true ↔
      ∃ a ∈ unitFacts, ∃ b ∈ unitFacts, a.outcome ≠ b.outcome := by
  unfold conflicting
  rw [decide_eq_true_iff]
  constructor
  · intro hlength
    by_contra hsame
    simp only [not_exists, not_and, not_not] at hsame
    cases unitFacts with
    | nil => simp at hlength
    | cons fact rest =>
      have hall : ∀ outcome ∈ ((fact :: rest).map Fact.outcome).dedup,
          outcome = fact.outcome := by
        intro outcome houtcome
        obtain ⟨other, hother, rfl⟩ := List.mem_map.mp (List.mem_dedup.mp houtcome)
        exact hsame other hother fact List.mem_cons_self
      have hreplicate := List.eq_replicate_of_mem hall
      have hnodup := List.nodup_dedup ((fact :: rest).map Fact.outcome)
      rw [hreplicate, List.nodup_replicate] at hnodup
      omega
  · rintro ⟨a, ha, b, hb, hne⟩
    have hmemA := List.mem_dedup.mpr (List.mem_map_of_mem ha (f := Fact.outcome))
    have hmemB := List.mem_dedup.mpr (List.mem_map_of_mem hb (f := Fact.outcome))
    by_contra hle
    match hlist : (unitFacts.map Fact.outcome).dedup with
    | [] =>
      rw [hlist] at hmemA
      cases hmemA
    | [outcome] =>
      rw [hlist, List.mem_singleton] at hmemA hmemB
      exact hne (hmemA.trans hmemB.symm)
    | _ :: _ :: rest =>
      rw [hlist] at hle
      simp at hle

theorem settles_iff_allows {unitFacts : List Fact} (h : conflicting unitFacts = false)
    (value : Bool) : Settles unitFacts value ↔ (unitOutcome unitFacts).known.Allows value := by
  have hsame : ∀ a ∈ unitFacts, ∀ b ∈ unitFacts, a.outcome = b.outcome := by
    intro a ha b hb
    by_contra hne
    have hconflict := (conflicting_iff unitFacts).mpr ⟨a, ha, b, hb, hne⟩
    rw [h] at hconflict
    cases hconflict
  cases unitFacts with
  | nil => exact iff_of_true ⟨fun _ hfact => (nomatch hfact), fun _ hfact => (nomatch hfact)⟩ trivial
  | cons first rest =>
    have hfirst : ∀ fact ∈ first :: rest, fact.outcome = first.outcome := fun fact hfact =>
      hsame fact hfact first List.mem_cons_self
    show Settles (first :: rest) value ↔ first.outcome.known.Allows value
    constructor
    · intro hsettles
      cases houtcome : first.outcome with
      | satisfied => exact hsettles.1 first List.mem_cons_self houtcome
      | notSatisfied => exact hsettles.2 first List.mem_cons_self houtcome
      | unknown => trivial
      | unsupported => trivial
    · intro hallows
      constructor
      · intro fact hfact houtcome
        rw [← hfirst fact hfact, houtcome] at hallows
        exact hallows
      · intro fact hfact houtcome
        rw [← hfirst fact hfact, houtcome] at hallows
        exact hallows

section Counts

variable {units : List (List Fact)}

def knownUnits (units : List (List Fact)) : List Known :=
  units.map fun unitFacts => (unitOutcome unitFacts).known

theorem completion_iff (hunits : ∀ unitFacts ∈ units, conflicting unitFacts = false)
    (complete : Prop) (values : List Bool) : Completes Settles complete units values ↔
      Completes Known.Allows complete (knownUnits units) values := by
  have hsettled : ∀ settled, List.Forall₂ Settles units settled ↔
      List.Forall₂ Known.Allows (knownUnits units) settled := by
    intro settled
    rw [knownUnits, List.forall₂_map_left_iff]
    induction units generalizing settled with
    | nil => simp
    | cons unitFacts rest ih =>
      rw [List.forall_mem_cons] at hunits
      simp only [List.forall₂_cons_left_iff, ih hunits.2, settles_iff_allows hunits.1]
  unfold Completes
  simp only [hsettled]

theorem undecided_iff (hunits : ∀ unitFacts ∈ units, conflicting unitFacts = false)
    (complete : Prop) (statement : Quantified) : Undecided Settles complete units statement ↔
      Undecided Known.Allows complete (knownUnits units) statement := by
  unfold Undecided
  simp only [completion_iff hunits]

theorem count_outcome (units : List (List Fact)) :
    (units.map unitOutcome).count .satisfied = (knownUnits units).count .yes ∧
      (units.map unitOutcome).count .notSatisfied = (knownUnits units).count .no := by
  unfold knownUnits
  induction units with
  | nil => exact ⟨rfl, rfl⟩
  | cons unitFacts rest ih =>
    simp only [List.map_cons, List.count_cons, ih.1, ih.2]
    cases unitOutcome unitFacts <;> exact ⟨rfl, rfl⟩

theorem unitOutcomeCounts_spec (units : List (List Fact)) :
    (unitOutcomeCounts units).satisfied = (knownUnits units).count .yes ∧
      (unitOutcomeCounts units).notSatisfied = (knownUnits units).count .no ∧
      (unitOutcomeCounts units).unknown = (knownUnits units).count .unknown := by
  obtain ⟨hyes, hno⟩ := count_outcome units
  have hsum := count_add_count_add_count (knownUnits units)
  have hlength : (knownUnits units).length = units.length := List.length_map _
  refine ⟨hyes, hno, ?_⟩
  show (units.map unitOutcome).length - (units.map unitOutcome).count .satisfied -
    (units.map unitOutcome).count .notSatisfied = _
  rw [hyes, hno, List.length_map]
  omega

end Counts

/-- A universal statement over an open scope.  A unit that fails refutes it, and yet
is no gap: a gap needs a complete scope.  Nor do its own units, all satisfied,
establish it. -/
def Frame.UniversalOpen (frame : Frame) : Prop :=
  frame.kind = .universal ∧ frame.scopeComplete = false

/-- What a classification says of the quantified statement. -/
structure Sound (frame : Frame) (units : List (List Fact)) (classification : Classification) :
    Prop where
  witness : classification = .witness → ¬ frame.UniversalOpen →
    ∀ values, Completion frame units values → frame.statement.Holds values
  gap : classification = .gap →
    ∀ values, Completion frame units values → ¬ frame.statement.Holds values
  unknown : classification = .unknown → units = [] ∨
    (frame.UniversalOpen ∧ ∃ unitFacts ∈ units, unitOutcome unitFacts = .notSatisfied) ∨
    Undecided Settles (frame.scopeComplete = true) units frame.statement

section Kinds

variable {frame : Frame} {units : List (List Fact)}

theorem sound_threshold (hunits : ∀ unitFacts ∈ units, conflicting unitFacts = false) {least : ℕ}
    (hstatement : ∀ values, frame.statement.Holds values ↔
      (Quantified.threshold least).Holds values)
    {classification : Classification}
    (hclassification : classification =
      thresholdClassification frame least (unitOutcomeCounts units)) :
    Sound frame units classification := by
  obtain ⟨hyes, -, hunknown⟩ := unitOutcomeCounts_spec units
  have hundecided : Undecided Settles (frame.scopeComplete = true) units frame.statement ↔
      Undecided Known.Allows (frame.scopeComplete = true) (knownUnits units)
        (.threshold least) := by
    rw [undecided_iff hunits]
    unfold Undecided
    simp only [hstatement]
  unfold thresholdClassification at hclassification
  rw [hyes, hunknown] at hclassification
  subst hclassification
  by_cases hwitness : (knownUnits units).count .yes ≥ least
  · rw [if_pos hwitness]
    refine ⟨fun _ _ values hvalues => ?_, fun h => (nomatch h), fun h => (nomatch h)⟩
    rw [hstatement]
    exact holds_threshold_of_le hwitness ((completion_iff hunits _ values).mp hvalues)
  · rw [if_neg hwitness]
    by_cases hgap : frame.scopeComplete = true ∧
        (knownUnits units).count .yes + (knownUnits units).count .unknown < least
    · rw [if_pos hgap]
      refine ⟨fun h => (nomatch h), fun _ values hvalues => ?_, fun h => (nomatch h)⟩
      rw [hstatement]
      exact not_holds_threshold_of_lt hgap.1 hgap.2 ((completion_iff hunits _ values).mp hvalues)
    · rw [if_neg hgap]
      refine ⟨fun h => (nomatch h), fun h => (nomatch h), fun _ => Or.inr (Or.inr ?_)⟩
      rw [hundecided]
      refine undecided_threshold (by omega) fun hcomplete => ?_
      rw [not_and, not_lt] at hgap
      exact hgap hcomplete

theorem existentialClassification_eq (frame : Frame) (units : List (List Fact)) :
    existentialClassification frame units.length (unitOutcomeCounts units) =
      thresholdClassification frame 1 (unitOutcomeCounts units) := by
  obtain ⟨hyes, hno, hunknown⟩ := unitOutcomeCounts_spec units
  have hsum := count_add_count_add_count (knownUnits units)
  have hlength : (knownUnits units).length = units.length := List.length_map _
  unfold existentialClassification thresholdClassification
  rw [hyes, hno, hunknown]
  by_cases hwitness : (knownUnits units).count .yes = 0
  · have hleast : ¬ (knownUnits units).count .yes ≥ 1 := by omega
    have hgap : (knownUnits units).count .no = units.length ↔
        (knownUnits units).count .yes + (knownUnits units).count .unknown < 1 := by omega
    rw [if_neg (not_not.mpr hwitness), if_neg hleast]
    simp only [hgap]
  · have hleast : (knownUnits units).count .yes ≥ 1 := by omega
    rw [if_pos hwitness, if_pos hleast]

theorem exists_notSatisfied_of_count (h : 0 < (knownUnits units).count .no) :
    ∃ unitFacts ∈ units, unitOutcome unitFacts = .notSatisfied := by
  obtain ⟨unitFacts, hmem, hknown⟩ := List.mem_map.mp (List.count_pos_iff.mp h)
  refine ⟨unitFacts, hmem, ?_⟩
  cases houtcome : unitOutcome unitFacts <;> rw [houtcome] at hknown <;> first | rfl | cases hknown

theorem sound_universal (hunits : ∀ unitFacts ∈ units, conflicting unitFacts = false)
    (hkind : frame.kind = .universal) {classification : Classification}
    (hclassification : classification =
      universalClassification frame units.length (unitOutcomeCounts units)) :
    Sound frame units classification := by
  obtain ⟨hyes, hno, -⟩ := unitOutcomeCounts_spec units
  have hlength : (knownUnits units).length = units.length := List.length_map _
  have hstatement : frame.statement = .universal := by
    unfold Frame.statement
    rw [hkind]
  unfold universalClassification at hclassification
  rw [hyes, hno, ← hlength] at hclassification
  subst hclassification
  by_cases hwitness : (knownUnits units).count .yes = (knownUnits units).length
  · rw [if_pos hwitness]
    refine ⟨fun _ hclosed values hvalues => ?_, fun h => (nomatch h), fun h => (nomatch h)⟩
    have hcomplete : frame.scopeComplete = true := by
      cases hscope : frame.scopeComplete with
      | true => rfl
      | false => exact absurd ⟨hkind, hscope⟩ hclosed
    rw [hstatement]
    exact holds_universal_of_all hcomplete hwitness ((completion_iff hunits _ values).mp hvalues)
  · rw [if_neg hwitness]
    by_cases hgap : frame.scopeComplete = true ∧ (knownUnits units).count .no ≠ 0
    · rw [if_pos hgap]
      refine ⟨fun h => (nomatch h), fun _ values hvalues => ?_, fun h => (nomatch h)⟩
      rw [hstatement]
      exact not_holds_universal_of_no (Nat.pos_of_ne_zero hgap.2)
        ((completion_iff hunits _ values).mp hvalues)
    · rw [if_neg hgap]
      refine ⟨fun h => (nomatch h), fun h => (nomatch h), fun _ => Or.inr ?_⟩
      by_cases hnone : (knownUnits units).count .no = 0
      · right
        rw [undecided_iff hunits, hstatement]
        exact undecided_universal hnone hwitness
      · left
        refine ⟨⟨hkind, ?_⟩, exists_notSatisfied_of_count (Nat.pos_of_ne_zero hnone)⟩
        cases hscope : frame.scopeComplete with
        | true => exact absurd ⟨hscope, hnone⟩ hgap
        | false => rfl

theorem sound_classification (hunits : ∀ unitFacts ∈ units, conflicting unitFacts = false) :
    Sound frame units
      (quantifiedClassification frame units.length (unitOutcomeCounts units)) := by
  unfold quantifiedClassification
  by_cases hempty : units.length = 0
  · rw [if_pos hempty]
    exact ⟨fun h => (nomatch h), fun h => (nomatch h),
      fun _ => Or.inl (List.length_eq_zero_iff.mp hempty)⟩
  · rw [if_neg hempty]
    cases hkind : frame.kind with
    | existential =>
      refine sound_threshold hunits (fun values => ?_) (existentialClassification_eq frame units)
      unfold Frame.statement
      rw [hkind]
      exact holds_existential_iff values
    | universal => exact sound_universal hunits hkind rfl
    | threshold least =>
      refine sound_threshold hunits (fun values => ?_) rfl
      unfold Frame.statement
      rw [hkind]

end Kinds

theorem Row.make_eq_ok {row made : Row} (h : row.make = .ok made) : made = row := by
  unfold Row.make at h
  rw [seq_eq_ok_iff] at h
  exact (Except.ok.inj h.2).symm

theorem projectionReasonCodes_ok {classification : Classification} {codes : List String}
    (h : projectionReasonCodes classification = .ok codes) : classification ≠ .ambiguous := by
  rintro rfl
  cases h

/-- A returned row is ambiguous exactly when the results of some unit disagree.  Otherwise it
says no more of the quantified statement than holds for all resolutions of the unknown units
and all additions to an open scope. -/
theorem quantifiedProjectionRow_sound (conceptId : String) (frame : Frame)
    (observations : List BindingObservation) (allBindings bindings : List Binding)
    (facts : List Fact) (subjects : List Subject) (row : Row)
    (h : quantifiedProjectionRow conceptId frame observations allBindings bindings facts
      subjects = .ok row) :
    (row.classification = .ambiguous ↔
      ∃ unitFacts ∈ (quantifiedUnits frame allBindings bindings facts subjects).values,
        ∃ a ∈ unitFacts, ∃ b ∈ unitFacts, a.outcome ≠ b.outcome) ∧
    Sound frame (quantifiedUnits frame allBindings bindings facts subjects).values
      row.classification := by
  unfold quantifiedProjectionRow at h
  rw [seq_eq_ok_iff] at h
  obtain ⟨-, h⟩ := h
  by_cases hany : (quantifiedUnits frame allBindings bindings facts subjects).values.any
      conflicting = true
  · rw [if_pos hany] at h
    have hclassification : row.classification = .ambiguous := by
      rw [Row.make_eq_ok h]
    rw [hclassification]
    obtain ⟨unitFacts, hmem, hconflict⟩ := List.any_eq_true.mp hany
    exact ⟨iff_of_true rfl ⟨unitFacts, hmem, (conflicting_iff unitFacts).mp hconflict⟩,
      ⟨fun h => (nomatch h), fun h => (nomatch h), fun h => (nomatch h)⟩⟩
  · rw [if_neg hany] at h
    obtain ⟨witnesses, -, h⟩ := bind_eq_ok_iff.mp h
    obtain ⟨codes, hcodes, h⟩ := bind_eq_ok_iff.mp h
    have hunits : ∀ unitFacts ∈
        (quantifiedUnits frame allBindings bindings facts subjects).values,
        conflicting unitFacts = false := by
      intro unitFacts hmem
      by_contra hconflict
      exact hany (List.any_eq_true.mpr ⟨unitFacts, hmem, eq_true_of_ne_false hconflict⟩)
    have hnone : ¬ ∃ unitFacts ∈
        (quantifiedUnits frame allBindings bindings facts subjects).values,
        ∃ a ∈ unitFacts, ∃ b ∈ unitFacts, a.outcome ≠ b.outcome := by
      rintro ⟨unitFacts, hmem, hconflict⟩
      have hagreed := hunits unitFacts hmem
      rw [(conflicting_iff unitFacts).mpr hconflict] at hagreed
      cases hagreed
    have hsound : Sound frame _ (quantifiedClassification frame _ (unitOutcomeCounts _)) :=
      sound_classification hunits
    rw [Row.make_eq_ok h]
    exact ⟨iff_of_false (projectionReasonCodes_ok hcodes) hnone, hsound⟩

def rackSubject : Subject :=
  ⟨"node", "sdl-authoring-input-v1", "compiled", "nodes.rack", "sha256:rack"⟩

def openUniversal : Frame := ⟨false, .universal, .distinctNativeSubjects, "sha256:profile"⟩

def rackFact (outcome : FactOutcome) : Fact :=
  ⟨rackSubject, outcome, "result.1", "sha256:result", "proposition-truth-result-v1",
    ["sha256:evidence"]⟩

def openRow (outcome : FactOutcome) : Except PyError Row :=
  quantifiedProjectionRow "concept.1" openUniversal [] [⟨"binding.1", rackSubject⟩]
    [⟨"binding.1", rackSubject⟩] [rackFact outcome] [rackSubject]

/-- In an open scope a subject that fails leaves a universal row unknown, though no completion
makes the statement true, and a subject that satisfies makes it a witness, though a further
subject makes the statement false. -/
theorem open_universal_row :
    (∃ row, openRow .notSatisfied = .ok row ∧ row.classification = .unknown ∧
      ∀ values, Completion openUniversal [[rackFact .notSatisfied]] values →
        ¬ openUniversal.statement.Holds values) ∧
    ∃ row, openRow .satisfied = .ok row ∧ row.classification = .witness ∧
      ∃ values, Completion openUniversal [[rackFact .satisfied]] values ∧
        ¬ openUniversal.statement.Holds values := by
  constructor
  · refine ⟨⟨"concept.1", .unknown, [], [], ["native-result-undecidable"]⟩, by decide +kernel,
      rfl, ?_⟩
    rintro values ⟨settled, added, rfl, hsettled, -⟩ hholds
    obtain ⟨value, rest, hvalue, -, rfl⟩ := List.forall₂_cons_left_iff.mp hsettled
    have hfalse := hvalue.2 _ List.mem_cons_self rfl
    have htrue := hholds value (List.mem_append_left _ List.mem_cons_self)
    rw [hfalse] at htrue
    cases htrue
  · have hsettled : List.Forall₂ Settles [[rackFact .satisfied]] [true] := by
      refine .cons ⟨fun _ _ _ => rfl, fun fact hfact houtcome => ?_⟩ .nil
      rw [List.mem_singleton.mp hfact] at houtcome
      cases houtcome
    refine ⟨⟨"concept.1", .witness, [], [⟨rackSubject, "result.1", "sha256:result",
      "proposition-truth-result-v1", "sha256:profile", ["sha256:evidence"]⟩], []⟩,
      by decide +kernel, rfl, [true, false], completes_of_added (by decide) hsettled [false], ?_⟩
    intro hholds
    cases hholds false (List.mem_cons_of_mem _ List.mem_cons_self)

theorem quantifiedProjectionRow_sound_rack :
    (Classification.unknown = .ambiguous ↔
      ∃ unitFacts ∈ (quantifiedUnits openUniversal [⟨"binding.1", rackSubject⟩]
          [⟨"binding.1", rackSubject⟩] [rackFact .notSatisfied] [rackSubject]).values,
        ∃ a ∈ unitFacts, ∃ b ∈ unitFacts, a.outcome ≠ b.outcome) ∧
    Sound openUniversal (quantifiedUnits openUniversal [⟨"binding.1", rackSubject⟩]
      [⟨"binding.1", rackSubject⟩] [rackFact .notSatisfied] [rackSubject]).values .unknown :=
  quantifiedProjectionRow_sound "concept.1" openUniversal [] [⟨"binding.1", rackSubject⟩]
    [⟨"binding.1", rackSubject⟩] [rackFact .notSatisfied] [rackSubject]
    ⟨"concept.1", .unknown, [], [], ["native-result-undecidable"]⟩ (by decide +kernel)

end Raes.Concepts
