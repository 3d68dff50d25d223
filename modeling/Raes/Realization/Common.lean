import Raes.Contracts.Diagnostics
import Raes.Lib.Verdict
import Raes.Realization.Models

/-!
# Finite work and results

`realization_structure/_common.py`: the budget of one relation, its results, the
comparison of JSON values, and the admission of a value before it is evaluated.
-/

namespace Raes.Realization

open Stateful Verdict

/-! ## Results -/

/-- One bounded relation outcome; only `conformant` is a success claim. -/
structure RelationResult where
  status : RelationStatus
  diagnostics : List Diagnostic
  deriving DecidableEq

def conformantResult : RelationResult := ⟨.conformant, []⟩

def recursiveDiagnostic (code pointer message : String) : Diagnostic :=
  ⟨code, "realization", pointer, message, .error⟩

def relationResult (status : RelationStatus) (pointer message : String) : RelationResult :=
  ⟨status, [recursiveDiagnostic ("realization." ++ status.value) pointer message]⟩

/-- The statuses that hide a later one, and `conformant`. -/
def precedence : List RelationStatus :=
  [.limitExceeded, .invalid, .unsupported, .nonconformant, .unresolved]

variable (maxDiagnostics : ℕ)

def combineRelationResults (results : List RelationResult) : RelationResult :=
  match precedence.find? fun status => results.any fun result => result.status = status with
  | some status =>
    let matching := results.filter fun result => result.status = status
    ⟨status, (matching.flatMap RelationResult.diagnostics).take maxDiagnostics⟩
  | none => conformantResult

/-- A result is good when it is conformant; a limit was spent when it says so. -/
def reading : Reading RelationResult where
  good result := result.status = .conformant
  spent result := result.status = .limitExceeded

@[simp] theorem good_iff (result : RelationResult) :
    reading.good result ↔ result.status = .conformant := Iff.rfl

@[simp] theorem spent_iff (result : RelationResult) :
    reading.spent result ↔ result.status = .limitExceeded := Iff.rfl

@[simp] theorem relationResult_status (status : RelationStatus) (pointer message : String) :
    (relationResult status pointer message).status = status := rfl

theorem combine_conformant_iff (results : List RelationResult) :
    (combineRelationResults maxDiagnostics results).status = .conformant ↔
      ∀ result ∈ results, result.status = .conformant := by
  unfold combineRelationResults
  split
  · next status hfind =>
    have hany := List.find?_some hfind
    have hmem := List.mem_of_find?_eq_some hfind
    simp only [List.any_eq_true, decide_eq_true_eq] at hany
    obtain ⟨result, hresult, rfl⟩ := hany
    refine iff_of_false (fun h => ?_) fun h => ?_
    · have hstatus : result.status = .conformant := h
      rw [hstatus] at hmem
      exact absurd hmem (by decide)
    · rw [h result hresult] at hmem
      exact absurd hmem (by decide)
  · next hfind =>
    refine iff_of_true rfl fun result hresult => ?_
    have hnone := List.find?_eq_none.mp hfind
    cases hstatus : result.status with
    | conformant => rfl
    | nonconformant | unresolved | invalid | unsupported | limitExceeded =>
      refine absurd ?_ (hnone result.status (by rw [hstatus]; decide))
      simp only [List.any_eq_true, decide_eq_true_eq]
      exact ⟨result, hresult, rfl⟩

theorem combine_spent (results : List RelationResult)
    (h : ∃ result ∈ results, result.status = .limitExceeded) :
    (combineRelationResults maxDiagnostics results).status = .limitExceeded := by
  have hany : (results.any fun result => result.status = .limitExceeded) = true := by
    simpa using h
  simp only [combineRelationResults, precedence, List.find?_cons, hany]

theorem combines : Combines reading (combineRelationResults maxDiagnostics) where
  good := combine_conformant_iff maxDiagnostics
  spent := combine_spent maxDiagnostics

/-! ## Budgets -/

/-- What a relation has spent. -/
structure RelationBudget where
  (nodes operations identityChecks scalarBytes : ℕ)
  deriving DecidableEq

def freshBudget : RelationBudget := ⟨0, 0, 0, 0⟩

def scalarSize : Json → ℕ
  | .str text => text.utf8ByteSize
  | .int n => max 1 ((n.natAbs.size + 7) / 8)
  | .float _ | .bool _ | .null => 8
  | .arr _ | .obj _ => 0

section Spending

variable {ε : Type} (limits : Limits)

def spendOperation : Stateful ε RelationBudget (Option String) := do
  modify fun budget => { budget with operations := budget.operations + 1 }
  let budget ← get
  return if budget.operations > limits.maxOperations then some "max_operations" else none

def spendIdentity : Stateful ε RelationBudget (Option String) := do
  modify fun budget => { budget with identityChecks := budget.identityChecks + 1 }
  let budget ← get
  return if budget.identityChecks > limits.maxIdentityChecks then some "max_identity_checks"
    else none

def spendNode (depth : ℕ) : Stateful ε RelationBudget (Option String) := do
  modify fun budget => { budget with nodes := budget.nodes + 1 }
  let budget ← get
  if depth > limits.maxDepth then
    return some "max_depth"
  else if budget.nodes > limits.maxNodes then
    return some "max_nodes"
  else
    spendOperation limits

def spendScalarSize (size : ℕ) : Stateful ε RelationBudget (Option String) := do
  modify fun budget => { budget with scalarBytes := budget.scalarBytes + size }
  let budget ← get
  return if budget.scalarBytes > limits.maxTotalScalarBytes then some "max_total_scalar_bytes"
    else none

def hasManyCharacters (limits : Limits) : Json → Bool
  | .str text => text.length > limits.maxScalarBytes
  | _ => false

def spendScalar (value : Json) : Stateful ε RelationBudget (Option String) :=
  if hasManyCharacters limits value = true ∨ scalarSize value > limits.maxScalarBytes then
    pure (some "max_scalar_bytes")
  else
    spendScalarSize limits (scalarSize value)

theorem total_spendOperation : Total (spendOperation limits : Stateful ε RelationBudget _) :=
  (total_modify _).bind fun _ => total_get.bind fun _ => total_pure _

theorem total_spendIdentity : Total (spendIdentity limits : Stateful ε RelationBudget _) :=
  (total_modify _).bind fun _ => total_get.bind fun _ => total_pure _

theorem total_spendNode (depth : ℕ) :
    Total (spendNode limits depth : Stateful ε RelationBudget _) := by
  refine (total_modify _).bind fun _ => total_get.bind fun budget => ?_
  by_cases hdepth : depth > limits.maxDepth
  · simp only [hdepth, if_true]
    exact total_pure _
  · by_cases hnodes : budget.nodes > limits.maxNodes
    · simp only [hdepth, hnodes, if_true, if_false]
      exact total_pure _
    · simp only [hdepth, hnodes, if_false]
      exact total_spendOperation limits

theorem total_spendScalar (value : Json) :
    Total (spendScalar limits value : Stateful ε RelationBudget _) := by
  unfold spendScalar
  split
  · exact total_pure _
  · exact (total_modify _).bind fun _ => total_get.bind fun _ => total_pure _

end Spending

abbrev Evaluation := Stateful PyError RelationBudget

abbrev Resolution := Stateful (Stop RelationResult PyError) RelationBudget

def refuse {α : Type} (status : RelationStatus) (pointer message : String) : Resolution α :=
  throw (.failed (relationResult status pointer message))

def require (spend : Resolution (Option String)) (pointer : String) (message : String → String) :
    Resolution Unit := do
  match ← spend with
  | some exhausted => refuse .limitExceeded pointer (message exhausted)
  | none => pure ()

theorem seeks_require {spend : Resolution (Option String)} (h : Total spend) (pointer : String)
    (message : String → String) : Finds reading (require spend pointer message) (.ok ()) := by
  refine h.bind_seeks fun exhausted => ?_
  cases exhausted with
  | none => exact seeks_pure rfl
  | some limit => exact seeks_stop rfl

/-- `text.startswith(start)` -/
def startsWith (start text : String) : Bool := start.toList.isPrefixOf text.toList

/-- `text.removeprefix(start)` -/
def removeStart (start text : String) : String :=
  if startsWith start text then String.ofList (text.toList.drop start.length) else text

/-! ## Identity and equality of values -/

def identityScalar? : Json → Option IdentityScalar
  | .str value => some (.str value)
  | .int value => some (.int value)
  | .bool value => some (.bool value)
  | _ => none

def actualIdentity (item : Json) (identityFields : List String) : Option Identity :=
  match item with
  | .obj _ => identityFields.mapM fun field => (item.get? field).bind identityScalar?
  | _ => none

mutual

/-- Compare JSON values without Python's bool/int equivalence. -/
def jsonEqual : Json → Json → Bool
  | .arr expected, .arr actual => expected.length = actual.length && jsonListEqual expected actual
  | .obj expected, .obj actual =>
    (expected.all fun f => (actual.lookup f.1).isSome) &&
      (actual.all fun f => (expected.lookup f.1).isSome) && jsonDictEqual expected actual
  | .null, .null => true
  | .bool a, .bool b => a = b
  | .int a, .int b => a = b
  | .float a, .float b => a = b
  | .str a, .str b => a = b
  | _, _ => false
termination_by structural j => j

def jsonListEqual : List Json → List Json → Bool
  | left :: lefts, right :: rights => jsonEqual left right && jsonListEqual lefts rights
  | _, _ => true
termination_by structural l => l

def jsonDictEqual : List (String × Json) → List (String × Json) → Bool
  | [], _ => true
  | (key, value) :: rest, actual =>
    (match actual.lookup key with
      | some other => jsonEqual value other
      | none => false) && jsonDictEqual rest actual
termination_by structural l => l

end

section Validation

variable (limits : Limits)

def boundedScalarFailure (value : Json) (path : List String) : Resolution Unit := do
  require (spendScalar limits value) (pointerFromTokens path) fun exhausted =>
    s!"Realization value validation exceeded {exhausted}."
  match value with
  | .int n =>
    if n.natAbs.size > limits.maxScalarBytes * 8 then
      refuse .limitExceeded (pointerFromTokens path)
        "Realization value validation exceeded the integer-size limit."
  | _ => pure ()

def nodeBudgetFailure (depth : ℕ) (path : List String) : Resolution Unit :=
  require (spendNode limits depth) (pointerFromTokens path) fun exhausted =>
    s!"Realization value validation exceeded {exhausted}."

def membersFailure (count : ℕ) (path : List String) : Resolution Unit :=
  if count > limits.maxMembers then
    refuse .limitExceeded (pointerFromTokens path)
      "Realization value validation exceeded max_members."
  else pure ()

mutual

def validateBoundedValue : Json → List String → ℕ → Resolution Unit
  | .arr items, path, depth => do
    nodeBudgetFailure limits depth path
    boundedScalarFailure limits (.arr items) path
    membersFailure limits items.length path
    validateBoundedItems items 0 path depth
  | .obj fields, path, depth => do
    nodeBudgetFailure limits depth path
    boundedScalarFailure limits (.obj fields) path
    membersFailure limits fields.length path
    validateBoundedFields fields path depth
  | .null, path, depth => do
    nodeBudgetFailure limits depth path
    boundedScalarFailure limits .null path
  | .bool value, path, depth => do
    nodeBudgetFailure limits depth path
    boundedScalarFailure limits (.bool value) path
  | .int value, path, depth => do
    nodeBudgetFailure limits depth path
    boundedScalarFailure limits (.int value) path
  | .float value, path, depth => do
    nodeBudgetFailure limits depth path
    boundedScalarFailure limits (.float value) path
  | .str value, path, depth => do
    nodeBudgetFailure limits depth path
    boundedScalarFailure limits (.str value) path
termination_by structural j => j

def validateBoundedItems : List Json → ℕ → List String → ℕ → Resolution Unit
  | [], _, _, _ => pure ()
  | item :: rest, index, path, depth => do
    validateBoundedValue item (path ++ [toString index]) (depth + 1)
    validateBoundedItems rest (index + 1) path depth
termination_by structural l => l

def validateBoundedFields : List (String × Json) → List String → ℕ → Resolution Unit
  | [], _, _ => pure ()
  | (key, child) :: rest, path, depth => do
    boundedScalarFailure limits (.str key) path
    validateBoundedValue child (path ++ [key]) (depth + 1)
    validateBoundedFields rest path depth
termination_by structural l => l

end

theorem finds_boundedScalarFailure (value : Json) (path : List String) :
    Finds reading (boundedScalarFailure limits value path) (.ok ()) := by
  refine (seeks_require (total_spendScalar limits value) _ _).bind fun _ _ _ => ?_
  cases value with
  | int n =>
    show Finds reading (if _ then _ else _) (.ok ())
    split
    · exact seeks_stop rfl
    · exact seeks_pure rfl
  | null | bool _ | float _ | str _ | arr _ | obj _ => exact seeks_pure rfl

theorem finds_membersFailure (count : ℕ) (path : List String) :
    Finds reading (membersFailure limits count path) (.ok ()) := by
  unfold membersFailure
  split
  · exact seeks_stop rfl
  · exact seeks_pure rfl

theorem finds_nodeBudgetFailure (depth : ℕ) (path : List String) :
    Finds reading (nodeBudgetFailure limits depth path) (.ok ()) :=
  seeks_require (total_spendNode limits depth) _ _

theorem finds_validateBoundedItems {items : List Json}
    (h : ∀ item ∈ items, ∀ path depth,
      Finds reading (validateBoundedValue limits item path depth) (.ok ()))
    (index : ℕ) (path : List String) (depth : ℕ) :
    Finds reading (validateBoundedItems limits items index path depth) (.ok ()) := by
  induction items generalizing index with
  | nil => exact seeks_pure rfl
  | cons item rest ih =>
    rw [List.forall_mem_cons] at h
    exact Seeks.after (h.1 _ _) (ih h.2 _)

theorem finds_validateBoundedFields {fields : List (String × Json)}
    (h : ∀ field ∈ fields, ∀ path depth,
      Finds reading (validateBoundedValue limits field.2 path depth) (.ok ()))
    (path : List String) (depth : ℕ) :
    Finds reading (validateBoundedFields limits fields path depth) (.ok ()) := by
  induction fields with
  | nil => exact seeks_pure rfl
  | cons field rest ih =>
    rw [List.forall_mem_cons] at h
    exact Seeks.after (finds_boundedScalarFailure limits _ _) (Seeks.after (h.1 _ _) (ih h.2))

theorem finds_validateBoundedValue (value : Json) (path : List String) (depth : ℕ) :
    Finds reading (validateBoundedValue limits value path depth) (.ok ()) := by
  induction value using Json.induct generalizing path depth with
  | harr items ih =>
    exact Seeks.after (finds_nodeBudgetFailure limits depth path) <|
      Seeks.after (finds_boundedScalarFailure limits _ path) <|
      Seeks.after (finds_membersFailure limits _ path) <|
      finds_validateBoundedItems limits ih 0 path depth
  | hobj fields ih =>
    exact Seeks.after (finds_nodeBudgetFailure limits depth path) <|
      Seeks.after (finds_boundedScalarFailure limits _ path) <|
      Seeks.after (finds_membersFailure limits _ path) <|
      finds_validateBoundedFields limits ih path depth
  | hnull | hbool _ | hint _ | hfloat _ | hstr _ =>
    exact Seeks.after (finds_nodeBudgetFailure limits depth path)
      (finds_boundedScalarFailure limits _ path)

end Validation

end Raes.Realization
