import Raes.Realization.Evaluation
import Raes.Realization.Scopes

/-!
# Admission of constraint documents

`realization_structure/_limits.py`: every structural and metadata input of a document
is charged to a budget before a relation walks the document.
-/

namespace Raes.Realization

open Stateful

structure LimitViolation where
  (pointer message : String)
  deriving DecidableEq

/-- A computation that charges a budget and stops at the first violation. -/
abbrev Admission := Stateful LimitViolation RelationBudget

def violation {α : Type} (path : List String) (message : String) : Admission α :=
  throw ⟨pointerFromTokens path, message⟩

def charge (spend : Admission (Option String)) (path : List String) (activity : String) :
    Admission Unit := do
  match ← spend with
  | some exhausted => violation path s!"{activity} exceeded {exhausted}."
  | none => pure ()

def limitMembers (limits : Limits) (count : ℕ) (path : List String) (subject : String) :
    Admission Unit :=
  if count > limits.maxMembers then violation path s!"{subject} exceeded max_members."
  else pure ()

section

variable (limits : Limits)

/-- What is charged for a value, whatever it holds. -/
def admitMetadataHead (value : Json) (path : List String) (depth : ℕ) : Admission Unit := do
  if depth > limits.maxDepth then
    violation path "Constraint metadata exceeded max_depth."
  else
    charge (spendOperation limits) path "Constraint metadata admission"
    charge (spendScalar limits value) path "Constraint metadata"

mutual

def admitMetadata : Json → List String → ℕ → Admission Unit
  | .arr items, path, depth => do
    admitMetadataHead limits (.arr items) path depth
    limitMembers limits items.length path "Constraint metadata"
    admitMetadataSequence items 0 path depth
  | .obj fields, path, depth => do
    admitMetadataHead limits (.obj fields) path depth
    limitMembers limits fields.length path "Constraint metadata"
    admitMetadataMapping fields path depth
  | .null, path, depth => admitMetadataHead limits .null path depth
  | .bool value, path, depth => admitMetadataHead limits (.bool value) path depth
  | .int value, path, depth => admitMetadataHead limits (.int value) path depth
  | .float value, path, depth => admitMetadataHead limits (.float value) path depth
  | .str value, path, depth => admitMetadataHead limits (.str value) path depth
termination_by structural j => j

def admitMetadataSequence : List Json → ℕ → List String → ℕ → Admission Unit
  | [], _, _, _ => pure ()
  | child :: rest, index, path, depth => do
    admitMetadata child (path ++ [toString index]) (depth + 1)
    admitMetadataSequence rest (index + 1) path depth
termination_by structural l => l

def admitMetadataMapping : List (String × Json) → List String → ℕ → Admission Unit
  | [], _, _ => pure ()
  | (key, child) :: rest, path, depth => do
    admitMetadataHead limits (.str key) (path ++ [key, "$key"]) (depth + 1)
    admitMetadata child (path ++ [key]) (depth + 1)
    admitMetadataMapping rest path depth
termination_by structural l => l

end

/-- The values that every node supplies. -/
def admitHeader (node : Node) (path : List String) : Admission Unit := do
  admitMetadata limits (.str node.kind) (path ++ ["$header", "kind"]) 0
  admitMetadata limits (.str node.header.presence.value) (path ++ ["$header", "presence"]) 0
  admitMetadata limits (.str node.header.origin.value) (path ++ ["$header", "origin"]) 0

def admitNodeHead (node : Node) (path : List String) (depth : ℕ) : Admission Unit := do
  charge (spendNode limits depth) path "Constraint admission"
  admitHeader limits node path

def admitAliases : List IdentityAlias → ℕ → List String → Admission Unit
  | [], _, _ => pure ()
  | entry :: rest, index, path => do
    let aliasPath := path ++ ["aliases", toString index]
    charge (spendIdentity limits) aliasPath "Constraint admission"
    admitMetadata limits (.obj [("identity", identityJson entry.identity),
      ("target", identityJson entry.target)]) aliasPath 0
    admitAliases rest (index + 1) path

def admitKeyedMetadata (shape : CollectionShape) (path : List String) : Admission Unit := do
  admitMetadata limits (.obj [
    ("collection_kind", .str shape.collectionKind),
    ("identity_fields", texts shape.identityFields),
    ("closure", shape.closure.dump),
    ("min_items", .int shape.minItems),
    ("max_items", .int shape.maxItems)]) (path ++ ["$collection"]) 0
  limitMembers limits shape.aliases.length path "Constraint aliases"
  admitAliases limits shape.aliases 0 path

mutual

def admitNode : Node → List String → ℕ → Admission Unit
  | .literal header value, path, depth => do
    admitNodeHead limits (.literal header value) path depth
    admitMetadata limits (literalJson value) (path ++ ["value"]) 0
  | .knowledge header state, path, depth =>
    admitNodeHead limits (.knowledge header state) path depth
  | .delegated header, path, depth => admitNodeHead limits (.delegated header) path depth
  | .domain header domain, path, depth => do
    admitNodeHead limits (.domain header domain) path depth
    admitMetadata limits (dumpDomain domain) (path ++ ["domain"]) 0
  | .graphReference header authority allowedRefs cyclePolicy, path, depth => do
    admitNodeHead limits (.graphReference header authority allowedRefs cyclePolicy) path depth
    admitMetadata limits (dumpGovernedReference authority allowedRefs) (path ++ ["domain"]) 0
    admitMetadata limits (.str cyclePolicy.value) (path ++ ["cycle_policy"]) 0
  | .definitionReference header target, path, depth => do
    admitNodeHead limits (.definitionReference header target) path depth
    admitMetadata limits (.str target) (path ++ ["target"]) 0
  | .record header fields closure, path, depth => do
    admitNodeHead limits (.record header fields closure) path depth
    admitMetadata limits closure.dump (path ++ ["closure"]) 0
    limitMembers limits fields.length path "Constraint record"
    admitFields fields path depth
  | .keyed header shape members, path, depth => do
    admitNodeHead limits (.keyed header shape members) path depth
    admitKeyedMetadata limits shape path
    admitMembers members 0 path depth
  | .sequence header items closure minItems maxItems, path, depth => do
    admitNodeHead limits (.sequence header items closure minItems maxItems) path depth
    admitMetadata limits closure.dump (path ++ ["closure"]) 0
    admitMetadata limits (.obj [("min_items", .int minItems), ("max_items", .int maxItems)])
      (path ++ ["cardinality"]) 0
    limitMembers limits items.length path "Constraint children"
    admitChildren items 0 path depth
  | .allOf header constraints, path, depth => do
    admitNodeHead limits (.allOf header constraints) path depth
    limitMembers limits constraints.length path "Constraint children"
    admitChildren constraints 0 path depth
termination_by structural node => node

def admitFields : List (String × Node) → List String → ℕ → Admission Unit
  | [], _, _ => pure ()
  | (key, child) :: rest, path, depth => do
    admitMetadata limits (.str key) (path ++ [key, "$key"]) 0
    admitNode child (path ++ [key]) (depth + 1)
    admitFields rest path depth
termination_by structural l => l

def admitMembers : List (Identity × Node) → ℕ → List String → ℕ → Admission Unit
  | [], _, _, _ => pure ()
  | (identity, constraint) :: rest, index, path, depth => do
    let memberPath := path ++ [toString index]
    charge (spendIdentity limits) memberPath "Constraint admission"
    admitMetadata limits (identityJson identity) (memberPath ++ ["identity"]) 0
    admitNode constraint memberPath (depth + 1)
    admitMembers rest (index + 1) path depth
termination_by structural l => l

def admitChildren : List Node → ℕ → List String → ℕ → Admission Unit
  | [], _, _, _ => pure ()
  | child :: rest, index, path, depth => do
    admitNode child (path ++ [toString index]) (depth + 1)
    admitChildren rest (index + 1) path depth
termination_by structural l => l

end

def admitScopes : List Scope → ℕ → Admission Unit
  | [], _ => pure ()
  | scope :: rest, index => do
    admitMetadata limits scope.dump ["scopes", toString index] 0
    admitScopes rest (index + 1)

def admitDefinitions (definitions : List (String × Node)) : Admission Unit :=
  forM definitions fun (name, definition) => do
    admitMetadata limits (.str name) ["definitions", name, "$key"] 0
    admitNode limits definition ["definitions", name] 0

/-- Bound every structural and metadata input before a recursive relation. -/
def admitConstraintDocument (document : Document) : Admission Unit := do
  admitMetadata limits (.obj [
    ("contract_id", .str contractId),
    ("semantic_profile", .str document.semanticProfile),
    ("default_closure", document.defaultClosure.dump)]) ["$document"] 0
  limitMembers limits document.scopes.length ["scopes"] "Constraint scopes"
  admitScopes limits document.scopes 0
  admitNode limits document.root ["root"] 0
  admitDefinitions limits document.definitions

end

end Raes.Realization

/-!
# Evaluation of a document

`evaluate_realization_constraint`: admission of the document and of the value, then the
scopes and the root.  Unless a limit is exhausted, the evaluation says whether the value
meets the document.
-/

namespace Raes.Realization

open Stateful Verdict

variable (installed : Installed) (limits : Limits) (document : Document) (actual : Json)

def evaluationContext (scopeIndex : ScopeIndex) : EvaluationContext :=
  ⟨installed, limits, document, scopeIndex, [], 0⟩

def evaluateAdmitted : Evaluation RelationResult := do
  match ← settle (validateBoundedValue limits actual [] 0) with
  | .error invalid => return invalid
  | .ok _ =>
    match ← settle (ScopeIndex.build limits document) with
    | .error failure => return failure
    | .ok scopeIndex => do
      let scopes ← evaluateScopeOverlays installed limits document actual scopeIndex
      let evaluated ← evaluateRecursiveNode limits.maxReferenceHops
        (evaluationContext installed limits document scopeIndex) document.root actual [] 0
      return combineRelationResults limits.maxDiagnostics (evaluated :: scopes.reduceOption)

/-- Evaluate one value without treating unknown or exhausted work as success. -/
def evaluateRealizationConstraint : Except PyError RelationResult :=
  match (exec (admitConstraintDocument limits document) freshBudget).1 with
  | .error violation => .ok (relationResult .limitExceeded violation.pointer violation.message)
  | .ok _ => (exec (evaluateAdmitted installed limits document actual) freshBudget).1

def meets : Except PyError Bool :=
  both (scopesHold installed document actual) (rootHolds installed document actual)

theorem decides_evaluateAdmitted :
    Decides reading (evaluateAdmitted installed limits document actual)
      (meets installed document actual) := by
  have hfollowed : Followed
      (evaluationContext installed limits document (.ofScopes document.scopes))
      limits.maxReferenceHops :=
    ⟨rfl, List.nodup_nil, fun _ h => (nomatch h), Nat.add_zero _⟩
  refine (finds_validateBoundedValue limits actual [] 0).settle_decides
    (g := fun _ => meets installed document actual) (fun r hr q => decides_spent rfl hr)
    (fun r hr => decides_bad rfl hr) fun _ _ _ _ => ?_
  refine (ScopeIndex.finds_build limits document).settle_decides
    (g := fun _ => meets installed document actual) (fun r hr q => decides_spent rfl hr)
    (fun r hr => decides_bad rfl hr) ?_
  rintro scopeIndex _ hindex rfl
  cases hindex
  refine (decides_evaluateScopeOverlays installed limits document actual).both_combine
    (combines limits.maxDiagnostics)
    (decides_evaluateRecursiveNode hfollowed (Nat.le_refl _) document.root actual [] 0) ?_
  intro scopes evaluated
  refine ⟨_, rfl, fun r => ?_⟩
  show r ∈ evaluated :: scopes.reduceOption ↔ r ∈ (outcomes scopes : List _) ++ [evaluated]
  rw [outcomes_results, List.mem_append, List.mem_cons, List.mem_singleton, or_comm]

/-- An evaluation returns a result that says whether the value meets the document, or
that a limit is exhausted; it raises only where the meaning has no answer. -/
theorem evaluateRealizationConstraint_agrees :
    (∃ result, evaluateRealizationConstraint installed limits document actual = .ok result ∧
      result.status = .limitExceeded) ∨
    (∃ holds result, meets installed document actual = .ok holds ∧
      evaluateRealizationConstraint installed limits document actual = .ok result ∧
      (holds = true ↔ result.status = .conformant)) ∨
    ((∃ error, evaluateRealizationConstraint installed limits document actual = .error error) ∧
      ¬ Answers (meets installed document actual)) := by
  unfold evaluateRealizationConstraint
  rcases (exec (admitConstraintDocument limits document) freshBudget).1 with violation | admitted
  · exact Or.inl ⟨_, rfl, rfl⟩
  have h := decides_evaluateAdmitted installed limits document actual freshBudget
  revert h
  dsimp only
  rcases (exec (evaluateAdmitted installed limits document actual) freshBudget).1 with e | result
  · exact fun h => Or.inr (Or.inr ⟨⟨e, rfl⟩, h⟩)
  intro h
  rcases h with ⟨r, hr, hspent⟩ | ⟨holds, hmeets, hiff⟩
  · rw [List.mem_singleton.mp hr] at hspent
    exact Or.inl ⟨result, rfl, hspent⟩
  · refine Or.inr (Or.inl ⟨holds, result, hmeets, rfl, hiff.trans ?_⟩)
    exact List.forall_mem_singleton

def Exhausts (limits : Limits) : Prop :=
  ∃ result, evaluateRealizationConstraint installed limits document actual = .ok result ∧
    result.status = .limitExceeded

/-- Whether the evaluation finds the value conformant; nothing where it raises. -/
def verdict (limits : Limits) : Option Bool :=
  (evaluateRealizationConstraint installed limits document actual).toOption.map
    fun result => result.status = .conformant

/-- No limit changes a verdict: two evaluations of one value that stay within their limits
find the same, and raise together. -/
theorem verdict_independent_of_limits (limits limits' : Limits) :
    Exhausts installed document actual limits ∨ Exhausts installed document actual limits' ∨
      verdict installed document actual limits = verdict installed document actual limits' := by
  unfold verdict
  rcases evaluateRealizationConstraint_agrees installed limits document actual with
    hspent | ⟨holds, result, hmeets, hresult, hiff⟩ | ⟨⟨error, herror⟩, hnone⟩
  · exact Or.inl hspent
  · rcases evaluateRealizationConstraint_agrees installed limits' document actual with
      hspent | ⟨holds', result', hmeets', hresult', hiff'⟩ | ⟨-, hnone⟩
    · exact Or.inr (Or.inl hspent)
    · obtain rfl := Except.ok.inj (hmeets.symm.trans hmeets')
      rw [hresult, hresult']
      exact Or.inr (Or.inr (congrArg some (decide_eq_decide.mpr (hiff.symm.trans hiff'))))
    · exact absurd ⟨holds, hmeets⟩ hnone
  · rcases evaluateRealizationConstraint_agrees installed limits' document actual with
      hspent | ⟨holds', -, hmeets', -, -⟩ | ⟨⟨error', herror'⟩, -⟩
    · exact Or.inr (Or.inl hspent)
    · exact absurd ⟨holds', hmeets'⟩ hnone
    · rw [herror, herror']
      exact Or.inr (Or.inr rfl)

end Raes.Realization
