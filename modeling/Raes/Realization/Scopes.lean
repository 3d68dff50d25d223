import Raes.Realization.Collections

/-!
# Evaluation of scopes

`_scopes.py`: every declared scope is applied to the value, also beneath open and
delegated nodes.  The functions take the operations that cost something as a record, so
that one text serves the bounded evaluation and its meaning.
-/

namespace Raes.Realization

open Stateful Verdict

/-- The items and the declared nodes of a keyed collection, by their keys. -/
abbrev IndexedMembers := Dict String Json × Dict String Node

/-- What the evaluation of one scope uses. -/
structure ScopeOperations (m : Type → Type) where
  /-- `_scope_failure` at the pointer of the scope -/
  failure : {α : Type} → RelationStatus → String → m α
  /-- `_spend_operation` -/
  spend : m Unit
  /-- `_KeyedIndexes.resolve`, at a place of the value -/
  resolve : List String → CollectionShape → List (Identity × Node) → List Json → m IndexedMembers
  /-- `_declared_scope_children` -/
  children : List String → m (List String)

structure ScopeTarget where
  actual : Json
  rule : Option Node
  present : Bool
  /-- the tokens that lead to the target -/
  place : List String

section Checks

variable {m : Type → Type} [Monad m] (ops : ScopeOperations m)

/-! ## The target of a scope -/

def ScopeTarget.absent (target : ScopeTarget) : ScopeTarget := { target with present := false }

variable (target : ScopeTarget)

def ScopeTarget.below (token : String) (actual : Json) (rule : Option Node) : ScopeTarget :=
  ⟨actual, rule, true, target.place ++ [token]⟩

def advanceRecordTarget (fields : List (String × Json)) (token : String) : m ScopeTarget :=
  match fields.lookup token with
  | none => pure target.absent
  | some actual =>
    match target.rule with
    | some (.record _ ruleFields _) =>
      pure (target.below token actual (ruleFields.lookup token))
    | none | some (.delegated _) => pure (target.below token actual none)
    | _ => ops.failure .unsupported
      "A scope cannot select record fields through this constraint kind."

def advanceKeyedTarget (shape : CollectionShape)
    (members : List (Identity × Node)) (items : List Json) (token : String) : m ScopeTarget :=
  if startsWith "@sha256:" token = false then
    ops.failure .unsupported "A keyed-collection scope must use a semantic member identity."
  else do
    let found ← ops.resolve target.place shape members items
    let key := removeStart "@" token
    return match found.1.get? key with
      | none => target.absent
      | some actual => target.below token actual (found.2.get? key)

variable (items : List Json)

def advanceSequenceTarget (token : String) : ScopeTarget :=
  match arrayIndex token items.length with
  | none => target.absent
  | some index =>
    target.below token (items[index]?.getD .null) <|
      match target.rule with
      | some (.sequence _ nodes _ _ _) => nodes[index]?
      | _ => none

def advanceListTarget (token : String) : m ScopeTarget :=
  let uninterpreted : m ScopeTarget := ops.failure .unsupported
    "A collection scope cannot be interpreted without its collection shape."
  match target.rule with
  | some (.keyed _ shape members) => advanceKeyedTarget ops target shape members items token
  | none | some (.sequence _ _ _ _ _) =>
    if isArrayIndexToken token then pure (advanceSequenceTarget target items token)
    else uninterpreted
  | _ => uninterpreted

def advanceScopeTarget (token : String) : m ScopeTarget := do
  ops.spend
  match target.actual with
  | .obj fields => advanceRecordTarget ops target fields token
  | .arr items => advanceListTarget ops target items token
  | _ => ops.failure .unsupported "A scope descends through a non-container value."

def resolveScopeTarget : ScopeTarget → List String → m ScopeTarget
  | target, [] => pure target
  | target, token :: rest => do
    let next ← advanceScopeTarget ops target token
    if next.present then resolveScopeTarget next rest else pure next

/-! ## Closed targets -/

def ruleKeys : Option Node → List String
  | some (.record _ fields _) => fields.map Prod.fst
  | _ => []

def rulePositions : Option Node → List ℕ
  | some (.sequence _ nodes _ _ _) => List.range nodes.length
  | _ => []

def evaluateClosedRecord (fields : List (String × Json)) (rule : Option Node)
    (declaredByScope : List String) : m Unit :=
  let declared := ruleKeys rule ++ declaredByScope.filter fun token =>
    !startsWith "@" token && !isArrayIndexToken token
  if fields.any fun field => field.1 ∉ declared then
    ops.failure .nonconformant
      "A closed scope contains an undeclared record member in its named universe."
  else pure ()

def refuseExtras (hasExtras : Bool) : m Unit :=
  if hasExtras then
    ops.failure .nonconformant
      "A closed scope contains an undeclared collection member in its named universe."
  else pure ()

def evaluateClosedCollection (declaredByScope : List String) : m Unit :=
  match target.rule with
  | some (.keyed _ shape members) => do
    let found ← ops.resolve target.place shape members items
    refuseExtras ops
      (hasOtherKeys found.1 (found.2.keys ++ declaredByScope.map (removeStart "@")))
  | rule =>
    let declared := declaredByScope.filterMap (arrayIndex · items.length) ++ rulePositions rule
    refuseExtras ops ((List.range items.length).any fun index => index ∉ declared)

def evaluateClosedTarget (tokens : List String) : m Unit := do
  let declaredByScope ← ops.children tokens
  match target.actual with
  | .obj fields => evaluateClosedRecord ops fields target.rule declaredByScope
  | .arr items => evaluateClosedCollection ops target items declaredByScope
  | _ => ops.failure .unsupported "A closure scope must address a record or collection value."

def isContainer : Json → Bool
  | .obj _ | .arr _ => true
  | _ => false

/-- The kinds of constraint under which a closed scope can be read. -/
def isInterpreted : Option Node → Bool
  | none | some (.delegated _) | some (.record _ _ _) | some (.keyed _ _ _)
  | some (.sequence _ _ _ _ _) => true
  | _ => false

def applyScope (root : Node) (actual : Json) (scope : Scope) : m Unit := do
  let tokens := pointerTokens scope.fieldPointer
  let target ← resolveScopeTarget ops ⟨actual, some root, true, []⟩ tokens
  if target.present = false then pure ()
  else if isContainer target.actual = false then
    ops.failure .unsupported "A closure scope must address a record or collection value."
  else if scope.closure.posture = .opened then pure ()
  else if isInterpreted target.rule = false then
    ops.failure .unsupported "A closure scope cannot be interpreted for this constraint kind."
  else evaluateClosedTarget ops target tokens

end Checks

/-! ## The meaning of scopes -/

variable (installed : Installed)

def idealOperations (document : Document) : ScopeOperations Ideal where
  failure _ _ := .error none
  spend := .ok ()
  resolve _ shape members items := keyedMembers installed shape false members items
  children tokens := .ok ((ScopeIndex.ofScopes document.scopes).childTokens tokens)

def scopeHolds (document : Document) (actual : Json) (scope : Scope) : Except PyError Bool :=
  settled (applyScope (idealOperations installed document) document.root actual scope)
    fun _ => .ok true

def scopesHold (document : Document) (actual : Json) : Except PyError Bool :=
  every (document.scopes.map (scopeHolds installed document actual))

/-! ## The bounded evaluation of scopes -/

/-- The budget, and the places whose keyed collections are indexed already. -/
structure ScopeWork where
  budget : RelationBudget
  indexed : List (List String)

def onBudget {ε α : Type} (m : Stateful ε RelationBudget α) : Stateful ε ScopeWork α := fun work =>
  match exec m work.budget with
  | (answer, budget) => (answer, { work with budget := budget })

def scopeRules (address : String) : IndexRules where
  address := address
  aliasExhausted exhausted := s!"Scope identity resolution exceeded {exhausted}."
  itemExhausted exhausted := s!"Scope identity resolution exceeded {exhausted}."
  memberExhausted exhausted := s!"Scope identity resolution exceeded {exhausted}."
  incomplete := "A scoped keyed member has no complete concrete semantic identity."
  duplicate := "A scoped keyed collection contains a duplicate semantic identity."
  rewrites := false

/-- Index a keyed collection once.  The entry that is kept for a place is what indexing
finds there, and costs nothing to find again. -/
def resolveOnce (place : List String) (m : Resolution IndexedMembers) :
    Stateful (Stop RelationResult PyError) ScopeWork IndexedMembers := do
  let work ← get
  if place ∈ work.indexed then
    liftM (exec m freshBudget).1
  else
    let found ← onBudget m
    modify fun work => { work with indexed := place :: work.indexed }
    return found

def boundedOperations (limits : Limits) (scopeIndex : ScopeIndex)
    (address : String) : ScopeOperations (Stateful (Stop RelationResult PyError) ScopeWork) where
  failure status message := onBudget (refuse status address message)
  spend := onBudget (require (spendOperation limits) address fun exhausted =>
    s!"Scope evaluation exceeded {exhausted}.")
  resolve place shape members items := resolveOnce place
    (resolveKeyed installed limits (scopeRules address) shape members items)
  children tokens := onBudget (scopeIndex.declaredChildren limits address tokens)

def evaluateScope (limits : Limits) (document : Document) (actual : Json)
    (scopeIndex : ScopeIndex) (scope : Scope) :
    Stateful PyError ScopeWork (Option RelationResult) := do
  match ← settle (applyScope
      (boundedOperations installed limits scopeIndex scope.fieldPointer) document.root actual
      scope) with
  | .error failure => return some failure
  | .ok _ => return none

/-- Apply every declared scope, including those beneath open or delegated nodes. -/
def evaluateScopeOverlays (limits : Limits) (document : Document)
    (actual : Json) (scopeIndex : ScopeIndex) : Evaluation (List (Option RelationResult)) :=
  fun budget =>
    match exec (document.scopes.mapM (evaluateScope installed limits document actual scopeIndex))
      ⟨budget, []⟩ with
    | (answer, work) => (answer, work.budget)

end Raes.Realization

/-!
# Scopes decide what they demand

The bounded evaluation of the scopes of a document agrees with their meaning, unless a
limit is exhausted.
-/

namespace Raes.Realization

open Stateful Verdict

/-- The bounded operations of a scope find what the ideal ones say. -/
structure Simulates (ops : ScopeOperations (Stateful (Stop RelationResult PyError) ScopeWork))
    (ideal : ScopeOperations Ideal) : Prop where
  failure : ∀ (status : RelationStatus) (message : String), status ≠ .conformant →
    ∀ {α : Type}, Finds reading (ops.failure status message : Stateful _ _ α)
      (ideal.failure status message)
  spend : Finds reading ops.spend ideal.spend
  resolve : ∀ place shape members items, Finds reading (ops.resolve place shape members items)
    (ideal.resolve place shape members items)
  children : ∀ tokens, Finds reading (ops.children tokens) (ideal.children tokens)

theorem Finds.bind {σ δ ι : Type} {m : Stateful (Stop RelationResult PyError) σ δ}
    {p : Ideal δ} {f : δ → Stateful (Stop RelationResult PyError) σ ι} {g : δ → Ideal ι}
    (h : Finds reading m p) (hf : ∀ d, Finds reading (f d) (g d)) :
    Finds reading (m >>= f) (p >>= g) := by
  refine Seeks.bind h ?_
  rintro d _ rfl
  exact hf d

section Generic

variable {ops : ScopeOperations (Stateful (Stop RelationResult PyError) ScopeWork)}
  {ideal : ScopeOperations Ideal} (h : Simulates ops ideal)

include h

variable (target : ScopeTarget)

theorem finds_advanceRecordTarget (fields : List (String × Json)) (token : String) :
    Finds reading (advanceRecordTarget ops target fields token)
      (advanceRecordTarget ideal target fields token) := by
  unfold advanceRecordTarget
  cases fields.lookup token with
  | none => exact seeks_pure rfl
  | some actual =>
    cases target.rule with
    | none => exact seeks_pure rfl
    | some rule =>
      cases rule with
      | record _ _ _ => exact seeks_pure rfl
      | delegated _ => exact seeks_pure rfl
      | literal _ _ | knowledge _ _ | domain _ _ | keyed _ _ _ | sequence _ _ _ _ _
      | definitionReference _ _ | graphReference _ _ _ _ | allOf _ _ =>
        exact h.failure _ _ (by decide)

theorem finds_advanceKeyedTarget (shape : CollectionShape)
    (members : List (Identity × Node)) (items : List Json) (token : String) :
    Finds reading (advanceKeyedTarget ops target shape members items token)
      (advanceKeyedTarget ideal target shape members items token) := by
  unfold advanceKeyedTarget
  split
  · exact h.failure _ _ (by decide)
  · exact Finds.bind (h.resolve _ _ _ _) fun found => seeks_pure rfl

theorem finds_advanceListTarget (items : List Json) (token : String) :
    Finds reading (advanceListTarget ops target items token)
      (advanceListTarget ideal target items token) := by
  have hindex : ∀ message, Finds reading
      (if isArrayIndexToken token then pure (advanceSequenceTarget target items token)
        else ops.failure .unsupported message)
      (if isArrayIndexToken token then pure (advanceSequenceTarget target items token)
        else ideal.failure .unsupported message) := by
    intro message
    split
    · exact seeks_pure rfl
    · exact h.failure _ _ (by decide)
  unfold advanceListTarget
  cases target.rule with
  | none => exact hindex _
  | some rule =>
    cases rule with
    | keyed _ shape members => exact finds_advanceKeyedTarget h target shape members items token
    | sequence _ _ _ _ _ => exact hindex _
    | literal _ _ | knowledge _ _ | delegated _ | domain _ _ | record _ _ _
    | definitionReference _ _ | graphReference _ _ _ _ | allOf _ _ =>
      exact h.failure _ _ (by decide)

theorem finds_advanceScopeTarget (token : String) :
    Finds reading (advanceScopeTarget ops target token)
      (advanceScopeTarget ideal target token) := by
  refine Finds.bind h.spend fun _ => ?_
  cases target.actual with
  | obj fields => exact finds_advanceRecordTarget h target fields token
  | arr items => exact finds_advanceListTarget h target items token
  | null | bool _ | int _ | float _ | str _ => exact h.failure _ _ (by decide)

theorem finds_resolveScopeTarget (tokens : List String) :
    Finds reading (resolveScopeTarget ops target tokens)
      (resolveScopeTarget ideal target tokens) := by
  induction tokens generalizing target with
  | nil => exact seeks_pure rfl
  | cons token rest ih =>
    refine Finds.bind (finds_advanceScopeTarget h target token) fun next => ?_
    cases next.present with
    | true => exact ih next
    | false => exact seeks_pure rfl

theorem finds_refuseExtras (hasExtras : Bool) :
    Finds reading (refuseExtras ops hasExtras) (refuseExtras ideal hasExtras) := by
  cases hasExtras with
  | true => exact h.failure _ _ (by decide)
  | false => exact seeks_pure rfl

theorem finds_evaluateClosedCollection (items : List Json) (declaredByScope : List String) :
    Finds reading (evaluateClosedCollection ops target items declaredByScope)
      (evaluateClosedCollection ideal target items declaredByScope) := by
  unfold evaluateClosedCollection
  split
  · exact Finds.bind (h.resolve _ _ _ _) fun found => finds_refuseExtras h _
  · exact finds_refuseExtras h _

theorem finds_evaluateClosedTarget (tokens : List String) :
    Finds reading (evaluateClosedTarget ops target tokens)
      (evaluateClosedTarget ideal target tokens) := by
  refine Finds.bind (h.children tokens) fun declaredByScope => ?_
  cases target.actual with
  | obj fields =>
    show Finds reading (evaluateClosedRecord ops fields target.rule declaredByScope)
      (evaluateClosedRecord ideal fields target.rule declaredByScope)
    unfold evaluateClosedRecord
    dsimp only
    split
    · exact h.failure _ _ (by decide)
    · exact seeks_pure rfl
  | arr items => exact finds_evaluateClosedCollection h target items declaredByScope
  | null | bool _ | int _ | float _ | str _ => exact h.failure _ _ (by decide)

theorem finds_applyScope (root : Node) (actual : Json) (scope : Scope) :
    Finds reading (applyScope ops root actual scope) (applyScope ideal root actual scope) := by
  refine Finds.bind (finds_resolveScopeTarget h _ _) fun target => ?_
  split
  · exact seeks_pure rfl
  split
  · exact h.failure _ _ (by decide)
  split
  · exact seeks_pure rfl
  split
  · exact h.failure _ _ (by decide)
  · exact finds_evaluateClosedTarget h target _

end Generic

/-! ## The operations of the source -/

theorem exec_onBudget {ε α : Type} (m : Stateful ε RelationBudget α) (work : ScopeWork) :
    exec (onBudget m) work = match exec m work.budget with
      | (answer, budget) => (answer, { work with budget := budget }) := rfl

theorem finds_onBudget {α : Type} {m : Resolution α} {p : Ideal α} (h : Finds reading m p) :
    Finds reading (onBudget m) p := by
  intro work
  exact h work.budget

theorem finds_resolveOnce {m : Resolution IndexedMembers} {p : Ideal IndexedMembers}
    (h : Finds reading m p) (place : List String) :
    Finds reading (resolveOnce place m) p := by
  intro work
  unfold resolveOnce
  rw [exec_get_bind]
  split
  · rw [exec_lift]
    exact h freshBudget
  · have hfound := h work.budget
    rw [exec_bind, exec_onBudget]
    revert hfound
    rcases exec m work.budget with ⟨stop | found, budget⟩
    · exact id
    · exact id

variable (installed : Installed) (limits : Limits)

theorem finds_resolveKeyed (rules : IndexRules)
    (shape : CollectionShape) (members : List (Identity × Node)) (items : List Json) :
    Finds reading (resolveKeyed installed limits rules shape members items)
      (keyedMembers installed shape rules.rewrites members items) := by
  intro budget
  have hid : members.map (fun m => (m.1, id m.2)) = members := by simp
  have h := seeks_resolveKeyed installed limits rules (S := Eq) shape members (f := id) (g := id)
    (fun _ _ => rfl) items budget
  rw [hid] at h
  revert h
  rcases exec (resolveKeyed installed limits rules shape members items) budget with ⟨answer, left⟩
  cases answer with
  | error stop => cases stop <;> exact id
  | ok found =>
    rintro ⟨ideal, hideal, hitems, hmembers⟩
    exact ⟨ideal, hideal, Prod.ext hitems (Dict.eq_of_related hmembers)⟩

variable (document : Document)

theorem simulates_bounded (address : String) :
    Simulates (boundedOperations installed limits (.ofScopes document.scopes) address)
      (idealOperations installed document) := by
  constructor
  · intro status message hstatus α
    exact finds_onBudget (seeks_fail hstatus)
  · exact finds_onBudget (seeks_require (total_spendOperation limits) _ _)
  · intro place shape members items
    exact finds_resolveOnce (finds_resolveKeyed installed limits _ shape members items) place
  · intro tokens
    exact finds_onBudget (ScopeIndex.finds_declaredChildren limits address _ tokens)

theorem decides_evaluateScope (actual : Json) (scope : Scope) : Decides reading
      (evaluateScope installed limits document actual (.ofScopes document.scopes) scope)
      (scopeHolds installed document actual scope) := by
  have h := finds_applyScope (simulates_bounded installed limits document scope.fieldPointer)
    document.root actual scope
  refine h.settle_decides (α := Option RelationResult) (fun r hr q => ?_) (fun r hr => ?_) ?_
  · exact decides_spent rfl hr
  · exact decides_bad rfl hr
  · intro _ _ _ _
    exact decides_none rfl

theorem decides_evaluateScopeOverlays (actual : Json) : Decides reading
      (evaluateScopeOverlays installed limits document actual (.ofScopes document.scopes))
      (scopesHold installed document actual) := by
  intro budget
  have hscopes : List.Forall₂ (fun scope scope' : Scope => Decides reading
      (evaluateScope installed limits document actual (.ofScopes document.scopes) scope)
      (scopeHolds installed document actual scope')) document.scopes document.scopes :=
    List.forall₂_same.mpr fun scope _ =>
      decides_evaluateScope installed limits document actual scope
  have h := decides_mapM hscopes ⟨budget, []⟩
  exact h

end Raes.Realization
