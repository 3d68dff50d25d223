import Mathlib.Data.List.Perm.Subperm
import Raes.Realization.Collections

/-!
# Evaluation of nodes

`_evaluation.py`: one evaluator for each kind of node.  The recursion follows the node;
a definition reference leaves it, and the limit on reference hops bounds how often.
-/

namespace Raes.Realization

open Stateful Verdict

def comparisonResult (holds : Bool) (address message : String) : RelationResult :=
  if holds then conformantResult else relationResult .nonconformant address message

def evaluateLiteral (value : Option DomainScalar) (actual : Json) (path : List String) :
    Evaluation RelationResult :=
  return comparisonResult (jsonEqual (literalJson value) actual) (pointerFromTokens path)
    "Observed value does not satisfy the exact typed constraint."

def evaluateKnowledge (state : KnowledgeState) (path : List String) :
    Evaluation RelationResult :=
  return relationResult .unresolved (pointerFromTokens path)
    ("The " ++ state.value ++ " knowledge state cannot establish conformance.")

def versionStatus : VersionMembership → RelationStatus
  | .conformant => .conformant
  | .nonconformant => .nonconformant
  | .unresolved => .unresolved
  | .unsupported => .unsupported

variable (context : EvaluationContext)

def evaluateDomain (domain : DomainDescriptor) (actual : Json)
    (path : List String) : Evaluation RelationResult :=
  match domain with
  | .version version =>
    return relationResult
      (versionStatus (versionMembership context.installed.orders actual version))
      (pointerFromTokens path) "Version predicate evaluated under its selected relation."
  | domain => do
    let member ← (liftM (scalarInDomain context.installed.orders actual domain) : Evaluation Bool)
    return comparisonResult member (pointerFromTokens path)
      "Observed value is outside the declared bounded domain."

def evaluateGraphReference (authority : String)
    (allowedRefs : List String) (actual : Json) (path : List String) :
    Evaluation RelationResult := do
  let member ← (liftM (scalarInDomain context.installed.orders actual
    (.governedReference authority allowedRefs)) : Evaluation Bool)
  return comparisonResult member (pointerFromTokens path)
    "Graph identity is outside its governed reference domain."

def evaluateDefinitionReference
    (follow : String → Node → Json → List String → ℕ → Evaluation RelationResult)
    (target : String) (actual : Json) (path : List String) (depth : ℕ) :
    Evaluation RelationResult :=
  if context.referenceHops ≥ context.limits.maxReferenceHops then
    return relationResult .limitExceeded (pointerFromTokens path)
      "Constraint definition resolution exceeded max_reference_hops."
  else if target ∈ context.referenceStack then
    return relationResult .invalid (pointerFromTokens path)
      "Constraint definitions contain a reference cycle."
  else
    match context.document.definitions.lookup target with
    | none =>
      return relationResult .invalid (pointerFromTokens path)
        "Constraint definition reference does not resolve in this document."
    | some node => follow target node actual path depth

def evaluateAllOf (children : List Child) (actual : Json)
    (path : List String) (depth : ℕ) : Evaluation RelationResult := do
  let results ← children.mapM fun child => child.evaluate actual path depth
  return context.combine results

def evaluateRecord (fields : List (String × Child))
    (closure : Closure) (actual : Json) (path : List String) (depth : ℕ) :
    Evaluation RelationResult :=
  match actual with
  | .obj members => do
    let results ← fields.mapM fun field =>
      let fieldPath := path ++ [field.1]
      evaluateMember field.2 (members.lookup field.1) fieldPath depth
        (pointerFromTokens fieldPath) "A forbidden member is present."
        "A required member is absent."
    let closureResult ← evaluateClosure context closure path
      (members.any fun member => member.1 ∉ fields.map Prod.fst)
      "No effective closure policy is selected for this record."
      "A closed record contains an undeclared member in its named universe."
    return context.combine (results.reduceOption ++ closureResult.toList)
  | _ =>
    return context.combine [relationResult .nonconformant (pointerFromTokens path)
      "Observed value is not a record required by the recursive constraint."]

/-- `_evaluate_recursive_node`, around the evaluator of the kind of the node. -/
def spendingNode (evaluate : Json → List String → ℕ → Evaluation RelationResult) (actual : Json)
    (path : List String) (depth : ℕ) : Evaluation RelationResult := do
  match ← spendNode context.limits depth with
  | some exhausted =>
    return relationResult .limitExceeded (pointerFromTokens path)
      s!"Recursive realization evaluation exceeded {exhausted}."
  | none => evaluate actual path depth

section Recursion

variable (context : EvaluationContext)
  (follow : String → Node → Json → List String → ℕ → Evaluation RelationResult)

mutual

def evaluateNodeWith : Node → Json → List String → ℕ → Evaluation RelationResult
  | .literal _ value =>
    spendingNode context fun actual path _ => evaluateLiteral value actual path
  | .knowledge _ state => spendingNode context fun _ path _ => evaluateKnowledge state path
  | .delegated _ => spendingNode context fun _ _ _ => pure conformantResult
  | .domain _ domain =>
    spendingNode context fun actual path _ => evaluateDomain context domain actual path
  | .graphReference _ authority allowedRefs _ => spendingNode context fun actual path _ =>
    evaluateGraphReference context authority allowedRefs actual path
  | .definitionReference _ target =>
    spendingNode context (evaluateDefinitionReference context follow target)
  | .allOf _ constraints =>
    spendingNode context (evaluateAllOf context (itemChildren constraints))
  | .record _ fields closure =>
    spendingNode context (evaluateRecord context (fieldChildren fields) closure)
  | .keyed _ shape members =>
    spendingNode context (evaluateKeyedCollection context shape (memberChildren members))
  | .sequence _ items closure minItems maxItems => spendingNode context
    (evaluateSequence context (itemChildren items) closure minItems maxItems)
termination_by structural node => node

def fieldChildren : List (String × Node) → List (String × Child)
  | [] => []
  | (key, child) :: rest => (key, ⟨child.presence, evaluateNodeWith child⟩) :: fieldChildren rest
termination_by structural l => l

def memberChildren : List (Identity × Node) → List (Identity × Child)
  | [] => []
  | (identity, child) :: rest =>
    (identity, ⟨child.presence, evaluateNodeWith child⟩) :: memberChildren rest
termination_by structural l => l

def itemChildren : List Node → List Child
  | [] => []
  | child :: rest => ⟨child.presence, evaluateNodeWith child⟩ :: itemChildren rest
termination_by structural l => l

end

def childOf (child : Node) : Child := ⟨child.presence, evaluateNodeWith context follow child⟩

theorem fieldChildren_eq_map (fields : List (String × Node)) :
    fieldChildren context follow fields =
      fields.map fun field => (field.1, childOf context follow field.2) := by
  induction fields with
  | nil => rfl
  | cons field rest ih => rw [fieldChildren, ih]; rfl

theorem memberChildren_eq_map (members : List (Identity × Node)) :
    memberChildren context follow members =
      members.map fun member => (member.1, childOf context follow member.2) := by
  induction members with
  | nil => rfl
  | cons member rest ih => rw [memberChildren, ih]; rfl

theorem itemChildren_eq_map (items : List Node) :
    itemChildren context follow items = items.map (childOf context follow) := by
  induction items with
  | nil => rfl
  | cons item rest ih => rw [itemChildren, ih]; rfl

end Recursion

/-- Evaluate a node; the number bounds how many references are still followed. -/
def evaluateRecursiveNode : ℕ → EvaluationContext → Node → Json → List String → ℕ →
    Evaluation RelationResult
  | 0, context => evaluateNodeWith context fun _ _ _ path _ =>
    return relationResult .limitExceeded (pointerFromTokens path)
      "Constraint definition resolution exceeded max_reference_hops."
  | hops + 1, context => evaluateNodeWith context fun target node =>
    evaluateRecursiveNode hops (context.followReference target) node

/-! ## Agreement with the meaning -/

theorem decides_comparison (holds : Bool) (address message : String) :
    holds = true ↔ ∀ r ∈ (outcomes (comparisonResult holds address message) :
      List RelationResult), reading.good r := by
  cases holds <;> simp [comparisonResult, conformantResult, outcomes]

theorem decides_evaluateDomain (context : EvaluationContext) (domain : DomainDescriptor)
    (actual : Json) (path : List String) :
    Decides reading (evaluateDomain context domain actual path)
      (scalarInDomain context.installed.orders actual domain) := by
  cases domain with
  | version version =>
    refine decides_pure ?_
    cases hmember : versionMembership context.installed.orders actual version <;>
      simp [outcomes, versionStatus]
  | exact _ | enum _ | boolean _ | null | numericInterval _ | governedReference _ _ | record _ _ =>
    exact decides_lift fun _ => decides_comparison _ _ _

theorem decides_spendingNode {context : EvaluationContext}
    {evaluate : Json → List String → ℕ → Evaluation RelationResult} {actual : Json}
    {path : List String} {depth : ℕ} {p : Except PyError Bool}
    (h : Decides reading (evaluate actual path depth) p) :
    Decides reading (spendingNode context evaluate actual path depth) p := by
  refine (total_spendNode context.limits depth).bind_decides fun exhausted => ?_
  cases exhausted with
  | none => exact h
  | some limit => exact decides_spent rfl rfl

theorem decides_evaluateAllOf (context : EvaluationContext) (nodes : List Node)
    {f : Node → Child} {g : Node → Demand} (h : ∀ node ∈ nodes, (f node).Follows (g node))
    (actual : Json) (path : List String) (depth : ℕ) :
    Decides reading (evaluateAllOf context (nodes.map f) actual path depth)
      (every ((nodes.map g).map fun demand => demand.holds actual path)) := by
  have hall : Decides reading
      ((nodes.map f).mapM fun child => child.evaluate actual path depth)
      (every ((nodes.map g).map fun demand => demand.holds actual path)) := by
    refine decides_mapM ?_
    rw [List.forall₂_map_left_iff, List.forall₂_map_right_iff, List.forall₂_same]
    exact fun node hnode => (h node hnode).decides actual path depth
  refine hall.combine (combines context.limits.maxDiagnostics) fun results => ⟨_, rfl, ?_⟩
  simp [outcomes]

theorem decides_evaluateRecord {context : EvaluationContext}
    (hindex : context.scopeIndex = .ofScopes context.document.scopes)
    (fields : List (String × Node)) {f : Node → Child} {g : Node → Demand}
    (h : ∀ field ∈ fields, (f field.2).Follows (g field.2)) (closure : Closure) (actual : Json)
    (path : List String) (depth : ℕ) :
    Decides reading
      (evaluateRecord context (fields.map fun field => (field.1, f field.2)) closure actual path
        depth)
      (recordHolds context.document (fields.map fun field => (field.1, g field.2)) closure actual
        path) := by
  cases actual with
  | obj members =>
    have hkeys : (fields.map fun field => (field.1, f field.2)).map Prod.fst =
        (fields.map fun field => (field.1, g field.2)).map Prod.fst := by simp
    refine decides_combined (decides_mapM ?_) ?_
    · rw [List.forall₂_map_left_iff, List.forall₂_map_right_iff, List.forall₂_same]
      exact fun field hfield => decides_evaluateMember (h field hfield) _ _ _ _ _ _
    · rw [hkeys]
      exact decides_evaluateClosure hindex _ _ _ _ _
  | null | bool _ | int _ | float _ | str _ | arr _ =>
    refine decides_bad rfl fun hgood => ?_
    have hall := ((combines context.limits.maxDiagnostics).good _).mp hgood _
      (List.mem_singleton_self _)
    exact absurd hall (by simp)

/-- The references that an evaluation still follows are followed as the meaning says. -/
def Agree (context : EvaluationContext)
    (follow : String → Node → Json → List String → ℕ → Evaluation RelationResult)
    (ideal : String → Node → Json → List String → Except PyError Bool) : Prop :=
  ∀ target node, context.referenceHops < context.limits.maxReferenceHops →
    target ∉ context.referenceStack → context.document.definitions.lookup target = some node →
    ∀ actual path depth, Decides reading (follow target node actual path depth)
      (ideal target node actual path)

theorem decides_evaluateDefinitionReference {context : EvaluationContext}
    {follow : String → Node → Json → List String → ℕ → Evaluation RelationResult}
    {ideal : String → Node → Json → List String → Except PyError Bool}
    (h : Agree context follow ideal) (target : String) (actual : Json) (path : List String)
    (depth : ℕ) :
    Decides reading (evaluateDefinitionReference context follow target actual path depth)
      (referenceHolds context.document context.referenceStack ideal target actual path) := by
  unfold evaluateDefinitionReference referenceHolds
  by_cases hhops : context.referenceHops ≥ context.limits.maxReferenceHops
  · rw [if_pos hhops]
    exact decides_spent rfl rfl
  rw [if_neg hhops]
  by_cases hstack : target ∈ context.referenceStack
  · rw [if_pos hstack, if_pos hstack]
    exact decides_bad rfl (by simp)
  rw [if_neg hstack, if_neg hstack]
  cases hlookup : context.document.definitions.lookup target with
  | none => exact decides_bad rfl (by simp)
  | some node => exact h target node (by omega) hstack hlookup actual path depth

theorem decides_evaluateNodeWith {context : EvaluationContext}
    (hindex : context.scopeIndex = .ofScopes context.document.scopes)
    {follow : String → Node → Json → List String → ℕ → Evaluation RelationResult}
    {ideal : String → Node → Json → List String → Except PyError Bool}
    (h : Agree context follow ideal) (node : Node) (actual : Json) (path : List String)
    (depth : ℕ) :
    Decides reading (evaluateNodeWith context follow node actual path depth)
      (holdsWith context.installed context.document context.referenceStack ideal node actual
        path) := by
  induction node using Node.induct generalizing actual path depth with
  | hliteral header value =>
    exact decides_spendingNode (decides_pure (decides_comparison _ _ _))
  | hknowledge header state => exact decides_spendingNode (decides_bad rfl (by simp))
  | hdelegated header => exact decides_spendingNode (decides_good rfl rfl)
  | hdomain header domain =>
    exact decides_spendingNode (decides_evaluateDomain context domain actual path)
  | hgraph header authority allowedRefs cyclePolicy =>
    exact decides_spendingNode (decides_lift fun _ => decides_comparison _ _ _)
  | hreference header target =>
    exact decides_spendingNode (decides_evaluateDefinitionReference h target actual path depth)
  | hallOf header constraints ih =>
    rw [evaluateNodeWith, holdsWith, itemChildren_eq_map, itemDemands_eq_map]
    refine decides_spendingNode (decides_evaluateAllOf context constraints ?_ actual path depth)
    exact fun node hnode => ⟨rfl, fun actual path depth => ih node hnode actual path depth⟩
  | hrecord header fields closure ih =>
    rw [evaluateNodeWith, holdsWith, fieldChildren_eq_map, fieldDemands_eq_map]
    refine decides_spendingNode (decides_evaluateRecord hindex fields ?_ closure actual path depth)
    exact fun field hfield => ⟨rfl, fun actual path depth => ih field hfield actual path depth⟩
  | hkeyed header shape members ih =>
    rw [evaluateNodeWith, holdsWith, memberChildren_eq_map, memberDemands_eq_map]
    refine decides_spendingNode
      (decides_evaluateKeyedCollection hindex shape members ?_ actual path depth)
    exact fun member hmember => ⟨rfl, fun actual path depth => ih member hmember actual path depth⟩
  | hsequence header items closure minItems maxItems ih =>
    rw [evaluateNodeWith, holdsWith, itemChildren_eq_map, itemDemands_eq_map]
    refine decides_spendingNode
      (decides_evaluateSequence hindex items ?_ closure minItems maxItems actual path depth)
    exact fun item hitem => ⟨rfl, fun actual path depth => ih item hitem actual path depth⟩

theorem length_le_of_names {definitions : List (String × Node)} {stack : List String}
    (hnodup : stack.Nodup) (hnames : ∀ name ∈ stack, name ∈ definitions.map Prod.fst) :
    stack.length ≤ definitions.length := by
  have h := (List.subperm_of_subset hnodup hnames).length_le
  rwa [List.length_map] at h

/-- What an evaluation knows of the references that it has followed: they are different
names of definitions, and the hops left are those that the limit still allows. -/
structure Followed (context : EvaluationContext) (hops : ℕ) : Prop where
  index : context.scopeIndex = .ofScopes context.document.scopes
  nodup : context.referenceStack.Nodup
  names : ∀ name ∈ context.referenceStack, name ∈ context.document.definitions.map Prod.fst
  hops : hops + context.referenceHops = context.limits.maxReferenceHops

theorem mem_names_of_lookup {definitions : List (String × Node)} {name : String} {node : Node}
    (h : definitions.lookup name = some node) : name ∈ definitions.map Prod.fst :=
  List.mem_map_of_mem (mem_of_lookup_eq_some h)

theorem Followed.follow {context : EvaluationContext} {hops : ℕ}
    (h : Followed context (hops + 1)) {target : String} (hstack : target ∉ context.referenceStack)
    {node : Node} (hlookup : context.document.definitions.lookup target = some node) :
    Followed (context.followReference target) hops where
  index := h.index
  nodup := by
    refine List.nodup_append.mpr ⟨h.nodup, List.nodup_singleton _, ?_⟩
    rintro name hname _ hsingle rfl
    rw [List.mem_singleton.mp hsingle] at hname
    exact hstack hname
  names name hname := by
    rcases List.mem_append.mp hname with hname | hname
    · exact h.names name hname
    · rw [List.mem_singleton.mp hname]
      exact mem_names_of_lookup hlookup
  hops := by
    have hhops := h.hops
    show hops + (context.referenceHops + 1) = context.limits.maxReferenceHops
    omega

/-- A bounded evaluation of a node decides what the node demands.  The induction is on the
definitions that are not on the stack of references. -/
theorem decides_evaluateRecursiveNode {context : EvaluationContext} {hops fuel : ℕ}
    (h : Followed context hops)
    (hfuel : context.document.definitions.length ≤ fuel + context.referenceStack.length)
    (node : Node) (actual : Json) (path : List String) (depth : ℕ) :
    Decides reading (evaluateRecursiveNode hops context node actual path depth)
      (holds context.installed context.document fuel context.referenceStack node actual
        path) := by
  induction fuel generalizing context hops node actual path depth with
  | zero =>
    -- every definition is on the stack, so no reference is followed
    have hagree : ∀ follow, Agree context follow fun _ _ _ _ => .ok false := by
      intro follow target node _ hstack hlookup
      have hnodup : (target :: context.referenceStack).Nodup :=
        List.nodup_cons.mpr ⟨hstack, h.nodup⟩
      have hlength := length_le_of_names hnodup
        (List.forall_mem_cons.mpr ⟨mem_names_of_lookup hlookup, h.names⟩)
      rw [List.length_cons] at hlength
      omega
    cases hops with
    | zero => exact decides_evaluateNodeWith h.index (hagree _) node actual path depth
    | succ hops => exact decides_evaluateNodeWith h.index (hagree _) node actual path depth
  | succ fuel ih =>
    cases hops with
    | zero =>
      refine decides_evaluateNodeWith h.index ?_ node actual path depth
      intro target node hhops
      have := h.hops
      omega
    | succ hops =>
      refine decides_evaluateNodeWith h.index ?_ node actual path depth
      intro target node _ hstack hlookup actual path depth
      have hfollowed := h.follow hstack hlookup
      refine ih hfollowed ?_ node actual path depth
      show context.document.definitions.length ≤ fuel + (context.referenceStack ++ [target]).length
      rw [List.length_append, List.length_singleton]
      omega

end Raes.Realization
