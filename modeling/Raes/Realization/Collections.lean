import Mathlib.Data.List.ReduceOption
import Raes.Realization.Meaning

/-!
# Evaluation of collections

`_evaluation_context.py` and `_evaluation_collections.py`: the closure checks, and keyed
and ordered collections.  The indexing of a keyed collection is shared with the scopes
of `_scopes.py`, which use other texts and keep the items as they are.
-/

namespace Raes.Realization

open Stateful Verdict

structure EvaluationContext where
  installed : Installed
  limits : Limits
  document : Document
  scopeIndex : ScopeIndex
  referenceStack : List String
  referenceHops : ℕ

variable (context : EvaluationContext)

def EvaluationContext.followReference (target : String) : EvaluationContext :=
  { context with
    referenceStack := context.referenceStack ++ [target]
    referenceHops := context.referenceHops + 1 }

def EvaluationContext.combine (results : List RelationResult) : RelationResult :=
  combineRelationResults context.limits.maxDiagnostics results

/-- How one child of a node evaluates the member that it is about. -/
structure Child where
  presence : Presence
  evaluate : Json → List String → ℕ → Evaluation RelationResult

def evaluateClosure (own : Closure) (path : List String)
    (hasExtras : Bool) (undefinedMessage closedMessage : String) :
    Evaluation (Option RelationResult) := do
  match ← settle (if own.posture ≠ .undefined then pure own else
      context.scopeIndex.inheritedClosure context.limits path context.document.defaultClosure) with
  | .error failure => return some failure
  | .ok closure =>
    return match closure.posture, hasExtras with
      | .undefined, _ =>
        some (relationResult .unsupported (pointerFromTokens path) undefinedMessage)
      | .closed, true =>
        some (relationResult .nonconformant (pointerFromTokens path) closedMessage)
      | _, _ => none

def evaluatePresence (presence : Presence) (present : Bool)
    (address forbiddenMessage requiredMessage : String) : Option RelationResult :=
  match presence, present with
  | .forbidden, true => some (relationResult .nonconformant address forbiddenMessage)
  | .required, false => some (relationResult .nonconformant address requiredMessage)
  | _, _ => none

def evaluateMember (child : Child) (actual : Option Json) (path : List String) (depth : ℕ)
    (address forbiddenMessage requiredMessage : String) : Evaluation (Option RelationResult) :=
  match evaluatePresence child.presence actual.isSome address forbiddenMessage requiredMessage,
    actual with
  | some result, _ => pure (some result)
  | none, some actual => do
    let result ← child.evaluate actual path (depth + 1)
    return some result
  | none, none => pure none

/-- The texts of the failures of an indexing, and whether it rewrites the items. -/
structure IndexRules where
  address : String
  (aliasExhausted itemExhausted memberExhausted : String → String)
  (incomplete duplicate : String)
  rewrites : Bool

section Indexing

variable (installed : Installed) (limits : Limits) (rules : IndexRules)

def spendIndex (message : String → String) : Resolution Unit :=
  require (spendIdentity limits) rules.address message

def keyedAliases (aliases : List IdentityAlias) : Resolution (Dict String Identity) :=
  aliases.foldlM (fun found entry => do
    spendIndex limits rules rules.aliasExhausted
    let key ← raising (identityKey installed entry.identity)
    return found.set key entry.target) .empty

variable (identityFields : List String) (aliases : Dict String Identity)

def canonicalActualItem (item : Json) : Resolution (String × Json) :=
  match actualIdentity item identityFields with
  | none => refuse .invalid rules.address rules.incomplete
  | some identity => do
    let sourceKey ← raising (identityKey installed identity)
    match aliases.get? sourceKey with
    | none => do
      let key ← raising (identityKey installed identity)
      return (key, item)
    | some target => do
      spendIndex limits rules rules.aliasExhausted
      let key ← raising (identityKey installed target)
      return (key, if rules.rewrites then rewriteIdentity identityFields target item else item)

def indexKeyedActual (indexed : Dict String Json) (item : Json) : Resolution
    (Dict String Json) := do
  spendIndex limits rules rules.itemExhausted
  let entry ← canonicalActualItem installed limits rules identityFields aliases item
  if indexed.contains entry.1 then refuse .invalid rules.address rules.duplicate
  else return indexed.set entry.1 entry.2

def indexKeyedActuals (actual : List Json) : Resolution (Dict String Json) :=
  actual.foldlM (indexKeyedActual installed limits rules identityFields aliases) .empty

def declaredKeyedMembers {α : Type} (members : List (Identity × α)) :
    Resolution (Dict String α) :=
  members.foldlM (fun declared member => do
    spendIndex limits rules rules.memberExhausted
    let key ← raising (identityKey installed member.1)
    return declared.set key member.2) .empty

def resolveKeyed {α : Type} (shape : CollectionShape) (members : List (Identity × α))
    (actual : List Json) : Resolution (Dict String Json × Dict String α) := do
  let aliases ← keyedAliases installed limits rules shape.aliases
  let indexed ← indexKeyedActuals installed limits rules shape.identityFields aliases actual
  let declared ← declaredKeyedMembers installed limits rules members
  return (indexed, declared)

end Indexing

/-- The texts of a collection that is not what its node requires. -/
structure CollectionTexts where
  (shape exceeded cardinality : String)

def collectionInput (limits : Limits) (texts : CollectionTexts) (minItems maxItems : ℕ)
    (actual : Json) (path : List String) : Resolution (List Json) :=
  match actual with
  | .arr items =>
    if items.length > limits.maxMembers then
      refuse .limitExceeded (pointerFromTokens path) texts.exceeded
    else if minItems ≤ items.length ∧ items.length ≤ maxItems then pure items
    else refuse .nonconformant (pointerFromTokens path) texts.cardinality
  | _ => refuse .nonconformant (pointerFromTokens path) texts.shape

/-- `_keyed_input_failure` -/
def keyedInput (limits : Limits) (shape : CollectionShape) (actual : Json)
    (path : List String) : Resolution (List Json) :=
  collectionInput limits
    { shape := "Observed value is not the required keyed collection."
      exceeded := "Keyed collection evaluation exceeded max_members."
      cardinality := "Observed keyed collection violates its declared cardinality." }
    shape.minItems shape.maxItems actual path

/-- `_sequence_input_failure` -/
def sequenceInput (limits : Limits) (minItems maxItems : ℕ) (actual : Json)
    (path : List String) : Resolution (List Json) :=
  collectionInput limits
    { shape := "Observed value is not the required ordered sequence."
      exceeded := "Ordered sequence evaluation exceeded max_members."
      cardinality := "Observed sequence violates its declared cardinality." }
    minItems maxItems actual path

def evaluationRules (path : List String) : IndexRules where
  address := pointerFromTokens path
  aliasExhausted exhausted := s!"Keyed collection alias evaluation exceeded {exhausted}."
  itemExhausted exhausted := s!"Keyed collection evaluation exceeded {exhausted}."
  memberExhausted exhausted := s!"Keyed collection declaration evaluation exceeded {exhausted}."
  incomplete := "A keyed collection member has no complete concrete semantic identity."
  duplicate := "A keyed collection contains a duplicate or ambiguous semantic identity."
  rewrites := true

def memberAddress (path : List String) (key : String) : String :=
  pointerFromTokens path ++ "/@" ++ String.ofList ((removeStart "sha256:" key).toList.take 16)

def evaluateKeyedMembers (declared : Dict String Child) (indexed : Dict String Json)
    (path : List String) (depth : ℕ) : Evaluation (List (Option RelationResult)) :=
  declared.entries.mapM fun member =>
    evaluateMember member.2 (indexed.get? member.1) (path ++ ["@" ++ member.1]) depth
      (memberAddress path member.1) "A forbidden collection member is present."
      "A required collection member is absent."

def evaluateKeyedCollection (context : EvaluationContext) (shape : CollectionShape)
    (members : List (Identity × Child)) (actual : Json) (path : List String) (depth : ℕ) :
    Evaluation RelationResult := do
  match ← settle (do
      let items ← keyedInput context.limits shape actual path
      resolveKeyed context.installed context.limits (evaluationRules path) shape members items) with
  | .error failure => return context.combine [failure]
  | .ok (indexed, declared) => do
    let results ← evaluateKeyedMembers declared indexed path depth
    let closureResult ← evaluateClosure context shape.closure path
      (hasOtherKeys indexed declared.keys)
      "No effective closure policy is selected for this keyed collection."
      "A closed keyed collection contains an additional member in its named universe."
    return context.combine (results.reduceOption ++ closureResult.toList)

def evaluateSequenceMembers (children : List Child) (actual : List Json) (path : List String)
    (depth : ℕ) : Evaluation (List (Option RelationResult)) :=
  children.zipIdx.mapM fun child =>
    let itemPath := path ++ [toString child.2]
    evaluateMember child.1 actual[child.2]? itemPath depth (pointerFromTokens itemPath)
      "A forbidden sequence occurrence is present." "A required sequence occurrence is absent."

def evaluateSequence (context : EvaluationContext) (children : List Child) (closure : Closure)
    (minItems maxItems : ℕ) (actual : Json) (path : List String) (depth : ℕ) :
    Evaluation RelationResult := do
  match ← settle (sequenceInput context.limits minItems maxItems actual path) with
  | .error failure => return context.combine [failure]
  | .ok items => do
    let results ← evaluateSequenceMembers children items path depth
    let closureResult ← evaluateClosure context closure path (items.length > children.length)
      "No effective closure policy is selected for this ordered sequence."
      "A closed ordered sequence contains additional occurrences."
    return context.combine (results.reduceOption ++ closureResult.toList)

end Raes.Realization

/-!
# Collections decide what they demand

Each function of `Raes.Realization.Collections` agrees with its ideal of
`Raes.Realization.Meaning`, unless a limit is exhausted.
-/

namespace Raes.Realization

open Stateful Verdict

theorem decides_evaluateClosure {context : EvaluationContext}
    (hindex : context.scopeIndex = .ofScopes context.document.scopes) (own : Closure)
    (path : List String) (hasExtras : Bool) (undefinedMessage closedMessage : String) :
    Decides reading
      (evaluateClosure context own path hasExtras undefinedMessage closedMessage)
      (.ok ((context.document.closureOf own path).permits hasExtras)) := by
  have hfinds : Finds reading (if own.posture ≠ .undefined then pure own else
      context.scopeIndex.inheritedClosure context.limits path context.document.defaultClosure)
      (.ok (context.document.closureOf own path)) := by
    rw [Document.closureOf, hindex]
    split
    · exact seeks_pure rfl
    · exact ScopeIndex.finds_inheritedClosure _ _ _ _
  refine hfinds.settle_decides (α := Option RelationResult)
    (g := fun closure => .ok (closure.permits hasExtras)) (fun r hr q => ?_) (fun r hr => ?_) ?_
  · exact decides_spent rfl hr
  · exact decides_bad rfl hr
  · rintro closure _ - rfl
    refine decides_pure ?_
    cases hposture : closure.posture <;> cases hasExtras <;>
      simp [Closure.permits, outcomes, hposture]

/-- The child evaluates what the demand says. -/
structure Child.Follows (child : Child) (demand : Demand) : Prop where
  presence : child.presence = demand.presence
  decides : ∀ actual path depth,
    Decides reading (child.evaluate actual path depth) (demand.holds actual path)

theorem decides_evaluateMember {child : Child} {demand : Demand} (h : child.Follows demand)
    (actual : Option Json) (path : List String) (depth : ℕ)
    (address forbiddenMessage requiredMessage : String) :
    Decides reading
      (evaluateMember child actual path depth address forbiddenMessage requiredMessage)
      (demand.ofMember actual path) := by
  have hsome : ∀ actual, Decides reading (do
      let result ← child.evaluate actual path (depth + 1)
      return some result) (demand.holds actual path) := fun actual =>
    (h.decides actual path (depth + 1)).relabel fun _ => rfl
  unfold evaluateMember evaluatePresence Demand.ofMember
  rw [h.presence]
  cases demand.presence <;> cases actual
  · exact decides_bad rfl (by simp)
  · exact hsome _
  · exact decides_none rfl
  · exact hsome _
  · exact decides_none rfl
  · exact decides_bad rfl (by simp)

section Indexing

variable (installed : Installed) (limits : Limits) (rules : IndexRules)

theorem finds_spendIndex (message : String → String) :
    Finds reading (spendIndex limits rules message) (.ok ()) :=
  seeks_require (total_spendIdentity limits) _ _

theorem seeks_key_bind {δ κ : Type} {S : δ → κ → Prop} (identity : Identity)
    {f : String → Resolution δ} {g : String → Ideal κ} (h : ∀ key, Seeks reading S (f key) (g key)) :
    Seeks reading S (raising (identityKey installed identity) >>= f)
      (keyOf installed identity >>= g) := by
  refine (finds_raising _).bind ?_
  rintro key _ rfl
  exact h key

theorem finds_keyedAliases (aliases : List IdentityAlias) :
    Finds reading (keyedAliases installed limits rules aliases)
      (aliasTargets installed aliases) := by
  refine seeks_foldlM aliases ?_ rfl
  rintro found _ entry - rfl
  exact Seeks.after (finds_spendIndex limits rules _)
    (seeks_key_bind installed _ fun key => seeks_pure rfl)

theorem finds_canonicalActualItem (identityFields : List String)
    (aliases : Dict String Identity) (item : Json) :
    Finds reading (canonicalActualItem installed limits rules identityFields aliases item)
      (canonicalItem installed identityFields aliases rules.rewrites item) := by
  unfold canonicalActualItem canonicalItem
  cases actualIdentity item identityFields with
  | none => exact seeks_fail (by simp)
  | some identity =>
    refine seeks_key_bind installed identity fun sourceKey => ?_
    cases aliases.get? sourceKey with
    | none => exact seeks_key_bind installed identity fun key => seeks_pure rfl
    | some target =>
      exact Seeks.after (finds_spendIndex limits rules _)
        (seeks_key_bind installed target fun key => seeks_pure rfl)

theorem finds_indexKeyedActuals (identityFields : List String)
    (aliases : Dict String Identity) (actual : List Json) :
    Finds reading (indexKeyedActuals installed limits rules identityFields aliases actual)
      (indexItems installed identityFields aliases rules.rewrites actual) := by
  refine seeks_foldlM actual ?_ rfl
  rintro indexed _ item - rfl
  refine Seeks.after (finds_spendIndex limits rules _) ?_
  refine (finds_canonicalActualItem installed limits rules identityFields aliases item).bind ?_
  rintro entry _ rfl
  split
  · exact seeks_fail (by simp)
  · exact seeks_pure rfl

theorem seeks_declaredKeyedMembers {ν δ κ : Type} {S : δ → κ → Prop}
    (members : List (Identity × ν)) {f : ν → δ} {g : ν → κ}
    (h : ∀ member ∈ members, S (f member.2) (g member.2)) :
    Seeks reading (Dict.Related fun _ => S)
      (declaredKeyedMembers installed limits rules (members.map fun m => (m.1, f m.2)))
      (declaredMembers installed (members.map fun m => (m.1, g m.2))) := by
  unfold declaredKeyedMembers declaredMembers
  rw [List.foldlM_map, List.foldlM_map]
  refine seeks_foldlM members ?_ Dict.related_empty
  intro declared declared' member hmember hrelated
  refine Seeks.after (finds_spendIndex limits rules _) ?_
  exact seeks_key_bind installed _ fun key => seeks_pure (hrelated.set (h member hmember))

/-- Two results of an indexing: the same items, and related members. -/
def RelatedMembers {δ κ : Type} (S : δ → κ → Prop)
    (found : Dict String Json × Dict String δ) (ideal : Dict String Json × Dict String κ) : Prop :=
  found.1 = ideal.1 ∧ Dict.Related (fun _ => S) found.2 ideal.2

theorem seeks_resolveKeyed {ν δ κ : Type} {S : δ → κ → Prop} (shape : CollectionShape)
    (members : List (Identity × ν)) {f : ν → δ} {g : ν → κ}
    (h : ∀ member ∈ members, S (f member.2) (g member.2)) (actual : List Json) :
    Seeks reading (RelatedMembers S)
      (resolveKeyed installed limits rules shape (members.map fun m => (m.1, f m.2)) actual)
      (keyedMembers installed shape rules.rewrites (members.map fun m => (m.1, g m.2)) actual) := by
  refine (finds_keyedAliases installed limits rules shape.aliases).bind ?_
  rintro aliases _ rfl
  refine (finds_indexKeyedActuals installed limits rules shape.identityFields aliases
    actual).bind ?_
  rintro indexed _ rfl
  refine (seeks_declaredKeyedMembers installed limits rules members h).bind ?_
  intro declared declared' hrelated
  exact seeks_pure ⟨rfl, hrelated⟩

end Indexing

theorem finds_collectionInput (limits : Limits) (texts : CollectionTexts)
    (minItems maxItems : ℕ) (actual : Json) (path : List String) :
    Finds reading (collectionInput limits texts minItems maxItems actual path)
      (collectionItems minItems maxItems actual) := by
  unfold collectionInput collectionItems
  cases actual with
  | arr items =>
    simp only
    split
    · exact seeks_stop rfl
    · split
      · exact seeks_pure rfl
      · exact seeks_fail (by simp)
  | null | bool _ | int _ | float _ | str _ | obj _ => exact seeks_fail (by simp)

theorem outcomes_results (results : List (Option RelationResult)) :
    (outcomes results : List RelationResult) = results.reduceOption := by
  induction results with
  | nil => rfl
  | cons first rest ih => cases first <;> simp_all [outcomes, List.reduceOption]

variable {context : EvaluationContext}

theorem decides_combined {p q : Except PyError Bool}
    {m : Evaluation (List (Option RelationResult))} {n : Evaluation (Option RelationResult)}
    (hm : Decides reading m p) (hn : Decides reading n q) : Decides reading (do
      let results ← m
      let closureResult ← n
      return context.combine (results.reduceOption ++ closureResult.toList)) (both p q) := by
  refine hm.both_combine (combines context.limits.maxDiagnostics) hn fun results result => ?_
  refine ⟨_, rfl, fun r => ?_⟩
  rw [← outcomes_results]
  exact Iff.rfl

theorem decides_evaluateKeyedMembers {declared : Dict String Child}
    {demanded : Dict String Demand} (h : Dict.Related (fun _ => Child.Follows) declared demanded)
    (indexed : Dict String Json) (path : List String) (depth : ℕ) :
    Decides reading (evaluateKeyedMembers declared indexed path depth)
      (every (demanded.entries.map fun member =>
        member.2.ofMember (indexed.get? member.1) (path ++ ["@" ++ member.1]))) := by
  refine decides_mapM (h.imp fun member demand hmember => ?_)
  rw [hmember.1]
  exact decides_evaluateMember hmember.2 _ _ _ _ _ _

theorem seeks_keyedCollection {ν : Type} (context : EvaluationContext) (shape : CollectionShape)
    (members : List (Identity × ν)) {f : ν → Child} {g : ν → Demand}
    (h : ∀ member ∈ members, (f member.2).Follows (g member.2)) (actual : Json)
    (path : List String) :
    Seeks reading (RelatedMembers Child.Follows)
      (do
        let items ← keyedInput context.limits shape actual path
        resolveKeyed context.installed context.limits (evaluationRules path) shape
          (members.map fun m => (m.1, f m.2)) items)
      (do
        let items ← collectionItems shape.minItems shape.maxItems actual
        keyedMembers context.installed shape true (members.map fun m => (m.1, g m.2)) items) := by
  refine (finds_collectionInput _ _ _ _ actual path).bind ?_
  rintro items _ rfl
  exact seeks_resolveKeyed context.installed context.limits (evaluationRules path) shape members h
    items

theorem decides_evaluateKeyedCollection {ν : Type}
    (hindex : context.scopeIndex = .ofScopes context.document.scopes) (shape : CollectionShape)
    (members : List (Identity × ν)) {f : ν → Child} {g : ν → Demand}
    (h : ∀ member ∈ members, (f member.2).Follows (g member.2)) (actual : Json)
    (path : List String) (depth : ℕ) : Decides reading
      (evaluateKeyedCollection context shape (members.map fun m => (m.1, f m.2)) actual path depth)
      (keyedHolds context.installed context.document shape (members.map fun m => (m.1, g m.2))
        actual path) := by
  refine (seeks_keyedCollection context shape members h actual path).settle_decides
    (fun r hr q => ?_) (fun r hr => ?_) ?_
  · exact decides_spent rfl ((combines _).spent _ ⟨r, List.mem_singleton_self r, hr⟩)
  · exact decides_bad rfl fun hgood => hr (((combines _).good _).mp hgood r
      (List.mem_singleton_self r))
  · rintro ⟨indexed, declared⟩ ⟨_, demanded⟩ - ⟨rfl, hrelated⟩
    have hkeys : declared.keys = demanded.keys := hrelated.keys_eq
    refine decides_combined (decides_evaluateKeyedMembers hrelated indexed path depth) ?_
    show Decides reading _ (.ok ((context.document.closureOf shape.closure path).permits
      (hasOtherKeys indexed demanded.keys)))
    rw [← hkeys]
    exact decides_evaluateClosure hindex _ _ _ _ _

theorem decides_evaluateSequenceMembers {ν : Type} (nodes : List ν) {f : ν → Child}
    {g : ν → Demand} (h : ∀ node ∈ nodes, (f node).Follows (g node)) (items : List Json)
    (path : List String) (depth : ℕ) :
    Decides reading (evaluateSequenceMembers (nodes.map f) items path depth)
      (every ((nodes.map g).zipIdx.map fun demand =>
        demand.1.ofMember items[demand.2]? (path ++ [toString demand.2]))) := by
  refine decides_mapM ?_
  rw [List.zipIdx_map, List.zipIdx_map, List.forall₂_map_left_iff, List.forall₂_map_right_iff,
    List.forall₂_same]
  intro entry hentry
  exact decides_evaluateMember (h _ (List.fst_mem_of_mem_zipIdx hentry)) _ _ _ _ _ _

theorem decides_evaluateSequence {ν : Type}
    (hindex : context.scopeIndex = .ofScopes context.document.scopes) (nodes : List ν)
    {f : ν → Child} {g : ν → Demand} (h : ∀ node ∈ nodes, (f node).Follows (g node))
    (closure : Closure) (minItems maxItems : ℕ) (actual : Json) (path : List String) (depth : ℕ) :
    Decides reading
      (evaluateSequence context (nodes.map f) closure minItems maxItems actual path depth)
      (sequenceHolds context.document (nodes.map g) closure minItems maxItems actual path) := by
  refine (finds_collectionInput _ _ minItems maxItems actual path).settle_decides
    (fun r hr q => ?_) (fun r hr => ?_) ?_
  · exact decides_spent rfl ((combines _).spent _ ⟨r, List.mem_singleton_self r, hr⟩)
  · exact decides_bad rfl fun hgood => hr (((combines _).good _).mp hgood r
      (List.mem_singleton_self r))
  · rintro items _ - rfl
    have hclosure := decides_evaluateClosure hindex closure path
      (decide (items.length > nodes.length))
      "No effective closure policy is selected for this ordered sequence."
      "A closed ordered sequence contains additional occurrences."
    have hmembers := decides_evaluateSequenceMembers nodes h items path depth
    simp only [List.length_map]
    exact decides_combined hmembers hclosure

end Raes.Realization
