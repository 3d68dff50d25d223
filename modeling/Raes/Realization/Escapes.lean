import Raes.Realization.Conformance

/-!
# Where an evaluation raises

An evaluation converts integers to floats and identities to canonical text, and neither
conversion is total.  A value is unsafe at a node that converts what has no result, and
an evaluation raises when it reaches such a place.
-/

namespace Raes.Realization

open Stateful Verdict

/-! ## Keyed collections -/

@[irreducible] def ExceedsFloat (n : ℤ) : Prop := 2 ^ 1024 - 2 ^ 970 ≤ n.natAbs

def Raises {κ : Type} (p : Ideal κ) : Prop := ∃ e, p = .error (some e)

@[simp] theorem not_raises_ok {κ : Type} (k : κ) : ¬ Raises (.ok k : Ideal κ) :=
  fun ⟨_, h⟩ => nomatch h

@[simp] theorem not_raises_refusal {κ : Type} : ¬ Raises (.error none : Ideal κ) :=
  fun ⟨_, h⟩ => nomatch h

theorem raises_bind {κ η : Type} (p : Ideal κ) (f : κ → Ideal η) :
    Raises (p >>= f) ↔ Raises p ∨ ∃ k, p = .ok k ∧ Raises (f k) := by
  rcases p with e | k
  · cases e <;> simp [Raises, bind, Except.bind]
  · simp [Raises, bind, Except.bind]

/-- Some item cannot be keyed, and the items before it can. -/
def UnkeyableItem (installed : Installed) (shape : CollectionShape)
    (aliases : Dict String Identity) (rewrites : Bool) (items : List Json) : Prop :=
  ∃ before item after indexed identity, items = before ++ item :: after ∧
    indexItems installed shape.identityFields aliases rewrites before = .ok indexed ∧
    actualIdentity item shape.identityFields = some identity ∧ ¬ IsCanonicalIdentity identity

section Keyed

variable (installed : Installed)

theorem raises_keyOf_iff (identity : Identity) :
    Raises (keyOf installed identity) ↔ ¬ IsCanonicalIdentity identity := by
  rw [← identityKey_ok_iff installed]
  unfold keyOf
  cases identityKey installed identity with
  | error e => simp [Raises, Except.mapError]
  | ok key => simp [Raises, Except.mapError]

theorem keyOf_ok {identity : Identity} (h : IsCanonicalIdentity identity) :
    ∃ key, keyOf installed identity = .ok key := by
  obtain ⟨key, hkey⟩ := (identityKey_ok_iff installed identity).mpr h
  refine ⟨key, ?_⟩
  rw [keyOf, hkey]
  rfl

theorem aliasTargets_ok (aliases : List IdentityAlias)
    (h : ∀ entry ∈ aliases, IsCanonicalIdentity entry.identity ∧ IsCanonicalIdentity entry.target) :
    ∃ found, aliasTargets installed aliases = .ok found ∧
      ∀ key target, found.get? key = some target → IsCanonicalIdentity target := by
  refine foldlM_ok_of (fun found entry hentry hfound => ?_) fun _ _ h => nomatch h
  obtain ⟨key, hkey⟩ := keyOf_ok installed (h entry hentry).1
  rw [hkey]
  refine ⟨_, rfl, fun other target hother => ?_⟩
  rw [Dict.get?_set] at hother
  split at hother
  · cases hother
    exact (h entry hentry).2
  · exact hfound other target hother

theorem declaredMembers_ok {α : Type} (members : List (Identity × α))
    (h : ∀ member ∈ members, IsCanonicalIdentity member.1) :
    ∃ declared, declaredMembers installed members = .ok declared := by
  have h := foldlM_ok_of (P := fun _ : Dict String α => True) (l := members)
    (f := fun declared member => do
      let key ← keyOf installed member.1
      return declared.set key member.2) (b := .empty) (fun declared member hmember _ => ?_) trivial
  · obtain ⟨declared, hdeclared, -⟩ := h
    exact ⟨declared, hdeclared⟩
  · obtain ⟨key, hkey⟩ := keyOf_ok installed (h member hmember)
    rw [hkey]
    exact ⟨_, rfl, trivial⟩

variable {aliases : Dict String Identity}

theorem raises_canonicalItem_iff (identityFields : List String)
    (haliases : ∀ key target, aliases.get? key = some target → IsCanonicalIdentity target)
    (rewrites : Bool) (item : Json) :
    Raises (canonicalItem installed identityFields aliases rewrites item) ↔
      ∃ identity, actualIdentity item identityFields = some identity ∧
        ¬ IsCanonicalIdentity identity := by
  unfold canonicalItem
  cases actualIdentity item identityFields with
  | none => simp
  | some identity =>
    simp only [Option.some.injEq, exists_eq_left']
    rw [raises_bind, raises_keyOf_iff]
    refine or_iff_left ?_
    rintro ⟨sourceKey, hkey, hraises⟩
    have hcanonical : IsCanonicalIdentity identity := by
      by_contra h
      obtain ⟨e, he⟩ := (raises_keyOf_iff installed identity).mpr h
      rw [hkey] at he
      cases he
    cases htarget : aliases.get? sourceKey with
    | none =>
      rw [htarget] at hraises
      dsimp only at hraises
      obtain ⟨key, hkey⟩ := keyOf_ok installed hcanonical
      rw [hkey] at hraises
      exact not_raises_ok _ hraises
    | some target =>
      rw [htarget] at hraises
      dsimp only at hraises
      obtain ⟨key, hkey⟩ := keyOf_ok installed (haliases sourceKey target htarget)
      rw [hkey] at hraises
      exact not_raises_ok _ hraises

theorem raises_indexItem_iff (identityFields : List String)
    (haliases : ∀ key target, aliases.get? key = some target → IsCanonicalIdentity target)
    (rewrites : Bool) (indexed : Dict String Json) (item : Json) :
    Raises (indexItem installed identityFields aliases rewrites indexed item) ↔
      ∃ identity, actualIdentity item identityFields = some identity ∧
        ¬ IsCanonicalIdentity identity := by
  rw [indexItem, raises_bind, raises_canonicalItem_iff installed identityFields haliases]
  refine or_iff_left ?_
  rintro ⟨entry, _, hraises⟩
  split at hraises
  · exact not_raises_refusal hraises
  · exact not_raises_ok _ hraises

theorem raises_indexItems_iff (shape : CollectionShape)
    (haliases : ∀ key target, aliases.get? key = some target → IsCanonicalIdentity target)
    (rewrites : Bool) (items : List Json) :
    Raises (indexItems installed shape.identityFields aliases rewrites items) ↔
      UnkeyableItem installed shape aliases rewrites items := by
  have hitem := raises_indexItem_iff installed shape.identityFields haliases rewrites
  constructor
  · rintro ⟨e, he⟩
    obtain ⟨before, item, after, indexed, rfl, hbefore, herror⟩ :=
      foldlM_eq_error_iff.mp he
    obtain ⟨identity, hidentity, hcanonical⟩ := (hitem indexed item).mp ⟨e, herror⟩
    exact ⟨before, item, after, indexed, identity, rfl, hbefore, hidentity, hcanonical⟩
  · rintro ⟨before, item, after, indexed, identity, rfl, hbefore, hidentity, hcanonical⟩
    obtain ⟨e, he⟩ := (hitem indexed item).mpr ⟨identity, hidentity, hcanonical⟩
    exact ⟨e, foldlM_eq_error_iff.mpr
      ⟨before, item, after, indexed, rfl, hbefore, he⟩⟩

/-- The items of a keyed collection of which one cannot be keyed. -/
def Unkeyable (shape : CollectionShape) (rewrites : Bool) (items : List Json) : Prop :=
  ∃ aliases, aliasTargets installed shape.aliases = .ok aliases ∧
    UnkeyableItem installed shape aliases rewrites items

theorem raises_keyedMembers_iff {α : Type} {shape : CollectionShape}
    {members : List (Identity × α)} (hshape : shape.Valid installed (members.map Prod.fst))
    (rewrites : Bool) (items : List Json) :
    Raises (keyedMembers installed shape rewrites members items) ↔
      Unkeyable installed shape rewrites items := by
  obtain ⟨aliases, haliases, htargets⟩ := aliasTargets_ok installed shape.aliases
    hshape.aliasCanonical
  obtain ⟨declared, hdeclared⟩ := declaredMembers_ok installed members fun member hmember =>
    hshape.canonical _ (List.mem_map_of_mem hmember)
  rw [keyedMembers, haliases]
  show Raises (indexItems _ _ aliases _ _ >>= fun indexed => do
    let declared ← declaredMembers installed members
    return (indexed, declared)) ↔ _
  rw [raises_bind, raises_indexItems_iff installed shape htargets, hdeclared]
  constructor
  · rintro (h | ⟨_, _, h⟩)
    · exact ⟨aliases, haliases, h⟩
    · exact absurd h (not_raises_ok _)
  · rintro ⟨aliases', haliases', h⟩
    rw [haliases] at haliases'
    cases haliases'
    exact Or.inl h

end Keyed

section Reaches

variable (installed : Installed) (document : Document)

inductive Reaches (goal : Node) (value : Json) : List String → Node → Json → Prop
  | here (stack : List String) : Reaches goal value stack goal value
  | conjunct {stack header constraints child actual} (hchild : child ∈ constraints)
      (h : Reaches goal value stack child actual) :
      Reaches goal value stack (.allOf header constraints) actual
  | field {stack header fields closure members actual} {field : String × Node}
      (hfield : field ∈ fields) (hpresence : field.2.presence ≠ .forbidden)
      (hactual : members.lookup field.1 = some actual)
      (h : Reaches goal value stack field.2 actual) :
      Reaches goal value stack (.record header fields closure) (.obj members)
  | member {stack header shape nodes items found actual} {member : String × Node}
      (hsize : shape.minItems ≤ items.length ∧ items.length ≤ shape.maxItems)
      (hfound : keyedMembers installed shape true nodes items = .ok found)
      (hmember : member ∈ found.2.entries) (hpresence : member.2.presence ≠ .forbidden)
      (hactual : found.1.get? member.1 = some actual)
      (h : Reaches goal value stack member.2 actual) :
      Reaches goal value stack (.keyed header shape nodes) (.arr items)
  | item {stack header nodes closure minItems maxItems items child actual} {index : ℕ}
      (hsize : minItems ≤ items.length ∧ items.length ≤ maxItems)
      (hchild : nodes[index]? = some child) (hpresence : child.presence ≠ .forbidden)
      (hactual : items[index]? = some actual) (h : Reaches goal value stack child actual) :
      Reaches goal value stack (.sequence header nodes closure minItems maxItems) (.arr items)
  | reference {stack header target node actual} (hstack : target ∉ stack)
      (hlookup : document.definitions.lookup target = some node)
      (h : Reaches goal value (stack ++ [target]) node actual) :
      Reaches goal value stack (.definitionReference header target) actual

/-- The evaluator of the node converts a part of the value that has no conversion. -/
def Unsafe : Node → Json → Prop
  | .domain _ (.numericInterval _), .int n => ExceedsFloat n
  | .keyed _ shape _, .arr items =>
    (shape.minItems ≤ items.length ∧ items.length ≤ shape.maxItems) ∧
      Unkeyable installed shape true items
  | _, _ => False

def SafeBelow (stack : List String) (node : Node) (actual : Json) : Prop :=
  ∀ goal value, Reaches installed document goal value stack node actual →
    ¬ Unsafe installed goal value

variable {installed document} {stack : List String}

theorem safeBelow_leaf_iff {node : Node} {actual : Json}
    (hleaf : ∀ goal value, Reaches installed document goal value stack node actual →
      goal = node ∧ value = actual) :
    SafeBelow installed document stack node actual ↔ ¬ Unsafe installed node actual := by
  constructor
  · exact fun h => h node actual (.here stack)
  · intro h goal value hreach
    obtain ⟨rfl, rfl⟩ := hleaf goal value hreach
    exact h

variable {header : NodeHeader}

theorem safeBelow_allOf_iff {constraints : List Node} {actual : Json} :
    SafeBelow installed document stack (.allOf header constraints) actual ↔
      ∀ child ∈ constraints, SafeBelow installed document stack child actual := by
  constructor
  · intro h child hchild goal value hreach
    exact h goal value (.conjunct hchild hreach)
  · intro h goal value hreach
    cases hreach with
    | here => exact id
    | conjunct hchild hreach => exact h _ hchild goal value hreach

theorem safeBelow_record_iff {fields : List (String × Node)} {closure : Closure} {members : List
    (String × Json)} :
    SafeBelow installed document stack (.record header fields closure) (.obj members) ↔
      ∀ field ∈ fields, field.2.presence ≠ .forbidden → ∀ actual,
        members.lookup field.1 = some actual →
          SafeBelow installed document stack field.2 actual := by
  constructor
  · intro h field hfield hpresence actual hactual goal value hreach
    exact h goal value (.field hfield hpresence hactual hreach)
  · intro h goal value hreach
    cases hreach with
    | here => exact id
    | field hfield hpresence hactual hreach =>
      exact h _ hfield hpresence _ hactual goal value hreach

theorem safeBelow_keyed_iff {shape : CollectionShape} {nodes : List (Identity × Node)}
    {items : List Json} (hsize : shape.minItems ≤ items.length ∧ items.length ≤ shape.maxItems) :
    SafeBelow installed document stack (.keyed header shape nodes) (.arr items) ↔
      ¬ Unkeyable installed shape true items ∧
        ∀ found, keyedMembers installed shape true nodes items = .ok found →
          ∀ member ∈ found.2.entries, member.2.presence ≠ .forbidden → ∀ actual,
            found.1.get? member.1 = some actual →
              SafeBelow installed document stack member.2 actual := by
  constructor
  · intro h
    refine ⟨fun hunkeyable => h _ _ (.here stack) ⟨hsize, hunkeyable⟩, ?_⟩
    intro found hfound member hmember hpresence actual hactual goal value hreach
    exact h goal value (.member hsize hfound hmember hpresence hactual hreach)
  · rintro ⟨hkeyable, h⟩ goal value hreach
    cases hreach with
    | here => exact fun hunsafe => hkeyable hunsafe.2
    | member _ hfound hmember hpresence hactual hreach =>
      exact h _ hfound _ hmember hpresence _ hactual goal value hreach

theorem safeBelow_sequence_iff {nodes : List Node}
    {closure : Closure} {minItems maxItems : ℕ} {items : List Json}
    (hsize : minItems ≤ items.length ∧ items.length ≤ maxItems) :
    SafeBelow installed document stack (.sequence header nodes closure minItems maxItems)
        (.arr items) ↔
      ∀ (index : ℕ) (child : Node), nodes[index]? = some child → child.presence ≠ .forbidden → ∀ actual,
        items[index]? = some actual → SafeBelow installed document stack child actual := by
  constructor
  · intro h index child hchild hpresence actual hactual goal value hreach
    exact h goal value (.item hsize hchild hpresence hactual hreach)
  · intro h goal value hreach
    cases hreach with
    | here => exact id
    | item _ hchild hpresence hactual hreach =>
      exact h _ _ hchild hpresence _ hactual goal value hreach

theorem safeBelow_reference_iff {target : String} {actual : Json} :
    SafeBelow installed document stack (.definitionReference header target) actual ↔
      (target ∉ stack → ∀ node, document.definitions.lookup target = some node →
        SafeBelow installed document (stack ++ [target]) node actual) := by
  constructor
  · intro h hstack node hlookup goal value hreach
    exact h goal value (.reference hstack hlookup hreach)
  · intro h goal value hreach
    cases hreach with
    | here => exact id
    | reference hstack hlookup hreach => exact h hstack _ hlookup goal value hreach

end Reaches

/-! ## Answers -/

theorem answers_ofMember_iff (demand : Demand) (actual : Option Json) (path : List String) :
    Answers (demand.ofMember actual path) ↔
      (demand.presence ≠ .forbidden → ∀ value, actual = some value →
        Answers (demand.holds value path)) := by
  unfold Demand.ofMember
  cases demand.presence <;> cases actual <;> simp

theorem answers_scalarInDomain_iff (installed : Installed) (header : NodeHeader)
    (domain : DomainDescriptor) (actual : Json) :
    Answers (scalarInDomain installed.orders actual domain) ↔
      ¬ Unsafe installed (.domain header domain) actual := by
  cases domain with
  | numericInterval interval =>
    show (∃ b, intervalMember actual interval = .ok b) ↔ _
    rw [intervalMember_ok_iff]
    cases actual with
    | int n =>
      show _ ↔ ¬ ExceedsFloat n
      rw [ExceedsFloat, ← floatOfInt_eq_none_iff]
      simp
    | null | bool _ | float _ | str _ | arr _ | obj _ =>
      exact iff_of_true (fun _ h => nomatch h) id
  | boolean value => cases value <;> exact iff_of_true ⟨_, rfl⟩ id
  | exact _ | enum _ | null | version _ | governedReference _ _ | record _ _ =>
    exact iff_of_true ⟨_, rfl⟩ id

section Holds

variable {installed : Installed} {document : Document} {stack : List String}
  {follow : String → Node → Json → List String → Except PyError Bool}

/-- A child whose demand has an answer just where nothing below it is unsafe. -/
def AnswersSafely (installed : Installed) (document : Document) (stack : List String)
    (follow : String → Node → Json → List String → Except PyError Bool) (child : Node) : Prop :=
  ∀ actual path, Answers (holdsWith installed document stack follow child actual path) ↔
    SafeBelow installed document stack child actual

theorem answers_memberOf_iff {child : Node}
    (h : AnswersSafely installed document stack follow child) (actual : Option Json)
    (path : List String) :
    Answers ((demandOf installed document stack follow child).ofMember actual path) ↔
      (child.presence ≠ .forbidden → ∀ value, actual = some value →
        SafeBelow installed document stack child value) := by
  rw [answers_ofMember_iff]
  exact imp_congr_right fun _ => forall_congr' fun value => imp_congr_right fun _ => h value path

variable {header : NodeHeader}

theorem answers_recordHolds_iff {fields : List (String × Node)}
    (h : ∀ field ∈ fields, AnswersSafely installed document stack follow field.2)
    (closure : Closure) (actual : Json) (path : List String) : Answers (recordHolds document
        (fields.map fun field => (field.1, demandOf installed document stack follow field.2))
        closure actual path) ↔
      SafeBelow installed document stack (.record header fields closure) actual := by
  cases actual with
  | obj members =>
    rw [safeBelow_record_iff]
    unfold recordHolds
    simp only [answers_both, answers_every, answers_ok, and_true, List.forall_mem_map]
    exact forall₂_congr fun field hfield => answers_memberOf_iff (h field hfield) _ _
  | null | bool _ | int _ | float _ | str _ | arr _ =>
    refine iff_of_true ⟨false, rfl⟩ fun goal value hreach => ?_
    cases hreach with
    | here => exact id

theorem answers_sequenceHolds_iff {nodes : List Node}
    (h : ∀ node ∈ nodes, AnswersSafely installed document stack follow node)
    (closure : Closure) (minItems maxItems : ℕ) (actual : Json) (path : List String) :
    Answers (sequenceHolds document (nodes.map (demandOf installed document stack follow)) closure
        minItems maxItems actual path) ↔
      SafeBelow installed document stack (.sequence header nodes closure minItems maxItems)
        actual := by
  unfold sequenceHolds
  cases actual with
  | arr items =>
    by_cases hsize : minItems ≤ items.length ∧ items.length ≤ maxItems
    · rw [safeBelow_sequence_iff hsize, List.zipIdx_map, collectionItems_of_size hsize]
      simp only [settled, answers_both, answers_every, answers_ok, and_true,
        List.forall_mem_map]
      constructor
      · intro hall index child hchild
        have hmem : (child, index) ∈ nodes.zipIdx :=
          List.mk_mem_zipIdx_iff_getElem?.mpr hchild
        exact (answers_memberOf_iff (h child (List.mem_of_getElem? hchild)) _ _).mp
          (hall (child, index) hmem)
      · intro hall entry hentry
        have hchild := List.mk_mem_zipIdx_iff_getElem?.mp hentry
        exact (answers_memberOf_iff (h _ (List.mem_of_getElem? hchild)) _ _).mpr
          (hall entry.2 entry.1 hchild)
    · rw [collectionItems_of_not_size hsize]
      refine iff_of_true ⟨false, rfl⟩ fun goal value hreach => ?_
      cases hreach with
      | here => exact id
      | item hsize' => exact absurd hsize' hsize
  | null | bool _ | int _ | float _ | str _ | obj _ =>
    refine iff_of_true ⟨false, rfl⟩ fun goal value hreach => ?_
    cases hreach with
    | here => exact id

theorem answers_keyedHolds_iff {shape : CollectionShape}
    {nodes : List (Identity × Node)} (hshape : shape.Valid installed (nodes.map Prod.fst))
    (h : ∀ member ∈ nodes, AnswersSafely installed document stack follow member.2)
    (actual : Json) (path : List String) : Answers (keyedHolds installed document shape
        (nodes.map fun member => (member.1, demandOf installed document stack follow member.2))
        actual path) ↔
      SafeBelow installed document stack (.keyed header shape nodes) actual := by
  unfold keyedHolds
  cases actual with
  | arr items =>
    by_cases hsize : shape.minItems ≤ items.length ∧ items.length ≤ shape.maxItems
    · rw [safeBelow_keyed_iff hsize, collectionItems_of_size hsize, ← raises_keyedMembers_iff installed hshape]
      show Answers (settled (keyedMembers installed shape true _ items) _) ↔ _
      rw [keyedMembers_map]
      cases hfound : keyedMembers installed shape true nodes items with
      | error e =>
        cases e with
        | none => exact iff_of_true ⟨false, rfl⟩ ⟨not_raises_refusal, fun _ h => nomatch h⟩
        | some e => exact iff_of_false (answers_error e) fun hsafe => hsafe.1 ⟨e, rfl⟩
      | ok found =>
        have hchild : ∀ member ∈ found.2.entries,
            AnswersSafely installed document stack follow member.2 := by
          intro member hmember
          obtain ⟨node, hnode, heq⟩ := mem_of_keyedMembers installed hfound member hmember
          rw [← heq]
          exact h node hnode
        show Answers (both (every ((found.2.mapValues fun _ =>
          demandOf installed document stack follow).entries.map _)) (.ok _)) ↔ _
        simp only [Dict.mapValues, answers_both, answers_every, answers_ok, and_true,
          List.forall_mem_map, Except.ok.injEq, forall_eq', not_raises_ok, not_false_eq_true,
          true_and]
        exact forall₂_congr fun member hmember => answers_memberOf_iff (hchild member hmember) _ _
    · rw [collectionItems_of_not_size hsize]
      refine iff_of_true ⟨false, rfl⟩ fun goal value hreach => ?_
      cases hreach with
      | here => exact fun hunsafe => hsize hunsafe.1
      | member hsize' => exact absurd hsize' hsize
  | null | bool _ | int _ | float _ | str _ | obj _ =>
    refine iff_of_true ⟨false, rfl⟩ fun goal value hreach => ?_
    cases hreach with
    | here => exact id

/-- The references that are followed have answers just where they are safe. -/
def FollowsSafely (installed : Installed) (document : Document) (stack : List String)
    (follow : String → Node → Json → List String → Except PyError Bool) : Prop :=
  ∀ target node, target ∉ stack → document.definitions.lookup target = some node →
    ∀ actual path, Answers (follow target node actual path) ↔
      SafeBelow installed document (stack ++ [target]) node actual

theorem answers_referenceHolds_iff (h : FollowsSafely installed document stack follow)
    {header : NodeHeader} (target : String) (actual : Json) (path : List String) :
    Answers (referenceHolds document stack follow target actual path) ↔
      SafeBelow installed document stack (.definitionReference header target) actual := by
  rw [safeBelow_reference_iff]
  unfold referenceHolds
  by_cases hstack : target ∈ stack
  · rw [if_pos hstack]
    exact iff_of_true ⟨false, rfl⟩ fun hnot => absurd hstack hnot
  · rw [if_neg hstack]
    cases hlookup : document.definitions.lookup target with
    | none => exact iff_of_true ⟨false, rfl⟩ fun _ _ h => nomatch h
    | some node => simpa [hstack] using h target node hstack hlookup actual path

theorem answersSafely_of_valid (hfollow : FollowsSafely installed document stack follow)
    (node : Node) (hvalid : node.Valid installed) :
    AnswersSafely installed document stack follow node := by
  induction node using Node.induct with
  | hliteral header value =>
    refine fun actual path => iff_of_true ⟨_, rfl⟩ fun goal value hreach => ?_
    cases hreach with
    | here => exact id
  | hknowledge header state =>
    refine fun actual path => iff_of_true ⟨_, rfl⟩ fun goal value hreach => ?_
    cases hreach with
    | here => exact id
  | hdelegated header =>
    refine fun actual path => iff_of_true ⟨_, rfl⟩ fun goal value hreach => ?_
    cases hreach with
    | here => exact id
  | hdomain header domain =>
    intro actual path
    rw [safeBelow_leaf_iff fun goal value hreach => ?_]
    · exact answers_scalarInDomain_iff installed header domain actual
    · cases hreach with
      | here => exact ⟨rfl, rfl⟩
  | hgraph header authority allowedRefs cyclePolicy =>
    refine fun actual path => iff_of_true ⟨_, rfl⟩ fun goal value hreach => ?_
    cases hreach with
    | here => exact id
  | hreference header target => exact answers_referenceHolds_iff hfollow target
  | hallOf header constraints ih =>
    have hchildren := (itemsValid_iff installed constraints).mp hvalid.2.2
    intro actual path
    rw [safeBelow_allOf_iff, holdsWith, itemDemands_eq_map]
    simp only [answers_every, List.forall_mem_map]
    exact forall₂_congr fun child hchild => ih child hchild (hchildren child hchild) actual path
  | hrecord header fields closure ih =>
    have hchildren := (fieldsValid_iff installed fields).mp hvalid.2.2.2
    intro actual path
    rw [holdsWith, fieldDemands_eq_map]
    exact answers_recordHolds_iff (fun field hfield => ih field hfield (hchildren field hfield))
      closure actual path
  | hkeyed header shape members ih =>
    have hchildren := (membersValid_iff installed members).mp hvalid.2
    intro actual path
    rw [holdsWith, memberDemands_eq_map]
    exact answers_keyedHolds_iff hvalid.1
      (fun member hmember => ih member hmember (hchildren member hmember)) actual path
  | hsequence header items closure minItems maxItems ih =>
    have hchildren := (itemsValid_iff installed items).mp hvalid.2.2.2.2
    intro actual path
    rw [holdsWith, itemDemands_eq_map]
    exact answers_sequenceHolds_iff (fun item hitem => ih item hitem (hchildren item hitem))
      closure minItems maxItems actual path

end Holds

theorem answers_holds_iff {installed : Installed} {document : Document}
    (hvalid : document.Valid installed) {fuel : ℕ} {stack : List String} (hnodup : stack.Nodup)
    (hnames : ∀ name ∈ stack, name ∈ document.definitions.map Prod.fst)
    (hfuel : document.definitions.length ≤ fuel + stack.length) {node : Node}
    (hnode : node.Valid installed) (actual : Json) (path : List String) :
    Answers (holds installed document fuel stack node actual path) ↔
      SafeBelow installed document stack node actual := by
  have hmore : ∀ target node, target ∉ stack →
      document.definitions.lookup target = some node →
      (target :: stack).Nodup ∧
        ∀ name ∈ target :: stack, name ∈ document.definitions.map Prod.fst :=
    fun target node hstack hlookup => ⟨List.nodup_cons.mpr ⟨hstack, hnodup⟩,
      List.forall_mem_cons.mpr ⟨mem_names_of_lookup hlookup, hnames⟩⟩
  induction fuel generalizing stack node actual path with
  | zero =>
    refine answersSafely_of_valid (fun target node hstack hlookup => ?_) node hnode actual path
    obtain ⟨hnodup', hnames'⟩ := hmore target node hstack hlookup
    have hlength := length_le_of_names hnodup' hnames'
    rw [List.length_cons] at hlength
    omega
  | succ fuel ih =>
    refine answersSafely_of_valid (fun target node hstack hlookup actual path => ?_) node hnode
      actual path
    obtain ⟨hnodup', hnames'⟩ := hmore target node hstack hlookup
    have hperm : (stack ++ [target]).Perm (target :: stack) :=
      (List.perm_append_singleton target stack)
    have hnodup'' : (stack ++ [target]).Nodup := hperm.nodup_iff.mpr hnodup'
    have hnames'' : ∀ name ∈ stack ++ [target], name ∈ document.definitions.map Prod.fst :=
      fun name hname => hnames' name (hperm.mem_iff.mp hname)
    refine ih hnodup'' hnames'' ?_ (hvalid.definitions (target, node)
      (mem_of_lookup_eq_some hlookup)) actual path fun target' node' hstack' hlookup' =>
        ⟨List.nodup_cons.mpr ⟨hstack', hnodup''⟩,
          List.forall_mem_cons.mpr ⟨mem_names_of_lookup hlookup', hnames''⟩⟩
    rw [List.length_append, List.length_singleton]
    omega

theorem answers_rootHolds_iff {installed : Installed} {document : Document}
    (hvalid : document.Valid installed) (actual : Json) :
    Answers (rootHolds installed document actual) ↔
      SafeBelow installed document [] document.root actual :=
  answers_holds_iff hvalid List.nodup_nil (fun _ h => nomatch h) (Nat.le_refl _) hvalid.root
    actual []

end Raes.Realization
