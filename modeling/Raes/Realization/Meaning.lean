import Raes.Lib.ExceptList
import Raes.Realization.ScopeIndex

/-!
# The meaning of a constraint document

What a document demands of a value, without budgets and diagnostics.  A demand holds,
does not hold, or has no answer because the evaluation raises.  The bounded evaluation
is compared with this meaning.
-/

namespace Raes.Realization

open Verdict

/-- A part of an evaluation that may also refuse the value, with `none`. -/
abbrev Ideal := Except (Option PyError)

/-- What one child of a node demands of the member that it is about. -/
structure Demand where
  presence : Presence
  holds : Json → List String → Except PyError Bool

/-- What a child demands of a member that may be absent. -/
def Demand.ofMember (demand : Demand) (actual : Option Json) (path : List String) :
    Except PyError Bool :=
  match demand.presence, actual with
  | .forbidden, some _ => .ok false
  | .required, none => .ok false
  | _, none => .ok true
  | _, some actual => demand.holds actual path

/-- Whether a closure lets a value with extra members pass. -/
def Closure.permits (closure : Closure) (hasExtras : Bool) : Bool :=
  match closure.posture with
  | .undefined => false
  | .closed => !hasExtras
  | .opened => true

/-- The closure of a node: its own, or the one that its place inherits. -/
def Document.closureOf (document : Document) (own : Closure) (path : List String) : Closure :=
  if own.posture ≠ .undefined then own
  else (ScopeIndex.ofScopes document.scopes).closureAt path document.defaultClosure

/-! ## Collections -/

def collectionItems (minItems maxItems : ℕ) : Json → Ideal (List Json)
  | .arr items =>
    if minItems ≤ items.length ∧ items.length ≤ maxItems then .ok items else .error none
  | _ => .error none

theorem collectionItems_of_size {minItems maxItems : ℕ} {items : List Json}
    (h : minItems ≤ items.length ∧ items.length ≤ maxItems) :
    collectionItems minItems maxItems (.arr items) = .ok items := if_pos h

theorem collectionItems_of_not_size {minItems maxItems : ℕ} {items : List Json}
    (h : ¬ (minItems ≤ items.length ∧ items.length ≤ maxItems)) :
    collectionItems minItems maxItems (.arr items) = .error none := if_neg h

def rewriteIdentity (identityFields : List String) (identity : Identity) : Json → Json
  | .obj fields => .obj ((identityFields.zip identity).foldl
      (fun fields entry => Dict.setEntry entry.1 entry.2.toJson fields) fields)
  | item => item

section Keyed

variable (installed : Installed)

def keyOf (identity : Identity) : Ideal String := (identityKey installed identity).mapError some

def aliasTargets (aliases : List IdentityAlias) : Ideal (Dict String Identity) :=
  aliases.foldlM (fun found entry => do
    let key ← keyOf installed entry.identity
    return found.set key entry.target) .empty

variable (identityFields : List String) (aliases : Dict String Identity)

def canonicalItem (rewrites : Bool) (item : Json) : Ideal (String × Json) :=
  match actualIdentity item identityFields with
  | none => .error none
  | some identity => do
    let sourceKey ← keyOf installed identity
    match aliases.get? sourceKey with
    | none => do
      let key ← keyOf installed identity
      return (key, item)
    | some target => do
      let key ← keyOf installed target
      return (key, if rewrites then rewriteIdentity identityFields target item else item)

def indexItem (rewrites : Bool)
    (indexed : Dict String Json) (item : Json) : Ideal (Dict String Json) := do
  let entry ← canonicalItem installed identityFields aliases rewrites item
  if indexed.contains entry.1 then .error none else return indexed.set entry.1 entry.2

def indexItems (rewrites : Bool) (items : List Json) : Ideal (Dict String Json) :=
  items.foldlM (indexItem installed identityFields aliases rewrites) .empty

def declaredMembers {α : Type} (members : List (Identity × α)) : Ideal (Dict String α) :=
  members.foldlM (fun declared member => do
    let key ← keyOf installed member.1
    return declared.set key member.2) .empty

def keyedMembers {α : Type} (shape : CollectionShape) (rewrites : Bool)
    (members : List (Identity × α)) (items : List Json) :
    Ideal (Dict String Json × Dict String α) := do
  let aliases ← aliasTargets installed shape.aliases
  let indexed ← indexItems installed shape.identityFields aliases rewrites items
  let declared ← declaredMembers installed members
  return (indexed, declared)

theorem declaredMembers_map {α β : Type} (f : α → β) (members : List (Identity × α)) :
    declaredMembers installed (members.map fun m => (m.1, f m.2)) =
      (declaredMembers installed members).map fun declared => declared.mapValues fun _ => f := by
  unfold declaredMembers
  rw [List.foldlM_map]
  refine foldlM_map_state (g := fun declared : Dict String α =>
    declared.mapValues fun _ => f) (fun declared member => ?_) members Dict.empty
  cases keyOf installed member.1 with
  | error e => rfl
  | ok key => exact congrArg Except.ok (Dict.mapValues_set declared f key member.2).symm

theorem mem_of_declaredMembers {α : Type} {members : List (Identity × α)}
    {declared : Dict String α} (h : declaredMembers installed members = .ok declared) :
    ∀ entry ∈ declared.entries, ∃ member ∈ members, member.2 = entry.2 := by
  have hvalues : ∀ value ∈ declared.values, ∃ member ∈ members, member.2 = value := by
    refine foldlM_keeps (P := fun found : Dict String α => ∀ value ∈ found.values,
      ∃ member ∈ members, member.2 = value) (fun found member hmember hfound next hnext => ?_)
      (fun _ hvalue => absurd hvalue List.not_mem_nil) h
    obtain ⟨key, _, hset⟩ := bind_eq_ok_iff.mp hnext
    cases hset
    intro value hvalue
    obtain ⟨other, hother⟩ := Dict.mem_values_iff.mp hvalue
    rw [Dict.get?_set] at hother
    split at hother
    · cases hother
      exact ⟨member, hmember, rfl⟩
    · exact hfound value (Dict.mem_values_iff.mpr ⟨other, hother⟩)
  exact fun entry hentry => hvalues entry.2 (List.mem_map_of_mem hentry)

theorem mem_of_keyedMembers {α : Type} {shape : CollectionShape} {rewrites : Bool}
    {members : List (Identity × α)} {items : List Json} {found : Dict String Json × Dict String α}
    (h : keyedMembers installed shape rewrites members items = .ok found) :
    ∀ entry ∈ found.2.entries, ∃ member ∈ members, member.2 = entry.2 := by
  simp only [keyedMembers, bind_eq_ok_iff] at h
  obtain ⟨_, _, indexed, _, declared, hdeclared, hfound⟩ := h
  cases hfound
  exact mem_of_declaredMembers installed hdeclared

theorem keyedMembers_map {α β : Type} (f : α → β) (shape : CollectionShape) (rewrites : Bool)
    (members : List (Identity × α)) (items : List Json) :
    keyedMembers installed shape rewrites (members.map fun m => (m.1, f m.2)) items =
      (keyedMembers installed shape rewrites members items).map fun found =>
        (found.1, found.2.mapValues fun _ => f) := by
  unfold keyedMembers
  rw [declaredMembers_map]
  cases aliasTargets installed shape.aliases with
  | error e => rfl
  | ok aliases =>
    show (indexItems installed shape.identityFields aliases rewrites items >>= _) =
      (indexItems installed shape.identityFields aliases rewrites items >>= _).map _
    cases indexItems installed shape.identityFields aliases rewrites items with
    | error e => rfl
    | ok indexed => cases declaredMembers installed members <;> rfl

end Keyed

def hasOtherKeys {α : Type} (indexed : Dict String α) (declared : List String) : Bool :=
  indexed.keys.any fun key => key ∉ declared

section Nodes

variable (installed : Installed) (document : Document)

def recordHolds (fields : List (String × Demand)) (closure : Closure) (actual : Json)
    (path : List String) : Except PyError Bool :=
  match actual with
  | .obj members =>
    both
      (every (fields.map fun field =>
        field.2.ofMember (members.lookup field.1) (path ++ [field.1])))
      (.ok ((document.closureOf closure path).permits
        (members.any fun member => member.1 ∉ fields.map Prod.fst)))
  | _ => .ok false

def keyedHolds (shape : CollectionShape) (members : List (Identity × Demand)) (actual : Json)
    (path : List String) : Except PyError Bool :=
  settled (do
    let items ← collectionItems shape.minItems shape.maxItems actual
    keyedMembers installed shape true members items) fun found =>
      both
        (every (found.2.entries.map fun member =>
          member.2.ofMember (found.1.get? member.1) (path ++ ["@" ++ member.1])))
        (.ok ((document.closureOf shape.closure path).permits
          (hasOtherKeys found.1 found.2.keys)))

def sequenceHolds (demands : List Demand) (closure : Closure) (minItems maxItems : ℕ)
    (actual : Json) (path : List String) : Except PyError Bool :=
  settled (collectionItems minItems maxItems actual) fun items =>
    both
      (every (demands.zipIdx.map fun demand =>
        demand.1.ofMember items[demand.2]? (path ++ [toString demand.2])))
      (.ok ((document.closureOf closure path).permits (items.length > demands.length)))

def referenceHolds (stack : List String)
    (follow : String → Node → Json → List String → Except PyError Bool) (target : String)
    (actual : Json) (path : List String) : Except PyError Bool :=
  if target ∈ stack then .ok false
  else
    match document.definitions.lookup target with
    | none => .ok false
    | some node => follow target node actual path

section Recursion

variable (stack : List String)
  (follow : String → Node → Json → List String → Except PyError Bool)

mutual

def holdsWith : Node → Json → List String → Except PyError Bool
  | .literal _ value => fun actual _ => .ok (jsonEqual (literalJson value) actual)
  | .knowledge _ _ => fun _ _ => .ok false
  | .delegated _ => fun _ _ => .ok true
  | .domain _ domain => fun actual _ => scalarInDomain installed.orders actual domain
  | .graphReference _ authority allowedRefs _ => fun actual _ =>
    scalarInDomain installed.orders actual (.governedReference authority allowedRefs)
  | .definitionReference _ target => referenceHolds document stack follow target
  | .allOf _ constraints => fun actual path =>
    every ((itemDemands constraints).map fun demand => demand.holds actual path)
  | .record _ fields closure => recordHolds document (fieldDemands fields) closure
  | .keyed _ shape members => keyedHolds installed document shape (memberDemands members)
  | .sequence _ items closure minItems maxItems =>
    sequenceHolds document (itemDemands items) closure minItems maxItems
termination_by structural node => node

def fieldDemands : List (String × Node) → List (String × Demand)
  | [] => []
  | (key, child) :: rest => (key, ⟨child.presence, holdsWith child⟩) :: fieldDemands rest
termination_by structural l => l

def memberDemands : List (Identity × Node) → List (Identity × Demand)
  | [] => []
  | (identity, child) :: rest =>
    (identity, ⟨child.presence, holdsWith child⟩) :: memberDemands rest
termination_by structural l => l

def itemDemands : List Node → List Demand
  | [] => []
  | child :: rest => ⟨child.presence, holdsWith child⟩ :: itemDemands rest
termination_by structural l => l

end

def demandOf (child : Node) : Demand :=
  ⟨child.presence, holdsWith installed document stack follow child⟩

theorem fieldDemands_eq_map (fields : List (String × Node)) :
    fieldDemands installed document stack follow fields =
      fields.map fun field => (field.1, demandOf installed document stack follow field.2) := by
  induction fields with
  | nil => rfl
  | cons field rest ih => rw [fieldDemands, ih]; rfl

theorem memberDemands_eq_map (members : List (Identity × Node)) :
    memberDemands installed document stack follow members =
      members.map fun member => (member.1, demandOf installed document stack follow member.2) := by
  induction members with
  | nil => rfl
  | cons member rest ih => rw [memberDemands, ih]; rfl

theorem itemDemands_eq_map (items : List Node) :
    itemDemands installed document stack follow items =
      items.map (demandOf installed document stack follow) := by
  induction items with
  | nil => rfl
  | cons item rest ih => rw [itemDemands, ih]; rfl

end Recursion

/-- What a node demands.  A chain of references that meets no definition twice follows at
most as many references as there are definitions, which bounds the recursion. -/
def holds : ℕ → List String → Node → Json → List String → Except PyError Bool
  | 0, stack => holdsWith installed document stack fun _ _ _ _ => .ok false
  | hops + 1, stack =>
    holdsWith installed document stack fun target => holds hops (stack ++ [target])

/-- What the root of the document demands of a value. -/
def rootHolds (actual : Json) : Except PyError Bool :=
  holds installed document document.definitions.length [] document.root actual []

end Nodes

end Raes.Realization
