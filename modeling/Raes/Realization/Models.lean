import Raes.Contracts.BoundedDomains
import Raes.Contracts.CanonicalJson
import Raes.Contracts.JsonPointer

/-!
# Recursive realization constraints

The data contracts of `realization_structure/_models.py`: constraint nodes, scopes,
documents and limits, with their validators.
-/

namespace Raes.Realization

inductive RelationStatus where
  | conformant | nonconformant | unresolved | invalid | unsupported | limitExceeded
  deriving DecidableEq

def RelationStatus.value : RelationStatus → String
  | .conformant => "conformant"
  | .nonconformant => "nonconformant"
  | .unresolved => "unresolved"
  | .invalid => "invalid"
  | .unsupported => "unsupported"
  | .limitExceeded => "limit-exceeded"

/-- Whether the addressed member must, may, or must not exist. -/
inductive Presence where
  | required | optional | forbidden
  deriving DecidableEq

def Presence.value : Presence → String
  | .required => "required"
  | .optional => "optional"
  | .forbidden => "forbidden"

inductive Origin where
  | author | default | processor | backend | observation
  deriving DecidableEq

def Origin.value : Origin → String
  | .author => "author"
  | .default => "default"
  | .processor => "processor"
  | .backend => "backend"
  | .observation => "observation"

inductive ClosurePosture where
  | opened | closed | undefined
  deriving DecidableEq

def ClosurePosture.value : ClosurePosture → String
  | .opened => "open"
  | .closed => "closed"
  | .undefined => "undefined"

/-- One local posture in an explicitly named semantic universe. -/
structure Closure where
  posture : ClosurePosture
  (namedUniverse profile : Option String)
  deriving DecidableEq

/-- `DEFAULT_UNDEFINED_REALIZATION_CLOSURE` -/
def undefinedClosure : Closure := ⟨.undefined, none, none⟩

inductive KnowledgeState where
  | unknown | redacted | notApplicable
  deriving DecidableEq

def KnowledgeState.value : KnowledgeState → String
  | .unknown => "unknown"
  | .redacted => "redacted"
  | .notApplicable => "not-applicable"

inductive CyclePolicy where
  | allow | forbid
  deriving DecidableEq

def CyclePolicy.value : CyclePolicy → String
  | .allow => "allow"
  | .forbid => "forbid"

/-- One part of a semantic identity. -/
inductive IdentityScalar where
  | str (value : String)
  | int (value : ℤ)
  | bool (value : Bool)
  deriving DecidableEq

def IdentityScalar.toJson : IdentityScalar → Json
  | .str value => .str value
  | .int value => .int value
  | .bool value => .bool value

abbrev Identity := List IdentityScalar

def identityJson (identity : Identity) : Json := .arr (identity.map IdentityScalar.toJson)

/-- One explicit alternate identity mapped to a canonical member identity. -/
structure IdentityAlias where
  (identity target : Identity)
  deriving DecidableEq

/-- What a keyed collection declares beside its members. -/
structure CollectionShape where
  collectionKind : String
  identityFields : List String
  aliases : List IdentityAlias
  closure : Closure
  (minItems maxItems : ℕ)
  deriving DecidableEq

structure NodeHeader where
  presence : Presence
  origin : Origin
  deriving DecidableEq

/-- `RecursiveRealizationStructure` -/
inductive Node where
  | literal (header : NodeHeader) (value : Option DomainScalar)
  | knowledge (header : NodeHeader) (state : KnowledgeState)
  | delegated (header : NodeHeader)
  | domain (header : NodeHeader) (domain : DomainDescriptor)
  | record (header : NodeHeader) (fields : List (String × Node)) (closure : Closure)
  | keyed (header : NodeHeader) (shape : CollectionShape) (members : List (Identity × Node))
  | sequence (header : NodeHeader) (items : List Node) (closure : Closure)
      (minItems maxItems : ℕ)
  | definitionReference (header : NodeHeader) (target : String)
  | graphReference (header : NodeHeader) (authority : String) (allowedRefs : List String)
      (cyclePolicy : CyclePolicy)
  | allOf (header : NodeHeader) (constraints : List Node)

namespace Node

def header : Node → NodeHeader
  | .literal header _ | .knowledge header _ | .delegated header | .domain header _
  | .record header _ _ | .keyed header _ _ | .sequence header _ _ _ _
  | .definitionReference header _ | .graphReference header _ _ _ | .allOf header _ => header

def presence (node : Node) : Presence := node.header.presence

theorem induct {P : Node → Prop} (hliteral : ∀ header value, P (.literal header value))
    (hknowledge : ∀ header state, P (.knowledge header state))
    (hdelegated : ∀ header, P (.delegated header))
    (hdomain : ∀ header domain, P (.domain header domain))
    (hrecord : ∀ header fields closure, (∀ f ∈ fields, P f.2) → P (.record header fields closure))
    (hkeyed : ∀ header shape members, (∀ m ∈ members, P m.2) → P (.keyed header shape members))
    (hsequence : ∀ header items closure minItems maxItems, (∀ x ∈ items, P x) →
      P (.sequence header items closure minItems maxItems))
    (hreference : ∀ header target, P (.definitionReference header target))
    (hgraph : ∀ header authority allowedRefs cyclePolicy,
      P (.graphReference header authority allowedRefs cyclePolicy))
    (hallOf : ∀ header constraints, (∀ x ∈ constraints, P x) → P (.allOf header constraints))
    (node : Node) : P node := by
  refine @Node.rec P (fun l => ∀ f ∈ l, P f.2) (fun l => ∀ m ∈ l, P m.2) (fun l => ∀ x ∈ l, P x)
    (fun f => P f.2) (fun m => P m.2) hliteral hknowledge hdelegated hdomain hrecord hkeyed
    hsequence hreference hgraph hallOf ?_ ?_ ?_ ?_ ?_ ?_ ?_ ?_ node
  · exact fun _ h => nomatch h
  · exact fun _ _ hf hrest => List.forall_mem_cons.mpr ⟨hf, hrest⟩
  · exact fun _ h => nomatch h
  · exact fun _ _ hm hrest => List.forall_mem_cons.mpr ⟨hm, hrest⟩
  · exact fun _ h => nomatch h
  · exact fun _ _ hx hrest => List.forall_mem_cons.mpr ⟨hx, hrest⟩
  · exact fun _ _ h => h
  · exact fun _ _ h => h

end Node

/-- A lexical closure override inherited by otherwise-undefined descendants. -/
structure Scope where
  fieldPointer : String
  closure : Closure
  origin : Origin
  deriving DecidableEq

/-- `RealizationConstraintDocument`, whose `contract_id` is a constant. -/
structure Document where
  semanticProfile : String
  defaultClosure : Closure
  scopes : List Scope
  root : Node
  definitions : List (String × Node)

def contractId : String := "recursive-realization-constraint-v1"

/-- `RealizationConstraintLimits` -/
structure Limits where
  (maxDepth maxNodes maxOperations maxMembers maxIdentityChecks maxReferenceHops maxScalarBytes : ℕ)
  (maxTotalScalarBytes maxDiagnostics : ℕ)
  deriving DecidableEq

/-- `DEFAULT_REALIZATION_CONSTRAINT_LIMITS` -/
def defaultLimits : Limits where
  maxDepth := 32
  maxNodes := 4096
  maxOperations := 16384
  maxMembers := 4096
  maxIdentityChecks := 4096
  maxReferenceHops := 256
  maxScalarBytes := 4096
  maxTotalScalarBytes := 1024 * 1024
  maxDiagnostics := 16

/-- What the package uses of other code: a hash and the version orders. -/
structure Installed where
  sha256 : Sha256
  orders : VersionOrders

/-! ## Serialized values -/

def optionalText : Option String → Json
  | none => .null
  | some text => .str text

def texts (values : List String) : Json := .arr (values.map Json.str)

def Closure.dump (closure : Closure) : Json := .obj [
  ("posture", .str closure.posture.value),
  ("universe", optionalText closure.namedUniverse),
  ("profile", optionalText closure.profile)]

def dumpSemanticContract (contract : SemanticContract) : Json := .obj [
  ("authority", .str contract.authority),
  ("contract_id", .str contract.contractId),
  ("revision", .str contract.revision),
  ("digest", .str contract.digest)]

def dumpVersionDomain (domain : VersionDomain) : Json := .obj [
  ("kind", .str "version"),
  ("relation", dumpSemanticContract domain.relation),
  ("lower", optionalText domain.lower),
  ("upper", optionalText domain.upper),
  ("lower_closed", .bool domain.lowerClosed),
  ("upper_closed", .bool domain.upperClosed)]

def dumpNumericInterval (domain : NumericIntervalDomain) : Json := .obj [
  ("kind", .str "numeric-interval"),
  ("numeric_type", .str (match domain.numericType with
    | .integer => "integer"
    | .number => "number")),
  ("lower", .float domain.lower),
  ("upper", .float domain.upper),
  ("lower_closed", .bool domain.lowerClosed),
  ("upper_closed", .bool domain.upperClosed)]

def dumpGovernedReference (authority : String) (allowedRefs : List String) : Json := .obj [
  ("kind", .str "governed-reference"),
  ("authority", .str authority),
  ("allowed_refs", texts allowedRefs)]

def dumpDomain : DomainDescriptor → Json
  | .exact value => .obj [("kind", .str "exact"), ("value", value.toJson)]
  | .enum values =>
    .obj [("kind", .str "enum"), ("values", .arr (values.map DomainScalar.toJson))]
  | .boolean none => .obj [("kind", .str "boolean"), ("value", .null)]
  | .boolean (some value) => .obj [("kind", .str "boolean"), ("value", .bool value)]
  | .null => .obj [("kind", .str "null")]
  | .version domain => dumpVersionDomain domain
  | .numericInterval domain => dumpNumericInterval domain
  | .governedReference authority allowedRefs => dumpGovernedReference authority allowedRefs
  | .record fields extra => .obj [
      ("kind", .str "record"),
      ("fields", .obj (fields.map fun field => (field.1, Json.str field.2))),
      ("extra", .bool extra)]

def Scope.dump (scope : Scope) : Json := .obj [
  ("field_pointer", .str scope.fieldPointer),
  ("closure", scope.closure.dump),
  ("origin", .str scope.origin.value)]

def literalJson : Option DomainScalar → Json
  | none => .null
  | some value => value.toJson

def Node.kind : Node → String
  | .literal _ _ => "literal"
  | .knowledge _ _ => "knowledge"
  | .delegated _ => "delegated"
  | .domain _ _ => "domain"
  | .record _ _ _ => "recursive-record"
  | .keyed _ _ _ => "keyed-collection"
  | .sequence _ _ _ _ _ => "sequence"
  | .definitionReference _ _ => "definition-reference"
  | .graphReference _ _ _ _ => "graph-reference"
  | .allOf _ _ => "all-of"

/-! ## Identities -/

def identityKey (installed : Installed) (identity : Identity) : Except PyError String :=
  installed.sha256.canonicalJsonDigest (identityJson identity)

/-- Whether the encoder accepts the identity. -/
def IsCanonicalIdentity (identity : Identity) : Prop :=
  ∀ n, IdentityScalar.int n ∈ identity → IsSafeInteger n

theorem identityKey_ok_iff (installed : Installed) (identity : Identity) :
    (∃ key, identityKey installed identity = .ok key) ↔ IsCanonicalIdentity identity := by
  rw [identityKey, canonicalJsonDigest_ok_iff]
  constructor
  · intro h n hn
    cases h with
    | arr _ h =>
      cases h _ (List.mem_map_of_mem hn) with
      | int _ hsafe => exact hsafe
  · intro h
    refine .arr _ fun item hitem => ?_
    obtain ⟨scalar, hscalar, rfl⟩ := List.mem_map.mp hitem
    cases scalar with
    | str value => exact .str value
    | int value => exact .int value (h value hscalar)
    | bool value => exact .bool value

/-! ## Validators -/

def TextWithin (least most : ℕ) (text : String) : Prop :=
  least ≤ text.length ∧ text.length ≤ most

def Closure.Valid (closure : Closure) : Prop :=
  (closure.posture ≠ .undefined ↔ closure.namedUniverse ≠ none ∧ closure.profile ≠ none) ∧
    (∀ text ∈ closure.namedUniverse, TextWithin 1 256 text) ∧
    ∀ text ∈ closure.profile, TextWithin 1 256 text

/-- The members and aliases of a collection have identities of one arity, whose keys
tell them apart; an alias leads to a member. -/
structure CollectionShape.Valid (installed : Installed) (shape : CollectionShape)
    (identities : List Identity) : Prop where
  kind : TextWithin 1 128 shape.collectionKind
  fields : shape.identityFields ≠ [] ∧ shape.identityFields.length ≤ 8
  fieldsNodup : shape.identityFields.Nodup
  members : identities.length ≤ 4096
  aliasCount : shape.aliases.length ≤ 4096
  closure : shape.closure.Valid
  cardinality : shape.minItems ≤ shape.maxItems ∧ shape.maxItems ≤ 4096
  arity : ∀ identity ∈ identities, identity.length = shape.identityFields.length
  aliasArity : ∀ entry ∈ shape.aliases, entry.identity.length = shape.identityFields.length ∧
    entry.target.length = shape.identityFields.length
  canonical : ∀ identity ∈ identities, IsCanonicalIdentity identity
  aliasCanonical : ∀ entry ∈ shape.aliases,
    IsCanonicalIdentity entry.identity ∧ IsCanonicalIdentity entry.target
  distinct : (identities.map (identityKey installed)).Nodup
  aliasDistinct : (shape.aliases.map fun entry => identityKey installed entry.identity).Nodup
  apart : ∀ entry ∈ shape.aliases, ∀ identity ∈ identities,
    identityKey installed entry.identity ≠ identityKey installed identity
  targets : ∀ entry ∈ shape.aliases, ∃ identity ∈ identities,
    identityKey installed entry.target = identityKey installed identity

mutual

def Node.Valid (installed : Installed) : Node → Prop
  | .literal _ _ | .knowledge _ _ | .delegated _ => True
  | .domain _ domain => domain.Valid installed.orders
  | .record _ fields closure => fields.length ≤ 4096 ∧ (fields.map Prod.fst).Nodup ∧
      closure.Valid ∧ fieldsValid installed fields
  | .keyed _ shape members =>
    shape.Valid installed (members.map Prod.fst) ∧ membersValid installed members
  | .sequence _ items closure minItems maxItems => items.length ≤ 4096 ∧ closure.Valid ∧
      minItems ≤ maxItems ∧ maxItems ≤ 4096 ∧ itemsValid installed items
  | .definitionReference _ target => TextWithin 1 256 target
  | .graphReference _ authority allowedRefs _ =>
    (DomainDescriptor.governedReference authority allowedRefs).Valid installed.orders
  | .allOf _ constraints =>
    2 ≤ constraints.length ∧ constraints.length ≤ 256 ∧ itemsValid installed constraints
termination_by structural node => node

def fieldsValid (installed : Installed) : List (String × Node) → Prop
  | [] => True
  | (_, child) :: rest => child.Valid installed ∧ fieldsValid installed rest
termination_by structural l => l

def membersValid (installed : Installed) : List (Identity × Node) → Prop
  | [] => True
  | (_, child) :: rest => child.Valid installed ∧ membersValid installed rest
termination_by structural l => l

def itemsValid (installed : Installed) : List Node → Prop
  | [] => True
  | child :: rest => child.Valid installed ∧ itemsValid installed rest
termination_by structural l => l

end

variable (installed : Installed)

theorem fieldsValid_iff (fields : List (String × Node)) :
    fieldsValid installed fields ↔ ∀ f ∈ fields, f.2.Valid installed := by
  induction fields with
  | nil => simp [fieldsValid]
  | cons f rest ih => rw [List.forall_mem_cons, ← ih, fieldsValid]

theorem membersValid_iff (members : List (Identity × Node)) :
    membersValid installed members ↔ ∀ m ∈ members, m.2.Valid installed := by
  induction members with
  | nil => simp [membersValid]
  | cons m rest ih => rw [List.forall_mem_cons, ← ih, membersValid]

theorem itemsValid_iff (items : List Node) :
    itemsValid installed items ↔ ∀ x ∈ items, x.Valid installed := by
  induction items with
  | nil => simp [itemsValid]
  | cons x rest ih => rw [List.forall_mem_cons, ← ih, itemsValid]

/-- `JSON_POINTER_PATTERN`: a sequence of `/` and tokens in which `~` is escaped. -/
def isPointerRest : List Char → Bool
  | '~' :: c :: rest => (c = '0' || c = '1') && isPointerRest rest
  | ['~'] => false
  | _ :: rest => isPointerRest rest
  | [] => true

def matchesPointer (pointer : String) : Bool :=
  (pointer.toList = [] || pointer.toList.head? = some '/') && isPointerRest pointer.toList

structure Scope.Valid (scope : Scope) : Prop where
  pointer : scope.fieldPointer.length ≤ 4096 ∧ matchesPointer scope.fieldPointer = true
  closure : scope.closure.Valid
  defined : scope.closure.posture ≠ .undefined

structure Document.Valid (installed : Installed) (document : Document) : Prop where
  profile : TextWithin 1 256 document.semanticProfile
  defaultClosure : document.defaultClosure.Valid
  scopes : ∀ scope ∈ document.scopes, scope.Valid
  pointers : (document.scopes.map Scope.fieldPointer).Nodup
  root : document.root.Valid installed
  definitionCount : document.definitions.length ≤ 256
  names : (document.definitions.map Prod.fst).Nodup
  definitions : ∀ definition ∈ document.definitions, definition.2.Valid installed

end Raes.Realization
