import Mathlib.Data.List.Perm.Basic
import Raes.Lib.Dict

/-!
# Mapping scopes and the normalization of keys

`raes/_mapping_scopes.py` and `_normalize_keys` of `raes/parser.py`.  The keys of
a structural mapping are field names and are rewritten to their canonical
spelling; the keys of a literal mapping are names that the author chose and are
kept; data is not looked into at all.

`str.lower` is the lower case mapping of Unicode.  It is the parameter `lower`,
and every result holds of each such mapping.
-/

namespace Raes.Source

open Dict

inductive MappingScope where
  | structural
  | literal
  | data
  deriving DecidableEq, Repr

def profileJsonFields : List String := ["schema_document", "profile_value"]

def hashmapSections : List String := [
  "nodes", "infrastructure", "features", "conditions", "propositions", "assertions",
  "entities", "injects", "events", "scripts", "stories", "content",
  "control_context_assets", "generated_artifacts", "persistent_volumes", "accounts",
  "identity_domains", "identity_forests", "identity_facades", "deployment_tenants",
  "deployment_cells", "relationships", "agents", "action_contracts",
  "observation_boundaries", "outcome_interpretation_rules", "behavior_specifications",
  "evidence_requirements", "time_domains", "clocks", "time_domain_mappings",
  "time_progression_policies", "temporal_constraints", "objectives", "workflows",
  "variables", "variation_points"]

def nestedHashmapFields : List String := [
  "features", "conditions", "injects", "roles", "log_options", "labels",
  "driver_options", "ipam_options", "facts", "entities", "events", "steps",
  "extensions", "interactive_access", "control_context", "controller_states",
  "transitions", "permitted_transitions", "alternatives", "inventory", "members",
  "fixed_positions", "tool_affordances", "participant_inject_deliveries", "owners",
  "dimensions"]

/-- The canonical spelling of a structural field: `key.lower().replace("-", "_")`. -/
def normalizeFieldKey (lower : String → String) (key : String) : String :=
  (lower key).map fun c => if c = '-' then '_' else c

/-- Whether the immediate child keys of a structural field are literal. -/
def isLiteralMapField (key : String) (valueIsMapping valueIsSequence : Bool) : Bool :=
  if hashmapSections.contains key || key = "vulnerabilities" then valueIsMapping
  else if nestedHashmapFields.contains key then true
  else key = "properties" && valueIsSequence

/-! ## Constructed values -/

/-- A constructed document: scalars of a type `σ`, lists and dictionaries.  The
analyzer reports every key that is not a string, so the keys are strings. -/
inductive Value (σ : Type) where
  | scalar (value : σ)
  | list (items : List (Value σ))
  | dict (fields : List (String × Value σ))

variable {σ : Type}

def Value.isDict : Value σ → Bool
  | .dict _ => true
  | _ => false

def Value.isList : Value σ → Bool
  | .list _ => true
  | _ => false

/-- Whether the children of a field are user-defined hashmap keys. -/
def childIsHashmapField (key : String) (value : Value σ) : Bool :=
  isLiteralMapField key value.isDict value.isList

variable (lower : String → String)

mutual

/-- `_normalize_keys`: lists hand their flag to their items. -/
def normalizeKeys (isHashmap : Bool) : Value σ → Value σ
  | .scalar value => .scalar value
  | .list items => .list (normalizeItems isHashmap items)
  | .dict fields => .dict (normalizeFields isHashmap fields [])
termination_by structural value => value

def normalizeItems (isHashmap : Bool) : List (Value σ) → List (Value σ)
  | [] => []
  | item :: rest => normalizeKeys isHashmap item :: normalizeItems isHashmap rest
termination_by structural items => items

/-- The loop of `_normalize_keys` over the entries of a dictionary.  Storing under
a canonical key that is present already replaces the value there. -/
def normalizeFields (isHashmap : Bool) :
    List (String × Value σ) → List (String × Value σ) → List (String × Value σ)
  | [], result => result
  | (k, v) :: rest, result =>
    let normK := if isHashmap then k else normalizeFieldKey lower k
    let childIsHashmap := !isHashmap && childIsHashmapField normK v
    let child :=
      if !isHashmap && profileJsonFields.contains normK then v
      else normalizeKeys childIsHashmap v
    normalizeFields isHashmap rest (setEntry normK child result)
termination_by structural fields => fields

end

/-- The normalization that the scope of the document calls for: a structural
document starts with `is_hashmap=False` and a literal one with `is_hashmap=True`. -/
def normalizeAs : MappingScope → Value σ → Value σ
  | .structural, value => normalizeKeys lower false value
  | .literal, value => normalizeKeys lower true value
  | .data, value => value

end Raes.Source

/-!
# Paths of declaration identities

`raes/_source_identifier_paths.py`: which pointer tokens lead to the keys of
declarations and which lead to scalar identifiers.  The registry of runtime
service families is a table, and `str.isdigit` is a property of Unicode; both are
parameters.
-/

namespace Raes.Source

/-- A collection below a runtime service family, with the collections below it. -/
inductive RuntimeReferenceChild where
  | mk (collectionName idField : String) (children : List RuntimeReferenceChild)

structure RuntimeServiceFamily where
  (collectionName idField : String)
  childRefs : List RuntimeReferenceChild

/-- `tokens[::2]` -/
def everySecond : List String → List String
  | [] => []
  | [token] => [token]
  | token :: _ :: rest => token :: everySecond rest

def isFlatDeclarationScope (tokens : List String) : Bool :=
  match tokens with
  | [section_] => hashmapSections.contains section_
  | [section_, _, field] =>
    [("nodes", "roles"), ("workflows", "steps"), ("variation_points", "alternatives"),
      ("variation_points", "members")].contains (section_, field)
  | _ => false

def isNestedEntityScope (tokens : List String) : Bool :=
  tokens.head? = some "entities" && tokens.getLast? = some "entities" &&
    (everySecond tokens).all (· = "entities")

def isDeclarationKeyPath (tokens : List String) : Bool :=
  isFlatDeclarationScope tokens || isNestedEntityScope tokens

variable (isdigit : String → Bool)

mutual

/-- Whether the tokens lead to an identifier of this child or below it. -/
def matchesRuntimeChild : RuntimeReferenceChild → List String → Bool
  | .mk _ _ children, rest => rest.isEmpty || matchesRuntimeChildPath children rest
termination_by structural child => child

/-- `_matches_runtime_child_path`: the first child of the collection and the
identifier field decides. -/
def matchesRuntimeChildPath : List RuntimeReferenceChild → List String → Bool
  | [], _ => false
  | child :: others, tokens =>
    match tokens with
    | collection :: index :: field :: rest =>
      if !isdigit index then false
      else
        match child with
        | .mk collectionName idField _ =>
          if collection ≠ collectionName || field ≠ idField then
            matchesRuntimeChildPath others tokens
          else matchesRuntimeChild child rest
    | _ => false
termination_by structural children => children

end

/-- `_runtime_identifier_suffix`: the tokens after the identifier of a family. -/
def runtimeIdentifierSuffix (tokens : List String) (family : RuntimeServiceFamily) :
    Option (List String) :=
  match tokens with
  | "nodes" :: _ :: "runtime" :: collection :: index :: field :: rest =>
    if collection = family.collectionName && field = family.idField && isdigit index then some rest
    else none
  | "forwarding_agents" :: index :: field :: rest =>
    if family.collectionName = "forwarding_agents" && field = family.idField && isdigit index then
      some rest
    else none
  | _ => none

def isRegisteredRuntimeIdentifierPath (families : List RuntimeServiceFamily)
    (tokens : List String) : Bool :=
  families.any fun family =>
    (runtimeIdentifierSuffix isdigit tokens family).any fun suffix =>
      suffix.isEmpty || matchesRuntimeChildPath isdigit family.childRefs suffix

def isScalarIdentifierPath (families : List RuntimeServiceFamily) (tokens : List String) : Bool :=
  match tokens with
  | ["forwarding_agents", index, field] =>
    if isdigit index then field = "forwarding_agent_id"
    else isRegisteredRuntimeIdentifierPath isdigit families tokens
  | [section_, _, collection, index, field] =>
    if isdigit index then
      [("nodes", "services", "name"), ("infrastructure", "acls", "name"),
        ("content", "items", "name")].contains (section_, collection, field)
    else isRegisteredRuntimeIdentifierPath isdigit families tokens
  | _ => isRegisteredRuntimeIdentifierPath isdigit families tokens

end Raes.Source

/-!
# Composed node graphs

The graph that the YAML composer yields.  Its nodes are numbered, a number
standing for the identity of a node object, so that an aliased node is one
number met in several places and a cyclic alias is a cycle of the graph.

The constructor of the safe loader is not part of the repository.  `Flattens`
and `Constructs` state its documented rules for merge keys and for mappings:
the entries of the merge sources come before the entries of the mapping itself,
a sequence of sources is taken from its last item to its first, and an entry
replaces an earlier entry with the same key.
-/

namespace Raes.Source

open Dict

def mergeTag : String := "tag:yaml.org,2002:merge"

def stringTag : String := "tag:yaml.org,2002:str"

/-- The position of a mark in the source text, counted from zero. -/
structure Mark where
  (line column : Nat)
  deriving DecidableEq, Repr

inductive Node (ι : Type) where
  | scalar (tag value : String)
  | mapping (value : List (ι × ι))
  | sequence (value : List ι)

structure NodeGraph where
  size : Nat
  node : Fin size → Node (Fin size)
  (startMark endMark : Fin size → Mark)

namespace NodeGraph

abbrev Id (g : NodeGraph) : Type := Fin g.size

variable (g : NodeGraph)

def isMapping (n : g.Id) : Bool :=
  match g.node n with
  | .mapping _ => true
  | _ => false

def isSequence (n : g.Id) : Bool :=
  match g.node n with
  | .sequence _ => true
  | _ => false

def isMergeKey (n : g.Id) : Bool :=
  match g.node n with
  | .scalar tag _ => tag = mergeTag
  | _ => false

def isStringKey (n : g.Id) : Bool :=
  match g.node n with
  | .scalar tag _ => tag = stringTag
  | _ => false

def authoredKey (n : g.Id) : String :=
  match g.node n with
  | .scalar _ value => value
  | _ => "?"

/-- `_merge_sources`: the mappings that a merge value names. -/
def mergeSources (n : g.Id) : List g.Id :=
  match g.node n with
  | .mapping _ => [n]
  | .sequence items => items.filter g.isMapping
  | .scalar _ _ => []

def allMergeSources (pairs : List (g.Id × g.Id)) : List g.Id :=
  pairs.flatMap fun p => if g.isMergeKey p.1 then g.mergeSources p.2 else []

def localPairs (pairs : List (g.Id × g.Id)) : List (g.Id × g.Id) :=
  pairs.filter fun p => !g.isMergeKey p.1

theorem mem_allMergeSources {pairs : List (g.Id × g.Id)} {src : g.Id} :
    src ∈ g.allMergeSources pairs ↔
      ∃ p ∈ pairs, g.isMergeKey p.1 = true ∧ src ∈ g.mergeSources p.2 := by
  simp only [allMergeSources, List.mem_flatMap]
  constructor
  · rintro ⟨p, hp, h⟩
    by_cases hm : g.isMergeKey p.1 = true
    · exact ⟨p, hp, hm, by simpa [hm] using h⟩
    · simp [hm] at h
  · rintro ⟨p, hp, hm, h⟩
    exact ⟨p, hp, by simpa [hm] using h⟩

theorem isMapping_of_mem_allMergeSources {g : NodeGraph} {pairs : List (g.Id × g.Id)} {src : g.Id}
    (h : src ∈ g.allMergeSources pairs) : g.isMapping src = true := by
  obtain ⟨p, -, -, hmem⟩ := g.mem_allMergeSources.mp h
  unfold mergeSources at hmem
  split at hmem
  · rename_i sourcePairs hsource
    rw [List.mem_singleton.mp hmem, isMapping, hsource]
  · exact (List.mem_filter.mp hmem).2
  · cases hmem

def MergeEdge (a b : g.Id) : Prop :=
  ∃ pairs, g.node a = .mapping pairs ∧ b ∈ g.allMergeSources pairs

/-! ## The rules of the constructor -/

/-- A merge value must be a mapping or a sequence of mappings. -/
def isMergeable (n : g.Id) : Bool :=
  match g.node n with
  | .mapping _ => true
  | .sequence items => items.all g.isMapping
  | .scalar _ _ => false

/-- The merge sources in the order in which `flatten_mapping` takes them. -/
def flattenSources (n : g.Id) : List g.Id :=
  match g.node n with
  | .mapping _ => [n]
  | .sequence items => items.reverse
  | .scalar _ _ => []

def allFlattenSources (pairs : List (g.Id × g.Id)) : List g.Id :=
  pairs.flatMap fun p => if g.isMergeKey p.1 then g.flattenSources p.2 else []

/-- `flatten_mapping`: the entries of a mapping with its merge keys replaced by
the entries of their sources, `sub` giving the entries of a source. -/
inductive Flattens : g.Id → List (g.Id × g.Id) → Prop where
  | mapping {n : g.Id} {pairs : List (g.Id × g.Id)} (sub : g.Id → List (g.Id × g.Id))
      (hnode : g.node n = .mapping pairs)
      (hmergeable : ∀ p ∈ pairs, g.isMergeKey p.1 = true → g.isMergeable p.2 = true)
      (hsub : ∀ src ∈ g.allFlattenSources pairs, Flattens src (sub src)) :
      Flattens n ((g.allFlattenSources pairs).flatMap sub ++ g.localPairs pairs)

/-- A dictionary built of entries in their order, a later entry replacing an
earlier one. -/
def dictOf {α : Type} (entries : List (String × α)) : List (String × α) :=
  entries.foldl (fun fields e => setEntry e.1 e.2 fields) []

/-- `construct_document`: the value that a node stands for.  `scalarOf` resolves
a scalar of a tag, and `valueOf` names the values of the nodes below. -/
inductive Constructs {σ : Type} (scalarOf : String → String → Option σ) :
    g.Id → Value σ → Prop where
  | scalar {n : g.Id} {tag value : String} {a : σ} (hnode : g.node n = .scalar tag value)
      (hscalar : scalarOf tag value = some a) : Constructs scalarOf n (.scalar a)
  | sequence {n : g.Id} {items : List g.Id} (valueOf : g.Id → Value σ)
      (hnode : g.node n = .sequence items)
      (hitems : ∀ i ∈ items, Constructs scalarOf i (valueOf i)) :
      Constructs scalarOf n (.list (items.map valueOf))
  | mapping {n : g.Id} {pairs : List (g.Id × g.Id)} (valueOf : g.Id → Value σ)
      (hflat : g.Flattens n pairs)
      (hkeys : ∀ p ∈ pairs, g.isStringKey p.1 = true)
      (hvalues : ∀ p ∈ pairs, Constructs scalarOf p.2 (valueOf p.2)) :
      Constructs scalarOf n
        (.dict (dictOf (pairs.map fun p => (g.authoredKey p.1, valueOf p.2))))

variable {g}

/-- Where the merge value is mergeable, the constructor takes the sources that
the analyzer looks at. -/
theorem flattenSources_perm {n : g.Id} (h : g.isMergeable n = true) :
    (g.flattenSources n).Perm (g.mergeSources n) := by
  unfold isMergeable at h
  unfold flattenSources mergeSources
  cases hnode : g.node n with
  | scalar tag value => exact List.Perm.refl _
  | mapping pairs => exact List.Perm.refl _
  | sequence items =>
    rw [hnode] at h
    have hall : items.filter g.isMapping = items :=
      List.filter_eq_self.mpr (List.all_eq_true.mp h)
    simp only [hall]
    exact List.reverse_perm items

theorem allFlattenSources_perm {pairs : List (g.Id × g.Id)}
    (h : ∀ p ∈ pairs, g.isMergeKey p.1 = true → g.isMergeable p.2 = true) :
    (g.allFlattenSources pairs).Perm (g.allMergeSources pairs) := by
  refine List.Perm.flatMap_left pairs fun p hp => ?_
  by_cases hm : g.isMergeKey p.1 = true
  · simpa [hm] using flattenSources_perm (h p hp hm)
  · simp [hm]

end NodeGraph

end Raes.Source
