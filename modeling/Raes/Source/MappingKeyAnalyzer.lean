import Mathlib.Data.Prod.Lex
import Mathlib.Data.String.Basic
import Raes.Contracts.Addressing
import Raes.Contracts.JsonPointer
import Raes.Lib.SortBy
import Raes.Source.NodeGraph

/-!
# The mapping-key analyzer

`raes/_mapping_key_analyzer.py`.  The analyzer walks a composed node graph with
the identities of the nodes on its path, visits a node once in each scope, and
collects diagnostics: conflicting keys, keys that are not strings, spellings that
are not canonical, invalid identifiers and cyclic aliases.

A method of the source that writes the analyzer's fields is a function on
`AnalyzerState`.  `_diagnostic_keys` holds the keys of the collected diagnostics
and `seen` of an accumulator the canonical keys of its entries, so both are read
off the lists they repeat.  The walk takes a bound on its depth; the path holds
distinct nodes, so a bound above the number of nodes is never reached.
-/

namespace Raes.Source

inductive MigrationPolicy where
  | reject
  | accept
  deriving DecidableEq, Repr

inductive ParseSeverity where
  | error
  | warning
  deriving DecidableEq, Repr

structure SourcePosition where
  (line column : Nat)
  deriving DecidableEq, Repr

structure SourceRange where
  (start stop : SourcePosition)
  deriving DecidableEq, Repr

structure ParseDiagnostic where
  (code message pointer : String)
  primaryRange : SourceRange
  authoredKeys : Option (String × String)
  relatedRange : Option SourceRange
  relatedMessage : Option String
  severity : ParseSeverity
  source : Option String
  deriving DecidableEq, Repr

def ParseDiagnostic.key (d : ParseDiagnostic) :
    String × String × SourcePosition × Option SourcePosition :=
  (d.code, d.pointer, d.primaryRange.start, d.relatedRange.map (·.start))

/-- What the analyzer is built with, and the tables and the Unicode functions it
looks at. -/
structure AnalyzerConfig where
  migrationPolicy : MigrationPolicy
  source : Option String
  materialized : Bool
  families : List RuntimeServiceFamily
  lower : String → String
  isdigit : String → Bool

variable (cfg : AnalyzerConfig) (g : NodeGraph)

structure Entry where
  (canonical authored : String)
  keyNode : g.Id

structure EffectiveMapping where
  entries : List (Entry g)
  conflicts : List (Entry g × Entry g)

structure AnalyzerState where
  diagnostics : List ParseDiagnostic
  effectiveCache : Dict (g.Id × MappingScope) (EffectiveMapping g)
  walked : List (g.Id × MappingScope)
  (sourceRanges sourceKeyRanges : Option (Dict String SourceRange))

variable {g}

def EffectiveMapping.add (acc : EffectiveMapping g) (entry : Entry g) : EffectiveMapping g :=
  match acc.entries.find? (fun e => e.canonical = entry.canonical) with
  | none => { acc with entries := acc.entries ++ [entry] }
  | some previous => { acc with conflicts := acc.conflicts ++ [(previous, entry)] }

def rangeFromNode (n : g.Id) : SourceRange where
  start := ⟨(g.startMark n).line + 1, (g.startMark n).column + 1⟩
  stop := ⟨(g.endMark n).line + 1, (g.endMark n).column + 1⟩

def canonicalKey (lower : String → String) (scope : MappingScope) (authored : String) : String :=
  if scope = .structural then normalizeFieldKey lower authored else authored

/-- `_child_scope`: the scope of the value of a field. -/
def childScope (scope : MappingScope) (canonical : String) (valueNode : g.Id) : MappingScope :=
  if scope = .data ∨ scope = .structural ∧ profileJsonFields.contains canonical then .data
  else if scope = .structural ∧
      isLiteralMapField canonical (g.isMapping valueNode) (g.isSequence valueNode) then .literal
  else .structural

/-! ## The effective mapping -/

def addLocalEntries (scope : MappingScope) (pairs : List (g.Id × g.Id))
    (acc : EffectiveMapping g) : EffectiveMapping g :=
  pairs.foldl (fun acc p =>
    if !g.isStringKey p.1 || g.isMergeKey p.1 then acc
    else acc.add ⟨canonicalKey cfg.lower scope (g.authoredKey p.1), g.authoredKey p.1, p.1⟩) acc

def recordDuplicateMergeKeys (mergeKeys : List g.Id) (acc : EffectiveMapping g) :
    EffectiveMapping g :=
  match mergeKeys with
  | [] => acc
  | first :: others =>
    { acc with conflicts := acc.conflicts ++
        others.map fun keyNode => (⟨"<<", "<<", first⟩, ⟨"<<", "<<", keyNode⟩) }

def mergeKeysOf (pairs : List (g.Id × g.Id)) : List g.Id :=
  (pairs.map Prod.fst).filter g.isMergeKey

/-- One source of `_inherit_merge_entries`: a source on the path is skipped. -/
def inheritSource (effective : g.Id → Dict (g.Id × MappingScope) (EffectiveMapping g) →
      EffectiveMapping g × Dict (g.Id × MappingScope) (EffectiveMapping g))
    (active : List g.Id)
    (st : EffectiveMapping g × Dict (g.Id × MappingScope) (EffectiveMapping g)) (src : g.Id) :
    EffectiveMapping g × Dict (g.Id × MappingScope) (EffectiveMapping g) :=
  if src ∈ active then st
  else
    let inherited := effective src st.2
    (inherited.1.entries.foldl EffectiveMapping.add st.1, inherited.2)

def inheritMergeEntries (effective : g.Id → Dict (g.Id × MappingScope) (EffectiveMapping g) →
      EffectiveMapping g × Dict (g.Id × MappingScope) (EffectiveMapping g))
    (active : List g.Id) (pairs : List (g.Id × g.Id))
    (st : EffectiveMapping g × Dict (g.Id × MappingScope) (EffectiveMapping g)) :
    EffectiveMapping g × Dict (g.Id × MappingScope) (EffectiveMapping g) :=
  pairs.foldl (fun st p =>
    if g.isMergeKey p.1 then (g.mergeSources p.2).foldl (inheritSource effective active) st
    else st) st

/-- `_effective_mapping`: the entries of a mapping under its merge keys, from the
cache where it was computed before. -/
def effectiveMapping : Nat → g.Id → MappingScope → List g.Id →
    Dict (g.Id × MappingScope) (EffectiveMapping g) →
    EffectiveMapping g × Dict (g.Id × MappingScope) (EffectiveMapping g)
  | 0, _, _, _, cache => (⟨[], []⟩, cache)
  | fuel + 1, n, scope, active, cache =>
    match cache.get? (n, scope) with
    | some cached => (cached, cache)
    | none =>
      if n ∈ active then (⟨[], []⟩, cache)
      else
        match g.node n with
        | .mapping pairs =>
          let inherited := inheritMergeEntries
            (fun src cache => effectiveMapping fuel src scope (n :: active) cache)
            (n :: active) pairs (⟨[], []⟩, cache)
          let result := addLocalEntries cfg scope pairs
            (recordDuplicateMergeKeys (mergeKeysOf pairs) inherited.1)
          (result, inherited.2.set (n, scope) result)
        | _ => (⟨[], []⟩, cache)

/-! ## Diagnostics -/

namespace AnalyzerState

/-- `_add`: a diagnostic with the key of an earlier one is dropped. -/
def add (d : ParseDiagnostic) (st : AnalyzerState g) : AnalyzerState g :=
  if st.diagnostics.any (fun other => other.key = d.key) then st
  else { st with diagnostics := st.diagnostics ++ [d] }

/-- `self._source_ranges[pointer] = range`, where ranges are collected -/
def recordRange (pointer : String) (range : SourceRange) (st : AnalyzerState g) :
    AnalyzerState g :=
  { st with sourceRanges := st.sourceRanges.map fun ranges => ranges.set pointer range }

/-- `self._source_key_ranges[pointer] = range`, where key ranges are collected -/
def recordKeyRange (pointer : String) (range : SourceRange) (st : AnalyzerState g) :
    AnalyzerState g :=
  { st with sourceKeyRanges := st.sourceKeyRanges.map fun ranges => ranges.set pointer range }

end AnalyzerState

def aliasCycle (n : g.Id) (tokens : List String) : ParseDiagnostic where
  code := "sdl.alias_cycle"
  message := "Cyclic YAML aliases are not valid SDL authoring input."
  pointer := pointerFromTokens tokens
  primaryRange := rangeFromNode n
  authoredKeys := none
  relatedRange := none
  relatedMessage := none
  severity := .error
  source := cfg.source

def conflictMessage (first conflicting : Entry g) : String :=
  if first.authored = conflicting.authored then
    "Duplicate mapping key '" ++ conflicting.authored ++ "'."
  else
    "Structural field keys '" ++ first.authored ++ "' and '" ++ conflicting.authored ++
      "' both address '" ++ conflicting.canonical ++ "'."

def keyConflict (first conflicting : Entry g) (tokens : List String) : ParseDiagnostic where
  code := "sdl.mapping_key_conflict"
  message := conflictMessage first conflicting
  pointer := pointerFromTokens (tokens ++ [conflicting.canonical])
  primaryRange := rangeFromNode conflicting.keyNode
  authoredKeys := some (first.authored, conflicting.authored)
  relatedRange := some (rangeFromNode first.keyNode)
  relatedMessage := some ("First authored key '" ++ first.authored ++ "'.")
  severity := .error
  source := cfg.source

def keyType (keyNode : g.Id) (authored : String) (tokens : List String) : ParseDiagnostic where
  code := "sdl.mapping_key_type"
  message :=
    if tokens.isEmpty then "SDL top-level mapping keys must be strings"
    else "SDL mapping key '" ++ authored ++ "' must be a string."
  pointer := pointerFromTokens (tokens ++ [authored])
  primaryRange := rangeFromNode keyNode
  authoredKeys := none
  relatedRange := none
  relatedMessage := none
  severity := .error
  source := cfg.source

def invalidIdentifier (n : g.Id) (tokens : List String) (nodeLimit : Bool) : ParseDiagnostic where
  code := "sdl.identifier.invalid"
  message :=
    if nodeLimit then "Authored node identifiers must be at most 35 characters."
    else "Authored identifiers must be 1-64 lowercase ASCII letters, digits, hyphens, or " ++
      "underscores and start with a letter or digit."
  pointer := pointerFromTokens tokens
  primaryRange := rangeFromNode n
  authoredKeys := none
  relatedRange := none
  relatedMessage := none
  severity := .error
  source := cfg.source

/-- `_add_migration_diagnostic`: the migration policy decides the severity. -/
def migration (keyNode : g.Id) (code message pointer : String) (authoredKeys : String × String) :
    ParseDiagnostic where
  code := code
  message := message
  pointer := pointer
  primaryRange := rangeFromNode keyNode
  authoredKeys := some authoredKeys
  relatedRange := none
  relatedMessage := none
  severity := if cfg.migrationPolicy = .accept then .warning else .error
  source := cfg.source

def noncanonicalMerge (keyNode : g.Id) (tokens : List String) : ParseDiagnostic :=
  migration cfg keyNode "sdl.noncanonical_merge"
    "YAML merge keys are migration syntax, not canonical sdl-yaml/v1."
    (pointerFromTokens tokens) ("<<", "<<")

def noncanonicalField (keyNode : g.Id) (authored canonical : String) (tokens : List String) :
    ParseDiagnostic :=
  migration cfg keyNode "sdl.noncanonical_field"
    ("Structural field '" ++ authored ++ "' must use canonical spelling '" ++ canonical ++ "'.")
    (pointerFromTokens (tokens ++ [canonical])) (authored, canonical)

/-! ## Identifiers -/

def validateIdentifierNode (n : g.Id) (tokens : List String) (st : AnalyzerState g) :
    AnalyzerState g :=
  if g.isStringKey n && Contracts.isPortableIdentifier (g.authoredKey n) then st
  else st.add (invalidIdentifier cfg n tokens false)

/-- `_validate_declaration_identifier`: a materialized document has qualified names
for the keys of its sections. -/
def validateDeclarationIdentifier (keyNode : g.Id) (authored : String)
    (tokens childTokens : List String) (st : AnalyzerState g) : AnalyzerState g :=
  let qualified := cfg.materialized && tokens.length = 1
  let st :=
    if qualified then
      match Contracts.QualifiedName.parse authored with
      | .ok _ => st
      | .error _ => st.add (invalidIdentifier cfg keyNode childTokens false)
    else validateIdentifierNode cfg keyNode childTokens st
  let localName :=
    if qualified then (Contracts.splitDots authored).getLast?.getD authored else authored
  if tokens = ["nodes"] && 35 < localName.length then
    st.add (invalidIdentifier cfg keyNode childTokens true)
  else st

def validateEntryIdentifiers (keyNode valueNode : g.Id) (authored : String)
    (tokens childTokens : List String) (suppressFieldMigration : Bool) (st : AnalyzerState g) :
    AnalyzerState g :=
  let st :=
    if isDeclarationKeyPath tokens && !suppressFieldMigration then
      validateDeclarationIdentifier cfg keyNode authored tokens childTokens st
    else st
  let st :=
    if childTokens = ["name"] then validateIdentifierNode cfg valueNode childTokens st else st
  if isScalarIdentifierPath cfg.isdigit cfg.families childTokens then
    validateIdentifierNode cfg valueNode childTokens st
  else st

/-! ## The walk -/

/-- `_walk_merge_value`: the sources of a merge key are walked in the scope and at
the place of the mapping that merges them. -/
def walkMergeValue (walk : g.Id → MappingScope → List String → AnalyzerState g → AnalyzerState g)
    (n : g.Id) (scope : MappingScope) (tokens : List String) (st : AnalyzerState g) :
    AnalyzerState g :=
  match g.node n with
  | .mapping _ => walk n scope tokens st
  | .sequence items => items.foldl (fun st item => walk item scope tokens st) st
  | .scalar _ _ => st

def walkMappingEntry
    (walk : g.Id → MappingScope → List String → AnalyzerState g → AnalyzerState g)
    (keyNode valueNode : g.Id) (scope : MappingScope) (tokens : List String)
    (suppressFieldMigration : Bool) (st : AnalyzerState g) : AnalyzerState g :=
  if g.isMergeKey keyNode then
    walkMergeValue walk valueNode scope tokens (st.add (noncanonicalMerge cfg keyNode tokens))
  else
    let authored := g.authoredKey keyNode
    if !g.isStringKey keyNode then st.add (keyType cfg keyNode authored tokens)
    else
      let canonical := canonicalKey cfg.lower scope authored
      let st :=
        if scope = .structural && canonical ≠ authored && !suppressFieldMigration then
          st.add (noncanonicalField cfg keyNode authored canonical tokens)
        else st
      let childTokens := tokens ++ [canonical]
      let st := st.recordKeyRange (pointerFromTokens childTokens) (rangeFromNode keyNode)
      let st := validateEntryIdentifiers cfg keyNode valueNode authored tokens childTokens
        suppressFieldMigration st
      walk valueNode (childScope scope canonical valueNode) childTokens st

/-- `_walk_sequence`: the items of a sequence are walked in its scope. -/
def walkSequence (walk : g.Id → MappingScope → List String → AnalyzerState g → AnalyzerState g)
    (items : List g.Id) (scope : MappingScope) (tokens : List String) (st : AnalyzerState g) :
    AnalyzerState g :=
  items.zipIdx.foldl (fun st item => walk item.1 scope (tokens ++ [toString item.2]) st) st

def addConflicts (conflicts : List (Entry g × Entry g)) (tokens : List String)
    (st : AnalyzerState g) : AnalyzerState g :=
  conflicts.foldl (fun st c => st.add (keyConflict cfg c.1 c.2 tokens)) st

def walkMapping (walk : g.Id → MappingScope → List String → AnalyzerState g → AnalyzerState g)
    (n : g.Id) (pairs : List (g.Id × g.Id)) (scope : MappingScope) (tokens : List String)
    (st : AnalyzerState g) : AnalyzerState g :=
  let effective := effectiveMapping cfg (g.size + 1) n scope [] st.effectiveCache
  let conflicts := effective.1.conflicts
  let conflicted := conflicts.flatMap fun c => [c.1.keyNode, c.2.keyNode]
  let st := addConflicts cfg conflicts tokens { st with effectiveCache := effective.2 }
  pairs.foldl (fun st p =>
    walkMappingEntry cfg walk p.1 p.2 scope tokens (conflicted.contains p.1) st) st

def walk : Nat → List g.Id → g.Id → MappingScope → List String → AnalyzerState g → AnalyzerState g
  | 0, _, _, _, _, st => st
  | fuel + 1, active, n, scope, tokens, st =>
    let st := st.recordRange (pointerFromTokens tokens) (rangeFromNode n)
    if n ∈ active then st.add (aliasCycle cfg n tokens)
    else if (n, scope) ∈ st.walked && st.sourceKeyRanges.isNone then st
    else
      match g.node n with
      | .scalar _ _ => st
      | .mapping pairs =>
        walkMapping cfg (walk fuel (n :: active)) n pairs scope tokens
          { st with walked := (n, scope) :: st.walked }
      | .sequence items =>
        walkSequence (walk fuel (n :: active)) items scope tokens
          { st with walked := (n, scope) :: st.walked }

/-- The fields of a new analyzer, with or without collectors of ranges. -/
def AnalyzerState.start (sourceRanges sourceKeyRanges : Option (Dict String SourceRange)) :
    AnalyzerState g :=
  ⟨[], Dict.empty, [], sourceRanges, sourceKeyRanges⟩

def ParseDiagnostic.order (d : ParseDiagnostic) : ℕ ×ₗ ℕ ×ₗ String ×ₗ String :=
  toLex (d.primaryRange.start.line, toLex (d.primaryRange.start.column, toLex (d.code, d.pointer)))

def analyze (root : g.Id) (scope : MappingScope) (baseTokens : List String)
    (st : AnalyzerState g) : List ParseDiagnostic :=
  sortBy ParseDiagnostic.order
    (walk cfg (g.size + 1) [] root scope baseTokens st).diagnostics

/-- The diagnostics that `_validate_mapping_keys` raises. -/
def mappingKeyErrors (diagnostics : List ParseDiagnostic) : List ParseDiagnostic :=
  diagnostics.filter fun d => d.severity ≠ .warning

end Raes.Source
