import Raes.Source.AnalyzerSound

/-!
# Normalized documents

No authored key is lost.  `Reads` is what a document says in a scope, read off the
node graph: every entry of a flattened mapping appears once, under its canonical
key, with the value that its own node reads as in the scope that the analyzer
gives it.  Where the analyzer reports no error, the constructed and normalized
document is the one that the graph reads as.

The normalization knows the constructed values only.  It classifies a value as the
analyzer classifies the node that the value was constructed of
(`childScope_eq_valueScope`), and the rest follows by induction on the
construction.
-/

namespace Raes.Source

open Dict

variable {cfg : AnalyzerConfig} {g : NodeGraph} {σ : Type}
  {scalarOf : String → String → Option σ}

def entryKey (cfg : AnalyzerConfig) (scope : MappingScope) (p : g.Id × g.Id) : String :=
  canonicalKey cfg.lower scope (g.authoredKey p.1)

def entryScope (cfg : AnalyzerConfig) (scope : MappingScope) (p : g.Id × g.Id) : MappingScope :=
  childScope scope (entryKey cfg scope p) p.2

inductive Reads (cfg : AnalyzerConfig) (scalarOf : String → String → Option σ) :
    g.Id → MappingScope → Value σ → Prop where
  | scalar {n : g.Id} {scope : MappingScope} {tag value : String} {a : σ}
      (hnode : g.node n = .scalar tag value) (hscalar : scalarOf tag value = some a) :
      Reads cfg scalarOf n scope (.scalar a)
  | sequence {n : g.Id} {scope : MappingScope} {items : List g.Id} (valueOf : g.Id → Value σ)
      (hnode : g.node n = .sequence items)
      (hitems : ∀ i ∈ items, Reads cfg scalarOf i scope (valueOf i)) :
      Reads cfg scalarOf n scope (.list (items.map valueOf))
  | mapping {n : g.Id} {scope : MappingScope} {pairs : List (g.Id × g.Id)}
      (valueOf : g.Id × g.Id → Value σ) (hflat : g.Flattens n pairs)
      (hdistinct : (pairs.map (entryKey cfg scope)).Nodup)
      (hvalues : ∀ p ∈ pairs, Reads cfg scalarOf p.2 (entryScope cfg scope p) (valueOf p)) :
      Reads cfg scalarOf n scope (.dict (pairs.map fun p => (entryKey cfg scope p, valueOf p)))

/-! ## The entries of a sound mapping -/

variable {scope : MappingScope} {pairs : List (g.Id × g.Id)}

theorem map_canonical_localEntries
    (hkeys : ∀ p ∈ pairs, g.isMergeKey p.1 = false → g.isStringKey p.1 = true) :
    (localEntries cfg scope pairs).map (·.canonical) =
      (g.localPairs pairs).map (entryKey cfg scope) := by
  have hfilter : (pairs.filter fun p => g.isStringKey p.1 && !g.isMergeKey p.1) =
      g.localPairs pairs := by
    apply List.filter_congr
    intro p hp
    by_cases hmerge : g.isMergeKey p.1 = true
    · simp [hmerge]
    · have hstring := hkeys p hp (Bool.eq_false_iff.mpr hmerge)
      simp [hstring]
  rw [localEntries, hfilter, List.map_map]
  rfl

/-- The entries that the constructor flattens a sound mapping to have string keys
and sound values, and their canonical keys are those of its effective mapping. -/
theorem Sound.flattened {n : g.Id} (hflat : g.Flattens n pairs) (hsound : Sound cfg n scope) :
    (∀ p ∈ pairs, g.isStringKey p.1 = true ∧ Sound cfg p.2 (entryScope cfg scope p)) ∧
      ∃ m, HasEffective cfg scope n m ∧ m.conflicts = [] ∧
        (pairs.map (entryKey cfg scope)).Perm (m.entries.map (·.canonical)) := by
  induction hflat with
  | @mapping n authored flat hnode hmergeable hsub ih =>
    cases hsound with
    | scalar hscalar =>
      rw [hnode] at hscalar
      cases hscalar
    | sequence hsequence _ =>
      rw [hnode] at hsequence
      cases hsequence
    | @mapping _ _ authored' sub hmapping heffective hconflicts hsources hkeys hvalues =>
      rw [hnode] at hmapping
      obtain rfl := Node.mapping.inj hmapping
      have hperm := NodeGraph.allFlattenSources_perm hmergeable
      have hbelow := fun src hsrc => ih src hsrc (hsources src (hperm.mem_iff.mp hsrc))
      constructor
      · intro p hp
        rcases List.mem_append.mp hp with hp | hp
        · obtain ⟨src, hsrc, hp⟩ := List.mem_flatMap.mp hp
          exact (hbelow src hsrc).1 p hp
        · obtain ⟨hmem, hlocal⟩ := List.mem_filter.mp hp
          rw [Bool.not_eq_true'] at hlocal
          exact ⟨hkeys p hmem hlocal, hvalues p hmem hlocal⟩
      · obtain ⟨hentries, -⟩ := buildEffective_without_conflict hconflicts
        refine ⟨_, .mapping sub hnode heffective, hconflicts, ?_⟩
        rw [hentries, List.map_append, List.map_append, map_canonical_localEntries hkeys,
          List.map_flatMap, List.map_flatMap]
        refine List.Perm.append_right _ (List.Perm.flatMap hperm ?_)
        intro src hsrc
        obtain ⟨-, m, hm, -, hkeysPerm⟩ := hbelow src hsrc
        rw [hm.unique (heffective src (hperm.mem_iff.mp hsrc))] at hkeysPerm
        exact hkeysPerm

theorem Sound.nodup_keys {n : g.Id} (hflat : g.Flattens n pairs)
    (hsound : Sound cfg n scope) : (pairs.map (entryKey cfg scope)).Nodup := by
  obtain ⟨-, m, hm, hconflicts, hperm⟩ := hsound.flattened hflat
  cases hm with
  | mapping sub hnode hsub =>
    exact hperm.nodup_iff.mpr (buildEffective_without_conflict hconflicts).2

/-- Whether the constructor refuses no scalar and no merge value of the graph. -/
def isConstructible (g : NodeGraph) (scalarOf : String → String → Option σ) : Bool :=
  (List.finRange g.size).all fun n =>
    match g.node n with
    | .scalar tag value => (scalarOf tag value).isSome
    | .mapping pairs => pairs.all fun p => !g.isMergeKey p.1 || g.isMergeable p.2
    | .sequence _ => true

theorem Sound.exists_flattens (hg : isConstructible g scalarOf = true) {n : g.Id}
    (hsound : Sound cfg n scope) (hmapping : g.isMapping n = true) :
    ∃ pairs, g.Flattens n pairs := by
  induction hsound with
  | scalar hnode => simp [NodeGraph.isMapping, hnode] at hmapping
  | sequence hnode _ _ => simp [NodeGraph.isMapping, hnode] at hmapping
  | @mapping n scope pairs sub hnode _ _ _ _ _ ih _ =>
    have hmergeable : ∀ p ∈ pairs, g.isMergeKey p.1 = true → g.isMergeable p.2 = true := by
      intro p hp hmerge
      have hchecked := List.all_eq_true.mp hg n (List.mem_finRange n)
      rw [hnode] at hchecked
      simpa [hmerge] using List.all_eq_true.mp hchecked p hp
    have hperm := NodeGraph.allFlattenSources_perm hmergeable
    have hsources : ∀ src, ∃ flat, src ∈ g.allFlattenSources pairs → g.Flattens src flat := by
      intro src
      by_cases hsrc : src ∈ g.allFlattenSources pairs
      · have hmem := hperm.mem_iff.mp hsrc
        obtain ⟨flat, hflat⟩ := ih src hmem (NodeGraph.isMapping_of_mem_allMergeSources hmem)
        exact ⟨flat, fun _ => hflat⟩
      · exact ⟨[], fun h => absurd h hsrc⟩
    choose flat hflat using hsources
    exact ⟨_, .mapping flat hnode hmergeable hflat⟩

/-- A sound node of a constructible graph has a value, and so have the entries that
a mapping is flattened to. -/
theorem Sound.exists_constructs (hg : isConstructible g scalarOf = true) {n : g.Id}
    (hsound : Sound cfg n scope) : (∃ v, g.Constructs scalarOf n v) ∧
      ∀ pairs, g.Flattens n pairs → ∀ p ∈ pairs, ∃ v, g.Constructs scalarOf p.2 v := by
  have hall := hsound
  induction hsound with
  | @scalar n scope tag value hnode =>
    have hchecked := List.all_eq_true.mp hg n (List.mem_finRange n)
    rw [hnode] at hchecked
    obtain ⟨a, ha⟩ := Option.isSome_iff_exists.mp hchecked
    refine ⟨⟨.scalar a, .scalar hnode ha⟩, ?_⟩
    intro pairs hflat
    cases hflat with
    | mapping flat hmapping _ _ =>
      rw [hnode] at hmapping
      cases hmapping
  | @sequence n scope items hnode hitems ih =>
    have hvalues : ∀ i, ∃ v, i ∈ items → g.Constructs scalarOf i v := by
      intro i
      by_cases hi : i ∈ items
      · obtain ⟨v, hv⟩ := (ih i hi (hitems i hi)).1
        exact ⟨v, fun _ => hv⟩
      · exact ⟨.list [], fun h => absurd h hi⟩
    choose valueOf hvalueOf using hvalues
    refine ⟨⟨_, .sequence valueOf hnode hvalueOf⟩, ?_⟩
    intro pairs hflat
    cases hflat with
    | mapping flat hmapping _ _ =>
      rw [hnode] at hmapping
      cases hmapping
  | @mapping n scope pairs sub hnode _ _ hsources hkeys hvalues ihSources ihValues =>
    have hentries : ∀ flat, g.Flattens n flat → ∀ p ∈ flat, ∃ v,
        g.Constructs scalarOf p.2 v := by
      intro flat hflat p hp
      cases hflat with
      | @mapping _ pairs' below hmapping hmergeable hbelow =>
        rw [hnode] at hmapping
        obtain rfl := Node.mapping.inj hmapping
        rcases List.mem_append.mp hp with hp | hp
        · obtain ⟨src, hsrc, hp⟩ := List.mem_flatMap.mp hp
          have hmem := (NodeGraph.allFlattenSources_perm hmergeable).mem_iff.mp hsrc
          exact (ihSources src hmem (hsources src hmem)).2 _ (hbelow src hsrc) p hp
        · obtain ⟨hmem, hlocal⟩ := List.mem_filter.mp hp
          rw [Bool.not_eq_true'] at hlocal
          exact (ihValues p hmem hlocal (hvalues p hmem hlocal)).1
    refine ⟨?_, hentries⟩
    obtain ⟨flat, hflat⟩ := hall.exists_flattens hg (by simp [NodeGraph.isMapping, hnode])
    have hvalueOf : ∀ i, ∃ v, (∃ p ∈ flat, p.2 = i) → g.Constructs scalarOf i v := by
      intro i
      by_cases hi : ∃ p ∈ flat, p.2 = i
      · obtain ⟨p, hp, rfl⟩ := hi
        obtain ⟨v, hv⟩ := hentries flat hflat p hp
        exact ⟨v, fun _ => hv⟩
      · exact ⟨.list [], fun h => absurd h hi⟩
    choose valueOf hvalueOf using hvalueOf
    exact ⟨_, .mapping valueOf hflat (fun p hp => ((hall.flattened hflat).1 p hp).1)
      fun p hp => hvalueOf p.2 ⟨p, hp, rfl⟩⟩

/-! ## The classification of constructed values -/

variable (scope : MappingScope)

def valueScope (canonical : String) (value : Value σ) : MappingScope :=
  if scope = .data ∨ scope = .structural ∧ profileJsonFields.contains canonical then .data
  else if scope = .structural ∧ childIsHashmapField canonical value then .literal
  else .structural

theorem isDict_of_constructs {n : g.Id} {v : Value σ} (h : g.Constructs scalarOf n v) :
    v.isDict = g.isMapping n ∧ v.isList = g.isSequence n := by
  cases h with
  | scalar hnode _ =>
    simp [Value.isDict, Value.isList, NodeGraph.isMapping, NodeGraph.isSequence, hnode]
  | sequence valueOf hnode _ =>
    simp [Value.isDict, Value.isList, NodeGraph.isMapping, NodeGraph.isSequence, hnode]
  | mapping valueOf hflat _ _ =>
    cases hflat with
    | mapping sub hnode _ _ =>
      simp [Value.isDict, Value.isList, NodeGraph.isMapping, NodeGraph.isSequence, hnode]

theorem childScope_eq_valueScope {n : g.Id} {v : Value σ} (h : g.Constructs scalarOf n v)
    (scope : MappingScope) (canonical : String) :
    childScope scope canonical n = valueScope scope canonical v := by
  obtain ⟨hdict, hlist⟩ := isDict_of_constructs h
  rw [childScope, valueScope, childIsHashmapField, hdict, hlist]

theorem normalizeItems_eq_map (isHashmap : Bool) (items : List (Value σ)) :
    normalizeItems cfg.lower isHashmap items = items.map (normalizeKeys cfg.lower isHashmap) := by
  induction items with
  | nil => rfl
  | cons item rest ih => rw [normalizeItems, ih, List.map_cons]

theorem normalizeAs_list (items : List (Value σ)) :
    normalizeAs cfg.lower scope (.list items) = .list (items.map (normalizeAs cfg.lower scope)) := by
  cases scope with
  | structural => rw [normalizeAs, normalizeKeys, normalizeItems_eq_map]; rfl
  | literal => rw [normalizeAs, normalizeKeys, normalizeItems_eq_map]; rfl
  | data =>
    have hid : normalizeAs cfg.lower .data = (id : Value σ → Value σ) := rfl
    rw [hid, List.map_id]
    rfl

def normalizedEntry (cfg : AnalyzerConfig) (scope : MappingScope) (e : String × Value σ) :
    String × Value σ :=
  let canonical := canonicalKey cfg.lower scope e.1
  (canonical, normalizeAs cfg.lower (valueScope scope canonical e.2) e.2)

theorem normalizeFields_eq_foldl (isHashmap : Bool) (fields result : List (String × Value σ)) :
    normalizeFields cfg.lower isHashmap fields result =
      (fields.map (normalizedEntry cfg (if isHashmap then .literal else .structural))).foldl
        (fun result e => setEntry e.1 e.2 result) result := by
  induction fields generalizing result with
  | nil => rfl
  | cons e rest ih =>
    obtain ⟨k, v⟩ := e
    rw [normalizeFields, ih, List.map_cons, List.foldl_cons]
    congr 1
    cases isHashmap with
    | true => simp [normalizedEntry, canonicalKey, valueScope, normalizeAs]
    | false =>
      by_cases hprofile : normalizeFieldKey cfg.lower k ∈ profileJsonFields
      · simp [normalizedEntry, canonicalKey, valueScope, normalizeAs, hprofile]
      · cases hfield : childIsHashmapField (normalizeFieldKey cfg.lower k) v <;>
          simp [normalizedEntry, canonicalKey, valueScope, normalizeAs, hprofile, hfield]

theorem normalizeAs_dict (fields : List (String × Value σ))
    (h : (fields.map fun e => canonicalKey cfg.lower scope e.1).Nodup) :
    normalizeAs cfg.lower scope (.dict fields) = .dict (fields.map (normalizedEntry cfg scope)) := by
  have hkeys : ((fields.map (normalizedEntry cfg scope)).map Prod.fst).Nodup := by
    rw [List.map_map]
    exact h
  cases scope with
  | structural =>
    rw [normalizeAs, normalizeKeys, normalizeFields_eq_foldl]
    simp only [Bool.false_eq_true, if_false]
    rw [foldl_setEntry_of_nodup (by simpa using hkeys), List.nil_append]
  | literal =>
    rw [normalizeAs, normalizeKeys, normalizeFields_eq_foldl]
    simp only [if_true]
    rw [foldl_setEntry_of_nodup (by simpa using hkeys), List.nil_append]
  | data =>
    have hid : normalizedEntry (σ := σ) cfg .data = id := by
      funext e
      simp [normalizedEntry, canonicalKey, valueScope, normalizeAs]
    rw [hid, List.map_id]
    rfl

/-! ## The document -/

/-- A constructed document without conflicts, normalized, is what its graph reads
as.  The induction is on the construction, for every scope in which the node is
sound. -/
theorem reads_of_sound {n : g.Id} {v : Value σ} (h : g.Constructs scalarOf n v)
    {scope : MappingScope} (hsound : Sound cfg n scope) :
    Reads cfg scalarOf n scope (normalizeAs cfg.lower scope v) := by
  induction h generalizing scope with
  | @scalar n tag value a hnode hscalar =>
    have hkept : normalizeAs cfg.lower scope (.scalar a) = .scalar a := by
      cases scope <;> rfl
    rw [hkept]
    exact .scalar hnode hscalar
  | @sequence n items valueOf hnode _ ih =>
    rw [normalizeAs_list, List.map_map]
    cases hsound with
    | scalar hscalar =>
      rw [hnode] at hscalar
      cases hscalar
    | sequence hsequence hitems =>
      rw [hnode] at hsequence
      obtain rfl := Node.sequence.inj hsequence
      exact .sequence _ hnode fun i hi => ih i hi (hitems i hi)
    | mapping sub hmapping _ _ _ _ _ =>
      rw [hnode] at hmapping
      cases hmapping
  | @mapping n pairs valueOf hflat hkeys hvalues ih =>
    obtain ⟨hsoundValues, -⟩ := hsound.flattened hflat
    have hdistinct := hsound.nodup_keys hflat
    -- Distinct canonical keys come of distinct authored keys, so nothing was replaced.
    have hauthored : ((pairs.map fun p => (g.authoredKey p.1, valueOf p.2)).map
        Prod.fst).Nodup := by
      rw [List.map_map]
      refine List.Nodup.of_map (canonicalKey cfg.lower scope) ?_
      rw [List.map_map]
      exact hdistinct
    have hdict : NodeGraph.dictOf (pairs.map fun p => (g.authoredKey p.1, valueOf p.2)) =
        pairs.map fun p => (g.authoredKey p.1, valueOf p.2) :=
      foldl_setEntry_of_nodup (by simpa using hauthored)
    rw [hdict, normalizeAs_dict scope _ (by rw [List.map_map]; exact hdistinct), List.map_map]
    have hentry : pairs.map (normalizedEntry cfg scope ∘
          fun p => (g.authoredKey p.1, valueOf p.2)) =
        pairs.map fun p => (entryKey cfg scope p,
          normalizeAs cfg.lower (entryScope cfg scope p) (valueOf p.2)) := by
      apply List.map_congr_left
      intro p hp
      rw [entryScope, childScope_eq_valueScope (hvalues p hp)]
      rfl
    rw [hentry]
    exact .mapping _ hflat hdistinct fun p hp => ih p hp (hsoundValues p hp).2

/-- Where the analyzer reports no error, constructing the document and normalizing
its keys loses no authored entry: the result is what the graph reads as. -/
theorem normalized_keeps_entries (cfg : AnalyzerConfig) (g : NodeGraph) {σ : Type}
    (scalarOf : String → String → Option σ) (root : g.Id) (scope : MappingScope)
    (baseTokens : List String) (sourceRanges sourceKeyRanges : Option (Dict String SourceRange))
    (hclean : mappingKeyErrors
      (analyze cfg root scope baseTokens (.start sourceRanges sourceKeyRanges)) = [])
    (data : Value σ) (hdata : g.Constructs scalarOf root data) :
    Reads cfg scalarOf root scope (normalizeAs cfg.lower scope data) :=
  reads_of_sound hdata
    (sound_of_analyze root scope baseTokens sourceRanges sourceKeyRanges hclean)

/-- A document whose node `web` merges the node `base`:
`nodes: [base: &b [os: linux], web: [<<: *b, cpu: two]]`. -/
def mergedGraph : NodeGraph where
  size := 12
  node := fun n => (
    [.mapping [(1, 2)], .scalar stringTag "nodes", .mapping [(3, 4), (7, 8)],
      .scalar stringTag "base", .mapping [(5, 6)], .scalar stringTag "os",
      .scalar stringTag "linux", .scalar stringTag "web", .mapping [(9, 4), (10, 11)],
      .scalar mergeTag "<<", .scalar stringTag "cpu", .scalar stringTag "two"
      ] : List (Node (Fin 12)))[n]
  startMark := fun n => ⟨n, 0⟩
  endMark := fun n => ⟨n, 1⟩

def acceptingConfig : AnalyzerConfig where
  migrationPolicy := .accept
  source := none
  materialized := false
  families := []
  lower := id
  isdigit := fun _ => false

def mergedRoot : mergedGraph.Id := (0 : Fin 12)

def textOf (_ value : String) : Option String := some value

/-- The merging document is analyzed without an error, is constructed, and reads as
its graph does. -/
theorem normalized_keeps_entries_merged :
    ∃ data : Value String, mergedGraph.Constructs textOf mergedRoot data ∧
      Reads acceptingConfig textOf mergedRoot .structural
        (normalizeAs acceptingConfig.lower .structural data) := by
  have hclean : mappingKeyErrors
      (analyze acceptingConfig mergedRoot .structural [] (.start none none)) = [] := by
    decide +kernel
  have hg : isConstructible mergedGraph textOf = true := by decide +kernel
  have hsound := sound_of_analyze mergedRoot .structural [] none none hclean
  obtain ⟨⟨data, hdata⟩, -⟩ := hsound.exists_constructs hg
  exact ⟨data, hdata, normalized_keeps_entries acceptingConfig mergedGraph textOf mergedRoot
    .structural [] none none hclean data hdata⟩

end Raes.Source
