import Mathlib.Data.Fintype.Card
import Raes.Source.MappingKeyAnalyzer

/-!
# Effective mappings

What `_effective_mapping` computes.  `HasEffective` is the effective mapping of a
node by recursion over its merge sources, without the cache and without the path:
a node has one where no chain of merge sources leads back to the chain.  The
computed mapping is that one wherever it exists, and the cache never holds
another.
-/

namespace Raes.Source

open Relation

variable (cfg : AnalyzerConfig) {g : NodeGraph} (scope : MappingScope)

def localEntries (pairs : List (g.Id × g.Id)) : List (Entry g) :=
  (pairs.filter fun p => g.isStringKey p.1 && !g.isMergeKey p.1).map fun p =>
    ⟨canonicalKey cfg.lower scope (g.authoredKey p.1), g.authoredKey p.1, p.1⟩

theorem addLocalEntries_eq (pairs : List (g.Id × g.Id)) (acc : EffectiveMapping g) :
    addLocalEntries cfg scope pairs acc =
      (localEntries cfg scope pairs).foldl EffectiveMapping.add acc := by
  unfold addLocalEntries localEntries
  induction pairs generalizing acc with
  | nil => rfl
  | cons p rest ih =>
    rw [List.foldl_cons, ih]
    by_cases hs : g.isStringKey p.1 = true
    · by_cases hm : g.isMergeKey p.1 = true <;> simp [hs, hm]
    · simp [hs]

variable {acc : EffectiveMapping g}

theorem add_without_conflict {entry : Entry g} (h : (acc.add entry).conflicts = []) :
    acc.conflicts = [] ∧ (acc.add entry).entries = acc.entries ++ [entry] ∧
      entry.canonical ∉ acc.entries.map (·.canonical) := by
  unfold EffectiveMapping.add at h ⊢
  cases hfind : acc.entries.find? (fun e => e.canonical = entry.canonical) with
  | some previous =>
    rw [hfind] at h
    simp at h
  | none =>
    rw [hfind] at h
    refine ⟨h, rfl, ?_⟩
    intro hmem
    obtain ⟨e, he, hkey⟩ := List.mem_map.mp hmem
    have hnot := List.find?_eq_none.mp hfind e he
    simp [hkey] at hnot

theorem addAll_without_conflict (entries : List (Entry g)) (h :
    (entries.foldl EffectiveMapping.add acc).conflicts = []) : acc.conflicts = [] ∧
      (entries.foldl EffectiveMapping.add acc).entries = acc.entries ++ entries ∧
      ((acc.entries.map (·.canonical)).Nodup →
        ((acc.entries ++ entries).map (·.canonical)).Nodup) := by
  induction entries generalizing acc with
  | nil => exact ⟨h, (List.append_nil _).symm, by simp⟩
  | cons entry rest ih =>
    rw [List.foldl_cons] at h ⊢
    obtain ⟨hfirst, hentries, hnodup⟩ := ih h
    obtain ⟨hacc, happend, hnew⟩ := add_without_conflict hfirst
    rw [happend, List.append_assoc, List.singleton_append] at hentries hnodup
    refine ⟨hacc, hentries, ?_⟩
    intro hdistinct
    apply hnodup
    rw [List.map_append]
    exact hdistinct.append (List.nodup_singleton _) (List.disjoint_singleton.mpr hnew)

theorem recordDuplicate_without_conflict {mergeKeys : List g.Id} (h :
    (recordDuplicateMergeKeys mergeKeys acc).conflicts = []) :
    recordDuplicateMergeKeys mergeKeys acc = acc := by
  unfold recordDuplicateMergeKeys at h ⊢
  cases mergeKeys with
  | nil => rfl
  | cons first others =>
    obtain ⟨-, hothers⟩ := List.append_eq_nil_iff.mp h
    rw [List.map_eq_nil_iff.mp hothers]
    simp

/-- The effective mapping of the entries of a node, `sub` giving those of its
merge sources. -/
def buildEffective (pairs : List (g.Id × g.Id))
    (sub : g.Id → EffectiveMapping g) : EffectiveMapping g :=
  addLocalEntries cfg scope pairs (recordDuplicateMergeKeys (mergeKeysOf pairs)
    ((g.allMergeSources pairs).foldl
      (fun acc src => (sub src).entries.foldl EffectiveMapping.add acc) ⟨[], []⟩))

inductive HasEffective (scope : MappingScope) : g.Id → EffectiveMapping g → Prop where
  | mapping {n : g.Id} {pairs : List (g.Id × g.Id)} (sub : g.Id → EffectiveMapping g)
      (hnode : g.node n = .mapping pairs)
      (hsub : ∀ src ∈ g.allMergeSources pairs, HasEffective scope src (sub src)) :
      HasEffective scope n (buildEffective cfg scope pairs sub)

variable {cfg} {scope : MappingScope}

theorem HasEffective.unique {n : g.Id} {m m' : EffectiveMapping g}
    (h : HasEffective cfg scope n m) (h' : HasEffective cfg scope n m') : m = m' := by
  induction h generalizing m' with
  | @mapping n pairs sub hnode hsub ih =>
    cases h' with
    | @mapping _ pairs' sub' hnode' hsub' =>
      rw [hnode] at hnode'
      obtain rfl := Node.mapping.inj hnode'
      unfold buildEffective
      congr 2
      apply List.foldl_ext
      intro acc src hsrc
      rw [ih src hsrc (hsub' src hsrc)]

theorem HasEffective.acyclic {n : g.Id} {m : EffectiveMapping g}
    (h : HasEffective cfg scope n m) : ¬ TransGen g.MergeEdge n n := by
  induction h with
  | @mapping n pairs sub hnode hsub ih =>
    intro hcycle
    obtain ⟨src, hedge, hback⟩ := TransGen.head'_iff.mp hcycle
    have hsrc : src ∈ g.allMergeSources pairs := by
      obtain ⟨pairs', hnode', hmem⟩ := hedge
      rw [hnode] at hnode'
      obtain rfl := Node.mapping.inj hnode'
      exact hmem
    exact ih src hsrc (TransGen.tail' hback hedge)

/-- The entries of a mapping without a conflict: those of its sources and then its
own, with distinct keys. -/
theorem buildEffective_without_conflict {pairs : List (g.Id × g.Id)}
    {sub : g.Id → EffectiveMapping g} (h : (buildEffective cfg scope pairs sub).conflicts = []) :
    (buildEffective cfg scope pairs sub).entries =
        (g.allMergeSources pairs).flatMap (fun src => (sub src).entries) ++
          localEntries cfg scope pairs ∧
      ((buildEffective cfg scope pairs sub).entries.map (·.canonical)).Nodup := by
  unfold buildEffective at h ⊢
  rw [addLocalEntries_eq] at h ⊢
  obtain ⟨hrecorded, hentries, hnodup⟩ := addAll_without_conflict _ h
  have hrecord := recordDuplicate_without_conflict hrecorded
  rw [hrecord] at hrecorded hentries hnodup ⊢
  rw [← List.foldl_flatMap] at hrecorded hentries hnodup ⊢
  obtain ⟨-, hinherited, hdistinct⟩ := addAll_without_conflict _ hrecorded
  rw [hinherited, List.nil_append] at hentries hnodup
  rw [hentries]
  exact ⟨rfl, hnodup (by simpa using hdistinct)⟩

def CacheOk (cfg : AnalyzerConfig)
    (cache : Dict (g.Id × MappingScope) (EffectiveMapping g)) : Prop :=
  ∀ n scope cached, cache.get? (n, scope) = some cached →
    ∀ m, HasEffective cfg scope n m → cached = m

theorem cacheOk_empty : CacheOk (g := g) cfg Dict.empty := by
  intro n scope cached h
  simp at h

variable {cache : Dict (g.Id × MappingScope) (EffectiveMapping g)}

theorem cacheOk_set {n : g.Id}
    {scope : MappingScope} {result : EffectiveMapping g} (hcache : CacheOk cfg cache)
    (hresult : ∀ m, HasEffective cfg scope n m → result = m) :
    CacheOk cfg (cache.set (n, scope) result) := by
  intro n' scope' cached h m hm
  rw [Dict.get?_set] at h
  by_cases hkey : (n', scope') = (n, scope)
  · rw [if_pos hkey] at h
    obtain ⟨rfl, rfl⟩ := Prod.mk.inj hkey
    obtain rfl := Option.some.inj h
    exact hresult m hm
  · rw [if_neg hkey] at h
    exact hcache n' scope' cached h m hm

/-- The sources of a mapping one after another: where each source has its effective
mapping and none is on the path, exactly their entries are added. -/
theorem inheritSources_spec {active : List g.Id}
    {effective : g.Id → Dict (g.Id × MappingScope) (EffectiveMapping g) →
      EffectiveMapping g × Dict (g.Id × MappingScope) (EffectiveMapping g)} (sources : List g.Id)
    (heffective : ∀ src ∈ sources, src ∉ active → ∀ cache, CacheOk cfg cache →
      CacheOk cfg (effective src cache).2 ∧
        ∀ m, HasEffective cfg scope src m → (effective src cache).1 = m)
    (acc : EffectiveMapping g) (hcache : CacheOk cfg cache) :
    CacheOk cfg (sources.foldl (inheritSource effective active) (acc, cache)).2 ∧
      ∀ sub : g.Id → EffectiveMapping g,
        (∀ src ∈ sources, src ∉ active ∧ HasEffective cfg scope src (sub src)) →
        (sources.foldl (inheritSource effective active) (acc, cache)).1 =
          sources.foldl (fun acc src => (sub src).entries.foldl EffectiveMapping.add acc) acc := by
  induction sources generalizing acc cache with
  | nil => exact ⟨hcache, fun _ _ => rfl⟩
  | cons src rest ih =>
    have hrest := fun s hs => heffective s (List.mem_cons_of_mem src hs)
    rw [List.foldl_cons]
    by_cases hactive : src ∈ active
    · rw [inheritSource, if_pos hactive]
      obtain ⟨hok, -⟩ := ih hrest acc hcache
      refine ⟨hok, ?_⟩
      intro sub hsub
      exact absurd hactive (hsub src List.mem_cons_self).1
    · rw [inheritSource, if_neg hactive]
      obtain ⟨hok, hresult⟩ := heffective src List.mem_cons_self hactive cache hcache
      obtain ⟨hall, hspec⟩ := ih hrest ((effective src cache).1.entries.foldl
        EffectiveMapping.add acc) hok
      refine ⟨hall, ?_⟩
      intro sub hsub
      rw [List.foldl_cons, ← hresult (sub src) (hsub src List.mem_cons_self).2]
      exact hspec sub fun s hs => hsub s (List.mem_cons_of_mem src hs)

theorem inheritMergeEntries_eq
    (effective : g.Id → Dict (g.Id × MappingScope) (EffectiveMapping g) →
      EffectiveMapping g × Dict (g.Id × MappingScope) (EffectiveMapping g))
    (active : List g.Id) (pairs : List (g.Id × g.Id))
    (st : EffectiveMapping g × Dict (g.Id × MappingScope) (EffectiveMapping g)) :
    inheritMergeEntries effective active pairs st =
      (g.allMergeSources pairs).foldl (inheritSource effective active) st := by
  unfold inheritMergeEntries NodeGraph.allMergeSources
  rw [List.foldl_flatMap]
  congr
  funext st p
  split <;> rfl

theorem length_le_size {active : List g.Id} (h : active.Nodup) : active.length ≤ g.size := by
  simpa using List.Nodup.length_le_card h

/-- The computation keeps the cache right, and yields the effective mapping of the
node where it has one.  The nodes on the path reach the node by merge sources, so
a source on the path would close a cycle. -/
theorem effectiveMapping_spec (scope : MappingScope) (fuel : ℕ) (n : g.Id) (active : List g.Id)
    (hcache : CacheOk cfg cache) (hnodup : active.Nodup) (hfuel : active.length + fuel = g.size + 1)
    (hpath : ∀ a ∈ active, TransGen g.MergeEdge a n) :
    CacheOk cfg (effectiveMapping cfg fuel n scope active cache).2 ∧
      ∀ m, HasEffective cfg scope n m →
        (effectiveMapping cfg fuel n scope active cache).1 = m := by
  induction fuel generalizing n active cache with
  | zero =>
    have hle := length_le_size hnodup
    omega
  | succ fuel ih =>
    unfold effectiveMapping
    cases hget : cache.get? (n, scope) with
    | some cached => exact ⟨hcache, hcache n scope cached hget⟩
    | none =>
      dsimp only
      by_cases hactive : n ∈ active
      · rw [if_pos hactive]
        exact ⟨hcache, fun m hm => absurd (hpath n hactive) hm.acyclic⟩
      · rw [if_neg hactive]
        cases hnode : g.node n with
        | scalar tag value =>
          refine ⟨hcache, fun m hm => ?_⟩
          cases hm with
          | mapping sub hmapping hsub =>
            rw [hnode] at hmapping
            cases hmapping
        | sequence items =>
          refine ⟨hcache, fun m hm => ?_⟩
          cases hm with
          | mapping sub hmapping hsub =>
            rw [hnode] at hmapping
            cases hmapping
        | mapping pairs =>
          have hedge : ∀ src ∈ g.allMergeSources pairs, g.MergeEdge n src := fun src hsrc =>
            ⟨pairs, hnode, hsrc⟩
          have hpath' : ∀ src ∈ g.allMergeSources pairs, ∀ a ∈ n :: active,
              TransGen g.MergeEdge a src := by
            intro src hsrc a ha
            rcases List.mem_cons.mp ha with rfl | ha
            · exact TransGen.single (hedge src hsrc)
            · exact TransGen.tail (hpath a ha) (hedge src hsrc)
          dsimp only
          rw [inheritMergeEntries_eq]
          have hsources : ∀ src ∈ g.allMergeSources pairs, src ∉ n :: active →
              ∀ cache, CacheOk cfg cache →
                CacheOk cfg (effectiveMapping cfg fuel src scope (n :: active) cache).2 ∧
                  ∀ m, HasEffective cfg scope src m →
                    (effectiveMapping cfg fuel src scope (n :: active) cache).1 = m :=
            fun src hsrc _ cache hcache => ih src (n :: active) hcache
              (List.nodup_cons.mpr ⟨hactive, hnodup⟩) (by rw [List.length_cons]; omega)
              (hpath' src hsrc)
          obtain ⟨hok, hinherit⟩ := inheritSources_spec _ hsources ⟨[], []⟩ hcache
          have hresult : ∀ m, HasEffective cfg scope n m →
              addLocalEntries cfg scope pairs (recordDuplicateMergeKeys (mergeKeysOf pairs)
                ((g.allMergeSources pairs).foldl (inheritSource (fun src cache =>
                  effectiveMapping cfg fuel src scope (n :: active) cache) (n :: active))
                  (⟨[], []⟩, cache)).1) = m := by
            intro m hm
            cases hm with
            | mapping sub hmapping hsub =>
              rw [hnode] at hmapping
              obtain rfl := Node.mapping.inj hmapping
              rw [hinherit sub fun src hsrc => ⟨fun ha =>
                (hsub src hsrc).acyclic (hpath' src hsrc src ha), hsub src hsrc⟩]
              rfl
          exact ⟨cacheOk_set hok hresult, hresult⟩

end Raes.Source
