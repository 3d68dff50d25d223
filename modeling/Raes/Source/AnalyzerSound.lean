import Raes.Source.EffectiveMappings

/-!
# What a walk without errors proves

A node is `Sound` in a scope when it and everything below it, each child in the
scope that the analyzer gives it, has no conflicting key, no key that is not a
string, and no cyclic alias.  A walk that ends without an error has visited only
sound nodes.

The statement about one function of the analyzer is `Steps`.  It says what the
function does in every state (diagnostics are only added, and a node on the path
is not recorded as walked) and what it proves of a state it leaves without
errors.  Results about compositions and loops of such functions then need no look
at the state.
-/

namespace Raes.Source

variable {cfg : AnalyzerConfig} {g : NodeGraph}

inductive Sound (cfg : AnalyzerConfig) : g.Id → MappingScope → Prop where
  | scalar {n : g.Id} {scope : MappingScope} {tag value : String}
      (hnode : g.node n = .scalar tag value) : Sound cfg n scope
  | sequence {n : g.Id} {scope : MappingScope} {items : List g.Id}
      (hnode : g.node n = .sequence items) (hitems : ∀ i ∈ items, Sound cfg i scope) :
      Sound cfg n scope
  | mapping {n : g.Id} {scope : MappingScope} {pairs : List (g.Id × g.Id)}
      (sub : g.Id → EffectiveMapping g) (hnode : g.node n = .mapping pairs)
      (heffective : ∀ src ∈ g.allMergeSources pairs, HasEffective cfg scope src (sub src))
      (hconflicts : (buildEffective cfg scope pairs sub).conflicts = [])
      (hsources : ∀ src ∈ g.allMergeSources pairs, Sound cfg src scope)
      (hkeys : ∀ p ∈ pairs, g.isMergeKey p.1 = false → g.isStringKey p.1 = true)
      (hvalues : ∀ p ∈ pairs, g.isMergeKey p.1 = false →
        Sound cfg p.2
          (childScope scope (canonicalKey cfg.lower scope (g.authoredKey p.1)) p.2)) :
      Sound cfg n scope

theorem Sound.hasEffective {n : g.Id} {scope : MappingScope} {pairs : List (g.Id × g.Id)}
    (h : Sound cfg n scope) (hnode : g.node n = .mapping pairs) :
    ∃ m, HasEffective cfg scope n m := by
  cases h with
  | scalar hscalar =>
    rw [hnode] at hscalar
    cases hscalar
  | sequence hsequence _ =>
    rw [hnode] at hsequence
    cases hsequence
  | mapping sub hmapping heffective _ _ _ _ => exact ⟨_, .mapping sub hmapping heffective⟩

/-! ## Steps of the analyzer -/

def severityOf (cfg : AnalyzerConfig) (code : String) : ParseSeverity :=
  if code = "sdl.noncanonical_merge" ∨ code = "sdl.noncanonical_field" then
    if cfg.migrationPolicy = .accept then .warning else .error
  else .error

def Graded (cfg : AnalyzerConfig) (st : AnalyzerState g) : Prop :=
  ∀ d ∈ st.diagnostics, d.severity = severityOf cfg d.code

def Clean (st : AnalyzerState g) : Prop := ∀ d ∈ st.diagnostics, d.severity = .warning

/-- The cache is right, and the walked nodes off the path are sound. -/
structure Good (cfg : AnalyzerConfig) (active : List g.Id) (st : AnalyzerState g) : Prop where
  cache : CacheOk cfg st.effectiveCache
  walked : ∀ p ∈ st.walked, p.1 ∉ active → Sound cfg p.1 p.2

/-- A function of the analyzer that, with these nodes on the path, proves `P` where
it leaves no error. -/
structure Steps (cfg : AnalyzerConfig) (active : List g.Id) (P : Prop)
    (f : AnalyzerState g → AnalyzerState g) : Prop where
  graded : ∀ st, Graded cfg st → Graded cfg (f st)
  kept : ∀ st, ∀ d ∈ st.diagnostics, d ∈ (f st).diagnostics
  walked : ∀ st, ∀ p ∈ (f st).walked, p ∈ st.walked ∨ p.1 ∉ active
  proves : ∀ st, Graded cfg st → Good cfg active st → Clean (f st) → Good cfg active (f st) ∧ P

namespace Steps

variable {active : List g.Id} {P Q : Prop} {f h : AnalyzerState g → AnalyzerState g}

theorem clean (hf : Steps cfg active P f) {st : AnalyzerState g} (hclean : Clean (f st)) :
    Clean st := fun d hd => hclean d (hf.kept st d hd)

theorem idle : Steps cfg active True fun st : AnalyzerState g => st where
  graded := fun _ h => h
  kept := fun _ _ h => h
  walked := fun _ _ h => Or.inl h
  proves := fun _ _ h _ => ⟨h, trivial⟩

theorem weaken (hf : Steps cfg active P f) (himp : P → Q) : Steps cfg active Q f where
  graded := hf.graded
  kept := hf.kept
  walked := hf.walked
  proves := fun st hgraded hgood hclean =>
    ⟨(hf.proves st hgraded hgood hclean).1, himp (hf.proves st hgraded hgood hclean).2⟩

theorem andThen (hf : Steps cfg active P f) (hh : Steps cfg active Q h) :
    Steps cfg active (P ∧ Q) fun st => h (f st) where
  graded := fun st hst => hh.graded _ (hf.graded st hst)
  kept := fun st d hd => hh.kept _ d (hf.kept st d hd)
  walked := by
    intro st p hp
    rcases hh.walked _ p hp with hp | hp
    · exact hf.walked st p hp
    · exact Or.inr hp
  proves := by
    intro st hgraded hgood hclean
    obtain ⟨hmiddle, hP⟩ := hf.proves st hgraded hgood (hh.clean hclean)
    obtain ⟨hend, hQ⟩ := hh.proves _ (hf.graded st hgraded) hmiddle hclean
    exact ⟨hend, hP, hQ⟩

theorem forEach {ι : Type} {R : ι → Prop} {body : ι → AnalyzerState g → AnalyzerState g}
    (items : List ι) (hbody : ∀ i ∈ items, Steps cfg active (R i) (body i)) :
    Steps cfg active (∀ i ∈ items, R i) fun st => items.foldl (fun st i => body i st) st := by
  induction items with
  | nil => exact idle.weaken fun _ => by simp
  | cons i rest ih =>
    have hrest := ih fun j hj => hbody j (List.mem_cons_of_mem i hj)
    refine ((hbody i List.mem_cons_self).andThen hrest).weaken ?_
    rintro ⟨hi, hall⟩ j hj
    rcases List.mem_cons.mp hj with rfl | hj
    · exact hi
    · exact hall j hj

/-- A diagnostic with the severity of its code is added: no error is left where it
is a warning.  Where it is dropped, an earlier one has its code. -/
theorem add (d : ParseDiagnostic) (hd : d.severity = severityOf cfg d.code) :
    Steps cfg active (d.severity = .warning) (AnalyzerState.add (g := g) d) where
  graded := by
    intro st hst
    unfold AnalyzerState.add
    split
    · exact hst
    · intro e he
      rcases List.mem_append.mp he with he | he
      · exact hst e he
      · rw [List.mem_singleton.mp he]
        exact hd
  kept := by
    intro st e he
    unfold AnalyzerState.add
    split
    · exact he
    · exact List.mem_append_left _ he
  walked := by
    intro st p hp
    unfold AnalyzerState.add at hp
    split at hp <;> exact Or.inl hp
  proves := by
    intro st hgraded hgood hclean
    unfold AnalyzerState.add at hclean ⊢
    split at hclean
    · rename_i hany
      rw [if_pos hany]
      obtain ⟨other, hmem, hkey⟩ := List.any_eq_true.mp hany
      have hcode : other.code = d.code := congrArg Prod.fst (of_decide_eq_true hkey)
      refine ⟨hgood, ?_⟩
      rw [hd, ← hcode, ← hgraded other hmem]
      exact hclean other hmem
    · rename_i hany
      rw [if_neg hany]
      exact ⟨⟨hgood.cache, hgood.walked⟩,
        hclean d (List.mem_append_right _ (List.mem_singleton.mpr rfl))⟩

theorem addError (d : ParseDiagnostic) (hd : d.severity = severityOf cfg d.code)
    (herror : d.severity = .error) : Steps cfg active False (AnalyzerState.add (g := g) d) :=
  (add d hd).weaken fun h => by
    rw [herror] at h
    cases h

theorem recordRange (pointer : String) (range : SourceRange) :
    Steps cfg active True (AnalyzerState.recordRange (g := g) pointer range) where
  graded := fun _ h => h
  kept := fun _ _ h => h
  walked := fun _ _ h => Or.inl h
  proves := fun _ _ h _ => ⟨⟨h.cache, h.walked⟩, trivial⟩

theorem recordKeyRange (pointer : String) (range : SourceRange) :
    Steps cfg active True (AnalyzerState.recordKeyRange (g := g) pointer range) where
  graded := fun _ h => h
  kept := fun _ _ h => h
  walked := fun _ _ h => Or.inl h
  proves := fun _ _ h _ => ⟨⟨h.cache, h.walked⟩, trivial⟩

theorem skipWhere (skip : AnalyzerState g → Bool) (hf : Steps cfg active P f)
    (hskip : ∀ st, Good cfg active st → skip st = true → P) :
    Steps cfg active P fun st => if skip st then st else f st where
  graded := by
    intro st hst
    split
    · exact hst
    · exact hf.graded st hst
  kept := by
    intro st d hd
    split
    · exact hd
    · exact hf.kept st d hd
  walked := by
    intro st p hp
    split at hp
    · exact Or.inl hp
    · exact hf.walked st p hp
  proves := by
    intro st hgraded hgood hclean
    by_cases hs : skip st = true
    · simp only [hs, if_true] at hclean ⊢
      exact ⟨hgood, hskip st hgood hs⟩
    · simp only [hs] at hclean ⊢
      exact hf.proves st hgraded hgood hclean

theorem choice (c : Prop) [Decidable c] (hf : Steps cfg active P f) (hh : Steps cfg active P h) :
    Steps cfg active P fun st => if c then f st else h st := by
  by_cases hc : c
  · simpa only [if_pos hc] using hf
  · simpa only [if_neg hc] using hh

theorem enter {n : g.Id} {scope : MappingScope} (hn : n ∉ active)
    (hf : Steps cfg (n :: active) (Sound cfg n scope) f) :
    Steps cfg active (Sound cfg n scope)
      fun st => f { st with walked := (n, scope) :: st.walked } where
  graded := fun st h => hf.graded _ h
  kept := fun st d hd => hf.kept _ d hd
  walked := by
    intro st p hp
    rcases hf.walked _ p hp with hp | hp
    · rcases List.mem_cons.mp hp with rfl | hp
      · exact Or.inr hn
      · exact Or.inl hp
    · exact Or.inr fun h => hp (List.mem_cons_of_mem n h)
  proves := by
    intro st hgraded hgood hclean
    have hentered : Good cfg (n :: active) { st with walked := (n, scope) :: st.walked } := by
      refine ⟨hgood.cache, ?_⟩
      intro p hp hoff
      rcases List.mem_cons.mp hp with rfl | hp
      · exact absurd List.mem_cons_self hoff
      · exact hgood.walked p hp fun h => hoff (List.mem_cons_of_mem n h)
    obtain ⟨hend, hsound⟩ := hf.proves { st with walked := (n, scope) :: st.walked } hgraded
      hentered hclean
    refine ⟨⟨hend.cache, ?_⟩, hsound⟩
    intro p hp hoff
    by_cases hpn : p.1 = n
    · rcases hf.walked _ p hp with hbefore | hnew
      · rcases List.mem_cons.mp hbefore with rfl | hbefore
        · exact hsound
        · exact hgood.walked p hbefore hoff
      · exact absurd (hpn ▸ List.mem_cons_self) hnew
    · apply hend.walked p hp
      intro h
      rcases List.mem_cons.mp h with h | h
      · exact hpn h
      · exact hoff h

end Steps

/-! ## The functions of the analyzer -/

variable {active : List g.Id}

theorem severity_noncanonicalMerge (keyNode : g.Id) (tokens : List String) :
    (noncanonicalMerge cfg keyNode tokens).severity =
      severityOf cfg (noncanonicalMerge cfg keyNode tokens).code := by
  simp [noncanonicalMerge, migration, severityOf]

theorem severity_noncanonicalField (keyNode : g.Id) (authored canonical : String)
    (tokens : List String) :
    (noncanonicalField cfg keyNode authored canonical tokens).severity =
      severityOf cfg (noncanonicalField cfg keyNode authored canonical tokens).code := by
  simp [noncanonicalField, migration, severityOf]

theorem severity_invalidIdentifier (n : g.Id) (tokens : List String) (nodeLimit : Bool) :
    (invalidIdentifier cfg n tokens nodeLimit).severity =
      severityOf cfg (invalidIdentifier cfg n tokens nodeLimit).code := by
  show ParseSeverity.error = severityOf cfg "sdl.identifier.invalid"
  simp [severityOf]

theorem validateIdentifierNode_steps (n : g.Id) (tokens : List String) :
    Steps cfg active True (validateIdentifierNode cfg n tokens) := by
  unfold validateIdentifierNode
  split
  · exact Steps.idle
  · exact (Steps.add _ (severity_invalidIdentifier _ _ _)).weaken fun _ => trivial

theorem addInvalidIdentifier_steps (n : g.Id) (tokens : List String) (nodeLimit : Bool) :
    Steps cfg active True (AnalyzerState.add (invalidIdentifier cfg n tokens nodeLimit)) :=
  (Steps.add _ (severity_invalidIdentifier _ _ _)).weaken fun _ => trivial

theorem validateDeclarationIdentifier_steps (keyNode : g.Id) (authored : String)
    (tokens childTokens : List String) :
    Steps cfg active True
      (validateDeclarationIdentifier cfg keyNode authored tokens childTokens) := by
  have hname : ∀ {qualify : AnalyzerState g → AnalyzerState g}, Steps cfg active True qualify →
      Steps cfg active True fun st =>
        let st := if cfg.materialized && tokens.length = 1 then qualify st
          else validateIdentifierNode cfg keyNode childTokens st
        let localName := if cfg.materialized && tokens.length = 1 then
          (Contracts.splitDots authored).getLast?.getD authored else authored
        if tokens = ["nodes"] && 35 < localName.length then
          st.add (invalidIdentifier cfg keyNode childTokens true)
        else st := fun hqualify =>
    ((Steps.choice _ hqualify (validateIdentifierNode_steps keyNode childTokens)).andThen
      (Steps.choice _ (addInvalidIdentifier_steps keyNode childTokens true)
        Steps.idle)).weaken fun _ => trivial
  unfold validateDeclarationIdentifier
  cases Contracts.QualifiedName.parse authored with
  | ok _ => exact hname Steps.idle
  | error _ => exact hname (addInvalidIdentifier_steps keyNode childTokens false)

theorem validateEntryIdentifiers_steps (keyNode valueNode : g.Id) (authored : String)
    (tokens childTokens : List String) (suppress : Bool) :
    Steps cfg active True (validateEntryIdentifiers cfg keyNode valueNode authored tokens
      childTokens suppress) := by
  have hdeclaration : Steps cfg active True fun st : AnalyzerState g =>
      if isDeclarationKeyPath tokens && !suppress then
        validateDeclarationIdentifier cfg keyNode authored tokens childTokens st
      else st :=
    Steps.choice _ (validateDeclarationIdentifier_steps keyNode authored tokens childTokens)
      Steps.idle
  have hvalue : ∀ (c : Prop) [Decidable c], Steps cfg active True fun st : AnalyzerState g =>
      if c then validateIdentifierNode cfg valueNode childTokens st else st := fun c _ =>
    Steps.choice c (validateIdentifierNode_steps valueNode childTokens) Steps.idle
  exact ((hdeclaration.andThen (hvalue _)).andThen (hvalue _)).weaken fun _ => trivial

/-! ## The walk -/

/-- A walk of one node, as the functions below it use it. -/
abbrev WalkProves (cfg : AnalyzerConfig) (active : List g.Id)
    (visit : g.Id → MappingScope → List String → AnalyzerState g → AnalyzerState g) : Prop :=
  ∀ n scope tokens, Steps cfg active (Sound cfg n scope) (visit n scope tokens)

variable {visit : g.Id → MappingScope → List String → AnalyzerState g → AnalyzerState g}

theorem walkMergeValue_steps (hwalk : WalkProves cfg active visit) (n : g.Id)
    (scope : MappingScope) (tokens : List String) :
    Steps cfg active (∀ src ∈ g.mergeSources n, Sound cfg src scope)
      (walkMergeValue visit n scope tokens) := by
  unfold walkMergeValue NodeGraph.mergeSources
  cases g.node n with
  | scalar tag value => exact Steps.idle.weaken fun _ => by simp
  | mapping pairs => exact (hwalk n scope tokens).weaken fun h => by simpa using h
  | sequence items =>
    refine (Steps.forEach items fun i _ => hwalk i scope tokens).weaken ?_
    intro hall src hsrc
    exact hall src (List.mem_of_mem_filter hsrc)

def EntrySound (cfg : AnalyzerConfig) (scope : MappingScope) (p : g.Id × g.Id) : Prop :=
  if g.isMergeKey p.1 then ∀ src ∈ g.mergeSources p.2, Sound cfg src scope
  else g.isStringKey p.1 = true ∧
    Sound cfg p.2 (childScope scope (canonicalKey cfg.lower scope (g.authoredKey p.1)) p.2)

theorem walkMappingEntry_steps (hwalk : WalkProves cfg active visit) (p : g.Id × g.Id)
    (scope : MappingScope) (tokens : List String) (suppress : Bool) :
    Steps cfg active (EntrySound cfg scope p)
      (walkMappingEntry cfg visit p.1 p.2 scope tokens suppress) := by
  unfold walkMappingEntry EntrySound
  by_cases hmerge : g.isMergeKey p.1 = true
  · simp only [hmerge, if_true]
    exact ((Steps.add _ (severity_noncanonicalMerge p.1 tokens)).andThen
      (walkMergeValue_steps hwalk p.2 scope tokens)).weaken And.right
  · simp only [hmerge]
    by_cases hstring : g.isStringKey p.1 = true
    · have hfield : Steps cfg active True fun st : AnalyzerState g =>
          if scope = .structural &&
              canonicalKey cfg.lower scope (g.authoredKey p.1) ≠ g.authoredKey p.1 &&
              !suppress then
            st.add (noncanonicalField cfg p.1 (g.authoredKey p.1)
              (canonicalKey cfg.lower scope (g.authoredKey p.1)) tokens)
          else st :=
        Steps.choice _ ((Steps.add _ (severity_noncanonicalField _ _ _ _)).weaken
          fun _ => trivial) Steps.idle
      simp only [hstring, Bool.not_true, Bool.false_eq_true, if_false]
      exact ((((hfield.andThen (Steps.recordKeyRange _ _)).andThen
        (validateEntryIdentifiers_steps p.1 p.2 (g.authoredKey p.1) tokens _ suppress)).andThen
          (hwalk p.2 _ _)).weaken fun h => ⟨trivial, h.2⟩)
    · simp only [hstring]
      exact (Steps.addError _ (by simp [keyType, severityOf]) rfl).weaken False.elim

theorem walkSequence_steps (hwalk : WalkProves cfg active visit) (items : List g.Id)
    (scope : MappingScope) (tokens : List String) :
    Steps cfg active (∀ i ∈ items, Sound cfg i scope) (walkSequence visit items scope tokens) := by
  refine (Steps.forEach items.zipIdx fun item _ =>
    hwalk item.1 scope (tokens ++ [toString item.2])).weaken ?_
  intro hall i hi
  obtain ⟨k, hk, rfl⟩ := List.mem_iff_getElem.mp hi
  exact hall (items[k], k) (List.mem_zipIdx_iff_getElem?.mpr (List.getElem?_eq_getElem hk))

theorem addConflicts_steps (conflicts : List (Entry g × Entry g)) (tokens : List String) :
    Steps cfg active (conflicts = []) (addConflicts cfg conflicts tokens) := by
  have hconflict : ∀ c ∈ conflicts, Steps cfg active False
      (AnalyzerState.add (g := g) (keyConflict cfg c.1 c.2 tokens)) := fun c _ =>
    Steps.addError _ (by simp [keyConflict, severityOf]) rfl
  exact (Steps.forEach conflicts hconflict).weaken fun h => List.eq_nil_iff_forall_not_mem.mpr h

/-- The entries of a mapping are sound and the computed mapping has no conflict, so
the effective mapping of the node exists and is the computed one. -/
theorem sound_of_entries {n : g.Id} {pairs : List (g.Id × g.Id)} {scope : MappingScope}
    {computed : EffectiveMapping g} (hnode : g.node n = .mapping pairs)
    (hcomputed : ∀ m, HasEffective cfg scope n m → computed = m)
    (hconflicts : computed.conflicts = []) (hentries : ∀ p ∈ pairs, EntrySound cfg scope p) :
    Sound cfg n scope := by
  have hsources : ∀ src ∈ g.allMergeSources pairs, Sound cfg src scope := by
    intro src hsrc
    obtain ⟨p, hp, hmerge, hmem⟩ := g.mem_allMergeSources.mp hsrc
    have hentry := hentries p hp
    rw [EntrySound, if_pos hmerge] at hentry
    exact hentry src hmem
  have heffective : ∀ src, ∃ m, src ∈ g.allMergeSources pairs → HasEffective cfg scope src m := by
    intro src
    by_cases hsrc : src ∈ g.allMergeSources pairs
    · have hmapping := NodeGraph.isMapping_of_mem_allMergeSources hsrc
      unfold NodeGraph.isMapping at hmapping
      split at hmapping
      · rename_i sourcePairs hsource
        obtain ⟨m, hm⟩ := (hsources src hsrc).hasEffective hsource
        exact ⟨m, fun _ => hm⟩
      · cases hmapping
    · exact ⟨⟨[], []⟩, fun h => absurd h hsrc⟩
  choose sub hsub using heffective
  refine .mapping sub hnode hsub ?_ hsources ?_ ?_
  · rw [← hcomputed _ (.mapping sub hnode hsub)]
    exact hconflicts
  · intro p hp hmerge
    have hentry := hentries p hp
    rw [EntrySound, hmerge] at hentry
    exact hentry.1
  · intro p hp hmerge
    have hentry := hentries p hp
    rw [EntrySound, hmerge] at hentry
    exact hentry.2

theorem walkMapping_steps (hwalk : WalkProves cfg active visit) {n : g.Id}
    {pairs : List (g.Id × g.Id)} (hnode : g.node n = .mapping pairs) (scope : MappingScope)
    (tokens : List String) :
    Steps cfg active (Sound cfg n scope) (walkMapping cfg visit n pairs scope tokens) := by
  -- The loop over the entries, for the mapping that a state's cache yields.
  have hloop : ∀ computed : EffectiveMapping g,
      Steps cfg active (computed.conflicts = [] ∧ ∀ p ∈ pairs, EntrySound cfg scope p)
        fun st => pairs.foldl (fun st p => walkMappingEntry cfg visit p.1 p.2 scope tokens
          ((computed.conflicts.flatMap fun c => [c.1.keyNode, c.2.keyNode]).contains p.1) st)
          (addConflicts cfg computed.conflicts tokens st) := fun computed =>
    (addConflicts_steps computed.conflicts tokens).andThen
      (Steps.forEach pairs fun p _ => walkMappingEntry_steps hwalk p scope tokens _)
  constructor
  · intro st hst
    exact (hloop _).graded _ hst
  · intro st d hd
    exact (hloop _).kept { st with effectiveCache := _ } d hd
  · intro st p hp
    exact (hloop _).walked { st with effectiveCache := (effectiveMapping cfg (g.size + 1) n
      scope [] st.effectiveCache).2 } p hp
  · intro st hgraded hgood hclean
    obtain ⟨hcache, hcomputed⟩ := effectiveMapping_spec scope (g.size + 1) n []
      hgood.cache List.nodup_nil (by simp) (by simp)
    obtain ⟨hend, hconflicts, hentries⟩ := (hloop _).proves
      { st with effectiveCache := (effectiveMapping cfg (g.size + 1) n scope []
        st.effectiveCache).2 } hgraded ⟨hcache, hgood.walked⟩ hclean
    exact ⟨hend, sound_of_entries hnode hcomputed hconflicts hentries⟩

/-- What `walk` does with a node that it has not walked before. -/
def visitNode (cfg : AnalyzerConfig)
    (inner : g.Id → MappingScope → List String → AnalyzerState g → AnalyzerState g) (n : g.Id)
    (scope : MappingScope) (tokens : List String) (st : AnalyzerState g) : AnalyzerState g :=
  match g.node n with
  | .scalar _ _ => st
  | .mapping pairs =>
    walkMapping cfg inner n pairs scope tokens { st with walked := (n, scope) :: st.walked }
  | .sequence items =>
    walkSequence inner items scope tokens { st with walked := (n, scope) :: st.walked }

/-- The walk proves its node sound.  The path holds distinct nodes and is shorter
than the bound, so the bound is never the reason to stop. -/
theorem walk_steps (fuel : ℕ) (active : List g.Id) (hnodup : active.Nodup)
    (hfuel : active.length + fuel = g.size + 1) : WalkProves cfg active (walk cfg fuel active) := by
  induction fuel generalizing active with
  | zero =>
    have hle := length_le_size hnodup
    omega
  | succ fuel ih =>
    intro n scope tokens
    by_cases hactive : n ∈ active
    · have heq : walk cfg (fuel + 1) active n scope tokens = fun st =>
          (st.recordRange (pointerFromTokens tokens) (rangeFromNode n)).add
            (aliasCycle cfg n tokens) := by
        funext st
        simp only [walk, if_pos hactive]
      rw [heq]
      exact ((Steps.recordRange _ _).andThen
        (Steps.addError _ (by simp [aliasCycle, severityOf]) rfl)).weaken fun h => h.2.elim
    · have hinner : WalkProves cfg (n :: active) (walk cfg fuel (n :: active)) :=
        ih (n :: active) (List.nodup_cons.mpr ⟨hactive, hnodup⟩)
          (by rw [List.length_cons]; omega)
      have hvisit : Steps cfg active (Sound cfg n scope)
          (visitNode cfg (walk cfg fuel (n :: active)) n scope tokens) := by
        unfold visitNode
        cases hnode : g.node n with
        | scalar tag value => exact Steps.idle.weaken fun _ => .scalar hnode
        | mapping pairs => exact Steps.enter hactive (walkMapping_steps hinner hnode scope tokens)
        | sequence items =>
          exact Steps.enter hactive
            ((walkSequence_steps hinner items scope tokens).weaken (.sequence hnode))
      have heq : walk cfg (fuel + 1) active n scope tokens = fun st =>
          (fun st => if (n, scope) ∈ st.walked && st.sourceKeyRanges.isNone then st
            else visitNode cfg (walk cfg fuel (n :: active)) n scope tokens st)
            (st.recordRange (pointerFromTokens tokens) (rangeFromNode n)) := by
        funext st
        simp only [walk, if_neg hactive] <;> rfl
      rw [heq]
      refine ((Steps.recordRange _ _).andThen (hvisit.skipWhere (fun st =>
        (n, scope) ∈ st.walked && st.sourceKeyRanges.isNone) ?_)).weaken And.right
      intro st hgood hskip
      rw [Bool.and_eq_true, decide_eq_true_iff] at hskip
      exact hgood.walked (n, scope) hskip.1 hactive

theorem sound_of_analyze (root : g.Id) (scope : MappingScope) (tokens : List String)
    (sourceRanges sourceKeyRanges : Option (Dict String SourceRange))
    (h : mappingKeyErrors
      (analyze cfg root scope tokens (.start sourceRanges sourceKeyRanges)) = []) :
    Sound cfg root scope := by
  have hclean : Clean (walk cfg (g.size + 1) [] root scope tokens
      (.start sourceRanges sourceKeyRanges)) := by
    intro d hd
    have hnot := List.filter_eq_nil_iff.mp h d ((sortBy_perm _ _).mem_iff.mpr hd)
    simpa using hnot
  refine ((walk_steps (g.size + 1) [] List.nodup_nil (by simp) root scope tokens).proves _
    ?_ ⟨cacheOk_empty, ?_⟩ hclean).2
  · intro d hd
    cases hd
  · intro p hp
    cases hp

end Raes.Source
