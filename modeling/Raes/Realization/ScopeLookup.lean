import Raes.Realization.ScopeIndex

/-!
# The text of a pointer

A text that the pointer pattern admits is the text of some tokens, so two different
pointers of a document have different tokens.
-/

namespace Raes.Realization

theorem toList_escapeToken (token : List Char) :
    (escapeToken (String.ofList token)).toList =
      token.flatMap fun c => if c = '~' then ['~', '0'] else if c = '/' then ['~', '1'] else [c] := by
  unfold escapeToken
  rw [String.toList_ofList, String.toList_ofList]

theorem exists_tokens_of_isPointerRest {chars : List Char} (h : isPointerRest chars = true) :
    ∃ (first : List Char) (tokens : List String), chars =
      (escapeToken (String.ofList first)).toList ++
        tokens.flatMap fun token => '/' :: (escapeToken token).toList := by
  induction chars using isPointerRest.induct with
  | case1 c rest ih =>
    rw [isPointerRest, Bool.and_eq_true, Bool.or_eq_true, decide_eq_true_eq, decide_eq_true_eq] at h
    obtain ⟨first, tokens, hrest⟩ := ih h.2
    rw [toList_escapeToken] at hrest
    rcases h.1 with rfl | rfl
    · refine ⟨'~' :: first, tokens, ?_⟩
      rw [toList_escapeToken, List.flatMap_cons, hrest]
      rfl
    · refine ⟨'/' :: first, tokens, ?_⟩
      rw [toList_escapeToken, List.flatMap_cons, hrest]
      rfl
  | case2 => cases h
  | case3 c rest hlast htilde ih =>
    rw [isPointerRest] at h
    · obtain ⟨first, tokens, hrest⟩ := ih h
      by_cases hslash : c = '/'
      · refine ⟨[], String.ofList first :: tokens, ?_⟩
        rw [hslash, hrest]
        rfl
      · refine ⟨c :: first, tokens, ?_⟩
        have hplain : c ≠ '~' := by
          rintro rfl
          cases rest with
          | nil => exact htilde rfl rfl
          | cons d rest => exact hlast d rest rfl rfl
        rw [toList_escapeToken] at hrest ⊢
        rw [List.flatMap_cons, if_neg hplain, if_neg hslash, hrest]
        rfl
    · exact hlast
    · exact htilde
  | case4 => exact ⟨[], [], rfl⟩

theorem exists_tokens_of_matchesPointer {pointer : String} (h : matchesPointer pointer = true) :
    ∃ tokens, pointer = pointerFromTokens tokens := by
  rw [matchesPointer, Bool.and_eq_true, Bool.or_eq_true, decide_eq_true_eq, decide_eq_true_eq] at h
  obtain ⟨hstart, hrest⟩ := h
  obtain ⟨first, tokens, hchars⟩ := exists_tokens_of_isPointerRest hrest
  refine ⟨tokens, ?_⟩
  rw [← String.toList_inj, toList_pointerFromTokens, hchars]
  -- A pointer that is not empty begins with a slash, so nothing stands before it.
  cases first with
  | nil => rfl
  | cons c first =>
    rw [hchars, toList_escapeToken, List.flatMap_cons] at hstart
    by_cases htilde : c = '~'
    · rw [if_pos htilde] at hstart
      rcases hstart with hempty | hslash
      · cases hempty
      · exact absurd (Option.some.inj hslash) (by decide)
    · by_cases hescaped : c = '/'
      · rw [if_neg htilde, if_pos hescaped] at hstart
        rcases hstart with hempty | hslash
        · cases hempty
        · exact absurd (Option.some.inj hslash) (by decide)
      · rw [if_neg htilde, if_neg hescaped] at hstart
        rcases hstart with hempty | hslash
        · cases hempty
        · exact absurd (Option.some.inj hslash) hescaped

theorem isPointerRest_plain {c : Char} (h : c ≠ '~') (rest : List Char) :
    isPointerRest (c :: rest) = isPointerRest rest := by
  rw [isPointerRest]
  · exact fun _ _ hc _ => h hc
  · exact fun hc _ => h hc

theorem isPointerRest_escapeToken (token rest : List Char) :
    isPointerRest ((escapeToken (String.ofList token)).toList ++ rest) = isPointerRest rest := by
  rw [toList_escapeToken]
  induction token with
  | nil => rfl
  | cons c token ih =>
    rw [List.flatMap_cons, List.append_assoc]
    by_cases htilde : c = '~'
    · rw [if_pos htilde]
      exact ih
    · by_cases hslash : c = '/'
      · rw [if_neg htilde, if_pos hslash]
        exact ih
      · rw [if_neg htilde, if_neg hslash]
        exact (isPointerRest_plain htilde _).trans ih

theorem matchesPointer_pointerFromTokens (tokens : List String) :
    matchesPointer (pointerFromTokens tokens) = true := by
  rw [matchesPointer, toList_pointerFromTokens, Bool.and_eq_true, Bool.or_eq_true,
    decide_eq_true_eq, decide_eq_true_eq]
  constructor
  · cases tokens with
    | nil => exact Or.inl rfl
    | cons token rest => exact Or.inr rfl
  · induction tokens with
    | nil => rfl
    | cons token rest ih =>
      have hescape := isPointerRest_escapeToken token.toList
        (rest.flatMap fun token => '/' :: (escapeToken token).toList)
      rw [String.ofList_toList] at hescape
      rw [List.flatMap_cons, List.cons_append, isPointerRest_plain (by decide), hescape]
      exact ih

theorem pointerTokens_injOn {a b : String} (ha : matchesPointer a = true)
    (hb : matchesPointer b = true) (h : pointerTokens a = pointerTokens b) : a = b := by
  obtain ⟨tokens, rfl⟩ := exists_tokens_of_matchesPointer ha
  obtain ⟨tokens', rfl⟩ := exists_tokens_of_matchesPointer hb
  rw [pointerTokens_pointerFromTokens, pointerTokens_pointerFromTokens] at h
  rw [h]

/-- Tokens and pointers determine each other, and a position has one numeral. -/
theorem pointer_codec :
    (∀ tokens, pointerTokens (pointerFromTokens tokens) = tokens) ∧
    (∀ pointer, matchesPointer pointer = true →
      pointerFromTokens (pointerTokens pointer) = pointer) ∧
    ∀ (token : String) (length index : ℕ),
      arrayIndex token length = some index ↔ token = toString index ∧ index < length := by
  refine ⟨pointerTokens_pointerFromTokens, fun pointer h => ?_,
    fun _ _ _ => arrayIndex_eq_some_iff⟩
  obtain ⟨tokens, rfl⟩ := exists_tokens_of_matchesPointer h
  rw [pointerTokens_pointerFromTokens]

example : pointerFromTokens (pointerTokens "/a~1b/~01") = "/a~1b/~01" := by decide +kernel

end Raes.Realization

/-!
# The index and the scan

Two ways to the closure that a place inherits: `closure_for` scans the scopes of the
document for the longest prefix of the path, and `ScopeIndex` follows the tokens of the
path.  They give one closure, because two scopes of a document never have the same tokens.
-/

namespace Raes.Realization

open Stateful Verdict

section Scan

variable {ε : Type}

def scopeTokens (scope : Scope) : List String := pointerTokens scope.fieldPointer

/-- The scopes that `closure_for` collects.  Without limits nothing is charged. -/
def collectCandidates (limits : Option Limits) (path : List String) :
    List Scope → List Scope → Stateful ε RelationBudget (Option (List Scope))
  | [], candidates => pure (some candidates)
  | scope :: rest, candidates => do
    let exhausted ← match limits with
      | some limits => spendOperation limits
      | none => pure none
    match exhausted with
    | some _ => return none
    | none =>
      let tokens := scopeTokens scope
      collectCandidates limits path rest
        (if tokens = path.take tokens.length then candidates ++ [scope] else candidates)

def closureFor (limits : Option Limits) (document : Document) (localClosure : Closure)
    (path : List String) : Stateful ε RelationBudget (Option Closure) := do
  if localClosure.posture ≠ .undefined then return some localClosure
  match ← collectCandidates limits path document.scopes [] with
  | none => return none
  | some candidates =>
    return some (((maxBy (fun scope => (scopeTokens scope).length) candidates).map
      Scope.closure).getD document.defaultClosure)

/-- The closure of the scan, without the budget -/
def longestClosure (document : Document) (path : List String) : Closure :=
  ((maxBy (fun scope => (scopeTokens scope).length) (document.scopes.filter fun scope =>
    scopeTokens scope = path.take (scopeTokens scope).length)).map
      Scope.closure).getD document.defaultClosure

theorem collectCandidates_eq (limits : Option Limits) (path : List String) (scopes : List Scope) :
    ∀ (candidates : List Scope) (budget : RelationBudget) (found : List Scope),
      (exec (collectCandidates limits path scopes candidates : Stateful ε RelationBudget _)
        budget).1 = .ok (some found) →
      found = candidates ++ scopes.filter fun scope =>
        scopeTokens scope = path.take (scopeTokens scope).length := by
  induction scopes with
  | nil =>
    intro candidates budget found h
    have hfound := Option.some.inj (Except.ok.inj h)
    rw [← hfound, List.filter_nil, List.append_nil]
  | cons scope rest ih =>
    intro candidates budget found h
    have hrest : ∀ spent : RelationBudget,
        (exec (collectCandidates limits path rest (if scopeTokens scope =
            path.take (scopeTokens scope).length then candidates ++ [scope] else candidates) :
          Stateful ε RelationBudget _) spent).1 = .ok (some found) →
        found = candidates ++ (scope :: rest).filter fun scope =>
          scopeTokens scope = path.take (scopeTokens scope).length := by
      intro spent hspent
      rw [ih _ spent found hspent]
      by_cases hmatch : scopeTokens scope = path.take (scopeTokens scope).length
      · rw [if_pos hmatch, List.filter_cons, if_pos (decide_eq_true hmatch), List.append_assoc]
        rfl
      · rw [if_neg hmatch, List.filter_cons, if_neg (by simpa using hmatch)]
    cases limits with
    | none => exact hrest budget h
    | some limits =>
      have hspend : exec (spendOperation limits : Stateful ε RelationBudget _) budget =
          (.ok (if budget.operations + 1 > limits.maxOperations then some "max_operations" else none),
            { budget with operations := budget.operations + 1 }) := rfl
      rw [collectCandidates, exec_bind, hspend] at h
      by_cases hover : budget.operations + 1 > limits.maxOperations
      · rw [if_pos hover] at h
        cases Except.ok.inj h
      · rw [if_neg hover] at h
        exact hrest _ h

theorem exec_collectCandidates_none (path : List String) (scopes : List Scope) :
    ∀ (candidates : List Scope) (budget : RelationBudget),
      ∃ found, exec (collectCandidates none path scopes candidates :
        Stateful ε RelationBudget _) budget = (.ok (some found), budget) := by
  induction scopes with
  | nil => exact fun candidates budget => ⟨candidates, rfl⟩
  | cons scope rest ih => exact fun candidates budget => ih _ budget

theorem closureFor_eq {limits : Option Limits} {document : Document} {localClosure : Closure}
    {path : List String} {budget : RelationBudget} {closure : Closure}
    (hlocal : localClosure.posture = .undefined)
    (h : (exec (closureFor limits document localClosure path : Stateful ε RelationBudget _)
      budget).1 = .ok (some closure)) : closure = longestClosure document path := by
  unfold closureFor at h
  rw [if_neg (not_not.mpr hlocal), exec_bind] at h
  cases hscan : exec (collectCandidates limits path document.scopes [] :
      Stateful ε RelationBudget _) budget with
  | mk outcome spent =>
    rw [hscan] at h
    cases outcome with
    | error e => cases h
    | ok found =>
      cases found with
      | none => cases Except.ok.inj h
      | some candidates =>
        have hcandidates := collectCandidates_eq limits path document.scopes [] budget candidates
          (congrArg Prod.fst hscan)
        rw [List.nil_append] at hcandidates
        rw [hcandidates] at h
        exact (Option.some.inj (Except.ok.inj h)).symm

theorem closureFor_none (document : Document) {localClosure : Closure} (path : List String)
    (budget : RelationBudget) (hlocal : localClosure.posture = .undefined) :
    (exec (closureFor none document localClosure path : Stateful ε RelationBudget _)
      budget).1 = .ok (some (longestClosure document path)) := by
  obtain ⟨found, hfound⟩ := exec_collectCandidates_none (ε := ε) path document.scopes [] budget
  have hcandidates := collectCandidates_eq none path document.scopes [] budget found
    (congrArg Prod.fst hfound)
  rw [List.nil_append] at hcandidates
  unfold closureFor
  rw [if_neg (not_not.mpr hlocal), exec_bind, hfound, hcandidates]
  rfl

end Scan

/-! ## The index -/

def declaredAt : ScopeIndex → List String → Option Closure
  | index, [] => index.closure
  | index, token :: rest =>
    match index.children.lookup token with
    | none => none
    | some child => declaredAt child rest

namespace ScopeIndex

theorem declaredAt_empty (path : List String) : declaredAt empty path = none := by
  cases path with
  | nil => rfl
  | cons token rest => rfl

theorem declaredAt_insert (closure : Closure) (tokens : List String) :
    ∀ (index : ScopeIndex) (path : List String), declaredAt (insert closure tokens index) path =
      if path = tokens then some closure else declaredAt index path := by
  induction tokens with
  | nil =>
    intro index path
    obtain ⟨own, children⟩ := index
    cases path with
    | nil => rfl
    | cons token rest => rfl
  | cons token rest ih =>
    intro index path
    obtain ⟨own, children⟩ := index
    cases path with
    | nil => rfl
    | cons first path =>
      show (match (Dict.setEntry token (insert closure rest
          ((children.lookup token).getD empty)) children).lookup first with
        | none => none
        | some child => declaredAt child path) = _
      rw [Dict.lookup_setEntry]
      by_cases hfirst : first = token
      · subst hfirst
        rw [if_pos rfl]
        show declaredAt (insert closure rest ((children.lookup first).getD empty)) path = _
        rw [ih]
        by_cases hrest : path = rest
        · rw [if_pos hrest, if_pos (by rw [hrest])]
        · rw [if_neg hrest, if_neg (fun h => hrest (List.cons.inj h).2)]
          show _ = match children.lookup first with
            | none => none
            | some child => declaredAt child path
          cases children.lookup first with
          | none => exact declaredAt_empty path
          | some child => rfl
      · rw [if_neg hfirst, if_neg (fun h => hfirst (List.cons.inj h).1)]
        rfl

theorem declaredAt_foldl {scopes : List Scope} (hnodup : (scopes.map scopeTokens).Nodup)
    (index : ScopeIndex) (path : List String) (closure : Closure) :
    declaredAt (scopes.foldl (fun index scope => insert scope.closure
        (pointerTokens scope.fieldPointer) index) index) path = some closure ↔
      (∃ scope ∈ scopes, scopeTokens scope = path ∧ scope.closure = closure) ∨
        (∀ scope ∈ scopes, scopeTokens scope ≠ path) ∧ declaredAt index path = some closure := by
  induction scopes generalizing index with
  | nil => simp
  | cons scope rest ih =>
    rw [List.map_cons, List.nodup_cons] at hnodup
    rw [List.foldl_cons, ih hnodup.2, declaredAt_insert]
    by_cases hhere : path = pointerTokens scope.fieldPointer
    · have hothers : ∀ other ∈ rest, scopeTokens other ≠ path := by
        intro other hmem hsame
        apply hnodup.1
        rw [List.mem_map]
        exact ⟨other, hmem, hsame.trans hhere⟩
      rw [if_pos hhere]
      constructor
      · rintro (⟨other, hmem, hsame, -⟩ | ⟨-, hclosure⟩)
        · exact absurd hsame (hothers other hmem)
        · exact Or.inl ⟨scope, List.mem_cons_self, hhere.symm, Option.some.inj hclosure⟩
      · rintro (⟨other, hmem, hsame, hclosure⟩ | ⟨hnone, -⟩)
        · rcases List.mem_cons.mp hmem with rfl | hmem
          · exact Or.inr ⟨hothers, congrArg some hclosure⟩
          · exact absurd hsame (hothers other hmem)
        · exact absurd hhere.symm (hnone scope List.mem_cons_self)
    · rw [if_neg hhere]
      constructor
      · rintro (⟨other, hmem, hsame, hclosure⟩ | ⟨hnone, hclosure⟩)
        · exact Or.inl ⟨other, List.mem_cons_of_mem _ hmem, hsame, hclosure⟩
        · refine Or.inr ⟨?_, hclosure⟩
          rw [List.forall_mem_cons]
          exact ⟨fun hsame => hhere hsame.symm, hnone⟩
      · rintro (⟨other, hmem, hsame, hclosure⟩ | ⟨hnone, hclosure⟩)
        · rcases List.mem_cons.mp hmem with rfl | hmem
          · exact absurd hsame.symm hhere
          · exact Or.inl ⟨other, hmem, hsame, hclosure⟩
        · exact Or.inr ⟨fun other hmem => hnone other (List.mem_cons_of_mem _ hmem), hclosure⟩

theorem closureAt_cons (index : ScopeIndex) (token : String) (rest : List String)
    (default : Closure) :
    closureAt index (token :: rest) default =
      match index.children.lookup token with
      | none => index.closure.getD default
      | some child => closureAt child rest (index.closure.getD default) := rfl

theorem closureAt_spec (path : List String) : ∀ (index : ScopeIndex) (default : Closure),
    (∃ tokens, tokens <+: path ∧
      declaredAt index tokens = some (closureAt index path default) ∧
      ∀ other, other <+: path → declaredAt index other ≠ none → other.length ≤ tokens.length) ∨
    ((∀ tokens, tokens <+: path → declaredAt index tokens = none) ∧
      closureAt index path default = default) := by
  induction path with
  | nil =>
    intro index default
    have hnil : ∀ tokens : List String, tokens <+: [] → tokens = [] := fun tokens =>
      List.prefix_nil.mp
    cases hown : index.closure with
    | none =>
      right
      refine ⟨?_, by simp [closureAt, closureAlong, hown]⟩
      intro tokens htokens
      rw [hnil tokens htokens]
      exact hown
    | some closure =>
      left
      refine ⟨[], List.prefix_refl _, by simp [closureAt, closureAlong, declaredAt, hown], ?_⟩
      intro other hother _
      rw [hnil other hother]
  | cons token rest ih =>
    intro index default
    rw [closureAt_cons]
    cases hchild : index.children.lookup token with
    | none =>
      have hbelow : ∀ tokens, declaredAt index (token :: tokens) = none := by
        intro tokens
        rw [declaredAt, hchild]
      cases hown : index.closure with
      | none =>
        refine Or.inr ⟨?_, rfl⟩
        intro tokens htokens
        rcases List.prefix_cons_iff.mp htokens with rfl | ⟨below, rfl, -⟩
        · exact hown
        · exact hbelow below
      | some closure =>
        refine Or.inl ⟨[], List.nil_prefix, hown, ?_⟩
        intro other hother hdeclared
        rcases List.prefix_cons_iff.mp hother with rfl | ⟨below, rfl, -⟩
        · exact Nat.le_refl _
        · exact absurd (hbelow below) hdeclared
    | some child =>
      have hbelow : ∀ tokens, declaredAt index (token :: tokens) = declaredAt child tokens := by
        intro tokens
        rw [declaredAt, hchild]
      rcases ih child (index.closure.getD default) with ⟨tokens, hprefix, hdeclared, hmax⟩ |
        ⟨hnone, hinherited⟩
      · refine Or.inl ⟨token :: tokens, ?_, ?_, ?_⟩
        · exact List.prefix_cons_iff.mpr (Or.inr ⟨tokens, rfl, hprefix⟩)
        · rw [hbelow]
          exact hdeclared
        · intro other hother hother'
          rcases List.prefix_cons_iff.mp hother with rfl | ⟨below, rfl, hbelow'⟩
          · exact Nat.zero_le _
          · rw [hbelow] at hother'
            rw [List.length_cons, List.length_cons]
            exact Nat.succ_le_succ (hmax below hbelow' hother')
      · have hinherited' : closureAt child rest (index.closure.getD default) =
            index.closure.getD default := hinherited
        have hnone' : ∀ tokens, declaredAt index (token :: tokens) ≠ none → ¬ tokens <+: rest := by
          intro tokens hdeclared hprefix
          rw [hbelow, hnone tokens hprefix] at hdeclared
          exact hdeclared rfl
        show (∃ tokens, tokens <+: token :: rest ∧ declaredAt index tokens =
            some (closureAt child rest (index.closure.getD default)) ∧ _) ∨ _ ∧
          closureAt child rest (index.closure.getD default) = default
        rw [hinherited']
        cases hown : index.closure with
        | none =>
          refine Or.inr ⟨?_, rfl⟩
          intro tokens htokens
          rcases List.prefix_cons_iff.mp htokens with rfl | ⟨below, rfl, hprefix⟩
          · exact hown
          · by_contra hdeclared
            exact hnone' below hdeclared hprefix
        | some closure =>
          refine Or.inl ⟨[], List.nil_prefix, hown, ?_⟩
          intro other hother hdeclared
          rcases List.prefix_cons_iff.mp hother with rfl | ⟨below, rfl, hprefix⟩
          · exact Nat.le_refl _
          · exact absurd hprefix (hnone' below hdeclared)

end ScopeIndex

section Agreement

variable {installed : Installed} {document : Document}

theorem scopeTokens_nodup (h : document.Valid installed) :
    (document.scopes.map scopeTokens).Nodup := by
  have hmap : document.scopes.map scopeTokens =
      (document.scopes.map Scope.fieldPointer).map pointerTokens := by
    rw [List.map_map]
    rfl
  rw [hmap]
  refine h.pointers.map_on ?_
  intro a ha b hb hab
  obtain ⟨scope, hscope, rfl⟩ := List.mem_map.mp ha
  obtain ⟨other, hother, rfl⟩ := List.mem_map.mp hb
  exact pointerTokens_injOn (h.scopes scope hscope).pointer.2 (h.scopes other hother).pointer.2 hab

theorem closureAt_ofScopes (h : document.Valid installed) (path : List String) :
    (ScopeIndex.ofScopes document.scopes).closureAt path document.defaultClosure =
      longestClosure document path := by
  have hnodup := scopeTokens_nodup h
  have hdeclared : ∀ tokens closure,
      declaredAt (ScopeIndex.ofScopes document.scopes) tokens = some closure ↔
        ∃ scope ∈ document.scopes, scopeTokens scope = tokens ∧ scope.closure = closure := by
    intro tokens closure
    unfold ScopeIndex.ofScopes
    rw [ScopeIndex.declaredAt_foldl hnodup, ScopeIndex.declaredAt_empty]
    simp
  have hmatch : ∀ scope, scope ∈ document.scopes.filter (fun scope =>
      scopeTokens scope = path.take (scopeTokens scope).length) ↔
      scope ∈ document.scopes ∧ scopeTokens scope <+: path := by
    intro scope
    rw [List.mem_filter, decide_eq_true_eq, List.prefix_iff_eq_take]
  unfold longestClosure
  cases hmax : maxBy (fun scope => (scopeTokens scope).length) (document.scopes.filter fun scope =>
      scopeTokens scope = path.take (scopeTokens scope).length) with
  | none =>
    rw [maxBy_eq_none_iff] at hmax
    rcases ScopeIndex.closureAt_spec path (ScopeIndex.ofScopes document.scopes)
      document.defaultClosure with ⟨tokens, hprefix, hfound, -⟩ | ⟨-, hdefault⟩
    · obtain ⟨scope, hscope, rfl, -⟩ := (hdeclared tokens _).mp hfound
      have hmem := (hmatch scope).mpr ⟨hscope, hprefix⟩
      rw [hmax] at hmem
      exact absurd hmem List.not_mem_nil
    · exact hdefault
  | some best =>
    obtain ⟨hbest, hlongest⟩ := maxBy_spec hmax
    obtain ⟨hscope, hprefix⟩ := (hmatch best).mp hbest
    have hfound := (hdeclared (scopeTokens best) best.closure).mpr ⟨best, hscope, rfl, rfl⟩
    rcases ScopeIndex.closureAt_spec path (ScopeIndex.ofScopes document.scopes)
      document.defaultClosure with ⟨tokens, htokens, hclosure, hmost⟩ | ⟨hnone, -⟩
    · obtain ⟨scope, hmem, rfl, hsame⟩ := (hdeclared tokens _).mp hclosure
      have hle := hlongest scope ((hmatch scope).mpr ⟨hmem, htokens⟩)
      have hge := hmost (scopeTokens best) hprefix (by rw [hfound]; exact nofun)
      -- Two prefixes of one length are the same tokens, hence the same scope.
      have htokens' : scopeTokens scope = scopeTokens best := by
        rw [List.prefix_iff_eq_take.mp htokens, List.prefix_iff_eq_take.mp hprefix,
          Nat.le_antisymm hle hge]
      have hscopes : scope = best := List.inj_on_of_nodup_map hnodup hmem hscope htokens'
      rw [← hsame, hscopes]
      rfl
    · rw [hnone _ hprefix] at hfound
      cases hfound

end Agreement

/-- Where the budget is not exhausted, the index and the scan inherit one closure. -/
theorem inheritedClosure_eq_closureFor {ε : Type} {installed : Installed} {document : Document}
    (hvalid : document.Valid installed) (limits : Limits) (budget budget' : RelationBudget)
    (path : List String) (localClosure : Closure) {index : ScopeIndex} {closure : Closure}
    (hbuilt : (exec (ScopeIndex.build limits document) budget).1 = .ok index)
    (hfound : (exec (index.inheritedClosure limits path document.defaultClosure) budget').1 =
      .ok closure)
    (hlocal : localClosure.posture = .undefined) :
    (∀ spent, (exec (closureFor none document localClosure path :
        Stateful ε RelationBudget _) spent).1 = .ok (some closure)) ∧
      ∀ scanLimits spent scanned, (exec (closureFor (some scanLimits) document localClosure path :
        Stateful ε RelationBudget _) spent).1 = .ok (some scanned) → scanned = closure := by
  have hindex : index = ScopeIndex.ofScopes document.scopes := by
    have h := ScopeIndex.finds_build limits document budget
    rw [hbuilt] at h
    obtain ⟨found, hfound, hsame⟩ := h
    exact hsame.trans (Except.ok.inj hfound).symm
  have hclosure : closure = longestClosure document path := by
    have h := ScopeIndex.finds_inheritedClosure limits index path document.defaultClosure budget'
    rw [hfound] at h
    obtain ⟨found, hfound, hsame⟩ := h
    rw [hsame, ← Except.ok.inj hfound, hindex]
    exact closureAt_ofScopes hvalid path
  constructor
  · intro spent
    rw [hclosure]
    exact closureFor_none document path spent hlocal
  · intro scanLimits spent scanned h
    rw [hclosure]
    exact closureFor_eq hlocal h

/-- Scopes at the root, at an escaped token and two tokens below it. -/
def scopedDocument : Document where
  semanticProfile := "profile"
  defaultClosure := undefinedClosure
  scopes := [⟨"/a~1b/0/~0", ⟨.closed, some "low", some "p"⟩, .author⟩,
    ⟨"", ⟨.opened, some "root", some "p"⟩, .author⟩,
    ⟨"/a~1b", ⟨.closed, some "middle", some "p"⟩, .author⟩]
  root := .delegated ⟨.required, .author⟩
  definitions := []

theorem scopedDocument_valid (installed : Installed) : scopedDocument.Valid installed where
  profile := by
    unfold TextWithin
    decide +kernel
  defaultClosure := by simp [scopedDocument, undefinedClosure, Closure.Valid]
  scopes := by
    have hclosure : ∀ posture, posture ≠ .undefined → ∀ name, TextWithin 1 256 name →
        Closure.Valid ⟨posture, some name, some "p"⟩ := by
      intro posture hposture name hname
      refine ⟨iff_of_true hposture ⟨nofun, nofun⟩, ?_, ?_⟩
      · rintro text ⟨⟩
        exact hname
      · rintro text ⟨⟩
        unfold TextWithin
        decide +kernel
    simp only [scopedDocument, List.forall_mem_cons]
    refine ⟨⟨by decide +kernel, hclosure _ (by decide) _ ?_, by decide⟩,
      ⟨by decide +kernel, hclosure _ (by decide) _ ?_, by decide⟩,
      ⟨by decide +kernel, hclosure _ (by decide) _ ?_, by decide⟩, nofun⟩
    · unfold TextWithin
      decide +kernel
    · unfold TextWithin
      decide +kernel
    · unfold TextWithin
      decide +kernel
  pointers := by decide +kernel
  root := by
    unfold scopedDocument Node.Valid
    trivial
  definitionCount := Nat.zero_le _
  names := List.nodup_nil
  definitions := nofun

theorem inheritedClosure_eq_closureFor_scoped :
    (exec (closureFor none scopedDocument undefinedClosure ["a/b", "0", "x"] :
      Stateful Empty RelationBudget _) freshBudget).1 =
      .ok (some ⟨.closed, some "middle", some "p"⟩) :=
  (inheritedClosure_eq_closureFor
    (scopedDocument_valid ⟨⟨fun _ => ""⟩, ⟨fun _ _ => 0, fun _ _ => 0⟩⟩)
    defaultLimits freshBudget freshBudget ["a/b", "0", "x"] undefinedClosure rfl
    (by decide +kernel) rfl).1 freshBudget

end Raes.Realization
