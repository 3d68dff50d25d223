import Raes.Lib.ExceptList
import Raes.Realization.ScopeLookup

/-!
# Semantic addresses

`_semantic_addresses.py` resolves a pointer to the address of its node, with the member
identity in place of each position of a keyed collection; `_normalization_scopes.py` gives
the scopes of a document the same addresses.  Both walk the tokens of the pointer through
the value, and look a collection up by the positions that they have passed.
-/

namespace Raes.Realization

open PyError Stateful Verdict

/-- `RealizationCollectionProfile`, as far as an address reads it -/
structure CollectionProfile where
  fieldPointer : String
  identityFields : List String
  deriving DecidableEq

def profileAt (profiles : List CollectionProfile) (source : List String) :
    Option CollectionProfile :=
  profiles.find? fun profile => profile.fieldPointer = pointerFromTokens source

section Canonical

variable (installed : Installed) (limits : Limits)

def validatedAddressTokens (address : String) : Except PyError (List String) := do
  refuseIf (matchesPointer address = false)
    (valueError "semantic address must be an RFC 6901 pointer")
  refuseIf (address.utf8ByteSize > limits.maxScalarBytes)
    (valueError "semantic address exceeds max_scalar_bytes")
  let tokens := pointerTokens address
  refuseIf (tokens.length > limits.maxDepth) (valueError "semantic address exceeds max_depth")
  return tokens

def identityChecksExceeded : PyError :=
  valueError "semantic address exceeds max_identity_checks"

def memberKey (profile : CollectionProfile) (item : Json) : Except PyError String :=
  match actualIdentity item profile.identityFields with
  | none => .error (valueError "semantic keyed member has no complete identity")
  | some identity => identityKey installed identity

/-- `_keyed_sequence_matches` from a position on, with the identities before it -/
def keyedSequenceMatches (token : String) (profile : CollectionProfile) :
    ℕ → List String → List Json → Except PyError (List (ℕ × String))
  | _, _, [] => .ok []
  | position, identities, item :: rest => do
    refuseIf (position ≥ limits.maxIdentityChecks) identityChecksExceeded
    let key ← memberKey installed profile item
    refuseIf (key ∈ identities)
      (valueError "semantic keyed-collection identities must be unique")
    let found ← keyedSequenceMatches token profile (position + 1) (identities ++ [key]) rest
    return if token = toString position ∨ token = "@" ++ key then (position, "@" ++ key) :: found
      else found

/-- The step that one token takes: the child, its source token and its semantic token,
and the identity checks spent -/
structure AddressStep where
  child : Json
  (source semantic : String)
  spent : ℕ

def doesNotResolve : PyError := valueError "semantic address does not resolve"

def resolveSequenceToken (items : List Json) (token : String)
    (profile : Option CollectionProfile) : Except PyError (ℕ × String × ℕ) := do
  refuseIf (items.length > limits.maxMembers) (valueError "semantic address exceeds max_members")
  match profile with
  | none =>
    match arrayIndex token items.length with
    | none => throw (valueError "semantic sequence address does not resolve")
    | some index => return (index, token, 0)
  | some profile =>
    match ← keyedSequenceMatches installed limits token profile 0 [] items with
    | [(position, canonical)] => return (position, canonical, items.length)
    | _ => throw (valueError "semantic keyed-collection address does not resolve uniquely")

def resolveSemanticToken (current : Json) (token : String)
    (profile : Option CollectionProfile) : Except PyError AddressStep :=
  match current with
  | .obj _ =>
    match current.get? token with
    | none => .error doesNotResolve
    | some child => .ok ⟨child, token, token, 0⟩
  | .arr items => do
    let (position, canonical, spent) ← resolveSequenceToken installed limits items token profile
    match items[position]? with
    | none => throw (indexError "list index out of range")
    | some child => return ⟨child, toString position, canonical, spent⟩
  | _ => .error doesNotResolve

/-- The node that an address resolves to: its place by positions, its place by identities,
and its value -/
structure ResolvedAddress where
  (source semantic : List String)
  value : Json

def resolveTokens (profiles : List CollectionProfile) :
    List String → ℕ → ℕ → ResolvedAddress → Except PyError ResolvedAddress
  | [], _, _, reached => .ok reached
  | token :: rest, operations, identityChecks, reached => do
    refuseIf (operations + 1 > limits.maxOperations)
      (valueError "semantic address exceeds max_operations")
    let step ← resolveSemanticToken installed limits reached.value token
      (profileAt profiles reached.source)
    refuseIf (identityChecks + step.spent > limits.maxIdentityChecks) identityChecksExceeded
    resolveTokens profiles rest (operations + 1) (identityChecks + step.spent)
      ⟨reached.source ++ [step.source], reached.semantic ++ [step.semantic], step.child⟩

/-- The node of an address, with the checks of its text and of the profiles -/
def resolveAddress (profiles : List CollectionProfile) (value : Json) (address : String) :
    Except PyError ResolvedAddress := do
  let tokens ← validatedAddressTokens limits address
  refuseIf (¬ (profiles.map CollectionProfile.fieldPointer).Nodup)
    (valueError "semantic-address collection profiles must be unique")
  resolveTokens installed limits profiles tokens 0 0 ⟨[], [], value⟩

def canonicalSemanticAddress (profiles : List CollectionProfile) (value : Json)
    (address : String) : Except PyError String := do
  let reached ← resolveAddress installed limits profiles value address
  return pointerFromTokens reached.semantic

end Canonical

section Scopes

variable (installed : Installed) (limits : Limits)

/-- `_ScopeCursor`; a place that is missing has no value. -/
structure ScopeCursor where
  (sourcePath semanticPath : List String)
  current : Option Json

/-- `_advance_keyed_scope` in a list -/
def advanceKeyedScope (cursor : ScopeCursor) (items : List Json) (token : String)
    (profile : CollectionProfile) (address : String) : Resolution ScopeCursor :=
  match arrayIndex token items.length with
  | none =>
    refuse .invalid address "A keyed-collection scope must resolve an authored member position."
  | some index => do
    require (spendIdentity limits) address fun exhausted =>
      s!"Scope normalization exceeded {exhausted}."
    match items[index]? with
    | none => throw (.raised (indexError "list index out of range"))
    | some item =>
      match actualIdentity item profile.identityFields with
      | none =>
        refuse .invalid address
          "A keyed-collection scope resolves a member without concrete semantic identity."
      | some identity =>
        match identityKey installed identity with
        | .error error => throw (.raised error)
        | .ok key =>
          return ⟨cursor.sourcePath ++ [token], cursor.semanticPath ++ ["@" ++ key], some item⟩

def advancePlainScope (cursor : ScopeCursor) (token : String) : ScopeCursor where
  sourcePath := cursor.sourcePath ++ [token]
  semanticPath := cursor.semanticPath ++ [token]
  current := match cursor.current with
    | some (.obj fields) => (Json.obj fields).get? token
    | some (.arr items) => (arrayIndex token items.length).bind fun index => items[index]?
    | _ => none

variable (profiles : List CollectionProfile)

def advanceToken (address token : String) (cursor : ScopeCursor) : Resolution ScopeCursor :=
  match cursor.current, profileAt profiles cursor.sourcePath with
  | some (.arr items), some profile =>
    advanceKeyedScope installed limits cursor items token profile address
  | _, _ => pure (advancePlainScope cursor token)

/-- The loop of `_normalize_one_scope` -/
def advanceScope (profiles : List CollectionProfile) (address : String) :
    List String → ScopeCursor → Resolution ScopeCursor
  | [], cursor => pure cursor
  | token :: rest, cursor => do
    require (spendOperation limits) address fun exhausted =>
      s!"Scope normalization exceeded {exhausted}."
    let next ← advanceToken installed limits profiles address token cursor
    advanceScope profiles address rest next

def normalizeOneScope (value : Json) (scope : Scope) : Resolution Scope := do
  let cursor ← advanceScope installed limits profiles scope.fieldPointer
    (pointerTokens scope.fieldPointer) ⟨[], [], some value⟩
  return { scope with fieldPointer := pointerFromTokens cursor.semanticPath }

/-- The loop of `normalize_scope_identities` -/
def normalizeScopes (profiles : List CollectionProfile) (value : Json) :
    List Scope → Resolution (List Scope)
  | [] => pure []
  | scope :: rest => do
    require (spendOperation limits) scope.fieldPointer fun exhausted =>
      s!"Scope normalization exceeded {exhausted}."
    let normalized ← normalizeOneScope installed limits profiles value scope
    let others ← normalizeScopes profiles value rest
    return normalized :: others

def normalizeScopeIdentities (value : Json) (scopes : List Scope) : Resolution (List Scope) := do
  let normalized ← normalizeScopes installed limits profiles value scopes
  if (normalized.map Scope.fieldPointer).Nodup then return normalized
  else refuse .invalid "" "Scope normalization produced duplicate semantic member addresses."

end Scopes

section Step

variable {installed : Installed} {limits : Limits}

theorem identity_ne_toString (key : String) (n : ℕ) : "@" ++ key ≠ toString n := by
  intro h
  have hmem : '@' ∈ Nat.toDigits 10 n := by
    rw [← toList_toString, ← h, String.toList_append]
    exact List.mem_append_left _ (List.mem_singleton_self _)
  exact absurd (isDigit_of_mem_toDigits hmem) (by decide)

theorem identity_injective {a b : String} (h : "@" ++ a = "@" ++ b) : a = b := by
  rw [← String.toList_inj, String.toList_append, String.toList_append] at h
  exact String.toList_inj.mp (List.append_cancel_left h)

variable (token : String)

def namedMembers (keys : List String) (position : ℕ) : List (ℕ × String) :=
  ((keys.zipIdx position).filter fun member =>
    token = toString member.2 ∨ token = "@" ++ member.1).map fun member => (member.2, "@" ++ member.1)

theorem keyedSequenceMatches_eq_ok_iff (profile : CollectionProfile)
    (items : List Json) (position : ℕ) (identities : List String) (found : List (ℕ × String))
    (hnodup : identities.Nodup) :
    keyedSequenceMatches installed limits token profile position identities items = .ok found ↔
      ∃ keys, items.mapM (memberKey installed profile) = .ok keys ∧ (identities ++ keys).Nodup ∧
        (items ≠ [] → position + items.length ≤ limits.maxIdentityChecks) ∧
        found = namedMembers token keys position := by
  induction items generalizing position identities found with
  | nil =>
    rw [keyedSequenceMatches, List.mapM_nil]
    constructor
    · intro h
      refine ⟨[], rfl, ?_, fun hne => absurd rfl hne, (Except.ok.inj h).symm⟩
      rw [List.append_nil]
      exact hnodup
    · intro h
      obtain ⟨keys, hkeys, -, -, rfl⟩ := h
      cases hkeys
      rfl
  | cons item rest ih =>
    have hbound : (¬ position ≥ limits.maxIdentityChecks ∧
        (rest ≠ [] → position + 1 + rest.length ≤ limits.maxIdentityChecks)) ↔
          (item :: rest ≠ [] → position + (item :: rest).length ≤ limits.maxIdentityChecks) := by
      cases rest with
      | nil => simp <;> omega
      | cons next rest => simp <;> omega
    have hnames (key : String) (keys : List String) : namedMembers token (key :: keys) position =
        if token = toString position ∨ token = "@" ++ key then
          (position, "@" ++ key) :: namedMembers token keys (position + 1)
        else namedMembers token keys (position + 1) := by
      unfold namedMembers
      rw [List.zipIdx_cons, List.filter_cons]
      split <;> simp_all
    rw [keyedSequenceMatches, seq_eq_ok_iff, refuseIf_eq_ok_iff, ← hbound]
    constructor
    · intro h
      obtain ⟨hposition, h⟩ := h
      rw [bind_eq_ok_iff] at h
      obtain ⟨key, hkey, h⟩ := h
      rw [seq_eq_ok_iff, refuseIf_eq_ok_iff, bind_eq_ok_iff] at h
      obtain ⟨hfresh, others, hothers, hfound⟩ := h
      have hidentities : (identities ++ [key]).Nodup := by
        rw [List.nodup_append]
        refine ⟨hnodup, List.nodup_singleton key, fun a ha b hb hab => ?_⟩
        rw [List.mem_singleton.mp hb] at hab
        exact hfresh (hab ▸ ha)
      obtain ⟨keys, hkeys, hnodup', hrest, rfl⟩ := (ih _ _ _ hidentities).mp hothers
      refine ⟨key :: keys, ?_, ?_, ⟨hposition, hrest⟩, ?_⟩
      · rw [List.mapM_cons]
        exact bind_eq_ok_iff.mpr
          ⟨key, hkey, bind_eq_ok_iff.mpr ⟨keys, hkeys, rfl⟩⟩
      · rwa [List.append_assoc] at hnodup'
      · rw [hnames]
        exact (Except.ok.inj hfound).symm
    · intro h
      obtain ⟨keys, hkeys, hnodup', ⟨hposition, hrest⟩, rfl⟩ := h
      rw [List.mapM_cons, bind_eq_ok_iff] at hkeys
      obtain ⟨key, hkey, hkeys⟩ := hkeys
      rw [bind_eq_ok_iff] at hkeys
      obtain ⟨others, hothers, hkeys⟩ := hkeys
      have heq : keys = key :: others := (Except.ok.inj hkeys).symm
      subst heq
      have hfresh : key ∉ identities := fun hmem =>
        List.disjoint_of_nodup_append hnodup' hmem List.mem_cons_self
      have hall : ((identities ++ [key]) ++ others).Nodup := by
        rw [List.append_assoc]
        exact hnodup'
      refine ⟨hposition, bind_eq_ok_iff.mpr ⟨key, hkey, ?_⟩⟩
      rw [seq_eq_ok_iff, refuseIf_eq_ok_iff, bind_eq_ok_iff]
      refine ⟨hfresh, _, (ih _ _ _ (List.nodup_append.mp hall).1).mpr
        ⟨others, hothers, hall, hrest, rfl⟩, ?_⟩
      rw [hnames]
      rfl

theorem mem_namedMembers (keys : List String) (position : ℕ) (canonical : String) :
    (position, canonical) ∈ namedMembers token keys 0 ↔ ∃ key, keys[position]? = some key ∧
      canonical = "@" ++ key ∧ (token = toString position ∨ token = canonical) := by
  simp only [namedMembers, List.mem_map, List.mem_filter, decide_eq_true_eq, Prod.exists,
    List.mem_zipIdx_iff_getElem?, Prod.mk.injEq]
  constructor
  · intro h
    obtain ⟨key, _, ⟨hkey, htoken⟩, rfl, rfl⟩ := h
    exact ⟨key, hkey, rfl, htoken⟩
  · intro h
    obtain ⟨key, hkey, rfl, htoken⟩ := h
    exact ⟨key, position, ⟨hkey, htoken⟩, rfl, rfl⟩

theorem namedMembers_nodup {keys : List String} (h : keys.Nodup) :
    (namedMembers token keys 0).Nodup := by
  have hzip : (keys.zipIdx 0).Nodup := by
    refine List.Nodup.of_map Prod.fst ?_
    rw [List.zipIdx_map_fst]
    exact h
  refine (hzip.filter _).map fun a b hab => ?_
  have hsnd := (Prod.mk.inj hab).1
  have hfst := identity_injective (Prod.mk.inj hab).2
  exact Prod.ext hfst hsnd

theorem eq_singleton_of_nodup {α : Type} {l : List α} {a : α} (hnodup : l.Nodup) (hmem : a ∈ l)
    (h : ∀ b ∈ l, b = a) : l = [a] := by
  cases l with
  | nil => cases hmem
  | cons first rest =>
    rw [h first List.mem_cons_self] at hnodup ⊢
    cases rest with
    | nil => rfl
    | cons second rest =>
      rw [h second (List.mem_cons_of_mem _ List.mem_cons_self)] at hnodup
      exact absurd List.mem_cons_self (List.nodup_cons.mp hnodup).1

theorem namedMembers_eq_singleton_iff {keys : List String} (h : keys.Nodup)
    (position : ℕ) (canonical : String) :
    namedMembers token keys 0 = [(position, canonical)] ↔ ∃ key, keys[position]? = some key ∧
      canonical = "@" ++ key ∧ (token = toString position ∨ token = canonical) := by
  rw [← mem_namedMembers]
  constructor
  · intro heq
    rw [heq]
    exact List.mem_singleton_self _
  · intro hmem
    refine eq_singleton_of_nodup (namedMembers_nodup token h) hmem fun other hother => ?_
    obtain ⟨key, hkey, rfl, htoken⟩ := (mem_namedMembers _ _ _ _).mp hmem
    obtain ⟨otherKey, hotherKey, hcanonical, hotherToken⟩ := (mem_namedMembers _ _ _ _).mp hother
    -- the token is the numeral of one position, or the identity of one key
    have hposition : other.1 = position := by
      rcases htoken with rfl | rfl
      · rcases hotherToken with hnumeral | hidentity
        · exact (toString_nat_injective hnumeral).symm
        · rw [hcanonical] at hidentity
          exact absurd hidentity.symm (identity_ne_toString _ _)
      · rcases hotherToken with hnumeral | hidentity
        · exact absurd hnumeral (identity_ne_toString _ _)
        · rw [hcanonical] at hidentity
          have hsame := identity_injective hidentity
          rw [← hsame] at hotherKey
          obtain ⟨hlt, hget⟩ := List.getElem?_eq_some_iff.mp hkey
          obtain ⟨hlt', hget'⟩ := List.getElem?_eq_some_iff.mp hotherKey
          exact (List.Nodup.getElem_inj_iff h).mp (hget'.trans hget.symm)
    rw [hposition, hkey] at hotherKey
    rw [Option.some.inj hotherKey, ← hcanonical, ← hposition]

/-- One step through a value, by a position or a key, whatever token asks for it -/
inductive AddressEdge (installed : Installed) (limits : Limits) :
    Option CollectionProfile → Json → AddressStep → Prop
  | field (profile : Option CollectionProfile) (fields : List (String × Json)) (name : String)
      (child : Json) (h : (Json.obj fields).get? name = some child) :
      AddressEdge installed limits profile (.obj fields) ⟨child, name, name, 0⟩
  | position (items : List Json) (index : ℕ) (child : Json)
      (hsize : items.length ≤ limits.maxMembers) (h : items[index]? = some child) :
      AddressEdge installed limits none (.arr items)
        ⟨child, toString index, toString index, 0⟩
  | member (profile : CollectionProfile) (items : List Json) (index : ℕ) (child : Json)
      (keys : List String) (key : String) (hsize : items.length ≤ limits.maxMembers)
      (hchecks : items.length ≤ limits.maxIdentityChecks)
      (hkeys : items.mapM (memberKey installed profile) = .ok keys) (hnodup : keys.Nodup)
      (h : items[index]? = some child) (hkey : keys[index]? = some key) :
      AddressEdge installed limits (some profile) (.arr items)
        ⟨child, toString index, "@" ++ key, items.length⟩

theorem resolveSequenceToken_none_eq_ok_iff {items : List Json} {token : String}
    {answer : ℕ × String × ℕ} :
    resolveSequenceToken installed limits items token none = .ok answer ↔
      items.length ≤ limits.maxMembers ∧ ∃ index, token = toString index ∧
        index < items.length ∧ answer = (index, token, 0) := by
  unfold resolveSequenceToken
  rw [seq_eq_ok_iff, refuseIf_eq_ok_iff, gt_iff_lt, Nat.not_lt]
  refine and_congr_right fun _ => ?_
  dsimp only
  cases hindex : arrayIndex token items.length with
  | none =>
    refine iff_of_false (fun h => nomatch h) fun h => ?_
    obtain ⟨index, htoken, hlt, -⟩ := h
    rw [arrayIndex_eq_some_iff.mpr ⟨htoken, hlt⟩] at hindex
    cases hindex
  | some index =>
    obtain ⟨htoken, hlt⟩ := arrayIndex_eq_some_iff.mp hindex
    constructor
    · intro h
      exact ⟨index, htoken, hlt, (Except.ok.inj h).symm⟩
    · intro h
      obtain ⟨other, hother, -, rfl⟩ := h
      rw [toString_nat_injective (htoken.symm.trans hother)]
      rfl

theorem resolveSequenceToken_some_eq_ok_iff {profile : CollectionProfile} {items : List Json}
    {token : String} {position : ℕ} {canonical : String} {spent : ℕ} :
    resolveSequenceToken installed limits items token (some profile) =
        .ok (position, canonical, spent) ↔
      items.length ≤ limits.maxMembers ∧ ∃ keys, items.mapM (memberKey installed profile) = .ok keys ∧
        keys.Nodup ∧ (items ≠ [] → items.length ≤ limits.maxIdentityChecks) ∧
        spent = items.length ∧ ∃ key, keys[position]? = some key ∧ canonical = "@" ++ key ∧
          (token = toString position ∨ token = canonical) := by
  unfold resolveSequenceToken
  rw [seq_eq_ok_iff, refuseIf_eq_ok_iff, gt_iff_lt, Nat.not_lt]
  refine and_congr_right fun _ => ?_
  dsimp only
  rw [bind_eq_ok_iff]
  constructor
  · intro h
    obtain ⟨found, hfound, h⟩ := h
    obtain ⟨keys, hkeys, hnodup, hchecks, rfl⟩ :=
      (keyedSequenceMatches_eq_ok_iff _ _ _ _ _ _ List.nodup_nil).mp hfound
    rw [List.nil_append] at hnodup
    rw [Nat.zero_add] at hchecks
    refine ⟨keys, hkeys, hnodup, hchecks, ?_⟩
    split at h
    · next member name hmembers =>
      have hanswer := Except.ok.inj h
      obtain ⟨rfl, rfl, rfl⟩ : member = position ∧ name = canonical ∧ items.length = spent := by
        simpa using hanswer
      exact ⟨rfl, (namedMembers_eq_singleton_iff token hnodup _ _).mp hmembers⟩
    · cases h
  · intro h
    obtain ⟨keys, hkeys, hnodup, hchecks, rfl, hmember⟩ := h
    refine ⟨_, (keyedSequenceMatches_eq_ok_iff _ _ _ _ _ _ List.nodup_nil).mpr
      ⟨keys, hkeys, hnodup, by rwa [Nat.zero_add], rfl⟩, ?_⟩
    rw [(namedMembers_eq_singleton_iff token hnodup _ _).mpr hmember]
    rfl

/-- A token takes the step that it names, by the position of the child or by its
identity. -/
theorem resolveSemanticToken_eq_ok_iff {profile : Option CollectionProfile} {current : Json}
    {token : String} {step : AddressStep} :
    resolveSemanticToken installed limits current token profile = .ok step ↔
      AddressEdge installed limits profile current step ∧
        (token = step.source ∨ token = step.semantic) := by
  cases current with
  | obj fields =>
    unfold resolveSemanticToken
    dsimp only
    constructor
    · intro h
      cases hchild : (Json.obj fields).get? token with
      | none =>
        rw [hchild] at h
        cases h
      | some child =>
        rw [hchild] at h
        cases h
        exact ⟨.field profile fields token child hchild, Or.inl rfl⟩
    · intro h
      obtain ⟨hedge, htoken⟩ := h
      cases hedge with
      | field _ _ name child hchild =>
        have hname : token = name := or_self_iff.mp htoken
        rw [hname, hchild]
  | arr items =>
    unfold resolveSemanticToken
    dsimp only
    rw [bind_eq_ok_iff]
    constructor
    · intro h
      obtain ⟨⟨position, canonical, spent⟩, hanswer, h⟩ := h
      dsimp only at h
      cases hchild : items[position]? with
      | none =>
        rw [hchild] at h
        cases h
      | some child =>
        rw [hchild] at h
        cases h
        cases profile with
        | none =>
          obtain ⟨hsize, index, rfl, -, heq⟩ := resolveSequenceToken_none_eq_ok_iff.mp hanswer
          cases heq
          exact ⟨.position items position child hsize hchild, Or.inl rfl⟩
        | some profile =>
          obtain ⟨hsize, keys, hkeys, hnodup, hchecks, rfl, key, hkey, rfl, htoken⟩ :=
            resolveSequenceToken_some_eq_ok_iff.mp hanswer
          have hne : items ≠ [] := fun hnil => by
            rw [hnil] at hchild
            cases hchild
          exact ⟨.member profile items position child keys key hsize (hchecks hne) hkeys hnodup
            hchild hkey, htoken⟩
    · intro h
      obtain ⟨hedge, htoken⟩ := h
      cases hedge with
      | position _ index child hsize hchild =>
        have hlt := (List.getElem?_eq_some_iff.mp hchild).1
        refine ⟨(index, token, 0), resolveSequenceToken_none_eq_ok_iff.mpr
          ⟨hsize, index, or_self_iff.mp htoken, hlt, rfl⟩, ?_⟩
        dsimp only
        rw [hchild, or_self_iff.mp htoken]
        rfl
      | member profile _ index child keys key hsize hchecks hkeys hnodup hchild hkey =>
        refine ⟨(index, "@" ++ key, items.length), resolveSequenceToken_some_eq_ok_iff.mpr
          ⟨hsize, keys, hkeys, hnodup, fun _ => hchecks, rfl, key, hkey, rfl, htoken⟩, ?_⟩
        dsimp only
        rw [hchild]
        rfl
  | null | bool _ | int _ | float _ | str _ =>
    exact iff_of_false (fun h => nomatch h) fun h => nomatch h.1

end Step

/-! ## Whole addresses -/

/-- The child of a value under a token: a member of a record or a position of a list -/
def childAt : Json → String → Option Json
  | .obj fields, token => (Json.obj fields).get? token
  | .arr items, token => (arrayIndex token items.length).bind fun index => items[index]?
  | _, _ => none

def nodeAt (value : Json) (tokens : List String) : Option Json := tokens.foldlM childAt value

def Spells (token : String) (step : String × String) : Prop := token = step.1 ∨ token = step.2

section Run

variable {installed : Installed} {limits : Limits} {profiles : List CollectionProfile}

theorem AddressEdge.childAt {profile : Option CollectionProfile} {current : Json}
    {step : AddressStep} (h : AddressEdge installed limits profile current step) :
    childAt current step.source = some step.child := by
  cases h with
  | field _ fields name child h => exact h
  | position items index child hsize h =>
    have hlt := (List.getElem?_eq_some_iff.mp h).1
    show (arrayIndex (toString index) items.length).bind (fun index => items[index]?) = some child
    rw [arrayIndex_eq_some_iff.mpr ⟨rfl, hlt⟩]
    exact h
  | member profile items index child keys key hsize hchecks hkeys hnodup h hkey =>
    have hlt := (List.getElem?_eq_some_iff.mp h).1
    show (arrayIndex (toString index) items.length).bind (fun index => items[index]?) = some child
    rw [arrayIndex_eq_some_iff.mpr ⟨rfl, hlt⟩]
    exact h

def ResolvedAddress.along (reached : ResolvedAddress) (step : AddressStep) : ResolvedAddress :=
  ⟨reached.source ++ [step.source], reached.semantic ++ [step.semantic], step.child⟩

variable {operations checks : ℕ}

theorem resolveTokens_cons_eq_ok_iff {token : String} {rest : List String}
    {reached r : ResolvedAddress} :
    resolveTokens installed limits profiles (token :: rest) operations checks reached = .ok r ↔
      operations + 1 ≤ limits.maxOperations ∧ ∃ step,
        AddressEdge installed limits (profileAt profiles reached.source) reached.value step ∧
        Spells token (step.source, step.semantic) ∧
        checks + step.spent ≤ limits.maxIdentityChecks ∧
        resolveTokens installed limits profiles rest (operations + 1) (checks + step.spent)
          (reached.along step) = .ok r := by
  rw [resolveTokens, seq_eq_ok_iff, refuseIf_eq_ok_iff, gt_iff_lt, Nat.not_lt,
    bind_eq_ok_iff]
  refine and_congr_right fun _ => exists_congr fun step => ?_
  rw [resolveSemanticToken_eq_ok_iff, seq_eq_ok_iff, refuseIf_eq_ok_iff, gt_iff_lt,
    Nat.not_lt, and_assoc]
  exact Iff.rfl

theorem spells_sources (path : List (String × String)) :
    List.Forall₂ Spells (path.map Prod.fst) path :=
  List.forall₂_map_left_iff.mpr (List.forall₂_same.mpr fun _ _ => Or.inl rfl)

theorem spells_semantics (path : List (String × String)) :
    List.Forall₂ Spells (path.map Prod.snd) path :=
  List.forall₂_map_left_iff.mpr (List.forall₂_same.mpr fun _ _ => Or.inr rfl)

theorem exists_path_of_resolveTokens {tokens : List String} {reached r : ResolvedAddress}
    (h : resolveTokens installed limits profiles tokens operations checks reached = .ok r) :
    ∃ path : List (String × String), r.source = reached.source ++ path.map Prod.fst ∧
      r.semantic = reached.semantic ++ path.map Prod.snd ∧ List.Forall₂ Spells tokens path ∧
      nodeAt reached.value (path.map Prod.fst) = some r.value ∧
      ∀ spelled, List.Forall₂ Spells spelled path →
        resolveTokens installed limits profiles spelled operations checks reached = .ok r := by
  induction tokens generalizing operations checks reached with
  | nil =>
    have hr : reached = r := Except.ok.inj h
    subst hr
    refine ⟨[], (List.append_nil _).symm, (List.append_nil _).symm, .nil, rfl, fun spelled hs => ?_⟩
    cases hs
    rfl
  | cons token rest ih =>
    obtain ⟨hoperations, step, hedge, htoken, hchecks, hrest⟩ :=
      resolveTokens_cons_eq_ok_iff.mp h
    obtain ⟨path, hsource, hsemantic, hspells, hnode, hall⟩ := ih hrest
    refine ⟨(step.source, step.semantic) :: path, ?_, ?_, .cons htoken hspells, ?_,
      fun spelled hs => ?_⟩
    · rw [hsource, ResolvedAddress.along, List.append_assoc]
      rfl
    · rw [hsemantic, ResolvedAddress.along, List.append_assoc]
      rfl
    · rw [nodeAt, List.map_cons, List.foldlM_cons, hedge.childAt]
      exact hnode
    · cases hs with
      | cons htoken' hspells' =>
        exact resolveTokens_cons_eq_ok_iff.mpr
          ⟨hoperations, step, hedge, htoken', hchecks, hall _ hspells'⟩

/-- Two addresses that reach one path, by positions or by identities, reach one node: the
path itself is a spelling of both. -/
theorem resolveTokens_injective {tokens others : List String} {reached r s : ResolvedAddress}
    (hr : resolveTokens installed limits profiles tokens operations checks reached = .ok r)
    (hs : resolveTokens installed limits profiles others operations checks reached = .ok s)
    (h : r.source = s.source ∨ r.semantic = s.semantic) : r = s := by
  obtain ⟨path, hsource, hsemantic, -, -, hall⟩ := exists_path_of_resolveTokens hr
  obtain ⟨path', hsource', hsemantic', -, -, hall'⟩ := exists_path_of_resolveTokens hs
  rcases h with h | h
  · rw [hsource, hsource'] at h
    have hrun := hall _ (spells_sources path)
    have hrun' := hall' _ (spells_sources path')
    rw [List.append_cancel_left h, hrun'] at hrun
    exact (Except.ok.inj hrun).symm
  · rw [hsemantic, hsemantic'] at h
    have hrun := hall _ (spells_semantics path)
    have hrun' := hall' _ (spells_semantics path')
    rw [List.append_cancel_left h, hrun'] at hrun
    exact (Except.ok.inj hrun).symm

end Run

section Address

variable {installed : Installed} {limits : Limits} {profiles : List CollectionProfile}
  {value : Json}

theorem resolveAddress_eq_ok_iff {address : String} {r : ResolvedAddress} :
    resolveAddress installed limits profiles value address = .ok r ↔
      (matchesPointer address = true ∧ address.utf8ByteSize ≤ limits.maxScalarBytes ∧
        (pointerTokens address).length ≤ limits.maxDepth) ∧
      (profiles.map CollectionProfile.fieldPointer).Nodup ∧
      resolveTokens installed limits profiles (pointerTokens address) 0 0 ⟨[], [], value⟩ = .ok r := by
  unfold resolveAddress validatedAddressTokens
  rw [bind_eq_ok_iff]
  simp only [seq_eq_ok_iff, refuseIf_eq_ok_iff, gt_iff_lt, Nat.not_lt, Bool.not_eq_false,
    not_not]
  constructor
  · intro h
    obtain ⟨tokens, ⟨hmatches, hbytes, hdepth, htokens⟩, hrest⟩ := h
    have heq : pointerTokens address = tokens := Except.ok.inj htokens
    rw [heq]
    rw [heq] at hdepth
    exact ⟨⟨hmatches, hbytes, hdepth⟩, hrest⟩
  · intro h
    obtain ⟨⟨hmatches, hbytes, hdepth⟩, hrest⟩ := h
    exact ⟨_, ⟨hmatches, hbytes, hdepth, rfl⟩, hrest⟩

theorem canonicalSemanticAddress_eq_ok_iff (address canonical : String) :
    canonicalSemanticAddress installed limits profiles value address = .ok canonical ↔
      ∃ r, resolveAddress installed limits profiles value address = .ok r ∧
        canonical = pointerFromTokens r.semantic := by
  rw [canonicalSemanticAddress, bind_eq_ok_iff]
  refine exists_congr fun r => and_congr_right fun _ => ?_
  constructor
  · intro h
    exact (Except.ok.inj h).symm
  · intro h
    rw [h]
    rfl

/-- A node that an address resolves to is at its source path, and any spelling of its path
that is within the limit of an address resolves to it. -/
theorem resolveAddress_spelled {address : String} {r : ResolvedAddress}
    (h : resolveAddress installed limits profiles value address = .ok r) :
    nodeAt value r.source = some r.value ∧
      ∀ spelled ∈ [r.source, r.semantic],
        (pointerFromTokens spelled).utf8ByteSize ≤ limits.maxScalarBytes →
        resolveAddress installed limits profiles value (pointerFromTokens spelled) = .ok r := by
  obtain ⟨⟨-, -, hdepth⟩, hprofiles, hrun⟩ := resolveAddress_eq_ok_iff.mp h
  obtain ⟨path, hsource, hsemantic, hspells, hnode, hall⟩ := exists_path_of_resolveTokens hrun
  rw [List.nil_append] at hsource hsemantic
  refine ⟨by rw [hsource]; exact hnode, fun spelled hspelled hbytes => ?_⟩
  have hsame : List.Forall₂ Spells spelled path := by
    rcases List.mem_cons.mp hspelled with rfl | hspelled
    · rw [hsource]
      exact spells_sources path
    · rw [List.mem_singleton.mp hspelled, hsemantic]
      exact spells_semantics path
  refine resolveAddress_eq_ok_iff.mpr
    ⟨⟨matchesPointer_pointerFromTokens spelled, hbytes, ?_⟩, hprofiles, ?_⟩
  · rw [pointerTokens_pointerFromTokens, hsame.length_eq, ← hspells.length_eq]
    exact hdepth
  · rw [pointerTokens_pointerFromTokens]
    exact hall spelled hsame

theorem pointerFromTokens_injective {a b : List String}
    (h : pointerFromTokens a = pointerFromTokens b) : a = b := by
  rw [← pointerTokens_pointerFromTokens a, h, pointerTokens_pointerFromTokens]

theorem canonicalSemanticAddress_eq_iff {a b : String} {r s : ResolvedAddress}
    (hr : resolveAddress installed limits profiles value a = .ok r)
    (hs : resolveAddress installed limits profiles value b = .ok s) :
    canonicalSemanticAddress installed limits profiles value a =
        canonicalSemanticAddress installed limits profiles value b ↔ r.source = s.source := by
  have ha := (canonicalSemanticAddress_eq_ok_iff a _).mpr ⟨r, hr, rfl⟩
  have hb := (canonicalSemanticAddress_eq_ok_iff b _).mpr ⟨s, hs, rfl⟩
  obtain ⟨-, -, hrun⟩ := resolveAddress_eq_ok_iff.mp hr
  obtain ⟨-, -, hrun'⟩ := resolveAddress_eq_ok_iff.mp hs
  rw [ha, hb]
  constructor
  · intro h
    have hsemantic := pointerFromTokens_injective (Except.ok.inj h)
    rw [resolveTokens_injective hrun hrun' (Or.inr hsemantic)]
  · intro h
    rw [resolveTokens_injective hrun hrun' (Or.inl h)]

end Address

section Agreement

variable {installed : Installed} {limits : Limits} {profiles : List CollectionProfile}

theorem memberKey_eq_ok_iff (profile : CollectionProfile) (item : Json) (key : String) :
    memberKey installed profile item = .ok key ↔
      ∃ identity, actualIdentity item profile.identityFields = some identity ∧
        identityKey installed identity = .ok key := by
  unfold memberKey
  cases actualIdentity item profile.identityFields with
  | none => exact iff_of_false (fun h => nomatch h) fun h => nomatch h
  | some identity =>
    constructor
    · intro h
      exact ⟨identity, rfl, h⟩
    · intro h
      obtain ⟨other, heq, h⟩ := h
      rw [← Option.some.inj heq] at h
      exact h

variable {budget left : RelationBudget}

theorem advanceKeyedScope_agrees {cursor next : ScopeCursor} {items : List Json} {token : String}
    {profile : CollectionProfile} {address : String} {step : AddressStep}
    (hedge : AddressEdge installed limits (some profile) (.arr items) step)
    (htoken : Spells token (step.source, step.semantic))
    (h : exec (advanceKeyedScope installed limits cursor items token profile address) budget =
      (.ok next, left)) :
    next = ⟨cursor.sourcePath ++ [step.source], cursor.semanticPath ++ [step.semantic],
      some step.child⟩ := by
  cases hedge with
  | member _ _ index child keys key hsize hchecks hkeys hnodup hchild hkey =>
    unfold advanceKeyedScope at h
    cases hindex : arrayIndex token items.length with
    | none =>
      rw [hindex] at h
      cases h
    | some position =>
      obtain ⟨rfl, hlt⟩ := arrayIndex_eq_some_iff.mp hindex
      have hposition : position = index := by
        rcases htoken with hnumeral | hidentity
        · exact toString_nat_injective hnumeral
        · exact absurd hidentity.symm (identity_ne_toString key position)
      subst hposition
      have hmember := forall₂_getElem? (mapM_eq_ok_iff.mp hkeys) hchild hkey
      obtain ⟨identity, hidentity, hdigest⟩ := (memberKey_eq_ok_iff profile child key).mp hmember
      rw [hindex] at h
      dsimp only at h
      rw [exec_bind_ok_iff] at h
      obtain ⟨⟨⟩, middle, -, h⟩ := h
      rw [hchild] at h
      dsimp only at h
      rw [hidentity] at h
      dsimp only at h
      rw [hdigest] at h
      cases h
      rfl

theorem advanceToken_agrees {address token : String} {reached : ResolvedAddress}
    {step : AddressStep} {next : ScopeCursor} (hedge : AddressEdge installed limits
    (profileAt profiles reached.source) reached.value step)
    (htoken : Spells token (step.source, step.semantic))
    (h : exec (advanceToken installed limits profiles address token
      ⟨reached.source, reached.semantic, some reached.value⟩) budget = (.ok next, left)) :
    next = ⟨reached.source ++ [step.source], reached.semantic ++ [step.semantic],
      some step.child⟩ := by
  obtain ⟨source, semantic, value⟩ := reached
  unfold advanceToken at h
  dsimp only at h hedge ⊢
  generalize profileAt profiles source = profile at h hedge
  cases hedge with
  | field _ fields name child hchild =>
    rw [exec_pure_ok_iff] at h
    rw [h.1, advancePlainScope, or_self_iff.mp htoken, ← hchild]
  | position items index child hsize hchild =>
    have hlt := (List.getElem?_eq_some_iff.mp hchild).1
    rw [exec_pure_ok_iff, advancePlainScope] at h
    rw [h.1, or_self_iff.mp htoken]
    dsimp only
    rw [arrayIndex_eq_some_iff.mpr ⟨rfl, hlt⟩, Option.bind_some, hchild]
  | member profile items index child keys key hsize hchecks hkeys hnodup hchild hkey =>
    exact advanceKeyedScope_agrees (.member profile items index child keys key hsize hchecks
      hkeys hnodup hchild hkey) htoken h

theorem advanceScope_agrees {address : String} {tokens : List String} {operations checks : ℕ}
    {reached r : ResolvedAddress} {cursor : ScopeCursor}
    (hr : resolveTokens installed limits profiles tokens operations checks reached = .ok r)
    (h : exec (advanceScope installed limits profiles address tokens
      ⟨reached.source, reached.semantic, some reached.value⟩) budget = (.ok cursor, left)) :
    cursor.semanticPath = r.semantic := by
  induction tokens generalizing operations checks reached budget with
  | nil =>
    rw [advanceScope, exec_pure_ok_iff] at h
    rw [h.1, Except.ok.inj hr]
  | cons token rest ih =>
    obtain ⟨-, step, hedge, htoken, -, hrest⟩ := resolveTokens_cons_eq_ok_iff.mp hr
    rw [advanceScope, exec_bind_ok_iff] at h
    obtain ⟨⟨⟩, middle, -, h⟩ := h
    rw [exec_bind_ok_iff] at h
    obtain ⟨next, later, hnext, h⟩ := h
    suffices hsame : next = ⟨reached.source ++ [step.source], reached.semantic ++ [step.semantic],
        some step.child⟩ by
      rw [hsame] at h
      exact ih hrest h
    exact advanceToken_agrees hedge htoken hnext

/-- The scopes of a document have the canonical addresses of their pointers, where the
document and the address both answer. -/
theorem normalizeScopes_agree {value : Json} {scopes normalized : List Scope} (h : exec
    (normalizeScopes installed limits profiles value scopes) budget =
      (.ok normalized, left)) : List.Forall₂ (fun scope given => ∀ canonical,
      canonicalSemanticAddress installed limits profiles value scope.fieldPointer = .ok canonical →
        given.fieldPointer = canonical) scopes normalized := by
  induction scopes generalizing normalized budget with
  | nil =>
    rw [normalizeScopes, exec_pure_ok_iff] at h
    rw [h.1]
    exact .nil
  | cons scope rest ih =>
    rw [normalizeScopes, exec_bind_ok_iff] at h
    obtain ⟨⟨⟩, middle, -, h⟩ := h
    rw [exec_bind_ok_iff] at h
    obtain ⟨given, later, hgiven, h⟩ := h
    rw [exec_bind_ok_iff] at h
    obtain ⟨others, last, hothers, h⟩ := h
    obtain ⟨rfl, rfl⟩ := exec_pure_ok_iff.mp h
    refine .cons (fun canonical hcanonical => ?_) (ih hothers)
    obtain ⟨r, hr, rfl⟩ := (canonicalSemanticAddress_eq_ok_iff _ _).mp hcanonical
    obtain ⟨-, -, hrun⟩ := resolveAddress_eq_ok_iff.mp hr
    rw [normalizeOneScope, exec_bind_ok_iff] at hgiven
    obtain ⟨cursor, _, hcursor, hgiven⟩ := hgiven
    rw [exec_pure_ok_iff] at hgiven
    rw [hgiven.1, ← advanceScope_agrees hrun hcursor]

theorem normalizeScopeIdentities_agree {value : Json} {scopes normalized : List Scope} (h : exec
    (normalizeScopeIdentities installed limits profiles value scopes) budget =
      (.ok normalized, left)) : List.Forall₂ (fun scope given => ∀ canonical,
      canonicalSemanticAddress installed limits profiles value scope.fieldPointer = .ok canonical →
        given.fieldPointer = canonical) scopes normalized := by
  rw [normalizeScopeIdentities, exec_bind_ok_iff] at h
  obtain ⟨answers, middle, hanswers, h⟩ := h
  split at h
  · rw [exec_pure_ok_iff] at h
    rw [h.1]
    exact normalizeScopes_agree hanswers
  · cases h

end Agreement

section Nodes

variable {installed : Installed} {limits : Limits} {profiles : List CollectionProfile}
  {value : Json}

/-- Every keyed collection of a value has members of complete identities, no two alike. -/
def KeyedUniquely (installed : Installed) (profiles : List CollectionProfile) (value : Json) :
    Prop :=
  ∀ source items profile, nodeAt value source = some (.arr items) →
    profileAt profiles source = some profile →
    ∃ keys, items.mapM (memberKey installed profile) = .ok keys ∧ keys.Nodup

def limitRefusals : List PyError :=
  [valueError "semantic address exceeds max_scalar_bytes",
    valueError "semantic address exceeds max_depth",
    valueError "semantic address exceeds max_operations",
    valueError "semantic address exceeds max_members", identityChecksExceeded]

theorem raisesOnly_keyedSequenceMatches (token : String) (profile : CollectionProfile)
    (items : List Json) (position : ℕ) (identities keys : List String)
    (hkeys : items.mapM (memberKey installed profile) = .ok keys)
    (hnodup : (identities ++ keys).Nodup) :
    RaisesOnly (· ∈ limitRefusals)
      (keyedSequenceMatches installed limits token profile position identities items) := by
  induction items generalizing position identities keys with
  | nil => exact RaisesOnly.ok []
  | cons item rest ih =>
    rw [List.mapM_cons, bind_eq_ok_iff] at hkeys
    obtain ⟨key, hkey, hkeys⟩ := hkeys
    rw [bind_eq_ok_iff] at hkeys
    obtain ⟨others, hothers, hkeys⟩ := hkeys
    have heq : keys = key :: others := (Except.ok.inj hkeys).symm
    subst heq
    have hall : ((identities ++ [key]) ++ others).Nodup := by
      rw [List.append_assoc]
      exact hnodup
    rw [keyedSequenceMatches, hkey]
    refine RaisesOnly.bind (RaisesOnly.refuseIf fun _ => ?_) fun _ _ => ?_
    · simp [limitRefusals]
    · refine RaisesOnly.bind (RaisesOnly.ok key) fun named hnamed => ?_
      rw [← Except.ok.inj hnamed]
      refine RaisesOnly.bind (RaisesOnly.refuseIf fun hmem => ?_) fun _ _ => ?_
      · exact absurd List.mem_cons_self (List.disjoint_of_nodup_append hnodup hmem)
      · exact RaisesOnly.bind (ih _ _ _ hothers hall) fun _ _ => RaisesOnly.ok _

variable {profile : Option CollectionProfile}

theorem resolveSequenceToken_lt {items : List Json} {token canonical : String} {position spent : ℕ}
    (h : resolveSequenceToken installed limits items token profile =
      .ok (position, canonical, spent)) : position < items.length := by
  cases profile with
  | none =>
    obtain ⟨-, index, -, hlt, heq⟩ := resolveSequenceToken_none_eq_ok_iff.mp h
    rw [(Prod.mk.inj heq).1]
    exact hlt
  | some keyed =>
    obtain ⟨-, keys, hkeys, -, -, -, key, hkey, -⟩ :=
      resolveSequenceToken_some_eq_ok_iff.mp h
    rw [(mapM_eq_ok_iff.mp hkeys).length_eq]
    exact (List.getElem?_eq_some_iff.mp hkey).1

theorem raisesOnly_resolveSemanticToken {current child : Json} {token : String}
    (hchild : childAt current token = some child)
    (hkeyed : ∀ items keyed, current = .arr items → profile = some keyed →
      ∃ keys, items.mapM (memberKey installed keyed) = .ok keys ∧ keys.Nodup) :
    RaisesOnly (· ∈ limitRefusals)
      (resolveSemanticToken installed limits current token profile) := by
  cases current with
  | obj fields =>
    have hget : (Json.obj fields).get? token = some child := hchild
    rw [resolveSemanticToken, hget]
    exact RaisesOnly.ok _
  | arr items =>
    obtain ⟨index, hindex, hitem⟩ := Option.bind_eq_some_iff.mp hchild
    obtain ⟨rfl, hlt⟩ := arrayIndex_eq_some_iff.mp hindex
    rw [resolveSemanticToken]
    refine RaisesOnly.bind ?_ fun answer hanswer => ?_
    · unfold resolveSequenceToken
      refine RaisesOnly.bind (RaisesOnly.refuseIf fun _ => ?_) fun _ _ => ?_
      · simp [limitRefusals]
      cases profile with
      | none =>
        dsimp only
        rw [hindex]
        exact RaisesOnly.ok _
      | some keyed =>
        obtain ⟨keys, hkeys, hnodup⟩ := hkeyed items keyed rfl rfl
        refine RaisesOnly.bind
          (raisesOnly_keyedSequenceMatches _ keyed items 0 [] keys hkeys hnodup) fun found hfound => ?_
        obtain ⟨named, hnamed, -, -, rfl⟩ :=
          (keyedSequenceMatches_eq_ok_iff _ _ _ _ _ _ List.nodup_nil).mp hfound
        rw [Except.ok.inj (hnamed.symm.trans hkeys)]
        have hlength := (mapM_eq_ok_iff.mp hkeys).length_eq
        rw [hlength] at hlt
        rw [(namedMembers_eq_singleton_iff _ hnodup index _).mpr
          ⟨_, List.getElem?_eq_getElem hlt, rfl, Or.inl rfl⟩]
        exact RaisesOnly.ok _
    · obtain ⟨position, canonical, spent⟩ := answer
      have hposition : position < items.length := resolveSequenceToken_lt hanswer
      dsimp only
      rw [List.getElem?_eq_getElem hposition]
      exact RaisesOnly.ok _
  | null | bool _ | int _ | float _ | str _ => cases hchild

theorem nodeAt_append (source : List String) (token : String) (current : Json)
    (h : nodeAt value source = some current) :
    nodeAt value (source ++ [token]) = childAt current token := by
  rw [nodeAt, List.foldlM_append]
  show (nodeAt value source >>= fun node => [token].foldlM childAt node) = _
  rw [h]
  show (childAt current token >>= pure) = _
  rw [bind_pure]

theorem AddressEdge.source_eq {current child : Json}
    {step : AddressStep} {token : String} (h : AddressEdge installed limits profile current step)
    (htoken : Spells token (step.source, step.semantic))
    (hchild : Realization.childAt current token = some child) : step.source = token := by
  cases h with
  | field | position => exact (or_self_iff.mp htoken).symm
  | member _ items index _ _ key =>
    obtain ⟨position, hposition, -⟩ := Option.bind_eq_some_iff.mp hchild
    rcases htoken with hnumeral | hidentity
    · exact hnumeral.symm
    · rw [hidentity] at hposition
      exact absurd (arrayIndex_eq_some_iff.mp hposition).1 (identity_ne_toString _ _)

theorem raisesOnly_resolveTokens (hkeyed : KeyedUniquely installed profiles value)
    {tokens : List String} {operations checks : ℕ} {reached : ResolvedAddress} {node : Json}
    (hreached : nodeAt value reached.source = some reached.value)
    (hnode : nodeAt reached.value tokens = some node) :
    RaisesOnly (· ∈ limitRefusals)
      (resolveTokens installed limits profiles tokens operations checks reached) := by
  induction tokens generalizing operations checks reached with
  | nil => exact RaisesOnly.ok reached
  | cons token rest ih =>
    obtain ⟨child, hchild, hrest⟩ := Option.bind_eq_some_iff.mp hnode
    rw [resolveTokens]
    refine RaisesOnly.bind (RaisesOnly.refuseIf fun _ => ?_) fun _ _ => ?_
    · simp [limitRefusals]
    refine RaisesOnly.bind ?_ fun step hstep => ?_
    · refine raisesOnly_resolveSemanticToken hchild fun items keyed hitems hprofile => ?_
      rw [hitems] at hreached
      exact hkeyed _ _ _ hreached hprofile
    refine RaisesOnly.bind (RaisesOnly.refuseIf fun _ => ?_) fun _ _ => ?_
    · simp [limitRefusals]
    obtain ⟨hedge, htoken⟩ := resolveSemanticToken_eq_ok_iff.mp hstep
    have hsource := hedge.source_eq htoken hchild
    have hstepChild := hedge.childAt
    rw [hsource, hchild] at hstepChild
    have hsame := Option.some.inj hstepChild
    refine ih ?_ ?_
    · rw [nodeAt_append _ _ _ hreached, hsource, hchild, hsame]
    · rw [← hsame]
      exact hrest

theorem raisesOnly_canonicalSemanticAddress (hkeyed : KeyedUniquely installed profiles value)
    (hprofiles : (profiles.map CollectionProfile.fieldPointer).Nodup) {address : String}
    {node : Json} (hpointer : matchesPointer address = true)
    (hnode : nodeAt value (pointerTokens address) = some node) :
    RaisesOnly (· ∈ limitRefusals)
      (canonicalSemanticAddress installed limits profiles value address) := by
  unfold canonicalSemanticAddress resolveAddress validatedAddressTokens
  refine RaisesOnly.bind (RaisesOnly.bind ?_ fun tokens htokens => ?_) fun _ _ => RaisesOnly.ok _
  · refine RaisesOnly.bind (RaisesOnly.refuseIf fun h => ?_) fun _ _ => ?_
    · rw [hpointer] at h
      cases h
    refine RaisesOnly.bind (RaisesOnly.refuseIf fun _ => ?_) fun _ _ => ?_
    · simp [limitRefusals]
    refine RaisesOnly.bind (RaisesOnly.refuseIf fun _ => ?_) fun _ _ => RaisesOnly.ok _
    · simp [limitRefusals]
  · refine RaisesOnly.bind (RaisesOnly.refuseIf fun h => absurd hprofiles h) fun _ _ => ?_
    simp only [seq_eq_ok_iff] at htokens
    rw [← Except.ok.inj htokens.2.2.2]
    exact raisesOnly_resolveTokens hkeyed rfl hnode

end Nodes

section Results

variable (installed : Installed) (limits : Limits) (profiles : List CollectionProfile)
  (value : Json)

/-- The canonical address is its own address where it is within the limit of an address.
Positions and identities of a node have one address, which no other node has, and which a
document gives its scopes; every node of a keyed value has one, within the limits. -/
theorem canonicalSemanticAddress_canonical :
    (∀ address canonical,
      canonicalSemanticAddress installed limits profiles value address = .ok canonical →
      canonical.utf8ByteSize ≤ limits.maxScalarBytes →
      canonicalSemanticAddress installed limits profiles value canonical = .ok canonical) ∧
    (∀ address r, resolveAddress installed limits profiles value address = .ok r →
      nodeAt value r.source = some r.value ∧
      ∀ spelled ∈ [r.source, r.semantic],
        (pointerFromTokens spelled).utf8ByteSize ≤ limits.maxScalarBytes →
        canonicalSemanticAddress installed limits profiles value (pointerFromTokens spelled) =
          canonicalSemanticAddress installed limits profiles value address) ∧
    (∀ a b r s, resolveAddress installed limits profiles value a = .ok r →
      resolveAddress installed limits profiles value b = .ok s →
      (canonicalSemanticAddress installed limits profiles value a =
        canonicalSemanticAddress installed limits profiles value b ↔ r.source = s.source)) ∧
    (∀ scopes normalized budget left,
      exec (normalizeScopeIdentities installed limits profiles value scopes) budget =
        (.ok normalized, left) →
      List.Forall₂ (fun scope given => ∀ canonical,
        canonicalSemanticAddress installed limits profiles value scope.fieldPointer =
          .ok canonical → given.fieldPointer = canonical) scopes normalized) ∧
    (KeyedUniquely installed profiles value →
      (profiles.map CollectionProfile.fieldPointer).Nodup →
      ∀ address node, matchesPointer address = true →
        nodeAt value (pointerTokens address) = some node →
        RaisesOnly (· ∈ limitRefusals)
          (canonicalSemanticAddress installed limits profiles value address)) := by
  refine ⟨fun address canonical h hbytes => ?_, fun address r hr => ?_, ?_, ?_, ?_⟩
  · obtain ⟨r, hr, rfl⟩ := (canonicalSemanticAddress_eq_ok_iff _ _).mp h
    have hsame := (resolveAddress_spelled hr).2 r.semantic (by simp) hbytes
    exact (canonicalSemanticAddress_eq_ok_iff _ _).mpr ⟨r, hsame, rfl⟩
  · obtain ⟨hnode, hall⟩ := resolveAddress_spelled hr
    refine ⟨hnode, fun spelled hspelled hbytes => ?_⟩
    exact (canonicalSemanticAddress_eq_iff (hall spelled hspelled hbytes) hr).mpr rfl
  · intro a b r s hr hs
    exact canonicalSemanticAddress_eq_iff hr hs
  · intro scopes normalized budget left h
    exact normalizeScopeIdentities_agree h
  · intro hkeyed hprofiles address node hpointer hnode
    exact raisesOnly_canonicalSemanticAddress hkeyed hprofiles hpointer hnode

end Results

/-- A hash that is SHA-256 on the identity of the one item -/
def itemInstalled : Installed :=
  ⟨⟨fun _ => "0eb5b8d6f81bc677da8a08567cc4fa9a06a57e9ec8da85ed73a7f62727996002"⟩,
    ⟨fun _ _ => 0, fun _ _ => 0⟩⟩

def itemValue : Json := .obj [("items", .arr [.obj [("id", .str "a")]])]

def itemProfiles : List CollectionProfile := [⟨"/items", ["id"]⟩]

def itemAddress : String :=
  "/items/@sha256:0eb5b8d6f81bc677da8a08567cc4fa9a06a57e9ec8da85ed73a7f62727996002"

/-- An address that is just within the limit has a canonical address that exceeds it. -/
theorem canonicalSemanticAddress_exceeds :
    canonicalSemanticAddress itemInstalled { defaultLimits with maxScalarBytes := 8 } itemProfiles
        itemValue "/items/0" = .ok itemAddress ∧
      canonicalSemanticAddress itemInstalled { defaultLimits with maxScalarBytes := 8 }
        itemProfiles itemValue itemAddress =
          .error (valueError "semantic address exceeds max_scalar_bytes") := by
  decide +kernel

end Raes.Realization
