import Raes.Parameters.Substitution

/-!
# Resolving a captured derivation

What a capture accepts, and the value of its derivation under the bindings of its
variables.
-/

namespace Raes.Parameters

open PyError

/-! ## Capture -/

variable (declarations : Dict Text Variable)

def referenceOf (name : Text) : Reference :=
  match declarations.get? name with
  | some declaration =>
    ⟨[name], declaration.variableType, declaration.allowedValues, declaration.typed⟩
  | none => ⟨[name], .string, [], fun _ h => nomatch h⟩

@[simp] theorem referenceOf_parameter (name : Text) :
    (referenceOf declarations name).parameter = [name] := by
  unfold referenceOf
  cases declarations.get? name <;> rfl

def captured (text : Text) : List Segment :=
  segmentsOf (referenceOf declarations) text 0 (finditer 0 0 text)

/-- What a capture asks of a text: it holds tokens, each of a declared variable whose name is
portable, it is not the whole reference to a finite domain, and the derivation is within the
sizes of its fields. -/
structure Captured (fieldPointer text : Text) (declarations : Dict Text Variable) : Prop where
  tokens : finditer 0 0 text ≠ []
  declared : ∀ token ∈ finditer 0 0 text, declarations.get? token.name ≠ none
  notWhole : isWholeFiniteReference text declarations = false
  portable : ∀ token ∈ finditer 0 0 text, isPortableIdentifier token.name = true
  literalsFit : ∀ literal ∈ literals (captured declarations text), literal.length ≤ 4096
  segmentsFit : (captured declarations text).length ≤ 128
  pointer : validateFieldPointer fieldPointer = .ok ()

variable (text : Text)

theorem appendLiteral_eq_ok_iff (segments : List Segment) (start stop : ℕ) (out : List Segment) :
    appendLiteral text segments start stop = .ok out ↔
      (∀ literal ∈ literals (gap text start stop), literal.length ≤ 4096) ∧
        out = segments ++ gap text start stop := by
  unfold appendLiteral gap
  by_cases h : start < stop
  · simp only [if_pos h, literalSegment, bind_assoc, seq_eq_ok_iff, refuseIf_eq_ok_iff,
      pure_bind, literals, List.filterMap_cons, List.filterMap_nil, List.forall_mem_singleton,
      Nat.not_lt]
    exact and_congr_right fun _ => ⟨fun h => (Except.ok.inj h).symm, fun h => h ▸ rfl⟩
  · simp only [if_neg h, List.append_nil, Except.ok.injEq]
    exact ⟨fun h => ⟨fun _ hmem => (by cases hmem), h.symm⟩, fun h => h.2.symm⟩

theorem referenceSegment_eq_ok_iff {reference : Reference} {name : Text}
    (h : reference.parameter = [name]) (out : Segment) :
    referenceSegment reference = .ok out ↔
      isPortableIdentifier name = true ∧ out = .parameter reference := by
  unfold referenceSegment
  rw [seq_eq_ok_iff, refuseIf_eq_ok_iff, h]
  simp only [List.mem_singleton, exists_eq_left, List.cons_ne_nil, false_or, List.length_singleton,
    show ¬ 1 > 32 by decide, Bool.not_eq_true, Bool.not_eq_false]
  exact and_congr_right fun _ => ⟨fun h => (Except.ok.inj h).symm, fun h => h ▸ rfl⟩

theorem appendMatch_eq_ok_iff (state out : List Segment × ℕ) (token : TokenMatch) :
    appendMatch declarations text state token = .ok out ↔
      (∀ literal ∈ literals (gap text state.2 token.start), literal.length ≤ 4096) ∧
      declarations.get? token.name ≠ none ∧ isPortableIdentifier token.name = true ∧
      out = (state.1 ++ gap text state.2 token.start ++
        [.parameter (referenceOf declarations token.name)], token.stop) := by
  unfold appendMatch
  rw [bind_eq_ok_iff]
  simp only [appendLiteral_eq_ok_iff]
  constructor
  · rintro ⟨segments, ⟨hfit, rfl⟩, h⟩
    cases hdeclared : declarations.get? token.name with
    | none =>
      rw [hdeclared] at h
      cases h
    | some declaration =>
      rw [hdeclared] at h
      obtain ⟨segment, hsegment, hout⟩ := bind_eq_ok_iff.mp h
      obtain ⟨hportable, rfl⟩ := (referenceSegment_eq_ok_iff rfl _).mp hsegment
      refine ⟨hfit, Option.some_ne_none _, hportable, ?_⟩
      rw [← Except.ok.inj hout, referenceOf, hdeclared]
  · rintro ⟨hfit, hdeclared, hportable, rfl⟩
    refine ⟨_, ⟨hfit, rfl⟩, ?_⟩
    obtain ⟨declaration, hsome⟩ := Option.ne_none_iff_exists'.mp hdeclared
    rw [referenceOf, hsome]
    exact bind_eq_ok_iff.mpr
      ⟨_, (referenceSegment_eq_ok_iff rfl _).mpr ⟨hportable, rfl⟩, rfl⟩

/-- The loop of the capture, by induction on the matches: it adds the segments between the
offset reached and the end of the text. -/
theorem foldlM_appendMatch_eq_ok_iff (found : List TokenMatch) (segments : List Segment)
    (offset : ℕ) (out : List Segment) :
    (∃ state, found.foldlM (appendMatch declarations text) (segments, offset) = .ok state ∧
        appendLiteral text state.1 state.2 text.length = .ok out) ↔
      (∀ token ∈ found, declarations.get? token.name ≠ none ∧
        isPortableIdentifier token.name = true) ∧
      (∀ literal ∈ literals (segmentsOf (referenceOf declarations) text offset found),
        literal.length ≤ 4096) ∧
      out = segments ++ segmentsOf (referenceOf declarations) text offset found := by
  induction found generalizing segments offset with
  | nil =>
    constructor
    · rintro ⟨state, hstate, h⟩
      obtain rfl := Except.ok.inj hstate
      exact ⟨nofun, (appendLiteral_eq_ok_iff ..).mp h⟩
    · rintro ⟨-, h⟩
      exact ⟨_, rfl, (appendLiteral_eq_ok_iff ..).mpr h⟩
  | cons token rest ih =>
    have hliterals : literals (segmentsOf (referenceOf declarations) text offset (token :: rest)) =
        literals (gap text offset token.start) ++
          literals (segmentsOf (referenceOf declarations) text token.stop rest) :=
      literals_append _ _
    rw [hliterals, List.forall_mem_cons, List.forall_mem_append, segmentsOf]
    constructor
    · rintro ⟨state, hstate, h⟩
      rw [List.foldlM_cons] at hstate
      obtain ⟨middle, hfirst, hrest⟩ := bind_eq_ok_iff.mp hstate
      obtain ⟨hfit, hdeclared, hportable, rfl⟩ := (appendMatch_eq_ok_iff ..).mp hfirst
      obtain ⟨hothers, hfits, rfl⟩ := (ih _ _).mp ⟨state, hrest, h⟩
      exact ⟨⟨⟨hdeclared, hportable⟩, hothers⟩, ⟨hfit, hfits⟩, by simp⟩
    · rintro ⟨⟨⟨hdeclared, hportable⟩, hothers⟩, ⟨hfit, hfits⟩, rfl⟩
      obtain ⟨state, hrest, h⟩ := (ih (segments ++ gap text offset token.start ++
        [Segment.parameter (referenceOf declarations token.name)]) token.stop).mpr
          ⟨hothers, hfits, by simp⟩
      refine ⟨state, ?_, h⟩
      rw [List.foldlM_cons]
      exact bind_eq_ok_iff.mpr
        ⟨_, (appendMatch_eq_ok_iff ..).mpr ⟨hfit, hdeclared, hportable, rfl⟩, hrest⟩

theorem Scalar.equals_self (value : Scalar) : value.equals value = true := by
  cases value <;> simp [Scalar.equals, Scalar.number?]

theorem Reference.equals_self (reference : Reference) : reference.equals reference = true := by
  unfold Reference.equals
  simp only [decide_true, Bool.true_and, List.all_eq_true]
  intro pair hmem
  rw [← List.map_id reference.allowedValues, List.zip_map', List.mem_map] at hmem
  obtain ⟨value, -, rfl⟩ := hmem
  exact value.equals_self

theorem captured_agree : referencesAgree (captured declarations text) = true := by
  unfold referencesAgree captured
  rw [references_segmentsOf, List.all_eq_true]
  intro reference hmem
  obtain ⟨token, -, rfl⟩ := List.mem_map.mp hmem
  cases hfind : List.find? _ _ with
  | none => rfl
  | some first =>
    have hparameter := List.find?_some hfind
    obtain ⟨other, -, rfl⟩ := List.mem_map.mp (List.mem_of_find?_eq_some hfind)
    rw [decide_eq_true_iff, referenceOf_parameter, referenceOf_parameter,
      List.cons.injEq] at hparameter
    rw [Option.all_some, hparameter.1]
    exact Reference.equals_self _

theorem parameterDerivation_eq_ok_iff (fieldPointer : Text) (segments : List Segment)
    (derivation : ParameterDerivation) :
    parameterDerivation fieldPointer segments = .ok derivation ↔
      (segments ≠ [] ∧ segments.length ≤ 128) ∧ validateFieldPointer fieldPointer = .ok () ∧
      references segments ≠ [] ∧ referencesAgree segments = true ∧
      (∀ literal ∈ literals segments, containsVariableToken literal = false) ∧
      derivation = ⟨fieldPointer, segments⟩ := by
  unfold parameterDerivation
  simp only [seq_eq_ok_iff, refuseIf_eq_ok_iff, not_or, Nat.not_lt, not_exists,
    not_and, Bool.not_eq_true, Bool.not_eq_false]
  simp only [pure, Except.pure, Except.ok.injEq, eq_comm, ne_eq]

theorem capture_eq_ok_some_iff (fieldPointer text : Text) (declarations : Dict Text Variable)
    (derivation : ParameterDerivation) :
    captureParameterDerivation fieldPointer (some text) declarations = .ok (some derivation) ↔
      Captured fieldPointer text declarations ∧
        derivation = ⟨fieldPointer, captured declarations text⟩ := by
  unfold captureParameterDerivation
  dsimp only
  by_cases hnone : finditer 0 0 text = [] ∨
      (∃ token ∈ finditer 0 0 text, declarations.get? token.name = none) ∨
      isWholeFiniteReference text declarations = true
  · rw [if_pos hnone]
    refine ⟨nofun, fun h => ?_⟩
    rcases hnone with hempty | ⟨token, hmem, hundeclared⟩ | hwhole
    · exact absurd hempty h.1.tokens
    · exact absurd hundeclared (h.1.declared token hmem)
    · rw [h.1.notWhole] at hwhole
      cases hwhole
  · rw [if_neg hnone]
    simp only [not_or, not_exists, not_and, Bool.not_eq_true] at hnone
    obtain ⟨htokens, hdeclared, hwhole⟩ := hnone
    have hreferences : references (captured declarations text) ≠ [] := by
      rw [captured, references_segmentsOf]
      exact fun h => htokens (List.map_eq_nil_iff.mp h)
    have hsegments : captured declarations text ≠ [] := by
      intro h
      rw [h] at hreferences
      exact hreferences rfl
    constructor
    · intro h
      obtain ⟨state, hstate, h⟩ := bind_eq_ok_iff.mp h
      obtain ⟨segments, hlast, h⟩ := bind_eq_ok_iff.mp h
      obtain ⟨derivation', hderivation, h⟩ := bind_eq_ok_iff.mp h
      obtain rfl : derivation' = derivation := Option.some.inj (Except.ok.inj h)
      obtain ⟨hportable, hfits, rfl⟩ :=
        (foldlM_appendMatch_eq_ok_iff declarations text _ [] 0 _).mp ⟨state, hstate, hlast⟩
      rw [List.nil_append] at hderivation
      obtain ⟨hsizes, hpointer, -, -, -, rfl⟩ :=
        (parameterDerivation_eq_ok_iff ..).mp hderivation
      exact ⟨⟨htokens, hdeclared, hwhole, fun token hmem => (hportable token hmem).2, hfits,
        hsizes.2, hpointer⟩, rfl⟩
    · rintro ⟨h, rfl⟩
      obtain ⟨state, hstate, hlast⟩ := (foldlM_appendMatch_eq_ok_iff declarations text _ [] 0
        (captured declarations text)).mpr
          ⟨fun token hmem => ⟨h.declared token hmem, h.portable token hmem⟩, h.literalsFit, rfl⟩
      refine bind_eq_ok_iff.mpr ⟨state, hstate,
        bind_eq_ok_iff.mpr ⟨_, hlast, bind_eq_ok_iff.mpr
          ⟨_, (parameterDerivation_eq_ok_iff ..).mpr ⟨⟨hsegments, h.segmentsFit⟩, h.pointer,
            hreferences, captured_agree declarations text, fun literal hmem => ?_, rfl⟩, rfl⟩⟩⟩
      unfold containsVariableToken
      rw [finditer_eq_nil (segmentsOf_literals (referenceOf_parameter declarations) text
        literal hmem) 0]
      rfl

/-! ## Resolution -/

theorem get?_inputs (segments : List Segment) (parameter : List Text) :
    (inputs segments).get? parameter =
      (references segments).reverse.find? (·.parameter = parameter) := by
  unfold inputs
  generalize references segments = all
  induction all using List.reverseRecOn with
  | nil => rfl
  | append_singleton all last ih =>
    rw [List.foldl_append, List.foldl_cons, List.foldl_nil, Dict.get?_set, ih,
      List.reverse_append, List.reverse_singleton, List.singleton_append, List.find?_cons]
    by_cases h : parameter = last.parameter
    · rw [if_pos h, decide_eq_true h.symm]
    · rw [if_neg h, decide_eq_false (fun h' => h h'.symm)]

variable {segments : List Segment}

theorem exists_input {reference : Reference} (h : reference ∈ references segments) :
    ∃ input ∈ (inputs segments).values, input.parameter = reference.parameter := by
  cases hget : (inputs segments).get? reference.parameter with
  | none =>
    rw [get?_inputs, List.find?_eq_none] at hget
    exact absurd (decide_eq_true rfl) (hget reference (List.mem_reverse.mpr h))
  | some input =>
    refine ⟨input, Dict.mem_values_iff.mpr ⟨_, hget⟩, ?_⟩
    rw [get?_inputs] at hget
    exact of_decide_eq_true (List.find?_some hget :)

theorem mem_references_of_input {input : Reference}
    (h : input ∈ (inputs segments).values) : input ∈ references segments := by
  obtain ⟨parameter, hget⟩ := Dict.mem_values_iff.mp h
  rw [get?_inputs] at hget
  exact List.mem_reverse.mp (List.mem_of_find?_eq_some hget)

def Reference.Admits (reference : Reference) (value : Scalar) : Prop :=
  matchesVariableType value reference.variableType = true ∧
    (reference.allowedValues = [] ∨
      ∃ member ∈ reference.allowedValues, jsonValueEqual value member = true)

theorem checkBinding_eq_ok_iff (bindings : List Text → Option Scalar) (reference : Reference) :
    checkBinding bindings reference = .ok () ↔
      ∃ value, bindings reference.parameter = some value ∧ reference.Admits value := by
  unfold checkBinding Reference.Admits
  cases bindings reference.parameter with
  | none => simp
  | some value =>
    simp only [seq_eq_ok_iff, refuseIf_eq_ok_iff, Option.some.injEq, exists_eq_left',
      not_not, not_and, ne_eq, List.any_eq_true, ← or_iff_not_imp_left]

def rendered (value : List Text → Scalar) (segments : List Segment) : Scalar :=
  match segments with
  | [.parameter reference] => value reference.parameter
  | _ => .str (segments.flatMap (segmentText value))

def boundValue (value : List Text → Scalar) : Segment → Scalar
  | .literal text => .str text
  | .parameter reference => value reference.parameter

theorem renderSegments_eq {bindings : List Text → Option Scalar} {value : List Text → Scalar}
    (h : ∀ reference ∈ references segments,
      bindings reference.parameter = some (value reference.parameter)) :
    renderSegments bindings segments = .ok (rendered value segments) := by
  have hvalues : segments.mapM (segmentValue bindings) = .ok (segments.map (boundValue value)) := by
    refine mapM_eq_ok_map fun segment hmem => ?_
    cases segment with
    | literal text => rfl
    | parameter reference =>
      rw [segmentValue, h reference (List.mem_filterMap.mpr ⟨_, hmem, rfl⟩)]
      rfl
  unfold renderSegments rendered
  rw [hvalues]
  show Except.ok _ = _
  congr 1
  split
  · rename_i hlist
    simp only [List.map_cons, List.map_nil, List.cons.injEq, and_true] at hlist
    exact hlist.symm
  · rename_i hnot
    split
    · exact absurd rfl (hnot _ _ rfl)
    · rw [List.flatMap_map]
      congr 2
      funext segment
      cases segment <;> rfl

/-- A derivation resolves exactly when each input has a value that it takes. -/
theorem resolve_eq_ok_iff {derivation : ParameterDerivation}
    {bindings : List Text → Option Scalar} {result : Scalar} :
    derivation.resolve bindings = .ok result ↔ ∃ value : List Text → Scalar,
      (∀ input ∈ (inputs derivation.segments).values,
        bindings input.parameter = some (value input.parameter) ∧
          input.Admits (value input.parameter)) ∧
      result = rendered value derivation.segments := by
  have hrender : ∀ value : List Text → Scalar,
      (∀ input ∈ (inputs derivation.segments).values,
        bindings input.parameter = some (value input.parameter)) →
      renderSegments bindings derivation.segments = .ok (rendered value derivation.segments) := by
    intro value hvalue
    refine renderSegments_eq fun reference hmem => ?_
    obtain ⟨input, hinput, hparameter⟩ := exists_input hmem
    rw [← hparameter]
    exact hvalue input hinput
  unfold ParameterDerivation.resolve
  rw [seq_eq_ok_iff, forM_eq_ok_iff]
  simp only [checkBinding_eq_ok_iff]
  constructor
  · rintro ⟨hchecked, hresult⟩
    have hvalue : ∀ input ∈ (inputs derivation.segments).values, bindings input.parameter =
        some ((bindings input.parameter).getD (.bool true)) := by
      intro input hmem
      obtain ⟨value, hbound, -⟩ := hchecked input hmem
      rw [hbound]
      rfl
    refine ⟨fun parameter => (bindings parameter).getD (.bool true), fun input hmem => ?_, ?_⟩
    · obtain ⟨value, hbound, hadmits⟩ := hchecked input hmem
      refine ⟨hvalue input hmem, ?_⟩
      show input.Admits ((bindings input.parameter).getD (.bool true))
      rw [hbound]
      exact hadmits
    · rw [hrender (fun parameter => (bindings parameter).getD (.bool true)) hvalue] at hresult
      exact (Except.ok.inj hresult).symm
  · rintro ⟨value, hvalue, rfl⟩
    exact ⟨fun input hmem => ⟨_, hvalue input hmem⟩,
      hrender value fun input hmem => (hvalue input hmem).1⟩

theorem rendered_captured (value : List Text → Scalar) (text : Text) :
    rendered value (captured declarations text) =
      substituted (fun name => value [name]) text := by
  have htext := segmentsOf_text value (referenceOf_parameter declarations) text
  by_cases hwhole : ∃ name, tokenAt text = some (name, text.length)
  · obtain ⟨name, htoken⟩ := hwhole
    have hsegments : captured declarations text =
        [.parameter (referenceOf declarations name)] := by
      rw [captured, finditer_of_tokenAt htoken, segmentsOf, segmentsOf, gap, gap,
        if_neg (lt_irrefl _), if_neg (lt_irrefl _), List.nil_append]
    rw [hsegments, rendered, referenceOf_parameter, substituted, htoken]
    dsimp only
    rw [if_pos rfl]
  · have hrendered : rendered value (captured declarations text) =
        .str ((captured declarations text).flatMap (segmentText value)) := by
      unfold rendered
      split
      · rename_i single h
        exact absurd (tokenAt_of_segmentsOf_eq h) hwhole
      · rfl
    rw [hrendered, captured, htext, substituted]
    cases htoken : tokenAt text with
    | none => rfl
    | some token =>
      dsimp only
      rw [if_neg]
      rintro hlength
      exact hwhole ⟨token.1, by rw [htoken, ← hlength]⟩

end Raes.Parameters
