import Raes.Parameters.Replay

/-!
# Finite images of derivations

The image of a derivation over the finite domain of its one input: the values that it
resolves to, each once.  A value is the same as another when they have one type and are
equal, so `1`, `1.0` and `true` are three values.
-/

namespace Raes.Parameters

open PyError

/-! ## Values without duplicates -/

def keepDistinct (seen : List Scalar) (value : Scalar) : List Scalar :=
  if ∃ kept ∈ seen, kept.Same value then seen else seen ++ [value]

/-- The first of each of the values that are the same. -/
def distinct (values : List Scalar) : List Scalar := values.foldl keepDistinct []

theorem Scalar.same_refl (value : Scalar) : value.Same value := by
  cases value <;> exact rfl

theorem foldl_keepDistinct (values seen : List Scalar) :
    (seen.Pairwise (¬ ·.Same ·) → (values.foldl keepDistinct seen).Pairwise (¬ ·.Same ·)) ∧
    (∀ value ∈ values.foldl keepDistinct seen, value ∈ seen ∨ value ∈ values) ∧
    (∀ value ∈ seen, value ∈ values.foldl keepDistinct seen) ∧
    ∀ value ∈ values, ∃ kept ∈ values.foldl keepDistinct seen, kept.Same value := by
  induction values generalizing seen with
  | nil => exact ⟨id, fun _ h => .inl h, fun _ h => h, nofun⟩
  | cons value rest ih =>
    obtain ⟨hdistinct, hsub, hkeeps, hcovers⟩ := ih (keepDistinct seen value)
    rw [List.foldl_cons]
    by_cases hseen : ∃ kept ∈ seen, kept.Same value
    · have hsame : keepDistinct seen value = seen := if_pos hseen
      rw [hsame] at hdistinct hsub hkeeps hcovers ⊢
      refine ⟨hdistinct, fun kept hmem => (hsub kept hmem).imp_right (List.mem_cons_of_mem _),
        hkeeps, ?_⟩
      rw [List.forall_mem_cons]
      obtain ⟨kept, hmem, hvalue⟩ := hseen
      exact ⟨⟨kept, hkeeps kept hmem, hvalue⟩, hcovers⟩
    · have hadded : keepDistinct seen value = seen ++ [value] := if_neg hseen
      rw [hadded] at hdistinct hsub hkeeps hcovers ⊢
      refine ⟨fun h => hdistinct (List.pairwise_append.mpr ⟨h, List.pairwise_singleton _ _, ?_⟩),
        fun kept hmem => ?_, fun kept hmem => hkeeps kept (List.mem_append_left _ hmem), ?_⟩
      · intro kept hmem other hother
        obtain rfl := List.mem_singleton.mp hother
        exact fun h => hseen ⟨kept, hmem, h⟩
      · rcases hsub kept hmem with h | h
        · rcases List.mem_append.mp h with h | h
          · exact .inl h
          · exact .inr (List.mem_singleton.mp h ▸ List.mem_cons_self)
        · exact .inr (List.mem_cons_of_mem _ h)
      · rw [List.forall_mem_cons]
        exact ⟨⟨value, hkeeps value (List.mem_append_right _ List.mem_cons_self),
          value.same_refl⟩, hcovers⟩

/-- The values of a list, each once: no two are the same, each is one of the list, and each of
the list is the same as one of them. -/
structure IsSetOf (values out : List Scalar) : Prop where
  nodup : out.Pairwise (¬ ·.Same ·)
  sound : ∀ value ∈ out, value ∈ values
  complete : ∀ value ∈ values, ∃ kept ∈ out, kept.Same value

theorem distinct_isSetOf (values : List Scalar) : IsSetOf values (distinct values) := by
  obtain ⟨hdistinct, hsub, -, hcovers⟩ := foldl_keepDistinct values []
  exact ⟨hdistinct .nil, fun value h => (hsub value h).resolve_left List.not_mem_nil, hcovers⟩

/-! ## The loop of the image -/

def totalBytes (values : List Scalar) : ℕ := (values.map fun value => utf8Length value.render).sum

theorem totalBytes_append (a b : List Scalar) :
    totalBytes (a ++ b) = totalBytes a + totalBytes b := by
  rw [totalBytes, List.map_append, List.sum_append]
  rfl

theorem totalBytes_le_foldl (values seen : List Scalar) :
    totalBytes seen ≤ totalBytes (values.foldl keepDistinct seen) := by
  induction values generalizing seen with
  | nil => exact le_refl _
  | cons value rest ih =>
    refine le_trans ?_ (ih (keepDistinct seen value))
    unfold keepDistinct
    split
    · exact le_refl _
    · rw [totalBytes_append]
      exact Nat.le_add_right _ _

variable {limits : ImageLimits} {normalize : Scalar → Scalar} {segments : List Segment}
  {identity : List Text}

theorem renderBoundedAlternative_eq_ok_iff
    (hsingle : ∀ reference ∈ references segments, reference.parameter = identity)
    (value out : Scalar) :
    renderBoundedAlternative limits normalize segments identity value = .ok out ↔
      (limits.conformant value = true ∧
        limits.conformant (normalize (rendered (fun _ => value) segments)) = true) ∧
      out = normalize (rendered (fun _ => value) segments) := by
  have hrender : renderSegments (fun name => if name = identity then some value else none)
      segments = .ok (rendered (fun _ => value) segments) :=
    renderSegments_eq fun reference hmem => if_pos (hsingle reference hmem)
  unfold renderBoundedAlternative
  rw [seq_eq_ok_iff, refuseIf_eq_ok_iff, Bool.not_eq_false, hrender]
  show _ ∧ ((refuseIf _ _ >>= fun _ => _) = _) ↔ _
  rw [seq_eq_ok_iff, refuseIf_eq_ok_iff, Bool.not_eq_false, and_assoc]
  exact and_congr_right fun _ => and_congr_right fun _ =>
    ⟨fun h => (Except.ok.inj h).symm, fun h => h ▸ rfl⟩

/-- The loop keeps each value once, as long as its total stays within the budget. -/
theorem foldlM_addAlternative_eq_ok_iff
    (hsingle : ∀ reference ∈ references segments, reference.parameter = identity)
    (values seen : List Scalar) (hseen : totalBytes seen ≤ limits.maxTotalScalarBytes)
    (out : List Scalar × ℕ) :
    values.foldlM (addAlternative limits normalize segments identity) (seen, totalBytes seen) =
        .ok out ↔
      (∀ value ∈ values, limits.conformant value = true ∧
        limits.conformant (normalize (rendered (fun _ => value) segments)) = true) ∧
      totalBytes out.1 ≤ limits.maxTotalScalarBytes ∧
      out.1 = (values.map fun value => normalize (rendered (fun _ => value) segments)).foldl
        keepDistinct seen ∧
      out.2 = totalBytes out.1 := by
  induction values generalizing seen with
  | nil =>
    constructor
    · intro h
      obtain rfl := Except.ok.inj h
      exact ⟨nofun, hseen, rfl, rfl⟩
    · rintro ⟨-, -, hfirst, hsecond⟩
      rw [hfirst] at hsecond
      exact congrArg Except.ok (Prod.ext hfirst.symm hsecond.symm)
  | cons value rest ih =>
    rw [List.foldlM_cons, List.forall_mem_cons, List.map_cons, List.foldl_cons]
    by_cases hvalue : limits.conformant value = true ∧
        limits.conformant (normalize (rendered (fun _ => value) segments)) = true
    · have hturn : addAlternative limits normalize segments identity (seen, totalBytes seen) value =
          if totalBytes (keepDistinct seen (normalize (rendered (fun _ => value) segments))) ≤
              limits.maxTotalScalarBytes then
            .ok (keepDistinct seen (normalize (rendered (fun _ => value) segments)),
              totalBytes (keepDistinct seen (normalize (rendered (fun _ => value) segments))))
          else .error (valueError "finite derivation image exceeds the total scalar budget") := by
        unfold addAlternative
        rw [(renderBoundedAlternative_eq_ok_iff hsingle value _).mpr ⟨hvalue, rfl⟩]
        show (if _ then _ else _) = _
        unfold keepDistinct
        by_cases hkept : ∃ kept ∈ seen, kept.Same (normalize (rendered (fun _ => value) segments))
        · rw [if_pos hkept, if_pos hkept, if_pos hseen]
          rfl
        · have htotal : totalBytes (seen ++ [normalize (rendered (fun _ => value) segments)]) =
              totalBytes seen +
                utf8Length (normalize (rendered (fun _ => value) segments)).render :=
            totalBytes_append _ _
          rw [if_neg hkept, if_neg hkept, htotal]
          by_cases hle : totalBytes seen +
              utf8Length (normalize (rendered (fun _ => value) segments)).render ≤
                limits.maxTotalScalarBytes
          · rw [if_pos hle, if_neg (Nat.not_lt.mpr hle)]
            rfl
          · rw [if_neg hle, if_pos (Nat.lt_of_not_le hle)]
      rw [hturn, and_iff_right hvalue]
      by_cases hle : totalBytes (keepDistinct seen
          (normalize (rendered (fun _ => value) segments))) ≤ limits.maxTotalScalarBytes
      · rw [if_pos hle]
        exact ih _ hle
      · rw [if_neg hle]
        refine ⟨nofun, fun h => absurd (le_trans ?_ h.2.1) hle⟩
        rw [h.2.2.1]
        exact totalBytes_le_foldl _ _
    · refine ⟨fun h => ?_, fun h => absurd h.1.1 hvalue⟩
      obtain ⟨state, hturn, -⟩ := bind_eq_ok_iff.mp h
      obtain ⟨kept, hkept, -⟩ := bind_eq_ok_iff.mp hturn
      exact absurd ((renderBoundedAlternative_eq_ok_iff hsingle value kept).mp hkept).1 hvalue

/-! ## Replay and image -/

theorem parameter_eq_of_single {segments : List Segment} {identity : List Text}
    {input : Reference} (h : (inputs segments).entries = [(identity, input)]) :
    (∀ reference ∈ references segments, reference.parameter = identity) ∧
      input.parameter = identity := by
  have hkeys : ∀ parameter single, (inputs segments).get? parameter = some single →
      parameter = identity ∧ single = input := by
    intro parameter single hget
    have hmem := Dict.get?_eq_some_iff.mp hget
    rw [h, List.mem_singleton] at hmem
    exact Prod.mk.inj hmem
  have hinput : input.parameter = identity := by
    have hget : (inputs segments).get? identity = some input :=
      Dict.get?_eq_some_iff.mpr (by rw [h]; exact List.mem_cons_self)
    rw [get?_inputs] at hget
    exact of_decide_eq_true (List.find?_some hget :)
  refine ⟨fun reference hmem => ?_, hinput⟩
  obtain ⟨single, hsingle, hparameter⟩ := exists_input hmem
  rw [Dict.values, h] at hsingle
  rw [← hparameter, List.mem_singleton.mp hsingle, hinput]

theorem jsonValueEqual_self (value : Scalar) : jsonValueEqual value value = true := by
  cases value <;> simp [jsonValueEqual, Scalar.equals, Scalar.number?]

theorem resolve_member {derivation : ParameterDerivation} {identity : List Text}
    {input : Reference} (h : (inputs derivation.segments).entries = [(identity, input)])
    {member : Scalar} (hmember : member ∈ input.allowedValues)
    {bindings : List Text → Option Scalar} (hbound : bindings identity = some member) :
    derivation.resolve bindings = .ok (rendered (fun _ => member) derivation.segments) := by
  refine resolve_eq_ok_iff.mpr ⟨fun _ => member, fun single hsingle => ?_, rfl⟩
  rw [Dict.values, h] at hsingle
  rw [List.mem_singleton.mp hsingle, (parameter_eq_of_single h).2]
  exact ⟨hbound, input.typed member hmember, .inr ⟨member, hmember, jsonValueEqual_self member⟩⟩

theorem finiteDerivationImage_eq_none_iff (limits : ImageLimits) (normalize : Scalar → Scalar)
    (derivation : ParameterDerivation) :
    finiteDerivationImage limits normalize derivation = .ok none ↔
      ∃ input ∈ (inputs derivation.segments).values, input.allowedValues = [] := by
  unfold finiteDerivationImage
  split
  · rename_i h
    exact ⟨fun _ => h, fun _ => rfl⟩
  · rename_i h
    refine ⟨fun himage => ?_, fun hempty => absurd hempty h⟩
    split at himage
    · obtain ⟨-, himage⟩ := seq_eq_ok_iff.mp himage
      obtain ⟨state, -, himage⟩ := bind_eq_ok_iff.mp himage
      cases himage
    · cases himage

theorem finiteDerivationImage_eq_some_iff (limits : ImageLimits) (normalize : Scalar → Scalar)
    (derivation : ParameterDerivation) (out : List Scalar) :
    finiteDerivationImage limits normalize derivation = .ok (some out) ↔
      ∃ identity input, (inputs derivation.segments).entries = [(identity, input)] ∧
        input.allowedValues ≠ [] ∧ input.allowedValues.length ≤ limits.maxMembers ∧
        (∀ member ∈ input.allowedValues, limits.conformant member = true ∧
          limits.conformant
            (normalize (rendered (fun _ => member) derivation.segments)) = true) ∧
        totalBytes out ≤ limits.maxTotalScalarBytes ∧
        out = distinct (input.allowedValues.map fun member =>
          normalize (rendered (fun _ => member) derivation.segments)) := by
  have hloop : ∀ {identity input}, (inputs derivation.segments).entries = [(identity, input)] →
      ∀ state, input.allowedValues.foldlM
          (addAlternative limits normalize derivation.segments identity) ([], 0) = .ok state ↔ _ :=
    fun h state => foldlM_addAlternative_eq_ok_iff (parameter_eq_of_single h).1 _ []
      (Nat.zero_le _) state
  unfold finiteDerivationImage
  constructor
  · intro himage
    split at himage
    · cases himage
    · rename_i hfinite
      split at himage
      · rename_i identity input h
        obtain ⟨hmembers, himage⟩ := seq_eq_ok_iff.mp himage
        obtain ⟨state, hstate, himage⟩ := bind_eq_ok_iff.mp himage
        obtain rfl := Option.some.inj (Except.ok.inj himage)
        obtain ⟨hconformant, htotal, hout, -⟩ := (hloop h state).mp hstate
        refine ⟨identity, input, h, fun hempty => hfinite ⟨input, ?_, hempty⟩,
          Nat.not_lt.mp ((refuseIf_eq_ok_iff _ _ _).mp hmembers), hconformant, htotal, hout⟩
        rw [Dict.values, h]
        exact List.mem_cons_self
      · cases himage
  · rintro ⟨identity, input, h, hfinite, hmembers, hconformant, htotal, hout⟩
    rw [if_neg, h]
    · refine seq_eq_ok_iff.mpr
        ⟨(refuseIf_eq_ok_iff _ _ _).mpr (Nat.not_lt.mpr hmembers), ?_⟩
      exact bind_eq_ok_iff.mpr
        ⟨(out, totalBytes out), (hloop h _).mpr ⟨hconformant, htotal, hout, rfl⟩, rfl⟩
    · rintro ⟨single, hmem, hempty⟩
      rw [Dict.values, h] at hmem
      rw [List.mem_singleton.mp hmem] at hempty
      exact hfinite hempty

theorem capture_eq_none_iff (fieldPointer text : Text) (declarations : Dict Text Variable) :
    captureParameterDerivation fieldPointer (some text) declarations = .ok none ↔
      finditer 0 0 text = [] ∨ (∃ token ∈ finditer 0 0 text, declarations.get? token.name = none) ∨
        isWholeFiniteReference text declarations = true := by
  unfold captureParameterDerivation
  dsimp only
  split
  · rename_i h
    exact ⟨fun _ => h, fun _ => rfl⟩
  · rename_i h
    refine ⟨fun hcapture => ?_, fun hnone => absurd hnone h⟩
    obtain ⟨state, -, hcapture⟩ := bind_eq_ok_iff.mp hcapture
    obtain ⟨segments, -, hcapture⟩ := bind_eq_ok_iff.mp hcapture
    obtain ⟨derivation, -, hcapture⟩ := bind_eq_ok_iff.mp hcapture
    cases hcapture

/-- A derivation is captured and resolved exactly for a text and bindings that the checks
allow, and its value is that of one substitution of the bindings; the finite image of a
derivation is the set of the values that it resolves to over the domain of its one input. -/
theorem parameterDerivation_replays :
    (∀ fieldPointer text declarations bindings result,
      (∃ derivation, captureParameterDerivation fieldPointer (some text) declarations =
          .ok (some derivation) ∧ derivation.resolve bindings = .ok result) ↔
        Captured fieldPointer text declarations ∧ ∃ value : Text → Scalar,
          (∀ token ∈ finditer 0 0 text, bindings [token.name] = some (value token.name) ∧
            (referenceOf declarations token.name).Admits (value token.name)) ∧
          result = substituted value text) ∧
    (∀ fieldPointer text declarations,
      captureParameterDerivation fieldPointer (some text) declarations = .ok none ↔
        finditer 0 0 text = [] ∨
        (∃ token ∈ finditer 0 0 text, declarations.get? token.name = none) ∨
        isWholeFiniteReference text declarations = true) ∧
    (∀ limits normalize derivation out,
      finiteDerivationImage limits normalize derivation = .ok (some out) ↔
        ∃ identity input, (inputs derivation.segments).entries = [(identity, input)] ∧
          input.allowedValues ≠ [] ∧ input.allowedValues.length ≤ limits.maxMembers ∧
          ∃ value : Scalar → Scalar,
            (∀ member ∈ input.allowedValues, ∀ bindings, bindings identity = some member →
              derivation.resolve bindings = .ok (value member)) ∧
            (∀ member ∈ input.allowedValues, limits.conformant member = true ∧
              limits.conformant (normalize (value member)) = true) ∧
            totalBytes out ≤ limits.maxTotalScalarBytes ∧
            out = distinct (input.allowedValues.map fun member => normalize (value member))) ∧
    (∀ limits normalize derivation,
      finiteDerivationImage limits normalize derivation = .ok none ↔
        ∃ input ∈ (inputs derivation.segments).values, input.allowedValues = []) ∧
    ∀ values, IsSetOf values (distinct values) := by
  refine ⟨fun fieldPointer text declarations bindings result => ?_, capture_eq_none_iff,
    fun limits normalize derivation out => ?_, finiteDerivationImage_eq_none_iff,
    distinct_isSetOf⟩
  · have hinputs : ∀ input, input ∈ references (captured declarations text) ↔
        ∃ token ∈ finditer 0 0 text, referenceOf declarations token.name = input := by
      intro input
      rw [captured, references_segmentsOf, List.mem_map]
    simp only [capture_eq_ok_some_iff]
    constructor
    · rintro ⟨_, ⟨hcaptured, rfl⟩, hresolve⟩
      obtain ⟨value, hvalue, rfl⟩ := resolve_eq_ok_iff.mp hresolve
      refine ⟨hcaptured, fun name => value [name], fun token hmem => ?_,
        rendered_captured declarations value text⟩
      obtain ⟨input, hinput, hparameter⟩ := exists_input ((hinputs _).mpr ⟨token, hmem, rfl⟩)
      obtain ⟨other, -, hother⟩ := (hinputs input).mp (mem_references_of_input hinput)
      have hbound := hvalue input hinput
      rw [← hother, referenceOf_parameter, referenceOf_parameter, List.cons.injEq] at hparameter
      rw [← hother, referenceOf_parameter, hparameter.1] at hbound
      exact hbound
    · rintro ⟨hcaptured, value, hvalue, rfl⟩
      refine ⟨_, ⟨hcaptured, rfl⟩, resolve_eq_ok_iff.mpr
        ⟨fun parameter => value (parameter.headD []), fun input hinput => ?_,
          (rendered_captured declarations (fun parameter => value (parameter.headD []))
            text).symm⟩⟩
      obtain ⟨token, hmem, rfl⟩ := (hinputs input).mp (mem_references_of_input hinput)
      rw [referenceOf_parameter]
      exact hvalue token hmem
  · rw [finiteDerivationImage_eq_some_iff]
    refine exists_congr fun identity => exists_congr fun input => and_congr_right fun h =>
      and_congr_right fun _ => and_congr_right fun _ => ?_
    constructor
    · intro himage
      exact ⟨_, fun member hmember bindings hbound => resolve_member h hmember hbound, himage⟩
    · rintro ⟨value, hresolve, himage⟩
      have hvalue : ∀ member ∈ input.allowedValues,
          value member = rendered (fun _ => member) derivation.segments := by
        intro member hmember
        have hbound := hresolve member hmember (fun _ => some member) rfl
        rw [resolve_member h hmember rfl] at hbound
        exact (Except.ok.inj hbound).symm
      rw [List.map_congr_left fun member hmember => by rw [← hvalue member hmember]]
      refine ⟨fun member hmember => ?_, himage.2⟩
      rw [← hvalue member hmember]
      exact himage.1 member hmember

/-- A text that is the whole reference to a finite domain has no derivation, and two finite
inputs have no image. -/
theorem parameterDerivation_refusals :
    let mode : Variable := ⟨.string, [.str ['b']], by decide⟩
    captureParameterDerivation "/nodes/web/runtime/image".toList (some "${mode}".toList)
        (Dict.empty.set "mode".toList mode) = .ok none ∧
      ∃ derivation, captureParameterDerivation "/nodes/web/runtime/image".toList
          (some "${mode}-${size}".toList)
          ((Dict.empty.set "mode".toList mode).set "size".toList mode) = .ok (some derivation) ∧
        finiteDerivationImage ⟨fun _ => true, 1024, 65536⟩ id derivation =
          .error (valueError "multi-input finite images are not representable") := by
  refine ⟨by decide +kernel, ⟨"/nodes/web/runtime/image".toList,
    [.parameter ⟨["mode".toList], .string, [.str ['b']], by decide⟩, .literal ['-'],
      .parameter ⟨["size".toList], .string, [.str ['b']], by decide⟩]⟩, ?_, ?_⟩
  · decide +kernel
  · decide +kernel

end Raes.Parameters
