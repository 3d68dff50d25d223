import Raes.Errors

/-!
# Compiled addresses

`raes_contracts/addressing.py`.  The source matches an address against a
regular expression: at least two segments joined by dots, and each segment is
either `[a-z0-9][a-z0-9_-]{0,63}` or `__private`.  No character class contains
the dot, so a full match is a match of every part between the dots.
-/

namespace Raes.Contracts

def compiledAddressMaxLength : Nat := 2048

/-- `[a-z0-9]` -/
def isAddressHead (c : Char) : Bool :=
  ('a' ≤ c && c ≤ 'z') || ('0' ≤ c && c ≤ '9')

/-- `[a-z0-9_-]` -/
def isAddressTail (c : Char) : Bool :=
  isAddressHead c || c = '_' || c = '-'

def isAddressSegment (segment : List Char) : Bool :=
  match segment with
  | [] => false
  | head :: tail =>
    (isAddressHead head && tail.length ≤ 63 && tail.all isAddressTail) ||
      segment = "__private".toList

/-- The parts of a text between its dots. -/
def addressSegments : List Char → List (List Char)
  | [] => [[]]
  | c :: rest =>
    match addressSegments rest with
    | [] => [[c]]
    | segment :: segments =>
      if c = '.' then [] :: segment :: segments else (c :: segment) :: segments

/-- The test that `require_compiled_address` makes of a text. -/
def isCompiledAddress (value : String) : Bool :=
  let segments := addressSegments value.toList
  value.toList.length ≤ compiledAddressMaxLength && 2 ≤ segments.length &&
    segments.all isAddressSegment

def requireCompiledAddress (value : String) : Except PyError String :=
  if isCompiledAddress value then .ok value
  else .error (.valueError "address must be a canonical compiled address")

example : isCompiledAddress "provision.web-1.__private" = true := by decide

example : isCompiledAddress "provision..web" = false := by decide

theorem mapM_requireCompiledAddress (addresses : List String) :
    addresses.mapM requireCompiledAddress =
      if ∀ a ∈ addresses, isCompiledAddress a then .ok addresses
      else .error (.valueError "address must be a canonical compiled address") := by
  induction addresses with
  | nil => simp [pure, Except.pure]
  | cons a rest ih =>
    rw [List.mapM_cons, ih, requireCompiledAddress]
    by_cases ha : isCompiledAddress a
    · by_cases hrest : ∀ x ∈ rest, isCompiledAddress x
      · simp only [List.forall_mem_cons, ha, if_true, true_and, if_pos hrest]
        rfl
      · simp only [List.forall_mem_cons, ha, if_true, true_and, if_neg hrest]
        rfl
    · simp only [List.forall_mem_cons, ha]
      rfl

end Raes.Contracts

/-!
# Portable identifiers and qualified names

`raes_contracts/identifiers.py`.  A portable identifier is a full match of
`[a-z0-9][a-z0-9_-]{0,63}`.  A qualified name is a path of namespace segments
that ends in a portable identifier; `__private` is the one segment that is not
portable itself.
-/

namespace Raes.Contracts

def qualifiedIdentifierMaxLength : Nat := 2048

def privateNamespaceSegment : String := "__private"

def isPortableIdentifier (value : String) : Bool :=
  match value.toList with
  | [] => false
  | head :: tail => isAddressHead head && tail.length ≤ 63 && tail.all isAddressTail

/-- `value.split(".")` -/
def splitDots (value : String) : List String :=
  (addressSegments value.toList).map String.ofList

/-- `".".join(parts)` -/
def joinDots (parts : List String) : String := ".".intercalate parts

/-- The checks that `QualifiedName.__post_init__` makes of its parts. -/
def checkQualifiedParts (parts : List String) : Except PyError Unit := do
  if !(parts.getLast?.any isPortableIdentifier) then
    .error (.valueError "qualified SDL name must end with a portable local identifier")
  if !(parts.dropLast.all fun part => part = privateNamespaceSegment || isPortableIdentifier part)
  then
    .error (.valueError "qualified SDL namespace contains an invalid segment")
  if qualifiedIdentifierMaxLength < (joinDots parts).length then
    .error (.valueError "qualified SDL name exceeds the maximum length")

/-- A namespace path followed by one local symbol. -/
structure QualifiedName where
  parts : List String
  valid : checkQualifiedParts parts = .ok ()

def QualifiedName.ofParts (parts : List String) : Except PyError QualifiedName :=
  match h : checkQualifiedParts parts with
  | .ok () => .ok ⟨parts, h⟩
  | .error e => .error e

def QualifiedName.parse (value : String) : Except PyError QualifiedName :=
  QualifiedName.ofParts (splitDots value)

def QualifiedName.render (name : QualifiedName) : String := joinDots name.parts

theorem addressSegments_eq_splitOn (text : List Char) :
    addressSegments text = text.splitOn '.' := by
  induction text with
  | nil => rfl
  | cons c rest ih =>
    obtain ⟨segment, segments, hsplit⟩ :=
      List.exists_cons_of_ne_nil (List.splitOnP_ne_nil (· == '.') rest)
    rw [List.splitOn] at ih ⊢
    rw [List.splitOnP_cons_eq_if_modifyHead, addressSegments, ih, hsplit]
    by_cases hc : c = '.' <;> simp [hc]

theorem joinDots_splitDots (value : String) : joinDots (splitDots value) = value := by
  apply String.toList_injective
  rw [joinDots, String.toList_intercalate, splitDots, List.map_map, addressSegments_eq_splitOn]
  simp [Function.comp_def, List.intercalate_splitOn]

theorem splitDots_joinDots {parts : List String} (hne : parts ≠ [])
    (hdots : ∀ part ∈ parts, '.' ∉ part.toList) : splitDots (joinDots parts) = parts := by
  rw [splitDots, joinDots, String.toList_intercalate, addressSegments_eq_splitOn]
  rw [show ".".toList = ['.'] from rfl,
    List.splitOn_intercalate '.' (by simpa using hdots) (by simpa using hne)]
  simp [Function.comp_def]

theorem dot_not_mem_of_isPortableIdentifier {part : String}
    (h : isPortableIdentifier part = true) : '.' ∉ part.toList := by
  unfold isPortableIdentifier at h
  split at h
  · cases h
  · rename_i head tail htext
    rw [htext]
    simp only [Bool.and_eq_true, List.all_eq_true] at h
    rw [List.mem_cons, not_or]
    refine ⟨?_, fun hmem => absurd (h.2 _ hmem) (by decide)⟩
    rintro rfl
    exact absurd h.1.1 (by decide)

theorem splitDots_joinDots_of_valid {parts : List String}
    (h : checkQualifiedParts parts = .ok ()) : splitDots (joinDots parts) = parts := by
  cases hlast : parts.getLast?.any isPortableIdentifier with
  | false => simp [checkQualifiedParts, hlast, bind, Except.bind] at h
  | true =>
  cases hpath : parts.dropLast.all fun part =>
      part = privateNamespaceSegment || isPortableIdentifier part with
  | false =>
    simp only [checkQualifiedParts, hlast, hpath] at h
    cases h
  | true =>
  rw [Option.any_eq_true] at hlast
  obtain ⟨last, hmem, hportable⟩ := hlast
  obtain ⟨path, rfl⟩ := List.getLast?_eq_some_iff.mp hmem
  rw [List.dropLast_concat, List.all_eq_true] at hpath
  apply splitDots_joinDots (by simp)
  intro part hpart
  rcases List.mem_append.mp hpart with hpart | hpart
  · rcases Bool.or_eq_true_iff.mp (hpath part hpart) with hprivate | hportable
    · rw [of_decide_eq_true hprivate]
      decide
    · exact dot_not_mem_of_isPortableIdentifier hportable
  · rw [List.mem_singleton.mp hpart]
    exact dot_not_mem_of_isPortableIdentifier hportable

theorem QualifiedName.ofParts_eq_ok_iff {parts : List String} {name : QualifiedName} :
    QualifiedName.ofParts parts = .ok name ↔ name.parts = parts := by
  obtain ⟨nameParts, hvalid⟩ := name
  unfold ofParts
  constructor
  · intro h
    split at h
    · exact (congrArg QualifiedName.parts (Except.ok.inj h)).symm
    · cases h
  · rintro rfl
    split
    · rfl
    · rename_i herror
      rw [hvalid] at herror
      cases herror

/-- A text parses to a name exactly when the name is rendered as that text. -/
theorem QualifiedName.parse_eq_ok_iff (value : String) (name : QualifiedName) :
    QualifiedName.parse value = .ok name ↔ name.render = value := by
  rw [parse, ofParts_eq_ok_iff, render]
  constructor
  · intro h
    rw [h, joinDots_splitDots]
  · rintro rfl
    exact (splitDots_joinDots_of_valid name.valid).symm

end Raes.Contracts
