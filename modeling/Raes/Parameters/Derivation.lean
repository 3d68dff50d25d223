import Mathlib.Data.Rat.Defs
import Raes.Contracts.JsonPointer
import Raes.Lib.Dict
import Raes.Lib.ExceptList

/-!
# Parameter derivations

`raes/parameter_derivations.py`: an authored string is captured as literal and
parameter segments, which are resolved again under the bindings of its variables, and
the image of a derivation over the finite domain of its input.  A text is the list of
its characters.
-/

namespace Raes.Parameters

open PyError

abbrev Text := List Char

inductive VariableType where
  | string
  | integer
  | boolean
  | number
  deriving DecidableEq, Repr

/-- A JSON scalar.  A `float` is its number and its `str`, because `-0.0` is equal to `0.0`. -/
inductive Scalar where
  | str (text : Text)
  | int (value : ℤ)
  | float (value : ℚ) (text : Text)
  | bool (value : Bool)
  deriving DecidableEq

namespace Scalar

/-- `str` -/
def render : Scalar → Text
  | .str text => text
  | .int value => (toString value).toList
  | .float _ text => text
  | .bool true => "True".toList
  | .bool false => "False".toList

/-- The number that a scalar compares as: a `bool` is an `int`. -/
def number? : Scalar → Option ℚ
  | .str _ => none
  | .int value => some value
  | .float value _ => some value
  | .bool value => some (if value then 1 else 0)

/-- `==` -/
def equals : Scalar → Scalar → Bool
  | .str a, .str b => a = b
  | .str _, _ => false
  | a, b => a.number? = b.number?

/-- One type and equal values: the key of `finite_derivation_image`. -/
def Same : Scalar → Scalar → Prop
  | .str a, .str b => a = b
  | .int a, .int b => a = b
  | .float a _, .float b _ => a = b
  | .bool a, .bool b => a = b
  | _, _ => False

instance decidableSame : ∀ a b, Decidable (Same a b)
  | .str a, .str b => inferInstanceAs (Decidable (a = b))
  | .int a, .int b => inferInstanceAs (Decidable (a = b))
  | .float a _, .float b _ => inferInstanceAs (Decidable (a = b))
  | .bool a, .bool b => inferInstanceAs (Decidable (a = b))
  | .str _, .int _ | .str _, .float _ _ | .str _, .bool _ | .int _, .str _ | .int _, .float _ _
  | .int _, .bool _ | .float _ _, .str _ | .float _ _, .int _ | .float _ _, .bool _
  | .bool _, .str _ | .bool _, .int _ | .bool _, .float _ _ => isFalse id

end Scalar

/-- `json_value_equal` -/
def jsonValueEqual : Scalar → Scalar → Bool
  | .bool a, .bool b => a = b
  | .bool _, _ | _, .bool _ => false
  | a, b => a.equals b

def matchesVariableType : Scalar → VariableType → Bool
  | .str _, .string => true
  | .int _, .integer => true
  | .bool _, .boolean => true
  | .int _, .number | .float _ _, .number => true
  | _, _ => false

structure Variable where
  variableType : VariableType
  allowedValues : List Scalar
  typed : ∀ value ∈ allowedValues, matchesVariableType value variableType = true

def isIdentifierStart (c : Char) : Bool := ('a' ≤ c ∧ c ≤ 'z') ∨ ('0' ≤ c ∧ c ≤ '9')

def isIdentifierPart (c : Char) : Bool := isIdentifierStart c ∨ c = '_' ∨ c = '-'

/-- `[a-z0-9][a-z0-9_-]{0,63}` -/
def isPortableIdentifier : Text → Bool
  | [] => false
  | c :: rest => isIdentifierStart c && rest.length ≤ 63 && rest.all isIdentifierPart

/-- Namespace segments, each an identifier or `__private`, and a local identifier. -/
def isTokenName (name : Text) : Bool :=
  let parts := name.splitOn '.'
  isPortableIdentifier (parts.getLast?.getD []) &&
    parts.dropLast.all fun part => isPortableIdentifier part || part = "__private".toList

/-- `VARIABLE_TOKEN_RE` at the start of a text: the name and the length of the token.  The
closing brace is no character of a name, so the name is the longest run of such characters. -/
def tokenAt : Text → Option (Text × ℕ)
  | '$' :: '{' :: rest =>
    let name := rest.takeWhile fun c => isIdentifierPart c || c = '.'
    match rest.drop name.length with
    | '}' :: _ => if isTokenName name then some (name, name.length + 3) else none
    | _ => none
  | _ => none

structure TokenMatch where
  (start stop : ℕ)
  name : Text
  deriving DecidableEq

/-- `VARIABLE_TOKEN_RE.finditer`, from a position and past the characters of the match
before it. -/
def finditer : ℕ → ℕ → Text → List TokenMatch
  | _, _, [] => []
  | skip + 1, position, _ :: rest => finditer skip (position + 1) rest
  | 0, position, c :: rest =>
    match tokenAt (c :: rest) with
    | some (name, length) =>
      ⟨position, position + length, name⟩ :: finditer (length - 1) (position + 1) rest
    | none => finditer 0 (position + 1) rest

def containsVariableToken (text : Text) : Bool := finditer 0 0 text ≠ []

/-- `ParameterReferenceSegment`, whose alternatives match the declared input type. -/
structure Reference where
  parameter : List Text
  variableType : VariableType
  allowedValues : List Scalar
  typed : ∀ value ∈ allowedValues, matchesVariableType value variableType = true
  deriving DecidableEq

inductive Segment where
  | literal (value : Text)
  | parameter (reference : Reference)
  deriving DecidableEq

def references (segments : List Segment) : List Reference :=
  segments.filterMap fun
    | .literal _ => none
    | .parameter reference => some reference

def literals (segments : List Segment) : List Text :=
  segments.filterMap fun
    | .literal value => some value
    | .parameter _ => none

/-- `ParameterLiteralSegment(...)` -/
def literalSegment (value : Text) : Except PyError Segment := do
  refuseIf (value.length > 4096) (valueError "String should have at most 4096 characters")
  return .literal value

/-- The parameter of a `ParameterReferenceSegment`. -/
def referenceSegment (reference : Reference) : Except PyError Segment := do
  refuseIf (reference.parameter = [] ∨ reference.parameter.length > 32 ∨
      ∃ part ∈ reference.parameter, ¬ isPortableIdentifier part)
    (valueError "parameter must be a tuple of portable identifiers")
  return .parameter reference

/-- Every `~` of a pointer starts an escape. -/
def escapesValid : Text → Bool
  | [] => true
  | '~' :: c :: rest => (c = '0' || c = '1') && escapesValid rest
  | ['~'] => false
  | _ :: rest => escapesValid rest

/-- `QualifiedName.parse` -/
def validateQualifiedName (value : Text) : Except PyError Unit := do
  let parts := value.splitOn '.'
  refuseIf (¬ isPortableIdentifier (parts.getLast?.getD []))
    (valueError "qualified SDL name must end with a portable local identifier")
  refuseIf (∃ part ∈ parts.dropLast, part ≠ "__private".toList ∧ ¬ isPortableIdentifier part)
    (valueError "qualified SDL namespace contains an invalid segment")
  refuseIf (value.length > 2048) (valueError "qualified SDL name exceeds the maximum length")

/-- The pattern `^/nodes/[^/]+/runtime/` of a field pointer. -/
def isRuntimePointer (pointer : Text) : Bool :=
  match pointer.splitOn '/' with
  | [] :: nodes :: name :: runtime :: _ :: _ =>
    nodes = "nodes".toList && name ≠ [] && runtime = "runtime".toList
  | _ => false

def validateFieldPointer (pointer : Text) : Except PyError Unit := do
  refuseIf (pointer.length > 4096 ∨ ¬ isRuntimePointer pointer)
    (valueError "String should match pattern '^/nodes/[^/]+/runtime/'")
  refuseIf (¬ escapesValid pointer)
    (valueError "derivation field_pointer must be an RFC 6901 JSON Pointer")
  validateQualifiedName
    (replaceEscape '0' '~' (replaceEscape '1' '/' ((pointer.splitOn '/').getD 2 [])))

/-- `==` of two references -/
def Reference.equals (a b : Reference) : Bool :=
  a.parameter = b.parameter && a.variableType = b.variableType &&
    a.allowedValues.length = b.allowedValues.length &&
    (a.allowedValues.zip b.allowedValues).all fun pair => pair.1.equals pair.2

/-- Each reference is equal to the first one of its parameter. -/
def referencesAgree (segments : List Segment) : Bool :=
  (references segments).all fun reference =>
    ((references segments).find? (·.parameter = reference.parameter)).all (·.equals reference)

structure ParameterDerivation where
  fieldPointer : Text
  segments : List Segment
  deriving DecidableEq

/-- `ParameterDerivation(...)` -/
def parameterDerivation (fieldPointer : Text) (segments : List Segment) :
    Except PyError ParameterDerivation := do
  refuseIf (segments = [] ∨ segments.length > 128)
    (valueError "segments should have at least 1 and at most 128 items")
  validateFieldPointer fieldPointer
  refuseIf (references segments = []) (valueError "parameter derivation must reference an input")
  refuseIf (¬ referencesAgree segments)
    (valueError "derivation references must agree on the input declaration")
  refuseIf (∃ value ∈ literals segments, containsVariableToken value)
    (valueError "derivation literals must not contain unresolved tokens")
  return ⟨fieldPointer, segments⟩

/-- `_is_whole_finite_reference` -/
def isWholeFiniteReference (text : Text) (declarations : Dict Text Variable) : Bool :=
  match tokenAt text with
  | some (name, length) => length = text.length &&
      (declarations.get? name).any fun declaration => declaration.allowedValues ≠ []
  | none => false

def slice (text : Text) (start stop : ℕ) : Text := (text.drop start).take (stop - start)

/-- The literal segment of a slice, when it is not empty. -/
def appendLiteral (text : Text) (segments : List Segment) (start stop : ℕ) :
    Except PyError (List Segment) :=
  if start < stop then do
    let segment ← literalSegment (slice text start stop)
    return segments ++ [segment]
  else .ok segments

/-- The turn of the capture for one match, with the segments and the offset reached. -/
def appendMatch (declarations : Dict Text Variable) (text : Text) (state : List Segment × ℕ)
    (found : TokenMatch) : Except PyError (List Segment × ℕ) := do
  let segments ← appendLiteral text state.1 state.2 found.start
  match declarations.get? found.name with
  | none => .error (.keyError (String.ofList found.name))
  | some declaration => do
    let segment ← referenceSegment
      ⟨[found.name], declaration.variableType, declaration.allowedValues, declaration.typed⟩
    return (segments ++ [segment], found.stop)

def captureParameterDerivation (fieldPointer : Text) (value : Option Text)
    (declarations : Dict Text Variable) : Except PyError (Option ParameterDerivation) :=
  match value with
  | none => .ok none
  | some text =>
    let found := finditer 0 0 text
    if found = [] ∨ (∃ token ∈ found, declarations.get? token.name = none) ∨
        isWholeFiniteReference text declarations then .ok none
    else do
      let state ← found.foldlM (appendMatch declarations text) ([], 0)
      let segments ← appendLiteral text state.1 state.2 text.length
      let derivation ← parameterDerivation fieldPointer segments
      return some derivation

def inputs (segments : List Segment) : Dict (List Text) Reference :=
  (references segments).foldl (fun inputs reference => inputs.set reference.parameter reference)
    Dict.empty

def checkBinding (bindings : List Text → Option Scalar) (reference : Reference) :
    Except PyError Unit :=
  match bindings reference.parameter with
  | none => .error (valueError "parameter derivation references an unresolved input")
  | some value => do
    refuseIf (¬ matchesVariableType value reference.variableType)
      (valueError "parameter derivation binding does not match its declared type")
    refuseIf (reference.allowedValues ≠ [] ∧
        ¬ reference.allowedValues.any fun member => jsonValueEqual value member)
      (valueError "parameter derivation binding is outside its input domain")

def segmentValue (bindings : List Text → Option Scalar) : Segment → Except PyError Scalar
  | .literal value => .ok (.str value)
  | .parameter reference =>
    match bindings reference.parameter with
    | some value => .ok value
    | none => .error (.keyError "parameter")

/-- `_render` -/
def renderSegments (bindings : List Text → Option Scalar) (segments : List Segment) :
    Except PyError Scalar := do
  let values ← segments.mapM (segmentValue bindings)
  return match segments, values with
    | [.parameter _], [value] => value
    | _, _ => .str (values.flatMap Scalar.render)

def ParameterDerivation.resolve (derivation : ParameterDerivation)
    (bindings : List Text → Option Scalar) : Except PyError Scalar := do
  forM (inputs derivation.segments).values (checkBinding bindings)
  renderSegments bindings derivation.segments

/-- What a finite image is bounded by: whether `validate_realization_value` finds a value
conformant, and the limits that are read. -/
structure ImageLimits where
  conformant : Scalar → Bool
  (maxMembers maxTotalScalarBytes : ℕ)

def utf8Length (text : Text) : ℕ := (String.ofList text).utf8ByteSize

variable (limits : ImageLimits) (normalize : Scalar → Scalar)

/-- `_render_bounded_alternative`, with the normalisation of the scenario. -/
def renderBoundedAlternative (segments : List Segment) (identity : List Text)
    (value : Scalar) : Except PyError Scalar := do
  refuseIf (limits.conformant value = false)
    (valueError "finite derivation input exceeds the scalar budget")
  let rendered ← renderSegments (fun name => if name = identity then some value else none) segments
  refuseIf (limits.conformant (normalize rendered) = false)
    (valueError "finite derivation output exceeds the scalar budget")
  return normalize rendered

/-- The turn of the image for one allowed value: the values kept and their total bytes. -/
def addAlternative (segments : List Segment)
    (identity : List Text) (state : List Scalar × ℕ) (value : Scalar) :
    Except PyError (List Scalar × ℕ) := do
  let rendered ← renderBoundedAlternative limits normalize segments identity value
  if ∃ seen ∈ state.1, seen.Same rendered then return state
  else if state.2 + utf8Length rendered.render > limits.maxTotalScalarBytes then
    .error (valueError "finite derivation image exceeds the total scalar budget")
  else return (state.1 ++ [rendered], state.2 + utf8Length rendered.render)

def finiteDerivationImage (derivation : ParameterDerivation) : Except PyError (Option
    (List Scalar)) :=
  if ∃ reference ∈ (inputs derivation.segments).values, reference.allowedValues = [] then .ok none
  else
    match (inputs derivation.segments).entries with
    | [(identity, reference)] => do
      refuseIf (reference.allowedValues.length > limits.maxMembers)
        (valueError "finite derivation image exceeds the member budget")
      let state ← reference.allowedValues.foldlM
        (addAlternative limits normalize derivation.segments identity) ([], 0)
      return some state.1
    | _ => .error (valueError "multi-input finite images are not representable")

end Raes.Parameters
