import Raes.Errors
import Raes.Json
import Raes.Lib.Binary64

/-!
# Version predicates

The bounded version predicates of `software_versions.py`.  The orders of Debian
and RPM versions come from a package and are a parameter.
-/

namespace Raes

/-- The exact identity of one revision of a semantic contract. -/
structure SemanticContract where
  (authority contractId revision digest : String)
  deriving DecidableEq

/-- The version orders of the `univers` package. -/
structure VersionOrders where
  (compareDebian compareRpm : String → String → ℤ)

inductive VersionMembership where
  | conformant | nonconformant | unresolved | unsupported
  deriving DecidableEq

structure VersionDomain where
  relation : SemanticContract
  (lower upper : Option String)
  (lowerClosed upperClosed : Bool)
  deriving DecidableEq

/-- The text before the first occurrence of a character, and the text after it. -/
def cutAt (c : Char) : List Char → List Char × Option (List Char)
  | [] => ([], none)
  | x :: rest =>
    if x = c then ([], some rest) else ((x :: (cutAt c rest).1), (cutAt c rest).2)

/-- `0|[1-9]\d{0,8}` -/
def isTripletPart (part : List Char) : Bool :=
  part.all Char.isDigit && (part = ['0'] || part.head?.any (· ≠ '0') && part.length ≤ 9)

/-- `_TRIPLET` -/
def matchesTriplet (text : String) : Bool :=
  match cutAt '.' text.toList with
  | (major, some rest) =>
    match cutAt '.' rest with
    | (minor, some patch) => isTripletPart major && isTripletPart minor && isTripletPart patch
    | _ => false
  | _ => false

def afterEpoch (text : List Char) : Option (List Char) :=
  match cutAt ':' text with
  | (_, none) => some text
  | (epoch, some rest) => if epoch ≠ [] ∧ epoch.all Char.isDigit then some rest else none

def isDebianChar (c : Char) : Bool := c.isAlphanum || c ∈ ['.', '+', '~']

/-- `_DEBIAN` -/
def matchesDebian (text : String) : Bool :=
  match afterEpoch text.toList with
  | none => false
  | some version =>
    let (upstream, revision) := cutAt '-' version
    upstream.head?.any Char.isDigit && upstream.all isDebianChar &&
      match revision with
      | none => true
      | some revision =>
        revision.all (fun c => isDebianChar c || c = '-') && revision.getLast?.any isDebianChar

def isRpmChar (c : Char) : Bool := c.isAlphanum || c ∈ ['.', '+', '_', '~', '^']

/-- `_RPM` -/
def matchesRpm (text : String) : Bool :=
  match afterEpoch text.toList with
  | none => false
  | some version =>
    let (upstream, release) := cutAt '-' version
    upstream.head?.any Char.isAlphanum && upstream.all isRpmChar &&
      match release with
      | none => true
      | some release => release ≠ [] && release.all isRpmChar

/-- `int` of a text of digits. -/
def versionNumber (digits : List Char) : ℕ :=
  digits.foldl (fun value c => 10 * value + (c.toNat - '0'.toNat)) 0

def tripletParts (text : String) : List ℕ :=
  match cutAt '.' text.toList with
  | (major, none) => [versionNumber major]
  | (major, some rest) =>
    match cutAt '.' rest with
    | (minor, none) => [versionNumber major, versionNumber minor]
    | (minor, some patch) => [versionNumber major, versionNumber minor, versionNumber patch]

def tripletCompare (left right : String) : ℤ :=
  (if tripletParts left > tripletParts right then 1 else 0) -
    (if tripletParts left < tripletParts right then 1 else 0)

/-- An installed relation: its pattern and its order. -/
structure VersionComparator where
  accepts : String → Bool
  compare : String → String → ℤ

def versionAuthority : String := "https://openrae.org/semantics/versions"

/-- `version_relation`, with the digest of the canonical text of each relation. -/
def versionRelation : String → Option SemanticContract
  | "numeric-triplet" => some ⟨versionAuthority, "numeric-triplet", "1",
      "sha256:74c35a62ea30e219f29b84c8ff14f7fd187921b1f1550f81040205bca4169356"⟩
  | "debian" => some ⟨versionAuthority, "debian", "1",
      "sha256:de77a35557131a72ab18709ce53f86bd8f07f59f122a3cecf96201192df780f8"⟩
  | "rpm" => some ⟨versionAuthority, "rpm", "1",
      "sha256:2daff91c374f99665a77498d5f7d9e5d294956cdab20680ab19d6f0e2bb279d9"⟩
  | _ => none

variable (orders : VersionOrders)

/-- `_COMPARATORS` -/
def installedComparator : String → Option VersionComparator
  | "numeric-triplet" => some ⟨matchesTriplet, tripletCompare⟩
  | "debian" => some ⟨matchesDebian, orders.compareDebian⟩
  | "rpm" => some ⟨matchesRpm, orders.compareRpm⟩
  | _ => none

def comparator (relation : SemanticContract) : Option VersionComparator :=
  if versionRelation relation.contractId = some relation then
    installedComparator orders relation.contractId
  else none

def satisfiesBound (ordering : ℤ) (closed : Bool) : Bool :=
  ordering > 0 || (ordering = 0 && closed)

def withinBounds (value : String) (domain : VersionDomain) (compare : String → String → ℤ) :
    Bool :=
  let lower := match domain.lower with
    | none => 1
    | some bound => compare value bound
  let upper := match domain.upper with
    | none => -1
    | some bound => compare value bound
  satisfiesBound lower domain.lowerClosed && satisfiesBound (-upper) domain.upperClosed

def versionMembership (value : Json) (domain : VersionDomain) : VersionMembership :=
  match comparator orders domain.relation with
  | none => .unsupported
  | some entry =>
    match value with
    | .str text =>
      if text.length > 256 ∨ entry.accepts text = false then .unresolved
      else if withinBounds text domain entry.compare then .conformant
      else .nonconformant
    | _ => .unresolved

def VersionDomain.Valid (domain : VersionDomain) : Prop :=
  (domain.lower ≠ none ∨ domain.upper ≠ none) ∧
    (∀ bound, domain.lower = some bound ∨ domain.upper = some bound →
      0 < bound.length ∧ bound.length ≤ 256) ∧
    ∀ entry, comparator orders domain.relation = some entry →
      (∀ bound, domain.lower = some bound ∨ domain.upper = some bound →
        entry.accepts bound = true) ∧
      ∀ lower upper, domain.lower = some lower → domain.upper = some upper →
        satisfiesBound (-entry.compare lower upper)
          (domain.lowerClosed && domain.upperClosed) = true

end Raes

/-!
# Bounded value domains

The value domains of `bounded_domains.py`, which scenario families and
realization constraints share, and membership of a JSON value in one of them.
-/

namespace Raes

open PyError

inductive NumericType where
  | integer | number
  deriving DecidableEq

inductive DomainScalar where
  | bool (value : Bool)
  | int (value : ℤ)
  | float (value : ℚ)
  | str (value : String)
  deriving DecidableEq

def DomainScalar.toJson : DomainScalar → Json
  | .bool value => .bool value
  | .int value => .int value
  | .float value => .float value
  | .str value => .str value

structure NumericIntervalDomain where
  numericType : NumericType
  (lower upper : ℚ)
  (lowerClosed upperClosed : Bool)
  deriving DecidableEq

inductive DomainDescriptor where
  | exact (value : DomainScalar)
  | enum (values : List DomainScalar)
  | boolean (value : Option Bool)
  | null
  | version (domain : VersionDomain)
  | numericInterval (domain : NumericIntervalDomain)
  | governedReference (authority : String) (allowedRefs : List String)
  | record (fields : List (String × String)) (extra : Bool)
  deriving DecidableEq

def NumericIntervalDomain.Valid (domain : NumericIntervalDomain) : Prop :=
  (domain.numericType = .integer → domain.lower.den = 1 ∧ domain.upper.den = 1) ∧
    domain.lower ≤ domain.upper ∧
    (domain.lower = domain.upper → domain.lowerClosed = true ∧ domain.upperClosed = true)

def DomainDescriptor.Valid (orders : VersionOrders) : DomainDescriptor → Prop
  | .exact _ => True
  | .enum values => values ≠ [] ∧ values.Nodup
  | .boolean _ => True
  | .null => True
  | .version domain => domain.Valid orders
  | .numericInterval domain => domain.Valid
  | .governedReference authority allowedRefs =>
    authority ≠ "" ∧ allowedRefs ≠ [] ∧ (∀ ref ∈ allowedRefs, ref ≠ "") ∧ allowedRefs.Nodup
  | .record fields _ =>
    fields ≠ [] ∧ (fields.map Prod.fst).Nodup ∧ ∀ f ∈ fields, f.1 ≠ "" ∧ f.2 ≠ ""

def scalarMatchesNumericType : Json → NumericType → Bool
  | .int _, _ => true
  | .float _, .number => true
  | _, _ => false

def scalarEq (value : Json) (member : DomainScalar) : Bool := value = member.toJson

/-- `float(value)` -/
def toFloat : Json → Except PyError ℚ
  | .float value => .ok value
  | .int value =>
    match floatOfInt value with
    | some value => .ok value
    | none => .error (overflowError "int too large to convert to float")
  | _ => .error (typeError "float() argument must be a string or a real number")

def intervalMember (value : Json) (descriptor : NumericIntervalDomain) : Except PyError Bool := do
  if scalarMatchesNumericType value descriptor.numericType = false then
    return false
  let numeric ← toFloat value
  let lowerOk := if descriptor.lowerClosed then decide (descriptor.lower ≤ numeric)
    else decide (descriptor.lower < numeric)
  let upperOk := if descriptor.upperClosed then decide (numeric ≤ descriptor.upper)
    else decide (numeric < descriptor.upper)
  return lowerOk && upperOk

/-- Membership of an interval is decided unless the value is an integer that has no float. -/
theorem intervalMember_ok_iff (value : Json) (descriptor : NumericIntervalDomain) :
    (∃ b, intervalMember value descriptor = .ok b) ↔
      ∀ n, value = .int n → floatOfInt n ≠ none := by
  unfold intervalMember
  cases value with
  | int n =>
    have hmatches : scalarMatchesNumericType (.int n) descriptor.numericType = true := rfl
    have hfloat : (∃ q, toFloat (.int n) = .ok q) ↔ floatOfInt n ≠ none := by
      unfold toFloat
      cases hvalue : floatOfInt n <;> simp [hvalue]
    simp only [hmatches, Bool.true_eq_false, if_false, bind_eq_ok_iff]
    constructor
    · rintro ⟨_, q, hq, _⟩ _ hn
      cases hn
      exact hfloat.mp ⟨q, hq⟩
    · intro h
      obtain ⟨q, hq⟩ := hfloat.mpr (h n rfl)
      exact ⟨_, q, hq, rfl⟩
  | float q =>
    refine iff_of_true ?_ (fun _ h => nomatch h)
    cases descriptor.numericType <;> exact ⟨_, rfl⟩
  | null | bool _ | str _ | arr _ | obj _ => exact iff_of_true ⟨false, rfl⟩ fun _ h => nomatch h

/-- Scalar membership; record products are handled by their owner. -/
def scalarInDomain (orders : VersionOrders) (value : Json) :
    DomainDescriptor → Except PyError Bool
  | .exact member => .ok (scalarEq value member)
  | .enum values => .ok (values.any (scalarEq value))
  | .boolean none => .ok (value = .bool true || value = .bool false)
  | .boolean (some member) => .ok (value = .bool member)
  | .null => .ok (value = .null)
  | .numericInterval domain => intervalMember value domain
  | .version domain => .ok (versionMembership orders value domain = .conformant)
  | .governedReference _ allowedRefs => .ok (allowedRefs.any fun ref => value = .str ref)
  | .record _ _ => .ok false

end Raes
