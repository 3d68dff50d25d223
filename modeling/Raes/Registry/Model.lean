import Raes.Contracts.Addressing
import Raes.Json
import Raes.Lib.Dict
import Raes.Lib.SortBy
import Mathlib.Data.String.Basic

/-!
# Modules, locks and what resolution reads

The data of `raes/module_registry`: import declarations and module descriptors
(`_module_declarations.py`), lock records, trust policy and resolved modules
(`models.py`), and version matching (`_digests.py`).  The file system, the
registry, the digest and the decoders are a `World`, since resolution may rely on
nothing that they answer.
-/

namespace Raes.Registry

open Contracts

/-- The `SDLImportErrorCode`s that resolution raises. -/
inductive ImportErrorCode where
  | sourceRefused | descriptorMissing | localDisabled | registryUntrusted | versionMismatch
  | parameterRefused | digestMissing | digestInvalid | digestMismatch | lockMissing | lockInvalid
  | lockRecordMissing | lockAmbiguous | lockMismatch | cycle | budgetExceeded
  deriving DecidableEq

/-- An `SDLImportError` with its code, or another `SDLParseError`. -/
inductive ResolutionError where
  | importError (code : ImportErrorCode) (message : String)
  | parseError (message : String)
  deriving DecidableEq

abbrev Resolution (α : Type) : Type := Except ResolutionError α

def refuse (condition : Prop) [Decidable condition] (error : ResolutionError) : Resolution Unit :=
  if condition then .error error else .ok ()

@[simp] theorem refuse_eq_ok_iff (condition : Prop) [Decidable condition]
    (error : ResolutionError) (u : Unit) : refuse condition error = .ok u ↔ ¬ condition := by
  by_cases h : condition
  · simp [refuse, h]
  · simp [refuse, h]

/-- `text.startswith(start)` -/
def startsWith (start text : String) : Bool := start.toList.isPrefixOf text.toList

/-- `text.removeprefix(start)` -/
def removePrefix (start text : String) : String :=
  if startsWith start text then String.ofList (text.toList.drop start.toList.length) else text

/-- `first or second` -/
def orText (first second : String) : String := if first = "" then second else first

/-- The texts before and after the first occurrence of a separator. -/
def splitOnce (separator : List Char) : List Char → Option (List Char × List Char)
  | [] => if separator = [] then some ([], []) else none
  | c :: rest =>
    if separator.isPrefixOf (c :: rest) then some ([], (c :: rest).drop separator.length)
    else (splitOnce separator rest).map fun parts => (c :: parts.1, parts.2)

/-- `str.isspace` of one character -/
def isPySpace (c : Char) : Bool :=
  (9 ≤ c.toNat && c.toNat ≤ 13) || (28 ≤ c.toNat && c.toNat ≤ 32) ||
    (8192 ≤ c.toNat && c.toNat ≤ 8202) ||
    [133, 160, 5760, 8232, 8233, 8239, 8287, 12288].contains c.toNat

/-- `text.strip()` -/
def strip (text : String) : String :=
  String.ofList (((text.toList.dropWhile isPySpace).reverse.dropWhile isPySpace).reverse)

/-- What `packaging` answers about versions and specifiers. -/
structure Packaging where
  /-- `SpecifierSet(spec)` does not raise -/
  isSpecifier : String → Bool
  /-- `Version(text)` does not raise -/
  isVersion : String → Bool
  /-- `Version(text) in SpecifierSet(spec)` -/
  inSpecifier : (spec text : String) → Bool
  /-- The tag of `max((Version(tag), tag))` over tags that are versions -/
  latest : List String → Option String

/-- `_normalize_exact_or_range`, before the specifier is built. -/
def normalizeExactOrRange (version : String) : Option String :=
  let value := strip (orText version "*")
  if value = "" ∨ value = "*" then none
  else if value.toList.any ("<>!=~".toList.contains ·) then some value
  else some ("==" ++ value)

variable (packaging : Packaging)

def satisfiesVersion (actual requested : String) : Bool :=
  match normalizeExactOrRange requested with
  | none => true
  | some spec =>
    if packaging.isVersion actual then packaging.inSpecifier spec actual else actual = requested

def selectTag (tags : List String) (requested : String) : Resolution String :=
  match normalizeExactOrRange requested with
  | none =>
    match packaging.latest (tags.filter packaging.isVersion) with
    | some tag => .ok tag
    | none =>
      match tags.max? with
      | some tag => .ok tag
      | none => .error (.parseError "OCI module has no published tags")
  | some spec =>
    match packaging.latest (tags.filter fun tag =>
        packaging.isVersion tag && packaging.inSpecifier spec tag) with
    | some tag => .ok tag
    | none =>
      .error (.parseError ("No OCI module tag satisfies requested version '" ++ requested ++ "'"))

structure ModuleDescriptor where
  (id version : String)
  parameters : List String
  exports : Dict String (List String)
  description : String

/-- An `ImportDecl` that its validators accepted. -/
structure ImportDecl where
  (source path : String)
  «namespace» : String
  version : String
  parameters : Dict String Json
  digest : String
  sourced : source ≠ "" ∨ path ≠ ""
  exclusive : source = "" ∨ path = ""
  named : isPortableIdentifier «namespace» = true
  portable : ∀ name ∈ parameters.keys, isPortableIdentifier name = true

def ImportDecl.normalizedSource (decl : ImportDecl) : String :=
  if decl.source ≠ "" then decl.source else "local:" ++ decl.path

theorem ImportDecl.namespace_ne (decl : ImportDecl) : decl.namespace ≠ "" := by
  intro h
  have hnamed := decl.named
  rw [h] at hnamed
  exact absurd hnamed (by decide)

/-- `_validate_version_constraint` -/
def acceptsVersion (version : String) : Bool :=
  match normalizeExactOrRange version with
  | none => true
  | some spec => packaging.isSpecifier spec

/-- `ImportDecl(source=…)`; nothing stands for the `ValidationError`. -/
def importDecl (source «namespace» version : String)
    (parameters : Dict String Json) (digest : String) : Option ImportDecl :=
  if h : source ≠ "" ∧ isPortableIdentifier «namespace» = true ∧
      (∀ name ∈ parameters.keys, isPortableIdentifier name = true) ∧
      acceptsVersion packaging version = true then
    some ⟨source, "", «namespace», version, parameters, digest, .inl h.1, .inr rfl, h.2.1, h.2.2.1⟩
  else none

structure LockRecord where
  source : String
  «namespace» : String
  (requestedVersion resolvedSource moduleId moduleVersion manifestDigest contentDigest : String)
  (exportHash signerId : String)
  deriving DecidableEq

structure Lockfile where
  imports : List LockRecord
  deriving DecidableEq

def Lockfile.lockedRecord (lockfile : Lockfile) (lockedRef : String) : Option LockRecord :=
  lockfile.imports.find? fun record => lockedRef = record.resolvedSource ∨ lockedRef = record.source

structure RegistryTrustPolicy where
  requireSignatures : Bool
  trustedSigners : Dict String String
  allowInsecureHttp : Bool

structure TrustPolicy where
  allowUnsignedLocalSources : Bool
  registries : Dict String RegistryTrustPolicy

abbrev Bytes : Type := List UInt8

structure SDLSourceDocument where
  text : String
  rawBytes : Bytes

/-- Sources that were read before: supplied ones, or a verified module cache. -/
structure SourceBundle where
  cacheRoot : String
  resolve : (baseDir relative : String) → Resolution (String × SDLSourceDocument)

structure ResolvedModule where
  importDecl : ImportDecl
  moduleDescriptor : ModuleDescriptor
  rootFile : String
  sourceDocument : SDLSourceDocument
  (resolvedSource manifestDigest contentDigest exportHash signerId : String)
  verifiedSources : Option SourceBundle

/-- What is requested of a repository, under `/v2/` and its quoted name. -/
inductive RegistryRequest where
  /-- `tags/list` -/
  | tags
  /-- `manifests/` and a quoted reference -/
  | manifest (reference : String)
  /-- `blobs/` and a quoted digest -/
  | blob (digest : String)
  deriving DecidableEq

/-- What resolution reads and calls.  Nothing is known of it but that digests
do not collide. -/
structure World where
  /-- `sha256_digest` -/
  digest : Bytes → String
  digest_injective : Function.Injective digest
  /-- `_descriptor_digest` -/
  descriptorDigest : Dict String (List String) → String
  /-- `repr` of a text -/
  repr : String → String
  /-- `str` of a value that is not a text -/
  str : Json → String
  /-- `_read_unverified_local_import` -/
  readLocal : (baseDir relative : String) → Resolution (String × SDLSourceDocument)
  /-- The path of a local module relative to its importer -/
  localIdentity : (importPath baseDir : String) → (lexical : Bool) → String
  /-- The module of the scenario that a document is normalized to and validated as -/
  scenarioModule : SDLSourceDocument → Resolution (Option ModuleDescriptor)
  /-- `_json_request` -/
  jsonRequest : (base repository : String) → RegistryRequest → Resolution Json
  /-- `_bytes_request` -/
  bytesRequest : (base repository : String) → RegistryRequest → Resolution Bytes
  /-- `_decode_json_object` -/
  decodeJsonObject : Bytes → (context : String) → Resolution Json
  /-- `ModuleDescriptor.model_validate`; nothing stands for the `ValidationError` -/
  descriptorModel : Json → Option ModuleDescriptor
  /-- `_verify_signatures` -/
  verifySignatures : List Json → RegistryTrustPolicy → ModuleDescriptor →
    (contentDigest rootFile : String) → Resolution String
  /-- `_extract_bundle_to_cache` -/
  extractBundle : Bytes → (manifestDigest contentDigest rootFile baseDir : String) →
    Resolution SourceBundle

/-- `_ResolutionContext` -/
structure Context where
  baseDir : String
  lockfile : Option Lockfile
  trustPolicy : TrustPolicy
  maxCompositionDepth : ℕ
  verifiedSources : Option SourceBundle
  registryBaseDir : Option String
  localSourcesOnly : Bool
  suppliedSources : Option SourceBundle
  requestedSource : String

end Raes.Registry
