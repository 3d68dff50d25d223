import Raes.Registry.Model

/-!
# Import resolution

`module_registry/resolution.py`, with the admission of supplied imports
(`_supplied_admission.py`).  A locked import is rewritten along the lock records
that it names until its source is local or a registry, and is then resolved as
if it had been written so.
-/

namespace Raes.Registry

open Contracts ResolutionError

variable (packaging : Packaging) (world : World)

def lockRecordFor (lockfile : Option Lockfile) (decl : ImportDecl) : Option LockRecord :=
  match lockfile with
  | none => none
  | some lockfile => lockfile.imports.find? fun record =>
      record.source = decl.normalizedSource ∧ record.namespace = decl.namespace ∧
        record.requestedVersion = orText decl.version "*"

def verifyAllowedParameters (decl : ImportDecl) (descriptor : ModuleDescriptor) :
    Resolution Unit :=
  let disallowed := sortedSet (decl.parameters.keys.filter (· ∉ descriptor.parameters))
  refuse (disallowed ≠ []) (importError .parameterRefused
    ("Import parameters not allowed by module '" ++ descriptor.id ++ "': " ++
      ", ".intercalate disallowed))

def validateDigestPin (actualDigest expectedDigest source : String) : Resolution Unit :=
  refuse (expectedDigest ≠ "" ∧
      removePrefix "sha256:" actualDigest ≠ removePrefix "sha256:" expectedDigest)
    (importError .digestMismatch ("Digest mismatch for import '" ++ source ++ "': " ++
      world.repr expectedDigest ++ " != " ++ world.repr actualDigest))

/-- The pattern of a supplied pin, `sha256:[0-9a-f]{64}` -/
def isSuppliedPin (pin : String) : Bool :=
  startsWith "sha256:" pin && (removePrefix "sha256:" pin).toList.length = 64 &&
    (removePrefix "sha256:" pin).toList.all fun c =>
      ('0' ≤ c && c ≤ '9') || ('a' ≤ c && c ≤ 'f')

def requireImportPin (decl : ImportDecl) : Resolution Unit := do
  refuse (decl.digest = "")
    (importError .digestMissing "A supplied import must have a digest pin.")
  refuse (isSuppliedPin decl.digest = false) (importError .digestInvalid
    "A supplied import digest pin must be sha256: and 64 lowercase hexadecimal digits.")

def requireLockRecord (lockfile : Option Lockfile) (resolved : ResolvedModule) :
    Resolution Unit :=
  match lockfile with
  | none => .error (importError .lockMissing
      "A supplied import requires the lock beside its importing document.")
  | some lockfile =>
    let decl := resolved.importDecl
    match lockfile.imports.filter fun record =>
        (record.source, record.namespace, record.requestedVersion) =
          (decl.normalizedSource, decl.namespace, orText decl.version "*") with
    | [] => .error (importError .lockRecordMissing "No lock record matches the supplied import.")
    | [record] =>
      let descriptor := resolved.moduleDescriptor
      refuse ((record.resolvedSource, record.moduleId, record.moduleVersion, record.contentDigest,
            record.exportHash, record.manifestDigest, record.signerId) ≠
          (resolved.resolvedSource, descriptor.id, descriptor.version, resolved.contentDigest,
            resolved.exportHash, "", ""))
        (importError .lockMismatch "The lock record does not agree with the supplied import.")
    | _ => .error (importError .lockAmbiguous
        "More than one lock record matches the supplied import.")

variable (context : Context)

def readLocalImport (relative : String) : Resolution (String × SDLSourceDocument) :=
  match context.suppliedSources, context.verifiedSources with
  | some sources, _ => sources.resolve context.baseDir relative
  | none, some sources => sources.resolve context.baseDir relative
  | none, none => world.readLocal context.baseDir relative

variable (decl : ImportDecl)

def requireLocalLock (source : String) (resolved : ResolvedModule) : Resolution Unit :=
  if context.suppliedSources.isSome then requireLockRecord context.lockfile resolved
  else
    match lockRecordFor context.lockfile decl with
    | none => .ok ()
    | some locked => validateDigestPin world resolved.contentDigest locked.contentDigest source

def scenarioModuleDescriptor (module? : Option ModuleDescriptor) : Resolution ModuleDescriptor :=
  match module? with
  | some descriptor => .ok descriptor
  | none => .error (importError .descriptorMissing
      "Imported SDL units require an explicit module descriptor")

def resolveLocalImport (source : String) : Resolution ResolvedModule := do
  let relative := removePrefix "local:" source
  let supplied := context.suppliedSources.isSome
  (if supplied then requireImportPin decl else pure ())
  let (importPath, importedSource) ← readLocalImport world context relative
  let module? ← world.scenarioModule importedSource
  let descriptor ← scenarioModuleDescriptor module?
  let contentDigest := world.digest importedSource.rawBytes
  refuse (satisfiesVersion packaging descriptor.version decl.version = false)
    (importError .versionMismatch ("Import '" ++ relative ++ "' requested version " ++
      world.repr decl.version ++ " but module declares " ++ world.repr descriptor.version))
  refuse (supplied = false ∧ context.verifiedSources.isNone ∧
      context.trustPolicy.allowUnsignedLocalSources = false)
    (importError .localDisabled ("Local SDL imports are disabled by trust policy because " ++
      "unsigned local sources are not allowed"))
  validateDigestPin world contentDigest decl.digest source
  let resolved : ResolvedModule :=
    { importDecl := decl
      moduleDescriptor := descriptor
      rootFile := importPath
      sourceDocument := importedSource
      resolvedSource := world.localIdentity importPath context.baseDir
        (!supplied && context.verifiedSources.isSome)
      manifestDigest := ""
      contentDigest := contentDigest
      exportHash := world.descriptorDigest descriptor.exports
      signerId := ""
      verifiedSources := context.verifiedSources }
  requireLocalLock world context decl source resolved
  verifyAllowedParameters decl descriptor
  return resolved

def parseOciSource (source : String) : Resolution (String × String) :=
  let ref := (removePrefix "oci:" source).toList
  let bare := match splitOnce "://".toList ref with
    | some (_, after) => after
    | none => ref
  match splitOnce "/".toList bare with
  | none => .error (parseError ("Invalid OCI source '" ++ source ++ "'"))
  | some (registry, repository) =>
    if registry = [] ∨ repository = [] then
      .error (parseError ("Invalid OCI source '" ++ source ++ "'"))
    else .ok (String.ofList registry, String.ofList repository)

/-- `text.rstrip("/")` -/
def stripSlashes (text : String) : String :=
  String.ofList ((text.toList.reverse.dropWhile (· = '/')).reverse)

/-- `_registry_base_url`; a text before the first `://` is a scheme only where it
opens the registry. -/
def registryBaseUrl (registry : String) (allowInsecureHttp : Bool) : String :=
  if startsWith "http://" registry || startsWith "https://" registry then stripSlashes registry
  else
    let loopback := ["localhost:", "127.0.0.1:", "localhost/", "127.0.0.1/"].any
      (startsWith · registry)
    stripSlashes ((if allowInsecureHttp || loopback then "http" else "https") ++ "://" ++ registry)

/-- `str` of a decoded value -/
def textOf (value : Json) : String :=
  match value with
  | .str text => text
  | other => world.str other

def repositoryTags (payload : Json) (source : String) : Resolution (List String) :=
  let invalid := parseError ("OCI tag metadata for '" ++ source ++ "' has an invalid tags list")
  match payload.get? "tags" with
  | none => .ok []
  | some (.arr items) => items.mapM fun item =>
      match item with
      | .str tag => .ok tag
      | _ => .error invalid
  | some other => if other.truthy then .error invalid else .ok []

variable (base repository : String)

def manifestReference (decl : ImportDecl)
    (locked : Option LockRecord) (source : String) : Resolution String :=
  match locked with
  | some record => .ok record.manifestDigest
  | none => do
    let payload ← world.jsonRequest base repository .tags
    let tags ← repositoryTags payload source
    selectTag packaging tags decl.version

def resolveOciManifest (decl : ImportDecl)
    (locked : Option LockRecord) (source : String) : Resolution (String × Json) := do
  let reference ← manifestReference packaging world base repository decl locked source
  let manifestBytes ← world.bytesRequest base repository (.manifest reference)
  let manifestDigest := world.digest manifestBytes
  let manifest ← world.decodeJsonObject manifestBytes ("OCI manifest for '" ++ source ++ "'")
  refuse (∃ record ∈ locked, record.manifestDigest ≠ manifestDigest)
    (importError .lockMismatch ("Lockfile digest mismatch for import '" ++ source ++ "': " ++
      world.repr ((locked.map (·.manifestDigest)).getD "") ++ " != " ++ world.repr manifestDigest))
  return (manifestDigest, manifest)

def bundleMediaType : String := "application/vnd.raes.module.bundle.v1+tar+gzip"

def isBundleLayer (layer : Json) : Bool :=
  match layer.get? "mediaType" with
  | some (.str mediaType) => mediaType = bundleMediaType
  | _ => false

def objectItems (value : Json) : Option (List Json) :=
  match value with
  | .arr items => if items.all Json.isObj then some items else none
  | _ => none

def manifestParts (manifest : Json) (source : String) : Resolution (Json × Json) :=
  let config := (manifest.get? "config").getD (.obj [])
  match config.isObj, objectItems ((manifest.get? "layers").getD (.arr [])) with
  | true, some layers =>
    match layers.find? isBundleLayer with
    | some layer =>
      if config.truthy && layer.truthy then .ok (config, layer)
      else .error (parseError ("OCI module '" ++ source ++ "' is missing config or bundle layer"))
    | none => .error (parseError
        ("OCI module '" ++ source ++ "' is missing config or bundle layer"))
  | _, _ => .error (parseError
      ("OCI module '" ++ source ++ "' has malformed config or layer descriptors"))

def descriptorDigestText (descriptor : Json) : String :=
  textOf world ((descriptor.get? "digest").getD (.str ""))

def resolveOciConfig (manifest : Json) (source : String) : Resolution (Json × String) := do
  let (config, layer) ← manifestParts manifest source
  let configDigest := descriptorDigestText world config
  let layerDigest := descriptorDigestText world layer
  let configBytes ← world.bytesRequest base repository (.blob configDigest)
  refuse (world.digest configBytes ≠ configDigest)
    (parseError ("OCI module '" ++ source ++ "' config digest verification failed"))
  let payload ← world.decodeJsonObject configBytes ("OCI config for '" ++ source ++ "'")
  return (payload, layerDigest)

def fetchOciBundle (base repository layerDigest source : String) : Resolution Bytes := do
  let bundleBytes ← world.bytesRequest base repository (.blob layerDigest)
  refuse (world.digest bundleBytes ≠ layerDigest)
    (parseError ("OCI module '" ++ source ++ "' bundle digest verification failed"))
  return bundleBytes

/-- `ModuleDescriptor.model_validate` of the module of a config -/
def configDescriptor (payload : Json) (source : String) : Resolution ModuleDescriptor :=
  match world.descriptorModel ((payload.get? "module").getD (.obj [])) with
  | some descriptor => .ok descriptor
  | none => .error (parseError ("OCI module '" ++ source ++ "' has invalid module descriptor"))

def configRootFile (payload : Json) (source : String) : Resolution String :=
  match payload.get? "root_file" with
  | none => .ok "module.yaml"
  | some (.str rootFile) => .ok rootFile
  | some _ => .error (parseError ("OCI module '" ++ source ++ "' declares a non-string root_file"))

def buildOciDescriptor (payload : Json) (layerDigest : String) (decl : ImportDecl)
    (locked : Option LockRecord) (source : String) :
    Resolution (ModuleDescriptor × String × String) := do
  let descriptor ← configDescriptor world payload source
  refuse (∃ record ∈ locked, record.moduleId ≠ descriptor.id)
    (importError .lockMismatch ("Lockfile module id mismatch for import '" ++ source ++ "': " ++
      world.repr ((locked.map (·.moduleId)).getD "") ++ " != " ++ world.repr descriptor.id))
  refuse (satisfiesVersion packaging descriptor.version decl.version = false)
    (importError .versionMismatch ("OCI import '" ++ source ++ "' requested version " ++
      world.repr decl.version ++ " but resolved module declares " ++
      world.repr descriptor.version))
  validateDigestPin world layerDigest decl.digest source
  let rootFile ← configRootFile payload source
  return (descriptor, layerDigest, rootFile)

def requiredSigner (policy : RegistryTrustPolicy) (payload : Json) (descriptor : ModuleDescriptor)
    (contentDigest rootFile source : String) : Resolution String :=
  if policy.requireSignatures then
    match objectItems ((payload.get? "signatures").getD (.arr [])) with
    | some signatures => world.verifySignatures signatures policy descriptor contentDigest rootFile
    | none => .error (parseError ("OCI module '" ++ source ++ "' has malformed signature metadata"))
  else .ok ""

def registryPolicy (trustPolicy : TrustPolicy) (registry : String) :
    Resolution RegistryTrustPolicy :=
  match trustPolicy.registries.get? registry with
  | some policy => .ok policy
  | none => .error (importError .registryUntrusted
      ("Registry '" ++ registry ++ "' is not allowed by trust policy"))

def resolveOciImport (source baseDir : String) (lockfile : Option Lockfile)
    (trustPolicy : TrustPolicy) : Resolution ResolvedModule := do
  let (registry, repository) ← parseOciSource source
  let policy ← registryPolicy trustPolicy registry
  let base := registryBaseUrl registry policy.allowInsecureHttp
  let locked := lockRecordFor lockfile decl
  let (manifestDigest, manifest) ← resolveOciManifest packaging world base repository decl locked
    source
  let (payload, layerDigest) ← resolveOciConfig world base repository manifest source
  let bundleBytes ← fetchOciBundle world base repository layerDigest source
  let (descriptor, contentDigest, rootFile) ← buildOciDescriptor packaging world payload
    layerDigest decl locked source
  let signerId ← requiredSigner world policy payload descriptor contentDigest rootFile source
  let bundle ← world.extractBundle bundleBytes (removePrefix "sha256:" manifestDigest)
    contentDigest rootFile baseDir
  let (rootPath, document) ← bundle.resolve bundle.cacheRoot rootFile
  verifyAllowedParameters decl descriptor
  let exportHash := world.descriptorDigest descriptor.exports
  refuse (∃ record ∈ locked, record.exportHash ≠ exportHash)
    (importError .lockMismatch ("Lockfile export hash mismatch for import '" ++ source ++ "'"))
  return {
    importDecl := decl
    moduleDescriptor := descriptor
    rootFile := rootPath
    sourceDocument := document
    resolvedSource := registry ++ "/" ++ repository ++ "@" ++ manifestDigest
    manifestDigest := manifestDigest
    contentDigest := contentDigest
    exportHash := exportHash
    signerId := signerId
    verifiedSources := some bundle }

def isLocked (source : String) : Bool := startsWith "locked:" source

/-- The dispatch of `_resolve_import_with_context` on a source that is not
locked. -/
def resolveUnlockedImport (decl : ImportDecl) : Resolution ResolvedModule :=
  let source := decl.normalizedSource
  if startsWith "local:" source then resolveLocalImport packaging world context decl source
  else if startsWith "oci:" source = false then
    .error (importError .sourceRefused ("Unsupported import source '" ++ source ++ "'"))
  else if context.localSourcesOnly then
    .error (importError .sourceRefused ("Registry import '" ++ context.requestedSource ++
      "' is not resolved in editor path mode; validate with parse_sdl_file()"))
  else resolveOciImport packaging world decl source
    (context.registryBaseDir.getD context.baseDir) context.lockfile context.trustPolicy

/-- The declaration that a lock record makes of the one that names it. -/
def followRecord (record : LockRecord) (decl : ImportDecl) : Option ImportDecl :=
  importDecl packaging record.source (orText decl.namespace record.namespace)
    record.requestedVersion decl.parameters (orText decl.digest record.contentDigest)

/-- The loop of `_resolve_locked_import`, with the references that the budget
still admits and those visited. -/
def followLocked (lockfile : Lockfile) : ℕ → List String → ImportDecl → Resolution ImportDecl
  | budget, visited, decl =>
    let source := decl.normalizedSource
    if isLocked source = false then .ok decl
    else if source ∈ visited then .error (importError .cycle "Locked import cycle detected")
    else
      match budget with
      | 0 => .error (importError .budgetExceeded "Locked import chain budget exceeded")
      | budget + 1 =>
        match lockfile.lockedRecord (removePrefix "locked:" source) with
        | none => .error (importError .lockRecordMissing
            ("Locked import '" ++ source ++ "' is not present in raes.lock.json"))
        | some record =>
          match followRecord packaging record decl with
          | none => .error (importError .lockInvalid "Locked import record is invalid")
          | some next => followLocked lockfile budget (source :: visited) next

/-- `_resolve_locked_import`; the declaration that leaves the loop is not locked,
so its dispatch is the one of the other sources. -/
def resolveLockedImport (source : String) : Resolution ResolvedModule :=
  match context.lockfile with
  | none => .error (importError .lockMissing
      ("Locked import '" ++ source ++ "' requires raes.lock.json"))
  | some lockfile => do
    let followed ← followLocked packaging lockfile context.maxCompositionDepth [] decl
    resolveUnlockedImport packaging world context followed

/-- `_resolve_import_with_context` -/
def resolveImport (decl : ImportDecl) : Resolution ResolvedModule :=
  let source := decl.normalizedSource
  if context.suppliedSources.isSome ∧ startsWith "local:" source = false then
    .error (importError .sourceRefused "A supplied-source parse admits only local imports.")
  else if isLocked source then resolveLockedImport packaging world context decl source
  else resolveUnlockedImport packaging world context decl

end Raes.Registry
