import Raes.Registry.Pinned
import Raes.Lib.ExceptList
import Mathlib.Data.Countable.Basic
import Mathlib.Logic.Equiv.List

/-!
# When a locked import keeps its lock

`LockHolds` is enough, because the final checks then compare the module with the
records that were followed.  It is also needed: the file system and the registry
may answer with any bytes, so where a pin is missing or is not that of a record,
where the authored version is narrower, or where the last record is not found
again, a world answers with a module that the lock does not pin.
-/

namespace Raes.Registry

open Contracts ResolutionError

variable {packaging : Packaging} {lockfile : Lockfile}

/-! ## Enough -/

/-- A registry import that resolves has a repository, and a tag where no record
names its manifest. -/
theorem registryReachable_of_resolveOciImport {world : World} {final : ImportDecl}
    {baseDir : String} {trustPolicy : TrustPolicy} {module : ResolvedModule}
    (h : resolveOciImport packaging world final final.normalizedSource baseDir (some lockfile)
      trustPolicy = .ok module) : RegistryReachable packaging lockfile final := by
  unfold resolveOciImport at h
  obtain ⟨parts, hparts, h⟩ := bind_eq_ok_iff.mp h
  obtain ⟨policy, -, h⟩ := bind_eq_ok_iff.mp h
  obtain ⟨manifest, hmanifest, -⟩ := bind_eq_ok_iff.mp h
  refine ⟨⟨parts, hparts⟩, fun hnone => ?_⟩
  unfold resolveOciManifest manifestReference at hmanifest
  rw [hnone] at hmanifest
  obtain ⟨tag, htag, -⟩ := bind_eq_ok_iff.mp hmanifest
  obtain ⟨payload, -, htag⟩ := bind_eq_ok_iff.mp htag
  obtain ⟨tags, -, htag⟩ := bind_eq_ok_iff.mp htag
  exact ⟨tags, tag, htag⟩

theorem sameDigest_localPin {final : ImportDecl} {content : String}
    (hpin : final.digest ≠ "" → SameDigest content final.digest)
    (hlock : ∀ locked ∈ lockRecordFor (some lockfile) final, locked.contentDigest ≠ "" →
      SameDigest content locked.contentDigest)
    (hwritten : localPin lockfile final ≠ "") : SameDigest content (localPin lockfile final) := by
  unfold localPin orText at hwritten ⊢
  by_cases hdigest : final.digest = ""
  · rw [if_pos hdigest] at hwritten ⊢
    cases hfound : lockRecordFor (some lockfile) final with
    | none =>
      rw [hfound] at hwritten
      exact absurd rfl hwritten
    | some locked =>
      rw [hfound] at hwritten
      exact hlock locked hfound hwritten
  · rw [if_neg hdigest]
    exact hpin hdigest

theorem Follows.exists_last {decl final : ImportDecl} {steps : List (String × LockRecord)}
    (h : Follows packaging lockfile decl steps final)
    (hlocked : isLocked decl.normalizedSource = true) : ∃ last, steps.getLast? = some last := by
  cases h with
  | done unlocked => exact absurd unlocked (by simp [hlocked])
  | step _ _ _ _ => exact ⟨_, List.getLast?_eq_some_getLast (List.cons_ne_nil _ _)⟩

theorem keepsLock_of_lockHolds {limit : ℕ} {decl : ImportDecl}
    (hlocked : isLocked decl.normalizedSource = true)
    (h : LockHolds packaging lockfile limit decl) : KeepsLock packaging lockfile limit decl := by
  intro world context module hlockfile hlimit hmodule
  obtain ⟨hsupplied, steps, final, hfollows, hlength, hnodup, hfinal⟩ :=
    (resolveImport_eq_ok_iff hlockfile hlocked).mp hmodule
  rw [hlimit] at hlength
  obtain ⟨last, hlast⟩ := hfollows.exists_last hlocked
  obtain ⟨hsource, hversionLast⟩ := hfollows.last hlast
  refine ⟨steps, final, last, hfollows, hlength, hnodup, hlast, ?_⟩
  have hholds := h steps final last hfollows hlength hnodup hlast
  unfold resolveUnlockedImport at hfinal
  by_cases hlocal : startsWith "local:" final.normalizedSource = true
  · simp only [hlocal, if_true] at hfinal
    obtain ⟨hpin, hlock, hversion⟩ := resolveLocalImport_eq_ok hsupplied hfinal
    rw [hlockfile] at hlock
    have hagree : PinsAgree lockfile final := by
      intro hdigest locked hfound hcontent
      exact (hpin hdigest).symm.trans (hlock locked hfound hcontent)
    obtain ⟨hpins, hnarrows⟩ := (hholds ⟨_, hversion⟩).1 hlocal hagree
    have hsame := sameDigest_localPin hpin hlock hpins.written
    refine ⟨fun record hrecord => hsame.trans (hpins.recorded record hrecord),
      hnarrows _ hversion, fun hregistry => ?_⟩
    rw [← hsource] at hregistry
    exact absurd hlocal (by simp [not_local_of_registry hregistry])
  · simp only [Bool.not_eq_true] at hlocal
    by_cases hregistry : startsWith "oci:" final.normalizedSource = true
    · by_cases honly : context.localSourcesOnly = true
      · simp [hlocal, hregistry, honly] at hfinal
      · simp only [hlocal, hregistry, honly, Bool.false_eq_true, Bool.true_eq_false, if_false]
          at hfinal
        rw [hlockfile] at hfinal
        obtain ⟨hpin, hversion, hlock⟩ := resolveOciImport_eq_ok hfinal
        obtain ⟨hpins, hnarrows, again, hagain, hmanifest, hid, hexports⟩ :=
          (hholds ⟨_, hversion⟩).2 hregistry (registryReachable_of_resolveOciImport hfinal)
        obtain ⟨hmanifest', hid', hexports'⟩ := hlock again hagain
        have hsame := hpin hpins.written
        exact ⟨fun record hrecord => hsame.trans (hpins.recorded record hrecord),
          hnarrows _ hversion, fun _ => ⟨hmanifest'.trans hmanifest, hid'.trans hid,
            hexports'.trans hexports⟩⟩
    · simp [hlocal, hregistry] at hfinal

/-! ## Needed -/

theorem exists_digest : ∃ digest : Bytes → String, Function.Bijective digest := by
  have hchar : Countable Char := Function.Injective.countable
    (f := Char.toNat) fun a b h => Char.ext (UInt32.toNat_inj.mp h)
  have hstring : Countable String := Function.Injective.countable
    (f := String.toList) fun a b h => String.toList_inj.mp h
  have hbyte : Countable UInt8 := Function.Injective.countable
    (f := UInt8.toNat) fun a b h => UInt8.toNat_inj.mp h
  have hbytes : Countable Bytes := List.countable
  obtain ⟨e⟩ : Nonempty (Bytes ≃ String) := nonempty_equiv_of_countable
  exact ⟨e, e.bijective⟩

structure Answers where
  (content manifest exportHash : String)
  tags : List String
  descriptor : ModuleDescriptor

section Worlds

variable (digest : Bytes → String) (hdigest : Function.Bijective digest)
  (bytesOf : String → Bytes) (answers : Answers)

def answeredManifest : Json :=
  .obj [("config", .obj [("digest", .str (answers.manifest ++ "!"))]),
    ("layers", .arr [.obj [("mediaType", .str bundleMediaType), ("digest", .str answers.content)]])]

def answeredDocument : SDLSourceDocument := ⟨"", bytesOf answers.content⟩

/-- A world that answers every request with the wanted module. -/
def answeringWorld : World where
  digest := digest
  digest_injective := hdigest.1
  descriptorDigest _ := answers.exportHash
  repr text := text
  str _ := ""
  readLocal _ _ := .ok ("module.yaml", answeredDocument bytesOf answers)
  localIdentity importPath _ _ := importPath
  scenarioModule _ := .ok (some answers.descriptor)
  jsonRequest _ _ _ := .ok (.obj [("tags", .arr (answers.tags.map .str))])
  bytesRequest _ _ request := .ok <|
    match request with
    | .tags => []
    | .manifest _ => bytesOf answers.manifest
    | .blob digest => bytesOf digest
  decodeJsonObject bytes _ := .ok <|
    if bytes = bytesOf answers.manifest then answeredManifest answers else .obj []
  descriptorModel _ := some answers.descriptor
  verifySignatures _ _ _ _ _ := .ok ""
  extractBundle _ _ _ _ _ := .ok
    ⟨"cache", fun _ _ => .ok ("module.yaml", answeredDocument bytesOf answers)⟩

def openPolicy : RegistryTrustPolicy where
  requireSignatures := false
  trustedSigners := Dict.empty
  allowInsecureHttp := false

/-- A workspace that trusts every local module and one registry. -/
def trustingContext (lockfile : Lockfile) (limit : ℕ) (registry : String) : Context where
  baseDir := "."
  lockfile := some lockfile
  trustPolicy :=
    { allowUnsignedLocalSources := true
      registries := Dict.empty.set registry openPolicy }
  maxCompositionDepth := limit
  verifiedSources := none
  registryBaseDir := none
  localSourcesOnly := false
  suppliedSources := none
  requestedSource := ""

def answeredLocal (final : ImportDecl) : ResolvedModule where
  importDecl := final
  moduleDescriptor := answers.descriptor
  rootFile := "module.yaml"
  sourceDocument := answeredDocument bytesOf answers
  resolvedSource := "module.yaml"
  manifestDigest := ""
  contentDigest := digest (bytesOf answers.content)
  exportHash := answers.exportHash
  signerId := ""
  verifiedSources := none

def answeredRegistry (final : ImportDecl) (registry repository : String) : ResolvedModule where
  importDecl := final
  moduleDescriptor := answers.descriptor
  rootFile := "module.yaml"
  sourceDocument := answeredDocument bytesOf answers
  resolvedSource := registry ++ "/" ++ repository ++ "@" ++ digest (bytesOf answers.manifest)
  manifestDigest := digest (bytesOf answers.manifest)
  contentDigest := answers.content
  exportHash := answers.exportHash
  signerId := ""
  verifiedSources := some
    ⟨"cache", fun _ _ => .ok ("module.yaml", answeredDocument bytesOf answers)⟩

variable {digest bytesOf answers} {hdigest} {final : ImportDecl}

theorem verifyAllowedParameters_answered
    (hparameters : answers.descriptor.parameters = final.parameters.keys) :
    verifyAllowedParameters final answers.descriptor = .ok () := by
  unfold verifyAllowedParameters
  rw [refuse_eq_ok_iff, not_not, hparameters, List.filter_eq_nil_iff.mpr (by simp)]
  rfl

theorem resolveLocalImport_answering (limit : ℕ) (registry : String)
    (hbytes : ∀ text, digest (bytesOf text) = text)
    (hparameters : answers.descriptor.parameters = final.parameters.keys)
    (hversion : satisfiesVersion packaging answers.descriptor.version final.version = true)
    (hpin : final.digest ≠ "" → SameDigest answers.content final.digest)
    (hlock : ∀ locked ∈ lockRecordFor (some lockfile) final, locked.contentDigest ≠ "" →
      SameDigest answers.content locked.contentDigest) :
    resolveLocalImport packaging (answeringWorld digest hdigest bytesOf answers)
        (trustingContext lockfile limit registry) final final.normalizedSource =
      .ok (answeredLocal digest bytesOf answers final) := by
  rw [← hbytes answers.content] at hpin hlock
  unfold resolveLocalImport
  refine seq_eq_ok_iff.mpr ⟨rfl, ?_⟩
  refine bind_eq_ok_iff.mpr ⟨_, rfl, ?_⟩
  refine bind_eq_ok_iff.mpr ⟨_, rfl, ?_⟩
  refine bind_eq_ok_iff.mpr ⟨answers.descriptor, rfl, ?_⟩
  refine seq_eq_ok_iff.mpr ⟨?_, ?_⟩
  · rw [refuse_eq_ok_iff, Bool.not_eq_false]
    exact hversion
  refine seq_eq_ok_iff.mpr ⟨?_, ?_⟩
  · rw [refuse_eq_ok_iff]
    exact fun hrefused => absurd hrefused.2.2 (by simp [trustingContext])
  refine seq_eq_ok_iff.mpr ⟨validateDigestPin_eq_ok_iff.mpr hpin, ?_⟩
  refine seq_eq_ok_iff.mpr ⟨?_, ?_⟩
  · unfold requireLocalLock
    dsimp only [trustingContext]
    cases hfound : lockRecordFor (some lockfile) final with
    | none => rfl
    | some locked => exact validateDigestPin_eq_ok_iff.mpr (hlock locked hfound)
  · exact seq_eq_ok_iff.mpr ⟨verifyAllowedParameters_answered hparameters, rfl⟩

theorem manifest_ne_config (manifest : String) : manifest ++ "!" ≠ manifest := by
  intro h
  have hlength := congrArg (fun text => text.toList.length) h
  simp at hlength

theorem repositoryTags_answering (tags : List String) (source : String) :
    repositoryTags (.obj [("tags", .arr (tags.map .str))]) source = .ok tags := by
  unfold repositoryTags
  show (tags.map Json.str).mapM _ = _
  rw [mapM_eq_ok_iff, List.forall₂_map_left_iff]
  exact List.forall₂_same.mpr fun tag _ => rfl

theorem resolveOciManifest_answering (hbytes : ∀ text, digest (bytesOf text) = text)
    (htag : lockRecordFor (some lockfile) final = none →
      ∃ tag, selectTag packaging answers.tags final.version = .ok tag)
    (hlock : ∀ locked ∈ lockRecordFor (some lockfile) final,
      locked.manifestDigest = answers.manifest) (base repository : String) :
    resolveOciManifest packaging (answeringWorld digest hdigest bytesOf answers) base repository
        final (lockRecordFor (some lockfile) final) final.normalizedSource =
      .ok (answers.manifest, answeredManifest answers) := by
  have hreference : ∃ reference, manifestReference packaging
      (answeringWorld digest hdigest bytesOf answers) base repository final
      (lockRecordFor (some lockfile) final) final.normalizedSource = .ok reference := by
    unfold manifestReference
    cases hfound : lockRecordFor (some lockfile) final with
    | some record => exact ⟨_, rfl⟩
    | none =>
      obtain ⟨tag, htag⟩ := htag hfound
      exact ⟨tag, bind_eq_ok_iff.mpr ⟨_, rfl,
        bind_eq_ok_iff.mpr ⟨_, repositoryTags_answering _ _, htag⟩⟩⟩
  obtain ⟨reference, hreference⟩ := hreference
  unfold resolveOciManifest
  refine bind_eq_ok_iff.mpr ⟨reference, hreference, ?_⟩
  refine bind_eq_ok_iff.mpr ⟨_, rfl, ?_⟩
  refine bind_eq_ok_iff.mpr ⟨answeredManifest answers, ?_, ?_⟩
  · exact congrArg Except.ok (if_pos rfl)
  have hdigests : (answeringWorld digest hdigest bytesOf answers).digest
      (bytesOf answers.manifest) = answers.manifest := hbytes _
  refine seq_eq_ok_iff.mpr ⟨?_, ?_⟩
  · rw [refuse_eq_ok_iff, hdigests]
    rintro ⟨locked, hfound, hne⟩
    exact hne (hlock locked hfound)
  · rw [hdigests]
    rfl

theorem resolveOciConfig_answering (hbytes : ∀ text, digest (bytesOf text) = text)
    (base repository source : String) :
    resolveOciConfig (answeringWorld digest hdigest bytesOf answers) base repository
        (answeredManifest answers) source = .ok (.obj [], answers.content) := by
  have hparts : manifestParts (answeredManifest answers) source =
      .ok (.obj [("digest", .str (answers.manifest ++ "!"))],
        .obj [("mediaType", .str bundleMediaType), ("digest", .str answers.content)]) := by
    have hlayer : isBundleLayer
        (.obj [("mediaType", .str bundleMediaType), ("digest", .str answers.content)]) = true := by
      unfold isBundleLayer
      simp [Json.get?]
    unfold manifestParts answeredManifest
    simp [Json.get?, List.lookup_cons, objectItems, Json.isObj, hlayer, Json.truthy]
  have hbytesNe : bytesOf (answers.manifest ++ "!") ≠ bytesOf answers.manifest := by
    intro h
    have hsame := congrArg digest h
    rw [hbytes, hbytes] at hsame
    exact manifest_ne_config _ hsame
  unfold resolveOciConfig
  refine bind_eq_ok_iff.mpr ⟨_, hparts, ?_⟩
  refine bind_eq_ok_iff.mpr ⟨bytesOf (answers.manifest ++ "!"), rfl, ?_⟩
  refine seq_eq_ok_iff.mpr ⟨?_, ?_⟩
  · rw [refuse_eq_ok_iff, not_not]
    exact hbytes _
  refine bind_eq_ok_iff.mpr ⟨.obj [], ?_, rfl⟩
  exact congrArg Except.ok (if_neg hbytesNe)

theorem buildOciDescriptor_answering
    (hversion : satisfiesVersion packaging answers.descriptor.version final.version = true)
    (hpin : final.digest ≠ "" → SameDigest answers.content final.digest)
    (hlock : ∀ locked ∈ lockRecordFor (some lockfile) final,
      locked.moduleId = answers.descriptor.id) :
    buildOciDescriptor packaging (answeringWorld digest hdigest bytesOf answers) (.obj [])
        answers.content final (lockRecordFor (some lockfile) final) final.normalizedSource =
      .ok (answers.descriptor, answers.content, "module.yaml") := by
  unfold buildOciDescriptor
  refine bind_eq_ok_iff.mpr ⟨answers.descriptor, rfl, ?_⟩
  refine seq_eq_ok_iff.mpr ⟨?_, ?_⟩
  · rw [refuse_eq_ok_iff]
    rintro ⟨locked, hfound, hne⟩
    exact hne (hlock locked hfound)
  refine seq_eq_ok_iff.mpr ⟨?_, ?_⟩
  · rw [refuse_eq_ok_iff, Bool.not_eq_false]
    exact hversion
  exact seq_eq_ok_iff.mpr ⟨validateDigestPin_eq_ok_iff.mpr hpin, rfl⟩

theorem resolveOciImport_answering {registry repository : String}
    (hbytes : ∀ text, digest (bytesOf text) = text)
    (hparts : parseOciSource final.normalizedSource = .ok (registry, repository))
    (hparameters : answers.descriptor.parameters = final.parameters.keys)
    (hversion : satisfiesVersion packaging answers.descriptor.version final.version = true)
    (hpin : final.digest ≠ "" → SameDigest answers.content final.digest)
    (htag : lockRecordFor (some lockfile) final = none →
      ∃ tag, selectTag packaging answers.tags final.version = .ok tag)
    (hlock : ∀ locked ∈ lockRecordFor (some lockfile) final,
      locked.manifestDigest = answers.manifest ∧ locked.moduleId = answers.descriptor.id ∧
        locked.exportHash = answers.exportHash) (limit : ℕ) :
    resolveOciImport packaging (answeringWorld digest hdigest bytesOf answers) final
        final.normalizedSource "." (some lockfile)
        (trustingContext lockfile limit registry).trustPolicy =
      .ok (answeredRegistry digest bytesOf answers final registry repository) := by
  have hpolicy : registryPolicy (trustingContext lockfile limit registry).trustPolicy registry =
      .ok openPolicy := by
    unfold registryPolicy trustingContext
    simp only [Dict.get?_set_self]
  unfold resolveOciImport
  refine bind_eq_ok_iff.mpr ⟨(registry, repository), hparts, ?_⟩
  refine bind_eq_ok_iff.mpr ⟨openPolicy, hpolicy, ?_⟩
  refine bind_eq_ok_iff.mpr ⟨(answers.manifest, answeredManifest answers),
    resolveOciManifest_answering hbytes htag (fun locked h => (hlock locked h).1) _ _, ?_⟩
  refine bind_eq_ok_iff.mpr ⟨(.obj [], answers.content),
    resolveOciConfig_answering hbytes _ _ _, ?_⟩
  refine bind_eq_ok_iff.mpr ⟨bytesOf answers.content, ?_, ?_⟩
  · refine bind_eq_ok_iff.mpr ⟨bytesOf answers.content, rfl, ?_⟩
    refine seq_eq_ok_iff.mpr ⟨?_, rfl⟩
    rw [refuse_eq_ok_iff, not_not]
    exact hbytes _
  refine bind_eq_ok_iff.mpr ⟨(answers.descriptor, answers.content, "module.yaml"),
    buildOciDescriptor_answering hversion hpin (fun locked h => (hlock locked h).2.1), ?_⟩
  refine bind_eq_ok_iff.mpr ⟨"", rfl, ?_⟩
  refine bind_eq_ok_iff.mpr ⟨_, rfl, ?_⟩
  refine bind_eq_ok_iff.mpr ⟨_, rfl, ?_⟩
  refine seq_eq_ok_iff.mpr ⟨verifyAllowedParameters_answered hparameters, ?_⟩
  refine seq_eq_ok_iff.mpr ⟨?_, ?_⟩
  · rw [refuse_eq_ok_iff]
    rintro ⟨locked, hfound, hne⟩
    exact hne (hlock locked hfound).2.2
  · unfold answeredRegistry
    rw [hbytes]
    rfl

end Worlds

/-- The module of an unlocked resolution at the end of a chain is kept, where the
lock is. -/
theorem KeepsLock.keptBy {limit : ℕ} {decl final : ImportDecl}
    {steps : List (String × LockRecord)} {last : String × LockRecord} {world : World}
    {context : Context} {module : ResolvedModule}
    (h : KeepsLock packaging lockfile limit decl)
    (hlocked : isLocked decl.normalizedSource = true)
    (hfollows : Follows packaging lockfile decl steps final) (hlength : steps.length ≤ limit)
    (hnodup : (steps.map Prod.fst).Nodup) (hlast : steps.getLast? = some last)
    (hlockfile : context.lockfile = some lockfile) (hlimit : context.maxCompositionDepth = limit)
    (hsupplied : context.suppliedSources = none)
    (hmodule : resolveUnlockedImport packaging world context final = .ok module) :
    KeptBy packaging decl (steps.map Prod.snd) last.2 module := by
  have hresolved : resolveImport packaging world context decl = .ok module :=
    (resolveImport_eq_ok_iff hlockfile hlocked).mpr
      ⟨hsupplied, steps, final, hfollows, hlimit ▸ hlength, hnodup, hmodule⟩
  obtain ⟨steps', final', last', hfollows', -, -, hlast', hkept⟩ :=
    h world context module hlockfile hlimit hresolved
  obtain ⟨rfl, rfl⟩ := hfollows.unique hfollows'
  obtain rfl := Option.some.inj (hlast.symm.trans hlast')
  exact hkept

def otherDigest (digest : String) : String := "sha256:" ++ (removePrefix "sha256:" digest ++ "!")

theorem not_sameDigest_otherDigest (digest : String) :
    ¬ SameDigest (otherDigest digest) digest := by
  intro h
  have hremoved : removePrefix "sha256:" (otherDigest digest) =
      removePrefix "sha256:" digest ++ "!" := by
    unfold otherDigest
    rw [removePrefix, if_pos (startsWith_iff.mpr ⟨_, String.toList_append⟩),
      String.toList_append, List.drop_left, String.ofList_toList]
  unfold SameDigest at h
  rw [hremoved] at h
  exact manifest_ne_config _ h

theorem last_mem {steps : List (String × LockRecord)} {last : String × LockRecord}
    (hlast : steps.getLast? = some last) : last.2 ∈ steps.map Prod.snd :=
  List.mem_map_of_mem (List.mem_of_getLast? hlast)

theorem localPin_admitted {final : ImportDecl} (hagree : PinsAgree lockfile final) :
    (final.digest ≠ "" → SameDigest (localPin lockfile final) final.digest) ∧
      ∀ locked ∈ lockRecordFor (some lockfile) final, locked.contentDigest ≠ "" →
        SameDigest (localPin lockfile final) locked.contentDigest := by
  unfold localPin orText
  by_cases hdigest : final.digest = ""
  · rw [if_pos hdigest]
    refine ⟨fun hne => absurd hdigest hne, fun locked hlocked _ => ?_⟩
    rw [Option.mem_def.mp hlocked]
    exact rfl
  · rw [if_neg hdigest]
    exact ⟨fun _ => rfl, fun locked hlocked hcontent => hagree hdigest locked hlocked hcontent⟩

theorem localPin_eq_empty {final : ImportDecl} (h : localPin lockfile final = "") :
    final.digest = "" ∧
      ∀ locked ∈ lockRecordFor (some lockfile) final, locked.contentDigest = "" := by
  unfold localPin orText at h
  by_cases hdigest : final.digest = ""
  · rw [if_pos hdigest] at h
    refine ⟨hdigest, fun locked hlocked => ?_⟩
    rw [Option.mem_def.mp hlocked] at h
    exact h
  · rw [if_neg hdigest] at h
    exact absurd h hdigest

/-- Every module that the reads answer with at the end of a chain is kept. -/
def KeepsModules (packaging : Packaging) (lockfile : Lockfile) (limit : ℕ)
    (decl final : ImportDecl) (records : List LockRecord) (last : LockRecord) : Prop :=
  ∀ (world : World) (context : Context) (module : ResolvedModule),
    context.lockfile = some lockfile → context.maxCompositionDepth = limit →
    context.suppliedSources = none →
    resolveUnlockedImport packaging world context final = .ok module →
    KeptBy packaging decl records last module

section Kept

variable {limit : ℕ} {decl final : ImportDecl} {records : List LockRecord} {last : LockRecord}

theorem KeepsModules.of_local (h : KeepsModules packaging lockfile limit decl final records last)
    (content version : String) (hlocal : startsWith "local:" final.normalizedSource = true)
    (hversion : satisfiesVersion packaging version final.version = true)
    (hpin : final.digest ≠ "" → SameDigest content final.digest)
    (hlock : ∀ locked ∈ lockRecordFor (some lockfile) final, locked.contentDigest ≠ "" →
      SameDigest content locked.contentDigest) :
    (∀ record ∈ records, SameDigest content record.contentDigest) ∧
      satisfiesVersion packaging version decl.version = true := by
  obtain ⟨digest, hdigest⟩ := exists_digest
  have hbytes : ∀ text, digest (Function.surjInv hdigest.2 text) = text :=
    Function.surjInv_eq hdigest.2
  generalize hanswers : (⟨content, "", "", [],
    ⟨"module", version, final.parameters.keys, Dict.empty, ""⟩⟩ : Answers) = answers
  obtain ⟨rfl, hdescriptor⟩ : answers.content = content ∧ answers.descriptor =
      ⟨"module", version, final.parameters.keys, Dict.empty, ""⟩ := by
    subst hanswers
    exact ⟨rfl, rfl⟩
  have hresolved : resolveUnlockedImport packaging
      (answeringWorld digest hdigest (Function.surjInv hdigest.2) answers)
      (trustingContext lockfile limit "") final =
        .ok (answeredLocal digest (Function.surjInv hdigest.2) answers final) := by
    unfold resolveUnlockedImport
    simp only [hlocal, if_true]
    exact resolveLocalImport_answering limit "" hbytes (by rw [hdescriptor])
      (by rw [hdescriptor]; exact hversion) hpin hlock
  have hkept := h _ _ _ rfl rfl rfl hresolved
  have hcontent := hkept.content
  have hkeptVersion := hkept.version
  simp only [answeredLocal, hbytes, hdescriptor] at hcontent hkeptVersion
  exact ⟨hcontent, hkeptVersion⟩

theorem KeepsModules.of_registry
    (h : KeepsModules packaging lockfile limit decl final records last)
    (content version : String) (hregistry : startsWith "oci:" final.normalizedSource = true)
    (hlast : startsWith "oci:" last.source = true)
    (hreachable : RegistryReachable packaging lockfile final) {manifest id exportHash : String}
    (hversion : satisfiesVersion packaging version final.version = true)
    (hpin : final.digest ≠ "" → SameDigest content final.digest)
    (hlock : ∀ locked ∈ lockRecordFor (some lockfile) final, locked.manifestDigest = manifest ∧
      locked.moduleId = id ∧ locked.exportHash = exportHash) :
    (∀ record ∈ records, SameDigest content record.contentDigest) ∧
      satisfiesVersion packaging version decl.version = true ∧
      manifest = last.manifestDigest ∧ id = last.moduleId ∧ exportHash = last.exportHash := by
  obtain ⟨⟨⟨registry, repository⟩, hparts⟩, htag⟩ := hreachable
  obtain ⟨digest, hdigest⟩ := exists_digest
  have hbytes : ∀ text, digest (Function.surjInv hdigest.2 text) = text :=
    Function.surjInv_eq hdigest.2
  obtain ⟨tags, htags⟩ : ∃ tags, lockRecordFor (some lockfile) final = none →
      ∃ tag, selectTag packaging tags final.version = .ok tag := by
    by_cases hnone : lockRecordFor (some lockfile) final = none
    · obtain ⟨tags, htags⟩ := htag hnone
      exact ⟨tags, fun _ => htags⟩
    · exact ⟨[], fun heq => absurd heq hnone⟩
  generalize hanswers : (⟨content, manifest, exportHash, tags,
    ⟨id, version, final.parameters.keys, Dict.empty, ""⟩⟩ : Answers) = answers
  obtain ⟨rfl, rfl, rfl, rfl, hdescriptor⟩ : answers.content = content ∧
      answers.manifest = manifest ∧ answers.exportHash = exportHash ∧ answers.tags = tags ∧
      answers.descriptor = ⟨id, version, final.parameters.keys, Dict.empty, ""⟩ := by
    subst hanswers
    exact ⟨rfl, rfl, rfl, rfl, rfl⟩
  have hresolved : resolveUnlockedImport packaging
      (answeringWorld digest hdigest (Function.surjInv hdigest.2) answers)
      (trustingContext lockfile limit registry) final =
        .ok (answeredRegistry digest (Function.surjInv hdigest.2) answers final registry
          repository) := by
    unfold resolveUnlockedImport
    simp only [not_local_of_registry hregistry, hregistry, Bool.false_eq_true,
      Bool.true_eq_false, if_false]
    refine resolveOciImport_answering hbytes hparts (by rw [hdescriptor])
      (by rw [hdescriptor]; exact hversion) hpin htags ?_ limit
    rw [hdescriptor]
    exact hlock
  have hkept := h _ _ _ rfl rfl rfl hresolved
  have hcontent := hkept.content
  have hkeptVersion := hkept.version
  have hfound := hkept.registry hlast
  simp only [answeredRegistry, hbytes, hdescriptor] at hcontent hkeptVersion hfound
  exact ⟨hcontent, hkeptVersion, hfound⟩

end Kept

theorem lockHolds_of_keepsLock {limit : ℕ} {decl : ImportDecl}
    (hlocked : isLocked decl.normalizedSource = true)
    (h : KeepsLock packaging lockfile limit decl) : LockHolds packaging lockfile limit decl := by
  rintro steps final last hfollows hlength hnodup hlast ⟨version, hversion⟩
  obtain ⟨hsource, -⟩ := hfollows.last hlast
  have hkeeps : KeepsModules packaging lockfile limit decl final (steps.map Prod.snd) last.2 :=
    fun _ _ _ => h.keptBy hlocked hfollows hlength hnodup hlast
  constructor
  · intro hlocal hagree
    obtain ⟨hpin, hlock⟩ := localPin_admitted hagree
    have hkept := fun version hversion => hkeeps.of_local _ version hlocal hversion hpin hlock
    refine ⟨⟨fun hempty => ?_, (hkept version hversion).1⟩, fun version hversion =>
      (hkept version hversion).2⟩
    obtain ⟨hdigestEmpty, hlockEmpty⟩ := localPin_eq_empty hempty
    have hother := (hkeeps.of_local (otherDigest last.2.contentDigest) _ hlocal hversion
      (fun hne => absurd hdigestEmpty hne)
      (fun locked hfound hne => absurd (hlockEmpty locked hfound) hne)).1
    exact not_sameDigest_otherDigest _ (hother last.2 (last_mem hlast))
  · intro hregistry hreachable
    have hlastRegistry : startsWith "oci:" last.2.source = true := hsource ▸ hregistry
    cases hfound : lockRecordFor (some lockfile) final with
    | none =>
      -- nothing names the manifest, so it may be another one
      have hnone : ∀ locked ∈ lockRecordFor (some lockfile) final,
          locked.manifestDigest = last.2.manifestDigest ++ "!" ∧ locked.moduleId = "" ∧
            locked.exportHash = "" := by
        intro locked hlocked
        rw [hfound] at hlocked
        exact (nomatch hlocked)
      have hother := (hkeeps.of_registry _ _ hregistry hlastRegistry hreachable hversion
        (fun _ => rfl) hnone).2.2.1
      exact absurd hother (manifest_ne_config _)
    | some again =>
      have hagain : ∀ locked ∈ lockRecordFor (some lockfile) final,
          locked.manifestDigest = again.manifestDigest ∧ locked.moduleId = again.moduleId ∧
            locked.exportHash = again.exportHash := by
        intro locked hlocked
        rw [hfound] at hlocked
        obtain rfl := Option.some.inj hlocked
        exact ⟨rfl, rfl, rfl⟩
      have hkept := fun content version hversion hpin =>
        hkeeps.of_registry content version hregistry hlastRegistry hreachable hversion hpin hagain
      have hsame := hkept _ _ hversion fun _ => rfl
      refine ⟨⟨fun hempty => ?_, hsame.1⟩, fun version hversion =>
        (hkept _ version hversion fun _ => rfl).2.1, again, hfound, hsame.2.2⟩
      have hother := (hkept (otherDigest last.2.contentDigest) _ hversion
        fun hne => absurd hempty hne).1
      exact not_sameDigest_otherDigest _ (hother last.2 (last_mem hlast))

/-! ## One lock record -/

/-- Every specifier is accepted, and matches the version it names. -/
def exactPackaging : Packaging where
  isSpecifier _ := true
  isVersion _ := true
  inSpecifier spec text := spec = "==" ++ text
  latest tags := tags.head?

def hostsLock : Lockfile where
  imports := [
    { source := "local:hosts.yaml"
      «namespace» := "hosts"
      requestedVersion := "*"
      resolvedSource := "hosts.yaml"
      moduleId := "acme/hosts"
      moduleVersion := "1.0.0"
      manifestDigest := ""
      contentDigest := "sha256:aa"
      exportHash := "e0"
      signerId := "" }]

def hostsImport («namespace» digest : String)
    (named : isPortableIdentifier «namespace» = true) : ImportDecl where
  source := "locked:hosts.yaml"
  path := ""
  «namespace» := «namespace»
  version := "*"
  parameters := Dict.empty
  digest := digest
  sourced := .inl (by decide)
  exclusive := .inr rfl
  named := named
  portable := by
    intro name hname
    exact absurd hname List.not_mem_nil

theorem hostsImport_follows («namespace» digest : String)
    (named : isPortableIdentifier «namespace» = true) :
    ∃ final, Follows exactPackaging hostsLock (hostsImport «namespace» digest named)
        (hostsLock.imports.map fun record => ("locked:hosts.yaml", record)) final ∧
      final.source = "local:hosts.yaml" ∧ final.namespace = «namespace» ∧ final.version = "*" ∧
      final.digest = orText digest "sha256:aa" := by
  have hne := (hostsImport «namespace» digest named).namespace_ne
  change «namespace» ≠ "" at hne
  refine ⟨⟨"local:hosts.yaml", "", «namespace», "*", Dict.empty, orText digest "sha256:aa",
    .inl (by decide), .inr rfl, named, (hostsImport «namespace» digest named).portable⟩,
    .step (show isLocked "locked:hosts.yaml" = true by decide)
      (show hostsLock.lockedRecord (removePrefix "locked:" "locked:hosts.yaml") = _ by decide) ?_
      (.done (show isLocked "local:hosts.yaml" = false by decide)), rfl, rfl, rfl, rfl⟩
  unfold followRecord importDecl
  have hnamespace : orText «namespace» "hosts" = «namespace» := if_neg hne
  have haccepts : acceptsVersion exactPackaging "*" = true := by decide
  have hportable := (hostsImport «namespace» digest named).portable
  simp only [hostsImport, hnamespace]
  rw [dif_pos ⟨by decide, named, hportable, haccepts⟩]

/-- An import that writes another digest, under another namespace, resolves to a
module that its record does not pin. -/
theorem hostsImport_loses_lock :
    ¬ KeepsLock exactPackaging hostsLock 32 (hostsImport "other" "sha256:bb" (by decide)) := by
  intro h
  obtain ⟨final, hfollows, hsource, hnamespace, hversion, hdigest⟩ :=
    hostsImport_follows "other" "sha256:bb" (by decide)
  have hnormalized : final.normalizedSource = "local:hosts.yaml" := by
    rw [ImportDecl.normalizedSource, hsource, if_pos (by decide)]
  have hnone : lockRecordFor (some hostsLock) final = none := by
    unfold lockRecordFor
    rw [hnormalized, hnamespace, hversion]
    decide
  have hagree : PinsAgree hostsLock final := by
    intro _ locked hfound
    rw [hnone] at hfound
    exact (nomatch hfound)
  obtain ⟨hpins, -⟩ := (lockHolds_of_keepsLock (by decide) h _ final _ hfollows (by decide)
    (by decide) rfl ⟨"1.0.0", by rw [hversion]; decide⟩).1 (by rw [hnormalized]; decide) hagree
  have hrecorded := hpins.recorded _ List.mem_cons_self
  unfold localPin SameDigest at hrecorded
  rw [hnone, hdigest] at hrecorded
  exact absurd hrecorded (by decide)

/-- A locked import keeps its lock exactly where the lock holds. -/
theorem keepsLock_iff (packaging : Packaging) (lockfile : Lockfile) (limit : ℕ)
    (decl : ImportDecl) (hlocked : isLocked decl.normalizedSource = true) :
    KeepsLock packaging lockfile limit decl ↔ LockHolds packaging lockfile limit decl :=
  ⟨lockHolds_of_keepsLock hlocked, keepsLock_of_lockHolds hlocked⟩

/-- The lock of an import that writes neither a digest nor another version is
kept. -/
theorem keepsLock_iff_hosts :
    KeepsLock exactPackaging hostsLock 32 (hostsImport "hosts" "" (by decide)) := by
  refine (keepsLock_iff exactPackaging hostsLock 32 (hostsImport "hosts" "" (by decide))
    (by decide)).mpr ?_
  intro steps final last hfollows _ _ _ _
  obtain ⟨final', hfollows', hsource, -, hversion, hdigest⟩ :=
    hostsImport_follows "hosts" "" (by decide)
  obtain ⟨rfl, rfl⟩ := hfollows.unique hfollows'
  have hnormalized : final.normalizedSource = "local:hosts.yaml" := by
    rw [ImportDecl.normalizedSource, hsource, if_pos (by decide)]
  have hpin : localPin hostsLock final = "sha256:aa" := by
    unfold localPin
    rw [hdigest]
    rfl
  refine ⟨fun _ _ => ⟨⟨by rw [hpin]; decide, fun record hrecord => ?_⟩, ?_⟩, fun hregistry => ?_⟩
  · obtain rfl := List.mem_singleton.mp hrecord
    rw [hpin]
    exact rfl
  · rw [hversion]
    exact fun version h => h
  · rw [hnormalized] at hregistry
    exact absurd hregistry (by decide)

end Raes.Registry
