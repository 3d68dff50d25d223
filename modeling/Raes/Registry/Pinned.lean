import Raes.Registry.Resolution

/-!
# Chains of lock records

What `followLocked` follows, said as a relation: each step looks a record up by
the reference of the declaration before it and rewrites the declaration.  Of the
declaration that leaves the chain, the source and the version are those of the
last record, the namespace is the authored one, and the digest is the first that
is written.
-/

namespace Raes.Registry

open Contracts ResolutionError

variable {packaging : Packaging} {lockfile : Lockfile}

/-- The references and records that lead from a declaration to one that is not
locked. -/
inductive Follows (packaging : Packaging) (lockfile : Lockfile) :
    ImportDecl → List (String × LockRecord) → ImportDecl → Prop where
  | done {decl : ImportDecl} (unlocked : isLocked decl.normalizedSource = false) :
      Follows packaging lockfile decl [] decl
  | step {decl next final : ImportDecl} {record : LockRecord}
      {steps : List (String × LockRecord)}
      (locked : isLocked decl.normalizedSource = true)
      (found : lockfile.lockedRecord (removePrefix "locked:" decl.normalizedSource) = some record)
      (rewritten : followRecord packaging record decl = some next)
      (rest : Follows packaging lockfile next steps final) :
      Follows packaging lockfile decl ((decl.normalizedSource, record) :: steps) final

/-- The loop returns the end of a chain that repeats no reference and stays in
its budget, and refuses every other one. -/
theorem followLocked_eq_ok_iff (budget : ℕ) (visited : List String) (decl final : ImportDecl) :
    followLocked packaging lockfile budget visited decl = .ok final ↔
      ∃ steps, Follows packaging lockfile decl steps final ∧ steps.length ≤ budget ∧
        (steps.map Prod.fst).Nodup ∧ ∀ reference ∈ steps.map Prod.fst, reference ∉ visited := by
  induction budget generalizing visited decl with
  | zero =>
    unfold followLocked
    by_cases hlocked : isLocked decl.normalizedSource = false
    · rw [if_pos hlocked]
      constructor
      · intro h
        obtain rfl := Except.ok.inj h
        exact ⟨[], .done hlocked, Nat.le_refl _, List.nodup_nil, by simp⟩
      · rintro ⟨steps, hfollows, -, -⟩
        cases hfollows with
        | done _ => rfl
        | step locked _ _ _ => exact absurd hlocked (by simp [locked])
    · rw [if_neg hlocked]
      constructor
      · intro h
        by_cases hvisited : decl.normalizedSource ∈ visited
        · exact absurd h (by simp [hvisited])
        · exact absurd h (by simp [hvisited])
      · rintro ⟨steps, hfollows, hlength, -⟩
        cases hfollows with
        | done unlocked => exact absurd unlocked hlocked
        | step _ _ _ _ => exact absurd hlength (by simp)
  | succ budget ih =>
    unfold followLocked
    by_cases hlocked : isLocked decl.normalizedSource = false
    · rw [if_pos hlocked]
      constructor
      · intro h
        obtain rfl := Except.ok.inj h
        exact ⟨[], .done hlocked, Nat.zero_le _, List.nodup_nil, by simp⟩
      · rintro ⟨steps, hfollows, -, -⟩
        cases hfollows with
        | done _ => rfl
        | step locked _ _ _ => exact absurd hlocked (by simp [locked])
    · rw [if_neg hlocked]
      by_cases hvisited : decl.normalizedSource ∈ visited
      · rw [if_pos hvisited]
        constructor
        · intro h
          exact (nomatch h)
        · rintro ⟨steps, hfollows, -, -, hnew⟩
          cases hfollows with
          | done unlocked => exact absurd unlocked hlocked
          | step _ _ _ _ => exact absurd hvisited (hnew _ (by simp))
      · rw [if_neg hvisited]
        constructor
        · intro h
          cases hfound : lockfile.lockedRecord (removePrefix "locked:" decl.normalizedSource) with
          | none => exact absurd h (by simp [hfound])
          | some record =>
            cases hnext : followRecord packaging record decl with
            | none => exact absurd h (by simp [hfound, hnext])
            | some next =>
              simp only [hfound, hnext] at h
              obtain ⟨steps, hfollows, hlength, hnodup, hnew⟩ := (ih _ _).mp h
              refine ⟨(decl.normalizedSource, record) :: steps,
                .step (by simpa using hlocked) hfound hnext hfollows, Nat.succ_le_succ hlength, ?_, ?_⟩
              · exact List.nodup_cons.mpr
                  ⟨fun hmem => hnew _ hmem List.mem_cons_self, hnodup⟩
              · intro reference hreference
                rcases List.mem_cons.mp hreference with heq | hmem
                · rw [heq]
                  exact hvisited
                · exact fun hold => hnew _ hmem (List.mem_cons_of_mem _ hold)
        · rintro ⟨steps, hfollows, hlength, hnodup, hnew⟩
          cases hfollows with
          | done unlocked => exact absurd unlocked hlocked
          | @step _ next _ record steps _ hfound hnext hrest =>
            simp only [hfound, hnext]
            obtain ⟨hfresh, hnodup⟩ := List.nodup_cons.mp hnodup
            refine (ih _ _).mpr ⟨steps, hrest, Nat.le_of_succ_le_succ hlength, hnodup, ?_⟩
            intro reference hreference hmem
            rcases List.mem_cons.mp hmem with heq | hold
            · exact hfresh (heq ▸ hreference)
            · exact hnew reference (List.mem_cons_of_mem _ hreference) hold

/-! ## The end of a chain -/

theorem followRecord_eq_some {record : LockRecord} {decl next : ImportDecl}
    (h : followRecord packaging record decl = some next) :
    record.source ≠ "" ∧ next.normalizedSource = record.source ∧
      next.namespace = decl.namespace ∧ next.version = record.requestedVersion ∧
      next.parameters = decl.parameters ∧
      next.digest = orText decl.digest record.contentDigest := by
  unfold followRecord importDecl at h
  split at h
  · rename_i hvalid
    obtain rfl := Option.some.inj h
    refine ⟨hvalid.1, if_pos hvalid.1, ?_, rfl, rfl, rfl⟩
    show orText decl.namespace record.namespace = decl.namespace
    rw [orText, if_neg decl.namespace_ne]
  · exact (nomatch h)

theorem Follows.last {decl final : ImportDecl} {steps : List (String × LockRecord)}
    (h : Follows packaging lockfile decl steps final) {last : String × LockRecord}
    (hlast : steps.getLast? = some last) :
    final.normalizedSource = last.2.source ∧ final.version = last.2.requestedVersion := by
  induction h with
  | done _ => exact (nomatch hlast)
  | @step decl next final record steps locked found rewritten rest ih =>
    cases rest with
    | done _ =>
      obtain rfl := Option.some.inj hlast
      obtain ⟨-, hsource, -, hversion, -⟩ := followRecord_eq_some rewritten
      exact ⟨hsource, hversion⟩
    | step _ _ _ _ => exact ih hlast

theorem Follows.unique {decl final final' : ImportDecl} {steps steps' : List (String × LockRecord)}
    (h : Follows packaging lockfile decl steps final)
    (h' : Follows packaging lockfile decl steps' final') : steps = steps' ∧ final = final' := by
  induction h generalizing steps' with
  | done unlocked =>
    cases h' with
    | done _ => exact ⟨rfl, rfl⟩
    | step locked _ _ _ => exact absurd unlocked (by simp [locked])
  | step locked found rewritten _ ih =>
    cases h' with
    | done unlocked => exact absurd unlocked (by simp [locked])
    | step _ found' rewritten' rest' =>
      obtain rfl := Option.some.inj (found.symm.trans found')
      obtain rfl := Option.some.inj (rewritten.symm.trans rewritten')
      obtain ⟨rfl, rfl⟩ := ih rest'
      exact ⟨rfl, rfl⟩

end Raes.Registry

/-!
# What a locked import is pinned to

The checks at the end of a chain compare a module with the declaration that left
the chain: with its digest, which is the first one written, with its version,
which is that of the last record, and with the record that is found again under
its source, namespace and version.  They are checks against the records that
were followed where these agree, and `LockHolds` says when.
-/

namespace Raes.Registry

open Contracts ResolutionError

variable {packaging : Packaging} {world : World} {lockfile : Lockfile}

/-- Digests as `_validate_digest_pin` compares them. -/
def SameDigest (a b : String) : Prop := removePrefix "sha256:" a = removePrefix "sha256:" b

/-! ## What the final checks establish -/

theorem validateDigestPin_eq_ok_iff {actual expected source : String} :
    validateDigestPin world actual expected source = .ok () ↔
      (expected ≠ "" → SameDigest actual expected) := by
  unfold validateDigestPin SameDigest
  rw [refuse_eq_ok_iff, not_and, not_not]

variable {module : ResolvedModule} {decl : ImportDecl}

/-- A local module has the digest that pins its declaration and the one of the
record found again, and its version is the one requested. -/
theorem resolveLocalImport_eq_ok {context : Context} {source : String}
    (hsupplied : context.suppliedSources = none)
    (h : resolveLocalImport packaging world context decl source = .ok module) :
    (decl.digest ≠ "" → SameDigest module.contentDigest decl.digest) ∧
      (∀ locked ∈ lockRecordFor context.lockfile decl, locked.contentDigest ≠ "" →
        SameDigest module.contentDigest locked.contentDigest) ∧
      satisfiesVersion packaging module.moduleDescriptor.version decl.version = true := by
  unfold resolveLocalImport at h
  obtain ⟨-, h⟩ := seq_eq_ok_iff.mp h
  obtain ⟨⟨importPath, importedSource⟩, -, h⟩ := bind_eq_ok_iff.mp h
  obtain ⟨module?, -, h⟩ := bind_eq_ok_iff.mp h
  obtain ⟨descriptor, -, h⟩ := bind_eq_ok_iff.mp h
  obtain ⟨hversion, h⟩ := seq_eq_ok_iff.mp h
  obtain ⟨-, h⟩ := seq_eq_ok_iff.mp h
  obtain ⟨hpin, h⟩ := seq_eq_ok_iff.mp h
  obtain ⟨hlock, h⟩ := seq_eq_ok_iff.mp h
  obtain ⟨-, h⟩ := seq_eq_ok_iff.mp h
  obtain rfl := Except.ok.inj h
  refine ⟨validateDigestPin_eq_ok_iff.mp hpin, ?_, by simpa using hversion⟩
  intro locked hlocked
  unfold requireLocalLock at hlock
  rw [hsupplied, Option.mem_def.mp hlocked] at hlock
  exact validateDigestPin_eq_ok_iff.mp hlock

/-- A registry module has the digest that pins its declaration and the requested
version, and agrees with the record found again. -/
theorem resolveOciImport_eq_ok {source baseDir : String}
    {lockfile : Option Lockfile} {trustPolicy : TrustPolicy}
    (h : resolveOciImport packaging world decl source baseDir lockfile trustPolicy = .ok module) :
    (decl.digest ≠ "" → SameDigest module.contentDigest decl.digest) ∧
      satisfiesVersion packaging module.moduleDescriptor.version decl.version = true ∧
      ∀ locked ∈ lockRecordFor lockfile decl, module.manifestDigest = locked.manifestDigest ∧
        module.moduleDescriptor.id = locked.moduleId ∧ module.exportHash = locked.exportHash := by
  unfold resolveOciImport at h
  obtain ⟨⟨registry, repository⟩, -, h⟩ := bind_eq_ok_iff.mp h
  obtain ⟨policy, -, h⟩ := bind_eq_ok_iff.mp h
  obtain ⟨⟨manifestDigest, manifest⟩, hmanifest, h⟩ := bind_eq_ok_iff.mp h
  obtain ⟨⟨payload, layerDigest⟩, -, h⟩ := bind_eq_ok_iff.mp h
  obtain ⟨bundleBytes, -, h⟩ := bind_eq_ok_iff.mp h
  obtain ⟨⟨descriptor, contentDigest, rootFile⟩, hdescriptor, h⟩ :=
    bind_eq_ok_iff.mp h
  obtain ⟨signerId, -, h⟩ := bind_eq_ok_iff.mp h
  obtain ⟨bundle, -, h⟩ := bind_eq_ok_iff.mp h
  obtain ⟨⟨rootPath, document⟩, -, h⟩ := bind_eq_ok_iff.mp h
  obtain ⟨-, h⟩ := seq_eq_ok_iff.mp h
  obtain ⟨hexports, h⟩ := seq_eq_ok_iff.mp h
  obtain rfl := Except.ok.inj h
  -- the manifest
  unfold resolveOciManifest at hmanifest
  obtain ⟨reference, -, hmanifest⟩ := bind_eq_ok_iff.mp hmanifest
  obtain ⟨manifestBytes, -, hmanifest⟩ := bind_eq_ok_iff.mp hmanifest
  obtain ⟨decoded, -, hmanifest⟩ := bind_eq_ok_iff.mp hmanifest
  obtain ⟨hlockedManifest, hmanifest⟩ := seq_eq_ok_iff.mp hmanifest
  obtain ⟨rfl, -⟩ := Prod.mk.inj (Except.ok.inj hmanifest)
  -- the descriptor
  unfold buildOciDescriptor at hdescriptor
  obtain ⟨described, -, hdescriptor⟩ := bind_eq_ok_iff.mp hdescriptor
  obtain ⟨hid, hdescriptor⟩ := seq_eq_ok_iff.mp hdescriptor
  obtain ⟨hversion, hdescriptor⟩ := seq_eq_ok_iff.mp hdescriptor
  obtain ⟨hpin, hdescriptor⟩ := seq_eq_ok_iff.mp hdescriptor
  obtain ⟨root, -, hdescriptor⟩ := bind_eq_ok_iff.mp hdescriptor
  obtain ⟨hdescribed, hcontent⟩ := Prod.mk.inj (Except.ok.inj hdescriptor)
  obtain ⟨hcontent, -⟩ := Prod.mk.inj hcontent
  subst hdescribed hcontent
  refine ⟨validateDigestPin_eq_ok_iff.mp hpin, by simpa using hversion, ?_⟩
  intro locked hlocked
  rw [refuse_eq_ok_iff] at hlockedManifest hid hexports
  refine ⟨?_, ?_, ?_⟩
  · by_contra hne
    exact hlockedManifest ⟨locked, hlocked, fun heq => hne heq.symm⟩
  · by_contra hne
    exact hid ⟨locked, hlocked, fun heq => hne heq.symm⟩
  · by_contra hne
    exact hexports ⟨locked, hlocked, fun heq => hne heq.symm⟩

/-! ## Dispatch -/

theorem startsWith_iff {start text : String} :
    startsWith start text = true ↔ ∃ rest, text.toList = start.toList ++ rest := by
  unfold startsWith
  rw [List.isPrefixOf_iff_prefix]
  exact ⟨fun ⟨rest, h⟩ => ⟨rest, h.symm⟩, fun ⟨rest, h⟩ => ⟨rest, h.symm⟩⟩

theorem not_local_of_isLocked {source : String} (h : isLocked source = true) :
    startsWith "local:" source = false := by
  obtain ⟨rest, hrest⟩ := startsWith_iff.mp h
  by_contra hlocal
  obtain ⟨rest', hrest'⟩ := startsWith_iff.mp ((Bool.not_eq_false _).mp hlocal)
  rw [hrest] at hrest'
  exact absurd hrest' (by simp)

theorem not_local_of_registry {source : String} (h : startsWith "oci:" source = true) :
    startsWith "local:" source = false := by
  obtain ⟨rest, hrest⟩ := startsWith_iff.mp h
  by_contra hlocal
  obtain ⟨rest', hrest'⟩ := startsWith_iff.mp ((Bool.not_eq_false _).mp hlocal)
  rw [hrest] at hrest'
  exact absurd hrest' (by simp)

theorem resolveImport_eq_ok_iff {context : Context} (hlockfile : context.lockfile = some lockfile)
    (hlocked : isLocked decl.normalizedSource = true) :
    resolveImport packaging world context decl = .ok module ↔
      context.suppliedSources = none ∧ ∃ steps final,
        Follows packaging lockfile decl steps final ∧
        steps.length ≤ context.maxCompositionDepth ∧ (steps.map Prod.fst).Nodup ∧
        resolveUnlockedImport packaging world context final = .ok module := by
  unfold resolveImport resolveLockedImport
  rw [hlockfile]
  by_cases hsupplied : context.suppliedSources = none
  · simp only [hsupplied, Option.isSome_none, Bool.false_eq_true, false_and, if_false, hlocked,
      if_true, true_and]
    rw [bind_eq_ok_iff]
    constructor
    · rintro ⟨final, hfinal, h⟩
      obtain ⟨steps, hfollows, hlength, hnodup, -⟩ := (followLocked_eq_ok_iff _ _ _ _).mp hfinal
      exact ⟨steps, final, hfollows, hlength, hnodup, h⟩
    · rintro ⟨steps, final, hfollows, hlength, hnodup, h⟩
      exact ⟨final, (followLocked_eq_ok_iff _ _ _ _).mpr
        ⟨steps, hfollows, hlength, hnodup, fun _ _ => List.not_mem_nil⟩, h⟩
  · have hsome : context.suppliedSources.isSome = true := Option.isSome_iff_ne_none.mpr hsupplied
    rw [if_pos ⟨hsome, not_local_of_isLocked hlocked⟩]
    constructor
    · intro h
      exact (nomatch h)
    · rintro ⟨hnone, -⟩
      exact absurd hnone hsupplied

/-! ## Kept locks -/

/-- A module is the one that the followed records pin, at a version that is
admitted by the import. -/
structure KeptBy (packaging : Packaging) (decl : ImportDecl) (records : List LockRecord)
    (last : LockRecord) (module : ResolvedModule) : Prop where
  content : ∀ record ∈ records, SameDigest module.contentDigest record.contentDigest
  version : satisfiesVersion packaging module.moduleDescriptor.version decl.version = true
  registry : startsWith "oci:" last.source = true →
    module.manifestDigest = last.manifestDigest ∧ module.moduleDescriptor.id = last.moduleId ∧
      module.exportHash = last.exportHash

/-- Whatever the reads answer, a locked import that resolves has followed a
chain that repeats no reference and stays within its budget, and the module is
the one that the records of the chain pin. -/
def KeepsLock (packaging : Packaging) (lockfile : Lockfile) (limit : ℕ) (decl : ImportDecl) :
    Prop :=
  ∀ (world : World) (context : Context) (module : ResolvedModule),
    context.lockfile = some lockfile → context.maxCompositionDepth = limit →
    resolveImport packaging world context decl = .ok module →
    ∃ steps final last, Follows packaging lockfile decl steps final ∧ steps.length ≤ limit ∧
      (steps.map Prod.fst).Nodup ∧ steps.getLast? = some last ∧
      KeptBy packaging decl (steps.map Prod.snd) last.2 module

structure Pins (pin : String) (records : List LockRecord) : Prop where
  written : pin ≠ ""
  recorded : ∀ record ∈ records, SameDigest pin record.contentDigest

def Narrows (packaging : Packaging) (requested authored : String) : Prop :=
  ∀ version, satisfiesVersion packaging version requested = true →
    satisfiesVersion packaging version authored = true

/-- The digest that pins a local module: that of its declaration, or else that
of the record found again. -/
def localPin (lockfile : Lockfile) (final : ImportDecl) : String :=
  orText final.digest (((lockRecordFor (some lockfile) final).map (·.contentDigest)).getD "")

/-- No two pins of a local module refuse each other. -/
def PinsAgree (lockfile : Lockfile) (final : ImportDecl) : Prop :=
  final.digest ≠ "" → ∀ locked ∈ lockRecordFor (some lockfile) final,
    locked.contentDigest ≠ "" → SameDigest final.digest locked.contentDigest

/-- A registry source has a repository, and a tag where no record names the
manifest. -/
def RegistryReachable (packaging : Packaging) (lockfile : Lockfile) (final : ImportDecl) : Prop :=
  (∃ parts, parseOciSource final.normalizedSource = .ok parts) ∧
    (lockRecordFor (some lockfile) final = none →
      ∃ tags tag, selectTag packaging tags final.version = .ok tag)

def FoundAgain (lockfile : Lockfile) (final : ImportDecl) (last : LockRecord) : Prop :=
  ∃ again, lockRecordFor (some lockfile) final = some again ∧
    again.manifestDigest = last.manifestDigest ∧ again.moduleId = last.moduleId ∧
    again.exportHash = last.exportHash

/-- The lock of an import holds: at the end of its chain, where any module could
be admitted at all, the digest that pins the module is that of every record, the
version of the last record is as narrow as the authored one, and a registry
module finds the last record again. -/
def LockHolds (packaging : Packaging) (lockfile : Lockfile) (limit : ℕ) (decl : ImportDecl) :
    Prop :=
  ∀ steps final last, Follows packaging lockfile decl steps final → steps.length ≤ limit →
    (steps.map Prod.fst).Nodup → steps.getLast? = some last →
    (∃ version, satisfiesVersion packaging version final.version = true) →
    (startsWith "local:" final.normalizedSource = true → PinsAgree lockfile final →
      Pins (localPin lockfile final) (steps.map Prod.snd) ∧
        Narrows packaging final.version decl.version) ∧
    (startsWith "oci:" final.normalizedSource = true →
      RegistryReachable packaging lockfile final →
      Pins final.digest (steps.map Prod.snd) ∧ Narrows packaging final.version decl.version ∧
        FoundAgain lockfile final last.2)

end Raes.Registry
