import Mathlib.Data.List.Induction
import Raes.Lib.ExceptList

/-!
# Paths of supplied sources

`raes/_supplied_sources.py`.  A document is found by the path that an import gives
relative to the directory of the importing document.  A text is its list of
characters.
-/

namespace Raes.Registry

abbrev PathText := List Char

def dot : PathText := ['.']

def dotdot : PathText := ['.', '.']

/-- `"/".join(parts)` -/
def joinParts (parts : List PathText) : PathText := ['/'].intercalate parts

/-- The components of `PurePosixPath(text)`, less the root of an absolute path. -/
def pathParts (text : PathText) : List PathText :=
  (text.splitOn '/').filter fun part => part ≠ [] ∧ part ≠ dot

inductive SourceError where
  | pathInvalid (message : String)
  | sourceMissing (message : String)

def escapes : SourceError := .pathInvalid "Local import path escapes base directory."

def isDrive (part : PathText) : Prop := part.length = 2 ∧ part[1]? = some ':'

instance (part : PathText) : Decidable (isDrive part) := inferInstanceAs (Decidable (_ ∧ _))

/-- `_invalid_reference`: the text is empty, has a NUL, is absolute or names a drive. -/
def invalidReference (normalized : PathText) : Prop :=
  normalized = [] ∨ '\x00' ∈ normalized ∨ normalized.head? = some '/' ∨
    isDrive ((pathParts normalized).headD [])

instance (normalized : PathText) : Decidable (invalidReference normalized) :=
  inferInstanceAs (Decidable (_ ∨ _ ∨ _ ∨ _))

def slashed (relative : PathText) : PathText := relative.map fun c => if c = '\\' then '/' else c

def descend (parts : List PathText) (part : PathText) : Except SourceError (List PathText) :=
  if part ≠ dotdot then .ok (parts ++ [part])
  else if parts ≠ [] then .ok parts.dropLast
  else .error escapes

def baseParts (baseRelative : PathText) : List PathText :=
  if baseRelative = dot then [] else pathParts baseRelative

def normalizeBundlePath (baseRelative relative : PathText) : Except SourceError PathText :=
  if invalidReference (slashed relative) then .error escapes
  else do
    let parts ← (pathParts (slashed relative)).foldlM descend (baseParts baseRelative)
    if parts = [] then .error escapes else .ok (joinParts parts)

def canonicalRelative (path : PathText) : Prop :=
  path ≠ [] ∧ '\x00' ∉ path ∧ '\\' ∉ path ∧ ':' ∉ (path.splitOn '/').headD [] ∧
    ∀ part ∈ path.splitOn '/', part ∉ [[], dot, dotdot]

instance (path : PathText) : Decidable (canonicalRelative path) :=
  inferInstanceAs (Decidable (_ ∧ _ ∧ _ ∧ _ ∧ _))

/-- The documents of one parse; `capture` checks that every path is canonical. -/
structure SuppliedSources (β : Type) where
  documents : PathText → Option β
  canonical : ∀ path data, documents path = some data → canonicalRelative path

/-- The virtual path of a document, and of a directory below the root. -/
def virtualPath (logical : PathText) : PathText := '/' :: logical

/-- `_logical` -/
def logicalPath (path : PathText) : Except SourceError PathText :=
  let relative := if path.head? = some '/' then path.tail else path
  if path.head? ≠ some '/' ∨ relative ≠ [] ∧ ¬ canonicalRelative relative then .error escapes
  else .ok relative

/-- `logical or "."` -/
def orDot (logical : PathText) : PathText := if logical = [] then dot else logical

def SuppliedSources.resolve {β : Type} (sources : SuppliedSources β)
    (baseDir relative : PathText) : Except SourceError (PathText × β) := do
  let base ← logicalPath baseDir
  let target ← normalizeBundlePath (orDot base) relative
  match sources.documents target with
  | none => .error (.sourceMissing "A supplied source is not in the source set.")
  | some data => .ok (virtualPath target, data)

/-- The components of `abspath` of an absolute path. -/
def absParts (path : PathText) : List PathText :=
  (path.splitOn '/').foldl (fun parts part =>
    if part = [] ∨ part = dot then parts
    else if part = dotdot then parts.dropLast
    else parts ++ [part]) []

/-- The length of the `commonprefix` of two lists. -/
def commonPrefix : List PathText → List PathText → Nat
  | x :: xs, y :: ys => if x = y then commonPrefix xs ys + 1 else 0
  | _, _ => 0

def relativeParts (start path : List PathText) : List PathText :=
  List.replicate (start.length - commonPrefix start path) dotdot ++
    path.drop (commonPrefix start path)

/-- `join(*parts)`, or the current directory. -/
def joinRelative (parts : List PathText) : PathText := if parts = [] then dot else joinParts parts

/-- `relative_identity`: `posixpath.relpath(target, base_dir)`. -/
def relativeIdentity (target baseDir : PathText) : PathText :=
  joinRelative (relativeParts (absParts baseDir) (absParts target))

/-! ## Lexical resolution -/

/-- Following a reference from a directory, one component after the other; a step to
the parent needs a component to leave. -/
inductive Resolves : List PathText → List PathText → List PathText → Prop where
  | here (dir : List PathText) : Resolves dir [] dir
  | down {dir rest final : List PathText} {part : PathText} : part ≠ dotdot →
      Resolves (dir ++ [part]) rest final → Resolves dir (part :: rest) final
  | up {dir rest final : List PathText} (last : PathText) :
      Resolves dir rest final → Resolves (dir ++ [last]) (dotdot :: rest) final

variable {dir rest final start path : List PathText}

theorem foldlM_descend_iff : rest.foldlM descend dir = .ok final ↔ Resolves dir rest final := by
  constructor
  · intro h
    induction rest generalizing dir with
    | nil =>
      cases h
      exact .here _
    | cons part rest ih =>
      rw [List.foldlM_cons, bind_eq_ok_iff] at h
      obtain ⟨next, hnext, h⟩ := h
      unfold descend at hnext
      split at hnext
      · next hpart =>
        cases hnext
        exact .down hpart (ih h)
      · next hpart =>
        obtain rfl := not_not.mp hpart
        split at hnext
        · next hdir =>
          cases hnext
          rw [← List.dropLast_append_getLast hdir]
          exact .up _ (ih h)
        · cases hnext
  · intro h
    induction h with
    | here dir => rfl
    | down hpart _ ih =>
      rw [List.foldlM_cons, descend, if_pos hpart]
      exact ih
    | up last _ ih =>
      rw [List.foldlM_cons, descend, if_neg (not_not.mpr rfl),
        if_pos (List.append_ne_nil_of_right_ne_nil _ (List.cons_ne_nil _ _)), List.dropLast_concat]
      exact ih

theorem Resolves.forall_mem {P : PathText → Prop} (h : Resolves dir rest final)
    (hdir : ∀ part ∈ dir, P part) (hrest : ∀ part ∈ rest, part ≠ dotdot → P part) :
    ∀ part ∈ final, P part := by
  induction h with
  | here dir => exact hdir
  | down hpart _ ih =>
    rw [List.forall_mem_cons] at hrest
    exact ih (List.forall_mem_append.mpr ⟨hdir, by simpa using hrest.1 hpart⟩) hrest.2
  | up last _ ih =>
    rw [List.forall_mem_cons] at hrest
    exact ih (List.forall_mem_append.mp hdir).1 hrest.2

theorem resolves_unique {other : List PathText} (h : Resolves dir rest final)
    (h' : Resolves dir rest other) : final = other :=
  Except.ok.inj ((foldlM_descend_iff.mpr h).symm.trans (foldlM_descend_iff.mpr h'))

/-- Leaving every component of a suffix leads back to the directory before it. -/
theorem resolves_replicate (suffix : List PathText) (h : Resolves dir rest final) :
    Resolves (dir ++ suffix) (List.replicate suffix.length dotdot ++ rest) final := by
  induction suffix using List.reverseRecOn with
  | nil => simpa using h
  | append_singleton suffix last ih =>
    rw [← List.append_assoc, List.length_append, List.length_singleton, List.replicate_succ]
    exact .up last ih

theorem resolves_down (hpath : ∀ part ∈ path, part ≠ dotdot) :
    Resolves dir path (dir ++ path) := by
  induction path generalizing dir with
  | nil => simpa using Resolves.here dir
  | cons part path ih =>
    rw [List.forall_mem_cons] at hpath
    rw [List.append_cons]
    exact .down hpath.1 (ih hpath.2)

theorem resolves_relativeParts (dir : List PathText) (hpath : ∀ part ∈ path, part ≠ dotdot) :
    Resolves (dir ++ start) (relativeParts start path) (dir ++ path) := by
  induction start generalizing dir path with
  | nil => simpa [relativeParts, commonPrefix] using resolves_down hpath
  | cons x start ih =>
    cases path with
    | nil => simpa [relativeParts, commonPrefix] using resolves_replicate (x :: start) (.here dir)
    | cons y path =>
      by_cases heq : x = y
      · subst heq
        rw [List.forall_mem_cons] at hpath
        rw [List.append_cons, List.append_cons dir x path]
        simpa [relativeParts, commonPrefix] using ih (dir ++ [x]) hpath.2
      · simpa [relativeParts, commonPrefix, heq] using
          resolves_replicate (x :: start) (resolves_down hpath)

/-! ## Canonical paths -/

/-- A component of a relative identity: it may lead to the parent. -/
def Relative (part : PathText) : Prop :=
  (part ≠ [] ∧ part ≠ dot ∧ '/' ∉ part) ∧ '\x00' ∉ part ∧ '\\' ∉ part

/-- A component of a canonical path. -/
def Plain (part : PathText) : Prop := Relative part ∧ part ≠ dotdot

variable {parts : List PathText} {text part : PathText}

theorem slash_notMem (h : part ∈ text.splitOn '/') : '/' ∉ part := by
  induction hn : text.length using Nat.strongRecOn generalizing text with
  | ind n ih =>
    by_cases hslash : '/' ∈ text
    · obtain ⟨first, rest, rfl, hfirst⟩ := List.eq_append_cons_of_mem hslash
      rw [List.splitOn_append_cons_self_of_not_mem hfirst, List.mem_cons] at h
      rcases h with rfl | h
      · exact hfirst
      · exact ih rest.length (by simp at hn; omega) h rfl
    · rw [List.splitOn_eq_singleton hslash, List.mem_singleton] at h
      exact h ▸ hslash

theorem mem_joinParts_iff {c : Char} (hc : c ≠ '/') :
    c ∈ joinParts parts ↔ ∃ part ∈ parts, c ∈ part := by
  induction parts with
  | nil => simp [joinParts]
  | cons part rest ih =>
    cases rest with
    | nil => simp [joinParts]
    | cons next rest =>
      have hjoin : joinParts (part :: next :: rest) = part ++ '/' :: joinParts (next :: rest) := by
        simp [joinParts, List.intercalate]
      rw [hjoin, List.mem_append, List.mem_cons, ih]
      simp [hc]

theorem pathParts_joinParts (h : ∀ part ∈ parts, part ≠ [] ∧ part ≠ dot ∧ '/' ∉ part) :
    pathParts (joinParts parts) = parts := by
  cases parts with
  | nil => rfl
  | cons part rest =>
    rw [pathParts, joinParts, List.splitOn_intercalate _ (fun p hp => (h p hp).2.2) (by simp)]
    exact List.filter_eq_self.mpr fun p hp => by simp [(h p hp).1, (h p hp).2.1]

theorem canonicalRelative_joinParts (hplain : ∀ part ∈ parts, Plain part) (hne : parts ≠ []) :
    canonicalRelative (joinParts parts) ↔ ':' ∉ parts.headD [] := by
  have hsplit : (joinParts parts).splitOn '/' = parts :=
    List.splitOn_intercalate _ (fun p hp => (hplain p hp).1.1.2.2) hne
  unfold canonicalRelative
  rw [hsplit, mem_joinParts_iff (by decide), mem_joinParts_iff (by decide)]
  have hempty : joinParts parts ≠ [] := by
    intro h
    rw [h] at hsplit
    exact (hplain [] (hsplit ▸ List.mem_singleton_self _)).1.1.1 rfl
  constructor
  · exact fun h => h.2.2.2.1
  · refine fun h => ⟨hempty, ?_, ?_, h, ?_⟩
    · rintro ⟨p, hp, hc⟩
      exact (hplain p hp).1.2.1 hc
    · rintro ⟨p, hp, hc⟩
      exact (hplain p hp).1.2.2 hc
    · intro p hp
      simp [(hplain p hp).1.1.1, (hplain p hp).1.1.2.1, (hplain p hp).2]

theorem exists_parts (h : canonicalRelative text) :
    ∃ parts ≠ [], (∀ part ∈ parts, Plain part) ∧ ':' ∉ parts.headD [] ∧ text = joinParts parts := by
  obtain ⟨-, hnul, hback, hcolon, hparts⟩ := h
  have htext : text = joinParts (text.splitOn '/') := (List.intercalate_splitOn '/').symm
  refine ⟨_, ?_, fun p hp => ?_, hcolon, htext⟩
  · exact List.splitOn_ne_nil '/' text
  · have hp' := hparts p hp
    simp only [List.mem_cons, List.not_mem_nil, or_false, not_or] at hp'
    rw [htext, mem_joinParts_iff (by decide)] at hnul hback
    exact ⟨⟨⟨hp'.1, hp'.2.1, slash_notMem hp⟩, fun hc => hnul ⟨p, hp, hc⟩,
      fun hc => hback ⟨p, hp, hc⟩⟩, hp'.2.2⟩

theorem exists_dirParts (h : text = [] ∨ canonicalRelative text) :
    ∃ parts, (∀ part ∈ parts, Plain part) ∧ text = joinParts parts := by
  rcases h with rfl | h
  · exact ⟨[], by simp, rfl⟩
  · obtain ⟨parts, -, hplain, -, htext⟩ := exists_parts h
    exact ⟨parts, hplain, htext⟩

theorem baseParts_joinParts (hplain : ∀ part ∈ parts, Plain part) :
    baseParts (orDot (joinParts parts)) = parts := by
  have hpath := pathParts_joinParts fun p hp => (hplain p hp).1.1
  unfold baseParts orDot
  by_cases hempty : joinParts parts = []
  · rw [if_pos hempty, if_pos rfl, ← hpath, hempty]
    rfl
  · rw [if_neg hempty]
    split
    · next hdot => rw [← hpath, hdot]; rfl
    · exact hpath

theorem absParts_virtualPath (hplain : ∀ part ∈ parts, Plain part) :
    absParts (virtualPath (joinParts parts)) = parts := by
  have hpush : ∀ parts, (∀ part ∈ parts, Plain part) → ∀ stack : List PathText,
      parts.foldl (fun stack part => if part = [] ∨ part = dot then stack
        else if part = dotdot then stack.dropLast else stack ++ [part]) stack = stack ++ parts := by
    intro parts hplain
    induction parts with
    | nil => simp
    | cons part parts ih =>
      rw [List.forall_mem_cons] at hplain
      intro stack
      rw [List.foldl_cons, if_neg (not_or.mpr ⟨hplain.1.1.1.1, hplain.1.1.1.2.1⟩),
        if_neg hplain.1.2, ih hplain.2, List.append_assoc]
      rfl
  unfold absParts virtualPath
  have hslash : ('/' :: joinParts parts).splitOn '/' = [] :: (joinParts parts).splitOn '/' :=
    List.splitOn_append_cons_self_of_not_mem List.not_mem_nil _
  rw [hslash, List.foldl_cons, if_pos (.inl rfl)]
  cases parts with
  | nil => rfl
  | cons part parts =>
    rw [joinParts, List.splitOn_intercalate _ (fun p hp => (hplain p hp).1.1.2.2) (by simp)]
    exact hpush _ hplain []

/-! ## Both directions -/

theorem normalizeBundlePath_eq_ok_iff {base reference result : PathText} :
    normalizeBundlePath base reference = .ok result ↔ ¬ invalidReference (slashed reference) ∧
      ∃ final ≠ [], Resolves (baseParts base) (pathParts (slashed reference)) final ∧
        result = joinParts final := by
  unfold normalizeBundlePath
  by_cases hinvalid : invalidReference (slashed reference)
  · simp [hinvalid]
  · rw [if_neg hinvalid, bind_eq_ok_iff]
    simp only [foldlM_descend_iff, hinvalid, not_false_eq_true, true_and]
    refine exists_congr fun final => ?_
    by_cases hfinal : final = []
    · simp [hfinal]
    · rw [if_neg hfinal, Except.ok.injEq, eq_comm]
      exact ⟨fun h => ⟨hfinal, h⟩, fun h => h.2⟩

theorem plain_of_resolves {reference : PathText} (hplain : ∀ part ∈ dir, Plain part)
    (hvalid : ¬ invalidReference (slashed reference))
    (h : Resolves dir (pathParts (slashed reference)) final) : ∀ part ∈ final, Plain part := by
  refine h.forall_mem hplain fun part hpart hup => ?_
  rw [pathParts, List.mem_filter, decide_eq_true_eq] at hpart
  obtain ⟨hmem, hempty, hdot⟩ := hpart
  have hchar : ∀ c ≠ '/', c ∈ part → c ∈ slashed reference := by
    intro c hc hcpart
    have htext : joinParts ((slashed reference).splitOn '/') = slashed reference :=
      List.intercalate_splitOn '/'
    rw [← htext]
    exact (mem_joinParts_iff hc).mpr ⟨part, hmem, hcpart⟩
  refine ⟨⟨⟨hempty, hdot, slash_notMem hmem⟩,
    fun hc => hvalid (.inr (.inl (hchar _ (by decide) hc))), fun hc => ?_⟩, hup⟩
  obtain ⟨c, -, hslash⟩ := List.mem_map.mp (hchar _ (by decide) hc)
  split at hslash
  · exact absurd hslash (by decide)
  · contradiction

theorem relativeParts_append (start rest : List PathText) :
    relativeParts start (start ++ rest) = rest := by
  induction start with
  | nil => rfl
  | cons x start ih => simpa [relativeParts, commonPrefix] using ih

theorem eq_append_of_relativeParts (h : relativeParts start path = part :: rest)
    (hpart : part ≠ dotdot) : path = start ++ part :: rest := by
  induction start generalizing path with
  | nil => simpa [relativeParts, commonPrefix] using h
  | cons x start ih =>
    cases path with
    | nil => exact absurd (List.cons.inj h).1.symm hpart
    | cons y path =>
      by_cases heq : x = y
      · subst heq
        exact congrArg _ (ih (by simpa [relativeParts, commonPrefix] using h))
      · rw [relativeParts, commonPrefix, if_neg heq] at h
        exact absurd (List.cons.inj h).1.symm hpart

/-! ## Relative identities -/

theorem relative_of_mem (hplain : ∀ part ∈ path, Plain part) (hpart : part ∈ relativeParts start path) :
    Relative part := by
  rcases List.mem_append.mp hpart with hup | hdown
  · rw [List.eq_of_mem_replicate hup, Relative]
    decide
  · exact (hplain part (List.mem_of_mem_drop hdown)).1

section

variable (hparts : ∀ part ∈ parts, Relative part)
include hparts

theorem pathParts_joinRelative : pathParts (joinRelative parts) = parts := by
  unfold joinRelative
  split
  · next hempty =>
    rw [hempty]
    rfl
  · exact pathParts_joinParts fun part hpart => (hparts part hpart).1

theorem slashed_joinRelative : slashed (joinRelative parts) = joinRelative parts := by
  conv_rhs => rw [← List.map_id (joinRelative parts)]
  refine List.map_congr_left fun c hc => if_neg ?_
  rintro rfl
  unfold joinRelative at hc
  split at hc
  · exact absurd hc (by decide)
  · obtain ⟨part, hpart, hback⟩ := (mem_joinParts_iff (by decide)).mp hc
    exact (hparts part hpart).2.2 hback

theorem invalidReference_joinRelative_iff :
    invalidReference (joinRelative parts) ↔ isDrive (parts.headD []) := by
  rw [invalidReference, pathParts_joinRelative hparts]
  refine ⟨?_, fun h => .inr (.inr (.inr h))⟩
  unfold joinRelative
  cases parts with
  | nil => rintro (h | h | h | h) <;> exact absurd h (by decide)
  | cons part rest =>
    obtain ⟨⟨hne, -, hslash⟩, -⟩ := hparts part List.mem_cons_self
    obtain ⟨c, part, rfl⟩ := List.exists_cons_of_ne_nil hne
    obtain ⟨tail, htail⟩ : ∃ tail, joinParts ((c :: part) :: rest) = c :: tail := by
      cases rest <;> exact ⟨_, by simp [joinParts, List.intercalate]; rfl⟩
    rw [if_neg (List.cons_ne_nil _ _)]
    rintro (h | h | h | h)
    · exact absurd (htail.symm.trans h) (List.cons_ne_nil _ _)
    · obtain ⟨part, hpart, hnul⟩ := (mem_joinParts_iff (by decide)).mp h
      exact absurd hnul (hparts part hpart).2.1
    · rw [htail] at h
      exact absurd (Option.some.inj h ▸ List.mem_cons_self) hslash
    · exact h

end

theorem relativeIdentity_eq (hpath : ∀ part ∈ path, Plain part) (hstart : ∀ part ∈ start, Plain part) :
    relativeIdentity (virtualPath (joinParts path)) (virtualPath (joinParts start)) =
      joinRelative (relativeParts start path) := by
  rw [relativeIdentity, absParts_virtualPath hpath, absParts_virtualPath hstart]

theorem normalizeBundlePath_relative (hpath : ∀ part ∈ path, Plain part)
    (hstart : ∀ part ∈ start, Plain part) (hne : path ≠ []) (result : PathText) :
    normalizeBundlePath (orDot (joinParts start)) (joinRelative (relativeParts start path)) =
        .ok result ↔
      ¬ isDrive ((relativeParts start path).headD []) ∧ result = joinParts path := by
  have hparts : ∀ part ∈ relativeParts start path, Relative part :=
    fun part hpart => relative_of_mem hpath hpart
  rw [normalizeBundlePath_eq_ok_iff, slashed_joinRelative hparts,
    invalidReference_joinRelative_iff hparts, pathParts_joinRelative hparts,
    baseParts_joinParts hstart]
  refine and_congr_right fun _ => ?_
  have hresolves : Resolves start (relativeParts start path) path :=
    resolves_relativeParts [] fun part hpart => (hpath part hpart).2
  constructor
  · rintro ⟨final, -, hfinal, rfl⟩
    rw [resolves_unique hfinal hresolves]
  · rintro rfl
    exact ⟨path, hne, hresolves, rfl⟩

/-- What a reference resolves to is canonical unless its first component has a colon;
a relative identity determines its target, and it is followed back to the target
unless the target's first component below the directory looks like a drive. -/
theorem supplied_source_paths {β : Type} (dir : PathText) (hdir : dir = [] ∨ canonicalRelative dir) :
    (∀ reference, (∀ result, normalizeBundlePath (orDot dir) reference = .ok result →
        canonicalRelative result ∧ Resolves (baseParts (orDot dir))
          (pathParts (slashed reference)) (pathParts result)) ↔
      (invalidReference (slashed reference) ∨ ∀ final, Resolves (baseParts (orDot dir))
        (pathParts (slashed reference)) final → ':' ∉ final.headD [])) ∧
    (∀ first second, canonicalRelative first → canonicalRelative second →
      relativeIdentity (virtualPath first) (virtualPath dir) =
        relativeIdentity (virtualPath second) (virtualPath dir) → first = second) ∧
    ∀ (sources : SuppliedSources β) target data, sources.documents target = some data →
      (sources.resolve (virtualPath dir)
          (relativeIdentity (virtualPath target) (virtualPath dir)) =
            .ok (virtualPath target, data) ↔
        ¬ ∃ part rest, pathParts target = baseParts (orDot dir) ++ part :: rest ∧
          isDrive part) := by
  have hlogical : logicalPath (virtualPath dir) = .ok dir := by
    rcases hdir with rfl | hdir
    · rfl
    · simp [logicalPath, virtualPath, hdir]
  obtain ⟨dirs, hdirs, rfl⟩ := exists_dirParts hdir
  rw [baseParts_joinParts hdirs]
  refine ⟨fun reference => ?_, ?_, ?_⟩
  · rw [or_iff_not_imp_left]
    constructor
    · intro h hvalid final hfinal
      by_cases hempty : final = []
      · simp [hempty]
      have hplain := plain_of_resolves hdirs hvalid hfinal
      have hresult := h (joinParts final) (normalizeBundlePath_eq_ok_iff.mpr
        ⟨hvalid, final, hempty, (baseParts_joinParts hdirs).symm ▸ hfinal, rfl⟩)
      exact (canonicalRelative_joinParts hplain hempty).mp hresult.1
    · intro h result hresult
      obtain ⟨hvalid, final, hempty, hfinal, rfl⟩ := normalizeBundlePath_eq_ok_iff.mp hresult
      rw [baseParts_joinParts hdirs] at hfinal
      have hplain := plain_of_resolves hdirs hvalid hfinal
      refine ⟨(canonicalRelative_joinParts hplain hempty).mpr (h hvalid final hfinal), ?_⟩
      rw [pathParts_joinParts fun part hpart => (hplain part hpart).1.1]
      exact hfinal
  · intro first second hfirst hsecond heq
    obtain ⟨firsts, -, hfirsts, -, rfl⟩ := exists_parts hfirst
    obtain ⟨seconds, -, hseconds, -, rfl⟩ := exists_parts hsecond
    rw [relativeIdentity_eq hfirsts hdirs, relativeIdentity_eq hseconds hdirs] at heq
    have hparts := congrArg pathParts heq
    rw [pathParts_joinRelative fun part hpart => relative_of_mem hfirsts hpart,
      pathParts_joinRelative fun part hpart => relative_of_mem hseconds hpart] at hparts
    have hresolves : Resolves ([] ++ dirs) (relativeParts dirs firsts) ([] ++ firsts) :=
      resolves_relativeParts [] fun part hpart => (hfirsts part hpart).2
    rw [hparts] at hresolves
    exact congrArg joinParts (resolves_unique hresolves
      (resolves_relativeParts [] fun part hpart => (hseconds part hpart).2))
  · intro sources target data hdata
    obtain ⟨targets, hne, htargets, -, rfl⟩ := exists_parts (sources.canonical _ _ hdata)
    have hnormal := normalizeBundlePath_relative htargets hdirs hne
    rw [relativeIdentity_eq htargets hdirs, pathParts_joinParts fun part hpart => (htargets part hpart).1.1]
    have hdrive : isDrive ((relativeParts dirs targets).headD []) ↔
        ∃ part rest, targets = dirs ++ part :: rest ∧ isDrive part := by
      constructor
      · intro h
        cases hrel : relativeParts dirs targets with
        | nil =>
          rw [hrel] at h
          exact absurd h (by decide)
        | cons part rest =>
          rw [hrel] at h
          refine ⟨part, rest, eq_append_of_relativeParts hrel ?_, h⟩
          rintro rfl
          exact absurd (show isDrive dotdot from h) (by decide)
      · rintro ⟨part, rest, rfl, h⟩
        rw [relativeParts_append]
        exact h
    rw [← hdrive, SuppliedSources.resolve, hlogical]
    simp only [bind_eq_ok_iff, Except.ok.injEq, exists_eq_left', hnormal]
    constructor
    · exact fun ⟨_, h, _⟩ => h.1
    · refine fun h => ⟨_, ⟨h, rfl⟩, ?_⟩
      rw [hdata]

def oneDocument (path : PathText) (h : canonicalRelative path) : SuppliedSources Unit where
  documents key := if key = path then some () else none
  canonical key data hdata := by
    split at hdata
    · next hkey => exact hkey ▸ h
    · cases hdata

theorem supplied_source_paths_below :
    (oneDocument "a/b.yaml".toList (by decide +kernel)).resolve (virtualPath ['a'])
      (relativeIdentity (virtualPath "a/b.yaml".toList) (virtualPath ['a'])) =
        .ok (virtualPath "a/b.yaml".toList, ()) := by
  refine ((supplied_source_paths ['a'] (.inr (by decide))).2.2 _ _ () rfl).mpr ?_
  rintro ⟨part, rest, hparts, hdrive⟩
  have hpath : pathParts "a/b.yaml".toList = [['a'], "b.yaml".toList] := by decide +kernel
  rw [hpath] at hparts
  cases hparts
  exact absurd hdrive (by decide +kernel)

/-- A component `C:` of a canonical path looks like a drive once it comes first, and a
reference may resolve to a path whose first component is `C:x`. -/
theorem supplied_source_paths_drive :
    (∃ h, (oneDocument "a/C:/x".toList h).resolve (virtualPath ['a'])
      (relativeIdentity (virtualPath "a/C:/x".toList) (virtualPath ['a'])) = .error escapes) ∧
    normalizeBundlePath ['a'] "../C:x".toList = .ok "C:x".toList ∧
      ¬ canonicalRelative "C:x".toList :=
  ⟨⟨by decide +kernel, by rfl⟩, by rfl, by decide +kernel⟩

end Raes.Registry
