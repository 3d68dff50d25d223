import Mathlib.Data.List.TakeWhile
import Raes.Parameters.Derivation

/-!
# Derivations replay substitution

A captured derivation resolves to the authored text with all its tokens replaced at
once.  The tokens are found from left to right, so a text between two of them holds no
token, and a value that looks like one is not read again.
-/

namespace Raes.Parameters

open PyError

/-! ## Substitution -/

/-- The text after a single pass that replaces each token, past `skip` characters of the
token before. -/
def substitute (value : Text → Scalar) : ℕ → Text → Text
  | _, [] => []
  | skip + 1, _ :: rest => substitute value skip rest
  | 0, c :: rest =>
    match tokenAt (c :: rest) with
    | some (name, length) => (value name).render ++ substitute value (length - 1) rest
    | none => c :: substitute value 0 rest

def substituted (value : Text → Scalar) (text : Text) : Scalar :=
  match tokenAt text with
  | some (name, length) =>
    if length = text.length then value name else .str (substitute value 0 text)
  | none => .str (substitute value 0 text)

/-! ## Tokens -/

theorem tokenAt_eq_some {text name : Text} {length : ℕ} (h : tokenAt text = some (name, length)) :
    length = name.length + 3 ∧ ∃ after, text = '$' :: '{' :: (name ++ '}' :: after) ∧
      isTokenName name ∧ ∀ c ∈ name, isIdentifierPart c || c = '.' := by
  unfold tokenAt at h
  dsimp only at h
  split at h
  · rename_i rest
    split at h
    · rename_i after hafter
      split at h
      · rename_i hname
        obtain ⟨rfl, rfl⟩ := Prod.mk.inj (Option.some.inj h)
        refine ⟨rfl, after, ?_, hname, fun c hc => ?_⟩
        · rw [← hafter]
          congr 2
          exact (List.prefix_iff_eq_append.mp (List.takeWhile_prefix _)).symm
        · exact List.mem_takeWhile_imp (p := fun c => isIdentifierPart c || decide (c = '.')) hc
      · cases h
    · cases h
  · cases h

theorem tokenAt_append {text name : Text} {length : ℕ} (h : tokenAt text = some (name, length))
    (more : Text) : tokenAt (text ++ more) = some (name, length) := by
  obtain ⟨rfl, after, rfl, hname, hpart⟩ := tokenAt_eq_some h
  have hrun : (name ++ '}' :: (after ++ more)).takeWhile
      (fun c => isIdentifierPart c || c = '.') = name := by
    rw [List.takeWhile_append_of_pos hpart, List.takeWhile_cons_of_neg (by decide),
      List.append_nil]
  show tokenAt ('$' :: '{' :: (name ++ '}' :: after ++ more)) = _
  rw [List.append_assoc, List.cons_append, tokenAt]
  simp only [hrun, List.drop_left, hname, if_true]

theorem tokenAt_length_le {text name : Text} {length : ℕ}
    (h : tokenAt text = some (name, length)) : 3 ≤ length ∧ length ≤ text.length := by
  obtain ⟨rfl, after, rfl, -, -⟩ := tokenAt_eq_some h
  simp only [List.length_cons, List.length_append]
  omega

def NoToken (text : Text) : Prop := ∀ start, tokenAt (text.drop start) = none

variable {text : Text}

theorem finditer_eq_nil (h : NoToken text) (position : ℕ) : finditer 0 position text = [] := by
  induction text generalizing position with
  | nil => rfl
  | cons c rest ih =>
    have hhead : tokenAt (c :: rest) = none := h 0
    rw [finditer, hhead]
    exact ih (fun start => h (start + 1)) (position + 1)

theorem start_le_of_mem_finditer {skip position : ℕ} {found : TokenMatch}
    (h : found ∈ finditer skip position text) : position ≤ found.start := by
  induction text generalizing skip position with
  | nil => cases h
  | cons c rest ih =>
    cases skip with
    | succ skip => exact le_of_lt (ih h)
    | zero =>
      rw [finditer] at h
      split at h
      · rcases List.mem_cons.mp h with rfl | h
        · exact le_refl _
        · exact le_of_lt (ih h)
      · exact le_of_lt (ih h)

theorem finditer_skip {skip : ℕ} (h : text.length ≤ skip) (position : ℕ) :
    finditer skip position text = [] := by
  induction text generalizing skip position with
  | nil => cases skip <;> rfl
  | cons c rest ih =>
    cases skip with
    | zero => cases h
    | succ skip => exact ih (Nat.le_of_succ_le_succ h) (position + 1)

/-! ## The text between the tokens -/

def gap (text : Text) (start stop : ℕ) : List Segment :=
  if start < stop then [.literal (slice text start stop)] else []

def segmentsOf (reference : Text → Reference) (text : Text) : ℕ → List TokenMatch → List Segment
  | offset, [] => gap text offset text.length
  | offset, found :: rest =>
    gap text offset found.start ++
      .parameter (reference found.name) :: segmentsOf reference text found.stop rest

def segmentText (value : List Text → Scalar) : Segment → Text
  | .literal text => text
  | .parameter reference => (value reference.parameter).render

theorem flatMap_gap (f : Segment → Text) (hf : ∀ text, f (.literal text) = text) (text : Text)
    (start stop : ℕ) : (gap text start stop).flatMap f = slice text start stop := by
  unfold gap
  by_cases h : start < stop
  · rw [if_pos h, List.flatMap_singleton, hf]
  · rw [if_neg h, slice, Nat.sub_eq_zero_of_le (Nat.le_of_not_lt h), List.take_zero]
    rfl

theorem slice_of_le (text : Text) {start stop : ℕ} (h : stop ≤ start) :
    slice text start stop = [] := by
  rw [slice, Nat.sub_eq_zero_of_le h, List.take_zero]

theorem slice_succ (pre rest : Text) (c : Char) {offset : ℕ} (h : offset ≤ pre.length) :
    slice (pre ++ c :: rest) offset (pre.length + 1) =
      slice (pre ++ c :: rest) offset pre.length ++ [c] := by
  unfold slice
  rw [Nat.sub_add_comm h, List.take_add_one, List.getElem?_drop,
    Nat.add_sub_of_le h, List.getElem?_append_right (le_refl _), Nat.sub_self]
  rfl

theorem slice_noToken {offset stop : ℕ}
    (h : ∀ start, offset ≤ start → start < stop → tokenAt (text.drop start) = none) :
    NoToken (slice text offset stop) := by
  intro start
  by_cases hlength : start < (slice text offset stop).length
  · have hstop : offset + start < stop := by
      rw [slice, List.length_take] at hlength
      omega
    cases htoken : tokenAt ((slice text offset stop).drop start) with
    | none => rfl
    | some token =>
      have hat := h (offset + start) (Nat.le_add_right _ _) hstop
      have hsplit := List.take_append_drop (stop - offset) (text.drop offset)
      rw [← slice] at hsplit
      rw [← List.drop_drop, ← hsplit, List.drop_append_of_le_length (le_of_lt hlength),
        tokenAt_append htoken] at hat
      cases hat
  · rw [List.drop_of_length_le (Nat.le_of_not_lt hlength)]
    rfl

theorem literals_append (a b : List Segment) :
    literals (a ++ b) = literals a ++ literals b :=
  List.filterMap_append

theorem mem_literals_gap {text value : Text} {start stop : ℕ}
    (h : value ∈ literals (gap text start stop)) : value = slice text start stop := by
  unfold gap at h
  by_cases hlt : start < stop
  · rw [if_pos hlt] at h
    exact List.mem_singleton.mp h
  · rw [if_neg hlt] at h
    cases h

variable {reference : Text → Reference}

/-- The scan of a text, as a walk over its characters: at each position no match is open and
no token starts between the offset and the position, or the offset is the end of the match
that the scan is past.  The segments then add the pending slice and the substituted rest, and
no literal holds a token. -/
theorem segmentsOf_finditer (value : List Text → Scalar)
    (hreference : ∀ name, (reference name).parameter = [name]) {text : Text} (suffix : Text)
    {pre : Text} (htext : pre ++ suffix = text) (skip offset : ℕ)
    (hskip : 0 < skip → offset = pre.length + skip)
    (hopen : skip = 0 → offset ≤ pre.length ∧ ∀ start, offset ≤ start → start < pre.length →
      tokenAt (text.drop start) = none) :
    (segmentsOf reference text offset (finditer skip pre.length suffix)).flatMap
        (segmentText value) =
      slice text offset pre.length ++ substitute (fun name => value [name]) skip suffix ∧
    ∀ literal ∈ literals (segmentsOf reference text offset (finditer skip pre.length suffix)),
      NoToken literal := by
  have hliteral : ∀ text, segmentText value (.literal text) = text := fun _ => rfl
  induction suffix generalizing pre skip offset with
  | nil =>
    have hlength : text.length = pre.length := by rw [← htext, List.append_nil]
    have hscan : finditer skip pre.length [] = [] := by cases skip <;> rfl
    have hrest : substitute (fun name => value [name]) skip [] = [] := by cases skip <;> rfl
    rw [hscan, hrest, List.append_nil, segmentsOf, hlength]
    refine ⟨flatMap_gap _ hliteral text offset pre.length, fun literal hmem => ?_⟩
    rw [mem_literals_gap hmem]
    cases skip with
    | zero => exact slice_noToken (hopen rfl).2
    | succ skip =>
      rw [slice_of_le text (by rw [hskip (Nat.succ_pos _)]; exact Nat.le_add_right _ _)]
      intro start
      rw [List.drop_nil]
      rfl
  | cons c rest ih =>
    have hnext : (pre ++ [c]) ++ rest = text := by rw [← htext, List.append_assoc]; rfl
    have hlength : (pre ++ [c]).length = pre.length + 1 := List.length_append
    cases skip with
    | succ skip =>
      have hoffset := hskip (Nat.succ_pos _)
      obtain ⟨htext', hclean⟩ := ih hnext skip offset
        (fun _ => by omega) (fun hzero => ⟨by omega, fun start hle hlt => by omega⟩)
      rw [hlength] at htext' hclean
      refine ⟨?_, hclean⟩
      rw [finditer, htext', substitute, slice_of_le text (by omega), slice_of_le text (by omega)]
    | zero =>
      obtain ⟨hle, hnone⟩ := hopen rfl
      have hdrop : text.drop pre.length = c :: rest := by rw [← htext, List.drop_left]
      rw [finditer, substitute]
      cases htoken : tokenAt (c :: rest) with
      | none =>
        obtain ⟨htext', hclean⟩ := ih hnext 0 offset
          (fun hzero => absurd hzero (lt_irrefl 0)) (fun _ => ⟨by omega, fun start hfrom hlt => by
            rcases Nat.lt_or_ge start pre.length with hbefore | hafter
            · exact hnone start hfrom hbefore
            · obtain rfl : start = pre.length := by omega
              rw [hdrop, htoken]⟩)
        rw [hlength] at htext' hclean
        refine ⟨?_, hclean⟩
        have hslice := slice_succ pre rest c hle
        rw [htext] at hslice
        rw [htext', hslice, List.append_assoc]
        rfl
      | some token =>
        obtain ⟨name, length⟩ := token
        have hthree := (tokenAt_length_le htoken).1
        obtain ⟨htext', hclean⟩ := ih hnext (length - 1) (pre.length + length)
          (fun _ => by omega) (fun hzero => by omega)
        rw [hlength] at htext' hclean
        constructor
        · rw [segmentsOf, List.flatMap_append, flatMap_gap _ hliteral, List.flatMap_cons, htext',
            slice_of_le text (show pre.length + 1 ≤ pre.length + length by omega),
            List.nil_append, segmentText, hreference]
        · intro literal hmem
          rw [segmentsOf, literals_append, List.mem_append] at hmem
          rcases hmem with hgap | hlater
          · rw [mem_literals_gap hgap]
            exact slice_noToken hnone
          · exact hclean literal hlater

theorem segmentsOf_text (value : List Text → Scalar)
    (hreference : ∀ name, (reference name).parameter = [name]) (text : Text) :
    (segmentsOf reference text 0 (finditer 0 0 text)).flatMap (segmentText value) =
      substitute (fun name => value [name]) 0 text :=
  (segmentsOf_finditer value hreference text (List.nil_append text) 0 0
    (fun h => absurd h (lt_irrefl 0)) (fun _ => ⟨le_refl _, fun _ _ h => absurd h (Nat.not_lt_zero _)⟩)).1

theorem segmentsOf_literals (hreference : ∀ name, (reference name).parameter = [name])
    (text : Text) :
    ∀ literal ∈ literals (segmentsOf reference text 0 (finditer 0 0 text)), NoToken literal :=
  (segmentsOf_finditer (fun _ => .bool true) hreference text (List.nil_append text) 0 0
    (fun h => absurd h (lt_irrefl 0))
    (fun _ => ⟨le_refl _, fun _ _ h => absurd h (Nat.not_lt_zero _)⟩)).2

theorem tokenAt_of_segmentsOf_eq {text : Text} {single : Reference}
    (h : segmentsOf reference text 0 (finditer 0 0 text) = [.parameter single]) :
    ∃ name, tokenAt text = some (name, text.length) := by
  cases text with
  | nil => cases h
  | cons c rest =>
    rw [finditer] at h
    cases htoken : tokenAt (c :: rest) with
    | none =>
      rw [htoken] at h
      dsimp only at h
      cases hfound : finditer 0 1 rest with
      | nil =>
        rw [hfound, segmentsOf, gap, if_pos (List.length_pos_of_ne_nil (List.cons_ne_nil _ _))] at h
        cases h
      | cons found more =>
        have hstart : 0 < found.start :=
          start_le_of_mem_finditer (by rw [hfound]; exact List.mem_cons_self)
        rw [hfound, segmentsOf, gap, if_pos hstart] at h
        cases h
    | some token =>
      obtain ⟨name, length⟩ := token
      refine ⟨name, ?_⟩
      have hle := (tokenAt_length_le htoken).2
      rw [htoken] at h
      dsimp only at h
      rw [segmentsOf, gap, if_neg (lt_irrefl 0), List.nil_append] at h
      have hrest := (List.cons.inj h).2
      cases hmore : finditer (length - 1) (0 + 1) rest with
      | nil =>
        rw [hmore, segmentsOf, gap] at hrest
        by_cases hlt : 0 + length < (c :: rest).length
        · rw [if_pos hlt] at hrest
          cases hrest
        · rw [show length = (c :: rest).length by omega]
      | cons found more =>
        rw [hmore, segmentsOf] at hrest
        exact absurd hrest (List.append_ne_nil_of_right_ne_nil _ (List.cons_ne_nil _ _))

theorem finditer_of_tokenAt {text name : Text} (h : tokenAt text = some (name, text.length)) :
    finditer 0 0 text = [⟨0, text.length, name⟩] := by
  cases text with
  | nil => cases h
  | cons c rest =>
    have hend : finditer ((c :: rest).length - 1) (0 + 1) rest = [] := finditer_skip (le_refl _) 1
    rw [finditer, h]
    dsimp only
    rw [hend, Nat.zero_add]

theorem references_segmentsOf (reference : Text → Reference) (text : Text) (offset : ℕ)
    (found : List TokenMatch) :
    references (segmentsOf reference text offset found) =
      found.map fun token => reference token.name := by
  have hgap : ∀ start stop, references (gap text start stop) = [] := by
    intro start stop
    unfold gap
    split <;> rfl
  induction found generalizing offset with
  | nil => exact hgap _ _
  | cons token rest ih =>
    rw [segmentsOf, references, List.filterMap_append]
    show references _ ++ reference token.name :: references (segmentsOf _ _ _ rest) = _
    rw [hgap, ih]
    rfl

end Raes.Parameters
