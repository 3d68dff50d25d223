import Mathlib.Data.List.Infix

/-!
# JSON pointer tokens

`json_pointer.py`: reference tokens of RFC 6901 and the rule for array-index
tokens.
-/

namespace Raes

/-- `token.replace("~", "~0").replace("/", "~1")` -/
def escapeToken (token : String) : String :=
  String.ofList (token.toList.flatMap fun c =>
    if c = '~' then ['~', '0'] else if c = '/' then ['~', '1'] else [c])

/-- `text.replace("~" + mark, plain)` on characters -/
def replaceEscape (mark plain : Char) : List Char → List Char
  | '~' :: c :: rest =>
    if c = mark then plain :: replaceEscape mark plain rest
    else '~' :: replaceEscape mark plain (c :: rest)
  | c :: rest => c :: replaceEscape mark plain rest
  | [] => []

/-- `token.replace("~1", "/").replace("~0", "~")` -/
def unescapeToken (token : String) : String :=
  String.ofList (replaceEscape '0' '~' (replaceEscape '1' '/' token.toList))

def pointerFromTokens (tokens : List String) : String :=
  String.join (tokens.map fun token => "/" ++ escapeToken token)

def pointerTokens (pointer : String) : List String :=
  ((pointer.toList.splitOn '/').drop 1).map fun token => unescapeToken (String.ofList token)

def isArrayIndexToken (token : String) : Bool :=
  token ≠ "" && token.toList.all (fun c => '0' ≤ c && c ≤ '9') &&
    (token.length = 1 || token.toList.head? ≠ some '0')

/-- `int(token)` of a token of digits -/
def digitsValue (token : String) : ℕ :=
  token.toList.foldl (fun value c => 10 * value + (c.toNat - '0'.toNat)) 0

/-- The list position that a token names, if it names one. -/
def arrayIndex (token : String) (length : ℕ) : Option ℕ :=
  if !isArrayIndexToken token then none
  else if token.length > (toString length).length ∨ digitsValue token ≥ length then none
  else some (digitsValue token)

example : pointerTokens "/a~1b/~01" = ["a/b", "~1"] := by decide +kernel

/-! ## Array positions -/

theorem toList_toString (n : ℕ) : (toString n).toList = Nat.toDigits 10 n := Nat.toList_repr

theorem digitsValue_eq (token : String) :
    digitsValue token = Nat.ofDigitChars 10 token.toList 0 := by
  rw [digitsValue, Nat.ofDigitChars_eq_foldl]

def IsDigit (c : Char) : Prop := '0' ≤ c ∧ c ≤ '9'

instance (c : Char) : Decidable (IsDigit c) := inferInstanceAs (Decidable (_ ∧ _))

theorem digitChar_toNat {c : Char} (h : IsDigit c) :
    (c.toNat - '0'.toNat).digitChar = c ∧ c.toNat - '0'.toNat < 10 := by
  have h0 : 48 ≤ c.toNat := h.1
  have h9 : c.toNat ≤ 57 := h.2
  have hlt : c.toNat - 48 < 10 := by omega
  refine ⟨Char.toNat_inj.mp ?_, hlt⟩
  show (c.toNat - 48).digitChar.toNat = c.toNat
  rw [Nat.toNat_digitChar_of_lt_ten hlt]
  omega

theorem isDigit_of_mem_toDigits {n : ℕ} {c : Char} (h : c ∈ Nat.toDigits 10 n) : IsDigit c := by
  have hdigit := Nat.isDigit_of_mem_toDigits (by decide) (by decide) h
  rw [Char.isDigit, Bool.and_eq_true, decide_eq_true_eq, decide_eq_true_eq] at hdigit
  exact hdigit

theorem toDigits_ofDigitChars {l : List Char} (hdigits : ∀ c ∈ l, IsDigit c) (hne : l ≠ [])
    (hlead : l.head? ≠ some '0') :
    Nat.toDigits 10 (Nat.ofDigitChars 10 l 0) = l ∧ 0 < Nat.ofDigitChars 10 l 0 := by
  induction l using List.reverseRecOn with
  | nil => exact absurd rfl hne
  | append_singleton rest c ih =>
    obtain ⟨hchar, hlt⟩ := digitChar_toNat (hdigits c (by simp))
    have hvalue : Nat.ofDigitChars 10 (rest ++ [c]) 0 =
        10 * Nat.ofDigitChars 10 rest 0 + (c.toNat - '0'.toNat) := by
      rw [Nat.ofDigitChars_append, Nat.ofDigitChars_cons, Nat.ofDigitChars_nil]
    rw [hvalue]
    by_cases hrest : rest = []
    · subst hrest
      rw [Nat.ofDigitChars_nil, Nat.mul_zero, Nat.zero_add, Nat.toDigits_of_lt_base hlt, hchar]
      refine ⟨rfl, Nat.pos_of_ne_zero fun hzero => hlead ?_⟩
      rw [hzero] at hchar
      rw [← hchar]
      rfl
    · have hhead : rest.head? ≠ some '0' := by
        rw [List.head?_append_of_ne_nil _ hrest] at hlead
        exact hlead
      obtain ⟨hdigits', hpos⟩ :=
        ih (fun d hd => hdigits d (List.mem_append_left _ hd)) hrest hhead
      rw [← Nat.toDigits_append_toDigits (by decide) hpos hlt, hdigits',
        Nat.toDigits_of_lt_base hlt, hchar]
      exact ⟨rfl, by omega⟩

theorem head_toDigits_ne {n : ℕ} (h : 0 < n) : (Nat.toDigits 10 n).head? ≠ some '0' := by
  induction n using Nat.strongRecOn with
  | ind n ih =>
    by_cases hn : n < 10
    · rw [Nat.toDigits_of_lt_base hn]
      intro hzero
      have hchar : n.digitChar = '0' := Option.some.inj hzero
      have hvalue := Nat.toNat_digitChar_of_lt_ten hn
      rw [hchar] at hvalue
      have hzero : '0'.toNat = 48 := rfl
      omega
    · rw [Nat.toDigits_of_base_le (by decide) (Nat.le_of_not_lt hn),
        List.head?_append_of_ne_nil _ Nat.toDigits_ne_nil]
      exact ih (n / 10) (by omega) (by omega)

theorem isArrayIndexToken_toString (n : ℕ) : isArrayIndexToken (toString n) = true := by
  rw [isArrayIndexToken, Bool.and_eq_true, Bool.and_eq_true, decide_eq_true_eq, List.all_eq_true,
    Bool.or_eq_true, decide_eq_true_eq, decide_eq_true_eq, toList_toString]
  refine ⟨⟨Nat.repr_ne_empty, fun c hc => ?_⟩, ?_⟩
  · obtain ⟨h0, h9⟩ := isDigit_of_mem_toDigits hc
    rw [Bool.and_eq_true, decide_eq_true_eq, decide_eq_true_eq]
    exact ⟨h0, h9⟩
  · by_cases hn : n < 10
    · left
      rw [← String.length_toList, toList_toString, Nat.toDigits_of_lt_base hn]
      rfl
    · exact Or.inr (head_toDigits_ne (by omega))

theorem eq_toString_of_isArrayIndexToken {token : String} (h : isArrayIndexToken token = true) :
    token = toString (digitsValue token) := by
  rw [isArrayIndexToken, Bool.and_eq_true, Bool.and_eq_true, decide_eq_true_eq, List.all_eq_true,
    Bool.or_eq_true, decide_eq_true_eq, decide_eq_true_eq] at h
  obtain ⟨⟨hne, hall⟩, hlead⟩ := h
  have hdigits (c : Char) (hc : c ∈ token.toList) : IsDigit c := by
    have hdigit := hall c hc
    rw [Bool.and_eq_true, decide_eq_true_eq, decide_eq_true_eq] at hdigit
    exact hdigit
  have hnil : token.toList ≠ [] := fun hnil => hne (String.toList_eq_nil_iff.mp hnil)
  rw [← String.toList_inj, toList_toString, digitsValue_eq]
  by_cases hhead : token.toList.head? = some '0'
  · -- a leading zero is the whole token
    have hlength : token.toList.length = 1 := by
      rw [String.length_toList]
      exact hlead.resolve_right (not_not_intro hhead)
    obtain ⟨c, hc⟩ := List.length_eq_one_iff.mp hlength
    obtain ⟨hchar, hlt⟩ := digitChar_toNat (hdigits c (by rw [hc]; exact List.mem_singleton_self c))
    rw [hc, Nat.ofDigitChars_cons, Nat.ofDigitChars_nil, Nat.mul_zero, Nat.zero_add,
      Nat.toDigits_of_lt_base hlt, hchar]
  · exact (toDigits_ofDigitChars hdigits hnil hhead).1.symm

theorem digitsValue_toString (n : ℕ) : digitsValue (toString n) = n := by
  rw [digitsValue_eq, toList_toString, Nat.ofDigitChars_ten_toDigits]

theorem toString_nat_injective {m n : ℕ} (h : toString m = toString n) : m = n := by
  rw [← digitsValue_toString m, h, digitsValue_toString]

theorem length_toString_le {m n : ℕ} (h : m ≤ n) : (toString m).length ≤ (toString n).length := by
  rw [← String.length_toList, ← String.length_toList, toList_toString, toList_toString,
    Nat.length_toDigits_le_iff (by decide) Nat.length_toDigits_pos]
  exact Nat.lt_of_le_of_lt h
    ((Nat.length_toDigits_le_iff (by decide) Nat.length_toDigits_pos).mp (Nat.le_refl _))

/-- A token names a position where it is the numeral of one. -/
theorem arrayIndex_eq_some_iff {token : String} {length index : ℕ} :
    arrayIndex token length = some index ↔ token = toString index ∧ index < length := by
  constructor
  · intro h
    unfold arrayIndex at h
    split at h
    · cases h
    · next htoken =>
      split at h
      · cases h
      · next hbound =>
        have hindex : digitsValue token = index := Option.some.inj h
        have hnumeral : token = toString (digitsValue token) :=
          eq_toString_of_isArrayIndexToken (by simpa using htoken)
        rw [hindex] at hnumeral hbound
        exact ⟨hnumeral, by omega⟩
  · intro h
    obtain ⟨rfl, hlt⟩ := h
    have hlength := length_toString_le (Nat.le_of_lt hlt)
    unfold arrayIndex
    rw [isArrayIndexToken_toString, digitsValue_toString]
    rw [if_neg (by decide), if_neg (by omega)]

end Raes

/-!
# Semantic scopes

A semantic scope is a canonical JSON pointer.  The contract models admit no other
text for it, and a pointer's text and its reference tokens determine each other,
so a scope is held as its tokens.
-/

namespace Raes

/-! ## The tokens of a pointer's text -/

/-- What is left to decode of an escaped token once `~1` has been decoded. -/
def escapeTilde (token : List Char) : List Char :=
  token.flatMap fun c => if c = '~' then ['~', '0'] else [c]

theorem replaceEscape_plain {mark plain c : Char} (h : c ≠ '~') (rest : List Char) :
    replaceEscape mark plain (c :: rest) = c :: replaceEscape mark plain rest := by
  cases rest with
  | nil => rw [replaceEscape]; exact fun d r hc => absurd hc h
  | cons d rest => rw [replaceEscape]; exact fun e r hc => absurd hc h

theorem replaceEscape_slash (token : List Char) :
    replaceEscape '1' '/' (escapeToken (String.ofList token)).toList = escapeTilde token := by
  unfold escapeToken escapeTilde
  rw [String.toList_ofList, String.toList_ofList]
  induction token with
  | nil => rfl
  | cons c rest ih =>
    rw [List.flatMap_cons, List.flatMap_cons]
    by_cases htilde : c = '~'
    · subst htilde
      show replaceEscape '1' '/' ('~' :: '0' :: _) = '~' :: '0' :: _
      rw [replaceEscape, if_neg (by decide), replaceEscape_plain (by decide)]
      exact congrArg (fun l => '~' :: '0' :: l) ih
    · by_cases hslash : c = '/'
      · subst hslash
        show replaceEscape '1' '/' ('~' :: '1' :: _) = '/' :: _
        rw [replaceEscape, if_pos rfl]
        exact congrArg (List.cons '/') ih
      · rw [if_neg htilde, if_neg hslash, if_neg htilde]
        show replaceEscape '1' '/' (c :: _) = c :: _
        rw [replaceEscape_plain htilde]
        exact congrArg (List.cons c) ih

theorem replaceEscape_tilde (token : List Char) :
    replaceEscape '0' '~' (escapeTilde token) = token := by
  unfold escapeTilde
  induction token with
  | nil => rfl
  | cons c rest ih =>
    rw [List.flatMap_cons]
    by_cases htilde : c = '~'
    · subst htilde
      show replaceEscape '0' '~' ('~' :: '0' :: _) = '~' :: _
      rw [replaceEscape, if_pos rfl]
      exact congrArg (List.cons '~') ih
    · rw [if_neg htilde]
      show replaceEscape '0' '~' (c :: _) = c :: _
      rw [replaceEscape_plain htilde]
      exact congrArg (List.cons c) ih

theorem unescapeToken_escapeToken (token : String) : unescapeToken (escapeToken token) = token := by
  unfold unescapeToken
  have hslash := replaceEscape_slash token.toList
  rw [String.ofList_toList] at hslash
  rw [hslash, replaceEscape_tilde, String.ofList_toList]

/-- The one pass over a token does what the two replacements of the source do. -/
theorem escapeToken_eq_replace (token : String) :
    escapeToken token = String.ofList ((token.toList.flatMap fun c =>
      if c = '~' then ['~', '0'] else [c]).flatMap fun c => if c = '/' then ['~', '1'] else [c]) := by
  unfold escapeToken
  rw [List.flatMap_assoc]
  refine congrArg String.ofList (List.flatMap_congr fun c _ => ?_)
  by_cases htilde : c = '~'
  · rw [if_pos htilde, if_pos htilde]
    rfl
  · rw [if_neg htilde, if_neg htilde, List.flatMap_singleton]

theorem slash_not_mem_escapeToken (token : String) : '/' ∉ (escapeToken token).toList := by
  unfold escapeToken
  rw [String.toList_ofList, List.mem_flatMap]
  rintro ⟨c, -, hc⟩
  by_cases htilde : c = '~'
  · rw [if_pos htilde] at hc
    revert hc
    decide
  · rw [if_neg htilde] at hc
    by_cases hslash : c = '/'
    · rw [if_pos hslash] at hc
      revert hc
      decide
    · rw [if_neg hslash, List.mem_singleton] at hc
      exact hslash hc.symm

variable (tokens : List String)

theorem toList_pointerFromTokens : (pointerFromTokens tokens).toList =
      tokens.flatMap fun token => '/' :: (escapeToken token).toList := by
  unfold pointerFromTokens
  rw [String.toList_join, List.flatMap_map]
  refine List.flatMap_congr fun token _ => ?_
  rw [String.toList_append]
  rfl

theorem splitOn_pointer (first : List Char) (h : '/' ∉ first) :
    (first ++ tokens.flatMap fun token => '/' :: (escapeToken token).toList).splitOn '/' =
      first :: tokens.map fun token => (escapeToken token).toList := by
  induction tokens generalizing first with
  | nil =>
    rw [List.flatMap_nil, List.append_nil]
    exact List.splitOn_eq_singleton h
  | cons token rest ih =>
    rw [List.flatMap_cons, List.cons_append, List.splitOn_append_cons_self_of_not_mem h,
      ih _ (slash_not_mem_escapeToken token)]
    rfl

theorem pointerTokens_pointerFromTokens : pointerTokens (pointerFromTokens tokens) = tokens := by
  unfold pointerTokens
  rw [toList_pointerFromTokens]
  have hsplit := splitOn_pointer tokens [] List.not_mem_nil
  rw [List.nil_append] at hsplit
  rw [hsplit, List.drop_succ_cons, List.drop_zero, List.map_map]
  conv_rhs => rw [← List.map_id tokens]
  refine List.map_congr_left fun token _ => ?_
  show unescapeToken (String.ofList (escapeToken token).toList) = token
  rw [String.ofList_toList, unescapeToken_escapeToken]

/-! ## Scopes -/

/-- A canonical pointer, by its reference tokens. -/
@[ext] structure SemanticScope where
  tokens : List String
  deriving DecidableEq

namespace SemanticScope

def text (scope : SemanticScope) : String := pointerFromTokens scope.tokens

/-- `semantic_address_contains(parent, child)` -/
def Contains (parent child : SemanticScope) : Prop :=
  parent.tokens = child.tokens.take parent.tokens.length

instance (parent child : SemanticScope) : Decidable (parent.Contains child) :=
  inferInstanceAs (Decidable (_ = _))

theorem contains_iff (parent child : SemanticScope) :
    parent.Contains child ↔ parent.tokens <+: child.tokens :=
  List.prefix_iff_eq_take.symm

@[simp] theorem contains_self (scope : SemanticScope) : scope.Contains scope :=
  (contains_iff _ _).mpr List.prefix_rfl

theorem Contains.trans {a b c : SemanticScope} (hab : a.Contains b) (hbc : b.Contains c) :
    a.Contains c := by
  rw [contains_iff] at *
  exact hab.trans hbc

theorem Contains.antisymm {a b : SemanticScope} (hab : a.Contains b) (hba : b.Contains a) :
    a = b := by
  rw [contains_iff] at *
  exact SemanticScope.ext (hab.eq_of_length_le hba.length_le)

theorem Contains.total {a b address : SemanticScope} (ha : a.Contains address)
    (hb : b.Contains address) : a.Contains b ∨ b.Contains a := by
  rw [contains_iff] at ha hb
  rw [contains_iff, contains_iff]
  exact List.prefix_or_prefix_of_prefix ha hb

def StrictlyContains (parent child : SemanticScope) : Prop :=
  parent.Contains child ∧ parent ≠ child

instance (parent child : SemanticScope) : Decidable (parent.StrictlyContains child) :=
  inferInstanceAs (Decidable (_ ∧ _))

theorem StrictlyContains.not_contains {parent child : SemanticScope}
    (h : parent.StrictlyContains child) : ¬ child.Contains parent :=
  fun hback => h.2 (h.1.antisymm hback)

/-- `scope.count("/")` -/
def depth (scope : SemanticScope) : ℕ := scope.text.toList.count '/'

end SemanticScope
end Raes
