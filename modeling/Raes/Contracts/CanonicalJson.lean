import Raes.Errors
import Raes.Json
import Raes.Lib.SortBy
import Mathlib.Data.String.Basic

/-!
# Canonical JSON

`_canonical.py`: the canonical text of a JSON value and its digest.  The text itself
is not modelled.  Two values have one canonical text when they have one canonical form,
in which an object has its fields in the order of their names and an integer is the
float that it is written as.  The encoder refuses an integer that a float may not hold
exactly.
-/

namespace Raes

open PyError

/-- The greatest integer that the canonical encoder accepts. -/
def maxSafeInteger : ℤ := 2 ^ 53 - 1

def IsSafeInteger (n : ℤ) : Prop := -maxSafeInteger ≤ n ∧ n ≤ maxSafeInteger

instance (n : ℤ) : Decidable (IsSafeInteger n) := inferInstanceAs (Decidable (_ ∧ _))

def integerDomainError : PyError := valueError "integer is outside the canonical JSON range"

mutual

def canonicalForm : Json → Except PyError Json
  | .int n => if IsSafeInteger n then .ok (.float n) else .error integerDomainError
  | .arr items => do
    let forms ← canonicalItems items
    return .arr forms
  | .obj fields => do
    let forms ← canonicalFields fields
    return .obj (sortBy Prod.fst forms)
  | .null => .ok .null
  | .bool value => .ok (.bool value)
  | .float value => .ok (.float value)
  | .str value => .ok (.str value)
termination_by structural j => j

def canonicalItems : List Json → Except PyError (List Json)
  | [] => .ok []
  | item :: rest => do
    let form ← canonicalForm item
    let forms ← canonicalItems rest
    return form :: forms
termination_by structural l => l

def canonicalFields : List (String × Json) → Except PyError (List (String × Json))
  | [] => .ok []
  | (name, value) :: rest => do
    let form ← canonicalForm value
    let forms ← canonicalFields rest
    return (name, form) :: forms
termination_by structural l => l

end

/-- The hash of a canonical text, as a function of the canonical form. -/
structure Sha256 where
  hexDigest : Json → String

def Sha256.canonicalJsonDigest (sha256 : Sha256) (payload : Json) : Except PyError String := do
  let form ← canonicalForm payload
  return "sha256:" ++ sha256.hexDigest form

/-- Whether every integer that the value holds is in the range of the encoder. -/
inductive InSafeRange : Json → Prop where
  | null : InSafeRange .null
  | bool (value : Bool) : InSafeRange (.bool value)
  | int (value : ℤ) (h : IsSafeInteger value) : InSafeRange (.int value)
  | float (value : ℚ) : InSafeRange (.float value)
  | str (value : String) : InSafeRange (.str value)
  | arr (items : List Json) (h : ∀ item ∈ items, InSafeRange item) : InSafeRange (.arr items)
  | obj (fields : List (String × Json)) (h : ∀ field ∈ fields, InSafeRange field.2) :
      InSafeRange (.obj fields)

theorem canonicalItems_ok_iff (items : List Json)
    (h : ∀ item ∈ items, (∃ form, canonicalForm item = .ok form) ↔ InSafeRange item) :
    (∃ forms, canonicalItems items = .ok forms) ↔ ∀ item ∈ items, InSafeRange item := by
  induction items with
  | nil => simp [canonicalItems]
  | cons item rest ih =>
    rw [List.forall_mem_cons] at h
    rw [List.forall_mem_cons, ← h.1, ← ih h.2]
    simp only [canonicalItems, bind_eq_ok_iff]
    constructor
    · rintro ⟨_, form, hform, forms, hforms, _⟩
      exact ⟨⟨form, hform⟩, forms, hforms⟩
    · rintro ⟨⟨form, hform⟩, forms, hforms⟩
      exact ⟨_, form, hform, forms, hforms, rfl⟩

theorem canonicalFields_ok_iff (fields : List (String × Json))
    (h : ∀ field ∈ fields, (∃ form, canonicalForm field.2 = .ok form) ↔ InSafeRange field.2) :
    (∃ forms, canonicalFields fields = .ok forms) ↔ ∀ field ∈ fields, InSafeRange field.2 := by
  induction fields with
  | nil => simp [canonicalFields]
  | cons field rest ih =>
    rw [List.forall_mem_cons] at h
    rw [List.forall_mem_cons, ← h.1, ← ih h.2]
    simp only [canonicalFields, bind_eq_ok_iff]
    constructor
    · rintro ⟨_, form, hform, forms, hforms, _⟩
      exact ⟨⟨form, hform⟩, forms, hforms⟩
    · rintro ⟨⟨form, hform⟩, forms, hforms⟩
      exact ⟨_, form, hform, forms, hforms, rfl⟩

theorem canonicalForm_ok_iff (value : Json) :
    (∃ form, canonicalForm value = .ok form) ↔ InSafeRange value := by
  induction value using Json.induct with
  | hnull => exact iff_of_true ⟨_, rfl⟩ .null
  | hbool b => exact iff_of_true ⟨_, rfl⟩ (.bool b)
  | hfloat q => exact iff_of_true ⟨_, rfl⟩ (.float q)
  | hstr s => exact iff_of_true ⟨_, rfl⟩ (.str s)
  | hint n =>
    simp only [canonicalForm]
    split
    · next h => exact iff_of_true ⟨_, rfl⟩ (.int n h)
    · next h =>
      refine iff_of_false (fun ⟨_, hform⟩ => nomatch hform) fun hsafe => ?_
      cases hsafe with
      | int _ hn => exact h hn
  | harr items ih =>
    have hitems := canonicalItems_ok_iff items ih
    simp only [canonicalForm, bind_eq_ok_iff]
    constructor
    · rintro ⟨_, forms, hforms, _⟩
      exact .arr items (hitems.mp ⟨forms, hforms⟩)
    · intro hsafe
      cases hsafe with
      | arr _ h =>
        obtain ⟨forms, hforms⟩ := hitems.mpr h
        exact ⟨_, forms, hforms, rfl⟩
  | hobj fields ih =>
    have hfields := canonicalFields_ok_iff fields ih
    simp only [canonicalForm, bind_eq_ok_iff]
    constructor
    · rintro ⟨_, forms, hforms, _⟩
      exact .obj fields (hfields.mp ⟨forms, hforms⟩)
    · intro hsafe
      cases hsafe with
      | obj _ h =>
        obtain ⟨forms, hforms⟩ := hfields.mpr h
        exact ⟨_, forms, hforms, rfl⟩

theorem canonicalJsonDigest_ok_iff (sha256 : Sha256) (payload : Json) :
    (∃ digest, sha256.canonicalJsonDigest payload = .ok digest) ↔ InSafeRange payload := by
  rw [← canonicalForm_ok_iff]
  simp only [Sha256.canonicalJsonDigest, bind_eq_ok_iff]
  constructor
  · rintro ⟨_, form, hform, _⟩
    exact ⟨form, hform⟩
  · rintro ⟨form, hform⟩
    exact ⟨_, form, hform, rfl⟩

end Raes
