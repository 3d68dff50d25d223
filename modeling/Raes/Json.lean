import Mathlib.Data.Rat.Defs

/-!
# JSON values

The values that a JSON decoder of the source yields.  An integer and a float
are different values even where they are equal as numbers, and a finite float
is the rational it denotes.  An object is a list of fields in insertion order;
a decoder never yields two fields with one name, which `wellFormed` states.
-/

namespace Raes

inductive Json where
  | null
  | bool (value : Bool)
  | int (value : ℤ)
  | float (value : ℚ)
  | str (value : String)
  | arr (items : List Json)
  | obj (fields : List (String × Json))

namespace Json

/-- Induction over a value, with the hypothesis for every item and every field. -/
theorem induct {P : Json → Prop} (hnull : P .null) (hbool : ∀ b, P (.bool b))
    (hint : ∀ n, P (.int n)) (hfloat : ∀ q, P (.float q)) (hstr : ∀ s, P (.str s))
    (harr : ∀ items : List Json, (∀ x ∈ items, P x) → P (.arr items))
    (hobj : ∀ fields : List (String × Json), (∀ f ∈ fields, P f.2) → P (.obj fields))
    (j : Json) : P j := by
  refine @Json.rec P (fun l => ∀ x ∈ l, P x) (fun l => ∀ f ∈ l, P f.2) (fun f => P f.2)
    hnull hbool hint hfloat hstr harr hobj ?_ ?_ ?_ ?_ ?_ j
  · simp
  · intro x rest hx hrest y hy
    rcases List.mem_cons.mp hy with rfl | hy
    · exact hx
    · exact hrest y hy
  · simp
  · intro f rest hf hrest g hg
    rcases List.mem_cons.mp hg with rfl | hg
    · exact hf
    · exact hrest g hg
  · intro _ _ h
    exact h

mutual

/-- Two values are the same value, with their fields in the same order. -/
def same : Json → Json → Bool
  | .null, .null => true
  | .bool a, .bool b => a = b
  | .int a, .int b => a = b
  | .float a, .float b => a = b
  | .str a, .str b => a = b
  | .arr a, .arr b => sameItems a b
  | .obj a, .obj b => sameFields a b
  | _, _ => false
termination_by structural j => j

def sameItems : List Json → List Json → Bool
  | [], [] => true
  | x :: xs, y :: ys => same x y && sameItems xs ys
  | _, _ => false
termination_by structural l => l

def sameFields : List (String × Json) → List (String × Json) → Bool
  | [], [] => true
  | (k, x) :: xs, (l, y) :: ys => k = l && same x y && sameFields xs ys
  | _, _ => false
termination_by structural l => l

end

theorem sameItems_iff {xs : List Json} (h : ∀ x ∈ xs, ∀ y, same x y = true ↔ x = y)
    (ys : List Json) : sameItems xs ys = true ↔ xs = ys := by
  induction xs generalizing ys with
  | nil => cases ys <;> simp [sameItems]
  | cons x xs ih =>
    cases ys with
    | nil => simp [sameItems]
    | cons y ys =>
      have hx := h x List.mem_cons_self y
      have hxs := ih (fun z hz => h z (List.mem_cons_of_mem _ hz)) ys
      simp only [sameItems, Bool.and_eq_true, hx, hxs, List.cons.injEq]

theorem sameFields_iff {xs : List (String × Json)}
    (h : ∀ f ∈ xs, ∀ y, same f.2 y = true ↔ f.2 = y) (ys : List (String × Json)) :
    sameFields xs ys = true ↔ xs = ys := by
  induction xs generalizing ys with
  | nil => cases ys <;> simp [sameFields]
  | cons f xs ih =>
    cases ys with
    | nil => simp [sameFields]
    | cons g ys =>
      obtain ⟨k, x⟩ := f
      obtain ⟨l, y⟩ := g
      have hx : same x y = true ↔ x = y := h (k, x) List.mem_cons_self y
      have hxs := ih (fun z hz => h z (List.mem_cons_of_mem _ hz)) ys
      simp only [sameFields, Bool.and_eq_true, decide_eq_true_eq, hx, hxs, List.cons.injEq,
        Prod.mk.injEq]

theorem same_iff (a b : Json) : same a b = true ↔ a = b := by
  induction a using induct generalizing b with
  | hnull => cases b <;> simp [same]
  | hbool x => cases b <;> simp [same]
  | hint x => cases b <;> simp [same]
  | hfloat x => cases b <;> simp [same]
  | hstr x => cases b <;> simp [same]
  | harr items ih => cases b <;> simp [same, sameItems_iff ih]
  | hobj fields ih => cases b <;> simp [same, sameFields_iff ih]

instance : DecidableEq Json := fun a b => decidable_of_iff (same a b = true) (same_iff a b)

/-- The number that a value counts as when Python compares it. -/
def number? : Json → Option ℚ
  | .bool b => some (if b then 1 else 0)
  | .int n => some n
  | .float q => some q
  | _ => none

mutual

/-- Python `==`: numbers and booleans compare as numbers, and dictionaries do
not compare the order of their entries. -/
def pyEq : Json → Json → Bool
  | .arr a, .arr b => pyEqItems a b
  | .obj a, .obj b => a.length = b.length && pyEqFields a b
  | .null, .null => true
  | .str a, .str b => a = b
  | .bool a, b => b.number? = some (if a then 1 else 0)
  | .int a, b => b.number? = some (a : ℚ)
  | .float a, b => b.number? = some a
  | _, _ => false
termination_by structural j => j

def pyEqItems : List Json → List Json → Bool
  | [], [] => true
  | x :: xs, y :: ys => pyEq x y && pyEqItems xs ys
  | _, _ => false
termination_by structural l => l

/-- Every field on the left has an equal field on the right. -/
def pyEqFields : List (String × Json) → List (String × Json) → Bool
  | [], _ => true
  | (k, x) :: xs, ys =>
    (match ys.lookup k with
      | some y => pyEq x y
      | none => false) && pyEqFields xs ys
termination_by structural l => l

end

example : pyEq (.obj [("a", .int 1), ("b", .arr [.null])])
    (.obj [("b", .arr [.null]), ("a", .float 1)]) = true := by decide

example : pyEq (.bool true) (.int 1) = true := by decide

mutual

/-- No object in the value has two fields with one name. -/
def wellFormed : Json → Bool
  | .arr items => wellFormedItems items
  | .obj fields => decide (fields.map Prod.fst).Nodup && wellFormedFields fields
  | .null | .bool _ | .int _ | .float _ | .str _ => true
termination_by structural j => j

def wellFormedItems : List Json → Bool
  | [] => true
  | x :: xs => wellFormed x && wellFormedItems xs
termination_by structural l => l

def wellFormedFields : List (String × Json) → Bool
  | [] => true
  | (_, x) :: xs => wellFormed x && wellFormedFields xs
termination_by structural l => l

end

@[simp] theorem wellFormed_arr (items : List Json) :
    wellFormed (.arr items) = true ↔ ∀ x ∈ items, wellFormed x = true := by
  show wellFormedItems items = true ↔ _
  induction items with
  | nil => simp [wellFormedItems]
  | cons x xs ih => simp only [wellFormedItems, Bool.and_eq_true, ih, List.forall_mem_cons]

@[simp] theorem wellFormed_obj (fields : List (String × Json)) :
    wellFormed (.obj fields) = true ↔
      (fields.map Prod.fst).Nodup ∧ ∀ f ∈ fields, wellFormed f.2 = true := by
  have hfields : wellFormedFields fields = true ↔ ∀ f ∈ fields, wellFormed f.2 = true := by
    induction fields with
    | nil => simp [wellFormedFields]
    | cons f rest ih => simp only [wellFormedFields, Bool.and_eq_true, ih, List.forall_mem_cons]
  simp only [wellFormed, Bool.and_eq_true, decide_eq_true_eq, hfields]

/-- `value.get(field)` of a dictionary; a value that is no dictionary has no field. -/
def get? (j : Json) (field : String) : Option Json :=
  match j with
  | .obj fields => fields.lookup field
  | _ => none

/-- Python truth of a value. -/
def truthy : Json → Bool
  | .null => false
  | .bool b => b
  | .int n => n ≠ 0
  | .float q => q ≠ 0
  | .str s => s ≠ ""
  | .arr items => !items.isEmpty
  | .obj fields => !fields.isEmpty

def isObj : Json → Bool
  | .obj _ => true
  | _ => false

mutual

/-- How deep containers nest in a value. -/
def nesting : Json → ℕ
  | .arr items => nestingItems items + 1
  | .obj fields => nestingFields fields + 1
  | .null | .bool _ | .int _ | .float _ | .str _ => 0
termination_by structural j => j

def nestingItems : List Json → ℕ
  | [] => 0
  | x :: xs => max (nesting x) (nestingItems xs)
termination_by structural l => l

def nestingFields : List (String × Json) → ℕ
  | [] => 0
  | (_, x) :: xs => max (nesting x) (nestingFields xs)
termination_by structural l => l

end

end Json
end Raes
