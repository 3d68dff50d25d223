import Raes.Lib.Dict
import Raes.Realization.Common
import Mathlib.Data.List.Perm.Subperm

/-!
# Equality of JSON values

Python's `==` (`Json.pyEq`) takes `1`, `1.0` and `true` for the same value, and
`jsonEqual` tells them apart.  Both compare arrays item by item and objects
name by name.  On values without repeated names Python's equality is reflexive
and symmetric, and it holds wherever the JSON equality does.
-/

namespace Raes.Json

open Realization (jsonEqual jsonListEqual jsonDictEqual)

/-- Among objects without repeated names, one that has every name of another
and no more fields has no other name. -/
theorem keys_subset_of_length {α β : Type} {xs : List (String × α)} {ys : List (String × β)}
    (hxs : (xs.map Prod.fst).Nodup) (hlength : xs.length = ys.length)
    (hsub : ∀ f ∈ xs, f.1 ∈ ys.map Prod.fst) : ∀ k ∈ ys.map Prod.fst, k ∈ xs.map Prod.fst := by
  have hsubset : xs.map Prod.fst ⊆ ys.map Prod.fst := by
    intro k hk
    obtain ⟨f, hf, rfl⟩ := List.mem_map.mp hk
    exact hsub f hf
  have hperm : (xs.map Prod.fst).Perm (ys.map Prod.fst) := by
    apply (List.subperm_of_subset hxs hsubset).perm_of_length_le
    simp [hlength]
  intro k hk
  exact hperm.mem_iff.mpr hk

theorem mem_keys_of_lookup {α : Type} {ys : List (String × α)} {k : String} {y : α}
    (h : ys.lookup k = some y) : k ∈ ys.map Prod.fst :=
  List.mem_map.mpr ⟨_, mem_of_lookup_eq_some h, rfl⟩

theorem exists_lookup_of_mem_keys {α : Type} {ys : List (String × α)} {k : String}
    (h : k ∈ ys.map Prod.fst) : ∃ y, ys.lookup k = some y := by
  cases hy : ys.lookup k with
  | none => exact absurd h ((lookup_eq_none_iff_notMem k ys).mp hy)
  | some y => exact ⟨y, rfl⟩

theorem pyEqItems_iff (xs ys : List Json) :
    pyEqItems xs ys = true ↔ List.Forall₂ (fun x y => pyEq x y = true) xs ys := by
  induction xs generalizing ys with
  | nil => cases ys <;> simp [pyEqItems]
  | cons x xs ih => cases ys <;> simp [pyEqItems, ih]

variable (xs ys : List (String × Json))

theorem pyEqFields_iff :
    pyEqFields xs ys = true ↔ ∀ f ∈ xs, ∃ y, ys.lookup f.1 = some y ∧ pyEq f.2 y = true := by
  induction xs with
  | nil => simp [pyEqFields]
  | cons f rest ih =>
    obtain ⟨k, x⟩ := f
    rw [pyEqFields, Bool.and_eq_true, ih, List.forall_mem_cons]
    cases ys.lookup k <;> simp

@[simp] theorem pyEq_arr (xs ys : List Json) :
    pyEq (.arr xs) (.arr ys) = true ↔ List.Forall₂ (fun x y => pyEq x y = true) xs ys :=
  pyEqItems_iff xs ys

@[simp] theorem pyEq_obj : pyEq (.obj xs) (.obj ys) = true ↔ xs.length = ys.length ∧
      ∀ f ∈ xs, ∃ y, ys.lookup f.1 = some y ∧ pyEq f.2 y = true := by
  rw [← pyEqFields_iff]
  simp only [pyEq, Bool.and_eq_true, decide_eq_true_eq]

theorem pyEq_symm {a b : Json} (ha : wellFormed a = true) (hb : wellFormed b = true)
    (h : pyEq a b = true) : pyEq b a = true := by
  induction a using induct generalizing b with
  | hnull => cases b <;> simp_all [pyEq]
  | hbool x => cases b <;> simp_all [pyEq, number?]
  | hint x => cases b <;> simp_all [pyEq, number?]
  | hfloat x => cases b <;> simp_all [pyEq, number?]
  | hstr x => cases b <;> simp_all [pyEq]
  | harr xs ih =>
    cases b with
    | arr ys =>
      rw [wellFormed_arr] at ha hb
      rw [pyEq_arr] at h ⊢
      induction h with
      | nil => exact .nil
      | cons hxy htail ih' =>
        rw [List.forall_mem_cons] at ha hb ih
        exact .cons (ih.1 ha.1 hb.1 hxy) (ih' ih.2 ha.2 hb.2)
    | _ => simp [pyEq] at h
  | hobj xs ih =>
    cases b with
    | obj ys =>
      rw [wellFormed_obj] at ha hb
      rw [pyEq_obj] at h ⊢
      refine ⟨h.1.symm, ?_⟩
      have hsub : ∀ f ∈ xs, f.1 ∈ ys.map Prod.fst := by
        intro f hf
        obtain ⟨y, hy, -⟩ := h.2 f hf
        exact mem_keys_of_lookup hy
      rintro ⟨k, y⟩ hmem
      have hk := keys_subset_of_length ha.1 h.1 hsub k (List.mem_map.mpr ⟨_, hmem, rfl⟩)
      obtain ⟨x, hx⟩ := exists_lookup_of_mem_keys hk
      have hxmem := mem_of_lookup_eq_some hx
      obtain ⟨y', hy', heq⟩ := h.2 (k, x) hxmem
      rw [lookup_eq_some_of_mem hb.1 hmem] at hy'
      obtain rfl := Option.some.inj hy'
      exact ⟨x, hx, ih (k, x) hxmem (ha.2 (k, x) hxmem) (hb.2 (k, y) hmem) heq⟩
    | _ => simp [pyEq] at h

theorem pyEq_trans {a b c : Json} (hab : pyEq a b = true) (hbc : pyEq b c = true) :
    pyEq a c = true := by
  induction a using induct generalizing b c with
  | hnull =>
    cases b with
    | null => exact hbc
    | _ => simp [pyEq] at hab
  | hbool x => cases b <;> simp_all [pyEq, number?]
  | hint x => cases b <;> simp_all [pyEq, number?]
  | hfloat x => cases b <;> simp_all [pyEq, number?]
  | hstr x =>
    cases b with
    | str y =>
      obtain rfl : x = y := by simpa [pyEq] using hab
      exact hbc
    | _ => simp [pyEq] at hab
  | harr xs ih =>
    cases b with
    | arr ys =>
      cases c with
      | arr zs =>
        rw [pyEq_arr] at hab hbc ⊢
        induction hab generalizing zs with
        | nil =>
          cases hbc
          exact .nil
        | cons hxy _ ih' =>
          cases hbc with
          | cons hyz htail =>
            rw [List.forall_mem_cons] at ih
            exact .cons (ih.1 hxy hyz) (ih' ih.2 _ htail)
      | _ => simp [pyEq] at hbc
    | _ => simp [pyEq] at hab
  | hobj xs ih =>
    cases b with
    | obj ys =>
      cases c with
      | obj zs =>
        rw [pyEq_obj] at hab hbc ⊢
        refine ⟨hab.1.trans hbc.1, fun f hf => ?_⟩
        obtain ⟨y, hy, hxy⟩ := hab.2 f hf
        obtain ⟨z, hz, hyz⟩ := hbc.2 (f.1, y) (mem_of_lookup_eq_some hy)
        exact ⟨z, hz, ih f hf hxy hyz⟩
      | _ => simp [pyEq] at hbc
    | _ => simp [pyEq] at hab

theorem jsonListEqual_iff {xs ys : List Json} (hlength : xs.length = ys.length) :
    jsonListEqual xs ys = true ↔ List.Forall₂ (fun x y => jsonEqual x y = true) xs ys := by
  induction xs generalizing ys with
  | nil => cases ys <;> simp_all [jsonListEqual]
  | cons x xs ih =>
    cases ys with
    | nil => cases hlength
    | cons y ys =>
      rw [jsonListEqual, Bool.and_eq_true, ih (Nat.succ.inj hlength), List.forall₂_cons]

theorem jsonDictEqual_iff :
    jsonDictEqual xs ys = true ↔ ∀ f ∈ xs, ∃ y, ys.lookup f.1 = some y ∧ jsonEqual f.2 y = true := by
  induction xs with
  | nil => simp [jsonDictEqual]
  | cons f rest ih =>
    obtain ⟨k, x⟩ := f
    rw [jsonDictEqual, Bool.and_eq_true, ih, List.forall_mem_cons]
    cases ys.lookup k <;> simp

@[simp] theorem jsonEqual_arr (xs ys : List Json) :
    jsonEqual (.arr xs) (.arr ys) = true ↔ List.Forall₂ (fun x y => jsonEqual x y = true) xs ys := by
  rw [jsonEqual, Bool.and_eq_true, decide_eq_true_eq]
  constructor
  · intro h
    exact (jsonListEqual_iff h.1).mp h.2
  · intro h
    exact ⟨h.length_eq, (jsonListEqual_iff h.length_eq).mpr h⟩

@[simp] theorem jsonEqual_obj : jsonEqual (.obj xs) (.obj ys) = true ↔
      (∀ k ∈ ys.map Prod.fst, k ∈ xs.map Prod.fst) ∧
        ∀ f ∈ xs, ∃ y, ys.lookup f.1 = some y ∧ jsonEqual f.2 y = true := by
  have hkeys : ∀ zs ws : List (String × Json), (zs.all fun f => (ws.lookup f.1).isSome) = true ↔
      ∀ k ∈ zs.map Prod.fst, k ∈ ws.map Prod.fst := by
    intro zs ws
    rw [List.all_eq_true, List.forall_mem_map]
    refine forall₂_congr fun f _ => ?_
    rw [Option.isSome_iff_ne_none, Ne, lookup_eq_none_iff_notMem, not_not]
  rw [jsonEqual, Bool.and_eq_true, Bool.and_eq_true, jsonDictEqual_iff, hkeys, hkeys]
  constructor
  · rintro ⟨⟨-, h⟩, hfields⟩
    exact ⟨h, hfields⟩
  · rintro ⟨h, hfields⟩
    refine ⟨⟨?_, h⟩, hfields⟩
    intro k hk
    obtain ⟨f, hf, rfl⟩ := List.mem_map.mp hk
    obtain ⟨y, hy, -⟩ := hfields f hf
    exact mem_keys_of_lookup hy

theorem jsonEqual_refl {a : Json} (ha : wellFormed a = true) : jsonEqual a a = true := by
  induction a using induct with
  | hnull => rfl
  | hbool x => simp [jsonEqual]
  | hint x => simp [jsonEqual]
  | hfloat x => simp [jsonEqual]
  | hstr x => simp [jsonEqual]
  | harr xs ih =>
    rw [wellFormed_arr] at ha
    rw [jsonEqual_arr, List.forall₂_same]
    intro x hx
    exact ih x hx (ha x hx)
  | hobj xs ih =>
    rw [wellFormed_obj] at ha
    rw [jsonEqual_obj]
    refine ⟨fun k hk => hk, fun f hf => ?_⟩
    exact ⟨f.2, lookup_eq_some_of_mem ha.1 hf, ih f hf (ha.2 f hf)⟩

theorem jsonEqual_trans {a b c : Json} (hab : jsonEqual a b = true) (hbc : jsonEqual b c = true) :
    jsonEqual a c = true := by
  induction a using induct generalizing b c with
  | hnull =>
    cases b with
    | null => exact hbc
    | _ => simp [jsonEqual] at hab
  | hbool x =>
    cases b with
    | bool y =>
      obtain rfl : x = y := by simpa [jsonEqual] using hab
      exact hbc
    | _ => simp [jsonEqual] at hab
  | hint x =>
    cases b with
    | int y =>
      obtain rfl : x = y := by simpa [jsonEqual] using hab
      exact hbc
    | _ => simp [jsonEqual] at hab
  | hfloat x =>
    cases b with
    | float y =>
      obtain rfl : x = y := by simpa [jsonEqual] using hab
      exact hbc
    | _ => simp [jsonEqual] at hab
  | hstr x =>
    cases b with
    | str y =>
      obtain rfl : x = y := by simpa [jsonEqual] using hab
      exact hbc
    | _ => simp [jsonEqual] at hab
  | harr xs ih =>
    cases b with
    | arr ys =>
      cases c with
      | arr zs =>
        rw [jsonEqual_arr] at hab hbc ⊢
        induction hab generalizing zs with
        | nil =>
          cases hbc
          exact .nil
        | cons hxy _ ih' =>
          cases hbc with
          | cons hyz htail =>
            rw [List.forall_mem_cons] at ih
            exact .cons (ih.1 hxy hyz) (ih' ih.2 _ htail)
      | _ => simp [jsonEqual] at hbc
    | _ => simp [jsonEqual] at hab
  | hobj xs ih =>
    cases b with
    | obj ys =>
      cases c with
      | obj zs =>
        rw [jsonEqual_obj] at hab hbc ⊢
        refine ⟨fun k hk => hab.1 k (hbc.1 k hk), fun f hf => ?_⟩
        obtain ⟨y, hy, hxy⟩ := hab.2 f hf
        obtain ⟨z, hz, hyz⟩ := hbc.2 (f.1, y) (mem_of_lookup_eq_some hy)
        exact ⟨z, hz, ih f hf hxy hyz⟩
      | _ => simp [jsonEqual] at hbc
    | _ => simp [jsonEqual] at hab

theorem pyEq_of_jsonEqual {a b : Json} (ha : wellFormed a = true) (hb : wellFormed b = true)
    (h : jsonEqual a b = true) : pyEq a b = true := by
  induction a using induct generalizing b with
  | hnull => cases b <;> simp_all [jsonEqual, pyEq]
  | hbool x => cases b <;> simp_all [jsonEqual, pyEq, number?]
  | hint x => cases b <;> simp_all [jsonEqual, pyEq, number?]
  | hfloat x => cases b <;> simp_all [jsonEqual, pyEq, number?]
  | hstr x => cases b <;> simp_all [jsonEqual, pyEq]
  | harr xs ih =>
    cases b with
    | arr ys =>
      rw [wellFormed_arr] at ha hb
      rw [jsonEqual_arr] at h
      rw [pyEq_arr]
      induction h with
      | nil => exact .nil
      | cons hxy htail ih' =>
        rw [List.forall_mem_cons] at ha hb ih
        exact .cons (ih.1 ha.1 hb.1 hxy) (ih' ih.2 ha.2 hb.2)
    | _ => simp [jsonEqual] at h
  | hobj xs ih =>
    cases b with
    | obj ys =>
      rw [wellFormed_obj] at ha hb
      rw [jsonEqual_obj] at h
      rw [pyEq_obj]
      have hsub : ∀ k ∈ xs.map Prod.fst, k ∈ ys.map Prod.fst := by
        intro k hk
        obtain ⟨f, hf, rfl⟩ := List.mem_map.mp hk
        obtain ⟨y, hy, -⟩ := h.2 f hf
        exact mem_keys_of_lookup hy
      refine ⟨?_, fun f hf => ?_⟩
      · have hperm := (List.perm_ext_iff_of_nodup ha.1 hb.1).mpr fun k => ⟨hsub k, h.1 k⟩
        simpa using hperm.length_eq
      · obtain ⟨y, hy, heq⟩ := h.2 f hf
        refine ⟨y, hy, ih f hf (ha.2 f hf) (hb.2 _ (mem_of_lookup_eq_some hy)) heq⟩
    | _ => simp [jsonEqual] at h

theorem pyEq_refl {a : Json} (ha : wellFormed a = true) : pyEq a a = true :=
  pyEq_of_jsonEqual ha ha (jsonEqual_refl ha)

/-- A JSON value as a dictionary of the source holds it. -/
@[ext] structure Value where
  json : Json
  distinct : json.wellFormed = true

namespace Value

instance : DecidableEq Value := fun a b => decidable_of_iff (a.json = b.json) Value.ext_iff.symm

/-- Python's `==`. -/
def eq (a b : Value) : Bool := pyEq a.json b.json

def same (a b : Value) : Bool := jsonEqual a.json b.json

@[simp] theorem eq_self (a : Value) : a.eq a = true := pyEq_refl a.distinct

@[simp] theorem same_self (a : Value) : a.same a = true := jsonEqual_refl a.distinct

theorem eq_symm (a b : Value) (h : a.eq b = true) : b.eq a = true := pyEq_symm a.distinct b.distinct h

theorem eq_comm (a b : Value) : a.eq b = b.eq a := by
  rw [Bool.eq_iff_iff]
  exact ⟨eq_symm a b, eq_symm b a⟩

theorem eq_of_same (a b : Value) (h : a.same b = true) : a.eq b = true :=
  pyEq_of_jsonEqual a.distinct b.distinct h

theorem eq_trans {a b c : Value} (hab : a.eq b = true) (hbc : b.eq c = true) : a.eq c = true :=
  pyEq_trans hab hbc

theorem same_trans {a b c : Value} (hab : a.same b = true) (hbc : b.same c = true) :
    a.same c = true :=
  jsonEqual_trans hab hbc

end Value

end Raes.Json
