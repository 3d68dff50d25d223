import Mathlib.Algebra.GroupWithZero.Nat
import Mathlib.Data.List.Nodup

/-!
# Insertion-ordered dictionaries

A `Dict` is an association list whose keys are distinct.  It is the model of a
dictionary that remembers insertion order: storing under a key that is present
keeps the position of the key, and storing under a new key appends it.

Every fact about a dictionary is stated through `get?`, so a caller never
unfolds the list of entries.
-/

namespace Raes

/-- An association list with distinct keys. -/
structure Dict (κ : Type) (α : Type) where
  entries : List (κ × α)
  nodup : (entries.map Prod.fst).Nodup
  deriving DecidableEq

section Lookup

variable {κ α : Type} [DecidableEq κ]

theorem lookup_eq_none_iff_notMem (k : κ) (l : List (κ × α)) :
    l.lookup k = none ↔ k ∉ l.map Prod.fst := by
  induction l with
  | nil => simp
  | cons e rest ih =>
    obtain ⟨k', v⟩ := e
    by_cases h : k = k'
    · subst h
      simp
    · have hb : (k == k') = false := beq_eq_false_iff_ne.mpr h
      simp [List.lookup_cons, hb, ih, h]

variable {l : List (κ × α)}

theorem mem_of_lookup_eq_some {k : κ} {v : α} (h : l.lookup k = some v) : (k, v) ∈ l := by
  induction l with
  | nil => simp at h
  | cons e rest ih =>
    obtain ⟨k', v'⟩ := e
    by_cases hk : k = k'
    · subst hk
      simp at h
      simp [h]
    · have hb : (k == k') = false := beq_eq_false_iff_ne.mpr hk
      rw [List.lookup_cons, hb] at h
      exact List.mem_cons_of_mem _ (ih h)

theorem lookup_eq_some_of_mem {k : κ} {v : α} (hnd : (l.map Prod.fst).Nodup) (h :
    (k, v) ∈ l) : l.lookup k = some v := by
  induction l with
  | nil => simp at h
  | cons e rest ih =>
    obtain ⟨k', v'⟩ := e
    rw [List.map_cons, List.nodup_cons] at hnd
    rcases List.mem_cons.mp h with heq | hmem
    · obtain ⟨rfl, rfl⟩ := Prod.mk.inj heq
      simp
    · have hk : k ≠ k' := by
        rintro rfl
        exact hnd.1 (List.mem_map.mpr ⟨_, hmem, rfl⟩)
      have hb : (k == k') = false := beq_eq_false_iff_ne.mpr hk
      rw [List.lookup_cons, hb]
      exact ih hnd.2 hmem

theorem lookup_eq_some_iff {k : κ} {v : α} (hnd : (l.map Prod.fst).Nodup) : l.lookup k = some v ↔
    (k, v) ∈ l :=
  ⟨mem_of_lookup_eq_some, lookup_eq_some_of_mem hnd⟩

theorem lookup_map_snd {β : Type} (f : κ → α → β) (k : κ) (l : List (κ × α)) :
    (l.map fun e => (e.1, f e.1 e.2)).lookup k = (l.lookup k).map (f k) := by
  induction l with
  | nil => rfl
  | cons e rest ih =>
    obtain ⟨k', v⟩ := e
    by_cases h : k = k'
    · subst h
      simp
    · have hb : (k == k') = false := beq_eq_false_iff_ne.mpr h
      simp only [List.map_cons, List.lookup_cons, hb, ih]

end Lookup

namespace Dict

variable {κ α β : Type}

def empty : Dict κ α := ⟨[], List.nodup_nil⟩

def keys (d : Dict κ α) : List κ := d.entries.map Prod.fst

def values (d : Dict κ α) : List α := d.entries.map Prod.snd

theorem keys_nodup (d : Dict κ α) : d.keys.Nodup := d.nodup

def mapValues (d : Dict κ α) (f : κ → α → β) : Dict κ β :=
  ⟨d.entries.map fun e => (e.1, f e.1 e.2), by
    have h : (d.entries.map fun e => (e.1, f e.1 e.2)).map Prod.fst =
        d.entries.map Prod.fst := by
      rw [List.map_map]
      rfl
    rw [h]
    exact d.nodup⟩

@[simp] theorem keys_mapValues (d : Dict κ α) (f : κ → α → β) :
    (d.mapValues f).keys = d.keys := by
  simp only [keys, mapValues, List.map_map]
  rfl

variable [DecidableEq κ] (d : Dict κ α)

def get? (k : κ) : Option α := d.entries.lookup k

def contains (k : κ) : Bool := (d.get? k).isSome

/-- Replace the entry of `k` where it stands, or append a new entry. -/
def setEntry (k : κ) (v : α) : List (κ × α) → List (κ × α)
  | [] => [(k, v)]
  | (k', v') :: rest =>
    if k = k' then (k, v) :: rest else (k', v') :: setEntry k v rest

variable (k : κ) (v : α)

theorem keys_setEntry (l : List (κ × α)) : (setEntry k v l).map Prod.fst =
      if k ∈ l.map Prod.fst then l.map Prod.fst else l.map Prod.fst ++ [k] := by
  induction l with
  | nil => simp [setEntry]
  | cons e rest ih =>
    obtain ⟨k', v'⟩ := e
    by_cases h : k = k'
    · subst h
      simp [setEntry]
    · rw [setEntry, if_neg h, List.map_cons, ih]
      by_cases hm : k ∈ rest.map Prod.fst <;> simp [hm, h]

theorem setEntry_nodup {l : List (κ × α)} (h : (l.map Prod.fst).Nodup) :
    ((setEntry k v l).map Prod.fst).Nodup := by
  rw [keys_setEntry]
  split
  · exact h
  · rename_i hk
    exact h.append (List.nodup_singleton k) (List.disjoint_singleton.mpr hk)

theorem lookup_setEntry (l : List (κ × α)) (x : κ) :
    (setEntry k v l).lookup x = if x = k then some v else l.lookup x := by
  induction l with
  | nil =>
    by_cases h : x = k
    · subst h
      simp [setEntry]
    · have hb : (x == k) = false := beq_eq_false_iff_ne.mpr h
      simp [setEntry, List.lookup_cons, hb, h]
  | cons e rest ih =>
    obtain ⟨k', v'⟩ := e
    by_cases hk : k = k'
    · subst hk
      rw [setEntry, if_pos rfl]
      by_cases h : x = k
      · subst h
        simp
      · have hb : (x == k) = false := beq_eq_false_iff_ne.mpr h
        simp [List.lookup_cons, hb, h]
    · rw [setEntry, if_neg hk]
      by_cases h : x = k'
      · subst h
        have hx : x ≠ k := fun he => hk he.symm
        simp [hx]
      · have hb : (x == k') = false := beq_eq_false_iff_ne.mpr h
        rw [List.lookup_cons, List.lookup_cons, hb]
        exact ih

def set (v : α) : Dict κ α :=
  ⟨setEntry k v d.entries, setEntry_nodup k v d.nodup⟩

@[simp] theorem get?_empty : (empty : Dict κ α).get? k = none := rfl

theorem get?_set (x : κ) : (d.set k v).get? x = if x = k then some v else d.get? x :=
  lookup_setEntry k v d.entries x

@[simp] theorem get?_set_self : (d.set k v).get? k = some v := by
  rw [get?_set, if_pos rfl]

theorem get?_set_ne {k x : κ} (v : α) (h : x ≠ k) : (d.set k v).get? x = d.get? x := by
  rw [get?_set, if_neg h]

theorem setEntry_map {β : Type} (f : α → β) (k : κ) (v : α) (l : List (κ × α)) :
    setEntry k (f v) (l.map fun e => (e.1, f e.2)) = (setEntry k v l).map fun e => (e.1, f e.2) := by
  induction l with
  | nil => rfl
  | cons e rest ih =>
    obtain ⟨k', v'⟩ := e
    rw [List.map_cons]
    unfold setEntry
    split
    · rfl
    · rw [ih]
      rfl

theorem mapValues_set {β : Type} (d : Dict κ α) (f : α → β) (k : κ) (v : α) :
    (d.set k v).mapValues (fun _ => f) = (d.mapValues fun _ => f).set k (f v) := by
  have h := setEntry_map f k v d.entries
  unfold mapValues set
  simp only [h]

@[simp] theorem get?_mapValues (f : κ → α → β) (k : κ) :
    (d.mapValues f).get? k = (d.get? k).map (f k) :=
  lookup_map_snd f k d.entries

theorem get?_eq_none_iff {d : Dict κ α} {k : κ} : d.get? k = none ↔ k ∉ d.keys :=
  lookup_eq_none_iff_notMem k d.entries

theorem get?_eq_some_iff {d : Dict κ α} {k : κ} {v : α} :
    d.get? k = some v ↔ (k, v) ∈ d.entries :=
  lookup_eq_some_iff d.nodup

theorem mem_keys_iff {d : Dict κ α} {k : κ} : k ∈ d.keys ↔ ∃ v, d.get? k = some v := by
  rw [← not_iff_not, ← get?_eq_none_iff, Option.eq_none_iff_forall_ne_some, not_exists]

theorem contains_iff {d : Dict κ α} {k : κ} : d.contains k = true ↔ k ∈ d.keys := by
  rw [contains, Option.isSome_iff_exists, mem_keys_iff]

theorem mem_values_iff {d : Dict κ α} {v : α} : v ∈ d.values ↔ ∃ k, d.get? k = some v := by
  simp only [values, List.mem_map, get?_eq_some_iff]
  constructor
  · rintro ⟨⟨k, w⟩, hmem, rfl⟩
    exact ⟨k, hmem⟩
  · rintro ⟨k, hmem⟩
    exact ⟨(k, v), hmem, rfl⟩

theorem mem_keys_set (x : κ) : x ∈ (d.set k v).keys ↔ x = k ∨ x ∈ d.keys := by
  rw [mem_keys_iff, mem_keys_iff, get?_set]
  by_cases h : x = k <;> simp [h]

def erase (k : κ) : Dict κ α :=
  ⟨d.entries.filter fun e => e.1 ≠ k, d.nodup.sublist (List.filter_sublist.map _)⟩

theorem get?_erase (k x : κ) : (d.erase k).get? x = if x = k then none else d.get? x := by
  apply Option.ext
  intro v
  rw [get?_eq_some_iff]
  show (x, v) ∈ d.entries.filter _ ↔ _
  rw [List.mem_filter]
  by_cases h : x = k
  · simp [h]
  · simp [h, get?_eq_some_iff]

def filterKeys (p : κ → Prop) [DecidablePred p] : Dict κ α :=
  ⟨d.entries.filter fun e => p e.1, d.nodup.sublist (List.filter_sublist.map _)⟩

theorem get?_filterKeys (p : κ → Prop) [DecidablePred p] (x : κ) :
    (d.filterKeys p).get? x = if p x then d.get? x else none := by
  apply Option.ext
  intro v
  rw [get?_eq_some_iff]
  show (x, v) ∈ d.entries.filter _ ↔ _
  rw [List.mem_filter]
  by_cases h : p x
  · simp [h, get?_eq_some_iff]
  · simp [h]

def filterValues (p : α → Prop) [DecidablePred p] : Dict κ α :=
  ⟨d.entries.filter fun e => p e.2, d.nodup.sublist (List.filter_sublist.map _)⟩

theorem get?_filterValues (p : α → Prop) [DecidablePred p] (x : κ) :
    (d.filterValues p).get? x = (d.get? x).filter fun v => p v := by
  apply Option.ext
  intro v
  rw [get?_eq_some_iff, Option.filter_eq_some_iff, get?_eq_some_iff]
  exact List.mem_filter

omit [DecidableEq κ] in
theorem entries_nodup (d : Dict κ α) : d.entries.Nodup := List.Nodup.of_map _ d.nodup

/-- Two dictionaries that answer every lookup alike hold the same entries. -/
theorem entries_perm {d e : Dict κ α} (h : ∀ k, d.get? k = e.get? k) :
    d.entries.Perm e.entries := by
  apply (List.perm_ext_iff_of_nodup d.entries_nodup e.entries_nodup).mpr
  rintro ⟨k, v⟩
  rw [← get?_eq_some_iff, ← get?_eq_some_iff, h]

theorem get?_foldl_set (f : κ → β → α) (l : List (κ × β)) (d : Dict κ α)
    (hnd : (l.map Prod.fst).Nodup) (k : κ) :
    (l.foldl (fun d e => d.set e.1 (f e.1 e.2)) d).get? k =
      match l.lookup k with
      | some b => some (f k b)
      | none => d.get? k := by
  induction l generalizing d with
  | nil => rfl
  | cons e rest ih =>
    obtain ⟨k', b⟩ := e
    rw [List.map_cons, List.nodup_cons] at hnd
    rw [List.foldl_cons, ih _ hnd.2, get?_set]
    by_cases h : k = k'
    · subst h
      have hnone : rest.lookup k = none := (lookup_eq_none_iff_notMem k rest).mpr hnd.1
      simp [hnone]
    · have hb : (k == k') = false := beq_eq_false_iff_ne.mpr h
      simp only [List.lookup_cons, hb, if_neg h]

def collect (key : α → κ) (items : List α) : Dict κ (List α) :=
  items.foldl (fun d item => d.set (key item) ((d.get? (key item)).getD [] ++ [item])) empty

theorem getD_collect (key : α → κ) (items : List α) (k : κ) :
    ((collect key items).get? k).getD [] = items.filter fun item => decide (key item = k) := by
  have hfold : ∀ d : Dict κ (List α),
      ((items.foldl (fun d item => d.set (key item) ((d.get? (key item)).getD [] ++ [item]))
        d).get? k).getD [] =
      (d.get? k).getD [] ++ items.filter fun item => decide (key item = k) := by
    induction items with
    | nil => simp
    | cons item rest ih =>
      intro d
      rw [List.foldl_cons, ih, get?_set]
      by_cases h : key item = k
      · subst h
        simp
      · simp [h, Ne.symm h]
  have hempty : ((empty : Dict κ (List α)).get? k).getD [] = [] := rfl
  rw [collect, hfold, hempty, List.nil_append]

theorem mem_keys_collect (key : α → κ) (items : List α) (k : κ) :
    k ∈ (collect key items).keys ↔ k ∈ items.map key := by
  have hfold : ∀ d : Dict κ (List α),
      k ∈ (items.foldl (fun d item => d.set (key item) ((d.get? (key item)).getD [] ++ [item]))
        d).keys ↔ k ∈ d.keys ∨ k ∈ items.map key := by
    induction items with
    | nil => simp
    | cons item rest ih =>
      intro d
      rw [List.foldl_cons, ih, mem_keys_set, List.map_cons, List.mem_cons]
      tauto
  rw [collect, hfold]
  simp [empty, keys]

theorem setEntry_of_notMem {k : κ} {l : List (κ × α)} (v : α) (h : k ∉ l.map Prod.fst) :
    setEntry k v l = l ++ [(k, v)] := by
  induction l with
  | nil => rfl
  | cons e rest ih =>
    obtain ⟨k', v'⟩ := e
    rw [List.map_cons, List.mem_cons, not_or] at h
    rw [setEntry, if_neg h.1, ih h.2]
    rfl

/-- Entries with distinct new keys are added in their order. -/
theorem foldl_setEntry_of_nodup {l m : List (κ × α)} (h : ((m ++ l).map Prod.fst).Nodup) :
    l.foldl (fun fields e => setEntry e.1 e.2 fields) m = m ++ l := by
  induction l generalizing m with
  | nil => simp
  | cons e rest ih =>
    have hnew : e.1 ∉ m.map Prod.fst := by
      intro hmem
      rw [List.map_append, List.map_cons] at h
      exact (List.nodup_append.mp h).2.2 e.1 hmem e.1 List.mem_cons_self rfl
    rw [List.foldl_cons, setEntry_of_notMem e.2 hnew, ih (by simpa using h)]
    simp

theorem entries_set_of_get?_none {d : Dict κ α} {k : κ} (v : α) (h : d.get? k = none) :
    (d.set k v).entries = d.entries ++ [(k, v)] :=
  setEntry_of_notMem v ((lookup_eq_none_iff_notMem k d.entries).mp h)

theorem values_set_of_get?_none {d : Dict κ α} {k : κ} (v : α) (h : d.get? k = none) :
    (d.set k v).values = d.values ++ [v] := by
  rw [values, entries_set_of_get?_none v h, List.map_append]
  rfl

/-- A stored key has its value replaced where it stands. -/
theorem forall₂_values_set {R : α → α → Prop} (hrefl : ∀ a, R a a) {d : Dict κ α} {k : κ}
    {v w : α} (h : d.get? k = some v) (hR : R v w) :
    List.Forall₂ R d.values (d.set k w).values := by
  have hentries : ∀ l : List (κ × α), l.lookup k = some v →
      List.Forall₂ R (l.map Prod.snd) ((setEntry k w l).map Prod.snd) := by
    intro l hl
    induction l with
    | nil => cases hl
    | cons e rest ih =>
      obtain ⟨k', v'⟩ := e
      by_cases hk : k = k'
      · subst hk
        rw [List.lookup_cons, beq_self_eq_true] at hl
        cases hl
        rw [setEntry, if_pos rfl]
        exact .cons hR (List.forall₂_same.mpr fun x _ => hrefl x)
      · rw [List.lookup_cons, beq_eq_false_iff_ne.mpr hk] at hl
        rw [setEntry, if_neg hk]
        exact .cons (hrefl v') (ih hl)
  exact hentries d.entries h

/-! ## Related dictionaries -/

/-- Two entries of one key with related values. -/
def RelatedEntries (P : κ → α → β → Prop) (a : κ × α) (b : κ × β) : Prop :=
  a.1 = b.1 ∧ P a.1 a.2 b.2

/-- Two dictionaries hold the same keys in the same order, and related values. -/
def Related (P : κ → α → β → Prop) (d : Dict κ α) (e : Dict κ β) : Prop :=
  List.Forall₂ (RelatedEntries P) d.entries e.entries

variable {P : κ → α → β → Prop} {d : Dict κ α} {e : Dict κ β}

omit [DecidableEq κ] in
theorem related_empty : Related P (empty : Dict κ α) (empty : Dict κ β) := .nil

theorem lookup_related {l : List (κ × α)} {m : List (κ × β)}
    (h : List.Forall₂ (RelatedEntries P) l m) (k : κ) :
    (l.lookup k = none ∧ m.lookup k = none) ∨
      ∃ a b, l.lookup k = some a ∧ m.lookup k = some b ∧ P k a b := by
  induction h with
  | nil => exact Or.inl ⟨rfl, rfl⟩
  | cons hhead htail ih =>
    rename_i x y xs ys
    obtain ⟨kx, a⟩ := x
    obtain ⟨ky, b⟩ := y
    obtain ⟨hkey, hP⟩ := hhead
    change kx = ky at hkey
    subst kx
    rw [List.lookup_cons, List.lookup_cons]
    by_cases hk : k = ky
    · subst hk
      rw [beq_self_eq_true]
      exact Or.inr ⟨a, b, rfl, rfl, hP⟩
    · rw [beq_eq_false_iff_ne.mpr hk]
      exact ih

omit [DecidableEq κ] in
theorem Related.keys_eq (h : Related P d e) : d.keys = e.keys := by
  have hkeys : List.Forall₂ (fun a b : κ => a = b) d.keys e.keys :=
    List.forall₂_map_left_iff.mpr (List.forall₂_map_right_iff.mpr (h.imp fun _ _ hab => hab.1))
  exact List.forall₂_eq_eq_eq ▸ hkeys

omit [DecidableEq κ] in
/-- Dictionaries that hold equal values are equal. -/
theorem eq_of_related {e : Dict κ α} (h : Related (fun _ a b => a = b) d e) : d = e := by
  have hentries : d.entries = e.entries := by
    have heq : List.Forall₂ (fun a b : κ × α => a = b) d.entries e.entries :=
      h.imp fun _ _ hab => Prod.ext hab.1 hab.2
    exact List.forall₂_eq_eq_eq ▸ heq
  cases d
  cases e
  cases hentries
  rfl

theorem Related.get? (h : Related P d e) (k : κ) :
    (d.get? k = none ∧ e.get? k = none) ∨
      ∃ a b, d.get? k = some a ∧ e.get? k = some b ∧ P k a b :=
  lookup_related h k

theorem setEntry_related {l : List (κ × α)} {m : List (κ × β)}
    (h : List.Forall₂ (RelatedEntries P) l m) {k : κ} {a : α} {b : β} (hab : P k a b) :
    List.Forall₂ (RelatedEntries P) (setEntry k a l) (setEntry k b m) := by
  induction h with
  | nil => exact .cons ⟨rfl, hab⟩ .nil
  | cons hhead htail ih =>
    rename_i x y xs ys
    obtain ⟨kx, x⟩ := x
    obtain ⟨ky, y⟩ := y
    obtain ⟨hkey, hP⟩ := hhead
    change kx = ky at hkey
    subst kx
    unfold setEntry
    split
    · exact .cons ⟨rfl, hab⟩ htail
    · exact .cons ⟨rfl, hP⟩ ih

theorem Related.set (h : Related P d e) {k : κ} {a : α} {b : β} (hab : P k a b) :
    Related P (d.set k a) (e.set k b) :=
  setEntry_related h hab

end Dict

end Raes
