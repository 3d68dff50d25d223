import Mathlib.Algebra.BigOperators.Group.List.Basic
import Mathlib.Data.List.Flatten
import Mathlib.Data.List.Nodup

/-!
# Cartesian products of lists

`choices` lists the ways to take one member of each list, the last list moving
fastest: every choice once, if no list repeats a member.
-/

namespace Raes

variable {α : Type}

/-- The Cartesian product of lists, the last list moving fastest. -/
def choices : List (List α) → List (List α)
  | [] => [[]]
  | members :: rest => members.flatMap fun a => (choices rest).map (a :: ·)

theorem mem_choices (choice : List α) (lists : List (List α)) :
    choice ∈ choices lists ↔ List.Forall₂ (· ∈ ·) choice lists := by
  induction lists generalizing choice with
  | nil => simp [choices]
  | cons members rest ih =>
    simp only [choices, List.mem_flatMap, List.mem_map]
    constructor
    · rintro ⟨a, ha, tail, htail, rfl⟩
      exact .cons ha ((ih tail).mp htail)
    · intro h
      cases h with
      | cons ha htail => exact ⟨_, ha, _, (ih _).mpr htail, rfl⟩

theorem length_choices (lists : List (List α)) :
    (choices lists).length = (lists.map List.length).prod := by
  induction lists with
  | nil => rfl
  | cons members rest ih =>
    have hmembers : ∀ l : List α, (l.flatMap fun a => (choices rest).map (a :: ·)).length =
        l.length * (choices rest).length := by
      intro l
      induction l with
      | nil => simp
      | cons a l ihl =>
        rw [List.flatMap_cons, List.length_append, List.length_map, ihl, List.length_cons,
          Nat.succ_mul, Nat.add_comm]
    rw [choices, hmembers, List.map_cons, List.prod_cons, ih]

theorem nodup_choices {lists : List (List α)} (h : ∀ members ∈ lists, members.Nodup) :
    (choices lists).Nodup := by
  induction lists with
  | nil => exact List.nodup_singleton []
  | cons members rest ih =>
    rw [List.forall_mem_cons] at h
    rw [choices, List.nodup_flatMap]
    constructor
    · intro a _
      exact (ih h.2).map fun x y hxy => (List.cons.inj hxy).2
    · apply h.1.imp
      intro a b hne choice ha hb
      obtain ⟨x, -, rfl⟩ := List.mem_map.mp ha
      obtain ⟨y, -, hy⟩ := List.mem_map.mp hb
      exact hne (List.cons.inj hy).1.symm

theorem pairwise_lex_choices [LT α] {lists : List (List α)}
    (h : ∀ members ∈ lists, members.Pairwise (· < ·)) :
    (choices lists).Pairwise (List.Lex (· < ·)) := by
  induction lists with
  | nil => exact List.pairwise_singleton _ _
  | cons members rest ih =>
    rw [List.forall_mem_cons] at h
    rw [choices, List.pairwise_flatMap]
    constructor
    · intro a _
      exact List.pairwise_map.mpr ((ih h.2).imp fun hlex => .cons hlex)
    · apply h.1.imp
      intro a b hlt x hx y hy
      obtain ⟨_, -, rfl⟩ := List.mem_map.mp hx
      obtain ⟨_, -, rfl⟩ := List.mem_map.mp hy
      exact .rel hlt

section Named

variable {κ : Type} (f : κ → List α) (names : List κ)

def namedChoices : List (List (κ × α)) :=
  (choices (names.map f)).map fun choice => names.zip choice

theorem mem_namedChoices (row : List (κ × α)) :
    row ∈ namedChoices f names ↔ row.map Prod.fst = names ∧ ∀ entry ∈ row, entry.2 ∈ f entry.1 := by
  unfold namedChoices
  induction names generalizing row with
  | nil =>
    simp only [List.map_nil, choices, List.map_cons, List.zip_nil_left, List.mem_singleton,
      List.map_eq_nil_iff]
    constructor
    · intro h
      rw [h]
      exact ⟨rfl, fun _ hmem => (nomatch hmem)⟩
    · exact fun h => h.1
  | cons name rest ih =>
    simp only [List.mem_map, mem_choices] at ih ⊢
    constructor
    · intro h
      obtain ⟨choice, hchoice, rfl⟩ := h
      cases hchoice with
      | @cons a _ tail _ ha htail =>
        obtain ⟨hnames, hmembers⟩ := (ih (rest.zip tail)).mp ⟨tail, htail, rfl⟩
        exact ⟨congrArg (name :: ·) hnames, List.forall_mem_cons.mpr ⟨ha, hmembers⟩⟩
    · intro h
      obtain ⟨hnames, hmembers⟩ := h
      cases row with
      | nil => cases hnames
      | cons entry row =>
        obtain ⟨rfl, hrest⟩ := List.cons.inj hnames
        rw [List.forall_mem_cons] at hmembers
        obtain ⟨tail, htail, hrow⟩ := (ih row).mpr ⟨hrest, hmembers.2⟩
        exact ⟨entry.2 :: tail, .cons hmembers.1 htail, by rw [List.zip_cons_cons, hrow]⟩

theorem map_snd_zip_choice {choice : List α} (h : choice ∈ choices (names.map f)) :
    (names.zip choice).map Prod.snd = choice := by
  have hlength := ((mem_choices _ _).mp h).length_eq
  rw [List.length_map] at hlength
  exact List.map_snd_zip (Nat.le_of_eq hlength)

theorem map_snd_namedChoices :
    (namedChoices f names).map (fun row => row.map Prod.snd) = choices (names.map f) := by
  rw [namedChoices, List.map_map]
  exact (List.map_congr_left fun choice h => map_snd_zip_choice f names h).trans (List.map_id _)

theorem length_namedChoices :
    (namedChoices f names).length = (names.map fun name => (f name).length).prod := by
  rw [namedChoices, List.length_map, length_choices, List.map_map]
  rfl

theorem nodup_namedChoices (h : ∀ name ∈ names, (f name).Nodup) : (namedChoices f names).Nodup := by
  have hchoices : (choices (names.map f)).Nodup := by
    refine nodup_choices fun members hmembers => ?_
    obtain ⟨name, hname, rfl⟩ := List.mem_map.mp hmembers
    exact h name hname
  rw [← map_snd_namedChoices] at hchoices
  exact hchoices.of_map _

theorem pairwise_lex_namedChoices [LT α] (h : ∀ name ∈ names, (f name).Pairwise (· < ·)) :
    ((namedChoices f names).map fun row => row.map Prod.snd).Pairwise (List.Lex (· < ·)) := by
  rw [map_snd_namedChoices]
  refine pairwise_lex_choices fun members hmembers => ?_
  obtain ⟨name, hname, rfl⟩ := List.mem_map.mp hmembers
  exact h name hname

end Named

end Raes
