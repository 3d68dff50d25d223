import Mathlib.Data.Bool.Count

/-!
# Quantified statements under partial knowledge

A population is known in part: of each unit it is known that it satisfies a
predicate, that it does not, or neither, and the population may be open to
further units.  A completion settles the unknown units and, of an open
population, adds any number of units.

The number of units that satisfy the predicate lies, in every closed completion,
between those known to satisfy it and those not known to fail it, and both ends
are reached.
-/

namespace Raes

/-- What is known of one unit. -/
inductive Known where
  | yes
  | no
  | unknown
  deriving DecidableEq, Repr

namespace Known

def Allows : Known → Bool → Prop
  | yes, value => value = true
  | no, value => value = false
  | unknown, _ => True

theorem allows_lowest (known : Known) : known.Allows (known == .yes) := by
  cases known <;> simp [Allows]

theorem allows_highest (known : Known) : known.Allows (known != .no) := by
  cases known <;> simp [Allows]

end Known

/-- A completion settles the units and adds further ones to a population that is not complete. -/
def Completes {α : Type} (allows : α → Bool → Prop) (complete : Prop) (units : List α)
    (values : List Bool) : Prop :=
  ∃ settled added, values = settled ++ added ∧ List.Forall₂ allows units settled ∧
    (complete → added = [])

theorem completes_of_settled {α : Type} {allows : α → Bool → Prop} {complete : Prop}
    {units : List α} {settled : List Bool} (h : List.Forall₂ allows units settled) :
    Completes allows complete units settled :=
  ⟨settled, [], (List.append_nil settled).symm, h, fun _ => rfl⟩

theorem completes_of_added {α : Type} {allows : α → Bool → Prop} {complete : Prop}
    (hopen : ¬ complete) {units : List α} {settled : List Bool}
    (h : List.Forall₂ allows units settled) (added : List Bool) :
    Completes allows complete units (settled ++ added) :=
  ⟨settled, added, rfl, h, fun hcomplete => absurd hcomplete hopen⟩

section Counts

variable {units : List Known} {settled : List Bool}

theorem settled_lowest (units : List Known) :
    List.Forall₂ Known.Allows units (units.map (· == .yes)) := by
  rw [List.forall₂_map_right_iff]
  exact List.forall₂_same.mpr fun known _ => known.allows_lowest

theorem settled_highest (units : List Known) :
    List.Forall₂ Known.Allows units (units.map (· != .no)) := by
  rw [List.forall₂_map_right_iff]
  exact List.forall₂_same.mpr fun known _ => known.allows_highest

theorem count_yes_le (h : List.Forall₂ Known.Allows units settled) :
    units.count .yes ≤ settled.count true := by
  induction h with
  | nil => exact Nat.le_refl 0
  | @cons known value units settled hallows _ ih =>
    cases known with
    | yes =>
      have hvalue : value = true := hallows
      simp only [hvalue, List.count_cons_self]
      omega
    | no =>
      rw [List.count_cons_of_ne (by decide), List.count_cons]
      omega
    | unknown =>
      rw [List.count_cons_of_ne (by decide), List.count_cons]
      omega

theorem count_no_le (h : List.Forall₂ Known.Allows units settled) :
    units.count .no ≤ settled.count false := by
  induction h with
  | nil => exact Nat.le_refl 0
  | @cons known value units settled hallows _ ih =>
    cases known with
    | yes =>
      rw [List.count_cons_of_ne (by decide), List.count_cons]
      omega
    | no =>
      have hvalue : value = false := hallows
      simp only [hvalue, List.count_cons_self]
      omega
    | unknown =>
      rw [List.count_cons_of_ne (by decide), List.count_cons]
      omega

theorem count_add_count_add_count (units : List Known) :
    units.count .yes + units.count .no + units.count .unknown = units.length := by
  induction units with
  | nil => rfl
  | cons known rest ih =>
    cases known <;> simp <;> omega

theorem count_true_lowest (units : List Known) :
    (units.map (· == .yes)).count true = units.count .yes := by
  induction units with
  | nil => rfl
  | cons known rest ih =>
    cases known <;> simp_all

theorem count_true_highest (units : List Known) :
    (units.map (· != .no)).count true = units.count .yes + units.count .unknown := by
  induction units with
  | nil => rfl
  | cons known rest ih =>
    cases known <;> simp_all [List.count_cons] <;> omega

end Counts

/-! ## Quantified statements -/

/-- A statement about how many units of a population satisfy a predicate. -/
inductive Quantified where
  | existential
  | universal
  | threshold (least : ℕ)
  deriving DecidableEq, Repr

def Quantified.Holds : Quantified → List Bool → Prop
  | .existential, values => true ∈ values
  | .universal, values => ∀ value ∈ values, value = true
  | .threshold least, values => least ≤ values.count true

theorem holds_existential_iff (values : List Bool) :
    Quantified.existential.Holds values ↔ 1 ≤ values.count true :=
  List.count_pos_iff.symm

theorem holds_universal_iff (values : List Bool) :
    Quantified.universal.Holds values ↔ values.count false = 0 := by
  rw [List.count_eq_zero]
  constructor
  · intro hall hmem
    cases hall false hmem
  · intro hnone value hvalue
    cases value with
    | true => rfl
    | false => exact absurd hvalue hnone

/-- Both truth values of a statement remain possible. -/
def Undecided {α : Type} (allows : α → Bool → Prop) (complete : Prop) (units : List α)
    (statement : Quantified) : Prop :=
  (∃ values, Completes allows complete units values ∧ statement.Holds values) ∧
    ∃ values, Completes allows complete units values ∧ ¬ statement.Holds values

section Decided

variable {units : List Known} {complete : Prop} {least : ℕ} {values : List Bool}

theorem holds_threshold_of_le (h : least ≤ units.count .yes)
    (hvalues : Completes Known.Allows complete units values) :
    (Quantified.threshold least).Holds values := by
  obtain ⟨settled, added, rfl, hsettled, -⟩ := hvalues
  have hcount := count_yes_le hsettled
  show least ≤ (settled ++ added).count true
  rw [List.count_append]
  omega

theorem not_holds_threshold_of_lt (hcomplete : complete)
    (h : units.count .yes + units.count .unknown < least)
    (hvalues : Completes Known.Allows complete units values) :
    ¬ (Quantified.threshold least).Holds values := by
  obtain ⟨settled, added, rfl, hsettled, hadded⟩ := hvalues
  rw [hadded hcomplete, List.append_nil]
  have hno := count_no_le hsettled
  have hlength := hsettled.length_eq
  have hunits := count_add_count_add_count units
  have hvalues := List.count_true_add_count_false settled
  show ¬ least ≤ settled.count true
  omega

theorem undecided_threshold (hlow : units.count .yes < least)
    (hhigh : complete → least ≤ units.count .yes + units.count .unknown) :
    Undecided Known.Allows complete units (.threshold least) := by
  constructor
  · by_cases hcomplete : complete
    · refine ⟨_, completes_of_settled (settled_highest units), ?_⟩
      show least ≤ (units.map (· != .no)).count true
      rw [count_true_highest]
      exact hhigh hcomplete
    · refine ⟨_, completes_of_added hcomplete (settled_highest units)
        (List.replicate least true), ?_⟩
      show least ≤ (units.map (· != .no) ++ List.replicate least true).count true
      rw [List.count_append, List.count_replicate_self]
      omega
  · refine ⟨_, completes_of_settled (settled_lowest units), ?_⟩
    show ¬ least ≤ (units.map (· == .yes)).count true
    rw [count_true_lowest]
    omega

theorem holds_universal_of_all (hcomplete : complete) (h : units.count .yes = units.length)
    (hvalues : Completes Known.Allows complete units values) :
    Quantified.universal.Holds values := by
  obtain ⟨settled, added, rfl, hsettled, hadded⟩ := hvalues
  rw [hadded hcomplete, List.append_nil, holds_universal_iff]
  have hyes := count_yes_le hsettled
  have hlength := hsettled.length_eq
  have hvalues := List.count_true_add_count_false settled
  omega

/-- A unit that fails refutes a universal statement, whatever is added. -/
theorem not_holds_universal_of_no (h : 0 < units.count .no)
    (hvalues : Completes Known.Allows complete units values) :
    ¬ Quantified.universal.Holds values := by
  obtain ⟨settled, added, rfl, hsettled, -⟩ := hvalues
  have hno := count_no_le hsettled
  rw [holds_universal_iff, List.count_append]
  omega

theorem undecided_universal (hno : units.count .no = 0)
    (hyes : units.count .yes ≠ units.length) :
    Undecided Known.Allows complete units .universal := by
  have hunits := count_add_count_add_count units
  constructor
  · refine ⟨_, completes_of_settled (settled_highest units), ?_⟩
    have hhighest := count_true_highest units
    have hvalues := List.count_true_add_count_false (units.map (· != .no))
    rw [List.length_map] at hvalues
    rw [holds_universal_iff]
    omega
  · refine ⟨_, completes_of_settled (settled_lowest units), ?_⟩
    have hlowest := count_true_lowest units
    have hvalues := List.count_true_add_count_false (units.map (· == .yes))
    rw [List.length_map] at hvalues
    rw [holds_universal_iff]
    omega

end Decided

end Raes
