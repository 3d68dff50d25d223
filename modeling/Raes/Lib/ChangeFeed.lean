import Raes.Lib.Dict

/-!
# Change feeds

A table that is written in place keeps a log of the keys that it wrote.  A reader
that holds a copy of the table up to some position of the log has the current
value of every key that is not in the log behind the position.  It catches up by
storing the current values of the keys behind its position, in any order and each
as often as it likes.
-/

namespace Raes.ChangeFeed

variable {κ α : Type} [DecidableEq κ]

def Logged (table : Dict κ α) (log : List κ) : Prop := ∀ k ∈ log, k ∈ table.keys

def Current (table : Dict κ α) (log : List κ) (position : ℕ) (copy : Dict κ α) : Prop :=
  position ≤ log.length ∧ ∀ k, k ∉ log.drop position → copy.get? k = table.get? k

def update (copy : Dict κ α) (values : List (κ × α)) : Dict κ α :=
  values.foldl (fun d e => d.set e.1 e.2) copy

variable {table copy : Dict κ α} {log : List κ} {position : ℕ}

theorem Logged.write (h : Logged table log) (k : κ) (v : α) :
    Logged (table.set k v) (log ++ [k]) := by
  intro x hx
  rw [Dict.mem_keys_set]
  rcases List.mem_append.mp hx with hx | hx
  · exact Or.inr (h x hx)
  · exact Or.inl (List.mem_singleton.mp hx)

theorem Current.write (h : Current table log position copy) (k : κ) (v : α) :
    Current (table.set k v) (log ++ [k]) position copy := by
  obtain ⟨hle, hcopy⟩ := h
  constructor
  · rw [List.length_append]
    omega
  · intro x hx
    rw [List.drop_append_of_le_length hle, List.mem_append, not_or] at hx
    have hne : x ≠ k := fun heq => hx.2 (List.mem_singleton.mpr heq)
    rw [Dict.get?_set_ne table v hne]
    exact hcopy x hx.1

theorem current_end (h : ∀ k, copy.get? k = table.get? k) :
    Current table log log.length copy :=
  ⟨Nat.le_refl _, fun k _ => h k⟩

theorem Current.get?_eq (h : Current table log log.length copy) (k : κ) :
    copy.get? k = table.get? k := by
  apply h.2
  rw [List.drop_length]
  exact List.not_mem_nil

theorem get?_update_of_notMem {values : List (κ × α)} {k : κ}
    (h : k ∉ values.map Prod.fst) : (update copy values).get? k = copy.get? k := by
  induction values generalizing copy with
  | nil => rfl
  | cons e rest ih =>
    rw [List.map_cons, List.mem_cons, not_or] at h
    show (update (copy.set e.1 e.2) rest).get? k = _
    rw [ih h.2, Dict.get?_set_ne copy e.2 h.1]

theorem get?_update_of_mem {values : List (κ × α)} {k : κ}
    (hvalues : ∀ e ∈ values, table.get? e.1 = some e.2) (h : k ∈ values.map Prod.fst) :
    (update copy values).get? k = table.get? k := by
  induction values generalizing copy with
  | nil => cases h
  | cons e rest ih =>
    have hrest : ∀ e ∈ rest, table.get? e.1 = some e.2 :=
      fun e' he' => hvalues e' (List.mem_cons_of_mem _ he')
    show (update (copy.set e.1 e.2) rest).get? k = _
    by_cases hmem : k ∈ rest.map Prod.fst
    · exact ih hrest hmem
    · have hk : k = e.1 := by
        rw [List.map_cons, List.mem_cons] at h
        exact h.resolve_right hmem
      rw [get?_update_of_notMem hmem, hk, Dict.get?_set_self]
      exact (hvalues e List.mem_cons_self).symm

theorem Current.update (h : Current table log position copy) {values : List (κ × α)}
    (hvalues : ∀ e ∈ values, table.get? e.1 = some e.2)
    (hall : ∀ k ∈ log.drop position, k ∈ values.map Prod.fst) :
    Current table log log.length (update copy values) := by
  apply current_end
  intro k
  by_cases hmem : k ∈ values.map Prod.fst
  · exact get?_update_of_mem hvalues hmem
  · rw [get?_update_of_notMem hmem]
    exact h.2 k fun hk => hmem (hall k hk)

end Raes.ChangeFeed
