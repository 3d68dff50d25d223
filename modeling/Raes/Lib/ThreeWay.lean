import Raes.Lib.Dict
import Raes.Lib.SortBy
import Raes.Lib.ExceptList

/-!
# Three-way merge of dictionaries

A base dictionary has been changed in two places: `current` holds what is
committed since, and `incoming` a result computed from the base.  The merge
takes from the result the keys at which it differs from the base, and refuses
when one of them has been changed in the committed dictionary as well.

What counts as a difference is decided by a test `eq` on values, of which
nothing is assumed here.  The result of a merge is described slot by slot
(`getD_merge`), and everything else follows from that description.
-/

namespace Raes.ThreeWay

variable {κ α ε : Type} [LinearOrder κ]

section Slots

variable (eq : α → α → Bool)

/-- Two slots of one key compare equal: both empty, or both filled with equal values. -/
def slotEq : Option α → Option α → Bool
  | none, none => true
  | some a, some b => eq a b
  | _, _ => false

/-- A key under which the incoming dictionary does not compare equal to the base. -/
def Changed (base incoming : Dict κ α) (k : κ) : Prop :=
  slotEq eq (base.get? k) (incoming.get? k) = false

instance (base incoming : Dict κ α) : DecidablePred (Changed eq base incoming) :=
  fun k => inferInstanceAs (Decidable (slotEq eq (base.get? k) (incoming.get? k) = false))

def changedKeys (base incoming : Dict κ α) : List κ :=
  sortedSet ((base.keys ++ incoming.keys).filter fun k => Changed eq base incoming k)

theorem mem_changedKeys {base incoming : Dict κ α} {k : κ} :
    k ∈ changedKeys eq base incoming ↔ Changed eq base incoming k := by
  unfold changedKeys
  rw [mem_sortedSet, List.mem_filter]
  constructor
  · intro h
    simpa using h.2
  · intro h
    refine ⟨?_, by simpa using h⟩
    rw [List.mem_append]
    -- A key of neither dictionary has two empty slots, which compare equal.
    by_contra hmem
    rw [not_or, ← Dict.get?_eq_none_iff, ← Dict.get?_eq_none_iff] at hmem
    unfold Changed at h
    rw [hmem.1, hmem.2] at h
    cases h

/-- Give a key the slot that it has in the incoming dictionary. -/
def take (incoming merged : Dict κ α) (k : κ) : Dict κ α :=
  match incoming.get? k with
  | none => merged.erase k
  | some v => merged.set k v

theorem get?_take (incoming merged : Dict κ α) (k x : κ) :
    (take incoming merged k).get? x = if x = k then incoming.get? k else merged.get? x := by
  unfold take
  cases h : incoming.get? k with
  | none => exact Dict.get?_erase merged k x
  | some v => exact Dict.get?_set merged k v x

theorem get?_foldl_take (incoming : Dict κ α) (keys : List κ) (merged : Dict κ α) (x : κ) :
    (keys.foldl (take incoming) merged).get? x =
      if x ∈ keys then incoming.get? x else merged.get? x := by
  induction keys generalizing merged with
  | nil => simp
  | cons k rest ih =>
    rw [List.foldl_cons, ih, get?_take]
    by_cases hrest : x ∈ rest
    · simp [hrest]
    · by_cases hk : x = k
      · subst hk
        simp
      · simp [hrest, hk]

/-- Take every changed key of the incoming dictionary, unless the committed
dictionary has left the base at one of them. -/
def merge (conflict : ε) (base current incoming : Dict κ α) : Except ε (Dict κ α) :=
  (changedKeys eq base incoming).foldlM
    (fun merged k =>
      if slotEq eq (current.get? k) (base.get? k) then .ok (take incoming merged k)
      else .error conflict)
    current

end Slots

variable {eq : α → α → Bool} {conflict : ε} {base current incoming merged : Dict κ α}

/-- A loop that takes keys under a condition succeeds when the condition holds of all. -/
theorem foldlM_take_eq_ok_iff (p : κ → Bool) (keys : List κ) (start : Dict κ α) :
    keys.foldlM (fun merged k => if p k then Except.ok (take incoming merged k)
        else Except.error conflict) start = Except.ok merged ↔
      (∀ k ∈ keys, p k = true) ∧ merged = keys.foldl (take incoming) start := by
  induction keys generalizing start with
  | nil =>
    rw [List.foldlM_nil]
    constructor
    · intro h
      exact ⟨by simp, (Except.ok.inj h).symm⟩
    · rintro ⟨-, rfl⟩
      rfl
  | cons k rest ih =>
    rw [List.foldlM_cons, List.foldl_cons, List.forall_mem_cons]
    by_cases hp : p k = true
    · rw [if_pos hp]
      exact (ih _).trans (by simp [hp])
    · rw [if_neg hp]
      simp [hp, bind, Except.bind]

/-- A merge succeeds exactly when the committed dictionary still has the base
slot at every changed key. -/
theorem merge_eq_ok_iff :
    merge eq conflict base current incoming = .ok merged ↔
      (∀ k, Changed eq base incoming k → slotEq eq (current.get? k) (base.get? k) = true) ∧
        merged = (changedKeys eq base incoming).foldl (take incoming) current := by
  unfold merge
  rw [foldlM_take_eq_ok_iff fun k => slotEq eq (current.get? k) (base.get? k)]
  simp only [mem_changedKeys]

/-- The slots of a merge: the incoming slot where the result changed the base,
the committed slot elsewhere. -/
theorem get?_merge (h : merge eq conflict base current incoming = .ok merged) (k : κ) :
    merged.get? k =
      if Changed eq base incoming k then incoming.get? k else current.get? k := by
  rw [(merge_eq_ok_iff.mp h).2, get?_foldl_take]
  simp only [mem_changedKeys]

/-- A merge fails exactly at a changed key where the committed dictionary has
left the base. -/
theorem merge_eq_error_iff (e : ε) :
    merge eq conflict base current incoming = .error e ↔
      e = conflict ∧ ∃ k, Changed eq base incoming k ∧
        slotEq eq (current.get? k) (base.get? k) = false := by
  constructor
  · intro h
    unfold merge at h
    obtain ⟨before, k, after, state, hkeys, -, herror⟩ :=
      foldlM_eq_error_iff.mp h
    have hchanged : Changed eq base incoming k :=
      (mem_changedKeys eq).mp (by rw [hkeys]; simp)
    split at herror
    · cases herror
    · rename_i hmoved
      exact ⟨(Except.error.inj herror).symm, k, hchanged, by simpa using hmoved⟩
  · rintro ⟨rfl, k, hchanged, hmoved⟩
    cases h : merge eq e base current incoming with
    | ok merged =>
      have hkept := (merge_eq_ok_iff.mp h).1 k hchanged
      rw [hmoved] at hkept
      cases hkept
    | error e' =>
      unfold merge at h
      obtain ⟨before, k', after, state, -, -, herror⟩ :=
        foldlM_eq_error_iff.mp h
      split at herror
      · cases herror
      · exact congrArg Except.error (Except.error.inj herror).symm

end Raes.ThreeWay
