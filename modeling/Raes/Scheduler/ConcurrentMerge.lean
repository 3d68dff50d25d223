import Raes.Scheduler.ConcurrentState

/-!
# What a concurrent merge keeps

A slot of a snapshot is one key of a mapping field or one value field.  The
merge is described slot by slot: it takes the slot of the result where Python
compares it unequal to the base, and keeps the committed slot elsewhere
(`read_stage`).  So results that differ from the base at different slots
commute, results that differ at a common slot conflict, and a run of commits
leaves what a serial execution of the committed results leaves.

Python's comparison is coarser than equality of JSON values.  A result that
replaces `1` by `true` has changed its slot and is not seen to have changed it.
The merge keeps every change exactly when no result does that (`Faithful`).
-/

namespace Raes.Scheduler

open Json (Value)
open ThreeWay (slotEq)

/-! ## Slots -/

/-- A place of a snapshot that a participant may change. -/
inductive Slot where
  | entry (field : MappingField) (key : String)
  | value (field : ValueField)
  deriving DecidableEq, Repr

def RuntimeSnapshot.read (s : RuntimeSnapshot) : Slot → Option Value
  | .entry field key => (s.mapping field).get? key
  | .value field => some (s.value field)

variable (base incoming : RuntimeSnapshot)

/-- Python compares the slot of the result unequal to the slot of the base. -/
def SeenChanged (slot : Slot) : Prop :=
  slotEq Value.eq (base.read slot) (incoming.read slot) = false

instance (base incoming : RuntimeSnapshot) : DecidablePred (SeenChanged base incoming) :=
  fun slot => inferInstanceAs
    (Decidable (slotEq Value.eq (base.read slot) (incoming.read slot) = false))

def Changed (slot : Slot) : Prop :=
  slotEq Value.same (base.read slot) (incoming.read slot) = false

instance (base incoming : RuntimeSnapshot) : DecidablePred (Changed base incoming) :=
  fun slot => inferInstanceAs
    (Decidable (slotEq Value.same (base.read slot) (incoming.read slot) = false))

/-- No value of the result equals the value of the base under the same key to
Python and is another JSON value. -/
def Faithful (base incoming : RuntimeSnapshot) : Prop :=
  ∀ slot old new, base.read slot = some old → incoming.read slot = some new →
    old.eq new = true → old.same new = true

theorem slotEq_self (a : Option Value) : slotEq Value.eq a a = true := by
  cases a <;> simp [slotEq]

theorem slotEq_comm (a b : Option Value) : slotEq Value.eq a b = slotEq Value.eq b a := by
  cases a <;> cases b <;> simp [slotEq, Value.eq_comm]

theorem slotSame_self (a : Option Value) : slotEq Value.same a a = true := by
  cases a <;> simp [slotEq]

theorem SeenChanged.changed {base incoming : RuntimeSnapshot} {slot : Slot}
    (h : SeenChanged base incoming slot) : Changed base incoming slot := by
  unfold SeenChanged at h
  unfold Changed
  cases ha : base.read slot with
  | none => cases hb : incoming.read slot <;> simp_all [slotEq]
  | some a =>
    cases hb : incoming.read slot with
    | none => rfl
    | some b =>
      rw [ha, hb] at h
      show a.same b = false
      by_contra hsame
      have heq := Value.eq_of_same a b (by simpa using hsame)
      rw [slotEq, heq] at h
      cases h

theorem faithful_iff :
    Faithful base incoming ↔ ∀ slot, Changed base incoming slot → SeenChanged base incoming slot := by
  unfold Faithful Changed SeenChanged
  refine forall_congr' fun slot => ?_
  cases base.read slot with
  | none => cases incoming.read slot <;> simp [slotEq]
  | some a =>
    cases incoming.read slot with
    | none => simp [slotEq]
    | some b =>
      constructor
      · intro h hchanged
        by_contra heq
        rw [slotEq, h a b rfl rfl (by simpa [slotEq] using heq)] at hchanged
        cases hchanged
      · rintro h x y hx hy heq
        obtain rfl := Option.some.inj hx
        obtain rfl := Option.some.inj hy
        by_contra hsame
        have hchanged : a.eq b = false := h (by simpa [slotEq] using hsame)
        rw [heq] at hchanged
        cases hchanged

theorem Faithful.changed_iff {base incoming : RuntimeSnapshot} (h : Faithful base incoming)
    (slot : Slot) : Changed base incoming slot ↔ SeenChanged base incoming slot :=
  ⟨(faithful_iff base incoming).mp h slot, SeenChanged.changed⟩

/-! ## The fields of a staged snapshot -/

theorem sameMapping_iff {incoming base : Dict String Value} :
    sameMapping incoming base = true ↔
      ∀ k, slotEq Value.eq (base.get? k) (incoming.get? k) = true := by
  have hlookup : ∀ k, (base.entries.map fun e => (e.1, e.2.json)).lookup k =
      (base.get? k).map Value.json := fun k => lookup_map_snd (fun _ v => v.json) k base.entries
  have hkeys : ∀ d : Dict String Value,
      (d.entries.map fun e => (e.1, e.2.json)).map Prod.fst = d.keys := by
    intro d
    rw [List.map_map]
    rfl
  unfold sameMapping
  rw [Json.pyEq_obj]
  constructor
  · rintro ⟨hlength, hfields⟩ k
    cases hin : incoming.get? k with
    | some v =>
      have hmem := Dict.get?_eq_some_iff.mp hin
      obtain ⟨y, hy, heq⟩ := hfields (k, v.json) (List.mem_map.mpr ⟨_, hmem, rfl⟩)
      obtain ⟨w, hw, rfl⟩ := Option.map_eq_some_iff.mp ((hlookup k).symm.trans hy)
      rw [hw]
      exact Value.eq_symm v w heq
    | none =>
      cases hbase : base.get? k with
      | none => rfl
      | some w =>
        -- As many keys on both sides, so the base has no key of its own.
        have hsub : ∀ f ∈ incoming.entries.map fun e => (e.1, e.2.json),
            f.1 ∈ (base.entries.map fun e => (e.1, e.2.json)).map Prod.fst := by
          intro f hf
          obtain ⟨y, hy, -⟩ := hfields f hf
          exact Json.mem_keys_of_lookup hy
        have hall := Json.keys_subset_of_length (by rw [hkeys]; exact incoming.keys_nodup)
          hlength hsub k
        rw [hkeys, hkeys] at hall
        have hk := hall (Dict.mem_keys_iff.mpr ⟨w, hbase⟩)
        exact absurd hk (Dict.get?_eq_none_iff.mp hin)
  · intro h
    have hmem : ∀ k, k ∈ incoming.keys ↔ k ∈ base.keys := by
      intro k
      have hk := h k
      rw [Dict.mem_keys_iff, Dict.mem_keys_iff]
      cases hin : incoming.get? k <;> cases hbase : base.get? k <;> simp_all [slotEq]
    refine ⟨?_, ?_⟩
    · have hperm := (List.perm_ext_iff_of_nodup incoming.keys_nodup base.keys_nodup).mpr hmem
      simpa [Dict.keys] using hperm.length_eq
    · intro f hf
      obtain ⟨⟨k, v⟩, hv, rfl⟩ := List.mem_map.mp hf
      have hin := Dict.get?_eq_some_iff.mpr hv
      obtain ⟨w, hw⟩ := Dict.mem_keys_iff.mp ((hmem k).mp
        (Dict.mem_keys_iff.mpr ⟨v, hin⟩))
      have hk := h k
      rw [hin, hw] at hk
      exact ⟨w.json, by rw [hlookup, hw]; rfl, Value.eq_symm w v hk⟩

def Moved (base current : RuntimeSnapshot) (slot : Slot) : Prop :=
  slotEq Value.eq (current.read slot) (base.read slot) = false

def Slot.fieldName : Slot → String
  | .entry field _ => field.name
  | .value field => field.name

def ConflictAt (base current incoming : RuntimeSnapshot) (slot : Slot) : Prop :=
  SeenChanged base incoming slot ∧ Moved base current slot

variable {rules : SnapshotRules} {base current incoming staged : RuntimeSnapshot}

section Fields

variable {mapping : Dict String Value} {value : Value} {field : MappingField}
  {valueField : ValueField} {e : PyError}

theorem not_seenChanged_of_sameMapping
    (h : sameMapping (incoming.mapping field) (base.mapping field) = true) (k : String) :
    ¬ SeenChanged base incoming (.entry field k) := by
  have hk : slotEq Value.eq (base.read (.entry field k)) (incoming.read (.entry field k)) = true :=
    sameMapping_iff.mp h k
  unfold SeenChanged
  rw [hk]
  simp

theorem stageMapping_ok (h : stageMapping base current incoming field = .ok mapping)
    (k : String) :
    ¬ ConflictAt base current incoming (.entry field k) ∧ mapping.get? k =
      if SeenChanged base incoming (.entry field k) then incoming.read (.entry field k)
      else current.read (.entry field k) := by
  unfold stageMapping at h
  split at h
  · rename_i hsame
    have hseen := not_seenChanged_of_sameMapping hsame k
    obtain rfl := Except.ok.inj h
    exact ⟨fun hconflict => hseen hconflict.1, (if_neg hseen).symm⟩
  · refine ⟨fun hconflict => ?_, ThreeWay.get?_merge h k⟩
    have hkept : slotEq Value.eq (current.read (.entry field k)) (base.read (.entry field k)) = true :=
      (ThreeWay.merge_eq_ok_iff.mp h).1 k hconflict.1
    have hmoved := hconflict.2
    unfold Moved at hmoved
    rw [hkept] at hmoved
    cases hmoved

theorem stageMapping_error (h : stageMapping base current incoming field = .error e) :
    ∃ slot, e = commitConflict slot.fieldName ∧ ConflictAt base current incoming slot := by
  unfold stageMapping at h
  split at h
  · cases h
  · obtain ⟨rfl, k, hchanged, hmoved⟩ := (ThreeWay.merge_eq_error_iff e).mp h
    exact ⟨.entry field k, rfl, hchanged, hmoved⟩

theorem seenChanged_value_iff : SeenChanged base incoming (.value valueField) ↔
    (incoming.value valueField).eq (base.value valueField) = false := by
  show (base.value valueField).eq (incoming.value valueField) = false ↔ _
  rw [Value.eq_comm]

theorem stageValue_ok (h : stageValue base current incoming valueField = .ok value) :
    ¬ ConflictAt base current incoming (.value valueField) ∧ some value =
      if SeenChanged base incoming (.value valueField) then incoming.read (.value valueField)
      else current.read (.value valueField) := by
  simp only [ConflictAt, seenChanged_value_iff]
  unfold stageValue mergeValueRevisionChecked at h
  by_cases hsame : (incoming.value valueField).eq (base.value valueField) = true
  · rw [if_pos hsame] at h
    obtain rfl := Except.ok.inj h
    simp [hsame, RuntimeSnapshot.read]
  · rw [if_neg hsame, if_neg hsame] at h
    split at h
    · rename_i hkept
      obtain rfl := Except.ok.inj h
      have hmoved : ¬ Moved base current (.value valueField) := by
        show ¬ (current.value valueField).eq (base.value valueField) = false
        rw [hkept]
        simp
      simp [hsame, hmoved, RuntimeSnapshot.read]
    · cases h

theorem stageValue_error (h : stageValue base current incoming valueField = .error e) :
    ∃ slot, e = commitConflict slot.fieldName ∧ ConflictAt base current incoming slot := by
  unfold stageValue mergeValueRevisionChecked at h
  by_cases hsame : (incoming.value valueField).eq (base.value valueField) = true
  · rw [if_pos hsame] at h
    cases h
  · rw [if_neg hsame, if_neg hsame] at h
    split at h
    · cases h
    · rename_i hmoved
      refine ⟨.value valueField, (Except.error.inj h).symm, ?_, ?_⟩
      · exact seenChanged_value_iff.mpr (by simpa using hsame)
      · show (current.value valueField).eq (base.value valueField) = false
        simpa using hmoved

end Fields

/-! ## The staged snapshot -/

section

variable (h : stageConcurrentActionSnapshot rules base current incoming = .ok staged)
include h

theorem stage_eq_ok : staged.guarded = current.guarded ∧
      (∀ field, stageMapping base current incoming field = .ok (staged.mapping field)) ∧
      ∀ field, stageValue base current incoming field = .ok (staged.value field) := by
  unfold stageConcurrentActionSnapshot at h
  rw [seq_eq_ok_iff, bind_eq_ok_iff] at h
  obtain ⟨-, mapping, hmapping, h⟩ := h
  rw [bind_eq_ok_iff] at h
  obtain ⟨value, hvalue, h⟩ := h
  rw [seq_eq_ok_iff] at h
  obtain rfl := Except.ok.inj h.2
  have hmapping := foldlM_update_eq_ok_iff.mp hmapping
  have hvalue := foldlM_update_eq_ok_iff.mp hvalue
  exact ⟨rfl, fun field => hmapping.1 field (mem_mappingFields field),
    fun field => hvalue.1 field (mem_valueFields field)⟩

theorem not_conflictAt (slot : Slot) : ¬ ConflictAt base current incoming slot := by
  obtain ⟨-, hmapping, hvalue⟩ := stage_eq_ok h
  cases slot with
  | entry field k => exact (stageMapping_ok (hmapping field) k).1
  | value field => exact (stageValue_ok (hvalue field)).1

theorem read_stage (slot : Slot) : staged.read slot =
      if SeenChanged base incoming slot then incoming.read slot else current.read slot := by
  obtain ⟨-, hmapping, hvalue⟩ := stage_eq_ok h
  cases slot with
  | entry field k => exact (stageMapping_ok (hmapping field) k).2
  | value field => exact (stageValue_ok (hvalue field)).2

/-! ## Accepted snapshots -/

end

def RuntimeSnapshot.bare (s : RuntimeSnapshot) : ProtectedField → Value :=
  (withConcurrentSchedulerUpdates s (some emptyTable) (some emptyTable)).guarded

@[simp] theorem bare_withConcurrentSchedulerUpdates (s : RuntimeSnapshot)
    (states services : Option Value) :
    (withConcurrentSchedulerUpdates s states services).bare = s.bare := by
  funext field
  cases field <;> rfl

theorem bare_eq_of_guarded {s t : RuntimeSnapshot} (h : s.guarded = t.guarded) :
    s.bare = t.bare := by
  unfold RuntimeSnapshot.bare withConcurrentSchedulerUpdates
  rw [h]

@[simp] theorem read_withConcurrentSchedulerUpdates (s : RuntimeSnapshot)
    (states services : Option Value) (slot : Slot) :
    (withConcurrentSchedulerUpdates s states services).read slot = s.read slot := by
  cases slot <;> rfl

theorem validateBackendState_eq_ok_iff (rules : SnapshotRules) (s : RuntimeSnapshot) :
    validateBackendState rules s = .ok () ↔
      rules.protectedState s.bare = .ok () ∧
      (∀ field k, k ∈ rules.reportedKeys s.bare field ∨ k ∈ (s.mapping field).keys →
        rules.slot s.bare field k (s.read (.entry field k)) = .ok ()) ∧
      ∀ field, rules.value field (s.value field) = .ok () := by
  unfold validateBackendState RuntimeSnapshot.withEntries
  simp only [seq_eq_ok_iff, forM_eq_ok_iff, mem_mappingFields, mem_valueFields,
    true_implies, List.mem_append]
  rfl

@[simp] theorem validateBackendState_withConcurrentSchedulerUpdates (rules : SnapshotRules)
    (s : RuntimeSnapshot) (states services : Option Value) :
    validateBackendState rules (withConcurrentSchedulerUpdates s states services) =
      validateBackendState rules s := by
  have h : withConcurrentSchedulerUpdates (withConcurrentSchedulerUpdates s states services)
      (some emptyTable) (some emptyTable) =
      withConcurrentSchedulerUpdates s (some emptyTable) (some emptyTable) := by
    unfold withConcurrentSchedulerUpdates
    congr 1
    funext field
    cases field <;> rfl
  unfold validateBackendState
  rw [h]

theorem validateBackendState_of_slots {a b s : RuntimeSnapshot}
    (ha : validateBackendState rules a = .ok ()) (hb : validateBackendState rules b = .ok ())
    (hbareA : a.bare = s.bare) (hbareB : b.bare = s.bare)
    (hread : ∀ slot, s.read slot = a.read slot ∨ s.read slot = b.read slot) :
    validateBackendState rules s = .ok () := by
  rw [validateBackendState_eq_ok_iff] at ha hb ⊢
  rw [hbareA] at ha
  rw [hbareB] at hb
  refine ⟨ha.1, fun field k hk => ?_, fun field => ?_⟩
  · -- A key of the mixed snapshot is a key of the snapshot that its slot comes from.
    have hkey : ∀ t : RuntimeSnapshot, s.read (.entry field k) = t.read (.entry field k) →
        k ∈ rules.reportedKeys s.bare field ∨ k ∈ (t.mapping field).keys := by
      intro t ht
      rcases hk with hreported | hmem
      · exact Or.inl hreported
      · obtain ⟨v, hv⟩ := Dict.mem_keys_iff.mp hmem
        exact Or.inr (Dict.mem_keys_iff.mpr ⟨v, ht.symm.trans hv⟩)
    rcases hread (.entry field k) with h | h
    · rw [h]
      exact ha.2.1 field k (hkey a h)
    · rw [h]
      exact hb.2.1 field k (hkey b h)
  · rcases hread (.value field) with h | h
    · rw [Option.some.inj h]
      exact ha.2.2 field
    · rw [Option.some.inj h]
      exact hb.2.2 field

/-- A result that a participant computed from the base: it carries the
protected fields of the base, and its own fields are accepted beside them. -/
structure ResultOf (rules : SnapshotRules) (base incoming : RuntimeSnapshot) : Prop where
  unchanged : requireProtectedFieldsUnchanged base incoming = .ok ()
  valid : validateBackendState rules { incoming with guarded := base.guarded } = .ok ()

/-- A snapshot that commits have led to: accepted, with the protected fields of
the base apart from the scheduler's tables. -/
structure Committed (rules : SnapshotRules) (base current : RuntimeSnapshot) : Prop where
  valid : validateBackendState rules current = .ok ()
  bare : current.bare = base.bare

theorem Committed.withConcurrentSchedulerUpdates (h : Committed rules base current)
    (states services : Option Value) :
    Committed rules base (withConcurrentSchedulerUpdates current states services) :=
  ⟨by simpa using h.valid, by simpa using h.bare⟩

theorem stage_valid (h : stageConcurrentActionSnapshot rules base current incoming = .ok staged) :
    validateBackendState rules staged = .ok () := by
  unfold stageConcurrentActionSnapshot at h
  rw [seq_eq_ok_iff, bind_eq_ok_iff] at h
  obtain ⟨-, mapping, -, h⟩ := h
  rw [bind_eq_ok_iff] at h
  obtain ⟨value, -, h⟩ := h
  rw [seq_eq_ok_iff] at h
  obtain rfl := Except.ok.inj h.2
  exact h.1

theorem Committed.stage (h : Committed rules base current)
    (hstage : stageConcurrentActionSnapshot rules base current incoming = .ok staged) :
    Committed rules base staged :=
  ⟨stage_valid hstage, (bare_eq_of_guarded (stage_eq_ok hstage).1).trans h.bare⟩

theorem exists_fields_of_no_conflict
    (hfree : ∀ slot, ¬ ConflictAt base current incoming slot) :
    (∃ mapping, mappingFields.foldlM
      (fun mapping field => do
        return Function.update mapping field (← stageMapping base current incoming field))
      current.mapping = .ok mapping) ∧
    ∃ value, valueFields.foldlM
      (fun value field => do
        return Function.update value field (← stageValue base current incoming field))
      current.value = .ok value := by
  constructor
  · cases h : mappingFields.foldlM
      (fun mapping field => do
        return Function.update mapping field (← stageMapping base current incoming field))
      current.mapping with
    | ok mapping => exact ⟨mapping, rfl⟩
    | error e =>
      obtain ⟨field, -, herror⟩ := exists_of_foldlM_update_eq_error h
      obtain ⟨slot, -, hconflict⟩ := stageMapping_error herror
      exact absurd hconflict (hfree slot)
  · cases h : valueFields.foldlM
      (fun value field => do
        return Function.update value field (← stageValue base current incoming field))
      current.value with
    | ok value => exact ⟨value, rfl⟩
    | error e =>
      obtain ⟨field, -, herror⟩ := exists_of_foldlM_update_eq_error h
      obtain ⟨slot, -, hconflict⟩ := stageValue_error herror
      exact absurd hconflict (hfree slot)

theorem exists_stage (hresult : ResultOf rules base incoming)
    (hcurrent : Committed rules base current)
    (hfree : ∀ slot, ¬ ConflictAt base current incoming slot) :
    ∃ staged, stageConcurrentActionSnapshot rules base current incoming = .ok staged := by
  obtain ⟨⟨mapping, hmapping⟩, value, hvalue⟩ := exists_fields_of_no_conflict hfree
  have hm := foldlM_update_eq_ok_iff.mp hmapping
  have hv := foldlM_update_eq_ok_iff.mp hvalue
  have hread : ∀ slot, ({ current with mapping := mapping, value := value } : RuntimeSnapshot).read slot =
      if SeenChanged base incoming slot then incoming.read slot else current.read slot := by
    intro slot
    cases slot with
    | entry field k => exact (stageMapping_ok (hm.1 field (mem_mappingFields field)) k).2
    | value field => exact (stageValue_ok (hv.1 field (mem_valueFields field))).2
  have hvalid : validateBackendState rules
      { current with mapping := mapping, value := value } = .ok () := by
    refine validateBackendState_of_slots hresult.valid hcurrent.valid ?_ rfl fun slot => ?_
    · exact (bare_eq_of_guarded rfl).trans hcurrent.bare.symm
    · rw [hread]
      split
      · exact Or.inl (by cases slot <;> rfl)
      · exact Or.inr rfl
  refine ⟨{ current with mapping := mapping, value := value }, ?_⟩
  unfold stageConcurrentActionSnapshot
  rw [seq_eq_ok_iff, bind_eq_ok_iff]
  refine ⟨hresult.unchanged, mapping, hmapping, ?_⟩
  rw [bind_eq_ok_iff]
  refine ⟨value, hvalue, ?_⟩
  rw [seq_eq_ok_iff]
  exact ⟨hvalid, rfl⟩

theorem stage_conflict (hresult : ResultOf rules base incoming) {slot : Slot}
    (hconflict : ConflictAt base current incoming slot) :
    ∃ slot', ConflictAt base current incoming slot' ∧
      stageConcurrentActionSnapshot rules base current incoming =
        .error (commitConflict slot'.fieldName) := by
  unfold stageConcurrentActionSnapshot
  rw [hresult.unchanged]
  cases hmapping : mappingFields.foldlM
      (fun mapping field => do
        return Function.update mapping field (← stageMapping base current incoming field))
      current.mapping with
  | error e =>
    obtain ⟨field, -, herror⟩ := exists_of_foldlM_update_eq_error hmapping
    obtain ⟨slot', rfl, hslot'⟩ := stageMapping_error herror
    exact ⟨slot', hslot', rfl⟩
  | ok mapping =>
    cases hvalue : valueFields.foldlM
        (fun value field => do
          return Function.update value field (← stageValue base current incoming field))
        current.value with
    | error e =>
      obtain ⟨field, -, herror⟩ := exists_of_foldlM_update_eq_error hvalue
      obtain ⟨slot', rfl, hslot'⟩ := stageValue_error herror
      exact ⟨slot', hslot', rfl⟩
    | ok value =>
      -- The conflict would have stopped the loop over its own kind of field.
      have hm := foldlM_update_eq_ok_iff.mp hmapping
      have hv := foldlM_update_eq_ok_iff.mp hvalue
      cases slot with
      | entry field k =>
        exact absurd hconflict (stageMapping_ok (hm.1 field (mem_mappingFields field)) k).1
      | value field =>
        exact absurd hconflict (stageValue_ok (hv.1 field (mem_valueFields field))).1

end Raes.Scheduler
