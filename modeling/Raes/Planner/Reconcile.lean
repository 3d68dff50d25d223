import Mathlib.Order.FixedPoints
import Mathlib.Order.CompletePartialOrder
import Raes.Planner.Dependencies

/-!
# Reconciliation of resources against a snapshot

`reconcile_resource_actions` of `raes_processor/semantics/planner.py`.  The
actions are the exact solution of the update rule: a stored resource is updated
when it differs from the desired one or refreshes on a created or updated one,
and the updated set is the least one closed under the rule.
-/

namespace Raes.Planner

open Contracts

inductive ReconciliationAction where
  | create
  | update
  | delete
  | unchanged
  deriving DecidableEq, Repr

section Reconcile

variable {R S : Type} (entryMatches : S → R → Bool)

def firstAction (existing : Option S) (resource : R) : ReconciliationAction :=
  match existing with
  | none => .create
  | some entry => if entryMatches entry resource then .unchanged else .update

variable (resources : Dict String R)

def markDeleted (state : Dict String ReconciliationAction × Dict String S) (stored : String × S) :
    Dict String ReconciliationAction × Dict String S :=
  if resources.contains stored.1 then state
  else (state.1.set stored.1 .delete, state.2.set stored.1 stored.2)

variable (actions : Dict String ReconciliationAction)

def markRefreshed (address : String) : Dict String ReconciliationAction :=
  if actions.get? address = some .unchanged then actions.set address .update else actions

/-- The actions before any refresh, with the entries to delete. -/
def firstActions (snapshot : Dict String S) : Dict String ReconciliationAction × Dict String S :=
  let actions := resources.entries.foldl (fun actions desired =>
    actions.set desired.1 (firstAction entryMatches (snapshot.get? desired.1) desired.2))
    Dict.empty
  snapshot.entries.foldl (markDeleted resources) (actions, Dict.empty)

def changedNodes (actions : Dict String ReconciliationAction) : List String :=
  (actions.entries.filter fun e => e.2 = .create ∨ e.2 = .update).map Prod.fst

variable (snapshot : Dict String S)

def reconcileResourceActions (resourceDependencies : R → DependencySemantics)
    (entryMatches : S → R → Bool) :
    Except PyError (Dict String ReconciliationAction × Dict String S) := do
  let (actions, deleted) := firstActions entryMatches resources snapshot
  let impacted ← refreshImpactedNodes
    (resources.mapValues fun _ resource => resourceDependencies resource) (changedNodes actions)
  return (impacted.foldl markRefreshed actions, deleted)

/-! ## The first actions -/

theorem get?_foldl_markDeleted (stored : List (String × S)) (hnd : (stored.map Prod.fst).Nodup)
    (state : Dict String ReconciliationAction × Dict String S) (a : String) :
    (stored.foldl (markDeleted resources) state).1.get? a =
        (if a ∈ stored.map Prod.fst ∧ a ∉ resources.keys then some .delete
          else state.1.get? a) ∧
      (stored.foldl (markDeleted resources) state).2.get? a =
        if a ∈ stored.map Prod.fst ∧ a ∉ resources.keys then stored.lookup a
          else state.2.get? a := by
  induction stored generalizing state with
  | nil => simp
  | cons e rest ih =>
    obtain ⟨address, entry⟩ := e
    rw [List.map_cons, List.nodup_cons] at hnd
    obtain ⟨ih₁, ih₂⟩ := ih hnd.2 (markDeleted resources state (address, entry))
    rw [List.foldl_cons, ih₁, ih₂]
    unfold markDeleted
    by_cases ha : a = address
    · subst ha
      have hrest : a ∉ rest.map Prod.fst := hnd.1
      by_cases hr : a ∈ resources.keys
      · have hc : resources.contains a = true := Dict.contains_iff.mpr hr
        simp [hc, hr]
      · have hc : resources.contains a = false := by
          rw [Bool.eq_false_iff, ne_eq, Dict.contains_iff]
          exact hr
        simp only [hc, hr, hrest, List.map_cons, List.mem_cons, true_or, false_and, if_false,
          not_false_eq_true, and_self, if_true, Dict.get?_set_self, List.lookup_cons_self,
          Bool.false_eq_true]
    · have hb : (a == address) = false := beq_eq_false_iff_ne.mpr ha
      have hget : ∀ {α : Type} (d : Dict String α) (v : α),
          (d.set address v).get? a = d.get? a := fun d v => Dict.get?_set_ne d v ha
      by_cases hc : resources.contains address = true
      · simp only [hc, if_true, List.map_cons, List.mem_cons, ha, false_or, List.lookup_cons, hb,
          and_self]
      · simp only [hc, Bool.false_eq_true, if_false, List.map_cons, List.mem_cons, ha, false_or,
          List.lookup_cons, hb, hget, and_self]

theorem get?_firstActions (a : String) : (firstActions entryMatches resources snapshot).1.get? a =
      match resources.get? a with
      | some resource => some (firstAction entryMatches (snapshot.get? a) resource)
      | none => if a ∈ snapshot.keys then some .delete else none := by
  unfold firstActions
  rw [(get?_foldl_markDeleted resources snapshot.entries snapshot.nodup _ a).1,
    Dict.get?_foldl_set (fun k r => firstAction entryMatches (snapshot.get? k) r)
      resources.entries Dict.empty resources.nodup a]
  show (if a ∈ snapshot.keys ∧ a ∉ resources.keys then _ else
    match resources.get? a with | some b => _ | none => _) = _
  cases h : resources.get? a with
  | none =>
    have hr : a ∉ resources.keys := Dict.get?_eq_none_iff.mp h
    simp only [hr, not_false_eq_true, and_true, Dict.get?_empty]
  | some resource =>
    have hr : a ∈ resources.keys := Dict.mem_keys_iff.mpr ⟨resource, h⟩
    simp only [hr, not_true_eq_false, and_false, if_false]

theorem get?_deletedEntries (a : String) : (firstActions entryMatches resources snapshot).2.get? a =
      if a ∈ resources.keys then none else snapshot.get? a := by
  unfold firstActions
  rw [(get?_foldl_markDeleted resources snapshot.entries snapshot.nodup _ a).2]
  show (if a ∈ snapshot.keys ∧ a ∉ resources.keys then snapshot.get? a else none) = _
  by_cases hr : a ∈ resources.keys
  · simp [hr]
  · by_cases hs : a ∈ snapshot.keys
    · simp [hr, hs]
    · simp [hr, hs, Dict.get?_eq_none_iff.mpr hs]

theorem mem_changedNodes (a : String) : a ∈ changedNodes actions ↔
      actions.get? a = some .create ∨ actions.get? a = some .update := by
  unfold changedNodes
  simp only [List.mem_map, List.mem_filter, decide_eq_true_eq, Dict.get?_eq_some_iff]
  constructor
  · intro h
    obtain ⟨⟨address, action⟩, ⟨hmem, haction⟩, rfl⟩ := h
    rcases haction with rfl | rfl
    · exact Or.inl hmem
    · exact Or.inr hmem
  · intro h
    rcases h with h | h
    · exact ⟨(a, .create), ⟨h, Or.inl rfl⟩, rfl⟩
    · exact ⟨(a, .update), ⟨h, Or.inr rfl⟩, rfl⟩

theorem changedNodes_nodup : (changedNodes actions).Nodup :=
  actions.nodup.sublist ((List.filter_sublist).map _)

theorem get?_foldl_markRefreshed (impacted : List String)
    (actions : Dict String ReconciliationAction) (a : String) :
    (impacted.foldl markRefreshed actions).get? a =
      if a ∈ impacted ∧ actions.get? a = some .unchanged then some .update
      else actions.get? a := by
  induction impacted generalizing actions with
  | nil => simp
  | cons address rest ih =>
    rw [List.foldl_cons, ih]
    unfold markRefreshed
    by_cases hu : actions.get? address = some .unchanged
    · rw [if_pos hu]
      by_cases ha : a = address
      · subst ha
        simp [hu]
      · simp [Dict.get?_set_ne _ _ ha, ha]
    · rw [if_neg hu]
      by_cases ha : a = address
      · subst ha
        simp [hu]
      · simp [ha]

section Rule

variable (resources : Dict String R) (snapshot : Dict String S)
variable (resourceDependencies : R → DependencySemantics) (entryMatches : S → R → Bool)

def Created (a : String) : Prop := a ∈ resources.keys ∧ a ∉ snapshot.keys

/-- Desired and present, with a stored form that does not match the desired one. -/
def Differs (a : String) : Prop :=
  ∃ resource entry, resources.get? a = some resource ∧ snapshot.get? a = some entry ∧
    entryMatches entry resource = false

def Refreshes (dependency dependent : String) : Prop :=
  ∃ resource, resources.get? dependent = some resource ∧
    dependency ∈ (resourceDependencies resource).refreshDependencies

def updateRound : Set String →o Set String where
  toFun U := {a | a ∈ resources.keys ∧ a ∈ snapshot.keys ∧
    (Differs resources snapshot entryMatches a ∨
      ∃ c, (Created resources snapshot c ∨ c ∈ U) ∧ Refreshes resources resourceDependencies c a)}
  monotone' := by
    intro U V hUV a ha
    obtain ⟨hdesired, hstored, hcause⟩ := ha
    refine ⟨hdesired, hstored, hcause.imp id ?_⟩
    intro h
    obtain ⟨c, hc, hedge⟩ := h
    exact ⟨c, hc.imp id fun hcU => hUV hcU, hedge⟩

/-- The resources that the changed ones reach along refresh dependencies. -/
def refreshed : Set String :=
  Worklist.reachable (Refreshes resources resourceDependencies)
    {a | Created resources snapshot a ∨ Differs resources snapshot entryMatches a}

theorem lfp_updateRound :
    OrderHom.lfp (updateRound resources snapshot resourceDependencies entryMatches) =
      {a | a ∈ resources.keys ∧ a ∈ snapshot.keys ∧
        a ∈ refreshed resources snapshot resourceDependencies entryMatches} := by
  have hleast := Worklist.isLeast_reachable (Refreshes resources resourceDependencies)
    {a | Created resources snapshot a ∨ Differs resources snapshot entryMatches a}
  apply le_antisymm
  · apply OrderHom.lfp_le
    intro a ha
    obtain ⟨hdesired, hstored, hcause⟩ := ha
    refine ⟨hdesired, hstored, ?_⟩
    rcases hcause with hdiffers | ⟨c, hc, hedge⟩
    · exact hleast.1.1 (Or.inr hdiffers)
    · rcases hc with hcreated | ⟨_, _, hreach⟩
      · exact hleast.1.2 c (hleast.1.1 (Or.inl hcreated)) a hedge
      · exact hleast.1.2 c hreach a hedge
  · apply OrderHom.le_lfp
    intro T hT a ha
    obtain ⟨hdesired, hstored, hreach⟩ := ha
    -- Along a refresh path every resource is created or already in `T`.
    have hcover : refreshed resources snapshot resourceDependencies entryMatches ⊆
        {b | Created resources snapshot b ∨ b ∈ T} := by
      apply hleast.2
      refine ⟨?_, ?_⟩
      · intro b hb
        rcases hb with hcreated | hdiffers
        · exact Or.inl hcreated
        · have ⟨resource, entry, hr, he, _⟩ := hdiffers
          exact Or.inr (hT ⟨Dict.mem_keys_iff.mpr ⟨resource, hr⟩,
            Dict.mem_keys_iff.mpr ⟨entry, he⟩, Or.inl hdiffers⟩)
      · intro b hb d hedge
        have ⟨resource, hr, _⟩ := hedge
        have hd : d ∈ resources.keys := Dict.mem_keys_iff.mpr ⟨resource, hr⟩
        by_cases hs : d ∈ snapshot.keys
        · exact Or.inr (hT ⟨hd, hs, Or.inr ⟨b, hb, hedge⟩⟩)
        · exact Or.inl ⟨hd, hs⟩
    rcases hcover hreach with hcreated | hmem
    · exact absurd hstored hcreated.2
    · exact hmem

end Rule

/-! ## The actions solve the rule -/

theorem mem_changedNodes_firstActions (resources : Dict String R) (snapshot : Dict String S)
    (entryMatches : S → R → Bool) (a : String) :
    a ∈ changedNodes (firstActions entryMatches resources snapshot).1 ↔
      Created resources snapshot a ∨ Differs resources snapshot entryMatches a := by
  rw [mem_changedNodes, get?_firstActions]
  unfold Created Differs
  cases hr : resources.get? a with
  | none =>
    have hdesired : a ∉ resources.keys := Dict.get?_eq_none_iff.mp hr
    by_cases hs : a ∈ snapshot.keys <;> simp [hdesired, hs]
  | some resource =>
    have hdesired : a ∈ resources.keys := Dict.mem_keys_iff.mpr ⟨resource, hr⟩
    cases hs : snapshot.get? a with
    | none =>
      have hstored : a ∉ snapshot.keys := Dict.get?_eq_none_iff.mp hs
      simp [firstAction, hdesired, hstored]
    | some entry =>
      have hstored : a ∈ snapshot.keys := Dict.mem_keys_iff.mpr ⟨entry, hs⟩
      cases hm : entryMatches entry resource <;> simp [firstAction, hdesired, hstored, hm]

/-- The actions of a reconciliation, address by address. -/
structure ExactActions (resources : Dict String R) (snapshot : Dict String S)
    (resourceDependencies : R → DependencySemantics) (entryMatches : S → R → Bool)
    (actions : Dict String ReconciliationAction) : Prop where
  create_iff : ∀ a, actions.get? a = some .create ↔ a ∈ resources.keys ∧ a ∉ snapshot.keys
  delete_iff : ∀ a, actions.get? a = some .delete ↔ a ∈ snapshot.keys ∧ a ∉ resources.keys
  update_iff : ∀ a, actions.get? a = some .update ↔
    a ∈ resources.keys ∧ a ∈ snapshot.keys ∧
      (Differs resources snapshot entryMatches a ∨
        ∃ c, (actions.get? c = some .create ∨ actions.get? c = some .update) ∧
          Relation.TransGen (Refreshes resources resourceDependencies) c a)
  unchanged_iff : ∀ a, actions.get? a = some .unchanged ↔
    a ∈ resources.keys ∧ a ∈ snapshot.keys ∧ actions.get? a ≠ some .update
  updated_least : {a | actions.get? a = some .update} =
    OrderHom.lfp (updateRound resources snapshot resourceDependencies entryMatches)

theorem get?_finalActions {resources : Dict String R} {snapshot : Dict String S}
    {resourceDependencies : R → DependencySemantics} {entryMatches : S → R → Bool}
    {impacted : List String}
    (himpacted : ∀ a, a ∈ impacted ↔
      a ∉ changedNodes (firstActions entryMatches resources snapshot).1 ∧
        a ∈ refreshed resources snapshot resourceDependencies entryMatches) (a : String) :
    (impacted.foldl markRefreshed (firstActions entryMatches resources snapshot).1).get? a =
      open Classical in
      if a ∈ resources.keys then
        if a ∈ snapshot.keys then
          if a ∈ refreshed resources snapshot resourceDependencies entryMatches then some .update
          else some .unchanged
        else some .create
      else if a ∈ snapshot.keys then some .delete else none := by
  classical
  have hstart : ∀ b, Created resources snapshot b ∨ Differs resources snapshot entryMatches b →
      b ∈ refreshed resources snapshot resourceDependencies entryMatches :=
    fun b hb => (Worklist.isLeast_reachable _ _).1.1 hb
  have hchanged := mem_changedNodes_firstActions resources snapshot entryMatches a
  have himpacted' : a ∈ impacted ↔
      ¬ (Created resources snapshot a ∨ Differs resources snapshot entryMatches a) ∧
        a ∈ refreshed resources snapshot resourceDependencies entryMatches := by
    rw [himpacted, hchanged]
  rw [get?_foldl_markRefreshed, get?_firstActions]
  simp only [himpacted']
  cases hr : resources.get? a with
  | none =>
    have hdesired : a ∉ resources.keys := Dict.get?_eq_none_iff.mp hr
    by_cases hs : a ∈ snapshot.keys <;> simp [hdesired, hs]
  | some resource =>
    have hdesired : a ∈ resources.keys := Dict.mem_keys_iff.mpr ⟨resource, hr⟩
    cases hs : snapshot.get? a with
    | none =>
      have hstored : a ∉ snapshot.keys := Dict.get?_eq_none_iff.mp hs
      simp [firstAction, hdesired, hstored]
    | some entry =>
      have hstored : a ∈ snapshot.keys := Dict.mem_keys_iff.mpr ⟨entry, hs⟩
      have hcreated : ¬ Created resources snapshot a := fun h => h.2 hstored
      cases hm : entryMatches entry resource with
      | false =>
        have hdiffers : Differs resources snapshot entryMatches a := ⟨resource, entry, hr, hs, hm⟩
        simp [firstAction, hdesired, hstored, hm, hstart a (Or.inr hdiffers)]
      | true =>
        have hdiffers : ¬ Differs resources snapshot entryMatches a := by
          intro h
          obtain ⟨resource', entry', hr', hs', hm'⟩ := h
          rw [hr] at hr'
          rw [hs] at hs'
          cases hr'
          cases hs'
          rw [hm] at hm'
          cases hm'
        simp [firstAction, hdesired, hstored, hm, hcreated, hdiffers]

theorem exactActions_of_get? {resources : Dict String R} {snapshot : Dict String S}
    {resourceDependencies : R → DependencySemantics} {entryMatches : S → R → Bool}
    {actions : Dict String ReconciliationAction}
    (hget : ∀ a, actions.get? a =
      open Classical in
      if a ∈ resources.keys then
        if a ∈ snapshot.keys then
          if a ∈ refreshed resources snapshot resourceDependencies entryMatches then some .update
          else some .unchanged
        else some .create
      else if a ∈ snapshot.keys then some .delete else none) :
    ExactActions resources snapshot resourceDependencies entryMatches actions := by
  classical
  have hcreate : ∀ a, actions.get? a = some .create ↔ Created resources snapshot a := by
    intro a
    rw [hget a]
    unfold Created
    split_ifs <;> simp [*]
  have hupdate : ∀ a, actions.get? a = some .update ↔ a ∈ resources.keys ∧ a ∈ snapshot.keys ∧
      a ∈ refreshed resources snapshot resourceDependencies entryMatches := by
    intro a
    rw [hget a]
    split_ifs <;> simp [*]
  have hreach : ∀ c, actions.get? c = some .create ∨ actions.get? c = some .update →
      c ∈ refreshed resources snapshot resourceDependencies entryMatches := by
    intro c hc
    rcases hc with hc | hc
    · exact (Worklist.isLeast_reachable _ _).1.1 (Or.inl ((hcreate c).mp hc))
    · exact ((hupdate c).mp hc).2.2
  refine ⟨hcreate, ?_, ?_, ?_, ?_⟩
  · intro a
    rw [hget a]
    split_ifs <;> simp [*]
  · intro a
    rw [hupdate a]
    refine and_congr_right fun hdesired => and_congr_right fun hstored => ?_
    constructor
    · intro h
      obtain ⟨c, hc, hpath⟩ := h
      rcases Relation.reflTransGen_iff_eq_or_transGen.mp hpath with rfl | hpath
      · exact Or.inl (hc.resolve_left fun hcreated => hcreated.2 hstored)
      · refine Or.inr ⟨c, ?_, hpath⟩
        rcases hc with hcreated | hdiffers
        · exact Or.inl ((hcreate c).mpr hcreated)
        · have ⟨resource, entry, hr, hs, _⟩ := hdiffers
          exact Or.inr ((hupdate c).mpr ⟨Dict.mem_keys_iff.mpr ⟨resource, hr⟩,
            Dict.mem_keys_iff.mpr ⟨entry, hs⟩,
            (Worklist.isLeast_reachable _ _).1.1 (Or.inr hdiffers)⟩)
    · intro h
      rcases h with hdiffers | ⟨c, hc, hpath⟩
      · exact (Worklist.isLeast_reachable _ _).1.1 (Or.inr hdiffers)
      · obtain ⟨x, hx, hxc⟩ := hreach c hc
        exact ⟨x, hx, hxc.trans hpath.to_reflTransGen⟩
  · intro a
    rw [hget a]
    split_ifs <;> simp [*]
  · rw [lfp_updateRound]
    exact Set.ext hupdate

/-- A reconciliation refuses an address that is not compiled, and otherwise its
actions are exact and its deleted entries are the stored ones not desired. -/
theorem reconcileResourceActions_exact (resources : Dict String R) (snapshot : Dict String S)
    (resourceDependencies : R → DependencySemantics) (entryMatches : S → R → Bool) :
    match reconcileResourceActions resources snapshot resourceDependencies entryMatches with
    | .error refusal =>
      refusal = .valueError "address must be a canonical compiled address" ∧
        ∃ a ∈ resources.keys, isCompiledAddress a = false
    | .ok (actions, deleted) =>
      (∀ a ∈ resources.keys, isCompiledAddress a = true) ∧
        ExactActions resources snapshot resourceDependencies entryMatches actions ∧
        ∀ a, deleted.get? a = if a ∈ resources.keys then none else snapshot.get? a := by
  set first := firstActions entryMatches resources snapshot with hfirst
  set known := resources.mapValues fun _ resource => resourceDependencies resource with hknown
  have hkeys : known.keys = resources.keys := Dict.keys_mapValues resources _
  have hrun : reconcileResourceActions resources snapshot resourceDependencies entryMatches =
      (refreshImpactedNodes known (changedNodes first.1)).bind fun impacted =>
        .ok (impacted.foldl markRefreshed first.1, first.2) := rfl
  rw [hrun]
  by_cases hcompiled : IsCompiledKeys known
  · have hedge : RefreshEdge known = Refreshes resources resourceDependencies := by
      funext c a
      unfold RefreshEdge Refreshes
      rw [hknown, Dict.get?_mapValues]
      cases resources.get? a <;> simp
    have hstart : {c | c ∈ changedNodes first.1} =
        {a | Created resources snapshot a ∨ Differs resources snapshot entryMatches a} :=
      Set.ext (mem_changedNodes_firstActions resources snapshot entryMatches)
    obtain ⟨impacted, hok, himpacted⟩ := refreshImpactedNodes_ok (changedNodes first.1) hcompiled
      (changedNodes_nodup first.1) (by
        intro a ha
        rw [hkeys]
        rcases (mem_changedNodes_firstActions resources snapshot entryMatches a).mp ha with h | h
        · exact h.1
        · obtain ⟨resource, _, hr, _⟩ := h
          exact Dict.mem_keys_iff.mpr ⟨resource, hr⟩)
    rw [hok]
    rw [hedge, hstart] at himpacted
    refine ⟨?_, exactActions_of_get? (get?_finalActions himpacted), ?_⟩
    · intro a ha
      exact hcompiled a (hkeys ▸ ha)
    · exact get?_deletedEntries entryMatches resources snapshot
  · rw [refreshImpactedNodes_error _ hcompiled]
    refine ⟨rfl, ?_⟩
    unfold IsCompiledKeys at hcompiled
    rw [hkeys] at hcompiled
    push Not at hcompiled
    obtain ⟨a, ha, hbad⟩ := hcompiled
    exact ⟨a, ha, Bool.eq_false_iff.mpr hbad⟩

end Reconcile
end Raes.Planner
