import Raes.Replacement.Accounts

/-!
# What an accepted reconciliation says

An accepted reconciliation settles every slot of the original plan: the run of the
slot is in the analysis or the slot is a shortfall, and every retained run is in one
account.
-/

namespace Raes.Replacement

section Settled

variable {contracts : Contracts} {root : AdmittedTrialPlan} {archive : Archive}
  {linked : List ReplacementPlan}

structure SlotSettled (root : AdmittedTrialPlan) (linked : List ReplacementPlan)
    (archive : Archive) (item : String × AdmittedTrialEntry) (slot : Slot) : Prop where
  entryId : slot.entryId = item.1
  followed : ChainFollowed root archive item.1 1 item.2 (chainOf linked item.1) slot.leaf
    slot.supersededRunIds
  chain : slot.chain = chainOf linked item.1
  versions : archive.versionsOf slot.leaf.runId = slot.run.toList

theorem leafRun_versions {leaf : AdmittedTrialEntry} {chain : List ReplacementPlan}
    {run : Option ExperimentRun} (h : leafRun leaf chain archive = .ok run) :
    archive.versionsOf leaf.runId = run.toList := by
  unfold leafRun at h
  simp only [bind_eq_ok_iff, refuseIf_eq_ok_iff] at h
  obtain ⟨-, hlength, -, -, h⟩ := h
  cases h
  cases hversions : archive.versionsOf leaf.runId with
  | nil => rfl
  | cons first rest =>
    cases rest with
    | nil => rfl
    | cons second rest =>
      rw [hversions] at hlength
      simp at hlength

theorem chainOf_eq_sortBy (linked : List ReplacementPlan) (entryId : String) :
    sortBy (fun child => child.origin.ordinal)
      (((Dict.collect (fun child => child.origin.rootEntryId) linked).get? entryId).getD []) =
      chainOf linked entryId := by
  rw [Dict.getD_collect]
  rfl

theorem mem_of_mem_chainOf {entryId : String} {child : ReplacementPlan}
    (h : child ∈ chainOf linked entryId) : child ∈ linked :=
  List.mem_of_mem_filter ((sortBy_perm _ _).mem_iff.mp h)

theorem settleSlot_spec {item : String × AdmittedTrialEntry} {slot : Slot}
    (hvalid : ∀ child ∈ linked, child.plan.validatePlan contracts = .ok ())
    (hitem : item ∈ root.entries.entries)
    (h : settleSlot contracts root archive
      (Dict.collect (fun child => child.origin.rootEntryId) linked) item = .ok slot) :
    SlotSettled root linked archive item slot := by
  unfold settleSlot at h
  rw [chainOf_eq_sortBy] at h
  simp only [bind_eq_ok_iff] at h
  obtain ⟨⟨leaf, used⟩, hfollow, run, hrun, h⟩ := h
  cases h
  refine ⟨rfl, ?_, rfl, leafRun_versions hrun⟩
  apply followChain_spec hfollow
  · exact Dict.get?_eq_some_iff.mpr hitem
  · exact fun child hchild => hvalid child (mem_of_mem_chainOf hchild)

end Settled

/-! ## Acceptance -/

theorem indexArchive_ok_iff {contracts : Contracts} {root : AdmittedTrialPlan}
    {replacements : List AdmittedTrialPlan} {archive : Archive} {plans : Plans} :
    indexArchive contracts root replacements archive = .ok plans ↔
      indexPlans contracts root replacements = .ok plans ∧ (archive.runs.map runKey).Nodup ∧
      indexReceipts plans archive.receipts = .ok () ∧
      ∀ run ∈ archive.runs, indexRun contracts plans archive.receipts run = .ok () := by
  unfold indexArchive
  simp only [bind_eq_ok_iff, refuseIf_eq_ok_iff, not_not]
  constructor
  · rintro ⟨found, hplans, -, hruns, u, hreceipts, v, hjoined, h⟩
    cases h
    exact ⟨hplans, hruns, hreceipts, forM_eq_ok_iff.mp hjoined⟩
  · rintro ⟨hplans, hruns, hreceipts, hjoined⟩
    exact ⟨plans, hplans, (), hruns, (), hreceipts, (),
      forM_eq_ok_iff.mpr hjoined, rfl⟩

/-- Every replacement names the original plan and one of its entries. -/
def RootsResolve (plans : Plans) : Prop :=
  ∀ child ∈ plans.replacements, child.origin.rootPlanId = plans.root.planId ∧
    child.origin.rootPlanDigest = plans.root.planDigest ∧
    child.origin.rootEntryId ∈ plans.root.entries.keys

theorem chains_ok_iff (plans : Plans) (children : Dict String (List ReplacementPlan)) :
    chains plans = .ok children ↔ RootsResolve plans ∧
      children = Dict.collect (fun child => child.origin.rootEntryId) plans.replacements := by
  unfold chains RootsResolve
  rw [seq_eq_ok_iff, forM_eq_ok_iff]
  simp only [refuseIf_eq_ok_iff, not_or, not_not]
  exact and_congr_right fun _ => ⟨fun h => (Except.ok.inj h).symm, fun h => h ▸ rfl⟩

/-- What an accepted reconciliation has checked, and its answer. -/
structure Accepted (contracts : Contracts) (root : AdmittedTrialPlan)
    (replacementPlans : List AdmittedTrialPlan) (archive : Archive) (plans : Plans)
    (slots : List Slot) : Prop where
  valid : root.validatePlan contracts = .ok ()
  runContents : ∀ run ∈ archive.runs, contracts.runContent run = .ok ()
  receiptContents : ∀ receipt ∈ archive.receipts, contracts.receiptContent receipt = .ok ()
  original : validateOriginal root replacementPlans = .ok ()
  indexed : indexArchive contracts root replacementPlans archive = .ok plans
  roots : RootsResolve plans
  settled : List.Forall₂
    (fun item slot => settleSlot contracts root archive
      (Dict.collect (fun child => child.origin.rootEntryId) plans.replacements) item = .ok slot)
    (sortBy Prod.fst root.entries.entries) slots
  superseded : ∀ run ∈ archive.runs, run.runStatus = .superseded →
    run.runId ∈ slots.flatMap Slot.supersededRunIds

theorem reconcile_ok_iff {contracts : Contracts} {root : AdmittedTrialPlan}
    {replacementPlans : List AdmittedTrialPlan} {runs : List ExperimentRun}
    {cleanupReceipts : List TrialCleanupReceipt} {answer : ReplacementTrialReconciliation} :
    reconcileReplacementTrials contracts root replacementPlans runs cleanupReceipts = .ok answer ↔
      ∃ plans slots,
        Accepted contracts root replacementPlans ⟨runs, cleanupReceipts⟩ plans slots ∧
        answer = reconciliationOf root.replacementPolicy slots := by
  unfold reconcileReplacementTrials
  simp only [bind_eq_ok_iff, revalidated_ok_iff, chains_ok_iff, mapM_eq_ok_iff,
    refuseIf_eq_ok_iff]
  constructor
  · rintro ⟨_, ⟨hvalid, rfl⟩, u, hruns, v, hreceipts, w, horiginal, plans, hindexed, children,
      ⟨hroots, rfl⟩, slots, hslots, -, hsuperseded, h⟩
    refine ⟨plans, slots, ⟨hvalid, forM_eq_ok_iff.mp hruns,
      forM_eq_ok_iff.mp hreceipts, horiginal, hindexed, hroots, hslots, ?_⟩,
      (Except.ok.inj h).symm⟩
    intro run hrun hstatus
    by_contra hunused
    exact hsuperseded ⟨run, hrun, hstatus, hunused⟩
  · rintro ⟨plans, slots, haccepted, rfl⟩
    refine ⟨root, ⟨haccepted.valid, rfl⟩, (),
      forM_eq_ok_iff.mpr haccepted.runContents, (),
      forM_eq_ok_iff.mpr haccepted.receiptContents, (), haccepted.original, plans,
      haccepted.indexed, _, ⟨haccepted.roots, rfl⟩, slots, haccepted.settled, (), ?_, rfl⟩
    rintro ⟨run, hrun, hstatus, hunused⟩
    exact hunused (haccepted.superseded run hrun hstatus)

namespace Accepted

variable {contracts : Contracts} {root : AdmittedTrialPlan}
  {replacementPlans : List AdmittedTrialPlan} {archive : Archive} {plans : Plans}
  {slots : List Slot}

section

variable (h : Accepted contracts root replacementPlans archive plans slots)
include h

theorem indexedPlans : indexPlans contracts root replacementPlans = .ok plans :=
  (indexArchive_ok_iff.mp h.indexed).1

theorem root_eq : plans.root = root :=
  (indexPlans_ok_iff.mp h.indexedPlans).2.1

theorem linked : plans.replacements.map ReplacementPlan.plan = replacementPlans ∧
      ∀ child ∈ plans.replacements, child.plan.validatePlan contracts = .ok () := by
  have hlinked := (indexPlans_ok_iff.mp h.indexedPlans).1
  obtain ⟨hmap, hvalid, -⟩ := linkPlans_ok_iff.mp hlinked
  refine ⟨hmap, fun child hchild => hvalid _ ?_⟩
  rw [← hmap]
  exact List.mem_map_of_mem hchild

theorem replacements_eq : plans.replacements = linkedPlans replacementPlans := by
  rw [← h.linked.1, linkedPlans_map_plan]

theorem nodup_runIds : (plans.allEntries.map AdmittedTrialEntry.runId).Nodup :=
  (indexPlans_ok_iff.mp h.indexedPlans).2.2.1

theorem roots_mem :
    ∀ child ∈ plans.replacements, child.origin.rootEntryId ∈ plans.root.entries.keys :=
  fun child hchild => (h.roots child hchild).2.2

theorem settledSlots : List.Forall₂ (SlotSettled root plans.replacements archive)
      (sortBy Prod.fst root.entries.entries) slots := by
  refine forall₂_imp_of_mem h.settled ?_
  intro item hitem slot hslot
  exact settleSlot_spec h.linked.2 ((sortBy_perm _ _).mem_iff.mp hitem) hslot

end

end Accepted

end Raes.Replacement

/-!
# Every run is accounted for once

The slots of an accepted reconciliation are told apart by their entry ids, and the
accounts by their run ids.  So an entry has one analysis run or one shortfall, and a
retained run has one account.
-/

namespace Raes.Replacement

def AllocatedTo (root : AdmittedTrialPlan) (linked : List ReplacementPlan) (entryId : String)
    (run : ExperimentRun) : Prop :=
  ∃ account ∈ accounts root linked, account.rootEntryId = entryId ∧ account.runId = run.runId

instance (root : AdmittedTrialPlan) (linked : List ReplacementPlan) (entryId : String)
    (run : ExperimentRun) : Decidable (AllocatedTo root linked entryId run) :=
  inferInstanceAs (Decidable (∃ account ∈ accounts root linked, _))

/-- How an account holds a retained run: a replaced parent has the replaced version and
the version that supersedes it and no other, a leaf has one version. -/
def Accounted (runs : List ExperimentRun) (run : ExperimentRun) (account : SlotAccount) : Prop :=
  match account.replacedBy with
  | some origin => origin.parentRunId = run.runId ∧
      KeepsReplaced ⟨runs, []⟩ origin
  | none => (runs.filter fun other => other.runId = run.runId) = [run] ∧
      run.runStatus ≠ .superseded

def maxReplacementsOf (root : AdmittedTrialPlan) : ℕ :=
  (root.replacementPolicy.map TrialReplacementPolicy.maxReplacements).getD 0

structure AccountedOnce (root : AdmittedTrialPlan) (replacementPlans : List AdmittedTrialPlan)
    (runs : List ExperimentRun) (answer : ReplacementTrialReconciliation) : Prop where
  /-- an entry has one analysis run or is one shortfall -/
  slots : ∀ entryId ∈ root.entries.keys,
    (answer.analysisRuns.filter
        (AllocatedTo root (linkedPlans replacementPlans) entryId)).length +
      answer.shortfallEntryIds.count entryId = 1
  analysis : ∀ run ∈ answer.analysisRuns, run ∈ runs ∧ ∃ entryId ∈ root.entries.keys,
    ⟨entryId, run.runId, none⟩ ∈ accounts root (linkedPlans replacementPlans)
  shortfall : ∀ entryId ∈ answer.shortfallEntryIds, entryId ∈ root.entries.keys
  exhausted : ∀ entryId ∈ answer.exhaustedEntryIds, entryId ∈ answer.shortfallEntryIds
  /-- a retained run has one account -/
  retained : ∀ run ∈ runs, ∃ account,
    ((accounts root (linkedPlans replacementPlans)).filter fun a => a.runId = run.runId) =
      [account] ∧ Accounted runs run account
  /-- every replacement is in the chain of its entry -/
  replacements : (linkedPlans replacementPlans).map ReplacementPlan.plan = replacementPlans ∧
    ∀ child ∈ linkedPlans replacementPlans, child.origin.rootEntryId ∈ root.entries.keys
  chains : ∀ entryId ∈ root.entries.keys,
    ((chainOf (linkedPlans replacementPlans) entryId).map fun child => child.origin.ordinal) =
      List.range' 1 (chainOf (linkedPlans replacementPlans) entryId).length ∧
    (chainOf (linkedPlans replacementPlans) entryId).length ≤ maxReplacementsOf root

/-! ## Slots by their entry -/

theorem length_filterMap_add_length_filter {α β : Type} (f : α → Option β) (l : List α) :
    (l.filterMap f).length + (l.filter fun a => (f a).isNone).length = l.length := by
  induction l with
  | nil => rfl
  | cons a rest ih =>
    cases ha : f a with
    | none =>
      rw [List.filterMap_cons_none ha, List.filter_cons_of_pos (by simp [ha])]
      simp only [List.length_cons]
      omega
    | some b =>
      rw [List.filterMap_cons_some ha, List.filter_cons_of_neg (by simp [ha])]
      simp only [List.length_cons]
      omega

section Slots

variable {root : AdmittedTrialPlan} {linked : List ReplacementPlan} {archive : Archive}
  {slots : List Slot}

def AllSettled (root : AdmittedTrialPlan) (linked : List ReplacementPlan) (archive : Archive)
    (slots : List Slot) : Prop :=
  List.Forall₂ (SlotSettled root linked archive) (sortBy Prod.fst root.entries.entries) slots

theorem AllSettled.entryIds (h : AllSettled root linked archive slots) :
    slots.map Slot.entryId = (sortBy Prod.fst root.entries.entries).map Prod.fst := by
  unfold AllSettled at h
  generalize sortBy Prod.fst root.entries.entries = items at h
  induction h with
  | nil => rfl
  | cons hslot _ ih => rw [List.map_cons, List.map_cons, ih, hslot.entryId]

theorem AllSettled.nodup (h : AllSettled root linked archive slots) :
    (slots.map Slot.entryId).Nodup := by
  rw [h.entryIds]
  exact ((sortBy_perm _ _).map Prod.fst).nodup_iff.mpr root.entries.nodup

section

variable (h : AllSettled root linked archive slots)
include h

theorem AllSettled.mem_keys_iff (entryId : String) :
    entryId ∈ root.entries.keys ↔ entryId ∈ slots.map Slot.entryId := by
  rw [h.entryIds]
  exact ((sortBy_perm _ _).map Prod.fst).mem_iff.symm

theorem AllSettled.exists_slot {entryId : String}
    {entry : AdmittedTrialEntry} (hentry : root.entries.get? entryId = some entry) :
    ∃ slot ∈ slots, SlotSettled root linked archive (entryId, entry) slot := by
  have hmem := Dict.get?_eq_some_iff.mp hentry
  obtain ⟨slot, hslot, hsettled⟩ :=
    exists_left_of_forall₂ h.flip ((sortBy_perm Prod.fst _).mem_iff.mpr hmem)
  exact ⟨slot, hslot, hsettled⟩

theorem AllSettled.exists_entry {slot : Slot}
    (hslot : slot ∈ slots) : ∃ entry, root.entries.get? slot.entryId = some entry ∧
      SlotSettled root linked archive (slot.entryId, entry) slot := by
  obtain ⟨⟨entryId, entry⟩, hitem, hsettled⟩ := exists_left_of_forall₂ h hslot
  have hid : slot.entryId = entryId := hsettled.entryId
  subst hid
  refine ⟨entry, Dict.get?_eq_some_iff.mpr ?_, hsettled⟩
  exact (sortBy_perm Prod.fst _).mem_iff.mp hitem

theorem AllSettled.leaf_account {slot : Slot} (hslot : slot ∈ slots) :
    ⟨slot.entryId, slot.leaf.runId, none⟩ ∈ accounts root linked := by
  obtain ⟨entry, hentry, hsettled⟩ := h.exists_entry hslot
  exact mem_accounts_iff.mpr ⟨entry, hentry, hsettled.followed.leafAccount⟩

end

theorem SlotSettled.mem_runs {item : String × AdmittedTrialEntry} {slot : Slot}
    (h : SlotSettled root linked archive item slot) {run : ExperimentRun}
    (hrun : slot.run = some run) : run ∈ archive.runs ∧ run.runId = slot.leaf.runId := by
  have hmem : run ∈ archive.versionsOf slot.leaf.runId := by
    rw [h.versions, hrun]
    exact List.mem_singleton.mpr rfl
  rw [versionsOf_eq, List.mem_filter, decide_eq_true_iff] at hmem
  exact hmem

theorem run_of_analysisRun {policy : Option TrialReplacementPolicy} {slot : Slot}
    {run : ExperimentRun} (h : slot.analysisRun policy = some run) : slot.run = some run := by
  unfold Slot.analysisRun at h
  exact (Option.filter_eq_some_iff.mp h).1

end Slots

namespace Accepted

variable {contracts : Contracts} {root : AdmittedTrialPlan}
  {replacementPlans : List AdmittedTrialPlan} {archive : Archive} {plans : Plans}
  {slots : List Slot}

section

variable (h : Accepted contracts root replacementPlans archive plans slots)
include h

theorem allSettled : AllSettled root (linkedPlans replacementPlans) archive slots := by
  rw [← h.replacements_eq]
  exact h.settledSlots

theorem filter_eq {account : SlotAccount}
    (haccount : account ∈ accounts root (linkedPlans replacementPlans)) :
    ((accounts root (linkedPlans replacementPlans)).filter
      fun a => a.runId = account.runId) = [account] := by
  rw [← h.replacements_eq, ← h.root_eq] at haccount ⊢
  exact filter_accounts_eq h.roots_mem h.nodup_runIds haccount

theorem account_unique {a b : SlotAccount} (ha : a ∈ accounts root (linkedPlans replacementPlans))
    (hb : b ∈ accounts root (linkedPlans replacementPlans)) (hid : a.runId = b.runId) : a = b := by
  have hmem : a ∈ (accounts root (linkedPlans replacementPlans)).filter
      fun other => other.runId = b.runId :=
    List.mem_filter.mpr ⟨ha, decide_eq_true hid⟩
  rw [h.filter_eq hb] at hmem
  exact List.mem_singleton.mp hmem

variable {run : ExperimentRun}

theorem allocatedTo_iff {slot : Slot} (hslot : slot ∈ slots) (hrun : slot.run = some run)
    (entryId : String) :
    AllocatedTo root (linkedPlans replacementPlans) entryId run ↔ slot.entryId = entryId := by
  obtain ⟨entry, hentry, hsettled⟩ := h.allSettled.exists_entry hslot
  have hleaf := h.allSettled.leaf_account hslot
  have hid := (hsettled.mem_runs hrun).2
  constructor
  · rintro ⟨account, haccount, rfl, hsame⟩
    rw [h.account_unique haccount hleaf (hsame.trans hid)]
  · rintro rfl
    exact ⟨_, hleaf, rfl, hid.symm⟩

theorem slots_once {entryId : String} (hentry : entryId ∈ root.entries.keys) :
    ((reconciliationOf root.replacementPolicy slots).analysisRuns.filter
        (AllocatedTo root (linkedPlans replacementPlans) entryId)).length +
      (reconciliationOf root.replacementPolicy slots).shortfallEntryIds.count entryId = 1 := by
  let own := slots.filter fun slot => slot.entryId = entryId
  let analysis := Slot.analysisRun root.replacementPolicy
  have hanalysis : (slots.filterMap analysis).filter
      (AllocatedTo root (linkedPlans replacementPlans) entryId) = own.filterMap analysis := by
    rw [List.filter_filterMap, List.filterMap_filter]
    apply List.filterMap_congr
    intro slot hslot
    cases hrun : analysis slot with
    | none => simp
    | some run =>
      have hiff := h.allocatedTo_iff hslot (run_of_analysisRun hrun) entryId
      by_cases hid : slot.entryId = entryId
      · simp [hid, hiff.mpr hid]
      · simp [hid, mt hiff.mp hid]
  have hshortfall : ((slots.filter fun slot => (analysis slot).isNone).map
      Slot.entryId).count entryId = (own.filter fun slot => (analysis slot).isNone).length := by
    rw [List.count_eq_countP, List.countP_map, List.countP_eq_length_filter, List.filter_filter,
      List.filter_filter]
    congr 1
    apply List.filter_congr
    intro slot _
    rw [Bool.and_comm]
    congr 1
  have hown : own.length = 1 := by
    have hcount : (slots.map Slot.entryId).count entryId = 1 :=
      List.count_eq_one_of_mem h.allSettled.nodup
        ((h.allSettled.mem_keys_iff entryId).mp hentry)
    rw [List.count_eq_countP, List.countP_map, List.countP_eq_length_filter] at hcount
    rw [← hcount]
    congr 1
  show ((slots.filterMap analysis).filter _).length + List.count entryId _ = 1
  rw [hanalysis, ← hown, ← length_filterMap_add_length_filter analysis own]
  exact congrArg _ hshortfall

theorem exists_account (hrun : run ∈ archive.runs) :
    ∃ account ∈ accounts root (linkedPlans replacementPlans), account.runId = run.runId := by
  have hjoined := (indexArchive_ok_iff.mp h.indexed).2.2.2 run hrun
  unfold indexRun at hjoined
  cases hlinkage : run.trialProvenance with
  | none =>
    rw [hlinkage] at hjoined
    cases hjoined
  | some linkage =>
    rw [hlinkage] at hjoined
    cases hplan : plans.get? linkage.planId with
    | none =>
      simp only [hplan] at hjoined
      cases hjoined
    | some plan =>
      simp only [hplan, bind_eq_ok_iff] at hjoined
      obtain ⟨u, hvalid, -⟩ := hjoined
      obtain ⟨entry, hentry, hid⟩ := runId_of_validateAdmittedTrialRun hvalid
      have hall : run.runId ∈ plans.allEntries.map AdmittedTrialEntry.runId :=
        List.mem_map.mpr
          ⟨entry, List.mem_flatMap.mpr ⟨plan, List.mem_of_find?_eq_some hplan, hentry⟩, hid⟩
      have haccounts := (accounts_runIds_perm plans h.roots_mem).mem_iff.mpr hall
      rw [h.replacements_eq, h.root_eq] at haccounts
      exact List.mem_map.mp haccounts

theorem retained_once (hrun : run ∈ archive.runs) :
    ∃ account, ((accounts root (linkedPlans replacementPlans)).filter
      fun a => a.runId = run.runId) = [account] ∧ Accounted archive.runs run account := by
  obtain ⟨account, haccount, hid⟩ := h.exists_account hrun
  refine ⟨account, hid ▸ h.filter_eq haccount, ?_⟩
  obtain ⟨entry, hentry, hown⟩ := mem_accounts_iff.mp haccount
  obtain ⟨slot, hslot, hsettled⟩ := h.allSettled.exists_slot hentry
  unfold Accounted
  cases horigin : account.replacedBy with
  | some origin =>
    obtain ⟨hparent, hkept⟩ := hsettled.followed.replaced account hown origin horigin
    exact ⟨hparent.trans hid, hkept⟩
  | none =>
    have hleaf := hsettled.followed.leafOnly account hown horigin
    have hversions : (archive.runs.filter fun other => other.runId = run.runId) =
        slot.run.toList := by
      rw [← hid, hleaf, ← versionsOf_eq]
      exact hsettled.versions
    have hmem : run ∈ slot.run.toList := by
      rw [← hversions]
      exact List.mem_filter.mpr ⟨hrun, decide_eq_true rfl⟩
    refine ⟨?_, fun hstatus => ?_⟩
    · rw [hversions, Option.mem_toList.mp hmem]
      rfl
    · -- a superseded run was used by a slot, whose account of it has an origin
      obtain ⟨other, hother, hused⟩ := List.mem_flatMap.mp (h.superseded run hrun hstatus)
      obtain ⟨otherEntry, hotherEntry, hotherSettled⟩ := h.allSettled.exists_entry hother
      obtain ⟨origin, hreplaced⟩ := hotherSettled.followed.usedAccounts run.runId hused
      have hsame := h.account_unique haccount
        (mem_accounts_iff.mpr ⟨otherEntry, hotherEntry, hreplaced⟩) hid
      rw [hsame] at horigin
      cases horigin

theorem chain_bounded {entryId : String} (hentry : entryId ∈ root.entries.keys) :
    ((chainOf (linkedPlans replacementPlans) entryId).map fun child => child.origin.ordinal) =
      List.range' 1 (chainOf (linkedPlans replacementPlans) entryId).length ∧
    (chainOf (linkedPlans replacementPlans) entryId).length ≤ maxReplacementsOf root := by
  obtain ⟨entry, hget⟩ := Dict.mem_keys_iff.mp hentry
  obtain ⟨slot, hslot, hsettled⟩ := h.allSettled.exists_slot hget
  have hordinals :
      ((chainOf (linkedPlans replacementPlans) entryId).map fun child => child.origin.ordinal) =
        List.range' 1 (chainOf (linkedPlans replacementPlans) entryId).length :=
    hsettled.followed.ordinals
  refine ⟨hordinals, ?_⟩
  by_cases hempty : (chainOf (linkedPlans replacementPlans) entryId).length = 0
  · omega
  · -- the last ordinal is the length, and it is in the budget
    have hlast : (chainOf (linkedPlans replacementPlans) entryId).length ∈
        (chainOf (linkedPlans replacementPlans) entryId).map
          fun child => child.origin.ordinal := by
      rw [hordinals, List.mem_range'_1]
      omega
    obtain ⟨child, hchild, hordinal⟩ := List.mem_map.mp hlast
    have hmem : child ∈ plans.replacements := by
      rw [h.replacements_eq]
      exact mem_of_mem_chainOf hchild
    obtain ⟨⟨policy, hpolicy, hbound⟩, -⟩ :=
      single_of_origin (h.linked.2 child hmem) child.linked
    rw [hsettled.followed.policies child hchild] at hpolicy
    unfold maxReplacementsOf
    rw [hpolicy, ← hordinal]
    exact hbound

theorem accountedOnce : AccountedOnce root replacementPlans archive.runs
      (reconciliationOf root.replacementPolicy slots) where
  slots := fun _ hentry => h.slots_once hentry
  analysis := by
    intro run hrun
    obtain ⟨slot, hslot, hanalysis⟩ := List.mem_filterMap.mp hrun
    obtain ⟨entry, hentry, hsettled⟩ := h.allSettled.exists_entry hslot
    obtain ⟨hmem, hid⟩ := hsettled.mem_runs (run_of_analysisRun hanalysis)
    refine ⟨hmem, slot.entryId, Dict.mem_keys_iff.mpr ⟨entry, hentry⟩, ?_⟩
    rw [hid]
    exact h.allSettled.leaf_account hslot
  shortfall := by
    intro entryId hentry
    rw [h.allSettled.mem_keys_iff]
    exact List.map_subset _ (List.filter_subset_self _) hentry
  exhausted := by
    intro entryId hentry
    obtain ⟨slot, hslot, rfl⟩ := List.mem_map.mp hentry
    rw [List.mem_filter, Bool.and_eq_true] at hslot
    exact List.mem_map_of_mem (List.mem_filter.mpr ⟨hslot.1, hslot.2.1⟩)
  retained := fun _ hrun => h.retained_once hrun
  replacements := by
    rw [← h.replacements_eq]
    refine ⟨h.linked.1, fun child hchild => ?_⟩
    rw [← h.root_eq]
    exact h.roots_mem child hchild
  chains := fun _ hentry => h.chain_bounded hentry

end

end Accepted

end Raes.Replacement
