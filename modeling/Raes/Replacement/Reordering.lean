import Raes.Replacement.AccountedOnce

/-!
# Reordered records

The reconciliation reads its lists through identities that are distinct: plan ids,
run versions, receipt ids and the ordinals of a chain.  So every check of an accepted
input answers alike on a permutation of the lists.
-/

namespace Raes.Replacement

section Receipts

variable {contracts : Contracts} {l m : List TrialCleanupReceipt}

theorem receiptById_perm (h : l.Perm m) (hnodup : (l.map TrialCleanupReceipt.receiptId).Nodup)
    (receiptId : String) : receiptById l receiptId = receiptById m receiptId := by
  unfold receiptById
  apply find?_key_of_perm
  · exact (l.reverse_perm.trans h).trans m.reverse_perm.symm
  · exact (l.reverse_perm.map _).nodup_iff.mpr hnodup

theorem sameReceipts_perm (h : l.Perm m) (hnodup : (l.map TrialCleanupReceipt.receiptId).Nodup)
    (retained : List TrialCleanupReceipt) :
    sameReceipts contracts retained l = sameReceipts contracts retained m := by
  unfold sameReceipts
  rw [Bool.eq_iff_iff, List.all_eq_true, List.all_eq_true]
  simp only [receiptById_perm h hnodup, (h.append_left retained).mem_iff]

theorem validateAccountingCleanup_perm (h : l.Perm m)
    (hnodup : (l.map TrialCleanupReceipt.receiptId).Nodup) (entry : AdmittedTrialEntry)
    (cleanupPlan : TrialCleanupPlan) (accounting : ExecutionAccounting) :
    validateAccountingCleanup contracts entry cleanupPlan accounting l =
      validateAccountingCleanup contracts entry cleanupPlan accounting m := by
  have hm := (h.map TrialCleanupReceipt.receiptId).nodup_iff.mp hnodup
  simp only [validateAccountingCleanup, hnodup, hm, sameReceipts_perm h hnodup]

theorem validateRunAttemptEvidence_perm (h : l.Perm m)
    (hnodup : (l.map TrialCleanupReceipt.receiptId).Nodup) (cleanupPlan : TrialCleanupPlan)
    (linkage : TrialRunProvenance) :
    validateRunAttemptEvidence cleanupPlan linkage l =
      validateRunAttemptEvidence cleanupPlan linkage m := by
  have hm := (h.map TrialCleanupReceipt.receiptId).nodup_iff.mp hnodup
  simp only [validateRunAttemptEvidence, hnodup, hm, receiptById_perm h hnodup]

theorem validateAdmittedTrialRun_perm (h : l.Perm m)
    (hnodup : (l.map TrialCleanupReceipt.receiptId).Nodup) (plan : AdmittedTrialPlan)
    (run : ExperimentRun) :
    validateAdmittedTrialRun contracts plan run l =
      validateAdmittedTrialRun contracts plan run m := by
  simp only [validateAdmittedTrialRun, validateTrialAccounting, validateArchivalRun,
    validateAccountingCleanup_perm h hnodup, validateRunAttemptEvidence_perm h hnodup]

theorem receiptsOfEntry_eq (receipts : List TrialCleanupReceipt) (entryId : String) :
    receiptsOfEntry receipts entryId =
      receipts.filter fun receipt => receipt.planEntryId = entryId :=
  Dict.getD_collect _ _ _

theorem receiptsOfEntry_perm (h : l.Perm m) (entryId : String) :
    (receiptsOfEntry l entryId).Perm (receiptsOfEntry m entryId) := by
  rw [receiptsOfEntry_eq, receiptsOfEntry_eq]
  exact h.filter _

theorem receiptsOfEntry_nodup (hnodup : (l.map TrialCleanupReceipt.receiptId).Nodup)
    (entryId : String) :
    ((receiptsOfEntry l entryId).map TrialCleanupReceipt.receiptId).Nodup := by
  rw [receiptsOfEntry_eq]
  exact hnodup.sublist (List.filter_sublist.map _)

def ReceiptsFit (plan : AdmittedTrialPlan) (receipts : List TrialCleanupReceipt) : Prop :=
  ∀ entry ∈ plan.entries.values, ∃ cleanup, plan.cleanupPlanOf entry = .ok cleanup ∧
    (receiptsOfEntry receipts entry.planEntryId).length ≤ cleanup.maxAttempts ∧
    ∀ receipt ∈ receiptsOfEntry receipts entry.planEntryId,
      validateTrialCleanupReceipt cleanup receipt = .ok ()

theorem ReceiptsFit.perm {plan : AdmittedTrialPlan} (hfit : ReceiptsFit plan l) (h : l.Perm m) :
    ReceiptsFit plan m := by
  intro entry hentry
  obtain ⟨cleanup, hcleanup, hlength, hvalid⟩ := hfit entry hentry
  have hperm := receiptsOfEntry_perm h entry.planEntryId
  refine ⟨cleanup, hcleanup, hperm.length_eq ▸ hlength, fun receipt hreceipt => ?_⟩
  exact hvalid receipt (hperm.mem_iff.mpr hreceipt)

theorem indexReceipts_ok_iff {plans : Plans} {receipts : List TrialCleanupReceipt} :
    indexReceipts plans receipts = .ok () ↔
      (receipts.map TrialCleanupReceipt.receiptId).Nodup ∧
      (receipts.map TrialCleanupReceipt.executionAttemptId).Nodup ∧
      (∀ plan ∈ plans.all, ReceiptsFit plan receipts) ∧
      ∀ receipt ∈ receipts,
        receipt.planEntryId ∈ plans.allEntries.map AdmittedTrialEntry.planEntryId := by
  unfold indexReceipts validateReceiptIdentities ReceiptsFit
  simp only [seq_eq_ok_iff, forM_eq_ok_iff, refuseIf_eq_ok_iff, not_not, and_assoc]
  refine and_congr_right fun _ => and_congr_right fun _ => and_congr ?_ ?_
  · refine forall₂_congr fun plan _ => forall₂_congr fun entry _ => ?_
    rw [bind_eq_ok_iff]
    simp only [seq_eq_ok_iff, forM_eq_ok_iff, refuseIf_eq_ok_iff, Nat.not_lt, gt_iff_lt]
  · constructor
    · intro h receipt hreceipt
      by_contra hunknown
      exact h ⟨receipt, hreceipt, hunknown⟩
    · rintro h ⟨receipt, hreceipt, hunknown⟩
      exact hunknown (h receipt hreceipt)

end Receipts

section Parent

variable {contracts : Contracts} {plan : AdmittedTrialPlan} {l m : List TrialCleanupReceipt}

variable {entry : AdmittedTrialEntry}

theorem indexCleanupReceipts_entry {cleanup : TrialCleanupPlan}
    (hentry : plan.entries.get? entry.planEntryId = some entry)
    (hcleanup : plan.cleanupPlanOf entry = .ok cleanup)
    (hbinds : cleanup.planEntryId = entry.planEntryId ∧ cleanup.runId = entry.runId)
    (seen : List TrialCleanupReceipt) {rest : List TrialCleanupReceipt}
    (hvalid : ∀ receipt ∈ rest, validateTrialCleanupReceipt cleanup receipt = .ok ())
    (hids : ((seen ++ rest).map TrialCleanupReceipt.receiptId).Nodup)
    (hattempts : ((seen ++ rest).map TrialCleanupReceipt.executionAttemptId).Nodup)
    (hlength : (seen ++ rest).length ≤ cleanup.maxAttempts) :
    indexCleanupReceipts plan (seen.map fun receipt => (entry.planEntryId, receipt)) rest =
      .ok ((seen ++ rest).map fun receipt => (entry.planEntryId, receipt)) := by
  induction rest generalizing seen with
  | nil => rw [indexCleanupReceipts, List.append_nil]
  | cons receipt rest ih =>
    rw [List.forall_mem_cons] at hvalid
    have hsplit : seen ++ receipt :: rest = (seen ++ [receipt]) ++ rest := by simp
    have hreceipt := hvalid.1
    unfold validateTrialCleanupReceipt at hreceipt
    simp only [seq_eq_ok_iff, refuseIf_eq_ok_iff, not_or, not_not] at hreceipt
    obtain ⟨-, ⟨hplanEntry, hrun⟩, -⟩ := hreceipt
    have hget : plan.entries.get? receipt.planEntryId = some entry := by
      rw [hplanEntry, hbinds.1]
      exact hentry
    have hnew : ¬ ∃ item ∈ seen.map fun receipt => (entry.planEntryId, receipt),
        item.2.receiptId = receipt.receiptId ∨
          item.2.executionAttemptId = receipt.executionAttemptId := by
      rintro ⟨item, hitem, hsame⟩
      obtain ⟨other, hother, rfl⟩ := List.mem_map.mp hitem
      rw [List.map_append, List.nodup_append] at hids hattempts
      rcases hsame with hsame | hsame
      · exact hids.2.2 _ (List.mem_map_of_mem hother) _ List.mem_cons_self hsame
      · exact hattempts.2.2 _ (List.mem_map_of_mem hother) _ List.mem_cons_self hsame
    have hbudget : ¬ (receiptsOf ((seen ++ [receipt]).map
        fun receipt => (entry.planEntryId, receipt)) entry.planEntryId).length >
          cleanup.maxAttempts := by
      have hle := List.length_filter_le (fun item : String × TrialCleanupReceipt =>
        item.1 = entry.planEntryId)
        ((seen ++ [receipt]).map fun receipt => (entry.planEntryId, receipt))
      unfold receiptsOf
      rw [List.length_map]
      rw [List.length_map] at hle
      simp only [List.length_append, List.length_cons, List.length_nil] at hle hlength ⊢
      omega
    rw [hsplit] at hids hattempts hlength
    have hrest := ih (seen ++ [receipt]) hvalid.2 hids hattempts hlength
    rw [List.map_append] at hbudget hrest
    rw [indexCleanupReceipts, seq_eq_ok_iff, hsplit]
    refine ⟨(refuseIf_eq_ok_iff _ _ _).mpr hnew, ?_⟩
    simp only [hget, bind_eq_ok_iff]
    refine ⟨(), (refuseIf_eq_ok_iff _ _ _).mpr (not_not.mpr (hrun.trans hbinds.2)), cleanup,
      hcleanup, (), hvalid.1, (), (refuseIf_eq_ok_iff _ _ _).mpr hbudget, ?_⟩
    exact hrest

theorem receiptsOf_perm (h : l.Perm m) (entryId key : String) :
    (receiptsOf (l.map fun receipt => (entryId, receipt)) key).Perm
      (receiptsOf (m.map fun receipt => (entryId, receipt)) key) :=
  ((h.map _).filter _).map _

theorem receiptsOf_map_nodup (hnodup : (l.map TrialCleanupReceipt.receiptId).Nodup)
    (entryId key : String) :
    ((receiptsOf (l.map fun receipt => (entryId, receipt)) key).map
      TrialCleanupReceipt.receiptId).Nodup := by
  have hsub : (receiptsOf (l.map fun receipt => (entryId, receipt)) key).Sublist l := by
    have h := (List.filter_sublist (p := fun item : String × TrialCleanupReceipt => item.1 = key)
      (l := l.map fun receipt => (entryId, receipt))).map Prod.snd
    rw [List.map_map] at h
    simpa [receiptsOf, Function.comp_def] using h
  exact hnodup.sublist (hsub.map _)

theorem reconcileAdmittedTrialPlan_perm (contracts : Contracts) {cleanup : TrialCleanupPlan}
    (hentry : plan.entries.get? entry.planEntryId = some entry)
    (hcleanup : plan.cleanupPlanOf entry = .ok cleanup)
    (hbinds : cleanup.planEntryId = entry.planEntryId ∧ cleanup.runId = entry.runId)
    (hvalid : ∀ receipt ∈ l, validateTrialCleanupReceipt cleanup receipt = .ok ())
    (hids : (l.map TrialCleanupReceipt.receiptId).Nodup)
    (hattempts : (l.map TrialCleanupReceipt.executionAttemptId).Nodup)
    (hlength : l.length ≤ cleanup.maxAttempts) (h : l.Perm m) (run : ExperimentRun) :
    reconcileAdmittedTrialPlan contracts plan [run] l =
      reconcileAdmittedTrialPlan contracts plan [run] m := by
  have hl := indexCleanupReceipts_entry hentry hcleanup hbinds [] hvalid hids hattempts
    hlength
  have hm := indexCleanupReceipts_entry hentry hcleanup hbinds []
    (fun receipt hreceipt => hvalid receipt (h.mem_iff.mpr hreceipt))
    ((h.map _).nodup_iff.mp hids) ((h.map _).nodup_iff.mp hattempts) (h.length_eq ▸ hlength)
  rw [List.nil_append] at hl hm
  have hruns : indexArchivalRuns contracts plan
      (l.map fun receipt => (entry.planEntryId, receipt)) [] [run] =
      indexArchivalRuns contracts plan
        (m.map fun receipt => (entry.planEntryId, receipt)) [] [run] := by
    unfold indexArchivalRuns
    cases run.trialProvenance with
    | none => rfl
    | some linkage =>
      have hperm := receiptsOf_perm h entry.planEntryId linkage.planEntryId
      have hset : SameSet (linkage.executionAttempts.map TrialExecutionAttempt.cleanupReceiptRef)
          ((receiptsOf (l.map fun receipt => (entry.planEntryId, receipt))
            linkage.planEntryId).map TrialCleanupReceipt.receiptId) ↔
          SameSet (linkage.executionAttempts.map TrialExecutionAttempt.cleanupReceiptRef)
          ((receiptsOf (m.map fun receipt => (entry.planEntryId, receipt))
            linkage.planEntryId).map TrialCleanupReceipt.receiptId) :=
        SameSet.perm_iff (List.Perm.refl _) (hperm.map _)
      simp only [validateAdmittedTrialRun_perm hperm (receiptsOf_map_nodup hids _ _), hset]
      rfl
  have hkeys : (l.map fun receipt => (entry.planEntryId, receipt)).map Prod.fst =
      (m.map fun receipt => (entry.planEntryId, receipt)).map Prod.fst := by
    rw [List.map_map, List.map_map]
    show l.map (fun _ => entry.planEntryId) = m.map fun _ => entry.planEntryId
    rw [List.map_const', List.map_const', h.length_eq]
  unfold reconcileAdmittedTrialPlan
  rw [List.map_nil] at hl hm
  rw [hl, hm]
  show (indexArchivalRuns _ _ _ _ _ >>= _) = (indexArchivalRuns _ _ _ _ _ >>= _)
  rw [hruns, hkeys]

theorem replacementParentCleanup_perm (hplan : plan.validatePlan contracts = .ok ())
    (hentry : plan.entries.get? entry.planEntryId = some entry)
    (hfit : ReceiptsFit plan l) (hids : (l.map TrialCleanupReceipt.receiptId).Nodup)
    (hattempts : (l.map TrialCleanupReceipt.executionAttemptId).Nodup) (h : l.Perm m)
    (run : ExperimentRun) : replacementParentCleanup contracts plan run
        (l.filter fun receipt => receipt.planEntryId = entry.planEntryId) =
      replacementParentCleanup contracts plan run
        (m.filter fun receipt => receipt.planEntryId = entry.planEntryId) := by
  have hmem := Dict.mem_values_iff.mpr ⟨_, hentry⟩
  obtain ⟨cleanup, hcleanup, hlength, hvalid⟩ := hfit entry hmem
  rw [receiptsOfEntry_eq] at hlength hvalid
  have hsub : (l.filter fun receipt => receipt.planEntryId = entry.planEntryId).Sublist l :=
    List.filter_sublist
  have hperm := h.filter fun receipt => decide (receipt.planEntryId = entry.planEntryId)
  have hfiltered := hids.sublist (hsub.map _)
  have hreconcile := reconcileAdmittedTrialPlan_perm contracts hentry hcleanup
    (cleanupPlan_binds hplan hmem hcleanup) hvalid hfiltered (hattempts.sublist (hsub.map _))
    hlength hperm run
  have hfind := find?_key_of_perm hperm hfiltered
  unfold replacementParentCleanup
  simp only [hreconcile, hfind]

end Parent

/-! ## The lineage -/

/-- The same records in another order, told apart by their identities. -/
structure Reordered (a b : Archive) : Prop where
  runs : a.runs.Perm b.runs
  receipts : a.receipts.Perm b.receipts
  versions : (a.runs.map runKey).Nodup
  receiptIds : (a.receipts.map TrialCleanupReceipt.receiptId).Nodup
  attemptIds : (a.receipts.map TrialCleanupReceipt.executionAttemptId).Nodup

section Lineage

variable {contracts : Contracts} {root : AdmittedTrialPlan} {a b : Archive}

theorem Reordered.version?_eq (h : Reordered a b) (key : String × String) :
    a.version? key = b.version? key := by
  have hfind := find?_key_of_perm h.runs h.versions key
  simp only [beq_eq_decide] at hfind
  simpa only [Archive.version?, beq_eq_decide] using hfind

theorem Reordered.versionsOf_perm (h : Reordered a b) (runId : String) :
    (a.versionsOf runId).Perm (b.versionsOf runId) := by
  rw [versionsOf_eq, versionsOf_eq]
  exact h.runs.filter _

theorem Reordered.validateChildParent_eq (h : Reordered a b) (parent : AdmittedTrialPlan)
    (child : ReplacementPlan) :
    validateChildParent contracts root parent child a =
      validateChildParent contracts root parent child b := by
  simp only [validateChildParent, h.version?_eq]

theorem Reordered.validateChildEvidence_eq (h : Reordered a b) {parent : AdmittedTrialPlan}
    (hparent : parent.validatePlan contracts = .ok ()) (hfit : ReceiptsFit parent a.receipts)
    {k : String} {priorEntry : AdmittedTrialEntry}
    (hprior : parent.entries.get? k = some priorEntry) (child : ReplacementPlan)
    (run : ExperimentRun) :
    validateChildEvidence contracts parent child priorEntry run a =
      validateChildEvidence contracts parent child priorEntry run b := by
  have hkey := planEntryId_of_get? hparent hprior
  subst hkey
  have hcleanup := replacementParentCleanup_perm hparent hprior hfit h.receiptIds h.attemptIds
    h.receipts run
  simp only [validateChildEvidence, hcleanup, h.version?_eq]

def Fits (contracts : Contracts) (archive : Archive) (plan : AdmittedTrialPlan) : Prop :=
  plan.validatePlan contracts = .ok () ∧ ReceiptsFit plan archive.receipts

theorem Reordered.followChild_eq (h : Reordered a b) {parent : Option ReplacementPlan}
    (hparent : Fits contracts a (parentPlanOf root parent)) (entryId : String) (ordinal : ℕ)
    (child : ReplacementPlan) :
    followChild contracts root entryId a ordinal parent child =
      followChild contracts root entryId b ordinal parent child := by
  have hversions : ∀ versions, SameSet
      ((a.versionsOf child.origin.parentRunId).map ExperimentRun.runVersion) versions ↔
      SameSet ((b.versionsOf child.origin.parentRunId).map ExperimentRun.runVersion) versions :=
    fun versions => SameSet.perm_iff ((h.versionsOf_perm _).map _) (List.Perm.refl _)
  unfold followChild
  refine bind_congr fun _ => ?_
  rw [h.validateChildParent_eq]
  cases hprior : validateChildAuthority root (parentPlanOf root parent) child with
  | error error =>
    unfold parentPlanOf at hprior
    rw [hprior]
    rfl
  | ok prior =>
    have hget := (validateChildAuthority_prior hprior).2.1
    have hevidence := h.validateChildEvidence_eq hparent.1 hparent.2 hget child
    unfold parentPlanOf at hprior hevidence
    simp only [hprior, hversions]
    show (validateChildParent _ _ _ _ _ >>= _) = (validateChildParent _ _ _ _ _ >>= _)
    exact bind_congr fun run => by rw [hevidence run]

theorem Reordered.followChain_eq (h : Reordered a b) {chain : List ReplacementPlan}
    (hchain : ∀ child ∈ chain, Fits contracts a child.plan) (entryId : String)
    (parent : Option ReplacementPlan) (hparent : Fits contracts a (parentPlanOf root parent))
    (ordinal : ℕ) (entry : AdmittedTrialEntry) :
    followChain contracts root entryId a ordinal parent entry chain =
      followChain contracts root entryId b ordinal parent entry chain := by
  induction chain generalizing ordinal parent entry with
  | nil => rfl
  | cons child rest ih =>
    rw [List.forall_mem_cons] at hchain
    rw [followChain, followChain, h.followChild_eq hparent,
      ih hchain.2 (some child) hchain.1]

theorem Reordered.leafRun_eq (h : Reordered a b) (leaf : AdmittedTrialEntry)
    (chain : List ReplacementPlan) : leafRun leaf chain a = leafRun leaf chain b := by
  have hperm := h.versionsOf_perm leaf.runId
  unfold leafRun
  by_cases hlength : (a.versionsOf leaf.runId).length > 1
  · have hb : (b.versionsOf leaf.runId).length > 1 := hperm.length_eq ▸ hlength
    simp only [refuseIf, if_pos hlength, if_pos hb]
    rfl
  · have hsame : a.versionsOf leaf.runId = b.versionsOf leaf.runId := by
      cases ha : a.versionsOf leaf.runId with
      | nil =>
        rw [ha] at hperm
        exact hperm.nil_eq
      | cons first rest =>
        rw [ha] at hperm hlength
        have hrest : rest = [] := by
          rw [← List.length_eq_zero_iff]
          simp only [List.length_cons] at hlength
          omega
        subst hrest
        exact (List.singleton_perm.mp hperm)
    rw [hsame]

theorem Reordered.settleSlot_ok (h : Reordered a b) {linked linked' : List ReplacementPlan}
    (hlinked : linked.Perm linked') (hroot : Fits contracts a root)
    (hfits : ∀ child ∈ linked, Fits contracts a child.plan)
    {item : String × AdmittedTrialEntry} (hitem : item ∈ root.entries.entries) {slot : Slot}
    (hslot : settleSlot contracts root a
      (Dict.collect (fun child => child.origin.rootEntryId) linked) item = .ok slot) :
    settleSlot contracts root b
      (Dict.collect (fun child => child.origin.rootEntryId) linked') item = .ok slot := by
  have hsettled := settleSlot_spec (fun child hchild => (hfits child hchild).1) hitem hslot
  have hchain : chainOf linked item.1 = chainOf linked' item.1 := by
    apply sortBy_eq_of_perm (hlinked.filter _)
    -- the chain was followed, so its ordinals are distinct
    have hnodup : ((chainOf linked item.1).map fun child => child.origin.ordinal).Nodup := by
      rw [hsettled.followed.ordinals]
      exact List.nodup_range'
    exact ((sortBy_perm _ _).map _).nodup_iff.mp hnodup
  have hchainFits : ∀ child ∈ chainOf linked item.1, Fits contracts a child.plan :=
    fun child hchild => hfits child (mem_of_mem_chainOf hchild)
  have hfollow := h.followChain_eq hchainFits item.1 none hroot 1 item.2
  unfold settleSlot at hslot ⊢
  rw [chainOf_eq_sortBy] at hslot ⊢
  simp only [← hchain, ← h.leafRun_eq, ← hfollow]
  exact hslot

end Lineage

section Reconcile

variable {contracts : Contracts} {root : AdmittedTrialPlan}

theorem Plans.all_perm {plans plans' : Plans} (hroot : plans.root = plans'.root)
    (h : plans.replacements.Perm plans'.replacements) : plans.all.Perm plans'.all := by
  unfold Plans.all
  rw [hroot]
  exact (h.map _).cons _

theorem linkPlans_perm {seen : List String} {candidates candidates' : List AdmittedTrialPlan}
    {linked : List ReplacementPlan} (h : linkPlans contracts seen candidates = .ok linked)
    (hperm : candidates.Perm candidates') :
    linkPlans contracts seen candidates' = .ok (linkedPlans candidates') ∧
      linked.Perm (linkedPlans candidates') := by
  obtain ⟨hmap, hvalid, hnodup, hfresh⟩ := linkPlans_ok_iff.mp h
  have hlinked : linked.Perm (linkedPlans candidates') := by
    rw [← linkedPlans_map_plan linked, hmap]
    exact hperm.filterMap _
  refine ⟨linkPlans_ok_iff.mpr ⟨?_, ?_, (hperm.map _).nodup_iff.mp hnodup, ?_⟩, hlinked⟩
  · unfold linkedPlans
    rw [List.map_filterMap]
    have hsome : ∀ plan ∈ candidates',
        (replacementPlan? plan).map ReplacementPlan.plan = some plan := by
      intro plan hplan
      rw [← hperm.mem_iff, ← hmap] at hplan
      obtain ⟨child, -, rfl⟩ := List.mem_map.mp hplan
      rw [replacementPlan?_eq_some_iff.mpr rfl, Option.map_some]
    rw [List.filterMap_congr hsome, List.filterMap_some]
  · exact fun plan hplan => hvalid plan (hperm.mem_iff.mpr hplan)
  · exact fun plan hplan => hfresh plan (hperm.mem_iff.mpr hplan)

theorem indexRun_perm {plans plans' : Plans} (hall : plans.all.Perm plans'.all)
    (hnodup : (plans.all.map AdmittedTrialPlan.planId).Nodup)
    {receipts receipts' : List TrialCleanupReceipt} (hreceipts : receipts.Perm receipts')
    (hids : (receipts.map TrialCleanupReceipt.receiptId).Nodup) (run : ExperimentRun) :
    indexRun contracts plans receipts run = indexRun contracts plans' receipts' run := by
  have hplans : ∀ planId, plans.get? planId = plans'.get? planId :=
    fun planId => find?_key_of_perm hall hnodup planId
  unfold indexRun
  cases run.trialProvenance with
  | none => rfl
  | some linkage =>
    have hperm := receiptsOfEntry_perm hreceipts linkage.planEntryId
    have hset : SameSet (linkage.executionAttempts.map TrialExecutionAttempt.cleanupReceiptRef)
        ((receiptsOfEntry receipts linkage.planEntryId).map TrialCleanupReceipt.receiptId) ↔
        SameSet (linkage.executionAttempts.map TrialExecutionAttempt.cleanupReceiptRef)
        ((receiptsOfEntry receipts' linkage.planEntryId).map TrialCleanupReceipt.receiptId) :=
      SameSet.perm_iff (List.Perm.refl _) (hperm.map _)
    simp only [hplans, validateAdmittedTrialRun_perm hperm (receiptsOfEntry_nodup hids _), hset,
      hperm.length_eq]

namespace Accepted

variable {replacementPlans : List AdmittedTrialPlan} {archive : Archive} {plans : Plans}
  {slots : List Slot}

section

variable (h : Accepted contracts root replacementPlans archive plans slots)
include h

theorem reordered {archive' : Archive} (hruns : archive.runs.Perm archive'.runs)
    (hreceipts : archive.receipts.Perm archive'.receipts) : Reordered archive archive' := by
  obtain ⟨-, hversions, hindexed, -⟩ := indexArchive_ok_iff.mp h.indexed
  obtain ⟨hids, hattempts, -⟩ := indexReceipts_ok_iff.mp hindexed
  exact ⟨hruns, hreceipts, hversions, hids, hattempts⟩

theorem planIds_nodup : (plans.all.map AdmittedTrialPlan.planId).Nodup := by
  have hlinked := (indexPlans_ok_iff.mp h.indexedPlans).1
  obtain ⟨hmap, -, hnodup, hfresh⟩ := linkPlans_ok_iff.mp hlinked
  unfold Plans.all
  rw [hmap, h.root_eq, List.map_cons, List.nodup_cons]
  refine ⟨fun hmem => ?_, hnodup⟩
  obtain ⟨plan, hplan, hid⟩ := List.mem_map.mp hmem
  exact hfresh plan hplan (List.mem_singleton.mpr hid)

theorem fits : Fits contracts archive root ∧
      ∀ child ∈ plans.replacements, Fits contracts archive child.plan := by
  obtain ⟨-, -, hindexed, -⟩ := indexArchive_ok_iff.mp h.indexed
  have hfit := (indexReceipts_ok_iff.mp hindexed).2.2.1
  unfold Plans.all at hfit
  rw [List.forall_mem_cons, h.root_eq] at hfit
  refine ⟨⟨h.valid, hfit.1⟩, fun child hchild => ⟨h.linked.2 child hchild, ?_⟩⟩
  exact hfit.2 _ (List.mem_map_of_mem hchild)

end

theorem perm (h : Accepted contracts root replacementPlans archive plans slots)
    {replacementPlans' : List AdmittedTrialPlan} {archive' : Archive}
    (hplans : replacementPlans.Perm replacementPlans') (hruns : archive.runs.Perm archive'.runs)
    (hreceipts : archive.receipts.Perm archive'.receipts) :
    Accepted contracts root replacementPlans' archive'
      ⟨root, linkedPlans replacementPlans'⟩ slots := by
  have hreordered := h.reordered hruns hreceipts
  obtain ⟨hindexedPlans, hversions, hindexed, hjoined⟩ :=
    indexArchive_ok_iff.mp h.indexed
  obtain ⟨hlinked, hroot, hrunIds, hentryIds⟩ := indexPlans_ok_iff.mp hindexedPlans
  obtain ⟨hlinked', hperm⟩ := linkPlans_perm hlinked hplans
  have hall : plans.all.Perm (Plans.all ⟨root, linkedPlans replacementPlans'⟩) :=
    Plans.all_perm hroot hperm
  have hentries : plans.allEntries.Perm
      (Plans.allEntries ⟨root, linkedPlans replacementPlans'⟩) := hall.flatMap_right _
  obtain ⟨hids, hattempts, hfit, hknown⟩ := indexReceipts_ok_iff.mp hindexed
  exact
    { valid := h.valid
      runContents := fun run hrun => h.runContents run (hruns.mem_iff.mpr hrun)
      receiptContents := fun receipt hreceipt =>
        h.receiptContents receipt (hreceipts.mem_iff.mpr hreceipt)
      original := by
        have horiginal := h.original
        unfold validateOriginal at horiginal ⊢
        rw [← hplans.length_eq]
        exact horiginal
      indexed := by
        refine indexArchive_ok_iff.mpr
          ⟨indexPlans_ok_iff.mpr ⟨hlinked', rfl, ?_, ?_⟩,
            (hruns.map _).nodup_iff.mp hversions, ?_, ?_⟩
        · exact (hentries.map _).nodup_iff.mp hrunIds
        · exact (hentries.map _).nodup_iff.mp hentryIds
        · refine indexReceipts_ok_iff.mpr ⟨(hreceipts.map _).nodup_iff.mp hids,
            (hreceipts.map _).nodup_iff.mp hattempts, ?_, ?_⟩
          · exact fun plan hplan => (hfit plan (hall.mem_iff.mpr hplan)).perm hreceipts
          · intro receipt hreceipt
            rw [← (hentries.map _).mem_iff]
            exact hknown receipt (hreceipts.mem_iff.mpr hreceipt)
        · intro run hrun
          rw [← indexRun_perm hall h.planIds_nodup hreceipts hids]
          exact hjoined run (hruns.mem_iff.mpr hrun)
      roots := by
        intro child hchild
        have hroots := h.roots child (hperm.mem_iff.mpr hchild)
        rw [h.root_eq] at hroots
        exact hroots
      settled := by
        refine forall₂_imp_of_mem h.settled ?_
        intro item hitem slot hslot
        exact hreordered.settleSlot_ok hperm h.fits.1 h.fits.2
          ((sortBy_perm _ _).mem_iff.mp hitem) hslot
      superseded := fun run hrun => h.superseded run (hruns.mem_iff.mpr hrun) }

end Accepted

/-- An accepted reconciliation accounts for every run once, and its answer does not
depend on the order of the plans, the runs and the receipts. -/
theorem reconcile_accounts_once (contracts : Contracts) (root : AdmittedTrialPlan)
    (replacementPlans : List AdmittedTrialPlan) (runs : List ExperimentRun)
    (cleanupReceipts : List TrialCleanupReceipt) (answer : ReplacementTrialReconciliation)
    (h : reconcileReplacementTrials contracts root replacementPlans runs cleanupReceipts =
      .ok answer) :
    AccountedOnce root replacementPlans runs answer ∧
      ∀ replacementPlans' runs' cleanupReceipts', replacementPlans.Perm replacementPlans' →
        runs.Perm runs' → cleanupReceipts.Perm cleanupReceipts' →
        reconcileReplacementTrials contracts root replacementPlans' runs' cleanupReceipts' =
          .ok answer := by
  obtain ⟨plans, slots, haccepted, rfl⟩ := reconcile_ok_iff.mp h
  refine ⟨haccepted.accountedOnce, ?_⟩
  intro replacementPlans' runs' cleanupReceipts' hplans hruns hreceipts
  exact reconcile_ok_iff.mpr
    ⟨_, slots, haccepted.perm hplans hruns hreceipts, rfl⟩

def openContracts : Contracts where
  planContent := fun _ => .ok ()
  runContent := fun _ => .ok ()
  receiptContent := fun _ => .ok ()
  runDigest := fun run => run.runId ++ "/" ++ run.runVersion
  sameReceipt := fun a b => a.receiptId == b.receiptId
  sameConfigurations := fun _ _ => true
  runSelectionProvenance := fun _ _ => .ok ()
  runBindingProvenance := fun _ _ => .ok ()
  runStochasticProvenance := fun _ _ _ => .ok ()

def trialPlan (planId entryId runId profile : String) (origin : Option TrialReplacementOrigin) :
    AdmittedTrialPlan where
  planId := planId
  compilerProfile := profile
  authoringInputRef := ⟨"authoring-input", "study", none, none, none⟩
  taskRef := ⟨"task", "task", none, none, none⟩
  cleanupPlans := Dict.empty.set "cleanup" {
    planId := "cleanup", planEntryId := entryId, runId := runId, cleanStateMode := .fresh
    resourceBoundaries := ["range"], cleanupObligations := Dict.empty, maxAttempts := 1 }
  replacementPolicy := some ⟨1, [.failed]⟩
  replacementOrigin := origin
  entries := Dict.empty.set entryId {
    planEntryId := entryId, runId := runId, entryDigest := entryId
    coordinate := ⟨some "baseline", none, none⟩, cleanupPlanRef := "cleanup", content := .null }
  planDigest := planId
  content := .null

def trialRun (plan : AdmittedTrialPlan) (entryId runId version attempt : String)
    (status : RunStatus) : ExperimentRun where
  recordState := .archival
  executionAccounting := none
  runId := runId
  runVersion := version
  taskRef := plan.taskRef
  scenarioDigest := "scenario"
  trialProvenance := some {
    planId := plan.planId, planDigest := plan.planDigest, planEntryId := entryId
    entryDigest := entryId, admittedRunId := runId, coordinate := ⟨some "baseline", none, none⟩
    instantiatedScenarioDigest := "scenario"
    executionAttempts := [⟨attempt, attempt ++ "-receipt"⟩], terminalAttemptId := attempt }
  endedAt := some "2024-01-01T00:00:00Z"
  runStatus := status
  outcomeStatus := .failed
  invalidation := none
  derivedFromRefs := []
  validationBasisDisclosures := []
  evidenceRequirementRelations := []
  content := .null

def cleanReceipt (entryId runId attempt : String) (outcome : TrialOutcome) :
    TrialCleanupReceipt where
  receiptId := attempt ++ "-receipt"
  cleanupPlanRef := "cleanup"
  planEntryId := entryId
  runId := runId
  executionAttemptId := attempt
  trialOutcome := outcome
  cleanupStatus := .succeeded
  obligationResults := Dict.empty
  cleanStateClaim := some ⟨.verifiedClean, ["range"]⟩
  content := .null

def originalPlan : AdmittedTrialPlan :=
  trialPlan "plan" "entry" "run" "trial-compiler-v1" none

def successorPlan : AdmittedTrialPlan :=
  trialPlan "plan-2" "entry-2" "run-2" "trial-compiler-replacement-v1" (some {
    rootPlanId := "plan", rootPlanDigest := "plan", rootEntryId := "entry", ordinal := 1
    parentPlanId := "plan", parentPlanDigest := "plan", parentEntryId := "entry"
    parentRunId := "run", parentRunVersion := "1", parentRunDigest := "run/1"
    cleanupReceiptRef := "attempt-receipt" })

/-- A failed trial, its superseded version, and the trial that replaces it. -/
theorem reconcile_accounts_once_replaced : ∃ answer,
    reconcileReplacementTrials openContracts originalPlan [successorPlan]
      [trialRun originalPlan "entry" "run" "1" "attempt" .failed,
        trialRun originalPlan "entry" "run" "1.superseded-1" "attempt" .superseded,
        trialRun successorPlan "entry-2" "run-2" "1" "attempt-2" .completed]
      [cleanReceipt "entry" "run" "attempt" .failed,
        cleanReceipt "entry-2" "run-2" "attempt-2" .succeeded] = .ok answer ∧
    AccountedOnce originalPlan [successorPlan]
      [trialRun originalPlan "entry" "run" "1" "attempt" .failed,
        trialRun originalPlan "entry" "run" "1.superseded-1" "attempt" .superseded,
        trialRun successorPlan "entry-2" "run-2" "1" "attempt-2" .completed] answer := by
  obtain ⟨answer, h⟩ := exists_ok_of_toBool
    (x := reconcileReplacementTrials openContracts originalPlan [successorPlan]
      [trialRun originalPlan "entry" "run" "1" "attempt" .failed,
        trialRun originalPlan "entry" "run" "1.superseded-1" "attempt" .superseded,
        trialRun successorPlan "entry-2" "run-2" "1" "attempt-2" .completed]
      [cleanReceipt "entry" "run" "attempt" .failed,
        cleanReceipt "entry-2" "run-2" "attempt-2" .succeeded]) (by decide +kernel)
  exact ⟨answer, h, (reconcile_accounts_once _ _ _ _ _ answer h).1⟩

end Reconcile

end Raes.Replacement
