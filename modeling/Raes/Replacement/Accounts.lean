import Mathlib.Data.List.Perm.Basic
import Raes.Replacement.Reconcile

/-!
# The accounts of a replacement lineage

Every slot of the original plan has one account for its own entry and one for each
replacement in its chain.  The run ids of the accounts are those of all admitted
entries, so a retained run has one account: as the replaced parent of one origin,
or as the leaf of its slot.
-/

namespace Raes.Replacement

/-! ## The plans -/

theorem replacementPlan?_eq_some_iff {plan : AdmittedTrialPlan} {child : ReplacementPlan} :
    replacementPlan? plan = some child ↔ child.plan = plan := by
  constructor
  · intro h
    unfold replacementPlan? at h
    split at h
    · cases h
      rfl
    · cases h
  · rintro rfl
    unfold replacementPlan?
    split
    · next origin entry horigin hentries =>
      obtain ⟨plan, origin', entry', hlinked, hsingle⟩ := child
      have ho : origin' = origin := Option.some.inj (hlinked.symm.trans horigin)
      have he : entry' = entry := (List.cons.inj (hsingle.symm.trans hentries)).1
      subst ho he
      rfl
    · next hnone => exact (hnone _ _ child.linked child.single).elim

def linkedPlans (plans : List AdmittedTrialPlan) : List ReplacementPlan :=
  plans.filterMap replacementPlan?

theorem linkedPlans_map_plan (linked : List ReplacementPlan) :
    linkedPlans (linked.map ReplacementPlan.plan) = linked := by
  unfold linkedPlans
  rw [List.filterMap_map]
  have hsome : (replacementPlan? ∘ ReplacementPlan.plan) = some :=
    funext fun child => replacementPlan?_eq_some_iff.mpr rfl
  rw [hsome, List.filterMap_some]

variable {contracts : Contracts}

theorem linkPlans_ok_iff {seen : List String}
    {candidates : List AdmittedTrialPlan} {linked : List ReplacementPlan} :
    linkPlans contracts seen candidates = .ok linked ↔
      linked.map ReplacementPlan.plan = candidates ∧
      (∀ plan ∈ candidates, plan.validatePlan contracts = .ok ()) ∧
      (candidates.map AdmittedTrialPlan.planId).Nodup ∧
      ∀ plan ∈ candidates, plan.planId ∉ seen := by
  induction candidates generalizing seen linked with
  | nil =>
    rw [linkPlans]
    constructor
    · intro h
      cases h
      exact ⟨rfl, fun _ h => (nomatch h), List.nodup_nil, fun _ h => (nomatch h)⟩
    · rintro ⟨hmap, -⟩
      rw [List.map_eq_nil_iff.mp hmap]
  | cons candidate rest ih =>
    rw [linkPlans, bind_eq_ok_iff]
    simp only [revalidated_ok_iff]
    rw [List.forall_mem_cons, List.forall_mem_cons, List.map_cons, List.nodup_cons,
      List.map_eq_cons_iff]
    constructor
    · rintro ⟨plan, ⟨hvalid, rfl⟩, h⟩
      cases hchild : replacementPlan? plan with
      | none =>
        rw [hchild] at h
        cases h
      | some child =>
        rw [hchild] at h
        simp only [refuseIf_eq_ok_iff, bind_eq_ok_iff, ih] at h
        obtain ⟨u, hseen, tail, ⟨rfl, hrest, hnodup, hfresh⟩, h⟩ := h
        cases h
        have hplan := replacementPlan?_eq_some_iff.mp hchild
        refine ⟨⟨child, tail, rfl, hplan, rfl⟩, ⟨hvalid, hrest⟩, ⟨?_, hnodup⟩, hseen, ?_⟩
        · intro hmem
          obtain ⟨other, hother, hid⟩ := List.mem_map.mp hmem
          exact hfresh other hother (hid ▸ List.mem_cons_self)
        · exact fun other hother hmem => hfresh other hother (List.mem_cons_of_mem _ hmem)
    · rintro ⟨⟨child, tail, rfl, rfl, rfl⟩, ⟨hvalid, hrest⟩, ⟨hnew, hnodup⟩, hseen, hfresh⟩
      refine ⟨child.plan, ⟨hvalid, rfl⟩, ?_⟩
      rw [replacementPlan?_eq_some_iff.mpr rfl]
      simp only [refuseIf_eq_ok_iff, bind_eq_ok_iff, ih]
      refine ⟨(), hseen, tail, ⟨rfl, hrest, hnodup, ?_⟩, rfl⟩
      intro other hother hmem
      rcases List.mem_cons.mp hmem with hid | hmem
      · exact hnew (List.mem_map.mpr ⟨other, hother, hid⟩)
      · exact hfresh other hother hmem

/-- What `_index_plans` accepts. -/
theorem indexPlans_ok_iff {root : AdmittedTrialPlan}
    {replacements : List AdmittedTrialPlan} {plans : Plans} :
    indexPlans contracts root replacements = .ok plans ↔
      linkPlans contracts [root.planId] replacements = .ok plans.replacements ∧
      plans.root = root ∧ (plans.allEntries.map AdmittedTrialEntry.runId).Nodup ∧
      (plans.allEntries.map AdmittedTrialEntry.planEntryId).Nodup := by
  unfold indexPlans
  simp only [bind_eq_ok_iff, refuseIf_eq_ok_iff, not_or, not_not]
  constructor
  · rintro ⟨linked, hlinked, u, hnodup, h⟩
    cases h
    exact ⟨hlinked, rfl, hnodup⟩
  · rintro ⟨hlinked, rfl, hnodup⟩
    exact ⟨plans.replacements, hlinked, (), hnodup, rfl⟩

/-! ## One run against its plan -/

theorem runId_of_validateAdmittedTrialRun {plan : AdmittedTrialPlan}
    {run : ExperimentRun} {receipts : List TrialCleanupReceipt}
    (h : validateAdmittedTrialRun contracts plan run receipts = .ok ()) :
    ∃ entry ∈ plan.entries.values, entry.runId = run.runId := by
  unfold validateAdmittedTrialRun at h
  rw [seq_eq_ok_iff] at h
  obtain ⟨-, h⟩ := h
  by_cases hpartial : run.recordState = .partialRecord
  · -- a partial record is joined by its accounting
    rw [if_pos (Or.inl hpartial), seq_eq_ok_iff] at h
    obtain ⟨h, -⟩ := h
    unfold validateTrialAccounting at h
    cases haccounting : run.executionAccounting with
    | none =>
      rw [haccounting] at h
      cases h
    | some accounting =>
      rw [haccounting] at h
      simp only [bind_eq_ok_iff] at h
      obtain ⟨-, -, entry, hentry, -⟩ := h
      unfold accountedEntry at hentry
      cases hget : plan.entries.get? accounting.planEntryId with
      | none =>
        rw [hget] at hentry
        cases hentry
      | some found =>
        rw [hget] at hentry
        simp only [bind_eq_ok_iff, refuseIf_eq_ok_iff, not_or, not_not] at hentry
        exact ⟨found, Dict.mem_values_iff.mpr ⟨_, hget⟩, hentry.choose_spec.1.2⟩
  · -- an archival record is joined by its provenance
    have harchival : validateArchivalRun contracts plan run receipts = .ok () := by
      rw [if_neg hpartial] at h
      split at h
      · rw [seq_eq_ok_iff] at h
        exact h.2
      · exact h
    unfold validateArchivalRun at harchival
    rw [bind_eq_ok_iff] at harchival
    obtain ⟨found, hlinkage, -⟩ := harchival
    unfold validateRunPlanLinkage at hlinkage
    cases hprovenance : run.trialProvenance with
    | none =>
      rw [hprovenance] at hlinkage
      cases hlinkage
    | some linkage =>
      rw [hprovenance] at hlinkage
      simp only [bind_eq_ok_iff] at hlinkage
      obtain ⟨-, -, hlinkage⟩ := hlinkage
      cases hget : plan.entries.get? linkage.planEntryId with
      | none =>
        rw [hget] at hlinkage
        cases hlinkage
      | some entry =>
        rw [hget] at hlinkage
        simp only [bind_eq_ok_iff, refuseIf_eq_ok_iff, not_or, not_not] at hlinkage
        obtain ⟨-, hjoin, -⟩ := hlinkage
        exact ⟨entry, Dict.mem_values_iff.mpr ⟨_, hget⟩, hjoin.2.2.2.symm⟩

/-! ## The accounts of a slot -/

/-- The account of one entry of a slot: the origin that replaced its run, or nothing
for the leaf. -/
structure SlotAccount where
  (rootEntryId runId : String)
  replacedBy : Option TrialReplacementOrigin
  deriving DecidableEq

def slotAccounts (entryId : String) :
    AdmittedTrialEntry → List ReplacementPlan → List SlotAccount
  | entry, [] => [⟨entryId, entry.runId, none⟩]
  | entry, child :: rest =>
    ⟨entryId, entry.runId, some child.origin⟩ :: slotAccounts entryId child.entry rest

def chainOf (linked : List ReplacementPlan) (entryId : String) : List ReplacementPlan :=
  sortBy (fun child => child.origin.ordinal)
    (linked.filter fun child => child.origin.rootEntryId = entryId)

def accounts (root : AdmittedTrialPlan) (linked : List ReplacementPlan) : List SlotAccount :=
  root.entries.entries.flatMap fun item => slotAccounts item.1 item.2 (chainOf linked item.1)

theorem slotAccounts_runIds (entryId : String) (entry : AdmittedTrialEntry)
    (chain : List ReplacementPlan) :
    (slotAccounts entryId entry chain).map SlotAccount.runId =
      entry.runId :: chain.map fun child => child.entry.runId := by
  induction chain generalizing entry with
  | nil => rfl
  | cons child rest ih =>
    rw [slotAccounts, List.map_cons, ih]
    rfl

variable {account : SlotAccount}

theorem rootEntryId_of_mem_slotAccounts {entryId : String} {entry : AdmittedTrialEntry}
    {chain : List ReplacementPlan}
    (h : account ∈ slotAccounts entryId entry chain) : account.rootEntryId = entryId := by
  induction chain generalizing entry with
  | nil =>
    rw [List.mem_singleton.mp h]
  | cons child rest ih =>
    rcases List.mem_cons.mp h with rfl | h
    · rfl
    · exact ih h

theorem mem_accounts_iff {root : AdmittedTrialPlan} {linked : List ReplacementPlan} :
    account ∈ accounts root linked ↔ ∃ entry,
      root.entries.get? account.rootEntryId = some entry ∧
      account ∈ slotAccounts account.rootEntryId entry (chainOf linked account.rootEntryId) := by
  unfold accounts
  rw [List.mem_flatMap]
  constructor
  · rintro ⟨item, hitem, haccount⟩
    have hid := rootEntryId_of_mem_slotAccounts haccount
    rw [hid]
    exact ⟨item.2, Dict.get?_eq_some_iff.mpr hitem, haccount⟩
  · rintro ⟨entry, hentry, haccount⟩
    exact ⟨(account.rootEntryId, entry), Dict.get?_eq_some_iff.mp hentry, haccount⟩

theorem accounts_runIds_perm (plans : Plans)
    (hroots : ∀ child ∈ plans.replacements, child.origin.rootEntryId ∈ plans.root.entries.keys) :
    ((accounts plans.root plans.replacements).map SlotAccount.runId).Perm
      (plans.allEntries.map AdmittedTrialEntry.runId) := by
  have hchains : ((plans.root.entries.keys.flatMap (chainOf plans.replacements)).map
      fun child => child.entry.runId).Perm
      (plans.replacements.map fun child => child.entry.runId) := by
    apply List.Perm.map
    refine List.Perm.trans ?_
      (flatMap_filter_perm plans.root.entries.keys_nodup hroots)
    exact List.Perm.flatMap_left _ fun entryId _ => sortBy_perm _ _
  have hentries : plans.allEntries.map AdmittedTrialEntry.runId =
      plans.root.entries.values.map AdmittedTrialEntry.runId ++
        plans.replacements.map fun child => child.entry.runId := by
    unfold Plans.allEntries Plans.all
    rw [List.flatMap_cons, List.map_append, List.flatMap_map]
    congr 1
    have hsingle : (plans.replacements.flatMap fun child => child.plan.entries.values) =
        plans.replacements.map ReplacementPlan.entry := by
      rw [List.map_eq_flatMap]
      exact List.flatMap_congr fun child _ => child.single
    rw [hsingle, List.map_map]
    rfl
  have haccounts : (accounts plans.root plans.replacements).map SlotAccount.runId =
      plans.root.entries.entries.flatMap fun item =>
        [item.2.runId] ++
          (chainOf plans.replacements item.1).map fun child => child.entry.runId := by
    unfold accounts
    rw [List.map_flatMap]
    exact List.flatMap_congr fun item _ => slotAccounts_runIds _ _ _
  rw [hentries, haccounts]
  refine (List.flatMap_append_perm _ _ _).symm.trans (List.Perm.append ?_ ?_)
  · have hvalues : (plans.root.entries.entries.flatMap fun item => [item.2.runId]) =
        plans.root.entries.values.map AdmittedTrialEntry.runId := by
      unfold Dict.values
      rw [List.map_map, List.map_eq_flatMap]
      rfl
    rw [hvalues]
  · refine List.Perm.trans ?_ hchains
    unfold Dict.keys
    rw [List.flatMap_map, List.map_flatMap]

theorem filter_accounts_eq {plans : Plans}
    (hroots : ∀ child ∈ plans.replacements, child.origin.rootEntryId ∈ plans.root.entries.keys)
    (hnodup : (plans.allEntries.map AdmittedTrialEntry.runId).Nodup)
    (haccount : account ∈ accounts plans.root plans.replacements) :
    (accounts plans.root plans.replacements).filter (fun a => a.runId = account.runId) =
      [account] := by
  have hids := (accounts_runIds_perm plans hroots).nodup_iff.mpr hnodup
  have hsame : (accounts plans.root plans.replacements).filter
      (fun a => a.runId = account.runId) =
      (accounts plans.root plans.replacements).filter (fun a => a == account) := by
    apply List.filter_congr
    intro a ha
    rw [Bool.eq_iff_iff, decide_eq_true_iff, beq_iff_eq]
    exact ⟨fun h => eq_of_key_eq hids ha haccount h, fun h => h ▸ rfl⟩
  rw [hsame, List.filter_beq, List.count_eq_one_of_mem hids.of_map haccount]
  rfl

/-! ## The chain of a slot -/

theorem versionsOf_eq (archive : Archive) (runId : String) :
    archive.versionsOf runId = archive.runs.filter fun run => run.runId = runId :=
  Dict.getD_collect _ _ _

def KeepsReplaced (archive : Archive) (origin : TrialReplacementOrigin) : Prop :=
  SameSet ((archive.versionsOf origin.parentRunId).map ExperimentRun.runVersion)
    [origin.parentRunVersion, supersededVersion origin.parentRunVersion origin.ordinal]

/-- The plan that holds the parent of a child, and the key of its entry. -/
def parentPlanOf (root : AdmittedTrialPlan) (parent : Option ReplacementPlan) :
    AdmittedTrialPlan :=
  (parent.map ReplacementPlan.plan).getD root

def parentKeyOf (entryId : String) (parent : Option ReplacementPlan) : String :=
  (parent.map fun parent => parent.entry.planEntryId).getD entryId

section Chain

variable {contracts : Contracts} {root : AdmittedTrialPlan} {entryId : String} {archive : Archive}
  {ordinal : ℕ} {parent : Option ReplacementPlan}

variable {parentPlan : AdmittedTrialPlan} {child : ReplacementPlan}

theorem validateChildAuthority_prior {prior : AdmittedTrialEntry}
    (h : validateChildAuthority root parentPlan child = .ok prior) :
    child.plan.replacementPolicy = root.replacementPolicy ∧
      parentPlan.entries.get? child.origin.parentEntryId = some prior ∧
      prior.runId = child.origin.parentRunId := by
  unfold validateChildAuthority at h
  simp only [bind_eq_ok_iff, refuseIf_eq_ok_iff, not_or, not_not] at h
  obtain ⟨-, -, -, hpolicy, h⟩ := h
  cases horiginal : root.entries.get? child.origin.rootEntryId with
  | none =>
    rw [horiginal] at h
    cases h
  | some originalEntry =>
    rw [horiginal] at h
    cases hprior : parentPlan.entries.get? child.origin.parentEntryId with
    | none =>
      rw [hprior] at h
      cases h
    | some found =>
      rw [hprior] at h
      simp only [bind_eq_ok_iff, refuseIf_eq_ok_iff, not_not] at h
      obtain ⟨-, hrun, -, -, h⟩ := h
      cases h
      exact ⟨hpolicy.1, rfl, hrun⟩

theorem validateChildParent_version {run : ExperimentRun}
    (h : validateChildParent contracts root parentPlan child archive = .ok run) :
    run.runVersion = child.origin.parentRunVersion := by
  unfold validateChildParent at h
  cases hversion : archive.version? (child.origin.parentRunId, child.origin.parentRunVersion) with
  | none =>
    rw [hversion] at h
    cases h
  | some found =>
    rw [hversion] at h
    simp only [bind_eq_ok_iff] at h
    obtain ⟨-, -, -, -, -, -, -, -, h⟩ := h
    cases h
    have hkey := List.find?_some hversion
    rw [beq_iff_eq] at hkey
    exact congrArg Prod.snd hkey

theorem validateChildEvidence_version {prior : AdmittedTrialEntry} {run superseded : ExperimentRun}
    (h : validateChildEvidence contracts parentPlan child prior run archive = .ok superseded) :
    superseded.runVersion = supersededVersion run.runVersion child.origin.ordinal := by
  unfold validateChildEvidence at h
  simp only [bind_eq_ok_iff] at h
  obtain ⟨-, -, -, -, -, -, built, hbuilt, h⟩ := h
  cases hversion : archive.version? (runKey built) with
  | none =>
    rw [hversion] at h
    cases h
  | some retained =>
    rw [hversion] at h
    simp only [bind_eq_ok_iff] at h
    obtain ⟨-, -, h⟩ := h
    cases h
    exact (buildSupersededTrialRun_key hbuilt).2

theorem followChild_spec
    (h : followChild contracts root entryId archive ordinal parent child = .ok ()) :
    child.origin.ordinal = ordinal ∧
      child.origin.parentEntryId = parentKeyOf entryId parent ∧
      child.plan.replacementPolicy = root.replacementPolicy ∧
      (∃ prior, (parentPlanOf root parent).entries.get? child.origin.parentEntryId = some prior ∧
        prior.runId = child.origin.parentRunId) ∧
      KeepsReplaced archive child.origin := by
  unfold followChild at h
  simp only [bind_eq_ok_iff, refuseIf_eq_ok_iff, not_or, not_not] at h
  obtain ⟨-, ⟨hordinal, -, hparent⟩, prior, hprior, run, hrun, superseded, hsuperseded, hkept⟩ := h
  obtain ⟨hpolicy, hget, hid⟩ := validateChildAuthority_prior hprior
  refine ⟨hordinal, hparent, hpolicy, ⟨prior, hget, hid⟩, ?_⟩
  unfold KeepsReplaced
  rw [validateChildEvidence_version hsuperseded, validateChildParent_version hrun] at hkept
  exact hkept

/-- What following a chain establishes about its slot. -/
structure ChainFollowed (root : AdmittedTrialPlan) (archive : Archive) (entryId : String)
    (ordinal : ℕ) (entry : AdmittedTrialEntry) (chain : List ReplacementPlan)
    (leaf : AdmittedTrialEntry) (used : List String) : Prop where
  ordinals : (chain.map fun child => child.origin.ordinal) = List.range' ordinal chain.length
  policies : ∀ child ∈ chain, child.plan.replacementPolicy = root.replacementPolicy
  leafAccount : ⟨entryId, leaf.runId, none⟩ ∈ slotAccounts entryId entry chain
  leafOnly : ∀ account ∈ slotAccounts entryId entry chain,
    account.replacedBy = none → account.runId = leaf.runId
  replaced : ∀ account ∈ slotAccounts entryId entry chain, ∀ origin,
    account.replacedBy = some origin →
      origin.parentRunId = account.runId ∧ KeepsReplaced archive origin
  usedAccounts : ∀ runId ∈ used, ∃ origin,
    ⟨entryId, runId, some origin⟩ ∈ slotAccounts entryId entry chain

theorem followChain_spec {entry leaf : AdmittedTrialEntry} {chain : List ReplacementPlan}
    {used : List String}
    (h : followChain contracts root entryId archive ordinal parent entry chain = .ok (leaf, used))
    (hentry : (parentPlanOf root parent).entries.get? (parentKeyOf entryId parent) = some entry)
    (hvalid : ∀ child ∈ chain, child.plan.validatePlan contracts = .ok ()) :
    ChainFollowed root archive entryId ordinal entry chain leaf used := by
  induction chain generalizing ordinal parent entry used with
  | nil =>
    cases h
    exact
      { ordinals := rfl
        policies := fun _ h => (nomatch h)
        leafAccount := List.mem_singleton.mpr rfl
        leafOnly := fun account haccount _ => by rw [List.mem_singleton.mp haccount]
        replaced := fun account haccount origin horigin => by
          rw [List.mem_singleton.mp haccount] at horigin
          cases horigin
        usedAccounts := fun _ h => (nomatch h) }
  | cons child rest ih =>
    rw [followChain, seq_eq_ok_iff, bind_eq_ok_iff] at h
    obtain ⟨hchild, ⟨leaf', used'⟩, hrest, h⟩ := h
    cases h
    rw [List.forall_mem_cons] at hvalid
    obtain ⟨hordinal, hparent, hpolicy, ⟨prior, hprior, hid⟩, hkept⟩ := followChild_spec hchild
    -- the entry of the parent under its key is the entry of the slot
    rw [hparent, hentry] at hprior
    cases hprior
    have hheld : (parentPlanOf root (some child)).entries.get?
        (parentKeyOf entryId (some child)) = some child.entry := by
      have hmem : child.entry ∈ child.plan.entries.values := by
        rw [child.single]
        exact List.mem_singleton.mpr rfl
      obtain ⟨k, hk⟩ := Dict.mem_values_iff.mp hmem
      have hkey := planEntryId_of_get? hvalid.1 hk
      show child.plan.entries.get? child.entry.planEntryId = some child.entry
      rw [hkey]
      exact hk
    have hfollowed := ih hrest hheld hvalid.2
    refine
      { ordinals := ?_
        policies := List.forall_mem_cons.mpr ⟨hpolicy, hfollowed.policies⟩
        leafAccount := List.mem_cons_of_mem _ hfollowed.leafAccount
        leafOnly := ?_
        replaced := ?_
        usedAccounts := ?_ }
    · rw [List.map_cons, hfollowed.ordinals, hordinal]
      rfl
    · intro account haccount hnone
      rcases List.mem_cons.mp haccount with rfl | haccount
      · cases hnone
      · exact hfollowed.leafOnly account haccount hnone
    · intro account haccount origin horigin
      rcases List.mem_cons.mp haccount with rfl | haccount
      · cases horigin
        exact ⟨hid.symm, hkept⟩
      · exact hfollowed.replaced account haccount origin horigin
    · intro runId hused
      rcases List.mem_cons.mp hused with rfl | hused
      · refine ⟨child.origin, ?_⟩
        rw [← hid]
        exact List.mem_cons_self
      · obtain ⟨origin, horigin⟩ := hfollowed.usedAccounts runId hused
        exact ⟨origin, List.mem_cons_of_mem _ horigin⟩

end Chain

end Raes.Replacement
