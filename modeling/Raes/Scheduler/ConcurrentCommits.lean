import Raes.Scheduler.ConcurrentMerge

/-!
# Runs of concurrent commits

The results of a batch have one base.  They are committed one after another,
and after each of them the scheduler writes its own tables.  A serial execution
lets each participant change the state that the one before has left.  The
commits of a batch leave what a serial execution of the committed results
leaves, and every committed change is still there at the end.
-/

namespace Raes.Scheduler

open Json (Value)
open ThreeWay (slotEq)

variable (rules : SnapshotRules) (settle : RuntimeSnapshot → Option Value × Option Value)

/-- What the scheduler writes after a result is its own tables. -/
def settled (s : RuntimeSnapshot) : RuntimeSnapshot :=
  withConcurrentSchedulerUpdates s (settle s).1 (settle s).2

variable (base : RuntimeSnapshot)

/-- One commit: a result that cannot be merged leaves the working snapshot.  The
results that were committed are remembered. -/
def commitResult (state : RuntimeSnapshot × List RuntimeSnapshot)
    (incoming : RuntimeSnapshot) : RuntimeSnapshot × List RuntimeSnapshot :=
  match stageConcurrentActionSnapshot rules base state.1 incoming with
  | .ok staged => (settled settle staged, state.2 ++ [incoming])
  | .error _ => (settled settle state.1, state.2)

def commitResults (order : List RuntimeSnapshot) : RuntimeSnapshot × List RuntimeSnapshot :=
  order.foldl (commitResult rules settle base) (base, [])

/-! ## Serial executions -/

/-- A participant changes the slots that its result changes, whatever the
participants before it have done to the others. -/
def serialStep (state : Slot → Option Value) (result : RuntimeSnapshot) : Slot → Option Value :=
  fun slot => if Changed base result slot then result.read slot else state slot

def serialRun (results : List RuntimeSnapshot) : Slot → Option Value :=
  results.foldl (serialStep base) base.read

def Overlap (base a b : RuntimeSnapshot) : Prop :=
  ∃ slot, Changed base a slot ∧ Changed base b slot

structure LosesNoUpdate (base : RuntimeSnapshot) (results : List RuntimeSnapshot) : Prop where
  /-- A result merged into the base is that result in every field it may change. -/
  single : ∀ r ∈ results, ∃ staged, stageConcurrentActionSnapshot rules base base r = .ok staged ∧
    ∀ slot, slotEq Value.same (staged.read slot) (r.read slot) = true
  /-- Results that change no common slot are both committed in either order, to
  one snapshot that holds the changes of both and nothing else. -/
  disjoint : ∀ a ∈ results, ∀ b ∈ results, ¬ Overlap base a b →
    (commitResults rules settle base [a, b]).2 = [a, b] ∧
    (commitResults rules settle base [b, a]).2 = [b, a] ∧
    (∀ slot, (commitResults rules settle base [a, b]).1.read slot =
      (commitResults rules settle base [b, a]).1.read slot) ∧
    ∀ slot, (commitResults rules settle base [a, b]).1.read slot =
      if Changed base a slot then a.read slot
      else if Changed base b slot then b.read slot else base.read slot
  /-- Of results that change a common slot, the later one is refused with the
  name of such a field, and what is committed stays. -/
  overlap : ∀ a ∈ results, ∀ b ∈ results, Overlap base a b →
    ∃ slot, Changed base a slot ∧ Changed base b slot ∧
      stageConcurrentActionSnapshot rules base (commitResults rules settle base [a]).1 b =
        .error (commitConflict slot.fieldName) ∧
      (commitResults rules settle base [a, b]).2 = [a] ∧
      ∀ slot, (commitResults rules settle base [a, b]).1.read slot =
        (commitResults rules settle base [a]).1.read slot
  /-- A merge leaves the protected fields. -/
  guarded : ∀ current incoming staged,
    stageConcurrentActionSnapshot rules base current incoming = .ok staged →
      staged.guarded = current.guarded
  /-- Whatever is committed in whatever order, the outcome is that of a serial
  execution of the committed results, and no committed change is lost. -/
  serial : ∀ order, (∀ r ∈ order, r ∈ results) →
    (commitResults rules settle base order).1.read =
      serialRun base (commitResults rules settle base order).2 ∧
    ∀ r ∈ (commitResults rules settle base order).2, ∀ slot, Changed base r slot →
      (commitResults rules settle base order).1.read slot = r.read slot

section Run

variable {rules settle} {base : RuntimeSnapshot} {results : List RuntimeSnapshot}

/-- What holds of the working snapshot and the committed results between commits. -/
structure RunInvariant (rules : SnapshotRules) (base : RuntimeSnapshot)
    (results : List RuntimeSnapshot) (state : RuntimeSnapshot × List RuntimeSnapshot) : Prop where
  committed : Committed rules base state.1
  among : ∀ r ∈ state.2, r ∈ results
  serial : state.1.read = serialRun base state.2
  kept : ∀ r ∈ state.2, ∀ slot, Changed base r slot → state.1.read slot = r.read slot

@[simp] theorem read_settled (s : RuntimeSnapshot) (slot : Slot) :
    (settled settle s).read slot = s.read slot :=
  read_withConcurrentSchedulerUpdates s _ _ slot

theorem RunInvariant.settled {state : RuntimeSnapshot × List RuntimeSnapshot}
    (h : RunInvariant rules base results state) :
    RunInvariant rules base results (Scheduler.settled settle state.1, state.2) where
  committed := h.committed.withConcurrentSchedulerUpdates _ _
  among := h.among
  serial := by
    rw [← h.serial]
    exact funext fun slot => read_settled state.1 slot
  kept r hr slot hchanged := (read_settled state.1 slot).trans (h.kept r hr slot hchanged)

theorem moved_of_read {current r : RuntimeSnapshot} {slot : Slot} (hfaithful : Faithful base r)
    (hchanged : Changed base r slot) (hread : current.read slot = r.read slot) :
    Moved base current slot := by
  unfold Moved
  rw [hread, slotEq_comm]
  exact (hfaithful.changed_iff slot).mp hchanged

/-- Merging a result keeps the invariant: its changes are new, and the changes
committed before are at other slots. -/
theorem RunInvariant.stage {state : RuntimeSnapshot × List RuntimeSnapshot}
    {incoming staged : RuntimeSnapshot} (h : RunInvariant rules base results state)
    (hfaithful : ∀ r ∈ results, Faithful base r) (hincoming : incoming ∈ results)
    (hstage : stageConcurrentActionSnapshot rules base state.1 incoming = .ok staged) :
    RunInvariant rules base results (staged, state.2 ++ [incoming]) where
  committed := h.committed.stage hstage
  among r hr := by
    rcases List.mem_append.mp hr with hr | hr
    · exact h.among r hr
    · rw [List.mem_singleton.mp hr]
      exact hincoming
  serial := by
    funext slot
    rw [read_stage hstage slot]
    unfold serialRun
    rw [List.foldl_append, List.foldl_cons, List.foldl_nil]
    unfold serialStep
    simp only [(hfaithful incoming hincoming).changed_iff slot, h.serial]
    rfl
  kept r hr slot hchanged := by
    rw [read_stage hstage slot]
    rcases List.mem_append.mp hr with hr | hr
    · have hread := h.kept r hr slot hchanged
      have hmoved := moved_of_read (hfaithful r (h.among r hr)) hchanged hread
      rw [if_neg fun hseen => not_conflictAt hstage slot ⟨hseen, hmoved⟩]
      exact hread
    · obtain rfl := List.mem_singleton.mp hr
      rw [if_pos (((hfaithful r hincoming).changed_iff slot).mp hchanged)]

theorem RunInvariant.commitResult {state : RuntimeSnapshot × List RuntimeSnapshot}
    {incoming : RuntimeSnapshot} (h : RunInvariant rules base results state)
    (hfaithful : ∀ r ∈ results, Faithful base r) (hincoming : incoming ∈ results) :
    RunInvariant rules base results (Scheduler.commitResult rules settle base state incoming) := by
  unfold Scheduler.commitResult
  split
  · rename_i staged hstage
    exact (h.stage hfaithful hincoming hstage).settled
  · exact h.settled

theorem runInvariant_start (hbase : validateBackendState rules base = .ok ()) :
    RunInvariant rules base results (base, []) where
  committed := ⟨hbase, rfl⟩
  among := by simp
  serial := rfl
  kept := by simp

theorem runInvariant_commitResults (hbase : validateBackendState rules base = .ok ())
    (hfaithful : ∀ r ∈ results, Faithful base r) (order : List RuntimeSnapshot)
    (horder : ∀ r ∈ order, r ∈ results) :
    RunInvariant rules base results (commitResults rules settle base order) := by
  have hrun : ∀ state, RunInvariant rules base results state →
      RunInvariant rules base results (order.foldl (commitResult rules settle base) state) := by
    induction order with
    | nil => exact fun state h => h
    | cons r rest ih =>
      intro state h
      rw [List.forall_mem_cons] at horder
      exact ih horder.2 _ (h.commitResult hfaithful horder.1)
  exact hrun (base, []) (runInvariant_start hbase)

/-! ## One result and two results -/

theorem not_conflictAt_base (incoming : RuntimeSnapshot) (slot : Slot) :
    ¬ ConflictAt base base incoming slot := by
  rintro ⟨-, hmoved⟩
  unfold Moved at hmoved
  rw [slotEq_self] at hmoved
  cases hmoved

theorem commitResults_append (order : List RuntimeSnapshot) (r : RuntimeSnapshot) :
    commitResults rules settle base (order ++ [r]) =
      commitResult rules settle base (commitResults rules settle base order) r := by
  unfold commitResults
  rw [List.foldl_append]
  rfl

variable {r : RuntimeSnapshot}

theorem exists_commitResults_single (settle : RuntimeSnapshot → Option Value × Option Value)
    (hbase : validateBackendState rules base = .ok ()) (hr : ResultOf rules base r) :
    ∃ staged, stageConcurrentActionSnapshot rules base base r = .ok staged ∧
      commitResults rules settle base [r] = (settled settle staged, [r]) := by
  obtain ⟨staged, hstage⟩ := exists_stage hr ⟨hbase, rfl⟩ (not_conflictAt_base r)
  refine ⟨staged, hstage, ?_⟩
  show commitResult rules settle base (base, []) r = _
  unfold commitResult
  rw [hstage]
  rfl

theorem commitResults_single (settle : RuntimeSnapshot → Option Value × Option Value)
    (hbase : validateBackendState rules base = .ok ()) (hr : ResultOf rules base r) :
    (commitResults rules settle base [r]).2 = [r] ∧
      ∀ slot, (commitResults rules settle base [r]).1.read slot =
        if SeenChanged base r slot then r.read slot else base.read slot := by
  obtain ⟨staged, hstage, hcommit⟩ :=
    exists_commitResults_single settle hbase hr
  rw [hcommit]
  refine ⟨rfl, fun slot => ?_⟩
  rw [read_settled, read_stage hstage]

theorem moved_single_iff (hbase : validateBackendState rules base = .ok ())
    (hr : ResultOf rules base r) (slot : Slot) :
    Moved base (commitResults rules settle base [r]).1 slot ↔ SeenChanged base r slot := by
  unfold Moved
  rw [(commitResults_single settle hbase hr).2 slot]
  by_cases h : SeenChanged base r slot
  · rw [if_pos h, slotEq_comm]
    rfl
  · rw [if_neg h, slotEq_self]
    simp [h]

theorem commitResults_disjoint (settle : RuntimeSnapshot → Option Value × Option Value)
    (hbase : validateBackendState rules base = .ok ())
    {a b : RuntimeSnapshot} (ha : ResultOf rules base a) (hb : ResultOf rules base b)
    (hfree : ∀ slot, ¬ (SeenChanged base a slot ∧ SeenChanged base b slot)) :
    (commitResults rules settle base [a, b]).2 = [a, b] ∧
      ∀ slot, (commitResults rules settle base [a, b]).1.read slot =
        if SeenChanged base b slot then b.read slot
        else if SeenChanged base a slot then a.read slot else base.read slot := by
  have hcommitted : Committed rules base (commitResults rules settle base [a]).1 := by
    obtain ⟨staged, hstage, hcommit⟩ :=
      exists_commitResults_single settle hbase ha
    rw [hcommit]
    exact (Committed.stage ⟨hbase, rfl⟩ hstage).withConcurrentSchedulerUpdates _ _
  have hnone : ∀ slot, ¬ ConflictAt base (commitResults rules settle base [a]).1 b slot := by
    rintro slot ⟨hseen, hmoved⟩
    exact hfree slot ⟨(moved_single_iff hbase ha slot).mp hmoved, hseen⟩
  obtain ⟨staged, hstage⟩ := exists_stage hb hcommitted hnone
  have hcommit : commitResults rules settle base [a, b] = (settled settle staged, [a, b]) := by
    show commitResults rules settle base ([a] ++ [b]) = _
    rw [commitResults_append]
    unfold commitResult
    rw [hstage, (commitResults_single settle hbase ha).1]
    rfl
  rw [hcommit]
  refine ⟨rfl, fun slot => ?_⟩
  rw [read_settled, read_stage hstage, (commitResults_single settle hbase ha).2]

theorem commitResults_overlap (settle : RuntimeSnapshot → Option Value × Option Value)
    (hbase : validateBackendState rules base = .ok ())
    {a b : RuntimeSnapshot} (ha : ResultOf rules base a) (hb : ResultOf rules base b)
    {slot : Slot} (hslot : SeenChanged base a slot ∧ SeenChanged base b slot) :
    ∃ slot, SeenChanged base a slot ∧ SeenChanged base b slot ∧
      stageConcurrentActionSnapshot rules base (commitResults rules settle base [a]).1 b =
        .error (commitConflict slot.fieldName) ∧
      (commitResults rules settle base [a, b]).2 = [a] ∧
      ∀ slot, (commitResults rules settle base [a, b]).1.read slot =
        (commitResults rules settle base [a]).1.read slot := by
  have hconflict : ConflictAt base (commitResults rules settle base [a]).1 b slot :=
    ⟨hslot.2, (moved_single_iff hbase ha slot).mpr hslot.1⟩
  obtain ⟨slot', ⟨hseen, hmoved⟩, hstage⟩ := stage_conflict hb hconflict
  have hcommit : commitResults rules settle base [a, b] =
      (settled settle (commitResults rules settle base [a]).1, [a]) := by
    show commitResults rules settle base ([a] ++ [b]) = _
    rw [commitResults_append]
    unfold commitResult
    rw [hstage, (commitResults_single settle hbase ha).1]
  refine ⟨slot', (moved_single_iff hbase ha slot').mp hmoved, hseen, hstage, ?_, ?_⟩
  · rw [hcommit]
  · intro slot
    rw [hcommit, read_settled]

/-- A merge of one result that is JSON-equal to it shows that Python saw its changes. -/
theorem faithful_of_single {r staged : RuntimeSnapshot}
    (hstage : stageConcurrentActionSnapshot rules base base r = .ok staged)
    (hsame : ∀ slot, slotEq Value.same (staged.read slot) (r.read slot) = true) :
    Faithful base r := by
  rw [faithful_iff]
  intro slot hchanged
  by_contra hseen
  have hslot := hsame slot
  rw [read_stage hstage, if_neg hseen] at hslot
  unfold Changed at hchanged
  rw [hslot] at hchanged
  cases hchanged

theorem losesNoUpdate_of_faithful (hbase : validateBackendState rules base = .ok ())
    (hresults : ∀ r ∈ results, ResultOf rules base r)
    (hfaithful : ∀ r ∈ results, Faithful base r) : LosesNoUpdate rules settle base results where
  single r hr := by
    obtain ⟨staged, hstage⟩ := exists_stage (hresults r hr) ⟨hbase, rfl⟩ (not_conflictAt_base r)
    refine ⟨staged, hstage, fun slot => ?_⟩
    rw [read_stage hstage]
    split
    · exact slotSame_self _
    · rename_i hseen
      rw [← (hfaithful r hr).changed_iff slot] at hseen
      simpa [Changed] using hseen
  disjoint a ha b hb hoverlap := by
    have hfree : ∀ slot, ¬ (SeenChanged base a slot ∧ SeenChanged base b slot) :=
      fun slot h => hoverlap ⟨slot, h.1.changed, h.2.changed⟩
    have hab := commitResults_disjoint settle hbase (hresults a ha) (hresults b hb) hfree
    have hba := commitResults_disjoint settle hbase (hresults b hb) (hresults a ha)
      fun slot h => hfree slot h.symm
    refine ⟨hab.1, hba.1, fun slot => ?_, fun slot => ?_⟩
    · rw [hab.2, hba.2]
      by_cases hseen : SeenChanged base a slot
      · have hother : ¬ SeenChanged base b slot := fun h => hfree slot ⟨hseen, h⟩
        simp [hseen, hother]
      · simp [hseen]
    · rw [hab.2]
      simp only [(hfaithful a ha).changed_iff slot, (hfaithful b hb).changed_iff slot]
      by_cases hseen : SeenChanged base a slot
      · have hother : ¬ SeenChanged base b slot := fun h => hfree slot ⟨hseen, h⟩
        simp [hseen, hother]
      · simp [hseen]
  overlap a ha b hb hoverlap := by
    obtain ⟨slot, hchangedA, hchangedB⟩ := hoverlap
    obtain ⟨slot', hseenA, hseenB, hrest⟩ := commitResults_overlap settle hbase
      (hresults a ha) (hresults b hb) ⟨((hfaithful a ha).changed_iff slot).mp hchangedA,
        ((hfaithful b hb).changed_iff slot).mp hchangedB⟩
    exact ⟨slot', hseenA.changed, hseenB.changed, hrest⟩
  guarded _ _ _ hstage := (stage_eq_ok hstage).1
  serial order horder :=
    have h := runInvariant_commitResults hbase hfaithful order horder
    ⟨h.serial, h.kept⟩

end Run

def lenientRules : SnapshotRules where
  protectedState _ := .ok ()
  reportedKeys _ _ := []
  slot _ _ _ _ := .ok ()
  value _ _ := .ok ()

def metadataSnapshot (key : String) (value : Value) : RuntimeSnapshot where
  mapping := fun field => if field = .metadata then Dict.empty.set key value else Dict.empty
  value := fun _ => ⟨.null, rfl⟩
  guarded := fun _ => emptyTable

def countedOnce : RuntimeSnapshot := metadataSnapshot "seen" ⟨.int 1, rfl⟩

end Raes.Scheduler
