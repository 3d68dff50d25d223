import Mathlib.Data.Prod.Lex
import Mathlib.Order.Bounds.Defs
import Raes.Lib.ExceptList
import Raes.Lib.Loop
import Raes.Lib.SortBy

/-!
# The calendar of a participant

`raes_runtime/participant_activity.py`.  The work windows and the pause windows
of a participant are half-open ranges of `(tick, microstep)` coordinates, in
the lexicographic order of Python tuples.  The next opening is searched window
by window in the order of their starts: a tick that a pause covers is followed
by the greatest end of the pauses that cover it, aligned to the step.

The compiled time model has unique addresses and a step is positive, which
their construction checks and their types carry here.
-/

namespace Raes.Scheduler

/-- `(tick, microstep)`, ordered as a Python tuple. -/
abbrev Coordinate : Type := ℤ ×ₗ ℤ

structure TemporalConstraint where
  address : String
  (startTick startMicrostep endTick endMicrostep : Option ℤ)
  deriving DecidableEq

structure TimeModel where
  constraints : List TemporalConstraint
  nodup : (constraints.map TemporalConstraint.address).Nodup

/-- The calendar fields of a `ParticipantAutonomousExecutionRuntime`. -/
structure ActivityCalendar where
  (workWindowAddresses pauseWindowAddresses : List String)

/-- `step_ticks`, which a stepped progression policy requires to be positive. -/
def StepTicks : Type := Option { n : ℤ // 0 < n }

def windowRange (constraint : TemporalConstraint) : Except PyError (Coordinate × Coordinate) :=
  match constraint.startTick, constraint.endTick with
  | some startTick, some endTick =>
    .ok (toLex (startTick, constraint.startMicrostep.getD 0),
      toLex (endTick, constraint.endMicrostep.getD 0))
  | _, _ =>
    .error (.conflictError "participant activity windows require finite start and end ticks")

def selectedRange (model : TimeModel) (address : String) :
    Except PyError (Coordinate × Coordinate) :=
  match model.constraints.find? fun constraint => constraint.address == address with
  | none => .error (.keyError address)
  | some constraint => windowRange constraint

def windowRanges (addresses : List String) (model : TimeModel) :
    Except PyError (List (Coordinate × Coordinate)) := do
  let ranges ← addresses.mapM (selectedRange model)
  return sortBy toLex ranges

/-- `start <= (tick, 0) < end`. -/
def WindowContains (window : Coordinate × Coordinate) (tick : ℤ) : Prop :=
  window.1 ≤ toLex (tick, 0) ∧ toLex (tick, 0) < window.2

instance (window : Coordinate × Coordinate) (tick : ℤ) :
    Decidable (WindowContains window tick) :=
  inferInstanceAs (Decidable (_ ∧ _))

variable (calendar : ActivityCalendar) (model : TimeModel)

/-- Evaluate half-open work-union minus pause-union eligibility. -/
def activityTickIsEligible (tick : ℤ) : Except PyError Bool := do
  let work ← windowRanges calendar.workWindowAddresses model
  let pauses ← windowRanges calendar.pauseWindowAddresses model
  return (work.any fun window => WindowContains window tick) &&
    !(pauses.any fun window => WindowContains window tick)

/-- `coordinate[0] + int(coordinate[1] > 0)`. -/
def tickFrom (coordinate : Coordinate) : ℤ :=
  (ofLex coordinate).1 + if (ofLex coordinate).2 > 0 then 1 else 0

def alignedActivityTick (tick : ℤ) : StepTicks → ℤ
  | none => tick
  | some step => if tick % step.1 ≠ 0 then tick + step.1 - tick % step.1 else tick

/-- `max(..., default=normalized + 1)` over the pauses that cover the tick. -/
def pauseEnd (pauses : List (Coordinate × Coordinate)) (normalized : ℤ) : ℤ :=
  ((pauses.filter fun window => WindowContains window normalized).map fun window =>
    tickFrom window.2).max?.getD (normalized + 1)

/-- A round of the `while` loop: it leaves the loop with a return, with the
error of a window or, past the end of the work window, with no result. -/
def openingRound (step : StepTicks)
    (ending : Coordinate) (normalized : ℤ) : Except PyError (Option ℤ) ⊕ ℤ :=
  if toLex (normalized, 0) < ending then
    match activityTickIsEligible calendar model normalized with
    | .error error => .inl (.error error)
    | .ok true => .inl (.ok (some normalized))
    | .ok false =>
      match windowRanges calendar.pauseWindowAddresses model with
      | .error error => .inl (.error error)
      | .ok pauses => .inr (alignedActivityTick (pauseEnd pauses normalized) step)
  else .inl (.ok none)

/-- The `for` loop over the work windows; `none` where the fuel of a `while` loop is spent. -/
def openingAmong (calendar : ActivityCalendar) (model : TimeModel) (candidate : ℤ)
    (step : StepTicks) (fuel : ℕ) :
    List (Coordinate × Coordinate) → Option (Except PyError (Option ℤ))
  | [] => some (.ok none)
  | window :: rest =>
    match Loop.iterate (openingRound calendar model step window.2) fuel
        (alignedActivityTick (max candidate (tickFrom window.1)) step) with
    | .inr _ => none
    | .inl (.ok none) => openingAmong calendar model candidate step fuel rest
    | .inl result => some result

def nextActivityOpening (candidate : ℤ)
    (step : StepTicks) (fuel : ℕ) : Option (Except PyError (Option ℤ)) :=
  match windowRanges calendar.workWindowAddresses model with
  | .error error => some (.error error)
  | .ok work => openingAmong calendar model candidate step fuel work

def Aligned : StepTicks → ℤ → Prop
  | none, _ => True
  | some step, tick => step.1 ∣ tick

def Openings (work pauses : List (Coordinate × Coordinate)) (step : StepTicks) (candidate : ℤ) :
    Set ℤ :=
  {tick | candidate ≤ tick ∧ Aligned step tick ∧ (∃ window ∈ work, WindowContains window tick) ∧
    ∀ window ∈ pauses, ¬ WindowContains window tick}

theorem toLex_lt_iff_tickFrom (tick : ℤ) (coordinate : Coordinate) :
    toLex (tick, 0) < coordinate ↔ tick < tickFrom coordinate := by
  obtain ⟨a, b⟩ := coordinate
  show toLex (tick, 0) < toLex (a, b) ↔ tick < a + if b > 0 then 1 else 0
  rw [Prod.Lex.toLex_lt_toLex]
  by_cases hb : b > 0
  · rw [if_pos hb]
    show tick < a ∨ tick = a ∧ 0 < b ↔ tick < a + 1
    omega
  · rw [if_neg hb]
    show tick < a ∨ tick = a ∧ 0 < b ↔ tick < a + 0
    omega

theorem windowContains_iff (window : Coordinate × Coordinate) (tick : ℤ) :
    WindowContains window tick ↔ tickFrom window.1 ≤ tick ∧ tick < tickFrom window.2 := by
  unfold WindowContains
  rw [toLex_lt_iff_tickFrom, ← not_lt, toLex_lt_iff_tickFrom, not_lt]

theorem tickFrom_mono {a b : Coordinate} (h : a ≤ b) : tickFrom a ≤ tickFrom b := by
  by_contra hlt
  have hle : b ≤ toLex (tickFrom b, 0) := by
    rw [← not_lt, toLex_lt_iff_tickFrom]
    omega
  have hbelow : toLex (tickFrom b, 0) < a := by
    rw [toLex_lt_iff_tickFrom]
    omega
  exact absurd h (not_le.mpr (lt_of_le_of_lt hle hbelow))

theorem alignedActivityTick_isLeast (tick : ℤ) (step : StepTicks) :
    IsLeast {n | tick ≤ n ∧ Aligned step n} (alignedActivityTick tick step) := by
  cases step with
  | none => exact ⟨⟨le_refl tick, trivial⟩, fun n hn => hn.1⟩
  | some step =>
    obtain ⟨step, hstep⟩ := step
    have hnonneg := Int.emod_nonneg tick hstep.ne'
    have hlt := Int.emod_lt_of_pos tick hstep
    have hdecomposed := Int.emod_add_mul_ediv tick step
    show IsLeast {n | tick ≤ n ∧ step ∣ n}
      (if tick % step ≠ 0 then tick + step - tick % step else tick)
    by_cases hmod : tick % step = 0
    · rw [if_neg (not_not.mpr hmod)]
      exact ⟨⟨le_refl tick, Int.dvd_of_emod_eq_zero hmod⟩, fun n hn => hn.1⟩
    · rw [if_pos hmod]
      refine ⟨⟨by omega, tick / step + 1, ?_⟩, ?_⟩
      · rw [Int.mul_add]
        omega
      · rintro n ⟨hle, q, rfl⟩
        have hq : tick / step < q := by
          by_contra hge
          have hmul := Int.mul_le_mul_of_nonneg_left (Int.not_lt.mp hge) hstep.le
          omega
        have hmul := Int.mul_le_mul_of_nonneg_left (Int.add_one_le_of_lt hq) hstep.le
        rw [Int.mul_add] at hmul
        omega

theorem lt_pauseEnd (pauses : List (Coordinate × Coordinate)) (normalized : ℤ) :
    normalized < pauseEnd pauses normalized := by
  unfold pauseEnd
  cases hmax : ((pauses.filter fun window => WindowContains window normalized).map fun window =>
      tickFrom window.2).max? with
  | none =>
    show normalized < normalized + 1
    omega
  | some ending =>
    show normalized < ending
    have hmem := (List.max?_eq_some_iff.mp hmax).1
    obtain ⟨window, hwindow, rfl⟩ := List.mem_map.mp hmem
    have hcontains : WindowContains window normalized := by
      simpa using (List.mem_filter.mp hwindow).2
    exact ((windowContains_iff window normalized).mp hcontains).2

/-- A tick that a pause covers is covered, with all ticks up to the end of the
pauses that cover it, by one of them. -/
theorem paused_until_pauseEnd {pauses : List (Coordinate × Coordinate)} {normalized : ℤ}
    (hpaused : ∃ window ∈ pauses, WindowContains window normalized) {tick : ℤ}
    (hle : normalized ≤ tick) (hlt : tick < pauseEnd pauses normalized) :
    ∃ window ∈ pauses, WindowContains window tick := by
  obtain ⟨cover, hcover, hcontains⟩ := hpaused
  unfold pauseEnd at hlt
  cases hmax : ((pauses.filter fun window => WindowContains window normalized).map fun window =>
      tickFrom window.2).max? with
  | none =>
    rw [List.max?_eq_none_iff, List.map_eq_nil_iff, List.filter_eq_nil_iff] at hmax
    exact absurd (decide_eq_true hcontains) (hmax cover hcover)
  | some ending =>
    rw [hmax] at hlt
    obtain ⟨window, hwindow, hending⟩ := List.mem_map.mp (List.max?_eq_some_iff.mp hmax).1
    obtain ⟨hmem, hcovers⟩ := List.mem_filter.mp hwindow
    have hstart := ((windowContains_iff window normalized).mp (of_decide_eq_true hcovers)).1
    have hbefore : tick < tickFrom window.2 := by
      rw [hending]
      exact hlt
    exact ⟨window, hmem, (windowContains_iff window tick).mpr ⟨by omega, hbefore⟩⟩

section Search

variable {calendar : ActivityCalendar} {model : TimeModel}
  {work pauses : List (Coordinate × Coordinate)}

theorem activityTickIsEligible_eq (hwork : windowRanges calendar.workWindowAddresses model = .ok work)
    (hpauses : windowRanges calendar.pauseWindowAddresses model = .ok pauses) (tick : ℤ) :
    activityTickIsEligible calendar model tick =
      .ok ((work.any fun window => WindowContains window tick) &&
        !(pauses.any fun window => WindowContains window tick)) := by
  unfold activityTickIsEligible
  rw [hwork, hpauses]
  rfl

/-- What the search through one work window returns. -/
def Found (openings : Set ℤ) (result : Except PyError (Option ℤ)) : Prop :=
  (∃ tick, result = .ok (some tick) ∧ IsLeast openings tick) ∨
    (result = .ok none ∧ openings = ∅)

/-- Between two rounds the search stands on an aligned tick of the window or
past its end, and has left no opening behind. -/
structure Searching (pauses : List (Coordinate × Coordinate)) (step : StepTicks) (candidate : ℤ)
    (window : Coordinate × Coordinate) (normalized : ℤ) : Prop where
  aligned : Aligned step normalized
  afterCandidate : candidate ≤ normalized
  afterStart : tickFrom window.1 ≤ normalized
  behind : ∀ tick ∈ Openings [window] pauses step candidate, normalized ≤ tick

variable {window : Coordinate × Coordinate} {step : StepTicks}

theorem mem_openings_singleton {candidate tick : ℤ} :
    tick ∈ Openings [window] pauses step candidate ↔ candidate ≤ tick ∧ Aligned step tick ∧
      WindowContains window tick ∧ ∀ window ∈ pauses, ¬ WindowContains window tick := by
  simp [Openings]

theorem searching_start (pauses : List (Coordinate × Coordinate)) (step : StepTicks)
    (candidate : ℤ) (window : Coordinate × Coordinate) :
    Searching pauses step candidate window
      (alignedActivityTick (max candidate (tickFrom window.1)) step) := by
  have hleast := alignedActivityTick_isLeast (max candidate (tickFrom window.1)) step
  obtain ⟨hle, haligned⟩ := hleast.1
  refine ⟨haligned, le_trans (le_max_left _ _) hle, le_trans (le_max_right _ _) hle, ?_⟩
  intro tick htick
  obtain ⟨hcandidate, haligned, hcontains, -⟩ := mem_openings_singleton.mp htick
  have hstart := ((windowContains_iff window tick).mp hcontains).1
  exact hleast.2 ⟨max_le hcandidate hstart, haligned⟩

variable {candidate : ℤ}

/-- One round of the search: it returns the least opening of the window, finds
the window without one, or goes on behind the pauses that cover the tick. -/
theorem openingRound_round (hwork : windowRanges calendar.workWindowAddresses model = .ok work)
    (hpauses : windowRanges calendar.pauseWindowAddresses model = .ok pauses)
    (hwindow : window ∈ work)
    (normalized : ℤ) (h : Searching pauses step candidate window normalized) :
    Loop.Round (openingRound calendar model step window.2)
      (Searching pauses step candidate window) (fun t => (tickFrom window.2 - t).toNat)
      (Found (Openings [window] pauses step candidate)) normalized := by
  by_cases hend : toLex (normalized, 0) < window.2
  · have hlt := (toLex_lt_iff_tickFrom normalized window.2).mp hend
    have hcontains : WindowContains window normalized :=
      (windowContains_iff window normalized).mpr ⟨h.afterStart, hlt⟩
    have hany : (work.any fun window => decide (WindowContains window normalized)) = true :=
      List.any_eq_true.mpr ⟨window, hwindow, decide_eq_true hcontains⟩
    by_cases hpaused : ∃ pause ∈ pauses, WindowContains pause normalized
    · right
      have hleast := alignedActivityTick_isLeast (pauseEnd pauses normalized) step
      obtain ⟨hle, haligned⟩ := hleast.1
      have hafter := lt_pauseEnd pauses normalized
      have hpausedAny : (pauses.any fun window => decide (WindowContains window normalized)) =
          true := by simpa using hpaused
      refine ⟨alignedActivityTick (pauseEnd pauses normalized) step, ?_, ?_, ?_⟩
      · unfold openingRound
        rw [if_pos hend, activityTickIsEligible_eq hwork hpauses, hany, hpausedAny]
        show (match windowRanges calendar.pauseWindowAddresses model with
          | .error error => Sum.inl (Except.error error)
          | .ok pauses => .inr (alignedActivityTick (pauseEnd pauses normalized) step)) = _
        rw [hpauses]
      · have hcandidate := h.afterCandidate
        have hstart := h.afterStart
        refine ⟨haligned, by omega, by omega, ?_⟩
        intro tick htick
        have hnot := (mem_openings_singleton.mp htick).2.2.2
        refine hleast.2 ⟨?_, (mem_openings_singleton.mp htick).2.1⟩
        -- an opening before the end of the pauses would be covered by one of them
        by_contra hbefore
        obtain ⟨pause, hmem, hcovers⟩ :=
          paused_until_pauseEnd hpaused (h.behind tick htick) (not_le.mp hbefore)
        exact hnot pause hmem hcovers
      · show (tickFrom window.2 - alignedActivityTick (pauseEnd pauses normalized) step).toNat <
          (tickFrom window.2 - normalized).toNat
        omega
    · left
      have hnone : (pauses.any fun window => decide (WindowContains window normalized)) =
          false := by simpa using hpaused
      refine ⟨.ok (some normalized), ?_, Or.inl ⟨normalized, rfl, ?_, h.behind⟩⟩
      · unfold openingRound
        rw [if_pos hend, activityTickIsEligible_eq hwork hpauses, hany, hnone]
        rfl
      · apply mem_openings_singleton.mpr
        refine ⟨h.afterCandidate, h.aligned, hcontains, ?_⟩
        intro pause hmem hcovers
        exact hpaused ⟨pause, hmem, hcovers⟩
  · left
    refine ⟨.ok none, ?_, Or.inr ⟨rfl, ?_⟩⟩
    · unfold openingRound
      rw [if_neg hend]
    · apply Set.eq_empty_iff_forall_notMem.mpr
      intro tick htick
      have hlt := ((windowContains_iff window tick).mp (mem_openings_singleton.mp htick).2.2.1).2
      have hle := h.behind tick htick
      rw [toLex_lt_iff_tickFrom] at hend
      omega

theorem iterate_openingRound (hwork : windowRanges calendar.workWindowAddresses model = .ok work)
    (hpauses : windowRanges calendar.pauseWindowAddresses model = .ok pauses)
    (hwindow : window ∈ work) {fuel : ℕ} (hfuel : (tickFrom window.2 -
      alignedActivityTick (max candidate (tickFrom window.1)) step).toNat < fuel) :
    ∃ result, Loop.iterate (openingRound calendar model step window.2) fuel
        (alignedActivityTick (max candidate (tickFrom window.1)) step) = .inl result ∧
      Found (Openings [window] pauses step candidate) result :=
  Loop.iterate_total (openingRound_round hwork hpauses hwindow)
    (searching_start pauses step candidate window) hfuel

/-- A least opening of the first window is a least opening of all windows that start later:
an earlier tick of a later window lies in the first window too. -/
theorem isLeast_openings_cons {candidate tick : ℤ} {rest : List
    (Coordinate × Coordinate)} (hsorted : ∀ later ∈ rest, toLex window ≤ toLex later)
    (h : IsLeast (Openings [window] pauses step candidate) tick) :
    IsLeast (Openings (window :: rest) pauses step candidate) tick := by
  obtain ⟨hcandidate, haligned, hcontains, hpaused⟩ := mem_openings_singleton.mp h.1
  refine ⟨⟨hcandidate, haligned, ⟨window, List.mem_cons_self, hcontains⟩, hpaused⟩, ?_⟩
  rintro other ⟨hother, halignedOther, ⟨later, hlater, hin⟩, hpausedOther⟩
  by_contra hlt
  have hstarts : tickFrom window.1 ≤ tickFrom later.1 := by
    rcases List.mem_cons.mp hlater with rfl | hmem
    · exact le_refl _
    · apply tickFrom_mono
      rcases (Prod.Lex.le_iff).mp (hsorted later hmem) with hstart | ⟨heq, -⟩
      · exact hstart.le
      · exact heq.le
  have hwithin : WindowContains window other := by
    rw [windowContains_iff] at hin hcontains ⊢
    omega
  exact hlt (h.2 (mem_openings_singleton.mpr
    ⟨hother, halignedOther, hwithin, hpausedOther⟩))

theorem openings_cons_of_empty {rest : List
    (Coordinate × Coordinate)} (h : Openings [window] pauses step candidate = ∅) :
    Openings (window :: rest) pauses step candidate = Openings rest pauses step candidate := by
  ext tick
  constructor
  · rintro ⟨hcandidate, haligned, ⟨found, hfound, hcontains⟩, hpaused⟩
    rcases List.mem_cons.mp hfound with rfl | hmem
    · have hmem : tick ∈ Openings [found] pauses step candidate :=
        mem_openings_singleton.mpr ⟨hcandidate, haligned, hcontains, hpaused⟩
      rw [h] at hmem
      exact hmem.elim
    · exact ⟨hcandidate, haligned, ⟨found, hmem, hcontains⟩, hpaused⟩
  · rintro ⟨hcandidate, haligned, ⟨found, hfound, hcontains⟩, hpaused⟩
    exact ⟨hcandidate, haligned, ⟨found, List.mem_cons_of_mem _ hfound, hcontains⟩, hpaused⟩

/-- The fuel that each of the windows is searched with, by the widest of them. -/
def searchBound (candidate : ℤ) (step : StepTicks) : List (Coordinate × Coordinate) → ℕ
  | [] => 0
  | window :: rest =>
    max ((tickFrom window.2 -
      alignedActivityTick (max candidate (tickFrom window.1)) step).toNat + 1)
      (searchBound candidate step rest)

theorem openingAmong_found (hwork : windowRanges calendar.workWindowAddresses model = .ok work)
    (hpauses : windowRanges calendar.pauseWindowAddresses model = .ok pauses) {fuel : ℕ}
    {windows : List (Coordinate × Coordinate)} (hwindows : ∀ window ∈ windows, window ∈ work)
    (hsorted : windows.Pairwise fun a b => toLex a ≤ toLex b)
    (hfuel : searchBound candidate step windows ≤ fuel) :
    ∃ result, openingAmong calendar model candidate step fuel windows = some result ∧
      Found (Openings windows pauses step candidate) result := by
  induction windows with
  | nil =>
    refine ⟨.ok none, rfl, Or.inr ⟨rfl, ?_⟩⟩
    simp [Openings]
  | cons window rest ih =>
    rw [List.forall_mem_cons] at hwindows
    rw [List.pairwise_cons] at hsorted
    have hbound := le_trans (le_max_left _ _) hfuel
    have hrest := le_trans (le_max_right _ _) hfuel
    have hwindow : ∃ result, Loop.iterate (openingRound calendar model step window.2) fuel
        (alignedActivityTick (max candidate (tickFrom window.1)) step) = .inl result ∧
        Found (Openings [window] pauses step candidate) result :=
      iterate_openingRound hwork hpauses hwindows.1 (Nat.lt_of_succ_le hbound)
    obtain ⟨result, hrun, hfound⟩ := hwindow
    rw [openingAmong, hrun]
    rcases hfound with ⟨tick, rfl, hleast⟩ | ⟨rfl, hempty⟩
    · exact ⟨.ok (some tick), rfl, Or.inl ⟨tick, rfl, isLeast_openings_cons hsorted.1 hleast⟩⟩
    · rw [openings_cons_of_empty hempty]
      exact ih hwindows.2 hsorted.2 hrest

end Search

theorem windowRanges_pairwise {addresses : List String} {model : TimeModel}
    {ranges : List (Coordinate × Coordinate)} (h : windowRanges addresses model = .ok ranges) :
    ranges.Pairwise fun a b => toLex a ≤ toLex b := by
  obtain ⟨authored, -, hsorted⟩ := bind_eq_ok_iff.mp h
  rw [← Except.ok.inj hsorted]
  exact sortBy_pairwise toLex authored

/-- The search terminates.  It returns the least aligned tick, not before the
candidate, that lies in a work window and in no pause window, and it returns
none exactly when there is no such tick. -/
theorem nextActivityOpening_isLeast (calendar : ActivityCalendar) (model : TimeModel)
    (candidate : ℤ) (step : StepTicks) (work pauses : List (Coordinate × Coordinate))
    (hwork : windowRanges calendar.workWindowAddresses model = .ok work)
    (hpauses : windowRanges calendar.pauseWindowAddresses model = .ok pauses) :
    ∃ bound, ∀ fuel, bound ≤ fuel → ∃ opening : Option ℤ,
      nextActivityOpening calendar model candidate step fuel = some (.ok opening) ∧
      (∀ tick, opening = some tick ↔ IsLeast (Openings work pauses step candidate) tick) ∧
      (opening = none ↔ Openings work pauses step candidate = ∅) := by
  refine ⟨searchBound candidate step work, fun fuel hfuel => ?_⟩
  have hsearch := openingAmong_found hwork hpauses (fun _ hwindow => hwindow)
    (windowRanges_pairwise hwork) hfuel
  obtain ⟨result, hrun, hfound⟩ := hsearch
  have hrun : nextActivityOpening calendar model candidate step fuel = some result := by
    unfold nextActivityOpening
    rw [hwork]
    exact hrun
  rcases hfound with ⟨tick, rfl, hleast⟩ | ⟨rfl, hempty⟩
  · refine ⟨some tick, hrun, fun other => ?_, ?_⟩
    · rw [Option.some.injEq]
      constructor
      · rintro rfl
        exact hleast
      · exact fun hother => le_antisymm (hleast.2 hother.1) (hother.2 hleast.1)
    · refine iff_of_false (fun h => nomatch h) fun hempty => ?_
      have hmem := hleast.1
      rw [hempty] at hmem
      exact hmem
  · refine ⟨none, hrun, fun other => ?_, iff_of_true rfl hempty⟩
    refine iff_of_false (fun h => nomatch h) fun hleast => ?_
    have hmem := hleast.1
    rw [hempty] at hmem
    exact hmem

def shiftModel : TimeModel where
  constraints := [⟨"window.shift", some 0, none, some 30, none⟩,
    ⟨"window.lunch", some 8, none, some 12, some 1⟩]
  nodup := by decide

/-- A day of thirty ticks with a pause, searched in steps of five from a tick of the pause. -/
theorem nextActivityOpening_shift :
    ∃ bound, ∀ fuel, bound ≤ fuel → ∃ opening : Option ℤ,
      nextActivityOpening ⟨["window.shift"], ["window.lunch"]⟩ shiftModel 9
        (some ⟨5, by decide⟩) fuel = some (.ok opening) ∧
      (∀ tick, opening = some tick ↔ IsLeast (Openings [(toLex (0, 0), toLex (30, 0))]
        [(toLex (8, 0), toLex (12, 1))] (some ⟨5, by decide⟩) 9) tick) ∧
      (opening = none ↔ Openings [(toLex (0, 0), toLex (30, 0))]
        [(toLex (8, 0), toLex (12, 1))] (some ⟨5, by decide⟩) 9 = ∅) :=
  nextActivityOpening_isLeast ⟨["window.shift"], ["window.lunch"]⟩ shiftModel 9
    (some ⟨5, by decide⟩) [(toLex (0, 0), toLex (30, 0))] [(toLex (8, 0), toLex (12, 1))]
    (by decide +kernel) (by decide +kernel)

example : nextActivityOpening ⟨["window.shift"], ["window.lunch"]⟩ shiftModel 9
    (some ⟨5, by decide⟩) 4 = some (.ok (some 15)) := by decide +kernel

end Raes.Scheduler
