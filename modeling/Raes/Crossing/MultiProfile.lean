import Mathlib.Data.List.Infix
import Raes.Errors

/-!
# The two-operation crossing profile

The closed vocabulary of `_participant_crossing_multi_profile.py`: the input
classes, the ledger entries and the labels of the two crossing models.
-/

namespace Raes.Crossing

open PyError

/-- `INPUTS` -/
inductive Input where
  | plain
  | transform
  | declassify
  | unsupported
  | forbidden
  | unresolved
  deriving DecidableEq

def inputs : List Input :=
  [.plain, .transform, .declassify, .unsupported, .forbidden, .unresolved]

theorem mem_inputs (item : Input) : item ∈ inputs := by
  cases item <;> decide

inductive Body where
  | original
  | changed
  deriving DecidableEq

inductive PolicyCut where
  | p0
  | p1
  deriving DecidableEq

inductive Mode where
  | fresh
  | retry
  deriving DecidableEq

/-- The decision of an attempt, `none` before one is taken. -/
inductive Decision where
  | none
  | permit
  | deny
  | unsupported
  | transform
  | declassify
  | unresolved
  deriving DecidableEq

def Decision.value : Decision → String
  | .none => "none"
  | .permit => "permit"
  | .deny => "deny"
  | .unsupported => "unsupported"
  | .transform => "transform"
  | .declassify => "declassify"
  | .unresolved => "unresolved"

/-- The decisions under which nothing is delivered. -/
def Decision.isRefusal (decision : Decision) : Bool :=
  decision = .deny || decision = .unsupported || decision = .unresolved

structure Intent where
  slot : ℕ
  item : Input
  body : Body
  mode : Mode
  deriving DecidableEq

/-- One retained result: the request, the policy it was decided under when that
policy resolved, the crossing heads around it and its outcome. -/
structure Entry where
  item : Input
  body : Body
  policy : Option PolicyCut
  (decisionHead resultHead : ℕ)
  outcome : Decision
  deriving DecidableEq

inductive Key where
  | a
  | b
  deriving DecidableEq

def Key.text : Key → String
  | .a => "a"
  | .b => "b"

/-- `"ab"[slot]` -/
def keyAt (slot : ℕ) : Except PyError Key :=
  match slot with
  | 0 => .ok .a
  | 1 => .ok .b
  | _ => .error (indexError "string index out of range")

def keyOf (slot : ℕ) : Key := if slot = 0 then .a else .b

def Key.slot : Key → ℕ
  | .a => 0
  | .b => 1

theorem keyAt_eq_ok_iff (slot : ℕ) (key : Key) :
    keyAt slot = .ok key ↔ slot < 2 ∧ key = keyOf slot := by
  match slot with
  | 0 => simp [keyAt, keyOf, eq_comm]
  | 1 => simp [keyAt, keyOf, eq_comm]
  | n + 2 => exact iff_of_false (by simp [keyAt]) (by omega)

theorem keyAt_of_lt {slot : ℕ} (h : slot < 2) : keyAt slot = .ok (keyOf slot) :=
  (keyAt_eq_ok_iff slot _).mpr ⟨h, rfl⟩

theorem keyOf_eq_iff {slot : ℕ} (h : slot < 2) (key : Key) : keyOf slot = key ↔ slot = key.slot := by
  match slot with
  | 0 => cases key <;> decide
  | 1 => cases key <;> decide

variable (ledger : List Entry)

/-- `ledger[slot]` -/
def entryAt (slot : ℕ) : Except PyError Entry :=
  match ledger[slot]? with
  | some entry => .ok entry
  | none => .error (indexError "tuple index out of range")

/-- The unpacked intent of an attempt and the key of its slot. -/
def requestOf (intent : Option Intent) : Except PyError (Intent × Key) :=
  match intent with
  | none => .error (typeError "cannot unpack non-iterable NoneType object")
  | some intent => do return (intent, ← keyAt intent.slot)

theorem entryAt_eq_ok_iff {ledger : List Entry} {slot : ℕ} {entry : Entry} :
    entryAt ledger slot = .ok entry ↔ ledger[slot]? = some entry := by
  unfold entryAt
  cases ledger[slot]? <;> simp

theorem requestOf_eq_ok_iff {intent : Option Intent} {request : Intent × Key} :
    requestOf intent = .ok request ↔
      intent = some request.1 ∧ request.1.slot < 2 ∧ request.2 = keyOf request.1.slot := by
  obtain ⟨i, key⟩ := request
  cases intent with
  | none => simp [requestOf]
  | some intent =>
    simp only [requestOf, bind_eq_ok_iff, keyAt_eq_ok_iff, Option.some.injEq]
    constructor
    · rintro ⟨k, ⟨hlt, hk⟩, h⟩
      cases h
      exact ⟨rfl, hlt, hk⟩
    · rintro ⟨rfl, hlt, hk⟩
      exact ⟨key, ⟨hlt, hk⟩, rfl⟩

theorem attempt_eq_ok_iff {α : Type} {intent : Option Intent}
    (f : Intent × Key → Except PyError α) (edges : α) :
    (requestOf intent >>= f) = .ok edges ↔
      ∃ i, intent = some i ∧ i.slot < 2 ∧ f (i, keyOf i.slot) = .ok edges := by
  rw [bind_eq_ok_iff]
  constructor
  · rintro ⟨⟨i, key⟩, hrequest, hedges⟩
    obtain ⟨hi, hslot, hkey⟩ := requestOf_eq_ok_iff.mp hrequest
    have hpair : (i, key) = (i, keyOf i.slot) := congrArg (Prod.mk i) hkey
    exact ⟨i, hi, hslot, hpair ▸ hedges⟩
  · rintro ⟨i, hi, hslot, hedges⟩
    exact ⟨(i, keyOf i.slot), requestOf_eq_ok_iff.mpr ⟨hi, hslot, rfl⟩, hedges⟩

theorem slot_lt_of_getElem? {ledger : List Entry} (hle : ledger.length ≤ 2) {slot : ℕ}
    {entry : Entry} (h : ledger[slot]? = some entry) : slot < 2 := by
  have hlt := (List.getElem?_eq_some_iff.mp h).1
  omega

inductive InternalStage where
  | validate
  | resolvePolicyCut
  | resolveCapability
  | prepareRecord
  | atomicCommit
  deriving DecidableEq

def InternalStage.text : InternalStage → String
  | .validate => "validate"
  | .resolvePolicyCut => "resolve-policy-cut"
  | .resolveCapability => "resolve-capability"
  | .prepareRecord => "prepare-record"
  | .atomicCommit => "atomic-commit"

/-- The labels of both models.  `change` is the visible transformation or
declassification of a permitted request. -/
inductive Label where
  | restart
  | policyCutAdvance
  | request (mode : Mode) (key : Key)
  | status (completed : Bool) (key : Key)
  | replayReject (key : Key)
  | result (outcome : Decision) (key : Key)
  | outcomeUnknown (key : Key)
  | decision (outcome : Decision) (key : Key)
  | change (outcome : Decision) (key : Key)
  | delivery (key : Key)
  | internal (stage : InternalStage)
  deriving DecidableEq

def Mode.text : Mode → String
  | .fresh => "fresh"
  | .retry => "retry"

def crossingText (event : String) (key : Key) : String :=
  "crossing." ++ (event ++ "." ++ key.text)

def Label.text : Label → String
  | .restart => "runtime.restart"
  | .policyCutAdvance => "policy.cut.advance"
  | .request mode key => crossingText ("request." ++ mode.text) key
  | .status true key => crossingText "status.completed" key
  | .status false key => crossingText "status.failed" key
  | .replayReject key => crossingText "replay.reject" key
  | .result outcome key => crossingText ("result." ++ outcome.value) key
  | .outcomeUnknown key => crossingText "outcome.unknown" key
  | .decision outcome key => crossingText ("decision." ++ outcome.value) key
  | .change outcome key => crossingText outcome.value key
  | .delivery key => crossingText "delivery" key
  | .internal stage => "internal." ++ stage.text

/-- The label begins with `internal.`. -/
def Hidden (label : Label) : Prop := "internal.".toList <+: label.text.toList

theorem hidden_internal (stage : InternalStage) : Hidden (.internal stage) :=
  ⟨stage.text.toList, (String.toList_append ..).symm⟩

theorem not_hidden_of_head {label : Label} {c : Char} (hhead : label.text.toList.head? = some c)
    (hc : c ≠ 'i') : ¬ Hidden label := by
  rintro ⟨rest, hrest⟩
  have hfirst : ("internal.".toList ++ rest).head? = some 'i' := rfl
  rw [hrest, hhead] at hfirst
  exact hc (Option.some.inj hfirst)

theorem head_crossingText (event : String) (key : Key) :
    (crossingText event key).toList.head? = some 'c' := by
  rw [crossingText, String.toList_append]
  rfl

theorem hidden_iff (label : Label) : Hidden label ↔ ∃ stage, label = .internal stage := by
  cases label with
  | internal stage => exact iff_of_true (hidden_internal stage) ⟨stage, rfl⟩
  | restart => exact iff_of_false (not_hidden_of_head (c := 'r') rfl (by decide)) (by simp)
  | policyCutAdvance => exact iff_of_false (not_hidden_of_head (c := 'p') rfl (by decide)) (by simp)
  | status completed key =>
    refine iff_of_false (not_hidden_of_head (c := 'c') ?_ (by decide)) (by simp)
    cases completed <;> exact head_crossingText _ _
  | request _ _ | replayReject _ | result _ _ | outcomeUnknown _ | decision _ _ | change _ _
  | delivery _ =>
    exact iff_of_false (not_hidden_of_head (head_crossingText _ _) (by decide)) (by simp)

/-! ## The ledger -/

def resolvedCount (ledger : List Entry) : ℕ := ledger.countP fun entry => entry.outcome ≠ .unresolved

def deliverableCount (ledger : List Entry) : ℕ := ledger.countP fun entry => !entry.outcome.isRefusal

theorem resolvedCount_append (entry : Entry) : resolvedCount (ledger ++ [entry]) =
      resolvedCount ledger + if entry.outcome = .unresolved then 0 else 1 := by
  unfold resolvedCount
  by_cases h : entry.outcome = .unresolved <;> simp [List.countP_append, h]

theorem deliverableCount_append (entry : Entry) : deliverableCount (ledger ++ [entry]) =
      deliverableCount ledger + if entry.outcome.isRefusal then 0 else 1 := by
  unfold deliverableCount
  cases h : entry.outcome.isRefusal <;> simp [List.countP_append, h]

end Raes.Crossing
