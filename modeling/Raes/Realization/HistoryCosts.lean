import Raes.Lib.Dict
import Raes.Realization.Common

/-!
# The costs of retained histories

`immutable_history.py` keeps with every retained history the costs of its value, and
`charge_immutable_history` charges them in one step where `validate_bounded_value` would
visit every node.  A history is charged exactly when the traversal of its plain value
succeeds, and for the same amounts.
-/

namespace Raes.Realization

open Stateful Verdict

/-! ## Values -/

/-- A value of the Python runtime that a history can carry: JSON, and what JSON excludes,
a number that is not finite and a key that is not a string. -/
inductive Carrier where
  | null
  | bool (value : Bool)
  | int (value : ℤ)
  | float (value : Option ℚ)
  | str (value : String)
  | list (items : List Carrier)
  | dict (fields : List (Option String × Carrier))

namespace Carrier

theorem induct {P : Carrier → Prop} (hnull : P .null) (hbool : ∀ b, P (.bool b))
    (hint : ∀ n, P (.int n)) (hfloat : ∀ q, P (.float q)) (hstr : ∀ s, P (.str s))
    (hlist : ∀ items, (∀ item ∈ items, P item) → P (.list items))
    (hdict : ∀ fields, (∀ field ∈ fields, P field.2) → P (.dict fields)) (value : Carrier) :
    P value :=
  Carrier.rec (motive_1 := P) (motive_2 := fun items => ∀ item ∈ items, P item)
    (motive_3 := fun fields => ∀ field ∈ fields, P field.2) (motive_4 := fun field => P field.2)
    hnull hbool hint hfloat hstr hlist hdict (fun _ h => nomatch h)
    (fun _ _ hitem hrest => List.forall_mem_cons.mpr ⟨hitem, hrest⟩) (fun _ h => nomatch h)
    (fun _ _ hfield hrest => List.forall_mem_cons.mpr ⟨hfield, hrest⟩) (fun _ _ hvalue => hvalue)
    value

/-- What a scalar costs as JSON; a container costs nothing itself. -/
def scalar : Carrier → Json
  | .null => .null
  | .bool value => .bool value
  | .int value => .int value
  | .float value => .float (value.getD 0)
  | .str value => .str value
  | .list _ => .arr []
  | .dict _ => .obj []

end Carrier

/-! ## Costs -/

structure ValueCosts where
  (nodes scalarBytes maxScalarBytes depth members : ℕ)
  valid : Bool
  deriving DecidableEq

namespace ValueCosts

/-- The defaults of `ValueCosts`: one node. -/
def single : ValueCosts := ⟨1, 0, 0, 0, 0, true⟩

/-- `ValueCosts(members=len(value))` -/
def counting (members : ℕ) : ValueCosts := { single with members }

/-- `ValueCosts(valid=False)` -/
def invalid : ValueCosts := { single with valid := false }

def extend (costs child : ValueCosts) (keyBytes members : ℕ) : ValueCosts where
  nodes := costs.nodes + child.nodes
  scalarBytes := costs.scalarBytes + child.scalarBytes + keyBytes
  maxScalarBytes := max (max costs.maxScalarBytes child.maxScalarBytes) keyBytes
  depth := max costs.depth (child.depth + 1)
  members := max (max costs.members child.members) members
  valid := costs.valid && child.valid

end ValueCosts

def scalarCosts (value : Carrier) : ValueCosts :=
  let size := scalarSize value.scalar
  { ValueCosts.single with
    scalarBytes := size
    maxScalarBytes := size
    valid := match value with
      | .float none => false
      | _ => true }

mutual

/-- `value_costs` of a plain value, with the loop of `_container_costs`. -/
def valueCosts : Carrier → ValueCosts
  | .list items => itemCosts items (.counting items.length)
  | .dict fields => fieldCosts fields (.counting fields.length)
  | .null => scalarCosts .null
  | .bool value => scalarCosts (.bool value)
  | .int value => scalarCosts (.int value)
  | .float value => scalarCosts (.float value)
  | .str value => scalarCosts (.str value)
termination_by structural value => value

def itemCosts : List Carrier → ValueCosts → ValueCosts
  | [], costs => costs
  | item :: rest, costs => itemCosts rest (costs.extend (valueCosts item) 0 0)
termination_by structural items => items

def fieldCosts : List (Option String × Carrier) → ValueCosts → ValueCosts
  | [], costs => costs
  | (none, _) :: _, _ => ValueCosts.invalid
  | (some key, child) :: rest, costs =>
    fieldCosts rest (costs.extend (valueCosts child) key.utf8ByteSize 0)
termination_by structural fields => fields

end

section Traversal

variable (limits : Limits)

/-- `_bounded_scalar_failure` -/
def carrierScalarFailure (value : Carrier) (path : List String) : Resolution Unit := do
  boundedScalarFailure limits value.scalar path
  match value with
  | .float none =>
    refuse .invalid (pointerFromTokens path) "Realization values must use finite JSON numbers."
  | _ => pure ()

/-- The start of a traversal: the node and its own scalar. -/
def carrierNodeFailure (value : Carrier) (path : List String) (depth : ℕ) : Resolution Unit := do
  nodeBudgetFailure limits depth path
  carrierScalarFailure limits value path

mutual

/-- `validate_bounded_value` of plain lists, dictionaries and scalars -/
def validateCarrier : Carrier → List String → ℕ → Resolution Unit
  | .list items, path, depth => do
    carrierNodeFailure limits (.list items) path depth
    membersFailure limits items.length path
    validateCarrierItems items 0 path depth
  | .dict fields, path, depth => do
    carrierNodeFailure limits (.dict fields) path depth
    membersFailure limits fields.length path
    validateCarrierFields fields path depth
  | .null, path, depth => carrierNodeFailure limits .null path depth
  | .bool value, path, depth => carrierNodeFailure limits (.bool value) path depth
  | .int value, path, depth => carrierNodeFailure limits (.int value) path depth
  | .float value, path, depth => carrierNodeFailure limits (.float value) path depth
  | .str value, path, depth => carrierNodeFailure limits (.str value) path depth
termination_by structural value => value

def validateCarrierItems : List Carrier → ℕ → List String → ℕ → Resolution Unit
  | [], _, _, _ => pure ()
  | item :: rest, index, path, depth => do
    validateCarrier item (path ++ [toString index]) (depth + 1)
    validateCarrierItems rest (index + 1) path depth
termination_by structural items => items

def validateCarrierFields : List (Option String × Carrier) → List String → ℕ → Resolution Unit
  | [], _, _ => pure ()
  | (none, _) :: _, path, _ =>
    refuse .invalid (pointerFromTokens path) "Realization record keys must be strings."
  | (some key, child) :: rest, path, depth => do
    carrierScalarFailure limits (.str key) path
    validateCarrier child (path ++ [key]) (depth + 1)
    validateCarrierFields rest path depth
termination_by structural fields => fields

end

end Traversal

/-! ## Spending -/

def RelationBudget.charge (budget : RelationBudget) (costs : ValueCosts) : RelationBudget :=
  { budget with
    nodes := budget.nodes + costs.nodes
    operations := budget.operations + costs.nodes
    scalarBytes := budget.scalarBytes + costs.scalarBytes }

structure Fits (limits : Limits) (depth : ℕ) (costs : ValueCosts) (budget : RelationBudget) :
    Prop where
  valid : costs.valid = true
  depth_le : depth + costs.depth ≤ limits.maxDepth
  members_le : costs.members ≤ limits.maxMembers
  scalar_le : costs.maxScalarBytes ≤ limits.maxScalarBytes
  nodes_le : budget.nodes + costs.nodes ≤ limits.maxNodes
  operations_le : budget.operations + costs.nodes ≤ limits.maxOperations
  bytes_le : budget.scalarBytes + costs.scalarBytes ≤ limits.maxTotalScalarBytes

/-- A step of a traversal that has paid some costs: it succeeds when the next costs fit
too, and pays up to them. -/
structure Continues (limits : Limits) (m : Resolution Unit) (depth : ℕ)
    (paid next : ValueCosts) : Prop where
  within : ∀ budget, Fits limits depth next budget → Fits limits depth paid budget
  pays : ∀ budget left, Fits limits depth paid budget →
    (exec m (budget.charge paid) = (.ok (), left) ↔
      Fits limits depth next budget ∧ left = budget.charge next)

section Steps

variable {limits : Limits} {m n : Resolution Unit} {depth : ℕ} {paid next last : ValueCosts}

theorem continues_pure : Continues limits (pure ()) depth paid paid where
  within _ h := h
  pays budget left h := by
    rw [exec_pure_ok_iff]
    exact ⟨fun hleft => ⟨h, hleft.2⟩, fun hleft => ⟨rfl, hleft.2⟩⟩

theorem continues_refuse (status : RelationStatus) (pointer message : String)
    (h : next.valid = false) :
    Continues limits (refuse status pointer message) depth paid next where
  within _ hnext := by
    rw [hnext.valid] at h
    exact absurd h (by decide)
  pays budget left _ := by
    refine iff_of_false (fun hexec => ?_) fun hleft => ?_
    · rw [refuse, exec_throw] at hexec
      cases hexec
    · rw [hleft.1.valid] at h
      exact absurd h (by decide)

theorem Continues.bind (hm : Continues limits m depth paid next)
    (hn : Continues limits n depth next last) :
    Continues limits (m >>= fun _ => n) depth paid last where
  within budget h := hm.within budget (hn.within budget h)
  pays budget left h := by
    rw [exec_bind_ok_iff]
    constructor
    · intro hexec
      obtain ⟨⟨⟩, middle, hfirst, hrest⟩ := hexec
      obtain ⟨hnext, rfl⟩ := (hm.pays budget middle h).mp hfirst
      exact (hn.pays budget left hnext).mp hrest
    · intro hlast
      have hnext := hn.within budget hlast.1
      exact ⟨(), budget.charge next, (hm.pays budget _ h).mpr ⟨hnext, rfl⟩,
        (hn.pays budget left hnext).mpr hlast⟩

theorem Continues.spends (hn : Continues limits n depth paid next)
    (hm : Spends m (Fits limits depth paid) (·.charge paid)) :
    Spends (m >>= fun _ => n) (Fits limits depth next) (·.charge next) := by
  intro budget left
  rw [exec_bind_ok_iff]
  constructor
  · intro hexec
    obtain ⟨⟨⟩, middle, hfirst, hrest⟩ := hexec
    obtain ⟨hpaid, rfl⟩ := (hm budget middle).mp hfirst
    exact (hn.pays budget left hpaid).mp hrest
  · intro hnext
    have hpaid := hn.within budget hnext.1
    exact ⟨(), budget.charge paid, (hm budget _).mpr ⟨hpaid, rfl⟩,
      (hn.pays budget left hpaid).mpr hnext⟩

end Steps

theorem exec_require_ok_iff {spend : Resolution (Option String)} {pointer : String}
    {message : String → String} {budget left : RelationBudget} :
    exec (require spend pointer message) budget = (.ok (), left) ↔
      exec spend budget = (.ok none, left) := by
  rw [require, exec_bind_ok_iff]
  constructor
  · intro h
    obtain ⟨exhausted, middle, hspend, hrest⟩ := h
    cases exhausted with
    | none =>
      rw [(exec_pure_ok_iff.mp hrest).2]
      exact hspend
    | some name => cases hrest
  · intro h
    exact ⟨none, left, h, rfl⟩

theorem length_le_utf8ByteSize (text : String) : text.length ≤ text.utf8ByteSize := by
  induction text using String.push_induction with
  | empty => exact Nat.zero_le _
  | push rest c ih =>
    rw [String.length_push, String.utf8ByteSize_push]
    have hpos := c.utf8Size_pos
    omega

section Spending

variable (limits : Limits)

theorem exec_spendNode_ok_iff (depth : ℕ) (budget left : RelationBudget) :
    exec (spendNode limits depth : Resolution _) budget = (.ok none, left) ↔
      (depth ≤ limits.maxDepth ∧ budget.nodes + 1 ≤ limits.maxNodes ∧
        budget.operations + 1 ≤ limits.maxOperations) ∧ left = budget.charge .single := by
  rw [spendNode, exec_modify_bind, exec_get_bind]
  by_cases hdepth : depth > limits.maxDepth
  · rw [if_pos hdepth, exec_pure_ok_iff]
    exact iff_of_false (fun h => nomatch h.1) fun h => by omega
  · rw [if_neg hdepth]
    by_cases hnodes : budget.nodes + 1 > limits.maxNodes
    · rw [if_pos hnodes, exec_pure_ok_iff]
      exact iff_of_false (fun h => nomatch h.1) fun h => by omega
    · rw [if_neg hnodes, spendOperation, exec_modify_bind, exec_get_bind, exec_pure_ok_iff]
      by_cases hoperations : budget.operations + 1 > limits.maxOperations
      · rw [if_pos hoperations]
        exact iff_of_false (fun h => nomatch h.1) fun h => by omega
      · rw [if_neg hoperations]
        refine and_congr (iff_of_true rfl ?_) Iff.rfl
        omega

theorem exec_spendScalar_ok_iff (value : Json) (budget left : RelationBudget) :
    exec (spendScalar limits value : Resolution _) budget = (.ok none, left) ↔
      (scalarSize value ≤ limits.maxScalarBytes ∧
        budget.scalarBytes + scalarSize value ≤ limits.maxTotalScalarBytes) ∧
      left = { budget with scalarBytes := budget.scalarBytes + scalarSize value } := by
  have hmany (h : hasManyCharacters limits value = true) :
      scalarSize value > limits.maxScalarBytes := by
    cases value with
    | str text => exact Nat.lt_of_lt_of_le (of_decide_eq_true h) (length_le_utf8ByteSize text)
    | null | bool _ | int _ | float _ | arr _ | obj _ => cases h
  rw [spendScalar]
  by_cases hsize : scalarSize value > limits.maxScalarBytes
  · rw [if_pos (Or.inr hsize), exec_pure_ok_iff]
    exact iff_of_false (fun h => nomatch h.1) fun h => by omega
  · rw [if_neg (not_or.mpr ⟨fun h => hsize (hmany h), hsize⟩), spendScalarSize, exec_modify_bind,
      exec_get_bind, exec_pure_ok_iff]
    by_cases htotal : budget.scalarBytes + scalarSize value > limits.maxTotalScalarBytes
    · rw [if_pos htotal]
      exact iff_of_false (fun h => nomatch h.1) fun h => by omega
    · rw [if_neg htotal]
      refine and_congr (iff_of_true rfl ?_) Iff.rfl
      omega

theorem exec_boundedScalarFailure_ok_iff (value : Json) (path : List String)
    (budget left : RelationBudget) :
    exec (boundedScalarFailure limits value path) budget = (.ok (), left) ↔
      (scalarSize value ≤ limits.maxScalarBytes ∧
        budget.scalarBytes + scalarSize value ≤ limits.maxTotalScalarBytes) ∧
      left = { budget with scalarBytes := budget.scalarBytes + scalarSize value } := by
  unfold boundedScalarFailure
  rw [exec_bind_ok_iff]
  constructor
  · intro h
    obtain ⟨⟨⟩, middle, hspend, hrest⟩ := h
    rw [exec_require_ok_iff] at hspend
    have hleft : left = middle := by
      cases value with
      | int n =>
        dsimp only at hrest
        split at hrest
        · cases hrest
        · exact (exec_pure_ok_iff.mp hrest).2
      | null | bool _ | float _ | str _ | arr _ | obj _ =>
        exact (exec_pure_ok_iff.mp hrest).2
    rw [hleft]
    exact (exec_spendScalar_ok_iff limits value budget middle).mp hspend
  · intro h
    refine ⟨(), left, exec_require_ok_iff.mpr
      ((exec_spendScalar_ok_iff limits value budget left).mpr h), ?_⟩
    cases value with
    | int n =>
      -- an integer that fits the bytes fits the bits
      have hsize : ¬ n.natAbs.size > limits.maxScalarBytes * 8 := by
        have hbytes : max 1 ((n.natAbs.size + 7) / 8) ≤ limits.maxScalarBytes := h.1.1
        omega
      dsimp only
      rw [if_neg hsize]
      rfl
    | null | bool _ | float _ | str _ | arr _ | obj _ => rfl

theorem exec_carrierScalarFailure_ok_iff (value : Carrier) (path : List String)
    (budget left : RelationBudget) :
    exec (carrierScalarFailure limits value path) budget = (.ok (), left) ↔
      ((scalarCosts value).valid = true ∧ scalarSize value.scalar ≤ limits.maxScalarBytes ∧
        budget.scalarBytes + scalarSize value.scalar ≤ limits.maxTotalScalarBytes) ∧
      left = { budget with scalarBytes := budget.scalarBytes + scalarSize value.scalar } := by
  by_cases hfloat : value = .float none
  · subst hfloat
    refine iff_of_false (fun h => ?_) fun h => nomatch h.1.1
    unfold carrierScalarFailure at h
    rw [exec_bind_ok_iff] at h
    obtain ⟨_, _, _, hrest⟩ := h
    cases hrest
  · have hvalid : (scalarCosts value).valid = true := by
      cases value with
      | float q =>
        cases q with
        | none => exact absurd rfl hfloat
        | some q => rfl
      | null | bool _ | int _ | str _ | list _ | dict _ => rfl
    have hcheck : carrierScalarFailure limits value path =
        (boundedScalarFailure limits value.scalar path >>= fun _ => pure ()) := by
      cases value with
      | float q =>
        cases q with
        | none => exact absurd rfl hfloat
        | some q => rfl
      | null | bool _ | int _ | str _ | list _ | dict _ => rfl
    rw [hcheck, bind_pure, exec_boundedScalarFailure_ok_iff]
    exact and_congr_left' (and_iff_right hvalid).symm

theorem carrierNodeFailure_spends (value : Carrier) (path : List String) (depth : ℕ) :
    Spends (carrierNodeFailure limits value path depth) (Fits limits depth (scalarCosts value))
      (·.charge (scalarCosts value)) := by
  intro budget left
  rw [carrierNodeFailure, exec_bind_ok_iff]
  constructor
  · intro h
    obtain ⟨⟨⟩, middle, hnode, hscalar⟩ := h
    rw [nodeBudgetFailure, exec_require_ok_iff, exec_spendNode_ok_iff] at hnode
    obtain ⟨⟨hdepth, hnodes, hoperations⟩, rfl⟩ := hnode
    rw [exec_carrierScalarFailure_ok_iff] at hscalar
    obtain ⟨⟨hvalid, hsize, hbytes⟩, rfl⟩ := hscalar
    exact ⟨⟨hvalid, hdepth, Nat.zero_le _, hsize, hnodes, hoperations, hbytes⟩, rfl⟩
  · intro h
    obtain ⟨hfits, rfl⟩ := h
    refine ⟨(), budget.charge .single, ?_, ?_⟩
    · rw [nodeBudgetFailure, exec_require_ok_iff, exec_spendNode_ok_iff]
      exact ⟨⟨hfits.depth_le, hfits.nodes_le, hfits.operations_le⟩, rfl⟩
    · rw [exec_carrierScalarFailure_ok_iff]
      exact ⟨⟨hfits.valid, hfits.scalar_le, hfits.bytes_le⟩, rfl⟩

end Spending

section Containers

variable {limits : Limits} {depth : ℕ}

namespace ValueCosts

def withKey (costs : ValueCosts) (keyBytes : ℕ) : ValueCosts :=
  { costs with
    scalarBytes := costs.scalarBytes + keyBytes
    maxScalarBytes := max costs.maxScalarBytes keyBytes }

theorem extend_withKey (costs child : ValueCosts) (keyBytes : ℕ) :
    (costs.withKey keyBytes).extend child 0 0 = costs.extend child keyBytes 0 := by
  have hbytes : costs.scalarBytes + keyBytes + child.scalarBytes + 0 =
      costs.scalarBytes + child.scalarBytes + keyBytes := by omega
  have hscalar : max (max (max costs.maxScalarBytes keyBytes) child.maxScalarBytes) 0 =
      max (max costs.maxScalarBytes child.maxScalarBytes) keyBytes := by omega
  simp only [extend, withKey, hbytes, hscalar]

end ValueCosts

theorem charge_withKey (budget : RelationBudget) (costs : ValueCosts) (keyBytes : ℕ) :
    { budget.charge costs with scalarBytes := (budget.charge costs).scalarBytes + keyBytes } =
      budget.charge (costs.withKey keyBytes) := by
  simp only [RelationBudget.charge, ValueCosts.withKey, Nat.add_assoc]

theorem charge_extend (budget : RelationBudget) (costs child : ValueCosts) :
    (budget.charge costs).charge child = budget.charge (costs.extend child 0 0) := by
  simp only [RelationBudget.charge, ValueCosts.extend, Nat.add_assoc, Nat.add_zero]

theorem continues_membersFailure (count : ℕ) (path : List String) :
    Continues limits (membersFailure limits count path) depth .single (.counting count) where
  within _ hfits := { hfits with members_le := Nat.zero_le _ }
  pays budget left hfits := by
    unfold membersFailure
    by_cases hcount : count > limits.maxMembers
    · rw [if_pos hcount]
      exact iff_of_false (fun hexec => nomatch hexec)
        fun hleft => absurd hleft.1.members_le (Nat.not_le.mpr hcount)
    · rw [if_neg hcount, exec_pure_ok_iff]
      refine and_congr (iff_of_true rfl { hfits with members_le := ?_ }) Iff.rfl
      exact Nat.le_of_not_gt hcount

theorem continues_key (key : String) (path : List String) (costs : ValueCosts) :
    Continues limits (carrierScalarFailure limits (.str key) path) depth costs
      (costs.withKey key.utf8ByteSize) where
  within _ hfits :=
    { hfits with
      scalar_le := Nat.le_trans (Nat.le_max_left _ _) hfits.scalar_le
      bytes_le := Nat.le_trans (Nat.add_le_add_left (Nat.le_add_right _ _) _) hfits.bytes_le }
  pays budget left hfits := by
    rw [exec_carrierScalarFailure_ok_iff]
    refine and_congr ⟨fun hkey => ?_, fun hkey => ?_⟩ ?_
    · have hbytes : budget.scalarBytes + costs.scalarBytes + key.utf8ByteSize ≤
          limits.maxTotalScalarBytes := hkey.2.2
      exact { hfits with
        scalar_le := Nat.max_le.mpr ⟨hfits.scalar_le, hkey.2.1⟩
        bytes_le := by rwa [Nat.add_assoc] at hbytes }
    · refine ⟨rfl, Nat.le_trans (Nat.le_max_right _ _) hkey.scalar_le, ?_⟩
      have hbytes : budget.scalarBytes + (costs.scalarBytes + key.utf8ByteSize) ≤
        limits.maxTotalScalarBytes := hkey.bytes_le
      rwa [← Nat.add_assoc] at hbytes
    · rw [← charge_withKey]
      exact Iff.rfl

theorem fits_extend_iff (costs child : ValueCosts) (budget : RelationBudget) :
    Fits limits depth (costs.extend child 0 0) budget ↔
      Fits limits depth costs budget ∧ Fits limits (depth + 1) child (budget.charge costs) := by
  have hvalid : (costs.extend child 0 0).valid = true ↔ costs.valid = true ∧ child.valid = true :=
    Bool.and_eq_true_iff
  constructor
  · intro h
    obtain ⟨hfits, hdepth, hmembers, hscalar, hnodes, hoperations, hbytes⟩ := h
    obtain ⟨hcosts, hchild⟩ := hvalid.mp hfits
    simp only [ValueCosts.extend] at hdepth hmembers hscalar hnodes hoperations hbytes
    constructor
    · constructor <;> first | exact hcosts | omega
    · constructor <;> first | exact hchild | (dsimp only [RelationBudget.charge]; omega) | omega
  · intro h
    obtain ⟨⟨hcosts, hdepth, hmembers, hscalar, hnodes, hoperations, hbytes⟩, hfits⟩ := h
    obtain ⟨hchild, hdepth', hmembers', hscalar', hnodes', hoperations', hbytes'⟩ := hfits
    dsimp only [RelationBudget.charge] at hnodes' hoperations' hbytes'
    constructor
    · exact hvalid.mpr ⟨hcosts, hchild⟩
    all_goals
      dsimp only [ValueCosts.extend]
      omega

theorem continues_child {m : Resolution Unit} {child : ValueCosts} (costs : ValueCosts)
    (h : Spends m (Fits limits (depth + 1) child) (·.charge child)) :
    Continues limits m depth costs (costs.extend child 0 0) where
  within budget hfits := ((fits_extend_iff costs child budget).mp hfits).1
  pays budget left hfits := by
    rw [h (budget.charge costs) left, fits_extend_iff, and_iff_right hfits, ← charge_extend]

theorem continues_items {items : List Carrier}
    (h : ∀ item ∈ items, ∀ path depth,
      Spends (validateCarrier limits item path depth) (Fits limits depth (valueCosts item))
        (·.charge (valueCosts item)))
    (index : ℕ) (path : List String) (costs : ValueCosts) :
    Continues limits (validateCarrierItems limits items index path depth) depth costs
      (itemCosts items costs) := by
  induction items generalizing index costs with
  | nil => exact continues_pure
  | cons item rest ih =>
    rw [List.forall_mem_cons] at h
    exact (continues_child costs (h.1 _ _)).bind (ih h.2 _ _)

theorem continues_fields {fields : List (Option String × Carrier)}
    (h : ∀ field ∈ fields, ∀ path depth,
      Spends (validateCarrier limits field.2 path depth) (Fits limits depth (valueCosts field.2))
        (·.charge (valueCosts field.2)))
    (path : List String) (costs : ValueCosts) :
    Continues limits (validateCarrierFields limits fields path depth) depth costs
      (fieldCosts fields costs) := by
  induction fields generalizing costs with
  | nil => exact continues_pure
  | cons field rest ih =>
    rw [List.forall_mem_cons] at h
    obtain ⟨key, child⟩ := field
    cases key with
    | none => exact continues_refuse _ _ _ rfl
    | some key =>
      have hchild := continues_child (costs.withKey key.utf8ByteSize)
        (h.1 (path ++ [key]) (depth + 1))
      rw [ValueCosts.extend_withKey] at hchild
      exact (continues_key key path costs).bind (hchild.bind (ih h.2 _))

end Containers

/-- The traversal of a value succeeds exactly where the costs of the value fit, and
charges them. -/
theorem validateCarrier_spends (limits : Limits) (value : Carrier) (path : List String)
    (depth : ℕ) :
    Spends (validateCarrier limits value path depth) (Fits limits depth (valueCosts value))
      (·.charge (valueCosts value)) := by
  induction value using Carrier.induct generalizing path depth with
  | hlist items ih =>
    exact ((continues_membersFailure items.length path).bind
      (continues_items ih 0 path _)).spends (carrierNodeFailure_spends limits _ path depth)
  | hdict fields ih =>
    exact ((continues_membersFailure fields.length path).bind
      (continues_fields ih path _)).spends (carrierNodeFailure_spends limits _ path depth)
  | hnull | hbool _ | hint _ | hfloat _ | hstr _ => exact carrierNodeFailure_spends limits _ path depth

/-! ## Retained histories -/

theorem itemCosts_append (items more : List Carrier) (costs : ValueCosts) :
    itemCosts (items ++ more) costs = itemCosts more (itemCosts items costs) := by
  induction items generalizing costs with
  | nil => rfl
  | cons item rest ih => exact ih _

namespace ValueCosts

def withMembers (costs : ValueCosts) (members : ℕ) : ValueCosts :=
  { costs with members := max costs.members members }

theorem extend_withMembers (costs child : ValueCosts) (members : ℕ) :
    (costs.withMembers members).extend child 0 0 = costs.extend child 0 members := by
  have hmax : max (max (max costs.members members) child.members) 0 =
      max (max costs.members child.members) members := by omega
  simp only [extend, withMembers, hmax]

theorem withMembers_extend (costs child : ValueCosts) (members : ℕ) :
    (costs.extend child 0 0).withMembers members = costs.extend child 0 members := by
  have hmax : max (max (max costs.members child.members) 0) members =
      max (max costs.members child.members) members := by omega
  simp only [extend, withMembers, hmax]

end ValueCosts

theorem itemCosts_withMembers (items : List Carrier) (costs : ValueCosts) (members : ℕ) :
    itemCosts items (costs.withMembers members) = (itemCosts items costs).withMembers members := by
  induction items generalizing costs with
  | nil => rfl
  | cons item rest ih =>
    rw [itemCosts, itemCosts, ← ih, ValueCosts.withMembers_extend, ValueCosts.extend_withMembers]

abbrev CarrierRecord := List (Option String × Carrier)

/-- `EventHistory`: its records, and the costs of the list of them. -/
structure EventHistory where
  records : List CarrierRecord
  costs : ValueCosts
  costs_eq : costs = valueCosts (.list (records.map .dict))

namespace EventHistory

def plain (history : EventHistory) : Carrier := .list (history.records.map .dict)

def empty : EventHistory := ⟨[], .single, rfl⟩

theorem costs_appended (records : List CarrierRecord) (payload : CarrierRecord) :
    (valueCosts (.list (records.map .dict))).extend (valueCosts (.dict payload)) 0
        (records.length + 1) =
      valueCosts (.list ((records ++ [payload]).map .dict)) := by
  have hlength : (records.map Carrier.dict).length = records.length := List.length_map _
  have hcount : (ValueCosts.counting records.length).withMembers (records.length + 1) =
      .counting (records.length + 1) :=
    congrArg ValueCosts.counting (Nat.max_eq_right (Nat.le_succ _))
  calc (valueCosts (.list (records.map .dict))).extend (valueCosts (.dict payload)) 0
        (records.length + 1)
    _ = (itemCosts (records.map .dict) (.counting (records.length + 1))).extend
          (valueCosts (.dict payload)) 0 0 := by
      rw [valueCosts, hlength, ← ValueCosts.extend_withMembers, ← itemCosts_withMembers, hcount]
    _ = valueCosts (.list ((records ++ [payload]).map .dict)) := by
      rw [List.map_append, valueCosts, List.length_append, hlength, itemCosts_append]
      rfl

/-- `EventHistory.appended` of a payload that the history can keep -/
def appended (history : EventHistory) (payload : CarrierRecord) : EventHistory where
  records := history.records ++ [payload]
  costs := history.costs.extend (valueCosts (.dict payload)) 0 (history.records.length + 1)
  costs_eq := by rw [history.costs_eq, costs_appended]

end EventHistory

/-- The loop of `_container_costs` over the histories of a map -/
def historyCosts (values : List (String × EventHistory)) (costs : ValueCosts) : ValueCosts :=
  values.foldl (fun costs entry => costs.extend entry.2.costs entry.1.utf8ByteSize 0) costs

/-- `_container_costs` of a history map -/
def containerCosts (values : Dict String EventHistory) : ValueCosts :=
  historyCosts values.entries (.counting values.entries.length)

/-- `HistoryMap`: its histories, and the costs that `value_costs` has kept. -/
structure HistoryMap where
  values : Dict String EventHistory
  kept : Option ValueCosts
  kept_eq : ∀ costs, kept = some costs → costs = containerCosts values

namespace HistoryMap

def plainFields (map : HistoryMap) : List (Option String × Carrier) :=
  map.values.entries.map fun entry => (some entry.1, entry.2.plain)

def plain (map : HistoryMap) : Carrier := .dict map.plainFields

/-- `value_costs` of a history map, and the map with its costs kept -/
def valueCosts (map : HistoryMap) : ValueCosts × HistoryMap :=
  match map.kept with
  | some costs => (costs, map)
  | none =>
    let costs := containerCosts map.values
    (costs, { map with kept := some costs, kept_eq := fun _ h => (Option.some.inj h).symm })

/-- `HistoryMap(field, histories, policy)` of records that the policy admits.  No record
identity enters a cost. -/
def ofRecords (histories : Dict String (List CarrierRecord)) : HistoryMap where
  values := histories.mapValues fun _ records => records.foldl EventHistory.appended .empty
  kept := none
  kept_eq _ h := nomatch h

/-- `HistoryMap.append` of records that the policy admits: a new map, that keeps no
costs yet. -/
def append (map : HistoryMap) (participant : String) (records : List CarrierRecord) :
    HistoryMap where
  values := map.values.set participant
    (records.foldl EventHistory.appended ((map.values.get? participant).getD .empty))
  kept := none
  kept_eq _ h := nomatch h

end HistoryMap

/-- An immutable history, of one participant or of a field -/
inductive Retained where
  | events (history : EventHistory)
  | histories (map : HistoryMap)

namespace Retained

def plain : Retained → Carrier
  | .events history => history.plain
  | .histories map => map.plain

def valueCosts : Retained → ValueCosts × Retained
  | .events history => (history.costs, .events history)
  | .histories map => (map.valueCosts.1, .histories map.valueCosts.2)

end Retained

/-! ## Charging a history -/

/-- What `charge_immutable_history` answers and leaves. -/
structure HistoryCharge where
  accepted : Bool
  budget : RelationBudget
  value : Retained

section Charging

variable (limits : Limits)

def chargeImmutableHistory (value : Retained) (depth : ℕ) (budget : RelationBudget) :
    HistoryCharge :=
  let costs := value.valueCosts.1
  if costs.valid = false
      ∨ depth + costs.depth > limits.maxDepth
      ∨ costs.members > limits.maxMembers
      ∨ costs.maxScalarBytes > limits.maxScalarBytes
      ∨ budget.nodes + costs.nodes > limits.maxNodes
      ∨ budget.operations + costs.nodes > limits.maxOperations
      ∨ budget.scalarBytes + costs.scalarBytes > limits.maxTotalScalarBytes then
    ⟨false, budget, value.valueCosts.2⟩
  else
    ⟨true,
      { budget with
        nodes := budget.nodes + costs.nodes
        operations := budget.operations + costs.nodes
        scalarBytes := budget.scalarBytes + costs.scalarBytes },
      value.valueCosts.2⟩

/-! ## The traversal of a history -/

end Charging

/-! ## The costs kept are exact -/

theorem historyCosts_eq (values : List (String × EventHistory)) (costs : ValueCosts) :
    historyCosts values costs =
      fieldCosts (values.map fun entry => (some entry.1, entry.2.plain)) costs := by
  induction values generalizing costs with
  | nil => rfl
  | cons entry rest ih =>
    have hcosts : entry.2.costs = valueCosts entry.2.plain := entry.2.costs_eq
    rw [List.map_cons, fieldCosts, ← ih, ← hcosts]
    rfl

theorem HistoryMap.valueCosts_eq (map : HistoryMap) :
    map.valueCosts.1 = Realization.valueCosts map.plain := by
  have hcosts : containerCosts map.values = Realization.valueCosts map.plain := by
    rw [containerCosts, historyCosts_eq, HistoryMap.plain, Realization.valueCosts,
      HistoryMap.plainFields, List.length_map]
  rw [← hcosts, HistoryMap.valueCosts]
  cases hkept : map.kept with
  | none => rfl
  | some costs => exact map.kept_eq costs hkept

/-- What a caller does with a history map: it asks for the costs, or appends records. -/
def HistoryMap.access (map : HistoryMap) : Option (String × List CarrierRecord) → HistoryMap
  | none => map.valueCosts.2
  | some (participant, records) => map.append participant records

def grown (histories : Dict String (List CarrierRecord)) :
    Option (String × List CarrierRecord) → Dict String (List CarrierRecord)
  | none => histories
  | some (participant, records) =>
    histories.set participant ((histories.get? participant).getD [] ++ records)

theorem values_access {map : HistoryMap} {histories : Dict String (List CarrierRecord)}
    (h : map.values = (HistoryMap.ofRecords histories).values)
    (access : Option (String × List CarrierRecord)) :
    (map.access access).values = (HistoryMap.ofRecords (grown histories access)).values := by
  cases access with
  | none =>
    rw [grown, ← h, HistoryMap.access, HistoryMap.valueCosts]
    cases map.kept <;> rfl
  | some entry =>
    have hold : (map.values.get? entry.1).getD .empty =
        ((histories.get? entry.1).getD []).foldl EventHistory.appended .empty := by
      rw [h, HistoryMap.ofRecords, Dict.get?_mapValues]
      cases histories.get? entry.1 <;> rfl
    calc (map.access (some entry)).values
      _ = map.values.set entry.1 (entry.2.foldl EventHistory.appended
            ((map.values.get? entry.1).getD .empty)) := rfl
      _ = map.values.set entry.1 ((((histories.get? entry.1).getD []) ++ entry.2).foldl
            EventHistory.appended .empty) := by rw [hold, List.foldl_append]
      _ = (HistoryMap.ofRecords (grown histories (some entry))).values := by
        rw [h]
        exact (Dict.mapValues_set histories _ entry.1 _).symm

/-- However appends and questions for the costs follow each other, the histories are those
that are built afresh of all records, and the costs are those of the plain dictionary. -/
theorem history_map_runs_exact (histories : Dict String (List CarrierRecord))
    (accesses : List (Option (String × List CarrierRecord))) :
    let map := accesses.foldl HistoryMap.access (.ofRecords histories)
    map.plain = (HistoryMap.ofRecords (accesses.foldl grown histories)).plain ∧
      map.valueCosts.1 = Realization.valueCosts map.plain := by
  have hvalues : ∀ (map : HistoryMap) (histories : Dict String (List CarrierRecord)),
      map.values = (HistoryMap.ofRecords histories).values →
      (accesses.foldl HistoryMap.access map).values =
        (HistoryMap.ofRecords (accesses.foldl grown histories)).values := by
    induction accesses with
    | nil => exact fun _ _ h => h
    | cons access rest ih => exact fun map histories h => ih _ _ (values_access h access)
  refine ⟨?_, HistoryMap.valueCosts_eq _⟩
  unfold HistoryMap.plain HistoryMap.plainFields
  rw [hvalues _ _ rfl]

theorem Retained.valueCosts_eq (value : Retained) :
    value.valueCosts.1 = Realization.valueCosts value.plain := by
  cases value with
  | events history => exact history.costs_eq
  | histories map => exact map.valueCosts_eq

theorem HistoryMap.values_valueCosts (map : HistoryMap) : map.valueCosts.2.values = map.values := by
  unfold HistoryMap.valueCosts
  split
  · rfl
  · rfl

theorem Retained.plain_valueCosts (value : Retained) : value.valueCosts.2.plain = value.plain := by
  cases value with
  | events history => rfl
  | histories map =>
    show Carrier.dict map.valueCosts.2.plainFields = .dict map.plainFields
    rw [HistoryMap.plainFields, HistoryMap.plainFields, map.values_valueCosts]

section Exact

variable (limits : Limits) (value : Retained) (path : List String) (depth : ℕ)
  (budget : RelationBudget)

theorem chargeImmutableHistory_accepted_iff :
    (chargeImmutableHistory limits value depth budget).accepted = true ↔
      Fits limits depth (valueCosts value.plain) budget := by
  rw [← value.valueCosts_eq, chargeImmutableHistory]
  split
  · next h =>
    refine iff_of_false Bool.false_ne_true fun hfits => ?_
    obtain ⟨hvalid, hdepth, hmembers, hscalar, hnodes, hoperations, hbytes⟩ := hfits
    rcases h with h | h
    · rw [hvalid] at h
      exact absurd h (by decide)
    · omega
  · next h =>
    refine iff_of_true rfl ?_
    rw [not_or, Bool.not_eq_false] at h
    constructor
    · exact h.1
    all_goals omega

theorem chargeImmutableHistory_budget :
    (chargeImmutableHistory limits value depth budget).budget =
      if (chargeImmutableHistory limits value depth budget).accepted = true then
        budget.charge (valueCosts value.plain)
      else budget := by
  rw [← value.valueCosts_eq, chargeImmutableHistory]
  split
  · rfl
  · rfl

theorem chargeImmutableHistory_plain :
    (chargeImmutableHistory limits value depth budget).value.plain = value.plain := by
  rw [← value.plain_valueCosts, chargeImmutableHistory]
  split
  · rfl
  · rfl

/-- An immutable history is charged exactly when the traversal of its plain value
succeeds, and for the budget that the traversal leaves; else nothing is charged.  The
costs kept beside the value do not matter, nor whether any are. -/
theorem chargeImmutableHistory_exact :
    let charge := chargeImmutableHistory limits value depth budget
    (∀ left, exec (validateCarrier limits value.plain path depth) budget = (.ok (), left) ↔
      charge.accepted = true ∧ charge.budget = left) ∧
    (charge.accepted = false → charge.budget = budget) ∧ charge.value.plain = value.plain := by
  intro charge
  have haccepted := chargeImmutableHistory_accepted_iff limits value depth budget
  have hbudget := chargeImmutableHistory_budget limits value depth budget
  refine ⟨fun left => ?_, fun h => ?_, chargeImmutableHistory_plain limits value depth budget⟩
  · rw [validateCarrier_spends limits value.plain path depth budget left, ← haccepted]
    refine and_congr_right fun h => ?_
    rw [hbudget, if_pos h]
    exact eq_comm
  · rw [hbudget, if_neg (Bool.eq_false_iff.mp h)]

end Exact

section Whole

variable (limits : Limits)

end Whole

end Raes.Realization
