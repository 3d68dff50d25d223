import Raes.Realization.Escapes

/-!
# Where the evaluation of a scope raises

A scope indexes the keyed collections that its pointer leads through, and the one that it
closes.  It raises where an item of such a collection cannot be keyed.
-/

namespace Raes.Realization

open Stateful Verdict

def scopeStart (document : Document) (actual : Json) : ScopeTarget :=
  ⟨actual, some document.root, true, []⟩

def UnkeyableTarget (installed : Installed) (target : ScopeTarget) : Prop :=
  ∃ header shape members items, target.rule = some (.keyed header shape members) ∧
    target.actual = .arr items ∧ Unkeyable installed shape false items

/-- The scope leads to or through a keyed collection with an item that cannot be keyed. -/
def UnsafeScope (installed : Installed) (document : Document) (actual : Json) (scope : Scope) :
    Prop :=
  ∃ before after target, pointerTokens scope.fieldPointer = before ++ after ∧
    resolveScopeTarget (idealOperations installed document) (scopeStart document actual) before =
      .ok target ∧
    target.present = true ∧ UnkeyableTarget installed target ∧
    ((∃ token rest, after = token :: rest ∧ startsWith "@sha256:" token = true) ∨
      (after = [] ∧ scope.closure.posture ≠ .opened))

section Scopes

variable {installed : Installed} {document : Document}

def RuleValid (installed : Installed) (target : ScopeTarget) : Prop :=
  ∀ rule, target.rule = some rule → rule.Valid installed

theorem raises_resolve_iff (document : Document) {target : ScopeTarget}
    (h : RuleValid installed target)
    {header : NodeHeader} {shape : CollectionShape} {members : List (Identity × Node)}
    (hrule : target.rule = some (.keyed header shape members)) (items : List Json) :
    Raises ((idealOperations installed document).resolve target.place shape members items) ↔
      Unkeyable installed shape false items :=
  raises_keyedMembers_iff installed (h _ hrule).1 false items

variable {target : ScopeTarget}

theorem unkeyableTarget_iff {header : NodeHeader}
    {shape : CollectionShape} {members : List (Identity × Node)} {items : List Json}
    (hrule : target.rule = some (.keyed header shape members))
    (hactual : target.actual = .arr items) :
    UnkeyableTarget installed target ↔ Unkeyable installed shape false items := by
  constructor
  · rintro ⟨_, _, _, _, hrule', hactual', h⟩
    rw [hrule] at hrule'
    rw [hactual] at hactual'
    cases hrule'
    cases hactual'
    exact h
  · exact fun h => ⟨header, shape, members, items, hrule, hactual, h⟩

theorem raises_advanceRecordTarget (target : ScopeTarget) (fields : List (String × Json))
    (token : String) :
    ¬ Raises (advanceRecordTarget (idealOperations installed document) target fields token) := by
  unfold advanceRecordTarget
  split
  · exact not_raises_ok _
  · split
    · exact not_raises_ok _
    · exact not_raises_ok _
    · exact not_raises_ok _
    · exact not_raises_refusal

theorem raises_advanceListTarget_iff (h : RuleValid installed target)
    {items : List Json} (hactual : target.actual = .arr items) (token : String) :
    Raises (advanceListTarget (idealOperations installed document) target items token) ↔
      UnkeyableTarget installed target ∧ startsWith "@sha256:" token = true := by
  unfold advanceListTarget
  dsimp only
  split
  · next header shape members hrule =>
    rw [unkeyableTarget_iff hrule hactual, ← raises_resolve_iff document h hrule]
    unfold advanceKeyedTarget
    split
    · next hstart => exact iff_of_false not_raises_refusal fun hraises => by simp_all
    · next hstart =>
      rw [raises_bind, and_iff_left (by simpa using hstart)]
      refine or_iff_left ?_
      rintro ⟨found, _, hraises⟩
      exact not_raises_ok _ hraises
  · next hrule => 
    refine iff_of_false ?_ ?_
    · split
      · exact not_raises_ok _
      · exact not_raises_refusal
    · rintro ⟨⟨_, _, _, _, hrule', _⟩, _⟩
      rw [hrule] at hrule'
      cases hrule'
  · next hrule =>
    refine iff_of_false ?_ ?_
    · split
      · exact not_raises_ok _
      · exact not_raises_refusal
    · rintro ⟨⟨_, _, _, _, hrule', _⟩, _⟩
      rw [hrule] at hrule'
      cases hrule'
  · next hkeyed hnone hsequence =>
    refine iff_of_false not_raises_refusal ?_
    rintro ⟨⟨header, shape, members, _, hrule, _⟩, _⟩
    exact hkeyed header shape members hrule

theorem raises_advanceScopeTarget_iff (h : RuleValid installed target) (token : String) :
    Raises (advanceScopeTarget (idealOperations installed document) target token) ↔
      UnkeyableTarget installed target ∧ startsWith "@sha256:" token = true := by
  have hother : ∀ {p : Ideal ScopeTarget}, ¬ Raises p → (∀ items, target.actual ≠ .arr items) →
      (Raises p ↔ UnkeyableTarget installed target ∧ startsWith "@sha256:" token = true) := by
    intro p hp hactual
    refine iff_of_false hp ?_
    rintro ⟨⟨_, _, _, items, _, hitems, _⟩, _⟩
    exact hactual items hitems
  unfold advanceScopeTarget
  split
  · next fields hactual =>
    exact hother (raises_advanceRecordTarget target fields token)
      fun items hitems => by rw [hactual] at hitems; cases hitems
  · next items hactual => exact raises_advanceListTarget_iff h hactual token
  · next hobj harr => exact hother not_raises_refusal fun items hitems => harr items hitems

theorem valid_of_lookup {fields : List (String × Node)} {key : String} {child : Node}
    (h : fieldsValid installed fields) (hlookup : fields.lookup key = some child) :
    child.Valid installed :=
  (fieldsValid_iff installed fields).mp h _ (mem_of_lookup_eq_some hlookup)

variable {token : String}

theorem ruleValid_below {actual : Json}
    {rule : Option Node} (h : ∀ node, rule = some node → node.Valid installed) :
    RuleValid installed (target.below token actual rule) := h

theorem ruleValid_advanceRecordTarget {target next : ScopeTarget} (h : RuleValid installed target)
    {fields : List (String × Json)} (hnext : advanceRecordTarget
    (idealOperations installed document) target fields token =
      .ok next) : RuleValid installed next := by
  unfold advanceRecordTarget at hnext
  split at hnext
  · cases hnext
    exact h
  · split at hnext
    · next header ruleFields closure hrule =>
      cases hnext
      exact ruleValid_below fun node hnode => valid_of_lookup (h _ hrule).2.2.2 hnode
    · cases hnext
      exact ruleValid_below fun _ hnode => nomatch hnode
    · cases hnext
      exact ruleValid_below fun _ hnode => nomatch hnode
    · cases hnext

theorem ruleValid_advanceSequenceTarget (h : RuleValid installed target)
    (items : List Json) (token : String) :
    RuleValid installed (advanceSequenceTarget target items token) := by
  unfold advanceSequenceTarget
  split
  · exact h
  · refine ruleValid_below fun node hnode => ?_
    split at hnode
    · next header nodes closure minItems maxItems hrule =>
      have hnodes := (itemsValid_iff installed nodes).mp (h _ hrule).2.2.2.2
      exact hnodes node (List.mem_of_getElem? hnode)
    · cases hnode

theorem ruleValid_advanceListTarget {target next : ScopeTarget} (h : RuleValid installed target)
    {items : List Json} (hnext : advanceListTarget
    (idealOperations installed document) target items token =
      .ok next) : RuleValid installed next := by
  have hindex : (if isArrayIndexToken token then
      (pure (advanceSequenceTarget target items token) : Ideal ScopeTarget)
      else .error none) = .ok next → RuleValid installed next := by
    intro hnext
    split at hnext
    · cases hnext
      exact ruleValid_advanceSequenceTarget h items token
    · cases hnext
  unfold advanceListTarget at hnext
  dsimp only at hnext
  split at hnext
  · next header shape members hrule =>
    unfold advanceKeyedTarget at hnext
    split at hnext
    · cases hnext
    · obtain ⟨found, hfound, hreturn⟩ := bind_eq_ok_iff.mp hnext
      cases hreturn
      split
      · exact h
      · refine ruleValid_below fun node hnode => ?_
        obtain ⟨member, hmember, heq⟩ := mem_of_keyedMembers installed hfound _
          (mem_of_lookup_eq_some hnode)
        have hmembers := (membersValid_iff installed members).mp (h _ hrule).2
        have hmember' : member.2 = node := heq
        rw [← hmember']
        exact hmembers member hmember
  · exact hindex hnext
  · exact hindex hnext
  · cases hnext

theorem ruleValid_advanceScopeTarget {target next : ScopeTarget} (h : RuleValid installed target)
    (hnext : advanceScopeTarget (idealOperations installed document) target token = .ok next) :
    RuleValid installed next := by
  unfold advanceScopeTarget at hnext
  split at hnext
  · exact ruleValid_advanceRecordTarget h hnext
  · exact ruleValid_advanceListTarget h hnext
  · cases hnext

theorem ruleValid_resolveScopeTarget {target next : ScopeTarget} (h : RuleValid installed target)
    {tokens : List String}
    (hnext : resolveScopeTarget (idealOperations installed document) target tokens = .ok next) :
    RuleValid installed next := by
  induction tokens generalizing target with
  | nil =>
    cases hnext
    exact h
  | cons token rest ih =>
    obtain ⟨between, hbetween, hrest⟩ := bind_eq_ok_iff.mp hnext
    have hvalid := ruleValid_advanceScopeTarget h hbetween
    split at hrest
    · exact ih hvalid hrest
    · cases hrest
      exact hvalid

theorem raises_resolveScopeTarget_iff (h : RuleValid installed target)
    (hpresent : target.present = true) (tokens : List String) :
    Raises (resolveScopeTarget (idealOperations installed document) target tokens) ↔
      ∃ before token rest reached, tokens = before ++ token :: rest ∧
        resolveScopeTarget (idealOperations installed document) target before = .ok reached ∧
        reached.present = true ∧ UnkeyableTarget installed reached ∧
        startsWith "@sha256:" token = true := by
  induction tokens generalizing target with
  | nil =>
    refine iff_of_false (not_raises_ok _) ?_
    rintro ⟨before, token, rest, _, htokens, _⟩
    cases before <;> cases htokens
  | cons token rest ih =>
    rw [resolveScopeTarget, raises_bind, raises_advanceScopeTarget_iff h]
    constructor
    · rintro (⟨hunkeyable, hstart⟩ | ⟨next, hnext, hraises⟩)
      · exact ⟨[], token, rest, target, rfl, rfl, hpresent, hunkeyable, hstart⟩
      · split at hraises
        · next hnextPresent =>
          obtain ⟨before, last, after, reached, rfl, hreached, hgoal⟩ :=
            (ih (ruleValid_advanceScopeTarget h hnext) hnextPresent).mp hraises
          refine ⟨token :: before, last, after, reached, rfl, ?_, hgoal⟩
          rw [resolveScopeTarget, hnext]
          show (if next.present = true then _ else _) = _
          rw [if_pos hnextPresent]
          exact hreached
        · exact absurd hraises (not_raises_ok _)
    · rintro ⟨before, last, after, reached, htokens, hreached, hpresent', hunkeyable, hstart⟩
      cases before with
      | nil =>
        cases htokens
        cases hreached
        exact Or.inl ⟨hunkeyable, hstart⟩
      | cons first before =>
        cases htokens
        obtain ⟨next, hnext, hrest⟩ := bind_eq_ok_iff.mp hreached
        refine Or.inr ⟨next, hnext, ?_⟩
        split at hrest
        · next hnextPresent =>
          rw [if_pos hnextPresent]
          exact (ih (ruleValid_advanceScopeTarget h hnext) hnextPresent).mpr
            ⟨before, last, after, reached, rfl, hrest, hpresent', hunkeyable, hstart⟩
        · next hnextPresent =>
          cases hrest
          exact absurd hpresent' hnextPresent

theorem raises_evaluateClosedTarget_iff (h : RuleValid installed target) (tokens : List String) :
    Raises (evaluateClosedTarget (idealOperations installed document) target tokens) ↔
      UnkeyableTarget installed target := by
  have hextras : ∀ hasExtras, ¬ Raises (refuseExtras (idealOperations installed document)
      hasExtras) := fun hasExtras => by
    cases hasExtras
    · exact not_raises_ok _
    · exact not_raises_refusal
  unfold evaluateClosedTarget
  rw [show (idealOperations installed document).children tokens = pure _ from rfl, pure_bind]
  split
  · next fields hactual =>
    refine iff_of_false ?_ ?_
    · unfold evaluateClosedRecord
      dsimp only
      split
      · exact not_raises_refusal
      · exact not_raises_ok _
    · rintro ⟨_, _, _, items, _, hitems, _⟩
      rw [hactual] at hitems
      cases hitems
  · next items hactual =>
    unfold evaluateClosedCollection
    split
    · next header shape members hrule =>
      rw [unkeyableTarget_iff hrule hactual, raises_bind,
        raises_resolve_iff document h hrule]
      refine or_iff_left ?_
      rintro ⟨found, _, hraises⟩
      exact hextras _ hraises
    · next hkeyed =>
      refine iff_of_false (hextras _) ?_
      rintro ⟨header, shape, members, _, hrule, _⟩
      exact hkeyed header shape members hrule
  · next hobj harr =>
    refine iff_of_false not_raises_refusal ?_
    rintro ⟨_, _, _, items, _, hitems, _⟩
    exact harr items hitems

theorem isContainer_of_unkeyable (h : UnkeyableTarget installed target) :
    isContainer target.actual = true ∧ isInterpreted target.rule = true := by
  obtain ⟨_, _, _, _, hrule, hactual, _⟩ := h
  rw [hrule, hactual]
  exact ⟨rfl, rfl⟩

theorem raises_after_resolve_iff (h : RuleValid installed target) (scope : Scope) :
    Raises (if target.present = false then pure () else
      if isContainer target.actual = false then
        (idealOperations installed document).failure .unsupported
          "A closure scope must address a record or collection value."
      else if scope.closure.posture = .opened then pure ()
      else if isInterpreted target.rule = false then
        (idealOperations installed document).failure .unsupported
          "A closure scope cannot be interpreted for this constraint kind."
      else evaluateClosedTarget (idealOperations installed document) target
        (pointerTokens scope.fieldPointer)) ↔
      target.present = true ∧ UnkeyableTarget installed target ∧
        scope.closure.posture ≠ .opened := by
  have hcontainer : UnkeyableTarget installed target →
      isContainer target.actual = true ∧ isInterpreted target.rule = true :=
    isContainer_of_unkeyable
  split
  · next hpresent => exact iff_of_false (not_raises_ok _) fun hgoal => by simp_all
  split
  · next hnot => exact iff_of_false not_raises_refusal fun hgoal => by simp_all
  split
  · next hopened => exact iff_of_false (not_raises_ok _) fun hgoal => hgoal.2.2 hopened
  split
  · next hnot => exact iff_of_false not_raises_refusal fun hgoal => by simp_all
  · next hpresent _ hopened _ =>
    rw [raises_evaluateClosedTarget_iff h]
    simp_all

theorem raises_applyScope_iff (hroot : document.root.Valid installed) (actual : Json)
    (scope : Scope) :
    Raises (applyScope (idealOperations installed document) document.root actual scope) ↔
      UnsafeScope installed document actual scope := by
  have hstart : RuleValid installed (scopeStart document actual) := by
    intro rule hrule
    cases hrule
    exact hroot
  unfold applyScope
  rw [raises_bind, ← scopeStart, raises_resolveScopeTarget_iff hstart rfl]
  constructor
  · rintro (⟨before, token, rest, reached, htokens, hreached, hpresent, hunkeyable, htoken⟩ |
      ⟨target, htarget, hraises⟩)
    · exact ⟨before, token :: rest, reached, htokens, hreached, hpresent, hunkeyable,
        Or.inl ⟨token, rest, rfl, htoken⟩⟩
    · obtain ⟨hpresent, hunkeyable, hclosed⟩ := (raises_after_resolve_iff
        (ruleValid_resolveScopeTarget hstart htarget) scope).mp hraises
      exact ⟨_, [], target, (List.append_nil _).symm, htarget, hpresent, hunkeyable,
        Or.inr ⟨rfl, hclosed⟩⟩
  · rintro ⟨before, after, target, htokens, htarget, hpresent, hunkeyable,
      ⟨token, rest, rfl, htoken⟩ | ⟨rfl, hclosed⟩⟩
    · exact Or.inl ⟨before, token, rest, target, htokens, htarget, hpresent, hunkeyable, htoken⟩
    · rw [List.append_nil] at htokens
      rw [← htokens] at htarget
      exact Or.inr ⟨target, htarget, (raises_after_resolve_iff
        (ruleValid_resolveScopeTarget hstart htarget) scope).mpr ⟨hpresent, hunkeyable, hclosed⟩⟩

theorem answers_scopesHold_iff (hroot : document.root.Valid installed) (actual : Json) :
    Answers (scopesHold installed document actual) ↔
      ∀ scope ∈ document.scopes, ¬ UnsafeScope installed document actual scope := by
  unfold scopesHold
  rw [answers_every, List.forall_mem_map]
  refine forall₂_congr fun scope _ => ?_
  rw [← raises_applyScope_iff hroot, scopeHolds, answers_settled]
  simp [Raises]

end Scopes

/-! ## Evaluations -/

variable (installed : Installed)

/-- Nothing that the evaluation of the value reaches is unsafe. -/
def Safe (document : Document) (actual : Json) : Prop :=
  (∀ scope ∈ document.scopes, ¬ UnsafeScope installed document actual scope) ∧
    SafeBelow installed document [] document.root actual

theorem answers_meets_iff {installed : Installed} {document : Document}
    (hvalid : document.Valid installed) (actual : Json) :
    Answers (meets installed document actual) ↔ Safe installed document actual := by
  rw [meets, answers_both, answers_scopesHold_iff hvalid.root, answers_rootHolds_iff hvalid, Safe]

def sampleInstalled : Installed := ⟨⟨fun _ => ""⟩, ⟨fun _ _ => 0, fun _ _ => 0⟩⟩

def plainDocument (root : Node) : Document where
  semanticProfile := "profile"
  defaultClosure := undefinedClosure
  scopes := []
  root := root
  definitions := []

theorem plainDocument_valid {installed : Installed} {root : Node} (h : root.Valid installed) :
    (plainDocument root).Valid installed where
  profile := show TextWithin 1 256 "profile" from ⟨by decide, by decide⟩
  defaultClosure := by simp [plainDocument, undefinedClosure, Closure.Valid]
  scopes _ hscope := nomatch hscope
  pointers := List.nodup_nil
  root := h
  definitionCount := Nat.zero_le _
  names := List.nodup_nil
  definitions _ hdefinition := nomatch hdefinition

def unitInterval : Node :=
  .domain ⟨.required, .author⟩ (.numericInterval ⟨.number, 0, 1, true, true⟩)

theorem unitInterval_valid : unitInterval.Valid installed := by
  show _ ∧ _
  refine ⟨fun h => (nomatch h), ?_, fun _ => ⟨rfl, rfl⟩⟩
  show (0 : ℚ) ≤ 1
  decide +kernel

def openAccounts : Node :=
  .keyed ⟨.required, .author⟩
    ⟨"accounts", ["id"], [], ⟨.opened, some "scenario", some "profile"⟩, 0, 4096⟩ []

theorem openAccounts_valid : openAccounts.Valid installed := by
  refine ⟨?_, trivial⟩
  constructor <;> simp [TextWithin, Closure.Valid] <;> decide

example : evaluateRealizationConstraint sampleInstalled defaultLimits
    (plainDocument openAccounts) (.arr [.obj [("id", .int (2 ^ 53))]]) =
    .error integerDomainError := by decide +kernel

end Raes.Realization
