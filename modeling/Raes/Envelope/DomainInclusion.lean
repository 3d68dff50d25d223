import Mathlib.Algebra.Order.Ring.Unbundled.Rat
import Raes.Contracts.BoundedDomains

/-!
# Inclusion of value domains

`domain_subset` of `raes/_realization_envelope_domains.py`, the test of one bounded domain
against another, and the inclusion of their values.  The test compares the ends of two
intervals, and an interval with equal ends by its one representative.
-/

namespace Raes.Envelope

variable (orders : VersionOrders)

def finiteMembers : DomainDescriptor → Option (List DomainScalar)
  | .exact value => some [value]
  | .enum values => some values
  | .boolean (some value) => some [.bool value]
  | .boolean none => some [.bool false, .bool true]
  | .governedReference _ allowedRefs => some (allowedRefs.map .str)
  | _ => none

def governedSubset : DomainDescriptor → DomainDescriptor → Bool
  | .governedReference authority refs, .governedReference supAuthority allowedRefs =>
    authority = supAuthority && refs.all (· ∈ allowedRefs)
  | _, _ => false

def intervalSubset (sub sup : NumericIntervalDomain) : Bool :=
  if sup.numericType = .integer ∧ sub.numericType = .number then false
  else
    decide (sup.lower < sub.lower ∨
        sup.lower = sub.lower ∧ (sup.lowerClosed = true ∨ sub.lowerClosed = false)) &&
      decide (sub.upper < sup.upper ∨
        sup.upper = sub.upper ∧ (sup.upperClosed = true ∨ sub.upperClosed = false))

/-- The value that an interval with equal ends is tested by. -/
def representative (sub : NumericIntervalDomain) : DomainScalar :=
  match sub.numericType with
  | .integer => .int (sub.lower.num.tdiv sub.lower.den)
  | .number => .float sub.lower

def numericSubset (sub : NumericIntervalDomain) (sup : DomainDescriptor) : Except PyError Bool :=
  if sub.lower = sub.upper then scalarInDomain orders (representative sub).toJson sup
  else match sup with
    | .numericInterval sup => .ok (intervalSubset sub sup)
    | _ => .ok false

/-- `all`, which stops at the first value outside the domain. -/
def allInDomain (sup : DomainDescriptor) : List DomainScalar → Except PyError Bool
  | [] => .ok true
  | value :: rest => do
    if ← scalarInDomain orders value.toJson sup then allInDomain sup rest else return false

def isGovernedReference : DomainDescriptor → Bool
  | .governedReference _ _ => true
  | _ => false

def domainSubset (sub sup : DomainDescriptor) : Except PyError Bool :=
  if isGovernedReference sub || isGovernedReference sup then .ok (governedSubset sub sup)
  else match sub with
    | .numericInterval sub => numericSubset orders sub sup
    | sub => match finiteMembers sub with
      | some members => allInDomain orders sup members
      | none => .ok false

def Representable : DomainScalar → Prop
  | .float value => IsBinary64 value
  | _ => True

def Member (value : DomainScalar) (domain : DomainDescriptor) : Prop :=
  scalarInDomain orders value.toJson domain = .ok true

def Included (sub sup : DomainDescriptor) : Prop :=
  ∀ value, Representable value → Member orders value sub → Member orders value sup

def IsScalarDomain : DomainDescriptor → Prop
  | .exact value => Representable value
  | .enum values => ∀ value ∈ values, Representable value
  | .boolean _ => True
  | .numericInterval domain => IsBinary64 domain.lower ∧ IsBinary64 domain.upper
  | _ => False

structure ScalarDomain where
  descriptor : DomainDescriptor
  scalar : IsScalarDomain descriptor
  valid : descriptor.Valid orders

def InRange (domain : NumericIntervalDomain) (q : ℚ) : Prop :=
  (if domain.lowerClosed then domain.lower ≤ q else domain.lower < q) ∧
    (if domain.upperClosed then q ≤ domain.upper else q < domain.upper)

def Reads (type : NumericType) : DomainScalar → ℚ → Prop
  | .int n, q => floatOfInt n = some q
  | .float p, q => type = .number ∧ p = q
  | _, _ => False

/-- An interval has a float where the other admits integers only, or a number outside the
ends of the other. -/
def Leaves (sub sup : NumericIntervalDomain) : Prop :=
  (sub.numericType = .number ∧ sup.numericType = .integer ∧ ∃ q, IsBinary64 q ∧ InRange sub q) ∨
    ∃ value q, Representable value ∧ Reads sub.numericType value q ∧ InRange sub q ∧
      ¬ InRange sup q

/-- The pairs of domains that the test decides: every finite domain in any other, an interval
with equal ends in an interval and in a finite domain that lists with its representative
every integer of the same float, and any other interval that passes the test of the ends or
has a value outside. -/
def Decides (sub sup : DomainDescriptor) : Prop :=
  match sub, sup with
  | .numericInterval sub, .numericInterval sup =>
    sub.lower = sub.upper ∨ intervalSubset sub sup = true ∨ Leaves sub sup
  | .numericInterval sub, sup =>
    if sub.lower = sub.upper then
      Member orders (representative sub) sup →
        ∀ n, floatOfInt n = some sub.lower → Member orders (.int n) sup
    else ∃ value, Representable value ∧ Member orders value (.numericInterval sub) ∧
      ¬ Member orders value sup
  | _, _ => True

variable {orders}

theorem toJson_injective {a b : DomainScalar} (h : a.toJson = b.toJson) : a = b := by
  cases a <;> cases b <;> cases h <;> rfl

theorem allInDomain_eq_true_iff (sup : DomainDescriptor) (members : List DomainScalar) :
    allInDomain orders sup members = .ok true ↔ ∀ value ∈ members, Member orders value sup := by
  induction members with
  | nil => exact iff_of_true rfl nofun
  | cons value rest ih =>
    rw [List.forall_mem_cons, allInDomain, bind_eq_ok_iff]
    constructor
    · rintro ⟨found, hfound, h⟩
      cases found with
      | true => exact ⟨hfound, ih.mp h⟩
      | false => cases h
    · rintro ⟨hvalue, hrest⟩
      exact ⟨true, hvalue, ih.mpr hrest⟩

theorem member_finite_iff {domain : DomainDescriptor} {members : List DomainScalar}
    (hmembers : finiteMembers domain = some members) (value : DomainScalar) :
    Member orders value domain ↔ value ∈ members := by
  unfold Member
  cases domain with
  | exact member =>
    obtain rfl := Option.some.inj hmembers
    simp only [scalarInDomain, scalarEq, Except.ok.injEq, decide_eq_true_eq, List.mem_singleton]
    exact ⟨toJson_injective, congrArg _⟩
  | enum values =>
    obtain rfl := Option.some.inj hmembers
    simp only [scalarInDomain, scalarEq, Except.ok.injEq, List.any_eq_true, decide_eq_true_eq]
    constructor
    · rintro ⟨member, hmem, h⟩
      rw [toJson_injective h]
      exact hmem
    · intro hmem
      exact ⟨value, hmem, rfl⟩
  | boolean member =>
    cases member with
    | none =>
      obtain rfl := Option.some.inj hmembers
      cases value with
      | bool b => cases b <;> simp [scalarInDomain, DomainScalar.toJson]
      | int _ | float _ | str _ => simp [scalarInDomain, DomainScalar.toJson]
    | some member =>
      obtain rfl := Option.some.inj hmembers
      cases value <;> simp [scalarInDomain, DomainScalar.toJson]
  | governedReference authority allowedRefs =>
    obtain rfl := Option.some.inj hmembers
    simp only [scalarInDomain, Except.ok.injEq, List.any_eq_true, decide_eq_true_eq, List.mem_map]
    constructor
    · rintro ⟨ref, hmem, h⟩
      exact ⟨ref, hmem, toJson_injective (a := .str ref) h.symm⟩
    · rintro ⟨ref, hmem, rfl⟩
      exact ⟨ref, hmem, rfl⟩
  | null | version _ | numericInterval _ | record _ _ => cases hmembers

theorem domainSubset_finite {sub sup : DomainDescriptor} {members : List DomainScalar}
    (hmembers : finiteMembers sub = some members) (hsub : isGovernedReference sub = false)
    (hsup : isGovernedReference sup = false)
    (hrepresentable : ∀ value ∈ members, Representable value) :
    domainSubset orders sub sup = .ok true ↔ Included orders sub sup := by
  have htest : domainSubset orders sub sup = allInDomain orders sup members := by
    unfold domainSubset
    rw [hsub, hsup, Bool.or_false, if_neg Bool.false_ne_true]
    cases sub with
    | numericInterval _ => cases hmembers
    | exact _ | enum _ | boolean _ | governedReference _ _ | null | version _ | record _ _ =>
      dsimp only
      rw [hmembers]
  rw [htest, allInDomain_eq_true_iff]
  constructor
  · intro h value _ hvalue
    exact h value ((member_finite_iff hmembers value).mp hvalue)
  · intro h value hvalue
    exact h value (hrepresentable value hvalue) ((member_finite_iff hmembers value).mpr hvalue)

theorem intervalMember_eq_true_iff (value : Json) (domain : NumericIntervalDomain) :
    intervalMember value domain = .ok true ↔
      scalarMatchesNumericType value domain.numericType = true ∧
        ∃ q, toFloat value = .ok q ∧ InRange domain q := by
  unfold intervalMember InRange
  by_cases hmatches : scalarMatchesNumericType value domain.numericType = false
  · rw [if_pos hmatches, hmatches]
    exact ⟨nofun, fun h => (nomatch h.1)⟩
  · rw [if_neg hmatches, bind_eq_ok_iff, (Bool.not_eq_false _).mp hmatches]
    refine Iff.trans (exists_congr fun q => and_congr_right fun _ => ?_) (and_iff_right rfl).symm
    rw [show ∀ b : Bool, (pure b : Except PyError Bool) = .ok true ↔ b = true from
      fun b => ⟨Except.ok.inj, congrArg _⟩]
    cases domain.lowerClosed <;> cases domain.upperClosed <;> simp

theorem member_interval_iff (domain : NumericIntervalDomain) (value : DomainScalar) :
    Member orders value (.numericInterval domain) ↔
      ∃ q, Reads domain.numericType value q ∧ InRange domain q := by
  refine (intervalMember_eq_true_iff value.toJson domain).trans ?_
  cases value with
  | int n =>
    have hread : ∀ q, toFloat (.int n) = .ok q ↔ floatOfInt n = some q := by
      intro q
      unfold toFloat
      cases hfloat : floatOfInt n <;> simp [hfloat]
    exact (and_iff_right rfl).trans (exists_congr fun q => and_congr_left fun _ => hread q)
  | float p =>
    show scalarMatchesNumericType (.float p) _ = true ∧ _ ↔ _
    cases domain.numericType with
    | integer => exact ⟨fun h => (nomatch h.1), fun ⟨_, h, _⟩ => (nomatch h.1)⟩
    | number =>
      refine (and_iff_right rfl).trans (exists_congr fun q => and_congr_left fun _ => ?_)
      exact ⟨fun h => ⟨rfl, Except.ok.inj h⟩, fun h => congrArg Except.ok h.2⟩
  | bool _ | str _ => exact ⟨fun h => (nomatch h.1), fun ⟨_, h, _⟩ => h.elim⟩

/-- The test of the ends: the types fit, and each end is within the other's. -/
theorem intervalSubset_included {sub sup : NumericIntervalDomain}
    (h : intervalSubset sub sup = true) :
    Included orders (.numericInterval sub) (.numericInterval sup) := by
  unfold intervalSubset at h
  split at h
  · cases h
  · rename_i htypes
    rw [Bool.and_eq_true, decide_eq_true_iff, decide_eq_true_iff] at h
    intro value _ hvalue
    rw [member_interval_iff] at hvalue ⊢
    obtain ⟨q, hread, hlower, hupper⟩ := hvalue
    refine ⟨q, ?_, ?_, ?_⟩
    · cases value with
      | int n => exact hread
      | float p =>
        refine ⟨?_, hread.2⟩
        cases hsup : sup.numericType with
        | integer => exact absurd ⟨hsup, hread.1⟩ htypes
        | number => rfl
      | bool _ | str _ => exact hread.elim
    · rcases h.1 with hlt | ⟨heq, hclosed⟩
      · have hle : sub.lower ≤ q := by
          split at hlower
          · exact hlower
          · exact le_of_lt hlower
        split
        · exact le_of_lt (lt_of_lt_of_le hlt hle)
        · exact lt_of_lt_of_le hlt hle
      · rw [heq]
        split
        · split at hlower
          · exact hlower
          · exact le_of_lt hlower
        · rename_i hopen
          rw [if_neg (by rw [hclosed.resolve_left hopen]; exact Bool.false_ne_true)] at hlower
          exact hlower
    · rcases h.2 with hlt | ⟨heq, hclosed⟩
      · have hle : q ≤ sub.upper := by
          split at hupper
          · exact hupper
          · exact le_of_lt hupper
        split
        · exact le_of_lt (lt_of_le_of_lt hle hlt)
        · exact lt_of_le_of_lt hle hlt
      · rw [heq]
        split
        · split at hupper
          · exact hupper
          · exact le_of_lt hupper
        · rename_i hopen
          rw [if_neg (by rw [hclosed.resolve_left hopen]; exact Bool.false_ne_true)] at hupper
          exact hupper

/-- An interval leaves another exactly when it has a value outside. -/
theorem leaves_iff_not_included (sub sup : NumericIntervalDomain) :
    Leaves sub sup ↔ ¬ Included orders (.numericInterval sub) (.numericInterval sup) := by
  constructor
  · rintro (⟨hsub, hsup, q, hfloat, hrange⟩ | ⟨value, q, hvalue, hread, hrange, hout⟩) h
    · have hmember := h (.float q) hfloat ((member_interval_iff sub _).mpr ⟨q, ⟨hsub, rfl⟩, hrange⟩)
      obtain ⟨_, hread, -⟩ := (member_interval_iff sup _).mp hmember
      rw [hsup] at hread
      exact nomatch hread.1
    · have hmember := h value hvalue ((member_interval_iff sub _).mpr ⟨q, hread, hrange⟩)
      obtain ⟨p, hread', hrange'⟩ := (member_interval_iff sup _).mp hmember
      have heq : q = p := by
        cases value with
        | int n => exact Option.some.inj (hread.symm.trans hread')
        | float _ => exact hread.2.symm.trans hread'.2
        | bool _ | str _ => exact hread.elim
      exact hout (heq ▸ hrange')
  · intro h
    unfold Included at h
    push Not at h
    obtain ⟨value, hvalue, hmember, hout⟩ := h
    obtain ⟨q, hread, hrange⟩ := (member_interval_iff sub _).mp hmember
    rw [member_interval_iff] at hout
    by_cases htypes : sub.numericType = .number ∧ sup.numericType = .integer
    · cases value with
      | float p =>
        obtain ⟨-, rfl⟩ := hread
        exact .inl ⟨htypes.1, htypes.2, p, hvalue, hrange⟩
      | int n => exact .inr ⟨.int n, q, hvalue, hread, hrange, fun hin => hout ⟨q, hread, hin⟩⟩
      | bool _ | str _ => exact hread.elim
    · refine .inr ⟨value, q, hvalue, hread, hrange, fun hin => hout ⟨q, ?_, hin⟩⟩
      cases value with
      | int n => exact hread
      | float p =>
        refine ⟨?_, hread.2⟩
        cases hsup : sup.numericType with
        | integer => exact absurd ⟨hread.1, hsup⟩ htypes
        | number => rfl
      | bool _ | str _ => exact hread.elim

variable {sub : NumericIntervalDomain}

theorem inRange_iff_of_equal (hvalid : sub.Valid)
    (hequal : sub.lower = sub.upper) (q : ℚ) : InRange sub q ↔ q = sub.lower := by
  obtain ⟨hlower, hupper⟩ := hvalid.2.2 hequal
  unfold InRange
  rw [if_pos hlower, if_pos hupper, ← hequal]
  exact ⟨fun h => le_antisymm h.2 h.1, fun h => h ▸ ⟨le_refl _, le_refl _⟩⟩

theorem reads_representative (hvalid : sub.Valid) (hlower : IsBinary64 sub.lower) :
    Representable (representative sub) ∧
      Reads sub.numericType (representative sub) sub.lower := by
  unfold representative
  cases htype : sub.numericType with
  | integer =>
    have hden := (hvalid.1 htype).1
    refine ⟨trivial, ?_⟩
    show floatOfInt _ = some _
    rw [hden, Nat.cast_one, Int.tdiv_one]
    exact floatOfInt_num hlower hden
  | number => exact ⟨hlower, rfl, rfl⟩

/-- The values of an interval with equal ends: its representative, and every integer whose
float is the end. -/
theorem member_equal_iff (hvalid : sub.Valid)
    (hlower : IsBinary64 sub.lower) (hequal : sub.lower = sub.upper) (value : DomainScalar) :
    Member orders value (.numericInterval sub) ↔
      value = representative sub ∨ ∃ n, value = .int n ∧ floatOfInt n = some sub.lower := by
  rw [member_interval_iff]
  simp only [inRange_iff_of_equal hvalid hequal, exists_eq_right]
  constructor
  · intro hread
    cases value with
    | int n => exact .inr ⟨n, rfl, hread⟩
    | float p =>
      obtain ⟨htype, rfl⟩ := hread
      exact .inl (by rw [representative, htype])
    | bool _ | str _ => exact hread.elim
  · rintro (rfl | ⟨n, rfl, hread⟩)
    · exact (reads_representative hvalid hlower).2
    · exact hread

/-- An interval with equal ends is inside a domain when its representative is and every
integer of the same float. -/
theorem included_equal_iff {sup : DomainDescriptor}
    (hvalid : sub.Valid) (hlower : IsBinary64 sub.lower) (hequal : sub.lower = sub.upper) :
    Included orders (.numericInterval sub) sup ↔ Member orders (representative sub) sup ∧
      ∀ n, floatOfInt n = some sub.lower → Member orders (.int n) sup := by
  simp only [Included, member_equal_iff hvalid hlower hequal]
  constructor
  · intro h
    exact ⟨h _ (reads_representative hvalid hlower).1 (.inl rfl),
      fun n hn => h _ trivial (.inr ⟨n, rfl, hn⟩)⟩
  · rintro ⟨hrepresentative, hints⟩ value _ (rfl | ⟨n, rfl, hn⟩)
    · exact hrepresentative
    · exact hints n hn

theorem floatOfInt_integral {n : ℤ} {q : ℚ} (h : floatOfInt n = some q) : ∃ k : ℤ, q = k := by
  unfold floatOfInt at h
  dsimp only at h
  split at h
  · obtain rfl := Option.some.inj h
    split
    · exact ⟨-(roundBinary64 n.natAbs : ℤ), by rw [Int.cast_neg, Int.cast_natCast]⟩
    · exact ⟨(roundBinary64 n.natAbs : ℤ), by rw [Int.cast_natCast]⟩
  · cases h

end Raes.Envelope
