import Mathlib.Algebra.Ring.Rat
import Mathlib.Data.Nat.Size

/-!
# Integers as binary64 numbers

An integer becomes a float by rounding to 53 significant bits, ties to even.  The
conversion fails when the rounded magnitude is not below `2 ^ 1024`, which
`floatOfInt_eq_none_iff` states as a bound on the integer.
-/

namespace Raes

/-- The multiple of `2 ^ e` next to a natural number, a tie going to the even
quotient. -/
def roundHalfEven (n e : ℕ) : ℕ :=
  if 2 * (n % 2 ^ e) < 2 ^ e ∨ 2 * (n % 2 ^ e) = 2 ^ e ∧ n / 2 ^ e % 2 = 0 then
    n / 2 ^ e * 2 ^ e
  else (n / 2 ^ e + 1) * 2 ^ e

/-- A natural number with 53 significant bits. -/
def roundBinary64 (n : ℕ) : ℕ := roundHalfEven n (n.size - 53)

/-- `float(value)`, which is `none` where it raises `OverflowError`. -/
def floatOfInt (n : ℤ) : Option ℚ :=
  let magnitude := roundBinary64 n.natAbs
  if magnitude < 2 ^ 1024 then some (if n < 0 then -(magnitude : ℚ) else magnitude) else none

theorem roundHalfEven_ge (n e : ℕ) : n / 2 ^ e * 2 ^ e ≤ roundHalfEven n e := by
  unfold roundHalfEven
  split
  · exact Nat.le_refl _
  · exact Nat.mul_le_mul_right _ (Nat.le_succ _)

theorem roundHalfEven_le (n e : ℕ) : roundHalfEven n e ≤ (n / 2 ^ e + 1) * 2 ^ e := by
  unfold roundHalfEven
  split
  · exact Nat.mul_le_mul_right _ (Nat.le_succ _)
  · exact Nat.le_refl _

theorem roundHalfEven_zero (n : ℕ) : roundHalfEven n 0 = n := by
  unfold roundHalfEven
  rw [Nat.pow_zero, Nat.mod_one, if_pos (Or.inl (by omega)), Nat.div_one, Nat.mul_one]

theorem roundBinary64_of_lt {n : ℕ} (h : n < 2 ^ 53) : roundBinary64 n = n := by
  have hsize : n.size - 53 = 0 := by
    have hle := Nat.size_le.mpr h
    omega
  rw [roundBinary64, hsize, roundHalfEven_zero]

theorem roundBinary64_le_of_size {n s : ℕ} (h : n.size = s) : roundBinary64 n ≤ 2 ^ s := by
  have hlt : n < 2 ^ s := Nat.size_le.mp (le_of_eq h)
  by_cases hs : s ≤ 53
  · rw [roundBinary64_of_lt (lt_of_lt_of_le hlt (Nat.pow_le_pow_right (by omega) hs))]
    exact le_of_lt hlt
  · have hsplit : 2 ^ s = 2 ^ 53 * 2 ^ (s - 53) := by
      rw [← Nat.pow_add]
      congr 1
      omega
    have hq : n / 2 ^ (s - 53) < 2 ^ 53 := by
      rw [Nat.div_lt_iff_lt_mul (Nat.two_pow_pos _), ← hsplit]
      exact hlt
    rw [roundBinary64, h, hsplit]
    exact le_trans (roundHalfEven_le n _) (Nat.mul_le_mul_right _ hq)

theorem le_roundBinary64_of_size {n s : ℕ} (h : n.size = s + 1) : 2 ^ s ≤ roundBinary64 n := by
  have hle : 2 ^ s ≤ n := Nat.lt_size.mp (by omega)
  by_cases hs : s < 53
  · have hlt : n < 2 ^ (s + 1) := Nat.size_le.mp (le_of_eq h)
    rw [roundBinary64_of_lt (lt_of_lt_of_le hlt (Nat.pow_le_pow_right (by omega) (by omega)))]
    exact hle
  · have hsplit : 2 ^ s = 2 ^ 52 * 2 ^ (s + 1 - 53) := by
      rw [← Nat.pow_add]
      congr 1
      omega
    have hq : 2 ^ 52 ≤ n / 2 ^ (s + 1 - 53) := by
      rw [Nat.le_div_iff_mul_le (Nat.two_pow_pos _), ← hsplit]
      exact hle
    rw [roundBinary64, h, hsplit]
    exact le_trans (Nat.mul_le_mul_right _ hq) (roundHalfEven_ge n _)

/-- A number of 1024 bits rounds up to `2 ^ 1024` from the midpoint above the
greatest float on. -/
theorem roundHalfEven_lt_iff (n : ℕ) (h : n < 2 ^ 1024) :
    roundHalfEven n 971 < 2 ^ 1024 ↔ n < 2 ^ 1024 - 2 ^ 970 := by
  have hpow : (2 : ℕ) ^ 1024 = 2 ^ 53 * 2 ^ 971 := by rw [← Nat.pow_add]
  have hhalf : (2 : ℕ) ^ 971 = 2 * 2 ^ 970 := by rw [← Nat.pow_succ']
  have hdiv := Nat.div_add_mod n (2 ^ 971)
  have hmod := Nat.mod_lt n (Nat.two_pow_pos 971)
  have hq : n / 2 ^ 971 < 2 ^ 53 := by
    rw [Nat.div_lt_iff_lt_mul (Nat.two_pow_pos _), ← hpow]
    exact h
  unfold roundHalfEven
  generalize n / 2 ^ 971 = q at *
  generalize n % 2 ^ 971 = r at *
  generalize (2 : ℕ) ^ 970 = E at *
  rw [hpow, hhalf]
  rw [hhalf] at hdiv hmod
  by_cases hlast : q = 2 ^ 53 - 1
  · subst hlast
    split <;> omega
  · have hup : (q + 1) * (2 * E) ≤ (2 ^ 53 - 1) * (2 * E) :=
      Nat.mul_le_mul_right _ (by omega)
    have hkeep : q * (2 * E) + 2 * E = (q + 1) * (2 * E) := (Nat.succ_mul _ _).symm
    have hcomm : 2 * E * q = q * (2 * E) := Nat.mul_comm _ _
    constructor
    · intro _
      omega
    · intro _
      split <;> omega

theorem roundBinary64_lt_iff (n : ℕ) :
    roundBinary64 n < 2 ^ 1024 ↔ n < 2 ^ 1024 - 2 ^ 970 := by
  have hsmall : (2 : ℕ) ^ 1023 ≤ 2 ^ 1024 - 2 ^ 970 := by
    have h1 : (2 : ℕ) ^ 1024 = 2 * 2 ^ 1023 := by rw [← Nat.pow_succ']
    have h2 : (2 : ℕ) ^ 970 ≤ 2 ^ 1023 := Nat.pow_le_pow_right (by omega) (by omega)
    omega
  rcases Nat.lt_trichotomy n.size 1024 with hlt | heq | hgt
  · have hn : n < 2 ^ 1023 := Nat.size_le.mp (by omega)
    have hround : roundBinary64 n ≤ 2 ^ 1023 :=
      le_trans (roundBinary64_le_of_size rfl) (Nat.pow_le_pow_right (by omega) (by omega))
    have hpow : (2 : ℕ) ^ 1023 < 2 ^ 1024 := Nat.pow_lt_pow_right (by omega) (by omega)
    exact ⟨fun _ => lt_of_lt_of_le hn hsmall, fun _ => lt_of_le_of_lt hround hpow⟩
  · rw [roundBinary64, heq]
    exact roundHalfEven_lt_iff n (Nat.size_le.mp (le_of_eq heq))
  · obtain ⟨s, hs⟩ : ∃ s, n.size = s + 1 := ⟨n.size - 1, by omega⟩
    have hpow : (2 : ℕ) ^ 1024 ≤ 2 ^ s := Nat.pow_le_pow_right (by omega) (by omega)
    have hround := le_trans hpow (le_roundBinary64_of_size hs)
    have hn : 2 ^ 1024 ≤ n := Nat.lt_size.mp hgt
    constructor
    · intro h
      omega
    · intro h
      omega

theorem floatOfInt_eq_none_iff (n : ℤ) :
    floatOfInt n = none ↔ 2 ^ 1024 - 2 ^ 970 ≤ n.natAbs := by
  unfold floatOfInt
  rw [← not_lt, ← roundBinary64_lt_iff]
  split <;> simp [*]

/-- A finite binary64 number: an integer of 53 bits times a power of two. -/
def IsBinary64 (q : ℚ) : Prop :=
  (∃ (m : ℤ) (j k : ℕ), m.natAbs < 2 ^ 53 ∧ k ≤ 1074 ∧ q * 2 ^ k = m * 2 ^ j) ∧
    q.num.natAbs < 2 ^ 1024 * q.den

/-- A multiple of the unit that a number rounds to is kept. -/
theorem roundBinary64_of_mul {n m j : ℕ} (hm : m < 2 ^ 53) (h : n = m * 2 ^ j) :
    roundBinary64 n = n := by
  have hlt : n < 2 ^ (53 + j) := by
    rw [h, Nat.pow_add]
    exact Nat.mul_lt_mul_of_pos_right hm (Nat.two_pow_pos j)
  have hsize : n.size - 53 ≤ j := by
    have := Nat.size_le.mpr hlt
    omega
  have hdvd : 2 ^ (n.size - 53) ∣ n :=
    h ▸ Nat.dvd_mul_left_of_dvd (h ▸ Nat.pow_dvd_pow 2 hsize) m
  have hmod := Nat.mod_eq_zero_of_dvd hdvd
  rw [roundBinary64, roundHalfEven, if_pos (.inl (by rw [hmod]; exact Nat.two_pow_pos _)),
    Nat.div_mul_cancel hdvd]

theorem floatOfInt_num {q : ℚ} (h : IsBinary64 q) (hint : q.den = 1) :
    floatOfInt q.num = some q := by
  obtain ⟨⟨m, j, k, hm, -, heq⟩, hlt⟩ := h
  rw [hint, Nat.mul_one] at hlt
  have hq : q = (q.num : ℚ) := ((Rat.den_eq_one_iff q).mp hint).symm
  have hnat : q.num.natAbs * 2 ^ k = m.natAbs * 2 ^ j := by
    rw [hq] at heq
    have hcast : q.num * 2 ^ k = m * 2 ^ j := by exact_mod_cast heq
    have habs := congrArg Int.natAbs hcast
    simpa [Int.natAbs_mul, Int.natAbs_pow] using habs
  have hround : roundBinary64 q.num.natAbs = q.num.natAbs := by
    rcases Nat.le_total j k with hle | hle
    · -- The power of two divides the significand, so the number is small.
      refine roundBinary64_of_lt (lt_of_le_of_lt ?_ hm)
      obtain ⟨d, rfl⟩ := Nat.exists_eq_add_of_le hle
      rw [Nat.pow_add, Nat.mul_comm (2 ^ j), ← Nat.mul_assoc] at hnat
      rw [← Nat.eq_of_mul_eq_mul_right (Nat.two_pow_pos j) hnat]
      exact Nat.le_mul_of_pos_right _ (Nat.two_pow_pos d)
    · obtain ⟨d, rfl⟩ := Nat.exists_eq_add_of_le hle
      rw [Nat.pow_add, Nat.mul_comm (2 ^ k), ← Nat.mul_assoc] at hnat
      exact roundBinary64_of_mul hm (Nat.eq_of_mul_eq_mul_right (Nat.two_pow_pos k) hnat)
  unfold floatOfInt
  rw [hround]
  dsimp only
  rw [if_pos hlt, Option.some.injEq]
  rw [hq, Rat.num_intCast]
  split
  · rw [← Int.cast_natCast, ← Int.cast_neg]
    exact congrArg Int.cast (by omega)
  · rw [← Int.cast_natCast]
    exact congrArg Int.cast (by omega)

end Raes
