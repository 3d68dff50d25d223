import Mathlib.Data.Nat.Digits.Lemmas

/-!
# Rejection sampling

Numbers below `space` are mapped onto `width` values by their remainder.  The
numbers from the largest multiple of `width` on are rejected, so that every value
comes from the same number of accepted ones, and fewer than half are rejected.

The numbers are read from chunks of digits in a fixed base, highest digit first.
Chunks of one length and numbers below a power of the base are the same.
-/

namespace Raes.RejectionSampling

/-! ## The limit -/

/-- The largest multiple of the width that is at most the size of the space. -/
def limit (space width : ℕ) : ℕ := space - space % width

section Limit

variable {space width : ℕ}

theorem limit_eq (space width : ℕ) : limit space width = width * (space / width) := by
  have h := Nat.div_add_mod space width
  unfold limit
  omega

theorem dvd_limit (space width : ℕ) : width ∣ limit space width :=
  ⟨_, limit_eq space width⟩

theorem limit_le (space width : ℕ) : limit space width ≤ space := Nat.sub_le _ _

theorem le_limit {m : ℕ} (hm : width ∣ m) (hle : m ≤ space) : m ≤ limit space width := by
  obtain ⟨q, rfl⟩ := hm
  rw [limit_eq]
  by_cases hwidth : width = 0
  · rw [hwidth, Nat.zero_mul, Nat.zero_mul]
  · apply Nat.mul_le_mul_left
    rw [Nat.le_div_iff_mul_le (Nat.pos_of_ne_zero hwidth), Nat.mul_comm]
    exact hle

/-- Fewer than half of the numbers are rejected. -/
theorem two_mul_rejected_lt (hwidth : 0 < width) (hle : width ≤ space) :
    2 * (space - limit space width) < space := by
  have hq : 0 < space / width := Nat.div_pos hle hwidth
  have hr : space % width < width := Nat.mod_lt _ hwidth
  have hmul : width ≤ width * (space / width) := Nat.le_mul_of_pos_right _ hq
  have heq := limit_eq space width
  have hsum := Nat.div_add_mod space width
  omega

/-- Each value comes from the same number of accepted numbers. -/
theorem card_accepted {value : ℕ} (hvalue : value < width) :
    ((Finset.range space).filter fun n => n < limit space width ∧ n % width = value).card =
      space / width := by
  have hwidth : 0 < width := by omega
  have himage : ((Finset.range space).filter fun n => n < limit space width ∧ n % width = value) =
      (Finset.range (space / width)).image fun q => value + width * q := by
    ext n
    rw [Finset.mem_filter, Finset.mem_range, Finset.mem_image, limit_eq]
    constructor
    · intro h
      refine ⟨n / width, ?_, ?_⟩
      · rw [Finset.mem_range]
        exact Nat.div_lt_of_lt_mul h.2.1
      · rw [← h.2.2]
        exact Nat.mod_add_div n width
    · intro h
      obtain ⟨q, hq, rfl⟩ := h
      rw [Finset.mem_range] at hq
      have hbound : value + width * q < width * (space / width) := by
        have hstep : width * (q + 1) ≤ width * (space / width) := Nat.mul_le_mul_left _ hq
        rw [Nat.mul_succ] at hstep
        omega
      refine ⟨?_, hbound, ?_⟩
      · have hle := Nat.div_mul_le_self space width
        rw [Nat.mul_comm] at hle
        omega
      · rw [Nat.add_mul_mod_self_left, Nat.mod_eq_of_lt hvalue]
  rw [himage, Finset.card_image_of_injective, Finset.card_range]
  intro a b hab
  have hmul : width * a = width * b := by
    have hsame : value + width * a = value + width * b := hab
    omega
  exact Nat.eq_of_mul_eq_mul_left hwidth hmul

theorem card_rejected (space width : ℕ) :
    ((Finset.range space).filter fun n => limit space width ≤ n).card =
      space - limit space width := by
  have hinterval : ((Finset.range space).filter fun n => limit space width ≤ n) =
      Finset.Ico (limit space width) space := by
    ext n
    rw [Finset.mem_filter, Finset.mem_range, Finset.mem_Ico]
    exact and_comm
  rw [hinterval, Nat.card_Ico]

end Limit

section Chunks

variable {base : ℕ}

/-- The number that a list of digits denotes, highest digit first. -/
def fromDigits (base : ℕ) (digits : List (Fin base)) : ℕ :=
  digits.foldl (fun n (digit : Fin base) => n * base + digit.val) 0

theorem fromDigits_eq_ofDigits (digits : List (Fin base)) :
    fromDigits base digits = Nat.ofDigits base ((digits.map Fin.val).reverse) := by
  have hfold : ∀ n, digits.foldl (fun n (digit : Fin base) => n * base + digit.val) n =
      n * base ^ digits.length + Nat.ofDigits base ((digits.map Fin.val).reverse) := by
    induction digits with
    | nil =>
      intro n
      simp
    | cons digit rest ih =>
      intro n
      rw [List.foldl_cons, ih, List.map_cons, List.reverse_cons, Nat.ofDigits_append,
        Nat.ofDigits_singleton, List.length_reverse, List.length_map, List.length_cons]
      ring
  unfold fromDigits
  rw [hfold 0, Nat.zero_mul, Nat.zero_add]

theorem fromDigits_lt (hbase : 1 < base) (digits : List (Fin base)) :
    fromDigits base digits < base ^ digits.length := by
  rw [fromDigits_eq_ofDigits]
  have hdigits : ∀ x ∈ (digits.map Fin.val).reverse, x < base := by
    intro x hx
    rw [List.mem_reverse, List.mem_map] at hx
    obtain ⟨digit, -, rfl⟩ := hx
    exact digit.isLt
  have hlt := Nat.ofDigits_lt_base_pow_length hbase hdigits
  rwa [List.length_reverse, List.length_map] at hlt

abbrev Chunk (base length : ℕ) := Fin length → Fin base

def chunkNumber {length : ℕ} (chunk : Chunk base length) : ℕ :=
  fromDigits base (List.ofFn chunk)

theorem chunkNumber_lt (hbase : 1 < base) {length : ℕ} (chunk : Chunk base length) :
    chunkNumber chunk < base ^ length := by
  have h := fromDigits_lt hbase (List.ofFn chunk)
  rwa [List.length_ofFn] at h

theorem chunkNumber_injective (hbase : 1 < base) (length : ℕ) :
    Function.Injective (chunkNumber : Chunk base length → ℕ) := by
  intro a b hab
  unfold chunkNumber at hab
  rw [fromDigits_eq_ofDigits, fromDigits_eq_ofDigits] at hab
  have hdigits : ∀ chunk : Chunk base length,
      ∀ x ∈ ((List.ofFn chunk).map Fin.val).reverse, x < base := by
    intro chunk x hx
    rw [List.mem_reverse, List.mem_map] at hx
    obtain ⟨digit, -, rfl⟩ := hx
    exact digit.isLt
  have hlength : (((List.ofFn a).map Fin.val).reverse).length =
      (((List.ofFn b).map Fin.val).reverse).length := by simp
  have hlists := Nat.ofDigits_inj_of_len_eq hbase hlength (hdigits a) (hdigits b) hab
  rw [List.reverse_inj] at hlists
  exact List.ofFn_injective ((List.map_injective_iff.mpr Fin.val_injective) hlists)

theorem card_chunks (hbase : 1 < base) (length : ℕ) (p : ℕ → Prop) [DecidablePred p] :
    ((Finset.univ : Finset (Chunk base length)).filter fun chunk => p (chunkNumber chunk)).card =
      ((Finset.range (base ^ length)).filter p).card := by
  apply Finset.card_nbij chunkNumber
  · intro chunk hchunk
    rw [Finset.mem_coe, Finset.mem_filter] at hchunk
    rw [Finset.mem_coe, Finset.mem_filter, Finset.mem_range]
    exact ⟨chunkNumber_lt hbase chunk, hchunk.2⟩
  · exact (chunkNumber_injective hbase length).injOn
  · intro n hn
    rw [Finset.mem_coe, Finset.mem_filter, Finset.mem_range] at hn
    -- The chunks are as many as the numbers, so none is left out.
    have hcard : Fintype.card (Chunk base length) = Fintype.card (Fin (base ^ length)) := by
      rw [Fintype.card_fun, Fintype.card_fin, Fintype.card_fin, Fintype.card_fin]
    let number : Chunk base length → Fin (base ^ length) :=
      fun chunk => ⟨chunkNumber chunk, chunkNumber_lt hbase chunk⟩
    have hinjective : Function.Injective number := fun a b hab =>
      chunkNumber_injective hbase length (Fin.mk.inj hab)
    have hbijective := (Fintype.bijective_iff_injective_and_card number).mpr ⟨hinjective, hcard⟩
    obtain ⟨chunk, hchunk⟩ := hbijective.surjective ⟨n, hn.1⟩
    have hnumber : chunkNumber chunk = n := congrArg Fin.val hchunk
    refine ⟨chunk, ?_, hnumber⟩
    rw [Finset.mem_coe, Finset.mem_filter, hnumber]
    exact ⟨Finset.mem_univ _, hn.2⟩

end Chunks

end Raes.RejectionSampling
