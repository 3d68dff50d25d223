import Raes.Contracts.CanonicalJson
import Raes.Lib.Loop
import Raes.Lib.RejectionSampling

/-!
# Random-stream draws

`random_stream_engine.py`: stateless draws of bounded integers at semantic stream
addresses.  The output of the keyed hash is a stream of bytes that the engine reads
at any position.  It is a parameter, and so is nothing else: two addresses have the
same canonical bytes when they have the same canonical form.
-/

namespace Raes.Random

open PyError RejectionSampling

abbrev Byte := Fin 256

/-! ## Addresses -/

/-- Logical trial coordinate dimensions usable in a random-stream address. -/
structure TrialCoordinate where
  (conditionId blockId replicateId : Option String)
  deriving DecidableEq, Repr

/-- Closed semantic random-draw address. -/
structure StreamAddress where
  namespace_ : String
  trialCoordinate : TrialCoordinate
  (selectionPolicyId variationPointId drawPurpose : String)
  localCoordinate : ℕ
  deriving DecidableEq, Repr

/-- Closed within-run address for one participant-policy draw. -/
structure ParticipantStreamAddress where
  (namespace_ policyAddress participantAddress : String)
  (timeSegment occurrenceOrdinal : ℕ)
  drawPurpose : String
  localCoordinate : ℕ
  deriving DecidableEq, Repr

/-- A plan-scope slot.  The profile, the purpose and the local coordinate are fixed. -/
structure AllocationStreamAddress where
  (namespace_ allocationPolicyId : String)
  slot : ℕ
  deriving DecidableEq, Repr

inductive DrawAddress where
  | trial (address : StreamAddress)
  | participant (address : ParticipantStreamAddress)
  | allocation (address : AllocationStreamAddress)
  deriving DecidableEq, Repr

/-- A member of a dump that leaves out `None`. -/
def optionalMember (name : String) : Option String → List (String × Json)
  | none => []
  | some value => [(name, .str value)]

/-- `model_dump(mode="json", by_alias=True, exclude_none=True)` -/
def TrialCoordinate.payload (coordinate : TrialCoordinate) : Json :=
  .obj (optionalMember "condition_id" coordinate.conditionId ++
    optionalMember "block_id" coordinate.blockId ++
    optionalMember "replicate_id" coordinate.replicateId)

def StreamAddress.payload (address : StreamAddress) : Json :=
  .obj [("namespace", .str address.namespace_),
    ("trial_coordinate", address.trialCoordinate.payload),
    ("selection_policy_id", .str address.selectionPolicyId),
    ("variation_point_id", .str address.variationPointId),
    ("draw_purpose", .str address.drawPurpose),
    ("local_coordinate", .int address.localCoordinate)]

def ParticipantStreamAddress.payload (address : ParticipantStreamAddress) : Json :=
  .obj [("namespace", .str address.namespace_), ("policy_address", .str address.policyAddress),
    ("participant_address", .str address.participantAddress),
    ("time_segment", .int address.timeSegment),
    ("occurrence_ordinal", .int address.occurrenceOrdinal),
    ("draw_purpose", .str address.drawPurpose),
    ("local_coordinate", .int address.localCoordinate)]

def AllocationStreamAddress.payload (address : AllocationStreamAddress) : Json :=
  .obj [("address_profile", .str "allocation-address-v1"), ("namespace", .str address.namespace_),
    ("allocation_policy_id", .str address.allocationPolicyId),
    ("draw_purpose", .str "condition-assignment"), ("slot", .int address.slot),
    ("local_coordinate", .int 0)]

namespace DrawAddress

def payload : DrawAddress → Json
  | .trial address => address.payload
  | .participant address => address.payload
  | .allocation address => address.payload

def localCoordinate : DrawAddress → ℕ
  | .trial address => address.localCoordinate
  | .participant address => address.localCoordinate
  | .allocation _ => 0

end DrawAddress

/-! ## Raw blocks -/

/-- The keyed extendable output: the byte of a key and an input at a position. -/
structure RandomStreams where
  xof : List Byte → Json → ℕ → Byte

def supportedRandomStreamProfileIds : List String := ["blake3-xof-participant-v1", "blake3-xof-v1"]

/-- Raw-block byte length fixed by the profile. -/
def blockBytes : ℕ := 32

def requireSupportedProfile (profileId : String) : Except PyError Unit :=
  refuseIf (profileId ∉ supportedRandomStreamProfileIds)
    (valueError ("unsupported random stream profile id '" ++ profileId ++ "'; supported ids: " ++
      ", ".intercalate supportedRandomStreamProfileIds))

def canonicalStreamAddressBytes (address : DrawAddress) : Except PyError Json :=
  match canonicalForm address.payload with
  | .ok form => .ok form
  | .error _ => .error (valueError "stream address canonicalization failed")

def RandomStreams.digest (streams : RandomStreams) (streamKey : List Byte) (input : Json)
    (length seek : ℕ) : List Byte :=
  List.ofFn fun i : Fin length => streams.xof streamKey input (seek + i)

section Draws

variable (streams : RandomStreams) (profileId : String) (streamKey : List Byte)

def rawBlock (address : DrawAddress) (byteLength byteOffset : ℤ) :
    Except PyError (List Byte) := do
  requireSupportedProfile profileId
  refuseIf (byteLength < 1) (valueError "raw_block byte_length must be positive")
  refuseIf (byteOffset < 0) (valueError "raw_block byte_offset must be non-negative")
  let addressBytes ← canonicalStreamAddressBytes address
  return streams.digest streamKey addressBytes byteLength.toNat
    (address.localCoordinate * blockBytes + byteOffset.toNat)

/-! ## Bounded integers -/

structure BoundedIntegerDraw where
  value : Option ℤ
  rejectionAttempts : ℕ
  rejectionExhausted : Bool
  deriving DecidableEq, Repr

/-- One round of the loop of `_bounded_integer_byte_width` -/
def byteWidthRound (width byteWidth : ℕ) : ℕ ⊕ ℕ :=
  if 256 ^ byteWidth < width then .inr (byteWidth + 1) else .inl byteWidth

/-- `_bounded_integer_byte_width`.  The width itself bounds the rounds. -/
def boundedIntegerByteWidth (width : ℕ) : ℕ :=
  match Loop.iterate (byteWidthRound width) (width + 1) 1 with
  | .inl byteWidth => byteWidth
  | .inr byteWidth => byteWidth

def drawAttempts (chunk : ℕ → Except PyError (List Byte)) (ceiling width : ℕ) (minimum : ℤ) :
    ℕ → ℕ → Except PyError BoundedIntegerDraw
  | attempt, 0 => .ok ⟨none, attempt, true⟩
  | attempt, remaining + 1 => do
    let raw ← chunk attempt
    let rawInt := fromDigits 256 raw
    if rawInt < ceiling then return ⟨some (minimum + (rawInt % width : ℕ)), attempt, false⟩
    drawAttempts chunk ceiling width minimum (attempt + 1) remaining

def rangeWidth (minimum maximum : ℤ) : ℕ := (maximum - minimum + 1).toNat

def acceptanceLimit (width : ℕ) : ℕ := limit (256 ^ boundedIntegerByteWidth width) width

def drawBoundedInteger (address : DrawAddress) (minimum maximum maxRejectionAttempts : ℤ) :
    Except PyError BoundedIntegerDraw := do
  requireSupportedProfile profileId
  refuseIf (maximum < minimum) (valueError "draw_bounded_integer requires maximum >= minimum")
  refuseIf (maxRejectionAttempts < 1)
    (valueError "draw_bounded_integer requires max_rejection_attempts >= 1")
  let width := rangeWidth minimum maximum
  let byteWidth := boundedIntegerByteWidth width
  drawAttempts (fun attempt => rawBlock streams profileId streamKey address byteWidth
    (attempt * byteWidth)) (acceptanceLimit width) width minimum 0 maxRejectionAttempts.toNat

end Draws

/-! ## The chunk width -/

theorem boundedIntegerByteWidth_spec (width : ℕ) :
    1 ≤ boundedIntegerByteWidth width ∧ width ≤ 256 ^ boundedIntegerByteWidth width ∧
      ∀ w, 1 ≤ w → w < boundedIntegerByteWidth width → 256 ^ w < width := by
  have hround : ∀ w, (1 ≤ w ∧ ∀ v, 1 ≤ v → v < w → 256 ^ v < width) →
      Loop.Round (byteWidthRound width) (fun w => 1 ≤ w ∧ ∀ v, 1 ≤ v → v < w → 256 ^ v < width)
        (fun w => width + 1 - w)
        (fun w => 1 ≤ w ∧ width ≤ 256 ^ w ∧ ∀ v, 1 ≤ v → v < w → 256 ^ v < width) w := by
    intro w hw
    unfold Loop.Round byteWidthRound
    by_cases hlt : 256 ^ w < width
    · right
      have hpow : w < 256 ^ w := Nat.lt_pow_self (by omega)
      refine ⟨w + 1, if_pos hlt, ⟨by omega, ?_⟩, ?_⟩
      · intro v hv hvw
        by_cases hvw' : v = w
        · rw [hvw']
          exact hlt
        · exact hw.2 v hv (by omega)
      · show width + 1 - (w + 1) < width + 1 - w
        omega
    · left
      exact ⟨w, if_neg hlt, hw.1, by omega, hw.2⟩
  have hstart : 1 ≤ 1 ∧ ∀ v, 1 ≤ v → v < 1 → 256 ^ v < width :=
    ⟨Nat.le_refl 1, fun v hv hlt => absurd hlt (by omega)⟩
  have hfuel : width + 1 - 1 < width + 1 := by omega
  obtain ⟨w, hrun, hspec⟩ := Loop.iterate_total hround hstart hfuel
  unfold boundedIntegerByteWidth
  rw [hrun]
  exact hspec

end Raes.Random

/-!
# Draws are in range and unbiased

A draw reads one chunk an attempt.  It answers with the value of the first accepted
chunk, or without a value when every chunk of its attempts is rejected.  The accepted
chunks are shared out evenly over the values of the range, and they are more than half
of all chunks.
-/

namespace Raes.Random

open PyError RejectionSampling

/-- The value that a chunk gives, if it is accepted -/
def chunkValue (minimum : ℤ) (width : ℕ) (chunk : Chunk 256 (boundedIntegerByteWidth width)) :
    Option ℤ :=
  if chunkNumber chunk < acceptanceLimit width then
    some (minimum + (chunkNumber chunk % width : ℕ))
  else none

def RandomStreams.chunkAt (streams : RandomStreams) (streamKey : List Byte)
    (address : DrawAddress) (addressBytes : Json) (byteWidth attempt : ℕ) :
    Chunk 256 byteWidth :=
  fun i => streams.xof streamKey addressBytes
    (address.localCoordinate * blockBytes + attempt * byteWidth + i)

/-- The outcome of a draw over a stream of chunks, from one attempt on -/
def Drawn (value : ℕ → Option ℤ) (first last : ℕ) (draw : BoundedIntegerDraw) : Prop :=
  (∃ attempt v, first ≤ attempt ∧ attempt < last ∧
    (∀ earlier, first ≤ earlier → earlier < attempt → value earlier = none) ∧
    value attempt = some v ∧ draw = ⟨some v, attempt, false⟩) ∨
  ((∀ attempt, first ≤ attempt → attempt < last → value attempt = none) ∧
    draw = ⟨none, last, true⟩)

theorem Drawn.of_rejected {value : ℕ → Option ℤ} {first last : ℕ} {draw : BoundedIntegerDraw}
    (hrejected : value first = none) (h : Drawn value (first + 1) last draw) :
    Drawn value first last draw := by
  rcases h with ⟨attempt, v, hfirst, hlast, hearlier, hvalue, hdraw⟩ | ⟨hall, hdraw⟩
  · left
    refine ⟨attempt, v, by omega, hlast, ?_, hvalue, hdraw⟩
    intro earlier hle hlt
    by_cases heq : earlier = first
    · rw [heq]
      exact hrejected
    · exact hearlier earlier (by omega) hlt
  · right
    refine ⟨?_, hdraw⟩
    intro attempt hle hlt
    by_cases heq : attempt = first
    · rw [heq]
      exact hrejected
    · exact hall attempt (by omega) hlt

section Draw

variable {profileId : String} {address : DrawAddress} {addressBytes : Json}
  {minimum maximum : ℤ} {width : ℕ}

theorem rawBlock_eq (streams : RandomStreams) (streamKey : List Byte)
    (hprofile : profileId ∈ supportedRandomStreamProfileIds)
    (hbytes : canonicalStreamAddressBytes address = .ok addressBytes) {byteWidth : ℕ}
    (hwidth : 1 ≤ byteWidth) (attempt : ℕ) :
    rawBlock streams profileId streamKey address byteWidth (attempt * byteWidth) =
      .ok (List.ofFn (streams.chunkAt streamKey address addressBytes byteWidth attempt)) := by
  have hlength : ¬ (byteWidth : ℤ) < 1 := by omega
  have hoffset : ¬ (attempt * byteWidth : ℤ) < 0 := by
    have hnonneg : (0 : ℤ) ≤ ((attempt * byteWidth : ℕ) : ℤ) := Int.natCast_nonneg _
    push_cast at hnonneg
    omega
  have htoNat : (attempt * byteWidth : ℤ).toNat = attempt * byteWidth := by
    rw [← Nat.cast_mul, Int.toNat_natCast]
  simp [rawBlock, requireSupportedProfile, refuseIf, hprofile, hlength, hoffset, hbytes, htoNat,
    RandomStreams.digest]
  rfl

theorem drawAttempts_drawn (minimum : ℤ)
    {chunk : ℕ → Except PyError (List Byte)}
    {chunks : ℕ → Chunk 256 (boundedIntegerByteWidth width)}
    (hchunk : ∀ attempt, chunk attempt = .ok (List.ofFn (chunks attempt))) (remaining : ℕ) :
    ∀ attempt, ∃ draw,
      drawAttempts chunk (acceptanceLimit width) width minimum attempt remaining = .ok draw ∧
        Drawn (fun a => chunkValue minimum width (chunks a)) attempt (attempt + remaining)
          draw := by
  induction remaining with
  | zero =>
    intro attempt
    refine ⟨_, rfl, Or.inr ⟨?_, rfl⟩⟩
    intro a hle hlt
    omega
  | succ remaining ih =>
    intro attempt
    by_cases haccepted : chunkNumber (chunks attempt) < acceptanceLimit width
    · have hvalue : chunkValue minimum width (chunks attempt) =
          some (minimum + (chunkNumber (chunks attempt) % width : ℕ)) := if_pos haccepted
      refine ⟨⟨some (minimum + (chunkNumber (chunks attempt) % width : ℕ)), attempt, false⟩,
        ?_, Or.inl ⟨attempt, _, Nat.le_refl _, by omega, ?_, hvalue, rfl⟩⟩
      · rw [drawAttempts, hchunk]
        exact if_pos haccepted
      · intro earlier hle hlt
        omega
    · have hvalue : chunkValue minimum width (chunks attempt) = none := if_neg haccepted
      obtain ⟨draw, hdraw, hdrawn⟩ := ih (attempt + 1)
      refine ⟨draw, ?_, Drawn.of_rejected hvalue ?_⟩
      · rw [drawAttempts, hchunk]
        exact (if_neg haccepted).trans hdraw
      · have hlast : attempt + 1 + remaining = attempt + (remaining + 1) := by omega
        rwa [hlast] at hdrawn

theorem drawBoundedInteger_drawn (streams : RandomStreams) (streamKey : List Byte)
    (hprofile : profileId ∈ supportedRandomStreamProfileIds)
    (hbytes : canonicalStreamAddressBytes address = .ok addressBytes)
    (hrange : minimum ≤ maximum) {maxRejectionAttempts : ℤ} (hattempts : 1 ≤ maxRejectionAttempts) :
    ∃ draw, drawBoundedInteger streams profileId streamKey address minimum maximum
        maxRejectionAttempts = .ok draw ∧
      Drawn (fun attempt => chunkValue minimum (rangeWidth minimum maximum)
        (streams.chunkAt streamKey address addressBytes _ attempt)) 0 maxRejectionAttempts.toNat
        draw := by
  have hwidth := (boundedIntegerByteWidth_spec (rangeWidth minimum maximum)).1
  obtain ⟨draw, hdraw, hdrawn⟩ := drawAttempts_drawn minimum
    (rawBlock_eq streams streamKey hprofile hbytes hwidth) maxRejectionAttempts.toNat 0
  rw [Nat.zero_add] at hdrawn
  refine ⟨draw, ?_, hdrawn⟩
  have hrange' : ¬ maximum < minimum := by omega
  have hattempts' : ¬ maxRejectionAttempts < 1 := by omega
  simp only [drawBoundedInteger, requireSupportedProfile, refuseIf, hprofile, hrange', hattempts',
    not_true_eq_false, if_false]
  exact hdraw

end Draw

section Values

variable {minimum maximum : ℤ}

theorem rangeWidth_pos (hrange : minimum ≤ maximum) : 0 < rangeWidth minimum maximum := by
  unfold rangeWidth
  omega

theorem chunkValue_mem_range (hrange : minimum ≤ maximum)
    {chunk : Chunk 256 (boundedIntegerByteWidth (rangeWidth minimum maximum))} {value : ℤ}
    (h : chunkValue minimum (rangeWidth minimum maximum) chunk = some value) :
    minimum ≤ value ∧ value ≤ maximum := by
  unfold chunkValue at h
  split at h
  · have hvalue := Option.some.inj h
    have hmod := Nat.mod_lt (chunkNumber chunk) (rangeWidth_pos hrange)
    have hsize : (rangeWidth minimum maximum : ℤ) = maximum - minimum + 1 := by
      unfold rangeWidth
      omega
    omega
  · cases h

theorem card_chunkValue {value : ℤ} (hmin : minimum ≤ value) (hmax : value ≤ maximum) :
    ((Finset.univ : Finset (Chunk 256 (boundedIntegerByteWidth (rangeWidth minimum maximum)))).filter
        fun chunk => chunkValue minimum (rangeWidth minimum maximum) chunk = some value).card =
      256 ^ boundedIntegerByteWidth (rangeWidth minimum maximum) / rangeWidth minimum maximum := by
  have hoffset : (value - minimum).toNat < rangeWidth minimum maximum := by
    unfold rangeWidth
    omega
  rw [← card_accepted hoffset, ← card_chunks (by omega)]
  congr 1
  apply Finset.filter_congr
  intro chunk _
  unfold chunkValue
  split
  · next haccepted =>
    rw [Option.some_inj]
    constructor
    · intro h
      exact ⟨haccepted, by omega⟩
    · intro h
      have hmod := h.2
      omega
  · next hrejected =>
    exact iff_of_false (fun h => nomatch h) fun h => hrejected h.1

theorem two_mul_card_rejected_lt (hrange : minimum ≤ maximum) :
    2 * ((Finset.univ : Finset (Chunk 256
        (boundedIntegerByteWidth (rangeWidth minimum maximum)))).filter
        fun chunk => chunkValue minimum (rangeWidth minimum maximum) chunk = none).card <
      256 ^ boundedIntegerByteWidth (rangeWidth minimum maximum) := by
  have hspec := boundedIntegerByteWidth_spec (rangeWidth minimum maximum)
  have hcard : ((Finset.univ : Finset (Chunk 256
      (boundedIntegerByteWidth (rangeWidth minimum maximum)))).filter
      fun chunk => chunkValue minimum (rangeWidth minimum maximum) chunk = none).card =
      256 ^ boundedIntegerByteWidth (rangeWidth minimum maximum) -
        acceptanceLimit (rangeWidth minimum maximum) := by
    have hfilter : ((Finset.univ : Finset (Chunk 256
        (boundedIntegerByteWidth (rangeWidth minimum maximum)))).filter
        fun chunk => chunkValue minimum (rangeWidth minimum maximum) chunk = none) =
        Finset.univ.filter fun chunk =>
          acceptanceLimit (rangeWidth minimum maximum) ≤ chunkNumber chunk := by
      apply Finset.filter_congr
      intro chunk _
      unfold chunkValue
      split
      · next h => exact iff_of_false (fun h' => nomatch h') (by omega)
      · next h => exact iff_of_true rfl (by omega)
    rw [hfilter, card_chunks (by omega)]
    exact card_rejected _ _
  rw [hcard]
  exact two_mul_rejected_lt (rangeWidth_pos hrange) hspec.2.1

end Values

/-- A draw over any stream of chunks answers with the value of the first accepted chunk of
its attempts, inside the requested range, and without a value only when all of them are
rejected.  The acceptance limit is the largest multiple of the range width in the chunk
space: each value comes from equally many chunks, and fewer than half are rejected. -/
theorem drawBoundedInteger_unbiased (streams : RandomStreams) (profileId : String)
    (streamKey : List Byte) (address : DrawAddress) (addressBytes : Json)
    (minimum maximum maxRejectionAttempts : ℤ)
    (hprofile : profileId ∈ supportedRandomStreamProfileIds)
    (hbytes : canonicalStreamAddressBytes address = .ok addressBytes)
    (hrange : minimum ≤ maximum) (hattempts : 1 ≤ maxRejectionAttempts) :
    (∃ draw, drawBoundedInteger streams profileId streamKey address minimum maximum
        maxRejectionAttempts = .ok draw ∧
      Drawn (fun attempt => chunkValue minimum (rangeWidth minimum maximum)
        (streams.chunkAt streamKey address addressBytes _ attempt)) 0 maxRejectionAttempts.toNat
        draw ∧
      ∀ value, draw.value = some value → minimum ≤ value ∧ value ≤ maximum) ∧
    IsGreatest {m | rangeWidth minimum maximum ∣ m ∧
        m ≤ 256 ^ boundedIntegerByteWidth (rangeWidth minimum maximum)}
      (acceptanceLimit (rangeWidth minimum maximum)) ∧
    (∀ value, minimum ≤ value → value ≤ maximum →
      (Finset.univ.filter fun chunk =>
        chunkValue minimum (rangeWidth minimum maximum) chunk = some value).card =
        256 ^ boundedIntegerByteWidth (rangeWidth minimum maximum) /
          rangeWidth minimum maximum) ∧
    2 * (Finset.univ.filter fun chunk =>
        chunkValue minimum (rangeWidth minimum maximum) chunk = none).card <
      Fintype.card (Chunk 256 (boundedIntegerByteWidth (rangeWidth minimum maximum))) := by
  refine ⟨?_, ⟨⟨dvd_limit _ _, limit_le _ _⟩, ?_⟩, fun value => card_chunkValue, ?_⟩
  · obtain ⟨draw, hdraw, hdrawn⟩ := drawBoundedInteger_drawn streams streamKey hprofile
      hbytes hrange hattempts
    refine ⟨draw, hdraw, hdrawn, ?_⟩
    intro value hvalue
    rcases hdrawn with ⟨attempt, v, -, -, -, hv, rfl⟩ | ⟨-, rfl⟩
    · obtain rfl : v = value := Option.some.inj hvalue
      exact chunkValue_mem_range hrange hv
    · cases hvalue
  · intro m hm
    exact le_limit hm.1 hm.2
  · rw [Fintype.card_fun, Fintype.card_fin, Fintype.card_fin]
    exact two_mul_card_rejected_lt hrange

/-- A plan-scope slot. -/
def slotAddress (slot : ℕ) : DrawAddress := .allocation ⟨"raes", "policy", slot⟩

def countingStreams : RandomStreams := ⟨fun _ _ position => ⟨position % 256, by omega⟩⟩

theorem drawBoundedInteger_unbiased_slot :
    ∃ addressBytes, canonicalStreamAddressBytes (slotAddress 0) = .ok addressBytes ∧
      2 * (Finset.univ.filter fun chunk => chunkValue 0 (rangeWidth 0 2) chunk = none).card <
        Fintype.card (Chunk 256 (boundedIntegerByteWidth (rangeWidth 0 2))) :=
  ⟨_, rfl, (drawBoundedInteger_unbiased countingStreams "blake3-xof-v1" [] (slotAddress 0) _ 0 2 1
    (by decide) rfl (by decide) (by decide)).2.2.2⟩

/-- A stream of rejected chunks spends the attempts of a draw, which then has no value. -/
theorem drawBoundedInteger_exhausted :
    drawBoundedInteger ⟨fun _ _ _ => 255⟩ "blake3-xof-v1" [] (slotAddress 0) 0 2 3 =
      .ok ⟨none, 3, true⟩ := by
  decide +kernel

end Raes.Random
