import Raes.Contracts.Diagnostics
import Raes.Lib.ExceptList
import Raes.Random.Engine

/-!
# Batch draws

`draw_bounded_integer_batch`: a batch of draws that is checked for collisions before
anything is drawn.  The check counts repeated semantic coordinates and repeated
canonical bytes.  Both are the same as repeated addresses, because an address can be
read off its canonical form.
-/

namespace Raes.Random

open PyError

section Canonical

theorem mem_iff_of_canonical_eq {l m : List (String × Json)}
    (h : Json.obj (sortBy Prod.fst l) = .obj (sortBy Prod.fst m)) (field : String × Json) :
    field ∈ l ↔ field ∈ m := by
  have hsorted : sortBy Prod.fst l = sortBy Prod.fst m := Json.obj.inj h
  rw [← (sortBy_perm Prod.fst l).mem_iff, hsorted, (sortBy_perm Prod.fst m).mem_iff]

def TrialCoordinate.members (coordinate : TrialCoordinate) : List (String × Json) :=
  optionalMember "condition_id" coordinate.conditionId ++
    optionalMember "block_id" coordinate.blockId ++
    optionalMember "replicate_id" coordinate.replicateId

def TrialCoordinate.form (coordinate : TrialCoordinate) : Json :=
  .obj (sortBy Prod.fst coordinate.members)

theorem canonicalForm_trialCoordinate (coordinate : TrialCoordinate) :
    canonicalForm coordinate.payload = .ok coordinate.form := by
  obtain ⟨condition, block, replicate⟩ := coordinate
  cases condition <;> cases block <;> cases replicate <;> rfl

theorem mem_optionalMember (name : String) (member : Option String) (k v : String) :
    (k, Json.str v) ∈ optionalMember name member ↔ k = name ∧ member = some v := by
  cases member with
  | none => simp [optionalMember]
  | some value =>
    simp only [optionalMember, List.mem_singleton, Prod.mk.injEq, Json.str.injEq,
      Option.some_inj]
    rw [@eq_comm _ v]

theorem TrialCoordinate.form_injective : Function.Injective TrialCoordinate.form := by
  intro a b hab
  have hmem := mem_iff_of_canonical_eq hab
  have hread : ∀ k v : String, (k, Json.str v) ∈ a.members ↔ (k, Json.str v) ∈ b.members :=
    fun k v => hmem (k, .str v)
  simp only [TrialCoordinate.members, List.mem_append, mem_optionalMember] at hread
  have hcondition : a.conditionId = b.conditionId := by
    apply Option.ext
    intro v
    simpa using hread "condition_id" v
  have hblock : a.blockId = b.blockId := by
    apply Option.ext
    intro v
    simpa using hread "block_id" v
  have hreplicate : a.replicateId = b.replicateId := by
    apply Option.ext
    intro v
    simpa using hread "replicate_id" v
  cases a
  cases b
  simp_all

def StreamAddress.formMembers (address : StreamAddress) : List (String × Json) :=
  [("namespace", .str address.namespace_), ("trial_coordinate", address.trialCoordinate.form),
    ("selection_policy_id", .str address.selectionPolicyId),
    ("variation_point_id", .str address.variationPointId),
    ("draw_purpose", .str address.drawPurpose),
    ("local_coordinate", .float (address.localCoordinate : ℤ))]

def StreamAddress.form (address : StreamAddress) : Json :=
  .obj (sortBy Prod.fst address.formMembers)

theorem canonicalStreamAddressBytes_trial (address : StreamAddress) :
    canonicalStreamAddressBytes (.trial address) =
      if (address.localCoordinate : ℤ) ≤ maxSafeInteger then .ok address.form
      else .error (valueError "stream address canonicalization failed") := by
  have hsafe : IsSafeInteger address.localCoordinate ↔
      (address.localCoordinate : ℤ) ≤ maxSafeInteger := by
    unfold IsSafeInteger maxSafeInteger
    omega
  unfold canonicalStreamAddressBytes DrawAddress.payload StreamAddress.payload
  simp only [canonicalForm, canonicalFields, canonicalForm_trialCoordinate]
  by_cases h : (address.localCoordinate : ℤ) ≤ maxSafeInteger
  · rw [if_pos (hsafe.mpr h), if_pos h]
    rfl
  · rw [if_neg fun hs => h (hsafe.mp hs), if_neg h]
    rfl

theorem StreamAddress.form_injective : Function.Injective StreamAddress.form := by
  intro a b hab
  have hmem := mem_iff_of_canonical_eq hab
  have hread : a.formMembers ⊆ b.formMembers := fun field => (hmem field).mp
  simp [StreamAddress.formMembers] at hread
  obtain ⟨hnamespace, hcoordinate, hpolicy, hpoint, hpurpose, hlocal⟩ := hread
  have hcoordinate := TrialCoordinate.form_injective hcoordinate
  cases a
  cases b
  simp_all

end Canonical

/-! ## Batches -/

structure BoundedIntegerDrawRequest where
  address : StreamAddress
  (minimum maximum maxRejectionAttempts : ℤ)
  deriving DecidableEq, Repr

structure BoundedIntegerBatchResult where
  draws : Option (List BoundedIntegerDraw)
  diagnostic : Option Diagnostic
  deriving DecidableEq, Repr

/-- The tuple of `_semantic_coordinate_key` -/
structure SemanticCoordinateKey where
  namespace_ : String
  (conditionId blockId replicateId : Option String)
  (selectionPolicyId variationPointId drawPurpose : String)
  localCoordinate : ℕ
  deriving DecidableEq

def semanticCoordinateKey (address : StreamAddress) : SemanticCoordinateKey :=
  let coordinate := address.trialCoordinate
  ⟨address.namespace_, coordinate.conditionId, coordinate.blockId, coordinate.replicateId,
    address.selectionPolicyId, address.variationPointId, address.drawPurpose,
    address.localCoordinate⟩

def batchCollisionDiagnostic (duplicateSemanticCount duplicateAddressBytesCount : ℕ) :
    Diagnostic :=
  { code := "random-stream.batch-draw-address-collision"
    domain := "random-stream"
    address := ""
    message := "batch draw detected " ++ toString duplicateSemanticCount ++
      " duplicate semantic coordinate(s) and " ++ toString duplicateAddressBytesCount ++
      " duplicate canonical address byte string(s); no draws were produced for this batch"
    severity := .error }

/-- The members of a set that were seen so far, and how many came again. -/
structure Seen (α : Type) where
  seen : List α
  duplicateCount : ℕ

def Seen.add {α : Type} [DecidableEq α] (s : Seen α) (a : α) : Seen α :=
  { seen := if a ∈ s.seen then s.seen else a :: s.seen
    duplicateCount := if a ∈ s.seen then s.duplicateCount + 1 else s.duplicateCount }

/-- The collision check of a batch: the semantic coordinates and the canonical bytes. -/
def scanRequests (requests : List BoundedIntegerDrawRequest) :
    Except PyError (Seen SemanticCoordinateKey × Seen Json) :=
  requests.foldlM
    (fun scan request => do
      let addressBytes ← canonicalStreamAddressBytes (.trial request.address)
      return (scan.1.add (semanticCoordinateKey request.address), scan.2.add addressBytes))
    (⟨[], 0⟩, ⟨[], 0⟩)

section Batch

variable (streams : RandomStreams) (profileId : String) (streamKey : List Byte)

def BoundedIntegerDrawRequest.draw (request : BoundedIntegerDrawRequest) :
    Except PyError BoundedIntegerDraw :=
  drawBoundedInteger streams profileId streamKey (.trial request.address) request.minimum
    request.maximum request.maxRejectionAttempts

def drawBoundedIntegerBatch (requests : List BoundedIntegerDrawRequest) :
    Except PyError BoundedIntegerBatchResult := do
  requireSupportedProfile profileId
  let scan ← scanRequests requests
  if scan.1.duplicateCount ≠ 0 ∨ scan.2.duplicateCount ≠ 0 then
    return ⟨none, some (batchCollisionDiagnostic scan.1.duplicateCount scan.2.duplicateCount)⟩
  let draws ← requests.mapM (·.draw streams profileId streamKey)
  return ⟨some draws, none⟩

end Batch

section Scan

variable {α : Type} [DecidableEq α]

theorem semanticCoordinateKey_injective : Function.Injective semanticCoordinateKey := by
  intro a b hab
  obtain ⟨_, ⟨_, _, _⟩, _, _, _, _⟩ := a
  obtain ⟨_, ⟨_, _, _⟩, _, _, _, _⟩ := b
  simpa [semanticCoordinateKey, and_assoc] using hab

theorem mem_add (s : Seen α) (a b : α) : b ∈ (s.add a).seen ↔ b = a ∨ b ∈ s.seen := by
  unfold Seen.add
  by_cases h : a ∈ s.seen
  · simp only [if_pos h]
    constructor
    · exact Or.inr
    · rintro (rfl | hb)
      · exact h
      · exact hb
  · simp only [if_neg h, List.mem_cons]

theorem duplicateCount_add_eq_zero (s : Seen α) (a : α) :
    (s.add a).duplicateCount = 0 ↔ s.duplicateCount = 0 ∧ a ∉ s.seen := by
  unfold Seen.add
  by_cases h : a ∈ s.seen
  · simp [h]
  · simp [h]

theorem duplicateCount_foldl_eq_zero (l : List α) (s : Seen α) :
    (l.foldl Seen.add s).duplicateCount = 0 ↔
      s.duplicateCount = 0 ∧ l.Nodup ∧ ∀ a ∈ l, a ∉ s.seen := by
  induction l generalizing s with
  | nil => simp
  | cons a rest ih =>
    rw [List.foldl_cons, ih, duplicateCount_add_eq_zero, List.nodup_cons, List.forall_mem_cons]
    simp only [mem_add, not_or]
    constructor
    · intro h
      obtain ⟨⟨hcount, hseen⟩, hnodup, hrest⟩ := h
      exact ⟨hcount, ⟨fun hmem => (hrest a hmem).1 rfl, hnodup⟩, hseen, fun b hb => (hrest b hb).2⟩
    · intro h
      obtain ⟨hcount, ⟨hmem, hnodup⟩, hseen, hrest⟩ := h
      refine ⟨⟨hcount, hseen⟩, hnodup, fun b hb => ⟨?_, hrest b hb⟩⟩
      intro heq
      exact hmem (heq ▸ hb)

theorem scanRequests_eq {requests : List BoundedIntegerDrawRequest}
    (h : ∀ request ∈ requests, (request.address.localCoordinate : ℤ) ≤ maxSafeInteger) :
    scanRequests requests =
      .ok ((requests.map fun request => semanticCoordinateKey request.address).foldl Seen.add
          ⟨[], 0⟩,
        (requests.map fun request => request.address.form).foldl Seen.add ⟨[], 0⟩) := by
  unfold scanRequests
  generalize (⟨[], 0⟩ : Seen SemanticCoordinateKey) = s
  generalize (⟨[], 0⟩ : Seen Json) = t
  induction requests generalizing s t with
  | nil => rfl
  | cons request rest ih =>
    rw [List.forall_mem_cons] at h
    rw [List.foldlM_cons, canonicalStreamAddressBytes_trial, if_pos h.1]
    exact ih h.2 _ _

end Scan

section Addressed

variable (streams : RandomStreams) {profileId : String} (streamKey : List Byte)
  {requests : List BoundedIntegerDrawRequest}

def Distinct (requests : List BoundedIntegerDrawRequest) : Prop :=
  (requests.map fun request => request.address).Nodup

theorem scanRequests_distinct
    (h : ∀ request ∈ requests, (request.address.localCoordinate : ℤ) ≤ maxSafeInteger) :
    ∃ scan, scanRequests requests = .ok scan ∧
      (scan.1.duplicateCount = 0 ↔ Distinct requests) ∧
      (scan.2.duplicateCount = 0 ↔ Distinct requests) := by
  have hcount : ∀ {α : Type} [DecidableEq α] (f : StreamAddress → α), Function.Injective f →
      (((requests.map fun request => f request.address).foldl Seen.add ⟨[], 0⟩).duplicateCount = 0 ↔
        Distinct requests) := by
    intro α _ f hf
    have hmap : (requests.map fun request => f request.address) =
        (requests.map fun request => request.address).map f := by
      rw [List.map_map]
      rfl
    rw [duplicateCount_foldl_eq_zero, hmap, List.nodup_map_iff hf]
    simp [Distinct]
  exact ⟨_, scanRequests_eq h, hcount _ semanticCoordinateKey_injective,
    hcount _ StreamAddress.form_injective⟩

theorem drawBoundedIntegerBatch_of_distinct
    (hprofile : profileId ∈ supportedRandomStreamProfileIds)
    (h : ∀ request ∈ requests, (request.address.localCoordinate : ℤ) ≤ maxSafeInteger)
    (hdistinct : Distinct requests) :
    drawBoundedIntegerBatch streams profileId streamKey requests =
      (requests.mapM fun request => request.draw streams profileId streamKey) >>= fun draws =>
        .ok ⟨some draws, none⟩ := by
  obtain ⟨scan, hscan, hsemantic, hbytes⟩ := scanRequests_distinct h
  simp only [drawBoundedIntegerBatch, requireSupportedProfile, refuseIf, hprofile,
    not_true_eq_false, if_false, hscan]
  show (if scan.1.duplicateCount ≠ 0 ∨ scan.2.duplicateCount ≠ 0 then _ else _) = _
  rw [if_neg fun hcollision => hcollision.elim (· (hsemantic.mpr hdistinct))
    (· (hbytes.mpr hdistinct))]
  rfl

theorem drawBoundedIntegerBatch_of_collision
    (hprofile : profileId ∈ supportedRandomStreamProfileIds)
    (h : ∀ request ∈ requests, (request.address.localCoordinate : ℤ) ≤ maxSafeInteger)
    (hcollision : ¬ Distinct requests) :
    ∃ semanticCount bytesCount, drawBoundedIntegerBatch streams profileId streamKey requests =
      .ok ⟨none, some (batchCollisionDiagnostic semanticCount bytesCount)⟩ := by
  obtain ⟨scan, hscan, hsemantic, -⟩ := scanRequests_distinct h
  refine ⟨scan.1.duplicateCount, scan.2.duplicateCount, ?_⟩
  simp only [drawBoundedIntegerBatch, requireSupportedProfile, refuseIf, hprofile,
    not_true_eq_false, if_false, hscan]
  show (if scan.1.duplicateCount ≠ 0 ∨ scan.2.duplicateCount ≠ 0 then _ else _) = _
  rw [if_pos (Or.inl fun hzero => hcollision (hsemantic.mp hzero))]
  rfl

theorem drawBoundedIntegerBatch_exclusive {result : BoundedIntegerBatchResult}
    (hprofile : profileId ∈ supportedRandomStreamProfileIds)
    (h : ∀ request ∈ requests, (request.address.localCoordinate : ℤ) ≤ maxSafeInteger)
    (hresult : drawBoundedIntegerBatch streams profileId streamKey requests = .ok result) :
    (Distinct requests ∧ result.diagnostic = none ∧ ∃ draws, result.draws = some draws ∧
      List.Forall₂ (fun request draw => request.draw streams profileId streamKey = .ok draw)
        requests draws) ∨
    (¬ Distinct requests ∧ result.draws = none ∧ ∃ semanticCount bytesCount,
      result.diagnostic = some (batchCollisionDiagnostic semanticCount bytesCount)) := by
  by_cases hdistinct : Distinct requests
  · left
    rw [drawBoundedIntegerBatch_of_distinct streams streamKey hprofile h hdistinct,
      bind_eq_ok_iff] at hresult
    obtain ⟨draws, hdraws, hresult⟩ := hresult
    obtain rfl := Except.ok.inj hresult
    exact ⟨hdistinct, rfl, draws, rfl, mapM_eq_ok_iff.mp hdraws⟩
  · right
    obtain ⟨semanticCount, bytesCount, hcollision⟩ :=
      drawBoundedIntegerBatch_of_collision streams streamKey hprofile h hdistinct
    rw [hcollision] at hresult
    obtain rfl := Except.ok.inj hresult
    exact ⟨hdistinct, rfl, semanticCount, bytesCount, rfl⟩

end Addressed

/-- A batch at addresses with canonical bytes is refused with a collision when two of its
requests have one address, which is when they have one canonical address.  A refused batch
has no draws, and in every order of an accepted batch each request has the value it has in
any other. -/
theorem drawBoundedIntegerBatch_addressed (streams : RandomStreams) (profileId : String)
    (streamKey : List Byte) (requests : List BoundedIntegerDrawRequest)
    (hprofile : profileId ∈ supportedRandomStreamProfileIds)
    (hlocal : ∀ request ∈ requests, (request.address.localCoordinate : ℤ) ≤ maxSafeInteger) :
    ((∃ draws semanticCount bytesCount,
        drawBoundedIntegerBatch streams profileId streamKey requests =
          .ok ⟨draws, some (batchCollisionDiagnostic semanticCount bytesCount)⟩) ↔
      ∃ i j, ∃ (hi : i < requests.length) (hj : j < requests.length), i ≠ j ∧
        requests[i].address = requests[j].address) ∧
    (∀ a ∈ requests, ∀ b ∈ requests,
      canonicalStreamAddressBytes (.trial a.address) =
        canonicalStreamAddressBytes (.trial b.address) ↔ a.address = b.address) ∧
    (∀ result, drawBoundedIntegerBatch streams profileId streamKey requests = .ok result →
      result.diagnostic ≠ none → result.draws = none) ∧
    ∀ draws diagnostic, drawBoundedIntegerBatch streams profileId streamKey requests =
        .ok ⟨some draws, diagnostic⟩ →
      ∃ value : BoundedIntegerDrawRequest → BoundedIntegerDraw, draws = requests.map value ∧
        ∀ batch : List BoundedIntegerDrawRequest, batch.Perm requests →
          drawBoundedIntegerBatch streams profileId streamKey batch =
            .ok ⟨some (batch.map value), none⟩ := by
  have hdistinct : Distinct requests ↔ ¬ ∃ i j, ∃ (hi : i < requests.length)
      (hj : j < requests.length), i ≠ j ∧ requests[i].address = requests[j].address := by
    unfold Distinct
    rw [List.nodup_iff_pairwise_ne, List.pairwise_map, List.pairwise_iff_getElem]
    constructor
    · intro h hrepeat
      obtain ⟨i, j, hi, hj, hne, hsame⟩ := hrepeat
      rcases Nat.lt_or_gt_of_ne hne with hlt | hgt
      · exact h i j hi hj hlt hsame
      · exact h j i hj hi hgt hsame.symm
    · intro h i j hi hj hlt hsame
      exact h ⟨i, j, hi, hj, by omega, hsame⟩
  refine ⟨?_, ?_, ?_, ?_⟩
  · rw [← not_iff_not, ← hdistinct]
    constructor
    · intro hnone
      by_contra hcollision
      obtain ⟨semanticCount, bytesCount, h⟩ :=
        drawBoundedIntegerBatch_of_collision streams streamKey hprofile hlocal hcollision
      exact hnone ⟨none, semanticCount, bytesCount, h⟩
    · intro hdistinct hcollision
      obtain ⟨draws, semanticCount, bytesCount, h⟩ := hcollision
      rcases drawBoundedIntegerBatch_exclusive streams streamKey hprofile hlocal h with
        ⟨-, hnone, -⟩ | ⟨hnot, -⟩
      · cases hnone
      · exact hnot hdistinct
  · intro a ha b hb
    rw [canonicalStreamAddressBytes_trial, canonicalStreamAddressBytes_trial,
      if_pos (hlocal a ha), if_pos (hlocal b hb), Except.ok.injEq]
    exact StreamAddress.form_injective.eq_iff
  · intro result hresult hdiagnostic
    rcases drawBoundedIntegerBatch_exclusive streams streamKey hprofile hlocal hresult with
      ⟨-, hnone, -⟩ | ⟨-, hnone, -⟩
    · exact absurd hnone hdiagnostic
    · exact hnone
  · intro draws diagnostic hresult
    rcases drawBoundedIntegerBatch_exclusive streams streamKey hprofile hlocal hresult with
      ⟨hdistinct, -, draws', hdraws, hall⟩ | ⟨-, hnone, -⟩
    · obtain rfl : draws = draws' := Option.some.inj hdraws
      have hvalue : ∀ request ∈ requests, ∃ draw,
          request.draw streams profileId streamKey = .ok draw := by
        intro request hmem
        obtain ⟨draw, -, hdraw⟩ := exists_left_of_forall₂ hall.flip hmem
        exact ⟨draw, hdraw⟩
      classical
      let value : BoundedIntegerDrawRequest → BoundedIntegerDraw := fun request =>
        if h : request ∈ requests then (hvalue request h).choose else ⟨none, 0, false⟩
      have hvalue_eq : ∀ request ∈ requests,
          request.draw streams profileId streamKey = .ok (value request) := by
        intro request hmem
        rw [show value request = _ from dif_pos hmem]
        exact (hvalue request hmem).choose_spec
      have hbatch : ∀ batch : List BoundedIntegerDrawRequest, batch.Perm requests →
          drawBoundedIntegerBatch streams profileId streamKey batch =
            .ok ⟨some (batch.map value), none⟩ := by
        intro batch hperm
        have hlocal' : ∀ request ∈ batch, (request.address.localCoordinate : ℤ) ≤
            maxSafeInteger := fun request hmem => hlocal request (hperm.mem_iff.mp hmem)
        have hdistinct' : Distinct batch := (hperm.map _).nodup_iff.mpr hdistinct
        rw [drawBoundedIntegerBatch_of_distinct streams streamKey hprofile hlocal' hdistinct',
          mapM_eq_ok_map fun request hmem => hvalue_eq request (hperm.mem_iff.mp hmem)]
        rfl
      refine ⟨value, ?_, hbatch⟩
      have hsame := hresult.symm.trans (hbatch requests (List.Perm.refl _))
      have hdraws' := congrArg BoundedIntegerBatchResult.draws (Except.ok.inj hsame)
      exact Option.some.inj hdraws'
    · cases hnone

def coordinateRequest (localCoordinate : ℕ) : BoundedIntegerDrawRequest :=
  ⟨⟨"raes", ⟨some "c1", none, none⟩, "policy", "point", "variation", localCoordinate⟩, 0, 5, 8⟩

theorem drawBoundedIntegerBatch_addressed_two :
    ∃ value : BoundedIntegerDrawRequest → BoundedIntegerDraw,
      drawBoundedIntegerBatch ⟨fun _ _ _ => 7⟩ "blake3-xof-v1" []
        [coordinateRequest 1, coordinateRequest 0] =
      .ok ⟨some [value (coordinateRequest 1), value (coordinateRequest 0)], none⟩ := by
  have h := drawBoundedIntegerBatch_addressed ⟨fun _ _ _ => 7⟩ "blake3-xof-v1" []
    [coordinateRequest 0, coordinateRequest 1] (by decide) (by decide)
  obtain ⟨value, -, hvalue⟩ := h.2.2.2 [⟨some 1, 0, false⟩, ⟨some 1, 0, false⟩] none
    (by decide +kernel)
  exact ⟨value, hvalue _ (List.Perm.swap _ _ _)⟩

/-- A local coordinate that the encoder refuses hides a collision: two requests of one
address are refused with an error of the canonical form. -/
theorem drawBoundedIntegerBatch_unencoded :
    drawBoundedIntegerBatch ⟨fun _ _ _ => 7⟩ "blake3-xof-v1" []
        [coordinateRequest (2 ^ 53), coordinateRequest (2 ^ 53)] =
      .error (valueError "stream address canonicalization failed") := by
  decide +kernel

end Raes.Random
