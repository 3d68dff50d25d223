import Mathlib.Data.List.ReduceOption
import Raes.Lib.ExceptList
import Raes.RuntimeFacts.BindingPlane

/-!
# Runs of the runtime fact plane

Whatever facts a plane has met, in whatever order and with whatever observation times,
it hands a command to its dispatcher only when each selection is bound to the latest
version that was observed by the requested time, and the request sees that version.
-/

namespace Raes.RuntimeFacts

open PyError Stateful

variable {ν : Type} {host : Host} {plane : Plane ν}

/-! ## The store -/

/-- The histories of a store: each version stands under its fact, the sequences count from
one, and no two versions have one identifier. -/
structure StoreSound (plane : Plane ν) : Prop where
  named : ∀ factId, ∀ version ∈ plane.history factId, version.factId = factId
  contiguous : ∀ factId, (plane.history factId).map Version.sequence =
    List.range' 1 (plane.history factId).length
  unique : ∀ factId, ((plane.history factId).map Version.versionId).Nodup
  apart : ∀ factId otherId, factId ≠ otherId → ∀ version ∈ plane.history factId,
    ∀ other ∈ plane.history otherId, version.versionId ≠ other.versionId

/-- What a plane keeps: its store, the identifiers it has seen, and one record for each action
key that is bound. -/
structure PlaneSound (plane : Plane ν) : Prop where
  store : StoreSound plane
  known : ∀ factId, ∀ version ∈ plane.history factId, version.versionId ∈ plane.versionIds
  once : (plane.bindingEvents.map Prod.fst).Nodup
  bound : ∀ key ∈ plane.bindingEvents.map Prod.fst, key ∈ plane.boundActionInstances

def Plane.appended (plane : Plane ν) (version : Version ν) : Plane ν :=
  { plane with
    versions := plane.versions.set version.factId (plane.history version.factId ++ [version])
    versionIds := version.versionId :: plane.versionIds }

def Plane.declared (plane : Plane ν) (declaration : Declaration) : Plane ν :=
  { plane with
    declarations := plane.declarations.set declaration.factId declaration
    versions := plane.versions.set declaration.factId (plane.history declaration.factId) }

@[simp] theorem history_declared (declaration : Declaration) (factId : String) :
    (plane.declared declaration).history factId = plane.history factId := by
  unfold Plane.history Plane.declared
  rw [Dict.get?_set]
  by_cases h : factId = declaration.factId
  · rw [if_pos h, h]
    rfl
  · rw [if_neg h]

theorem history_appended (version : Version ν) (factId : String) :
    (plane.appended version).history factId =
      if factId = version.factId then plane.history factId ++ [version]
      else plane.history factId := by
  unfold Plane.appended
  by_cases h : factId = version.factId
  · rw [if_pos h, h, Plane.history, Dict.get?_set_self]
    rfl
  · rw [if_neg h, Plane.history, Dict.get?_set_ne _ _ h]
    rfl

theorem exec_declare (host : Host) (plane : Plane ν) (declaration : Declaration) :
    (exec (declare host declaration) plane).2 = plane ∨
      (exec (declare host declaration) plane).2 = plane.declared declaration := by
  unfold declare
  rw [exec_get_bind]
  by_cases h : ∃ current ∈ plane.declarations.get? declaration.factId, current ≠ declaration
  · left
    rw [exec_bind, refuseIf, if_pos h]
    rfl
  · right
    rw [exec_bind, refuseIf, if_neg h]
    rfl

theorem exec_append (host : Host) (plane : Plane ν) (version : Version ν) :
    exec (append host version) plane =
      match checkVersion host plane version with
      | .ok () => (.ok (), plane.appended version)
      | .error error => (.error error, plane) := by
  unfold append
  rw [exec_get_bind, exec_bind, exec_lift]
  cases checkVersion host plane version <;> rfl

variable {version : Version ν}

theorem checkVersion_ok (h : checkVersion host plane version = .ok ()) :
    version.versionId ∉ plane.versionIds ∧
      version.sequence = (plane.history version.factId).length + 1 := by
  unfold checkVersion at h
  cases hdeclaration : plane.declarations.get? version.factId with
  | none =>
    rw [hdeclaration] at h
    cases h
  | some declaration =>
    rw [hdeclaration] at h
    simp only [seq_eq_ok_iff, refuseIf_eq_ok_iff] at h
    exact ⟨h.1, not_not.mp h.2.2.2⟩

theorem PlaneSound.declared (h : PlaneSound plane) (declaration : Declaration) :
    PlaneSound (plane.declared declaration) where
  store := by
    refine ⟨fun factId => ?_, fun factId => ?_, fun factId => ?_, fun factId otherId hne => ?_⟩
    · rw [history_declared]
      exact h.store.named factId
    · rw [history_declared]
      exact h.store.contiguous factId
    · rw [history_declared]
      exact h.store.unique factId
    · rw [history_declared, history_declared]
      exact h.store.apart factId otherId hne
  known := fun factId => by
    rw [history_declared]
    exact h.known factId
  once := h.once
  bound := h.bound

theorem PlaneSound.appended (h : PlaneSound plane) {version : Version ν}
    (hcheck : checkVersion host plane version = .ok ()) :
    PlaneSound (plane.appended version) := by
  obtain ⟨hnew, hnext⟩ := checkVersion_ok hcheck
  have hmem : ∀ factId, ∀ other ∈ (plane.appended version).history factId,
      other ∈ plane.history factId ∨ other = version ∧ factId = version.factId := by
    intro factId other hother
    rw [history_appended] at hother
    by_cases hfact : factId = version.factId
    · rw [if_pos hfact, List.mem_append, List.mem_singleton] at hother
      exact hother.imp_right fun heq => ⟨heq, hfact⟩
    · rw [if_neg hfact] at hother
      exact Or.inl hother
  have hfresh : ∀ factId, ∀ other ∈ plane.history factId, other.versionId ≠ version.versionId :=
    fun factId other hother heq => hnew (heq ▸ h.known factId other hother)
  refine ⟨⟨fun factId other hother => ?_, fun factId => ?_, fun factId => ?_,
    fun factId otherId hne first hfirst second hsecond => ?_⟩, fun factId other hother => ?_,
    h.once, h.bound⟩
  · rcases hmem factId other hother with hold | ⟨rfl, hfact⟩
    · exact h.store.named factId other hold
    · exact hfact.symm
  · rw [history_appended]
    by_cases hfact : factId = version.factId
    · rw [if_pos hfact, List.map_append, h.store.contiguous, List.length_append,
        List.length_singleton, List.range'_concat]
      simp only [List.map_cons, List.map_nil, hnext, hfact]
      rw [Nat.one_mul, Nat.add_comm]
    · rw [if_neg hfact]
      exact h.store.contiguous factId
  · rw [history_appended]
    by_cases hfact : factId = version.factId
    · rw [if_pos hfact, List.map_append, List.nodup_append]
      refine ⟨h.store.unique factId, List.nodup_singleton _, ?_⟩
      intro id hid _ hsingle heq
      obtain ⟨other, hother, rfl⟩ := List.mem_map.mp hid
      rw [List.map_singleton, List.mem_singleton] at hsingle
      exact hfresh factId other hother (heq.trans hsingle)
    · rw [if_neg hfact]
      exact h.store.unique factId
  · rcases hmem factId first hfirst with hold | ⟨rfl, hfact⟩
    · rcases hmem otherId second hsecond with hold' | ⟨rfl, -⟩
      · exact h.store.apart factId otherId hne first hold second hold'
      · exact hfresh factId first hold
    · rcases hmem otherId second hsecond with hold' | ⟨rfl, hfact'⟩
      · exact (hfresh otherId second hold').symm
      · exact absurd (hfact.trans hfact'.symm) hne
  · rcases hmem factId other hother with hold | ⟨rfl, -⟩
    · exact List.mem_cons_of_mem _ (h.known factId other hold)
    · exact List.mem_cons_self

/-! ## Candidates -/

def Sees (plane : Plane ν) (request : Request) (sink : Sink) (version : Version ν) : Prop :=
  ∃ declaration, plane.declarations.get? version.factId = some declaration ∧
    candidateVisible request sink declaration version

/-- A version that a selection may be bound to: a listed fact has it, the request sees it, and
it comes after every other version of its fact that was observed by the requested time. -/
structure Candidate (host : Host) (plane : Plane ν) (request : Request) (admission : Admission)
    (selection : Selection) (version : Version ν) : Prop where
  listed : version.factId ∈ selection.candidateFactIds
  stored : version ∈ plane.history version.factId
  seen : Sees plane request selection.sink version
  latest : ∃ requestedAt observedAt, host.instantOf admission.requestedAt = some requestedAt ∧
    host.instantOf version.observedAt = some observedAt ∧ observedAt ≤ requestedAt ∧
    ∀ other ∈ plane.history version.factId, other ≠ version →
      ∀ instant, host.instantOf other.observedAt = some instant → instant ≤ requestedAt →
        toLex (instant, other.sequence) < toLex (observedAt, version.sequence)

theorem parseOffsetDatetime_ok_iff {value fieldName : String} {instant : ℤ} :
    host.parseOffsetDatetime value fieldName = .ok instant ↔
      host.instantOf value = some instant := by
  unfold Host.parseOffsetDatetime
  cases host.instantOf value <;> simp

theorem datedVersion_ok_iff {dated : ℤ × Version ν} : datedVersion host version = .ok dated ↔
      host.instantOf version.observedAt = some dated.1 ∧ dated.2 = version := by
  unfold datedVersion
  rw [bind_eq_ok_iff]
  simp only [parseOffsetDatetime_ok_iff]
  constructor
  · rintro ⟨observedAt, hobserved, h⟩
    cases h
    exact ⟨hobserved, rfl⟩
  · rintro ⟨hobserved, rfl⟩
    exact ⟨dated.1, hobserved, rfl⟩

theorem foldl_keepLater {dated : List (ℤ × Version ν)} {kept : Option (ℤ × Version ν)}
    {latest : ℤ × Version ν} (h : dated.foldl keepLater kept = some latest) :
    (kept = some latest ∨ latest ∈ dated) ∧ ∀ other, kept = some other ∨ other ∈ dated →
      toLex (other.1, other.2.sequence) ≤ toLex (latest.1, latest.2.sequence) := by
  induction dated generalizing kept with
  | nil =>
    refine ⟨.inl h, fun other hother => ?_⟩
    rw [show kept = some latest from h] at hother
    rcases hother with hother | hother
    · rw [Option.some.inj hother]
    · cases hother
  | cons d rest ih =>
    obtain ⟨hmem, hgreatest⟩ := ih h
    -- The version that the turn keeps is one of the two, and neither is later.
    have hturn : (keepLater kept d = kept ∨ keepLater kept d = some d) ∧
        ∀ other, kept = some other ∨ other = d → ∃ next, keepLater kept d = some next ∧
          toLex (other.1, other.2.sequence) ≤ toLex (next.1, next.2.sequence) := by
      cases kept with
      | none => simp [keepLater]
      | some k =>
        unfold keepLater
        dsimp only
        split
        · rename_i hlater
          refine ⟨.inr rfl, fun other hother => ⟨d, rfl, ?_⟩⟩
          rcases hother with hother | rfl
          · rw [← Option.some.inj hother, Prod.Lex.toLex_le_toLex]
            exact hlater.imp_right fun h => ⟨h.1, le_of_lt h.2⟩
          · exact le_refl _
        · rename_i hlater
          refine ⟨.inl rfl, fun other hother => ⟨k, rfl, ?_⟩⟩
          rcases hother with hother | rfl
          · rw [Option.some.inj hother]
          · rw [Prod.Lex.toLex_le_toLex]
            simp only
            omega
    constructor
    · rcases hmem with hmem | hmem
      · rcases hturn.1 with hsame | hd
        · exact .inl (hsame.symm.trans hmem)
        · rw [Option.some.inj (hd.symm.trans hmem)]
          exact .inr List.mem_cons_self
      · exact .inr (List.mem_cons_of_mem _ hmem)
    · intro other hother
      rw [List.mem_cons, ← or_assoc] at hother
      rcases hother with hother | hother
      · obtain ⟨next, hnext, hle⟩ := hturn.2 other hother
        exact le_trans hle (hgreatest next (.inl hnext))
      · exact hgreatest other (.inr hother)

theorem latestBy_spec {requestedAt : ℤ} {dated : List (ℤ × Version ν)}
    {latest : ℤ × Version ν} (h : latestBy requestedAt dated = some latest) :
    latest ∈ dated ∧ latest.1 ≤ requestedAt ∧ ∀ other ∈ dated, other.1 ≤ requestedAt →
      toLex (other.1, other.2.sequence) ≤ toLex (latest.1, latest.2.sequence) := by
  obtain ⟨hmem, hgreatest⟩ := foldl_keepLater h
  have hfiltered := hmem.resolve_left nofun
  rw [List.mem_filter, decide_eq_true_iff] at hfiltered
  exact ⟨hfiltered.1, hfiltered.2, fun other hother hle =>
    hgreatest other (.inr (List.mem_filter.mpr ⟨hother, decide_eq_true hle⟩))⟩

theorem StoreSound.eq_of_sequence (h : StoreSound plane) {factId : String}
    {version other : Version ν} (hversion : version ∈ plane.history factId)
    (hother : other ∈ plane.history factId) (heq : other.sequence = version.sequence) :
    other = version := by
  have hnodup : ((plane.history factId).map Version.sequence).Nodup := by
    rw [h.contiguous]
    exact List.nodup_range'
  exact List.inj_on_of_nodup_map hnodup hother hversion heq

variable {request : Request}

theorem visibleCandidate_spec (hstore : StoreSound plane) {sink : Sink}
    {requestedAt : ℤ} {factId : String}
    (h : visibleCandidate host plane request sink requestedAt factId = .ok (some version)) :
    version.factId = factId ∧ version ∈ plane.history factId ∧ Sees plane request sink version ∧
      ∃ observedAt, host.instantOf version.observedAt = some observedAt ∧
        observedAt ≤ requestedAt ∧ ∀ other ∈ plane.history factId, other ≠ version →
          ∀ instant, host.instantOf other.observedAt = some instant → instant ≤ requestedAt →
            toLex (instant, other.sequence) < toLex (observedAt, version.sequence) := by
  unfold visibleCandidate at h
  obtain ⟨dated, hdated, h⟩ := bind_eq_ok_iff.mp h
  rw [mapM_eq_ok_iff] at hdated
  cases hlatest : latestBy requestedAt dated with
  | none =>
    rw [hlatest] at h
    cases h
  | some latest =>
    obtain ⟨hmem, hby, hgreatest⟩ := latestBy_spec hlatest
    rw [hlatest] at h
    cases hdeclaration : plane.declarations.get? factId with
    | none =>
      simp only [hdeclaration] at h
      cases h
    | some declaration =>
      simp only [hdeclaration] at h
      by_cases hvisible : candidateVisible request sink declaration latest.2
      · rw [if_pos hvisible] at h
        obtain rfl := Option.some.inj (Except.ok.inj h)
        obtain ⟨stored, hstored, hpair⟩ := exists_left_of_forall₂ hdated hmem
        obtain ⟨hobserved, rfl⟩ := datedVersion_ok_iff.mp hpair
        have hnamed := hstore.named factId _ hstored
        refine ⟨hnamed, hstored, ⟨declaration, hnamed ▸ hdeclaration, hvisible⟩, latest.1,
          hobserved, hby, fun other hother hne instant hinstant hle => ?_⟩
        have hdatedOther : (instant, other) ∈ dated := by
          obtain ⟨pair, hpairMem, hpairOk⟩ := exists_left_of_forall₂ hdated.flip hother
          obtain ⟨hpairAt, hpairOf⟩ := datedVersion_ok_iff.mp hpairOk
          rw [hinstant, Option.some.injEq] at hpairAt
          rw [hpairAt, ← hpairOf]
          exact hpairMem
        refine lt_of_le_of_ne (hgreatest _ hdatedOther hle) fun heq => hne ?_
        exact hstore.eq_of_sequence hstored hother (congrArg (fun k => (ofLex k).2) heq)
      · rw [if_neg hvisible] at h
        cases h

variable {admission : Admission}

theorem visibleCandidates_spec (hstore : StoreSound plane) {selection : Selection}
    (h : visibleCandidates host plane request admission selection = .ok [version]) :
    Candidate host plane request admission selection version := by
  unfold visibleCandidates at h
  obtain ⟨requestedAt, hrequested, h⟩ := bind_eq_ok_iff.mp h
  obtain ⟨found, hfound, h⟩ := bind_eq_ok_iff.mp h
  rw [mapM_eq_ok_iff] at hfound
  have hmem : some version ∈ found := by
    rw [← List.reduceOption_mem_iff, Except.ok.inj h]
    exact List.mem_singleton_self version
  obtain ⟨factId, hlisted, hvisible⟩ := exists_left_of_forall₂ hfound hmem
  obtain ⟨hnamed, hstored, hseen, observedAt, hobserved, hby, hlatest⟩ :=
    visibleCandidate_spec hstore hvisible
  subst hnamed
  exact ⟨hlisted, hstored, hseen, requestedAt, observedAt,
    parseOffsetDatetime_ok_iff.mp hrequested, hobserved, hby, hlatest⟩

/-! ## Binding -/

/-- What the dispatcher gets for a selection is the value of a version it may be bound to. -/
def BoundTo (host : Host) (plane : Plane ν) (request : Request) (admission : Admission)
    (selection : Selection) (binding : DispatchBinding ν) : Prop :=
  ∃ version, Candidate host plane request admission selection version ∧
    binding = ⟨selection.sink, version.value, version.secretRef⟩

theorem collectSelection_spec (hstore : StoreSound plane) {collection after : Collection ν}
    {indexed : Selection × ℕ}
    (h : collectSelection host plane request admission collection indexed = .ok after)
    (hnone : after.diagnostics = []) : collection.diagnostics =
    [] ∧ ∃ binding, BoundTo host plane request admission indexed.1 binding ∧
      after.dispatchBindings = collection.dispatchBindings ++ [binding] := by
  have hrefused : ∀ disposition version failure, collection.refuse request admission
      indexed.1.sink indexed.2 disposition version failure ≠ after := by
    rintro disposition version failure rfl
    exact List.append_ne_nil_of_right_ne_nil _ (List.cons_ne_nil _ _) hnone
  unfold collectSelection at h
  obtain ⟨candidates, hcandidates, h⟩ := bind_eq_ok_iff.mp h
  match candidates, hcandidates, h with
  | [], _, h => exact absurd (Except.ok.inj h) (hrefused _ _ _)
  | [version], hcandidates, h =>
    have hcandidate := visibleCandidates_spec hstore hcandidates
    obtain ⟨declaration, hdeclaration, -⟩ := hcandidate.seen
    simp only [hdeclaration] at h
    obtain ⟨disposition, -, h⟩ := bind_eq_ok_iff.mp h
    by_cases hbound : disposition = .bound
    · rw [if_pos hbound] at h
      obtain rfl := Except.ok.inj h
      exact ⟨hnone, _, ⟨version, hcandidate, rfl⟩, rfl⟩
    · rw [if_neg hbound] at h
      exact absurd (Except.ok.inj h) (hrefused _ _ _)
  | _ :: _ :: _, _, h => exact absurd (Except.ok.inj h) (hrefused _ _ _)

theorem collectBindings_spec (hstore : StoreSound plane) (l : List
    (Selection × ℕ)) {collection after : Collection ν}
    (h : l.foldlM (collectSelection host plane request admission) collection = .ok after)
    (hnone : after.diagnostics = []) : collection.diagnostics = [] ∧ ∃ bindings,
      List.Forall₂ (BoundTo host plane request admission) (l.map Prod.fst) bindings ∧
      after.dispatchBindings = collection.dispatchBindings ++ bindings := by
  induction l generalizing collection with
  | nil =>
    cases h
    exact ⟨hnone, [], .nil, (List.append_nil _).symm⟩
  | cons indexed rest ih =>
    rw [List.foldlM_cons] at h
    obtain ⟨next, hnext, hrest⟩ := bind_eq_ok_iff.mp h
    obtain ⟨hnextNone, bindings, hbindings, hafter⟩ := ih hrest
    obtain ⟨hclear, binding, hbinding, hadded⟩ := collectSelection_spec hstore hnext hnextNone
    refine ⟨hclear, binding :: bindings, .cons hbinding hbindings, ?_⟩
    rw [hafter, hadded, List.append_assoc, List.singleton_append]

/-- The plane after a record: the group of events stands under a key that was not bound. -/
def Plane.recorded (plane : Plane ν) (actionKey : ActionKey) (events : List BindingEvent)
    (sent : List (ActionKey × List (DispatchBinding ν))) : Plane ν :=
  { plane with
    delivered := plane.delivered ++ sent
    bindingEvents := plane.bindingEvents ++ [(actionKey, events)]
    boundActionInstances := actionKey :: plane.boundActionInstances }

theorem exec_recordResult (plane : Plane ν) (actionKey : ActionKey) (collection : Collection ν) :
    (exec (recordResult actionKey collection) plane).2 =
      plane.recorded actionKey collection.events [] := by
  rw [Plane.recorded, List.append_nil]
  rfl

theorem exec_finishBinding (plane : Plane ν)
    (dispatcher : Option (List (DispatchBinding ν) → DispatcherEnd))
    (actionKey : ActionKey) (request : Request) (admission : Admission)
    (collection : Collection ν) :
    ∃ events sent, (exec (finishBinding dispatcher actionKey request admission collection)
        plane).2 = plane.recorded actionKey events sent ∧
      (sent = [] ∨
        collection.diagnostics = [] ∧ sent = [(actionKey, collection.dispatchBindings)]) := by
  unfold finishBinding
  by_cases hclear : collection.diagnostics.isEmpty = true
  · rw [if_pos hclear, List.isEmpty_iff] at *
    cases dispatcher with
    | none => exact ⟨_, [], exec_recordResult plane actionKey _, Or.inl rfl⟩
    | some dispatcher => exact ⟨_, _, rfl, Or.inr ⟨hclear, rfl⟩⟩
  · rw [if_neg hclear]
    exact ⟨_, [], exec_recordResult plane actionKey collection, Or.inl rfl⟩

/-- A request leaves the plane, or it is admitted, was not bound before, and is recorded. -/
theorem exec_bindActionInputs (host : Host) (plane : Plane ν)
    (dispatcher : Option (List (DispatchBinding ν) → DispatcherEnd))
    (request : Request) :
    (exec (bindActionInputs host dispatcher request) plane).2 = plane ∨
      request.actionKey ∉ plane.boundActionInstances ∧ ∃ admission collection events sent,
        plane.admissions.get? request.actionKey = some admission ∧
        collectBindings host plane request admission = .ok collection ∧
        (exec (bindActionInputs host dispatcher request) plane).2 =
          plane.recorded request.actionKey events sent ∧
        (sent = [] ∨ collection.diagnostics = [] ∧
          sent = [(request.actionKey, collection.dispatchBindings)]) := by
  obtain ⟨after, hafter⟩ : ∃ after, (exec (bindActionInputs host dispatcher request) plane).2 =
    after := ⟨_, rfl⟩
  rw [hafter]
  unfold bindActionInputs at hafter
  rw [exec_get_bind, exec_bind, exec_lift, refuseIf] at hafter
  by_cases hbound : request.actionKey ∈ plane.boundActionInstances
  · rw [if_pos hbound] at hafter
    exact Or.inl hafter.symm
  · rw [if_neg hbound] at hafter
    cases hadmission : plane.admissions.get? request.actionKey with
    | none =>
      simp only [hadmission] at hafter
      exact Or.inl hafter.symm
    | some admission =>
      simp only [hadmission] at hafter
      rw [exec_bind, exec_lift] at hafter
      cases hcollect : collectBindings host plane request admission with
      | error error =>
        simp only [hcollect] at hafter
        exact Or.inl hafter.symm
      | ok collection =>
        simp only [hcollect] at hafter
        obtain ⟨events, sent, hfinish, hsent⟩ := exec_finishBinding plane dispatcher
          request.actionKey request admission collection
        exact Or.inr ⟨hbound, admission, collection, events, sent, rfl, hcollect,
          hafter.symm.trans hfinish, hsent⟩

/-! ## Runs -/

inductive Op (ν : Type) where
  | declare (declaration : Declaration)
  | append (version : Version ν)
  | bind (dispatcher : Option (List (DispatchBinding ν) → DispatcherEnd)) (request : Request)

def step (host : Host) (plane : Plane ν) : Op ν → Plane ν
  | .declare declaration => (exec (declare host declaration) plane).2
  | .append version => (exec (append host version) plane).2
  | .bind dispatcher request => (exec (bindActionInputs host dispatcher request) plane).2

theorem planeSound_create {admissions : List Admission} {supportedSourceKinds : List SourceKind}
    (h : Plane.create admissions supportedSourceKinds = .ok plane) : PlaneSound plane := by
  unfold Plane.create at h
  obtain ⟨indexed, -, h⟩ := bind_eq_ok_iff.mp h
  obtain rfl := Except.ok.inj h
  refine ⟨⟨?_, fun _ => rfl, fun _ => .nil, ?_⟩, ?_, .nil, ?_⟩
  · intro _ _ hmem
    cases hmem
  · intro _ _ _ _ hmem
    cases hmem
  · intro _ _ hmem
    cases hmem
  · intro _ hmem
    cases hmem

theorem step_planeSound (plane : Plane ν) (op : Op ν) (h : PlaneSound plane) :
    PlaneSound (step host plane op) := by
  cases op with
  | declare declaration =>
    show PlaneSound (exec (declare host declaration) plane).2
    rcases exec_declare host plane declaration with heq | heq <;> rw [heq]
    · exact h
    · exact h.declared declaration
  | append version =>
    show PlaneSound (exec (append host version) plane).2
    rw [exec_append]
    cases hcheck : checkVersion host plane version with
    | error error => exact h
    | ok _ => exact h.appended hcheck
  | bind dispatcher request =>
    show PlaneSound (exec (bindActionInputs host dispatcher request) plane).2
    rcases exec_bindActionInputs host plane dispatcher request with
      heq | ⟨hnew, admission, collection, events, sent, -, -, heq, -⟩ <;> rw [heq]
    · exact h
    · have hunrecorded : request.actionKey ∉ plane.bindingEvents.map Prod.fst :=
        fun hmem => hnew (h.bound _ hmem)
      refine ⟨⟨h.store.named, h.store.contiguous, h.store.unique, h.store.apart⟩, h.known, ?_,
        fun key hkey => ?_⟩
      · show ((plane.bindingEvents ++ [(request.actionKey, events)]).map Prod.fst).Nodup
        rw [List.map_append, List.map_singleton, List.nodup_append_comm, List.singleton_append]
        exact List.nodup_cons.mpr ⟨hunrecorded, h.once⟩
      · have hkey : key ∈ (plane.bindingEvents ++ [(request.actionKey, events)]).map Prod.fst :=
          hkey
        rw [List.map_append, List.mem_append, List.map_singleton, List.mem_singleton] at hkey
        rcases hkey with hold | rfl
        · exact List.mem_cons_of_mem _ (h.bound key hold)
        · exact List.mem_cons_self

/-- A request reaches the dispatcher at most once, and then with a version that each selection
of its admission may be bound to. -/
def DispatchSound (host : Host) (plane after : Plane ν) (request : Request) : Prop :=
  after.delivered = plane.delivered ∨ ∃ admission bindings,
    plane.admissions.get? request.actionKey = some admission ∧
    after.delivered = plane.delivered ++ [(request.actionKey, bindings)] ∧
    List.Forall₂ (BoundTo host plane request admission) admission.selections bindings

theorem step_dispatchSound (h : StoreSound plane)
    (dispatcher : Option (List (DispatchBinding ν) → DispatcherEnd)) (request : Request) :
    DispatchSound host plane (step host plane (.bind dispatcher request)) request := by
  show DispatchSound host plane (exec (bindActionInputs host dispatcher request) plane).2 request
  rcases exec_bindActionInputs host plane dispatcher request with
    heq | ⟨-, admission, collection, events, sent, hadmission, hcollect, heq, hsent⟩
  · exact Or.inl (congrArg Plane.delivered heq)
  · rcases hsent with rfl | ⟨hclear, rfl⟩
    · left
      rw [heq]
      exact List.append_nil _
    · right
      obtain ⟨-, bindings, hbindings, hall⟩ := collectBindings_spec h _ hcollect hclear
      rw [List.zipIdx_map_fst] at hbindings
      refine ⟨admission, bindings, hadmission, ?_, hbindings⟩
      rw [heq, Plane.recorded, hall, List.nil_append]

/-- What a plane does after any run of declarations, versions and requests. -/
structure RunSound (host : Host) (start : Plane ν) (ops : List (Op ν)) : Prop where
  store : StoreSound (Run.run (step host) start ops)
  once : ((Run.run (step host) start ops).bindingEvents.map Prod.fst).Nodup
  atomic : ∀ version error after,
    exec (append host version) (Run.run (step host) start ops) = (.error error, after) →
      after = Run.run (step host) start ops
  dispatches : ∀ dispatcher request, DispatchSound host (Run.run (step host) start ops)
    (step host (Run.run (step host) start ops) (.bind dispatcher request)) request

theorem bindingPlane_runSound (host : Host) (admissions : List Admission)
    (supportedSourceKinds : List SourceKind) (start : Plane ν)
    (hstart : Plane.create admissions supportedSourceKinds = .ok start) (ops : List (Op ν)) :
    RunSound host start ops := by
  have hsound : PlaneSound (Run.run (step host) start ops) :=
    Run.run_invariant step_planeSound start ops (planeSound_create hstart)
  refine ⟨hsound.store, hsound.once, fun version error after h => ?_,
    step_dispatchSound hsound.store⟩
  rw [exec_append] at h
  cases hcheck : checkVersion host (Run.run (step host) start ops) version with
  | ok _ =>
    rw [hcheck] at h
    cases (Prod.mk.inj h).1
  | error error =>
    rw [hcheck] at h
    exact (Prod.mk.inj h).2.symm

/-! ## One request -/

def portRequest : Request :=
  ⟨"run.1", "participants.red", "episode.1", none, "action.1", "participant.action-contract.scan"⟩

def portSink : Sink :=
  ⟨"sink.1", "input.port", .integer, [.observation], [.run], [.publicFact], none,
    ["authority.1"], .participant, .block⟩

def portAdmission : Admission :=
  ⟨portRequest.actionKey, "2026-01-01T00:00:00Z", ["authority.1"], [⟨portSink, ["fact.port"]⟩]⟩

def portVersion : Version ℕ :=
  ⟨"fact.port", "version.1", 1, .integer, .observation, .publicFact,
    ⟨.run, "run.1", none, none, none⟩, "2026-01-01T00:00:00Z", none, some 22, none,
    ["evidence.1"], ["provenance.1"]⟩

def portHost : Host := ⟨fun _ => some 0, fun _ => 0, id⟩

def portPlane : Plane ℕ :=
  ⟨Dict.empty, Dict.empty, [], [], [], Dict.empty.set portRequest.actionKey portAdmission,
    [.observation], []⟩

theorem bindingPlane_runSound_port :
    RunSound portHost portPlane
      [.declare ⟨"fact.port", .integer, .observation, .publicFact,
          ⟨["participants.red"], [], true⟩, ["authority.1"]⟩,
        .append portVersion,
        .bind (some fun _ => .returned true) portRequest] :=
  bindingPlane_runSound portHost [portAdmission] [.observation] portPlane rfl _

end Raes.RuntimeFacts
