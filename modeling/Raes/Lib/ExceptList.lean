import Mathlib.Data.List.Forall2
import Raes.Errors

/-!
# Lists of computations that can fail

A computation over every member of a list answers when it answers on each member,
with the list of the answers.
-/

namespace Raes

variable {ε α β : Type}

theorem exists_ok_of_toBool {x : Except ε α} (h : x.toBool = true) : ∃ a, x = .ok a := by
  cases x with
  | error error => cases h
  | ok a => exact ⟨a, rfl⟩

/-- A loop of checks that refuses does so with the refusal of a member. -/
theorem exists_of_forM_eq_error {f : α → Except ε Unit} {l : List α} {e : ε}
    (h : forM l f = .error e) : ∃ a ∈ l, f a = .error e := by
  induction l with
  | nil => cases h
  | cons a rest ih =>
    rw [List.forM_cons] at h
    cases ha : f a with
    | error e' =>
      rw [ha] at h
      cases h
      exact ⟨a, List.mem_cons_self, ha⟩
    | ok u =>
      rw [ha] at h
      obtain ⟨b, hb, hbe⟩ := ih h
      exact ⟨b, List.mem_cons_of_mem _ hb, hbe⟩

variable {f : α → Except ε β} {l : List α}

theorem mapM_eq_ok_iff {answers : List β} :
    l.mapM f = .ok answers ↔ List.Forall₂ (fun a b => f a = .ok b) l answers := by
  induction l generalizing answers with
  | nil =>
    rw [List.mapM_nil, List.forall₂_nil_left_iff]
    constructor
    · intro h
      exact (Except.ok.inj h).symm
    · rintro rfl
      rfl
  | cons a rest ih =>
    rw [List.mapM_cons, bind_eq_ok_iff]
    simp only [bind_eq_ok_iff, ih, List.forall₂_cons_left_iff]
    constructor
    · rintro ⟨b, hb, bs, hbs, h⟩
      exact ⟨b, bs, hb, hbs, (Except.ok.inj h).symm⟩
    · rintro ⟨b, bs, hb, hbs, rfl⟩
      exact ⟨b, hb, bs, hbs, rfl⟩

/-- A map over a list answers when a function gives the answer on every member. -/
theorem mapM_eq_ok_map {g : α → β} (h : ∀ a ∈ l, f a = .ok (g a)) : l.mapM f = .ok
    (l.map g) := by
  rw [mapM_eq_ok_iff, List.forall₂_map_right_iff]
  exact List.forall₂_same.mpr h

theorem mapM_eq_ok_iff_map {P : α → Prop} {g : α → β}
    (hf : ∀ a ∈ l, ∀ b, f a = .ok b ↔ P a ∧ b = g a) (answers : List β) :
    l.mapM f = .ok answers ↔ (∀ a ∈ l, P a) ∧ answers = l.map g := by
  rw [mapM_eq_ok_iff]
  induction l generalizing answers with
  | nil => simp
  | cons a rest ih =>
    rw [List.forall_mem_cons] at hf
    simp only [List.forall₂_cons_left_iff, hf.1, ih hf.2, List.forall_mem_cons, List.map_cons]
    constructor
    · rintro ⟨b, bs, ⟨ha, rfl⟩, ⟨hrest, rfl⟩, rfl⟩
      exact ⟨⟨ha, hrest⟩, rfl⟩
    · rintro ⟨⟨ha, hrest⟩, rfl⟩
      exact ⟨_, _, ⟨ha, rfl⟩, ⟨hrest, rfl⟩, rfl⟩

/-- A map by a function with one refusal: it answers when no member is
refused. -/
theorem mapM_eq_ite {P : α → Prop} [DecidablePred P] {g : α → β}
    {e : ε} (h : ∀ a ∈ l, f a = if P a then .ok (g a) else .error e) :
    l.mapM f = if ∀ a ∈ l, P a then .ok (l.map g) else .error e := by
  induction l with
  | nil => simp [pure, Except.pure]
  | cons a rest ih =>
    rw [List.forall_mem_cons] at h
    rw [List.mapM_cons, h.1, ih h.2]
    by_cases ha : P a
    · by_cases hrest : ∀ x ∈ rest, P x
      · rw [if_pos ha, if_pos hrest, if_pos (List.forall_mem_cons.mpr ⟨ha, hrest⟩)]
        rfl
      · rw [if_pos ha, if_neg hrest, if_neg fun hall => hrest (List.forall_mem_cons.mp hall).2]
        rfl
    · rw [if_neg ha, if_neg fun hall => ha (List.forall_mem_cons.mp hall).1]
      rfl

/-- A fold along a list fails at the first member that fails. -/
theorem foldlM_eq_error_iff {f : β → α → Except ε β} {b : β} {e : ε} :
    l.foldlM f b = .error e ↔ ∃ before a after c, l = before ++ a :: after ∧
      before.foldlM f b = .ok c ∧ f c a = .error e := by
  induction l generalizing b with
  | nil =>
    refine iff_of_false (fun h => nomatch h) ?_
    rintro ⟨before, a, after, _, h, _⟩
    simp at h
  | cons x rest ih =>
    rw [List.foldlM_cons]
    cases hx : f b x with
    | error e' =>
      constructor
      · intro h
        exact ⟨[], x, rest, b, rfl, rfl, hx.trans h⟩
      · rintro ⟨before, a, after, c, h, hbefore, ha⟩
        cases before with
        | nil =>
          obtain ⟨rfl, -⟩ := List.cons.inj h
          cases hbefore
          exact hx.symm.trans ha
        | cons y before =>
          obtain ⟨rfl, -⟩ := List.cons.inj h
          rw [List.foldlM_cons, hx] at hbefore
          cases hbefore
    | ok b' =>
      show rest.foldlM f b' = .error e ↔ _
      rw [ih]
      constructor
      · rintro ⟨before, a, after, c, rfl, hbefore, ha⟩
        refine ⟨x :: before, a, after, c, rfl, ?_, ha⟩
        rw [List.foldlM_cons, hx]
        exact hbefore
      · rintro ⟨before, a, after, c, h, hbefore, ha⟩
        cases before with
        | nil =>
          obtain ⟨rfl, -⟩ := List.cons.inj h
          cases hbefore
          rw [hx] at ha
          cases ha
        | cons y before =>
          obtain ⟨rfl, rfl⟩ := List.cons.inj h
          rw [List.foldlM_cons, hx] at hbefore
          exact ⟨before, a, after, c, rfl, hbefore, ha⟩

/-- What every step of a fold keeps, its answer has. -/
theorem foldlM_keeps {P : β → Prop} {f : β → α → Except ε β} {b d : β}
    (h : ∀ c, ∀ a ∈ l, P c → ∀ e, f c a = .ok e → P e) (hb : P b) (hd : l.foldlM f b = .ok d) :
    P d := by
  induction l generalizing b with
  | nil =>
    cases hd
    exact hb
  | cons x rest ih =>
    rw [List.foldlM_cons, bind_eq_ok_iff] at hd
    obtain ⟨c, hc, hrest⟩ := hd
    exact ih (fun c a ha => h c a (List.mem_cons_of_mem _ ha)) (h b x List.mem_cons_self hb c hc)
      hrest

/-- A function of the state of a fold that every step respects. -/
theorem foldlM_map_state {γ : Type} {f : β → α → Except ε β} {f' : γ → α → Except ε γ}
    {g : β → γ} (h : ∀ c a, f' (g c) a = (f c a).map g) (l : List α) (b : β) :
    l.foldlM f' (g b) = (l.foldlM f b).map g := by
  induction l generalizing b with
  | nil => rfl
  | cons x rest ih =>
    rw [List.foldlM_cons, List.foldlM_cons, h]
    cases f b x with
    | error e => rfl
    | ok c => exact ih c

/-- A fold along a list answers when every step answers, and keeps what each step keeps. -/
theorem foldlM_ok_of {P : β → Prop} {f : β → α → Except ε β} {b : β}
    (h : ∀ c, ∀ a ∈ l, P c → ∃ d, f c a = .ok d ∧ P d) (hb : P b) :
    ∃ d, l.foldlM f b = .ok d ∧ P d := by
  induction l generalizing b with
  | nil => exact ⟨b, rfl, hb⟩
  | cons x rest ih =>
    obtain ⟨c, hc, hkeep⟩ := h b x List.mem_cons_self hb
    rw [List.foldlM_cons, hc]
    exact ih (fun d a ha => h d a (List.mem_cons_of_mem _ ha)) hkeep

variable {R : α → β → Prop} {m : List β}

/-- Every answer of a relation between lists is the answer on a member. -/
theorem exists_left_of_forall₂ {l : List α} (h : List.Forall₂ R l m) {b : β}
    (hb : b ∈ m) : ∃ a ∈ l, R a b := by
  induction h with
  | nil => cases hb
  | cons hab _ ih =>
    rcases List.mem_cons.mp hb with rfl | hrest
    · exact ⟨_, List.mem_cons_self, hab⟩
    · obtain ⟨a, ha, hR⟩ := ih hrest
      exact ⟨a, List.mem_cons_of_mem _ ha, hR⟩

theorem forall₂_getElem? {l : List α} (h : List.Forall₂ R l m)
    {i : ℕ} {a : α} {b : β} (ha : l[i]? = some a) (hb : m[i]? = some b) : R a b := by
  induction h generalizing i with
  | nil => cases ha
  | cons hab _ ih =>
    cases i with
    | zero =>
      cases ha
      cases hb
      exact hab
    | succ i => exact ih ha hb

theorem pairwise_of_forall₂ {S : α → α → Prop} {T : β → β → Prop}
    {l : List α} (h : List.Forall₂ R l m) (hS : l.Pairwise S)
    (hT : ∀ a b a' b', R a b → R a' b' → S a a' → T b b') : m.Pairwise T := by
  induction h with
  | nil => exact List.Pairwise.nil
  | cons hab hrest ih =>
    rw [List.pairwise_cons] at hS
    refine List.pairwise_cons.mpr ⟨fun b' hb' => ?_, ih hS.2⟩
    obtain ⟨a', ha', hR⟩ := exists_left_of_forall₂ hrest hb'
    exact hT _ _ a' b' hab hR (hS.1 a' ha')

theorem forall₂_imp_of_mem {R S : α → β → Prop} {l : List α} (h : List.Forall₂ R l m)
    (hS : ∀ a ∈ l, ∀ b, R a b → S a b) : List.Forall₂ S l m := by
  induction h with
  | nil => exact List.Forall₂.nil
  | cons hab _ ih =>
    rw [List.forall_mem_cons] at hS
    exact List.Forall₂.cons (hS.1 _ hab) (ih hS.2)

/-! ## Setting the values of a function one after another -/

/-- A loop that sets one field after another, each to what a computation gives. -/
theorem foldlM_update_eq_ok_iff {ι : Type} [DecidableEq ι] {f : ι → Except ε β}
    {l : List ι} {start last : ι → β} :
    l.foldlM (fun (m : ι → β) i => do return Function.update m i (← f i)) start = .ok last ↔
      (∀ i ∈ l, f i = .ok (last i)) ∧ ∀ i, i ∉ l → last i = start i := by
  induction l generalizing start with
  | nil =>
    rw [List.foldlM_nil]
    constructor
    · intro h
      obtain rfl := Except.ok.inj h
      simp
    · intro h
      exact congrArg Except.ok (funext fun i => (h.2 i (by simp)).symm)
  | cons i rest ih =>
    rw [List.foldlM_cons, List.forall_mem_cons]
    cases hi : f i with
    | error e => simp [bind, Except.bind]
    | ok b =>
      refine ih.trans ?_
      constructor
      · rintro ⟨hrest, hother⟩
        refine ⟨⟨?_, hrest⟩, ?_⟩
        · by_cases hmem : i ∈ rest
          · rw [← hrest i hmem, hi]
          · rw [hother i hmem, Function.update_self]
        · intro j hj
          rw [List.mem_cons, not_or] at hj
          rw [hother j hj.2, Function.update_of_ne hj.1]
      · rintro ⟨⟨hhead, hrest⟩, hother⟩
        refine ⟨hrest, fun j hj => ?_⟩
        by_cases hji : j = i
        · subst hji
          rw [Function.update_self]
          exact (Except.ok.inj hhead).symm
        · rw [Function.update_of_ne hji]
          exact hother j (by simp [hji, hj])

/-- A loop that sets fields fails with what the computation of a field fails with. -/
theorem exists_of_foldlM_update_eq_error {ι : Type} [DecidableEq ι] {f : ι → Except ε β}
    {l : List ι} {start : ι → β} {e : ε}
    (h : l.foldlM (fun (m : ι → β) i => do return Function.update m i (← f i)) start = .error e) :
    ∃ i ∈ l, f i = .error e := by
  rw [foldlM_eq_error_iff] at h
  obtain ⟨before, i, after, m, rfl, -, herror⟩ := h
  refine ⟨i, by simp, ?_⟩
  cases hi : f i with
  | ok b =>
    rw [hi] at herror
    cases herror
  | error e' =>
    rw [hi] at herror
    exact congrArg Except.error (Except.error.inj herror)

end Raes

/-!
# Computations that raise only some errors

A guard of a caller is worth what it anticipates.  `RaisesOnly P` says that every
error of a computation satisfies `P`; the rules below carry it through sequences
and loops, where a later step needs it only for the values that the earlier steps
can return.
-/

namespace Raes

variable {ε α β : Type} {P : ε → Prop}

/-- Every error of the computation satisfies `P`. -/
def RaisesOnly (P : ε → Prop) (x : Except ε α) : Prop := ∀ e, x = .error e → P e

namespace RaisesOnly

@[simp] theorem ok (a : α) : RaisesOnly P (.ok a : Except ε α) := by
  intro e h
  cases h

theorem error {e : ε} (h : P e) : RaisesOnly P (.error e : Except ε α) := by
  intro e' he
  cases he
  exact h

theorem bind {x : Except ε α} {f : α → Except ε β} (hx : RaisesOnly P x)
    (hf : ∀ a, x = .ok a → RaisesOnly P (f a)) : RaisesOnly P (x >>= f) := by
  intro e h
  cases hxa : x with
  | error e' =>
    rw [hxa] at h
    cases h
    exact hx _ hxa
  | ok a =>
    rw [hxa] at h
    exact hf a hxa e h

end RaisesOnly

theorem RaisesOnly.refuseIf {P : PyError → Prop} {condition : Prop} [Decidable condition]
    {error : PyError} (h : condition → P error) : RaisesOnly P (refuseIf condition error) := by
  unfold Raes.refuseIf
  split
  · exact RaisesOnly.error (h ‹_›)
  · exact RaisesOnly.ok ()

end Raes
