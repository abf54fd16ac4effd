import Mathlib.Tactic.Common

/-!
# Walks along slots

A walk looks at one slot after another and keeps a state. A slot lets it go on
to the next slot, lets it enter what the slot names, or ends it with an answer.
One walk takes the next slot by its place, the other one by a list; they visit
the same slots exactly where the list goes on as the places do, and the last
slot visited ends both.
-/

set_option autoImplicit false

namespace ArduinoOS.Walk

/-- What a slot does to a walk. -/
inductive Turn (σ β : Type)
  | goOn (s : σ)
  | enter (s : σ)
  | stop (answer : β)
  | hang

variable {α σ τ β γ : Type}

/-- A walk by places: the next place, and the place that an entered slot names.
The slots visited and the answer come last. -/
inductive Onward (next : α → α) (door : α → Option α) (step : σ → α → Turn σ β) :
    σ → α → List α → β → Prop
  | goOn {s t : σ} {a : α} {visited : List α} {answer : β} (hstep : step s a = .goOn t)
      (hrest : Onward next door step t (next a) visited answer) :
      Onward next door step s a (a::visited) answer
  | enter {s t : σ} {a b : α} {visited : List α} {answer : β} (hstep : step s a = .enter t)
      (hdoor : door a = some b) (hrest : Onward next door step t b visited answer) :
      Onward next door step s a (a::visited) answer
  | stop {s : σ} {a : α} {answer : β} (hstep : step s a = .stop answer) :
      Onward next door step s a [a] answer

/-- A walk by lists: the slots that are left, and those behind an entered slot. A
list that has run out gives no answer. -/
inductive Along (behind : α → List α) (step : τ → α → Turn τ γ) :
    τ → List α → List α → Option γ → Prop
  | out (s : τ) : Along behind step s [] [] none
  | goOn {s t : τ} {a : α} {slots visited : List α} {answer : Option γ} (hstep : step s a = .goOn t)
      (hrest : Along behind step t slots visited answer) :
      Along behind step s (a::slots) (a::visited) answer
  | enter {s t : τ} {a : α} {slots visited : List α} {answer : Option γ}
      (hstep : step s a = .enter t) (hrest : Along behind step t (behind a) visited answer) :
      Along behind step s (a::slots) (a::visited) answer
  | stop {s : τ} {a : α} {slots : List α} {answer : γ} (hstep : step s a = .stop answer) :
      Along behind step s (a::slots) [a] (some answer)

/-- The place at hand is that of the next slot in the list, until a slot ends
both walks. -/
inductive Stays (next : α → α) (door : α → Option α) (behind : α → List α)
    (step : σ → α → Turn σ β) (step' : τ → α → Turn τ γ) : σ → τ → α → List α → Prop
  | goOn {s t : σ} {s' t' : τ} {a : α} {slots : List α} (hstep : step s a = .goOn t)
      (hstep' : step' s' a = .goOn t')
      (hrest : Stays next door behind step step' t t' (next a) slots) :
      Stays next door behind step step' s s' a (a::slots)
  | enter {s t : σ} {s' t' : τ} {a b : α} {slots : List α} (hstep : step s a = .enter t)
      (hstep' : step' s' a = .enter t') (hdoor : door a = some b)
      (hrest : Stays next door behind step step' t t' b (behind a)) :
      Stays next door behind step step' s s' a (a::slots)
  | stop {s : σ} {s' : τ} {a : α} {slots : List α} {answer : β} {answer' : γ}
      (hstep : step s a = .stop answer) (hstep' : step' s' a = .stop answer') :
      Stays next door behind step step' s s' a (a::slots)

section Unique

variable {next : α → α} {door : α → Option α} {step : σ → α → Turn σ β} {s : σ} {a : α}
  {visited visited' : List α} {answer answer' : β}

theorem onward_ne_nil (h : Onward next door step s a visited answer) : visited ≠ [] := by
  cases h <;> exact List.cons_ne_nil _ _

/-- A walk by places ends in one way. -/
theorem onward_unique (h : Onward next door step s a visited answer)
    (h' : Onward next door step s a visited' answer') : visited = visited' ∧ answer = answer' := by
  induction h generalizing visited' with
  | goOn hstep _ ih =>
    cases h' with
    | goOn hstep' hrest' =>
      cases hstep.symm.trans hstep'
      obtain ⟨hvisited, hanswer⟩ := ih hrest'
      exact ⟨by rw [hvisited], hanswer⟩
    | enter hstep' => cases hstep.symm.trans hstep'
    | stop hstep' => cases hstep.symm.trans hstep'
  | enter hstep hdoor _ ih =>
    cases h' with
    | goOn hstep' => cases hstep.symm.trans hstep'
    | enter hstep' hdoor' hrest' =>
      cases hstep.symm.trans hstep'
      cases hdoor.symm.trans hdoor'
      obtain ⟨hvisited, hanswer⟩ := ih hrest'
      exact ⟨by rw [hvisited], hanswer⟩
    | stop hstep' => cases hstep.symm.trans hstep'
  | stop hstep =>
    cases h' with
    | goOn hstep' => cases hstep.symm.trans hstep'
    | enter hstep' => cases hstep.symm.trans hstep'
    | stop hstep' =>
      cases hstep.symm.trans hstep'
      exact ⟨rfl, rfl⟩

end Unique

/-- A walk by a list ends in one way. -/
theorem along_unique {behind : α → List α} {step : τ → α → Turn τ γ} {s : τ} {slots : List α}
    {visited visited' : List α} {answer answer' : Option γ}
    (h : Along behind step s slots visited answer)
    (h' : Along behind step s slots visited' answer') : visited = visited' ∧ answer = answer' := by
  induction h generalizing visited' with
  | out s =>
    cases h' with
    | out => exact ⟨rfl, rfl⟩
  | goOn hstep _ ih =>
    cases h' with
    | goOn hstep' hrest' =>
      cases hstep.symm.trans hstep'
      obtain ⟨hvisited, hanswer⟩ := ih hrest'
      exact ⟨by rw [hvisited], hanswer⟩
    | enter hstep' => cases hstep.symm.trans hstep'
    | stop hstep' => cases hstep.symm.trans hstep'
  | enter hstep _ ih =>
    cases h' with
    | goOn hstep' => cases hstep.symm.trans hstep'
    | enter hstep' hrest' =>
      cases hstep.symm.trans hstep'
      obtain ⟨hvisited, hanswer⟩ := ih hrest'
      exact ⟨by rw [hvisited], hanswer⟩
    | stop hstep' => cases hstep.symm.trans hstep'
  | stop hstep =>
    cases h' with
    | goOn hstep' => cases hstep.symm.trans hstep'
    | enter hstep' => cases hstep.symm.trans hstep'
    | stop hstep' =>
      cases hstep.symm.trans hstep'
      exact ⟨rfl, rfl⟩

section Same

variable {next : α → α} {door : α → Option α} {behind : α → List α} {step : σ → α → Turn σ β}
  {step' : τ → α → Turn τ γ}

/-- Two steps from matching states: they go on and enter to matching states,
neither goes on where the other enters, and where the first one ends the second
one does, with a matching answer. -/
structure Matching (step : σ → α → Turn σ β) (step' : τ → α → Turn τ γ) (R : σ → τ → Prop)
    (Q : β → γ → Prop) : Prop where
  goOn : ∀ s s' a t t', R s s' → step s a = .goOn t → step' s' a = .goOn t' → R t t'
  enter : ∀ s s' a t t', R s s' → step s a = .enter t → step' s' a = .enter t' → R t t'
  goOn_enter : ∀ s s' a t t', R s s' → step s a = .goOn t → step' s' a ≠ .enter t'
  enter_goOn : ∀ s s' a t t', R s s' → step s a = .enter t → step' s' a ≠ .goOn t'
  stop : ∀ s s' a b, R s s' → step s a = .stop b → ∃ c, step' s' a = .stop c ∧ Q b c

/-- A step matches itself. -/
theorem matching_self (step : σ → α → Turn σ β) : Matching step step Eq Eq where
  goOn s s' a t t' hs h h' := by
    rw [hs, h'] at h
    exact (Turn.goOn.inj h).symm
  enter s s' a t t' hs h h' := by
    rw [hs, h'] at h
    exact (Turn.enter.inj h).symm
  goOn_enter s s' a t t' hs h h' := by simp [hs, h'] at h
  enter_goOn s s' a t t' hs h h' := by simp [hs, h'] at h
  stop s s' a b hs h := ⟨b, hs ▸ h, rfl⟩

variable {R : σ → τ → Prop} {Q : β → γ → Prop} (hmatch : Matching step step' R Q)

include hmatch

/-- Walks that visit the same slots have matching answers. -/
theorem same_answer {s : σ} {s' : τ} {a : α} {slots visited : List α} {answer : β}
    {answer' : Option γ} (hR : R s s') (h : Onward next door step s a visited answer)
    (h' : Along behind step' s' slots visited answer') :
    ∃ c, answer' = some c ∧ Q answer c := by
  induction h generalizing s' slots with
  | goOn hstep hrest ih =>
    cases h' with
    | goOn hstep' hrest' => exact ih (hmatch.goOn _ _ _ _ _ hR hstep hstep') hrest'
    | enter hstep' => exact absurd hstep' (hmatch.goOn_enter _ _ _ _ _ hR hstep)
    | stop => exact absurd rfl (onward_ne_nil hrest)
  | enter hstep hdoor hrest ih =>
    cases h' with
    | goOn hstep' => exact absurd hstep' (hmatch.enter_goOn _ _ _ _ _ hR hstep)
    | enter hstep' hrest' => exact ih (hmatch.enter _ _ _ _ _ hR hstep hstep') hrest'
    | stop => exact absurd rfl (onward_ne_nil hrest)
  | stop hstep =>
    obtain ⟨c, hc, hQ⟩ := hmatch.stop _ _ _ _ hR hstep
    cases h' with
    | goOn hstep' => cases hc.symm.trans hstep'
    | enter hstep' => cases hc.symm.trans hstep'
    | stop hstep' =>
      cases hc.symm.trans hstep'
      exact ⟨c, rfl, hQ⟩

/-- The two walks visit the same slots exactly where they stay together. -/
theorem stays_iff {s : σ} {s' : τ} {a : α} {slots : List α} (hR : R s s') :
    (∃ visited answer answer', Onward next door step s a visited answer ∧
      Along behind step' s' slots visited answer') ↔
      Stays next door behind step step' s s' a slots := by
  constructor
  · rintro ⟨visited, answer, answer', h, h'⟩
    induction h generalizing s' slots with
    | goOn hstep hrest ih =>
      cases h' with
      | goOn hstep' hrest' =>
        exact .goOn hstep hstep' (ih (hmatch.goOn _ _ _ _ _ hR hstep hstep') hrest')
      | enter hstep' => exact absurd hstep' (hmatch.goOn_enter _ _ _ _ _ hR hstep)
      | stop => exact absurd rfl (onward_ne_nil hrest)
    | enter hstep hdoor hrest ih =>
      cases h' with
      | goOn hstep' => exact absurd hstep' (hmatch.enter_goOn _ _ _ _ _ hR hstep)
      | enter hstep' hrest' =>
        exact .enter hstep hstep' hdoor (ih (hmatch.enter _ _ _ _ _ hR hstep hstep') hrest')
      | stop => exact absurd rfl (onward_ne_nil hrest)
    | stop hstep =>
      obtain ⟨c, hc, -⟩ := hmatch.stop _ _ _ _ hR hstep
      cases h' with
      | goOn => exact .stop hstep hc
      | enter => exact .stop hstep hc
      | stop => exact .stop hstep hc
  · intro h
    clear hR
    induction h with
    | goOn hstep hstep' _ ih =>
      obtain ⟨visited, answer, answer', h, h'⟩ := ih
      exact ⟨_, _, _, .goOn hstep h, .goOn hstep' h'⟩
    | enter hstep hstep' hdoor _ ih =>
      obtain ⟨visited, answer, answer', h, h'⟩ := ih
      exact ⟨_, _, _, .enter hstep hdoor h, .enter hstep' h'⟩
    | stop hstep hstep' => exact ⟨_, _, _, .stop hstep, .stop hstep'⟩

end Same

end ArduinoOS.Walk
