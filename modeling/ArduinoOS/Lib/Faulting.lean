import Mathlib.Tactic.Common

/-!
# Computations that change a state and may fault

Inversion of a run that ended well or in a fault, and judgments built on it:
what a run answers and which fault it ends in, from every state of a set that
it keeps; and that it does not end in a fault.
-/

set_option autoImplicit false

namespace ArduinoOS.Faulting

abbrev Run (S ε : Type) := StateT S (Except ε)

variable {S T ε α β : Type}

def fromExcept (x : Except ε α) : Run S ε α := fun s =>
  match x with
  | .ok a => .ok (a, s)
  | .error e => .error e

/-- A total step of the state. -/
def total (f : S → α × S) : Run S ε α := fun s => .ok (f s)

/-- A computation on the second part of the state that looks at the first. -/
def onSecond (x : T → Run S ε α) : Run (T × S) ε α := fun s =>
  match x s.1 s.2 with
  | .ok (a, s') => .ok (a, (s.1, s'))
  | .error e => .error e

def getFirst : Run (T × S) ε T := fun s => .ok (s.1, s)

def setFirst (t : T) : Run (T × S) ε Unit := fun s => .ok ((), (t, s.2))

/-! ### Inversion -/

theorem pure_ok {a b : α} {s s' : S} :
    (pure a : Run S ε α) s = .ok (b, s') ↔ b = a ∧ s' = s := by
  constructor
  · intro h
    cases h
    exact ⟨rfl, rfl⟩
  · rintro ⟨rfl, rfl⟩
    rfl

theorem throw_ok {e : ε} {b : α} {s s' : S} :
    ¬ (throw e : Run S ε α) s = .ok (b, s') := by
  intro h
  cases h

theorem bind_ok {x : Run S ε α} {f : α → Run S ε β} {b : β} {s s' : S} :
    (x >>= f) s = .ok (b, s') ↔ ∃ a s₁, x s = .ok (a, s₁) ∧ f a s₁ = .ok (b, s') := by
  change (x s >>= fun r => f r.1 r.2) = _ ↔ _
  cases hx : x s with
  | error e =>
    constructor
    · intro h
      cases h
    · rintro ⟨a, s₁, h, _⟩
      cases h
  | ok r =>
    constructor
    · intro h
      exact ⟨r.1, r.2, rfl, h⟩
    · rintro ⟨a, s₁, h, h'⟩
      cases h
      exact h'

theorem bind_error {x : Run S ε α} {f : α → Run S ε β} {e : ε} {s : S} :
    (x >>= f) s = .error e ↔
      x s = .error e ∨ ∃ a s₁, x s = .ok (a, s₁) ∧ f a s₁ = .error e := by
  change (x s >>= fun r => f r.1 r.2) = _ ↔ _
  cases hx : x s with
  | error e' =>
    constructor
    · intro h
      cases h
      exact Or.inl rfl
    · rintro (h | ⟨a, s₁, h, _⟩)
      · cases h
        rfl
      · cases h
  | ok r =>
    constructor
    · intro h
      exact Or.inr ⟨r.1, r.2, rfl, h⟩
    · rintro (h | ⟨a, s₁, h, h'⟩)
      · cases h
      · cases h
        exact h'

/-- One step of a known run. -/
theorem bind_of_ok {x : Run S ε α} {f : α → Run S ε β} {a : α} {s s₁ : S}
    (h : x s = .ok (a, s₁)) : (x >>= f) s = f a s₁ := by
  change (x s >>= fun r => f r.1 r.2) = _
  rw [h]
  rfl

/-- What comes after a step matters only where the step leads. -/
theorem bind_same {x y : Run S ε α} {f g : α → Run S ε β} {s : S} (hxy : x s = y s)
    (h : ∀ a s₁, x s = .ok (a, s₁) → f a s₁ = g a s₁) : (x >>= f) s = (y >>= g) s := by
  change (x s >>= fun r => f r.1 r.2) = (y s >>= fun r => g r.1 r.2)
  rw [← hxy]
  cases hx : x s with
  | error e => rfl
  | ok r => exact h r.1 r.2 hx

theorem fromExcept_ok {x : Except ε α} {a : α} {s s' : S} :
    (fromExcept x : Run S ε α) s = .ok (a, s') ↔ x = .ok a ∧ s' = s := by
  cases x with
  | error e =>
    constructor
    · intro h
      cases h
    · rintro ⟨h, _⟩
      cases h
  | ok b =>
    constructor
    · intro h
      cases h
      exact ⟨rfl, rfl⟩
    · rintro ⟨h, rfl⟩
      cases h
      rfl

theorem onSecond_ok {x : T → Run S ε α} {a : α} {s s' : T × S} :
    (onSecond x) s = .ok (a, s') ↔ x s.1 s.2 = .ok (a, s'.2) ∧ s'.1 = s.1 := by
  obtain ⟨t, h⟩ := s
  obtain ⟨t', h'⟩ := s'
  simp only [onSecond]
  cases hx : x t h with
  | error e => simp
  | ok r =>
    constructor
    · intro he
      cases he
      exact ⟨rfl, rfl⟩
    · rintro ⟨he, rfl⟩
      cases he
      rfl

theorem getFirst_ok {a : T} {s s' : T × S} :
    (getFirst : Run (T × S) ε T) s = .ok (a, s') ↔ a = s.1 ∧ s' = s := by
  constructor
  · intro h
    cases h
    exact ⟨rfl, rfl⟩
  · rintro ⟨rfl, rfl⟩
    rfl

theorem setFirst_ok {t : T} {u : Unit} {s s' : T × S} :
    (setFirst t : Run (T × S) ε Unit) s = .ok (u, s') ↔ s' = (t, s.2) := by
  constructor
  · intro h
    cases h
    rfl
  · rintro rfl
    rfl

/-- A run that is evaluated: it ends well, with a result that passes a check. -/
theorem ok_of_check {x : Except ε α} {p : α → Bool}
    (h : (match x with | .ok r => p r | .error _ => false) = true) :
    ∃ r, x = .ok r ∧ p r = true := by
  cases x with
  | ok r => exact ⟨r, rfl, h⟩
  | error _ => cases h

/-- A run that is evaluated: it ends in this fault. -/
theorem error_of_check [DecidableEq ε] {x : Except ε α} {e : ε}
    (h : (match x with | .ok _ => false | .error e' => decide (e' = e)) = true) :
    x = .error e := by
  cases x with
  | ok _ => cases h
  | error e' => rw [of_decide_eq_true h]

/-! ### Judgments -/

/-- From every state of the set the run answers this and stays in the set, or
ends in this fault. -/
def Gives (I : S → Prop) (x : Run S ε α) (r : Except ε α) : Prop := ∀ s, I s →
  match r with
  | .ok a => ∃ s', x s = .ok (a, s') ∧ I s'
  | .error e => x s = .error e

/-- From every state of the set the run ends in an answer and a state with this
property, or in another fault than this. -/
def Avoids (I : S → Prop) (e : ε) (P : α → S → Prop) (x : Run S ε α) : Prop := ∀ s, I s →
  match x s with
  | .ok (a, s') => P a s'
  | .error e' => e' ≠ e

section Judgments

variable {I : S → Prop} {x : Run S ε α} {f : α → Run S ε β} {a : α} {e : ε}
  {P : α → S → Prop} {Q : β → S → Prop}

theorem gives_pure (a : α) : Gives I (pure a : Run S ε α) (.ok a) := fun s hs => ⟨s, rfl, hs⟩

theorem gives_bind {r : Except ε β} (hx : Gives I x (.ok a)) (hf : Gives I (f a) r) :
    Gives I (x >>= f) r := by
  intro s hs
  obtain ⟨s₁, hrun, hs₁⟩ := hx s hs
  rw [bind_of_ok hrun]
  exact hf s₁ hs₁

theorem gives_fault (hx : Gives I x (.error e)) : Gives I (x >>= f) (.error e) := by
  intro s hs
  exact bind_error.mpr (Or.inl (hx s hs))

theorem gives_fromExcept (y : Except ε α) : Gives I (fromExcept y : Run S ε α) y := by
  intro s hs
  cases y with
  | ok a => exact ⟨s, rfl, hs⟩
  | error e => rfl

theorem avoids_pure (h : ∀ s, I s → P a s) : Avoids I e P (pure a : Run S ε α) := h

theorem avoids_throw {e' : ε} (h : e' ≠ e) : Avoids I e P (throw e' : Run S ε α) :=
  fun _ _ => h

theorem avoids_bind (hx : Avoids I e P x) (hf : ∀ a, Avoids (P a) e Q (f a)) :
    Avoids I e Q (x >>= f) := by
  intro s hs
  have h := hx s hs
  change match ((x s) >>= fun r => f r.1 r.2 : Except ε (β × S)) with
    | .ok (b, s') => Q b s'
    | .error e' => e' ≠ e
  cases hrun : x s with
  | error e' =>
    rw [hrun] at h
    exact h
  | ok r =>
    rw [hrun] at h
    exact hf r.1 r.2 h

theorem avoids_pre {I' : S → Prop} (h : ∀ s, I' s → I s) (hx : Avoids I e P x) :
    Avoids I' e P x := fun s hs => hx s (h s hs)

theorem avoids_post {P' : α → S → Prop} (h : ∀ a s, P a s → P' a s) (hx : Avoids I e P x) :
    Avoids I e P' x := by
  intro s hs
  have hrun := hx s hs
  cases hxs : x s with
  | error e' =>
    rw [hxs] at hrun
    exact hrun
  | ok r =>
    rw [hxs] at hrun
    exact h _ _ hrun

/-- A fact about the set carries over when it is needed of the answer only. -/
theorem avoids_given {p : Prop} (h : p → Avoids I e P x) : Avoids (fun s => p ∧ I s) e P x :=
  fun s hs => h hs.1 s hs.2

theorem avoids_of_gives {r : Except ε α} (hx : Gives I x r) (hr : r ≠ .error e) :
    Avoids I e (fun a s' => r = .ok a ∧ I s') x := by
  intro s hs
  cases r with
  | ok a =>
    obtain ⟨s', hrun, hs'⟩ := hx s hs
    rw [hrun]
    exact ⟨rfl, hs'⟩
  | error e' =>
    have hrun : x s = .error e' := hx s hs
    rw [hrun]
    exact fun h => hr (by rw [h])

theorem avoids_onSecond {y : T → Run S ε α} {t : T} (hy : Avoids I e P (y t)) :
    Avoids (fun st => st.1 = t ∧ I st.2) e (fun a st => st.1 = t ∧ P a st.2) (onSecond y) := by
  rintro ⟨t', s⟩ ⟨ht, hs⟩
  have hsame : t' = t := ht
  rw [hsame]
  have h := hy s hs
  cases hrun : y t s with
  | error e' =>
    have hsecond : onSecond y (t, s) = .error e' := by
      simp only [onSecond, hrun]
    rw [hrun] at h
    rw [hsecond]
    exact h
  | ok r =>
    have hsecond : onSecond y (t, s) = .ok (r.1, (t, r.2)) := onSecond_ok.mpr ⟨hrun, rfl⟩
    rw [hrun] at h
    rw [hsecond]
    exact ⟨rfl, h⟩

/-- The run itself, for what comes after it. -/
theorem avoids_run (hx : Avoids I e P x) :
    Avoids I e (fun a s' => P a s' ∧ ∃ s, I s ∧ x s = .ok (a, s')) x := by
  intro s hs
  have h := hx s hs
  cases hxs : x s with
  | error e' =>
    rw [hxs] at h
    exact h
  | ok r =>
    rw [hxs] at h
    exact ⟨h, s, hs, hxs⟩

theorem avoids_fromExcept {y : Except ε α} (hok : ∀ a s, y = .ok a → I s → P a s)
    (he : y ≠ .error e) : Avoids I e P (fromExcept y : Run S ε α) := by
  intro s hs
  cases y with
  | ok a => exact hok a s rfl hs
  | error e' => exact fun h => he (by rw [h])

end Judgments

end ArduinoOS.Faulting
