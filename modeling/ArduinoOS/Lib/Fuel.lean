import ArduinoOS.Lib.Faulting

/-!
# Computations with fuel

A run that ends well with some fuel ends the same way with more. What such runs
end in composes, so a loop without a bound of its own can be spoken of without
its fuel.
-/

set_option autoImplicit false

namespace ArduinoOS.Fuel
open ArduinoOS.Faulting

variable {S ε α β : Type}

/-- More fuel changes no run that ends well. -/
def Lasting (x : ℕ → Run S ε α) : Prop :=
  ∀ f f' s r, f ≤ f' → x f s = .ok r → x f' s = .ok r

/-- With some fuel the run ends in this answer and this state. -/
def Ends (x : ℕ → Run S ε α) (s : S) (a : α) (s' : S) : Prop := ∃ f, x f s = .ok (a, s')

theorem lasting_const (x : Run S ε α) : Lasting (fun _ => x) := fun _ _ _ _ _ h => h

theorem lasting_bind {x : ℕ → Run S ε α} {g : ℕ → α → Run S ε β} (hx : Lasting x)
    (hg : ∀ a, Lasting (fun f => g f a)) : Lasting (fun f => x f >>= g f) := by
  intro f f' s r hle h
  obtain ⟨b, s'⟩ := r
  obtain ⟨a, s₁, hfirst, hrest⟩ := bind_ok.mp h
  exact bind_ok.mpr ⟨a, s₁, hx f f' s _ hle hfirst, hg a f f' s₁ _ hle hrest⟩

theorem lasting_ite {p : Prop} [Decidable p] {x y : ℕ → Run S ε α} (hx : Lasting x)
    (hy : Lasting y) : Lasting (fun f => if p then x f else y f) := by
  by_cases h : p
  · simpa [h] using hx
  · simpa [h] using hy

theorem ends_const {x : Run S ε α} {s s' : S} {a : α} :
    Ends (fun _ => x) s a s' ↔ x s = .ok (a, s') := by
  constructor
  · rintro ⟨_, h⟩
    exact h
  · exact fun h => ⟨0, h⟩

theorem ends_pure {a b : α} {s s' : S} :
    Ends (fun _ => (pure a : Run S ε α)) s b s' ↔ b = a ∧ s' = s := by
  rw [ends_const, pure_ok]

theorem ends_bind {x : ℕ → Run S ε α} {g : ℕ → α → Run S ε β} (hx : Lasting x)
    (hg : ∀ a, Lasting (fun f => g f a)) {s s' : S} {b : β} :
    Ends (fun f => x f >>= g f) s b s' ↔
      ∃ a s₁, Ends x s a s₁ ∧ Ends (fun f => g f a) s₁ b s' := by
  constructor
  · rintro ⟨f, h⟩
    obtain ⟨a, s₁, hfirst, hrest⟩ := bind_ok.mp h
    exact ⟨a, s₁, ⟨f, hfirst⟩, ⟨f, hrest⟩⟩
  · rintro ⟨a, s₁, ⟨f, hfirst⟩, ⟨f', hrest⟩⟩
    refine ⟨max f f', bind_ok.mpr ⟨a, s₁, ?_, ?_⟩⟩
    · exact hx f _ s _ (Nat.le_max_left _ _) hfirst
    · exact hg a f' _ s₁ _ (Nat.le_max_right _ _) hrest

/-- The first step needs no fuel. -/
theorem ends_step {x : Run S ε α} {g : ℕ → α → Run S ε β} {s s₁ s' : S} {a : α} {b : β}
    (hx : x s = .ok (a, s₁)) :
    Ends (fun f => x >>= g f) s b s' ↔ Ends (fun f => g f a) s₁ b s' := by
  simp only [Ends, bind_of_ok hx]

theorem ends_if {p : Prop} [Decidable p] {x y : ℕ → Run S ε α} {s s' : S} {a : α} :
    Ends (fun f => if p then x f else y f) s a s' ↔ if p then Ends x s a s' else Ends y s a s' := by
  by_cases h : p <;> simp [h]

/-- A run ends in one way. -/
theorem ends_unique {x : ℕ → Run S ε α} (hx : Lasting x) {s s₁ s₂ : S} {a b : α}
    (h : Ends x s a s₁) (h' : Ends x s b s₂) : a = b ∧ s₁ = s₂ := by
  obtain ⟨f, h⟩ := h
  obtain ⟨f', h'⟩ := h'
  have hmax := hx f (max f f') s _ (Nat.le_max_left _ _) h
  rw [hx f' (max f f') s _ (Nat.le_max_right _ _) h'] at hmax
  cases hmax
  exact ⟨rfl, rfl⟩

end ArduinoOS.Fuel
