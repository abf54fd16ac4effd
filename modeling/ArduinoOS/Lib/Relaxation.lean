import Mathlib.Algebra.Ring.Nat
import Mathlib.Algebra.Order.BigOperators.Group.List
import Mathlib.Logic.Function.Basic
import Mathlib.Tactic.Common

/-!
# Relaxation

Lines stand one behind the other, each with a length that can only become smaller.
Offsets and the gaps between lines shrink with the lengths, and rounds that make a
line shorter as long as there is one come to an end.
-/

set_option autoImplicit false

namespace ArduinoOS.Relaxation

/-! ### Offsets -/

section Offsets

variable {len len' : ℕ → ℕ}

/-- Where a line begins. -/
def offset (len : ℕ → ℕ) (k : ℕ) : ℕ := ((List.range k).map len).sum

/-- No line is longer. -/
def Shorter (len' len : ℕ → ℕ) : Prop := ∀ i, len' i ≤ len i

theorem offset_succ (len : ℕ → ℕ) (k : ℕ) : offset len (k+1) = offset len k+len k := by
  rw [offset, List.range_succ, List.map_append, List.sum_append, offset]
  rfl

theorem offset_le (len : ℕ → ℕ) {i k : ℕ} (h : i ≤ k) : offset len i ≤ offset len k := by
  induction k, h using Nat.le_induction with
  | base => exact Nat.le_refl _
  | succ k _ ih =>
    rw [offset_succ]
    omega

/-- Something between two lines keeps their offsets apart. -/
theorem offset_lt (len : ℕ → ℕ) {i k : ℕ} (h : i < k) (hi : 0 < len i) :
    offset len i < offset len k := by
  have hk := offset_le len (Nat.succ_le_of_lt h)
  rw [Nat.succ_eq_add_one, offset_succ] at hk
  omega

/-- The gap between two lines does not grow. -/
theorem gap_shorter (h : Shorter len' len) {i k : ℕ} (hik : i ≤ k) :
    offset len' k+offset len i ≤ offset len k+offset len' i := by
  induction k, hik using Nat.le_induction with
  | base => omega
  | succ k _ ih =>
    have hk := h k
    rw [offset_succ, offset_succ]
    omega

theorem offset_shorter (h : Shorter len' len) (k : ℕ) : offset len' k ≤ offset len k :=
  gap_shorter h (Nat.zero_le k)

theorem shorter_update {i v : ℕ} (h : v ≤ len i) : Shorter (Function.update len i v) len := by
  intro j
  by_cases hj : j = i
  · rw [hj, Function.update_self]
    exact h
  · rw [Function.update_of_ne hj]

/-- The lines in front stay where they are. -/
theorem offset_update_of_le (len : ℕ → ℕ) {i k : ℕ} (v : ℕ) (h : k ≤ i) :
    offset (Function.update len i v) k = offset len k := by
  induction k with
  | zero => rfl
  | succ k ih => rw [offset_succ, offset_succ, ih (by omega), Function.update_of_ne (by omega)]

/-- The lines behind move with the end of the line. -/
theorem offset_update_of_lt (len : ℕ → ℕ) {i k : ℕ} (v : ℕ) (h : i < k) :
    offset (Function.update len i v) k+len i = offset len k+v := by
  induction k, Nat.succ_le_of_lt h using Nat.le_induction with
  | base =>
    rw [Nat.succ_eq_add_one, offset_succ, offset_succ, offset_update_of_le len v (Nat.le_refl i),
      Function.update_self]
    omega
  | succ k hk ih =>
    have hne : k ≠ i := by omega
    have hstep := ih (by omega)
    rw [offset_succ, offset_succ, Function.update_of_ne hne]
    omega

end Offsets

/-! ### Rounds -/

section Rounds

variable {σ ε : Type*} (round : σ → Except ε (σ × Bool))

/-- Rounds until one reports that nothing has changed, so many at most. -/
def rounds : ℕ → σ → Option (Except ε σ)
  | 0, _ => none
  | fuel+1, s =>
      match round s with
      | .error e => some (.error e)
      | .ok (s, true) => rounds fuel s
      | .ok (s, false) => some (.ok s)

/-- What a round can come to, with an invariant, a size that every change makes smaller,
the ways to fail, and what holds when nothing is left to be done. -/
def RoundTo (Inv : σ → Prop) (size : σ → ℕ) (Fails : ε → Prop) (Settled : σ → Prop) (s : σ) :
    Except ε (σ × Bool) → Prop
  | .error e => Fails e
  | .ok (s', true) => Inv s' ∧ size s' < size s
  | .ok (s', false) => Settled s'

/-- What the rounds come to. -/
def EndsIn (Fails : ε → Prop) (Settled : σ → Prop) : Except ε σ → Prop
  | .error e => Fails e
  | .ok s => Settled s

/-- There are not more rounds than the size allows. -/
theorem rounds_end {Inv : σ → Prop} {size : σ → ℕ} {Fails : ε → Prop} {Settled : σ → Prop}
    (hround : ∀ s, Inv s → RoundTo Inv size Fails Settled s (round s)) (fuel : ℕ) (s : σ)
    (hs : Inv s) (hfuel : size s < fuel) :
    ∃ result, rounds round fuel s = some result ∧ EndsIn Fails Settled result := by
  induction fuel generalizing s with
  | zero => exact absurd hfuel (Nat.not_lt_zero _)
  | succ fuel ih =>
    have hto := hround s hs
    rw [rounds]
    cases hr : round s with
    | error e =>
      rw [hr] at hto
      exact ⟨_, rfl, hto⟩
    | ok p =>
      obtain ⟨s', change⟩ := p
      rw [hr] at hto
      cases change with
      | true =>
        obtain ⟨hinv, hsize⟩ := hto
        exact ih s' hinv (by omega)
      | false => exact ⟨_, rfl, hto⟩

end Rounds

end ArduinoOS.Relaxation
