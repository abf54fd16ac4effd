import Mathlib.Data.List.Basic
import Mathlib.Algebra.Ring.Nat
import Mathlib.Tactic.Common

/-!
# Pieces one behind the other

Where each piece of an image begins, and which piece a place in it belongs to.
-/

set_option autoImplicit false

namespace ArduinoOS.Layout

variable {α β : Type*} (piece : ℕ → List β)

/-- The first pieces. -/
def image : ℕ → List β
  | 0 => []
  | n+1 => image n++piece n

def place (i : ℕ) : ℕ := (image piece i).length

theorem place_succ (i : ℕ) : place piece (i+1) = place piece i+(piece i).length := by
  rw [place, image, List.length_append, place]

theorem image_le {i n : ℕ} (h : i ≤ n) : ∃ rest, image piece n = image piece i++rest := by
  induction n, h using Nat.le_induction with
  | base => exact ⟨[], (List.append_nil _).symm⟩
  | succ n _ ih =>
    obtain ⟨rest, hrest⟩ := ih
    exact ⟨rest++piece n, by rw [image, hrest, List.append_assoc]⟩

theorem place_le {i n : ℕ} (h : i ≤ n) : place piece i ≤ place piece n := by
  obtain ⟨rest, hrest⟩ := image_le piece h
  rw [place, place, hrest, List.length_append]
  omega

/-- The piece is found at its place. -/
theorem drop_place {i n : ℕ} (h : i < n) :
    ∃ rest, (image piece n).drop (place piece i) = piece i++rest := by
  obtain ⟨rest, hrest⟩ := image_le piece h
  refine ⟨rest, ?_⟩
  rw [hrest, image, place, List.append_assoc, List.drop_left]

/-- Every place belongs to a piece. -/
theorem exists_piece {n x : ℕ} (h : x < place piece n) :
    ∃ i < n, place piece i ≤ x ∧ x < place piece i+(piece i).length := by
  induction n with
  | zero => exact absurd h (Nat.not_lt_zero x)
  | succ n ih =>
    by_cases hlast : place piece n ≤ x
    · exact ⟨n, Nat.lt_succ_self n, hlast, by rwa [← place_succ]⟩
    · obtain ⟨i, hi, hat⟩ := ih (by omega)
      exact ⟨i, by omega, hat⟩

theorem image_congr {piece piece' : ℕ → List β} {n : ℕ} (h : ∀ i < n, piece i = piece' i) :
    image piece n = image piece' n := by
  induction n with
  | zero => rfl
  | succ n ih => rw [image, image, ih (fun i hi => h i (by omega)), h n (Nat.lt_succ_self n)]

/-- The pieces that the elements of a list give. -/
theorem take_flatMap (f : α → List β) (xs : List α) (hpiece : ∀ i, piece i = (xs[i]?.map f).getD [])
    (i : ℕ) : (xs.take i).flatMap f = image piece i := by
  induction i with
  | zero => rfl
  | succ i ih =>
    rw [List.take_add_one, List.flatMap_append, ih, image, hpiece]
    cases xs[i]? with
    | none => rfl
    | some a => simp

end ArduinoOS.Layout
