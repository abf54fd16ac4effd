import Mathlib.Data.Fintype.EquivFin
import Mathlib.Data.Fin.Basic
import Mathlib.Data.Nat.Find
import Mathlib.Order.WellFounded
import Mathlib.Tactic.Common

/-!
# Sharing storage in order

Items are looked at one after another, and each may be stored in another one
that it is found in, if that one keeps its own storage so far. The items that
keep their storage in the end are those found in no other, or only in equal ones
before them; an item may have been told to share with one that does not keep it.
-/

set_option autoImplicit false

namespace ArduinoOS.Sharing

variable (m : ℕ) (r : ℕ → ℕ → Prop)

/-- `i` is found in `j`, and is not just the later one of two that are the same. -/
def Better (i j : ℕ) : Prop := r i j ∧ (¬ r j i ∨ i < j)

/-- The item keeps its own storage. -/
def Kept (i : ℕ) : Prop := ∀ j < m, ¬ Better r i j

/-- What an item can share with at its turn: later items have not had theirs. -/
def Free (i j : ℕ) : Prop := j ≠ i ∧ r i j ∧ (j < i → Kept m r j)

/-- What it does share with. -/
def Target (i t : ℕ) : Prop := t < m ∧ Free m r i t ∧ ∀ j < t, ¬ Free m r i j

variable {m r} {i j k t : ℕ} (htrans : ∀ i j k, r i j → r j k → r i k)

theorem better_irrefl (i : ℕ) : ¬ Better r i i := by
  rintro ⟨hself, hnot | hlt⟩
  · exact hnot hself
  · exact lt_irrefl i hlt

theorem target_unique (h : Target m r i t) (h' : Target m r i j) : t = j := by
  rcases lt_trichotomy t j with hlt | heq | hlt
  · exact absurd h.2.1 (h'.2.2 t hlt)
  · exact heq
  · exact absurd h'.2.1 (h.2.2 j hlt)

/-- Two items that keep their storage are not found in each other. -/
theorem kept_apart (hi : i < m) (hj : j < m) (hne : j ≠ i) (hkept : Kept m r i)
    (hkept' : Kept m r j) : ¬ r i j := by
  intro hfound
  have hboth := hkept j hj
  have hback := hkept' i hi
  simp only [Better, not_and, not_or, not_not] at hboth hback
  obtain ⟨hsame, hle⟩ := hboth hfound
  obtain ⟨-, hle'⟩ := hback hsame
  omega

include htrans

theorem better_trans (h : Better r i j) (h' : Better r j k) : Better r i k := by
  refine ⟨htrans i j k h.1 h'.1, ?_⟩
  by_cases hback : r k i
  · have hij : i < j := h.2.resolve_left (fun hnot => hnot (htrans j k i h'.1 hback))
    have hjk : j < k := h'.2.resolve_left (fun hnot => hnot (htrans k i j hback h.1))
    exact Or.inr (by omega)
  · exact Or.inl hback

/-- What is better off elsewhere is better off in an item that keeps its storage. -/
theorem exists_kept (hj : j < m) (h : Better r i j) : ∃ k < m, Better r i k ∧ Kept m r k := by
  have hwf : WellFounded (fun a b : Fin m => Better r b.val a.val) := by
    have : IsTrans (Fin m) (fun a b => Better r b.val a.val) :=
      ⟨fun a b c hab hbc => better_trans htrans hbc hab⟩
    have : Std.Irrefl (fun a b : Fin m => Better r b.val a.val) := ⟨fun a => better_irrefl a.val⟩
    exact Finite.wellFounded_of_trans_of_irrefl _
  obtain ⟨k, hk, hmin⟩ := hwf.has_min {a : Fin m | Better r i a.val} ⟨⟨j, hj⟩, h⟩
  exact ⟨k, k.isLt, hk, fun l hl hbetter =>
    hmin ⟨l, hl⟩ (better_trans htrans hk hbetter) hbetter⟩

theorem free_iff (hi : i < m) : (∃ j < m, Free m r i j) ↔ ¬ Kept m r i := by
  constructor
  · rintro ⟨j, hj, hne, hfound, hearlier⟩ hkept
    by_cases hlt : j < i
    · exact kept_apart hi hj hne hkept (hearlier hlt) hfound
    · exact hkept j hj ⟨hfound, Or.inr (by omega)⟩
  · intro hnot
    simp only [Kept, not_forall, not_not] at hnot
    obtain ⟨j, hj, hbetter⟩ := hnot
    obtain ⟨k, hk, hbetter', hkept⟩ := exists_kept htrans hj hbetter
    refine ⟨k, hk, ?_, hbetter'.1, fun _ => hkept⟩
    rintro rfl
    exact better_irrefl _ hbetter'

open Classical in
theorem target_iff (hi : i < m) : (∃ t, Target m r i t) ↔ ¬ Kept m r i := by
  rw [← free_iff htrans hi]
  constructor
  · rintro ⟨t, ht, hfree, -⟩
    exact ⟨t, ht, hfree⟩
  · intro hfree
    obtain ⟨ht, hfound⟩ := Nat.find_spec hfree
    exact ⟨Nat.find hfree, ht, hfound,
      fun j hj hother => Nat.find_min hfree hj ⟨by omega, hother⟩⟩

end ArduinoOS.Sharing
