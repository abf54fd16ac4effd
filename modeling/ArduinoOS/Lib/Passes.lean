import Mathlib.Data.List.Perm.Basic
import Mathlib.Tactic.Common

/-!
# Sorting by shrinking passes

One pass carries the larger of two neighbours to the end of a prefix; the
sort repeats passes over prefixes that shrink by one, and stops early after a
pass that swapped nothing. Only totality and transitivity of the order are
used, so elements that compare equal need not be equal.
-/

set_option autoImplicit false

namespace ArduinoOS.Passes

variable {α : Type*} (swap : α → α → Bool)

/-- A pass with `a` in hand: the elements in their new order, and whether
anything was swapped. -/
def carry : α → List α → List α × Bool
  | a, [] => ([a], false)
  | a, b::bs => if swap a b then (b :: (carry a bs).1, true)
      else (a :: (carry b bs).1, (carry b bs).2)

def front : List α → List α × Bool
  | [] => ([], false)
  | a::as => carry swap a as

def pass (n : ℕ) (xs : List α) : List α × Bool :=
  ((front swap (xs.take n)).1 ++ xs.drop n, (front swap (xs.take n)).2)

def passes : ℕ → List α → List α
  | 0, xs => xs
  | n+1, xs => if (pass swap (n+1) xs).2 then passes n (pass swap (n+1) xs).1
      else (pass swap (n+1) xs).1

theorem carry_perm (a : α) (bs : List α) : (carry swap a bs).1.Perm (a::bs) := by
  induction bs generalizing a with
  | nil => exact List.Perm.refl _
  | cons b bs ih =>
    simp only [carry]
    split
    · exact ((ih a).cons b).trans (List.Perm.swap a b bs)
    · exact (ih b).cons a

theorem front_perm (xs : List α) : (front swap xs).1.Perm xs := by
  cases xs with
  | nil => exact List.Perm.refl _
  | cons a as => exact carry_perm swap a as

theorem pass_perm (n : ℕ) (xs : List α) : (pass swap n xs).1.Perm xs := by
  have h := (front_perm swap (xs.take n)).append_right (xs.drop n)
  rwa [List.take_append_drop] at h

theorem passes_perm (n : ℕ) (xs : List α) : (passes swap n xs).Perm xs := by
  induction n generalizing xs with
  | zero => exact List.Perm.refl _
  | succ n ih =>
    rw [passes]
    split
    · exact (ih _).trans (pass_perm swap (n+1) xs)
    · exact pass_perm swap (n+1) xs

section Order

variable (le : α → α → Prop) (hswap : ∀ a b, swap a b = true ↔ ¬ le a b)
  (htotal : ∀ a b, le a b ∨ le b a) (htrans : ∀ a b c, le a b → le b c → le a c)

include hswap htotal htrans

/-- A pass ends with an element that nothing exceeds. -/
theorem carry_last (a : α) (bs : List α) :
    ∃ init last, (carry swap a bs).1 = init ++ [last] ∧ init.length = bs.length ∧
      ∀ x ∈ a::bs, le x last := by
  induction bs generalizing a with
  | nil =>
    refine ⟨[], a, rfl, rfl, ?_⟩
    intro x hx
    rw [List.mem_singleton.mp hx]
    exact (htotal a a).elim id id
  | cons b bs ih =>
    simp only [carry]
    split
    · rename_i hs
      obtain ⟨init, last, he, hl, hm⟩ := ih a
      have hba : le b a := (htotal b a).resolve_right ((hswap a b).mp hs)
      refine ⟨b::init, last, by simp [he], by simp [hl], ?_⟩
      intro x hx
      rcases List.mem_cons.mp hx with rfl | hx
      · exact hm _ (by simp)
      · rcases List.mem_cons.mp hx with rfl | hx
        · exact htrans _ _ _ hba (hm a (by simp))
        · exact hm x (by simp [hx])
    · rename_i hs
      obtain ⟨init, last, he, hl, hm⟩ := ih b
      have hab : le a b := not_not.mp (fun h => hs ((hswap a b).mpr h))
      refine ⟨a::init, last, by simp [he], by simp [hl], ?_⟩
      intro x hx
      rcases List.mem_cons.mp hx with rfl | hx
      · exact htrans _ _ _ hab (hm b (by simp))
      · exact hm x hx

omit htotal in
/-- A pass that swapped nothing found its prefix in order. -/
theorem carry_unchanged (a : α) (bs : List α) (h : (carry swap a bs).2 = false) :
    (carry swap a bs).1 = a::bs ∧ (a::bs).Pairwise le := by
  induction bs generalizing a with
  | nil => exact ⟨rfl, List.pairwise_singleton le a⟩
  | cons b bs ih =>
    rw [carry] at h ⊢
    split at h
    · simp at h
    · rename_i hs
      obtain ⟨he, hp⟩ := ih b h
      have hab : le a b := not_not.mp (fun hn => hs ((hswap a b).mpr hn))
      refine ⟨by simp [hs, he], List.pairwise_cons.mpr ⟨?_, hp⟩⟩
      intro x hx
      rcases List.mem_cons.mp hx with rfl | hx
      · exact hab
      · exact htrans a b x hab ((List.pairwise_cons.mp hp).1 x hx)

/-- The loop invariant: what lies beyond the shrinking prefix is in order and
is exceeded by nothing inside it. -/
theorem passes_sorted_of (n : ℕ) (fs back : List α) (hn : fs.length = n)
    (hb : back.Pairwise le) (hfb : ∀ x ∈ fs, ∀ y ∈ back, le x y) :
    (passes swap n (fs++back)).Pairwise le := by
  induction n generalizing fs back with
  | zero =>
    rw [List.length_eq_zero_iff.mp hn]
    exact hb
  | succ n ih =>
    obtain ⟨a, as, rfl⟩ := List.exists_cons_of_length_eq_add_one hn
    have ht : ((a::as)++back).take (n+1) = a::as := by
      rw [List.take_append_of_le_length (by omega), List.take_of_length_le (by omega)]
    have hd : ((a::as)++back).drop (n+1) = back := by
      rw [List.drop_append_of_le_length (by omega), List.drop_of_length_le (by omega)]
      rfl
    rw [passes]
    simp only [pass, ht, hd, front]
    have hperm := carry_perm swap a as
    split
    · obtain ⟨init, last, he, hl, hm⟩ := carry_last swap le hswap htotal htrans a as
      rw [he, List.append_assoc]
      have hin : ∀ x ∈ init, x ∈ a::as := fun x hx =>
        hperm.mem_iff.mp (he ▸ List.mem_append_left _ hx)
      have hlast : last ∈ a::as := hperm.mem_iff.mp (he ▸ by simp)
      apply ih
      · simp only [List.length_cons] at hn
        omega
      · exact List.pairwise_cons.mpr ⟨fun y hy => hfb last hlast y hy, hb⟩
      · intro x hx y hy
        rcases List.mem_cons.mp hy with rfl | hy
        · exact hm x (hin x hx)
        · exact hfb x (hin x hx) y hy
    · rename_i hs
      obtain ⟨he, hp⟩ := carry_unchanged swap le hswap htrans a as (by simpa using hs)
      rw [he]
      exact List.pairwise_append.mpr ⟨hp, hb, hfb⟩

theorem passes_sorted (xs : List α) : (passes swap xs.length xs).Pairwise le := by
  have h := passes_sorted_of swap le hswap htotal htrans xs.length xs [] rfl
    List.Pairwise.nil (by simp)
  simpa using h

end Order

end ArduinoOS.Passes
