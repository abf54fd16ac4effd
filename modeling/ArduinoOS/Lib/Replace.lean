import Mathlib.Data.List.Infix
import Mathlib.Tactic.Common

/-!
# Replacement in a list

Left-to-right replacement of the occurrences that do not overlap, and the scan
in place that goes on one element at a time and so looks at replaced text again.
The two agree where no occurrence starts in text that the scan should have
passed over or passes over too much of.
-/

set_option autoImplicit false

namespace ArduinoOS.Replace

variable {α : Type} [DecidableEq α] (needle replacement : List α)

/-- The first `skip` elements belong to an occurrence that has been replaced. -/
def replaceFrom : ℕ → List α → List α
  | _, [] => []
  | skip+1, _::xs => replaceFrom skip xs
  | 0, x::xs =>
      if needle.isPrefixOf (x::xs) then replacement++replaceFrom (needle.length-1) xs
      else x::replaceFrom 0 xs

def replaceAll (xs : List α) : List α := replaceFrom needle replacement 0 xs

/-- The scan in place, for so many steps. -/
def rescan : ℕ → List α → List α
  | 0, _ => []
  | _+1, [] => []
  | left+1, x::xs =>
      if needle.isPrefixOf (x::xs) then
        match replacement++(x::xs).drop needle.length with
        | [] => []
        | y::ys => y::rescan left ys
      else x::rescan left xs

/-- Behind an occurrence that is replaced, no other one starts inside the new
text; and none right behind it, when there is no new text. -/
def Clear (rest : List α) : Prop :=
  (∀ o < replacement.length, 0 < o →
    needle.isPrefixOf ((replacement++rest).drop o) = false) ∧
  (replacement = [] → needle.isPrefixOf rest = false)

instance (rest : List α) : Decidable (Clear needle replacement rest) :=
  inferInstanceAs (Decidable (_ ∧ _))

/-- Each replacement is clear of other occurrences. -/
def ClearFrom : ℕ → List α → Prop
  | _, [] => True
  | skip+1, _::xs => ClearFrom skip xs
  | 0, x::xs =>
      if needle.isPrefixOf (x::xs) then
        Clear needle replacement (xs.drop (needle.length-1)) ∧ ClearFrom (needle.length-1) xs
      else ClearFrom 0 xs

instance decidableClearFrom : (skip : ℕ) → (xs : List α) →
    Decidable (ClearFrom needle replacement skip xs)
  | 0, [] => isTrue trivial
  | _+1, [] => isTrue trivial
  | skip+1, _::xs => decidableClearFrom skip xs
  | 0, x::xs =>
      if h : needle.isPrefixOf (x::xs) then
        have := decidableClearFrom (needle.length-1) xs
        decidable_of_iff (Clear needle replacement (xs.drop (needle.length-1)) ∧
          ClearFrom needle replacement (needle.length-1) xs) (by rw [ClearFrom, if_pos h])
      else
        have := decidableClearFrom 0 xs
        decidable_of_iff (ClearFrom needle replacement 0 xs) (by rw [ClearFrom, if_neg h])

/-- The scan is not disturbed by what it has written: there is nothing to change,
or each replacement is clear of other occurrences. -/
def Undisturbed (xs : List α) : Prop :=
  replacement = needle ∨ ClearFrom needle replacement 0 xs

section Lemmas

variable {needle replacement}

theorem replaceFrom_drop (skip : ℕ) (xs : List α) :
    replaceFrom needle replacement skip xs = replaceAll needle replacement (xs.drop skip) := by
  induction xs generalizing skip with
  | nil => cases skip <;> rfl
  | cons x xs ih =>
    cases skip with
    | zero => rfl
    | succ skip => exact ih skip

theorem clearFrom_drop (skip : ℕ) (xs : List α) :
    ClearFrom needle replacement skip xs ↔ ClearFrom needle replacement 0 (xs.drop skip) := by
  induction xs generalizing skip with
  | nil => cases skip <;> exact Iff.rfl
  | cons x xs ih =>
    cases skip with
    | zero => exact Iff.rfl
    | succ skip => exact ih skip

omit [DecidableEq α] in
theorem drop_tail (hne : needle ≠ []) (x : α) (xs : List α) :
    (x::xs).drop needle.length = xs.drop (needle.length-1) := by
  cases needle with
  | nil => exact absurd rfl hne
  | cons c cs => rfl

theorem prefix_split {xs : List α} (h : needle.isPrefixOf xs = true) :
    xs = needle++xs.drop needle.length :=
  (List.prefix_iff_eq_append.mp (List.isPrefixOf_iff_prefix.mp h)).symm

theorem replaceAll_found (hne : needle ≠ []) {xs : List α} (h : needle.isPrefixOf xs = true) :
    replaceAll needle replacement xs =
      replacement++replaceAll needle replacement (xs.drop needle.length) := by
  cases xs with
  | nil => exact absurd (List.prefix_nil.mp (List.isPrefixOf_iff_prefix.mp h)) hne
  | cons x xs =>
    rw [replaceAll, replaceFrom, if_pos h, replaceFrom_drop, drop_tail hne]

theorem replaceAll_pass {x : α} {xs : List α} (h : needle.isPrefixOf (x::xs) = false) :
    replaceAll needle replacement (x::xs) = x::replaceAll needle replacement xs := by
  rw [replaceAll, replaceFrom, h, if_neg Bool.false_ne_true]
  rfl

theorem mem_rescan {left : ℕ} {xs : List α} {x : α}
    (h : x ∈ rescan needle replacement left xs) : x ∈ replacement ∨ x ∈ xs := by
  induction left generalizing xs with
  | zero => cases h
  | succ left ih =>
    cases xs with
    | nil => cases h
    | cons y ys =>
      rw [rescan] at h
      split at h
      case isFalse =>
        rcases List.mem_cons.mp h with rfl | hrest
        · exact Or.inr List.mem_cons_self
        · exact (ih hrest).imp_right (List.mem_cons_of_mem y)
      case isTrue =>
        have hall : ∀ z ∈ replacement++(y::ys).drop needle.length, z ∈ replacement ∨ z ∈ y::ys :=
          fun z hz => (List.mem_append.mp hz).imp_right List.mem_of_mem_drop
        cases htext : replacement++(y::ys).drop needle.length with
        | nil =>
          rw [htext] at h
          cases h
        | cons t ts =>
          rw [htext] at h hall
          rcases List.mem_cons.mp h with rfl | hrest
          · exact hall _ List.mem_cons_self
          · rcases ih hrest with hreplaced | hts
            · exact Or.inl hreplaced
            · exact hall x (List.mem_cons_of_mem t hts)

theorem rescan_pass {left : ℕ} {x : α} {xs : List α} (h : needle.isPrefixOf (x::xs) = false) :
    rescan needle replacement (left+1) (x::xs) = x::rescan needle replacement left xs := by
  rw [rescan, h, if_neg Bool.false_ne_true]

/-- A replacement by the same text. -/
theorem replaceAll_same (hne : needle ≠ []) (xs : List α) : replaceAll needle needle xs = xs := by
  obtain ⟨n, hn⟩ : ∃ n, xs.length ≤ n := ⟨_, Nat.le_refl _⟩
  induction n generalizing xs with
  | zero =>
    rw [List.eq_nil_of_length_eq_zero (Nat.le_zero.mp hn)]
    rfl
  | succ n ih =>
    cases xs with
    | nil => rfl
    | cons x xs =>
      cases hfound : needle.isPrefixOf (x::xs) with
      | true =>
        have hpos := List.length_pos_iff.mpr hne
        rw [replaceAll_found hne hfound, ih _ (by rw [List.length_drop]; omega)]
        exact (prefix_split hfound).symm
      | false =>
        rw [replaceAll_pass hfound, ih xs (Nat.le_of_succ_le_succ hn)]

theorem rescan_same (left : ℕ) (xs : List α) (hleft : xs.length ≤ left) :
    rescan needle needle left xs = xs := by
  induction left generalizing xs with
  | zero =>
    rw [List.eq_nil_of_length_eq_zero (Nat.le_zero.mp hleft)]
    rfl
  | succ left ih =>
    cases xs with
    | nil => rfl
    | cons x xs =>
      have hrest := ih xs (Nat.le_of_succ_le_succ hleft)
      cases hfound : needle.isPrefixOf (x::xs) with
      | true =>
        rw [rescan, if_pos hfound, ← prefix_split hfound]
        dsimp only
        rw [hrest]
      | false => rw [rescan_pass hfound, hrest]

/-- The scan goes over text in which no occurrence starts. -/
theorem rescan_over {text rest : List α} {left : ℕ}
    (h : ∀ o < text.length, needle.isPrefixOf ((text++rest).drop o) = false) :
    rescan needle replacement (text.length+left) (text++rest) =
      text++rescan needle replacement left rest := by
  induction text with
  | nil => rw [List.length_nil, Nat.zero_add, List.nil_append, List.nil_append]
  | cons x text ih =>
    have hhead : needle.isPrefixOf (x::(text++rest)) = false := h 0 (Nat.succ_pos _)
    rw [List.length_cons, Nat.add_right_comm, List.cons_append, rescan_pass hhead,
      ih (fun o ho => h (o+1) (Nat.succ_lt_succ ho)), List.cons_append]

theorem rescan_clear (hne : needle ≠ []) (hshort : replacement.length ≤ needle.length) (left : ℕ)
    (xs : List α) (hleft : xs.length ≤ left) (h : ClearFrom needle replacement 0 xs) :
    rescan needle replacement left xs = replaceAll needle replacement xs := by
  obtain ⟨n, hn⟩ : ∃ n, xs.length ≤ n := ⟨_, Nat.le_refl _⟩
  induction n generalizing xs left with
  | zero =>
    rw [List.eq_nil_of_length_eq_zero (Nat.le_zero.mp hn)]
    cases left <;> rfl
  | succ n ih =>
    cases xs with
    | nil => cases left <;> rfl
    | cons x xs =>
      cases left with
      | zero => exact absurd hleft (Nat.not_succ_le_zero _)
      | succ left =>
        cases hfound : needle.isPrefixOf (x::xs) with
        | false =>
          rw [ClearFrom, hfound, if_neg Bool.false_ne_true] at h
          rw [rescan_pass hfound, replaceAll_pass hfound,
            ih left xs (Nat.le_of_succ_le_succ hleft) h (Nat.le_of_succ_le_succ hn)]
        | true =>
          rw [ClearFrom, if_pos hfound, clearFrom_drop, ← drop_tail hne x] at h
          rw [rescan, if_pos hfound, replaceAll_found hne hfound]
          have hpos := List.length_pos_iff.mpr hne
          have hlen := congrArg List.length (prefix_split hfound)
          rw [List.length_append] at hlen
          generalize (x::xs).drop needle.length = rest at h hlen ⊢
          cases replacement with
          | nil =>
            have hnone := h.1.2 rfl
            cases rest with
            | nil => rfl
            | cons y ys =>
              have hgo := ih (left+1) (y::ys) (by omega) h.2 (by omega)
              rw [rescan_pass hnone] at hgo
              exact hgo
          | cons r rs =>
            have hover : rescan needle (r::rs) (rs.length+(left-rs.length)) (rs++rest) =
                rs++rescan needle (r::rs) (left-rs.length) rest :=
              rescan_over (fun o ho => h.1.1 (o+1) (Nat.succ_lt_succ ho) (Nat.succ_pos o))
            rw [List.length_cons] at hshort
            rw [show rs.length+(left-rs.length) = left by omega] at hover
            rw [List.cons_append]
            dsimp only
            rw [hover, ih (left-rs.length) rest (by omega) h.2 (by omega), List.cons_append]

/-- An undisturbed scan replaces from left to right. -/
theorem rescan_undisturbed (hne : needle ≠ []) (hshort : replacement.length ≤ needle.length)
    (left : ℕ) (xs : List α) (hleft : xs.length ≤ left) (h : Undisturbed needle replacement xs) :
    rescan needle replacement left xs = replaceAll needle replacement xs := by
  rcases h with rfl | hclear
  · rw [rescan_same left xs hleft, replaceAll_same hne]
  · exact rescan_clear hne hshort left xs hleft hclear

end Lemmas

end ArduinoOS.Replace
