import Mathlib.Data.Int.Notation
import Mathlib.Tactic.Common

/-!
# Comparison of bytes

The difference of the first two bytes that differ, what a comparison by the C
library answers of it, and how a comparison goes on after a part that is equal.
-/

set_option autoImplicit false

namespace ArduinoOS.Compare

/-- The difference of the first bytes that differ, 0 without any. -/
def firstDiff : List UInt8 → List UInt8 → ℤ
  | a::as, b::bs => if a = b then firstDiff as bs else (a.toNat : ℤ)-b.toNat
  | _, _ => 0

@[simp] theorem firstDiff_nil_left (b : List UInt8) : firstDiff [] b = 0 := by
  cases b <;> rfl

@[simp] theorem firstDiff_nil_right (a : List UInt8) : firstDiff a [] = 0 := by
  cases a <;> rfl

theorem firstDiff_cons (x y : UInt8) (as bs : List UInt8) :
    firstDiff (x::as) (y::bs) = if x = y then firstDiff as bs else (x.toNat : ℤ)-y.toNat := rfl

theorem byte_diff {x y : UInt8} (h : x ≠ y) : (x.toNat : ℤ)-y.toNat ≠ 0 := by
  intro hzero
  apply h
  apply UInt8.toNat_inj.mp
  omega

theorem firstDiff_bounds (a b : List UInt8) : -255 ≤ firstDiff a b ∧ firstDiff a b ≤ 255 := by
  induction a generalizing b with
  | nil => simp
  | cons x as ih =>
    cases b with
    | nil => simp
    | cons y bs =>
      rw [firstDiff_cons]
      split
      case isTrue => exact ih bs
      case isFalse =>
        have hx := x.toNat_lt
        have hy := y.toNat_lt
        omega

/-- Nothing differs where one is the start of the other. -/
theorem firstDiff_eq_zero (a b : List UInt8) :
    firstDiff a b = 0 ↔ a.take b.length = b.take a.length := by
  induction a generalizing b with
  | nil => simp
  | cons x as ih =>
    cases b with
    | nil => simp
    | cons y bs =>
      rw [firstDiff_cons, List.length_cons, List.length_cons, List.take_succ_cons,
        List.take_succ_cons]
      split
      case isTrue hsame => rw [ih bs, hsame, List.cons_inj_right]
      case isFalse hne =>
        constructor
        · intro h
          exact absurd h (byte_diff hne)
        · intro h
          exact absurd (List.head_eq_of_cons_eq h) hne

/-- The comparison of a first part decides, unless that part is equal. -/
theorem firstDiff_split (n : ℕ) (a b : List UInt8) :
    firstDiff a b = if firstDiff (a.take n) (b.take n) = 0 then firstDiff (a.drop n) (b.drop n)
      else firstDiff (a.take n) (b.take n) := by
  induction n generalizing a b with
  | zero => simp
  | succ n ih =>
    cases a with
    | nil => simp
    | cons x as =>
      cases b with
      | nil => simp
      | cons y bs =>
        simp only [List.take_succ_cons, List.drop_succ_cons, firstDiff_cons]
        split
        case isTrue => exact ih as bs
        case isFalse hne => rw [if_neg (byte_diff hne)]

theorem firstDiff_same_length {a b : List UInt8} (h : a.length = b.length) :
    firstDiff a b = 0 ↔ a = b := by
  rw [firstDiff_eq_zero, h, List.take_length, ← h, List.take_length]

/-! ### Strings -/

/-- The bytes up to the first terminator. -/
def upToNul : List UInt8 → List UInt8
  | [] => []
  | c::cs => if c = 0 then [c] else c::upToNul cs

theorem upToNul_string {s : List UInt8} (h : 0 ∉ s) (rest : List UInt8) :
    upToNul (s++0::rest) = s++[0] := by
  induction s with
  | nil => rfl
  | cons c cs ih =>
    have hc : c ≠ 0 := fun hzero => h (by simp [hzero])
    rw [List.cons_append, upToNul, if_neg hc, ih (fun hmem => h (List.mem_cons_of_mem c hmem))]
    rfl

theorem upToNul_none {s : List UInt8} (h : 0 ∉ s) : upToNul s = s := by
  induction s with
  | nil => rfl
  | cons c cs ih =>
    have hc : c ≠ 0 := fun hzero => h (by simp [hzero])
    rw [upToNul, if_neg hc, ih (fun hmem => h (List.mem_cons_of_mem c hmem))]

/-- A string in a buffer that it may or may not fill, with anything behind it. -/
theorem upToNul_piece {s : List UInt8} (h : 0 ∉ s) (n : ℕ) (rest : List UInt8) :
    upToNul (((s++[0]).take n++rest).take n) = (s++[0]).take n := by
  by_cases hlong : n ≤ s.length
  · have htake : (s++[0]).take n = s.take n := List.take_append_of_le_length hlong
    rw [htake, List.take_append_of_le_length (by rw [List.length_take]; omega), List.take_take,
      Nat.min_self]
    exact upToNul_none (fun hmem => h (List.mem_of_mem_take hmem))
  · have htake : (s++[0]).take n = s++[0] := by
      apply List.take_of_length_le
      rw [List.length_append, List.length_singleton]
      omega
    rw [htake, List.append_assoc, List.take_append, List.take_of_length_le (by omega),
      List.singleton_append, show n-s.length = (n-s.length-1)+1 by omega, List.take_succ_cons]
    exact upToNul_string h _

/-- The terminator is in the buffer when the string ends before it does. -/
theorem nul_in_piece {s : List UInt8} (h : 0 ∉ s) (n : ℕ) (rest : List UInt8) :
    0 ∈ ((s++[0]).take n++rest).take n ↔ s.length < n := by
  constructor
  · intro hmem
    by_contra hlong
    have htake : (s++[0]).take n = s.take n := List.take_append_of_le_length (by omega)
    rw [htake, List.take_append_of_le_length (by rw [List.length_take]; omega)] at hmem
    exact h (List.mem_of_mem_take (List.mem_of_mem_take hmem))
  · intro hshort
    have hwhole : (s++[0]).take n = s++[0] := List.take_of_length_le (by simp; omega)
    rw [hwhole, List.take_append, hwhole]
    simp

/-- Blocks of strings are not equal when only the second string ends in them. -/
theorem firstDiff_ends {s t : List UInt8} (hs : 0 ∉ s) {n : ℕ} (hlong : n ≤ s.length)
    (hzero : firstDiff ((s++[0]).take n) ((t++[0]).take n) = 0) : n ≤ t.length := by
  by_contra hshort
  have hlen : (t++[0]).length = t.length+1 := List.length_append
  have htake : (s++[0]).take n = s.take n := List.take_append_of_le_length hlong
  have hwhole : (t++[0]).take n = t++[0] := List.take_of_length_le (by omega)
  have hall : (t++[0]).take (s.take n).length = t++[0] :=
    List.take_of_length_le (by rw [List.length_take]; omega)
  rw [firstDiff_eq_zero, htake, hwhole, hall] at hzero
  have hmem : 0 ∈ (s.take n).take (t++[0]).length := by
    rw [hzero]
    simp
  exact hs (List.mem_of_mem_take (List.mem_of_mem_take hmem))

theorem firstDiff_strings {s t : List UInt8} (hs : 0 ∉ s) (ht : 0 ∉ t) :
    firstDiff (s++[0]) (t++[0]) = 0 ↔ s = t := by
  induction s generalizing t with
  | nil =>
    cases t with
    | nil => simp [firstDiff]
    | cons c cs =>
      have hc : 0 ≠ c := fun hzero => ht (by simp [hzero])
      simp only [List.nil_append, List.cons_append, firstDiff_cons, if_neg hc]
      simpa using byte_diff hc
  | cons c cs ih =>
    cases t with
    | nil =>
      have hc : c ≠ 0 := fun hzero => hs (by simp [hzero])
      simp only [List.nil_append, List.cons_append, firstDiff_cons, if_neg hc]
      simpa using byte_diff hc
    | cons d ds =>
      simp only [List.cons_append, firstDiff_cons, List.cons.injEq]
      split
      case isTrue hsame =>
        rw [ih (fun hmem => hs (List.mem_cons_of_mem c hmem))
          (fun hmem => ht (List.mem_cons_of_mem d hmem))]
        exact ⟨fun h => ⟨hsame, h⟩, fun h => h.2⟩
      case isFalse hne =>
        exact ⟨fun h => absurd h (byte_diff hne), fun h => absurd h.1 hne⟩

/-! ### The C library -/

structure Comparisons where
  memcmp (a b : List UInt8) (n : ℕ) : ℤ
  strncmp (a b : List UInt8) (n : ℕ) : ℤ

/-- The comparisons answer between -255 and 255, with the sign of the first
difference; characters after a terminator are not compared. -/
structure Comparisons.Lawful (C : Comparisons) : Prop where
  memcmp_bounds : ∀ a b n, -255 ≤ C.memcmp a b n ∧ C.memcmp a b n ≤ 255
  memcmp_sign : ∀ a b n, n ≤ a.length → n ≤ b.length →
    (C.memcmp a b n).sign = (firstDiff (a.take n) (b.take n)).sign
  strncmp_bounds : ∀ a b n, -255 ≤ C.strncmp a b n ∧ C.strncmp a b n ≤ 255
  strncmp_sign : ∀ a b n, n ≤ a.length → n ≤ b.length →
    (C.strncmp a b n).sign = (firstDiff (upToNul (a.take n)) (upToNul (b.take n))).sign

/-- The comparisons that answer the difference itself. -/
def differences : Comparisons where
  memcmp a b n := firstDiff (a.take n) (b.take n)
  strncmp a b n := firstDiff (upToNul (a.take n)) (upToNul (b.take n))

theorem differences_lawful : differences.Lawful where
  memcmp_bounds _ _ _ := firstDiff_bounds _ _
  memcmp_sign _ _ _ _ _ := rfl
  strncmp_bounds _ _ _ := firstDiff_bounds _ _
  strncmp_sign _ _ _ _ _ := rfl

/-- A small difference as a word of 16 bits. -/
theorem word_sign {d : ℤ} (hd : -255 ≤ d ∧ d ≤ 255) :
    (UInt16.ofInt d).toInt16.toInt = d ∧ (UInt16.ofInt d = 0 ↔ d = 0) := by
  have hnat : (UInt16.ofInt d).toNat = (d%65536).toNat := by
    rw [UInt16.ofInt, UInt16.toNat_ofNat']
    omega
  constructor
  · change (UInt16.ofInt d).toBitVec.toInt = d
    rw [BitVec.toInt_eq_toNat_cond, UInt16.toNat_toBitVec, hnat]
    split <;> omega
  · rw [← UInt16.toNat_inj, hnat, UInt16.toNat_zero]
    omega

end ArduinoOS.Compare
