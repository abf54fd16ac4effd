import Mathlib.Algebra.Group.Nat.Defs
import Mathlib.Data.Int.Init
import Mathlib.Data.List.Basic
import Mathlib.Data.List.GetD
import Mathlib.Tactic.Common

/-!
# C strings and machine integers

A C string is a list of characters none of which is the terminator, so that
splitting and joining strings needs no side condition. Machine integers are
natural numbers, truncated where the source stores them.
-/

set_option autoImplicit false

namespace ArduinoOS

/-- Truncation on assignment to `uint8_t`, `uint16_t` and `uint32_t`. -/
def u8 (n : ℕ) : ℕ := n % 256
def u16 (n : ℕ) : ℕ := n % 65536
def u32 (n : ℕ) : ℕ := n % 4294967296

theorem u8_of_lt {n : ℕ} (h : n < 256) : u8 n = n := Nat.mod_eq_of_lt h
theorem u16_of_lt {n : ℕ} (h : n < 65536) : u16 n = n := Nat.mod_eq_of_lt h
theorem u32_of_lt {n : ℕ} (h : n < 4294967296) : u32 n = n := Nat.mod_eq_of_lt h

/-- Assignment of a signed value to an unsigned type. -/
def wrap8 (z : ℤ) : ℕ := (z % 256).toNat
def wrap16 (z : ℤ) : ℕ := (z % 65536).toNat
def wrap32 (z : ℤ) : ℕ := (z % 4294967296).toNat

theorem wrap8_of_lt {z : ℤ} (h₀ : 0 ≤ z) (h₁ : z < 256) : wrap8 z = z.toNat := by
  rw [wrap8, Int.emod_eq_of_lt h₀ h₁]

theorem wrap16_of_lt {z : ℤ} (h₀ : 0 ≤ z) (h₁ : z < 65536) : wrap16 z = z.toNat := by
  rw [wrap16, Int.emod_eq_of_lt h₀ h₁]

theorem u8_lt (n : ℕ) : u8 n < 256 := Nat.mod_lt _ (by decide)
theorem u16_lt (n : ℕ) : u16 n < 65536 := Nat.mod_lt _ (by decide)

/-- A byte that can stand inside a string. -/
structure CChar where
  val : UInt8
  ne : val ≠ 0
  deriving DecidableEq

abbrev CStr := List CChar

/-- The character constant `c` of the source (NUL cannot be one). -/
def CChar.ofChar (c : Char) : CChar :=
  if h : UInt8.ofNat c.toNat ≠ 0 then ⟨UInt8.ofNat c.toNat, h⟩ else ⟨1, by decide⟩

/-- The string literal `s` of the source. -/
def CStr.lit (s : String) : CStr := s.toList.map CChar.ofChar

namespace CStr

/-- The bytes of the string with its terminator, as they stand in memory. -/
def bytes (s : CStr) : List UInt8 := s.map CChar.val ++ [0]

@[simp] theorem bytes_length (s : CStr) : s.bytes.length = s.length+1 := by
  simp [bytes]

theorem bytes_nil : bytes [] = [0] := rfl

theorem bytes_cons (c : CChar) (s : CStr) : bytes (c::s) = c.val :: bytes s := rfl

/-- The character at `i`, or the terminator right after the last one. -/
def getChar (s : CStr) (i : ℕ) : UInt8 := s.bytes.getD i 0

theorem getChar_length (s : CStr) : s.getChar s.length = 0 := by
  simp [getChar, bytes]

theorem getChar_getElem (s : CStr) (i : ℕ) (h : i < s.length) : s.getChar i = s[i].val := by
  have hlt : i < (s.map CChar.val).length := by rwa [List.length_map]
  rw [getChar, bytes, List.getD_append _ _ _ _ hlt, List.getD_eq_getElem _ _ hlt, List.getElem_map]

theorem val_injective : Function.Injective CChar.val := by
  intro a b h
  cases a
  cases b
  simp_all

theorem bytes_injective : Function.Injective bytes := by
  intro s t h
  exact List.map_injective_iff.mpr val_injective (List.append_inj_left' h rfl)

/-- No string is a proper prefix of another once both carry terminators. -/
theorem bytes_prefix (s t : CStr) (hp : s.bytes <+: t.bytes) : s = t := by
  induction s generalizing t with
  | nil =>
    cases t with
    | nil => rfl
    | cons c t =>
      rw [bytes_nil, bytes_cons, List.cons_prefix_cons] at hp
      exact absurd hp.1.symm c.ne
  | cons a s ih =>
    cases t with
    | nil =>
      rw [bytes_nil, bytes_cons, List.cons_prefix_cons] at hp
      exact absurd hp.1 a.ne
    | cons b t =>
      rw [bytes_cons, bytes_cons, List.cons_prefix_cons] at hp
      rw [val_injective hp.1, ih t hp.2]

end CStr

end ArduinoOS
