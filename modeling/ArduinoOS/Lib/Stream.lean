import Mathlib.Data.List.Basic
import Mathlib.Data.Nat.Basic
import Mathlib.Tactic.Common

/-!
# Streams

What can be read and written a piece at a time: content with a place for every
element, or a bounded queue. A transfer may be cut anywhere, and one that comes
short is over.
-/

set_option autoImplicit false

namespace ArduinoOS

variable {α : Type}

/-- Content that keeps its length, or elements that wait to be read. -/
inductive Stream (α : Type) where
  | content (cells : List α)
  | queue (waiting : List α) (capacity : ℕ)

namespace Stream

/-- The cells with `data` over them from `offset` on, as far as they go. -/
def overlay (cells : List α) (offset : ℕ) (data : List α) : List α :=
  cells.take offset++(data.take (cells.length-offset)++
    cells.drop (offset+(data.take (cells.length-offset)).length))

/-- What a read of `len` gives, and what is left. -/
def read : Stream α → ℕ → ℕ → List α × Stream α
  | .content cells, offset, len => ((cells.drop offset).take len, .content cells)
  | .queue waiting capacity, _, len => (waiting.take len, .queue (waiting.drop len) capacity)

/-- How much of the data a write takes, and what comes of it. -/
def write : Stream α → ℕ → List α → ℕ × Stream α
  | .content cells, offset, data =>
      (min data.length (cells.length-offset), .content (overlay cells offset data))
  | .queue waiting capacity, _, data =>
      (min data.length (capacity-waiting.length),
        .queue (waiting++data.take (capacity-waiting.length)) capacity)

/-- An offset of `w` bits reaches the place. -/
def Reaches (limit : ℕ) (offset : ℕ) : Stream α → Prop
  | .content _ => offset < limit
  | .queue _ _ => True

/-- The content has no place that the offsets do not reach. -/
def Fits (limit : ℕ) : Stream α → Prop
  | .content cells => cells.length < limit
  | .queue _ _ => True

/-! ### Reads -/

theorem read_length (t : Stream α) (offset len : ℕ) : (t.read offset len).1.length ≤ len := by
  cases t with
  | content cells =>
    rw [read, List.length_take]
    exact Nat.min_le_left _ _
  | queue waiting capacity =>
    rw [read, List.length_take]
    exact Nat.min_le_left _ _

theorem read_zero (t : Stream α) (offset : ℕ) : t.read offset 0 = ([], t) := by
  cases t with
  | content cells => rfl
  | queue waiting capacity => rfl

/-- A read in two pieces. -/
theorem read_add (t : Stream α) (offset m n : ℕ) : t.read offset (m+n) =
    ((t.read offset m).1++((t.read offset m).2.read (offset+m) n).1,
      ((t.read offset m).2.read (offset+m) n).2) := by
  cases t with
  | content cells => simp only [read, List.take_add, List.drop_drop]
  | queue waiting capacity => simp only [read, List.take_add, List.drop_drop]

/-- A read that comes short has come to the end. -/
theorem read_short (t : Stream α) (offset : ℕ) {m : ℕ} (n : ℕ)
    (h : (t.read offset m).1.length < m) : t.read offset (m+n) = t.read offset m := by
  cases t with
  | content cells =>
    rw [read, List.length_take] at h
    rw [read, read, List.take_of_length_le (by omega), List.take_of_length_le (by omega)]
  | queue waiting capacity =>
    rw [read, List.length_take] at h
    rw [read, read, List.take_of_length_le (by omega), List.take_of_length_le (by omega),
      List.drop_of_length_le (by omega), List.drop_of_length_le (by omega)]

/-! ### Writes -/

theorem overlay_length (cells : List α) (offset : ℕ) (data : List α) :
    (overlay cells offset data).length = cells.length := by
  simp [overlay]
  omega

theorem overlay_getElem? (cells : List α) (offset : ℕ) (data : List α) (k : ℕ) :
    (overlay cells offset data)[k]? =
      if offset ≤ k ∧ k < offset+data.length ∧ k < cells.length then data[k-offset]?
      else cells[k]? := by
  by_cases hin : k < cells.length
  · by_cases hbelow : k < offset
    · rw [if_neg (by omega), overlay, List.getElem?_append_left (by rw [List.length_take]; omega),
        List.getElem?_take, if_pos hbelow]
    · have hlen : (cells.take offset).length = offset := by
        rw [List.length_take]
        omega
      rw [overlay, List.getElem?_append_right (by omega), hlen]
      by_cases hend : k < offset+data.length
      · rw [if_pos (by omega), List.getElem?_append_left (by rw [List.length_take]; omega),
          List.getElem?_take, if_pos (by omega)]
      · have hall : data.take (cells.length-offset) = data :=
          List.take_of_length_le (by omega)
        rw [if_neg (by omega), hall, List.getElem?_append_right (by omega), List.getElem?_drop]
        congr 1
        omega
  · have hlen := overlay_length cells offset data
    rw [if_neg (by omega), List.getElem?_eq_none (by omega), List.getElem?_eq_none (by omega)]

theorem write_nil (t : Stream α) (offset : ℕ) : t.write offset [] = (0, t) := by
  cases t with
  | content cells => simp [write, overlay]
  | queue waiting capacity => simp [write]

theorem write_count (t : Stream α) (offset : ℕ) (data : List α) :
    (t.write offset data).1 ≤ data.length := by
  cases t with
  | content cells => exact Nat.min_le_left _ _
  | queue waiting capacity => exact Nat.min_le_left _ _

/-- A write in two pieces, the first of which is taken. -/
theorem write_append (t : Stream α) (offset : ℕ) (x y : List α)
    (h : (t.write offset x).1 = x.length) : t.write offset (x++y) =
      (x.length+((t.write offset x).2.write (offset+x.length) y).1,
        ((t.write offset x).2.write (offset+x.length) y).2) := by
  cases t with
  | content cells =>
    rw [write] at h
    simp only [write, List.length_append, overlay_length, Prod.mk.injEq, content.injEq]
    refine ⟨by omega, ?_⟩
    ext1 k
    simp only [overlay_getElem?, List.length_append, overlay_length]
    by_cases hfirst : k < offset+x.length
    · by_cases hx : offset ≤ k ∧ k < cells.length
      · rw [if_pos (by omega), if_neg (by omega), if_pos (by omega),
          List.getElem?_append_left (by omega)]
      · rw [if_neg (by omega), if_neg (by omega), if_neg (by omega)]
    · by_cases hy : k < offset+(x.length+y.length) ∧ k < cells.length
      · rw [if_pos (by omega), if_pos (by omega), List.getElem?_append_right (by omega)]
        congr 1
        omega
      · rw [if_neg (by omega), if_neg (by omega), if_neg (by omega)]
  | queue waiting capacity =>
    rw [write] at h
    have hall : x.take (capacity-waiting.length) = x := List.take_of_length_le (by omega)
    simp only [write, hall, List.length_append, List.take_append, List.append_assoc,
      Nat.sub_add_eq, Prod.mk.injEq, and_true]
    omega

/-- A write that is not taken whole has come to the end. -/
theorem write_short (t : Stream α) (offset : ℕ) (x y : List α)
    (h : (t.write offset x).1 < x.length) : t.write offset (x++y) = t.write offset x := by
  cases t with
  | content cells =>
    rw [write] at h
    simp only [write, List.length_append, Prod.mk.injEq, content.injEq]
    refine ⟨by omega, ?_⟩
    ext1 k
    simp only [overlay_getElem?, List.length_append]
    by_cases hx : offset ≤ k ∧ k < cells.length
    · rw [if_pos (by omega), if_pos (by omega), List.getElem?_append_left (by omega)]
    · rw [if_neg (by omega), if_neg (by omega)]
  | queue waiting capacity =>
    rw [write] at h
    simp only [write, List.length_append, List.take_append,
      show capacity-waiting.length-x.length = 0 by omega, List.take_zero, List.append_nil,
      Prod.mk.injEq, and_true]
    omega

/-! ### Offsets -/

theorem reaches_of_lt {limit offset : ℕ} (t : Stream α) (h : offset < limit) :
    t.Reaches limit offset := by
  cases t with
  | content cells => exact h
  | queue waiting capacity => exact trivial

/-- An offset that wraps is one that the stream does not look at. -/
theorem read_mod {limit offset : ℕ} (t : Stream α) (len : ℕ) (h : t.Reaches limit offset) :
    t.read (offset % limit) len = t.read offset len := by
  cases t with
  | content cells => rw [Nat.mod_eq_of_lt h]
  | queue waiting capacity => rfl

theorem write_mod {limit offset : ℕ} (t : Stream α) (data : List α) (h : t.Reaches limit offset) :
    t.write (offset % limit) data = t.write offset data := by
  cases t with
  | content cells => rw [Nat.mod_eq_of_lt h]
  | queue waiting capacity => rfl

theorem read_fits {limit : ℕ} (t : Stream α) (offset len : ℕ) (h : t.Fits limit) :
    (t.read offset len).2.Fits limit := by
  cases t with
  | content cells => exact h
  | queue waiting capacity => exact trivial

theorem write_fits {limit : ℕ} (t : Stream α) (offset : ℕ) (data : List α) (h : t.Fits limit) :
    (t.write offset data).2.Fits limit := by
  cases t with
  | content cells =>
    rw [write, Fits, overlay_length]
    exact h
  | queue waiting capacity => exact trivial

/-- After a read in full the next place can be reached. -/
theorem read_reaches {limit : ℕ} (t : Stream α) (offset len : ℕ) (h : t.Fits limit)
    (hpos : 0 < len) (hfull : (t.read offset len).1.length = len) :
    (t.read offset len).2.Reaches limit (offset+len) := by
  cases t with
  | content cells =>
    rw [read, List.length_take, List.length_drop] at hfull
    have hfits : cells.length < limit := h
    change offset+len < limit
    omega
  | queue waiting capacity => exact trivial

theorem write_reaches {limit : ℕ} (t : Stream α) (offset : ℕ) (data : List α) (h : t.Fits limit)
    (hpos : 0 < data.length) (hfull : (t.write offset data).1 = data.length) :
    (t.write offset data).2.Reaches limit (offset+data.length) := by
  cases t with
  | content cells =>
    rw [write] at hfull
    have hfits : cells.length < limit := h
    change offset+data.length < limit
    simp only at hfull
    omega
  | queue waiting capacity => exact trivial

end Stream

end ArduinoOS
