import Mathlib.Data.List.Range
import Mathlib.Data.Nat.Basic
import Mathlib.Tactic.Common

/-!
# Queues in a ring of cells

The cells from the head up to, not including, the tail hold the queue. Equal
offsets mean an empty queue, so one cell always stays free.
-/

set_option autoImplicit false

namespace ArduinoOS.Ring

variable {α : Type}

def next (n i : ℕ) : ℕ := if i < n-1 then i+1 else 0

def prev (n i : ℕ) : ℕ := if i = 0 then n-1 else i-1

/-- The cell `i` places behind `head`. -/
def cell (n head i : ℕ) : ℕ := if head+i < n then head+i else head+i-n

def count (n head tail : ℕ) : ℕ := if head ≤ tail then tail-head else tail+n-head

def contents (cells : ℕ → α) (n head tail : ℕ) : List α :=
  (List.range (count n head tail)).map (fun i => cells (cell n head i))

variable {n head tail : ℕ}

theorem next_lt (hn : 0 < n) (i : ℕ) : next n i < n := by
  unfold next
  split <;> omega

theorem prev_lt (hn : 0 < n) {i : ℕ} (hi : i < n) : prev n i < n := by
  unfold prev
  split <;> omega

theorem next_prev {i : ℕ} (hi : i < n) : next n (prev n i) = i := by
  unfold next prev
  split <;> split <;> omega

theorem count_lt (hh : head < n) (ht : tail < n) : count n head tail < n := by
  unfold count
  split <;> omega

theorem count_zero (hh : head < n) : count n head tail = 0 ↔ head = tail := by
  unfold count
  split <;> omega

theorem count_full (hh : head < n) (ht : tail < n) :
    count n head tail = n-1 ↔ next n tail = head := by
  unfold count next
  split <;> split <;> omega

theorem count_push (hh : head < n) (ht : tail < n) (hroom : next n tail ≠ head) :
    count n head (next n tail) = count n head tail+1 := by
  unfold count next at *
  split_ifs at * <;> omega

theorem count_pop (hh : head < n) (ht : tail < n) (hne : head ≠ tail) :
    count n head tail = count n (next n head) tail+1 := by
  unfold count next
  split <;> split <;> split <;> omega

theorem cell_lt {i : ℕ} (hh : head < n) (hi : i < n) : cell n head i < n := by
  unfold cell
  split <;> omega

/-- The place behind the last one is the tail. -/
theorem cell_count (hh : head < n) (ht : tail < n) : cell n head (count n head tail) = tail := by
  unfold cell count
  split <;> split <;> omega

theorem cell_ne_tail {i : ℕ} (hh : head < n) (hi : i < count n head tail) :
    cell n head i ≠ tail := by
  unfold cell count at *
  split at hi <;> split <;> omega

theorem cell_next {i : ℕ} (hh : head < n) (hi : i+1 < n) :
    cell n (next n head) i = cell n head (i+1) := by
  unfold cell next
  split <;> split <;> split <;> omega

@[simp] theorem contents_length (cells : ℕ → α) (n head tail : ℕ) :
    (contents cells n head tail).length = count n head tail := by
  simp [contents]

theorem contents_congr {cells cells' : ℕ → α} (hh : head < n) (ht : tail < n)
    (h : ∀ i < n, i ≠ tail → cells' i = cells i) :
    contents cells' n head tail = contents cells n head tail := by
  apply List.map_congr_left
  intro i hi
  have hlt := List.mem_range.mp hi
  have hn := count_lt hh ht
  exact h _ (cell_lt hh (by omega)) (cell_ne_tail hh hlt)

/-- A value stored at the tail joins the queue when the tail moves on. -/
theorem contents_push {cells cells' : ℕ → α} {x : α} (hh : head < n) (ht : tail < n)
    (hroom : next n tail ≠ head) (hx : cells' tail = x)
    (h : ∀ i < n, i ≠ tail → cells' i = cells i) :
    contents cells' n head (next n tail) = contents cells n head tail++[x] := by
  have hold := contents_congr hh ht h
  rw [contents] at hold
  rw [contents, count_push hh ht hroom, List.range_succ, List.map_append, hold, List.map_singleton,
    cell_count hh ht, hx]

/-- Moving the head on drops the first value. -/
theorem contents_pop (cells : ℕ → α) (hh : head < n) (ht : tail < n) (hne : head ≠ tail) :
    contents cells n head tail = cells head::contents cells n (next n head) tail := by
  have hcount := count_pop hh ht hne
  have hlt := count_lt hh ht
  rw [contents, hcount, List.range_succ_eq_map, List.map_cons, List.map_map, contents]
  congr 1
  · rw [cell, if_pos (by omega), Nat.add_zero]
  · apply List.map_congr_left
    intro i hi
    have hi := List.mem_range.mp hi
    rw [Function.comp_apply, cell_next hh (by omega)]

/-- Moving the tail back drops the last value. -/
theorem contents_unpush (cells : ℕ → α) (hh : head < n) (ht : tail < n) (hne : head ≠ tail) :
    contents cells n head tail = contents cells n head (prev n tail)++[cells (prev n tail)] := by
  have hprev := prev_lt (by omega) ht
  have hpush := contents_push hh hprev (by rw [next_prev ht]; exact hne.symm) rfl
    (fun i _ _ => Eq.refl (cells i))
  rwa [next_prev ht] at hpush

theorem contents_nil (cells : ℕ → α) (hh : head < n) (tail : ℕ) :
    contents cells n head tail = [] ↔ head = tail := by
  rw [← List.length_eq_zero_iff, contents_length, count_zero hh]

end ArduinoOS.Ring
