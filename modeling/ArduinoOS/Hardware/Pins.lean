import Mathlib.Data.Nat.Basic
import Mathlib.Logic.Function.Basic
import Mathlib.Tactic.Common

/-!
# The pins and who may use them

One bit for each pin tells that it is in use. A pin is grabbed at most once
before it is released; setting its level or its mode asks for no grab.
-/

set_option autoImplicit false

namespace ArduinoOS.Hardware

def PinNB : ℕ := 96
def PinInvalid : ℕ := 127

inductive PinMode
  | input
  | output
  deriving DecidableEq

def pinsValidArray : List (BitVec 8) :=
  [0xFF, 0xFF, 0xFF, 0x8F, 0x3B, 0xFF, 0x27, 0x7B, 0x00, 0x03, 0xFF, 0xFF]

/-- `pinsUsedArray`, with the level and the mode of each pin. -/
structure Pins where
  used : ℕ → BitVec 8
  states : ℕ → Bool
  modes : ℕ → PinMode

def pinIsValid (pinNum : ℕ) : Bool :=
  if pinNum ≥ PinNB then false
  else (pinsValidArray.getD (pinNum/8) 0).getLsbD (pinNum%8)

def pinInUse (pinNum : ℕ) (p : Pins) : Bool :=
  if pinIsValid pinNum = false then false
  else (p.used (pinNum/8)).getLsbD (pinNum%8)

def pinGrab (pinNum : ℕ) (p : Pins) : Bool × Pins :=
  if pinIsValid pinNum = false then (false, p)
  else if pinInUse pinNum p then (false, p)
  else (true, { p with
    used := Function.update p.used (pinNum/8) (p.used (pinNum/8) ||| 1#8 <<< (pinNum%8)) })

def pinRelease (pinNum : ℕ) (p : Pins) : Pins :=
  if pinIsValid pinNum = false then p
  else { p with
    used := Function.update p.used (pinNum/8) (p.used (pinNum/8) &&& ~~~(1#8 <<< (pinNum%8))) }

def pinSetMode (pinNum : ℕ) (mode : PinMode) (p : Pins) : Pins :=
  if pinIsValid pinNum = false then p
  else { p with modes := Function.update p.modes pinNum mode }

def pinWrite (pinNum : ℕ) (value : Bool) (p : Pins) : Bool × Pins :=
  if pinIsValid pinNum = false then (false, p)
  else (true, { p with states := Function.update p.states pinNum value })

variable {n m : ℕ} {p : Pins} {value : Bool} {mode : PinMode}

theorem invalid_not_valid : pinIsValid PinInvalid = false := rfl

theorem inUse_valid (h : pinInUse n p = true) : pinIsValid n = true := by
  unfold pinInUse at h
  by_contra hvalid
  simp [hvalid] at h

theorem inUse_of_valid (h : pinIsValid n = true) :
    pinInUse n p = (p.used (n/8)).getLsbD (n%8) := by
  simp [pinInUse, h]

/-! ### Levels and modes -/

@[simp] theorem setMode_used : (pinSetMode n mode p).used = p.used := by
  unfold pinSetMode
  split <;> rfl

@[simp] theorem write_used : (pinWrite n value p).2.used = p.used := by
  unfold pinWrite
  split <;> rfl

@[simp] theorem setMode_states : (pinSetMode n mode p).states = p.states := by
  unfold pinSetMode
  split <;> rfl

theorem write_states (h : pinIsValid n = true) :
    (pinWrite n value p).2.states = Function.update p.states n value := by
  simp [pinWrite, h]

theorem inUse_congr {q : Pins} (h : p.used = q.used) (n : ℕ) : pinInUse n p = pinInUse n q := by
  simp [pinInUse, h]

/-! ### Grabbing and releasing -/

theorem bit_set (x : BitVec 8) {i k : ℕ} (hi : i < 8) :
    (x ||| 1#8 <<< k).getLsbD i = (x.getLsbD i || decide (i = k)) := by
  simp only [BitVec.getLsbD_or, BitVec.getLsbD_shiftLeft, BitVec.getLsbD_one, hi, decide_true,
    Bool.true_and]
  congr 1
  simp only [← Bool.decide_and, ← decide_not, decide_eq_decide]
  omega

theorem bit_cleared (x : BitVec 8) {i k : ℕ} (hi : i < 8) :
    (x &&& ~~~(1#8 <<< k)).getLsbD i = (x.getLsbD i && !decide (i = k)) := by
  simp only [BitVec.getLsbD_and, BitVec.getLsbD_not, BitVec.getLsbD_shiftLeft,
    BitVec.getLsbD_one, hi, decide_true, Bool.true_and]
  congr 2
  simp only [← Bool.decide_and, ← decide_not, decide_eq_decide]
  omega

theorem grab_iff : (pinGrab n p).1 = true ↔ pinIsValid n = true ∧ pinInUse n p = false := by
  unfold pinGrab
  cases pinIsValid n <;> cases pinInUse n p <;> simp

theorem grab_failed (h : (pinGrab n p).1 = false) : (pinGrab n p).2 = p := by
  revert h
  unfold pinGrab
  cases pinIsValid n <;> cases pinInUse n p <;> simp

/-- A grab that succeeds sets the pin's own bit. -/
theorem grab_inUse (h : (pinGrab n p).1 = true) :
    pinInUse m (pinGrab n p).2 = true ↔ m = n ∨ pinInUse m p = true := by
  have hvalid := grab_iff.mp h
  by_cases hm : pinIsValid m = true
  · simp only [inUse_of_valid hm]
    simp only [pinGrab, hvalid.1, hvalid.2, if_false, Bool.true_eq_false, Bool.false_eq_true]
    by_cases hbyte : m/8 = n/8
    · rw [hbyte, Function.update_self, bit_set _ (by omega)]
      have heq : m%8 = n%8 ↔ m = n := by omega
      simp [heq, or_comm]
    · have hne : m ≠ n := fun heq => hbyte (by rw [heq])
      simp [Function.update_of_ne hbyte, hne]
  · have hne : m ≠ n := fun heq => hm (heq ▸ hvalid.1)
    simp [pinInUse, hm, hne]

theorem release_inUse :
    pinInUse m (pinRelease n p) = true ↔ m ≠ n ∧ pinInUse m p = true := by
  by_cases hm : pinIsValid m = true
  · by_cases hn : pinIsValid n = true
    · simp only [inUse_of_valid hm]
      simp only [pinRelease, hn, if_false, Bool.true_eq_false]
      by_cases hbyte : m/8 = n/8
      · rw [hbyte, Function.update_self, bit_cleared _ (by omega)]
        have heq : m%8 = n%8 ↔ m = n := by omega
        simp [heq, and_comm]
      · have hne : m ≠ n := fun heq => hbyte (by rw [heq])
        simp [Function.update_of_ne hbyte, hne]
    · have hne : m ≠ n := fun heq => hn (heq ▸ hm)
      simp [pinRelease, hn, hne]
  · simp [pinInUse, hm]

end ArduinoOS.Hardware
