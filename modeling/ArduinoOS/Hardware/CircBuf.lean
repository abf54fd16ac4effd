import ArduinoOS.Lib.CBuffer
import ArduinoOS.Lib.Ring
import Mathlib.Data.List.GetD

/-!
# The circular buffer of the terminal

Bytes are pushed at the tail and popped at the head of a ring; the last byte can
be looked at and taken back. One cell stays free.
-/

set_option autoImplicit false

namespace ArduinoOS.Hardware.Terminal
open ArduinoOS.CBuffer

structure CircBuf where
  buffer : Buffer
  size : UInt8
  head : UInt8
  tail : UInt8

def circBufInit (buffer : Buffer) (size : UInt8) : CircBuf := ⟨buffer, size, 0, 0⟩

section Calls

variable (cb : CircBuf)

def circBufIndexNext (i : UInt8) : UInt8 :=
  if (i.toNat : ℤ) = (cb.size.toNat : ℤ)-1 then 0 else i+1

def circBufIndexPrev (i : UInt8) : UInt8 := if i = 0 then cb.size-1 else i-1

def circBufIsEmpty : Bool := cb.head == cb.tail

def circBufPush (value : UInt8) : Except Trap (Bool × CircBuf) :=
  let newTail := circBufIndexNext cb cb.tail
  if newTail = cb.head then .ok (false, cb)
  else do
    let buffer ← put cb.buffer cb.tail.toNat value
    .ok (true, { cb with buffer := buffer, tail := newTail })

def circBufPop : Except Trap (Option UInt8 × CircBuf) :=
  if cb.head = cb.tail then .ok (none, cb)
  else do
    let value ← get cb.buffer cb.head.toNat
    .ok (some value, { cb with head := circBufIndexNext cb cb.head })

def circBufUnpush : Bool × CircBuf :=
  if cb.head = cb.tail then (false, cb)
  else (true, { cb with tail := circBufIndexPrev cb cb.tail })

def circBufTailPeek : Except Trap (Option UInt8) :=
  if cb.head = cb.tail then .ok none
  else do
    let value ← get cb.buffer (circBufIndexPrev cb cb.tail).toNat
    .ok (some value)

end Calls

/-! ### The bytes in the ring -/

/-- The bytes between head and tail, with every index inside the ring. -/
structure HoldsBytes (cb : CircBuf) (q : List UInt8) : Prop where
  size_pos : 0 < cb.size.toNat
  length : cb.buffer.length = cb.size.toNat
  head_lt : cb.head.toNat < cb.size.toNat
  tail_lt : cb.tail.toNat < cb.size.toNat
  contents : Ring.contents (fun i => cb.buffer.getD i 0) cb.size.toNat cb.head.toNat cb.tail.toNat = q

section Steps

variable {cb : CircBuf} {q : List UInt8}

theorem indexNext_toNat {i : UInt8} (hi : i.toNat < cb.size.toNat) :
    (circBufIndexNext cb i).toNat = Ring.next cb.size.toNat i.toNat := by
  have hsize := cb.size.toNat_lt
  rw [circBufIndexNext, Ring.next]
  by_cases hlast : i.toNat < cb.size.toNat-1
  · rw [if_neg (by omega), if_pos hlast, UInt8.toNat_add]
    simp only [UInt8.toNat_ofNat]
    omega
  · rw [if_pos (by omega), if_neg hlast]
    rfl

theorem indexPrev_toNat (hsize : 0 < cb.size.toNat) {i : UInt8} :
    (circBufIndexPrev cb i).toNat = Ring.prev cb.size.toNat i.toNat := by
  have hpred : ∀ x : UInt8, 0 < x.toNat → (x-1).toNat = x.toNat-1 := by
    intro x hx
    rw [UInt8.toNat_sub_of_le]
    · rfl
    · rw [UInt8.le_iff_toNat_le]
      exact hx
  rw [circBufIndexPrev, Ring.prev]
  by_cases hzero : i = 0
  · rw [if_pos hzero, if_pos (by rw [hzero]; rfl), hpred _ hsize]
  · have hpos : i.toNat ≠ 0 := fun h => hzero (UInt8.toNat_inj.mp h)
    rw [if_neg hzero, if_neg hpos, hpred _ (by omega)]

theorem empty_iff (h : HoldsBytes cb q) : cb.head = cb.tail ↔ q = [] := by
  rw [← h.contents, Ring.contents_nil _ h.head_lt, UInt8.toNat_inj]

theorem full_iff (h : HoldsBytes cb q) :
    circBufIndexNext cb cb.tail = cb.head ↔ q.length = cb.size.toNat-1 := by
  rw [← h.contents, Ring.contents_length, Ring.count_full h.head_lt h.tail_lt,
    ← UInt8.toNat_inj, indexNext_toNat h.tail_lt]

theorem length_le (h : HoldsBytes cb q) : q.length ≤ cb.size.toNat-1 := by
  have hlt := Ring.count_lt h.head_lt h.tail_lt
  rw [← h.contents, Ring.contents_length]
  omega

theorem init_holds {buffer : Buffer} {size : UInt8} (hsize : 0 < size.toNat)
    (hbuffer : buffer.length = size.toNat) : HoldsBytes (circBufInit buffer size) [] where
  size_pos := hsize
  length := hbuffer
  head_lt := hsize
  tail_lt := hsize
  contents := (Ring.contents_nil _ hsize _).mpr rfl

theorem push_full (h : HoldsBytes cb q) (hfull : q.length = cb.size.toNat-1) (value : UInt8) :
    circBufPush cb value = .ok (false, cb) := by
  rw [circBufPush]
  exact if_pos ((full_iff h).mpr hfull)

theorem push_holds (h : HoldsBytes cb q) (hroom : q.length ≠ cb.size.toNat-1) (value : UInt8) :
    ∃ cb', circBufPush cb value = .ok (true, cb') ∧ cb'.size = cb.size ∧
      HoldsBytes cb' (q++[value]) := by
  have hnext : circBufIndexNext cb cb.tail ≠ cb.head := fun heq => hroom ((full_iff h).mp heq)
  have htail : cb.tail.toNat < cb.buffer.length := by
    rw [h.length]
    exact h.tail_lt
  refine ⟨{ cb with
    buffer := cb.buffer.set cb.tail.toNat value
    tail := circBufIndexNext cb cb.tail }, ?_, rfl, ?_⟩
  · simp only [circBufPush]
    rw [if_neg hnext, put, if_pos htail]
    rfl
  · constructor
    · exact h.size_pos
    · rw [List.length_set]
      exact h.length
    · exact h.head_lt
    · rw [indexNext_toNat h.tail_lt]
      exact Ring.next_lt h.size_pos _
    · dsimp only
      rw [indexNext_toNat h.tail_lt, ← h.contents]
      apply Ring.contents_push h.head_lt h.tail_lt
      · rw [← indexNext_toNat h.tail_lt]
        exact fun heq => hnext (UInt8.toNat_inj.mp heq)
      · simp [List.getD, htail]
      · intro i _ hne
        simp [List.getD, List.getElem?_set_ne (Ne.symm hne)]

theorem pop_empty (h : HoldsBytes cb []) : circBufPop cb = .ok (none, cb) := by
  rw [circBufPop, if_pos ((empty_iff h).mpr rfl)]

theorem pop_holds {b : UInt8} (h : HoldsBytes cb (b::q)) :
    ∃ cb', circBufPop cb = .ok (some b, cb') ∧ cb'.size = cb.size ∧ HoldsBytes cb' q := by
  have hne : cb.head ≠ cb.tail := fun heq => List.cons_ne_nil b q ((empty_iff h).mp heq)
  have hpop := Ring.contents_pop (fun i => cb.buffer.getD i 0) h.head_lt h.tail_lt
    (fun heq => hne (UInt8.toNat_inj.mp heq))
  rw [h.contents] at hpop
  obtain ⟨hb, hq⟩ := List.cons.inj hpop
  have hhead : cb.head.toNat < cb.buffer.length := by
    rw [h.length]
    exact h.head_lt
  refine ⟨{ cb with head := circBufIndexNext cb cb.head }, ?_, rfl, ?_⟩
  · rw [circBufPop, if_neg hne, CBuffer.get, List.getElem?_eq_getElem hhead, hb,
      List.getD_eq_getElem _ _ hhead]
    rfl
  · constructor
    · exact h.size_pos
    · exact h.length
    · rw [indexNext_toNat h.head_lt]
      exact Ring.next_lt h.size_pos _
    · exact h.tail_lt
    · dsimp only
      rw [indexNext_toNat h.head_lt, ← hq]

/-- The last byte, where the ring is not empty. -/
theorem last_eq (h : HoldsBytes cb q) (hne : q ≠ []) :
    q = Ring.contents (fun i => cb.buffer.getD i 0) cb.size.toNat cb.head.toNat
      (circBufIndexPrev cb cb.tail).toNat++
        [cb.buffer.getD (circBufIndexPrev cb cb.tail).toNat 0] := by
  have hends : cb.head.toNat ≠ cb.tail.toNat := fun heq =>
    hne ((empty_iff h).mp (UInt8.toNat_inj.mp heq))
  rw [indexPrev_toNat h.size_pos, ← Ring.contents_unpush _ h.head_lt h.tail_lt hends, h.contents]

theorem unpush_empty (h : HoldsBytes cb []) : circBufUnpush cb = (false, cb) := by
  rw [circBufUnpush, if_pos ((empty_iff h).mpr rfl)]

theorem unpush_holds (h : HoldsBytes cb q) (hne : q ≠ []) :
    ∃ cb', circBufUnpush cb = (true, cb') ∧ cb'.size = cb.size ∧ HoldsBytes cb' q.dropLast := by
  have hends : cb.head ≠ cb.tail := fun heq => hne ((empty_iff h).mp heq)
  refine ⟨{ cb with tail := circBufIndexPrev cb cb.tail }, by rw [circBufUnpush, if_neg hends],
    rfl, ?_⟩
  constructor
  · exact h.size_pos
  · exact h.length
  · exact h.head_lt
  · rw [indexPrev_toNat h.size_pos]
    exact Ring.prev_lt h.size_pos h.tail_lt
  · dsimp only
    rw [last_eq h hne, List.dropLast_concat]

theorem tailPeek_holds (h : HoldsBytes cb q) : circBufTailPeek cb = .ok q.getLast? := by
  by_cases hne : q = []
  · rw [circBufTailPeek, if_pos ((empty_iff h).mpr hne), hne]
    rfl
  · have hends : cb.head ≠ cb.tail := fun heq => hne ((empty_iff h).mp heq)
    have hlast : (circBufIndexPrev cb cb.tail).toNat < cb.buffer.length := by
      rw [indexPrev_toNat h.size_pos, h.length]
      exact Ring.prev_lt h.size_pos h.tail_lt
    rw [circBufTailPeek, if_neg hends, CBuffer.get, List.getElem?_eq_getElem hlast, last_eq h hne,
      List.getLast?_concat, List.getD_eq_getElem _ _ hlast]
    rfl

end Steps

/-! ### Runs -/

inductive CircBufCall
  | push (value : UInt8)
  | pop
  | unpush
  | tailPeek

inductive CircBufAnswer
  | done (success : Bool)
  | byte (value : Option UInt8)
  deriving DecidableEq

def CircBufCall.run (cb : CircBuf) : CircBufCall → Except Trap (CircBufAnswer × CircBuf)
  | .push value => do
      let r ← circBufPush cb value
      .ok (.done r.1, r.2)
  | .pop => do
      let r ← circBufPop cb
      .ok (.byte r.1, r.2)
  | .unpush => .ok (.done (circBufUnpush cb).1, (circBufUnpush cb).2)
  | .tailPeek => do
      let value ← circBufTailPeek cb
      .ok (.byte value, cb)

def runCalls : List CircBufCall → CircBuf → Except Trap (List CircBufAnswer × CircBuf)
  | [], cb => .ok ([], cb)
  | call::calls, cb => do
      let r ← call.run cb
      let rest ← runCalls calls r.2
      .ok (r.1::rest.1, rest.2)

/-- What a list of at most `capacity` bytes answers, and the list after it. -/
def CircBufCall.deque (capacity : ℕ) (q : List UInt8) : CircBufCall → CircBufAnswer × List UInt8
  | .push value => if q.length < capacity then (.done true, q++[value]) else (.done false, q)
  | .pop => (.byte q.head?, q.tail)
  | .unpush => (.done (decide (q ≠ [])), q.dropLast)
  | .tailPeek => (.byte q.getLast?, q)

def dequeRun (capacity : ℕ) : List CircBufCall → List UInt8 → List CircBufAnswer × List UInt8
  | [], q => ([], q)
  | call::calls, q =>
      let r := call.deque capacity q
      let rest := dequeRun capacity calls r.2
      (r.1::rest.1, rest.2)

theorem call_deque {cb : CircBuf} {q : List UInt8} (h : HoldsBytes cb q) (call : CircBufCall) :
    ∃ cb', call.run cb = .ok ((call.deque (cb.size.toNat-1) q).1, cb') ∧ cb'.size = cb.size ∧
      HoldsBytes cb' (call.deque (cb.size.toNat-1) q).2 := by
  cases call with
  | push value =>
    have hle := length_le h
    rw [CircBufCall.deque, CircBufCall.run]
    by_cases hfull : q.length = cb.size.toNat-1
    · rw [if_neg (by omega), push_full h hfull]
      exact ⟨cb, rfl, rfl, h⟩
    · obtain ⟨cb', hpush, hsize, hholds⟩ := push_holds h hfull value
      rw [if_pos (by omega), hpush]
      exact ⟨cb', rfl, hsize, hholds⟩
  | pop =>
    rw [CircBufCall.deque, CircBufCall.run]
    cases q with
    | nil =>
      rw [pop_empty h]
      exact ⟨cb, rfl, rfl, h⟩
    | cons b q =>
      obtain ⟨cb', hpop, hsize, hholds⟩ := pop_holds h
      rw [hpop]
      exact ⟨cb', rfl, hsize, hholds⟩
  | unpush =>
    rw [CircBufCall.deque, CircBufCall.run]
    by_cases hne : q = []
    · subst hne
      rw [unpush_empty h]
      exact ⟨cb, rfl, rfl, h⟩
    · obtain ⟨cb', hunpush, hsize, hholds⟩ := unpush_holds h hne
      rw [hunpush, decide_eq_true hne]
      exact ⟨cb', rfl, hsize, hholds⟩
  | tailPeek =>
    rw [CircBufCall.deque, CircBufCall.run, tailPeek_holds h]
    exact ⟨cb, rfl, rfl, h⟩

theorem run_deque (calls : List CircBufCall) {cb : CircBuf} {q : List UInt8}
    (h : HoldsBytes cb q) :
    ∃ cb', runCalls calls cb = .ok ((dequeRun (cb.size.toNat-1) calls q).1, cb') ∧
      HoldsBytes cb' (dequeRun (cb.size.toNat-1) calls q).2 := by
  induction calls generalizing cb q with
  | nil => exact ⟨cb, rfl, h⟩
  | cons call calls ih =>
    obtain ⟨cb₁, hrun, hsize, hholds⟩ := call_deque h call
    obtain ⟨cb', hrest, hholds'⟩ := ih hholds
    rw [hsize] at hrest hholds'
    refine ⟨cb', ?_, hholds'⟩
    rw [runCalls, hrun]
    change (runCalls calls cb₁ >>= _) = _
    rw [hrest]
    rfl

/-- From its start on, the buffer answers as a list of at most one byte less than its
size does. No access is outside its cells. -/
theorem circBuf_isDeque (size : UInt8) (buffer : Buffer) (hsize : 0 < size.toNat)
    (hbuffer : buffer.length = size.toNat) (calls : List CircBufCall) :
    ∃ cb, runCalls calls (circBufInit buffer size) =
        .ok ((dequeRun (size.toNat-1) calls []).1, cb) ∧
      HoldsBytes cb (dequeRun (size.toNat-1) calls []).2 :=
  run_deque calls (init_holds hsize hbuffer)

theorem circBuf_isDeque_one :
    ∃ cb, runCalls [.push 7, .pop] (circBufInit [0] 1) = .ok ([.done false, .byte none], cb) ∧
      HoldsBytes cb [] :=
  circBuf_isDeque 1 [0] (by decide) rfl [.push 7, .pop]

end ArduinoOS.Hardware.Terminal
