import ArduinoOS.Hardware.CircBuf
import ArduinoOS.Hardware.Pins

/-!
# The terminal

Bytes that arrive go into a circular buffer, and the lines and ends of file among
them are counted. A backspace takes the last byte back.
-/

set_option autoImplicit false

namespace ArduinoOS.Hardware.Terminal
open ArduinoOS.CBuffer

def TtyPinTX0 : ℕ := 32
def TtyPinRX0 : ℕ := 33
def TtyFlagEcho : UInt8 := 1
def TtyFlagBlocking : UInt8 := 2
def TtyFlagBreak : UInt8 := 4
def ttyCircBufSize : UInt8 := 64

/-- The variables of the terminal, and what it has written to the screen. -/
structure Tty where
  ttyFlags : UInt8
  ttyCircBuf : CircBuf
  ttyCircBufActivityCount : UInt8
  screen : List UInt8

/-- The pins of the serial port are reserved; `none` when one is in use. -/
def ttyInit (buffer : Buffer) (screen : List UInt8) (p : Pins) : Option Tty × Pins :=
  let tx := pinGrab TtyPinTX0 p
  if tx.1 = false then (none, tx.2)
  else
    let rx := pinGrab TtyPinRX0 tx.2
    if rx.1 = false then (none, rx.2)
    else (some ⟨TtyFlagEcho ||| TtyFlagBlocking, circBufInit buffer ttyCircBufSize, 0, screen⟩, rx.2)

section Calls

variable (t : Tty)

def ttyGetBlocking : Bool := t.ttyFlags &&& TtyFlagBlocking != 0

def ttyGetEcho : Bool := t.ttyFlags &&& TtyFlagEcho != 0

def ttySetBlocking (blocking : Bool) : Tty :=
  if blocking then { t with ttyFlags := t.ttyFlags ||| TtyFlagBlocking }
  else { t with ttyFlags := t.ttyFlags &&& ~~~TtyFlagBlocking }

def ttySetEcho (echo : Bool) : Tty :=
  if echo then { t with ttyFlags := t.ttyFlags ||| TtyFlagEcho }
  else { t with ttyFlags := t.ttyFlags &&& ~~~TtyFlagEcho }

/-- The bytes given to the screen, which are fewer than 65536 here. -/
def ttyWriteFunctor (data : List UInt8) : Tty := { t with screen := t.screen++data }

def ttyCanReadFunctor : Bool :=
  if t.ttyCircBufActivityCount > 0 then true
  else if ttyGetBlocking t then false
  else !circBufIsEmpty t.ttyCircBuf

def ttyReadFunctor : Except Trap (ℤ × Tty) :=
  if ttyCanReadFunctor t then do
    let r ← circBufPop t.ttyCircBuf
    match r.1 with
    | none => .ok (-1, t)
    | some value =>
        let t := { t with ttyCircBuf := r.2 }
        let t := if value = 10 then
          { t with ttyCircBufActivityCount := t.ttyCircBufActivityCount-1 } else t
        if value = 4 then
          .ok (-1, { t with ttyCircBufActivityCount := t.ttyCircBufActivityCount-1 })
        else .ok (value.toNat, t)
  else .ok (-1, t)

/-- A byte that is not a control character. -/
def ttyHandleStandard (value : UInt8) : Except Trap (Bool × Tty) := do
  let value := if value = 13 then 10 else value
  let r ← circBufPush t.ttyCircBuf value
  if r.1 = false then .ok (false, t)
  else
    let t := { t with ttyCircBuf := r.2 }
    let t := if value = 10 ∨ value = 4 then
      { t with ttyCircBufActivityCount := t.ttyCircBufActivityCount+1 } else t
    .ok (true, if ttyGetEcho t ∧ value ≠ 4 then ttyWriteFunctor t [value] else t)

def ttyHandleBackspace : Except Trap Tty := do
  let tailValue ← circBufTailPeek t.ttyCircBuf
  match tailValue with
  | none => .ok t
  | some tailValue =>
      if tailValue = 10 then .ok t
      else
        let r := circBufUnpush t.ttyCircBuf
        if r.1 = false then .ok t
        else
          let t := { t with ttyCircBuf := r.2 }
          .ok (if ttyGetEcho t then ttyWriteFunctor t [8, 32, 8] else t)

def ttyHandleByte (value : UInt8) : Except Trap (Bool × Tty) :=
  if value = 3 then .ok (true, { t with ttyFlags := t.ttyFlags ||| TtyFlagBreak })
  else if value = 127 then do
    let t ← ttyHandleBackspace t
    .ok (true, t)
  else ttyHandleStandard t value

end Calls

/-! ### Runs -/

inductive TtyCall
  | handleByte (value : UInt8)
  | read
  | setBlocking (blocking : Bool)
  | setEcho (echo : Bool)

def TtyCall.run (t : Tty) : TtyCall → Except Trap Tty
  | .handleByte value => (ttyHandleByte t value).map Prod.snd
  | .read => (ttyReadFunctor t).map Prod.snd
  | .setBlocking blocking => .ok (ttySetBlocking t blocking)
  | .setEcho echo => .ok (ttySetEcho t echo)

def runTty : List TtyCall → Tty → Except Trap Tty
  | [], t => .ok t
  | call::calls, t => do
      let t ← call.run t
      runTty calls t

/-! ### What the counter counts -/

def IsLineEnd (b : UInt8) : Prop := b = 10 ∨ b = 4

instance (b : UInt8) : Decidable (IsLineEnd b) := inferInstanceAs (Decidable (_ ∨ _))

/-- The lines and ends of file among the bytes. -/
def lineEnds (q : List UInt8) : ℕ := q.countP (fun b => decide (IsLineEnd b))

/-- The counter is the number of the newlines and ends of file in the buffer, and in
blocking mode a read is possible exactly when there is one. -/
def LineReady (t : Tty) (q : List UInt8) : Prop :=
  t.ttyCircBufActivityCount.toNat = lineEnds q ∧
    (ttyGetBlocking t = true → (ttyCanReadFunctor t = true ↔ ∃ b ∈ q, IsLineEnd b))

/-- The byte that the call takes back is not an end of file. -/
def TtyCall.keeps (q : List UInt8) : TtyCall → Prop
  | .handleByte value => value = 127 → q.getLast? ≠ some 4
  | _ => True

/-- The bytes in the buffer of the terminal. -/
def Waiting (t : Tty) (q : List UInt8) : Prop :=
  t.ttyCircBuf.size = ttyCircBufSize ∧ HoldsBytes t.ttyCircBuf q

def ttyBytes (t : Tty) : List UInt8 :=
  Ring.contents (fun i => t.ttyCircBuf.buffer.getD i 0) t.ttyCircBuf.size.toNat
    t.ttyCircBuf.head.toNat t.ttyCircBuf.tail.toNat

theorem lineEnds_append (q : List UInt8) (b : UInt8) :
    lineEnds (q++[b]) = lineEnds q+(if IsLineEnd b then 1 else 0) := by
  rw [lineEnds, List.countP_append]
  by_cases hb : IsLineEnd b <;> simp [lineEnds, hb]

theorem lineEnds_cons (b : UInt8) (q : List UInt8) :
    lineEnds (b::q) = lineEnds q+(if IsLineEnd b then 1 else 0) := by
  rw [lineEnds, List.countP_cons]
  by_cases hb : IsLineEnd b <;> simp [lineEnds, hb]

theorem lineEnds_le (q : List UInt8) : lineEnds q ≤ q.length := List.countP_le_length

theorem lineEnds_pos (q : List UInt8) : 0 < lineEnds q ↔ ∃ b ∈ q, IsLineEnd b := by
  rw [lineEnds, List.countP_pos_iff]
  simp

/-! ### Steps -/

/-- What a call does to the bytes in the buffer and to the counter. -/
inductive Moves (call : TtyCall) (q : List UInt8) (count : UInt8) : List UInt8 → UInt8 → Prop
  | same (hkeeps : call.keeps q) : Moves call q count q count
  | pushed (hkeeps : call.keeps q) (b : UInt8) :
      Moves call q count (q++[b]) (if IsLineEnd b then count+1 else count)
  | popped {q' : List UInt8} (hkeeps : call.keeps q) (b : UInt8) (hq : q = b::q') :
      Moves call q count q' (if IsLineEnd b then count-1 else count)
  | takenBack {q' : List UInt8} (b : UInt8) (hq : q = q'++[b]) (hb : b ≠ 10)
      (hcall : call = .handleByte 127) : Moves call q count q' count

section Steps

variable {t : Tty} {q : List UInt8}

theorem waiting_bytes (h : Waiting t q) : ttyBytes t = q := h.2.contents

theorem waiting_length (h : Waiting t q) : q.length ≤ 63 := by
  have hle := length_le h.2
  rwa [h.1] at hle

theorem read_moves (h : Waiting t q) : ∃ t' q', TtyCall.read.run t = .ok t' ∧ Waiting t' q' ∧
    Moves .read q t.ttyCircBufActivityCount q' t'.ttyCircBufActivityCount := by
  rw [TtyCall.run, ttyReadFunctor]
  by_cases hcan : ttyCanReadFunctor t = true
  · rw [if_pos hcan]
    cases q with
    | nil =>
      rw [pop_empty h.2]
      exact ⟨t, [], rfl, h, .same trivial⟩
    | cons b q =>
      obtain ⟨cb, hpop, hsize, hholds⟩ := pop_holds h.2
      have hwaiting : cb.size = ttyCircBufSize ∧ HoldsBytes cb q := ⟨hsize.trans h.1, hholds⟩
      have hmoves : Moves .read (b::q) t.ttyCircBufActivityCount q
          (if IsLineEnd b then t.ttyCircBufActivityCount-1 else t.ttyCircBufActivityCount) :=
        .popped (show TtyCall.keeps (b::q) .read from trivial) b rfl
      rw [hpop]
      by_cases hline : b = 10
      · rw [if_pos (.inl hline)] at hmoves
        subst hline
        exact ⟨_, q, rfl, hwaiting, hmoves⟩
      · by_cases heof : b = 4
        · rw [if_pos (.inr heof)] at hmoves
          subst heof
          exact ⟨_, q, rfl, hwaiting, hmoves⟩
        · rw [if_neg (fun hend => hend.elim hline heof)] at hmoves
          refine ⟨{ t with ttyCircBuf := cb }, q, ?_, hwaiting, hmoves⟩
          change Except.map Prod.snd (if b = 4 then _ else _) = _
          rw [if_neg heof, if_neg hline]
          rfl
  · rw [if_neg hcan]
    exact ⟨t, q, rfl, h, .same trivial⟩

theorem standard_moves (h : Waiting t q) (value : UInt8) {call : TtyCall} (hkeeps : call.keeps q) :
    ∃ r t' q', ttyHandleStandard t value = .ok (r, t') ∧ Waiting t' q' ∧
      Moves call q t.ttyCircBufActivityCount q' t'.ttyCircBufActivityCount := by
  rw [ttyHandleStandard]
  generalize hbyte : (if value = 13 then (10 : UInt8) else value) = b
  by_cases hfull : q.length = t.ttyCircBuf.size.toNat-1
  · rw [push_full h.2 hfull]
    exact ⟨false, t, q, rfl, h, .same hkeeps⟩
  · obtain ⟨cb, hpush, hsize, hholds⟩ := push_holds h.2 hfull b
    have hwaiting : cb.size = ttyCircBufSize ∧ HoldsBytes cb (q++[b]) := ⟨hsize.trans h.1, hholds⟩
    have hmoves : Moves call q t.ttyCircBufActivityCount (q++[b])
        (if IsLineEnd b then t.ttyCircBufActivityCount+1 else t.ttyCircBufActivityCount) :=
      .pushed hkeeps b
    have hwrite : ∀ (t' : Tty) (c : Prop) [Decidable c],
        (if c then ttyWriteFunctor t' [b] else t').ttyCircBuf = t'.ttyCircBuf ∧
        (if c then ttyWriteFunctor t' [b] else t').ttyCircBufActivityCount =
          t'.ttyCircBufActivityCount := by
      intro t' c _
      split <;> exact ⟨rfl, rfl⟩
    rw [hpush]
    refine ⟨true, _, q++[b], rfl, ?_, ?_⟩
    · rw [Waiting, (hwrite _ _).1]
      by_cases hend : b = 10 ∨ b = 4
      · rw [if_pos hend]
        exact hwaiting
      · rw [if_neg hend]
        exact hwaiting
    · rw [(hwrite _ _).2]
      by_cases hend : IsLineEnd b
      · rw [if_pos hend] at hmoves
        rw [if_pos (show b = 10 ∨ b = 4 from hend)]
        exact hmoves
      · rw [if_neg hend] at hmoves
        rw [if_neg (show ¬ (b = 10 ∨ b = 4) from hend)]
        exact hmoves

theorem backspace_moves (h : Waiting t q) :
    ∃ t' q', ttyHandleBackspace t = .ok t' ∧ Waiting t' q' ∧
      Moves (.handleByte 127) q t.ttyCircBufActivityCount q' t'.ttyCircBufActivityCount := by
  rw [ttyHandleBackspace, tailPeek_holds h.2]
  rcases List.eq_nil_or_concat q with rfl | ⟨q', b, rfl⟩
  · exact ⟨t, [], rfl, h, .same (by simp [TtyCall.keeps])⟩
  · rw [List.concat_eq_append] at h ⊢
    rw [List.getLast?_concat]
    by_cases hline : b = 10
    · refine ⟨t, q'++[b], ?_, h, .same (by simp [TtyCall.keeps, hline])⟩
      change (if b = 10 then _ else _) = _
      rw [if_pos hline]
    · obtain ⟨cb, hunpush, hsize, hholds⟩ := unpush_holds h.2 (by simp)
      rw [List.dropLast_concat] at hholds
      have hwaiting : cb.size = ttyCircBufSize ∧ HoldsBytes cb q' := ⟨hsize.trans h.1, hholds⟩
      have hmoves : Moves (.handleByte 127) (q'++[b]) t.ttyCircBufActivityCount q'
          t.ttyCircBufActivityCount := .takenBack b rfl hline rfl
      have hrun : (if b = 10 then Except.ok t else
          let r := circBufUnpush t.ttyCircBuf
          if r.1 = false then .ok t
          else
            let t := { t with ttyCircBuf := r.2 }
            .ok (if ttyGetEcho t then ttyWriteFunctor t [8, 32, 8] else t)) =
          (Except.ok (if ttyGetEcho { t with ttyCircBuf := cb } then
            ttyWriteFunctor { t with ttyCircBuf := cb } [8, 32, 8]
            else { t with ttyCircBuf := cb }) : Except Trap Tty) := by
        rw [if_neg hline, hunpush]
        rfl
      refine ⟨_, q', hrun, ?_, ?_⟩
      · split <;> exact hwaiting
      · split <;> exact hmoves

theorem call_moves (h : Waiting t q) (call : TtyCall) : ∃ t' q', call.run t = .ok t' ∧
    Waiting t' q' ∧ Moves call q t.ttyCircBufActivityCount q' t'.ttyCircBufActivityCount := by
  cases call with
  | handleByte value =>
    rw [TtyCall.run, ttyHandleByte]
    by_cases hbreak : value = 3
    · rw [if_pos hbreak]
      exact ⟨_, q, rfl, h, .same (fun hvalue => absurd hbreak (by rw [hvalue]; decide))⟩
    · rw [if_neg hbreak]
      by_cases hback : value = 127
      · subst hback
        obtain ⟨t', q', hrun, hwaiting, hmoves⟩ := backspace_moves h
        rw [if_pos rfl, hrun]
        exact ⟨t', q', rfl, hwaiting, hmoves⟩
      · have hkeeps : (TtyCall.handleByte value).keeps q := fun hvalue => absurd hvalue hback
        obtain ⟨r, t', q', hrun, hwaiting, hmoves⟩ := standard_moves h value hkeeps
        rw [if_neg hback, hrun]
        exact ⟨t', q', rfl, hwaiting, hmoves⟩
  | read => exact read_moves h
  | setBlocking blocking =>
    refine ⟨_, q, rfl, ?_, ?_⟩
    · rw [ttySetBlocking]
      split <;> exact h
    · rw [ttySetBlocking]
      split <;> exact .same trivial
  | setEcho echo =>
    refine ⟨_, q, rfl, ?_, ?_⟩
    · rw [ttySetEcho]
      split <;> exact h
    · rw [ttySetEcho]
      split <;> exact .same trivial

/-- The counter stays right unless an end of file is taken back. -/
theorem moves_counted {call : TtyCall} {q' : List UInt8} {count count' : UInt8}
    (hmoves : Moves call q count q' count') (hlength : q.length ≤ 63)
    (hcount : count.toNat = lineEnds q) : count'.toNat = lineEnds q' ↔ call.keeps q := by
  have hle := lineEnds_le q
  cases hmoves with
  | same hkeeps => exact iff_of_true hcount hkeeps
  | pushed hkeeps b =>
    apply iff_of_true _ hkeeps
    rw [lineEnds_append]
    by_cases hb : IsLineEnd b
    · rw [if_pos hb, if_pos hb, UInt8.toNat_add, hcount]
      simp only [UInt8.toNat_ofNat]
      omega
    · rw [if_neg hb, if_neg hb, hcount]
      rfl
  | popped hkeeps b hq =>
    apply iff_of_true _ hkeeps
    rw [hq, lineEnds_cons] at hcount
    by_cases hb : IsLineEnd b
    · rw [if_pos hb] at hcount ⊢
      rw [UInt8.toNat_sub_of_le, hcount]
      · rfl
      · rw [UInt8.le_iff_toNat_le, hcount]
        exact Nat.le_add_left _ _
    · rw [if_neg hb] at hcount ⊢
      exact hcount
  | takenBack b hq hb hcall =>
    rw [hq, lineEnds_append] at hcount
    rw [hcount, hcall, TtyCall.keeps, hq, List.getLast?_concat]
    by_cases heof : b = 4
    · rw [if_pos (.inr heof), heof]
      exact iff_of_false (by omega) (by simp)
    · rw [if_neg (fun hend => hend.elim hb heof)]
      exact iff_of_true rfl (by simpa using heof)

theorem ready_of_count (hcount : t.ttyCircBufActivityCount.toNat = lineEnds q) :
    LineReady t q := by
  refine ⟨hcount, fun hblocking => ?_⟩
  rw [← lineEnds_pos, ← hcount, ttyCanReadFunctor]
  have hpos : t.ttyCircBufActivityCount > 0 ↔ 0 < t.ttyCircBufActivityCount.toNat :=
    UInt8.lt_iff_toNat_lt
  by_cases hzero : t.ttyCircBufActivityCount > 0
  · rw [if_pos hzero]
    exact iff_of_true rfl (hpos.mp hzero)
  · rw [if_neg hzero, if_pos hblocking]
    exact iff_of_false (by simp) (fun hlive => hzero (hpos.mpr hlive))

end Steps

/-! ### Runs from the start -/

theorem runTty_append (calls calls' : List TtyCall) (t : Tty) :
    runTty (calls++calls') t = runTty calls t >>= runTty calls' := by
  induction calls generalizing t with
  | nil => rfl
  | cons call calls ih =>
    rw [List.cons_append, runTty, runTty]
    cases call.run t with
    | error e => rfl
    | ok t' => exact ih t'

theorem runTty_waiting (calls : List TtyCall) {t : Tty} {q : List UInt8} (h : Waiting t q) :
    ∃ t' q', runTty calls t = .ok t' ∧ Waiting t' q' := by
  induction calls generalizing t q with
  | nil => exact ⟨t, q, rfl, h⟩
  | cons call calls ih =>
    obtain ⟨t₁, q₁, hrun, hwaiting, -⟩ := call_moves h call
    obtain ⟨t', q', hrest, hwaiting'⟩ := ih hwaiting
    refine ⟨t', q', ?_, hwaiting'⟩
    rw [runTty, hrun]
    exact hrest

theorem ttyInit_waiting {buffer : Buffer} (hbuffer : buffer.length = ttyCircBufSize.toNat)
    {screen : List UInt8} {p p' : Pins} {t : Tty} (hinit : ttyInit buffer screen p = (some t, p')) :
    Waiting t [] ∧ t.ttyCircBufActivityCount = 0 := by
  have ht : t = ⟨TtyFlagEcho ||| TtyFlagBlocking, circBufInit buffer ttyCircBufSize, 0, screen⟩ := by
    rw [ttyInit] at hinit
    dsimp only at hinit
    split_ifs at hinit
    · cases hinit
    · cases hinit
    · cases hinit
      rfl
  rw [ht]
  exact ⟨⟨rfl, init_holds (by decide) hbuffer⟩, rfl⟩

/-- From the start of the terminal on, no call fails, and the counter is right in every
state reached exactly when no backspace takes back an end of file. -/
theorem lineReady_iff (buffer : Buffer) (hbuffer : buffer.length = ttyCircBufSize.toNat)
    (screen : List UInt8) (p p' : Pins) (t : Tty) (hinit : ttyInit buffer screen p = (some t, p'))
    (calls : List TtyCall) :
    (∃ t', runTty calls t = .ok t') ∧
    ((∀ n t', runTty (calls.take n) t = .ok t' → LineReady t' (ttyBytes t')) ↔
      ∀ n t' call, runTty (calls.take n) t = .ok t' → calls[n]? = some call →
        call.keeps (ttyBytes t')) := by
  obtain ⟨hstart, hzero⟩ := ttyInit_waiting hbuffer hinit
  obtain ⟨t', q', hend, -⟩ := runTty_waiting calls hstart
  refine ⟨⟨t', hend⟩, ?_⟩
  -- the state after one more call
  have hstep : ∀ n call, calls[n]? = some call → ∀ t₁, runTty (calls.take n) t = .ok t₁ →
      ∃ t₂ q₁ q₂, runTty (calls.take (n+1)) t = .ok t₂ ∧ Waiting t₁ q₁ ∧ Waiting t₂ q₂ ∧
        Moves call q₁ t₁.ttyCircBufActivityCount q₂ t₂.ttyCircBufActivityCount := by
    intro n call hcall t₁ hrun
    obtain ⟨t₀, q₁, hrun', hwaiting⟩ := runTty_waiting (calls.take n) hstart
    cases hrun.symm.trans hrun'
    obtain ⟨t₂, q₂, hcallrun, hwaiting', hmoves⟩ := call_moves hwaiting call
    refine ⟨t₂, q₁, q₂, ?_, hwaiting, hwaiting', hmoves⟩
    rw [List.take_add_one, hcall, runTty_append, hrun]
    change runTty [call] t₁ = _
    rw [runTty, hcallrun]
    rfl
  constructor
  · intro hready n t₁ call hrun hcall
    obtain ⟨t₂, q₁, q₂, hrun', hwaiting, hwaiting', hmoves⟩ := hstep n call hcall t₁ hrun
    have hbefore := (hready n t₁ hrun).1
    have hafter := (hready (n+1) t₂ hrun').1
    rw [waiting_bytes hwaiting] at hbefore ⊢
    rw [waiting_bytes hwaiting'] at hafter
    exact (moves_counted hmoves (waiting_length hwaiting) hbefore).mp hafter
  · intro hkeeps n
    induction n with
    | zero =>
      intro t₁ hrun
      cases hrun
      rw [waiting_bytes hstart]
      exact ready_of_count (by rw [hzero]; rfl)
    | succ n ih =>
      intro t₂ hrun'
      cases hcall : calls[n]? with
      | none =>
        apply ih
        have hlen := List.getElem?_eq_none_iff.mp hcall
        rw [List.take_of_length_le (by omega)] at hrun' ⊢
        exact hrun'
      | some call =>
        obtain ⟨t₁, q₁, hrun, -⟩ := runTty_waiting (calls.take n) hstart
        obtain ⟨t₃, q₁, q₂, hrun'', hwaiting, hwaiting', hmoves⟩ := hstep n call hcall t₁ hrun
        cases hrun'.symm.trans hrun''
        have hbefore := (ih t₁ hrun).1
        have hkept := hkeeps n t₁ call hrun hcall
        rw [waiting_bytes hwaiting] at hbefore hkept
        rw [waiting_bytes hwaiting']
        exact ready_of_count
          ((moves_counted hmoves (waiting_length hwaiting) hbefore).mpr hkept)

def freePins : Pins := ⟨fun _ => 0, fun _ => false, fun _ => .input⟩

def ttyStart : Tty :=
  ⟨TtyFlagEcho ||| TtyFlagBlocking, circBufInit (List.replicate 64 0) ttyCircBufSize, 0, []⟩

theorem ttyInit_start : (ttyInit (List.replicate 64 0) [] freePins).1 = some ttyStart := rfl

theorem lineReady_start :
    (∃ t', runTty [.handleByte 104, .handleByte 10, .read] ttyStart = .ok t') ∧
    ((∀ n t', runTty ([TtyCall.handleByte 104, .handleByte 10, .read].take n) ttyStart = .ok t' →
        LineReady t' (ttyBytes t')) ↔
      ∀ n t' call, runTty ([TtyCall.handleByte 104, .handleByte 10, .read].take n) ttyStart =
          .ok t' → [TtyCall.handleByte 104, .handleByte 10, .read][n]? = some call →
        call.keeps (ttyBytes t')) :=
  lineReady_iff (List.replicate 64 0) rfl [] freePins _ ttyStart (Prod.ext ttyInit_start rfl)
    [.handleByte 104, .handleByte 10, .read]

/-- An end of file that is taken back is still counted: in blocking mode a read is
possible although nothing is waiting. -/
theorem eof_taken_back : (ttyInit (List.replicate 64 0) [] freePins).1 = some ttyStart ∧
    ∃ t', runTty [.handleByte 4, .handleByte 127] ttyStart = .ok t' ∧ ttyBytes t' = [] ∧
      t'.ttyCircBufActivityCount = 1 ∧ ttyGetBlocking t' = true ∧ ttyCanReadFunctor t' = true ∧
      ¬ LineReady t' (ttyBytes t') := by
  refine ⟨rfl, _, rfl, rfl, rfl, rfl, rfl, ?_⟩
  rintro ⟨hcount, -⟩
  exact absurd hcount (by decide)

end ArduinoOS.Hardware.Terminal
