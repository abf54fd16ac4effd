import ArduinoOS.Emulator.Accesses
import ArduinoOS.Procman.ProcessMemory

/-!
# The kernel and the emulator

One instruction on both machines, from the same state. Both go on or both stop,
with the same registers and memory, unless a stack instruction or an exchange
writes into the program, a store changes the program, a register is popped
through itself, or the instruction is unknown.
-/

set_option autoImplicit false

namespace ArduinoOS.Emulator
open ArduinoOS.Faulting ArduinoOS.Kernel ArduinoOS.Minifs ArduinoOS.Procman

section Steps

variable {φ : Type} (F : Files φ) (sys : Syscall φ) (sys' : Process → Bool × Process)

/-- The next instruction under the kernel. -/
def kernelStep (pid : ℕ) (t : Running φ) : ProcManRun φ (Bool × Running φ) := do
  let r ← procManProcessGetInstruction F pid t
  match r.1 with
  | none => pure (false, r.2)
  | some instruction => procManProcessExecInstruction F sys pid r.2 instruction

/-- What is left of a step after the instruction. -/
def finish (r : Bool × Process) : Option (Bool × Process) :=
  if r.1 then processRunDown sys' r.2.skipCounter r.2.countUp else some r

theorem processStep_eq {p : Process} (h : p.skipCounter = 0) :
    processStep p sys' = (processExec (processFetch p).2 sys'
      (bytecodeInstructionParse (processFetch p).1)).bind (finish sys') := by
  have hcount : ¬(processFetch p).2.skipCounter > 0 := by
    rw [processFetch_skipCounter, h]
    omega
  rw [processStep, processRunNextInstruction, if_neg hcount]
  cases processExec (processFetch p).2 sys' (bytecodeInstructionParse (processFetch p).1) with
  | none => rfl
  | some r =>
    obtain ⟨b, p'⟩ := r
    cases b <;> rfl

end Steps

/-- All bytes that the instruction reads, writes or skips are mapped. -/
def Mapped (D : ℕ → Prop) (m : MemoryImage) (p : Process) : BytecodeInstructionInfo → Prop
  | .memory .store8 destReg _ _ => WriteMapped D m (p.regs destReg) 1
  | .memory .load8 _ srcReg _ => ReadMapped D m (p.regs srcReg) 1
  | .alu .skip destReg opAReg opBReg =>
    (p.regs destReg).toNat/2^opAReg.val%2 = 1 → Fetchable D (opBReg.val+1) p
  | .alu .extra destReg opAReg opBReg =>
    match bytecodeAluExtraType opBReg with
    | .store16 | .push16 => WriteMapped D m (p.regs destReg) 2
    | .load16 => ReadMapped D m (p.regs opAReg) 2
    | .pop16 => ReadMapped D m (p.regs opAReg-2) 2
    | .call => WriteMapped D m (p.regs opAReg) 2
    | .xchg8 => ReadMapped D m (p.regs destReg) 1 ∧ WriteMapped D m (p.regs destReg) 1
    | .not | .clz => True
  | _ => True

/-- When the machines agree: what is written is outside the program, or already
there if it is stored; no register is popped through itself. -/
def Agreeable (p : Process) : BytecodeInstructionInfo → Prop
  | .memory .store8 destReg srcReg _ =>
    BytecodeMemoryRamAddr ≤ (p.regs destReg).toNat ∨
      p.memory (p.regs destReg).toNat = (p.regs srcReg).toUInt8
  | .alu .extra destReg opAReg opBReg =>
    match bytecodeAluExtraType opBReg with
    | .store16 => BytecodeMemoryRamAddr ≤ (p.regs destReg).toNat ∨
        (p.memory (p.regs destReg).toNat = upperByte (p.regs opAReg) ∧
          p.memory ((p.regs destReg).toNat+1) = lowerByte (p.regs opAReg))
    | .push16 | .xchg8 => BytecodeMemoryRamAddr ≤ (p.regs destReg).toNat
    | .call => BytecodeMemoryRamAddr ≤ (p.regs opAReg).toNat
    | .pop16 => destReg ≠ opAReg
    | .not | .load16 | .clz => True
  | .alu .unknown _ _ _ => False
  | .misc .unassigned | .misc .unknown => False
  | _ => True

theorem agreeable_store8 {p : Process} {destReg srcReg : Fin 8} {set4Value : UInt16} :
    Agreeable p (.memory .store8 destReg srcReg set4Value) ↔
      BytecodeMemoryRamAddr ≤ (p.regs destReg).toNat ∨
        p.memory (p.regs destReg).toNat = (p.regs srcReg).toUInt8 := Iff.rfl

theorem agreeable_extra {p : Process} {destReg opAReg opBReg : Fin 8}
    {type : BytecodeInstructionAluExtraType} : bytecodeAluExtraType opBReg = type →
    (Agreeable p (.alu .extra destReg opAReg opBReg) ↔
      match type with
      | .store16 => BytecodeMemoryRamAddr ≤ (p.regs destReg).toNat ∨
          (p.memory (p.regs destReg).toNat = upperByte (p.regs opAReg) ∧
            p.memory ((p.regs destReg).toNat+1) = lowerByte (p.regs opAReg))
      | .push16 | .xchg8 => BytecodeMemoryRamAddr ≤ (p.regs destReg).toNat
      | .call => BytecodeMemoryRamAddr ≤ (p.regs opAReg).toNat
      | .pop16 => destReg ≠ opAReg
      | .not | .load16 | .clz => True) := by
  rintro rfl
  exact Iff.rfl

/-- Both machines have gone on, or both have stopped, in matching states. -/
def Agrees {φ : Type} (Inv : φ → Prop) (view : φ → FsView) (pid : ℕ) (paths : ProcessPaths)
    (D : ℕ → Prop) (kernel : Except Fault ((Bool × Running φ) × (ProcTable × φ)))
    (emulator : Option (Bool × Process)) : Prop :=
  ∃ b t' s' m' p', kernel = .ok ((b, t'), s') ∧ emulator = some (b, p') ∧
    Matches Inv view pid paths D m' t' s' p'

variable {φ : Type} {F : Files φ} {Inv : φ → Prop} {view : φ → FsView} {largest : ℕ}
  {pid : ℕ} {paths : ProcessPaths} {D : ℕ → Prop} {m : MemoryImage} {t : Running φ}
  {s : ProcTable × φ} {p : Process} {addr : UInt16} {sys : Syscall φ}
  {sys' : Process → Bool × Process}

section Outcomes

variable {b : Bool} {kernel : Except Fault ((Bool × Running φ) × (ProcTable × φ))}
  {t' : Running φ} {s' : ProcTable × φ} {p' : Process}

theorem finish_agrees (hcount : p'.skipCounter = 0) :
    Agrees Inv view pid paths D kernel ((some (b, p')).bind (finish sys')) ↔
      Agrees Inv view pid paths D kernel (some (b, p')) := by
  have hfinish : (some (b, p')).bind (finish sys') =
      some (b, if b then p'.countUp else p') := by
    rw [Option.bind_some, finish]
    cases b with
    | false => rfl
    | true => simp only [if_true, hcount, processRunDown]
  rw [hfinish]
  constructor
  · rintro ⟨b', t', s', m', p'', hk, he, hm⟩
    simp only [Option.some.injEq, Prod.mk.injEq] at he
    refine ⟨b', t', s', m', p', hk, by rw [he.1], hm.same ?_ ?_⟩
    · rw [← he.2]
      cases b <;> rfl
    · rw [← he.2]
      cases b <;> rfl
  · rintro ⟨b', t', s', m', p'', hk, he, hm⟩
    simp only [Option.some.injEq, Prod.mk.injEq] at he
    refine ⟨b', t', s', m', _, hk, by rw [he.1], hm.same ?_ ?_⟩
    · rw [← he.2]
      cases b' <;> rfl
    · rw [← he.2]
      cases b' <;> rfl

/-- Both with the same answer. -/
theorem agrees_iff :
    Agrees Inv view pid paths D (.ok ((b, t'), s')) (some (b, p')) ↔
      ∃ m', Matches Inv view pid paths D m' t' s' p' := by
  constructor
  · rintro ⟨b', _, _, m', _, hk, he, hm⟩
    cases hk
    cases he
    exact ⟨m', hm⟩
  · rintro ⟨m', hm⟩
    exact ⟨b, t', s', m', p', rfl, rfl, hm⟩

/-- Only one of them goes on. -/
theorem not_agrees {b' : Bool} (h : b ≠ b') :
    ¬Agrees Inv view pid paths D (.ok ((b, t'), s')) (some (b', p')) := by
  rintro ⟨_, _, _, _, _, hk, he, _⟩
  cases hk
  cases he
  exact h rfl

theorem agrees_of_matches (hm : Matches Inv view pid paths D m t' s' p')
    (hcount : p'.skipCounter = 0) :
    Agrees Inv view pid paths D (.ok ((b, t'), s')) ((some (b, p')).bind (finish sys')) :=
  (finish_agrees hcount).mpr (agrees_iff.mpr ⟨m, hm⟩)

/-- When the kernel has not touched the memory, the emulator must not have
changed it either. -/
theorem kept_iff (h : Matches Inv view pid paths D m t s p) (hregs : p'.regs = p.regs) :
    (∃ m', Matches Inv view pid paths D m' t s p') ↔ ∀ a, D a → p'.memory a = p.memory a := by
  constructor
  · rintro ⟨m', h'⟩ a ha
    rw [memory_unique h'.memory h.memory] at h'
    exact Option.some.inj ((h'.bytes a ha).symm.trans (h.bytes a ha))
  · intro hsame
    refine ⟨m, h.inv, h.memory, fun a ha => ?_, h.regs.trans hregs.symm⟩
    rw [hsame a ha]
    exact h.bytes a ha

end Outcomes

section Instructions

variable (hl : FilesLaw F Inv view largest) (hr : ReliableReads F Inv view)
  (hw : ReliableWrites F Inv view)

/-- Only a register changes. -/
theorem setReg_agrees (h : Matches Inv view pid paths D m t s p) (hcount : p.skipCounter = 0)
    (b : Bool) (r : Fin 8) (v : UInt16) :
    Agrees Inv view pid paths D (.ok ((b, t.setReg r v), s))
      ((some (b, p.setReg r v)).bind (finish sys')) :=
  agrees_of_matches (h.setReg r v) hcount

include hl hw

/-- A store goes on when it is outside the program, and else agrees only when
it changes nothing. -/
theorem stored_agrees (h : Matches Inv view pid paths D m t s p) {data : List UInt8}
    (hmapped : WriteMapped D m addr data.length) {p' : Process} (hregs : p'.regs = p.regs)
    (hcount : p'.skipCounter = 0)
    (hmemory : ∀ a, some (p'.memory a) = if addr.toNat ≤ a ∧ a < addr.toNat+data.length
      then data[a-addr.toNat]? else some (p.memory a)) :
    Agrees Inv view pid paths D (writeMemory F pid t addr data s)
      ((some (!decide (addr.toNat < BytecodeMemoryProgmemSize), p')).bind (finish sys')) ↔
      BytecodeMemoryRamAddr ≤ addr.toNat ∨
        ∀ k < data.length, some (p.memory (addr.toNat+k)) = data[k]? := by
  by_cases hin : BytecodeMemoryRamAddr ≤ addr.toNat
  · obtain ⟨s', m', hrun, hm⟩ := writeMemory_run hl hw h hin hmapped hregs hmemory
    have hout : ¬addr.toNat < BytecodeMemoryProgmemSize := Nat.not_lt.mpr hin
    have hgoes : (!decide (addr.toNat < BytecodeMemoryProgmemSize)) = true := by
      rw [decide_eq_false hout]
      rfl
    rw [hrun, hgoes]
    exact iff_of_true (agrees_of_matches hm hcount) (Or.inl hin)
  · have hbelow : addr.toNat < BytecodeMemoryProgmemSize := Nat.not_le.mp hin
    have hstops : (!decide (addr.toNat < BytecodeMemoryProgmemSize)) = false := by
      rw [decide_eq_true hbelow]
      rfl
    rw [writeMemory_refused (Nat.not_le.mp hin), hstops, finish_agrees hcount, agrees_iff,
      kept_iff h hregs]
    constructor
    · intro hsame
      right
      intro k hk
      rw [← hsame _ (hmapped.among k hk), hmemory, if_pos (by omega), Nat.add_sub_cancel_left]
    · intro hdata a _
      have hheld := hdata.resolve_left hin
      have hnew := hmemory a
      by_cases hwithin : addr.toNat ≤ a ∧ a < addr.toNat+data.length
      · have hk := hheld (a-addr.toNat) (by omega)
        rw [Nat.add_sub_cancel' hwithin.1] at hk
        rw [if_pos hwithin, ← hk] at hnew
        exact Option.some.inj hnew
      · rw [if_neg hwithin] at hnew
        exact Option.some.inj hnew

/-- What follows a store only when the store was done. -/
theorem written_agrees (h : Matches Inv view pid paths D m t s p) {data : List UInt8}
    (hmapped : WriteMapped D m addr data.length) {p' p'' : Process} (hregs : p'.regs = p.regs)
    (hmemory : ∀ a, some (p'.memory a) = if addr.toNat ≤ a ∧ a < addr.toNat+data.length
      then data[a-addr.toNat]? else some (p.memory a))
    {g : Running φ → Running φ} (hcount : p''.skipCounter = 0)
    (hafter : ∀ m' s', Matches Inv view pid paths D m' t s' p' →
      Matches Inv view pid paths D m' (g t) s' p'') :
    Agrees Inv view pid paths D ((do
        let r ← writeMemory F pid t addr data
        if r.1 = false then pure (false, r.2) else pure (true, g r.2) :
          ProcManRun φ (Bool × Running φ)) s)
      ((some (true, p'')).bind (finish sys')) ↔ BytecodeMemoryRamAddr ≤ addr.toNat := by
  by_cases hin : BytecodeMemoryRamAddr ≤ addr.toNat
  · obtain ⟨s', m', hrun, hm⟩ := writeMemory_run hl hw h hin hmapped hregs hmemory
    rw [bind_of_ok hrun]
    exact iff_of_true (agrees_of_matches (hafter m' s' hm) hcount) hin
  · rw [bind_of_ok (writeMemory_refused (Nat.not_le.mp hin)), finish_agrees hcount]
    exact iff_of_false (not_agrees Bool.false_ne_true) hin

/-- A word pushed through a register, and what follows. -/
theorem pushed_agrees (h : Matches Inv view pid paths D m t s p) {r : Fin 8} (v : UInt16)
    (hmapped : WriteMapped D m (p.regs r) 2) (hcount : p.skipCounter = 0)
    {g : Running φ → Running φ} {k : Process → Process}
    (hcount' : ∀ p', (k p').skipCounter = p'.skipCounter)
    (hafter : ∀ m' t' s' p', Matches Inv view pid paths D m' t' s' p' →
      Matches Inv view pid paths D m' (g t') s' (k p')) :
    Agrees Inv view pid paths D ((do
        let w ← writeWord F pid t (p.regs r) v
        if w.1 = false then pure (false, w.2)
        else pure (true, g (w.2.setReg r (w.2.procData.regs r+2))) :
          ProcManRun φ (Bool × Running φ)) s)
      (((storeNext p r (upperByte v)).bind (fun p₁ =>
        (storeNext p₁ r (lowerByte v)).bind (fun p₂ => some (true, k p₂)))).bind (finish sys')) ↔
      BytecodeMemoryRamAddr ≤ (p.regs r).toNat := by
  have hpush := push_some v hmapped.inside
  have hbytes : WriteMapped D m (p.regs r) [upperByte v, lowerByte v].length := hmapped
  have hmemory := setMemory_two (p := p) (p.regs r).toNat (upperByte v) (lowerByte v)
  have hregs : ((p.setMemory (p.regs r).toNat (upperByte v)).setMemory ((p.regs r).toNat+1)
      (lowerByte v)).regs = p.regs := rfl
  rw [← Option.bind_assoc, hpush, Option.bind_some]
  apply written_agrees hl hw h hbytes hregs hmemory
    (g := fun w => g (w.setReg r (w.procData.regs r+2)))
  · rw [hcount']
    exact hcount
  · intro m' s' h'
    have hreg : t.procData.regs r = p.regs r := by rw [h.regs]
    rw [hreg]
    exact hafter _ _ _ _ (h'.setReg r _)

include hr

theorem memory_agrees (h : Matches Inv view pid paths D m t s p) (hcount : p.skipCounter = 0)
    {type : BytecodeInstructionMemoryType} {destReg srcReg : Fin 8} {set4Value : UInt16}
    (hmapped : Mapped D m p (.memory type destReg srcReg set4Value)) :
    Agrees Inv view pid paths D
      (procManProcessExecInstructionMemory F pid t type destReg srcReg set4Value s)
      ((processExecMemory p type destReg srcReg set4Value).bind (finish sys')) ↔
      Agreeable p (.memory type destReg srcReg set4Value) := by
  cases type with
  | load8 =>
    obtain ⟨s', hrun, hm⟩ := readByte_run hl hr h hmapped
    have hexec : processExecMemory p .load8 destReg srcReg set4Value =
        some (true, p.setReg destReg (p.memory (p.regs srcReg).toNat).toUInt16) := by
      rw [processExecMemory, load_some (UInt16.toNat_lt _)]
      rfl
    rw [procManProcessExecInstructionMemory, h.regs, bind_of_ok hrun, hexec]
    exact iff_of_true (setReg_agrees hm hcount _ _ _) trivial
  | store8 =>
    have hexec : processExecMemory p .store8 destReg srcReg set4Value =
        some (!decide ((p.regs destReg).toNat < BytecodeMemoryProgmemSize),
          p.setMemory (p.regs destReg).toNat (p.regs srcReg).toUInt8) := by
      rw [processExecMemory, store_some (UInt16.toNat_lt _)]
      rfl
    have hregs : (p.setMemory (p.regs destReg).toNat (p.regs srcReg).toUInt8).regs = p.regs := rfl
    have hbyte : WriteMapped D m (p.regs destReg) [(p.regs srcReg).toUInt8].length := hmapped
    rw [procManProcessExecInstructionMemory, h.regs, hexec,
      stored_agrees hl hw h hbyte hregs hcount (setMemory_one _ _)]
    simp [agreeable_store8]
  | set4 => exact iff_of_true (setReg_agrees h hcount _ _ _) trivial

theorem load16_agrees (h : Matches Inv view pid paths D m t s p) (hcount : p.skipCounter = 0)
    {destReg opAReg : Fin 8} (hmapped : ReadMapped D m (p.regs opAReg) 2) :
    Agrees Inv view pid paths D ((do
        let value ← readWord F pid t (p.regs opAReg)
        match value with
        | none => pure (false, t)
        | some value => pure (true, t.setReg destReg value) :
          ProcManRun φ (Bool × Running φ)) s)
      (((p.load (p.regs opAReg).toNat).bind (fun upper =>
        (p.load ((p.regs opAReg).toNat+1)).bind (fun lower =>
          some (true, p.setReg destReg ((upper.toUInt16 <<< 8) ||| lower.toUInt16))))).bind
        (finish sys')) := by
  have hin := hmapped.inside
  obtain ⟨s', hrun, hm⟩ := readWord_run hl hr h hmapped
  rw [bind_of_ok hrun, load_some (by omega), Option.bind_some, load_some (by omega),
    Option.bind_some, word_or]
  exact setReg_agrees hm hcount _ _ _

/-- A word popped through another register arrives; through the same register
the emulator takes the upper byte from elsewhere and moves what it has read. -/
theorem pop16_agrees (h : Matches Inv view pid paths D m t s p) (hcount : p.skipCounter = 0)
    {destReg opAReg : Fin 8} (hmapped : ReadMapped D m (p.regs opAReg-2) 2) :
    Agrees Inv view pid paths D ((do
        let popped := t.setReg opAReg (p.regs opAReg-2)
        let value ← readWord F pid popped (popped.procData.regs opAReg)
        match value with
        | none => pure (false, popped)
        | some value => pure (true, popped.setReg destReg value) :
          ProcManRun φ (Bool × Running φ)) s)
      ((popThrough p destReg opAReg).bind (finish sys')) ↔ destReg ≠ opAReg := by
  have hmoved := h.setReg opAReg (p.regs opAReg-2)
  have hkernel : (t.setReg opAReg (p.regs opAReg-2)).procData.regs opAReg = p.regs opAReg-2 := by
    rw [hmoved.regs, Process.setReg_regs, if_pos rfl]
  obtain ⟨s', hrun, hm⟩ := readWord_run hl hr hmoved hmapped
  simp only [hkernel]
  rw [bind_of_ok hrun]
  by_cases hsame : destReg = opAReg
  · subst hsame
    obtain ⟨p', hpop, hcount', hlow⟩ := pop_same hmapped.inside
    rw [hpop, finish_agrees (hcount'.trans hcount)]
    apply iff_of_false _ (fun hne => hne rfl)
    rintro ⟨_, _, _, _, _, hk, he, hm'⟩
    cases hk
    cases he
    have hreg := congrFun hm'.regs destReg
    have hword := congrFun (hm.setReg destReg (UInt16.ofNat
      (256*(p.memory (p.regs destReg-2).toNat).toNat+
        (p.memory ((p.regs destReg-2).toNat+1)).toNat))).regs destReg
    rw [Process.setReg_regs, if_pos rfl] at hword
    rw [← hreg] at hlow
    apply hlow
    have hlower := (p.memory ((p.regs destReg-2).toNat+1)).toNat_lt
    have hvalue := congrArg (fun v : UInt16 => v.toNat%256) hword
    simp only [UInt16.toNat_ofNat'] at hvalue
    refine Eq.trans hvalue ?_
    omega
  · rw [pop_apart hsame hmapped.inside]
    exact iff_of_true (setReg_agrees hm hcount _ _ _) hsame

/-- The byte that is exchanged is read before the store. -/
theorem xchg8_agrees (h : Matches Inv view pid paths D m t s p) (hcount : p.skipCounter = 0)
    {destReg opAReg : Fin 8} (hread : ReadMapped D m (p.regs destReg) 1)
    (hwrite : WriteMapped D m (p.regs destReg) 1) :
    Agrees Inv view pid paths D ((do
        let memValue ← readByte F pid t (p.regs destReg)
        match memValue with
        | none => pure (false, t)
        | some memValue => do
            let r ← writeMemory F pid t (p.regs destReg) [(p.regs opAReg).toUInt8]
            if r.1 = false then pure (false, r.2)
            else pure (true, r.2.setReg opAReg memValue.toUInt16) :
          ProcManRun φ (Bool × Running φ)) s)
      ((some (true, (p.setMemory (p.regs destReg).toNat (lowerByte (p.regs opAReg))).setReg opAReg
        (p.memory (p.regs destReg).toNat).toUInt16)).bind (finish sys')) ↔
      BytecodeMemoryRamAddr ≤ (p.regs destReg).toNat := by
  obtain ⟨s', hrun, hm⟩ := readByte_run hl hr h hread
  have hbyte : WriteMapped D m (p.regs destReg) [(p.regs opAReg).toUInt8].length := hwrite
  have hregs : (p.setMemory (p.regs destReg).toNat (p.regs opAReg).toUInt8).regs = p.regs := rfl
  rw [bind_of_ok hrun, lowerByte_eq]
  exact written_agrees hl hw hm hbyte hregs (setMemory_one _ _)
    (g := fun w => w.setReg opAReg (p.memory (p.regs destReg).toNat).toUInt16) hcount
    (fun _ _ h' => h'.setReg opAReg _)

theorem extra_agrees (h : Matches Inv view pid paths D m t s p) (hcount : p.skipCounter = 0)
    {destReg opAReg opBReg : Fin 8}
    (hmapped : Mapped D m p (.alu .extra destReg opAReg opBReg)) :
    Agrees Inv view pid paths D
      (procManProcessExecInstructionAluExtra F pid t destReg opAReg opBReg s)
      ((processExecAluExtra p destReg opAReg opBReg).bind (finish sys')) ↔
      Agreeable p (.alu .extra destReg opAReg opBReg) := by
  cases htype : bytecodeAluExtraType opBReg with
  | not =>
    simp only [procManProcessExecInstructionAluExtra, processExecAluExtra, agreeable_extra htype,
      htype, h.regs]
    exact iff_of_true (setReg_agrees h hcount _ _ _) trivial
  | store16 =>
    simp only [Mapped, htype] at hmapped
    have hin := hmapped.inside
    have hexec : processExecAluExtra p destReg opAReg opBReg =
        some (!decide ((p.regs destReg).toNat < BytecodeMemoryProgmemSize),
          (p.setMemory (p.regs destReg).toNat (upperByte (p.regs opAReg))).setMemory
            ((p.regs destReg).toNat+1) (lowerByte (p.regs opAReg))) := by
      simp only [processExecAluExtra, htype, store_some (UInt16.toNat_lt _),
        Option.bind_eq_bind, Option.bind_some, Process.setMemory_regs]
      rw [store_some (by omega)]
      rfl
    have hbytes : WriteMapped D m (p.regs destReg)
        [upperByte (p.regs opAReg), lowerByte (p.regs opAReg)].length := hmapped
    have hregs : ((p.setMemory (p.regs destReg).toNat (upperByte (p.regs opAReg))).setMemory
        ((p.regs destReg).toNat+1) (lowerByte (p.regs opAReg))).regs = p.regs := rfl
    rw [hexec]
    simp only [procManProcessExecInstructionAluExtra, agreeable_extra htype, htype, h.regs,
      ← held_two]
    exact stored_agrees hl hw h hbytes hregs hcount (setMemory_two _ _ _)
  | load16 =>
    simp only [Mapped, htype] at hmapped
    simp only [procManProcessExecInstructionAluExtra, processExecAluExtra, agreeable_extra htype,
      htype, h.regs]
    exact iff_of_true (load16_agrees hl hr hw h hcount hmapped) trivial
  | push16 =>
    simp only [Mapped, htype] at hmapped
    simp only [procManProcessExecInstructionAluExtra, processExecAluExtra, agreeable_extra htype,
      htype, h.regs]
    exact pushed_agrees hl hw h _ hmapped hcount (g := id) (k := id) (fun _ => rfl)
      (fun _ _ _ _ h' => h')
  | pop16 =>
    simp only [Mapped, htype] at hmapped
    simp only [procManProcessExecInstructionAluExtra, processExecAluExtra, agreeable_extra htype,
      htype, h.regs]
    exact pop16_agrees hl hr hw h hcount hmapped
  | call =>
    simp only [Mapped, htype] at hmapped
    simp only [procManProcessExecInstructionAluExtra, processExecAluExtra, agreeable_extra htype,
      htype, h.regs]
    exact pushed_agrees hl hw h _ hmapped hcount
      (g := fun w => w.setReg BytecodeRegisterIP (w.procData.regs destReg))
      (k := fun q => q.setReg BytecodeRegisterIP (q.regs destReg)) (fun _ => rfl)
      (fun _ t' _ p' h' => by
        rw [show t'.procData.regs destReg = p'.regs destReg by rw [h'.regs]]
        exact h'.setReg _ _)
  | xchg8 =>
    simp only [Mapped, htype] at hmapped
    simp only [procManProcessExecInstructionAluExtra, processExecAluExtra, agreeable_extra htype,
      htype, h.regs, load_some (UInt16.toNat_lt _), store_some (UInt16.toNat_lt _), Option.bind_eq_bind,
      Option.bind_some, Option.pure_def]
    exact xchg8_agrees hl hr hw h hcount hmapped.1 hmapped.2
  | clz =>
    simp only [procManProcessExecInstructionAluExtra, processExecAluExtra, agreeable_extra htype,
      htype, h.regs, emulatorClz16_eq]
    exact iff_of_true (setReg_agrees h hcount _ _ _) trivial

omit hw in
theorem skip_agrees (h : Coupled Inv view pid paths D m t s p) (hcount : p.skipCounter = 0)
    {destReg opAReg opBReg : Fin 8} (hmapped : Mapped D m p (.alu .skip destReg opAReg opBReg)) :
    Agrees Inv view pid paths D
      (procManProcessExecInstructionAlu F pid t .skip destReg opAReg opBReg s)
      ((processExecAlu p .skip destReg opAReg opBReg).bind (finish sys')) := by
  simp only [procManProcessExecInstructionAlu, processExecAlu, h.regs]
  by_cases hbit : (p.regs destReg).toNat/2^opAReg.val%2 = 1
  · rw [if_pos hbit, if_pos hbit]
    have hcoupled : Coupled Inv view pid paths D m t s
        { p with skipCounter := opBReg.val+1 }.countUp := h.same rfl rfl
    have hleft : Fetchable D (opBReg.val+1) { p with skipCounter := opBReg.val+1 }.countUp := by
      apply fetchable_same _ _ (hmapped hbit)
      · rfl
      · rfl
    obtain ⟨t', s', p', hskip, hdown, _, h'⟩ :=
      skip_run hl hr sys' (opBReg.val+1) hcoupled rfl hleft
    exact ⟨true, t', s', m, p', hskip, hdown, h'.toMatches⟩
  · rw [if_neg hbit, if_neg hbit]
    exact agrees_of_matches (h.toMatches.same rfl rfl) rfl

theorem alu_agrees (h : Coupled Inv view pid paths D m t s p) (hcount : p.skipCounter = 0)
    {type : BytecodeInstructionAluType} {destReg opAReg opBReg : Fin 8}
    (hmapped : Mapped D m p (.alu type destReg opAReg opBReg)) :
    Agrees Inv view pid paths D
      (procManProcessExecInstructionAlu F pid t type destReg opAReg opBReg s)
      ((processExecAlu p type destReg opAReg opBReg).bind (finish sys')) ↔
      Agreeable p (.alu type destReg opAReg opBReg) := by
  have hm := h.toMatches
  cases type with
  | skip => exact iff_of_true (skip_agrees hl hr h hcount hmapped) trivial
  | extra => exact extra_agrees hl hr hw hm hcount hmapped
  | div =>
    simp only [procManProcessExecInstructionAlu, processExecAlu, h.regs]
    by_cases hzero : p.regs opBReg = 0
    · rw [if_pos hzero, if_pos hzero]
      exact iff_of_true (agrees_of_matches hm hcount) trivial
    · rw [if_neg hzero, if_neg hzero]
      exact iff_of_true (setReg_agrees hm hcount _ _ _) trivial
  | unknown =>
    simp only [procManProcessExecInstructionAlu, processExecAlu]
    rw [finish_agrees hcount]
    exact iff_of_false (not_agrees Bool.false_ne_true) id
  | inc | dec | add | sub | mul | xor | or | and | cmp | shiftLeft | shiftRight =>
    simp only [procManProcessExecInstructionAlu, processExecAlu, h.regs]
    exact iff_of_true (setReg_agrees hm hcount _ _ _) trivial

omit hl hr hw in
theorem misc_agrees (h : Matches Inv view pid paths D m t s p) (hcount : p.skipCounter = 0)
    {type : BytecodeInstructionMiscType} (hsys : type ≠ .syscall) :
    Agrees Inv view pid paths D (procManProcessExecInstructionMisc sys pid t type s)
      ((processExecMisc p sys' type).bind (finish sys')) ↔ Agreeable p (.misc type) := by
  cases type with
  | syscall => exact absurd rfl hsys
  | nop | debug | illegal => exact iff_of_true (agrees_of_matches h hcount) trivial
  | clearInstructionCache =>
    have hcleared : Matches Inv view pid paths D m
        { t with prefetchData := procManPrefetchDataClear t.prefetchData } s p :=
      ⟨h.inv, h.memory, h.bytes, h.regs⟩
    exact iff_of_true (agrees_of_matches hcleared hcount) trivial
  | unassigned =>
    apply iff_of_false _ id
    rintro ⟨_, _, _, _, _, hk, _, _⟩
    cases hk
  | unknown =>
    simp only [procManProcessExecInstructionMisc, processExecMisc]
    rw [finish_agrees hcount]
    exact iff_of_false (not_agrees Bool.false_ne_true) id

end Instructions

/-- One instruction that was fetched, on both machines. -/
theorem exec_agrees (hl : FilesLaw F Inv view largest) (hr : ReliableReads F Inv view)
    (hw : ReliableWrites F Inv view) (h : Coupled Inv view pid paths D m t s p)
    (hcount : p.skipCounter = 0) (instruction : BytecodeInstruction)
    (hsys : bytecodeInstructionParse instruction ≠ .misc .syscall)
    (hmapped : Mapped D m p (bytecodeInstructionParse instruction)) :
    Agrees Inv view pid paths D (procManProcessExecInstruction F sys pid t instruction s)
      ((processExec p sys' (bytecodeInstructionParse instruction)).bind (finish sys')) ↔
      Agreeable p (bytecodeInstructionParse instruction) := by
  simp only [procManProcessExecInstruction, processExec]
  cases hinfo : bytecodeInstructionParse instruction with
  | memory type destReg srcReg set4Value =>
    rw [hinfo] at hmapped
    exact memory_agrees hl hr hw h.toMatches hcount hmapped
  | alu type destReg opAReg opBReg =>
    rw [hinfo] at hmapped
    exact alu_agrees hl hr hw h hcount hmapped
  | misc type =>
    apply misc_agrees h.toMatches hcount
    rintro rfl
    exact hsys hinfo
  | set8 destReg value =>
    exact iff_of_true (setReg_agrees h.toMatches hcount _ _ _) trivial
  | set16 destReg value =>
    exact iff_of_true (setReg_agrees h.toMatches hcount _ _ _) trivial

/-- What is mapped of the shell. -/
def shellMapped (prog : List UInt8) (a : ℕ) : Prop := ((shellImage prog).byte a).isSome

instance (prog : List UInt8) (a : ℕ) : Decidable (shellMapped prog a) :=
  inferInstanceAs (Decidable (_ = true))

def shellEmulated (prog : List UInt8) : Process where
  regs _ := 0
  memory a := ((shellImage prog).byte a).getD 0
  skipCounter := 0
  instructionCount := 0

def shellState (prog : List UInt8) : ProcTable × FsView := (fun _ => shellProcess, shellView prog)

theorem shell_coupled (prog : List UInt8) :
    Coupled FsView.Bounded id 1 shellPaths (shellMapped prog) (shellImage prog)
      (startTick shellData) (shellState prog) (shellEmulated prog) where
  inv := shell_bounded prog
  memory := shell_memory prog
  bytes a ha := by
    obtain ⟨b, hb⟩ := Option.isSome_iff_exists.mp ha
    change _ = some (((shellImage prog).byte a).getD 0)
    rw [hb]
    rfl
  regs := rfl
  buffer a ha := by
    obtain ⟨hlow, hhigh⟩ := ha
    change a.toNat < 0+0 at hhigh
    omega

/-- A system call of either machine that changes nothing. -/
def noSyscall : Syscall FsView := fun _ procData exitStatus => pure (true, procData, exitStatus)

end ArduinoOS.Emulator
