import ArduinoOS.Emulator.Memory

/-!
# Two machines in the same state

A process under the kernel and one under the emulator with the same registers,
whose memories agree on a set of addresses. Both fetch the same instructions
from there, so that what the kernel skips at once the emulator counts down.
-/

set_option autoImplicit false

namespace ArduinoOS.Emulator
open ArduinoOS.Faulting ArduinoOS.Kernel ArduinoOS.Minifs ArduinoOS.Procman

variable {φ : Type} {F : Files φ} {Inv : φ → Prop} {view : φ → FsView} {largest : ℕ}

/-- The buffer holds what the emulator has in memory. -/
def Coherent (D : ℕ → Prop) (memory : ℕ → UInt8) (pd : ProcManPrefetchData) : Prop :=
  ∀ a : UInt16, pd.Has a → D a.toNat →
    pd.buffer[a.toNat-pd.baseAddr.toNat]? = some (memory a.toNat)

/-- The registers agree, and the memories on these addresses. -/
structure Matches (Inv : φ → Prop) (view : φ → FsView) (pid : ℕ) (paths : ProcessPaths)
    (D : ℕ → Prop) (m : MemoryImage) (t : Running φ) (s : ProcTable × φ) (p : Process) : Prop where
  inv : Inv s.2
  memory : ProcessMemory (view s.2) (s.1 pid) t.procData paths m
  bytes : ∀ a, D a → m.byte a = some (p.memory a)
  regs : t.procData.regs = p.regs

/-- What was read ahead agrees too. -/
structure Coupled (Inv : φ → Prop) (view : φ → FsView) (pid : ℕ) (paths : ProcessPaths)
    (D : ℕ → Prop) (m : MemoryImage) (t : Running φ) (s : ProcTable × φ) (p : Process) : Prop
    extends Matches Inv view pid paths D m t s p where
  buffer : Coherent D p.memory t.prefetchData

/-- The bytes of these instructions are among the addresses. -/
def Fetchable (D : ℕ → Prop) : ℕ → Process → Prop
  | 0, _ => True
  | n+1, p =>
    (∀ i < bytecodeInstructionParseLength (p.memory (p.regs BytecodeRegisterIP).toNat),
      D (p.regs BytecodeRegisterIP+UInt16.ofNat i).toNat) ∧ Fetchable D n (processFetch p).2

section Fetching

variable {pid : ℕ} {paths : ProcessPaths} {D : ℕ → Prop} {m : MemoryImage} {t : Running φ}
  {s : ProcTable × φ} {p : Process}

theorem Matches.setReg (h : Matches Inv view pid paths D m t s p) (r : Fin 8) (v : UInt16) :
    Matches Inv view pid paths D m (t.setReg r v) s (p.setReg r v) := by
  refine ⟨h.inv, memory_setReg h.memory r v, h.bytes, ?_⟩
  change Function.update t.procData.regs r v = Function.update p.regs r v
  rw [h.regs]

/-- Of the process, only the registers and the memory count. -/
theorem Matches.same (h : Matches Inv view pid paths D m t s p) {p' : Process}
    (hregs : p'.regs = p.regs) (hmemory : p'.memory = p.memory) :
    Matches Inv view pid paths D m t s p' := by
  refine ⟨h.inv, h.memory, ?_, h.regs.trans hregs.symm⟩
  rw [hmemory]
  exact h.bytes

theorem Coupled.setReg (h : Coupled Inv view pid paths D m t s p) (r : Fin 8) (v : UInt16) :
    Coupled Inv view pid paths D m (t.setReg r v) s (p.setReg r v) :=
  ⟨h.toMatches.setReg r v, h.buffer⟩

theorem Coupled.same (h : Coupled Inv view pid paths D m t s p) {p' : Process}
    (hregs : p'.regs = p.regs) (hmemory : p'.memory = p.memory) :
    Coupled Inv view pid paths D m t s p' := by
  refine ⟨h.toMatches.same hregs hmemory, ?_⟩
  rw [hmemory]
  exact h.buffer

/-- One byte of an instruction, read ahead or not. -/
theorem fetchByte_run (hl : FilesLaw F Inv view largest) (hr : ReliableReads F Inv view)
    (h : Coupled Inv view pid paths D m t s p)
    (hD : D (p.regs BytecodeRegisterIP).toNat) :
    ∃ t' s', fetchByte F pid t s =
        .ok ((some (p.memory (p.regs BytecodeRegisterIP).toNat), t'), s') ∧
      s'.1 = s.1 ∧ t'.exitStatus = t.exitStatus ∧ Coupled Inv view pid paths D m t' s'
        (p.setReg BytecodeRegisterIP (p.regs BytecodeRegisterIP+1)) := by
  have hmoved := h.setReg BytecodeRegisterIP (p.regs BytecodeRegisterIP+1)
  have hbyte := h.bytes _ hD
  have hip : t.procData.regs BytecodeRegisterIP = p.regs BytecodeRegisterIP := by rw [h.regs]
  have hmem : ProcessMemory (view s.2) (s.1 pid)
      (t.procData.setReg BytecodeRegisterIP (p.regs BytecodeRegisterIP+1)) paths m := hmoved.memory
  have hread : ∃ r s₁, procManPrefetchDataReadByte F (s.1 pid)
      (t.procData.setReg BytecodeRegisterIP (p.regs BytecodeRegisterIP+1)) t.prefetchData
      (p.regs BytecodeRegisterIP) s.2 = .ok (r, s₁) ∧
      r.1 = some (p.memory (p.regs BytecodeRegisterIP).toNat) ∧ Inv s₁ ∧ view s₁ = view s.2 ∧
      Coherent D p.memory r.2 := by
    rw [procManPrefetchDataReadByte]
    by_cases hhas : t.prefetchData.Has (p.regs BytecodeRegisterIP)
    · rw [if_pos hhas]
      exact ⟨_, s.2, rfl, h.buffer _ hhas hD, h.inv, rfl, h.buffer⟩
    · rw [if_neg hhas]
      have hone : ∃ bytes, m.block (p.regs BytecodeRegisterIP).toNat 1 = some bytes := by
        cases hb : m.block (p.regs BytecodeRegisterIP).toNat 1 with
        | none =>
          rw [MemoryImage.byte, hb] at hbyte
          cases hbyte
        | some bytes => exact ⟨bytes, rfl⟩
      obtain ⟨s₁, bytes, len, hlen, hblock, hfill, hi₁, hv⟩ := prefetchFill_run hl hr h.inv hmem
        (p.regs BytecodeRegisterIP) (show 1 ∈ procManPrefetchSizes by decide) hone
      have hpos : 0 < len := by
        simp only [procManPrefetchSizes, List.mem_cons, List.not_mem_nil, or_false] at hlen
        omega
      have hfirst : bytes[0]? = some (p.memory (p.regs BytecodeRegisterIP).toNat) :=
        MemoryImage.byte_of_block hblock hpos hbyte
      have hne : bytes.length ≠ 0 := by
        intro hzero
        rw [List.getElem?_eq_none (by omega)] at hfirst
        cases hfirst
      rw [bind_of_ok hfill, if_neg hne]
      refine ⟨_, s₁, rfl, hfirst, hi₁, hv, ?_⟩
      intro a ha haD
      have hbytes : bytes.length = len := by
        rcases MemoryImage.block_cases hblock with ⟨_, hs⟩ | ⟨_, _, _, hs⟩
        · exact (sliceOf_some.mp hs).1
        · exact (sliceOf_some.mp hs).1
      have hplace : (p.regs BytecodeRegisterIP).toNat+(a.toNat-(p.regs BytecodeRegisterIP).toNat)
          = a.toNat := Nat.add_sub_cancel' ha.1
      change bytes[a.toNat-(p.regs BytecodeRegisterIP).toNat]? = _
      apply MemoryImage.byte_of_block hblock
      · have hhigh : a.toNat < (p.regs BytecodeRegisterIP).toNat+bytes.length := ha.2
        omega
      · rw [hplace]
        exact h.bytes _ haD
  obtain ⟨r, s₁, hrun, hvalue, hi₁, hv, hcoherent⟩ := hread
  refine ⟨{ t with
      procData := t.procData.setReg BytecodeRegisterIP (p.regs BytecodeRegisterIP+1)
      prefetchData := r.2
      fetched := t.fetched++[ByteFetch.mk (s.1 pid)
        (t.procData.setReg BytecodeRegisterIP (p.regs BytecodeRegisterIP+1)) t.prefetchData s.2
        (p.regs BytecodeRegisterIP) r.1] },
    (s.1, s₁), ?_, rfl, rfl, ⟨hi₁, ?_, hmoved.bytes, hmoved.regs⟩, hcoherent⟩
  · have hsecond : onFiles pid (fun process => procManPrefetchDataReadByte F process
        (t.procData.setReg BytecodeRegisterIP (p.regs BytecodeRegisterIP+1)) t.prefetchData
        (p.regs BytecodeRegisterIP)) s = .ok (r, (s.1, s₁)) := onSecond_ok.mpr ⟨hrun, rfl⟩
    rw [fetchByte, hip, bind_of_ok hsecond, hvalue]
    rfl
  · rw [hv]
    exact hmem

/-- An instruction; the emulator fetches the same one. -/
theorem getInstruction_run (hl : FilesLaw F Inv view largest) (hr : ReliableReads F Inv view)
    (h : Coupled Inv view pid paths D m t s p) (hD : Fetchable D 1 p) :
    ∃ t' s', procManProcessGetInstruction F pid t s = .ok ((some (processFetch p).1, t'), s') ∧
      s'.1 = s.1 ∧ t'.exitStatus = t.exitStatus ∧
      Coupled Inv view pid paths D m t' s' (processFetch p).2 := by
  have hbytes := hD.1
  have hpos : 0 < bytecodeInstructionParseLength (p.memory (p.regs BytecodeRegisterIP).toNat) := by
    rw [bytecodeInstructionParseLength]
    split_ifs <;> omega
  have hfirst := hbytes 0 hpos
  rw [show UInt16.ofNat 0 = 0 from rfl, UInt16.add_zero] at hfirst
  obtain ⟨t₁, s₁, hrun₁, htable₁, hexit₁, h₁⟩ := fetchByte_run hl hr h hfirst
  rw [procManProcessGetInstruction, bind_of_ok hrun₁]
  simp only [processFetch]
  by_cases hone : bytecodeInstructionParseLength (p.memory (p.regs BytecodeRegisterIP).toNat) = 1
  · rw [if_pos hone, if_pos hone]
    exact ⟨t₁, s₁, rfl, htable₁, hexit₁, h₁⟩
  rw [if_neg hone, if_neg hone]
  have hsecond := hbytes 1 (by omega)
  have hip₁ : (p.setReg BytecodeRegisterIP (p.regs BytecodeRegisterIP+1)).regs BytecodeRegisterIP
      = p.regs BytecodeRegisterIP+1 := by
    rw [Process.setReg_regs, if_pos rfl]
  obtain ⟨t₂, s₂, hrun₂, htable₂, hexit₂, h₂⟩ := fetchByte_run hl hr h₁ (by
    rw [hip₁]
    exact hsecond)
  rw [bind_of_ok hrun₂]
  by_cases htwo : bytecodeInstructionParseLength (p.memory (p.regs BytecodeRegisterIP).toNat) = 2
  · rw [if_pos htwo]
    simp only [if_pos htwo]
    exact ⟨t₂, s₂, rfl, htable₂.trans htable₁, hexit₂.trans hexit₁, h₂⟩
  rw [if_neg htwo]
  simp only [if_neg htwo]
  have hthird := hbytes 2 (by
    rw [bytecodeInstructionParseLength] at hone htwo ⊢
    split_ifs at hone htwo ⊢ <;> omega)
  obtain ⟨t₃, s₃, hrun₃, htable₃, hexit₃, h₃⟩ := fetchByte_run hl hr h₂ (by
    rw [Process.setReg_regs, if_pos rfl, hip₁, UInt16.add_assoc]
    exact hthird)
  rw [bind_of_ok hrun₃]
  exact ⟨t₃, s₃, rfl, (htable₃.trans htable₂).trans htable₁, (hexit₃.trans hexit₂).trans hexit₁, h₃⟩

theorem processFetch_memory : (processFetch p).2.memory = p.memory := by
  simp only [processFetch]
  split_ifs <;> rfl

theorem processFetch_skipCounter : (processFetch p).2.skipCounter = p.skipCounter := by
  simp only [processFetch]
  split_ifs <;> rfl

/-- Fetching does not look at the counters. -/
theorem processFetch_same {p' : Process} (hregs : p'.regs = p.regs)
    (hmemory : p'.memory = p.memory) :
    (processFetch p').1 = (processFetch p).1 ∧
      (processFetch p').2.regs = (processFetch p).2.regs ∧
      (processFetch p').2.memory = (processFetch p).2.memory := by
  refine ⟨?_, ?_, ?_⟩
  · simp only [processFetch, hregs, hmemory, Process.setReg]
    split_ifs <;> rfl
  · simp only [processFetch, hregs, hmemory, Process.setReg]
    split_ifs <;> rfl
  · rw [processFetch_memory, processFetch_memory, hmemory]

theorem fetchable_same {p' : Process} (hregs : p'.regs = p.regs) (hmemory : p'.memory = p.memory)
    {n : ℕ} (h : Fetchable D n p) : Fetchable D n p' := by
  induction n generalizing p p' with
  | zero => exact trivial
  | succ n ih =>
    obtain ⟨_, hregs', hmemory'⟩ := processFetch_same hregs hmemory
    refine ⟨?_, ih hregs' hmemory' h.2⟩
    rw [hregs, hmemory]
    exact h.1

/-- What the kernel skips at once, the emulator counts down. -/
theorem skip_run (hl : FilesLaw F Inv view largest) (hr : ReliableReads F Inv view)
    (sys : Process → Bool × Process) (n : ℕ) (h : Coupled Inv view pid paths D m t s p)
    (hcount : p.skipCounter = n) (hD : Fetchable D n p) :
    ∃ t' s' p', skipInstructions F pid t n s = .ok ((true, t'), s') ∧
      processRunDown sys n p = some (true, p') ∧ s'.1 = s.1 ∧
      Coupled Inv view pid paths D m t' s' p' := by
  induction n generalizing t s p with
  | zero => exact ⟨t, s, p, rfl, rfl, rfl, h⟩
  | succ n ih =>
    obtain ⟨t₁, s₁, hrun, htable, _, h₁⟩ := getInstruction_run hl hr h ⟨hD.1, trivial⟩
    have hcounter : (processFetch p).2.skipCounter = n+1 := processFetch_skipCounter.trans hcount
    have hcounted : (processFetch p).2.countDown.skipCounter = n := by
      rw [Process.countDown, hcounter, Nat.add_sub_cancel]
    have hleft : Fetchable D n (processFetch p).2.countDown :=
      fetchable_same (Process.countDown_regs _) (Process.countDown_memory _) hD.2
    have h₂ := h₁.same (Process.countDown_regs _) (Process.countDown_memory _)
    obtain ⟨t', s', p', hskip, hdown, htable', h'⟩ := ih h₂ hcounted hleft
    refine ⟨t', s', p', ?_, ?_, htable'.trans htable, h'⟩
    · rw [skipInstructions, bind_of_ok hrun]
      exact hskip
    · have hnext : processRunNextInstruction p sys = some (true, (processFetch p).2.countDown) := by
        rw [processRunNextInstruction, if_pos (by rw [hcounter]; omega)]
      rw [processRunDown, hnext]
      exact hdown

end Fetching

end ArduinoOS.Emulator
