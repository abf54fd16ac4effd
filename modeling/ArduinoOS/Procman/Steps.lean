import ArduinoOS.Procman.Instructions

/-!
# What all file calls keep

A relation that each call on files keeps, whatever it is asked for, is kept by
everything that a process does with its memory and its record.
-/

set_option autoImplicit false

namespace ArduinoOS.Procman
open ArduinoOS.Faulting ArduinoOS.Kernel

/-- The states before and after a run that ended well are related. -/
def Related {φ α : Type} (R : φ → φ → Prop) (x : Run φ Fault α) : Prop :=
  ∀ s a s', x s = .ok (a, s') → R s s'

/-- The calls keep the relation. -/
structure FilesStep {φ : Type} (F : Files φ) (R : φ → φ → Prop) : Prop where
  refl : ∀ s, R s s
  trans : ∀ s s₁ s₂, R s s₁ → R s₁ s₂ → R s s₂
  read : ∀ fd offset len, Related R (F.kernelFsFileReadOffset fd offset len)
  write : ∀ fd offset data, Related R (F.kernelFsFileWriteOffset fd offset data)
  openFile : ∀ path mode, Related R (F.kernelFsFileOpen path mode)
  close : ∀ fd, Related R (F.kernelFsFileClose fd)
  resize : ∀ path newSize, Related R (F.kernelFsFileResize path newSize)
  delete : ∀ path, Related R (F.kernelFsFileDelete path)
  getFilePath : ∀ fd, Related R (F.kernelFsGetFilePath fd)

section Combining

variable {φ α β : Type} {F : Files φ} {R : φ → φ → Prop} (h : FilesStep F R)

include h

theorem related_pure (a : α) : Related R (pure a : Run φ Fault α) := by
  intro s b s' hrun
  obtain ⟨_, rfl⟩ := pure_ok.mp hrun
  exact h.refl s'

theorem related_bind {x : Run φ Fault α} {f : α → Run φ Fault β} (hx : Related R x)
    (hf : ∀ a, Related R (f a)) : Related R (x >>= f) := by
  intro s b s' hrun
  obtain ⟨a, s₁, hfirst, hrest⟩ := bind_ok.mp hrun
  exact h.trans _ _ _ (hx _ _ _ hfirst) (hf a _ _ _ hrest)

theorem related_map {x : Run φ Fault α} (f : α → β) (hx : Related R x) :
    Related R (x >>= fun a => pure (f a)) :=
  related_bind h hx (fun a => related_pure h (f a))

end Combining

theorem related_throw {φ α : Type} {R : φ → φ → Prop} (e : Fault) :
    Related R (throw e : Run φ Fault α) := fun _ _ _ hrun => absurd hrun throw_ok

section Memory

variable {φ : Type} {F : Files φ} {R : φ → φ → Prop} (h : FilesStep F R)
  (process : ProcManProcess) (procData : ProcManProcessProcData)

include h

theorem readFully_step (fd offset len : ℕ) : Related R (readFully F fd offset len) :=
  related_map h _ (h.read fd offset len)

theorem writeFully_step (fd offset : ℕ) (data : List UInt8) :
    Related R (writeFully F fd offset data) :=
  related_map h _ (h.write fd offset data)

theorem storeProcData_step : Related R (procManProcessStoreProcData F process procData) :=
  related_map h _ (h.write _ _ _)

theorem readBlock_step (addr : UInt16) (len : ℕ) :
    Related R (procManProcessMemoryReadBlock F process procData addr len) := by
  unfold procManProcessMemoryReadBlock
  split_ifs
  · exact readFully_step h _ _ _
  · exact readFully_step h _ _ _
  · exact readFully_step h _ _ _
  · exact related_pure h _
  · exact related_pure h _
  · exact related_pure h _

theorem readByte_step (addr : UInt16) :
    Related R (procManProcessMemoryReadByte F process procData addr) :=
  related_map h _ (readBlock_step h process procData addr 1)

theorem readWord_step (addr : UInt16) :
    Related R (procManProcessMemoryReadWord F process procData addr) :=
  related_map h _ (readBlock_step h process procData addr 2)

theorem memoryError_step : Related R (procManProcessMemoryError F process procData) :=
  related_map h _ (storeProcData_step h process procData)

theorem memoryResize_step (path : CStr) (newRamLenMin newRamTotalSizeMin : ℕ)
    (extras : List ℕ) :
    Related R (procManProcessMemoryResize F path newRamLenMin newRamTotalSizeMin extras) := by
  induction extras with
  | nil => exact related_pure h _
  | cons extra extras ih =>
    refine related_bind h (h.resize _ _) (fun resized => ?_)
    split
    · exact related_pure h _
    · exact ih

theorem memoryReopen_step (path : CStr) (ramIndex : ℕ) (data : List UInt8)
    (newRamLen : UInt16) :
    Related R (procManProcessMemoryReopen F process procData path ramIndex data newRamLen) := by
  refine related_bind h (h.openFile _ _) (fun ramFd => ?_)
  split
  · exact related_bind h (h.delete _) (fun _ => memoryError_step h _ _)
  · refine related_bind h (writeFully_step h _ _ _) (fun written => ?_)
    split
    · exact related_pure h _
    · exact memoryError_step h _ _

theorem memoryGrow_step (ramIndex : ℕ) (data : List UInt8) :
    Related R (procManProcessMemoryGrow F process procData ramIndex data) := by
  refine related_bind h (h.getFilePath _) (fun path => ?_)
  cases path with
  | none => exact related_throw _
  | some path =>
    refine related_bind h (h.close _) (fun _ => ?_)
    refine related_bind h (memoryResize_step h _ _ _ _) (fun newRamLen => ?_)
    cases newRamLen with
    | none => exact related_bind h (h.delete _) (fun _ => memoryError_step h _ _)
    | some newRamLen => exact memoryReopen_step h _ _ _ _ _ _

theorem writeBlock_step (addr : UInt16) (data : List UInt8) :
    Related R (procManProcessMemoryWriteBlock F process procData addr data) := by
  unfold procManProcessMemoryWriteBlock
  split_ifs
  · exact related_pure h _
  · exact related_pure h _
  · exact related_map h _ (writeFully_step h _ _ _)
  · exact related_map h _ (writeFully_step h _ _ _)
  · exact memoryGrow_step h _ _ _ _

theorem prefetchFill_step (addr : UInt16) (sizes : List ℕ) :
    Related R (procManPrefetchFill F process procData addr sizes) := by
  induction sizes with
  | nil => exact related_pure h _
  | cons len sizes ih =>
    refine related_bind h (readBlock_step h _ _ _ _) (fun block => ?_)
    cases block with
    | some bytes => exact related_pure h _
    | none => exact ih

theorem prefetchReadByte_step (pd : ProcManPrefetchData) (addr : UInt16) :
    Related R (procManPrefetchDataReadByte F process procData pd addr) := by
  unfold procManPrefetchDataReadByte
  split_ifs
  · exact related_pure h _
  · refine related_bind h (prefetchFill_step h _ _ _ _) (fun bytes => ?_)
    split_ifs
    · exact related_pure h _
    · exact related_pure h _

end Memory

/-! ### The instructions of a process -/

/-- The table stays as it is, and the files go on by related steps. -/
def Quiet {φ α : Type} (R : φ → φ → Prop) (x : ProcManRun φ α) : Prop :=
  ∀ s a s', x s = .ok (a, s') → s'.1 = s.1 ∧ R s.2 s'.2

section Instructions

variable {φ α β : Type} {F : Files φ} {R : φ → φ → Prop} (h : FilesStep F R) (pid : ℕ)
  (t : Running φ)

include h

theorem quiet_pure (a : α) : Quiet R (pure a : ProcManRun φ α) := by
  intro s b s' hrun
  obtain ⟨_, rfl⟩ := pure_ok.mp hrun
  exact ⟨rfl, h.refl _⟩

theorem quiet_bind {x : ProcManRun φ α} {f : α → ProcManRun φ β} (hx : Quiet R x)
    (hf : ∀ a, Quiet R (f a)) : Quiet R (x >>= f) := by
  intro s b s' hrun
  obtain ⟨a, s₁, hfirst, hrest⟩ := bind_ok.mp hrun
  obtain ⟨htable, hfiles⟩ := hx _ _ _ hfirst
  obtain ⟨htable', hfiles'⟩ := hf a _ _ _ hrest
  exact ⟨htable'.trans htable, h.trans _ _ _ hfiles hfiles'⟩

omit h in
theorem quiet_throw (e : Fault) : Quiet R (throw e : ProcManRun φ α) :=
  fun _ _ _ hrun => absurd hrun throw_ok

omit h in
theorem quiet_onFiles {x : ProcManProcess → Run φ Fault α} (hx : ∀ process, Related R (x process)) :
    Quiet R (onFiles pid x) := by
  intro s a s' hrun
  obtain ⟨hfiles, htable⟩ := onSecond_ok.mp hrun
  exact ⟨htable, hx _ _ _ _ hfiles⟩

theorem fetchByte_quiet : Quiet R (fetchByte F pid t) := by
  intro s a s' hrun
  exact quiet_bind h (quiet_onFiles pid (fun process => prefetchReadByte_step h process _ _ _))
    (fun r => quiet_pure h _) s a s' hrun

theorem getInstruction_quiet : Quiet R (procManProcessGetInstruction F pid t) := by
  refine quiet_bind h (fetchByte_quiet h pid t) (fun r₀ => ?_)
  cases r₀.1 with
  | none => exact quiet_pure h _
  | some byte0 =>
    by_cases hone : bytecodeInstructionParseLength byte0 = 1
    · simp only [if_pos hone]
      exact quiet_pure h _
    simp only [if_neg hone]
    refine quiet_bind h (fetchByte_quiet h pid _) (fun r₁ => ?_)
    cases r₁.1 with
    | none => exact quiet_pure h _
    | some byte1 =>
      by_cases htwo : bytecodeInstructionParseLength byte0 = 2
      · simp only [if_pos htwo]
        exact quiet_pure h _
      simp only [if_neg htwo]
      refine quiet_bind h (fetchByte_quiet h pid _) (fun r₂ => ?_)
      cases r₂.1 with
      | none => exact quiet_pure h _
      | some byte2 => exact quiet_pure h _

theorem writeMemory_quiet (addr : UInt16) (data : List UInt8) :
    Quiet R (writeMemory F pid t addr data) :=
  quiet_bind h (quiet_onFiles pid (fun process => writeBlock_step h process _ _ _))
    (fun _ => quiet_pure h _)

theorem readByte_quiet (addr : UInt16) : Quiet R (readByte F pid t addr) :=
  quiet_onFiles pid (fun process => readByte_step h process _ _)

theorem readWord_quiet (addr : UInt16) : Quiet R (readWord F pid t addr) :=
  quiet_onFiles pid (fun process => readWord_step h process _ _)

theorem memory_quiet (type : BytecodeInstructionMemoryType) (destReg srcReg : Fin 8)
    (set4Value : UInt16) :
    Quiet R (procManProcessExecInstructionMemory F pid t type destReg srcReg set4Value) := by
  cases type with
  | store8 => exact writeMemory_quiet h pid t _ _
  | load8 =>
    refine quiet_bind h (readByte_quiet h pid t _) (fun value => ?_)
    cases value with
    | none => exact quiet_pure h _
    | some value => exact quiet_pure h _
  | set4 => exact quiet_pure h _

theorem skip_quiet (skipDist : ℕ) : Quiet R (skipInstructions F pid t skipDist) := by
  induction skipDist generalizing t with
  | zero => exact quiet_pure h _
  | succ skipDist ih =>
    refine quiet_bind h (getInstruction_quiet h pid t) (fun r => ?_)
    cases r.1 with
    | none => exact quiet_pure h _
    | some _ => exact ih _

/-- A write, and then nothing or changes of registers only. -/
theorem write_then_quiet {x : ProcManRun φ (Bool × Running φ)} (hx : Quiet R x)
    (f : Running φ → Running φ) :
    Quiet R (x >>= fun r => if r.1 = false then pure (false, r.2) else pure (true, f r.2)) := by
  refine quiet_bind h hx (fun r => ?_)
  split_ifs
  · exact quiet_pure h _
  · exact quiet_pure h _

theorem aluExtra_quiet (destReg opAReg opBReg : Fin 8) :
    Quiet R (procManProcessExecInstructionAluExtra F pid t destReg opAReg opBReg) := by
  unfold procManProcessExecInstructionAluExtra
  cases bytecodeAluExtraType opBReg with
  | not => exact quiet_pure h _
  | store16 => exact writeMemory_quiet h pid t _ _
  | load16 =>
    refine quiet_bind h (readWord_quiet h pid t _) (fun value => ?_)
    cases value with
    | none => exact quiet_pure h _
    | some value => exact quiet_pure h _
  | push16 =>
    exact write_then_quiet h (writeMemory_quiet h pid t _ _)
      (fun t => t.setReg destReg (t.procData.regs destReg+2))
  | pop16 =>
    refine quiet_bind h (readWord_quiet h pid _ _) (fun value => ?_)
    cases value with
    | none => exact quiet_pure h _
    | some value => exact quiet_pure h _
  | call =>
    exact write_then_quiet h (writeMemory_quiet h pid t _ _) (fun t =>
      (t.setReg opAReg (t.procData.regs opAReg+2)).setReg BytecodeRegisterIP
        ((t.setReg opAReg (t.procData.regs opAReg+2)).procData.regs destReg))
  | xchg8 =>
    refine quiet_bind h (readByte_quiet h pid t _) (fun memValue => ?_)
    cases memValue with
    | none => exact quiet_pure h _
    | some memValue =>
      exact write_then_quiet h (writeMemory_quiet h pid t _ _)
        (fun t => t.setReg opAReg memValue.toUInt16)
  | clz => exact quiet_pure h _

theorem alu_quiet (type : BytecodeInstructionAluType) (destReg opAReg opBReg : Fin 8) :
    Quiet R (procManProcessExecInstructionAlu F pid t type destReg opAReg opBReg) := by
  cases type with
  | div =>
    change Quiet R (if _ then _ else _)
    split_ifs
    · exact quiet_pure h _
    · exact quiet_pure h _
  | skip =>
    change Quiet R (if _ then _ else _)
    split_ifs
    · exact skip_quiet h pid t _
    · exact quiet_pure h _
  | extra => exact aluExtra_quiet h pid t _ _ _
  | inc | dec | add | sub | mul | xor | or | and | cmp | shiftLeft | shiftRight | unknown =>
    exact quiet_pure h _

/-- An instruction other than a system call. -/
theorem execInstruction_quiet {sys : Syscall φ} {instruction : BytecodeInstruction}
    (hno : bytecodeInstructionParse instruction ≠ .misc .syscall) :
    Quiet R (procManProcessExecInstruction F sys pid t instruction) := by
  unfold procManProcessExecInstruction
  cases hp : bytecodeInstructionParse instruction with
  | memory type destReg srcReg set4Value => exact memory_quiet h pid t _ _ _ _
  | alu type destReg opAReg opBReg => exact alu_quiet h pid t _ _ _ _
  | misc type =>
    cases type with
    | syscall => exact absurd hp hno
    | unassigned => exact quiet_throw _
    | nop | illegal | clearInstructionCache | debug | unknown => exact quiet_pure h _
  | set8 destReg value => exact quiet_pure h _
  | set16 destReg value => exact quiet_pure h _

end Instructions

end ArduinoOS.Procman
