import ArduinoOS.Procman.Prefetch

/-!
# Running instructions

One instruction of a process, and the instructions of one tick. System calls
are a parameter here: they see the table, the files and the process's record,
but not the buffer.
-/

set_option autoImplicit false

namespace ArduinoOS.Procman
open ArduinoOS.Faulting ArduinoOS.Kernel

/-- A system call: whether the process goes on, its record, its exit status. -/
abbrev Syscall (φ : Type) :=
  ℕ → ProcManProcessProcData → UInt16 → ProcManRun φ (Bool × ProcManProcessProcData × UInt16)

def procManProcessInstructionsPerTick : ℕ := 160

section Exec

variable {φ : Type} (F : Files φ) (sys : Syscall φ) (pid : ℕ)

/-- A write of the process's memory; a failure ends the process. -/
def writeMemory (t : Running φ) (addr : UInt16) (data : List UInt8) :
    ProcManRun φ (Bool × Running φ) := do
  let r ← onFiles pid (fun process =>
    procManProcessMemoryWriteBlock F process t.procData addr data)
  pure (r.1, t.setData r.2)

def writeWord (t : Running φ) (addr value : UInt16) : ProcManRun φ (Bool × Running φ) :=
  writeMemory F pid t addr [UInt8.ofNat (value.toNat/256), UInt8.ofNat (value.toNat%256)]

def readByte (t : Running φ) (addr : UInt16) : ProcManRun φ (Option UInt8) :=
  onFiles pid (fun process => procManProcessMemoryReadByte F process t.procData addr)

def readWord (t : Running φ) (addr : UInt16) : ProcManRun φ (Option UInt16) :=
  onFiles pid (fun process => procManProcessMemoryReadWord F process t.procData addr)

def procManProcessExecInstructionMemory (t : Running φ) (type : BytecodeInstructionMemoryType)
    (destReg srcReg : Fin 8) (set4Value : UInt16) : ProcManRun φ (Bool × Running φ) :=
  match type with
  | .store8 => writeMemory F pid t (t.procData.regs destReg) [(t.procData.regs srcReg).toUInt8]
  | .load8 => do
      let value ← readByte F pid t (t.procData.regs srcReg)
      match value with
      | none => pure (false, t)
      | some value => pure (true, t.setReg destReg value.toUInt16)
  | .set4 => pure (true, t.setReg destReg set4Value)

/-- The loop over the instructions to skip. -/
def skipInstructions (t : Running φ) : ℕ → ProcManRun φ (Bool × Running φ)
  | 0 => pure (true, t)
  | skipDist+1 => do
      let r ← procManProcessGetInstruction F pid t
      match r.1 with
      | none => pure (false, r.2)
      | some _ => skipInstructions r.2 skipDist

def procManProcessExecInstructionAluExtra (t : Running φ) (destReg opAReg opBReg : Fin 8) :
    ProcManRun φ (Bool × Running φ) :=
  let opA := t.procData.regs opAReg
  match bytecodeAluExtraType opBReg with
  | .not => pure (true, t.setReg destReg (~~~opA))
  | .store16 => writeWord F pid t (t.procData.regs destReg) opA
  | .load16 => do
      let value ← readWord F pid t (t.procData.regs opAReg)
      match value with
      | none => pure (false, t)
      | some value => pure (true, t.setReg destReg value)
  | .push16 => do
      let r ← writeWord F pid t (t.procData.regs destReg) opA
      if r.1 = false then pure (false, r.2)
      else pure (true, r.2.setReg destReg (r.2.procData.regs destReg+2))
  | .pop16 => do
      let popped := t.setReg opAReg (opA-2)
      let value ← readWord F pid popped (popped.procData.regs opAReg)
      match value with
      | none => pure (false, popped)
      | some value => pure (true, popped.setReg destReg value)
  | .call => do
      let r ← writeWord F pid t opA (t.procData.regs BytecodeRegisterIP)
      if r.1 = false then pure (false, r.2)
      else do
        let pushed := r.2.setReg opAReg (r.2.procData.regs opAReg+2)
        pure (true, pushed.setReg BytecodeRegisterIP (pushed.procData.regs destReg))
  | .xchg8 => do
      let memValue ← readByte F pid t (t.procData.regs destReg)
      match memValue with
      | none => pure (false, t)
      | some memValue => do
          let r ← writeMemory F pid t (t.procData.regs destReg) [opA.toUInt8]
          if r.1 = false then pure (false, r.2)
          else pure (true, r.2.setReg opAReg memValue.toUInt16)
  | .clz => pure (true, t.setReg destReg (clz16 opA))

def procManProcessExecInstructionAlu (t : Running φ) (type : BytecodeInstructionAluType)
    (destReg opAReg opBReg : Fin 8) : ProcManRun φ (Bool × Running φ) :=
  let opA := t.procData.regs opAReg
  let opB := t.procData.regs opBReg
  let dest := t.procData.regs destReg
  match type with
  | .inc => pure (true, t.setReg destReg (dest+incDecValue opAReg opBReg))
  | .dec => pure (true, t.setReg destReg (dest-incDecValue opAReg opBReg))
  | .add => pure (true, t.setReg destReg (opA+opB))
  | .sub => pure (true, t.setReg destReg (opA-opB))
  | .mul => pure (true, t.setReg destReg (opA*opB))
  | .div => if opB = 0 then pure (false, t) else pure (true, t.setReg destReg (opA/opB))
  | .xor => pure (true, t.setReg destReg (opA ^^^ opB))
  | .or => pure (true, t.setReg destReg (opA ||| opB))
  | .and => pure (true, t.setReg destReg (opA &&& opB))
  | .cmp => pure (true, t.setReg destReg (cmpBits opA opB))
  | .shiftLeft => pure (true, t.setReg destReg (if opB < 16 then opA <<< opB else 0))
  | .shiftRight => pure (true, t.setReg destReg (if opB < 16 then opA >>> opB else 0))
  | .skip =>
      if dest.toNat/2^opAReg.val%2 = 1 then skipInstructions F pid t (opBReg.val+1)
      else pure (true, t)
  | .extra => procManProcessExecInstructionAluExtra F pid t destReg opAReg opBReg
  | .unknown => pure (false, t)

def procManProcessExecSyscall (t : Running φ) : ProcManRun φ (Bool × Running φ) := do
  let r ← sys pid t.procData t.exitStatus
  pure (r.1, { t with procData := r.2.1, exitStatus := r.2.2 })

def procManProcessExecInstructionMisc (t : Running φ) (type : BytecodeInstructionMiscType) :
    ProcManRun φ (Bool × Running φ) :=
  match type with
  | .nop => pure (true, t)
  | .syscall => procManProcessExecSyscall sys pid t
  | .illegal => pure (false, t)
  | .clearInstructionCache =>
      pure (true, { t with prefetchData := procManPrefetchDataClear t.prefetchData })
  | .debug => pure (true, t)
  | .unassigned =>
      -- the register and the value are read from memory that was never written
      throw .nullPointer
  | .unknown => pure (false, t)

def procManProcessExecInstruction (t : Running φ) (instruction : BytecodeInstruction) :
    ProcManRun φ (Bool × Running φ) :=
  match bytecodeInstructionParse instruction with
  | .memory type destReg srcReg set4Value =>
      procManProcessExecInstructionMemory F pid t type destReg srcReg set4Value
  | .alu type destReg opAReg opBReg =>
      procManProcessExecInstructionAlu F pid t type destReg opAReg opBReg
  | .misc type => procManProcessExecInstructionMisc sys pid t type
  | .set8 destReg value => pure (true, t.setReg destReg value.toUInt16)
  | .set16 destReg value => pure (true, t.setReg destReg value)

/-- The instructions of a tick; `false` when the process is to be killed. -/
def procManProcessTickLoop (t : Running φ) : ℕ → ProcManRun φ (Bool × Running φ)
  | 0 => pure (true, t)
  | left+1 => do
      let r ← procManProcessGetInstruction F pid t
      match r.1 with
      | none => pure (false, r.2)
      | some instruction => do
          let r' ← procManProcessExecInstruction F sys pid r.2 instruction
          if r'.1 = false then pure (false, r'.2)
          else do
            let table ← getFirst
            if (table pid).instructionCounter < 65500 then do
              let process := table pid
              setFirst (Function.update table pid
                { process with instructionCounter := process.instructionCounter+1 })
              if process.state ≠ .active then pure (true, r'.2)
              else procManProcessTickLoop r'.2 left
            else throw .assertFailed

/-- A process that has just been loaded, with an empty buffer. -/
def startTick (procData : ProcManProcessProcData) : Running φ where
  procData := procData
  prefetchData := ⟨[], 0⟩
  exitStatus := 65534
  fetched := []

end Exec

end ArduinoOS.Procman
