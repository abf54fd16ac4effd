import Mathlib.Algebra.Ring.Nat
import Mathlib.Data.Fin.VecNotation
import Mathlib.Data.Fintype.Pi
import Mathlib.Tactic.FinCases
import ArduinoOS.Procman.Files

/-!
# The data of a process

The entry of the process table, and the record kept in the process's own file:
its registers, signal handlers, memory lengths and descriptors, stored in the
order and with the alignment of the structure in memory.
-/

set_option autoImplicit false

namespace ArduinoOS.Procman
open ArduinoOS.Faulting ArduinoOS.Kernel

def ProcManPidMax : ℕ := 16
def ProcManMaxFds : ℕ := 9
def ProcManLocalFdInvalid : ℕ := 0
def BytecodeRegisterNB : ℕ := 8

theorem registers_ne_zero : (8 : ℕ) ≠ 0 := by decide

/-- There is a register to name by a number. -/
instance neZeroRegisters : NeZero (8 : ℕ) := ⟨registers_ne_zero⟩

theorem signals_ne_zero : (4 : ℕ) ≠ 0 := by decide

/-- There is a signal to name by a number. -/
instance neZeroSignals : NeZero (4 : ℕ) := ⟨signals_ne_zero⟩

theorem nibble_ne_zero : (16 : ℕ) ≠ 0 := by decide

/-- There is a value of four bits. -/
instance neZeroNibble : NeZero (16 : ℕ) := ⟨nibble_ne_zero⟩

def BytecodeSignalIdNB : ℕ := 4
def ProcManSignalHandlerInvalid : UInt8 := 0
def BytecodeMemoryRamAddr : ℕ := 32768
def ProcManEnvVarsVirtualOffset : ℕ := 64512

/-- The stack pointer and the instruction pointer. -/
def BytecodeRegisterSP : Fin 8 := 6
def BytecodeRegisterIP : Fin 8 := 7

structure ProcManProcessProcData where
  regs : Fin 8 → UInt16
  signalHandlers : Fin 4 → UInt8
  ramLen : UInt16
  envVarDataLen : UInt8
  ramFd : UInt8
  fds : Fin 8 → UInt8
  argc : UInt8
  pwd : UInt16
  path : UInt16
  deriving DecidableEq

inductive ProcManProcessState
  | unused
  | active
  | waitingWaitpid (pid timeoutTime : ℕ)
  | waitingRead (globalFd : ℕ)
  | waitingRead32 (globalFd : ℕ)
  | waitingWrite (globalFd : ℕ)
  | waitingWrite32 (globalFd : ℕ)
  | exiting
  deriving DecidableEq, Repr

structure ProcManProcess where
  progmemFd : ℕ
  procFd : ℕ
  state : ProcManProcessState
  instructionCounter : ℕ
  deriving DecidableEq

namespace ProcManProcessProcData

def setReg (d : ProcManProcessProcData) (r : Fin 8) (v : UInt16) : ProcManProcessProcData :=
  { d with regs := Function.update d.regs r v }

@[simp] theorem setReg_regs (d : ProcManProcessProcData) (r i : Fin 8) (v : UInt16) :
    (d.setReg r v).regs i = if i = r then v else d.regs i := by
  simp [setReg, Function.update_apply]

@[simp] theorem setReg_ramLen (d : ProcManProcessProcData) (r : Fin 8) (v : UInt16) :
    (d.setReg r v).ramLen = d.ramLen := rfl

@[simp] theorem setReg_envVarDataLen (d : ProcManProcessProcData) (r : Fin 8) (v : UInt16) :
    (d.setReg r v).envVarDataLen = d.envVarDataLen := rfl

@[simp] theorem setReg_ramFd (d : ProcManProcessProcData) (r : Fin 8) (v : UInt16) :
    (d.setReg r v).ramFd = d.ramFd := rfl

end ProcManProcessProcData

/-! ### The record as bytes -/

def wordBytes (w : UInt16) : List UInt8 := [UInt8.ofNat w.toNat, UInt8.ofNat (w.toNat/256)]

def wordAt (b : List UInt8) (i : ℕ) : UInt16 :=
  UInt16.ofNat ((b.getD i 0).toNat+256*(b.getD (i+1) 0).toNat)

/-- The record in memory: low bytes first, one byte of padding after `argc`. -/
def ProcManProcessProcData.toBytes (d : ProcManProcessProcData) : List UInt8 :=
  wordBytes (d.regs 0) ++ (wordBytes (d.regs 1) ++ (wordBytes (d.regs 2) ++
    (wordBytes (d.regs 3) ++ (wordBytes (d.regs 4) ++ (wordBytes (d.regs 5) ++
    (wordBytes (d.regs 6) ++ (wordBytes (d.regs 7) ++ (d.signalHandlers 0 :: d.signalHandlers 1 ::
    d.signalHandlers 2 :: d.signalHandlers 3 :: (wordBytes d.ramLen ++
    (d.envVarDataLen :: d.ramFd :: d.fds 0 :: d.fds 1 :: d.fds 2 :: d.fds 3 :: d.fds 4 ::
    d.fds 5 :: d.fds 6 :: d.fds 7 :: d.argc :: 0 :: (wordBytes d.pwd ++
    wordBytes d.path)))))))))))

def ProcManProcessProcData.ofBytes (b : List UInt8) : ProcManProcessProcData where
  regs i := wordAt b (2*i.val)
  signalHandlers i := b.getD (16+i.val) 0
  ramLen := wordAt b 20
  envVarDataLen := b.getD 22 0
  ramFd := b.getD 23 0
  fds i := b.getD (24+i.val) 0
  argc := b.getD 32 0
  pwd := wordAt b 34
  path := wordAt b 36

/-- `sizeof(ProcManProcessProcData)`. -/
def procDataSize : ℕ := 38

theorem word_bytes {w : UInt16} {b : List UInt8} {i : ℕ}
    (h : b.getD i 0 = UInt8.ofNat w.toNat) (h' : b.getD (i+1) 0 = UInt8.ofNat (w.toNat/256)) :
    wordAt b i = w := by
  have hw := w.toNat_lt
  apply UInt16.toNat_inj.mp
  rw [wordAt, h, h', UInt16.toNat_ofNat', UInt8.toNat_ofNat', UInt8.toNat_ofNat']
  omega

theorem toBytes_length (d : ProcManProcessProcData) : d.toBytes.length = procDataSize := rfl

theorem toBytes_reg (d : ProcManProcessProcData) (r : Fin 8) :
    d.toBytes.getD (2*r.val) 0 = UInt8.ofNat (d.regs r).toNat ∧
      d.toBytes.getD (2*r.val+1) 0 = UInt8.ofNat ((d.regs r).toNat/256) := by
  fin_cases r <;> exact ⟨rfl, rfl⟩

theorem ofBytes_toBytes (d : ProcManProcessProcData) :
    ProcManProcessProcData.ofBytes d.toBytes = d := by
  have hregs : ∀ i : Fin 8, wordAt d.toBytes (2*i.val) = d.regs i :=
    fun i => word_bytes (toBytes_reg d i).1 (toBytes_reg d i).2
  have hhandlers : ∀ i : Fin 4, d.toBytes.getD (16+i.val) 0 = d.signalHandlers i := by
    intro i
    fin_cases i <;> rfl
  have hfds : ∀ i : Fin 8, d.toBytes.getD (24+i.val) 0 = d.fds i := by
    intro i
    fin_cases i <;> rfl
  have hramLen : wordAt d.toBytes 20 = d.ramLen := by
    apply word_bytes
    · rfl
    · rfl
  have hpwd : wordAt d.toBytes 34 = d.pwd := by
    apply word_bytes
    · rfl
    · rfl
  have hpath : wordAt d.toBytes 36 = d.path := by
    apply word_bytes
    · rfl
    · rfl
  have henv : d.toBytes.getD 22 0 = d.envVarDataLen := rfl
  have hramFd : d.toBytes.getD 23 0 = d.ramFd := rfl
  have hargc : d.toBytes.getD 32 0 = d.argc := rfl
  rw [ProcManProcessProcData.ofBytes, hramLen, hpwd, hpath, henv, hramFd, hargc, funext hregs,
    funext hhandlers, funext hfds]

/-! ### Loading and storing it -/

section Records

variable {φ : Type} (F : Files φ)

def procManProcessLoadProcData (process : ProcManProcess) :
    Run φ Fault (Option ProcManProcessProcData) := do
  let r ← F.kernelFsFileReadOffset process.procFd 0 procDataSize
  pure (if r.2 = procDataSize then some (.ofBytes r.1) else none)

def procManProcessStoreProcData (process : ProcManProcess) (procData : ProcManProcessProcData) :
    Run φ Fault Bool := do
  let n ← F.kernelFsFileWriteOffset process.procFd 0 procData.toBytes
  pure (n == procDataSize)

def procManProcessLoadProcDataRamLen (process : ProcManProcess) :
    Run φ Fault (Option UInt16) :=
  if process.procFd = KernelFsFdInvalid then pure none
  else do
    let r ← F.kernelFsFileReadOffset process.procFd 20 2
    pure (if r.2 = 2 then some (wordAt r.1 0) else none)

def procManProcessLoadProcDataEnvVarDataLen (process : ProcManProcess) :
    Run φ Fault (Option UInt8) :=
  if process.procFd = KernelFsFdInvalid then pure none
  else do
    let r ← F.kernelFsFileReadOffset process.procFd 22 1
    pure (if r.2 = 1 then some (r.1.getD 0 0) else none)

def procManProcessLoadProcDataRamFd (process : ProcManProcess) : Run φ Fault (Option UInt8) :=
  if process.procFd = KernelFsFdInvalid then pure none
  else do
    let r ← F.kernelFsFileReadOffset process.procFd 23 1
    pure (if r.2 = 1 then some (r.1.getD 0 0) else none)

def procManProcessSaveProcDataReg (process : ProcManProcess) (reg : Fin 8) (value : UInt16) :
    Run φ Fault Bool :=
  if process.procFd = KernelFsFdInvalid then pure false
  else do
    let n ← F.kernelFsFileWriteOffset process.procFd (2*reg.val) (wordBytes value)
    pure (n == 2)

end Records

end ArduinoOS.Procman
