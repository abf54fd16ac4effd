import ArduinoOS.Procman.Bytecode
import ArduinoOS.Procman.Memory

/-!
# Fetching instructions

The process manager's state is the table of processes with the files. A running
process reads its instructions through a buffer that is filled from its memory
with up to 32 bytes.
-/

set_option autoImplicit false

namespace ArduinoOS.Procman
open ArduinoOS.Faulting ArduinoOS.Kernel

abbrev ProcTable := ℕ → ProcManProcess

abbrev ProcManRun (φ : Type) := Run (ProcTable × φ) Fault

/-- A call that uses the files and only looks at the entry of the process. -/
def onFiles {φ α : Type} (pid : ℕ) (x : ProcManProcess → Run φ Fault α) : ProcManRun φ α :=
  onSecond (fun table => x (table pid))

/-- The buffer and the address of its first byte; `len` is its length. -/
structure ProcManPrefetchData where
  buffer : List UInt8
  baseAddr : UInt16
  deriving DecidableEq

def procManPrefetchDataClear (pd : ProcManPrefetchData) : ProcManPrefetchData :=
  { pd with buffer := [] }

def procManPrefetchSizes : List ℕ := [32, 16, 8, 4, 2, 1]

/-- The bytes that are in the buffer already. -/
def ProcManPrefetchData.Has (pd : ProcManPrefetchData) (addr : UInt16) : Prop :=
  pd.baseAddr.toNat ≤ addr.toNat ∧ addr.toNat < pd.baseAddr.toNat+pd.buffer.length

instance (pd : ProcManPrefetchData) (addr : UInt16) : Decidable (pd.Has addr) :=
  inferInstanceAs (Decidable (_ ∧ _))

section Fetch

variable {φ : Type} (F : Files φ)

/-- The largest block that can be read. -/
def procManPrefetchFill (process : ProcManProcess) (procData : ProcManProcessProcData)
    (addr : UInt16) : List ℕ → Run φ Fault (List UInt8)
  | [] => pure []
  | len::sizes => do
      let block ← procManProcessMemoryReadBlock F process procData addr len
      match block with
      | some bytes => pure bytes
      | none => procManPrefetchFill process procData addr sizes

def procManPrefetchDataReadByte (process : ProcManProcess) (procData : ProcManProcessProcData)
    (pd : ProcManPrefetchData) (addr : UInt16) :
    Run φ Fault (Option UInt8 × ProcManPrefetchData) :=
  if pd.Has addr then pure (pd.buffer[addr.toNat-pd.baseAddr.toNat]?, pd)
  else do
    let bytes ← procManPrefetchFill F process procData addr procManPrefetchSizes
    if bytes.length = 0 then pure (none, procManPrefetchDataClear pd)
    else pure (bytes[0]?, ⟨bytes, addr⟩)

/-- What one byte was fetched from, and what was fetched. -/
structure ByteFetch (φ : Type) where
  process : ProcManProcess
  procData : ProcManProcessProcData
  prefetchData : ProcManPrefetchData
  files : φ
  addr : UInt16
  result : Option UInt8

/-- What a tick keeps of its process outside the table. `fetched` is a ghost:
all bytes fetched so far, in order. -/
structure Running (φ : Type) where
  procData : ProcManProcessProcData
  prefetchData : ProcManPrefetchData
  exitStatus : UInt16
  fetched : List (ByteFetch φ)

namespace Running

variable {φ : Type}

def setReg (t : Running φ) (r : Fin 8) (v : UInt16) : Running φ :=
  { t with procData := t.procData.setReg r v }

def setData (t : Running φ) (procData : ProcManProcessProcData) : Running φ :=
  { t with procData := procData }

@[simp] theorem setReg_fetched (t : Running φ) (r : Fin 8) (v : UInt16) :
    (t.setReg r v).fetched = t.fetched := rfl

@[simp] theorem setReg_prefetchData (t : Running φ) (r : Fin 8) (v : UInt16) :
    (t.setReg r v).prefetchData = t.prefetchData := rfl

@[simp] theorem setData_fetched (t : Running φ) (procData : ProcManProcessProcData) :
    (t.setData procData).fetched = t.fetched := rfl

@[simp] theorem setData_prefetchData (t : Running φ) (procData : ProcManProcessProcData) :
    (t.setData procData).prefetchData = t.prefetchData := rfl

end Running

/-- One byte at the instruction pointer, which has moved on when it is read. -/
def fetchByte (pid : ℕ) (t : Running φ) : ProcManRun φ (Option UInt8 × Running φ) := fun s =>
  let addr := t.procData.regs BytecodeRegisterIP
  let procData := t.procData.setReg BytecodeRegisterIP (addr+1)
  (do
    let r ← onFiles pid (fun process =>
      procManPrefetchDataReadByte F process procData t.prefetchData addr)
    pure (r.1, { t with
      procData := procData
      prefetchData := r.2
      fetched := t.fetched ++
        [ByteFetch.mk (s.1 pid) procData t.prefetchData s.2 addr r.1] })) s

def procManProcessGetInstruction (pid : ℕ) (t : Running φ) :
    ProcManRun φ (Option BytecodeInstruction × Running φ) := do
  let r₀ ← fetchByte F pid t
  match r₀.1 with
  | none => pure (none, r₀.2)
  | some byte0 =>
      if bytecodeInstructionParseLength byte0 = 1 then pure (some ⟨byte0, 0, 0⟩, r₀.2)
      else do
        let r₁ ← fetchByte F pid r₀.2
        match r₁.1 with
        | none => pure (none, r₁.2)
        | some byte1 =>
            if bytecodeInstructionParseLength byte0 = 2 then
              pure (some ⟨byte0, byte1, 0⟩, r₁.2)
            else do
              let r₂ ← fetchByte F pid r₁.2
              match r₂.1 with
              | none => pure (none, r₂.2)
              | some byte2 => pure (some ⟨byte0, byte1, byte2⟩, r₂.2)

end Fetch

end ArduinoOS.Procman
