import ArduinoOS.Procman.Data

/-!
# The memory of a process

Addresses below `BytecodeMemoryRamAddr` are the program file. The file of the
RAM starts with the environment variables, which are seen at
`ProcManEnvVarsVirtualOffset`, and goes on with the RAM proper, which grows when
it is written beyond its end.
-/

set_option autoImplicit false

namespace ArduinoOS.Procman
open ArduinoOS.Faulting ArduinoOS.Kernel

variable {φ : Type} (F : Files φ) (process : ProcManProcess) (procData : ProcManProcessProcData)

/-- A read through a descriptor of exactly `len` bytes. -/
def readFully (fd offset len : ℕ) : Run φ Fault (Option (List UInt8)) := do
  let r ← F.kernelFsFileReadOffset fd offset len
  pure (if r.2 = len then some r.1 else none)

def writeFully (fd offset : ℕ) (data : List UInt8) : Run φ Fault Bool := do
  let n ← F.kernelFsFileWriteOffset fd offset data
  pure (n == data.length)

def procManProcessMemoryReadBlock (addr : UInt16) (len : ℕ) :
    Run φ Fault (Option (List UInt8)) :=
  if addr.toNat+len < BytecodeMemoryRamAddr then
    readFully F process.progmemFd addr.toNat len
  else if addr.toNat ≥ BytecodeMemoryRamAddr then
    if addr.toNat-BytecodeMemoryRamAddr < procData.ramLen.toNat then
      readFully F procData.ramFd.toNat
        (addr.toNat-BytecodeMemoryRamAddr+procData.envVarDataLen.toNat) len
    else if addr.toNat ≥ ProcManEnvVarsVirtualOffset then
      if addr.toNat-ProcManEnvVarsVirtualOffset < procData.envVarDataLen.toNat then
        readFully F procData.ramFd.toNat (addr.toNat-ProcManEnvVarsVirtualOffset) len
      else pure none
    else pure none
  else
    -- the block spans both regions
    pure none

def procManProcessMemoryReadByte (addr : UInt16) : Run φ Fault (Option UInt8) := do
  let data ← procManProcessMemoryReadBlock F process procData addr 1
  pure (data.map (fun bytes => bytes.getD 0 0))

def procManProcessMemoryReadWord (addr : UInt16) : Run φ Fault (Option UInt16) := do
  let parts ← procManProcessMemoryReadBlock F process procData addr 2
  pure (parts.map (fun bytes =>
    UInt16.ofNat (256*(bytes.getD 0 0).toNat+(bytes.getD 1 0).toNat)))

/-- The string with its terminator, or the first `len` bytes. -/
def procManProcessMemoryReadStr (addr : UInt16) : ℕ → Run φ Fault (Option (List UInt8))
  | 0 => pure (some [])
  | len+1 => do
      let c ← procManProcessMemoryReadByte F process procData addr
      match c with
      | none => pure none
      | some c =>
          if c = 0 then pure (some [c])
          else do
            let rest ← procManProcessMemoryReadStr (addr+1) len
            pure (rest.map (fun bytes => c::bytes))

/-- The file is resized with up to 15 bytes more than it needs. -/
def procManExtras : List ℕ := [16, 8, 4, 2, 1]

/-- The loop over the extra bytes; the new RAM length. -/
def procManProcessMemoryResize (ramFdPath : CStr) (newRamLenMin newRamTotalSizeMin : ℕ) :
    List ℕ → Run φ Fault (Option UInt16)
  | [] => pure none
  | extra::extras => do
      let resized ← F.kernelFsFileResize ramFdPath (u16 (newRamTotalSizeMin+extra-1))
      if resized then pure (some (UInt16.ofNat (newRamLenMin+extra-1)))
      else procManProcessMemoryResize ramFdPath newRamLenMin newRamTotalSizeMin extras

/-- What is left of a write that could not grow the RAM: the record is stored,
so that the descriptor in it is the current one. -/
def procManProcessMemoryError (procData : ProcManProcessProcData) :
    Run φ Fault (Bool × ProcManProcessProcData) := do
  let _ ← procManProcessStoreProcData F process procData
  pure (false, procData)

/-- The write to the resized file, once it is open again. -/
def procManProcessMemoryReopen (ramFdPath : CStr) (ramIndex : ℕ) (data : List UInt8)
    (newRamLen : UInt16) : Run φ Fault (Bool × ProcManProcessProcData) := do
  let ramFd ← F.kernelFsFileOpen ramFdPath KernelFsFdModeRW
  if ramFd = KernelFsFdInvalid then do
    let _ ← F.kernelFsFileDelete ramFdPath
    procManProcessMemoryError F process { procData with ramFd := 0 }
  else do
    let grown := { procData with ramFd := UInt8.ofNat ramFd, ramLen := newRamLen }
    let written ← writeFully F ramFd (procData.envVarDataLen.toNat+ramIndex) data
    if written then pure (true, grown)
    else procManProcessMemoryError F process grown

/-- A write beyond the end of the RAM. -/
def procManProcessMemoryGrow (ramIndex : ℕ) (data : List UInt8) :
    Run φ Fault (Bool × ProcManProcessProcData) := do
  let path ← F.kernelFsGetFilePath procData.ramFd.toNat
  match path with
  | none => throw .nullPointer
  | some ramFdPath => do
      let _ ← F.kernelFsFileClose procData.ramFd.toNat
      let newRamLenMin := u16 (ramIndex+data.length)
      let newRamLen ← procManProcessMemoryResize F ramFdPath newRamLenMin
        (u16 (procData.envVarDataLen.toNat+newRamLenMin)) procManExtras
      match newRamLen with
      | none => do
          let _ ← F.kernelFsFileDelete ramFdPath
          procManProcessMemoryError F process { procData with ramFd := 0 }
      | some newRamLen =>
          procManProcessMemoryReopen F process procData ramFdPath ramIndex data newRamLen

def procManProcessMemoryWriteBlock (addr : UInt16) (data : List UInt8) :
    Run φ Fault (Bool × ProcManProcessProcData) :=
  if addr.toNat < BytecodeMemoryRamAddr ∧ addr.toNat+data.length ≥ BytecodeMemoryRamAddr then
    pure (false, procData)
  else if addr.toNat+data.length < BytecodeMemoryRamAddr then
    -- program memory is read-only
    pure (false, procData)
  else if addr.toNat-BytecodeMemoryRamAddr+data.length < procData.ramLen.toNat then do
    let written ← writeFully F procData.ramFd.toNat
      (procData.envVarDataLen.toNat+(addr.toNat-BytecodeMemoryRamAddr)) data
    pure (written, procData)
  else if addr.toNat ≥ ProcManEnvVarsVirtualOffset then do
    let written ← writeFully F procData.ramFd.toNat
      (addr.toNat-ProcManEnvVarsVirtualOffset) data
    pure (written, procData)
  else procManProcessMemoryGrow F process procData (addr.toNat-BytecodeMemoryRamAddr) data

def procManProcessMemoryWriteByte (addr : UInt16) (value : UInt8) :
    Run φ Fault (Bool × ProcManProcessProcData) :=
  procManProcessMemoryWriteBlock F process procData addr [value]

def procManProcessMemoryWriteWord (addr : UInt16) (value : UInt16) :
    Run φ Fault (Bool × ProcManProcessProcData) :=
  procManProcessMemoryWriteBlock F process procData addr
    [UInt8.ofNat (value.toNat/256), UInt8.ofNat (value.toNat%256)]

end ArduinoOS.Procman
