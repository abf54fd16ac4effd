import ArduinoOS.Procman.Kill

/-!
# Reads and writes of processes

Bytes go between an open file and the memory of a process in blocks of 256.
-/

set_option autoImplicit false

namespace ArduinoOS.Procman
open ArduinoOS.Faulting ArduinoOS.Kernel

section Transfers

variable {φ : Type} (F : Files φ)

/-- The descriptor behind a local one, 0 when it is not open. -/
def procManProcessGetGlobalFdFromLocal (procData : ProcManProcessProcData) (localFd : ℕ) :
    Run φ Fault ℕ :=
  if localFd = ProcManLocalFdInvalid then pure KernelFsFdInvalid
  else if h : localFd-1 < 8 then do
    let path ← F.kernelFsGetFilePath (procData.fds ⟨localFd-1, h⟩).toNat
    pure (if path.isSome then (procData.fds ⟨localFd-1, h⟩).toNat else KernelFsFdInvalid)
  else pure KernelFsFdInvalid

/-- The loop over the blocks that are read; how many bytes arrived, or `none`
when the memory cannot be written. -/
def readBlocks (process : ProcManProcess) (globalFd offset : ℕ) (bufAddr : UInt16) (len : ℕ)
    (procData : ProcManProcessProcData) (i : ℕ) :
    ℕ → Run φ Fault (Option ℕ × ProcManProcessProcData)
  | 0 => pure (some i, procData)
  | left+1 =>
      if len ≤ i then pure (some i, procData)
      else do
        let chunkSize := min (len-i) 256
        let read ← F.kernelFsFileReadOffset globalFd (u32 (offset+i)) chunkSize
        if read.2 = 0 then pure (some i, procData)
        else do
          let r ← procManProcessMemoryWriteBlock F process procData (bufAddr+UInt16.ofNat i)
            (read.1.take read.2)
          if r.1 = false then pure (none, r.2)
          else if read.2 < chunkSize then pure (some (i+read.2), r.2)
          else readBlocks process globalFd offset bufAddr len r.2 (i+read.2) left

/-- The loop over the blocks that are written. -/
def writeBlocks (process : ProcManProcess) (globalFd offset : ℕ) (bufAddr : UInt16) (len : ℕ)
    (procData : ProcManProcessProcData) (i : ℕ) : ℕ → Run φ Fault (Option ℕ)
  | 0 => pure (some i)
  | left+1 =>
      if len ≤ i then pure (some i)
      else do
        let chunkSize := min (len-i) 256
        let bytes ← procManProcessMemoryReadBlock F process procData (bufAddr+UInt16.ofNat i)
          chunkSize
        match bytes with
        | none => pure none
        | some bytes => do
            let written ← F.kernelFsFileWriteOffset globalFd (u32 (offset+i)) bytes
            if written < chunkSize then pure (some (i+written))
            else writeBlocks process globalFd offset bufAddr len procData (i+written) left

/-- What a process gets of a read, or `false` when it is to be killed. -/
def procManProcessReadCommon (process : ProcManProcess) (procData : ProcManProcessProcData)
    (offset : ℕ) : Run φ Fault (Bool × ProcManProcessProcData) := do
  let globalFd ← procManProcessGetGlobalFdFromLocal F procData (procData.regs 1).toUInt8.toNat
  if globalFd = KernelFsFdInvalid then pure (false, procData)
  else do
    let len := (procData.regs 4).toNat
    let r ← readBlocks F process globalFd offset (procData.regs 3) len procData 0 len
    match r.1 with
    | none => pure (false, r.2)
    | some i => pure (true, r.2.setReg 0 (UInt16.ofNat i))

def procManProcessWriteCommon (process : ProcManProcess) (procData : ProcManProcessProcData)
    (offset : ℕ) : Run φ Fault (Bool × ProcManProcessProcData) := do
  let globalFd ← procManProcessGetGlobalFdFromLocal F procData (procData.regs 1).toUInt8.toNat
  if globalFd = KernelFsFdInvalid then pure (false, procData)
  else do
    let len := (procData.regs 4).toNat
    let r ← writeBlocks F process globalFd offset (procData.regs 3) len procData 0 len
    match r with
    | none => pure (false, procData)
    | some i => pure (true, procData.setReg 0 (UInt16.ofNat i))

def procManProcessMemoryReadDoubleWord (process : ProcManProcess)
    (procData : ProcManProcessProcData) (addr : UInt16) : Run φ Fault (Option ℕ) := do
  let parts ← procManProcessMemoryReadBlock F process procData addr 4
  pure (parts.map (fun bytes => bytes.foldl (fun n c => 256*n+c.toNat) 0))

/-- A transfer whose offset stands in r2, or in the memory that r2 points to. -/
def transfer (offset32 : Bool) (process : ProcManProcess) (procData : ProcManProcessProcData)
    (common : ℕ → Run φ Fault (Bool × ProcManProcessProcData)) :
    Run φ Fault (Bool × ProcManProcessProcData) :=
  if offset32 then do
    let offset ← procManProcessMemoryReadDoubleWord F process procData (procData.regs 2)
    match offset with
    | none => pure (false, procData)
    | some offset => common offset
  else common (procData.regs 2).toNat

def procManProcessRead (process : ProcManProcess) (procData : ProcManProcessProcData) :
    Run φ Fault (Bool × ProcManProcessProcData) :=
  transfer F false process procData (procManProcessReadCommon F process procData)

def procManProcessRead32 (process : ProcManProcess) (procData : ProcManProcessProcData) :
    Run φ Fault (Bool × ProcManProcessProcData) :=
  transfer F true process procData (procManProcessReadCommon F process procData)

def procManProcessWrite (process : ProcManProcess) (procData : ProcManProcessProcData) :
    Run φ Fault (Bool × ProcManProcessProcData) :=
  transfer F false process procData (procManProcessWriteCommon F process procData)

def procManProcessWrite32 (process : ProcManProcess) (procData : ProcManProcessProcData) :
    Run φ Fault (Bool × ProcManProcessProcData) :=
  transfer F true process procData (procManProcessWriteCommon F process procData)

end Transfers

end ArduinoOS.Procman
