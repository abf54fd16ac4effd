import ArduinoOS.Procman.Kill

/-!
# Fork

The child gets its own record and RAM, the parent's program and copies of the
parent's descriptors. What was acquired is given up again when a step fails.
-/

set_option autoImplicit false

namespace ArduinoOS.Procman
open ArduinoOS.Faulting ArduinoOS.Kernel

def procFilePath (pid : ℕ) : CStr := CStr.lit "/tmp/proc"++formatUnsigned pid
def ramFilePath (pid : ℕ) : CStr := CStr.lit "/tmp/ram"++formatUnsigned pid

/-- What has been acquired for the child so far. -/
structure Forked where
  procFd : ℕ
  progmemFd : ℕ
  procData : ProcManProcessProcData

section Steps

variable {φ : Type} (F : Files φ)

/-- The parent's record without its files, with 0 in r0. -/
def childProcData (procData : ProcManProcessProcData) : ProcManProcessProcData :=
  { procData.setReg 0 0 with ramFd := 0, fds := fun _ => 0 }

/-- A file of the child's is created and opened; 0 when either fails. -/
def createAndOpen (path : CStr) (size : ℕ) : Run φ Fault ℕ := do
  let created ← F.kernelFsFileCreateWithSize path size
  if created then F.kernelFsFileOpen path KernelFsFdModeRW else pure KernelFsFdInvalid

/-- The loop over the parent's descriptors; whether all could be copied. -/
def forkFds (parent : ProcManProcessProcData) (child : ProcManProcessProcData) :
    List (Fin 8) → Run φ Fault (Bool × ProcManProcessProcData)
  | [] => pure (true, child)
  | i::rest =>
      if parent.fds i = 0 then forkFds parent child rest
      else do
        let path ← F.kernelFsGetFilePath (parent.fds i).toNat
        match path with
        | none => throw .assertFailed
        | some _ => do
            let fd ← F.kernelFsFileDupeOrOpen (parent.fds i).toNat
            if fd = KernelFsFdInvalid then pure (false, child)
            else forkFds parent (child.setFd i (UInt8.ofNat fd)) rest

/-- A part of the parent's RAM is copied. -/
def forkCopy (parentFd childFd offset len : ℕ) : Run φ Fault Bool := do
  let bytes ← readFully F parentFd offset len
  match bytes with
  | none => pure false
  | some bytes => writeFully F childFd offset bytes

/-- The loop over single bytes. -/
def forkCopyBytes (parentFd childFd : ℕ) (i : ℕ) : ℕ → Run φ Fault Bool
  | 0 => pure true
  | left+1 => do
      let copied ← forkCopy F parentFd childFd i 1
      if copied then forkCopyBytes parentFd childFd (i+1) left else pure false

/-- The loop over blocks of 256 bytes, and then over what is left. -/
def forkCopyBlocks (parentFd childFd : ℕ) (i left : ℕ) : ℕ → Run φ Fault Bool
  | 0 => forkCopyBytes F parentFd childFd i left
  | blocks+1 => do
      let copied ← forkCopy F parentFd childFd i 256
      if copied then forkCopyBlocks parentFd childFd (i+256) left blocks else pure false

def forkCopyRam (parentFd childFd size : ℕ) : Run φ Fault Bool :=
  forkCopyBlocks F parentFd childFd 0 (size%256) (size/256)

/-- From the copies of the descriptors on. -/
def forkContents (parent : ProcManProcessProcData) (child : Forked) (size : ℕ) :
    Run φ Fault (Bool × Forked) := do
  let r ← forkFds F parent child.procData (List.finRange 8)
  let child := { child with procData := r.2 }
  if r.1 = false then pure (false, child)
  else do
    let n ← F.kernelFsFileWriteOffset child.procFd 0 child.procData.toBytes
    if n ≠ procDataSize then pure (false, child)
    else do
      let copied ← forkCopyRam F parent.ramFd.toNat child.procData.ramFd.toNat size
      pure (copied, child)

/-- The steps of a fork; whether all went well, and what was acquired. -/
def forkAcquire (parentProgmemFd : ℕ) (parent : ProcManProcessProcData) (childPid : ℕ) :
    Run φ Fault (Bool × Forked) := do
  let child := Forked.mk 0 0 (childProcData parent)
  let procFd ← createAndOpen F (procFilePath childPid) procDataSize
  if procFd = KernelFsFdInvalid then pure (false, child)
  else do
    let child := { child with procFd := procFd }
    let size := u16 (parent.envVarDataLen.toNat+parent.ramLen.toNat)
    let ramFd ← createAndOpen F (ramFilePath childPid) size
    if ramFd = KernelFsFdInvalid then pure (false, child)
    else do
      let child := { child with procData := { child.procData with ramFd := UInt8.ofNat ramFd } }
      let progmemFd ← F.kernelFsFileDupeOrOpen parentProgmemFd
      if progmemFd = KernelFsFdInvalid then pure (false, child)
      else forkContents F parent { child with progmemFd := progmemFd } size

/-- The loop that closes the copied descriptors, used or not. -/
def forkCloseFds (child : ProcManProcessProcData) : List (Fin 8) → Run φ Fault Unit
  | [] => pure ()
  | i::rest => do
      let _ ← F.kernelFsFileClose (child.fds i).toNat
      forkCloseFds child rest

def forkRelease (child : Forked) (childPid : ℕ) : Run φ Fault Unit := do
  forkCloseFds F child.procData (List.finRange 8)
  let _ ← F.kernelFsFileClose child.progmemFd
  let _ ← F.kernelFsFileClose child.procFd
  let _ ← F.kernelFsFileDelete (procFilePath childPid)
  let _ ← F.kernelFsFileClose child.procData.ramFd.toNat
  let _ ← F.kernelFsFileDelete (ramFilePath childPid)
  pure ()

/-- The files of a fork: the child's program and record descriptors. -/
def forkFiles (parentProgmemFd : ℕ) (parent : ProcManProcessProcData) (childPid : ℕ) :
    Run φ Fault (Option (ℕ × ℕ)) := do
  let r ← forkAcquire F parentProgmemFd parent childPid
  if r.1 then pure (some (r.2.progmemFd, r.2.procFd))
  else do
    forkRelease F r.2 childPid
    pure none

/-- The parent's record is given back with its r0. -/
def procManProcessFork (parentPid : ℕ) (procData : ProcManProcessProcData) :
    ProcManRun φ ProcManProcessProcData := do
  let table ← getFirst
  let childPid := procManFindUnusedPid table
  if childPid = ProcManPidMax then pure (procData.setReg 0 (UInt16.ofNat ProcManPidMax))
  else do
    setFirst (Function.update table childPid .none)
    let r ← onFiles parentPid (fun parent => forkFiles F parent.progmemFd procData childPid)
    match r with
    | none => pure (procData.setReg 0 (UInt16.ofNat ProcManPidMax))
    | some (progmemFd, procFd) => do
        setFirst (Function.update table childPid ⟨progmemFd, procFd, .active, 0⟩)
        pure (procData.setReg 0 (UInt16.ofNat childPid))

end Steps

end ArduinoOS.Procman
