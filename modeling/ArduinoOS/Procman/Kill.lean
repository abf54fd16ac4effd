import ArduinoOS.Procman.Prefetch

/-!
# Ends of processes

Closing what a process holds, the end of a process, and waking those that wait
for it. Ends are kept in a list that nothing in the process manager looks at.
-/

set_option autoImplicit false

namespace ArduinoOS.Procman
open ArduinoOS.Faulting ArduinoOS.Kernel

def ProcManExitStatusInterrupted : UInt16 := 65531
def ProcManExitStatusNoProcess : UInt16 := 65532
def ProcManExitStatusKilled : UInt16 := 65534
def ProcManExitStatusTimeout : UInt16 := 65535

/-! ### The table -/

/-- `procManGetProcessByPid` is not null. -/
def Live (table : ProcTable) (pid : ℕ) : Prop :=
  pid < ProcManPidMax ∧ (table pid).progmemFd ≠ KernelFsFdInvalid

instance (table : ProcTable) (pid : ℕ) : Decidable (Live table pid) :=
  inferInstanceAs (Decidable (_ ∧ _))

def procManFindUnusedPid (table : ProcTable) : ℕ :=
  ((List.range ProcManPidMax).find? (fun i => (table i).state == .unused)).getD ProcManPidMax

/-- The entry of a process that does not exist. -/
def ProcManProcess.none : ProcManProcess := ⟨0, 0, .unused, 0⟩

def ProcManProcessState.waitsFor (pid : ℕ) : ProcManProcessState → Bool
  | .waitingWaitpid p _ => p == pid
  | _ => false

/-- The process waits for this one to die. -/
def Waits (table : ProcTable) (waiterPid pid : ℕ) : Prop :=
  Live table waiterPid ∧ (table waiterPid).state.waitsFor pid = true

instance (table : ProcTable) (waiterPid pid : ℕ) : Decidable (Waits table waiterPid pid) :=
  inferInstanceAs (Decidable (_ ∧ _))

/-! ### Strings and numbers -/

/-- `%u` -/
def formatUnsigned (n : ℕ) : CStr := (Nat.toDigits 10 n).map CChar.ofChar

/-- The blanks that `atoi` skips. -/
def isSpace (c : CChar) : Bool := c.val == 32 || (9 ≤ c.val && c.val ≤ 13)

def isDigit (c : CChar) : Bool := 48 ≤ c.val && c.val ≤ 57

def digitsValue (s : CStr) : ℕ :=
  (s.takeWhile isDigit).foldl (fun n c => 10*n+(c.val.toNat-48)) 0

def atoi (s : CStr) : ℤ :=
  match s.dropWhile isSpace with
  | [] => 0
  | c::rest =>
      if c.val = 45 then -(digitsValue rest)
      else if c.val = 43 then digitsValue rest
      else digitsValue (c::rest)

/-- The pipe of a path, 0 without one. -/
def pipeIdOf (path : CStr) : ℕ :=
  if CStr.lit "/dev/pipe" <+: path then (atoi (path.drop 9) % 4294967296).toNat else 0

/-! ### Closing -/

section Closing

variable {φ : Type} (F : Files φ)

def ProcManProcessProcData.setFd (d : ProcManProcessProcData) (i : Fin 8) (fd : UInt8) :
    ProcManProcessProcData :=
  { d with fds := Function.update d.fds i fd }

/-- A pipe that is not open any more is taken down. -/
def closePipe (path : CStr) : Run φ Fault Unit := do
  let opened ← F.kernelFsFileIsOpen path
  if pipeIdOf path > 0 ∧ opened = false then do
    F.kernelUnmount path
    let _ ← F.kernelFsFileDelete (CStr.lit "/tmp/pipe"++formatUnsigned (pipeIdOf path))
    pure ()
  else pure ()

/-- The entry at this index of the table of descriptors is closed. -/
def closeLocalFd (procData : ProcManProcessProcData) (i : Fin 8) :
    Run φ Fault ProcManProcessProcData := do
  let path ← F.kernelFsGetFilePath (procData.fds i).toNat
  match path with
  | none => pure (procData.setFd i 0)
  | some path => do
      let _ ← F.kernelFsFileClose (procData.fds i).toNat
      closePipe F path
      pure (procData.setFd i 0)

def procManProcessCloseFile (procData : ProcManProcessProcData) (localFd : ℕ) :
    Run φ Fault ProcManProcessProcData :=
  if localFd = ProcManLocalFdInvalid then pure procData
  else if h : localFd-1 < 8 then
    if procData.fds ⟨localFd-1, h⟩ = 0 then pure procData
    else closeLocalFd F procData ⟨localFd-1, h⟩
  else pure procData

/-- The loop over the descriptors left open. -/
def closeFiles (procData : ProcManProcessProcData) : List ℕ → Run φ Fault ProcManProcessProcData
  | [] => pure procData
  | localFd::rest => do
      let procData ← procManProcessCloseFile F procData localFd
      closeFiles procData rest

/-- The record to close files from: the one given, else the stored one. -/
def killedProcData (process : ProcManProcess) (procDataGiven : Option ProcManProcessProcData) :
    Run φ Fault (Option ProcManProcessProcData) :=
  match procDataGiven with
  | some procData => pure (some procData)
  | none => procManProcessLoadProcData F process

/-- A file of the process's own is closed and deleted. -/
def closeAndDelete (fd : ℕ) : Run φ Fault Unit := do
  let path ← F.kernelFsGetFilePath fd
  match path with
  | none =>
      -- the path is left unwritten, and then used
      throw .nullPointer
  | some path => do
      let _ ← F.kernelFsFileClose fd
      let _ ← F.kernelFsFileDelete path
      pure ()

/-- The program, the RAM and the record are given up. -/
def closeOwnFiles (process : ProcManProcess) : Run φ Fault Unit := do
  let _ ← F.kernelFsFileClose process.progmemFd
  if process.procFd = KernelFsFdInvalid then pure ()
  else do
    let ramFd ← procManProcessLoadProcDataRamFd F process
    match ramFd with
    | some ramFd =>
        if ramFd.toNat = KernelFsFdInvalid then pure () else closeAndDelete F ramFd.toNat
    | none => pure ()
    closeAndDelete F process.procFd

def killFiles (process : ProcManProcess) (procDataGiven : Option ProcManProcessProcData) :
    Run φ Fault (Option ProcManProcessProcData) := do
  let procData ← killedProcData F process procDataGiven
  let procData ← match procData with
    | some procData => do
        let closed ← closeFiles F procData (List.range' 1 8)
        pure (some closed)
    | none => pure none
  closeOwnFiles F process
  pure procData

end Closing

/-! ### The end of a process -/

/-- What happened at the end of a process: who was alive and waiting, and
whether the exit status could be stored for all who waited. -/
structure Death (φ : Type) where
  pid : ℕ
  exitStatus : UInt16
  before : ProcTable
  after : ProcTable
  filesBefore : φ
  filesAfter : φ
  saved : Bool

/-- The files, with a ghost: the ends of processes so far. -/
abbrev Logged (φ : Type) := List (Death φ) × φ

def loggedFiles {φ : Type} (F : Files φ) : Files (Logged φ) where
  kernelFsFileReadOffset fd offset len := onSecond (fun _ => F.kernelFsFileReadOffset fd offset len)
  kernelFsFileWriteOffset fd offset data :=
    onSecond (fun _ => F.kernelFsFileWriteOffset fd offset data)
  kernelFsFileOpen path mode := onSecond (fun _ => F.kernelFsFileOpen path mode)
  kernelFsFileClose fd := onSecond (fun _ => F.kernelFsFileClose fd)
  kernelFsFileDupeOrOpen fd := onSecond (fun _ => F.kernelFsFileDupeOrOpen fd)
  kernelFsFileCreateWithSize path size :=
    onSecond (fun _ => F.kernelFsFileCreateWithSize path size)
  kernelFsFileResize path newSize := onSecond (fun _ => F.kernelFsFileResize path newSize)
  kernelFsFileDelete path := onSecond (fun _ => F.kernelFsFileDelete path)
  kernelFsGetFilePath fd := onSecond (fun _ => F.kernelFsGetFilePath fd)
  kernelFsFileIsOpen path := onSecond (fun _ => F.kernelFsFileIsOpen path)
  kernelFsFileExists path := onSecond (fun _ => F.kernelFsFileExists path)
  kernelFsFileIsDir path := onSecond (fun _ => F.kernelFsFileIsDir path)
  kernelFsFileCanRead fd := onSecond (fun _ => F.kernelFsFileCanRead fd)
  kernelFsFileCanWrite fd := onSecond (fun _ => F.kernelFsFileCanWrite fd)
  kernelUnmount dirPath := onSecond (fun _ => F.kernelUnmount dirPath)

section Killing

variable {φ : Type} (F : Files φ)

/-- A waiting process gets the exit status in r0 and goes on; whether it could
be stored. -/
def wakeWaiter (exitStatus : UInt16) (waiterPid : ℕ) : ProcManRun φ Bool := do
  let saved ← onFiles waiterPid (fun process =>
    procManProcessSaveProcDataReg F process 0 exitStatus)
  let table ← getFirst
  if saved then do
    setFirst (Function.update table waiterPid { table waiterPid with state := .active })
    pure true
  else pure false

/-- The loop over the processes that may wait for the one that died. -/
def wakeWaiters (pid : ℕ) (exitStatus : UInt16) : List ℕ → ProcManRun φ Bool
  | [] => pure true
  | waiterPid::rest => do
      let table ← getFirst
      if Waits table waiterPid pid then do
        let saved ← wakeWaiter F exitStatus waiterPid
        let all ← wakeWaiters pid exitStatus rest
        pure (saved && all)
      else wakeWaiters pid exitStatus rest

/-- The end of a process that exists. -/
def killProcess (pid : ℕ) (exitStatus : UInt16)
    (procDataGiven : Option ProcManProcessProcData) :
    ProcManRun φ (Option ProcManProcessProcData × Death φ) := do
  let table ← getFirst
  let procData ← onFiles pid (fun process => killFiles F process procDataGiven)
  setFirst (Function.update table pid .none)
  let filesBefore ← fun s => .ok (s.2, s)
  let saved ← wakeWaiters F pid exitStatus (List.range ProcManPidMax)
  let woken ← fun s => .ok (s, s)
  pure (procData, Death.mk pid exitStatus table woken.1 filesBefore woken.2 saved)

/-- Ends a process; the record given, as it is then. -/
def procManProcessKill (pid : ℕ) (exitStatus : UInt16)
    (procDataGiven : Option ProcManProcessProcData) :
    ProcManRun (Logged φ) (Option ProcManProcessProcData) := fun s =>
  if pid ≥ ProcManPidMax then .error .assertFailed
  else if Live s.1 pid then
    match killProcess F pid exitStatus procDataGiven (s.1, s.2.2) with
    | .error e => .error e
    | .ok (r, s') => .ok (procDataGiven.bind (fun _ => r.1), (s'.1, (s.2.1++[r.2], s'.2)))
  else .ok (procDataGiven, s)

end Killing

end ArduinoOS.Procman
