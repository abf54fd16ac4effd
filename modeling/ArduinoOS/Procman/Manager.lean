import ArduinoOS.Procman.Exec
import ArduinoOS.Procman.Instructions
import ArduinoOS.Procman.Signal
import ArduinoOS.Procman.Transfer

/-!
# The process manager

The system calls that look at or change the table of processes, and the tick of
a process. All other system calls work on the files and the process's own
record; they are a parameter, as are the clock and the state of the kernel.
-/

set_option autoImplicit false

namespace ArduinoOS.Procman
open ArduinoOS.Faulting ArduinoOS.Kernel

/-- What the process manager uses besides files. -/
structure World (φ : Type) where
  ktimeGetMonotonicMs : Run φ Fault ℕ
  /-- The kernel goes from running to shutting down; `false` if it has before. -/
  shutdownStarts : Run φ Fault Bool
  /-- What the buffers of an exec hold, and the steps its loops may take. -/
  scratch : Scratch
  steps : ℕ
  /-- The other system calls: whether the process goes on, and its record. -/
  otherSyscall : ℕ → ProcTable → ProcManProcessProcData →
    Run φ Fault (Bool × ProcManProcessProcData)

/-- Buffers of zeros, a clock that stands still, and no other system calls. -/
def emptyWorld : World FsView where
  ktimeGetMonotonicMs := pure 0
  shutdownStarts := pure false
  scratch := ⟨List.replicate 256 0, List.replicate 64 0, List.replicate 64 0,
    List.replicate 64 0, List.replicate 64 0⟩
  steps := 64
  otherSyscall _ _ procData := pure (false, procData)

/-! ### System calls -/

inductive BytecodeSyscallId
  | exit
  | getPid
  | getArgVN
  | fork
  | exec
  | waitPid
  | kill
  | signal
  | exec2
  | read
  | write
  | read32
  | write32
  | shutdown
  | other
  deriving DecidableEq

def syscallIdOf (n : ℕ) : BytecodeSyscallId :=
  if n = 0 then .exit
  else if n = 1 then .getPid
  else if n = 3 then .getArgVN
  else if n = 4 then .fork
  else if n = 5 then .exec
  else if n = 6 then .waitPid
  else if n = 10 then .kill
  else if n = 12 then .signal
  else if n = 14 then .exec2
  else if n = 256 then .read
  else if n = 257 then .write
  else if n = 268 then .read32
  else if n = 269 then .write32
  else if n = 1280 then .shutdown
  else .other

section Syscalls

variable {φ : Type} (F : Files φ) (W : World φ)

/-- The state of a process is set in the table. -/
def setState {φ : Type} (pid : ℕ) (state : ProcManProcessState) : ProcManRun φ Unit := do
  let table ← getFirst
  setFirst (Function.update table pid { table pid with state := state })

/-- A computation beside the ghost. -/
def beside {α : Type} (x : ProcManRun φ α) : ProcManRun (Logged φ) α := fun s =>
  match x (s.1, s.2.2) with
  | .ok (a, s') => .ok (a, (s'.1, (s.2.1, s'.2)))
  | .error e => .error e

/-- A computation on the files. -/
def onFilesOf {α : Type} (x : ProcTable → Run φ Fault α) : ProcManRun (Logged φ) α :=
  beside (onSecond x)

/-- A read or write system call: waits when the file is not ready. -/
def transferSyscall (pid : ℕ) (procData : ProcManProcessProcData)
    (ready : ℕ → Run φ Fault Bool) (waiting : ℕ → ProcManProcessState)
    (run : ProcManProcess → ProcManProcessProcData →
      Run φ Fault (Bool × ProcManProcessProcData)) :
    ProcManRun (Logged φ) (Bool × ProcManProcessProcData) := do
  let globalFd ← onFilesOf (fun _ =>
    procManProcessGetGlobalFdFromLocal F procData (procData.regs 1).toUInt8.toNat)
  if globalFd = KernelFsFdInvalid then pure (true, procData.setReg 0 0)
  else do
    let now ← onFilesOf (fun _ => ready globalFd)
    if now = false then do
      setState pid (waiting globalFd)
      pure (true, procData)
    else onFilesOf (fun table => run (table pid) procData)

def waitPidSyscall (pid : ℕ) (procData : ProcManProcessProcData) :
    ProcManRun (Logged φ) (Bool × ProcManProcessProcData) := do
  let table ← getFirst
  if Live table (procData.regs 1).toNat then do
    let timeoutTime ← onFilesOf (fun _ =>
      if (procData.regs 2).toNat > 0 then do
        let now ← W.ktimeGetMonotonicMs
        pure ((now+(procData.regs 2).toNat*1000) % 2^48)
      else pure 0)
    setState pid (.waitingWaitpid (procData.regs 1).toNat timeoutTime)
    pure (true, procData)
  else pure (true, procData.setReg 0 ProcManExitStatusNoProcess)

/-- Init cannot be killed. The record of a process that kills itself is used
for its end. -/
def killSyscall (pid : ℕ) (procData : ProcManProcessProcData) :
    ProcManRun (Logged φ) (Bool × ProcManProcessProcData) := do
  let target := (procData.regs 1).toUInt8.toNat
  if target = 0 then pure (true, procData)
  else do
    let r ← procManProcessKill F target ProcManExitStatusKilled
      (if target = pid then some procData else none)
    pure (true, r.getD procData)

def signalSyscall (procData : ProcManProcessProcData) :
    ProcManRun (Logged φ) (Bool × ProcManProcessProcData) := do
  let target := (procData.regs 1).toUInt8.toNat
  let signalId := (procData.regs 2).toNat
  if target = 0 ∧ signalId = BytecodeSignalIdSuicide then pure (true, procData)
  else do
    beside (procManProcessSendSignal F target signalId)
    pure (true, procData)

/-- The loop over the processes that are told to end. -/
def signalAll : List ℕ → ProcManRun (Logged φ) Unit
  | [] => pure ()
  | pid::rest => do
      let table ← getFirst
      if Live table pid then do
        beside (procManProcessSendSignal F pid BytecodeSignalIdSuicide)
        signalAll rest
      else signalAll rest

def kernelShutdownBegin : ProcManRun (Logged φ) Unit := do
  let starts ← onFilesOf (fun _ => W.shutdownStarts)
  if starts then signalAll F (List.range' 1 15) else pure ()

def getArgVNSyscall (pid : ℕ) (procData : ProcManProcessProcData) :
    ProcManRun (Logged φ) (Bool × ProcManProcessProcData) := do
  let addr ← onFilesOf (fun table =>
    procManProcessGetArgvNAddr F W.steps (table pid) procData (procData.regs 1).toUInt8.toNat)
  match addr with
  | none => pure (false, procData)
  | some addr => pure (true, procData.setReg 0 addr)

def forkSyscall (pid : ℕ) (procData : ProcManProcessProcData) :
    ProcManRun (Logged φ) (Bool × ProcManProcessProcData) := do
  let procData ← beside (procManProcessFork F pid procData)
  pure (true, procData)

def shutdownSyscall (procData : ProcManProcessProcData) :
    ProcManRun (Logged φ) (Bool × ProcManProcessProcData) := do
  kernelShutdownBegin F W
  pure (true, procData)

/-- What a system call does but for the exit status. -/
def execSyscallId (pid : ℕ) (procData : ProcManProcessProcData) (id : BytecodeSyscallId) :
    ProcManRun (Logged φ) (Bool × ProcManProcessProcData) :=
  match id with
  | .exit => do
      setState pid .exiting
      pure (false, procData)
  | .getPid => pure (true, procData.setReg 0 (UInt16.ofNat pid))
  | .getArgVN => getArgVNSyscall F W pid procData
  | .fork => forkSyscall F pid procData
  | .exec => beside (procManProcessExec F W.steps W.scratch pid procData)
  | .waitPid => waitPidSyscall W pid procData
  | .kill => killSyscall F pid procData
  | .signal => signalSyscall F procData
  | .exec2 => beside (procManProcessExec2 F W.steps W.scratch pid procData)
  | .read => transferSyscall F pid procData F.kernelFsFileCanRead .waitingRead
      (procManProcessRead F)
  | .write => transferSyscall F pid procData F.kernelFsFileCanWrite .waitingWrite
      (procManProcessWrite F)
  | .read32 => transferSyscall F pid procData F.kernelFsFileCanRead .waitingRead32
      (procManProcessRead32 F)
  | .write32 => transferSyscall F pid procData F.kernelFsFileCanWrite .waitingWrite32
      (procManProcessWrite32 F)
  | .shutdown => shutdownSyscall F W procData
  | .other => onFilesOf (fun table => W.otherSyscall pid table procData)

/-- A system call, as the instructions of a tick make it; exit sets the exit
status. -/
def execSyscall : Syscall (Logged φ) := fun pid procData exitStatus => do
  let id := syscallIdOf (procData.regs 0).toNat
  let r ← execSyscallId F W pid procData id
  pure (r.1, r.2, if id = .exit then procData.regs 1 else exitStatus)

end Syscalls

/-! ### Ticks -/

/-- How the instructions of a tick begin. -/
inductive TickStart
  | none
  | kill
  | run (procData : ProcManProcessProcData)

section Ticks

variable {φ : Type} (F : Files φ) (W : World φ)

/-- The stored record, for a process that goes on. -/
def loadToRun (pid : ℕ) (run : ProcManProcessProcData → ProcManRun φ TickStart) :
    ProcManRun φ TickStart := do
  let procData ← onFiles pid (fun process => procManProcessLoadProcData F process)
  match procData with
  | none => pure .kill
  | some procData => run procData

/-- A waiting process is active again, and its transfer is made. A failure
ends it with the record that is stored. -/
def finishTransfer (pid : ℕ) (ready : Run φ Fault Bool)
    (transfer : ProcManProcess → ProcManProcessProcData →
      Run φ Fault (Bool × ProcManProcessProcData)) : ProcManRun φ TickStart := do
  let now ← onFiles pid (fun _ => ready)
  if now = false then pure .none
  else loadToRun F pid (fun procData => do
    setState pid .active
    let r ← onFiles pid (fun process => transfer process procData)
    pure (if r.1 then .run r.2 else .kill))

/-- The wait is over, if it was for a limited time. -/
def waitTimedOut (timeoutTime : ℕ) : Run φ Fault Bool :=
  if timeoutTime > 0 then do
    let now ← W.ktimeGetMonotonicMs
    pure (decide (now ≥ timeoutTime))
  else pure false

/-- What a tick does with the state that it finds. -/
def tickStart (pid : ℕ) (state : ProcManProcessState) : ProcManRun φ TickStart :=
  match state with
  | .unused => pure .none
  | .active => loadToRun F pid (fun procData => pure (.run procData))
  | .waitingWaitpid _ timeoutTime => do
      let timedOut ← onFiles pid (fun _ => waitTimedOut W timeoutTime)
      if timedOut = false then pure .none
      else loadToRun F pid (fun procData => do
        setState pid .active
        pure (.run (procData.setReg 0 ProcManExitStatusTimeout)))
  | .waitingRead fd => finishTransfer F pid (F.kernelFsFileCanRead fd) (procManProcessRead F)
  | .waitingRead32 fd => finishTransfer F pid (F.kernelFsFileCanRead fd) (procManProcessRead32 F)
  | .waitingWrite fd => finishTransfer F pid (F.kernelFsFileCanWrite fd) (procManProcessWrite F)
  | .waitingWrite32 fd =>
      finishTransfer F pid (F.kernelFsFileCanWrite fd) (procManProcessWrite32 F)
  | .exiting => pure .kill

/-- The instructions of a tick, and storing the record after them. -/
def tickRun (pid : ℕ) (procData : ProcManProcessProcData) : ProcManRun (Logged φ) Unit := do
  let r ← procManProcessTickLoop (loggedFiles F) (execSyscall F W) pid (startTick procData)
    procManProcessInstructionsPerTick
  if r.1 = false then do
    let _ ← procManProcessKill F pid r.2.exitStatus (some r.2.procData)
    pure ()
  else do
    let stored ← onFilesOf (fun table =>
      procManProcessStoreProcData F (table pid) r.2.procData)
    if stored then pure ()
    else do
      let _ ← procManProcessKill F pid r.2.exitStatus (some r.2.procData)
      pure ()

def procManProcessTick (pid : ℕ) : ProcManRun (Logged φ) Unit := do
  let table ← getFirst
  if Live table pid then do
    let start ← beside (tickStart F W pid (table pid).state)
    match start with
    | .none => pure ()
    | .kill => do
        let _ ← procManProcessKill F pid ProcManExitStatusKilled none
        pure ()
    | .run procData => tickRun F W pid procData
  else pure ()

def procManResetInstructionCounters : ProcManRun (Logged φ) Unit := fun s =>
  .ok ((), (fun pid => { s.1 pid with instructionCounter := 0 }, s.2))

/-! ### Runs -/

/-- What happens next: a tick, the kernel's own kills and signals, or anything
that the rest of the system does to files and hardware. -/
inductive ManagerAction (φ : Type)
  | tick (pid : ℕ)
  | resetCounters
  | kill (pid : ℕ)
  | signal (pid signalId : ℕ)
  | elsewhere (f : φ → φ)

def act : ManagerAction φ → ProcManRun (Logged φ) Unit
  | .tick pid => procManProcessTick F W pid
  | .resetCounters => procManResetInstructionCounters
  | .kill pid => do
      let _ ← procManProcessKill F pid ProcManExitStatusKilled none
      pure ()
  | .signal pid signalId => beside (procManProcessSendSignal F pid signalId)
  | .elsewhere f => fun s => .ok ((), (s.1, (s.2.1, f s.2.2)))

def manage : List (ManagerAction φ) → ProcManRun (Logged φ) Unit
  | [] => pure ()
  | action::rest => do
      act F W action
      manage rest

end Ticks

end ArduinoOS.Procman
