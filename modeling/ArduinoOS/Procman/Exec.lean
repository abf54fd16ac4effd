import ArduinoOS.Kernel.Normalise
import ArduinoOS.Procman.Fork

/-!
# Exec

The arguments come from the memory of the process, or from the arguments it was
started with, into a buffer of 256 bytes. A script names an interpreter, which
is loaded in its place.
-/

set_option autoImplicit false

namespace ArduinoOS.Procman
open ArduinoOS.CBuffer ArduinoOS.Faulting ArduinoOS.Kernel

def BytecodeMagicByte1 : UInt8 := 47
def BytecodeMagicByte2 : UInt8 := 47
def ARGVMAX : ℕ := 255
def magicByteRecursionCountMax : ℕ := 8

def trapFault : Trap → Fault
  | .outOfBounds => .outOfBounds
  | .diverges => .diverges

/-- What the buffers hold before they are written. -/
structure Scratch where
  argv : Buffer
  tempPwd : Buffer
  tempPath : Buffer
  execPath : Buffer
  interpreterPath : Buffer

/-- The sizes of the buffers. -/
structure Scratch.Sized (scratch : Scratch) : Prop where
  argv : scratch.argv.length = 256
  tempPwd : scratch.tempPwd.length = KernelFsPathMax
  tempPath : scratch.tempPath.length = KernelFsPathMax
  execPath : scratch.execPath.length = KernelFsPathMax
  interpreterPath : scratch.interpreterPath.length = KernelFsPathMax

/-! ### Strings of arguments -/

/-- The place behind the last of these many terminators. -/
def argvEnd (argv : Buffer) (i : ℕ) : ℕ → Except Trap ℕ
  | 0 => .ok i
  | argc+1 => do
      let n ← strlen argv i
      argvEnd argv (i+n+1) argc

def procManArgvStringGetTotalSize (argc : ℕ) (argv : Buffer) : Except Trap ℕ :=
  argvEnd argv 0 argc

/-- The arguments become the interpreter and the first argument of before. -/
def procManArgvUpdateForInterpreter (argv interpreterPath : Buffer) : Except Trap Buffer := do
  let interpreter ← stringAt interpreterPath 0
  let arg0Size ← strlen argv 0
  let argv ← memmove argv interpreter.length 0 (arg0Size+1)
  memcpy argv 0 interpreter

/-- The characters of a string in a buffer. -/
def charsOf : List UInt8 → CStr
  | [] => []
  | c::rest => if h : c ≠ 0 then ⟨c, h⟩::charsOf rest else []

section Loading

variable {φ : Type} (F : Files φ) (steps : ℕ)

def onBuffer {α : Type} (x : Except Trap α) : Run φ Fault α :=
  fromExcept (x.mapError trapFault)

/-- A path in a buffer, for the file system. -/
def pathOf (b : Buffer) : Run φ Fault CStr := do
  let bytes ← onBuffer (stringAt b 0)
  pure (charsOf bytes)

/-- A string of the process's memory is placed at this offset. -/
def readStrInto (process : ProcManProcess) (procData : ProcManProcessProcData) (b : Buffer)
    (offset : ℕ) (addr : UInt16) : ℕ → Run φ Fault (Option Buffer)
  | 0 => pure (some b)
  | len+1 => do
      let c ← procManProcessMemoryReadByte F process procData addr
      match c with
      | none => pure none
      | some c => do
          let b ← onBuffer (put b offset c)
          if c = 0 then pure (some b)
          else readStrInto process procData b (offset+1) (addr+1) len

/-- One directory of PATH, with the name behind it. -/
def joinPath (execPath directory argv : Buffer) : Except Trap Buffer := do
  let execPath ← memcpy execPath 0 (directory++[0])
  let execPath ← strcat execPath [47, 0]
  let name ← stringAt argv 0
  let execPath ← strcat execPath name
  kernelFsPathNormalise steps execPath

/-- The directory at this place of PATH, and the place behind it. -/
def pathPart (envPath : Buffer) (ptr : ℕ) : Except Trap (List UInt8 × ℕ) := do
  let colon ← strchr envPath ptr 58
  match colon with
  | some colon => do
      let directory ← slice envPath ptr (colon-ptr)
      .ok (directory, colon+1)
  | none => do
      let n ← strlen envPath ptr
      let directory ← slice envPath ptr n
      .ok (directory, ptr+n)

/-- The loop over the directories of PATH. -/
def searchPath (execPath argv envPath : Buffer) (ptr : ℕ) : ℕ → Run φ Fault Buffer
  | 0 => throw .diverges
  | left+1 => do
      let c ← onBuffer (CBuffer.get envPath ptr)
      if c = 0 then pure execPath
      else do
        let part ← onBuffer (pathPart envPath ptr)
        if part.1 = [] then do
          let execPath ← onBuffer (memcpy execPath 0 [0])
          searchPath execPath argv envPath part.2 left
        else do
          let candidate ← onBuffer (joinPath steps execPath part.1 argv)
          let path ← pathOf candidate
          let found ← F.kernelFsFileExists path
          if found then pure candidate
          else do
            let execPath ← onBuffer (strcpy candidate argv 0)
            let execPath ← onBuffer (kernelFsPathNormalise steps execPath)
            searchPath execPath argv envPath part.2 left

/-- The path of the program, from the first argument. -/
def execPathOf (scratch argv : Buffer) (envPath envPwd : Option Buffer) : Run φ Fault Buffer := do
  let execPath ← onBuffer (strcpy scratch argv 0)
  let execPath ← onBuffer (kernelFsPathNormalise steps execPath)
  let execPath ← match envPath with
    | none => pure execPath
    | some envPath => do
        let slash ← onBuffer (strchr execPath 0 47)
        match slash with
        | some _ => pure execPath
        | none => searchPath F steps execPath argv envPath 0 steps
  match envPwd with
  | none => pure execPath
  | some envPwd => do
      let c ← onBuffer (CBuffer.get execPath 0)
      if c = 47 then pure execPath
      else do
        let pwd ← onBuffer (stringAt envPwd 0)
        onBuffer (joinPath steps execPath pwd.dropLast argv)

/-- The interpreter named in a script; `none` when there is no line. -/
def interpreterOf (scratch : Buffer) (fd : ℕ) : Run φ Fault (Option Buffer) := do
  let r ← F.kernelFsFileReadOffset fd 2 KernelFsPathMax
  let b ← onBuffer (memcpy scratch 0 r.1)
  if r.2 = 0 then throw .outOfBounds
  else do
    let b ← onBuffer (put b (r.2-1) 0)
    let newline ← onBuffer (strchr b 0 10)
    match newline with
    | none => pure none
    | some newline => do
        let b ← onBuffer (put b newline 0)
        let b ← onBuffer (kernelFsPathNormalise steps b)
        pure (some b)

/-- A loaded program: its descriptor and its arguments. -/
structure Loaded where
  progmemFd : ℕ
  argc : ℕ
  argv : Buffer

/-- The loop over interpreters. -/
def loadLoop (interpreterPath : Buffer) (loopExecFile argv : Buffer) (argc : ℕ) :
    ℕ → Run φ Fault (Option Loaded)
  | 0 => pure none
  | left+1 => do
      let path ← pathOf loopExecFile
      let fd ← F.kernelFsFileOpen path KernelFsFdModeRO
      if fd = KernelFsFdInvalid then pure none
      else do
        let magic ← readFully F fd 0 2
        match magic with
        | none => do
            let _ ← F.kernelFsFileClose fd
            pure none
        | some magic =>
            if magic = [BytecodeMagicByte1, BytecodeMagicByte2] then
              pure (some ⟨fd, argc, argv⟩)
            else if magic = [35, 33] then do
              let interpreter ← interpreterOf F steps interpreterPath fd
              let _ ← F.kernelFsFileClose fd
              match interpreter with
              | none => pure none
              | some interpreter => do
                  let argv ← onBuffer (procManArgvUpdateForInterpreter argv interpreter)
                  loadLoop interpreter argv argv 2 left
            else do
              let _ ← F.kernelFsFileClose fd
              pure none

def procManProcessLoadProgmemFile (scratch : Scratch) (argc : ℕ) (argv : Buffer)
    (envPath envPwd : Option Buffer) : Run φ Fault (Option Loaded) := do
  let execPath ← execPathOf F steps scratch.execPath argv envPath envPwd
  let path ← pathOf execPath
  if kernelFsPathIsValid path = false then pure none
  else do
    let dir ← F.kernelFsFileIsDir path
    if dir then pure none
    else loadLoop F steps scratch.interpreterPath execPath argv argc magicByteRecursionCountMax

end Loading

/-! ### The new program -/

/-- The pwd, the path and the program of an exec. -/
structure ExecPlan where
  loaded : Loaded
  tempPwd : Buffer
  tempPath : Buffer

/-- What an exec comes to before it changes anything. -/
inductive ExecPrepared
  | killed
  | failed
  | ready (plan : ExecPlan)

/-- The new layout of the variables. -/
structure ExecLayout where
  argvTotalSize : ℕ
  pwd : List UInt8
  path : List UInt8

section Replacing

variable {φ : Type} (F : Files φ) (steps : ℕ)

/-- A string of the environment, normalised. -/
def readEnvPath (process : ProcManProcess) (procData : ProcManProcessProcData) (b : Buffer)
    (addr : UInt16) : Run φ Fault (Option Buffer) := do
  let b ← readStrInto F process procData b 0 addr KernelFsPathMax
  match b with
  | none => pure none
  | some b => do
      let b ← onBuffer (kernelFsPathNormalise steps b)
      pure (some b)

def execPrepare (scratch : Scratch) (process : ProcManProcess)
    (procData : ProcManProcessProcData) (argc : ℕ) (argv : Buffer) :
    Run φ Fault ExecPrepared := do
  let tempPwd ← readEnvPath F steps process procData scratch.tempPwd procData.pwd
  match tempPwd with
  | none => pure .killed
  | some tempPwd => do
      let tempPath ← readEnvPath F steps process procData scratch.tempPath procData.path
      match tempPath with
      | none => pure .killed
      | some tempPath => do
          let search := procData.regs 3 ≠ 0
          let loaded ← procManProcessLoadProgmemFile F steps scratch argc argv
            (if search then some tempPath else none) (if search then some tempPwd else none)
          match loaded with
          | none => pure .failed
          | some loaded => pure (.ready ⟨loaded, tempPwd, tempPath⟩)

/-- The record of the new program; its lengths are bytes. -/
def execProcData (procData : ProcManProcessProcData) (argc : ℕ) (layout : ExecLayout) :
    ProcManProcessProcData :=
  let afterArgv := UInt8.ofNat layout.argvTotalSize
  let afterPwd := afterArgv+UInt8.ofNat layout.pwd.length
  { procData.setReg BytecodeRegisterIP 0 with
    argc := UInt8.ofNat argc
    pwd := UInt16.ofNat ProcManEnvVarsVirtualOffset+afterArgv.toUInt16
    path := UInt16.ofNat ProcManEnvVarsVirtualOffset+afterPwd.toUInt16
    envVarDataLen := afterPwd+UInt8.ofNat layout.path.length
    ramLen := 0 }

/-- The variables are written and the record is stored. -/
def execWrite (process : ProcManProcess) (procData : ProcManProcessProcData)
    (argvBytes : List UInt8) (layout : ExecLayout) :
    Run φ Fault (Bool × ProcManProcessProcData) := do
  let written ← writeFully F procData.ramFd.toNat 0 argvBytes
  if written = false then pure (false, procData)
  else do
    let written ← writeFully F procData.ramFd.toNat
      (procData.pwd.toNat-ProcManEnvVarsVirtualOffset) layout.pwd
    if written = false then pure (false, procData)
    else do
      let written ← writeFully F procData.ramFd.toNat
        (procData.path.toNat-ProcManEnvVarsVirtualOffset) layout.path
      if written = false then pure (false, procData)
      else do
        let cleared := { procData with signalHandlers := fun _ => ProcManSignalHandlerInvalid }
        let stored ← procManProcessStoreProcData F process cleared
        pure (stored, cleared)

/-- The RAM file is made anew for the variables. -/
def execCommit (pid : ℕ) (plan : ExecPlan) (process : ProcManProcess)
    (procData : ProcManProcessProcData) : Run φ Fault (Bool × ProcManProcessProcData) := do
  let argvTotalSize ← onBuffer (procManArgvStringGetTotalSize plan.loaded.argc plan.loaded.argv)
  let pwd ← onBuffer (stringAt plan.tempPwd 0)
  let path ← onBuffer (stringAt plan.tempPath 0)
  let layout := ExecLayout.mk argvTotalSize pwd path
  let procData := execProcData procData plan.loaded.argc layout
  let _ ← F.kernelFsFileClose procData.ramFd.toNat
  let resized ← F.kernelFsFileResize (ramFilePath pid) procData.envVarDataLen.toNat
  if resized = false then pure (false, procData)
  else do
    let ramFd ← F.kernelFsFileOpen (ramFilePath pid) KernelFsFdModeRW
    if ramFd = KernelFsFdInvalid then throw .assertFailed
    else do
      let argvBytes ← onBuffer (slice plan.loaded.argv 0 argvTotalSize)
      execWrite F process { procData with ramFd := UInt8.ofNat ramFd } argvBytes layout

/-- The program is replaced; `false` when the process is to be killed. -/
def procManProcessExecCommon (scratch : Scratch) (pid : ℕ) (procData : ProcManProcessProcData)
    (argc : ℕ) (argv : Buffer) : ProcManRun φ (Bool × ProcManProcessProcData) := do
  let prepared ← onFiles pid (fun process =>
    execPrepare F steps scratch process procData argc argv)
  match prepared with
  | .killed => pure (false, procData)
  | .failed => pure (true, procData)
  | .ready plan => do
      let table ← getFirst
      let _ ← onFiles pid (fun process => F.kernelFsFileClose process.progmemFd)
      setFirst (Function.update table pid
        { table pid with progmemFd := plan.loaded.progmemFd })
      onFiles pid (fun process => execCommit F pid plan process procData)

/-! ### The arguments -/

/-- The loop over the arguments in the memory of the process. The total size
that is asserted afterwards is counted in the same way. -/
def readArgv (process : ProcManProcess) (procData : ProcManProcessProcData) (argvPtr : UInt16)
    (argv : Buffer) (argvTotalSize : ℕ) : ℕ → Run φ Fault (Option Buffer)
  | 0 => pure (some argv)
  | argc+1 => do
      let read ← readStrInto F process procData argv argvTotalSize
        (argvPtr+UInt16.ofNat argvTotalSize) KernelFsPathMax
      match read with
      | none => pure none
      | some argv => do
          let n ← onBuffer (strlen argv argvTotalSize)
          readArgv process procData argvPtr argv (argvTotalSize+n+1) argc

def procManProcessExec (scratch : Scratch) (pid : ℕ) (procData : ProcManProcessProcData) :
    ProcManRun φ (Bool × ProcManProcessProcData) :=
  let argc := (procData.regs 1).toUInt8.toNat
  if argc < 1 then pure (false, procData)
  else do
    let argv ← onFiles pid (fun process =>
      readArgv F process procData (procData.regs 2) scratch.argv 0 argc)
    match argv with
    | none => pure (false, procData)
    | some argv => procManProcessExecCommon F steps scratch pid procData argc argv

/-- The address of the n-th argument from this address on. -/
def argvAddr (process : ProcManProcess) (procData : ProcManProcessProcData) (addr : UInt16)
    (n : ℕ) : ℕ → Run φ Fault (Option UInt16)
  | 0 => throw .diverges
  | left+1 =>
      if n = 0 then pure (some addr)
      else do
        let c ← procManProcessMemoryReadByte F process procData addr
        match c with
        | none => pure none
        | some c => argvAddr process procData (addr+1) (if c = 0 then n-1 else n) left

/-- `false` for the answer when the variables cannot be read. -/
def procManProcessGetArgvNAddr (process : ProcManProcess) (procData : ProcManProcessProcData)
    (n : ℕ) : Run φ Fault (Option UInt16) :=
  if n ≥ ARGVMAX ∨ n ≥ procData.argc.toNat then pure (some 0)
  else argvAddr F process procData (UInt16.ofNat ProcManEnvVarsVirtualOffset) n steps

def procManProcessGetArgvNStr (process : ProcManProcess) (procData : ProcManProcessProcData)
    (n : ℕ) (argv : Buffer) (offset : ℕ) : Run φ Fault (Option Buffer) :=
  if n ≥ ARGVMAX ∨ n ≥ procData.argc.toNat then do
    let argv ← onBuffer (put argv offset 0)
    pure (some argv)
  else do
    let addr ← argvAddr F process procData (UInt16.ofNat ProcManEnvVarsVirtualOffset) n steps
    match addr with
    | none => pure none
    | some addr => readStrInto F process procData argv offset addr 65535

/-- The loop over the arguments that the process was started with. -/
def copyArgv (process : ProcManProcess) (procData : ProcManProcessProcData) (argv : Buffer)
    (argvOffset n : ℕ) : ℕ → Run φ Fault (Option Buffer)
  | 0 => pure (some argv)
  | argc+1 => do
      let read ← procManProcessGetArgvNStr F steps process procData (u8 n) argv argvOffset
      match read with
      | none => pure none
      | some argv => do
          let len ← onBuffer (strlen argv argvOffset)
          copyArgv process procData argv (argvOffset+len+1) (n+1) argc

def procManProcessExec2 (scratch : Scratch) (pid : ℕ) (procData : ProcManProcessProcData) :
    ProcManRun φ (Bool × ProcManProcessProcData) :=
  let start := (procData.regs 1).toUInt8.toNat
  let given := (procData.regs 2).toUInt8.toNat
  if start ≥ procData.argc.toNat ∨ given < 1 then pure (true, procData)
  else do
    let argc := if start+given > procData.argc.toNat then procData.argc.toNat-start else given
    let argv ← onFiles pid (fun process =>
      copyArgv F steps process procData scratch.argv 0 start argc)
    match argv with
    | none => pure (false, procData)
    | some argv => procManProcessExecCommon F steps scratch pid procData argc argv

end Replacing

end ArduinoOS.Procman
