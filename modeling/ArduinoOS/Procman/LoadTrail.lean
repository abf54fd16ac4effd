import ArduinoOS.Procman.Exec
import ArduinoOS.Kernel.PathSteps
import Mathlib.Logic.Function.Basic

/-!
# The files that a loaded program is looked for in

The loop over interpreters once more, with the files it tries and the arguments
each time. A script is to lead to the file its first line names, with itself as
the argument; that comes to pass where the loop finds the line.
-/

set_option autoImplicit false

namespace ArduinoOS.Procman
open ArduinoOS.CBuffer ArduinoOS.Faulting ArduinoOS.Kernel

/-- The arguments of a loaded program. -/
def Loaded.args (l : Loaded) : ℕ × Buffer := (l.argc, l.argv)

/-- A file that is tried, and the arguments at that time. -/
structure Tried where
  path : CStr
  argc : ℕ
  argv : Buffer

section Traced

variable {φ : Type} (F : Files φ) (steps : ℕ)

/-- `loadLoop`, with the files it opens. -/
def loadLoopTraced (interpreterPath loopExecFile argv : Buffer) (argc : ℕ) :
    ℕ → Run φ Fault (List Tried × Option Loaded)
  | 0 => pure ([], none)
  | left+1 => do
      let path ← pathOf loopExecFile
      let fd ← F.kernelFsFileOpen path KernelFsFdModeRO
      if fd = KernelFsFdInvalid then pure ([⟨path, argc, argv⟩], none)
      else do
        let magic ← readFully F fd 0 2
        match magic with
        | none => do
            let _ ← F.kernelFsFileClose fd
            pure ([⟨path, argc, argv⟩], none)
        | some magic =>
            if magic = [BytecodeMagicByte1, BytecodeMagicByte2] then
              pure ([⟨path, argc, argv⟩], some ⟨fd, argc, argv⟩)
            else if magic = [35, 33] then do
              let interpreter ← interpreterOf F steps interpreterPath fd
              let _ ← F.kernelFsFileClose fd
              match interpreter with
              | none => pure ([⟨path, argc, argv⟩], none)
              | some interpreter => do
                  let argv' ← onBuffer (procManArgvUpdateForInterpreter argv interpreter)
                  let r ← loadLoopTraced interpreter argv' argv' 2 left
                  pure (⟨path, argc, argv⟩::r.1, r.2)
            else do
              let _ ← F.kernelFsFileClose fd
              pure ([⟨path, argc, argv⟩], none)

def procManProcessLoadProgmemFileTraced (scratch : Scratch) (argc : ℕ) (argv : Buffer)
    (envPath envPwd : Option Buffer) : Run φ Fault (List Tried × Option Loaded) := do
  let execPath ← execPathOf F steps scratch.execPath argv envPath envPwd
  let path ← pathOf execPath
  if kernelFsPathIsValid path = false then pure ([], none)
  else do
    let dir ← F.kernelFsFileIsDir path
    if dir then pure ([], none)
    else
      loadLoopTraced F steps scratch.interpreterPath execPath argv argc magicByteRecursionCountMax

theorem loadLoopTraced_answer (left : ℕ) : ∀ (interpreterPath loopExecFile argv : Buffer)
    (argc : ℕ), (do
      let r ← loadLoopTraced F steps interpreterPath loopExecFile argv argc left
      pure r.2) = loadLoop F steps interpreterPath loopExecFile argv argc left := by
  induction left with
  | zero =>
    intro interpreterPath loopExecFile argv argc
    rfl
  | succ left ih =>
    intro interpreterPath loopExecFile argv argc
    rw [loadLoopTraced, loadLoop, bind_assoc]
    apply bind_congr
    intro path
    rw [bind_assoc]
    apply bind_congr
    intro fd
    by_cases hfd : fd = KernelFsFdInvalid
    · rw [if_pos hfd, if_pos hfd]
      rfl
    rw [if_neg hfd, if_neg hfd, bind_assoc]
    apply bind_congr
    intro magic
    cases magic with
    | none => simp only [bind_assoc, pure_bind]
    | some magic =>
      dsimp only
      by_cases hnative : magic = [BytecodeMagicByte1, BytecodeMagicByte2]
      · rw [if_pos hnative, if_pos hnative]
        rfl
      rw [if_neg hnative, if_neg hnative]
      by_cases hscript : magic = [35, 33]
      · rw [if_pos hscript, if_pos hscript, bind_assoc]
        apply bind_congr
        intro interpreter
        rw [bind_assoc]
        apply bind_congr
        intro closed
        cases interpreter with
        | none => rfl
        | some interpreter =>
          dsimp only
          rw [bind_assoc]
          apply bind_congr
          intro argv'
          rw [bind_assoc, ← ih]
          simp only [pure_bind]
      · rw [if_neg hscript, if_neg hscript, bind_assoc]
        simp only [pure_bind]

theorem procManProcessLoadProgmemFileTraced_answer (scratch : Scratch) (argc : ℕ) (argv : Buffer)
    (envPath envPwd : Option Buffer) : (do
      let r ← procManProcessLoadProgmemFileTraced F steps scratch argc argv envPath envPwd
      pure r.2) = procManProcessLoadProgmemFile F steps scratch argc argv envPath envPwd := by
  rw [procManProcessLoadProgmemFileTraced, procManProcessLoadProgmemFile, bind_assoc]
  apply bind_congr
  intro execPath
  rw [bind_assoc]
  apply bind_congr
  intro path
  by_cases hvalid : kernelFsPathIsValid path = false
  · rw [if_pos hvalid, if_pos hvalid]
    rfl
  · rw [if_neg hvalid, if_neg hvalid, bind_assoc]
    apply bind_congr
    intro dir
    cases dir with
    | true => rfl
    | false => exact loadLoopTraced_answer F steps _ _ _ _ _

end Traced

/-! ### The files behind the calls -/

/-- The files that can be opened while the table of open files is this one, and
what else the calls answer then. -/
structure Disk where
  table : ℕ → Option OpenFile
  content : CStr → Option (List UInt8)
  present : CStr → Bool
  directory : CStr → Bool

section Calls

variable {φ : Type} (F : Files φ) (Inv : φ → Prop) (fds : φ → ℕ → Option OpenFile) (d : Disk)

/-- No file has been opened, or each one has been closed again. -/
def Idle (s : φ) : Prop := Inv s ∧ fds s = d.table

/-- One file has been opened for reading. -/
def Holding (fd : ℕ) (path : CStr) (s : φ) : Prop :=
  Inv s ∧ d.table fd = none ∧
    fds s = Function.update d.table fd (some ⟨path, KernelFsFdModeRO, 1⟩)

/-- The calls of the loader do what they are for. -/
structure Serves : Prop where
  openNone : ∀ s path, Idle Inv fds d s → d.content path = none →
    ∃ s', F.kernelFsFileOpen path KernelFsFdModeRO s = .ok (KernelFsFdInvalid, s') ∧
      Idle Inv fds d s'
  openSome : ∀ s path, Idle Inv fds d s → d.content path ≠ none →
    ∃ fd s', F.kernelFsFileOpen path KernelFsFdModeRO s = .ok (fd, s') ∧
      fd ≠ KernelFsFdInvalid ∧ Holding Inv fds d fd path s'
  read : ∀ s fd path c offset len, Holding Inv fds d fd path s → d.content path = some c →
    ∃ s', F.kernelFsFileReadOffset fd offset len s =
      .ok (((c.drop offset).take len, ((c.drop offset).take len).length), s') ∧
      Holding Inv fds d fd path s'
  close : ∀ s fd path, Holding Inv fds d fd path s →
    ∃ k s', F.kernelFsFileClose fd s = .ok (k, s') ∧ Idle Inv fds d s'
  fileExists : ∀ path, Gives (Idle Inv fds d) (F.kernelFsFileExists path) (.ok (d.present path))
  isDir : ∀ path, Gives (Idle Inv fds d) (F.kernelFsFileIsDir path) (.ok (d.directory path))

end Calls

/-- Files of which it is only known whether they are there. -/
def presentFiles (present : CStr → Bool) : Files Unit where
  kernelFsFileReadOffset _ _ _ := throw .assertFailed
  kernelFsFileWriteOffset _ _ _ := throw .assertFailed
  kernelFsFileOpen _ _ := throw .assertFailed
  kernelFsFileClose _ := throw .assertFailed
  kernelFsFileDupeOrOpen _ := throw .assertFailed
  kernelFsFileCreateWithSize _ _ := throw .assertFailed
  kernelFsFileResize _ _ := throw .assertFailed
  kernelFsFileDelete _ := throw .assertFailed
  kernelFsGetFilePath _ := throw .assertFailed
  kernelFsFileIsOpen _ := throw .assertFailed
  kernelFsFileExists path := pure (present path)
  kernelFsFileIsDir _ := throw .assertFailed
  kernelFsFileCanRead _ := throw .assertFailed
  kernelFsFileCanWrite _ := throw .assertFailed
  kernelUnmount _ := throw .assertFailed

/-- The path that a name stands for where these files are present, when the paths
tried on the way can be normalised. -/
def PathFor (present : CStr → Bool) (steps : ℕ) (execPath argv : Buffer)
    (envPath envPwd : Option Buffer) (b : Buffer) (path : CStr) : Prop :=
  execPathOf (presentFiles present) steps execPath argv envPath envPwd () = .ok (b, ()) ∧
    Shows b path

/-! ### Scripts -/

/-- A script: its first line fits a path. -/
structure IsScript (c line behind : List UInt8) : Prop where
  content : c = [35, 33]++(line++10::behind)
  ends : 10 ∉ line
  short : line.length < KernelFsPathMax

def IsNative (c : List UInt8) : Prop := c.take 2 = [BytecodeMagicByte1, BytecodeMagicByte2]

/-- The first line of the script in the buffer that the file was read into. -/
def lineBuffer (interpreterPath line behind : List UInt8) : Buffer :=
  let bytes := (line++10::behind).take KernelFsPathMax
  ((bytes++interpreterPath.drop bytes.length).set (bytes.length-1) 0).set line.length 0

/-- The line, normalised where it stands. -/
def LineNames (steps : ℕ) (interpreterPath line behind : List UInt8) (b : Buffer) (next : CStr) :
    Prop :=
  kernelFsPathNormalise steps (lineBuffer interpreterPath line behind) = .ok b ∧ Shows b next

/-- What the loop over interpreters is to do from this file on, with so many files
to try at most. A program that is found comes with its arguments. -/
inductive Trail (d : Disk) (steps : ℕ) :
    ℕ → Buffer → CStr → ℕ → Buffer → List Tried → Option (ℕ × Buffer) → Prop
  | absent {left argc : ℕ} {interpreterPath argv : Buffer} {path : CStr}
      (hnone : d.content path = none) :
      Trail d steps (left+1) interpreterPath path argc argv [⟨path, argc, argv⟩] none
  | native {left argc : ℕ} {interpreterPath argv : Buffer} {path : CStr} {c : List UInt8}
      (hsome : d.content path = some c) (hnative : IsNative c) :
      Trail d steps (left+1) interpreterPath path argc argv [⟨path, argc, argv⟩]
        (some (argc, argv))
  | refused {left argc : ℕ} {interpreterPath argv : Buffer} {path : CStr} {c : List UInt8}
      (hsome : d.content path = some c) (hnative : ¬ IsNative c)
      (hscript : ∀ line behind, ¬ IsScript c line behind) :
      Trail d steps (left+1) interpreterPath path argc argv [⟨path, argc, argv⟩] none
  | last {argc : ℕ} {interpreterPath argv : Buffer} {path : CStr} {c line behind : List UInt8}
      (hsome : d.content path = some c) (hscript : IsScript c line behind) :
      Trail d steps 1 interpreterPath path argc argv [⟨path, argc, argv⟩] none
  | script {left argc : ℕ} {interpreterPath argv b argv' : Buffer} {path next : CStr}
      {c line behind : List UInt8} {tried : List Tried} {found : Option (ℕ × Buffer)}
      (hsome : d.content path = some c) (hscript : IsScript c line behind)
      (hnames : LineNames steps interpreterPath line behind b next)
      (hargv : next.bytes++path.bytes <+: argv')
      (hrest : Trail d steps (left+1) b next 2 argv' tried found) :
      Trail d steps (left+2) interpreterPath path argc argv (⟨path, argc, argv⟩::tried) found

section Right

variable {φ : Type} (F : Files φ) (Inv : φ → Prop) (fds : φ → ℕ → Option OpenFile) (d : Disk)
  (steps : ℕ) (scratch : Scratch) (argc : ℕ) (argv : Buffer) (envPath envPwd : Option Buffer)

/-- What is left open: the file of the loaded program, the last that was tried. -/
def LeftOpen (tried : List Tried) (loaded : Option Loaded) (s : φ) : Prop :=
  match loaded with
  | none => Idle Inv fds d s
  | some l => l.progmemFd ≠ KernelFsFdInvalid ∧ ∃ path c, Tried.path <$> tried.getLast? = some path ∧
      d.content path = some c ∧ IsNative c ∧ Holding Inv fds d l.progmemFd path s

/-- The loader comes to an end. From the path of the name on it has tried at most
eight files, each one as the one before names it, and what it leaves open is the
native program that it answers. -/
def LoadRight (s : φ) : Prop :=
  ∃ tried loaded s' b path,
    procManProcessLoadProgmemFileTraced F steps scratch argc argv envPath envPwd s =
      .ok ((tried, loaded), s') ∧
    PathFor d.present steps scratch.execPath argv envPath envPwd b path ∧
    (if kernelFsPathIsValid path = false ∨ d.directory path = true then tried = [] ∧ loaded = none
      else Trail d steps magicByteRecursionCountMax scratch.interpreterPath path argc argv tried
        (loaded.map Loaded.args)) ∧
    tried.length ≤ magicByteRecursionCountMax ∧
    LeftOpen Inv fds d tried loaded s'

end Right

/-- The loop finds the first line. -/
structure LineFound (line behind : List UInt8) : Prop where
  more : behind ≠ []
  short : line.length+1 < KernelFsPathMax
  plain : 0 ∉ line

/-- From this file on, with so many to try: no script is without a byte behind `#!`;
the first line of each is found and can be normalised, and the first argument is
the path of the script. Of the last one only what is found is to be normalised. -/
def ScriptsKept (d : Disk) (steps : ℕ) : ℕ → Buffer → CStr → CStr → Prop
  | 0, _, _, _ => True
  | left+1, interpreterPath, path, arg0 =>
    d.content path ≠ some [35, 33] ∧
    ∀ c line behind, d.content path = some c → IsScript c line behind →
      (LineFound line behind → ∃ b next, LineNames steps interpreterPath line behind b next ∧
        ScriptsKept d steps left b next next) ∧
      (left ≠ 0 → LineFound line behind ∧ arg0 = path)

def LoadKept (d : Disk) (steps : ℕ) (scratch : Scratch) (argv : Buffer)
    (envPath envPwd : Option Buffer) (arg0 : CStr) : Prop :=
  ∃ b path, PathFor d.present steps scratch.execPath argv envPath envPwd b path ∧
    (kernelFsPathIsValid path = false ∨ d.directory path = true ∨
      ScriptsKept d steps magicByteRecursionCountMax scratch.interpreterPath path arg0)

end ArduinoOS.Procman
