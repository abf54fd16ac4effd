import ArduinoOS.Kernel.Mounting
import ArduinoOS.Minifs.Operations

/-!
# What processes use of the kernel's file system

The calls the process manager makes, as an interface with the kernel's own
functions as one instance, and what they mean: a view with the contents of the
regular files and the table of open files, and what each call may do to it.
-/

set_option autoImplicit false

namespace ArduinoOS.Procman
open ArduinoOS.Faulting ArduinoOS.Kernel ArduinoOS.Minifs

/-- The calls; a read gives the buffer and the count. -/
structure Files (φ : Type) where
  kernelFsFileReadOffset (fd offset dataLen : ℕ) : Run φ Fault (List UInt8 × ℕ)
  kernelFsFileWriteOffset (fd offset : ℕ) (data : List UInt8) : Run φ Fault ℕ
  kernelFsFileOpen (path : CStr) (mode : ℕ) : Run φ Fault ℕ
  kernelFsFileClose (fd : ℕ) : Run φ Fault ℕ
  kernelFsFileDupeOrOpen (fd : ℕ) : Run φ Fault ℕ
  kernelFsFileCreateWithSize (path : CStr) (size : ℕ) : Run φ Fault Bool
  kernelFsFileResize (path : CStr) (newSize : ℕ) : Run φ Fault Bool
  kernelFsFileDelete (path : CStr) : Run φ Fault Bool
  kernelFsGetFilePath (fd : ℕ) : Run φ Fault (Option CStr)
  kernelFsFileIsOpen (path : CStr) : Run φ Fault Bool
  kernelFsFileExists (path : CStr) : Run φ Fault Bool
  kernelFsFileIsDir (path : CStr) : Run φ Fault Bool
  kernelFsFileCanRead (fd : ℕ) : Run φ Fault Bool
  kernelFsFileCanWrite (fd : ℕ) : Run φ Fault Bool
  kernelUnmount (dirPath : CStr) : Run φ Fault Unit

/-- The kernel's functions on its tables and hardware. -/
def kernelFiles {σ : Type} (p : Platform σ) : Files (Tables × σ) where
  kernelFsFileReadOffset fd offset dataLen :=
    access p (fun f t => Kernel.kernelFsFileReadOffset f p.fat t fd offset dataLen)
  kernelFsFileWriteOffset fd offset data :=
    access p (fun f t => Kernel.kernelFsFileWriteOffset f t fd offset data)
  kernelFsFileOpen := Kernel.kernelFsFileOpen p
  kernelFsFileClose := fileClose
  kernelFsFileDupeOrOpen := Kernel.kernelFsFileDupeOrOpen p
  kernelFsFileCreateWithSize := Kernel.kernelFsFileCreateWithSize p
  kernelFsFileResize := Kernel.kernelFsFileResize p
  kernelFsFileDelete := Kernel.kernelFsFileDelete p
  kernelFsGetFilePath fd := do
    let t ← getFirst
    fromExcept (Kernel.kernelFsGetFilePath t fd)
  kernelFsFileIsOpen path := do
    let t ← getFirst
    pure (Kernel.kernelFsFileIsOpen t path)
  kernelFsFileExists path := access p (fun f t => Kernel.kernelFsFileExists f p.fat t path)
  kernelFsFileIsDir path := access p (fun f t => Kernel.kernelFsFileIsDir f p.fat t path)
  kernelFsFileCanRead fd := access p (fun f t => Kernel.kernelFsFileCanRead f t fd)
  kernelFsFileCanWrite fd := access p (fun f t => Kernel.kernelFsFileCanWrite f t fd)
  kernelUnmount := Kernel.kernelUnmount

/-! ### What the calls mean -/

structure OpenFile where
  path : CStr
  mode : ℕ
  refCount : ℕ
  deriving DecidableEq

/-- The contents of the regular files and the table of open files. -/
structure FsView where
  file : CStr → Option (List UInt8)
  fd : ℕ → Option OpenFile

namespace FsView

def setFile (v : FsView) (path : CStr) (c : Option (List UInt8)) : FsView :=
  { v with file := fun q => if q = path then c else v.file q }

def setFd (v : FsView) (fd : ℕ) (e : Option OpenFile) : FsView :=
  { v with fd := fun i => if i = fd then e else v.fd i }

@[simp] theorem setFile_file (v : FsView) (path q : CStr) (c : Option (List UInt8)) :
    (v.setFile path c).file q = if q = path then c else v.file q := rfl

@[simp] theorem setFile_fd (v : FsView) (path : CStr) (c : Option (List UInt8)) :
    (v.setFile path c).fd = v.fd := rfl

@[simp] theorem setFd_file (v : FsView) (fd : ℕ) (e : Option OpenFile) :
    (v.setFd fd e).file = v.file := rfl

@[simp] theorem setFd_fd (v : FsView) (fd i : ℕ) (e : Option OpenFile) :
    (v.setFd fd e).fd i = if i = fd then e else v.fd i := rfl

/-- The entry after one reference is given up. -/
def closed (e : OpenFile) : Option OpenFile :=
  if e.refCount = 1 then none else some { e with refCount := e.refCount-1 }

end FsView

/-- What a content may become by a write that may have failed midway. -/
structure Written (old : List UInt8) (offset : ℕ) (data : List UInt8) (n : ℕ) (new : List UInt8) :
    Prop where
  length : new.length = old.length
  outside : ∀ k, k < offset ∨ offset+data.length ≤ k → new[k]? = old[k]?
  count : n ≤ data.length
  full : n = data.length →
    new = patch old offset data ∧ (data = [] ∨ offset+data.length ≤ old.length)

/-- What the calls do to the view, whether they succeed or fail. `Inv` is what
the tables keep; `largest` bounds the sizes a volume can describe. -/
structure FilesLaw {φ : Type} (F : Files φ) (Inv : φ → Prop) (view : φ → FsView)
    (largest : ℕ) : Prop where
  fd_lt : ∀ s fd e, Inv s → (view s).fd fd = some e → fd < KernelFsFdMax
  read : ∀ s s' fd offset len e c r, Inv s → (view s).fd fd = some e →
    (view s).file e.path = some c → F.kernelFsFileReadOffset fd offset len s = .ok (r, s') →
    Inv s' ∧ view s' = view s ∧
      (r.2 = len → r.1 = (c.drop offset).take len ∧ r.1.length = len)
  write : ∀ s s' fd offset data e c n, Inv s → (view s).fd fd = some e →
    (view s).file e.path = some c → F.kernelFsFileWriteOffset fd offset data s = .ok (n, s') →
    Inv s' ∧ ∃ c', Written c offset data n c' ∧ view s' = (view s).setFile e.path (some c')
  openFile : ∀ s s' path mode c fd, Inv s → (view s).file path = some c →
    F.kernelFsFileOpen path mode s = .ok (fd, s') →
    Inv s' ∧ (view s').file = (view s).file ∧ (∀ i, i ≠ fd → (view s').fd i = (view s).fd i) ∧
      (fd ≠ KernelFsFdInvalid → (view s).fd fd = none ∧
        (view s').fd fd = some ⟨path, mode, 1⟩)
  close : ∀ s s' fd e k, Inv s → (view s).fd fd = some e →
    F.kernelFsFileClose fd s = .ok (k, s') →
    Inv s' ∧ view s' = (view s).setFd fd (FsView.closed e)
  resize : ∀ s s' path newSize c b, Inv s → (view s).file path = some c → newSize ≤ largest →
    F.kernelFsFileResize path newSize s = .ok (b, s') →
    Inv s' ∧ (b = false → view s' = view s) ∧
      (b = true → ∃ c', SameStart newSize c c' ∧ view s' = (view s).setFile path (some c'))
  delete : ∀ s s' path c b, Inv s → (view s).file path = some c →
    F.kernelFsFileDelete path s = .ok (b, s') →
    Inv s' ∧ view s' = (if b then (view s).setFile path none else view s)
  getFilePath : ∀ s s' fd path, F.kernelFsGetFilePath fd s = .ok (path, s') →
    s' = s ∧ path = ((view s).fd fd).map OpenFile.path

/-- Reads in range of a file that is open for it are answered in full. -/
structure ReliableReads {φ : Type} (F : Files φ) (Inv : φ → Prop) (view : φ → FsView) : Prop where
  read : ∀ s fd offset len e c, Inv s → (view s).fd fd = some e →
    (view s).file e.path = some c → e.mode &&& KernelFsFdModeRO ≠ 0 →
    ∃ r s', F.kernelFsFileReadOffset fd offset len s = .ok (r, s') ∧
      r.2 = min len (c.length-offset)

/-- Writes to a file that is open for it are done up to its end. -/
structure ReliableWrites {φ : Type} (F : Files φ) (Inv : φ → Prop) (view : φ → FsView) : Prop where
  write : ∀ s fd offset data e c, Inv s → (view s).fd fd = some e →
    (view s).file e.path = some c → e.mode &&& KernelFsFdModeWO ≠ 0 →
    ∃ s', F.kernelFsFileWriteOffset fd offset data s =
      .ok (min data.length (c.length-offset), s')

end ArduinoOS.Procman
