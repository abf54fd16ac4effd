import ArduinoOS.Kernel.Descriptors
import ArduinoOS.Kernel.VolumeStore
import ArduinoOS.Lib.Simulation
import ArduinoOS.Minifs.Sizes
import ArduinoOS.Procman.Files

/-!
# Files and descriptors as processes see them

The view of the kernel's tables and volumes: the contents of the files on volumes,
and the descriptors but for those the kernel keeps to itself. The calls on them
are those of an abstract file system, which says what each may answer and change.
-/

set_option autoImplicit false

namespace ArduinoOS.Procman
open ArduinoOS.ByteProgram ArduinoOS.Faulting ArduinoOS.Kernel ArduinoOS.Minifs

/-! ### The abstract file system -/

inductive FileCall
  | readOffset (fd offset dataLen : ℕ)
  | writeOffset (fd offset : ℕ) (data : List UInt8)
  | openFile (path : CStr) (mode : ℕ)
  | close (fd : ℕ)
  | dupeOrOpen (fd : ℕ)
  | createWithSize (path : CStr) (size : ℕ)
  | resize (path : CStr) (newSize : ℕ)
  | delete (path : CStr)
  | getFilePath (fd : ℕ)
  | isOpen (path : CStr)
  | fileExists (path : CStr)
  | isDir (path : CStr)
  | canRead (fd : ℕ)
  | canWrite (fd : ℕ)

inductive FileReply
  | bytes (data : List UInt8) (count : ℕ)
  | count (n : ℕ)
  | answer (b : Bool)
  | path (path : Option CStr)

def FileCall.run {φ : Type} (F : Files φ) : FileCall → Run φ Fault FileReply
  | .readOffset fd offset dataLen => do
      let r ← F.kernelFsFileReadOffset fd offset dataLen
      pure (.bytes r.1 r.2)
  | .writeOffset fd offset data => do
      let n ← F.kernelFsFileWriteOffset fd offset data
      pure (.count n)
  | .openFile path mode => do
      let fd ← F.kernelFsFileOpen path mode
      pure (.count fd)
  | .close fd => do
      let n ← F.kernelFsFileClose fd
      pure (.count n)
  | .dupeOrOpen fd => do
      let fd' ← F.kernelFsFileDupeOrOpen fd
      pure (.count fd')
  | .createWithSize path size => do
      let b ← F.kernelFsFileCreateWithSize path size
      pure (.answer b)
  | .resize path newSize => do
      let b ← F.kernelFsFileResize path newSize
      pure (.answer b)
  | .delete path => do
      let b ← F.kernelFsFileDelete path
      pure (.answer b)
  | .getFilePath fd => do
      let path ← F.kernelFsGetFilePath fd
      pure (.path path)
  | .isOpen path => do
      let b ← F.kernelFsFileIsOpen path
      pure (.answer b)
  | .fileExists path => do
      let b ← F.kernelFsFileExists path
      pure (.answer b)
  | .isDir path => do
      let b ← F.kernelFsFileIsDir path
      pure (.answer b)
  | .canRead fd => do
      let b ← F.kernelFsFileCanRead fd
      pure (.answer b)
  | .canWrite fd => do
      let b ← F.kernelFsFileCanWrite fd
      pure (.answer b)

namespace FsView

/-- A descriptor other than the invalid one has this path. -/
def Opened (v : FsView) (path : CStr) : Prop :=
  ∃ fd e, fd ≠ KernelFsFdInvalid ∧ v.fd fd = some e ∧ e.path = path

/-- What reads of the path give. -/
def contentAt (v : FsView) (path : CStr) : List UInt8 := (v.file path).getD []

def allows (v : FsView) (fd bit : ℕ) : Bool := (v.fd fd).any (fun e => e.mode &&& bit != 0)

end FsView

/-- What a call may answer and change. Opening, creating and growing may be
refused for want of memory or space; the bytes a file gains are not determined. An
open that finds no free descriptor leaves its mark on the invalid one. -/
inductive FsStep (writable : CStr → Bool) : FileCall → FileReply → FsView → FsView → Prop
  | read {v : FsView} {fd : ℕ} {e : OpenFile} (offset dataLen : ℕ) (he : v.fd fd = some e)
      (hmode : e.mode &&& KernelFsFdModeRO ≠ 0) :
      FsStep writable (.readOffset fd offset dataLen)
        (.bytes (((v.contentAt e.path).drop offset).take dataLen)
          (((v.contentAt e.path).drop offset).take dataLen).length) v v
  | readRefused {v : FsView} {fd : ℕ} (offset dataLen : ℕ)
      (h : v.allows fd KernelFsFdModeRO = false) :
      FsStep writable (.readOffset fd offset dataLen) (.bytes [] 0) v v
  | written {v : FsView} {fd : ℕ} {e : OpenFile} {c : List UInt8} (offset : ℕ)
      (data : List UInt8) (he : v.fd fd = some e) (hmode : e.mode &&& KernelFsFdModeWO ≠ 0)
      (hwritable : writable e.path = true) (hfile : v.file e.path = some c) :
      FsStep writable (.writeOffset fd offset data) (.count (min data.length (c.length-offset)))
        v (v.setFile e.path (some (patch c offset data)))
  | writeRefused {v : FsView} {fd : ℕ} (offset : ℕ) (data : List UInt8)
      (h : ∀ e, v.fd fd = some e → e.mode &&& KernelFsFdModeWO = 0 ∨ writable e.path = false ∨
        v.file e.path = none) :
      FsStep writable (.writeOffset fd offset data) (.count 0) v v
  | opened {v : FsView} {path : CStr} {mode fd : ℕ} (hfile : (v.file path).isSome)
      (honce : v.Opened path → writable path = false) (hfd : fd ≠ KernelFsFdInvalid)
      (hfree : v.fd fd = none) :
      FsStep writable (.openFile path mode) (.count fd) v (v.setFd fd (some ⟨path, mode, 1⟩))
  | openRefused (v : FsView) (path : CStr) (mode : ℕ) :
      FsStep writable (.openFile path mode) (.count KernelFsFdInvalid) v v
  | openFull {v : FsView} {path : CStr} {mode : ℕ} {e : Option OpenFile}
      (hfile : (v.file path).isSome) (he : e = none ∨ e = some ⟨path, mode, 1⟩) :
      FsStep writable (.openFile path mode) (.count KernelFsFdInvalid) v
        (v.setFd KernelFsFdInvalid e)
  | closed {v : FsView} {fd : ℕ} {e : OpenFile} (he : v.fd fd = some e) :
      FsStep writable (.close fd) (.count (e.refCount-1)) v (v.setFd fd (FsView.closed e))
  | closeRefused {v : FsView} {fd : ℕ} (he : v.fd fd = none) :
      FsStep writable (.close fd) (.count 0) v v
  | duped {v : FsView} {fd : ℕ} {e : OpenFile} (he : v.fd fd = some e)
      (hroom : e.refCount+1 < KernelFsFdRefCountMax) :
      FsStep writable (.dupeOrOpen fd) (.count fd) v
        (v.setFd fd (some { e with refCount := e.refCount+1 }))
  | reopened {v v' : FsView} {fd : ℕ} {e : OpenFile} {r : FileReply} (he : v.fd fd = some e)
      (hroom : KernelFsFdRefCountMax ≤ e.refCount+1)
      (hopen : FsStep writable (.openFile e.path e.mode) r v v') :
      FsStep writable (.dupeOrOpen fd) r v v'
  | dupeRefused {v : FsView} {fd : ℕ} (he : v.fd fd = none) :
      FsStep writable (.dupeOrOpen fd) (.count KernelFsFdInvalid) v v
  | created {v : FsView} {path : CStr} {new : List UInt8} (hwritable : writable path = true)
      (hfresh : v.file path = none) :
      FsStep writable (.createWithSize path new.length) (.answer true) v
        (v.setFile path (some new))
  | createRefused (v : FsView) (path : CStr) (size : ℕ) :
      FsStep writable (.createWithSize path size) (.answer false) v v
  | resized {v : FsView} {path : CStr} {newSize : ℕ} {old new : List UInt8}
      (hwritable : writable path = true) (hclosed : ¬ v.Opened path)
      (hfile : v.file path = some old) (hnew : SameStart newSize old new) :
      FsStep writable (.resize path newSize) (.answer true) v (v.setFile path (some new))
  | resizeRefused (v : FsView) (path : CStr) (newSize : ℕ) :
      FsStep writable (.resize path newSize) (.answer false) v v
  | deleted {v : FsView} {path : CStr} {old : List UInt8} (hwritable : writable path = true)
      (hclosed : ¬ v.Opened path) (hfile : v.file path = some old) :
      FsStep writable (.delete path) (.answer true) v (v.setFile path none)
  | deleteRefused {v : FsView} {path : CStr}
      (h : writable path = false ∨ v.Opened path ∨ v.file path = none) :
      FsStep writable (.delete path) (.answer false) v v
  | getFilePath (v : FsView) (fd : ℕ) :
      FsStep writable (.getFilePath fd) (.path ((v.fd fd).map OpenFile.path)) v v
  | isOpen {v : FsView} {path : CStr} {b : Bool} (h : b = true ↔ v.Opened path) :
      FsStep writable (.isOpen path) (.answer b) v v
  | fileExists (v : FsView) (path : CStr) :
      FsStep writable (.fileExists path) (.answer (v.file path).isSome) v v
  | isDir (v : FsView) (path : CStr) : FsStep writable (.isDir path) (.answer false) v v
  | canRead (v : FsView) (fd : ℕ) :
      FsStep writable (.canRead fd) (.answer (v.allows fd KernelFsFdModeRO)) v v
  | canWrite (v : FsView) (fd : ℕ) :
      FsStep writable (.canWrite fd) (.answer (v.allows fd KernelFsFdModeWO)) v v

/-- Open files exist, and on a writable volume no two descriptors share one. -/
structure Orderly (writable : CStr → Bool) (v : FsView) : Prop where
  present : ∀ fd e, fd ≠ KernelFsFdInvalid → v.fd fd = some e → (v.file e.path).isSome
  exclusive : ∀ fd fd' e e', fd ≠ KernelFsFdInvalid → fd' ≠ KernelFsFdInvalid →
    v.fd fd = some e → v.fd fd' = some e' → e.path = e'.path → writable e.path = true → fd = fd'

section Orderly

variable {writable : CStr → Bool} {v : FsView}

theorem orderly_setFile {path : CStr} {c : Option (List UInt8)} (h : Orderly writable v)
    (hc : c = none → ¬ v.Opened path) : Orderly writable (v.setFile path c) := by
  refine ⟨fun fd e hfd he => ?_, h.exclusive⟩
  rw [FsView.setFile_file]
  by_cases hpath : e.path = path
  · rw [if_pos hpath]
    cases c with
    | none => exact absurd ⟨fd, e, hfd, he, hpath⟩ (hc rfl)
    | some new => rfl
  · rw [if_neg hpath]
    exact h.present fd e hfd he

theorem orderly_setFd {fd : ℕ} {new : Option OpenFile} (h : Orderly writable v)
    (hnew : fd ≠ KernelFsFdInvalid → ∀ e, new = some e → (v.file e.path).isSome ∧
      (writable e.path = true → ∀ i e', i ≠ KernelFsFdInvalid → i ≠ fd → v.fd i = some e' →
        e'.path ≠ e.path)) : Orderly writable (v.setFd fd new) := by
  constructor
  · intro i e hi he
    rw [FsView.setFd_fd] at he
    by_cases hfd : i = fd
    · rw [if_pos hfd] at he
      exact (hnew (hfd ▸ hi) e he).1
    · rw [if_neg hfd] at he
      exact h.present i e hi he
  · intro i j e e' hi hj he he' hsame hwritable
    rw [FsView.setFd_fd] at he he'
    by_cases hfd : i = fd
    · rw [if_pos hfd] at he
      by_cases hfd' : j = fd
      · exact hfd.trans hfd'.symm
      · rw [if_neg hfd'] at he'
        exact absurd hsame.symm ((hnew (hfd ▸ hi) e he).2 hwritable j e' hj hfd' he')
    · rw [if_neg hfd] at he
      by_cases hfd' : j = fd
      · rw [if_pos hfd'] at he'
        exact absurd hsame ((hnew (hfd' ▸ hj) e' he').2 (hsame ▸ hwritable) i e hi hfd he)
      · rw [if_neg hfd'] at he'
        exact h.exclusive i j e e' hi hj he he' hsame hwritable

/-- An entry that replaces one with the same path. -/
theorem orderly_recount {fd : ℕ} {e : OpenFile} {new : Option OpenFile} (h : Orderly writable v)
    (he : v.fd fd = some e) (hpath : ∀ e', new = some e' → e'.path = e.path) :
    Orderly writable (v.setFd fd new) := by
  apply orderly_setFd h
  intro hfd e' he'
  rw [hpath e' he']
  refine ⟨h.present fd e hfd he, fun hwritable i e'' hi hne hi' hsame => ?_⟩
  exact hne (h.exclusive i fd e'' e hi hfd hi' he hsame (hsame ▸ hwritable))

theorem orderly_step {call : FileCall} {reply : FileReply} {v' : FsView}
    (hstep : FsStep writable call reply v v') (h : Orderly writable v) : Orderly writable v' := by
  induction hstep with
  | written offset data he hmode hwritable hfile =>
    exact orderly_setFile h (fun hnone => by cases hnone)
  | opened hfile honce hfd hfree =>
    apply orderly_setFd h
    intro _ e he
    cases he
    refine ⟨hfile, fun hwritable i e' hi _ he' hsame => ?_⟩
    rw [honce ⟨i, e', hi, he', hsame⟩] at hwritable
    cases hwritable
  | openFull hfile he => exact orderly_setFd h (fun hne => absurd rfl hne)
  | @closed _ _ e he =>
    apply orderly_recount h he
    intro e' he'
    rw [FsView.closed] at he'
    split at he'
    · cases he'
    · cases he'
      rfl
  | duped he hroom =>
    apply orderly_recount h he
    intro e' he'
    cases he'
    rfl
  | reopened he hroom hopen ih => exact ih h
  | created hwritable hfresh => exact orderly_setFile h (fun hnone => by cases hnone)
  | resized hwritable hclosed hfile hnew => exact orderly_setFile h (fun hnone => by cases hnone)
  | deleted hwritable hclosed hfile => exact orderly_setFile h (fun _ => hclosed)
  | _ => exact h

end Orderly

end ArduinoOS.Procman
