import ArduinoOS.Kernel.FatNames
import ArduinoOS.Kernel.Io

/-!
# Directories of a FAT volume

Whether a path leads to an entry, whether that entry is a directory's, and the
entries of a directory by their number. Volume labels do not count.
-/

set_option autoImplicit false

namespace ArduinoOS.Kernel
open ArduinoOS.ByteProgram ArduinoOS.Faulting

def FATMAXFILES : ℕ := 128

/-- The characters of a name as it was read, which has no terminator in it. -/
def nameOf (name : List UInt8) : CStr :=
  name.filterMap (fun b => if h : b ≠ 0 then some ⟨b, h⟩ else none)

section Lookups

variable (fs : Fat)

def fatFileExists (fuel : ℕ) (path : CStr) : Option Bool := do
  let dirEntryOffset ← fatGetFileDirEntryOffsetFromPathKStr fs fuel path
  return dirEntryOffset != 0

def fatIsDir (fuel : ℕ) (path : CStr) : Option Bool :=
  if path = [] then some true
  else do
    let dirEntryOffset ← fatGetFileDirEntryOffsetFromPathKStr fs fuel path
    if dirEntryOffset = 0 then return false
    match fatReadDirEntryAttributes fs dirEntryOffset with
    | none => return false
    | some attributes => return attributes &&& 0x10 != 0

/-- The loop over the entries, which the end of the directory ends. -/
def fatDirGetChildNLoop (childNum : ℕ) : ℕ → ℕ → ℕ → Option (Option CStr)
  | 0, _, _ => none
  | fuel+1, offset, childI =>
    match fatReadDirEntryName fs (fuel+1) offset with
    | none => none
    | some .nameEnd => some none
    | some .error | some .unused => fatDirGetChildNLoop childNum fuel (u32 (offset+32)) childI
    | some (.success name) =>
      match fatReadDirEntryAttributes fs offset with
      | none => fatDirGetChildNLoop childNum fuel (u32 (offset+32)) childI
      | some attributes =>
        if attributes &&& 0x08 ≠ 0 then fatDirGetChildNLoop childNum fuel (u32 (offset+32)) childI
        else if childI = childNum then some (some (nameOf name))
        else fatDirGetChildNLoop childNum fuel (u32 (offset+32)) (childI+1)

/-- Where the entries of the directory start, if the path leads to one. -/
def fatDirBaseOffset (fuel : ℕ) (path : CStr) : Option (Option ℕ) :=
  if kstrStrlen path = 0 then some (some (fatGetRootDirOffset fs))
  else do
    let dirEntryOffset ← fatGetFileDirEntryOffsetFromPathKStr fs fuel path
    if dirEntryOffset = 0 then return none
    match fatReadDirEntryAttributes fs dirEntryOffset with
    | none => return none
    | some attributes =>
      if attributes &&& 0x08 ≠ 0 ∨ attributes &&& 0x10 = 0 then return none
      return (fatReadDirEntryFirstCluster fs dirEntryOffset).map (fatGetOffsetForCluster fs)

/-- The child numbers below `FATMAXFILES`; the others fail an assertion. -/
def fatDirGetChildN (fuel : ℕ) (path : CStr) (childNum : ℕ) : Option (Option CStr) := do
  let baseOffset ← fatDirBaseOffset fs fuel path
  match baseOffset with
  | none => return none
  | some baseOffset => fatDirGetChildNLoop fs childNum fuel baseOffset 0

end Lookups

/-- A mounted volume on which every lookup and listing comes to an end. -/
structure FatContents where
  fs : Fat
  found : CStr → ℕ
  child : CStr → ℕ → Option CStr
  found_spec : ∀ path, ∃ fuel, fatGetFileDirEntryOffsetFromPathKStr fs fuel path = some (found path)
  child_spec : ∀ path, ∀ childNum < FATMAXFILES,
    ∃ fuel, fatDirGetChildN fs fuel path childNum = some (child path childNum)

namespace FatContents

variable (c : FatContents)

def has (path : CStr) : Bool := c.found path != 0

def isDir (path : CStr) : Bool :=
  c.has path && (fatReadDirEntryAttributes c.fs (c.found path)).any (fun a => a &&& 0x10 != 0)

variable {c}

/-- A directory is there. -/
theorem has_of_isDir {path : CStr} (h : c.isDir path = true) : c.has path = true := by
  rw [isDir, Bool.and_eq_true] at h
  exact h.1

theorem fileExists_spec (path : CStr) :
    ∃ fuel, fatFileExists c.fs fuel path = some (c.has path) := by
  obtain ⟨fuel, hfound⟩ := c.found_spec path
  refine ⟨fuel, ?_⟩
  rw [fatFileExists, hfound]
  rfl

theorem isDir_spec {path : CStr} (hne : path ≠ []) :
    ∃ fuel, fatIsDir c.fs fuel path = some (c.isDir path) := by
  obtain ⟨fuel, hfound⟩ := c.found_spec path
  refine ⟨fuel, ?_⟩
  rw [fatIsDir, if_neg hne, hfound, isDir, has]
  simp only [Option.bind_eq_bind, Option.bind_some]
  by_cases hzero : c.found path = 0
  · rw [if_pos hzero, hzero]
    rfl
  · rw [if_neg hzero, bne_iff_ne.mpr hzero, Bool.true_and]
    cases fatReadDirEntryAttributes c.fs (c.found path) with
    | none => rfl
    | some attributes => rfl

end FatContents

/-- The functions on a device that a kernel was given, with the listing of a
directory, do what the code does on this volume. -/
structure FatAnswers {σ : Type} (fat : FatFns)
    (getChildN : fat.Fat → CStr → ℕ → Prog (Option CStr)) (dev : Handler σ Fault)
    (I : σ → Prop) (c : FatContents) (vol : fat.Fat) : Prop where
  mount : Gives I (fat.fatMountFast.run dev) (.ok (some vol))
  fileExists : ∀ path fuel b, fatFileExists c.fs fuel path = some b →
    Gives I ((fat.fatFileExists vol path).run dev) (.ok b)
  isDir : ∀ path fuel b, fatIsDir c.fs fuel path = some b →
    Gives I ((fat.fatIsDir vol path).run dev) (.ok b)
  child : ∀ path, ∀ childNum < FATMAXFILES, ∀ fuel name,
    fatDirGetChildN c.fs fuel path childNum = some name →
    Gives I ((getChildN vol path childNum).run dev) (.ok name)
  childNum : ∀ path childNum, FATMAXFILES ≤ childNum →
    Gives I ((getChildN vol path childNum).run dev) (.error dev.abort)

end ArduinoOS.Kernel
