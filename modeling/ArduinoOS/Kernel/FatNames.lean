import ArduinoOS.Kernel.Fat

/-!
# Files of a FAT volume by path

Directories are searched entry by entry, each entry's name being the short one
of the entry or the long one before it. A search that meets no end of a
directory does not answer, nor does one that recurses into an entry it could
not read.
-/

set_option autoImplicit false

namespace ArduinoOS.Kernel
open ArduinoOS.ByteProgram

def FATPATHMAX : ℕ := 64

inductive FatReadDirEntryNameResult
  | error
  | success (name : List UInt8)
  | unused
  | nameEnd

/-- The string that a buffer holds. -/
def bufferString (name : List UInt8) : List UInt8 := name.takeWhile (· ≠ 0)

/-- Where the characters of a long name stand in its directory entries. -/
def ucs2Places : List ℕ := [1, 3, 5, 7, 9, 14, 16, 18, 20, 22, 24, 28, 30]

/-- The characters of one entry, and whether the name ended among them. -/
def appendUcs2 (buffer : List UInt8) : List ℕ → ℕ → List UInt8 → Bool × ℕ × List UInt8
  | [], nameIndex, name => (false, nameIndex, name)
  | place::places, nameIndex, name =>
    if nameIndex+1 ≥ FATPATHMAX then (false, nameIndex, name)
    else if buffer.getD (place+1) 0 ≠ 0 then
      appendUcs2 buffer places (nameIndex+1) (name.set nameIndex '?'.toUInt8)
    else if buffer.getD place 0 = 0 then (true, nameIndex, name.set nameIndex 0)
    else appendUcs2 buffer places (nameIndex+1) (name.set nameIndex (buffer.getD place 0))

section Names

variable (fs : Fat)

/-- The entries before the short one, backwards. -/
def fatReadLongName : ℕ → ℕ → ℕ → List UInt8 → Option FatReadDirEntryNameResult
  | 0, _, _, _ => none
  | fuel+1, dirEntryOffset, nameIndex, name =>
    let dirEntryOffset := wrap32 ((dirEntryOffset : ℤ)-32)
    let buffer := fatRead fs dirEntryOffset 32
    if buffer.length ≠ 32 then some .error
    else if buffer.getD 11 0 ≠ 0x0F ∨ buffer.getD 12 0 ≠ 0 ∨ buffer.getD 26 0 ≠ 0 ∨
        buffer.getD 27 0 ≠ 0 then some .error
    else
      match appendUcs2 buffer ucs2Places nameIndex name with
      | (true, _, name) => some (.success (bufferString name))
      | (false, nameIndex, name) =>
        if buffer.getD 0 0 &&& 0x40 ≠ 0 then
          some (.success (bufferString (name.set nameIndex 0)))
        else fatReadLongName fuel dirEntryOffset nameIndex name

/-- The padding of the first part of a short name is cut off; where it ends. -/
def stripPadding : ℕ → List UInt8 → ℕ × List UInt8
  | 0, name => (0, name)
  | p1End+1, name =>
    if name.getD (p1End+1) 0 ≠ ' '.toUInt8 then (p1End+1, name)
    else stripPadding p1End (name.set (p1End+1) 0)

def shortName (name : List UInt8) : List UInt8 :=
  let (p1End, name) := stripPadding 7 name
  if name.getD 8 0 = ' '.toUInt8 then bufferString (name.set 8 0)
  else
    let name := if name.getD 9 0 = ' '.toUInt8 then name.set 9 0 else name
    let name := if name.getD 10 0 = ' '.toUInt8 then name.set 10 0 else name
    let name := name.set 11 (name.getD 10 0)
    let name := name.set 10 (name.getD 9 0)
    let name := name.set 9 (name.getD 8 0)
    let name := name.set (p1End+1) '.'.toUInt8
    let name := name.set (p1End+2) (name.getD 9 0)
    let name := name.set (p1End+3) (name.getD 10 0)
    let name := name.set (p1End+4) (name.getD 11 0)
    bufferString (name.set (p1End+5) 0)

def fatReadDirEntryName (fuel dirEntryOffset : ℕ) : Option FatReadDirEntryNameResult :=
  let read := fatRead fs dirEntryOffset 11
  let name := read++List.replicate (FATPATHMAX-read.length) 0
  if read.length ≠ 11 then some .error
  else if name.getD 0 0 = 0x00 then some .nameEnd
  else if name.getD 0 0 = 0xE5 ∨ name.getD 0 0 = 0x2E then some .unused
  else
    let name := if name.getD 0 0 = 0x05 then name.set 0 0xE5 else name
    if name.getD 6 0 = '~'.toUInt8 ∧ name.getD 7 0 = '1'.toUInt8 then
      fatReadLongName fs fuel dirEntryOffset 0 name
    else some (.success (shortName name))

/-- Zero where the path leads to no entry. -/
def fatGetFileDirEntryOffsetFromPathKStrHelper : ℕ → ℕ → CStr → Option ℕ
  | 0, _, _ => none
  | fuel+1, currDirOffset, path =>
    match fatReadDirEntryName fs (fuel+1) currDirOffset with
    | none => none
    | some .nameEnd => some 0
    | some .error | some .unused =>
      fatGetFileDirEntryOffsetFromPathKStrHelper fuel (u32 (currDirOffset+32)) path
    | some (.success fileName) =>
      match fatReadDirEntryAttributes fs currDirOffset with
      | none => fatGetFileDirEntryOffsetFromPathKStrHelper fuel (u32 (currDirOffset+32)) path
      | some attributes =>
        if attributes &&& 0x08 ≠ 0 then
          fatGetFileDirEntryOffsetFromPathKStrHelper fuel (u32 (currDirOffset+32)) path
        else if path.map CChar.val = fileName then some currDirOffset
        else if attributes &&& 0x10 ≠ 0 ∧ fileName <+: path.map CChar.val ∧
            path.getChar fileName.length = '/'.toUInt8 then
          match fatReadDirEntryFirstCluster fs currDirOffset with
          | none => none
          | some subDirCluster => fatGetFileDirEntryOffsetFromPathKStrHelper fuel
              (fatGetOffsetForCluster fs subDirCluster) (path.drop (fileName.length+1))
        else fatGetFileDirEntryOffsetFromPathKStrHelper fuel (u32 (currDirOffset+32)) path

def fatGetFileDirEntryOffsetFromPathKStr (fuel : ℕ) (path : CStr) : Option ℕ :=
  fatGetFileDirEntryOffsetFromPathKStrHelper fs fuel (fatGetRootDirOffset fs) path

def fatFileRead (fuel : ℕ) (path : CStr) (readOffset len : ℕ) : Option (List UInt8) := do
  let dirEntryOffset ← fatGetFileDirEntryOffsetFromPathKStr fs fuel path
  if dirEntryOffset = 0 then return []
  fatFileReadFromDirEntryOffset fs fuel dirEntryOffset readOffset len

end Names

/-! ### More fuel changes no answer -/

theorem fatReadLongName_mono {fs : Fat} {fuel fuel' : ℕ} (h : fuel ≤ fuel') :
    ∀ {dirEntryOffset nameIndex : ℕ} {name : List UInt8} {r : FatReadDirEntryNameResult},
      fatReadLongName fs fuel dirEntryOffset nameIndex name = some r →
      fatReadLongName fs fuel' dirEntryOffset nameIndex name = some r := by
  induction fuel generalizing fuel' with
  | zero =>
    intro dirEntryOffset nameIndex name r hr
    cases hr
  | succ fuel ih =>
    intro dirEntryOffset nameIndex name r hr
    cases fuel' with
    | zero => omega
    | succ fuel' =>
      have hle : fuel ≤ fuel' := by omega
      simp only [fatReadLongName] at hr ⊢
      split at hr
      · rename_i hlen
        rw [if_pos hlen, hr]
      · rename_i hlen
        rw [if_neg hlen]
        split at hr
        · rename_i hbad
          rw [if_pos hbad, hr]
        · rename_i hbad
          rw [if_neg hbad]
          split at hr
          · exact hr
          · split at hr
            · rename_i hlast
              rw [if_pos hlast, hr]
            · rename_i hlast
              rw [if_neg hlast]
              exact ih hle hr

theorem fatReadDirEntryName_mono {fs : Fat} {fuel fuel' dirEntryOffset : ℕ}
    {r : FatReadDirEntryNameResult} (h : fuel ≤ fuel')
    (hr : fatReadDirEntryName fs fuel dirEntryOffset = some r) :
    fatReadDirEntryName fs fuel' dirEntryOffset = some r := by
  simp only [fatReadDirEntryName] at hr ⊢
  split_ifs at hr ⊢
  all_goals first
    | exact hr
    | exact fatReadLongName_mono h hr

theorem fatGetFileDirEntryOffset_mono {fs : Fat} {fuel fuel' : ℕ} (h : fuel ≤ fuel') :
    ∀ {currDirOffset : ℕ} {path : CStr} {r : ℕ},
      fatGetFileDirEntryOffsetFromPathKStrHelper fs fuel currDirOffset path = some r →
      fatGetFileDirEntryOffsetFromPathKStrHelper fs fuel' currDirOffset path = some r := by
  induction fuel generalizing fuel' with
  | zero =>
    intro currDirOffset path r hr
    cases hr
  | succ fuel ih =>
    intro currDirOffset path r hr
    cases fuel' with
    | zero => omega
    | succ fuel' =>
      have hle : fuel ≤ fuel' := by omega
      have hname : ∀ n, fatReadDirEntryName fs (fuel+1) currDirOffset = some n →
          fatReadDirEntryName fs (fuel'+1) currDirOffset = some n :=
        fun n hn => fatReadDirEntryName_mono h hn
      simp only [fatGetFileDirEntryOffsetFromPathKStrHelper] at hr ⊢
      cases hn : fatReadDirEntryName fs (fuel+1) currDirOffset with
      | none => simp [hn] at hr
      | some n =>
        rw [hname n hn]
        rw [hn] at hr
        cases n with
        | nameEnd => exact hr
        | error => exact ih hle hr
        | unused => exact ih hle hr
        | success fileName =>
          cases hat : fatReadDirEntryAttributes fs currDirOffset with
          | none =>
            simp only [hat] at hr ⊢
            exact ih hle hr
          | some attributes =>
            simp only [hat] at hr ⊢
            split_ifs at hr ⊢
            · exact ih hle hr
            · exact hr
            · cases hc : fatReadDirEntryFirstCluster fs currDirOffset with
              | none => simp [hc] at hr
              | some subDirCluster =>
                simp only [hc] at hr ⊢
                exact ih hle hr
            · exact ih hle hr

theorem fatFileReadLoop_mono {fs : Fat} {clusterSize len fuel fuel' : ℕ} (h : fuel ≤ fuel') :
    ∀ {cluster readOffset : ℕ} {data r : List UInt8},
      fatFileReadLoop fs clusterSize len fuel cluster readOffset data = some r →
      fatFileReadLoop fs clusterSize len fuel' cluster readOffset data = some r := by
  induction fuel generalizing fuel' with
  | zero =>
    intro cluster readOffset data r hr
    cases hr
  | succ fuel ih =>
    intro cluster readOffset data r hr
    cases fuel' with
    | zero => omega
    | succ fuel' =>
      have hle : fuel ≤ fuel' := by omega
      simp only [fatFileReadLoop] at hr ⊢
      cases he : fatReadClusterEntry fs cluster with
      | error => simpa only [he] using hr
      | free => simpa only [he] using hr
      | reserved => simpa only [he] using hr
      | endOfChain => simpa only [he] using hr
      | data nextCluster =>
        simp only [he] at hr ⊢
        by_cases hin : readOffset < clusterSize
        · simp only [if_pos hin] at hr ⊢
          split_ifs at hr ⊢
          · exact hr
          · exact ih hle hr
        · simp only [if_neg hin] at hr ⊢
          exact ih hle hr

theorem fatFileReadFromDirEntryOffset_mono {fs : Fat} {fuel fuel' dirEntryOffset readOffset : ℕ}
    {len : ℕ} {r : List UInt8} (h : fuel ≤ fuel')
    (hr : fatFileReadFromDirEntryOffset fs fuel dirEntryOffset readOffset len = some r) :
    fatFileReadFromDirEntryOffset fs fuel' dirEntryOffset readOffset len = some r := by
  simp only [fatFileReadFromDirEntryOffset, Option.bind_eq_bind, Option.bind_eq_some_iff] at hr ⊢
  obtain ⟨cluster, hcluster, fileSize, hsize, hloop⟩ := hr
  exact ⟨cluster, hcluster, fileSize, hsize, fatFileReadLoop_mono h hloop⟩

theorem fatFileRead_mono {fs : Fat} {fuel fuel' readOffset len : ℕ} {path : CStr}
    {r : List UInt8} (h : fuel ≤ fuel') (hr : fatFileRead fs fuel path readOffset len = some r) :
    fatFileRead fs fuel' path readOffset len = some r := by
  simp only [fatFileRead, Option.bind_eq_bind, Option.bind_eq_some_iff] at hr ⊢
  obtain ⟨dirEntryOffset, hfound, hread⟩ := hr
  refine ⟨dirEntryOffset, fatGetFileDirEntryOffset_mono h hfound, ?_⟩
  split_ifs at hread ⊢
  · exact hread
  · exact fatFileReadFromDirEntryOffset_mono h hread

/-- There is one answer at most. -/
theorem fatFileRead_unique {fs : Fat} {fuel fuel' readOffset len : ℕ} {path : CStr}
    {r r' : List UInt8} (h : fatFileRead fs fuel path readOffset len = some r)
    (h' : fatFileRead fs fuel' path readOffset len = some r') : r = r' := by
  rcases Nat.le_total fuel fuel' with hle | hle
  · exact Option.some.inj ((fatFileRead_mono hle h).symm.trans h')
  · exact Option.some.inj (h.symm.trans (fatFileRead_mono hle h'))

/-- A file read by its path is read by the entry that the path leads to. -/
theorem fatFileRead_found {fs : Fat} {fuel fuel' dirEntryOffset readOffset len : ℕ} {path : CStr}
    {r : List UInt8} (hzero : dirEntryOffset ≠ 0)
    (hfound : fatGetFileDirEntryOffsetFromPathKStr fs fuel path = some dirEntryOffset)
    (hread : fatFileReadFromDirEntryOffset fs fuel' dirEntryOffset readOffset len = some r) :
    fatFileRead fs (max fuel fuel') path readOffset len = some r := by
  have hpath : fatGetFileDirEntryOffsetFromPathKStr fs (max fuel fuel') path
      = some dirEntryOffset := fatGetFileDirEntryOffset_mono (le_max_left _ _) hfound
  rw [fatFileRead, hpath]
  simp only [Option.bind_eq_bind, Option.bind_some, if_neg hzero]
  exact fatFileReadFromDirEntryOffset_mono (le_max_right _ _) hread

end ArduinoOS.Kernel
