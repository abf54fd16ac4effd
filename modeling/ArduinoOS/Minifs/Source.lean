import ArduinoOS.CStr
import ArduinoOS.Lib.ByteProgram

/-!
# The MiniFs volume format

A volume is a header of `MINIFSMAXFILES` offset factors followed by file
regions. Every operation is a program over the backing store given by the
volume's read and write functors; the functors themselves stay outside. A
failed `assert` aborts.
-/

set_option autoImplicit false

namespace ArduinoOS.Minifs
open ArduinoOS.ByteProgram

def MINIFSFACTOR : ℕ := 128
def MINIFSMAXSIZE : ℕ := MINIFSFACTOR*256
def MINIFSMAXFILES : ℕ := MINIFSFACTOR-2
def MiniFsPathMax : ℕ := MINIFSFACTOR-1

def MINIFSHEADERMAGICBYTEADDR : ℕ := 0
def MINIFSHEADERMAGICBYTEVALUE : ℕ := 53
def MINIFSHEADERTOTALSIZEADDR : ℕ := MINIFSHEADERMAGICBYTEADDR+1
def MINIFSHEADERFILEBASEADDR : ℕ := MINIFSHEADERTOTALSIZEADDR+1
def MINIFSHEADERSIZE : ℕ := 1+1+MINIFSMAXFILES
def MINIFSFILEMINOFFSETFACTOR : ℕ := MINIFSHEADERSIZE/MINIFSFACTOR
def MINIFSFILEOFFSETINVALID : ℕ := 0

/-- `writable` says whether the write functor is non-null. -/
structure MiniFs where
  writable : Bool
  deriving DecidableEq, Repr

structure MiniFsFileInfo where
  offset : ℕ
  filenameLen : ℕ
  contentLen : ℕ
  size : ℕ
  spare : ℕ
  deriving DecidableEq, Repr

def assert (b : Bool) : Prog Unit := if b then pure () else .abort

/-! ### Access to the backing store -/

def miniFsRead (addr len : ℕ) : Prog (List UInt8 × ℕ) :=
  .read (u16 addr) len (fun data n => pure (data, u16 n))

/-- The reported count is not looked at: the byte is whatever the buffer holds. -/
def miniFsReadByte (addr : ℕ) : Prog UInt8 := do
  let r ← miniFsRead addr 1
  pure (r.1.headD 0)

def miniFsWrite (fs : MiniFs) (addr : ℕ) (data : List UInt8) : Prog ℕ :=
  if fs.writable then .write (u16 addr) data (fun n => pure (u16 n)) else .abort

def miniFsWriteByte (fs : MiniFs) (addr value : ℕ) : Prog Unit := do
  let _ ← miniFsWrite fs addr [UInt8.ofNat value]
  pure ()

/-! ### Header and file fields -/

def miniFsGetTotalSizeFactorMinusOne : Prog ℕ := do
  let b ← miniFsReadByte MINIFSHEADERTOTALSIZEADDR
  pure b.toNat

def miniFsGetTotalSize : Prog ℕ := do
  let f ← miniFsGetTotalSizeFactorMinusOne
  pure (u16 ((f+1)*MINIFSFACTOR))

def miniFsFileGetBaseOffsetFactorFromIndex (index : ℕ) : Prog ℕ := do
  let b ← miniFsReadByte (MINIFSHEADERFILEBASEADDR+index)
  pure b.toNat

def miniFsFileGetBaseOffsetFromIndex (index : ℕ) : Prog ℕ := do
  let f ← miniFsFileGetBaseOffsetFactorFromIndex index
  pure (u16 (f*MINIFSFACTOR))

def miniFsIsFileSlotEmpty (index : ℕ) : Prog Bool := do
  let b ← miniFsReadByte (MINIFSHEADERFILEBASEADDR+index)
  pure (b.toNat == MINIFSFILEOFFSETINVALID)

def miniFsFileGetBaseOffsetFactorFromBaseOffset (baseOffset : ℕ) : ℕ :=
  u8 (baseOffset/MINIFSFACTOR)

def miniFsFileGetLengthOffsetFromBaseOffset (baseOffset : ℕ) : ℕ := baseOffset

def miniFsFileGetSizeFactorOffsetFromBaseOffset (baseOffset : ℕ) : ℕ :=
  if baseOffset = 0 then 0 else u16 (baseOffset+2)

def miniFsFileGetFilenameOffsetFromBaseOffset (baseOffset : ℕ) : ℕ :=
  if baseOffset = 0 then 0 else u16 (baseOffset+3)

def miniFsFileGetSizeFactorFromBaseOffset (baseOffset : ℕ) : Prog ℕ :=
  if miniFsFileGetSizeFactorOffsetFromBaseOffset baseOffset = 0 then pure 0
  else do
    let b ← miniFsReadByte (miniFsFileGetSizeFactorOffsetFromBaseOffset baseOffset)
    pure b.toNat

def miniFsFileGetSizeFromBaseOffset (baseOffset : ℕ) : Prog ℕ := do
  let sizeFactor ← miniFsFileGetSizeFactorFromBaseOffset baseOffset
  pure (if sizeFactor = 0 then 0 else u16 (sizeFactor*MINIFSFACTOR))

def miniFsGetFileTotalLengthFromBaseOffset (baseOffset : ℕ) : Prog ℕ :=
  if miniFsFileGetLengthOffsetFromBaseOffset baseOffset = 0 then pure 0
  else do
    let hi ← miniFsReadByte (miniFsFileGetLengthOffsetFromBaseOffset baseOffset+0)
    let lo ← miniFsReadByte (miniFsFileGetLengthOffsetFromBaseOffset baseOffset+1)
    pure (hi.toNat*256+lo.toNat)

/-- The scan for the terminator. The 16 bit counter of the source would wrap
when there is none within 64kb and the loop would not end. -/
def miniFsFileGetFilenameLenLoop (filenameOffset filenameLen : ℕ) : ℕ → Prog ℕ
  | 0 => .abort
  | fuel+1 => do
      let c ← miniFsReadByte (filenameOffset+filenameLen)
      if c = 0 then pure filenameLen
      else miniFsFileGetFilenameLenLoop filenameOffset (filenameLen+1) fuel

def miniFsFileGetFilenameLenFromBaseOffset (baseOffset : ℕ) : Prog ℕ :=
  miniFsFileGetFilenameLenLoop (miniFsFileGetFilenameOffsetFromBaseOffset baseOffset) 0 65536

def miniFsFileGetContentOffsetFromBaseOffset (baseOffset : ℕ) : Prog ℕ :=
  if miniFsFileGetFilenameOffsetFromBaseOffset baseOffset = 0 then pure 0
  else do
    let filenameLen ← miniFsFileGetFilenameLenFromBaseOffset baseOffset
    pure (u16 (miniFsFileGetFilenameOffsetFromBaseOffset baseOffset+filenameLen+1))

def miniFsFileGetContentLenFromBaseOffset (baseOffset : ℕ) : Prog ℕ := do
  let total ← miniFsGetFileTotalLengthFromBaseOffset baseOffset
  let offset ← miniFsFileGetContentOffsetFromBaseOffset baseOffset
  pure (wrap16 ((baseOffset:ℤ)+total-offset))

def miniFsFileGetLengthOffsetFromIndex (index : ℕ) : Prog ℕ := do
  let baseOffset ← miniFsFileGetBaseOffsetFromIndex index
  pure (miniFsFileGetLengthOffsetFromBaseOffset baseOffset)

def miniFsFileGetSizeFactorOffsetFromIndex (index : ℕ) : Prog ℕ := do
  let baseOffset ← miniFsFileGetBaseOffsetFromIndex index
  pure (miniFsFileGetSizeFactorOffsetFromBaseOffset baseOffset)

def miniFsFileGetSizeFactorFromIndex (index : ℕ) : Prog ℕ := do
  let baseOffset ← miniFsFileGetBaseOffsetFromIndex index
  miniFsFileGetSizeFactorFromBaseOffset baseOffset

def miniFsFileGetContentLenFromIndex (index : ℕ) : Prog ℕ := do
  let baseOffset ← miniFsFileGetBaseOffsetFromIndex index
  miniFsFileGetContentLenFromBaseOffset baseOffset

def miniFsReadFileInfoFromBaseOffset (baseOffset : ℕ) : Prog (Option MiniFsFileInfo) :=
  if baseOffset = 0 then pure none
  else do
    let size ← miniFsFileGetSizeFromBaseOffset baseOffset
    let filenameLen ← miniFsFileGetFilenameLenFromBaseOffset baseOffset
    let contentLen ← miniFsFileGetContentLenFromBaseOffset baseOffset
    let total ← miniFsGetFileTotalLengthFromBaseOffset baseOffset
    pure (some ⟨baseOffset, filenameLen, contentLen, size, wrap16 ((size:ℤ)-total)⟩)

def miniFsSetFileTotalLengthForIndex (fs : MiniFs) (index newTotalLen : ℕ) : Prog Unit := do
  let offset ← miniFsFileGetLengthOffsetFromIndex index
  assert (offset != 0)
  miniFsWriteByte fs (offset+0) (newTotalLen/256)
  miniFsWriteByte fs (offset+1) (newTotalLen%256)

def miniFsSetFileSizeFactorForIndex (fs : MiniFs) (index newSizeFactor : ℕ) : Prog Unit := do
  let offset ← miniFsFileGetSizeFactorOffsetFromIndex index
  assert (offset != 0)
  miniFsWriteByte fs offset newSizeFactor

def miniFsClearFileForIndex (fs : MiniFs) (index : ℕ) : Prog Unit :=
  miniFsWriteByte fs (MINIFSHEADERFILEBASEADDR+index) MINIFSFILEOFFSETINVALID

def miniFsGetSizeFactorForTotalLength (totalLen : ℕ) : ℕ :=
  u8 ((totalLen+MINIFSFACTOR-1)/MINIFSFACTOR)

/-! ### Names -/

/-- The inner comparison loop; the list holds the characters of the wanted
name from the current one on, its terminator last. -/
def miniFsFilenameMatches (filenameOffset : ℕ) : List UInt8 → Prog Bool
  | [] => pure true
  | trueChar::rest => do
      let testChar ← miniFsReadByte filenameOffset
      if testChar ≠ trueChar then pure false
      else if testChar = 0 then pure true
      else miniFsFilenameMatches (u16 (filenameOffset+1)) rest

def miniFsFilenameToIndexLoop (filename : CStr) (index : ℕ) : ℕ → Prog (ℕ × ℕ)
  | 0 => pure (MINIFSMAXFILES, 0)
  | fuel+1 => do
      let baseOffset ← miniFsFileGetBaseOffsetFromIndex index
      if baseOffset = 0 then pure (MINIFSMAXFILES, 0)
      else do
        let isMatch ← miniFsFilenameMatches
          (miniFsFileGetFilenameOffsetFromBaseOffset baseOffset) filename.bytes
        if isMatch then pure (index, baseOffset)
        else miniFsFilenameToIndexLoop filename (index+1) fuel

/-- The index (`MINIFSMAXFILES` if there is no such file) and the base offset. -/
def miniFsFilenameToIndex (filename : CStr) : Prog (ℕ × ℕ) :=
  miniFsFilenameToIndexLoop filename 0 MINIFSMAXFILES

def miniFsCopyFilename (filenameOffset : ℕ) : ℕ → Prog CStr
  | 0 => pure []
  | space+1 => do
      let src ← miniFsReadByte filenameOffset
      if h : src ≠ 0 then do
        let rest ← miniFsCopyFilename (u16 (filenameOffset+1)) space
        pure (⟨src, h⟩::rest)
      else pure []

def miniFsGetFilenameFromIndex (index : ℕ) : Prog (Option CStr) := do
  let baseOffset ← miniFsFileGetBaseOffsetFromIndex index
  if miniFsFileGetFilenameOffsetFromBaseOffset baseOffset = 0 then pure none
  else do
    let filename ← miniFsCopyFilename
      (miniFsFileGetFilenameOffsetFromBaseOffset baseOffset) (MiniFsPathMax-1)
    pure (some filename)

/-! ### Header maintenance -/

def miniFsGetEmptyIndexLoop (index : ℕ) : ℕ → Prog ℕ
  | 0 => pure MINIFSMAXFILES
  | fuel+1 => do
      let empty ← miniFsIsFileSlotEmpty index
      if empty then pure index else miniFsGetEmptyIndexLoop (index+1) fuel

def miniFsGetEmptyIndex : Prog ℕ := miniFsGetEmptyIndexLoop 0 MINIFSMAXFILES

/-- The search between files: `none` when the list ends, with the last file
seen left in the second component. -/
def miniFsFindFreeRegionLoop (sizeFactor firstFileIndex secondFileIndex : ℕ) :
    ℕ → Prog (Option ℕ × ℕ)
  | 0 => pure (none, firstFileIndex)
  | fuel+1 => do
      let secondFileOffsetFactor ← miniFsFileGetBaseOffsetFactorFromIndex secondFileIndex
      if secondFileOffsetFactor = 0 then pure (none, firstFileIndex)
      else do
        let firstFileOffsetFactor ← miniFsFileGetBaseOffsetFactorFromIndex firstFileIndex
        let firstFileSizeFactor ← miniFsFileGetSizeFactorFromIndex firstFileIndex
        if (sizeFactor:ℤ) ≤ secondFileOffsetFactor-(firstFileOffsetFactor+firstFileSizeFactor)
        then pure (some (u8 (firstFileOffsetFactor+firstFileSizeFactor)), firstFileIndex)
        else miniFsFindFreeRegionLoop sizeFactor secondFileIndex (secondFileIndex+1) fuel

/-- First fit; 0 when no region is large enough. The comparisons are the
unsigned and signed ones of the source. -/
def miniFsFindFreeRegionFactor (sizeFactor : ℕ) : Prog ℕ := do
  let first ← miniFsFileGetBaseOffsetFactorFromIndex 0
  if first = 0 then do
    let total ← miniFsGetTotalSizeFactorMinusOne
    if sizeFactor > u32 (total+4294967296-MINIFSFILEMINOFFSETFACTOR+1) then pure 0
    else pure MINIFSFILEMINOFFSETFACTOR
  else do
    let first ← miniFsFileGetBaseOffsetFactorFromIndex 0
    if sizeFactor ≤ u32 (first+4294967296-MINIFSFILEMINOFFSETFACTOR)
    then pure MINIFSFILEMINOFFSETFACTOR
    else do
      let (found, last) ← miniFsFindFreeRegionLoop sizeFactor 0 1 (MINIFSMAXFILES-1)
      match found with
      | some offsetFactor => pure offsetFactor
      | none => do
          let lastOffsetFactor ← miniFsFileGetBaseOffsetFactorFromIndex last
          let lastSizeFactor ← miniFsFileGetSizeFactorFromIndex last
          let total ← miniFsGetTotalSizeFactorMinusOne
          if (sizeFactor:ℤ) ≤ total+1-(lastOffsetFactor+lastSizeFactor)
          then pure (u8 (lastOffsetFactor+lastSizeFactor))
          else pure 0

/-- One pass of the bubble sort over the slots below `i+fuel`. -/
def miniFsResortPass (fs : MiniFs) (i : ℕ) (change : Bool) : ℕ → Prog Bool
  | 0 => pure change
  | fuel+1 => do
      let factorA ← miniFsFileGetBaseOffsetFactorFromIndex (i-1)
      let factorB ← miniFsFileGetBaseOffsetFactorFromIndex i
      if factorB ≠ 0 ∧ (factorA = 0 ∨ factorA > factorB) then do
        miniFsWriteByte fs (MINIFSHEADERFILEBASEADDR+i-1) factorB
        miniFsWriteByte fs (MINIFSHEADERFILEBASEADDR+i) factorA
        miniFsResortPass fs (i+1) true fuel
      else miniFsResortPass fs (i+1) change fuel

/-- The passes; `max` shrinks after each one. -/
def miniFsResortLoop (fs : MiniFs) : ℕ → Prog Unit
  | 0 => pure ()
  | max+1 => do
      let change ← miniFsResortPass fs 1 false max
      if change then miniFsResortLoop fs max else pure ()

def miniFsResortFileOffsets (fs : MiniFs) : Prog Unit := miniFsResortLoop fs MINIFSMAXFILES

/-! ### Consistency -/

def miniFsIsConsistentUnused (i : ℕ) : ℕ → Prog Bool
  | 0 => pure true
  | fuel+1 => do
      let fileOffsetFactor ← miniFsFileGetBaseOffsetFactorFromIndex i
      if fileOffsetFactor ≠ 0 then pure false else miniFsIsConsistentUnused (i+1) fuel

/-- The slots from `i` on, the first `0` of which ends the file list. -/
def miniFsIsConsistentFiles (i prevOffsetFactor : ℕ) : ℕ → Prog Bool
  | 0 => pure true
  | fuel+1 => do
      let fileOffsetFactor ← miniFsFileGetBaseOffsetFactorFromIndex i
      if fileOffsetFactor = 0 then miniFsIsConsistentUnused i (fuel+1)
      else if fileOffsetFactor < MINIFSFILEMINOFFSETFACTOR then pure false
      else if fileOffsetFactor < prevOffsetFactor then pure false
      else miniFsIsConsistentFiles (i+1) fileOffsetFactor fuel

def miniFsIsConsistent : Prog Bool := do
  let magicByte ← miniFsReadByte MINIFSHEADERMAGICBYTEADDR
  if magicByte.toNat ≠ MINIFSHEADERMAGICBYTEVALUE then pure false
  else do
    let totalSize ← miniFsGetTotalSize
    if totalSize < MINIFSHEADERSIZE ∨ totalSize > MINIFSMAXSIZE then pure false
    else miniFsIsConsistentFiles 0 0 MINIFSMAXFILES

/-! ### Volume functions -/

def miniFsFormatClear (i : ℕ) : ℕ → Prog Unit
  | 0 => pure ()
  | fuel+1 => do
      let _ ← Prog.write (MINIFSHEADERFILEBASEADDR+i) [UInt8.ofNat MINIFSFILEOFFSETINVALID] pure
      miniFsFormatClear (i+1) fuel

def miniFsFormat (maxTotalSize : ℕ) : Prog Bool :=
  if u16 (maxTotalSize/MINIFSFACTOR*MINIFSFACTOR) < MINIFSHEADERSIZE ∨
      u16 (maxTotalSize/MINIFSFACTOR*MINIFSFACTOR) > MINIFSMAXSIZE then pure false
  else do
    let _ ← Prog.write MINIFSHEADERMAGICBYTEADDR [UInt8.ofNat MINIFSHEADERMAGICBYTEVALUE] pure
    let _ ← Prog.write MINIFSHEADERTOTALSIZEADDR [UInt8.ofNat (maxTotalSize/MINIFSFACTOR-1)] pure
    miniFsFormatClear 0 MINIFSMAXFILES
    pure true

def miniFsMountSafe : Prog Bool := miniFsIsConsistent

def miniFsGetReadOnly (fs : MiniFs) : Bool := !fs.writable

def miniFsGetChildN (childNum : ℕ) : Prog (Option CStr) := do
  assert (decide (childNum < MINIFSMAXFILES))
  miniFsGetFilenameFromIndex childNum

def miniFsGetChildCountLoop (i count : ℕ) : ℕ → Prog ℕ
  | 0 => pure count
  | fuel+1 => do
      let empty ← miniFsIsFileSlotEmpty i
      if empty then pure count else miniFsGetChildCountLoop (i+1) (count+1) fuel

def miniFsGetChildCount : Prog ℕ := miniFsGetChildCountLoop 0 0 MINIFSMAXFILES

def miniFsIsEmpty : Prog Bool := miniFsIsFileSlotEmpty 0

/-! ### File functions -/

def miniFsFileExists (filename : CStr) : Prog Bool := do
  let r ← miniFsFilenameToIndex filename
  pure (r.1 != MINIFSMAXFILES)

def miniFsFileGetLen (filename : CStr) : Prog ℕ := do
  let r ← miniFsFilenameToIndex filename
  miniFsFileGetContentLenFromBaseOffset r.2

def miniFsFileGetSize (filename : CStr) : Prog ℕ := do
  let r ← miniFsFilenameToIndex filename
  let info ← miniFsReadFileInfoFromBaseOffset r.2
  match info with
  | none => pure 0
  | some info => pure (u16 (info.contentLen+info.spare))

def miniFsFileCreate (fs : MiniFs) (filename : CStr) (contentSize : ℕ) : Prog Bool :=
  if u16 filename.length ≥ MiniFsPathMax then pure false
  else if miniFsGetReadOnly fs then pure false
  else do
    let alreadyExists ← miniFsFileExists filename
    if alreadyExists then pure false
    else do
      let freeIndex ← miniFsGetEmptyIndex
      if freeIndex = MINIFSMAXFILES then pure false
      else do
        let fileTotalLength := u16 (3+u16 filename.length+1+contentSize)
        let fileSizeFactor := miniFsGetSizeFactorForTotalLength fileTotalLength
        let fileOffsetFactor ← miniFsFindFreeRegionFactor fileSizeFactor
        if fileOffsetFactor = 0 then pure false
        else do
          miniFsWriteByte fs (MINIFSHEADERFILEBASEADDR+freeIndex) fileOffsetFactor
          let fileOffset := u16 (fileOffsetFactor*MINIFSFACTOR)
          miniFsWriteByte fs fileOffset (fileTotalLength/256)
          miniFsWriteByte fs (fileOffset+1) (fileTotalLength%256)
          miniFsWriteByte fs (fileOffset+2) fileSizeFactor
          let _ ← miniFsWrite fs (fileOffset+3) (filename.bytes.take (u16 filename.length+1))
          miniFsResortFileOffsets fs
          let consistent ← miniFsIsConsistent
          assert consistent
          pure true

def miniFsFileDelete (fs : MiniFs) (filename : CStr) : Prog Bool :=
  if miniFsGetReadOnly fs then pure false
  else do
    let r ← miniFsFilenameToIndex filename
    if r.1 = MINIFSMAXFILES then pure false
    else do
      miniFsClearFileForIndex fs r.1
      miniFsResortFileOffsets fs
      let consistent ← miniFsIsConsistent
      assert consistent
      pure true

/-- Reduction of the stored length and size, when the file does not grow. -/
def miniFsFileShrink (fs : MiniFs) (index baseOffset contentLen newContentLen : ℕ) :
    Prog Bool := do
  let total ← miniFsGetFileTotalLengthFromBaseOffset baseOffset
  let newTotalLen := wrap16 ((total:ℤ)-(contentLen-newContentLen))
  miniFsSetFileTotalLengthForIndex fs index newTotalLen
  miniFsSetFileSizeFactorForIndex fs index (miniFsGetSizeFactorForTotalLength newTotalLen)
  let consistent ← miniFsIsConsistent
  assert consistent
  pure true

def miniFsNextFileLoop (nextFileIndex nextFileOffsetFactor : ℕ) : ℕ → Prog (ℕ × ℕ)
  | 0 => pure (nextFileIndex, nextFileOffsetFactor)
  | fuel+1 => do
      let nextFileOffsetFactor ← miniFsFileGetBaseOffsetFactorFromIndex nextFileIndex
      if nextFileOffsetFactor ≠ 0 then pure (nextFileIndex, nextFileOffsetFactor)
      else miniFsNextFileLoop (nextFileIndex+1) nextFileOffsetFactor fuel

def miniFsCopyContent (fs : MiniFs) (fileOffset oldContentOffset i : ℕ) : ℕ → Prog Unit
  | 0 => pure ()
  | fuel+1 => do
      let b ← miniFsReadByte (oldContentOffset+i)
      miniFsWriteByte fs (fileOffset+i) b.toNat
      miniFsCopyContent fs fileOffset oldContentOffset (i+1) fuel

/-- The move to a larger free region. -/
def miniFsFileMove (fs : MiniFs) (filename : CStr) (index baseOffset newTotalLen
    newSizeFactor : ℕ) : Prog Bool := do
  let newFileOffsetFactor ← miniFsFindFreeRegionFactor newSizeFactor
  if newFileOffsetFactor = 0 then pure false
  else do
    let fileOffset := u16 (newFileOffsetFactor*MINIFSFACTOR)
    miniFsWriteByte fs fileOffset (newTotalLen/256)
    miniFsWriteByte fs (fileOffset+1) (newTotalLen%256)
    miniFsWriteByte fs (fileOffset+2) newSizeFactor
    let _ ← miniFsWrite fs (fileOffset+3) (filename.bytes.take (u16 filename.length+1))
    let oldContentOffset ← miniFsFileGetContentOffsetFromBaseOffset baseOffset
    let oldContentLen ← miniFsFileGetContentLenFromIndex index
    miniFsCopyContent fs (fileOffset+3+u16 filename.length+1) oldContentOffset 0 oldContentLen
    miniFsWriteByte fs (MINIFSHEADERFILEBASEADDR+index) newFileOffsetFactor
    miniFsResortFileOffsets fs
    let consistent ← miniFsIsConsistent
    assert consistent
    pure true

/-- Growth past the file's own blocks: in place up to the next file, or by moving. -/
def miniFsFileExtend (fs : MiniFs) (filename : CStr) (index baseOffset newTotalLen newSizeFactor
    maxSizeIfDesiredFactor : ℕ) : Prog Bool :=
  if newSizeFactor ≤ maxSizeIfDesiredFactor then do
    let fileLenOffset := miniFsFileGetLengthOffsetFromBaseOffset baseOffset
    miniFsWriteByte fs fileLenOffset (newTotalLen/256)
    miniFsWriteByte fs (fileLenOffset+1) (newTotalLen%256)
    let fileSizeFactorOffset := miniFsFileGetSizeFactorOffsetFromBaseOffset baseOffset
    miniFsWriteByte fs fileSizeFactorOffset newSizeFactor
    let consistent ← miniFsIsConsistent
    assert consistent
    pure true
  else miniFsFileMove fs filename index baseOffset newTotalLen newSizeFactor

def miniFsFileGrow (fs : MiniFs) (filename : CStr) (index baseOffset contentLen
    newContentLen : ℕ) : Prog Bool := do
  let totalLen ← miniFsGetFileTotalLengthFromBaseOffset baseOffset
  let newTotalLen := u16 (totalLen+wrap16 ((newContentLen:ℤ)-contentLen))
  let size ← miniFsFileGetSizeFromBaseOffset baseOffset
  if newTotalLen ≤ size then do
    let fileOffset := miniFsFileGetLengthOffsetFromBaseOffset baseOffset
    miniFsWriteByte fs fileOffset (newTotalLen/256)
    miniFsWriteByte fs (fileOffset+1) (newTotalLen%256)
    let consistent ← miniFsIsConsistent
    assert consistent
    pure true
  else do
    let newSizeFactor := u8 ((newTotalLen+MINIFSFACTOR-1)/MINIFSFACTOR)
    let (nextFileIndex, nextFileOffsetFactor) ←
      miniFsNextFileLoop (index+1) 0 (MINIFSMAXFILES-(index+1))
    let currFileOffsetFactor := miniFsFileGetBaseOffsetFactorFromBaseOffset baseOffset
    if nextFileIndex ≠ MINIFSMAXFILES then
      miniFsFileExtend fs filename index baseOffset newTotalLen newSizeFactor
        (wrap8 ((nextFileOffsetFactor:ℤ)-currFileOffsetFactor))
    else do
      let total ← miniFsGetTotalSizeFactorMinusOne
      miniFsFileExtend fs filename index baseOffset newTotalLen newSizeFactor
        (wrap8 ((total:ℤ)-currFileOffsetFactor+1))

def miniFsFileResize (fs : MiniFs) (filename : CStr) (newContentLen : ℕ) : Prog Bool :=
  if miniFsGetReadOnly fs then pure false
  else do
    let r ← miniFsFilenameToIndex filename
    if r.1 = MINIFSMAXFILES then pure false
    else do
      let contentLen ← miniFsFileGetContentLenFromBaseOffset r.2
      if newContentLen ≤ contentLen then
        miniFsFileShrink fs r.1 r.2 contentLen newContentLen
      else miniFsFileGrow fs filename r.1 r.2 contentLen newContentLen

/-- The bytes read and their count. -/
def miniFsFileRead (filename : CStr) (offset len : ℕ) : Prog (List UInt8 × ℕ) := do
  let r ← miniFsFilenameToIndex filename
  if r.1 = MINIFSMAXFILES then pure ([], 0)
  else do
    let fileLen ← miniFsFileGetContentLenFromBaseOffset r.2
    if offset ≥ fileLen then pure ([], 0)
    else do
      let contentOffset ← miniFsFileGetContentOffsetFromBaseOffset r.2
      if contentOffset = 0 then pure ([], 0)
      else do
        let len := if len > fileLen-offset then fileLen-offset else len
        miniFsRead (contentOffset+offset) len

def miniFsFileWrite (fs : MiniFs) (filename : CStr) (offset : ℕ) (data : List UInt8) : Prog ℕ :=
  if miniFsGetReadOnly fs then pure 0
  else do
    let r ← miniFsFilenameToIndex filename
    if r.1 = MINIFSMAXFILES then pure 0
    else do
      let fileLen ← miniFsFileGetContentLenFromBaseOffset r.2
      if offset ≥ fileLen then pure 0
      else do
        let contentOffset ← miniFsFileGetContentOffsetFromBaseOffset r.2
        if contentOffset = 0 then pure 0
        else do
          let data := if data.length > fileLen-offset then data.take (fileLen-offset) else data
          miniFsWrite fs (contentOffset+offset) data

end ArduinoOS.Minifs
