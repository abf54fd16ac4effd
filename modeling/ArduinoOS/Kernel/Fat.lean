import ArduinoOS.CStr
import ArduinoOS.Lib.ByteProgram

/-!
# FAT volumes

A mounted volume is read through a functor. The entry of a cluster in the file
allocation table says what follows it; a directory entry says where a file
starts and how long it is. Cluster numbers are cut to 16 bits on the way into
the table and into the data.
-/

set_option autoImplicit false

namespace ArduinoOS.Kernel
open ArduinoOS.ByteProgram

/-- The bytes read at an address, as many as asked for or fewer. -/
abbrev FatReadFunctor := ℕ → ℕ → List UInt8

inductive FatType
  | fat12
  | fat16
  | fat32
  | exFat
  deriving DecidableEq

structure Fat where
  readFunctor : FatReadFunctor
  bytesPerSector : ℕ
  fatSector : ℕ
  rootDirSector : ℕ
  firstDataSector : ℕ
  type : FatType
  sectorsPerCluster : ℕ

/-- `FatClusterType`, with the value that is filled in for a data cluster. -/
inductive FatClusterEntry
  | error
  | free
  | data (value : ℕ)
  | reserved
  | endOfChain
  deriving DecidableEq

section Reading

variable (fs : Fat)

def fatRead (addr len : ℕ) : List UInt8 := fs.readFunctor (u32 addr) len

def fatRead8 (addr : ℕ) : Option ℕ :=
  match fatRead fs addr 1 with
  | [value] => some value.toNat
  | _ => none

def fatRead16 (addr : ℕ) : Option ℕ := do
  let lower ← fatRead8 fs addr
  let upper ← fatRead8 fs (addr+1)
  return upper*256+lower

def fatRead32 (addr : ℕ) : Option ℕ := do
  let lower ← fatRead16 fs addr
  let upper ← fatRead16 fs (addr+2)
  return upper*65536+lower

def fatGetFatOffset : ℕ := u32 (fs.fatSector*fs.bytesPerSector)

def fatGetRootDirOffset : ℕ := u32 (fs.rootDirSector*fs.bytesPerSector)

def fatGetFirstSectorForCluster (cluster : ℕ) : ℕ :=
  u32 (wrap32 ((u16 cluster : ℤ)-2)*fs.sectorsPerCluster+fs.firstDataSector)

def fatGetOffsetForCluster (cluster : ℕ) : ℕ :=
  u32 (fatGetFirstSectorForCluster fs cluster*fs.bytesPerSector)

def fatGetClusterSize : ℕ := u16 (fs.sectorsPerCluster*fs.bytesPerSector)

/-- An entry that cannot be read counts as zero. -/
def fatReadClusterEntry (cluster : ℕ) : FatClusterEntry :=
  match fs.type with
  | .fat12 => .error
  | .fat16 =>
    let entry := (fatRead16 fs (fatGetFatOffset fs+u16 cluster*2)).getD 0
    if entry = 0 then .free
    else if 2 ≤ entry ∧ entry ≤ 0xFFF6 then .data entry
    else if entry ≥ 0xFFF8 then .endOfChain
    else .reserved
  | .fat32 =>
    let entry := (fatRead32 fs (fatGetFatOffset fs+u16 cluster*4)).getD 0 % 0x10000000
    if entry = 0 then .free
    else if 2 ≤ entry ∧ entry ≤ 0x0FFFFFF6 then .data entry
    else if entry ≥ 0x0FFFFFF8 then .endOfChain
    else .reserved
  | .exFat => .error

def fatReadDirEntryAttributes (dirEntryOffset : ℕ) : Option ℕ := fatRead8 fs (dirEntryOffset+11)

def fatReadDirEntrySize (dirEntryOffset : ℕ) : Option ℕ := fatRead32 fs (dirEntryOffset+28)

def fatReadDirEntryFirstCluster (dirEntryOffset : ℕ) : Option ℕ :=
  match fs.type with
  | .fat12 | .fat16 => fatRead16 fs (dirEntryOffset+26)
  | .fat32 => do
    let clusterLower ← fatRead16 fs (dirEntryOffset+26)
    let clusterUpper ← fatRead16 fs (dirEntryOffset+20)
    return clusterUpper*65536+clusterLower
  | .exFat => none

/-- The loop over the data of one cluster, and whether the read ends there. A
round that does not end the read fills the cluster, so there is one round. -/
def fatFileReadCluster (clusterBaseOffset clusterSize len : ℕ) :
    ℕ → ℕ → List UInt8 → Bool × List UInt8
  | 0, _, data => (false, data)
  | rounds+1, clusterLoopOffset, data =>
    if clusterLoopOffset < clusterSize then
      let readTarget := min (len-data.length) (clusterSize-clusterLoopOffset)
      let bytes := fatRead fs (clusterBaseOffset+clusterLoopOffset) readTarget
      if bytes.length < readTarget ∨ (data++bytes).length ≥ len then (true, data++bytes)
      else fatFileReadCluster clusterBaseOffset clusterSize len rounds
        (clusterLoopOffset+bytes.length) (data++bytes)
    else (false, data)

/-- The loop over the clusters, which the table may lead in a circle. -/
def fatFileReadLoop (clusterSize len : ℕ) : ℕ → ℕ → ℕ → List UInt8 → Option (List UInt8)
  | 0, _, _, _ => none
  | fuel+1, cluster, readOffset, data =>
    let round := if readOffset < clusterSize
      then fatFileReadCluster fs (fatGetOffsetForCluster fs cluster) clusterSize len clusterSize
        readOffset data
      else (false, data)
    let readOffset' := if readOffset < clusterSize then readOffset else readOffset-clusterSize
    match fatReadClusterEntry fs cluster with
    | .error | .free | .reserved => some data
    | .endOfChain => some round.2
    | .data nextCluster =>
      if round.1 then some round.2
      else fatFileReadLoop clusterSize len fuel nextCluster readOffset' round.2

/-- The bytes copied, whose number is returned. There is no answer where an
entry cannot be read, which leaves the first cluster or the size unset. -/
def fatFileReadFromDirEntryOffset (fuel dirEntryOffset readOffset len : ℕ) :
    Option (List UInt8) := do
  let cluster ← fatReadDirEntryFirstCluster fs dirEntryOffset
  let fileSize ← fatReadDirEntrySize fs dirEntryOffset
  let len' := if u32 (readOffset+len) > fileSize then wrap16 ((fileSize : ℤ)-readOffset) else len
  fatFileReadLoop fs (fatGetClusterSize fs) len' fuel cluster readOffset []

end Reading

/-! ### Volumes on an image -/

/-- A device of this many bytes. -/
def deviceRead (size : ℕ) (m : Image) : FatReadFunctor := fun addr len =>
  slice m addr (min len (size-addr))

def byteAt (m : Image) (addr : ℕ) : ℕ := (m addr).toNat
def wordAt (m : Image) (addr : ℕ) : ℕ := byteAt m (addr+1)*256+byteAt m addr
def longAt (m : Image) (addr : ℕ) : ℕ := wordAt m (addr+2)*65536+wordAt m addr

section Device

variable {fs : Fat} {size : ℕ} {m : Image} (hfs : fs.readFunctor = deviceRead size m)

include hfs

theorem fatRead_device {addr len : ℕ} (hsize : addr+len ≤ size) (h32 : addr < 4294967296) :
    fatRead fs addr len = slice m addr len := by
  rw [fatRead, hfs, deviceRead, u32_of_lt h32, Nat.min_eq_left (by omega)]

theorem fatRead8_device {addr : ℕ} (hsize : addr+1 ≤ size) (h32 : addr < 4294967296) :
    fatRead8 fs addr = some (byteAt m addr) := by
  rw [fatRead8, fatRead_device hfs hsize h32, slice_one]
  rfl

theorem fatRead16_device {addr : ℕ} (hsize : addr+2 ≤ size) (h32 : addr+2 ≤ 4294967296) :
    fatRead16 fs addr = some (wordAt m addr) := by
  rw [fatRead16, fatRead8_device hfs (by omega) (by omega),
    fatRead8_device hfs (by omega) (by omega)]
  rfl

theorem fatRead32_device {addr : ℕ} (hsize : addr+4 ≤ size) (h32 : addr+4 ≤ 4294967296) :
    fatRead32 fs addr = some (longAt m addr) := by
  rw [fatRead32, fatRead16_device hfs (by omega) (by omega),
    fatRead16_device hfs (by omega) (by omega)]
  rfl

end Device

theorem wordAt_congr {m m' : Image} {addr : ℕ} (h : ∀ a, addr ≤ a → a < addr+2 → m' a = m a) :
    wordAt m' addr = wordAt m addr := by
  simp [wordAt, byteAt, h addr, h (addr+1)]

theorem longAt_congr {m m' : Image} {addr : ℕ} (h : ∀ a, addr ≤ a → a < addr+4 → m' a = m a) :
    longAt m' addr = longAt m addr := by
  rw [longAt, longAt, wordAt_congr fun a h₁ h₂ => h a (by omega) (by omega),
    wordAt_congr fun a h₁ h₂ => h a (by omega) (by omega)]

end ArduinoOS.Kernel
