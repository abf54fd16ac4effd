import ArduinoOS.Kernel.Fat

/-!
# Mounting a FAT volume

The sizes of a volume are computed from fields of its first sector. They are
divided by before they are looked at, and the sums are cut to the width of the
fields that keep them.
-/

set_option autoImplicit false

namespace ArduinoOS.Kernel
open ArduinoOS.ByteProgram

/-- The fields of the BIOS parameter block that a mount reads. -/
structure Bpb where
  bytsPerSec : ℕ
  rootEntCnt : ℕ
  fatSz : ℕ
  totSec : ℕ
  resvdSecCnt : ℕ
  numFats : ℕ
  secPerClus : ℕ
  deriving DecidableEq

section Reading

variable (fs : Fat)

def fatReadBpbBytsPerSec : Option ℕ := fatRead16 fs 11
def fatReadBpbRootEntCnt : Option ℕ := fatRead16 fs 17
def fatReadBpbFatSz16 : Option ℕ := fatRead16 fs 22
def fatReadBpbFatSz32 : Option ℕ := fatRead32 fs 36
def fatReadBpbTotSec16 : Option ℕ := fatRead16 fs 9
def fatReadBpbTotSec32 : Option ℕ := fatRead32 fs 32
def fatReadBpbResvdSecCnt : Option ℕ := fatRead16 fs 14
def fatReadBpbNumFats : Option ℕ := fatRead8 fs 16
def fatReadBpbSecPerClus : Option ℕ := fatRead8 fs 13

/-- The one of two fields that is not zero. -/
def nonZeroOf (read16 read32 : Option ℕ) : Option ℕ :=
  match read16 with
  | none => none
  | some value16 =>
      if value16 > 0 then some value16
      else
        match read32 with
        | none => none
        | some value => if value > 0 then some value else none

def fatReadBpbFatSz : Option ℕ := nonZeroOf (fatReadBpbFatSz16 fs) (fatReadBpbFatSz32 fs)
def fatReadBpbTotSec : Option ℕ := nonZeroOf (fatReadBpbTotSec16 fs) (fatReadBpbTotSec32 fs)

/-- All fields, unless one of the reads fails. -/
def fatReadBpb : Option Bpb := do
  let bytsPerSec ← fatReadBpbBytsPerSec fs
  let rootEntCnt ← fatReadBpbRootEntCnt fs
  let fatSz ← fatReadBpbFatSz fs
  let totSec ← fatReadBpbTotSec fs
  let resvdSecCnt ← fatReadBpbResvdSecCnt fs
  let numFats ← fatReadBpbNumFats fs
  let secPerClus ← fatReadBpbSecPerClus fs
  return ⟨bytsPerSec, rootEntCnt, fatSz, totSec, resvdSecCnt, numFats, secPerClus⟩

end Reading

/-- How a mount ends. -/
inductive FatMounted
  | divides
  | refused
  | mounted (fs : Fat)

def fatTypeFor (bytesPerSector totalClusters : ℕ) : FatType :=
  if bytesPerSector = 0 then .exFat
  else if totalClusters < 4085 then .fat12
  else if totalClusters < 65525 then .fat16
  else .fat32

/-- The fields of the volume that come from the header; sectors are numbers of 16 bits. -/
def fatOfBpb (readFunctor : FatReadFunctor) (b : Bpb) : Fat :=
  let rootDirSizeSectors := u16 ((b.rootEntCnt*32+(b.bytsPerSec-1))/b.bytsPerSec)
  let dataSectors := wrap32 ((b.totSec : ℤ)-(b.resvdSecCnt+b.numFats*b.fatSz+rootDirSizeSectors))
  let totalClusters := dataSectors/b.secPerClus
  let rootDirSector := u16 (b.resvdSecCnt+b.numFats*b.fatSz)
  { readFunctor := readFunctor
    bytesPerSector := b.bytsPerSec
    fatSector := b.resvdSecCnt
    rootDirSector := rootDirSector
    firstDataSector := u16 (rootDirSector+rootDirSizeSectors)
    type := fatTypeFor b.bytsPerSec totalClusters
    sectorsPerCluster := b.secPerClus }

def fatMountFast (readFunctor : FatReadFunctor) : FatMounted :=
  match fatReadBpb ⟨readFunctor, 0, 0, 0, 0, .fat12, 0⟩ with
  | none => .refused
  | some b =>
      if b.bytsPerSec = 0 ∨ b.secPerClus = 0 then .divides
      else .mounted (fatOfBpb readFunctor b)

def fatMountSafe (readFunctor : FatReadFunctor) : FatMounted :=
  match fatMountFast readFunctor with
  | .divides => .divides
  | .refused => .refused
  | .mounted fs =>
      if fatRead8 fs 510 ≠ some 0x55 then .refused
      else if fatRead8 fs 511 ≠ some 0xAA then .refused
      else
        match fs.type with
        | .fat12 | .fat16 | .fat32 => .mounted fs
        | .exFat => .refused

/-! ### The header of an image -/

/-- The header as it is read. -/
def bpbOf (m : Image) : Bpb where
  bytsPerSec := wordAt m 11
  rootEntCnt := wordAt m 17
  fatSz := if wordAt m 22 > 0 then wordAt m 22 else longAt m 36
  totSec := if wordAt m 9 > 0 then wordAt m 9 else longAt m 32
  resvdSecCnt := wordAt m 14
  numFats := byteAt m 16
  secPerClus := byteAt m 13

/-- A device is long enough for the fields, and one of each pair is not zero. -/
def HasHeader (size : ℕ) (m : Image) : Prop :=
  24 ≤ size ∧ (wordAt m 22 > 0 ∨ 40 ≤ size ∧ longAt m 36 > 0) ∧
    (wordAt m 9 > 0 ∨ 36 ≤ size ∧ longAt m 32 > 0)

instance (size : ℕ) (m : Image) : Decidable (HasHeader size m) :=
  inferInstanceAs (Decidable (_ ∧ _))

section Device

variable {fs : Fat} {size : ℕ} {m : Image} (hfs : fs.readFunctor = deviceRead size m)

include hfs

theorem fatRead8_image {addr : ℕ} (h32 : addr < 4294967296) :
    fatRead8 fs addr = if addr < size then some (byteAt m addr) else none := by
  by_cases h : addr < size
  · rw [if_pos h, fatRead8_device hfs h h32]
  · rw [if_neg h, fatRead8, fatRead, hfs, deviceRead, u32_of_lt h32,
      Nat.sub_eq_zero_of_le (not_lt.mp h)]
    rfl

theorem fatRead16_image {addr : ℕ} (h32 : addr+1 < 4294967296) :
    fatRead16 fs addr = if addr+1 < size then some (wordAt m addr) else none := by
  rw [fatRead16, fatRead8_image hfs (by omega), fatRead8_image hfs h32]
  by_cases h : addr+1 < size
  · rw [if_pos h, if_pos h, if_pos (by omega)]
    rfl
  · rw [if_neg h, if_neg h]
    split <;> rfl

theorem fatRead32_image {addr : ℕ} (h32 : addr+3 < 4294967296) :
    fatRead32 fs addr = if addr+3 < size then some (longAt m addr) else none := by
  rw [fatRead32, fatRead16_image hfs (by omega), fatRead16_image hfs h32]
  by_cases h : addr+3 < size
  · rw [if_pos h, if_pos h, if_pos (by omega)]
    rfl
  · rw [if_neg h, if_neg h]
    split <;> rfl

theorem fatReadBpbFatSz_image : fatReadBpbFatSz fs =
    if 24 ≤ size ∧ (wordAt m 22 > 0 ∨ 40 ≤ size ∧ longAt m 36 > 0)
    then some (bpbOf m).fatSz else none := by
  simp only [fatReadBpbFatSz, fatReadBpbFatSz16, fatReadBpbFatSz32, nonZeroOf,
    fatRead16_image hfs (show 22+1 < 4294967296 by omega), fatRead32_image hfs (show 36+3 < 4294967296 by omega)]
  by_cases h : 22+1 < size
  · rw [if_pos h]
    by_cases hzero : wordAt m 22 > 0
    · simp [hzero, bpbOf]
      omega
    · by_cases h' : 36+3 < size
      · by_cases hzero' : longAt m 36 > 0
        · simp [hzero, hzero', h', bpbOf]
          omega
        · simp [hzero, hzero', h']
      · have hshort : ¬ 40 ≤ size := by omega
        simp [hzero, h', hshort]
  · have hshort : ¬ 24 ≤ size := by omega
    simp [h, hshort]

theorem fatReadBpbTotSec_image : fatReadBpbTotSec fs =
    if 11 ≤ size ∧ (wordAt m 9 > 0 ∨ 36 ≤ size ∧ longAt m 32 > 0)
    then some (bpbOf m).totSec else none := by
  simp only [fatReadBpbTotSec, fatReadBpbTotSec16, fatReadBpbTotSec32, nonZeroOf,
    fatRead16_image hfs (show 9+1 < 4294967296 by omega), fatRead32_image hfs (show 32+3 < 4294967296 by omega)]
  by_cases h : 9+1 < size
  · rw [if_pos h]
    by_cases hzero : wordAt m 9 > 0
    · simp [hzero, bpbOf]
      omega
    · by_cases h' : 32+3 < size
      · by_cases hzero' : longAt m 32 > 0
        · simp [hzero, hzero', h', bpbOf]
          omega
        · simp [hzero, hzero', h']
      · have hshort : ¬ 36 ≤ size := by omega
        simp [hzero, h', hshort]
  · have hshort : ¬ 11 ≤ size := by omega
    simp [h, hshort]

theorem fatReadBpb_image :
    fatReadBpb fs = if HasHeader size m then some (bpbOf m) else none := by
  have hfat := fatReadBpbFatSz_image hfs
  have htot := fatReadBpbTotSec_image hfs
  by_cases hsize : 24 ≤ size
  · have hbyts : fatReadBpbBytsPerSec fs = some (wordAt m 11) :=
      fatRead16_device hfs (by omega) (by omega)
    have hroot : fatReadBpbRootEntCnt fs = some (wordAt m 17) :=
      fatRead16_device hfs (by omega) (by omega)
    have hresvd : fatReadBpbResvdSecCnt fs = some (wordAt m 14) :=
      fatRead16_device hfs (by omega) (by omega)
    have hnum : fatReadBpbNumFats fs = some (byteAt m 16) :=
      fatRead8_device hfs (by omega) (by omega)
    have hsec : fatReadBpbSecPerClus fs = some (byteAt m 13) :=
      fatRead8_device hfs (by omega) (by omega)
    have h11 : 11 ≤ size := by omega
    simp only [hsize, true_and] at hfat
    simp only [h11, true_and] at htot
    simp only [fatReadBpb, hbyts, hroot, hresvd, hnum, hsec, hfat, htot, HasHeader, hsize,
      true_and]
    by_cases hsz : wordAt m 22 > 0 ∨ 40 ≤ size ∧ longAt m 36 > 0
    · by_cases hsc : wordAt m 9 > 0 ∨ 36 ≤ size ∧ longAt m 32 > 0
      · simp only [hsz, hsc, and_self, if_true]
        rfl
      · simp only [if_pos hsz, hsc, and_false, if_false]
        rfl
    · simp only [hsz, false_and, if_false]
      rfl
  · have hnone : fatReadBpbFatSz fs = none := by
      rw [hfat, if_neg (fun h => hsize h.1)]
    rw [if_neg (fun h => hsize h.1)]
    simp only [fatReadBpb, hnone]
    cases fatReadBpbBytsPerSec fs with
    | none => rfl
    | some _ =>
      cases fatReadBpbRootEntCnt fs with
      | none => rfl
      | some _ => rfl

end Device

/-! ### Mounts of images -/

section Images

variable {size : ℕ} {m : Image}

/-- The last two bytes of the first sector. -/
def HasMagic (size : ℕ) (m : Image) : Prop :=
  512 ≤ size ∧ byteAt m 510 = 0x55 ∧ byteAt m 511 = 0xAA

theorem fatMountFast_image (size : ℕ) (m : Image) :
    fatMountFast (deviceRead size m) =
      if HasHeader size m then
        if (bpbOf m).bytsPerSec = 0 ∨ (bpbOf m).secPerClus = 0 then .divides
        else .mounted (fatOfBpb (deviceRead size m) (bpbOf m))
      else .refused := by
  rw [fatMountFast, fatReadBpb_image (show deviceRead size m = deviceRead size m from rfl)]
  by_cases h : HasHeader size m
  · simp only [if_pos h]
  · simp only [if_neg h]

theorem byte_lt (m : Image) (addr : ℕ) : byteAt m addr < 256 := (m addr).toNat_lt

theorem word_lt (m : Image) (addr : ℕ) : wordAt m addr < 65536 := by
  have h := byte_lt m addr
  have h' := byte_lt m (addr+1)
  rw [wordAt]
  omega

theorem long_lt (m : Image) (addr : ℕ) : longAt m addr < 4294967296 := by
  have h := word_lt m addr
  have h' := word_lt m (addr+2)
  rw [longAt]
  omega

/-- A volume that the sizes allow is mounted if it has the magic bytes. -/
theorem fatMountSafe_image (hheader : HasHeader size m) (hsector : (bpbOf m).bytsPerSec ≠ 0)
    (hcluster : (bpbOf m).secPerClus ≠ 0) :
    (HasMagic size m → fatMountSafe (deviceRead size m) =
      .mounted (fatOfBpb (deviceRead size m) (bpbOf m))) ∧
    (¬ HasMagic size m → fatMountSafe (deviceRead size m) = .refused) := by
  have hfast : fatMountFast (deviceRead size m) =
      .mounted (fatOfBpb (deviceRead size m) (bpbOf m)) := by
    rw [fatMountFast_image, if_pos hheader, if_neg (by simp [hsector, hcluster])]
  have hread : ∀ addr < 4294967296, fatRead8 (fatOfBpb (deviceRead size m) (bpbOf m)) addr =
      if addr < size then some (byteAt m addr) else none :=
    fun addr h32 => fatRead8_image rfl h32
  have htype : (fatOfBpb (deviceRead size m) (bpbOf m)).type ≠ .exFat := by
    simp only [fatOfBpb, fatTypeFor, if_neg hsector]
    split_ifs <;> simp
  simp only [fatMountSafe, hfast, hread 510 (by omega), hread 511 (by omega)]
  constructor
  · rintro ⟨hsize, hfirst, hsecond⟩
    have h510 : 510 < size := by omega
    have h511 : 511 < size := by omega
    simp only [if_pos h510, if_pos h511, hfirst, hsecond]
    cases ht : (fatOfBpb (deviceRead size m) (bpbOf m)).type with
    | exFat => exact absurd ht htype
    | fat12 | fat16 | fat32 => simp
  · intro hmagic
    by_cases hsize : 512 ≤ size
    · have h510 : 510 < size := by omega
      have h511 : 511 < size := by omega
      simp only [if_pos h510, if_pos h511]
      by_cases hfirst : byteAt m 510 = 0x55
      · have hsecond : byteAt m 511 ≠ 0xAA := fun h => hmagic ⟨hsize, hfirst, h⟩
        simp [hfirst, hsecond]
      · simp [hfirst]
    · have hshort : ¬ 511 < size := by omega
      simp only [if_neg hshort]
      split_ifs <;> simp_all

end Images

end ArduinoOS.Kernel
