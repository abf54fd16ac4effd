import ArduinoOS.Kernel.FatMount

/-!
# The geometry of a well-formed volume

What the specification says of the sectors of a volume and of its type, and
when a mount computes the same. The 16-bit number of sectors is read from the
end of the name before it, the root directory is taken to be where it is on
small volumes, and sector numbers are kept in 16 bits.
-/

set_option autoImplicit false

namespace ArduinoOS.Kernel
open ArduinoOS.ByteProgram

/-! ### The specification -/

namespace BpbSpec

variable (m : Image)

def bytsPerSec : ℕ := wordAt m 11
def secPerClus : ℕ := byteAt m 13
def rsvdSecCnt : ℕ := wordAt m 14
def numFats : ℕ := byteAt m 16
def rootEntCnt : ℕ := wordAt m 17
def fatSz : ℕ := if wordAt m 22 ≠ 0 then wordAt m 22 else longAt m 36
def totSec : ℕ := if wordAt m 19 ≠ 0 then wordAt m 19 else longAt m 32
def rootClus : ℕ := longAt m 44

def rootDirSectors : ℕ := (rootEntCnt m*32+(bytsPerSec m-1))/bytsPerSec m

/-- The sector behind the reserved ones and the tables. -/
def tablesEnd : ℕ := rsvdSecCnt m+numFats m*fatSz m

def firstDataSector : ℕ := tablesEnd m+rootDirSectors m

def clusterCount : ℕ := (totSec m-firstDataSector m)/secPerClus m

/-- The type by the number of clusters. -/
def typeOf (clusters : ℕ) : FatType :=
  if clusters < 4085 then .fat12 else if clusters < 65525 then .fat16 else .fat32

def type : FatType := typeOf (clusterCount m)

/-- The first sector of the root directory: behind the tables, or its cluster's. -/
def rootDirSector : ℕ :=
  if type m = .fat32 then firstDataSector m+(rootClus m-2)*secPerClus m else tablesEnd m

/-- A legal parameter block with room for the data. -/
structure WellFormed : Prop where
  sector_legal : bytsPerSec m ∈ [512, 1024, 2048, 4096]
  cluster_legal : secPerClus m ∈ [1, 2, 4, 8, 16, 32, 64, 128]
  rsvd_pos : 0 < rsvdSecCnt m
  fats_pos : 0 < numFats m
  fatSz_pos : 0 < fatSz m
  totSec_pos : 0 < totSec m
  data_room : firstDataSector m+secPerClus m ≤ totSec m
  root_sectors : type m ≠ .fat32 → 0 < rootEntCnt m ∧ rootEntCnt m*32 % bytsPerSec m = 0
  root_cluster : type m = .fat32 →
    rootEntCnt m = 0 ∧ 2 ≤ rootClus m ∧ rootClus m < clusterCount m+2

end BpbSpec

/-! ### The code -/

/-- The number of clusters that the mount computes. -/
def countedClusters (m : Image) : ℕ :=
  wrap32 (((bpbOf m).totSec : ℤ)-BpbSpec.firstDataSector m)/BpbSpec.secPerClus m

/-- The mount has the type and the sectors of the specification. -/
def GeometryRight (size : ℕ) (m : Image) : Prop :=
  ∃ fs, fatMountFast (deviceRead size m) = .mounted fs ∧
    fs.bytesPerSector = BpbSpec.bytsPerSec m ∧ fs.sectorsPerCluster = BpbSpec.secPerClus m ∧
    fs.type = BpbSpec.type m ∧ fs.fatSector = BpbSpec.rsvdSecCnt m ∧
    fs.rootDirSector = BpbSpec.rootDirSector m ∧
    fs.firstDataSector = BpbSpec.firstDataSector m

/-- Bytes 9 and 10, or else the 32-bit field, are not zero and give the type of
the volume; the data starts below sector 65536; the root directory of a FAT32
starts in cluster 2. -/
def GeometrySuits (m : Image) : Prop :=
  0 < (bpbOf m).totSec ∧ BpbSpec.typeOf (countedClusters m) = BpbSpec.type m ∧
    BpbSpec.firstDataSector m < 65536 ∧
    (BpbSpec.type m = .fat32 → BpbSpec.rootClus m = 2)

variable {size : ℕ} {m : Image}

theorem bytsPerSec_ge (h : BpbSpec.WellFormed m) : 512 ≤ BpbSpec.bytsPerSec m := by
  have hs := h.sector_legal
  simp only [List.mem_cons, List.not_mem_nil, or_false] at hs
  omega

theorem bytsPerSec_ne (h : BpbSpec.WellFormed m) : (bpbOf m).bytsPerSec ≠ 0 := by
  have hs : 512 ≤ (bpbOf m).bytsPerSec := bytsPerSec_ge h
  omega

theorem secPerClus_pos (h : BpbSpec.WellFormed m) : 0 < BpbSpec.secPerClus m := by
  have hs := h.cluster_legal
  simp only [List.mem_cons, List.not_mem_nil, or_false] at hs
  omega

theorem secPerClus_ne (h : BpbSpec.WellFormed m) : (bpbOf m).secPerClus ≠ 0 := by
  have hc : 0 < (bpbOf m).secPerClus := secPerClus_pos h
  omega

theorem rootDirSectors_lt (h : BpbSpec.WellFormed m) : BpbSpec.rootDirSectors m < 65536 := by
  have hs := bytsPerSec_ge h
  have hr : BpbSpec.rootEntCnt m < 65536 := word_lt m 17
  have hb : BpbSpec.bytsPerSec m < 65536 := word_lt m 11
  apply Nat.div_lt_of_lt_mul
  omega

/-- The mount, in terms of the specification. -/
theorem fatOfBpb_image (h : BpbSpec.WellFormed m) (readFunctor : FatReadFunctor) :
    (fatOfBpb readFunctor (bpbOf m)).bytesPerSector = BpbSpec.bytsPerSec m ∧
    (fatOfBpb readFunctor (bpbOf m)).sectorsPerCluster = BpbSpec.secPerClus m ∧
    (fatOfBpb readFunctor (bpbOf m)).type = BpbSpec.typeOf (countedClusters m) ∧
    (fatOfBpb readFunctor (bpbOf m)).fatSector = BpbSpec.rsvdSecCnt m ∧
    (fatOfBpb readFunctor (bpbOf m)).rootDirSector = u16 (BpbSpec.tablesEnd m) ∧
    (fatOfBpb readFunctor (bpbOf m)).firstDataSector = u16 (BpbSpec.firstDataSector m) := by
  have hsector := bytsPerSec_ne h
  have hroot : u16 (((bpbOf m).rootEntCnt*32+((bpbOf m).bytsPerSec-1))/(bpbOf m).bytsPerSec) =
      BpbSpec.rootDirSectors m := u16_of_lt (rootDirSectors_lt h)
  have hsz : (bpbOf m).fatSz = BpbSpec.fatSz m := by
    simp [bpbOf, BpbSpec.fatSz, Nat.pos_iff_ne_zero]
  have htables : (bpbOf m).resvdSecCnt+(bpbOf m).numFats*(bpbOf m).fatSz =
      BpbSpec.tablesEnd m := by
    rw [hsz]
    rfl
  refine ⟨rfl, rfl, ?_, rfl, ?_, ?_⟩
  · have hdata : ((bpbOf m).totSec : ℤ)-((bpbOf m).resvdSecCnt+
        (bpbOf m).numFats*(bpbOf m).fatSz+BpbSpec.rootDirSectors m) =
        ((bpbOf m).totSec : ℤ)-BpbSpec.firstDataSector m := by
      rw [BpbSpec.firstDataSector, ← htables]
      push_cast
      rfl
    simp only [fatOfBpb, hroot, hdata]
    rw [fatTypeFor, if_neg hsector]
    rfl
  · simp only [fatOfBpb, htables]
  · simp only [fatOfBpb, hroot, htables]
    simp only [BpbSpec.firstDataSector, u16]
    omega

/-- The header of a well-formed volume is read unless its total seems to be zero. -/
theorem hasHeader_iff (h : BpbSpec.WellFormed m) (hsize : 512 ≤ size) :
    HasHeader size m ↔ 0 < (bpbOf m).totSec := by
  have hsz := h.fatSz_pos
  simp only [BpbSpec.fatSz] at hsz
  simp only [HasHeader, bpbOf]
  constructor
  · rintro ⟨_, _, htot | ⟨_, htot⟩⟩
    · rw [if_pos htot]
      exact htot
    · split <;> omega
  · intro htot
    refine ⟨by omega, ?_, ?_⟩
    · split at hsz <;> omega
    · split at htot <;> omega

theorem mounted_image (h : BpbSpec.WellFormed m) (hsize : 512 ≤ size) :
    fatMountFast (deviceRead size m) = if 0 < (bpbOf m).totSec
      then .mounted (fatOfBpb (deviceRead size m) (bpbOf m)) else .refused := by
  rw [fatMountFast_image]
  simp only [hasHeader_iff h hsize, bytsPerSec_ne h, secPerClus_ne h, or_self, if_false]

/-- The first data sector of a FAT32 volume is where its tables end. -/
theorem fat32_firstData (h : BpbSpec.WellFormed m) (htype : BpbSpec.type m = .fat32) :
    BpbSpec.firstDataSector m = BpbSpec.tablesEnd m := by
  have hs := bytsPerSec_ge h
  have hzero : BpbSpec.rootDirSectors m = 0 := by
    rw [BpbSpec.rootDirSectors, (h.root_cluster htype).1]
    apply Nat.div_eq_of_lt
    omega
  rw [BpbSpec.firstDataSector, hzero, Nat.add_zero]

/-- With sectors that fit, the root directory is found unless it is elsewhere. -/
theorem rootDir_iff (h : BpbSpec.WellFormed m) (hfit : BpbSpec.firstDataSector m < 65536) :
    u16 (BpbSpec.tablesEnd m) = BpbSpec.rootDirSector m ↔
      (BpbSpec.type m = .fat32 → BpbSpec.rootClus m = 2) := by
  have hle : BpbSpec.tablesEnd m ≤ BpbSpec.firstDataSector m := Nat.le_add_right _ _
  rw [u16_of_lt (by omega), BpbSpec.rootDirSector]
  by_cases htype : BpbSpec.type m = .fat32
  · have hpos := secPerClus_pos h
    have hclus := (h.root_cluster htype).2.1
    rw [if_pos htype, fat32_firstData h htype]
    constructor
    · intro heq _
      have hzero : (BpbSpec.rootClus m-2)*BpbSpec.secPerClus m = 0 := by omega
      rcases Nat.mul_eq_zero.mp hzero with hz | hz <;> omega
    · intro hroot
      rw [hroot htype]
      simp
  · rw [if_neg htype]
    simp [htype]

/-- The geometry of a well-formed volume is computed right exactly when its
fields suit the mount. -/
theorem fatMount_geometry_iff (h : BpbSpec.WellFormed m) (hsize : 512 ≤ size) :
    GeometryRight size m ↔ GeometrySuits m := by
  have himage := fatOfBpb_image h (deviceRead size m)
  by_cases htot : 0 < (bpbOf m).totSec
  · have hmount := mounted_image h hsize
    rw [if_pos htot] at hmount
    constructor
    · rintro ⟨fs, hfs, _, _, htype, _, hroot, hfirst⟩
      rw [hmount] at hfs
      cases hfs
      rw [himage.2.2.1] at htype
      rw [himage.2.2.2.2.1] at hroot
      rw [himage.2.2.2.2.2] at hfirst
      have hfit : BpbSpec.firstDataSector m < 65536 := by
        rw [← hfirst]
        exact u16_lt _
      exact ⟨htot, htype, hfit, (rootDir_iff h hfit).mp hroot⟩
    · rintro ⟨_, htype, hfit, hroot⟩
      refine ⟨_, hmount, himage.1, himage.2.1, ?_, himage.2.2.2.1, ?_, ?_⟩
      · rw [himage.2.2.1, htype]
      · rw [himage.2.2.2.2.1]
        exact (rootDir_iff h hfit).mpr hroot
      · rw [himage.2.2.2.2.2, u16_of_lt hfit]
  · have hmount := mounted_image h hsize
    rw [if_neg htot] at hmount
    constructor
    · rintro ⟨fs, hfs, _⟩
      rw [hmount] at hfs
      cases hfs
    · rintro ⟨hpos, _⟩
      exact absurd hpos htot

/-! ### A volume of 10 MB -/

/-- A FAT16 of 20480 sectors, the number in the 16-bit field; the name before
the fields ends in blanks. -/
def tenMegabytes : Image := fun a =>
  if a = 9 ∨ a = 10 then 0x20
  else if a = 12 then 2
  else if a = 13 then 4
  else if a = 14 then 1
  else if a = 16 then 2
  else if a = 18 then 2
  else if a = 20 then 80
  else if a = 22 then 20
  else 0

theorem tenMegabytes_wellFormed : BpbSpec.WellFormed tenMegabytes where
  sector_legal := by decide
  cluster_legal := by decide
  rsvd_pos := by decide
  fats_pos := by decide
  fatSz_pos := by decide
  totSec_pos := by decide
  data_room := by decide
  root_sectors := by decide
  root_cluster := by decide

theorem fatMount_geometry_iff_tenMegabytes :
    GeometryRight 512 tenMegabytes ↔ GeometrySuits tenMegabytes :=
  fatMount_geometry_iff tenMegabytes_wellFormed (le_refl 512)

/-- The blanks stand for 8224 sectors, which would be a FAT12. -/
theorem tenMegabytes_wrong :
    ¬ ∀ size m, BpbSpec.WellFormed m → 512 ≤ size → GeometryRight size m := by
  intro h
  obtain ⟨fs, hfs, _, _, htype, _⟩ := h 512 tenMegabytes tenMegabytes_wellFormed (le_refl 512)
  rw [mounted_image tenMegabytes_wellFormed (le_refl 512), if_pos (by decide)] at hfs
  cases hfs
  rw [(fatOfBpb_image tenMegabytes_wellFormed _).2.2.1] at htype
  exact absurd htype (by decide)

end ArduinoOS.Kernel
