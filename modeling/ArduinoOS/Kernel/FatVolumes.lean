import ArduinoOS.Kernel.FatNames

/-!
# Well-formed FAT volumes and their files

The clusters of a volume lie one after another behind its tables. A file is a
chain of clusters, each entry of the table naming the next cluster and the last
one ending the chain.
-/

set_option autoImplicit false

namespace ArduinoOS.Kernel
open ArduinoOS.ByteProgram

namespace FatType

/-- The bytes of one entry of the table. -/
def entryWidth : FatType → ℕ
  | fat32 => 4
  | _ => 2

/-- The largest entry that names a cluster. -/
def topEntry : FatType → ℕ
  | fat32 => 0x0FFFFFF6
  | _ => 0xFFF6

end FatType

/-- A FAT16 or FAT32 volume on a device of `size` bytes. The root directory's
sector is the one it is mounted with. -/
structure FatVolume where
  type : FatType
  bytesPerSector : ℕ
  sectorsPerCluster : ℕ
  fatSector : ℕ
  rootDirSector : ℕ
  firstDataSector : ℕ
  clusters : ℕ
  size : ℕ
  type_read : type = .fat16 ∨ type = .fat32
  sector_legal : bytesPerSector ∈ [512, 1024, 2048, 4096]
  cluster_legal : sectorsPerCluster ∈ [1, 2, 4, 8, 16, 32, 64, 128]
  cluster_max : sectorsPerCluster*bytesPerSector ≤ 65536
  fatSector_lt : fatSector < 65536
  clusters_top : clusters+1 ≤ type.topEntry
  table_room : fatSector*bytesPerSector+type.entryWidth*(clusters+2) ≤
    firstDataSector*bytesPerSector
  data_room : firstDataSector*bytesPerSector+clusters*(sectorsPerCluster*bytesPerSector) ≤ size

/-! What the smallest volumes share: they are FAT16, and a cluster is one sector of 512 bytes. -/

theorem fat16_read : FatType.fat16 = .fat16 ∨ FatType.fat16 = .fat32 := .inl rfl

theorem sector_512 : 512 ∈ [512, 1024, 2048, 4096] := by decide

theorem cluster_one : 1 ∈ [1, 2, 4, 8, 16, 32, 64, 128] := by decide

theorem cluster_small : 1*512 ≤ 65536 := by decide

theorem fatSector_one : 1 < 65536 := by decide

namespace FatVolume

variable (v : FatVolume)

def fs (m : Image) : Fat where
  readFunctor := deviceRead v.size m
  bytesPerSector := v.bytesPerSector
  fatSector := v.fatSector
  rootDirSector := v.rootDirSector
  firstDataSector := u16 v.firstDataSector
  type := v.type
  sectorsPerCluster := v.sectorsPerCluster

def clusterSize : ℕ := v.sectorsPerCluster*v.bytesPerSector

def clusterAddr (c : ℕ) : ℕ := v.firstDataSector*v.bytesPerSector+(c-2)*v.clusterSize

/-- Where the mounted volume looks for a cluster. -/
def readAddr (c : ℕ) : ℕ := u16 v.firstDataSector*v.bytesPerSector+(c-2)*v.clusterSize

def entryAddr (c : ℕ) : ℕ := v.fatSector*v.bytesPerSector+v.type.entryWidth*c

/-- The entry of a cluster in the table. -/
def entry (m : Image) (c : ℕ) : ℕ :=
  match v.type with
  | .fat32 => longAt m (v.entryAddr c) % 0x10000000
  | _ => wordAt m (v.entryAddr c)

def IsCluster (c : ℕ) : Prop := 2 ≤ c ∧ c < v.clusters+2

/-- The table links the clusters, and ends the chain after the last. -/
def Linked (m : Image) : List ℕ → Prop
  | [] => True
  | [c] => v.type.topEntry+2 ≤ v.entry m c
  | c::d::cs => v.entry m c = d ∧ Linked m (d::cs)

/-- The first cluster of the directory entry. -/
def firstCluster (m : Image) (dirEntryOffset : ℕ) : ℕ :=
  match v.type with
  | .fat32 => wordAt m (dirEntryOffset+20)*65536+wordAt m (dirEntryOffset+26)
  | _ => wordAt m (dirEntryOffset+26)

/-- Two ranges of bytes apart, the second that of a cluster. -/
def Apart (addr len c : ℕ) : Prop := addr+len ≤ v.clusterAddr c ∨ v.clusterAddr c+v.clusterSize ≤ addr

variable {v}

theorem clusterSize_half (h : v.clusterSize < 65536) : v.clusterSize ≤ 32768 := by
  have hs := v.sector_legal
  have hc := v.cluster_legal
  simp only [List.mem_cons, List.not_mem_nil, or_false] at hs hc
  rw [clusterSize] at h ⊢
  rcases hs with hs | hs | hs | hs <;> rw [hs] at h ⊢ <;> omega

theorem clusterSize_pos : 0 < v.clusterSize := by
  have hs := v.sector_legal
  have hc := v.cluster_legal
  simp only [List.mem_cons, List.not_mem_nil, or_false] at hs hc
  exact Nat.mul_pos (by omega) (by omega)

theorem bytesPerSector_le : v.bytesPerSector ≤ 4096 := by
  have hs := v.sector_legal
  simp only [List.mem_cons, List.not_mem_nil, or_false] at hs
  omega

theorem readAddr_le (c : ℕ) : v.readAddr c ≤ v.clusterAddr c := by
  have hle : u16 v.firstDataSector*v.bytesPerSector ≤ v.firstDataSector*v.bytesPerSector :=
    Nat.mul_le_mul_right _ (Nat.mod_le _ _)
  rw [readAddr, clusterAddr]
  omega

theorem readAddr_eq (h : v.firstDataSector < 65536) (c : ℕ) : v.readAddr c = v.clusterAddr c := by
  rw [readAddr, clusterAddr, u16_of_lt h]

theorem readAddr_ne (h : ¬ v.firstDataSector < 65536) (c : ℕ) :
    v.readAddr c < v.clusterAddr c := by
  have hpos : 0 < v.bytesPerSector := by
    have hs := v.sector_legal
    simp only [List.mem_cons, List.not_mem_nil, or_false] at hs
    omega
  have hlt : u16 v.firstDataSector < v.firstDataSector := by
    rw [u16]
    omega
  have hmul : u16 v.firstDataSector*v.bytesPerSector < v.firstDataSector*v.bytesPerSector :=
    Nat.mul_lt_mul_of_pos_right hlt hpos
  rw [readAddr, clusterAddr]
  omega

theorem clusterAddr_end {c : ℕ} (hc : v.IsCluster c) :
    v.clusterAddr c+v.clusterSize ≤ v.size := by
  have hroom : v.firstDataSector*v.bytesPerSector+v.clusters*v.clusterSize ≤ v.size := v.data_room
  have hlast : (c-2+1)*v.clusterSize ≤ v.clusters*v.clusterSize :=
    Nat.mul_le_mul_right _ (by have := hc.1; have := hc.2; omega)
  rw [clusterAddr]
  rw [Nat.succ_mul] at hlast
  omega

/-- Clusters whose number has 16 bits are looked for within 32-bit addresses. -/
theorem readAddr_small {c : ℕ} (hsize : v.clusterSize < 65536) (hc : c < 65536) :
    v.readAddr c+v.clusterSize < 4294967296 := by
  have hlast : (c-2)*v.clusterSize ≤ 65536*32768 :=
    Nat.mul_le_mul (by omega) (clusterSize_half hsize)
  have hstart : u16 v.firstDataSector*v.bytesPerSector ≤ 65536*4096 :=
    Nat.mul_le_mul (Nat.le_of_lt (u16_lt _)) bytesPerSector_le
  have := clusterSize_half hsize
  rw [readAddr]
  omega

theorem clusterAddr_apart {c d : ℕ} (hc : 2 ≤ c) (hd : 2 ≤ d) (hne : c ≠ d) :
    v.Apart (v.clusterAddr c) v.clusterSize d := by
  rcases Nat.lt_or_gt_of_ne hne with h | h
  · have hle : (c-2+1)*v.clusterSize ≤ (d-2)*v.clusterSize := Nat.mul_le_mul_right _ (by omega)
    rw [Nat.succ_mul] at hle
    apply Or.inl
    simp only [clusterAddr]
    omega
  · have hle : (d-2+1)*v.clusterSize ≤ (c-2)*v.clusterSize := Nat.mul_le_mul_right _ (by omega)
    rw [Nat.succ_mul] at hle
    apply Or.inr
    simp only [clusterAddr]
    omega

/-- The table lies below the data. -/
theorem entryAddr_below {c : ℕ} (hc : c < v.clusters+2) (d : ℕ) :
    v.entryAddr c+v.type.entryWidth ≤ v.clusterAddr d := by
  have hle : v.type.entryWidth*(c+1) ≤ v.type.entryWidth*(v.clusters+2) :=
    Nat.mul_le_mul_left _ (by omega)
  have hroom := v.table_room
  rw [Nat.mul_succ] at hle
  rw [entryAddr, clusterAddr]
  omega

theorem entry_congr {m m' : Image} {c : ℕ}
    (h : ∀ a, v.entryAddr c ≤ a → a < v.entryAddr c+v.type.entryWidth → m' a = m a) :
    v.entry m' c = v.entry m c := by
  rcases v.type_read with ht | ht <;> simp only [entry, ht, FatType.entryWidth] at h ⊢
  · exact wordAt_congr h
  · rw [longAt_congr h]

theorem linked_cons {m : Image} {c : ℕ} {cs : List ℕ} (h : cs ≠ []) :
    v.Linked m (c::cs) ↔ v.entry m c = cs.headD 0 ∧ v.Linked m cs := by
  cases cs with
  | nil => exact absurd rfl h
  | cons d cs => exact Iff.rfl

theorem linked_append {m : Image} {cs ds : List ℕ} (h : v.Linked m (cs++ds)) : v.Linked m ds := by
  induction cs with
  | nil => exact h
  | cons c cs ih =>
    by_cases hds : ds = []
    · rw [hds]
      exact trivial
    · exact ih ((linked_cons (by simp [hds])).mp h).2

theorem linked_congr {m m' : Image} {cs : List ℕ} (h : ∀ c ∈ cs, v.entry m' c = v.entry m c) :
    v.Linked m' cs ↔ v.Linked m cs := by
  induction cs with
  | nil => exact Iff.rfl
  | cons c cs ih =>
    have hc : v.entry m' c = v.entry m c := h c (by simp)
    have hcs := ih fun d hd => h d (by simp [hd])
    cases cs with
    | nil => simp only [Linked, hc]
    | cons d cs => rw [Linked, Linked, hc, hcs]

/-! ### What the code reads of a volume -/

section Code

variable {m : Image} {c : ℕ}

@[simp] theorem fs_readFunctor : (v.fs m).readFunctor = deviceRead v.size m := rfl

theorem fatGetClusterSize_small (h : v.clusterSize < 65536) :
    fatGetClusterSize (v.fs m) = v.clusterSize := u16_of_lt h

/-- A cluster of 64 KB has no size in 16 bits. -/
theorem fatGetClusterSize_large (h : ¬ v.clusterSize < 65536) : fatGetClusterSize (v.fs m) = 0 := by
  have hmax : v.clusterSize ≤ 65536 := v.cluster_max
  have hsize : v.clusterSize = 65536 := by omega
  exact congrArg u16 hsize

theorem fatGetOffsetForCluster_eq (hsize : v.clusterSize < 65536) (hc₀ : 2 ≤ c)
    (hc : c < 65536) : fatGetOffsetForCluster (v.fs m) c = v.readAddr c := by
  have hsector : (c-2)*v.sectorsPerCluster+u16 v.firstDataSector < 4294967296 := by
    have hs : v.sectorsPerCluster ≤ 128 := by
      have := v.cluster_legal
      simp only [List.mem_cons, List.not_mem_nil, or_false] at this
      omega
    have hmul : (c-2)*v.sectorsPerCluster ≤ 65536*128 := Nat.mul_le_mul (by omega) hs
    have := u16_lt v.firstDataSector
    omega
  have hwrap : wrap32 ((u16 c : ℤ)-2) = c-2 := by
    rw [u16_of_lt hc, wrap32]
    omega
  have haddr : ((c-2)*v.sectorsPerCluster+u16 v.firstDataSector)*v.bytesPerSector
      = v.readAddr c := by
    rw [readAddr, clusterSize, Nat.add_mul, Nat.mul_assoc, Nat.add_comm]
  have hsmall := readAddr_small (v := v) hsize hc
  have hfirst : fatGetFirstSectorForCluster (v.fs m) c
      = (c-2)*v.sectorsPerCluster+u16 v.firstDataSector := by
    rw [fatGetFirstSectorForCluster, hwrap]
    exact u32_of_lt hsector
  rw [fatGetOffsetForCluster, hfirst]
  exact (congrArg u32 haddr).trans (u32_of_lt (by omega))

/-- Where the code looks for the entry of a cluster, and what it finds there. -/
theorem fatReadClusterEntry_eq (hc : v.IsCluster c) (h16 : c < 65536) :
    fatReadClusterEntry (v.fs m) c =
      if v.entry m c = 0 then .free
      else if 2 ≤ v.entry m c ∧ v.entry m c ≤ v.type.topEntry then .data (v.entry m c)
      else if v.entry m c ≥ v.type.topEntry+2 then .endOfChain
      else .reserved := by
  have hstart : v.fatSector*v.bytesPerSector ≤ 268435456 :=
    Nat.mul_le_mul (Nat.le_of_lt v.fatSector_lt) bytesPerSector_le
  have hoffset : fatGetFatOffset (v.fs m) = v.fatSector*v.bytesPerSector :=
    u32_of_lt (show v.fatSector*v.bytesPerSector < 4294967296 by omega)
  have hbelow := entryAddr_below hc.2 c
  have hend := clusterAddr_end hc
  rcases v.type_read with ht | ht
  · have haddr : v.fatSector*v.bytesPerSector+u16 c*2 = v.entryAddr c := by
      rw [u16_of_lt h16, entryAddr, ht, Nat.mul_comm c 2]
      rfl
    have hread : fatRead16 (v.fs m) (v.entryAddr c) = some (v.entry m c) := by
      rw [fatRead16_device fs_readFunctor]
      · simp only [entry, ht]
      · rw [ht] at hbelow
        exact Nat.le_trans hbelow (by omega)
      · rw [← haddr, u16_of_lt h16]
        omega
    simp only [fatReadClusterEntry, show (v.fs m).type = .fat16 from ht, hoffset, haddr, hread,
      Option.getD_some, ht, FatType.topEntry]
  · have haddr : v.fatSector*v.bytesPerSector+u16 c*4 = v.entryAddr c := by
      rw [u16_of_lt h16, entryAddr, ht, Nat.mul_comm c 4]
      rfl
    have hread : fatRead32 (v.fs m) (v.entryAddr c) = some (longAt m (v.entryAddr c)) := by
      rw [fatRead32_device fs_readFunctor]
      · rw [ht] at hbelow
        exact Nat.le_trans hbelow (by omega)
      · rw [← haddr, u16_of_lt h16]
        omega
    simp only [fatReadClusterEntry, show (v.fs m).type = .fat32 from ht, hoffset, haddr, hread,
      Option.getD_some, ht, FatType.topEntry, entry]

theorem fatReadClusterEntry_data (hc : v.IsCluster c) (h16 : c < 65536)
    (hnext : v.IsCluster (v.entry m c)) :
    fatReadClusterEntry (v.fs m) c = .data (v.entry m c) := by
  have htop := v.clusters_top
  have hle : v.entry m c ≤ v.type.topEntry := by
    have := hnext.2
    omega
  have hne : v.entry m c ≠ 0 := by
    have := hnext.1
    omega
  rw [fatReadClusterEntry_eq hc h16, if_neg hne, if_pos ⟨hnext.1, hle⟩]

theorem fatReadClusterEntry_end (hc : v.IsCluster c) (h16 : c < 65536)
    (hend : v.type.topEntry+2 ≤ v.entry m c) :
    fatReadClusterEntry (v.fs m) c = .endOfChain := by
  rw [fatReadClusterEntry_eq hc h16, if_neg (by omega), if_neg (by omega), if_pos hend]

end Code

end FatVolume

/-- A file of a volume: its directory entry, outside its own data, and its chain. -/
structure VolumeFile (v : FatVolume) (m : Image) (dirEntryOffset fileSize : ℕ)
    (chain : List ℕ) : Prop where
  entry_pos : 0 < dirEntryOffset
  entry_room : dirEntryOffset+32 ≤ v.size
  entry_addr : dirEntryOffset+32 ≤ 4294967296
  entry_apart : ∀ c ∈ chain, v.Apart dirEntryOffset 32 c
  size_eq : longAt m (dirEntryOffset+28) = fileSize
  first_eq : v.firstCluster m dirEntryOffset = chain.headD 0
  chain_ne : chain ≠ []
  nodup : chain.Nodup
  clusters : ∀ c ∈ chain, v.IsCluster c
  linked : v.Linked m chain
  long_enough : fileSize ≤ chain.length*v.clusterSize

/-- The images agree on everything but the data of these clusters. -/
def SameButData (v : FatVolume) (chain : List ℕ) (m m' : Image) : Prop :=
  ∀ a, (∀ c ∈ chain, v.Apart a 1 c) → m' a = m a

/-- The file's bytes. -/
def fileBytes (v : FatVolume) (m : Image) (fileSize : ℕ) (chain : List ℕ) : List UInt8 :=
  (chain.flatMap fun c => slice m (v.clusterAddr c) v.clusterSize).take fileSize

section Same

variable {v : FatVolume} {m m' : Image} {dirEntryOffset fileSize : ℕ} {chain : List ℕ}

theorem sameButData_refl : SameButData v chain m m := fun _ _ => rfl

theorem SameButData.range (h : SameButData v chain m m') {addr len : ℕ}
    (hapart : ∀ c ∈ chain, v.Apart addr len c) :
    ∀ a, addr ≤ a → a < addr+len → m' a = m a := by
  intro a h₁ h₂
  apply h
  intro c hc
  rcases hapart c hc with hlow | hhigh
  · exact Or.inl (by omega)
  · exact Or.inr (by omega)

/-- The file is the same file with other contents. -/
theorem VolumeFile.other (file : VolumeFile v m dirEntryOffset fileSize chain)
    (h : SameButData v chain m m') : VolumeFile v m' dirEntryOffset fileSize chain := by
  have hdir := h.range file.entry_apart
  have hword : ∀ i, i+2 ≤ 32 → wordAt m' (dirEntryOffset+i) = wordAt m (dirEntryOffset+i) :=
    fun i hi => wordAt_congr fun a h₁ h₂ => hdir a (by omega) (by omega)
  have hentry : ∀ c ∈ chain, v.entry m' c = v.entry m c := fun c hc =>
    FatVolume.entry_congr (h.range fun d hd =>
      Or.inl (FatVolume.entryAddr_below (file.clusters c hc).2 d))
  exact {
    file with
    size_eq := by
      rw [longAt_congr fun a h₁ h₂ => hdir a (by omega) (by omega), file.size_eq]
    first_eq := by
      rw [← file.first_eq]
      rcases v.type_read with ht | ht
      · simp only [FatVolume.firstCluster, ht, hword 26 (by omega)]
      · simp only [FatVolume.firstCluster, ht, hword 20 (by omega), hword 26 (by omega)]
    linked := (FatVolume.linked_congr hentry).mpr file.linked }

theorem readFirstCluster (file : VolumeFile v m dirEntryOffset fileSize chain) :
    fatReadDirEntryFirstCluster (v.fs m) dirEntryOffset = some (chain.headD 0) := by
  have hroom := file.entry_room
  have haddr := file.entry_addr
  rw [← file.first_eq]
  rcases v.type_read with ht | ht
  · simp only [fatReadDirEntryFirstCluster, show (v.fs m).type = .fat16 from ht,
      FatVolume.firstCluster, ht]
    exact fatRead16_device FatVolume.fs_readFunctor (by omega) (by omega)
  · simp only [fatReadDirEntryFirstCluster, show (v.fs m).type = .fat32 from ht,
      FatVolume.firstCluster, ht]
    rw [fatRead16_device FatVolume.fs_readFunctor (by omega) (by omega),
      fatRead16_device FatVolume.fs_readFunctor (by omega) (by omega)]
    rfl

theorem readFileSize (file : VolumeFile v m dirEntryOffset fileSize chain) :
    fatReadDirEntrySize (v.fs m) dirEntryOffset = some fileSize := by
  have hroom := file.entry_room
  have haddr := file.entry_addr
  rw [← file.size_eq]
  exact fatRead32_device FatVolume.fs_readFunctor (by omega) (by omega)

end Same

end ArduinoOS.Kernel
