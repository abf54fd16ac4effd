import ArduinoOS.Kernel.CircBuf

/-!
# Partitions

A partition's mount shifts every access by the start of the partition and passes
it on. Nothing compares it with the partition's length, the start is clamped
below what 32 bits of sectors can say, and the shift is taken modulo `2^32`.
-/

set_option autoImplicit false

namespace ArduinoOS.Kernel
open ArduinoOS.ByteProgram ArduinoOS.Faulting ArduinoOS.Minifs

variable {σ : Type}

/-! ### The device behind a partition -/

/-- A file of `size` bytes behind `fd`. An access serves the first of the bytes
asked for, as many as the device says, and reads end inside the file. -/
structure ServingFile (f : Functors σ) (fat : FatFns) (t : Tables) (fd size : ℕ)
    (reads writes : ℕ → ℕ → ℕ) (view : σ → Image) : Prop where
  inside : ∀ addr len, reads addr len = 0 ∨ addr+reads addr len ≤ size
  read : ∀ h addr len, ∃ h', kernelFsFileReadOffset f fat t fd addr len h =
      .ok ((slice (view h) addr (reads addr len), reads addr len), h') ∧
    ∀ a < size, view h' a = view h a
  write : ∀ h addr data, ∃ h', kernelFsFileWriteOffset f t fd addr data h =
      .ok (writes addr data.length, h') ∧
    ∀ a < size, view h' a = overwrite (view h) addr (data.take (writes addr data.length)) a

/-- The descriptor is listed as the partition with this index. -/
structure PartitionMount (t : Tables) (fd index : ℕ) : Prop where
  range : fd < KernelFsFdMax
  four : index < 4
  device : kernelMountGetDeviceFromFd t fd = some ⟨KernelMountFormatPartition1+index, fd⟩

/-- Where an access to a partition arrives on the backing device. -/
def partitionAddr (entry : PTableEntry) (addr : ℕ) : ℕ := u32 (addr+partitionOffset entry)

/-- The byte lies in the sectors of the partition. -/
def InPartition (entry : PTableEntry) (a : ℕ) : Prop :=
  entry.startSector*512 ≤ a ∧ a < (entry.startSector+entry.numSectors)*512

/-- The bytes from `a` on lie in the sectors of the partition. -/
def Isolated (entry : PTableEntry) (a count : ℕ) : Prop :=
  ∀ b, a ≤ b → b < a+count → InPartition entry b

/-- The partition starts below the clamp, the shifted address does not wrap, and
the access ends within the partition. -/
def StaysInside (entry : PTableEntry) (addr count : ℕ) : Prop :=
  entry.startSector ≤ 8388607 ∧ addr+entry.startSector*512 < 4294967296 ∧
    addr+count ≤ entry.numSectors*512

theorem isolated_iff (entry : PTableEntry) {addr count : ℕ} (haddr : addr < 4294967296) :
    Isolated entry (partitionAddr entry addr) count ↔
      count = 0 ∨ StaysInside entry addr count := by
  have hoffset : partitionOffset entry = min entry.startSector 8388607*512 := rfl
  constructor
  · intro h
    by_cases hcount : count = 0
    · exact Or.inl hcount
    have hfirst := h _ (le_refl _) (by omega)
    have hlast := h (partitionAddr entry addr+(count-1)) (by omega) (by omega)
    rw [InPartition] at hfirst hlast
    have hlt : partitionAddr entry addr < 4294967296 := Nat.mod_lt _ (by decide)
    have hstart : entry.startSector ≤ 8388607 := by omega
    rw [min_eq_left hstart] at hoffset
    -- a wrapped address lies before the partition
    have hnowrap : addr+entry.startSector*512 < 4294967296 := by
      by_contra hwrap
      rw [partitionAddr, u32, hoffset] at hfirst
      omega
    refine Or.inr ⟨hstart, hnowrap, ?_⟩
    rw [partitionAddr, hoffset, u32_of_lt hnowrap] at hlast
    omega
  · rintro (rfl | ⟨hstart, hnowrap, hend⟩)
    · intro b hb hlt
      omega
    · rw [min_eq_left hstart] at hoffset
      intro b hb hlt
      rw [partitionAddr, hoffset, u32_of_lt hnowrap] at hb hlt
      rw [InPartition]
      omega

/-! ### Accesses -/

section Access

variable {f : Functors σ} {fat : FatFns} {t : Tables} {fd size index : ℕ}
  {reads writes : ℕ → ℕ → ℕ} {view : σ → Image}
  (hb : ServingFile f fat t fd size reads writes view) (hmount : PartitionMount t fd index)

include hb in
/-- Parsing the table leaves the device as it was. -/
theorem parse_unchanged {n : ℕ} {h h₀ : σ} {r : Option PTableEntry}
    (hentry : pTableParseEntryFd f fat t fd n h = .ok (r, h₀)) :
    ∀ a < size, view h₀ a = view h a := by
  obtain ⟨h₁, hmagic, hview₁⟩ := hb.read h 510 2
  rw [pTableParseEntryFd, bind_of_ok hmagic] at hentry
  dsimp only at hentry
  split at hentry
  · rw [(pure_ok.mp hentry).2]
    exact hview₁
  split at hentry
  · rw [(pure_ok.mp hentry).2]
    exact hview₁
  obtain ⟨h₂, hbuffer, hview₂⟩ := hb.read h₁ (446+16*n) 16
  rw [bind_of_ok hbuffer] at hentry
  dsimp only at hentry
  split at hentry
  · rw [(pure_ok.mp hentry).2]
    exact fun a ha => (hview₂ a ha).trans (hview₁ a ha)
  · rw [(pure_ok.mp hentry).2]
    exact fun a ha => (hview₂ a ha).trans (hview₁ a ha)

omit hb in
include hmount in
theorem partitionDevice_run (h : σ) :
    mountDevice t fd h = .ok (⟨KernelMountFormatPartition1+index, fd⟩, h) := by
  have hassert : (kAssert (fd < KernelFsFdMax) : Hw σ Unit) h = .ok ((), h) := by
    rw [kAssert, if_pos (by simpa using hmount.range)]
    rfl
  rw [mountDevice, bind_of_ok hassert, hmount.device]
  rfl

omit hb in
include hmount in
/-- The cases of the functors that lead to the partition table. -/
theorem partitionFormat :
    ¬ (KernelMountFormatPartition1+index = KernelMountFormatMiniFs ∨
      KernelMountFormatPartition1+index = KernelMountFormatFlatFile ∨
      KernelMountFormatPartition1+index = KernelMountFormatFat) ∧
    (KernelMountFormatPartition1 ≤ KernelMountFormatPartition1+index ∧
      KernelMountFormatPartition1+index ≤ KernelMountFormatPartition4) ∧
    KernelMountFormatPartition1+index-KernelMountFormatPartition1 = index := by
  have hfour := hmount.four
  simp only [KernelMountFormatPartition1, KernelMountFormatMiniFs, KernelMountFormatFlatFile,
    KernelMountFormatFat, KernelMountFormatPartition4]
  omega

include hb hmount

variable {entry : PTableEntry} {h h₀ : σ}
  (hentry : pTableParseEntryFd f fat t fd index h = .ok (some entry, h₀))

include hentry

theorem partition_read (addr len : ℕ) :
    ∃ h', kernelMountBlockReadFunctor f fat t addr len fd h =
        .ok ((slice (view h) (partitionAddr entry addr) (reads (partitionAddr entry addr) len),
          reads (partitionAddr entry addr) len), h') ∧
      ∀ a < size, view h' a = view h a := by
  obtain ⟨hnot, hpart, hindex⟩ := partitionFormat hmount
  obtain ⟨h', hrun, hview⟩ := hb.read h₀ (partitionAddr entry addr) len
  have hparsed := parse_unchanged hb hentry
  have hslice : slice (view h₀) (partitionAddr entry addr) (reads (partitionAddr entry addr) len) =
      slice (view h) (partitionAddr entry addr) (reads (partitionAddr entry addr) len) := by
    apply slice_congr
    intro a ha hlt
    rcases hb.inside (partitionAddr entry addr) len with hzero | hin
    · omega
    · exact hparsed a (by omega)
  refine ⟨h', ?_, fun a ha => (hview a ha).trans (hparsed a ha)⟩
  rw [kernelMountBlockReadFunctor, bind_of_ok (partitionDevice_run hmount h)]
  dsimp only
  rw [if_neg hnot, if_pos hpart, hindex, bind_of_ok hentry, ← hslice]
  exact hrun

theorem partition_write (addr : ℕ) (data : List UInt8) :
    ∃ h', kernelMountBlockWriteFunctor f fat t addr data fd h =
        .ok (writes (partitionAddr entry addr) data.length, h') ∧
      ∀ a < size, view h' a = overwrite (view h) (partitionAddr entry addr)
        (data.take (writes (partitionAddr entry addr) data.length)) a := by
  obtain ⟨hnot, hpart, hindex⟩ := partitionFormat hmount
  obtain ⟨h', hrun, hview⟩ := hb.write h₀ (partitionAddr entry addr) data
  have hparsed := parse_unchanged hb hentry
  refine ⟨h', ?_, ?_⟩
  · rw [kernelMountBlockWriteFunctor, bind_of_ok (partitionDevice_run hmount h)]
    dsimp only
    rw [if_neg hnot, if_pos hpart, hindex, bind_of_ok hentry]
    exact hrun
  · intro a ha
    rw [hview a ha, overwrite, overwrite, hparsed a ha]

end Access

/-! ### Accesses through the device -/

/-- A card of `size` bytes; accesses end where the card does. -/
def cardDrivers (size : ℕ) : Drivers Image where
  commonFlush _ _ m := (true, m)
  characterRead _ _ m := (-1, m)
  characterCanRead _ _ m := (false, m)
  characterWrite _ _ _ m := (0, m)
  characterCanWrite _ _ m := (false, m)
  blockRead _ _ len addr m := ((slice m addr (min len (size-addr)), min len (size-addr)), m)
  blockWrite _ _ data addr m :=
    (min data.length (size-addr), overwrite m addr (data.take (min data.length (size-addr))))
  malloc _ m := (true, m)

def cardPlatform (size depth : ℕ) : Platform Image := ⟨cardDrivers size, noFat, depth⟩

/-- Two partitions of one sector each behind the sector of the table, and 7 in
the first byte of the second partition. -/
def cardImage : Image := fun a =>
  if a = 510 then 0x55 else if a = 511 then 0xAA
  else if a = 454 then 1 else if a = 458 then 1
  else if a = 470 then 2 else if a = 474 then 1
  else if a = 1024 then 7 else 0

def cardEntry : PTableEntry := ⟨0, 0, 1, 1⟩

def cardPartition : KernelFsDevice := mountedDevice (CStr.lit "/mnt") 63 (.block 512 .flatFile)

/-- The tables after the first partition has been mounted. -/
def cardTables : Tables :=
  (mountPending (chipTables 1536 true) (CStr.lit "/dev/eeprom") 63 2
    KernelMountFormatPartition1).setDevice 3 (some cardPartition)

theorem card_serving (depth : ℕ) :
    ServingFile (functors (cardDrivers 1536) noFat cardTables (depth+1)) noFat cardTables 63 1536
      (fun addr len => min len (1536-addr)) (fun addr len => min len (1536-addr)) id := by
  constructor
  · intro addr len
    omega
  · intro m addr len
    exact ⟨m, rfl, fun _ _ => rfl⟩
  · intro m addr data
    exact ⟨_, rfl, fun _ _ => rfl⟩

theorem card_partition : PartitionMount cardTables 63 0 := ⟨by decide, by decide, rfl⟩

theorem card_mount : kernelMount (cardPlatform 1536 2) KernelMountFormatPartition1
    (CStr.lit "/dev/eeprom") (CStr.lit "/mnt") (chipTables 1536 true, cardImage) =
      .ok (true, (cardTables, cardImage)) := by
  obtain ⟨m, hrun⟩ : ∃ m, kernelMount (cardPlatform 1536 2) KernelMountFormatPartition1
      (CStr.lit "/dev/eeprom") (CStr.lit "/mnt") (chipTables 1536 true, cardImage) =
        .ok (true, (cardTables, m)) := ⟨_, rfl⟩
  have hm : m = cardImage := by
    cases hrun
    rfl
  rwa [hm] at hrun

theorem card_entry : pTableParseEntryFd (functors (cardDrivers 1536) noFat cardTables 1) noFat
    cardTables 63 0 cardImage = .ok (some cardEntry, cardImage) := rfl

end ArduinoOS.Kernel
