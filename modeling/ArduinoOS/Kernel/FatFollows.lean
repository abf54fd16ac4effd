import ArduinoOS.Kernel.FatRead

/-!
# When a read of a FAT file gives the file's bytes

It does where the clusters it reaches have 16-bit numbers and less than 64 KB,
where the bytes begin at a cluster or stay inside one, and where an offset past
the end of the file is past its clusters too, or past its end by whole 64 KB.
-/

set_option autoImplicit false

namespace ArduinoOS.Kernel
open ArduinoOS.ByteProgram

variable (v : FatVolume)

/-- The read returns, with the bytes of the file from the offset on. -/
def ReadsFile (m : Image) (path : CStr) (fileSize : ℕ) (chain : List ℕ) (readOffset len : ℕ) :
    Prop :=
  ∃ fuel, fatFileRead (v.fs m) fuel path readOffset len =
    some (((fileBytes v m fileSize chain).drop readOffset).take len)

/-- The clusters up to the last byte wanted; 64 KB clusters are all walked. -/
def clustersReached (fileSize : ℕ) (chain : List ℕ) (readOffset len : ℕ) : List ℕ :=
  if v.clusterSize < 65536 then
    chain.take ((readOffset+(bytesWanted fileSize readOffset len-1))/v.clusterSize+1)
  else chain

/-- The offset in the file suits the clusters, and the data is looked for in its place. -/
def OffsetSuits (fileSize : ℕ) (chain : List ℕ) (readOffset len : ℕ) : Prop :=
  if readOffset < fileSize then
    len = 0 ∨ (v.clusterSize < 65536 ∧ v.firstDataSector < 65536 ∧
      readOffset+len < 4294967296 ∧ (readOffset % v.clusterSize = 0 ∨
        readOffset % v.clusterSize+bytesWanted fileSize readOffset len ≤ v.clusterSize))
  else
    65536 ≤ v.clusterSize ∨ chain.length*v.clusterSize ≤ readOffset ∨
      (readOffset+len < 4294967296 ∧ 65536 ∣ readOffset-fileSize)

instance {v : FatVolume} {fileSize : ℕ} {chain : List ℕ} {readOffset len : ℕ} :
    Decidable (OffsetSuits v fileSize chain readOffset len) := by
  unfold OffsetSuits
  infer_instance

/-! ### The bytes of the file, cluster by cluster -/

section Bytes

variable {v} {m : Image} {fileSize readOffset len : ℕ} {chain : List ℕ}

theorem clusterTails_length (addr : ℕ → ℕ) (place : ℕ) :
    (clusterTails v m addr place chain).length = chain.length*(v.clusterSize-place) := by
  induction chain with
  | nil => simp [clusterTails]
  | cons c rest ih =>
    have hcons : clusterTails v m addr place (c::rest) =
        slice m (addr c+place) (v.clusterSize-place)++clusterTails v m addr place rest := rfl
    rw [hcons, List.length_append, slice_length, ih, List.length_cons, Nat.succ_mul, Nat.add_comm]

theorem clusterTails_drop (n : ℕ) :
    (clusterTails v m v.clusterAddr 0 chain).drop (n*v.clusterSize) = clusterTails v m v.clusterAddr 0 (chain.drop n) := by
  induction n generalizing chain with
  | zero => simp
  | succ n ih =>
    cases chain with
    | nil => simp [clusterTails]
    | cons c rest =>
      have hcons : clusterTails v m v.clusterAddr 0 (c::rest) =
          slice m (v.clusterAddr c+0) (v.clusterSize-0)++clusterTails v m v.clusterAddr 0 rest := rfl
      have hlen : (slice m (v.clusterAddr c+0) (v.clusterSize-0)).length = v.clusterSize := by simp
      rw [hcons, Nat.succ_mul, Nat.add_comm, ← List.drop_drop, List.drop_left' hlen, ih]
      rfl

/-- The bytes wanted, from the cluster of the first on. -/
theorem fileBytes_from :
    ((fileBytes v m fileSize chain).drop readOffset).take len =
      ((clusterTails v m v.clusterAddr 0 (chain.drop (readOffset/v.clusterSize))).drop
        (readOffset%v.clusterSize)).take (bytesWanted fileSize readOffset len) := by
  have hall : fileBytes v m fileSize chain = (clusterTails v m v.clusterAddr 0 chain).take fileSize := rfl
  rw [hall, List.drop_take, List.take_take, ← clusterTails_drop, List.drop_drop, Nat.mul_comm,
    Nat.div_add_mod]
  rfl

theorem fileBytes_past (h : fileSize ≤ readOffset) :
    ((fileBytes v m fileSize chain).drop readOffset).take len = [] := by
  have hlen : (fileBytes v m fileSize chain).length ≤ readOffset := by
    rw [fileBytes, List.length_take]
    omega
  rw [List.drop_of_length_le hlen, List.take_nil]

theorem fileBytes_wanted (m : Image) (readOffset len : ℕ) (file_long : fileSize ≤ chain.length*v.clusterSize) :
    (((fileBytes v m fileSize chain).drop readOffset).take len).length
      = bytesWanted fileSize readOffset len := by
  have hlen : (fileBytes v m fileSize chain).length = fileSize := by
    have htails : (clusterTails v m v.clusterAddr 0 chain).length = chain.length*v.clusterSize :=
      clusterTails_length _ 0
    change ((clusterTails v m v.clusterAddr 0 chain).take fileSize).length = fileSize
    rw [List.length_take, htails]
    omega
  rw [List.length_take, List.length_drop, hlen]
  rfl

/-- Inside one cluster it does not matter where the next one is read from. -/
theorem clusterTails_within {place n : ℕ} (hplace : place+n ≤ v.clusterSize) (hne : chain ≠ []) :
    ((clusterTails v m v.clusterAddr 0 chain).drop place).take n = (clusterTails v m v.clusterAddr place chain).take n := by
  obtain ⟨c, rest, rfl⟩ := List.exists_cons_of_ne_nil hne
  have hwhole : clusterTails v m v.clusterAddr 0 (c::rest) =
      slice m (v.clusterAddr c) v.clusterSize++clusterTails v m v.clusterAddr 0 rest := rfl
  have htail : clusterTails v m v.clusterAddr place (c::rest) =
      slice m (v.clusterAddr c+place) (v.clusterSize-place)++
        clusterTails v m v.clusterAddr place rest := rfl
  rw [hwhole, htail, List.drop_append_of_le_length (by rw [slice_length]; omega), slice_drop,
    List.take_append_of_le_length (by rw [slice_length]; omega),
    List.take_append_of_le_length (by rw [slice_length]; omega)]

/-- The bytes taken of the first cluster, and the first one of the second. -/
theorem clusterTails_first (m : Image) (addr : ℕ → ℕ) {place i : ℕ} (c : ℕ) (rest : List ℕ)
    (hi : place+i < v.clusterSize) :
    (clusterTails v m addr place (c::rest))[i]? = some (m (addr c+place+i)) := by
  have hcons : clusterTails v m addr place (c::rest) =
      slice m (addr c+place) (v.clusterSize-place)++clusterTails v m addr place rest := rfl
  rw [hcons, List.getElem?_append_left (by rw [slice_length]; omega),
    slice_getElem? _ _ _ _ (by omega)]

theorem clusterTails_second (m : Image) (addr : ℕ → ℕ) {place : ℕ} (c d : ℕ) (rest : List ℕ)
    (hplace : place < v.clusterSize) :
    (clusterTails v m addr place (c::d::rest))[v.clusterSize-place]? =
      some (m (addr d+place)) := by
  have hcons : clusterTails v m addr place (c::d::rest) =
      slice m (addr c+place) (v.clusterSize-place)++clusterTails v m addr place (d::rest) := rfl
  rw [hcons, List.getElem?_append_right (by simp), slice_length, Nat.sub_self,
    clusterTails_first m addr d rest hplace, Nat.add_zero]

end Bytes

section Reads

variable {v} {m : Image} {path : CStr} {dirEntryOffset fileSize : ℕ} {chain : List ℕ}
  {readOffset len : ℕ}

theorem readsFile_iff {r : List UInt8} (file : VolumeFile v m dirEntryOffset fileSize chain)
    (found : ∃ fuel, fatGetFileDirEntryOffsetFromPathKStr (v.fs m) fuel path = some dirEntryOffset)
    (hread : ∃ fuel, fatFileReadFromDirEntryOffset (v.fs m) fuel dirEntryOffset readOffset len
      = some r) :
    ReadsFile v m path fileSize chain readOffset len ↔
      r = ((fileBytes v m fileSize chain).drop readOffset).take len := by
  obtain ⟨fuel, hfound⟩ := found
  obtain ⟨fuel', hread⟩ := hread
  have hzero : dirEntryOffset ≠ 0 := by
    have := file.entry_pos
    omega
  have hrun := fatFileRead_found hzero hfound hread
  constructor
  · rintro ⟨fuel'', h⟩
    exact fatFileRead_unique hrun h
  · rintro rfl
    exact ⟨_, hrun⟩

/-- Where no byte is wanted and none is read, or no cluster is near enough. -/
theorem readEntry_none (readOffset len : ℕ) (file : VolumeFile v m dirEntryOffset fileSize chain)
    (h16 : ∀ c ∈ clustersReached v fileSize chain readOffset len, c < 65536)
    (hnone : v.clusterSize < 65536 → readOffset/v.clusterSize < chain.length →
      readLen fileSize readOffset len = 0) :
    ∃ fuel, fatFileReadFromDirEntryOffset (v.fs m) fuel dirEntryOffset readOffset len
      = some [] := by
  by_cases hsize : v.clusterSize < 65536
  · rw [clustersReached, if_pos hsize] at h16
    have hmono : readOffset/v.clusterSize ≤
        (readOffset+(bytesWanted fileSize readOffset len-1))/v.clusterSize :=
      Nat.div_le_div_right (Nat.le_add_right _ _)
    by_cases hin : readOffset/v.clusterSize < chain.length
    · have hrun := readEntry_run file len hsize hin
        (fun c hc => h16 c (List.take_subset_take_left _ (by omega) hc))
        (by
          intro i hi hneed
          have hi0 : i = 0 := by
            rw [hnone hsize hin] at hneed
            omega
          have hget : (chain.drop (readOffset/v.clusterSize)).getD i 0
              = chain[readOffset/v.clusterSize] := by
            rw [hi0, List.getD_eq_getElem _ _ (by rw [List.length_drop]; omega)]
            simp
          rw [hget]
          exact h16 _ (List.mem_take_iff_getElem.mpr ⟨readOffset/v.clusterSize, by omega, rfl⟩))
      rwa [hnone hsize hin, List.take_zero] at hrun
    · apply readEntry_past file len
      · rw [FatVolume.fatGetClusterSize_small hsize]
        exact (Nat.le_div_iff_mul_le FatVolume.clusterSize_pos).mp (by omega)
      · rwa [List.take_of_length_le (by omega)] at h16
  · rw [clustersReached, if_neg hsize] at h16
    apply readEntry_past file len
    · rw [FatVolume.fatGetClusterSize_large hsize]
      exact Nat.zero_le _
    · exact h16

theorem reached_getD (hsize : v.clusterSize < 65536)
    (h16 : ∀ c ∈ clustersReached v fileSize chain readOffset len, c < 65536)
    (hsuits : readOffset % v.clusterSize = 0 ∨
      readOffset % v.clusterSize+bytesWanted fileSize readOffset len ≤ v.clusterSize) {i : ℕ}
    (hi : i < (chain.drop (readOffset/v.clusterSize)).length)
    (hneed : i = 0 ∨
      i*(v.clusterSize-readOffset%v.clusterSize) < bytesWanted fileSize readOffset len) :
    (chain.drop (readOffset/v.clusterSize)).getD i 0 < 65536 := by
  have hpos : 0 < v.clusterSize := FatVolume.clusterSize_pos
  have hlt : readOffset % v.clusterSize < v.clusterSize := Nat.mod_lt _ hpos
  rw [clustersReached, if_pos hsize] at h16
  rw [List.length_drop] at hi
  have hreach : readOffset/v.clusterSize+i ≤
      (readOffset+(bytesWanted fileSize readOffset len-1))/v.clusterSize := by
    rw [Nat.le_div_iff_mul_le hpos, Nat.add_mul]
    have hdiv := Nat.div_add_mod readOffset v.clusterSize
    rw [Nat.mul_comm] at hdiv
    rcases hneed with rfl | hneed
    · omega
    · rcases hsuits with hstart | hwithin
      · rw [hstart, Nat.sub_zero] at hneed
        omega
      · cases i with
        | zero => omega
        | succ i =>
          rw [Nat.succ_mul] at hneed
          omega
  have hget : (chain.drop (readOffset/v.clusterSize)).getD i 0
      = chain[readOffset/v.clusterSize+i] := by
    rw [List.getD_eq_getElem _ _ (by rw [List.length_drop]; omega)]
    simp
  rw [hget]
  exact h16 _ (List.mem_take_iff_getElem.mpr ⟨readOffset/v.clusterSize+i, by omega, rfl⟩)

/-- A read whose clusters and offset suit gives the file's bytes. -/
theorem readsFile_of_suits (file : VolumeFile v m dirEntryOffset fileSize chain)
    (found : ∃ fuel, fatGetFileDirEntryOffsetFromPathKStr (v.fs m) fuel path = some dirEntryOffset)
    (hlen : len < 65536) (h16 : ∀ c ∈ clustersReached v fileSize chain readOffset len, c < 65536)
    (hsuits : OffsetSuits v fileSize chain readOffset len) :
    ReadsFile v m path fileSize chain readOffset len := by
  have hpos : 0 < v.clusterSize := FatVolume.clusterSize_pos
  have hlong := file.long_enough
  by_cases hin : readOffset < fileSize
  · rw [OffsetSuits, if_pos hin] at hsuits
    rcases hsuits with hzero | ⟨hsize, hfirst, h32, hsuits⟩
    · have hnone := readEntry_none readOffset len file h16 (by
        intro _ _
        have hsmall : u32 (readOffset+len) ≤ readOffset := by
          rw [hzero, u32]
          exact Nat.mod_le _ _
        rw [readLen, if_neg (by omega), hzero])
      rw [readsFile_iff file found hnone, hzero, List.take_zero]
    · have haddr : v.readAddr = v.clusterAddr := funext (FatVolume.readAddr_eq hfirst)
      have hk : readOffset/v.clusterSize < chain.length := by
        rw [Nat.div_lt_iff_lt_mul hpos]
        omega
      have hread := readLen_inside (Nat.le_of_lt hin) h32 hlen
      have hrun := readEntry_run file len hsize hk
        (by
          rw [clustersReached, if_pos hsize] at h16
          have hmono : readOffset/v.clusterSize ≤
              (readOffset+(bytesWanted fileSize readOffset len-1))/v.clusterSize :=
            Nat.div_le_div_right (Nat.le_add_right _ _)
          exact fun c hc => h16 c (List.take_subset_take_left _ (by omega) hc))
        (fun i hi hneed => reached_getD hsize h16 hsuits hi (by rwa [hread] at hneed))
      rw [readsFile_iff file found hrun, hread, fileBytes_from, haddr]
      rcases hsuits with hstart | hwithin
      · rw [hstart, List.drop_zero]
      · refine (clusterTails_within hwithin ?_).symm
        intro h
        have := congrArg List.length h
        rw [List.length_drop, List.length_nil] at this
        omega
  · have hpast : fileSize ≤ readOffset := Nat.le_of_not_lt hin
    rw [OffsetSuits, if_neg hin] at hsuits
    have hnone := readEntry_none readOffset len file h16 (by
      intro hsize hk
      rw [Nat.div_lt_iff_lt_mul hpos] at hk
      rcases hsuits with hlarge | hbeyond | ⟨h32, hdvd⟩
      · omega
      · omega
      · exact (readLen_outside hpast h32).mpr hdvd)
    rw [readsFile_iff file found hnone, fileBytes_past hpast]

/-! ### Where the read goes wrong -/

theorem chain_length_le (file : VolumeFile v m dirEntryOffset fileSize chain)
    (h16 : ∀ c ∈ chain, c < 65536) : chain.length ≤ 65536 := by
  have hsub : chain ⊆ List.range 65536 := fun c hc => List.mem_range.mpr (h16 c hc)
  have hle := List.Nodup.length_le_of_subset file.nodup hsub
  rwa [List.length_range] at hle

theorem next_cluster (file : VolumeFile v m dirEntryOffset fileSize chain)
    (hover : v.clusterSize < readOffset % v.clusterSize+bytesWanted fileSize readOffset len) :
    readOffset/v.clusterSize+1 < chain.length := by
  have hlong := file.long_enough
  have hdiv := Nat.div_add_mod readOffset v.clusterSize
  have hlt : readOffset % v.clusterSize < v.clusterSize := Nat.mod_lt _ FatVolume.clusterSize_pos
  have hnext : (readOffset/v.clusterSize+1)*v.clusterSize < chain.length*v.clusterSize := by
    rw [Nat.succ_mul, Nat.mul_comm]
    rw [bytesWanted] at hover
    omega
  exact Nat.lt_of_mul_lt_mul_right hnext

/-- The bytes of a right read, seen as the code reads them. -/
theorem readsFile_bytes (hsize : v.clusterSize < 65536)
    (file : VolumeFile v m dirEntryOffset fileSize chain)
    (found : ∃ fuel, fatGetFileDirEntryOffsetFromPathKStr (v.fs m) fuel path = some dirEntryOffset)
    (h16 : ∀ c ∈ chain, c < 65536) (hlen : len < 65536) (h32 : readOffset+len < 4294967296)
    (hin : readOffset < fileSize) (hread : ReadsFile v m path fileSize chain readOffset len)
    {i : ℕ} (hi : i < bytesWanted fileSize readOffset len) :
    (clusterTails v m v.readAddr (readOffset%v.clusterSize)
        (chain.drop (readOffset/v.clusterSize)))[i]? =
      (clusterTails v m v.clusterAddr 0 (chain.drop (readOffset/v.clusterSize)))[
        readOffset%v.clusterSize+i]? := by
  have hlong := file.long_enough
  have hk : readOffset/v.clusterSize < chain.length := by
    rw [Nat.div_lt_iff_lt_mul FatVolume.clusterSize_pos]
    omega
  have hrun := readEntry_run file len hsize hk
    (fun e he => h16 e (List.mem_of_mem_take he))
    (fun i hi _ => by
      rw [List.getD_eq_getElem _ _ hi]
      exact h16 _ (List.mem_of_mem_drop (List.getElem_mem hi)))
  have heq := (readsFile_iff file found hrun).mp hread
  rw [fileBytes_from, readLen_inside (Nat.le_of_lt hin) h32 hlen] at heq
  have hbyte := congrArg (·[i]?) heq
  simpa only [List.getElem?_take_of_lt hi, List.getElem?_drop] using hbyte

/-- A byte of the file that every right read takes from another address. -/
theorem wrong_of_byte {c place other : ℕ} (hc : c ∈ chain) (hplace : place < v.clusterSize)
    (hne : other ≠ v.clusterAddr c+place)
    (hbyte : ∀ m', SameButData v chain m m' →
      ReadsFile v m' path fileSize chain readOffset len →
      m' other = m' (v.clusterAddr c+place)) :
    ∃ m', SameButData v chain m m' ∧ ¬ ReadsFile v m' path fileSize chain readOffset len := by
  by_cases hread : ReadsFile v m path fileSize chain readOffset len
  · have hsame := hbyte m sameButData_refl hread
    have hother : SameButData v chain m (overwrite m (v.clusterAddr c+place)
        [if m (v.clusterAddr c+place) = 0 then 1 else 0]) := by
      intro a ha
      apply overwrite_one_ne
      rintro rfl
      rcases ha c hc with h | h <;> omega
    refine ⟨_, hother, fun h => ?_⟩
    have heq := hbyte _ hother h
    rw [overwrite_one_self, overwrite_one_ne _ _ _ _ hne, hsame] at heq
    by_cases hzero : m (v.clusterAddr c+place) = 0
    · rw [if_pos hzero, hzero] at heq
      exact absurd heq (by decide)
    · rw [if_neg hzero] at heq
      exact hzero heq
  · exact ⟨m, sameButData_refl, hread⟩

/-- The data is looked for below its place: the first byte is another one. -/
theorem first_byte_wrong (hsize : v.clusterSize < 65536) (hfirst : ¬ v.firstDataSector < 65536)
    (file : VolumeFile v m dirEntryOffset fileSize chain)
    (found : ∀ m', SameButData v chain m m' →
      ∃ fuel, fatGetFileDirEntryOffsetFromPathKStr (v.fs m') fuel path = some dirEntryOffset)
    (h16 : ∀ c ∈ chain, c < 65536) (hlen : len < 65536) (h32 : readOffset+len < 4294967296)
    (hin : readOffset < fileSize) (hzero : len ≠ 0) :
    ∃ m', SameButData v chain m m' ∧ ¬ ReadsFile v m' path fileSize chain readOffset len := by
  have hpos : 0 < v.clusterSize := FatVolume.clusterSize_pos
  have hlt : readOffset % v.clusterSize < v.clusterSize := Nat.mod_lt _ hpos
  have hlong := file.long_enough
  have hk : readOffset/v.clusterSize < chain.length := by
    rw [Nat.div_lt_iff_lt_mul hpos]
    omega
  have hbelow := FatVolume.readAddr_ne hfirst chain[readOffset/v.clusterSize]
  apply wrong_of_byte (List.getElem_mem hk) hlt
    (show v.readAddr chain[readOffset/v.clusterSize]+readOffset%v.clusterSize ≠ _ by omega)
  intro m' hm' hread
  have hbyte := readsFile_bytes hsize (file.other hm') (found m' hm') h16 hlen h32 hin hread
    (show 0 < bytesWanted fileSize readOffset len by rw [bytesWanted]; omega)
  rw [List.drop_eq_getElem_cons hk, clusterTails_first _ _ _ _ hlt,
    clusterTails_first _ _ _ _ (by omega), Nat.add_zero, Nat.add_zero, Nat.add_zero] at hbyte
  exact Option.some.inj hbyte

/-- A read over the end of a cluster goes on at the place it began at in the
first, so what it gives as the next cluster's first byte is another one. -/
theorem next_cluster_byte (hsize : v.clusterSize < 65536)
    (file : VolumeFile v m dirEntryOffset fileSize chain)
    (found : ∃ fuel, fatGetFileDirEntryOffsetFromPathKStr (v.fs m) fuel path = some dirEntryOffset)
    (h16 : ∀ c ∈ chain, c < 65536) (hlen : len < 65536) (h32 : readOffset+len < 4294967296)
    (hin : readOffset < fileSize)
    (hover : v.clusterSize < readOffset % v.clusterSize+bytesWanted fileSize readOffset len)
    (hread : ReadsFile v m path fileSize chain readOffset len) :
    m (v.readAddr (chain.getD (readOffset/v.clusterSize+1) 0)+readOffset%v.clusterSize) =
      m (v.clusterAddr (chain.getD (readOffset/v.clusterSize+1) 0)) := by
  have hpos : 0 < v.clusterSize := FatVolume.clusterSize_pos
  have hlt : readOffset % v.clusterSize < v.clusterSize := Nat.mod_lt _ hpos
  have hk := next_cluster file hover
  have hbyte := readsFile_bytes hsize file found h16 hlen h32 hin hread
    (show v.clusterSize-readOffset%v.clusterSize < bytesWanted fileSize readOffset len by omega)
  have hwhole := clusterTails_second m v.clusterAddr chain[readOffset/v.clusterSize]
    chain[readOffset/v.clusterSize+1] (chain.drop (readOffset/v.clusterSize+1+1)) hpos
  rw [Nat.sub_zero] at hwhole
  rw [List.drop_eq_getElem_cons (Nat.lt_of_succ_lt hk), List.drop_eq_getElem_cons hk,
    Nat.add_sub_cancel' (Nat.le_of_lt hlt), hwhole, clusterTails_second _ _ _ _ _ hlt] at hbyte
  rw [List.getD_eq_getElem _ _ hk]
  exact Option.some.inj hbyte

theorem next_cluster_wrong (hsize : v.clusterSize < 65536) (hfirst : v.firstDataSector < 65536)
    (file : VolumeFile v m dirEntryOffset fileSize chain)
    (found : ∀ m', SameButData v chain m m' →
      ∃ fuel, fatGetFileDirEntryOffsetFromPathKStr (v.fs m') fuel path = some dirEntryOffset)
    (h16 : ∀ c ∈ chain, c < 65536) (hlen : len < 65536) (h32 : readOffset+len < 4294967296)
    (hin : readOffset < fileSize) (hplace : readOffset % v.clusterSize ≠ 0)
    (hover : v.clusterSize < readOffset % v.clusterSize+bytesWanted fileSize readOffset len) :
    ∃ m', SameButData v chain m m' ∧ ¬ ReadsFile v m' path fileSize chain readOffset len := by
  have hk := next_cluster file hover
  have hmem : chain.getD (readOffset/v.clusterSize+1) 0 ∈ chain := by
    rw [List.getD_eq_getElem _ _ hk]
    exact List.getElem_mem hk
  have hother : v.readAddr (chain.getD (readOffset/v.clusterSize+1) 0)+readOffset%v.clusterSize ≠
      v.clusterAddr (chain.getD (readOffset/v.clusterSize+1) 0)+0 := by
    rw [FatVolume.readAddr_eq hfirst]
    omega
  apply wrong_of_byte hmem FatVolume.clusterSize_pos hother
  intro m' hm' hread
  exact next_cluster_byte hsize (file.other hm') (found m' hm') h16 hlen h32 hin hover hread

/-- Where every such image is read right, the offset suits. -/
theorem suits_of_readsFile (file : VolumeFile v m dirEntryOffset fileSize chain)
    (found : ∀ m', SameButData v chain m m' →
      ∃ fuel, fatGetFileDirEntryOffsetFromPathKStr (v.fs m') fuel path = some dirEntryOffset)
    (h16 : ∀ c ∈ chain, c < 65536) (hlen : len < 65536)
    (hreads : ∀ m', SameButData v chain m m' →
      ReadsFile v m' path fileSize chain readOffset len) :
    OffsetSuits v fileSize chain readOffset len := by
  have hpos : 0 < v.clusterSize := FatVolume.clusterSize_pos
  have hlong := file.long_enough
  have hself := hreads m sameButData_refl
  have hlength := chain_length_le file h16
  have hsmall : v.clusterSize < 65536 → chain.length*v.clusterSize ≤ 2147483648 := fun hsize =>
    Nat.mul_le_mul hlength (FatVolume.clusterSize_half hsize)
  by_cases hin : readOffset < fileSize
  · rw [OffsetSuits, if_pos hin]
    by_cases hzero : len = 0
    · exact Or.inl hzero
    · apply Or.inr
      by_cases hsize : v.clusterSize < 65536
      · have h32 : readOffset+len < 4294967296 := by
          have := hsmall hsize
          omega
        have hfirst : v.firstDataSector < 65536 := by
          by_contra hfirst
          obtain ⟨m', hm', hwrong⟩ := first_byte_wrong hsize hfirst file found h16 hlen h32 hin hzero
          exact hwrong (hreads m' hm')
        refine ⟨hsize, hfirst, h32, ?_⟩
        by_contra hnot
        obtain ⟨m', hm', hwrong⟩ := next_cluster_wrong hsize hfirst file found h16 hlen h32 hin
          (by omega) (by omega)
        exact hwrong (hreads m' hm')
      · have hnone := readEntry_none readOffset len file
          (by rw [clustersReached, if_neg hsize]; exact h16) (fun h => absurd h hsize)
        have hempty := (readsFile_iff file (found m sameButData_refl) hnone).mp hself
        have hwanted := fileBytes_wanted m readOffset len hlong
        rw [← hempty, bytesWanted, List.length_nil] at hwanted
        omega
  · have hpast : fileSize ≤ readOffset := Nat.le_of_not_lt hin
    rw [OffsetSuits, if_neg hin]
    by_cases hsize : v.clusterSize < 65536
    · by_cases hbeyond : chain.length*v.clusterSize ≤ readOffset
      · exact Or.inr (Or.inl hbeyond)
      · have h32 : readOffset+len < 4294967296 := by
          have := hsmall hsize
          omega
        refine Or.inr (Or.inr ⟨h32, (readLen_outside hpast h32).mp ?_⟩)
        have hk : readOffset/v.clusterSize < chain.length := by
          rw [Nat.div_lt_iff_lt_mul hpos]
          omega
        have hrun := readEntry_run file len hsize hk
          (fun e he => h16 e (List.mem_of_mem_take he))
          (fun i hi _ => by
            rw [List.getD_eq_getElem _ _ hi]
            exact h16 _ (List.mem_of_mem_drop (List.getElem_mem hi)))
        have hempty := (readsFile_iff file (found m sameButData_refl) hrun).mp hself
        rw [fileBytes_past hpast] at hempty
        have htails : (clusterTails v m v.readAddr (readOffset%v.clusterSize)
            (chain.drop (readOffset/v.clusterSize))).length ≠ 0 := by
          rw [clusterTails_length, List.length_drop]
          have hlt : readOffset % v.clusterSize < v.clusterSize := Nat.mod_lt _ hpos
          exact Nat.mul_ne_zero (by omega) (by omega)
        have hcount := congrArg List.length hempty
        rw [List.length_take, List.length_nil] at hcount
        omega
    · exact Or.inl (by omega)

end Reads

/-- A read of a file of a volume gives the file's bytes where the clusters it
reaches have 16-bit numbers and the offset suits; where the whole chain has
16-bit numbers, it does so whatever the file holds only where the offset suits. -/
theorem fatFileRead_follows {v : FatVolume} {m : Image} {path : CStr}
    {dirEntryOffset fileSize : ℕ} {chain : List ℕ}
    (file : VolumeFile v m dirEntryOffset fileSize chain)
    (found : ∀ m', SameButData v chain m m' →
      ∃ fuel, fatGetFileDirEntryOffsetFromPathKStr (v.fs m') fuel path = some dirEntryOffset)
    (readOffset : ℕ) {len : ℕ} (hlen : len < 65536) :
    ((∀ c ∈ clustersReached v fileSize chain readOffset len, c < 65536) ∧
        OffsetSuits v fileSize chain readOffset len →
      ReadsFile v m path fileSize chain readOffset len) ∧
    ((∀ c ∈ chain, c < 65536) →
      ((∀ m', SameButData v chain m m' → ReadsFile v m' path fileSize chain readOffset len) ↔
        OffsetSuits v fileSize chain readOffset len)) := by
  constructor
  · rintro ⟨h16, hsuits⟩
    exact readsFile_of_suits file (found m sameButData_refl) hlen h16 hsuits
  · intro h16
    constructor
    · exact suits_of_readsFile file found h16 hlen
    · intro hsuits m' hm'
      apply readsFile_of_suits (file.other hm') (found m' hm') hlen _ hsuits
      intro c hc
      apply h16
      rw [clustersReached] at hc
      split at hc
      · exact List.mem_of_mem_take hc
      · exact hc

/-! ### A small volume -/

/-- The smallest FAT16, of one-sector clusters; the root directory fills a sector. -/
def smallVolume : FatVolume where
  type := .fat16
  bytesPerSector := 512
  sectorsPerCluster := 1
  fatSector := 1
  rootDirSector := 17
  firstDataSector := 18
  clusters := 4085
  size := 2100736
  type_read := fat16_read
  sector_legal := sector_512
  cluster_legal := cluster_one
  cluster_max := cluster_small
  fatSector_lt := fatSector_one
  clusters_top := by decide
  table_room := by decide
  data_room := by decide

/-- A file `A` of two clusters that holds one byte 1, right behind the first. -/
def smallImage : Image := fun a =>
  if a = 516 then 3
  else if a = 518 ∨ a = 519 then 0xFF
  else if a = 8704 then 'A'.toUInt8
  else if 8705 ≤ a ∧ a < 8715 then ' '.toUInt8
  else if a = 8715 then 0x20
  else if a = 8730 then 2
  else if a = 8733 then 4
  else if a = 9728 then 1
  else 0

theorem smallFile : VolumeFile smallVolume smallImage 8704 1024 [2, 3] where
  entry_pos := by decide
  entry_room := by decide
  entry_addr := by decide
  entry_apart := by
    simp [FatVolume.Apart, FatVolume.clusterAddr, FatVolume.clusterSize, smallVolume]
  size_eq := by decide
  first_eq := by decide
  chain_ne := by decide
  nodup := by decide
  clusters := by simp [FatVolume.IsCluster, smallVolume]
  linked := ⟨by decide, show 0xFFF8 ≤ smallVolume.entry smallImage 3 by decide⟩
  long_enough := by decide

theorem smallFile_found (m' : Image) (h : SameButData smallVolume [2, 3] smallImage m') :
    ∃ fuel, fatGetFileDirEntryOffsetFromPathKStr (smallVolume.fs m') fuel [CChar.ofChar 'A']
      = some 8704 := by
  have hdir := h.range smallFile.entry_apart
  have hname : fatRead (smallVolume.fs m') 8704 11 = slice smallImage 8704 11 := by
    rw [fatRead_device FatVolume.fs_readFunctor (by decide) (by decide)]
    exact slice_congr _ _ _ _ fun a h₁ h₂ => hdir a h₁ (by omega)
  have hattributes : fatRead8 (smallVolume.fs m') 8715 = some 0x20 := by
    rw [fatRead8_device FatVolume.fs_readFunctor (by decide) (by decide), byteAt,
      hdir 8715 (by decide) (by decide)]
    rfl
  refine ⟨1, ?_⟩
  have hroot : fatGetRootDirOffset (smallVolume.fs m') = 8704 := by
    simp [fatGetRootDirOffset, FatVolume.fs, smallVolume, u32]
  have hentry : fatReadDirEntryName (smallVolume.fs m') 1 8704 = some (.success ['A'.toUInt8]) := by
    simp only [fatReadDirEntryName, hname]
    rfl
  simp only [fatGetFileDirEntryOffsetFromPathKStr, hroot,
    fatGetFileDirEntryOffsetFromPathKStrHelper, hentry, fatReadDirEntryAttributes, hattributes]
  rw [if_neg (by decide), if_pos (by decide)]

theorem fatFileRead_follows_start :
    ReadsFile smallVolume smallImage [CChar.ofChar 'A'] 1024 [2, 3] 0 1024 :=
  (fatFileRead_follows smallFile smallFile_found 0 (by decide)).1 ⟨by decide, by decide⟩

/-- Two bytes around the end of the first cluster are not read right. -/
theorem fatFileRead_loses_place :
    ¬ ReadsFile smallVolume smallImage [CChar.ofChar 'A'] 1024 [2, 3] 511 2 := by
  intro h
  have hbyte := next_cluster_byte (by decide) smallFile (smallFile_found _ sameButData_refl)
    (by decide) (by decide) (by decide) (by decide) (by decide) h
  exact absurd hbyte (by decide)

end ArduinoOS.Kernel
