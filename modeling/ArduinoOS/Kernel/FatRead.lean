import ArduinoOS.Kernel.FatVolumes

/-!
# Reading a file of a FAT volume

The read skips whole clusters, then takes from every cluster the bytes from one
place on: the place of the offset in its own cluster. That is the file's own
data when this place is the cluster's start, or when one cluster is enough.
-/

set_option autoImplicit false

namespace ArduinoOS.Kernel
open ArduinoOS.ByteProgram

/-- Of each cluster, looked for at its address, the bytes from one place on. -/
def clusterTails (v : FatVolume) (m : Image) (addr : ℕ → ℕ) (place : ℕ) (chain : List ℕ) :
    List UInt8 :=
  chain.flatMap fun c => slice m (addr c+place) (v.clusterSize-place)

section Loop

variable {v : FatVolume} {m : Image}

theorem fatFileReadCluster_once (fs : Fat) {base clusterSize len size : ℕ}
    (hfs : fs.readFunctor = deviceRead size m) (hsize : base+clusterSize ≤ size)
    (h32 : base+clusterSize ≤ 4294967296) (rounds : ℕ) {place : ℕ} {data : List UInt8}
    (hplace : place < clusterSize) (hdata : data.length ≤ len) :
    fatFileReadCluster fs base clusterSize len (rounds+1) place data =
      (decide (len-data.length ≤ clusterSize-place),
        data++slice m (base+place) (min (len-data.length) (clusterSize-place))) := by
  have hread : fatRead fs (base+place) (min (len-data.length) (clusterSize-place))
      = slice m (base+place) (min (len-data.length) (clusterSize-place)) :=
    fatRead_device hfs (by omega) (by omega)
  simp only [fatFileReadCluster, if_pos hplace, hread, slice_length, List.length_append,
    lt_irrefl, false_or]
  by_cases hend : len-data.length ≤ clusterSize-place
  · rw [if_pos (by omega), decide_eq_true hend]
  · rw [if_neg (by omega), decide_eq_false hend]
    cases rounds with
    | zero => rfl
    | succ rounds => rw [fatFileReadCluster, if_neg (by omega)]

variable (hsize : v.clusterSize < 65536)

/-- The clusters in front of the offset are passed over. -/
theorem fatFileReadLoop_skip (len place : ℕ) (data : List UInt8) {front rest : List ℕ}
    (hrest : rest ≠ []) (hlinked : v.Linked m (front++rest))
    (hclusters : ∀ c ∈ front++rest, v.IsCluster c) (h16 : ∀ c ∈ front, c < 65536) (fuel : ℕ) :
    fatFileReadLoop (v.fs m) v.clusterSize len (fuel+front.length) ((front++rest).headD 0)
      (front.length*v.clusterSize+place) data =
    fatFileReadLoop (v.fs m) v.clusterSize len fuel (rest.headD 0) place data := by
  induction front with
  | nil => simp
  | cons c front ih =>
    have hne : front++rest ≠ [] := by simp [hrest]
    have hlink := (FatVolume.linked_cons hne).mp hlinked
    have hnext : v.IsCluster (v.entry m c) := by
      rw [hlink.1]
      obtain ⟨d, ds, hds⟩ := List.exists_cons_of_ne_nil hne
      rw [hds]
      exact hclusters d (by rw [List.cons_append, hds]; simp)
    have hentry := FatVolume.fatReadClusterEntry_data (hclusters c (by simp)) (h16 c (by simp)) hnext
    have hfar : ¬ (c::front).length*v.clusterSize+place < v.clusterSize := by
      rw [List.length_cons, Nat.succ_mul]
      omega
    have hoffset : (c::front).length*v.clusterSize+place-v.clusterSize
        = front.length*v.clusterSize+place := by
      rw [List.length_cons, Nat.succ_mul]
      omega
    have hstep := ih hlink.2 (fun d hd => hclusters d (by simp at hd ⊢; tauto))
      (fun d hd => h16 d (by simp [hd]))
    rw [show fuel+(c::front).length = fuel+front.length+1 from rfl, fatFileReadLoop]
    simp only [List.cons_append, List.headD_cons]
    simp only [if_neg hfar, hentry, hoffset, hlink.1]
    exact hstep

include hsize

/-- A read that starts in the first of these clusters. Only clusters that the
read still needs have to have 16-bit numbers. -/
theorem fatFileReadLoop_run (len : ℕ) {place : ℕ} (hplace : place < v.clusterSize)
    {chain : List ℕ} (hne : chain ≠ []) (hlinked : v.Linked m chain)
    (hclusters : ∀ c ∈ chain, v.IsCluster c) (data : List UInt8) (hdata : data.length ≤ len)
    (h16 : ∀ i < chain.length, i = 0 ∨ i*(v.clusterSize-place) < len-data.length →
      chain.getD i 0 < 65536) {fuel : ℕ} (hfuel : chain.length ≤ fuel) :
    fatFileReadLoop (v.fs m) v.clusterSize len fuel (chain.headD 0) place data =
      some (data++(clusterTails v m v.readAddr place chain).take (len-data.length)) := by
  induction chain generalizing data fuel with
  | nil => exact absurd rfl hne
  | cons c rest ih =>
    obtain ⟨fuel, rfl⟩ : ∃ n, fuel = n+1 := ⟨fuel-1, by simp at hfuel; omega⟩
    have hc := hclusters c (by simp)
    have hc16 : c < 65536 := h16 0 (by simp) (Or.inl rfl)
    have hround := fatFileReadCluster_once (v.fs m) FatVolume.fs_readFunctor
      (Nat.le_trans (Nat.add_le_add_right (FatVolume.readAddr_le c) _)
        (FatVolume.clusterAddr_end hc))
      (Nat.le_of_lt (FatVolume.readAddr_small hsize hc16))
      (v.clusterSize-1) hplace hdata
    rw [Nat.sub_add_cancel FatVolume.clusterSize_pos] at hround
    have htails : clusterTails v m v.readAddr place (c::rest) =
        slice m (v.readAddr c+place) (v.clusterSize-place)++clusterTails v m v.readAddr place rest := rfl
    rw [fatFileReadLoop]
    simp only [List.headD_cons, if_pos hplace, FatVolume.fatGetOffsetForCluster_eq hsize hc.1 hc16,
      hround]
    by_cases hend : len-data.length ≤ v.clusterSize-place
    · have hall : data++slice m (v.readAddr c+place) (min (len-data.length) (v.clusterSize-place))
          = data++(clusterTails v m v.readAddr place (c::rest)).take (len-data.length) := by
        rw [htails, List.take_append_of_le_length (by rwa [slice_length]), slice_take]
      rw [hall]
      cases rest with
      | nil => rw [FatVolume.fatReadClusterEntry_end hc hc16 hlinked]
      | cons d ds =>
        have hnext : v.IsCluster (v.entry m c) := by
          rw [hlinked.1]
          exact hclusters d (by simp)
        rw [FatVolume.fatReadClusterEntry_data hc hc16 hnext]
        simp only [decide_eq_true hend, if_true]
    · have hpart : min (len-data.length) (v.clusterSize-place) = v.clusterSize-place := by omega
      rw [hpart]
      cases rest with
      | nil =>
        rw [FatVolume.fatReadClusterEntry_end hc hc16 hlinked]
        simp only [htails, show clusterTails v m v.readAddr place [] = [] from rfl, List.append_nil]
        rw [List.take_of_length_le (by simp; omega)]
      | cons d ds =>
        have hnext : v.IsCluster (v.entry m c) := by
          rw [hlinked.1]
          exact hclusters d (by simp)
        have hlen : (data++slice m (v.readAddr c+place) (v.clusterSize-place)).length
            = data.length+(v.clusterSize-place) := by simp
        have hrest := ih (by simp) hlinked.2 (fun e he => hclusters e (by simp [he]))
          (data++slice m (v.readAddr c+place) (v.clusterSize-place)) (by rw [hlen]; omega)
          (by
            intro i hi hneed
            have hi' : i+1 < (c::d::ds).length := Nat.succ_lt_succ hi
            apply h16 (i+1) hi'
            apply Or.inr
            rw [hlen] at hneed
            rw [Nat.succ_mul]
            rcases hneed with rfl | hneed <;> omega)
          (show (d::ds).length ≤ fuel by simpa using hfuel)
        rw [FatVolume.fatReadClusterEntry_data hc hc16 hnext]
        simp only [decide_eq_false hend, Bool.false_eq_true, if_false, hlinked.1]
        refine hrest.trans ?_
        rw [hlen, htails, List.append_assoc]
        congr 1
        congr 1
        have hfull : (slice m (v.readAddr c+place) (v.clusterSize-place)).take (len-data.length)
            = slice m (v.readAddr c+place) (v.clusterSize-place) :=
          List.take_of_length_le (by rw [slice_length]; omega)
        rw [List.take_append, hfull, slice_length, ← Nat.sub_sub]

omit hsize in
/-- No cluster is close enough: the chain is walked to its end. -/
theorem fatFileReadLoop_past {clusterSize len offset : ℕ} {data : List UInt8} {chain : List ℕ}
    (hpast : chain.length*clusterSize ≤ offset) (hne : chain ≠ []) (hlinked : v.Linked m chain)
    (hclusters : ∀ c ∈ chain, v.IsCluster c) (h16 : ∀ c ∈ chain, c < 65536) {fuel : ℕ}
    (hfuel : chain.length ≤ fuel) :
    fatFileReadLoop (v.fs m) clusterSize len fuel (chain.headD 0) offset data = some data := by
  induction chain generalizing offset fuel with
  | nil => exact absurd rfl hne
  | cons c rest ih =>
    obtain ⟨fuel, rfl⟩ : ∃ n, fuel = n+1 := ⟨fuel-1, by simp at hfuel; omega⟩
    have hc := hclusters c (by simp)
    have hc16 := h16 c (by simp)
    rw [List.length_cons, Nat.succ_mul] at hpast
    rw [fatFileReadLoop]
    simp only [List.headD_cons, if_neg (show ¬ offset < clusterSize by omega)]
    cases rest with
    | nil => rw [FatVolume.fatReadClusterEntry_end hc hc16 hlinked]
    | cons d ds =>
      have hnext : v.IsCluster (v.entry m c) := by
        rw [hlinked.1]
        exact hclusters d (by simp)
      rw [FatVolume.fatReadClusterEntry_data hc hc16 hnext]
      simp only [Bool.false_eq_true, if_false, hlinked.1]
      exact ih (by omega) (by simp) hlinked.2 (fun e he => hclusters e (by simp [he]))
        (fun e he => h16 e (by simp [he])) (by simpa using hfuel)

end Loop

/-- The length the code reads with: a sum of 32 bits, a difference of 16. -/
def readLen (fileSize readOffset len : ℕ) : ℕ :=
  if u32 (readOffset+len) > fileSize then wrap16 ((fileSize : ℤ)-readOffset) else len

/-- The bytes asked for that the file has. -/
def bytesWanted (fileSize readOffset len : ℕ) : ℕ := min len (fileSize-readOffset)

theorem readLen_inside {fileSize readOffset len : ℕ} (hin : readOffset ≤ fileSize)
    (h32 : readOffset+len < 4294967296) (hlen : len < 65536) :
    readLen fileSize readOffset len = bytesWanted fileSize readOffset len := by
  rw [readLen, u32_of_lt h32, bytesWanted]
  split
  · rw [wrap16_of_lt (by omega) (by omega)]
    omega
  · omega

theorem readLen_outside {fileSize readOffset len : ℕ} (hout : fileSize ≤ readOffset)
    (h32 : readOffset+len < 4294967296) :
    readLen fileSize readOffset len = 0 ↔ 65536 ∣ readOffset-fileSize := by
  rw [readLen, u32_of_lt h32]
  split
  · rw [wrap16]
    omega
  · have hlen : len = 0 := by omega
    have hsame : readOffset-fileSize = 0 := by omega
    simp [hlen, hsame]

section Entry

variable {v : FatVolume} {m : Image} {dirEntryOffset fileSize : ℕ} {chain : List ℕ}
  (file : VolumeFile v m dirEntryOffset fileSize chain) (readOffset len : ℕ)

include file

theorem fatFileReadFromDirEntryOffset_eq (fuel : ℕ) :
    fatFileReadFromDirEntryOffset (v.fs m) fuel dirEntryOffset readOffset len =
      fatFileReadLoop (v.fs m) (fatGetClusterSize (v.fs m)) (readLen fileSize readOffset len) fuel
        (chain.headD 0) readOffset [] := by
  simp only [fatFileReadFromDirEntryOffset, readFirstCluster file, readFileSize file,
    Option.bind_eq_bind, Option.bind_some]
  rfl

/-- A read that starts in a cluster of the file. -/
theorem readEntry_run {readOffset : ℕ} (len : ℕ) (hsize : v.clusterSize < 65536)
    (hin : readOffset/v.clusterSize < chain.length)
    (hfront : ∀ c ∈ chain.take (readOffset/v.clusterSize), c < 65536)
    (h16 : ∀ i < (chain.drop (readOffset/v.clusterSize)).length,
      i = 0 ∨ i*(v.clusterSize-readOffset%v.clusterSize) < readLen fileSize readOffset len →
      (chain.drop (readOffset/v.clusterSize)).getD i 0 < 65536) :
    ∃ fuel, fatFileReadFromDirEntryOffset (v.fs m) fuel dirEntryOffset readOffset len =
      some ((clusterTails v m v.readAddr (readOffset%v.clusterSize)
        (chain.drop (readOffset/v.clusterSize))).take (readLen fileSize readOffset len)) := by
  have hplace : readOffset%v.clusterSize < v.clusterSize := Nat.mod_lt _ FatVolume.clusterSize_pos
  have hsplit := List.take_append_drop (readOffset/v.clusterSize) chain
  have hlength : (chain.take (readOffset/v.clusterSize)).length = readOffset/v.clusterSize := by
    rw [List.length_take]
    omega
  have hrest : chain.drop (readOffset/v.clusterSize) ≠ [] := by
    intro h
    have := congrArg List.length h
    rw [List.length_drop, List.length_nil] at this
    omega
  have hoffset : (chain.take (readOffset/v.clusterSize)).length*v.clusterSize
      +readOffset%v.clusterSize = readOffset := by
    rw [hlength, Nat.mul_comm]
    exact Nat.div_add_mod readOffset v.clusterSize
  have hskip := fatFileReadLoop_skip (readLen fileSize readOffset len)
    (readOffset%v.clusterSize) [] hrest (by rw [hsplit]; exact file.linked)
    (by rw [hsplit]; exact file.clusters) hfront (chain.drop (readOffset/v.clusterSize)).length
  have hrun := fatFileReadLoop_run hsize (readLen fileSize readOffset len) hplace hrest
    (FatVolume.linked_append (by rw [hsplit]; exact file.linked))
    (fun c hc => file.clusters c (List.mem_of_mem_drop hc)) [] (Nat.zero_le _) h16 (Nat.le_refl _)
  rw [hsplit, hoffset, hrun] at hskip
  refine ⟨(chain.drop (readOffset/v.clusterSize)).length
    +(chain.take (readOffset/v.clusterSize)).length, ?_⟩
  rw [fatFileReadFromDirEntryOffset_eq file readOffset len, FatVolume.fatGetClusterSize_small hsize]
  exact hskip

/-- A read that starts behind the last cluster. -/
theorem readEntry_past {readOffset : ℕ} (len : ℕ) (hpast : chain.length*fatGetClusterSize (v.fs m) ≤ readOffset)
    (h16 : ∀ c ∈ chain, c < 65536) :
    ∃ fuel, fatFileReadFromDirEntryOffset (v.fs m) fuel dirEntryOffset readOffset len =
      some [] := by
  refine ⟨chain.length, ?_⟩
  rw [fatFileReadFromDirEntryOffset_eq file readOffset len]
  exact fatFileReadLoop_past hpast file.chain_ne file.linked file.clusters h16 (Nat.le_refl _)

end Entry

end ArduinoOS.Kernel
