import ArduinoOS.Kernel.FatMount

/-!
# Mounting any image

The zero of a field that is divided by is looked for after the divisions, and
sizes that leave no room for data are not looked for at all.
-/

set_option autoImplicit false

namespace ArduinoOS.Kernel
open ArduinoOS.ByteProgram

namespace Bpb

/-- The sectors before the data. -/
def metaSectors (b : Bpb) : ℕ :=
  b.resvdSecCnt+b.numFats*b.fatSz+(b.rootEntCnt*32+(b.bytsPerSec-1))/b.bytsPerSec

end Bpb

/-- A volume whose clusters have a size and whose data starts on it. -/
structure Sensible (m : Image) (fs : Fat) : Prop where
  sector : (bpbOf m).bytsPerSec ≠ 0
  cluster : (bpbOf m).secPerClus ≠ 0
  data : (bpbOf m).metaSectors ≤ (bpbOf m).totSec
  clusterSize : fatGetClusterSize fs ≠ 0
  firstData : fs.firstDataSector ≤ (bpbOf m).totSec

/-- No mount divides by zero, and what is accepted is sensible. -/
structure MountSafe (size : ℕ) (m : Image) : Prop where
  fast : fatMountFast (deviceRead size m) ≠ .divides
  safe : fatMountSafe (deviceRead size m) ≠ .divides
  accepted : ∀ fs, fatMountSafe (deviceRead size m) = .mounted fs → Sensible m fs

/-- The header cannot be read, or its divisors are not zero and, unless the
magic bytes are missing, the sizes leave a data area of clusters of a size
below 64 KB. -/
def HeaderSound (size : ℕ) (m : Image) : Prop :=
  ¬ HasHeader size m ∨ (bpbOf m).bytsPerSec ≠ 0 ∧ (bpbOf m).secPerClus ≠ 0 ∧
    (¬ HasMagic size m ∨ (bpbOf m).metaSectors ≤ (bpbOf m).totSec ∧
      (bpbOf m).secPerClus*(bpbOf m).bytsPerSec % 65536 ≠ 0)

variable {size : ℕ} {m : Image}

theorem firstData_le (readFunctor : FatReadFunctor) (b : Bpb) :
    (fatOfBpb readFunctor b).firstDataSector ≤ b.metaSectors := by
  simp only [fatOfBpb, Bpb.metaSectors, u16]
  have hroot := Nat.mod_le ((b.rootEntCnt*32+(b.bytsPerSec-1))/b.bytsPerSec) 65536
  have htables := Nat.mod_le (b.resvdSecCnt+b.numFats*b.fatSz) 65536
  exact le_trans (Nat.mod_le _ _) (Nat.add_le_add htables hroot)

/-- Without a header both mounts are refused. -/
theorem no_header (h : ¬ HasHeader size m) :
    fatMountFast (deviceRead size m) = .refused ∧ fatMountSafe (deviceRead size m) = .refused := by
  have hfast : fatMountFast (deviceRead size m) = .refused := by
    rw [fatMountFast_image, if_neg h]
  exact ⟨hfast, by simp only [fatMountSafe, hfast]⟩

/-- A zero divisor is divided by. -/
theorem zero_divides (h : HasHeader size m)
    (hzero : (bpbOf m).bytsPerSec = 0 ∨ (bpbOf m).secPerClus = 0) :
    fatMountFast (deviceRead size m) = .divides := by
  rw [fatMountFast_image, if_pos h, if_pos hzero]

theorem mountSafe_header (hheader : HasHeader size m) (hsector : (bpbOf m).bytsPerSec ≠ 0)
    (hcluster : (bpbOf m).secPerClus ≠ 0) :
    MountSafe size m ↔ ¬ HasMagic size m ∨ (bpbOf m).metaSectors ≤ (bpbOf m).totSec ∧
      (bpbOf m).secPerClus*(bpbOf m).bytsPerSec % 65536 ≠ 0 := by
  have hfast : fatMountFast (deviceRead size m) =
      .mounted (fatOfBpb (deviceRead size m) (bpbOf m)) := by
    rw [fatMountFast_image, if_pos hheader, if_neg (by simp [hsector, hcluster])]
  obtain ⟨hmounts, hrefuses⟩ := fatMountSafe_image hheader hsector hcluster
  by_cases hmagic : HasMagic size m
  · have hsafe := hmounts hmagic
    constructor
    · intro h
      have haccepted := h.accepted _ hsafe
      exact Or.inr ⟨haccepted.data, haccepted.clusterSize⟩
    · rintro (hno | ⟨hdata, hsize⟩)
      · exact absurd hmagic hno
      · constructor
        · simp [hfast]
        · simp [hsafe]
        · intro fs hfs
          rw [hsafe] at hfs
          cases hfs
          exact ⟨hsector, hcluster, hdata, hsize, le_trans (firstData_le _ _) hdata⟩
  · have hsafe := hrefuses hmagic
    constructor
    · exact fun _ => Or.inl hmagic
    · intro _
      constructor
      · simp [hfast]
      · simp [hsafe]
      · intro fs hfs
        rw [hsafe] at hfs
        cases hfs

/-- Mounting an image is safe exactly when its header is sound. -/
theorem fatMount_safe_iff (size : ℕ) (m : Image) : MountSafe size m ↔ HeaderSound size m := by
  by_cases hheader : HasHeader size m
  · by_cases hzero : (bpbOf m).bytsPerSec = 0 ∨ (bpbOf m).secPerClus = 0
    · constructor
      · intro h
        exact absurd (zero_divides hheader hzero) h.fast
      · rintro (hno | ⟨hsector, hcluster, _⟩)
        · exact absurd hheader hno
        · exact absurd hzero (by simp [hsector, hcluster])
    · have hnonzero := not_or.mp hzero
      rw [mountSafe_header hheader hnonzero.1 hnonzero.2]
      simp [HeaderSound, hheader, hnonzero.1, hnonzero.2]
  · obtain ⟨hfast, hsafe⟩ := no_header hheader
    constructor
    · exact fun _ => Or.inl hheader
    · intro _
      constructor
      · simp [hfast]
      · simp [hsafe]
      · intro fs hfs
        rw [hsafe] at hfs
        cases hfs

/-- A sector of zeros with one sector in the table and on the volume. -/
def zeroSector : Image := fun a => if a = 9 ∨ a = 22 then 1 else 0

theorem zero_sector_divides : ¬ ∀ size m, MountSafe size m := by
  intro h
  have hheader : HasHeader 512 zeroSector := by decide
  exact (h 512 zeroSector).fast (zero_divides hheader (Or.inl (by decide)))

end ArduinoOS.Kernel
