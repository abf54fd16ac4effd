import ArduinoOS.Kernel.FatDirs
import ArduinoOS.Kernel.Owner
import ArduinoOS.Minifs.Listing

/-!
# Listing directories

The children of an open directory by their number, and what the queries by path
come to on tables whose volumes have known contents.
-/

set_option autoImplicit false

namespace ArduinoOS.Kernel
open ArduinoOS.ByteProgram ArduinoOS.Faulting ArduinoOS.Minifs

def boundsAssert {σ : Type} (b : Bool) : Hw σ Unit := if b then pure () else throw .outOfBounds

section Children

variable {σ : Type} (f : Functors σ) (fat : FatFns)
  (fatDirGetChildN : fat.Fat → CStr → ℕ → Prog (Option CStr)) (t : Tables)

/-- The files of a volume; each name is copied behind the path of the directory
before it is counted. -/
def kernelFsDirectoryGetChildMiniFs (device : KernelFsDevice) (path : CStr) (childNum i j : ℕ) :
    ℕ → Hw σ (Option CStr)
  | 0 => pure none
  | fuel+1 => do
      boundsAssert (path.length+1 < KernelFsPathMax)
      let name ← (miniFsGetChildN i).run (kernelFsDeviceMiniFs f device)
      match name with
      | none => kernelFsDirectoryGetChildMiniFs device path childNum (i+1) j fuel
      | some name => do
          boundsAssert (path.length+1+name.length < KernelFsPathMax)
          if j = childNum then pure (some (path++slash::name))
          else kernelFsDirectoryGetChildMiniFs device path childNum (i+1) (j+1) fuel

/-- Of the buffer's bytes only those of the path that is returned are looked
at, not those that entries passed over are read into. -/
def kernelFsDirectoryGetChildFat (device : KernelFsDevice) (path subPath : CStr)
    (childNum : ℕ) : Hw σ (Option CStr) := do
  let mounted ← fat.fatMountFast.run (kernelFsFat f device)
  match mounted with
  | none => pure none
  | some vol => do
      boundsAssert (path.length+1 < KernelFsPathMax)
      let name ← (fatDirGetChildN vol subPath childNum).run (kernelFsFat f device)
      match name with
      | none => pure none
      | some name => do
          boundsAssert (path.length+1+name.length < KernelFsPathMax)
          pure (some (path++slash::name))

/-- The devices below a directory, whose path is copied to the buffer for each. -/
def kernelFsDirectoryGetChildDevices (path : CStr) (childNum i foundCount : ℕ) :
    ℕ → Hw σ (Option CStr)
  | 0 => pure none
  | fuel+1 =>
      match t.devices i with
      | none => kernelFsDirectoryGetChildDevices path childNum (i+1) foundCount fuel
      | some childDevice => do
          boundsAssert (path.length < KernelFsPathMax)
          let isChild ← fromExcept (kernelFsDeviceIsChildOfPath childDevice path)
          if isChild then
            if foundCount = childNum then do
              boundsAssert (childDevice.mountPoint.length < KernelFsPathMax)
              pure (some childDevice.mountPoint)
            else kernelFsDirectoryGetChildDevices path childNum (i+1) (foundCount+1) fuel
          else kernelFsDirectoryGetChildDevices path childNum (i+1) foundCount fuel

/-- The path of the child, without one when the function returns false. -/
def kernelFsDirectoryGetChild (fd childNum : ℕ) : Hw σ (Option CStr) := do
  kAssert (fd < KernelFsFdMax)
  match t.fdt fd with
  | none => pure none
  | some e =>
      if kernelFsFdPathSpareGetMode e.spare &&& KernelFsFdModeRO = 0 then pure none
      else do
        assertFdDevice t e
        match t.devices e.deviceIndex with
        | none => pure none
        | some device =>
            if fdIsDevice t e then
              match device.type with
              | .block _ .customMiniFs =>
                  kernelFsDirectoryGetChildMiniFs f device e.path childNum 0 0 MINIFSMAXFILES
              | .block _ .flatFile => pure none
              | .block _ .fat =>
                  kernelFsDirectoryGetChildFat f fat fatDirGetChildN device e.path [] childNum
              | .block _ .nb => throw .assertFailed
              | .character _ => pure none
              | .directory =>
                  kernelFsDirectoryGetChildDevices t e.path childNum 0 0 KernelFsDevicesMax
            else
              match device.type with
              | .block _ .customMiniFs => pure none
              | .block _ .flatFile => pure none
              | .block _ .fat =>
                  kernelFsDirectoryGetChildFat f fat fatDirGetChildN device e.path
                    (kstrO e.path (kstrStrlen device.mountPoint+1)) childNum
              | .block _ .nb => throw .assertFailed
              | .character _ => pure none
              | .directory => pure none

end Children

/-! ### Contents -/

/-- From every state of the set, the volumes mounted in the slots are these. -/
structure ShowsVolumes {σ : Type} (f : Functors σ) (fat : FatFns)
    (fatDirGetChildN : fat.Fat → CStr → ℕ → Prog (Option CStr)) (devices : Devices)
    (I : σ → Prop) (volumes : ℕ → Volume) (fats : ℕ → FatContents) : Prop where
  miniFs : ∀ i < KernelFsDevicesMax, ∀ d n, devices i = some d →
    d.type = .block n .customMiniFs → ∃ size m, Reads (kernelFsDeviceMiniFs f d) I size m ∧
      Minifs.Holds size m (volumes i)
  fat : ∀ i < KernelFsDevicesMax, ∀ d n, devices i = some d → d.type = .block n .fat →
    ∃ vol, FatAnswers fat fatDirGetChildN (kernelFsFat f d) I (fats i) vol
  formats : ∀ i < KernelFsDevicesMax, ∀ d n, devices i = some d → d.type ≠ .block n .nb

/-- A directory of devices or the root of a volume. -/
def KernelFsDevice.ActsAsDir (d : KernelFsDevice) : Prop :=
  d.type = .directory ∨ (∃ n, d.type = .block n .customMiniFs) ∨ ∃ n, d.type = .block n .fat

section Contents

variable (devices : Devices) (volumes : ℕ → Volume) (fats : ℕ → FatContents)

/-- The device is that of a volume with this file or directory in its root. -/
def VolumeHas (i : ℕ) (d : KernelFsDevice) (name : CStr) : Prop :=
  (∃ n, d.type = .block n .customMiniFs) ∧ (∃ file ∈ (volumes i).files, file.name = name) ∨
    (∃ n, d.type = .block n .fat) ∧ (fats i).has name = true

/-- The volume mounted at the parent of the path has its last name. -/
def Stored (path : CStr) : Prop := ∃ i d, kernelFsGetDeviceFromPath devices (dirName path) = some i ∧
  devices i = some d ∧ VolumeHas volumes fats i d (baseName path)

/-- What is left of a path behind the mount point names a directory. -/
def DirBelow (i : ℕ) (d : KernelFsDevice) (rest : CStr) : Prop :=
  rest = [] ∧ d.ActsAsDir ∨ rest ≠ [] ∧ (∃ n, d.type = .block n .fat) ∧ (fats i).isDir rest = true

end Contents

section Queries

variable {σ : Type} {f : Functors σ} {fat : FatFns}
  {fatDirGetChildN : fat.Fat → CStr → ℕ → Prog (Option CStr)} {t : Tables} {I : σ → Prop}
  {volumes : ℕ → Volume} {fats : ℕ → FatContents}

theorem stored_iff {path : CStr} {i : ℕ} {d : KernelFsDevice}
    (hi : kernelFsGetDeviceFromPath t.devices (dirName path) = some i) (hd : t.devices i = some d) :
    Stored t.devices volumes fats path ↔ VolumeHas volumes fats i d (baseName path) := by
  constructor
  · rintro ⟨j, d', hj, hd', hhas⟩
    rw [hi, Option.some.injEq] at hj
    rw [← hj, hd, Option.some.injEq] at hd'
    rwa [← hj, ← hd'] at hhas
  · exact fun hhas => ⟨i, d, hi, hd, hhas⟩

theorem actsAsDir_block {d : KernelFsDevice} {n : ℕ} {format : KernelFsBlockDeviceFormat}
    (h : d.type = .block n format) : d.ActsAsDir ↔ format = .customMiniFs ∨ format = .fat := by
  simp [KernelFsDevice.ActsAsDir, h]

variable (hs : ShowsVolumes f fat fatDirGetChildN t.devices I volumes fats)
include hs

/-- The names in the volume of a slot, as the kernel asks for them. -/
theorem gives_volumeHas {i : ℕ} {d : KernelFsDevice} (hi : i < KernelFsDevicesMax)
    (hd : t.devices i = some d) (name : CStr) :
    ∃ b, Gives I (match d.type with
      | .block _ .customMiniFs => (miniFsFileExists name).run (kernelFsDeviceMiniFs f d)
      | .block _ .flatFile => pure false
      | .block _ .fat => do
          let mounted ← fat.fatMountFast.run (kernelFsFat f d)
          match mounted with
          | none => pure false
          | some vol => (fat.fatFileExists vol name).run (kernelFsFat f d)
      | .block _ .nb => throw .assertFailed
      | .character _ => pure false
      | .directory => pure false) (.ok b) ∧ (b = true ↔ VolumeHas volumes fats i d name) := by
  cases htype : d.type with
  | block n format =>
    cases format with
    | customMiniFs =>
      obtain ⟨size, m, hreads, hholds⟩ := hs.miniFs i hi d n hd htype
      refine ⟨_, gives_readOnly hreads (readOnly_fileExists name)
        (exec_fileExists hholds name), ?_⟩
      simp [VolumeHas, htype]
    | flatFile => exact ⟨false, gives_pure false, by simp [VolumeHas, htype]⟩
    | fat =>
      obtain ⟨vol, hfat⟩ := hs.fat i hi d n hd htype
      obtain ⟨fuel, hexists⟩ := (fats i).fileExists_spec name
      exact ⟨_, gives_bind hfat.mount (hfat.fileExists name fuel _ hexists),
        by simp [VolumeHas, htype]⟩
    | nb => exact absurd htype (hs.formats i hi d n hd)
  | character many => exact ⟨false, gives_pure false, by simp [VolumeHas, htype]⟩
  | directory => exact ⟨false, gives_pure false, by simp [VolumeHas, htype]⟩

/-- A path exists where a device is mounted or the volume at its parent has it. -/
theorem gives_exists {path : CStr} (hp : kernelFsPathIsValid path = true) :
    ∃ b, Gives I (kernelFsFileExists f fat t path) (.ok b) ∧
      (b = true ↔ (∃ i, kernelFsGetDeviceFromPath t.devices path = some i) ∨
        Stored t.devices volumes fats path) := by
  rw [kernelFsFileExists, kernelFsPathIsDevice, kernelFsPathSplit, if_pos hp]
  cases hdev : kernelFsGetDeviceFromPath t.devices path with
  | some i => exact ⟨true, gives_pure true, by simp⟩
  | none =>
    simp only [Option.isSome_none, Bool.false_eq_true, if_false, reduceCtorEq, exists_false,
      false_or]
    cases hparent : kernelFsGetDeviceFromPath t.devices (dirName path) with
    | none => exact ⟨false, gives_pure false, by simp [Stored, hparent]⟩
    | some i =>
      obtain ⟨hi, d, hd, _⟩ := getDevice_some hparent
      rw [Option.bind_some, hd, stored_iff hparent hd]
      exact gives_volumeHas hs hi hd (baseName path)

theorem gives_isDir {path : CStr} {i : ℕ} {d : KernelFsDevice} {rest : CStr}
    (hi : i < KernelFsDevicesMax) (hd : t.devices i = some d)
    (hfind : kernelFsGetDeviceFromPathRecursive t.devices path = some (i, rest)) :
    ∃ b, Gives I (kernelFsFileIsDir f fat t path) (.ok b) ∧ (b = true ↔ DirBelow fats i d rest) := by
  rw [kernelFsFileIsDir, hfind]
  dsimp only
  rw [hd]
  dsimp only
  rw [kernelFsDeviceIsDir, DirBelow]
  cases htype : d.type with
  | block n format =>
    rw [actsAsDir_block htype]
    cases format with
    | customMiniFs => exact ⟨_, gives_pure _, by simp⟩
    | flatFile => exact ⟨false, gives_pure false, by simp⟩
    | fat =>
      by_cases hrest : rest = []
      · simp only [hrest, if_true]
        exact ⟨true, gives_pure true, by simp⟩
      · simp only [if_neg hrest]
        obtain ⟨vol, hfat⟩ := hs.fat i hi d n hd htype
        obtain ⟨fuel, hdir⟩ := (fats i).isDir_spec hrest
        exact ⟨_, gives_bind hfat.mount (hfat.isDir rest fuel _ hdir), by simp [hrest]⟩
    | nb => exact absurd htype (hs.formats i hi d n hd)
  | character many =>
    exact ⟨false, gives_pure false, by simp [KernelFsDevice.ActsAsDir, htype]⟩
  | directory => exact ⟨_, gives_pure _, by simp [KernelFsDevice.ActsAsDir, htype]⟩

end Queries

/-! ### Children -/

/-- The path has the other one, or the root, as its dirname. -/
def listedBelow (path mountPoint : CStr) : Bool :=
  mountPoint != rootPath && (if path = rootPath then dirName mountPoint == []
    else dirName mountPoint == path)

theorem isChildOfPath_eq {d : KernelFsDevice} {path : CStr} (hp : kernelFsPathIsValid path = true)
    (hd : kernelFsPathIsValid d.mountPoint = true) :
    kernelFsDeviceIsChildOfPath d path = .ok (listedBelow path d.mountPoint) := by
  rw [kernelFsDeviceIsChildOfPath, hp, listedBelow, kernelFsPathSplit, if_pos hd]
  by_cases hroot : d.mountPoint = rootPath
  · simp [hroot]
  · have hne : (d.mountPoint != rootPath) = true := bne_iff_ne.mpr hroot
    rw [if_neg (by decide), if_neg hroot, hne, Bool.true_and]
    dsimp only
    split
    · rfl
    · rfl

/-- The mount points the loop over the devices lists, from slot `i` on. -/
def childMounts (devices : Devices) (path : CStr) (i n : ℕ) : List CStr :=
  (List.range' i n).filterMap (fun k =>
    (devices k).bind (fun d => if listedBelow path d.mountPoint then some d.mountPoint else none))

/-- The name with this number, if those up to it fit behind the path. -/
def listNames (path : CStr) (childNum j : ℕ) : List CStr → Except Fault (Option CStr)
  | [] => .ok none
  | name::rest =>
      if path.length+1+name.length < KernelFsPathMax then
        if j = childNum then .ok (some (path++slash::name))
        else listNames path childNum (j+1) rest
      else .error .outOfBounds

def listFat (path subPath : CStr) (c : FatContents) (childNum : ℕ) : Except Fault (Option CStr) :=
  if path.length+1 < KernelFsPathMax then
    if childNum < FATMAXFILES then
      match c.child subPath childNum with
      | none => .ok none
      | some name =>
          if path.length+1+name.length < KernelFsPathMax then .ok (some (path++slash::name))
          else .error .outOfBounds
    else .error .assertFailed
  else .error .outOfBounds

/-- What the listing of a directory comes to. -/
def listing (t : Tables) (volumes : ℕ → Volume) (fats : ℕ → FatContents) (e : KernelFsFdtEntry)
    (childNum : ℕ) : Except Fault (Option CStr) :=
  if (kernelFsGetDeviceFromPath t.devices e.path == some e.deviceIndex) = fdIsDevice t e then
    match t.devices e.deviceIndex with
    | none => .ok none
    | some d =>
        if fdIsDevice t e then
          match d.type with
          | .block _ .customMiniFs =>
              if e.path.length+1 < KernelFsPathMax then
                listNames e.path childNum 0 ((volumes e.deviceIndex).files.map File.name)
              else .error .outOfBounds
          | .block _ .fat => listFat e.path [] (fats e.deviceIndex) childNum
          | .directory => .ok (childMounts t.devices e.path 0 KernelFsDevicesMax)[childNum]?
          | _ => .ok none
        else
          match d.type with
          | .block _ .fat => listFat e.path (kstrO e.path (kstrStrlen d.mountPoint+1))
              (fats e.deviceIndex) childNum
          | _ => .ok none
  else .error .deviceCache

section Listing

variable {σ : Type} {f : Functors σ} {fat : FatFns}
  {fatDirGetChildN : fat.Fat → CStr → ℕ → Prog (Option CStr)} {t : Tables} {I : σ → Prop}
  {volumes : ℕ → Volume} {fats : ℕ → FatContents}

theorem gives_bounds {p : Prop} [Decidable p] (h : p) :
    Gives I (boundsAssert (decide p) : Hw σ Unit) (.ok ()) := by
  rw [decide_eq_true h]
  exact gives_pure ()

theorem gives_outOfBounds {p : Prop} [Decidable p] (h : ¬ p) :
    Gives I (boundsAssert (decide p) : Hw σ Unit) (.error .outOfBounds) := by
  rw [decide_eq_false h]
  exact fun _ _ => rfl

/-- The number of a child in what is left to list. -/
theorem gives_devices (hd : MountPoints t.devices) {path : CStr}
    (hp : kernelFsPathIsValid path = true) (hlen : path.length < KernelFsPathMax) {childNum : ℕ}
    (fuel i foundCount : ℕ) (hfuel : i+fuel = KernelFsDevicesMax) (hfound : foundCount ≤ childNum) :
    Gives I (kernelFsDirectoryGetChildDevices t path childNum i foundCount fuel : Hw σ _)
      (.ok (childMounts t.devices path i fuel)[childNum-foundCount]?) := by
  induction fuel generalizing i foundCount with
  | zero => exact gives_pure none
  | succ fuel ih =>
    rw [kernelFsDirectoryGetChildDevices, childMounts, List.range'_succ, List.filterMap_cons]
    cases hdi : t.devices i with
    | none => exact ih (i+1) foundCount (by omega) hfound
    | some d =>
      obtain ⟨hvalid, hshort⟩ := hd.valid i (by omega) d hdi
      apply gives_bind (gives_bounds hlen)
      apply gives_bind (a := listedBelow path d.mountPoint)
      · rw [isChildOfPath_eq hp hvalid]
        exact gives_fromExcept _
      · cases hlisted : listedBelow path d.mountPoint with
        | false =>
          simp only [Option.bind_some, hlisted, Bool.false_eq_true, if_false]
          exact ih (i+1) foundCount (by omega) hfound
        | true =>
          simp only [Option.bind_some, hlisted, if_true]
          by_cases hlast : foundCount = childNum
          · rw [if_pos hlast, hlast, Nat.sub_self, List.getElem?_cons_zero]
            exact gives_bind (gives_bounds hshort) (gives_pure _)
          · rw [if_neg hlast, show childNum-foundCount = childNum-(foundCount+1)+1 by omega,
              List.getElem?_cons_succ]
            exact ih (i+1) (foundCount+1) (by omega) (by omega)

variable (hs : ShowsVolumes f fat fatDirGetChildN t.devices I volumes fats)
include hs

theorem gives_names {slot : ℕ} {d : KernelFsDevice} {n : ℕ} (hslot : slot < KernelFsDevicesMax)
    (hd : t.devices slot = some d) (htype : d.type = .block n .customMiniFs) {path : CStr}
    (hroom : path.length+1 < KernelFsPathMax) {childNum : ℕ} (fuel i j : ℕ)
    (hfuel : i+fuel = MINIFSMAXFILES) :
    Gives I (kernelFsDirectoryGetChildMiniFs f d path childNum i j fuel)
      (listNames path childNum j (((volumes slot).files.map File.name).drop i)) := by
  obtain ⟨size, m, hreads, hholds⟩ := hs.miniFs slot hslot d n hd htype
  have hcount : (volumes slot).files.length ≤ 126 := (volumes slot).wf.count
  induction fuel generalizing i j with
  | zero =>
    have hi : i = 126 := hfuel
    rw [List.drop_of_length_le (by rw [List.length_map]; omega)]
    exact gives_pure none
  | succ fuel ih =>
    rw [kernelFsDirectoryGetChildMiniFs]
    apply gives_bind (gives_bounds hroom)
    apply gives_bind (gives_readOnly hreads (readOnly_getChildN i)
      (exec_getChildN hholds (show i < MINIFSMAXFILES by omega)))
    rw [← List.getElem?_map]
    cases hname : ((volumes slot).files.map File.name)[i]? with
    | none =>
      have hend := List.getElem?_eq_none_iff.mp hname
      have hrest := ih (i+1) j (by omega)
      rw [List.drop_of_length_le (by omega)] at hrest
      rw [List.drop_of_length_le hend]
      exact hrest
    | some name =>
      obtain ⟨hlt, hget⟩ := List.getElem?_eq_some_iff.mp hname
      rw [List.drop_eq_getElem_cons hlt, hget, listNames]
      by_cases hfits : path.length+1+name.length < KernelFsPathMax
      · rw [if_pos hfits]
        apply gives_bind (gives_bounds hfits)
        by_cases hlast : j = childNum
        · rw [if_pos hlast, if_pos hlast]
          exact gives_pure _
        · rw [if_neg hlast, if_neg hlast]
          exact ih (i+1) (j+1) (by omega)
      · rw [if_neg hfits]
        exact gives_fault (gives_outOfBounds hfits)

theorem gives_fat {slot : ℕ} {d : KernelFsDevice} {n : ℕ} (hslot : slot < KernelFsDevicesMax)
    (hd : t.devices slot = some d) (htype : d.type = .block n .fat) (path subPath : CStr)
    (childNum : ℕ) :
    Gives I (kernelFsDirectoryGetChildFat f fat fatDirGetChildN d path subPath childNum)
      (listFat path subPath (fats slot) childNum) := by
  obtain ⟨vol, hfat⟩ := hs.fat slot hslot d n hd htype
  rw [kernelFsDirectoryGetChildFat, listFat]
  apply gives_bind hfat.mount
  by_cases hroom : path.length+1 < KernelFsPathMax
  · rw [if_pos hroom]
    apply gives_bind (gives_bounds hroom)
    by_cases hnum : childNum < FATMAXFILES
    · obtain ⟨fuel, hchild⟩ := (fats slot).child_spec subPath childNum hnum
      rw [if_pos hnum]
      apply gives_bind (hfat.child subPath childNum hnum fuel _ hchild)
      cases hname : (fats slot).child subPath childNum with
      | none => exact gives_pure none
      | some name =>
        dsimp only
        by_cases hfits : path.length+1+name.length < KernelFsPathMax
        · rw [if_pos hfits]
          exact gives_bind (gives_bounds hfits) (gives_pure _)
        · rw [if_neg hfits]
          exact gives_fault (gives_outOfBounds hfits)
    · rw [if_neg hnum]
      exact gives_fault (hfat.childNum subPath childNum (by omega))
  · rw [if_neg hroom]
    exact gives_fault (gives_outOfBounds hroom)

end Listing

/-- An fd that may be read and whose path is one the kernel can hold. -/
structure OpenForReading (t : Tables) (fd : ℕ) (e : KernelFsFdtEntry) : Prop where
  range : fd < KernelFsFdMax
  entry : t.fdt fd = some e
  mode : kernelFsFdPathSpareGetMode e.spare &&& KernelFsFdModeRO ≠ 0
  valid : kernelFsPathIsValid e.path = true
  length : e.path.length < KernelFsPathMax
  slot : e.deviceIndex < KernelFsDevicesMax

theorem gives_getChild {σ : Type} {f : Functors σ} {fat : FatFns}
    {fatDirGetChildN : fat.Fat → CStr → ℕ → Prog (Option CStr)} {t : Tables} {I : σ → Prop}
    {volumes : ℕ → Volume} {fats : ℕ → FatContents} (hd : MountPoints t.devices)
    (hs : ShowsVolumes f fat fatDirGetChildN t.devices I volumes fats) {fd : ℕ} {e : KernelFsFdtEntry}
    (he : OpenForReading t fd e) (childNum : ℕ) :
    Gives I (kernelFsDirectoryGetChild f fat fatDirGetChildN t fd childNum)
      (listing t volumes fats e childNum) := by
  have hrange : Gives I (kAssert (decide (fd < KernelFsFdMax)) : Hw σ Unit) (.ok ()) := by
    rw [decide_eq_true he.range]
    exact gives_pure ()
  rw [kernelFsDirectoryGetChild, listing]
  apply gives_bind hrange
  rw [he.entry]
  dsimp only
  rw [if_neg he.mode]
  by_cases hcache : (kernelFsGetDeviceFromPath t.devices e.path == some e.deviceIndex) =
      fdIsDevice t e
  · have hassert : Gives I (assertFdDevice t e : Hw σ Unit) (.ok ()) := by
      rw [assertFdDevice, beq_iff_eq.mpr hcache]
      exact gives_pure ()
    rw [if_pos hcache]
    apply gives_bind hassert
    cases hdev : t.devices e.deviceIndex with
    | none => exact gives_pure none
    | some d =>
      dsimp only
      cases hself : fdIsDevice t e with
      | true =>
        simp only [if_true]
        cases htype : d.type with
        | block n format =>
          cases format with
          | customMiniFs =>
            dsimp only
            by_cases hroom : e.path.length+1 < KernelFsPathMax
            · rw [if_pos hroom]
              exact gives_names hs he.slot hdev htype hroom MINIFSMAXFILES 0 0 (Nat.zero_add _)
            · rw [if_neg hroom]
              exact gives_fault (gives_outOfBounds hroom)
          | flatFile => exact gives_pure none
          | fat => exact gives_fat hs he.slot hdev htype e.path [] childNum
          | nb => exact absurd htype (hs.formats _ he.slot d n hdev)
        | character many => exact gives_pure none
        | directory =>
          exact gives_devices hd he.valid he.length KernelFsDevicesMax 0 0 (Nat.zero_add _)
            (Nat.zero_le _)
      | false =>
        simp only [Bool.false_eq_true, if_false]
        cases htype : d.type with
        | block n format =>
          cases format with
          | customMiniFs => exact gives_pure none
          | flatFile => exact gives_pure none
          | fat => exact gives_fat hs he.slot hdev htype e.path _ childNum
          | nb => exact absurd htype (hs.formats _ he.slot d n hdev)
        | character many => exact gives_pure none
        | directory => exact gives_pure none
  · have hassert : Gives I (assertFdDevice t e : Hw σ Unit) (.error .deviceCache) := by
      rw [assertFdDevice, beq_eq_false_iff_ne.mpr hcache]
      exact fun _ _ => rfl
    rw [if_neg hcache]
    exact gives_fault hassert

end ArduinoOS.Kernel
