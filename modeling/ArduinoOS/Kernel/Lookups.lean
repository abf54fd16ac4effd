import ArduinoOS.Kernel.FileSizes
import ArduinoOS.Kernel.Listing
import ArduinoOS.Kernel.Nearest

/-!
# When the lookups by path agree

Existence asks the one device mounted at the parent of a path, the test for a
directory asks the device at which the search ends. They agree when the search
ends at the path itself or at its parent, and elsewhere when what it ends at
answers as these would. What a directory lists exists when it is listed by a
directory of devices or by the root of a volume.
-/

set_option autoImplicit false

namespace ArduinoOS.Kernel
open ArduinoOS.ByteProgram ArduinoOS.Faulting ArduinoOS.Minifs

/-- A directory of devices, the root of a volume, or a sub-directory of the FAT
volume the path lies on. -/
def IsDirectory (devices : Devices) (fats : ℕ → FatContents) (path : CStr) : Prop :=
  (∃ i d, kernelFsGetDeviceFromPath devices path = some i ∧ devices i = some d ∧ d.ActsAsDir) ∨
    kernelFsGetDeviceFromPath devices path = none ∧ ∃ i d rest, Owner devices path i d ∧
      (∃ n, d.type = .block n .fat) ∧ RestOf d.mountPoint path rest ∧ (fats i).isDir rest = true

section Agreement

variable {σ : Type} (f : Functors σ) (fat : FatFns)
  (fatDirGetChildN : fat.Fat → CStr → ℕ → Prog (Option CStr)) (t : Tables)
  (fats : ℕ → FatContents)

/-- Both lookups answer; a directory exists, and what exists is a directory when
it is one. -/
def LookupsAgree (s : σ) (path : CStr) : Prop :=
  ∃ fileExists s₁ isDir s₂, kernelFsFileExists f fat t path s = .ok (fileExists, s₁) ∧
    kernelFsFileIsDir f fat t path s = .ok (isDir, s₂) ∧
    (isDir = true → fileExists = true) ∧
    (fileExists = true → (isDir = true ↔ IsDirectory t.devices fats path))

/-- Every path that the listing returns exists. -/
def ListedExist (s : σ) (fd : ℕ) : Prop := ∀ childNum path s₁,
  kernelFsDirectoryGetChild f fat fatDirGetChildN t fd childNum s = .ok (some path, s₁) →
  ∃ s₂, kernelFsFileExists f fat t path s₁ = .ok (true, s₂)

end Agreement

/-! ### Directories and the search -/

/-- A sub-directory of the root of the FAT volume mounted at the parent. -/
def RootDir (devices : Devices) (fats : ℕ → FatContents) (path : CStr) : Prop :=
  ∃ i d, kernelFsGetDeviceFromPath devices (dirName path) = some i ∧ devices i = some d ∧
    (∃ n, d.type = .block n .fat) ∧ (fats i).isDir (baseName path) = true

/-- The search ends at a device that is a directory as the one at the path is,
or that has the rest of the path for a directory as the volume at the parent has
the last name. -/
def SearchSuits (devices : Devices) (fats : ℕ → FatContents) (path : CStr) : Prop :=
  ∃ i d, Nearest devices path i d ∧
    ((∃ j d', kernelFsGetDeviceFromPath devices path = some j ∧ devices j = some d' ∧
      (d.ActsAsDir ↔ d'.ActsAsDir)) ∨
    (kernelFsGetDeviceFromPath devices path = none ∧
      (DirBelow fats i d (subPathAfter path d.mountPoint) ↔ RootDir devices fats path)))

section Directories

variable {devices : Devices} {volumes : ℕ → Volume} {fats : ℕ → FatContents} {path : CStr}

theorem path_parts (hp : kernelFsPathIsValid path = true) :
    path = dirName path++slash::baseName path := by
  obtain ⟨rest, rfl⟩ := valid_head hp
  exact split_parts List.mem_cons_self

theorem rest_dirname (hp : kernelFsPathIsValid path = true) {rest : CStr}
    (h : RestOf (dirName path) path rest) : rest = baseName path := by
  have hparts := path_parts hp
  rcases h with hrest | ⟨hrest, hhead⟩
  · exact (List.cons.inj (List.append_cancel_left (hrest.symm.trans hparts))).2
  · rw [List.append_cancel_left (hrest.symm.trans hparts)] at hhead
    exact absurd rfl hhead

/-- A name of a FAT volume's root that is a directory's. -/
theorem stored_of_rootDir (h : RootDir devices fats path) : Stored devices volumes fats path := by
  obtain ⟨i, d, hi, hd, hfat, hdir⟩ := h
  exact ⟨i, d, hi, hd, Or.inr ⟨hfat, FatContents.has_of_isDir hdir⟩⟩

theorem isDirectory_mounted {j : ℕ} {d : KernelFsDevice}
    (hj : kernelFsGetDeviceFromPath devices path = some j) (hd : devices j = some d) :
    IsDirectory devices fats path ↔ d.ActsAsDir := by
  constructor
  · rintro (⟨i, d', hi, hd', hacts⟩ | ⟨hnone, _⟩)
    · rw [hj, Option.some.injEq] at hi
      rw [← hi, hd, Option.some.injEq] at hd'
      rwa [hd']
    · rw [hj] at hnone
      cases hnone
  · exact fun hacts => Or.inl ⟨j, d, hj, hd, hacts⟩

/-- What a volume stores is a directory where it is one of a FAT volume's root. -/
theorem isDirectory_stored (hd : MountPoints devices) (hp : kernelFsPathIsValid path = true)
    (hnone : kernelFsGetDeviceFromPath devices path = none)
    (hstored : Stored devices volumes fats path) :
    IsDirectory devices fats path ↔ RootDir devices fats path := by
  obtain ⟨j, d', hj, hdj, _⟩ := hstored
  have hmp : d'.mountPoint = dirName path := by
    obtain ⟨_, d, hdj', hmp⟩ := getDevice_some hj
    rw [hdj, Option.some.injEq] at hdj'
    rwa [hdj']
  have howner := dirname_owner hd hp hnone hj hdj
  constructor
  · rintro (⟨i, d, hi, _⟩ | ⟨_, i, d, rest, hi, hfat, hrest, hdir⟩)
    · rw [hnone] at hi
      cases hi
    · have hsame := owner_unique hd hp howner hi
      have hdev := hi.device
      rw [← hsame, hdj, Option.some.injEq] at hdev
      rw [← hdev, hmp] at hrest
      rw [rest_dirname hp hrest] at hdir
      exact ⟨j, d', hj, hdj, hdev ▸ hfat, hsame ▸ hdir⟩
  · rintro ⟨i, d, hi, hdi, hfat, hdir⟩
    rw [hj, Option.some.injEq] at hi
    rw [← hi] at hdi hdir
    rw [hdj, Option.some.injEq] at hdi
    refine Or.inr ⟨hnone, j, d', baseName path, howner, hdi ▸ hfat, Or.inl ?_, hdir⟩
    rw [hmp]
    exact path_parts hp

theorem subPathAfter_whole {mountPoint : CStr} (hlen : mountPoint.length = path.length)
    (hshort : mountPoint.length < 65536) : subPathAfter path mountPoint = [] := by
  have hdrop : path.drop (kstrStrlen mountPoint) = [] := by
    rw [kstrStrlen, u16_of_lt hshort, hlen, List.drop_length]
  rw [subPathAfter, hdrop]
  rfl

end Directories

section Theorem

variable {σ : Type} {f : Functors σ} {fat : FatFns}
  {fatDirGetChildN : fat.Fat → CStr → ℕ → Prog (Option CStr)} {t : Tables} {I : σ → Prop}
  {volumes : ℕ → Volume} {fats : ℕ → FatContents} (hd : MountPoints t.devices)
  (hs : ShowsVolumes f fat fatDirGetChildN t.devices I volumes fats) {s : σ} (hI : I s)
include hd hs hI

theorem lookupsAgree_iff {path : CStr} (hp : kernelFsPathIsValid path = true) :
    LookupsAgree f fat t fats s path ↔ SearchSuits t.devices fats path := by
  obtain ⟨e, hexists, he⟩ := gives_exists hs hp
  obtain ⟨s₁, hrun₁, _⟩ := hexists s hI
  have hends := search_nearest hd hp
  cases hc : cachedIndex t.devices path with
  | none =>
    rw [hc] at hends
    have hfault : kernelFsFileIsDir f fat t path s = .error .nullPointer := by
      rw [kernelFsFileIsDir, kernelFsGetDeviceFromPathRecursive]
      rw [cachedIndex] at hc
      rw [hc]
      rfl
    apply iff_of_false
    · rintro ⟨_, _, _, _, _, hrun, _⟩
      rw [hfault] at hrun
      cases hrun
    · rintro ⟨i, d, hnear, _⟩
      exact hends i d hnear.leads
  | some i =>
    rw [hc] at hends
    obtain ⟨d, hnear⟩ := hends
    have hslot := hnear.leads.slot
    have hdev := hnear.leads.device
    have hfind : kernelFsGetDeviceFromPathRecursive t.devices path =
        some (i, subPathAfter path d.mountPoint) := by
      rw [cachedIndex] at hc
      rw [kernelFsGetDeviceFromPathRecursive, hc]
      dsimp only
      rw [hdev, Option.map_some]
    obtain ⟨b, hisDir, hb⟩ := gives_isDir hs hslot hdev hfind
    obtain ⟨s₂, hrun₂, _⟩ := hisDir s hI
    have hagree : LookupsAgree f fat t fats s path ↔ (b = true → e = true) ∧
        (e = true → (b = true ↔ IsDirectory t.devices fats path)) := by
      constructor
      · rintro ⟨_, _, _, _, hrun₁', hrun₂', himp, hdir⟩
        rw [hrun₁] at hrun₁'
        rw [hrun₂] at hrun₂'
        cases hrun₁'
        cases hrun₂'
        exact ⟨himp, hdir⟩
      · rintro ⟨himp, hdir⟩
        exact ⟨e, s₁, b, s₂, hrun₁, hrun₂, himp, hdir⟩
    have hsuits : ∀ P : ℕ → KernelFsDevice → Prop,
        (∃ j d', Nearest t.devices path j d' ∧ P j d') ↔ P i d := by
      intro P
      constructor
      · rintro ⟨j, d', hnear', hP⟩
        have hij := nearest_unique hnear hnear'
        have hdev' := hnear'.leads.device
        rw [← hij, hdev, Option.some.injEq] at hdev'
        rwa [← hij, ← hdev'] at hP
      · exact fun hP => ⟨i, d, hnear, hP⟩
    rw [hagree, SearchSuits, hsuits, hb, he]
    cases hmounted : kernelFsGetDeviceFromPath t.devices path with
    | some j =>
      obtain ⟨_, d', hdj, _⟩ := getDevice_some hmounted
      have hlen := nearest_mounted hd hnear hmounted
      have hshort := (hd.valid i hslot d hdev).2
      have hrest : subPathAfter path d.mountPoint = [] :=
        subPathAfter_whole hlen (by rw [KernelFsPathMax] at hshort; omega)
      have hbelow : DirBelow fats i d (subPathAfter path d.mountPoint) ↔ d.ActsAsDir := by
        rw [hrest, DirBelow]
        simp
      rw [hbelow, isDirectory_mounted hmounted hdj]
      simp [hdj]
    | none =>
      have hstored : Stored t.devices volumes fats path →
          (IsDirectory t.devices fats path ↔ RootDir t.devices fats path) :=
        isDirectory_stored hd hp hmounted
      have hroot : RootDir t.devices fats path → Stored t.devices volumes fats path :=
        stored_of_rootDir
      simp only [reduceCtorEq, exists_false, false_or, false_and, true_and]
      constructor
      · rintro ⟨himp, hdir⟩
        constructor
        · intro hbelow
          exact (hstored (himp hbelow)).mp ((hdir (himp hbelow)).mp hbelow)
        · intro hrootDir
          exact (hdir (hroot hrootDir)).mpr ((hstored (hroot hrootDir)).mpr hrootDir)
      · intro hiff
        constructor
        · exact fun hbelow => hroot (hiff.mp hbelow)
        · intro hst
          rw [hiff, hstored hst]

end Theorem

/-! ### Listed paths -/

/-- A name as a path has it, with characters none of which is a slash. -/
def PlainName (name : CStr) : Prop := name ≠ [] ∧ slash ∉ name

theorem dirName_join (path : CStr) {name : CStr} (h : slash ∉ name) :
    dirName (path++slash::name) = path := by
  have hall : ∀ c ∈ name.reverse, (c != slash) = true := fun c hc =>
    bne_iff_ne.mpr (fun he => h (he ▸ List.mem_reverse.mp hc))
  rw [dirName, List.reverse_append, List.reverse_cons, List.append_assoc,
    List.dropWhile_append_of_pos hall]
  simp

theorem baseName_join (path : CStr) {name : CStr} (h : slash ∉ name) :
    baseName (path++slash::name) = name := by
  have hall : ∀ c ∈ name.reverse, (c != slash) = true := fun c hc =>
    bne_iff_ne.mpr (fun he => h (he ▸ List.mem_reverse.mp hc))
  rw [baseName, List.reverse_append, List.reverse_cons, List.append_assoc,
    List.takeWhile_append_of_pos hall]
  simp

theorem valid_join {path name : CStr} (hp : kernelFsPathIsValid path = true)
    (h : PlainName name) : kernelFsPathIsValid (path++slash::name) = true := by
  obtain ⟨rest, rfl⟩ := valid_head hp
  obtain ⟨hne, hplain⟩ := h
  have hlast : (slash::rest++slash::name).getLast? = some (name.getLast hne) := by
    rw [List.getLast?_append, List.getLast?_cons_of_ne_nil hne, List.getLast?_eq_some_getLast hne]
    rfl
  have hnot : name.getLast hne ≠ slash := fun he => hplain (he ▸ List.getLast_mem hne)
  rw [kernelFsPathIsValid, hlast]
  simp [hnot]

/-- A device or something that a volume stores. -/
def Present (devices : Devices) (volumes : ℕ → Volume) (fats : ℕ → FatContents) (path : CStr) :
    Prop :=
  (∃ i, kernelFsGetDeviceFromPath devices path = some i) ∨
    kernelFsPathIsValid path = true ∧ Stored devices volumes fats path

/-- A plain name in the root of a volume is stored under the volume's path. -/
theorem present_join {devices : Devices} {volumes : ℕ → Volume} {fats : ℕ → FatContents}
    {path name : CStr} (hp : kernelFsPathIsValid path = true) {i : ℕ} {d : KernelFsDevice}
    (hi : kernelFsGetDeviceFromPath devices path = some i) (hd : devices i = some d)
    (hname : PlainName name) (hhas : VolumeHas volumes fats i d name) :
    Present devices volumes fats (path++slash::name) := by
  refine Or.inr ⟨valid_join hp hname, i, d, ?_, hd, ?_⟩
  · rw [dirName_join path hname.2, hi]
  · rwa [baseName_join path hname.2]

/-- The names that are listed: those before the first that does not fit behind
the path. -/
def namesThatFit (path : CStr) (names : List CStr) : List CStr :=
  if path.length+1 < KernelFsPathMax then
    names.takeWhile (fun name => decide (path.length+1+name.length < KernelFsPathMax))
  else []

/-- The entries of a directory of a FAT volume that fit behind the path. -/
def EntryThatFits (c : FatContents) (path subPath name : CStr) : Prop :=
  path.length+1+name.length < KernelFsPathMax ∧
    ∃ childNum < FATMAXFILES, c.child subPath childNum = some name

/-- Where the fd is the root of a volume, its names are plain, or are taken for
something else that is present; in a FAT volume they are found again too. Where it
is below a FAT volume, something else is present under each name. -/
structure ListsPresent (t : Tables) (volumes : ℕ → Volume) (fats : ℕ → FatContents)
    (e : KernelFsFdtEntry) : Prop where
  miniFs : ∀ d n, kernelFsGetDeviceFromPath t.devices e.path = some e.deviceIndex →
    t.devices e.deviceIndex = some d → d.type = .block n .customMiniFs →
    ∀ name ∈ namesThatFit e.path ((volumes e.deviceIndex).files.map File.name),
      PlainName name ∨ Present t.devices volumes fats (e.path++slash::name)
  fat : ∀ d n, kernelFsGetDeviceFromPath t.devices e.path = some e.deviceIndex →
    t.devices e.deviceIndex = some d → d.type = .block n .fat →
    ∀ name, EntryThatFits (fats e.deviceIndex) e.path [] name →
      PlainName name ∧ (fats e.deviceIndex).has name = true ∨
        Present t.devices volumes fats (e.path++slash::name)
  below : ∀ d n, t.devices e.deviceIndex = some d → d.mountPoint ≠ e.path →
    d.type = .block n .fat →
    ∀ name, EntryThatFits (fats e.deviceIndex) e.path
        (kstrO e.path (kstrStrlen d.mountPoint+1)) name →
      Present t.devices volumes fats (e.path++slash::name)

section Listed

variable {t : Tables} {volumes : ℕ → Volume} {fats : ℕ → FatContents} {e : KernelFsFdtEntry}

theorem listNames_some (path : CStr) (hroom : path.length+1 < KernelFsPathMax) (names : List CStr)
    (j childNum : ℕ) (child : CStr) :
    listNames path childNum j names = .ok (some child) ↔
      ∃ k name, (namesThatFit path names)[k]? = some name ∧ j+k = childNum ∧
        child = path++slash::name := by
  rw [namesThatFit, if_pos hroom]
  induction names generalizing j with
  | nil => simp [listNames]
  | cons name names ih =>
    rw [listNames, List.takeWhile_cons]
    by_cases hfits : path.length+1+name.length < KernelFsPathMax
    · rw [if_pos hfits, decide_eq_true hfits, if_pos rfl]
      by_cases hlast : j = childNum
      · rw [if_pos hlast]
        constructor
        · intro h
          cases h
          exact ⟨0, name, rfl, hlast, rfl⟩
        · rintro ⟨k, name', hk, hsum, rfl⟩
          obtain rfl : k = 0 := by omega
          cases hk
          rfl
      · rw [if_neg hlast, ih]
        constructor
        · rintro ⟨k, name', hk, hsum, rfl⟩
          exact ⟨k+1, name', hk, by omega, rfl⟩
        · rintro ⟨k, name', hk, hsum, rfl⟩
          obtain ⟨k, rfl⟩ : ∃ n, k = n+1 := ⟨k-1, by omega⟩
          exact ⟨k, name', hk, by omega, rfl⟩
    · rw [if_neg hfits, decide_eq_false hfits]
      simp

theorem listFat_some (path subPath : CStr) (c : FatContents) (childNum : ℕ) (child : CStr) :
    listFat path subPath c childNum = .ok (some child) ↔
      ∃ name, path.length+1+name.length < KernelFsPathMax ∧ childNum < FATMAXFILES ∧
        c.child subPath childNum = some name ∧ child = path++slash::name := by
  rw [listFat]
  by_cases hroom : path.length+1 < KernelFsPathMax
  · by_cases hnum : childNum < FATMAXFILES
    · rw [if_pos hroom, if_pos hnum]
      cases hchild : c.child subPath childNum with
      | none => simp
      | some name =>
        dsimp only
        by_cases hfits : path.length+1+name.length < KernelFsPathMax
        · rw [if_pos hfits]
          constructor
          · intro h
            cases h
            exact ⟨name, hfits, hnum, rfl, rfl⟩
          · rintro ⟨name', _, _, hname, rfl⟩
            rw [Option.some.inj hname]
        · rw [if_neg hfits]
          apply iff_of_false
          · intro h
            cases h
          · rintro ⟨name', hfits', _, hname, _⟩
            rw [← Option.some.inj hname] at hfits'
            exact hfits hfits'
    · rw [if_pos hroom, if_neg hnum]
      apply iff_of_false
      · intro h
        cases h
      · rintro ⟨_, _, hnum', _⟩
        exact hnum hnum'
  · rw [if_neg hroom]
    apply iff_of_false
    · intro h
      cases h
    · rintro ⟨name, hfits, _⟩
      omega

theorem mem_childMounts {devices : Devices} {path child : CStr} :
    child ∈ childMounts devices path 0 KernelFsDevicesMax ↔
      ∃ i < KernelFsDevicesMax, ∃ d, devices i = some d ∧ listedBelow path d.mountPoint = true ∧
        d.mountPoint = child := by
  rw [childMounts, List.mem_filterMap]
  constructor
  · rintro ⟨i, hi, hbind⟩
    rw [Option.bind_eq_some_iff] at hbind
    obtain ⟨d, hdi, hsome⟩ := hbind
    split at hsome
    · rename_i hlisted
      have hlt := List.mem_range'_1.mp hi
      exact ⟨i, by omega, d, hdi, hlisted, Option.some.inj hsome⟩
    · cases hsome
  · rintro ⟨i, hi, d, hdi, hlisted, rfl⟩
    refine ⟨i, List.mem_range'_1.mpr ⟨Nat.zero_le i, by omega⟩, ?_⟩
    rw [hdi, Option.bind_some, if_pos hlisted]

/-- A mount point is found. -/
theorem getDevice_mounted {devices : Devices} {i : ℕ} {d : KernelFsDevice}
    (hi : i < KernelFsDevicesMax) (hd : devices i = some d) :
    ∃ j, kernelFsGetDeviceFromPath devices d.mountPoint = some j := by
  cases hj : kernelFsGetDeviceFromPath devices d.mountPoint with
  | none => exact absurd rfl (getDevice_none.mp hj i hi d hd)
  | some j => exact ⟨j, rfl⟩

theorem fdIsDevice_iff {d : KernelFsDevice} (hd : t.devices e.deviceIndex = some d) :
    fdIsDevice t e = true ↔ d.mountPoint = e.path := by
  rw [fdIsDevice, hd]
  simp

/-- The fd is the device it caches. -/
theorem listing_self {d : KernelFsDevice} (hd : t.devices e.deviceIndex = some d)
    (hi : kernelFsGetDeviceFromPath t.devices e.path = some e.deviceIndex) (childNum : ℕ) :
    listing t volumes fats e childNum = match d.type with
      | .block _ .customMiniFs =>
          if e.path.length+1 < KernelFsPathMax then
            listNames e.path childNum 0 ((volumes e.deviceIndex).files.map File.name)
          else .error .outOfBounds
      | .block _ .fat => listFat e.path [] (fats e.deviceIndex) childNum
      | .directory => .ok (childMounts t.devices e.path 0 KernelFsDevicesMax)[childNum]?
      | _ => .ok none := by
  have hself : fdIsDevice t e = true := by
    obtain ⟨_, d', hd', hmp⟩ := getDevice_some hi
    rw [hd, Option.some.injEq] at hd'
    rw [fdIsDevice_iff hd, hd', hmp]
  rw [listing, hi, hself, if_pos (by simp), hd]
  rfl

/-- The fd is below the device it caches. -/
theorem listing_below {d : KernelFsDevice} (hd : t.devices e.deviceIndex = some d)
    (hne : d.mountPoint ≠ e.path) (childNum : ℕ) :
    listing t volumes fats e childNum = match d.type with
      | .block _ .fat => listFat e.path (kstrO e.path (kstrStrlen d.mountPoint+1))
          (fats e.deviceIndex) childNum
      | _ => .ok none := by
  have hself : fdIsDevice t e = false :=
    Bool.eq_false_iff.mpr (fun h => hne ((fdIsDevice_iff hd).mp h))
  have hother : (kernelFsGetDeviceFromPath t.devices e.path == some e.deviceIndex) = false := by
    rw [beq_eq_false_iff_ne]
    intro hi
    obtain ⟨_, d', hd', hmp⟩ := getDevice_some hi
    rw [hd, Option.some.injEq] at hd'
    exact hne (hd' ▸ hmp)
  rw [listing, hother, hself, if_pos rfl, hd]
  rfl

/-- Everything else fails the assertion about the cached device. -/
theorem listing_some {childNum : ℕ} {child : CStr}
    (h : listing t volumes fats e childNum = .ok (some child)) :
    ∃ d, t.devices e.deviceIndex = some d ∧
      (kernelFsGetDeviceFromPath t.devices e.path = some e.deviceIndex ∨
        d.mountPoint ≠ e.path) := by
  rw [listing] at h
  split at h
  · rename_i hcache
    cases hd : t.devices e.deviceIndex with
    | none =>
      rw [hd] at h
      cases h
    | some d =>
      refine ⟨d, rfl, ?_⟩
      by_cases hmp : d.mountPoint = e.path
      · rw [(fdIsDevice_iff hd).mpr hmp] at hcache
        exact Or.inl (beq_iff_eq.mp hcache)
      · exact Or.inr hmp
  · cases h

theorem listed_present (hv : kernelFsPathIsValid e.path = true)
    (h : ListsPresent t volumes fats e) {childNum : ℕ} {child : CStr}
    (hchild : listing t volumes fats e childNum = .ok (some child)) :
    Present t.devices volumes fats child := by
  obtain ⟨d, hd, hi | hne⟩ := listing_some hchild
  · rw [listing_self hd hi] at hchild
    cases htype : d.type with
    | block n format =>
      rw [htype] at hchild
      cases format with
      | customMiniFs =>
        dsimp only at hchild
        split at hchild
        · rename_i hroom
          obtain ⟨k, name, hk, _, rfl⟩ := (listNames_some e.path hroom _ 0 childNum child).mp hchild
          have hmem := List.mem_of_getElem? hk
          rcases h.miniFs d n hi hd htype name hmem with hplain | hpresent
          · refine present_join hv hi hd hplain (Or.inl ⟨⟨n, htype⟩, ?_⟩)
            rw [namesThatFit, if_pos hroom] at hmem
            exact List.mem_map.mp ((List.takeWhile_prefix _).subset hmem)
          · exact hpresent
        · cases hchild
      | fat =>
        obtain ⟨name, hfits, hnum, hname, rfl⟩ := (listFat_some _ _ _ _ _).mp hchild
        rcases h.fat d n hi hd htype name ⟨hfits, childNum, hnum, hname⟩ with ⟨hplain, hhas⟩ | hpresent
        · exact present_join hv hi hd hplain (Or.inr ⟨⟨n, htype⟩, hhas⟩)
        · exact hpresent
      | flatFile => cases hchild
      | nb => cases hchild
    | character many =>
      rw [htype] at hchild
      cases hchild
    | directory =>
      rw [htype] at hchild
      have hmem := List.mem_of_getElem? (Except.ok.inj hchild)
      obtain ⟨i, hi, d', hd', _, rfl⟩ := mem_childMounts.mp hmem
      exact Or.inl (getDevice_mounted hi hd')
  · rw [listing_below hd hne] at hchild
    cases htype : d.type with
    | block n format =>
      rw [htype] at hchild
      cases format with
      | fat =>
        obtain ⟨name, hfits, hnum, hname, rfl⟩ := (listFat_some _ _ _ _ _).mp hchild
        exact h.below d n hd hne htype name ⟨hfits, childNum, hnum, hname⟩
      | customMiniFs => cases hchild
      | flatFile => cases hchild
      | nb => cases hchild
    | character many =>
      rw [htype] at hchild
      cases hchild
    | directory =>
      rw [htype] at hchild
      cases hchild

theorem listing_present (hv : kernelFsPathIsValid e.path = true) :
    (∀ childNum child, listing t volumes fats e childNum = .ok (some child) →
      Present t.devices volumes fats child) ↔ ListsPresent t volumes fats e := by
  constructor
  · intro h
    constructor
    · intro d n hi hd htype name hname
      have hroom : e.path.length+1 < KernelFsPathMax := by
        by_contra hno
        rw [namesThatFit, if_neg hno] at hname
        cases hname
      obtain ⟨k, hk⟩ := List.mem_iff_getElem?.mp hname
      refine Or.inr (h k _ ?_)
      rw [listing_self hd hi, htype]
      dsimp only
      rw [if_pos hroom]
      exact (listNames_some e.path hroom _ 0 k _).mpr ⟨k, name, hk, Nat.zero_add k, rfl⟩
    · rintro d n hi hd htype name ⟨hfits, k, hk, hname⟩
      refine Or.inr (h k _ ?_)
      rw [listing_self hd hi, htype]
      exact (listFat_some _ _ _ _ _).mpr ⟨name, hfits, hk, hname, rfl⟩
    · rintro d n hd hne htype name ⟨hfits, k, hk, hname⟩
      refine h k _ ?_
      rw [listing_below hd hne, htype]
      exact (listFat_some _ _ _ _ _).mpr ⟨name, hfits, hk, hname, rfl⟩
  · exact fun h childNum child hchild => listed_present hv h hchild

end Listed

/-! ### The theorem -/

section Both

variable {σ : Type} {f : Functors σ} {fat : FatFns}
  {fatDirGetChildN : fat.Fat → CStr → ℕ → Prog (Option CStr)} {t : Tables} {I : σ → Prop}
  {volumes : ℕ → Volume} {fats : ℕ → FatContents} (hd : MountPoints t.devices)
  (hs : ShowsVolumes f fat fatDirGetChildN t.devices I volumes fats) {s : σ} (hI : I s)
include hd hs hI

theorem exists_present {path : CStr} :
    (∃ s', kernelFsFileExists f fat t path s = .ok (true, s')) ↔
      Present t.devices volumes fats path := by
  by_cases hp : kernelFsPathIsValid path = true
  · obtain ⟨b, hgives, hb⟩ := gives_exists hs hp
    obtain ⟨s', hrun, _⟩ := hgives s hI
    rw [Present, hrun, and_iff_right hp, ← hb]
    constructor
    · rintro ⟨_, h⟩
      cases h
      rfl
    · rintro rfl
      exact ⟨s', rfl⟩
  · -- no device has an invalid mount point, and splitting the path fails an assertion
    have hnone : kernelFsGetDeviceFromPath t.devices path = none := by
      rw [getDevice_none]
      rintro i hi d hdi rfl
      exact hp (hd.valid i hi d hdi).1
    have hrun : kernelFsFileExists f fat t path s = .error .assertFailed := by
      rw [kernelFsFileExists, kernelFsPathIsDevice, hnone, kernelFsPathSplit, if_neg hp]
      rfl
    apply iff_of_false
    · rintro ⟨s', h⟩
      rw [hrun] at h
      cases h
    · rintro (⟨i, hi⟩ | ⟨hv, _⟩)
      · rw [hnone] at hi
        cases hi
      · exact hp hv

theorem listedExist_iff {fd : ℕ} {e : KernelFsFdtEntry} (he : OpenForReading t fd e) :
    ListedExist f fat fatDirGetChildN t s fd ↔ ListsPresent t volumes fats e := by
  rw [← listing_present he.valid]
  constructor
  · intro h childNum child hchild
    have hgives := gives_getChild hd hs he childNum
    rw [hchild] at hgives
    obtain ⟨s₁, hrun, hI₁⟩ := hgives s hI
    exact (exists_present hd hs hI₁).mp (h childNum child s₁ hrun)
  · intro h childNum child s₁ hrun
    have hgives := gives_getChild hd hs he childNum s hI
    cases hlist : listing t volumes fats e childNum with
    | error fault =>
      rw [hlist] at hgives
      dsimp only at hgives
      rw [hrun] at hgives
      cases hgives
    | ok r =>
      rw [hlist] at hgives
      obtain ⟨s₂, hrun₂, hI₂⟩ := hgives
      rw [hrun] at hrun₂
      cases hrun₂
      exact (exists_present hd hs hI₂).mpr (h childNum child hlist)

end Both

/-- A volume without an entry. -/
def blankFat : FatContents where
  fs := ⟨fun _ len => List.replicate len 0, 512, 1, 33, 65, .fat16, 1⟩
  found _ := 0
  child _ _ := none
  found_spec _ := ⟨1, rfl⟩
  child_spec path childNum _ := by
    refine ⟨1, ?_⟩
    by_cases hroot : kstrStrlen path = 0
    · rw [fatDirGetChildN, fatDirBaseOffset, if_pos hroot]
      rfl
    · rw [fatDirGetChildN, fatDirBaseOffset, if_neg hroot]
      rfl

theorem volumeTables_mountPoints : MountPoints volumeTables.devices :=
  (deviceTable_valid (by decide) (by decide) (by decide) (by decide)).mountPoints

theorem volumeTables_shows :
    ShowsVolumes (volumePlatform.functors volumeTables) noFat (fun vol => vol.elim) volumeTables.devices
      (· = emptyImage) (fun _ => emptyVolume) (fun _ => blankFat) := by
  have hslots : ∀ i d, volumeTables.devices i = some d →
      d = directoryDevice "/" ∨ d = volumeDevice := by
    intro i d hd
    have hmem := List.mem_of_getElem? hd
    simpa using hmem
  constructor
  · intro i _ d n hd htype
    rcases hslots i d hd with rfl | rfl
    · cases htype
    · refine ⟨1024, emptyImage, ?_, emptyImage_holds⟩
      rintro addr len hin s rfl
      refine ⟨emptyImage, ?_, rfl⟩
      change Except.ok ((slice emptyImage addr len, u16 len), emptyImage) = _
      rw [u16_of_lt (by omega)]
  · intro i _ d n hd htype
    rcases hslots i d hd with rfl | rfl
    · cases htype
    · cases htype
  · intro i _ d n hd htype
    rcases hslots i d hd with rfl | rfl
    · cases htype
    · cases htype

/-- The root and a directory of devices. -/
def devTables : Tables :=
  ⟨fun _ => none, deviceTable [directoryDevice "/", directoryDevice "/dev"], []⟩

end ArduinoOS.Kernel
