import ArduinoOS.Kernel.Descriptors
import ArduinoOS.Kernel.Mount

/-!
# What mounting does

A mount takes a descriptor, an entry in the table of mounted devices and a slot
of the device table, in this order, and its error label gives back the first
two. Its outcomes follow from those of adding a device.
-/

set_option autoImplicit false

namespace ArduinoOS.Kernel
open ArduinoOS.ByteProgram ArduinoOS.Faulting ArduinoOS.Minifs

variable {σ : Type} (p : Platform σ)

/-! ### Adding a device -/

/-- The device is in a slot that was free, and the only one at its mount point. -/
structure Added (t t' : Tables) (slot : ℕ) (d : KernelFsDevice) : Prop where
  range : slot < KernelFsDevicesMax
  free : t.devices slot = none
  fresh : kernelFsGetDeviceFromPath t.devices d.mountPoint = none
  tables : t' = t.setDevice slot (some d)

theorem emptySlot_free {devices : Devices} {slot : ℕ} (h : emptySlot devices = some slot) :
    slot < KernelFsDevicesMax ∧ devices slot = none := by
  rw [emptySlot, List.find?_range_eq_some] at h
  exact ⟨List.mem_range.mp h.2.1, by simpa using h.1⟩

theorem setDevice_none_same {t : Tables} {slot : ℕ} (h : t.devices slot = none) :
    t.setDevice slot none = t := by
  rw [Tables.setDevice]
  congr 1
  funext i
  by_cases hi : i = slot
  · rw [if_pos hi, hi, h]
  · rw [if_neg hi]

theorem setDevice_twice (t : Tables) (slot : ℕ) (d d' : Option KernelFsDevice) :
    (t.setDevice slot d).setDevice slot d' = t.setDevice slot d' := by
  simp only [Tables.setDevice]
  congr 1
  funext i
  by_cases hi : i = slot
  · rw [if_pos hi, if_pos hi]
  · rw [if_neg hi, if_neg hi, if_neg hi]

theorem fileExists_of_device {f : Functors σ} {fat : FatFns} {t : Tables} {path : CStr} {h h' : σ}
    (hx : kernelFsFileExists f fat t path h = .ok (false, h')) :
    kernelFsGetDeviceFromPath t.devices path = none := by
  rw [kernelFsFileExists] at hx
  by_cases hdev : kernelFsPathIsDevice t.devices path = true
  · rw [if_pos hdev] at hx
    cases (pure_ok.mp hx).1
  · rwa [kernelFsPathIsDevice, Bool.not_eq_true, Option.isSome_eq_false_iff,
      Option.isNone_iff_eq_none] at hdev

theorem parentExists_ok {mountPoint : CStr} {b : Bool} {s s' : Tables × σ}
    (h : kernelFsParentExists p mountPoint s = .ok (b, s')) : s'.1 = s.1 := by
  rw [kernelFsParentExists] at h
  by_cases hroot : mountPoint = rootPath
  · rw [if_pos hroot] at h
    rw [(pure_ok.mp h).2]
  rw [if_neg hroot] at h
  cases hsplit : kernelFsPathSplit mountPoint with
  | none =>
    rw [hsplit] at h
    exact absurd h throw_ok
  | some parts =>
    obtain ⟨dirname, basename⟩ := parts
    rw [hsplit] at h
    obtain ⟨e, s₁, hexists, h₁⟩ := bind_ok.mp h
    have hs₁ := ((access_ok p).mp hexists).2
    by_cases he : e = false
    · rw [if_pos he] at h₁
      rw [(pure_ok.mp h₁).2, hs₁]
    · rw [if_neg he] at h₁
      rw [((access_ok p).mp h₁).2, hs₁]

theorem addDevice_cases {d : KernelFsDevice} {r : Option ℕ} {s s' : Tables × σ}
    (h : kernelFsAddDeviceFile p d s = .ok (r, s')) :
    (r = none ∧ s'.1 = s.1) ∨ ∃ slot, r = some slot ∧ Added s.1 s'.1 slot d := by
  rw [kernelFsAddDeviceFile] at h
  obtain ⟨e, s₁, hexists, h₁⟩ := bind_ok.mp h
  obtain ⟨hx, hs₁⟩ := (access_ok p).mp hexists
  by_cases he : e = true
  · rw [if_pos he] at h₁
    obtain ⟨hr, hs'⟩ := pure_ok.mp h₁
    exact Or.inl ⟨hr, by rw [hs', hs₁]⟩
  rw [if_neg he] at h₁
  rw [Bool.not_eq_true] at he
  rw [he] at hx
  have hfresh := fileExists_of_device hx
  obtain ⟨par, s₂, hparent, h₂⟩ := bind_ok.mp h₁
  have hs₂ := parentExists_ok p hparent
  by_cases hp : par = false
  · rw [if_pos hp] at h₂
    obtain ⟨hr, hs'⟩ := pure_ok.mp h₂
    exact Or.inl ⟨hr, by rw [hs', hs₂, hs₁]⟩
  rw [if_neg hp] at h₂
  obtain ⟨t, s₃, hget, h₃⟩ := bind_ok.mp h₂
  obtain ⟨ht, hs₃⟩ := getFirst_ok.mp hget
  have hst : t = s.1 := by rw [ht, hs₂, hs₁]
  rw [hst] at h₃
  cases hslot : emptySlot s.1.devices with
  | none =>
    rw [hslot] at h₃
    obtain ⟨hr, hs'⟩ := pure_ok.mp h₃
    exact Or.inl ⟨hr, by rw [hs', hs₃, hs₂, hs₁]⟩
  | some slot =>
    rw [hslot] at h₃
    obtain ⟨u, s₄, hset, h₄⟩ := bind_ok.mp h₃
    obtain ⟨hr, hs'⟩ := pure_ok.mp h₄
    have hfree := emptySlot_free hslot
    exact Or.inr ⟨slot, hr, hfree.1, hfree.2, hfresh, by rw [hs', setFirst_ok.mp hset]⟩

theorem addCharacter_cases {mountPoint : CStr} {functor : KernelFsDeviceFunctor} {userData : ℕ}
    {canOpenMany writable b : Bool} {s s' : Tables × σ}
    (h : kernelFsAddCharacterDeviceFile p mountPoint functor userData canOpenMany writable s =
      .ok (b, s')) :
    (b = false ∧ s'.1 = s.1) ∨ (b = true ∧ ∃ slot, Added s.1 s'.1 slot
      ⟨mountPoint, functor, userData, .character (canOpenMany || !writable), writable⟩) := by
  rw [kernelFsAddCharacterDeviceFile] at h
  by_cases hnull : functor = .null
  · rw [if_pos hnull] at h
    exact absurd h throw_ok
  rw [if_neg hnull] at h
  obtain ⟨r, s₁, hadd, h₁⟩ := bind_ok.mp h
  obtain ⟨hb, hs'⟩ := pure_ok.mp h₁
  rw [hb, hs']
  rcases addDevice_cases p hadd with ⟨hr, hs₁⟩ | ⟨slot, hr, hadded⟩
  · exact Or.inl ⟨by rw [hr]; rfl, hs₁⟩
  · exact Or.inr ⟨by rw [hr]; rfl, slot, hadded⟩

theorem blockDeviceMounts_ok {slot : ℕ} {format : KernelFsBlockDeviceFormat} {b : Bool}
    {s s' : Tables × σ} (h : blockDeviceMounts p slot format s = .ok (b, s')) : s'.1 = s.1 :=
  ((access_ok p).mp h).2

/-- A block device that cannot be mounted is taken out again. -/
theorem addBlock_cases {mountPoint : CStr} {functor : KernelFsDeviceFunctor} {userData size : ℕ}
    {format : KernelFsBlockDeviceFormat} {writable b : Bool} {s s' : Tables × σ}
    (h : kernelFsAddBlockDeviceFile p mountPoint functor userData format size writable s =
      .ok (b, s')) :
    (b = false ∧ s'.1 = s.1) ∨ (b = true ∧ ∃ slot, Added s.1 s'.1 slot
      ⟨mountPoint, functor, userData, .block size format, writable⟩) := by
  rw [kernelFsAddBlockDeviceFile] at h
  by_cases hnull : functor = .null
  · rw [if_pos hnull] at h
    exact absurd h throw_ok
  rw [if_neg hnull] at h
  obtain ⟨r, s₁, hadd, h₁⟩ := bind_ok.mp h
  rcases addDevice_cases p hadd with ⟨hr, hs₁⟩ | ⟨slot, hr, hadded⟩
  · rw [hr] at h₁
    obtain ⟨hb, hs'⟩ := pure_ok.mp h₁
    exact Or.inl ⟨hb, by rw [hs', hs₁]⟩
  · rw [hr] at h₁
    obtain ⟨mounts, s₂, hmounts, h₂⟩ := bind_ok.mp h₁
    have hs₂ := blockDeviceMounts_ok p hmounts
    by_cases hm : mounts = true
    · rw [if_pos hm] at h₂
      obtain ⟨hb, hs'⟩ := pure_ok.mp h₂
      refine Or.inr ⟨hb, slot, ?_⟩
      rw [hs', hs₂]
      exact hadded
    · rw [if_neg hm] at h₂
      obtain ⟨u, s₃, hremove, h₃⟩ := bind_ok.mp h₂
      obtain ⟨hb, hs'⟩ := pure_ok.mp h₃
      refine Or.inl ⟨hb, ?_⟩
      rw [kernelFsRemoveDeviceFileRaw] at hremove
      obtain ⟨t, s₄, hget, hset⟩ := bind_ok.mp hremove
      obtain ⟨ht, _⟩ := getFirst_ok.mp hget
      rw [hs', setFirst_ok.mp hset, ht, hs₂, hadded.tables]
      dsimp only
      rw [setDevice_twice, setDevice_none_same hadded.free]

/-! ### The format-specific part -/

/-- The device of a mount. -/
def mountedDevice (dirPath : CStr) (fd : ℕ) (type : KernelFsDeviceType) : KernelFsDevice :=
  ⟨dirPath, .kernelMountFsFunctor, fd, type, true⟩

theorem mountBlockDevice_cases {dirPath : CStr} {fd size : ℕ}
    {format : KernelFsBlockDeviceFormat} {b : Bool} {s s' : Tables × σ}
    (h : mountBlockDevice p dirPath fd format size s = .ok (b, s')) :
    (b = false ∧ s'.1 = s.1) ∨ (b = true ∧ ∃ slot, Added s.1 s'.1 slot
      (mountedDevice dirPath fd (.block size format))) := by
  rw [mountBlockDevice] at h
  obtain ⟨hasMemory, s₁, hmem, h₁⟩ := bind_ok.mp h
  have hs₁ := kstrC_ok p hmem
  by_cases hm : hasMemory = false
  · rw [if_pos hm] at h₁
    exact absurd h₁ throw_ok
  · rw [if_neg hm] at h₁
    rw [← hs₁]
    exact addBlock_cases p h₁

theorem mountCircBufDevice_cases {devicePath dirPath : CStr} {fd : ℕ} {b : Bool}
    {s s' : Tables × σ} (h : mountCircBufDevice p devicePath dirPath fd s = .ok (b, s')) :
    (b = false ∧ s'.1 = s.1) ∨ (b = true ∧ ∃ slot, Added s.1 s'.1 slot
      (mountedDevice dirPath fd (.character true))) := by
  rw [mountCircBufDevice] at h
  obtain ⟨len, s₁, hlen, h₁⟩ := bind_ok.mp h
  have hs₁ := ((access_ok p).mp hlen).2
  by_cases hl : len < 4
  · rw [if_pos hl] at h₁
    obtain ⟨hb, hs'⟩ := pure_ok.mp h₁
    exact Or.inl ⟨hb, by rw [hs', hs₁]⟩
  rw [if_neg hl] at h₁
  obtain ⟨hasMemory, s₂, hmem, h₂⟩ := bind_ok.mp h₁
  have hs₂ := kstrC_ok p hmem
  by_cases hm : hasMemory = false
  · rw [if_pos hm] at h₂
    exact absurd h₂ throw_ok
  · rw [if_neg hm] at h₂
    rw [← hs₁, ← hs₂]
    exact addCharacter_cases p h₂

theorem mountCircBufOffsets_ok {fd : ℕ} {b : Bool} {s s' : Tables × σ}
    (h : mountCircBufOffsets p fd s = .ok (b, s')) : s'.1 = s.1 := by
  rw [mountCircBufOffsets] at h
  obtain ⟨head, s₁, hhead, h₁⟩ := bind_ok.mp h
  have hs₁ := ((access_ok p).mp hhead).2
  by_cases hh : head = false
  · rw [if_pos hh] at h₁
    rw [(pure_ok.mp h₁).2, hs₁]
  · rw [if_neg hh] at h₁
    rw [((access_ok p).mp h₁).2, hs₁]

/-- The device of a circular buffer is added, and the backing file refuses an
offset. -/
def OffsetsRefused (format : ℕ) (devicePath dirPath : CStr) (fd : ℕ) (s : Tables × σ) : Prop :=
  format = KernelMountFormatCircBuf ∧ ∃ s₁ s₂,
    mountCircBufDevice p devicePath dirPath fd s = .ok (true, s₁) ∧
    mountCircBufOffsets p fd s₁ = .ok (false, s₂)

/-- The device type that belongs to a format. -/
def FormatType : ℕ → KernelFsDeviceType → Prop
  | format, .block _ .customMiniFs => format = KernelMountFormatMiniFs
  | format, .block _ .flatFile => KernelMountFormatFlatFile ≤ format ∧
      format ≤ KernelMountFormatPartition4
  | format, .block _ .fat => format = KernelMountFormatFat
  | _, .block _ .nb => False
  | format, .character _ => format = KernelMountFormatCircBuf
  | _, .directory => False

theorem mountFormat_cases {format : ℕ} {devicePath dirPath : CStr} {fd : ℕ} {b : Bool}
    {s s' : Tables × σ} (h : kernelMountFormat p format devicePath dirPath fd s = .ok (b, s')) :
    (b = false ∧ s'.1 = s.1) ∨
    (b = true ∧ ∃ slot type, FormatType format type ∧
      Added s.1 s'.1 slot (mountedDevice dirPath fd type)) ∨
    (b = true ∧ KernelMountFormatFat < format ∧ s'.1 = s.1) ∨
    (b = false ∧ OffsetsRefused p format devicePath dirPath fd s ∧
      ∃ slot d, Added s.1 s'.1 slot d) := by
  have hblock : ∀ {blockFormat size} {s₁ : Tables × σ}, s₁.1 = s.1 →
      FormatType format (.block size blockFormat) →
      mountBlockDevice p dirPath fd blockFormat size s₁ = .ok (b, s') →
      (b = false ∧ s'.1 = s.1) ∨ (b = true ∧ ∃ slot type, FormatType format type ∧
        Added s.1 s'.1 slot (mountedDevice dirPath fd type)) := by
    intro blockFormat size s₁ hs₁ htype hadd
    rw [← hs₁]
    rcases mountBlockDevice_cases p hadd with hfail | ⟨hb, slot, hadded⟩
    · exact Or.inl hfail
    · exact Or.inr ⟨hb, slot, _, htype, hadded⟩
  have hwiden : (b = false ∧ s'.1 = s.1) ∨ (b = true ∧ ∃ slot type, FormatType format type ∧
        Added s.1 s'.1 slot (mountedDevice dirPath fd type)) →
      (b = false ∧ s'.1 = s.1) ∨
      (b = true ∧ ∃ slot type, FormatType format type ∧
        Added s.1 s'.1 slot (mountedDevice dirPath fd type)) ∨
      (b = true ∧ KernelMountFormatFat < format ∧ s'.1 = s.1) ∨
      (b = false ∧ OffsetsRefused p format devicePath dirPath fd s ∧
        ∃ slot d, Added s.1 s'.1 slot d) := by
    rintro (hfail | hdone)
    · exact Or.inl hfail
    · exact Or.inr (Or.inl hdone)
  rw [kernelMountFormat] at h
  by_cases hmini : format = KernelMountFormatMiniFs
  · rw [if_pos hmini] at h
    obtain ⟨size, s₁, hlen, h₁⟩ := bind_ok.mp h
    have htype : FormatType format (.block size .customMiniFs) := hmini
    exact hwiden (hblock ((access_ok p).mp hlen).2 htype h₁)
  rw [if_neg hmini] at h
  by_cases hflat : format = KernelMountFormatFlatFile
  · rw [if_pos hflat] at h
    obtain ⟨size, s₁, hlen, h₁⟩ := bind_ok.mp h
    have htype : FormatType format (.block size .flatFile) := by
      rw [hflat]
      exact ⟨by decide, by decide⟩
    exact hwiden (hblock ((access_ok p).mp hlen).2 htype h₁)
  rw [if_neg hflat] at h
  by_cases hpart : KernelMountFormatPartition1 ≤ format ∧ format ≤ KernelMountFormatPartition4
  · rw [if_pos hpart] at h
    obtain ⟨entry, s₁, hentry, h₁⟩ := bind_ok.mp h
    have hs₁ := ((access_ok p).mp hentry).2
    cases entry with
    | none =>
      obtain ⟨hb, hs'⟩ := pure_ok.mp h₁
      exact Or.inl ⟨hb, by rw [hs', hs₁]⟩
    | some entry =>
      have htype : ∀ size, FormatType format (.block size .flatFile) :=
        fun _ => ⟨le_trans (by decide) hpart.1, hpart.2⟩
      exact hwiden (hblock hs₁ (htype _) h₁)
  rw [if_neg hpart] at h
  by_cases hcirc : format = KernelMountFormatCircBuf
  · rw [if_pos hcirc] at h
    obtain ⟨added, s₁, hdevice, h₁⟩ := bind_ok.mp h
    rcases mountCircBufDevice_cases p hdevice with ⟨hadd, hs₁⟩ | ⟨hadd, slot, hadded⟩
    · rw [if_pos hadd] at h₁
      obtain ⟨hb, hs'⟩ := pure_ok.mp h₁
      exact Or.inl ⟨hb, by rw [hs', hs₁]⟩
    · rw [if_neg (by rw [hadd]; decide)] at h₁
      rw [hadd] at hdevice
      have hs' := mountCircBufOffsets_ok p h₁
      cases b with
      | true =>
        have htype : FormatType format (.character true) := hcirc
        exact Or.inr (Or.inl ⟨rfl, slot, _, htype, by rw [hs']; exact hadded⟩)
      | false =>
        exact Or.inr (Or.inr (Or.inr ⟨rfl, ⟨hcirc, s₁, s', hdevice, h₁⟩, slot, _,
          by rw [hs']; exact hadded⟩))
  rw [if_neg hcirc] at h
  by_cases hfat : format = KernelMountFormatFat
  · rw [if_pos hfat] at h
    obtain ⟨size, s₁, hlen, h₁⟩ := bind_ok.mp h
    have htype : FormatType format (.block size .fat) := hfat
    exact hwiden (hblock ((access_ok p).mp hlen).2 htype h₁)
  · rw [if_neg hfat] at h
    obtain ⟨hb, hs'⟩ := pure_ok.mp h
    refine Or.inr (Or.inr (Or.inl ⟨hb, ?_, by rw [hs']⟩))
    simp only [KernelMountFormatMiniFs, KernelMountFormatFlatFile, KernelMountFormatPartition1,
      KernelMountFormatPartition4, KernelMountFormatCircBuf, KernelMountFormatFat] at *
    omega

theorem mountFormat_unknown {format : ℕ} {devicePath dirPath : CStr} {fd : ℕ} {s : Tables × σ}
    (h : KernelMountFormatFat < format) :
    kernelMountFormat p format devicePath dirPath fd s = .ok (true, s) := by
  simp only [KernelMountFormatFat] at h
  rw [kernelMountFormat, if_neg (by simp only [KernelMountFormatMiniFs]; omega),
    if_neg (by simp only [KernelMountFormatFlatFile]; omega),
    if_neg (by simp only [KernelMountFormatPartition1, KernelMountFormatPartition4]; omega),
    if_neg (by simp only [KernelMountFormatCircBuf]; omega),
    if_neg (by simp only [KernelMountFormatFat]; omega)]
  rfl

theorem mountFormat_circBuf {devicePath dirPath : CStr} {fd : ℕ} {s s₁ : Tables × σ}
    (h : mountCircBufDevice p devicePath dirPath fd s = .ok (true, s₁)) :
    kernelMountFormat p KernelMountFormatCircBuf devicePath dirPath fd s =
      mountCircBufOffsets p fd s₁ := by
  rw [kernelMountFormat, if_neg (by decide), if_neg (by decide), if_neg (by decide),
    if_pos rfl, bind_of_ok h]
  rfl

/-! ### Mounting -/

/-- The tables while the format-specific part runs. -/
def mountPending (t : Tables) (devicePath : CStr) (fd i format : ℕ) : Tables :=
  (t.setFd fd (some (openedEntry devicePath KernelFsFdModeRW i))).setMounted
    (t.mounted++[⟨u8 format, fd⟩])

/-- The paths are valid and there is room for another mounted device. -/
structure MountRoom (t : Tables) (devicePath dirPath : CStr) : Prop where
  device : kernelFsPathIsValid devicePath = true
  dir : kernelFsPathIsValid dirPath = true
  room : t.mounted.length < kernelMountedDevicesMax

/-- The backing file has been opened: its descriptor and its cached index. -/
structure MountOpened (t : Tables) (devicePath : CStr) (fd i : ℕ) : Prop where
  openable : Openable t devicePath KernelFsFdModeRW
  valid : fd ≠ KernelFsFdInvalid
  range : fd < KernelFsFdMax
  free : t.fdt fd = none
  index : cachedIndex t.devices devicePath = some i

/-- A slot, a descriptor and an entry, all new. -/
structure Mounts (t t' : Tables) (format : ℕ) (devicePath dirPath : CStr) (fd i slot : ℕ)
    (type : KernelFsDeviceType) : Prop where
  room : MountRoom t devicePath dirPath
  opened : MountOpened t devicePath fd i
  formatType : FormatType format type
  slotRange : slot < KernelFsDevicesMax
  slotFree : t.devices slot = none
  fresh : kernelFsGetDeviceFromPath t.devices dirPath = none
  tables : t' = (mountPending t devicePath fd i format).setDevice slot
    (some (mountedDevice dirPath fd type))

/-- The error label undoes the pending changes. -/
theorem pending_undone (t : Tables) (devicePath : CStr) (fd i format : ℕ)
    (h : t.fdt fd = none) :
    ((mountPending t devicePath fd i format).setMounted
      (mountPending t devicePath fd i format).mounted.dropLast).setFd fd none = t := by
  rw [mountPending]
  simp only [Tables.setMounted, Tables.setFd, List.dropLast_concat]
  congr 1
  funext k
  by_cases hk : k = fd
  · rw [if_pos hk, hk, h]
  · rw [if_neg hk, if_neg hk]

theorem pushMounted_run (d : KernelMountDevice) (s : Tables × σ) :
    (pushMounted d : KernelRun σ Unit) s = .ok ((), (s.1.setMounted (s.1.mounted++[d]), s.2)) := rfl

theorem popMounted_run (s : Tables × σ) :
    (popMounted : KernelRun σ Unit) s = .ok ((), (s.1.setMounted s.1.mounted.dropLast, s.2)) := rfl

/-- Closing the only reference. -/
theorem close_opened {t : Tables} {fd : ℕ} {path : CStr} {mode i : ℕ} (hlt : fd < KernelFsFdMax)
    (he : t.fdt fd = some (openedEntry path mode i)) (hm : 1 ≤ mode ∧ mode ≤ 3) :
    kernelFsFileClose t fd = .ok (0, t.setFd fd none) := by
  have hone := (spareMake_good hm (by decide : 1 < 8)).2
  have hleft : u32 (kernelFsFdPathSpareGetRefCount
      (openedEntry path mode i).spare+4294967295) = 0 := by
    rw [openedEntry, hone]
    rfl
  rw [kernelFsFileClose, if_pos hlt, he]
  dsimp only
  rw [if_pos hleft, hleft]

theorem onTables_run {α : Type} {x : Tables → Except Fault (α × Tables)} {a : α} {t : Tables}
    {s : Tables × σ} (h : x s.1 = .ok (a, t)) :
    (onTables x : KernelRun σ α) s = .ok (a, (t, s.2)) := by
  have hget : (getFirst : KernelRun σ Tables) s = .ok (s.1, s) := rfl
  have hx : (fromExcept (x s.1) : KernelRun σ (α × Tables)) s = .ok ((a, t), s) :=
    fromExcept_ok.mpr ⟨h, rfl⟩
  rw [onTables, bind_of_ok hget, bind_of_ok hx]
  rfl

/-- The part after the backing file has been opened. -/
def mountOpened (format : ℕ) (devicePath dirPath : CStr) (deviceFd : ℕ) : KernelRun σ Bool := do
  let ok ← kernelMountFormat p format devicePath dirPath deviceFd
  if ok then pure true
  else do
    popMounted
    let _ ← fileClose deviceFd
    pure false

theorem kernelMount_room {format : ℕ} {devicePath dirPath : CStr} {s : Tables × σ}
    (h : MountRoom s.1 devicePath dirPath) :
    kernelMount p format devicePath dirPath s =
      (kernelFsFileOpen p devicePath KernelFsFdModeRW >>= fun deviceFd =>
        if deviceFd = KernelFsFdInvalid then pure false
        else do
          pushMounted ⟨u8 format, deviceFd⟩
          mountOpened p format devicePath dirPath deviceFd) s := by
  have hget : (getFirst : KernelRun σ Tables) s = .ok (s.1, s) := rfl
  rw [kernelMount, if_neg (by rw [h.device, h.dir]; decide), bind_of_ok hget,
    if_neg (by have := h.room; omega)]
  rfl

/-- Without room nothing happens. -/
theorem kernelMount_noRoom {format : ℕ} {devicePath dirPath : CStr} {s : Tables × σ}
    (h : ¬ MountRoom s.1 devicePath dirPath) :
    kernelMount p format devicePath dirPath s = .ok (false, s) := by
  have hget : (getFirst : KernelRun σ Tables) s = .ok (s.1, s) := rfl
  rw [kernelMount]
  by_cases hpaths : kernelFsPathIsValid devicePath = false ∨ kernelFsPathIsValid dirPath = false
  · rw [if_pos hpaths]
    rfl
  rw [if_neg hpaths, bind_of_ok hget]
  by_cases hroom : s.1.mounted.length ≥ kernelMountedDevicesMax
  · rw [if_pos hroom]
    rfl
  · rw [not_or, Bool.not_eq_false, Bool.not_eq_false] at hpaths
    exact absurd ⟨hpaths.1, hpaths.2, by omega⟩ h

/-- The mount goes on from the pending tables. -/
theorem kernelMount_opened {format : ℕ} {devicePath dirPath : CStr} {fd : ℕ} {s s₁ : Tables × σ}
    (hroom : MountRoom s.1 devicePath dirPath)
    (hopen : kernelFsFileOpen p devicePath KernelFsFdModeRW s = .ok (fd, s₁))
    (hfd : fd ≠ KernelFsFdInvalid) : ∃ i, MountOpened s.1 devicePath fd i ∧
      kernelMount p format devicePath dirPath s = mountOpened p format devicePath dirPath fd
        (mountPending s.1 devicePath fd i format, s₁.2) := by
  obtain ⟨hopenable, hlt, hfree, i, hi, hs₁⟩ := open_entry p hopen hfd
  refine ⟨i, ⟨hopenable, hfd, hlt, hfree, hi⟩, ?_⟩
  rw [kernelMount_room p hroom, bind_of_ok hopen, if_neg hfd, bind_of_ok (pushMounted_run _ _),
    hs₁]
  rfl

theorem mountOpened_ok {format : ℕ} {devicePath dirPath : CStr} {fd : ℕ} {s s₁ : Tables × σ}
    (h : kernelMountFormat p format devicePath dirPath fd s = .ok (true, s₁)) :
    mountOpened p format devicePath dirPath fd s = .ok (true, s₁) := by
  rw [mountOpened, bind_of_ok h, if_pos rfl]
  rfl

/-- The error label: the mounted entry is dropped and the descriptor closed. -/
theorem mountOpened_error {format : ℕ} {devicePath dirPath : CStr} {fd i : ℕ} {s s₁ : Tables × σ}
    (h : kernelMountFormat p format devicePath dirPath fd s = .ok (false, s₁))
    (hlt : fd < KernelFsFdMax)
    (he : s₁.1.fdt fd = some (openedEntry devicePath KernelFsFdModeRW i)) :
    mountOpened p format devicePath dirPath fd s =
      .ok (false, ((s₁.1.setMounted s₁.1.mounted.dropLast).setFd fd none, s₁.2)) := by
  have hclose : kernelFsFileClose (s₁.1.setMounted s₁.1.mounted.dropLast) fd =
      .ok (0, (s₁.1.setMounted s₁.1.mounted.dropLast).setFd fd none) :=
    close_opened hlt he (by decide)
  rw [mountOpened, bind_of_ok h, if_neg (by decide), bind_of_ok (popMounted_run s₁), fileClose,
    bind_of_ok (onTables_run hclose)]
  rfl

/-- What stops a mount from being all or nothing: an open that writes entry 0, a
format that no case handles, and a circular buffer whose offsets are refused. -/
inductive MountSlip (format : ℕ) (devicePath dirPath : CStr) (s : Tables × σ) : Prop
  | fullTable {s₁ : Tables × σ} (hroom : MountRoom s.1 devicePath dirPath)
      (hcheck : kernelFsFileOpenCheck p devicePath KernelFsFdModeRW s = .ok (true, s₁))
      (hfull : FullTable s.1.fdt)
      (hentry : s.1.fdt KernelFsFdInvalid ≠ openWrites p devicePath KernelFsFdModeRW s₁)
  | unknownFormat {fd : ℕ} {s₁ : Tables × σ} (hroom : MountRoom s.1 devicePath dirPath)
      (hopen : kernelFsFileOpen p devicePath KernelFsFdModeRW s = .ok (fd, s₁))
      (hfd : fd ≠ KernelFsFdInvalid) (hformat : KernelMountFormatFat < format)
  | offsetsRefused {fd i : ℕ} {s₁ : Tables × σ} (hroom : MountRoom s.1 devicePath dirPath)
      (hopen : kernelFsFileOpen p devicePath KernelFsFdModeRW s = .ok (fd, s₁))
      (hopened : MountOpened s.1 devicePath fd i)
      (hrefused : OffsetsRefused p format devicePath dirPath fd
        (mountPending s.1 devicePath fd i format, s₁.2))

/-- A mount fails without a trace, succeeds in full, or slips. -/
theorem mount_cases {format : ℕ} {devicePath dirPath : CStr} {b : Bool} {s s' : Tables × σ}
    (h : kernelMount p format devicePath dirPath s = .ok (b, s')) :
    (b = false ∧ s'.1 = s.1) ∨
    (b = true ∧ ∃ fd i slot type, Mounts s.1 s'.1 format devicePath dirPath fd i slot type) ∨
    MountSlip p format devicePath dirPath s := by
  by_cases hroom : MountRoom s.1 devicePath dirPath
  swap
  · rw [kernelMount_noRoom p hroom] at h
    cases h
    exact Or.inl ⟨rfl, rfl⟩
  have hrun := h
  rw [kernelMount_room p hroom] at hrun
  obtain ⟨fd, s₁, hopen, hrest⟩ := bind_ok.mp hrun
  by_cases hfd : fd = KernelFsFdInvalid
  · rw [if_pos hfd] at hrest
    obtain ⟨hb, hs'⟩ := pure_ok.mp hrest
    rw [hfd] at hopen
    rcases open_invalid p hopen with hs₁ | ⟨hfull, s₂, hcheck, hs₁⟩
    · exact Or.inl ⟨hb, by rw [hs', hs₁]⟩
    by_cases hentry : s.1.fdt KernelFsFdInvalid = openWrites p devicePath KernelFsFdModeRW s₂
    · exact Or.inl ⟨hb, by rw [hs', hs₁, setFd_same hentry]⟩
    · exact Or.inr (Or.inr (MountSlip.fullTable hroom hcheck hfull hentry))
  · obtain ⟨i, hopened, hmount⟩ := kernelMount_opened p hroom hopen hfd
    rw [hmount, mountOpened] at h
    obtain ⟨ok, s₂, hformat, _⟩ := bind_ok.mp h
    rcases mountFormat_cases p hformat with ⟨hok, hs₂⟩ | ⟨hok, slot, type, htype, hadded⟩ |
      ⟨hok, hunknown, _⟩ | ⟨hok, hrefused, _⟩
    · rw [hok] at hformat
      have he : s₂.1.fdt fd = some (openedEntry devicePath KernelFsFdModeRW i) := by
        rw [hs₂]
        simp [mountPending]
      rw [← mountOpened, mountOpened_error p hformat hopened.range he, hs₂] at h
      cases h
      exact Or.inl ⟨rfl, pending_undone s.1 devicePath fd i format hopened.free⟩
    · rw [hok] at hformat
      rw [← mountOpened, mountOpened_ok p hformat] at h
      cases h
      exact Or.inr (Or.inl ⟨rfl, fd, i, slot, type, hroom, hopened, htype, hadded.range,
        hadded.free, hadded.fresh, hadded.tables⟩)
    · exact Or.inr (Or.inr (MountSlip.unknownFormat hroom hopen hfd hunknown))
    · exact Or.inr (Or.inr (MountSlip.offsetsRefused hroom hopen hopened hrefused))

/-! ### All or nothing -/

/-- A failed mount changes no table; a successful one adds one device, one
descriptor and one mounted entry. -/
def AllOrNothing (devicePath dirPath : CStr) (t : Tables) (b : Bool) (t' : Tables) : Prop :=
  (b = false → t' = t) ∧
  (b = true → ∃ fd e m slot d, fd ≠ KernelFsFdInvalid ∧ fd < KernelFsFdMax ∧ t.fdt fd = none ∧
    slot < KernelFsDevicesMax ∧ t.devices slot = none ∧
    t' = ((t.setFd fd (some e)).setMounted (t.mounted++[m])).setDevice slot (some d) ∧
    e.path = devicePath ∧ d.mountPoint = dirPath ∧ d.userData = fd ∧ m.fd = fd)

theorem mount_allOrNothing_of {format : ℕ} {devicePath dirPath : CStr} {b : Bool}
    {s s' : Tables × σ} (h : kernelMount p format devicePath dirPath s = .ok (b, s'))
    (hslip : ¬ MountSlip p format devicePath dirPath s) :
    AllOrNothing devicePath dirPath s.1 b s'.1 := by
  rcases mount_cases p h with ⟨rfl, hs'⟩ | ⟨rfl, fd, i, slot, type, hm⟩ | hbad
  · exact ⟨fun _ => hs', fun hb => absurd hb (by decide)⟩
  · refine ⟨fun hb => absurd hb (by decide), fun _ => ?_⟩
    exact ⟨fd, _, _, slot, _, hm.opened.valid, hm.opened.range, hm.opened.free, hm.slotRange,
      hm.slotFree, hm.tables, rfl, rfl, rfl, rfl⟩
  · exact absurd hbad hslip

/-- Added devices are seen in the table. -/
theorem added_devices {t t' : Tables} {slot : ℕ} {d : KernelFsDevice} (h : Added t t' slot d) :
    t'.devices ≠ t.devices := by
  intro he
  have hslot := congrFun he slot
  rw [h.tables, Tables.setDevice_devices, if_pos rfl, h.free] at hslot
  cases hslot

/-- What each slip leaves behind. -/
theorem slip_cases {format : ℕ} {devicePath dirPath : CStr} {b : Bool} {s s' : Tables × σ}
    (h : kernelMount p format devicePath dirPath s = .ok (b, s'))
    (hslip : MountSlip p format devicePath dirPath s) :
    (b = false ∧ ∃ e, s.1.fdt KernelFsFdInvalid ≠ e ∧ s'.1 = s.1.setFd KernelFsFdInvalid e) ∨
    (b = true ∧ KernelMountFormatFat < format ∧ ∃ fd i, MountOpened s.1 devicePath fd i ∧
      s'.1 = mountPending s.1 devicePath fd i format) ∨
    (b = false ∧ ∃ slot d, Added s.1 s'.1 slot d) := by
  cases hslip with
  | @fullTable s₁ hroom hcheck hfull hentry =>
    obtain ⟨hw, hopen⟩ := open_writes p hcheck
    rw [(scannedFd_full devicePath).mpr hfull, ite_self] at hopen
    rw [kernelMount_room p hroom, bind_of_ok hopen, if_pos rfl] at h
    obtain ⟨hb, hs'⟩ := pure_ok.mp h
    exact Or.inl ⟨hb, _, hentry, by rw [hs']⟩
  | @unknownFormat fd s₁ hroom hopen hfd hformat =>
    obtain ⟨i, hopened, hmount⟩ := @kernelMount_opened σ p format _ _ _ _ _ hroom hopen hfd
    rw [hmount, mountOpened_ok p (mountFormat_unknown p hformat)] at h
    cases h
    exact Or.inr (Or.inl ⟨rfl, hformat, fd, i, hopened, rfl⟩)
  | @offsetsRefused fd i s₁ hroom hopen hopened hrefused =>
    obtain ⟨j, hopened', hmount⟩ := @kernelMount_opened σ p format _ _ _ _ _ hroom hopen
      hopened.valid
    have hij : j = i := Option.some.inj (hopened'.index.symm.trans hopened.index)
    rw [hij] at hmount
    obtain ⟨hcirc, s₂, s₃, hdevice, hoffsets⟩ := hrefused
    have hs₃ := mountCircBufOffsets_ok p hoffsets
    rcases mountCircBufDevice_cases p hdevice with ⟨hno, _⟩ | ⟨_, slot, hadded⟩
    · cases hno
    have hformat : kernelMountFormat p format devicePath dirPath fd
        (mountPending s.1 devicePath fd i format, s₁.2) = .ok (false, s₃) := by
      rw [hcirc] at hdevice ⊢
      exact (mountFormat_circBuf p hdevice).trans hoffsets
    have he : s₃.1.fdt fd = some (openedEntry devicePath KernelFsFdModeRW i) := by
      rw [hs₃, hadded.tables]
      simp [mountPending]
    rw [hmount, mountOpened_error p hformat hopened.range he, hs₃, hadded.tables] at h
    cases h
    -- all but the device is put back
    have hundone := pending_undone s.1 devicePath fd i format hopened.free
    refine Or.inr (Or.inr ⟨rfl, slot, _, hadded.range, hadded.free, hadded.fresh, ?_⟩)
    exact congrArg (fun t => t.setDevice slot
      (some (mountedDevice dirPath fd (.character true)))) hundone

theorem slip_not_allOrNothing {format : ℕ} {devicePath dirPath : CStr} {b : Bool}
    {s s' : Tables × σ} (h : kernelMount p format devicePath dirPath s = .ok (b, s'))
    (hslip : MountSlip p format devicePath dirPath s) :
    ¬ AllOrNothing devicePath dirPath s.1 b s'.1 := by
  rintro ⟨hfalse, htrue⟩
  rcases slip_cases p h hslip with ⟨hb, e, hentry, hs'⟩ | ⟨hb, _, fd, i, _, hs'⟩ |
    ⟨hb, slot, d, hadded⟩
  · have hsame := congrArg (fun t => t.fdt KernelFsFdInvalid) (hfalse hb)
    rw [hs'] at hsame
    simp only [Tables.setFd_fdt, if_pos] at hsame
    exact hentry hsame.symm
  · -- a device should have been added
    obtain ⟨_, e, m, slot, d, _, _, _, _, hfree, htables, _⟩ := htrue hb
    have hslot := congrArg (fun t => t.devices slot) htables
    rw [hs'] at hslot
    simp only [mountPending, Tables.setDevice_devices, Tables.setMounted_devices,
      Tables.setFd_devices, if_pos, hfree] at hslot
    cases hslot
  · -- the device is still there
    exact added_devices hadded (congrArg Tables.devices (hfalse hb))

/-- A mount is all or nothing exactly when it does not slip. -/
theorem mount_allOrNothing {format : ℕ} {devicePath dirPath : CStr} {b : Bool}
    {s s' : Tables × σ} (h : kernelMount p format devicePath dirPath s = .ok (b, s')) :
    AllOrNothing devicePath dirPath s.1 b s'.1 ↔ ¬ MountSlip p format devicePath dirPath s :=
  ⟨fun hall hslip => slip_not_allOrNothing p h hslip hall, mount_allOrNothing_of p h⟩

/-! ### A memory chip -/

def chipDevice (name : String) (size : ℕ) (writable : Bool) : KernelFsDevice :=
  ⟨CStr.lit name, .driver 0, 0, .block size .flatFile, writable⟩

/-- The root, the directory of devices and a chip, with nothing open or mounted. -/
def chipTables (size : ℕ) (writable : Bool) : Tables where
  fdt := fun _ => none
  devices := deviceTable [directoryDevice "/", directoryDevice "/dev",
    chipDevice "/dev/eeprom" size writable]
  mounted := []

/-- The same with the chip's directory open under every descriptor. -/
def chipTablesFull (size : ℕ) : Tables :=
  { chipTables size true with fdt := fullTables.fdt }

theorem mount_allOrNothing_chip :
    ∃ s', kernelMount (memoryPlatform 2) KernelMountFormatFlatFile (CStr.lit "/dev/eeprom")
        (CStr.lit "/mnt") (chipTables 8 true, [List.replicate 8 0]) = .ok (true, s') ∧
      AllOrNothing (CStr.lit "/dev/eeprom") (CStr.lit "/mnt") (chipTables 8 true) true s'.1 := by
  obtain ⟨s', hrun⟩ : ∃ s', kernelMount (memoryPlatform 2) KernelMountFormatFlatFile
      (CStr.lit "/dev/eeprom") (CStr.lit "/mnt") (chipTables 8 true, [List.replicate 8 0]) =
        .ok (true, s') := ⟨_, rfl⟩
  refine ⟨s', hrun, (mount_allOrNothing (memoryPlatform 2) hrun).mpr ?_⟩
  intro hslip
  cases hslip with
  | fullTable _ _ hfull _ => exact hfull 1 (by decide) (by decide) rfl
  | unknownFormat _ _ _ hformat => exact absurd hformat (by decide)
  | offsetsRefused _ _ _ hrefused => exact absurd hrefused.1 (by decide)

/-- Each slip, on the chip: an unknown format is mounted without a device, the
device of a circular buffer on a read-only chip stays, and a full table has its
entry 0 written. -/
theorem mount_slips_chip :
    (∃ s', kernelMount (memoryPlatform 2) 8 (CStr.lit "/dev/eeprom") (CStr.lit "/mnt")
        (chipTables 8 true, [List.replicate 8 0]) = .ok (true, s') ∧
      ¬ AllOrNothing (CStr.lit "/dev/eeprom") (CStr.lit "/mnt") (chipTables 8 true) true s'.1) ∧
    (∃ s', kernelMount (memoryPlatform 2) KernelMountFormatCircBuf (CStr.lit "/dev/eeprom")
        (CStr.lit "/mnt") (chipTables 8 false, [List.replicate 8 0]) = .ok (false, s') ∧
      ¬ AllOrNothing (CStr.lit "/dev/eeprom") (CStr.lit "/mnt") (chipTables 8 false) false s'.1) ∧
    (∃ s', kernelMount (memoryPlatform 2) KernelMountFormatFlatFile (CStr.lit "/dev/eeprom")
        (CStr.lit "/mnt") (chipTablesFull 8, [List.replicate 8 0]) = .ok (false, s') ∧
      ¬ AllOrNothing (CStr.lit "/dev/eeprom") (CStr.lit "/mnt") (chipTablesFull 8) false s'.1) := by
  refine ⟨⟨_, rfl, ?_⟩, ⟨_, rfl, ?_⟩, ⟨_, rfl, ?_⟩⟩
  · rintro ⟨_, htrue⟩
    obtain ⟨_, e, m, slot, d, _, _, _, _, hfree, htables, _⟩ := htrue rfl
    have hslot := congrArg (fun t => t.devices slot) htables
    simp only [Tables.setDevice_devices, if_pos] at hslot
    have hkept : (chipTables 8 true).devices slot = some d := hslot
    rw [hfree] at hkept
    cases hkept
  · rintro ⟨hfalse, _⟩
    have hslot := congrArg (fun t => (t.devices 3).isSome) (hfalse rfl)
    exact absurd hslot (by decide)
  · rintro ⟨hfalse, _⟩
    have hentry := congrArg (fun t => (t.fdt KernelFsFdInvalid).isSome) (hfalse rfl)
    exact absurd hentry (by decide)

end ArduinoOS.Kernel
