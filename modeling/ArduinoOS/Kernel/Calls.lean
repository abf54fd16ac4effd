import ArduinoOS.Kernel.Mounting

/-!
# What unmounting, remounting and deleting do

The outcomes of the remaining calls on the tables. What a call does to the
hardware before it decides is left open.
-/

set_option autoImplicit false

namespace ArduinoOS.Kernel
open ArduinoOS.ByteProgram ArduinoOS.Faulting ArduinoOS.Minifs

variable {σ : Type} (p : Platform σ)

/-! ### Removing devices -/

theorem removeRaw_run (slot : ℕ) (s : Tables × σ) :
    (kernelFsRemoveDeviceFileRaw slot : KernelRun σ Unit) s =
      .ok ((), (s.1.setDevice slot none, s.2)) := rfl

theorem remove_cases {path : CStr} {u : Unit} {s s' : Tables × σ}
    (h : (kernelFsRemoveDeviceFile path : KernelRun σ Unit) s = .ok (u, s')) :
    (kernelFsGetDeviceFromPath s.1.devices path = none ∧ s'.1 = s.1) ∨
      ∃ slot, kernelFsGetDeviceFromPath s.1.devices path = some slot ∧
        s'.1 = s.1.setDevice slot none := by
  rw [kernelFsRemoveDeviceFile] at h
  obtain ⟨t, s₁, hget, h₁⟩ := bind_ok.mp h
  obtain ⟨ht, hs₁⟩ := getFirst_ok.mp hget
  rw [ht] at h₁
  cases hslot : kernelFsGetDeviceFromPath s.1.devices path with
  | none =>
    rw [hslot] at h₁
    rw [(pure_ok.mp h₁).2, hs₁]
    exact Or.inl ⟨rfl, rfl⟩
  | some slot =>
    rw [hslot] at h₁
    dsimp only at h₁
    rw [removeRaw_run, hs₁] at h₁
    cases h₁
    exact Or.inr ⟨slot, rfl, rfl⟩

/-- A deleted device was not open and not a directory in use. -/
structure Deletes (path : CStr) (slot : ℕ) (s : Tables × σ) : Prop where
  device : kernelFsGetDeviceFromPath s.1.devices path = some slot
  closed : kernelFsFileIsOpen s.1 path = false
  unused : ∃ s₁, dirInUse p slot s = .ok (false, s₁)

theorem delete_cases {path : CStr} {b : Bool} {s s' : Tables × σ}
    (h : kernelFsFileDelete p path s = .ok (b, s')) :
    s'.1 = s.1 ∨ ∃ slot, Deletes p path slot s ∧ s'.1 = s.1.setDevice slot none := by
  rw [kernelFsFileDelete] at h
  obtain ⟨t, s₁, hget, h₁⟩ := bind_ok.mp h
  obtain ⟨ht, hs₁⟩ := getFirst_ok.mp hget
  rw [ht, hs₁] at h₁
  by_cases hopen : kernelFsFileIsOpen s.1 path = true
  · rw [if_pos hopen] at h₁
    rw [(pure_ok.mp h₁).2]
    exact Or.inl rfl
  rw [if_neg hopen] at h₁
  rw [Bool.not_eq_true] at hopen
  cases hslot : kernelFsGetDeviceFromPath s.1.devices path with
  | some slot =>
    rw [hslot] at h₁
    obtain ⟨inUse, s₂, huse, h₂⟩ := bind_ok.mp h₁
    have hs₂ := ((access_ok p).mp huse).2
    cases inUse with
    | true =>
      rw [if_pos rfl] at h₂
      rw [(pure_ok.mp h₂).2, hs₂]
      exact Or.inl rfl
    | false =>
      rw [if_neg (by decide), bind_of_ok (removeRaw_run slot s₂)] at h₂
      rw [(pure_ok.mp h₂).2]
      exact Or.inr ⟨slot, ⟨hslot, hopen, s₂, huse⟩, by rw [hs₂]⟩
  | none =>
    rw [hslot] at h₁
    cases hsplit : kernelFsPathSplit path with
    | none =>
      rw [hsplit] at h₁
      exact absurd h₁ throw_ok
    | some parts =>
      rw [hsplit] at h₁
      dsimp only at h₁
      left
      cases hpar : (kernelFsGetDeviceFromPath s.1.devices parts.1).bind s.1.devices with
      | none =>
        rw [hpar] at h₁
        rw [(pure_ok.mp h₁).2]
      | some parentDevice =>
        rw [hpar] at h₁
        dsimp only at h₁
        cases htype : parentDevice.type with
        | block size format =>
          rw [htype] at h₁
          cases format with
          | customMiniFs => rw [((access_ok p).mp h₁).2]
          | flatFile => rw [(pure_ok.mp h₁).2]
          | fat => rw [(pure_ok.mp h₁).2]
          | nb => exact absurd h₁ throw_ok
        | character many =>
          rw [htype] at h₁
          rw [(pure_ok.mp h₁).2]
        | directory =>
          rw [htype] at h₁
          rw [(pure_ok.mp h₁).2]

/-! ### Unmounting -/

theorem findMounted_some {mounted : List KernelMountDevice} {fd i : ℕ}
    (h : findMounted mounted fd = some i) :
    ∃ m, mounted[i]? = some m ∧ m.fd = fd := by
  rw [findMounted, List.findIdx?_eq_some_iff_getElem] at h
  obtain ⟨hlt, hfd, _⟩ := h
  exact ⟨mounted[i], List.getElem?_eq_getElem hlt, by simpa using hfd⟩

theorem findMounted_none {mounted : List KernelMountDevice} {fd : ℕ} :
    findMounted mounted fd = none ↔ ∀ m ∈ mounted, m.fd ≠ fd := by
  rw [findMounted, List.findIdx?_eq_none_iff]
  simp

/-- The descriptor an unmount or a remount takes from the device at the path. -/
def mountFdAt (t : Tables) (dirPath : CStr) : ℕ :=
  u8 (kernelFsDeviceFileGetUserData t.devices dirPath)

theorem mountFdAt_device {t : Tables} {dirPath : CStr} {slot : ℕ} {d : KernelFsDevice}
    (hslot : kernelFsGetDeviceFromPath t.devices dirPath = some slot)
    (hd : t.devices slot = some d) : mountFdAt t dirPath = u8 d.userData := by
  rw [mountFdAt, kernelFsDeviceFileGetUserData, hslot, Option.bind_some, hd]

theorem mountFdAt_none {t : Tables} {dirPath : CStr}
    (h : kernelFsGetDeviceFromPath t.devices dirPath = none) : mountFdAt t dirPath = 0 := by
  rw [mountFdAt, kernelFsDeviceFileGetUserData, h]
  rfl

/-- The tables before the descriptor is closed. -/
def withoutDevice (t : Tables) (dirPath : CStr) : Tables :=
  match kernelFsGetDeviceFromPath t.devices dirPath with
  | none => t
  | some slot => t.setDevice slot none

/-- An unmount changes nothing, or takes out the device, closes the descriptor
and drops the entry found by it. -/
theorem unmount_cases {dirPath : CStr} {u : Unit} {s s' : Tables × σ}
    (h : (kernelUnmount dirPath : KernelRun σ Unit) s = .ok (u, s')) :
    s'.1 = s.1 ∨ ∃ i t, findMounted s.1.mounted (mountFdAt s.1 dirPath) = some i ∧
      TableStep (withoutDevice s.1 dirPath) (.closed (mountFdAt s.1 dirPath)) t ∧
      s'.1 = t.setMounted (removeMounted t.mounted i) := by
  rw [kernelUnmount] at h
  by_cases hv : kernelFsPathIsValid dirPath = false
  · rw [if_pos hv] at h
    rw [(pure_ok.mp h).2]
    exact Or.inl rfl
  rw [if_neg hv] at h
  obtain ⟨t, s₁, hget, h₁⟩ := bind_ok.mp h
  obtain ⟨ht, hs₁⟩ := getFirst_ok.mp hget
  rw [ht, hs₁] at h₁
  change (match findMounted s.1.mounted (mountFdAt s.1 dirPath) with
    | none => pure ()
    | some i => _ : KernelRun σ Unit) s = _ at h₁
  cases hfind : findMounted s.1.mounted (mountFdAt s.1 dirPath) with
  | none =>
    rw [hfind] at h₁
    rw [(pure_ok.mp h₁).2]
    exact Or.inl rfl
  | some i =>
    rw [hfind] at h₁
    obtain ⟨_, s₂, hremove, h₂⟩ := bind_ok.mp h₁
    obtain ⟨n, s₃, hclose, h₃⟩ := bind_ok.mp h₂
    obtain ⟨t', s₄, hget', h₄⟩ := bind_ok.mp h₃
    obtain ⟨ht', _⟩ := getFirst_ok.mp hget'
    have hs₂ : s₂.1 = withoutDevice s.1 dirPath := by
      rw [withoutDevice]
      rcases remove_cases hremove with ⟨hnone, hs₂⟩ | ⟨slot, hslot, hs₂⟩
      · rw [hnone, hs₂]
      · rw [hslot, hs₂]
    have hstep := close_step (onTables_ok hclose).1
    rw [hs₂] at hstep
    refine Or.inr ⟨i, s₃.1, rfl, hstep, ?_⟩
    rw [setFirst_ok.mp h₄, ht']

/-! ### Remounting -/

theorem setDevice_same {t : Tables} {slot : ℕ} {d : Option KernelFsDevice}
    (h : t.devices slot = d) : t.setDevice slot d = t := by
  rw [Tables.setDevice]
  congr 1
  funext i
  by_cases hi : i = slot
  · rw [if_pos hi, hi, h]
  · rw [if_neg hi]

/-- A device is replaced in its slot, or put back. -/
theorem updateBlock_cases {mountPoint : CStr} {functor : KernelFsDeviceFunctor}
    {userData size : ℕ} {format : KernelFsBlockDeviceFormat} {writable b : Bool}
    {s s' : Tables × σ}
    (h : kernelFsUpdateBlockDeviceFile p mountPoint functor userData format size writable s =
      .ok (b, s')) :
    (b = false ∧ s'.1 = s.1) ∨ (b = true ∧ ∃ slot d,
      kernelFsGetDeviceFromPath s.1.devices mountPoint = some slot ∧ s.1.devices slot = some d ∧
      s'.1 = s.1.setDevice slot
        (some ⟨d.mountPoint, functor, userData, .block size format, writable⟩)) := by
  rw [kernelFsUpdateBlockDeviceFile] at h
  by_cases hnull : functor = .null
  · rw [if_pos hnull] at h
    exact absurd h throw_ok
  rw [if_neg hnull] at h
  obtain ⟨t, s₁, hget, h₁⟩ := bind_ok.mp h
  obtain ⟨ht, hs₁⟩ := getFirst_ok.mp hget
  rw [ht, hs₁] at h₁
  cases hslot : kernelFsGetDeviceFromPath s.1.devices mountPoint with
  | none =>
    rw [hslot] at h₁
    obtain ⟨hb, hs'⟩ := pure_ok.mp h₁
    exact Or.inl ⟨hb, by rw [hs']⟩
  | some slot =>
    rw [hslot] at h₁
    dsimp only at h₁
    cases hd : s.1.devices slot with
    | none =>
      rw [hd] at h₁
      exact absurd h₁ throw_ok
    | some d =>
      rw [hd] at h₁
      obtain ⟨_, s₂, hset, h₂⟩ := bind_ok.mp h₁
      have hs₂ := setFirst_ok.mp hset
      obtain ⟨mounts, s₃, hmounts, h₃⟩ := bind_ok.mp h₂
      have hs₃ := blockDeviceMounts_ok p hmounts
      cases mounts with
      | true =>
        rw [if_pos rfl] at h₃
        obtain ⟨hb, hs'⟩ := pure_ok.mp h₃
        exact Or.inr ⟨hb, slot, d, rfl, hd, by rw [hs', hs₃, hs₂]⟩
      | false =>
        rw [if_neg (by decide)] at h₃
        obtain ⟨t', s₄, hget', h₄⟩ := bind_ok.mp h₃
        obtain ⟨ht', hs₄⟩ := getFirst_ok.mp hget'
        obtain ⟨_, s₅, hset', h₅⟩ := bind_ok.mp h₄
        have hs₅ := setFirst_ok.mp hset'
        obtain ⟨hb, hs'⟩ := pure_ok.mp h₅
        refine Or.inl ⟨hb, ?_⟩
        rw [hs', hs₅, ht', hs₃, hs₂]
        dsimp only
        rw [setDevice_twice, setDevice_same hd]

/-- The mount a remount works on, and the file-or-directory kind it keeps. -/
structure RemountFound (t : Tables) (newFormat : ℕ) (dirPath : CStr) (i : ℕ)
    (old : KernelMountDevice) : Prop where
  found : findMounted t.mounted (mountFdAt t dirPath) = some i
  entry : t.mounted[i]? = some old
  fd : old.fd = mountFdAt t dirPath
  kind : KernelMountFormatIsDir newFormat = KernelMountFormatIsDir old.format

/-- The tables with the new file open. -/
def remountOpened (t : Tables) (newDevicePath : CStr) (fd j : ℕ) : Tables :=
  t.setFd fd (some (openedEntry newDevicePath KernelFsFdModeRW j))

/-- The tables with the mounted entry changed, too. -/
def remountPending (t : Tables) (newDevicePath : CStr) (fd j newFormat i : ℕ) : Tables :=
  (remountOpened t newDevicePath fd j).setMounted (t.mounted.set i ⟨u8 newFormat, fd⟩)

/-- What replaces the device at the mount point. -/
def remountedDevice (d : KernelFsDevice) (fd size : ℕ) : KernelFsDevice :=
  ⟨d.mountPoint, .kernelMountFsFunctor, fd, .block size .customMiniFs, true⟩

inductive RemountEffect (t : Tables) (newFormat : ℕ) (newDevicePath dirPath : CStr) :
    Bool → Tables → Prop
  | same : RemountEffect t newFormat newDevicePath dirPath false t
  | full (e : Option KernelFsFdtEntry) (hfull : FullTable t.fdt) :
      RemountEffect t newFormat newDevicePath dirPath false (t.setFd KernelFsFdInvalid e)
  | leaked {i fd j : ℕ} {old : KernelMountDevice} (hfound : RemountFound t newFormat dirPath i old)
      (hopened : MountOpened t newDevicePath fd j) (hformat : newFormat = KernelMountFormatFat) :
      RemountEffect t newFormat newDevicePath dirPath false (remountOpened t newDevicePath fd j)
  | moved {i fd j slot size : ℕ} {old : KernelMountDevice} {d : KernelFsDevice} {t' : Tables}
      (hfound : RemountFound t newFormat dirPath i old)
      (hopened : MountOpened t newDevicePath fd j) (hformat : newFormat = KernelMountFormatMiniFs)
      (hslot : kernelFsGetDeviceFromPath t.devices dirPath = some slot)
      (hd : t.devices slot = some d)
      (hclose : TableStep ((remountPending t newDevicePath fd j newFormat i).setDevice slot
        (some (remountedDevice d fd size))) (.closed old.fd) t') :
      RemountEffect t newFormat newDevicePath dirPath true t'
  | unknown {i fd j : ℕ} {old : KernelMountDevice} {t' : Tables}
      (hfound : RemountFound t newFormat dirPath i old)
      (hopened : MountOpened t newDevicePath fd j) (hformat : KernelMountFormatFat < newFormat)
      (hclose : TableStep (remountPending t newDevicePath fd j newFormat i) (.closed old.fd) t') :
      RemountEffect t newFormat newDevicePath dirPath true t'

theorem setFd_twice (t : Tables) (fd : ℕ) (e e' : Option KernelFsFdtEntry) :
    (t.setFd fd e).setFd fd e' = t.setFd fd e' := by
  simp only [Tables.setFd]
  congr 1
  funext i
  by_cases hi : i = fd
  · rw [if_pos hi, if_pos hi]
  · rw [if_neg hi, if_neg hi, if_neg hi]

/-- The new file is closed again. -/
theorem close_remountOpened {t : Tables} {newDevicePath : CStr} {fd j : ℕ}
    (hopened : MountOpened t newDevicePath fd j) :
    kernelFsFileClose (remountOpened t newDevicePath fd j) fd = .ok (0, t) := by
  have he : (remountOpened t newDevicePath fd j).fdt fd =
      some (openedEntry newDevicePath KernelFsFdModeRW j) := by simp [remountOpened]
  rw [close_opened hopened.range he (by decide), remountOpened, setFd_twice,
    setFd_same hopened.free]

theorem close_remountPending {t : Tables} {newDevicePath : CStr} {fd j newFormat i : ℕ}
    (hopened : MountOpened t newDevicePath fd j) :
    kernelFsFileClose (remountPending t newDevicePath fd j newFormat i) fd =
      .ok (0, t.setMounted (t.mounted.set i ⟨u8 newFormat, fd⟩)) := by
  have he : (remountPending t newDevicePath fd j newFormat i).fdt fd =
      some (openedEntry newDevicePath KernelFsFdModeRW j) := by
    simp [remountPending, remountOpened]
  have hnone : (t.setMounted (t.mounted.set i ⟨u8 newFormat, fd⟩)).fdt fd = none := hopened.free
  have hcomm : remountPending t newDevicePath fd j newFormat i =
      (t.setMounted (t.mounted.set i ⟨u8 newFormat, fd⟩)).setFd fd
        (some (openedEntry newDevicePath KernelFsFdModeRW j)) := rfl
  rw [close_opened hopened.range he (by decide), hcomm, setFd_twice, setFd_same hnone]

/-- The entry is reset. -/
theorem remount_undone {t : Tables} {i : ℕ} {m old : KernelMountDevice}
    (hold : t.mounted[i]? = some old) :
    (t.setMounted (t.mounted.set i m)).setMounted
      ((t.setMounted (t.mounted.set i m)).mounted.set i old) = t := by
  obtain ⟨hlt, hget⟩ := List.getElem?_eq_some_iff.mp hold
  simp only [Tables.setMounted, List.set_set]
  rw [← hget, List.set_getElem_self]

/-- The last two stages: the tables move over, or everything is put back. -/
theorem remountCommit_cases {t : Tables} {newFormat : ℕ} {newDevicePath dirPath : CStr}
    {i fd j size : ℕ} {old : KernelMountDevice} {b : Bool} {h : σ} {s' : Tables × σ}
    (hfound : RemountFound t newFormat dirPath i old) (hopened : MountOpened t newDevicePath fd j)
    (hkinds : newFormat = KernelMountFormatMiniFs ∨ KernelMountFormatFat < newFormat)
    (hrun : kernelRemountCommit p newFormat dirPath i old fd size
      (remountOpened t newDevicePath fd j, h) = .ok (b, s')) :
    RemountEffect t newFormat newDevicePath dirPath b s'.1 := by
  have hset : (setMountedAt i ⟨u8 newFormat, fd⟩ : KernelRun σ Unit)
      (remountOpened t newDevicePath fd j, h) =
        .ok ((), (remountPending t newDevicePath fd j newFormat i, h)) := rfl
  rw [kernelRemountCommit, bind_of_ok hset] at hrun
  obtain ⟨updated, s₁, hupdate, h₁⟩ := bind_ok.mp hrun
  rw [kernelRemountUpdate] at hupdate
  by_cases hmini : newFormat = KernelMountFormatMiniFs
  · rw [if_pos hmini] at hupdate
    obtain ⟨hasMemory, s₂, hmem, h₂⟩ := bind_ok.mp hupdate
    have hs₂ := kstrC_ok p hmem
    by_cases hm : hasMemory = false
    · rw [if_pos hm] at h₂
      exact absurd h₂ throw_ok
    rw [if_neg hm] at h₂
    rcases updateBlock_cases p h₂ with ⟨hb, hs₁⟩ | ⟨hb, slot, d, hslot, hd, hs₁⟩
    · rw [if_neg (by rw [hb]; decide)] at h₁
      obtain ⟨n, s₃, hclose, h₃⟩ := bind_ok.mp h₁
      obtain ⟨_, s₄, hback, h₄⟩ := bind_ok.mp h₃
      obtain ⟨hbool, hs'⟩ := pure_ok.mp h₄
      have hs₃ := (onTables_ok hclose).1
      rw [hs₁, hs₂, close_remountPending hopened] at hs₃
      have hback' : s₄.1 = s₃.1.setMounted (s₃.1.mounted.set i old) := by
        cases hback
        rfl
      rw [← (Prod.mk.inj (Except.ok.inj hs₃)).2] at hback'
      rw [hbool, hs', hback', remount_undone hfound.entry]
      exact RemountEffect.same
    · rw [if_pos hb] at h₁
      obtain ⟨n, s₃, hclose, h₃⟩ := bind_ok.mp h₁
      obtain ⟨hbool, hs'⟩ := pure_ok.mp h₃
      have hstep := close_step (onTables_ok hclose).1
      rw [hs₁, hs₂] at hstep
      rw [hbool, hs']
      rw [hs₂] at hslot hd
      exact RemountEffect.moved hfound hopened hmini hslot hd hstep
  · rw [if_neg hmini] at hupdate
    obtain ⟨hb, hs₁⟩ := pure_ok.mp hupdate
    rw [if_pos hb] at h₁
    obtain ⟨n, s₃, hclose, h₃⟩ := bind_ok.mp h₁
    obtain ⟨hbool, hs'⟩ := pure_ok.mp h₃
    have hstep := close_step (onTables_ok hclose).1
    rw [hs₁] at hstep
    rw [hbool, hs']
    exact RemountEffect.unknown hfound hopened (hkinds.resolve_left hmini) hstep

theorem remount_cases {newFormat : ℕ} {newDevicePath dirPath : CStr} {b : Bool}
    {s s' : Tables × σ}
    (h : kernelRemountWithBuffers p newFormat newDevicePath dirPath s = .ok (b, s')) :
    RemountEffect s.1 newFormat newDevicePath dirPath b s'.1 := by
  have hsame : ∀ {s₁ : Tables × σ}, (pure false : KernelRun σ Bool) s₁ = .ok (b, s') →
      s₁.1 = s.1 → RemountEffect s.1 newFormat newDevicePath dirPath b s'.1 := by
    intro s₁ hrun hs₁
    obtain ⟨hb, hs'⟩ := pure_ok.mp hrun
    rw [hb, hs', hs₁]
    exact RemountEffect.same
  rw [kernelRemountWithBuffers] at h
  by_cases hv : kernelFsPathIsValid dirPath = false
  · rw [if_pos hv] at h
    exact hsame h rfl
  rw [if_neg hv] at h
  obtain ⟨t, s₁, hget, h₁⟩ := bind_ok.mp h
  obtain ⟨ht, hs₁⟩ := getFirst_ok.mp hget
  rw [ht, hs₁] at h₁
  cases hfind : findMounted s.1.mounted (mountFdAt s.1 dirPath) with
  | none =>
    rw [mountFdAt] at hfind
    rw [hfind] at h₁
    exact hsame h₁ rfl
  | some i =>
    obtain ⟨old, hold, hfd⟩ := findMounted_some hfind
    have hfind' := hfind
    rw [mountFdAt] at hfind'
    rw [hfind', Option.bind_some, hold, Option.map_some] at h₁
    dsimp only at h₁
    by_cases hkind : KernelMountFormatIsDir newFormat ≠ KernelMountFormatIsDir old.format
    · rw [if_pos hkind] at h₁
      exact hsame h₁ rfl
    rw [if_neg hkind] at h₁
    rw [not_not] at hkind
    have hfound : RemountFound s.1 newFormat dirPath i old := ⟨hfind, hold, hfd, hkind⟩
    obtain ⟨fd, s₂, hopen, h₂⟩ := bind_ok.mp h₁
    by_cases hfd0 : fd = KernelFsFdInvalid
    · rw [if_pos hfd0] at h₂
      rw [hfd0] at hopen
      rcases open_invalid p hopen with hs₂ | ⟨hfull, s₃, _, hs₂⟩
      · exact hsame h₂ hs₂
      · obtain ⟨hb, hs'⟩ := pure_ok.mp h₂
        rw [hb, hs', hs₂]
        exact RemountEffect.full _ hfull
    rw [if_neg hfd0] at h₂
    obtain ⟨hopenable, hlt, hfree, j, hj, hs₂⟩ := open_entry p hopen hfd0
    have hopened : MountOpened s.1 newDevicePath fd j := ⟨hopenable, hfd0, hlt, hfree, hj⟩
    obtain ⟨len, s₃, hlen, h₃⟩ := bind_ok.mp h₂
    have hs₃ := ((access_ok p).mp hlen).2
    rw [hs₂] at hs₃
    -- the new file is closed on the early returns
    have hclosed : ∀ {s₄ : Tables × σ} {n : ℕ} {s₅ : Tables × σ},
        s₄.1 = remountOpened s.1 newDevicePath fd j →
        (fileClose fd : KernelRun σ ℕ) s₄ = .ok (n, s₅) → s₅.1 = s.1 := by
      intro s₄ n s₅ hs₄ hclose
      have hrun := (onTables_ok hclose).1
      rw [hs₄, close_remountOpened hopened] at hrun
      exact ((Prod.mk.inj (Except.ok.inj hrun)).2).symm
    by_cases hmini : newFormat = KernelMountFormatMiniFs
    · rw [if_pos hmini] at h₃
      obtain ⟨copied, s₄, hcopy, h₄⟩ := bind_ok.mp h₃
      have hs₄ := ((access_ok p).mp hcopy).2
      rw [hs₃] at hs₄
      by_cases hc : copied = false
      · rw [if_pos hc] at h₄
        obtain ⟨n, s₅, hclose, h₅⟩ := bind_ok.mp h₄
        exact hsame h₅ (hclosed hs₄ hclose)
      · rw [if_neg hc] at h₄
        have hs₄' : s₄ = (remountOpened s.1 newDevicePath fd j, s₄.2) := Prod.ext hs₄ rfl
        rw [hs₄'] at h₄
        exact remountCommit_cases p hfound hopened (Or.inl hmini) h₄
    rw [if_neg hmini] at h₃
    by_cases hfile : KernelMountFormatFlatFile ≤ newFormat ∧ newFormat ≤ KernelMountFormatCircBuf
    · rw [if_pos hfile] at h₃
      obtain ⟨n, s₅, hclose, h₅⟩ := bind_ok.mp h₃
      exact hsame h₅ (hclosed hs₃ hclose)
    rw [if_neg hfile] at h₃
    by_cases hfat : newFormat = KernelMountFormatFat
    · rw [if_pos hfat] at h₃
      obtain ⟨hb, hs'⟩ := pure_ok.mp h₃
      rw [hb, hs', hs₃]
      exact RemountEffect.leaked hfound hopened hfat
    · rw [if_neg hfat] at h₃
      have hs₃' : s₃ = (remountOpened s.1 newDevicePath fd j, s₃.2) := Prod.ext hs₃ rfl
      rw [hs₃'] at h₃
      refine remountCommit_cases p hfound hopened (Or.inr ?_) h₃
      simp only [KernelMountFormatMiniFs, KernelMountFormatFlatFile, KernelMountFormatCircBuf,
        KernelMountFormatFat] at *
      omega

end ArduinoOS.Kernel
