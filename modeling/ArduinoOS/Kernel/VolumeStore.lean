import ArduinoOS.Kernel.Volumes
import ArduinoOS.Lib.Beside

/-!
# Volumes on chips

A volume is reached through its driver, or through the mount of a device that is
a driver's. Drivers that hold the bytes of the volumes and honour accesses within
them make every volume a store beside the others, in every state of the tables
that keeps the devices, the mounts and the descriptors behind them.
-/

set_option autoImplicit false

namespace ArduinoOS.Kernel
open ArduinoOS.ByteProgram ArduinoOS.Faulting ArduinoOS.Minifs

variable {σ : Type}

/-! ### Where the bytes are -/

/-- The driver and the user data that hold the bytes of a device. -/
inductive BackedBy (t : Tables) (reserved : List ℕ) (d : KernelFsDevice) : ℕ → ℕ → Prop
  | driver {id : ℕ} (hfunctor : d.functor = .driver id) : BackedBy t reserved d id d.userData
  | mounted {e : KernelFsFdtEntry} {chip : KernelFsDevice} {id n : ℕ}
      (hfunctor : d.functor = .kernelMountFsFunctor) (hreserved : d.userData ∈ reserved)
      (hentry : t.fdt d.userData = some e)
      (hmode : kernelFsFdPathSpareGetMode e.spare = KernelFsFdModeRW)
      (hmount : kernelMountGetDeviceFromFd t d.userData =
        some ⟨KernelMountFormatMiniFs, d.userData⟩)
      (hpath : kernelFsGetDeviceFromPath t.devices e.path = some e.deviceIndex)
      (hchip : t.devices e.deviceIndex = some chip) (htype : chip.type = .block n .flatFile)
      (hwritable : chip.writable = true) (hdriver : chip.functor = .driver id) :
      BackedBy t reserved d id chip.userData

/-- The tables that differ from the first ones in the descriptors at most, and
not in the reserved ones. -/
structure Fixed (t₀ : Tables) (reserved : List ℕ) (t : Tables) : Prop where
  devices : t.devices = t₀.devices
  mounted : t.mounted = t₀.mounted
  reserved : ∀ fd ∈ reserved, t.fdt fd = t₀.fdt fd

theorem fixed_refl (t : Tables) (reserved : List ℕ) : Fixed t reserved t :=
  ⟨rfl, rfl, fun _ _ => rfl⟩

theorem fixed_setFd {t₀ t : Tables} {reserved : List ℕ} (h : Fixed t₀ reserved t) {fd : ℕ}
    (hfd : fd ∉ reserved) (e : Option KernelFsFdtEntry) : Fixed t₀ reserved (t.setFd fd e) := by
  refine ⟨h.devices, h.mounted, fun i hi => ?_⟩
  have hne : i ≠ fd := fun he => hfd (he ▸ hi)
  rw [Tables.setFd_fdt, if_neg hne]
  exact h.reserved i hi

/-- The images of the volumes in these slots are the same. -/
def SameFor (devices : Devices) (image : ℕ → σ → Image) (P : ℕ → Prop) (s s' : σ) : Prop :=
  ∀ i d size, IsVolume devices i d size → P i → ∀ a < size, image i s' a = image i s a

/-- Drivers that hold the images of the volumes. -/
structure Stores (drv : Drivers σ) (devices : Devices) (place : ℕ → ℕ × ℕ)
    (image : ℕ → σ → Image) : Prop where
  read : ∀ i d size, IsVolume devices i d size → ∀ s addr len, addr+len ≤ size →
    ∃ s', drv.blockRead (place i).1 (place i).2 len addr s =
        ((slice (image i s) addr len, len), s') ∧
      SameFor devices image (fun _ => True) s s'
  write : ∀ i d size, IsVolume devices i d size → d.writable = true →
    ∀ s addr data, addr+data.length ≤ size →
      ∃ s', drv.blockWrite (place i).1 (place i).2 data addr s = (data.length, s') ∧
        (∀ a < size, image i s' a = overwrite (image i s) addr data a) ∧
        SameFor devices image (fun j => j ≠ i) s s'
  malloc : ∀ n s, SameFor devices image (fun _ => True) s (drv.malloc n s).2

/-- The tables and drivers the volumes rest on. -/
structure Setting (p : Platform σ) (t₀ : Tables) (reserved : List ℕ) (place : ℕ → ℕ × ℕ)
    (image : ℕ → σ → Image) : Prop where
  devices : ValidDevices t₀.devices
  small : ∀ i d size, IsVolume t₀.devices i d size → size < 65536
  backed : ∀ i d size, IsVolume t₀.devices i d size →
    BackedBy t₀ reserved d (place i).1 (place i).2
  reserved : ∀ fd ∈ reserved, fd ≠ KernelFsFdInvalid ∧ fd < KernelFsFdMax ∧
    ∃ e, t₀.fdt fd = some e ∧ fileVolume t₀.devices e.path = none
  depth : 2 ≤ p.depth
  stores : Stores p.drv t₀.devices place image

theorem sameFor_refl (devices : Devices) (image : ℕ → σ → Image) (P : ℕ → Prop) (s : σ) :
    SameFor devices image P s s := fun _ _ _ _ _ _ _ => rfl

theorem sameFor_trans {devices : Devices} {image : ℕ → σ → Image} {P : ℕ → Prop} {s s₁ s₂ : σ}
    (h : SameFor devices image P s s₁) (h' : SameFor devices image P s₁ s₂) :
    SameFor devices image P s s₂ :=
  fun i d size hv hp a ha => (h' i d size hv hp a ha).trans (h i d size hv hp a ha)

theorem sameFor_mono {devices : Devices} {image : ℕ → σ → Image} {P Q : ℕ → Prop} {s s' : σ}
    (h : SameFor devices image P s s') (hpq : ∀ i, Q i → P i) : SameFor devices image Q s s' :=
  fun i d size hv hq a ha => h i d size hv (hpq i hq) a ha

/-! ### The functor of a volume -/

section Functors

variable {p : Platform σ} {t₀ t : Tables} {reserved : List ℕ} {d : KernelFsDevice} {id u : ℕ}

/-- The entry behind a mount is that of its chip, which it names. -/
theorem mounted_fdIsDevice {e : KernelFsFdtEntry} {chip : KernelFsDevice}
    (hpath : kernelFsGetDeviceFromPath t.devices e.path = some e.deviceIndex)
    (hchip : t.devices e.deviceIndex = some chip) : fdIsDevice t e = true := by
  obtain ⟨_, d', hd', hmp⟩ := getDevice_some hpath
  rw [hchip, Option.some.injEq] at hd'
  rw [fdIsDevice, hchip, hd', Option.all_some, beq_iff_eq]
  exact hmp

theorem functor_read (hdepth : 2 ≤ p.depth) (hfixed : Fixed t₀ reserved t)
    (hlt : ∀ fd ∈ reserved, fd < KernelFsFdMax) (hb : BackedBy t₀ reserved d id u)
    (addr len : ℕ) (s : σ) :
    (p.functors t).blockRead d len addr s = .ok (p.drv.blockRead id u len addr s) := by
  obtain ⟨depth, hd⟩ : ∃ n, p.depth = n+2 := ⟨p.depth-2, by omega⟩
  rw [Platform.functors, hd]
  cases hb with
  | driver hfunctor =>
    simp only [functors, kernelMountFsFunctor, callFunctor, hfunctor]
    rfl
  | @mounted e chip _ n hfunctor hreserved hentry hmode hmount hpath hchip htype _ hdriver =>
    have hfd := hlt _ hreserved
    have he : t.fdt d.userData = some e := (hfixed.reserved _ hreserved).trans hentry
    have hmount' : kernelMountGetDeviceFromFd t d.userData =
        some ⟨KernelMountFormatMiniFs, d.userData⟩ := by
      rw [kernelMountGetDeviceFromFd, hfixed.mounted]
      exact hmount
    rw [← hfixed.devices] at hpath hchip
    have hdev := mounted_fdIsDevice hpath hchip
    have hread : kernelFsFdPathSpareGetMode e.spare &&& KernelFsFdModeRO ≠ 0 := by
      rw [hmode]
      decide
    have hmounted : mountDevice t d.userData s =
        .ok (⟨KernelMountFormatMiniFs, d.userData⟩, s) := by
      rw [mountDevice, kAssert, decide_eq_true hfd, hmount']
      rfl
    have hcache : (assertFdDevice t e : Hw σ Unit) s = .ok ((), s) := by
      rw [assertFdDevice, hpath, hdev]
      simp [cacheAssert]
      rfl
    rw [functors, kernelMountFsFunctor]
    simp only [callFunctor, hfunctor]
    rw [kernelMountBlockReadFunctor, bind_of_ok hmounted, if_pos (Or.inl rfl),
      kernelFsFileReadOffset, kAssert, decide_eq_true hfd, he]
    change (if _ then _ else _ : Hw σ (List UInt8 × ℕ)) s = _
    rw [if_neg hread, bind_of_ok hcache, hchip]
    dsimp only
    rw [if_pos hdev, htype]
    simp only [functors, kernelMountFsFunctor, callFunctor, hdriver]
    rfl

theorem functor_write (hdepth : 2 ≤ p.depth) (hfixed : Fixed t₀ reserved t)
    (hlt : ∀ fd ∈ reserved, fd < KernelFsFdMax) (hb : BackedBy t₀ reserved d id u)
    (addr : ℕ) (data : List UInt8) (s : σ) :
    (p.functors t).blockWrite d data addr s = .ok (p.drv.blockWrite id u data addr s) := by
  obtain ⟨depth, hd⟩ : ∃ n, p.depth = n+2 := ⟨p.depth-2, by omega⟩
  rw [Platform.functors, hd]
  cases hb with
  | driver hfunctor =>
    simp only [functors, kernelMountFsFunctor, callFunctor, hfunctor]
    rfl
  | @mounted e chip _ n hfunctor hreserved hentry hmode hmount hpath hchip htype hwritable
      hdriver =>
    have hfd := hlt _ hreserved
    have he : t.fdt d.userData = some e := (hfixed.reserved _ hreserved).trans hentry
    have hmount' : kernelMountGetDeviceFromFd t d.userData =
        some ⟨KernelMountFormatMiniFs, d.userData⟩ := by
      rw [kernelMountGetDeviceFromFd, hfixed.mounted]
      exact hmount
    rw [← hfixed.devices] at hpath hchip
    have hdev := mounted_fdIsDevice hpath hchip
    have hwrite : kernelFsFdPathSpareGetMode e.spare &&& KernelFsFdModeWO ≠ 0 := by
      rw [hmode]
      decide
    have hmounted : mountDevice t d.userData s =
        .ok (⟨KernelMountFormatMiniFs, d.userData⟩, s) := by
      rw [mountDevice, kAssert, decide_eq_true hfd, hmount']
      rfl
    have hcache : (assertFdDevice t e : Hw σ Unit) s = .ok ((), s) := by
      rw [assertFdDevice, hpath, hdev]
      simp [cacheAssert]
      rfl
    rw [functors, kernelMountFsFunctor]
    simp only [callFunctor, hfunctor]
    rw [kernelMountBlockWriteFunctor, bind_of_ok hmounted, if_pos (Or.inl rfl),
      kernelFsFileWriteOffset, kAssert, decide_eq_true hfd, he]
    change (if _ then _ else _ : Hw σ ℕ) s = _
    rw [if_neg hwrite, bind_of_ok hcache, hchip]
    dsimp only
    rw [if_pos hdev, if_neg (by rw [hwritable]; decide), htype]
    simp only [functors, kernelMountFsFunctor, callFunctor, hdriver]
    rfl

end Functors

/-! ### Programs over a volume -/

section Programs

variable {p : Platform σ} {t₀ t : Tables} {reserved : List ℕ} {place : ℕ → ℕ × ℕ}
  {image : ℕ → σ → Image} (hs : Setting p t₀ reserved place image)
  (hfixed : Fixed t₀ reserved t) {i size : ℕ} {d : KernelFsDevice}
  (hv : IsVolume t₀.devices i d size)
include hs hfixed hv

theorem volume_blockRead (addr len : ℕ) (s : σ) :
    (p.functors t).blockRead d len addr s =
      .ok (p.drv.blockRead (place i).1 (place i).2 len addr s) :=
  functor_read hs.depth hfixed (fun fd hfd => (hs.reserved fd hfd).2.1) (hs.backed i d size hv)
    addr len s

theorem volume_blockWrite (addr : ℕ) (data : List UInt8) (s : σ) :
    (p.functors t).blockWrite d data addr s =
      .ok (p.drv.blockWrite (place i).1 (place i).2 data addr s) :=
  functor_write hs.depth hfixed (fun fd hfd => (hs.reserved fd hfd).2.1) (hs.backed i d size hv)
    addr data s

theorem volume_reads (s : σ) :
    Reads (kernelFsDeviceMiniFs (p.functors t) d)
      (SameFor t₀.devices image (fun _ => True) s) size (image i s) := by
  intro addr len hin s₁ hs₁
  obtain ⟨s₂, hread, hs₂⟩ := hs.stores.read i d size hv s₁ addr len hin
  have hsmall := hs.small i d size hv
  have hslice : slice (image i s₁) addr len = slice (image i s) addr len :=
    slice_congr _ _ _ _ (fun a _ ha => hs₁ i d size hv trivial a (by omega))
  refine ⟨s₂, ?_, sameFor_trans hs₁ hs₂⟩
  change ((p.functors t).blockRead d len addr >>= fun r => pure (r.1, u16 r.2)) s₁ = _
  rw [bind_of_ok ((volume_blockRead hs hfixed hv addr len s₁).trans (congrArg Except.ok hread)),
    hslice, u16_of_lt (by omega)]
  rfl

theorem volume_beside (hw : d.writable = true) :
    Beside (kernelFsDeviceMiniFs (p.functors t) d) size (image i)
      (SameFor t₀.devices image (fun j => j ≠ i)) := by
  have hsmall := hs.small i d size hv
  refine ⟨sameFor_refl _ _ _, fun _ _ _ => sameFor_trans, fun s addr len hin => ?_,
    fun s addr data hin => ?_⟩
  · obtain ⟨s', hrun, hsame⟩ := volume_reads hs hfixed hv s addr len hin s (sameFor_refl _ _ _ _)
    exact ⟨s', hrun, hsame i d size hv trivial, sameFor_mono hsame (fun _ _ => trivial)⟩
  · obtain ⟨s', hwrite, himage, hsame⟩ := hs.stores.write i d size hv hw s addr data hin
    refine ⟨s', ?_, himage, hsame⟩
    change (kAssert d.writable >>= fun _ => (p.functors t).blockWrite d data addr >>=
      fun n => pure (u16 n)) s = _
    rw [hw]
    change ((p.functors t).blockWrite d data addr >>= fun n => pure (u16 n)) s = _
    rw [bind_of_ok ((volume_blockWrite hs hfixed hv addr data s).trans (congrArg Except.ok hwrite)),
      u16_of_lt (by omega)]
    rfl

/-- A query gives what it gives on the image and changes no volume. -/
theorem volume_query {α : Type} {x : Prog α} (hx : x.ReadOnly) {s : σ} {a : α} {m' : Image}
    (hexec : x.exec size (image i s) = some (a, m')) :
    ∃ s', x.run (kernelFsDeviceMiniFs (p.functors t) d) s = .ok (a, s') ∧
      SameFor t₀.devices image (fun _ => True) s s' :=
  gives_readOnly (volume_reads hs hfixed hv s) hx hexec s (sameFor_refl _ _ _ _)

/-- A change of a writable volume is a step of its map and leaves the others. -/
theorem volume_call (hw : d.writable = true) {s : σ} {v : Volume}
    (h : Minifs.Holds size (image i s) v) (op : Op) (hop : op.Bounded) :
    ∃ r s' v', (op.call ⟨true⟩).run (kernelFsDeviceMiniFs (p.functors t) d) s = .ok (r, s') ∧
      Minifs.Holds size (image i s') v' ∧ Minifs.Step true op r v.fileMap v'.fileMap ∧
      SameFor t₀.devices image (fun j => j ≠ i) s s' := by
  obtain ⟨r, m', v', hexec, hholds, hstep⟩ : ∃ r m' v',
      (op.call ⟨true⟩).exec size (image i s) = some (r, m') ∧ Minifs.Holds size m' v' ∧
        Minifs.Step true op r v.fileMap v'.fileMap := exec_call h op hop
  obtain ⟨s', hrun, himage, hsame⟩ := beside_run (volume_beside hs hfixed hv hw)
    (fun _ _ => rfl) hexec
  exact ⟨r, s', v', hrun, holds_congr hholds himage, hstep, hsame⟩

end Programs

end ArduinoOS.Kernel
