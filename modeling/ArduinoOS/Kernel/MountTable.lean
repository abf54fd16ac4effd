import ArduinoOS.Kernel.Calls
import Mathlib.Data.List.Perm.Basic

/-!
# The two tables of mounts

Runs of mounts, unmounts, remounts and deletes, next to a record of the devices
that mounts have made. A mounted entry and its device are linked by a descriptor
that the device holds as its user data. The link is lost when another device
holds the same number, when the device is deleted like any other, and when a
format outside the enumeration leaves one table alone.
-/

set_option autoImplicit false

namespace ArduinoOS.Kernel
open ArduinoOS.Faulting

variable {σ : Type} (p : Platform σ)

/-! ### Calls and the devices they made -/

inductive MountCall
  | mount (format : ℕ) (devicePath dirPath : CStr)
  | unmount (dirPath : CStr)
  | remount (newFormat : ℕ) (newDevicePath dirPath : CStr)
  | delete (path : CStr)

/-- An unmount has no reply of its own. -/
def MountCall.run : MountCall → KernelRun σ Bool
  | .mount format devicePath dirPath => kernelMount p format devicePath dirPath
  | .unmount dirPath => do
      kernelUnmount dirPath
      pure true
  | .remount newFormat newDevicePath dirPath =>
      kernelRemountWithBuffers p newFormat newDevicePath dirPath
  | .delete path => kernelFsFileDelete p path

/-- The call added a device of its own. -/
def MountCall.Mounted : MountCall → Bool → Prop
  | .mount _ _ _, reply => reply = true
  | _, _ => False

/-- The slots of the devices that a successful mount has created and that have
not been removed since. -/
abbrev Made := ℕ → Prop

def Made.after (made : Made) (c : MountCall) (reply : Bool) (t t' : Tables) : Made :=
  fun slot => t'.devices slot ≠ none ∧ (made slot ∨ (c.Mounted reply ∧ t.devices slot = none))

/-- If the user data of the device at the path is a mounted descriptor, a mount
has made the device. -/
def Unaliased (t : Tables) (made : Made) (dirPath : CStr) : Prop :=
  ∀ slot, kernelFsGetDeviceFromPath t.devices dirPath = some slot →
    (∃ m ∈ t.mounted, m.fd = mountFdAt t dirPath) → made slot

/-- The condition for one call. -/
def MountCall.Fine (s : Tables × σ) (made : Made) : MountCall → Prop
  | .mount format devicePath dirPath => MountRoom s.1 devicePath dirPath →
      (∃ fd s₁, fd ≠ KernelFsFdInvalid ∧
        kernelFsFileOpen p devicePath KernelFsFdModeRW s = .ok (fd, s₁)) →
      format ≤ KernelMountFormatFat
  | .unmount dirPath => Unaliased s.1 made dirPath
  | .remount newFormat _ dirPath => Unaliased s.1 made dirPath ∧
      ∀ i old, RemountFound s.1 newFormat dirPath i old → newFormat ≤ KernelMountFormatFat
  | .delete path => ∀ slot, Deletes p path slot s → ¬ made slot

/-- The states of all runs from tables without mounts, with the devices made. -/
inductive MountReached : Tables × σ → Made → Prop
  | start (s : Tables × σ) (h : s.1.mounted = []) : MountReached s (fun _ => False)
  | call {s s' : Tables × σ} {made : Made} (c : MountCall) (reply : Bool)
      (hs : MountReached s made) (hfine : c.Fine p s made) (hrun : c.run p s = .ok (reply, s')) :
      MountReached s' (made.after c reply s.1 s'.1)

/-- Entries and made devices correspond one to one. -/
structure MountTable (t : Tables) (made : Made) : Prop where
  device : ∀ slot, made slot → slot < KernelFsDevicesMax ∧
    ∃ d, t.devices slot = some d ∧ ∃ m ∈ t.mounted, m.fd = d.userData
  entry : ∀ m ∈ t.mounted, ∃ slot d, made slot ∧ t.devices slot = some d ∧ d.userData = m.fd
  once : ∀ slot slot' d d', made slot → made slot' → t.devices slot = some d →
    t.devices slot' = some d' → d.userData = d'.userData → slot = slot'
  distinct : (t.mounted.map KernelMountDevice.fd).Nodup
  opened : ∀ m ∈ t.mounted, m.fd ≠ KernelFsFdInvalid ∧ m.fd < KernelFsFdMax ∧ t.fdt m.fd ≠ none

/-! ### Removal from the list -/

theorem removeMounted_perm {mounted : List KernelMountDevice} {i : ℕ} {m : KernelMountDevice}
    (h : mounted[i]? = some m) : mounted.Perm (m::removeMounted mounted i) := by
  obtain ⟨hlt, hm⟩ := List.getElem?_eq_some_iff.mp h
  have hsome : mounted.getLast?.isSome := by
    rw [List.getLast?_isSome]
    exact List.ne_nil_of_length_pos (by omega)
  obtain ⟨last, hlast⟩ := Option.isSome_iff_exists.mp hsome
  rw [removeMounted, hlast]
  -- the last entry is still the last one after the copy
  have hend : (mounted.set i last).getLast? = some last := by
    rw [List.getLast?_eq_getElem?] at hlast ⊢
    rw [List.length_set, List.getElem?_set]
    by_cases hi : i = mounted.length-1
    · rw [if_pos hi, if_pos (by omega)]
    · rw [if_neg hi, hlast]
  have hcopy : (last::(mounted.set i last).dropLast).Perm (last::mounted.eraseIdx i) := by
    have happend := List.dropLast_append_getLast? last hend
    have hcons : ((mounted.set i last).dropLast++[last]).Perm
        (last::(mounted.set i last).dropLast) := List.perm_append_comm
    rw [happend] at hcons
    exact hcons.symm.trans (List.set_perm_cons_eraseIdx hlt last)
  rw [← hm]
  exact (List.getElem_cons_eraseIdx_perm hlt).symm.trans
    (List.Perm.cons _ (List.Perm.cons_inv hcopy).symm)

/-! ### The link between an entry and its device -/

theorem closed_frame {t t' : Tables} {fd : ℕ} (h : TableStep t (.closed fd) t') :
    t'.devices = t.devices ∧ t'.mounted = t.mounted ∧ ∀ k, k ≠ fd → t'.fdt k = t.fdt k := by
  cases h with
  | closedNull he => exact ⟨rfl, rfl, fun _ _ => rfl⟩
  | closed he hlast => exact ⟨rfl, rfl, fun k hk => by rw [Tables.setFd_fdt, if_neg hk]⟩
  | closedOne he hmore => exact ⟨rfl, rfl, fun k hk => by rw [Tables.setFd_fdt, if_neg hk]⟩

section Link

variable {t : Tables} {made : Made} (h : MountTable t made)

include h

theorem made_userData {slot : ℕ} {d : KernelFsDevice} (hmade : made slot)
    (hd : t.devices slot = some d) : ∃ m ∈ t.mounted, m.fd = d.userData := by
  obtain ⟨_, d', hd', m, hm, hfd⟩ := h.device slot hmade
  rw [hd] at hd'
  cases hd'
  exact ⟨m, hm, hfd⟩

/-- A mount found from a path, unless an alias is at the path, is that of the
device there. -/
theorem found_made {dirPath : CStr} (hfine : Unaliased t made dirPath) {i : ℕ}
    (hfound : findMounted t.mounted (mountFdAt t dirPath) = some i) :
    ∃ slot d m, kernelFsGetDeviceFromPath t.devices dirPath = some slot ∧ made slot ∧
      t.devices slot = some d ∧ t.mounted[i]? = some m ∧ m.fd = mountFdAt t dirPath ∧
      d.userData = m.fd := by
  obtain ⟨m, hm, hfd⟩ := findMounted_some hfound
  have hmem : m ∈ t.mounted := List.mem_of_getElem? hm
  cases hslot : kernelFsGetDeviceFromPath t.devices dirPath with
  | none =>
    rw [mountFdAt_none hslot] at hfd
    exact absurd hfd (h.opened m hmem).1
  | some slot =>
    have hmade := hfine slot hslot ⟨m, hmem, hfd⟩
    obtain ⟨_, d, hd, m', hm', hfd'⟩ := h.device slot hmade
    refine ⟨slot, d, m, rfl, hmade, hd, hm, hfd, ?_⟩
    have hlt := (h.opened m' hm').2.1
    rw [hfd, mountFdAt_device hslot hd, ← hfd', u8]
    simp only [KernelFsFdMax] at hlt
    omega

/-- Without a mounted descriptor in its user data, or with a device no mount has
made, nothing is found from a path. -/
theorem found_none {dirPath : CStr} (hfine : Unaliased t made dirPath)
    (hnot : ∀ slot, kernelFsGetDeviceFromPath t.devices dirPath = some slot → ¬ made slot) :
    findMounted t.mounted (mountFdAt t dirPath) = none := by
  cases hfound : findMounted t.mounted (mountFdAt t dirPath) with
  | none => rfl
  | some i =>
    obtain ⟨slot, _, _, hslot, hmade, _⟩ := found_made h hfine hfound
    exact absurd hmade (hnot slot hslot)

/-- What does not touch mounted entries, their descriptors and the made devices. -/
theorem mountTable_frame {t' : Tables} {made' : Made} (hmounted : t'.mounted = t.mounted)
    (hdevices : ∀ slot, made slot → t'.devices slot = t.devices slot)
    (hfdt : ∀ m ∈ t.mounted, t.fdt m.fd ≠ none → t'.fdt m.fd ≠ none)
    (hmade : ∀ slot, made' slot ↔ made slot) : MountTable t' made' := by
  have heq : made' = made := funext (fun slot => propext (hmade slot))
  rw [heq]
  constructor
  · intro slot hslot
    rw [hdevices slot hslot, hmounted]
    exact h.device slot hslot
  · intro m hm
    rw [hmounted] at hm
    obtain ⟨slot, d, hslot, hd, hfd⟩ := h.entry m hm
    exact ⟨slot, d, hslot, by rw [hdevices slot hslot, hd], hfd⟩
  · intro slot slot' d d' hs hs' hd hd' hud
    rw [hdevices slot hs] at hd
    rw [hdevices slot' hs'] at hd'
    exact h.once slot slot' d d' hs hs' hd hd' hud
  · rw [hmounted]
    exact h.distinct
  · intro m hm
    rw [hmounted] at hm
    obtain ⟨hne, hlt, hopen⟩ := h.opened m hm
    exact ⟨hne, hlt, hfdt m hm hopen⟩

/-- Without the entry of a device that goes away. -/
theorem mountTable_drop {t' : Tables} {made' : Made} {slot : ℕ} {d : KernelFsDevice}
    {m : KernelMountDevice} (hslot : made slot) (hd : t.devices slot = some d)
    (hlink : d.userData = m.fd) (hmounted : t.mounted.Perm (m::t'.mounted))
    (hdevices : ∀ k, k ≠ slot → t'.devices k = t.devices k)
    (hfdt : ∀ k, k ≠ m.fd → t'.fdt k = t.fdt k)
    (hmade : ∀ k, made' k ↔ made k ∧ k ≠ slot) : MountTable t' made' := by
  have hmem : ∀ m', m' ∈ t.mounted ↔ m' = m ∨ m' ∈ t'.mounted := fun m' => by
    rw [hmounted.mem_iff, List.mem_cons]
  have hnodup := (hmounted.map KernelMountDevice.fd).nodup_iff.mp h.distinct
  rw [List.map_cons, List.nodup_cons] at hnodup
  have hother : ∀ m' ∈ t'.mounted, m'.fd ≠ m.fd :=
    fun m' hm' hfd => hnodup.1 (List.mem_map.mpr ⟨m', hm', hfd⟩)
  constructor
  · intro k hk
    obtain ⟨hk, hne⟩ := (hmade k).mp hk
    obtain ⟨hlt, e, he, m', hm', hfd⟩ := h.device k hk
    refine ⟨hlt, e, by rw [hdevices k hne, he], m', ?_, hfd⟩
    rcases (hmem m').mp hm' with rfl | hm'
    · exact absurd (h.once k slot e d hk hslot he hd (by rw [hlink, hfd])) hne
    · exact hm'
  · intro m' hm'
    obtain ⟨k, e, hk, he, hfd⟩ := h.entry m' ((hmem m').mpr (Or.inr hm'))
    have hne : k ≠ slot := by
      rintro rfl
      rw [hd] at he
      cases he
      exact hother m' hm' (hfd.symm.trans hlink)
    exact ⟨k, e, (hmade k).mpr ⟨hk, hne⟩, by rw [hdevices k hne, he], hfd⟩
  · intro k k' e e' hk hk' he he' hud
    obtain ⟨hk, hne⟩ := (hmade k).mp hk
    obtain ⟨hk', hne'⟩ := (hmade k').mp hk'
    rw [hdevices k hne] at he
    rw [hdevices k' hne'] at he'
    exact h.once k k' e e' hk hk' he he' hud
  · exact hnodup.2
  · intro m' hm'
    obtain ⟨hne, hlt, hopen⟩ := h.opened m' ((hmem m').mpr (Or.inr hm'))
    exact ⟨hne, hlt, by rw [hfdt _ (hother m' hm')]; exact hopen⟩

/-- With one more entry and its device, in a slot that held no made device. -/
theorem mountTable_add {t' : Tables} {made' : Made} {slot : ℕ} {d : KernelFsDevice}
    {m : KernelMountDevice} (hlt : slot < KernelFsDevicesMax) (hslot : ¬ made slot)
    (hd : t'.devices slot = some d) (hlink : d.userData = m.fd)
    (hmounted : t'.mounted.Perm (m::t.mounted))
    (hdevices : ∀ k, k ≠ slot → t'.devices k = t.devices k)
    (hfd : m.fd ≠ KernelFsFdInvalid ∧ m.fd < KernelFsFdMax ∧ t'.fdt m.fd ≠ none)
    (hfree : ∀ m' ∈ t.mounted, m'.fd ≠ m.fd)
    (hfdt : ∀ k, k ≠ m.fd → t'.fdt k = t.fdt k)
    (hmade : ∀ k, made' k ↔ made k ∨ k = slot) : MountTable t' made' := by
  have hmem : ∀ m', m' ∈ t'.mounted ↔ m' = m ∨ m' ∈ t.mounted := fun m' => by
    rw [hmounted.mem_iff, List.mem_cons]
  have hold : ∀ k, made k → t'.devices k = t.devices k := by
    intro k hk
    apply hdevices
    rintro rfl
    exact hslot hk
  -- the new link is to a number no made device holds
  have hother : ∀ k e, made k → t.devices k = some e → e.userData ≠ m.fd := by
    intro k e hk he hud
    obtain ⟨m', hm', hfd'⟩ := made_userData h hk he
    exact hfree m' hm' (hfd'.trans hud)
  constructor
  · intro k hk
    rcases (hmade k).mp hk with hk | rfl
    · obtain ⟨hlt', e, he, m', hm', hfd'⟩ := h.device k hk
      exact ⟨hlt', e, by rw [hold k hk, he], m', (hmem m').mpr (Or.inr hm'), hfd'⟩
    · exact ⟨hlt, d, hd, m, (hmem m).mpr (Or.inl rfl), hlink.symm⟩
  · intro m' hm'
    rcases (hmem m').mp hm' with rfl | hm'
    · exact ⟨slot, d, (hmade slot).mpr (Or.inr rfl), hd, hlink⟩
    · obtain ⟨k, e, hk, he, hfd'⟩ := h.entry m' hm'
      exact ⟨k, e, (hmade k).mpr (Or.inl hk), by rw [hold k hk, he], hfd'⟩
  · intro k k' e e' hk hk' he he' hud
    rcases (hmade k).mp hk with hk | rfl
    · rw [hold k hk] at he
      rcases (hmade k').mp hk' with hk' | rfl
      · rw [hold k' hk'] at he'
        exact h.once k k' e e' hk hk' he he' hud
      · rw [hd] at he'
        cases he'
        exact absurd (hud.trans hlink) (hother k e hk he)
    · rw [hd] at he
      cases he
      rcases (hmade k').mp hk' with hk' | rfl
      · rw [hold k' hk'] at he'
        exact absurd (hud.symm.trans hlink) (hother k' e' hk' he')
      · rfl
  · apply (hmounted.map KernelMountDevice.fd).nodup_iff.mpr
    rw [List.map_cons, List.nodup_cons]
    refine ⟨?_, h.distinct⟩
    intro hm
    obtain ⟨m', hm', hfd'⟩ := List.mem_map.mp hm
    exact hfree m' hm' hfd'
  · intro m' hm'
    rcases (hmem m').mp hm' with rfl | hm'
    · exact hfd
    · obtain ⟨hne, hlt', hopen⟩ := h.opened m' hm'
      exact ⟨hne, hlt', by rw [hfdt _ (hfree m' hm')]; exact hopen⟩

end Link

/-! ### Calls -/

theorem unmount_unfound {dirPath : CStr} {s : Tables × σ}
    (h : findMounted s.1.mounted (mountFdAt s.1 dirPath) = none) :
    (kernelUnmount dirPath : KernelRun σ Unit) s = .ok ((), s) := by
  have hget : (getFirst : KernelRun σ Tables) s = .ok (s.1, s) := rfl
  rw [kernelUnmount]
  by_cases hv : kernelFsPathIsValid dirPath = false
  · rw [if_pos hv]
    rfl
  rw [if_neg hv, bind_of_ok hget]
  rw [mountFdAt] at h
  simp only [h]
  rfl

theorem remount_unfound {newFormat : ℕ} {newDevicePath dirPath : CStr} {s : Tables × σ}
    (h : findMounted s.1.mounted (mountFdAt s.1 dirPath) = none) :
    kernelRemountWithBuffers p newFormat newDevicePath dirPath s = .ok (false, s) := by
  have hget : (getFirst : KernelRun σ Tables) s = .ok (s.1, s) := rfl
  rw [kernelRemountWithBuffers]
  by_cases hv : kernelFsPathIsValid dirPath = false
  · rw [if_pos hv]
    rfl
  rw [if_neg hv, bind_of_ok hget]
  rw [mountFdAt] at h
  simp only [h]
  rfl

/-- Nothing becomes a made device unless a mount succeeds. -/
theorem after_unmounted {made : Made} {c : MountCall} {reply : Bool} {t t' : Tables}
    (hc : ¬ c.Mounted reply) (slot : ℕ) :
    made.after c reply t t' slot ↔ t'.devices slot ≠ none ∧ made slot := by
  rw [Made.after]
  constructor
  · rintro ⟨hd, hmade | ⟨hm, _⟩⟩
    · exact ⟨hd, hmade⟩
    · exact absurd hm hc
  · rintro ⟨hd, hmade⟩
    exact ⟨hd, Or.inl hmade⟩

/-- A change that no link notices, by a call that mounts nothing. -/
theorem call_frame {t t' : Tables} {made : Made} (h : MountTable t made) {c : MountCall}
    {reply : Bool} (hc : ¬ c.Mounted reply) (hmounted : t'.mounted = t.mounted)
    (hdevices : ∀ slot, made slot → t'.devices slot = t.devices slot)
    (hfdt : ∀ m ∈ t.mounted, t.fdt m.fd ≠ none → t'.fdt m.fd ≠ none) :
    MountTable t' (made.after c reply t t') := by
  refine mountTable_frame h hmounted hdevices hfdt ?_
  intro slot
  rw [after_unmounted hc]
  constructor
  · exact And.right
  · intro hslot
    obtain ⟨_, d, hd, _⟩ := h.device slot hslot
    refine ⟨?_, hslot⟩
    rw [hdevices slot hslot, hd]
    simp

theorem call_same {t : Tables} {made : Made} (h : MountTable t made) {c : MountCall}
    {reply : Bool} (hc : ¬ c.Mounted reply) : MountTable t (made.after c reply t t) :=
  call_frame h hc rfl (fun _ _ => rfl) (fun _ _ ho => ho)

/-- Entry 0 of a full table is no mount's. -/
theorem call_full {t : Tables} {made : Made} (h : MountTable t made) {c : MountCall}
    {reply : Bool} (hc : ¬ c.Mounted reply) (e : Option KernelFsFdtEntry) :
    MountTable (t.setFd KernelFsFdInvalid e)
      (made.after c reply t (t.setFd KernelFsFdInvalid e)) := by
  refine call_frame h hc rfl (fun _ _ => rfl) ?_
  intro m hm hopen
  rw [Tables.setFd_fdt, if_neg (h.opened m hm).1]
  exact hopen

theorem opened_fresh {t : Tables} {made : Made} (h : MountTable t made) {devicePath : CStr}
    {fd i : ℕ} (hopened : MountOpened t devicePath fd i) : ∀ m ∈ t.mounted, m.fd ≠ fd := by
  rintro m hm rfl
  exact (h.opened m hm).2.2 hopened.free

theorem mount_keeps {t t' : Tables} {made : Made} (h : MountTable t made) {format : ℕ}
    {devicePath dirPath : CStr} {fd i slot : ℕ} {type : KernelFsDeviceType}
    (hm : Mounts t t' format devicePath dirPath fd i slot type) :
    MountTable t' (made.after (.mount format devicePath dirPath) true t t') := by
  have hslot : ¬ made slot := by
    intro hmade
    obtain ⟨_, d, hd, _⟩ := h.device slot hmade
    rw [hm.slotFree] at hd
    cases hd
  rw [hm.tables]
  refine mountTable_add h (m := ⟨u8 format, fd⟩) (d := mountedDevice dirPath fd type) hm.slotRange
    hslot ?_ rfl ?_ ?_ ?_ (opened_fresh h hm.opened) ?_ ?_
  · rw [Tables.setDevice_devices, if_pos rfl]
  · exact List.perm_append_comm
  · intro k hk
    rw [Tables.setDevice_devices, if_neg hk]
    rfl
  · refine ⟨hm.opened.valid, hm.opened.range, ?_⟩
    simp [mountPending]
  · intro k hk
    rw [Tables.setDevice_fdt, mountPending, Tables.setMounted_fdt, Tables.setFd_fdt, if_neg hk]
  · intro k
    rw [Made.after, Tables.setDevice_devices]
    by_cases hk : k = slot
    · rw [if_pos hk, hk]
      exact ⟨fun _ => Or.inr rfl, fun _ => ⟨by simp, Or.inr ⟨rfl, hm.slotFree⟩⟩⟩
    · rw [if_neg hk]
      constructor
      · rintro ⟨hne, hmade | ⟨_, hfree⟩⟩
        · exact Or.inl hmade
        · exact absurd hfree hne
      · rintro (hmade | hk')
        · obtain ⟨_, d, hd, _⟩ := h.device k hmade
          refine ⟨?_, Or.inl hmade⟩
          change t.devices k ≠ none
          rw [hd]
          simp
        · exact absurd hk' hk

theorem mountCall_keeps {format : ℕ} {devicePath dirPath : CStr} {b : Bool} {s s' : Tables × σ}
    {made : Made} (h : MountTable s.1 made)
    (hfine : (MountCall.mount format devicePath dirPath).Fine p s made)
    (hrun : kernelMount p format devicePath dirPath s = .ok (b, s')) :
    MountTable s'.1 (made.after (.mount format devicePath dirPath) b s.1 s'.1) := by
  have hno : b = false → ¬ (MountCall.mount format devicePath dirPath).Mounted b := by
    rintro rfl hb
    cases hb
  rcases mount_cases p hrun with ⟨hb, hs'⟩ | ⟨rfl, fd, i, slot, type, hm⟩ | hslip
  · rw [hs']
    exact call_same h (hno hb)
  · exact mount_keeps h hm
  have hunknown : ¬ (b = true ∧ KernelMountFormatFat < format) := by
    rintro ⟨hb, hformat⟩
    cases hslip with
    | fullTable hroom hcheck hfull hentry =>
      obtain ⟨hw, hopen⟩ := open_writes p hcheck
      rw [(scannedFd_full devicePath).mpr hfull, ite_self] at hopen
      rw [kernelMount_room p hroom, bind_of_ok hopen, if_pos rfl] at hrun
      rw [(pure_ok.mp hrun).1] at hb
      cases hb
    | unknownFormat hroom hopen hfd _ =>
      exact absurd (hfine hroom ⟨_, _, hfd, hopen⟩) (by omega)
    | offsetsRefused hroom hopen hopened hrefused =>
      exact absurd (hfine hroom ⟨_, _, hopened.valid, hopen⟩) (by omega)
  rcases slip_cases p hrun hslip with ⟨hb, e, _, hs'⟩ | ⟨hb, hformat, _⟩ | ⟨hb, slot, d, hadded⟩
  · rw [hs']
    exact call_full h (hno hb) e
  · exact absurd ⟨hb, hformat⟩ hunknown
  · rw [hadded.tables]
    refine call_frame h (hno hb) rfl ?_ (fun _ _ ho => ho)
    intro k hk
    obtain ⟨_, e, he, _⟩ := h.device k hk
    rw [Tables.setDevice_devices, if_neg]
    rintro rfl
    rw [hadded.free] at he
    cases he

theorem unmount_keeps {dirPath : CStr} {s s' : Tables × σ} {made : Made}
    (h : MountTable s.1 made) (hfine : Unaliased s.1 made dirPath) {u : Unit}
    (hrun : (kernelUnmount dirPath : KernelRun σ Unit) s = .ok (u, s')) :
    MountTable s'.1 (made.after (.unmount dirPath) true s.1 s'.1) := by
  have hc : ¬ (MountCall.unmount dirPath).Mounted true := id
  rcases unmount_cases hrun with hs' | ⟨i, t, hfound, hclose, hs'⟩
  · rw [hs']
    exact call_same h hc
  obtain ⟨slot, d, m, hslot, hmade, hd, hm, hfd, hlink⟩ := found_made h hfine hfound
  have hwithout : withoutDevice s.1 dirPath = s.1.setDevice slot none := by
    rw [withoutDevice, hslot]
  rw [hwithout, ← hfd] at hclose
  obtain ⟨hdevices, hmounted, hfdt⟩ := closed_frame hclose
  rw [hs']
  refine mountTable_drop h hmade hd hlink ?_ ?_ hfdt ?_
  · rw [hmounted]
    exact removeMounted_perm hm
  · intro k hk
    rw [Tables.setMounted_devices, hdevices, Tables.setDevice_devices, if_neg hk]
  · intro k
    rw [after_unmounted hc, Tables.setMounted_devices, hdevices, Tables.setDevice_devices]
    by_cases hk : k = slot
    · rw [if_pos hk]
      exact ⟨fun hb => absurd rfl hb.1, fun hb => absurd hk hb.2⟩
    · rw [if_neg hk]
      refine ⟨fun hb => ⟨hb.2, hk⟩, fun hb => ⟨?_, hb.1⟩⟩
      obtain ⟨_, e, he, _⟩ := h.device k hb.1
      rw [he]
      simp

/-- The mount moves to another file: its old entry goes and a new one comes for
the same slot. -/
theorem moved_keeps {t t' : Tables} {made : Made} (h : MountTable t made) {c : MountCall}
    {reply : Bool} (hc : ¬ c.Mounted reply) {newFormat : ℕ} {newDevicePath dirPath : CStr}
    {i fd j slot size : ℕ} {old : KernelMountDevice} {d : KernelFsDevice}
    (hfine : Unaliased t made dirPath) (hfound : RemountFound t newFormat dirPath i old)
    (hopened : MountOpened t newDevicePath fd j)
    (hslot : kernelFsGetDeviceFromPath t.devices dirPath = some slot)
    (hd : t.devices slot = some d)
    (hclose : TableStep ((remountPending t newDevicePath fd j newFormat i).setDevice slot
      (some (remountedDevice d fd size))) (.closed old.fd) t') :
    MountTable t' (made.after c reply t t') := by
  obtain ⟨slot', d', m, hslot', hmade, hd', hm, hfd, hlink⟩ := found_made h hfine hfound.found
  rw [hslot] at hslot'
  cases hslot'
  rw [hd] at hd'
  cases hd'
  rw [hfound.entry] at hm
  cases hm
  obtain ⟨hdevices, hmounted, hfdt⟩ := closed_frame hclose
  obtain ⟨hlt, hget⟩ := List.getElem?_eq_some_iff.mp hfound.entry
  have hfresh := opened_fresh h hopened
  have hold : old ∈ t.mounted := List.mem_of_getElem? hfound.entry
  have hperm : t.mounted.Perm (old::t.mounted.eraseIdx i) := by
    rw [← hget]
    exact (List.getElem_cons_eraseIdx_perm hlt).symm
  have hrest : ∀ m' ∈ t.mounted.eraseIdx i, m' ∈ t.mounted := fun m' hm' =>
    hperm.mem_iff.mpr (List.mem_cons_of_mem _ hm')
  have hdrop : MountTable ⟨fun k => if k = old.fd then t'.fdt k else t.fdt k,
      fun k => if k = slot then none else t.devices k, t.mounted.eraseIdx i⟩
      (fun k => made k ∧ k ≠ slot) :=
    mountTable_drop h hmade hd hlink hperm (fun k hk => if_neg hk) (fun k hk => if_neg hk)
      (fun k => Iff.rfl)
  refine mountTable_add hdrop (m := ⟨u8 newFormat, fd⟩) (d := remountedDevice d fd size)
    (h.device slot hmade).1 (fun hb => hb.2 rfl) ?_ rfl ?_ ?_ ?_ ?_ ?_ ?_
  · rw [hdevices, Tables.setDevice_devices, if_pos rfl]
  · rw [hmounted]
    exact List.set_perm_cons_eraseIdx hlt _
  · intro k hk
    rw [hdevices, Tables.setDevice_devices, if_neg hk]
    exact (if_neg hk).symm
  · refine ⟨hopened.valid, hopened.range, ?_⟩
    rw [hfdt fd (fun he => hfresh old hold he.symm)]
    simp [remountPending, remountOpened]
  · exact fun m' hm' => hfresh m' (hrest m' hm')
  · intro k hk
    by_cases hk' : k = old.fd
    · exact (if_pos hk').symm
    · dsimp only
      rw [hfdt k hk', if_neg hk']
      simp [remountPending, remountOpened, hk]
  · intro k
    rw [after_unmounted hc, hdevices, Tables.setDevice_devices]
    by_cases hk : k = slot
    · rw [if_pos hk, hk]
      exact ⟨fun _ => Or.inr rfl, fun _ => ⟨by simp, hmade⟩⟩
    · rw [if_neg hk]
      constructor
      · exact fun hb => Or.inl ⟨hb.2, hk⟩
      · rintro (hb | hb)
        · obtain ⟨_, e, he, _⟩ := h.device k hb.1
          refine ⟨?_, hb.1⟩
          change t.devices k ≠ none
          rw [he]
          simp
        · exact absurd hb hk

theorem remount_keeps {newFormat : ℕ} {newDevicePath dirPath : CStr} {b : Bool}
    {s s' : Tables × σ} {made : Made} (h : MountTable s.1 made)
    (hfine : (MountCall.remount newFormat newDevicePath dirPath).Fine p s made)
    (hrun : kernelRemountWithBuffers p newFormat newDevicePath dirPath s = .ok (b, s')) :
    MountTable s'.1 (made.after (.remount newFormat newDevicePath dirPath) b s.1 s'.1) := by
  have hc : ∀ r, ¬ (MountCall.remount newFormat newDevicePath dirPath).Mounted r := fun _ => id
  obtain ⟨halias, hknown⟩ := hfine
  have heffect := remount_cases p hrun
  generalize s'.1 = t' at heffect
  cases heffect with
  | same => exact call_same h (hc _)
  | full e hfull => exact call_full h (hc _) e
  | @leaked i fd j old hfound hopened hformat =>
    refine call_frame h (hc _) rfl (fun _ _ => rfl) ?_
    intro m hm hopen
    rw [remountOpened, Tables.setFd_fdt, if_neg (opened_fresh h hopened m hm)]
    exact hopen
  | moved hfound hopened hformat hslot hd hclose =>
    exact moved_keeps h (hc _) halias hfound hopened hslot hd hclose
  | unknown hfound hopened hformat hclose => exact absurd (hknown _ _ hfound) (by omega)

theorem delete_keeps {path : CStr} {b : Bool} {s s' : Tables × σ} {made : Made}
    (h : MountTable s.1 made) (hfine : (MountCall.delete path).Fine p s made)
    (hrun : kernelFsFileDelete p path s = .ok (b, s')) :
    MountTable s'.1 (made.after (.delete path) b s.1 s'.1) := by
  have hc : ¬ (MountCall.delete path).Mounted b := id
  rcases delete_cases p hrun with hs' | ⟨slot, hdel, hs'⟩
  · rw [hs']
    exact call_same h hc
  · rw [hs']
    refine call_frame h hc rfl ?_ (fun _ _ ho => ho)
    intro k hk
    rw [Tables.setDevice_devices, if_neg]
    rintro rfl
    exact hfine k hdel hk

theorem call_keeps {c : MountCall} {reply : Bool} {s s' : Tables × σ} {made : Made}
    (h : MountTable s.1 made) (hfine : c.Fine p s made) (hrun : c.run p s = .ok (reply, s')) :
    MountTable s'.1 (made.after c reply s.1 s'.1) := by
  cases c with
  | mount format devicePath dirPath => exact mountCall_keeps p h hfine hrun
  | unmount dirPath =>
    obtain ⟨u, s₁, hunmount, hpure⟩ := bind_ok.mp hrun
    obtain ⟨rfl, rfl⟩ := pure_ok.mp hpure
    exact unmount_keeps h hfine hunmount
  | remount newFormat newDevicePath dirPath => exact remount_keeps p h hfine hrun
  | delete path => exact delete_keeps p h hfine hrun

theorem reached_mountTable {s : Tables × σ} {made : Made} (h : MountReached p s made) :
    MountTable s.1 made := by
  induction h with
  | start s hnone =>
    constructor
    · exact fun _ hf => hf.elim
    · intro m hm
      rw [hnone] at hm
      cases hm
    · exact fun _ _ _ _ hf => hf.elim
    · rw [hnone]
      exact List.nodup_nil
    · intro m hm
      rw [hnone] at hm
      cases hm
  | call c reply hs hfine hrun ih => exact call_keeps p ih hfine hrun

/-- Over every run from tables without mounts whose calls meet their condition:
entries and made devices correspond one to one, and an unmount or a remount of a
path changes nothing unless a mount has made the device there. -/
theorem mountTable_run {s : Tables × σ} {made : Made} (h : MountReached p s made) :
    MountTable s.1 made ∧
      ∀ dirPath, Unaliased s.1 made dirPath →
        (∀ slot, kernelFsGetDeviceFromPath s.1.devices dirPath = some slot → ¬ made slot) →
        (kernelUnmount dirPath : KernelRun σ Unit) s = .ok ((), s) ∧
        ∀ newFormat newDevicePath,
          kernelRemountWithBuffers p newFormat newDevicePath dirPath s = .ok (false, s) := by
  have htable := reached_mountTable p h
  refine ⟨htable, ?_⟩
  intro dirPath hfine hnot
  have hnone := found_none htable hfine hnot
  exact ⟨unmount_unfound hnone, fun _ _ => remount_unfound p hnone⟩

/-! ### Two chips and a pin -/

/-- Two chips and the pin whose number is the second descriptor to be given out. -/
def pinAndChips : Tables where
  fdt := fun _ => none
  devices := deviceTable [directoryDevice "/", directoryDevice "/dev",
    chipDevice "/dev/eeprom" 8 true, chipDevice "/dev/sd" 8 true, pinDevice "/dev/pin62" 62]
  mounted := []

theorem mountTable_run_chip :
    ∃ s, kernelMount (memoryPlatform 2) KernelMountFormatFlatFile (CStr.lit "/dev/eeprom")
        (CStr.lit "/mnt") (pinAndChips, [List.replicate 8 0]) = .ok (true, s) ∧
      ∃ made : Made, made 5 ∧ MountTable s.1 made ∧
        (kernelUnmount (CStr.lit "/dev/pin62") : KernelRun _ Unit) s = .ok ((), s) := by
  obtain ⟨s, hrun⟩ : ∃ s, kernelMount (memoryPlatform 2) KernelMountFormatFlatFile
      (CStr.lit "/dev/eeprom") (CStr.lit "/mnt") (pinAndChips, [List.replicate 8 0]) =
        .ok (true, s) := ⟨_, rfl⟩
  have hreached := MountReached.call (.mount KernelMountFormatFlatFile (CStr.lit "/dev/eeprom")
    (CStr.lit "/mnt")) true (MountReached.start (pinAndChips, [List.replicate 8 0]) rfl)
    (fun _ _ => by decide) hrun
  obtain ⟨htable, hother⟩ := mountTable_run (memoryPlatform 2) hreached
  have hdevices : s.1.devices 5 ≠ none := by
    cases hrun
    exact Option.isSome_iff_ne_none.mp rfl
  have hslot : kernelFsGetDeviceFromPath s.1.devices (CStr.lit "/dev/pin62") = some 4 := by
    cases hrun
    rfl
  refine ⟨s, hrun, _, ⟨hdevices, Or.inr ⟨rfl, rfl⟩⟩, htable,
    (hother (CStr.lit "/dev/pin62") ?_ ?_).1⟩
  · rintro slot - ⟨m, hm, hfd⟩
    exfalso
    cases hrun
    rw [List.mem_singleton.mp hm] at hfd
    exact absurd hfd (by decide)
  · rintro slot hs ⟨_, hmade | ⟨_, hfree⟩⟩
    · exact hmade
    · rw [hslot] at hs
      cases hs
      exact absurd hfree (Option.isSome_iff_ne_none.mp rfl)

/-- With both chips mounted, an unmount of the pin closes the second chip's
descriptor; and a mounted chip that is deleted leaves its entry behind. -/
theorem mountTable_breaks :
    (∃ s₁ s₂ s₃, kernelMount (memoryPlatform 2) KernelMountFormatFlatFile (CStr.lit "/dev/eeprom")
        (CStr.lit "/mnt") (pinAndChips, [List.replicate 8 0]) = .ok (true, s₁) ∧
      kernelMount (memoryPlatform 2) KernelMountFormatFlatFile (CStr.lit "/dev/sd")
        (CStr.lit "/usr") s₁ = .ok (true, s₂) ∧
      (kernelUnmount (CStr.lit "/dev/pin62") : KernelRun _ Unit) s₂ = .ok ((), s₃) ∧
      s₂.1.devices 4 = some (pinDevice "/dev/pin62" 62) ∧ s₃.1.devices 4 = none ∧
      s₂.1.mounted.length = 2 ∧ s₃.1.mounted.length = 1 ∧ s₃.1.fdt 62 = none ∧
      (s₃.1.devices 6).map KernelFsDevice.userData = some 62) ∧
    ∃ s₁ s₂, kernelMount (memoryPlatform 2) KernelMountFormatFlatFile (CStr.lit "/dev/eeprom")
        (CStr.lit "/mnt") (pinAndChips, [List.replicate 8 0]) = .ok (true, s₁) ∧
      kernelFsFileDelete (memoryPlatform 2) (CStr.lit "/mnt") s₁ = .ok (true, s₂) ∧
      s₂.1.devices 5 = none ∧ s₂.1.mounted.length = 1 :=
  ⟨⟨_, _, _, rfl, rfl, rfl, rfl, rfl, rfl, rfl, rfl, rfl⟩, _, _, rfl, rfl, rfl, rfl⟩

end ArduinoOS.Kernel
