import ArduinoOS.Kernel.Owner
import ArduinoOS.Minifs.Device
import ArduinoOS.Minifs.Listing

/-!
# Files on volumes

The MiniFs volumes of a device table, and the paths of their files: a file lies on
the volume mounted at its dirname, where the search for its device ends too.
-/

set_option autoImplicit false

namespace ArduinoOS.Kernel
open ArduinoOS.ByteProgram ArduinoOS.Faulting ArduinoOS.Minifs

/-- Slot `i` holds a MiniFs volume of this size. -/
structure IsVolume (devices : Devices) (i : ℕ) (d : KernelFsDevice) (size : ℕ) : Prop where
  slot : i < KernelFsDevicesMax
  device : devices i = some d
  type : d.type = .block size .customMiniFs

/-- The slot and the size of the volume a file with this path would lie on. -/
def fileVolume (devices : Devices) (path : CStr) : Option (ℕ × ℕ) :=
  if kernelFsPathIsValid path = false ∨ kernelFsPathIsDevice devices path then none
  else
    (kernelFsGetDeviceFromPath devices (dirName path)).bind (fun i =>
      if cachedIndex devices path = some i then
        (devices i).bind (fun d =>
          match d.type with
          | .block size .customMiniFs => some (i, size)
          | _ => none)
      else none)

/-- The path of a file of the volume in slot `i`. -/
structure OnVolume (devices : Devices) (path : CStr) (i : ℕ) (d : KernelFsDevice) (size : ℕ) :
    Prop where
  valid : kernelFsPathIsValid path = true
  file : kernelFsGetDeviceFromPath devices path = none
  parent : kernelFsGetDeviceFromPath devices (dirName path) = some i
  cached : cachedIndex devices path = some i
  volume : IsVolume devices i d size

section Paths

variable {devices : Devices} {path : CStr} {i size : ℕ} {d : KernelFsDevice}

theorem fileVolume_some (h : fileVolume devices path = some (i, size)) :
    ∃ d, OnVolume devices path i d size := by
  rw [fileVolume] at h
  split at h
  case isTrue => cases h
  case isFalse hno =>
    rw [not_or, Bool.not_eq_false] at hno
    obtain ⟨j, hj, hfound⟩ := Option.bind_eq_some_iff.mp h
    obtain ⟨hcached, hrest⟩ := Option.ite_none_right_eq_some.mp hfound
    obtain ⟨d, hd, htype⟩ := Option.bind_eq_some_iff.mp hrest
    have hnone : kernelFsGetDeviceFromPath devices path = none := by
      have hdev := hno.2
      rw [kernelFsPathIsDevice] at hdev
      simpa using hdev
    split at htype
    case h_2 => cases htype
    case h_1 n hn =>
      cases htype
      exact ⟨d, hno.1, hnone, hj, hcached, (getDevice_some hj).1, hd, hn⟩

theorem OnVolume.fileVolume (h : OnVolume devices path i d size) :
    fileVolume devices path = some (i, size) := by
  have hdev : kernelFsPathIsDevice devices path = false := by
    rw [kernelFsPathIsDevice, h.file]
    rfl
  rw [Kernel.fileVolume, if_neg (by rw [h.valid, hdev]; decide), h.parent, Option.bind_some,
    if_pos h.cached, h.volume.device, Option.bind_some, h.volume.type]

theorem OnVolume.mountPoint (h : OnVolume devices path i d size) : d.mountPoint = dirName path := by
  obtain ⟨_, d', hd', hmp⟩ := getDevice_some h.parent
  rw [h.volume.device, Option.some.injEq] at hd'
  rw [hd', hmp]

theorem OnVolume.split (h : OnVolume devices path i d size) :
    kernelFsPathSplit path = some (dirName path, baseName path) := if_pos h.valid

theorem OnVolume.bind (h : OnVolume devices path i d size) :
    (kernelFsGetDeviceFromPath devices (dirName path)).bind devices = some d := by
  rw [h.parent, Option.bind_some, h.volume.device]

theorem OnVolume.parts (h : OnVolume devices path i d size) :
    path = d.mountPoint++slash::baseName path := by
  obtain ⟨rest, hrest⟩ := valid_head h.valid
  rw [h.mountPoint]
  exact split_parts (by rw [hrest]; exact List.mem_cons_self)

theorem OnVolume.baseName_ne (h : OnVolume devices path i d size)
    (hm : kernelFsPathIsValid d.mountPoint = true) : baseName path ≠ [] := by
  intro hnil
  have hparts := h.parts
  rw [hnil] at hparts
  obtain ⟨rest, hrest⟩ := valid_head hm
  have hroot : (path == rootPath) = false := by
    rw [hparts, hrest, beq_eq_false_iff_ne]
    intro heq
    have hlen := congrArg List.length heq
    simp [rootPath] at hlen
  have hlast : path.getLast? = some slash := by
    rw [hparts]
    exact List.getLast?_concat
  have hvalid := h.valid
  rw [kernelFsPathIsValid, hroot, hlast] at hvalid
  simp at hvalid

/-- A file of a volume is named by its basename. -/
theorem OnVolume.path_inj {path' : CStr} {d' : KernelFsDevice} {size' : ℕ}
    (h : OnVolume devices path i d size) (h' : OnVolume devices path' i d' size')
    (hname : baseName path' = baseName path) : path' = path := by
  have hd := h.volume.device.symm.trans h'.volume.device
  rw [Option.some.injEq] at hd
  rw [h'.parts, h.parts, hname, hd]

end Paths

end ArduinoOS.Kernel
