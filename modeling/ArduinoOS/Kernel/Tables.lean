import ArduinoOS.Kernel.Path

/-!
# The kernel's tables

The global file descriptor table, the device table and the table of mounted
devices, with the functions that only look at them or change them without any
access to a device. A failed assertion and a use of a null pointer are faults.
-/

set_option autoImplicit false

namespace ArduinoOS.Kernel

def KernelFsFdInvalid : ℕ := 0
def KernelFsFdMax : ℕ := 64
def KernelFsDevicesMax : ℕ := 128
def kernelMountedDevicesMax : ℕ := 32
def KernelFsFileOffsetMax : ℕ := 2147483647

def KernelFsFdModeNone : ℕ := 0
def KernelFsFdModeRO : ℕ := 1
def KernelFsFdModeWO : ℕ := 2
def KernelFsFdModeRW : ℕ := 3
def KernelFsFdModeBits : ℕ := 2
def KernelFsFdModeMax : ℕ := 2^KernelFsFdModeBits

def KStrSpareBits : ℕ := 5
def KStrSpareMax : ℕ := 2^KStrSpareBits
def KernelFsFdRefCountBits : ℕ := KStrSpareBits-KernelFsFdModeBits
def KernelFsFdRefCountMax : ℕ := 2^KernelFsFdRefCountBits

/-- What stops the kernel. `deviceCache` is an assertion that compares the
device cached in a file descriptor with a fresh lookup; `diverges` is a loop
that does not end; `outOfBounds` is a byte outside its buffer. -/
inductive Fault
  | assertFailed
  | deviceCache
  | nullPointer
  | stackOverflow
  | diverges
  | outOfBounds
  deriving DecidableEq, Repr

inductive KernelFsBlockDeviceFormat
  | customMiniFs
  | flatFile
  | fat
  | nb
  deriving DecidableEq

/-- The device's type with its type-specific data. -/
inductive KernelFsDeviceType
  | block (size : ℕ) (format : KernelFsBlockDeviceFormat)
  | character (canOpenManyFlag : Bool)
  | directory
  deriving DecidableEq

/-- Mounts share one functor; all others belong to drivers. -/
inductive KernelFsDeviceFunctor
  | kernelMountFsFunctor
  | driver (id : ℕ)
  | null
  deriving DecidableEq

/-- A slot of the device table that is in use. -/
structure KernelFsDevice where
  mountPoint : CStr
  functor : KernelFsDeviceFunctor
  userData : ℕ
  type : KernelFsDeviceType
  writable : Bool
  deriving DecidableEq

/-- An entry of the file descriptor table with a non-null path, whose spare
bits hold the mode and the reference count. -/
structure KernelFsFdtEntry where
  path : CStr
  spare : ℕ
  deviceIndex : ℕ
  deriving DecidableEq

structure KernelMountDevice where
  format : ℕ
  fd : ℕ
  deriving DecidableEq

abbrev Devices := ℕ → Option KernelFsDevice

abbrev Fdt := ℕ → Option KernelFsFdtEntry

/-- The tables; unused slots and entries are `none`. `mounted` lists the used
part of `kernelMountedDevices`. -/
structure Tables where
  fdt : Fdt
  devices : Devices
  mounted : List KernelMountDevice

namespace Tables

def setFd (t : Tables) (fd : ℕ) (e : Option KernelFsFdtEntry) : Tables :=
  { t with fdt := fun i => if i = fd then e else t.fdt i }

def setDevice (t : Tables) (slot : ℕ) (d : Option KernelFsDevice) : Tables :=
  { t with devices := fun i => if i = slot then d else t.devices i }

def setMounted (t : Tables) (mounted : List KernelMountDevice) : Tables :=
  { t with mounted := mounted }

@[simp] theorem setFd_fdt (t : Tables) (fd : ℕ) (e : Option KernelFsFdtEntry) (i : ℕ) :
    (t.setFd fd e).fdt i = if i = fd then e else t.fdt i := rfl

@[simp] theorem setFd_devices (t : Tables) (fd : ℕ) (e : Option KernelFsFdtEntry) :
    (t.setFd fd e).devices = t.devices := rfl

@[simp] theorem setFd_mounted (t : Tables) (fd : ℕ) (e : Option KernelFsFdtEntry) :
    (t.setFd fd e).mounted = t.mounted := rfl

@[simp] theorem setDevice_devices (t : Tables) (slot : ℕ) (d : Option KernelFsDevice) (i : ℕ) :
    (t.setDevice slot d).devices i = if i = slot then d else t.devices i := rfl

@[simp] theorem setDevice_fdt (t : Tables) (slot : ℕ) (d : Option KernelFsDevice) :
    (t.setDevice slot d).fdt = t.fdt := rfl

@[simp] theorem setDevice_mounted (t : Tables) (slot : ℕ) (d : Option KernelFsDevice) :
    (t.setDevice slot d).mounted = t.mounted := rfl

@[simp] theorem setMounted_fdt (t : Tables) (mounted : List KernelMountDevice) :
    (t.setMounted mounted).fdt = t.fdt := rfl

@[simp] theorem setMounted_devices (t : Tables) (mounted : List KernelMountDevice) :
    (t.setMounted mounted).devices = t.devices := rfl

@[simp] theorem setMounted_mounted (t : Tables) (mounted : List KernelMountDevice) :
    (t.setMounted mounted).mounted = mounted := rfl

end Tables

/-! ### The spare bits of a path -/

/-- 0 on a bad mode or count. -/
def kernelFsFdPathSpareMake (mode refCount : ℕ) : ℕ :=
  if mode = KernelFsFdModeNone ∨ mode ≥ KernelFsFdModeMax then 0
  else if refCount ≥ KernelFsFdRefCountMax then 0
  else (u8 refCount <<< KernelFsFdModeBits) ||| mode

def kernelFsFdPathSpareGetMode (spare : ℕ) : ℕ := spare &&& (KernelFsFdModeMax-1)

def kernelFsFdPathSpareGetRefCount (spare : ℕ) : ℕ := spare >>> KernelFsFdModeBits

theorem spareMake_good {mode refCount : ℕ} (hm : 1 ≤ mode ∧ mode ≤ 3) (hr : refCount < 8) :
    kernelFsFdPathSpareGetMode (kernelFsFdPathSpareMake mode refCount) = mode ∧
      kernelFsFdPathSpareGetRefCount (kernelFsFdPathSpareMake mode refCount) = refCount := by
  have hall : ∀ m < 4, ∀ r < 8, 1 ≤ m →
      kernelFsFdPathSpareGetMode (kernelFsFdPathSpareMake m r) = m ∧
        kernelFsFdPathSpareGetRefCount (kernelFsFdPathSpareMake m r) = r := by decide
  exact hall mode (by omega) refCount hr hm.1

theorem spareMake_mode_bad {mode : ℕ} (hm : KernelFsFdModeMax ≤ mode) (refCount : ℕ) :
    kernelFsFdPathSpareMake mode refCount = 0 := by
  rw [kernelFsFdPathSpareMake, if_pos (Or.inr hm)]

/-! ### Looking up a device -/

/-- The first used slot with this mount point. -/
def kernelFsGetDeviceFromPath (devices : Devices) (path : CStr) : Option ℕ :=
  (List.range KernelFsDevicesMax).find? (fun i =>
    (devices i).any (fun d => d.mountPoint == path))

def kernelFsPathIsDevice (devices : Devices) (path : CStr) : Bool :=
  (kernelFsGetDeviceFromPath devices path).isSome

/-- The loop for the nearest parent or exact match. -/
def kernelFsGetDeviceFromPathRecursiveLoop (devices : Devices) (path : CStr)
    (i bestMatchLen : ℕ) (bestDevice : Option ℕ) : ℕ → Option ℕ
  | 0 => bestDevice
  | fuel+1 =>
      match devices i with
      | none => kernelFsGetDeviceFromPathRecursiveLoop devices path (i+1) bestMatchLen
          bestDevice fuel
      | some d =>
          if kstrMatchLen path d.mountPoint > bestMatchLen then
            if path.length < kstrStrlen d.mountPoint then
              kernelFsGetDeviceFromPathRecursiveLoop devices path (i+1) bestMatchLen
                bestDevice fuel
            else if path.length = kstrStrlen d.mountPoint then some i
            else kernelFsGetDeviceFromPathRecursiveLoop devices path (i+1)
              (kstrMatchLen path d.mountPoint) (some i) fuel
          else kernelFsGetDeviceFromPathRecursiveLoop devices path (i+1) bestMatchLen
            bestDevice fuel

/-- What the pointer into `path` is left at: after the mount point and a slash. -/
def subPathAfter (path mountPoint : CStr) : CStr :=
  if (path.drop (kstrStrlen mountPoint)).head? = some slash then
    (path.drop (kstrStrlen mountPoint)).tail
  else path.drop (kstrStrlen mountPoint)

/-- The device and the sub-path; `none` when there is no device (the source
then follows a null pointer if it was asked for the sub-path). -/
def kernelFsGetDeviceFromPathRecursive (devices : Devices) (path : CStr) : Option (ℕ × CStr) :=
  match kernelFsGetDeviceFromPathRecursiveLoop devices path 0 0 none KernelFsDevicesMax with
  | none => none
  | some i => (devices i).map (fun d => (i, subPathAfter path d.mountPoint))

/-! ### The variant for kernel strings -/

/-- The offset of an offset string: clamped, then stored in a byte. -/
def kstrO (s : CStr) (offset : ℕ) : CStr :=
  s.drop (u8 (if offset > 256 then 256 else offset))

def kernelFsGetDeviceFromPathRecursiveKStrLoop (devices : Devices) (path : CStr)
    (i bestMatchLen : ℕ) (bestDevice : Option ℕ) : ℕ → Option ℕ
  | 0 => bestDevice
  | fuel+1 =>
      match devices i with
      | none => kernelFsGetDeviceFromPathRecursiveKStrLoop devices path (i+1) bestMatchLen
          bestDevice fuel
      | some d =>
          if kstrMatchLen path d.mountPoint > bestMatchLen then
            if kstrStrlen path < kstrStrlen d.mountPoint then
              kernelFsGetDeviceFromPathRecursiveKStrLoop devices path (i+1) bestMatchLen
                bestDevice fuel
            else if kstrStrlen path = kstrStrlen d.mountPoint then some i
            else kernelFsGetDeviceFromPathRecursiveKStrLoop devices path (i+1)
              (kstrMatchLen path d.mountPoint) (some i) fuel
          else kernelFsGetDeviceFromPathRecursiveKStrLoop devices path (i+1) bestMatchLen
            bestDevice fuel

def kernelFsGetDeviceFromPathRecursiveKStr (devices : Devices) (path : CStr) :
    Option (ℕ × CStr) :=
  match kernelFsGetDeviceFromPathRecursiveKStrLoop devices path 0 0 none KernelFsDevicesMax with
  | none => none
  | some i => (devices i).map (fun d =>
      (i, kstrO path (if path.getChar (kstrStrlen d.mountPoint) = slash.val then
        kstrStrlen d.mountPoint+1 else kstrStrlen d.mountPoint)))

/-! ### Functions of the tables alone -/

def kernelFsFileIsOpen (t : Tables) (path : CStr) : Bool :=
  (List.range KernelFsFdMax).any (fun i =>
    i != KernelFsFdInvalid && (t.fdt i).any (fun e => e.path == path))

def kernelFsFileIsOpenByFd (t : Tables) (fd : ℕ) : Bool := (t.fdt fd).isSome

def kernelFsFileIsCharacter (t : Tables) (path : CStr) : Bool :=
  match (kernelFsGetDeviceFromPath t.devices path).bind t.devices with
  | some d =>
      match d.type with
      | .character _ => true
      | _ => false
  | none => false

def kernelFsFileCanOpenMany (devices : Devices) (path : CStr) : Except Fault Bool :=
  match (kernelFsGetDeviceFromPath devices path).bind devices with
  | some d =>
      match d.type with
      | .block _ _ => .ok (!d.writable)
      | .character canOpenManyFlag => .ok canOpenManyFlag
      | .directory => .ok true
  | none =>
      match kernelFsPathSplit path with
      | none => .error .assertFailed
      | some (dirname, _) =>
          match (kernelFsGetDeviceFromPath devices dirname).bind devices with
          | some parentDevice =>
              match parentDevice.type with
              | .block _ .customMiniFs => .ok (!parentDevice.writable)
              | .block _ .flatFile => .ok false
              | .block _ .fat => .ok (!parentDevice.writable)
              | .block _ .nb => .error .assertFailed
              | .character _ => .ok false
              | .directory => .ok false
          | none => .ok false

def kernelFsDeviceIsChildOfPath (device : KernelFsDevice) (parentDir : CStr) : Except Fault Bool :=
  if kernelFsPathIsValid parentDir = false then .ok false
  else if device.mountPoint = rootPath then .ok false
  else
    match kernelFsPathSplit device.mountPoint with
    | none => .error .assertFailed
    | some (dirname, _) =>
        if parentDir = rootPath then .ok (dirname == []) else .ok (dirname == parentDir)

/-! ### Reference counts -/

def kernelFsFileDupe (t : Tables) (fd : ℕ) : Except Fault (Bool × Tables) :=
  if fd < KernelFsFdMax then
    match t.fdt fd with
    | none => .ok (false, t)
    | some e =>
        if kernelFsFdPathSpareGetRefCount e.spare+1 ≥ KernelFsFdRefCountMax then .ok (false, t)
        else .ok (true, t.setFd fd (some { e with
          spare := kernelFsFdPathSpareMake (kernelFsFdPathSpareGetMode e.spare)
            (kernelFsFdPathSpareGetRefCount e.spare+1) }))
  else .error .assertFailed

/-- The count that is left; it wraps when it was 0. -/
def kernelFsFileClose (t : Tables) (fd : ℕ) : Except Fault (ℕ × Tables) :=
  if fd < KernelFsFdMax then
    match t.fdt fd with
    | none => .ok (0, t)
    | some e =>
        let refCount := u32 (kernelFsFdPathSpareGetRefCount e.spare+4294967295)
        if refCount = 0 then .ok (refCount, t.setFd fd none)
        else .ok (refCount, t.setFd fd (some { e with
          spare := kernelFsFdPathSpareMake (kernelFsFdPathSpareGetMode e.spare) refCount }))
  else .error .assertFailed

def kernelFsGetFilePath (t : Tables) (fd : ℕ) : Except Fault (Option CStr) :=
  if fd < KernelFsFdMax then .ok ((t.fdt fd).map KernelFsFdtEntry.path) else .error .assertFailed

def kernelFsGetFileMode (t : Tables) (fd : ℕ) : Except Fault ℕ :=
  if fd < KernelFsFdMax then
    match t.fdt fd with
    | none => .ok KernelFsFdModeNone
    | some e => .ok (kernelFsFdPathSpareGetMode e.spare)
  else .error .assertFailed

def kernelMountGetDeviceFromFd (t : Tables) (fd : ℕ) : Option KernelMountDevice :=
  t.mounted.find? (fun d => d.fd == fd)

end ArduinoOS.Kernel
