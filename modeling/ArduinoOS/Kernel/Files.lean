import ArduinoOS.Kernel.MountFunctors

/-!
# Opening files and adding devices

The functions that change the file descriptor table and the device table. They
run on the tables together with the hardware.
-/

set_option autoImplicit false

namespace ArduinoOS.Kernel
open ArduinoOS.ByteProgram ArduinoOS.Faulting ArduinoOS.Minifs

abbrev KernelRun (σ : Type) := Run (Tables × σ) Fault

/-- The drivers, the FAT code and the depth of the stack. -/
structure Platform (σ : Type) where
  drv : Drivers σ
  fat : FatFns
  depth : ℕ

/-- Block devices that are arrays of bytes, one for each user data. Nothing
comes from or goes to characters, and memory is never short. -/
def memoryDrivers : Drivers (List (List UInt8)) where
  commonFlush _ _ s := (true, s)
  characterRead _ _ s := (-1, s)
  characterCanRead _ _ s := (false, s)
  characterWrite _ _ _ s := (0, s)
  characterCanWrite _ _ s := (false, s)
  blockRead _ userData len addr s :=
    let data := ((s.getD userData []).drop addr).take len
    ((data, data.length), s)
  blockWrite _ userData data addr s :=
    let image := s.getD userData []
    if addr+data.length ≤ image.length then
      (data.length, s.set userData (image.take addr++data++image.drop (addr+data.length)))
    else (0, s)
  malloc _ s := (true, s)

/-- No FAT volume can be mounted. -/
def noFat : FatFns where
  Fat := Empty
  fatMountFast := pure none
  fatMountSafe := pure none
  fatFileExists vol := vol.elim
  fatIsDir vol := vol.elim
  fatDirIsEmpty vol := vol.elim
  fatFileRead vol := vol.elim

def memoryPlatform (depth : ℕ) : Platform (List (List UInt8)) := ⟨memoryDrivers, noFat, depth⟩

/-- A table whose used slots come first. -/
def deviceTable (l : List KernelFsDevice) : Devices := fun i => l[i]?

def pinDevice (name : String) (userData : ℕ) : KernelFsDevice :=
  ⟨CStr.lit name, .driver 0, userData, .character false, true⟩

def directoryDevice (name : String) : KernelFsDevice :=
  ⟨CStr.lit name, .null, 0, .directory, true⟩

/-- The root, its directory of devices and the first two pins. -/
def pinDevices : List KernelFsDevice :=
  [directoryDevice "/", directoryDevice "/dev", pinDevice "/dev/pin0" 0, pinDevice "/dev/pin1" 1]

variable {σ : Type} (p : Platform σ)

def Platform.functors (t : Tables) : Functors σ := Kernel.functors p.drv p.fat t p.depth

/-- An access to files, between changes of the tables. -/
def access {α : Type} (x : Functors σ → Tables → Hw σ α) : KernelRun σ α :=
  onSecond (fun t => x (p.functors t) t)

/-- `kstrC`: whether there was memory for a copy of the string. -/
def kstrC (s : CStr) : KernelRun σ Bool := onSecond (fun _ => total (p.drv.malloc (s.length+1)))

/-! ### Open, dupe and close -/

/-- The last free entry and whether the path is open already. -/
def kernelFsFileOpenScan (fdt : Fdt) (path : CStr) (i newFd : ℕ) (alreadyOpen : Bool) :
    ℕ → ℕ × Bool
  | 0 => (newFd, alreadyOpen)
  | fuel+1 =>
      if i = KernelFsFdInvalid then kernelFsFileOpenScan fdt path (i+1) newFd alreadyOpen fuel
      else
        match fdt i with
        | none => kernelFsFileOpenScan fdt path (i+1) i alreadyOpen fuel
        | some e => kernelFsFileOpenScan fdt path (i+1) newFd (alreadyOpen || e.path == path) fuel

/-- Everything that is checked before the table is touched. -/
def kernelFsFileOpenCheck (path : CStr) (mode : ℕ) : KernelRun σ Bool :=
  if kernelFsPathIsValid path = false then pure false
  else if mode = KernelFsFdModeNone ∨ mode > KernelFsFdModeMax then pure false
  else do
    let fileExists ← access p (fun f t => kernelFsFileExists f p.fat t path)
    if fileExists = false then pure false
    else do
      let t ← getFirst
      if (kernelFsFileOpenScan t.fdt path 0 KernelFsFdInvalid false KernelFsFdMax).2 then
        fromExcept (kernelFsFileCanOpenMany t.devices path)
      else pure true

/-- The new entry; without a device for the path it is cleared again. -/
def kernelFsFileOpenCommit (t : Tables) (newFd : ℕ) (path : CStr) (mode : ℕ) : ℕ × Tables :=
  match kernelFsGetDeviceFromPathRecursiveLoop t.devices path 0 0 none KernelFsDevicesMax with
  | none => (KernelFsFdInvalid, t.setFd newFd none)
  | some deviceIndex => (newFd, t.setFd newFd (some
      { path := path
        spare := kernelFsFdPathSpareMake mode 1
        deviceIndex := deviceIndex }))

def kernelFsFileOpen (path : CStr) (mode : ℕ) : KernelRun σ ℕ := do
  let ok ← kernelFsFileOpenCheck p path mode
  if ok = false then pure KernelFsFdInvalid
  else do
    let t ← getFirst
    let newFd := (kernelFsFileOpenScan t.fdt path 0 KernelFsFdInvalid false KernelFsFdMax).1
    let hasMemory ← kstrC p path
    if hasMemory = false then do
      setFirst (t.setFd newFd none)
      pure KernelFsFdInvalid
    else do
      setFirst (kernelFsFileOpenCommit t newFd path mode).2
      pure (kernelFsFileOpenCommit t newFd path mode).1

/-- A function of the tables that may change them. -/
def onTables {α : Type} (x : Tables → Except Fault (α × Tables)) : KernelRun σ α := do
  let t ← getFirst
  let r ← fromExcept (x t)
  setFirst r.2
  pure r.1

def fileDupe (fd : ℕ) : KernelRun σ Bool := onTables (fun t => kernelFsFileDupe t fd)

def fileClose (fd : ℕ) : KernelRun σ ℕ := onTables (fun t => kernelFsFileClose t fd)

def kernelFsFileDupeOrOpen (fd : ℕ) : KernelRun σ ℕ := do
  let duped ← fileDupe fd
  if duped then pure fd
  else do
    let t ← getFirst
    let pathK ← fromExcept (kernelFsGetFilePath t fd)
    match pathK with
    | none => pure KernelFsFdInvalid
    | some path => do
        let mode ← fromExcept (kernelFsGetFileMode t fd)
        kernelFsFileOpen p path mode

/-! ### Devices -/

/-- The dirname is left in the static path buffer, which the existence check
splits a second time when the dirname is not a device. -/
def dirnameAfterExists (devices : Devices) (dirname : CStr) : CStr :=
  if kernelFsPathIsDevice devices dirname then dirname else dirName dirname

def kernelFsParentExists (mountPoint : CStr) : KernelRun σ Bool :=
  if mountPoint = rootPath then pure true
  else
    match kernelFsPathSplit mountPoint with
    | none => throw .assertFailed
    | some (dirname, _) => do
        let parent := if dirname = [] then rootPath else dirname
        let parentExists ← access p (fun f t => kernelFsFileExists f p.fat t parent)
        if parentExists = false then pure false
        else access p (fun f t => kernelFsFileIsDir f p.fat t
          (if dirname = [] then rootPath else dirnameAfterExists t.devices dirname))

def emptySlot (devices : Devices) : Option ℕ :=
  (List.range KernelFsDevicesMax).find? (fun i => (devices i).isNone)

def kernelFsAddDeviceFile (d : KernelFsDevice) : KernelRun σ (Option ℕ) := do
  let alreadyExists ← access p (fun f t => kernelFsFileExists f p.fat t d.mountPoint)
  if alreadyExists then pure none
  else do
    let parentExists ← kernelFsParentExists p d.mountPoint
    if parentExists = false then pure none
    else do
      let t ← getFirst
      match emptySlot t.devices with
      | none => pure none
      | some slot => do
          setFirst (t.setDevice slot (some d))
          pure (some slot)

def kernelFsRemoveDeviceFileRaw (slot : ℕ) : KernelRun σ Unit := do
  let t ← getFirst
  setFirst (t.setDevice slot none)

def kernelFsAddCharacterDeviceFile (mountPoint : CStr) (functor : KernelFsDeviceFunctor)
    (userData : ℕ) (canOpenMany writable : Bool) : KernelRun σ Bool :=
  if functor = .null then throw .assertFailed
  else do
    let device ← kernelFsAddDeviceFile p
      ⟨mountPoint, functor, userData, .character (canOpenMany || !writable), writable⟩
    pure device.isSome

def kernelFsAddDirectoryDeviceFile (mountPoint : CStr) : KernelRun σ Bool := do
  let device ← kernelFsAddDeviceFile p ⟨mountPoint, .null, 0, .directory, true⟩
  pure device.isSome

/-- The attempt to mount the volume on a block device. -/
def blockDeviceMounts (slot : ℕ) (format : KernelFsBlockDeviceFormat) : KernelRun σ Bool :=
  access p (fun f t =>
    match t.devices slot with
    | none => throw .nullPointer
    | some device =>
        match format with
        | .customMiniFs => miniFsMountSafe.run (kernelFsDeviceMiniFs f device)
        | .flatFile => pure true
        | .fat => do
            let fat ← p.fat.fatMountSafe.run (kernelFsFat f device)
            pure fat.isSome
        | .nb => pure false)

def kernelFsAddBlockDeviceFile (mountPoint : CStr) (functor : KernelFsDeviceFunctor)
    (userData : ℕ) (format : KernelFsBlockDeviceFormat) (size : ℕ) (writable : Bool) :
    KernelRun σ Bool :=
  if functor = .null then throw .assertFailed
  else do
    let device ← kernelFsAddDeviceFile p
      ⟨mountPoint, functor, userData, .block size format, writable⟩
    match device with
    | none => pure false
    | some slot => do
        let mounts ← blockDeviceMounts p slot format
        if mounts then pure true
        else do
          kernelFsRemoveDeviceFileRaw slot
          pure false

def kernelFsRemoveDeviceFile (mountPoint : CStr) : KernelRun σ Unit := do
  let t ← getFirst
  match kernelFsGetDeviceFromPath t.devices mountPoint with
  | none => pure ()
  | some slot => kernelFsRemoveDeviceFileRaw slot

def kernelFsUpdateBlockDeviceFile (mountPoint : CStr) (functor : KernelFsDeviceFunctor)
    (userData : ℕ) (format : KernelFsBlockDeviceFormat) (size : ℕ) (writable : Bool) :
    KernelRun σ Bool :=
  if functor = .null then throw .assertFailed
  else do
    let t ← getFirst
    match kernelFsGetDeviceFromPath t.devices mountPoint with
    | none => pure false
    | some slot =>
        match t.devices slot with
        | none => throw .nullPointer
        | some oldDevice => do
            setFirst (t.setDevice slot (some
              ⟨oldDevice.mountPoint, functor, userData, .block size format, writable⟩))
            let mounts ← blockDeviceMounts p slot format
            if mounts then pure true
            else do
              let t' ← getFirst
              setFirst (t'.setDevice slot (some oldDevice))
              pure false

/-- The user data of the device, 0 (a null pointer) without one. -/
def kernelFsDeviceFileGetUserData (devices : Devices) (mountPoint : CStr) : ℕ :=
  match (kernelFsGetDeviceFromPath devices mountPoint).bind devices with
  | none => 0
  | some device => device.userData

/-- A device is a directory that is not empty. -/
def dirInUse (slot : ℕ) : KernelRun σ Bool :=
  access p (fun f t =>
    match t.devices slot with
    | none => throw .nullPointer
    | some device => do
        let isDir ← kernelFsDeviceIsDir f p.fat device []
        if isDir = false then pure false
        else do
          let isEmpty ← kernelFsDeviceIsDirEmpty f p.fat t device []
          pure (!isEmpty))

def kernelFsFileDelete (path : CStr) : KernelRun σ Bool := do
  let t ← getFirst
  if kernelFsFileIsOpen t path then pure false
  else
    match kernelFsGetDeviceFromPath t.devices path with
    | some slot => do
        let inUse ← dirInUse p slot
        if inUse then pure false
        else do
          kernelFsRemoveDeviceFileRaw slot
          pure true
    | none =>
        match kernelFsPathSplit path with
        | none => throw .assertFailed
        | some (dirname, basename) =>
            match (kernelFsGetDeviceFromPath t.devices dirname).bind t.devices with
            | none => pure false
            | some parentDevice =>
                match parentDevice.type with
                | .block _ .customMiniFs =>
                    access p (fun f _ => (miniFsFileDelete ⟨parentDevice.writable⟩ basename).run
                      (kernelFsDeviceMiniFs f parentDevice))
                | .block _ .flatFile => pure false
                | .block _ .fat => pure false
                | .block _ .nb => throw .assertFailed
                | .character _ => pure false
                | .directory => pure false

/-! ### Creating and resizing -/

def kernelFsFileCreateWithSize (path : CStr) (size : ℕ) : KernelRun σ Bool := do
  let t ← getFirst
  match kernelFsPathSplit path with
  | none => throw .assertFailed
  | some (dirname, basename) =>
      match (kernelFsGetDeviceFromPath t.devices dirname).bind t.devices with
      | none => pure false
      | some device =>
          match device.type with
          | .block _ .customMiniFs =>
              if device.writable then
                access p (fun f _ => (miniFsFileCreate ⟨true⟩ basename (u16 size)).run
                  (kernelFsDeviceMiniFs f device))
              else pure false
          | .block _ .flatFile => pure false
          | .block _ .fat => pure false
          | .block _ .nb => throw .assertFailed
          | .character _ => pure false
          | .directory => pure false

def kernelFsFileResize (path : CStr) (newSize : ℕ) : KernelRun σ Bool := do
  let t ← getFirst
  if kernelFsPathIsValid path = false then pure false
  else if kernelFsFileIsOpen t path then pure false
  else if (kernelFsGetDeviceFromPath t.devices path).isSome then pure false
  else
    match kernelFsPathSplit path with
    | none => throw .assertFailed
    | some (dirname, basename) =>
        match (kernelFsGetDeviceFromPath t.devices dirname).bind t.devices with
        | none => pure false
        | some parentDevice =>
            match parentDevice.type with
            | .block _ .customMiniFs =>
                if newSize ≥ UINT16_MAX then pure false
                else
                  access p (fun f _ => (miniFsFileResize ⟨parentDevice.writable⟩ basename
                    newSize).run (kernelFsDeviceMiniFs f parentDevice))
            | .block _ .flatFile => pure false
            | .block _ .fat => pure false
            | .block _ .nb => throw .assertFailed
            | .character _ => pure false
            | .directory => pure false

end ArduinoOS.Kernel
