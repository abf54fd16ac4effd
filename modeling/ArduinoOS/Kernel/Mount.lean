import ArduinoOS.Kernel.Files

/-!
# Mounting

Mounting puts a device in front of an open file and records both; unmounting
finds the record through the fd in the device's user data. Remounting copies a
MiniFs volume to another file and then moves the mount over to it.
-/

set_option autoImplicit false

namespace ArduinoOS.Kernel
open ArduinoOS.ByteProgram ArduinoOS.Faulting ArduinoOS.Minifs

variable {σ : Type} (p : Platform σ)

/-! ### Mount -/

/-- The block device of a mount, with its mount point copied to the heap. -/
def mountBlockDevice (dirPath : CStr) (deviceFd : ℕ) (format : KernelFsBlockDeviceFormat)
    (size : ℕ) : KernelRun σ Bool := do
  let hasMemory ← kstrC p dirPath
  if hasMemory = false then throw .assertFailed
  else kernelFsAddBlockDeviceFile p dirPath .kernelMountFsFunctor deviceFd format size true

/-- The character device of a circular buffer. -/
def mountCircBufDevice (devicePath dirPath : CStr) (deviceFd : ℕ) : KernelRun σ Bool := do
  let len ← access p (fun f t => kernelFsFileGetLen f t devicePath)
  if len < 4 then pure false
  else do
    let hasMemory ← kstrC p dirPath
    if hasMemory = false then throw .assertFailed
    else
      kernelFsAddCharacterDeviceFile p dirPath .kernelMountFsFunctor deviceFd true true

/-- Head and tail that stand for an empty buffer. -/
def mountCircBufOffsets (deviceFd : ℕ) : KernelRun σ Bool := do
  let head ← access p (fun f t => kernelMountCircBufSetHeadOffset f t deviceFd 0)
  if head = false then pure false
  else access p (fun f t => kernelMountCircBufSetTailOffset f t deviceFd 0)

/-- The format-specific part; `false` is its error label. A format outside the
enumeration matches no case. -/
def kernelMountFormat (format : ℕ) (devicePath dirPath : CStr) (deviceFd : ℕ) :
    KernelRun σ Bool :=
  if format = KernelMountFormatMiniFs then do
    let size ← access p (fun f t => kernelFsFileGetLen f t devicePath)
    mountBlockDevice p dirPath deviceFd .customMiniFs size
  else if format = KernelMountFormatFlatFile then do
    let size ← access p (fun f t => kernelFsFileGetLen f t devicePath)
    mountBlockDevice p dirPath deviceFd .flatFile size
  else if KernelMountFormatPartition1 ≤ format ∧ format ≤ KernelMountFormatPartition4 then do
    let entry ← access p (fun f t =>
      pTableParseEntryFd f p.fat t deviceFd (format-KernelMountFormatPartition1))
    match entry with
    | none => pure false
    | some entry =>
        mountBlockDevice p dirPath deviceFd .flatFile (min entry.numSectors 8388607*512)
  else if format = KernelMountFormatCircBuf then do
    let added ← mountCircBufDevice p devicePath dirPath deviceFd
    if added = false then pure false else mountCircBufOffsets p deviceFd
  else if format = KernelMountFormatFat then do
    let size ← access p (fun f t => kernelFsFileGetLen f t devicePath)
    mountBlockDevice p dirPath deviceFd .fat size
  else pure true

def pushMounted (d : KernelMountDevice) : KernelRun σ Unit := do
  let t ← getFirst
  setFirst (t.setMounted (t.mounted++[d]))

def popMounted : KernelRun σ Unit := do
  let t ← getFirst
  setFirst (t.setMounted t.mounted.dropLast)

def kernelMount (format : ℕ) (devicePath dirPath : CStr) : KernelRun σ Bool :=
  if kernelFsPathIsValid devicePath = false ∨ kernelFsPathIsValid dirPath = false then pure false
  else do
    let t ← getFirst
    if t.mounted.length ≥ kernelMountedDevicesMax then pure false
    else do
      let deviceFd ← kernelFsFileOpen p devicePath KernelFsFdModeRW
      if deviceFd = KernelFsFdInvalid then pure false
      else do
        pushMounted ⟨u8 format, deviceFd⟩
        let ok ← kernelMountFormat p format devicePath dirPath deviceFd
        if ok then pure true
        else do
          popMounted
          let _ ← fileClose deviceFd
          pure false

/-! ### Unmount -/

/-- The entry at `i` is overwritten by the last one. -/
def removeMounted (mounted : List KernelMountDevice) (i : ℕ) : List KernelMountDevice :=
  match mounted.getLast? with
  | none => mounted
  | some last => (mounted.set i last).dropLast

def findMounted (mounted : List KernelMountDevice) (fd : ℕ) : Option ℕ :=
  mounted.findIdx? (fun d => d.fd == fd)

def kernelUnmount (dirPath : CStr) : KernelRun σ Unit :=
  if kernelFsPathIsValid dirPath = false then pure ()
  else do
    let t ← getFirst
    let deviceFd := u8 (kernelFsDeviceFileGetUserData t.devices dirPath)
    match findMounted t.mounted deviceFd with
    | none => pure ()
    | some i => do
        kernelFsRemoveDeviceFile dirPath
        let _ ← fileClose deviceFd
        let t' ← getFirst
        setFirst (t'.setMounted (removeMounted t'.mounted i))

/-! ### Remount -/

def KernelMountFormatIsDir (format : ℕ) : Bool :=
  format == KernelMountFormatMiniFs || format == KernelMountFormatFat

/-- `kernelFsFdMiniFsReadWrapper` and `kernelFsFdMiniFsWriteWrapper`. -/
def kernelFsFdMiniFs (f : Functors σ) (t : Tables) (fd : ℕ) : Handler σ Fault where
  abort := .assertFailed
  read addr len := do
    kAssert (fd != 0)
    let r ← kernelFsFileReadOffset f p.fat t fd addr len
    pure (r.1, u16 r.2)
  write addr data := do
    kAssert (fd != 0)
    let n ← kernelFsFileWriteOffset f t fd addr data
    pure (u16 n)

def kernelRemountCopyBufferSize : ℕ := 256

/-- The chunks of one file from `offset` on. The 16 bit offset of a file that
ends in the last chunk below 64kb wraps, and the copy does not end. -/
def kernelRemountCopyFile (old new : Handler σ Fault) (name : CStr) (childLen offset : ℕ) :
    ℕ → Hw σ Bool
  | 0 => throw .diverges
  | fuel+1 =>
      if offset < childLen then do
        let chunkSize := min (childLen-offset) kernelRemountCopyBufferSize
        let r ← (miniFsFileRead name offset chunkSize).run old
        if r.2 ≠ chunkSize then pure false
        else do
          let n ← (miniFsFileWrite ⟨true⟩ name offset (r.1.take chunkSize)).run new
          if n ≠ chunkSize then pure false
          else
            kernelRemountCopyFile old new name childLen
              (u16 (offset+kernelRemountCopyBufferSize)) fuel
      else pure true

def kernelRemountCopyFiles (old new : Handler σ Fault) (child : ℕ) : ℕ → Hw σ Bool
  | 0 => pure true
  | fuel+1 => do
      let name ← (miniFsGetChildN child).run old
      match name with
      | none => kernelRemountCopyFiles old new (child+1) fuel
      | some name => do
          let childLen ← (miniFsFileGetLen name).run old
          let created ← (miniFsFileCreate ⟨true⟩ name childLen).run new
          if created = false then pure false
          else do
            let copied ← kernelRemountCopyFile old new name childLen 0 257
            if copied = false then pure false
            else kernelRemountCopyFiles old new (child+1) fuel

/-- The new file is formatted and receives the files of the old volume. -/
def kernelRemountCopy (oldDeviceFd newDeviceFd newDeviceLen : ℕ) (f : Functors σ) (t : Tables) :
    Hw σ Bool := do
  let formatted ← (miniFsFormat (u16 newDeviceLen)).run (kernelFsFdMiniFs p f t newDeviceFd)
  if formatted = false then pure false
  else do
    let childCount ← miniFsGetChildCount.run (kernelFsFdMiniFs p f t oldDeviceFd)
    kernelRemountCopyFiles (kernelFsFdMiniFs p f t oldDeviceFd)
      (kernelFsFdMiniFs p f t newDeviceFd) 0 childCount

def setMountedAt (i : ℕ) (d : KernelMountDevice) : KernelRun σ Unit := do
  let t ← getFirst
  setFirst (t.setMounted (t.mounted.set i d))

/-- The update of the device at `dirPath`; only a MiniFs volume or a format
outside the enumeration gets this far. -/
def kernelRemountUpdate (newFormat : ℕ) (dirPath : CStr) (newDeviceFd newDeviceLen : ℕ) :
    KernelRun σ Bool :=
  if newFormat = KernelMountFormatMiniFs then do
    let hasMemory ← kstrC p dirPath
    if hasMemory = false then throw .assertFailed
    else
      kernelFsUpdateBlockDeviceFile p dirPath .kernelMountFsFunctor newDeviceFd .customMiniFs
        newDeviceLen true
  else pure true

/-- The two stages after the copy. -/
def kernelRemountCommit (newFormat : ℕ) (dirPath : CStr) (i : ℕ) (oldDevice : KernelMountDevice)
    (newDeviceFd newDeviceLen : ℕ) : KernelRun σ Bool := do
  setMountedAt i ⟨u8 newFormat, newDeviceFd⟩
  let updated ← kernelRemountUpdate p newFormat dirPath newDeviceFd newDeviceLen
  if updated then do
    let _ ← fileClose oldDevice.fd
    pure true
  else do
    let _ ← fileClose newDeviceFd
    setMountedAt i oldDevice
    pure false

def kernelRemountWithBuffers (newFormat : ℕ) (newDevicePath dirPath : CStr) :
    KernelRun σ Bool :=
  if kernelFsPathIsValid dirPath = false then pure false
  else do
    let t ← getFirst
    let oldDeviceFd := u8 (kernelFsDeviceFileGetUserData t.devices dirPath)
    match (findMounted t.mounted oldDeviceFd).bind
        (fun i => (t.mounted[i]?).map (fun d => (i, d))) with
    | none => pure false
    | some (i, oldDevice) =>
        if KernelMountFormatIsDir newFormat ≠ KernelMountFormatIsDir oldDevice.format then
          pure false
        else do
          let newDeviceFd ← kernelFsFileOpen p newDevicePath KernelFsFdModeRW
          if newDeviceFd = KernelFsFdInvalid then pure false
          else do
            let newDeviceLen ← access p (fun f t => kernelFsFileGetLen f t newDevicePath)
            if newFormat = KernelMountFormatMiniFs then do
              let copied ← access p (kernelRemountCopy p oldDeviceFd newDeviceFd newDeviceLen)
              if copied = false then do
                let _ ← fileClose newDeviceFd
                pure false
              else
                kernelRemountCommit p newFormat dirPath i oldDevice newDeviceFd newDeviceLen
            else if KernelMountFormatFlatFile ≤ newFormat ∧
                newFormat ≤ KernelMountFormatCircBuf then do
              let _ ← fileClose newDeviceFd
              pure false
            else if newFormat = KernelMountFormatFat then pure false
            else kernelRemountCommit p newFormat dirPath i oldDevice newDeviceFd newDeviceLen

end ArduinoOS.Kernel
