import ArduinoOS.Kernel.Tables
import ArduinoOS.Lib.Faulting
import ArduinoOS.Minifs.Source

/-!
# Access to files

Reads, writes and the queries that need them. They leave the tables alone, so
they are computations on the state of the hardware that look at the tables.
Devices are reached through their functors; the functor of a mounted device
leads back to the file that backs it, one level of the stack deeper.
-/

set_option autoImplicit false

namespace ArduinoOS.Kernel
open ArduinoOS.ByteProgram ArduinoOS.Faulting ArduinoOS.Minifs

abbrev Hw (σ : Type) := Run σ Fault

/-- The functors of all devices that are not mounts, by driver and user data.
A block read returns the buffer and the reported count. -/
structure Drivers (σ : Type) where
  commonFlush : ℕ → ℕ → σ → Bool × σ
  characterRead : ℕ → ℕ → σ → ℤ × σ
  characterCanRead : ℕ → ℕ → σ → Bool × σ
  characterWrite : ℕ → ℕ → List UInt8 → σ → ℕ × σ
  characterCanWrite : ℕ → ℕ → σ → Bool × σ
  blockRead : ℕ → ℕ → ℕ → ℕ → σ → (List UInt8 × ℕ) × σ
  blockWrite : ℕ → ℕ → List UInt8 → ℕ → σ → ℕ × σ
  malloc : ℕ → σ → Bool × σ

/-- The functions of a FAT volume, as programs over its device; `Fat` is what
mounting reads from it. -/
structure FatFns where
  Fat : Type
  fatMountFast : Prog (Option Fat)
  fatMountSafe : Prog (Option Fat)
  fatFileExists : Fat → CStr → Prog Bool
  fatIsDir : Fat → CStr → Prog Bool
  fatDirIsEmpty : Fat → CStr → Prog Bool
  fatFileRead : Fat → CStr → ℕ → ℕ → Prog (List UInt8 × ℕ)

/-- How a device is reached: the functions `kernelFsDeviceInvokeFunctor...`. -/
structure Functors (σ : Type) where
  commonFlush : KernelFsDevice → Hw σ Bool
  characterRead : KernelFsDevice → Hw σ ℤ
  characterCanRead : KernelFsDevice → Hw σ Bool
  characterWrite : KernelFsDevice → List UInt8 → Hw σ ℕ
  characterCanWrite : KernelFsDevice → Hw σ Bool
  blockRead : KernelFsDevice → ℕ → ℕ → Hw σ (List UInt8 × ℕ)
  blockWrite : KernelFsDevice → List UInt8 → ℕ → Hw σ ℕ

def KernelMountFormatMiniFs : ℕ := 0
def KernelMountFormatFlatFile : ℕ := 1
def KernelMountFormatPartition1 : ℕ := 2
def KernelMountFormatPartition2 : ℕ := 3
def KernelMountFormatPartition3 : ℕ := 4
def KernelMountFormatPartition4 : ℕ := 5
def KernelMountFormatCircBuf : ℕ := 6
def KernelMountFormatFat : ℕ := 7

def UINT16_MAX : ℕ := 65535

def kAssert {σ : Type} (b : Bool) : Hw σ Unit := if b then pure () else throw .assertFailed

/-- An assertion about the device cached in a file descriptor. -/
def cacheAssert {σ : Type} (b : Bool) : Hw σ Unit := if b then pure () else throw .deviceCache

section Access

variable {σ : Type} (f : Functors σ) (fat : FatFns) (t : Tables)

/-- `kernelFsDeviceMiniFsReadWrapper` and `kernelFsDeviceMiniFsWriteWrapper`. -/
def kernelFsDeviceMiniFs (device : KernelFsDevice) : Handler σ Fault where
  abort := .assertFailed
  read addr len := do
    let r ← f.blockRead device len addr
    pure (r.1, u16 r.2)
  write addr data := do
    kAssert device.writable
    let n ← f.blockWrite device data addr
    pure (u16 n)

def kernelFsFat (device : KernelFsDevice) : Handler σ Fault where
  abort := .assertFailed
  read addr len := f.blockRead device len addr
  write addr data := do
    kAssert device.writable
    f.blockWrite device data addr

/-- The fd's path names the cached device itself. A slot no longer in use has a
null mount point, which compares equal to everything. -/
def fdIsDevice (e : KernelFsFdtEntry) : Bool :=
  (t.devices e.deviceIndex).all (fun d => d.mountPoint == e.path)

/-- The comparison of the cached device with a fresh lookup, for either case. -/
def assertFdDevice (e : KernelFsFdtEntry) : Hw σ Unit :=
  cacheAssert ((kernelFsGetDeviceFromPath t.devices e.path == some e.deviceIndex) ==
    fdIsDevice t e)

/-! ### Reading -/

/-- The loop over a character device; offsets mean nothing there. -/
def readCharacters (device : KernelFsDevice) : ℕ → Hw σ (List UInt8)
  | 0 => pure []
  | left+1 => do
      let canRead ← f.characterCanRead device
      if canRead = false then pure []
      else do
        let c ← f.characterRead device
        if c < 0 ∨ c ≥ 256 then pure []
        else do
          let rest ← readCharacters device left
          pure (UInt8.ofNat c.toNat::rest)

/-- The buffer and the count. -/
def kernelFsFileReadOffset (fd offset dataLen : ℕ) : Hw σ (List UInt8 × ℕ) := do
  kAssert (fd < KernelFsFdMax)
  match t.fdt fd with
  | none => pure ([], 0)
  | some e =>
      if kernelFsFdPathSpareGetMode e.spare &&& KernelFsFdModeRO = 0 then pure ([], 0)
      else do
        assertFdDevice t e
        match t.devices e.deviceIndex with
        | none => pure ([], 0)
        | some device =>
            if fdIsDevice t e then
              match device.type with
              | .block _ .customMiniFs => pure ([], 0)
              | .block _ .flatFile => f.blockRead device dataLen offset
              | .block _ .fat => pure ([], 0)
              | .block _ .nb => throw .assertFailed
              | .character _ => do
                  let data ← readCharacters f device dataLen
                  pure (data, data.length)
              | .directory => pure ([], 0)
            else
              match device.type with
              | .block _ .customMiniFs =>
                  if offset ≥ UINT16_MAX then pure ([], 0)
                  else do
                    let dataLen := if dataLen ≥ UINT16_MAX then UINT16_MAX else dataLen
                    (miniFsFileRead (kstrO e.path (kstrStrlen device.mountPoint+1)) offset
                      dataLen).run (kernelFsDeviceMiniFs f device)
              | .block _ .flatFile => pure ([], 0)
              | .block _ .fat => do
                  let mounted ← fat.fatMountFast.run (kernelFsFat f device)
                  match mounted with
                  | none => pure ([], 0)
                  | some vol => do
                      let r ← (fat.fatFileRead vol
                        (kstrO e.path (kstrStrlen device.mountPoint+1)) offset
                        (u16 dataLen)).run (kernelFsFat f device)
                      pure (r.1, u16 r.2)
              | .block _ .nb => throw .assertFailed
              | .character _ => pure ([], 0)
              | .directory => pure ([], 0)

def kernelFsFileCanRead (fd : ℕ) : Hw σ Bool := do
  kAssert (fd < KernelFsFdMax)
  match t.fdt fd with
  | none => pure false
  | some e =>
      if kernelFsFdPathSpareGetMode e.spare &&& KernelFsFdModeRO = 0 then pure false
      else do
        assertFdDevice t e
        match t.devices e.deviceIndex with
        | none => pure true
        | some device =>
            if fdIsDevice t e then
              match device.type with
              | .character _ => f.characterCanRead device
              | _ => pure true
            else pure true

def kernelFsFileReadByte (fd offset : ℕ) : Hw σ (Option ℕ) := do
  let r ← kernelFsFileReadOffset f fat t fd offset 1
  if r.2 = 1 then pure (some (r.1.getD 0 0).toNat) else pure none

def kernelFsFileReadWord (fd offset : ℕ) : Hw σ (Option ℕ) := do
  let r ← kernelFsFileReadOffset f fat t fd offset 2
  if r.2 = 2 then pure (some ((r.1.getD 0 0).toNat*256+(r.1.getD 1 0).toNat)) else pure none

def kernelFsFileReadDoubleWord (fd offset : ℕ) : Hw σ (Option ℕ) := do
  let r ← kernelFsFileReadOffset f fat t fd offset 4
  if r.2 = 4 then
    pure (some ((((r.1.getD 0 0).toNat*256+(r.1.getD 1 0).toNat)*256+(r.1.getD 2 0).toNat)*256+
      (r.1.getD 3 0).toNat))
  else pure none

/-! ### Writing -/

def kernelFsFileWriteOffset (fd offset : ℕ) (data : List UInt8) : Hw σ ℕ := do
  kAssert (fd < KernelFsFdMax)
  match t.fdt fd with
  | none => pure 0
  | some e =>
      if kernelFsFdPathSpareGetMode e.spare &&& KernelFsFdModeWO = 0 then pure 0
      else do
        assertFdDevice t e
        match t.devices e.deviceIndex with
        | none => pure 0
        | some device =>
            if fdIsDevice t e then
              if device.writable = false then pure 0
              else
                match device.type with
                | .block _ .customMiniFs => pure 0
                | .block _ .flatFile => f.blockWrite device data offset
                | .block _ .fat => pure 0
                | .block _ .nb => throw .assertFailed
                | .character _ => do
                    let canWrite ← f.characterCanWrite device
                    if canWrite = false then pure 0 else f.characterWrite device data
                | .directory => pure 0
            else
              match kernelFsPathSplit e.path with
              | none => throw .assertFailed
              | some (dirname, basename) => do
                  cacheAssert (kernelFsGetDeviceFromPath t.devices dirname ==
                    some e.deviceIndex)
                  if device.writable = false then pure 0
                  else
                    match device.type with
                    | .block _ .customMiniFs =>
                        if offset ≥ UINT16_MAX then pure 0
                        else
                          (miniFsFileWrite ⟨true⟩ basename offset
                            (if data.length ≥ UINT16_MAX then data.take UINT16_MAX else data)).run
                              (kernelFsDeviceMiniFs f device)
                    | .block _ .flatFile => pure 0
                    | .block _ .fat => pure 0
                    | .block _ .nb => throw .assertFailed
                    | .character _ => pure 0
                    | .directory => pure 0

def kernelFsFileCanWrite (fd : ℕ) : Hw σ Bool := do
  kAssert (fd < KernelFsFdMax)
  match t.fdt fd with
  | none => pure false
  | some e =>
      if kernelFsFdPathSpareGetMode e.spare &&& KernelFsFdModeWO = 0 then pure false
      else do
        assertFdDevice t e
        match t.devices e.deviceIndex with
        | none => pure true
        | some device =>
            if fdIsDevice t e then
              match device.type with
              | .character _ => f.characterCanWrite device
              | _ => pure true
            else pure true

def kernelFsFileWriteByte (fd offset value : ℕ) : Hw σ Bool := do
  let n ← kernelFsFileWriteOffset f t fd offset [UInt8.ofNat value]
  pure (n == 1)

def kernelFsFileWriteWord (fd offset value : ℕ) : Hw σ Bool := do
  let n ← kernelFsFileWriteOffset f t fd offset
    [UInt8.ofNat (value/256), UInt8.ofNat (value%256)]
  pure (n == 2)

def kernelFsFileWriteDoubleWord (fd offset value : ℕ) : Hw σ Bool := do
  let n ← kernelFsFileWriteOffset f t fd offset
    [UInt8.ofNat (value/16777216), UInt8.ofNat (value/65536%256), UInt8.ofNat (value/256%256),
      UInt8.ofNat (value%256)]
  pure (n == 4)

/-! ### Queries by path -/

def kernelFsFileExists (path : CStr) : Hw σ Bool :=
  if kernelFsPathIsDevice t.devices path then pure true
  else
    match kernelFsPathSplit path with
    | none => throw .assertFailed
    | some (dirname, basename) =>
        match (kernelFsGetDeviceFromPath t.devices dirname).bind t.devices with
        | none => pure false
        | some device =>
            match device.type with
            | .block _ .customMiniFs =>
                (miniFsFileExists basename).run (kernelFsDeviceMiniFs f device)
            | .block _ .flatFile => pure false
            | .block _ .fat => do
                let mounted ← fat.fatMountFast.run (kernelFsFat f device)
                match mounted with
                | none => pure false
                | some vol => (fat.fatFileExists vol basename).run (kernelFsFat f device)
            | .block _ .nb => throw .assertFailed
            | .character _ => pure false
            | .directory => pure false

def kernelFsDeviceIsDir (device : KernelFsDevice) (subPath : CStr) : Hw σ Bool :=
  match device.type with
  | .block _ .customMiniFs => pure (subPath == [])
  | .block _ .fat =>
      if subPath = [] then pure true
      else do
        let mounted ← fat.fatMountFast.run (kernelFsFat f device)
        match mounted with
        | none => pure false
        | some vol => (fat.fatIsDir vol subPath).run (kernelFsFat f device)
  | .block _ .flatFile => pure false
  | .block _ .nb => throw .assertFailed
  | .character _ => pure false
  | .directory => pure (subPath == [])

def kernelFsFileIsDir (path : CStr) : Hw σ Bool :=
  match kernelFsGetDeviceFromPathRecursive t.devices path with
  | none => throw .nullPointer
  | some (i, subPath) =>
      match t.devices i with
      | none => throw .assertFailed
      | some device => kernelFsDeviceIsDir f fat device subPath

/-- The search for a child device, from slot `i` on. -/
def kernelFsDeviceIsDirEmptyLoop (parentDir : CStr) (i : ℕ) : ℕ → Hw σ Bool
  | 0 => pure true
  | fuel+1 =>
      match t.devices i with
      | none => kernelFsDeviceIsDirEmptyLoop parentDir (i+1) fuel
      | some childDevice => do
          let isChild ← fromExcept (kernelFsDeviceIsChildOfPath childDevice parentDir)
          if isChild then pure false else kernelFsDeviceIsDirEmptyLoop parentDir (i+1) fuel

def kernelFsDeviceIsDirEmpty (device : KernelFsDevice) (subPath : CStr) : Hw σ Bool :=
  match device.type with
  | .block _ .customMiniFs =>
      if subPath ≠ [] then pure false
      else miniFsIsEmpty.run (kernelFsDeviceMiniFs f device)
  | .block _ .flatFile => pure false
  | .block _ .fat => do
      let mounted ← fat.fatMountFast.run (kernelFsFat f device)
      match mounted with
      | none => pure false
      | some vol => (fat.fatDirIsEmpty vol subPath).run (kernelFsFat f device)
  | .block _ .nb => throw .assertFailed
  | .character _ => pure false
  | .directory =>
      if subPath ≠ [] then pure false
      else kernelFsDeviceIsDirEmptyLoop t device.mountPoint 0 KernelFsDevicesMax

def kernelFsFileGetLen (path : CStr) : Hw σ ℕ :=
  if kernelFsPathIsValid path = false then pure 0
  else
    match (kernelFsGetDeviceFromPath t.devices path).bind t.devices with
    | some device =>
        match device.type with
        | .block _ .customMiniFs => pure 0
        | .block size .flatFile => pure size
        | .block _ .fat => pure 0
        | .block _ .nb => throw .assertFailed
        | .character _ => pure 0
        | .directory => pure 0
    | none =>
        match kernelFsPathSplit path with
        | none => throw .assertFailed
        | some (dirname, basename) =>
            match (kernelFsGetDeviceFromPath t.devices dirname).bind t.devices with
            | none => pure 0
            | some parentDevice =>
                match parentDevice.type with
                | .block _ .customMiniFs =>
                    (miniFsFileGetLen basename).run (kernelFsDeviceMiniFs f parentDevice)
                | .block _ .flatFile => pure 0
                | .block _ .fat => pure 0
                | .block _ .nb => throw .assertFailed
                | .character _ => pure 0
                | .directory => pure 0

def kernelFsFileFlush (path : CStr) : Hw σ Bool :=
  if kernelFsPathIsValid path = false then pure false
  else
    match (kernelFsGetDeviceFromPath t.devices path).bind t.devices with
    | some device => f.commonFlush device
    | none =>
        match kernelFsPathSplit path with
        | none => throw .assertFailed
        | some (dirname, _) =>
            match (kernelFsGetDeviceFromPath t.devices dirname).bind t.devices with
            | some parentDevice => f.commonFlush parentDevice
            | none => pure false

/-! ### Partition tables -/

structure PTableEntry where
  attributes : ℕ
  partitionType : ℕ
  numSectors : ℕ
  startSector : ℕ

/-- Four bytes, least significant first. -/
def littleEndian (buffer : List UInt8) (i : ℕ) : ℕ :=
  ((((buffer.getD (i+3) 0).toNat*256+(buffer.getD (i+2) 0).toNat)*256+
    (buffer.getD (i+1) 0).toNat)*256)+(buffer.getD i 0).toNat

def pTableParseEntryFd (fd n : ℕ) : Hw σ (Option PTableEntry) := do
  let magicBytes ← kernelFsFileReadOffset f fat t fd 510 2
  if magicBytes.2 ≠ 2 then pure none
  else if magicBytes.1.getD 0 0 ≠ 0x55 ∨ magicBytes.1.getD 1 0 ≠ 0xAA then pure none
  else do
    let buffer ← kernelFsFileReadOffset f fat t fd (446+16*n) 16
    if buffer.2 ≠ 16 then pure none
    else pure (some
      { attributes := (buffer.1.getD 0 0).toNat
        partitionType := (buffer.1.getD 4 0).toNat
        numSectors := littleEndian buffer.1 12
        startSector := littleEndian buffer.1 8 })

end Access

end ArduinoOS.Kernel
