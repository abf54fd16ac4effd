import ArduinoOS.Kernel.Io

/-!
# The functor of mounted devices

Reads, writes and character access of a mounted device, in terms of the file
that backs it. The format of the mount is looked up by the backing file's
descriptor, which is the device's user data. A circular buffer keeps its head
and tail offsets in front of its data, in 1, 2 or 4 bytes each.
-/

set_option autoImplicit false

namespace ArduinoOS.Kernel
open ArduinoOS.ByteProgram ArduinoOS.Faulting ArduinoOS.Minifs

section Mount

variable {σ : Type} (f : Functors σ) (fat : FatFns) (t : Tables)

/-- The fd in the user data and its entry in the table of mounted devices. -/
def mountDevice (userData : ℕ) : Hw σ KernelMountDevice := do
  kAssert (userData < KernelFsFdMax)
  match kernelMountGetDeviceFromFd t userData with
  | none => throw .assertFailed
  | some device => pure device

/-! ### Block devices -/

/-- The first byte of a partition, at most `8388607` sectors in. -/
def partitionOffset (entry : PTableEntry) : ℕ := min entry.startSector 8388607*512

def kernelMountBlockReadFunctor (addr len userData : ℕ) : Hw σ (List UInt8 × ℕ) := do
  let device ← mountDevice t userData
  if device.format = KernelMountFormatMiniFs ∨ device.format = KernelMountFormatFlatFile ∨
      device.format = KernelMountFormatFat then
    kernelFsFileReadOffset f fat t userData addr len
  else if KernelMountFormatPartition1 ≤ device.format ∧
      device.format ≤ KernelMountFormatPartition4 then do
    let entry ← pTableParseEntryFd f fat t userData (device.format-KernelMountFormatPartition1)
    match entry with
    | none => pure ([], 0)
    | some entry =>
        kernelFsFileReadOffset f fat t userData (u32 (addr+partitionOffset entry)) len
  else throw .assertFailed

def kernelMountBlockWriteFunctor (addr : ℕ) (data : List UInt8) (userData : ℕ) : Hw σ ℕ := do
  let device ← mountDevice t userData
  if device.format = KernelMountFormatMiniFs ∨ device.format = KernelMountFormatFlatFile ∨
      device.format = KernelMountFormatFat then
    kernelFsFileWriteOffset f t userData addr data
  else if KernelMountFormatPartition1 ≤ device.format ∧
      device.format ≤ KernelMountFormatPartition4 then do
    let entry ← pTableParseEntryFd f fat t userData (device.format-KernelMountFormatPartition1)
    match entry with
    | none => pure 0
    | some entry =>
        kernelFsFileWriteOffset f t userData (u32 (addr+partitionOffset entry)) data
  else throw .assertFailed

def kernelMountCommonFlushFunctor (userData : ℕ) : Hw σ Bool := do
  kAssert (userData < KernelFsFdMax)
  match t.fdt userData with
  | none => pure false
  | some e => kernelFsFileFlush f t e.path

/-! ### Circular buffers -/

/-- The path of a closed descriptor leaves the path buffer unset. -/
def kernelMountCircBufGetBackingSize (deviceFd : ℕ) : Hw σ ℕ :=
  match t.fdt deviceFd with
  | none => throw .nullPointer
  | some e => kernelFsFileGetLen f t e.path

def circBufOffsetSize (backingFileSize : ℕ) : ℕ :=
  if backingFileSize < 2^8 then 1 else if backingFileSize < 2^16 then 2 else 4

def circBufBufferSize (backingFileSize : ℕ) : ℕ :=
  if backingFileSize < 2^8 then u32 (backingFileSize+4294967296-2*1)
  else if backingFileSize < 2^16 then u32 (backingFileSize+4294967296-2*2)
  else u32 (backingFileSize+4294967296-2*4)

def kernelMountCircBufGetOffsetSize (deviceFd : ℕ) : Hw σ ℕ := do
  let backingFileSize ← kernelMountCircBufGetBackingSize f t deviceFd
  pure (circBufOffsetSize backingFileSize)

def kernelMountCircBufGetBufferSize (deviceFd : ℕ) : Hw σ ℕ := do
  let backingFileSize ← kernelMountCircBufGetBackingSize f t deviceFd
  pure (circBufBufferSize backingFileSize)

/-- The stored offset at `addr`, or `KernelFsFileOffsetMax` when it cannot be read. -/
def kernelMountCircBufGetOffset (deviceFd offsetSize addr : ℕ) : Hw σ ℕ := do
  let r ← if offsetSize = 1 then kernelFsFileReadByte f fat t deviceFd addr
    else if offsetSize = 2 then kernelFsFileReadWord f fat t deviceFd addr
    else kernelFsFileReadDoubleWord f fat t deviceFd addr
  pure (r.getD KernelFsFileOffsetMax)

def kernelMountCircBufSetOffset (deviceFd offsetSize addr offset : ℕ) : Hw σ Bool :=
  if offsetSize = 1 then kernelFsFileWriteByte f t deviceFd addr offset
  else if offsetSize = 2 then kernelFsFileWriteWord f t deviceFd addr offset
  else kernelFsFileWriteDoubleWord f t deviceFd addr offset

def kernelMountCircBufGetHeadOffset (deviceFd : ℕ) : Hw σ ℕ := do
  let offsetSize ← kernelMountCircBufGetOffsetSize f t deviceFd
  kernelMountCircBufGetOffset f fat t deviceFd offsetSize 0

def kernelMountCircBufGetTailOffset (deviceFd : ℕ) : Hw σ ℕ := do
  let offsetSize ← kernelMountCircBufGetOffsetSize f t deviceFd
  kernelMountCircBufGetOffset f fat t deviceFd offsetSize offsetSize

def kernelMountCircBufSetHeadOffset (deviceFd headOffset : ℕ) : Hw σ Bool := do
  let offsetSize ← kernelMountCircBufGetOffsetSize f t deviceFd
  kernelMountCircBufSetOffset f t deviceFd offsetSize 0 headOffset

def kernelMountCircBufSetTailOffset (deviceFd tailOffset : ℕ) : Hw σ Bool := do
  let offsetSize ← kernelMountCircBufGetOffsetSize f t deviceFd
  kernelMountCircBufSetOffset f t deviceFd offsetSize offsetSize tailOffset

def kernelMountCircBufIncOffset (deviceFd offset : ℕ) : Hw σ ℕ := do
  let bufferSize ← kernelMountCircBufGetBufferSize f t deviceFd
  pure (if offset < u32 (bufferSize+4294967295) then offset+1 else 0)

/-- -1 when nothing could be read. -/
def kernelMountCharacterReadFunctor (userData : ℕ) : Hw σ ℤ := do
  let device ← mountDevice t userData
  if device.format = KernelMountFormatCircBuf then do
    let offsetSize ← kernelMountCircBufGetOffsetSize f t userData
    let headOffset ← kernelMountCircBufGetHeadOffset f fat t userData
    let tailOffset ← kernelMountCircBufGetTailOffset f fat t userData
    if headOffset = tailOffset then pure (-1)
    else do
      let result ← kernelFsFileReadByte f fat t userData (u32 (2*offsetSize+headOffset))
      match result with
      | none => pure (-1)
      | some result => do
          let newHeadOffset ← kernelMountCircBufIncOffset f t userData headOffset
          let ok ← kernelMountCircBufSetHeadOffset f t userData newHeadOffset
          if ok = false then pure (-1) else pure (result:ℤ)
  else if device.format = KernelMountFormatFat then pure (-1)
  else throw .assertFailed

def kernelMountCharacterCanReadFunctor (userData : ℕ) : Hw σ Bool := do
  let device ← mountDevice t userData
  if device.format = KernelMountFormatCircBuf then do
    let headOffset ← kernelMountCircBufGetHeadOffset f fat t userData
    let tailOffset ← kernelMountCircBufGetTailOffset f fat t userData
    if headOffset = KernelFsFileOffsetMax ∨ tailOffset = KernelFsFileOffsetMax then pure false
    else pure (headOffset != tailOffset)
  else if device.format = KernelMountFormatFat then pure false
  else throw .assertFailed

/-- The writing loop: the new tail offset and the count, or `none` when the
backing file refuses a byte. -/
def kernelMountCircBufWriteLoop (deviceFd offsetSize headOffset : ℕ) :
    ℕ → ℕ → List UInt8 → Hw σ (Option (ℕ × ℕ))
  | tailOffset, written, [] => pure (some (tailOffset, written))
  | tailOffset, written, b::data => do
      let newTailOffset ← kernelMountCircBufIncOffset f t deviceFd tailOffset
      if newTailOffset = headOffset then pure (some (tailOffset, written))
      else do
        let ok ← kernelFsFileWriteByte f t deviceFd (u32 (2*offsetSize+tailOffset)) b.toNat
        if ok = false then pure none
        else
          kernelMountCircBufWriteLoop deviceFd offsetSize headOffset newTailOffset (written+1) data

def kernelMountCharacterWriteFunctor (userData : ℕ) (data : List UInt8) : Hw σ ℕ := do
  let device ← mountDevice t userData
  if device.format = KernelMountFormatCircBuf then do
    let offsetSize ← kernelMountCircBufGetOffsetSize f t userData
    let headOffset ← kernelMountCircBufGetHeadOffset f fat t userData
    let tailOffset ← kernelMountCircBufGetTailOffset f fat t userData
    let r ← kernelMountCircBufWriteLoop f t userData offsetSize headOffset tailOffset 0 data
    match r with
    | none => pure 0
    | some (tailOffset, written) => do
        let ok ← kernelMountCircBufSetTailOffset f t userData tailOffset
        if ok = false then pure 0 else pure written
  else if device.format = KernelMountFormatFat then pure 0
  else throw .assertFailed

def kernelMountCharacterCanWriteFunctor (userData : ℕ) : Hw σ Bool := do
  let device ← mountDevice t userData
  if device.format = KernelMountFormatCircBuf then do
    let headOffset ← kernelMountCircBufGetHeadOffset f fat t userData
    let tailOffset ← kernelMountCircBufGetTailOffset f fat t userData
    if headOffset = KernelFsFileOffsetMax ∨ tailOffset = KernelFsFileOffsetMax then pure false
    else do
      let newTailOffset ← kernelMountCircBufIncOffset f t userData tailOffset
      pure (newTailOffset != headOffset)
  else if device.format = KernelMountFormatFat then pure false
  else throw .assertFailed

end Mount

/-! ### All functors -/

section Functors

variable {σ : Type} (drv : Drivers σ) (fat : FatFns) (t : Tables)

/-- No stack is left. -/
def noFunctors : Functors σ where
  commonFlush _ := throw .stackOverflow
  characterRead _ := throw .stackOverflow
  characterCanRead _ := throw .stackOverflow
  characterWrite _ _ := throw .stackOverflow
  characterCanWrite _ := throw .stackOverflow
  blockRead _ _ _ := throw .stackOverflow
  blockWrite _ _ _ := throw .stackOverflow

/-- One call of a device's functor, `mount` for a mounted device and `driver`
for the others. -/
def callFunctor {α : Type} (device : KernelFsDevice) (mount : ℕ → Hw σ α)
    (driver : ℕ → ℕ → Hw σ α) : Hw σ α :=
  match device.functor with
  | .kernelMountFsFunctor => mount device.userData
  | .driver id => driver id device.userData
  | .null => throw .nullPointer

def kernelMountFsFunctor (inner : Functors σ) : Functors σ where
  commonFlush device := callFunctor device (kernelMountCommonFlushFunctor inner t)
    (fun id userData => total (drv.commonFlush id userData))
  characterRead device := callFunctor device (kernelMountCharacterReadFunctor inner fat t)
    (fun id userData => total (drv.characterRead id userData))
  characterCanRead device := callFunctor device (kernelMountCharacterCanReadFunctor inner fat t)
    (fun id userData => total (drv.characterCanRead id userData))
  characterWrite device data := callFunctor device
    (fun userData => kernelMountCharacterWriteFunctor inner fat t userData data)
    (fun id userData => total (drv.characterWrite id userData data))
  characterCanWrite device := callFunctor device
    (kernelMountCharacterCanWriteFunctor inner fat t)
    (fun id userData => total (drv.characterCanWrite id userData))
  blockRead device len addr := callFunctor device
    (fun userData => kernelMountBlockReadFunctor inner fat t addr len userData)
    (fun id userData => total (drv.blockRead id userData len addr))
  blockWrite device data addr := callFunctor device
    (fun userData => kernelMountBlockWriteFunctor inner fat t addr data userData)
    (fun id userData => total (drv.blockWrite id userData data addr))

/-- The functors with `depth` levels of stack for mounts inside mounts. -/
def functors : ℕ → Functors σ
  | 0 => noFunctors
  | depth+1 => kernelMountFsFunctor drv fat t (functors depth)

end Functors

end ArduinoOS.Kernel
