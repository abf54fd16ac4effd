import ArduinoOS.Kernel.Tables
import Mathlib.Algebra.Ring.Nat
import Mathlib.Data.Fin.Basic
import Mathlib.Logic.Function.Basic

/-!
# The SD card reader's cache

One block of the card is kept, with a flag for a block that is known and one
for a block that was changed. Any transfer to or from the card may fail, and a
read that fails may leave anything in the cache. The bytes of the card, with
the cache in front of it, are an array that reads and writes work on.
-/

set_option autoImplicit false

namespace ArduinoOS.Hardware
open ArduinoOS.Kernel

def SdBlockSize : ℕ := 512
def HwDeviceIdMax : ℕ := 4

theorem block_ne_zero : (512 : ℕ) ≠ 0 := by decide

/-- A block has a first byte. -/
instance neZeroBlock : NeZero (512 : ℕ) := ⟨block_ne_zero⟩

abbrev Block := Fin 512 → UInt8

inductive SdType
  | badCard
  | sdVer2Plus
  deriving DecidableEq

structure SdCard where
  type : SdType
  blockCount : ℕ
  blocks : ℕ → Block

/-- `HwDeviceSdCardReaderData`. -/
structure SdCardReader where
  sdCard : SdCard
  cache : Block
  cacheIsValid : Bool
  cacheIsDirty : Bool
  cacheBlock : ℕ

inductive HwDeviceType
  | unused
  | keypad
  | sdCardReader
  | dht22
  deriving DecidableEq

structure HwDevice where
  type : HwDeviceType
  sdCardReader : SdCardReader

/-- How a transfer over the bus ends; a read that fails leaves these bytes. -/
inductive SdTransfer
  | done
  | failed (left : Block)

/-- The place of an address in its block; it is small enough for 16 bits. -/
def blockOffset (addr : ℕ) : ℕ := u16 (addr-addr/SdBlockSize*SdBlockSize)

theorem blockOffset_eq (addr : ℕ) : blockOffset addr = addr%512 := by
  have hsize : SdBlockSize = 512 := rfl
  rw [blockOffset, hsize, u16_of_lt (by omega)]
  omega

section Functors

-- the transfers in their order
variable (bus : ℕ → SdTransfer)

/-- A reader, and the number of transfers so far. -/
structure SdState where
  reader : SdCardReader
  transfers : ℕ

def sdReadBlock (block : ℕ) (s : SdState) : Bool × SdState :=
  if block ≥ s.reader.sdCard.blockCount then (false, s)
  else
    match bus s.transfers with
    | .done => (true, ⟨{ s.reader with cache := s.reader.sdCard.blocks block }, s.transfers+1⟩)
    | .failed left => (false, ⟨{ s.reader with cache := left }, s.transfers+1⟩)

/-- The cache is written to the card. -/
def sdWriteBlock (block : ℕ) (s : SdState) : Bool × SdState :=
  if block ≥ s.reader.sdCard.blockCount then (false, s)
  else
    match bus s.transfers with
    | .done => (true, ⟨{ s.reader with sdCard := { s.reader.sdCard with
        blocks := Function.update s.reader.sdCard.blocks block s.reader.cache } },
        s.transfers+1⟩)
    | .failed _ => (false, ⟨s.reader, s.transfers+1⟩)

/-- A dirty block is written back before another one takes its place. -/
def writeBack (block : ℕ) (s : SdState) : Bool × SdState :=
  if s.reader.cacheIsValid ∧ block ≠ s.reader.cacheBlock ∧ s.reader.cacheIsDirty then
    match sdWriteBlock bus s.reader.cacheBlock s with
    | (false, s) => (false, s)
    | (true, s) => (true, ⟨{ s.reader with cacheIsDirty := false }, s.transfers⟩)
  else (true, s)

/-- The block is read unless it is there. -/
def readMissing (block : ℕ) (s : SdState) : Bool × SdState :=
  if s.reader.cacheIsValid = false ∨ block ≠ s.reader.cacheBlock then
    match sdReadBlock bus block s with
    | (false, s) => (false, ⟨{ s.reader with cacheIsValid := false }, s.transfers⟩)
    | (true, s) => (true, ⟨{ s.reader with
        cacheIsValid := true, cacheIsDirty := false, cacheBlock := block % 2^30 }, s.transfers⟩)
  else (true, s)

/-- The part that the loops of the two functors share; whether the block is in
the cache. -/
def loadBlock (block : ℕ) (s : SdState) : Bool × SdState :=
  match writeBack bus block s with
  | (false, s) => (false, s)
  | (true, s) => readMissing bus block s

/-- The loop of the read functor; the bytes that were read. -/
def readLoop (addr : ℕ) (s : SdState) : ℕ → Except Fault (List UInt8 × SdState)
  | 0 => .ok ([], s)
  | len+1 =>
      let block := addr/SdBlockSize
      match loadBlock bus block s with
      | (false, s) => .ok ([], s)
      | (true, s) =>
          if s.reader.cacheBlock ≠ block then .error .assertFailed
          else do
            let rest ← readLoop (u32 (addr+1)) s len
            .ok (s.reader.cache (Fin.ofNat 512 (blockOffset addr))::rest.1, rest.2)

/-- `memcpy` into the cache. -/
def intoCache (cache : Block) (offset : ℕ) (data : List UInt8) : Block :=
  fun i => if offset ≤ i.val then (data[i.val-offset]?).getD (cache i) else cache i

/-- The loop of the write functor, with the bytes that are left; how many were
written. -/
def writeLoop (addr : ℕ) (data : List UInt8) (s : SdState) : Except Fault (ℕ × SdState) :=
  if _hdata : data = [] then .ok (0, s)
  else
    let block := addr/SdBlockSize
    match loadBlock bus block s with
    | (false, s) => .ok (0, s)
    | (true, s) =>
        if s.reader.cacheIsValid = false ∨ s.reader.cacheBlock ≠ block then .error .assertFailed
        else do
          let offset := blockOffset addr
          let loopWriteLen := min (SdBlockSize-offset) data.length
          let s := SdState.mk { s.reader with
            cache := intoCache s.reader.cache offset (data.take loopWriteLen),
            cacheIsDirty := true } s.transfers
          let rest ← writeLoop (u32 (addr+loopWriteLen)) (data.drop loopWriteLen) s
          .ok (loopWriteLen+rest.1, rest.2)
termination_by data.length
decreasing_by
  have hpos := List.length_pos_iff.mpr _hdata
  have hsize : SdBlockSize = 512 := rfl
  rw [List.length_drop, blockOffset_eq, hsize]
  omega

def flushBlock (s : SdState) : Bool × SdState :=
  if s.reader.cacheIsValid = false ∨ s.reader.cacheIsDirty = false then (true, s)
  else
    match sdWriteBlock bus s.reader.cacheBlock s with
    | (false, s) => (false, s)
    | (true, s) => (true, ⟨{ s.reader with cacheIsDirty := false }, s.transfers⟩)

/-! ### The functors -/

structure HwState where
  hwDevices : ℕ → HwDevice
  transfers : ℕ

/-- The id is valid and names a reader with a mounted card. -/
def Served (h : HwState) (id : ℕ) : Prop :=
  id < HwDeviceIdMax ∧ (h.hwDevices id).type = .sdCardReader ∧
    (h.hwDevices id).sdCardReader.sdCard.type ≠ .badCard

instance (h : HwState) (id : ℕ) : Decidable (Served h id) :=
  inferInstanceAs (Decidable (_ ∧ _ ∧ _))

def HwState.sdState (h : HwState) (id : ℕ) : SdState :=
  ⟨(h.hwDevices id).sdCardReader, h.transfers⟩

def HwState.setSdState (h : HwState) (id : ℕ) (s : SdState) : HwState where
  hwDevices := Function.update h.hwDevices id
    { h.hwDevices id with sdCardReader := s.reader }
  transfers := s.transfers

theorem setSdState_reader (h : HwState) (id i : ℕ) (s : SdState) :
    ((h.setSdState id s).hwDevices i).sdCardReader =
      if i = id then s.reader else (h.hwDevices i).sdCardReader := by
  change (Function.update h.hwDevices id _ i).sdCardReader = _
  split
  case isTrue hi => rw [hi, Function.update_self]
  case isFalse hi => rw [Function.update_of_ne hi]

def hwDeviceSdCardReaderFlushFunctor (id : ℕ) (h : HwState) : Bool × HwState :=
  if Served h id then
    let r := flushBlock bus (h.sdState id)
    (r.1, h.setSdState id r.2)
  else (false, h)

def hwDeviceSdCardReaderReadFunctor (addr len id : ℕ) (h : HwState) :
    Except Fault (List UInt8 × HwState) :=
  if Served h id then do
    let r ← readLoop bus addr (h.sdState id) len
    .ok (r.1, h.setSdState id r.2)
  else .ok ([], h)

def hwDeviceSdCardReaderWriteFunctor (addr : ℕ) (data : List UInt8) (id : ℕ) (h : HwState) :
    Except Fault (ℕ × HwState) :=
  if Served h id then do
    let r ← writeLoop bus addr data (h.sdState id)
    .ok (r.1, h.setSdState id r.2)
  else .ok (0, h)

end Functors

end ArduinoOS.Hardware
