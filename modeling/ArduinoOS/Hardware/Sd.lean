import ArduinoOS.Hardware.Pins
import ArduinoOS.Hardware.SdCardReader
import ArduinoOS.Lib.Fuel

/-!
# Starting an SD card

The dialogue with a card: commands are written, and the bytes that the card
sends back are looked at. What the card sends, transfer by transfer, is a
sequence of any bytes; it does not depend on what is written in this model.
-/

set_option autoImplicit false

namespace ArduinoOS.Hardware.Sd
open ArduinoOS.Faulting
open ArduinoOS.Kernel (Fault)

inductive SdInitResult
  | ok
  | spiLockFail
  | couldNotReset
  | badCard
  | unsupportedCard
  deriving DecidableEq

inductive SdAddressMode
  | byte
  | block
  deriving DecidableEq

structure SdCard where
  blockCount : ℕ
  type : SdType
  addressMode : SdAddressMode
  powerPin : ℕ
  slaveSelectPin : ℕ

/-- The transfers so far, the pins, and the kernel's lock of the SPI bus, with
the descriptors of `/dev/spi` that are open. -/
structure Host where
  pos : ℕ
  pins : Pins
  kernelSpiLockFd : ℕ
  kernelSpiSlaveSelectPin : ℕ
  opened : List ℕ

abbrev SdRun := Run (Host × SdCard) Fault

def onHost {α : Type} (f : Host → α × Host) : SdRun α := fun s =>
  .ok ((f s.1).1, ((f s.1).2, s.2))

def setPin (pinNum : ℕ) (value : Bool) : SdRun Unit :=
  onHost (fun h => ((), { h with pins := (pinWrite pinNum value h.pins).2 }))

def onCard (f : SdCard → SdCard) : SdRun Unit := fun s => .ok ((), (s.1, f s.2))

-- the bytes that the card sends; the descriptor that opening the bus gives, 0 for none
variable (bytes : ℕ → UInt8) (spiFd : ℕ)

/-! ### The bus -/

/-- The bus belongs to nobody, and is opened. -/
def kernelSpiGrabLockNoSlaveSelect : SdRun Bool :=
  onHost (fun h =>
    if h.kernelSpiLockFd ≠ 0 then (false, h)
    else if spiFd = 0 then (false, h)
    else (true, { h with
      kernelSpiLockFd := spiFd, kernelSpiSlaveSelectPin := 255, opened := spiFd::h.opened }))

def kernelSpiReleaseLock : SdRun Unit :=
  onHost (fun h =>
    if h.kernelSpiLockFd = 0 then ((), h)
    else
      let pins := if h.kernelSpiSlaveSelectPin ≠ 255
        then (pinWrite h.kernelSpiSlaveSelectPin true h.pins).2 else h.pins
      ((), { h with
        pins := pins, opened := h.opened.erase h.kernelSpiLockFd, kernelSpiLockFd := 0 }))

def spiReadByte : SdRun UInt8 :=
  onHost (fun h => (bytes h.pos, { h with pos := h.pos+1 }))

/-- What comes back while these bytes are written is not looked at. -/
def spiWriteBytes (written : List UInt8) : SdRun Unit :=
  onHost (fun h => ((), { h with pos := h.pos+written.length }))

def sdWriteCommand (command : List UInt8) : SdRun Unit := spiWriteBytes command

def sdWriteDummyBytesN (count : ℕ) : SdRun Unit := spiWriteBytes (List.replicate count 0xFF)

def sdWaitForResponse : ℕ → SdRun UInt8
  | 0 => pure 0xFF
  | max+1 => do
      let byte ← spiReadByte bytes
      if byte ≠ 0xFF then pure byte else sdWaitForResponse max

/-- The loop has no bound. -/
def sdWriteDummyBytes : ℕ → SdRun Unit
  | 0 => throw .diverges
  | fuel+1 => do
      let byte ← spiReadByte bytes
      if byte ≠ 0xFF then sdWriteDummyBytes fuel else pure ()

/-- The four bytes of a longer response. -/
def sdReadFour : SdRun (List UInt8) := do
  let r0 ← sdWaitForResponse bytes 16
  let r1 ← sdWaitForResponse bytes 16
  let r2 ← sdWaitForResponse bytes 16
  let r3 ← sdWaitForResponse bytes 16
  pure [r0, r1, r2, r3]

/-- Bytes that are read one by one. -/
def readBytes : ℕ → SdRun (List UInt8)
  | 0 => pure []
  | n+1 => do
      let byte ← spiReadByte bytes
      let rest ← readBytes n
      pure (byte::rest)

/-! ### The size of a card -/

/-- The checks of `READ_BL_LEN` in the two versions of the CSD register. -/
def csdRefused (version readBlLen : ℕ) : Bool :=
  if version = 0 then decide (readBlLen < 9-2) else decide (readBlLen ≠ 9)

/-- The blocks of a card by its register; the shift is not negative after the
check. -/
def csdBlockCount (csd : List UInt8) : ℕ :=
  let byte := fun i => (csd.getD i 0).toNat
  if byte 0/64 = 0 then
    let readBlLen := byte 5 % 16
    let cSize := byte 6 % 4*1024+byte 7*4+byte 8/64
    let cSizeMult := byte 9 % 4*2+byte 10/128
    u32 ((cSize+1)*2^(cSizeMult+2+readBlLen-9))
  else
    let cSize := byte 7 % 64*65536+byte 8*256+byte 9
    let cSizeMax := 2^22-1
    u32 (((if cSize ≥ cSizeMax then cSizeMax-1 else cSize)+1)*1024)

/-- The register, two bytes of a checksum and a flush. -/
def sdReadCsd (fuel : ℕ) : SdRun SdInitResult := do
  let first ← spiReadByte bytes
  if first.toNat/64 ≥ 2 then pure .badCard
  else do
    let head ← readBytes bytes 5
    if csdRefused (first.toNat/64) ((head.getD 4 0).toNat % 16) then pure .badCard
    else do
      let rest ← readBytes bytes 10
      onCard (fun card => { card with blockCount := csdBlockCount (first::(head++rest)) })
      let _ ← readBytes bytes 2
      sdWriteDummyBytes bytes fuel
      pure .ok

/-! ### The dialogue -/

/-- CMD55 and ACMD41 until the card is ready, and how it ended otherwise. -/
def sdStartLoop (fuel : ℕ) : ℕ → SdRun (Option SdInitResult)
  | 0 => pure (some .badCard)
  | i+1 => do
      sdWriteCommand [0x77, 0x00, 0x00, 0x00, 0x00, 0x65]
      let responseByte ← sdWaitForResponse bytes 16
      sdWriteDummyBytes bytes fuel
      if responseByte = 0x05 then pure (some .unsupportedCard)
      else if responseByte ≠ 0x01 then pure (some .badCard)
      else do
        sdWriteCommand [0x69, 0x40, 0x00, 0x00, 0x00, 0x77]
        let responseByte ← sdWaitForResponse bytes 16
        sdWriteDummyBytes bytes fuel
        if responseByte = 0x01 then sdStartLoop fuel i
        else if responseByte = 0x00 then pure none
        else pure (some .badCard)

/-- CMD8 and what follows until the type of the card is known. -/
def sdCheckVoltage (fuel : ℕ) : SdRun (Option SdInitResult) := do
  sdWriteCommand [0x48, 0x00, 0x00, 0x01, 0xAA, 0x87]
  let responseByte ← sdWaitForResponse bytes 16
  if responseByte ≠ 0x01 then do
    sdWriteDummyBytes bytes fuel
    pure (some .unsupportedCard)
  else do
    let responseR7 ← sdReadFour bytes
    sdWriteDummyBytes bytes fuel
    if responseR7 ≠ [0x00, 0x00, 0x01, 0xAA] then pure (some .badCard)
    else sdStartLoop bytes fuel 1024

/-- CMD0 and what follows. -/
def sdOpen (fuel : ℕ) : SdRun (Option SdInitResult) := do
  sdWriteCommand [0x40, 0x00, 0x00, 0x00, 0x00, 0x95]
  let responseByte ← sdWaitForResponse bytes 16
  if responseByte ≠ 0x01 then pure (some .couldNotReset)
  else do
    sdWriteDummyBytes bytes fuel
    sdCheckVoltage bytes fuel

/-- CMD9 and the data token. -/
def sdCheckCsd (fuel : ℕ) : SdRun SdInitResult := do
  sdWriteCommand [0x49, 0x00, 0x00, 0x00, 0x00, 0x01]
  let responseByte ← sdWaitForResponse bytes 16
  sdWriteDummyBytes bytes fuel
  if responseByte ≠ 0x00 then pure .badCard
  else do
    let token ← sdWaitForResponse bytes 1024
    if token ≠ 0xFE then pure .badCard
    else sdReadCsd bytes fuel

/-- CMD16, for a card that is addressed by bytes. -/
def sdSetBlockSize (fuel : ℕ) (addressMode : SdAddressMode) : SdRun SdInitResult :=
  if addressMode = .byte then do
    sdWriteCommand [0x50, 0x00, 0x00, 0x02, 0x00, 0x01]
    let responseByte ← sdWaitForResponse bytes 16
    sdWriteDummyBytes bytes fuel
    if responseByte ≠ 0x00 then pure .badCard else sdCheckCsd bytes fuel
  else sdCheckCsd bytes fuel

def addressModeOf (responseR3 : List UInt8) : SdAddressMode :=
  if (responseR3.getD 0 0).toNat/64 % 2 = 1 then .block else .byte

/-- From the point where the type is known: CMD58 and what follows. -/
def sdDescribe (fuel : ℕ) : SdRun SdInitResult := do
  onCard (fun card => { card with type := .sdVer2Plus })
  sdWriteCommand [0x7A, 0x00, 0x00, 0x00, 0x00, 0x01]
  let responseByte ← sdWaitForResponse bytes 16
  if responseByte ≠ 0x00 then do
    sdWriteDummyBytes bytes fuel
    pure .badCard
  else do
    let responseR3 ← sdReadFour bytes
    sdWriteDummyBytes bytes fuel
    onCard (fun card => { card with addressMode := addressModeOf responseR3 })
    sdSetBlockSize bytes fuel (addressModeOf responseR3)

/-- The dialogue once the lock is held. -/
def sdDialogue (fuel : ℕ) : SdRun SdInitResult := do
  let opened ← sdOpen bytes fuel
  match opened with
  | some result => pure result
  | none => sdDescribe bytes fuel

/-- The end of a good start, and the end of a bad one. -/
def sdFinish (powerPin slaveSelectPin : ℕ) (result : SdInitResult) : SdRun SdInitResult :=
  if result = .ok then do
    setPin slaveSelectPin true
    kernelSpiReleaseLock
    pure result
  else do
    setPin slaveSelectPin true
    setPin powerPin false
    kernelSpiReleaseLock
    pure result

def sdInit (fuel powerPin slaveSelectPin : ℕ) : SdRun SdInitResult := do
  onCard (fun _ => ⟨0, .badCard, .byte, powerPin, slaveSelectPin⟩)
  let locked ← kernelSpiGrabLockNoSlaveSelect spiFd
  if locked = false then pure .spiLockFail
  else do
    spiWriteBytes [0xFF]
    setPin powerPin true
    sdWriteDummyBytesN 200
    setPin slaveSelectPin false
    let result ← sdDialogue bytes fuel
    sdFinish powerPin slaveSelectPin result

/-- The card is turned off. -/
def sdQuit : SdRun Unit := fun s =>
  if s.2.type = .badCard then .ok ((), s)
  else .ok ((), ({ s.1 with pins := (pinWrite s.2.powerPin false s.1.pins).2 },
    { s.2 with type := .badCard }))

end ArduinoOS.Hardware.Sd
