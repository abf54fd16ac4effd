import ArduinoOS.Hardware.Pins
import ArduinoOS.Hardware.SdCardReader

/-!
# Hardware devices and the pins they hold

A device is registered in a slot with its own pins. The slot keeps a byte of
the type that was asked for; the pins are grabbed one by one and released
again if one of them cannot be had.
-/

set_option autoImplicit false

namespace ArduinoOS.Hardware.Registration
open ArduinoOS.Kernel (Fault)

def HwDevicePinsMax : ℕ := 8

def HwDeviceTypeUnused : ℕ := 0
def HwDeviceTypeKeypad : ℕ := 1
def HwDeviceTypeSdCardReader : ℕ := 2
def HwDeviceTypeDht22 : ℕ := 3

def HwDeviceKeypadCircBufSize : ℕ := 8

structure CircBuf where
  size : ℕ
  head : ℕ
  tail : ℕ
  deriving DecidableEq

/-- The member of the union that was written last. -/
inductive HwDeviceData
  | unset
  | keypad (mountPoint : Option (List UInt8)) (states : ℕ) (circBuf : CircBuf)
  | sdCardReader (cache : Bool) (type : SdType)
  | dht22 (lastReadTime : ℕ) (temperature humitity : ℤ)
  deriving DecidableEq

structure HwDevice where
  type : ℕ
  pins : ℕ → ℕ
  d : HwDeviceData

structure Board where
  pins : Pins
  hwDevices : ℕ → HwDevice

def hwDeviceTypeGetPinCount (type : ℕ) : ℕ :=
  if type = HwDeviceTypeKeypad then 8
  else if type = HwDeviceTypeSdCardReader then 2
  else if type = HwDeviceTypeDht22 then 2
  else 0

def hwDeviceGetType (id : ℕ) (b : Board) : ℕ :=
  if id ≥ HwDeviceIdMax then HwDeviceTypeUnused else (b.hwDevices id).type

def hwDeviceGetPinN (id n : ℕ) (b : Board) : ℕ :=
  if id ≥ HwDeviceIdMax then PinInvalid
  else if n ≥ hwDeviceTypeGetPinCount (b.hwDevices id).type then PinInvalid
  else (b.hwDevices id).pins n

def hwDeviceKeypadGetRowPin (id n : ℕ) (b : Board) : ℕ :=
  if id ≥ HwDeviceIdMax ∨ hwDeviceGetType id b ≠ HwDeviceTypeKeypad then PinInvalid
  else hwDeviceGetPinN id (4+n) b

def hwDeviceKeypadGetColumnPin (id n : ℕ) (b : Board) : ℕ :=
  if id ≥ HwDeviceIdMax ∨ hwDeviceGetType id b ≠ HwDeviceTypeKeypad then PinInvalid
  else hwDeviceGetPinN id n b

def hwDeviceDht22GetPowerPin (id : ℕ) (b : Board) : ℕ := hwDeviceGetPinN id 0 b
def hwDeviceDht22GetDataPin (id : ℕ) (b : Board) : ℕ := hwDeviceGetPinN id 1 b

/-! ### Updates of the board -/

def Board.setDevice (b : Board) (id : ℕ) (device : HwDevice) : Board :=
  { b with hwDevices := Function.update b.hwDevices id device }

def Board.setType (b : Board) (id type : ℕ) : Board :=
  b.setDevice id { b.hwDevices id with type := type }

def Board.setPin (b : Board) (id i pin : ℕ) : Board :=
  b.setDevice id { b.hwDevices id with pins := Function.update (b.hwDevices id).pins i pin }

def Board.setData (b : Board) (id : ℕ) (d : HwDeviceData) : Board :=
  b.setDevice id { b.hwDevices id with d := d }

/-- A pin is driven, then made an output. -/
def lowOutput (pinNum : ℕ) (p : Pins) : Pins :=
  pinSetMode pinNum .output (pinWrite pinNum false p).2

/-! ### Registration -/

/-- The loop that marks the slot's pins as not grabbed. -/
def clearPins (id : ℕ) : ℕ → Board → Board
  | 0, b => b
  | n+1, b => (clearPins id n b).setPin id n PinInvalid

/-- The loop that grabs the pins, with how many are left. -/
def grabPins (id : ℕ) (pins : ℕ → ℕ) (i : ℕ) : ℕ → Board → Bool × Board
  | 0, b => (true, b)
  | left+1, b =>
      match pinGrab (pins i) b.pins with
      | (false, _) => (false, b)
      | (true, p) =>
          let b := { b with pins := p }
          let b := b.setPin id i (pins i)
          grabPins id pins (i+1) left { b with pins := lowOutput (pins i) b.pins }

/-- The loop that both the failed registration and the deregistration end with. -/
def releasePins (pin : ℕ → ℕ) : ℕ → Pins → Pins
  | 0, p => p
  | n+1, p =>
      let p := releasePins pin n p
      if pin n = PinInvalid then p
      else pinRelease (pin n) (lowOutput (pin n) p)

/-- The row pins are inputs with their pullups enabled. -/
def keypadRows (id : ℕ) : ℕ → Board → Board
  | 0, b => b
  | n+1, b =>
      let b := keypadRows id n b
      let rowPin := hwDeviceKeypadGetRowPin id n b
      { b with pins := (pinWrite rowPin true (pinSetMode rowPin .input b.pins)).2 }

def keypadColumns (id : ℕ) : ℕ → Board → Board
  | 0, b => b
  | n+1, b =>
      let b := keypadColumns id n b
      { b with pins := (pinWrite (hwDeviceKeypadGetColumnPin id n b) true b.pins).2 }

def keypadInit : HwDeviceData := .keypad none 0 ⟨HwDeviceKeypadCircBufSize, 0, 0⟩

def dht22Init : HwDeviceData := .dht22 0 0 0

/-- The switch on the type that was asked for, which has no default; whether
the cache can be allocated is known. -/
def typeLogic (allocates : Bool) (id type : ℕ) (b : Board) : Bool × Board :=
  if type = HwDeviceTypeKeypad then
    (true, keypadColumns id 4 (keypadRows id 4 (b.setData id keypadInit)))
  else if type = HwDeviceTypeSdCardReader then
    if allocates = false then (false, b.setData id (.sdCardReader false .badCard))
    else (true, b.setData id (.sdCardReader true .badCard))
  else if type = HwDeviceTypeDht22 then
    let dataPin := hwDeviceDht22GetDataPin id b
    let b := { b with pins := pinSetMode dataPin .input (pinWrite dataPin false b.pins).2 }
    let b := { b with pins := (pinWrite (hwDeviceDht22GetPowerPin id b) true b.pins).2 }
    (true, b.setData id dht22Init)
  else (true, b)

def registerError (id pinCount : ℕ) (b : Board) : Bool × Board :=
  let b := b.setType id HwDeviceTypeUnused
  (false, { b with pins := releasePins (b.hwDevices id).pins pinCount b.pins })

def hwDeviceRegister (allocates : Bool) (id type : ℕ) (pins : ℕ → ℕ) (b : Board) : Bool × Board :=
  if id ≥ HwDeviceIdMax ∨ type = HwDeviceTypeUnused then (false, b)
  else if (b.hwDevices id).type ≠ HwDeviceTypeUnused then (false, b)
  else
    let b := b.setType id (u8 type)
    let pinCount := hwDeviceTypeGetPinCount (b.hwDevices id).type
    match grabPins id pins 0 pinCount (clearPins id pinCount b) with
    | (false, b) => registerError id pinCount b
    | (true, b) =>
        match typeLogic allocates id type b with
        | (false, b) => registerError id pinCount b
        | (true, b) => (true, b)

/-! ### Deregistration -/

/-- The member is read that was written, or the memory is not what it is taken for. -/
def hwDeviceKeypadUnmount (id : ℕ) (b : Board) : Except Fault Board :=
  match (b.hwDevices id).d with
  | .keypad none _ _ => .ok b
  | .keypad (some _) states circBuf => .ok (b.setData id (.keypad none states circBuf))
  | .unset => .ok b
  | _ => .error .outOfBounds

/-- The card is powered off, and the cache is freed. -/
def sdCardReaderRemove (id : ℕ) (b : Board) : Except Fault Board :=
  match (b.hwDevices id).d with
  | .sdCardReader cache .badCard => .ok (b.setData id (.sdCardReader cache .badCard))
  | .sdCardReader cache .sdVer2Plus =>
      .ok { b.setData id (.sdCardReader cache .badCard) with
        pins := (pinWrite (hwDeviceGetPinN id 0 b) false b.pins).2 }
  | .unset => .ok b
  | _ => .error .outOfBounds

def removeLogic (id : ℕ) (b : Board) : Except Fault Board :=
  if (b.hwDevices id).type = HwDeviceTypeKeypad then hwDeviceKeypadUnmount id b
  else if (b.hwDevices id).type = HwDeviceTypeSdCardReader then sdCardReaderRemove id b
  else .ok b

/-- The pins go back, and the slot is free. -/
def releaseDevice (id : ℕ) (b : Board) : Board :=
  let pinCount := hwDeviceTypeGetPinCount (b.hwDevices id).type
  let b := { b with pins := releasePins (fun i => hwDeviceGetPinN id i b) pinCount b.pins }
  b.setType id HwDeviceTypeUnused

def hwDeviceDeregister (id : ℕ) (b : Board) : Except Fault Board :=
  if id ≥ HwDeviceIdMax then .ok b
  else if (b.hwDevices id).type = HwDeviceTypeUnused then .ok b
  else do
    let b ← removeLogic id b
    .ok (releaseDevice id b)

end ArduinoOS.Hardware.Registration
