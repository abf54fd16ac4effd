import ArduinoOS.Hardware.Registration
import ArduinoOS.Hardware.SdConsistency

/-!
# Mounting a card in its slot

The type of the slot's card is the flag for a mounted card. A mount starts the
card and registers its block device; an unmount looks at the flag first.
-/

set_option autoImplicit false

namespace ArduinoOS.Hardware.Sd
open ArduinoOS.Faulting ArduinoOS.Fuel
open ArduinoOS.Kernel (Fault)
open ArduinoOS.Hardware.Registration (HwDeviceTypeSdCardReader hwDeviceTypeGetPinCount)

structure HwDeviceSdCardReaderData where
  sdCard : SdCard
  mountPoint : Option (List UInt8)
  cacheIsValid : Bool
  cacheIsDirty : Bool
  cacheBlock : ℕ

structure Slot where
  type : ℕ
  pins : ℕ → ℕ
  sdCardReader : HwDeviceSdCardReaderData

structure Machine (F : Type) where
  host : Host
  hwDevices : ℕ → Slot
  fs : F

/-- What the file system and the card do for these functions, and what the
stack holds where a string that is null is copied. -/
structure Environment (F : Type) where
  kernelFsAddBlockDeviceFile : List UInt8 → ℕ → F → Bool × F
  kernelFsFileDelete : List UInt8 → F → Bool × F
  sdWriteBlock : ℕ → SdRun Bool
  stack : List UInt8

section Functions

variable {F : Type}

def Machine.setReader (m : Machine F) (id : ℕ) (reader : HwDeviceSdCardReaderData) : Machine F :=
  { m with
    hwDevices := Function.update m.hwDevices id { m.hwDevices id with sdCardReader := reader } }

/-- The host and the slot's card, after something was done with them. -/
def Machine.setSd (m : Machine F) (id : ℕ) (s : Host × SdCard) : Machine F :=
  { m.setReader id { (m.hwDevices id).sdCardReader with sdCard := s.2 } with host := s.1 }

def onSd {α : Type} (id : ℕ) (x : SdRun α) : Run (Machine F) Fault α := fun m =>
  match x (m.host, (m.hwDevices id).sdCardReader.sdCard) with
  | .error e => .error e
  | .ok (a, s) => .ok (a, m.setSd id s)

def hwDeviceGetPinN (id n : ℕ) (m : Machine F) : ℕ :=
  if id ≥ HwDeviceIdMax then PinInvalid
  else if n ≥ hwDeviceTypeGetPinCount (m.hwDevices id).type then PinInvalid
  else (m.hwDevices id).pins n

def hwDeviceSdCardReaderGetPowerPin (id : ℕ) (m : Machine F) : ℕ := hwDeviceGetPinN id 0 m
def hwDeviceSdCardReaderGetSlaveSelectPin (id : ℕ) (m : Machine F) : ℕ := hwDeviceGetPinN id 1 m

/-- The size in bytes, of no more blocks than 32 bits can address. -/
def mountSize (blockCount : ℕ) : ℕ :=
  let maxBlockCount := 2^23
  u32 ((if blockCount ≥ maxBlockCount then maxBlockCount-1 else blockCount)*SdBlockSize)

variable (env : Environment F) (bytes : ℕ → UInt8) (spiFd : ℕ)

/-- The block device of a card that was started. -/
def addCard (id : ℕ) (mountPoint : List UInt8) : Run (Machine F) Fault Bool := fun m =>
  let reader := { (m.hwDevices id).sdCardReader with cacheIsValid := false }
  let m := m.setReader id reader
  match env.kernelFsAddBlockDeviceFile mountPoint (mountSize reader.sdCard.blockCount) m.fs with
  | (false, fs) => (onSd id sdQuit >>= fun _ => pure false) { m with fs := fs }
  | (true, fs) =>
      .ok (true, { m.setReader id { reader with mountPoint := some mountPoint } with fs := fs })

def hwDeviceSdCardReaderMount (fuel id : ℕ) (mountPoint : List UInt8) :
    Run (Machine F) Fault Bool := fun m =>
  if id ≥ HwDeviceIdMax then .ok (false, m)
  else if (m.hwDevices id).type ≠ HwDeviceTypeSdCardReader then .ok (false, m)
  else if (m.hwDevices id).sdCardReader.sdCard.type ≠ .badCard then .ok (false, m)
  else
    (onSd id (sdInit bytes spiFd fuel (hwDeviceSdCardReaderGetPowerPin id m)
      (hwDeviceSdCardReaderGetSlaveSelectPin id m)) >>= fun result =>
        if result ≠ .ok then pure false else addCard env id mountPoint) m

/-- A dirty block is written back; how that ends is only logged. -/
def writeBackCard (id : ℕ) : Run (Machine F) Fault Unit := fun m =>
  let reader := (m.hwDevices id).sdCardReader
  if reader.cacheIsValid = true ∧ reader.cacheIsDirty = true then
    (onSd id (env.sdWriteBlock reader.cacheBlock) >>= fun _ => pure ()) m
  else .ok ((), m)

def removeCard (id : ℕ) : Run (Machine F) Fault Unit := do
  let mountPoint ← fun m =>
    .ok (((m.hwDevices id).sdCardReader.mountPoint).getD env.stack, m)
  writeBackCard env id
  fun m => .ok ((), { m with fs := (env.kernelFsFileDelete mountPoint m.fs).2 })
  onSd id sdQuit
  fun m => .ok ((), m.setReader id { (m.hwDevices id).sdCardReader with mountPoint := none })

def hwDeviceSdCardReaderUnmount (id : ℕ) : Run (Machine F) Fault Unit := fun m =>
  if id ≥ HwDeviceIdMax then .ok ((), m)
  else if (m.hwDevices id).type ≠ HwDeviceTypeSdCardReader then .ok ((), m)
  else if (m.hwDevices id).sdCardReader.sdCard.type = .badCard then .ok ((), m)
  else removeCard env id m

end Functions

variable {F : Type} {env : Environment F} {bytes : ℕ → UInt8} {spiFd id : ℕ}
  {mountPoint : List UInt8} {m m' : Machine F} {h : Host} {c : SdCard}
  {powerPin slaveSelectPin : ℕ}

/-! ### A slot without a card -/

/-- No card is mounted with this id. -/
def Vacant (m : Machine F) (id : ℕ) : Prop :=
  id < HwDeviceIdMax → (m.hwDevices id).type = HwDeviceTypeSdCardReader →
    (m.hwDevices id).sdCardReader.sdCard.type = .badCard

theorem unmount_vacant (hvacant : Vacant m id) :
    hwDeviceSdCardReaderUnmount env id m = .ok ((), m) := by
  unfold hwDeviceSdCardReaderUnmount
  split
  · rfl
  rename_i hid
  split
  · rfl
  rename_i htype
  rw [if_pos (hvacant (Nat.lt_of_not_le hid) (not_not.mp htype))]

/-- A mount that fails can be tried again, and an unmount has nothing to do. -/
def Recovers (env : Environment F) (id : ℕ) (m m' : Machine F) : Prop :=
  Vacant m' id ∧ m'.host.kernelSpiLockFd = m.host.kernelSpiLockFd ∧
    m'.host.opened = m.host.opened ∧ hwDeviceSdCardReaderUnmount env id m' = .ok ((), m')

@[simp] theorem setSd_host (s : Host × SdCard) : (m.setSd id s).host = s.1 := rfl

@[simp] theorem setSd_card (s : Host × SdCard) :
    ((m.setSd id s).hwDevices id).sdCardReader.sdCard = s.2 := by
  simp [Machine.setSd, Machine.setReader]

@[simp] theorem setReader_host (reader : HwDeviceSdCardReaderData) :
    (m.setReader id reader).host = m.host := rfl

@[simp] theorem setReader_reader (reader : HwDeviceSdCardReaderData) :
    ((m.setReader id reader).hwDevices id).sdCardReader = reader := by
  simp [Machine.setReader]

theorem vacant_of_card (hcard : (m.hwDevices id).sdCardReader.sdCard.type = .badCard) :
    Vacant m id := fun _ _ => hcard

theorem recovers_of_card (hcard : (m'.hwDevices id).sdCardReader.sdCard.type = .badCard)
    (hlock : m'.host.kernelSpiLockFd = m.host.kernelSpiLockFd)
    (hopened : m'.host.opened = m.host.opened) : Recovers env id m m' :=
  ⟨vacant_of_card hcard, hlock, hopened, unmount_vacant (vacant_of_card hcard)⟩

theorem quit_run (s : Host × SdCard) : ∃ s', sdQuit s = .ok ((), s') ∧ s'.2.type = .badCard ∧
    s'.1.kernelSpiLockFd = s.1.kernelSpiLockFd ∧ s'.1.opened = s.1.opened := by
  by_cases hbad : s.2.type = .badCard
  · exact ⟨s, by rw [sdQuit, if_pos hbad], hbad, rfl, rfl⟩
  · rw [sdQuit, if_neg hbad]
    exact ⟨_, rfl, rfl, rfl, rfl⟩

/-! ### What a mount ends in -/

theorem onSd_ends {α : Type} {x : ℕ → SdRun α} {a : α} :
    Ends (fun f => onSd id (x f)) m a m' ↔
      ∃ s, Ends x (m.host, (m.hwDevices id).sdCardReader.sdCard) a s ∧ m' = m.setSd id s := by
  constructor
  · rintro ⟨f, hrun⟩
    simp only [onSd] at hrun
    split at hrun
    · cases hrun
    · rename_i hx
      cases hrun
      exact ⟨_, ⟨f, hx⟩, rfl⟩
  · rintro ⟨s, ⟨f, hx⟩, rfl⟩
    exact ⟨f, by simp only [onSd, hx]⟩

theorem quitCard_run (id : ℕ) (m : Machine F) : ∃ m',
    (onSd id sdQuit >>= fun _ => pure false) m = .ok (false, m') ∧
      (m'.hwDevices id).sdCardReader.sdCard.type = .badCard ∧
      m'.host.kernelSpiLockFd = m.host.kernelSpiLockFd ∧ m'.host.opened = m.host.opened := by
  obtain ⟨s', hquit, hbad, hlock, hopened⟩ :=
    quit_run (m.host, (m.hwDevices id).sdCardReader.sdCard)
  have hon : onSd id sdQuit m = .ok ((), m.setSd id s') := by simp only [onSd, hquit]
  exact ⟨_, bind_of_ok hon, by simpa using hbad, hlock, hopened⟩

/-- A card that was started is registered, or it is turned off. -/
theorem addCard_ends (env : Environment F) (id : ℕ) (mountPoint : List UInt8) (m : Machine F) :
    ∃ done m', addCard env id mountPoint m = .ok (done, m') ∧ (done = false →
      (m'.hwDevices id).sdCardReader.sdCard.type = .badCard ∧
        m'.host.kernelSpiLockFd = m.host.kernelSpiLockFd ∧ m'.host.opened = m.host.opened) := by
  simp only [addCard]
  split
  · obtain ⟨m', hquit, hleft⟩ := quitCard_run id _
    exact ⟨false, m', hquit, fun _ => hleft⟩
  · exact ⟨true, _, rfl, by simp⟩

/-- What is needed of a start carries over to the mount of a vacant slot. -/
theorem mount_ends (hvacant : Vacant m id)
    (hstart : id < HwDeviceIdMax → (m.hwDevices id).type = HwDeviceTypeSdCardReader →
      ∃ r s', Ends (fun f => sdInit bytes spiFd f (hwDeviceSdCardReaderGetPowerPin id m)
          (hwDeviceSdCardReaderGetSlaveSelectPin id m))
          (m.host, (m.hwDevices id).sdCardReader.sdCard) r s' ∧
        (r ≠ .ok → s'.2.type = .badCard) ∧
        s'.1.kernelSpiLockFd = m.host.kernelSpiLockFd ∧ s'.1.opened = m.host.opened) :
    ∃ done m', Ends (fun f => hwDeviceSdCardReaderMount env bytes spiFd f id mountPoint) m
      done m' ∧ (done = false → Recovers env id m m') := by
  simp only [hwDeviceSdCardReaderMount, Ends]
  by_cases hid : id ≥ HwDeviceIdMax
  · simp only [if_pos hid]
    exact ⟨false, m, ⟨0, rfl⟩, fun _ => ⟨hvacant, rfl, rfl, unmount_vacant hvacant⟩⟩
  simp only [if_neg hid]
  by_cases htype : (m.hwDevices id).type ≠ HwDeviceTypeSdCardReader
  · simp only [if_pos htype]
    exact ⟨false, m, ⟨0, rfl⟩, fun _ => ⟨hvacant, rfl, rfl, unmount_vacant hvacant⟩⟩
  simp only [if_neg htype]
  have hlt := Nat.lt_of_not_le hid
  have hreader := not_not.mp htype
  simp only [if_neg (not_not.mpr (hvacant hlt hreader))]
  obtain ⟨r, s', ⟨f, hinit⟩, hbad, hlock, hopened⟩ := hstart hlt hreader
  have hon : onSd id (sdInit bytes spiFd f (hwDeviceSdCardReaderGetPowerPin id m)
      (hwDeviceSdCardReaderGetSlaveSelectPin id m)) m = .ok (r, m.setSd id s') := by
    simp only [onSd, hinit]
  by_cases hr : r ≠ .ok
  · refine ⟨false, m.setSd id s', ⟨f, ?_⟩, fun _ => recovers_of_card ?_ hlock hopened⟩
    · rw [bind_of_ok hon, if_pos hr]
      rfl
    · simpa using hbad hr
  · obtain ⟨done, m', hadd, hfailed⟩ := addCard_ends env id mountPoint (m.setSd id s')
    refine ⟨done, m', ⟨f, ?_⟩, ?_⟩
    · rw [bind_of_ok hon, if_neg hr, hadd]
    · intro hdone
      obtain ⟨hcard, hlock', hopened'⟩ := hfailed hdone
      exact recovers_of_card hcard (hlock'.trans hlock) (hopened'.trans hopened)

/-! ### When a start leaves the slot consistent -/

/-- Whatever the file system does, a mount of this slot that fails recovers. -/
def MountsRecover (bytes : ℕ → UInt8) (spiFd : ℕ) (h : Host) (c : SdCard)
    (powerPin slaveSelectPin : ℕ) : Prop :=
  ∀ (F : Type) (env : Environment F) (m : Machine F) (id : ℕ) (mountPoint : List UInt8),
    m.host = h → (m.hwDevices id).sdCardReader.sdCard = c → Vacant m id →
      (id < HwDeviceIdMax → (m.hwDevices id).type = HwDeviceTypeSdCardReader →
        (m.hwDevices id).pins 0 = powerPin ∧ (m.hwDevices id).pins 1 = slaveSelectPin) →
      ∃ done m', Ends (fun f => hwDeviceSdCardReaderMount env bytes spiFd f id mountPoint) m
        done m' ∧ (done = false → Recovers env id m m')

/-- A start ends, with a consistent card, and mounts recover from failures,
exactly if the bus cannot be had, or the card declines before its type is
known, or it gets through the whole dialogue. -/
theorem sdInit_consistent_iff (hpower : pinIsValid powerPin = true)
    (hselect : pinIsValid slaveSelectPin = true) (hne : powerPin ≠ slaveSelectPin) :
    ((∃ r s', Ends (fun f => sdInit bytes spiFd f powerPin slaveSelectPin) (h, c) r s' ∧
        Consistent h powerPin slaveSelectPin r s') ∧
      MountsRecover bytes spiFd h c powerPin slaveSelectPin) ↔ StartsWell bytes spiFd h := by
  rw [← init_consistent_iff (c := c) hpower hselect hne]
  constructor
  · exact fun hgood => hgood.1
  · intro hgood
    refine ⟨hgood, ?_⟩
    intro F env m id mountPoint hhost hcard hvacant hpins
    apply mount_ends hvacant
    intro hid htype
    obtain ⟨r, s', hend, hconsistent⟩ := hgood
    have hcount : hwDeviceTypeGetPinCount HwDeviceTypeSdCardReader = 2 := rfl
    have hpin : hwDeviceSdCardReaderGetPowerPin id m = powerPin ∧
        hwDeviceSdCardReaderGetSlaveSelectPin id m = slaveSelectPin := by
      simpa [hwDeviceSdCardReaderGetPowerPin, hwDeviceSdCardReaderGetSlaveSelectPin,
        hwDeviceGetPinN, Nat.not_le.mpr hid, htype, hcount] using hpins hid htype
    rw [hpin.1, hpin.2, hhost, hcard]
    refine ⟨r, s', hend, ?_, ?_⟩
    · intro hr
      rw [Consistent, if_neg hr] at hconsistent
      exact hconsistent.1
    · exact init_lock hend

/-- A host at rest, with pins that are low. -/
def idleHost : Host := ⟨0, ⟨fun _ => 0, fun _ => false, fun _ => .input⟩, 0, 0, []⟩

/-- Without a card nothing but idle bytes are read. -/
theorem sdInit_consistent_iff_absent :
    (∃ r s', Ends (fun f => sdInit (fun _ => 0xFF) 1 f 22 23) (idleHost, fresh 22 23) r s' ∧
        Consistent idleHost 22 23 r s') ∧
      MountsRecover (fun _ => 0xFF) 1 idleHost (fresh 22 23) 22 23 := by
  apply (sdInit_consistent_iff (by decide) (by decide) (by decide)).mpr
  exact .inr (.inl (.inl ⟨0xFF, _, rfl, by decide⟩))

/-- A card that gets ready and then refuses CMD58. -/
def lateRefusal (p : ℕ) : UInt8 :=
  if p = 207 ∨ p = 215 ∨ p = 218 ∨ p = 227 then 0x01
  else if p = 216 ∨ p = 217 ∨ p = 235 then 0x00
  else if p = 219 then 0xAA
  else if p = 243 then 0x05
  else 0xFF

/-- The refused start leaves the type behind, and a card that is always busy is
waited for without end. -/
theorem late_refusal_keeps_type :
    (¬ ∃ r s', Ends (fun f => sdInit lateRefusal 1 f 22 23) (idleHost, fresh 22 23) r s' ∧
        Consistent idleHost 22 23 r s') ∧
      ¬ ∃ r s', Ends (fun f => sdInit (fun _ => 0x01) 1 f 22 23) (idleHost, fresh 22 23) r s' := by
  constructor
  · rintro ⟨r, s', hend, hconsistent⟩
    have hrun : (match sdInit lateRefusal 1 5 22 23 (idleHost, fresh 22 23) with
        | .ok r => decide (r.1 = .badCard ∧ r.2.2.type = .sdVer2Plus)
        | .error _ => false) = true := by
      decide +kernel
    split at hrun
    · rename_i t ht
      obtain ⟨hbad, htype⟩ := of_decide_eq_true hrun
      obtain ⟨rfl, rfl⟩ := ends_unique init_lasting hend ⟨5, ht⟩
      rw [Consistent, if_neg (by rw [hbad]; decide)] at hconsistent
      rw [hconsistent.1] at htype
      cases htype
    · cases hrun
  · rintro ⟨r, s', hend⟩
    have hidle (p q : ℕ) : ¬ Idle (fun _ => 0x01) p q := by
      rintro ⟨n, -, h, -⟩
      simp at h
    obtain ⟨s₁, hdialogue, -⟩ := (init_ends rfl (by decide)).mp hend
    rcases dialogue_ends.mp hdialogue with hopen | ⟨t, ⟨q, r, u, ⟨_, -, h⟩, -⟩, -⟩
    · rcases open_some.mp ⟨r, s₁, hopen⟩ with ⟨b, q, hasked, hb⟩ | ⟨q, ⟨_, -, h⟩, -⟩
      · cases hasked
        exact hb rfl
      · exact hidle _ _ h
    · exact hidle _ _ h

end ArduinoOS.Hardware.Sd
