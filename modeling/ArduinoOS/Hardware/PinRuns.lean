import ArduinoOS.Hardware.PinOwners

/-!
# Runs of registrations

Each call keeps a pin's bit with its one holder. A type that the enumeration
does not have is stored by its low byte and registered without being checked,
so the calls of a run that ask for one must be refused for another reason.
-/

set_option autoImplicit false

namespace ArduinoOS.Hardware.Registration
open ArduinoOS.Kernel (Fault)

/-- The board, with the pins that the kernel grabbed for itself. -/
structure World where
  board : Board
  kernel : List ℕ

inductive Event
  | grab (pinNum : ℕ)
  | register (allocates : Bool) (id : UInt8) (type : UInt16) (pins : ℕ → UInt8)
  | deregister (id : UInt8)
  | work (id : ℕ) (d : HwDeviceData)

/-- What mounting, reading and ticking may make of the data of a device. -/
def HwDeviceData.alike : HwDeviceData → HwDeviceData → Bool
  | .keypad _ _ _, .keypad _ _ _ => true
  | .sdCardReader cache _, .sdCardReader cache' _ => cache == cache'
  | .dht22 _ _ _, .dht22 _ _ _ => true
  | _, _ => false

def registerCall (allocates : Bool) (id : UInt8) (type : UInt16) (pins : ℕ → UInt8)
    (b : Board) : Bool × Board :=
  hwDeviceRegister allocates id.toNat type.toNat (fun i => (pins i).toNat) b

def Event.run : Event → World → Except Fault World
  | .grab pinNum, w =>
      match pinGrab pinNum w.board.pins with
      | (false, _) => .ok w
      | (true, p) => .ok ⟨{ w.board with pins := p }, pinNum::w.kernel⟩
  | .register allocates id type pins, w =>
      .ok { w with board := (registerCall allocates id type pins w.board).2 }
  | .deregister id, w => do
      let b ← hwDeviceDeregister id.toNat w.board
      .ok { w with board := b }
  | .work id d, w =>
      if HwDeviceData.alike (w.board.hwDevices id).d d then
        .ok { w with board := w.board.setData id d }
      else .ok w

/-- A property of each call of a run and the world it is made in. -/
def Along (P : World → Event → Prop) : List Event → World → Prop
  | [], _ => True
  | e::es, w => P w e ∧ ∀ w', e.run w = .ok w' → Along P es w'

/-! ### Holders -/

inductive Holder
  | kernel
  | slot (id i : ℕ)

/-- A slot holds what `hwDeviceGetPinN` tells of it. -/
def HeldBy (w : World) (m : ℕ) : Holder → Prop
  | .kernel => m ∈ w.kernel
  | .slot id i => hwDeviceGetPinN id i w.board = m ∧ m ≠ PinInvalid

def Owned (w : World) : Prop := ∀ m,
  (pinInUse m w.board.pins = true ↔ ∃ h, HeldBy w m h) ∧
    ∀ h h', HeldBy w m h → HeldBy w m h' → h = h'

/-- The data belongs to the type. -/
def Fits (device : HwDevice) : Prop :=
  (device.type = HwDeviceTypeKeypad → HwDeviceData.alike (initialData HwDeviceTypeKeypad) device.d) ∧
    (device.type = HwDeviceTypeSdCardReader →
      HwDeviceData.alike (initialData HwDeviceTypeSdCardReader) device.d)

structure Sound (w : World) : Prop where
  owned : Owned w
  fits : ∀ id, Fits (w.board.hwDevices id)

/-- What a call does. -/
def Proper (w : World) : Event → World → Prop
  | .register allocates id type pins, w' =>
      if (registerCall allocates id type pins w.board).1 then
        Named type.toNat ∧ (w'.board.hwDevices id.toNat).type = type.toNat ∧
          (w'.board.hwDevices id.toNat).d = initialData type.toNat
      else (∀ m, pinInUse m w'.board.pins = pinInUse m w.board.pins) ∧
        ∀ j, SameSlot (w.board.hwDevices j) (w'.board.hwDevices j)
  | .deregister id, w' =>
      (∀ m, pinInUse m w'.board.pins = true ↔
        pinInUse m w.board.pins = true ∧ ∀ i, ¬ HeldBy w m (.slot id.toNat i)) ∧
      hwDeviceGetType id.toNat w'.board = HwDeviceTypeUnused ∧
      ∀ j, j ≠ id.toNat → w'.board.hwDevices j = w.board.hwDevices j
  | _, _ => True

/-- The call keeps every pin with its holder and does what it should. -/
def Behaves (w : World) (e : Event) : Prop :=
  Owned w ∧ ∃ w', e.run w = .ok w' ∧ Owned w' ∧ Proper w e w'

/-- A pin of the array cannot be grabbed when its turn comes. -/
def Blocked (count : ℕ) (pins : ℕ → UInt8) (p : Pins) : Prop :=
  ∃ i < count, pinIsValid (pins i).toNat = false ∨ pinInUse (pins i).toNat p = true ∨
    ∃ l < i, pins l = pins i

/-- A registration asks for one of the types, or it cannot succeed. -/
def Permitted (w : World) : Event → Prop
  | .register _ id type pins =>
      type.toNat ≤ HwDeviceTypeDht22 ∨ id.toNat ≥ HwDeviceIdMax ∨
        (w.board.hwDevices id.toNat).type ≠ HwDeviceTypeUnused ∨
        Blocked (hwDeviceTypeGetPinCount (u8 type.toNat)) pins w.board.pins
  | _ => True

theorem heldBy_slot {w : World} {id i m : ℕ} :
    HeldBy w m (.slot id i) ↔ id < HwDeviceIdMax ∧
      i < hwDeviceTypeGetPinCount (w.board.hwDevices id).type ∧
      (w.board.hwDevices id).pins i = m ∧ m ≠ PinInvalid := by
  simp only [HeldBy, hwDeviceGetPinN]
  split_ifs with hid hi
  · simp [not_lt.mpr hid, eq_comm]
  · simp [not_lt.mpr hi, eq_comm]
  · simp [not_le.mp hid, not_le.mp hi]

/-- What a slot holds depends on the slot alone. -/
theorem heldBy_slot_congr {w w' : World} {id i m : ℕ}
    (h : SameSlot (w.board.hwDevices id) (w'.board.hwDevices id)) :
    HeldBy w m (.slot id i) ↔ HeldBy w' m (.slot id i) := by
  rw [heldBy_slot, heldBy_slot]
  rcases h with h | ⟨h, h'⟩
  · rw [h]
  · simp [h, h', hwDeviceTypeGetPinCount, HwDeviceTypeUnused, HwDeviceTypeKeypad,
      HwDeviceTypeSdCardReader, HwDeviceTypeDht22]

/-- Nothing changes for the pins. -/
theorem owned_congr {w w' : World} (hw : Owned w)
    (hused : ∀ m, pinInUse m w'.board.pins = pinInUse m w.board.pins)
    (hslots : ∀ j, SameSlot (w.board.hwDevices j) (w'.board.hwDevices j))
    (hkernel : w'.kernel = w.kernel) : Owned w' := by
  have hheld : ∀ m h, HeldBy w' m h ↔ HeldBy w m h := by
    intro m h
    cases h with
    | kernel => simp [HeldBy, hkernel]
    | slot id i => exact (heldBy_slot_congr (hslots id)).symm
  intro m
  simp only [hheld, hused]
  exact hw m

theorem fits_unused {device : HwDevice} (h : device.type = HwDeviceTypeUnused) : Fits device := by
  constructor
  · intro h'
    rw [h] at h'
    cases h'
  · intro h'
    rw [h] at h'
    cases h'

theorem fits_same {x y : HwDevice} (h : SameSlot x y) (hx : Fits x) : Fits y := by
  rcases h with rfl | ⟨_, hy⟩
  · exact hx
  · exact fits_unused hy

/-! ### Each call -/

section Calls

variable {w : World} (hw : Sound w)
include hw

theorem grab_behaves (pinNum : ℕ) : ∃ w', (Event.grab pinNum).run w = .ok w' ∧ Sound w' := by
  cases hgrab : pinGrab pinNum w.board.pins with
  | mk done p =>
    cases done with
    | false => exact ⟨w, by simp [Event.run, hgrab], hw⟩
    | true =>
      refine ⟨⟨{ w.board with pins := p }, pinNum::w.kernel⟩, by simp [Event.run, hgrab],
        ?_, hw.fits⟩
      have hfree := grab_iff.mp (by rw [hgrab] : (pinGrab pinNum w.board.pins).1 = true)
      have hset := fun m => grab_inUse (n := pinNum) (m := m) (p := w.board.pins) (by rw [hgrab])
      simp only [hgrab] at hset
      intro m
      have hm := hw.owned m
      -- the holders of a pin are the old ones, and the kernel for the new pin
      have hheld : ∀ h, HeldBy ⟨{ w.board with pins := p }, pinNum::w.kernel⟩ m h ↔
          HeldBy w m h ∨ m = pinNum ∧ h = .kernel := by
        intro h
        cases h with
        | kernel => simp [HeldBy, or_comm]
        | slot id i => simp [heldBy_slot]
      constructor
      · simp only [hset, hm.1, hheld]
        constructor
        · rintro (h | ⟨h, hh⟩)
          · exact ⟨.kernel, Or.inr ⟨h, rfl⟩⟩
          · exact ⟨h, Or.inl hh⟩
        · rintro ⟨h, hh | ⟨h', _⟩⟩
          · exact Or.inr ⟨h, hh⟩
          · exact Or.inl h'
      · intro h h' hh hh'
        rw [hheld] at hh hh'
        have hnone : m = pinNum → ∀ x, ¬ HeldBy w m x := by
          intro heq x hx
          have hin := hm.1.mpr ⟨x, hx⟩
          rw [heq, hfree.2] at hin
          cases hin
        rcases hh with hh | ⟨heq, rfl⟩
        · rcases hh' with hh' | ⟨heq, rfl⟩
          · exact hm.2 h h' hh hh'
          · exact absurd hh (hnone heq h)
        · rcases hh' with hh' | ⟨_, rfl⟩
          · exact absurd hh' (hnone heq h')
          · rfl

/-- The new slot's pins were free, so nobody else holds them. -/
theorem registered_owned {id type : ℕ} {pins : ℕ → ℕ} {b : Board}
    (h : Registered id type pins w.board b) : Owned { w with board := b } := by
  have hvalid : ∀ j < hwDeviceTypeGetPinCount (u8 type), pins j ≠ PinInvalid := by
    intro j hj heq
    have hval := (h.free j hj).1
    rw [heq, invalid_not_valid] at hval
    cases hval
  have hnew : ∀ i m, HeldBy { w with board := b } m (.slot id i) ↔
      i < hwDeviceTypeGetPinCount (u8 type) ∧ pins i = m := by
    intro i m
    rw [heldBy_slot]
    simp only [h.stored, h.id_lt, true_and]
    constructor
    · rintro ⟨hi, hpin, _⟩
      exact ⟨hi, by rw [← hpin, h.grabbed i hi]⟩
    · rintro ⟨hi, rfl⟩
      exact ⟨hi, h.grabbed i hi, hvalid i hi⟩
  have hold : ∀ i m, ¬ HeldBy w m (.slot id i) := by
    intro i m
    simp [heldBy_slot, h.unused, hwDeviceTypeGetPinCount, HwDeviceTypeUnused, HwDeviceTypeKeypad,
      HwDeviceTypeSdCardReader, HwDeviceTypeDht22]
  have hother : ∀ j i m, j ≠ id →
      (HeldBy { w with board := b } m (.slot j i) ↔ HeldBy w m (.slot j i)) := by
    intro j i m hj
    exact (heldBy_slot_congr (Or.inl (h.others j hj).symm)).symm
  -- a holder of a pin held it before, or is the new slot
  have hheld : ∀ m x, HeldBy { w with board := b } m x ↔ HeldBy w m x ∨
      ∃ i < hwDeviceTypeGetPinCount (u8 type), pins i = m ∧ x = .slot id i := by
    intro m x
    cases x with
    | kernel => simp [HeldBy]
    | slot j i =>
      by_cases hj : j = id
      · rw [hj, hnew]
        simp [hold i m]
      · rw [hother j i m hj]
        simp [hj]
  intro m
  have hm := hw.owned m
  have hnone : (∃ i < hwDeviceTypeGetPinCount (u8 type), pins i = m) → ∀ x, ¬ HeldBy w m x := by
    rintro ⟨i, hi, rfl⟩ x hx
    have hin := hm.1.mpr ⟨x, hx⟩
    rw [(h.free i hi).2] at hin
    cases hin
  constructor
  · simp only [h.inUse m, hm.1, hheld]
    constructor
    · rintro (⟨x, hx⟩ | ⟨i, hi, hpin⟩)
      · exact ⟨x, Or.inl hx⟩
      · exact ⟨.slot id i, Or.inr ⟨i, hi, hpin, rfl⟩⟩
    · rintro ⟨x, hx | ⟨i, hi, hpin, _⟩⟩
      · exact Or.inl ⟨x, hx⟩
      · exact Or.inr ⟨i, hi, hpin⟩
  · intro x x' hx hx'
    rw [hheld] at hx hx'
    rcases hx with hx | ⟨i, hi, hpin, rfl⟩
    · rcases hx' with hx' | ⟨i, hi, hpin, rfl⟩
      · exact hm.2 x x' hx hx'
      · exact absurd hx (hnone ⟨i, hi, hpin⟩ x)
    · rcases hx' with hx' | ⟨l, hl, hpin', rfl⟩
      · exact absurd hx' (hnone ⟨i, hi, hpin⟩ x')
      · have hsame : i = l := by
          by_contra hne
          rcases Nat.lt_or_gt_of_ne hne with hlt | hlt
          · exact h.distinct i l hlt hl (by rw [hpin, hpin'])
          · exact h.distinct l i hlt hi (by rw [hpin, hpin'])
        rw [hsame]

theorem register_behaves (allocates : Bool) (id : UInt8) (type : UInt16) (pins : ℕ → UInt8)
    (hpermitted : Permitted w (.register allocates id type pins)) :
    ∃ w', (Event.register allocates id type pins).run w = .ok w' ∧ Sound w' ∧
      Proper w (.register allocates id type pins) w' := by
  refine ⟨_, rfl, ?_⟩
  cases hdone : (registerCall allocates id type pins w.board).1 with
  | false =>
    have hfailed := register_failed hdone
    simp only [Proper, hdone, Bool.false_eq_true, if_false]
    exact ⟨⟨owned_congr hw.owned hfailed.1 hfailed.2 rfl,
      fun j => fits_same (hfailed.2 j) (hw.fits j)⟩, hfailed⟩
  | true =>
    have h : Registered id.toNat type.toNat (fun i => (pins i).toNat) w.board
        (registerCall allocates id type pins w.board).2 := register_done hdone
    have hnamed : Named type.toNat := by
      rcases hpermitted with htype | hid | hslot | ⟨i, hi, hblocked⟩
      · have hne : type.toNat ≠ HwDeviceTypeUnused := by
          intro heq
          rw [registerCall, hwDeviceRegister, if_pos (Or.inr heq)] at hdone
          cases hdone
        simp only [Named, HwDeviceTypeUnused, HwDeviceTypeKeypad, HwDeviceTypeSdCardReader,
          HwDeviceTypeDht22] at *
        omega
      · exact absurd h.id_lt (not_lt.mpr hid)
      · exact absurd h.unused hslot
      · have hfree := h.free i hi
        rcases hblocked with hinvalid | hused | ⟨l, hl, heq⟩
        · rw [hinvalid] at hfree
          cases hfree.1
        · rw [hused] at hfree
          cases hfree.2
        · exact absurd (congrArg UInt8.toNat heq) (h.distinct l i hl hi)
    have hsmall : u8 type.toNat = type.toNat := by
      rcases hnamed with heq | heq | heq <;> rw [heq] <;> rfl
    have hdata := h.data hnamed
    have hstored := h.stored
    rw [hsmall] at hstored
    simp only [Proper, hdone, if_true]
    refine ⟨⟨registered_owned hw h, ?_⟩, hnamed, hstored, hdata⟩
    intro j
    by_cases hj : j = id.toNat
    · rw [hj, Fits, hdata, hstored]
      constructor
      · intro heq
        rw [heq]
        rfl
      · intro heq
        rw [heq]
        rfl
    · rw [h.others j hj]
      exact hw.fits j

/-- What the type's own part of a deregistration leaves. -/
theorem removeLogic_frame (id : ℕ) : ∃ b, removeLogic id w.board = .ok b ∧
    b.pins.used = w.board.pins.used ∧
    ∃ d, b.hwDevices = Function.update w.board.hwDevices id
      { w.board.hwDevices id with d := d } := by
  have hfits := hw.fits id
  unfold removeLogic
  split_ifs with hkeypad hreader
  · have hdata := hfits.1 hkeypad
    unfold hwDeviceKeypadUnmount
    cases hd : (w.board.hwDevices id).d with
    | keypad mountPoint states circBuf =>
      cases mountPoint with
      | none =>
        refine ⟨w.board, rfl, rfl, (w.board.hwDevices id).d, ?_⟩
        simp
      | some path => exact ⟨_, rfl, rfl, _, rfl⟩
    | unset | sdCardReader | dht22 =>
      rw [hd] at hdata
      cases hdata
  · have hdata := hfits.2 hreader
    unfold sdCardReaderRemove
    cases hd : (w.board.hwDevices id).d with
    | sdCardReader cache type =>
      cases type with
      | badCard => exact ⟨_, rfl, rfl, _, rfl⟩
      | sdVer2Plus =>
        refine ⟨_, rfl, ?_, _, rfl⟩
        simp
    | unset | keypad | dht22 =>
      rw [hd] at hdata
      cases hdata
  · refine ⟨w.board, rfl, rfl, (w.board.hwDevices id).d, ?_⟩
    simp

omit hw in
/-- The slot's pins go, all others stay. -/
theorem releaseDevice_frame {id : ℕ} {b : Board} (hid : id < HwDeviceIdMax)
    (hused : b.pins.used = w.board.pins.used) {d : HwDeviceData}
    (hd : b.hwDevices = Function.update w.board.hwDevices id
      { w.board.hwDevices id with d := d }) :
    (∀ m, pinInUse m (releaseDevice id b).pins = true ↔
        pinInUse m w.board.pins = true ∧ ∀ i, ¬ HeldBy w m (.slot id i)) ∧
      ((releaseDevice id b).hwDevices id).type = HwDeviceTypeUnused ∧
      ∀ j, j ≠ id → (releaseDevice id b).hwDevices j = w.board.hwDevices j := by
  have hheld : ∀ i m, HeldBy w m (.slot id i) ↔
      i < hwDeviceTypeGetPinCount (b.hwDevices id).type ∧
        hwDeviceGetPinN id i b = m ∧ m ≠ PinInvalid := by
    intro i m
    rw [heldBy_slot]
    simp only [hwDeviceGetPinN, if_neg (not_le.mpr hid), hd, Function.update_self]
    constructor
    · rintro ⟨_, hi, hpin, hne⟩
      exact ⟨hi, by rw [if_neg (by omega), hpin], hne⟩
    · rintro ⟨hi, hpin, hne⟩
      rw [if_neg (by omega)] at hpin
      exact ⟨hid, hi, hpin, hne⟩
  refine ⟨?_, ?_, ?_⟩
  · intro m
    rw [releaseDevice, setType_pins, releasePins_inUse, inUse_congr hused]
    constructor
    · rintro ⟨hm, hnone⟩
      refine ⟨hm, ?_⟩
      intro i hi
      exact hnone i ((hheld i m).mp hi).1 ((hheld i m).mp hi).2.1
    · rintro ⟨hm, hnone⟩
      refine ⟨hm, ?_⟩
      intro i hi heq
      have hne : m ≠ PinInvalid := by
        intro heq'
        have hvalid := inUse_valid hm
        rw [heq', invalid_not_valid] at hvalid
        cases hvalid
      exact hnone i ((hheld i m).mpr ⟨hi, heq, hne⟩)
  · simp [releaseDevice, Board.setType]
  · intro j hj
    simp [releaseDevice, Board.setType, Function.update_of_ne hj, hd]

/-- What the other holders hold is theirs as before. -/
theorem released_owned {id : ℕ} {b : Board}
    (hinUse : ∀ m, pinInUse m b.pins = true ↔
      pinInUse m w.board.pins = true ∧ ∀ i, ¬ HeldBy w m (.slot id i))
    (hslot : (b.hwDevices id).type = HwDeviceTypeUnused)
    (hothers : ∀ j, j ≠ id → b.hwDevices j = w.board.hwDevices j) :
    Owned { w with board := b } := by
  have hkeep : ∀ m x, HeldBy { w with board := b } m x ↔
      HeldBy w m x ∧ ∀ i, x ≠ .slot id i := by
    intro m x
    cases x with
    | kernel => simp [HeldBy]
    | slot j i =>
      by_cases hj : j = id
      · rw [hj, heldBy_slot]
        simp [hslot, hwDeviceTypeGetPinCount, HwDeviceTypeUnused, HwDeviceTypeKeypad,
          HwDeviceTypeSdCardReader, HwDeviceTypeDht22]
      · rw [← heldBy_slot_congr (Or.inl (hothers j hj).symm)]
        simp [hj]
  intro m
  have hm := hw.owned m
  constructor
  · simp only [hinUse m, hm.1, hkeep]
    constructor
    · rintro ⟨⟨x, hx⟩, hnone⟩
      refine ⟨x, hx, ?_⟩
      rintro i rfl
      exact hnone i hx
    · rintro ⟨x, hx, hne⟩
      refine ⟨⟨x, hx⟩, ?_⟩
      intro i hi
      exact hne i (hm.2 _ _ hx hi)
  · intro x x' hx hx'
    exact hm.2 x x' ((hkeep m x).mp hx).1 ((hkeep m x').mp hx').1

theorem deregister_behaves (id : UInt8) :
    ∃ w', (Event.deregister id).run w = .ok w' ∧ Sound w' ∧ Proper w (.deregister id) w' := by
  by_cases hid : id.toNat ≥ HwDeviceIdMax
  · refine ⟨w, ?_, hw, ?_, ?_, fun _ _ => rfl⟩
    · simp only [Event.run, hwDeviceDeregister, if_pos hid]
      rfl
    · simp [heldBy_slot, not_lt.mpr hid]
    · simp [hwDeviceGetType, hid]
  by_cases hslot : (w.board.hwDevices id.toNat).type = HwDeviceTypeUnused
  · refine ⟨w, ?_, hw, ?_, ?_, fun _ _ => rfl⟩
    · simp only [Event.run, hwDeviceDeregister, if_neg hid, if_pos hslot]
      rfl
    · simp [heldBy_slot, hslot, hwDeviceTypeGetPinCount, HwDeviceTypeUnused, HwDeviceTypeKeypad,
        HwDeviceTypeSdCardReader, HwDeviceTypeDht22]
    · simp [hwDeviceGetType, hslot]
  obtain ⟨b, hlogic, hused, d, hd⟩ := removeLogic_frame hw id.toNat
  obtain ⟨hinUse, hunused, hothers⟩ := releaseDevice_frame (not_le.mp hid) hused hd
  have hrun : (Event.deregister id).run w = .ok { w with board := releaseDevice id.toNat b } := by
    simp only [Event.run, hwDeviceDeregister, if_neg hid, if_neg hslot, hlogic]
    rfl
  refine ⟨_, hrun, ⟨released_owned hw hinUse hunused hothers, ?_⟩, hinUse, ?_, hothers⟩
  · intro j
    by_cases hj : j = id.toNat
    · rw [hj]
      exact fits_unused hunused
    · simp only [hothers j hj]
      exact hw.fits j
  · simp [hwDeviceGetType, hid, hunused]

theorem work_behaves (id : ℕ) (d : HwDeviceData) :
    ∃ w', (Event.work id d).run w = .ok w' ∧ Sound w' := by
  cases halike : HwDeviceData.alike (w.board.hwDevices id).d d with
  | false => exact ⟨w, by simp [Event.run, halike], hw⟩
  | true =>
    refine ⟨{ w with board := w.board.setData id d }, by simp [Event.run, halike], ?_, ?_⟩
    · have hheld : ∀ m x, HeldBy { w with board := w.board.setData id d } m x ↔
          HeldBy w m x := by
        intro m x
        cases x with
        | kernel => rfl
        | slot j i =>
          rw [heldBy_slot, heldBy_slot]
          by_cases hj : j = id
          · simp [hj, Board.setData]
          · simp [Board.setData, Function.update_of_ne hj]
      intro m
      simp only [hheld]
      exact hw.owned m
    · intro j
      by_cases hj : j = id
      · have hfits := hw.fits id
        rw [hj]
        simp only [Board.setData, setDevice_devices, Function.update_self]
        have hmove : ∀ x, HwDeviceData.alike x (w.board.hwDevices id).d = true →
            HwDeviceData.alike x d = true := by
          intro x hx
          revert hx halike
          cases x <;> cases (w.board.hwDevices id).d <;> cases d <;>
            simp [HwDeviceData.alike]
          intro h h'
          rw [h', h]
        exact ⟨fun h => hmove _ (hfits.1 h), fun h => hmove _ (hfits.2 h)⟩
      · simp only [Board.setData, setDevice_devices, Function.update_of_ne hj]
        exact hw.fits j

theorem event_behaves (e : Event) (hpermitted : Permitted w e) :
    ∃ w', e.run w = .ok w' ∧ Sound w' ∧ Proper w e w' := by
  cases e with
  | grab pinNum =>
    obtain ⟨w', hrun, hw'⟩ := grab_behaves hw pinNum
    exact ⟨w', hrun, hw', trivial⟩
  | register allocates id type pins => exact register_behaves hw allocates id type pins hpermitted
  | deregister id => exact deregister_behaves hw id
  | work id d =>
    obtain ⟨w', hrun, hw'⟩ := work_behaves hw id d
    exact ⟨w', hrun, hw', trivial⟩

end Calls

/-! ### Runs -/

theorem along_behaves (events : List Event) {w : World} (hw : Sound w)
    (h : Along Permitted events w) : Along Behaves events w := by
  induction events generalizing w with
  | nil => trivial
  | cons e es ih =>
    obtain ⟨w', hrun, hw', hproper⟩ := event_behaves hw e h.1
    refine ⟨⟨hw.owned, w', hrun, hw'.owned, hproper⟩, ?_⟩
    intro w'' hrun'
    rw [hrun] at hrun'
    cases hrun'
    exact ih hw' (h.2 w' hrun)

/-- No pin is in use and no slot is. -/
def boot : World where
  board := {
    pins := { used := fun _ => 0, states := fun _ => false, modes := fun _ => .input }
    hwDevices := fun _ => { type := HwDeviceTypeUnused, pins := fun _ => 0, d := .unset } }
  kernel := []

theorem boot_sound : Sound boot where
  owned := by
    intro m
    have hfree : pinInUse m boot.board.pins = false := by simp [pinInUse, boot]
    have hnone : ∀ x, ¬ HeldBy boot m x := by
      intro x
      cases x with
      | kernel => simp [HeldBy, boot]
      | slot id i =>
        simp [heldBy_slot, boot, hwDeviceTypeGetPinCount, HwDeviceTypeUnused, HwDeviceTypeKeypad,
          HwDeviceTypeSdCardReader, HwDeviceTypeDht22]
    simp [hfree, hnone]
  fits := fun _ => fits_unused rfl

/-- While no registration asks for a type that there is not, every pin in use
has one holder and every call does what it should. -/
theorem pins_have_one_owner (events : List Event) (h : Along Permitted events boot) :
    Owned boot ∧ Along Behaves events boot :=
  ⟨boot_sound.owned, along_behaves events boot_sound h⟩

theorem pins_have_one_owner_reader :
    Owned boot ∧ Along Behaves
      [.grab 36, .register true 0 2 (fun i => UInt8.ofNat i), .deregister 0] boot :=
  pins_have_one_owner [.grab 36, .register true 0 2 (fun i => UInt8.ofNat i), .deregister 0]
    ⟨trivial, fun _ _ => ⟨Or.inl (by decide), fun _ _ => ⟨trivial, fun _ _ => trivial⟩⟩⟩

/-- Type 4 has no pins that could be in use, and no name either. -/
theorem unnamed_type_registered : ¬ ∀ events : List Event, Along Behaves events boot := by
  intro h
  obtain ⟨⟨_, w', _, _, hproper⟩, _⟩ := h [.register true 0 4 (fun _ => 0)]
  have hdone : (registerCall true 0 4 (fun _ => 0) boot.board).1 = true := by decide
  rw [Proper, if_pos hdone] at hproper
  simp [Named, HwDeviceTypeKeypad, HwDeviceTypeSdCardReader, HwDeviceTypeDht22] at hproper

end ArduinoOS.Hardware.Registration
