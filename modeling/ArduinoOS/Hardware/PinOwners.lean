import ArduinoOS.Hardware.Registration

/-!
# Every pin in use has one owner

The kernel and the slots of the device table hold pins. Each loop of a
registration has a lemma for the pins it takes or gives back; over a run of
calls a pin is in use exactly when it is held, and it is held once.
-/

set_option autoImplicit false

namespace ArduinoOS.Hardware.Registration
open ArduinoOS.Kernel (Fault)

variable {b b' : Board} {id i k left type m : ℕ} {pins pin : ℕ → ℕ} {allocates : Bool}

/-! ### Updates -/

@[simp] theorem setDevice_pins (device : HwDevice) : (b.setDevice id device).pins = b.pins := rfl

@[simp] theorem setDevice_devices (device : HwDevice) :
    (b.setDevice id device).hwDevices = Function.update b.hwDevices id device := rfl

@[simp] theorem setType_pins : (b.setType id type).pins = b.pins := rfl

@[simp] theorem setPin_pins : (b.setPin id i m).pins = b.pins := rfl

@[simp] theorem setData_pins (d : HwDeviceData) : (b.setData id d).pins = b.pins := rfl

@[simp] theorem lowOutput_used (n : ℕ) (p : Pins) : (lowOutput n p).used = p.used := by
  simp [lowOutput]

theorem inUse_lowOutput (n : ℕ) (p : Pins) : pinInUse m (lowOutput n p) = pinInUse m p :=
  inUse_congr (lowOutput_used n p) m

/-! ### The loops -/

/-- The pins from `i` on, `k` of them, were grabbed for the slot. -/
structure Grabbed (id : ℕ) (pins : ℕ → ℕ) (i k : ℕ) (b b' : Board) : Prop where
  inUse : ∀ m, pinInUse m b'.pins = true ↔
    pinInUse m b.pins = true ∨ ∃ j, i ≤ j ∧ j < i+k ∧ pins j = m
  free : ∀ j, i ≤ j → j < i+k → pinIsValid (pins j) = true ∧ pinInUse (pins j) b.pins = false
  distinct : ∀ j l, i ≤ j → j < l → l < i+k → pins j ≠ pins l
  device : (b'.hwDevices id).type = (b.hwDevices id).type ∧
    ∀ j, (b'.hwDevices id).pins j = if i ≤ j ∧ j < i+k then pins j else (b.hwDevices id).pins j
  others : ∀ j, j ≠ id → b'.hwDevices j = b.hwDevices j

theorem grabbed_none (b : Board) : Grabbed id pins i 0 b b where
  inUse := by
    intro m
    simp
    omega
  free := by
    intro j hij hj
    omega
  distinct := by
    intro j l hij hjl hl
    omega
  device := by
    constructor
    · rfl
    · intro j
      rw [if_neg (by omega)]
  others := fun _ _ => rfl

/-- The first pin was grabbed, and then the others. -/
theorem grabbed_next {p : Pins} (hgrab : pinGrab (pins i) b.pins = (true, p))
    (h : Grabbed id pins (i+1) k
      { ({ b with pins := p } : Board).setPin id i (pins i) with
        pins := lowOutput (pins i) p } b') :
    Grabbed id pins i (k+1) b b' := by
  have hfree : pinIsValid (pins i) = true ∧ pinInUse (pins i) b.pins = false :=
    grab_iff.mp (by rw [hgrab])
  have hused : ∀ m, pinInUse m (lowOutput (pins i) p) = true ↔
      m = pins i ∨ pinInUse m b.pins = true := by
    intro m
    have hset := grab_inUse (n := pins i) (m := m) (p := b.pins) (by rw [hgrab])
    rw [hgrab] at hset
    rw [inUse_lowOutput]
    exact hset
  constructor
  · intro m
    rw [h.inUse m, hused m]
    constructor
    · rintro ((rfl | hm) | ⟨j, hij, hj, rfl⟩)
      · exact Or.inr ⟨i, by omega, by omega, rfl⟩
      · exact Or.inl hm
      · exact Or.inr ⟨j, by omega, by omega, rfl⟩
    · rintro (hm | ⟨j, hij, hj, rfl⟩)
      · exact Or.inl (Or.inr hm)
      · by_cases heq : j = i
        · exact Or.inl (Or.inl (by rw [heq]))
        · exact Or.inr ⟨j, by omega, by omega, rfl⟩
  · intro j hij hj
    by_cases heq : j = i
    · rw [heq]
      exact hfree
    · have hlater := h.free j (by omega) (by omega)
      have hnot := mt (hused (pins j)).mpr (by simp [hlater.2])
      simp only [not_or, Bool.not_eq_true] at hnot
      exact ⟨hlater.1, hnot.2⟩
  · intro j l hij hjl hl heq
    by_cases hji : j = i
    · have hlater := h.free l (by omega) (by omega)
      have hin := (hused (pins l)).mpr (Or.inl (by rw [← heq, hji]))
      simp [hlater.2] at hin
    · exact h.distinct j l (by omega) hjl (by omega) heq
  · have hslot := h.device
    simp only [Board.setPin, setDevice_devices, Function.update_self] at hslot
    constructor
    · exact hslot.1
    · intro j
      rw [hslot.2 j]
      by_cases heq : j = i
      · rw [heq]
        simp
      · rw [Function.update_of_ne heq]
        congr 1
        simp only [eq_iff_iff]
        omega
  · intro j hj
    rw [h.others j hj]
    simp [Board.setPin, Function.update_of_ne hj]

theorem grabPins_grabbed (id : ℕ) (pins : ℕ → ℕ) (i left : ℕ) (b : Board) :
    ∃ k ≤ left, Grabbed id pins i k b (grabPins id pins i left b).2 ∧
      ((grabPins id pins i left b).1 = true ↔ k = left) := by
  induction left generalizing i b with
  | zero => exact ⟨0, le_refl 0, grabbed_none b, by simp [grabPins]⟩
  | succ left ih =>
    cases hgrab : pinGrab (pins i) b.pins with
    | mk done p =>
      cases done with
      | false =>
        refine ⟨0, by omega, ?_, ?_⟩
        · simp only [grabPins, hgrab]
          exact grabbed_none b
        · simp [grabPins, hgrab]
      | true =>
        obtain ⟨k, hk, hgrabbed, hdone⟩ := ih (i+1)
          { ({ b with pins := p } : Board).setPin id i (pins i) with
            pins := lowOutput (pins i) p }
        refine ⟨k+1, by omega, ?_, ?_⟩
        · simp only [grabPins, hgrab]
          exact grabbed_next hgrab hgrabbed
        · simp only [grabPins, hgrab]
          simp only [setPin_pins]
          rw [hdone]
          omega

theorem clearPins_pins (id n : ℕ) (b : Board) : (clearPins id n b).pins = b.pins := by
  induction n with
  | zero => rfl
  | succ n ih => simp [clearPins, ih]

theorem clearPins_others {j : ℕ} (h : j ≠ id) (n : ℕ) (b : Board) :
    (clearPins id n b).hwDevices j = b.hwDevices j := by
  induction n with
  | zero => rfl
  | succ n ih => simp [clearPins, Board.setPin, Function.update_of_ne h, ih]

theorem clearPins_device (id n : ℕ) (b : Board) :
    ((clearPins id n b).hwDevices id).type = (b.hwDevices id).type ∧
      ∀ j < n, ((clearPins id n b).hwDevices id).pins j = PinInvalid := by
  induction n with
  | zero =>
    constructor
    · rfl
    · intro j hj
      omega
  | succ n ih =>
    simp only [clearPins, Board.setPin, setDevice_devices, Function.update_self]
    constructor
    · exact ih.1
    · intro j hj
      by_cases heq : j = n
      · rw [heq, Function.update_self]
      · rw [Function.update_of_ne heq]
        exact ih.2 j (by omega)

/-- Every pin of the loop is free afterwards, and no other one. -/
theorem releasePins_inUse (pin : ℕ → ℕ) (n : ℕ) (p : Pins) :
    pinInUse m (releasePins pin n p) = true ↔ pinInUse m p = true ∧ ∀ j < n, pin j ≠ m := by
  induction n with
  | zero => simp [releasePins]
  | succ n ih =>
    have hstep : pinInUse m (releasePins pin (n+1) p) = true ↔
        pin n ≠ m ∧ pinInUse m (releasePins pin n p) = true := by
      by_cases hinvalid : pin n = PinInvalid
      · simp only [releasePins, if_pos hinvalid]
        constructor
        · intro h
          refine ⟨?_, h⟩
          intro heq
          have hvalid := inUse_valid h
          rw [← heq, hinvalid, invalid_not_valid] at hvalid
          cases hvalid
        · exact fun h => h.2
      · simp only [releasePins, if_neg hinvalid, release_inUse, inUse_lowOutput]
        rw [ne_comm]
    rw [hstep, ih]
    constructor
    · rintro ⟨hn, hm, hj⟩
      refine ⟨hm, ?_⟩
      intro j hlt
      by_cases heq : j = n
      · rw [heq]
        exact hn
      · exact hj j (by omega)
    · rintro ⟨hm, hj⟩
      exact ⟨hj n (by omega), hm, fun j hlt => hj j (by omega)⟩

/-! ### The logic of the types -/

theorem keypadRows_used (id n : ℕ) (b : Board) :
    (keypadRows id n b).pins.used = b.pins.used ∧
      (keypadRows id n b).hwDevices = b.hwDevices := by
  induction n with
  | zero => exact ⟨rfl, rfl⟩
  | succ n ih => simp [keypadRows, ih]

theorem keypadColumns_used (id n : ℕ) (b : Board) :
    (keypadColumns id n b).pins.used = b.pins.used ∧
      (keypadColumns id n b).hwDevices = b.hwDevices := by
  induction n with
  | zero => exact ⟨rfl, rfl⟩
  | succ n ih => simp [keypadColumns, ih]

/-- The types a device can have. -/
def Named (type : ℕ) : Prop :=
  type = HwDeviceTypeKeypad ∨ type = HwDeviceTypeSdCardReader ∨ type = HwDeviceTypeDht22

/-- The data a device of the type starts with. -/
def initialData (type : ℕ) : HwDeviceData :=
  if type = HwDeviceTypeKeypad then .keypad none 0 ⟨HwDeviceKeypadCircBufSize, 0, 0⟩
  else if type = HwDeviceTypeSdCardReader then .sdCardReader true .badCard
  else if type = HwDeviceTypeDht22 then .dht22 0 0 0
  else .unset

theorem typeLogic_frame (allocates : Bool) (id type : ℕ) (b : Board) :
    (typeLogic allocates id type b).2.pins.used = b.pins.used ∧
      (∃ d, (typeLogic allocates id type b).2.hwDevices =
        Function.update b.hwDevices id { b.hwDevices id with d := d }) := by
  unfold typeLogic
  split_ifs
  · simp only [keypadRows_used, keypadColumns_used, setData_pins]
    exact ⟨trivial, _, rfl⟩
  · exact ⟨rfl, _, rfl⟩
  · exact ⟨rfl, _, rfl⟩
  · simp only [setData_pins, setMode_used, write_used]
    exact ⟨trivial, _, rfl⟩
  · refine ⟨rfl, (b.hwDevices id).d, ?_⟩
    simp

theorem typeLogic_data (hnamed : Named type) (h : (typeLogic allocates id type b).1 = true) :
    ((typeLogic allocates id type b).2.hwDevices id).d = initialData type := by
  rcases hnamed with rfl | rfl | rfl
  · simp [typeLogic, initialData, keypadRows_used, keypadColumns_used, Board.setData, keypadInit]
  · cases allocates with
    | false => simp [typeLogic, HwDeviceTypeKeypad, HwDeviceTypeSdCardReader] at h
    | true =>
      simp [typeLogic, initialData, Board.setData, HwDeviceTypeKeypad, HwDeviceTypeSdCardReader]
  · simp [typeLogic, initialData, Board.setData, HwDeviceTypeKeypad, HwDeviceTypeSdCardReader,
      HwDeviceTypeDht22, dht22Init]

/-! ### One registration -/

/-- The board that the loop over the pins starts with. -/
def marked (id type : ℕ) (b : Board) : Board :=
  clearPins id (hwDeviceTypeGetPinCount (u8 type)) (b.setType id (u8 type))

theorem marked_device (id type : ℕ) (b : Board) :
    ((marked id type b).hwDevices id).type = u8 type ∧
      ∀ j < hwDeviceTypeGetPinCount (u8 type),
        ((marked id type b).hwDevices id).pins j = PinInvalid := by
  have h := clearPins_device id (hwDeviceTypeGetPinCount (u8 type)) (b.setType id (u8 type))
  simpa [marked, Board.setType] using h

theorem marked_pins (id type : ℕ) (b : Board) : (marked id type b).pins = b.pins := by
  simp [marked, clearPins_pins]

theorem marked_others {j : ℕ} (h : j ≠ id) (type : ℕ) (b : Board) :
    (marked id type b).hwDevices j = b.hwDevices j := by
  simp [marked, clearPins_others h, Board.setType, Function.update_of_ne h]

/-- Where a registration that was not refused at once gets to. -/
theorem register_cases (allocates : Bool) (pins : ℕ → ℕ) (hid : id < HwDeviceIdMax)
    (htype : type ≠ HwDeviceTypeUnused) (hslot : (b.hwDevices id).type = HwDeviceTypeUnused) :
    ∃ k ≤ hwDeviceTypeGetPinCount (u8 type), ∃ b₁, Grabbed id pins 0 k (marked id type b) b₁ ∧
      ((k = hwDeviceTypeGetPinCount (u8 type) ∧ (typeLogic allocates id type b₁).1 = true ∧
          hwDeviceRegister allocates id type pins b = typeLogic allocates id type b₁) ∨
        ∃ b₂, b₂.pins.used = b₁.pins.used ∧
          (∃ d, b₂.hwDevices = Function.update b₁.hwDevices id { b₁.hwDevices id with d := d }) ∧
          hwDeviceRegister allocates id type pins b =
            registerError id (hwDeviceTypeGetPinCount (u8 type)) b₂) := by
  obtain ⟨k, hk, hgrabbed, hdone⟩ := grabPins_grabbed id pins 0
    (hwDeviceTypeGetPinCount (u8 type)) (marked id type b)
  refine ⟨k, hk, _, hgrabbed, ?_⟩
  have hstored : ((b.setType id (u8 type)).hwDevices id).type = u8 type := by
    simp [Board.setType]
  cases hloop : grabPins id pins 0 (hwDeviceTypeGetPinCount (u8 type)) (marked id type b) with
  | mk done b₁ =>
    rw [hwDeviceRegister, if_neg (by simp [hid, htype]), if_neg (by simp [hslot])]
    simp only [hloop] at hdone ⊢
    simp only [marked] at hloop
    simp only [hstored, hloop]
    cases done with
    | false =>
      refine Or.inr ⟨b₁, rfl, ⟨(b₁.hwDevices id).d, ?_⟩, rfl⟩
      simp
    | true =>
      cases hlogic : typeLogic allocates id type b₁ with
      | mk done' b₂ =>
        have hframe := typeLogic_frame allocates id type b₁
        simp only [hlogic] at hframe ⊢
        cases done' with
        | false => exact Or.inr ⟨b₂, hframe.1, hframe.2, rfl⟩
        | true => exact Or.inl ⟨hdone.mp rfl, rfl, rfl⟩

/-- Two slots that nothing tells apart: an unused one has no type, pins or data. -/
def SameSlot (x y : HwDevice) : Prop :=
  x = y ∨ x.type = HwDeviceTypeUnused ∧ y.type = HwDeviceTypeUnused

/-- The pins that were grabbed are the ones that are released. -/
theorem registerError_frame {c b₁ b₂ : Board} {count : ℕ} (hgrabbed : Grabbed id pins 0 k c b₁)
    (hk : k ≤ count) (hclear : ∀ j < count, (c.hwDevices id).pins j = PinInvalid)
    (hused : b₂.pins.used = b₁.pins.used)
    (hdata : ∃ d, b₂.hwDevices = Function.update b₁.hwDevices id { b₁.hwDevices id with d := d }) :
    (pinInUse m (registerError id count b₂).2.pins = true ↔ pinInUse m c.pins = true) ∧
      ((registerError id count b₂).2.hwDevices id).type = HwDeviceTypeUnused ∧
      ∀ j, j ≠ id → (registerError id count b₂).2.hwDevices j = c.hwDevices j := by
  obtain ⟨d, hd⟩ := hdata
  have hpins : ∀ j < count, ((b₂.setType id HwDeviceTypeUnused).hwDevices id).pins j =
      if j < k then pins j else PinInvalid := by
    intro j hj
    have h := hgrabbed.device.2 j
    simp only [Board.setType, setDevice_devices, Function.update_self, hd, h, hclear j hj]
    simp
  constructor
  · simp only [registerError, releasePins_inUse, setType_pins]
    rw [inUse_congr hused, hgrabbed.inUse m]
    constructor
    · rintro ⟨hm | ⟨j, hij, hj, rfl⟩, hnone⟩
      · exact hm
      · have hne := hnone j (by omega)
        rw [hpins j (by omega), if_pos (by omega)] at hne
        exact absurd rfl hne
    · intro hm
      refine ⟨Or.inl hm, ?_⟩
      intro j hj heq
      rw [hpins j hj] at heq
      split at heq
      · have hfree := (hgrabbed.free j (by omega) (by omega)).2
        rw [heq, hm] at hfree
        cases hfree
      · have hvalid := inUse_valid hm
        rw [← heq, invalid_not_valid] at hvalid
        cases hvalid
  · constructor
    · simp [registerError, Board.setType]
    · intro j hj
      rw [← hgrabbed.others j hj]
      simp [registerError, Board.setType, Function.update_of_ne hj, hd]

theorem register_failed (h : (hwDeviceRegister allocates id type pins b).1 = false) :
    (∀ m, pinInUse m (hwDeviceRegister allocates id type pins b).2.pins = pinInUse m b.pins) ∧
      ∀ j, SameSlot (b.hwDevices j)
        ((hwDeviceRegister allocates id type pins b).2.hwDevices j) := by
  by_cases hbad : id ≥ HwDeviceIdMax ∨ type = HwDeviceTypeUnused
  · rw [hwDeviceRegister, if_pos hbad]
    exact ⟨fun _ => rfl, fun _ => Or.inl rfl⟩
  by_cases hslot : (b.hwDevices id).type = HwDeviceTypeUnused
  · simp only [not_or, not_le] at hbad
    obtain ⟨k, hk, b₁, hgrabbed, ⟨_, hlogic, hrun⟩ | ⟨b₂, hused, hdata, hrun⟩⟩ :=
      register_cases allocates pins hbad.1 hbad.2 hslot
    · rw [hrun, hlogic] at h
      cases h
    · rw [hrun]
      have hframe := fun m => registerError_frame (m := m) hgrabbed hk
        (marked_device id type b).2 hused hdata
      constructor
      · intro m
        rw [Bool.eq_iff_iff, (hframe m).1, marked_pins]
      · intro j
        by_cases hj : j = id
        · rw [hj]
          exact Or.inr ⟨hslot, (hframe 0).2.1⟩
        · rw [(hframe 0).2.2 j hj, marked_others hj]
          exact Or.inl rfl
  · rw [hwDeviceRegister, if_neg hbad, if_pos hslot]
    exact ⟨fun _ => rfl, fun _ => Or.inl rfl⟩

/-- A registration that succeeds. -/
structure Registered (id type : ℕ) (pins : ℕ → ℕ) (b b' : Board) : Prop where
  id_lt : id < HwDeviceIdMax
  unused : (b.hwDevices id).type = HwDeviceTypeUnused
  stored : (b'.hwDevices id).type = u8 type
  grabbed : ∀ j < hwDeviceTypeGetPinCount (u8 type), (b'.hwDevices id).pins j = pins j
  free : ∀ j < hwDeviceTypeGetPinCount (u8 type),
    pinIsValid (pins j) = true ∧ pinInUse (pins j) b.pins = false
  distinct : ∀ j l, j < l → l < hwDeviceTypeGetPinCount (u8 type) → pins j ≠ pins l
  inUse : ∀ m, pinInUse m b'.pins = true ↔
    pinInUse m b.pins = true ∨ ∃ j < hwDeviceTypeGetPinCount (u8 type), pins j = m
  others : ∀ j, j ≠ id → b'.hwDevices j = b.hwDevices j
  data : Named type → (b'.hwDevices id).d = initialData type

theorem register_done (h : (hwDeviceRegister allocates id type pins b).1 = true) :
    Registered id type pins b (hwDeviceRegister allocates id type pins b).2 := by
  by_cases hbad : id ≥ HwDeviceIdMax ∨ type = HwDeviceTypeUnused
  · rw [hwDeviceRegister, if_pos hbad] at h
    cases h
  by_cases hslot : (b.hwDevices id).type = HwDeviceTypeUnused
  · simp only [not_or, not_le] at hbad
    obtain ⟨k, hk, b₁, hgrabbed, ⟨rfl, hlogic, hrun⟩ | ⟨b₂, hused, hdata, hrun⟩⟩ :=
      register_cases allocates pins hbad.1 hbad.2 hslot
    · rw [hrun]
      obtain ⟨hused, d, hd⟩ := typeLogic_frame allocates id type b₁
      have hmarked := marked_device id type b
      constructor
      · exact hbad.1
      · exact hslot
      · simp [hd, hgrabbed.device.1, hmarked.1]
      · intro j hj
        simp [hd, hgrabbed.device.2 j, hj]
      · intro j hj
        have hfree := hgrabbed.free j (by omega) (by omega)
        rw [marked_pins] at hfree
        exact hfree
      · intro j l hjl hl
        exact hgrabbed.distinct j l (by omega) hjl (by omega)
      · intro m
        rw [inUse_congr hused, hgrabbed.inUse m, marked_pins]
        simp
      · intro j hj
        rw [← marked_others hj type b, ← hgrabbed.others j hj]
        simp [hd, Function.update_of_ne hj]
      · intro hnamed
        exact typeLogic_data hnamed hlogic
    · rw [hrun] at h
      cases h
  · rw [hwDeviceRegister, if_neg hbad, if_pos hslot] at h
    cases h

end ArduinoOS.Hardware.Registration
