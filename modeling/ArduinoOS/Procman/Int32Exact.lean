import ArduinoOS.Procman.Int32

/-!
# What the 32 bit system calls compute

All of them compute modulo 2^32 and read both operands before the result is
stored, so that operands may overlap. A shift by 32 or more places leaves what
the machine makes of it, where the 16 bit instructions leave zero.
-/

set_option autoImplicit false

namespace ArduinoOS.Procman
open ArduinoOS.Faulting ArduinoOS.Kernel

/-! ### The arithmetic -/

/-- Division with its remainder is left to the calls themselves. -/
def int32Result (op : Int32Op) (a b : ℕ) : ℕ :=
  match op with
  | .add16 | .add32 => (a+b)%2^32
  | .sub16 | .sub32 => (((a : ℤ)-b)%2^32).toNat
  | .mul16 | .mul32 => a*b%2^32
  | .div16 | .div32 => a/b
  | .shl => a*2^b%2^32
  | .shr => a/2^b

/-- Calls whose second operand is a double word in memory. -/
def Int32Op.wide : Int32Op → Bool
  | .add32 | .sub32 | .mul32 | .div32 => true
  | _ => false

def Int32Op.divides : Int32Op → Bool
  | .div16 | .div32 => true
  | _ => false

theorem u32_lt (n : ℕ) : u32 n < 4294967296 := Nat.mod_lt n (by decide)

theorem two_pow_mod (n : ℕ) : n%2^32 = u32 n := rfl

theorem sub_wraps {a b : ℕ} (ha : a < 4294967296) (hb : b < 4294967296) :
    u32 (a+4294967296-b) = (((a : ℤ)-b)%2^32).toNat := by
  simp only [u32]
  omega

theorem shl_all {b : ℕ} (h : 32 ≤ b) (a : ℕ) : a*2^b%2^32 = 0 := by
  have hsplit : 2^b = 2^32*2^(b-32) := by
    rw [← pow_add]
    congr 1
    omega
  rw [hsplit, Nat.mul_left_comm]
  exact Nat.mul_mod_right _ _

theorem shr_all {a b : ℕ} (ha : a < 4294967296) (h : 32 ≤ b) : a/2^b = 0 := by
  have hbig : 2^32 ≤ 2^b := Nat.pow_le_pow_right (by decide) h
  exact Nat.div_eq_of_lt (lt_of_lt_of_le ha hbig)

/-- The machine's own shift, for the counts that the language leaves open. -/
def shiftsResult (shifts : LongShifts) (op : Int32Op) (a b : ℕ) : ℕ :=
  match op with
  | .shl => if b < 32 then u32 (a*2^b) else u32 (shifts.shl a b)
  | .shr => if b < 32 then a/2^b else u32 (shifts.shr a b)
  | op => int32Result op a b

/-- The condition on the shifts: short, or made zero by the machine. -/
def ShiftsShort (shifts : LongShifts) (op : Int32Op) (a b : ℕ) : Prop :=
  (op = .shl → b < 32 ∨ u32 (shifts.shl a b) = 0) ∧
    (op = .shr → b < 32 ∨ u32 (shifts.shr a b) = 0)

theorem shiftsResult_iff (shifts : LongShifts) (op : Int32Op) {a b : ℕ} (ha : a < 4294967296) :
    shiftsResult shifts op a b = int32Result op a b ↔ ShiftsShort shifts op a b := by
  cases op
  case shl =>
    by_cases hb : b < 32
    · simp [shiftsResult, int32Result, ShiftsShort, hb, u32]
    · have hzero := shl_all (by omega : 32 ≤ b) a
      simp only [shiftsResult, int32Result, ShiftsShort, hb, if_false, hzero]
      simp
  case shr =>
    by_cases hb : b < 32
    · simp [shiftsResult, int32Result, ShiftsShort, hb]
    · have hzero := shr_all ha (by omega : 32 ≤ b)
      simp only [shiftsResult, int32Result, ShiftsShort, hb, if_false, hzero]
      simp
  all_goals simp [shiftsResult, ShiftsShort]

theorem shiftsResult_lt (shifts : LongShifts) {op : Int32Op} {a b : ℕ} (ha : a < 4294967296) :
    shiftsResult shifts op a b < 4294967296 := by
  have hmod : ∀ n : ℕ, n%2^32 < 4294967296 := fun n => Nat.mod_lt n (by decide)
  have hdiv : ∀ n : ℕ, a/n < 4294967296 := fun n => lt_of_le_of_lt (Nat.div_le_self a n) ha
  cases op
  case shl =>
    rw [shiftsResult]
    split <;> exact u32_lt _
  case shr =>
    rw [shiftsResult]
    split
    · exact hdiv _
    · exact u32_lt _
  case sub16 | sub32 =>
    simp only [shiftsResult, int32Result]
    omega
  all_goals simp only [shiftsResult, int32Result, hmod, hdiv]

/-! ### What the calls are to do -/

section Claim

variable {φ : Type} (F : Files φ) (Inv : φ → Prop) (view : φ → FsView) (grants : ℕ → Bool)
  (process : ProcManProcess) (paths : ProcessPaths)

/-- The second operand, as the call finds it. -/
def SecondOperand (op : Int32Op) (procData : ProcManProcessProcData) (s : φ) (b : ℕ) : Prop :=
  if op.wide then DwordAt F process procData s (procData.regs 2) b
  else (procData.regs 2).toNat = b

/-- The result at the first address, and no other change. -/
def ResultStored (m : MemoryImage) (procData : ProcManProcessProcData) (value : ℕ)
    (m' : MemoryImage) (procData' : ProcManProcessProcData) (s' : φ) : Prop :=
  Stored grants m m' (procData.regs 1) value ∧
    DwordAt F process procData' s' (procData.regs 1) value

/-- Quotient and remainder of a division by a double word: the remainder is
stored last, and both can be read where their addresses are apart. -/
def BothStored (m : MemoryImage) (procData : ProcManProcessProcData) (a b : ℕ)
    (m' : MemoryImage) (procData' : ProcManProcessProcData) (s' : φ) : Prop :=
  ∃ m₁ q r, a = q*b+r ∧ r < b ∧ Stored grants m m₁ (procData.regs 1) q ∧
    Stored grants m₁ m' (procData.regs 3) r ∧
    DwordAt F process procData' s' (procData.regs 3) r ∧
    ((procData.regs 1).toNat < ProcManEnvVarsVirtualOffset →
      (procData.regs 3).toNat < ProcManEnvVarsVirtualOffset →
      ((procData.regs 1).toNat+4 ≤ (procData.regs 3).toNat ∨
        (procData.regs 3).toNat+4 ≤ (procData.regs 1).toNat) →
      DwordAt F process procData' s' (procData.regs 1) q)

/-- The memory and the registers after a call that has not killed the process. -/
def Int32Done (op : Int32Op) (a b : ℕ) (m : MemoryImage) (procData : ProcManProcessProcData)
    (m' : MemoryImage) (procData' : ProcManProcessProcData) (s' : φ) : Prop :=
  match op with
  | .div16 => ∃ q r, a = q*b+r ∧ r < b ∧
      ResultStored F grants process m procData q m' procData' s' ∧
      procData'.regs = Function.update procData.regs 0 (UInt16.ofNat r)
  | .div32 => BothStored F grants process m procData a b m' procData' s' ∧
      procData'.regs = procData.regs
  | op => ResultStored F grants process m procData (int32Result op a b) m' procData' s' ∧
      procData'.regs = procData.regs

/-- A division by zero kills the process with nothing written. Every other call
stores its results. -/
def Int32Behaves (shifts : LongShifts) (op : Int32Op) (a b : ℕ) (m : MemoryImage)
    (procData : ProcManProcessProcData) (s : φ) : Prop :=
  if op.divides = true ∧ b = 0 then
    ∃ s', int32Syscall F process shifts op procData s = .ok ((false, procData), s') ∧
      view s' = view s
  else
    ∃ procData' s' m', int32Syscall F process shifts op procData s = .ok ((true, procData'), s') ∧
      MemoryAt Inv view process paths procData' s' m' ∧
      Int32Done F grants process op a b m procData m' procData' s'

end Claim

/-! ### The runs -/

section Runs

variable {φ : Type} {F : Files φ} {Inv : φ → Prop} {view : φ → FsView} {largest : ℕ}
  {grants : ℕ → Bool} {process : ProcManProcess} {procData procData' : ProcManProcessProcData}
  {paths : ProcessPaths} {m m' : MemoryImage} {s s' : φ} {a b : ℕ}

theorem block_length {addr len : ℕ} {bytes : List UInt8} (h : m.block addr len = some bytes) :
    bytes.length = len := by
  rcases MemoryImage.block_cases h with ⟨-, hs⟩ | ⟨offset, -, -, hs⟩
  · exact (sliceOf_some.mp hs).1
  · exact (sliceOf_some.mp hs).1

theorem dwordAt_lt (hl : FilesLaw F Inv view largest) (hr : ReliableReads F Inv view)
    (h : MemoryAt Inv view process paths procData s m) {addr : UInt16} {value : ℕ}
    (hvalue : DwordAt F process procData s addr value) : value < 4294967296 := by
  rw [dwordAt_iff hl hr h] at hvalue
  obtain ⟨bytes, hbytes, hdword⟩ := Option.map_eq_some_iff.mp hvalue
  rw [← hdword]
  exact dwordOf_lt (block_length hbytes)

/-- A stored double word is read again. -/
theorem stored_dwordAt (hl : FilesLaw F Inv view largest) (hr : ReliableReads F Inv view)
    (h : MemoryAt Inv view process paths procData' s' m') {addr : UInt16} {value : ℕ}
    (hfits : Storable grants largest m.env.length m.ram.length addr)
    (hstored : Stored grants m m' addr value) (hlt : value < 4294967296) :
    DwordAt F process procData' s' addr value := by
  rw [dwordAt_iff hl hr h, stored_read hfits hstored, Option.map_some, dwordOf_bytes hlt]

/-- Both operands are read and nothing is changed. -/
theorem int32Operands_run (hl : FilesLaw F Inv view largest) (hr : ReliableReads F Inv view)
    (h : MemoryAt Inv view process paths procData s m)
    (ha : DwordAt F process procData s (procData.regs 1) a)
    (hb : DwordAt F process procData s (procData.regs 2) b)
    (next : ℕ → ℕ → Run φ Fault (Bool × ProcManProcessProcData)) :
    ∃ s₁, int32Operands F process procData next s = next a b s₁ ∧
      MemoryAt Inv view process paths procData s₁ m ∧ view s₁ = view s := by
  rw [dwordAt_iff hl hr h] at ha hb
  obtain ⟨s₁, hread, h₁, hview⟩ := readDword_run hl hr h (procData.regs 1)
  obtain ⟨s₂, hread', h₂, hview'⟩ := readDword_run hl hr h₁ (procData.regs 2)
  rw [ha] at hread
  rw [hb] at hread'
  refine ⟨s₂, ?_, h₂, hview'.trans hview⟩
  rw [int32Operands, bind_of_ok hread]
  dsimp only
  rw [bind_of_ok hread']

/-- One store, for the calls with a word as well as for those with a double word. -/
theorem int32Store_run (hl : FilesLaw F Inv view largest) (hr : ReliableReads F Inv view)
    (hw : ReliableWrites F Inv view) (hg : Growable F Inv view largest paths.ram grants)
    (hsmall : largest ≤ 32768) (h : MemoryAt Inv view process paths procData s m) {value : ℕ}
    (hlt : value < 4294967296)
    (hfits : Storable grants largest m.env.length m.ram.length (procData.regs 1)) :
    ∃ procData' s' m', procManProcessMemoryWriteDoubleWord F process procData (procData.regs 1)
        value s = .ok ((true, procData'), s') ∧
      MemoryAt Inv view process paths procData' s' m' ∧
      ResultStored F grants process m procData value m' procData' s' ∧
      procData'.regs = procData.regs := by
  obtain ⟨procData', s', m', hrun, h', hstored, hregs⟩ :=
    writeDword_run hl hw hg hsmall h value hfits
  exact ⟨procData', s', m', hrun, h', ⟨hstored, stored_dwordAt hl hr h' hfits hstored hlt⟩, hregs⟩

theorem int32With16_run (hl : FilesLaw F Inv view largest) (hr : ReliableReads F Inv view)
    (hw : ReliableWrites F Inv view) (hg : Growable F Inv view largest paths.ram grants)
    (hsmall : largest ≤ 32768) (h : MemoryAt Inv view process paths procData s m)
    (ha : DwordAt F process procData s (procData.regs 1) a) (op : ℕ → ℕ → ℕ)
    (hlt : op a (procData.regs 2).toNat < 4294967296)
    (hfits : Storable grants largest m.env.length m.ram.length (procData.regs 1)) :
    ∃ procData' s' m', int32With16 F process op procData s = .ok ((true, procData'), s') ∧
      MemoryAt Inv view process paths procData' s' m' ∧
      ResultStored F grants process m procData (op a (procData.regs 2).toNat) m' procData' s' ∧
      procData'.regs = procData.regs := by
  rw [dwordAt_iff hl hr h] at ha
  obtain ⟨s₁, hread, h₁, -⟩ := readDword_run hl hr h (procData.regs 1)
  rw [ha] at hread
  rw [int32With16, bind_of_ok hread]
  exact int32Store_run hl hr hw hg hsmall h₁ hlt hfits

theorem int32With32_run (hl : FilesLaw F Inv view largest) (hr : ReliableReads F Inv view)
    (hw : ReliableWrites F Inv view) (hg : Growable F Inv view largest paths.ram grants)
    (hsmall : largest ≤ 32768) (h : MemoryAt Inv view process paths procData s m)
    (ha : DwordAt F process procData s (procData.regs 1) a)
    (hb : DwordAt F process procData s (procData.regs 2) b) (op : ℕ → ℕ → ℕ)
    (hlt : op a b < 4294967296)
    (hfits : Storable grants largest m.env.length m.ram.length (procData.regs 1)) :
    ∃ procData' s' m', int32With32 F process op procData s = .ok ((true, procData'), s') ∧
      MemoryAt Inv view process paths procData' s' m' ∧
      ResultStored F grants process m procData (op a b) m' procData' s' ∧
      procData'.regs = procData.regs := by
  obtain ⟨s₁, hrun, h₁, -⟩ := int32Operands_run hl hr h ha hb (fun aValue bValue =>
    procManProcessMemoryWriteDoubleWord F process procData (procData.regs 1) (op aValue bValue))
  rw [int32With32, hrun]
  exact int32Store_run hl hr hw hg hsmall h₁ hlt hfits

/-- A double word below the window stays when another one is stored beside it. -/
theorem stored_beside {addr addr' : UInt16} {value : ℕ} {bytes : List UInt8}
    (hread : m.block addr.toNat 4 = some bytes) (hbase : BytecodeMemoryRamAddr ≤ addr.toNat)
    (hbase' : BytecodeMemoryRamAddr ≤ addr'.toNat)
    (hinside : addr.toNat-BytecodeMemoryRamAddr < m.ram.length)
    (hlow : addr'.toNat < ProcManEnvVarsVirtualOffset)
    (hapart : addr.toNat+4 ≤ addr'.toNat ∨ addr'.toNat+4 ≤ addr.toNat)
    (h : Stored grants m m' addr' value) : m'.block addr.toNat 4 = some bytes := by
  have hpatched := h.patched
  have henv := hpatched.env
  have hram := hpatched.ram
  rw [storeOffset, if_pos (.inr hlow)] at hpatched
  rw [MemoryImage.block_at hbase (MemoryImage.offsetOf_ram hinside)] at hread
  rw [MemoryImage.block_at hbase (MemoryImage.offsetOf_ram (by omega)), henv]
  apply patched_slice hpatched hread
  intro k hk hfrom hto
  rw [dwordBytes_length] at hto
  omega

theorem int32Div16_run (hl : FilesLaw F Inv view largest) (hr : ReliableReads F Inv view)
    (hw : ReliableWrites F Inv view) (hg : Growable F Inv view largest paths.ram grants)
    (hsmall : largest ≤ 32768) (h : MemoryAt Inv view process paths procData s m)
    (ha : DwordAt F process procData s (procData.regs 1) a) (hb : (procData.regs 2).toNat = b)
    (hpos : b ≠ 0)
    (hfits : Storable grants largest m.env.length m.ram.length (procData.regs 1)) :
    ∃ procData' s' m', int32Div16 F process procData s = .ok ((true, procData'), s') ∧
      MemoryAt Inv view process paths procData' s' m' ∧
      Int32Done F grants process .div16 a b m procData m' procData' s' := by
  have hlt := dwordAt_lt hl hr h ha
  rw [dwordAt_iff hl hr h] at ha
  obtain ⟨s₁, hread, h₁, -⟩ := readDword_run hl hr h (procData.regs 1)
  rw [ha] at hread
  obtain ⟨procData', s', m', hrun, h', hstored, hregs⟩ := int32Store_run hl hr hw hg hsmall h₁
    (lt_of_le_of_lt (Nat.div_le_self a b) hlt) hfits
  have hmod : a-a/b*b = a%b := by
    have hsum := Nat.div_add_mod' a b
    omega
  have hrest := Nat.mod_lt a (Nat.pos_of_ne_zero hpos)
  have hword : u16 (a-a/b*b) = a%b := by
    rw [hmod]
    apply Nat.mod_eq_of_lt
    have hsmallWord := (procData.regs 2).toNat_lt
    omega
  refine ⟨procData'.setReg 0 (UInt16.ofNat (a%b)), s', m', ?_, ?_, a/b, a%b,
    (Nat.div_add_mod' a b).symm, hrest, ?_, ?_⟩
  · rw [int32Div16, bind_of_ok hread]
    dsimp only
    rw [hb, if_neg hpos, bind_of_ok hrun, hword]
    rfl
  · exact ⟨h'.inv, memory_setReg h'.memory 0 _, h'.owned.valid, h'.owned.alone⟩
  · exact hstored
  · rw [← hregs]
    rfl

theorem int32Div32_run (hl : FilesLaw F Inv view largest) (hr : ReliableReads F Inv view)
    (hw : ReliableWrites F Inv view) (hg : Growable F Inv view largest paths.ram grants)
    (hsmall : largest ≤ 32768) (h : MemoryAt Inv view process paths procData s m)
    (ha : DwordAt F process procData s (procData.regs 1) a)
    (hb : DwordAt F process procData s (procData.regs 2) b) (hpos : b ≠ 0)
    (hfits : Storable grants largest m.env.length m.ram.length (procData.regs 1))
    (hfits' : Storable grants largest m.env.length
      (storedLen grants m.env.length m.ram.length (procData.regs 1)) (procData.regs 3)) :
    ∃ procData' s' m', int32Div32 F process procData s = .ok ((true, procData'), s') ∧
      MemoryAt Inv view process paths procData' s' m' ∧
      Int32Done F grants process .div32 a b m procData m' procData' s' := by
  have hlt := dwordAt_lt hl hr h ha
  obtain ⟨s₁, hoperands, h₁, -⟩ := int32Operands_run hl hr h ha hb (fun aValue bValue =>
    if bValue = 0 then pure (false, procData)
    else do
      let quotient := aValue/bValue
      let remainder := aValue-quotient*bValue
      let r ← procManProcessMemoryWriteDoubleWord F process procData (procData.regs 1) quotient
      if r.1 then
        procManProcessMemoryWriteDoubleWord F process r.2 (procData.regs 3) remainder
      else pure (false, r.2))
  obtain ⟨procData₁, s₂, m₁, hrun, h₂, ⟨hstored, -⟩, hregs⟩ := int32Store_run hl hr hw hg hsmall h₁
    (lt_of_le_of_lt (Nat.div_le_self a b) hlt) hfits
  rw [← hstored.length, ← hstored.patched.env] at hfits'
  obtain ⟨procData', s', m', hrun', h', hstored', hregs'⟩ :=
    writeDword_run hl hw hg hsmall h₂ (a%b) hfits'
  have hmod : a-a/b*b = a%b := by
    have hsum := Nat.div_add_mod' a b
    omega
  have hrest := Nat.mod_lt a (Nat.pos_of_ne_zero hpos)
  have hquotient := stored_read hfits hstored
  refine ⟨procData', s', m', ?_, h', ⟨m₁, a/b, a%b, (Nat.div_add_mod' a b).symm, hrest, hstored,
    hstored', ?_, ?_⟩, hregs'.trans hregs⟩
  · rw [int32Div32, hoperands, if_neg hpos, bind_of_ok hrun, if_pos rfl, hmod]
    exact hrun'
  · exact stored_dwordAt hl hr h' hfits' hstored' (by omega)
  · intro hlow hlow' hapart
    rw [dwordAt_iff hl hr h']
    have hinside : (procData.regs 1).toNat-BytecodeMemoryRamAddr < m₁.ram.length := by
      have hbounds := lenAfter_bounds grants m.env.length m.ram.length
        ((procData.regs 1).toNat-BytecodeMemoryRamAddr+4)
      rw [hstored.length, storedLen, if_pos hlow]
      omega
    rw [stored_beside hquotient hfits.1 hfits'.1 hinside hlow' hapart hstored', Option.map_some,
      dwordOf_bytes (lt_of_le_of_lt (Nat.div_le_self a b) hlt)]

theorem dwordAt_same {addr : UInt16} {value value' : ℕ}
    (h : DwordAt F process procData s addr value) (h' : DwordAt F process procData s addr value') :
    value = value' := by
  obtain ⟨s₁, hrun⟩ := h
  obtain ⟨s₂, hrun'⟩ := h'
  rw [hrun] at hrun'
  exact Option.some.inj (congrArg Prod.fst (Except.ok.inj hrun'))

variable (shifts : LongShifts) {op : Int32Op}

/-- The calls that do not divide store one double word. -/
theorem int32Syscall_run (hl : FilesLaw F Inv view largest) (hr : ReliableReads F Inv view)
    (hw : ReliableWrites F Inv view) (hg : Growable F Inv view largest paths.ram grants)
    (hsmall : largest ≤ 32768) (h : MemoryAt Inv view process paths procData s m)
    (ha : DwordAt F process procData s (procData.regs 1) a)
    (hb : SecondOperand F process op procData s b) (hop : op.divides = false)
    (hfits : Storable grants largest m.env.length m.ram.length (procData.regs 1)) :
    ∃ procData' s' m', int32Syscall F process shifts op procData s =
        .ok ((true, procData'), s') ∧ MemoryAt Inv view process paths procData' s' m' ∧
      ResultStored F grants process m procData (shiftsResult shifts op a b) m' procData' s' ∧
      procData'.regs = procData.regs := by
  have hlt := dwordAt_lt hl hr h ha
  cases op
  case div16 | div32 => cases hop
  case add16 =>
    subst hb
    simp only [shiftsResult, int32Result, two_pow_mod]
    exact int32With16_run hl hr hw hg hsmall h ha (fun aValue bValue => u32 (aValue+bValue))
      (u32_lt _) hfits
  case sub16 =>
    subst hb
    have hword : (procData.regs 2).toNat < 4294967296 :=
      Nat.lt_trans (procData.regs 2).toNat_lt (by decide)
    simp only [shiftsResult, int32Result, ← sub_wraps hlt hword]
    exact int32With16_run hl hr hw hg hsmall h ha
      (fun aValue bValue => u32 (aValue+4294967296-bValue)) (u32_lt _) hfits
  case mul16 =>
    subst hb
    simp only [shiftsResult, int32Result, two_pow_mod]
    exact int32With16_run hl hr hw hg hsmall h ha (fun aValue bValue => u32 (aValue*bValue))
      (u32_lt _) hfits
  case shl =>
    subst hb
    exact int32With16_run hl hr hw hg hsmall h ha (shiftsResult shifts .shl)
      (shiftsResult_lt shifts hlt) hfits
  case shr =>
    subst hb
    exact int32With16_run hl hr hw hg hsmall h ha (shiftsResult shifts .shr)
      (shiftsResult_lt shifts hlt) hfits
  case add32 =>
    simp only [shiftsResult, int32Result, two_pow_mod]
    exact int32With32_run hl hr hw hg hsmall h ha hb (fun aValue bValue => u32 (aValue+bValue))
      (u32_lt _) hfits
  case sub32 =>
    simp only [shiftsResult, int32Result, ← sub_wraps hlt (dwordAt_lt hl hr h hb)]
    exact int32With32_run hl hr hw hg hsmall h ha hb
      (fun aValue bValue => u32 (aValue+4294967296-bValue)) (u32_lt _) hfits
  case mul32 =>
    simp only [shiftsResult, int32Result, two_pow_mod]
    exact int32With32_run hl hr hw hg hsmall h ha hb (fun aValue bValue => u32 (aValue*bValue))
      (u32_lt _) hfits

theorem int32_divides (hl : FilesLaw F Inv view largest) (hr : ReliableReads F Inv view)
    (hw : ReliableWrites F Inv view) (hg : Growable F Inv view largest paths.ram grants)
    (hsmall : largest ≤ 32768) (h : MemoryAt Inv view process paths procData s m)
    (ha : DwordAt F process procData s (procData.regs 1) a)
    (hb : SecondOperand F process op procData s b) (hop : op.divides = true)
    (hfits : Storable grants largest m.env.length m.ram.length (procData.regs 1))
    (hfits' : op = .div32 → Storable grants largest m.env.length
      (storedLen grants m.env.length m.ram.length (procData.regs 1)) (procData.regs 3)) :
    Int32Behaves F Inv view grants process paths shifts op a b m procData s := by
  by_cases hpos : b = 0
  · rw [Int32Behaves, if_pos ⟨hop, hpos⟩]
    cases op
    case div16 =>
      have hb : (procData.regs 2).toNat = b := hb
      rw [dwordAt_iff hl hr h] at ha
      obtain ⟨s₁, hread, -, hview⟩ := readDword_run hl hr h (procData.regs 1)
      rw [ha] at hread
      refine ⟨s₁, ?_, hview⟩
      rw [int32Syscall, int32Div16, bind_of_ok hread]
      dsimp only
      rw [if_pos (hb.trans hpos)]
      rfl
    case div32 =>
      obtain ⟨s₁, hrun, -, hview⟩ := int32Operands_run hl hr h ha hb _
      refine ⟨s₁, ?_, hview⟩
      rw [int32Syscall, int32Div32, hrun, if_pos hpos]
      rfl
    all_goals cases hop
  · rw [Int32Behaves, if_neg (fun hzero => hpos hzero.2)]
    cases op
    case div16 => exact int32Div16_run hl hr hw hg hsmall h ha hb hpos hfits
    case div32 => exact int32Div32_run hl hr hw hg hsmall h ha hb hpos hfits (hfits' rfl)
    all_goals cases hop

end Runs

/-! ### The shell -/

/-- r1 points to the four bytes of RAM. -/
def int32Regs (second : UInt16) : Fin 8 → UInt16 :=
  fun r => if r = 1 then 32768 else if r = 2 then second else 0

theorem shell_int32_memoryAt (second : UInt16) :
    MemoryAt FsView.Bounded id shellProcess shellPaths
      (shellWith (int32Regs second) shellData.fds) (shellView [47, 47]) (shellImage [47, 47]) := by
  obtain ⟨hi, hm, ho⟩ := shell_memoryAt [47, 47]
  exact ⟨hi, ⟨hm.progFd, hm.progFile, hm.ramFd, hm.ramFile, hm.envLen, hm.ramLen, hm.procFd,
    hm.valid, hm.apart⟩, ho.valid, ho.alone⟩

/-- A machine that takes the count modulo 32. -/
def maskedShifts : LongShifts where
  shl a n := a*2^(n%32)
  shr a n := a/2^(n%32)

theorem shell_dword (second : UInt16) :
    DwordAt viewFiles shellProcess (shellWith (int32Regs second) shellData.fds)
      (shellView [47, 47]) 32768 16909060 := ⟨_, rfl⟩

theorem shell_storable : Storable (fun _ => true) 32768 (shellImage [47, 47]).env.length
    (shellImage [47, 47]).ram.length 32768 :=
  ⟨by decide, .inr (.inl ⟨by decide, by decide, rfl⟩)⟩

end ArduinoOS.Procman
