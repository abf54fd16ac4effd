import ArduinoOS.Procman.Memmove
import ArduinoOS.Procman.Transfer

/-!
# The 32 bit system calls

Ten calls compute with double words in the memory of a process: the first
operand stands where r1 points to and gets the result, the second one is r2 or
stands where r2 points to. A process is killed for an address it cannot use and
for a division by zero.
-/

set_option autoImplicit false

namespace ArduinoOS.Procman
open ArduinoOS.Faulting ArduinoOS.Kernel

/-- What the machine makes of a shift by 32 or more places, which the language
leaves open. -/
structure LongShifts where
  shl : ℕ → ℕ → ℕ
  shr : ℕ → ℕ → ℕ

/-- The bytes of a double word, the highest one first. -/
def dwordBytes (value : ℕ) : List UInt8 :=
  [UInt8.ofNat (value/16777216), UInt8.ofNat (value/65536), UInt8.ofNat (value/256),
    UInt8.ofNat value]

section Source

variable {φ : Type} (F : Files φ) (process : ProcManProcess)

def procManProcessMemoryWriteDoubleWord (procData : ProcManProcessProcData) (addr : UInt16)
    (value : ℕ) : Run φ Fault (Bool × ProcManProcessProcData) :=
  procManProcessMemoryWriteBlock F process procData addr (dwordBytes value)

/-- The calls with a word for the second operand. -/
def int32With16 (op : ℕ → ℕ → ℕ) (procData : ProcManProcessProcData) :
    Run φ Fault (Bool × ProcManProcessProcData) := do
  let aValue ← procManProcessMemoryReadDoubleWord F process procData (procData.regs 1)
  match aValue with
  | none => pure (false, procData)
  | some aValue =>
      procManProcessMemoryWriteDoubleWord F process procData (procData.regs 1)
        (op aValue (procData.regs 2).toNat)

/-- Both operands, and what is done with them. -/
def int32Operands (procData : ProcManProcessProcData)
    (next : ℕ → ℕ → Run φ Fault (Bool × ProcManProcessProcData)) :
    Run φ Fault (Bool × ProcManProcessProcData) := do
  let aValue ← procManProcessMemoryReadDoubleWord F process procData (procData.regs 1)
  match aValue with
  | none => pure (false, procData)
  | some aValue => do
      let bValue ← procManProcessMemoryReadDoubleWord F process procData (procData.regs 2)
      match bValue with
      | none => pure (false, procData)
      | some bValue => next aValue bValue

/-- The calls with a double word for the second operand. -/
def int32With32 (op : ℕ → ℕ → ℕ) (procData : ProcManProcessProcData) :
    Run φ Fault (Bool × ProcManProcessProcData) :=
  int32Operands F process procData (fun aValue bValue =>
    procManProcessMemoryWriteDoubleWord F process procData (procData.regs 1) (op aValue bValue))

def int32Add16 := int32With16 F process (fun aValue bValue => u32 (aValue+bValue))
def int32Add32 := int32With32 F process (fun aValue bValue => u32 (aValue+bValue))
def int32Sub16 := int32With16 F process (fun aValue bValue => u32 (aValue+4294967296-bValue))
def int32Sub32 := int32With32 F process (fun aValue bValue => u32 (aValue+4294967296-bValue))
def int32Mul16 := int32With16 F process (fun aValue bValue => u32 (aValue*bValue))
def int32Mul32 := int32With32 F process (fun aValue bValue => u32 (aValue*bValue))

def int32Div16 (procData : ProcManProcessProcData) :
    Run φ Fault (Bool × ProcManProcessProcData) := do
  let aValue ← procManProcessMemoryReadDoubleWord F process procData (procData.regs 1)
  match aValue with
  | none => pure (false, procData)
  | some aValue =>
      let bValue := (procData.regs 2).toNat
      if bValue = 0 then pure (false, procData)
      else do
        let quotient := aValue/bValue
        let remainder := u16 (aValue-quotient*bValue)
        let r ← procManProcessMemoryWriteDoubleWord F process procData (procData.regs 1) quotient
        if r.1 then pure (true, r.2.setReg 0 (UInt16.ofNat remainder)) else pure (false, r.2)

def int32Div32 (procData : ProcManProcessProcData) :
    Run φ Fault (Bool × ProcManProcessProcData) :=
  int32Operands F process procData (fun aValue bValue =>
    if bValue = 0 then pure (false, procData)
    else do
      let quotient := aValue/bValue
      let remainder := aValue-quotient*bValue
      let r ← procManProcessMemoryWriteDoubleWord F process procData (procData.regs 1) quotient
      if r.1 then
        procManProcessMemoryWriteDoubleWord F process r.2 (procData.regs 3) remainder
      else pure (false, r.2))

variable (shifts : LongShifts)

def int32Shl := int32With16 F process (fun aValue bValue =>
  if bValue < 32 then u32 (aValue*2^bValue) else u32 (shifts.shl aValue bValue))

def int32Shr := int32With16 F process (fun aValue bValue =>
  if bValue < 32 then aValue/2^bValue else u32 (shifts.shr aValue bValue))

inductive Int32Op
  | add16
  | add32
  | sub16
  | sub32
  | mul16
  | mul32
  | div16
  | div32
  | shl
  | shr
  deriving DecidableEq

/-- The cases of `procManProcessExecSyscall`. -/
def int32Syscall : Int32Op → ProcManProcessProcData → Run φ Fault (Bool × ProcManProcessProcData)
  | .add16 => int32Add16 F process
  | .add32 => int32Add32 F process
  | .sub16 => int32Sub16 F process
  | .sub32 => int32Sub32 F process
  | .mul16 => int32Mul16 F process
  | .mul32 => int32Mul32 F process
  | .div16 => int32Div16 F process
  | .div32 => int32Div32 F process
  | .shl => int32Shl F process shifts
  | .shr => int32Shr F process shifts

end Source

/-! ### Double words and their bytes -/

/-- The double word with these bytes. -/
def dwordOf (bytes : List UInt8) : ℕ := bytes.foldl (fun n c => 256*n+c.toNat) 0

theorem dwordBytes_length (value : ℕ) : (dwordBytes value).length = 4 := rfl

theorem dwordOf_bytes {value : ℕ} (h : value < 4294967296) : dwordOf (dwordBytes value) = value := by
  simp only [dwordOf, dwordBytes, List.foldl_cons, List.foldl_nil, UInt8.toNat_ofNat']
  omega

theorem dwordOf_lt {bytes : List UInt8} (h : bytes.length = 4) : dwordOf bytes < 4294967296 := by
  obtain ⟨b₀, b₁, b₂, b₃, rfl⟩ : ∃ b₀ b₁ b₂ b₃, bytes = [b₀, b₁, b₂, b₃] := by
    match bytes, h with
    | [b₀, b₁, b₂, b₃], _ => exact ⟨b₀, b₁, b₂, b₃, rfl⟩
  have h₀ := b₀.toNat_lt
  have h₁ := b₁.toNat_lt
  have h₂ := b₂.toNat_lt
  have h₃ := b₃.toNat_lt
  simp only [dwordOf, List.foldl_cons, List.foldl_nil]
  omega

/-! ### Reads and stores of double words -/

/-- The place in the RAM file where a double word is stored. -/
def storeOffset (env len : ℕ) (addr : UInt16) : ℕ :=
  if addr.toNat-BytecodeMemoryRamAddr+4 < len ∨ addr.toNat < ProcManEnvVarsVirtualOffset then
    env+(addr.toNat-BytecodeMemoryRamAddr)
  else addr.toNat-ProcManEnvVarsVirtualOffset

/-- The length of the RAM after the store. -/
def storedLen (grants : ℕ → Bool) (env len : ℕ) (addr : UInt16) : ℕ :=
  if addr.toNat < ProcManEnvVarsVirtualOffset then
    lenAfter grants env len (addr.toNat-BytecodeMemoryRamAddr+4)
  else len

/-- A double word can be stored: inside the RAM, at its end where the volume has
room for it, or where the environment variables are seen. -/
def Storable (grants : ℕ → Bool) (largest env len : ℕ) (addr : UInt16) : Prop :=
  BytecodeMemoryRamAddr ≤ addr.toNat ∧
    (addr.toNat-BytecodeMemoryRamAddr+4 < len ∨
      (addr.toNat < ProcManEnvVarsVirtualOffset ∧
        env+(addr.toNat-BytecodeMemoryRamAddr)+4+15 ≤ largest ∧
        grants (env+(addr.toNat-BytecodeMemoryRamAddr)+4) = true) ∨
      (ProcManEnvVarsVirtualOffset ≤ addr.toNat ∧ len ≤ addr.toNat-BytecodeMemoryRamAddr ∧
        addr.toNat-ProcManEnvVarsVirtualOffset < env ∧
        addr.toNat-ProcManEnvVarsVirtualOffset+4 ≤ env+len))

/-- The store of a double word and no other change of the memory but growth. -/
structure Stored (grants : ℕ → Bool) (m m' : MemoryImage) (addr : UInt16) (value : ℕ) : Prop where
  patched : Patched m m' (storeOffset m.env.length m.ram.length addr) (dwordBytes value)
  length : m'.ram.length = storedLen grants m.env.length m.ram.length addr

/-- A read of the address answers this double word. -/
def DwordAt {φ : Type} (F : Files φ) (process : ProcManProcess)
    (procData : ProcManProcessProcData) (s : φ) (addr : UInt16) (value : ℕ) : Prop :=
  ∃ s₁, procManProcessMemoryReadDoubleWord F process procData addr s = .ok (some value, s₁)

section Accesses

variable {φ : Type} {F : Files φ} {Inv : φ → Prop} {view : φ → FsView} {largest : ℕ}
  {grants : ℕ → Bool} {process : ProcManProcess} {procData : ProcManProcessProcData}
  {paths : ProcessPaths} {m m' : MemoryImage} {s : φ}

theorem readDword_run (hl : FilesLaw F Inv view largest) (hr : ReliableReads F Inv view)
    (h : MemoryAt Inv view process paths procData s m) (addr : UInt16) :
    ∃ s₁, procManProcessMemoryReadDoubleWord F process procData addr s =
        .ok ((m.block addr.toNat 4).map dwordOf, s₁) ∧
      MemoryAt Inv view process paths procData s₁ m ∧ view s₁ = view s := by
  obtain ⟨s₁, hrun, hi, hv⟩ := readBlock_run hl hr h.inv h.memory addr 4
  exact ⟨s₁, bind_of_ok hrun, memoryAt_view h hi hv, hv⟩

theorem dwordAt_iff (hl : FilesLaw F Inv view largest) (hr : ReliableReads F Inv view)
    (h : MemoryAt Inv view process paths procData s m) (addr : UInt16) (value : ℕ) :
    DwordAt F process procData s addr value ↔
      (m.block addr.toNat 4).map dwordOf = some value := by
  obtain ⟨s₁, hrun, -⟩ := readDword_run hl hr h addr
  rw [DwordAt, hrun]
  constructor
  · rintro ⟨_, hsame⟩
    exact congrArg Prod.fst (Except.ok.inj hsame)
  · intro hvalue
    exact ⟨s₁, by rw [hvalue]⟩

/-- What is stored can be read. -/
theorem stored_read {addr : UInt16} {value : ℕ}
    (hfits : Storable grants largest m.env.length m.ram.length addr)
    (h : Stored grants m m' addr value) : m'.block addr.toNat 4 = some (dwordBytes value) := by
  have henv := h.patched.env
  have hlen := h.length
  have hbounds := lenAfter_bounds grants m.env.length m.ram.length
    (addr.toNat-BytecodeMemoryRamAddr+4)
  have hbase : BytecodeMemoryRamAddr = 32768 := rfl
  have hwindow : MemoryImage.envIndex = 31744 := rfl
  have hvirtual : ProcManEnvVarsVirtualOffset = 64512 := rfl
  have hpatched := h.patched
  obtain ⟨hin, hinside | ⟨hlow, -, -⟩ | ⟨hhigh, habove, henvLt, -⟩⟩ := hfits
  · rw [storeOffset, if_pos (.inl hinside)] at hpatched
    apply patched_readBack hpatched hin
    rw [MemoryImage.offsetOf_ram, henv]
    rw [hlen, storedLen]
    split <;> omega
  · rw [storeOffset, if_pos (.inr hlow)] at hpatched
    apply patched_readBack hpatched hin
    rw [MemoryImage.offsetOf_ram, henv]
    rw [hlen, storedLen, if_pos hlow]
    omega
  · rw [storeOffset, if_neg (by omega)] at hpatched
    rw [storedLen, if_neg (by omega)] at hlen
    have hplace : addr.toNat-BytecodeMemoryRamAddr-MemoryImage.envIndex =
        addr.toNat-ProcManEnvVarsVirtualOffset := by
      omega
    apply patched_readBack hpatched hin
    rw [MemoryImage.offsetOf_env (by omega) (by omega) (by omega), hplace]

/-- A store inside the file of the RAM, wherever the address leads. -/
theorem writeDword_run (hl : FilesLaw F Inv view largest) (hw : ReliableWrites F Inv view)
    (hg : Growable F Inv view largest paths.ram grants) (hsmall : largest ≤ 32768)
    (h : MemoryAt Inv view process paths procData s m) {addr : UInt16} (value : ℕ)
    (hfits : Storable grants largest m.env.length m.ram.length addr) :
    ∃ procData' s' m', procManProcessMemoryWriteDoubleWord F process procData addr value s =
        .ok ((true, procData'), s') ∧ MemoryAt Inv view process paths procData' s' m' ∧
      Stored grants m m' addr value ∧ procData'.regs = procData.regs := by
  have hram := h.memory.ramLen
  have hfile := m.file_length
  have hlength := dwordBytes_length value
  have hvirtual : ProcManEnvVarsVirtualOffset = 64512 := rfl
  have hbase : BytecodeMemoryRamAddr = 32768 := rfl
  obtain ⟨hin, hplace⟩ := hfits
  by_cases hinside : addr.toNat-BytecodeMemoryRamAddr+4 < m.ram.length
  · obtain ⟨s', m', hrun, hi', hm', ho', -, hpatched, hlen⟩ :=
      ramWrite_inside hl hw h.inv h.memory h.owned hin
        (show addr.toNat-BytecodeMemoryRamAddr+(dwordBytes value).length < m.ram.length by omega)
    refine ⟨procData, s', m', hrun, ⟨hi', hm', ho'⟩, ⟨?_, ?_⟩, rfl⟩
    · rwa [storeOffset, if_pos (.inl hinside)]
    · rw [hlen, storedLen, lenAfter, if_pos hinside, ite_self]
  by_cases hlow : addr.toNat < ProcManEnvVarsVirtualOffset
  · obtain ⟨-, hroom, hgrant⟩ := (hplace.resolve_left hinside).resolve_right (by omega)
    obtain ⟨procData', s', m', hrun, h', -, hpatched, hlen, hregs⟩ :=
      ramWrite_run hl addr (dwordBytes value) hw hg hsmall h hin hlow (by omega)
        (fun _ => hgrant)
    refine ⟨procData', s', m', hrun, h', ⟨?_, ?_⟩, hregs⟩
    · rwa [storeOffset, if_pos (.inr hlow)]
    · rw [storedLen, if_pos hlow]
      exact hlen
  · obtain ⟨-, habove, henv, hend⟩ := (hplace.resolve_left hinside).resolve_left
      (fun hfits => hlow hfits.1)
    obtain ⟨s', m', hwrite, h', -, hpatched, hlen⟩ := ramFile_write hl hw h
      (show addr.toNat-ProcManEnvVarsVirtualOffset+(dwordBytes value).length ≤ m.file.length
        by omega)
    refine ⟨procData, s', m', ?_, h', ⟨?_, ?_⟩, rfl⟩
    · rw [procManProcessMemoryWriteDoubleWord, procManProcessMemoryWriteBlock, if_neg (by omega),
        if_neg (by omega), if_neg (by omega), if_pos (by omega), bind_of_ok hwrite]
      rfl
    · rwa [storeOffset, if_neg (by omega)]
    · rw [hlen, storedLen, if_neg hlow]

end Accesses

end ArduinoOS.Procman
