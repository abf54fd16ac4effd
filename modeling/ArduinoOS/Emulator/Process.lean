import ArduinoOS.Procman.Bytecode

/-!
# The emulator

The emulator keeps the whole memory of its process in one array and counts
down the instructions that are to be skipped. System calls are a parameter.
Reading or writing beyond the array is not defined, nor is an instruction whose
register was never assigned: there is no next state then.
-/

set_option autoImplicit false

namespace ArduinoOS.Emulator
open ArduinoOS.Procman

def BytecodeMemoryProgmemSize : ℕ := 32768
def BytecodeMemoryTotalSize : ℕ := 65536

structure Process where
  regs : Fin 8 → UInt16
  memory : ℕ → UInt8
  skipCounter : ℕ
  instructionCount : ℕ

namespace Process

def setReg (p : Process) (r : Fin 8) (v : UInt16) : Process :=
  { p with regs := Function.update p.regs r v }

def setMemory (p : Process) (i : ℕ) (v : UInt8) : Process :=
  { p with memory := Function.update p.memory i v }

@[simp] theorem setReg_regs (p : Process) (r i : Fin 8) (v : UInt16) :
    (p.setReg r v).regs i = if i = r then v else p.regs i := by
  simp [setReg, Function.update_apply]

@[simp] theorem setReg_memory (p : Process) (r : Fin 8) (v : UInt16) :
    (p.setReg r v).memory = p.memory := rfl

@[simp] theorem setReg_skipCounter (p : Process) (r : Fin 8) (v : UInt16) :
    (p.setReg r v).skipCounter = p.skipCounter := rfl

@[simp] theorem setReg_setReg (p : Process) (r : Fin 8) (v w : UInt16) :
    (p.setReg r v).setReg r w = p.setReg r w := by
  simp [setReg]

theorem setReg_comm (p : Process) {r r' : Fin 8} (h : r ≠ r') (v w : UInt16) :
    (p.setReg r v).setReg r' w = (p.setReg r' w).setReg r v := by
  simp [setReg, Function.update_comm h]

@[simp] theorem setMemory_regs (p : Process) (i : ℕ) (v : UInt8) :
    (p.setMemory i v).regs = p.regs := rfl

@[simp] theorem setMemory_memory (p : Process) (i j : ℕ) (v : UInt8) :
    (p.setMemory i v).memory j = if j = i then v else p.memory j := by
  simp [setMemory, Function.update_apply]

@[simp] theorem setMemory_skipCounter (p : Process) (i : ℕ) (v : UInt8) :
    (p.setMemory i v).skipCounter = p.skipCounter := rfl

def countDown (p : Process) : Process := { p with skipCounter := p.skipCounter-1 }

@[simp] theorem countDown_regs (p : Process) : p.countDown.regs = p.regs := rfl

@[simp] theorem countDown_memory (p : Process) : p.countDown.memory = p.memory := rfl

def countUp (p : Process) : Process := { p with instructionCount := u32 (p.instructionCount+1) }

@[simp] theorem countUp_regs (p : Process) : p.countUp.regs = p.regs := rfl

@[simp] theorem countUp_memory (p : Process) : p.countUp.memory = p.memory := rfl

@[simp] theorem countUp_skipCounter (p : Process) : p.countUp.skipCounter = p.skipCounter := rfl

/-- An element of the array, which an index beyond it does not have. -/
def load (p : Process) (i : ℕ) : Option UInt8 :=
  if i < BytecodeMemoryTotalSize then some (p.memory i) else none

def store (p : Process) (i : ℕ) (v : UInt8) : Option Process :=
  if i < BytecodeMemoryTotalSize then some (p.setMemory i v) else none

end Process

/-- The table of the leading zeros of a byte. -/
def emulatorClz8 (x : ℕ) : ℕ :=
  ([8, 7]++List.replicate 2 6++List.replicate 4 5++List.replicate 8 4++List.replicate 16 3++
    List.replicate 32 2++List.replicate 64 1++List.replicate 128 0).getD x 0

def emulatorClz16 (x : UInt16) : UInt16 :=
  if x.toNat/256 ≠ 0 then UInt16.ofNat (emulatorClz8 (x.toNat/256))
  else UInt16.ofNat (emulatorClz8 (x.toNat%256)+8)

def upperByte (v : UInt16) : UInt8 := UInt8.ofNat (v.toNat/256)
def lowerByte (v : UInt16) : UInt8 := UInt8.ofNat (v.toNat%256)

section Exec

variable (p : Process)

/-- The bytes at the instruction pointer, one by one. -/
def processFetch : BytecodeInstruction × Process :=
  let byte (p : Process) := p.memory (p.regs BytecodeRegisterIP).toNat
  let next (p : Process) := p.setReg BytecodeRegisterIP (p.regs BytecodeRegisterIP+1)
  let p₁ := next p
  if bytecodeInstructionParseLength (byte p) = 1 then (⟨byte p, 0, 0⟩, p₁)
  else if bytecodeInstructionParseLength (byte p) = 2 then (⟨byte p, byte p₁, 0⟩, next p₁)
  else (⟨byte p, byte p₁, byte (next p₁)⟩, next (next p₁))

def processExecMemory (type : BytecodeInstructionMemoryType) (destReg srcReg : Fin 8)
    (set4Value : UInt16) : Option (Bool × Process) :=
  match type with
  | .store8 => do
      let p' ← p.store (p.regs destReg).toNat (p.regs srcReg).toUInt8
      return (!decide ((p'.regs destReg).toNat < BytecodeMemoryProgmemSize), p')
  | .load8 => do
      let value ← p.load (p.regs srcReg).toNat
      return (true, p.setReg destReg value.toUInt16)
  | .set4 => some (true, p.setReg destReg set4Value)

/-- A byte through a register, which then moves on. -/
def storeNext (r : Fin 8) (v : UInt8) : Option Process := do
  let p' ← p.store (p.regs r).toNat v
  return p'.setReg r (p'.regs r+1)

def processExecAluExtra (destReg opAReg opBReg : Fin 8) : Option (Bool × Process) :=
  let opA := p.regs opAReg
  match bytecodeAluExtraType opBReg with
  | .not => some (true, p.setReg destReg (~~~opA))
  | .store16 => do
      let p₁ ← p.store (p.regs destReg).toNat (upperByte (p.regs opAReg))
      let p₂ ← p₁.store ((p₁.regs destReg).toNat+1) (lowerByte (p₁.regs opAReg))
      return (!decide ((p₂.regs destReg).toNat < BytecodeMemoryProgmemSize), p₂)
  | .load16 => do
      let upper ← p.load (p.regs opAReg).toNat
      let lower ← p.load ((p.regs opAReg).toNat+1)
      return (true, p.setReg destReg ((upper.toUInt16 <<< 8) ||| lower.toUInt16))
  | .push16 => do
      let p₁ ← storeNext p destReg (upperByte opA)
      let p₂ ← storeNext p₁ destReg (lowerByte opA)
      return (true, p₂)
  | .pop16 => do
      let p₁ := p.setReg opAReg (p.regs opAReg-1)
      let lower ← p₁.load (p₁.regs opAReg).toNat
      let p₂ := p₁.setReg destReg lower.toUInt16
      let p₃ := p₂.setReg opAReg (p₂.regs opAReg-1)
      let upper ← p₃.load (p₃.regs opAReg).toNat
      return (true, p₃.setReg destReg (p₃.regs destReg ||| (upper.toUInt16 <<< 8)))
  | .call => do
      let preIPReg := p.regs BytecodeRegisterIP
      let p₁ ← storeNext p opAReg (upperByte preIPReg)
      let p₂ ← storeNext p₁ opAReg (lowerByte preIPReg)
      return (true, p₂.setReg BytecodeRegisterIP (p₂.regs destReg))
  | .xchg8 => do
      let memValue ← p.load (p.regs destReg).toNat
      let p₁ ← p.store (p.regs destReg).toNat (lowerByte (p.regs opAReg))
      return (true, p₁.setReg opAReg memValue.toUInt16)
  | .clz => some (true, p.setReg destReg (emulatorClz16 opA))

/-- An unknown type does nothing. -/
def processExecAlu (type : BytecodeInstructionAluType) (destReg opAReg opBReg : Fin 8) :
    Option (Bool × Process) :=
  let opA := p.regs opAReg
  let opB := p.regs opBReg
  let dest := p.regs destReg
  match type with
  | .inc => some (true, p.setReg destReg (dest+incDecValue opAReg opBReg))
  | .dec => some (true, p.setReg destReg (dest-incDecValue opAReg opBReg))
  | .add => some (true, p.setReg destReg (opA+opB))
  | .sub => some (true, p.setReg destReg (opA-opB))
  | .mul => some (true, p.setReg destReg (opA*opB))
  | .div => if opB = 0 then some (false, p) else some (true, p.setReg destReg (opA/opB))
  | .xor => some (true, p.setReg destReg (opA ^^^ opB))
  | .or => some (true, p.setReg destReg (opA ||| opB))
  | .and => some (true, p.setReg destReg (opA &&& opB))
  | .cmp => some (true, p.setReg destReg (cmpBits opA opB))
  | .shiftLeft => some (true, p.setReg destReg (if opB < 16 then opA <<< opB else 0))
  | .shiftRight => some (true, p.setReg destReg (if opB < 16 then opA >>> opB else 0))
  | .skip => some (true,
      { p with skipCounter := if dest.toNat/2^opAReg.val%2 = 1 then opBReg.val+1 else 0 })
  | .extra => processExecAluExtra p destReg opAReg opBReg
  | .unknown => some (true, p)

/-- The cache is not there, so there is nothing to clear. -/
def processExecMisc (sys : Process → Bool × Process) (type : BytecodeInstructionMiscType) :
    Option (Bool × Process) :=
  match type with
  | .nop | .clearInstructionCache | .debug | .unknown => some (true, p)
  | .syscall => some (sys p)
  | .illegal => some (false, p)
  | .unassigned => none

def processExec (sys : Process → Bool × Process) (info : BytecodeInstructionInfo) :
    Option (Bool × Process) :=
  match info with
  | .memory type destReg srcReg set4Value => processExecMemory p type destReg srcReg set4Value
  | .alu type destReg opAReg opBReg => processExecAlu p type destReg opAReg opBReg
  | .misc type => processExecMisc p sys type
  | .set8 destReg value => some (true, p.setReg destReg value.toUInt16)
  | .set16 destReg value => some (true, p.setReg destReg value)

def processRunNextInstruction (sys : Process → Bool × Process) : Option (Bool × Process) :=
  let fetched := processFetch p
  if fetched.2.skipCounter > 0 then
    some (true, fetched.2.countDown)
  else do
    let r ← processExec fetched.2 sys (bytecodeInstructionParse fetched.1)
    if r.1 then return (true, r.2.countUp)
    return r

/-- The instructions that are skipped. -/
def processRunDown (sys : Process → Bool × Process) : ℕ → Process → Option (Bool × Process)
  | 0, p => some (true, p)
  | n+1, p => do
    let r ← processRunNextInstruction p sys
    if r.1 then processRunDown sys n r.2 else return r

/-- An instruction, and those that it skips. -/
def processStep (sys : Process → Bool × Process) : Option (Bool × Process) := do
  let r ← processRunNextInstruction p sys
  if r.1 then processRunDown sys r.2.skipCounter r.2 else return r

end Exec

/-! ### The same arithmetic -/

theorem emulatorClz8_eq : ∀ x < 256, emulatorClz8 x = if x = 0 then 8 else 7-Nat.log2 x := by
  decide +kernel

theorem emulatorClz16_eq (x : UInt16) : emulatorClz16 x = clz16 x := by
  have hx := x.toNat_lt
  by_cases hzero : x = 0
  · rw [hzero]
    decide
  · have hne : x.toNat ≠ 0 := fun h => hzero (UInt16.toNat_inj.mp h)
    rw [emulatorClz16, clz16, if_neg hzero]
    by_cases hupper : x.toNat/256 = 0
    · have hlow : x.toNat%256 = x.toNat := by omega
      have hlog : Nat.log2 x.toNat < 8 := (Nat.log2_lt hne).mpr (by omega)
      rw [if_neg (by omega), hlow, emulatorClz8_eq _ (by omega), if_neg hne]
      congr 1
      omega
    · have hlow : 2^Nat.log2 (x.toNat/256) ≤ x.toNat/256 := Nat.log2_self_le hupper
      have hhigh : x.toNat/256 < 2^(Nat.log2 (x.toNat/256)+1) := Nat.lt_log2_self
      have hlog : Nat.log2 x.toNat = 8+Nat.log2 (x.toNat/256) := by
        rw [Nat.log2_eq_iff hne, Nat.add_assoc, Nat.pow_add, Nat.pow_add 2 8]
        omega
      have hlog' : Nat.log2 (x.toNat/256) < 8 := (Nat.log2_lt hupper).mpr (by omega)
      rw [if_pos hupper, emulatorClz8_eq _ (by omega), if_neg hupper, hlog]
      congr 1
      omega

theorem lowerByte_eq (v : UInt16) : lowerByte v = v.toUInt8 := by
  apply UInt8.toNat_inj.mp
  rw [lowerByte, UInt8.toNat_ofNat', UInt16.toNat_toUInt8, Nat.mod_mod]

/-- Two bytes of a word, put together by shifting and by adding. -/
theorem word_or (upper lower : UInt8) :
    (upper.toUInt16 <<< 8) ||| lower.toUInt16 = UInt16.ofNat (256*upper.toNat+lower.toNat) := by
  have hu := upper.toNat_lt
  have hl := lower.toNat_lt
  have hshift : upper.toNat <<< 8 = 256*upper.toNat := by
    rw [Nat.shiftLeft_eq, Nat.mul_comm]
  have hor : upper.toNat <<< 8 ||| lower.toNat = 256*upper.toNat+lower.toNat := by
    rw [← hshift]
    exact (Nat.shiftLeft_add_eq_or_of_lt hl _).symm
  apply UInt16.toNat_inj.mp
  rw [UInt16.toNat_or, UInt16.toNat_shiftLeft, UInt16.toNat_ofNat']
  have hsmall : upper.toNat <<< 8 % 65536 = upper.toNat <<< 8 := Nat.mod_eq_of_lt (by omega)
  change upper.toNat <<< 8 % 65536 ||| lower.toNat = _
  rw [hsmall, hor]
  omega

/-- The lower byte is not changed by an upper one. -/
theorem low_or (v : UInt16) (upper : UInt8) :
    (v ||| (upper.toUInt16 <<< 8)).toNat%256 = v.toNat%256 := by
  have hupper := upper.toNat_lt
  have hshift : (upper.toUInt16 <<< 8).toNat = 256*upper.toNat := by
    rw [UInt16.toNat_shiftLeft]
    change upper.toNat <<< 8 % 65536 = _
    rw [Nat.shiftLeft_eq]
    omega
  have hmod := Nat.or_mod_two_pow (a := v.toNat) (b := 256*upper.toNat) (n := 8)
  rw [UInt16.toNat_or, hshift]
  rw [show 256*upper.toNat%2^8 = 0 by omega, Nat.or_zero] at hmod
  exact hmod

end ArduinoOS.Emulator
