import ArduinoOS.Procman.Data

/-!
# Instructions

The length of an instruction and its parts, from its bytes.
-/

set_option autoImplicit false

namespace ArduinoOS.Procman

inductive BytecodeInstructionMemoryType
  | load8
  | store8
  | set4
  deriving DecidableEq

inductive BytecodeInstructionAluExtraType
  | not
  | store16
  | load16
  | push16
  | pop16
  | call
  | xchg8
  | clz
  deriving DecidableEq

inductive BytecodeInstructionAluType
  | inc
  | dec
  | add
  | sub
  | mul
  | div
  | xor
  | or
  | and
  | cmp
  | shiftLeft
  | shiftRight
  | skip
  | extra
  | unknown
  deriving DecidableEq

/-- The misc instructions of one byte. The codes of set8 and set16 can also be
written in one byte; the register and the value are then never assigned. -/
inductive BytecodeInstructionMiscType
  | nop
  | syscall
  | clearInstructionCache
  | illegal
  | debug
  | unassigned
  | unknown
  deriving DecidableEq

inductive BytecodeInstructionInfo
  | memory (type : BytecodeInstructionMemoryType) (destReg srcReg : Fin 8) (set4Value : UInt16)
  | alu (type : BytecodeInstructionAluType) (destReg opAReg opBReg : Fin 8)
  | misc (type : BytecodeInstructionMiscType)
  | set8 (destReg : Fin 8) (value : UInt8)
  | set16 (destReg : Fin 8) (value : UInt16)
  deriving DecidableEq

/-- Three bytes; those beyond the length of the instruction are not looked at. -/
structure BytecodeInstruction where
  byte0 : UInt8
  byte1 : UInt8
  byte2 : UInt8
  deriving DecidableEq

/-- The length, from the first byte. -/
def bytecodeInstructionParseLength (byte0 : UInt8) : ℕ :=
  if byte0.toNat < 208 then 1 else if byte0.toNat/8 ≠ 27 then 2 else 3

def bytecodeMemoryType (bits : ℕ) : BytecodeInstructionMemoryType :=
  if bits = 0 then .load8 else if bits = 1 then .store8 else .set4

def bytecodeAluType (bits : ℕ) : BytecodeInstructionAluType :=
  [.inc, .dec, .add, .sub, .mul, .div, .xor, .or, .and, .cmp, .shiftLeft, .shiftRight, .skip,
    .extra].getD bits .unknown

def bytecodeAluExtraType (opBReg : Fin 8) : BytecodeInstructionAluExtraType :=
  [.not, .store16, .load16, .push16, .pop16, .call, .xchg8, .clz].getD opBReg.val .not

def bytecodeMiscType (bits : ℕ) : BytecodeInstructionMiscType :=
  [.nop, .syscall, .clearInstructionCache, .illegal, .debug, .unassigned,
    .unassigned].getD bits .unknown

/-- The register in the three bits at this place. -/
def regAt (bits shift : ℕ) : Fin 8 := ⟨bits/2^shift%8, Nat.mod_lt _ (by decide)⟩

def bytecodeInstructionParse (instruction : BytecodeInstruction) : BytecodeInstructionInfo :=
  let byte := instruction.byte0.toNat
  let upper16 := 256*byte+instruction.byte1.toNat
  if byte/64 ≠ 3 then
    match bytecodeMemoryType (byte/64) with
    | .set4 => .memory .set4 (regAt (byte/16%4) 0) 0 (UInt16.ofNat (byte%16))
    | type => .memory type (regAt byte 3) (regAt byte 0) 0
  else if byte/32%2 = 1 then
    .alu (bytecodeAluType (upper16/512%16)) (regAt upper16 6) (regAt upper16 3)
      (regAt upper16 0)
  else if byte/16%2 = 1 then
    if byte/8%2 = 1 then
      .set16 (regAt byte 0)
        (UInt16.ofNat (256*instruction.byte1.toNat+instruction.byte2.toNat))
    else .set8 (regAt byte 0) instruction.byte1
  else .misc (bytecodeMiscType (byte%16))

/-- `incDecValue`: the operands' six bits, from 1 on. -/
def incDecValue (opAReg opBReg : Fin 8) : UInt16 := UInt16.ofNat (8*opAReg.val+opBReg.val+1)

/-- The bits of a comparison. -/
def cmpBits (opA opB : UInt16) : UInt16 :=
  UInt16.ofNat ((decide (opA = opB)).toNat+2*(decide (opA = 0)).toNat+
    4*(decide (opA ≠ opB)).toNat+8*(decide (opA ≠ 0)).toNat+16*(decide (opA < opB)).toNat+
    32*(decide (opA ≤ opB)).toNat+64*(decide (opB < opA)).toNat+128*(decide (opB ≤ opA)).toNat)

/-- The number of leading zeros. -/
def clz16 (x : UInt16) : UInt16 :=
  if x = 0 then 16 else UInt16.ofNat (15-Nat.log2 x.toNat)

end ArduinoOS.Procman
