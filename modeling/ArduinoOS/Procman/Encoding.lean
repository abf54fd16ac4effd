import ArduinoOS.Procman.Bytecode

/-!
# The encoding of instructions

The functions that build instructions, and the parts of an instruction that are
assigned when its bytes are parsed. A sequence of built instructions is
recovered from its bytes. What is read of a parsed instruction has been
assigned, except for the one byte codes of set8 and set16.
-/

set_option autoImplicit false

namespace ArduinoOS.Procman

/-! ### The parts that are assigned -/

inductive BytecodeInstructionType
  | memory
  | alu
  | misc
  deriving DecidableEq

structure BytecodeInstructionMemoryInfo where
  type : Option ℕ
  destReg : Option ℕ
  srcReg : Option ℕ
  set4Value : Option ℕ
  deriving DecidableEq

structure BytecodeInstructionAluInfo where
  type : Option ℕ
  destReg : Option ℕ
  opAReg : Option ℕ
  opBReg : Option ℕ
  incDecValue : Option ℕ
  deriving DecidableEq

/-- `BytecodeInstructionMiscSet8Info` and `BytecodeInstructionMiscSet16Info`. -/
structure BytecodeInstructionMiscSetInfo where
  destReg : Option ℕ
  value : Option ℕ
  deriving DecidableEq

structure BytecodeInstructionMiscInfo where
  type : Option ℕ
  set8 : BytecodeInstructionMiscSetInfo
  set16 : BytecodeInstructionMiscSetInfo
  deriving DecidableEq

/-- The parts of an instruction; those that were never assigned are `none`. -/
structure AssignedInfo where
  type : BytecodeInstructionType
  memory : BytecodeInstructionMemoryInfo
  alu : BytecodeInstructionAluInfo
  misc : BytecodeInstructionMiscInfo
  deriving DecidableEq

namespace AssignedInfo

def noMemory : BytecodeInstructionMemoryInfo := ⟨none, none, none, none⟩
def noAlu : BytecodeInstructionAluInfo := ⟨none, none, none, none, none⟩
def noSet : BytecodeInstructionMiscSetInfo := ⟨none, none⟩
def noMisc : BytecodeInstructionMiscInfo := ⟨none, noSet, noSet⟩

def ofMemory (info : BytecodeInstructionMemoryInfo) : AssignedInfo := ⟨.memory, info, noAlu, noMisc⟩
def ofAlu (info : BytecodeInstructionAluInfo) : AssignedInfo := ⟨.alu, noMemory, info, noMisc⟩
def ofMisc (info : BytecodeInstructionMiscInfo) : AssignedInfo := ⟨.misc, noMemory, noAlu, info⟩

end AssignedInfo

open AssignedInfo

/-- What `bytecodeInstructionParse` assigns. -/
def bytecodeInstructionAssign (instruction : BytecodeInstruction) : AssignedInfo :=
  let byte := instruction.byte0.toNat
  let upper16 := 256*byte+instruction.byte1.toNat
  if byte/64 ≠ 3 then
    if byte/64 = 2 then ofMemory ⟨some 2, some (byte/16%4), none, some (byte%16)⟩
    else ofMemory ⟨some (byte/64), some (byte/8%8), some (byte%8), none⟩
  else if byte/32%2 = 1 then
    ofAlu ⟨some (upper16/512%16), some (upper16/64%8), some (upper16/8%8), some (upper16%8),
      some (upper16%64+1)⟩
  else if byte/16%2 = 1 then
    if byte/8%2 = 1 then
      ofMisc ⟨some 6, noSet,
        ⟨some (byte%8), some (256*instruction.byte1.toNat+instruction.byte2.toNat)⟩⟩
    else ofMisc ⟨some 5, ⟨some (byte%8), some instruction.byte1.toNat⟩, noSet⟩
  else ofMisc ⟨some (byte%16), noSet, noSet⟩

/-- What the interpreter reads of an instruction, in the order of its cases. -/
def partsRead (info : AssignedInfo) : List (Option ℕ) :=
  match info.type with
  | .memory =>
      info.memory.type::
        (if info.memory.type = some 1 then [info.memory.destReg, info.memory.srcReg]
        else if info.memory.type = some 0 then [info.memory.srcReg, info.memory.destReg]
        else if info.memory.type = some 2 then [info.memory.destReg, info.memory.set4Value]
        else [])
  | .alu =>
      -- the operands are read before the type
      info.alu.opAReg::info.alu.opBReg::info.alu.type::
        (if info.alu.type = some 0 ∨ info.alu.type = some 1 then
          [info.alu.destReg, info.alu.incDecValue]
        else if info.alu.type = some 14 ∨ info.alu.type = some 15 then []
        else [info.alu.destReg])
  | .misc =>
      info.misc.type::
        (if info.misc.type = some 5 then [info.misc.set8.destReg, info.misc.set8.value]
        else if info.misc.type = some 6 then [info.misc.set16.destReg, info.misc.set16.value]
        else [])

/-- The instruction that the interpreter sees. -/
def AssignedInfo.seen (info : AssignedInfo) : BytecodeInstructionInfo :=
  let reg := fun (r : Option ℕ) => Fin.ofNat 8 (r.getD 0)
  match info.type with
  | .memory => .memory (bytecodeMemoryType (info.memory.type.getD 0)) (reg info.memory.destReg)
      (reg info.memory.srcReg) (UInt16.ofNat (info.memory.set4Value.getD 0))
  | .alu => .alu (bytecodeAluType (info.alu.type.getD 0)) (reg info.alu.destReg)
      (reg info.alu.opAReg) (reg info.alu.opBReg)
  | .misc =>
      match info.misc.set16.destReg, info.misc.set8.destReg with
      | some destReg, _ =>
          .set16 (reg (some destReg)) (UInt16.ofNat (info.misc.set16.value.getD 0))
      | none, some destReg =>
          .set8 (reg (some destReg)) (UInt8.ofNat (info.misc.set8.value.getD 0))
      | none, none => .misc (bytecodeMiscType (info.misc.type.getD 0))

theorem ofNat_regAt (bits shift : ℕ) : Fin.ofNat 8 (bits/2^shift%8) = regAt bits shift :=
  Fin.ext (Nat.mod_mod _ 8)

theorem ofNat_regAt_zero (bits : ℕ) : Fin.ofNat 8 (bits%8) = regAt bits 0 := by
  rw [← ofNat_regAt, Nat.pow_zero, Nat.div_one]

/-- The parts that are assigned are those of the parsed instruction. -/
theorem assign_seen (instruction : BytecodeInstruction) :
    (bytecodeInstructionAssign instruction).seen = bytecodeInstructionParse instruction := by
  obtain ⟨b0, b1, b2⟩ := instruction
  have hb0 := b0.toNat_lt
  have h3 : ∀ bits : ℕ, Fin.ofNat 8 (bits/8%8) = regAt bits 3 := fun bits => ofNat_regAt bits 3
  have h6 : ∀ bits : ℕ, Fin.ofNat 8 (bits/64%8) = regAt bits 6 := fun bits => ofNat_regAt bits 6
  rw [bytecodeInstructionAssign, bytecodeInstructionParse]
  dsimp only
  split
  case isTrue hmemory =>
    by_cases hset : b0.toNat/64 = 2
    · have htype : bytecodeMemoryType (b0.toNat/64) = .set4 := by rw [hset]; rfl
      have hreg : regAt (b0.toNat/16%4) 0 = Fin.ofNat 8 (b0.toNat/16%4) := by
        rw [← ofNat_regAt_zero]
        congr 1
        omega
      rw [if_pos hset, htype, hreg]
      rfl
    · have hcases : b0.toNat/64 = 0 ∨ b0.toNat/64 = 1 := by omega
      rw [if_neg hset, ← h3, ← ofNat_regAt_zero b0.toNat]
      rcases hcases with h | h <;> rw [h] <;> rfl
  case isFalse =>
    split
    case isTrue =>
      rw [← h6, ← h3, ← ofNat_regAt_zero]
      rfl
    case isFalse =>
      split
      case isTrue =>
        rw [← ofNat_regAt_zero]
        split
        case isTrue => rfl
        case isFalse =>
          change BytecodeInstructionInfo.set8 _ (UInt8.ofNat b1.toNat) = _
          rw [UInt8.ofNat_toNat]
          rfl
      case isFalse => rfl

/-! ### Building -/

def BytecodeInstructionAluType.code : BytecodeInstructionAluType → ℕ
  | .inc => 0
  | .dec => 1
  | .add => 2
  | .sub => 3
  | .mul => 4
  | .div => 5
  | .xor => 6
  | .or => 7
  | .and => 8
  | .cmp => 9
  | .shiftLeft => 10
  | .shiftRight => 11
  | .skip => 12
  | .extra => 13
  | .unknown => 14

def BytecodeInstructionMemoryType.code : BytecodeInstructionMemoryType → ℕ
  | .load8 => 0
  | .store8 => 1
  | .set4 => 2

def bytecodeInstructionCreateMemory (type : BytecodeInstructionMemoryType)
    (destReg srcReg : Fin 8) : List UInt8 :=
  [UInt8.ofNat (64*type.code+8*destReg.val+srcReg.val)]

def bytecodeInstructionCreateMemorySet4 (destReg : Fin 4) (value : Fin 16) : List UInt8 :=
  [UInt8.ofNat (64*2+16*destReg.val+value.val)]

/-- Two bytes, the upper one first. -/
def bytecodeInstructionCreateAlu (type : BytecodeInstructionAluType)
    (destReg opAReg opBReg : Fin 8) : List UInt8 :=
  [UInt8.ofNat (224+2*type.code+destReg.val/4),
    UInt8.ofNat (64*(destReg.val%4)+8*opAReg.val+opBReg.val)]

/-- The value is from 1 to 64. -/
def bytecodeInstructionCreateAluIncDecValue (type : BytecodeInstructionAluType) (destReg : Fin 8)
    (incDecValue : ℕ) : List UInt8 :=
  bytecodeInstructionCreateAlu type destReg (Fin.ofNat 8 ((incDecValue-1)/8))
    (Fin.ofNat 8 ((incDecValue-1)%8))

def bytecodeInstructionCreateMiscNop : List UInt8 := [0xC0]
def bytecodeInstructionCreateMiscSyscall : List UInt8 := [0xC1]
def bytecodeInstructionCreateMiscClearInstructionCache : List UInt8 := [0xC2]
def bytecodeInstructionCreateMiscIllegal : List UInt8 := [0xC3]
def bytecodeInstructionCreateMiscDebug : List UInt8 := [0xC4]

def bytecodeInstructionCreateMiscSet8 (destReg : Fin 8) (value : UInt8) : List UInt8 :=
  [UInt8.ofNat (208+destReg.val), value]

def bytecodeInstructionCreateMiscSet16 (destReg : Fin 8) (value : UInt16) : List UInt8 :=
  [UInt8.ofNat (216+destReg.val), UInt8.ofNat (value.toNat/256), UInt8.ofNat (value.toNat%256)]

/-- The shortest way to set a register. -/
def bytecodeInstructionCreateSet (destReg : Fin 8) (value : UInt16) : List UInt8 :=
  if value.toNat < 16 ∧ destReg.val < 4 then
    bytecodeInstructionCreateMemorySet4 (Fin.ofNat 4 destReg.val) (Fin.ofNat 16 value.toNat)
  else if value.toNat < 256 then
    bytecodeInstructionCreateMiscSet8 destReg (UInt8.ofNat value.toNat)
  else bytecodeInstructionCreateMiscSet16 destReg value

/-- A call of one of the functions, with arguments in range. -/
inductive Built
  | memory (type : BytecodeInstructionMemoryType) (destReg srcReg : Fin 8) (isAccess : type ≠ .set4)
  | memorySet4 (destReg : Fin 4) (value : Fin 16)
  | alu (type : BytecodeInstructionAluType) (destReg opAReg opBReg : Fin 8)
      (known : type ≠ .unknown)
  | aluIncDecValue (type : BytecodeInstructionAluType) (destReg : Fin 8) (incDecValue : ℕ)
      (isIncDec : type = .inc ∨ type = .dec) (inRange : 0 < incDecValue ∧ incDecValue ≤ 64)
  | miscNop
  | miscSyscall
  | miscClearInstructionCache
  | miscIllegal
  | miscDebug
  | miscSet8 (destReg : Fin 8) (value : UInt8)
  | miscSet16 (destReg : Fin 8) (value : UInt16)
  | set (destReg : Fin 8) (value : UInt16)

def Built.bytes : Built → List UInt8
  | .memory type destReg srcReg _ => bytecodeInstructionCreateMemory type destReg srcReg
  | .memorySet4 destReg value => bytecodeInstructionCreateMemorySet4 destReg value
  | .alu type destReg opAReg opBReg _ => bytecodeInstructionCreateAlu type destReg opAReg opBReg
  | .aluIncDecValue type destReg incDecValue _ _ =>
      bytecodeInstructionCreateAluIncDecValue type destReg incDecValue
  | .miscNop => bytecodeInstructionCreateMiscNop
  | .miscSyscall => bytecodeInstructionCreateMiscSyscall
  | .miscClearInstructionCache => bytecodeInstructionCreateMiscClearInstructionCache
  | .miscIllegal => bytecodeInstructionCreateMiscIllegal
  | .miscDebug => bytecodeInstructionCreateMiscDebug
  | .miscSet8 destReg value => bytecodeInstructionCreateMiscSet8 destReg value
  | .miscSet16 destReg value => bytecodeInstructionCreateMiscSet16 destReg value
  | .set destReg value => bytecodeInstructionCreateSet destReg value

/-- The info has the kind, the registers and the immediate value of the call. -/
def Built.Describes (info : AssignedInfo) : Built → Prop
  | .memory type destReg srcReg _ =>
      info = ofMemory ⟨some type.code, some destReg.val, some srcReg.val, none⟩
  | .memorySet4 destReg value => info = ofMemory ⟨some 2, some destReg.val, none, some value.val⟩
  | .alu type destReg opAReg opBReg _ =>
      info = ofAlu ⟨some type.code, some destReg.val, some opAReg.val, some opBReg.val,
        some (8*opAReg.val+opBReg.val+1)⟩
  | .aluIncDecValue type destReg incDecValue _ _ =>
      ∃ opAReg opBReg, info = ofAlu ⟨some type.code, some destReg.val, opAReg, opBReg,
        some incDecValue⟩
  | .miscNop => info = ofMisc ⟨some 0, noSet, noSet⟩
  | .miscSyscall => info = ofMisc ⟨some 1, noSet, noSet⟩
  | .miscClearInstructionCache => info = ofMisc ⟨some 2, noSet, noSet⟩
  | .miscIllegal => info = ofMisc ⟨some 3, noSet, noSet⟩
  | .miscDebug => info = ofMisc ⟨some 4, noSet, noSet⟩
  | .miscSet8 destReg value =>
      info = ofMisc ⟨some 5, ⟨some destReg.val, some value.toNat⟩, noSet⟩
  | .miscSet16 destReg value =>
      info = ofMisc ⟨some 6, noSet, ⟨some destReg.val, some value.toNat⟩⟩
  | .set destReg value =>
      info = ofMemory ⟨some 2, some destReg.val, none, some value.toNat⟩ ∨
      info = ofMisc ⟨some 5, ⟨some destReg.val, some value.toNat⟩, noSet⟩ ∨
      info = ofMisc ⟨some 6, noSet, ⟨some destReg.val, some value.toNat⟩⟩

/-! ### Walking over the bytes -/

/-- The instruction at the start of the bytes. -/
def instructionAt (bytes : List UInt8) : BytecodeInstruction :=
  ⟨bytes.getD 0 0, bytes.getD 1 0, bytes.getD 2 0⟩

/-- The instructions of the bytes, if they end with the last one. -/
def bytecodeWalk (bytes : List UInt8) : Option (List AssignedInfo) :=
  match bytes with
  | [] => some []
  | byte0::rest =>
      let length := bytecodeInstructionParseLength byte0
      if (byte0::rest).length < length then none
      else (bytecodeWalk (rest.drop (length-1))).map
        (fun infos => bytecodeInstructionAssign (instructionAt (byte0::rest))::infos)
termination_by bytes.length
decreasing_by
  rw [List.length_drop, List.length_cons]
  omega

/-! ### What the bytes of the built instructions say -/

section Assigned

variable {i : BytecodeInstruction}

theorem assign_memory {type destReg srcReg : ℕ} (htype : type < 2) (hdest : destReg < 8)
    (hsrc : srcReg < 8) (h : i.byte0.toNat = 64*type+8*destReg+srcReg) :
    bytecodeInstructionAssign i = ofMemory ⟨some type, some destReg, some srcReg, none⟩ := by
  have h0 : i.byte0.toNat/64 = type := by omega
  have h1 : i.byte0.toNat/8%8 = destReg := by omega
  have h2 : i.byte0.toNat%8 = srcReg := by omega
  rw [bytecodeInstructionAssign]
  rw [if_pos (by omega), if_neg (by omega), h0, h1, h2]

theorem assign_set4 {destReg value : ℕ} (hdest : destReg < 4) (hvalue : value < 16)
    (h : i.byte0.toNat = 64*2+16*destReg+value) :
    bytecodeInstructionAssign i = ofMemory ⟨some 2, some destReg, none, some value⟩ := by
  have h1 : i.byte0.toNat/16%4 = destReg := by omega
  have h2 : i.byte0.toNat%16 = value := by omega
  rw [bytecodeInstructionAssign]
  rw [if_pos (by omega), if_pos (by omega), h1, h2]

theorem assign_alu {type destReg opAReg opBReg : ℕ} (htype : type < 16) (hdest : destReg < 8)
    (hA : opAReg < 8) (hB : opBReg < 8) (h0 : i.byte0.toNat = 224+2*type+destReg/4)
    (h1 : i.byte1.toNat = 64*(destReg%4)+8*opAReg+opBReg) :
    bytecodeInstructionAssign i = ofAlu ⟨some type, some destReg, some opAReg, some opBReg,
      some (8*opAReg+opBReg+1)⟩ := by
  have hupper : 256*i.byte0.toNat+i.byte1.toNat =
      57344+512*type+64*destReg+8*opAReg+opBReg := by omega
  rw [bytecodeInstructionAssign]
  rw [hupper, if_neg (by omega), if_pos (by omega)]
  congr 3 <;> omega

theorem assign_misc {type : ℕ} (htype : type < 16) (h : i.byte0.toNat = 192+type) :
    bytecodeInstructionAssign i = ofMisc ⟨some type, noSet, noSet⟩ := by
  have h1 : i.byte0.toNat%16 = type := by omega
  rw [bytecodeInstructionAssign]
  rw [if_neg (by omega), if_neg (by omega), if_neg (by omega), h1]

theorem assign_set8 {destReg : ℕ} (hdest : destReg < 8) (h : i.byte0.toNat = 208+destReg) :
    bytecodeInstructionAssign i =
      ofMisc ⟨some 5, ⟨some destReg, some i.byte1.toNat⟩, noSet⟩ := by
  have h1 : i.byte0.toNat%8 = destReg := by omega
  rw [bytecodeInstructionAssign]
  rw [if_neg (by omega), if_neg (by omega), if_pos (by omega), if_neg (by omega), h1]

theorem assign_set16 {destReg : ℕ} (hdest : destReg < 8) (h : i.byte0.toNat = 216+destReg) :
    bytecodeInstructionAssign i =
      ofMisc ⟨some 6, noSet, ⟨some destReg, some (256*i.byte1.toNat+i.byte2.toNat)⟩⟩ := by
  have h1 : i.byte0.toNat%8 = destReg := by omega
  rw [bytecodeInstructionAssign]
  rw [if_neg (by omega), if_neg (by omega), if_pos (by omega), if_pos (by omega), h1]

end Assigned

theorem ofNat_toNat {n : ℕ} (hn : n < 256) : (UInt8.ofNat n).toNat = n := by
  rw [UInt8.toNat_ofNat']
  exact Nat.mod_eq_of_lt hn

theorem aluCode_lt {type : BytecodeInstructionAluType} (h : type ≠ .unknown) : type.code < 14 := by
  cases type with
  | unknown => exact absurd rfl h
  | _ => decide

/-- The length is read off the first byte. -/
theorem parseLength_eq {n len : ℕ} (hn : n < 256)
    (h : len = if n < 208 then 1 else if n/8 ≠ 27 then 2 else 3) :
    bytecodeInstructionParseLength (UInt8.ofNat n) = len := by
  rw [bytecodeInstructionParseLength, ofNat_toNat hn, h]

/-- What a built instruction is in front of any bytes. -/
structure Decodes (bytes : List UInt8) (P : AssignedInfo → Prop) : Prop where
  length : ∃ byte0 tail, bytes = byte0::tail ∧
    bytecodeInstructionParseLength byte0 = bytes.length
  info : ∀ rest, P (bytecodeInstructionAssign (instructionAt (bytes++rest)))

theorem createMemory_decodes (type : BytecodeInstructionMemoryType) (destReg srcReg : Fin 8)
    (h : type ≠ .set4) : Decodes (bytecodeInstructionCreateMemory type destReg srcReg)
      (fun info => info = ofMemory ⟨some type.code, some destReg.val, some srcReg.val, none⟩) := by
  have htype : type.code < 2 := by
    cases type with
    | set4 => exact absurd rfl h
    | _ => decide
  refine ⟨⟨_, [], rfl, parseLength_eq (by omega) ?_⟩, fun rest => ?_⟩
  · rw [if_pos (by omega)]
    rfl
  · exact assign_memory htype destReg.isLt srcReg.isLt (ofNat_toNat (by omega))

theorem createMemorySet4_decodes (destReg : Fin 4) (value : Fin 16) :
    Decodes (bytecodeInstructionCreateMemorySet4 destReg value)
      (fun info => info = ofMemory ⟨some 2, some destReg.val, none, some value.val⟩) := by
  refine ⟨⟨_, [], rfl, parseLength_eq (by omega) ?_⟩, fun rest => ?_⟩
  · rw [if_pos (by omega)]
    rfl
  · exact assign_set4 destReg.isLt value.isLt (ofNat_toNat (by omega))

theorem createAlu_decodes {type : BytecodeInstructionAluType} (h : type ≠ .unknown)
    (destReg opAReg opBReg : Fin 8) :
    Decodes (bytecodeInstructionCreateAlu type destReg opAReg opBReg)
      (fun info => info = ofAlu ⟨some type.code, some destReg.val, some opAReg.val,
        some opBReg.val, some (8*opAReg.val+opBReg.val+1)⟩) := by
  have htype := aluCode_lt h
  refine ⟨⟨_, _, rfl, parseLength_eq (by omega) ?_⟩, fun rest => ?_⟩
  · rw [if_neg (by omega), if_pos (by omega)]
    rfl
  · exact assign_alu (by omega) destReg.isLt opAReg.isLt opBReg.isLt (ofNat_toNat (by omega))
      (ofNat_toNat (by omega))

theorem createMisc_decodes {type : ℕ} (htype : type < 16) :
    Decodes [UInt8.ofNat (192+type)] (fun info => info = ofMisc ⟨some type, noSet, noSet⟩) := by
  refine ⟨⟨_, [], rfl, parseLength_eq (by omega) ?_⟩, fun rest => ?_⟩
  · rw [if_pos (by omega)]
    rfl
  · exact assign_misc htype (ofNat_toNat (by omega))

theorem createMiscSet8_decodes (destReg : Fin 8) (value : UInt8) :
    Decodes (bytecodeInstructionCreateMiscSet8 destReg value)
      (fun info => info = ofMisc ⟨some 5, ⟨some destReg.val, some value.toNat⟩, noSet⟩) := by
  refine ⟨⟨_, _, rfl, parseLength_eq (by omega) ?_⟩, fun rest => ?_⟩
  · rw [if_neg (by omega), if_pos (by omega)]
    rfl
  · exact assign_set8 destReg.isLt (ofNat_toNat (by omega))

theorem createMiscSet16_decodes (destReg : Fin 8) (value : UInt16) :
    Decodes (bytecodeInstructionCreateMiscSet16 destReg value)
      (fun info => info = ofMisc ⟨some 6, noSet, ⟨some destReg.val, some value.toNat⟩⟩) := by
  have hvalue := value.toNat_lt
  refine ⟨⟨_, _, rfl, parseLength_eq (by omega) ?_⟩, fun rest => ?_⟩
  · rw [if_neg (by omega), if_neg (by omega)]
    rfl
  · refine (assign_set16 destReg.isLt (ofNat_toNat (by omega))).trans ?_
    change ofMisc ⟨some 6, noSet, ⟨some destReg.val,
      some (256*(UInt8.ofNat (value.toNat/256)).toNat+(UInt8.ofNat (value.toNat%256)).toNat)⟩⟩ = _
    rw [ofNat_toNat (by omega), ofNat_toNat (by omega), Nat.div_add_mod]

theorem decodes_imp {bytes : List UInt8} {P Q : AssignedInfo → Prop} (h : Decodes bytes P)
    (hPQ : ∀ info, P info → Q info) : Decodes bytes Q :=
  ⟨h.length, fun rest => hPQ _ (h.info rest)⟩

theorem built_decodes (b : Built) : Decodes b.bytes (fun info => b.Describes info) := by
  cases b with
  | memory type destReg srcReg isAccess => exact createMemory_decodes type destReg srcReg isAccess
  | memorySet4 destReg value => exact createMemorySet4_decodes destReg value
  | alu type destReg opAReg opBReg known => exact createAlu_decodes known destReg opAReg opBReg
  | aluIncDecValue type destReg incDecValue isIncDec inRange =>
    have hknown : type ≠ .unknown := by
      rcases isIncDec with rfl | rfl <;> decide
    refine decodes_imp (createAlu_decodes hknown destReg _ _) (fun info hinfo => ?_)
    have hvalue : 8*(Fin.ofNat 8 ((incDecValue-1)/8)).val+
        (Fin.ofNat 8 ((incDecValue-1)%8)).val+1 = incDecValue := by
      change 8*((incDecValue-1)/8%8)+(incDecValue-1)%8%8+1 = incDecValue
      omega
    rw [hvalue] at hinfo
    exact ⟨_, _, hinfo⟩
  | miscNop => exact createMisc_decodes (show 0 < 16 by decide)
  | miscSyscall => exact createMisc_decodes (show 1 < 16 by decide)
  | miscClearInstructionCache => exact createMisc_decodes (show 2 < 16 by decide)
  | miscIllegal => exact createMisc_decodes (show 3 < 16 by decide)
  | miscDebug => exact createMisc_decodes (show 4 < 16 by decide)
  | miscSet8 destReg value => exact createMiscSet8_decodes destReg value
  | miscSet16 destReg value => exact createMiscSet16_decodes destReg value
  | set destReg value =>
    change Decodes (bytecodeInstructionCreateSet destReg value) _
    rw [bytecodeInstructionCreateSet]
    split
    case isTrue h =>
      refine decodes_imp (createMemorySet4_decodes _ _) (fun info hinfo => Or.inl ?_)
      have hdest : (Fin.ofNat 4 destReg.val).val = destReg.val := Nat.mod_eq_of_lt h.2
      have hvalue : (Fin.ofNat 16 value.toNat).val = value.toNat := Nat.mod_eq_of_lt h.1
      rw [hinfo, hdest, hvalue]
    case isFalse =>
      split
      case isTrue h =>
        refine decodes_imp (createMiscSet8_decodes _ _) (fun info hinfo => Or.inr (Or.inl ?_))
        rw [hinfo, ofNat_toNat h]
      case isFalse =>
        exact decodes_imp (createMiscSet16_decodes _ _) (fun info hinfo => Or.inr (Or.inr hinfo))

/-- The walk takes the bytes of one instruction at a time. -/
theorem walk_step {bytes : List UInt8} {P : AssignedInfo → Prop} (h : Decodes bytes P)
    (rest : List UInt8) : ∃ info, P info ∧
      bytecodeWalk (bytes++rest) = (bytecodeWalk rest).map (fun infos => info::infos) := by
  obtain ⟨byte0, tail, hbytes, hlength⟩ := h.length
  refine ⟨_, h.info rest, ?_⟩
  have hlen : bytes.length = tail.length+1 := by rw [hbytes, List.length_cons]
  have hdrop : (tail++rest).drop (bytes.length-1) = rest := by
    rw [hlen, Nat.add_sub_cancel, List.drop_left]
  rw [hbytes, List.cons_append, bytecodeWalk]
  rw [hlength, hdrop, if_neg]
  rw [List.length_cons, List.length_append]
  omega

/-- The bytes of a list of built instructions give the list back. -/
theorem walk_built (instructions : List Built) :
    ∃ infos, bytecodeWalk (instructions.flatMap Built.bytes) = some infos ∧
      List.Forall₂ Built.Describes infos instructions := by
  induction instructions with
  | nil => exact ⟨[], by rw [List.flatMap_nil, bytecodeWalk], List.Forall₂.nil⟩
  | cons b rest ih =>
    obtain ⟨infos, hwalk, hall⟩ := ih
    obtain ⟨info, hinfo, hstep⟩ := walk_step (built_decodes b) (rest.flatMap Built.bytes)
    exact ⟨info::infos, by rw [List.flatMap_cons, hstep, hwalk]; rfl,
      List.Forall₂.cons hinfo hall⟩

/-! ### What is read has been assigned -/

/-- Everything that the interpreter reads has been assigned. -/
def ReadsAssigned (i : BytecodeInstruction) : Prop :=
  ∀ part ∈ partsRead (bytecodeInstructionAssign i), part.isSome

/-- The bytes that the length counts are the same. -/
structure SameCounted (i i' : BytecodeInstruction) : Prop where
  byte0 : i'.byte0 = i.byte0
  byte1 : 2 ≤ bytecodeInstructionParseLength i.byte0 → i'.byte1 = i.byte1
  byte2 : 3 ≤ bytecodeInstructionParseLength i.byte0 → i'.byte2 = i.byte2

/-- What the interpreter reads depends on the counted bytes only. -/
def ReadsCounted (i : BytecodeInstruction) : Prop :=
  ∀ i', SameCounted i i' → (bytecodeInstructionAssign i').type = (bytecodeInstructionAssign i).type ∧
    partsRead (bytecodeInstructionAssign i') = partsRead (bytecodeInstructionAssign i)

theorem reads_counted (i : BytecodeInstruction) : ReadsCounted i := by
  intro i' h
  have hb := i.byte0.toNat_lt
  have hsame : bytecodeInstructionAssign i' = bytecodeInstructionAssign i := by
    have hlen : bytecodeInstructionParseLength i.byte0 =
        if i.byte0.toNat < 208 then 1 else if i.byte0.toNat/8 ≠ 27 then 2 else 3 := rfl
    rw [bytecodeInstructionAssign, bytecodeInstructionAssign, h.byte0]
    by_cases hmemory : i.byte0.toNat/64 ≠ 3
    · rw [if_pos hmemory, if_pos hmemory]
    · rw [if_neg hmemory, if_neg hmemory]
      by_cases hone : i.byte0.toNat < 208
      · rw [if_neg (by omega), if_neg (by omega), if_neg (by omega), if_neg (by omega)]
      · have htwo : 2 ≤ bytecodeInstructionParseLength i.byte0 := by
          rw [hlen, if_neg hone]
          split <;> omega
        rw [h.byte1 htwo]
        by_cases hset16 : i.byte0.toNat/8 = 27
        · have hthree : 3 ≤ bytecodeInstructionParseLength i.byte0 := by
            rw [hlen, if_neg hone, if_neg (not_not.mpr hset16)]
          rw [h.byte2 hthree]
        · by_cases halu : i.byte0.toNat/32%2 = 1
          · rw [if_pos halu, if_pos halu]
          · have hset : i.byte0.toNat/16%2 = 1 := by omega
            have hset8 : ¬ i.byte0.toNat/8%2 = 1 := by omega
            rw [if_neg halu, if_neg halu, if_pos hset, if_pos hset, if_neg hset8, if_neg hset8]
  rw [hsame]
  exact ⟨rfl, rfl⟩

theorem partsRead_memory {info : BytecodeInstructionMemoryInfo} {type destReg : ℕ}
    (htype : info.type = some type) (hdest : info.destReg = some destReg)
    (hsrc : type ≠ 2 → info.srcReg.isSome) (hvalue : type = 2 → info.set4Value.isSome) :
    ∀ part ∈ partsRead (ofMemory info), part.isSome := by
  simp only [partsRead, ofMemory, htype, hdest, Option.some.injEq, List.forall_mem_cons]
  refine ⟨rfl, ?_⟩
  split_ifs with h1 h0 h2
  · simp [hsrc (by omega)]
  · simp [hsrc (by omega)]
  · simp [hvalue h2]
  · simp

theorem partsRead_alu {info : BytecodeInstructionAluInfo}
    (h : ∀ part ∈ [info.type, info.destReg, info.opAReg, info.opBReg, info.incDecValue],
      part.isSome) : ∀ part ∈ partsRead (ofAlu info), part.isSome := by
  intro part hpart
  change part ∈ info.opAReg::info.opBReg::info.type::
    (if info.type = some 0 ∨ info.type = some 1 then [info.destReg, info.incDecValue]
    else if info.type = some 14 ∨ info.type = some 15 then [] else [info.destReg]) at hpart
  apply h
  split_ifs at hpart <;> simp only [List.mem_cons, List.not_mem_nil, or_false] at hpart ⊢ <;> tauto

/-- The one byte codes of set8 and set16 are the only ones. -/
theorem reads_assigned_iff (i : BytecodeInstruction) :
    ReadsAssigned i ↔ i.byte0 ≠ 0xC5 ∧ i.byte0 ≠ 0xC6 := by
  have hb := i.byte0.toNat_lt
  constructor
  · intro h
    refine ⟨fun hset8 => ?_, fun hset16 => ?_⟩
    · have hassign := assign_misc (i := i) (show 5 < 16 by decide) (by rw [hset8]; rfl)
      have hnone := h none (by rw [hassign]; decide)
      cases hnone
    · have hassign := assign_misc (i := i) (show 6 < 16 by decide) (by rw [hset16]; rfl)
      have hnone := h none (by rw [hassign]; decide)
      cases hnone
  · rintro ⟨h5, h6⟩
    have hne5 : i.byte0.toNat ≠ 197 := fun h => h5 (UInt8.toNat_inj.mp h)
    have hne6 : i.byte0.toNat ≠ 198 := fun h => h6 (UInt8.toNat_inj.mp h)
    rw [ReadsAssigned, bytecodeInstructionAssign]
    split
    case isTrue =>
      split
      case isTrue => exact partsRead_memory rfl rfl (fun h => absurd rfl h) (fun _ => rfl)
      case isFalse h => exact partsRead_memory rfl rfl (fun _ => rfl) (fun h2 => absurd h2 h)
    case isFalse =>
      split
      case isTrue => exact partsRead_alu (by simp)
      case isFalse =>
        split
        case isTrue =>
          split
          case isTrue => intro part hpart; fin_cases hpart <;> rfl
          case isFalse => intro part hpart; fin_cases hpart <;> rfl
        case isFalse =>
          intro part hpart
          have h5' : i.byte0.toNat%16 ≠ 5 := by omega
          have h6' : i.byte0.toNat%16 ≠ 6 := by omega
          simp only [partsRead, ofMisc, Option.some.injEq, if_neg h5', if_neg h6'] at hpart
          rw [List.mem_singleton.mp hpart]
          rfl

/-- Every list of built instructions is recovered from its bytes; and what is
read of the instruction at any three bytes has been assigned, from the bytes
that its length counts, exactly when the first is not the code of a set8 or a
set16 in one byte. -/
theorem bytecode_decodes (instructions : List Built) (i : BytecodeInstruction) :
    (∃ infos, bytecodeWalk (instructions.flatMap Built.bytes) = some infos ∧
        List.Forall₂ Built.Describes infos instructions) ∧
      ((ReadsAssigned i ∧ ReadsCounted i) ↔ i.byte0 ≠ 0xC5 ∧ i.byte0 ≠ 0xC6) := by
  refine ⟨walk_built instructions, ?_⟩
  rw [← reads_assigned_iff]
  exact and_iff_left (reads_counted i)

/-- A register and a value are read that were never assigned. -/
theorem bytecode_unassigned : ¬ ∀ i : BytecodeInstruction, ReadsAssigned i ∧ ReadsCounted i := by
  intro h
  have hnone := (h ⟨0xC5, 0, 0⟩).1 none (by decide)
  cases hnone

end ArduinoOS.Procman
