import ArduinoOS.Assembler.Defines
import ArduinoOS.Procman.Encoding
import ArduinoOS.Procman.Kill

/-!
# Generating machine code

The instructions of a parsed program, a first guess at the length of each, the
offsets that the lengths give, and the machine code at these offsets. Whenever an
instruction turns out shorter than its length says, the offsets are computed again.
-/

set_option autoImplicit false

namespace ArduinoOS.Assembler.Generation
open ArduinoOS.Procman

def ByteCodeIllegalInstructionByte : UInt8 := 0xC3
def BytecodeMemoryRamAddr : ℕ := 32768
def BytecodeRegisterS : Fin 8 := 5

/-- How a pass can end without a result: an error is printed, an assertion fails, or the
line behind the last one is looked at. -/
inductive Stop
  | rejected
  | assertFailed
  | undefined
  deriving DecidableEq

/-! ### Instructions -/

structure AssemblerInstructionAllocation where
  membSize : ℕ
  symbol : CStr
  lenStr : CStr
  deriving DecidableEq

/-- As the table of mnemonics fills it; operands that are not there are `none`. -/
structure AssemblerInstructionAlu where
  type : BytecodeInstructionAluType
  dest : CStr
  opA : Option CStr
  opB : Option CStr
  skipBit : Fin 8
  incDecValue : ℕ
  extraType : BytecodeInstructionAluExtraType
  known : type ≠ .unknown
  range : type = .inc ∨ type = .dec → 0 < incDecValue ∧ incDecValue ≤ 64
  deriving DecidableEq

inductive AssemblerInstructionType
  | allocation (d : AssemblerInstructionAllocation)
  | define (d : AssemblerInstructionDefine)
  | mov (dest src : CStr)
  | label (symbol : CStr)
  | syscall
  | clearInstructionCache
  | debug
  | alu (d : AssemblerInstructionAlu)
  | jmp (addr : CStr)
  | push8 (src : CStr)
  | pop8 (dest : CStr)
  | call (label : CStr)
  | ret
  | store8 (dest src : CStr)
  | load8 (dest src : CStr)
  | xchg8 (addrReg srcDestReg : CStr)
  | clz (destReg srcReg : CStr)
  | const (symbol : CStr) (value : UInt16)
  | nop
  deriving DecidableEq

structure AssemblerInstruction where
  lineIndex : ℕ
  type : AssemblerInstructionType
  deriving DecidableEq

structure AssemblerProgram where
  instructions : List AssemblerInstruction
  noStack : Bool
  noScratch : Bool

/-- The fields of the instructions, and of the program, that the passes compute. -/
structure Layout where
  machineCode : ℕ → List UInt8
  machineCodeLen : ℕ → ℕ
  machineCodeOffset : ℕ → ℕ
  ramOffset : ℕ → ℕ
  stackRamOffset : ℕ

/-- `machineCodeInstructions` -/
def AssemblerInstructionType.machineCodeInstructions : AssemblerInstructionType → ℕ
  | .allocation _ | .define _ | .label _ | .const _ _ => 0
  | .push8 _ | .pop8 _ | .call _ => 2
  | _ => 1

/-! ### Registers and symbols -/

def assemblerRegisterFromStr (str : CStr) : Option (Fin 8) :=
  match str with
  | [r, digit] => if r.val = 114 ∧ 48 ≤ digit.val ∧ digit.val ≤ 55 then
      some (Fin.ofNat 8 (digit.val.toNat-48)) else none
  | _ => none

section Symbols

variable (instructions : List AssemblerInstruction) (layout : Layout)

def assemblerGetAllocationSymbolInstructionIndex (symbol : CStr) : Option ℕ :=
  instructions.findIdx? (fun instruction =>
    match instruction.type with
    | .allocation d => d.symbol == symbol
    | _ => false)

def assemblerGetAllocationSymbolAddr (symbol : CStr) : Option ℕ :=
  (assemblerGetAllocationSymbolInstructionIndex instructions symbol).map layout.ramOffset

def assemblerGetDefineSymbolInstructionIndex (symbol : CStr) : Option ℕ :=
  instructions.findIdx? (fun instruction =>
    match instruction.type with
    | .define d => d.symbol == symbol
    | _ => false)

/-- Where the data of a define is: at an instruction, with an offset. -/
def definePlace (symbol : CStr) : Option (ℕ × ℕ) := do
  let index ← assemblerGetDefineSymbolInstructionIndex instructions symbol
  let instruction ← instructions[index]?
  match instruction.type with
  | .define d =>
      if d.pointerLineIndex = instruction.lineIndex then some (index, 0)
      else (instructions.findIdx? (fun loopInstruction =>
        loopInstruction.lineIndex == d.pointerLineIndex)).map (fun i => (i, d.pointerOffset))
  | _ => none

def assemblerGetDefineSymbolAddr (symbol : CStr) : Option ℕ :=
  (definePlace instructions symbol).map (fun place => layout.machineCodeOffset place.1+place.2)

def assemblerGetLabelSymbolInstructionIndex (symbol : CStr) : Option ℕ :=
  instructions.findIdx? (fun instruction =>
    match instruction.type with
    | .label symbol' => symbol' == symbol
    | _ => false)

def assemblerGetLabelSymbolAddr (symbol : CStr) : Option ℕ :=
  (assemblerGetLabelSymbolInstructionIndex instructions symbol).map layout.machineCodeOffset

def assemblerGetConstSymbolValue (symbol : CStr) : Option ℕ :=
  instructions.findSome? (fun instruction =>
    match instruction.type with
    | .const symbol' value => if symbol' = symbol then some value.toNat else none
    | _ => none)

end Symbols

/-- `isdigit` of the first character. -/
def startsWithDigit (src : CStr) : Bool :=
  match src with
  | c::_ => isDigit c
  | [] => false

/-- `atoi`, stored in an `unsigned`. -/
def integerValue (src : CStr) : ℕ := (atoi src % 4294967296).toNat

/-- A character constant, quotes and all. -/
def isCharacter (src : CStr) : Bool := src.head?.map CChar.val == some 39

/-- The character of a constant: the second one of `src`, or what the third one escapes.
A terminator takes the place of a character that is not there. -/
def characterValue (src : CStr) : UInt8 :=
  let c := src.getChar 1
  if c = 92 then
    let e := src.getChar 2
    if e = 110 then 10 else if e = 114 then 13 else if e = 116 then 9 else e
  else c

/-- The checks of a character constant. -/
def characterAccepted (src : CStr) : Bool :=
  let c := src.getChar 1
  ((32 ≤ c && c ≤ 126) || c == 9) && c != 39 && (src.getLast?.map CChar.val == some 39) &&
    (c != 92 || [110, 114, 116].contains (src.getChar 2))

/-! ### First lengths -/

section Lengths

variable (program : AssemblerProgram)

/-- The length for a value that is known. Without a register `destReg` is 8. -/
def setLength (destReg : Option (Fin 8)) (value : ℕ) : ℕ :=
  if value < 16 ∧ ((destReg.map Fin.val).getD 8) < 4 then 1
  else if value < 256 then 2
  else 3

/-- The places of labels, allocations and defines are not known yet. -/
def movInitialLength (dest src : CStr) : Except Stop ℕ :=
  if startsWithDigit src then .ok (setLength (assemblerRegisterFromStr dest) (integerValue src))
  else if (assemblerRegisterFromStr src).isSome then .ok 2
  else if isCharacter src then
    if characterAccepted src then .ok 2 else .error .rejected
  else if (definePlace program.instructions src).isSome then .ok 3
  else if (assemblerGetAllocationSymbolInstructionIndex program.instructions src).isSome then .ok 3
  else if (assemblerGetLabelSymbolInstructionIndex program.instructions src).isSome then .ok 3
  else match assemblerGetConstSymbolValue program.instructions src with
    | some constValue => .ok (setLength (assemblerRegisterFromStr dest) constValue)
    | none => .error .rejected

def initialLength (instruction : AssemblerInstruction) : Except Stop ℕ :=
  match instruction.type with
  | .allocation _ | .label _ | .const _ _ => .ok 0
  | .define d => .ok (if d.pointerLineIndex = instruction.lineIndex then d.data.length else 0)
  | .mov dest src => movInitialLength program dest src
  | .syscall | .clearInstructionCache | .debug | .store8 _ _ | .load8 _ _ | .nop => .ok 1
  | .alu _ | .ret | .xchg8 _ _ | .clz _ _ => .ok 2
  | .jmp _ | .push8 _ | .pop8 _ => .ok 3
  | .call _ => .ok 5

/-- The loop over the instructions. -/
def assemblerProgramCalculateInitialMachineCodeLengths : Except Stop (List ℕ) :=
  program.instructions.mapM (initialLength program)

/-! ### Offsets -/

/-- The bytes of RAM that an instruction reserves. -/
def allocationSize (instruction : AssemblerInstruction) : ℕ :=
  match instruction.type with
  | .allocation d =>
      let len := match assemblerGetConstSymbolValue program.instructions d.lenStr with
        | some value => value
        | none => (atoi d.lenStr % 65536).toNat
      u16 (len*d.membSize)
  | _ => 0

/-- `nextMachineCodeOffset` at an instruction. -/
def codeOffset (machineCodeLen : ℕ → ℕ) (i : ℕ) : ℕ :=
  BytecodeMemoryProgmemAddr+((List.range i).map machineCodeLen).sum

/-- `nextRamOffset` at an instruction; it has 32 bits. -/
def ramBefore (i : ℕ) : ℕ :=
  u32 (BytecodeMemoryRamAddr+((program.instructions.take i).map (allocationSize program)).sum)

def assemblerProgramCalculateMachineCodeOffsets (layout : Layout) : Layout :=
  { layout with
    machineCodeOffset := fun i => u16 (codeOffset layout.machineCodeLen i)
    ramOffset := fun i => u16 (ramBefore program i)
    stackRamOffset := u16 (ramBefore program program.instructions.length) }

end Lengths

/-! ### Machine code -/

def nopCode : List UInt8 := bytecodeInstructionCreateMiscNop

/-- The jump, for the length of the last round. The two instructions that do nothing stand
for one of two bytes that the next round generates. -/
def jmpCode (addr machineCodeOffset machineCodeLen : ℕ) : Except Stop (List UInt8) :=
  if addr = machineCodeOffset+machineCodeLen then .ok nopCode
  else if machineCodeLen = 3 then
    let len2Addr := if addr > machineCodeOffset then addr-1 else addr
    if len2Addr < 256 then .ok (nopCode++nopCode)
    else
      let ip := u16 (machineCodeOffset+2)
      let set16 := bytecodeInstructionCreateMiscSet16 BytecodeRegisterIP (UInt16.ofNat addr)
      if len2Addr > ip then
        if len2Addr-ip ≤ 64 then .ok (nopCode++nopCode) else .ok set16
      else if len2Addr < ip then
        if ip-len2Addr ≤ 64 then .ok (nopCode++nopCode) else .ok set16
      else .error .assertFailed
  else if machineCodeLen = 2 then
    if addr < 256 then .ok (bytecodeInstructionCreateMiscSet8 BytecodeRegisterIP (UInt8.ofNat addr))
    else
      let ip := u16 (machineCodeOffset+machineCodeLen)
      if addr > ip then
        if addr-ip ≤ 64 then
          .ok (bytecodeInstructionCreateAluIncDecValue .inc BytecodeRegisterIP (addr-ip))
        else .error .assertFailed
      else if addr < ip then
        if ip-addr ≤ 64 then
          .ok (bytecodeInstructionCreateAluIncDecValue .dec BytecodeRegisterIP (ip-addr))
        else .error .assertFailed
      else .error .assertFailed
  else .error .assertFailed

/-- The place of an extra type in its enumeration. -/
def extraCode : BytecodeInstructionAluExtraType → Fin 8
  | .not => 0
  | .store16 => 1
  | .load16 => 2
  | .push16 => 3
  | .pop16 => 4
  | .call => 5
  | .xchg8 => 6
  | .clz => 7

section Code

variable (program : AssemblerProgram) (layout : Layout)

def register (str : CStr) : Except Stop (Fin 8) :=
  match assemblerRegisterFromStr str with
  | some reg => .ok reg
  | none => .error .rejected

/-- An operand that is no register counts as the first one. -/
def operand (str : Option CStr) : Fin 8 := (str.bind assemblerRegisterFromStr).getD 0

def movValue (src : CStr) : Except Stop ℕ :=
  match assemblerGetDefineSymbolAddr program.instructions layout src,
    assemblerGetAllocationSymbolAddr program.instructions layout src,
    assemblerGetLabelSymbolAddr program.instructions layout src,
    assemblerGetConstSymbolValue program.instructions src with
  | some defineAddr, _, _, _ => .ok defineAddr
  | none, some allocationAddr, _, _ => .ok allocationAddr
  | none, none, some labelAddr, _ => .ok labelAddr
  | none, none, none, some constValue => .ok constValue
  | none, none, none, none => .error .rejected

def movCode (dest src : CStr) : Except Stop (List UInt8) := do
  let destReg ← register dest
  if startsWithDigit src then
    pure (bytecodeInstructionCreateSet destReg (UInt16.ofNat (integerValue src)))
  else match assemblerRegisterFromStr src with
    | some srcReg => pure (bytecodeInstructionCreateAlu .or destReg srcReg srcReg)
    | none =>
        if isCharacter src then
          pure (bytecodeInstructionCreateSet destReg (characterValue src).toUInt16)
        else do
          let value ← movValue program layout src
          pure (bytecodeInstructionCreateSet destReg (UInt16.ofNat value))

/-- The distance that a skip encodes: one less than the instructions of the next line. -/
def skipDistance (i : ℕ) : Except Stop (Fin 8) :=
  match program.instructions[i+1]? with
  | none => .error .undefined
  | some nextInstruction =>
      -- one less than none at all is no register
      if nextInstruction.type.machineCodeInstructions = 0 then .error .assertFailed
      else .ok (Fin.ofNat 8 (nextInstruction.type.machineCodeInstructions-1))

def aluCode (i : ℕ) (d : AssemblerInstructionAlu) : Except Stop (List UInt8) :=
  if program.noStack ∧ d.type = .extra ∧ (d.extraType = .push16 ∨ d.extraType = .pop16) then
    .error .rejected
  else do
    let destReg ← register d.dest
    match d.type with
    | .skip => do
        let distance ← skipDistance program i
        pure (bytecodeInstructionCreateAlu .skip destReg d.skipBit distance)
    | .inc => pure (bytecodeInstructionCreateAluIncDecValue .inc destReg d.incDecValue)
    | .dec => pure (bytecodeInstructionCreateAluIncDecValue .dec destReg d.incDecValue)
    | .extra =>
        if d.extraType = .push16 then
          pure (bytecodeInstructionCreateAlu .extra BytecodeRegisterSP destReg (extraCode .push16))
        else if d.extraType = .pop16 then
          pure (bytecodeInstructionCreateAlu .extra destReg BytecodeRegisterSP (extraCode .pop16))
        else pure (bytecodeInstructionCreateAlu .extra destReg (operand d.opA)
          (extraCode d.extraType))
    | type => pure (bytecodeInstructionCreateAlu type destReg (operand d.opA) (operand d.opB))

def pushCode (src : CStr) : Except Stop (List UInt8) := do
  let srcReg ← register src
  pure (bytecodeInstructionCreateMemory .store8 BytecodeRegisterSP srcReg++
    bytecodeInstructionCreateAluIncDecValue .inc BytecodeRegisterSP 1)

def popCode (dest : CStr) : Except Stop (List UInt8) := do
  let destReg ← register dest
  pure (bytecodeInstructionCreateAluIncDecValue .dec BytecodeRegisterSP 1++
    bytecodeInstructionCreateMemory .load8 destReg BytecodeRegisterSP)

def callCode (label : CStr) : Except Stop (List UInt8) :=
  match assemblerGetLabelSymbolAddr program.instructions layout label with
  | none => .error .rejected
  | some addr => .ok (bytecodeInstructionCreateSet BytecodeRegisterS (UInt16.ofNat addr)++
      bytecodeInstructionCreateAlu .extra BytecodeRegisterS BytecodeRegisterSP (extraCode .call))

/-- Two registers, and the instruction for them. -/
def registersCode (first second : CStr) (code : Fin 8 → Fin 8 → List UInt8) :
    Except Stop (List UInt8) := do
  let firstReg ← register first
  let secondReg ← register second
  pure (code firstReg secondReg)

/-- The bytes that are written for an instruction; illegal ones follow. -/
def instructionCode (i : ℕ) (instruction : AssemblerInstruction) : Except Stop (List UInt8) :=
  match instruction.type with
  | .allocation _ | .label _ | .const _ _ => .ok []
  | .define d => .ok (if d.pointerLineIndex = instruction.lineIndex then d.data else [])
  | .mov dest src => movCode program layout dest src
  | .syscall => .ok bytecodeInstructionCreateMiscSyscall
  | .clearInstructionCache => .ok bytecodeInstructionCreateMiscClearInstructionCache
  | .debug => .ok bytecodeInstructionCreateMiscDebug
  | .alu d => aluCode program i d
  | .jmp addr =>
      match assemblerGetLabelSymbolAddr program.instructions layout addr with
      | none => .error .rejected
      | some addr => jmpCode addr (layout.machineCodeOffset i) (layout.machineCodeLen i)
  | .push8 src => if program.noStack then .error .rejected else pushCode src
  | .pop8 dest => if program.noStack then .error .rejected else popCode dest
  | .call label =>
      if program.noScratch then .error .rejected
      else if program.noStack then .error .rejected
      else callCode program layout label
  | .ret =>
      if program.noStack then .error .rejected
      else .ok (bytecodeInstructionCreateAlu .extra BytecodeRegisterIP BytecodeRegisterSP
        (extraCode .pop16))
  | .store8 dest src => registersCode dest src (bytecodeInstructionCreateMemory .store8)
  | .load8 dest src => registersCode dest src (bytecodeInstructionCreateMemory .load8)
  | .xchg8 addrReg srcDestReg => registersCode addrReg srcDestReg
      (fun addr srcDest => bytecodeInstructionCreateAlu .extra addr srcDest (extraCode .xchg8))
  | .clz destReg srcReg => registersCode destReg srcReg
      (fun dest src => bytecodeInstructionCreateAlu .extra dest src (extraCode .clz))
  | .nop => .ok nopCode

/-- The loop that counts the bytes up to an illegal one. -/
def codeLength (code : List UInt8) : ℕ → ℕ → ℕ
  | actualLen, 0 => actualLen
  | actualLen, fuel+1 =>
      if code.getD actualLen ByteCodeIllegalInstructionByte = ByteCodeIllegalInstructionByte then
        actualLen
      else codeLength code (actualLen+bytecodeInstructionParseLength
        (code.getD actualLen ByteCodeIllegalInstructionByte)) fuel

/-- Its instructions have a byte each at least. -/
def actualLength (code : List UInt8) : ℕ := codeLength code 0 AssemblerInstructionMachineCodeMax

def AssemblerInstructionType.isDefine : AssemblerInstructionType → Bool
  | .define _ => true
  | _ => false

end Code

/-- The loop over the instructions, which ends with the first one that has become
shorter. -/
def generateFrom (program : AssemblerProgram) (layout : Layout) (i : ℕ) :
    List AssemblerInstruction → Except Stop (Layout × Bool)
  | [] => .ok (layout, false)
  | instruction::rest => do
      let code ← instructionCode program layout i instruction
      let layout := { layout with machineCode := Function.update layout.machineCode i code }
      if layout.machineCodeLen i > 0 ∧ instruction.type.isDefine = false ∧
          actualLength code ≠ layout.machineCodeLen i then
        if actualLength code < layout.machineCodeLen i then
          pure ({ layout with
            machineCodeLen := Function.update layout.machineCodeLen i (actualLength code) }, true)
        else throw .assertFailed
      else generateFrom program layout (i+1) rest

def assemblerProgramGenerateMachineCode (program : AssemblerProgram) (layout : Layout) :
    Except Stop (Layout × Bool) :=
  generateFrom program layout 0 program.instructions

/-- The loop of `main`, for so many rounds at most. -/
def generationLoop (program : AssemblerProgram) (layout : Layout) :
    ℕ → Option (Except Stop Layout)
  | 0 => none
  | fuel+1 =>
      match assemblerProgramGenerateMachineCode program
          (assemblerProgramCalculateMachineCodeOffsets program layout) with
      | .error stop => some (.error stop)
      | .ok (layout, true) => generationLoop program layout fuel
      | .ok (layout, false) => some (.ok layout)

def initialLayout (lengths : List ℕ) : Layout where
  machineCode _ := []
  machineCodeLen i := lengths.getD i 0
  machineCodeOffset _ := 0
  ramOffset _ := 0
  stackRamOffset := 0

/-- The line that sets the stack pointer gets the address of the stack. -/
def setStackPointer (program : AssemblerProgram) (stackSetLineIndex stackRamOffset : ℕ) :
    AssemblerProgram :=
  if program.noStack then program
  else
    match program.instructions.findIdx?
        (fun instruction => instruction.lineIndex == stackSetLineIndex) with
    | none => program
    | some i => { program with
        instructions := program.instructions.modify i (fun instruction =>
          match instruction.type with
          | .mov dest _ => { instruction with type := .mov dest (formatUnsigned stackRamOffset) }
          | _ => instruction) }

/-- The round after the loop, which changes no length. -/
def lastRound (program : AssemblerProgram) (stackSetLineIndex : ℕ) (layout : Layout) :
    Except Stop (AssemblerProgram × Layout) := do
  let program := setStackPointer program stackSetLineIndex layout.stackRamOffset
  let (layout, change) ← assemblerProgramGenerateMachineCode program layout
  if change then throw .assertFailed else pure (program, layout)

/-- What `main` does from the first lengths to the last machine code. -/
def assembleInstructions (program : AssemblerProgram) (stackSetLineIndex fuel : ℕ) :
    Option (Except Stop (AssemblerProgram × Layout)) :=
  match assemblerProgramCalculateInitialMachineCodeLengths program with
  | .error stop => some (.error stop)
  | .ok lengths => (generationLoop program (initialLayout lengths) fuel).map
      (fun result => result.bind (lastRound program stackSetLineIndex))

/-- The file that is written. -/
def assemblerProgramWriteMachineCode (program : AssemblerProgram) (layout : Layout) : List UInt8 :=
  (List.range program.instructions.length).flatMap (fun i =>
    ((layout.machineCode i)++List.replicate (layout.machineCodeLen i)
      ByteCodeIllegalInstructionByte).take (layout.machineCodeLen i))

end ArduinoOS.Assembler.Generation
