import Mathlib.Algebra.Ring.Nat
import ArduinoOS.CStr
import ArduinoOS.Lib.Partition

/-!
# Defines in an assembled program

The data of a program's defines is stored behind its code. A define whose data is
found in that of another one is stored in there: it points to the other's line,
and its address is the other's with an offset.
-/

set_option autoImplicit false

namespace ArduinoOS.Assembler

def AssemblerInstructionMachineCodeMax : ℕ := 1024
def BytecodeMemoryProgmemAddr : ℕ := 0

/-- Its data is as long as its `totalSize`. -/
structure AssemblerInstructionDefine where
  symbol : CStr
  data : List UInt8
  pointerLineIndex : ℕ
  pointerOffset : ℕ
  deriving DecidableEq

/-- Of every other type only the machine code matters that is generated in the end. -/
inductive AssemblerInstructionType
  | define (d : AssemblerInstructionDefine)
  | other (machineCode : List UInt8)
  deriving DecidableEq

structure AssemblerInstruction where
  lineIndex : ℕ
  type : AssemblerInstructionType
  deriving DecidableEq

namespace AssemblerInstruction

def isDefine (instruction : AssemblerInstruction) : Bool :=
  match instruction.type with
  | .define _ => true
  | .other _ => false

def symbol? (instruction : AssemblerInstruction) : Option CStr :=
  match instruction.type with
  | .define d => some d.symbol
  | .other _ => none

/-- What is written for the instruction; a define that points to another has nothing. -/
def machineCode (instruction : AssemblerInstruction) : List UInt8 :=
  match instruction.type with
  | .define d => if d.pointerLineIndex = instruction.lineIndex then d.data else []
  | .other machineCode => machineCode

def machineCodeLen (instruction : AssemblerInstruction) : ℕ := instruction.machineCode.length

end AssemblerInstruction

/-- A program as it is parsed. It starts with the two magic bytes, a line gives one
instruction at most, and a symbol is defined once. -/
structure AssemblerProgram where
  instructions : List AssemblerInstruction
  header : 2 ≤ instructions.length
  lines : (instructions.map AssemblerInstruction.lineIndex).Nodup
  symbols : (instructions.filterMap AssemblerInstruction.symbol?).Nodup
  sizes : ∀ instruction ∈ instructions, ∀ d, instruction.type = .define d →
    d.data.length ≤ AssemblerInstructionMachineCodeMax
  unshared : ∀ instruction ∈ instructions, ∀ d, instruction.type = .define d →
    d.pointerLineIndex = instruction.lineIndex

/-! ### The passes -/

section Passes

open ArduinoOS.Passes

/-- One run of the loop that swaps a define with what follows it. -/
def shiftPass (instructions : List AssemblerInstruction) : List AssemblerInstruction × Bool :=
  front (behind AssemblerInstruction.isDefine) instructions

def assemblerProgramShiftDefines (fuel : ℕ) (instructions : List AssemblerInstruction) :
    Option (List AssemblerInstruction × Bool) :=
  untilUnchanged shiftPass fuel instructions

/-- The loop over `loopDataI`: where the data is found, from this place on. -/
def findData (data loopData : List UInt8) : ℕ → ℕ → Option ℕ
  | _, 0 => none
  | loopDataI, left+1 =>
      if (loopData.drop loopDataI).take data.length = data then some loopDataI
      else findData data loopData (loopDataI+1) left

variable (instructions : List AssemblerInstruction)

/-- The loop over `j`: the line of a define that has the data, and where. The last
instruction is not looked at. -/
def findDefine (i : ℕ) (data : List UInt8) : ℕ → ℕ → Option (ℕ × ℕ)
  | _, 0 => none
  | j, left+1 =>
      if i = j then findDefine i data (j+1) left
      else
        match instructions[j]? with
        | some ⟨lineIndex, .define d⟩ =>
            if d.pointerLineIndex ≠ lineIndex then findDefine i data (j+1) left
            else
              match findData data d.data 0 (d.data.length+1-data.length) with
              | some loopDataI => some (lineIndex, loopDataI)
              | none => findDefine i data (j+1) left
        | _ => findDefine i data (j+1) left

end Passes

section Shrink

open ArduinoOS.Passes

/-- The loop over `i`. -/
def shrinkFrom (instructions : List AssemblerInstruction) (i : ℕ) :
    ℕ → List AssemblerInstruction × Bool
  | 0 => (instructions, false)
  | left+1 =>
      match instructions[i]? with
      | some ⟨lineIndex, .define d⟩ =>
          if d.pointerLineIndex ≠ lineIndex then shrinkFrom instructions (i+1) left
          else
            match findDefine instructions i d.data 0 (instructions.length-1) with
            | some (pointerLineIndex, pointerOffset) =>
                ((shrinkFrom (instructions.set i ⟨lineIndex, .define
                  { d with
                    pointerLineIndex := pointerLineIndex
                    pointerOffset := pointerOffset }⟩) (i+1) left).1, true)
            | none => shrinkFrom instructions (i+1) left
      | _ => shrinkFrom instructions (i+1) left

def shrinkPass (instructions : List AssemblerInstruction) : List AssemblerInstruction × Bool :=
  shrinkFrom instructions 0 (instructions.length-1)

def assemblerProgramShrinkDefines (fuel : ℕ) (instructions : List AssemblerInstruction) :
    Option (List AssemblerInstruction × Bool) :=
  untilUnchanged shrinkPass fuel instructions

/-- Both passes, each repeated as long as it reports a change. -/
def sharedDefines (fuel : ℕ) (instructions : List AssemblerInstruction) :
    Option (List AssemblerInstruction) :=
  (whileChanged (assemblerProgramShiftDefines fuel) fuel instructions).bind
    (whileChanged (assemblerProgramShrinkDefines fuel) fuel)

end Shrink

/-! ### The layout -/

section Layout

variable (instructions : List AssemblerInstruction)

/-- `nextMachineCodeOffset` at this instruction. -/
def placeOf (i : ℕ) : ℕ :=
  BytecodeMemoryProgmemAddr+((instructions.take i).map AssemblerInstruction.machineCodeLen).sum

/-- It has 16 bits. -/
def machineCodeOffset (i : ℕ) : ℕ := u16 (placeOf instructions i)

def assemblerGetDefineSymbolInstructionIndex (symbol : CStr) : Option ℕ :=
  instructions.findIdx? (fun instruction => instruction.symbol? == some symbol)

/-- `none` is the answer -1. -/
def assemblerGetDefineSymbolAddr (symbol : CStr) : Option ℕ :=
  match assemblerGetDefineSymbolInstructionIndex instructions symbol with
  | none => none
  | some index =>
      match instructions[index]? with
      | some ⟨lineIndex, .define d⟩ =>
          if d.pointerLineIndex = lineIndex then some (machineCodeOffset instructions index)
          else
            (instructions.findIdx? (fun loopInstruction =>
              loopInstruction.lineIndex == d.pointerLineIndex)).map
                (fun i => machineCodeOffset instructions i+d.pointerOffset)
      | _ => none

/-- The file that is written. -/
def assemblerProgramWriteMachineCode : List UInt8 :=
  instructions.flatMap AssemblerInstruction.machineCode

end Layout

end ArduinoOS.Assembler
