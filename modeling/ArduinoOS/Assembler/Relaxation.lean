import ArduinoOS.Assembler.Code
import ArduinoOS.Lib.Relaxation

/-!
# Rounds of code generation

What an earlier round promises of the length of a line holds in every later one: a
jump that is two bytes long stays near enough, and nothing else becomes longer. So no
assertion about lengths fails, and the rounds come to an end.
-/

set_option autoImplicit false

namespace ArduinoOS.Assembler.Generation
open ArduinoOS.Procman ArduinoOS.Relaxation

/-! ### Jumps -/

/-- In reach of an instruction of two bytes, from the end of the line. -/
def Near (addr ip : ℕ) : Prop := addr < 256 ∨ (addr ≤ ip+64 ∧ ip ≤ addr+64)

/-- A jump in a line to the beginning of another fits the length of its line. -/
def JumpFits (len : ℕ → ℕ) (i k : ℕ) : Prop :=
  len i = 3 ∨ (len i = 2 ∧ Near (offset len k) (offset len (i+1))) ∨
    (len i = 1 ∧ offset len k = offset len (i+1))

section Jumps

variable {len len' : ℕ → ℕ} {i k : ℕ}

theorem near_shorter (h : Shorter len' len) (hnear : Near (offset len k) (offset len (i+1))) :
    Near (offset len' k) (offset len' (i+1)) := by
  have hk := offset_shorter h k
  rcases hnear with hnear | ⟨hup, hdown⟩
  · exact Or.inl (by omega)
  · rcases Nat.le_total k (i+1) with hle | hle
    · have hgap := gap_shorter h hle
      have hoff := offset_le len' hle
      exact Or.inr ⟨by omega, by omega⟩
    · have hgap := gap_shorter h hle
      have hoff := offset_le len' hle
      exact Or.inr ⟨by omega, by omega⟩

/-- The label right behind the line stays there. -/
theorem behind_shorter (h : Shorter len' len) (hi : 0 < len i)
    (hbehind : offset len k = offset len (i+1)) : offset len' k = offset len' (i+1) := by
  have hle : i+1 ≤ k := by
    by_contra hlt
    have hk := offset_le len (show k ≤ i by omega)
    have hoff := offset_lt len (Nat.lt_succ_self i) hi
    rw [Nat.succ_eq_add_one] at hoff
    omega
  have hgap := gap_shorter h hle
  have hoff := offset_le len' hle
  omega

theorem jumpFits_shorter (h : Shorter len' len) (hsame : len' i = len i)
    (hfits : JumpFits len i k) : JumpFits len' i k := by
  rcases hfits with h3 | ⟨h2, hnear⟩ | ⟨h1, hbehind⟩
  · exact Or.inl (hsame.trans h3)
  · exact Or.inr (Or.inl ⟨hsame.trans h2, near_shorter h hnear⟩)
  · exact Or.inr (Or.inr ⟨hsame.trans h1, behind_shorter h (by omega) hbehind⟩)

/-- The code of a jump is as long as its line, or shorter and fits the shorter line. -/
theorem jmpCode_of_fits (hfits : JumpFits len i k) (hfit : offset len (i+1) < 65536) :
    ∃ code, jmpCode (offset len k) (offset len i) (len i) = .ok code ∧
      (code.length = len i ∨ (0 < code.length ∧ code.length < len i ∧
        JumpFits (Function.update len i code.length) i k)) := by
  have hend := offset_succ len i
  rw [jmpCode, ← hend]
  by_cases hbehind : offset len k = offset len (i+1)
  · rw [if_pos hbehind]
    refine ⟨nopCode, rfl, ?_⟩
    change 1 = len i ∨ (0 < 1 ∧ 1 < len i ∧ JumpFits (Function.update len i 1) i k)
    have hlen : 1 ≤ len i := by
      rcases hfits with h | ⟨h, -⟩ | ⟨h, -⟩ <;> omega
    rcases Nat.eq_or_lt_of_le hlen with heq | hlt
    · exact Or.inl heq
    · refine Or.inr ⟨by omega, hlt, Or.inr (Or.inr ⟨Function.update_self .., ?_⟩)⟩
      exact behind_shorter (shorter_update hlen) (by omega) hbehind
  · rw [if_neg hbehind]
    rcases hfits with h3 | ⟨h2, hnear⟩ | ⟨-, h⟩
    · rw [if_pos h3]
      -- the address in the next round, should the line become one shorter
      have hnext : offset (Function.update len i 2) k =
          if offset len k > offset len i then offset len k-1 else offset len k := by
        rcases Nat.lt_or_ge i k with hlt | hle
        · have hmove := offset_update_of_lt len 2 hlt
          have hoff := offset_lt len hlt (by omega)
          rw [if_pos hoff]
          omega
        · have hoff := offset_le len hle
          rw [if_neg (by omega)]
          exact offset_update_of_le len 2 hle
      have hip : u16 (offset len i+2) = offset len i+2 := u16_of_lt (by omega)
      have hend' := offset_update_of_lt len 2 (Nat.lt_succ_self i)
      rw [Nat.succ_eq_add_one] at hend'
      dsimp only
      rw [hip, ← hnext]
      have hpromise : Near (offset (Function.update len i 2) k) (offset len i+2) →
          ∃ code, Except.ok (nopCode++nopCode) = (Except.ok code : Except Stop (List UInt8)) ∧
            (code.length = len i ∨ (0 < code.length ∧ code.length < len i ∧
              JumpFits (Function.update len i code.length) i k)) := by
        intro hnear
        refine ⟨_, rfl, Or.inr ⟨by decide, ?_, Or.inr (Or.inl ⟨Function.update_self .., ?_⟩)⟩⟩
        · change 2 < len i
          omega
        · change Near _ (offset (Function.update len i 2) (i+1))
          rwa [show offset (Function.update len i 2) (i+1) = offset len i+2 by omega]
      have hset16 : ∃ code, Except.ok (bytecodeInstructionCreateMiscSet16 BytecodeRegisterIP
            (UInt16.ofNat (offset len k))) = (Except.ok code : Except Stop (List UInt8)) ∧
            (code.length = len i ∨ (0 < code.length ∧ code.length < len i ∧
              JumpFits (Function.update len i code.length) i k)) := ⟨_, rfl, Or.inl h3.symm⟩
      split_ifs with h256 hgt hup hlt hdown
      · exact hpromise (Or.inl h256)
      · exact hpromise (Or.inr ⟨by omega, by omega⟩)
      · exact hset16
      · exact hpromise (Or.inr ⟨by omega, by omega⟩)
      · exact hset16
      · -- then the label would be right behind the line
        have heq : offset (Function.update len i 2) k = offset len i+2 := by omega
        rw [hnext] at heq
        split_ifs at heq <;> omega
    · rw [if_neg (by omega), if_pos h2]
      rcases Nat.lt_or_ge (offset len k) 256 with h256 | h256
      · rw [if_pos h256]
        exact ⟨_, rfl, Or.inl h2.symm⟩
      · have hip : u16 (offset len (i+1)) = offset len (i+1) := u16_of_lt hfit
        obtain ⟨hup, hdown⟩ := hnear.resolve_left (by omega)
        dsimp only
        rw [if_neg (by omega), hip]
        rcases Nat.lt_trichotomy (offset len k) (offset len (i+1)) with hlt | heq | hgt
        · rw [if_neg (by omega), if_pos hlt, if_pos (by omega)]
          exact ⟨_, rfl, Or.inl h2.symm⟩
        · exact absurd heq hbehind
        · rw [if_pos hgt, if_pos (by omega)]
          exact ⟨_, rfl, Or.inl h2.symm⟩
    · exact absurd h hbehind

end Jumps

/-! ### Addresses -/

theorem codeOffset_eq (len : ℕ → ℕ) (i : ℕ) : codeOffset len i = offset len i := Nat.zero_add _

/-- The layout that lengths give. -/
def laid (program : AssemblerProgram) (len : ℕ → ℕ) : Layout :=
  assemblerProgramCalculateMachineCodeOffsets program
    { machineCode := fun _ => []
      machineCodeLen := len
      machineCodeOffset := fun _ => 0
      ramOffset := fun _ => 0
      stackRamOffset := 0 }

/-- The code ends below 64 KB, and so does the data that defines point to. -/
structure Fits (program : AssemblerProgram) (len : ℕ → ℕ) : Prop where
  code : offset len program.instructions.length < 65536
  defines : ∀ symbol j o, definePlace program.instructions symbol = some (j, o) →
    offset len j+o < 65536

section Addresses

variable {program : AssemblerProgram} {len len' : ℕ → ℕ}

theorem fits_shorter (h : Shorter len' len) (hfits : Fits program len) : Fits program len' := by
  refine ⟨?_, ?_⟩
  · have hcode := hfits.code
    have hle := offset_shorter h program.instructions.length
    omega
  · intro symbol j o hplace
    have hdefine := hfits.defines symbol j o hplace
    have hle := offset_shorter h j
    omega

theorem laid_offset (hfits : Fits program len) {i : ℕ} (hi : i ≤ program.instructions.length) :
    (laid program len).machineCodeOffset i = offset len i := by
  have hcode := hfits.code
  have hle := offset_le len hi
  change u16 (codeOffset len i) = offset len i
  rw [codeOffset_eq, u16_of_lt (by omega)]

theorem labelIndex_lt {addr : CStr} {k : ℕ}
    (h : assemblerGetLabelSymbolInstructionIndex program.instructions addr = some k) :
    k < program.instructions.length := by
  rw [assemblerGetLabelSymbolInstructionIndex, List.findIdx?_eq_some_iff_findIdx_eq] at h
  exact h.1

theorem labelAddr_laid (hfits : Fits program len) {addr : CStr} {k : ℕ}
    (h : assemblerGetLabelSymbolInstructionIndex program.instructions addr = some k) :
    assemblerGetLabelSymbolAddr program.instructions (laid program len) addr =
      some (offset len k) := by
  rw [assemblerGetLabelSymbolAddr, h, Option.map_some,
    laid_offset hfits (Nat.le_of_lt (labelIndex_lt h))]

theorem labelAddr_none {layout : Layout} {addr : CStr}
    (h : assemblerGetLabelSymbolInstructionIndex program.instructions addr = none) :
    assemblerGetLabelSymbolAddr program.instructions layout addr = none := by
  rw [assemblerGetLabelSymbolAddr, h]
  rfl

/-- The address of a label does not grow. -/
theorem labelAddr_shorter (h : Shorter len' len) (hfits : Fits program len) {label : CStr}
    {addr' : ℕ} (haddr : assemblerGetLabelSymbolAddr program.instructions (laid program len') label =
      some addr') :
    ∃ addr, assemblerGetLabelSymbolAddr program.instructions (laid program len) label = some addr ∧
      addr' ≤ addr ∧ addr < 65536 := by
  cases hk : assemblerGetLabelSymbolInstructionIndex program.instructions label with
  | none =>
    rw [labelAddr_none hk] at haddr
    cases haddr
  | some k =>
    rw [labelAddr_laid (fits_shorter h hfits) hk] at haddr
    have hcode := hfits.code
    have hle := offset_le len (Nat.le_of_lt (labelIndex_lt hk))
    refine ⟨_, labelAddr_laid hfits hk, ?_, by omega⟩
    rw [← Option.some.inj haddr]
    exact offset_shorter h k

theorem defineAddr_shorter (h : Shorter len' len) (hfits : Fits program len) {symbol : CStr}
    {addr' : ℕ} (haddr : assemblerGetDefineSymbolAddr program.instructions (laid program len')
      symbol = some addr') :
    ∃ addr, assemblerGetDefineSymbolAddr program.instructions (laid program len) symbol =
      some addr ∧ addr' ≤ addr ∧ addr < 65536 := by
  cases hplace : definePlace program.instructions symbol with
  | none =>
    rw [assemblerGetDefineSymbolAddr, hplace] at haddr
    cases haddr
  | some place =>
    obtain ⟨j, o⟩ := place
    have hdefine := hfits.defines symbol j o hplace
    have hoff := offset_shorter h j
    have hoff' : (laid program len').machineCodeOffset j = offset len' j := by
      change u16 (codeOffset len' j) = _
      rw [codeOffset_eq, u16_of_lt (by omega)]
    have hat : (laid program len).machineCodeOffset j = offset len j := by
      change u16 (codeOffset len j) = _
      rw [codeOffset_eq, u16_of_lt (by omega)]
    rw [assemblerGetDefineSymbolAddr, hplace, Option.map_some, hoff'] at haddr
    refine ⟨offset len j+o, ?_, ?_, hdefine⟩
    · rw [assemblerGetDefineSymbolAddr, hplace, Option.map_some, hat]
    · rw [← Option.some.inj haddr]
      omega

theorem constValue_lt {symbol : CStr} {value : ℕ}
    (h : assemblerGetConstSymbolValue program.instructions symbol = some value) :
    value < 65536 := by
  obtain ⟨instruction, -, hvalue⟩ := List.exists_of_findSome?_eq_some h
  split at hvalue
  · split at hvalue
    · rw [← Option.some.inj hvalue]
      exact UInt16.toNat_lt _
    · cases hvalue
  · cases hvalue

/-- What a symbol stands for does not grow. -/
theorem movValue_shorter (h : Shorter len' len) (hfits : Fits program len) {src : CStr}
    {value' : ℕ} (hvalue : movValue program (laid program len') src = .ok value') :
    ∃ value, movValue program (laid program len) src = .ok value ∧ value' ≤ value ∧
      value < 65536 := by
  have hram : assemblerGetAllocationSymbolAddr program.instructions (laid program len') src =
      assemblerGetAllocationSymbolAddr program.instructions (laid program len) src := rfl
  rw [movValue, hram] at hvalue
  rw [movValue]
  have hdefineNone : assemblerGetDefineSymbolAddr program.instructions (laid program len') src =
      none → assemblerGetDefineSymbolAddr program.instructions (laid program len) src = none := by
    intro hnone
    rw [assemblerGetDefineSymbolAddr, Option.map_eq_none_iff] at hnone ⊢
    exact hnone
  have hlabelNone : assemblerGetLabelSymbolAddr program.instructions (laid program len') src =
      none → assemblerGetLabelSymbolAddr program.instructions (laid program len) src = none := by
    intro hnone
    rw [assemblerGetLabelSymbolAddr, Option.map_eq_none_iff] at hnone ⊢
    exact hnone
  split at hvalue
  · rename_i hdefine
    obtain ⟨addr, haddr, hle, hlt⟩ := defineAddr_shorter h hfits hdefine
    cases hvalue
    exact ⟨addr, by rw [haddr], hle, hlt⟩
  · rename_i hdefine hallocation
    cases hvalue
    refine ⟨_, by rw [hdefineNone hdefine, hallocation], Nat.le_refl _, ?_⟩
    rw [assemblerGetAllocationSymbolAddr, Option.map_eq_some_iff] at hallocation
    obtain ⟨j, -, hj⟩ := hallocation
    rw [← hj]
    exact u16_lt _
  · rename_i hdefine hallocation hlabel
    obtain ⟨addr, haddr, hle, hlt⟩ := labelAddr_shorter h hfits hlabel
    cases hvalue
    exact ⟨addr, by rw [hdefineNone hdefine, hallocation, haddr], hle, hlt⟩
  · rename_i hdefine hallocation hlabel hconst
    cases hvalue
    exact ⟨_, by rw [hdefineNone hdefine, hallocation, hlabelNone hlabel, hconst],
      Nat.le_refl _, constValue_lt hconst⟩
  · cases hvalue

end Addresses

/-! ### Promises -/

/-- What holds of the length of a line from the first round on. -/
def Promised (program : AssemblerProgram) (len : ℕ → ℕ) (i : ℕ)
    (instruction : AssemblerInstruction) : Prop :=
  match instruction.type with
  | .define d => len i = if d.pointerLineIndex = instruction.lineIndex then d.data.length else 0
  | .jmp addr => ∀ k, assemblerGetLabelSymbolInstructionIndex program.instructions addr = some k →
      JumpFits len i k
  | _ => ∀ code, instructionCode program (laid program len) i instruction = .ok code →
      code.length ≤ len i

def AllPromised (program : AssemblerProgram) (len : ℕ → ℕ) : Prop :=
  ∀ i instruction, program.instructions[i]? = some instruction → Promised program len i instruction

section Promises

variable {program : AssemblerProgram} {len len' : ℕ → ℕ} {i : ℕ}
  {instruction : AssemblerInstruction}

theorem ofNat16_le {a b : ℕ} (h : a ≤ b) (hb : b < 65536) :
    (UInt16.ofNat a).toNat ≤ (UInt16.ofNat b).toNat := by
  rw [UInt16.toNat_ofNat', UInt16.toNat_ofNat', Nat.mod_eq_of_lt (by omega),
    Nat.mod_eq_of_lt (by omega)]
  exact h

theorem sourceNumber_shorter (h : Shorter len' len) (hfits : Fits program len) {src : CStr}
    {value' : ℕ} (hvalue : sourceNumber program (laid program len') src = some value') :
    ∃ value, sourceNumber program (laid program len) src = some value ∧
      (UInt16.ofNat value').toNat ≤ (UInt16.ofNat value).toNat := by
  rw [sourceNumber] at hvalue ⊢
  split at hvalue
  · rename_i hdigit
    exact ⟨value', by rw [if_pos hdigit, hvalue], Nat.le_refl _⟩
  · rename_i hdigit
    rw [if_neg hdigit]
    split at hvalue
    · cases hvalue
    · rename_i hreg
      rw [if_neg hreg]
      split at hvalue
      · rename_i hchar
        exact ⟨value', by rw [if_pos hchar, hvalue], Nat.le_refl _⟩
      · rename_i hchar
        rw [if_neg hchar]
        cases hmov : movValue program (laid program len') src with
        | error stop =>
          rw [hmov] at hvalue
          cases hvalue
        | ok value =>
          rw [hmov] at hvalue
          cases hvalue
          obtain ⟨value, hok, hle, hlt⟩ := movValue_shorter h hfits hmov
          exact ⟨value, by rw [hok]; rfl, ofNat16_le hle hlt⟩

theorem movCode_shorter (h : Shorter len' len) (hfits : Fits program len) {dest src : CStr}
    {code' : List UInt8} (hcode : movCode program (laid program len') dest src = .ok code') :
    ∃ code, movCode program (laid program len) dest src = .ok code ∧
      code'.length ≤ code.length := by
  obtain ⟨destReg, hdest, ⟨hdigit, srcReg, hsrc, rfl⟩ | ⟨value', hvalue', rfl⟩⟩ := movCode_ok hcode
  · exact ⟨_, movCode_of_register hdest hdigit hsrc, Nat.le_refl _⟩
  · obtain ⟨value, hvalue, hle⟩ := sourceNumber_shorter h hfits hvalue'
    refine ⟨_, movCode_of_number hdest hvalue, ?_⟩
    rw [createSet_length, createSet_length]
    exact setLength_mono _ hle

theorem callCode_shorter (h : Shorter len' len) (hfits : Fits program len) {label : CStr}
    {code' : List UInt8} (hcode : callCode program (laid program len') label = .ok code') :
    ∃ code, callCode program (laid program len) label = .ok code ∧
      code'.length ≤ code.length := by
  obtain ⟨addr', haddr', rfl⟩ := callCode_ok hcode
  obtain ⟨addr, haddr, hle, hlt⟩ := labelAddr_shorter h hfits haddr'
  refine ⟨bytecodeInstructionCreateSet BytecodeRegisterS (UInt16.ofNat addr)++
    bytecodeInstructionCreateAlu .extra BytecodeRegisterS BytecodeRegisterSP (extraCode .call),
    by rw [callCode, haddr], ?_⟩
  rw [List.length_append, List.length_append, createSet_length, createSet_length]
  have hset := setLength_mono (some BytecodeRegisterS) (ofNat16_le hle hlt)
  omega

/-- Nothing but a jump becomes longer when the lines become shorter. -/
theorem code_shorter (h : Shorter len' len) (hfits : Fits program len)
    (hjmp : ∀ addr, instruction.type ≠ .jmp addr) {code' : List UInt8}
    (hcode : instructionCode program (laid program len') i instruction = .ok code') :
    ∃ code, instructionCode program (laid program len) i instruction = .ok code ∧
      code'.length ≤ code.length := by
  obtain ⟨lineIndex, type⟩ := instruction
  cases type with
  | jmp addr => exact absurd rfl (hjmp addr)
  | mov dest src => exact movCode_shorter h hfits hcode
  | call label =>
    rw [instructionCode] at hcode ⊢
    dsimp only at hcode ⊢
    split at hcode
    · cases hcode
    · split at hcode
      · cases hcode
      · rename_i hscratch hstack
        rw [if_neg hscratch, if_neg hstack]
        exact callCode_shorter h hfits hcode
  | _ => exact ⟨code', hcode, Nat.le_refl _⟩

theorem promised_shorter (h : Shorter len' len) (hsame : len' i = len i)
    (hfits : Fits program len) (hpromised : Promised program len i instruction) :
    Promised program len' i instruction := by
  unfold Promised at hpromised ⊢
  split
  · rename_i d htype
    rw [htype] at hpromised
    rw [hsame]
    exact hpromised
  · rename_i addr htype
    rw [htype] at hpromised
    exact fun k hk => jumpFits_shorter h hsame (hpromised k hk)
  · rename_i hdefine hjmp
    intro code' hcode'
    obtain ⟨code, hcode, hle⟩ := code_shorter h hfits hjmp hcode'
    have hlen : code.length ≤ len i := by
      split at hpromised
      · exact absurd ‹_› (hdefine _)
      · exact absurd ‹_› (hjmp _)
      · exact hpromised code hcode
    omega

/-- The code of a line is as long as promised, or it is shorter and promises again. -/
theorem line_round (hfits : Fits program len) (hi : program.instructions[i]? = some instruction)
    (hpromised : Promised program len i instruction) {code : List UInt8}
    (hcode : instructionCode program (laid program len) i instruction = .ok code) :
    code.length = len i ∨ (instruction.type.isDefine = false ∧ code.length < len i ∧
      Promised program (Function.update len i code.length) i instruction) := by
  obtain ⟨lineIndex, type⟩ := instruction
  have hlt := (List.getElem?_eq_some_iff.mp hi).1
  by_cases hdefine : ∃ d, type = .define d
  · obtain ⟨d, rfl⟩ := hdefine
    left
    change len i = if d.pointerLineIndex = lineIndex then d.data.length else 0 at hpromised
    cases hcode
    rw [hpromised]
    split <;> rfl
  · have hnot : (AssemblerInstruction.mk lineIndex type).type.isDefine = false := by
      cases type with
      | define d => exact absurd ⟨d, rfl⟩ hdefine
      | _ => rfl
    by_cases hjmp : ∃ addr, type = .jmp addr
    · obtain ⟨addr, rfl⟩ := hjmp
      rw [instructionCode] at hcode
      dsimp only at hcode
      cases hk : assemblerGetLabelSymbolInstructionIndex program.instructions addr with
      | none =>
        rw [labelAddr_none hk] at hcode
        cases hcode
      | some k =>
        have hend : offset len (i+1) < 65536 :=
          Nat.lt_of_le_of_lt (offset_le len (by omega)) hfits.code
        have hjump : jmpCode (offset len k) (offset len i) (len i) = .ok code := by
          rw [labelAddr_laid hfits hk, laid_offset hfits (Nat.le_of_lt hlt)] at hcode
          exact hcode
        obtain ⟨code', hcode', hlen⟩ := jmpCode_of_fits (hpromised k hk) hend
        rw [hjump] at hcode'
        cases hcode'
        rcases hlen with hlen | ⟨-, hshort, hfit⟩
        · exact Or.inl hlen
        · refine Or.inr ⟨hnot, hshort, ?_⟩
          intro k' hk'
          rw [hk] at hk'
          cases hk'
          exact hfit
    · have hother : ∀ code', instructionCode program (laid program len) i ⟨lineIndex, type⟩ =
          .ok code' → code'.length ≤ len i := by
        unfold Promised at hpromised
        split at hpromised
        · exact absurd ⟨_, ‹_›⟩ hdefine
        · exact absurd ⟨_, ‹_›⟩ hjmp
        · exact hpromised
      rcases Nat.eq_or_lt_of_le (hother code hcode) with heq | hshort
      · exact Or.inl heq
      · refine Or.inr ⟨hnot, hshort, ?_⟩
        have hshorter := shorter_update (Nat.le_of_lt hshort)
        unfold Promised
        split
        · exact absurd ⟨_, ‹_›⟩ hdefine
        · exact absurd ⟨_, ‹_›⟩ hjmp
        · rename_i hjmp'
          intro code' hcode'
          obtain ⟨code₀, hcode₀, hle⟩ := code_shorter hshorter hfits hjmp' hcode'
          rw [hcode] at hcode₀
          cases hcode₀
          rw [Function.update_self]
          exact hle

/-- A change of one line leaves the promises of the others. -/
theorem allPromised_update (hfits : Fits program len) (hall : AllPromised program len) {v : ℕ}
    (hi : program.instructions[i]? = some instruction) (hv : v ≤ len i)
    (hline : Promised program (Function.update len i v) i instruction) :
    AllPromised program (Function.update len i v) := by
  intro j instruction' hj
  by_cases hji : j = i
  · rw [hji] at hj ⊢
    rw [hi] at hj
    cases hj
    exact hline
  · exact promised_shorter (shorter_update hv) (Function.update_of_ne hji _ _) hfits
      (hall j instruction' hj)

end Promises

/-! ### Rounds -/

/-- The fields that the code depends on are those that the lengths give. -/
structure Laid (program : AssemblerProgram) (len : ℕ → ℕ) (layout : Layout) : Prop where
  machineCodeLen : layout.machineCodeLen = len
  machineCodeOffset : layout.machineCodeOffset = (laid program len).machineCodeOffset
  ramOffset : layout.ramOffset = (laid program len).ramOffset
  stackRamOffset : layout.stackRamOffset = (laid program len).stackRamOffset

theorem instructionCode_congr (program : AssemblerProgram) {layout layout' : Layout}
    (hlen : layout.machineCodeLen = layout'.machineCodeLen)
    (hoffset : layout.machineCodeOffset = layout'.machineCodeOffset)
    (hram : layout.ramOffset = layout'.ramOffset) :
    instructionCode program layout = instructionCode program layout' := by
  cases layout
  cases layout'
  subst hlen hoffset hram
  rfl

theorem laid_code {program : AssemblerProgram} {len : ℕ → ℕ} {layout : Layout}
    (h : Laid program len layout) :
    instructionCode program layout = instructionCode program (laid program len) :=
  instructionCode_congr program h.machineCodeLen h.machineCodeOffset h.ramOffset

/-- Every line has its code, which is as long as its length. -/
structure Settled (program : AssemblerProgram) (layout : Layout) : Prop where
  laid : Laid program layout.machineCodeLen layout
  code : ∀ i instruction, program.instructions[i]? = some instruction →
    instructionCode program layout i instruction = .ok (layout.machineCode i)
  length : ∀ i < program.instructions.length,
    (layout.machineCode i).length = layout.machineCodeLen i

/-- What a round leaves when it comes to this line. -/
def SettledTo (program : AssemblerProgram) (len : ℕ → ℕ) (i : ℕ) (layout : Layout) : Prop :=
  ∀ j < i, ∀ instruction, program.instructions[j]? = some instruction →
    instructionCode program (Generation.laid program len) j instruction =
        .ok (layout.machineCode j) ∧
      (layout.machineCode j).length = len j

/-- What the loop of a round comes to. -/
def RoundEnds (program : AssemblerProgram) (len : ℕ → ℕ) :
    Except Stop (Layout × Bool) → Prop
  | .error stop => Blamed program stop
  | .ok (layout, true) => ∃ i < program.instructions.length, ∃ v < len i,
      layout.machineCodeLen = Function.update len i v ∧
      AllPromised program (Function.update len i v)
  | .ok (layout, false) => Laid program len layout ∧
      SettledTo program len program.instructions.length layout

section Rounds

variable {program : AssemblerProgram} {len : ℕ → ℕ}

theorem instructionCode_error {layout : Layout} {i : ℕ} {instruction : AssemblerInstruction}
    (hi : program.instructions[i]? = some instruction) (hfits : Fits program len)
    (hlaid : Laid program len layout) (hpromised : Promised program len i instruction) {stop : Stop}
    (h : instructionCode program layout i instruction = .error stop) : Blamed program stop := by
  obtain ⟨lineIndex, type⟩ := instruction
  have hlt := (List.getElem?_eq_some_iff.mp hi).1
  cases type with
  | mov dest src => exact Or.inl (movCode_error h)
  | alu d => exact aluCode_error hi h
  | store8 => exact Or.inl (registersCode_error h)
  | load8 => exact Or.inl (registersCode_error h)
  | xchg8 => exact Or.inl (registersCode_error h)
  | clz => exact Or.inl (registersCode_error h)
  | push8 src =>
    rw [instructionCode] at h
    dsimp only at h
    split at h
    · exact Or.inl (Except.error.inj h).symm
    · exact Or.inl (pushCode_error h)
  | pop8 dest =>
    rw [instructionCode] at h
    dsimp only at h
    split at h
    · exact Or.inl (Except.error.inj h).symm
    · exact Or.inl (popCode_error h)
  | ret =>
    rw [instructionCode] at h
    dsimp only at h
    split at h
    · exact Or.inl (Except.error.inj h).symm
    · cases h
  | call label =>
    rw [instructionCode] at h
    dsimp only at h
    split at h
    · exact Or.inl (Except.error.inj h).symm
    · split at h
      · exact Or.inl (Except.error.inj h).symm
      · rw [callCode] at h
        split at h
        · exact Or.inl (Except.error.inj h).symm
        · cases h
  | jmp addr =>
    rw [laid_code hlaid, instructionCode] at h
    dsimp only at h
    cases hk : assemblerGetLabelSymbolInstructionIndex program.instructions addr with
    | none =>
      rw [labelAddr_none hk] at h
      exact Or.inl (Except.error.inj h).symm
    | some k =>
      have hend : offset len (i+1) < 65536 :=
        Nat.lt_of_le_of_lt (offset_le len (by omega)) hfits.code
      obtain ⟨code, hcode, -⟩ := jmpCode_of_fits (hpromised k hk) hend
      rw [labelAddr_laid hfits hk, laid_offset hfits (Nat.le_of_lt hlt)] at h
      change jmpCode (offset len k) (offset len i) (len i) = _ at h
      rw [hcode] at h
      cases h
  | _ => cases h

/-- The loop over the lines, from one of them on. -/
theorem generateFrom_ends (hfits : Fits program len) (hall : AllPromised program len)
    (rest : List AssemblerInstruction) (i : ℕ) (hrest : program.instructions.drop i = rest)
    (hi : i ≤ program.instructions.length) (layout : Layout) (hlaid : Laid program len layout)
    (hsettled : SettledTo program len i layout) :
    RoundEnds program len (generateFrom program layout i rest) := by
  induction rest generalizing i layout with
  | nil =>
    have hlen := List.drop_eq_nil_iff.mp hrest
    have heq : i = program.instructions.length := by omega
    rw [heq] at hsettled
    exact ⟨hlaid, hsettled⟩
  | cons instruction rest ih =>
    have hlt : i < program.instructions.length := by
      by_contra hge
      rw [List.drop_of_length_le (by omega)] at hrest
      cases hrest
    have hat : program.instructions[i]? = some instruction := by
      rw [List.drop_eq_getElem_cons hlt] at hrest
      rw [List.getElem?_eq_getElem hlt, (List.cons.inj hrest).1]
    have hdrop : program.instructions.drop (i+1) = rest := by
      rw [List.drop_eq_getElem_cons hlt] at hrest
      exact (List.cons.inj hrest).2
    have hpromised := hall i instruction hat
    rw [generateFrom]
    cases hcode : instructionCode program layout i instruction with
    | error stop => exact instructionCode_error hat hfits hlaid hpromised hcode
    | ok code =>
      dsimp only [bind, Except.bind]
      have hlaidCode : instructionCode program (laid program len) i instruction = .ok code := by
        rw [← laid_code hlaid]
        exact hcode
      have hround := line_round hfits hat hpromised hlaidCode
      rw [hlaid.machineCodeLen]
      have hnext : code.length = len i → RoundEnds program len
          (generateFrom program { layout with
            machineCode := Function.update layout.machineCode i code
            machineCodeLen := len } (i+1) rest) := by
        intro hlen
        refine ih (i+1) hdrop (by omega) _ ?_ ?_
        · exact ⟨rfl, hlaid.machineCodeOffset, hlaid.ramOffset, hlaid.stackRamOffset⟩
        · intro j hj instruction' hj'
          dsimp only
          by_cases hji : j = i
          · rw [hji] at hj' ⊢
            rw [hat] at hj'
            cases hj'
            rw [Function.update_self]
            exact ⟨hlaidCode, hlen⟩
          · rw [Function.update_of_ne hji]
            exact hsettled j (by omega) instruction' hj'
      split
      · rename_i hchange
        obtain ⟨-, hdefine, hlen⟩ := hchange
        obtain ⟨builts, hemits, -⟩ := instructionCode_emits hdefine hcode
        rw [actualLength_emits hemits] at hlen ⊢
        obtain ⟨-, hshort, hagain⟩ := hround.resolve_left hlen
        rw [if_pos hshort]
        exact ⟨i, hlt, code.length, hshort, rfl,
          allPromised_update hfits hall hat (Nat.le_of_lt hshort) hagain⟩
      · rename_i hsame
        apply hnext
        rcases hround with hlen | ⟨hdefine, hshort, -⟩
        · exact hlen
        · obtain ⟨builts, hemits, -⟩ := instructionCode_emits hdefine hcode
          rw [actualLength_emits hemits] at hsame
          by_contra hne
          exact hsame ⟨by omega, hdefine, hne⟩

end Rounds

/-! ### The first lengths -/

section First

variable {program : AssemblerProgram} {len : ℕ → ℕ} {i : ℕ} {instruction : AssemblerInstruction}

theorem mapM_getD {α : Type} (f : α → Except Stop ℕ) (xs : List α) {ys : List ℕ}
    (h : xs.mapM f = .ok ys) (i : ℕ) {x : α} (hx : xs[i]? = some x) : f x = .ok (ys.getD i 0) := by
  induction xs generalizing ys i with
  | nil => cases hx
  | cons a xs ih =>
    rw [List.mapM_cons] at h
    cases hfirst : f a with
    | error stop =>
      rw [hfirst] at h
      cases h
    | ok y =>
      rw [hfirst] at h
      cases hrest : xs.mapM f with
      | error stop =>
        rw [hrest] at h
        cases h
      | ok zs =>
        rw [hrest] at h
        cases h
        cases i with
        | zero =>
          cases hx
          exact hfirst
        | succ i => exact ih hrest i hx

theorem mapM_error {α : Type} (f : α → Except Stop ℕ) (xs : List α) {stop : Stop}
    (h : xs.mapM f = .error stop) : ∃ x ∈ xs, f x = .error stop := by
  induction xs with
  | nil => cases h
  | cons a xs ih =>
    rw [List.mapM_cons] at h
    cases hfirst : f a with
    | error stop' =>
      rw [hfirst] at h
      cases h
      exact ⟨a, List.mem_cons_self, hfirst⟩
    | ok y =>
      rw [hfirst] at h
      cases hrest : xs.mapM f with
      | error stop' =>
        rw [hrest] at h
        cases h
        obtain ⟨x, hx, hfx⟩ := ih hrest
        exact ⟨x, List.mem_cons_of_mem a hx, hfx⟩
      | ok zs =>
        rw [hrest] at h
        cases h

theorem initialLength_error {stop : Stop} (h : initialLength program instruction = .error stop) :
    stop = .rejected := by
  obtain ⟨lineIndex, type⟩ := instruction
  cases type with
  | mov dest src =>
    change movInitialLength program dest src = _ at h
    rw [movInitialLength] at h
    split_ifs at h
    · exact (Except.error.inj h).symm
    · split at h
      · cases h
      · exact (Except.error.inj h).symm
  | _ => cases h

theorem ofNat16_toNat_le (value : ℕ) : (UInt16.ofNat value).toNat ≤ value := by
  rw [UInt16.toNat_ofNat']
  exact Nat.mod_le _ _

/-- A symbol that has a place has no value that is a constant's. -/
theorem movValue_const {layout : Layout} {src : CStr} {value : ℕ}
    (hdefine : definePlace program.instructions src = none)
    (hallocation : assemblerGetAllocationSymbolInstructionIndex program.instructions src = none)
    (hlabel : assemblerGetLabelSymbolInstructionIndex program.instructions src = none)
    (h : movValue program layout src = .ok value) :
    assemblerGetConstSymbolValue program.instructions src = some value := by
  rw [movValue, assemblerGetDefineSymbolAddr, hdefine, assemblerGetAllocationSymbolAddr,
    hallocation, labelAddr_none hlabel] at h
  dsimp only [Option.map_none] at h
  split at h
  · rename_i heq
    cases heq
  · rename_i heq
    cases heq
  · rename_i heq
    cases heq
  · rename_i hconst
    rw [hconst, Except.ok.inj h]
  · cases h

theorem movInitial_promised {dest src : CStr} (h : movInitialLength program dest src = .ok (len i))
    {layout : Layout} {code : List UInt8} (hcode : movCode program layout dest src = .ok code) :
    code.length ≤ len i := by
  obtain ⟨destReg, hdest, ⟨hdigit, srcReg, hsrc, rfl⟩ | ⟨value, hvalue, rfl⟩⟩ := movCode_ok hcode
  · rw [movInitialLength, if_neg (by simp [hdigit]), hsrc, if_pos Option.isSome_some] at h
    rw [← Except.ok.inj h]
    exact Nat.le_refl 2
  · have hle := setLength_mono (some destReg) (ofNat16_toNat_le value)
    have hthree := setLength_le_three (some destReg) (UInt16.ofNat value).toNat
    rw [createSet_length]
    rw [movInitialLength, hdest] at h
    rw [sourceNumber] at hvalue
    split at hvalue
    · rename_i hdigit
      rw [if_pos hdigit, Option.some.inj hvalue] at h
      rw [← Except.ok.inj h]
      exact hle
    · rename_i hdigit
      rw [if_neg hdigit] at h
      split at hvalue
      · cases hvalue
      · rename_i hreg
        rw [if_neg hreg] at h
        split at hvalue
        · rename_i hchar
          rw [if_pos hchar] at h
          split at h
          · have hbyte := (characterValue src).toNat_lt
            rw [Option.some.inj hvalue] at hbyte
            rw [← Except.ok.inj h]
            have hsmall : setLength (some destReg) value ≤ 2 := by
              unfold setLength
              split_ifs <;> omega
            omega
          · cases h
        · rename_i hchar
          rw [if_neg hchar] at h
          split_ifs at h with hdefine hallocation hlabel
          · rw [← Except.ok.inj h]
            exact hthree
          · rw [← Except.ok.inj h]
            exact hthree
          · rw [← Except.ok.inj h]
            exact hthree
          · cases hmov : movValue program layout src with
            | error stop =>
              rw [hmov] at hvalue
              cases hvalue
            | ok value' =>
              rw [hmov] at hvalue
              cases hvalue
              rw [movValue_const (by simpa using hdefine) (by simpa using hallocation)
                (by simpa using hlabel) hmov] at h
              rw [← Except.ok.inj h]
              exact hle

theorem initial_promised (h : initialLength program instruction = .ok (len i)) :
    Promised program len i instruction := by
  obtain ⟨lineIndex, type⟩ := instruction
  cases type with
  | define d => exact (Except.ok.inj h).symm
  | jmp addr => exact fun k _ => Or.inl (Except.ok.inj h).symm
  | mov dest src => exact fun code hcode => movInitial_promised h hcode
  | alu d =>
    intro code hcode
    obtain ⟨destReg, opAReg, opBReg, rfl⟩ := aluCode_ok hcode
    rw [← Except.ok.inj h]
    exact Nat.le_refl 2
  | push8 src =>
    intro code hcode
    rw [instructionCode] at hcode
    dsimp only at hcode
    split at hcode
    · cases hcode
    · obtain ⟨srcReg, -, rfl⟩ := pushCode_ok hcode
      rw [← Except.ok.inj h]
      exact Nat.le_refl 3
  | pop8 dest =>
    intro code hcode
    rw [instructionCode] at hcode
    dsimp only at hcode
    split at hcode
    · cases hcode
    · obtain ⟨destReg, -, rfl⟩ := popCode_ok hcode
      rw [← Except.ok.inj h]
      exact Nat.le_refl 3
  | ret =>
    intro code hcode
    rw [instructionCode] at hcode
    dsimp only at hcode
    split at hcode
    · cases hcode
    · cases hcode
      rw [← Except.ok.inj h]
      exact Nat.le_refl 2
  | call label =>
    intro code hcode
    rw [instructionCode] at hcode
    dsimp only at hcode
    split at hcode
    · cases hcode
    · split at hcode
      · cases hcode
      · obtain ⟨addr, -, rfl⟩ := callCode_ok hcode
        have hthree := setLength_le_three (some BytecodeRegisterS) (UInt16.ofNat addr).toNat
        rw [← Except.ok.inj h, List.length_append, createSet_length]
        change _+2 ≤ 5
        omega
  | store8 dest src =>
    intro code hcode
    obtain ⟨first, second, -, -, rfl⟩ := registersCode_ok hcode
    rw [← Except.ok.inj h]
    exact Nat.le_refl 1
  | load8 dest src =>
    intro code hcode
    obtain ⟨first, second, -, -, rfl⟩ := registersCode_ok hcode
    rw [← Except.ok.inj h]
    exact Nat.le_refl 1
  | xchg8 addrReg srcDestReg =>
    intro code hcode
    obtain ⟨first, second, -, -, rfl⟩ := registersCode_ok hcode
    rw [← Except.ok.inj h]
    exact Nat.le_refl 2
  | clz destReg srcReg =>
    intro code hcode
    obtain ⟨first, second, -, -, rfl⟩ := registersCode_ok hcode
    rw [← Except.ok.inj h]
    exact Nat.le_refl 2
  | _ =>
    intro code hcode
    cases hcode
    rw [← Except.ok.inj h]
    exact Nat.le_refl _

theorem initial_allPromised {lengths : List ℕ}
    (h : assemblerProgramCalculateInitialMachineCodeLengths program = .ok lengths) :
    AllPromised program (initialLayout lengths).machineCodeLen :=
  fun i _ hi => initial_promised (mapM_getD _ _ h i hi)

end First

end ArduinoOS.Assembler.Generation
