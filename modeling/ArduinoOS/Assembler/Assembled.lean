import ArduinoOS.Assembler.Relaxation
import ArduinoOS.Lib.Layout
import Mathlib.Data.List.TakeWhile

/-!
# Assembled programs

The rounds come to an end, the line that sets the stack pointer is as long as before,
and in the file that is written every instruction stands at its offset.
-/

set_option autoImplicit false

namespace ArduinoOS.Assembler.Generation
open ArduinoOS.Procman ArduinoOS.Relaxation

/-! ### Numbers in a line -/

theorem ofChar_digit {c : Char} (h : c.isDigit = true) :
    isDigit (CChar.ofChar c) = true ∧ (CChar.ofChar c).val.toNat = c.toNat := by
  have hrange : 48 ≤ c.toNat ∧ c.toNat ≤ 57 := by
    simp only [Char.isDigit, Bool.and_eq_true, decide_eq_true_eq] at h
    exact h
  have hbyte : (UInt8.ofNat c.toNat).toNat = c.toNat := by
    rw [UInt8.toNat_ofNat', Nat.mod_eq_of_lt (by omega)]
  have hne : UInt8.ofNat c.toNat ≠ 0 := by
    intro hzero
    rw [hzero] at hbyte
    change 0 = c.toNat at hbyte
    omega
  have hval : (CChar.ofChar c).val = UInt8.ofNat c.toNat := by
    rw [CChar.ofChar, dif_pos hne]
  refine ⟨?_, by rw [hval, hbyte]⟩
  rw [isDigit, hval, Bool.and_eq_true, decide_eq_true_eq, decide_eq_true_eq,
    UInt8.le_iff_toNat_le, UInt8.le_iff_toNat_le, hbyte]
  exact hrange

theorem digitsValue_digits (cs : List Char) (h : ∀ c ∈ cs, c.isDigit = true) :
    digitsValue (cs.map CChar.ofChar) = Nat.ofDigitChars 10 cs 0 := by
  have hall : (cs.map CChar.ofChar).takeWhile isDigit = cs.map CChar.ofChar := by
    rw [List.takeWhile_eq_self_iff]
    intro c' hc'
    obtain ⟨c, hc, rfl⟩ := List.mem_map.mp hc'
    exact (ofChar_digit (h c hc)).1
  have hfold : ∀ n : ℕ, (cs.map CChar.ofChar).foldl (fun n c => 10*n+(c.val.toNat-48)) n =
      Nat.ofDigitChars 10 cs n := by
    clear hall
    induction cs with
    | nil =>
      intro n
      rw [Nat.ofDigitChars_nil]
      rfl
    | cons c cs ih =>
      intro n
      rw [List.map_cons, List.foldl_cons, ih (fun c' hc' => h c' (List.mem_cons_of_mem c hc')),
        Nat.ofDigitChars_cons, (ofChar_digit (h c List.mem_cons_self)).2]
      rfl
  rw [digitsValue, hall]
  exact hfold 0

/-- A number is read as it is printed. -/
theorem atoi_formatUnsigned (n : ℕ) : atoi (formatUnsigned n) = n := by
  have hdigits : ∀ c ∈ Nat.toDigits 10 n, c.isDigit = true :=
    fun c hc => Nat.isDigit_of_mem_toDigits (by decide) (by decide) hc
  have hvalue := digitsValue_digits _ hdigits
  rw [Nat.ofDigitChars_ten_toDigits] at hvalue
  rw [formatUnsigned, atoi]
  cases hd : Nat.toDigits 10 n with
  | nil => exact absurd hd Nat.toDigits_ne_nil
  | cons c cs =>
    rw [hd] at hvalue hdigits
    obtain ⟨hdigit, -⟩ := ofChar_digit (hdigits c List.mem_cons_self)
    rw [isDigit, Bool.and_eq_true, decide_eq_true_eq, decide_eq_true_eq,
      UInt8.le_iff_toNat_le, UInt8.le_iff_toNat_le] at hdigit
    change 48 ≤ (CChar.ofChar c).val.toNat ∧ (CChar.ofChar c).val.toNat ≤ 57 at hdigit
    have hbyte : ∀ b : UInt8, (CChar.ofChar c).val = b → 48 ≤ b.toNat := fun b hb => hb ▸ hdigit.1
    have hspace : isSpace (CChar.ofChar c) = false := by
      rw [isSpace, Bool.or_eq_false_iff, Bool.and_eq_false_iff]
      refine ⟨beq_eq_false_iff_ne.mpr (fun hb => absurd (hbyte 32 hb) (by decide)), Or.inr ?_⟩
      rw [decide_eq_false_iff_not, UInt8.le_iff_toNat_le]
      change ¬ _ ≤ 13
      omega
    rw [List.map_cons, List.dropWhile_cons_of_neg (by simp [hspace])]
    dsimp only
    rw [if_neg (fun hb => absurd (hbyte 45 hb) (by decide)),
      if_neg (fun hb => absurd (hbyte 43 hb) (by decide)), ← List.map_cons, hvalue]

theorem formatUnsigned_startsWithDigit (n : ℕ) : startsWithDigit (formatUnsigned n) = true := by
  rw [formatUnsigned]
  cases hd : Nat.toDigits 10 n with
  | nil => exact absurd hd Nat.toDigits_ne_nil
  | cons c cs =>
    have hc := Nat.isDigit_of_mem_toDigits (b := 10) (n := n) (c := c) (by decide) (by decide)
      (by rw [hd]; exact List.mem_cons_self)
    exact (ofChar_digit hc).1

theorem integerValue_formatUnsigned {n : ℕ} (h : n < 4294967296) :
    integerValue (formatUnsigned n) = n := by
  rw [integerValue, atoi_formatUnsigned]
  omega

/-! ### The loop -/

section Loop

variable {program : AssemblerProgram}

/-- The offsets are computed, and then the code. -/
def generationRound (program : AssemblerProgram) (layout : Layout) : Except Stop (Layout × Bool) :=
  assemblerProgramGenerateMachineCode program
    (assemblerProgramCalculateMachineCodeOffsets program layout)

theorem generationLoop_eq (fuel : ℕ) (layout : Layout) :
    generationLoop program layout fuel = rounds (generationRound program) fuel layout := by
  induction fuel generalizing layout with
  | zero => rfl
  | succ fuel ih =>
    rw [generationLoop, rounds, generationRound]
    split
    · rename_i h
      rw [h]
    · rename_i h
      rw [h]
      exact ih _
    · rename_i h
      rw [h]

/-- The invariant of the rounds. -/
def RoundInv (program : AssemblerProgram) (layout : Layout) : Prop :=
  Fits program layout.machineCodeLen ∧ AllPromised program layout.machineCodeLen

def codeSize (program : AssemblerProgram) (layout : Layout) : ℕ :=
  offset layout.machineCodeLen program.instructions.length

/-- What the rounds leave. -/
def SettledBelow (program : AssemblerProgram) (layout : Layout) : Prop :=
  Settled program layout ∧ codeSize program layout < 65536

theorem generationRound_to (layout : Layout) (h : RoundInv program layout) :
    RoundTo (RoundInv program) (codeSize program) (Blamed program) (SettledBelow program) layout
      (generationRound program layout) := by
  obtain ⟨hfits, hall⟩ := h
  have hends := generateFrom_ends hfits hall program.instructions 0 (List.drop_zero ..)
    (Nat.zero_le _) (assemblerProgramCalculateMachineCodeOffsets program layout)
    ⟨rfl, rfl, rfl, rfl⟩ (fun j hj => absurd hj (Nat.not_lt_zero j))
  change RoundEnds program layout.machineCodeLen (generationRound program layout) at hends
  cases hround : generationRound program layout with
  | error stop =>
    rw [hround] at hends
    exact hends
  | ok result =>
    obtain ⟨layout', change⟩ := result
    rw [hround] at hends
    cases change with
    | true =>
      obtain ⟨i, hi, v, hv, hlen, hall'⟩ := hends
      have hshorter := shorter_update (Nat.le_of_lt hv)
      refine ⟨⟨hlen ▸ fits_shorter hshorter hfits, hlen ▸ hall'⟩, ?_⟩
      change offset layout'.machineCodeLen _ < offset layout.machineCodeLen _
      have hmove := offset_update_of_lt layout.machineCodeLen v hi
      rw [hlen]
      omega
    | false =>
      obtain ⟨hlaid, hsettled⟩ := hends
      have hsame := hlaid.machineCodeLen
      refine ⟨⟨by rw [hsame]; exact hlaid, ?_, ?_⟩, by rw [codeSize, hsame]; exact hfits.code⟩
      · intro i instruction hi
        have hlt := (List.getElem?_eq_some_iff.mp hi).1
        rw [laid_code hlaid]
        exact (hsettled i hlt instruction hi).1
      · intro i hi
        rw [hsame]
        exact (hsettled i hi _ (List.getElem?_eq_getElem hi)).2

/-- The loop ends with settled code, if the first lengths fit. -/
theorem generationLoop_ends {lengths : List ℕ}
    (h : assemblerProgramCalculateInitialMachineCodeLengths program = .ok lengths)
    (hfits : Fits program (initialLayout lengths).machineCodeLen) :
    ∃ result, generationLoop program (initialLayout lengths) 65536 = some result ∧
      EndsIn (Blamed program) (SettledBelow program) result := by
  rw [generationLoop_eq]
  exact rounds_end _ generationRound_to 65536 (initialLayout lengths)
    ⟨hfits, initial_allPromised h⟩ hfits.code

end Loop

/-! ### Another source for a mov -/

/-- Lines that differ in the source of a mov at most. -/
inductive SameLine : AssemblerInstruction → AssemblerInstruction → Prop
  | same (instruction : AssemblerInstruction) : SameLine instruction instruction
  | mov (lineIndex : ℕ) (dest src src' : CStr) :
      SameLine ⟨lineIndex, .mov dest src⟩ ⟨lineIndex, .mov dest src'⟩

/-- Programs whose lines differ in the sources of movs at most. -/
structure SameProgram (program program' : AssemblerProgram) : Prop where
  lines : List.Forall₂ SameLine program.instructions program'.instructions
  noStack : program.noStack = program'.noStack
  noScratch : program.noScratch = program'.noScratch

section Same

variable {program program' : AssemblerProgram}

theorem sameLine_lineIndex {a b : AssemblerInstruction} (h : SameLine a b) :
    a.lineIndex = b.lineIndex := by
  cases h <;> rfl

theorem findIdx?_same {p : AssemblerInstruction → Bool} (hp : ∀ a b, SameLine a b → p a = p b)
    {xs ys : List AssemblerInstruction} (h : List.Forall₂ SameLine xs ys) :
    xs.findIdx? p = ys.findIdx? p := by
  induction h with
  | nil => rfl
  | cons hab _ ih => rw [List.findIdx?_cons, List.findIdx?_cons, hp _ _ hab, ih]

theorem findSome?_same {f : AssemblerInstruction → Option ℕ} (hf : ∀ a b, SameLine a b → f a = f b)
    {xs ys : List AssemblerInstruction} (h : List.Forall₂ SameLine xs ys) :
    xs.findSome? f = ys.findSome? f := by
  induction h with
  | nil => rfl
  | cons hab _ ih => rw [List.findSome?_cons, List.findSome?_cons, hf _ _ hab, ih]

theorem map_same {f g : AssemblerInstruction → ℕ} (hfg : ∀ a b, SameLine a b → f a = g b)
    {xs ys : List AssemblerInstruction} (h : List.Forall₂ SameLine xs ys) :
    xs.map f = ys.map g := by
  induction h with
  | nil => rfl
  | cons hab _ ih => rw [List.map_cons, List.map_cons, hfg _ _ hab, ih]

theorem getElem?_same {xs ys : List AssemblerInstruction} (h : List.Forall₂ SameLine xs ys)
    (i : ℕ) : xs[i]? = none ∧ ys[i]? = none ∨
      ∃ a b, xs[i]? = some a ∧ ys[i]? = some b ∧ SameLine a b := by
  induction h generalizing i with
  | nil => exact Or.inl ⟨rfl, rfl⟩
  | cons hab _ ih =>
    cases i with
    | zero => exact Or.inr ⟨_, _, rfl, rfl, hab⟩
    | succ i => exact ih i

variable (h : SameProgram program program')

include h

theorem labelIndex_same (symbol : CStr) :
    assemblerGetLabelSymbolInstructionIndex program.instructions symbol =
      assemblerGetLabelSymbolInstructionIndex program'.instructions symbol :=
  findIdx?_same (fun _ _ hab => by cases hab <;> rfl) h.lines

theorem labelAddr_same (layout : Layout) (symbol : CStr) :
    assemblerGetLabelSymbolAddr program.instructions layout symbol =
      assemblerGetLabelSymbolAddr program'.instructions layout symbol := by
  rw [assemblerGetLabelSymbolAddr, assemblerGetLabelSymbolAddr, labelIndex_same h]

theorem allocationIndex_same (symbol : CStr) :
    assemblerGetAllocationSymbolInstructionIndex program.instructions symbol =
      assemblerGetAllocationSymbolInstructionIndex program'.instructions symbol :=
  findIdx?_same (fun _ _ hab => by cases hab <;> rfl) h.lines

theorem constValue_same (symbol : CStr) :
    assemblerGetConstSymbolValue program.instructions symbol =
      assemblerGetConstSymbolValue program'.instructions symbol :=
  findSome?_same (fun _ _ hab => by cases hab <;> rfl) h.lines

theorem definePlace_same (symbol : CStr) :
    definePlace program.instructions symbol = definePlace program'.instructions symbol := by
  have hindex : assemblerGetDefineSymbolInstructionIndex program.instructions symbol =
      assemblerGetDefineSymbolInstructionIndex program'.instructions symbol :=
    findIdx?_same (fun _ _ hab => by cases hab <;> rfl) h.lines
  have hline : ∀ lineIndex : ℕ, program.instructions.findIdx?
        (fun loopInstruction => loopInstruction.lineIndex == lineIndex) =
      program'.instructions.findIdx?
        (fun loopInstruction => loopInstruction.lineIndex == lineIndex) :=
    fun lineIndex => findIdx?_same (fun _ _ hab => by rw [sameLine_lineIndex hab]) h.lines
  rw [definePlace, definePlace, hindex]
  cases assemblerGetDefineSymbolInstructionIndex program'.instructions symbol with
  | none => rfl
  | some index =>
    dsimp only [bind, Option.bind]
    obtain ⟨ha, hb⟩ | ⟨a, b, ha, hb, hab⟩ := getElem?_same h.lines index
    · rw [ha, hb]
    · rw [ha, hb]
      cases hab with
      | mov => rfl
      | same =>
        dsimp only
        simp only [hline]

theorem movValue_same (layout : Layout) (src : CStr) :
    movValue program layout src = movValue program' layout src := by
  rw [movValue, movValue, assemblerGetDefineSymbolAddr, assemblerGetDefineSymbolAddr,
    definePlace_same h, assemblerGetAllocationSymbolAddr, assemblerGetAllocationSymbolAddr,
    allocationIndex_same h, labelAddr_same h, constValue_same h]

theorem movCode_same (layout : Layout) (dest src : CStr) :
    movCode program layout dest src = movCode program' layout dest src := by
  rw [movCode, movCode, movValue_same h]

theorem callCode_same (layout : Layout) (label : CStr) :
    callCode program layout label = callCode program' layout label := by
  rw [callCode, callCode, labelAddr_same h]

theorem skipDistance_same (i : ℕ) : skipDistance program i = skipDistance program' i := by
  rw [skipDistance, skipDistance]
  obtain ⟨ha, hb⟩ | ⟨a, b, ha, hb, hab⟩ := getElem?_same h.lines (i+1)
  · rw [ha, hb]
  · rw [ha, hb]
    cases hab <;> rfl

theorem aluCode_same (i : ℕ) (d : AssemblerInstructionAlu) :
    aluCode program i d = aluCode program' i d := by
  rw [aluCode, aluCode, skipDistance_same h, h.noStack]

/-- The code of a line does not depend on the source of a mov in another one. -/
theorem instructionCode_same (layout : Layout) (i : ℕ) (instruction : AssemblerInstruction) :
    instructionCode program layout i instruction = instructionCode program' layout i instruction := by
  obtain ⟨lineIndex, type⟩ := instruction
  cases type with
  | mov dest src => exact movCode_same h layout dest src
  | alu d => exact aluCode_same h i d
  | jmp addr =>
    rw [instructionCode, instructionCode]
    dsimp only
    rw [labelAddr_same h]
  | push8 => rw [instructionCode, instructionCode, h.noStack]
  | pop8 => rw [instructionCode, instructionCode, h.noStack]
  | ret => rw [instructionCode, instructionCode, h.noStack]
  | call label =>
    rw [instructionCode, instructionCode]
    dsimp only
    rw [h.noStack, h.noScratch, callCode_same h]
  | _ => rfl

theorem allocationSizes_same :
    program.instructions.map (allocationSize program) =
      program'.instructions.map (allocationSize program') := by
  refine map_same (fun a b hab => ?_) h.lines
  cases hab with
  | mov => rfl
  | same =>
    rw [allocationSize, allocationSize]
    simp only [constValue_same h]

theorem ramBefore_same (i : ℕ) : ramBefore program i = ramBefore program' i := by
  rw [ramBefore, ramBefore, List.map_take, List.map_take, allocationSizes_same h]

/-- The lengths give the same layout. -/
theorem laid_same (len : ℕ → ℕ) : laid program len = laid program' len := by
  have hram : ramBefore program = ramBefore program' := funext (ramBefore_same h)
  have hlength := h.lines.length_eq
  rw [laid, laid, assemblerProgramCalculateMachineCodeOffsets,
    assemblerProgramCalculateMachineCodeOffsets, hram, hlength]

end Same

/-! ### The last round -/

section Last

variable {program : AssemblerProgram} {layout : Layout}

theorem modify_same {f : AssemblerInstruction → AssemblerInstruction}
    (hf : ∀ a, SameLine a (f a)) (xs : List AssemblerInstruction) (i : ℕ) :
    List.Forall₂ SameLine xs (xs.modify i f) := by
  have hrefl : ∀ ys : List AssemblerInstruction, List.Forall₂ SameLine ys ys :=
    fun ys => List.forall₂_same.mpr (fun a _ => .same a)
  induction xs generalizing i with
  | nil =>
    rw [List.modify_nil]
    exact .nil
  | cons a xs ih =>
    cases i with
    | zero =>
      rw [List.modify_zero_cons]
      exact .cons (hf a) (hrefl xs)
    | succ i =>
      rw [List.modify_succ_cons]
      exact .cons (.same a) (ih i)

theorem setStackPointer_same (program : AssemblerProgram) (stackSetLineIndex stackRamOffset : ℕ) :
    SameProgram program (setStackPointer program stackSetLineIndex stackRamOffset) := by
  have hrefl : SameProgram program program :=
    ⟨List.forall₂_same.mpr (fun a _ => .same a), rfl, rfl⟩
  rw [setStackPointer]
  split
  · exact hrefl
  · split
    · exact hrefl
    · refine ⟨modify_same (fun a => ?_) _ _, rfl, rfl⟩
      obtain ⟨lineIndex, type⟩ := a
      cases type with
      | mov dest src => exact .mov lineIndex dest src _
      | _ => exact .same _

theorem instructionCode_machineCode (program : AssemblerProgram) (layout : Layout)
    (machineCode : ℕ → List UInt8) :
    instructionCode program { layout with machineCode := machineCode } =
      instructionCode program layout := instructionCode_congr program rfl rfl rfl

/-- Every line has a code of its length. -/
def EveryLength (program : AssemblerProgram) (layout : Layout) : Prop :=
  ∀ i instruction, program.instructions[i]? = some instruction →
    ∃ code, instructionCode program layout i instruction = .ok code ∧
      code.length = layout.machineCodeLen i

/-- Such a round changes nothing but the code. -/
theorem generateFrom_everyLength (hevery : EveryLength program layout)
    (rest : List AssemblerInstruction) (i : ℕ) (hrest : program.instructions.drop i = rest)
    (machineCode : ℕ → List UInt8)
    (hcode : ∀ j < i, ∀ instruction, program.instructions[j]? = some instruction →
      instructionCode program layout j instruction = .ok (machineCode j)) :
    ∃ machineCode', generateFrom program { layout with machineCode := machineCode } i rest =
        .ok ({ layout with machineCode := machineCode' }, false) ∧
      ∀ j instruction, program.instructions[j]? = some instruction →
        instructionCode program layout j instruction = .ok (machineCode' j) := by
  induction rest generalizing i machineCode with
  | nil =>
    refine ⟨machineCode, rfl, ?_⟩
    intro j instruction hj
    have hlen := List.drop_eq_nil_iff.mp hrest
    have hlt := (List.getElem?_eq_some_iff.mp hj).1
    exact hcode j (by omega) instruction hj
  | cons instruction rest ih =>
    have hlt : i < program.instructions.length := by
      by_contra hge
      rw [List.drop_of_length_le (by omega)] at hrest
      cases hrest
    rw [List.drop_eq_getElem_cons hlt] at hrest
    have hat : program.instructions[i]? = some instruction := by
      rw [List.getElem?_eq_getElem hlt, (List.cons.inj hrest).1]
    obtain ⟨code, hok, hlen⟩ := hevery i instruction hat
    have hsame : instructionCode program { layout with machineCode := machineCode } i instruction =
        .ok code := by
      rw [instructionCode_machineCode]
      exact hok
    rw [generateFrom, hsame]
    dsimp only [bind, Except.bind]
    rw [if_neg]
    · refine ih (i+1) (List.cons.inj hrest).2 _ ?_
      intro j hj instruction' hj'
      by_cases hji : j = i
      · rw [hji] at hj' ⊢
        rw [hat] at hj'
        cases hj'
        rw [Function.update_self]
        exact hok
      · rw [Function.update_of_ne hji]
        exact hcode j (by omega) instruction' hj'
    · rintro ⟨-, hdefine, hne⟩
      obtain ⟨builts, hemits, -⟩ := instructionCode_emits hdefine hok
      exact hne ((actualLength_emits hemits).trans hlen)

/-- The line that sets the stack pointer, as it is inserted. -/
def StackLine (program : AssemblerProgram) (stackSetLineIndex : ℕ) : Prop :=
  program.noStack = true ∨ ∃ i dest,
    program.instructions.findIdx? (fun instruction =>
      instruction.lineIndex == stackSetLineIndex) = some i ∧
    program.instructions[i]? = some ⟨stackSetLineIndex, .mov dest (CStr.lit "65535")⟩

/-- The allocations end below 64 KB. -/
def RamFits (program : AssemblerProgram) : Prop :=
  BytecodeMemoryRamAddr+(program.instructions.map (allocationSize program)).sum < 65536

theorem stackRamOffset_laid (h : RamFits program) (len : ℕ → ℕ) :
    32768 ≤ (laid program len).stackRamOffset ∧ (laid program len).stackRamOffset < 65536 := by
  unfold RamFits BytecodeMemoryRamAddr at h
  change 32768 ≤ u16 (ramBefore program program.instructions.length) ∧ _
  change _ ∧ u16 (ramBefore program program.instructions.length) < 65536
  rw [ramBefore, List.take_length]
  unfold BytecodeMemoryRamAddr
  rw [u32_of_lt (by omega), u16_of_lt h]
  omega

theorem setLength_large (destReg : Option (Fin 8)) {value : ℕ} (h : 256 ≤ value) :
    setLength destReg value = 3 := by
  unfold setLength
  rw [if_neg (by omega), if_neg (by omega)]

/-- The line that sets the stack pointer keeps its length. -/
theorem stackLine_length {dest : CStr} {code : List UInt8} {stackRamOffset : ℕ}
    (hcode : movCode program layout dest (CStr.lit "65535") = .ok code)
    (hlow : 256 ≤ stackRamOffset) (hhigh : stackRamOffset < 65536) :
    ∃ code', movCode program layout dest (formatUnsigned stackRamOffset) = .ok code' ∧
      code'.length = code.length := by
  obtain ⟨destReg, hdest, ⟨hdigit, -⟩ | ⟨value, hvalue, rfl⟩⟩ := movCode_ok hcode
  · cases hdigit
  · have hmax : sourceNumber program layout (CStr.lit "65535") = some 65535 := rfl
    rw [hmax] at hvalue
    cases hvalue
    have hnumber : sourceNumber program layout (formatUnsigned stackRamOffset) =
        some stackRamOffset := by
      rw [sourceNumber, if_pos (formatUnsigned_startsWithDigit _),
        integerValue_formatUnsigned (by omega)]
    refine ⟨_, movCode_of_number hdest hnumber, ?_⟩
    rw [createSet_length, createSet_length, UInt16.toNat_ofNat', Nat.mod_eq_of_lt hhigh,
      setLength_large _ hlow]
    rfl

theorem settled_everyLength (hsettled : Settled program layout) : EveryLength program layout :=
  fun i instruction hi => ⟨_, hsettled.code i instruction hi,
    hsettled.length i (List.getElem?_eq_some_iff.mp hi).1⟩

/-- Every line still has its length when the stack pointer is known. -/
theorem setStackPointer_everyLength {stackSetLineIndex : ℕ} (hsettled : Settled program layout)
    (hram : RamFits program) (hline : StackLine program stackSetLineIndex) :
    EveryLength (setStackPointer program stackSetLineIndex layout.stackRamOffset) layout := by
  have hsame := setStackPointer_same program stackSetLineIndex layout.stackRamOffset
  have hevery := settled_everyLength hsettled
  intro j instruction hj
  rw [← instructionCode_same hsame]
  rw [setStackPointer] at hj
  rcases hline with hno | ⟨i, dest, hfound, hat⟩
  · rw [if_pos hno] at hj
    exact hevery j instruction hj
  · split at hj
    · exact hevery j instruction hj
    · rw [hfound] at hj
      dsimp only at hj
      rw [List.getElem?_modify] at hj
      split at hj
      · rename_i hij
        rw [← hij, hat] at hj
        cases hj
        obtain ⟨code, hcode, hlen⟩ := hevery i _ hat
        have hstack := stackRamOffset_laid hram layout.machineCodeLen
        rw [← hsettled.laid.stackRamOffset] at hstack
        obtain ⟨code', hcode', hlen'⟩ := stackLine_length hcode
          (Nat.le_trans (by decide) hstack.1) hstack.2
        exact ⟨code', hcode', by rw [hlen', hlen, hij]⟩
      · rw [id_map'] at hj
        exact hevery j instruction hj

theorem lastRound_settled {stackSetLineIndex : ℕ} (hsettled : Settled program layout)
    (hram : RamFits program) (hline : StackLine program stackSetLineIndex) :
    ∃ layout', lastRound program stackSetLineIndex layout =
        .ok (setStackPointer program stackSetLineIndex layout'.stackRamOffset, layout') ∧
      Settled (setStackPointer program stackSetLineIndex layout'.stackRamOffset) layout' ∧
      layout'.machineCodeLen = layout.machineCodeLen := by
  have hsame := setStackPointer_same program stackSetLineIndex layout.stackRamOffset
  have hevery := setStackPointer_everyLength hsettled hram hline
  obtain ⟨machineCode, hround, hcode⟩ := generateFrom_everyLength hevery _ 0 (List.drop_zero ..)
    layout.machineCode (fun j hj => absurd hj (Nat.not_lt_zero j))
  refine ⟨{ layout with machineCode := machineCode }, ?_, ⟨?_, ?_, ?_⟩, rfl⟩
  · rw [lastRound]
    change (generateFrom _ layout 0 _ >>= _) = _
    rw [hround]
    rfl
  · have hlaid := hsettled.laid
    exact ⟨rfl, by rw [← laid_same hsame]; exact hlaid.machineCodeOffset,
      by rw [← laid_same hsame]; exact hlaid.ramOffset,
      by rw [← laid_same hsame]; exact hlaid.stackRamOffset⟩
  · intro j instruction hj
    rw [instructionCode_machineCode]
    exact hcode j instruction hj
  · intro j hj
    obtain ⟨code, hok, hlen⟩ := hevery j _ (List.getElem?_eq_getElem hj)
    have hat := hcode j _ (List.getElem?_eq_getElem hj)
    rw [hok] at hat
    cases hat
    exact hlen

end Last

/-! ### The file -/

section File

variable {program : AssemblerProgram} {layout : Layout}

theorem range_flatMap (piece : ℕ → List UInt8) (n : ℕ) :
    (List.range n).flatMap piece = Layout.image piece n := by
  induction n with
  | zero => rfl
  | succ n ih =>
    rw [List.range_succ, List.flatMap_append, ih, Layout.image, List.flatMap_singleton]

theorem written_image (h : Settled program layout) :
    assemblerProgramWriteMachineCode program layout =
      Layout.image layout.machineCode program.instructions.length := by
  rw [assemblerProgramWriteMachineCode, range_flatMap]
  refine Layout.image_congr (fun i hi => ?_)
  rw [← h.length i hi]
  exact List.take_left

theorem place_offset (h : Settled program layout) {i : ℕ} (hi : i ≤ program.instructions.length) :
    Layout.place layout.machineCode i = offset layout.machineCodeLen i := by
  induction i with
  | zero => rfl
  | succ i ih => rw [Layout.place_succ, offset_succ, ih (by omega), h.length i (by omega)]

/-- What the assembler has made of a program: its lines have settled, and the file has the
code of every line at its offset. -/
structure Assembled (program : AssemblerProgram) (stackSetLineIndex : ℕ)
    (result : AssemblerProgram × Layout) : Prop where
  lines : result.1 = setStackPointer program stackSetLineIndex result.2.stackRamOffset
  settled : Settled result.1 result.2
  size : (assemblerProgramWriteMachineCode result.1 result.2).length < 65536
  code : ∀ i < program.instructions.length,
    ((assemblerProgramWriteMachineCode result.1 result.2).drop
      (result.2.machineCodeOffset i)).take (result.2.machineCodeLen i) = result.2.machineCode i

theorem written_code (h : Settled program layout)
    (hcode : offset layout.machineCodeLen program.instructions.length < 65536) {i : ℕ}
    (hi : i < program.instructions.length) :
    ((assemblerProgramWriteMachineCode program layout).drop (layout.machineCodeOffset i)).take
      (layout.machineCodeLen i) = layout.machineCode i := by
  have hoffset : layout.machineCodeOffset i = Layout.place layout.machineCode i := by
    have hle := offset_le layout.machineCodeLen (Nat.le_of_lt hi)
    rw [h.laid.machineCodeOffset, place_offset h (Nat.le_of_lt hi)]
    change u16 (codeOffset layout.machineCodeLen i) = _
    rw [codeOffset_eq, u16_of_lt (by omega)]
  obtain ⟨rest, hrest⟩ := Layout.drop_place layout.machineCode hi
  rw [written_image h, hoffset, hrest, ← h.length i hi, List.take_left]

/-- From the first lengths on, the program is assembled or an error is found. -/
theorem rounds_assemble (program : AssemblerProgram) (stackSetLineIndex : ℕ) {lengths : List ℕ}
    (hinitial : assemblerProgramCalculateInitialMachineCodeLengths program = .ok lengths)
    (hfits : Fits program (initialLayout lengths).machineCodeLen)
    (hram : RamFits program) (hline : StackLine program stackSetLineIndex) :
    ∃ result, assembleInstructions program stackSetLineIndex 65536 = some result ∧
      EndsIn (Blamed program) (Assembled program stackSetLineIndex) result := by
  obtain ⟨result, hloop, hends⟩ := generationLoop_ends hinitial hfits
  rw [assembleInstructions, hinitial]
  dsimp only
  rw [hloop]
  refine ⟨_, rfl, ?_⟩
  cases result with
  | error stop => exact hends
  | ok layout =>
    obtain ⟨hsettled, hsize⟩ := hends
    obtain ⟨layout', hlast, hsettled', hlen⟩ := lastRound_settled hsettled hram hline
    have hlength := (setStackPointer_same program stackSetLineIndex
      layout'.stackRamOffset).lines.length_eq
    change EndsIn _ _ (lastRound program stackSetLineIndex layout)
    rw [hlast]
    have hbelow : offset layout'.machineCodeLen (setStackPointer program stackSetLineIndex
        layout'.stackRamOffset).instructions.length < 65536 := by
      rw [← hlength, hlen]
      exact hsize
    refine ⟨rfl, hsettled', ?_, fun i hi => ?_⟩
    · rw [written_image hsettled', ← Layout.place, place_offset hsettled' (Nat.le_refl _)]
      exact hbelow
    · exact written_code hsettled' hbelow (hlength ▸ hi)

/-- A program whose code, defines and allocations fit is assembled or rejected, after
65536 rounds at most; no assertion fails, unless a skip has nothing to skip. -/
theorem assembleInstructions_ends (program : AssemblerProgram) (stackSetLineIndex : ℕ)
    (hfits : ∀ lengths, assemblerProgramCalculateInitialMachineCodeLengths program = .ok lengths →
      Fits program (initialLayout lengths).machineCodeLen)
    (hram : RamFits program) (hline : StackLine program stackSetLineIndex) :
    ∃ result, assembleInstructions program stackSetLineIndex 65536 = some result ∧
      EndsIn (Blamed program) (Assembled program stackSetLineIndex) result := by
  cases hinitial : assemblerProgramCalculateInitialMachineCodeLengths program with
  | error stop =>
    obtain ⟨instruction, -, herror⟩ := mapM_error _ _ hinitial
    rw [assembleInstructions, hinitial]
    exact ⟨_, rfl, Or.inl (initialLength_error herror)⟩
  | ok lengths =>
    exact rounds_assemble program stackSetLineIndex hinitial (hfits lengths hinitial) hram hline

/-- A program that jumps to itself behind the line that sets the stack pointer. -/
def jumpProgram : AssemblerProgram where
  instructions := [⟨0, .mov (CStr.lit "r6") (CStr.lit "65535")⟩, ⟨1, .label (CStr.lit "loop")⟩,
    ⟨2, .jmp (CStr.lit "loop")⟩]
  noStack := false
  noScratch := false

theorem jumpProgram_ends :
    ∃ result, assembleInstructions jumpProgram 0 65536 = some result ∧
      EndsIn (Blamed jumpProgram) (Assembled jumpProgram 0) result := by
  refine assembleInstructions_ends jumpProgram 0 (fun lengths h => ⟨?_, ?_⟩) ?_ ?_
  · cases h
    decide
  · intro symbol j o hplace
    cases hplace
  · unfold RamFits
    decide
  · exact Or.inr ⟨0, CStr.lit "r6", by decide, by decide⟩

end File

end ArduinoOS.Assembler.Generation
