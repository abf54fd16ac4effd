import ArduinoOS.Assembler.Generation

/-!
# The code of an instruction

What is written for an instruction is a sequence of built ones, two at most, and the
loop that counts their bytes finds the end of the last one.
-/

set_option autoImplicit false

namespace ArduinoOS.Assembler.Generation
open ArduinoOS.Procman ArduinoOS.Procman.AssignedInfo

/-- The code is made of these instructions. -/
structure Emits (code : List UInt8) (builts : List Built) : Prop where
  bytes : code = builts.flatMap Built.bytes
  few : builts.length ≤ 2
  legal : Built.miscIllegal ∉ builts

/-! ### Counting the bytes -/

theorem describes_legal {b : Built} (h : b ≠ .miscIllegal) {info : AssignedInfo}
    (hinfo : b.Describes info) : info ≠ ofMisc ⟨some 3, noSet, noSet⟩ := by
  intro heq
  subst heq
  cases b with
  | miscIllegal => exact h rfl
  | aluIncDecValue =>
    obtain ⟨_, _, hinfo⟩ := hinfo
    cases hinfo
  | set =>
    rcases hinfo with hinfo | hinfo | hinfo <;> cases hinfo
  | _ => cases hinfo

/-- The first byte tells the length, and is not the one that ends the code. -/
theorem built_first {b : Built} (h : b ≠ .miscIllegal) :
    ∃ byte0 tail, b.bytes = byte0::tail ∧ byte0 ≠ ByteCodeIllegalInstructionByte ∧
      bytecodeInstructionParseLength byte0 = b.bytes.length := by
  obtain ⟨⟨byte0, tail, hbytes, hlen⟩, hinfo⟩ := built_decodes b
  refine ⟨byte0, tail, hbytes, ?_, hlen⟩
  intro hillegal
  refine describes_legal h (hinfo []) (assign_misc (show 3 < 16 by decide) ?_)
  rw [hbytes, hillegal]
  rfl

/-- The loop goes from one instruction to the next. -/
theorem codeLength_flatMap (builts : List Built) (h : Built.miscIllegal ∉ builts)
    (front : List UInt8) (fuel : ℕ) (hfuel : builts.length < fuel) :
    codeLength (front++builts.flatMap Built.bytes) front.length fuel =
      (front++builts.flatMap Built.bytes).length := by
  induction builts generalizing front fuel with
  | nil =>
    obtain ⟨fuel, rfl⟩ := Nat.exists_eq_succ_of_ne_zero (Nat.ne_of_gt hfuel)
    rw [List.flatMap_nil, List.append_nil, Nat.succ_eq_add_one, codeLength,
      List.getD_eq_default _ _ (Nat.le_refl _), if_pos rfl]
  | cons b builts ih =>
    obtain ⟨fuel, rfl⟩ := Nat.exists_eq_succ_of_ne_zero (Nat.ne_of_gt (Nat.zero_lt_of_lt hfuel))
    obtain ⟨hb, hbuilts⟩ := not_or.mp (mt List.mem_cons.mpr h)
    obtain ⟨byte0, tail, hbytes, hlegal, hlen⟩ := built_first (Ne.symm hb)
    have hbyte : (front++(b::builts).flatMap Built.bytes).getD front.length
        ByteCodeIllegalInstructionByte = byte0 := by
      rw [List.flatMap_cons, hbytes, List.getD_append_right _ _ _ _ (Nat.le_refl _),
        Nat.sub_self]
      rfl
    rw [Nat.succ_eq_add_one, codeLength, hbyte, if_neg hlegal, hlen, List.flatMap_cons,
      ← List.append_assoc, ← List.length_append]
    exact ih hbuilts (front++b.bytes) fuel (by simpa using hfuel)

theorem actualLength_emits {code : List UInt8} {builts : List Built} (h : Emits code builts) :
    actualLength code = code.length := by
  have hcount := codeLength_flatMap builts h.legal [] AssemblerInstructionMachineCodeMax
    (Nat.lt_of_le_of_lt h.few (by decide))
  rw [h.bytes]
  exact hcount

/-! ### The instructions of the code -/

theorem emits_one {b : Built} (h : b ≠ .miscIllegal) : Emits b.bytes [b] :=
  ⟨by rw [List.flatMap_singleton], by simp, by simpa using h.symm⟩

theorem emits_two {b c : Built} (h : b ≠ .miscIllegal) (h' : c ≠ .miscIllegal) :
    Emits (b.bytes++c.bytes) [b, c] :=
  ⟨by simp, by simp, by simp [h.symm, h'.symm]⟩

theorem emits_set (destReg : Fin 8) (value : UInt16) :
    Emits (bytecodeInstructionCreateSet destReg value) [.set destReg value] :=
  emits_one (b := .set destReg value) (by simp)

theorem emits_alu {type : BytecodeInstructionAluType} (h : type ≠ .unknown)
    (destReg opAReg opBReg : Fin 8) : Emits (bytecodeInstructionCreateAlu type destReg opAReg opBReg)
      [.alu type destReg opAReg opBReg h] :=
  emits_one (b := .alu type destReg opAReg opBReg h) (by simp)

/-- A number of bytes for a value in a register. -/
theorem createSet_length (destReg : Fin 8) (value : UInt16) :
    (bytecodeInstructionCreateSet destReg value).length =
      setLength (some destReg) value.toNat := by
  rw [bytecodeInstructionCreateSet, setLength]
  have hreg : ((some destReg).map Fin.val).getD 8 = destReg.val := rfl
  rw [hreg]
  split_ifs <;> rfl

theorem setLength_mono (destReg : Option (Fin 8)) {value value' : ℕ} (h : value' ≤ value) :
    setLength destReg value' ≤ setLength destReg value := by
  unfold setLength
  split_ifs <;> omega

theorem setLength_le_three (destReg : Option (Fin 8)) (value : ℕ) :
    setLength destReg value ≤ 3 := by
  unfold setLength
  split_ifs <;> omega

section Cases

variable {program : AssemblerProgram} {layout : Layout} {code : List UInt8}

theorem register_ok {str : CStr} {reg : Fin 8} :
    register str = .ok reg ↔ assemblerRegisterFromStr str = some reg := by
  rw [register]
  cases assemblerRegisterFromStr str with
  | none => exact ⟨fun h => (by cases h), fun h => (by cases h)⟩
  | some reg' => exact ⟨fun h => (by cases h; rfl), fun h => (by cases h; rfl)⟩

theorem register_error {str : CStr} {stop : Stop} (h : register str = .error stop) :
    stop = .rejected := by
  rw [register] at h
  cases hreg : assemblerRegisterFromStr str with
  | none =>
    rw [hreg] at h
    cases h
    rfl
  | some reg =>
    rw [hreg] at h
    cases h

/-- The number that a register is set to; a register has none. -/
def sourceNumber (program : AssemblerProgram) (layout : Layout) (src : CStr) : Option ℕ :=
  if startsWithDigit src then some (integerValue src)
  else if (assemblerRegisterFromStr src).isSome then none
  else if isCharacter src then some (characterValue src).toNat
  else (movValue program layout src).toOption

theorem toUInt16_eq (value : UInt8) : value.toUInt16 = UInt16.ofNat value.toNat := by
  apply UInt16.toNat_inj.mp
  rw [UInt8.toNat_toUInt16, UInt16.toNat_ofNat', Nat.mod_eq_of_lt]
  have h := value.toNat_lt
  omega

/-- A mov copies a register or sets one to a number. -/
theorem movCode_ok {dest src : CStr} (h : movCode program layout dest src = .ok code) :
    ∃ destReg, assemblerRegisterFromStr dest = some destReg ∧
      ((startsWithDigit src = false ∧ ∃ srcReg, assemblerRegisterFromStr src = some srcReg ∧
          code = bytecodeInstructionCreateAlu .or destReg srcReg srcReg) ∨
        ∃ value, sourceNumber program layout src = some value ∧
          code = bytecodeInstructionCreateSet destReg (UInt16.ofNat value)) := by
  rw [movCode] at h
  cases hdest : register dest with
  | error stop =>
    rw [hdest] at h
    cases h
  | ok destReg =>
    rw [hdest] at h
    refine ⟨destReg, register_ok.mp hdest, ?_⟩
    change (if startsWithDigit src = true then _ else _) = Except.ok code at h
    rw [sourceNumber]
    by_cases hdigit : startsWithDigit src = true
    · rw [if_pos hdigit] at h ⊢
      exact Or.inr ⟨_, rfl, (Except.ok.inj h).symm⟩
    · rw [if_neg hdigit] at h ⊢
      cases hsrc : assemblerRegisterFromStr src with
      | some srcReg =>
        rw [hsrc] at h
        exact Or.inl ⟨by simpa using hdigit, srcReg, rfl, (Except.ok.inj h).symm⟩
      | none =>
        rw [hsrc] at h
        rw [if_neg (by simp)]
        by_cases hchar : isCharacter src = true
        · simp only [if_pos hchar] at h ⊢
          exact Or.inr ⟨_, rfl, by rw [← toUInt16_eq]; exact (Except.ok.inj h).symm⟩
        · simp only [if_neg hchar] at h ⊢
          cases hvalue : movValue program layout src with
          | error stop =>
            rw [hvalue] at h
            cases h
          | ok value =>
            rw [hvalue] at h
            exact Or.inr ⟨value, rfl, (Except.ok.inj h).symm⟩

/-- The code that sets a register to a number. -/
theorem movCode_of_number {dest src : CStr} {destReg : Fin 8} {value : ℕ}
    (hdest : assemblerRegisterFromStr dest = some destReg)
    (hvalue : sourceNumber program layout src = some value) :
    movCode program layout dest src =
      .ok (bytecodeInstructionCreateSet destReg (UInt16.ofNat value)) := by
  rw [movCode, register_ok.mpr hdest]
  change (if startsWithDigit src = true then _ else _) = _
  rw [sourceNumber] at hvalue
  by_cases hdigit : startsWithDigit src = true
  · rw [if_pos hdigit] at hvalue ⊢
    cases hvalue
    rfl
  · rw [if_neg hdigit] at hvalue ⊢
    cases hsrc : assemblerRegisterFromStr src with
    | some srcReg =>
      rw [hsrc, if_pos Option.isSome_some] at hvalue
      cases hvalue
    | none =>
      rw [hsrc, if_neg (by simp)] at hvalue
      by_cases hchar : isCharacter src = true
      · simp only [if_pos hchar] at hvalue ⊢
        cases hvalue
        rw [toUInt16_eq]
        rfl
      · simp only [if_neg hchar] at hvalue ⊢
        cases hmov : movValue program layout src with
        | error stop =>
          rw [hmov] at hvalue
          cases hvalue
        | ok value' =>
          rw [hmov] at hvalue
          cases hvalue
          rfl

theorem movCode_of_register {dest src : CStr} {destReg srcReg : Fin 8}
    (hdest : assemblerRegisterFromStr dest = some destReg) (hdigit : startsWithDigit src = false)
    (hsrc : assemblerRegisterFromStr src = some srcReg) :
    movCode program layout dest src =
      .ok (bytecodeInstructionCreateAlu .or destReg srcReg srcReg) := by
  rw [movCode, register_ok.mpr hdest]
  change (if startsWithDigit src = true then _ else _) = _
  rw [if_neg (by simp [hdigit]), hsrc]
  rfl

theorem movCode_emits {dest src : CStr} (h : movCode program layout dest src = .ok code) :
    ∃ builts, Emits code builts ∧ builts.length = 1 := by
  obtain ⟨destReg, -, ⟨-, srcReg, -, rfl⟩ | ⟨value, -, rfl⟩⟩ := movCode_ok h
  · exact ⟨_, emits_alu (by decide) _ _ _, rfl⟩
  · exact ⟨_, emits_set _ _, rfl⟩

theorem movCode_error {dest src : CStr} {stop : Stop}
    (h : movCode program layout dest src = .error stop) : stop = .rejected := by
  rw [movCode] at h
  cases hdest : register dest with
  | error stop' =>
    rw [hdest] at h
    cases h
    exact register_error hdest
  | ok destReg =>
    rw [hdest] at h
    change (if startsWithDigit src = true then _ else _) = Except.error stop at h
    split at h
    · cases h
    · split at h
      · cases h
      · split at h
        · cases h
        · cases hvalue : movValue program layout src with
          | ok value =>
            rw [hvalue] at h
            cases h
          | error stop' =>
            rw [hvalue] at h
            cases h
            rw [movValue] at hvalue
            split at hvalue <;> cases hvalue
            rfl

/-- Every instruction of the arithmetic unit has a destination, and two bytes. -/
theorem aluCode_ok {i : ℕ} {d : AssemblerInstructionAlu} (h : aluCode program i d = .ok code) :
    ∃ destReg opAReg opBReg, code = bytecodeInstructionCreateAlu d.type destReg opAReg opBReg := by
  rw [aluCode] at h
  split at h
  · cases h
  · cases hdest : register d.dest with
    | error stop =>
      rw [hdest] at h
      cases h
    | ok destReg =>
      rw [hdest] at h
      dsimp only [bind, Except.bind] at h
      split at h
      case h_1 htype =>
        cases hdistance : skipDistance program i with
        | error stop =>
          rw [hdistance] at h
          cases h
        | ok distance =>
          rw [hdistance] at h
          exact ⟨_, _, _, by rw [htype]; exact (Except.ok.inj h).symm⟩
      case h_2 htype => exact ⟨_, _, _, by rw [htype]; exact (Except.ok.inj h).symm⟩
      case h_3 htype => exact ⟨_, _, _, by rw [htype]; exact (Except.ok.inj h).symm⟩
      case h_4 htype =>
        rw [htype]
        split at h
        · exact ⟨_, _, _, (Except.ok.inj h).symm⟩
        · split at h
          · exact ⟨_, _, _, (Except.ok.inj h).symm⟩
          · exact ⟨_, _, _, (Except.ok.inj h).symm⟩
      case h_5 => exact ⟨_, _, _, (Except.ok.inj h).symm⟩

/-- A skip has no code in front of a line without instructions, nor at the end. -/
inductive BadSkip (program : AssemblerProgram) : Stop → Prop
  | codeless (i : ℕ) (d : AssemblerInstructionAlu) (lineIndex : ℕ)
      (next : AssemblerInstruction)
      (skips : program.instructions[i]? = some ⟨lineIndex, .alu d⟩) (isSkip : d.type = .skip)
      (follows : program.instructions[i+1]? = some next)
      (none : next.type.machineCodeInstructions = 0) : BadSkip program .assertFailed
  | last (i : ℕ) (d : AssemblerInstructionAlu) (lineIndex : ℕ)
      (skips : program.instructions[i]? = some ⟨lineIndex, .alu d⟩) (isSkip : d.type = .skip)
      (ends : program.instructions.length = i+1) : BadSkip program .undefined

/-- An error that the assembler prints, or a skip without anything to skip. -/
def Blamed (program : AssemblerProgram) (stop : Stop) : Prop :=
  stop = .rejected ∨ BadSkip program stop

theorem aluCode_error {i lineIndex : ℕ} {d : AssemblerInstructionAlu} {stop : Stop}
    (hi : program.instructions[i]? = some ⟨lineIndex, .alu d⟩)
    (h : aluCode program i d = .error stop) : Blamed program stop := by
  rw [aluCode] at h
  split at h
  · cases h
    exact Or.inl rfl
  · cases hdest : register d.dest with
    | error stop' =>
      rw [hdest] at h
      cases h
      exact Or.inl (register_error hdest)
    | ok destReg =>
      rw [hdest] at h
      dsimp only [bind, Except.bind] at h
      split at h
      case h_1 htype =>
        cases hdistance : skipDistance program i with
        | ok distance =>
          rw [hdistance] at h
          cases h
        | error stop' =>
          rw [hdistance] at h
          cases h
          right
          rw [skipDistance] at hdistance
          split at hdistance
          · rename_i hnext
            cases hdistance
            have hlt := (List.getElem?_eq_some_iff.mp hi).1
            have hle := List.getElem?_eq_none_iff.mp hnext
            exact .last i d lineIndex hi htype (by omega)
          · rename_i next hnext
            split at hdistance
            · rename_i hnone
              cases hdistance
              exact .codeless i d lineIndex next hi htype hnext hnone
            · cases hdistance
      case h_2 => cases h
      case h_3 => cases h
      case h_4 =>
        split at h
        · cases h
        · split at h <;> cases h
      case h_5 => cases h

theorem pushCode_ok {src : CStr} (h : pushCode src = .ok code) :
    ∃ srcReg, assemblerRegisterFromStr src = some srcReg ∧
      code = bytecodeInstructionCreateMemory .store8 BytecodeRegisterSP srcReg++
        bytecodeInstructionCreateAluIncDecValue .inc BytecodeRegisterSP 1 := by
  rw [pushCode] at h
  cases hsrc : register src with
  | error stop =>
    rw [hsrc] at h
    cases h
  | ok srcReg =>
    rw [hsrc] at h
    exact ⟨srcReg, register_ok.mp hsrc, (Except.ok.inj h).symm⟩

theorem popCode_ok {dest : CStr} (h : popCode dest = .ok code) :
    ∃ destReg, assemblerRegisterFromStr dest = some destReg ∧
      code = bytecodeInstructionCreateAluIncDecValue .dec BytecodeRegisterSP 1++
        bytecodeInstructionCreateMemory .load8 destReg BytecodeRegisterSP := by
  rw [popCode] at h
  cases hdest : register dest with
  | error stop =>
    rw [hdest] at h
    cases h
  | ok destReg =>
    rw [hdest] at h
    exact ⟨destReg, register_ok.mp hdest, (Except.ok.inj h).symm⟩

theorem registersCode_ok {first second : CStr} {build : Fin 8 → Fin 8 → List UInt8}
    (h : registersCode first second build = .ok code) :
    ∃ firstReg secondReg, assemblerRegisterFromStr first = some firstReg ∧
      assemblerRegisterFromStr second = some secondReg ∧ code = build firstReg secondReg := by
  rw [registersCode] at h
  cases hfirst : register first with
  | error stop =>
    rw [hfirst] at h
    cases h
  | ok firstReg =>
    rw [hfirst] at h
    cases hsecond : register second with
    | error stop =>
      rw [hsecond] at h
      cases h
    | ok secondReg =>
      rw [hsecond] at h
      exact ⟨firstReg, secondReg, register_ok.mp hfirst, register_ok.mp hsecond,
        (Except.ok.inj h).symm⟩

theorem pushCode_error {src : CStr} {stop : Stop} (h : pushCode src = .error stop) :
    stop = .rejected := by
  rw [pushCode] at h
  cases hsrc : register src with
  | error stop' =>
    rw [hsrc] at h
    cases h
    exact register_error hsrc
  | ok srcReg =>
    rw [hsrc] at h
    cases h

theorem popCode_error {dest : CStr} {stop : Stop} (h : popCode dest = .error stop) :
    stop = .rejected := by
  rw [popCode] at h
  cases hdest : register dest with
  | error stop' =>
    rw [hdest] at h
    cases h
    exact register_error hdest
  | ok destReg =>
    rw [hdest] at h
    cases h

theorem registersCode_error {first second : CStr} {build : Fin 8 → Fin 8 → List UInt8}
    {stop : Stop} (h : registersCode first second build = .error stop) : stop = .rejected := by
  rw [registersCode] at h
  cases hfirst : register first with
  | error stop' =>
    rw [hfirst] at h
    cases h
    exact register_error hfirst
  | ok firstReg =>
    rw [hfirst] at h
    cases hsecond : register second with
    | error stop' =>
      rw [hsecond] at h
      cases h
      exact register_error hsecond
    | ok secondReg =>
      rw [hsecond] at h
      cases h

theorem callCode_ok {label : CStr} (h : callCode program layout label = .ok code) :
    ∃ addr, assemblerGetLabelSymbolAddr program.instructions layout label = some addr ∧
      code = bytecodeInstructionCreateSet BytecodeRegisterS (UInt16.ofNat addr)++
        bytecodeInstructionCreateAlu .extra BytecodeRegisterS BytecodeRegisterSP
          (extraCode .call) := by
  rw [callCode] at h
  cases haddr : assemblerGetLabelSymbolAddr program.instructions layout label with
  | none =>
    rw [haddr] at h
    cases h
  | some addr =>
    rw [haddr] at h
    exact ⟨addr, rfl, (Except.ok.inj h).symm⟩

/-- A jump is one instruction, or a promise of a shorter one. -/
theorem jmpCode_emits {addr machineCodeOffset machineCodeLen : ℕ}
    (h : jmpCode addr machineCodeOffset machineCodeLen = .ok code) :
    ∃ builts, Emits code builts ∧
      (builts.length = 1 ∨ (code.length = 2 ∧ machineCodeLen = 3)) := by
  have hnop : ∃ builts, Emits nopCode builts ∧
      (builts.length = 1 ∨ (nopCode.length = 2 ∧ machineCodeLen = 3)) :=
    ⟨_, emits_one (b := .miscNop) (by simp), Or.inl rfl⟩
  have hnops : machineCodeLen = 3 → ∃ builts, Emits (nopCode++nopCode) builts ∧
      (builts.length = 1 ∨ ((nopCode++nopCode).length = 2 ∧ machineCodeLen = 3)) :=
    fun h3 => ⟨_, emits_two (b := .miscNop) (c := .miscNop) (by simp) (by simp), Or.inr ⟨rfl, h3⟩⟩
  have hone : ∀ b : Built, b ≠ .miscIllegal → ∃ builts, Emits b.bytes builts ∧
      (builts.length = 1 ∨ (b.bytes.length = 2 ∧ machineCodeLen = 3)) :=
    fun b hb => ⟨_, emits_one hb, Or.inl rfl⟩
  rw [jmpCode] at h
  dsimp only at h
  split_ifs at h <;> cases h <;> first
    | exact hnop
    | exact hnops ‹_›
    | exact hone (.miscSet16 _ _) (by simp)
    | exact hone (.miscSet8 _ _) (by simp)
    | exact hone (.alu .inc _ _ _ (by decide)) (by simp)
    | exact hone (.alu .dec _ _ _ (by decide)) (by simp)

/-- Whatever is written for an instruction that is no define is made of as many as the
line counts, unless it is the promise of a shorter jump. -/
theorem instructionCode_emits {i : ℕ} {instruction : AssemblerInstruction}
    (hdefine : instruction.type.isDefine = false)
    (h : instructionCode program layout i instruction = .ok code) :
    ∃ builts, Emits code builts ∧ (builts.length = instruction.type.machineCodeInstructions ∨
      (code.length = 2 ∧ layout.machineCodeLen i = 3)) := by
  obtain ⟨lineIndex, type⟩ := instruction
  have hnone : Emits [] [] := ⟨rfl, by simp, by simp⟩
  rw [instructionCode] at h
  cases type with
  | define d => cases hdefine
  | allocation d => exact ⟨[], (Except.ok.inj h) ▸ hnone, Or.inl rfl⟩
  | label symbol => exact ⟨[], (Except.ok.inj h) ▸ hnone, Or.inl rfl⟩
  | const symbol value => exact ⟨[], (Except.ok.inj h) ▸ hnone, Or.inl rfl⟩
  | mov dest src =>
    obtain ⟨builts, hemits, hone⟩ := movCode_emits h
    exact ⟨builts, hemits, Or.inl hone⟩
  | syscall =>
    cases h
    exact ⟨_, emits_one (b := .miscSyscall) (by simp), Or.inl rfl⟩
  | clearInstructionCache =>
    cases h
    exact ⟨_, emits_one (b := .miscClearInstructionCache) (by simp), Or.inl rfl⟩
  | debug =>
    cases h
    exact ⟨_, emits_one (b := .miscDebug) (by simp), Or.inl rfl⟩
  | nop =>
    cases h
    exact ⟨_, emits_one (b := .miscNop) (by simp), Or.inl rfl⟩
  | alu d =>
    obtain ⟨destReg, opAReg, opBReg, rfl⟩ := aluCode_ok h
    exact ⟨_, emits_alu d.known _ _ _, Or.inl rfl⟩
  | jmp addr =>
    dsimp only at h
    split at h
    · cases h
    · exact jmpCode_emits h
  | push8 src =>
    dsimp only at h
    split at h
    · cases h
    · obtain ⟨srcReg, -, rfl⟩ := pushCode_ok h
      exact ⟨_, emits_two (b := .memory .store8 BytecodeRegisterSP srcReg (by decide))
        (c := .alu .inc BytecodeRegisterSP _ _ (by decide)) (by simp) (by simp), Or.inl rfl⟩
  | pop8 dest =>
    dsimp only at h
    split at h
    · cases h
    · obtain ⟨destReg, -, rfl⟩ := popCode_ok h
      exact ⟨_, emits_two (b := .alu .dec BytecodeRegisterSP _ _ (by decide))
        (c := .memory .load8 destReg BytecodeRegisterSP (by decide)) (by simp) (by simp), Or.inl rfl⟩
  | call label =>
    dsimp only at h
    split at h
    · cases h
    · split at h
      · cases h
      · obtain ⟨addr, -, rfl⟩ := callCode_ok h
        exact ⟨_, emits_two (b := .set BytecodeRegisterS (UInt16.ofNat addr))
          (c := .alu .extra BytecodeRegisterS BytecodeRegisterSP _ (by decide))
          (by simp) (by simp), Or.inl rfl⟩
  | ret =>
    dsimp only at h
    split at h
    · cases h
    · cases h
      exact ⟨_, emits_alu (by decide) _ _ _, Or.inl rfl⟩
  | store8 dest src =>
    obtain ⟨first, second, -, -, rfl⟩ := registersCode_ok h
    exact ⟨_, emits_one (b := .memory .store8 first second (by decide)) (by simp), Or.inl rfl⟩
  | load8 dest src =>
    obtain ⟨first, second, -, -, rfl⟩ := registersCode_ok h
    exact ⟨_, emits_one (b := .memory .load8 first second (by decide)) (by simp), Or.inl rfl⟩
  | xchg8 addrReg srcDestReg =>
    obtain ⟨first, second, -, -, rfl⟩ := registersCode_ok h
    exact ⟨_, emits_alu (by decide) _ _ _, Or.inl rfl⟩
  | clz destReg srcReg =>
    obtain ⟨first, second, -, -, rfl⟩ := registersCode_ok h
    exact ⟨_, emits_alu (by decide) _ _ _, Or.inl rfl⟩

end Cases

end ArduinoOS.Assembler.Generation
