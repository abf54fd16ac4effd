import ArduinoOS.Assembler.Assembled
import ArduinoOS.Emulator.Accesses
import ArduinoOS.Emulator.Executing

/-!
# What the lines of a program do

A machine that takes the lines of a program one by one, with the names and the symbols
as they stand there, and its steps as runs of the emulator over the assembled code.
-/

set_option autoImplicit false

namespace ArduinoOS.Assembler.Generation
open ArduinoOS.Procman ArduinoOS.Relaxation ArduinoOS.Stepping ArduinoOS.Emulator

/-! ### Lines -/

section Lines

variable (program : AssemblerProgram) (layout : Layout) (sys : Process → Bool × Process)

/-- The value of a mov's source. -/
def sourceValue (p : Process) (src : CStr) : Option UInt16 :=
  match sourceNumber program layout src with
  | some number => some (UInt16.ofNat number)
  | none => (assemblerRegisterFromStr src).map p.regs

/-- An arithmetic line, but no skip. -/
def aluExec (p : Process) (d : AssemblerInstructionAlu) : Option (Bool × Process) := do
  let dest ← assemblerRegisterFromStr d.dest
  match d.type with
  | .skip => none
  | .inc => some (true, p.setReg dest (p.regs dest+UInt16.ofNat d.incDecValue))
  | .dec => some (true, p.setReg dest (p.regs dest-UInt16.ofNat d.incDecValue))
  | .extra =>
      if d.extraType = .push16 then processExecAluExtra p BytecodeRegisterSP dest (extraCode .push16)
      else if d.extraType = .pop16 then
        processExecAluExtra p dest BytecodeRegisterSP (extraCode .pop16)
      else processExecAluExtra p dest (operand d.opA) (extraCode d.extraType)
  | type => processExecAlu p type dest (operand d.opA) (operand d.opB)

/-- A line that is one instruction, with the instruction pointer behind it. -/
def singleExec (p : Process) : AssemblerInstructionType → Option (Bool × Process)
  | .mov dest src => do
      let destReg ← assemblerRegisterFromStr dest
      let value ← sourceValue program layout p src
      some (true, p.setReg destReg value)
  | .jmp label => do
      let addr ← assemblerGetLabelSymbolAddr program.instructions layout label
      some (true, p.setReg BytecodeRegisterIP (UInt16.ofNat addr))
  | .alu d => aluExec p d
  | .ret => processExecAluExtra p BytecodeRegisterIP BytecodeRegisterSP (extraCode .pop16)
  | .store8 dest src => do
      let destReg ← assemblerRegisterFromStr dest
      let srcReg ← assemblerRegisterFromStr src
      processExecMemory p .store8 destReg srcReg 0
  | .load8 dest src => do
      let destReg ← assemblerRegisterFromStr dest
      let srcReg ← assemblerRegisterFromStr src
      processExecMemory p .load8 destReg srcReg 0
  | .xchg8 addrReg srcDestReg => do
      let addr ← assemblerRegisterFromStr addrReg
      let srcDest ← assemblerRegisterFromStr srcDestReg
      processExecAluExtra p addr srcDest (extraCode .xchg8)
  | .clz destReg srcReg => do
      let dest ← assemblerRegisterFromStr destReg
      let src ← assemblerRegisterFromStr srcReg
      some (true, p.setReg dest (clz16 (p.regs src)))
  | .syscall => some (sys p)
  | .nop | .clearInstructionCache | .debug => some (true, p)
  | _ => none

/-- A line, with the instruction pointer in front of it. -/
def lineExec (p : Process) (len : ℕ) : AssemblerInstructionType → Option (Bool × Process)
  | .push8 src => do
      let srcReg ← assemblerRegisterFromStr src
      let r ← processExecMemory (past p 1) .store8 BytecodeRegisterSP srcReg 0
      if r.1 then
        some (true, ((past r.2 2).setReg BytecodeRegisterSP
          (r.2.regs BytecodeRegisterSP+1)).countUp.countUp)
      else some r
  | .pop8 dest => do
      let destReg ← assemblerRegisterFromStr dest
      let value ← p.load (p.regs BytecodeRegisterSP-1).toNat
      some (true, (((past p 3).setReg BytecodeRegisterSP (p.regs BytecodeRegisterSP-1)).setReg
        destReg value.toUInt16).countUp.countUp)
  | .call label => do
      let addr ← assemblerGetLabelSymbolAddr program.instructions layout label
      let p₁ := (past p len).setReg BytecodeRegisterS (UInt16.ofNat addr)
      let p₂ ← storeNext p₁ BytecodeRegisterSP (upperByte (p₁.regs BytecodeRegisterIP))
      let p₃ ← storeNext p₂ BytecodeRegisterSP (lowerByte (p₁.regs BytecodeRegisterIP))
      some (true, (p₃.setReg BytecodeRegisterIP (UInt16.ofNat addr)).countUp.countUp)
  | type => (singleExec program layout sys (past p len) type).map counted

/-- The line whose code begins at an address. -/
def lineAt (addr : ℕ) : Option ℕ :=
  (List.range program.instructions.length).find? (fun i =>
    layout.machineCodeOffset i == addr && 0 < layout.machineCodeLen i)

/-- The line at the instruction pointer; a skip takes the next one with it. -/
def lineStep (p : Process) : Option (Bool × Process) := do
  let i ← lineAt program layout (p.regs BytecodeRegisterIP).toNat
  let instruction ← program.instructions[i]?
  match instruction.type with
  | .alu d =>
      if d.type = .skip then do
        let dest ← assemblerRegisterFromStr d.dest
        let p₁ := past p (layout.machineCodeLen i)
        if (p₁.regs dest).toNat/2^d.skipBit.val%2 = 1 then
          some (true, (past p₁ (layout.machineCodeLen (i+1))).countUp)
        else some (true, p₁.countUp)
      else lineExec program layout sys p (layout.machineCodeLen i) instruction.type
  | type => lineExec program layout sys p (layout.machineCodeLen i) type

end Lines

/-- The code of every line stands in the memory. -/
def Loaded (program : AssemblerProgram) (layout : Layout) (memory : ℕ → UInt8) : Prop :=
  ∀ i < program.instructions.length, HoldsAt memory (layout.machineCodeOffset i) (layout.machineCode i)

/-! ### One line -/

section Line

variable {program : AssemblerProgram} {layout : Layout} {sys : Process → Bool × Process}
  {p : Process} {bytes code : List UInt8} {P Q : AssignedInfo → Prop} {r : Bool × Process}

/-- The emulator's instructions come to this. -/
def RunsTo (sys : Process → Bool × Process) (p : Process) (r : Bool × Process) : Prop :=
  ∃ m, 0 < m ∧ runFor (fun p => processRunNextInstruction p sys) m p = some r

/-- The code stands at the instruction pointer, and nothing is to be skipped. -/
structure At (p : Process) (code : List UInt8) : Prop where
  held : HoldsAt p.memory (p.regs BytecodeRegisterIP).toNat code
  ends : (p.regs BytecodeRegisterIP).toNat+code.length ≤ BytecodeMemoryProgmemSize
  skips : p.skipCounter = 0

theorem At.below (h : At p code) : (p.regs BytecodeRegisterIP).toNat+code.length < 65536 :=
  Nat.lt_of_le_of_lt h.ends (by decide)

theorem one_runs (hd : Decodes code P) (hat : At p code)
    (h : (processExec (past p code.length) sys
      (bytecodeInstructionParse (instructionAt code))).map counted = some r) : RunsTo sys p r := by
  refine ⟨1, Nat.one_pos, ?_⟩
  rw [runFor_one, runNext_decodes sys hd hat.held (Nat.le_of_lt hat.below) hat.skips, h]

/-- The first instruction goes on to the second one. -/
theorem two_run {first second : List UInt8} (hd : Decodes first P) (hd' : Decodes second Q)
    (hat : At p (first++second)) {p' : Process}
    (hfirst : processExec (past p first.length) sys
      (bytecodeInstructionParse (instructionAt first)) = some (true, p'))
    (hat' : At p'.countUp second)
    (hsecond : (processExec (past p'.countUp second.length) sys
      (bytecodeInstructionParse (instructionAt second))).map counted = some r) :
    RunsTo sys p r := by
  have hends := hat.below
  rw [List.length_append] at hends
  refine ⟨2, Nat.two_pos, ?_⟩
  have hone : processRunNextInstruction p sys = some (true, p'.countUp) := by
    rw [runNext_decodes sys hd (holdsAt_append.mp hat.held).1 (by omega) hat.skips, hfirst]
    rfl
  rw [runFor_next hone 1, runFor_one,
    runNext_decodes sys hd' hat'.held (Nat.le_of_lt hat'.below) hat'.skips, hsecond]

theorem createSet_decodes (destReg : Fin 8) (value : UInt16) :
    Decodes (bytecodeInstructionCreateSet destReg value)
      (Built.Describes · (.set destReg value)) := built_decodes (.set destReg value)

theorem mov_runs {dest src : CStr} (hcode : movCode program layout dest src = .ok code)
    (hat : At p code)
    (h : (singleExec program layout sys (past p code.length) (.mov dest src)).map counted =
      some r) : RunsTo sys p r := by
  obtain ⟨destReg, hdest, ⟨hdigit, srcReg, hsrc, rfl⟩ | ⟨value, hvalue, rfl⟩⟩ := movCode_ok hcode
  · have hnone : sourceNumber program layout src = none := by
      rw [sourceNumber, if_neg (by simp [hdigit]), hsrc, if_pos Option.isSome_some]
    refine one_runs (createAlu_decodes (by decide) _ _ _) hat ?_
    rw [singleExec, hdest, sourceValue, hnone, hsrc] at h
    rw [parse_alu (by decide), processExec, processExecAlu, UInt16.or_self]
    exact h
  · refine one_runs (createSet_decodes _ _) hat ?_
    rw [singleExec, hdest, sourceValue, hvalue] at h
    rw [exec_set]
    exact h

theorem ip_moves {v w : UInt16} {n : ℕ} (h : v.toNat+n = w.toNat) : v+UInt16.ofNat n = w := by
  have hw := w.toNat_lt
  apply UInt16.toNat_inj.mp
  rw [UInt16.toNat_add, UInt16.toNat_ofNat']
  omega

theorem ip_moves_back {v w : UInt16} {n : ℕ} (h : w.toNat+n = v.toNat) :
    v-UInt16.ofNat n = w := by
  rw [← ip_moves h, UInt16.add_sub_cancel]

theorem setReg_self (p : Process) (r : Fin 8) : p.setReg r (p.regs r) = p := by
  rw [Process.setReg, Function.update_eq_self]

/-- Whatever code a jump has, it leads to the label. -/
theorem jmp_runs {addr len : ℕ} (haddr : addr < 65536)
    (hcode : jmpCode addr (p.regs BytecodeRegisterIP).toNat len = .ok code)
    (hlen : code.length = len) (hat : At p code) :
    RunsTo sys p (true, ((past p len).setReg BytecodeRegisterIP (UInt16.ofNat addr)).countUp) := by
  have hends := hat.below
  have htarget : (UInt16.ofNat addr).toNat = addr := by
    rw [UInt16.toNat_ofNat', Nat.mod_eq_of_lt haddr]
  have hip : ((past p len).regs BytecodeRegisterIP).toNat =
      (p.regs BytecodeRegisterIP).toNat+len := by
    rw [past, Process.setReg_regs, if_pos rfl]
    exact ip_next (by omega)
  rw [jmpCode] at hcode
  dsimp only at hcode
  by_cases hbehind : addr = (p.regs BytecodeRegisterIP).toNat+len
  · rw [if_pos hbehind] at hcode
    cases hcode
    refine one_runs (createMisc_decodes (show 0 < 16 by decide)) hat ?_
    have hsame : UInt16.ofNat addr = (past p len).regs BytecodeRegisterIP := by
      apply UInt16.toNat_inj.mp
      rw [htarget, hip, hbehind]
    rw [parse_misc (by decide), hsame, setReg_self, ← hlen]
    rfl
  · rw [if_neg hbehind] at hcode
    have hset : ∀ r : Bool × Process,
        r = (true, (past p len).setReg BytecodeRegisterIP (UInt16.ofNat addr)) →
        (some r).map counted =
          some (true, ((past p len).setReg BytecodeRegisterIP (UInt16.ofNat addr)).countUp) :=
      fun r hr => by rw [hr]; rfl
    by_cases h3 : len = 3
    · rw [if_pos h3] at hcode
      have hnops : (.ok (nopCode++nopCode) : Except Stop (List UInt8)) ≠ .ok code := by
        intro heq
        rw [← Except.ok.inj heq, h3] at hlen
        exact absurd hlen (by decide)
      have hset16 : code = bytecodeInstructionCreateMiscSet16 BytecodeRegisterIP
          (UInt16.ofNat addr) := by
        split_ifs at hcode
        all_goals first
          | exact absurd hcode hnops
          | exact (Except.ok.inj hcode).symm
      subst hset16
      refine one_runs (createMiscSet16_decodes _ _) hat ?_
      rw [exec_set16, hlen]
      exact hset _ rfl
    · rw [if_neg h3] at hcode
      by_cases h2 : len = 2
      · rw [if_pos h2] at hcode
        by_cases h256 : addr < 256
        · rw [if_pos h256] at hcode
          cases hcode
          refine one_runs (createMiscSet8_decodes _ _) hat ?_
          have hbyte : (UInt8.ofNat addr).toUInt16 = UInt16.ofNat addr := by
            apply UInt16.toNat_inj.mp
            rw [UInt8.toNat_toUInt16, UInt8.toNat_ofNat', htarget, Nat.mod_eq_of_lt h256]
          rw [exec_set8, hlen, hbyte]
          exact hset _ rfl
        · have hu16 : u16 ((p.regs BytecodeRegisterIP).toNat+len) =
              (p.regs BytecodeRegisterIP).toNat+len := u16_of_lt (by omega)
          rw [if_neg h256, hu16] at hcode
          split_ifs at hcode with hgt hup hlt hdown
          · cases hcode
            refine one_runs (createAluIncDecValue_decodes (by decide) _ _) hat ?_
            have hmoves : (past p len).regs BytecodeRegisterIP+
                UInt16.ofNat (addr-((p.regs BytecodeRegisterIP).toNat+len)) = UInt16.ofNat addr :=
              ip_moves (by omega)
            rw [exec_inc _ _ _ (by omega) hup, hlen, hmoves]
            exact hset _ rfl
          · cases hcode
            refine one_runs (createAluIncDecValue_decodes (by decide) _ _) hat ?_
            have hmoves : (past p len).regs BytecodeRegisterIP-
                UInt16.ofNat ((p.regs BytecodeRegisterIP).toNat+len-addr) = UInt16.ofNat addr :=
              ip_moves_back (by omega)
            rw [exec_dec _ _ _ (by omega) hdown, hlen, hmoves]
            exact hset _ rfl
      · rw [if_neg h2] at hcode
        cases hcode

/-- The code of an instruction of the arithmetic unit, with its operands by name. -/
theorem plain_runs {type : BytecodeInstructionAluType} (htype : type ≠ .unknown)
    (destReg opAReg opBReg : Fin 8)
    (hat : At p (bytecodeInstructionCreateAlu type destReg opAReg opBReg))
    (h : (processExecAlu (past p 2) type destReg opAReg opBReg).map counted = some r) :
    RunsTo sys p r := by
  refine one_runs (createAlu_decodes htype _ _ _) hat ?_
  rw [parse_alu htype]
  exact h

theorem alu_runs {i : ℕ} {d : AssemblerInstructionAlu} (hcode : aluCode program i d = .ok code)
    (hskip : d.type ≠ .skip) (hat : At p code)
    (h : (aluExec (past p 2) d).map counted = some r) : RunsTo sys p r := by
  rw [aluCode] at hcode
  split at hcode
  · cases hcode
  · cases hdest : register d.dest with
    | error stop =>
      rw [hdest] at hcode
      cases hcode
    | ok destReg =>
      rw [hdest] at hcode
      rw [aluExec, register_ok.mp hdest] at h
      dsimp only [bind, Except.bind, Option.bind] at hcode h
      cases htype : d.type with
      | skip => exact absurd htype hskip
      | unknown => exact absurd htype d.known
      | inc =>
        rw [htype] at hcode h
        cases hcode
        obtain ⟨hpos, hle⟩ := d.range (Or.inl htype)
        refine one_runs (createAluIncDecValue_decodes (by decide) _ _) hat ?_
        rw [exec_inc _ _ _ hpos hle]
        exact h
      | dec =>
        rw [htype] at hcode h
        cases hcode
        obtain ⟨hpos, hle⟩ := d.range (Or.inr htype)
        refine one_runs (createAluIncDecValue_decodes (by decide) _ _) hat ?_
        rw [exec_dec _ _ _ hpos hle]
        exact h
      | extra =>
        rw [htype] at hcode h
        dsimp only at hcode h
        split_ifs at hcode h
        · cases hcode
          exact plain_runs (by decide) _ _ _ hat h
        · cases hcode
          exact plain_runs (by decide) _ _ _ hat h
        · cases hcode
          exact plain_runs (by decide) _ _ _ hat h
      | _ =>
        rw [htype] at hcode h
        cases hcode
        exact plain_runs (by decide) _ _ _ hat h

theorem memory_runs {type : BytecodeInstructionMemoryType} (htype : type ≠ .set4)
    (destReg srcReg : Fin 8) (hat : At p (bytecodeInstructionCreateMemory type destReg srcReg))
    (h : (processExecMemory (past p 1) type destReg srcReg 0).map counted = some r) :
    RunsTo sys p r := by
  refine one_runs (createMemory_decodes type destReg srcReg htype) hat ?_
  rw [parse_memory htype]
  exact h

theorem misc_runs {type : ℕ} (htype : type < 16) (hat : At p [UInt8.ofNat (192+type)])
    (h : (processExecMisc (past p 1) sys (bytecodeMiscType type)).map counted = some r) :
    RunsTo sys p r := by
  refine one_runs (createMisc_decodes htype) hat ?_
  rw [parse_misc htype]
  exact h

theorem holdsAt_congr {memory memory' : ℕ → UInt8} {a : ℕ} (hat : HoldsAt memory a bytes)
    (h : ∀ k < bytes.length, memory' (a+k) = memory (a+k)) : HoldsAt memory' a bytes :=
  fun k hk => (h k hk).trans (hat k hk)

/-- The second instruction follows, if the first one has left it in place. -/
theorem at_second {first second : List UInt8} (hat : At p (first++second)) {p' : Process}
    (hip : p'.regs BytecodeRegisterIP = (past p first.length).regs BytecodeRegisterIP)
    (hskip : p'.skipCounter = p.skipCounter)
    (hmemory : ∀ k < second.length,
      p'.memory ((p.regs BytecodeRegisterIP).toNat+first.length+k) =
        p.memory ((p.regs BytecodeRegisterIP).toNat+first.length+k)) : At p' second := by
  have hends := hat.ends
  have hbelow := hat.below
  rw [List.length_append] at hends hbelow
  have hat' : (p'.regs BytecodeRegisterIP).toNat =
      (p.regs BytecodeRegisterIP).toNat+first.length := by
    rw [hip, past, Process.setReg_regs, if_pos rfl]
    exact ip_next (by omega)
  refine ⟨?_, by rw [hat']; omega, hskip.trans hat.skips⟩
  rw [hat']
  exact holdsAt_congr (holdsAt_append.mp hat.held).2 hmemory

theorem incSP_decodes : Decodes (bytecodeInstructionCreateAluIncDecValue .inc BytecodeRegisterSP 1)
    (fun _ => True) := createAluIncDecValue_decodes (by decide) _ _

theorem decSP_decodes : Decodes (bytecodeInstructionCreateAluIncDecValue .dec BytecodeRegisterSP 1)
    (fun _ => True) := createAluIncDecValue_decodes (by decide) _ _

/-- The byte is stored, and then the stack pointer moves on. -/
theorem push_runs {src : CStr} {len : ℕ} (hcode : pushCode src = .ok code) (hat : At p code)
    (h : lineExec program layout sys p len (.push8 src) = some r) : RunsTo sys p r := by
  obtain ⟨srcReg, hsrc, rfl⟩ := pushCode_ok hcode
  have hmem := createMemory_decodes .store8 BytecodeRegisterSP srcReg (by decide)
  have hends := hat.ends
  rw [List.length_append] at hends
  have hlast : (p.regs BytecodeRegisterIP).toNat+1+2 ≤ 32768 := by
    rw [Nat.add_assoc]
    exact hends
  have hstore : (past p 1).store ((past p 1).regs BytecodeRegisterSP).toNat
      ((past p 1).regs srcReg).toUInt8 = some ((past p 1).setMemory
        (p.regs BytecodeRegisterSP).toNat ((past p 1).regs srcReg).toUInt8) :=
    store_some (UInt16.toNat_lt _) _
  have hexec : processExecMemory (past p 1) .store8 BytecodeRegisterSP srcReg 0 =
      some (!decide ((p.regs BytecodeRegisterSP).toNat < BytecodeMemoryProgmemSize),
        (past p 1).setMemory (p.regs BytecodeRegisterSP).toNat
          ((past p 1).regs srcReg).toUInt8) := by
    rw [processExecMemory, hstore]
    rfl
  have hfirst : processExec (past p 1) sys (bytecodeInstructionParse (instructionAt
      (bytecodeInstructionCreateMemory .store8 BytecodeRegisterSP srcReg))) =
        processExecMemory (past p 1) .store8 BytecodeRegisterSP srcReg 0 := by
    rw [parse_memory (by decide)]
    rfl
  rw [lineExec, hsrc] at h
  change ((processExecMemory (past p 1) .store8 BytecodeRegisterSP srcReg 0).bind _) = some r at h
  rw [hexec] at hfirst h
  by_cases hram : (p.regs BytecodeRegisterSP).toNat < BytecodeMemoryProgmemSize
  · have hflag : (!decide ((p.regs BytecodeRegisterSP).toNat < BytecodeMemoryProgmemSize)) =
        false := by simp [hram]
    rw [hflag] at hfirst h
    refine ⟨1, Nat.one_pos, ?_⟩
    rw [runFor_one, runNext_decodes sys hmem (holdsAt_append.mp hat.held).1
      (by change _+1 ≤ 65536; omega) hat.skips]
    change (processExec (past p 1) sys _).map counted = _
    rw [hfirst]
    exact h
  · have hflag : (!decide ((p.regs BytecodeRegisterSP).toNat < BytecodeMemoryProgmemSize)) =
        true := by simp [hram]
    rw [hflag] at hfirst h
    refine two_run hmem incSP_decodes hat hfirst (at_second hat rfl rfl ?_) ?_
    · intro k hk
      change k < 2 at hk
      have hne : (p.regs BytecodeRegisterIP).toNat+1+k ≠ (p.regs BytecodeRegisterSP).toNat := by
        unfold BytecodeMemoryProgmemSize at hram
        omega
      exact Function.update_of_ne hne _ _
    · rw [exec_inc _ _ _ Nat.one_pos (by decide)]
      exact h

/-- The stack pointer moves back, and then the byte is loaded. -/
theorem pop_runs {dest : CStr} {len : ℕ} (hcode : popCode dest = .ok code) (hat : At p code)
    (h : lineExec program layout sys p len (.pop8 dest) = some r) : RunsTo sys p r := by
  obtain ⟨destReg, hdest, rfl⟩ := popCode_ok hcode
  have hfirst : processExec (past p 2) sys (bytecodeInstructionParse (instructionAt
      (bytecodeInstructionCreateAluIncDecValue .dec BytecodeRegisterSP 1))) =
      some (true, (past p 2).setReg BytecodeRegisterSP (p.regs BytecodeRegisterSP-1)) :=
    exec_dec _ _ _ Nat.one_pos (by decide)
  refine two_run decSP_decodes (createMemory_decodes .load8 destReg BytecodeRegisterSP (by decide))
    hat hfirst (at_second hat rfl rfl (fun _ _ => rfl)) ?_
  have hload : p.load (p.regs BytecodeRegisterSP-1).toNat =
      some (p.memory (p.regs BytecodeRegisterSP-1).toNat) := load_some (UInt16.toNat_lt _)
  rw [lineExec, hdest] at h
  change ((p.load (p.regs BytecodeRegisterSP-1).toNat).bind _) = some r at h
  rw [hload] at h
  change (processExec (past ((past p 2).setReg BytecodeRegisterSP
    (p.regs BytecodeRegisterSP-1)).countUp 1) sys _).map counted = _
  rw [parse_memory (by decide), past_countUp, past_setReg _ (by decide), past_past, processExec,
    processExecMemory, load_some (UInt16.toNat_lt _)]
  exact h

/-- The scratch register is set to the address, and then the call is made through it. -/
theorem call_runs {label : CStr} (hcode : callCode program layout label = .ok code)
    (hat : At p code)
    (h : lineExec program layout sys p code.length (.call label) = some r) : RunsTo sys p r := by
  obtain ⟨addr, haddr, rfl⟩ := callCode_ok hcode
  have hset := createSet_decodes BytecodeRegisterS (UInt16.ofNat addr)
  have hcall := createAlu_decodes (show BytecodeInstructionAluType.extra ≠ .unknown by decide)
    BytecodeRegisterS BytecodeRegisterSP (extraCode .call)
  refine two_run hset hcall hat (exec_set _ sys _ _) (at_second hat ?_ rfl (fun _ _ => rfl)) ?_
  · rw [Process.countUp_regs, Process.setReg_regs, if_neg (by decide)]
  rw [List.length_append] at h
  change lineExec program layout sys p
    ((bytecodeInstructionCreateSet BytecodeRegisterS (UInt16.ofNat addr)).length+2) _ = _ at h
  change (processExec (past ((past p _).setReg BytecodeRegisterS _).countUp 2) sys _).map counted = _
  rw [parse_alu (by decide), past_countUp, past_setReg _ (by decide), past_past]
  rw [lineExec, haddr] at h
  simp only [Option.bind_eq_bind, Option.bind_some] at h
  generalize hq : (past p ((bytecodeInstructionCreateSet BytecodeRegisterS
    (UInt16.ofNat addr)).length+2)).setReg BytecodeRegisterS (UInt16.ofNat addr) = q at h ⊢
  have hscratch : q.regs BytecodeRegisterS = UInt16.ofNat addr := by
    rw [← hq, Process.setReg_regs, if_pos rfl]
  -- neither byte that is pushed changes the scratch register
  have hkept : ∀ (p' : Process) (a : ℕ) (v : UInt8) (w : UInt16),
      ((p'.setMemory a v).setReg BytecodeRegisterSP w).regs BytecodeRegisterS =
        p'.regs BytecodeRegisterS := by
    intro p' a v w
    rw [Process.setReg_regs, if_neg (by decide), Process.setMemory_regs]
  change ((storeNext q BytecodeRegisterSP (upperByte (q.regs BytecodeRegisterIP))).bind
    (fun p₂ => (storeNext p₂ BytecodeRegisterSP (lowerByte (q.regs BytecodeRegisterIP))).bind _)) =
      some r at h
  rw [storeNext_some, Option.bind_some, storeNext_some, Option.bind_some] at h
  change (((storeNext q.countUp BytecodeRegisterSP
    (upperByte (q.regs BytecodeRegisterIP))).bind (fun p₂ => (storeNext p₂ BytecodeRegisterSP
      (lowerByte (q.regs BytecodeRegisterIP))).bind _)).map counted) = _
  rw [storeNext_some, Option.bind_some, storeNext_some, Option.bind_some, ← h]
  simp only [Option.pure_def, Option.map_some, counted_true, hkept, Process.countUp_regs, hscratch]
  rfl

/-- Instructions that are skipped are passed over one by one. -/
theorem skipped_run (builts : List Built) (h : HoldsAt p.memory (p.regs BytecodeRegisterIP).toNat
      (builts.flatMap Built.bytes))
    (hends : (p.regs BytecodeRegisterIP).toNat+(builts.flatMap Built.bytes).length < 65536)
    (hskip : p.skipCounter = builts.length) :
    runFor (fun p => processRunNextInstruction p sys) builts.length p =
      some (true, { past p (builts.flatMap Built.bytes).length with skipCounter := 0 }) := by
  induction builts generalizing p with
  | nil =>
    have hzero : p.skipCounter = 0 := hskip
    have hpast : past p 0 = p := by
      have hadd : p.regs BytecodeRegisterIP+UInt16.ofNat 0 = p.regs BytecodeRegisterIP :=
        UInt16.add_zero _
      rw [past, hadd, setReg_self]
    change some (true, p) = some (true, { past p 0 with skipCounter := 0 })
    rw [hpast, ← hzero]
  | cons b builts ih =>
    rw [List.flatMap_cons, List.length_append] at hends
    rw [List.flatMap_cons, holdsAt_append] at h
    rw [List.length_cons] at hskip
    have hfirst := runNext_skips sys (built_decodes b) h.1 (by omega) (by omega)
    have hip : ((past p b.bytes.length).countDown.regs BytecodeRegisterIP).toNat =
        (p.regs BytecodeRegisterIP).toNat+b.bytes.length := by
      rw [Process.countDown_regs, past, Process.setReg_regs, if_pos rfl]
      exact ip_next (by omega)
    rw [List.length_cons, runFor_next (show processRunNextInstruction p sys = _ from hfirst),
      ih (p := (past p b.bytes.length).countDown) (by rw [hip]; exact h.2) (by rw [hip]; omega) ?_]
    · have hpast : past (past p b.bytes.length).countDown (builts.flatMap Built.bytes).length =
          (past p (b.bytes.length+(builts.flatMap Built.bytes).length)).countDown := by
        rw [← past_past]
        rfl
      rw [hpast, List.flatMap_cons, List.length_append]
      rfl
    · change p.skipCounter-1 = builts.length
      omega

/-- A line that is no skip. -/
theorem line_runs {i : ℕ} {instruction : AssemblerInstruction}
    (hcode : instructionCode program layout i instruction = .ok code)
    (hlen : code.length = layout.machineCodeLen i)
    (hip : layout.machineCodeOffset i = (p.regs BytecodeRegisterIP).toNat)
    (hlabels : ∀ j, layout.machineCodeOffset j < 65536) (hat : At p code)
    (hskip : ∀ d, instruction.type = .alu d → d.type ≠ .skip)
    (h : lineExec program layout sys p code.length instruction.type = some r) :
    RunsTo sys p r := by
  obtain ⟨lineIndex, type⟩ := instruction
  rw [instructionCode] at hcode
  cases type with
  | mov dest src => exact mov_runs hcode hat h
  | alu d =>
    obtain ⟨destReg, opAReg, opBReg, rfl⟩ := aluCode_ok hcode
    exact alu_runs hcode (hskip d rfl) hat h
  | jmp label =>
    dsimp only at hcode
    cases haddr : assemblerGetLabelSymbolAddr program.instructions layout label with
    | none =>
      rw [haddr] at hcode
      cases hcode
    | some addr =>
      rw [haddr, hip] at hcode
      have hlt : addr < 65536 := by
        rw [assemblerGetLabelSymbolAddr, Option.map_eq_some_iff] at haddr
        obtain ⟨j, -, hj⟩ := haddr
        rw [← hj]
        exact hlabels j
      have hruns : RunsTo sys p _ := jmp_runs hlt hcode hlen hat
      rw [lineExec, singleExec, haddr, hlen] at h
      · exact (Option.some.inj h) ▸ hruns
      all_goals simp
  | push8 src =>
    dsimp only at hcode
    split at hcode
    · cases hcode
    · exact push_runs hcode hat h
  | pop8 dest =>
    dsimp only at hcode
    split at hcode
    · cases hcode
    · exact pop_runs hcode hat h
  | call label =>
    dsimp only at hcode
    split at hcode
    · cases hcode
    · split at hcode
      · cases hcode
      · exact call_runs hcode hat h
  | ret =>
    dsimp only at hcode
    split at hcode
    · cases hcode
    · cases hcode
      exact plain_runs (by decide) _ _ _ hat h
  | store8 dest src =>
    obtain ⟨first, second, hfirst, hsecond, rfl⟩ := registersCode_ok hcode
    refine memory_runs (by decide) _ _ hat ?_
    change (singleExec program layout sys (past p 1) (.store8 dest src)).map counted = _ at h
    rw [singleExec, hfirst, hsecond] at h
    exact h
  | load8 dest src =>
    obtain ⟨first, second, hfirst, hsecond, rfl⟩ := registersCode_ok hcode
    refine memory_runs (by decide) _ _ hat ?_
    change (singleExec program layout sys (past p 1) (.load8 dest src)).map counted = _ at h
    rw [singleExec, hfirst, hsecond] at h
    exact h
  | xchg8 addrReg srcDestReg =>
    obtain ⟨first, second, hfirst, hsecond, rfl⟩ := registersCode_ok hcode
    refine plain_runs (show BytecodeInstructionAluType.extra ≠ .unknown by decide) _ _ _ hat ?_
    change (singleExec program layout sys (past p 2) (.xchg8 addrReg srcDestReg)).map counted = _
      at h
    rw [singleExec, hfirst, hsecond] at h
    exact h
  | clz destReg srcReg =>
    obtain ⟨first, second, hfirst, hsecond, rfl⟩ := registersCode_ok hcode
    refine plain_runs (show BytecodeInstructionAluType.extra ≠ .unknown by decide) _ _ _ hat ?_
    change (singleExec program layout sys (past p 2) (.clz destReg srcReg)).map counted = _ at h
    rw [singleExec, hfirst, hsecond] at h
    change (some (true, Process.setReg _ first (emulatorClz16 _))).map counted = _
    rw [emulatorClz16_eq]
    exact h
  | syscall =>
    cases hcode
    exact misc_runs (show 1 < 16 by decide) hat h
  | clearInstructionCache =>
    cases hcode
    exact misc_runs (show 2 < 16 by decide) hat h
  | debug =>
    cases hcode
    exact misc_runs (show 4 < 16 by decide) hat h
  | nop =>
    cases hcode
    exact misc_runs (show 0 < 16 by decide) hat h
  | _ => cases h

theorem countUp_past (p : Process) (n : ℕ) : (past p n).countUp = past p.countUp n := rfl

/-- A skip that finds its bit set passes over the next line, however many instructions it
has; else that line is the next one. -/
theorem skip_runs {i : ℕ} {d : AssemblerInstructionAlu} {next : List UInt8} {builts : List Built}
    {nextInstruction : AssemblerInstruction} (hcode : aluCode program i d = .ok code)
    (htype : d.type = .skip) (hat : At p code)
    (hnext : program.instructions[i+1]? = some nextInstruction)
    (hbuilts : next = builts.flatMap Built.bytes)
    (hcount : builts.length = nextInstruction.type.machineCodeInstructions)
    (hfew : builts.length ≤ 2) (hheld : HoldsAt p.memory ((p.regs BytecodeRegisterIP).toNat+2) next)
    (hends : (p.regs BytecodeRegisterIP).toNat+2+next.length < 65536) {dest : Fin 8}
    (hdest : assemblerRegisterFromStr d.dest = some dest) :
    RunsTo sys p (true, if ((past p 2).regs dest).toNat/2^d.skipBit.val%2 = 1 then
      (past (past p 2) next.length).countUp else (past p 2).countUp) := by
  rw [aluCode, if_neg (by rw [htype]; rintro ⟨-, h, -⟩; cases h),
    register_ok.mpr hdest, htype] at hcode
  dsimp only [bind, Except.bind] at hcode
  rw [skipDistance, hnext] at hcode
  dsimp only at hcode
  by_cases hnone : nextInstruction.type.machineCodeInstructions = 0
  · rw [if_pos hnone] at hcode
    cases hcode
  rw [if_neg hnone] at hcode
  cases hcode
  have hdistance : (Fin.ofNat 8 (nextInstruction.type.machineCodeInstructions-1)).val+1 =
      builts.length := by
    change (nextInstruction.type.machineCodeInstructions-1)%8+1 = builts.length
    omega
  have hfirst : processRunNextInstruction p sys = some (true,
      { past p 2 with skipCounter := if ((past p 2).regs dest).toNat/2^d.skipBit.val%2 = 1 then
          builts.length else 0 }.countUp) := by
    rw [runNext_decodes sys (createAlu_decodes (by decide) _ _ _) hat.held
      (Nat.le_of_lt hat.below) hat.skips, parse_alu (by decide), ← hdistance]
    rfl
  by_cases hbit : ((past p 2).regs dest).toNat/2^d.skipBit.val%2 = 1
  · rw [if_pos hbit] at hfirst ⊢
    have hip : ((past p 2).regs BytecodeRegisterIP).toNat =
        (p.regs BytecodeRegisterIP).toNat+2 := by
      rw [past, Process.setReg_regs, if_pos rfl]
      exact ip_next (by omega)
    refine ⟨1+builts.length, by omega, ?_⟩
    rw [Nat.add_comm, runFor_next hfirst,
      skipped_run builts (by rw [← hbuilts]; exact hip ▸ hheld)
        (by rw [← hbuilts]; exact hip ▸ hends) rfl, ← hbuilts]
    have hskips := hat.skips
    congr 2
    change { (past (past p 2) next.length).countUp with skipCounter := 0 } = _
    rw [← hskips]
    rfl
  · rw [if_neg hbit] at hfirst ⊢
    refine ⟨1, Nat.one_pos, ?_⟩
    rw [runFor_one, hfirst, ← hat.skips]
    rfl

/-- What a skip can skip. -/
theorem skip_next {i : ℕ} {d : AssemblerInstructionAlu} (hcode : aluCode program i d = .ok code)
    (htype : d.type = .skip) : ∃ next, program.instructions[i+1]? = some next ∧
      next.type.machineCodeInstructions ≠ 0 := by
  rw [aluCode, if_neg (by rw [htype]; rintro ⟨-, h, -⟩; cases h), htype] at hcode
  cases hdest : register d.dest with
  | error stop =>
    rw [hdest] at hcode
    cases hcode
  | ok destReg =>
    rw [hdest] at hcode
    dsimp only [bind, Except.bind] at hcode
    rw [skipDistance] at hcode
    cases hnext : program.instructions[i+1]? with
    | none =>
      rw [hnext] at hcode
      cases hcode
    | some next =>
      rw [hnext] at hcode
      dsimp only at hcode
      refine ⟨next, rfl, fun hnone => ?_⟩
      rw [if_pos hnone] at hcode
      cases hcode

end Line

/-! ### Runs -/

section Runs

variable {program : AssemblerProgram} {layout : Layout} {sys : Process → Bool × Process}
  {p : Process} {r : Bool × Process}

/-- The assembled program is in the memory, and no instruction is to be skipped. -/
structure InMemory (program : AssemblerProgram) (layout : Layout) (p : Process) : Prop where
  loaded : Loaded program layout p.memory
  skips : p.skipCounter = 0

/-- The program fits the memory for programs. -/
structure Runnable (program : AssemblerProgram) (layout : Layout) : Prop where
  settled : Settled program layout
  fits : offset layout.machineCodeLen program.instructions.length ≤ BytecodeMemoryProgmemSize

theorem runnable_offset (h : Runnable program layout) {i : ℕ}
    (hi : i ≤ program.instructions.length) :
    layout.machineCodeOffset i = offset layout.machineCodeLen i := by
  have hle := offset_le layout.machineCodeLen hi
  have hfits := h.fits
  unfold BytecodeMemoryProgmemSize at hfits
  rw [h.settled.laid.machineCodeOffset]
  change u16 (codeOffset layout.machineCodeLen i) = _
  rw [codeOffset_eq, u16_of_lt (by omega)]

theorem runnable_end (h : Runnable program layout) {i : ℕ} (hi : i < program.instructions.length) :
    layout.machineCodeOffset i+layout.machineCodeLen i = layout.machineCodeOffset (i+1) ∧
      layout.machineCodeOffset (i+1) ≤ BytecodeMemoryProgmemSize := by
  have hle := offset_le layout.machineCodeLen (Nat.succ_le_of_lt hi)
  have hfits := h.fits
  rw [runnable_offset h (Nat.le_of_lt hi), runnable_offset h hi, offset_succ]
  rw [Nat.succ_eq_add_one, offset_succ] at hle
  exact ⟨rfl, Nat.le_trans hle hfits⟩

theorem runnable_below (h : Runnable program layout) (j : ℕ) :
    layout.machineCodeOffset j < 65536 := by
  rw [h.settled.laid.machineCodeOffset]
  exact u16_lt _

theorem at_line (h : Runnable program layout) (hp : InMemory program layout p) {i : ℕ}
    (hi : i < program.instructions.length)
    (hip : layout.machineCodeOffset i = (p.regs BytecodeRegisterIP).toNat) :
    At p (layout.machineCode i) := by
  obtain ⟨hend, hbelow⟩ := runnable_end h hi
  have hlen := h.settled.length i hi
  exact ⟨hip ▸ hp.loaded i hi, by omega, hp.skips⟩

/-- The instructions of a line that is not skipped itself. -/
theorem line_builts (h : Runnable program layout) {i : ℕ} {instruction : AssemblerInstruction}
    (hi : program.instructions[i]? = some instruction)
    (hdefine : instruction.type.isDefine = false) :
    ∃ builts : List Built, layout.machineCode i = builts.flatMap Built.bytes ∧ builts.length ≤ 2 ∧
      builts.length = instruction.type.machineCodeInstructions := by
  obtain ⟨builts, hemits, hcount⟩ := instructionCode_emits hdefine (h.settled.code i _ hi)
  have hlen := h.settled.length i (List.getElem?_eq_some_iff.mp hi).1
  rcases hcount with hcount | ⟨htwo, hthree⟩
  · exact ⟨builts, hemits.bytes, hemits.few, hcount⟩
  · omega

/-- One step of the lines is a run of the emulator. -/
theorem lineStep_runs (h : Runnable program layout) (hp : InMemory program layout p)
    (hstep : lineStep program layout sys p = some r) : RunsTo sys p r := by
  rw [lineStep] at hstep
  cases hline : lineAt program layout (p.regs BytecodeRegisterIP).toNat with
  | none =>
    rw [hline] at hstep
    cases hstep
  | some i =>
    rw [hline] at hstep
    have hfound := List.find?_some hline
    have hi : i < program.instructions.length :=
      List.mem_range.mp (List.mem_of_find?_eq_some hline)
    rw [Bool.and_eq_true, beq_iff_eq] at hfound
    have hip := hfound.1
    have hat := at_line h hp hi hip
    obtain ⟨⟨lineIndex, type⟩, hget⟩ : ∃ instruction, program.instructions[i]? =
        some instruction := ⟨_, List.getElem?_eq_getElem hi⟩
    have hcode := h.settled.code i _ hget
    have hlen := h.settled.length i hi
    change (program.instructions[i]?).bind _ = some r at hstep
    rw [hget] at hstep
    have hplain : (∀ d, type = .alu d → d.type ≠ .skip) →
        lineExec program layout sys p (layout.machineCodeLen i) type = some r → RunsTo sys p r :=
      fun hskip hexec => line_runs hcode hlen hip (runnable_below h) hat hskip (hlen ▸ hexec)
    by_cases hskip : ∃ d, type = .alu d ∧ d.type = .skip
    · obtain ⟨d, rfl, htype⟩ := hskip
      obtain ⟨next, hnext, hsome⟩ := skip_next hcode htype
      have hdefine : next.type.isDefine = false := by
        cases hnextType : next.type with
        | define d => exact absurd (by rw [hnextType]; rfl) hsome
        | _ => rfl
      obtain ⟨builts, hbuilts, hfew, hcount⟩ := line_builts h hnext hdefine
      have hi' := (List.getElem?_eq_some_iff.mp hnext).1
      obtain ⟨hend, -⟩ := runnable_end h hi
      obtain ⟨hend', hbelow'⟩ := runnable_end h hi'
      have hlen' := h.settled.length (i+1) hi'
      have htwo : layout.machineCodeLen i = 2 := by
        obtain ⟨destReg, opAReg, opBReg, hbytes⟩ := aluCode_ok hcode
        rw [← hlen, hbytes]
        rfl
      unfold BytecodeMemoryProgmemSize at hbelow'
      change (if d.type = .skip then _ else _) = some r at hstep
      rw [if_pos htype] at hstep
      cases hdest : assemblerRegisterFromStr d.dest with
      | none =>
        rw [hdest] at hstep
        cases hstep
      | some dest =>
        rw [hdest, htwo, ← hlen'] at hstep
        have hruns : RunsTo sys p _ := skip_runs hcode htype hat hnext hbuilts hcount hfew
          (by have hheld := hp.loaded (i+1) hi'; rwa [← hend, hip, htwo] at hheld)
          (by omega) hdest
        change (if ((past p 2).regs dest).toNat/2^d.skipBit.val%2 = 1 then _ else _) = some r
          at hstep
        split at hstep
        · rename_i hbit
          rw [if_pos hbit] at hruns
          exact (Option.some.inj hstep) ▸ hruns
        · rename_i hbit
          rw [if_neg hbit] at hruns
          exact (Option.some.inj hstep) ▸ hruns
    · have hskip' : ∀ d, type = .alu d → d.type ≠ .skip :=
        fun d hd htype => hskip ⟨d, hd, htype⟩
      refine hplain hskip' ?_
      cases type with
      | alu d =>
        change (if d.type = .skip then _ else _) = some r at hstep
        rw [if_neg (hskip' d rfl)] at hstep
        exact hstep
      | _ => exact hstep

/-- A run of the lines is a run of the emulator over the assembled code, as long as the code
stays in place. -/
theorem lines_run (h : Runnable program layout) (sys : Process → Bool × Process) (n : ℕ)
    (p : Process) (r : Bool × Process)
    (hplace : Along (lineStep program layout sys) (InMemory program layout) n p)
    (hrun : runFor (lineStep program layout sys) n p = some r) :
    ∃ m, runFor (fun p => processRunNextInstruction p sys) m p = some r ∧ (r.1 = true → n ≤ m) :=
  runs_simulated (fun _ _ hp hstep => lineStep_runs h hp hstep) n p r hplace hrun

/-- The code of every line is in a memory that holds the file. -/
theorem loaded_of_file {stackSetLineIndex : ℕ} {result : AssemblerProgram × Layout}
    (h : Assembled program stackSetLineIndex result) {memory : ℕ → UInt8}
    (hmemory : HoldsAt memory 0 (assemblerProgramWriteMachineCode result.1 result.2)) :
    Loaded result.1 result.2 memory := by
  have hlength := (setStackPointer_same program stackSetLineIndex
    result.2.stackRamOffset).lines.length_eq
  rw [← h.lines] at hlength
  intro i hi k hk
  have hcode := h.code i (hlength ▸ hi)
  have hlen := h.settled.length i hi
  rw [hlen] at hk
  generalize hfile : assemblerProgramWriteMachineCode result.1 result.2 = file at hmemory hcode
  have hbound : result.2.machineCodeOffset i+k < file.length := by
    have hpiece := congrArg List.length hcode
    rw [List.length_take, List.length_drop, hlen] at hpiece
    omega
  have hbyte := hmemory (result.2.machineCodeOffset i+k) hbound
  rw [Nat.zero_add] at hbyte
  rw [hbyte, ← hcode, List.getD_eq_getElem?_getD, List.getD_eq_getElem?_getD,
    List.getElem?_take_of_lt hk, List.getElem?_drop]

theorem assembled_of_result {program : AssemblerProgram} {stackSetLineIndex : ℕ}
    (hfits : ∀ lengths, assemblerProgramCalculateInitialMachineCodeLengths program = .ok lengths →
      Fits program (initialLayout lengths).machineCodeLen)
    (hram : RamFits program) (hline : StackLine program stackSetLineIndex)
    {result : AssemblerProgram × Layout}
    (hresult : assembleInstructions program stackSetLineIndex 65536 = some (.ok result)) :
    Assembled program stackSetLineIndex result := by
  cases hinitial : assemblerProgramCalculateInitialMachineCodeLengths program with
  | error stop =>
    rw [assembleInstructions, hinitial] at hresult
    cases hresult
  | ok lengths =>
    obtain ⟨result', hend, hends⟩ := rounds_assemble program stackSetLineIndex hinitial
      (hfits lengths hinitial) hram hline
    rw [hresult] at hend
    cases hend
    exact hends

/-- What the assembler makes of the program that jumps to itself. -/
def jumpAssembled : AssemblerProgram × Layout :=
  match assembleInstructions jumpProgram 0 65536 with
  | some (.ok result) => result
  | _ => (jumpProgram, initialLayout [])

def jumpFile : List UInt8 := assemblerProgramWriteMachineCode jumpAssembled.1 jumpAssembled.2

def jumpProcess : Process where
  regs _ := 0
  memory a := jumpFile.getD a 0
  skipCounter := 0
  instructionCount := 0

def noSyscalls (p : Process) : Bool × Process := (true, p)

theorem jumpProcess_run (k : ℕ) (hk : k < 2) (t : Process)
    (ht : runFor (lineStep jumpAssembled.1 jumpAssembled.2 noSyscalls) k jumpProcess =
      some (true, t)) : t.skipCounter = 0 ∧ t.memory = jumpProcess.memory := by
  rcases Nat.lt_succ_iff_lt_or_eq.mp hk with hlt | rfl
  · obtain rfl : k = 0 := by omega
    cases ht
    exact ⟨rfl, rfl⟩
  · have hone : runFor (lineStep jumpAssembled.1 jumpAssembled.2 noSyscalls) 1 jumpProcess =
        some (true, ((past jumpProcess 3).setReg BytecodeRegisterSP 32768).countUp) := rfl
    rw [hone] at ht
    cases ht
    exact ⟨rfl, rfl⟩

end Runs

end ArduinoOS.Assembler.Generation
