import ArduinoOS.Emulator.Process
import ArduinoOS.Procman.Encoding
import ArduinoOS.Lib.Stepping

/-!
# Running built instructions

What the emulator does when the memory at the instruction pointer holds the bytes of a
built instruction.
-/

set_option autoImplicit false

namespace ArduinoOS.Emulator
open ArduinoOS.Procman ArduinoOS.Procman.AssignedInfo ArduinoOS.Stepping

/-- The bytes stand in the memory from here on. -/
def HoldsAt (memory : ℕ → UInt8) (a : ℕ) (bytes : List UInt8) : Prop :=
  ∀ k < bytes.length, memory (a+k) = bytes.getD k 0

theorem holdsAt_append {memory : ℕ → UInt8} {a : ℕ} {xs ys : List UInt8} :
    HoldsAt memory a (xs++ys) ↔ HoldsAt memory a xs ∧ HoldsAt memory (a+xs.length) ys := by
  constructor
  · intro h
    refine ⟨fun k hk => ?_, fun k hk => ?_⟩
    · rw [h k (by rw [List.length_append]; omega), List.getD_append _ _ _ _ hk]
    · rw [Nat.add_assoc, h (xs.length+k) (by rw [List.length_append]; omega),
        List.getD_append_right _ _ _ _ (by omega), Nat.add_sub_cancel_left]
  · rintro ⟨hxs, hys⟩ k hk
    rw [List.length_append] at hk
    rcases Nat.lt_or_ge k xs.length with hlt | hge
    · rw [List.getD_append _ _ _ _ hlt, hxs k hlt]
    · have hat := hys (k-xs.length) (by omega)
      rw [show a+xs.length+(k-xs.length) = a+k by omega] at hat
      rw [List.getD_append_right _ _ _ _ hge, hat]

/-- Of the instruction pointer, at the end of some bytes. -/
def past (p : Process) (n : ℕ) : Process :=
  p.setReg BytecodeRegisterIP (p.regs BytecodeRegisterIP+UInt16.ofNat n)

/-- An instruction that is done counts. -/
def counted (r : Bool × Process) : Bool × Process := if r.1 then (true, r.2.countUp) else r

theorem counted_true (p : Process) : counted (true, p) = (true, p.countUp) := rfl

theorem past_past (p : Process) (m n : ℕ) : past (past p m) n = past p (m+n) := by
  rw [past, past, past, Process.setReg_setReg, Process.setReg_regs, if_pos rfl, UInt16.add_assoc,
    ← UInt16.ofNat_add]

theorem past_setReg (p : Process) {r : Fin 8} (h : r ≠ BytecodeRegisterIP) (v : UInt16) (n : ℕ) :
    past (p.setReg r v) n = (past p n).setReg r v := by
  rw [past, past, Process.setReg_regs, if_neg h.symm, Process.setReg_comm _ h]

theorem past_countUp (p : Process) (n : ℕ) : past p.countUp n = (past p n).countUp := rfl

theorem past_setMemory (p : Process) (a : ℕ) (v : UInt8) (n : ℕ) :
    past (p.setMemory a v) n = (past p n).setMemory a v := rfl

section Running

variable {p : Process} {bytes : List UInt8} {P : AssignedInfo → Prop}

theorem ip_next {v : UInt16} {k : ℕ} (h : v.toNat+k < 65536) :
    (v+UInt16.ofNat k).toNat = v.toNat+k := by
  rw [UInt16.toNat_add, UInt16.toNat_ofNat']
  omega

/-- The bytes of the instruction are fetched. -/
theorem processFetch_decodes (hd : Decodes bytes P)
    (hat : HoldsAt p.memory (p.regs BytecodeRegisterIP).toNat bytes)
    (hend : (p.regs BytecodeRegisterIP).toNat+bytes.length ≤ 65536) :
    processFetch p = (instructionAt bytes, past p bytes.length) := by
  obtain ⟨byte0, tail, rfl, hlen⟩ := hd.length
  have h0 : p.memory (p.regs BytecodeRegisterIP).toNat = byte0 := hat 0 (by simp)
  have hlength : bytecodeInstructionParseLength byte0 =
      if byte0.toNat < 208 then 1 else if byte0.toNat/8 ≠ 27 then 2 else 3 := rfl
  have htail : tail.length ≤ 2 := by
    rw [hlength, List.length_cons] at hlen
    split_ifs at hlen <;> omega
  simp only [processFetch, h0]
  rcases tail with _ | ⟨b1, _ | ⟨b2, _ | ⟨b3, tail⟩⟩⟩
  · rw [if_pos (show bytecodeInstructionParseLength byte0 = 1 from hlen)]
    rfl
  · have htwo : bytecodeInstructionParseLength byte0 = 2 := hlen
    have hnext : (p.regs BytecodeRegisterIP+1).toNat = (p.regs BytecodeRegisterIP).toNat+1 :=
      ip_next (k := 1) (by simp at hend; omega)
    have h1 : p.memory ((p.regs BytecodeRegisterIP).toNat+1) = b1 := hat 1 (by simp)
    rw [if_neg (by omega), if_pos htwo]
    simp only [Process.setReg_regs, if_true, Process.setReg_memory, Process.setReg_setReg]
    rw [hnext, h1, UInt16.add_assoc]
    rfl
  · have hthree : bytecodeInstructionParseLength byte0 = 3 := hlen
    have hnext : (p.regs BytecodeRegisterIP+1).toNat = (p.regs BytecodeRegisterIP).toNat+1 :=
      ip_next (k := 1) (by simp at hend; omega)
    have hnext' : (p.regs BytecodeRegisterIP+1+1).toNat = (p.regs BytecodeRegisterIP).toNat+2 := by
      rw [UInt16.add_assoc]
      exact ip_next (k := 2) (by simp at hend; omega)
    have h1 : p.memory ((p.regs BytecodeRegisterIP).toNat+1) = b1 := hat 1 (by simp)
    have h2 : p.memory ((p.regs BytecodeRegisterIP).toNat+2) = b2 := hat 2 (by simp)
    rw [if_neg (by omega), if_neg (by omega)]
    simp only [Process.setReg_regs, if_true, Process.setReg_memory, Process.setReg_setReg]
    rw [hnext, hnext', h1, h2, UInt16.add_assoc, UInt16.add_assoc]
    rfl
  · simp at htail

variable (sys : Process → Bool × Process)

/-- The instruction is executed, with the instruction pointer behind it. -/
theorem runNext_decodes (hd : Decodes bytes P)
    (hat : HoldsAt p.memory (p.regs BytecodeRegisterIP).toNat bytes)
    (hend : (p.regs BytecodeRegisterIP).toNat+bytes.length ≤ 65536) (hskip : p.skipCounter = 0) :
    processRunNextInstruction p sys =
      (processExec (past p bytes.length) sys (bytecodeInstructionParse (instructionAt bytes))).map
        counted := by
  rw [processRunNextInstruction, processFetch_decodes hd hat hend]
  have hcount : (past p bytes.length).skipCounter = 0 := hskip
  dsimp only
  rw [if_neg (by omega)]
  cases processExec (past p bytes.length) sys (bytecodeInstructionParse (instructionAt bytes)) with
  | none => rfl
  | some r =>
    obtain ⟨goesOn, p'⟩ := r
    cases goesOn <;> rfl

/-- It is passed over while instructions are to be skipped. -/
theorem runNext_skips (hd : Decodes bytes P)
    (hat : HoldsAt p.memory (p.regs BytecodeRegisterIP).toNat bytes)
    (hend : (p.regs BytecodeRegisterIP).toNat+bytes.length ≤ 65536) (hskip : 0 < p.skipCounter) :
    processRunNextInstruction p sys = some (true, (past p bytes.length).countDown) := by
  rw [processRunNextInstruction, processFetch_decodes hd hat hend]
  exact if_pos hskip

theorem parse_decodes (hd : Decodes bytes P) :
    ∃ info, P info ∧ bytecodeInstructionParse (instructionAt bytes) = info.seen := by
  have hinfo := hd.info []
  rw [List.append_nil] at hinfo
  exact ⟨_, hinfo, (assign_seen _).symm⟩

end Running

/-! ### The effects -/

section Effects

variable (p : Process) (sys : Process → Bool × Process)

theorem ofNat8_val (r : Fin 8) : Fin.ofNat 8 r.val = r := Fin.ext (Nat.mod_eq_of_lt r.isLt)

theorem bytecodeAluType_code {type : BytecodeInstructionAluType} (h : type ≠ .unknown) :
    bytecodeAluType type.code = type := by
  cases type with
  | unknown => exact absurd rfl h
  | _ => rfl

theorem parse_alu {type : BytecodeInstructionAluType} (h : type ≠ .unknown)
    (destReg opAReg opBReg : Fin 8) : bytecodeInstructionParse
      (instructionAt (bytecodeInstructionCreateAlu type destReg opAReg opBReg)) =
        .alu type destReg opAReg opBReg := by
  obtain ⟨info, rfl, hparse⟩ := parse_decodes (createAlu_decodes h destReg opAReg opBReg)
  rw [hparse]
  change BytecodeInstructionInfo.alu (bytecodeAluType type.code) (Fin.ofNat 8 destReg.val)
    (Fin.ofNat 8 opAReg.val) (Fin.ofNat 8 opBReg.val) = _
  rw [bytecodeAluType_code h, ofNat8_val, ofNat8_val, ofNat8_val]

theorem parse_memory {type : BytecodeInstructionMemoryType} (h : type ≠ .set4)
    (destReg srcReg : Fin 8) : bytecodeInstructionParse
      (instructionAt (bytecodeInstructionCreateMemory type destReg srcReg)) =
        .memory type destReg srcReg 0 := by
  obtain ⟨info, rfl, hparse⟩ := parse_decodes (createMemory_decodes type destReg srcReg h)
  rw [hparse]
  change BytecodeInstructionInfo.memory (bytecodeMemoryType type.code) (Fin.ofNat 8 destReg.val)
    (Fin.ofNat 8 srcReg.val) 0 = _
  rw [ofNat8_val, ofNat8_val]
  cases type with
  | set4 => exact absurd rfl h
  | _ => rfl

theorem parse_misc {type : ℕ} (h : type < 16) :
    bytecodeInstructionParse (instructionAt [UInt8.ofNat (192+type)]) =
      .misc (bytecodeMiscType type) := by
  obtain ⟨info, rfl, hparse⟩ := parse_decodes (createMisc_decodes h)
  exact hparse

theorem exec_set8 (destReg : Fin 8) (value : UInt8) :
    processExec p sys (bytecodeInstructionParse
      (instructionAt (bytecodeInstructionCreateMiscSet8 destReg value))) =
        some (true, p.setReg destReg value.toUInt16) := by
  obtain ⟨info, rfl, hparse⟩ := parse_decodes (createMiscSet8_decodes destReg value)
  rw [hparse]
  change some (true, p.setReg (Fin.ofNat 8 destReg.val) (UInt8.ofNat value.toNat).toUInt16) = _
  rw [ofNat8_val, UInt8.ofNat_toNat]

theorem exec_set16 (destReg : Fin 8) (value : UInt16) :
    processExec p sys (bytecodeInstructionParse
      (instructionAt (bytecodeInstructionCreateMiscSet16 destReg value))) =
        some (true, p.setReg destReg value) := by
  obtain ⟨info, rfl, hparse⟩ := parse_decodes (createMiscSet16_decodes destReg value)
  rw [hparse]
  change some (true, p.setReg (Fin.ofNat 8 destReg.val) (UInt16.ofNat value.toNat)) = _
  rw [ofNat8_val, UInt16.ofNat_toNat]

theorem toUInt16_ofNat {value : UInt16} (h : value.toNat < 256) :
    (UInt8.ofNat value.toNat).toUInt16 = value := by
  apply UInt16.toNat_inj.mp
  rw [UInt8.toNat_toUInt16, UInt8.toNat_ofNat', Nat.mod_eq_of_lt (by omega)]

/-- However short it is, the instruction sets the register. -/
theorem exec_set (destReg : Fin 8) (value : UInt16) :
    processExec p sys (bytecodeInstructionParse
      (instructionAt (bytecodeInstructionCreateSet destReg value))) =
        some (true, p.setReg destReg value) := by
  rw [bytecodeInstructionCreateSet]
  split
  · rename_i hsmall
    obtain ⟨info, rfl, hparse⟩ := parse_decodes (createMemorySet4_decodes
      (Fin.ofNat 4 destReg.val) (Fin.ofNat 16 value.toNat))
    have hdest : (Fin.ofNat 4 destReg.val).val = destReg.val := Nat.mod_eq_of_lt hsmall.2
    have hvalue : (Fin.ofNat 16 value.toNat).val = value.toNat := Nat.mod_eq_of_lt hsmall.1
    rw [hparse]
    change some (true, p.setReg (Fin.ofNat 8 (Fin.ofNat 4 destReg.val).val)
      (UInt16.ofNat (Fin.ofNat 16 value.toNat).val)) = _
    rw [hdest, hvalue, ofNat8_val, UInt16.ofNat_toNat]
  · split
    · rename_i hbyte
      rw [exec_set8, toUInt16_ofNat hbyte]
    · exact exec_set16 p sys destReg value

/-- The distance that the instruction encodes. -/
theorem incDecValue_ofNat {n : ℕ} (hpos : 0 < n) (hle : n ≤ 64) :
    incDecValue (Fin.ofNat 8 ((n-1)/8)) (Fin.ofNat 8 ((n-1)%8)) = UInt16.ofNat n := by
  rw [incDecValue]
  congr 1
  change 8*((n-1)/8%8)+(n-1)%8%8+1 = n
  omega

theorem createAluIncDecValue_decodes {type : BytecodeInstructionAluType} (h : type ≠ .unknown)
    (destReg : Fin 8) (n : ℕ) :
    Decodes (bytecodeInstructionCreateAluIncDecValue type destReg n) (fun _ => True) :=
  decodes_imp (createAlu_decodes h _ _ _) (fun _ _ => trivial)

theorem exec_inc (destReg : Fin 8) {n : ℕ} (hpos : 0 < n) (hle : n ≤ 64) :
    processExec p sys (bytecodeInstructionParse
      (instructionAt (bytecodeInstructionCreateAluIncDecValue .inc destReg n))) =
        some (true, p.setReg destReg (p.regs destReg+UInt16.ofNat n)) := by
  have hparse := parse_alu (show BytecodeInstructionAluType.inc ≠ .unknown by decide) destReg (Fin.ofNat 8 ((n-1)/8))
    (Fin.ofNat 8 ((n-1)%8))
  rw [← incDecValue_ofNat hpos hle]
  exact congrArg (processExec p sys) hparse

theorem exec_dec (destReg : Fin 8) {n : ℕ} (hpos : 0 < n) (hle : n ≤ 64) :
    processExec p sys (bytecodeInstructionParse
      (instructionAt (bytecodeInstructionCreateAluIncDecValue .dec destReg n))) =
        some (true, p.setReg destReg (p.regs destReg-UInt16.ofNat n)) := by
  have hparse := parse_alu (show BytecodeInstructionAluType.dec ≠ .unknown by decide) destReg (Fin.ofNat 8 ((n-1)/8))
    (Fin.ofNat 8 ((n-1)%8))
  rw [← incDecValue_ofNat hpos hle]
  exact congrArg (processExec p sys) hparse

end Effects

end ArduinoOS.Emulator
