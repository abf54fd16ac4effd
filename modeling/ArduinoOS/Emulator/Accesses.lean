import ArduinoOS.Emulator.Coupled

/-!
# Accesses to memory on both machines

A read of mapped bytes gives both machines the same value, and a write in place
leaves them with the same memory.
-/

set_option autoImplicit false

namespace ArduinoOS.Emulator
open ArduinoOS.Faulting ArduinoOS.Kernel ArduinoOS.Minifs ArduinoOS.Procman

/-- The bytes are mapped, as a block, and among the addresses. -/
structure ReadMapped (D : ℕ → Prop) (m : MemoryImage) (addr : UInt16) (len : ℕ) : Prop where
  inside : addr.toNat+len ≤ 65536
  readable : ∃ bytes, m.block addr.toNat len = some bytes
  among : ∀ i < len, D (addr.toNat+i)

/-- The bytes are among the addresses; outside the program they are written
where they are read. -/
structure WriteMapped (D : ℕ → Prop) (m : MemoryImage) (addr : UInt16) (len : ℕ) : Prop where
  inside : addr.toNat+len ≤ 65536
  place : BytecodeMemoryRamAddr ≤ addr.toNat → m.InPlace (addr.toNat-BytecodeMemoryRamAddr) len
  among : ∀ i < len, D (addr.toNat+i)

variable {φ : Type} {F : Files φ} {Inv : φ → Prop} {view : φ → FsView} {largest : ℕ}
  {pid : ℕ} {paths : ProcessPaths} {D : ℕ → Prop} {m : MemoryImage} {t : Running φ}
  {s : ProcTable × φ} {p : Process} {addr : UInt16}

section Reads

variable (hl : FilesLaw F Inv view largest) (hr : ReliableReads F Inv view)

include hl hr

theorem readBlock_matches (h : Matches Inv view pid paths D m t s p) {len : ℕ}
    (hmapped : ReadMapped D m addr len) :
    ∃ bytes s₁, procManProcessMemoryReadBlock F (s.1 pid) t.procData addr len s.2 =
        .ok (some bytes, s₁) ∧
      Matches Inv view pid paths D m t (s.1, s₁) p ∧
      ∀ i < len, bytes[i]? = some (p.memory (addr.toNat+i)) := by
  obtain ⟨bytes, hblock⟩ := hmapped.readable
  obtain ⟨s₁, hrun, hi₁, hv⟩ := readBlock_run hl hr h.inv h.memory addr len
  rw [hblock] at hrun
  refine ⟨bytes, s₁, hrun, ⟨hi₁, ?_, h.bytes, h.regs⟩, fun i hi => ?_⟩
  · rw [hv]
    exact h.memory
  · exact MemoryImage.byte_of_block hblock hi (h.bytes _ (hmapped.among i hi))

theorem readByte_run (h : Matches Inv view pid paths D m t s p)
    (hmapped : ReadMapped D m addr 1) :
    ∃ s', readByte F pid t addr s = .ok (some (p.memory addr.toNat), s') ∧
      Matches Inv view pid paths D m t s' p := by
  obtain ⟨bytes, s₁, hrun, hm, hbytes⟩ := readBlock_matches hl hr h hmapped
  have hfirst := hbytes 0 (by omega)
  have hvalue : procManProcessMemoryReadByte F (s.1 pid) t.procData addr s.2 =
      .ok (some (p.memory addr.toNat), s₁) := by
    rw [procManProcessMemoryReadByte, bind_of_ok hrun, Option.map_some, List.getD_eq_getElem?_getD,
      hfirst]
    rfl
  have hread : onFiles pid (fun process =>
      procManProcessMemoryReadByte F process t.procData addr) s =
      .ok (some (p.memory addr.toNat), (s.1, s₁)) := onSecond_ok.mpr ⟨hvalue, rfl⟩
  exact ⟨(s.1, s₁), hread, hm⟩

theorem readWord_run (h : Matches Inv view pid paths D m t s p)
    (hmapped : ReadMapped D m addr 2) :
    ∃ s', readWord F pid t addr s = .ok (some (UInt16.ofNat
        (256*(p.memory addr.toNat).toNat+(p.memory (addr.toNat+1)).toNat)), s') ∧
      Matches Inv view pid paths D m t s' p := by
  obtain ⟨bytes, s₁, hrun, hm, hbytes⟩ := readBlock_matches hl hr h hmapped
  have hvalue : procManProcessMemoryReadWord F (s.1 pid) t.procData addr s.2 =
      .ok (some (UInt16.ofNat
        (256*(p.memory addr.toNat).toNat+(p.memory (addr.toNat+1)).toNat)), s₁) := by
    rw [procManProcessMemoryReadWord, bind_of_ok hrun, Option.map_some,
      List.getD_eq_getElem?_getD, List.getD_eq_getElem?_getD, hbytes 0 (by omega),
      hbytes 1 (by omega)]
    rfl
  have hread : onFiles pid (fun process =>
      procManProcessMemoryReadWord F process t.procData addr) s = .ok (some (UInt16.ofNat
        (256*(p.memory addr.toNat).toNat+(p.memory (addr.toNat+1)).toNat)), (s.1, s₁)) :=
    onSecond_ok.mpr ⟨hvalue, rfl⟩
  exact ⟨(s.1, s₁), hread, hm⟩

end Reads

/-- A write in place, and the emulator's memory after the same write. -/
theorem writeMemory_run (hl : FilesLaw F Inv view largest) (hw : ReliableWrites F Inv view)
    (h : Matches Inv view pid paths D m t s p) {data : List UInt8}
    (hin : BytecodeMemoryRamAddr ≤ addr.toNat) (hmapped : WriteMapped D m addr data.length)
    {p' : Process} (hregs : p'.regs = p.regs)
    (hmemory : ∀ a, some (p'.memory a) = if addr.toNat ≤ a ∧ a < addr.toNat+data.length
      then data[a-addr.toNat]? else some (p.memory a)) :
    ∃ s' m', writeMemory F pid t addr data s = .ok ((true, t), s') ∧
      Matches Inv view pid paths D m' t s' p' := by
  obtain ⟨s₁, m', hrun, hi₁, hm₁, hbytes⟩ :=
    writeBlock_inPlace hl hw h.inv h.memory hin (hmapped.place hin)
  have hwritten : onFiles pid (fun process =>
      procManProcessMemoryWriteBlock F process t.procData addr data) s =
      .ok ((true, t.procData), (s.1, s₁)) := onSecond_ok.mpr ⟨hrun, rfl⟩
  refine ⟨(s.1, s₁), m', ?_, hi₁, hm₁, fun a ha => ?_, h.regs.trans hregs.symm⟩
  · rw [writeMemory, bind_of_ok hwritten]
    rfl
  · rw [hbytes, hmemory, h.bytes a ha]

theorem writeMemory_refused {data : List UInt8} (hin : addr.toNat < BytecodeMemoryRamAddr) :
    writeMemory F pid t addr data s = .ok ((false, t), s) := by
  have hwritten : onFiles pid (fun process =>
      procManProcessMemoryWriteBlock F process t.procData addr data) s =
      .ok ((false, t.procData), s) := onSecond_ok.mpr ⟨writeBlock_refused hin, rfl⟩
  rw [writeMemory, bind_of_ok hwritten]
  rfl

/-! ### The emulator's stores -/

theorem store_some {i : ℕ} (h : i < 65536) (v : UInt8) : p.store i v = some (p.setMemory i v) :=
  if_pos h

theorem load_some {i : ℕ} (h : i < 65536) : p.load i = some (p.memory i) := if_pos h

/-- A byte stored, as a write of one byte. -/
theorem setMemory_one (i : ℕ) (v : UInt8) (a : ℕ) :
    some ((p.setMemory i v).memory a) = if i ≤ a ∧ a < i+[v].length then [v][a-i]?
      else some (p.memory a) := by
  rw [Process.setMemory_memory]
  by_cases ha : a = i
  · rw [if_pos ha, if_pos (by simp; omega), ha, Nat.sub_self]
    rfl
  · rw [if_neg ha, if_neg (by simp; omega)]

/-- Two bytes stored, as a write of a word. -/
theorem setMemory_two (i : ℕ) (v w : UInt8) (a : ℕ) :
    some (((p.setMemory i v).setMemory (i+1) w).memory a) =
      if i ≤ a ∧ a < i+[v, w].length then [v, w][a-i]? else some (p.memory a) := by
  rw [Process.setMemory_memory, Process.setMemory_memory]
  by_cases hsecond : a = i+1
  · rw [if_pos hsecond, if_pos (by simp; omega), hsecond, Nat.add_sub_cancel_left]
    rfl
  by_cases hfirst : a = i
  · rw [if_neg hsecond, if_pos hfirst, if_pos (by simp; omega), hfirst, Nat.sub_self]
    rfl
  · rw [if_neg hsecond, if_neg hfirst, if_neg (by simp; omega)]

theorem next_toNat (h : addr.toNat+2 ≤ 65536) : (addr+1).toNat = addr.toNat+1 := by
  rw [UInt16.toNat_add]
  change (addr.toNat+1) % 65536 = _
  omega

theorem two_steps (v : UInt16) : v-1-1 = v-2 := by
  apply UInt16.toNat_inj.mp
  rw [UInt16.toNat_sub, UInt16.toNat_sub, UInt16.toNat_sub]
  have hv := v.toNat_lt
  change (2^16-1+(2^16-1+v.toNat)%2^16)%2^16 = (2^16-2+v.toNat)%2^16
  omega

theorem step_toNat {v : UInt16} (h : (v-2).toNat+2 ≤ 65536) : (v-1).toNat = (v-2).toNat+1 := by
  have hnext : v-2+1 = v-1 := by
    rw [← two_steps, UInt16.sub_add_cancel]
  rw [← hnext]
  exact next_toNat h

theorem storeNext_some {r : Fin 8} (v : UInt8) :
    storeNext p r v = some ((p.setMemory (p.regs r).toNat v).setReg r (p.regs r+1)) := by
  rw [storeNext, store_some (UInt16.toNat_lt _)]
  rfl

theorem held_two (i : ℕ) (v w : UInt8) :
    (∀ k < [v, w].length, some (p.memory (i+k)) = [v, w][k]?) ↔
      p.memory i = v ∧ p.memory (i+1) = w := by
  constructor
  · intro h
    exact ⟨Option.some.inj (h 0 (by simp)), Option.some.inj (h 1 (by simp))⟩
  · rintro ⟨hfirst, hsecond⟩ k hk
    have hcases : k = 0 ∨ k = 1 := by
      simp only [List.length_cons, List.length_nil] at hk
      omega
    rcases hcases with rfl | rfl
    · exact congrArg some hfirst
    · exact congrArg some hsecond

/-- A word through a register, byte by byte. -/
theorem push_some {r : Fin 8} (v : UInt16) (h : (p.regs r).toNat+2 ≤ 65536) :
    (storeNext p r (upperByte v)).bind (fun p₁ => storeNext p₁ r (lowerByte v)) =
      some (((p.setMemory (p.regs r).toNat (upperByte v)).setMemory ((p.regs r).toNat+1)
        (lowerByte v)).setReg r (p.regs r+2)) := by
  have hnext := next_toNat h
  have hreg : ((p.setMemory (p.regs r).toNat (upperByte v)).setReg r (p.regs r+1)).regs r =
      p.regs r+1 := by
    rw [Process.setReg_regs, if_pos rfl]
  have htwice : p.regs r+1+1 = p.regs r+2 := UInt16.add_assoc _ _ _
  rw [storeNext_some, Option.bind_some, storeNext_some, hreg, hnext, htwice]
  congr 1
  exact Process.setReg_setReg
    ((p.setMemory (p.regs r).toNat (upperByte v)).setMemory ((p.regs r).toNat+1) (lowerByte v))
    r _ _

/-- A word popped through a register, as the emulator does it. -/
def popThrough (p : Process) (destReg opAReg : Fin 8) : Option (Bool × Process) := do
  let p₁ := p.setReg opAReg (p.regs opAReg-1)
  let lower ← p₁.load (p₁.regs opAReg).toNat
  let p₂ := p₁.setReg destReg lower.toUInt16
  let p₃ := p₂.setReg opAReg (p₂.regs opAReg-1)
  let upper ← p₃.load (p₃.regs opAReg).toNat
  return (true, p₃.setReg destReg (p₃.regs destReg ||| (upper.toUInt16 <<< 8)))

theorem pop_apart {destReg opAReg : Fin 8} (hne : destReg ≠ opAReg)
    (h : (p.regs opAReg-2).toNat+2 ≤ 65536) :
    popThrough p destReg opAReg = some (true, (p.setReg opAReg (p.regs opAReg-2)).setReg destReg
      (UInt16.ofNat (256*(p.memory (p.regs opAReg-2).toNat).toNat+
        (p.memory ((p.regs opAReg-2).toNat+1)).toNat))) := by
  have hne' := hne.symm
  rw [popThrough]
  simp only [Process.setReg_regs, if_true, Process.setReg_memory, load_some (UInt16.toNat_lt _),
    Option.bind_eq_bind, Option.bind_some, Option.pure_def, if_neg hne, if_neg hne', two_steps,
    step_toNat h]
  rw [load_some (by omega), Option.bind_some, UInt16.or_comm, word_or,
    Process.setReg_comm _ hne, Process.setReg_setReg, Process.setReg_setReg]
  rfl

/-- Through the same register, what was read is moved on before it is used. -/
theorem pop_same {r : Fin 8} (h : (p.regs r-2).toNat+2 ≤ 65536) :
    ∃ p', popThrough p r r = some (true, p') ∧ p'.skipCounter = p.skipCounter ∧
      (p'.regs r).toNat%256 ≠ (p.memory ((p.regs r-2).toNat+1)).toNat := by
  rw [popThrough]
  simp only [Process.setReg_regs, if_true, Process.setReg_memory, load_some (UInt16.toNat_lt _),
    Option.bind_eq_bind, Option.bind_some, Option.pure_def, step_toNat h]
  rw [load_some (by omega), Option.bind_some]
  refine ⟨_, rfl, rfl, ?_⟩
  rw [Process.setReg_regs, if_pos rfl, low_or, UInt16.toNat_sub, Process.setReg_memory]
  have hlower := (p.memory ((p.regs r-2).toNat+1)).toNat_lt
  change (2^16-1+(p.memory ((p.regs r-2).toNat+1)).toNat)%2^16%256 ≠ _
  omega

end ArduinoOS.Emulator
