import ArduinoOS.Emulator.Process
import ArduinoOS.Procman.Instructions
import ArduinoOS.Procman.MemoryRun

/-!
# The kernel's memory, byte by byte

A process's memory under the kernel as a partial array, for comparing it with
the emulator's array: what a mapped byte is, what a write in place does to the
bytes, and that a buffer filled from memory holds the bytes of memory.
-/

set_option autoImplicit false

namespace ArduinoOS.Procman
open ArduinoOS.Faulting ArduinoOS.Kernel ArduinoOS.Minifs

namespace MemoryImage

/-- The byte at an address, if it is mapped. -/
def byte (m : MemoryImage) (a : ℕ) : Option UInt8 := (m.block a 1).bind List.head?

/-- A write at this index of the RAM is done where its bytes are read. -/
def InPlace (m : MemoryImage) (index len : ℕ) : Prop :=
  index+len < m.ram.length ∨
    (m.ram.length ≤ index ∧ envIndex ≤ index ∧ index-envIndex+len ≤ m.env.length)

theorem sliceOf_head (bytes : List UInt8) (offset : ℕ) :
    (sliceOf bytes offset 1).bind List.head? = bytes[offset]? := by
  by_cases hin : offset < bytes.length
  · rw [sliceOf, if_pos (by omega), Option.bind_some, List.head?_take, List.head?_drop]
    simp
  · rw [sliceOf, if_neg (by omega), List.getElem?_eq_none (by omega)]
    rfl

theorem byte_prog {m : MemoryImage} {a : ℕ} (h : a+1 < BytecodeMemoryRamAddr) :
    m.byte a = m.prog[a]? := by
  rw [byte, block_prog h, sliceOf_head]

theorem byte_ram {m : MemoryImage} {a : ℕ} (h : BytecodeMemoryRamAddr ≤ a) :
    m.byte a = (m.offsetOf (a-BytecodeMemoryRamAddr)).bind (fun offset => m.file[offset]?) := by
  rw [byte, block, if_neg (by omega), if_pos h, Option.bind_assoc]
  congr 1
  funext offset
  exact sliceOf_head _ _

theorem byte_between {m : MemoryImage} {a : ℕ} (h : a+1 = BytecodeMemoryRamAddr) :
    m.byte a = none := by
  rw [byte, block, if_neg (by omega), if_neg (by omega)]
  rfl

/-- A block holds the mapped bytes of its addresses. -/
theorem byte_of_block {m : MemoryImage} {addr len k : ℕ} {bytes : List UInt8} {b : UInt8}
    (h : m.block addr len = some bytes) (hk : k < len) (hb : m.byte (addr+k) = some b) :
    bytes[k]? = some b := by
  rcases block_byte h hk with hone | hbeyond
  · rw [byte, hone] at hb
    cases hget : bytes[k]? with
    | none =>
      rw [hget] at hb
      cases hb
    | some b' =>
      rw [hget] at hb
      exact hb
  · rw [byte, beyond_unreadable hbeyond] at hb
    cases hb

/-- The offset that a write in place goes to. -/
def writeOffset (m : MemoryImage) (index len : ℕ) : ℕ :=
  if index+len < m.ram.length then m.env.length+index else index-envIndex

theorem inPlace_offset {m : MemoryImage} {index len k : ℕ} (h : m.InPlace index len)
    (hk : k < len) : m.offsetOf (index+k) = some (m.writeOffset index len+k) := by
  rcases h with hram | ⟨hout, hlow, hend⟩
  · rw [offsetOf_ram (by omega), writeOffset, if_pos hram, Nat.add_assoc]
  · rw [offsetOf_env (by omega) (by omega) (by omega), writeOffset, if_neg (by omega),
      Nat.sub_add_comm hlow]

theorem inPlace_bound {m : MemoryImage} {index len : ℕ} (h : m.InPlace index len) :
    m.writeOffset index len+len ≤ m.file.length := by
  have hfile := m.file_length
  rcases h with hram | ⟨hout, hlow, hend⟩
  · rw [writeOffset, if_pos hram]
    omega
  · rw [writeOffset, if_neg (by omega)]
    omega

/-- Other addresses are read from other places of the file. -/
theorem inPlace_apart {m : MemoryImage} {index len i offset : ℕ} (h : m.InPlace index len)
    (hi : i < index ∨ index+len ≤ i) (ho : m.offsetOf i = some offset) :
    offset < m.writeOffset index len ∨ m.writeOffset index len+len ≤ offset := by
  have hcases := offsetOf_cases ho
  rcases h with hram | ⟨hout, hlow, hend⟩
  · rw [writeOffset, if_pos hram]
    omega
  · rw [writeOffset, if_neg (by omega)]
    omega

/-- The bytes after a write in place. -/
theorem byte_written {m : MemoryImage} {addr : ℕ} {data : List UInt8}
    (hin : BytecodeMemoryRamAddr ≤ addr)
    (h : m.InPlace (addr-BytecodeMemoryRamAddr) data.length) (a : ℕ) :
    (m.withFile (patch m.file (m.writeOffset (addr-BytecodeMemoryRamAddr) data.length)
      data)).byte a =
      if addr ≤ a ∧ a < addr+data.length then data[a-addr]? else m.byte a := by
  have hbound := inPlace_bound h
  have hfile := m.file_length
  have hp := patch_length m.file (m.writeOffset (addr-BytecodeMemoryRamAddr) data.length) data
  have hget := patch_getElem? (Or.inr hbound : data = [] ∨ _)
  generalize hpatch : patch m.file (m.writeOffset (addr-BytecodeMemoryRamAddr) data.length) data = c
    at hp hget
  have henv : (m.withFile c).env.length = m.env.length := by
    rw [withFile, List.length_take]
    omega
  have hram : (m.withFile c).ram.length = m.ram.length := by
    rw [withFile, List.length_drop]
    omega
  have hoffset : ∀ i, (m.withFile c).offsetOf i = m.offsetOf i := by
    intro i
    rw [offsetOf, offsetOf, henv, hram]
  by_cases hbelow : a+1 < BytecodeMemoryRamAddr
  · rw [byte_prog hbelow, byte_prog hbelow, if_neg (by omega)]
    rfl
  by_cases hbetween : a+1 = BytecodeMemoryRamAddr
  · rw [byte_between hbetween, byte_between hbetween, if_neg (by omega)]
  rw [byte_ram (by omega), byte_ram (by omega), hoffset, withFile_file]
  by_cases hwithin : addr ≤ a ∧ a < addr+data.length
  · have hplace := inPlace_offset h (k := a-addr) (by omega)
    rw [show addr-BytecodeMemoryRamAddr+(a-addr) = a-BytecodeMemoryRamAddr by omega] at hplace
    rw [hplace, Option.bind_some, hget, if_pos (by omega), if_pos hwithin, Nat.add_sub_cancel_left]
  · rw [if_neg hwithin]
    cases ho : m.offsetOf (a-BytecodeMemoryRamAddr) with
    | none => rw [Option.bind_none, Option.bind_none]
    | some offset =>
      have hbase : BytecodeMemoryRamAddr = 32768 := rfl
      have hindex : a-BytecodeMemoryRamAddr < addr-BytecodeMemoryRamAddr ∨
          addr-BytecodeMemoryRamAddr+data.length ≤ a-BytecodeMemoryRamAddr := by omega
      have hapart := inPlace_apart h hindex ho
      rw [Option.bind_some, Option.bind_some, hget, if_neg (by omega)]

end MemoryImage

section Runs

variable {φ : Type} {F : Files φ} {Inv : φ → Prop} {view : φ → FsView} {largest : ℕ}
  {process : ProcManProcess} {procData : ProcManProcessProcData} {paths : ProcessPaths}
  {m m' : MemoryImage} {s : φ}

/-- The files tell what the memory is. -/
theorem memory_unique {v : FsView} (h : ProcessMemory v process procData paths m)
    (h' : ProcessMemory v process procData paths m') : m = m' := by
  have hprog := Option.some.inj (h.progFile.symm.trans h'.progFile)
  have hfile : m.env++m.ram = m'.env++m'.ram :=
    Option.some.inj (h.ramFile.symm.trans h'.ramFile)
  obtain ⟨henv, hram⟩ := List.append_inj hfile (h.envLen.trans h'.envLen.symm)
  cases m
  cases m'
  simp only at hprog henv hram
  rw [hprog, henv, hram]

/-- The registers are not part of what the memory is. -/
theorem memory_regs {v : FsView} (h : ProcessMemory v process procData paths m)
    (regs : Fin 8 → UInt16) : ProcessMemory v process { procData with regs := regs } paths m :=
  ⟨h.progFd, h.progFile, h.ramFd, h.ramFile, h.envLen, h.ramLen, h.procFd, h.valid, h.apart⟩

/-- A write in place is done. -/
theorem writeBlock_inPlace (hl : FilesLaw F Inv view largest) (hw : ReliableWrites F Inv view)
    (hi : Inv s) (hm : ProcessMemory (view s) process procData paths m) {addr : UInt16}
    {data : List UInt8} (hin : BytecodeMemoryRamAddr ≤ addr.toNat)
    (h : m.InPlace (addr.toNat-BytecodeMemoryRamAddr) data.length) :
    ∃ s' m', procManProcessMemoryWriteBlock F process procData addr data s =
        .ok ((true, procData), s') ∧ Inv s' ∧ ProcessMemory (view s') process procData paths m' ∧
      ∀ a, m'.byte a = if addr.toNat ≤ a ∧ a < addr.toNat+data.length then data[a-addr.toNat]?
        else m.byte a := by
  have hbase : BytecodeMemoryRamAddr = 32768 := rfl
  have hwindow : MemoryImage.envIndex = 31744 := rfl
  have hvirtual : ProcManEnvVarsVirtualOffset = 64512 := rfl
  have henv := hm.envLen
  have hram := hm.ramLen
  have hbound := MemoryImage.inPlace_bound h
  have hwritable : (OpenFile.mk paths.ram KernelFsFdModeRW 1).mode &&& KernelFsFdModeWO ≠ 0 := by
    change 3 &&& 2 ≠ 0
    decide
  obtain ⟨s', hrun⟩ := hw.write s procData.ramFd.toNat
    (m.writeOffset (addr.toNat-BytecodeMemoryRamAddr) data.length) data _ _ hi hm.ramFd hm.ramFile
    hwritable
  rw [Nat.min_eq_left (by omega)] at hrun
  have hfull : writeFully F procData.ramFd.toNat
      (m.writeOffset (addr.toNat-BytecodeMemoryRamAddr) data.length) data s = .ok (true, s') := by
    rw [writeFully, bind_of_ok hrun, beq_self_eq_true]
    rfl
  obtain ⟨hi', _, hdone⟩ := ram_file_written hl hi hm hfull
  obtain ⟨_, hm', _⟩ := hdone rfl
  refine ⟨s', _, ?_, hi', hm', fun a => MemoryImage.byte_written hin h a⟩
  rw [procManProcessMemoryWriteBlock, if_neg (by omega), if_neg (by omega)]
  rcases h with hstandard | ⟨hout, hlow, hend⟩
  · rw [MemoryImage.writeOffset, if_pos hstandard, henv] at hfull
    rw [if_pos (by omega), bind_of_ok hfull]
    rfl
  · have hoffset : addr.toNat-ProcManEnvVarsVirtualOffset =
        addr.toNat-BytecodeMemoryRamAddr-MemoryImage.envIndex := by omega
    rw [MemoryImage.writeOffset, if_neg (by omega)] at hfull
    rw [if_neg (by omega), if_pos (by omega), hoffset, bind_of_ok hfull]
    rfl

/-- A write into the program is refused. -/
theorem writeBlock_refused {addr : UInt16} {data : List UInt8}
    (hin : addr.toNat < BytecodeMemoryRamAddr) :
    procManProcessMemoryWriteBlock F process procData addr data s =
      .ok ((false, procData), s) := by
  rw [procManProcessMemoryWriteBlock]
  by_cases hsplit : addr.toNat+data.length ≥ BytecodeMemoryRamAddr
  · rw [if_pos ⟨hin, hsplit⟩]
    rfl
  · rw [if_neg (by omega), if_pos (by omega)]
    rfl

/-- The buffer is filled with the largest block that can be read. -/
theorem prefetchFill_run (hl : FilesLaw F Inv view largest) (hr : ReliableReads F Inv view)
    (hi : Inv s) (hm : ProcessMemory (view s) process procData paths m) (addr : UInt16)
    {sizes : List ℕ} {size : ℕ} (hsize : size ∈ sizes)
    (hsome : ∃ bytes, m.block addr.toNat size = some bytes) :
    ∃ s' bytes len, len ∈ sizes ∧ m.block addr.toNat len = some bytes ∧
      procManPrefetchFill F process procData addr sizes s = .ok (bytes, s') ∧ Inv s' ∧
      view s' = view s := by
  induction sizes generalizing s with
  | nil => cases hsize
  | cons len sizes ih =>
    obtain ⟨s₁, hrun, hi₁, hv⟩ := readBlock_run hl hr hi hm addr len
    rw [procManPrefetchFill, bind_of_ok hrun]
    cases hb : m.block addr.toNat len with
    | some bytes => exact ⟨s₁, bytes, len, List.mem_cons_self, hb, rfl, hi₁, hv⟩
    | none =>
      have hmem : size ∈ sizes := by
        rcases List.mem_cons.mp hsize with rfl | hmem
        · obtain ⟨bytes, hbytes⟩ := hsome
          rw [hb] at hbytes
          cases hbytes
        · exact hmem
      obtain ⟨s', bytes, len', hlen, hblock, hfill, hi', hv'⟩ :=
        ih hi₁ (hv.symm ▸ hm) hmem
      exact ⟨s', bytes, len', List.mem_cons_of_mem _ hlen, hblock, hfill, hi', hv'.trans hv⟩

end Runs

end ArduinoOS.Procman
