import ArduinoOS.Procman.MemoryRun
import ArduinoOS.Procman.ViewFiles

/-!
# Process memory as memory

A write that succeeds reads back and leaves every other block alone exactly
when it stays inside its part of the RAM file. The environment window is where
it does not: a read that starts there may run on into the RAM, a write there is
not stopped at its end, and the spare bytes of a growing RAM may cover it.
-/

set_option autoImplicit false

namespace ArduinoOS.Procman
open ArduinoOS.Faulting ArduinoOS.Kernel ArduinoOS.Minifs

/-- The spare bytes of the growth come to lie over visible variables. -/
def Covers (m : MemoryImage) (index : ℕ) (data : List UInt8) : Prop :=
  index < MemoryImage.envIndex ∧ m.ram.length ≤ index+data.length ∧
    ∃ o < m.env.length, m.ram.length ≤ MemoryImage.envIndex+o ∧
      index+data.length ≤ MemoryImage.envIndex+o ∧
      MemoryImage.envIndex+o < index+data.length+15

/-- The bytes written are where their address is read, and no other address is. -/
def WriteStays (m : MemoryImage) (index : ℕ) (data : List UInt8) : Prop :=
  if index+data.length < m.ram.length ∨ index < MemoryImage.envIndex then
    RamWriteStays m index data
  else EnvWriteStays m index data

theorem remembers_iff {m m' : MemoryImage} {index : ℕ} {data : List UInt8}
    (hw : WrittenAt m m' index data) (hsmall : m.file.length ≤ 32768)
    (hcovers : ¬ Covers m index data) :
    Remembers m m' (BytecodeMemoryRamAddr+index) data ↔ WriteStays m index data := by
  cases hw with
  | ram hin hram h =>
    rw [WriteStays, if_pos (Or.inl hin)]
    exact remembers_ram_iff h (by omega) (Or.inl hin) (fun o _ ho _ => by omega)
  | env hout hlow hram hfits h =>
    rw [WriteStays, if_neg (by omega)]
    exact remembers_env_iff h hlow hout hram hfits hsmall
  | grown hout hlow hram h =>
    rw [WriteStays, if_pos (Or.inr hlow)]
    refine remembers_ram_iff h (by omega) (Or.inr hlow) (fun o ho hvisible hend => ?_)
    by_contra hover
    exact hcovers ⟨hlow, hout, o, ho, hvisible, hend, by omega⟩

section Runs

variable {φ : Type}

/-- What memory promises of a write, of the runs of the two functions. -/
structure MemoryKept (F : Files φ) (process : ProcManProcess)
    (procData procData' : ProcManProcessProcData) (s s' : φ) (addr : UInt16)
    (data : List UInt8) : Prop where
  readBack : ∃ s₁, procManProcessMemoryReadBlock F process procData' addr data.length s' =
    .ok (some data, s₁)
  frame : ∀ (a : UInt16) len bytes s₁, a.toNat+len ≤ 65536 →
    (a.toNat+len ≤ addr.toNat ∨ addr.toNat+data.length ≤ a.toNat) →
    procManProcessMemoryReadBlock F process procData a len s = .ok (some bytes, s₁) →
    ∃ s₂, procManProcessMemoryReadBlock F process procData' a len s' = .ok (some bytes, s₂)
  grows : ∀ (a : UInt16) bytes s₁,
    procManProcessMemoryReadBlock F process procData a 1 s = .ok (some bytes, s₁) →
    ∃ bytes' s₂, procManProcessMemoryReadBlock F process procData' a 1 s' =
      .ok (some bytes', s₂)

variable {F : Files φ} {Inv : φ → Prop} {view : φ → FsView} {largest : ℕ}
  {s s' : φ} {process : ProcManProcess} {procData procData' : ProcManProcessProcData}
  {paths : ProcessPaths} {m m' : MemoryImage} {addr : UInt16} {data : List UInt8}

/-- A read answers from the address space and nothing else. -/
theorem readBlock_iff (hl : FilesLaw F Inv view largest) (hr : ReliableReads F Inv view)
    (hi : Inv s) (hm : ProcessMemory (view s) process procData paths m) (a : UInt16) (len : ℕ)
    (bytes : List UInt8) :
    (∃ s₁, procManProcessMemoryReadBlock F process procData a len s = .ok (some bytes, s₁)) ↔
      m.block a.toNat len = some bytes := by
  obtain ⟨s₂, hrun, _⟩ := readBlock_run hl hr hi hm a len
  rw [hrun]
  constructor
  · rintro ⟨s₁, h⟩
    exact congrArg Prod.fst (Except.ok.inj h)
  · intro h
    rw [h]
    exact ⟨s₂, rfl⟩

theorem memoryKept_iff (hl : FilesLaw F Inv view largest) (hr : ReliableReads F Inv view)
    (hi : Inv s) (hm : ProcessMemory (view s) process procData paths m) (hi' : Inv s')
    (hm' : ProcessMemory (view s') process procData' paths m') :
    MemoryKept F process procData procData' s s' addr data ↔
      Remembers m m' addr.toNat data := by
  have hread := readBlock_iff hl hr hi hm
  have hread' := readBlock_iff hl hr hi' hm'
  have hnat : ∀ a < 65536, (UInt16.ofNat a).toNat = a := by
    intro a ha
    rw [UInt16.toNat_ofNat']
    omega
  constructor
  · intro h
    refine ⟨(hread' _ _ _).mp h.readBack, fun a len bytes ha hend hdis hb => ?_,
      fun a bytes ha hb => ?_⟩
    · rw [← hnat a ha] at hb hend hdis ⊢
      obtain ⟨s₁, hrun⟩ := (hread _ _ _).mpr hb
      exact (hread' _ _ _).mp (h.frame _ len bytes s₁ hend hdis hrun)
    · rw [← hnat a ha] at hb ⊢
      obtain ⟨s₁, hrun⟩ := (hread _ _ _).mpr hb
      obtain ⟨bytes', s₂, hrun'⟩ := h.grows _ bytes s₁ hrun
      exact ⟨bytes', (hread' _ _ _).mp ⟨s₂, hrun'⟩⟩
  · intro h
    refine ⟨(hread' _ _ _).mpr h.readBack, fun a len bytes s₁ hend hdis hrun => ?_,
      fun a bytes s₁ hrun => ?_⟩
    · exact (hread' _ _ _).mpr (h.frame a.toNat len bytes a.toNat_lt hend hdis
        ((hread _ _ _).mp ⟨s₁, hrun⟩))
    · obtain ⟨bytes', hb⟩ := h.grows a.toNat bytes a.toNat_lt ((hread _ _ _).mp ⟨s₁, hrun⟩)
      obtain ⟨s₂, hrun'⟩ := (hread' _ _ _).mpr hb
      exact ⟨bytes', s₂, hrun'⟩

end Runs

/-! ### A shell with two bytes of variables and four of RAM -/

def shellPaths : ProcessPaths :=
  ⟨CStr.lit "/bin/sh", CStr.lit "/tmp/ram1", CStr.lit "/tmp/proc1"⟩

def shellImage (prog : List UInt8) : MemoryImage := ⟨prog, [65, 0], [1, 2, 3, 4]⟩

def shellProcess : ProcManProcess := ⟨1, 2, .active, 0⟩

def shellData : ProcManProcessProcData where
  regs _ := 0
  signalHandlers _ := 0
  ramLen := 4
  envVarDataLen := 2
  ramFd := 3
  fds _ := 0
  argc := 1
  pwd := 64512
  path := 64512

def shellView (prog : List UInt8) : FsView where
  file q := if q = shellPaths.prog then some prog
    else if q = shellPaths.ram then some [65, 0, 1, 2, 3, 4]
    else if q = shellPaths.proc then some shellData.toBytes else none
  fd i := if i = 1 then some ⟨shellPaths.prog, KernelFsFdModeRO, 1⟩
    else if i = 2 then some ⟨shellPaths.proc, KernelFsFdModeRW, 1⟩
    else if i = 3 then some ⟨shellPaths.ram, KernelFsFdModeRW, 1⟩ else none

theorem shell_bounded (prog : List UInt8) : (shellView prog).Bounded := by
  intro fd e h
  simp only [shellView] at h
  have hmax : KernelFsFdMax = 64 := rfl
  split_ifs at h <;> omega

theorem shell_memory (prog : List UInt8) :
    ProcessMemory (shellView prog) shellProcess shellData shellPaths (shellImage prog) where
  progFd := ⟨_, rfl, rfl, by decide⟩
  progFile := rfl
  ramFd := rfl
  ramFile := rfl
  envLen := rfl
  ramLen := rfl
  procFd := ⟨_, _, rfl, rfl, rfl⟩
  valid := by decide
  apart := by decide

/-- The state after two of the writes: the RAM file is patched. -/
theorem shell_write (prog : List UInt8) (addr : UInt16) (data : List UInt8) (offset : ℕ)
    (hin : BytecodeMemoryRamAddr ≤ addr.toNat)
    (hwhere : (addr.toNat-BytecodeMemoryRamAddr+data.length < 4 ∧
        2+(addr.toNat-BytecodeMemoryRamAddr) = offset) ∨
      (4 ≤ addr.toNat-BytecodeMemoryRamAddr+data.length ∧
        ProcManEnvVarsVirtualOffset ≤ addr.toNat ∧
        addr.toNat-ProcManEnvVarsVirtualOffset = offset))
    (hfits : offset+data.length ≤ 6) :
    procManProcessMemoryWriteBlock viewFiles shellProcess shellData addr data (shellView prog) =
      .ok ((true, shellData), (shellView prog).setFile shellPaths.ram
        (some (patch (shellImage prog).file offset data))) := by
  have hlen : shellData.ramLen.toNat = 4 := rfl
  have hfile : (shellImage prog).file.length = 6 := rfl
  have hw : writeFully viewFiles shellData.ramFd.toNat offset data (shellView prog) =
      .ok (true, (shellView prog).setFile shellPaths.ram
        (some (patch (shellImage prog).file offset data))) := by
    change Except.ok (min data.length ((shellImage prog).file.length-offset) == data.length, _) = _
    rw [hfile, Nat.min_eq_left (by omega), beq_self_eq_true]
    rfl
  rw [procManProcessMemoryWriteBlock, if_neg (by omega), if_neg (by omega), hlen]
  rcases hwhere with ⟨hram, ho⟩ | ⟨hout, hlow, ho⟩
  · have henv : shellData.envVarDataLen.toNat = 2 := rfl
    rw [if_pos hram, henv, ho, bind_of_ok hw]
    rfl
  · rw [if_neg (by omega), if_pos hlow, ho, bind_of_ok hw]
    rfl

/-- What a read answers in the state after a write. -/
theorem shell_read (prog : List UInt8) (offset : ℕ) (data : List UInt8) (a : UInt16) (len : ℕ)
    (answer : Option (List UInt8))
    (h : ((shellImage prog).withFile (patch (shellImage prog).file offset data)).block
      a.toNat len = answer) :
    ∃ s₁, procManProcessMemoryReadBlock viewFiles shellProcess shellData a len
      ((shellView prog).setFile shellPaths.ram
        (some (patch (shellImage prog).file offset data))) = .ok (answer, s₁) := by
  obtain ⟨s₁, hrun, _⟩ := readBlock_run (viewFiles_law 32768) viewFiles_reliable
    (s := (shellView prog).setFile shellPaths.ram
      (some (patch (shellImage prog).file offset data)))
    (shell_bounded prog) (memory_patched (shell_memory prog) rfl) a len
  exact ⟨s₁, h ▸ hrun⟩

end ArduinoOS.Procman
