import ArduinoOS.Procman.AddressSpace

/-!
# Runs of the memory functions

Over files that keep the laws, a read answers from the address space, and a
write changes it in one place.
-/

set_option autoImplicit false

namespace ArduinoOS.Procman
open ArduinoOS.Faulting ArduinoOS.Kernel ArduinoOS.Minifs

structure ProcessPaths where
  prog : CStr
  ram : CStr
  proc : CStr

/-- The three files of a process are open under its descriptors. -/
structure ProcessMemory (v : FsView) (process : ProcManProcess)
    (procData : ProcManProcessProcData) (paths : ProcessPaths) (m : MemoryImage) : Prop where
  progFd : ∃ e, v.fd process.progmemFd = some e ∧ e.path = paths.prog ∧
    e.mode &&& KernelFsFdModeRO ≠ 0
  progFile : v.file paths.prog = some m.prog
  ramFd : v.fd procData.ramFd.toNat = some ⟨paths.ram, KernelFsFdModeRW, 1⟩
  ramFile : v.file paths.ram = some m.file
  envLen : m.env.length = procData.envVarDataLen.toNat
  ramLen : m.ram.length = procData.ramLen.toNat
  procFd : ∃ e c, v.fd process.procFd = some e ∧ e.path = paths.proc ∧
    v.file paths.proc = some c
  valid : process.progmemFd ≠ KernelFsFdInvalid ∧ process.procFd ≠ KernelFsFdInvalid
  apart : paths.prog ≠ paths.ram ∧ paths.proc ≠ paths.prog ∧ paths.proc ≠ paths.ram

theorem memory_setReg {v : FsView} {process : ProcManProcess} {procData : ProcManProcessProcData}
    {paths : ProcessPaths} {m : MemoryImage} (h : ProcessMemory v process procData paths m)
    (r : Fin 8) (value : UInt16) : ProcessMemory v process (procData.setReg r value) paths m :=
  ⟨h.progFd, h.progFile, h.ramFd, h.ramFile, h.envLen, h.ramLen, h.procFd, h.valid, h.apart⟩

section Reads

variable {φ : Type} {F : Files φ} {Inv : φ → Prop} {view : φ → FsView} {largest : ℕ}
  (hl : FilesLaw F Inv view largest) (hr : ReliableReads F Inv view)

include hl hr

theorem readFully_run {s : φ} {fd offset len : ℕ} {e : OpenFile} {c : List UInt8} (hi : Inv s)
    (hfd : (view s).fd fd = some e) (hfile : (view s).file e.path = some c)
    (hmode : e.mode &&& KernelFsFdModeRO ≠ 0) :
    ∃ s', readFully F fd offset len s = .ok (sliceOf c offset len, s') ∧ Inv s' ∧
      view s' = view s := by
  obtain ⟨r, s', hrun, hcount⟩ := hr.read s fd offset len e c hi hfd hfile hmode
  obtain ⟨hi', hview, hfull⟩ := hl.read s s' fd offset len e c r hi hfd hfile hrun
  refine ⟨s', ?_, hi', hview⟩
  rw [readFully, bind_of_ok hrun, sliceOf, ← hcount]
  by_cases hlen : r.2 = len
  · rw [if_pos hlen, if_pos hlen, (hfull hlen).1]
    rfl
  · rw [if_neg hlen, if_neg hlen]
    rfl

theorem readBlock_run {s : φ} {process : ProcManProcess} {procData : ProcManProcessProcData}
    {paths : ProcessPaths} {m : MemoryImage} (hi : Inv s)
    (hm : ProcessMemory (view s) process procData paths m) (addr : UInt16) (len : ℕ) :
    ∃ s', procManProcessMemoryReadBlock F process procData addr len s =
      .ok (m.block addr.toNat len, s') ∧ Inv s' ∧ view s' = view s := by
  have hram : (view s).file (OpenFile.mk paths.ram KernelFsFdModeRW 1).path = some m.file :=
    hm.ramFile
  have hreadable : (OpenFile.mk paths.ram KernelFsFdModeRW 1).mode &&& KernelFsFdModeRO ≠ 0 := by
    change 3 &&& 1 ≠ 0
    decide
  have hbase : BytecodeMemoryRamAddr = 32768 := rfl
  have hwindow : MemoryImage.envIndex = 31744 := rfl
  have hvirtual : ProcManEnvVarsVirtualOffset = 64512 := rfl
  have henv := hm.envLen
  have hlen := hm.ramLen
  have hsame : ∀ bytes, m.block addr.toNat len = bytes →
      ∃ s', (pure bytes : Run φ Fault (Option (List UInt8))) s =
        .ok (m.block addr.toNat len, s') ∧ Inv s' ∧ view s' = view s := by
    rintro bytes rfl
    exact ⟨s, rfl, hi, rfl⟩
  have hnowhere : BytecodeMemoryRamAddr ≤ addr.toNat →
      m.offsetOf (addr.toNat-BytecodeMemoryRamAddr) = none → m.block addr.toNat len = none := by
    intro hin ho
    rw [MemoryImage.block, if_neg (by omega), if_pos hin, ho]
    rfl
  rw [procManProcessMemoryReadBlock]
  by_cases hprog : addr.toNat+len < BytecodeMemoryRamAddr
  · rw [if_pos hprog, MemoryImage.block_prog hprog]
    obtain ⟨e, hfd, hpath, hmode⟩ := hm.progFd
    exact readFully_run hl hr hi hfd (hpath ▸ hm.progFile) hmode
  rw [if_neg hprog]
  by_cases hin : BytecodeMemoryRamAddr ≤ addr.toNat
  · rw [if_pos hin]
    by_cases hstandard : addr.toNat-BytecodeMemoryRamAddr < procData.ramLen.toNat
    · rw [if_pos hstandard, MemoryImage.block_at hin (MemoryImage.offsetOf_ram (by omega)),
        Nat.add_comm _ procData.envVarDataLen.toNat, ← hm.envLen]
      exact readFully_run hl hr hi hm.ramFd hram hreadable
    rw [if_neg hstandard]
    by_cases hlow : addr.toNat ≥ ProcManEnvVarsVirtualOffset
    · have hoffset : addr.toNat-ProcManEnvVarsVirtualOffset =
          addr.toNat-BytecodeMemoryRamAddr-MemoryImage.envIndex := by omega
      rw [if_pos hlow]
      by_cases hshort : addr.toNat-ProcManEnvVarsVirtualOffset < procData.envVarDataLen.toNat
      · rw [if_pos hshort, MemoryImage.block_at hin
          (MemoryImage.offsetOf_env (by omega) (by omega) (by omega)), hoffset]
        exact readFully_run hl hr hi hm.ramFd hram hreadable
      · rw [if_neg hshort]
        apply hsame
        apply hnowhere hin
        rw [MemoryImage.offsetOf, if_neg (by omega), if_neg (by omega)]
    · rw [if_neg hlow]
      apply hsame
      apply hnowhere hin
      rw [MemoryImage.offsetOf, if_neg (by omega), if_neg (by omega)]
  · rw [if_neg hin]
    apply hsame
    rw [MemoryImage.block, if_neg hprog, if_neg hin]

end Reads

/-! ### Images from files -/

/-- The image whose RAM file has this content. -/
def MemoryImage.withFile (m : MemoryImage) (c : List UInt8) : MemoryImage where
  prog := m.prog
  env := c.take m.env.length
  ram := c.drop m.env.length

theorem withFile_file (m : MemoryImage) (c : List UInt8) : (m.withFile c).file = c :=
  List.take_append_drop _ _

/-- A patch of a file that starts as the old one. -/
theorem patched_withFile {m : MemoryImage} {content : List UInt8} {offset : ℕ} {data : List UInt8}
    (hold : ∀ k < m.file.length, content[k]? = m.file[k]?) (hlen : m.file.length ≤ content.length)
    (hfits : data = [] ∨ offset+data.length ≤ content.length) :
    Patched m (m.withFile (patch content offset data)) offset data := by
  have hfile := m.file_length
  have hp := patch_length content offset data
  refine ⟨rfl, ?_, ?_, fun k hk => ?_, fun k hk hout => ?_⟩
  · rw [MemoryImage.withFile, List.length_take, hp]
    omega
  · rw [MemoryImage.withFile, List.length_drop, hp]
    omega
  · rw [withFile_file, patch_getElem? hfits, if_pos (by omega), Nat.add_sub_cancel_left]
  · rw [withFile_file, patch_getElem? hfits, if_neg (by omega), hold k hk]

/-! ### Writes -/

section Writes

variable {φ : Type} {F : Files φ} {Inv : φ → Prop} {view : φ → FsView} {largest : ℕ}

theorem writeFully_cases (hl : FilesLaw F Inv view largest) {s s' : φ} {fd offset : ℕ}
    {data c : List UInt8} {e : OpenFile} {b : Bool} (hi : Inv s)
    (hfd : (view s).fd fd = some e) (hfile : (view s).file e.path = some c)
    (hrun : writeFully F fd offset data s = .ok (b, s')) :
    Inv s' ∧ ∃ c', c'.length = c.length ∧ view s' = (view s).setFile e.path (some c') ∧
      (b = true → c' = patch c offset data ∧ (data = [] ∨ offset+data.length ≤ c.length)) := by
  obtain ⟨n, s₁, hw, hp⟩ := bind_ok.mp hrun
  obtain ⟨hb, rfl⟩ := pure_ok.mp hp
  obtain ⟨hi', c', hc, hview⟩ := hl.write s s' fd offset data e c n hi hfd hfile hw
  refine ⟨hi', c', hc.length, hview, fun htrue => hc.full ?_⟩
  rw [hb] at htrue
  exact beq_iff_eq.mp htrue

/-- The first size the growth of the RAM asks for can be had. -/
def EnoughSpace (F : Files φ) (procData : ProcManProcessProcData) (path : CStr) (size : ℕ)
    (s : φ) : Prop :=
  ∀ k s₁, F.kernelFsFileClose procData.ramFd.toNat s = .ok (k, s₁) →
    ∃ s₂, F.kernelFsFileResize path size s₁ = .ok (true, s₂)

/-- The program is still open under the same descriptor, with the same bytes. -/
def ProgramKept (v v' : FsView) (process : ProcManProcess) (path : CStr) : Prop :=
  v'.fd process.progmemFd = v.fd process.progmemFd ∧ v'.file path = v.file path

variable {s s' : φ} {process : ProcManProcess} {procData procData' : ProcManProcessProcData}
  {paths : ProcessPaths} {m : MemoryImage} {data : List UInt8} {b : Bool}

/-- Storing the record after a failure. -/
theorem memoryError_cases (hl : FilesLaw F Inv view largest) {e : OpenFile} {c : List UInt8}
    (hi : Inv s) (hfd : (view s).fd process.procFd = some e)
    (hfile : (view s).file e.path = some c) {d : ProcManProcessProcData}
    (hrun : procManProcessMemoryError F process d s = .ok ((b, procData'), s')) :
    b = false ∧ Inv s' ∧ ∃ c', view s' = (view s).setFile e.path (some c') := by
  obtain ⟨stored, s₁, hw, hp⟩ := bind_ok.mp hrun
  obtain ⟨hb, rfl⟩ := pure_ok.mp hp
  obtain ⟨n, s₂, hw, hq⟩ := bind_ok.mp hw
  obtain ⟨_, rfl⟩ := pure_ok.mp hq
  obtain ⟨hi', c', _, hview⟩ := hl.write s s' _ 0 _ e c n hi hfd hfile hw
  exact ⟨congrArg Prod.fst hb, hi', c', hview⟩

/-- The files and descriptors between closing the RAM file and opening it again. -/
structure RamClosed (v v₁ : FsView) (procData : ProcManProcessProcData) (paths : ProcessPaths)
    (c : List UInt8) : Prop where
  ram : v₁.file paths.ram = some c
  files : ∀ q, q ≠ paths.ram → v₁.file q = v.file q
  fds : ∀ i, i ≠ procData.ramFd.toNat → i ≠ KernelFsFdInvalid → v₁.fd i = v.fd i

/-- All but the RAM file and its descriptor is as before. -/
structure OthersKept (v v' : FsView) (procData : ProcManProcessProcData) (paths : ProcessPaths) :
    Prop where
  files : ∀ q, q ≠ paths.ram → v'.file q = v.file q
  fds : ∀ i e, i ≠ procData.ramFd.toNat → i ≠ KernelFsFdInvalid → v.fd i = some e →
    v'.fd i = some e

theorem other_fd {v : FsView} (hm : ProcessMemory v process procData paths m) :
    process.progmemFd ≠ procData.ramFd.toNat ∧ process.procFd ≠ procData.ramFd.toNat := by
  obtain ⟨e, hprogFd, hprogPath, _⟩ := hm.progFd
  obtain ⟨e', c, hprocFd, hprocPath, _⟩ := hm.procFd
  constructor
  · intro h
    rw [h, hm.ramFd] at hprogFd
    cases hprogFd
    exact hm.apart.1 hprogPath.symm
  · intro h
    rw [h, hm.ramFd] at hprocFd
    cases hprocFd
    exact hm.apart.2.2 hprocPath.symm

/-- The file could not be opened again: it is deleted, and the record stored. -/
theorem reopen_fails (hl : FilesLaw F Inv view largest) {v : FsView}
    (hm : ProcessMemory v process procData paths m) {c : List UInt8} {d : ProcManProcessProcData}
    (hi : Inv s) (hv : RamClosed v (view s) procData paths c)
    (hrun : (F.kernelFsFileDelete paths.ram >>= fun _ =>
      procManProcessMemoryError F process d) s = .ok ((b, procData'), s')) :
    b = false ∧ Inv s' ∧ ProgramKept v (view s') process paths.prog := by
  obtain ⟨er, cr, hprocFd, hprocPath, hprocFile⟩ := hm.procFd
  obtain ⟨hne, hne'⟩ := other_fd hm
  obtain ⟨deleted, s₁, hdelete, hrun⟩ := bind_ok.mp hrun
  obtain ⟨hi₁, hv₁⟩ := hl.delete _ _ _ _ _ hi hv.ram hdelete
  have hfd₁ : (view s₁).fd = (view s).fd := by
    rw [hv₁]
    split <;> rfl
  have hfile₁ : ∀ q, q ≠ paths.ram → (view s₁).file q = v.file q := by
    intro q hq
    rw [hv₁, ← hv.files q hq]
    split
    case isTrue => rw [FsView.setFile_file, if_neg hq]
    case isFalse => rfl
  obtain ⟨hb, hi', c', hv'⟩ := memoryError_cases hl hi₁
    (by rw [hfd₁, hv.fds _ hne' hm.valid.2]; exact hprocFd)
    (by rw [hprocPath, hfile₁ _ hm.apart.2.2]; exact hprocFile) hrun
  refine ⟨hb, hi', ?_, ?_⟩
  · rw [hv', FsView.setFile_fd, hfd₁, hv.fds _ hne hm.valid.1]
  · rw [hv', FsView.setFile_file, hprocPath, if_neg hm.apart.2.1.symm, hfile₁ _ hm.apart.1]

theorem reopen_cases (hl : FilesLaw F Inv view largest) {v : FsView}
    (hm : ProcessMemory v process procData paths m) {index : ℕ} {newRamLen : UInt16}
    {c : List UInt8} (hi : Inv s) (hv : RamClosed v (view s) procData paths c)
    (hlen : c.length = m.env.length+newRamLen.toNat)
    (hrun : procManProcessMemoryReopen F process procData paths.ram index data newRamLen s =
      .ok ((b, procData'), s')) :
    Inv s' ∧ ProgramKept v (view s') process paths.prog ∧
      (b = true → (data = [] ∨ m.env.length+index+data.length ≤ c.length) ∧
        procData'.ramLen = newRamLen ∧
        ProcessMemory (view s') process procData' paths
          (m.withFile (patch c (m.env.length+index) data)) ∧
        OthersKept v (view s') procData paths) := by
  obtain ⟨ep, hprogFd, hprogPath, hprogMode⟩ := hm.progFd
  obtain ⟨er, cr, hprocFd, hprocPath, hprocFile⟩ := hm.procFd
  obtain ⟨hne, hne'⟩ := other_fd hm
  obtain ⟨ramFd, s₁, hopen, hrun⟩ := bind_ok.mp hrun
  obtain ⟨hi₁, hfiles₁, hothers₁, hnew₁⟩ := hl.openFile _ _ _ _ _ _ hi hv.ram hopen
  by_cases hinvalid : ramFd = KernelFsFdInvalid
  · rw [if_pos hinvalid] at hrun
    have hv₁ : RamClosed v (view s₁) procData paths c := by
      refine ⟨by rw [hfiles₁]; exact hv.ram, fun q hq => by rw [hfiles₁, hv.files q hq],
        fun i hi hzero => ?_⟩
      rw [hothers₁ i (by rw [hinvalid]; exact hzero), hv.fds i hi hzero]
    obtain ⟨hb, hi', hkept⟩ := reopen_fails hl hm hi₁ hv₁ hrun
    refine ⟨hi', hkept, fun h => ?_⟩
    rw [hb] at h
    cases h
  · rw [if_neg hinvalid] at hrun
    obtain ⟨hfree, hopened⟩ := hnew₁ hinvalid
    have hlt := hl.fd_lt _ _ _ hi₁ hopened
    have hfds : ∀ i e, i ≠ procData.ramFd.toNat → i ≠ KernelFsFdInvalid → v.fd i = some e →
        (view s₁).fd i = some e := by
      intro i e hi hzero he
      rw [← hv.fds i hi hzero] at he
      rw [hothers₁ i (fun hsame => by rw [hsame, hfree] at he; cases he), he]
    obtain ⟨written, s₂, hwrite, hrun⟩ := bind_ok.mp hrun
    obtain ⟨hi₂, c₂, hlen₂, hv₂, hfull⟩ := writeFully_cases hl hi₁ hopened
      (by rw [hfiles₁]; exact hv.ram) hwrite
    have hprogFd₂ : (view s₂).fd process.progmemFd = some ep := by
      rw [hv₂, FsView.setFile_fd]
      exact hfds _ _ hne hm.valid.1 hprogFd
    have hprocFd₂ : (view s₂).fd process.procFd = some er := by
      rw [hv₂, FsView.setFile_fd]
      exact hfds _ _ hne' hm.valid.2 hprocFd
    have hfile₂ : ∀ q, q ≠ paths.ram → (view s₂).file q = v.file q := by
      intro q hq
      rw [hv₂, FsView.setFile_file, if_neg hq, hfiles₁, hv.files q hq]
    cases written with
    | false =>
      obtain ⟨hb, hi', c', hv'⟩ := memoryError_cases hl hi₂ hprocFd₂
        (by rw [hprocPath, hfile₂ _ hm.apart.2.2]; exact hprocFile) hrun
      refine ⟨hi', ⟨?_, ?_⟩, fun h => ?_⟩
      · rw [hv', FsView.setFile_fd, hprogFd₂, hprogFd]
      · rw [hv', FsView.setFile_file, hprocPath, if_neg hm.apart.2.1.symm,
          hfile₂ _ hm.apart.1]
      · rw [hb] at h
        cases h
    | true =>
      obtain ⟨hpair, rfl⟩ := pure_ok.mp hrun
      cases hpair
      obtain ⟨hpatch, hfits⟩ := hfull rfl
      rw [← hm.envLen] at hpatch hfits
      have hramFd : (UInt8.ofNat ramFd).toNat = ramFd := by
        rw [UInt8.toNat_ofNat']
        exact Nat.mod_eq_of_lt (Nat.lt_trans hlt (by decide))
      have hp := patch_length c (m.env.length+index) data
      have hothers : OthersKept v (view s') procData paths := by
        refine ⟨hfile₂, fun i e hi hzero he => ?_⟩
        rw [hv₂, FsView.setFile_fd]
        exact hfds i e hi hzero he
      refine ⟨hi₂, ⟨hprogFd₂.trans hprogFd.symm, hfile₂ _ hm.apart.1⟩, fun _ =>
        ⟨hfits, rfl, ⟨⟨ep, hprogFd₂, hprogPath, hprogMode⟩, ?_, ?_, ?_, ?_, ?_, ?_, hm.valid,
          hm.apart⟩, hothers⟩⟩
      · rw [hfile₂ _ hm.apart.1]
        exact hm.progFile
      · change (view s').fd (UInt8.ofNat ramFd).toNat = _
        rw [hramFd, hv₂]
        exact hopened
      · rw [withFile_file, hv₂, FsView.setFile_file, if_pos rfl, hpatch]
      · rw [MemoryImage.withFile, List.length_take, hp]
        change min m.env.length c.length = procData.envVarDataLen.toNat
        rw [← hm.envLen]
        omega
      · rw [MemoryImage.withFile, List.length_drop, hp]
        change c.length-m.env.length = newRamLen.toNat
        omega
      · refine ⟨er, cr, hprocFd₂, hprocPath, ?_⟩
        rw [hfile₂ _ hm.apart.2.2]
        exact hprocFile

theorem grow_cases (hl : FilesLaw F Inv view largest) (hlargest : largest ≤ 32768)
    (hi : Inv s) (hm : ProcessMemory (view s) process procData paths m) {index : ℕ}
    (hbeyond : m.ram.length ≤ index+data.length)
    (hsize : m.env.length+index+data.length+15 ≤ largest)
    (hspace : EnoughSpace F procData paths.ram (m.env.length+index+data.length+15) s)
    (hrun : procManProcessMemoryGrow F process procData index data s =
      .ok ((b, procData'), s')) :
    Inv s' ∧ ProgramKept (view s) (view s') process paths.prog ∧
      (b = true → ∃ m', ProcessMemory (view s') process procData' paths m' ∧
        OthersKept (view s) (view s') procData paths ∧
        Patched m m' (m.env.length+index) data ∧
        m'.ram.length = index+data.length+15) := by
  have hfile := m.file_length
  obtain ⟨path, s₀, hget, hrun⟩ := bind_ok.mp hrun
  obtain ⟨hs₀, hpath⟩ := hl.getFilePath _ _ _ _ hget
  rw [hm.ramFd] at hpath
  rw [hs₀, hpath] at hrun
  obtain ⟨k, s₁, hclose, hrun⟩ := bind_ok.mp hrun
  obtain ⟨hi₁, hv₁⟩ := hl.close _ _ _ _ _ hi hm.ramFd hclose
  -- the first size asked for is granted
  have hmin : u16 (index+data.length) = index+data.length := u16_of_lt (by omega)
  have htotal : u16 (procData.envVarDataLen.toNat+u16 (index+data.length)) =
      m.env.length+index+data.length := by
    rw [hmin, ← hm.envLen, ← Nat.add_assoc]
    exact u16_of_lt (by omega)
  have hfirst : u16 (u16 (procData.envVarDataLen.toNat+u16 (index+data.length))+16-1) =
      m.env.length+index+data.length+15 := by
    rw [htotal]
    exact u16_of_lt (by omega)
  have hlenNat : (UInt16.ofNat (index+data.length+16-1)).toNat = index+data.length+15 := by
    rw [UInt16.toNat_ofNat']
    omega
  obtain ⟨s₂, hresize⟩ := hspace k s₁ hclose
  obtain ⟨newRamLen, s₃, hloop, hrun⟩ := bind_ok.mp hrun
  rw [procManExtras, procManProcessMemoryResize, hfirst, bind_of_ok hresize, hmin] at hloop
  obtain ⟨hnew, hs₃⟩ := pure_ok.mp hloop
  rw [hnew, hs₃] at hrun
  have hramFile₁ : (view s₁).file paths.ram = some m.file := by
    rw [hv₁]
    exact hm.ramFile
  obtain ⟨hi₂, _, hyes⟩ := hl.resize _ _ _ _ _ _ hi₁ hramFile₁ hsize hresize
  obtain ⟨c, hstart, hv₂⟩ := hyes rfl
  have hclosed : RamClosed (view s) (view s₂) procData paths c := by
    refine ⟨by rw [hv₂, FsView.setFile_file, if_pos rfl], fun q hq => ?_, fun i hi _ => ?_⟩
    · rw [hv₂, FsView.setFile_file, if_neg hq, hv₁]
      rfl
    · rw [hv₂, FsView.setFile_fd, hv₁, FsView.setFd_fd, if_neg hi]
  obtain ⟨hi', hkept, hdone⟩ := reopen_cases hl hm hi₂ hclosed
    (by rw [hlenNat, hstart.1]; omega) hrun
  refine ⟨hi', hkept, fun h => ?_⟩
  obtain ⟨hfits, hramLen, hmem, hothers⟩ := hdone h
  refine ⟨_, hmem, hothers, patched_withFile (fun k hk => ?_) (by rw [hstart.1]; omega) hfits, ?_⟩
  · have hmin' : min m.file.length (m.env.length+index+data.length+15) = m.file.length := by
      omega
    have htake := hstart.2
    rw [hmin'] at htake
    have hk' := congrArg (fun l : List UInt8 => l[k]?) htake
    simp only [List.getElem?_take, if_pos hk] at hk'
    exact hk'
  · rw [hmem.ramLen, hramLen, hlenNat]

/-- Where a write that succeeded has gone. -/
inductive WrittenAt (m m' : MemoryImage) (index : ℕ) (data : List UInt8) : Prop
  | ram (hin : index+data.length < m.ram.length) (hram : m'.ram.length = m.ram.length)
      (h : Patched m m' (m.env.length+index) data)
  | env (hout : m.ram.length ≤ index+data.length) (hlow : MemoryImage.envIndex ≤ index)
      (hram : m'.ram.length = m.ram.length)
      (hfits : data = [] ∨ index-MemoryImage.envIndex+data.length ≤ m.file.length)
      (h : Patched m m' (index-MemoryImage.envIndex) data)
  | grown (hout : m.ram.length ≤ index+data.length) (hlow : index < MemoryImage.envIndex)
      (hram : m'.ram.length = index+data.length+15)
      (h : Patched m m' (m.env.length+index) data)

theorem memory_patched {v v' : FsView} {offset : ℕ}
    (hm : ProcessMemory v process procData paths m)
    (hv : v' = v.setFile paths.ram (some (patch m.file offset data))) :
    ProcessMemory v' process procData paths (m.withFile (patch m.file offset data)) := by
  have hfile := m.file_length
  have hp := patch_length m.file offset data
  have hlen := hm.envLen
  have hram := hm.ramLen
  rw [hv]
  refine ⟨hm.progFd, ?_, hm.ramFd, ?_, ?_, ?_, ?_, hm.valid, hm.apart⟩
  · rw [FsView.setFile_file, if_neg hm.apart.1]
    exact hm.progFile
  · rw [withFile_file, FsView.setFile_file, if_pos rfl]
  · rw [MemoryImage.withFile, List.length_take, hp]
    omega
  · rw [MemoryImage.withFile, List.length_drop, hp]
    omega
  · obtain ⟨e, c, hfd, hpath, hproc⟩ := hm.procFd
    refine ⟨e, c, hfd, hpath, ?_⟩
    rw [FsView.setFile_file, if_neg hm.apart.2.2]
    exact hproc

/-- A write through the descriptor of the RAM file. -/
theorem ram_file_written (hl : FilesLaw F Inv view largest) (hi : Inv s)
    (hm : ProcessMemory (view s) process procData paths m) {offset : ℕ}
    (hrun : writeFully F procData.ramFd.toNat offset data s = .ok (b, s')) :
    Inv s' ∧ ProgramKept (view s) (view s') process paths.prog ∧
      (b = true → (data = [] ∨ offset+data.length ≤ m.file.length) ∧
        ProcessMemory (view s') process procData paths (m.withFile (patch m.file offset data)) ∧
        OthersKept (view s) (view s') procData paths ∧
        Patched m (m.withFile (patch m.file offset data)) offset data ∧
        (m.withFile (patch m.file offset data)).ram.length = m.ram.length) := by
  obtain ⟨hi', c', hlen, hv, hfull⟩ := writeFully_cases hl hi hm.ramFd hm.ramFile hrun
  refine ⟨hi', ⟨?_, ?_⟩, fun h => ?_⟩
  · rw [hv, FsView.setFile_fd]
  · rw [hv, FsView.setFile_file, if_neg hm.apart.1]
  · obtain ⟨hpatch, hfits⟩ := hfull h
    rw [hpatch] at hv
    have hmem := memory_patched hm hv
    have hothers : OthersKept (view s) (view s') procData paths := by
      refine ⟨fun q hq => ?_, fun i e _ _ he => ?_⟩
      · rw [hv, FsView.setFile_file, if_neg hq]
      · rw [hv, FsView.setFile_fd, he]
    refine ⟨hfits, hmem, hothers, patched_withFile (fun _ _ => rfl) (Nat.le_refl _) hfits, ?_⟩
    rw [hmem.ramLen, hm.ramLen]

theorem writeBlock_cases (hl : FilesLaw F Inv view largest) (hlargest : largest ≤ 32768)
    (hi : Inv s) (hm : ProcessMemory (view s) process procData paths m) {addr : UInt16}
    (hspace : m.ram.length ≤ addr.toNat-BytecodeMemoryRamAddr+data.length →
      addr.toNat < ProcManEnvVarsVirtualOffset →
      m.env.length+(addr.toNat-BytecodeMemoryRamAddr)+data.length+15 ≤ largest ∧
        EnoughSpace F procData paths.ram
          (m.env.length+(addr.toNat-BytecodeMemoryRamAddr)+data.length+15) s)
    (hrun : procManProcessMemoryWriteBlock F process procData addr data s =
      .ok ((b, procData'), s')) :
    ProgramKept (view s) (view s') process paths.prog ∧
      (b = true → BytecodeMemoryRamAddr ≤ addr.toNat ∧ Inv s' ∧ ∃ m',
        ProcessMemory (view s') process procData' paths m' ∧
        OthersKept (view s) (view s') procData paths ∧
        WrittenAt m m' (addr.toNat-BytecodeMemoryRamAddr) data) := by
  have hbase : BytecodeMemoryRamAddr = 32768 := rfl
  have hwindow : MemoryImage.envIndex = 31744 := rfl
  have hvirtual : ProcManEnvVarsVirtualOffset = 64512 := rfl
  have henv := hm.envLen
  have hram := hm.ramLen
  have hrefused : (pure (false, procData) : Run φ Fault (Bool × ProcManProcessProcData)) s =
      .ok ((b, procData'), s') → ProgramKept (view s) (view s') process paths.prog ∧
      (b = true → BytecodeMemoryRamAddr ≤ addr.toNat ∧ Inv s' ∧ ∃ m',
        ProcessMemory (view s') process procData' paths m' ∧
        OthersKept (view s) (view s') procData paths ∧
        WrittenAt m m' (addr.toNat-BytecodeMemoryRamAddr) data) := by
    intro h
    cases h
    exact ⟨⟨rfl, rfl⟩, fun h => nomatch h⟩
  rw [procManProcessMemoryWriteBlock] at hrun
  by_cases hsplit : addr.toNat < BytecodeMemoryRamAddr ∧
      addr.toNat+data.length ≥ BytecodeMemoryRamAddr
  · rw [if_pos hsplit] at hrun
    exact hrefused hrun
  rw [if_neg hsplit] at hrun
  by_cases hprog : addr.toNat+data.length < BytecodeMemoryRamAddr
  · rw [if_pos hprog] at hrun
    exact hrefused hrun
  rw [if_neg hprog] at hrun
  have hin : BytecodeMemoryRamAddr ≤ addr.toNat := by omega
  by_cases hstandard : addr.toNat-BytecodeMemoryRamAddr+data.length < procData.ramLen.toNat
  · rw [if_pos hstandard, ← hm.envLen] at hrun
    obtain ⟨written, s₁, hw, hp⟩ := bind_ok.mp hrun
    cases hp
    obtain ⟨hi', hkept, hdone⟩ := ram_file_written hl hi hm hw
    refine ⟨hkept, fun h => ⟨hin, hi', ?_⟩⟩
    obtain ⟨_, hmem, hothers, hpatched, hsame⟩ := hdone h
    exact ⟨_, hmem, hothers, .ram (by omega) hsame hpatched⟩
  rw [if_neg hstandard] at hrun
  by_cases hlow : addr.toNat ≥ ProcManEnvVarsVirtualOffset
  · have hoffset : addr.toNat-ProcManEnvVarsVirtualOffset =
        addr.toNat-BytecodeMemoryRamAddr-MemoryImage.envIndex := by omega
    rw [if_pos hlow, hoffset] at hrun
    obtain ⟨written, s₁, hw, hp⟩ := bind_ok.mp hrun
    cases hp
    obtain ⟨hi', hkept, hdone⟩ := ram_file_written hl hi hm hw
    refine ⟨hkept, fun h => ⟨hin, hi', ?_⟩⟩
    obtain ⟨hfits, hmem, hothers, hpatched, hsame⟩ := hdone h
    exact ⟨_, hmem, hothers, .env (by omega) (by omega) hsame hfits hpatched⟩
  · rw [if_neg hlow] at hrun
    obtain ⟨hsize, henough⟩ := hspace (by omega) (by omega)
    obtain ⟨hi', hkept, hdone⟩ := grow_cases hl hlargest hi hm (by omega) hsize henough hrun
    refine ⟨hkept, fun h => ⟨hin, hi', ?_⟩⟩
    obtain ⟨m', hmem, hothers, hpatched, hlen⟩ := hdone h
    exact ⟨m', hmem, hothers, .grown (by omega) (by omega) hlen hpatched⟩

end Writes

end ArduinoOS.Procman
