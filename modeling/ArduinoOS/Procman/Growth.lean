import ArduinoOS.Emulator.Memory
import ArduinoOS.Procman.ProcessMemory

/-!
# Growth of the RAM

A write that ends at or beyond the end of the RAM closes its file, makes it
larger and opens it again. Where the volume has room for the bytes asked for,
the write is done, with as many spare bytes as the volume grants.
-/

set_option autoImplicit false

namespace ArduinoOS.Procman
open ArduinoOS.Faulting ArduinoOS.Kernel ArduinoOS.Minifs

/-- No descriptor has the file open. -/
def FsView.Closed (v : FsView) (path : CStr) : Prop :=
  ∀ i e, v.fd i = some e → e.path ≠ path

/-- What growth needs of the files: the file can be closed, resized to the sizes
that the volume grants, and opened again with a free entry. -/
structure Growable {φ : Type} (F : Files φ) (Inv : φ → Prop) (view : φ → FsView) (largest : ℕ)
    (path : CStr) (grants : ℕ → Bool) : Prop where
  getFilePath : ∀ s fd, Inv s → ∃ r, F.kernelFsGetFilePath fd s = .ok r
  close : ∀ s fd e, Inv s → (view s).fd fd = some e → ∃ r, F.kernelFsFileClose fd s = .ok r
  resize : ∀ s n c, Inv s → (view s).file path = some c → (view s).Closed path → n ≤ largest →
    ∃ s', F.kernelFsFileResize path n s = .ok (grants n, s')
  openFile : ∀ s c fd, Inv s → (view s).file path = some c → (view s).Closed path →
    fd ≠ KernelFsFdInvalid → fd < KernelFsFdMax → (view s).fd fd = none →
    ∃ fd' s', F.kernelFsFileOpen path KernelFsFdModeRW s = .ok (fd', s') ∧ fd' ≠ KernelFsFdInvalid

/-- The RAM file is open under its descriptor and no other. -/
structure RamOwned (v : FsView) (procData : ProcManProcessProcData) (paths : ProcessPaths) :
    Prop where
  valid : procData.ramFd.toNat ≠ KernelFsFdInvalid
  alone : ∀ i e, v.fd i = some e → e.path = paths.ram → i = procData.ramFd.toNat

/-- Nothing but the RAM file and its descriptor has changed. -/
structure Beside (v v' : FsView) (paths : ProcessPaths) : Prop where
  files : ∀ q, q ≠ paths.ram → v'.file q = v.file q
  fds : ∀ i e, i ≠ KernelFsFdInvalid → v.fd i = some e → e.path ≠ paths.ram → v'.fd i = some e

theorem beside_refl (v : FsView) (paths : ProcessPaths) : Beside v v paths :=
  ⟨fun _ _ => rfl, fun _ _ _ he _ => he⟩

theorem beside_trans {v₁ v₂ v₃ : FsView} {paths : ProcessPaths} (h : Beside v₁ v₂ paths)
    (h' : Beside v₂ v₃ paths) : Beside v₁ v₃ paths :=
  ⟨fun q hq => (h'.files q hq).trans (h.files q hq),
    fun i e hi he hpath => h'.fds i e hi (h.fds i e hi he hpath) hpath⟩

theorem beside_of_others {v v' : FsView} {process : ProcManProcess}
    {procData : ProcManProcessProcData} {paths : ProcessPaths} {m : MemoryImage}
    (hm : ProcessMemory v process procData paths m) (h : OthersKept v v' procData paths) :
    Beside v v' paths := by
  refine ⟨h.files, fun i e hi he hpath => h.fds i e (fun hram => hpath ?_) hi he⟩
  rw [hram, hm.ramFd] at he
  rw [← Option.some.inj he]

/-- How many of the extra bytes are granted, for a file of `n` bytes. -/
def spare (grants : ℕ → Bool) (n : ℕ) : ℕ :=
  (procManExtras.find? (fun extra => grants (n+extra-1))).getD 1

theorem extras_bound {extra : ℕ} (h : extra ∈ procManExtras) : 1 ≤ extra ∧ extra ≤ 16 := by
  simp [procManExtras] at h
  omega

theorem spare_bound (grants : ℕ → Bool) (n : ℕ) : 1 ≤ spare grants n ∧ spare grants n ≤ 16 := by
  rw [spare]
  cases hfind : procManExtras.find? (fun extra => grants (n+extra-1)) with
  | none => exact ⟨Nat.le_refl 1, by decide⟩
  | some extra => exact extras_bound (List.mem_of_find?_eq_some hfind)

theorem spare_found {grants : ℕ → Bool} {n : ℕ} (h : grants n = true) :
    procManExtras.find? (fun extra => grants (n+extra-1)) = some (spare grants n) := by
  cases hfind : procManExtras.find? (fun extra => grants (n+extra-1)) with
  | none =>
    have hnone := List.find?_eq_none.mp hfind 1 (by decide)
    exact absurd h hnone
  | some extra => rw [spare, hfind, Option.getD_some]

/-- The length of the RAM after a write that ends at `e`, with `env` bytes of
environment variables in front of it. -/
def lenAfter (grants : ℕ → Bool) (env len e : ℕ) : ℕ :=
  if e < len then len else e+spare grants (env+e)-1

theorem lenAfter_bounds (grants : ℕ → Bool) (env len e : ℕ) :
    len ≤ lenAfter grants env len e ∧ e ≤ lenAfter grants env len e ∧
      lenAfter grants env len e ≤ max len (e+15) := by
  have hspare := spare_bound grants (env+e)
  simp only [lenAfter]
  split <;> omega

/-- Writes up to the end of the RAM let it grow once. -/
theorem lenAfter_fold {grants : ℕ → Bool} {env len last : ℕ} {ends : List ℕ}
    (hends : ∀ e ∈ ends, e ≤ last) (hlast : last ≤ len) {now : ℕ}
    (hnow : now = len ∨ (last = len ∧ now = lenAfter grants env len len)) :
    ends.foldl (lenAfter grants env) now = len ∨
      (last = len ∧ ends.foldl (lenAfter grants env) now = lenAfter grants env len len) := by
  induction ends generalizing now with
  | nil => exact hnow
  | cons e ends ih =>
    have he := hends e List.mem_cons_self
    have hbounds := lenAfter_bounds grants env len len
    apply ih (fun e' he' => hends e' (List.mem_cons_of_mem _ he'))
    rcases hnow with hsame | ⟨hfull, hgrown⟩
    · by_cases hbelow : e < len
      · left
        rw [hsame, lenAfter, if_pos hbelow]
      · have hend : e = len := by omega
        right
        rw [hsame, hend]
        exact ⟨by omega, rfl⟩
    · right
      refine ⟨hfull, ?_⟩
      by_cases hbelow : e < now
      · rw [lenAfter, if_pos hbelow, hgrown]
      · have hend : e = len := by omega
        have hnow : now = len := by omega
        rw [hnow, hend]

/-- The memory of a process in a state, ready to be written. -/
structure MemoryAt {φ : Type} (Inv : φ → Prop) (view : φ → FsView) (process : ProcManProcess)
    (paths : ProcessPaths) (procData : ProcManProcessProcData) (s : φ) (m : MemoryImage) :
    Prop where
  inv : Inv s
  memory : ProcessMemory (view s) process procData paths m
  owned : RamOwned (view s) procData paths

/-- A read of the address answers this byte. -/
def ByteAt {φ : Type} (F : Files φ) (process : ProcManProcess) (procData : ProcManProcessProcData)
    (s : φ) (addr : UInt16) (b : UInt8) : Prop :=
  ∃ s₁, procManProcessMemoryReadByte F process procData addr s = .ok (some b, s₁)

section MemoryAt

variable {φ : Type} {Inv : φ → Prop} {view : φ → FsView} {process : ProcManProcess}
  {paths : ProcessPaths} {procData : ProcManProcessProcData} {m : MemoryImage} {s : φ}

theorem memoryAt_view {s' : φ} (h : MemoryAt Inv view process paths procData s m) (hi : Inv s')
    (hv : view s' = view s) : MemoryAt Inv view process paths procData s' m :=
  ⟨hi, hv.symm ▸ h.memory, hv.symm ▸ h.owned⟩

theorem memoryAt_setReg (h : MemoryAt Inv view process paths procData s m) (r : Fin 8)
    (v : UInt16) : MemoryAt Inv view process paths (procData.setReg r v) s m :=
  ⟨h.inv, memory_setReg h.memory r v, ⟨h.owned.valid, h.owned.alone⟩⟩

end MemoryAt

section Runs

variable {φ : Type} {F : Files φ} {Inv : φ → Prop} {view : φ → FsView} {largest : ℕ}
  {grants : ℕ → Bool} (hl : FilesLaw F Inv view largest)
  {process : ProcManProcess} {procData : ProcManProcessProcData} {paths : ProcessPaths}
  {m : MemoryImage} {s : φ}

include hl

theorem readByte_run (hr : ReliableReads F Inv view) (hi : Inv s)
    (hm : ProcessMemory (view s) process procData paths m) (addr : UInt16) :
    ∃ s₁, procManProcessMemoryReadByte F process procData addr s = .ok (m.byte addr.toNat, s₁) ∧
      Inv s₁ ∧ view s₁ = view s := by
  obtain ⟨s₁, hrun, hkept⟩ := readBlock_run hl hr hi hm addr 1
  refine ⟨s₁, ?_, hkept⟩
  rw [procManProcessMemoryReadByte, bind_of_ok hrun, MemoryImage.byte]
  cases hblock : m.block addr.toNat 1 with
  | none => rfl
  | some bytes =>
    cases bytes with
    | nil =>
      rcases MemoryImage.block_cases hblock with ⟨_, hs⟩ | ⟨_, _, _, hs⟩
      · exact absurd (sliceOf_some.mp hs).1 (by simp)
      · exact absurd (sliceOf_some.mp hs).1 (by simp)
    | cons c cs => rfl

theorem byteAt_iff (hr : ReliableReads F Inv view) (hi : Inv s)
    (hm : ProcessMemory (view s) process procData paths m) (addr : UInt16) (b : UInt8) :
    ByteAt F process procData s addr b ↔ m.byte addr.toNat = some b := by
  obtain ⟨s₁, hbyte, _⟩ := readByte_run hl hr hi hm addr
  rw [ByteAt, hbyte]
  constructor
  · rintro ⟨_, hsame⟩
    exact congrArg Prod.fst (Except.ok.inj hsame)
  · intro hb
    exact ⟨s₁, by rw [hb]⟩

/-- The first size that is granted is taken. -/
theorem resize_run (minLen : ℕ) {path : CStr} (hg : Growable F Inv view largest path grants)
    (hsmall : largest < 65536) {total extra : ℕ} {extras : List ℕ} {content : List UInt8}
    (hi : Inv s) (hfile : (view s).file path = some content) (hclosed : (view s).Closed path)
    (hbound : ∀ e ∈ extras, total+e-1 ≤ largest)
    (hfind : extras.find? (fun e => grants (total+e-1)) = some extra) :
    ∃ s' content', procManProcessMemoryResize F path minLen total extras s =
        .ok (some (UInt16.ofNat (minLen+extra-1)), s') ∧ Inv s' ∧
      SameStart (total+extra-1) content content' ∧
      view s' = (view s).setFile path (some content') := by
  induction extras generalizing s with
  | nil => cases hfind
  | cons e extras ih =>
    have hle := hbound e List.mem_cons_self
    obtain ⟨s₁, hresize⟩ := hg.resize s (total+e-1) content hi hfile hclosed hle
    have hlaw := hl.resize s s₁ path (total+e-1) content _ hi hfile hle hresize
    rw [procManProcessMemoryResize, u16_of_lt (by omega), bind_of_ok hresize]
    cases hgrant : grants (total+e-1) with
    | true =>
      rw [List.find?_cons, hgrant] at hfind
      obtain ⟨hi₁, _, hyes⟩ := hlaw
      obtain ⟨content', hstart, hv⟩ := hyes hgrant
      rw [← Option.some.inj hfind]
      exact ⟨s₁, content', rfl, hi₁, hstart, hv⟩
    | false =>
      rw [List.find?_cons, hgrant] at hfind
      have hv := hlaw.2.1 hgrant
      obtain ⟨s', content', hrun, hi', hstart, hv'⟩ := ih hlaw.1
        (by rw [hv]; exact hfile) (by rw [hv]; exact hclosed)
        (fun e' he' => hbound e' (List.mem_cons_of_mem _ he')) hfind
      rw [hv] at hv'
      exact ⟨s', content', hrun, hi', hstart, hv'⟩

/-- The file that has been resized is opened and written. -/
theorem reopen_run (process : ProcManProcess) (procData : ProcManProcessProcData) (index : ℕ)
    (data : List UInt8) (newRamLen : UInt16) (hw : ReliableWrites F Inv view)
    (hg : Growable F Inv view largest paths.ram grants) {content : List UInt8} {fd : ℕ} (hi : Inv s) (hfile : (view s).file paths.ram = some content)
    (hclosed : (view s).Closed paths.ram) (hfd : fd ≠ KernelFsFdInvalid) (hlt : fd < KernelFsFdMax)
    (hfree : (view s).fd fd = none)
    (hfits : procData.envVarDataLen.toNat+index+data.length ≤ content.length) :
    ∃ ramFd s', procManProcessMemoryReopen F process procData paths.ram index data newRamLen s =
        .ok ((true, { procData with ramFd := ramFd, ramLen := newRamLen }), s') ∧
      RamOwned (view s') { procData with ramFd := ramFd, ramLen := newRamLen } paths := by
  obtain ⟨ramFd, s₁, hopen, hvalid⟩ := hg.openFile s content fd hi hfile hclosed hfd hlt hfree
  obtain ⟨hi₁, hfiles, hothers, hnew⟩ := hl.openFile _ _ _ _ _ _ hi hfile hopen
  obtain ⟨_, hopened⟩ := hnew hvalid
  have hmax := hl.fd_lt _ _ _ hi₁ hopened
  have hwritable : (OpenFile.mk paths.ram KernelFsFdModeRW 1).mode &&& KernelFsFdModeWO ≠ 0 := by
    change 3 &&& 2 ≠ 0
    decide
  have hfile₁ : (view s₁).file paths.ram = some content := by rw [hfiles, hfile]
  obtain ⟨s₂, hwrite⟩ := hw.write s₁ ramFd (procData.envVarDataLen.toNat+index) data _ _ hi₁
    hopened hfile₁ hwritable
  rw [Nat.min_eq_left (by omega)] at hwrite
  have hfull : writeFully F ramFd (procData.envVarDataLen.toNat+index) data s₁ =
      .ok (true, s₂) := by
    rw [writeFully, bind_of_ok hwrite, beq_self_eq_true]
    rfl
  obtain ⟨_, content', _, hv, _⟩ := writeFully_cases hl hi₁ hopened hfile₁ hfull
  have hnat : (UInt8.ofNat ramFd).toNat = ramFd := by
    rw [UInt8.toNat_ofNat']
    exact Nat.mod_eq_of_lt (Nat.lt_trans hmax (by decide))
  refine ⟨UInt8.ofNat ramFd, s₂, ?_, ?_, ?_⟩
  · rw [procManProcessMemoryReopen, bind_of_ok hopen, if_neg hvalid, bind_of_ok hfull]
    rfl
  · rw [hnat]
    exact hvalid
  · intro i e he hpath
    rw [hnat]
    by_contra hne
    rw [hv, FsView.setFile_fd, hothers i hne] at he
    exact hclosed i e he hpath

theorem grow_run (hw : ReliableWrites F Inv view)
    (hg : Growable F Inv view largest paths.ram grants) (hsmall : largest ≤ 32768) (hi : Inv s)
    (hm : ProcessMemory (view s) process procData paths m)
    (ho : RamOwned (view s) procData paths) {index : ℕ} {data : List UInt8}
    (hbeyond : m.ram.length ≤ index+data.length)
    (hroom : m.env.length+index+data.length+15 ≤ largest)
    (hgrant : grants (m.env.length+index+data.length) = true) :
    ∃ procData' s' m', procManProcessMemoryGrow F process procData index data s =
        .ok ((true, procData'), s') ∧ Inv s' ∧ ProcessMemory (view s') process procData' paths m' ∧
      RamOwned (view s') procData' paths ∧ OthersKept (view s) (view s') procData paths ∧
      Patched m m' (m.env.length+index) data ∧
      m'.ram.length = index+data.length+spare grants (m.env.length+index+data.length)-1 ∧
      procData'.regs = procData.regs := by
  have hfile := m.file_length
  have hspare := spare_bound grants (m.env.length+index+data.length)
  obtain ⟨⟨path, s₀⟩, hget⟩ := hg.getFilePath s procData.ramFd.toNat hi
  obtain ⟨hs₀, hpath⟩ := hl.getFilePath _ _ _ _ hget
  rw [hm.ramFd] at hpath
  rw [hs₀, hpath] at hget
  obtain ⟨⟨k, s₁⟩, hclose⟩ := hg.close s _ _ hi hm.ramFd
  obtain ⟨hi₁, hv₁⟩ := hl.close _ _ _ _ _ hi hm.ramFd hclose
  have hclosed₁ : (view s₁).Closed paths.ram := by
    intro i e he hram
    rw [hv₁, FsView.setFd_fd] at he
    split at he
    case isTrue => cases he
    case isFalse hne => exact hne (ho.alone i e he hram)
  have hramFile₁ : (view s₁).file paths.ram = some m.file := by
    rw [hv₁]
    exact hm.ramFile
  have hmin : u16 (index+data.length) = index+data.length := u16_of_lt (by omega)
  have htotal : u16 (procData.envVarDataLen.toNat+u16 (index+data.length)) =
      m.env.length+index+data.length := by
    rw [hmin, ← hm.envLen, ← Nat.add_assoc]
    exact u16_of_lt (by omega)
  obtain ⟨s₂, content, hresize, hi₂, hstart, hv₂⟩ := resize_run hl (index+data.length) hg
    (by omega) hi₁ hramFile₁ hclosed₁
    (fun e he => by have hle := extras_bound he; omega) (spare_found hgrant)
  have hlenNat : (UInt16.ofNat (index+data.length+
      spare grants (m.env.length+index+data.length)-1)).toNat =
      index+data.length+spare grants (m.env.length+index+data.length)-1 := by
    rw [UInt16.toNat_ofNat']
    omega
  have hclosed₂ : RamClosed (view s) (view s₂) procData paths content := by
    refine ⟨by rw [hv₂, FsView.setFile_file, if_pos rfl], fun q hq => ?_, fun i hi _ => ?_⟩
    · rw [hv₂, FsView.setFile_file, if_neg hq, hv₁]
      rfl
    · rw [hv₂, FsView.setFile_fd, hv₁, FsView.setFd_fd, if_neg hi]
  have hfree : (view s₂).fd procData.ramFd.toNat = none := by
    rw [hv₂, FsView.setFile_fd, hv₁, FsView.setFd_fd, if_pos rfl]
    rfl
  obtain ⟨ramFd, s', hreopen, howned⟩ := reopen_run hl process procData index data
    (UInt16.ofNat (index+data.length+spare grants (m.env.length+index+data.length)-1)) hw hg hi₂ hclosed₂.ram
    (by rw [FsView.Closed, hv₂]; exact hclosed₁) ho.valid (hl.fd_lt _ _ _ hi hm.ramFd) hfree
    (by rw [hstart.1, ← hm.envLen]; omega)
  obtain ⟨hi', _, hdone⟩ := reopen_cases hl hm hi₂ hclosed₂
    (by rw [hlenNat, hstart.1]; omega) hreopen
  obtain ⟨hfits, hramLen, hmem, hothers⟩ := hdone rfl
  refine ⟨_, s', _, ?_, hi', hmem, howned, hothers,
    patched_withFile (fun j hj => ?_) (by rw [hstart.1]; omega) hfits, ?_, rfl⟩
  · rw [procManProcessMemoryGrow, bind_of_ok hget]
    dsimp only [Option.map_some]
    rw [bind_of_ok hclose, htotal, hmin, bind_of_ok hresize]
    exact hreopen
  · have htake := hstart.2
    rw [Nat.min_eq_left (by omega)] at htake
    have hj' := congrArg (fun l : List UInt8 => l[j]?) htake
    simpa only [List.getElem?_take, if_pos hj] using hj'
  · rw [hmem.ramLen]
    exact hlenNat

/-- A write within the file of the RAM. -/
theorem ramFile_write (hw : ReliableWrites F Inv view)
    (h : MemoryAt Inv view process paths procData s m) {offset : ℕ} {data : List UInt8}
    (hend : offset+data.length ≤ m.file.length) :
    ∃ s' m', writeFully F procData.ramFd.toNat offset data s = .ok (true, s') ∧
      MemoryAt Inv view process paths procData s' m' ∧ Beside (view s) (view s') paths ∧
      Patched m m' offset data ∧ m'.ram.length = m.ram.length := by
  have hm := h.memory
  have hwritable : (OpenFile.mk paths.ram KernelFsFdModeRW 1).mode &&& KernelFsFdModeWO ≠ 0 := by
    change 3 &&& 2 ≠ 0
    decide
  obtain ⟨s', hwrite⟩ := hw.write s procData.ramFd.toNat offset data _ _ h.inv hm.ramFd hm.ramFile
    hwritable
  rw [Nat.min_eq_left (by omega)] at hwrite
  have hfull : writeFully F procData.ramFd.toNat offset data s = .ok (true, s') := by
    rw [writeFully, bind_of_ok hwrite, beq_self_eq_true]
    rfl
  obtain ⟨hi', _, hdone⟩ := ram_file_written hl h.inv hm hfull
  obtain ⟨_, hmem, hothers, hpatched, hsame⟩ := hdone rfl
  obtain ⟨_, content, _, hv, _⟩ := writeFully_cases hl h.inv hm.ramFd hm.ramFile hfull
  refine ⟨s', _, hfull, ⟨hi', hmem, h.owned.valid, ?_⟩, beside_of_others hm hothers, hpatched,
    hsame⟩
  intro i e he hpath
  rw [hv, FsView.setFile_fd] at he
  exact h.owned.alone i e he hpath

/-- A write into the RAM as it is. -/
theorem ramWrite_inside (hw : ReliableWrites F Inv view) (hi : Inv s)
    (hm : ProcessMemory (view s) process procData paths m)
    (ho : RamOwned (view s) procData paths) {addr : UInt16} {data : List UInt8}
    (hin : BytecodeMemoryRamAddr ≤ addr.toNat)
    (hend : addr.toNat-BytecodeMemoryRamAddr+data.length < m.ram.length) :
    ∃ s' m', procManProcessMemoryWriteBlock F process procData addr data s =
        .ok ((true, procData), s') ∧ Inv s' ∧ ProcessMemory (view s') process procData paths m' ∧
      RamOwned (view s') procData paths ∧ Beside (view s) (view s') paths ∧
      Patched m m' (m.env.length+(addr.toNat-BytecodeMemoryRamAddr)) data ∧
      m'.ram.length = m.ram.length := by
  have hfile := m.file_length
  obtain ⟨s', m', hfull, h', hbeside, hpatched, hsame⟩ := ramFile_write hl hw ⟨hi, hm, ho⟩
    (show m.env.length+(addr.toNat-BytecodeMemoryRamAddr)+data.length ≤ m.file.length by omega)
  refine ⟨s', m', ?_, h'.inv, h'.memory, h'.owned, hbeside, hpatched, hsame⟩
  have hram := hm.ramLen
  rw [hm.envLen] at hfull
  rw [procManProcessMemoryWriteBlock, if_neg (by omega), if_neg (by omega), if_pos (by omega),
    bind_of_ok hfull]
  rfl

/-- A write below the window of the environment variables is done where there is
room for it. -/
theorem ramWrite_run (addr : UInt16) (data : List UInt8)
    (hw : ReliableWrites F Inv view)
    (hg : Growable F Inv view largest paths.ram grants) (hsmall : largest ≤ 32768)
    (h : MemoryAt Inv view process paths procData s m)
    (hin : BytecodeMemoryRamAddr ≤ addr.toNat) (hlow : addr.toNat < ProcManEnvVarsVirtualOffset)
    (hroom : m.env.length+(addr.toNat-BytecodeMemoryRamAddr)+data.length+15 ≤ largest)
    (hgrant : m.ram.length ≤ addr.toNat-BytecodeMemoryRamAddr+data.length →
      grants (m.env.length+(addr.toNat-BytecodeMemoryRamAddr)+data.length) = true) :
    ∃ procData' s' m', procManProcessMemoryWriteBlock F process procData addr data s =
        .ok ((true, procData'), s') ∧ MemoryAt Inv view process paths procData' s' m' ∧
      Beside (view s) (view s') paths ∧
      Patched m m' (m.env.length+(addr.toNat-BytecodeMemoryRamAddr)) data ∧
      m'.ram.length = lenAfter grants m.env.length m.ram.length
        (addr.toNat-BytecodeMemoryRamAddr+data.length) ∧
      procData'.regs = procData.regs := by
  have hm := h.memory
  by_cases hend : addr.toNat-BytecodeMemoryRamAddr+data.length < m.ram.length
  · obtain ⟨s', m', hrun, hi', hm', ho', hbeside, hpatched, hlen⟩ :=
      ramWrite_inside hl hw h.inv hm h.owned hin hend
    refine ⟨procData, s', m', hrun, ⟨hi', hm', ho'⟩, hbeside, hpatched, ?_, rfl⟩
    rw [lenAfter, if_pos hend, hlen]
  · obtain ⟨procData', s', m', hrun, hi', hm', ho', hothers, hpatched, hlen, hregs⟩ :=
      grow_run hl hw hg hsmall h.inv hm h.owned (Nat.not_lt.mp hend) hroom
        (hgrant (Nat.not_lt.mp hend))
    have hram := hm.ramLen
    refine ⟨procData', s', m', ?_, ⟨hi', hm', ho'⟩, beside_of_others hm hothers, hpatched, ?_,
      hregs⟩
    · rw [procManProcessMemoryWriteBlock, if_neg (by omega), if_neg (by omega), if_neg (by omega),
        if_neg (by omega)]
      exact hrun
    · rw [lenAfter, if_neg hend, hlen, Nat.add_assoc m.env.length]

end Runs

/-! ### Files that are their own view -/

theorem isOpen_closed {v : FsView} {path : CStr} (h : v.Closed path) : v.isOpen path = false := by
  rw [FsView.isOpen, List.any_eq_false]
  intro i _ hany
  cases hfd : v.fd i with
  | none =>
    rw [hfd] at hany
    cases hany
  | some e =>
    rw [hfd] at hany
    exact h i e hfd (beq_iff_eq.mp hany)

theorem freeFd_found {v : FsView} {fd : ℕ} (hfd : fd ≠ KernelFsFdInvalid)
    (hlt : fd < KernelFsFdMax) (hfree : v.fd fd = none) : v.freeFd ≠ 0 := by
  rw [FsView.freeFd]
  cases hfind : (List.range KernelFsFdMax).reverse.find? (fun i => i != 0 && (v.fd i).isNone) with
  | none =>
    have hnone := List.find?_eq_none.mp hfind fd
      (List.mem_reverse.mpr (List.mem_range.mpr hlt))
    simp [hfree] at hnone
    exact absurd hnone hfd
  | some i =>
    have hsome := List.find?_some hfind
    simp at hsome
    exact hsome.1

/-- The view itself grants every size. -/
theorem viewFiles_growable (largest : ℕ) (path : CStr) :
    Growable viewFiles FsView.Bounded id largest path (fun _ => true) where
  getFilePath s fd _ := ⟨_, rfl⟩
  close s fd e _ _ := ⟨_, rfl⟩
  resize s n content _ hfile hclosed _ := by
    have hfile' : s.file path = some content := hfile
    have hclosed' : s.isOpen path = false := isOpen_closed hclosed
    have hresize : s.resize path n = (true, s.setFile path
        (some (content.take n++List.replicate (n-content.length) 0))) := by
      rw [FsView.resize, hclosed', if_neg Bool.false_ne_true, hfile']
    exact ⟨_, congrArg Except.ok hresize⟩
  openFile s content fd _ hfile hclosed hfd hlt hfree := by
    have hfile' : s.file path = some content := hfile
    have hclosed' : s.isOpen path = false := isOpen_closed hclosed
    have hsome : s.freeFd ≠ 0 := freeFd_found hfd hlt hfree
    have hopen : s.openFile path KernelFsFdModeRW =
        (s.freeFd, s.setFd s.freeFd (some ⟨path, KernelFsFdModeRW, 1⟩)) := by
      rw [FsView.openFile, if_neg]
      simp [hfile', hclosed', hsome]
    exact ⟨_, _, congrArg Except.ok hopen, hsome⟩

end ArduinoOS.Procman
