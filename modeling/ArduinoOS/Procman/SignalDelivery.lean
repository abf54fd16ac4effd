import ArduinoOS.Procman.Manager
import ArduinoOS.Procman.ProcessMemory

/-!
# Delivery of signals

A signal from another process changes the record that is stored for its target,
and so what its next tick begins with: the handler, with the interrupted
address on the stack.
-/

set_option autoImplicit false

namespace ArduinoOS.Procman
open ArduinoOS.Faulting ArduinoOS.Kernel ArduinoOS.Minifs

/-! ### Stored records -/

/-- The record is in the file that is open for it. -/
def RecordStored (v : FsView) (process : ProcManProcess) (path : CStr)
    (procData : ProcManProcessProcData) : Prop :=
  v.fd process.procFd = some ⟨path, KernelFsFdModeRW, 1⟩ ∧ v.file path = some procData.toBytes

section Records

variable {φ : Type} {F : Files φ} {Inv : φ → Prop} {view : φ → FsView} {largest : ℕ}
  {s s' : φ} {process : ProcManProcess} {path : CStr} {procData procData' : ProcManProcessProcData}

theorem load_stored (hl : FilesLaw F Inv view largest) (hr : ReliableReads F Inv view)
    (hi : Inv s) (h : RecordStored (view s) process path procData) :
    ∃ s₁, procManProcessLoadProcData F process s = .ok (some procData, s₁) ∧ Inv s₁ ∧
      view s₁ = view s := by
  obtain ⟨hfd, hfile⟩ := h
  have hreadable : (OpenFile.mk path KernelFsFdModeRW 1).mode &&& KernelFsFdModeRO ≠ 0 := by
    change 3 &&& 1 ≠ 0
    decide
  obtain ⟨r, s₁, hrun, hcount⟩ := hr.read s _ 0 procDataSize _ _ hi hfd hfile hreadable
  obtain ⟨hi₁, hview, hfull⟩ := hl.read s s₁ _ 0 procDataSize _ _ r hi hfd hfile hrun
  have hlen : r.2 = procDataSize := by
    rw [hcount, toBytes_length]
    rfl
  refine ⟨s₁, ?_, hi₁, hview⟩
  have hall : (procData.toBytes.drop 0).take procDataSize = procData.toBytes := by
    rw [List.drop_zero, ← toBytes_length procData, List.take_length]
  rw [procManProcessLoadProcData, bind_of_ok hrun, if_pos hlen, (hfull hlen).1, hall,
    ofBytes_toBytes]
  rfl

theorem store_stored (hl : FilesLaw F Inv view largest) (hw : ReliableWrites F Inv view)
    (hi : Inv s) (h : RecordStored (view s) process path procData) :
    ∃ s₁, procManProcessStoreProcData F process procData' s = .ok (true, s₁) ∧ Inv s₁ ∧
      view s₁ = (view s).setFile path (some procData'.toBytes) := by
  obtain ⟨hfd, hfile⟩ := h
  have hwritable : (OpenFile.mk path KernelFsFdModeRW 1).mode &&& KernelFsFdModeWO ≠ 0 := by
    change 3 &&& 2 ≠ 0
    decide
  obtain ⟨s₁, hrun⟩ := hw.write s _ 0 procData'.toBytes _ _ hi hfd hfile hwritable
  obtain ⟨hi₁, c', hwritten, hview⟩ := hl.write s s₁ _ 0 _ _ _ _ hi hfd hfile hrun
  have hcount : min procData'.toBytes.length (procData.toBytes.length-0) =
      procData'.toBytes.length := by
    rw [toBytes_length, toBytes_length]
    rfl
  have hall : procData'.toBytes.take (procData.toBytes.length-0) = procData'.toBytes :=
    List.take_of_length_le (Nat.le_refl _)
  have hnone : procData.toBytes.drop (0+procData'.toBytes.length) = [] :=
    List.drop_eq_nil_of_le (Nat.le_refl _)
  have hc : c' = procData'.toBytes := by
    rw [(hwritten.full hcount).1, patch, hall, hnone, List.take_zero, List.nil_append,
      List.append_nil]
  refine ⟨s₁, ?_, hi₁, hc ▸ hview⟩
  rw [procManProcessStoreProcData, bind_of_ok hrun, hcount, toBytes_length]
  rfl

/-- The next tick of a process begins with the record that is stored for it. -/
theorem tick_stored (hl : FilesLaw F Inv view largest) (hr : ReliableReads F Inv view)
    (W : World φ) {pid : ℕ} {t : ProcTable} {deaths : List (Death φ)} (hi : Inv s)
    (hlive : Live t pid) (hactive : (t pid).state = .active)
    (h : RecordStored (view s) (t pid) path procData) :
    ∃ s₁, procManProcessTick F W pid (t, (deaths, s)) =
      tickRun F W pid procData (t, (deaths, s₁)) := by
  obtain ⟨s₁, hload, _, _⟩ := load_stored hl hr hi h
  have hloaded : onFiles pid (fun process => procManProcessLoadProcData F process) (t, s) =
      .ok (some procData, (t, s₁)) := onSecond_ok.mpr ⟨hload, rfl⟩
  have hstart : tickStart F W pid (t pid).state (t, s) = .ok (.run procData, (t, s₁)) := by
    rw [hactive]
    exact bind_of_ok hloaded
  have hbeside : beside (tickStart F W pid (t pid).state) (t, (deaths, s)) =
      .ok (.run procData, (t, (deaths, s₁))) := by
    rw [beside, hstart]
  refine ⟨s₁, ?_⟩
  have hget : (getFirst : ProcManRun (Logged φ) ProcTable) (t, (deaths, s)) =
    .ok (t, (t, (deaths, s))) := rfl
  rw [procManProcessTick, bind_of_ok hget, if_pos hlive, bind_of_ok hbeside]

/-- Storing another process's record. -/
theorem store_other (hl : FilesLaw F Inv view largest) {other : ProcManProcess} {e : OpenFile}
    {c : List UInt8} {d : ProcManProcessProcData} {b : Bool} (hi : Inv s)
    (hfd : (view s).fd other.procFd = some e) (hfile : (view s).file e.path = some c)
    (hne : e.path ≠ path) (h : RecordStored (view s) process path procData)
    (hrun : procManProcessStoreProcData F other d s = .ok (b, s')) :
    Inv s' ∧ RecordStored (view s') process path procData := by
  obtain ⟨n, s₁, hw, hp⟩ := bind_ok.mp hrun
  obtain ⟨_, rfl⟩ := pure_ok.mp hp
  obtain ⟨hi', c', _, hview⟩ := hl.write s s' _ 0 _ _ _ _ hi hfd hfile hw
  refine ⟨hi', ?_, ?_⟩
  · rw [hview]
    exact h.1
  · rw [hview, FsView.setFile_file, if_neg (Ne.symm hne)]
    exact h.2

end Records

/-! ### What a write of memory does to the record -/

/-- The record with another RAM. -/
def SameButRam (d d' : ProcManProcessProcData) : Prop :=
  ∃ ramFd ramLen, d' = { d with ramFd := ramFd, ramLen := ramLen }

section Memory

variable {φ : Type} {F : Files φ} {process : ProcManProcess}
  {procData procData' : ProcManProcessProcData} {s s' : φ} {b : Bool}

theorem memoryError_same {d : ProcManProcessProcData} (hd : SameButRam procData d)
    (h : procManProcessMemoryError F process d s = .ok ((b, procData'), s')) :
    SameButRam procData procData' := by
  obtain ⟨stored, s₁, _, h⟩ := bind_ok.mp h
  obtain ⟨hpair, _⟩ := pure_ok.mp h
  cases hpair
  exact hd

theorem reopen_same {path : CStr} {index : ℕ} {data : List UInt8} {newRamLen : UInt16}
    (h : procManProcessMemoryReopen F process procData path index data newRamLen s =
      .ok ((b, procData'), s')) : SameButRam procData procData' := by
  obtain ⟨ramFd, s₁, _, h⟩ := bind_ok.mp h
  split at h
  case isTrue =>
    obtain ⟨deleted, s₂, _, h⟩ := bind_ok.mp h
    exact memoryError_same ⟨0, procData.ramLen, rfl⟩ h
  case isFalse =>
    obtain ⟨written, s₂, _, h⟩ := bind_ok.mp h
    cases written with
    | true =>
      obtain ⟨hpair, _⟩ := pure_ok.mp h
      cases hpair
      exact ⟨_, _, rfl⟩
    | false => exact memoryError_same ⟨_, _, rfl⟩ h

theorem grow_same {index : ℕ} {data : List UInt8}
    (h : procManProcessMemoryGrow F process procData index data s = .ok ((b, procData'), s')) :
    SameButRam procData procData' := by
  obtain ⟨path, s₁, _, h⟩ := bind_ok.mp h
  cases path with
  | none => exact absurd h throw_ok
  | some path =>
    obtain ⟨k, s₂, _, h⟩ := bind_ok.mp h
    obtain ⟨newRamLen, s₃, _, h⟩ := bind_ok.mp h
    cases newRamLen with
    | none =>
      obtain ⟨deleted, s₄, _, h⟩ := bind_ok.mp h
      exact memoryError_same ⟨0, procData.ramLen, rfl⟩ h
    | some newRamLen => exact reopen_same h

theorem writeBlock_same {addr : UInt16} {data : List UInt8}
    (h : procManProcessMemoryWriteBlock F process procData addr data s =
      .ok ((b, procData'), s')) : SameButRam procData procData' := by
  have hsame : ∀ {x : Run φ Fault Bool},
      (x >>= fun written => pure (written, procData)) s = .ok ((b, procData'), s') →
      SameButRam procData procData' := by
    intro x h
    obtain ⟨written, s₁, _, h⟩ := bind_ok.mp h
    obtain ⟨hpair, _⟩ := pure_ok.mp h
    cases hpair
    exact ⟨_, _, rfl⟩
  have hpure : (pure (false, procData) : Run φ Fault (Bool × ProcManProcessProcData)) s =
      .ok ((b, procData'), s') → SameButRam procData procData' := by
    intro h
    cases h
    exact ⟨_, _, rfl⟩
  rw [procManProcessMemoryWriteBlock] at h
  split at h
  case isTrue => exact hpure h
  case isFalse =>
    split at h
    case isTrue => exact hpure h
    case isFalse =>
      split at h
      case isTrue => exact hsame h
      case isFalse =>
        split at h
        case isTrue => exact hsame h
        case isFalse => exact grow_same h

theorem sameButRam_regs (h : SameButRam procData procData') : procData'.regs = procData.regs := by
  obtain ⟨ramFd, ramLen, rfl⟩ := h
  rfl

end Memory

/-! ### Calling the handler -/

/-- The record's file is not part of the memory. -/
theorem memory_setProc {v : FsView} {process : ProcManProcess}
    {procData : ProcManProcessProcData} {paths : ProcessPaths} {m : MemoryImage}
    (h : ProcessMemory v process procData paths m) (c : List UInt8) :
    ProcessMemory (v.setFile paths.proc (some c)) process procData paths m := by
  refine ⟨h.progFd, ?_, h.ramFd, ?_, h.envLen, h.ramLen, ?_, h.valid, h.apart⟩
  · rw [FsView.setFile_file, if_neg h.apart.2.1.symm]
    exact h.progFile
  · rw [FsView.setFile_file, if_neg h.apart.2.2.symm]
    exact h.ramFile
  · obtain ⟨e, _, hfd, hpath, _⟩ := h.procFd
    exact ⟨e, c, hfd, hpath, by rw [FsView.setFile_file, if_pos rfl]⟩

/-- The two bytes of a word on the stack. -/
def stackBytes (value : UInt16) : List UInt8 :=
  [UInt8.ofNat (value.toNat/256), UInt8.ofNat (value.toNat%256)]

theorem word_of_stackBytes (value : UInt16) :
    UInt16.ofNat (256*((stackBytes value).getD 0 0).toNat+((stackBytes value).getD 1 0).toNat) =
      value := by
  have hv := value.toNat_lt
  have hhigh : ((stackBytes value).getD 0 0).toNat = value.toNat/256 := by
    change (UInt8.ofNat (value.toNat/256)).toNat = _
    rw [UInt8.toNat_ofNat']
    omega
  have hlow : ((stackBytes value).getD 1 0).toNat = value.toNat%256 := by
    change (UInt8.ofNat (value.toNat%256)).toNat = _
    rw [UInt8.toNat_ofNat']
    omega
  apply UInt16.toNat_inj.mp
  rw [hhigh, hlow, UInt16.toNat_ofNat']
  omega

/-- The word at the stack pointer lies in the RAM, or in RAM that there is room
to grow, and can be written. -/
structure StackWritable {φ : Type} (F : Files φ) (Inv : φ → Prop) (view : φ → FsView)
    (largest : ℕ) (v : FsView) (process : ProcManProcess) (procData : ProcManProcessProcData)
    (paths : ProcessPaths) (m : MemoryImage) : Prop where
  ram : BytecodeMemoryRamAddr ≤ (procData.regs BytecodeRegisterSP).toNat ∧
    ((procData.regs BytecodeRegisterSP).toNat-BytecodeMemoryRamAddr+2 < m.ram.length ∨
      (procData.regs BytecodeRegisterSP).toNat < ProcManEnvVarsVirtualOffset)
  space : ∀ s, Inv s → view s = v →
    m.ram.length ≤ (procData.regs BytecodeRegisterSP).toNat-BytecodeMemoryRamAddr+2 →
    m.env.length+((procData.regs BytecodeRegisterSP).toNat-BytecodeMemoryRamAddr)+2+15 ≤
      largest ∧ EnoughSpace F procData paths.ram
        (m.env.length+((procData.regs BytecodeRegisterSP).toNat-BytecodeMemoryRamAddr)+2+15) s
  written : ∀ s, Inv s → view s = v → ∃ procData' s',
    procManProcessMemoryWriteWord F process procData (procData.regs BytecodeRegisterSP)
      (procData.regs BytecodeRegisterIP) s = .ok ((true, procData'), s')

/-- The registers of a process whose handler has been called. -/
structure Called (d d' : ProcManProcessProcData) (handlerAddr : UInt16) : Prop where
  ip : d'.regs BytecodeRegisterIP = handlerAddr
  sp : d'.regs BytecodeRegisterSP = d.regs BytecodeRegisterSP+2
  others : ∀ r, r ≠ BytecodeRegisterIP → r ≠ BytecodeRegisterSP → d'.regs r = d.regs r

section Calling

variable {φ : Type} {F : Files φ} {Inv : φ → Prop} {view : φ → FsView} {largest : ℕ}
  {s : φ} {process : ProcManProcess} {procData stored : ProcManProcessProcData}
  {paths : ProcessPaths} {m : MemoryImage}

/-- A stack inside the RAM as it is can be written. -/
theorem stack_inside (hw : ReliableWrites F Inv view) {v : FsView}
    (hm : ProcessMemory v process procData paths m)
    (hin : BytecodeMemoryRamAddr ≤ (procData.regs BytecodeRegisterSP).toNat)
    (hend : (procData.regs BytecodeRegisterSP).toNat-BytecodeMemoryRamAddr+2 < m.ram.length) :
    StackWritable F Inv view largest v process procData paths m := by
  refine ⟨⟨hin, Or.inl hend⟩, fun _ _ _ hout => absurd hend (Nat.not_lt.mpr hout), ?_⟩
  intro s hi hv
  have hfile := m.file_length
  have hlen := hm.ramLen
  have henv := hm.envLen
  rw [procManProcessMemoryWriteWord, procManProcessMemoryWriteBlock, if_neg (by omega)]
  simp only [List.length_cons, List.length_nil, Nat.zero_add, Nat.reduceAdd]
  rw [if_neg (by omega), if_pos (by omega)]
  have hwritable : (OpenFile.mk paths.ram KernelFsFdModeRW 1).mode &&& KernelFsFdModeWO ≠ 0 := by
    change 3 &&& 2 ≠ 0
    decide
  obtain ⟨s', hrun⟩ := hw.write s procData.ramFd.toNat (procData.envVarDataLen.toNat+
    ((procData.regs BytecodeRegisterSP).toNat-BytecodeMemoryRamAddr))
    (stackBytes (procData.regs BytecodeRegisterIP)) _ _ hi (hv ▸ hm.ramFd) (hv ▸ hm.ramFile)
    hwritable
  have hcount : min (stackBytes (procData.regs BytecodeRegisterIP)).length
      (m.file.length-(procData.envVarDataLen.toNat+
        ((procData.regs BytecodeRegisterSP).toNat-BytecodeMemoryRamAddr))) = 2 := by
    change min 2 _ = 2
    omega
  have hfull : writeFully F procData.ramFd.toNat (procData.envVarDataLen.toNat+
      ((procData.regs BytecodeRegisterSP).toNat-BytecodeMemoryRamAddr))
      (stackBytes (procData.regs BytecodeRegisterIP)) s = .ok (true, s') := by
    rw [writeFully, bind_of_ok hrun, hcount]
    rfl
  exact ⟨procData, s', bind_of_ok hfull⟩

/-- The word written to the stack is read there. -/
theorem stack_readBack {m' : MemoryImage} {index : ℕ} {value : UInt16}
    (hin : index+2 < m.ram.length ∨ index < MemoryImage.envIndex)
    (h : WrittenAt m m' index (stackBytes value)) :
    m'.block (BytecodeMemoryRamAddr+index) 2 = some (stackBytes value) := by
  have hlen : (stackBytes value).length = 2 := rfl
  have hback : BytecodeMemoryRamAddr+index-BytecodeMemoryRamAddr = index :=
    Nat.add_sub_cancel_left _ _
  have hread : ∀ offset, Patched m m' offset (stackBytes value) →
      m'.offsetOf index = some offset →
      m'.block (BytecodeMemoryRamAddr+index) 2 = some (stackBytes value) := by
    intro offset hp ho
    rw [← hlen]
    exact patched_readBack hp (Nat.le_add_right _ _) (by rw [hback]; exact ho)
  cases h with
  | ram hfits hram hp =>
    apply hread _ hp
    rw [MemoryImage.offsetOf_ram (by omega), hp.env]
  | env hout hlow => omega
  | grown hout hlow hram hp =>
    apply hread _ hp
    rw [MemoryImage.offsetOf_ram (by omega), hp.env]

theorem callHandler_run (hl : FilesLaw F Inv view largest) (hr : ReliableReads F Inv view)
    (hw : ReliableWrites F Inv view) (hlargest : largest ≤ 32768) (hi : Inv s)
    (hm : ProcessMemory (view s) process procData paths m)
    (hstored : RecordStored (view s) process paths.proc stored)
    (hstack : StackWritable F Inv view largest (view s) process procData paths m)
    (handlerAddr : UInt16) :
    ∃ d' s', callHandler F procData handlerAddr process s = .ok (true, s') ∧ Inv s' ∧
      Called procData d' handlerAddr ∧ RecordStored (view s') process paths.proc d' ∧
      (∀ q, q ≠ paths.ram → q ≠ paths.proc → (view s').file q = (view s).file q) ∧
      (∀ i e, i ≠ procData.ramFd.toNat → i ≠ KernelFsFdInvalid → (view s).fd i = some e →
        (view s').fd i = some e) ∧
      ∃ s₁, procManProcessMemoryReadWord F process d' (procData.regs BytecodeRegisterSP) s' =
        .ok (some (procData.regs BytecodeRegisterIP), s₁) := by
  have hbase : BytecodeMemoryRamAddr = 32768 := rfl
  have hwindow : MemoryImage.envIndex = 31744 := rfl
  have hvirtual : ProcManEnvVarsVirtualOffset = 64512 := rfl
  obtain ⟨hin, hwhere⟩ := hstack.ram
  obtain ⟨d₁, s₁, hwrite⟩ := hstack.written s hi rfl
  obtain ⟨_, hdone⟩ := writeBlock_cases hl hlargest hi hm
    (fun hout _ => hstack.space s hi rfl hout) hwrite
  obtain ⟨_, hi₁, m', hm₁, hothers, hat⟩ := hdone rfl
  have hregs : d₁.regs = procData.regs := sameButRam_regs (writeBlock_same hwrite)
  have hstored₁ : RecordStored (view s₁) process paths.proc stored := by
    refine ⟨hothers.fds _ _ (other_fd hm).2 hm.valid.2 hstored.1, ?_⟩
    rw [hothers.files _ hm.apart.2.2]
    exact hstored.2
  -- the registers that are stored, and their file
  obtain ⟨d', hd'⟩ : ∃ d', d' = (d₁.setReg BytecodeRegisterSP
      (d₁.regs BytecodeRegisterSP+2)).setReg BytecodeRegisterIP handlerAddr := ⟨_, rfl⟩
  obtain ⟨s₂, hstore, hi₂, hv₂⟩ : ∃ s₂, procManProcessStoreProcData F process d' s₁ =
      .ok (true, s₂) ∧ Inv s₂ ∧ view s₂ = (view s₁).setFile paths.proc (some d'.toBytes) :=
    store_stored hl hw hi₁ hstored₁
  have hm₂ : ProcessMemory (view s₂) process d' paths m' := by
    rw [hv₂, hd']
    exact memory_setProc (memory_setReg (memory_setReg hm₁ _ _) _ _) _
  refine ⟨d', s₂, ?_, hi₂, ⟨?_, ?_, fun r hip hsp => ?_⟩, ⟨?_, ?_⟩, fun q hram hproc => ?_,
    fun i e hne hzero he => ?_, ?_⟩
  · rw [hd'] at hstore
    rw [callHandler, bind_of_ok hwrite]
    exact hstore
  · rw [hd', ProcManProcessProcData.setReg_regs, if_pos rfl]
  · rw [hd', ProcManProcessProcData.setReg_regs, if_neg (by decide),
      ProcManProcessProcData.setReg_regs, if_pos rfl, hregs]
  · rw [hd', ProcManProcessProcData.setReg_regs, if_neg hip,
      ProcManProcessProcData.setReg_regs, if_neg hsp, hregs]
  · rw [hv₂]
    exact hstored₁.1
  · rw [hv₂, FsView.setFile_file, if_pos rfl]
  · rw [hv₂, FsView.setFile_file, if_neg hproc, hothers.files q hram]
  · rw [hv₂]
    exact hothers.fds i e hne hzero he
  · have hblock := stack_readBack (by omega) hat
    rw [Nat.add_sub_cancel' hin] at hblock
    obtain ⟨s₃, hread, _⟩ := readBlock_run hl hr hi₂ hm₂ (procData.regs BytecodeRegisterSP) 2
    rw [hblock] at hread
    refine ⟨s₃, ?_⟩
    rw [procManProcessMemoryReadWord, bind_of_ok hread, Option.map_some, word_of_stackBytes]
    rfl

end Calling

/-! ### The system call -/

/-- What a handler is called with: a wait that was interrupted leaves its result
in r0. -/
structure Delivered (state : ProcManProcessState) (d d' : ProcManProcessProcData)
    (handlerAddr : UInt16) : Prop where
  ip : d'.regs BytecodeRegisterIP = handlerAddr
  sp : d'.regs BytecodeRegisterSP = d.regs BytecodeRegisterSP+2
  r0 : d'.regs 0 = match state with
    | .waitingWaitpid _ _ => ProcManExitStatusInterrupted
    | .waitingRead _ | .waitingRead32 _ | .waitingWrite _ | .waitingWrite32 _ => 0
    | _ => d.regs 0
  others : ∀ r, r ≠ 0 → r ≠ BytecodeRegisterSP → r ≠ BytecodeRegisterIP → d'.regs r = d.regs r

/-- Every process has a record of its own. -/
structure RecordsApart (v : FsView) (t : ProcTable) (paths : ℕ → ProcessPaths) : Prop where
  opened : ∀ p, Live t p → (t p).procFd ≠ KernelFsFdInvalid ∧
    ∃ e c, v.fd (t p).procFd = some e ∧ e.path = (paths p).proc ∧ v.file e.path = some c
  apart : ∀ p q, Live t p → Live t q → p ≠ q →
    (paths p).proc ≠ (paths q).proc ∧ (paths p).proc ≠ (paths q).ram

def ProcManProcess.activated (process : ProcManProcess) : ProcManProcess :=
  { process with state := .active }

/-- A process that a signal can be delivered to: it is alive, and its record and
the word at its stack pointer are where they belong. -/
structure Receiver {φ : Type} (F : Files φ) (Inv : φ → Prop) (view : φ → FsView) (largest : ℕ)
    (v : FsView) (t : ProcTable) (pid : ℕ) (procData : ProcManProcessProcData)
    (paths : ProcessPaths) (m : MemoryImage) : Prop where
  live : Live t pid
  state : (t pid).state ≠ .unused ∧ (t pid).state ≠ .exiting
  stored : RecordStored v (t pid) paths.proc procData
  memory : ProcessMemory v (t pid) procData paths m
  stack : StackWritable F Inv view largest v (t pid).activated
    (interruptedReg (t pid).state procData) paths m

/-- The next tick of the process begins with this record. -/
def StartsFrom {φ : Type} (F : Files φ) (W : World φ) (pid : ℕ) (process : ProcManProcess)
    (procData : ProcManProcessProcData) (s : φ) : Prop :=
  ∀ t deaths, t pid = process → ∃ s₁, procManProcessTick F W pid (t, (deaths, s)) =
    tickRun F W pid procData (t, (deaths, s₁))

section Sending

variable {φ : Type} {F : Files φ} {Inv : φ → Prop} {view : φ → FsView} {largest : ℕ}

theorem signalHandler_eq (d : ProcManProcessProcData) (id : Fin 4) :
    signalHandler d id.val = (d.signalHandlers id).toUInt16 := by
  fin_cases id <;> rfl

theorem interruptedReg_others (state : ProcManProcessState) (d : ProcManProcessProcData)
    {r : Fin 8} (hr : r ≠ 0) : (interruptedReg state d).regs r = d.regs r := by
  cases state <;> simp [interruptedReg, hr]

theorem interruptedReg_memory (state : ProcManProcessState) {d : ProcManProcessProcData}
    {v : FsView} {process : ProcManProcess} {paths : ProcessPaths} {m : MemoryImage}
    (h : ProcessMemory v process d paths m) :
    ProcessMemory v process (interruptedReg state d) paths m := by
  cases state with
  | waitingWaitpid | waitingRead | waitingRead32 | waitingWrite | waitingWrite32 =>
    exact memory_setReg h _ _
  | unused | active | exiting => exact h

theorem memory_activated {d : ProcManProcessProcData} {v : FsView} {process : ProcManProcess}
    {paths : ProcessPaths} {m : MemoryImage} (h : ProcessMemory v process d paths m) :
    ProcessMemory v process.activated d paths m :=
  ⟨h.progFd, h.progFile, h.ramFd, h.ramFile, h.envLen, h.ramLen, h.procFd, h.valid, h.apart⟩

theorem interruptedReg_ramFd (state : ProcManProcessState) (d : ProcManProcessProcData) :
    (interruptedReg state d).ramFd = d.ramFd := by
  cases state <;> rfl

theorem delivered_of_called {state : ProcManProcessState} {d d' : ProcManProcessProcData}
    {handlerAddr : UInt16} (h : Called (interruptedReg state d) d' handlerAddr) :
    Delivered state d d' handlerAddr := by
  refine ⟨h.ip, ?_, ?_, fun r hzero hsp hip => ?_⟩
  · rw [h.sp, interruptedReg_others _ _ (by decide)]
  · rw [h.others 0 (by decide) (by decide)]
    cases state <;> simp [interruptedReg]
  · rw [h.others r hip hsp, interruptedReg_others _ _ hzero]

/-- Sending a signal to a process that can receive it. -/
theorem sendSignal_run {t : ProcTable} {s s' : φ} {pid signalId : ℕ}
    {d : ProcManProcessProcData} (hid : signalId ≤ BytecodeSignalIdNB) (hlive : Live t pid)
    (hstate : (t pid).state ≠ .unused ∧ (t pid).state ≠ .exiting) {s₁ : φ}
    (hload : procManProcessLoadProcData F (t pid) s = .ok (some d, s₁))
    (hhandler : signalHandler d signalId ≠ 0) {b : Bool}
    (hcall : callHandler F (interruptedReg (t pid).state d) (signalHandler d signalId)
      (t pid).activated s₁ = .ok (b, s')) :
    procManProcessSendSignal F pid signalId (t, s) =
      .ok ((), (Function.update t pid (t pid).activated, s')) := by
  have hpid := hlive.1
  have hget : (getFirst : ProcManRun φ ProcTable) (t, s) = .ok (t, (t, s)) := rfl
  have hloaded : onFiles pid (fun process => procManProcessLoadProcData F process) (t, s) =
      .ok (some d, (t, s₁)) := onSecond_ok.mpr ⟨hload, rfl⟩
  rw [procManProcessSendSignal, if_neg (by omega), if_neg (by omega), bind_of_ok hget,
    if_pos hlive, bind_of_ok hloaded]
  dsimp only
  rw [if_neg hhandler]
  have hset : (setFirst (Function.update t pid { t pid with state := .active }) :
      ProcManRun φ Unit) (t, s₁) = .ok ((), (Function.update t pid (t pid).activated, s₁)) := rfl
  have hcalled : onFiles pid (callHandler F (interruptedReg (t pid).state d)
      (signalHandler d signalId)) (Function.update t pid (t pid).activated, s₁) =
      .ok (b, (Function.update t pid (t pid).activated, s')) := by
    refine onSecond_ok.mpr ⟨?_, rfl⟩
    dsimp only
    rw [Function.update_self]
    exact hcall
  have hrest : (do
      setFirst (Function.update t pid { t pid with state := .active })
      let _ ← onFiles pid (callHandler F (interruptedReg (t pid).state d)
        (signalHandler d signalId))
      pure () : ProcManRun φ Unit) (t, s₁) =
      .ok ((), (Function.update t pid (t pid).activated, s')) := by
    rw [bind_of_ok hset, bind_of_ok hcalled]
    rfl
  cases hst : (t pid).state with
  | unused => exact absurd hst hstate.1
  | exiting => exact absurd hst hstate.2
  | active | waitingWaitpid | waitingRead | waitingRead32 | waitingWrite | waitingWrite32 =>
    rw [hst] at hrest
    exact hrest

end Sending

/-! ### Signals to a shell and to init -/

def initPaths : ProcessPaths :=
  ⟨CStr.lit "/bin/init", CStr.lit "/tmp/ram0", CStr.lit "/tmp/proc0"⟩

/-- The shell has handlers for all signals, and an empty stack. -/
def handlerData : ProcManProcessProcData :=
  { shellData with signalHandlers := fun _ => 9 }.setReg BytecodeRegisterSP 32768

def handlerView (prog : List UInt8) (d : ProcManProcessProcData) : FsView :=
  (((shellView prog).setFile shellPaths.proc (some d.toBytes)).setFile initPaths.proc
    (some shellData.toBytes)).setFd 5 (some ⟨initPaths.proc, KernelFsFdModeRW, 1⟩)

/-- The shell waits for init. -/
def handlerTable : ProcTable := fun pid =>
  if pid = 0 then ⟨4, 5, .active, 0⟩ else if pid = 1 then ⟨1, 2, .waitingWaitpid 0 0, 0⟩ else .none

def handlerPaths (pid : ℕ) : ProcessPaths := if pid = 1 then shellPaths else initPaths

theorem handler_bounded (prog : List UInt8) (d : ProcManProcessProcData) :
    (handlerView prog d).Bounded := by
  have h : (shellView prog).Bounded := shell_bounded prog
  exact bounded_setFd (v := ((shellView prog).setFile shellPaths.proc
    (some d.toBytes)).setFile initPaths.proc (some shellData.toBytes)) h (by decide) _

theorem handler_live {p : ℕ} (h : Live handlerTable p) : p = 0 ∨ p = 1 := by
  by_contra hne
  apply h.2
  rw [handlerTable, if_neg (fun h => hne (Or.inl h)), if_neg (fun h => hne (Or.inr h))]
  rfl

theorem handler_apart : RecordsApart (handlerView [192] handlerData) handlerTable
    handlerPaths := by
  refine ⟨fun p hp => ?_, fun p q hp hq hne => ?_⟩
  · rcases handler_live hp with rfl | rfl
    · exact ⟨by decide, _, _, rfl, rfl, rfl⟩
    · exact ⟨by decide, _, _, rfl, rfl, rfl⟩
  · rcases handler_live hp with rfl | rfl
    · rcases handler_live hq with rfl | rfl
      · exact absurd rfl hne
      · decide
    · rcases handler_live hq with rfl | rfl
      · decide
      · exact absurd rfl hne

theorem handler_receiver : Receiver viewFiles FsView.Bounded id MINIFSMAXSIZE
    (handlerView [192] handlerData) handlerTable 1 handlerData shellPaths
    (shellImage [192]) := by
  have hmem : ProcessMemory (handlerView [192] handlerData) (handlerTable 1) handlerData
      shellPaths (shellImage [192]) :=
    ⟨⟨_, rfl, rfl, by decide⟩, rfl, rfl, rfl, rfl, rfl, ⟨_, _, rfl, rfl, rfl⟩, by decide,
      by decide⟩
  refine ⟨by decide, by decide, ⟨rfl, rfl⟩, hmem, ?_⟩
  exact stack_inside viewFiles_reliableWrites
    (memory_activated (interruptedReg_memory _ hmem)) (by decide) (by decide)

/-- The instruction pointer that is stored for the shell. -/
def storedIP (v : FsView) : Option UInt16 :=
  (v.file shellPaths.proc).map
    (fun c => (ProcManProcessProcData.ofBytes c).regs BytecodeRegisterIP)

end ArduinoOS.Procman
