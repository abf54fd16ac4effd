import ArduinoOS.Emulator.Agreement
import ArduinoOS.Procman.SignalDelivery
import ArduinoOS.Procman.Steps

/-!
# What an instruction keeps under the kernel

Writes in place leave the memory its shape, so that what is mapped at the start of a
tick is mapped throughout. No instruction but a system call changes the stored record of
its process, its entry in the table or its exit status.
-/

set_option autoImplicit false

namespace ArduinoOS.Emulator
open ArduinoOS.Faulting ArduinoOS.Kernel ArduinoOS.Minifs ArduinoOS.Procman

/-! ### What a write in place keeps -/

/-- As much memory, and the same program. -/
structure SameShape (m m' : MemoryImage) : Prop where
  env : m'.env.length = m.env.length
  ram : m'.ram.length = m.ram.length
  prog : ∀ a, a+1 < BytecodeMemoryRamAddr → m'.prog[a]? = m.prog[a]?

theorem sameShape_refl (m : MemoryImage) : SameShape m m := ⟨rfl, rfl, fun _ _ => rfl⟩

theorem sameShape_trans {m₁ m₂ m₃ : MemoryImage} (h : SameShape m₁ m₂) (h' : SameShape m₂ m₃) :
    SameShape m₁ m₃ :=
  ⟨h'.env.trans h.env, h'.ram.trans h.ram, fun a ha => (h'.prog a ha).trans (h.prog a ha)⟩

section Shapes

variable {D : ℕ → Prop} {m m' : MemoryImage} {p : Process} {addr : UInt16} {len : ℕ}

theorem SameShape.offsetOf (h : SameShape m m') (index : ℕ) :
    m'.offsetOf index = m.offsetOf index := by
  rw [MemoryImage.offsetOf, MemoryImage.offsetOf, h.env, h.ram]

/-- A block that could be read still can. -/
theorem SameShape.block (h : SameShape m m') {a : ℕ} {bytes : List UInt8}
    (hb : m.block a len = some bytes) : ∃ bytes', m'.block a len = some bytes' := by
  rcases MemoryImage.block_cases hb with ⟨hprog, hs⟩ | ⟨offset, ha, ho, hs⟩
  · obtain ⟨hlen, hk⟩ := sliceOf_some.mp hs
    refine ⟨bytes, ?_⟩
    rw [MemoryImage.block_prog hprog]
    exact sliceOf_some.mpr ⟨hlen, fun k hlt => by rw [h.prog _ (by omega), hk k hlt]⟩
  · rw [MemoryImage.block_at ha (by rw [h.offsetOf]; exact ho)]
    rcases Nat.eq_zero_or_pos len with hzero | hpos
    · refine ⟨[], sliceOf_some.mpr ⟨hzero.symm, fun k hk => ?_⟩⟩
      omega
    · apply sliceOf_isSome
      have hbound := sliceOf_bound hs hpos
      rw [MemoryImage.file_length] at hbound ⊢
      rw [h.env, h.ram]
      exact hbound

theorem SameShape.readMapped (h : SameShape m m') (hmapped : ReadMapped D m addr len) :
    ReadMapped D m' addr len := by
  obtain ⟨bytes, hb⟩ := hmapped.readable
  exact ⟨hmapped.inside, h.block hb, hmapped.among⟩

theorem SameShape.writeMapped (h : SameShape m m') (hmapped : WriteMapped D m addr len) :
    WriteMapped D m' addr len := by
  refine ⟨hmapped.inside, fun hin => ?_, hmapped.among⟩
  rw [MemoryImage.InPlace, h.env, h.ram]
  exact hmapped.place hin

/-- What an instruction uses stays mapped. -/
theorem SameShape.mapped (h : SameShape m m') {info : BytecodeInstructionInfo}
    (hmapped : Mapped D m p info) : Mapped D m' p info := by
  cases info with
  | memory type destReg srcReg set4Value =>
    cases type with
    | store8 => exact h.writeMapped hmapped
    | load8 => exact h.readMapped hmapped
    | set4 => exact trivial
  | alu type destReg opAReg opBReg =>
    cases type with
    | extra =>
      simp only [Mapped] at hmapped ⊢
      cases htype : bytecodeAluExtraType opBReg with
      | store16 | push16 | call =>
        rw [htype] at hmapped
        exact h.writeMapped hmapped
      | load16 | pop16 =>
        rw [htype] at hmapped
        exact h.readMapped hmapped
      | xchg8 =>
        rw [htype] at hmapped
        exact ⟨h.readMapped hmapped.1, h.writeMapped hmapped.2⟩
      | not | clz => exact trivial
    | _ => exact hmapped
  | _ => exact trivial

/-- The memory in which a write has been done in place. -/
theorem sameShape_of_bytes {v v' : FsView} {process : ProcManProcess}
    {procData procData' : ProcManProcessProcData} {paths : ProcessPaths}
    (hm : ProcessMemory v process procData paths m)
    (hm' : ProcessMemory v' process procData' paths m')
    (henv : procData'.envVarDataLen = procData.envVarDataLen)
    (hram : procData'.ramLen = procData.ramLen)
    (hbytes : ∀ a, a < BytecodeMemoryRamAddr → m'.byte a = m.byte a) : SameShape m m' := by
  refine ⟨?_, ?_, fun a ha => ?_⟩
  · rw [hm'.envLen, henv, hm.envLen]
  · rw [hm'.ramLen, hram, hm.ramLen]
  · rw [← MemoryImage.byte_prog ha, ← MemoryImage.byte_prog ha]
    exact hbytes a (by omega)

end Shapes

variable {φ : Type} {F : Files φ} {Inv : φ → Prop} {view : φ → FsView} {largest : ℕ}
  {pid : ℕ} {paths : ProcessPaths} {D : ℕ → Prop} {m m' : MemoryImage} {t t' : Running φ}
  {s s' : ProcTable × φ} {p p' : Process} {addr : UInt16} {b : Bool}

/-- What is stored of the process stays stored. -/
def RecordKept (view : φ → FsView) (pid : ℕ) (paths : ProcessPaths) (s s' : ProcTable × φ) : Prop :=
  ∀ d, RecordStored (view s.2) (s.1 pid) paths.proc d →
    RecordStored (view s'.2) (s'.1 pid) paths.proc d

theorem recordKept_view (htable : s'.1 = s.1) (hview : view s'.2 = view s.2) :
    RecordKept view pid paths s s' := by
  intro d h
  rw [htable, hview]
  exact h

theorem recordKept_trans {s₁ : ProcTable × φ} (h : RecordKept view pid paths s s₁)
    (h' : RecordKept view pid paths s₁ s') : RecordKept view pid paths s s' :=
  fun d hd => h' d (h d hd)

/-- Nothing that can be seen of the process has changed but registers. -/
structure Intact (Inv : φ → Prop) (view : φ → FsView) (pid : ℕ) (paths : ProcessPaths)
    (m : MemoryImage) (t : Running φ) (s : ProcTable × φ) (t' : Running φ) (s' : ProcTable × φ) :
    Prop where
  inv : Inv s'.2
  memory : ProcessMemory (view s'.2) (s'.1 pid) t'.procData paths m
  record : RecordKept view pid paths s s'
  status : t'.exitStatus = t.exitStatus

theorem intact_trans {t₁ : Running φ} {s₁ : ProcTable × φ}
    (h : Intact Inv view pid paths m t s t₁ s₁) (h' : Intact Inv view pid paths m t₁ s₁ t' s') :
    Intact Inv view pid paths m t s t' s' :=
  ⟨h'.inv, h'.memory, recordKept_trans h.record h'.record, h'.status.trans h.status⟩

/-- An instruction leaves the memory its shape and the record as it is, and does not
fill the buffer. -/
structure Kept (view : φ → FsView) (pid : ℕ) (paths : ProcessPaths) (m : MemoryImage)
    (t : Running φ) (s : ProcTable × φ) (t' : Running φ) (s' : ProcTable × φ) : Prop where
  memory : ∃ m', ProcessMemory (view s'.2) (s'.1 pid) t'.procData paths m' ∧ SameShape m m'
  buffer : t'.prefetchData = t.prefetchData ∨ t'.prefetchData.buffer = []
  record : RecordKept view pid paths s s'
  status : t'.exitStatus = t.exitStatus

theorem kept_intact (h : Intact Inv view pid paths m t s t s') : Kept view pid paths m t s t s' :=
  ⟨⟨m, h.memory, sameShape_refl m⟩, Or.inl rfl, h.record, rfl⟩

theorem intact_refl (hi : Inv s.2) (hm : ProcessMemory (view s.2) (s.1 pid) t.procData paths m) :
    Intact Inv view pid paths m t s t s :=
  ⟨hi, hm, recordKept_view rfl rfl, rfl⟩

theorem Kept.setReg (h : Kept view pid paths m t s t' s') (r : Fin 8) (v : UInt16) :
    Kept view pid paths m t s (t'.setReg r v) s' := by
  obtain ⟨m', hm', hshape⟩ := h.memory
  exact ⟨⟨m', memory_setReg hm' r v, hshape⟩, h.buffer, h.record, h.status⟩

/-- The same after something that was done before. -/
theorem Kept.after {s₁ : ProcTable × φ} (h : Kept view pid paths m t s₁ t' s')
    (hrecord : RecordKept view pid paths s s₁) : Kept view pid paths m t s t' s' :=
  ⟨h.memory, h.buffer, recordKept_trans hrecord h.record, h.status⟩

section Instructions

variable (hl : FilesLaw F Inv view largest) (hlargest : largest ≤ 32768)
  (hr : ReliableReads F Inv view) (hw : ReliableWrites F Inv view)

include hl

section Reads

include hr

theorem read_intact {α : Type} {g : Option (List UInt8) → α} {len : ℕ} {value : α}
    (hi : Inv s.2) (hm : ProcessMemory (view s.2) (s.1 pid) t.procData paths m)
    (h : onFiles pid (fun process => do
      let bytes ← procManProcessMemoryReadBlock F process t.procData addr len
      pure (g bytes)) s = .ok (value, s')) : Intact Inv view pid paths m t s t s' := by
  obtain ⟨hrun, htable⟩ := onSecond_ok.mp h
  obtain ⟨s₁, hread, hi₁, hv⟩ := readBlock_run hl hr hi hm addr len
  dsimp only at hrun
  rw [bind_of_ok hread] at hrun
  obtain ⟨_, hs⟩ := pure_ok.mp hrun
  refine ⟨?_, ?_, recordKept_view htable (by rw [hs, hv]), rfl⟩
  · rw [hs]
    exact hi₁
  · rw [htable, hs, hv]
    exact hm

theorem readByte_intact {value : Option UInt8} (hi : Inv s.2)
    (hm : ProcessMemory (view s.2) (s.1 pid) t.procData paths m)
    (h : readByte F pid t addr s = .ok (value, s')) : Intact Inv view pid paths m t s t s' :=
  read_intact hl hr hi hm h

theorem readWord_intact {value : Option UInt16} (hi : Inv s.2)
    (hm : ProcessMemory (view s.2) (s.1 pid) t.procData paths m)
    (h : readWord F pid t addr s = .ok (value, s')) : Intact Inv view pid paths m t s t s' :=
  read_intact hl hr hi hm h

theorem prefetchFill_view {process : ProcManProcess} {procData : ProcManProcessProcData}
    {s₁ s₂ : φ} (hi : Inv s₁) (hm : ProcessMemory (view s₁) process procData paths m)
    (sizes : List ℕ) {bytes : List UInt8}
    (h : procManPrefetchFill F process procData addr sizes s₁ = .ok (bytes, s₂)) :
    Inv s₂ ∧ view s₂ = view s₁ := by
  induction sizes generalizing s₁ with
  | nil =>
    cases h
    exact ⟨hi, rfl⟩
  | cons len sizes ih =>
    obtain ⟨s₃, hread, hi₃, hv⟩ := readBlock_run hl hr hi hm addr len
    rw [procManPrefetchFill, bind_of_ok hread] at h
    cases hb : m.block addr.toNat len with
    | none =>
      rw [hb] at h
      obtain ⟨hi₂, hv₂⟩ := ih hi₃ (hv.symm ▸ hm) h
      exact ⟨hi₂, hv₂.trans hv⟩
    | some block =>
      rw [hb] at h
      cases h
      exact ⟨hi₃, hv⟩

theorem fetchByte_intact {r : Option UInt8} (hi : Inv s.2)
    (hm : ProcessMemory (view s.2) (s.1 pid) t.procData paths m)
    (h : fetchByte F pid t s = .ok ((r, t'), s')) : Intact Inv view pid paths m t s t' s' := by
  obtain ⟨r', s₁, hfetch, hp⟩ := bind_ok.mp h
  cases hp
  obtain ⟨hread, htable⟩ := onSecond_ok.mp hfetch
  have hmoved := memory_setReg hm BytecodeRegisterIP (t.procData.regs BytecodeRegisterIP+1)
  have hview : Inv s'.2 ∧ view s'.2 = view s.2 := by
    dsimp only at hread
    unfold procManPrefetchDataReadByte at hread
    split at hread
    case isTrue =>
      obtain ⟨_, hs⟩ := pure_ok.mp hread
      rw [hs]
      exact ⟨hi, rfl⟩
    case isFalse =>
      obtain ⟨bytes, s₂, hfill, hrest⟩ := bind_ok.mp hread
      have hfilled := prefetchFill_view hl hr hi hmoved _ hfill
      split at hrest
      · obtain ⟨_, hs⟩ := pure_ok.mp hrest
        rw [hs]
        exact hfilled
      · obtain ⟨_, hs⟩ := pure_ok.mp hrest
        rw [hs]
        exact hfilled
  refine ⟨hview.1, ?_, recordKept_view htable hview.2, rfl⟩
  rw [htable, hview.2]
  exact hmoved

theorem getInstruction_intact {r : Option BytecodeInstruction} (hi : Inv s.2)
    (hm : ProcessMemory (view s.2) (s.1 pid) t.procData paths m)
    (h : procManProcessGetInstruction F pid t s = .ok ((r, t'), s')) :
    Intact Inv view pid paths m t s t' s' := by
  obtain ⟨⟨r₀, t₀⟩, s₀, h₀, h⟩ := bind_ok.mp h
  have hf₀ := fetchByte_intact hl hr hi hm h₀
  cases r₀ with
  | none =>
    cases h
    exact hf₀
  | some byte0 =>
    dsimp only at h
    split at h
    case isTrue =>
      cases h
      exact hf₀
    case isFalse =>
      obtain ⟨⟨r₁, t₁⟩, s₁, h₁, h⟩ := bind_ok.mp h
      have hf₁ := intact_trans hf₀ (fetchByte_intact hl hr hf₀.inv hf₀.memory h₁)
      cases r₁ with
      | none =>
        cases h
        exact hf₁
      | some byte1 =>
        dsimp only at h
        split at h
        case isTrue =>
          cases h
          exact hf₁
        case isFalse =>
          obtain ⟨⟨r₂, t₂⟩, s₂, h₂, h⟩ := bind_ok.mp h
          have hf₂ := intact_trans hf₁ (fetchByte_intact hl hr hf₁.inv hf₁.memory h₂)
          cases r₂ with
          | none =>
            cases h
            exact hf₂
          | some byte2 =>
            cases h
            exact hf₂

theorem skip_intact (n : ℕ) (hi : Inv s.2)
    (hm : ProcessMemory (view s.2) (s.1 pid) t.procData paths m)
    (h : skipInstructions F pid t n s = .ok ((b, t'), s')) :
    Intact Inv view pid paths m t s t' s' := by
  induction n generalizing t s with
  | zero =>
    cases h
    exact intact_refl hi hm
  | succ n ih =>
    obtain ⟨⟨r, t₁⟩, s₁, hget, h⟩ := bind_ok.mp h
    have hf := getInstruction_intact hl hr hi hm hget
    cases r with
    | none =>
      cases h
      exact hf
    | some instruction => exact intact_trans hf (ih hf.inv hf.memory h)

end Reads

include hlargest hw

omit hw in
/-- A write in place is one in the RAM file only. -/
theorem write_others {s₁ s₂ : φ} {process : ProcManProcess}
    {procData procData' : ProcManProcessProcData} {data : List UInt8} (hi : Inv s₁)
    (hm : ProcessMemory (view s₁) process procData paths m)
    (hin : BytecodeMemoryRamAddr ≤ addr.toNat)
    (hplace : m.InPlace (addr.toNat-BytecodeMemoryRamAddr) data.length)
    (hrun : procManProcessMemoryWriteBlock F process procData addr data s₁ =
      .ok ((true, procData'), s₂)) : OthersKept (view s₁) (view s₂) procData paths := by
  have hbase : BytecodeMemoryRamAddr = 32768 := rfl
  have hwindow : MemoryImage.envIndex = 31744 := rfl
  have hvirtual : ProcManEnvVarsVirtualOffset = 64512 := rfl
  obtain ⟨_, hdone⟩ := writeBlock_cases hl hlargest hi hm (fun hbeyond hlow => by
    rcases hplace with hram | ⟨_, henv, _⟩
    · omega
    · omega) hrun
  obtain ⟨_, _, _, _, hothers, _⟩ := hdone rfl
  exact hothers

theorem writeMemory_kept {data : List UInt8} (hi : Inv s.2)
    (hm : ProcessMemory (view s.2) (s.1 pid) t.procData paths m)
    (hmapped : WriteMapped D m addr data.length)
    (h : writeMemory F pid t addr data s = .ok ((b, t'), s')) :
    Kept view pid paths m t s t' s' := by
  by_cases hin : BytecodeMemoryRamAddr ≤ addr.toNat
  · obtain ⟨s₁, m', hrun, _, hm', hbytes⟩ :=
      writeBlock_inPlace hl hw hi hm hin (hmapped.place hin)
    have hothers := write_others hl hlargest hi hm hin (hmapped.place hin) hrun
    have hwritten : onFiles pid (fun process =>
        procManProcessMemoryWriteBlock F process t.procData addr data) s =
        .ok ((true, t.procData), (s.1, s₁)) := onSecond_ok.mpr ⟨hrun, rfl⟩
    rw [writeMemory, bind_of_ok hwritten] at h
    cases h
    refine ⟨⟨m', hm', sameShape_of_bytes hm hm' rfl rfl (fun a ha => ?_)⟩, Or.inl rfl,
      fun d hd => ⟨?_, ?_⟩, rfl⟩
    · rw [hbytes, if_neg (by omega)]
    · exact hothers.fds _ _ (other_fd hm).2 hm.valid.2 hd.1
    · rw [hothers.files _ hm.apart.2.2]
      exact hd.2
  · rw [writeMemory_refused (by omega)] at h
    cases h
    exact kept_intact (intact_refl hi hm)

/-- A write, and what follows when it was done. -/
theorem write_then_kept {data : List UInt8} {f : Running φ → Running φ} (hi : Inv s.2)
    (hm : ProcessMemory (view s.2) (s.1 pid) t.procData paths m)
    (hmapped : WriteMapped D m addr data.length)
    (hf : ∀ t' s', Kept view pid paths m t s t' s' → Kept view pid paths m t s (f t') s')
    (h : (do
      let r ← writeMemory F pid t addr data
      if r.1 = false then pure (false, r.2) else pure (true, f r.2) :
        ProcManRun φ (Bool × Running φ)) s = .ok ((b, t'), s')) :
    Kept view pid paths m t s t' s' := by
  obtain ⟨r, s₁, hwrite, h⟩ := bind_ok.mp h
  have hkept := writeMemory_kept hl hlargest hw hi hm hmapped hwrite
  split at h
  case isTrue =>
    cases h
    exact hkept
  case isFalse =>
    cases h
    exact hf _ _ hkept

include hr

theorem extra_kept (h : Matches Inv view pid paths D m t s p) {destReg opAReg opBReg : Fin 8}
    (hmapped : Mapped D m p (.alu .extra destReg opAReg opBReg))
    (hrun : procManProcessExecInstructionAluExtra F pid t destReg opAReg opBReg s =
      .ok ((b, t'), s')) : Kept view pid paths m t s t' s' := by
  simp only [Mapped] at hmapped
  unfold procManProcessExecInstructionAluExtra at hrun
  rw [h.regs] at hrun
  dsimp only at hrun
  cases htype : bytecodeAluExtraType opBReg with
  | not | clz =>
    rw [htype] at hrun
    cases hrun
    exact (kept_intact (intact_refl h.inv h.memory)).setReg _ _
  | store16 =>
    rw [htype] at hrun hmapped
    exact writeMemory_kept hl hlargest hw h.inv h.memory hmapped hrun
  | load16 =>
    rw [htype] at hrun
    obtain ⟨value, s₁, hread, hrun⟩ := bind_ok.mp hrun
    have hintact := readWord_intact hl hr h.inv h.memory hread
    cases value with
    | none =>
      cases hrun
      exact kept_intact hintact
    | some value =>
      cases hrun
      exact (kept_intact hintact).setReg _ _
  | push16 =>
    rw [htype] at hrun hmapped
    exact write_then_kept hl hlargest hw h.inv h.memory hmapped
      (f := fun r => r.setReg destReg (r.procData.regs destReg+2))
      (fun _ _ hkept => hkept.setReg _ _) hrun
  | pop16 =>
    rw [htype] at hrun
    obtain ⟨value, s₁, hread, hrun⟩ := bind_ok.mp hrun
    have hpopped := memory_setReg h.memory opAReg (p.regs opAReg-2)
    have hintact := readWord_intact (t := t.setReg opAReg (p.regs opAReg-2)) hl hr h.inv
      hpopped hread
    have hkept : Kept view pid paths m t s (t.setReg opAReg (p.regs opAReg-2)) s₁ :=
      ⟨⟨m, hintact.memory, sameShape_refl m⟩, Or.inl rfl, hintact.record, rfl⟩
    cases value with
    | none =>
      cases hrun
      exact hkept
    | some value =>
      cases hrun
      exact hkept.setReg _ _
  | call =>
    rw [htype] at hrun hmapped
    exact write_then_kept hl hlargest hw h.inv h.memory hmapped
      (f := fun r => (r.setReg opAReg (r.procData.regs opAReg+2)).setReg BytecodeRegisterIP
        ((r.setReg opAReg (r.procData.regs opAReg+2)).procData.regs destReg))
      (fun _ _ hkept => (hkept.setReg _ _).setReg _ _) hrun
  | xchg8 =>
    rw [htype] at hrun hmapped
    obtain ⟨memValue, s₁, hread, hrun⟩ := bind_ok.mp hrun
    have hintact := readByte_intact hl hr h.inv h.memory hread
    cases memValue with
    | none =>
      cases hrun
      exact kept_intact hintact
    | some memValue =>
      exact (write_then_kept hl hlargest hw hintact.inv hintact.memory hmapped.2
        (f := fun r => r.setReg opAReg memValue.toUInt16)
        (fun _ _ hkept => hkept.setReg _ _) hrun).after hintact.record

/-- Instructions other than skips and system calls. -/
def Plain : BytecodeInstructionInfo → Prop
  | .alu .skip _ _ _ => False
  | .misc .syscall => False
  | _ => True

omit hl hlargest hr hw in
theorem plain_or (info : BytecodeInstructionInfo) : Plain info ∨
    (∃ destReg opAReg opBReg, info = .alu .skip destReg opAReg opBReg) ∨
      info = .misc .syscall := by
  cases info with
  | alu type destReg opAReg opBReg =>
    cases type with
    | skip => exact Or.inr (Or.inl ⟨destReg, opAReg, opBReg, rfl⟩)
    | _ => exact Or.inl trivial
  | misc type =>
    cases type with
    | syscall => exact Or.inr (Or.inr rfl)
    | _ => exact Or.inl trivial
  | _ => exact Or.inl trivial

theorem exec_kept (sys : Syscall φ) (h : Matches Inv view pid paths D m t s p)
    {instruction : BytecodeInstruction} (hplain : Plain (bytecodeInstructionParse instruction))
    (hmapped : Mapped D m p (bytecodeInstructionParse instruction))
    (hrun : procManProcessExecInstruction F sys pid t instruction s = .ok ((b, t'), s')) :
    Kept view pid paths m t s t' s' := by
  have hsame := kept_intact (t := t) (intact_refl h.inv h.memory)
  unfold procManProcessExecInstruction at hrun
  cases hinfo : bytecodeInstructionParse instruction with
  | memory type destReg srcReg set4Value =>
    rw [hinfo] at hrun hmapped
    cases type with
    | store8 =>
      have hplace : WriteMapped D m (t.procData.regs destReg) 1 := by
        rw [h.regs]
        exact hmapped
      exact writeMemory_kept hl hlargest hw h.inv h.memory hplace hrun
    | load8 =>
      obtain ⟨value, s₁, hread, hrun⟩ := bind_ok.mp hrun
      have hintact := readByte_intact hl hr h.inv h.memory hread
      cases value with
      | none =>
        cases hrun
        exact kept_intact hintact
      | some value =>
        cases hrun
        exact (kept_intact hintact).setReg _ _
    | set4 =>
      cases hrun
      exact hsame.setReg _ _
  | alu type destReg opAReg opBReg =>
    rw [hinfo] at hrun hmapped hplain
    cases type with
    | skip => exact hplain.elim
    | extra => exact extra_kept hl hlargest hr hw h hmapped hrun
    | div =>
      change (if _ then pure (false, t) else pure (true, _) : ProcManRun φ _) s = _ at hrun
      split at hrun
      case isTrue =>
        cases hrun
        exact hsame
      case isFalse =>
        cases hrun
        exact hsame.setReg _ _
    | unknown =>
      cases hrun
      exact hsame
    | inc | dec | add | sub | mul | xor | or | and | cmp | shiftLeft | shiftRight =>
      cases hrun
      exact hsame.setReg _ _
  | misc type =>
    rw [hinfo] at hrun hplain
    cases type with
    | syscall => exact hplain.elim
    | clearInstructionCache =>
      cases hrun
      exact ⟨⟨m, h.memory, sameShape_refl m⟩, Or.inr rfl, recordKept_view rfl rfl, rfl⟩
    | unassigned => cases hrun
    | nop | illegal | debug | unknown =>
      cases hrun
      exact hsame
  | set8 destReg value =>
    rw [hinfo] at hrun
    cases hrun
    exact hsame.setReg _ _
  | set16 destReg value =>
    rw [hinfo] at hrun
    cases hrun
    exact hsame.setReg _ _

end Instructions

end ArduinoOS.Emulator
