import ArduinoOS.Emulator.Frames
import ArduinoOS.Lib.Stepping
import ArduinoOS.Procman.Waitpid

/-!
# Ticks on both machines

The kernel runs the instructions of a tick in a loop, through its buffer and its files,
and keeps the record in a file between two ticks. The emulator takes as many steps, as
long as the program is executed where it is mapped and the machines agree on each
instruction.
-/

set_option autoImplicit false

namespace ArduinoOS.Emulator
open ArduinoOS.Faulting ArduinoOS.Kernel ArduinoOS.Minifs ArduinoOS.Procman ArduinoOS.Stepping

variable {φ : Type} {F : Files φ} {Inv : φ → Prop} {view : φ → FsView} {largest : ℕ}
  {pid : ℕ} {paths : ProcessPaths} {D : ℕ → Prop} {m m' : MemoryImage} {t t' : Running φ}
  {s s' : ProcTable × φ} {p p' : Process} {addr : UInt16} {b : Bool}

section Instructions

variable (hl : FilesLaw F Inv view largest) (hr : ReliableReads F Inv view)
  (hw : ReliableWrites F Inv view)

include hl hr hw

/-- On an instruction that is no skip, what has been read ahead does not matter. -/
theorem plain_agrees (sys : Syscall φ) (sys' : Process → Bool × Process)
    (h : Matches Inv view pid paths D m t s p) (hcount : p.skipCounter = 0)
    {instruction : BytecodeInstruction} (hplain : Plain (bytecodeInstructionParse instruction))
    (hmapped : Mapped D m p (bytecodeInstructionParse instruction))
    (hagree : Agreeable p (bytecodeInstructionParse instruction)) :
    Agrees Inv view pid paths D (procManProcessExecInstruction F sys pid t instruction s)
      ((processExec p sys' (bytecodeInstructionParse instruction)).bind (finish sys')) := by
  simp only [procManProcessExecInstruction, processExec]
  cases hinfo : bytecodeInstructionParse instruction with
  | memory type destReg srcReg set4Value =>
    rw [hinfo] at hmapped hagree
    exact (memory_agrees hl hr hw h hcount hmapped).mpr hagree
  | alu type destReg opAReg opBReg =>
    rw [hinfo] at hmapped hagree hplain
    simp only [procManProcessExecInstructionAlu, processExecAlu, h.regs]
    cases type with
    | skip => exact hplain.elim
    | extra => exact (extra_agrees hl hr hw h hcount hmapped).mpr hagree
    | unknown => exact hagree.elim
    | div =>
      by_cases hzero : p.regs opBReg = 0
      · rw [if_pos hzero, if_pos hzero]
        exact agrees_of_matches h hcount
      · rw [if_neg hzero, if_neg hzero]
        exact setReg_agrees h hcount _ _ _
    | inc | dec | add | sub | mul | xor | or | and | cmp | shiftLeft | shiftRight =>
      exact setReg_agrees h hcount _ _ _
  | misc type =>
    rw [hinfo] at hagree hplain
    refine (misc_agrees h hcount ?_).mpr hagree
    rintro rfl
    exact hplain.elim
  | set8 destReg value => exact setReg_agrees h hcount _ _ _
  | set16 destReg value => exact setReg_agrees h hcount _ _ _

end Instructions

/-! ### The emulator's skips -/

section Skips

variable {sys' : Process → Bool × Process}

/-- Counting down passes over instructions, and does nothing else. -/
theorem runDown_kept (n : ℕ) (hcount : p.skipCounter = n)
    (h : processRunDown sys' n p = some (b, p')) :
    p'.skipCounter = 0 ∧ p'.memory = p.memory := by
  induction n generalizing p with
  | zero =>
    cases h
    exact ⟨hcount, rfl⟩
  | succ n ih =>
    have hfetched : (processFetch p).2.skipCounter = n+1 := processFetch_skipCounter.trans hcount
    have hnext : processRunNextInstruction p sys' = some (true, (processFetch p).2.countDown) := by
      rw [processRunNextInstruction, if_pos (by rw [hfetched]; omega)]
    rw [processRunDown, hnext] at h
    have hcounted : (processFetch p).2.countDown.skipCounter = n := by
      rw [Process.countDown, hfetched, Nat.add_sub_cancel]
    obtain ⟨hzero, hmemory⟩ := ih hcounted h
    exact ⟨hzero, hmemory.trans processFetch_memory⟩

/-- After a step that goes on there is nothing left to skip. -/
theorem finish_skipCounter {r : Bool × Process} (h : finish sys' r = some (true, p')) :
    p'.skipCounter = 0 := by
  obtain ⟨goesOn, q⟩ := r
  cases goesOn with
  | false => cases h
  | true => exact (runDown_kept (p := q.countUp) q.skipCounter rfl h).1

end Skips

/-! ### One step -/

/-- The addresses of the program. -/
def code (D : ℕ → Prop) (a : ℕ) : Prop := D a ∧ a < BytecodeMemoryRamAddr

/-- Both machines are between two instructions, in the same state; of the buffer only
what it holds of the program counts. -/
structure Synced (Inv : φ → Prop) (view : φ → FsView) (pid : ℕ) (paths : ProcessPaths)
    (D : ℕ → Prop) (m : MemoryImage) (t : Running φ) (s : ProcTable × φ) (p : Process) : Prop
    extends Matches Inv view pid paths D m t s p where
  buffer : Coherent (code D) p.memory t.prefetchData
  between : p.skipCounter = 0

/-- The machines can execute the next instruction, and those it skips, from the program,
and agree on it. -/
structure Ready (D : ℕ → Prop) (m : MemoryImage) (p : Process) : Prop where
  fetch : Fetchable (code D) 1 p
  skips : ∀ destReg opAReg opBReg,
    bytecodeInstructionParse (processFetch p).1 = .alu .skip destReg opAReg opBReg →
    ((processFetch p).2.regs destReg).toNat/2^opAReg.val%2 = 1 →
    Fetchable (code D) (opBReg.val+1) (processFetch p).2
  notSyscall : bytecodeInstructionParse (processFetch p).1 ≠ .misc .syscall
  mapped : Mapped D m (processFetch p).2 (bytecodeInstructionParse (processFetch p).1)
  agreeable : Agreeable (processFetch p).2 (bytecodeInstructionParse (processFetch p).1)

theorem Ready.shape (h : Ready D m p) (hshape : SameShape m m') : Ready D m' p :=
  ⟨h.fetch, h.skips, h.notSyscall, hshape.mapped h.mapped, h.agreeable⟩

/-- The memory has not changed, so that more of it agrees than was fetched. -/
theorem Coupled.widen (h : Coupled Inv view pid paths (code D) m t' s' p')
    (hm : Matches Inv view pid paths D m t s p) (hmemory : p'.memory = p.memory) :
    Matches Inv view pid paths D m t' s' p' := by
  refine ⟨h.inv, h.memory, ?_, h.regs⟩
  rw [hmemory]
  exact hm.bytes

theorem Synced.coupled (h : Synced Inv view pid paths D m t s p) :
    Coupled Inv view pid paths (code D) m t s p :=
  ⟨⟨h.inv, h.memory, fun a ha => h.bytes a ha.1, h.regs⟩, h.buffer⟩

/-- The buffer still holds the program when neither has changed. -/
theorem coherent_kept (hm : Matches Inv view pid paths D m t s p)
    (hm' : Matches Inv view pid paths D m' t' s' p') (hshape : SameShape m m')
    (hbuffer : t'.prefetchData = t.prefetchData ∨ t'.prefetchData.buffer = [])
    (h : Coherent (code D) p.memory t.prefetchData) :
    Coherent (code D) p'.memory t'.prefetchData := by
  intro a ha hcode
  rcases hbuffer with hsame | hempty
  · rw [hsame] at ha ⊢
    have hbyte := hm.bytes _ hcode.1
    have hbyte' := hm'.bytes _ hcode.1
    have hlow := hcode.2
    have hprog : a.toNat+1 < BytecodeMemoryRamAddr := by
      by_contra hnot
      rw [MemoryImage.byte_between (by omega)] at hbyte
      cases hbyte
    rw [MemoryImage.byte_prog hprog] at hbyte hbyte'
    rw [hshape.prog _ hprog, hbyte] at hbyte'
    rw [h a ha hcode]
    exact hbyte'
  · have hhigh := ha.2
    have hlow := ha.1
    rw [hempty, List.length_nil] at hhigh
    omega

variable {sys : Syscall φ} {sys' : Process → Bool × Process}

theorem kernelStep_of_fetched {instruction : BytecodeInstruction} {t₁ : Running φ}
    {s₁ : ProcTable × φ}
    (h : procManProcessGetInstruction F pid t s = .ok ((some instruction, t₁), s₁)) :
    kernelStep F sys pid t s = procManProcessExecInstruction F sys pid t₁ instruction s₁ := by
  rw [kernelStep, bind_of_ok h]

/-- What one instruction does on both machines; `R` is what any call of the files does. -/
def StepSynced (R : φ → φ → Prop) (Inv : φ → Prop) (view : φ → FsView) (pid : ℕ)
    (paths : ProcessPaths) (D : ℕ → Prop) (m : MemoryImage) (t : Running φ) (s : ProcTable × φ)
    (kernel : Except Fault ((Bool × Running φ) × (ProcTable × φ)))
    (emulator : Option (Bool × Process)) : Prop :=
  ∃ b t' s' m' p', kernel = .ok ((b, t'), s') ∧ emulator = some (b, p') ∧
    (s'.1 = s.1 ∧ R s.2 s'.2) ∧ RecordKept view pid paths s s' ∧ t'.exitStatus = t.exitStatus ∧
    SameShape m m' ∧ Matches Inv view pid paths D m' t' s' p' ∧
    (b = true → Synced Inv view pid paths D m' t' s' p')

section Step

variable (hl : FilesLaw F Inv view largest) (hlargest : largest ≤ 32768)
  (hr : ReliableReads F Inv view) (hw : ReliableWrites F Inv view) {R : φ → φ → Prop}
  (hstep : FilesStep F R)

include hl hr hstep

include hlargest hw in
theorem plain_synced (hm : Matches Inv view pid paths D m t s p)
    (hbuffer : Coherent (code D) p.memory t.prefetchData) (hcount : p.skipCounter = 0)
    {instruction : BytecodeInstruction} (hplain : Plain (bytecodeInstructionParse instruction))
    (hsys : bytecodeInstructionParse instruction ≠ .misc .syscall)
    (hmapped : Mapped D m p (bytecodeInstructionParse instruction))
    (hagree : Agreeable p (bytecodeInstructionParse instruction)) :
    StepSynced R Inv view pid paths D m t s (procManProcessExecInstruction F sys pid t instruction s)
      ((processExec p sys' (bytecodeInstructionParse instruction)).bind (finish sys')) := by
  obtain ⟨b, t', s', m', p', hkernel, hemulator, hm'⟩ :=
    plain_agrees hl hr hw sys sys' hm hcount hplain hmapped hagree
  have hkept := exec_kept hl hlargest hr hw sys hm hplain hmapped hkernel
  obtain ⟨m'', hmemory'', hshape⟩ := hkept.memory
  rw [memory_unique hmemory'' hm'.memory] at hshape
  refine ⟨b, t', s', m', p', hkernel, hemulator,
    execInstruction_quiet hstep pid t hsys _ _ _ hkernel, hkept.record, hkept.status, hshape, hm',
    ?_⟩
  rintro rfl
  obtain ⟨r, _, hfinish⟩ := Option.bind_eq_some_iff.mp hemulator
  exact ⟨hm', coherent_kept hm hm' hshape hkept.buffer hbuffer, finish_skipCounter hfinish⟩

theorem skip_synced (hm : Matches Inv view pid paths D m t s p)
    (hbuffer : Coherent (code D) p.memory t.prefetchData) {destReg opAReg opBReg : Fin 8}
    (hskips : (p.regs destReg).toNat/2^opAReg.val%2 = 1 → Fetchable (code D) (opBReg.val+1) p) :
    StepSynced R Inv view pid paths D m t s
      (procManProcessExecInstructionAlu F pid t .skip destReg opAReg opBReg s)
      ((processExecAlu p .skip destReg opAReg opBReg).bind (finish sys')) := by
  simp only [procManProcessExecInstructionAlu, processExecAlu, hm.regs]
  by_cases hbit : (p.regs destReg).toNat/2^opAReg.val%2 = 1
  · rw [if_pos hbit, if_pos hbit]
    have hinCode : Coupled Inv view pid paths (code D) m t s p :=
      ⟨⟨hm.inv, hm.memory, fun a ha => hm.bytes a ha.1, hm.regs⟩, hbuffer⟩
    have hcoupled : Coupled Inv view pid paths (code D) m t s
        { p with skipCounter := opBReg.val+1 }.countUp := hinCode.same rfl rfl
    have hleft : Fetchable (code D) (opBReg.val+1)
        { p with skipCounter := opBReg.val+1 }.countUp := by
      apply fetchable_same _ _ (hskips hbit)
      · rfl
      · rfl
    obtain ⟨t', s', p', hskip, hdown, _, h'⟩ :=
      skip_run hl hr sys' (opBReg.val+1) hcoupled rfl hleft
    obtain ⟨hzero, hmemory⟩ := runDown_kept (opBReg.val+1) rfl hdown
    have hm' := h'.widen hm hmemory
    have hintact := skip_intact hl hr _ hm.inv hm.memory hskip
    exact ⟨true, t', s', m, p', hskip, hdown, skip_quiet hstep pid t _ _ _ _ hskip,
      hintact.record, hintact.status, sameShape_refl m, hm', fun _ => ⟨hm', h'.buffer, hzero⟩⟩
  · rw [if_neg hbit, if_neg hbit]
    have hm' : Matches Inv view pid paths D m t s { p with skipCounter := 0 }.countUp :=
      hm.same rfl rfl
    exact ⟨true, t, s, m, _, rfl, rfl, ⟨rfl, hstep.refl _⟩, recordKept_view rfl rfl, rfl,
      sameShape_refl m, hm', fun _ => ⟨hm', hbuffer, rfl⟩⟩

include hlargest hw

/-- One instruction on both machines, with all that it leaves in place. -/
theorem step_synced (h : Synced Inv view pid paths D m t s p) (hready : Ready D m p) :
    StepSynced R Inv view pid paths D m t s (kernelStep F sys pid t s) (processStep p sys') := by
  obtain ⟨t₁, s₁, hget, _, _, h₁⟩ := getInstruction_run hl hr h.coupled hready.fetch
  obtain ⟨htable₁, hstep₁⟩ := getInstruction_quiet hstep pid t _ _ _ hget
  have hintact := getInstruction_intact hl hr h.inv h.memory hget
  have hm₁ := h₁.widen h.toMatches processFetch_memory
  have hcount₁ : (processFetch p).2.skipCounter = 0 := processFetch_skipCounter.trans h.between
  have hexec : StepSynced R Inv view pid paths D m t₁ s₁
      (procManProcessExecInstruction F sys pid t₁ (processFetch p).1 s₁)
      ((processExec (processFetch p).2 sys' (bytecodeInstructionParse (processFetch p).1)).bind
        (finish sys')) := by
    rcases plain_or (bytecodeInstructionParse (processFetch p).1) with
      hplain | ⟨destReg, opAReg, opBReg, hskip⟩ | hsys
    · exact plain_synced hl hlargest hr hw hstep hm₁ h₁.buffer hcount₁ hplain hready.notSyscall
        hready.mapped hready.agreeable
    · simp only [procManProcessExecInstruction, processExec, hskip]
      exact skip_synced hl hr hstep hm₁ h₁.buffer (hready.skips _ _ _ hskip)
    · exact absurd hsys hready.notSyscall
  obtain ⟨b, t', s', m', p', hkernel, hemulator, ⟨htable, hstep'⟩, hrecord, hstatus, hshape, hm',
    hgoes⟩ := hexec
  rw [processStep_eq sys' h.between, kernelStep_of_fetched hget]
  exact ⟨b, t', s', m', p', hkernel, hemulator,
    ⟨htable.trans htable₁, hstep.trans _ _ _ hstep₁ hstep'⟩,
    recordKept_trans hintact.record hrecord, hstatus.trans hintact.status, hshape, hm', hgoes⟩

end Step

/-! ### The loop -/

/-- The kernel has counted so many instructions of the process. -/
def advance (table : ProcTable) (pid n : ℕ) : ProcTable :=
  Function.update table pid
    { table pid with instructionCounter := (table pid).instructionCounter+n }

theorem advance_self (table : ProcTable) (n : ℕ) : advance table pid n pid =
    { table pid with instructionCounter := (table pid).instructionCounter+n } :=
  Function.update_self _ _ _

theorem advance_zero (table : ProcTable) : advance table pid 0 = table :=
  Function.update_eq_self pid table

theorem advance_advance (table : ProcTable) (n k : ℕ) :
    advance (advance table pid n) pid k = advance table pid (n+k) := by
  rw [advance, advance_self, advance, Function.update_idem, advance, Nat.add_assoc]

/-- The counter is no part of the state that the machines share. -/
theorem Synced.advance (h : Synced Inv view pid paths D m t s p) (n : ℕ) :
    Synced Inv view pid paths D m t (advance s.1 pid n, s.2) p := by
  refine ⟨⟨h.inv, ?_, h.bytes, h.regs⟩, h.buffer, h.between⟩
  have hentry : Emulator.advance s.1 pid n pid =
      { s.1 pid with instructionCounter := (s.1 pid).instructionCounter+n } := advance_self _ _
  have hm := h.memory
  dsimp only
  rw [hentry]
  exact ⟨hm.progFd, hm.progFile, hm.ramFd, hm.ramFile, hm.envLen, hm.ramLen, hm.procFd, hm.valid,
    hm.apart⟩

theorem loop_stops (n : ℕ) (h : kernelStep F sys pid t s = .ok ((false, t'), s')) :
    procManProcessTickLoop F sys pid t (n+1) s = .ok ((false, t'), s') := by
  obtain ⟨r, s₁, hget, hexec⟩ := bind_ok.mp h
  rw [procManProcessTickLoop, bind_of_ok hget]
  cases hr : r.1 with
  | none =>
    rw [hr] at hexec
    exact hexec
  | some instruction =>
    rw [hr] at hexec
    dsimp only
    rw [bind_of_ok hexec]
    rfl

theorem loop_goes (n : ℕ) (h : kernelStep F sys pid t s = .ok ((true, t'), s'))
    (hactive : (s'.1 pid).state = .active) (hcounter : (s'.1 pid).instructionCounter < 65500) :
    procManProcessTickLoop F sys pid t (n+1) s =
      procManProcessTickLoop F sys pid t' n (advance s'.1 pid 1, s'.2) := by
  obtain ⟨r, s₁, hget, hexec⟩ := bind_ok.mp h
  rw [procManProcessTickLoop, bind_of_ok hget]
  cases hr : r.1 with
  | none =>
    rw [hr] at hexec
    cases hexec
  | some instruction =>
    rw [hr] at hexec
    dsimp only
    rw [bind_of_ok hexec]
    change (if (s'.1 pid).instructionCounter < 65500 then _ else _ : ProcManRun φ _) s' = _
    rw [if_pos hcounter]
    change (if (s'.1 pid).state ≠ .active then _ else _ : ProcManRun φ _) _ = _
    rw [if_neg (fun hnot => hnot hactive)]
    rfl

theorem record_advance (n : ℕ) : RecordKept view pid paths s (advance s.1 pid n, s.2) := by
  intro d h
  have hentry : advance s.1 pid n pid =
      { s.1 pid with instructionCounter := (s.1 pid).instructionCounter+n } := advance_self _ _
  dsimp only
  rw [hentry]
  exact h

/-- The instructions of a tick are as many steps of the emulator, or both machines stop
at the same one. -/
theorem tickLoop_runs (hl : FilesLaw F Inv view largest) (hlargest : largest ≤ 32768)
    (hr : ReliableReads F Inv view) (hw : ReliableWrites F Inv view) {R : φ → φ → Prop}
    (hstep : FilesStep F R) (sys : Syscall φ) (sys' : Process → Bool × Process) (n : ℕ)
    (h : Synced Inv view pid paths D m t s p) (hactive : (s.1 pid).state = .active)
    (hcounter : (s.1 pid).instructionCounter+n ≤ 65500)
    (hready : Along (fun q => processStep q sys') (Ready D m) n p) :
    ∃ b t' s' m' p', procManProcessTickLoop F sys pid t n s = .ok ((b, t'), s') ∧
      runFor (fun q => processStep q sys') n p = some (b, p') ∧
      RecordKept view pid paths s s' ∧ R s.2 s'.2 ∧ t'.exitStatus = t.exitStatus ∧ SameShape m m' ∧
      Matches Inv view pid paths D m' t' s' p' ∧
      (b = true → s'.1 = advance s.1 pid n ∧ Synced Inv view pid paths D m' t' s' p') := by
  induction n generalizing t s p m with
  | zero =>
    exact ⟨true, t, s, m, p, rfl, rfl, recordKept_view rfl rfl, hstep.refl _, rfl, sameShape_refl m,
      h.toMatches, fun _ => ⟨(advance_zero s.1).symm, h⟩⟩
  | succ n ih =>
    have hfirst : StepSynced R Inv view pid paths D m t s (kernelStep F sys pid t s)
        (processStep p sys') := step_synced hl hlargest hr hw hstep h (along_first hready)
    obtain ⟨b, t₁, s₁, m₁, p₁, hkernel, hemulator, ⟨htable, hrel⟩, hrecord, hstatus,
      hshape, hm₁, hsynced⟩ := hfirst
    cases b with
    | false =>
      refine ⟨false, t₁, s₁, m₁, p₁, loop_stops n hkernel, ?_, hrecord, hrel, hstatus, hshape,
        hm₁, fun hb => by cases hb⟩
      rw [runFor, hemulator]
    | true =>
      have hentry : advance s₁.1 pid 1 pid =
          { s.1 pid with instructionCounter := (s.1 pid).instructionCounter+1 } := by
        rw [advance_self, htable]
      have hnext := along_next hready hemulator
      obtain ⟨b, t', s', m', p', hloop, hrun, hrecord', hrel', hstatus', hshape', hm',
        hgoes⟩ := ih ((hsynced rfl).advance 1) (by dsimp only; rw [hentry]; exact hactive)
          (by dsimp only; rw [hentry]; dsimp only; omega)
          (fun k hk q hq => (hnext k hk q hq).shape hshape)
      refine ⟨b, t', s', m', p', ?_, ?_, ?_, hstep.trans _ _ _ hrel hrel', hstatus'.trans hstatus,
        sameShape_trans hshape hshape', hm', fun hb => ?_⟩
      · rw [loop_goes n hkernel (by rw [htable]; exact hactive) (by rw [htable]; omega)]
        exact hloop
      · rw [runFor_next hemulator]
        exact hrun
      · exact recordKept_trans hrecord (recordKept_trans (record_advance 1) hrecord')
      · obtain ⟨htable', hsynced'⟩ := hgoes hb
        refine ⟨?_, hsynced'⟩
        rw [htable', htable]
        dsimp only
        rw [advance_advance, Nat.add_comm 1 n]

/-! ### Whole ticks -/

section Logs

/-- The ends of processes are only written down beside the files. -/
theorem logged_ok {α : Type} (x : Run φ Fault α) {a : α} (s s' : Logged φ) :
    (onSecond (fun _ => x) : Run (Logged φ) Fault α) s = .ok (a, s') ↔
      x s.2 = .ok (a, s'.2) ∧ s'.1 = s.1 := onSecond_ok

theorem logged_law (hl : FilesLaw F Inv view largest) :
    FilesLaw (loggedFiles F) (fun s => Inv s.2) (fun s => view s.2) largest where
  fd_lt s := hl.fd_lt s.2
  read s s' fd offset len e c r hi hfd hfile hrun :=
    hl.read s.2 s'.2 fd offset len e c r hi hfd hfile
      ((logged_ok (F.kernelFsFileReadOffset fd offset len) s s').mp hrun).1
  write s s' fd offset data e c n hi hfd hfile hrun :=
    hl.write s.2 s'.2 fd offset data e c n hi hfd hfile
      ((logged_ok (F.kernelFsFileWriteOffset fd offset data) s s').mp hrun).1
  openFile s s' path mode c fd hi hfile hrun :=
    hl.openFile s.2 s'.2 path mode c fd hi hfile
      ((logged_ok (F.kernelFsFileOpen path mode) s s').mp hrun).1
  close s s' fd e k hi hfd hrun :=
    hl.close s.2 s'.2 fd e k hi hfd ((logged_ok (F.kernelFsFileClose fd) s s').mp hrun).1
  resize s s' path newSize c b hi hfile hsize hrun :=
    hl.resize s.2 s'.2 path newSize c b hi hfile hsize
      ((logged_ok (F.kernelFsFileResize path newSize) s s').mp hrun).1
  delete s s' path c b hi hfile hrun :=
    hl.delete s.2 s'.2 path c b hi hfile ((logged_ok (F.kernelFsFileDelete path) s s').mp hrun).1
  getFilePath s s' fd path hrun := by
    obtain ⟨hrun, hlog⟩ := (logged_ok (F.kernelFsGetFilePath fd) s s').mp hrun
    obtain ⟨hs, hpath⟩ := hl.getFilePath s.2 s'.2 fd path hrun
    exact ⟨Prod.ext hlog hs, hpath⟩

theorem logged_reads (hr : ReliableReads F Inv view) :
    ReliableReads (loggedFiles F) (fun s => Inv s.2) (fun s => view s.2) where
  read s fd offset len e c hi hfd hfile hmode := by
    obtain ⟨r, s₁, hrun, hcount⟩ := hr.read s.2 fd offset len e c hi hfd hfile hmode
    have hlogged := (logged_ok (F.kernelFsFileReadOffset fd offset len) s (s.1, s₁)).mpr ⟨hrun, rfl⟩
    exact ⟨r, (s.1, s₁), hlogged, hcount⟩

theorem logged_writes (hw : ReliableWrites F Inv view) :
    ReliableWrites (loggedFiles F) (fun s => Inv s.2) (fun s => view s.2) where
  write s fd offset data e c hi hfd hfile hmode := by
    obtain ⟨s₁, hrun⟩ := hw.write s.2 fd offset data e c hi hfd hfile hmode
    have hlogged := (logged_ok (F.kernelFsFileWriteOffset fd offset data) s (s.1, s₁)).mpr ⟨hrun, rfl⟩
    exact ⟨(s.1, s₁), hlogged⟩

end Logs

/-- Between two ticks: the stored record and the memory are those of the emulator. -/
structure Resting (Inv : φ → Prop) (view : φ → FsView) (pid : ℕ) (paths : ProcessPaths)
    (D : ℕ → Prop) (m : MemoryImage) (procData : ProcManProcessProcData) (s : ProcTable × φ)
    (p : Process) : Prop where
  inv : Inv s.2
  live : Live s.1 pid
  active : (s.1 pid).state = .active
  stored : RecordStored (view s.2) (s.1 pid) paths.proc procData
  memory : ProcessMemory (view s.2) (s.1 pid) procData paths m
  bytes : ∀ a, D a → m.byte a = some (p.memory a)
  regs : procData.regs = p.regs
  between : p.skipCounter = 0

variable {procData : ProcManProcessProcData}

/-- A tick begins with an empty buffer. -/
theorem Resting.synced (h : Resting Inv view pid paths D m procData s p) {s₁ : φ} (hi : Inv s₁)
    (hview : view s₁ = view s.2) (deaths : List (Death φ)) :
    Synced (fun s => Inv s.2) (fun s => view s.2) pid paths D m (startTick procData)
      (s.1, (deaths, s₁)) p := by
  refine ⟨⟨hi, ?_, h.bytes, h.regs⟩, fun a ha => ?_, h.between⟩
  · dsimp only
    rw [hview]
    exact h.memory
  · obtain ⟨hlow, hhigh⟩ := ha
    change a.toNat < 0+0 at hhigh
    omega

/-- The record is loaded, and the instructions are run. -/
theorem tick_loads (hl : FilesLaw F Inv view largest) (hr : ReliableReads F Inv view)
    (W : World φ) (h : Resting Inv view pid paths D m procData s p) (deaths : List (Death φ)) :
    ∃ s₁, procManProcessTick F W pid (s.1, (deaths, s.2)) =
      tickRun F W pid procData (s.1, (deaths, s₁)) ∧ Inv s₁ ∧ view s₁ = view s.2 := by
  obtain ⟨s₁, hload, hi₁, hv⟩ := load_stored hl hr h.inv h.stored
  have hloaded : onFiles pid (fun process => procManProcessLoadProcData F process) s =
      .ok (some procData, (s.1, s₁)) := onSecond_ok.mpr ⟨hload, rfl⟩
  have hstart : tickStart F W pid (s.1 pid).state s = .ok (.run procData, (s.1, s₁)) := by
    rw [h.active]
    exact bind_of_ok hloaded
  have hbeside : beside (tickStart F W pid (s.1 pid).state) (s.1, (deaths, s.2)) =
      .ok (.run procData, (s.1, (deaths, s₁))) := by
    rw [beside, hstart]
  have hget : (getFirst : ProcManRun (Logged φ) ProcTable) (s.1, (deaths, s.2)) =
    .ok (s.1, (s.1, (deaths, s.2))) := rfl
  refine ⟨s₁, ?_, hi₁, hv⟩
  rw [procManProcessTick, bind_of_ok hget, if_pos h.live, bind_of_ok hbeside]

/-- A tick is as many steps of the emulator as it has instructions; when the emulator
stops, the process is killed. -/
theorem tick_runs (hl : FilesLaw F Inv view largest) (hlargest : largest ≤ 32768)
    (hr : ReliableReads F Inv view) (hw : ReliableWrites F Inv view) (W : World φ)
    (sys' : Process → Bool × Process) (h : Resting Inv view pid paths D m procData s p)
    (hcounter : (s.1 pid).instructionCounter+procManProcessInstructionsPerTick ≤ 65500)
    (hready : Along (fun q => processStep q sys') (Ready D m) procManProcessInstructionsPerTick p)
    (deaths : List (Death φ)) :
    ∃ b p' m' procData' s', SameShape m m' ∧ procData'.regs = p'.regs ∧
      runFor (fun q => processStep q sys') procManProcessInstructionsPerTick p = some (b, p') ∧
      (b = true → procManProcessTick F W pid (s.1, (deaths, s.2)) =
          .ok ((), (advance s.1 pid procManProcessInstructionsPerTick, (deaths, s'))) ∧
        Resting Inv view pid paths D m' procData'
          (advance s.1 pid procManProcessInstructionsPerTick, s') p') ∧
      (b = false → ∃ table, procManProcessTick F W pid (s.1, (deaths, s.2)) = (do
        let _ ← procManProcessKill F pid ProcManExitStatusKilled (some procData')
        pure ()) (table, (deaths, s'))) := by
  obtain ⟨s₁, htick, hi₁, hv₁⟩ := tick_loads hl hr W h deaths
  obtain ⟨b, t', s', m', p', hloop, hrun, hrecord, hlog, hstatus, hshape, hm', hgoes⟩ :=
    tickLoop_runs (logged_law hl) hlargest (logged_reads hr) (logged_writes hw) loggedFiles_step
      (execSyscall F W) sys' procManProcessInstructionsPerTick (h.synced hi₁ hv₁ deaths) h.active
      hcounter hready
  obtain ⟨table', deaths', s₂⟩ := s'
  have hdeaths : deaths' = deaths := hlog
  subst hdeaths
  cases b with
  | false =>
    refine ⟨false, p', m', t'.procData, s₂, hshape, hm'.regs, hrun, fun hb => (by cases hb),
      fun _ => ⟨table', ?_⟩⟩
    rw [htick, tickRun, bind_of_ok hloop, hstatus]
    rfl
  | true =>
    obtain ⟨htable, hsynced⟩ := hgoes rfl
    dsimp only at htable
    subst htable
    have hstored : RecordStored (view s₁) (s.1 pid) paths.proc procData := by
      rw [hv₁]
      exact h.stored
    have hstill := hrecord procData hstored
    obtain ⟨s₃, hstore, hi₃, hv₃⟩ : ∃ s₃, procManProcessStoreProcData F
        (advance s.1 pid procManProcessInstructionsPerTick pid) t'.procData s₂ = .ok (true, s₃) ∧
        Inv s₃ ∧ view s₃ = (view s₂).setFile paths.proc (some t'.procData.toBytes) :=
      store_stored hl hw hm'.inv hstill
    have hentry : advance s.1 pid procManProcessInstructionsPerTick pid = { s.1 pid with
        instructionCounter :=
          (s.1 pid).instructionCounter+procManProcessInstructionsPerTick } := advance_self _ _
    have hfiles : onFilesOf (fun table => procManProcessStoreProcData F (table pid) t'.procData)
        (advance s.1 pid procManProcessInstructionsPerTick, (deaths', s₂)) =
        .ok (true, (advance s.1 pid procManProcessInstructionsPerTick, (deaths', s₃))) := by
      have hsecond : onSecond (fun table =>
          procManProcessStoreProcData F (table pid) t'.procData)
          (advance s.1 pid procManProcessInstructionsPerTick, s₂) =
          .ok (true, (advance s.1 pid procManProcessInstructionsPerTick, s₃)) :=
        onSecond_ok.mpr ⟨hstore, rfl⟩
      rw [onFilesOf, beside, hsecond]
    refine ⟨true, p', m', t'.procData, s₃, hshape, hm'.regs, hrun, fun _ => ⟨?_, ?_⟩,
      fun hb => by cases hb⟩
    · rw [htick, tickRun, bind_of_ok hloop]
      change (onFilesOf (fun table => procManProcessStoreProcData F (table pid) t'.procData) >>= _)
        (advance s.1 pid procManProcessInstructionsPerTick, (deaths', s₂)) = _
      rw [bind_of_ok hfiles]
      rfl
    · refine ⟨hi₃, ⟨h.live.1, ?_⟩, ?_, ⟨?_, ?_⟩, ?_, hm'.bytes, hm'.regs, hsynced.between⟩
      · dsimp only
        rw [hentry]
        exact h.live.2
      · dsimp only
        rw [hentry]
        exact h.active
      · dsimp only
        rw [hv₃]
        exact hstill.1
      · dsimp only
        rw [hv₃, FsView.setFile_file, if_pos rfl]
      · dsimp only
        rw [hv₃]
        exact memory_setProc hm'.memory _

/-! ### Many ticks -/

/-- What the rest of the system may do to the files between two ticks. -/
def Spares (Inv : φ → Prop) (view : φ → FsView) (paths : ProcessPaths) (f : φ → φ) : Prop :=
  ∀ s, Inv s → Inv (f s) ∧ ∀ process procData m, ProcessMemory (view s) process procData paths m →
    RecordStored (view s) process paths.proc procData →
    ProcessMemory (view (f s)) process procData paths m ∧
      RecordStored (view (f s)) process paths.proc procData

/-- Ticks of the process, with the counters reset before they can overflow. -/
def Paced (Inv : φ → Prop) (view : φ → FsView) (pid : ℕ) (paths : ProcessPaths) :
    ℕ → List (ManagerAction φ) → Prop
  | _, [] => True
  | counter, .tick pid'::rest => pid' = pid ∧
      counter+procManProcessInstructionsPerTick ≤ 65500 ∧
      Paced Inv view pid paths (counter+procManProcessInstructionsPerTick) rest
  | _, .resetCounters::rest => Paced Inv view pid paths 0 rest
  | counter, .elsewhere f::rest => Spares Inv view paths f ∧ Paced Inv view pid paths counter rest
  | _, .kill _::_ => False
  | _, .signal _ _::_ => False

/-- The instructions of all ticks. -/
def instructionsIn : List (ManagerAction φ) → ℕ
  | [] => 0
  | .tick _::rest => procManProcessInstructionsPerTick+instructionsIn rest
  | _::rest => instructionsIn rest

theorem manage_next {W : World φ} {action : ManagerAction φ} {rest : List (ManagerAction φ)}
    {s₁ s₂ : ProcTable × Logged φ} (h : act F W action s₁ = .ok ((), s₂)) :
    manage F W (action::rest) s₁ = manage F W rest s₂ := bind_of_ok h

theorem manage_killed {W : World φ} {action : ManagerAction φ} {rest : List (ManagerAction φ)}
    {s₁ s₂ : ProcTable × Logged φ} {α : Type} {x : ProcManRun (Logged φ) α}
    (h : act F W action s₁ = (do
      let _ ← x
      pure ()) s₂) :
    manage F W (action::rest) s₁ = (do
      let _ ← x
      manage F W rest) s₂ := by
  change (act F W action s₁ >>= fun r => manage F W rest r.2) =
    (x s₂ >>= fun r => manage F W rest r.2)
  rw [h]
  change ((x s₂ >>= fun r => .ok ((), r.2)) >>= fun r => manage F W rest r.2) = _
  cases x s₂ with
  | error e => rfl
  | ok r => rfl

theorem Resting.reset (h : Resting Inv view pid paths D m procData s p) :
    Resting Inv view pid paths D m procData
      (fun pid' => { s.1 pid' with instructionCounter := 0 }, s.2) p := by
  have hm := h.memory
  exact ⟨h.inv, h.live, h.active, h.stored, ⟨hm.progFd, hm.progFile, hm.ramFd, hm.ramFile,
    hm.envLen, hm.ramLen, hm.procFd, hm.valid, hm.apart⟩, h.bytes, h.regs, h.between⟩

theorem Resting.elsewhere (h : Resting Inv view pid paths D m procData s p) {f : φ → φ}
    (hf : Spares Inv view paths f) : Resting Inv view pid paths D m procData (s.1, f s.2) p := by
  obtain ⟨hi, hspared⟩ := hf s.2 h.inv
  obtain ⟨hmemory, hstored⟩ := hspared _ _ _ h.memory h.stored
  exact ⟨hi, h.live, h.active, hstored, hmemory, h.bytes, h.regs, h.between⟩

/-- The process goes on as the emulator does. -/
structure GoesOn (F : Files φ) (W : World φ) (Inv : φ → Prop) (view : φ → FsView) (pid : ℕ)
    (paths : ProcessPaths) (D : ℕ → Prop) (actions : List (ManagerAction φ))
    (deaths : List (Death φ)) (m : MemoryImage) (s : ProcTable × φ) (p' : Process)
    (m' : MemoryImage) (procData' : ProcManProcessProcData) (s' : ProcTable × φ) : Prop where
  run : manage F W actions (s.1, (deaths, s.2)) = .ok ((), (s'.1, (deaths, s'.2)))
  shape : SameShape m m'
  resting : Resting Inv view pid paths D m' procData' s' p'

/-- The process is killed, with the registers of the emulator, and the others go on. -/
structure IsKilled (F : Files φ) (W : World φ) (pid : ℕ) (actions : List (ManagerAction φ))
    (deaths : List (Death φ)) (s : ProcTable × φ) (p' : Process)
    (rest : List (ManagerAction φ)) (procData' : ProcManProcessProcData)
    (s' : ProcTable × φ) : Prop where
  left : rest <:+ actions
  regs : procData'.regs = p'.regs
  run : manage F W actions (s.1, (deaths, s.2)) = (do
    let _ ← procManProcessKill F pid ProcManExitStatusKilled (some procData')
    manage F W rest) (s'.1, (deaths, s'.2))

/-- The program decrements the instruction pointer by its own length. -/
def spinning : List UInt8 := [227, 193]

theorem spinning_resting : Resting FsView.Bounded id 1 shellPaths (shellMapped spinning)
    (shellImage spinning) shellData (shellState spinning) (shellEmulated spinning) where
  inv := shell_bounded spinning
  live := by decide
  active := rfl
  stored := ⟨rfl, by decide⟩
  memory := shell_memory spinning
  bytes := (shell_coupled spinning).bytes
  regs := rfl
  between := rfl

/-- Where the loop is between two instructions. -/
def Spins (p : Process) : Prop :=
  p.regs = (fun _ => 0) ∧ p.memory = (shellEmulated spinning).memory ∧ p.skipCounter = 0

theorem spinning_fetched (h : Spins p) :
    bytecodeInstructionParse (processFetch p).1 = .alu .dec 7 0 1 ∧
      (∀ r, (processFetch p).2.regs r = if r = 7 then 2 else 0) := by
  obtain ⟨hinstruction, hregs, _⟩ := processFetch_same (p := shellEmulated spinning) h.1 h.2.1
  rw [hinstruction, hregs]
  exact ⟨by decide, by decide⟩

theorem spinning_kept {sys' : Process → Bool × Process} {q : Process} (h : Spins p)
    (hstep : processStep p sys' = some (true, q)) : Spins q := by
  obtain ⟨hinstruction, hregs⟩ := spinning_fetched h
  have hbetween : (processFetch p).2.skipCounter = 0 := processFetch_skipCounter.trans h.2.2
  rw [processStep_eq sys' h.2.2, hinstruction] at hstep
  change finish sys' (true, (processFetch p).2.setReg 7
    ((processFetch p).2.regs 7-incDecValue 0 1)) = _ at hstep
  rw [finish, if_pos rfl, Process.setReg_skipCounter, hbetween] at hstep
  cases hstep
  refine ⟨?_, processFetch_memory.trans h.2.1, hbetween⟩
  funext r
  rw [Process.countUp_regs, Process.setReg_regs, hregs, hregs, if_pos rfl]
  by_cases hr : r = 7
  · rw [if_pos hr]
    decide
  · rw [if_neg hr, if_neg hr]

theorem spinning_ready (h : Spins p) : Ready (shellMapped spinning) (shellImage spinning) p := by
  obtain ⟨hinstruction, _⟩ := spinning_fetched h
  have hfetch : Fetchable (code (shellMapped spinning)) 1 (shellEmulated spinning) :=
    ⟨fun i hi => ⟨by revert i; decide, by revert i; decide⟩, trivial⟩
  refine ⟨fetchable_same h.1 h.2.1 hfetch, ?_, ?_, ?_, ?_⟩
  · intro destReg opAReg opBReg hskip
    rw [hinstruction] at hskip
    cases hskip
  · rw [hinstruction]
    intro hsys
    cases hsys
  · rw [hinstruction]
    exact trivial
  · rw [hinstruction]
    exact trivial

/-- Two ticks, with the counters reset between them. -/
def spinningActions : List (ManagerAction FsView) := [.tick 1, .resetCounters, .tick 1]

end ArduinoOS.Emulator
