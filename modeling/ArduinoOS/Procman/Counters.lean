import ArduinoOS.Procman.Waitpid

/-!
# Instruction counters

A counter grows by the instructions of its process's own ticks only; forks,
kills, new processes and resets set counters to 0. The counters are reset
before the ticks since the last reset can make one of them overflow.
-/

set_option autoImplicit false

namespace ArduinoOS.Procman
open ArduinoOS.Faulting ArduinoOS.Kernel

def procManProcessInstructionCounterMax : ℕ := 65500

def procManTicksPerInstructionCounterReset : ℕ :=
  procManProcessInstructionCounterMax/procManProcessInstructionsPerTick

/-! ### All processes -/

section TickAll

variable {φ : Type}

/-- The state with `ticksSinceLastInstructionCounterReset`. -/
abbrev Counted (φ : Type) := ℕ × ProcTable × Logged φ

/-- The loop over the processes, in some order. -/
def tickEach (tick : ℕ → ProcManRun (Logged φ) Unit) : List ℕ → ProcManRun (Logged φ) Unit
  | [] => pure ()
  | pid::rest => do
      tick pid
      tickEach tick rest

/-- The end of `procManTickAll`. -/
def countTick (s : Counted φ) : Counted φ :=
  if s.1+1 ≥ procManTicksPerInstructionCounterReset then
    (0, fun pid => { s.2.1 pid with instructionCounter := 0 }, s.2.2)
  else (s.1+1, s.2)

/-- The ticks of all processes; how a process ticks may depend on the ticks so far. -/
def tickAllIn (tick : ℕ → ℕ → ProcManRun (Logged φ) Unit) (order : List ℕ) :
    Run (Counted φ) Fault Unit := fun s =>
  match tickEach (tick s.1) order s.2 with
  | .error e => .error e
  | .ok ((), s') => .ok ((), countTick (s.1, s'))

def procManTickAll (F : Files φ) (W : World φ) : Run (Counted φ) Fault Unit :=
  tickAllIn (fun _ => procManProcessTick F W) (List.range ProcManPidMax)

/-- A tick of all processes, each at most once, or something else. -/
inductive CountedAction (φ : Type)
  | tickAll (order : List ℕ) (once : order.Nodup)
  | kill (pid : ℕ)
  | signal (pid signalId : ℕ)
  | new (pid progmemFd procFd : ℕ) (state : ProcManProcessState) (files : φ → φ)
  | elsewhere (files : φ → φ)

/-- A computation on the table and the files. -/
def uncounted {α : Type} (x : ProcManRun (Logged φ) α) : Run (Counted φ) Fault α := fun s =>
  match x s.2 with
  | .error e => .error e
  | .ok (a, s') => .ok (a, (s.1, s'))

/-- A new process, or one that could not be made, starts with a counter of 0. -/
def newProcess (pid progmemFd procFd : ℕ) (state : ProcManProcessState) (files : φ → φ) :
    ProcManRun (Logged φ) Unit := fun s =>
  .ok ((), (Function.update s.1 pid ⟨progmemFd, procFd, state, 0⟩, (s.2.1, files s.2.2)))

def countedAct (F : Files φ) (W : World φ) (tick : ℕ → ℕ → ProcManRun (Logged φ) Unit) :
    CountedAction φ → Run (Counted φ) Fault Unit
  | .tickAll order _ => tickAllIn tick order
  | .kill pid => uncounted (act F W (.kill pid))
  | .signal pid signalId => uncounted (act F W (.signal pid signalId))
  | .new pid progmemFd procFd state files =>
      uncounted (newProcess pid progmemFd procFd state files)
  | .elsewhere files => uncounted (act F W (.elsewhere files))

def countedRun (F : Files φ) (W : World φ) (tick : ℕ → ℕ → ProcManRun (Logged φ) Unit) :
    List (CountedAction φ) → Run (Counted φ) Fault Unit
  | [] => pure ()
  | action::rest => do
      countedAct F W tick action
      countedRun F W tick rest

/-- The order of the code. -/
theorem procManTickAll_act (F : Files φ) (W : World φ) :
    procManTickAll F W = countedAct F W (fun _ => procManProcessTick F W)
      (.tickAll (List.range ProcManPidMax) List.nodup_range) := rfl

/-- The table that `procManInit` leaves. -/
def procManInit (files : φ) : Counted φ := (0, fun _ => .none, [], files)

end TickAll

/-! ### A tick with another assert -/

section Asserted

variable {φ : Type} (bound : ℕ) (failure : Fault)

/-- The instructions of a tick, with this bound in the assert and this end when
it fails. -/
def tickLoopOr (F : Files φ) (sys : Syscall φ) (pid : ℕ) (t : Running φ) :
    ℕ → ProcManRun φ (Bool × Running φ)
  | 0 => pure (true, t)
  | left+1 => do
      let r ← procManProcessGetInstruction F pid t
      match r.1 with
      | none => pure (false, r.2)
      | some instruction => do
          let r' ← procManProcessExecInstruction F sys pid r.2 instruction
          if r'.1 = false then pure (false, r'.2)
          else do
            let table ← getFirst
            if (table pid).instructionCounter < bound then do
              let process := table pid
              setFirst (Function.update table pid
                { process with instructionCounter := process.instructionCounter+1 })
              if process.state ≠ .active then pure (true, r'.2)
              else tickLoopOr F sys pid r'.2 left
            else throw failure

def tickRunOr (F : Files φ) (W : World φ) (pid : ℕ) (procData : ProcManProcessProcData) :
    ProcManRun (Logged φ) Unit := do
  let r ← tickLoopOr bound failure (loggedFiles F) (execSyscall F W) pid (startTick procData)
    procManProcessInstructionsPerTick
  if r.1 = false then do
    let _ ← procManProcessKill F pid r.2.exitStatus (some r.2.procData)
    pure ()
  else do
    let stored ← onFilesOf (fun table =>
      procManProcessStoreProcData F (table pid) r.2.procData)
    if stored then pure ()
    else do
      let _ ← procManProcessKill F pid r.2.exitStatus (some r.2.procData)
      pure ()

def tickOr (F : Files φ) (W : World φ) (pid : ℕ) : ProcManRun (Logged φ) Unit := do
  let table ← getFirst
  if Live table pid then do
    let start ← beside (tickStart F W pid (table pid).state)
    match start with
    | .none => pure ()
    | .kill => do
        let _ ← procManProcessKill F pid ProcManExitStatusKilled none
        pure ()
    | .run procData => tickRunOr bound failure F W pid procData
  else pure ()

end Asserted

/-! ### Counters do not grow elsewhere -/

/-- No counter is larger than before. -/
def Calm (t t' : ProcTable) : Prop :=
  ∀ p, (t' p).instructionCounter ≤ (t p).instructionCounter

theorem calm_refl (t : ProcTable) : Calm t t := fun _ => le_refl _

theorem calm_trans {t₁ t₂ t₃ : ProcTable} (h : Calm t₁ t₂) (h' : Calm t₂ t₃) : Calm t₁ t₃ :=
  fun p => le_trans (h' p) (h p)

theorem calm_update {t : ProcTable} {pid : ℕ} {e : ProcManProcess}
    (h : e.instructionCounter ≤ (t pid).instructionCounter) :
    Calm t (Function.update t pid e) := by
  intro p
  by_cases hp : p = pid
  · rw [hp, Function.update_self]
    exact h
  · rw [Function.update_of_ne hp]

/-- A run that makes no counter grow. -/
def Calms {ψ α : Type} (x : ProcManRun ψ α) : Prop :=
  ∀ s a s', x s = .ok (a, s') → Calm s.1 s'.1

section Calls

variable {φ ψ α β : Type} {F : Files φ} {W : World φ}

theorem calms_quiet {R : ψ → ψ → Prop} {x : ProcManRun ψ α} (h : Quiet R x) : Calms x := by
  intro s a s' hrun
  rw [(h s a s' hrun).1]
  exact calm_refl _

theorem calms_pure (a : α) : Calms (pure a : ProcManRun ψ α) := by
  intro s b s' hrun
  obtain ⟨_, rfl⟩ := pure_ok.mp hrun
  exact calm_refl _

theorem calms_bind {x : ProcManRun ψ α} {f : α → ProcManRun ψ β} (hx : Calms x)
    (hf : ∀ a, Calms (f a)) : Calms (x >>= f) := by
  intro s b s' hrun
  obtain ⟨a, s₁, hfirst, hrest⟩ := bind_ok.mp hrun
  exact calm_trans (hx _ _ _ hfirst) (hf a _ _ _ hrest)

theorem calms_getFirst : Calms (getFirst : ProcManRun ψ ProcTable) :=
  calms_quiet (getFirst_quiet (R := fun _ _ => True) (fun _ => trivial))

theorem calms_onFiles (pid : ℕ) (x : ProcManProcess → Run ψ Fault α) : Calms (onFiles pid x) := by
  intro s a s' hrun
  rw [(onSecond_ok.mp hrun).2]
  exact calm_refl _

theorem calms_beside {x : ProcManRun φ α} (h : Calms x) : Calms (beside x) :=
  fun _ _ _ hrun => h _ _ _ (beside_ok hrun).1

theorem calms_onFilesOf (x : ProcTable → Run φ Fault α) : Calms (onFilesOf x) :=
  calms_quiet (onFilesOf_quiet x)

theorem setState_calms (pid : ℕ) (state : ProcManProcessState) :
    Calms (setState pid state : ProcManRun ψ Unit) := by
  intro s a s' hrun
  rw [setState_ok hrun]
  apply calm_update
  simp

theorem kill_calms (pid : ℕ) (exitStatus : UInt16)
    (procDataGiven : Option ProcManProcessProcData) :
    Calms (procManProcessKill F pid exitStatus procDataGiven) := by
  intro s a s' hrun
  unfold procManProcessKill at hrun
  split at hrun
  case isTrue => cases hrun
  case isFalse =>
    split at hrun
    case isFalse =>
      cases hrun
      exact calm_refl _
    case isTrue =>
      cases hk : killProcess F pid exitStatus procDataGiven (s.1, s.2.2) with
      | error e =>
        rw [hk] at hrun
        cases hrun
      | ok r =>
        rw [hk] at hrun
        cases hrun
        obtain ⟨r, s'⟩ := r
        obtain ⟨table, s₁, hget, hk⟩ := bind_ok.mp hk
        obtain ⟨rfl, rfl⟩ := getFirst_ok.mp hget
        obtain ⟨procData, s₂, hfiles, hk⟩ := bind_ok.mp hk
        obtain ⟨_, s₃, hset, hk⟩ := bind_ok.mp hk
        have hset := setFirst_ok.mp hset
        subst hset
        obtain ⟨filesBefore, s₄, hbefore, hk⟩ := bind_ok.mp hk
        cases hbefore
        obtain ⟨saved, s₅, hwake, hk⟩ := bind_ok.mp hk
        obtain ⟨woken, s₆, hafter, hk⟩ := bind_ok.mp hk
        cases hafter
        cases hk
        have hquiet : Calm s.1 (Function.update s.1 pid .none) := calm_update (Nat.zero_le _)
        apply calm_trans hquiet
        intro p
        rcases (wakeWaiters_table hwake p).1 with h | ⟨_, h⟩
        · rw [h]
        · rw [h]

theorem sendSignal_calms (pid signalId : ℕ) : Calms (procManProcessSendSignal F pid signalId) := by
  intro s a s' hrun
  rcases sendSignal_table hrun with h | ⟨_, h⟩
  · rw [h]
    exact calm_refl _
  · rw [h]
    apply calm_update
    simp

theorem fork_calms (pid : ℕ) (procData : ProcManProcessProcData) :
    Calms (procManProcessFork F pid procData) := by
  intro s a s' hrun
  obtain ⟨table, s₁, hget, hrun⟩ := bind_ok.mp hrun
  obtain ⟨rfl, rfl⟩ := getFirst_ok.mp hget
  split at hrun
  case isTrue =>
    cases hrun
    exact calm_refl _
  case isFalse =>
    obtain ⟨_, s₂, hset, hrun⟩ := bind_ok.mp hrun
    have hset := setFirst_ok.mp hset
    subst hset
    obtain ⟨r, s₃, hfiles, hrun⟩ := bind_ok.mp hrun
    have htable := (onSecond_ok.mp hfiles).2
    cases r with
    | none =>
      cases hrun
      rw [htable]
      exact calm_update (Nat.zero_le _)
    | some fds =>
      obtain ⟨_, s₄, hset, hrun⟩ := bind_ok.mp hrun
      have hset := setFirst_ok.mp hset
      subst hset
      cases hrun
      exact calm_update (Nat.zero_le _)

theorem execCommon_calms (steps : ℕ) (scratch : Scratch) (pid : ℕ)
    (procData : ProcManProcessProcData) (argc : ℕ) (argv : CBuffer.Buffer) :
    Calms (procManProcessExecCommon F steps scratch pid procData argc argv) := by
  intro s a s' hrun
  obtain ⟨prepared, s₁, hprepare, hrun⟩ := bind_ok.mp hrun
  have htable := (onSecond_ok.mp hprepare).2
  cases prepared with
  | killed | failed =>
    cases hrun
    rw [htable]
    exact calm_refl _
  | ready plan =>
    obtain ⟨table, s₂, hget, hrun⟩ := bind_ok.mp hrun
    obtain ⟨rfl, rfl⟩ := getFirst_ok.mp hget
    obtain ⟨_, s₃, _, hrun⟩ := bind_ok.mp hrun
    obtain ⟨_, s₄, hset, hrun⟩ := bind_ok.mp hrun
    have hset := setFirst_ok.mp hset
    subst hset
    rw [(onSecond_ok.mp hrun).2, htable]
    apply calm_update
    simp

theorem exec_calms (steps : ℕ) (scratch : Scratch) (pid : ℕ)
    (procData : ProcManProcessProcData) :
    Calms (procManProcessExec F steps scratch pid procData) := by
  unfold procManProcessExec
  dsimp only
  split
  · exact calms_pure _
  · refine calms_bind (calms_onFiles _ _) (fun argv => ?_)
    cases argv with
    | none => exact calms_pure _
    | some argv => exact execCommon_calms _ _ _ _ _ _

theorem exec2_calms (steps : ℕ) (scratch : Scratch) (pid : ℕ)
    (procData : ProcManProcessProcData) :
    Calms (procManProcessExec2 F steps scratch pid procData) := by
  unfold procManProcessExec2
  dsimp only
  split
  · exact calms_pure _
  · refine calms_bind (calms_onFiles _ _) (fun argv => ?_)
    cases argv with
    | none => exact calms_pure _
    | some argv => exact execCommon_calms _ _ _ _ _ _

theorem waitPid_calms (pid : ℕ) (procData : ProcManProcessProcData) :
    Calms (waitPidSyscall W pid procData) := by
  refine calms_bind calms_getFirst (fun table => ?_)
  split
  · exact calms_bind (calms_onFilesOf _)
      (fun _ => calms_bind (setState_calms _ _) (fun _ => calms_pure _))
  · exact calms_pure _

theorem transfer_calms (pid : ℕ) (procData : ProcManProcessProcData)
    (ready : ℕ → Run φ Fault Bool) (waiting : ℕ → ProcManProcessState)
    (run : ProcManProcess → ProcManProcessProcData →
      Run φ Fault (Bool × ProcManProcessProcData)) :
    Calms (transferSyscall F pid procData ready waiting run) := by
  refine calms_bind (calms_onFilesOf _) (fun globalFd => ?_)
  split
  · exact calms_pure _
  · refine calms_bind (calms_onFilesOf _) (fun now => ?_)
    split
    · exact calms_bind (setState_calms _ _) (fun _ => calms_pure _)
    · exact calms_onFilesOf _

theorem signalAll_calms (pids : List ℕ) : Calms (signalAll F pids) := by
  induction pids with
  | nil => exact calms_pure _
  | cons pid rest ih =>
    refine calms_bind calms_getFirst (fun table => ?_)
    split
    · exact calms_bind (calms_beside (sendSignal_calms _ _)) (fun _ => ih)
    · exact ih

theorem shutdown_calms (procData : ProcManProcessProcData) :
    Calms (shutdownSyscall F W procData) := by
  refine calms_bind (calms_bind (calms_onFilesOf _) (fun starts => ?_)) (fun _ => calms_pure _)
  split
  · exact signalAll_calms _
  · exact calms_pure _

theorem killSyscall_calms (pid : ℕ) (procData : ProcManProcessProcData) :
    Calms (killSyscall F pid procData) := by
  unfold killSyscall
  dsimp only
  split
  · exact calms_pure _
  · exact calms_bind (kill_calms _ _ _) (fun _ => calms_pure _)

theorem signalSyscall_calms (procData : ProcManProcessProcData) :
    Calms (signalSyscall F procData) := by
  unfold signalSyscall
  dsimp only
  split
  · exact calms_pure _
  · exact calms_bind (calms_beside (sendSignal_calms _ _)) (fun _ => calms_pure _)

theorem execSyscall_calms (pid : ℕ) (procData : ProcManProcessProcData) (exitStatus : UInt16) :
    Calms (execSyscall F W pid procData exitStatus) := by
  refine calms_bind ?_ (fun _ => calms_pure _)
  cases syscallIdOf (procData.regs 0).toNat with
  | exit => exact calms_bind (setState_calms _ _) (fun _ => calms_pure _)
  | getPid => exact calms_pure _
  | getArgVN =>
    refine calms_bind (calms_onFilesOf _) (fun addr => ?_)
    cases addr with
    | none => exact calms_pure _
    | some addr => exact calms_pure _
  | fork => exact calms_bind (calms_beside (fork_calms _ _)) (fun _ => calms_pure _)
  | exec => exact calms_beside (exec_calms _ _ _ _)
  | waitPid => exact waitPid_calms _ _
  | kill => exact killSyscall_calms _ _
  | signal => exact signalSyscall_calms _
  | exec2 => exact calms_beside (exec2_calms _ _ _ _)
  | read | write | read32 | write32 => exact transfer_calms _ _ _ _ _
  | shutdown => exact shutdown_calms _
  | other => exact calms_onFilesOf _

theorem execInstruction_calms (pid : ℕ) (t : Running (Logged φ))
    (instruction : BytecodeInstruction) :
    Calms (procManProcessExecInstruction (loggedFiles F) (execSyscall F W) pid t instruction) := by
  by_cases h : bytecodeInstructionParse instruction = .misc .syscall
  · unfold procManProcessExecInstruction
    rw [h]
    exact calms_bind (execSyscall_calms _ _ _) (fun _ => calms_pure _)
  · exact calms_quiet (execInstruction_quiet loggedFiles_step pid t h)

theorem loadToRun_calms {pid : ℕ} {run : ProcManProcessProcData → ProcManRun φ TickStart}
    (hrun : ∀ procData, Calms (run procData)) : Calms (loadToRun F pid run) := by
  refine calms_bind (calms_onFiles _ _) (fun procData => ?_)
  cases procData with
  | none => exact calms_pure _
  | some procData => exact hrun procData

theorem finishTransfer_calms (pid : ℕ) (ready : Run φ Fault Bool)
    (transfer : ProcManProcess → ProcManProcessProcData →
      Run φ Fault (Bool × ProcManProcessProcData)) :
    Calms (finishTransfer F pid ready transfer) := by
  refine calms_bind (calms_onFiles _ _) (fun now => ?_)
  split
  · exact calms_pure _
  · exact loadToRun_calms (fun procData => calms_bind (setState_calms _ _)
      (fun _ => calms_bind (calms_onFiles _ _) (fun _ => calms_pure _)))

theorem tickStart_calms (pid : ℕ) (state : ProcManProcessState) :
    Calms (tickStart F W pid state) := by
  cases state with
  | unused | exiting => exact calms_pure _
  | active => exact loadToRun_calms (fun _ => calms_pure _)
  | waitingWaitpid p timeoutTime =>
    refine calms_bind (calms_onFiles _ _) (fun timedOut => ?_)
    split
    · exact calms_pure _
    · exact loadToRun_calms (fun _ => calms_bind (setState_calms _ _) (fun _ => calms_pure _))
  | waitingRead | waitingRead32 | waitingWrite | waitingWrite32 =>
    exact finishTransfer_calms _ _ _

end Calls

/-! ### The counter of the process that ticks -/

/-- The counter of this process grew by at most so much, the others did not. -/
def Grown (pid n : ℕ) (t t' : ProcTable) : Prop :=
  ∀ p, (t' p).instructionCounter ≤ (t p).instructionCounter+(if p = pid then n else 0)

theorem grown_calm {pid n : ℕ} {t t' : ProcTable} (h : Calm t t') : Grown pid n t t' :=
  fun p => le_trans (h p) (Nat.le_add_right _ _)

theorem grown_trans {pid n m : ℕ} {t₁ t₂ t₃ : ProcTable} (h : Grown pid n t₁ t₂)
    (h' : Grown pid m t₂ t₃) : Grown pid (n+m) t₁ t₃ := by
  intro p
  have h₁ := h p
  have h₂ := h' p
  split_ifs at * <;> omega

theorem grown_counted (pid : ℕ) (t : ProcTable) :
    Grown pid 1 t (Function.update t pid
      { t pid with instructionCounter := (t pid).instructionCounter+1 }) := by
  intro p
  by_cases hp : p = pid
  · simp [hp]
  · simp [hp]

section Ticks

variable {φ : Type} {F : Files φ} {W : World φ} {bound bound' : ℕ} {failure failure' : Fault}

/-- An instruction before the assert, and the count after it. -/
theorem tickLoop_step {pid : ℕ} {t t' : Running (Logged φ)} {left : ℕ} {done : Bool}
    {s s' : ProcTable × Logged φ}
    (h : tickLoopOr bound failure (loggedFiles F) (execSyscall F W) pid t (left+1) s =
      .ok ((done, t'), s')) :
    Calm s.1 s'.1 ∨ ∃ s₁ s₂, Calm s.1 s₁ ∧
      s₂.1 = Function.update s₁ pid
        { s₁ pid with instructionCounter := (s₁ pid).instructionCounter+1 } ∧
      (s' = s₂ ∨ ∃ u, tickLoopOr bound failure (loggedFiles F) (execSyscall F W) pid u left s₂ =
        .ok ((done, t'), s')) := by
  obtain ⟨r, s₁, hget, h⟩ := bind_ok.mp h
  have hcalm := calms_quiet (getInstruction_quiet loggedFiles_step pid t) _ _ _ hget
  cases hr : r.1 with
  | none =>
    simp only [hr] at h
    cases h
    exact Or.inl hcalm
  | some instruction =>
    simp only [hr] at h
    obtain ⟨r', s₂, hexec, h⟩ := bind_ok.mp h
    have hcalm₂ := calm_trans hcalm (execInstruction_calms _ _ _ _ _ _ hexec)
    split at h
    case isTrue =>
      cases h
      exact Or.inl hcalm₂
    case isFalse =>
      obtain ⟨table, s₃, htable, h⟩ := bind_ok.mp h
      obtain ⟨rfl, rfl⟩ := getFirst_ok.mp htable
      split at h
      case isFalse => cases h
      case isTrue =>
        obtain ⟨_, s₄, hset, h⟩ := bind_ok.mp h
        have hset := setFirst_ok.mp hset
        subst hset
        refine Or.inr ⟨s₃.1, (Function.update s₃.1 pid
          { s₃.1 pid with instructionCounter := (s₃.1 pid).instructionCounter+1 }, s₃.2),
          hcalm₂, rfl, ?_⟩
        split at h
        case isTrue =>
          cases h
          exact Or.inl rfl
        case isFalse => exact Or.inr ⟨_, h⟩

theorem tickLoop_grown {pid : ℕ} {t t' : Running (Logged φ)} {left : ℕ} {done : Bool}
    {s s' : ProcTable × Logged φ}
    (h : tickLoopOr bound failure (loggedFiles F) (execSyscall F W) pid t left s =
      .ok ((done, t'), s')) : Grown pid left s.1 s'.1 := by
  induction left generalizing t s with
  | zero =>
    cases h
    exact grown_calm (calm_refl _)
  | succ left ih =>
    rcases tickLoop_step h with hcalm | ⟨s₁, s₂, hcalm, hcount, rfl | ⟨u, hrest⟩⟩
    · exact grown_calm hcalm
    · rw [hcount]
      have hgrown := grown_trans (grown_calm (n := left) hcalm) (grown_counted pid s₁)
      exact hgrown
    · have hgrown := grown_trans (grown_calm (n := 0) hcalm) (grown_counted pid s₁)
      rw [← hcount] at hgrown
      have htotal := grown_trans hgrown (ih hrest)
      rw [show left+1 = 0+1+left by omega]
      exact htotal

/-- While there is room for the instructions that are left, the assert holds
whatever its bound. -/
theorem tickLoop_same {pid : ℕ} {t : Running (Logged φ)} {left : ℕ} {s : ProcTable × Logged φ}
    (h : (s.1 pid).instructionCounter+left ≤ bound)
    (h' : (s.1 pid).instructionCounter+left ≤ bound') :
    tickLoopOr bound failure (loggedFiles F) (execSyscall F W) pid t left s =
      tickLoopOr bound' failure' (loggedFiles F) (execSyscall F W) pid t left s := by
  induction left generalizing t s with
  | zero => rfl
  | succ left ih =>
    refine bind_same rfl (fun r s₁ hget => ?_)
    have hcalm := calms_quiet (getInstruction_quiet loggedFiles_step pid t) _ _ _ hget
    cases hr : r.1 with
    | none => rfl
    | some instruction =>
      refine bind_same rfl (fun r' s₂ hexec => ?_)
      have hcalm₂ := calm_trans hcalm (execInstruction_calms _ _ _ _ _ _ hexec) pid
      by_cases hdone : r'.1 = false
      · simp only [if_pos hdone]
      · simp only [if_neg hdone]
        refine bind_same rfl (fun table s₃ htable => ?_)
        obtain ⟨rfl, rfl⟩ := getFirst_ok.mp htable
        have hroom : (s₃.1 pid).instructionCounter < bound := by omega
        have hroom' : (s₃.1 pid).instructionCounter < bound' := by omega
        rw [if_pos hroom, if_pos hroom']
        refine bind_same rfl (fun _ s₄ hset => ?_)
        have hset := setFirst_ok.mp hset
        subst hset
        by_cases hactive : (s₃.1 pid).state ≠ .active
        · simp only [if_pos hactive]
        · simp only [if_neg hactive]
          apply ih
          · simp only [Function.update_self]
            omega
          · simp only [Function.update_self]
            omega

theorem tickRun_grown {pid : ℕ} {procData : ProcManProcessProcData} {u : Unit}
    {s s' : ProcTable × Logged φ}
    (h : tickRunOr bound failure F W pid procData s = .ok (u, s')) :
    Grown pid procManProcessInstructionsPerTick s.1 s'.1 := by
  obtain ⟨r, s₁, hloop, h⟩ := bind_ok.mp h
  have hgrown := tickLoop_grown hloop
  have hcalm : Calm s₁.1 s'.1 := by
    split at h
    case isTrue => exact calms_bind (kill_calms _ _ _) (fun _ => calms_pure _) _ _ _ h
    case isFalse =>
      refine calms_bind (calms_onFilesOf _) (fun stored => ?_) _ _ _ h
      split
      · exact calms_pure _
      · exact calms_bind (kill_calms _ _ _) (fun _ => calms_pure _)
  have htotal := grown_trans hgrown (grown_calm (n := 0) hcalm)
  exact htotal

theorem tick_grown {pid : ℕ} {u : Unit} {s s' : ProcTable × Logged φ}
    (h : tickOr bound failure F W pid s = .ok (u, s')) :
    Grown pid procManProcessInstructionsPerTick s.1 s'.1 := by
  obtain ⟨table, s₁, htable, h⟩ := bind_ok.mp h
  obtain ⟨rfl, rfl⟩ := getFirst_ok.mp htable
  split at h
  case isFalse =>
    cases h
    exact grown_calm (calm_refl _)
  case isTrue =>
    obtain ⟨start, s₂, hstart, h⟩ := bind_ok.mp h
    have hcalm := calms_beside (tickStart_calms _ _) _ _ _ hstart
    cases start with
    | none =>
      cases h
      exact grown_calm hcalm
    | kill =>
      have hkill := calms_bind (kill_calms _ _ _) (fun _ => calms_pure _) _ _ _ h
      exact grown_calm (calm_trans hcalm hkill)
    | run procData =>
      have htotal := grown_trans (grown_calm (n := 0) hcalm) (tickRun_grown h)
      rw [Nat.zero_add] at htotal
      exact htotal

theorem tick_same {pid : ℕ} {s : ProcTable × Logged φ}
    (h : (s.1 pid).instructionCounter+procManProcessInstructionsPerTick ≤ bound)
    (h' : (s.1 pid).instructionCounter+procManProcessInstructionsPerTick ≤ bound') :
    tickOr bound failure F W pid s = tickOr bound' failure' F W pid s := by
  refine bind_same rfl (fun table s₁ htable => ?_)
  obtain ⟨rfl, rfl⟩ := getFirst_ok.mp htable
  by_cases hlive : Live s₁.1 pid
  · simp only [if_pos hlive]
    refine bind_same rfl (fun start s₂ hstart => ?_)
    have hcalm := calms_beside (tickStart_calms _ _) _ _ _ hstart pid
    cases start with
    | none => rfl
    | kill => rfl
    | run procData =>
      refine bind_same ?_ (fun r s₃ _ => rfl)
      apply tickLoop_same
      · omega
      · omega
  · simp only [if_neg hlive]

/-! ### The code's own tick -/

theorem tickLoop_code (G : Files φ) (sys : Syscall φ) (pid : ℕ) (t : Running φ) (left : ℕ) :
    tickLoopOr procManProcessInstructionCounterMax .assertFailed G sys pid t left =
      procManProcessTickLoop G sys pid t left := by
  induction left generalizing t with
  | zero => rfl
  | succ left ih =>
    simp only [tickLoopOr, procManProcessTickLoop, ih]
    rfl

theorem tick_code (pid : ℕ) :
    tickOr procManProcessInstructionCounterMax .assertFailed F W pid =
      procManProcessTick F W pid := by
  simp only [tickOr, procManProcessTick, tickRunOr, tickRun, tickLoop_code]
  all_goals rfl

end Ticks

/-! ### Runs -/

section Runs

variable {φ : Type} {F : Files φ} {W : World φ}

/-- Each process of the order ticks once. -/
theorem tickEach_grown {tick : ℕ → ProcManRun (Logged φ) Unit} {order : List ℕ}
    (htick : ∀ pid s s', tick pid s = .ok ((), s') →
      Grown pid procManProcessInstructionsPerTick s.1 s'.1)
    (honce : order.Nodup) {s s' : ProcTable × Logged φ}
    (h : tickEach tick order s = .ok ((), s')) (p : ℕ) :
    (s'.1 p).instructionCounter ≤ (s.1 p).instructionCounter+
      (if p ∈ order then procManProcessInstructionsPerTick else 0) := by
  induction order generalizing s with
  | nil =>
    cases h
    simp
  | cons pid rest ih =>
    obtain ⟨_, s₁, hfirst, hrest⟩ := bind_ok.mp h
    have hgrown := htick pid s s₁ hfirst p
    have hrest := ih (List.nodup_cons.mp honce).2 hrest
    have hnot := (List.nodup_cons.mp honce).1
    by_cases hp : p = pid
    · rw [hp] at hrest hgrown ⊢
      simp only [if_neg hnot, if_pos, List.mem_cons_self] at *
      omega
    · simp only [if_neg hp] at hgrown
      simp only [List.mem_cons, hp, false_or]
      omega

theorem tickEach_same {tick tick' : ℕ → ProcManRun (Logged φ) Unit} {order : List ℕ} {room : ℕ}
    (htick : ∀ pid s s', tick pid s = .ok ((), s') →
      Grown pid procManProcessInstructionsPerTick s.1 s'.1)
    (hsame : ∀ pid s, (s.1 pid).instructionCounter ≤ room → tick pid s = tick' pid s)
    (honce : order.Nodup) {s : ProcTable × Logged φ}
    (h : ∀ pid ∈ order, (s.1 pid).instructionCounter ≤ room) :
    tickEach tick order s = tickEach tick' order s := by
  induction order generalizing s with
  | nil => rfl
  | cons pid rest ih =>
    have hnot := (List.nodup_cons.mp honce).1
    refine bind_same (hsame pid s (h pid List.mem_cons_self)) (fun _ s₁ hfirst => ?_)
    apply ih (List.nodup_cons.mp honce).2
    intro p hp
    have hne : p ≠ pid := fun heq => hnot (heq ▸ hp)
    have hgrown := htick pid s s₁ hfirst p
    rw [if_neg hne] at hgrown
    exact le_trans hgrown (h p (List.mem_cons_of_mem _ hp))

theorem reset_pos : 0 < procManTicksPerInstructionCounterReset := by decide

/-- Between the ticks. -/
structure Bounded (s : Counted φ) : Prop where
  ticks : s.1 < procManTicksPerInstructionCounterReset
  counters : ∀ p, (s.2.1 p).instructionCounter ≤ procManProcessInstructionsPerTick*s.1

/-- How much the counters may be after the current tick fits below the maximum. -/
theorem bounded_room {s : Counted φ} (h : Bounded s) :
    procManProcessInstructionsPerTick*(s.1+1) ≤ procManProcessInstructionCounterMax := by
  have hticks := h.ticks
  simp only [procManTicksPerInstructionCounterReset, procManProcessInstructionCounterMax,
    procManProcessInstructionsPerTick] at *
  omega

/-- The tick with the bound of the current tick in its assert. -/
def tickBounded (failure : Fault) (F : Files φ) (W : World φ) (ticks : ℕ) :
    ℕ → ProcManRun (Logged φ) Unit :=
  tickOr (procManProcessInstructionsPerTick*(ticks+1)) failure F W

theorem code_grown {pid : ℕ} {u : Unit} {s s' : ProcTable × Logged φ}
    (h : procManProcessTick F W pid s = .ok (u, s')) :
    Grown pid procManProcessInstructionsPerTick s.1 s'.1 := by
  rw [← tick_code] at h
  exact tick_grown h

theorem tickAll_same {s : Counted φ} (hs : Bounded s) (failure : Fault) {order : List ℕ}
    (honce : order.Nodup) :
    tickAllIn (tickBounded failure F W) order s =
      tickAllIn (fun _ => procManProcessTick F W) order s := by
  have hroom := bounded_room hs
  have hsame : tickEach (tickBounded failure F W s.1) order s.2 =
      tickEach (procManProcessTick F W) order s.2 := by
    have hcounted : ∀ pid ∈ order,
        (s.2.1 pid).instructionCounter ≤ procManProcessInstructionsPerTick*s.1 :=
      fun pid _ => hs.counters pid
    apply tickEach_same _ _ honce hcounted
    · intro pid u u' hrun
      exact tick_grown hrun
    · intro pid u hcounter
      rw [← tick_code, tickBounded]
      have htotal : (u.1 pid).instructionCounter+procManProcessInstructionsPerTick ≤
          procManProcessInstructionsPerTick*(s.1+1) := by
        rw [Nat.mul_add, Nat.mul_one]
        omega
      exact tick_same htotal (le_trans htotal hroom)
  simp only [tickAllIn, hsame]

/-- After the ticks of a part of the processes. -/
theorem tickEach_bounded {s : Counted φ} (hs : Bounded s) {order : List ℕ} (honce : order.Nodup)
    {s' : ProcTable × Logged φ}
    (h : tickEach (procManProcessTick F W) order s.2 = .ok ((), s')) (p : ℕ) :
    (s'.1 p).instructionCounter ≤ procManProcessInstructionsPerTick*(s.1+1) := by
  have hgrown := tickEach_grown (fun pid u u' hrun => code_grown hrun) honce h p
  have hcounter := hs.counters p
  rw [Nat.mul_add, Nat.mul_one]
  split_ifs at hgrown <;> omega

theorem uncounted_bounded {α : Type} {x : ProcManRun (Logged φ) α} (hx : Calms x) {a : α}
    {s s' : Counted φ} (hs : Bounded s) (h : uncounted x s = .ok (a, s')) : Bounded s' := by
  unfold uncounted at h
  cases hrun : x s.2 with
  | error e =>
    rw [hrun] at h
    cases h
  | ok r =>
    rw [hrun] at h
    cases h
    exact ⟨hs.ticks, fun p => le_trans (hx _ _ _ hrun p) (hs.counters p)⟩

theorem newProcess_calms (pid progmemFd procFd : ℕ) (state : ProcManProcessState)
    (files : φ → φ) : Calms (newProcess pid progmemFd procFd state files) := by
  intro s a s' hrun
  cases hrun
  exact calm_update (Nat.zero_le _)

theorem elsewhere_calms (files : φ → φ) : Calms (act F W (.elsewhere files)) := by
  intro s a s' hrun
  cases hrun
  exact calm_refl _

theorem countTick_bounded {s : Counted φ}
    (h : ∀ p, (s.2.1 p).instructionCounter ≤ procManProcessInstructionsPerTick*(s.1+1)) :
    Bounded (countTick s) := by
  unfold countTick
  split
  · exact ⟨reset_pos, fun p => Nat.zero_le _⟩
  · rename_i hmore
    exact ⟨not_le.mp hmore, h⟩

/-- One action keeps the bound. -/
theorem countedAct_bounded {action : CountedAction φ} {s s' : Counted φ} (hs : Bounded s)
    (h : countedAct F W (fun _ => procManProcessTick F W) action s = .ok ((), s')) :
    Bounded s' := by
  cases action with
  | tickAll order once =>
    change tickAllIn (fun _ => procManProcessTick F W) order s = _ at h
    unfold tickAllIn at h
    cases hrun : tickEach (procManProcessTick F W) order s.2 with
    | error e =>
      rw [hrun] at h
      cases h
    | ok r =>
      rw [hrun] at h
      cases h
      exact countTick_bounded (fun p => tickEach_bounded hs once hrun p)
  | kill pid =>
    exact uncounted_bounded (calms_bind (kill_calms _ _ _) (fun _ => calms_pure _)) hs h
  | signal pid signalId => exact uncounted_bounded (calms_beside (sendSignal_calms _ _)) hs h
  | new pid progmemFd procFd state files =>
    exact uncounted_bounded (newProcess_calms _ _ _ _ _) hs h
  | elsewhere files => exact uncounted_bounded (elsewhere_calms (F := F) (W := W) files) hs h

theorem countedAct_same (failure : Fault) (action : CountedAction φ) {s : Counted φ}
    (hs : Bounded s) :
    countedAct F W (tickBounded failure F W) action s =
      countedAct F W (fun _ => procManProcessTick F W) action s := by
  cases action with
  | tickAll order once => exact tickAll_same hs failure once
  | kill | signal | new | elsewhere => simp only [countedAct]

theorem countedRun_bounded (failure : Fault) (actions : List (CountedAction φ)) {s : Counted φ}
    (hs : Bounded s) :
    countedRun F W (tickBounded failure F W) actions s =
        countedRun F W (fun _ => procManProcessTick F W) actions s ∧
      ∀ s', countedRun F W (fun _ => procManProcessTick F W) actions s = .ok ((), s') →
        Bounded s' := by
  induction actions generalizing s with
  | nil =>
    constructor
    · simp only [countedRun]
    · intro s' h
      cases h
      exact hs
  | cons action rest ih =>
    constructor
    · have hsame := countedAct_same (F := F) (W := W) failure action hs
      refine bind_same hsame (fun _ s₁ hfirst => ?_)
      rw [hsame] at hfirst
      exact (ih (countedAct_bounded hs hfirst)).1
    · intro s' h
      obtain ⟨_, s₁, hfirst, hrest⟩ := bind_ok.mp h
      exact (ih (countedAct_bounded hs hfirst)).2 s' hrest

/-- In every run the assert may as well demand the bound of the current tick and
fail in any way: it never does. Between ticks and after the ticks of some of the
processes the counters are within that bound. -/
theorem instructionCounters_bounded (F : Files φ) (W : World φ)
    (actions : List (CountedAction φ)) (files : φ) :
    (∀ failure, countedRun F W (tickBounded failure F W) actions (procManInit files) =
      countedRun F W (fun _ => procManProcessTick F W) actions (procManInit files)) ∧
    ∀ s, countedRun F W (fun _ => procManProcessTick F W) actions (procManInit files) =
        .ok ((), s) →
      procManProcessInstructionsPerTick*(s.1+1) ≤ procManProcessInstructionCounterMax ∧
      (∀ p, (s.2.1 p).instructionCounter ≤ procManProcessInstructionsPerTick*s.1) ∧
      ∀ order, order.Nodup → ∀ s',
        tickEach (procManProcessTick F W) order s.2 = .ok ((), s') →
        ∀ p, (s'.1 p).instructionCounter ≤ procManProcessInstructionsPerTick*(s.1+1) := by
  have hinit : Bounded (procManInit files) := ⟨reset_pos, fun p => Nat.zero_le _⟩
  constructor
  · exact fun failure => (countedRun_bounded failure actions hinit).1
  · intro s hrun
    have hs := (countedRun_bounded .assertFailed actions hinit).2 s hrun
    exact ⟨bounded_room hs, hs.counters, fun order once s' h => tickEach_bounded hs once h⟩

end Runs

end ArduinoOS.Procman
