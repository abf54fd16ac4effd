import ArduinoOS.Kernel.PathRuns
import ArduinoOS.Procman.LoadExact
import ArduinoOS.Procman.ViewFiles

/-!
# The loader

From the name of a program to the file that is left open. What path a name
stands for depends on which files there are; from there on the loop over
interpreters is right exactly on the scripts that it handles.
-/

set_option autoImplicit false

namespace ArduinoOS.Procman
open ArduinoOS.CBuffer ArduinoOS.Faulting ArduinoOS.Kernel

section Answers

variable {φ : Type} {I : φ → Prop} {α β : Type}

/-- From every state of the set the run answers what this one answers. -/
def Answers (I : φ → Prop) (x : Run φ Fault α) (y : Run Unit Fault α) : Prop :=
  Gives I x ((y ()).map Prod.fst)

theorem answers_pure (a : α) : Answers I (pure a) (pure a) := gives_pure a

theorem answers_throw (e : Fault) : Answers I (throw e : Run φ Fault α) (throw e) :=
  fun _ _ => rfl

theorem answers_onBuffer (x : Except Trap α) : Answers I (onBuffer x) (onBuffer x) := by
  cases x with
  | error t => exact fun _ _ => rfl
  | ok a => exact gives_pure a

theorem answers_bind {x : Run φ Fault α} {y : Run Unit Fault α} {f : α → Run φ Fault β}
    {g : α → Run Unit Fault β} (hx : Answers I x y) (hf : ∀ a, Answers I (f a) (g a)) :
    Answers I (x >>= f) (y >>= g) := by
  rw [Answers] at hx
  cases hy : y () with
  | error e =>
    rw [hy] at hx
    rw [Answers, bind_error.mpr (Or.inl hy)]
    exact gives_fault hx
  | ok r =>
    rw [hy] at hx
    rw [Answers, bind_of_ok hy]
    exact gives_bind hx (hf r.1)

theorem answers_pathOf (b : Buffer) : Answers I (pathOf b) (pathOf b) :=
  answers_bind (answers_onBuffer _) (fun _ => answers_pure _)

/-- The end of `execPathOf`: a path that does not start with a slash is in this directory. -/
def fromPwd (steps : ℕ) (argv : Buffer) (envPwd : Option Buffer) (execPath : Buffer) :
    Run φ Fault Buffer :=
  match envPwd with
  | none => pure execPath
  | some envPwd => do
      let c ← onBuffer (CBuffer.get execPath 0)
      if c = 47 then pure execPath
      else do
        let pwd ← onBuffer (stringAt envPwd 0)
        onBuffer (joinPath steps execPath pwd.dropLast argv)

theorem answers_fromPwd (steps : ℕ) (argv : Buffer) (envPwd : Option Buffer) (execPath : Buffer) :
    Answers I (fromPwd steps argv envPwd execPath) (fromPwd steps argv envPwd execPath) := by
  cases envPwd with
  | none => exact answers_pure _
  | some envPwd =>
    rw [fromPwd, fromPwd]
    apply answers_bind (answers_onBuffer _)
    intro c
    by_cases hslash : c = 47
    · rw [if_pos hslash, if_pos hslash]
      exact answers_pure _
    · rw [if_neg hslash, if_neg hslash]
      apply answers_bind (answers_onBuffer _)
      intro pwd
      exact answers_onBuffer _

variable {F : Files φ} {present : CStr → Bool} {steps : ℕ}
  (hexists : ∀ path, Gives I (F.kernelFsFileExists path) (.ok (present path)))

include hexists

theorem answers_searchPath (argv envPath : Buffer) (left : ℕ) : ∀ (execPath : Buffer) (ptr : ℕ),
    Answers I (searchPath F steps execPath argv envPath ptr left)
      (searchPath (presentFiles present) steps execPath argv envPath ptr left) := by
  induction left with
  | zero =>
    intro execPath ptr
    exact answers_throw _
  | succ left ih =>
    intro execPath ptr
    rw [searchPath, searchPath]
    apply answers_bind (answers_onBuffer _)
    intro c
    by_cases hend : c = 0
    · rw [if_pos hend, if_pos hend]
      exact answers_pure _
    rw [if_neg hend, if_neg hend]
    apply answers_bind (answers_onBuffer _)
    intro part
    by_cases hnil : part.1 = []
    · rw [if_pos hnil, if_pos hnil]
      exact answers_bind (answers_onBuffer _) (fun execPath => ih execPath part.2)
    rw [if_neg hnil, if_neg hnil]
    apply answers_bind (answers_onBuffer _)
    intro candidate
    apply answers_bind (answers_pathOf _)
    intro path
    refine answers_bind (hexists path) ?_
    intro found
    cases found with
    | true => exact answers_pure _
    | false =>
      apply answers_bind (answers_onBuffer _)
      intro execPath
      apply answers_bind (answers_onBuffer _)
      intro execPath
      exact ih execPath part.2

variable (steps) in
/-- The path of a program depends on which files there are. -/
theorem answers_execPathOf (scratch argv : Buffer) (envPath envPwd : Option Buffer) :
    Answers I (execPathOf F steps scratch argv envPath envPwd)
      (execPathOf (presentFiles present) steps scratch argv envPath envPwd) := by
  rw [execPathOf, execPathOf]
  apply answers_bind (answers_onBuffer _)
  intro execPath
  apply answers_bind (answers_onBuffer _)
  intro execPath
  cases envPath with
  | none => exact answers_bind (answers_pure _) (fun b => answers_fromPwd steps argv envPwd b)
  | some envPath =>
    apply answers_bind (answers_onBuffer _)
    intro slash
    cases slash with
    | some _ => exact answers_bind (answers_pure _) (fun b => answers_fromPwd steps argv envPwd b)
    | none =>
      exact answers_bind (answers_searchPath hexists argv envPath steps execPath 0)
        (fun b => answers_fromPwd steps argv envPwd b)

end Answers

section Loader

variable {φ : Type} {F : Files φ} {Inv : φ → Prop} {fds : φ → ℕ → Option OpenFile} {d : Disk}
  {steps argc : ℕ} {scratch : Scratch} {argv : Buffer} {envPath envPwd : Option Buffer}
  {arg0 : CStr} {s : φ}

/-- The first argument fits the buffer of the path, when that can be made. -/
theorem arg0_short {present : CStr → Bool} {b : Buffer} {path : CStr} (hsized : scratch.Sized)
    (harg : Shows argv arg0)
    (hpath : PathFor present steps scratch.execPath argv envPath envPwd b path) :
    arg0.length < KernelFsPathMax := by
  have hrun := hpath.1
  rw [execPathOf] at hrun
  obtain ⟨execPath, s', hcopy, -⟩ := bind_ok.mp hrun
  rw [onBuffer, strcpy, stringAt_shows harg, ok_bind, memcpy] at hcopy
  split at hcopy
  case isTrue hfits =>
    rw [CStr.bytes_length, hsized.execPath] at hfits
    omega
  case isFalse => cases hcopy

variable (hs : Serves F Inv fds d) (hsized : scratch.Sized) (hroom : argv.length = 256)
  (harg : Shows argv arg0) (hidle : Idle Inv fds d s)

include hs hidle

/-- The path that the loader starts from. -/
theorem path_run {b : Buffer} {path : CStr}
    (hpath : PathFor d.present steps scratch.execPath argv envPath envPwd b path) :
    ∃ s₁, execPathOf F steps scratch.execPath argv envPath envPwd s = .ok (b, s₁) ∧
      Idle Inv fds d s₁ := by
  have hanswers := answers_execPathOf steps hs.fileExists scratch.execPath argv envPath
    envPwd s hidle
  rw [hpath.1] at hanswers
  exact hanswers

variable (argc) in
theorem refused_run {b : Buffer} {path : CStr}
    (hpath : PathFor d.present steps scratch.execPath argv envPath envPwd b path)
    (hrefused : kernelFsPathIsValid path = false ∨ d.directory path = true) :
    ∃ s', procManProcessLoadProgmemFileTraced F steps scratch argc argv envPath envPwd s =
      .ok (([], none), s') ∧ Idle Inv fds d s' := by
  obtain ⟨s₁, hrun, hidle₁⟩ := path_run hs hidle hpath
  rw [procManProcessLoadProgmemFileTraced, bind_of_ok hrun, bind_of_ok (pathOf_shows hpath.2 s₁)]
  by_cases hvalid : kernelFsPathIsValid path = false
  · rw [if_pos hvalid]
    exact ⟨s₁, rfl, hidle₁⟩
  · have hdir := hrefused.resolve_left hvalid
    obtain ⟨s₂, hisDir, hidle₂⟩ := hs.isDir path s₁ hidle₁
    rw [if_neg hvalid, bind_of_ok hisDir, if_pos hdir]
    exact ⟨s₂, rfl, hidle₂⟩

variable (argc) in
theorem loop_run {b : Buffer} {path : CStr}
    (hpath : PathFor d.present steps scratch.execPath argv envPath envPwd b path)
    (hgood : ¬ (kernelFsPathIsValid path = false ∨ d.directory path = true)) :
    ComesTo Inv fds d
      (procManProcessLoadProgmemFileTraced F steps scratch argc argv envPath envPwd) s
      (loadTrace d steps scratch.interpreterPath b argc argv magicByteRecursionCountMax) := by
  obtain ⟨s₁, hrun, hidle₁⟩ := path_run hs hidle hpath
  obtain ⟨s₂, hisDir, hidle₂⟩ := hs.isDir path s₁ hidle₁
  rw [procManProcessLoadProgmemFileTraced]
  apply comesTo_of_ok hrun
  apply comesTo_of_ok (pathOf_shows hpath.2 s₁)
  rw [if_neg (fun hvalid => hgood (Or.inl hvalid))]
  apply comesTo_of_ok hisDir
  rw [if_neg (fun hdir => hgood (Or.inr hdir))]
  exact loadTrace_run hs _ _ _ _ _ _ hidle₂

/-- The loop of the loader is right where the contents say so. -/
theorem right_iff_traces {b : Buffer} {path : CStr}
    (hpath : PathFor d.present steps scratch.execPath argv envPath envPwd b path)
    (hgood : ¬ (kernelFsPathIsValid path = false ∨ d.directory path = true)) :
    (∃ tried loaded s',
      procManProcessLoadProgmemFileTraced F steps scratch argc argv envPath envPwd s =
        .ok ((tried, loaded), s') ∧
      Trail d steps magicByteRecursionCountMax scratch.interpreterPath path argc argv tried
        (loaded.map Loaded.args) ∧ LeftOpen Inv fds d tried loaded s') ↔
      Traces d steps magicByteRecursionCountMax scratch.interpreterPath b path argc argv := by
  have hcomes := loop_run argc hs hidle hpath hgood
  cases htrace : loadTrace d steps scratch.interpreterPath b argc argv
      magicByteRecursionCountMax with
  | error t =>
    rw [htrace] at hcomes
    have herror : procManProcessLoadProgmemFileTraced F steps scratch argc argv envPath envPwd s =
      .error (trapFault t) := hcomes
    constructor
    · rintro ⟨tried, loaded, s', hrun, -⟩
      rw [herror] at hrun
      cases hrun
    · rintro ⟨tried, found, hrun, -⟩
      rw [htrace] at hrun
      cases hrun
  | ok r =>
    rw [htrace] at hcomes
    obtain ⟨loaded, s', hrun, hfound, hleft⟩ := hcomes
    constructor
    · rintro ⟨tried, loaded', s'', hrun', htrail, -⟩
      rw [hrun] at hrun'
      cases hrun'
      exact ⟨r.1, _, htrace, hfound ▸ htrail⟩
    · rintro ⟨tried, found, htrace', htrail⟩
      rw [htrace] at htrace'
      cases htrace'
      refine ⟨_, loaded, s', hrun, ?_, hleft⟩
      rw [hfound]
      exact htrail

include hsized hroom harg

/-- With this much fuel for each path, the loader is right exactly on what it handles. -/
theorem loadRight_iff :
    LoadRight F Inv fds d steps scratch argc argv envPath envPwd s ↔
      LoadKept d steps scratch argv envPath envPwd arg0 := by
  have hmax : magicByteRecursionCountMax = 7+1 := rfl
  constructor
  · rintro ⟨tried, loaded, s', b, path, hrun, hpath, hright, -, hleft⟩
    refine ⟨b, path, hpath, ?_⟩
    by_cases hgood : kernelFsPathIsValid path = false ∨ d.directory path = true
    · exact hgood.imp_right Or.inl
    · rw [if_neg hgood] at hright
      have htraces := (right_iff_traces hs hidle hpath hgood).mp ⟨_, _, _, hrun, hright, hleft⟩
      have hprep : Prepared scratch.interpreterPath b argv path arg0 :=
        ⟨hsized.interpreterPath, hroom, hpath.2, harg, arg0_short hsized harg hpath⟩
      exact .inr (.inr ((traces_iff 7 _ _ _ _ _ _ hprep).mp htraces))
  · rintro ⟨b, path, hpath, hkept⟩
    by_cases hgood : kernelFsPathIsValid path = false ∨ d.directory path = true
    · obtain ⟨s', hrun, hidle'⟩ := refused_run argc hs hidle hpath hgood
      refine ⟨[], none, s', b, path, hrun, hpath, ?_, Nat.zero_le _, hidle'⟩
      rw [if_pos hgood]
      exact ⟨rfl, rfl⟩
    · have hscripts := (hkept.resolve_left (fun h => hgood (Or.inl h))).resolve_left
        (fun h => hgood (Or.inr h))
      have hprep : Prepared scratch.interpreterPath b argv path arg0 :=
        ⟨hsized.interpreterPath, hroom, hpath.2, harg, arg0_short hsized harg hpath⟩
      obtain ⟨tried, loaded, s', hrun, htrail, hleft⟩ := (right_iff_traces hs hidle hpath hgood).mpr
        ((traces_iff 7 _ _ _ _ _ argc hprep).mpr hscripts)
      refine ⟨tried, loaded, s', b, path, hrun, hpath, ?_, trail_length htrail, hleft⟩
      rw [if_neg hgood]
      exact htrail

end Loader

/-! ### Files that are their own view -/

/-- These files, with none of them open. -/
def closedDisk (file : CStr → Option (List UInt8)) : Disk where
  table _ := none
  content := file
  present path := (file path).isSome
  directory _ := false

section Views

variable {file : CStr → Option (List UInt8)} {v : FsView}

theorem closed_not_open (h : v.fd = fun _ => none) (path : CStr) : v.isOpen path = false := by
  simp [FsView.isOpen, h]

theorem closed_freeFd (h : v.fd = fun _ => none) : v.freeFd ≠ 0 := by
  rw [FsView.freeFd, h]
  decide

theorem viewFiles_serves (file : CStr → Option (List UInt8)) :
    Serves viewFiles (fun v => v.file = file) FsView.fd (closedDisk file) where
  openNone v path hidle hnone := by
    refine ⟨v, ?_, hidle⟩
    have hfile : v.file path = none := by
      rw [hidle.1]
      exact hnone
    have hopen : v.openFile path KernelFsFdModeRO = (0, v) := by
      rw [FsView.openFile, hfile]
      rfl
    exact congrArg Except.ok hopen
  openSome v path hidle hsome := by
    have hfile : ¬ (v.file path).isNone = true := by
      rw [hidle.1, Option.isNone_iff_eq_none]
      exact hsome
    have hfree := closed_freeFd hidle.2
    have hopen : v.openFile path KernelFsFdModeRO =
        (v.freeFd, v.setFd v.freeFd (some ⟨path, KernelFsFdModeRO, 1⟩)) := by
      rw [FsView.openFile, if_neg]
      rintro (hnone | hopen | hzero)
      · exact hfile hnone
      · rw [closed_not_open hidle.2] at hopen
        cases hopen
      · exact hfree hzero
    refine ⟨v.freeFd, _, congrArg Except.ok hopen, hfree, hidle.1, rfl, ?_⟩
    funext i
    rw [FsView.setFd_fd, Function.update_apply, hidle.2]
  read v fd path c offset len hheld hc := by
    obtain ⟨hfile, -, hfds⟩ := hheld
    have hread : v.readOffset fd offset len = (c.drop offset).take len := by
      have hfd : v.fd fd = some ⟨path, KernelFsFdModeRO, 1⟩ := by
        rw [hfds, Function.update_self]
      have hc' : v.file path = some c := by
        rw [hfile]
        exact hc
      simp [FsView.readOffset, FsView.content, hfd, hc', KernelFsFdModeRO]
    refine ⟨v, ?_, hfile, rfl, hfds⟩
    rw [← hread]
    rfl
  close v fd path hheld := by
    obtain ⟨hfile, -, hfds⟩ := hheld
    have hfd : v.fd fd = some ⟨path, KernelFsFdModeRO, 1⟩ := by
      rw [hfds, Function.update_self]
    have hclose : v.close fd = (0, v.setFd fd none) := by
      rw [FsView.close, hfd]
      rfl
    refine ⟨0, v.setFd fd none, congrArg Except.ok hclose, hfile, ?_⟩
    funext i
    rw [FsView.setFd_fd, hfds]
    by_cases hi : i = fd
    · rw [if_pos hi]
      rfl
    · rw [if_neg hi, Function.update_of_ne hi]
  fileExists path v hidle := by
    refine ⟨v, ?_, hidle⟩
    rw [closedDisk, ← hidle.1]
    rfl
  isDir path v hidle := ⟨v, rfl, hidle⟩

end Views

/-! ### A script and its interpreter -/

/-- The script `/s` of one line, these bytes behind it, and a native program `/i`. -/
def scriptFiles (behind : List UInt8) (path : CStr) : Option (List UInt8) :=
  if path = CStr.lit "/s" then some ([35, 33]++([47, 105]++10::behind))
  else if path = CStr.lit "/i" then some [47, 47]
  else none

def scriptScratch : Scratch where
  argv := List.replicate 256 0
  tempPwd := List.replicate 64 0
  tempPath := List.replicate 64 0
  execPath := List.replicate 64 0
  interpreterPath := List.replicate 64 0

theorem scriptScratch_sized : scriptScratch.Sized := by
  constructor <;> exact List.length_replicate

def scriptArgv : Buffer := [47, 115]++List.replicate 254 0

theorem scriptArgv_length : scriptArgv.length = 256 := by
  rw [scriptArgv, List.length_append, List.length_replicate]
  rfl

theorem scriptArgv_shows : Shows scriptArgv (CStr.lit "/s") := ⟨List.replicate 253 0, rfl⟩

theorem script_isScript (behind : List UInt8) :
    IsScript ([35, 33]++([47, 105]++10::behind)) [47, 105] behind :=
  ⟨rfl, by decide, by decide⟩

theorem script_settled : Settled (CStr.lit "/s") := by
  have hdots : dot ∉ CStr.lit "/s" := by decide
  refine ⟨fun P R hs => ?_, fun P R hs => ?_, fun P R hs => ?_, fun P R hs => ?_⟩
  · simp [hs] at hdots
  · simp [hs] at hdots
  · simp [hs] at hdots
  · have hcount : (CStr.lit "/s").count slash = 1 := by decide
    rw [hs, List.count_append, List.count_cons_self, List.count_cons_self] at hcount
    omega

theorem script_copied : strcpy scriptScratch.execPath scriptArgv 0 =
    .ok ([47, 115]++List.replicate 62 0) := by
  rw [strcpy, stringAt_shows scriptArgv_shows]
  rfl

theorem script_path {behind : List UInt8} {steps : ℕ} {b : Buffer} {path : CStr}
    (h : PathFor (closedDisk (scriptFiles behind)).present steps scriptScratch.execPath scriptArgv
      none none b path) : path = CStr.lit "/s" := by
  have hshows : Shows ([47, 115]++List.replicate 62 0) (CStr.lit "/s") :=
    ⟨List.replicate 61 0, rfl⟩
  have hrun := h.1
  rw [execPathOf, script_copied] at hrun
  obtain ⟨copied, s₁, hcopied, hrun⟩ := bind_ok.mp hrun
  cases hcopied
  obtain ⟨normal, s₂, hnormal, hrun⟩ := bind_ok.mp hrun
  cases hn : kernelFsPathNormalise steps ([47, 115]++List.replicate 62 0) with
  | error t =>
    rw [hn] at hnormal
    cases hnormal
  | ok b' =>
    rw [hn] at hnormal
    cases hnormal
    cases hrun
    exact shows_unique h.2 (settled_shown hshows script_settled rfl rfl hn)

end ArduinoOS.Procman
