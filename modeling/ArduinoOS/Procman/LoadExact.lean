import ArduinoOS.Procman.LoadLines

/-!
# When interpreters are resolved

What the loader tries and answers depends on the contents of the files alone.
On these, it resolves scripts as it is to exactly where every script on the way
is one that it handles.
-/

set_option autoImplicit false

namespace ArduinoOS.Procman
open ArduinoOS.CBuffer ArduinoOS.Faulting ArduinoOS.Kernel

instance (c : List UInt8) : Decidable (IsNative c) := inferInstanceAs (Decidable (_ = _))

/-! ### The loop on contents -/

/-- `loadLoopTraced`, on the contents; a loaded program is its arguments. -/
def loadTrace (d : Disk) (steps : ℕ) (interpreterPath loopExecFile : Buffer) (argc : ℕ)
    (argv : Buffer) : ℕ → Except Trap (List Tried × Option (ℕ × Buffer))
  | 0 => .ok ([], none)
  | left+1 => do
      let bytes ← stringAt loopExecFile 0
      let path := charsOf bytes
      match d.content path with
      | none => .ok ([⟨path, argc, argv⟩], none)
      | some c =>
          if IsNative c then .ok ([⟨path, argc, argv⟩], some (argc, argv))
          else if c.take 2 = [35, 33] then do
            let interpreter ← interpreterIn steps interpreterPath (c.drop 2)
            match interpreter with
            | none => .ok ([⟨path, argc, argv⟩], none)
            | some interpreter => do
                let argv' ← procManArgvUpdateForInterpreter argv interpreter
                let r ← loadTrace d steps interpreter argv' 2 argv' left
                .ok (⟨path, argc, argv⟩::r.1, r.2)
          else .ok ([⟨path, argc, argv⟩], none)

section Runs

variable {φ : Type} {F : Files φ} {Inv : φ → Prop} {fds : φ → ℕ → Option OpenFile} {d : Disk}
  {steps : ℕ}

/-- From this state the run comes to this. -/
def ComesTo (Inv : φ → Prop) (fds : φ → ℕ → Option OpenFile) (d : Disk)
    (x : Run φ Fault (List Tried × Option Loaded)) (s : φ)
    (r : Except Trap (List Tried × Option (ℕ × Buffer))) : Prop :=
  match r with
  | .error t => x s = .error (trapFault t)
  | .ok (tried, found) => ∃ loaded s', x s = .ok ((tried, loaded), s') ∧
      loaded.map Loaded.args = found ∧ LeftOpen Inv fds d tried loaded s'

theorem onBuffer_bind {α β : Type} (x : Except Trap α) (f : α → Except Trap β) :
    (onBuffer (x >>= f) : Run φ Fault β) = onBuffer x >>= fun a => onBuffer (f a) := by
  cases x <;> rfl

theorem onBuffer_of_ok {α : Type} {x : Except Trap α} {a : α} (h : x = .ok a) (s : φ) :
    (onBuffer x : Run φ Fault α) s = .ok (a, s) := by
  rw [h]
  rfl

theorem onBuffer_of_error {α : Type} {x : Except Trap α} {t : Trap} (h : x = .error t) (s : φ) :
    (onBuffer x : Run φ Fault α) s = .error (trapFault t) := by
  rw [h]
  rfl

theorem bind_from {α β : Type} {x y : Run φ Fault α} {f : α → Run φ Fault β} {s s₁ : φ}
    (h : x s = y s₁) : (x >>= f) s = (y >>= f) s₁ := by
  change (x s >>= fun r => f r.1 r.2) = (y s₁ >>= fun r => f r.1 r.2)
  rw [h]

/-- Two runs that answer the same come to the same. -/
theorem comesTo_of_same {x y : Run φ Fault (List Tried × Option Loaded)} {s s₁ : φ}
    {r : Except Trap (List Tried × Option (ℕ × Buffer))} (hx : x s = y s₁)
    (hy : ComesTo Inv fds d y s₁ r) : ComesTo Inv fds d x s r := by
  cases r with
  | error t => exact hx.trans hy
  | ok r =>
    obtain ⟨loaded, s', hrun, hrest⟩ := hy
    exact ⟨loaded, s', hx.trans hrun, hrest⟩

theorem comesTo_of_ok {α : Type} {x : Run φ Fault α} {a : α} {s s₁ : φ}
    {f : α → Run φ Fault (List Tried × Option Loaded)}
    {r : Except Trap (List Tried × Option (ℕ × Buffer))} (hx : x s = .ok (a, s₁))
    (hf : ComesTo Inv fds d (f a) s₁ r) : ComesTo Inv fds d (x >>= f) s r :=
  comesTo_of_same (bind_of_ok hx) hf

theorem comesTo_onBuffer {α : Type} {x : Except Trap α} {s : φ}
    {f : α → Run φ Fault (List Tried × Option Loaded)}
    {g : α → Except Trap (List Tried × Option (ℕ × Buffer))}
    (hf : ∀ a, x = .ok a → ComesTo Inv fds d (f a) s (g a)) :
    ComesTo Inv fds d (onBuffer x >>= f) s (x >>= g) := by
  cases x with
  | error t => exact bind_error.mpr (Or.inl rfl)
  | ok a => exact comesTo_of_ok (onBuffer_of_ok rfl s) (hf a rfl)

/-- One file more was tried, in front of the others. -/
theorem comesTo_cons {x : Run φ Fault (List Tried × Option Loaded)} {s : φ}
    {r : Except Trap (List Tried × Option (ℕ × Buffer))} (hx : ComesTo Inv fds d x s r) (t : Tried) :
    ComesTo Inv fds d (x >>= fun r => pure (t::r.1, r.2)) s
      (r >>= fun r => .ok (t::r.1, r.2)) := by
  cases r with
  | error e => exact bind_error.mpr (Or.inl hx)
  | ok r =>
    obtain ⟨loaded, s', hrun, hfound, hleft⟩ := hx
    refine ⟨loaded, s', bind_of_ok hrun, hfound, ?_⟩
    cases loaded with
    | none => exact hleft
    | some l =>
      obtain ⟨hfd, path, c, hlast, hrest⟩ := hleft
      refine ⟨hfd, path, c, ?_, hrest⟩
      rw [List.getLast?_cons]
      cases hr : r.1.getLast? with
      | none =>
        rw [hr] at hlast
        cases hlast
      | some last =>
        rw [hr] at hlast
        exact hlast

variable (hs : Serves F Inv fds d)

include hs

variable (steps) in
/-- The line of a script, from the file that is open. -/
theorem interpreterOf_run {fd : ℕ} {path : CStr} {c : List UInt8} {s : φ}
    (hopen : Holding Inv fds d fd path s) (hc : d.content path = some c) (interpreterPath : Buffer) :
    ∃ s', interpreterOf F steps interpreterPath fd s =
        (onBuffer (interpreterIn steps interpreterPath (c.drop 2)) : Run φ Fault _) s' ∧
      Holding Inv fds d fd path s' := by
  obtain ⟨s', hread, hopen'⟩ := hs.read s fd path c 2 KernelFsPathMax hopen hc
  refine ⟨s', ?_, hopen'⟩
  rw [interpreterOf, bind_of_ok hread, interpreterIn, onBuffer_bind]
  apply congrFun
  apply bind_congr
  intro b
  by_cases hnone : ((c.drop 2).take KernelFsPathMax).length = 0
  · rw [if_pos hnone, if_pos hnone]
    rfl
  · rw [if_neg hnone, if_neg hnone, onBuffer_bind]
    apply bind_congr
    intro b
    rw [onBuffer_bind]
    apply bind_congr
    intro newline
    cases newline with
    | none => rfl
    | some newline =>
      dsimp only
      rw [onBuffer_bind]
      apply bind_congr
      intro b
      rw [onBuffer_bind]
      rfl

/-- The magic bytes, from the file that is open. -/
theorem magic_run {fd : ℕ} {path : CStr} {c : List UInt8} {s : φ}
    (hopen : Holding Inv fds d fd path s) (hc : d.content path = some c) :
    ∃ s', readFully F fd 0 2 s = .ok (if c.length < 2 then none else some (c.take 2), s') ∧
      Holding Inv fds d fd path s' := by
  obtain ⟨s', hread, hopen'⟩ := hs.read s fd path c 0 2 hopen hc
  refine ⟨s', ?_, hopen'⟩
  have hlength : ((c.drop 0).take 2).length = 2 ↔ ¬ c.length < 2 := by
    rw [List.drop_zero, List.length_take]
    omega
  rw [readFully, bind_of_ok hread]
  by_cases hshort : c.length < 2
  · rw [if_pos hshort, if_neg (fun h => hlength.mp h hshort)]
    rfl
  · rw [if_neg hshort, if_pos (hlength.mpr hshort)]
    rfl

/-- The loop of the loader comes to what the contents say. -/
theorem loadTrace_run (left : ℕ) : ∀ (interpreterPath loopExecFile : Buffer) (argc : ℕ)
    (argv : Buffer) (s : φ), Idle Inv fds d s →
    ComesTo Inv fds d (loadLoopTraced F steps interpreterPath loopExecFile argv argc left) s
      (loadTrace d steps interpreterPath loopExecFile argc argv left) := by
  induction left with
  | zero =>
    intro interpreterPath loopExecFile argc argv s hidle
    exact ⟨none, s, rfl, rfl, hidle⟩
  | succ left ih =>
    intro interpreterPath loopExecFile argc argv s hidle
    rw [loadLoopTraced, loadTrace, pathOf, bind_assoc]
    apply comesTo_onBuffer
    intro bytes _
    rw [pure_bind]
    dsimp only
    cases hc : d.content (charsOf bytes) with
    | none =>
      obtain ⟨s₁, hopen, hidle₁⟩ := hs.openNone s _ hidle hc
      apply comesTo_of_ok hopen
      rw [if_pos rfl]
      exact ⟨none, s₁, rfl, rfl, hidle₁⟩
    | some c =>
      obtain ⟨fd, s₁, hopen, hfd, hheld⟩ := hs.openSome s (charsOf bytes) hidle
        (by rw [hc]; exact Option.some_ne_none c)
      obtain ⟨s₂, hmagic, hheld₂⟩ := magic_run hs hheld hc
      apply comesTo_of_ok hopen
      rw [if_neg hfd]
      apply comesTo_of_ok hmagic
      by_cases hshort : c.length < 2
      · obtain ⟨k, s₃, hclose, hidle₃⟩ := hs.close s₂ fd _ hheld₂
        have hnative : ¬ IsNative c := by
          intro h
          have hlength := congrArg List.length h
          simp at hlength
          omega
        have hscript : ¬ c.take 2 = [35, 33] := by
          intro h
          have hlength := congrArg List.length h
          simp at hlength
          omega
        rw [if_pos hshort]
        dsimp only
        rw [if_neg hnative, if_neg hscript]
        exact comesTo_of_ok hclose ⟨none, s₃, rfl, rfl, hidle₃⟩
      rw [if_neg hshort]
      dsimp only
      by_cases hnative : IsNative c
      · rw [if_pos (show c.take 2 = _ from hnative), if_pos hnative]
        exact ⟨some ⟨fd, argc, argv⟩, s₂, rfl, rfl, hfd, _, c, rfl, hc, hnative, hheld₂⟩
      rw [if_neg (show ¬ c.take 2 = _ from hnative), if_neg hnative]
      by_cases hscript : c.take 2 = [35, 33]
      · rw [if_pos hscript, if_pos hscript]
        obtain ⟨s₃, hline, hheld₃⟩ := interpreterOf_run steps hs hheld₂ hc
          interpreterPath
        refine comesTo_of_same (bind_from hline) (comesTo_onBuffer ?_)
        intro interpreter _
        obtain ⟨k, s₄, hclose, hidle₄⟩ := hs.close s₃ fd _ hheld₃
        apply comesTo_of_ok hclose
        cases interpreter with
        | none => exact ⟨none, s₄, rfl, rfl, hidle₄⟩
        | some interpreter =>
          apply comesTo_onBuffer
          intro argv' _
          exact comesTo_cons (ih interpreter argv' 2 argv' s₄ hidle₄) _
      · obtain ⟨k, s₃, hclose, hidle₃⟩ := hs.close s₂ fd _ hheld₂
        rw [if_neg hscript, if_neg hscript]
        exact comesTo_of_ok hclose ⟨none, s₃, rfl, rfl, hidle₃⟩

end Runs

/-! ### The trail -/

section Trails

variable {d : Disk} {steps left argc : ℕ} {interpreterPath loopExecFile argv : Buffer}
  {path arg0 : CStr} {tried : List Tried} {found : Option (ℕ × Buffer)}
  {c line behind : List UInt8}

theorem trail_head (h : Trail d steps left interpreterPath path argc argv tried found) :
    tried.head? = some ⟨path, argc, argv⟩ := by
  cases h <;> rfl

theorem trail_length (h : Trail d steps left interpreterPath path argc argv tried found) :
    tried.length ≤ left := by
  induction h with
  | absent | native | refused => exact Nat.succ_le_succ (Nat.zero_le _)
  | last => exact Nat.le_refl 1
  | script _ _ _ _ _ ih => exact Nat.succ_le_succ ih

theorem IsScript.magic (h : IsScript c line behind) :
    c.take 2 = [35, 33] ∧ c.drop 2 = line++10::behind := by
  rw [h.content]
  exact ⟨rfl, rfl⟩

theorem IsScript.not_native (h : IsScript c line behind) : ¬ IsNative c := by
  rw [IsNative, h.magic.1]
  decide

theorem line_unique {x : UInt8} {line' behind' : List UInt8} (hline : x ∉ line)
    (hline' : x ∉ line') (h : line'++x::behind' = line++x::behind) :
    line' = line ∧ behind' = behind := by
  induction line' generalizing line with
  | nil =>
    cases line with
    | nil => exact ⟨rfl, (List.cons.inj h).2⟩
    | cons y line => exact absurd ((List.cons.inj h).1 ▸ List.mem_cons_self ..) hline
  | cons y line' ih =>
    cases line with
    | nil => exact absurd ((List.cons.inj h).1 ▸ List.mem_cons_self ..) hline'
    | cons z line =>
      obtain ⟨rfl, hrest⟩ := List.cons.inj h
      obtain ⟨rfl, rfl⟩ := ih (fun hx => hline (List.mem_cons_of_mem _ hx))
        (fun hx => hline' (List.mem_cons_of_mem _ hx)) hrest
      exact ⟨rfl, rfl⟩

/-- A script has one first line. -/
theorem IsScript.unique {line' behind' : List UInt8} (h : IsScript c line behind)
    (h' : IsScript c line' behind') : line' = line ∧ behind' = behind :=
  line_unique h.ends h'.ends (List.append_cancel_left (h'.content.symm.trans h.content))

/-- The loop tries these files, and these are the right ones. -/
def Traces (d : Disk) (steps left : ℕ) (interpreterPath loopExecFile : Buffer) (path : CStr)
    (argc : ℕ) (argv : Buffer) : Prop :=
  ∃ tried found, loadTrace d steps interpreterPath loopExecFile argc argv left =
    .ok (tried, found) ∧ Trail d steps left interpreterPath path argc argv tried found

/-- What the loop needs of its buffers. -/
structure Prepared (interpreterPath loopExecFile argv : Buffer) (path arg0 : CStr) : Prop where
  sized : interpreterPath.length = KernelFsPathMax
  room : argv.length = 256
  shown : Shows loopExecFile path
  first : Shows argv arg0
  short : arg0.length < KernelFsPathMax

theorem loadTrace_succ (h : Shows loopExecFile path) :
    loadTrace d steps interpreterPath loopExecFile argc argv (left+1) =
      match d.content path with
      | none => .ok ([⟨path, argc, argv⟩], none)
      | some c =>
          if IsNative c then .ok ([⟨path, argc, argv⟩], some (argc, argv))
          else if c.take 2 = [35, 33] then do
            let interpreter ← interpreterIn steps interpreterPath (c.drop 2)
            match interpreter with
            | none => .ok ([⟨path, argc, argv⟩], none)
            | some interpreter => do
                let argv' ← procManArgvUpdateForInterpreter argv interpreter
                let r ← loadTrace d steps interpreter argv' 2 argv' left
                .ok (⟨path, argc, argv⟩::r.1, r.2)
          else .ok ([⟨path, argc, argv⟩], none) := by
  rw [loadTrace, stringAt_shows h, ok_bind]
  dsimp only
  rw [charsOf_bytes]

theorem loadTrace_head (h : Shows loopExecFile path)
    (hrun : loadTrace d steps interpreterPath loopExecFile argc argv (left+1) =
      .ok (tried, found)) : tried.head? = some ⟨path, argc, argv⟩ := by
  rw [loadTrace_succ h] at hrun
  split at hrun
  case h_1 =>
    cases hrun
    rfl
  case h_2 c hc =>
    split at hrun
    case isTrue =>
      cases hrun
      rfl
    case isFalse =>
      split at hrun
      case isFalse =>
        cases hrun
        rfl
      case isTrue =>
        cases hline : interpreterIn steps interpreterPath (c.drop 2) with
        | error t =>
          rw [hline] at hrun
          cases hrun
        | ok interpreter =>
          rw [hline, ok_bind] at hrun
          cases interpreter with
          | none =>
            cases hrun
            rfl
          | some interpreter =>
            dsimp only at hrun
            cases hargv : procManArgvUpdateForInterpreter argv interpreter with
            | error t =>
              rw [hargv] at hrun
              cases hrun
            | ok argv' =>
              rw [hargv, ok_bind] at hrun
              cases hrest : loadTrace d steps interpreter argv' 2 argv' left with
              | error t =>
                rw [hrest] at hrun
                cases hrun
              | ok r =>
                rw [hrest] at hrun
                cases hrun
                rfl

/-- Behind the same string a buffer shows one other. -/
theorem second_unique {b : Buffer} {s t u : CStr} (ht : s.bytes++t.bytes <+: b)
    (hu : s.bytes++u.bytes <+: b) : t = u := by
  obtain ⟨x, rfl⟩ := ht
  obtain ⟨y, hy⟩ := hu
  rw [List.append_assoc, List.append_assoc] at hy
  have hsame := List.append_cancel_left hy
  exact shows_unique (List.prefix_append t.bytes x) ⟨y, hsame⟩

variable (steps left argc) in
/-- A line that is not found is passed over, and the loader gives up. -/
theorem loadTrace_missed (hprep : Prepared interpreterPath loopExecFile argv path arg0)
    (hc : d.content path = some c) (hscript : c.take 2 = [35, 33]) (hne : c.drop 2 ≠ [])
    (hmissed : ∀ line behind, IsScript c line behind → ¬ LineFound line behind) :
    loadTrace d steps interpreterPath loopExecFile argc argv (left+1) =
      .ok ([⟨path, argc, argv⟩], none) := by
  have hnative : ¬ IsNative c := by
    rw [IsNative, hscript]
    decide
  have hnone : interpreterIn steps interpreterPath (c.drop 2) = .ok none := by
    apply interpreterIn_missed hprep.sized steps hne
    intro line behind hrest hends hfound
    have hcontent : c = [35, 33]++(line++10::behind) := by
      rw [← hrest, ← hscript, List.take_append_drop]
    have hshort := hfound.short
    exact hmissed line behind ⟨hcontent, hends, by omega⟩ hfound
  rw [loadTrace_succ hprep.shown, hc]
  dsimp only
  rw [if_neg hnative, if_pos hscript, hnone]
  rfl

variable (steps left argc) in
/-- A line that is found is normalised, and leads on to what it names. -/
theorem loadTrace_found (hprep : Prepared interpreterPath loopExecFile argv path arg0)
    (hc : d.content path = some c) (hscript : IsScript c line behind)
    (hfound : LineFound line behind) :
    (∀ t, kernelFsPathNormalise steps (lineBuffer interpreterPath line behind) = .error t →
      loadTrace d steps interpreterPath loopExecFile argc argv (left+1) = .error t) ∧
    ∀ b next, LineNames steps interpreterPath line behind b next → ∃ argv',
      Prepared b argv' argv' next next ∧ next.bytes++arg0.bytes <+: argv' ∧
        loadTrace d steps interpreterPath loopExecFile argc argv (left+1) =
          (loadTrace d steps b argv' 2 argv' left >>= fun r =>
            .ok (⟨path, argc, argv⟩::r.1, r.2)) := by
  have hline := interpreterIn_found hprep.sized steps hscript.ends hfound
  have hrun : loadTrace d steps interpreterPath loopExecFile argc argv (left+1) =
      (kernelFsPathNormalise steps (lineBuffer interpreterPath line behind) >>= fun b => do
        let argv' ← procManArgvUpdateForInterpreter argv b
        let r ← loadTrace d steps b argv' 2 argv' left
        .ok (⟨path, argc, argv⟩::r.1, r.2)) := by
    rw [loadTrace_succ hprep.shown, hc]
    dsimp only
    rw [if_neg hscript.not_native, if_pos hscript.magic.1, hscript.magic.2, hline]
    cases kernelFsPathNormalise steps (lineBuffer interpreterPath line behind) <;> rfl
  constructor
  · intro t ht
    rw [hrun, ht]
    rfl
  · rintro b next ⟨hnormal, hnext⟩
    obtain ⟨hsized, next', hnext', hshort⟩ := names_exists hprep.sized steps hfound hnormal
    obtain rfl := shows_unique hnext hnext'
    have hmax : KernelFsPathMax = 64 := rfl
    have harg := hprep.short
    obtain ⟨argv', hupdate, hroom, hprefix⟩ :=
      argvUpdate_shows hprep.room hprep.first hnext (by omega)
    have hshown : Shows argv' next := (List.prefix_append _ _).trans hprefix
    refine ⟨argv', ⟨hsized, hroom, hshown, hshown, hshort⟩, hprefix, ?_⟩
    rw [hrun, hnormal, ok_bind, hupdate]
    rfl

/-- With another file to try, the trail of a script goes on from its line. -/
theorem trail_script (hc : d.content path = some c) (hscript : IsScript c line behind) :
    Trail d steps (left+2) interpreterPath path argc argv tried found ↔
      ∃ b next argv' rest, LineNames steps interpreterPath line behind b next ∧
        next.bytes++path.bytes <+: argv' ∧ Trail d steps (left+1) b next 2 argv' rest found ∧
        tried = ⟨path, argc, argv⟩::rest := by
  constructor
  · intro h
    cases h with
    | absent hnone =>
      rw [hc] at hnone
      cases hnone
    | native hsome hnative =>
      rw [hc] at hsome
      cases hsome
      exact absurd hnative hscript.not_native
    | refused hsome _ hnot =>
      rw [hc] at hsome
      cases hsome
      exact absurd hscript (hnot line behind)
    | script hsome hscript' hnames hargv hrest =>
      rw [hc] at hsome
      cases hsome
      obtain ⟨rfl, rfl⟩ := hscript.unique hscript'
      exact ⟨_, _, _, _, hnames, hargv, hrest, rfl⟩
  · rintro ⟨b, next, argv', rest, hnames, hargv, hrest, rfl⟩
    exact .script hc hscript hnames hargv hrest

theorem not_missed (hscript : IsScript c line behind) (hfound : ¬ LineFound line behind) :
    c.drop 2 ≠ [] ∧ ∀ line' behind', IsScript c line' behind' → ¬ LineFound line' behind' := by
  constructor
  · rw [hscript.magic.2]
    simp
  · intro line' behind' hscript'
    obtain ⟨rfl, rfl⟩ := hscript.unique hscript'
    exact hfound

/-- The last file that is tried, when it is a script: its line is to end, if it is found. -/
theorem traces_last (hprep : Prepared interpreterPath loopExecFile argv path arg0)
    (hc : d.content path = some c) (hscript : IsScript c line behind) :
    Traces d steps 1 interpreterPath loopExecFile path argc argv ↔
      (LineFound line behind → ∃ b next, LineNames steps interpreterPath line behind b next) := by
  by_cases hfound : LineFound line behind
  · obtain ⟨herror, hok⟩ := loadTrace_found steps 0 argc hprep hc hscript hfound
    constructor
    · rintro ⟨tried, found, hrun, -⟩ -
      cases hn : kernelFsPathNormalise steps (lineBuffer interpreterPath line behind) with
      | error t =>
        rw [herror t hn] at hrun
        cases hrun
      | ok b =>
        obtain ⟨-, next, hnext, -⟩ := names_exists hprep.sized steps hfound hn
        exact ⟨b, next, hn, hnext⟩
    · intro hnames
      obtain ⟨b, next, hname⟩ := hnames hfound
      obtain ⟨argv', -, -, hrun⟩ := hok b next hname
      exact ⟨_, _, hrun, .last hc hscript⟩
  · obtain ⟨hne, hnot⟩ := not_missed hscript hfound
    exact iff_of_true
      ⟨_, _, loadTrace_missed _ _ _ hprep hc hscript.magic.1 hne hnot, .last hc hscript⟩
      (fun h => absurd h hfound)

/-- A script with more files to try: its line is found, its path is the first argument,
and what the line names is resolved. -/
theorem traces_script (hprep : Prepared interpreterPath loopExecFile argv path arg0)
    (hc : d.content path = some c) (hscript : IsScript c line behind)
    (ih : ∀ b argv' next, Prepared b argv' argv' next next →
      (Traces d steps (left+1) b argv' next 2 argv' ↔ ScriptsKept d steps (left+1) b next next)) :
    Traces d steps (left+2) interpreterPath loopExecFile path argc argv ↔
      (LineFound line behind ∧ arg0 = path) ∧
        ∃ b next, LineNames steps interpreterPath line behind b next ∧
          ScriptsKept d steps (left+1) b next next := by
  by_cases hfound : LineFound line behind
  · have hok := (loadTrace_found steps (left+1) argc hprep hc hscript hfound).2
    have herror := (loadTrace_found steps (left+1) argc hprep hc hscript hfound).1
    constructor
    · rintro ⟨tried, found, hrun, htrail⟩
      obtain ⟨b, next, argv', rest, hname, hprefix, hrest, rfl⟩ :=
        (trail_script hc hscript).mp htrail
      obtain ⟨argv₁, hprep', hprefix₁, hrun'⟩ := hok b next hname
      rw [hrun'] at hrun
      cases hnext : loadTrace d steps b argv₁ 2 argv₁ (left+1) with
      | error t =>
        rw [hnext] at hrun
        cases hrun
      | ok r =>
        rw [hnext] at hrun
        cases hrun
        have hhead := trail_head hrest
        rw [loadTrace_head hprep'.shown hnext] at hhead
        cases hhead
        exact ⟨⟨hfound, second_unique hprefix₁ hprefix⟩, b, next, hname,
          (ih b argv' next hprep').mp ⟨_, _, hnext, hrest⟩⟩
    · rintro ⟨⟨-, rfl⟩, b, next, hname, hkept⟩
      obtain ⟨argv', hprep', hprefix, hrun⟩ := hok b next hname
      obtain ⟨tried, found, hnext, htrail⟩ := (ih b argv' next hprep').mpr hkept
      rw [hnext] at hrun
      exact ⟨_, _, hrun, .script hc hscript hname hprefix htrail⟩
  · have hrun := loadTrace_missed steps (left+1) argc hprep hc
      hscript.magic.1 (not_missed hscript hfound).1 (not_missed hscript hfound).2
    refine iff_of_false ?_ (fun h => hfound h.1.1)
    rintro ⟨tried, found, hrun', htrail⟩
    rw [hrun] at hrun'
    cases hrun'
    obtain ⟨b, next, argv', rest, -, -, hrest, hnil⟩ := (trail_script hc hscript).mp htrail
    have hhead := trail_head hrest
    rw [(List.cons.inj hnil).2.symm] at hhead
    cases hhead

/-- Nothing but a script of more than `#!` leads on. -/
theorem traces_other (hprep : Prepared interpreterPath loopExecFile argv path arg0)
    (hother : ∀ c, d.content path = some c → c.take 2 = [35, 33] →
      c.drop 2 ≠ [] ∧ ∀ line behind, ¬ IsScript c line behind) :
    Traces d steps (left+1) interpreterPath loopExecFile path argc argv := by
  cases hc : d.content path with
  | none =>
    refine ⟨_, _, ?_, .absent hc⟩
    rw [loadTrace_succ hprep.shown, hc]
  | some c =>
    by_cases hnative : IsNative c
    · refine ⟨_, _, ?_, .native hc hnative⟩
      rw [loadTrace_succ hprep.shown, hc]
      exact if_pos hnative
    by_cases hmagic : c.take 2 = [35, 33]
    · obtain ⟨hne, hnot⟩ := hother c hc hmagic
      exact ⟨_, _, loadTrace_missed _ _ _ hprep hc hmagic hne
        (fun line behind hscript => absurd hscript (hnot line behind)), .refused hc hnative hnot⟩
    · refine ⟨_, _, ?_, .refused hc hnative (fun _ _ hscript => hmagic hscript.magic.1)⟩
      rw [loadTrace_succ hprep.shown, hc]
      dsimp only
      rw [if_neg hnative, if_neg hmagic]

theorem other_of_not (hbare : d.content path ≠ some [35, 33])
    (hnot : ¬ ∃ c line behind, d.content path = some c ∧ IsScript c line behind) (c : List UInt8)
    (hc : d.content path = some c) (hmagic : c.take 2 = [35, 33]) :
    c.drop 2 ≠ [] ∧ ∀ line behind, ¬ IsScript c line behind := by
  constructor
  · intro hnil
    rw [← List.take_append_drop 2 c, hmagic, hnil] at hc
    exact hbare hc
  · intro line behind hscript
    exact hnot ⟨c, line, behind, hc, hscript⟩

theorem kept_other (hbare : d.content path ≠ some [35, 33])
    (hnot : ¬ ∃ c line behind, d.content path = some c ∧ IsScript c line behind) :
    ScriptsKept d steps (left+1) interpreterPath path arg0 :=
  ⟨hbare, fun c line behind hc hscript => absurd ⟨c, line, behind, hc, hscript⟩ hnot⟩

/-- In a script of nothing but `#!` the loader looks in front of its buffer. -/
theorem traces_bare (hprep : Prepared interpreterPath loopExecFile argv path arg0)
    (hc : d.content path = some [35, 33]) :
    ¬ Traces d steps (left+1) interpreterPath loopExecFile path argc argv := by
  rintro ⟨tried, found, hrun, -⟩
  rw [loadTrace_succ hprep.shown, hc] at hrun
  dsimp only at hrun
  rw [if_neg (by decide), if_pos (by decide), show ([35, 33] : List UInt8).drop 2 = [] from rfl,
    interpreterIn_nil] at hrun
  cases hrun

theorem kept_script (hc : d.content path = some c) (hscript : IsScript c line behind) :
    ScriptsKept d steps (left+1) interpreterPath path arg0 ↔
      (LineFound line behind → ∃ b next, LineNames steps interpreterPath line behind b next ∧
        ScriptsKept d steps left b next next) ∧
      (left ≠ 0 → LineFound line behind ∧ arg0 = path) := by
  constructor
  · rintro ⟨-, hall⟩
    exact hall c line behind hc hscript
  · intro h
    constructor
    · intro hbare
      rw [hc] at hbare
      cases hbare
      have hlength := congrArg List.length hscript.magic.2
      simp at hlength
    · intro c' line' behind' hc' hscript'
      rw [hc] at hc'
      cases hc'
      obtain ⟨rfl, rfl⟩ := hscript.unique hscript'
      exact h

/-- The loop resolves the scripts that it handles, and no others. -/
theorem traces_iff (left : ℕ) : ∀ (interpreterPath loopExecFile argv : Buffer) (path arg0 : CStr)
    (argc : ℕ), Prepared interpreterPath loopExecFile argv path arg0 →
    (Traces d steps (left+1) interpreterPath loopExecFile path argc argv ↔
      ScriptsKept d steps (left+1) interpreterPath path arg0) := by
  induction left with
  | zero =>
    intro interpreterPath loopExecFile argv path arg0 argc hprep
    by_cases hbare : d.content path = some [35, 33]
    · exact iff_of_false (traces_bare hprep hbare) (fun hkept => hkept.1 hbare)
    by_cases hsome : ∃ c line behind, d.content path = some c ∧ IsScript c line behind
    · obtain ⟨c, line, behind, hc, hscript⟩ := hsome
      rw [traces_last hprep hc hscript, kept_script hc hscript]
      constructor
      · intro hnames
        refine ⟨fun hfound => ?_, fun hzero => absurd rfl hzero⟩
        obtain ⟨b, next, hname⟩ := hnames hfound
        exact ⟨b, next, hname, trivial⟩
      · rintro ⟨hnames, -⟩ hfound
        obtain ⟨b, next, hname, -⟩ := hnames hfound
        exact ⟨b, next, hname⟩
    · exact iff_of_true (traces_other hprep (other_of_not hbare hsome))
        (kept_other hbare hsome)
  | succ left ih =>
    intro interpreterPath loopExecFile argv path arg0 argc hprep
    by_cases hbare : d.content path = some [35, 33]
    · exact iff_of_false (traces_bare hprep hbare) (fun hkept => hkept.1 hbare)
    by_cases hsome : ∃ c line behind, d.content path = some c ∧ IsScript c line behind
    · obtain ⟨c, line, behind, hc, hscript⟩ := hsome
      rw [traces_script hprep hc hscript
        (fun b argv' next hprep' => ih b argv' argv' next next 2 hprep'), kept_script hc hscript]
      constructor
      · rintro ⟨hline, hnames⟩
        exact ⟨fun _ => hnames, fun _ => hline⟩
      · rintro ⟨hnames, hline⟩
        have hmore := hline (Nat.succ_ne_zero left)
        exact ⟨hmore, hnames hmore.1⟩
    · exact iff_of_true (traces_other hprep (other_of_not hbare hsome))
        (kept_other hbare hsome)

end Trails

end ArduinoOS.Procman
