import ArduinoOS.Procman.UserStrings

/-!
# The strings of an exec

What exec and exec2 do with the arguments, the working directory and PATH once
they are in their buffers. The lengths of the name and of the directories it is
joined to, and the first line of a script, decide whether it stays there.
-/

set_option autoImplicit false

namespace ArduinoOS.Procman
open ArduinoOS.CBuffer ArduinoOS.Faulting ArduinoOS.Kernel

/-! ### Buffers -/

/-- A path that is not empty, in its buffer. -/
def PathBuffer (b : Buffer) : Prop := b.length = KernelFsPathMax ∧ ∃ n, PathWithin b n

/-- A string, which may be empty, in the buffer of a path. -/
def TextBuffer (b : Buffer) : Prop :=
  b.length = KernelFsPathMax ∧ EndsBy b (KernelFsPathMax-1)

/-- The arguments of a program: so many strings, and the first is a path. -/
structure ArgvBuffer (argv : Buffer) (argc : ℕ) : Prop where
  length : argv.length = 256
  name : EndsBy argv (KernelFsPathMax-1)
  total : ∃ e ≤ 256, argvEnd argv 0 argc = .ok e

theorem pathBuffer_ends {b : Buffer} (h : PathBuffer b) : EndsBy b (KernelFsPathMax-1) := by
  obtain ⟨hlen, n, hn⟩ := h
  have hlt := lt_of_terminator hn.terminator
  exact ⟨n, by omega, hn.terminator⟩

theorem pathBuffer_text {b : Buffer} (h : PathBuffer b) : TextBuffer b := ⟨h.1, pathBuffer_ends h⟩

theorem normalise_keeps {b : Buffer} {n : ℕ} (hlen : b.length = KernelFsPathMax)
    (hends : EndsBy b n) (hhead : b[0]? ≠ some 0) (steps : ℕ) :
    Keeps (fun b' => PathBuffer b' ∧ EndsBy b' n) (kernelFsPathNormalise steps b) := by
  obtain ⟨k, hk, hend⟩ := hends
  have h := kernelFsPathNormalise_keeps ⟨hend, hhead⟩ steps
  cases hr : kernelFsPathNormalise steps b with
  | error t =>
    rw [hr] at h
    exact h
  | ok b' =>
    rw [hr] at h
    exact ⟨⟨h.1.trans hlen, k, h.2⟩, k, hk, h.2.terminator⟩

/-- A directory, a slash and a name. -/
theorem joinPath_keeps {execPath argv : Buffer} {directory : List UInt8} {d a : ℕ}
    (hpath : execPath.length = KernelFsPathMax) (hd : IsString (directory++[0]) d)
    (hhead : (directory++[0])[0]? ≠ some 0) (ha : EndsBy argv a)
    (hfits : d+1+a < KernelFsPathMax) (steps : ℕ) :
    Keeps PathBuffer (joinPath steps execPath directory argv) := by
  refine keeps_bind (memcpy_string hd (by omega)) ?_
  rintro b₁ ⟨hlen₁, hends₁, hhead₁⟩
  have hslash : IsString [47, 0] 1 := ⟨rfl, rfl⟩
  refine keeps_bind (strcat_keeps hends₁ (by rw [hhead₁]; exact hhead) hslash (by omega)) ?_
  rintro b₂ ⟨hlen₂, hends₂, hhead₂⟩
  obtain ⟨name, k, hk, _, hname, hstring, _⟩ := stringAt_ok ha
  rw [hname]
  change Keeps _ (strcat b₂ name >>= fun b => kernelFsPathNormalise steps b)
  refine keeps_bind (strcat_keeps hends₂ (by rw [hhead₂, hhead₁]; exact hhead) hstring
    (by omega)) ?_
  rintro b₃ ⟨hlen₃, hends₃, hhead₃⟩
  have h := normalise_keeps (by omega : b₃.length = KernelFsPathMax) hends₃
    (by rw [hhead₃, hhead₂, hhead₁]; exact hhead) steps
  cases hr : kernelFsPathNormalise steps b₃ with
  | error t =>
    rw [hr] at h
    exact h
  | ok b' =>
    rw [hr] at h
    exact h.1

/-- A directory of PATH does not reach beyond the end of PATH. -/
theorem pathPart_keeps {envPath : Buffer} {n ptr : ℕ} (hz : envPath[n]? = some 0)
    (hptr : ptr ≤ n) :
    Keeps (fun r => r.1.length ≤ n ∧ r.2 ≤ n ∧ (r.1 ≠ [] → r.1[0]? = envPath[ptr]?))
      (pathPart envPath ptr) := by
  have hn := lt_of_terminator hz
  have hpart : ∀ len next, ptr+len ≤ n → next ≤ n →
      Keeps (fun r : List UInt8 × ℕ => r.1.length ≤ n ∧ r.2 ≤ n ∧
        (r.1 ≠ [] → r.1[0]? = envPath[ptr]?))
        (slice envPath ptr len >>= fun directory => .ok (directory, next)) := by
    intro len next hlen hnext
    obtain ⟨directory, hslice, hdlen, hd⟩ := slice_ok (show ptr+len ≤ envPath.length by omega)
    rw [hslice]
    refine ⟨by change directory.length ≤ n; omega, hnext, fun hne => ?_⟩
    have hpos := List.length_pos_iff.mpr hne
    exact hd 0 (by change 0 < directory.length at hpos; omega)
  obtain ⟨colon, hcolon, hfound⟩ := strchr_ok hz hptr 58
  rw [pathPart, hcolon]
  cases colon with
  | some colon =>
    obtain ⟨hle, hin, hat, _⟩ := hfound colon rfl
    have hne : colon ≠ n := by
      rintro rfl
      rw [hz] at hat
      cases hat
    exact hpart (colon-ptr) (colon+1) (by omega) (by omega)
  | none =>
    obtain ⟨k, hk, hin, _⟩ := strlen_ok hz hptr
    change Keeps _ (strlen envPath ptr >>= _)
    rw [hk]
    exact hpart k (ptr+k) (by omega) (by omega)

/-- The interpreter goes in front of the name; the other arguments are dropped. -/
theorem argvUpdate_keeps {argv interpreterPath : Buffer} {argc : ℕ} (ha : ArgvBuffer argv argc)
    (hi : PathBuffer interpreterPath) :
    Keeps (fun argv' => ArgvBuffer argv' 2)
      (procManArgvUpdateForInterpreter argv interpreterPath) := by
  obtain ⟨interpreter, k, hk, _, hinterpreter, hstring, hchars, _⟩ :=
    stringAt_ok (pathBuffer_ends hi)
  obtain ⟨name, a, hale, hastrlen, haname, hastring, hachars, _⟩ := stringAt_ok ha.name
  have hmax : KernelFsPathMax = 64 := rfl
  have hlen := ha.length
  have hilen := hstring.length
  have hname : slice argv 0 (a+1) = .ok name := by
    rw [stringAt, hastrlen] at haname
    exact haname
  have hstart : ∀ j ≤ a, argv[j]? = name[j]? := by
    intro j hj
    obtain ⟨data, hslice, _, hdata⟩ := slice_ok (show 0+(a+1) ≤ argv.length by omega)
    rw [hname] at hslice
    cases hslice
    rw [hdata j (by omega), Nat.zero_add]
  obtain ⟨b₁, hmove, hlen₁, hin₁, _⟩ := memmove_ok (show 0+(a+1) ≤ argv.length by omega)
    (show interpreter.length+(a+1) ≤ argv.length by omega)
  obtain ⟨b₂, hcpy, hlen₂, hin₂, hout₂⟩ := memcpy_ok
    (show 0+interpreter.length ≤ b₁.length by omega)
  simp only [Nat.zero_add] at hin₁ hin₂ hout₂
  have hrun : procManArgvUpdateForInterpreter argv interpreterPath = .ok b₂ := by
    rw [procManArgvUpdateForInterpreter, hinterpreter]
    change (strlen argv 0 >>= _) = _
    rw [hastrlen]
    change (memmove argv interpreter.length 0 (a+1) >>= _) = _
    rw [hmove]
    exact hcpy
  -- the two strings of the new arguments
  have hfirst : b₂[0+k]? = some 0 := by rw [Nat.zero_add, hin₂ k (by omega), hstring.terminator]
  have hfirst' : ∀ j < k, b₂[0+j]? ≠ some 0 := by
    intro j hj
    rw [Nat.zero_add, hin₂ j (by omega)]
    exact hchars j hj
  have hmoved : ∀ j ≤ a, b₂[k+1+j]? = name[j]? := by
    intro j hj
    rw [hout₂ (k+1+j) (Or.inr (by omega)), ← hilen, hin₁ j (by omega), hstart j hj]
  have hsecond : b₂[0+k+1+a]? = some 0 := by
    rw [Nat.zero_add, hmoved a (Nat.le_refl a), hastring.terminator]
  have hsecond' : ∀ j < a, b₂[0+k+1+j]? ≠ some 0 := by
    intro j hj
    rw [Nat.zero_add, hmoved j (by omega)]
    exact hachars j hj
  refine keeps_of_ok hrun ⟨by omega, ⟨k, by omega, by rw [← hfirst, Nat.zero_add]⟩,
    0+k+1+a+1, by omega, ?_⟩
  rw [argvEnd_succ hfirst hfirst', argvEnd_succ hsecond hsecond']
  rfl

/-! ### Loading the program -/

/-- The calls do not leave a buffer themselves, and a read answers no more bytes
than it was asked for. -/
structure NoOverrun {φ : Type} (F : Files φ) : Prop where
  read : ∀ fd offset len, Avoids (fun _ => True) .outOfBounds
    (fun r _ => r.1.length ≤ len ∧ r.2 ≤ r.1.length) (F.kernelFsFileReadOffset fd offset len)
  write : ∀ fd offset data, Avoids (fun _ => True) .outOfBounds (fun _ _ => True)
    (F.kernelFsFileWriteOffset fd offset data)
  openFile : ∀ path mode, Avoids (fun _ => True) .outOfBounds (fun _ _ => True)
    (F.kernelFsFileOpen path mode)
  close : ∀ fd, Avoids (fun _ => True) .outOfBounds (fun _ _ => True) (F.kernelFsFileClose fd)
  resize : ∀ path newSize, Avoids (fun _ => True) .outOfBounds (fun _ _ => True)
    (F.kernelFsFileResize path newSize)
  exists_ : ∀ path, Avoids (fun _ => True) .outOfBounds (fun _ _ => True)
    (F.kernelFsFileExists path)
  isDir : ∀ path, Avoids (fun _ => True) .outOfBounds (fun _ _ => True) (F.kernelFsFileIsDir path)

/-- States that looking at files does not leave, and in which no script has an
empty first line or cannot be read behind its first two characters. -/
structure ScriptsNamed {φ : Type} (F : Files φ) (J : φ → Prop) : Prop where
  read : ∀ fd offset len s s' r, J s → F.kernelFsFileReadOffset fd offset len s = .ok (r, s') →
    J s'
  openFile : ∀ path mode s s' r, J s → F.kernelFsFileOpen path mode s = .ok (r, s') → J s'
  close : ∀ fd s s' r, J s → F.kernelFsFileClose fd s = .ok (r, s') → J s'
  exists_ : ∀ path s s' r, J s → F.kernelFsFileExists path s = .ok (r, s') → J s'
  isDir : ∀ path s s' r, J s → F.kernelFsFileIsDir path s = .ok (r, s') → J s'
  script : ∀ fd s s₁ s₂ r, J s → readFully F fd 0 2 s = .ok (some [35, 33], s₁) →
    F.kernelFsFileReadOffset fd 2 KernelFsPathMax s₁ = .ok (r, s₂) →
    0 < r.2 ∧ r.1[0]? ≠ some 10

section Loading

variable {φ : Type} {F : Files φ} {J : φ → Prop}

theorem avoids_keeping {α : Type} {x : Run φ Fault α} {P : α → φ → Prop}
    (hx : Avoids (fun _ => True) .outOfBounds P x)
    (hkeep : ∀ s s' a, J s → x s = .ok (a, s') → J s') :
    Avoids J .outOfBounds (fun a s' => P a s' ∧ J s') x := by
  intro s hs
  have h := hx s trivial
  cases hrun : x s with
  | error e =>
    rw [hrun] at h
    exact h
  | ok r =>
    rw [hrun] at h
    exact ⟨h, hkeep s r.2 r.1 hs hrun⟩

theorem onBuffer_avoids {α : Type} {p : α → Prop} {x : Except Trap α} (hx : Keeps p x) :
    Avoids J .outOfBounds (fun a s' => p a ∧ J s') (onBuffer x : Run φ Fault α) := by
  cases x with
  | ok a => exact fun s hs => ⟨hx, hs⟩
  | error t =>
    have ht : t = .diverges := hx
    rw [ht]
    exact fun _ _ h => nomatch h

theorem pathOf_avoids {b : Buffer} {n : ℕ} (h : EndsBy b n) :
    Avoids J .outOfBounds (fun _ s' => J s') (pathOf b : Run φ Fault CStr) := by
  obtain ⟨data, _, _, _, hstring, _⟩ := stringAt_ok h
  intro s hs
  rw [pathOf, onBuffer, hstring]
  exact hs

variable (hF : NoOverrun F) (hJ : ScriptsNamed F J) (steps : ℕ)
include hF hJ

theorem searchPath_avoids {argv envPath : Buffer} {a n : ℕ} (ha : EndsBy argv a)
    (hname : argv[0]? ≠ some 0) (hz : envPath[n]? = some 0) (hfits : n+1+a < KernelFsPathMax)
    {execPath : Buffer} (hpath : TextBuffer execPath) {ptr : ℕ} (hptr : ptr ≤ n) (left : ℕ) :
    Avoids J .outOfBounds (fun b s' => TextBuffer b ∧ J s')
      (searchPath F steps execPath argv envPath ptr left) := by
  have hmax : KernelFsPathMax = 64 := rfl
  induction left generalizing execPath ptr with
  | zero => exact avoids_throw (fun h => nomatch h)
  | succ left ih =>
    obtain ⟨c, hget, hc⟩ := get_ok (Nat.lt_of_le_of_lt hptr (lt_of_terminator hz))
    refine avoids_bind (onBuffer_avoids (keeps_of_ok hget (p := fun x => x = c) rfl)) ?_
    intro x
    refine avoids_given (fun hx => ?_)
    rw [hx]
    split
    case isTrue => exact avoids_pure (fun s hs => ⟨hpath, hs⟩)
    case isFalse hne =>
      refine avoids_bind (onBuffer_avoids (pathPart_keeps hz hptr)) ?_
      rintro ⟨directory, next⟩
      refine avoids_given (fun hpart => ?_)
      obtain ⟨hdlen, hnext, hdhead⟩ := hpart
      split
      case isTrue =>
        have hempty : IsString [0] 0 := ⟨rfl, rfl⟩
        refine avoids_bind (onBuffer_avoids (memcpy_string hempty
          (by rw [hpath.1]; omega))) ?_
        intro b
        refine avoids_given (fun hb => ?_)
        obtain ⟨e, he, hend⟩ := hb.2.1
        exact ih ⟨hb.1.trans hpath.1, e, by omega, hend⟩ hnext
      case isFalse hnonempty =>
        have hpos := List.length_pos_iff.mpr hnonempty
        have hdhead' := hdhead hnonempty
        change directory.length ≤ n at hdlen
        change 0 < directory.length at hpos
        change directory[0]? = envPath[ptr]? at hdhead'
        have hdir : IsString (directory++[0]) directory.length :=
          ⟨List.length_append, List.getElem?_concat_length⟩
        have hstart : (directory++[0])[0]? ≠ some 0 := by
          rw [List.getElem?_append_left hpos, hdhead', hc]
          exact fun h => hne (Option.some.inj h)
        refine avoids_bind (onBuffer_avoids (joinPath_keeps hpath.1 hdir hstart ha (by omega)
          steps)) ?_
        intro candidate
        refine avoids_given (fun hcandidate => ?_)
        refine avoids_bind (pathOf_avoids (pathBuffer_ends hcandidate)) ?_
        intro path
        refine avoids_bind (avoids_keeping (hF.exists_ path) (hJ.exists_ path)) ?_
        intro found
        refine avoids_given (fun _ => ?_)
        split
        case isTrue => exact avoids_pure (fun s hs => ⟨pathBuffer_text hcandidate, hs⟩)
        case isFalse =>
          refine avoids_bind (onBuffer_avoids (strcpy_keeps ha (by rw [hcandidate.1]; omega))) ?_
          intro b₁
          refine avoids_given (fun hb₁ => ?_)
          refine avoids_bind (onBuffer_avoids (normalise_keeps (hb₁.1.trans hcandidate.1)
            hb₁.2.1 (by rw [hb₁.2.2]; exact hname) steps)) ?_
          intro b₂
          exact avoids_given (fun hb₂ => ih (pathBuffer_text hb₂.1) hnext)

omit hF hJ in
theorem isString_dropLast {data : List UInt8} {k : ℕ} (h : IsString data k) :
    data.dropLast++[0] = data := by
  have hlen := h.length
  have hne : data ≠ [] := by
    rintro rfl
    cases hlen
  have hlast : data.getLast hne = 0 := by
    have hterminator := h.terminator
    have hsub : data.length-1 = k := by omega
    rw [List.getLast_eq_getElem hne]
    rw [List.getElem?_eq_getElem (by omega)] at hterminator
    simp only [hsub]
    exact Option.some.inj hterminator
  rw [← hlast, List.dropLast_concat_getLast hne]

omit hF hJ in
/-- The directories that a name is looked for in: with a slash and the name they
fit into the buffer of a path. -/
structure Joinable (envPath envPwd : Option Buffer) (a : ℕ) : Prop where
  path : ∀ b, envPath = some b → ∃ n, b[n]? = some 0 ∧ n+1+a < KernelFsPathMax
  pwd : ∀ b, envPwd = some b → b[0]? ≠ some 0 ∧ ∃ n, EndsBy b n ∧ n+1+a < KernelFsPathMax
  both : envPath.isSome → envPwd.isSome

omit hF hJ in
/-- What is left of a search may be no name, but then there is a directory. -/
theorem joinPwd_avoids (argv b₃ : Buffer) (envPwd : Option Buffer) {a : ℕ} (ha : EndsBy argv a) :
    (∀ b, envPwd = some b → b[0]? ≠ some 0 ∧ ∃ n, EndsBy b n ∧ n+1+a < KernelFsPathMax) →
    TextBuffer b₃ ∧ (envPwd = none → PathBuffer b₃) →
    Avoids J .outOfBounds (fun b s' => PathBuffer b ∧ J s')
      (match envPwd with
        | none => pure b₃
        | some envPwd => do
            let c ← onBuffer (CBuffer.get b₃ 0)
            if c = 47 then pure b₃
            else do
              let pwd ← onBuffer (stringAt envPwd 0)
              onBuffer (joinPath steps b₃ pwd.dropLast argv) : Run φ Fault Buffer) := by
  intro hpwds hb₃
  cases envPwd with
  | none => exact avoids_pure (fun s hs => ⟨hb₃.2 rfl, hs⟩)
  | some envPwd =>
    obtain ⟨hhead, n, hends, hfits⟩ := hpwds envPwd rfl
    have hmax : KernelFsPathMax = 64 := rfl
    obtain ⟨c, hget, hc⟩ := get_ok (b := b₃) (i := 0) (by rw [hb₃.1.1]; omega)
    refine avoids_bind (onBuffer_avoids (keeps_of_ok hget (p := fun x => x = c) rfl)) ?_
    intro x
    refine avoids_given (fun hx => ?_)
    rw [hx]
    split
    case isTrue hslash =>
      refine avoids_pure (fun s hs => ⟨⟨hb₃.1.1, ?_⟩, hs⟩)
      obtain ⟨e, _, hend⟩ := hb₃.1.2
      refine ⟨e, hend, ?_⟩
      rw [hc, hslash]
      decide
    case isFalse =>
      obtain ⟨pwd, w, hw, _, hpwd, hstring, _, hstart⟩ := stringAt_ok hends
      refine avoids_bind (onBuffer_avoids (keeps_of_ok hpwd (p := fun x => x = pwd) rfl)) ?_
      intro x
      refine avoids_given (fun hx => ?_)
      have hlast := isString_dropLast hstring
      rw [hx]
      exact onBuffer_avoids (joinPath_keeps hb₃.1.1 (by rw [hlast]; exact hstring)
        (by rw [hlast, hstart]; exact hhead) ha (by omega) steps)

theorem execPathOf_avoids {scratch argv : Buffer} {envPath envPwd : Option Buffer} {a : ℕ}
    (hscratch : scratch.length = KernelFsPathMax) (ha : EndsBy argv a) (hshort : a < KernelFsPathMax)
    (hname : argv[0]? ≠ some 0) (hjoin : Joinable envPath envPwd a) :
    Avoids J .outOfBounds (fun b s' => PathBuffer b ∧ J s')
      (execPathOf F steps scratch argv envPath envPwd) := by
  refine avoids_bind (onBuffer_avoids (strcpy_keeps ha (by omega))) ?_
  intro b₁
  refine avoids_given (fun hb₁ => ?_)
  refine avoids_bind (onBuffer_avoids (normalise_keeps (hb₁.1.trans hscratch) hb₁.2.1
    (by rw [hb₁.2.2]; exact hname) steps)) ?_
  intro b₂
  refine avoids_given (fun hb₂ => ?_)
  have hjoined : TextBuffer b₂ ∧ (envPwd = none → PathBuffer b₂) :=
    ⟨pathBuffer_text hb₂.1, fun _ => hb₂.1⟩
  dsimp only
  cases envPath with
  | none => exact joinPwd_avoids steps argv b₂ envPwd ha hjoin.pwd hjoined
  | some envPath =>
    obtain ⟨n, hz, hfits⟩ := hjoin.path envPath rfl
    obtain ⟨e, _, hend⟩ := pathBuffer_ends hb₂.1
    obtain ⟨slash, hslash, _⟩ := strchr_ok hend (Nat.zero_le e) 47
    refine avoids_bind (onBuffer_avoids (keeps_of_ok hslash (p := fun x => x = slash) rfl)) ?_
    intro x
    refine avoids_given (fun hx => ?_)
    rw [hx]
    cases slash with
    | some _ => exact joinPwd_avoids steps argv b₂ envPwd ha hjoin.pwd hjoined
    | none =>
      refine avoids_bind (searchPath_avoids hF hJ steps ha hname hz hfits
        (pathBuffer_text hb₂.1) (Nat.zero_le n) steps) ?_
      intro b
      refine avoids_given (fun hb => joinPwd_avoids steps argv b envPwd ha hjoin.pwd
        ⟨hb, fun hnone => ?_⟩)
      have hboth := hjoin.both rfl
      rw [hnone] at hboth
      cases hboth

/-- The interpreter of a script whose first line is not empty. -/
theorem interpreterOf_avoids {scratch : Buffer} (hscratch : scratch.length = KernelFsPathMax)
    (fd : ℕ) :
    Avoids (fun s₁ => J s₁ ∧ ∃ s, J s ∧ readFully F fd 0 2 s = .ok (some [35, 33], s₁))
      .outOfBounds (fun r s' => (∀ b, r = some b → PathBuffer b) ∧ J s')
      (interpreterOf F steps scratch fd) := by
  have hmax : KernelFsPathMax = 64 := rfl
  have hread : Avoids
      (fun s₁ => J s₁ ∧ ∃ s, J s ∧ readFully F fd 0 2 s = .ok (some [35, 33], s₁)) .outOfBounds
      (fun r s' => (r.1.length ≤ KernelFsPathMax ∧ r.2 ≤ r.1.length ∧ 0 < r.2 ∧
        r.1[0]? ≠ some 10) ∧ J s') (F.kernelFsFileReadOffset fd 2 KernelFsPathMax) := by
    rintro s₁ ⟨hs₁, s, hs, hmagic⟩
    have h := hF.read fd 2 KernelFsPathMax s₁ trivial
    cases hrun : F.kernelFsFileReadOffset fd 2 KernelFsPathMax s₁ with
    | error e =>
      rw [hrun] at h
      exact h
    | ok r =>
      rw [hrun] at h
      obtain ⟨hpos, hline⟩ := hJ.script fd s s₁ r.2 r.1 hs hmagic hrun
      exact ⟨⟨h.1, h.2, hpos, hline⟩, hJ.read fd 2 KernelFsPathMax s₁ r.2 r.1 hs₁ hrun⟩
  refine avoids_bind hread ?_
  intro r
  refine avoids_given (fun hr => ?_)
  obtain ⟨hlen, hcount, hpos, hline⟩ := hr
  obtain ⟨b₁, hcpy, hlen₁, hin₁, _⟩ := memcpy_ok
    (show 0+r.1.length ≤ scratch.length by omega)
  simp only [Nat.zero_add] at hin₁
  refine avoids_bind (onBuffer_avoids (keeps_of_ok hcpy (p := fun x => x = b₁) rfl)) ?_
  intro x
  refine avoids_given (fun hx => ?_)
  rw [hx, if_neg (by omega)]
  have hput := put_ok (b := b₁) (i := r.2-1) (by omega) 0
  refine avoids_bind (onBuffer_avoids (keeps_of_ok hput (p := fun x => x = b₁.set (r.2-1) 0)
    rfl)) ?_
  intro x
  refine avoids_given (fun hx => ?_)
  rw [hx]
  have hend : (b₁.set (r.2-1) 0)[r.2-1]? = some 0 :=
    List.getElem?_set_self (by omega)
  obtain ⟨newline, hchr, hfound⟩ := strchr_ok hend (Nat.zero_le _) 10
  refine avoids_bind (onBuffer_avoids (keeps_of_ok hchr (p := fun x => x = newline) rfl)) ?_
  intro x
  refine avoids_given (fun hx => ?_)
  rw [hx]
  cases newline with
  | none => exact avoids_pure (fun s hs => ⟨fun b hb => (nomatch hb), hs⟩)
  | some newline =>
    obtain ⟨_, hle, hat, hbefore⟩ := hfound newline rfl
    have hlen₂ : (b₁.set (r.2-1) 0).length = b₁.length := List.length_set
    have hnotlast : newline ≠ r.2-1 := by
      rintro rfl
      rw [hend] at hat
      cases hat
    have hnotfirst : newline ≠ 0 := by
      rintro rfl
      rw [List.getElem?_set_ne (by omega), hin₁ 0 (by omega)] at hat
      exact hline hat
    have hput₂ := put_ok (b := b₁.set (r.2-1) 0) (i := newline) (by omega) 0
    refine avoids_bind (onBuffer_avoids (keeps_of_ok hput₂
      (p := fun x => x = (b₁.set (r.2-1) 0).set newline 0) rfl)) ?_
    intro x
    refine avoids_given (fun hx => ?_)
    rw [hx]
    have hends : EndsBy ((b₁.set (r.2-1) 0).set newline 0) newline :=
      ⟨newline, Nat.le_refl _, List.getElem?_set_self (by omega)⟩
    have hhead : ((b₁.set (r.2-1) 0).set newline 0)[0]? ≠ some 0 := by
      rw [List.getElem?_set_ne hnotfirst]
      exact hbefore 0 (Nat.zero_le _) (by omega)
    refine avoids_bind (onBuffer_avoids (normalise_keeps
      (by rw [List.length_set, hlen₂, hlen₁, hscratch]) hends hhead steps)) ?_
    intro b
    refine avoids_given (fun hb => avoids_pure (fun s hs => ⟨fun b' hb' => ?_, hs⟩))
    cases hb'
    exact hb.1

theorem readFully_avoids (fd offset len : ℕ) :
    Avoids J .outOfBounds (fun _ s' => J s') (readFully F fd offset len) := by
  refine avoids_bind (avoids_keeping (hF.read fd offset len) (hJ.read fd offset len)) ?_
  exact fun r => avoids_pure (fun s hs => hs.2)

theorem close_avoids (fd : ℕ) :
    Avoids J .outOfBounds (fun _ s' => J s') (F.kernelFsFileClose fd) :=
  avoids_post (fun _ _ h => h.2) (avoids_keeping (hF.close fd) (hJ.close fd))

theorem loadLoop_avoids {interpreterPath loopExecFile argv : Buffer} {argc n : ℕ}
    (hinterpreter : interpreterPath.length = KernelFsPathMax) (hfile : EndsBy loopExecFile n)
    (hargv : ArgvBuffer argv argc) (left : ℕ) :
    Avoids J .outOfBounds (fun r s' => (∀ l, r = some l → ArgvBuffer l.argv l.argc) ∧ J s')
      (loadLoop F steps interpreterPath loopExecFile argv argc left) := by
  have hnone : Avoids J .outOfBounds
      (fun r s' => (∀ l : Loaded, r = some l → ArgvBuffer l.argv l.argc) ∧ J s')
      (pure none : Run φ Fault (Option Loaded)) :=
    avoids_pure (fun s hs => ⟨fun l hl => (nomatch hl), hs⟩)
  induction left generalizing interpreterPath loopExecFile argv argc n with
  | zero => exact hnone
  | succ left ih =>
    refine avoids_bind (pathOf_avoids hfile) (fun path => ?_)
    refine avoids_bind (avoids_keeping (hF.openFile path KernelFsFdModeRO)
      (hJ.openFile path KernelFsFdModeRO)) (fun fd => avoids_given (fun _ => ?_))
    split
    case isTrue => exact hnone
    case isFalse =>
      refine avoids_bind (avoids_run (readFully_avoids hF hJ fd 0 2)) (fun magic => ?_)
      cases magic with
      | none =>
        exact avoids_bind (avoids_pre (fun s hs => hs.1) (close_avoids hF hJ fd)) (fun _ => hnone)
      | some magic =>
        dsimp only
        split
        case isTrue =>
          refine avoids_pure (fun s hs => ⟨fun l hl => ?_, hs.1⟩)
          cases hl
          exact hargv
        case isFalse =>
          split
          case isFalse =>
            exact avoids_bind (avoids_pre (fun s hs => hs.1) (close_avoids hF hJ fd))
              (fun _ => hnone)
          case isTrue hscript =>
            rw [hscript]
            refine avoids_bind (interpreterOf_avoids hF hJ steps hinterpreter fd)
              (fun interpreter => avoids_given (fun hfound => ?_))
            refine avoids_bind (close_avoids hF hJ fd) (fun _ => ?_)
            cases interpreter with
            | none => exact hnone
            | some interpreter =>
              have hpath := hfound interpreter rfl
              refine avoids_bind (onBuffer_avoids (argvUpdate_keeps hargv hpath))
                (fun argv' => avoids_given (fun hargv' => ?_))
              exact ih hpath.1 hargv'.name hargv'

theorem load_avoids {scratch : Scratch} (hscratch : scratch.Sized) {argv : Buffer} {argc a : ℕ}
    (hargv : ArgvBuffer argv argc) (ha : EndsBy argv a) (hshort : a < KernelFsPathMax)
    (hname : argv[0]? ≠ some 0) {envPath envPwd : Option Buffer}
    (hjoin : Joinable envPath envPwd a) :
    Avoids J .outOfBounds (fun r s' => (∀ l, r = some l → ArgvBuffer l.argv l.argc) ∧ J s')
      (procManProcessLoadProgmemFile F steps scratch argc argv envPath envPwd) := by
  have hnone : Avoids J .outOfBounds
      (fun r s' => (∀ l : Loaded, r = some l → ArgvBuffer l.argv l.argc) ∧ J s')
      (pure none : Run φ Fault (Option Loaded)) :=
    avoids_pure (fun s hs => ⟨fun l hl => (nomatch hl), hs⟩)
  refine avoids_bind (execPathOf_avoids hF hJ steps hscratch.execPath ha hshort hname hjoin)
    (fun execPath => avoids_given (fun hpath => ?_))
  refine avoids_bind (pathOf_avoids (pathBuffer_ends hpath)) (fun path => ?_)
  split
  case isTrue => exact hnone
  case isFalse =>
    refine avoids_bind (avoids_keeping (hF.isDir path) (hJ.isDir path))
      (fun dir => avoids_given (fun _ => ?_))
    split
    case isTrue => exact hnone
    case isFalse =>
      exact loadLoop_avoids hF hJ steps hscratch.interpreterPath (pathBuffer_ends hpath) hargv _

omit hJ in
/-- The strings of the new program are taken from their buffers. -/
theorem execCommit_avoids (pid : ℕ) {plan : ExecPlan}
    (hargv : ArgvBuffer plan.loaded.argv plan.loaded.argc) (hpwd : PathBuffer plan.tempPwd)
    (hpath : PathBuffer plan.tempPath) (process : ProcManProcess)
    (procData : ProcManProcessProcData) :
    Avoids (fun _ => True) .outOfBounds (fun _ _ => True)
      (execCommit F pid plan process procData) := by
  have hdone : ∀ {α : Type} (a : α), Avoids (fun _ => True) .outOfBounds (fun _ _ => True)
      (pure a : Run φ Fault α) := fun a => avoids_pure (fun _ _ => trivial)
  have hbuffer : ∀ {α : Type} {x : Except Trap α} {a : α}, x = .ok a →
      Avoids (fun _ => True) .outOfBounds (fun _ _ => True) (onBuffer x : Run φ Fault α) :=
    fun h => avoids_post (fun _ _ _ => trivial)
      (onBuffer_avoids (keeps_of_ok h (p := fun _ => True) trivial))
  have hwrite : ∀ fd offset data, Avoids (fun _ => True) .outOfBounds (fun _ _ => True)
      (writeFully F fd offset data) :=
    fun fd offset data => avoids_bind (hF.write fd offset data) (fun _ => hdone _)
  obtain ⟨e, he, hend⟩ := hargv.total
  obtain ⟨pwd, _, _, _, hpwdString, _⟩ := stringAt_ok (pathBuffer_ends hpwd)
  obtain ⟨path, _, _, _, hpathString, _⟩ := stringAt_ok (pathBuffer_ends hpath)
  have htotal : Avoids (fun _ => True) .outOfBounds (fun total _ => total = e ∧ True)
      (onBuffer (procManArgvStringGetTotalSize plan.loaded.argc plan.loaded.argv) :
        Run φ Fault ℕ) := onBuffer_avoids (keeps_of_ok hend rfl)
  refine avoids_bind htotal (fun total => avoids_given (fun htotal => ?_))
  refine avoids_bind (hbuffer hpwdString) (fun _ => ?_)
  refine avoids_bind (hbuffer hpathString) (fun _ => ?_)
  refine avoids_bind (hF.close _) (fun _ => ?_)
  refine avoids_bind (hF.resize _ _) (fun resized => ?_)
  split
  case isTrue => exact hdone _
  case isFalse =>
    refine avoids_bind (hF.openFile _ _) (fun ramFd => ?_)
    split
    case isTrue => exact avoids_throw (fun h => nomatch h)
    case isFalse =>
      obtain ⟨bytes, hslice, _⟩ := slice_ok
        (show 0+total ≤ plan.loaded.argv.length by rw [hargv.length]; omega)
      refine avoids_bind (hbuffer hslice) (fun _ => ?_)
      refine avoids_bind (hwrite _ _ _) (fun written => ?_)
      split
      case isTrue => exact hdone _
      case isFalse =>
        refine avoids_bind (hwrite _ _ _) (fun written => ?_)
        split
        case isTrue => exact hdone _
        case isFalse =>
          refine avoids_bind (hwrite _ _ _) (fun written => ?_)
          split
          case isTrue => exact hdone _
          case isFalse =>
            refine avoids_bind (avoids_bind (hF.write _ _ _) (fun _ => hdone _)) (fun _ => ?_)
            exact hdone _

end Loading

/-! ### The whole system call -/

/-- The name of `k` characters, the working directory and PATH are not empty and
are short enough to be joined. -/
structure EnvFits (mem : Bytes) (procData : ProcManProcessProcData) (k : ℕ) : Prop where
  name : 0 < k ∧ k < KernelFsPathMax
  pwd : PathFits mem procData.pwd
  path : PathFits mem procData.path
  joined : procData.regs 3 ≠ 0 → ∀ w,
    Terminated mem procData.pwd w ∨ Terminated mem procData.path w → w+1+k < KernelFsPathMax

section Execs

variable {φ : Type} {F : Files φ} {J I : φ → Prop} {process : ProcManProcess}
  {procData : ProcManProcessProcData} {mem : Bytes}

theorem readEnvPath_avoids (hm : ReadsAs F process procData I mem) {addr : UInt16} {b : Buffer}
    (hb : b.length = KernelFsPathMax) (h : PathFits mem addr) (steps : ℕ) :
    Avoids I .outOfBounds (fun r s' => (∀ b', r = some b' → PathBuffer b' ∧
      ∃ w, Terminated mem addr w ∧ EndsBy b' w) ∧ I s')
      (readEnvPath F steps process procData b addr) := by
  obtain ⟨k, hk, hbroken | ⟨hpos, hterminated⟩⟩ := h
  · refine avoids_post (fun r s' hr => ⟨fun b' hb' => ?_, hr.2⟩)
      (avoids_of_gives (readEnvPath_broken hm hbroken hk hb steps) (fun h => nomatch h))
    have hnone := hr.1
    rw [hb'] at hnone
    cases hnone
  · obtain ⟨b₁, hlen, hend, hbefore, hgives⟩ := readEnvPath_terminated hm hterminated hk hb
    have hkeeps := normalise_keeps hlen ⟨k, Nat.le_refl k, hend⟩ (hbefore 0 hpos) steps
    have hne := keepsPath_ne (normalise_safe hpos hend hbefore steps)
    refine avoids_post (fun r s' hr => ⟨fun b' hb' => ?_, hr.2⟩)
      (avoids_of_gives (hgives steps) (mapError_ne some hne))
    have hsome := hr.1
    rw [hb'] at hsome
    cases hn : kernelFsPathNormalise steps b₁ with
    | error t =>
      rw [hn] at hsome
      cases hsome
    | ok b₂ =>
      rw [hn] at hsome hkeeps
      cases hsome
      exact ⟨hkeeps.1, k, hterminated, hkeeps.2⟩

theorem execPrepare_avoids (hF : NoOverrun F) (hJ : ScriptsNamed F J)
    (hm : ReadsAs F process procData I mem) (hIJ : ∀ s, I s → J s) (steps : ℕ)
    {scratch : Scratch} (hscratch : scratch.Sized) {argv : Buffer} {argc k : ℕ}
    (hargv : ArgvBuffer argv argc) (ha : EndsBy argv k) (hname : argv[0]? ≠ some 0)
    (henv : EnvFits mem procData k) :
    Avoids I .outOfBounds (fun r _ => ∀ plan, r = .ready plan →
      ArgvBuffer plan.loaded.argv plan.loaded.argc ∧ PathBuffer plan.tempPwd ∧
        PathBuffer plan.tempPath)
      (execPrepare F steps scratch process procData argc argv) := by
  refine avoids_bind (readEnvPath_avoids hm hscratch.tempPwd henv.pwd steps)
    (fun tempPwd => avoids_given (fun hpwd => ?_))
  cases tempPwd with
  | none => exact avoids_pure (fun s _ plan h => nomatch h)
  | some tempPwd =>
    obtain ⟨hpwdPath, w, hw, hpwdEnds⟩ := hpwd tempPwd rfl
    refine avoids_bind (readEnvPath_avoids hm hscratch.tempPath henv.path steps)
      (fun tempPath => avoids_given (fun hpath => ?_))
    cases tempPath with
    | none => exact avoids_pure (fun s _ plan h => nomatch h)
    | some tempPath =>
      obtain ⟨hpathPath, v, hv, hpathEnds⟩ := hpath tempPath rfl
      have hjoin : Joinable (if procData.regs 3 ≠ 0 then some tempPath else none)
          (if procData.regs 3 ≠ 0 then some tempPwd else none) k := by
        by_cases hsearch : procData.regs 3 ≠ 0
        · rw [if_pos hsearch, if_pos hsearch]
          have hwfits := henv.joined hsearch w (Or.inl hw)
          have hvfits := henv.joined hsearch v (Or.inr hv)
          refine ⟨fun b hb => ?_, fun b hb => ?_, fun _ => rfl⟩
          · cases hb
            obtain ⟨n, hn, hend⟩ := hpathEnds
            exact ⟨n, hend, by omega⟩
          · cases hb
            obtain ⟨_, n, hn⟩ := hpwdPath
            exact ⟨hn.head, w, hpwdEnds, hwfits⟩
        · rw [if_neg hsearch, if_neg hsearch]
          exact ⟨fun b hb => (nomatch hb), fun b hb => (nomatch hb), fun h => (nomatch h)⟩
      refine avoids_bind (avoids_pre hIJ (load_avoids hF hJ steps hscratch hargv ha henv.name.2
        hname hjoin)) (fun loaded => avoids_given (fun hloaded => ?_))
      cases loaded with
      | none => exact avoids_pure (fun s _ plan h => nomatch h)
      | some loaded =>
        refine avoids_pure (fun s _ plan h => ?_)
        cases h
        exact ⟨hloaded loaded rfl, hpwdPath, hpathPath⟩

theorem avoids_onFiles {α : Type} {x : ProcManProcess → Run φ Fault α} {P : α → φ → Prop}
    {t : ProcTable} {pid : ℕ} (hx : Avoids I .outOfBounds P (x (t pid))) :
    Avoids (fun st => st.1 = t ∧ I st.2) .outOfBounds (fun a st => st.1 = t ∧ P a st.2)
      (onFiles pid x) :=
  avoids_onSecond (y := fun table : ProcTable => x (table pid)) hx

/-- Replacing the program when the arguments are in their buffer. -/
theorem execCommon_avoids (hF : NoOverrun F) (hJ : ScriptsNamed F J) (hIJ : ∀ s, I s → J s)
    {t : ProcTable} {pid : ℕ} (hm : ReadsAs F (t pid) procData I mem) (steps : ℕ)
    {scratch : Scratch} (hscratch : scratch.Sized) {argv : Buffer} {argc k : ℕ}
    (hargv : ArgvBuffer argv argc) (ha : EndsBy argv k) (hname : argv[0]? ≠ some 0)
    (henv : EnvFits mem procData k) :
    Avoids (fun st => st.1 = t ∧ I st.2) .outOfBounds (fun _ _ => True)
      (procManProcessExecCommon F steps scratch pid procData argc argv) := by
  refine avoids_bind (avoids_onFiles (execPrepare_avoids hF hJ hm hIJ steps hscratch hargv ha
    hname henv)) (fun prepared => ?_)
  cases prepared with
  | killed => exact avoids_pure (fun _ _ => trivial)
  | failed => exact avoids_pure (fun _ _ => trivial)
  | ready plan =>
    intro st hst
    obtain ⟨hplan, hpwd, hpath⟩ := hst.2 plan rfl
    have hall : Avoids (fun _ => True) .outOfBounds (fun _ _ => True) (do
        let table ← getFirst
        let _ ← onFiles pid (fun process => F.kernelFsFileClose process.progmemFd)
        setFirst (Function.update table pid
          { table pid with progmemFd := plan.loaded.progmemFd })
        onFiles pid (fun process => execCommit F pid plan process procData) :
          ProcManRun φ (Bool × ProcManProcessProcData)) := by
      have honFiles : ∀ {α : Type} (x : ProcManProcess → Run φ Fault α),
          (∀ process, Avoids (fun _ => True) .outOfBounds (fun _ _ => True) (x process)) →
          Avoids (fun _ => True) .outOfBounds (fun _ _ => True) (onFiles pid x) :=
        fun x hx st _ => avoids_post (fun _ _ _ => trivial)
          (avoids_onFiles (t := st.1) (hx (st.1 pid))) st ⟨rfl, trivial⟩
      refine avoids_bind (P := fun _ _ => True) (fun _ _ => trivial) (fun table => ?_)
      refine avoids_bind (honFiles _ (fun process => hF.close _)) (fun _ => ?_)
      refine avoids_bind (P := fun _ _ => True) (fun _ _ => trivial) (fun _ => ?_)
      exact honFiles _ (fun process => execCommit_avoids hF pid hplan hpwd hpath process procData)
    exact hall st trivial

/-- The buffer of arguments, from what reading them has left in it. -/
theorem argvBuffer_of_read {addr : UInt16} {argv : Buffer} {argc k : ℕ}
    (hlen : argv.length = 256) (h : ArgvRead mem addr argv 0 argc k)
    (henv : EnvFits mem procData k) :
    ArgvBuffer argv argc ∧ EndsBy argv k ∧ argv[0]? ≠ some 0 := by
  have hend := h.terminator
  have hhead := h.chars 0 henv.name.1
  have hshort := henv.name.2
  rw [Nat.zero_add] at hend hhead
  exact ⟨⟨hlen, ⟨k, by omega, hend⟩, h.total⟩, ⟨k, Nat.le_refl k, hend⟩, hhead⟩

theorem ne_of_avoids {α : Type} {S : Type} {K : S → Prop} {P : α → S → Prop}
    {x : Run S Fault α} {s : S} (hs : K s) (hx : Avoids K .outOfBounds P x) :
    x s ≠ .error .outOfBounds := by
  intro h
  have hrun := hx s hs
  rw [h] at hrun
  exact hrun rfl

/-- The number of arguments that exec2 copies. -/
def exec2Argc (procData : ProcManProcessProcData) : ℕ :=
  if (procData.regs 1).toUInt8.toNat+(procData.regs 2).toUInt8.toNat > procData.argc.toNat then
    procData.argc.toNat-(procData.regs 1).toUInt8.toNat
  else (procData.regs 2).toUInt8.toNat

end Execs

/-! ### A shell that becomes the program in its first argument -/

/-- The bytes of an image. -/
def MemoryImage.bytes (m : MemoryImage) : Bytes := fun addr =>
  (m.block addr.toNat 1).map (fun bytes => bytes.getD 0 0)

theorem image_readsAs {process : ProcManProcess} {procData : ProcManProcessProcData} {v : FsView}
    {paths : ProcessPaths} {m : MemoryImage} (hv : v.Bounded)
    (hm : ProcessMemory v process procData paths m) :
    ReadsAs viewFiles process procData (fun s => s = v) m.bytes := by
  rintro addr s rfl
  obtain ⟨s', hrun, _, hview⟩ := readBlock_run (viewFiles_law 32768) viewFiles_reliable hv hm
    addr 1
  refine ⟨s', ?_, hview⟩
  rw [procManProcessMemoryReadByte, bind_of_ok hrun]
  rfl

/-- One argument, which is the first string of the variables. -/
def execData : ProcManProcessProcData := (shellData.setReg 1 1).setReg 2 64512

theorem shell_readsAs : ReadsAs viewFiles shellProcess execData
    (fun s => s = shellView [47, 47]) (shellImage [47, 47]).bytes :=
  image_readsAs (shell_bounded _) (memory_setReg (memory_setReg (shell_memory _) _ _) _ _)

theorem viewFiles_noOverrun : NoOverrun viewFiles where
  read fd offset len s _ := by
    refine ⟨?_, Nat.le_refl _⟩
    change (s.readOffset fd offset len).length ≤ len
    rw [FsView.readOffset]
    split
    case h_1 => exact Nat.zero_le _
    case h_2 =>
      rw [List.length_take]
      exact Nat.min_le_left _ _
  write _ _ _ _ _ := trivial
  openFile _ _ _ _ := trivial
  close _ _ _ := trivial
  resize _ _ _ _ := trivial
  exists_ _ _ _ := trivial
  isDir _ _ _ := trivial

/-- No file of the shell's is a script. -/
theorem shell_noScript {q : CStr} {c : List UInt8} (h : (shellView [47, 47]).file q = some c) :
    c.take 2 ≠ [35, 33] := by
  simp only [shellView] at h
  split_ifs at h
  all_goals
    cases h
    decide

theorem shell_scripts : ScriptsNamed viewFiles
    (fun v => v.file = (shellView [47, 47]).file) where
  read _ _ _ _ _ _ hs h := by
    cases h
    exact hs
  openFile path mode s s' r hs h := by
    rcases openFile_cases (Except.ok.inj h) with ⟨_, rfl⟩ | ⟨_, _, rfl⟩
    · exact hs
    · exact hs
  close fd s s' r hs h := by
    have hc : s.close fd = (r, s') := Except.ok.inj h
    rw [FsView.close] at hc
    split at hc
    all_goals
      cases hc
      exact hs
  exists_ _ _ _ _ hs h := by
    cases h
    exact hs
  isDir _ _ _ _ hs h := by
    cases h
    exact hs
  script fd s s₁ s₂ r hs hmagic _ := by
    exfalso
    obtain ⟨read, s₃, hread, hmagic⟩ := bind_ok.mp hmagic
    obtain ⟨hsome, _⟩ := pure_ok.mp hmagic
    have hbytes : s.readOffset fd 0 2 = [35, 33] := by
      cases hread
      split at hsome
      case isTrue => exact (Option.some.inj hsome).symm
      case isFalse => cases hsome
    rw [FsView.readOffset] at hbytes
    split at hbytes
    case h_1 => cases hbytes
    case h_2 path c hc =>
      rw [FsView.content] at hc
      obtain ⟨e, _, he⟩ := Option.bind_eq_some_iff.mp hc
      split at he
      case isTrue => cases he
      case isFalse =>
        obtain ⟨c', hfile, hpair⟩ := Option.map_eq_some_iff.mp he
        cases hpair
        rw [hs] at hfile
        exact shell_noScript hfile hbytes

/-- The first variable is the string "A". -/
theorem shell_variable : Terminated (shellImage [47, 47]).bytes 64512 1 := by
  refine ⟨fun j hj => ?_, by decide⟩
  have hzero : j = 0 := Nat.lt_one_iff.mp hj
  subst hzero
  exact ⟨65, by decide, by decide⟩

/-- The buffers at boot. -/
def zeroScratch : Scratch where
  argv := List.replicate 256 0
  tempPwd := List.replicate KernelFsPathMax 0
  tempPath := List.replicate KernelFsPathMax 0
  execPath := List.replicate KernelFsPathMax 0
  interpreterPath := List.replicate KernelFsPathMax 0

theorem zeroScratch_sized : zeroScratch.Sized :=
  ⟨List.length_replicate, List.length_replicate, List.length_replicate, List.length_replicate,
    List.length_replicate⟩

end ArduinoOS.Procman
