import ArduinoOS.Kernel.Open

/-!
# The file descriptor table

Runs of opens, dupes and closes, next to a ledger that counts the dupes and
closes of each descriptor since its last open. An open commits to an entry it
has not checked in two cases: the mode it lets through is one too many, and a
full table leaves it with entry 0.
-/

set_option autoImplicit false

namespace ArduinoOS.Kernel
open ArduinoOS.Faulting

variable {σ : Type} (p : Platform σ)

/-! ### Calls and their ledger -/

inductive FdCall
  | openFile (path : CStr) (mode : ℕ)
  | dupe (fd : ℕ)
  | dupeOrOpen (fd : ℕ)
  | close (fd : ℕ)

/-- The reply: a descriptor, 1 for true, or the remaining count. -/
def FdCall.run : FdCall → KernelRun σ ℕ
  | .openFile path mode => kernelFsFileOpen p path mode
  | .dupe fd => do
      let ok ← fileDupe fd
      pure ok.toNat
  | .dupeOrOpen fd => kernelFsFileDupeOrOpen p fd
  | .close fd => fileClose fd

/-- What a reply says has happened. -/
inductive FdEvent
  | failed
  | opened (fd : ℕ)
  | duped (fd : ℕ)
  | closed (fd : ℕ)

def FdCall.event : FdCall → ℕ → FdEvent
  | .openFile _ _, reply => if reply = KernelFsFdInvalid then .failed else .opened reply
  | .dupe fd, reply => if reply = 0 then .failed else .duped fd
  | .dupeOrOpen fd, reply =>
      if reply = KernelFsFdInvalid then .failed
      else if reply = fd then .duped fd else .opened reply
  | .close fd, _ => .closed fd

structure Count where
  dupes : ℕ
  closes : ℕ

/-- The counts of each descriptor since its last open, if there was one. -/
abbrev Ledger := ℕ → Option Count

def Ledger.set (l : Ledger) (fd : ℕ) (c : Option Count) : Ledger :=
  fun i => if i = fd then c else l i

def Ledger.after (l : Ledger) : FdEvent → Ledger
  | .failed => l
  | .opened fd => l.set fd (some ⟨0, 0⟩)
  | .duped fd => l.set fd ((l fd).map (fun c => ⟨c.dupes+1, c.closes⟩))
  | .closed fd => l.set fd ((l fd).map (fun c => ⟨c.dupes, c.closes+1⟩))

/-- If the open comes as far as writing an entry, the encoder knows the mode and
an entry is free. -/
def CommitFine (path : CStr) (mode : ℕ) (s : Tables × σ) : Prop :=
  ∀ s₁, kernelFsFileOpenCheck p path mode s = .ok (true, s₁) → openWrites p path mode s₁ ≠ none →
    mode ≠ KernelFsFdModeMax ∧ ¬ FullTable s.1.fdt

/-- The condition for one call; a failed dupe opens the descriptor's path again. -/
def FdCall.Fine (s : Tables × σ) : FdCall → Prop
  | .openFile path mode => CommitFine p path mode s
  | .dupeOrOpen fd => ∀ e, s.1.fdt fd = some e →
      kernelFsFdPathSpareGetRefCount e.spare+1 ≥ KernelFsFdRefCountMax →
      CommitFine p e.path (kernelFsFdPathSpareGetMode e.spare) s
  | _ => True

/-- The states of all runs from an empty table, with their ledgers. -/
inductive FdReached : Tables × σ → Ledger → Prop
  | start (s : Tables × σ) (h : ∀ fd, s.1.fdt fd = none) : FdReached s (fun _ => none)
  | call {s s' : Tables × σ} {l : Ledger} (c : FdCall) (reply : ℕ) (hs : FdReached s l)
      (hfine : c.Fine p s) (hrun : c.run p s = .ok (reply, s')) :
      FdReached s' (l.after (c.event reply))

/-! ### What a call does to the table -/

/-- The entry with another count. -/
def recount (e : KernelFsFdtEntry) (refCount : ℕ) : KernelFsFdtEntry :=
  { e with spare := kernelFsFdPathSpareMake (kernelFsFdPathSpareGetMode e.spare) refCount }

/-- What is left of the count after `--refCount`, which wraps. -/
def leftCount (e : KernelFsFdtEntry) : ℕ :=
  u32 (kernelFsFdPathSpareGetRefCount e.spare+4294967295)

inductive TableStep (t : Tables) : FdEvent → Tables → Prop
  | failed : TableStep t .failed t
  | opened {fd : ℕ} {path : CStr} {mode i : ℕ} (hopen : Openable t path mode)
      (hmode : mode ≠ KernelFsFdModeMax) (hfd : fd ≠ KernelFsFdInvalid) (hlt : fd < KernelFsFdMax)
      (hfree : t.fdt fd = none) :
      TableStep t (.opened fd) (t.setFd fd (some (openedEntry path mode i)))
  | duped {fd : ℕ} {e : KernelFsFdtEntry} (he : t.fdt fd = some e)
      (hlt : kernelFsFdPathSpareGetRefCount e.spare+1 < KernelFsFdRefCountMax) :
      TableStep t (.duped fd)
        (t.setFd fd (some (recount e (kernelFsFdPathSpareGetRefCount e.spare+1))))
  | closedNull {fd : ℕ} (he : t.fdt fd = none) : TableStep t (.closed fd) t
  | closed {fd : ℕ} {e : KernelFsFdtEntry} (he : t.fdt fd = some e)
      (hlast : leftCount e = 0) :
      TableStep t (.closed fd) (t.setFd fd none)
  | closedOne {fd : ℕ} {e : KernelFsFdtEntry} (he : t.fdt fd = some e)
      (hmore : leftCount e ≠ 0) :
      TableStep t (.closed fd) (t.setFd fd (some (recount e (leftCount e))))

theorem onTables_ok {α : Type} {x : Tables → Except Fault (α × Tables)} {a : α}
    {s s' : Tables × σ} (h : (onTables x) s = .ok (a, s')) :
    x s.1 = .ok (a, s'.1) ∧ s'.2 = s.2 := by
  obtain ⟨t, s₁, hget, h₁⟩ := bind_ok.mp h
  obtain ⟨r, s₂, hx, h₂⟩ := bind_ok.mp h₁
  obtain ⟨u, s₃, hset, h₃⟩ := bind_ok.mp h₂
  obtain ⟨rfl, rfl⟩ := getFirst_ok.mp hget
  obtain ⟨hr, rfl⟩ := fromExcept_ok.mp hx
  obtain ⟨rfl, rfl⟩ := pure_ok.mp h₃
  rw [setFirst_ok.mp hset]
  exact ⟨hr, rfl⟩

/-- A dupe counts, or the entry is null or has no count left. -/
theorem dupe_cases {t t' : Tables} {fd : ℕ} {ok : Bool}
    (h : kernelFsFileDupe t fd = .ok (ok, t')) :
    (ok = true ∧ TableStep t (.duped fd) t') ∨
      (ok = false ∧ t' = t ∧ ∀ e, t.fdt fd = some e →
        kernelFsFdPathSpareGetRefCount e.spare+1 ≥ KernelFsFdRefCountMax) := by
  rw [kernelFsFileDupe] at h
  by_cases hlt : fd < KernelFsFdMax
  · rw [if_pos hlt] at h
    cases he : t.fdt fd with
    | none =>
      rw [he] at h
      cases h
      exact Or.inr ⟨rfl, rfl, fun e he' => by cases he'⟩
    | some e =>
      rw [he] at h
      dsimp only at h
      by_cases hmax : kernelFsFdPathSpareGetRefCount e.spare+1 ≥ KernelFsFdRefCountMax
      · rw [if_pos hmax] at h
        cases h
        refine Or.inr ⟨rfl, rfl, ?_⟩
        intro e' he'
        cases he'
        exact hmax
      · rw [if_neg hmax] at h
        cases h
        exact Or.inl ⟨rfl, TableStep.duped he (by omega)⟩
  · rw [if_neg hlt] at h
    cases h

theorem close_step {t t' : Tables} {fd refCount : ℕ}
    (h : kernelFsFileClose t fd = .ok (refCount, t')) : TableStep t (.closed fd) t' := by
  rw [kernelFsFileClose] at h
  by_cases hlt : fd < KernelFsFdMax
  · rw [if_pos hlt] at h
    cases he : t.fdt fd with
    | none =>
      rw [he] at h
      cases h
      exact TableStep.closedNull he
    | some e =>
      rw [he] at h
      dsimp only at h
      by_cases hlast : leftCount e = 0
      · rw [leftCount] at hlast
        rw [if_pos hlast] at h
        simp only [Except.ok.injEq, Prod.mk.injEq] at h
        rw [← h.2]
        exact TableStep.closed he hlast
      · rw [leftCount] at hlast
        rw [if_neg hlast] at h
        simp only [Except.ok.injEq, Prod.mk.injEq] at h
        rw [← h.2]
        exact TableStep.closedOne he hlast
  · rw [if_neg hlt] at h
    cases h

/-- An open that meets its condition makes one entry or changes nothing. -/
theorem open_step {path : CStr} {mode fd : ℕ} {s s' : Tables × σ}
    (h0 : s.1.fdt KernelFsFdInvalid = none) (hfine : CommitFine p path mode s)
    (h : kernelFsFileOpen p path mode s = .ok (fd, s')) :
    (fd = KernelFsFdInvalid ∧ s'.1 = s.1) ∨
      (fd ≠ KernelFsFdInvalid ∧ s.1.fdt fd = none ∧ TableStep s.1 (.opened fd) s'.1) := by
  by_cases hfd : fd = KernelFsFdInvalid
  · refine Or.inl ⟨hfd, ?_⟩
    rw [hfd] at h
    rcases open_invalid p h with hs' | ⟨hfull, s₁, hcheck, hs'⟩
    · exact hs'
    -- nothing is written into a full table
    cases hw : openWrites p path mode s₁ with
    | none =>
      rw [hw] at hs'
      rw [hs', setFd_same h0]
    | some e => exact absurd hfull (hfine s₁ hcheck (by rw [hw]; simp)).2
  · obtain ⟨hopen, hlt, hfree, i, _, hs'⟩ := open_entry p h hfd
    rcases open_cases p h with ⟨h0', _⟩ | ⟨s₁, hcheck, hscan, _⟩
    · exact absurd h0' hfd
    have hwrites : openWrites p path mode s₁ ≠ none := by
      intro hw
      rw [hw] at hscan
      exact hfd hscan
    rw [hs']
    exact Or.inr ⟨hfd, hfree,
      TableStep.opened hopen (hfine s₁ hcheck hwrites).1 hfd hlt hfree⟩

theorem duped_entry {t t' : Tables} {fd : ℕ} (h : TableStep t (.duped fd) t') :
    t.fdt fd ≠ none := by
  cases h with
  | duped he hlt => simp [he]

theorem getFilePath_ok {t : Tables} {fd : ℕ} {path : Option CStr}
    (h : kernelFsGetFilePath t fd = .ok path) : path = (t.fdt fd).map KernelFsFdtEntry.path := by
  rw [kernelFsGetFilePath] at h
  split at h
  · exact (Except.ok.inj h).symm
  · cases h

theorem getFileMode_ok {t : Tables} {fd mode : ℕ} {e : KernelFsFdtEntry}
    (he : t.fdt fd = some e) (h : kernelFsGetFileMode t fd = .ok mode) :
    mode = kernelFsFdPathSpareGetMode e.spare := by
  rw [kernelFsGetFileMode, he] at h
  split at h
  · exact (Except.ok.inj h).symm
  · cases h

theorem dupeOrOpen_step {fd reply : ℕ} {s s' : Tables × σ}
    (h0 : s.1.fdt KernelFsFdInvalid = none) (hfine : (FdCall.dupeOrOpen fd).Fine p s)
    (h : kernelFsFileDupeOrOpen p fd s = .ok (reply, s')) :
    TableStep s.1 ((FdCall.dupeOrOpen fd).event reply) s'.1 := by
  rw [kernelFsFileDupeOrOpen] at h
  obtain ⟨duped, s₁, hdupe, h₁⟩ := bind_ok.mp h
  obtain ⟨hd, hhw⟩ := onTables_ok hdupe
  rcases dupe_cases hd with ⟨hb, hstep⟩ | ⟨hb, hs₁, hmax⟩
  · rw [if_pos hb] at h₁
    obtain ⟨hreply, hs'⟩ := pure_ok.mp h₁
    have hne : fd ≠ KernelFsFdInvalid := by
      rintro rfl
      exact duped_entry hstep h0
    rw [hreply, hs', FdCall.event, if_neg hne, if_pos rfl]
    exact hstep
  · rw [if_neg (by rw [hb]; decide)] at h₁
    obtain ⟨t, s₂, hget, h₂⟩ := bind_ok.mp h₁
    obtain ⟨ht, hs₂⟩ := getFirst_ok.mp hget
    obtain ⟨pathK, s₃, hpath, h₃⟩ := bind_ok.mp h₂
    obtain ⟨hpathK, hs₃⟩ := fromExcept_ok.mp hpath
    have hpathK := getFilePath_ok hpathK
    rw [ht, hs₁] at hpathK
    cases he : s.1.fdt fd with
    | none =>
      -- nothing is open under this descriptor
      rw [hpathK, he] at h₃
      obtain ⟨hreply, hs'⟩ := pure_ok.mp h₃
      rw [hreply, FdCall.event, if_pos rfl, hs', hs₃, hs₂, hs₁]
      exact TableStep.failed
    | some e =>
      rw [hpathK, he] at h₃
      obtain ⟨mode, s₄, hmode, h₄⟩ := bind_ok.mp h₃
      obtain ⟨hmodeK, hs₄⟩ := fromExcept_ok.mp hmode
      rw [ht, hs₁] at hmodeK
      rw [getFileMode_ok he hmodeK] at h₄
      have hs : s₄ = s := by
        rw [hs₄, hs₃, hs₂]
        exact Prod.ext hs₁ hhw
      rw [hs] at h₄
      rcases open_step p h0 (hfine e he (hmax e he)) h₄ with ⟨hreply, hs'⟩ | ⟨hne, hfree, hstep⟩
      · rw [hreply, FdCall.event, if_pos rfl, hs']
        exact TableStep.failed
      · have hother : reply ≠ fd := by
          rintro rfl
          rw [he] at hfree
          cases hfree
        rw [FdCall.event, if_neg hne, if_neg hother]
        exact hstep

theorem call_step {c : FdCall} {reply : ℕ} {s s' : Tables × σ}
    (h0 : s.1.fdt KernelFsFdInvalid = none) (hfine : c.Fine p s)
    (h : c.run p s = .ok (reply, s')) : TableStep s.1 (c.event reply) s'.1 := by
  cases c with
  | openFile path mode =>
    rcases open_step p h0 hfine h with ⟨hreply, hs'⟩ | ⟨hne, _, hstep⟩
    · rw [FdCall.event, if_pos hreply, hs']
      exact TableStep.failed
    · rw [FdCall.event, if_neg hne]
      exact hstep
  | dupe fd =>
    obtain ⟨ok, s₁, hdupe, h₁⟩ := bind_ok.mp h
    obtain ⟨hreply, hs'⟩ := pure_ok.mp h₁
    rw [hreply, hs']
    rcases dupe_cases (onTables_ok hdupe).1 with ⟨rfl, hstep⟩ | ⟨rfl, hs₁, _⟩
    · exact hstep
    · rw [hs₁]
      exact TableStep.failed
  | dupeOrOpen fd => exact dupeOrOpen_step p h0 hfine h
  | close fd => exact close_step (onTables_ok h).1

/-! ### The invariant -/

/-- An entry agrees with its ledger: it is null exactly when it was never opened
or has been closed once more than it was duped. -/
def EntryFits : Option KernelFsFdtEntry → Option Count → Prop
  | none, none => True
  | none, some c => c.closes ≥ 1+c.dupes
  | some _, none => False
  | some e, some c =>
      kernelFsFdPathSpareGetMode e.spare ∈ [KernelFsFdModeRO, KernelFsFdModeWO, KernelFsFdModeRW] ∧
      1 ≤ kernelFsFdPathSpareGetRefCount e.spare ∧
      kernelFsFdPathSpareGetRefCount e.spare ≤ KernelFsFdRefCountMax-1 ∧
      c.closes+kernelFsFdPathSpareGetRefCount e.spare = 1+c.dupes

structure FdtInvariant (t : Tables) (l : Ledger) : Prop where
  invalid : t.fdt KernelFsFdInvalid = none
  fits : ∀ fd, EntryFits (t.fdt fd) (l fd)
  range : ∀ fd, t.fdt fd ≠ none → fd < KernelFsFdMax
  once : ∀ fd fd' e e', t.fdt fd = some e → t.fdt fd' = some e' → e.path = e'.path → fd ≠ fd' →
    kernelFsFileCanOpenMany t.devices e.path = .ok true

theorem mode_mem {mode : ℕ} :
    mode ∈ [KernelFsFdModeRO, KernelFsFdModeWO, KernelFsFdModeRW] ↔ 1 ≤ mode ∧ mode ≤ 3 := by
  simp only [KernelFsFdModeRO, KernelFsFdModeWO, KernelFsFdModeRW, List.mem_cons,
    List.not_mem_nil, or_false]
  omega

theorem fits_entry {e : KernelFsFdtEntry} {c : Option Count} (h : EntryFits (some e) c) :
    ∃ d, c = some d ∧ (1 ≤ kernelFsFdPathSpareGetMode e.spare ∧
      kernelFsFdPathSpareGetMode e.spare ≤ 3) ∧ 1 ≤ kernelFsFdPathSpareGetRefCount e.spare ∧
      kernelFsFdPathSpareGetRefCount e.spare ≤ 7 ∧
      d.closes+kernelFsFdPathSpareGetRefCount e.spare = 1+d.dupes := by
  cases c with
  | none => exact h.elim
  | some d => exact ⟨d, rfl, mode_mem.mp h.1, h.2.1, h.2.2.1, h.2.2.2⟩

theorem leftCount_pos {e : KernelFsFdtEntry} (h : 1 ≤ kernelFsFdPathSpareGetRefCount e.spare)
    (hle : kernelFsFdPathSpareGetRefCount e.spare ≤ 7) :
    leftCount e+1 = kernelFsFdPathSpareGetRefCount e.spare := by
  rw [leftCount, u32]
  omega

/-- An entry made with a good mode and count fits the ledger. -/
theorem fits_make {path : CStr} {mode refCount i : ℕ} {c : Count} (hm : 1 ≤ mode ∧ mode ≤ 3)
    (hr : 1 ≤ refCount ∧ refCount ≤ 7) (hc : c.closes+refCount = 1+c.dupes) :
    EntryFits (some ⟨path, kernelFsFdPathSpareMake mode refCount, i⟩) (some c) := by
  obtain ⟨hmode, hcount⟩ := spareMake_good hm (by omega : refCount < 8)
  refine ⟨?_, ?_, ?_, ?_⟩
  · rw [hmode]
    exact mode_mem.mpr hm
  · rw [hcount]
    exact hr.1
  · rw [hcount]
    exact hr.2
  · rw [hcount]
    exact hc

theorem entry_range {t : Tables} {l : Ledger} (h : FdtInvariant t l) {fd : ℕ}
    {e : KernelFsFdtEntry} (he : t.fdt fd = some e) :
    fd ≠ KernelFsFdInvalid ∧ fd < KernelFsFdMax := by
  constructor
  · rintro rfl
    rw [h.invalid] at he
    cases he
  · apply h.range
    rw [he]
    simp

/-- A change of one entry together with its ledger. -/
theorem invariant_set {t : Tables} {l : Ledger} (h : FdtInvariant t l) {fd : ℕ}
    {e : Option KernelFsFdtEntry} {c : Option Count} (hfits : EntryFits e c)
    (hfd : e ≠ none → fd ≠ KernelFsFdInvalid ∧ fd < KernelFsFdMax)
    (honce : ∀ x, e = some x → ∀ k y, k ≠ fd → t.fdt k = some y → y.path = x.path →
      kernelFsFileCanOpenMany t.devices x.path = .ok true) :
    FdtInvariant (t.setFd fd e) (l.set fd c) := by
  constructor
  · rw [Tables.setFd_fdt]
    by_cases hi : KernelFsFdInvalid = fd
    · rw [if_pos hi]
      by_contra hne
      exact (hfd hne).1 hi.symm
    · rw [if_neg hi]
      exact h.invalid
  · intro i
    rw [Tables.setFd_fdt, Ledger.set]
    by_cases hi : i = fd
    · rw [if_pos hi, if_pos hi]
      exact hfits
    · rw [if_neg hi, if_neg hi]
      exact h.fits i
  · intro i hx
    rw [Tables.setFd_fdt] at hx
    by_cases hi : i = fd
    · rw [if_pos hi] at hx
      rw [hi]
      exact (hfd hx).2
    · rw [if_neg hi] at hx
      exact h.range i hx
  · intro i j x y hx hy hxy hij
    rw [Tables.setFd_fdt] at hx hy
    rw [Tables.setFd_devices]
    by_cases hi : i = fd
    · rw [if_pos hi] at hx
      rw [if_neg (by omega)] at hy
      exact honce x hx j y (by omega) hy hxy.symm
    · rw [if_neg hi] at hx
      by_cases hj : j = fd
      · rw [if_pos hj] at hy
        rw [hxy]
        exact honce y hy i x hi hx hxy
      · rw [if_neg hj] at hy
        exact h.once i j x y hx hy hxy hij

theorem invariant_step {t t' : Tables} {l : Ledger} {ev : FdEvent} (h : FdtInvariant t l)
    (hstep : TableStep t ev t') : FdtInvariant t' (l.after ev) := by
  cases hstep with
  | failed => exact h
  | @opened fd path mode i hopen hmode hfd hlt hfree =>
    have hm : 1 ≤ mode ∧ mode ≤ 3 := by
      have hbounds := hopen.mode
      rw [KernelFsFdModeNone, show KernelFsFdModeMax = 4 from rfl] at hbounds
      rw [show KernelFsFdModeMax = 4 from rfl] at hmode
      omega
    apply invariant_set h
    · exact fits_make hm (by omega) rfl
    · exact fun _ => ⟨hfd, hlt⟩
    · rintro x hx k y hk hy hpath
      cases hx
      have hk := entry_range h hy
      exact hopen.once ⟨k, hk.1, hk.2, y, hy, hpath⟩
  | @duped fd e he hlt =>
    have hfits := h.fits fd
    rw [he] at hfits
    obtain ⟨c, hc, hm, hr, _, hcount⟩ := fits_entry hfits
    rw [show KernelFsFdRefCountMax = 8 from rfl] at hlt
    rw [Ledger.after, hc]
    apply invariant_set h
    · exact fits_make hm (by omega) (by dsimp only; omega)
    · exact fun _ => entry_range h he
    · rintro x hx k y hk hy hpath
      cases hx
      exact h.once fd k e y he hy hpath.symm (Ne.symm hk)
  | @closedNull fd he =>
    have hfits := h.fits fd
    rw [he] at hfits
    have hset : t.setFd fd none = t := setFd_same he
    rw [← hset]
    apply invariant_set h
    · cases hl : l fd with
      | none => trivial
      | some c =>
        rw [hl] at hfits
        exact Nat.le_succ_of_le hfits
    · exact fun hne => absurd rfl hne
    · exact fun x hx => by cases hx
  | @closed fd e he hlast =>
    have hfits := h.fits fd
    rw [he] at hfits
    obtain ⟨c, hc, _, hr, hle, hcount⟩ := fits_entry hfits
    have hleft := leftCount_pos hr hle
    rw [Ledger.after, hc]
    apply invariant_set h
    · change c.closes+1 ≥ 1+c.dupes
      omega
    · exact fun hne => absurd rfl hne
    · exact fun x hx => by cases hx
  | @closedOne fd e he hmore =>
    have hfits := h.fits fd
    rw [he] at hfits
    obtain ⟨c, hc, hm, hr, hle, hcount⟩ := fits_entry hfits
    have hleft := leftCount_pos hr hle
    rw [Ledger.after, hc]
    apply invariant_set h
    · exact fits_make hm (by omega) (by dsimp only; omega)
    · exact fun _ => entry_range h he
    · rintro x hx k y hk hy hpath
      cases hx
      exact h.once fd k e y he hy hpath.symm (Ne.symm hk)

theorem reached_invariant {s : Tables × σ} {l : Ledger} (h : FdReached p s l) :
    FdtInvariant s.1 l := by
  induction h with
  | start s hnone =>
    constructor
    · exact hnone _
    · intro fd
      rw [hnone fd]
      trivial
    · intro fd hne
      exact absurd (hnone fd) hne
    · intro fd fd' e e' he
      rw [hnone fd] at he
      cases he
  | call c reply hs hfine hrun ih => exact invariant_step ih (call_step p ih.invalid hfine hrun)

/-! ### Single calls -/

/-- No event but an open takes counts back, and none adds more than one close. -/
theorem after_counts {l : Ledger} {ev : FdEvent} {fd : ℕ} {c : Count} (hc : l fd = some c)
    (hev : ev ≠ .opened fd) : ∃ c', l.after ev fd = some c' ∧ c'.closes ≤ c.closes+1 ∧
      c.dupes ≤ c'.dupes := by
  cases ev with
  | failed => exact ⟨c, hc, by omega, le_refl _⟩
  | opened i =>
    have hne : fd ≠ i := by
      rintro rfl
      exact hev rfl
    exact ⟨c, by rw [Ledger.after, Ledger.set, if_neg hne, hc], by omega, le_refl _⟩
  | duped i =>
    by_cases hi : fd = i
    · subst hi
      exact ⟨⟨c.dupes+1, c.closes⟩, by rw [Ledger.after, Ledger.set, if_pos rfl, hc]; rfl,
        Nat.le_succ _, Nat.le_succ _⟩
    · exact ⟨c, by rw [Ledger.after, Ledger.set, if_neg hi, hc], by omega, le_refl _⟩
  | closed i =>
    by_cases hi : fd = i
    · subst hi
      exact ⟨⟨c.dupes, c.closes+1⟩, by rw [Ledger.after, Ledger.set, if_pos rfl, hc]; rfl,
        le_refl _, le_refl _⟩
    · exact ⟨c, by rw [Ledger.after, Ledger.set, if_neg hi, hc], by omega, le_refl _⟩

/-- An entry in use is cleared by the close that makes the closes one more than
the dupes, and by nothing else. -/
theorem becomes_null {t t' : Tables} {l : Ledger} {ev : FdEvent} (h : FdtInvariant t l)
    (hstep : TableStep t ev t') {fd : ℕ} {e : KernelFsFdtEntry} (he : t.fdt fd = some e) :
    t'.fdt fd = none ↔ ∃ c, l.after ev fd = some c ∧ c.closes = 1+c.dupes := by
  have hbefore := h.fits fd
  have hafter := (invariant_step h hstep).fits fd
  rw [he] at hbefore
  obtain ⟨c, hc, _, hr, _, hcount⟩ := fits_entry hbefore
  have hev : ev ≠ .opened fd := by
    rintro rfl
    cases hstep with
    | opened hopen hmode hne hlt hfree =>
      rw [he] at hfree
      cases hfree
  obtain ⟨c', hc', hcloses, hdupes⟩ := after_counts hc hev
  constructor
  · intro hnone
    rw [hnone, hc'] at hafter
    change c'.closes ≥ 1+c'.dupes at hafter
    exact ⟨c', hc', by omega⟩
  · rintro ⟨d, hd, heq⟩
    cases hfd : t'.fdt fd with
    | none => rfl
    | some e' =>
      rw [hfd] at hafter
      obtain ⟨d', hd', _, hpos, _, hcount'⟩ := fits_entry hafter
      rw [hd] at hd'
      cases hd'
      omega

/-- The reply of an open or a dupe that did nothing. -/
def FdCall.Failed : FdCall → ℕ → Prop
  | .openFile _ _, reply => reply = KernelFsFdInvalid
  | .dupe _, reply => reply = 0
  | .dupeOrOpen _, reply => reply = KernelFsFdInvalid
  | .close _, _ => False

theorem failed_event {c : FdCall} {reply : ℕ} (h : c.Failed reply) : c.event reply = .failed := by
  cases c with
  | openFile path mode => exact if_pos h
  | dupe fd => exact if_pos h
  | dupeOrOpen fd => exact if_pos h
  | close fd => exact h.elim

theorem failed_same {t t' : Tables} (h : TableStep t .failed t') : t' = t := by
  cases h with
  | failed => rfl

/-- Over every run from an empty table whose opens meet their condition: the
invariant holds, a call that fails leaves the tables alone, and an entry in use
is cleared by the close that outnumbers its dupes. -/
theorem fdt_run_invariant {s : Tables × σ} {l : Ledger} (h : FdReached p s l) :
    FdtInvariant s.1 l ∧
      ∀ (c : FdCall) (reply : ℕ) (s' : Tables × σ), c.Fine p s → c.run p s = .ok (reply, s') →
        (c.Failed reply → s'.1 = s.1) ∧
        ∀ fd, s.1.fdt fd ≠ none → (s'.1.fdt fd = none ↔
          ∃ n, l.after (c.event reply) fd = some n ∧ n.closes = 1+n.dupes) := by
  have hinv := reached_invariant p h
  refine ⟨hinv, ?_⟩
  intro c reply s' hfine hrun
  have hstep := call_step p hinv.invalid hfine hrun
  constructor
  · intro hfail
    rw [failed_event hfail] at hstep
    exact failed_same hstep
  · intro fd hfd
    cases he : s.1.fdt fd with
    | none => exact absurd he hfd
    | some e => exact becomes_null hinv hstep he

/-- An open that does not meet its condition leaves a table no run may leave. -/
theorem open_breaks {path : CStr} {mode fd : ℕ} {s s' : Tables × σ}
    (hbad : ¬ CommitFine p path mode s) (h : kernelFsFileOpen p path mode s = .ok (fd, s'))
    (l : Ledger) : ¬ FdtInvariant s'.1 l := by
  simp only [CommitFine, not_forall] at hbad
  obtain ⟨s₁, hcheck, hwrites, hbad⟩ := hbad
  obtain ⟨e, hw⟩ := Option.ne_none_iff_exists'.mp hwrites
  obtain ⟨i, _, he⟩ := openWrites_some p hw
  obtain ⟨hhw, hrun⟩ := open_writes p hcheck
  rw [hrun, hw, he] at h
  cases h
  intro hinv
  have hentry : (s.1.setFd (scannedFd s.1.fdt path) (some (openedEntry path mode i))).fdt
      (scannedFd s.1.fdt path) = some (openedEntry path mode i) := by simp
  apply hbad
  constructor
  · -- no count is stored with the bad mode
    rintro rfl
    have hfits := hinv.fits (scannedFd s.1.fdt path)
    rw [hentry] at hfits
    obtain ⟨c, _, _, hpos, _⟩ := fits_entry hfits
    rw [openedEntry, spareMake_mode_bad (le_refl _)] at hpos
    simp [kernelFsFdPathSpareGetRefCount] at hpos
  · intro hfull
    rw [(scannedFd_full path).mpr hfull] at hentry hinv
    rw [hinv.invalid] at hentry
    cases hentry

/-! ### The pins -/

/-- The tables with the first two pins and nothing open. -/
def pinTables : Tables := ⟨fun _ => none, deviceTable pinDevices, []⟩

/-- The same with the directory of devices open under every descriptor. -/
def fullTables : Tables where
  fdt := fun fd => if fd ≠ KernelFsFdInvalid ∧ fd < KernelFsFdMax then
    some (openedEntry (CStr.lit "/dev") KernelFsFdModeRO 1) else none
  devices := deviceTable pinDevices
  mounted := []

theorem fdt_run_invariant_pin :
    ∃ s, kernelFsFileOpen (memoryPlatform 1) (CStr.lit "/dev/pin0") KernelFsFdModeRW
        (pinTables, []) = .ok (63, s) ∧
      FdtInvariant s.1 (Ledger.after (fun _ => none) (.opened 63)) := by
  refine ⟨_, rfl, (fdt_run_invariant (memoryPlatform 1) (FdReached.call
    (.openFile (CStr.lit "/dev/pin0") KernelFsFdModeRW) 63
    (FdReached.start (pinTables, []) (fun _ => rfl)) ?_ rfl)).1⟩
  intro s₁ _ _
  exact ⟨by decide, fun hfull => hfull 1 (by decide) (by decide) rfl⟩

/-- The mode one above the last is let through and stored as nothing; in a full
table an open writes entry 0 and still reports failure. -/
theorem open_commits_unchecked :
    (∃ s e, kernelFsFileOpen (memoryPlatform 1) (CStr.lit "/dev/pin0") KernelFsFdModeMax
        (pinTables, []) = .ok (63, s) ∧ s.1.fdt 63 = some e ∧
      kernelFsFdPathSpareGetMode e.spare = KernelFsFdModeNone ∧
      kernelFsFdPathSpareGetRefCount e.spare = 0) ∧
    (∃ l, FdtInvariant fullTables l) ∧
    ∃ s, kernelFsFileOpen (memoryPlatform 1) (CStr.lit "/dev") KernelFsFdModeRO
        (fullTables, []) = .ok (KernelFsFdInvalid, s) ∧
      fullTables.fdt KernelFsFdInvalid = none ∧ s.1.fdt KernelFsFdInvalid ≠ none := by
  refine ⟨⟨_, openedEntry (CStr.lit "/dev/pin0") KernelFsFdModeMax 2, rfl, rfl, by decide,
    by decide⟩, ⟨fun fd => if fd ≠ KernelFsFdInvalid ∧ fd < KernelFsFdMax then some ⟨0, 0⟩
    else none, ?_⟩, _, rfl, rfl, ?_⟩
  · constructor
    · rfl
    · intro fd
      by_cases hfd : fd ≠ KernelFsFdInvalid ∧ fd < KernelFsFdMax
      · rw [fullTables]
        dsimp only
        rw [if_pos hfd, if_pos hfd]
        exact fits_make (by decide) (by decide) rfl
      · rw [fullTables]
        dsimp only
        rw [if_neg hfd, if_neg hfd]
        trivial
    · intro fd hfd
      by_contra hge
      exact hfd (if_neg (fun h => hge h.2))
    · intro fd fd' e e' he _ _ _
      have hmem : e.path = CStr.lit "/dev" := by
        rw [fullTables] at he
        dsimp only at he
        split at he
        · cases he
          rfl
        · cases he
      rw [hmem]
      decide
  · exact Option.isSome_iff_ne_none.mp rfl

end ArduinoOS.Kernel
