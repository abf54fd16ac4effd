import ArduinoOS.Kernel.MountTable
import ArduinoOS.Procman.LocalFds

/-!
# Runs of opens and closes of a process

The process's table and the kernel's table move together: each used place
stands for an open descriptor, no two for the same one, and none for a
descriptor that a mount holds.
-/

set_option autoImplicit false

namespace ArduinoOS.Procman
open ArduinoOS.Faulting ArduinoOS.Kernel

variable {σ : Type} (p : Platform σ)

/-! ### Tables that agree -/

/-- An entry with a mode and a count that its bits can hold. -/
structure EntryGood (e : KernelFsFdtEntry) : Prop where
  mode : 1 ≤ kernelFsFdPathSpareGetMode e.spare ∧ kernelFsFdPathSpareGetMode e.spare ≤ 3
  count : 1 ≤ kernelFsFdPathSpareGetRefCount e.spare ∧ kernelFsFdPathSpareGetRefCount e.spare ≤ 7

structure FdtGood (t : Tables) : Prop where
  invalid : t.fdt KernelFsFdInvalid = none
  range : ∀ fd, t.fdt fd ≠ none → fd < KernelFsFdMax
  good : ∀ fd e, t.fdt fd = some e → EntryGood e

structure FdsSound (d : ProcManProcessProcData) (t : Tables) : Prop where
  table : FdtGood t
  used : ∀ i, d.fds i ≠ 0 → t.fdt (d.fds i).toNat ≠ none
  apart : ∀ i j, d.fds i ≠ 0 → d.fds i = d.fds j → i = j
  mounted : ∀ m ∈ t.mounted, t.fdt m.fd ≠ none
  once : (t.mounted.map KernelMountDevice.fd).Nodup
  unmixed : ∀ i, d.fds i ≠ 0 → ∀ m ∈ t.mounted, m.fd ≠ (d.fds i).toNat

/-- The entry with one reference less, which is null without the last one. -/
def dropped (e : KernelFsFdtEntry) : Option KernelFsFdtEntry :=
  if kernelFsFdPathSpareGetRefCount e.spare = 1 then none
  else some (recount e (kernelFsFdPathSpareGetRefCount e.spare-1))

/-! ### The statements -/

/-- An open succeeds exactly if the mode is valid, a place is free and the
kernel's open succeeds, and fills the lowest free place; else nothing changes. -/
def OpensWell (d : ProcManProcessProcData) (path : CStr) (mode : ℕ) (s : Tables × σ) : Prop :=
  (∀ i fd s', ¬ BadMode mode → LowestFree d i → kernelFsFileOpen p path mode s = .ok (fd, s') →
      fd ≠ KernelFsFdInvalid →
      procManProcessOpenFile (kernelFiles p) d path mode s =
        .ok ((i.val+1, d.setFd i (UInt8.ofNat fd)), s')) ∧
    ((BadMode mode ∨ FdsFull d ∨
        ∃ s', kernelFsFileOpen p path mode s = .ok (KernelFsFdInvalid, s')) →
      ∃ h, procManProcessOpenFile (kernelFiles p) d path mode s =
        .ok ((ProcManLocalFdInvalid, d), (s.1, h)))

/-- A close clears its place and drops one reference; beyond that only a pipe
that is taken down gives up the descriptor of its mount. -/
def ClosesWell (d : ProcManProcessProcData) (localFd : ℕ) (s : Tables × σ) : Prop :=
  ∀ d' s', procManProcessCloseFile (kernelFiles p) d localFd s = .ok (d', s') →
    (∀ i : Fin 8, localFd = i.val+1 → d.fds i ≠ 0 → d' = d.setFd i 0 ∧
      ∃ e, s.1.fdt (d.fds i).toNat = some e ∧ s'.1.fdt (d.fds i).toNat = dropped e ∧
        ∀ fd, fd ≠ (d.fds i).toNat → s'.1.fdt fd ≠ s.1.fdt fd →
          0 < pipeIdOf e.path ∧ ∃ m ∈ s.1.mounted, m.fd = fd) ∧
    ((∀ i : Fin 8, localFd = i.val+1 → d.fds i = 0) → d' = d ∧ s' = s)

/-- The mode is not valid, or a place is free and, if it is the last one, the
kernel's open does not succeed, and if it is another one, the open does not
write into a full table. -/
def OpenFine (d : ProcManProcessProcData) (path : CStr) (mode : ℕ) (s : Tables × σ) : Prop :=
  BadMode mode ∨ ∃ i, LowestFree d i ∧
    if i.val = 7 then
      ∀ fd s', kernelFsFileOpen p path mode s = .ok (fd, s') → fd = KernelFsFdInvalid
    else CommitFine p path mode s

inductive FdsReached : ProcManProcessProcData → Tables × σ → Prop
  | start {d : ProcManProcessProcData} {s : Tables × σ} (h : FdsSound d s.1) : FdsReached d s
  | openFile {d d' : ProcManProcessProcData} {s s' : Tables × σ} (path : CStr) (mode localFd : ℕ)
      (hs : FdsReached d s) (hfine : OpenFine p d path mode s)
      (hrun : procManProcessOpenFile (kernelFiles p) d path mode s = .ok ((localFd, d'), s')) :
      FdsReached d' s'
  | closeFile {d d' : ProcManProcessProcData} {s s' : Tables × σ} (localFd : ℕ)
      (hs : FdsReached d s)
      (hrun : procManProcessCloseFile (kernelFiles p) d localFd s = .ok (d', s')) :
      FdsReached d' s'

variable {d d' : ProcManProcessProcData} {t t' : Tables} {s s' : Tables × σ} {path : CStr}
  {mode fd localFd : ℕ} {i j : Fin 8} {e : KernelFsFdtEntry}

/-! ### Entries -/

theorem toNat_ne_zero {x : UInt8} (h : x ≠ 0) : x.toNat ≠ 0 := fun h0 =>
  h (UInt8.toNat.inj (by simpa using h0))

theorem ofNat_val (hlt : fd < KernelFsFdMax) : (UInt8.ofNat fd).toNat = fd := by
  rw [KernelFsFdMax] at hlt
  exact UInt8.toNat_ofNat_of_lt' (lt_trans hlt (by decide))

theorem ofNat_ne_zero (h : fd ≠ 0) (hlt : fd < KernelFsFdMax) : UInt8.ofNat fd ≠ 0 := by
  intro h0
  have hval := congrArg UInt8.toNat h0
  rw [ofNat_val hlt] at hval
  exact h hval

theorem opened_good {k : ℕ} (h : ¬ BadMode mode) : EntryGood (openedEntry path mode k) := by
  have hmode : 1 ≤ mode ∧ mode ≤ 3 := by
    simp only [not_or, KernelFsFdModeNone, KernelFsFdModeMax, KernelFsFdModeBits] at h
    omega
  obtain ⟨hm, hc⟩ := spareMake_good hmode (by decide : 1 < 8)
  constructor
  · rwa [openedEntry, hm]
  · rw [openedEntry, hc]
    decide

theorem dropped_good {e' : KernelFsFdtEntry} (h : EntryGood e) (hdrop : dropped e = some e') :
    EntryGood e' := by
  rw [dropped] at hdrop
  split at hdrop
  · cases hdrop
  · cases hdrop
    have hcount := h.count
    obtain ⟨hm, hc⟩ := spareMake_good h.mode
      (by omega : kernelFsFdPathSpareGetRefCount e.spare-1 < 8)
    constructor
    · rw [recount, hm]
      exact h.mode
    · rw [recount, hc]
      omega

theorem close_drops (he : t.fdt fd = some e) (hgood : EntryGood e)
    (hstep : TableStep t (.closed fd) t') : t' = t.setFd fd (dropped e) := by
  have hleft := leftCount_pos hgood.count.1 hgood.count.2
  cases hstep with
  | closedNull hnone =>
    rw [he] at hnone
    cases hnone
  | closed he' hlast =>
    rw [he] at he'
    cases he'
    rw [dropped, if_pos (by omega)]
  | closedOne he' hmore =>
    rw [he] at he'
    cases he'
    have hcount : kernelFsFdPathSpareGetRefCount e.spare-1 = leftCount e := by omega
    rw [dropped, if_neg (by omega), hcount]

theorem fdtGood_set {x : Option KernelFsFdtEntry} (h : FdtGood t)
    (hx : ∀ e, x = some e → EntryGood e ∧ fd ≠ KernelFsFdInvalid ∧ fd < KernelFsFdMax) :
    FdtGood (t.setFd fd x) := by
  constructor
  · rw [Tables.setFd_fdt]
    by_cases h0 : KernelFsFdInvalid = fd
    · rw [if_pos h0]
      cases x with
      | none => rfl
      | some e => exact absurd h0.symm (hx e rfl).2.1
    · rw [if_neg h0]
      exact h.invalid
  · intro k hk
    rw [Tables.setFd_fdt] at hk
    by_cases hkfd : k = fd
    · rw [if_pos hkfd] at hk
      obtain ⟨e, he⟩ := Option.ne_none_iff_exists'.mp hk
      rw [hkfd]
      exact (hx e he).2.2
    · rw [if_neg hkfd] at hk
      exact h.range k hk
  · intro k e hk
    rw [Tables.setFd_fdt] at hk
    split at hk
    · exact (hx e hk).1
    · exact h.good k e hk

/-! ### Steps keep the tables sound -/

theorem sound_open (h : FdsSound d t) (i : Fin 8) (hfd : fd ≠ KernelFsFdInvalid)
    (hlt : fd < KernelFsFdMax) (hfree : t.fdt fd = none) (hgood : EntryGood e) :
    FdsSound (d.setFd i (UInt8.ofNat fd)) (t.setFd fd (some e)) := by
  have hkept {k : ℕ} (hk : t.fdt k ≠ none) : k ≠ fd ∧ (t.setFd fd (some e)).fdt k ≠ none := by
    have hne : k ≠ fd := by
      rintro rfl
      exact hk hfree
    rw [Tables.setFd_fdt, if_neg hne]
    exact ⟨hne, hk⟩
  -- the new place holds a descriptor that no other place and no mount held
  have hother {k : Fin 8} (hk : d.fds k ≠ 0) : d.fds k ≠ UInt8.ofNat fd := by
    intro heq
    have hval := congrArg UInt8.toNat heq
    rw [ofNat_val hlt] at hval
    exact (hkept (h.used k hk)).1 hval
  constructor
  · apply fdtGood_set h.table
    intro e' he'
    cases he'
    exact ⟨hgood, hfd, hlt⟩
  · intro k hk
    by_cases hki : k = i
    · rw [hki, setFd_same, ofNat_val hlt, Tables.setFd_fdt, if_pos rfl]
      simp
    · rw [setFd_ne d hki] at hk ⊢
      exact (hkept (h.used k hk)).2
  · intro k l hk hkl
    by_cases hki : k = i <;> by_cases hli : l = i
    · rw [hki, hli]
    · rw [hki, setFd_same] at hk hkl
      rw [setFd_ne d hli] at hkl
      exact absurd hkl.symm (hother (by rwa [← hkl]))
    · rw [setFd_ne d hki] at hk hkl
      rw [hli, setFd_same] at hkl
      exact absurd hkl (hother hk)
    · rw [setFd_ne d hki] at hk hkl
      rw [setFd_ne d hli] at hkl
      exact h.apart k l hk hkl
  · intro m hm
    exact (hkept (h.mounted m hm)).2
  · exact h.once
  · intro k hk m hm
    by_cases hki : k = i
    · rw [hki, setFd_same, ofNat_val hlt]
      exact (hkept (h.mounted m hm)).1
    · rw [setFd_ne d hki] at hk ⊢
      exact h.unmixed k hk m hm

theorem sound_close (h : FdsSound d t) (hi : d.fds i ≠ 0) (he : t.fdt (d.fds i).toNat = some e) :
    FdsSound (d.setFd i 0) (t.setFd (d.fds i).toNat (dropped e)) := by
  have hkept {k : ℕ} (hk : k ≠ (d.fds i).toNat) :
      (t.setFd (d.fds i).toNat (dropped e)).fdt k = t.fdt k := by
    rw [Tables.setFd_fdt, if_neg hk]
  have hstays {k : Fin 8} (hk : (d.setFd i 0).fds k ≠ 0) : k ≠ i ∧ d.fds k ≠ 0 := by
    have hne : k ≠ i := by
      rintro rfl
      rw [setFd_same] at hk
      exact hk rfl
    rw [setFd_ne d hne] at hk
    exact ⟨hne, hk⟩
  have hapart {k : Fin 8} (hne : k ≠ i) (hk : d.fds k ≠ 0) :
      (d.fds k).toNat ≠ (d.fds i).toNat := fun heq =>
    hne (h.apart k i hk (UInt8.toNat.inj heq))
  constructor
  · apply fdtGood_set h.table
    intro e' he'
    refine ⟨dropped_good (h.table.good _ e he) he', toNat_ne_zero hi, h.table.range _ ?_⟩
    rw [he]
    simp
  · intro k hk
    obtain ⟨hne, hk⟩ := hstays hk
    rw [setFd_ne d hne, hkept (hapart hne hk)]
    exact h.used k hk
  · intro k l hk hkl
    obtain ⟨hne, hk'⟩ := hstays hk
    obtain ⟨hne', -⟩ := hstays (hkl ▸ hk)
    rw [setFd_ne d hne, setFd_ne d hne'] at hkl
    exact h.apart k l hk' hkl
  · intro m hm
    rw [hkept (h.unmixed i hi m hm)]
    exact h.mounted m hm
  · exact h.once
  · intro k hk m hm
    obtain ⟨hne, hk⟩ := hstays hk
    rw [setFd_ne d hne]
    exact h.unmixed k hk m hm

/-- Devices do not matter. -/
theorem sound_congr (h : FdsSound d t) (hfdt : t'.fdt = t.fdt) (hmounted : t'.mounted = t.mounted) :
    FdsSound d t' where
  table := by
    constructor
    · rw [hfdt]
      exact h.table.invalid
    · rw [hfdt]
      exact h.table.range
    · rw [hfdt]
      exact h.table.good
  used := by
    rw [hfdt]
    exact h.used
  apart := h.apart
  mounted := by
    rw [hfdt, hmounted]
    exact h.mounted
  once := by
    rw [hmounted]
    exact h.once
  unmixed := by
    rw [hmounted]
    exact h.unmixed

/-- A mount goes with its descriptor. -/
theorem sound_unmounted {k : ℕ} {m : KernelMountDevice} (h : FdsSound d t)
    (hm : t.mounted[k]? = some m) (he : t.fdt m.fd = some e) :
    FdsSound d ((t.setFd m.fd (dropped e)).setMounted (removeMounted t.mounted k)) := by
  have hperm := removeMounted_perm hm
  have hmem : m ∈ t.mounted := List.mem_of_getElem? hm
  have honce := (hperm.map KernelMountDevice.fd).nodup_iff.mp h.once
  rw [List.map_cons, List.nodup_cons] at honce
  have hstays {n : KernelMountDevice} (hn : n ∈ removeMounted t.mounted k) :
      n ∈ t.mounted ∧ n.fd ≠ m.fd := by
    refine ⟨hperm.mem_iff.mpr (List.mem_cons_of_mem _ hn), ?_⟩
    intro heq
    exact honce.1 (heq ▸ List.mem_map_of_mem hn)
  have hkept {l : ℕ} (hl : l ≠ m.fd) :
      ((t.setFd m.fd (dropped e)).setMounted (removeMounted t.mounted k)).fdt l = t.fdt l := by
    rw [Tables.setMounted_fdt, Tables.setFd_fdt, if_neg hl]
  constructor
  · have hgood : FdtGood (t.setFd m.fd (dropped e)) := by
      apply fdtGood_set h.table
      intro e' he'
      have hfd : m.fd ≠ KernelFsFdInvalid := by
        intro h0
        exact h.mounted m hmem (h0 ▸ h.table.invalid)
      exact ⟨dropped_good (h.table.good _ e he) he', hfd, h.table.range _ (h.mounted m hmem)⟩
    exact ⟨hgood.invalid, hgood.range, hgood.good⟩
  · intro l hl
    rw [hkept (h.unmixed l hl m hmem).symm]
    exact h.used l hl
  · exact h.apart
  · intro n hn
    obtain ⟨hn, hne⟩ := hstays hn
    rw [hkept hne]
    exact h.mounted n hn
  · exact honce.2
  · intro l hl n hn
    exact h.unmixed l hl n (hstays hn).1

theorem sound_unmount {u : Unit} (h : FdsSound d s.1)
    (hrun : (kernelUnmount path : KernelRun σ Unit) s = .ok (u, s')) :
    FdsSound d s'.1 ∧ ∀ fd, s'.1.fdt fd ≠ s.1.fdt fd → ∃ m ∈ s.1.mounted, m.fd = fd := by
  rcases unmount_cases hrun with hsame | ⟨k, t, hfound, hstep, hs'⟩
  · rw [hsame]
    exact ⟨h, fun fd hne => absurd rfl hne⟩
  obtain ⟨m, hm, hfd⟩ := findMounted_some hfound
  have hmem : m ∈ s.1.mounted := List.mem_of_getElem? hm
  have hdevice : (withoutDevice s.1 path).fdt = s.1.fdt ∧
      (withoutDevice s.1 path).mounted = s.1.mounted := by
    unfold withoutDevice
    split
    · exact ⟨rfl, rfl⟩
    · exact ⟨rfl, rfl⟩
  have hsound := sound_congr h hdevice.1 hdevice.2
  rw [← hdevice.2] at hm hmem
  obtain ⟨e, he⟩ := Option.ne_none_iff_exists'.mp (hsound.mounted m hmem)
  rw [← hfd] at hstep
  have ht := close_drops he (hsound.table.good _ e he) hstep
  rw [hs', ht]
  refine ⟨sound_unmounted hsound hm he, ?_⟩
  intro fd hne
  by_cases hfd' : fd = m.fd
  · rw [hdevice.2] at hmem
    exact ⟨m, hmem, hfd'.symm⟩
  · rw [Tables.setMounted_fdt, Tables.setFd_fdt, if_neg hfd', hdevice.1] at hne
    exact absurd rfl hne

/-! ### One call -/

/-- An open at a place that is not the last one, by what the kernel's open did. -/
theorem openFile_kernel (hmode : ¬ BadMode mode) (hi : LowestFree d i) (hlt : i.val < 7)
    (hopen : kernelFsFileOpen p path mode s = .ok (fd, s')) :
    procManProcessOpenFile (kernelFiles p) d path mode s =
      .ok (if fd = KernelFsFdInvalid then (ProcManLocalFdInvalid, d)
        else (i.val+1, d.setFd i (UInt8.ofNat fd)), s') := by
  rw [openFile_found hmode hi hlt]
  rw [bind_of_ok (show (kernelFiles p).kernelFsFileOpen path mode s = .ok (fd, s') from hopen)]
  by_cases hfd : fd = KernelFsFdInvalid
  · rw [if_pos hfd, hfd]
    rfl
  · rw [if_neg hfd, if_neg (ofNat_ne_zero hfd (open_entry p hopen hfd).2.1)]
    rfl

theorem openFile_fullTable (hmode : ¬ BadMode mode) (h : FdtGood s.1) (hbad : ¬ CommitFine p path mode s) :
    ∃ s', kernelFsFileOpen p path mode s = .ok (KernelFsFdInvalid, s') ∧ s'.1 ≠ s.1 := by
  simp only [CommitFine, not_forall] at hbad
  obtain ⟨s₁, hcheck, hwrites, hbad⟩ := hbad
  have hmax : mode ≠ KernelFsFdModeMax := by
    rintro rfl
    exact hmode (.inr (le_refl _))
  have hfull : FullTable s.1.fdt := by
    by_contra hfree
    exact hbad ⟨hmax, hfree⟩
  obtain ⟨hw, hrun⟩ := open_writes p hcheck
  obtain ⟨e, he⟩ := Option.ne_none_iff_exists'.mp hwrites
  rw [(scannedFd_full path).mpr hfull, he, Option.isSome_some, if_pos rfl] at hrun
  refine ⟨_, hrun, ?_⟩
  intro hsame
  have hentry := congrArg (fun t => t.fdt KernelFsFdInvalid) hsame
  simp only [Tables.setFd_fdt, if_true, h.invalid] at hentry
  cases hentry

theorem opensWell_iff (h : FdsSound d s.1) :
    OpensWell p d path mode s ↔ OpenFine p d path mode s := by
  constructor
  · rintro ⟨hsucc, hfail⟩
    by_cases hmode : BadMode mode
    · exact .inl hmode
    rcases full_or_lowest d with hfull | ⟨i, hi⟩
    · obtain ⟨hw, hrun⟩ := hfail (.inr (.inl hfull))
      rw [openFile_full hmode hfull] at hrun
      obtain ⟨_, _, _, hthrow⟩ := bind_ok.mp hrun
      exact absurd hthrow throw_ok
    refine .inr ⟨i, hi, ?_⟩
    split
    · intro fd s' hopen
      by_contra hfd
      have hrun := hsucc i fd s' hmode hi hopen hfd
      rw [openFile_last hi ‹_›] at hrun
      cases hrun
    · by_contra hbad
      have hlt : i.val < 7 := by omega
      obtain ⟨s', hopen, hne⟩ := openFile_fullTable p hmode h.table hbad
      obtain ⟨hw, hrun⟩ := hfail (.inr (.inr ⟨s', hopen⟩))
      rw [openFile_kernel p hmode hi hlt hopen] at hrun
      cases hrun
      exact hne rfl
  · rintro (hmode | ⟨i, hi, hfine⟩)
    · exact ⟨fun _ _ _ hgood => absurd hmode hgood, fun _ => ⟨s.2, openFile_bad hmode⟩⟩
    split at hfine
    · constructor
      · intro k fd s' _ hk hopen hfd
        exact absurd (hfine fd s' hopen) hfd
      · exact fun _ => ⟨s.2, openFile_last hi ‹_›⟩
    · have hlt : i.val < 7 := by omega
      constructor
      · intro k fd s' hmode hk hopen hfd
        rw [lowest_unique hk hi, openFile_kernel p hmode hi hlt hopen, if_neg hfd]
      · intro hwhy
        by_cases hmode : BadMode mode
        · exact ⟨s.2, openFile_bad hmode⟩
        rcases hwhy with hbad | hfull | ⟨s', hopen⟩
        · exact absurd hbad hmode
        · exact absurd hfull (lowest_not_full hi)
        · have hsame : s'.1 = s.1 := by
            rcases open_step p h.table.invalid hfine hopen with ⟨-, hsame⟩ | ⟨hne, -⟩
            · exact hsame
            · exact absurd rfl hne
          refine ⟨s'.2, ?_⟩
          rw [openFile_kernel p hmode hi hlt hopen, if_pos rfl, ← hsame]

theorem openFile_sound (h : FdsSound d s.1) (hfine : OpenFine p d path mode s)
    (hrun : procManProcessOpenFile (kernelFiles p) d path mode s = .ok ((localFd, d'), s')) :
    FdsSound d' s'.1 := by
  by_cases hmode : BadMode mode
  · rw [openFile_bad hmode] at hrun
    cases hrun
    exact h
  obtain ⟨i, hi, hfine⟩ := hfine.resolve_left hmode
  split at hfine
  · rw [openFile_last hi ‹_›] at hrun
    cases hrun
    exact h
  have hlt : i.val < 7 := by omega
  rw [openFile_found hmode hi hlt] at hrun
  obtain ⟨fd, s₁, hopen, -⟩ := bind_ok.mp hrun
  rw [← openFile_found hmode hi hlt, openFile_kernel p hmode hi hlt hopen] at hrun
  rcases open_step p h.table.invalid hfine hopen with ⟨hzero, hsame⟩ | ⟨hne, hfree, -⟩
  · rw [if_pos hzero] at hrun
    cases hrun
    rw [hsame]
    exact h
  · rw [if_neg hne] at hrun
    cases hrun
    obtain ⟨-, hmax, -, k, -, hs'⟩ := open_entry p hopen hne
    rw [hs']
    exact sound_open h i hne hmax hfree (opened_good hmode)

theorem closePipe_sound {u : Unit} (h : FdsSound d s.1)
    (hrun : closePipe (kernelFiles p) path s = .ok (u, s')) :
    FdsSound d s'.1 ∧ ∀ fd, s'.1.fdt fd ≠ s.1.fdt fd →
      0 < pipeIdOf path ∧ ∃ m ∈ s.1.mounted, m.fd = fd := by
  obtain ⟨opened, s₁, hopened, hrest⟩ := bind_ok.mp hrun
  obtain ⟨t, s₂, hget, hpure⟩ := bind_ok.mp hopened
  obtain ⟨-, rfl⟩ := getFirst_ok.mp hget
  obtain ⟨-, rfl⟩ := pure_ok.mp hpure
  split at hrest
  · rename_i hpipe
    obtain ⟨_, s₃, hunmount, hrest⟩ := bind_ok.mp hrest
    obtain ⟨_, s₄, hdelete, hrest⟩ := bind_ok.mp hrest
    obtain ⟨-, rfl⟩ := pure_ok.mp hrest
    obtain ⟨hsound, honly⟩ := sound_unmount h hunmount
    have hdevice : s'.1.fdt = s₃.1.fdt ∧ s'.1.mounted = s₃.1.mounted := by
      rcases delete_cases p hdelete with hsame | ⟨slot, -, hs'⟩
      · rw [hsame]
        exact ⟨rfl, rfl⟩
      · rw [hs']
        exact ⟨rfl, rfl⟩
    refine ⟨sound_congr hsound hdevice.1 hdevice.2, ?_⟩
    intro fd hne
    rw [hdevice.1] at hne
    exact ⟨hpipe.1, honly fd hne⟩
  · obtain ⟨-, rfl⟩ := pure_ok.mp hrest
    exact ⟨h, fun fd hne => absurd rfl hne⟩

/-- What the close of a used place leaves. -/
structure Closed (d : ProcManProcessProcData) (i : Fin 8) (s : Tables × σ)
    (d' : ProcManProcessProcData) (s' : Tables × σ) : Prop where
  place : d' = d.setFd i 0
  sound : FdsSound d' s'.1
  entry : ∃ e, s.1.fdt (d.fds i).toNat = some e ∧ s'.1.fdt (d.fds i).toNat = dropped e ∧
    ∀ fd, fd ≠ (d.fds i).toNat → s'.1.fdt fd ≠ s.1.fdt fd →
      0 < pipeIdOf e.path ∧ ∃ m ∈ s.1.mounted, m.fd = fd

theorem closeLocalFd_closed (h : FdsSound d s.1) (hi : d.fds i ≠ 0)
    (hrun : closeLocalFd (kernelFiles p) d i s = .ok (d', s')) : Closed d i s d' s' := by
  obtain ⟨e, he⟩ := Option.ne_none_iff_exists'.mp (h.used i hi)
  obtain ⟨found, s₁, hpath, hrest⟩ := bind_ok.mp hrun
  obtain ⟨t, s₂, hget, hpath⟩ := bind_ok.mp hpath
  obtain ⟨ht, hs₂⟩ := getFirst_ok.mp hget
  rw [ht, hs₂] at hpath
  obtain ⟨hpath, hs₁⟩ := fromExcept_ok.mp hpath
  rw [hs₁] at hrest
  have hfound := getFilePath_ok hpath
  rw [he, Option.map_some] at hfound
  subst hfound
  obtain ⟨count, s₃, hclose, hrest⟩ := bind_ok.mp hrest
  obtain ⟨_, s₄, hpipe, hrest⟩ := bind_ok.mp hrest
  obtain ⟨rfl, rfl⟩ := pure_ok.mp hrest
  have hs₃ := close_drops he (h.table.good _ e he) (close_step (onTables_ok hclose).1)
  have hsound : FdsSound (d.setFd i 0) s₃.1 := by
    rw [hs₃]
    exact sound_close h hi he
  obtain ⟨hsound', honly⟩ := closePipe_sound p hsound hpipe
  refine ⟨rfl, hsound', e, he, ?_, ?_⟩
  · -- no mount holds the descriptor
    by_contra hne
    have hchanged : s'.1.fdt (d.fds i).toNat ≠ s₃.1.fdt (d.fds i).toNat := by
      rw [hs₃, Tables.setFd_fdt, if_pos rfl]
      exact hne
    obtain ⟨-, m, hm, hfd⟩ := honly _ hchanged
    rw [hs₃] at hm
    exact h.unmixed i hi m hm hfd
  · intro fd hfd hne
    have hkept : s₃.1.fdt fd = s.1.fdt fd := by
      rw [hs₃, Tables.setFd_fdt, if_neg hfd]
    rw [← hkept] at hne
    obtain ⟨hpos, m, hm, hmfd⟩ := honly fd hne
    rw [hs₃] at hm
    exact ⟨hpos, m, hm, hmfd⟩

/-- A close does nothing, or its place is used and is closed. -/
theorem closeFile_cases (h : FdsSound d s.1)
    (hrun : procManProcessCloseFile (kernelFiles p) d localFd s = .ok (d', s')) :
    ((∀ i : Fin 8, localFd = i.val+1 → d.fds i = 0) ∧ d' = d ∧ s' = s) ∨
      ∃ i : Fin 8, localFd = i.val+1 ∧ d.fds i ≠ 0 ∧ Closed d i s d' s' := by
  unfold procManProcessCloseFile at hrun
  split at hrun
  · rename_i hzero
    obtain ⟨rfl, rfl⟩ := pure_ok.mp hrun
    refine .inl ⟨?_, rfl, rfl⟩
    intro i hi
    rw [hzero, ProcManLocalFdInvalid] at hi
    omega
  rename_i hzero
  rw [ProcManLocalFdInvalid] at hzero
  split at hrun
  · rename_i hlt
    have hplace : localFd = (⟨localFd-1, hlt⟩ : Fin 8).val+1 := by
      change localFd = localFd-1+1
      omega
    split at hrun
    · rename_i hunused
      obtain ⟨rfl, rfl⟩ := pure_ok.mp hrun
      refine .inl ⟨?_, rfl, rfl⟩
      intro i hi
      have hsame : i = ⟨localFd-1, hlt⟩ := Fin.ext (by omega)
      rw [hsame]
      exact hunused
    · rename_i hused
      exact .inr ⟨_, hplace, hused, closeLocalFd_closed p h hused hrun⟩
  · obtain ⟨rfl, rfl⟩ := pure_ok.mp hrun
    refine .inl ⟨?_, rfl, rfl⟩
    intro i hi
    omega

theorem closeFile_sound (h : FdsSound d s.1)
    (hrun : procManProcessCloseFile (kernelFiles p) d localFd s = .ok (d', s')) :
    FdsSound d' s'.1 := by
  rcases closeFile_cases p h hrun with ⟨-, rfl, rfl⟩ | ⟨i, -, -, hclosed⟩
  · exact h
  · exact hclosed.sound

theorem closesWell (h : FdsSound d s.1) (localFd : ℕ) : ClosesWell p d localFd s := by
  intro d' s' hrun
  rcases closeFile_cases p h hrun with ⟨hunused, rfl, rfl⟩ | ⟨i, hi, hused, hclosed⟩
  · constructor
    · intro k hk hused
      exact absurd (hunused k hk) hused
    · exact fun _ => ⟨rfl, rfl⟩
  · constructor
    · intro k hk _
      have hsame : k = i := Fin.ext (by omega)
      rw [hsame]
      exact ⟨hclosed.place, hclosed.entry⟩
    · intro hunused
      exact absurd (hunused i hi) hused

/-! ### Runs -/

theorem reached_sound (h : FdsReached p d s) : FdsSound d s.1 := by
  induction h with
  | start h => exact h
  | openFile path mode localFd _ hfine hrun ih => exact openFile_sound p ih hfine hrun
  | closeFile localFd _ hrun ih => exact closeFile_sound p ih hrun

/-- A process with so many of its first places used. -/
def busyProcData (k : ℕ) : ProcManProcessProcData :=
  ⟨fun _ => 0, fun _ => 0, 0, 0, 0, fun i => if i.val < k then UInt8.ofNat (i.val+1) else 0, 0, 0, 0⟩

/-- The directory of devices is open under so many descriptors. -/
def busyTables (k : ℕ) : Tables where
  fdt := fun fd => if 1 ≤ fd ∧ fd ≤ k then
    some (openedEntry (CStr.lit "/dev") KernelFsFdModeRO 1) else none
  devices := deviceTable pinDevices
  mounted := []

theorem busy_sound {k : ℕ} (hk : k ≤ 8) : FdsSound (busyProcData k) (busyTables k) := by
  have hval (i : Fin 8) : (UInt8.ofNat (i.val+1)).toNat = i.val+1 :=
    ofNat_val (by rw [KernelFsFdMax]; omega)
  have hused (i : Fin 8) (hi : (busyProcData k).fds i ≠ 0) :
      i.val < k ∧ ((busyProcData k).fds i).toNat = i.val+1 := by
    by_cases hlt : i.val < k
    · have hplace : (busyProcData k).fds i = UInt8.ofNat (i.val+1) := if_pos hlt
      rw [hplace, hval]
      exact ⟨hlt, rfl⟩
    · simp [busyProcData, hlt] at hi
  have hopen {fd : ℕ} (hfd : 1 ≤ fd ∧ fd ≤ k) : (busyTables k).fdt fd ≠ none := by
    simp [busyTables, hfd]
  constructor
  · constructor
    · rfl
    · intro fd hfd
      by_contra hge
      rw [KernelFsFdMax] at hge
      exact hfd (if_neg (by omega))
    · intro fd e he
      simp only [busyTables] at he
      split at he
      · cases he
        exact opened_good (by decide)
      · cases he
  · intro i hi
    obtain ⟨hlt, heq⟩ := hused i hi
    rw [heq]
    exact hopen (by omega)
  · intro i j hi hij
    obtain ⟨-, heq⟩ := hused i hi
    obtain ⟨-, heq'⟩ := hused j (hij ▸ hi)
    rw [hij, heq'] at heq
    exact Fin.ext (by omega)
  · simp [busyTables]
  · exact List.nodup_nil
  · simp [busyTables]

end ArduinoOS.Procman
