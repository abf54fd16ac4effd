import ArduinoOS.Kernel.FileSizes
import ArduinoOS.Procman.KernelFiles

/-!
# Runs of file calls

Opening, sharing and closing descriptors, and the queries. With the calls that
change files they make every run of calls a run of the abstract file system.
-/

set_option autoImplicit false

namespace ArduinoOS.Procman
open ArduinoOS.ByteProgram ArduinoOS.Faulting ArduinoOS.Kernel ArduinoOS.Minifs
open ArduinoOS.Simulation

theorem setFd_none {v : FsView} {fd : ℕ} (h : v.fd fd = none) : v.setFd fd none = v := by
  rw [FsView.setFd]
  congr 1
  funext i
  split
  case isTrue hi => rw [hi, h]
  case isFalse => rfl

section Calls

variable {σ : Type} {p : Platform σ} {t₀ : Tables} {reserved : List ℕ} {place : ℕ → ℕ × ℕ}
  {image : ℕ → σ → Image} (hs : Setting p t₀ reserved place image) {s : Tables × σ}
  (hsound : FilesSound t₀ reserved image s)
include hs hsound

/-! ### Queries -/

theorem fileExists_run {path : CStr} (hvolume : (fileVolume t₀.devices path).isSome) :
    ∃ h, access p (fun f t => kernelFsFileExists f p.fat t path) s =
        .ok (((kernelView reserved image s).file path).isSome, (s.1, h)) ∧
      SameFor t₀.devices image (fun _ => True) s.2 h := by
  obtain ⟨⟨i, n⟩, hplace⟩ := Option.isSome_iff_exists.mp hvolume
  obtain ⟨d, hon⟩ := fileVolume_some hplace
  obtain ⟨v, hv, hfile⟩ := view_file hsound hon
  have hanswer : decide (∃ f ∈ v.files, f.name = baseName path) =
      (v.fileMap (baseName path)).isSome := by
    rcases find_cases v (baseName path) with ha | ⟨pre, f, post, hsplit, hname⟩
    · rw [fileMap_none ha, decide_eq_false (fun ⟨f, hf, hn⟩ => ha f hf hn)]
      rfl
    · have hf : f ∈ v.files := by simp [hsplit]
      rw [← hname, fileMap_some hf, decide_eq_true ⟨f, hf, rfl⟩]
      rfl
  obtain ⟨h, hrun, hsame⟩ := volume_query hs hsound.fixed hon.volume
    (readOnly_fileExists (baseName path)) (exec_fileExists hv (baseName path))
  rw [hanswer, ← hfile] at hrun
  refine ⟨h, access_of (fun f t => kernelFsFileExists f p.fat t path) ?_, hsame⟩
  have hdev : kernelFsPathIsDevice s.1.devices path = false := by
    rw [kernelFsPathIsDevice, hsound.fixed.devices, hon.file]
    rfl
  rw [kernelFsFileExists, if_neg (by rw [hdev]; decide), hon.split]
  dsimp only
  rw [hsound.fixed.devices, hon.bind]
  dsimp only
  rw [hon.volume.type]
  exact hrun

theorem fileExists_isStep {path : CStr} (hvolume : (fileVolume t₀.devices path).isSome) :
    IsStep p t₀ reserved image s (.fileExists path) := by
  obtain ⟨h, hrun, hsame⟩ := fileExists_run hs hsound hvolume
  obtain ⟨hsound', hview⟩ := view_quiet (s.1, h) hsound rfl hsame
  refine ⟨_, _, run_reply .answer hrun, hsound', ?_⟩
  rw [hview]
  exact FsStep.fileExists _ path

theorem isDir_isStep {path : CStr} (hvolume : (fileVolume t₀.devices path).isSome) :
    IsStep p t₀ reserved image s (.isDir path) := by
  obtain ⟨⟨i, n⟩, hplace⟩ := Option.isSome_iff_exists.mp hvolume
  obtain ⟨d, hon⟩ := fileVolume_some hplace
  have hvalid := hs.devices.valid i hon.volume.slot d hon.volume.device
  have hcached := hon.cached
  have hsub : subPathAfter path d.mountPoint = baseName path := by
    have hlen := hvalid.2
    rw [KernelFsPathMax] at hlen
    have hdrop : path.drop (kstrStrlen d.mountPoint) = slash::baseName path := by
      rw [kstrStrlen, u16_of_lt (by omega)]
      conv_lhs => rw [hon.parts]
      exact List.drop_left
    rw [subPathAfter, hdrop]
    rfl
  have hlookup : kernelFsGetDeviceFromPathRecursive s.1.devices path = some (i, baseName path) := by
    rw [cachedIndex] at hcached
    rw [kernelFsGetDeviceFromPathRecursive, hsound.fixed.devices, hcached]
    dsimp only
    rw [hon.volume.device, Option.map_some, hsub]
  have hrun : access p (fun f t => kernelFsFileIsDir f p.fat t path) s = .ok (false, s) := by
    apply access_of (fun f t => kernelFsFileIsDir f p.fat t path)
    rw [kernelFsFileIsDir, hlookup]
    dsimp only
    rw [hsound.fixed.devices, hon.volume.device]
    dsimp only
    rw [kernelFsDeviceIsDir, hon.volume.type,
      beq_eq_false_iff_ne.mpr (hon.baseName_ne hvalid.1)]
    rfl
  exact ⟨_, _, run_reply .answer hrun, hsound, FsStep.isDir _ path⟩

theorem isOpen_isStep {path : CStr} (hvolume : (fileVolume t₀.devices path).isSome) :
    IsStep p t₀ reserved image s (.isOpen path) := by
  have hrun : (kernelFiles p).kernelFsFileIsOpen path s =
      .ok (kernelFsFileIsOpen s.1 path, s) := rfl
  exact ⟨_, _, run_reply .answer hrun, hsound, FsStep.isOpen (isOpen_iff hs hsound hvolume)⟩

omit hs in
theorem getFilePath_isStep {fd : ℕ} (hlt : fd < KernelFsFdMax) (hfd : fd ∉ reserved) :
    IsStep p t₀ reserved image s (.getFilePath fd) := by
  have hfirst : (getFirst : KernelRun σ Tables) s = .ok (s.1, s) := rfl
  have hrun : (kernelFiles p).kernelFsGetFilePath fd s =
      .ok (((kernelView reserved image s).fd fd).map OpenFile.path, s) := by
    change (getFirst >>= fun t => fromExcept (Kernel.kernelFsGetFilePath t fd) :
      KernelRun σ (Option CStr)) s = _
    rw [bind_of_ok hfirst, Kernel.kernelFsGetFilePath, if_pos hlt, view_fd hfd, Option.map_map]
    rfl
  exact ⟨_, _, run_reply .path hrun, hsound, FsStep.getFilePath _ fd⟩

omit hs in
theorem canRead_isStep {fd : ℕ} (hlt : fd < KernelFsFdMax) (hfd : fd ∉ reserved) :
    IsStep p t₀ reserved image s (.canRead fd) := by
  have hrun : access p (fun f t => kernelFsFileCanRead f t fd) s =
      .ok ((kernelView reserved image s).allows fd KernelFsFdModeRO, s) := by
    apply access_of (fun f t => kernelFsFileCanRead f t fd)
    rw [kernelFsFileCanRead, kAssert, decide_eq_true hlt, FsView.allows]
    cases he : s.1.fdt fd with
    | none =>
      rw [view_fd hfd, he]
      rfl
    | some e =>
      obtain ⟨d, size, hon⟩ := fd_onVolume hsound hfd he
      rw [hon.shown, Option.any_some]
      change (if _ then _ else _ : Hw σ Bool) s.2 =
        .ok (kernelFsFdPathSpareGetMode e.spare &&& KernelFsFdModeRO != 0, s.2)
      by_cases hmode : kernelFsFdPathSpareGetMode e.spare &&& KernelFsFdModeRO = 0
      · rw [if_pos hmode, hmode]
        rfl
      · rw [if_neg hmode, bind_of_ok (hon.cached s.2), hon.device, bne_iff_ne.mpr hmode]
        dsimp only
        rw [if_neg (by rw [hon.apart]; decide)]
        rfl
  exact ⟨_, _, run_reply .answer hrun, hsound, FsStep.canRead _ fd⟩

omit hs in
theorem canWrite_isStep {fd : ℕ} (hlt : fd < KernelFsFdMax) (hfd : fd ∉ reserved) :
    IsStep p t₀ reserved image s (.canWrite fd) := by
  have hrun : access p (fun f t => kernelFsFileCanWrite f t fd) s =
      .ok ((kernelView reserved image s).allows fd KernelFsFdModeWO, s) := by
    apply access_of (fun f t => kernelFsFileCanWrite f t fd)
    rw [kernelFsFileCanWrite, kAssert, decide_eq_true hlt, FsView.allows]
    cases he : s.1.fdt fd with
    | none =>
      rw [view_fd hfd, he]
      rfl
    | some e =>
      obtain ⟨d, size, hon⟩ := fd_onVolume hsound hfd he
      rw [hon.shown, Option.any_some]
      change (if _ then _ else _ : Hw σ Bool) s.2 =
        .ok (kernelFsFdPathSpareGetMode e.spare &&& KernelFsFdModeWO != 0, s.2)
      by_cases hmode : kernelFsFdPathSpareGetMode e.spare &&& KernelFsFdModeWO = 0
      · rw [if_pos hmode, hmode]
        rfl
      · rw [if_neg hmode, bind_of_ok (hon.cached s.2), hon.device, bne_iff_ne.mpr hmode]
        dsimp only
        rw [if_neg (by rw [hon.apart]; decide)]
        rfl
  exact ⟨_, _, run_reply .answer hrun, hsound, FsStep.canWrite _ fd⟩

/-! ### Descriptors -/

omit hs hsound in
theorem isOpenPath_iff {path : CStr} :
    IsOpenPath s.1.fdt path ↔ kernelFsFileIsOpen s.1 path = true := by
  rw [kernelFsFileIsOpen, List.any_eq_true]
  constructor
  · rintro ⟨i, hi, hlt, e, he, hpath⟩
    refine ⟨i, List.mem_range.mpr hlt, ?_⟩
    rw [he, Option.any_some, Bool.and_eq_true, bne_iff_ne, beq_iff_eq]
    exact ⟨hi, hpath⟩
  · rintro ⟨i, hlt, hopen⟩
    rw [Bool.and_eq_true, bne_iff_ne, Option.any_eq_true] at hopen
    obtain ⟨hi, e, he, hpath⟩ := hopen
    exact ⟨i, hi, List.mem_range.mp hlt, e, he, beq_iff_eq.mp hpath⟩

omit hs in
/-- A free descriptor is not reserved. -/
theorem free_not_reserved (hreserved : ∀ fd ∈ reserved, ∃ e, t₀.fdt fd = some e) {fd : ℕ}
    (hfree : s.1.fdt fd = none) : fd ∉ reserved := by
  intro hfd
  obtain ⟨e, he⟩ := hreserved fd hfd
  rw [hsound.fixed.reserved fd hfd, he] at hfree
  cases hfree

/-- What the check before an open finds: the file is there, and it is open already
on a read-only volume only. -/
theorem openCheck_run {path : CStr} {mode : ℕ} {d : KernelFsDevice} {i n : ℕ}
    (hon : OnVolume t₀.devices path i d n) (hmode : 1 ≤ mode ∧ mode ≤ 3) :
    ∃ b h, kernelFsFileOpenCheck p path mode s = .ok (b, (s.1, h)) ∧
      SameFor t₀.devices image (fun _ => True) s.2 h ∧
      (b = true → ((kernelView reserved image s).file path).isSome ∧
        ((kernelView reserved image s).Opened path → d.writable = false)) := by
  have hvolume : (fileVolume t₀.devices path).isSome := by
    rw [hon.fileVolume]
    rfl
  obtain ⟨h, hexists, hsame⟩ := fileExists_run hs hsound hvolume
  have hmode' : ¬ (mode = KernelFsFdModeNone ∨ mode > KernelFsFdModeMax) := by
    rw [KernelFsFdModeNone, KernelFsFdModeMax, KernelFsFdModeBits]
    omega
  have hfirst : (getFirst : KernelRun σ Tables) (s.1, h) = .ok (s.1, (s.1, h)) := rfl
  cases hfile : ((kernelView reserved image s).file path).isSome with
  | false =>
    refine ⟨false, h, ?_, hsame, fun hb => by cases hb⟩
    rw [hfile] at hexists
    rw [kernelFsFileOpenCheck, if_neg (by rw [hon.valid]; decide), if_neg hmode',
      bind_of_ok hexists, if_pos rfl]
    rfl
  | true =>
    rw [hfile] at hexists
    have hcheck : kernelFsFileOpenCheck p path mode s =
        (if (kernelFsFileOpenScan s.1.fdt path 0 KernelFsFdInvalid false KernelFsFdMax).2 then
          fromExcept (kernelFsFileCanOpenMany s.1.devices path) else pure true :
          KernelRun σ Bool) (s.1, h) := by
      rw [kernelFsFileOpenCheck, if_neg (by rw [hon.valid]; decide), if_neg hmode',
        bind_of_ok hexists, if_neg (by decide), bind_of_ok hfirst]
    by_cases hscan : (kernelFsFileOpenScan s.1.fdt path 0 KernelFsFdInvalid false
        KernelFsFdMax).2 = true
    · have hmany : kernelFsFileCanOpenMany s.1.devices path = .ok (!d.writable) := by
        rw [kernelFsFileCanOpenMany, hsound.fixed.devices, hon.file]
        dsimp only [Option.bind_none]
        rw [hon.split]
        dsimp only
        rw [hon.bind]
        dsimp only
        rw [hon.volume.type]
      rw [if_pos hscan, hmany] at hcheck
      refine ⟨!d.writable, h, hcheck, hsame, fun hb => ⟨rfl, fun _ => ?_⟩⟩
      rw [Bool.not_eq_true'] at hb
      exact hb
    · rw [if_neg hscan] at hcheck
      refine ⟨true, h, hcheck, hsame, fun _ => ⟨rfl, fun hopened => ?_⟩⟩
      rw [scan_open, isOpenPath_iff] at hscan
      exact absurd ((isOpen_iff hs hsound hvolume).mpr hopened) hscan

omit hs hsound in
theorem openFileOf_make {path : CStr} {mode refCount i : ℕ} (hmode : 1 ≤ mode ∧ mode ≤ 3)
    (hcount : refCount < KernelFsFdRefCountMax) :
    openFileOf ⟨path, kernelFsFdPathSpareMake mode refCount, i⟩ = ⟨path, mode, refCount⟩ := by
  obtain ⟨hm, hr⟩ := spareMake_good hmode hcount
  rw [openFileOf, hm, hr]

omit hs hsound in
theorem entrySound_make {devices : Devices} {path : CStr} {fd mode refCount i n : ℕ}
    (hlt : fd < KernelFsFdMax) (hmode : 1 ≤ mode ∧ mode ≤ 3)
    (hcount : 1 ≤ refCount ∧ refCount < KernelFsFdRefCountMax)
    (hvolume : fileVolume devices path = some (i, n)) :
    EntrySound devices fd ⟨path, kernelFsFdPathSpareMake mode refCount, i⟩ := by
  obtain ⟨hm, hr⟩ := spareMake_good hmode hcount.2
  refine ⟨hlt, ?_, ?_, n, hvolume⟩
  · dsimp only
    rw [hm]
    exact hmode
  · dsimp only
    rw [hr]
    exact hcount

/-- An open makes one entry, which is the invalid one when no other is free. -/
theorem open_run {path : CStr} {mode : ℕ} (hvolume : (fileVolume t₀.devices path).isSome)
    (hmode : 1 ≤ mode ∧ mode ≤ 3) :
    ∃ fd s', Kernel.kernelFsFileOpen p path mode s = .ok (fd, s') ∧
      FilesSound t₀ reserved image s' ∧
      FsStep (pathWritable t₀.devices) (.openFile path mode) (.count fd)
        (kernelView reserved image s) (kernelView reserved image s') := by
  obtain ⟨⟨i, n⟩, hplace⟩ := Option.isSome_iff_exists.mp hvolume
  obtain ⟨d, hon⟩ := fileVolume_some hplace
  have hreserved : ∀ fd ∈ reserved, ∃ e, t₀.fdt fd = some e := fun fd hfd =>
    (hs.reserved fd hfd).2.2.imp fun e he => he.1
  obtain ⟨b, h, hcheck, hsame, hgood⟩ := openCheck_run hs hsound hon hmode
  cases b with
  | false =>
    obtain ⟨hsound', hview⟩ := view_quiet (s.1, h) hsound rfl hsame
    refine ⟨KernelFsFdInvalid, (s.1, h), ?_, hsound', ?_⟩
    · rw [Kernel.kernelFsFileOpen, bind_of_ok hcheck, if_pos rfl]
      rfl
    · rw [hview]
      exact FsStep.openRefused _ _ _
  | true =>
    obtain ⟨hfile, honce⟩ := hgood rfl
    have hcached := hon.cached
    have hfirst : (getFirst : KernelRun σ Tables) (s.1, h) = .ok (s.1, (s.1, h)) := rfl
    have hkeeps := sameFor_trans hsame (hs.stores.malloc (path.length+1) h)
    have hmemory : kstrC p path (s.1, h) = .ok ((p.drv.malloc (path.length+1) h).1,
        (s.1, (p.drv.malloc (path.length+1) h).2)) := rfl
    have hopen : ∀ e : Option KernelFsFdtEntry,
        (∀ e', e = some e' → EntrySound t₀.devices (scannedFd s.1.fdt path) e') →
        FilesSound t₀ reserved image
            (s.1.setFd (scannedFd s.1.fdt path) e, (p.drv.malloc (path.length+1) h).2) ∧
          kernelView reserved image
              (s.1.setFd (scannedFd s.1.fdt path) e, (p.drv.malloc (path.length+1) h).2) =
            (kernelView reserved image s).setFd (scannedFd s.1.fdt path) (e.map openFileOf) := by
      intro e he
      refine view_setFd _ hsound ?_ he rfl hkeeps
      by_cases hfull : FullTable s.1.fdt
      · rw [(scannedFd_full path).mpr hfull]
        exact fun hres => (hs.reserved _ hres).1 rfl
      · exact free_not_reserved hsound hreserved (scannedFd_free path hfull).2.2
    have hlt : scannedFd s.1.fdt path < KernelFsFdMax := by
      by_cases hfull : FullTable s.1.fdt
      · rw [(scannedFd_full path).mpr hfull]
        decide
      · exact (scannedFd_free path hfull).2.1
    cases hm : (p.drv.malloc (path.length+1) h).1 with
    | false =>
      have hrun : Kernel.kernelFsFileOpen p path mode s = .ok (KernelFsFdInvalid,
          (s.1.setFd (scannedFd s.1.fdt path) none, (p.drv.malloc (path.length+1) h).2)) := by
        rw [Kernel.kernelFsFileOpen, bind_of_ok hcheck, if_neg (by decide), bind_of_ok hfirst,
          bind_of_ok hmemory, hm]
        rfl
      obtain ⟨hsound', hview⟩ := hopen none (fun e' he' => by cases he')
      refine ⟨_, _, hrun, hsound', ?_⟩
      rw [hview]
      by_cases hfull : FullTable s.1.fdt
      · rw [(scannedFd_full path).mpr hfull]
        exact FsStep.openFull hfile (Or.inl rfl)
      · have hfree := (scannedFd_free path hfull).2.2
        have hnone : (kernelView reserved image s).fd (scannedFd s.1.fdt path) = none := by
          rw [view_fd (free_not_reserved hsound hreserved hfree), hfree]
          rfl
        rw [Option.map_none, setFd_none hnone]
        exact FsStep.openRefused _ _ _
    | true =>
      have hrun : Kernel.kernelFsFileOpen p path mode s = .ok (scannedFd s.1.fdt path,
          (s.1.setFd (scannedFd s.1.fdt path) (some ⟨path, kernelFsFdPathSpareMake mode 1, i⟩),
            (p.drv.malloc (path.length+1) h).2)) := by
        rw [Kernel.kernelFsFileOpen, bind_of_ok hcheck, if_neg (by decide), bind_of_ok hfirst,
          bind_of_ok hmemory, hm, if_neg (by decide), kernelFsFileOpenCommit]
        rw [← hsound.fixed.devices, cachedIndex] at hcached
        rw [hcached]
        rfl
      obtain ⟨hsound', hview⟩ := hopen (some ⟨path, kernelFsFdPathSpareMake mode 1, i⟩) (by
        intro e' he'
        cases he'
        exact entrySound_make hlt hmode ⟨Nat.le_refl 1, by decide⟩ hplace)
      rw [Option.map_some, openFileOf_make hmode (by decide)] at hview
      refine ⟨_, _, hrun, hsound', ?_⟩
      rw [hview]
      by_cases hfull : FullTable s.1.fdt
      · rw [(scannedFd_full path).mpr hfull]
        exact FsStep.openFull hfile (Or.inr rfl)
      · obtain ⟨hne, -, hfree⟩ := scannedFd_free path hfull
        refine FsStep.opened hfile (fun hopened => ?_) hne ?_
        · rw [pathWritable_onVolume hon]
          exact honce hopened
        · rw [view_fd (free_not_reserved hsound hreserved hfree), hfree]
          rfl

theorem openFile_isStep {path : CStr} {mode : ℕ} (hvolume : (fileVolume t₀.devices path).isSome)
    (hmode : 1 ≤ mode ∧ mode ≤ 3) : IsStep p t₀ reserved image s (.openFile path mode) := by
  obtain ⟨fd, s', hrun, hsound', hstep⟩ := open_run hs hsound hvolume hmode
  exact ⟨_, _, run_reply .count hrun, hsound', hstep⟩

omit hs in
theorem close_isStep {fd : ℕ} (hlt : fd < KernelFsFdMax) (hfd : fd ∉ reserved) :
    IsStep p t₀ reserved image s (.close fd) := by
  have hsame : SameFor t₀.devices image (fun _ => True) s.2 s.2 := sameFor_refl _ _ _ _
  cases he : s.1.fdt fd with
  | none =>
    have hclose : kernelFsFileClose s.1 fd = .ok (0, s.1) := by
      rw [kernelFsFileClose, if_pos hlt, he]
    refine ⟨_, _, run_reply .count (onTables_run hclose), hsound, FsStep.closeRefused ?_⟩
    rw [view_fd hfd, he]
    rfl
  | some e =>
    have hentry := hsound.entries fd e hfd he
    obtain ⟨i, hvolume⟩ := hentry.volume
    have hview : (kernelView reserved image s).fd fd = some (openFileOf e) := by
      rw [view_fd hfd, he]
      rfl
    have hleft : u32 (kernelFsFdPathSpareGetRefCount e.spare+4294967295) =
        kernelFsFdPathSpareGetRefCount e.spare-1 := by
      have hcount := hentry.count
      have hlast : kernelFsFdPathSpareGetRefCount e.spare < 8 := hcount.2
      rw [u32]
      omega
    by_cases hone : kernelFsFdPathSpareGetRefCount e.spare = 1
    · have hclose : kernelFsFileClose s.1 fd =
          .ok (kernelFsFdPathSpareGetRefCount e.spare-1, s.1.setFd fd none) := by
        rw [kernelFsFileClose, if_pos hlt, he]
        dsimp only
        rw [hleft, if_pos (by omega)]
      obtain ⟨hsound', hset⟩ := view_setFd (s.1.setFd fd none, s.2) hsound hfd
        (fun e' he' => by cases he') rfl hsame
      refine ⟨_, _, run_reply .count (onTables_run hclose), hsound', ?_⟩
      have hgone : FsView.closed (openFileOf e) = none := if_pos hone
      rw [hset, Option.map_none, ← hgone]
      exact FsStep.closed hview
    · have hcount := hentry.count
      have hclose : kernelFsFileClose s.1 fd =
          .ok (kernelFsFdPathSpareGetRefCount e.spare-1, s.1.setFd fd (some ⟨e.path,
            kernelFsFdPathSpareMake (kernelFsFdPathSpareGetMode e.spare)
              (kernelFsFdPathSpareGetRefCount e.spare-1), e.deviceIndex⟩)) := by
        rw [kernelFsFileClose, if_pos hlt, he]
        dsimp only
        rw [hleft, if_neg (by omega)]
      obtain ⟨hsound', hset⟩ := view_setFd (s.1.setFd fd (some ⟨e.path,
          kernelFsFdPathSpareMake (kernelFsFdPathSpareGetMode e.spare)
            (kernelFsFdPathSpareGetRefCount e.spare-1), e.deviceIndex⟩), s.2) hsound hfd
        (by
          intro e' he'
          cases he'
          exact entrySound_make hlt hentry.mode (by omega) hvolume) rfl hsame
      refine ⟨_, _, run_reply .count (onTables_run hclose), hsound', ?_⟩
      have hkept : FsView.closed (openFileOf e) = some ⟨e.path,
          kernelFsFdPathSpareGetMode e.spare, kernelFsFdPathSpareGetRefCount e.spare-1⟩ :=
        if_neg hone
      rw [hset, Option.map_some, openFileOf_make hentry.mode (by omega), ← hkept]
      exact FsStep.closed hview

theorem dupeOrOpen_isStep {fd : ℕ} (hlt : fd < KernelFsFdMax) (hfd : fd ∉ reserved) :
    IsStep p t₀ reserved image s (.dupeOrOpen fd) := by
  have hsame : SameFor t₀.devices image (fun _ => True) s.2 s.2 := sameFor_refl _ _ _ _
  have hfirst : (getFirst : KernelRun σ Tables) s = .ok (s.1, s) := rfl
  cases he : s.1.fdt fd with
  | none =>
    have hdupe : kernelFsFileDupe s.1 fd = .ok (false, s.1) := by
      rw [kernelFsFileDupe, if_pos hlt, he]
    have hrun : Kernel.kernelFsFileDupeOrOpen p fd s = .ok (KernelFsFdInvalid, s) := by
      rw [Kernel.kernelFsFileDupeOrOpen, fileDupe, bind_of_ok (onTables_run hdupe),
        if_neg (by decide), bind_of_ok hfirst, Kernel.kernelFsGetFilePath, if_pos hlt, he]
      rfl
    refine ⟨_, _, run_reply .count hrun, hsound, FsStep.dupeRefused ?_⟩
    rw [view_fd hfd, he]
    rfl
  | some e =>
    have hentry := hsound.entries fd e hfd he
    obtain ⟨i, hvolume⟩ := hentry.volume
    have hview : (kernelView reserved image s).fd fd = some (openFileOf e) := by
      rw [view_fd hfd, he]
      rfl
    by_cases hfull : kernelFsFdPathSpareGetRefCount e.spare+1 ≥ KernelFsFdRefCountMax
    · have hdupe : kernelFsFileDupe s.1 fd = .ok (false, s.1) := by
        rw [kernelFsFileDupe, if_pos hlt, he]
        dsimp only
        rw [if_pos hfull]
      have hopen : Kernel.kernelFsFileDupeOrOpen p fd s =
          Kernel.kernelFsFileOpen p e.path (kernelFsFdPathSpareGetMode e.spare) s := by
        rw [Kernel.kernelFsFileDupeOrOpen, fileDupe, bind_of_ok (onTables_run hdupe),
          if_neg (by decide), bind_of_ok hfirst, Kernel.kernelFsGetFilePath, if_pos hlt, he,
          Kernel.kernelFsGetFileMode, if_pos hlt, he]
        rfl
      obtain ⟨fd', s', hrun, hsound', hstep⟩ := open_run hs hsound
        (by rw [hvolume]; rfl) hentry.mode
      rw [← hopen] at hrun
      exact ⟨_, _, run_reply .count hrun, hsound', FsStep.reopened hview hfull hstep⟩
    · have hdupe : kernelFsFileDupe s.1 fd = .ok (true, s.1.setFd fd (some ⟨e.path,
          kernelFsFdPathSpareMake (kernelFsFdPathSpareGetMode e.spare)
            (kernelFsFdPathSpareGetRefCount e.spare+1), e.deviceIndex⟩)) := by
        rw [kernelFsFileDupe, if_pos hlt, he]
        dsimp only
        rw [if_neg hfull]
      have hrun : Kernel.kernelFsFileDupeOrOpen p fd s = .ok (fd, (s.1.setFd fd (some ⟨e.path,
          kernelFsFdPathSpareMake (kernelFsFdPathSpareGetMode e.spare)
            (kernelFsFdPathSpareGetRefCount e.spare+1), e.deviceIndex⟩), s.2)) := by
        rw [Kernel.kernelFsFileDupeOrOpen, fileDupe, bind_of_ok (onTables_run hdupe), if_pos rfl]
        rfl
      obtain ⟨hsound', hset⟩ := view_setFd (s.1.setFd fd (some ⟨e.path,
          kernelFsFdPathSpareMake (kernelFsFdPathSpareGetMode e.spare)
            (kernelFsFdPathSpareGetRefCount e.spare+1), e.deviceIndex⟩), s.2) hsound hfd
        (by
          intro e' he'
          cases he'
          exact entrySound_make hlt hentry.mode (by omega) hvolume) rfl hsame
      refine ⟨_, _, run_reply .count hrun, hsound', ?_⟩
      rw [hset, Option.map_some, openFileOf_make hentry.mode (by omega)]
      exact FsStep.duped hview (Nat.lt_of_not_ge hfull)

end Calls

/-! ### Runs -/

section Runs

variable {σ : Type} {p : Platform σ} {t₀ : Tables} {reserved : List ℕ} {place : ℕ → ℕ × ℕ}
  {image : ℕ → σ → Image} (hs : Setting p t₀ reserved place image)
include hs

/-- The kernel's files simulate the abstract file system. -/
theorem kernelFiles_simulates : Simulates (FileCall.run (kernelFiles p))
    (FilesSound t₀ reserved image) (kernelView reserved image)
    (FileCall.Allowed t₀.devices reserved) (FsStep (pathWritable t₀.devices)) := by
  refine ⟨fun call s hallowed hsound => ?_⟩
  cases call with
  | readOffset fd offset dataLen => exact readOffset_isStep hs hsound hallowed.1 hallowed.2 _ _
  | writeOffset fd offset data => exact writeOffset_isStep hs hsound hallowed.1 hallowed.2 _ _
  | openFile path mode => exact openFile_isStep hs hsound hallowed.1 hallowed.2
  | close fd => exact close_isStep hsound hallowed.1 hallowed.2
  | dupeOrOpen fd => exact dupeOrOpen_isStep hs hsound hallowed.1 hallowed.2
  | createWithSize path size => exact createWithSize_isStep hs hsound hallowed.1 hallowed.2
  | resize path newSize => exact resize_isStep hs hsound hallowed.1 hallowed.2
  | delete path => exact delete_isStep hs hsound hallowed
  | getFilePath fd => exact getFilePath_isStep hsound hallowed.1 hallowed.2
  | isOpen path => exact isOpen_isStep hs hsound hallowed
  | fileExists path => exact fileExists_isStep hs hsound hallowed
  | isDir path => exact isDir_isStep hs hsound hallowed
  | canRead fd => exact canRead_isStep hsound hallowed.1 hallowed.2
  | canWrite fd => exact canWrite_isStep hsound hallowed.1 hallowed.2

end Runs

/-! ### A volume in memory and one that is read only -/

/-- One image for each user data. -/
def imagesDrivers : Drivers (ℕ → Image) where
  commonFlush _ _ s := (true, s)
  characterRead _ _ s := (-1, s)
  characterCanRead _ _ s := (false, s)
  characterWrite _ _ _ s := (0, s)
  characterCanWrite _ _ s := (false, s)
  blockRead _ userData len addr s := ((slice (s userData) addr len, len), s)
  blockWrite _ userData data addr s :=
    (data.length, fun u => if u = userData then overwrite (s u) addr data else s u)
  malloc _ s := (true, s)

def ramDevice : KernelFsDevice :=
  ⟨CStr.lit "/dev/ram", .driver 0, 0, .block 1024 .flatFile, true⟩

def tmpDevice : KernelFsDevice :=
  ⟨CStr.lit "/tmp", .kernelMountFsFunctor, 63, .block 1024 .customMiniFs, true⟩

def binDevice : KernelFsDevice :=
  ⟨CStr.lit "/bin", .driver 1, 1, .block 1024 .customMiniFs, false⟩

def imagesDevices : List KernelFsDevice :=
  [directoryDevice "/", directoryDevice "/dev", ramDevice, tmpDevice, binDevice]

def imagesTables : Tables where
  fdt fd := if fd = 63 then some (openedEntry (CStr.lit "/dev/ram") KernelFsFdModeRW 2) else none
  devices := deviceTable imagesDevices
  mounted := [⟨KernelMountFormatMiniFs, 63⟩]

theorem imagesTables_volume {i n : ℕ} {d : KernelFsDevice}
    (h : IsVolume imagesTables.devices i d n) :
    (i = 3 ∧ n = 1024 ∧ d = tmpDevice) ∨ (i = 4 ∧ n = 1024 ∧ d = binDevice) := by
  obtain ⟨_, hd, htype⟩ := h
  rcases i with _ | _ | _ | _ | _ | i
  · cases hd
    cases htype
  · cases hd
    cases htype
  · cases hd
    cases htype
  · cases hd
    cases htype
    exact Or.inl ⟨rfl, rfl, rfl⟩
  · cases hd
    cases htype
    exact Or.inr ⟨rfl, rfl, rfl⟩
  · cases hd

theorem images_setting : Setting ⟨imagesDrivers, noFat, 2⟩ imagesTables [63]
    (fun i => if i = 3 then (0, 0) else (1, 1)) (fun i s => s (if i = 3 then 0 else 1)) := by
  constructor
  · exact deviceTable_valid (by decide) (by decide) (by decide) (by decide)
  · intro i d n hi
    rcases imagesTables_volume hi with ⟨-, rfl, -⟩ | ⟨-, rfl, -⟩ <;> decide
  · intro i d n hi
    rcases imagesTables_volume hi with ⟨rfl, -, rfl⟩ | ⟨rfl, -, rfl⟩
    · have hram : kernelFsGetDeviceFromPath imagesTables.devices (CStr.lit "/dev/ram") =
          some 2 := by decide
      have hback : BackedBy imagesTables [63] tmpDevice 0 ramDevice.userData :=
        BackedBy.mounted rfl (List.mem_singleton.mpr rfl) rfl rfl rfl hram rfl rfl rfl rfl
      exact hback
    · exact BackedBy.driver rfl
  · intro fd hfd
    cases List.mem_singleton.mp hfd
    exact ⟨by decide, by decide, _, rfl, by decide⟩
  · decide
  · constructor
    · intro i d n hi s addr len _
      refine ⟨s, ?_, fun _ _ _ _ _ _ _ => rfl⟩
      rcases imagesTables_volume hi with ⟨rfl, -, rfl⟩ | ⟨rfl, -, rfl⟩ <;> rfl
    · intro i d n hi hwritable s addr data _
      rcases imagesTables_volume hi with ⟨rfl, -, rfl⟩ | ⟨rfl, -, rfl⟩
      · refine ⟨_, rfl, fun a _ => ?_, fun j d' n' hj hne a _ => ?_⟩
        · rfl
        · rcases imagesTables_volume hj with ⟨rfl, -, -⟩ | ⟨rfl, -, -⟩
          · exact absurd rfl hne
          · rfl
      · cases hwritable
    · exact fun _ s _ _ _ _ _ _ _ => rfl

theorem images_sound : FilesSound imagesTables [63] (fun i s => s (if i = 3 then 0 else 1))
    (imagesTables, fun _ => emptyImage) := by
  refine ⟨fixed_refl _ _, fun i d n hi => ⟨emptyVolume, ?_⟩, fun fd e hfd he => ?_⟩
  · rcases imagesTables_volume hi with ⟨-, rfl, -⟩ | ⟨-, rfl, -⟩ <;> exact emptyImage_holds
  · have hnone : imagesTables.fdt fd = none := if_neg (fun h => hfd (List.mem_singleton.mpr h))
    rw [hnone] at he
    cases he

theorem images_orderly : Orderly (pathWritable imagesTables.devices)
    (kernelView [63] (fun i (s : ℕ → Image) => s (if i = 3 then 0 else 1))
      (imagesTables, fun _ => emptyImage)) := by
  have hnone : ∀ fd, (kernelView [63] (fun i (s : ℕ → Image) => s (if i = 3 then 0 else 1))
      (imagesTables, fun _ => emptyImage)).fd fd = none := by
    intro fd
    by_cases hfd : fd ∈ [63]
    · exact if_pos hfd
    · rw [view_fd hfd]
      have hfree : imagesTables.fdt fd = none := if_neg (fun h => hfd (List.mem_singleton.mpr h))
      rw [hfree]
      rfl
  constructor
  · intro fd e _ he
    rw [hnone] at he
    cases he
  · intro fd fd' e e' _ _ he
    rw [hnone] at he
    cases he

end ArduinoOS.Procman
