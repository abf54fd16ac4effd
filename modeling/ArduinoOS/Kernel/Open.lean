import ArduinoOS.Kernel.Files

/-!
# What opening a file does

Inversion of the lookups, of the scan of the descriptor table, and of an open:
either nothing but the hardware changed, or every check passed and at most the
scanned entry was written.
-/

set_option autoImplicit false

namespace ArduinoOS.Kernel
open ArduinoOS.ByteProgram ArduinoOS.Faulting ArduinoOS.Minifs

/-! ### Devices by their mount point -/

theorem getDevice_some {devices : Devices} {path : CStr} {i : ℕ}
    (h : kernelFsGetDeviceFromPath devices path = some i) :
    i < KernelFsDevicesMax ∧ ∃ d, devices i = some d ∧ d.mountPoint = path := by
  rw [kernelFsGetDeviceFromPath, List.find?_range_eq_some] at h
  obtain ⟨hp, hi, _⟩ := h
  refine ⟨List.mem_range.mp hi, ?_⟩
  rw [Option.any_eq_true] at hp
  obtain ⟨d, hd, he⟩ := hp
  exact ⟨d, hd, by simpa using he⟩

theorem getDevice_none {devices : Devices} {path : CStr} :
    kernelFsGetDeviceFromPath devices path = none ↔
      ∀ i < KernelFsDevicesMax, ∀ d, devices i = some d → d.mountPoint ≠ path := by
  rw [kernelFsGetDeviceFromPath, List.find?_range_eq_none]
  constructor
  · intro h i hi d hd he
    have hn := h i hi
    simp [hd, he] at hn
  · intro h i hi
    cases hd : devices i with
    | none => simp
    | some d =>
      have hne := h i hi d hd
      simp [hne]

/-- The lookup depends on the mount points alone. -/
theorem getDevice_congr {devices devices' : Devices} (path : CStr)
    (h : ∀ i < KernelFsDevicesMax, (devices i).map KernelFsDevice.mountPoint =
      (devices' i).map KernelFsDevice.mountPoint) :
    kernelFsGetDeviceFromPath devices path = kernelFsGetDeviceFromPath devices' path := by
  have hany : ∀ i ∈ List.range KernelFsDevicesMax,
      (devices i).any (fun d => d.mountPoint == path) =
        (devices' i).any (fun d => d.mountPoint == path) := by
    intro i hi
    have hm := h i (List.mem_range.mp hi)
    cases hd : devices i with
    | none =>
      cases hd' : devices' i with
      | none => rfl
      | some d' => simp [hd, hd'] at hm
    | some d =>
      cases hd' : devices' i with
      | none => simp [hd, hd'] at hm
      | some d' =>
        rw [hd, hd'] at hm
        simp only [Option.map_some, Option.some.injEq] at hm
        simp [hm]
  rw [kernelFsGetDeviceFromPath, kernelFsGetDeviceFromPath]
  generalize List.range KernelFsDevicesMax = l at hany
  induction l with
  | nil => rfl
  | cons i l ih =>
    rw [List.find?_cons, List.find?_cons, hany i (List.mem_cons_self ..),
      ih (fun k hk => hany k (List.mem_cons_of_mem _ hk))]

theorem split_ok {path dirname basename : CStr}
    (h : kernelFsPathSplit path = some (dirname, basename)) :
    kernelFsPathIsValid path = true ∧ dirname = dirName path ∧ basename = baseName path := by
  rw [kernelFsPathSplit] at h
  by_cases hv : kernelFsPathIsValid path = true
  · rw [if_pos hv] at h
    cases h
    exact ⟨hv, rfl, rfl⟩
  · rw [if_neg hv] at h
    cases h

/-- A device is at the path or at its dirname. -/
def HasDevice (devices : Devices) (path : CStr) : Prop :=
  (∃ i, kernelFsGetDeviceFromPath devices path = some i) ∨
    kernelFsGetDeviceFromPath devices path = none ∧
      ∃ i, kernelFsGetDeviceFromPath devices (dirName path) = some i

/-! ### The scan of the descriptor table -/

/-- The path occupies an entry. -/
def IsOpenPath (fdt : Fdt) (path : CStr) : Prop :=
  ∃ i, i ≠ KernelFsFdInvalid ∧ i < KernelFsFdMax ∧ ∃ e, fdt i = some e ∧ e.path = path

def FullTable (fdt : Fdt) : Prop := ∀ i, i ≠ KernelFsFdInvalid → i < KernelFsFdMax → fdt i ≠ none

/-- What the scan has found so far, in the entries below `i`. -/
structure Scanned (fdt : Fdt) (path : CStr) (i newFd : ℕ) (alreadyOpen : Bool) : Prop where
  free : newFd = KernelFsFdInvalid ∧ (∀ k, k ≠ KernelFsFdInvalid → k < i → fdt k ≠ none) ∨
    newFd ≠ KernelFsFdInvalid ∧ newFd < i ∧ fdt newFd = none
  found : alreadyOpen = true ↔
    ∃ k, k ≠ KernelFsFdInvalid ∧ k < i ∧ ∃ e, fdt k = some e ∧ e.path = path

theorem scan_scanned {fdt : Fdt} {path : CStr} (fuel i newFd : ℕ) (alreadyOpen : Bool)
    (h : Scanned fdt path i newFd alreadyOpen) :
    Scanned fdt path (i+fuel) (kernelFsFileOpenScan fdt path i newFd alreadyOpen fuel).1
      (kernelFsFileOpenScan fdt path i newFd alreadyOpen fuel).2 := by
  induction fuel generalizing i newFd alreadyOpen with
  | zero => exact h
  | succ fuel ih =>
    have hadd : i+(fuel+1) = i+1+fuel := by omega
    rw [hadd, kernelFsFileOpenScan]
    by_cases hi : i = KernelFsFdInvalid
    · rw [if_pos hi]
      apply ih
      constructor
      · rcases h.free with ⟨h0, hall⟩ | ⟨hn, hlt, hnone⟩
        · exact Or.inl ⟨h0, fun k hk hlt => hall k hk (by omega)⟩
        · exact Or.inr ⟨hn, by omega, hnone⟩
      · rw [h.found]
        constructor
        · rintro ⟨k, hk, hlt, hrest⟩
          exact ⟨k, hk, by omega, hrest⟩
        · rintro ⟨k, hk, hlt, hrest⟩
          exact ⟨k, hk, by omega, hrest⟩
    · rw [if_neg hi]
      cases he : fdt i with
      | none =>
        apply ih
        constructor
        · exact Or.inr ⟨hi, by omega, he⟩
        · rw [h.found]
          constructor
          · rintro ⟨k, hk, hlt, hrest⟩
            exact ⟨k, hk, by omega, hrest⟩
          · rintro ⟨k, hk, hlt, e, hke, hpath⟩
            have hne : k ≠ i := by
              rintro rfl
              rw [he] at hke
              cases hke
            exact ⟨k, hk, by omega, e, hke, hpath⟩
      | some e =>
        apply ih
        constructor
        · rcases h.free with ⟨h0, hall⟩ | ⟨hn, hlt, hnone⟩
          · refine Or.inl ⟨h0, ?_⟩
            intro k hk hlt
            by_cases hki : k = i
            · rw [hki, he]
              simp
            · exact hall k hk (by omega)
          · exact Or.inr ⟨hn, by omega, hnone⟩
        · rw [Bool.or_eq_true, h.found, beq_iff_eq]
          constructor
          · rintro (⟨k, hk, hlt, hrest⟩ | hpath)
            · exact ⟨k, hk, by omega, hrest⟩
            · exact ⟨i, hi, by omega, e, he, hpath⟩
          · rintro ⟨k, hk, hlt, e', hke, hpath⟩
            by_cases hki : k = i
            · rw [hki, he] at hke
              cases hke
              exact Or.inr hpath
            · exact Or.inl ⟨k, hk, by omega, e', hke, hpath⟩

/-- The entry an open will use, 0 when the table is full. -/
def scannedFd (fdt : Fdt) (path : CStr) : ℕ :=
  (kernelFsFileOpenScan fdt path 0 KernelFsFdInvalid false KernelFsFdMax).1

theorem scan_result (fdt : Fdt) (path : CStr) :
    Scanned fdt path KernelFsFdMax (scannedFd fdt path)
      (kernelFsFileOpenScan fdt path 0 KernelFsFdInvalid false KernelFsFdMax).2 := by
  have hstart : Scanned fdt path 0 KernelFsFdInvalid false := by
    constructor
    · exact Or.inl ⟨rfl, fun k _ hk => absurd hk (Nat.not_lt_zero k)⟩
    · simp
  have h := scan_scanned KernelFsFdMax 0 KernelFsFdInvalid false hstart
  rwa [Nat.zero_add] at h

theorem scan_open (fdt : Fdt) (path : CStr) :
    (kernelFsFileOpenScan fdt path 0 KernelFsFdInvalid false KernelFsFdMax).2 = true ↔
      IsOpenPath fdt path := (scan_result fdt path).found

theorem scannedFd_full {fdt : Fdt} (path : CStr) :
    scannedFd fdt path = KernelFsFdInvalid ↔ FullTable fdt := by
  rcases (scan_result fdt path).free with ⟨h0, hall⟩ | ⟨hn, hlt, hnone⟩
  · exact ⟨fun _ => hall, fun _ => h0⟩
  · exact ⟨fun h => absurd h hn, fun h => absurd hnone (h _ hn hlt)⟩

theorem scannedFd_free {fdt : Fdt} (path : CStr) (h : ¬ FullTable fdt) :
    scannedFd fdt path ≠ KernelFsFdInvalid ∧ scannedFd fdt path < KernelFsFdMax ∧
      fdt (scannedFd fdt path) = none := by
  rcases (scan_result fdt path).free with ⟨_, hall⟩ | hfree
  · exact absurd hall h
  · exact hfree

/-! ### Opening -/

variable {σ : Type} (p : Platform σ)

theorem access_ok {α : Type} {x : Functors σ → Tables → Hw σ α} {a : α} {s s' : Tables × σ} :
    (access p x) s = .ok (a, s') ↔
      x (p.functors s.1) s.1 s.2 = .ok (a, s'.2) ∧ s'.1 = s.1 := onSecond_ok

theorem kstrC_ok {str : CStr} {b : Bool} {s s' : Tables × σ}
    (h : (kstrC p str) s = .ok (b, s')) : s'.1 = s.1 := (onSecond_ok.mp h).2

/-- A file that exists is a device or lies in one. -/
theorem fileExists_device {f : Functors σ} {fat : FatFns} {t : Tables} {path : CStr} {h h' : σ}
    (hx : kernelFsFileExists f fat t path h = .ok (true, h')) : HasDevice t.devices path := by
  rw [kernelFsFileExists] at hx
  by_cases hdev : kernelFsPathIsDevice t.devices path = true
  · exact Or.inl (Option.isSome_iff_exists.mp hdev)
  · rw [if_neg hdev] at hx
    rw [kernelFsPathIsDevice, Bool.not_eq_true, Option.isSome_eq_false_iff,
      Option.isNone_iff_eq_none] at hdev
    cases hsplit : kernelFsPathSplit path with
    | none =>
      rw [hsplit] at hx
      exact absurd hx throw_ok
    | some parts =>
      obtain ⟨dirname, basename⟩ := parts
      rw [hsplit] at hx
      obtain ⟨_, rfl, _⟩ := split_ok hsplit
      dsimp only at hx
      cases hpar : kernelFsGetDeviceFromPath t.devices (dirName path) with
      | none =>
        rw [hpar] at hx
        have hfalse := (pure_ok.mp hx).1
        cases hfalse
      | some i => exact Or.inr ⟨hdev, i, hpar⟩

/-- The checks an open has passed. -/
structure Openable (t : Tables) (path : CStr) (mode : ℕ) : Prop where
  valid : kernelFsPathIsValid path = true
  mode : mode ≠ KernelFsFdModeNone ∧ mode ≤ KernelFsFdModeMax
  device : HasDevice t.devices path
  once : IsOpenPath t.fdt path → kernelFsFileCanOpenMany t.devices path = .ok true

theorem openCheck_ok {path : CStr} {mode : ℕ} {b : Bool} {s s' : Tables × σ}
    (h : kernelFsFileOpenCheck p path mode s = .ok (b, s')) :
    s'.1 = s.1 ∧ (b = true → Openable s.1 path mode) := by
  rw [kernelFsFileOpenCheck] at h
  by_cases hv : kernelFsPathIsValid path = false
  · rw [if_pos hv] at h
    obtain ⟨rfl, rfl⟩ := pure_ok.mp h
    exact ⟨rfl, fun hb => by cases hb⟩
  rw [if_neg hv] at h
  by_cases hm : mode = KernelFsFdModeNone ∨ mode > KernelFsFdModeMax
  · rw [if_pos hm] at h
    obtain ⟨rfl, rfl⟩ := pure_ok.mp h
    exact ⟨rfl, fun hb => by cases hb⟩
  rw [if_neg hm] at h
  obtain ⟨fileExists, s₁, hx, h⟩ := bind_ok.mp h
  obtain ⟨hexists, hs₁⟩ := (access_ok p).mp hx
  by_cases hfe : fileExists = false
  · rw [if_pos hfe] at h
    obtain ⟨rfl, rfl⟩ := pure_ok.mp h
    exact ⟨hs₁, fun hb => by cases hb⟩
  rw [if_neg hfe] at h
  rw [Bool.not_eq_false] at hfe hv
  subst hfe
  have hdevice := fileExists_device hexists
  obtain ⟨t, s₂, hget, h⟩ := bind_ok.mp h
  obtain ⟨rfl, rfl⟩ := getFirst_ok.mp hget
  rw [not_or] at hm
  by_cases hopen : (kernelFsFileOpenScan s₂.1.fdt path 0 KernelFsFdInvalid false
      KernelFsFdMax).2 = true
  · rw [if_pos hopen] at h
    obtain ⟨hmany, rfl⟩ := fromExcept_ok.mp h
    refine ⟨hs₁, ?_⟩
    rintro rfl
    rw [hs₁] at hmany
    exact ⟨hv, ⟨hm.1, by omega⟩, hdevice, fun _ => hmany⟩
  · rw [if_neg hopen] at h
    obtain ⟨_, rfl⟩ := pure_ok.mp h
    refine ⟨hs₁, fun _ => ⟨hv, ⟨hm.1, by omega⟩, hdevice, ?_⟩⟩
    intro hio
    rw [← hs₁, ← scan_open] at hio
    exact absurd hio hopen

/-- The index an open caches for a path. -/
def cachedIndex (devices : Devices) (path : CStr) : Option ℕ :=
  kernelFsGetDeviceFromPathRecursiveLoop devices path 0 0 none KernelFsDevicesMax

/-- The entry an open makes. -/
def openedEntry (path : CStr) (mode deviceIndex : ℕ) : KernelFsFdtEntry :=
  ⟨path, kernelFsFdPathSpareMake mode 1, deviceIndex⟩

/-- What an open that passed its checks writes: nothing without memory for the
path or without a device. -/
def openWrites (path : CStr) (mode : ℕ) (s : Tables × σ) : Option KernelFsFdtEntry :=
  match kstrC p path s with
  | .ok (true, _) => (cachedIndex s.1.devices path).map (openedEntry path mode)
  | _ => none

theorem openWrites_some {path : CStr} {mode : ℕ} {s : Tables × σ} {e : KernelFsFdtEntry}
    (h : openWrites p path mode s = some e) :
    ∃ i, cachedIndex s.1.devices path = some i ∧ e = openedEntry path mode i := by
  rw [openWrites] at h
  split at h
  · obtain ⟨i, hi, he⟩ := Option.map_eq_some_iff.mp h
    exact ⟨i, hi, he.symm⟩
  · cases h

/-- The entry an open writes, free or not, is the scanned one. -/
theorem open_writes {path : CStr} {mode : ℕ} {s s₁ : Tables × σ}
    (hcheck : kernelFsFileOpenCheck p path mode s = .ok (true, s₁)) :
    ∃ h, kernelFsFileOpen p path mode s =
      .ok (if (openWrites p path mode s₁).isSome then scannedFd s.1.fdt path else
        KernelFsFdInvalid, (s.1.setFd (scannedFd s.1.fdt path) (openWrites p path mode s₁), h)) := by
  have hs₁ := (openCheck_ok p hcheck).1
  have hget : (getFirst : KernelRun σ Tables) s₁ = .ok (s.1, s₁) := getFirst_ok.mpr ⟨hs₁.symm, rfl⟩
  have hmem : kstrC p path s₁ = .ok ((p.drv.malloc (path.length+1) s₁.2).1,
      (s₁.1, (p.drv.malloc (path.length+1) s₁.2).2)) := rfl
  refine ⟨(p.drv.malloc (path.length+1) s₁.2).2, ?_⟩
  rw [kernelFsFileOpen, bind_of_ok hcheck, if_neg (by decide), bind_of_ok hget, bind_of_ok hmem,
    openWrites, hmem]
  cases hm : (p.drv.malloc (path.length+1) s₁.2).1 with
  | false => rfl
  | true =>
    rw [if_neg (by decide), kernelFsFileOpenCommit]
    dsimp only
    rw [cachedIndex, hs₁]
    cases kernelFsGetDeviceFromPathRecursiveLoop s.1.devices path 0 0 none KernelFsDevicesMax with
    | none => rfl
    | some i => rfl

/-- The outcomes of an open: a check failed, or the scanned entry was written. -/
theorem open_cases {path : CStr} {mode fd : ℕ} {s s' : Tables × σ}
    (h : kernelFsFileOpen p path mode s = .ok (fd, s')) :
    (fd = KernelFsFdInvalid ∧ s'.1 = s.1) ∨
    ∃ s₁, kernelFsFileOpenCheck p path mode s = .ok (true, s₁) ∧
      fd = (if (openWrites p path mode s₁).isSome then scannedFd s.1.fdt path else
        KernelFsFdInvalid) ∧
      s'.1 = s.1.setFd (scannedFd s.1.fdt path) (openWrites p path mode s₁) := by
  cases hcheck : kernelFsFileOpenCheck p path mode s with
  | error e =>
    rw [kernelFsFileOpen] at h
    obtain ⟨ok, s₁, hok, _⟩ := bind_ok.mp h
    rw [hcheck] at hok
    cases hok
  | ok r =>
    obtain ⟨b, s₁⟩ := r
    cases b with
    | false =>
      rw [kernelFsFileOpen, bind_of_ok hcheck, if_pos rfl] at h
      obtain ⟨hfd, hs'⟩ := pure_ok.mp h
      exact Or.inl ⟨hfd, by rw [hs', (openCheck_ok p hcheck).1]⟩
    | true =>
      obtain ⟨hw, hrun⟩ := open_writes p hcheck
      rw [hrun] at h
      cases h
      exact Or.inr ⟨s₁, rfl, rfl, rfl⟩

/-- An open that returns a descriptor made its entry. -/
theorem open_entry {path : CStr} {mode fd : ℕ} {s s' : Tables × σ}
    (h : kernelFsFileOpen p path mode s = .ok (fd, s')) (hfd : fd ≠ KernelFsFdInvalid) :
    Openable s.1 path mode ∧ fd < KernelFsFdMax ∧ s.1.fdt fd = none ∧
      ∃ i, cachedIndex s.1.devices path = some i ∧
        s'.1 = s.1.setFd fd (some (openedEntry path mode i)) := by
  rcases open_cases p h with ⟨h0, _⟩ | ⟨s₁, hcheck, hscan, hs'⟩
  · exact absurd h0 hfd
  obtain ⟨hs₁, hopen⟩ := openCheck_ok p hcheck
  cases hw : openWrites p path mode s₁ with
  | none =>
    rw [hw] at hscan
    exact absurd hscan hfd
  | some e =>
    obtain ⟨i, hi, he⟩ := openWrites_some p hw
    rw [hs₁] at hi
    rw [hw, he] at hs'
    rw [hw, Option.isSome_some, if_pos rfl] at hscan
    have hfull : ¬ FullTable s.1.fdt := by
      rw [← scannedFd_full path, ← hscan]
      exact hfd
    have hfree := scannedFd_free path hfull
    rw [← hscan] at hfree hs'
    exact ⟨hopen rfl, hfree.2.1, hfree.2.2, i, hi, hs'⟩

theorem setFd_same {t : Tables} {fd : ℕ} {e : Option KernelFsFdtEntry} (h : t.fdt fd = e) :
    t.setFd fd e = t := by
  rw [Tables.setFd]
  congr 1
  funext i
  by_cases hi : i = fd
  · rw [if_pos hi, hi, h]
  · rw [if_neg hi]

/-- An open without a descriptor changed nothing, or entry 0 of a full table. -/
theorem open_invalid {path : CStr} {mode : ℕ} {s s' : Tables × σ}
    (h : kernelFsFileOpen p path mode s = .ok (KernelFsFdInvalid, s')) :
    s'.1 = s.1 ∨ FullTable s.1.fdt ∧
      ∃ s₁, kernelFsFileOpenCheck p path mode s = .ok (true, s₁) ∧
        s'.1 = s.1.setFd KernelFsFdInvalid (openWrites p path mode s₁) := by
  rcases open_cases p h with ⟨_, hs'⟩ | ⟨s₁, hcheck, hscan, hs'⟩
  · exact Or.inl hs'
  by_cases hfull : FullTable s.1.fdt
  · rw [(scannedFd_full path).mpr hfull] at hs'
    exact Or.inr ⟨hfull, s₁, hcheck, hs'⟩
  · obtain ⟨hne, _, hfree⟩ := scannedFd_free path hfull
    cases hw : openWrites p path mode s₁ with
    | none =>
      rw [hw] at hs'
      exact Or.inl (by rw [hs', setFd_same hfree])
    | some e =>
      rw [hw, Option.isSome_some, if_pos rfl] at hscan
      exact absurd hscan.symm hne

end ArduinoOS.Kernel
