import ArduinoOS.Procman.Files

/-!
# Files that are their own view

The calls on the view itself: nothing fails for want of space or hardware. This
is what the kernel's files are for, and it keeps the laws.
-/

set_option autoImplicit false

namespace ArduinoOS.Procman
open ArduinoOS.Faulting ArduinoOS.Kernel ArduinoOS.Minifs

namespace FsView

def isOpen (v : FsView) (path : CStr) : Bool :=
  (List.range KernelFsFdMax).any (fun i => (v.fd i).any (fun e => e.path == path))

/-- The last free entry, 0 without one. -/
def freeFd (v : FsView) : ℕ :=
  ((List.range KernelFsFdMax).reverse.find? (fun i => i != 0 && (v.fd i).isNone)).getD 0

def openFile (v : FsView) (path : CStr) (mode : ℕ) : ℕ × FsView :=
  if (v.file path).isNone ∨ v.isOpen path ∨ v.freeFd = 0 then (0, v)
  else (v.freeFd, v.setFd v.freeFd (some ⟨path, mode, 1⟩))

/-- The content behind a descriptor with this mode bit. -/
def content (v : FsView) (fd bit : ℕ) : Option (CStr × List UInt8) :=
  (v.fd fd).bind (fun e =>
    if e.mode &&& bit = 0 then none else (v.file e.path).map (fun c => (e.path, c)))

def readOffset (v : FsView) (fd offset len : ℕ) : List UInt8 :=
  match v.content fd KernelFsFdModeRO with
  | none => []
  | some (_, c) => (c.drop offset).take len

def writeOffset (v : FsView) (fd offset : ℕ) (data : List UInt8) : ℕ × FsView :=
  match v.content fd KernelFsFdModeWO with
  | none => (0, v)
  | some (path, c) =>
      (min data.length (c.length-offset), v.setFile path (some (patch c offset data)))

def close (v : FsView) (fd : ℕ) : ℕ × FsView :=
  match v.fd fd with
  | none => (0, v)
  | some e => (e.refCount-1, v.setFd fd (closed e))

def dupeOrOpen (v : FsView) (fd : ℕ) : ℕ × FsView :=
  match v.fd fd with
  | none => (0, v)
  | some e =>
      if e.refCount+1 < KernelFsFdRefCountMax then
        (fd, v.setFd fd (some { e with refCount := e.refCount+1 }))
      else v.openFile e.path e.mode

def create (v : FsView) (path : CStr) (size : ℕ) : Bool × FsView :=
  if (v.file path).isSome then (false, v)
  else (true, v.setFile path (some (List.replicate size 0)))

def resize (v : FsView) (path : CStr) (newSize : ℕ) : Bool × FsView :=
  if v.isOpen path then (false, v)
  else
    match v.file path with
    | none => (false, v)
    | some c => (true, v.setFile path
        (some (c.take newSize++List.replicate (newSize-c.length) 0)))

def delete (v : FsView) (path : CStr) : Bool × FsView :=
  if v.isOpen path ∨ (v.file path).isNone then (false, v) else (true, v.setFile path none)

end FsView

def viewFiles : Files FsView where
  kernelFsFileReadOffset fd offset len v :=
    .ok ((v.readOffset fd offset len, (v.readOffset fd offset len).length), v)
  kernelFsFileWriteOffset fd offset data := total (fun v => v.writeOffset fd offset data)
  kernelFsFileOpen path mode := total (fun v => v.openFile path mode)
  kernelFsFileClose fd := total (fun v => v.close fd)
  kernelFsFileDupeOrOpen fd := total (fun v => v.dupeOrOpen fd)
  kernelFsFileCreateWithSize path size := total (fun v => v.create path size)
  kernelFsFileResize path newSize := total (fun v => v.resize path newSize)
  kernelFsFileDelete path := total (fun v => v.delete path)
  kernelFsGetFilePath fd v := .ok ((v.fd fd).map OpenFile.path, v)
  kernelFsFileIsOpen path v := .ok (v.isOpen path, v)
  kernelFsFileExists path v := .ok ((v.file path).isSome, v)
  kernelFsFileIsDir _ v := .ok (false, v)
  kernelFsFileCanRead fd v := .ok ((v.content fd KernelFsFdModeRO).isSome, v)
  kernelFsFileCanWrite fd v := .ok ((v.content fd KernelFsFdModeWO).isSome, v)
  kernelUnmount _ v := .ok ((), v)

/-- Descriptors are below the size of the table. -/
def FsView.Bounded (v : FsView) : Prop := ∀ fd e, v.fd fd = some e → fd < KernelFsFdMax

theorem bounded_setFd {v : FsView} (h : v.Bounded) {fd : ℕ} (hfd : fd < KernelFsFdMax)
    (e : Option OpenFile) : (v.setFd fd e).Bounded := by
  intro i e' hi
  rw [FsView.setFd_fd] at hi
  split at hi
  case isTrue hsame => exact hsame ▸ hfd
  case isFalse => exact h i e' hi

theorem freeFd_free {v : FsView} (h : v.freeFd ≠ 0) :
    v.freeFd < KernelFsFdMax ∧ v.fd v.freeFd = none := by
  rw [FsView.freeFd] at h ⊢
  cases hf : (List.range KernelFsFdMax).reverse.find? (fun i => i != 0 && (v.fd i).isNone) with
  | none =>
    rw [hf] at h
    exact absurd rfl h
  | some i =>
    have hmem := List.mem_of_find?_eq_some hf
    have hfree := List.find?_some hf
    rw [Bool.and_eq_true, Option.isNone_iff_eq_none] at hfree
    exact ⟨List.mem_range.mp (List.mem_reverse.mp hmem), hfree.2⟩

theorem openFile_cases {v v' : FsView} {path : CStr} {mode fd : ℕ}
    (h : v.openFile path mode = (fd, v')) :
    (fd = 0 ∧ v' = v) ∨ (fd < KernelFsFdMax ∧ v.fd fd = none ∧
      v' = v.setFd fd (some ⟨path, mode, 1⟩)) := by
  rw [FsView.openFile] at h
  split at h
  case isTrue =>
    cases h
    exact Or.inl ⟨rfl, rfl⟩
  case isFalse hok =>
    cases h
    obtain ⟨hlt, hfree⟩ := freeFd_free (fun hzero => hok (Or.inr (Or.inr hzero)))
    exact Or.inr ⟨hlt, hfree, rfl⟩

theorem written_patch (c : List UInt8) (offset : ℕ) (data : List UInt8) :
    Written c offset data (min data.length (c.length-offset)) (patch c offset data) := by
  refine ⟨patch_length _ _ _, fun k hk => ?_, Nat.min_le_left _ _, fun h => ⟨rfl, ?_⟩⟩
  · rw [patch]
    by_cases hbelow : k < offset
    · by_cases hlen : offset ≤ c.length
      · rw [List.getElem?_append_left (by rw [List.length_take]; omega), List.getElem?_take,
          if_pos hbelow]
      · have hnone : c.length-offset = 0 := by omega
        rw [hnone, List.take_zero, List.length_nil, List.nil_append, Nat.add_zero,
          List.drop_eq_nil_of_le (by omega), List.append_nil, List.getElem?_take, if_pos hbelow]
    · by_cases hend : k < c.length
      · have hlen : (c.take offset).length = offset := by
          rw [List.length_take]
          omega
        have hdata : (data.take (c.length-offset)).length = data.length := by
          rw [List.length_take]
          omega
        rw [List.getElem?_append_right (by omega), hlen,
          List.getElem?_append_right (by omega), hdata, List.getElem?_drop]
        congr 1
        omega
      · have hpatch := patch_length c offset data
        rw [patch] at hpatch
        rw [List.getElem?_eq_none (by omega), List.getElem?_eq_none (by omega)]
  · by_cases hnil : data = []
    · exact Or.inl hnil
    · have hpos := List.length_pos_iff.mpr hnil
      right
      omega

theorem viewFiles_law (largest : ℕ) : FilesLaw viewFiles FsView.Bounded id largest where
  fd_lt s fd e hi h := hi fd e h
  read s s' fd offset len e c r hi hfd hfile hrun := by
    cases hrun
    refine ⟨hi, rfl, fun hlen => ⟨?_, hlen⟩⟩
    simp only [id] at hfd hfile
    have hlen' : (s.readOffset fd offset len).length = len := hlen
    by_cases hmode : e.mode &&& KernelFsFdModeRO = 0
    · have hnil : s.readOffset fd offset len = [] := by
        simp [FsView.readOffset, FsView.content, hfd, hmode]
      rw [hnil] at hlen' ⊢
      rw [← hlen']
      rfl
    · simp [FsView.readOffset, FsView.content, hfd, hmode, hfile]
  write s s' fd offset data e c n hi hfd hfile hrun := by
    simp only [id] at hfd hfile ⊢
    have hw : s.writeOffset fd offset data = (n, s') := Except.ok.inj hrun
    by_cases hmode : e.mode &&& KernelFsFdModeWO = 0
    · have hnone : s.writeOffset fd offset data = (0, s) := by
        simp [FsView.writeOffset, FsView.content, hfd, hmode]
      rw [hnone] at hw
      cases hw
      refine ⟨hi, c, ⟨rfl, fun _ _ => rfl, Nat.zero_le _, fun h => ?_⟩, ?_⟩
      · have hnil := List.eq_nil_of_length_eq_zero h.symm
        subst hnil
        exact ⟨by simp [patch], Or.inl rfl⟩
      · have hsame : (fun q => if q = e.path then some c else s.file q) = s.file := by
          funext q
          split
          case isTrue hq => rw [hq, hfile]
          case isFalse => rfl
        rw [FsView.setFile, hsame]
    · have hsome : s.writeOffset fd offset data = (min data.length (c.length-offset),
          s.setFile e.path (some (patch c offset data))) := by
        simp [FsView.writeOffset, FsView.content, hfd, hmode, hfile]
      rw [hsome] at hw
      cases hw
      exact ⟨hi, _, written_patch _ _ _, rfl⟩
  openFile s s' path mode c fd hi hfile hrun := by
    simp only [id]
    rcases openFile_cases (Except.ok.inj hrun) with ⟨rfl, rfl⟩ | ⟨hlt, hfree, rfl⟩
    · exact ⟨hi, rfl, fun _ _ => rfl, fun h => absurd rfl h⟩
    · refine ⟨bounded_setFd hi hlt _, rfl, fun i hne => ?_, fun _ => ⟨hfree, ?_⟩⟩
      · rw [FsView.setFd_fd, if_neg hne]
      · rw [FsView.setFd_fd, if_pos rfl]
  close s s' fd e k hi hfd hrun := by
    simp only [id] at hfd ⊢
    have hc : s.close fd = (k, s') := Except.ok.inj hrun
    rw [FsView.close, hfd] at hc
    cases hc
    exact ⟨bounded_setFd hi (hi fd e hfd) _, rfl⟩
  resize s s' path newSize c b hi hfile _ hrun := by
    simp only [id] at hfile ⊢
    have hr : s.resize path newSize = (b, s') := Except.ok.inj hrun
    rw [FsView.resize, hfile] at hr
    split at hr
    case isTrue =>
      cases hr
      exact ⟨hi, fun _ => rfl, fun h => by cases h⟩
    case isFalse =>
      cases hr
      refine ⟨hi, fun h => (by cases h), fun _ => ⟨_, ⟨?_, ?_⟩, rfl⟩⟩
      · rw [List.length_append, List.length_take, List.length_replicate]
        omega
      · rw [List.take_append_of_le_length (by rw [List.length_take]; omega), List.take_take]
        congr 1
        omega
  delete s s' path c b hi hfile hrun := by
    simp only [id] at hfile ⊢
    have hd : s.delete path = (b, s') := Except.ok.inj hrun
    rw [FsView.delete] at hd
    split at hd
    case isTrue =>
      cases hd
      exact ⟨hi, rfl⟩
    case isFalse =>
      cases hd
      exact ⟨hi, rfl⟩
  getFilePath s s' fd path hrun := by
    cases hrun
    exact ⟨rfl, rfl⟩

theorem viewFiles_reliable : ReliableReads viewFiles FsView.Bounded id where
  read s fd offset len e c _ hfd hfile hmode := by
    simp only [id] at hfd hfile
    refine ⟨_, s, rfl, ?_⟩
    change (s.readOffset fd offset len).length = _
    simp [FsView.readOffset, FsView.content, hfd, hmode, hfile]

theorem viewFiles_reliableWrites : ReliableWrites viewFiles FsView.Bounded id where
  write s fd offset data e c _ hfd hfile hmode := by
    simp only [id] at hfd hfile
    refine ⟨s.setFile e.path (some (patch c offset data)), ?_⟩
    change Except.ok (s.writeOffset fd offset data) = _
    simp [FsView.writeOffset, FsView.content, hfd, hmode, hfile]

end ArduinoOS.Procman
