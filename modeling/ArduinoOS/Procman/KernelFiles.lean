import ArduinoOS.Minifs.Steps
import ArduinoOS.Procman.KernelView

/-!
# The kernel's files are an abstract file system

On volumes whose chips honour every access, each call of the kernel is a step of
the abstract file system and fails no assertion, whatever calls came before.
-/

set_option autoImplicit false

namespace ArduinoOS.Procman
open ArduinoOS.ByteProgram ArduinoOS.Faulting ArduinoOS.Kernel ArduinoOS.Minifs
open ArduinoOS.Simulation

/-! ### The view -/

/-- The content of a file of a volume, as the volume's own functions find it. -/
def contentOf (size : ℕ) (m : Image) (filename : CStr) : Option (List UInt8) :=
  match (miniFsFileExists filename).exec size m with
  | some (true, _) =>
      ((miniFsFileRead filename 0 UINT16_MAX).exec size m).map (fun r => r.1.1)
  | _ => none

def openFileOf (e : KernelFsFdtEntry) : OpenFile :=
  ⟨e.path, kernelFsFdPathSpareGetMode e.spare, kernelFsFdPathSpareGetRefCount e.spare⟩

/-- The files on volumes and the descriptors that are not reserved. -/
def kernelView {σ : Type} (reserved : List ℕ) (image : ℕ → σ → Image) (s : Tables × σ) :
    FsView where
  file path := (fileVolume s.1.devices path).bind (fun v =>
    contentOf v.2 (image v.1 s.2) (baseName path))
  fd i := if i ∈ reserved then none else (s.1.fdt i).map openFileOf

/-- The path is that of a file on a writable volume. -/
def pathWritable (devices : Devices) (path : CStr) : Bool :=
  (fileVolume devices path).any (fun v => (devices v.1).any KernelFsDevice.writable)

/-- An entry as opens, dupes and closes of files on volumes leave it. -/
structure EntrySound (devices : Devices) (fd : ℕ) (e : KernelFsFdtEntry) : Prop where
  slot : fd < KernelFsFdMax
  mode : 1 ≤ kernelFsFdPathSpareGetMode e.spare ∧ kernelFsFdPathSpareGetMode e.spare ≤ 3
  count : 1 ≤ kernelFsFdPathSpareGetRefCount e.spare ∧
    kernelFsFdPathSpareGetRefCount e.spare < KernelFsFdRefCountMax
  volume : ∃ size, fileVolume devices e.path = some (e.deviceIndex, size)

structure FilesSound {σ : Type} (t₀ : Tables) (reserved : List ℕ) (image : ℕ → σ → Image)
    (s : Tables × σ) : Prop where
  fixed : Fixed t₀ reserved s.1
  volumes : ∀ i d size, IsVolume t₀.devices i d size →
    ∃ v, Minifs.Holds size (image i s.2) v
  entries : ∀ fd e, fd ∉ reserved → s.1.fdt fd = some e → EntrySound t₀.devices fd e

/-- Calls for files on volumes, descriptors that are not reserved, the three modes,
and sizes that a volume can describe. -/
def FileCall.Allowed (devices : Devices) (reserved : List ℕ) : FileCall → Prop
  | .readOffset fd _ _ => fd < KernelFsFdMax ∧ fd ∉ reserved
  | .writeOffset fd _ _ => fd < KernelFsFdMax ∧ fd ∉ reserved
  | .openFile path mode => (fileVolume devices path).isSome ∧ 1 ≤ mode ∧ mode ≤ 3
  | .close fd => fd < KernelFsFdMax ∧ fd ∉ reserved
  | .dupeOrOpen fd => fd < KernelFsFdMax ∧ fd ∉ reserved
  | .createWithSize path size => (fileVolume devices path).isSome ∧
      neededLength (baseName path) size ≤ 255*MINIFSFACTOR
  | .resize path newSize => (fileVolume devices path).isSome ∧
      neededLength (baseName path) newSize ≤ 255*MINIFSFACTOR
  | .delete path => (fileVolume devices path).isSome
  | .getFilePath fd => fd < KernelFsFdMax ∧ fd ∉ reserved
  | .isOpen path => (fileVolume devices path).isSome
  | .fileExists path => (fileVolume devices path).isSome
  | .isDir path => (fileVolume devices path).isSome
  | .canRead fd => fd < KernelFsFdMax ∧ fd ∉ reserved
  | .canWrite fd => fd < KernelFsFdMax ∧ fd ∉ reserved

theorem content_small {v : Volume} {filename : CStr} {c : List UInt8}
    (hc : v.fileMap filename = some c) : c.length+filename.length+4 ≤ 255*MINIFSFACTOR := by
  rcases find_cases v filename with ha | ⟨pre, f, post, hs, hname⟩
  · rw [fileMap_none ha] at hc
    cases hc
  · rw [← hname, fileMap_some (by simp [hs]), Option.some.injEq] at hc
    have hle := f.total_le
    rw [← hc, ← hname]
    change f.content.length+f.name.length+4 ≤ 32640
    omega

theorem contentOf_holds {size : ℕ} {m : Image} {v : Volume} (h : Minifs.Holds size m v)
    (filename : CStr) : contentOf size m filename = v.fileMap filename := by
  rw [contentOf, exec_fileExists h filename]
  rcases find_cases v filename with ha | ⟨pre, f, post, hs, rfl⟩
  · rw [fileMap_none ha, decide_eq_false (fun ⟨f, hf, hn⟩ => ha f hf hn)]
  · have hf : f ∈ v.files := by simp [hs]
    have hle := f.total_le
    rw [fileMap_some hf, decide_eq_true ⟨f, hf, rfl⟩]
    dsimp only
    rw [exec_fileRead_found h pre post f hs, Option.map_some, List.drop_zero,
      List.take_of_length_le (by rw [UINT16_MAX]; omega)]

/-! ### How the view changes -/

section View

variable {σ : Type} {t₀ : Tables} {reserved : List ℕ} {image : ℕ → σ → Image} {s s' : Tables × σ}
  (hsound : FilesSound t₀ reserved image s)
include hsound

theorem view_file {path : CStr} {i size : ℕ} {d : KernelFsDevice}
    (hon : OnVolume t₀.devices path i d size) :
    ∃ v, Minifs.Holds size (image i s.2) v ∧
      (kernelView reserved image s).file path = v.fileMap (baseName path) := by
  obtain ⟨v, hv⟩ := hsound.volumes i d size hon.volume
  refine ⟨v, hv, ?_⟩
  rw [kernelView, hsound.fixed.devices]
  dsimp only
  rw [hon.fileVolume, Option.bind_some, contentOf_holds hv]

variable (s') in
/-- Where the tables and the images stay, so does the view. -/
theorem view_quiet (htables : s'.1 = s.1)
    (hsame : SameFor t₀.devices image (fun _ => True) s.2 s'.2) :
    FilesSound t₀ reserved image s' ∧
      kernelView reserved image s' = kernelView reserved image s := by
  have hsound' : FilesSound t₀ reserved image s' := by
    refine ⟨htables ▸ hsound.fixed, fun i d size hi => ?_, htables ▸ hsound.entries⟩
    obtain ⟨v, hv⟩ := hsound.volumes i d size hi
    exact ⟨v, holds_congr hv (hsame i d size hi trivial)⟩
  refine ⟨hsound', ?_⟩
  rw [kernelView, kernelView, htables]
  congr 1
  funext path
  rw [hsound.fixed.devices]
  cases hvol : fileVolume t₀.devices path with
  | none => rfl
  | some place =>
    obtain ⟨i, size⟩ := place
    obtain ⟨d, hon⟩ := fileVolume_some hvol
    obtain ⟨v, hv⟩ := hsound.volumes i d size hon.volume
    rw [Option.bind_some, Option.bind_some, contentOf_holds hv,
      contentOf_holds (holds_congr hv (hsame i d size hon.volume trivial))]

variable (s') in
/-- A change of one file of one volume. -/
theorem view_changed {path : CStr} {i size : ℕ} {d : KernelFsDevice}
    (hon : OnVolume t₀.devices path i d size) {v v' : Volume} {c : Option (List UInt8)}
    (hv : Minifs.Holds size (image i s.2) v) (htables : s'.1 = s.1)
    (hv' : Minifs.Holds size (image i s'.2) v')
    (hsame : SameFor t₀.devices image (fun j => j ≠ i) s.2 s'.2)
    (hmap : v'.fileMap = v.fileMap.set (baseName path) c) :
    FilesSound t₀ reserved image s' ∧
      kernelView reserved image s' = (kernelView reserved image s).setFile path c := by
  have hvolume : ∀ j d' size', IsVolume t₀.devices j d' size' → j = i → d' = d ∧ size' = size := by
    intro j d' size' hj hji
    have hdev := hj.device
    rw [hji, hon.volume.device, Option.some.injEq] at hdev
    have htype := hj.type
    rw [← hdev, hon.volume.type] at htype
    cases htype
    exact ⟨hdev.symm, rfl⟩
  refine ⟨⟨htables ▸ hsound.fixed, fun j d' size' hj => ?_, htables ▸ hsound.entries⟩, ?_⟩
  · by_cases hji : j = i
    · obtain ⟨rfl, rfl⟩ := hvolume j d' size' hj hji
      rw [hji]
      exact ⟨v', hv'⟩
    · obtain ⟨w, hw⟩ := hsound.volumes j d' size' hj
      exact ⟨w, holds_congr hw (hsame j d' size' hj hji)⟩
  rw [kernelView, kernelView, FsView.setFile, htables]
  congr 1
  funext q
  dsimp only
  rw [hsound.fixed.devices]
  cases hvol : fileVolume t₀.devices q with
  | none =>
    have hne : q ≠ path := by
      rintro rfl
      rw [hon.fileVolume] at hvol
      cases hvol
    rw [if_neg hne]
    rfl
  | some place =>
    obtain ⟨j, size'⟩ := place
    obtain ⟨d', honq⟩ := fileVolume_some hvol
    rw [Option.bind_some]
    by_cases hji : j = i
    · obtain ⟨rfl, rfl⟩ := hvolume j d' size' honq.volume hji
      subst hji
      dsimp only
      rw [contentOf_holds hv', hmap, FileMap.set]
      by_cases hq : q = path
      · rw [if_pos (congrArg baseName hq), if_pos hq]
      · rw [if_neg (fun hname => hq (hon.path_inj honq hname)), if_neg hq, Option.bind_some,
          contentOf_holds hv]
    · have hne : q ≠ path := by
        rintro rfl
        rw [hon.fileVolume] at hvol
        cases hvol
        exact hji rfl
      obtain ⟨w, hw⟩ := hsound.volumes j d' size' honq.volume
      dsimp only
      rw [if_neg hne, Option.bind_some, contentOf_holds hw,
        contentOf_holds (holds_congr hw (hsame j d' size' honq.volume hji))]

variable (s') in
/-- A change of one descriptor. -/
theorem view_setFd {fd : ℕ} (hfd : fd ∉ reserved) {e : Option KernelFsFdtEntry}
    (he : ∀ e', e = some e' → EntrySound t₀.devices fd e')
    (htables : s'.1 = s.1.setFd fd e)
    (hsame : SameFor t₀.devices image (fun _ => True) s.2 s'.2) :
    FilesSound t₀ reserved image s' ∧ kernelView reserved image s' =
      (kernelView reserved image s).setFd fd (e.map openFileOf) := by
  obtain ⟨hquiet, hview⟩ := view_quiet (s.1, s'.2) hsound rfl hsame
  refine ⟨⟨htables ▸ fixed_setFd hsound.fixed hfd e, hquiet.volumes, fun i e' hi he' => ?_⟩, ?_⟩
  · rw [htables, Tables.setFd_fdt] at he'
    by_cases hifd : i = fd
    · rw [if_pos hifd] at he'
      exact hifd ▸ he e' he'
    · rw [if_neg hifd] at he'
      exact hsound.entries i e' hi he'
  · rw [← hview, kernelView, kernelView, FsView.setFd, htables]
    congr 1
    funext i
    rw [Tables.setFd_fdt]
    by_cases hifd : i = fd
    · rw [if_pos hifd, if_pos hifd, if_neg (hifd ▸ hfd)]
    · rw [if_neg hifd, if_neg hifd]

omit hsound in
/-- What the view shows of a descriptor. -/
theorem view_fd {fd : ℕ} (hfd : fd ∉ reserved) :
    (kernelView reserved image s).fd fd = (s.1.fdt fd).map openFileOf := if_neg hfd

end View

/-! ### Reading and writing -/

theorem exec_fileRead_map {size : ℕ} {m : Image} {v : Volume} (h : Minifs.Holds size m v)
    (filename : CStr) (offset len : ℕ) :
    (miniFsFileRead filename offset len).exec size m =
      some (((((v.fileMap filename).getD []).drop offset).take len,
        ((((v.fileMap filename).getD []).drop offset).take len).length), m) := by
  rcases find_cases v filename with ha | ⟨pre, f, post, hs, rfl⟩
  · rw [fileMap_none ha, exec_fileRead_absent h filename offset len ha]
    simp
  · rw [fileMap_some (by simp [hs]), exec_fileRead_found h pre post f hs]
    rfl

/-- The path behind the mount point and a slash. -/
theorem kstrO_baseName {devices : Devices} {path : CStr} {i size : ℕ} {d : KernelFsDevice}
    (hd : ValidDevices devices) (hon : OnVolume devices path i d size) :
    kstrO path (kstrStrlen d.mountPoint+1) = baseName path := by
  have hlen := (hd.valid i hon.volume.slot d hon.volume.device).2
  rw [KernelFsPathMax] at hlen
  have hstr : kstrStrlen d.mountPoint = d.mountPoint.length := u16_of_lt (by omega)
  rw [hstr, kstrO, if_neg (by omega), u8_of_lt (by omega)]
  conv_lhs => rw [hon.parts]
  rw [List.drop_append, List.drop_of_length_le (by omega), List.nil_append,
    show d.mountPoint.length+1-d.mountPoint.length = 1 by omega]
  rfl

theorem setFile_same {v : FsView} {path : CStr} {c : Option (List UInt8)}
    (h : v.file path = c) : v.setFile path c = v := by
  rw [FsView.setFile]
  congr 1
  funext q
  split
  case isTrue hq => rw [hq, h]
  case isFalse => rfl

theorem pathWritable_onVolume {devices : Devices} {path : CStr} {i size : ℕ} {d : KernelFsDevice}
    (hon : OnVolume devices path i d size) : pathWritable devices path = d.writable := by
  rw [pathWritable, hon.fileVolume, Option.any_some, hon.volume.device, Option.any_some]

theorem patch_take {c data : List UInt8} {offset n : ℕ} (hn : c.length ≤ n) :
    patch c offset (data.take n) = patch c offset data := by
  rw [patch, patch, List.take_take, Nat.min_eq_left (by omega)]

section Calls

variable {σ : Type} {p : Platform σ} {t₀ : Tables} {reserved : List ℕ} {place : ℕ → ℕ × ℕ}
  {image : ℕ → σ → Image} (hs : Setting p t₀ reserved place image) {s : Tables × σ}
  (hsound : FilesSound t₀ reserved image s)

/-- A call ends without a fault in a sound state and is a step of the view. -/
def IsStep (p : Platform σ) (t₀ : Tables) (reserved : List ℕ) (image : ℕ → σ → Image)
    (s : Tables × σ) (call : FileCall) : Prop :=
  ∃ r s', call.run (kernelFiles p) s = .ok (r, s') ∧ FilesSound t₀ reserved image s' ∧
    FsStep (pathWritable t₀.devices) call r (kernelView reserved image s)
      (kernelView reserved image s')

/-- The descriptor of a file on a volume, which is not a device. -/
structure FdOnVolume (t₀ : Tables) (reserved : List ℕ) (image : ℕ → σ → Image) (s : Tables × σ)
    (fd : ℕ) (e : KernelFsFdtEntry) (d : KernelFsDevice) (size : ℕ) : Prop where
  entry : s.1.fdt fd = some e
  sound : EntrySound t₀.devices fd e
  volume : OnVolume t₀.devices e.path e.deviceIndex d size
  shown : (kernelView reserved image s).fd fd = some (openFileOf e)
  device : s.1.devices e.deviceIndex = some d
  apart : fdIsDevice s.1 e = false
  cached : ∀ h : σ, (assertFdDevice s.1 e : Hw σ Unit) h = .ok ((), h)

include hsound in
theorem fd_onVolume {fd : ℕ} (hfd : fd ∉ reserved) {e : KernelFsFdtEntry}
    (he : s.1.fdt fd = some e) : ∃ d size, FdOnVolume t₀ reserved image s fd e d size := by
  have hentry := hsound.entries fd e hfd he
  obtain ⟨size, hvolume⟩ := hentry.volume
  obtain ⟨d, hon⟩ := fileVolume_some hvolume
  have hdev : s.1.devices e.deviceIndex = some d := by
    rw [hsound.fixed.devices]
    exact hon.volume.device
  have hapart : fdIsDevice s.1 e = false := by
    have hne := getDevice_none.mp hon.file e.deviceIndex hon.volume.slot d hon.volume.device
    rw [fdIsDevice, hdev, Option.all_some, beq_eq_false_iff_ne]
    exact hne
  refine ⟨d, size, he, hentry, hon, ?_, hdev, hapart, fun h => ?_⟩
  · rw [view_fd hfd, he]
    rfl
  · rw [assertFdDevice, hsound.fixed.devices, hon.file, hapart]
    rfl

omit hsound in
theorem run_reply {α : Type} {x : KernelRun σ α} (reply : α → FileReply) {a : α}
    {s' : Tables × σ} (hx : x s = .ok (a, s')) :
    (x >>= fun r => pure (reply r)) s = .ok (reply a, s') := by
  rw [bind_of_ok hx]
  rfl

/-- A call of a volume that answers with a flag. -/
theorem run_flag {x : Prog Bool} {dev : Handler σ Fault} {h h' : σ} {r : ℕ}
    (hrun : (x >>= fun b => pure b.toNat : Prog ℕ).run dev h = .ok (r, h')) :
    ∃ b, x.run dev h = .ok (b, h') ∧ r = b.toNat := by
  rw [Prog.run_bind] at hrun
  obtain ⟨b, h₁, hfirst, hlast⟩ := bind_ok.mp hrun
  obtain ⟨hr, hh⟩ := pure_ok.mp hlast
  exact ⟨b, by rw [hfirst, hh], hr⟩

theorem access_of {α : Type} (x : Functors σ → Tables → Hw σ α) {a : α} {h : σ}
    (hx : x (p.functors s.1) s.1 s.2 = .ok (a, h)) : access p x s = .ok (a, (s.1, h)) :=
  (access_ok p).mpr ⟨hx, rfl⟩

include hs hsound

theorem readOffset_isStep {fd : ℕ} (hlt : fd < KernelFsFdMax) (hfd : fd ∉ reserved)
    (offset dataLen : ℕ) : IsStep p t₀ reserved image s (.readOffset fd offset dataLen) := by
  have hcall : ∀ r h,
      kernelFsFileReadOffset (p.functors s.1) p.fat s.1 fd offset dataLen s.2 = .ok (r, h) →
      FileCall.run (kernelFiles p) (.readOffset fd offset dataLen) s =
        .ok (.bytes r.1 r.2, (s.1, h)) := by
    intro r h hx
    exact run_reply (fun r => .bytes r.1 r.2)
      (access_of (fun f t => kernelFsFileReadOffset f p.fat t fd offset dataLen) hx)
  have hrefused : kernelFsFileReadOffset (p.functors s.1) p.fat s.1 fd offset dataLen s.2 =
      .ok (([], 0), s.2) → (kernelView reserved image s).allows fd KernelFsFdModeRO = false →
      IsStep p t₀ reserved image s (.readOffset fd offset dataLen) := by
    intro hrun hno
    exact ⟨.bytes [] 0, s, hcall _ _ hrun, hsound,
      FsStep.readRefused offset dataLen hno⟩
  cases he : s.1.fdt fd with
  | none =>
    apply hrefused
    · rw [kernelFsFileReadOffset, kAssert, decide_eq_true hlt, he]
      rfl
    · rw [FsView.allows, view_fd hfd, he]
      rfl
  | some e =>
    obtain ⟨d, size, hon⟩ := fd_onVolume hsound hfd he
    by_cases hmode : kernelFsFdPathSpareGetMode e.spare &&& KernelFsFdModeRO = 0
    · apply hrefused
      · rw [kernelFsFileReadOffset, kAssert, decide_eq_true hlt, he]
        change (if _ then _ else _ : Hw σ (List UInt8 × ℕ)) s.2 = _
        rw [if_pos hmode]
        rfl
      · rw [FsView.allows, hon.shown]
        simp [openFileOf, hmode]
    · obtain ⟨v, hv, hfile⟩ := view_file hsound hon.volume
      have hcontent : (kernelView reserved image s).contentAt e.path =
          (v.fileMap (baseName e.path)).getD [] := by rw [FsView.contentAt, hfile]
      have hsmall : ((v.fileMap (baseName e.path)).getD []).length < UINT16_MAX := by
        cases hc : v.fileMap (baseName e.path) with
        | none => decide
        | some c =>
          have hle := content_small hc
          rw [MINIFSFACTOR] at hle
          rw [Option.getD_some, UINT16_MAX]
          omega
      have hread : kernelFsFileReadOffset (p.functors s.1) p.fat s.1 fd offset dataLen s.2 =
          (if offset ≥ UINT16_MAX then pure ([], 0)
          else (miniFsFileRead (baseName e.path) offset
            (if dataLen ≥ UINT16_MAX then UINT16_MAX else dataLen)).run
              (kernelFsDeviceMiniFs (p.functors s.1) d) : Hw σ (List UInt8 × ℕ)) s.2 := by
        rw [kernelFsFileReadOffset, kAssert, decide_eq_true hlt, he]
        change (if _ then _ else _ : Hw σ (List UInt8 × ℕ)) s.2 = _
        rw [if_neg hmode, bind_of_ok (hon.cached s.2), hon.device]
        dsimp only
        rw [if_neg (by rw [hon.apart]; decide), hon.volume.volume.type]
        dsimp only
        rw [kstrO_baseName hs.devices hon.volume]
      by_cases hfar : offset ≥ UINT16_MAX
      · rw [if_pos hfar] at hread
        have hstep := @FsStep.read (pathWritable t₀.devices) (kernelView reserved image s) fd _
          offset dataLen hon.shown hmode
        have hnil : ((kernelView reserved image s).contentAt e.path).drop offset = [] := by
          rw [hcontent]
          exact List.drop_of_length_le (by omega)
        rw [show (openFileOf e).path = e.path from rfl, hnil, List.take_nil] at hstep
        exact ⟨_, _, hcall _ _ hread, hsound, hstep⟩
      · rw [if_neg hfar] at hread
        obtain ⟨h', hrun, hsame⟩ := volume_query hs hsound.fixed hon.volume.volume
          (readOnly_fileRead (baseName e.path) offset _)
          (exec_fileRead_map hv (baseName e.path) offset
            (if dataLen ≥ UINT16_MAX then UINT16_MAX else dataLen))
        obtain ⟨hsound', hview⟩ := view_quiet (s.1, h') hsound rfl hsame
        have htake : (((v.fileMap (baseName e.path)).getD []).drop offset).take
            (if dataLen ≥ UINT16_MAX then UINT16_MAX else dataLen) =
            (((v.fileMap (baseName e.path)).getD []).drop offset).take dataLen := by
          split
          case isTrue hlong =>
            rw [List.take_of_length_le (by rw [List.length_drop]; omega),
              List.take_of_length_le (by rw [List.length_drop]; omega)]
          case isFalse => rfl
        rw [hrun, htake] at hread
        refine ⟨_, _, hcall _ _ hread, hsound', ?_⟩
        have hstep := @FsStep.read (pathWritable t₀.devices) (kernelView reserved image s) fd _
          offset dataLen hon.shown hmode
        rw [show (openFileOf e).path = e.path from rfl, hcontent] at hstep
        rw [hview]
        exact hstep

/-- What a change of the writable volume of a path comes to. -/
theorem changed_volume {path : CStr} {i size : ℕ} {d : KernelFsDevice}
    (hon : OnVolume t₀.devices path i d size) (hw : d.writable = true) (op : Op)
    (hop : op.Bounded) :
    ∃ (r : ℕ) (h : σ) (v : Volume) (map' : FileMap),
      (op.call ⟨true⟩).run (kernelFsDeviceMiniFs (p.functors s.1) d) s.2 = .ok (r, h) ∧
      (kernelView reserved image s).file path = v.fileMap (baseName path) ∧
      Minifs.Step true op r v.fileMap map' ∧
      ∀ c, map' = v.fileMap.set (baseName path) c → FilesSound t₀ reserved image (s.1, h) ∧
        kernelView reserved image (s.1, h) = (kernelView reserved image s).setFile path c := by
  obtain ⟨v, hv, hfile⟩ := view_file hsound hon
  obtain ⟨r, h, v', hrun, hv', hstep, hsame⟩ := volume_call hs hsound.fixed hon.volume hw hv op hop
  exact ⟨r, h, v, v'.fileMap, hrun, hfile, hstep,
    fun c hmap => view_changed (s.1, h) hsound hon hv rfl hv' hsame hmap⟩

theorem writeOffset_isStep {fd : ℕ} (hlt : fd < KernelFsFdMax) (hfd : fd ∉ reserved)
    (offset : ℕ) (data : List UInt8) :
    IsStep p t₀ reserved image s (.writeOffset fd offset data) := by
  have hcall : ∀ n h, kernelFsFileWriteOffset (p.functors s.1) s.1 fd offset data s.2 = .ok (n, h) →
      FileCall.run (kernelFiles p) (.writeOffset fd offset data) s = .ok (.count n, (s.1, h)) := by
    intro n h hx
    exact run_reply .count (access_of (fun f t => kernelFsFileWriteOffset f t fd offset data) hx)
  have hrefused : kernelFsFileWriteOffset (p.functors s.1) s.1 fd offset data s.2 = .ok (0, s.2) →
      (∀ e, (kernelView reserved image s).fd fd = some e → e.mode &&& KernelFsFdModeWO = 0 ∨
        pathWritable t₀.devices e.path = false ∨ (kernelView reserved image s).file e.path = none) →
      IsStep p t₀ reserved image s (.writeOffset fd offset data) :=
    fun hrun hno => ⟨.count 0, s, hcall _ _ hrun, hsound, FsStep.writeRefused offset data hno⟩
  cases he : s.1.fdt fd with
  | none =>
    apply hrefused
    · rw [kernelFsFileWriteOffset, kAssert, decide_eq_true hlt, he]
      rfl
    · intro e hshown
      rw [view_fd hfd, he] at hshown
      cases hshown
  | some e =>
    obtain ⟨d, size, hon⟩ := fd_onVolume hsound hfd he
    have hshown : ∀ e', (kernelView reserved image s).fd fd = some e' → e' = openFileOf e := by
      intro e' he'
      rw [hon.shown, Option.some.injEq] at he'
      exact he'.symm
    by_cases hmode : kernelFsFdPathSpareGetMode e.spare &&& KernelFsFdModeWO = 0
    · apply hrefused
      · rw [kernelFsFileWriteOffset, kAssert, decide_eq_true hlt, he]
        change (if _ then _ else _ : Hw σ ℕ) s.2 = _
        rw [if_pos hmode]
        rfl
      · intro e' he'
        rw [hshown e' he']
        exact Or.inl hmode
    have hwrite : kernelFsFileWriteOffset (p.functors s.1) s.1 fd offset data s.2 =
        (if d.writable = false then pure 0
        else if offset ≥ UINT16_MAX then pure 0
        else (miniFsFileWrite ⟨true⟩ (baseName e.path) offset
          (if data.length ≥ UINT16_MAX then data.take UINT16_MAX else data)).run
            (kernelFsDeviceMiniFs (p.functors s.1) d) : Hw σ ℕ) s.2 := by
      have hcache : (cacheAssert (kernelFsGetDeviceFromPath s.1.devices (dirName e.path) ==
          some e.deviceIndex) : Hw σ Unit) s.2 = .ok ((), s.2) := by
        rw [hsound.fixed.devices, hon.volume.parent, beq_self_eq_true]
        rfl
      rw [kernelFsFileWriteOffset, kAssert, decide_eq_true hlt, he]
      change (if _ then _ else _ : Hw σ ℕ) s.2 = _
      rw [if_neg hmode, bind_of_ok (hon.cached s.2), hon.device]
      dsimp only
      rw [if_neg (by rw [hon.apart]; decide), hon.volume.split]
      dsimp only
      rw [bind_of_ok hcache, hon.volume.volume.type]
    cases hw : d.writable with
    | false =>
      rw [hw, if_pos rfl] at hwrite
      apply hrefused hwrite
      intro e' he'
      rw [hshown e' he']
      exact Or.inr (Or.inl ((pathWritable_onVolume hon.volume).trans hw))
    | true =>
      rw [hw, if_neg (by decide)] at hwrite
      obtain ⟨n, h, v, map', hrun, hfile, hstep, hchanged⟩ := changed_volume hs hsound hon.volume hw
        (.write (baseName e.path) offset
          (if data.length ≥ UINT16_MAX then data.take UINT16_MAX else data)) trivial
      have hrun' : (miniFsFileWrite ⟨true⟩ (baseName e.path) offset
          (if data.length ≥ UINT16_MAX then data.take UINT16_MAX else data)).run
            (kernelFsDeviceMiniFs (p.functors s.1) d) s.2 = .ok (n, h) := hrun
      by_cases hfar : offset ≥ UINT16_MAX
      · rw [if_pos hfar] at hwrite
        cases hc : v.fileMap (baseName e.path) with
        | none =>
          apply hrefused hwrite
          intro e' he'
          rw [hshown e' he']
          exact Or.inr (Or.inr (hfile.trans hc))
        | some old =>
          -- the file ends before the offset
          have hsmall := content_small hc
          rw [MINIFSFACTOR] at hsmall
          rw [UINT16_MAX] at hfar
          have hold : (kernelView reserved image s).file (openFileOf e).path = some old :=
            hfile.trans hc
          have hwritten := @FsStep.written _ (kernelView reserved image s) fd _ old offset data
            hon.shown hmode ((pathWritable_onVolume hon.volume).trans hw) hold
          rw [patch_beyond old offset data (by omega), show old.length-offset = 0 by omega,
            Nat.min_zero, setFile_same hold] at hwritten
          exact ⟨.count 0, s, hcall _ _ hwrite, hsound, hwritten⟩
      rw [if_neg hfar, hrun'] at hwrite
      rcases step_write hstep with ⟨habsent, rfl, rfl⟩ | ⟨old, hold, hn, hmap⟩
      · obtain ⟨hsound', hview⟩ := hchanged none (fileMap_set_same habsent).symm
        rw [setFile_same (hfile.trans habsent)] at hview
        refine ⟨.count 0, (s.1, h), hcall _ _ hwrite, hsound', ?_⟩
        rw [hview]
        apply FsStep.writeRefused
        intro e' he'
        rw [hshown e' he']
        exact Or.inr (Or.inr (hfile.trans habsent))
      · obtain ⟨hsound', hview⟩ := hchanged _ hmap
        have hsmall := content_small hold
        rw [MINIFSFACTOR] at hsmall
        have hcount : n = min data.length (old.length-offset) := by
          rw [hn]
          split
          case isTrue hlong =>
            rw [UINT16_MAX] at hlong ⊢
            rw [List.length_take]
            omega
          case isFalse => rfl
        have hpatch : patch old offset
            (if data.length ≥ UINT16_MAX then data.take UINT16_MAX else data) =
            patch old offset data := by
          split
          case isTrue => exact patch_take (by rw [UINT16_MAX]; omega)
          case isFalse => rfl
        rw [hpatch] at hview
        rw [hcount] at hwrite
        refine ⟨_, (s.1, h), hcall _ _ hwrite, hsound', ?_⟩
        rw [hview]
        exact FsStep.written offset data hon.shown hmode
          ((pathWritable_onVolume hon.volume).trans hw) (hfile.trans hold)

/-! ### Creating, resizing and deleting -/

omit hs in
theorem opened_iff {path : CStr} (hvolume : (fileVolume t₀.devices path).isSome)
    (hreserved : ∀ fd ∈ reserved, ∃ e, t₀.fdt fd = some e ∧ fileVolume t₀.devices e.path = none) :
    kernelFsFileIsOpen s.1 path = true ↔ (kernelView reserved image s).Opened path := by
  rw [kernelFsFileIsOpen, List.any_eq_true]
  constructor
  · rintro ⟨fd, _, hopen⟩
    rw [Bool.and_eq_true, bne_iff_ne, Option.any_eq_true] at hopen
    obtain ⟨hfd, e, he, hpath⟩ := hopen
    rw [beq_iff_eq] at hpath
    refine ⟨fd, openFileOf e, hfd, ?_, hpath⟩
    have hfree : fd ∉ reserved := by
      intro hres
      obtain ⟨e', he', hnone⟩ := hreserved fd hres
      rw [hsound.fixed.reserved fd hres, he', Option.some.injEq] at he
      rw [← hpath, ← he, hnone] at hvolume
      cases hvolume
    rw [view_fd hfree, he]
    rfl
  · rintro ⟨fd, e, hfd, he, hpath⟩
    have hfree : fd ∉ reserved := by
      intro hres
      rw [kernelView] at he
      dsimp only at he
      rw [if_pos hres] at he
      cases he
    rw [view_fd hfree, Option.map_eq_some_iff] at he
    obtain ⟨e', he', hshown⟩ := he
    refine ⟨fd, List.mem_range.mpr (hsound.entries fd e' hfree he').slot, ?_⟩
    rw [he', Option.any_some, Bool.and_eq_true, bne_iff_ne, beq_iff_eq]
    refine ⟨hfd, ?_⟩
    rw [← hpath, ← hshown]
    rfl

theorem isOpen_iff {path : CStr} (hvolume : (fileVolume t₀.devices path).isSome) :
    kernelFsFileIsOpen s.1 path = true ↔ (kernelView reserved image s).Opened path :=
  opened_iff hsound hvolume (fun fd hfd => (hs.reserved fd hfd).2.2)

theorem createWithSize_isStep {path : CStr} {size : ℕ}
    (hvolume : (fileVolume t₀.devices path).isSome)
    (hsize : neededLength (baseName path) size ≤ 255*MINIFSFACTOR) :
    IsStep p t₀ reserved image s (.createWithSize path size) := by
  obtain ⟨⟨i, n⟩, hplace⟩ := Option.isSome_iff_exists.mp hvolume
  obtain ⟨d, hon⟩ := fileVolume_some hplace
  have hsmall : u16 size = size := by
    rw [neededLength, MINIFSFACTOR] at hsize
    exact u16_of_lt (by omega)
  have hfirst : (getFirst : KernelRun σ Tables) s = .ok (s.1, s) := rfl
  have hcreate : kernelFsFileCreateWithSize p path size s =
      (if d.writable then access p (fun f _ =>
        (miniFsFileCreate ⟨true⟩ (baseName path) size).run (kernelFsDeviceMiniFs f d))
      else pure false) s := by
    rw [kernelFsFileCreateWithSize, bind_of_ok hfirst, hon.split]
    dsimp only
    rw [hsound.fixed.devices, hon.bind]
    dsimp only
    rw [hon.volume.type, hsmall]
  have hrefused : kernelFsFileCreateWithSize p path size s = .ok (false, s) →
      IsStep p t₀ reserved image s (.createWithSize path size) :=
    fun hrun => ⟨.answer false, s, run_reply .answer hrun, hsound, FsStep.createRefused _ _ _⟩
  cases hw : d.writable with
  | false =>
    rw [hw, if_neg (by decide)] at hcreate
    exact hrefused hcreate
  | true =>
    rw [hw, if_pos rfl] at hcreate
    obtain ⟨r, h, v, map', hrun, hfile, hstep, hchanged⟩ := changed_volume hs hsound hon hw
      (.create (baseName path) size) hsize
    obtain ⟨b, hflag, hr⟩ := run_flag hrun
    rw [access_of (fun f _ => (miniFsFileCreate ⟨true⟩ (baseName path) size).run
      (kernelFsDeviceMiniFs f d)) hflag] at hcreate
    rcases step_create hstep with ⟨hzero, hmap⟩ | ⟨new, hfresh, hlen, hone, hmap⟩
    · obtain ⟨hsound', hview⟩ := hchanged (v.fileMap (baseName path))
        (hmap.trans (fileMap_set_same rfl).symm)
      rw [setFile_same hfile] at hview
      rw [Bool.toNat_eq_zero.mp (hr.symm.trans hzero)] at hcreate
      refine ⟨.answer false, _, run_reply .answer hcreate, hsound', ?_⟩
      rw [hview]
      exact FsStep.createRefused _ _ _
    · obtain ⟨hsound', hview⟩ := hchanged (some new) hmap
      rw [Bool.toNat_eq_one.mp (hr.symm.trans hone)] at hcreate
      refine ⟨.answer true, _, run_reply .answer hcreate, hsound', ?_⟩
      rw [hview, ← hlen]
      exact FsStep.created ((pathWritable_onVolume hon).trans hw) (hfile.trans hfresh)

theorem resize_isStep {path : CStr} {newSize : ℕ} (hvolume : (fileVolume t₀.devices path).isSome)
    (hsize : neededLength (baseName path) newSize ≤ 255*MINIFSFACTOR) :
    IsStep p t₀ reserved image s (.resize path newSize) := by
  obtain ⟨⟨i, n⟩, hplace⟩ := Option.isSome_iff_exists.mp hvolume
  obtain ⟨d, hon⟩ := fileVolume_some hplace
  have hsmall : ¬ newSize ≥ UINT16_MAX := by
    rw [neededLength, MINIFSFACTOR] at hsize
    rw [UINT16_MAX]
    omega
  have hfirst : (getFirst : KernelRun σ Tables) s = .ok (s.1, s) := rfl
  have hresize : kernelFsFileResize p path newSize s =
      (if kernelFsFileIsOpen s.1 path then pure false
      else access p (fun f _ => (miniFsFileResize ⟨d.writable⟩ (baseName path) newSize).run
        (kernelFsDeviceMiniFs f d)) : KernelRun σ Bool) s := by
    rw [kernelFsFileResize, bind_of_ok hfirst, if_neg (by rw [hon.valid]; decide), hon.split]
    dsimp only
    rw [hsound.fixed.devices, hon.file, if_neg (by decide : ¬ (none : Option ℕ).isSome = true),
      hon.bind]
    dsimp only
    rw [hon.volume.type]
    dsimp only
    rw [if_neg hsmall]
  have hrefused : kernelFsFileResize p path newSize s = .ok (false, s) →
      IsStep p t₀ reserved image s (.resize path newSize) :=
    fun hrun => ⟨.answer false, s, run_reply .answer hrun, hsound, FsStep.resizeRefused _ _ _⟩
  by_cases hopen : kernelFsFileIsOpen s.1 path = true
  · rw [if_pos hopen] at hresize
    exact hrefused hresize
  rw [if_neg hopen] at hresize
  cases hw : d.writable with
  | false =>
    rw [hw] at hresize
    exact hrefused hresize
  | true =>
    rw [hw] at hresize
    obtain ⟨r, h, v, map', hrun, hfile, hstep, hchanged⟩ := changed_volume hs hsound hon hw
      (.resize (baseName path) newSize) hsize
    obtain ⟨b, hflag, hr⟩ := run_flag hrun
    rw [access_of (fun f _ => (miniFsFileResize ⟨true⟩ (baseName path) newSize).run
      (kernelFsDeviceMiniFs f d)) hflag] at hresize
    rcases step_resize hstep with ⟨hzero, hmap⟩ | ⟨old, new, hold, hnew, hone, hmap⟩
    · obtain ⟨hsound', hview⟩ := hchanged (v.fileMap (baseName path))
        (hmap.trans (fileMap_set_same rfl).symm)
      rw [setFile_same hfile] at hview
      rw [Bool.toNat_eq_zero.mp (hr.symm.trans hzero)] at hresize
      refine ⟨.answer false, _, run_reply .answer hresize, hsound', ?_⟩
      rw [hview]
      exact FsStep.resizeRefused _ _ _
    · obtain ⟨hsound', hview⟩ := hchanged (some new) hmap
      rw [Bool.toNat_eq_one.mp (hr.symm.trans hone)] at hresize
      refine ⟨.answer true, _, run_reply .answer hresize, hsound', ?_⟩
      rw [hview]
      exact FsStep.resized ((pathWritable_onVolume hon).trans hw)
        (fun h => hopen ((isOpen_iff hs hsound hvolume).mpr h)) (hfile.trans hold) hnew

theorem delete_isStep {path : CStr} (hvolume : (fileVolume t₀.devices path).isSome) :
    IsStep p t₀ reserved image s (.delete path) := by
  obtain ⟨⟨i, n⟩, hplace⟩ := Option.isSome_iff_exists.mp hvolume
  obtain ⟨d, hon⟩ := fileVolume_some hplace
  have hfirst : (getFirst : KernelRun σ Tables) s = .ok (s.1, s) := rfl
  have hdelete : kernelFsFileDelete p path s =
      (if kernelFsFileIsOpen s.1 path then pure false
      else access p (fun f _ => (miniFsFileDelete ⟨d.writable⟩ (baseName path)).run
        (kernelFsDeviceMiniFs f d)) : KernelRun σ Bool) s := by
    rw [kernelFsFileDelete, bind_of_ok hfirst, hsound.fixed.devices, hon.file, hon.split]
    dsimp only
    rw [hon.bind]
    dsimp only
    rw [hon.volume.type]
  have hrefused : kernelFsFileDelete p path s = .ok (false, s) →
      (pathWritable t₀.devices path = false ∨ (kernelView reserved image s).Opened path ∨
        (kernelView reserved image s).file path = none) →
      IsStep p t₀ reserved image s (.delete path) :=
    fun hrun hno => ⟨.answer false, s, run_reply .answer hrun, hsound, FsStep.deleteRefused hno⟩
  by_cases hopen : kernelFsFileIsOpen s.1 path = true
  · rw [if_pos hopen] at hdelete
    exact hrefused hdelete (Or.inr (Or.inl ((isOpen_iff hs hsound hvolume).mp hopen)))
  rw [if_neg hopen] at hdelete
  cases hw : d.writable with
  | false =>
    rw [hw] at hdelete
    exact hrefused hdelete (Or.inl ((pathWritable_onVolume hon).trans hw))
  | true =>
    rw [hw] at hdelete
    obtain ⟨r, h, v, map', hrun, hfile, hstep, hchanged⟩ := changed_volume hs hsound hon hw
      (.delete (baseName path)) trivial
    obtain ⟨b, hflag, hr⟩ := run_flag hrun
    rw [access_of (fun f _ => (miniFsFileDelete ⟨true⟩ (baseName path)).run
      (kernelFsDeviceMiniFs f d)) hflag] at hdelete
    rcases step_delete hstep with ⟨habsent, hzero, hmap⟩ | ⟨old, hold, hone, hmap⟩
    · obtain ⟨hsound', hview⟩ := hchanged (v.fileMap (baseName path))
        (hmap.trans (fileMap_set_same rfl).symm)
      rw [setFile_same hfile] at hview
      rw [Bool.toNat_eq_zero.mp (hr.symm.trans hzero)] at hdelete
      refine ⟨.answer false, _, run_reply .answer hdelete, hsound', ?_⟩
      rw [hview]
      exact FsStep.deleteRefused (Or.inr (Or.inr (hfile.trans habsent)))
    · obtain ⟨hsound', hview⟩ := hchanged none hmap
      rw [Bool.toNat_eq_one.mp (hr.symm.trans hone)] at hdelete
      refine ⟨.answer true, _, run_reply .answer hdelete, hsound', ?_⟩
      rw [hview]
      exact FsStep.deleted ((pathWritable_onVolume hon).trans hw)
        (fun h => hopen ((isOpen_iff hs hsound hvolume).mpr h)) (hfile.trans hold)

end Calls

end ArduinoOS.Procman
