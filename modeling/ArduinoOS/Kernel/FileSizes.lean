import ArduinoOS.Kernel.Open
import ArduinoOS.Minifs.Sizes

/-!
# Sizes requested of the kernel

Creating and resizing a file of a mounted volume. The size has 32 bits: a
create cuts it to the 16 bits of the volume, a resize refuses what does not fit.
-/

set_option autoImplicit false

namespace ArduinoOS.Kernel
open ArduinoOS.ByteProgram ArduinoOS.Faulting ArduinoOS.Minifs

variable {σ : Type} (p : Platform σ)

/-- The path is that of a file of a volume, on a device that honours accesses
where the volume may be written. -/
structure VolumePath (t : Tables) (path : CStr) (d : KernelFsDevice) (size : ℕ)
    (view : σ → Image) : Prop where
  valid : kernelFsPathIsValid path = true
  parent : (kernelFsGetDeviceFromPath t.devices (dirName path)).bind t.devices = some d
  miniFs : ∃ n, d.type = .block n .customMiniFs
  lawful : d.writable = true → Lawful (kernelFsDeviceMiniFs (p.functors t) d) size view

/-- The request settles and the tables stay as they are. -/
def KernelSettles (t : Tables) (d : KernelFsDevice) (size : ℕ) (view : σ → Image) (s : σ)
    (path : CStr) (requested : ℕ) (out : Except Fault (Bool × Tables × σ)) : Prop :=
  ∃ out₁, out = out₁.map (fun r => (r.1, (t, r.2))) ∧
    Settles (kernelFsDeviceMiniFs (p.functors t) d) size view s (baseName path) requested out₁

variable {p} {t : Tables} {path : CStr} {d : KernelFsDevice} {size : ℕ} {view : σ → Image}
  {s : σ}

theorem kernelSettles_map {requested : ℕ} {out₁ : Except Fault (Bool × σ)} :
    KernelSettles p t d size view s path requested (out₁.map (fun r => (r.1, (t, r.2)))) ↔
      Settles (kernelFsDeviceMiniFs (p.functors t) d) size view s (baseName path) requested
        out₁ := by
  refine ⟨?_, fun h => ⟨out₁, rfl, h⟩⟩
  rintro ⟨out₂, hout, h⟩
  have heq : out₁ = out₂ := by
    cases out₁ with
    | error e =>
      cases out₂ with
      | error e' => exact congrArg Except.error (Except.error.inj hout)
      | ok r' => cases hout
    | ok r =>
      cases out₂ with
      | error e' => cases hout
      | ok r' =>
        have hr := Except.ok.inj hout
        simp only [Prod.mk.injEq, true_and] at hr
        rw [Prod.ext hr.1 hr.2]
  rwa [heq]

theorem kernelSettles_refused {requested : ℕ} :
    KernelSettles p t d size view s path requested (.ok (false, (t, s))) :=
  ⟨.ok (false, s), rfl, Or.inr ⟨s, rfl, fun _ _ => rfl⟩⟩

/-- The run of a program over the device of the path. -/
theorem access_run {α : Type} (x : Prog α) :
    (access p (fun f _ => x.run (kernelFsDeviceMiniFs f d))) (t, s) =
      (x.run (kernelFsDeviceMiniFs (p.functors t) d) s).map (fun r => (r.1, (t, r.2))) := by
  rw [access, onSecond]
  dsimp only
  cases x.run (kernelFsDeviceMiniFs (p.functors t) d) s with
  | ok r => rfl
  | error e => rfl

section Requests

variable (hp : VolumePath p t path d size view) {v : Volume} (h : Minifs.Holds size (view s) v)
include hp h

theorem kernelCreate_settles (requested : ℕ) :
    KernelSettles p t d size view s path requested
        (kernelFsFileCreateWithSize p path requested (t, s)) ↔
      neededLength (baseName path) requested ≤ 255*MINIFSFACTOR ∨
        CreateRefused ⟨d.writable⟩ v (baseName path) (u16 requested) := by
  obtain ⟨n, htype⟩ := hp.miniFs
  have hsplit : kernelFsPathSplit path = some (dirName path, baseName path) := if_pos hp.valid
  have hrun : kernelFsFileCreateWithSize p path requested (t, s) =
      (if d.writable then access p (fun f _ =>
        (miniFsFileCreate ⟨true⟩ (baseName path) (u16 requested)).run (kernelFsDeviceMiniFs f d))
      else pure false) (t, s) := by
    rw [kernelFsFileCreateWithSize, hsplit]
    dsimp only
    rw [bind_of_ok (show getFirst (t, s) = .ok (t, t, s) from rfl), hp.parent]
    dsimp only
    rw [htype]
  rw [hrun]
  cases hw : d.writable with
  | false => exact iff_of_true kernelSettles_refused (Or.inr (.readOnly rfl))
  | true =>
    rw [if_pos rfl, access_run, kernelSettles_map]
    exact create_settles (hp.lawful hw) h ⟨true⟩ (baseName path) requested

/-- What a resize refuses before it comes to the volume. -/
def KernelResizeRefused (t : Tables) (path : CStr) (newSize : ℕ) : Prop :=
  kernelFsFileIsOpen t path = true ∨ (kernelFsGetDeviceFromPath t.devices path).isSome = true ∨
    UINT16_MAX ≤ newSize

theorem kernelResize_settles (requested : ℕ) :
    KernelSettles p t d size view s path requested
        (kernelFsFileResize p path requested (t, s)) ↔
      neededLength (baseName path) requested ≤ 255*MINIFSFACTOR ∨
        KernelResizeRefused t path requested ∨
        ResizeRefused ⟨d.writable⟩ v (baseName path) requested := by
  obtain ⟨n, htype⟩ := hp.miniFs
  have hsplit : kernelFsPathSplit path = some (dirName path, baseName path) := if_pos hp.valid
  have hvalid : ¬ kernelFsPathIsValid path = false := by rw [hp.valid]; decide
  by_cases hopen : kernelFsFileIsOpen t path = true
  · have hrun : kernelFsFileResize p path requested (t, s) = .ok (false, (t, s)) := by
      change (if _ then _ else if _ then _ else _ : KernelRun σ Bool) (t, s) = _
      rw [if_neg hvalid, if_pos hopen]
      rfl
    rw [hrun]
    exact iff_of_true kernelSettles_refused (Or.inr (Or.inl (Or.inl hopen)))
  by_cases hdev : (kernelFsGetDeviceFromPath t.devices path).isSome = true
  · have hrun : kernelFsFileResize p path requested (t, s) = .ok (false, (t, s)) := by
      change (if _ then _ else if _ then _ else if _ then _ else _ : KernelRun σ Bool) (t, s) = _
      rw [if_neg hvalid, if_neg hopen, if_pos hdev]
      rfl
    rw [hrun]
    exact iff_of_true kernelSettles_refused (Or.inr (Or.inl (Or.inr (Or.inl hdev))))
  have hrun : kernelFsFileResize p path requested (t, s) =
      (if requested ≥ UINT16_MAX then pure false else access p (fun f _ =>
        (miniFsFileResize ⟨d.writable⟩ (baseName path) requested).run
          (kernelFsDeviceMiniFs f d))) (t, s) := by
    change (if _ then _ else if _ then _ else if _ then _ else _ : KernelRun σ Bool) (t, s) = _
    rw [if_neg hvalid, if_neg hopen, if_neg hdev, hsplit]
    dsimp only
    rw [hp.parent]
    dsimp only
    rw [htype]
  rw [hrun]
  by_cases hmax : requested ≥ UINT16_MAX
  · rw [if_pos hmax]
    exact iff_of_true kernelSettles_refused (Or.inr (Or.inl (Or.inr (Or.inr hmax))))
  rw [if_neg hmax, access_run, kernelSettles_map]
  have hlen : requested < 65536 := by
    rw [show UINT16_MAX = 65535 from rfl] at hmax
    omega
  have hnot : ¬ KernelResizeRefused t path requested := fun hr =>
    hr.elim hopen (fun hr => hr.elim hdev hmax)
  rw [or_iff_right (a := KernelResizeRefused t path requested) hnot]
  cases hw : d.writable with
  | true => exact resize_settles (hp.lawful hw) h ⟨true⟩ (baseName path) hlen
  | false =>
    have hrefused : (miniFsFileResize ⟨false⟩ (baseName path) requested).run
        (kernelFsDeviceMiniFs (p.functors t) d) s = .ok (false, s) := by
      rw [miniFsFileResize, if_pos (by rfl)]
      rfl
    rw [hrefused]
    exact iff_of_true (Or.inr ⟨s, rfl, fun _ _ => rfl⟩) (Or.inr (.readOnly rfl))

end Requests

/-- A create or a resize is granted or refused exactly when the fields, the name
and the contents fit in 255 blocks or it is refused. -/
theorem sizes_settled {σ : Type} (size : ℕ) (view : σ → Image) (s : σ) (v : Volume)
    (h : Minifs.Holds size (view s) v) :
    (∀ (ε : Type) (dev : Handler σ ε), Lawful dev size view → ∀ (fs : MiniFs) (filename : CStr)
        (requested : ℕ), requested < 65536 →
      (Settles dev size view s filename requested
          ((miniFsFileCreate fs filename requested).run dev s) ↔
        neededLength filename requested ≤ 255*MINIFSFACTOR ∨
          CreateRefused fs v filename requested) ∧
      (Settles dev size view s filename requested
          ((miniFsFileResize fs filename requested).run dev s) ↔
        neededLength filename requested ≤ 255*MINIFSFACTOR ∨
          ResizeRefused fs v filename requested)) ∧
    ∀ (p : Platform σ) (t : Tables) (path : CStr) (d : KernelFsDevice),
      VolumePath p t path d size view → ∀ requested : ℕ,
      (KernelSettles p t d size view s path requested
          (kernelFsFileCreateWithSize p path requested (t, s)) ↔
        neededLength (baseName path) requested ≤ 255*MINIFSFACTOR ∨
          CreateRefused ⟨d.writable⟩ v (baseName path) (u16 requested)) ∧
      (KernelSettles p t d size view s path requested
          (kernelFsFileResize p path requested (t, s)) ↔
        neededLength (baseName path) requested ≤ 255*MINIFSFACTOR ∨
          KernelResizeRefused t path requested ∨
          ResizeRefused ⟨d.writable⟩ v (baseName path) requested) := by
  constructor
  · intro ε dev hl fs filename requested hlen
    have hcreate := create_settles hl h fs filename requested
    rw [u16_of_lt hlen] at hcreate
    exact ⟨hcreate, resize_settles hl h fs filename hlen⟩
  · intro p t path d hp requested
    exact ⟨kernelCreate_settles hp h requested, kernelResize_settles hp h requested⟩

/-- A device of bytes without end. -/
def volumeDrivers : Drivers Image where
  commonFlush _ _ s := (true, s)
  characterRead _ _ s := (-1, s)
  characterCanRead _ _ s := (false, s)
  characterWrite _ _ _ s := (0, s)
  characterCanWrite _ _ s := (false, s)
  blockRead _ _ len addr s := ((slice s addr len, len), s)
  blockWrite _ _ data addr s := (data.length, overwrite s addr data)
  malloc _ s := (true, s)

def volumeDevice : KernelFsDevice := ⟨CStr.lit "/v", .driver 0, 0, .block 1024 .customMiniFs, true⟩

def volumeTables : Tables := ⟨fun _ => none, deviceTable [directoryDevice "/", volumeDevice], []⟩

def volumePlatform : Platform Image := ⟨volumeDrivers, noFat, 1⟩

theorem volumePath_image :
    VolumePath volumePlatform volumeTables (CStr.lit "/v/a") volumeDevice 1024 id := by
  refine ⟨by decide, by decide, ⟨1024, rfl⟩, fun _ => ⟨fun s addr len hin => ?_,
    fun s addr data hin => ?_⟩⟩
  · refine ⟨s, ?_, fun _ _ => rfl⟩
    change Except.ok ((slice s addr len, u16 len), s) = _
    rw [u16_of_lt (by omega)]
    rfl
  · refine ⟨overwrite s addr data, ?_, fun _ _ => rfl⟩
    change Except.ok (u16 data.length, overwrite s addr data) = _
    rw [u16_of_lt (by omega)]

/-- The header of a volume of eight blocks without files. -/
def emptyImage : Image := fun a => if a = 0 then 53 else if a = 1 then 7 else 0

def emptyVolume : Volume :=
  ⟨8, [], ⟨by decide, by decide, by simp, List.Pairwise.nil, by simp, by simp⟩⟩

theorem emptyImage_holds : Minifs.Holds 1024 emptyImage emptyVolume := by
  refine ⟨⟨⟨by decide, headerOf_length (by simp [emptyVolume]), fun i hi => ?_⟩, by decide,
    by decide, by decide, rfl, rfl⟩, by simp [emptyVolume]⟩
  rw [headerOf_end emptyVolume.files i (Nat.zero_le i), emptyImage, if_neg (by omega),
    if_neg (by omega)]
  rfl

theorem sizes_settled_image :
    Settles (imageDevice 1024) 1024 id emptyImage (CStr.lit "a") 100
        ((miniFsFileCreate ⟨true⟩ (CStr.lit "a") 100).run (imageDevice 1024) emptyImage) ∧
    KernelSettles volumePlatform volumeTables volumeDevice 1024 id emptyImage (CStr.lit "/v/a") 100
      (kernelFsFileCreateWithSize volumePlatform (CStr.lit "/v/a") 100
        (volumeTables, emptyImage)) := by
  constructor
  · exact (((sizes_settled 1024 id emptyImage emptyVolume emptyImage_holds).1 Unit
      (imageDevice 1024) (imageDevice_lawful 1024) ⟨true⟩ (CStr.lit "a") 100 (by decide)).1).mpr
      (Or.inl (by decide))
  · exact (((sizes_settled 1024 id emptyImage emptyVolume emptyImage_holds).2 volumePlatform
      volumeTables (CStr.lit "/v/a") volumeDevice volumePath_image 100).1).mpr
      (Or.inl (by decide))

/-- One block is free for a new file. -/
theorem emptyVolume_not_refused {filename : CStr} {contentSize : ℕ}
    (hname : u16 filename.length < MiniFsPathMax)
    (hblocks : createBlocks filename contentSize = 1) :
    ¬ CreateRefused ⟨true⟩ emptyVolume filename contentSize := by
  intro hr
  cases hr with
  | name h => omega
  | readOnly h => cases h
  | present f hf => cases hf
  | full h => cases h
  | noRegion _ h =>
    rw [hblocks] at h
    exact h 1 ⟨[], [], rfl, by decide, by decide, by simp, by simp⟩

/-- A file of 65535 bytes, and one of 65546 bytes requested of the kernel. -/
theorem sizes_not_settled :
    ¬ Settles (imageDevice 1024) 1024 id emptyImage (CStr.lit "a") 65535
        ((miniFsFileCreate ⟨true⟩ (CStr.lit "a") (u16 65535)).run (imageDevice 1024) emptyImage) ∧
    ¬ KernelSettles volumePlatform volumeTables volumeDevice 1024 id emptyImage (CStr.lit "/v/a")
        65546 (kernelFsFileCreateWithSize volumePlatform (CStr.lit "/v/a") 65546
          (volumeTables, emptyImage)) := by
  constructor
  · intro hs
    rcases (create_settles (s := emptyImage) (imageDevice_lawful 1024) emptyImage_holds ⟨true⟩
      (CStr.lit "a") 65535).mp hs with hbound | hr
    · exact absurd hbound (by decide)
    · exact emptyVolume_not_refused (by decide) (by decide) hr
  · intro hs
    rcases (kernelCreate_settles (s := emptyImage) volumePath_image emptyImage_holds 65546).mp hs
      with hbound | hr
    · exact absurd hbound (by decide)
    · exact emptyVolume_not_refused (by decide) (by decide) hr

end ArduinoOS.Kernel
