import ArduinoOS.Kernel.CircBuf
import ArduinoOS.Lib.Stream
import ArduinoOS.Minifs.Device

/-!
# Streams behind descriptors

What a read or a write through a descriptor does when it leads to a file of a
MiniFs volume, to a flat block device or to a circular buffer: each of them is a
stream.
-/

set_option autoImplicit false

namespace ArduinoOS.Kernel
open ArduinoOS.ByteProgram ArduinoOS.Faulting ArduinoOS.Minifs

variable {σ : Type}

/-- Reads and writes through the descriptor, where they are within bounds, go to
the stream that it carries. -/
structure StreamAt (f : Functors σ) (fat : FatFns) (t : Tables) (fd mode : ℕ)
    (carries : σ → Stream UInt8 → Prop) (within : ℕ → ℕ → Prop) : Prop where
  read : ∀ h st offset len, carries h st → mode &&& KernelFsFdModeRO ≠ 0 → within offset len →
    ∃ h', kernelFsFileReadOffset f fat t fd offset len h =
        .ok (((st.read offset len).1, (st.read offset len).1.length), h') ∧
      carries h' (st.read offset len).2
  write : ∀ h st offset data, carries h st → mode &&& KernelFsFdModeWO ≠ 0 →
    within offset data.length →
    ∃ h', kernelFsFileWriteOffset f t fd offset data h = .ok ((st.write offset data).1, h') ∧
      carries h' (st.write offset data).2

/-- The entry of an open descriptor, with the device it has cached. -/
structure Attached (t : Tables) (fd : ℕ) (e : KernelFsFdtEntry) (device : KernelFsDevice)
    (itself : Bool) : Prop where
  range : fd < KernelFsFdMax
  entry : t.fdt fd = some e
  device : t.devices e.deviceIndex = some device
  compared : fdIsDevice t e = itself
  lookup : (kernelFsGetDeviceFromPath t.devices e.path == some e.deviceIndex) = itself

section Devices

variable {f : Functors σ} {fat : FatFns} {t : Tables} {fd : ℕ} {e : KernelFsFdtEntry}
  {device : KernelFsDevice} {itself : Bool}

theorem attached_range (ha : Attached t fd e device itself) (h : σ) :
    (kAssert (fd < KernelFsFdMax) : Hw σ Unit) h = .ok ((), h) := by
  rw [kAssert, if_pos (by simpa using ha.range)]
  rfl

theorem attached_assert (ha : Attached t fd e device itself) (h : σ) :
    (assertFdDevice t e : Hw σ Unit) h = .ok ((), h) := by
  rw [assertFdDevice, cacheAssert, ha.lookup, ha.compared, beq_self_eq_true, if_pos rfl]
  rfl

/-! ### Flat block devices -/

/-- The bytes of the device are the content. -/
def CarriesFlat (size : ℕ) (view : σ → Image) (h : σ) (st : Stream UInt8) : Prop :=
  st = .content (slice (view h) 0 size)

theorem flat_streamAt (ha : Attached t fd e device true) {size devSize : ℕ} {view : σ → Image}
    (htype : device.type = .block devSize .flatFile) (hwritable : device.writable = true)
    (hl : Lawful (kernelFsFat f device) size view) :
    StreamAt f fat t fd (kernelFsFdPathSpareGetMode e.spare) (CarriesFlat size view)
      (fun offset len => offset+len ≤ size) where
  read h st offset len hst hmode hin := by
    obtain ⟨h', hrun, hkeep⟩ := hl.read h offset len hin
    have hsame : slice (view h') 0 size = slice (view h) 0 size :=
      slice_congr _ _ _ _ (fun a _ ha => hkeep a (by omega))
    have hgot : ((slice (view h) 0 size).drop offset).take len = slice (view h) offset len := by
      rw [slice_drop, slice_take, Nat.zero_add, Nat.min_eq_left (by omega)]
    rw [hst]
    refine ⟨h', ?_, ?_⟩
    · rw [kernelFsFileReadOffset, bind_of_ok (attached_range ha h), ha.entry]
      dsimp only
      rw [if_neg hmode, bind_of_ok (attached_assert ha h), ha.device]
      dsimp only
      rw [if_pos ha.compared, htype, Stream.read, hgot, slice_length]
      exact hrun
    · rw [CarriesFlat, hsame]
      rfl
  write h st offset data hst hmode hin := by
    obtain ⟨h', hrun, hkeep⟩ := hl.write h offset data hin
    have hnow : slice (view h') 0 size = slice (overwrite (view h) (0+offset) data) 0 size := by
      rw [Nat.zero_add]
      exact slice_congr _ _ _ _ (fun a _ ha => hkeep a (by omega))
    have hover : slice (view h') 0 size =
        Stream.overlay (slice (view h) 0 size) offset data := by
      rw [hnow, slice_overwrite_within _ _ _ _ _ hin, Stream.overlay, slice_length,
        List.take_of_length_le (show data.length ≤ size-offset by omega)]
    have hwrite : f.blockWrite device data offset h = .ok (data.length, h') := by
      have hassert : (kAssert device.writable : Hw σ Unit) h = .ok ((), h) := by
        rw [kAssert, if_pos hwritable]
        rfl
      change (kAssert device.writable >>= fun _ => f.blockWrite device data offset) h = _ at hrun
      rw [bind_of_ok hassert] at hrun
      exact hrun
    rw [hst]
    refine ⟨h', ?_, ?_⟩
    · rw [kernelFsFileWriteOffset, bind_of_ok (attached_range ha h), ha.entry]
      dsimp only
      rw [if_neg hmode, bind_of_ok (attached_assert ha h), ha.device]
      dsimp only
      rw [if_pos ha.compared, if_neg (by rw [hwritable]; decide), htype, Stream.write, slice_length,
        Nat.min_eq_left (by omega)]
      exact hwrite
    · rw [CarriesFlat, hover]
      rfl

/-! ### Files of MiniFs volumes -/

/-- The path leads from the volume to the file. -/
structure FileOnVolume (t : Tables) (e : KernelFsFdtEntry) (device : KernelFsDevice)
    (filename : CStr) : Prop where
  rest : kstrO e.path (kstrStrlen device.mountPoint+1) = filename
  split : ∃ dirname, kernelFsPathSplit e.path = some (dirname, filename) ∧
    (kernelFsGetDeviceFromPath t.devices dirname == some e.deviceIndex) = true

/-- The volume has the file with this content. -/
def CarriesFile (size : ℕ) (view : σ → Image) (filename : CStr) (h : σ) (st : Stream UInt8) :
    Prop :=
  ∃ v c, Minifs.Holds size (view h) v ∧ v.fileMap filename = some c ∧ st = .content c

theorem fileMap_split {v : Volume} {filename : CStr} {c : List UInt8}
    (h : v.fileMap filename = some c) : ∃ pre g post, v.files = pre++g::post ∧
      g.name = filename ∧ g.content = c := by
  rcases find_cases v filename with ha | ⟨pre, g, post, hs, hn⟩
  · rw [fileMap_none ha] at h
    cases h
  · have hc := fileMap_some (v := v) (f := g) (by simp [hs])
    rw [hn, h] at hc
    exact ⟨pre, g, post, hs, hn, (Option.some.inj hc).symm⟩

theorem file_streamAt (ha : Attached t fd e device false) {size devSize : ℕ} {view : σ → Image}
    {filename : CStr} (htype : device.type = .block devSize .customMiniFs)
    (hwritable : device.writable = true) (hpath : FileOnVolume t e device filename)
    (hl : Lawful (kernelFsDeviceMiniFs f device) size view) :
    StreamAt f fat t fd (kernelFsFdPathSpareGetMode e.spare) (CarriesFile size view filename)
      (fun _ _ => True) where
  read h st offset len hst hmode _ := by
    obtain ⟨v, c, hv, hmap, rfl⟩ := hst
    obtain ⟨pre, g, post, hs, hname, rfl⟩ := fileMap_split hmap
    have hshort := g.total_le
    have hmax : UINT16_MAX = 65535 := rfl
    have hstart : kernelFsFileReadOffset f fat t fd offset len h =
        (if offset ≥ UINT16_MAX then (pure ([], 0) : Hw σ (List UInt8 × ℕ)) else
          (miniFsFileRead filename offset (if len ≥ UINT16_MAX then UINT16_MAX else len)).run
            (kernelFsDeviceMiniFs f device)) h := by
      rw [kernelFsFileReadOffset, bind_of_ok (attached_range ha h), ha.entry]
      dsimp only
      rw [if_neg hmode, bind_of_ok (attached_assert ha h), ha.device]
      dsimp only
      rw [if_neg (by rw [ha.compared]; decide), htype, hpath.rest]
    rw [hstart, Stream.read]
    by_cases hfar : offset ≥ UINT16_MAX
    · have hnone : g.content.drop offset = [] := List.drop_of_length_le (by omega)
      rw [if_pos hfar, hnone, List.take_nil]
      exact ⟨h, rfl, v, _, hv, hmap, rfl⟩
    · obtain ⟨n, hn⟩ : ∃ n, (if len ≥ UINT16_MAX then UINT16_MAX else len) = n := ⟨_, rfl⟩
      have hsame : (g.content.drop offset).take n = (g.content.drop offset).take len := by
        have hlen : (g.content.drop offset).length ≤ 65535 := by
          rw [List.length_drop]
          omega
        rw [← hn]
        split
        case isTrue => rw [List.take_of_length_le (by omega), List.take_of_length_le (by omega)]
        case isFalse => rfl
      have hx := exec_fileRead_found hv pre post g hs offset n
      rw [hname, hsame] at hx
      obtain ⟨h', hrun, hview⟩ := run_of_exec hl hx
      rw [if_neg hfar, hn]
      exact ⟨h', hrun, v, _, holds_congr hv hview, hmap, rfl⟩
  write h st offset data hst hmode _ := by
    obtain ⟨v, c, hv, hmap, rfl⟩ := hst
    obtain ⟨pre, g, post, hs, hname, rfl⟩ := fileMap_split hmap
    obtain ⟨dirname, hsplit, hparent⟩ := hpath.split
    have hshort := g.total_le
    have hmax : UINT16_MAX = 65535 := rfl
    have hcache : (cacheAssert (kernelFsGetDeviceFromPath t.devices dirname ==
        some e.deviceIndex) : Hw σ Unit) h = .ok ((), h) := by
      rw [cacheAssert, hparent, if_pos rfl]
      rfl
    have hstart : kernelFsFileWriteOffset f t fd offset data h =
        (if offset ≥ UINT16_MAX then (pure 0 : Hw σ ℕ) else
          (miniFsFileWrite ⟨true⟩ filename offset
            (if data.length ≥ UINT16_MAX then data.take UINT16_MAX else data)).run
              (kernelFsDeviceMiniFs f device)) h := by
      rw [kernelFsFileWriteOffset, bind_of_ok (attached_range ha h), ha.entry]
      dsimp only
      rw [if_neg hmode, bind_of_ok (attached_assert ha h), ha.device]
      dsimp only
      rw [if_neg (by rw [ha.compared]; decide), hsplit]
      dsimp only
      rw [bind_of_ok hcache, if_neg (by rw [hwritable]; decide), htype]
    rw [hstart, Stream.write]
    by_cases hfar : offset ≥ UINT16_MAX
    · have hnone : Stream.overlay g.content offset data = g.content :=
        patch_beyond g.content offset data (by omega)
      rw [if_pos hfar, hnone, show g.content.length-offset = 0 by omega, Nat.min_zero]
      exact ⟨h, rfl, v, _, hv, hmap, rfl⟩
    · obtain ⟨x, hx⟩ : ∃ x, (if data.length ≥ UINT16_MAX then data.take UINT16_MAX else data) = x :=
        ⟨_, rfl⟩
      have hcut : x.take (g.content.length-offset) = data.take (g.content.length-offset) ∧
          min x.length (g.content.length-offset) = min data.length (g.content.length-offset) := by
        rw [← hx]
        split
        case isTrue hlong =>
          rw [List.take_take, List.length_take, Nat.min_eq_left (by omega)]
          exact ⟨rfl, by omega⟩
        case isFalse => exact ⟨rfl, rfl⟩
      obtain ⟨m', v', hexec, hv', hreplaced⟩ :=
        exec_fileWrite_found hv (show (MiniFs.mk true).writable = true from rfl) pre post g hs offset x
      rw [hname, hcut.2] at hexec
      obtain ⟨h', hrun, hview⟩ := run_of_exec hl hexec
      rw [if_neg hfar, hx]
      refine ⟨h', hrun, v', _, holds_congr hv' hview, ?_, rfl⟩
      rw [hname] at hreplaced
      obtain ⟨old, new, hold, hnew, hmap'⟩ := fileMap_replaced hreplaced
      rw [hmap] at hold
      rw [hmap', FileMap.set, if_pos rfl, hnew, ← Option.some.inj hold, patch, hcut.1,
        Stream.overlay]

/-! ### Circular buffers -/

/-- The bytes that wait in the buffer are the queue. -/
def CarriesQueue (size w n : ℕ) (view : σ → Image) (h : σ) (st : Stream UInt8) : Prop :=
  ∃ m q, Holds view size h m ∧ Buffer w n m q ∧ st = .queue q (n-1)

section Queue

variable {inner : Functors σ} {under size w n : ℕ} {view : σ → Image}
  (hb : BackingFile inner fat t under size view) (hs : BufferShape size w n)
  (hmount : CircBufMount t under) (hunder : device.userData = under)
  (hreach : Reaches f inner fat t device) (hn : n ≤ KernelFsFileOffsetMax)

include hb hs hmount hunder hreach hn

/-- Characters are read as long as some wait. -/
theorem readCharacters_queue (len : ℕ) {h : σ} {m : Image} {q : List UInt8}
    (hm : Holds view size h m) (hq : Buffer w n m q) :
    ∃ h' m', readCharacters f device len h = .ok (q.take len, h') ∧ Holds view size h' m' ∧
      Buffer w n m' (q.drop len) := by
  induction len generalizing h m q with
  | zero => exact ⟨h, m, rfl, hm, hq⟩
  | succ len ih =>
    obtain ⟨h₁, m₁, hcan, hm₁, hq₁⟩ :=
      op_fifo hb hs hmount hunder hreach hn hm hq .canRead
    obtain ⟨b, h₁', hrun₁, hreply₁⟩ := bind_ok.mp hcan
    obtain ⟨hb₁, rfl⟩ := pure_ok.mp hreply₁
    rw [CircBufOp.fifo, CircBufReply.possible.injEq] at hb₁
    rw [readCharacters, bind_of_ok hrun₁, ← hb₁]
    cases q with
    | nil => exact ⟨h₁, m₁, rfl, hm₁, hq₁⟩
    | cons c q =>
      obtain ⟨h₂, m₂, hread, hm₂, hq₂⟩ :=
        op_fifo hb hs hmount hunder hreach hn hm₁ hq₁ .read
      obtain ⟨x, h₂', hrun₂, hreply₂⟩ := bind_ok.mp hread
      obtain ⟨hx, rfl⟩ := pure_ok.mp hreply₂
      simp only [CircBufOp.fifo, CircBufReply.byte.injEq] at hx
      obtain ⟨h₃, m₃, hrest, hm₃, hq₃⟩ := ih hm₂ hq₂
      refine ⟨h₃, m₃, ?_, hm₃, hq₃⟩
      have hlt := c.toNat_lt
      rw [if_neg (by simp), bind_of_ok hrun₂, ← hx, if_neg (by omega), bind_of_ok hrest]
      simp
      rfl

theorem queue_streamAt (ha : Attached t fd e device true) {many : Bool}
    (htype : device.type = .character many) (hwritable : device.writable = true) :
    StreamAt f fat t fd (kernelFsFdPathSpareGetMode e.spare) (CarriesQueue size w n view)
      (fun _ _ => True) where
  read h st offset len hst hmode _ := by
    obtain ⟨m, q, hm, hq, rfl⟩ := hst
    obtain ⟨h', m', hrun, hm', hq'⟩ :=
      readCharacters_queue hb hs hmount hunder hreach hn len hm hq
    refine ⟨h', ?_, m', _, hm', hq', rfl⟩
    rw [kernelFsFileReadOffset, bind_of_ok (attached_range ha h), ha.entry]
    dsimp only
    rw [if_neg hmode, bind_of_ok (attached_assert ha h), ha.device]
    dsimp only
    rw [if_pos ha.compared, htype]
    dsimp only
    rw [bind_of_ok hrun]
    rfl
  write h st offset data hst hmode _ := by
    obtain ⟨m, q, hm, hq, rfl⟩ := hst
    obtain ⟨h₁, m₁, hcan, hm₁, hq₁⟩ :=
      op_fifo hb hs hmount hunder hreach hn hm hq .canWrite
    obtain ⟨b, h₁', hrun₁, hreply₁⟩ := bind_ok.mp hcan
    obtain ⟨hb₁, rfl⟩ := pure_ok.mp hreply₁
    rw [CircBufOp.fifo, CircBufReply.possible.injEq] at hb₁
    have hstart : kernelFsFileWriteOffset f t fd offset data h =
        (if b = false then (pure 0 : Hw σ ℕ) else f.characterWrite device data) h₁ := by
      rw [kernelFsFileWriteOffset, bind_of_ok (attached_range ha h), ha.entry]
      dsimp only
      rw [if_neg hmode, bind_of_ok (attached_assert ha h), ha.device]
      dsimp only
      rw [if_pos ha.compared, if_neg (by rw [hwritable]; decide), htype]
      dsimp only
      rw [bind_of_ok hrun₁]
    rw [hstart, Stream.write]
    by_cases hroom : q.length < n-1
    · obtain ⟨h₂, m₂, hwrite, hm₂, hq₂⟩ :=
        op_fifo hb hs hmount hunder hreach hn hm₁ hq₁ (.write data)
      obtain ⟨k, h₂', hrun₂, hreply₂⟩ := bind_ok.mp hwrite
      obtain ⟨hk, rfl⟩ := pure_ok.mp hreply₂
      simp only [CircBufOp.fifo, CircBufReply.accepted.injEq] at hk
      rw [← hb₁, decide_eq_true hroom, if_neg (by decide), hrun₂, ← hk]
      exact ⟨h₂, rfl, m₂, _, hm₂, hq₂, rfl⟩
    · have hfull : n-1-q.length = 0 := by omega
      rw [← hb₁, decide_eq_false hroom, if_pos rfl, hfull, Nat.min_zero, List.take_zero,
        List.append_nil]
      exact ⟨h₁, rfl, m₁, _, hm₁, hq₁, rfl⟩

end Queue

end Devices

end ArduinoOS.Kernel
