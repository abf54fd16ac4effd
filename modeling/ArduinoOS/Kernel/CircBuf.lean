import ArduinoOS.Kernel.Mounting
import ArduinoOS.Lib.Ring

/-!
# Circular buffers

The backing file of a circular buffer holds the head and tail offsets and
behind them a ring of bytes. Over a file that honours every access within its
length, the character functors are a bounded queue, as long as no offset is the
value that stands for a failed read.
-/

set_option autoImplicit false

namespace ArduinoOS.Kernel
open ArduinoOS.ByteProgram ArduinoOS.Faulting ArduinoOS.Minifs

variable {σ : Type}

/-! ### The backing file -/

/-- A file as a device: reads and writes through its descriptor. -/
def fdFile (f : Functors σ) (fat : FatFns) (t : Tables) (fd : ℕ) : Handler σ Fault where
  abort := .assertFailed
  read addr len := kernelFsFileReadOffset f fat t fd addr len
  write addr data := kernelFsFileWriteOffset f t fd addr data

/-- The file behind `fd` has `size` bytes, seen through `view`, and reads and
writes within them succeed. -/
structure BackingFile (f : Functors σ) (fat : FatFns) (t : Tables) (fd size : ℕ)
    (view : σ → Image) : Prop where
  lawful : Lawful (fdFile f fat t fd) size view
  getLen : ∀ h, ∃ h', kernelMountCircBufGetBackingSize f t fd h = .ok (size, h') ∧
    ∀ a < size, view h' a = view h a

/-- The bytes of the file are those of the image. -/
def Holds (view : σ → Image) (size : ℕ) (h : σ) (m : Image) : Prop := ∀ a < size, view h a = m a

/-- The number stored in `w` bytes, most significant first. -/
def stored (m : Image) (addr w : ℕ) : ℕ :=
  (slice m addr w).foldl (fun n b => n*256+b.toNat) 0

def offsetBytes (w n : ℕ) : List UInt8 :=
  if w = 1 then [UInt8.ofNat n]
  else if w = 2 then [UInt8.ofNat (n/256), UInt8.ofNat (n%256)]
  else [UInt8.ofNat (n/16777216), UInt8.ofNat (n/65536%256), UInt8.ofNat (n/256%256),
    UInt8.ofNat (n%256)]

/-- The three widths of an offset. -/
def OffsetWidth (w : ℕ) : Prop := w = 1 ∨ w = 2 ∨ w = 4

theorem offsetBytes_length {w : ℕ} (hw : OffsetWidth w) (n : ℕ) : (offsetBytes w n).length = w := by
  rcases hw with rfl | rfl | rfl <;> rfl

theorem stored_offsetBytes {w n : ℕ} (hw : OffsetWidth w) (hn : n < 256^w) (m : Image)
    (addr : ℕ) : stored (overwrite m addr (offsetBytes w n)) addr w = n := by
  have hslice := slice_overwrite m addr (offsetBytes w n)
  rw [offsetBytes_length hw] at hslice
  rw [stored, hslice]
  rcases hw with rfl | rfl | rfl
  · simp [offsetBytes]
    omega
  · simp [offsetBytes]
    omega
  · simp [offsetBytes]
    omega

theorem stored_congr {m m' : Image} {addr w : ℕ} (h : ∀ a, addr ≤ a → a < addr+w → m' a = m a) :
    stored m' addr w = stored m addr w := by
  rw [stored, stored, slice_congr m' m addr w h]

section File

variable {f : Functors σ} {fat : FatFns} {t : Tables} {fd size : ℕ} {view : σ → Image}
  (hb : BackingFile f fat t fd size view)

include hb

theorem read_holds {h : σ} {m : Image} (hm : Holds view size h m) {addr len : ℕ}
    (hin : addr+len ≤ size) : ∃ h', kernelFsFileReadOffset f fat t fd addr len h =
      .ok ((slice m addr len, len), h') ∧ Holds view size h' m := by
  obtain ⟨h', hrun, hkeep⟩ := hb.lawful.read h addr len hin
  have he : slice (view h) addr len = slice m addr len :=
    slice_congr _ _ _ _ (fun a _ ha => hm a (by omega))
  rw [he] at hrun
  exact ⟨h', hrun, fun a ha => (hkeep a ha).trans (hm a ha)⟩

theorem write_holds {h : σ} {m : Image} (hm : Holds view size h m) {addr : ℕ}
    {data : List UInt8} (hin : addr+data.length ≤ size) :
    ∃ h', kernelFsFileWriteOffset f t fd addr data h = .ok (data.length, h') ∧
      Holds view size h' (overwrite m addr data) := by
  obtain ⟨h', hrun, hkeep⟩ := hb.lawful.write h addr data hin
  refine ⟨h', hrun, ?_⟩
  intro a ha
  rw [hkeep a ha, overwrite, overwrite, hm a ha]

theorem backingSize_holds {h : σ} {m : Image} (hm : Holds view size h m) :
    ∃ h', kernelMountCircBufGetBackingSize f t fd h = .ok (size, h') ∧
      Holds view size h' m := by
  obtain ⟨h', hrun, hkeep⟩ := hb.getLen h
  exact ⟨h', hrun, fun a ha => (hkeep a ha).trans (hm a ha)⟩

theorem offsetSize_holds {h : σ} {m : Image} (hm : Holds view size h m) :
    ∃ h', kernelMountCircBufGetOffsetSize f t fd h = .ok (circBufOffsetSize size, h') ∧
      Holds view size h' m := by
  obtain ⟨h', hrun, hm'⟩ := backingSize_holds hb hm
  exact ⟨h', by rw [kernelMountCircBufGetOffsetSize, bind_of_ok hrun]; rfl, hm'⟩

theorem getOffset_holds {h : σ} {m : Image} (hm : Holds view size h m) {w addr : ℕ}
    (hw : OffsetWidth w) (hin : addr+w ≤ size) :
    ∃ h', kernelMountCircBufGetOffset f fat t fd w addr h = .ok (stored m addr w, h') ∧
      Holds view size h' m := by
  obtain ⟨h', hrun, hm'⟩ := read_holds hb hm hin
  refine ⟨h', ?_, hm'⟩
  rw [kernelMountCircBufGetOffset]
  rcases hw with rfl | rfl | rfl
  · have hbyte : kernelFsFileReadByte f fat t fd addr h = .ok (some (stored m addr 1), h') := by
      rw [kernelFsFileReadByte, bind_of_ok hrun, if_pos rfl]
      simp [stored, slice]
      rfl
    rw [if_pos rfl, bind_of_ok hbyte]
    dsimp only [Option.getD_some]
    rfl
  · have hword : kernelFsFileReadWord f fat t fd addr h = .ok (some (stored m addr 2), h') := by
      rw [kernelFsFileReadWord, bind_of_ok hrun, if_pos rfl]
      simp [stored, slice, List.range_succ]
      rfl
    rw [if_neg (by decide), if_pos rfl, bind_of_ok hword]
    dsimp only [Option.getD_some]
    rfl
  · have hdouble : kernelFsFileReadDoubleWord f fat t fd addr h =
        .ok (some (stored m addr 4), h') := by
      rw [kernelFsFileReadDoubleWord, bind_of_ok hrun, if_pos rfl]
      simp [stored, slice, List.range_succ]
      rfl
    rw [if_neg (by decide), if_neg (by decide), bind_of_ok hdouble]
    dsimp only [Option.getD_some]
    rfl

theorem setOffset_holds {h : σ} {m : Image} (hm : Holds view size h m) {w addr : ℕ} (n : ℕ)
    (hw : OffsetWidth w) (hin : addr+w ≤ size) :
    ∃ h', kernelMountCircBufSetOffset f t fd w addr n h = .ok (true, h') ∧
      Holds view size h' (overwrite m addr (offsetBytes w n)) := by
  have hin' : addr+(offsetBytes w n).length ≤ size := by rwa [offsetBytes_length hw]
  obtain ⟨h', hrun, hm'⟩ := write_holds hb hm hin'
  refine ⟨h', ?_, hm'⟩
  rw [offsetBytes_length hw] at hrun
  rw [kernelMountCircBufSetOffset]
  rcases hw with rfl | rfl | rfl
  · rw [if_pos rfl, kernelFsFileWriteByte]
    exact bind_of_ok hrun
  · rw [if_neg (by decide), if_pos rfl, kernelFsFileWriteWord]
    exact bind_of_ok hrun
  · rw [if_neg (by decide), if_neg (by decide), kernelFsFileWriteDoubleWord]
    exact bind_of_ok hrun

/-! ### Head and tail -/

/-- The parts of a file of `size` bytes: two offsets of width `w`, then `n` cells. -/
structure BufferShape (size w n : ℕ) : Prop where
  width : OffsetWidth w
  offsetSize : circBufOffsetSize size = w
  bufferSize : circBufBufferSize size = n
  parts : 2*w+n = size
  cells : 2 ≤ n
  fits : n ≤ 256^w
  size : size < 4294967296

omit hb in
theorem bufferShape {size : ℕ} (hmin : 4 ≤ size) (hmax : size < 4294967296) :
    BufferShape size (circBufOffsetSize size) (circBufBufferSize size) := by
  by_cases h₁ : size < 2^8
  · have hw : circBufOffsetSize size = 1 := if_pos h₁
    have hn : circBufBufferSize size = size-2 := by
      rw [circBufBufferSize, if_pos h₁, u32]
      omega
    rw [hw, hn]
    exact ⟨Or.inl rfl, hw, hn, by omega, by omega, by omega, hmax⟩
  by_cases h₂ : size < 2^16
  · have hw : circBufOffsetSize size = 2 := by
      rw [circBufOffsetSize, if_neg h₁, if_pos h₂]
    have hn : circBufBufferSize size = size-4 := by
      rw [circBufBufferSize, if_neg h₁, if_pos h₂, u32]
      omega
    rw [hw, hn]
    exact ⟨Or.inr (Or.inl rfl), hw, hn, by omega, by omega, by omega, hmax⟩
  · have hw : circBufOffsetSize size = 4 := by
      rw [circBufOffsetSize, if_neg h₁, if_neg h₂]
    have hn : circBufBufferSize size = size-8 := by
      rw [circBufBufferSize, if_neg h₁, if_neg h₂, u32]
      omega
    rw [hw, hn]
    exact ⟨Or.inr (Or.inr rfl), hw, hn, by omega, by omega, by omega, hmax⟩

variable {w n : ℕ} (hs : BufferShape size w n)

include hs

theorem head_holds {h : σ} {m : Image} (hm : Holds view size h m) :
    ∃ h', kernelMountCircBufGetHeadOffset f fat t fd h = .ok (stored m 0 w, h') ∧
      Holds view size h' m := by
  obtain ⟨h₁, hrun₁, hm₁⟩ := offsetSize_holds hb hm
  rw [hs.offsetSize] at hrun₁
  obtain ⟨h₂, hrun₂, hm₂⟩ := @getOffset_holds _ _ _ _ _ _ _ hb _ _ hm₁ w 0 hs.width
    (by have := hs.parts; omega)
  exact ⟨h₂, by rw [kernelMountCircBufGetHeadOffset, bind_of_ok hrun₁, hrun₂], hm₂⟩

theorem tail_holds {h : σ} {m : Image} (hm : Holds view size h m) :
    ∃ h', kernelMountCircBufGetTailOffset f fat t fd h = .ok (stored m w w, h') ∧
      Holds view size h' m := by
  obtain ⟨h₁, hrun₁, hm₁⟩ := offsetSize_holds hb hm
  rw [hs.offsetSize] at hrun₁
  obtain ⟨h₂, hrun₂, hm₂⟩ := @getOffset_holds _ _ _ _ _ _ _ hb _ _ hm₁ w w hs.width
    (by have := hs.parts; omega)
  exact ⟨h₂, by rw [kernelMountCircBufGetTailOffset, bind_of_ok hrun₁, hrun₂], hm₂⟩

theorem setHead_holds {h : σ} {m : Image} (hm : Holds view size h m) (offset : ℕ) :
    ∃ h', kernelMountCircBufSetHeadOffset f t fd offset h = .ok (true, h') ∧
      Holds view size h' (overwrite m 0 (offsetBytes w offset)) := by
  obtain ⟨h₁, hrun₁, hm₁⟩ := offsetSize_holds hb hm
  rw [hs.offsetSize] at hrun₁
  obtain ⟨h₂, hrun₂, hm₂⟩ := @setOffset_holds _ _ _ _ _ _ _ hb _ _ hm₁ w 0 offset hs.width
    (by have := hs.parts; omega)
  exact ⟨h₂, by rw [kernelMountCircBufSetHeadOffset, bind_of_ok hrun₁, hrun₂], hm₂⟩

theorem setTail_holds {h : σ} {m : Image} (hm : Holds view size h m) (offset : ℕ) :
    ∃ h', kernelMountCircBufSetTailOffset f t fd offset h = .ok (true, h') ∧
      Holds view size h' (overwrite m w (offsetBytes w offset)) := by
  obtain ⟨h₁, hrun₁, hm₁⟩ := offsetSize_holds hb hm
  rw [hs.offsetSize] at hrun₁
  obtain ⟨h₂, hrun₂, hm₂⟩ := @setOffset_holds _ _ _ _ _ _ _ hb _ _ hm₁ w w offset hs.width
    (by have := hs.parts; omega)
  exact ⟨h₂, by rw [kernelMountCircBufSetTailOffset, bind_of_ok hrun₁, hrun₂], hm₂⟩

theorem incOffset_holds {h : σ} {m : Image} (hm : Holds view size h m) (offset : ℕ) :
    ∃ h', kernelMountCircBufIncOffset f t fd offset h = .ok (Ring.next n offset, h') ∧
      Holds view size h' m := by
  obtain ⟨h₁, hrun₁, hm₁⟩ := backingSize_holds hb hm
  have hbuffer : kernelMountCircBufGetBufferSize f t fd h = .ok (n, h₁) := by
    rw [kernelMountCircBufGetBufferSize, bind_of_ok hrun₁, hs.bufferSize]
    rfl
  have hlast : u32 (n+4294967295) = n-1 := by
    have hparts := hs.parts
    have hcells := hs.cells
    have hsize := hs.size
    rw [u32]
    omega
  refine ⟨h₁, ?_, hm₁⟩
  rw [kernelMountCircBufIncOffset, bind_of_ok hbuffer, hlast]
  rfl

/-- The ring of cells behind the offsets. -/
def ringCells (w : ℕ) (m : Image) : ℕ → UInt8 := fun i => m (2*w+i)

/-- The offsets are in range, and between them lies the queue. -/
structure Buffer (w n : ℕ) (m : Image) (q : List UInt8) : Prop where
  head : stored m 0 w < n
  tail : stored m w w < n
  queue : Ring.contents (ringCells w m) n (stored m 0 w) (stored m w w) = q

theorem readCell_holds {h : σ} {m : Image} (hm : Holds view size h m) {offset : ℕ}
    (ho : offset < n) : ∃ h', kernelFsFileReadByte f fat t fd (u32 (2*w+offset)) h =
      .ok (some (ringCells w m offset).toNat, h') ∧ Holds view size h' m := by
  have hparts := hs.parts
  have hsize := hs.size
  have haddr : u32 (2*w+offset) = 2*w+offset := u32_of_lt (by omega)
  obtain ⟨h', hrun, hm'⟩ := @read_holds _ _ _ _ _ _ _ hb _ _ hm (2*w+offset) 1 (by omega)
  refine ⟨h', ?_, hm'⟩
  rw [haddr, kernelFsFileReadByte, bind_of_ok hrun, if_pos rfl]
  rfl

theorem writeCell_holds {h : σ} {m : Image} (hm : Holds view size h m) {offset : ℕ}
    (ho : offset < n) (b : UInt8) :
    ∃ h', kernelFsFileWriteByte f t fd (u32 (2*w+offset)) b.toNat h = .ok (true, h') ∧
      Holds view size h' (overwrite m (2*w+offset) [b]) := by
  have hparts := hs.parts
  have hsize := hs.size
  have haddr : u32 (2*w+offset) = 2*w+offset := u32_of_lt (by omega)
  have hin : 2*w+offset+[b].length ≤ size := by
    rw [List.length_singleton]
    omega
  obtain ⟨h', hrun, hm'⟩ := write_holds hb hm hin
  refine ⟨h', ?_, hm'⟩
  rw [haddr, kernelFsFileWriteByte, UInt8.ofNat_toNat]
  exact bind_of_ok hrun

/-- The writing loop puts as many bytes behind the tail as there is room for,
and leaves the offsets alone. -/
theorem writeLoop_holds {head : ℕ} (hhead : head < n) (data : List UInt8) (tail written : ℕ)
    (htail : tail < n) {h : σ} {m : Image} (hm : Holds view size h m) :
    ∃ h' m' tail', kernelMountCircBufWriteLoop f t fd w head tail written data h =
        .ok (some (tail', written+min data.length (n-1-Ring.count n head tail)), h') ∧
      Holds view size h' m' ∧ (∀ a < 2*w, m' a = m a) ∧ tail' < n ∧
      Ring.contents (ringCells w m') n head tail' = Ring.contents (ringCells w m) n head tail++
        data.take (n-1-Ring.count n head tail) := by
  have hpos : 0 < n := by
    have := hs.cells
    omega
  induction data generalizing tail written h m with
  | nil =>
    refine ⟨h, m, tail, ?_, hm, fun _ _ => rfl, htail, ?_⟩
    · simp only [kernelMountCircBufWriteLoop, List.length_nil, Nat.zero_min, Nat.add_zero]
      rfl
    · simp
  | cons b data ih =>
    obtain ⟨h₁, hrun₁, hm₁⟩ := incOffset_holds hb hs hm tail
    rw [kernelMountCircBufWriteLoop, bind_of_ok hrun₁]
    by_cases hfull : Ring.next n tail = head
    · -- one more byte would make a full buffer look empty
      have hcount := (Ring.count_full hhead htail).mpr hfull
      refine ⟨h₁, m, tail, ?_, hm₁, fun _ _ => rfl, htail, ?_⟩
      · rw [if_pos hfull, hcount, Nat.sub_self, Nat.min_zero, Nat.add_zero]
        rfl
      · rw [hcount, Nat.sub_self, List.take_zero, List.append_nil]
    · obtain ⟨h₂, hrun₂, hm₂⟩ := writeCell_holds hb hs hm₁ htail b
      obtain ⟨h₃, m₃, tail', hrun₃, hm₃, hkeep, htail', hqueue⟩ :=
        ih (Ring.next n tail) (written+1) (Ring.next_lt hpos tail) hm₂
      have hcount := Ring.count_push hhead htail hfull
      have hlt := Ring.count_lt hhead (Ring.next_lt hpos tail)
      have hself : ringCells w (overwrite m (2*w+tail) [b]) tail = b :=
        overwrite_one_self m _ b
      have hother : ∀ i < n, i ≠ tail →
          ringCells w (overwrite m (2*w+tail) [b]) i = ringCells w m i :=
        fun i _ hi => overwrite_one_ne m _ _ b (by omega)
      refine ⟨h₃, m₃, tail', ?_, hm₃, ?_, htail', ?_⟩
      · rw [if_neg hfull, bind_of_ok hrun₂, if_neg (by decide), hrun₃, hcount, List.length_cons]
        have hsum : written+1+min data.length (n-1-(Ring.count n head tail+1)) =
            written+min (data.length+1) (n-1-Ring.count n head tail) := by omega
        rw [hsum]
      · intro a ha
        rw [hkeep a ha, overwrite_below m _ _ _ (by omega)]
      · have hroom : n-1-Ring.count n head tail = n-1-(Ring.count n head tail+1)+1 := by omega
        rw [hqueue, hcount, Ring.contents_push hhead htail hfull hself hother, hroom,
          List.take_succ_cons, List.append_assoc, List.singleton_append]

/-! ### The character functors -/

/-- The descriptor is listed as a circular buffer. -/
structure CircBufMount (t : Tables) (fd : ℕ) : Prop where
  range : fd < KernelFsFdMax
  device : kernelMountGetDeviceFromFd t fd = some ⟨KernelMountFormatCircBuf, fd⟩

omit hb hs in
theorem mountDevice_run (hmount : CircBufMount t fd) (h : σ) :
    mountDevice t fd h = .ok (⟨KernelMountFormatCircBuf, fd⟩, h) := by
  have hassert : (kAssert (fd < KernelFsFdMax) : Hw σ Unit) h = .ok ((), h) := by
    rw [kAssert, if_pos (by simpa using hmount.range)]
    rfl
  rw [mountDevice, bind_of_ok hassert, hmount.device]
  rfl

variable (hmount : CircBufMount t fd)

include hmount

theorem characterRead_empty {h : σ} {m : Image} (hm : Holds view size h m)
    (hq : Buffer w n m []) : ∃ h', kernelMountCharacterReadFunctor f fat t fd h = .ok (-1, h') ∧
      Holds view size h' m := by
  obtain ⟨h₁, hrun₁, hm₁⟩ := offsetSize_holds hb hm
  obtain ⟨h₂, hrun₂, hm₂⟩ := head_holds hb hs hm₁
  obtain ⟨h₃, hrun₃, hm₃⟩ := tail_holds hb hs hm₂
  have heq := (Ring.contents_nil _ hq.head _).mp hq.queue
  refine ⟨h₃, ?_, hm₃⟩
  rw [kernelMountCharacterReadFunctor, bind_of_ok (mountDevice_run hmount h), if_pos rfl,
    bind_of_ok hrun₁, bind_of_ok hrun₂, bind_of_ok hrun₃, if_pos heq]
  rfl

theorem characterRead_cons {h : σ} {m : Image} (hm : Holds view size h m) {b : UInt8}
    {q : List UInt8} (hq : Buffer w n m (b::q)) :
    ∃ h' m', kernelMountCharacterReadFunctor f fat t fd h = .ok ((b.toNat : ℤ), h') ∧
      Holds view size h' m' ∧ Buffer w n m' q := by
  obtain ⟨h₁, hrun₁, hm₁⟩ := offsetSize_holds hb hm
  obtain ⟨h₂, hrun₂, hm₂⟩ := head_holds hb hs hm₁
  obtain ⟨h₃, hrun₃, hm₃⟩ := tail_holds hb hs hm₂
  have hne : stored m 0 w ≠ stored m w w := by
    intro heq
    have hnil := (Ring.contents_nil (ringCells w m) hq.head _).mpr heq
    rw [hq.queue] at hnil
    cases hnil
  have hpop := Ring.contents_pop (ringCells w m) hq.head hq.tail hne
  rw [hq.queue, List.cons.injEq] at hpop
  obtain ⟨h₄, hrun₄, hm₄⟩ := readCell_holds hb hs hm₃ hq.head
  obtain ⟨h₅, hrun₅, hm₅⟩ := incOffset_holds hb hs hm₄ (stored m 0 w)
  obtain ⟨h₆, hrun₆, hm₆⟩ := setHead_holds hb hs hm₅ (Ring.next n (stored m 0 w))
  have hnext : Ring.next n (stored m 0 w) < n := Ring.next_lt (by have := hs.cells; omega) _
  have hhead : stored (overwrite m 0 (offsetBytes w (Ring.next n (stored m 0 w)))) 0 w =
      Ring.next n (stored m 0 w) :=
    stored_offsetBytes hs.width (by have := hs.fits; omega) m 0
  have hkeep : ∀ a, w ≤ a →
      overwrite m 0 (offsetBytes w (Ring.next n (stored m 0 w))) a = m a := by
    intro a ha
    exact overwrite_above m 0 _ a (by rw [offsetBytes_length hs.width]; omega)
  have htail : stored (overwrite m 0 (offsetBytes w (Ring.next n (stored m 0 w)))) w w =
      stored m w w := stored_congr (fun a ha _ => hkeep a ha)
  have hcells : ringCells w (overwrite m 0 (offsetBytes w (Ring.next n (stored m 0 w)))) =
      ringCells w m := funext (fun i => hkeep _ (by omega))
  refine ⟨h₆, _, ?_, hm₆, ?_⟩
  · rw [hs.offsetSize] at hrun₁
    rw [kernelMountCharacterReadFunctor, bind_of_ok (mountDevice_run hmount h), if_pos rfl,
      bind_of_ok hrun₁, bind_of_ok hrun₂, bind_of_ok hrun₃, if_neg hne, bind_of_ok hrun₄]
    dsimp only
    rw [bind_of_ok hrun₅, bind_of_ok hrun₆, if_neg (by decide), ← hpop.1]
    rfl
  · constructor
    · rw [hhead]
      exact hnext
    · rw [htail]
      exact hq.tail
    · rw [hhead, htail, hcells]
      exact hpop.2.symm

theorem characterWrite_holds {h : σ} {m : Image} (hm : Holds view size h m) {q : List UInt8}
    (hq : Buffer w n m q) (data : List UInt8) :
    ∃ h' m', kernelMountCharacterWriteFunctor f fat t fd data h =
        .ok (min data.length (n-1-q.length), h') ∧
      Holds view size h' m' ∧ Buffer w n m' (q++data.take (n-1-q.length)) ∧
      stored m' 0 w = stored m 0 w := by
  obtain ⟨h₁, hrun₁, hm₁⟩ := offsetSize_holds hb hm
  obtain ⟨h₂, hrun₂, hm₂⟩ := head_holds hb hs hm₁
  obtain ⟨h₃, hrun₃, hm₃⟩ := tail_holds hb hs hm₂
  obtain ⟨h₄, m₄, tail', hrun₄, hm₄, hkeep, htail', hqueue⟩ :=
    writeLoop_holds hb hs hq.head data (stored m w w) 0 hq.tail hm₃
  obtain ⟨h₅, hrun₅, hm₅⟩ := setTail_holds hb hs hm₄ tail'
  have hlen : Ring.count n (stored m 0 w) (stored m w w) = q.length := by
    rw [← hq.queue, Ring.contents_length]
  rw [hlen, Nat.zero_add] at hrun₄
  rw [hlen, hq.queue] at hqueue
  have hout : ∀ a, a < w ∨ 2*w ≤ a → overwrite m₄ w (offsetBytes w tail') a = m₄ a := by
    intro a ha
    exact overwrite_outside m₄ w _ a (by rw [offsetBytes_length hs.width]; omega)
  have hhead : stored (overwrite m₄ w (offsetBytes w tail')) 0 w = stored m 0 w := by
    apply stored_congr
    intro a _ ha
    rw [hout a (by omega), hkeep a (by omega)]
  have htail : stored (overwrite m₄ w (offsetBytes w tail')) w w = tail' :=
    stored_offsetBytes hs.width (by have := hs.fits; omega) m₄ w
  have hcells : ringCells w (overwrite m₄ w (offsetBytes w tail')) = ringCells w m₄ :=
    funext (fun i => hout _ (by omega))
  refine ⟨h₅, _, ?_, hm₅, ?_, ?_⟩
  · rw [hs.offsetSize] at hrun₁
    rw [kernelMountCharacterWriteFunctor, bind_of_ok (mountDevice_run hmount h), if_pos rfl,
      bind_of_ok hrun₁, bind_of_ok hrun₂, bind_of_ok hrun₃, bind_of_ok hrun₄]
    dsimp only
    rw [bind_of_ok hrun₅, if_neg (by decide)]
    rfl
  · constructor
    · rw [hhead]
      exact hq.head
    · rw [htail]
      exact htail'
    · rw [hhead, htail, hcells]
      exact hqueue
  · exact hhead

/-- An offset that equals the value for a failed read counts as one. -/
theorem characterCanRead_holds {h : σ} {m : Image} (hm : Holds view size h m) {q : List UInt8}
    (hq : Buffer w n m q) : ∃ h', kernelMountCharacterCanReadFunctor f fat t fd h =
      .ok (decide (stored m 0 w ≠ KernelFsFileOffsetMax ∧ stored m w w ≠ KernelFsFileOffsetMax ∧
        q ≠ []), h') ∧ Holds view size h' m := by
  obtain ⟨h₁, hrun₁, hm₁⟩ := head_holds hb hs hm
  obtain ⟨h₂, hrun₂, hm₂⟩ := tail_holds hb hs hm₁
  have hnil := Ring.contents_nil (ringCells w m) hq.head (stored m w w)
  rw [hq.queue] at hnil
  refine ⟨h₂, ?_, hm₂⟩
  rw [kernelMountCharacterCanReadFunctor, bind_of_ok (mountDevice_run hmount h), if_pos rfl,
    bind_of_ok hrun₁, bind_of_ok hrun₂]
  by_cases hmax : stored m 0 w = KernelFsFileOffsetMax ∨ stored m w w = KernelFsFileOffsetMax
  · have hfalse : ¬ (stored m 0 w ≠ KernelFsFileOffsetMax ∧
        stored m w w ≠ KernelFsFileOffsetMax ∧ q ≠ []) := by
      rintro ⟨h₀, hw, _⟩
      rcases hmax with hmax | hmax
      · exact h₀ hmax
      · exact hw hmax
    rw [if_pos hmax, decide_eq_false hfalse]
    rfl
  · rw [not_or] at hmax
    have hbool : (stored m 0 w != stored m w w) = decide (stored m 0 w ≠ KernelFsFileOffsetMax ∧
        stored m w w ≠ KernelFsFileOffsetMax ∧ q ≠ []) := by
      rw [Bool.eq_iff_iff, decide_eq_true_iff, bne_iff_ne]
      constructor
      · exact fun hne => ⟨hmax.1, hmax.2, fun hq => hne (hnil.mp hq)⟩
      · exact fun hall heq => hall.2.2 (hnil.mpr heq)
    rw [if_neg (by rw [not_or]; exact hmax), hbool]
    rfl

theorem characterCanWrite_holds {h : σ} {m : Image} (hm : Holds view size h m) {q : List UInt8}
    (hq : Buffer w n m q) : ∃ h', kernelMountCharacterCanWriteFunctor f fat t fd h =
      .ok (decide (stored m 0 w ≠ KernelFsFileOffsetMax ∧ stored m w w ≠ KernelFsFileOffsetMax ∧
        q.length < n-1), h') ∧ Holds view size h' m := by
  obtain ⟨h₁, hrun₁, hm₁⟩ := head_holds hb hs hm
  obtain ⟨h₂, hrun₂, hm₂⟩ := tail_holds hb hs hm₁
  obtain ⟨h₃, hrun₃, hm₃⟩ := incOffset_holds hb hs hm₂ (stored m w w)
  have hfull := Ring.count_full hq.head hq.tail
  have hlt := Ring.count_lt hq.head hq.tail
  have hlen : Ring.count n (stored m 0 w) (stored m w w) = q.length := by
    rw [← hq.queue, Ring.contents_length]
  rw [hlen] at hfull hlt
  by_cases hmax : stored m 0 w = KernelFsFileOffsetMax ∨ stored m w w = KernelFsFileOffsetMax
  · have hfalse : ¬ (stored m 0 w ≠ KernelFsFileOffsetMax ∧
        stored m w w ≠ KernelFsFileOffsetMax ∧ q.length < n-1) := by
      rintro ⟨h₀, hw, _⟩
      rcases hmax with hmax | hmax
      · exact h₀ hmax
      · exact hw hmax
    refine ⟨h₂, ?_, hm₂⟩
    rw [kernelMountCharacterCanWriteFunctor, bind_of_ok (mountDevice_run hmount h), if_pos rfl,
      bind_of_ok hrun₁, bind_of_ok hrun₂, if_pos hmax, decide_eq_false hfalse]
    rfl
  · refine ⟨h₃, ?_, hm₃⟩
    rw [not_or] at hmax
    have hbool : (Ring.next n (stored m w w) != stored m 0 w) =
        decide (stored m 0 w ≠ KernelFsFileOffsetMax ∧ stored m w w ≠ KernelFsFileOffsetMax ∧
          q.length < n-1) := by
      rw [Bool.eq_iff_iff, decide_eq_true_iff, bne_iff_ne, ne_eq, ← hfull]
      constructor
      · exact fun hne => ⟨hmax.1, hmax.2, by omega⟩
      · exact fun hall => by omega
    rw [kernelMountCharacterCanWriteFunctor, bind_of_ok (mountDevice_run hmount h), if_pos rfl,
      bind_of_ok hrun₁, bind_of_ok hrun₂, if_neg (by rw [not_or]; exact hmax),
      bind_of_ok hrun₃, hbool]
    rfl

end File

/-! ### Runs of a mounted buffer -/

inductive CircBufOp
  | write (data : List UInt8)
  | read
  | canRead
  | canWrite

inductive CircBufReply
  | accepted (count : ℕ)
  | byte (value : ℤ)
  | possible (yes : Bool)
  deriving DecidableEq

/-- The call that reaches the device. -/
def CircBufOp.run (f : Functors σ) (device : KernelFsDevice) : CircBufOp → Hw σ CircBufReply
  | .write data => do
      let count ← f.characterWrite device data
      pure (.accepted count)
  | .read => do
      let value ← f.characterRead device
      pure (.byte value)
  | .canRead => do
      let yes ← f.characterCanRead device
      pure (.possible yes)
  | .canWrite => do
      let yes ← f.characterCanWrite device
      pure (.possible yes)

def runCircBuf (f : Functors σ) (device : KernelFsDevice) :
    List CircBufOp → Hw σ (List CircBufReply)
  | [] => pure []
  | op::ops => do
      let reply ← op.run f device
      let replies ← runCircBuf f device ops
      pure (reply::replies)

/-- What a queue of bounded length answers, and the queue after it. -/
def CircBufOp.fifo (capacity : ℕ) : CircBufOp → List UInt8 → CircBufReply × List UInt8
  | .write data, q => (.accepted (min data.length (capacity-q.length)),
      q++data.take (capacity-q.length))
  | .read, [] => (.byte (-1), [])
  | .read, b::q => (.byte b.toNat, q)
  | .canRead, q => (.possible (decide (q ≠ [])), q)
  | .canWrite, q => (.possible (decide (q.length < capacity)), q)

def fifoRun (capacity : ℕ) : List CircBufOp → List UInt8 → List CircBufReply × List UInt8
  | [], q => ([], q)
  | op::ops, q =>
      ((op.fifo capacity q).1::(fifoRun capacity ops (op.fifo capacity q).2).1,
        (fifoRun capacity ops (op.fifo capacity q).2).2)

/-- The stored offsets are in range, and the writing loop between them leaves
their bytes alone. -/
structure OffsetsSafe (f : Functors σ) (t : Tables) (fd size w n : ℕ) (view : σ → Image)
    (h : σ) : Prop where
  head : stored (view h) 0 w < n
  tail : stored (view h) w w < n
  untouched : ∀ data h₀ r h₁, (∀ a < size, view h₀ a = view h a) →
    kernelMountCircBufWriteLoop f t fd w (stored (view h) 0 w) (stored (view h) w w) 0 data h₀ =
      .ok (r, h₁) → ∀ a < 2*w, view h₁ a = view h a

/-- Calls to the device arrive at the character functors. -/
structure Reaches (outer inner : Functors σ) (fat : FatFns) (t : Tables)
    (device : KernelFsDevice) : Prop where
  read : outer.characterRead device =
    kernelMountCharacterReadFunctor inner fat t device.userData
  write : ∀ data, outer.characterWrite device data =
    kernelMountCharacterWriteFunctor inner fat t device.userData data
  canRead : outer.characterCanRead device =
    kernelMountCharacterCanReadFunctor inner fat t device.userData
  canWrite : outer.characterCanWrite device =
    kernelMountCharacterCanWriteFunctor inner fat t device.userData

theorem functors_reach (p : Platform σ) (t : Tables) {depth : ℕ} (hdepth : p.depth = depth+1)
    {device : KernelFsDevice} (hfunctor : device.functor = .kernelMountFsFunctor) :
    Reaches (p.functors t) (Kernel.functors p.drv p.fat t depth) p.fat t device := by
  rw [Platform.functors, hdepth]
  constructor
  · simp only [Kernel.functors, kernelMountFsFunctor, callFunctor, hfunctor]
  · simp only [Kernel.functors, kernelMountFsFunctor, callFunctor, hfunctor, implies_true]
  · simp only [Kernel.functors, kernelMountFsFunctor, callFunctor, hfunctor]
  · simp only [Kernel.functors, kernelMountFsFunctor, callFunctor, hfunctor]

section Run

variable {f : Functors σ} {fat : FatFns} {t : Tables} {fd size w n : ℕ} {view : σ → Image}
  (hb : BackingFile f fat t fd size view) (hs : BufferShape size w n)

include hs in
theorem stored_holds {h : σ} {m : Image} (hm : Holds view size h m) :
    stored (view h) 0 w = stored m 0 w ∧ stored (view h) w w = stored m w w := by
  have hparts := hs.parts
  exact ⟨stored_congr (fun a _ ha => hm a (by omega)),
    stored_congr (fun a _ ha => hm a (by omega))⟩

include hb hs

theorem offsetsSafe {h : σ} {m : Image} (hm : Holds view size h m) {q : List UInt8}
    (hq : Buffer w n m q) : OffsetsSafe f t fd size w n view h := by
  have hstored := stored_holds hs hm
  have hparts := hs.parts
  constructor
  · rw [hstored.1]
    exact hq.head
  · rw [hstored.2]
    exact hq.tail
  · intro data h₀ r h₁ hsame hrun a ha
    rw [hstored.1, hstored.2] at hrun
    have hm₀ : Holds view size h₀ m := fun a ha => (hsame a ha).trans (hm a ha)
    obtain ⟨h', m', tail', hloop, hm', hkeep, _⟩ :=
      writeLoop_holds hb hs hq.head data (stored m w w) 0 hq.tail hm₀
    rw [hloop] at hrun
    cases hrun
    rw [hm' a (by omega), hkeep a ha, hm a (by omega)]

variable (hmount : CircBufMount t fd) {outer : Functors σ} {device : KernelFsDevice}
  (hfd : device.userData = fd) (hreach : Reaches outer f fat t device)

include hmount hfd hreach

/-- One call, while no offset can be the value for a failed read. -/
theorem op_fifo (hn : n ≤ KernelFsFileOffsetMax) {h : σ} {m : Image} (hm : Holds view size h m)
    {q : List UInt8} (hq : Buffer w n m q) (op : CircBufOp) :
    ∃ h' m', op.run outer device h = .ok ((op.fifo (n-1) q).1, h') ∧ Holds view size h' m' ∧
      Buffer w n m' (op.fifo (n-1) q).2 := by
  have hhead : stored m 0 w ≠ KernelFsFileOffsetMax := by
    have := hq.head
    omega
  have htail : stored m w w ≠ KernelFsFileOffsetMax := by
    have := hq.tail
    omega
  cases op with
  | write data =>
    obtain ⟨h', m', hrun, hm', hq', _⟩ := characterWrite_holds hb hs hmount hm hq data
    refine ⟨h', m', ?_, hm', hq'⟩
    rw [CircBufOp.run, hreach.write, hfd, bind_of_ok hrun]
    rfl
  | read =>
    cases q with
    | nil =>
      obtain ⟨h', hrun, hm'⟩ := characterRead_empty hb hs hmount hm hq
      refine ⟨h', m, ?_, hm', hq⟩
      rw [CircBufOp.run, hreach.read, hfd, bind_of_ok hrun]
      rfl
    | cons b q =>
      obtain ⟨h', m', hrun, hm', hq'⟩ := characterRead_cons hb hs hmount hm hq
      refine ⟨h', m', ?_, hm', hq'⟩
      rw [CircBufOp.run, hreach.read, hfd, bind_of_ok hrun]
      rfl
  | canRead =>
    obtain ⟨h', hrun, hm'⟩ := characterCanRead_holds hb hs hmount hm hq
    refine ⟨h', m, ?_, hm', hq⟩
    rw [CircBufOp.run, hreach.canRead, hfd, bind_of_ok hrun]
    simp only [ne_eq, hhead, htail, not_false_eq_true, true_and]
    rfl
  | canWrite =>
    obtain ⟨h', hrun, hm'⟩ := characterCanWrite_holds hb hs hmount hm hq
    refine ⟨h', m, ?_, hm', hq⟩
    rw [CircBufOp.run, hreach.canWrite, hfd, bind_of_ok hrun]
    simp only [ne_eq, hhead, htail, not_false_eq_true, true_and]
    rfl

theorem run_fifo (hn : n ≤ KernelFsFileOffsetMax) (ops : List CircBufOp) {h : σ} {m : Image}
    (hm : Holds view size h m) {q : List UInt8} (hq : Buffer w n m q) :
    ∃ h' m', runCircBuf outer device ops h = .ok ((fifoRun (n-1) ops q).1, h') ∧
      Holds view size h' m' ∧ Buffer w n m' (fifoRun (n-1) ops q).2 := by
  induction ops generalizing h m q with
  | nil => exact ⟨h, m, rfl, hm, hq⟩
  | cons op ops ih =>
    obtain ⟨h₁, m₁, hrun₁, hm₁, hq₁⟩ :=
      op_fifo hb hs hmount hfd hreach hn hm hq op
    obtain ⟨h₂, m₂, hrun₂, hm₂, hq₂⟩ := ih hm₁ hq₁
    refine ⟨h₂, m₂, ?_, hm₂, hq₂⟩
    rw [runCircBuf, bind_of_ok hrun₁, bind_of_ok hrun₂]
    rfl

/-- Enough bytes bring the tail to the value for a failed read: the queue is not
empty, and the buffer says that nothing can be read. -/
theorem run_not_fifo (hn : KernelFsFileOffsetMax < n) {h : σ} {m : Image}
    (hm : Holds view size h m) (hq : Buffer w n m []) (hzero : stored m 0 w = 0) :
    ∃ ops, ∀ h', runCircBuf outer device ops h ≠ .ok ((fifoRun (n-1) ops []).1, h') := by
  obtain ⟨data, hlen⟩ : ∃ data : List UInt8, (data.take (n-1)).length = KernelFsFileOffsetMax := by
    refine ⟨List.replicate KernelFsFileOffsetMax 0, ?_⟩
    rw [List.length_take, List.length_replicate]
    omega
  have hne : data.take (n-1) ≠ [] := by
    intro hnil
    rw [hnil] at hlen
    cases hlen
  refine ⟨[.write data, .canRead], ?_⟩
  intro h' hrun
  obtain ⟨h₁, m₁, hrun₁, hm₁, hq₁, hhead⟩ := characterWrite_holds hb hs hmount hm hq data
  rw [List.nil_append, List.length_nil, Nat.sub_zero] at hq₁
  obtain ⟨h₂, hrun₂, _⟩ := characterCanRead_holds hb hs hmount hm₁ hq₁
  -- the head is still 0, so the tail is the length of the queue
  have htail : stored m₁ w w = KernelFsFileOffsetMax := by
    have hcount := congrArg List.length hq₁.queue
    rw [Ring.contents_length, hlen, hhead, hzero, Ring.count, if_pos (Nat.zero_le _)] at hcount
    omega
  have hfalse : ¬ (stored m₁ 0 w ≠ KernelFsFileOffsetMax ∧
      stored m₁ w w ≠ KernelFsFileOffsetMax ∧ data.take (n-1) ≠ []) := by
    rintro ⟨_, hw, _⟩
    exact hw htail
  rw [decide_eq_false hfalse] at hrun₂
  have hop₁ : (CircBufOp.write data).run outer device h =
      .ok (.accepted (min data.length (n-1-0)), h₁) := by
    rw [CircBufOp.run, hreach.write, hfd, bind_of_ok hrun₁]
    rfl
  have hop₂ : CircBufOp.canRead.run outer device h₁ = .ok (.possible false, h₂) := by
    rw [CircBufOp.run, hreach.canRead, hfd, bind_of_ok hrun₂]
    rfl
  have hboth : runCircBuf outer device [.write data, .canRead] h =
      .ok ([.accepted (min data.length (n-1-0)), .possible false], h₂) := by
    rw [runCircBuf, bind_of_ok hop₁, runCircBuf, runCircBuf, bind_of_ok (bind_of_ok hop₂)]
    rfl
  rw [hboth] at hrun
  simp only [fifoRun, CircBufOp.fifo, Except.ok.injEq, Prod.mk.injEq, List.cons.injEq,
    CircBufReply.possible.injEq, List.nil_append, List.length_nil, Nat.sub_zero] at hrun
  exact absurd hrun.1.2.1.symm (by simp [hne])

end Run

/-! ### Mounting a circular buffer -/

section Mount

variable (p : Platform σ)

/-- A successful mount has added the device and then written both offsets. -/
theorem mountCircBuf_ok {devicePath dirPath : CStr} {s s' : Tables × σ}
    (h : kernelMount p KernelMountFormatCircBuf devicePath dirPath s = .ok (true, s')) :
    ∃ fd i slot h₀, MountOpened s.1 devicePath fd i ∧
      Added (mountPending s.1 devicePath fd i KernelMountFormatCircBuf) s'.1 slot
        (mountedDevice dirPath fd (.character true)) ∧
      mountCircBufOffsets p fd (s'.1, h₀) = .ok (true, s') := by
  by_cases hroom : MountRoom s.1 devicePath dirPath
  swap
  · rw [kernelMount_noRoom p hroom] at h
    cases h
  have hrun := h
  rw [kernelMount_room p hroom] at hrun
  obtain ⟨fd, s₁, hopen, hrest⟩ := bind_ok.mp hrun
  by_cases hfd : fd = KernelFsFdInvalid
  · rw [if_pos hfd] at hrest
    cases (pure_ok.mp hrest).1
  obtain ⟨i, hopened, hmount⟩ := @kernelMount_opened _ p KernelMountFormatCircBuf _ _ _ _ _
    hroom hopen hfd
  rw [hmount, mountOpened] at h
  obtain ⟨ok, s₂, hformat, hrest⟩ := bind_ok.mp h
  cases ok with
  | false =>
    rw [if_neg (by decide)] at hrest
    obtain ⟨_, s₃, _, hrest⟩ := bind_ok.mp hrest
    obtain ⟨_, s₄, _, hrest⟩ := bind_ok.mp hrest
    cases (pure_ok.mp hrest).1
  | true =>
    rw [if_pos rfl] at hrest
    obtain ⟨_, hs'⟩ := pure_ok.mp hrest
    rw [← hs', kernelMountFormat, if_neg (by decide), if_neg (by decide), if_neg (by decide),
      if_pos rfl] at hformat
    obtain ⟨added, s₃, hdevice, hoffsets⟩ := bind_ok.mp hformat
    rcases mountCircBufDevice_cases p hdevice with ⟨hadd, _⟩ | ⟨hadd, slot, hadded⟩
    · rw [if_pos hadd] at hoffsets
      cases (pure_ok.mp hoffsets).1
    · rw [if_neg (by rw [hadd]; decide)] at hoffsets
      have hs₃ := mountCircBufOffsets_ok p hoffsets
      refine ⟨fd, i, slot, s₃.2, hopened, ?_, ?_⟩
      · rw [hs₃]
        exact hadded
      · rw [hs₃]
        exact hoffsets

/-- The offsets a mount writes stand for an empty buffer. -/
theorem mountOffsets_buffer {t : Tables} {fd size w n : ℕ} {view : σ → Image}
    (hb : BackingFile (p.functors t) p.fat t fd size view) (hs : BufferShape size w n) {h₀ h : σ}
    (hrun : mountCircBufOffsets p fd (t, h₀) = .ok (true, (t, h))) :
    ∃ m, Holds view size h m ∧ Buffer w n m [] ∧ stored m 0 w = 0 := by
  have hstart : Holds view size h₀ (view h₀) := fun _ _ => rfl
  obtain ⟨h₁, hrun₁, hm₁⟩ := setHead_holds hb hs hstart 0
  obtain ⟨h₂, hrun₂, hm₂⟩ := setTail_holds hb hs hm₁ 0
  have hhead : (access p (fun f t => kernelMountCircBufSetHeadOffset f t fd 0)) (t, h₀) =
      .ok (true, (t, h₁)) := (access_ok p).mpr ⟨hrun₁, rfl⟩
  have htail : (access p (fun f t => kernelMountCircBufSetTailOffset f t fd 0)) (t, h₁) =
      .ok (true, (t, h₂)) := (access_ok p).mpr ⟨hrun₂, rfl⟩
  rw [mountCircBufOffsets, bind_of_ok hhead, if_neg (by decide), htail] at hrun
  cases hrun
  have hpos : 0 < n := by
    have := hs.cells
    omega
  have hfits : 0 < 256^w := by
    have := hs.fits
    omega
  have hzero : stored (overwrite (overwrite (view h₀) 0 (offsetBytes w 0)) w
      (offsetBytes w 0)) 0 w = 0 := by
    have hkeep : ∀ a, 0 ≤ a → a < 0+w → overwrite (overwrite (view h₀) 0 (offsetBytes w 0)) w
        (offsetBytes w 0) a = overwrite (view h₀) 0 (offsetBytes w 0) a :=
      fun a _ ha => overwrite_below _ _ _ _ (by omega)
    rw [stored_congr hkeep, stored_offsetBytes hs.width hfits]
  have hzero' : stored (overwrite (overwrite (view h₀) 0 (offsetBytes w 0)) w
      (offsetBytes w 0)) w w = 0 := stored_offsetBytes hs.width hfits _ w
  refine ⟨_, hm₂, ⟨?_, ?_, ?_⟩, hzero⟩
  · rw [hzero]
    exact hpos
  · rw [hzero']
    exact hpos
  · rw [hzero, hzero']
    exact (Ring.contents_nil _ hpos _).mpr rfl

/-- The descriptors of mounted devices are open, so a new one is not among them. -/
theorem mountPending_lookup {t : Tables} {devicePath : CStr} {fd i : ℕ}
    (hmounted : ∀ m ∈ t.mounted, t.fdt m.fd ≠ none) (hopened : MountOpened t devicePath fd i)
    (format : ℕ) :
    kernelMountGetDeviceFromFd (mountPending t devicePath fd i format) fd =
      some ⟨u8 format, fd⟩ := by
  have hnone : t.mounted.find? (fun d => d.fd == fd) = none := by
    rw [List.find?_eq_none]
    intro m hm hfd
    rw [beq_iff_eq] at hfd
    apply hmounted m hm
    rw [hfd, hopened.free]
  rw [kernelMountGetDeviceFromFd, mountPending, Tables.setMounted_mounted, List.find?_append, hnone]
  simp

/-- Whatever is done with the mounted device, its replies are those of a queue
of one less than the number of cells. Its functor runs with `depth` levels left. -/
def IsFifo (depth : ℕ) (t : Tables) (device : KernelFsDevice) (size : ℕ) (view : σ → Image)
    (h : σ) : Prop :=
  ∀ ops, ∃ h', runCircBuf (p.functors t) device ops h =
      .ok ((fifoRun (circBufBufferSize size-1) ops []).1, h') ∧
    OffsetsSafe (Kernel.functors p.drv p.fat t depth) t device.userData size
      (circBufOffsetSize size) (circBufBufferSize size) view h'

variable {p} {s s' : Tables × σ} {devicePath dirPath : CStr}
  (hmount : kernelMount p KernelMountFormatCircBuf devicePath dirPath s = .ok (true, s'))
  (hmounted : ∀ m ∈ s.1.mounted, s.1.fdt m.fd ≠ none)
  {slot : ℕ} {device : KernelFsDevice}
  (hslot : kernelFsGetDeviceFromPath s'.1.devices dirPath = some slot)
  (hdevice : s'.1.devices slot = some device)
  {size : ℕ} (hmin : 4 ≤ size) (hmax : size < 4294967296) {view : σ → Image}
  (houter : BackingFile (p.functors s'.1) p.fat s'.1 device.userData size view)

include hmount hmounted hslot hdevice hmin hmax houter

/-- After the mount the device leads to the functor, and the buffer is empty. -/
theorem mountCircBuf_start :
    device.functor = .kernelMountFsFunctor ∧ CircBufMount s'.1 device.userData ∧
      ∃ m, Holds view size s'.2 m ∧
        Buffer (circBufOffsetSize size) (circBufBufferSize size) m [] ∧
        stored m 0 (circBufOffsetSize size) = 0 := by
  obtain ⟨fd, i, slot', h₀, hopened, hadded, hoffsets⟩ := mountCircBuf_ok p hmount
  obtain ⟨hlt, d, hd, hpath⟩ := getDevice_some hslot
  rw [hdevice] at hd
  cases hd
  -- no device was at the mount point before
  have hsame : slot = slot' := by
    by_contra hne
    have hold : (mountPending s.1 devicePath fd i KernelMountFormatCircBuf).devices slot =
        some device := by
      rw [hadded.tables, Tables.setDevice_devices, if_neg hne] at hdevice
      exact hdevice
    exact getDevice_none.mp hadded.fresh slot hlt device hold hpath
  have hdev : device = mountedDevice dirPath fd (.character true) := by
    rw [hadded.tables, Tables.setDevice_devices, if_pos hsame] at hdevice
    exact (Option.some.inj hdevice).symm
  subst hdev
  refine ⟨rfl, ⟨hopened.range, ?_⟩, ?_⟩
  · have hlookup := mountPending_lookup hmounted hopened KernelMountFormatCircBuf
    rw [hadded.tables]
    exact hlookup
  · exact mountOffsets_buffer p houter (bufferShape hmin hmax) hoffsets

variable {depth : ℕ} (hdepth : p.depth = depth+1)
  (hinner : BackingFile (Kernel.functors p.drv p.fat s'.1 depth) p.fat s'.1 device.userData size
    view)

include hdepth hinner

theorem circBuf_isFifo_of (hsize : circBufBufferSize size ≤ KernelFsFileOffsetMax) :
    IsFifo p depth s'.1 device size view s'.2 := by
  obtain ⟨hfunctor, hcirc, m, hm, hq, _⟩ :=
    mountCircBuf_start hmount hmounted hslot hdevice hmin hmax houter
  have hs := bufferShape hmin hmax
  have hreach := functors_reach p s'.1 hdepth hfunctor
  intro ops
  obtain ⟨h', m', hrun, hm', hq'⟩ := run_fifo hinner hs hcirc rfl hreach hsize ops hm hq
  exact ⟨h', hrun, offsetsSafe hinner hs hm' hq'⟩

theorem circBuf_not_isFifo (hsize : KernelFsFileOffsetMax < circBufBufferSize size) :
    ¬ IsFifo p depth s'.1 device size view s'.2 := by
  obtain ⟨hfunctor, hcirc, m, hm, hq, hzero⟩ :=
    mountCircBuf_start hmount hmounted hslot hdevice hmin hmax houter
  have hs := bufferShape hmin hmax
  have hreach := functors_reach p s'.1 hdepth hfunctor
  obtain ⟨ops, hops⟩ := run_not_fifo hinner hs hcirc rfl hreach hsize hm hq hzero
  intro hfifo
  obtain ⟨h', hrun, _⟩ := hfifo ops
  exact hops h' hrun

omit hmount hmounted hslot hdevice houter hdepth hinner in
/-- Offsets reach the value for a failed read from `2^31+8` bytes on. -/
theorem bufferSize_le : circBufBufferSize size ≤ KernelFsFileOffsetMax ↔ size < 2^31+8 := by
  rw [KernelFsFileOffsetMax, circBufBufferSize]
  split_ifs with h₁ h₂
  · rw [u32]
    omega
  · rw [u32]
    omega
  · rw [u32]
    omega

/-- A mounted circular buffer is a bounded queue exactly when its backing file is
shorter than `2^31+8` bytes. -/
theorem circBuf_isFifo :
    IsFifo p depth s'.1 device size view s'.2 ↔ size < 2^31+8 := by
  constructor
  · intro hfifo
    by_contra hge
    rw [← bufferSize_le hmin hmax, not_le] at hge
    exact circBuf_not_isFifo hmount hmounted hslot hdevice hmin hmax houter hdepth hinner hge hfifo
  · intro hlt
    exact circBuf_isFifo_of hmount hmounted hslot hdevice hmin hmax houter hdepth hinner
      ((bufferSize_le hmin hmax).mpr hlt)

end Mount

/-! ### A buffer on a chip -/

/-- Drivers whose block devices share one store without an end. -/
def imageDrivers : Drivers Image where
  commonFlush _ _ m := (true, m)
  characterRead _ _ m := (-1, m)
  characterCanRead _ _ m := (false, m)
  characterWrite _ _ _ m := (0, m)
  characterCanWrite _ _ m := (false, m)
  blockRead _ _ len addr m := ((slice m addr len, len), m)
  blockWrite _ _ data addr m := (data.length, overwrite m addr data)
  malloc _ m := (true, m)

def imagePlatform (depth : ℕ) : Platform Image := ⟨imageDrivers, noFat, depth⟩

def bufferDevice : KernelFsDevice := mountedDevice (CStr.lit "/mnt") 63 (.character true)

/-- The tables after the chip has been mounted as a circular buffer. -/
def bufferTables (size : ℕ) : Tables :=
  (mountPending (chipTables size true) (CStr.lit "/dev/eeprom") 63 2
    KernelMountFormatCircBuf).setDevice 3 (some bufferDevice)

theorem chip_backing (size depth : ℕ) :
    BackingFile (Kernel.functors imageDrivers noFat (bufferTables size) (depth+1)) noFat
      (bufferTables size) 63 size id := by
  constructor
  · constructor
    · intro m addr len _
      exact ⟨m, rfl, fun _ _ => rfl⟩
    · intro m addr data _
      exact ⟨overwrite m addr data, rfl, fun _ _ => rfl⟩
  · intro m
    exact ⟨m, rfl, fun _ _ => rfl⟩

theorem circBuf_isFifo_chip :
    ∃ h, kernelMount (imagePlatform 2) KernelMountFormatCircBuf (CStr.lit "/dev/eeprom")
        (CStr.lit "/mnt") (chipTables 8 true, fun _ => 0) = .ok (true, (bufferTables 8, h)) ∧
      IsFifo (imagePlatform 2) 1 (bufferTables 8) bufferDevice 8 id h := by
  obtain ⟨h, hrun⟩ : ∃ h, kernelMount (imagePlatform 2) KernelMountFormatCircBuf
      (CStr.lit "/dev/eeprom") (CStr.lit "/mnt") (chipTables 8 true, fun _ => 0) =
        .ok (true, (bufferTables 8, h)) := ⟨_, rfl⟩
  have hslot : kernelFsGetDeviceFromPath (bufferTables 8).devices (CStr.lit "/mnt") = some 3 := rfl
  exact ⟨h, hrun, (circBuf_isFifo hrun (fun m hm => by cases hm) hslot rfl (by decide)
    (by decide) (chip_backing 8 1) rfl (chip_backing 8 0)).mpr (by decide)⟩

/-- A chip of `2^31+8` bytes: after a write of `2^31-1` bytes nothing seems to be
there to read. -/
theorem circBuf_not_isFifo_chip :
    ∃ h, kernelMount (imagePlatform 2) KernelMountFormatCircBuf (CStr.lit "/dev/eeprom")
        (CStr.lit "/mnt") (chipTables 2147483656 true, fun _ => 0) =
          .ok (true, (bufferTables 2147483656, h)) ∧
      ¬ IsFifo (imagePlatform 2) 1 (bufferTables 2147483656) bufferDevice 2147483656 id h := by
  obtain ⟨h, hrun⟩ : ∃ h, kernelMount (imagePlatform 2) KernelMountFormatCircBuf
      (CStr.lit "/dev/eeprom") (CStr.lit "/mnt") (chipTables 2147483656 true, fun _ => 0) =
        .ok (true, (bufferTables 2147483656, h)) := ⟨_, rfl⟩
  have hslot : kernelFsGetDeviceFromPath (bufferTables 2147483656).devices (CStr.lit "/mnt") =
      some 3 := rfl
  exact ⟨h, hrun, circBuf_not_isFifo hrun (fun m hm => by cases hm) hslot rfl
    (by decide) (by decide) (chip_backing 2147483656 1) rfl (chip_backing 2147483656 0)
    (by decide)⟩

end ArduinoOS.Kernel
