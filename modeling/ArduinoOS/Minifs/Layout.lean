import ArduinoOS.Minifs.Source

/-!
# The layout of a well-formed volume

A volume is a list of files, each with the offset factor of its region. The
list is in region order and the regions neither meet nor leave the volume, so
the list is at once the sorted header and the map from names to contents. An
image holds a volume when its bytes spell it out.
-/

set_option autoImplicit false

namespace ArduinoOS.Minifs
open ArduinoOS.ByteProgram

/-- A stored file. The bounds are those under which the 8 and 16 bit fields of
the region header can describe it. -/
structure File where
  off : ℕ
  name : CStr
  content : List UInt8
  off_pos : 1 ≤ off
  name_lt : name.length < 127
  total_le : 4+name.length+content.length ≤ 32640

namespace File

def totalLen (f : File) : ℕ := 4+f.name.length+f.content.length

def sizeFactor (f : File) : ℕ := (f.totalLen+127)/128

theorem sizeFactor_pos (f : File) : 1 ≤ f.sizeFactor := by
  unfold sizeFactor totalLen
  omega

theorem sizeFactor_le (f : File) : f.sizeFactor ≤ 255 := by
  have h := f.total_le
  unfold sizeFactor totalLen
  omega

theorem totalLen_le (f : File) : f.totalLen ≤ 128*f.sizeFactor := by
  unfold sizeFactor
  omega

/-- The factor at which the region ends. -/
def fin (f : File) : ℕ := f.off+f.sizeFactor

def contentAddr (f : File) : ℕ := 128*f.off+4+f.name.length

end File

/-- The files of a volume of `total` blocks: regions in order, inside the
volume, at most one for each slot, and no name twice. -/
structure WellFormed (total : ℕ) (files : List File) : Prop where
  total_pos : 1 ≤ total
  total_le : total ≤ 256
  count : files.length ≤ 126
  disjoint : files.Pairwise (fun a b => a.fin ≤ b.off)
  inside : ∀ f ∈ files, f.fin ≤ total
  names : (files.map File.name).Nodup

structure Volume where
  total : ℕ
  files : List File
  wf : WellFormed total files

/-- The offset factors of the files, then zeros. -/
def headerOf (files : List File) : List ℕ :=
  files.map File.off ++ List.replicate (126-files.length) 0

/-- The header slots of the image are `slots`. -/
structure Slots (size : ℕ) (m : Image) (slots : List ℕ) : Prop where
  roomSlots : 128 ≤ size
  length : slots.length = 126
  slot : ∀ i, (h : i < slots.length) → (m (2+i)).toNat = slots[i]

/-- The image starts with the header of a volume of `total` blocks. -/
structure Header (size total : ℕ) (m : Image) (slots : List ℕ) : Prop extends
    Slots size m slots where
  total_pos : 1 ≤ total
  total_le : total ≤ 256
  room : 128*total ≤ size
  magic : m 0 = 53
  totalByte : (m 1).toNat+1 = total

/-- The image holds the file in its region. -/
structure FileAt (m : Image) (f : File) : Prop where
  len : (m (128*f.off)).toNat*256+(m (128*f.off+1)).toNat = f.totalLen
  size : (m (128*f.off+2)).toNat = f.sizeFactor
  name : slice m (128*f.off+3) (f.name.length+1) = f.name.bytes
  content : slice m f.contentAddr f.content.length = f.content

structure Holds (size : ℕ) (m : Image) (v : Volume) : Prop where
  header : Header size v.total m (headerOf v.files)
  files : ∀ f ∈ v.files, FileAt m f

/-! ### Files and headers under writes -/

theorem fileAt_congr {m m' : Image} {f : File} (h : FileAt m f)
    (he : ∀ a, 128*f.off ≤ a → a < 128*f.off+f.totalLen → m' a = m a) : FileAt m' f := by
  have ht : f.totalLen = 4+f.name.length+f.content.length := rfl
  constructor
  · rw [he _ (by omega) (by omega), he _ (by omega) (by omega)]
    exact h.len
  · rw [he _ (by omega) (by omega)]
    exact h.size
  · rw [← h.name]
    exact slice_congr _ _ _ _ (fun a h₁ h₂ => he a (by omega) (by omega))
  · have hc : slice m' f.contentAddr f.content.length = slice m f.contentAddr f.content.length :=
      slice_congr _ _ _ _ (fun a h₁ h₂ => he a (by simp only [File.contentAddr] at h₁; omega)
        (by simp only [File.contentAddr] at h₂; omega))
    rw [hc, h.content]

theorem fileAt_overwrite {m : Image} {f : File} (h : FileAt m f) (addr : ℕ) (data : List UInt8)
    (hd : addr+data.length ≤ 128*f.off ∨ 128*f.fin ≤ addr) :
    FileAt (overwrite m addr data) f := by
  have hl := f.totalLen_le
  simp only [File.fin] at hd
  exact fileAt_congr h (fun a h₁ h₂ => overwrite_outside _ _ _ _ (by omega))

theorem fileAt_header {m m' : Image} {f : File} (h : FileAt m f)
    (he : ∀ a, 128 ≤ a → m' a = m a) : FileAt m' f := by
  have hp := f.off_pos
  exact fileAt_congr h (fun a h₁ _ => he a (by omega))

theorem slots_congr {size : ℕ} {m m' : Image} {slots : List ℕ}
    (h : Slots size m slots) (he : ∀ a < 128, m' a = m a) : Slots size m' slots := by
  have hl := h.length
  refine ⟨h.roomSlots, h.length, ?_⟩
  intro i hi
  rw [he (2+i) (by omega)]
  exact h.slot i hi

theorem header_congr {size total : ℕ} {m m' : Image} {slots : List ℕ}
    (h : Header size total m slots) (he : ∀ a < 128, m' a = m a) :
    Header size total m' slots := by
  refine ⟨slots_congr h.toSlots he, h.total_pos, h.total_le, h.room, ?_, ?_⟩
  · rw [he 0 (by decide), h.magic]
  · rw [he 1 (by decide), h.totalByte]

theorem header_overwrite {size total : ℕ} {m : Image} {slots : List ℕ}
    (h : Header size total m slots) (addr : ℕ) (data : List UInt8) (ha : 128 ≤ addr) :
    Header size total (overwrite m addr data) slots :=
  header_congr h (fun a hlt => overwrite_below _ _ _ _ (by omega))

/-- Whatever happens to the slots, the two bytes before them stay. -/
theorem header_of_slots {size total : ℕ} {m m' : Image} {slots slots' : List ℕ}
    (h : Header size total m slots) (hs : Slots size m' slots') (he : ∀ a < 2, m' a = m a) :
    Header size total m' slots' := by
  refine ⟨hs, h.total_pos, h.total_le, h.room, ?_, ?_⟩
  · rw [he 0 (by decide), h.magic]
  · rw [he 1 (by decide), h.totalByte]

theorem slots_set {size : ℕ} {m : Image} {slots : List ℕ} (h : Slots size m slots)
    (i x : ℕ) (hx : x < 256) :
    Slots size (overwrite m (2+i) [UInt8.ofNat x]) (slots.set i x) := by
  have hl := h.length
  refine ⟨h.roomSlots, by simpa using h.length, ?_⟩
  intro j hj
  rw [List.length_set] at hj
  by_cases hji : j = i
  · subst hji
    simp [Nat.mod_eq_of_lt hx]
  · rw [overwrite_one_ne _ _ _ _ (by omega), List.getElem_set_ne (fun e => hji e.symm)]
    exact h.slot j hj

theorem header_set {size total : ℕ} {m : Image} {slots : List ℕ}
    (h : Header size total m slots) (i x : ℕ) (hx : x < 256) :
    Header size total (overwrite m (2+i) [UInt8.ofNat x]) (slots.set i x) :=
  header_of_slots h (slots_set h.toSlots i x hx)
    (fun a ha => overwrite_one_ne _ _ _ _ (by omega))

theorem slot_lt {size : ℕ} {m : Image} {slots : List ℕ} (h : Slots size m slots)
    (i : ℕ) (hi : i < slots.length) : slots[i] < 256 := by
  rw [← h.slot i hi]
  exact (m (2+i)).toNat_lt

/-! ### Programs that only read a header -/

section Reads

variable {size total : ℕ} {m : Image}

theorem exec_readByte (a : ℕ) (h : a < size) (h' : a < 65536) :
    (miniFsReadByte a).exec size m = some (m a, m) := by
  simp only [miniFsReadByte, miniFsRead, u16_of_lt h', Prog.exec_bind, Prog.exec,
    show a+1 ≤ size by omega, if_true, slice_one]
  rfl

theorem exec_write {fs : MiniFs} (hw : fs.writable = true) (a : ℕ) (data : List UInt8)
    (h : a+data.length ≤ size) (h' : a < 65536) (hd : data.length < 65536) :
    (miniFsWrite fs a data).exec size m = some (data.length, overwrite m a data) := by
  simp [miniFsWrite, hw, u16_of_lt h', Prog.exec, h, u16_of_lt hd]

theorem exec_writeByte {fs : MiniFs} (hw : fs.writable = true) (a x : ℕ)
    (h : a < size) (h' : a < 65536) :
    (miniFsWriteByte fs a x).exec size m = some ((), overwrite m a [UInt8.ofNat x]) := by
  rw [miniFsWriteByte, Prog.exec_bind_of _ _ _ _ _ _ (exec_write hw a _ (by simp; omega) h'
    (by simp))]
  rfl

section Slots

variable {slots : List ℕ} (h : Slots size m slots)
include h

theorem exec_factor (i : ℕ) (hi : i < slots.length) :
    (miniFsFileGetBaseOffsetFactorFromIndex i).exec size m = some (slots[i], m) := by
  have hl := h.length
  have hr := h.roomSlots
  rw [miniFsFileGetBaseOffsetFactorFromIndex, show MINIFSHEADERFILEBASEADDR = 2 from rfl,
    Prog.exec_bind_of _ _ _ _ _ _ (exec_readByte (2+i) (by omega) (by omega)), h.slot i hi]
  rfl

theorem exec_baseOffset (i : ℕ) (hi : i < slots.length) :
    (miniFsFileGetBaseOffsetFromIndex i).exec size m = some (128*slots[i], m) := by
  have hs := slot_lt h i hi
  rw [miniFsFileGetBaseOffsetFromIndex, Prog.exec_bind_of _ _ _ _ _ _ (exec_factor h i hi),
    show MINIFSFACTOR = 128 from rfl, u16_of_lt (by omega), Nat.mul_comm]
  rfl

theorem exec_slotEmpty (i : ℕ) (hi : i < slots.length) :
    (miniFsIsFileSlotEmpty i).exec size m = some (slots[i] == 0, m) := by
  have hl := h.length
  have hr := h.roomSlots
  rw [miniFsIsFileSlotEmpty, show MINIFSHEADERFILEBASEADDR = 2 from rfl,
    Prog.exec_bind_of _ _ _ _ _ _ (exec_readByte (2+i) (by omega) (by omega)), h.slot i hi]
  rfl

theorem exec_writeSlot {fs : MiniFs} (hw : fs.writable = true) (i x : ℕ) (hi : i < 126) :
    (miniFsWriteByte fs (MINIFSHEADERFILEBASEADDR+i) x).exec size m =
      some ((), overwrite m (2+i) [UInt8.ofNat x]) := by
  have hr := h.roomSlots
  exact exec_writeByte hw (2+i) x (by omega) (by omega)

end Slots

section Header

variable {slots : List ℕ} (h : Header size total m slots)
include h

theorem exec_totalMinusOne :
    miniFsGetTotalSizeFactorMinusOne.exec size m = some (total-1, m) := by
  have hr := h.room
  have ht := h.total_pos
  have hb := h.totalByte
  rw [miniFsGetTotalSizeFactorMinusOne, show MINIFSHEADERTOTALSIZEADDR = 1 from rfl,
    Prog.exec_bind_of _ _ _ _ _ _ (exec_readByte 1 (by omega) (by omega)),
    show (m 1).toNat = total-1 by omega]
  rfl

theorem exec_totalSize : miniFsGetTotalSize.exec size m = some (128*total, m) := by
  have ht := h.total_pos
  have hle := h.total_le
  rw [miniFsGetTotalSize, Prog.exec_bind_of _ _ _ _ _ _ (exec_totalMinusOne h),
    show MINIFSFACTOR = 128 from rfl, u16_of_lt (by omega), show total-1+1 = total by omega,
    Nat.mul_comm]
  rfl

end Header

end Reads

/-! ### Programs that read a file's fields -/

section Fields

variable {size total : ℕ} {m : Image} {f : File}

theorem region_room (hr : 128*total ≤ size) (hin : f.fin ≤ total) :
    128*f.off+f.totalLen ≤ size := by
  have hl := f.totalLen_le
  simp only [File.fin] at hin
  omega

variable (hf : FileAt m f) (hroom : 128*f.off+f.totalLen ≤ size) (hoff : f.off < 256)
include hf hroom hoff

theorem exec_fileTotalLength :
    (miniFsGetFileTotalLengthFromBaseOffset (128*f.off)).exec size m = some (f.totalLen, m) := by
  have hp := f.off_pos
  have ht : f.totalLen = 4+f.name.length+f.content.length := rfl
  rw [miniFsGetFileTotalLengthFromBaseOffset, miniFsFileGetLengthOffsetFromBaseOffset,
    if_neg (by omega),
    Prog.exec_bind_of _ _ _ _ _ _ (exec_readByte (128*f.off+0) (by omega) (by omega)),
    Prog.exec_bind_of _ _ _ _ _ _ (exec_readByte (128*f.off+1) (by omega) (by omega))]
  simp [hf.len]

theorem exec_fileSizeFactor :
    (miniFsFileGetSizeFactorFromBaseOffset (128*f.off)).exec size m =
      some (f.sizeFactor, m) := by
  have hp := f.off_pos
  have ht : f.totalLen = 4+f.name.length+f.content.length := rfl
  have ho : miniFsFileGetSizeFactorOffsetFromBaseOffset (128*f.off) = 128*f.off+2 := by
    rw [miniFsFileGetSizeFactorOffsetFromBaseOffset, if_neg (by omega), u16_of_lt (by omega)]
  rw [miniFsFileGetSizeFactorFromBaseOffset, ho, if_neg (by omega),
    Prog.exec_bind_of _ _ _ _ _ _ (exec_readByte (128*f.off+2) (by omega) (by omega)), hf.size]
  rfl

theorem exec_fileSize :
    (miniFsFileGetSizeFromBaseOffset (128*f.off)).exec size m =
      some (128*f.sizeFactor, m) := by
  have hp := f.sizeFactor_pos
  have hle := f.sizeFactor_le
  rw [miniFsFileGetSizeFromBaseOffset,
    Prog.exec_bind_of _ _ _ _ _ _ (exec_fileSizeFactor hf hroom hoff), if_neg (by omega),
    show MINIFSFACTOR = 128 from rfl, u16_of_lt (by omega), Nat.mul_comm]
  rfl

omit hf hroom in
theorem filenameOffset_eq :
    miniFsFileGetFilenameOffsetFromBaseOffset (128*f.off) = 128*f.off+3 := by
  have hp := f.off_pos
  rw [miniFsFileGetFilenameOffsetFromBaseOffset, if_neg (by omega), u16_of_lt (by omega)]

omit hroom hoff in
/-- The characters of the stored name, one by one. -/
theorem name_byte (i : ℕ) (hi : i < f.name.length+1) :
    m (128*f.off+3+i) = f.name.getChar i := by
  rw [CStr.getChar, ← hf.name, List.getD_eq_getElem?_getD, slice_getElem? _ _ _ _ hi]
  rfl

theorem exec_filenameLenLoop (i fuel : ℕ) (hi : i ≤ f.name.length)
    (hfuel : f.name.length-i < fuel) :
    (miniFsFileGetFilenameLenLoop (128*f.off+3) i fuel).exec size m =
      some (f.name.length, m) := by
  have ht : f.totalLen = 4+f.name.length+f.content.length := rfl
  have hn := f.name_lt
  induction fuel generalizing i with
  | zero => omega
  | succ fuel ih =>
    rw [miniFsFileGetFilenameLenLoop,
      Prog.exec_bind_of _ _ _ _ _ _ (exec_readByte (128*f.off+3+i) (by omega) (by omega)),
      name_byte hf i (by omega)]
    by_cases he : i = f.name.length
    · subst he
      simp [CStr.getChar_length]
    · have hne : f.name.getChar i ≠ 0 := by
        rw [CStr.getChar_getElem _ _ (by omega)]
        exact (f.name[i]).ne
      rw [if_neg hne]
      exact ih (i+1) (by omega) (by omega)

theorem exec_filenameLen :
    (miniFsFileGetFilenameLenFromBaseOffset (128*f.off)).exec size m =
      some (f.name.length, m) := by
  have hn := f.name_lt
  rw [miniFsFileGetFilenameLenFromBaseOffset, filenameOffset_eq hoff]
  exact exec_filenameLenLoop hf hroom hoff 0 65536 (by omega) (by omega)

theorem exec_contentOffset :
    (miniFsFileGetContentOffsetFromBaseOffset (128*f.off)).exec size m =
      some (f.contentAddr, m) := by
  have hn := f.name_lt
  rw [miniFsFileGetContentOffsetFromBaseOffset, filenameOffset_eq hoff, if_neg (by omega),
    Prog.exec_bind_of _ _ _ _ _ _ (exec_filenameLen hf hroom hoff), u16_of_lt (by omega),
    show 128*f.off+3+f.name.length+1 = f.contentAddr by simp only [File.contentAddr]; omega]
  rfl

theorem exec_contentLen :
    (miniFsFileGetContentLenFromBaseOffset (128*f.off)).exec size m =
      some (f.content.length, m) := by
  have ht := f.total_le
  rw [miniFsFileGetContentLenFromBaseOffset,
    Prog.exec_bind_of _ _ _ _ _ _ (exec_fileTotalLength hf hroom hoff),
    Prog.exec_bind_of _ _ _ _ _ _ (exec_contentOffset hf hroom hoff)]
  simp only [File.totalLen, File.contentAddr, Prog.exec_pure, Option.some.injEq, Prod.mk.injEq,
    and_true]
  rw [wrap16_of_lt (by omega) (by omega)]
  omega

/-- The comparison loop stops at the first difference or at the common end. -/
theorem exec_filenameMatches_from (i : ℕ) (rest : CStr) (hi : i ≤ f.name.length) :
    (miniFsFilenameMatches (128*f.off+3+i) rest.bytes).exec size m =
      some (decide (f.name.drop i = rest), m) := by
  have ht : f.totalLen = 4+f.name.length+f.content.length := rfl
  have hn := f.name_lt
  induction rest generalizing i with
  | nil =>
    rw [CStr.bytes_nil, miniFsFilenameMatches,
      Prog.exec_bind_of _ _ _ _ _ _ (exec_readByte (128*f.off+3+i) (by omega) (by omega)),
      name_byte hf i (by omega)]
    by_cases he : i = f.name.length
    · subst he
      simp [CStr.getChar_length]
    · have hne : f.name.getChar i ≠ 0 := by
        rw [CStr.getChar_getElem _ _ (by omega)]
        exact (f.name[i]).ne
      rw [if_pos hne]
      simp
      omega
  | cons c rest ih =>
    rw [CStr.bytes_cons, miniFsFilenameMatches,
      Prog.exec_bind_of _ _ _ _ _ _ (exec_readByte (128*f.off+3+i) (by omega) (by omega)),
      name_byte hf i (by omega)]
    by_cases he : i = f.name.length
    · subst he
      simp [CStr.getChar_length, c.ne.symm]
    · have hlt : i < f.name.length := by omega
      have hb := CStr.getChar_getElem f.name i hlt
      rw [hb, List.drop_eq_getElem_cons hlt]
      by_cases hc : f.name[i].val = c.val
      · rw [if_neg (by simpa using hc), if_neg (f.name[i]).ne, u16_of_lt (by omega), Nat.add_assoc,
          ih (i+1) (by omega)]
        simp [CStr.val_injective hc]
      · rw [if_pos hc]
        have hd : ¬ f.name[i]::f.name.drop (i+1) = c::rest :=
          fun e => hc (by rw [(List.cons.inj e).1])
        rw [decide_eq_false hd]
        rfl

theorem exec_filenameMatches (filename : CStr) :
    (miniFsFilenameMatches (128*f.off+3) filename.bytes).exec size m =
      some (decide (f.name = filename), m) := by
  have h := exec_filenameMatches_from hf hroom hoff 0 filename (by omega)
  simpa using h

end Fields

end ArduinoOS.Minifs
