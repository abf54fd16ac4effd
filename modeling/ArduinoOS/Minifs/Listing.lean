import ArduinoOS.Lib.Reading
import ArduinoOS.Minifs.Operations

/-!
# Looking at a volume

The queries only read, so they give the same on every device that shows the
volume. The files are listed in the order of their regions.
-/

set_option autoImplicit false

namespace ArduinoOS.Minifs
open ArduinoOS.ByteProgram ArduinoOS.Faulting

/-! ### Queries only read -/

theorem readOnly_readByte (addr : ℕ) : (miniFsReadByte addr).ReadOnly := fun _ _ => trivial

theorem readOnly_factor (index : ℕ) : (miniFsFileGetBaseOffsetFactorFromIndex index).ReadOnly :=
  Prog.readOnly_bind (readOnly_readByte _) fun _ => trivial

theorem readOnly_baseOffset (index : ℕ) : (miniFsFileGetBaseOffsetFromIndex index).ReadOnly :=
  Prog.readOnly_bind (readOnly_factor index) fun _ => trivial

theorem readOnly_isEmpty : miniFsIsEmpty.ReadOnly :=
  Prog.readOnly_bind (readOnly_readByte _) fun _ => trivial

theorem readOnly_filenameMatches (filenameOffset : ℕ) (name : List UInt8) :
    (miniFsFilenameMatches filenameOffset name).ReadOnly := by
  induction name generalizing filenameOffset with
  | nil => trivial
  | cons trueChar rest ih =>
    apply Prog.readOnly_bind (readOnly_readByte _)
    intro testChar
    split
    · trivial
    · split
      · trivial
      · exact ih _

theorem readOnly_filenameToIndexLoop (filename : CStr) (index fuel : ℕ) :
    (miniFsFilenameToIndexLoop filename index fuel).ReadOnly := by
  induction fuel generalizing index with
  | zero => trivial
  | succ fuel ih =>
    apply Prog.readOnly_bind (readOnly_baseOffset index)
    intro baseOffset
    split
    · trivial
    · apply Prog.readOnly_bind (readOnly_filenameMatches _ _)
      intro isMatch
      split
      · trivial
      · exact ih (index+1)

theorem readOnly_fileExists (filename : CStr) : (miniFsFileExists filename).ReadOnly :=
  Prog.readOnly_bind (readOnly_filenameToIndexLoop filename 0 _) fun _ => trivial

theorem readOnly_copyFilename (filenameOffset space : ℕ) :
    (miniFsCopyFilename filenameOffset space).ReadOnly := by
  induction space generalizing filenameOffset with
  | zero => trivial
  | succ space ih =>
    apply Prog.readOnly_bind (readOnly_readByte _)
    intro src
    split
    · exact Prog.readOnly_bind (ih _) fun _ => trivial
    · trivial

theorem readOnly_getChildN (childNum : ℕ) : (miniFsGetChildN childNum).ReadOnly := by
  apply Prog.readOnly_bind
  · rw [assert]
    split
    · trivial
    · trivial
  · intro _
    apply Prog.readOnly_bind (readOnly_baseOffset childNum)
    intro baseOffset
    split
    · trivial
    · exact Prog.readOnly_bind (readOnly_copyFilename _ _) fun _ => trivial

theorem readOnly_filenameLenLoop (filenameOffset filenameLen fuel : ℕ) :
    (miniFsFileGetFilenameLenLoop filenameOffset filenameLen fuel).ReadOnly := by
  induction fuel generalizing filenameLen with
  | zero => trivial
  | succ fuel ih =>
    apply Prog.readOnly_bind (readOnly_readByte _)
    intro c
    split
    · trivial
    · exact ih (filenameLen+1)

theorem readOnly_contentOffset (baseOffset : ℕ) :
    (miniFsFileGetContentOffsetFromBaseOffset baseOffset).ReadOnly := by
  rw [miniFsFileGetContentOffsetFromBaseOffset]
  split
  · trivial
  · exact Prog.readOnly_bind (readOnly_filenameLenLoop _ _ _) fun _ => trivial

theorem readOnly_totalLength (baseOffset : ℕ) :
    (miniFsGetFileTotalLengthFromBaseOffset baseOffset).ReadOnly := by
  rw [miniFsGetFileTotalLengthFromBaseOffset]
  split
  · trivial
  · apply Prog.readOnly_bind (readOnly_readByte _)
    intro hi
    exact Prog.readOnly_bind (readOnly_readByte _) fun _ => trivial

theorem readOnly_contentLen (baseOffset : ℕ) :
    (miniFsFileGetContentLenFromBaseOffset baseOffset).ReadOnly := by
  apply Prog.readOnly_bind (readOnly_totalLength baseOffset)
  intro total
  exact Prog.readOnly_bind (readOnly_contentOffset baseOffset) fun _ => trivial

theorem readOnly_fileRead (filename : CStr) (offset len : ℕ) :
    (miniFsFileRead filename offset len).ReadOnly := by
  apply Prog.readOnly_bind (readOnly_filenameToIndexLoop filename 0 _)
  intro r
  split
  · trivial
  · apply Prog.readOnly_bind (readOnly_contentLen _)
    intro fileLen
    split
    · trivial
    · apply Prog.readOnly_bind (readOnly_contentOffset _)
      intro contentOffset
      split
      · trivial
      · exact fun _ _ => trivial

/-! ### What the queries find -/

variable {size : ℕ} {m : Image}

/-- The name is copied up to its terminator, or as much as there is space for. -/
theorem exec_copyFilename (name : CStr) (addr space : ℕ) (hspace : name.length ≤ space)
    (hroom : addr+name.length+1 ≤ size) (haddr : addr+name.length+1 < 65536)
    (hname : slice m addr (name.length+1) = name.bytes) :
    (miniFsCopyFilename addr space).exec size m = some (name, m) := by
  induction name generalizing addr space with
  | nil =>
    have hzero : m addr = 0 := by simpa [CStr.bytes] using hname
    cases space with
    | zero => rfl
    | succ space =>
      rw [List.length_nil] at hroom haddr
      rw [miniFsCopyFilename, Prog.exec_bind_of _ _ _ _ _ _ (exec_readByte addr (by omega)
        (by omega)), hzero]
      rfl
  | cons c name ih =>
    rw [List.length_cons] at hspace hroom haddr
    obtain ⟨space, rfl⟩ : ∃ n, space = n+1 := ⟨space-1, by omega⟩
    rw [List.length_cons, slice_succ, CStr.bytes_cons, List.cons.injEq] at hname
    have hnext : u16 (addr+1) = addr+1 := u16_of_lt (by omega)
    rw [miniFsCopyFilename, Prog.exec_bind_of _ _ _ _ _ _ (exec_readByte addr (by omega) (by omega)),
      hname.1, dif_pos c.ne, hnext, Prog.exec_bind_of _ _ _ _ _ _
        (ih (addr+1) space (by omega) (by omega) (by omega) hname.2)]
    rfl

section Volume

variable {v : Volume} (h : Holds size m v)
include h

theorem exec_getChildN {i : ℕ} (hi : i < MINIFSMAXFILES) :
    (miniFsGetChildN i).exec size m = some (v.files[i]?.map File.name, m) := by
  have hassert : (assert (decide (i < MINIFSMAXFILES))).exec size m = some ((), m) := by
    rw [decide_eq_true hi]
    rfl
  have hmax : i < 126 := hi
  rw [miniFsGetChildN, Prog.exec_bind_of _ _ _ _ _ _ hassert, miniFsGetFilenameFromIndex]
  by_cases hend : v.files.length ≤ i
  · rw [Prog.exec_bind_of _ _ _ _ _ _ (exec_baseOffset_end h i hend hmax),
      List.getElem?_eq_none hend]
    rfl
  · have hlt : i < v.files.length := Nat.lt_of_not_le hend
    obtain ⟨f, hf⟩ : ∃ f, v.files[i]? = some f := ⟨_, List.getElem?_eq_getElem hlt⟩
    have hsplit : v.files = v.files.take i++f::v.files.drop (i+1) := by
      have hget : v.files[i] = f := by
        rw [List.getElem?_eq_getElem hlt] at hf
        exact Option.some.inj hf
      rw [← hget, List.getElem_cons_drop, List.take_append_drop]
    have hlen : (v.files.take i).length = i := by
      rw [List.length_take]
      omega
    have hbase := exec_baseOffset_file h (v.files.take i) (v.files.drop (i+1)) f hsplit
    rw [hlen] at hbase
    have hmem : f ∈ v.files := List.mem_of_getElem? hf
    have hroom := room_of_mem h f hmem
    have hoff := wf_off_byte v.wf f hmem
    have htotal : f.totalLen = 4+f.name.length+f.content.length := rfl
    have hname : f.name.length < 127 := f.name_lt
    have hpos := f.off_pos
    have haddr : miniFsFileGetFilenameOffsetFromBaseOffset (128*f.off) = 128*f.off+3 := by
      rw [miniFsFileGetFilenameOffsetFromBaseOffset, if_neg (by omega), u16_of_lt (by omega)]
    have hfin := f.totalLen_le
    have hcopy : (miniFsCopyFilename (128*f.off+3) (MiniFsPathMax-1)).exec size m =
        some (f.name, m) := by
      refine exec_copyFilename f.name _ _ ?_ (by omega) ?_ (h.files f hmem).name
      · rw [show MiniFsPathMax = 127 from rfl]
        omega
      · have hin := v.wf.inside f hmem
        have hblocks := v.wf.total_le
        have hfactor : f.fin = f.off+f.sizeFactor := rfl
        omega
    rw [Prog.exec_bind_of _ _ _ _ _ _ hbase, haddr, if_neg (by omega),
      Prog.exec_bind_of _ _ _ _ _ _ hcopy, hf]
    rfl

theorem exec_isEmpty : miniFsIsEmpty.exec size m = some (decide (v.files = []), m) := by
  cases hs : v.files with
  | nil => exact exec_slotEmpty_end h 0 (by simp [hs]) (by decide)
  | cons f rest => exact exec_slotEmpty_file h [] rest f hs

end Volume

end ArduinoOS.Minifs
