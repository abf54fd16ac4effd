import ArduinoOS.Minifs.Entry

/-!
# The file operations

Each operation, run on an image that holds a volume, either leaves the image
alone or ends in an image that holds the volume with one file inserted, removed
or replaced. No assertion fails and no access leaves the volume.
-/

set_option autoImplicit false

namespace ArduinoOS.Minifs
open ArduinoOS.ByteProgram

/-- `v'` is `v` with a new file of the requested length. -/
def Created (filename : CStr) (contentSize : ℕ) (v v' : Volume) : Prop :=
  v'.total = v.total ∧ ∃ pre post f, v.files = pre++post ∧ v'.files = pre++f::post ∧
    f.name = filename ∧ f.content.length = contentSize

def Deleted (filename : CStr) (v v' : Volume) : Prop :=
  v'.total = v.total ∧ ∃ pre post f, v.files = pre++f::post ∧ v'.files = pre++post ∧
    f.name = filename

/-- `v'` is `v` with `filename` given new content, perhaps in another place. -/
def Replaced (filename : CStr) (new : List UInt8 → List UInt8 → Prop) (v v' : Volume) : Prop :=
  v'.total = v.total ∧ ∃ pre post pre' post' f f', v.files = pre++f::post ∧
    v'.files = pre'++f'::post' ∧ pre++post = pre'++post' ∧ f.name = filename ∧
    f'.name = filename ∧ new f.content f'.content

/-- Content resized to `len`: the bytes both have are the same. -/
def SameStart (len : ℕ) (old new : List UInt8) : Prop :=
  new.length = len ∧ new.take (min old.length len) = old.take (min old.length len)

/-- Content overwritten from `offset` on, without growing. -/
def patch (old : List UInt8) (offset : ℕ) (data : List UInt8) : List UInt8 :=
  old.take offset++(data.take (old.length-offset)++
    old.drop (offset+(data.take (old.length-offset)).length))

theorem patch_length (old : List UInt8) (offset : ℕ) (data : List UInt8) :
    (patch old offset data).length = old.length := by
  simp [patch]
  omega

theorem patch_beyond (old : List UInt8) (offset : ℕ) (data : List UInt8)
    (h : old.length ≤ offset) : patch old offset data = old := by
  simp [patch, show old.length-offset = 0 by omega, List.take_of_length_le h,
    List.drop_of_length_le h]

section Operations

variable {size : ℕ} {m : Image} {v : Volume} (h : Holds size m v)

/-- One new file, the others as they were. -/
theorem fileAt_insert {total : ℕ} {m' : Image} {pre post : List File} {f : File}
    (hwf : WellFormed total (pre++f::post)) (hf : FileAt m' f)
    (hold : ∀ g ∈ pre++post, FileAt m g)
    (hframe : ∀ a, 128 ≤ a → a < 128*f.off ∨ 128*f.fin ≤ a → m' a = m a) :
    ∀ g ∈ pre++f::post, FileAt m' g := by
  have hs := wf_split hwf pre post f rfl
  intro g hg
  have hkeep : g ∈ pre++post → g.fin ≤ f.off ∨ f.fin ≤ g.off → FileAt m' g := by
    intro hg' hd
    have hp := g.off_pos
    have hl := g.totalLen_le
    refine fileAt_congr (hold g hg') (fun a h₁ h₂ => hframe a (by omega) ?_)
    simp only [File.fin] at hd ⊢
    omega
  rcases List.mem_append.mp hg with hg | hg
  · exact hkeep (List.mem_append_left _ hg) (Or.inl (hs.1 g hg))
  · rcases List.mem_cons.mp hg with rfl | hg
    · exact hf
    · exact hkeep (List.mem_append_right _ hg) (Or.inr (hs.2 g hg))

/-- The end of every operation that changes the header: once the slots are
those of the new files in some order, the sort and the check go through. -/
theorem exec_commit {fs : MiniFs} (hw : fs.writable = true) (v' : Volume) (slots : List ℕ)
    (hh : Header size v'.total m slots) (hp : slots.Perm (headerOf v'.files))
    (hf : ∀ f ∈ v'.files, FileAt m f) :
    ∃ m', (do
        miniFsResortFileOffsets fs
        let consistent ← miniFsIsConsistent
        assert consistent
        pure true : Prog Bool).exec size m = some (true, m') ∧ Holds size m' v' := by
  obtain ⟨m', hx, hs, hframe⟩ := exec_resortFileOffsets hw v'.wf m slots hh.toSlots hp
  have hholds : Holds size m' v' := by
    constructor
    · exact header_of_slots hh hs (fun a ha => hframe a (Or.inl ha))
    · intro f hm
      exact fileAt_header (hf f hm) (fun a ha => hframe a (Or.inr ha))
  refine ⟨m', ?_, hholds⟩
  rw [Prog.exec_bind_of _ _ _ _ _ _ hx, exec_assertConsistent hholds]
  rfl

include h

/-! ### Queries -/

theorem exec_fileExists (filename : CStr) :
    (miniFsFileExists filename).exec size m =
      some (decide (∃ f ∈ v.files, f.name = filename), m) := by
  rcases find_cases v filename with ha | ⟨pre, f, post, hs, hn⟩
  · rw [miniFsFileExists, Prog.exec_bind_of _ _ _ _ _ _ (exec_filenameToIndex_absent h filename ha),
      decide_eq_false (fun ⟨f, hf, hn⟩ => ha f hf hn)]
    rfl
  · have hcount := split_count pre post f hs
    rw [decide_eq_true ⟨f, by simp [hs], hn⟩, ← hn, miniFsFileExists,
      Prog.exec_bind_of _ _ _ _ _ _ (exec_filenameToIndex_found h pre post f hs)]
    have hne : (pre.length != MINIFSMAXFILES) = true := by
      rw [show MINIFSMAXFILES = 126 from rfl, bne_iff_ne]
      omega
    rw [hne]
    rfl

theorem exec_fileGetLen_found (pre post : List File) (f : File) (hs : v.files = pre++f::post) :
    (miniFsFileGetLen f.name).exec size m = some (f.content.length, m) := by
  have hf : f ∈ v.files := by simp [hs]
  rw [miniFsFileGetLen, Prog.exec_bind_of _ _ _ _ _ _ (exec_filenameToIndex_found h pre post f hs)]
  exact exec_contentLen (h.files f hf) (room_of_mem h f hf) (wf_off_byte v.wf f hf)

theorem exec_fileGetLen_absent (filename : CStr) (ha : ∀ f ∈ v.files, f.name ≠ filename) :
    (miniFsFileGetLen filename).exec size m = some (0, m) := by
  rw [miniFsFileGetLen, Prog.exec_bind_of _ _ _ _ _ _ (exec_filenameToIndex_absent h filename ha)]
  rfl

theorem exec_fileRead_absent (filename : CStr) (offset len : ℕ)
    (ha : ∀ f ∈ v.files, f.name ≠ filename) :
    (miniFsFileRead filename offset len).exec size m = some (([], 0), m) := by
  rw [miniFsFileRead, Prog.exec_bind_of _ _ _ _ _ _ (exec_filenameToIndex_absent h filename ha)]
  rfl

theorem exec_fileRead_found (pre post : List File) (f : File) (hs : v.files = pre++f::post)
    (offset len : ℕ) :
    (miniFsFileRead f.name offset len).exec size m =
      some (((f.content.drop offset).take len, ((f.content.drop offset).take len).length), m) := by
  have hf : f ∈ v.files := by simp [hs]
  have hcount := split_count pre post f hs
  have hroom := room_of_mem h f hf
  have hoff := wf_off_byte v.wf f hf
  have ht : f.totalLen = 4+f.name.length+f.content.length := rfl
  have hle := f.total_le
  have hca : f.contentAddr = 128*f.off+4+f.name.length := rfl
  rw [miniFsFileRead, Prog.exec_bind_of _ _ _ _ _ _ (exec_filenameToIndex_found h pre post f hs),
    show MINIFSMAXFILES = 126 from rfl, if_neg (by omega),
    Prog.exec_bind_of _ _ _ _ _ _ (exec_contentLen (h.files f hf) hroom hoff)]
  by_cases ho : offset ≥ f.content.length
  · rw [if_pos ho, List.drop_of_length_le ho]
    simp
  · rw [if_neg ho, Prog.exec_bind_of _ _ _ _ _ _ (exec_contentOffset (h.files f hf) hroom hoff),
      if_neg (by omega)]
    have hlen : (if len > f.content.length-offset then f.content.length-offset else len) =
        min len (f.content.length-offset) := by
      split
      · omega
      · omega
    have hslice : slice m (f.contentAddr+offset) (min len (f.content.length-offset)) =
        (f.content.drop offset).take len := by
      rw [← (h.files f hf).content, slice_drop, slice_take]
      simp
    dsimp only
    have hu : u16 (f.contentAddr+offset) = f.contentAddr+offset := by
      have hn := f.name_lt
      have hin := v.wf.inside f hf
      have htl := f.totalLen_le
      have hfin : f.fin = f.off+f.sizeFactor := rfl
      have hvt := v.wf.total_le
      exact u16_of_lt (by omega)
    rw [hlen, miniFsRead, hu]
    simp only [Prog.exec]
    rw [if_pos (by omega), hslice, Prog.exec_pure, u16_of_lt (by omega)]
    simp

/-! ### Creation and deletion -/

variable {fs : MiniFs} (hw : fs.writable = true)
include hw

theorem exec_fileCreate (filename : CStr) (contentSize : ℕ)
    (hb : 3+filename.length+1+contentSize ≤ 32640) :
    (miniFsFileCreate fs filename contentSize).exec size m = some (false, m) ∨
      ∃ m' v', (miniFsFileCreate fs filename contentSize).exec size m = some (true, m') ∧
        Holds size m' v' ∧ Created filename contentSize v v' := by
  have hlen : u16 filename.length = filename.length := u16_of_lt (by omega)
  have hro : miniFsGetReadOnly fs = false := by simp [miniFsGetReadOnly, hw]
  rw [miniFsFileCreate, hlen, show MiniFsPathMax = 127 from rfl, hro]
  by_cases hn : filename.length ≥ 127
  · rw [if_pos hn]
    exact Or.inl rfl
  rw [if_neg hn, if_neg (by simp), Prog.exec_bind_of _ _ _ _ _ _ (exec_fileExists h filename)]
  by_cases hex : ∃ f ∈ v.files, f.name = filename
  · rw [if_pos (decide_eq_true hex)]
    exact Or.inl rfl
  rw [if_neg (by simpa using hex), Prog.exec_bind_of _ _ _ _ _ _ (exec_getEmptyIndex h),
    show MINIFSMAXFILES = 126 from rfl]
  by_cases hfull : v.files.length = 126
  · rw [if_pos hfull]
    exact Or.inl rfl
  rw [if_neg hfull, u16_of_lt (show 3+filename.length+1+contentSize < 65536 by omega)]
  have hsf : miniFsGetSizeFactorForTotalLength (3+filename.length+1+contentSize) =
      (3+filename.length+1+contentSize+127)/128 := u8_of_lt (by simp [MINIFSFACTOR]; omega)
  dsimp only
  rw [hsf]
  have hfree := exec_findFreeRegionFactor h ((3+filename.length+1+contentSize+127)/128) (by omega)
  obtain ⟨r, hx, hr⟩ := hfree
  rw [Prog.exec_bind_of _ _ _ _ _ _ hx]
  by_cases hr0 : r = 0
  · rw [if_pos hr0]
    exact Or.inl rfl
  obtain ⟨pre, post, hs, hr1, hrt, hpre, hpost⟩ := hr.resolve_left (fun h => hr0 h.1)
  -- the new file keeps whatever bytes its region holds
  let f : File :=
    { off := r
      name := filename
      content := slice m (128*r+4+filename.length) contentSize
      off_pos := hr1
      name_lt := by omega
      total_le := by simp; omega }
  have htl : f.totalLen = 3+filename.length+1+contentSize := by
    simp [File.totalLen, f]
    omega
  have hfsf : f.sizeFactor = (3+filename.length+1+contentSize+127)/128 := by
    rw [File.sizeFactor, htl]
  have hffin : f.fin = r+(3+filename.length+1+contentSize+127)/128 := by
    rw [File.fin, hfsf]
  have hcount : (pre++post).length < 126 := by
    have hc := v.wf.count
    rw [← hs]
    omega
  have hwf : WellFormed v.total (pre++f::post) := by
    refine wf_insert (hs ▸ v.wf) hcount hpre ?_ ?_ ?_
    · rw [hffin]
      exact hpost
    · rw [hffin]
      exact hrt
    · intro g hg he
      exact hex ⟨g, by rw [hs]; exact hg, he⟩
  have hoff : f.off < 256 := wf_off_byte hwf f (by simp)
  have hroom : 128*f.off+f.totalLen ≤ size := region_room h.header.room (hwf.inside f (by simp))
  have hc := v.wf.count
  have hp := f.off_pos
  have hhead : Header size v.total (entry (overwrite m (2+v.files.length) [UInt8.ofNat r]) f)
      ((headerOf v.files).set v.files.length r) :=
    header_congr (header_set h.header v.files.length r hoff)
      (fun a ha => entry_outside _ _ _ (Or.inl (by omega)))
  have hfile : FileAt (entry (overwrite m (2+v.files.length) [UInt8.ofNat r]) f) f := by
    refine fileAt_entry _ f ?_
    rw [slice_overwrite_outside _ _ _ _ _ (Or.inr (by
      simp only [File.contentAddr, List.length_singleton]
      omega))]
    simp [f, File.contentAddr]
  have hall : ∀ g ∈ pre++f::post,
      FileAt (entry (overwrite m (2+v.files.length) [UInt8.ofNat r]) f) g := by
    refine fileAt_insert hwf hfile (fun g hg => h.files g (hs ▸ hg)) ?_
    intro a ha hout
    have htle := f.totalLen_le
    have hft : f.totalLen = 4+f.name.length+f.content.length := rfl
    rw [entry_outside _ _ _ (by simp only [File.fin, File.contentAddr] at hout ⊢; omega),
      overwrite_one_ne _ _ _ _ (by omega)]
  obtain ⟨m', hxc, hholds⟩ := exec_commit hw ⟨v.total, pre++f::post, hwf⟩ _ hhead
    (by rw [hs]; exact headerOf_set_end pre post f hcount) hall
  refine Or.inr ⟨m', ⟨v.total, pre++f::post, hwf⟩, ?_, hholds, rfl, pre, post, f, hs, rfl, rfl,
    by simp [f]⟩
  rw [if_neg hr0, Prog.exec_bind_of _ _ _ _ _ _
      (exec_writeSlot h.header.toSlots hw v.files.length r (by omega)),
    show MINIFSFACTOR = 128 from rfl, Nat.mul_comm r 128,
    u16_of_lt (show 128*r < 65536 by simp only [f] at hoff; omega), ← hfsf, ← htl]
  exact (exec_entry hw _ f hoff hroom _).trans hxc

theorem exec_fileDelete (filename : CStr) :
    ((∀ f ∈ v.files, f.name ≠ filename) ∧
        (miniFsFileDelete fs filename).exec size m = some (false, m)) ∨
      ∃ m' v', (miniFsFileDelete fs filename).exec size m = some (true, m') ∧
        Holds size m' v' ∧ Deleted filename v v' := by
  have hro : miniFsGetReadOnly fs = false := by simp [miniFsGetReadOnly, hw]
  rw [miniFsFileDelete, hro, if_neg (by simp)]
  rcases find_cases v filename with ha | ⟨pre, f, post, hs, rfl⟩
  · rw [Prog.exec_bind_of _ _ _ _ _ _ (exec_filenameToIndex_absent h filename ha)]
    exact Or.inl ⟨ha, rfl⟩
  · have hcount := split_count pre post f hs
    have hwf : WellFormed v.total (pre++post) := wf_remove (hs ▸ v.wf)
    have hhead := header_set h.header pre.length 0 (by decide)
    have hall : ∀ g ∈ pre++post, FileAt (overwrite m (2+pre.length) [UInt8.ofNat 0]) g := by
      intro g hg
      have hg' : g ∈ v.files := by
        rw [hs]
        exact (List.sublist_cons_self f post).append_left pre |>.subset hg
      exact fileAt_header (h.files g hg') (fun a ha => overwrite_one_ne _ _ _ _ (by omega))
    obtain ⟨m', hxc, hholds⟩ := exec_commit hw ⟨v.total, pre++post, hwf⟩ _ hhead
      (by rw [hs]; exact headerOf_clear pre post f (by simp; omega)) hall
    refine Or.inr ⟨m', ⟨v.total, pre++post, hwf⟩, ?_, hholds, rfl, pre, post, f, hs, rfl, rfl⟩
    rw [Prog.exec_bind_of _ _ _ _ _ _ (exec_filenameToIndex_found h pre post f hs),
      show MINIFSMAXFILES = 126 from rfl, if_neg (by omega), miniFsClearFileForIndex,
      show MINIFSFILEOFFSETINVALID = 0 from rfl,
      Prog.exec_bind_of _ _ _ _ _ _ (exec_writeSlot h.header.toSlots hw pre.length 0 (by omega))]
    exact hxc

/-! ### Writing -/

theorem exec_fileWrite_absent (filename : CStr) (offset : ℕ) (data : List UInt8)
    (ha : ∀ f ∈ v.files, f.name ≠ filename) :
    (miniFsFileWrite fs filename offset data).exec size m = some (0, m) := by
  have hro : miniFsGetReadOnly fs = false := by simp [miniFsGetReadOnly, hw]
  rw [miniFsFileWrite, hro, if_neg (by simp),
    Prog.exec_bind_of _ _ _ _ _ _ (exec_filenameToIndex_absent h filename ha)]
  rfl

theorem exec_fileWrite_found (pre post : List File) (f : File) (hs : v.files = pre++f::post)
    (offset : ℕ) (data : List UInt8) :
    ∃ m' v', (miniFsFileWrite fs f.name offset data).exec size m =
        some (min data.length (f.content.length-offset), m') ∧ Holds size m' v' ∧
      Replaced f.name (fun old new => new = patch old offset data) v v' := by
  have hro : miniFsGetReadOnly fs = false := by simp [miniFsGetReadOnly, hw]
  have hf : f ∈ v.files := by simp [hs]
  have hcount := split_count pre post f hs
  have hroom := room_of_mem h f hf
  have hoff := wf_off_byte v.wf f hf
  have ht : f.totalLen = 4+f.name.length+f.content.length := rfl
  have hle := f.total_le
  have hn := f.name_lt
  have hca : f.contentAddr = 128*f.off+4+f.name.length := rfl
  have hbound : f.contentAddr+f.content.length < 65536 := by
    have hin := v.wf.inside f hf
    have htl := f.totalLen_le
    have hfin : f.fin = f.off+f.sizeFactor := rfl
    have hvt := v.wf.total_le
    omega
  have hrun : ∀ m', m' = overwrite m (f.contentAddr+offset)
      (data.take (f.content.length-offset)) →
      (miniFsFileWrite fs f.name offset data).exec size m =
        some (min data.length (f.content.length-offset), m') := by
    rintro m' rfl
    rw [miniFsFileWrite, hro, if_neg (by simp),
      Prog.exec_bind_of _ _ _ _ _ _ (exec_filenameToIndex_found h pre post f hs),
      show MINIFSMAXFILES = 126 from rfl, if_neg (by omega),
      Prog.exec_bind_of _ _ _ _ _ _ (exec_contentLen (h.files f hf) hroom hoff)]
    by_cases ho : offset ≥ f.content.length
    · rw [if_pos ho, show f.content.length-offset = 0 by omega]
      simp
    · have hdata : (if data.length > f.content.length-offset then
          data.take (f.content.length-offset) else data) =
          data.take (f.content.length-offset) := by
        split
        · rfl
        · exact (List.take_of_length_le (by omega)).symm
      rw [if_neg ho, Prog.exec_bind_of _ _ _ _ _ _ (exec_contentOffset (h.files f hf) hroom hoff),
        if_neg (by omega), hdata]
      rw [exec_write hw _ _ (by simp; omega) (by omega) (by simp; omega), List.length_take,
        Nat.min_comm]
  let f' : File :=
    { off := f.off
      name := f.name
      content := patch f.content offset data
      off_pos := f.off_pos
      name_lt := f.name_lt
      total_le := by rw [patch_length]; exact f.total_le }
  have hlen : f'.content.length = f.content.length := patch_length _ _ _
  have htl : f'.totalLen = f.totalLen := by rw [File.totalLen, hlen]; rfl
  have hsf : f'.sizeFactor = f.sizeFactor := by rw [File.sizeFactor, htl]; rfl
  have hfin : f'.fin = f.fin := by rw [File.fin, hsf]; rfl
  have hwf₀ : WellFormed v.total (pre++f::post) := hs ▸ v.wf
  have hwf : WellFormed v.total (pre++f'::post) := by
    refine wf_replace hwf₀ f' rfl rfl ?_ ?_
    · rw [hfin]
      exact (wf_split v.wf pre post f hs).2
    · rw [hfin]
      exact v.wf.inside f hf
  refine ⟨_, ⟨v.total, pre++f'::post, hwf⟩, hrun _ rfl, ?_, rfl, pre, post, pre, post, f, f', hs,
    rfl, rfl, rfl, rfl, rfl⟩
  -- only content bytes of the file change
  have hframe : ∀ a, a < f.contentAddr ∨ 128*f.fin ≤ a →
      overwrite m (f.contentAddr+offset) (data.take (f.content.length-offset)) a = m a := by
    intro a ha
    have htl' := f.totalLen_le
    have hfin' : f.fin = f.off+f.sizeFactor := rfl
    by_cases ho : f.content.length ≤ offset
    · rw [show f.content.length-offset = 0 by omega]
      simp
    · exact overwrite_outside _ _ _ _ (by simp; omega)
  constructor
  · have hp := f.off_pos
    dsimp only
    rw [headerOf_replace pre post f f' rfl, ← hs]
    exact header_congr h.header (fun a ha => hframe a (by omega))
  · refine fileAt_insert hwf ?_ (fun g hg => h.files g ?_) ?_
    · have hfat := h.files f hf
      constructor
      · rw [htl, ← hfat.len, hframe _ (Or.inl (by simp [f', hca]; omega)),
          hframe _ (Or.inl (by simp [f', hca]; omega))]
      · rw [hsf, ← hfat.size, hframe _ (Or.inl (by simp [f', hca]; omega))]
      · refine (slice_congr _ _ _ _ (fun a h₁ h₂ => hframe a (Or.inl ?_))).trans hfat.name
        simp only [f'] at h₂
        omega
      · rw [hlen]
        by_cases ho : f.content.length ≤ offset
        · simp only [show f.content.length-offset = 0 by omega, List.take_zero, overwrite_nil]
          exact hfat.content.trans (patch_beyond _ _ _ ho).symm
        · refine (slice_overwrite_within m f.contentAddr f.content.length offset _
            (by simp; omega)).trans ?_
          rw [hfat.content]
          rfl
    · rw [hs]
      exact (List.sublist_cons_self f post).append_left pre |>.subset hg
    · intro a _ hout
      have hlow : 128*f.off ≤ f.contentAddr := by omega
      rw [hfin] at hout
      exact hframe a (hout.imp (fun ha => lt_of_lt_of_le ha hlow) id)

end Operations

end ArduinoOS.Minifs
