import ArduinoOS.Minifs.Operations

/-!
# Resizing a file

The four paths of a resize: shrinking, growing into the spare bytes of the last
block, growing up to the next region, and moving to a free region. The first
three keep the file in its place.
-/

set_option autoImplicit false

namespace ArduinoOS.Minifs
open ArduinoOS.ByteProgram

/-- `f` with the first `len` bytes that the image holds at its content address. -/
def File.resized (f : File) (m : Image) (len : ℕ) (h : 4+f.name.length+len ≤ 32640) : File :=
  { off := f.off
    name := f.name
    content := slice m f.contentAddr len
    off_pos := f.off_pos
    name_lt := f.name_lt
    total_le := by simpa using h }

theorem sameStart_resized {m : Image} {f : File} (h : FileAt m f) (len : ℕ) :
    SameStart len f.content (slice m f.contentAddr len) := by
  refine ⟨slice_length _ _ _, ?_⟩
  have he : f.content.take (min f.content.length len) =
      (slice m f.contentAddr f.content.length).take (min f.content.length len) := by
    rw [h.content]
  rw [he, slice_take, slice_take]
  congr 1
  omega

/-! ### The setters of a region's length and size -/

section Setters

variable {size : ℕ} {m : Image} {fs : MiniFs} (hw : fs.writable = true)
  {pre post : List File} {f : File} (hs : Slots size m (headerOf (pre++f::post)))
  (f' : File) (ho : f'.off = f.off) (hroom : 128*f'.off+f'.totalLen ≤ size)
include hs

theorem exec_baseOffset_slots :
    (miniFsFileGetBaseOffsetFromIndex pre.length).exec size m = some (128*f.off, m) := by
  have hx := exec_baseOffset hs pre.length (by simp [headerOf])
  rwa [headerOf_file] at hx

include hw ho hroom

theorem exec_setFileTotalLength (hoff : f.off < 256) :
    (miniFsSetFileTotalLengthForIndex fs pre.length f'.totalLen).exec size m =
      some ((), withLength m f') := by
  have hp := f.off_pos
  have ht : f'.totalLen = 4+f'.name.length+f'.content.length := rfl
  have hne : (128*f.off != 0) = true := by
    rw [bne_iff_ne]
    omega
  have hget : (miniFsFileGetLengthOffsetFromIndex pre.length).exec size m =
      some (128*f.off, m) := by
    rw [miniFsFileGetLengthOffsetFromIndex,
      Prog.exec_bind_of _ _ _ _ _ _ (exec_baseOffset_slots hs)]
    rfl
  rw [miniFsSetFileTotalLengthForIndex, Prog.exec_bind_of _ _ _ _ _ _ hget, hne,
    Prog.exec_bind_of _ _ _ _ _ () rfl,
    Prog.exec_bind_of _ _ _ _ _ _ (exec_writeByte hw _ _ (by omega) (by omega)),
    exec_writeByte hw _ _ (by omega) (by omega), withLength, ho]
  rfl

theorem exec_setFileSizeFactor (hoff : f.off < 256) :
    (miniFsSetFileSizeFactorForIndex fs pre.length f'.sizeFactor).exec size m =
      some ((), overwrite m (128*f'.off+2) [UInt8.ofNat f'.sizeFactor]) := by
  have hp := f.off_pos
  have ht : f'.totalLen = 4+f'.name.length+f'.content.length := rfl
  have hne : (128*f.off+2 != 0) = true := by
    rw [bne_iff_ne]
    omega
  have hoffset : miniFsFileGetSizeFactorOffsetFromBaseOffset (128*f.off) = 128*f.off+2 := by
    rw [miniFsFileGetSizeFactorOffsetFromBaseOffset, if_neg (by omega), u16_of_lt (by omega)]
  have hget : (miniFsFileGetSizeFactorOffsetFromIndex pre.length).exec size m =
      some (128*f.off+2, m) := by
    rw [miniFsFileGetSizeFactorOffsetFromIndex,
      Prog.exec_bind_of _ _ _ _ _ _ (exec_baseOffset_slots hs), hoffset]
    rfl
  rw [miniFsSetFileSizeFactorForIndex, Prog.exec_bind_of _ _ _ _ _ _ hget, hne,
    Prog.exec_bind_of _ _ _ _ _ () rfl, exec_writeByte hw _ _ (by omega) (by omega), ho]

end Setters

theorem exec_contentLenFromIndex {size : ℕ} {m₁ : Image} {pre post : List File} {f : File}
    (hs : Slots size m₁ (headerOf (pre++f::post))) (hf : FileAt m₁ f)
    (hroom : 128*f.off+f.totalLen ≤ size) (hoff : f.off < 256) :
    (miniFsFileGetContentLenFromIndex pre.length).exec size m₁ =
      some (f.content.length, m₁) := by
  rw [miniFsFileGetContentLenFromIndex, Prog.exec_bind_of _ _ _ _ _ _ (exec_baseOffset_slots hs)]
  exact exec_contentLen hf hroom hoff

theorem sizeFactorForTotalLength (f : File) :
    miniFsGetSizeFactorForTotalLength f.totalLen = f.sizeFactor := by
  have hle := f.sizeFactor_le
  simp only [File.sizeFactor] at hle
  rw [miniFsGetSizeFactorForTotalLength, show MINIFSFACTOR = 128 from rfl,
    show f.totalLen+128-1 = f.totalLen+127 by omega, u8_of_lt (by omega)]
  rfl

theorem resized_totalLen (f : File) (m : Image) (len : ℕ) (hb : 4+f.name.length+len ≤ 32640) :
    (f.resized m len hb).totalLen = 4+f.name.length+len := by
  simp [File.totalLen, File.resized]

theorem resized_off (f : File) (m : Image) (len : ℕ) (hb : 4+f.name.length+len ≤ 32640) :
    (f.resized m len hb).off = f.off := rfl

/-- A gap stays one when a file is taken out, and does not meet that file. -/
theorem gap_remove {total sf r : ℕ} {pre post : List File} {f : File}
    (h : Gap total sf (pre++f::post) r) :
    Gap total sf (pre++post) r ∧ (f.fin ≤ r ∨ r+sf ≤ f.off) := by
  obtain ⟨p, q, he, h₁, ht, hp, hq⟩ := h
  rcases List.append_eq_append_iff.mp he with ⟨as, rfl, hfq⟩ | ⟨bs, rfl, rfl⟩
  · cases as with
    | nil =>
      simp only [List.nil_append] at hfq
      subst hfq
      exact ⟨⟨pre, post, rfl, h₁, ht, fun g hg => hp g (by simp [hg]),
        fun g hg => hq g (by simp [hg])⟩, Or.inr (hq f (by simp))⟩
    | cons a as =>
      obtain ⟨rfl, rfl⟩ := List.cons.inj hfq
      refine ⟨⟨pre++as, q, by simp, h₁, ht, fun g hg => hp g ?_, hq⟩, Or.inl (hp f (by simp))⟩
      exact (List.sublist_cons_self f as).append_left pre |>.subset hg
  · exact ⟨⟨p, bs++post, by simp, h₁, ht, hp, fun g hg => hq g
      ((List.sublist_cons_self f post).append_left bs |>.subset hg)⟩, Or.inr (hq f (by simp))⟩

section Resize

variable {size : ℕ} {m : Image} {v : Volume} (h : Holds size m v)
include h

/-- A file resized in place is one whose new region still ends in time. -/
theorem holds_resized (pre post : List File) (f : File) (hs : v.files = pre++f::post) (len : ℕ)
    (hb : 4+f.name.length+len ≤ 32640) (m' : Image)
    (hpost : ∀ g ∈ post, (f.resized m len hb).fin ≤ g.off)
    (hin : (f.resized m len hb).fin ≤ v.total)
    (hm : m' = withSize m (f.resized m len hb) ∨ m' = withLength m (f.resized m len hb) ∧
      (f.resized m len hb).sizeFactor = f.sizeFactor) :
    ∃ v', Holds size m' v' ∧ Replaced f.name (SameStart len) v v' := by
  have hfat := fileAt_of_split h pre post f hs
  have hwf₀ : WellFormed v.total (pre++f::post) := hs ▸ v.wf
  have hwf : WellFormed v.total (pre++f.resized m len hb::post) :=
    wf_replace hwf₀ _ rfl rfl hpost hin
  have hp := f.off_pos
  have hframe : ∀ a, a < 128*f.off ∨ 128*f.off+3 ≤ a → m' a = m a := by
    intro a ha
    rcases hm with rfl | ⟨rfl, _⟩
    · exact withSize_outside m (f.resized m len hb) a ha
    · exact withLength_outside m (f.resized m len hb) a (ha.imp id (fun h => by
        simp only [File.resized]
        omega))
  have hfile : FileAt m' (f.resized m len hb) := by
    refine fileAt_resized hfat rfl rfl ?_ ?_ (fun a ha => hframe a (Or.inr ha)) ?_
    · rcases hm with rfl | ⟨rfl, _⟩
      · exact withSize_len m _
      · exact withLength_len m _
    · rcases hm with rfl | ⟨rfl, hsf⟩
      · exact withSize_size m _
      · rw [withLength_outside _ _ _ (Or.inr (by omega)), hsf]
        exact hfat.size
    · simp [File.resized, File.contentAddr]
  refine ⟨⟨v.total, pre++f.resized m len hb::post, hwf⟩, ⟨?_, ?_⟩, rfl, pre, post, pre, post, f,
    f.resized m len hb, hs, rfl, rfl, rfl, rfl, sameStart_resized hfat len⟩
  · dsimp only
    rw [headerOf_replace pre post f (f.resized m len hb) rfl, ← hs]
    exact header_congr h.header (fun a ha => hframe a (by omega))
  · refine fileAt_insert hwf hfile (fun g hg => h.files g ?_) ?_
    · rw [hs]
      exact (List.sublist_cons_self f post).append_left pre |>.subset hg
    · intro a _ hout
      have hsf := (f.resized m len hb).sizeFactor_pos
      have hro : (f.resized m len hb).off = f.off := rfl
      simp only [File.fin, hro] at hout
      exact hframe a (by omega)

/-! ### The paths that keep the place -/

variable {fs : MiniFs} (hw : fs.writable = true)
include hw

/-- A shrunk file ends no later than before. -/
theorem exec_fileShrink (pre post : List File) (f : File) (hs : v.files = pre++f::post) (len : ℕ)
    (hlen : len ≤ f.content.length) :
    ∃ m' v', (miniFsFileShrink fs pre.length (128*f.off) f.content.length len).exec size m =
        some (true, m') ∧ Holds size m' v' ∧ Replaced f.name (SameStart len) v v' := by
  have hf : f ∈ v.files := by simp [hs]
  have hfat := h.files f hf
  have hroom := room_of_mem h f hf
  have hoff := wf_off_byte v.wf f hf
  have ht : f.totalLen = 4+f.name.length+f.content.length := rfl
  have hle := f.total_le
  have hb : 4+f.name.length+len ≤ 32640 := by omega
  have htl := resized_totalLen f m len hb
  have hfin : (f.resized m len hb).fin ≤ f.fin := by
    simp only [File.fin, File.sizeFactor, htl, ht, resized_off]
    omega
  obtain ⟨v', hholds, hrep⟩ := holds_resized h pre post f hs len hb _
    (fun g hg => le_trans hfin ((wf_split v.wf pre post f hs).2 g hg))
    (le_trans hfin (v.wf.inside f hf)) (Or.inl rfl)
  have hnew : wrap16 ((f.totalLen:ℤ)-((f.content.length:ℤ)-len)) =
      (f.resized m len hb).totalLen := by
    rw [wrap16_of_lt (by omega) (by omega), htl]
    omega
  have hroom' : 128*(f.resized m len hb).off+(f.resized m len hb).totalLen ≤ size := by
    rw [htl, resized_off]
    omega
  have hslots : Slots size m (headerOf (pre++f::post)) := hs ▸ h.header.toSlots
  have hslots' : Slots size (withLength m (f.resized m len hb)) (headerOf (pre++f::post)) := by
    have hp := f.off_pos
    exact slots_congr hslots (fun a ha => withLength_outside _ _ _ (Or.inl (by
      rw [resized_off]
      omega)))
  refine ⟨_, v', ?_, hholds, hrep⟩
  rw [miniFsFileShrink, Prog.exec_bind_of _ _ _ _ _ _ (exec_fileTotalLength hfat hroom hoff)]
  dsimp only
  rw [hnew, Prog.exec_bind_of _ _ _ _ _ _
      (exec_setFileTotalLength hw hslots (f.resized m len hb) rfl hroom' hoff),
    sizeFactorForTotalLength, Prog.exec_bind_of _ _ _ _ _ _
      (exec_setFileSizeFactor hw hslots' (f.resized m len hb) rfl hroom' hoff)]
  exact (exec_assertConsistent hholds _).trans rfl

/-! ### The move -/

theorem exec_fileMove (pre post : List File) (f : File) (hs : v.files = pre++f::post) (len : ℕ)
    (hb : 4+f.name.length+len ≤ 32640) (hlen : f.content.length ≤ len) :
    (miniFsFileMove fs f.name pre.length (128*f.off) (4+f.name.length+len)
        ((4+f.name.length+len+127)/128)).exec size m = some (false, m) ∨
      ∃ m' v', (miniFsFileMove fs f.name pre.length (128*f.off) (4+f.name.length+len)
          ((4+f.name.length+len+127)/128)).exec size m = some (true, m') ∧
        Holds size m' v' ∧ Replaced f.name (SameStart len) v v' := by
  obtain ⟨r, hx, hr⟩ := exec_findFreeRegionFactor h ((4+f.name.length+len+127)/128) (by omega)
  rw [miniFsFileMove, Prog.exec_bind_of _ _ _ _ _ _ hx]
  by_cases hr0 : r = 0
  · rw [if_pos hr0]
    exact Or.inl rfl
  have hgap := hr.resolve_left (fun h => hr0 h.1)
  rw [hs] at hgap
  obtain ⟨⟨pre', post', hsplit, hr1, hrt, hpre, hpost⟩, hapart⟩ := gap_remove hgap
  have hlen16 : u16 f.name.length = f.name.length := u16_of_lt (by omega)
  -- beyond the old content the new one is whatever the region holds
  let F : File :=
    { off := r
      name := f.name
      content := f.content++slice m (128*r+4+f.name.length+f.content.length)
        (len-f.content.length)
      off_pos := hr1
      name_lt := f.name_lt
      total_le := by simp; omega }
  have hFlen : F.content.length = f.content.length+(len-f.content.length) := by simp [F]
  have htl : F.totalLen = 4+f.name.length+len := by
    rw [File.totalLen, hFlen]
    simp only [F]
    omega
  have hsf : F.sizeFactor = (4+f.name.length+len+127)/128 := by rw [File.sizeFactor, htl]
  have hfin : F.fin = r+(4+f.name.length+len+127)/128 := by rw [File.fin, hsf]
  have hFoff : F.off = r := rfl
  have hFca : F.contentAddr = 128*r+4+f.name.length := rfl
  have hwf₀ : WellFormed v.total (pre++f::post) := hs ▸ v.wf
  have hwf : WellFormed v.total (pre'++F::post') := by
    have hcount := split_count pre post f hs
    refine wf_insert (hsplit ▸ wf_remove hwf₀) ?_ hpre ?_ ?_ ?_
    · rw [← hsplit, List.length_append]
      omega
    · rw [hfin]
      exact hpost
    · rw [hfin]
      exact hrt
    · have hothers := wf_others hwf₀
      rw [← hsplit]
      exact hothers
  have hf : f ∈ v.files := by simp [hs]
  have hroom := room_of_mem h f hf
  have hoff := wf_off_byte v.wf f hf
  have hp := f.off_pos
  have hFp := F.off_pos
  have hFb := wf_off_byte hwf F (by simp)
  have hFroom : 128*F.off+F.totalLen ≤ size := region_room h.header.room (hwf.inside F (by simp))
  have hca : f.contentAddr = 128*f.off+4+f.name.length := rfl
  have htf : f.totalLen = 4+f.name.length+f.content.length := rfl
  have hfle := f.totalLen_le
  have hFle := F.totalLen_le
  have hffin : f.fin = f.off+f.sizeFactor := rfl
  have hcount := split_count pre post f hs
  -- the regions of the file and its copy do not meet
  have hdisj : 128*f.off+128*f.sizeFactor ≤ 128*r ∨ 128*r+128*F.sizeFactor ≤ 128*f.off := by
    omega
  have hhead₁ : Header size v.total (entry m F) (headerOf v.files) :=
    header_congr h.header (fun a ha => entry_outside _ _ a (Or.inl (by omega)))
  have hslots₁ : Slots size (entry m F) (headerOf (pre++f::post)) := hs ▸ hhead₁.toSlots
  have hf₁ : FileAt (entry m F) f :=
    fileAt_congr (h.files f hf) (fun a h₁ h₂ => entry_outside m F a (by omega))
  obtain ⟨m₂, hxc, hcopy, hframe⟩ := @exec_copyContent size fs hw F.contentAddr f.contentAddr 0
    f.content.length (entry m F) (by omega) (by omega) (by omega) (by omega) (by omega)
  have hhead₂ : Header size v.total m₂ (headerOf v.files) :=
    header_congr hhead₁ (fun a ha => hframe a (Or.inl (by omega)))
  have hhead₃ := header_set hhead₂ pre.length r (by omega)
  have hfile : FileAt (overwrite m₂ (2+pre.length) [UInt8.ofNat r]) F := by
    refine fileAt_of_entry m _ F ?_ ?_
    · intro a h₁ h₂
      rw [overwrite_one_ne _ _ _ _ (by omega), hframe a (Or.inl (by omega))]
    · rw [hFlen, slice_add]
      congr 1
      · rw [← hf₁.content]
        simp only [slice_length]
        refine slice_shift _ _ _ _ _ (fun i hi => ?_)
        rw [overwrite_one_ne _ _ _ _ (by omega), hcopy i (by omega) (by omega)]
      · refine slice_congr _ _ _ _ (fun a h₁ _ => ?_)
        rw [overwrite_one_ne _ _ _ _ (by omega), hframe a (Or.inr (by omega)),
          entry_outside _ _ _ (Or.inr (by omega))]
  have hall : ∀ g ∈ pre'++F::post',
      FileAt (overwrite m₂ (2+pre.length) [UInt8.ofNat r]) g := by
    refine fileAt_insert (m := m) hwf hfile (fun g hg => h.files g ?_) ?_
    · rw [← hsplit] at hg
      rw [hs]
      exact (List.sublist_cons_self f post).append_left pre |>.subset hg
    · intro a ha hout
      have htF : F.totalLen = 4+f.name.length+F.content.length := rfl
      rw [overwrite_one_ne _ _ _ _ (by omega), hframe a (by omega),
        entry_outside _ _ _ (by omega)]
  obtain ⟨m', hxm, hholds⟩ := exec_commit hw ⟨v.total, pre'++F::post', hwf⟩ _ hhead₃ (by
    rw [hs]
    refine (headerOf_set_file pre post f r).trans ?_
    rw [hsplit]
    exact (headerOf_perm pre' post' F).symm) hall
  refine Or.inr ⟨m', ⟨v.total, pre'++F::post', hwf⟩, ?_, hholds, rfl, pre, post, pre', post', f, F,
    hs, rfl, hsplit, rfl, rfl, ?_, ?_⟩
  · rw [if_neg hr0, show MINIFSFACTOR = 128 from rfl, Nat.mul_comm r 128,
      u16_of_lt (show 128*r < 65536 by omega), hlen16, ← hsf, ← htl]
    refine (exec_entry hw m F hFb hFroom _).trans ?_
    rw [Prog.exec_bind_of _ _ _ _ _ _ (exec_contentOffset hf₁ hroom hoff),
      Prog.exec_bind_of _ _ _ _ _ _ (exec_contentLenFromIndex hslots₁ hf₁ hroom hoff),
      show 128*r+3+f.name.length+1 = F.contentAddr by omega,
      Prog.exec_bind_of _ _ _ _ _ _ hxc,
      Prog.exec_bind_of _ _ _ _ _ _ (exec_writeSlot hhead₂.toSlots hw pre.length r (by omega))]
    exact hxm
  · rw [hFlen]
    omega
  · simp only [F]
    rw [show min f.content.length len = f.content.length by omega]
    simp

/-! ### Growth and the whole operation -/

/-- Growth with `room` free blocks from the file's offset on. -/
theorem exec_fileExtend (pre post : List File) (f : File) (hs : v.files = pre++f::post)
    (len room : ℕ) (hb : 4+f.name.length+len ≤ 32640) (hlen : f.content.length ≤ len)
    (hpost : ∀ g ∈ post, f.off+room ≤ g.off) (hend : f.off+room ≤ v.total) :
    (miniFsFileExtend fs f.name pre.length (128*f.off) (4+f.name.length+len)
        ((4+f.name.length+len+127)/128) room).exec size m = some (false, m) ∨
      ∃ m' v', (miniFsFileExtend fs f.name pre.length (128*f.off) (4+f.name.length+len)
          ((4+f.name.length+len+127)/128) room).exec size m = some (true, m') ∧
        Holds size m' v' ∧ Replaced f.name (SameStart len) v v' := by
  have htl := resized_totalLen f m len hb
  have hro := resized_off f m len hb
  have hoff := wf_off_byte v.wf f (by simp [hs])
  have hp := f.off_pos
  have hsf : (f.resized m len hb).sizeFactor = (4+f.name.length+len+127)/128 := by
    rw [File.sizeFactor, htl]
  have hfin : (f.resized m len hb).fin = f.off+(4+f.name.length+len+127)/128 := by
    rw [File.fin, hsf, hro]
  by_cases hfit : (4+f.name.length+len+127)/128 ≤ room
  · obtain ⟨v', hholds, hrep⟩ := holds_resized h pre post f hs len hb
      (withSize m (f.resized m len hb))
      (fun g hg => by
        have hle := hpost g hg
        omega) (by omega) (Or.inl rfl)
    refine Or.inr ⟨_, v', ?_, hholds, hrep⟩
    have hroom : 128*(f.resized m len hb).off+(f.resized m len hb).totalLen ≤ size :=
      region_room h.header.room (by omega)
    have hsizeOff : miniFsFileGetSizeFactorOffsetFromBaseOffset (128*f.off) = 128*f.off+2 := by
      rw [miniFsFileGetSizeFactorOffsetFromBaseOffset, if_neg (by omega), u16_of_lt (by omega)]
    rw [miniFsFileExtend, if_pos hfit, hsizeOff, ← hsf, ← htl]
    exact (exec_withSize hw m (f.resized m len hb) hoff hroom _).trans
      ((exec_assertConsistent hholds _).trans rfl)
  · rw [miniFsFileExtend, if_neg hfit]
    exact exec_fileMove h hw pre post f hs len hb hlen

theorem exec_fileGrow (pre post : List File) (f : File) (hs : v.files = pre++f::post) (len : ℕ)
    (hb : 4+f.name.length+len ≤ 32640) (hlen : f.content.length < len) :
    (miniFsFileGrow fs f.name pre.length (128*f.off) f.content.length len).exec size m =
        some (false, m) ∨
      ∃ m' v', (miniFsFileGrow fs f.name pre.length (128*f.off) f.content.length len).exec
          size m = some (true, m') ∧ Holds size m' v' ∧
        Replaced f.name (SameStart len) v v' := by
  have hf : f ∈ v.files := by simp [hs]
  have hfat := h.files f hf
  have hroom := room_of_mem h f hf
  have hoff := wf_off_byte v.wf f hf
  have ht : f.totalLen = 4+f.name.length+f.content.length := rfl
  have hsfdef : f.sizeFactor = (f.totalLen+127)/128 := rfl
  have hfin : f.fin = f.off+f.sizeFactor := rfl
  have hin := v.wf.inside f hf
  have hp := f.off_pos
  have hvle := v.wf.total_le
  have htl := resized_totalLen f m len hb
  have hro := resized_off f m len hb
  have hnew : u16 (f.totalLen+wrap16 ((len:ℤ)-f.content.length)) = 4+f.name.length+len := by
    rw [wrap16_of_lt (by omega) (by omega), u16_of_lt (by omega)]
    omega
  rw [miniFsFileGrow, Prog.exec_bind_of _ _ _ _ _ _ (exec_fileTotalLength hfat hroom hoff)]
  dsimp only
  rw [hnew, Prog.exec_bind_of _ _ _ _ _ _ (exec_fileSize hfat hroom hoff)]
  by_cases hspare : 4+f.name.length+len ≤ 128*f.sizeFactor
  · -- the spare bytes of the last block are enough
    have hsame : (f.resized m len hb).sizeFactor = f.sizeFactor := by
      rw [File.sizeFactor, htl]
      omega
    have hfin₁ : (f.resized m len hb).fin = f.fin := by rw [File.fin, hsame, hro, hfin]
    obtain ⟨v', hholds, hrep⟩ := holds_resized h pre post f hs len hb
      (withLength m (f.resized m len hb))
      (fun g hg => by rw [hfin₁]; exact (wf_split v.wf pre post f hs).2 g hg)
      (by rw [hfin₁]; exact hin) (Or.inr ⟨rfl, hsame⟩)
    refine Or.inr ⟨_, v', ?_, hholds, hrep⟩
    rw [if_pos hspare, ← htl]
    refine (exec_withLength hw m (f.resized m len hb) hoff
      (region_room h.header.room (by rw [hfin₁]; exact hin)) _).trans ?_
    exact (exec_assertConsistent hholds _).trans rfl
  have hcurr : miniFsFileGetBaseOffsetFactorFromBaseOffset (128*f.off) = f.off := by
    rw [miniFsFileGetBaseOffsetFactorFromBaseOffset, show MINIFSFACTOR = 128 from rfl,
      u8_of_lt (by omega)]
    omega
  rw [if_neg hspare, show MINIFSFACTOR = 128 from rfl, show MINIFSMAXFILES = 126 from rfl,
    show 4+f.name.length+len+128-1 = 4+f.name.length+len+127 by omega,
    u8_of_lt (show (4+f.name.length+len+127)/128 < 256 by omega),
    Prog.exec_bind_of _ _ _ _ _ _ (exec_nextFileLoop h pre post f hs), hcurr]
  cases post with
  | nil =>
    have hmax : wrap8 (((v.total-1:ℕ):ℤ)-f.off+1) = v.total-f.off := by
      rw [wrap8_of_lt (by omega) (by omega)]
      omega
    dsimp only
    rw [if_neg (by simp), Prog.exec_bind_of _ _ _ _ _ _ (exec_totalMinusOne h.header),
      hmax]
    exact exec_fileExtend h hw pre [] f hs len _ hb (by omega) (by simp) (by omega)
  | cons g post =>
    have hcount := split_count pre (g::post) f hs
    simp only [List.length_cons] at hcount
    have hg := (wf_split v.wf pre (g::post) f hs).2 g (by simp)
    have hgb := wf_off_byte v.wf g (by simp [hs])
    have hgin := wf_off_lt v.wf g (by simp [hs])
    have hmax : wrap8 ((g.off:ℤ)-f.off) = g.off-f.off := by
      rw [wrap8_of_lt (by omega) (by omega)]
      omega
    dsimp only
    rw [if_pos (by omega), hmax]
    refine exec_fileExtend h hw pre (g::post) f hs len _ hb (by omega) ?_ (by omega)
    intro g' hg'
    rcases List.mem_cons.mp hg' with rfl | hg'
    · omega
    · have hle := (wf_split v.wf (pre++[f]) post g (by simp [hs])).2 g' hg'
      simp only [File.fin] at hle
      omega

theorem exec_fileResize (filename : CStr) (len : ℕ) (hb : 3+filename.length+1+len ≤ 32640) :
    (miniFsFileResize fs filename len).exec size m = some (false, m) ∨
      ∃ m' v', (miniFsFileResize fs filename len).exec size m = some (true, m') ∧
        Holds size m' v' ∧ Replaced filename (SameStart len) v v' := by
  have hro : miniFsGetReadOnly fs = false := by simp [miniFsGetReadOnly, hw]
  rw [miniFsFileResize, hro, if_neg (by simp)]
  rcases find_cases v filename with ha | ⟨pre, f, post, hs, rfl⟩
  · rw [Prog.exec_bind_of _ _ _ _ _ _ (exec_filenameToIndex_absent h filename ha)]
    exact Or.inl rfl
  · have hf : f ∈ v.files := by simp [hs]
    have hcount := split_count pre post f hs
    rw [Prog.exec_bind_of _ _ _ _ _ _ (exec_filenameToIndex_found h pre post f hs),
      show MINIFSMAXFILES = 126 from rfl, if_neg (by omega), Prog.exec_bind_of _ _ _ _ _ _
        (exec_contentLen (h.files f hf) (room_of_mem h f hf) (wf_off_byte v.wf f hf))]
    by_cases hle : len ≤ f.content.length
    · rw [if_pos hle]
      exact Or.inr (exec_fileShrink h hw pre post f hs len hle)
    · rw [if_neg hle]
      exact exec_fileGrow h hw pre post f hs len (by omega) (by omega)

end Resize

end ArduinoOS.Minifs
