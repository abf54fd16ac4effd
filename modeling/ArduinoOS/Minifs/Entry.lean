import ArduinoOS.Minifs.Header

/-!
# Changing the file list

What inserting, removing or replacing a file does to well-formedness and to the
header, and what writing a region's length, size and name does to the image.
-/

set_option autoImplicit false

namespace ArduinoOS.Minifs
open ArduinoOS.ByteProgram

/-! ### Well-formedness -/

section WellFormed

variable {total : ℕ} {pre post : List File} {f : File}

theorem wf_remove (h : WellFormed total (pre++f::post)) : WellFormed total (pre++post) := by
  have hsub : (pre++post).Sublist (pre++f::post) :=
    List.Sublist.append (List.Sublist.refl pre) (List.sublist_cons_self f post)
  refine ⟨h.total_pos, h.total_le, ?_, h.disjoint.sublist hsub, ?_, ?_⟩
  · exact le_trans hsub.length_le h.count
  · intro g hg
    exact h.inside g (hsub.subset hg)
  · exact h.names.sublist (hsub.map File.name)

theorem wf_insert (h : WellFormed total (pre++post)) (hc : (pre++post).length < 126)
    (hpre : ∀ g ∈ pre, g.fin ≤ f.off) (hpost : ∀ g ∈ post, f.fin ≤ g.off) (hin : f.fin ≤ total)
    (hn : ∀ g ∈ pre++post, g.name ≠ f.name) : WellFormed total (pre++f::post) := by
  refine ⟨h.total_pos, h.total_le, ?_, ?_, ?_, ?_⟩
  · simp only [List.length_append, List.length_cons] at hc ⊢
    omega
  · have hd := h.disjoint
    rw [List.pairwise_append] at hd ⊢
    refine ⟨hd.1, List.pairwise_cons.mpr ⟨hpost, hd.2.1⟩, ?_⟩
    intro a ha b hb
    rcases List.mem_cons.mp hb with rfl | hb
    · exact hpre a ha
    · exact hd.2.2 a ha b hb
  · intro g hg
    rcases List.mem_append.mp hg with hg | hg
    · exact h.inside g (List.mem_append_left _ hg)
    · rcases List.mem_cons.mp hg with rfl | hg
      · exact hin
      · exact h.inside g (List.mem_append_right _ hg)
  · have hperm : ((pre++f::post).map File.name).Perm (f.name::(pre++post).map File.name) :=
      List.perm_middle.map File.name
    rw [hperm.nodup_iff, List.nodup_cons]
    refine ⟨?_, h.names⟩
    intro hm
    obtain ⟨g, hg, he⟩ := List.mem_map.mp hm
    exact hn g hg he

theorem wf_others (h : WellFormed total (pre++f::post)) : ∀ g ∈ pre++post, g.name ≠ f.name := by
  have hperm : ((pre++f::post).map File.name).Perm (f.name::(pre++post).map File.name) :=
    List.perm_middle.map File.name
  have hn := h.names
  rw [hperm.nodup_iff, List.nodup_cons] at hn
  intro g hg he
  exact hn.1 (he ▸ List.mem_map_of_mem hg)

/-- A file may be replaced by one of the same name and place that still ends
before the next. -/
theorem wf_replace (h : WellFormed total (pre++f::post)) (f' : File) (ho : f'.off = f.off)
    (hn : f'.name = f.name) (hpost : ∀ g ∈ post, f'.fin ≤ g.off) (hin : f'.fin ≤ total) :
    WellFormed total (pre++f'::post) := by
  have hs := wf_split h pre post f rfl
  have hc := h.count
  simp only [List.length_append, List.length_cons] at hc
  refine wf_insert (wf_remove h) ?_ ?_ hpost hin ?_
  · simp only [List.length_append]
    omega
  · rw [ho]
    exact hs.1
  · rw [hn]
    exact wf_others h

end WellFormed

/-! ### The header -/

section HeaderOf

variable (pre post : List File) (f : File)

theorem headerOf_replace (f' : File) (ho : f'.off = f.off) :
    headerOf (pre++f'::post) = headerOf (pre++f::post) := by
  simp [headerOf, ho]

theorem headerOf_perm : (headerOf (pre++f::post)).Perm
    (f.off::((pre++post).map File.off++List.replicate (126-((pre++post).length+1)) 0)) := by
  simp only [headerOf, List.map_append, List.map_cons, List.append_assoc, List.cons_append,
    List.length_append, List.length_cons, Nat.add_assoc]
  exact List.perm_middle

/-- The header with the first free slot set, before the sort. -/
theorem headerOf_set_end (hc : (pre++post).length < 126) :
    ((headerOf (pre++post)).set (pre++post).length f.off).Perm (headerOf (pre++f::post)) := by
  have he : (headerOf (pre++post)).set (pre++post).length f.off =
      (pre++post).map File.off++
        f.off::List.replicate (126-((pre++post).length+1)) 0 := by
    rw [headerOf, List.set_append_right _ _ (by simp),
      show 126-(pre++post).length = (126-((pre++post).length+1))+1 by omega]
    simp [List.replicate_succ]
  rw [he]
  exact List.perm_middle.trans (headerOf_perm pre post f).symm

theorem headerOf_set_file (x : ℕ) : ((headerOf (pre++f::post)).set pre.length x).Perm
    (x::((pre++post).map File.off++List.replicate (126-((pre++post).length+1)) 0)) := by
  have he : (headerOf (pre++f::post)).set pre.length x = pre.map File.off++
      x::(post.map File.off++List.replicate (126-((pre++post).length+1)) 0) := by
    simp [headerOf, Nat.add_assoc]
  rw [he, List.map_append, List.append_assoc]
  exact List.perm_middle

/-- The header with the file's slot cleared, before the sort. -/
theorem headerOf_clear (hc : (pre++post).length < 126) :
    ((headerOf (pre++f::post)).set pre.length 0).Perm (headerOf (pre++post)) := by
  refine (headerOf_set_file pre post f 0).trans ?_
  rw [headerOf, show 126-(pre++post).length = (126-((pre++post).length+1))+1 by omega,
    List.replicate_succ]
  exact List.perm_middle.symm

end HeaderOf

/-! ### The fields of a region -/

/-- The image after the total length of `f` is written. -/
def withLength (m : Image) (f : File) : Image :=
  overwrite (overwrite m (128*f.off) [UInt8.ofNat (f.totalLen/256)])
    (128*f.off+1) [UInt8.ofNat (f.totalLen%256)]

def withSize (m : Image) (f : File) : Image :=
  overwrite (withLength m f) (128*f.off+2) [UInt8.ofNat f.sizeFactor]

/-- The image after the length, size and name of `f` are written. -/
def entry (m : Image) (f : File) : Image :=
  overwrite (withSize m f) (128*f.off+3) f.name.bytes

theorem withLength_outside (m : Image) (f : File) (a : ℕ)
    (h : a < 128*f.off ∨ 128*f.off+2 ≤ a) : withLength m f a = m a := by
  rw [withLength, overwrite_one_ne _ _ _ _ (by omega), overwrite_one_ne _ _ _ _ (by omega)]

theorem withSize_outside (m : Image) (f : File) (a : ℕ)
    (h : a < 128*f.off ∨ 128*f.off+3 ≤ a) : withSize m f a = m a := by
  rw [withSize, overwrite_one_ne _ _ _ _ (by omega), withLength_outside _ _ _ (by omega)]

theorem entry_outside (m : Image) (f : File) (a : ℕ) (h : a < 128*f.off ∨ f.contentAddr ≤ a) :
    entry m f a = m a := by
  simp only [File.contentAddr] at h
  rw [entry, overwrite_outside _ _ _ _ (by simp; omega), withSize_outside _ _ _ (by omega)]

theorem totalLen_bytes (f : File) :
    (UInt8.ofNat (f.totalLen/256)).toNat*256+(UInt8.ofNat (f.totalLen%256)).toNat =
      f.totalLen := by
  have hle := f.total_le
  simp only [UInt8.toNat_ofNat', File.totalLen]
  omega

theorem withLength_len (m : Image) (f : File) :
    (withLength m f (128*f.off)).toNat*256+(withLength m f (128*f.off+1)).toNat =
      f.totalLen := by
  rw [withLength, overwrite_below _ _ _ _ (by omega), overwrite_one_self, overwrite_one_self]
  exact totalLen_bytes f

theorem withSize_len (m : Image) (f : File) :
    (withSize m f (128*f.off)).toNat*256+(withSize m f (128*f.off+1)).toNat = f.totalLen := by
  rw [withSize, overwrite_below _ _ _ _ (by omega), overwrite_below _ _ _ _ (by omega)]
  exact withLength_len m f

theorem withSize_size (m : Image) (f : File) :
    (withSize m f (128*f.off+2)).toNat = f.sizeFactor := by
  have hle := f.sizeFactor_le
  rw [withSize, overwrite_one_self, UInt8.toNat_ofNat']
  omega

/-- What an entry writes does not depend on what was there. -/
theorem entry_inside (m m' : Image) (f : File) (a : ℕ) (h₁ : 128*f.off ≤ a)
    (h₂ : a < f.contentAddr) : entry m f a = entry m' f a := by
  simp only [File.contentAddr] at h₂
  by_cases hname : 128*f.off+3 ≤ a
  · rw [entry, entry, overwrite_inside _ _ _ _ hname (by simp; omega),
      overwrite_inside _ _ _ _ hname (by simp; omega)]
  · rw [entry, entry, overwrite_below _ _ _ _ (by omega), overwrite_below _ _ _ _ (by omega)]
    have hcases : a = 128*f.off ∨ a = 128*f.off+1 ∨ a = 128*f.off+2 := by omega
    rcases hcases with rfl | rfl | rfl <;> simp [withSize, withLength, overwrite]

theorem fileAt_entry (m : Image) (f : File)
    (hc : slice m f.contentAddr f.content.length = f.content) : FileAt (entry m f) f := by
  constructor
  · rw [entry, overwrite_below _ _ _ _ (by omega), overwrite_below _ _ _ _ (by omega)]
    exact withSize_len m f
  · rw [entry, overwrite_below _ _ _ _ (by omega)]
    exact withSize_size m f
  · have hs := slice_overwrite (withSize m f) (128*f.off+3) f.name.bytes
    rwa [CStr.bytes_length] at hs
  · rw [← hc, slice_length]
    exact slice_congr _ _ _ _ (fun a h₁ _ => entry_outside m f a (Or.inr h₁))

/-- The content may also arrive after the entry. -/
theorem fileAt_of_entry (m m' : Image) (f : File)
    (he : ∀ a, 128*f.off ≤ a → a < f.contentAddr → m' a = entry m f a)
    (hc : slice m' f.contentAddr f.content.length = f.content) : FileAt m' f := by
  refine fileAt_congr (fileAt_entry m' f hc) (fun a h₁ _ => ?_)
  by_cases ha : a < f.contentAddr
  · rw [he a h₁ ha]
    exact entry_inside m m' f a h₁ ha
  · exact (entry_outside m' f a (Or.inr (by omega))).symm

/-- A file that keeps its place and name, with a new length and size. -/
theorem fileAt_resized {m m' : Image} {f f' : File} (h : FileAt m f) (ho : f'.off = f.off)
    (hn : f'.name = f.name)
    (hlen : (m' (128*f'.off)).toNat*256+(m' (128*f'.off+1)).toNat = f'.totalLen)
    (hsize : (m' (128*f'.off+2)).toNat = f'.sizeFactor)
    (hframe : ∀ a, 128*f'.off+3 ≤ a → m' a = m a)
    (hc : slice m f'.contentAddr f'.content.length = f'.content) : FileAt m' f' := by
  refine ⟨hlen, hsize, ?_, ?_⟩
  · rw [hn, ← h.name, ho]
    exact slice_congr _ _ _ _ (fun a h₁ _ => hframe a (by omega))
  · rw [← hc, slice_length]
    refine slice_congr _ _ _ _ (fun a h₁ _ => hframe a ?_)
    simp only [File.contentAddr] at h₁
    omega

section Programs

variable {size : ℕ} {fs : MiniFs} (hw : fs.writable = true)
include hw

theorem exec_withLength {α : Type} (m : Image) (f : File) (hoff : f.off < 256)
    (hroom : 128*f.off+f.totalLen ≤ size) (p : Prog α) :
    (do
      miniFsWriteByte fs (128*f.off) (f.totalLen/256)
      miniFsWriteByte fs (128*f.off+1) (f.totalLen%256)
      p).exec size m = p.exec size (withLength m f) := by
  have ht : f.totalLen = 4+f.name.length+f.content.length := rfl
  rw [Prog.exec_bind_of _ _ _ _ _ _ (exec_writeByte hw _ _ (by omega) (by omega)),
    Prog.exec_bind_of _ _ _ _ _ _ (exec_writeByte hw _ _ (by omega) (by omega))]
  rfl

theorem exec_withSize {α : Type} (m : Image) (f : File) (hoff : f.off < 256)
    (hroom : 128*f.off+f.totalLen ≤ size) (p : Prog α) :
    (do
      miniFsWriteByte fs (128*f.off) (f.totalLen/256)
      miniFsWriteByte fs (128*f.off+1) (f.totalLen%256)
      miniFsWriteByte fs (128*f.off+2) f.sizeFactor
      p).exec size m = p.exec size (withSize m f) := by
  have ht : f.totalLen = 4+f.name.length+f.content.length := rfl
  refine (exec_withLength hw m f hoff hroom _).trans ?_
  rw [Prog.exec_bind_of _ _ _ _ _ _ (exec_writeByte hw _ _ (by omega) (by omega))]
  rfl

/-- The four writes with which a file is created or moved. -/
theorem exec_entry {α : Type} (m : Image) (f : File) (hoff : f.off < 256)
    (hroom : 128*f.off+f.totalLen ≤ size) (p : Prog α) :
    (do
      miniFsWriteByte fs (128*f.off) (f.totalLen/256)
      miniFsWriteByte fs (128*f.off+1) (f.totalLen%256)
      miniFsWriteByte fs (128*f.off+2) f.sizeFactor
      let _ ← miniFsWrite fs (128*f.off+3) (f.name.bytes.take (f.name.length+1))
      p).exec size m = p.exec size (entry m f) := by
  have ht : f.totalLen = 4+f.name.length+f.content.length := rfl
  have hn := f.name_lt
  have hb : f.name.bytes.take (f.name.length+1) = f.name.bytes :=
    List.take_of_length_le (by simp)
  refine (exec_withSize hw m f hoff hroom _).trans ?_
  rw [hb, Prog.exec_bind_of _ _ _ _ _ _
    (exec_write hw _ _ (by simp; omega) (by omega) (by simp; omega))]
  rfl

/-- Byte by byte, the content arrives in a region that does not meet the old one. -/
theorem exec_copyContent (dst src i fuel : ℕ) (m : Image)
    (hdst : dst+i+fuel ≤ size) (hsrc : src+i+fuel ≤ size)
    (hdlt : dst+i+fuel ≤ 65536) (hslt : src+i+fuel ≤ 65536)
    (hapart : dst+i+fuel ≤ src+i ∨ src+i+fuel ≤ dst+i) :
    ∃ m', (miniFsCopyContent fs dst src i fuel).exec size m = some ((), m') ∧
      (∀ j, i ≤ j → j < i+fuel → m' (dst+j) = m (src+j)) ∧
      ∀ a, a < dst+i ∨ dst+i+fuel ≤ a → m' a = m a := by
  induction fuel generalizing i m with
  | zero => exact ⟨m, rfl, fun j h₁ h₂ => by omega, fun _ _ => rfl⟩
  | succ fuel ih =>
    obtain ⟨m', hx, hcopy, hframe⟩ := ih (i+1)
      (overwrite m (dst+i) [UInt8.ofNat (m (src+i)).toNat])
      (by omega) (by omega) (by omega) (by omega) (by omega)
    rw [miniFsCopyContent,
      Prog.exec_bind_of _ _ _ _ _ _ (exec_readByte (src+i) (by omega) (by omega)),
      Prog.exec_bind_of _ _ _ _ _ _ (exec_writeByte hw (dst+i) _ (by omega) (by omega)), hx]
    refine ⟨m', rfl, ?_, ?_⟩
    · intro j h₁ h₂
      by_cases hj : j = i
      · rw [hj, hframe (dst+i) (by omega), overwrite_one_self]
        exact UInt8.ofNat_toNat
      · rw [hcopy j (by omega) (by omega), overwrite_one_ne _ _ _ _ (by omega)]
    · intro a ha
      rw [hframe a (by omega), overwrite_one_ne _ _ _ _ (by omega)]

end Programs

end ArduinoOS.Minifs
