import ArduinoOS.Minifs.Device

/-!
# Requested sizes

A request for a size is granted when the file then has that length and enough
blocks for it. The length is kept in 16 bits and the number of blocks in 8, so
a request that needs more than 255 blocks is granted only by mistake.
-/

set_option autoImplicit false

namespace ArduinoOS.Minifs
open ArduinoOS.ByteProgram

variable {σ ε : Type}

/-- The bytes a file of this length needs: its fields, its name and its contents. -/
def neededLength (filename : CStr) (requested : ℕ) : ℕ := 3+filename.length+1+requested

/-- The file has the requested length, in enough blocks, and the bytes it had.
The others are as they were. -/
structure Granted (dev : Handler σ ε) (view : σ → Image) (s s' : σ) (filename : CStr)
    (requested : ℕ) : Prop where
  answers : ∃ map map', Answers dev s map ∧ Answers dev s' map' ∧
    (∃ new, map' filename = some new ∧ new.length = requested ∧
      ∀ old, map filename = some old → SameStart requested old new) ∧
    ∀ other ≠ filename, map' other = map other
  region : ∃ i < MINIFSMAXFILES, offsetFactor (view s') i ≠ 0 ∧
    storedName (view s') (offsetFactor (view s') i) = filename.map CChar.val ∧
    neededLength filename requested ≤
      MINIFSFACTOR*storedSizeFactor (view s') (offsetFactor (view s') i)

/-- The request is granted or refused, and a refusal changes nothing. -/
def Settles (dev : Handler σ ε) (size : ℕ) (view : σ → Image) (s : σ) (filename : CStr)
    (requested : ℕ) (out : Except ε (Bool × σ)) : Prop :=
  (∃ s', out = .ok (true, s') ∧ Granted dev view s s' filename requested) ∨
  ∃ s', out = .ok (false, s') ∧ ∀ a < size, view s' a = view s a

/-- The number of blocks that a create looks for. -/
def createBlocks (filename : CStr) (contentSize : ℕ) : ℕ :=
  miniFsGetSizeFactorForTotalLength (u16 (3+u16 filename.length+1+contentSize))

def resizeBlocks (filename : CStr) (newContentLen : ℕ) : ℕ :=
  miniFsGetSizeFactorForTotalLength (neededLength filename newContentLen)

/-- No free region has this many blocks. -/
def NoRegion (v : Volume) (blocks : ℕ) : Prop := ∀ r, ¬ Gap v.total blocks v.files r

inductive CreateRefused (fs : MiniFs) (v : Volume) (filename : CStr) (contentSize : ℕ) : Prop
  | name (h : MiniFsPathMax ≤ u16 filename.length)
  | readOnly (h : fs.writable = false)
  | present (f : File) (hf : f ∈ v.files) (h : f.name = filename)
  | full (h : v.files.length = MINIFSMAXFILES)
  | noRegion (hpos : createBlocks filename contentSize ≠ 0)
      (h : NoRegion v (createBlocks filename contentSize))

/-- The blocks from the file's offset to the next file, or to the end. -/
def roomFrom (v : Volume) (f : File) : List File → ℕ
  | [] => v.total-f.off
  | g::_ => g.off-f.off

inductive ResizeRefused (fs : MiniFs) (v : Volume) (filename : CStr) (newContentLen : ℕ) : Prop
  | readOnly (h : fs.writable = false)
  | absent (h : ∀ f ∈ v.files, f.name ≠ filename)
  | noRegion (pre post : List File) (f : File) (hs : v.files = pre++f::post)
      (hname : f.name = filename) (hlen : neededLength filename newContentLen < 65536)
      (hroom : roomFrom v f post < resizeBlocks filename newContentLen)
      (h : NoRegion v (resizeBlocks filename newContentLen))

/-! ### Granted requests -/

section Settled

variable {dev : Handler σ ε} {size : ℕ} {view : σ → Image} (hl : Lawful dev size view)
  {s : σ} {v : Volume} (h : Holds size (view s) v)

/-- A size factor is one byte. -/
theorem granted_bounded {s' : σ} {filename : CStr} {requested : ℕ}
    (hg : Granted dev view s s' filename requested) :
    neededLength filename requested ≤ 255*MINIFSFACTOR := by
  obtain ⟨i, _, _, _, hle⟩ := hg.region
  have hbyte := (view s' (MINIFSFACTOR*offsetFactor (view s') i+2)).toNat_lt
  rw [storedSizeFactor, show MINIFSFACTOR = 128 from rfl] at hle
  rw [show MINIFSFACTOR = 128 from rfl] at hbyte ⊢
  omega

include hl h

theorem granted_of_holds {s' : σ} {v' : Volume} {filename : CStr} {requested : ℕ}
    (h' : Holds size (view s') v') {f : File} (hf : f ∈ v'.files) (hname : f.name = filename)
    (hlen : f.content.length = requested)
    (hold : ∀ old, v.fileMap filename = some old → SameStart requested old f.content)
    (hothers : ∀ other ≠ filename, v'.fileMap other = v.fileMap other) :
    Granted dev view s s' filename requested := by
  subst hname
  obtain ⟨i, hi, rfl⟩ := List.getElem_of_mem hf
  have hcount := v'.wf.count
  have hpos := v'.files[i].off_pos
  refine ⟨⟨v.fileMap, v'.fileMap, answers_of_holds hl h, answers_of_holds hl h',
    ⟨_, fileMap_some hf, hlen, hold⟩, hothers⟩, i, lt_of_lt_of_le hi hcount, ?_, ?_, ?_⟩
  · rw [offsetFactor_file h' i hi]
    omega
  · rw [offsetFactor_file h' i hi, storedName_file h' _ hf]
  · rw [offsetFactor_file h' i hi, storedSizeFactor_file h' _ hf, neededLength, ← hlen,
      File.sizeFactor, File.totalLen, show MINIFSFACTOR = 128 from rfl]
    omega

omit h in
/-- A refusal of the image is one of the device. -/
theorem settles_refused {p : Prog Bool} {filename : CStr} {requested : ℕ}
    (hx : p.exec size (view s) = some (false, view s)) :
    Settles dev size view s filename requested (p.run dev s) := by
  obtain ⟨s', hrun, hview⟩ := run_of_exec hl hx
  exact Or.inr ⟨s', hrun, hview⟩

theorem settles_created {p : Prog Bool} {filename : CStr} {requested : ℕ} {m' : Image}
    {v' : Volume} (hx : p.exec size (view s) = some (true, m')) (hh : Holds size m' v')
    (hc : Created filename requested v v') :
    Settles dev size view s filename requested (p.run dev s) := by
  obtain ⟨s', hrun, hview⟩ := run_of_exec hl hx
  obtain ⟨new, _, habsent, hmap⟩ := fileMap_created hc
  obtain ⟨_, pre, post, f, _, hs', hname, hlen⟩ := hc
  refine Or.inl ⟨s', hrun, granted_of_holds hl h (holds_congr hh hview) (f := f) (by simp [hs'])
    hname hlen (fun old hold => ?_) (fun other hne => ?_)⟩
  · rw [habsent] at hold
    cases hold
  · rw [hmap, FileMap.set, if_neg hne]

theorem settles_resized {p : Prog Bool} {filename : CStr} {requested : ℕ} {m' : Image}
    {v' : Volume} (hx : p.exec size (view s) = some (true, m')) (hh : Holds size m' v')
    (hr : Replaced filename (SameStart requested) v v') :
    Settles dev size view s filename requested (p.run dev s) := by
  obtain ⟨s', hrun, hview⟩ := run_of_exec hl hx
  obtain ⟨_, _, _, _, hmap⟩ := fileMap_replaced hr
  obtain ⟨_, pre, post, pre', post', f, f', hs, hs', _, hname, hname', hnew⟩ := hr
  refine Or.inl ⟨s', hrun, granted_of_holds hl h (holds_congr hh hview) (f := f')
    (by simp [hs']) hname' hnew.1 (fun old hold => ?_) (fun other hne => ?_)⟩
  · rw [← hname, fileMap_some (by simp [hs])] at hold
    cases hold
    exact hnew
  · rw [hmap, FileMap.set, if_neg hne]

end Settled

/-! ### Requests that need too many blocks -/

section Large

variable {dev : Handler σ ε} {size : ℕ} {view : σ → Image}

/-- Too large a request settles only by a refusal. -/
theorem settles_large {s : σ} {filename : CStr} {requested : ℕ}
    (hlarge : 255*MINIFSFACTOR < neededLength filename requested) {out : Except ε (Bool × σ)}
    (h : Settles dev size view s filename requested out) : ∃ s', out = .ok (false, s') := by
  rcases h with ⟨s', _, hg⟩ | ⟨s', hout, _⟩
  · exact absurd (granted_bounded hg) (by omega)
  · exact ⟨s', hout⟩

theorem not_refused {p : Prog Bool} (hp : p.Returns (fun b => b = true)) {s s' : σ}
    (hrun : p.run dev s = .ok (false, s')) : False := by
  have h := p.returns_run hp hrun
  cases h

/-- The result of first fit for any number of blocks. -/
theorem exec_findFree {m : Image} {v : Volume} (h : Holds size m v) (blocks : ℕ) :
    ∃ r, (miniFsFindFreeRegionFactor blocks).exec size m = some (r, m) ∧
      (r = 0 ↔ blocks ≠ 0 ∧ NoRegion v blocks) := by
  by_cases hzero : blocks = 0
  · subst hzero
    exact ⟨1, exec_findFreeRegionFactor_zero h, by simp⟩
  · obtain ⟨r, hx, hr⟩ := exec_findFreeRegionFactor h blocks (by omega)
    refine ⟨r, hx, fun h0 => ⟨hzero, ?_⟩, fun hno => ?_⟩
    · rcases hr with ⟨_, hno⟩ | hgap
      · exact hno
      · obtain ⟨_, _, _, h1, _⟩ := hgap
        omega
    · rcases hr with ⟨h0, _⟩ | hgap
      · exact h0
      · exact absurd hgap (hno.2 r)

variable (hl : Lawful dev size view) {s : σ} {v : Volume} (h : Holds size (view s) v)
include h

theorem exec_createRefused {fs : MiniFs} {filename : CStr} {contentSize : ℕ}
    (hr : CreateRefused fs v filename contentSize) :
    (miniFsFileCreate fs filename contentSize).exec size (view s) = some (false, view s) := by
  rw [miniFsFileCreate]
  by_cases hname : u16 filename.length ≥ MiniFsPathMax
  · rw [if_pos hname]
    rfl
  rw [if_neg hname]
  by_cases hro : miniFsGetReadOnly fs = true
  · rw [if_pos hro]
    rfl
  rw [if_neg hro, Prog.exec_bind_of _ _ _ _ _ _ (exec_fileExists h filename)]
  by_cases hex : ∃ f ∈ v.files, f.name = filename
  · rw [if_pos (decide_eq_true hex)]
    rfl
  rw [if_neg (by simpa using hex), Prog.exec_bind_of _ _ _ _ _ _ (exec_getEmptyIndex h)]
  by_cases hfull : v.files.length = MINIFSMAXFILES
  · rw [if_pos hfull]
    rfl
  rw [if_neg hfull]
  cases hr with
  | name hr => exact absurd hr hname
  | readOnly hr => exact absurd (by simp [miniFsGetReadOnly, hr]) hro
  | present f hf hr => exact absurd ⟨f, hf, hr⟩ hex
  | full hr => exact absurd hr hfull
  | noRegion hpos hr =>
    obtain ⟨r, hx, hzero⟩ := exec_findFree h (createBlocks filename contentSize)
    dsimp only
    rw [createBlocks] at hx
    rw [Prog.exec_bind_of _ _ _ _ _ _ hx, if_pos (hzero.mpr ⟨hpos, hr⟩)]
    rfl

include hl

theorem create_not_refused {fs : MiniFs} {filename : CStr} {contentSize : ℕ} {s' : σ}
    (hnot : ¬ CreateRefused fs v filename contentSize)
    (hrun : (miniFsFileCreate fs filename contentSize).run dev s = .ok (false, s')) : False := by
  have hname : ¬ u16 filename.length ≥ MiniFsPathMax := fun hname => hnot (.name hname)
  have hro : ¬ miniFsGetReadOnly fs = true := by
    intro hro
    exact hnot (.readOnly (by simpa [miniFsGetReadOnly] using hro))
  have hex : ¬ ∃ f ∈ v.files, f.name = filename := by
    rintro ⟨f, hf, hn⟩
    exact hnot (.present f hf hn)
  have hfull : ¬ v.files.length = MINIFSMAXFILES := fun hfull => hnot (.full hfull)
  rw [miniFsFileCreate, if_neg hname, if_neg hro] at hrun
  obtain ⟨s₁, hv₁, hrun₁⟩ := lawful_bind dev size view hl _ _ (fun _ _ => rfl)
    (exec_fileExists h filename)
  rw [hrun₁, if_neg (by simpa using hex)] at hrun
  obtain ⟨s₂, hv₂, hrun₂⟩ := lawful_bind dev size view hl _ _ hv₁ (exec_getEmptyIndex h)
  rw [hrun₂, if_neg hfull] at hrun
  obtain ⟨r, hx, hzero⟩ := exec_findFree h (createBlocks filename contentSize)
  obtain ⟨s₃, _, hrun₃⟩ := lawful_bind dev size view hl _ _ hv₂ hx
  have hr : ¬ r = 0 := fun h0 => hnot (.noRegion (hzero.mp h0).1 (hzero.mp h0).2)
  dsimp only at hrun
  rw [createBlocks] at hrun₃
  rw [hrun₃, if_neg hr] at hrun
  refine not_refused ?_ hrun
  -- from here on the answer is true
  iterate 8 refine Prog.returns_bind _ (fun _ => ?_)
  exact rfl

/-- A create, with its size cut to 16 bits, is granted or refused exactly when
its blocks can be counted in a byte or it is refused. -/
theorem create_settles (fs : MiniFs) (filename : CStr) (requested : ℕ) :
    Settles dev size view s filename requested
        ((miniFsFileCreate fs filename (u16 requested)).run dev s) ↔
      neededLength filename requested ≤ 255*MINIFSFACTOR ∨
        CreateRefused fs v filename (u16 requested) := by
  by_cases hr : CreateRefused fs v filename (u16 requested)
  · exact iff_of_true (settles_refused hl (exec_createRefused h hr)) (Or.inr hr)
  · by_cases hb : neededLength filename requested ≤ 255*MINIFSFACTOR
    · refine iff_of_true ?_ (Or.inl hb)
      have hsmall : u16 requested = requested := by
        rw [neededLength, show MINIFSFACTOR = 128 from rfl] at hb
        exact u16_of_lt (by omega)
      rw [hsmall] at hr ⊢
      have hw : fs.writable = true := by
        by_contra hro
        exact hr (.readOnly (by simpa using hro))
      rcases exec_fileCreate h hw filename requested hb with hx | ⟨m', v', hx, hh, hc⟩
      · exact settles_refused hl hx
      · exact settles_created hl h hx hh hc
    · refine iff_of_false (fun hs => ?_) (fun hor => hor.elim hb hr)
      obtain ⟨s', hrun⟩ := settles_large (by omega) hs
      exact create_not_refused hl h hr hrun

/-! ### Resizing -/

omit hl in
theorem exec_extend_refused {fs : MiniFs} {filename : CStr} {index baseOffset newTotalLen blocks
    room : ℕ} (hroom : room < blocks) (hno : NoRegion v blocks) :
    (miniFsFileExtend fs filename index baseOffset newTotalLen blocks room).exec size (view s) =
      some (false, view s) := by
  obtain ⟨r, hx, hzero⟩ := exec_findFree h blocks
  rw [miniFsFileExtend, if_neg (by omega), miniFsFileMove, Prog.exec_bind_of _ _ _ _ _ _ hx,
    if_pos (hzero.mpr ⟨by omega, hno⟩)]
  rfl

theorem extend_not_refused {fs : MiniFs} {filename : CStr} {index baseOffset newTotalLen blocks
    room : ℕ} (hnot : ¬ (room < blocks ∧ NoRegion v blocks)) {s₁ s' : σ}
    (hv : ∀ a < size, view s₁ a = view s a)
    (hrun : (miniFsFileExtend fs filename index baseOffset newTotalLen blocks room).run dev s₁ =
      .ok (false, s')) : False := by
  by_cases hroom : blocks ≤ room
  · rw [miniFsFileExtend, if_pos hroom] at hrun
    refine not_refused ?_ hrun
    iterate 5 refine Prog.returns_bind _ (fun _ => ?_)
    exact rfl
  · obtain ⟨r, hx, hzero⟩ := exec_findFree h blocks
    have hr : ¬ r = 0 := fun h0 => hnot ⟨by omega, (hzero.mp h0).2⟩
    obtain ⟨s₂, _, hrun₂⟩ := lawful_bind dev size view hl _ _ hv hx
    rw [miniFsFileExtend, if_neg hroom, miniFsFileMove, hrun₂, if_neg hr] at hrun
    refine not_refused ?_ hrun
    iterate 11 refine Prog.returns_bind _ (fun _ => ?_)
    exact rfl

/-- A file that grows beyond 255 blocks comes to the search for room. -/
theorem grow_leads {fs : MiniFs} {pre post : List File} {f : File} (hs : v.files = pre++f::post)
    {len : ℕ} (hlen : len < 65536) (hlarge : 255*MINIFSFACTOR < neededLength f.name len)
    (hfits : neededLength f.name len < 65536) :
    Leads dev size view (view s) (miniFsFileGrow fs f.name pre.length (128*f.off) f.content.length
        len)
      (miniFsFileExtend fs f.name pre.length (128*f.off) (neededLength f.name len)
        (resizeBlocks f.name len) (roomFrom v f post)) := by
  have hf : f ∈ v.files := by simp [hs]
  have hfat := h.files f hf
  have hroom := room_of_mem h f hf
  have hoff := wf_off_byte v.wf f hf
  have ht : f.totalLen = 4+f.name.length+f.content.length := rfl
  have hle := f.total_le
  have hsf := f.sizeFactor_le
  have hin := v.wf.inside f hf
  have hfin : f.fin = f.off+f.sizeFactor := rfl
  have hsfp := f.sizeFactor_pos
  have hp := f.off_pos
  have hvle := v.wf.total_le
  have hn : neededLength f.name len = 4+f.name.length+len := by
    rw [neededLength]
    omega
  rw [show MINIFSFACTOR = 128 from rfl] at hlarge
  have hnew : u16 (f.totalLen+wrap16 ((len:ℤ)-f.content.length)) = neededLength f.name len := by
    rw [wrap16_of_lt (by omega) (by omega), u16_of_lt (by omega)]
    omega
  have hcurr : miniFsFileGetBaseOffsetFactorFromBaseOffset (128*f.off) = f.off := by
    rw [miniFsFileGetBaseOffsetFactorFromBaseOffset, show MINIFSFACTOR = 128 from rfl,
      u8_of_lt (by omega)]
    omega
  rw [miniFsFileGrow]
  refine leads_bind dev size view hl (exec_fileTotalLength hfat hroom hoff) ?_
  dsimp only
  rw [hnew]
  refine leads_bind dev size view hl (exec_fileSize hfat hroom hoff) ?_
  rw [if_neg (by omega)]
  refine leads_bind dev size view hl (exec_nextFileLoop h pre post f hs) ?_
  rw [hcurr, show MINIFSMAXFILES = 126 from rfl]
  cases post with
  | nil =>
    have hmax : wrap8 (((v.total-1:ℕ):ℤ)-f.off+1) = v.total-f.off := by
      rw [wrap8_of_lt (by omega) (by omega)]
      omega
    dsimp only
    rw [if_neg (by simp)]
    refine leads_bind dev size view hl (exec_totalMinusOne h.header) ?_
    rw [hmax]
    exact leads_refl dev size view _ _
  | cons g post =>
    have hcount := split_count pre (g::post) f hs
    simp only [List.length_cons] at hcount
    have hg := (wf_split v.wf pre (g::post) f hs).2 g (by simp)
    have hgin := wf_off_lt v.wf g (by simp [hs])
    have hmax : wrap8 ((g.off:ℤ)-f.off) = g.off-f.off := by
      rw [wrap8_of_lt (by omega) (by omega)]
      omega
    dsimp only
    rw [if_pos (by omega), hmax]
    exact leads_refl dev size view _ _

/-- A length that leaves 16 bits seems to fit in the blocks there are. -/
theorem grow_wrapped {fs : MiniFs} {pre post : List File} {f : File} (hs : v.files = pre++f::post)
    {len : ℕ} (hlen : len < 65536) (hwraps : 65536 ≤ neededLength f.name len) {s₁ s' : σ}
    (hv : ∀ a < size, view s₁ a = view s a)
    (hrun : (miniFsFileGrow fs f.name pre.length (128*f.off) f.content.length len).run dev s₁ =
      .ok (false, s')) : False := by
  have hf : f ∈ v.files := by simp [hs]
  have hfat := h.files f hf
  have hroom := room_of_mem h f hf
  have hoff := wf_off_byte v.wf f hf
  have ht : f.totalLen = 4+f.name.length+f.content.length := rfl
  have hsf : f.sizeFactor = (f.totalLen+127)/128 := rfl
  have hn := f.name_lt
  have hle := f.total_le
  rw [neededLength] at hwraps
  have hnew : u16 (f.totalLen+wrap16 ((len:ℤ)-f.content.length)) ≤ 128*f.sizeFactor := by
    rw [wrap16_of_lt (by omega) (by omega), u16]
    omega
  obtain ⟨s₂, hv₂, hrun₂⟩ := lawful_bind dev size view hl _ _ hv
    (exec_fileTotalLength hfat hroom hoff)
  rw [miniFsFileGrow, hrun₂] at hrun
  obtain ⟨s₃, _, hrun₃⟩ := lawful_bind dev size view hl _ _ hv₂ (exec_fileSize hfat hroom hoff)
  dsimp only at hrun
  rw [hrun₃, if_pos hnew] at hrun
  refine not_refused ?_ hrun
  iterate 4 refine Prog.returns_bind _ (fun _ => ?_)
  exact rfl

/-- A resize that is not refused at once comes to the file's growth. -/
theorem resize_leads {fs : MiniFs} (hw : fs.writable = true) {pre post : List File} {f : File}
    (hs : v.files = pre++f::post) {len : ℕ} (hlen : f.content.length < len) :
    Leads dev size view (view s) (miniFsFileResize fs f.name len)
      (miniFsFileGrow fs f.name pre.length (128*f.off) f.content.length len) := by
  have hf : f ∈ v.files := by simp [hs]
  have hcount := split_count pre post f hs
  have hro : ¬ miniFsGetReadOnly fs = true := by simp [miniFsGetReadOnly, hw]
  rw [miniFsFileResize, if_neg hro]
  refine leads_bind dev size view hl (exec_filenameToIndex_found h pre post f hs) ?_
  rw [show MINIFSMAXFILES = 126 from rfl, if_neg (by omega)]
  refine leads_bind dev size view hl
    (exec_contentLen (h.files f hf) (room_of_mem h f hf) (wf_off_byte v.wf f hf)) ?_
  rw [if_neg (by omega)]
  exact leads_refl dev size view _ _

/-- A resize is granted or refused exactly when its blocks can be counted in a
byte or it is refused. -/
theorem resize_settles (fs : MiniFs) (filename : CStr) {newContentLen : ℕ}
    (hlen : newContentLen < 65536) :
    Settles dev size view s filename newContentLen
        ((miniFsFileResize fs filename newContentLen).run dev s) ↔
      neededLength filename newContentLen ≤ 255*MINIFSFACTOR ∨
        ResizeRefused fs v filename newContentLen := by
  by_cases hw : fs.writable = true
  case neg =>
    have hro : fs.writable = false := by simpa using hw
    have hx : (miniFsFileResize fs filename newContentLen).exec size (view s) =
        some (false, view s) := by
      rw [miniFsFileResize, if_pos (by simp [miniFsGetReadOnly, hro])]
      rfl
    exact iff_of_true (settles_refused hl hx) (Or.inr (.readOnly hro))
  case pos =>
    by_cases hb : neededLength filename newContentLen ≤ 255*MINIFSFACTOR
    · refine iff_of_true ?_ (Or.inl hb)
      rcases exec_fileResize h hw filename newContentLen hb with hx | ⟨m', v', hx, hh, hr⟩
      · exact settles_refused hl hx
      · exact settles_resized hl h hx hh hr
    · rw [or_iff_right hb]
      rcases find_cases v filename with habsent | ⟨pre, f, post, hs, rfl⟩
      · have hro : ¬ miniFsGetReadOnly fs = true := by simp [miniFsGetReadOnly, hw]
        have hx : (miniFsFileResize fs filename newContentLen).exec size (view s) =
            some (false, view s) := by
          rw [miniFsFileResize, if_neg hro,
            Prog.exec_bind_of _ _ _ _ _ _ (exec_filenameToIndex_absent h filename habsent)]
          rfl
        exact iff_of_true (settles_refused hl hx) (.absent habsent)
      · have hle := f.total_le
        have hneed : neededLength f.name newContentLen = 3+f.name.length+1+newContentLen := rfl
        rw [show MINIFSFACTOR = 128 from rfl] at hb
        have hgrows : f.content.length < newContentLen := by omega
        have hleads := resize_leads hl h hw hs hgrows
        constructor
        · intro hsettles
          obtain ⟨s', hrun⟩ := settles_large (by rw [show MINIFSFACTOR = 128 from rfl]; omega)
            hsettles
          obtain ⟨s₁, hv₁, hrun₁⟩ := hleads.run s (fun _ _ => rfl)
          rw [hrun₁] at hrun
          by_cases hfits : neededLength f.name newContentLen < 65536
          · obtain ⟨s₂, hv₂, hrun₂⟩ := (grow_leads hl h hs hlen
              (by rw [show MINIFSFACTOR = 128 from rfl]; omega) hfits).run s₁ hv₁
            rw [hrun₂] at hrun
            by_contra hnot
            exact extend_not_refused hl h (fun hno => hnot
              (.noRegion pre post f hs rfl hfits hno.1 hno.2)) hv₂ hrun
          · exact (grow_wrapped hl h hs hlen (by omega) hv₁ hrun).elim
        · intro hrefused
          refine settles_refused hl (hleads.exec.trans ?_)
          cases hrefused with
          | readOnly hro =>
            rw [hw] at hro
            cases hro
          | absent habsent => exact absurd rfl (habsent f (by simp [hs]))
          | noRegion pre' post' f' hs' hname hfits hroom hno =>
            -- a name stands for one file
            have heq : f' = f := wf_name_inj v.wf f' f (by simp [hs']) (by simp [hs]) hname
            subst heq
            rw [(grow_leads hl h hs hlen (by rw [show MINIFSFACTOR = 128 from rfl]; omega)
              hfits).exec]
            have hothers := wf_others (hs' ▸ v.wf)
            obtain ⟨_, _, rfl⟩ := (List.append_cons_inj_of_notMem
              (fun hmem => hothers f' (List.mem_append_left _ hmem) rfl)
              (fun hmem => hothers f' (List.mem_append_right _ hmem) rfl)).mp (hs'.symm.trans hs)
            exact exec_extend_refused h hroom hno

end Large

end ArduinoOS.Minifs
