import Mathlib.Data.List.Chain
import Mathlib.Data.List.Nodup
import ArduinoOS.Minifs.Layout

/-!
# Searching a volume

The searches through the header of a volume that an image holds: by name, for
a free slot, for the next file, and first fit for a free region. Each is
stated on the list of files split at the place the search has reached.
-/

set_option autoImplicit false

namespace ArduinoOS.Minifs
open ArduinoOS.ByteProgram

/-! ### The header of a list of files -/

theorem headerOf_length {files : List File} (h : files.length ≤ 126) :
    (headerOf files).length = 126 := by
  simp [headerOf]
  omega

theorem headerOf_file (pre : List File) (f : File) (post : List File)
    (h : pre.length < (headerOf (pre++f::post)).length) :
    (headerOf (pre++f::post))[pre.length] = f.off := by
  simp [headerOf]

theorem headerOf_end (files : List File) (i : ℕ) (hi : files.length ≤ i)
    (h : i < (headerOf files).length) : (headerOf files)[i] = 0 := by
  simp only [headerOf]
  rw [List.getElem_append_right (by simpa using hi)]
  simp

/-! ### Consequences of well-formedness -/

section WellFormed

variable {total : ℕ} {files : List File} (h : WellFormed total files)
include h

theorem wf_off_lt (f : File) (hf : f ∈ files) : f.off < total := by
  have hp := f.sizeFactor_pos
  have hin := h.inside f hf
  simp only [File.fin] at hin
  omega

theorem wf_off_byte (f : File) (hf : f ∈ files) : f.off < 256 := by
  have hlt := wf_off_lt h f hf
  have ht := h.total_le
  omega

/-- What a split of the file list says about the file in the middle. -/
theorem wf_split (pre post : List File) (f : File) (hs : files = pre++f::post) :
    (∀ g ∈ pre, g.fin ≤ f.off) ∧ (∀ g ∈ post, f.fin ≤ g.off) := by
  have hd := h.disjoint
  rw [hs, List.pairwise_append, List.pairwise_cons] at hd
  exact ⟨fun g hg => hd.2.2 g hg f (by simp), hd.2.1.1⟩

/-- Distinct files do not overlap, whichever comes first. -/
theorem wf_apart (f g : File) (hf : f ∈ files) (hg : g ∈ files) (hne : f ≠ g) :
    f.fin ≤ g.off ∨ g.fin ≤ f.off := by
  have hsym : files.Pairwise (fun a b => a ≠ b → a.fin ≤ b.off ∨ b.fin ≤ a.off) :=
    h.disjoint.imp (fun hab _ => Or.inl hab)
  exact hsym.forall_of_forall_of_flip (fun _ _ hn => absurd rfl hn)
    (h.disjoint.imp (fun hab _ => Or.inr hab)) hf hg hne

theorem wf_name_inj (f g : File) (hf : f ∈ files) (hg : g ∈ files) (hn : f.name = g.name) :
    f = g :=
  List.inj_on_of_nodup_map h.names hf hg hn

end WellFormed

/-! ### Reading the header of a volume -/

section Searches

variable {size : ℕ} {m : Image} {v : Volume} (h : Holds size m v)
include h

theorem fileAt_of_split (pre post : List File) (f : File) (hs : v.files = pre++f::post) :
    FileAt m f :=
  h.files f (by simp [hs])

theorem exec_factor_file (pre post : List File) (f : File) (hs : v.files = pre++f::post) :
    (miniFsFileGetBaseOffsetFactorFromIndex pre.length).exec size m = some (f.off, m) := by
  have hlen : pre.length < (headerOf v.files).length := by
    rw [headerOf_length v.wf.count]
    have hc := v.wf.count
    simp [hs] at hc
    omega
  have hx := exec_factor h.header.toSlots pre.length hlen
  simp only [hs] at hx
  rw [hx, headerOf_file]

theorem exec_factor_end (i : ℕ) (hi : v.files.length ≤ i) (hlt : i < 126) :
    (miniFsFileGetBaseOffsetFactorFromIndex i).exec size m = some (0, m) := by
  have hlen : i < (headerOf v.files).length := by
    rw [headerOf_length v.wf.count]
    exact hlt
  rw [exec_factor h.header.toSlots i hlen, headerOf_end v.files i hi]

theorem exec_baseOffset_file (pre post : List File) (f : File) (hs : v.files = pre++f::post) :
    (miniFsFileGetBaseOffsetFromIndex pre.length).exec size m = some (128*f.off, m) := by
  have hb := wf_off_byte v.wf f (by simp [hs])
  rw [miniFsFileGetBaseOffsetFromIndex,
    Prog.exec_bind_of _ _ _ _ _ _ (exec_factor_file h pre post f hs),
    show MINIFSFACTOR = 128 from rfl, u16_of_lt (by omega), Nat.mul_comm]
  rfl

theorem exec_baseOffset_end (i : ℕ) (hi : v.files.length ≤ i) (hlt : i < 126) :
    (miniFsFileGetBaseOffsetFromIndex i).exec size m = some (0, m) := by
  rw [miniFsFileGetBaseOffsetFromIndex,
    Prog.exec_bind_of _ _ _ _ _ _ (exec_factor_end h i hi hlt)]
  rfl

theorem exec_slotEmpty_file (pre post : List File) (f : File) (hs : v.files = pre++f::post) :
    (miniFsIsFileSlotEmpty pre.length).exec size m = some (false, m) := by
  have hx := exec_factor_file h pre post f hs
  have hp := f.off_pos
  simp only [miniFsFileGetBaseOffsetFactorFromIndex, Prog.exec_bind_some] at hx
  obtain ⟨b, m₁, hb, hr⟩ := hx
  simp only [Prog.exec_pure, Option.some.injEq, Prod.mk.injEq] at hr
  rw [miniFsIsFileSlotEmpty, Prog.exec_bind_of _ _ _ _ _ _ hb, hr.1, hr.2]
  simp [MINIFSFILEOFFSETINVALID]
  omega

theorem exec_slotEmpty_end (i : ℕ) (hi : v.files.length ≤ i) (hlt : i < 126) :
    (miniFsIsFileSlotEmpty i).exec size m = some (true, m) := by
  have hlen : i < (headerOf v.files).length := by
    rw [headerOf_length v.wf.count]
    exact hlt
  rw [exec_slotEmpty h.header.toSlots i hlen, headerOf_end v.files i hi]
  rfl

theorem room_of_mem (f : File) (hf : f ∈ v.files) : 128*f.off+f.totalLen ≤ size :=
  region_room h.header.room (v.wf.inside f hf)

theorem exec_sizeFactor_file (pre post : List File) (f : File) (hs : v.files = pre++f::post) :
    (miniFsFileGetSizeFactorFromIndex pre.length).exec size m = some (f.sizeFactor, m) := by
  have hf : f ∈ v.files := by simp [hs]
  rw [miniFsFileGetSizeFactorFromIndex,
    Prog.exec_bind_of _ _ _ _ _ _ (exec_baseOffset_file h pre post f hs)]
  exact exec_fileSizeFactor (h.files f hf) (room_of_mem h f hf) (wf_off_byte v.wf f hf)

/-! ### Search by name -/

omit h in
theorem split_count (pre post : List File) (f : File) (hs : v.files = pre++f::post) :
    pre.length+1+post.length ≤ 126 := by
  have hc := v.wf.count
  simp [hs] at hc
  omega

/-- What the search finds in the files from index `i` on. -/
def lookupFrom (filename : CStr) : ℕ → List File → ℕ × ℕ
  | _, [] => (126, 0)
  | i, f::fs => if f.name = filename then (i, 128*f.off) else lookupFrom filename (i+1) fs

theorem exec_filenameToIndexLoop (filename : CStr) (pre rest : List File)
    (hs : v.files = pre++rest) :
    (miniFsFilenameToIndexLoop filename pre.length (126-pre.length)).exec size m =
      some (lookupFrom filename pre.length rest, m) := by
  have hc := v.wf.count
  induction rest generalizing pre with
  | nil =>
    by_cases hfull : pre.length = 126
    · rw [hfull]
      rfl
    · have hl : v.files.length = pre.length := by simp [hs]
      rw [show 126-pre.length = (126-pre.length-1)+1 by omega, miniFsFilenameToIndexLoop,
        Prog.exec_bind_of _ _ _ _ _ _ (exec_baseOffset_end h pre.length (by omega) (by omega))]
      rfl
  | cons f rest ih =>
    have hcount := split_count pre rest f hs
    have hf : f ∈ v.files := by simp [hs]
    have hb := wf_off_byte v.wf f hf
    have hp := f.off_pos
    rw [show 126-pre.length = (126-(pre.length+1))+1 by omega, miniFsFilenameToIndexLoop,
      Prog.exec_bind_of _ _ _ _ _ _ (exec_baseOffset_file h pre rest f hs), if_neg (by omega),
      filenameOffset_eq hb,
      Prog.exec_bind_of _ _ _ _ _ _
        (exec_filenameMatches (h.files f hf) (room_of_mem h f hf) hb filename)]
    by_cases hn : f.name = filename
    · simp [hn, lookupFrom]
    · have hrec := ih (pre++[f]) (by simp [hs])
      simp only [List.length_append, List.length_singleton] at hrec
      simp only [hn, decide_false, Bool.false_eq_true, if_false, lookupFrom]
      exact hrec

omit h in
theorem lookupFrom_absent (filename : CStr) (i : ℕ) (files : List File)
    (ha : ∀ f ∈ files, f.name ≠ filename) : lookupFrom filename i files = (126, 0) := by
  induction files generalizing i with
  | nil => rfl
  | cons f fs ih =>
    rw [lookupFrom, if_neg (ha f (by simp))]
    exact ih (i+1) (fun g hg => ha g (by simp [hg]))

omit h in
theorem lookupFrom_found (filename : CStr) (i : ℕ) (pre post : List File) (f : File)
    (ha : ∀ g ∈ pre, g.name ≠ filename) (hn : f.name = filename) :
    lookupFrom filename i (pre++f::post) = (i+pre.length, 128*f.off) := by
  induction pre generalizing i with
  | nil => simp [lookupFrom, hn]
  | cons g pre ih =>
    rw [List.cons_append, lookupFrom, if_neg (ha g (by simp)),
      ih (i+1) (fun g' hg => ha g' (by simp [hg]))]
    simp
    omega

theorem exec_filenameToIndex_absent (filename : CStr)
    (ha : ∀ f ∈ v.files, f.name ≠ filename) :
    (miniFsFilenameToIndex filename).exec size m = some ((126, 0), m) := by
  have hx := exec_filenameToIndexLoop h filename [] v.files rfl
  rw [lookupFrom_absent filename _ _ ha] at hx
  exact hx

theorem exec_filenameToIndex_found (pre post : List File) (f : File)
    (hs : v.files = pre++f::post) :
    (miniFsFilenameToIndex f.name).exec size m = some ((pre.length, 128*f.off), m) := by
  have hx := exec_filenameToIndexLoop h f.name [] v.files rfl
  have hn := v.wf.names
  have hother : ∀ g ∈ pre, g.name ≠ f.name := by
    intro g hg he
    rw [hs, List.map_append, List.map_cons, List.nodup_append] at hn
    exact hn.2.2 g.name (List.mem_map_of_mem hg) f.name (by simp) he
  rw [hs, lookupFrom_found f.name _ pre post f hother rfl] at hx
  simp only [List.length_nil, Nat.zero_add] at hx
  exact hx

omit h in
/-- Either no file has the name, or the list splits at the one that has it. -/
theorem find_cases (v : Volume) (filename : CStr) :
    (∀ f ∈ v.files, f.name ≠ filename) ∨
      ∃ pre f post, v.files = pre++f::post ∧ f.name = filename := by
  by_cases he : ∃ f ∈ v.files, f.name = filename
  · obtain ⟨f, hf, hn⟩ := he
    obtain ⟨pre, post, hs⟩ := List.append_of_mem hf
    exact Or.inr ⟨pre, f, post, hs, hn⟩
  · exact Or.inl (fun f hf hn => he ⟨f, hf, hn⟩)

/-! ### Slots in use -/

theorem exec_getEmptyIndexLoop (pre rest : List File) (hs : v.files = pre++rest) :
    (miniFsGetEmptyIndexLoop pre.length (126-pre.length)).exec size m =
      some (v.files.length, m) := by
  have hc := v.wf.count
  induction rest generalizing pre with
  | nil =>
    have hl : v.files.length = pre.length := by simp [hs]
    by_cases hfull : pre.length = 126
    · rw [hl, hfull]
      rfl
    · rw [show 126-pre.length = (126-pre.length-1)+1 by omega, miniFsGetEmptyIndexLoop,
        Prog.exec_bind_of _ _ _ _ _ _ (exec_slotEmpty_end h pre.length (by omega) (by omega)),
        hl]
      rfl
  | cons f rest ih =>
    have hcount := split_count pre rest f hs
    have hrec := ih (pre++[f]) (by simp [hs])
    simp only [List.length_append, List.length_singleton] at hrec
    rw [show 126-pre.length = (126-(pre.length+1))+1 by omega, miniFsGetEmptyIndexLoop,
      Prog.exec_bind_of _ _ _ _ _ _ (exec_slotEmpty_file h pre rest f hs)]
    exact hrec

theorem exec_getEmptyIndex : miniFsGetEmptyIndex.exec size m = some (v.files.length, m) :=
  exec_getEmptyIndexLoop h [] v.files rfl

/-- The first file after index `pre.length`, if there is one. -/
theorem exec_nextFileLoop (pre post : List File) (f : File) (hs : v.files = pre++f::post) :
    (miniFsNextFileLoop (pre.length+1) 0 (126-(pre.length+1))).exec size m =
      some (match post with
        | [] => (126, 0)
        | g::_ => (pre.length+1, g.off), m) := by
  have hcount := split_count pre post f hs
  cases post with
  | nil =>
    have hend : ∀ fuel i, v.files.length ≤ i → i+fuel = 126 →
        (miniFsNextFileLoop i 0 fuel).exec size m = some ((126, 0), m) := by
      intro fuel
      induction fuel with
      | zero =>
        intro i _ hi
        rw [show i = 126 by omega]
        rfl
      | succ fuel ih =>
        intro i hl hi
        rw [miniFsNextFileLoop,
          Prog.exec_bind_of _ _ _ _ _ _ (exec_factor_end h i hl (by omega))]
        exact ih (i+1) (by omega) (by omega)
    exact hend _ _ (by simp [hs]) (by omega)
  | cons g post =>
    have hp := g.off_pos
    have hx := exec_factor_file h (pre++[f]) post g (by simp [hs])
    simp only [List.length_append, List.length_singleton] at hx hcount
    simp only [List.length_cons] at hcount
    rw [show 126-(pre.length+1) = (126-(pre.length+1)-1)+1 by omega, miniFsNextFileLoop,
      Prog.exec_bind_of _ _ _ _ _ _ hx, if_pos (by omega)]
    rfl

/-! ### First fit -/

omit h in
/-- Factors `r` to `r+sizeFactor` are free: between two files, before the
first or after the last. -/
def Gap (total sizeFactor : ℕ) (files : List File) (r : ℕ) : Prop :=
  ∃ pre post, files = pre++post ∧ 1 ≤ r ∧ r+sizeFactor ≤ total ∧
    (∀ f ∈ pre, f.fin ≤ r) ∧ (∀ f ∈ post, r+sizeFactor ≤ f.off)

omit h in
theorem fin_le_of_split (pre post : List File) (f : File) (hs : v.files = pre++f::post) :
    ∀ g ∈ pre++[f], g.fin ≤ f.fin := by
  intro g hg
  rcases List.mem_append.mp hg with hg | hg
  · have hle := (wf_split v.wf pre post f hs).1 g hg
    have hp := f.sizeFactor_pos
    simp only [File.fin] at hle ⊢
    omega
  · rw [List.mem_singleton.mp hg]

theorem exec_findFreeRegionLoop (sf : ℕ) (hsf : 1 ≤ sf) (pre rest : List File) (a : File)
    (hs : v.files = pre++a::rest) :
    (∃ r last, (miniFsFindFreeRegionLoop sf pre.length (pre.length+1)
        (126-(pre.length+1))).exec size m = some ((some r, last), m) ∧
        Gap v.total sf v.files r) ∨
      (∃ pre' last, (miniFsFindFreeRegionLoop sf pre.length (pre.length+1)
        (126-(pre.length+1))).exec size m = some ((none, pre'.length), m) ∧
        v.files = pre'++[last] ∧ (a::rest).IsChain (fun f g => ¬ f.fin+sf ≤ g.off)) := by
  induction rest generalizing pre a with
  | nil =>
    refine Or.inr ⟨pre, a, ?_, hs, .singleton a⟩
    have hcount := split_count pre [] a hs
    by_cases hfull : pre.length+1 = 126
    · rw [hfull]
      rfl
    · rw [show 126-(pre.length+1) = (126-(pre.length+1)-1)+1 by omega, miniFsFindFreeRegionLoop,
        Prog.exec_bind_of _ _ _ _ _ _
          (exec_factor_end h (pre.length+1) (by simp [hs]) (by omega))]
      rfl
  | cons b rest ih =>
    have hcount := split_count pre (b::rest) a hs
    simp only [List.length_cons] at hcount
    have hpb := b.off_pos
    have hs' : v.files = (pre++[a])++b::rest := by simp [hs]
    have hb := exec_factor_file h (pre++[a]) rest b hs'
    simp only [List.length_append, List.length_singleton] at hb
    have hbyte := wf_off_byte v.wf b (by simp [hs])
    have hab : a.fin ≤ b.off := (wf_split v.wf pre (b::rest) a hs).2 b (by simp)
    have hfin : a.fin = a.off+a.sizeFactor := rfl
    rw [show 126-(pre.length+1) = (126-(pre.length+2))+1 by omega, miniFsFindFreeRegionLoop,
      Prog.exec_bind_of _ _ _ _ _ _ hb, if_neg (by omega),
      Prog.exec_bind_of _ _ _ _ _ _ (exec_factor_file h pre (b::rest) a hs),
      Prog.exec_bind_of _ _ _ _ _ _ (exec_sizeFactor_file h pre (b::rest) a hs)]
    by_cases hfit : a.fin+sf ≤ b.off
    · rw [if_pos (by omega), u8_of_lt (by omega)]
      refine Or.inl ⟨a.fin, pre.length, rfl, pre++[a], b::rest, hs', ?_, ?_, ?_, ?_⟩
      · have hpa := a.off_pos
        omega
      · have hlt := wf_off_lt v.wf b (by simp [hs])
        omega
      · exact fin_le_of_split pre (b::rest) a hs
      · intro f hf
        rcases List.mem_cons.mp hf with rfl | hf
        · exact hfit
        · have hle := (wf_split v.wf (pre++[a]) rest b hs').2 f hf
          simp only [File.fin] at hle
          omega
    · rw [if_neg (by omega)]
      have hrec := ih (pre++[a]) b hs'
      simp only [List.length_append, List.length_singleton] at hrec
      rcases hrec with hfound | ⟨pre', last, hx, hlast, hchain⟩
      · exact Or.inl hfound
      · exact Or.inr ⟨pre', last, hx, hlast, List.isChain_cons_cons.mpr ⟨hfit, hchain⟩⟩

omit h in
/-- A gap is in front of the files, between two neighbours or behind the last. -/
theorem gap_places {total sf r : ℕ} {files : List File} (hgap : Gap total sf files r) :
    (∀ f, files.head? = some f → 1+sf ≤ f.off) ∨ (∃ f, files.getLast? = some f ∧ f.fin+sf ≤ total) ∨
      ¬ files.IsChain (fun f g => ¬ f.fin+sf ≤ g.off) := by
  obtain ⟨pre, post, rfl, h1, ht, hpre, hpost⟩ := hgap
  rcases List.eq_nil_or_concat pre with rfl | ⟨pre, a, rfl⟩
  · left
    intro f hf
    have hle := hpost f (List.mem_of_head? hf)
    omega
  · right
    have ha := hpre a (by simp)
    cases post with
    | nil =>
      left
      exact ⟨a, by simp, by omega⟩
    | cons b post =>
      right
      intro hchain
      have hle := hpost b (by simp)
      rw [List.concat_eq_append, List.append_assoc, List.isChain_append] at hchain
      exact (List.isChain_cons_cons.mp hchain.2.1).1 (by omega)

/-- First fit answers the start of a free region of the wanted size, or 0 when
there is none. -/
theorem exec_findFreeRegionFactor (sf : ℕ) (hsf : 1 ≤ sf) :
    ∃ r, (miniFsFindFreeRegionFactor sf).exec size m = some (r, m) ∧
      (r = 0 ∧ (∀ r, ¬ Gap v.total sf v.files r) ∨ Gap v.total sf v.files r) := by
  have ht := v.wf.total_pos
  have hle := v.wf.total_le
  cases hs : v.files with
  | nil =>
    rw [miniFsFindFreeRegionFactor,
      Prog.exec_bind_of _ _ _ _ _ _ (exec_factor_end h 0 (by simp [hs]) (by decide)),
      if_pos rfl, Prog.exec_bind_of _ _ _ _ _ _ (exec_totalMinusOne h.header),
      show MINIFSFILEMINOFFSETFACTOR = 1 from rfl]
    have hu : u32 (v.total-1+4294967296-1+1) = v.total-1 := by
      simp only [u32]
      omega
    rw [hu]
    by_cases hfit : sf > v.total-1
    · rw [if_pos hfit]
      refine ⟨0, rfl, Or.inl ⟨rfl, ?_⟩⟩
      rintro r ⟨_, _, _, h1, hend, _⟩
      omega
    · rw [if_neg hfit]
      exact ⟨1, rfl, Or.inr ⟨[], [], rfl, by omega, by omega, by simp, by simp⟩⟩
  | cons a rest =>
    have hfirst := exec_factor_file h [] rest a hs
    simp only [List.length_nil] at hfirst
    have hp := a.off_pos
    have hbyte := wf_off_byte v.wf a (by simp [hs])
    have hin := wf_off_lt v.wf a (by simp [hs])
    rw [miniFsFindFreeRegionFactor, Prog.exec_bind_of _ _ _ _ _ _ hfirst, if_neg (by omega),
      Prog.exec_bind_of _ _ _ _ _ _ hfirst, show MINIFSFILEMINOFFSETFACTOR = 1 from rfl]
    have hu : u32 (a.off+4294967296-1) = a.off-1 := by
      simp only [u32]
      omega
    rw [hu]
    by_cases hfit : sf ≤ a.off-1
    · rw [if_pos hfit]
      refine ⟨1, rfl, Or.inr ⟨[], a::rest, rfl, by omega, by omega, by simp, ?_⟩⟩
      intro f hf
      rcases List.mem_cons.mp hf with rfl | hf
      · omega
      · have hlt := (wf_split v.wf [] rest a hs).2 f hf
        simp only [File.fin] at hlt
        omega
    · have hloop := exec_findFreeRegionLoop h sf hsf [] rest a hs
      change (∃ r last, (miniFsFindFreeRegionLoop sf 0 1 (MINIFSMAXFILES-1)).exec size m = _ ∧ _) ∨
        (∃ pre' last, (miniFsFindFreeRegionLoop sf 0 1 (MINIFSMAXFILES-1)).exec size m = _ ∧ _)
        at hloop
      rw [if_neg hfit, ← hs]
      rcases hloop with ⟨r, last, hx, hgap⟩ | ⟨pre', last, hx, hlast, hchain⟩
      · rw [Prog.exec_bind_of _ _ _ _ _ _ hx]
        exact ⟨r, rfl, Or.inr hgap⟩
      · have hinl : last.fin ≤ v.total := v.wf.inside last (by simp [hlast])
        have hfin : last.fin = last.off+last.sizeFactor := rfl
        rw [Prog.exec_bind_of _ _ _ _ _ _ hx]
        dsimp only
        rw [Prog.exec_bind_of _ _ _ _ _ _ (exec_factor_file h pre' [] last hlast),
          Prog.exec_bind_of _ _ _ _ _ _ (exec_sizeFactor_file h pre' [] last hlast),
          Prog.exec_bind_of _ _ _ _ _ _ (exec_totalMinusOne h.header)]
        by_cases hend : last.fin+sf ≤ v.total
        · rw [if_pos (by omega), u8_of_lt (by omega)]
          refine ⟨last.fin, rfl, Or.inr ⟨v.files, [], by simp, ?_, hend, ?_, by simp⟩⟩
          · have hpl := last.off_pos
            omega
          · rw [hlast]
            exact fin_le_of_split pre' [] last hlast
        · rw [if_neg (by omega)]
          refine ⟨0, rfl, Or.inl ⟨rfl, fun r hgap => ?_⟩⟩
          rcases gap_places hgap with hfront | ⟨f, hf, hbehind⟩ | hbetween
          · have hle := hfront a (by rw [hs]; rfl)
            omega
          · rw [hlast, List.getLast?_concat] at hf
            cases hf
            exact hend hbehind
          · exact hbetween (hs ▸ hchain)

omit h in
/-- No blocks fit in front of the first file. -/
theorem exec_findFreeRegionFactor_zero (h : Holds size m v) :
    (miniFsFindFreeRegionFactor 0).exec size m = some (1, m) := by
  cases hs : v.files with
  | nil =>
    rw [miniFsFindFreeRegionFactor,
      Prog.exec_bind_of _ _ _ _ _ _ (exec_factor_end h 0 (by simp [hs]) (by decide)),
      if_pos rfl, Prog.exec_bind_of _ _ _ _ _ _ (exec_totalMinusOne h.header),
      if_neg (Nat.not_lt_zero _)]
    rfl
  | cons a rest =>
    have hfirst := exec_factor_file h [] rest a hs
    simp only [List.length_nil] at hfirst
    have hp := a.off_pos
    rw [miniFsFindFreeRegionFactor, Prog.exec_bind_of _ _ _ _ _ _ hfirst, if_neg (by omega),
      Prog.exec_bind_of _ _ _ _ _ _ hfirst, if_pos (Nat.zero_le _)]
    rfl

end Searches

end ArduinoOS.Minifs
