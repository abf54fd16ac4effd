import ArduinoOS.Minifs.Resize

/-!
# A volume as a map from names to contents

The abstract volume is a finite map; the operations update one name or refuse.
A device that honours accesses in range and holds a formatted volume runs every
sequence of operations as steps of that map, and answers queries from it.
-/

set_option autoImplicit false

namespace ArduinoOS.Minifs
open ArduinoOS.ByteProgram

/-! ### The abstract map -/

abbrev FileMap := CStr → Option (List UInt8)

namespace FileMap

def empty : FileMap := fun _ => none

def set (map : FileMap) (filename : CStr) (c : Option (List UInt8)) : FileMap :=
  fun n => if n = filename then c else map n

end FileMap

/-- The operations that change a volume. -/
inductive Op
  | create (filename : CStr) (contentSize : ℕ)
  | delete (filename : CStr)
  | resize (filename : CStr) (newContentLen : ℕ)
  | write (filename : CStr) (offset : ℕ) (data : List UInt8)

namespace Op

/-- The requested total length is one that the size factor can describe. -/
def Bounded : Op → Prop
  | .create filename contentSize => 3+filename.length+1+contentSize ≤ 255*MINIFSFACTOR
  | .resize filename newContentLen => 3+filename.length+1+newContentLen ≤ 255*MINIFSFACTOR
  | .delete _ => True
  | .write _ _ _ => True

/-- The call, with `false` and `true` as 0 and 1. -/
def call (fs : MiniFs) : Op → Prog ℕ
  | .create filename contentSize => do
      let b ← miniFsFileCreate fs filename contentSize
      pure b.toNat
  | .delete filename => do
      let b ← miniFsFileDelete fs filename
      pure b.toNat
  | .resize filename newContentLen => do
      let b ← miniFsFileResize fs filename newContentLen
      pure b.toNat
  | .write filename offset data => miniFsFileWrite fs filename offset data

end Op

/-- What a call may do to the map and answer. Creating and growing may be
refused for want of space; the bytes they add are not determined. -/
inductive Step : Bool → Op → ℕ → FileMap → FileMap → Prop
  | readOnly (op : Op) (map : FileMap) : Step false op 0 map map
  | createRefused (filename : CStr) (contentSize : ℕ) (map : FileMap) :
      Step true (.create filename contentSize) 0 map map
  | created (filename : CStr) (contentSize : ℕ) (map : FileMap) (new : List UInt8)
      (hfresh : map filename = none) (hlen : new.length = contentSize) :
      Step true (.create filename contentSize) 1 map (map.set filename (some new))
  | deleteAbsent (filename : CStr) (map : FileMap) (habsent : map filename = none) :
      Step true (.delete filename) 0 map map
  | deleted (filename : CStr) (map : FileMap) (old : List UInt8)
      (hold : map filename = some old) :
      Step true (.delete filename) 1 map (map.set filename none)
  | resizeRefused (filename : CStr) (newContentLen : ℕ) (map : FileMap) :
      Step true (.resize filename newContentLen) 0 map map
  | resized (filename : CStr) (newContentLen : ℕ) (map : FileMap) (old new : List UInt8)
      (hold : map filename = some old) (hnew : SameStart newContentLen old new) :
      Step true (.resize filename newContentLen) 1 map (map.set filename (some new))
  | writeAbsent (filename : CStr) (offset : ℕ) (data : List UInt8) (map : FileMap)
      (habsent : map filename = none) : Step true (.write filename offset data) 0 map map
  | written (filename : CStr) (offset : ℕ) (data : List UInt8) (map : FileMap)
      (old : List UInt8) (hold : map filename = some old) :
      Step true (.write filename offset data) (min data.length (old.length-offset)) map
        (map.set filename (some (patch old offset data)))

inductive Steps (writable : Bool) : List Op → List ℕ → FileMap → FileMap → Prop
  | nil (map : FileMap) : Steps writable [] [] map map
  | cons (op : Op) (ops : List Op) (r : ℕ) (rs : List ℕ) (map map₁ map₂ : FileMap)
      (hstep : Step writable op r map map₁) (hrest : Steps writable ops rs map₁ map₂) :
      Steps writable (op::ops) (r::rs) map map₂

/-- A call that answers 0 leaves the map as it was. -/
theorem step_zero {w : Bool} {op : Op} {map map' : FileMap} (h : Step w op 0 map map') :
    map' = map := by
  generalize hr : 0 = r at h
  cases h with
  | readOnly | createRefused | deleteAbsent | resizeRefused | writeAbsent => rfl
  | created | deleted | resized => omega
  | written filename offset data _ old hold =>
    funext n
    by_cases hn : n = filename
    · subst hn
      have hnone : data.take (old.length-offset) = [] := by
        apply List.eq_nil_of_length_eq_zero
        rw [List.length_take]
        omega
      simp [FileMap.set, hold, patch, hnone]
    · simp [FileMap.set, hn]

/-! ### The map of a volume -/

def Volume.fileMap (v : Volume) : FileMap := fun filename =>
  (v.files.find? (fun f => f.name = filename)).map File.content

theorem fileMap_none {v : Volume} {filename : CStr} (h : ∀ f ∈ v.files, f.name ≠ filename) :
    v.fileMap filename = none := by
  have hn : v.files.find? (fun f => f.name = filename) = none :=
    List.find?_eq_none.mpr (fun f hf => by simpa using h f hf)
  rw [Volume.fileMap, hn]
  rfl

theorem fileMap_some {v : Volume} {f : File} (hf : f ∈ v.files) :
    v.fileMap f.name = some f.content := by
  cases hx : v.files.find? (fun g => g.name = f.name) with
  | none =>
    have hne := List.find?_eq_none.mp hx f hf
    simp at hne
  | some g =>
    have hg := List.mem_of_find?_eq_some hx
    have hn : g.name = f.name := by simpa using List.find?_some hx
    rw [Volume.fileMap, hx, wf_name_inj v.wf g f hg hf hn]
    rfl

/-- The map without one file is the map of the rest. -/
theorem fileMap_eq_set {v v' : Volume} {filename : CStr} {c : Option (List UInt8)}
    (hc : v'.fileMap filename = c)
    (hrest : ∀ f : File, f.name ≠ filename → (f ∈ v'.files ↔ f ∈ v.files)) :
    v'.fileMap = v.fileMap.set filename c := by
  funext n
  by_cases hn : n = filename
  · simp [FileMap.set, hn, hc]
  · rw [FileMap.set, if_neg hn]
    rcases find_cases v n with ha | ⟨pre, f, post, hs, rfl⟩
    · have ha' : ∀ f ∈ v'.files, f.name ≠ n := by
        intro f hf he
        exact ha f ((hrest f (by rw [he]; exact hn)).mp hf) he
      rw [fileMap_none ha, fileMap_none ha']
    · have hf : f ∈ v.files := by simp [hs]
      rw [fileMap_some hf, fileMap_some ((hrest f hn).mpr hf)]

theorem fileMap_created {filename : CStr} {contentSize : ℕ} {v v' : Volume}
    (h : Created filename contentSize v v') :
    ∃ new, new.length = contentSize ∧ v.fileMap filename = none ∧
      v'.fileMap = v.fileMap.set filename (some new) := by
  obtain ⟨_, pre, post, f, hs, hs', hn, hlen⟩ := h
  subst hn
  have hothers := wf_others (hs' ▸ v'.wf)
  refine ⟨f.content, hlen, fileMap_none (hs ▸ hothers),
    fileMap_eq_set (fileMap_some (by simp [hs'])) ?_⟩
  intro g hg
  have hne : g ≠ f := fun he => hg (he ▸ rfl)
  simp [hs, hs', hne]

theorem fileMap_deleted {filename : CStr} {v v' : Volume} (h : Deleted filename v v') :
    ∃ old, v.fileMap filename = some old ∧ v'.fileMap = v.fileMap.set filename none := by
  obtain ⟨_, pre, post, f, hs, hs', hn⟩ := h
  subst hn
  have hothers := wf_others (hs ▸ v.wf)
  refine ⟨f.content, fileMap_some (by simp [hs]),
    fileMap_eq_set (fileMap_none (hs' ▸ hothers)) ?_⟩
  intro g hg
  have hne : g ≠ f := fun he => hg (he ▸ rfl)
  simp [hs, hs', hne]

theorem fileMap_replaced {filename : CStr} {new : List UInt8 → List UInt8 → Prop}
    {v v' : Volume} (h : Replaced filename new v v') :
    ∃ old c, v.fileMap filename = some old ∧ new old c ∧
      v'.fileMap = v.fileMap.set filename (some c) := by
  obtain ⟨_, pre, post, pre', post', f, f', hs, hs', hsplit, hn, hn', hnew⟩ := h
  refine ⟨f.content, f'.content, hn ▸ fileMap_some (by simp [hs]), hnew,
    fileMap_eq_set (hn' ▸ fileMap_some (by simp [hs'])) ?_⟩
  intro g hg
  have hne : g ≠ f := fun he => hg (he ▸ hn)
  have hne' : g ≠ f' := fun he => hg (he ▸ hn')
  have hmem : g ∈ pre++post ↔ g ∈ pre'++post' := by rw [hsplit]
  simp only [List.mem_append] at hmem
  simp [hs, hs', hne, hne', hmem]

/-! ### One call over an image -/

section Call

variable {size : ℕ} {m : Image} {v : Volume} {fs : MiniFs}

theorem exec_call_readOnly (hw : fs.writable = false) (op : Op) :
    (op.call fs).exec size m = some (0, m) := by
  have hro : miniFsGetReadOnly fs = true := by simp [miniFsGetReadOnly, hw]
  cases op with
  | create filename contentSize =>
    by_cases hn : u16 filename.length ≥ MiniFsPathMax
    · simp [Op.call, miniFsFileCreate, hn]
    · simp [Op.call, miniFsFileCreate, hn, hro]
  | delete filename => simp [Op.call, miniFsFileDelete, hro]
  | resize filename len => simp [Op.call, miniFsFileResize, hro]
  | write filename offset data => simp [Op.call, miniFsFileWrite, hro]

theorem exec_call (h : Holds size m v) (op : Op) (hb : op.Bounded) :
    ∃ r m' v', (op.call fs).exec size m = some (r, m') ∧ Holds size m' v' ∧
      Step fs.writable op r v.fileMap v'.fileMap := by
  cases hw : fs.writable with
  | false => exact ⟨0, m, v, exec_call_readOnly hw op, h, Step.readOnly op _⟩
  | true =>
    cases op with
    | create filename contentSize =>
      have hlen : 3+filename.length+1+contentSize ≤ 32640 := hb
      rcases exec_fileCreate h hw filename contentSize hlen with hx | ⟨m', v', hx, hh, hc⟩
      · exact ⟨0, m, v, by rw [Op.call, Prog.exec_bind_of _ _ _ _ _ _ hx]; rfl, h,
          Step.createRefused _ _ _⟩
      · obtain ⟨new, hl, hfresh, hmap⟩ := fileMap_created hc
        refine ⟨1, m', v', by rw [Op.call, Prog.exec_bind_of _ _ _ _ _ _ hx]; rfl, hh, ?_⟩
        rw [hmap]
        exact Step.created _ _ _ new hfresh hl
    | delete filename =>
      rcases exec_fileDelete h hw filename with ⟨ha, hx⟩ | ⟨m', v', hx, hh, hd⟩
      · exact ⟨0, m, v, by rw [Op.call, Prog.exec_bind_of _ _ _ _ _ _ hx]; rfl, h,
          Step.deleteAbsent _ _ (fileMap_none ha)⟩
      · obtain ⟨old, hold, hmap⟩ := fileMap_deleted hd
        refine ⟨1, m', v', by rw [Op.call, Prog.exec_bind_of _ _ _ _ _ _ hx]; rfl, hh, ?_⟩
        rw [hmap]
        exact Step.deleted _ _ old hold
    | resize filename len =>
      have hlen : 3+filename.length+1+len ≤ 32640 := hb
      rcases exec_fileResize h hw filename len hlen with hx | ⟨m', v', hx, hh, hr⟩
      · exact ⟨0, m, v, by rw [Op.call, Prog.exec_bind_of _ _ _ _ _ _ hx]; rfl, h,
          Step.resizeRefused _ _ _⟩
      · obtain ⟨old, new, hold, hnew, hmap⟩ := fileMap_replaced hr
        refine ⟨1, m', v', by rw [Op.call, Prog.exec_bind_of _ _ _ _ _ _ hx]; rfl, hh, ?_⟩
        rw [hmap]
        exact Step.resized _ _ _ old new hold hnew
    | write filename offset data =>
      rcases find_cases v filename with ha | ⟨pre, f, post, hs, rfl⟩
      · exact ⟨0, m, v, exec_fileWrite_absent h hw filename offset data ha, h,
          Step.writeAbsent _ _ _ _ (fileMap_none ha)⟩
      · obtain ⟨m', v', hx, hh, hr⟩ := exec_fileWrite_found h hw pre post f hs offset data
        obtain ⟨old, new, hold, rfl, hmap⟩ := fileMap_replaced hr
        have hof : old = f.content := by
          have hf := fileMap_some (v := v) (f := f) (by simp [hs])
          exact Option.some.inj (hold.symm.trans hf)
        refine ⟨_, m', v', hx, hh, ?_⟩
        rw [hmap, ← hof]
        exact Step.written _ _ _ _ old hold

end Call

/-! ### Formatting -/

section Format

variable {size : ℕ}

theorem exec_formatClear (fuel i : ℕ) (m : Image) (hfit : 2+i+fuel ≤ size) :
    ∃ m', (miniFsFormatClear i fuel).exec size m = some ((), m') ∧
      (∀ a, 2+i ≤ a → a < 2+i+fuel → m' a = 0) ∧
      ∀ a, a < 2+i → m' a = m a := by
  induction fuel generalizing i m with
  | zero => exact ⟨m, rfl, fun a h₁ h₂ => by omega, fun _ _ => rfl⟩
  | succ fuel ih =>
    obtain ⟨m', hx, hzero, hframe⟩ := ih (i+1)
      (overwrite m (2+i) [UInt8.ofNat MINIFSFILEOFFSETINVALID]) (by omega)
    rw [miniFsFormatClear, show MINIFSHEADERFILEBASEADDR = 2 from rfl,
      Prog.exec_bind_of _ _ _ _ _ _ (Prog.exec_write_one size (2+i) _ m (by omega)), hx]
    refine ⟨m', rfl, ?_, ?_⟩
    · intro a h₁ h₂
      by_cases ha : a = 2+i
      · rw [ha, hframe _ (by omega), overwrite_one_self]
        rfl
      · exact hzero a (by omega) (by omega)
    · intro a ha
      rw [hframe a (by omega), overwrite_one_ne _ _ _ _ (by omega)]

theorem exec_format_refused (m : Image) (maxTotalSize : ℕ) (hmax : maxTotalSize < 65536)
    (hbad : ¬ (128 ≤ maxTotalSize ∧ maxTotalSize < 32896)) :
    (miniFsFormat maxTotalSize).exec size m = some (false, m) := by
  have hu : u16 (maxTotalSize/128*128) = maxTotalSize/128*128 := u16_of_lt (by omega)
  rw [miniFsFormat, show MINIFSFACTOR = 128 from rfl, show MINIFSHEADERSIZE = 128 from rfl,
    show MINIFSMAXSIZE = 32768 from rfl, hu, if_pos (by omega)]
  rfl

/-- A formatted volume is empty. -/
theorem exec_format (m : Image) (maxTotalSize : ℕ) (hmin : 128 ≤ maxTotalSize)
    (hmax : maxTotalSize < 32896) (hsize : maxTotalSize ≤ size) :
    ∃ m' v, (miniFsFormat maxTotalSize).exec size m = some (true, m') ∧ Holds size m' v ∧
      v.files = [] := by
  have hu : u16 (maxTotalSize/128*128) = maxTotalSize/128*128 := u16_of_lt (by omega)
  rw [miniFsFormat, show MINIFSFACTOR = 128 from rfl, show MINIFSHEADERSIZE = 128 from rfl,
    show MINIFSMAXSIZE = 32768 from rfl, hu, if_neg (by omega)]
  obtain ⟨m', hx, hzero, hframe⟩ := @exec_formatClear size 126 0
    (overwrite (overwrite m 0 [UInt8.ofNat MINIFSHEADERMAGICBYTEVALUE]) 1
      [UInt8.ofNat (maxTotalSize/128-1)]) (by omega)
  have hwf : WellFormed (maxTotalSize/128) [] :=
    ⟨by omega, by omega, by simp, List.Pairwise.nil, by simp, by simp⟩
  refine ⟨m', ⟨maxTotalSize/128, [], hwf⟩, ?_, ⟨?_, by simp⟩, rfl⟩
  · rw [show MINIFSHEADERMAGICBYTEADDR = 0 from rfl, show MINIFSHEADERTOTALSIZEADDR = 1 from rfl,
      Prog.exec_bind_of _ _ _ _ _ _ (Prog.exec_write_one size 0 _ m (by omega)),
      Prog.exec_bind_of _ _ _ _ _ _ (Prog.exec_write_one size 1 _ _ (by omega)),
      show MINIFSMAXFILES = 126 from rfl, Prog.exec_bind_of _ _ _ _ _ _ hx]
    rfl
  · refine ⟨⟨by omega, headerOf_length (by simp), ?_⟩, by simp only; omega, by simp only; omega,
      by simp only; omega, ?_, ?_⟩
    · intro i hi
      rw [headerOf_length (by simp)] at hi
      rw [hzero (2+i) (by omega) (by omega), headerOf_end [] i (by simp)]
      rfl
    · rw [hframe 0 (by omega), overwrite_one_ne _ _ _ _ (by omega), overwrite_one_self]
      rfl
    · rw [hframe 1 (by omega), overwrite_one_self, UInt8.toNat_ofNat']
      simp only
      omega

end Format

end ArduinoOS.Minifs
