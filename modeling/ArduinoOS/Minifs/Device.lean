import ArduinoOS.Minifs.Refinement

/-!
# Volumes on a device

Runs of the operations on a device that honours every access within its size,
from the moment a format succeeds: the device stays a volume, no assertion
fails, and the volume goes through the steps of a map.
-/

set_option autoImplicit false

namespace ArduinoOS.Minifs
open ArduinoOS.ByteProgram

variable {σ ε : Type}

def runOps (dev : Handler σ ε) (fs : MiniFs) : List Op → StateT σ (Except ε) (List ℕ)
  | [] => pure []
  | op::ops => do
      let r ← (op.call fs).run dev
      let rs ← runOps dev fs ops
      pure (r::rs)

theorem holds_congr {size : ℕ} {m m' : Image} {v : Volume} (h : Holds size m v)
    (he : ∀ a < size, m' a = m a) : Holds size m' v := by
  have hr := h.header.roomSlots
  constructor
  · exact header_congr h.header (fun a ha => he a (by omega))
  · intro f hf
    have hroom := room_of_mem h f hf
    exact fileAt_congr (h.files f hf) (fun a _ h₂ => he a (by omega))

section Runs

variable {dev : Handler σ ε} {size : ℕ} {view : σ → Image} (hl : Lawful dev size view)
include hl

theorem run_of_exec {α : Type} {p : Prog α} {s : σ} {m' : Image} {a : α}
    (hx : p.exec size (view s) = some (a, m')) :
    ∃ s', p.run dev s = .ok (a, s') ∧ ∀ i < size, view s' i = m' i :=
  lawful_run dev size view hl p s (view s) m' a (fun _ _ => rfl) hx

theorem run_call {fs : MiniFs} {s : σ} {v : Volume} (h : Holds size (view s) v) (op : Op)
    (hb : op.Bounded) :
    ∃ r s' v', (op.call fs).run dev s = .ok (r, s') ∧ Holds size (view s') v' ∧
      Step fs.writable op r v.fileMap v'.fileMap := by
  obtain ⟨r, m', v', hx, hh, hstep⟩ := exec_call h op hb
  obtain ⟨s', hrun, hview⟩ := run_of_exec hl hx
  exact ⟨r, s', v', hrun, holds_congr hh hview, hstep⟩

/-- The invariant and the simulation along a whole run. -/
theorem run_ops {fs : MiniFs} (ops : List Op) {s : σ} {v : Volume} (h : Holds size (view s) v)
    (hb : ∀ op ∈ ops, op.Bounded) :
    ∃ rs s' v', runOps dev fs ops s = .ok (rs, s') ∧ Holds size (view s') v' ∧
      Steps fs.writable ops rs v.fileMap v'.fileMap := by
  induction ops generalizing s v with
  | nil => exact ⟨[], s, v, rfl, h, Steps.nil _⟩
  | cons op ops ih =>
    obtain ⟨r, s₁, v₁, hrun, hh, hstep⟩ := run_call hl h op (hb op (by simp))
    obtain ⟨rs, s₂, v₂, hrest, hh', hsteps⟩ := ih hh (fun o ho => hb o (by simp [ho]))
    refine ⟨r::rs, s₂, v₂, ?_, hh', Steps.cons op ops r rs _ _ _ hstep hsteps⟩
    change ((op.call fs).run dev s >>= fun x => runOps dev fs ops x.2 >>= fun y =>
      Except.ok (x.1::y.1, y.2)) = _
    rw [hrun]
    change (runOps dev fs ops s₁ >>= fun y => Except.ok (r::y.1, y.2)) = _
    rw [hrest]
    rfl

theorem run_format {s s₀ : σ} {maxTotalSize : ℕ} (hmax : maxTotalSize < 65536)
    (hsize : maxTotalSize ≤ size)
    (hformat : (miniFsFormat maxTotalSize).run dev s = .ok (true, s₀)) :
    ∃ v, Holds size (view s₀) v ∧ v.files = [] := by
  by_cases hok : 128 ≤ maxTotalSize ∧ maxTotalSize < 32896
  · obtain ⟨m', v, hx, hh, hv⟩ := exec_format (view s) maxTotalSize hok.1 hok.2 hsize
    obtain ⟨s', hrun, hview⟩ := run_of_exec hl hx
    rw [hrun] at hformat
    simp only [Except.ok.injEq, Prod.mk.injEq, true_and] at hformat
    subst hformat
    exact ⟨v, holds_congr hh hview, hv⟩
  · obtain ⟨s', hrun, _⟩ := run_of_exec hl (exec_format_refused (view s) maxTotalSize hmax hok)
    rw [hrun] at hformat
    simp at hformat

theorem run_format_succeeds (s : σ) {maxTotalSize : ℕ} (hmin : 128 ≤ maxTotalSize)
    (hmax : maxTotalSize < 32896) (hsize : maxTotalSize ≤ size) :
    ∃ s₀, (miniFsFormat maxTotalSize).run dev s = .ok (true, s₀) := by
  obtain ⟨m', v, hx, _⟩ := exec_format (view s) maxTotalSize hmin hmax hsize
  obtain ⟨s₀, hrun, _⟩ := run_of_exec hl hx
  exact ⟨s₀, hrun⟩

end Runs

/-! ### Queries -/

/-- The queries, asked of the device in state `s`, answer from `map`. -/
structure Answers (dev : Handler σ ε) (s : σ) (map : FileMap) : Prop where
  fileExists : ∀ filename, ∃ s',
    (miniFsFileExists filename).run dev s = .ok ((map filename).isSome, s')
  fileGetLen : ∀ filename, ∃ s',
    (miniFsFileGetLen filename).run dev s = .ok (((map filename).getD []).length, s')
  fileRead : ∀ filename offset len, ∃ s', (miniFsFileRead filename offset len).run dev s =
    .ok (((((map filename).getD []).drop offset).take len,
      ((((map filename).getD []).drop offset).take len).length), s')

theorem answers_of_holds {dev : Handler σ ε} {size : ℕ} {view : σ → Image}
    (hl : Lawful dev size view) {s : σ} {v : Volume} (h : Holds size (view s) v) :
    Answers dev s v.fileMap := by
  have hrun : ∀ {α : Type} {p : Prog α} {a : α}, p.exec size (view s) = some (a, view s) →
      ∃ s', p.run dev s = .ok (a, s') := by
    intro α p a hx
    obtain ⟨s', hs', _⟩ := run_of_exec hl hx
    exact ⟨s', hs'⟩
  constructor
  · intro filename
    apply hrun
    rw [exec_fileExists h filename]
    rcases find_cases v filename with ha | ⟨pre, f, post, hs, rfl⟩
    · rw [fileMap_none ha, decide_eq_false (fun ⟨f, hf, hn⟩ => ha f hf hn)]
      rfl
    · have hf : f ∈ v.files := by simp [hs]
      rw [fileMap_some hf, decide_eq_true ⟨f, hf, rfl⟩]
      rfl
  · intro filename
    apply hrun
    rcases find_cases v filename with ha | ⟨pre, f, post, hs, rfl⟩
    · rw [fileMap_none ha, exec_fileGetLen_absent h filename ha]
      rfl
    · rw [fileMap_some (by simp [hs]), exec_fileGetLen_found h pre post f hs]
      rfl
  · intro filename offset len
    apply hrun
    rcases find_cases v filename with ha | ⟨pre, f, post, hs, rfl⟩
    · rw [fileMap_none ha, exec_fileRead_absent h filename offset len ha]
      simp
    · rw [fileMap_some (by simp [hs]), exec_fileRead_found h pre post f hs]
      rfl

/-- From a successful format on, every sequence of operations runs without a
fault as steps of a map that starts empty, and queries answer from that map. -/
theorem miniFs_refines_fileMap (dev : Handler σ ε) (size : ℕ) (view : σ → Image)
    (hl : Lawful dev size view) (fs : MiniFs) (maxTotalSize : ℕ) (hmax : maxTotalSize < 65536)
    (hsize : maxTotalSize ≤ size) (s s₀ : σ)
    (hformat : (miniFsFormat maxTotalSize).run dev s = .ok (true, s₀)) (ops : List Op)
    (hops : ∀ op ∈ ops, op.Bounded) :
    ∃ rs s' map, runOps dev fs ops s₀ = .ok (rs, s') ∧
      Steps fs.writable ops rs FileMap.empty map ∧ Answers dev s' map := by
  obtain ⟨v, hh, hv⟩ := run_format hl hmax hsize hformat
  obtain ⟨rs, s', v', hrun, hh', hsteps⟩ := run_ops hl ops hh hops
  have hempty : v.fileMap = FileMap.empty := by
    funext n
    exact fileMap_none (by simp [hv])
  exact ⟨rs, s', v'.fileMap, hrun, hempty ▸ hsteps, answers_of_holds hl hh'⟩

theorem miniFs_refines_fileMap_image :
    ∃ s₀, (miniFsFormat 1024).run (imageDevice 1024) (fun _ => 0) = .ok (true, s₀) ∧
      ∃ rs s' map, runOps (imageDevice 1024) ⟨true⟩ [.create (CStr.lit "a") 3,
          .write (CStr.lit "a") 1 [7, 8, 9], .resize (CStr.lit "a") 300,
          .delete (CStr.lit "a")] s₀ = .ok (rs, s') ∧
        Steps true [.create (CStr.lit "a") 3, .write (CStr.lit "a") 1 [7, 8, 9],
          .resize (CStr.lit "a") 300, .delete (CStr.lit "a")] rs FileMap.empty map ∧
        Answers (imageDevice 1024) s' map := by
  obtain ⟨s₀, hs₀⟩ := run_format_succeeds (imageDevice_lawful 1024) (fun _ => 0)
    (show 128 ≤ 1024 by decide) (by decide) (by decide)
  refine ⟨s₀, hs₀, miniFs_refines_fileMap (imageDevice 1024) 1024 id (imageDevice_lawful 1024)
    ⟨true⟩ 1024 (by decide) (by decide) (fun _ => 0) s₀ hs₀ _ ?_⟩
  simp [Op.Bounded, CStr.lit, MINIFSFACTOR]

/-! ### The bytes of the volume -/

def offsetFactor (m : Image) (i : ℕ) : ℕ := (m (MINIFSHEADERFILEBASEADDR+i)).toNat

def storedLength (m : Image) (o : ℕ) : ℕ :=
  (m (MINIFSFACTOR*o)).toNat*256+(m (MINIFSFACTOR*o+1)).toNat

def storedSizeFactor (m : Image) (o : ℕ) : ℕ := (m (MINIFSFACTOR*o+2)).toNat

/-- Everything the total length covers after the fixed fields. -/
def storedBytes (m : Image) (o : ℕ) : List UInt8 :=
  slice m (MINIFSFACTOR*o+3) (storedLength m o-3)

def storedName (m : Image) (o : ℕ) : List UInt8 := (storedBytes m o).takeWhile (fun b => b ≠ 0)

/-- The invariant of a volume of `n` files, in terms of its bytes. -/
structure OnDisk (m : Image) (n : ℕ) : Prop where
  count : n ≤ MINIFSMAXFILES
  ascending : ∀ i j, i < j → j < n → offsetFactor m i < offsetFactor m j
  least : ∀ i < n, MINIFSFILEMINOFFSETFACTOR ≤ offsetFactor m i
  zeros : ∀ i, n ≤ i → i < MINIFSMAXFILES → offsetFactor m i = 0
  disjoint : ∀ i j, i < j → j < n →
    offsetFactor m i+storedSizeFactor m (offsetFactor m i) ≤ offsetFactor m j
  inside : ∀ i < n, offsetFactor m i+storedSizeFactor m (offsetFactor m i) ≤
    (m MINIFSHEADERTOTALSIZEADDR).toNat+1
  size : ∀ i < n, storedSizeFactor m (offsetFactor m i) =
    (storedLength m (offsetFactor m i)+MINIFSFACTOR-1)/MINIFSFACTOR
  terminated : ∀ i < n, 0 ∈ storedBytes m (offsetFactor m i)
  names : ∀ i j, i < j → j < n →
    storedName m (offsetFactor m i) ≠ storedName m (offsetFactor m j)

section OnDisk

variable {size : ℕ} {m : Image} {v : Volume} (h : Holds size m v)
include h

theorem offsetFactor_file (i : ℕ) (hi : i < v.files.length) :
    offsetFactor m i = v.files[i].off := by
  have hc := v.wf.count
  have hlen : i < (headerOf v.files).length := by
    rw [headerOf_length hc]
    omega
  have hslot := h.header.slot i hlen
  rw [offsetFactor, show MINIFSHEADERFILEBASEADDR = 2 from rfl, hslot]
  simp [headerOf, List.getElem_append_left, hi]

theorem storedLength_file (f : File) (hf : f ∈ v.files) : storedLength m f.off = f.totalLen :=
  (h.files f hf).len

theorem storedSizeFactor_file (f : File) (hf : f ∈ v.files) :
    storedSizeFactor m f.off = f.sizeFactor :=
  (h.files f hf).size

theorem storedBytes_file (f : File) (hf : f ∈ v.files) :
    storedBytes m f.off = f.name.bytes++f.content := by
  have hfat := h.files f hf
  rw [storedBytes, storedLength_file h f hf, show MINIFSFACTOR = 128 from rfl,
    show f.totalLen-3 = f.name.length+1+f.content.length by simp only [File.totalLen]; omega,
    slice_add, hfat.name]
  congr 1
  have hca : 128*f.off+3+(f.name.length+1) = f.contentAddr := by
    simp only [File.contentAddr]
    omega
  rw [hca]
  exact hfat.content

theorem storedName_file (f : File) (hf : f ∈ v.files) :
    storedName m f.off = f.name.map CChar.val := by
  rw [storedName, storedBytes_file h f hf]
  induction f.name with
  | nil => simp [CStr.bytes]
  | cons c rest ih =>
    rw [CStr.bytes_cons, List.cons_append, List.takeWhile_cons_of_pos (by simpa using c.ne), ih]
    rfl

theorem onDisk_of_holds : OnDisk m v.files.length := by
  have hc := v.wf.count
  have hd := List.pairwise_iff_getElem.mp v.wf.disjoint
  have hfin : ∀ f ∈ v.files, f.fin = f.off+storedSizeFactor m f.off := by
    intro f hf
    rw [storedSizeFactor_file h f hf]
    rfl
  have hdisj : ∀ i j, i < j → j < v.files.length →
      offsetFactor m i+storedSizeFactor m (offsetFactor m i) ≤ offsetFactor m j := by
    intro i j hij hj
    have hle := hd i j (by omega) hj hij
    rw [offsetFactor_file h i (by omega), offsetFactor_file h j hj, ← hfin _ (by simp)]
    exact hle
  refine ⟨hc, ?_, ?_, ?_, hdisj, ?_, ?_, ?_, ?_⟩
  · intro i j hij hj
    have hle := hdisj i j hij hj
    have hi : i < v.files.length := by omega
    have hpos := v.files[i].sizeFactor_pos
    rw [offsetFactor_file h i (by omega), storedSizeFactor_file h _ (by simp)] at hle
    rw [offsetFactor_file h i (by omega)]
    omega
  · intro i hi
    rw [offsetFactor_file h i hi]
    exact v.files[i].off_pos
  · intro i hni hi
    have hi' : i < 126 := hi
    have hlen : i < (headerOf v.files).length := by
      rw [headerOf_length hc]
      exact hi'
    have hslot := h.header.slot i hlen
    rw [headerOf_end v.files i hni] at hslot
    exact hslot
  · intro i hi
    rw [offsetFactor_file h i hi, ← hfin _ (by simp)]
    exact le_of_le_of_eq (v.wf.inside _ (by simp)) h.header.totalByte.symm
  · intro i hi
    rw [offsetFactor_file h i hi, storedSizeFactor_file h _ (by simp),
      storedLength_file h _ (by simp), File.sizeFactor, show MINIFSFACTOR = 128 from rfl]
    congr 1
  · intro i hi
    rw [offsetFactor_file h i hi, storedBytes_file h _ (by simp)]
    simp [CStr.bytes]
  · intro i j hij hj
    rw [offsetFactor_file h i (by omega), offsetFactor_file h j hj,
      storedName_file h _ (by simp), storedName_file h _ (by simp)]
    intro he
    have hne := List.pairwise_iff_getElem.mp v.wf.names i j (by simp; omega) (by simpa using hj) hij
    simp only [List.getElem_map] at hne
    exact hne (List.map_injective_iff.mpr CStr.val_injective he)

end OnDisk

/-- From a successful format on, every sequence of operations runs without a
failed assertion and leaves a volume whose bytes satisfy the invariant. -/
theorem miniFs_onDisk_invariant (dev : Handler σ ε) (size : ℕ) (view : σ → Image)
    (hl : Lawful dev size view) (fs : MiniFs) (maxTotalSize : ℕ) (hmax : maxTotalSize < 65536)
    (hsize : maxTotalSize ≤ size) (s s₀ : σ)
    (hformat : (miniFsFormat maxTotalSize).run dev s = .ok (true, s₀)) (ops : List Op)
    (hops : ∀ op ∈ ops, op.Bounded) :
    ∃ rs s', runOps dev fs ops s₀ = .ok (rs, s') ∧ (∃ n, OnDisk (view s') n) ∧
      ∃ s'', miniFsIsConsistent.run dev s' = .ok (true, s'') := by
  obtain ⟨v, hh, _⟩ := run_format hl hmax hsize hformat
  obtain ⟨rs, s', v', hrun, hh', _⟩ := run_ops hl ops hh hops
  obtain ⟨s'', hcons, _⟩ := run_of_exec hl (exec_isConsistent hh')
  exact ⟨rs, s', hrun, ⟨_, onDisk_of_holds hh'⟩, s'', hcons⟩

theorem miniFs_onDisk_invariant_image :
    ∃ s₀, (miniFsFormat 1024).run (imageDevice 1024) (fun _ => 0) = .ok (true, s₀) ∧
      ∃ rs s', runOps (imageDevice 1024) ⟨true⟩ [.create (CStr.lit "b") 130,
          .create (CStr.lit "a") 3, .resize (CStr.lit "b") 300] s₀ = .ok (rs, s') ∧
        (∃ n, OnDisk (id s') n) ∧
        ∃ s'', miniFsIsConsistent.run (imageDevice 1024) s' = .ok (true, s'') := by
  obtain ⟨s₀, hs₀⟩ := run_format_succeeds (imageDevice_lawful 1024) (fun _ => 0)
    (show 128 ≤ 1024 by decide) (by decide) (by decide)
  refine ⟨s₀, hs₀, miniFs_onDisk_invariant (imageDevice 1024) 1024 id (imageDevice_lawful 1024)
    ⟨true⟩ 1024 (by decide) (by decide) (fun _ => 0) s₀ hs₀ _ ?_⟩
  simp [Op.Bounded, CStr.lit, MINIFSFACTOR]

end ArduinoOS.Minifs
