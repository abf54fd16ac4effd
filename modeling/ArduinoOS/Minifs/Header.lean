import ArduinoOS.Lib.Passes
import ArduinoOS.Minifs.Search

/-!
# Header maintenance

The bubble sort of the offset factors puts the zeros last. A header whose
factors are those of a well-formed file list, in any order, becomes that list's
header, and the consistency check accepts it.
-/

set_option autoImplicit false

namespace ArduinoOS.Minifs
open ArduinoOS.ByteProgram ArduinoOS.Passes

/-! ### The order of the sort -/

def slotSwap (a b : ℕ) : Bool := decide (b ≠ 0 ∧ (a = 0 ∨ a > b))

def slotLe (a b : ℕ) : Prop := b = 0 ∨ (a ≠ 0 ∧ a ≤ b)

theorem slotSwap_iff (a b : ℕ) : slotSwap a b = true ↔ ¬ slotLe a b := by
  simp only [slotSwap, slotLe, decide_eq_true_eq]
  omega

theorem slotLe_total (a b : ℕ) : slotLe a b ∨ slotLe b a := by
  unfold slotLe
  omega

theorem slotLe_trans (a b c : ℕ) (hab : slotLe a b) (hbc : slotLe b c) : slotLe a c := by
  unfold slotLe at *
  omega

theorem slotLe_antisymm (a b : ℕ) (hab : slotLe a b) (hba : slotLe b a) : a = b := by
  unfold slotLe at *
  omega

theorem headerOf_sorted {total : ℕ} {files : List File} (h : WellFormed total files) :
    (headerOf files).Pairwise slotLe := by
  rw [headerOf, List.pairwise_append]
  refine ⟨?_, ?_, ?_⟩
  · rw [List.pairwise_map]
    refine h.disjoint.imp (fun {a b} hab => Or.inr ?_)
    have hp := a.off_pos
    simp only [File.fin] at hab
    omega
  · rw [List.pairwise_replicate]
    exact Or.inr (Or.inl rfl)
  · intro a _ b hb
    exact Or.inl (List.eq_of_mem_replicate hb)

/-- Whatever the order of its factors, a header sorts to the one of the files. -/
theorem passes_headerOf {total : ℕ} {files : List File} (h : WellFormed total files)
    (slots : List ℕ) (hp : slots.Perm (headerOf files)) :
    passes slotSwap 126 slots = headerOf files := by
  have hl : slots.length = 126 := by rw [hp.length_eq, headerOf_length h.count]
  have hs := passes_sorted slotSwap slotLe slotSwap_iff slotLe_total slotLe_trans slots
  rw [hl] at hs
  exact ((passes_perm slotSwap 126 slots).trans hp).eq_of_pairwise
    (fun a b _ _ hab hba => slotLe_antisymm a b hab hba) hs (headerOf_sorted h)

/-! ### The sort on the image -/

section Resort

variable {size : ℕ} {fs : MiniFs} (hw : fs.writable = true)
include hw

theorem exec_resortPass (fuel : ℕ) (change : Bool) (m : Image) (pre rest : List ℕ) (a : ℕ)
    (h : Slots size m (pre++a::rest)) (hfuel : fuel ≤ rest.length) :
    ∃ m', (miniFsResortPass fs (pre.length+1) change fuel).exec size m =
        some (change || (carry slotSwap a (rest.take fuel)).2, m') ∧
      Slots size m' (pre++((carry slotSwap a (rest.take fuel)).1++rest.drop fuel)) ∧
      ∀ x, x < 2 ∨ 128 ≤ x → m' x = m x := by
  induction fuel generalizing change m pre rest a with
  | zero =>
    refine ⟨m, ?_, ?_, fun _ _ => rfl⟩
    · simp [miniFsResortPass, carry]
    · simpa [carry] using h
  | succ fuel ih =>
    cases rest with
    | nil => simp at hfuel
    | cons b rest =>
      have hl := h.length
      simp only [List.length_append, List.length_cons] at hl hfuel
      have ha := exec_factor h pre.length (by simp)
      have hb := exec_factor h (pre.length+1) (by simp)
      have hla : pre.length < (pre++a::b::rest).length := by simp
      have hlb : pre.length+1 < (pre++a::b::rest).length := by simp
      have hga : (pre++a::b::rest)[pre.length] = a := by simp
      have hgb : (pre++a::b::rest)[pre.length+1] = b := by simp
      rw [hga] at ha
      rw [hgb] at hb
      have halt : a < 256 := by
        have hlt := slot_lt h pre.length (by simp)
        rwa [hga] at hlt
      have hblt : b < 256 := by
        have hlt := slot_lt h (pre.length+1) (by simp)
        rwa [hgb] at hlt
      rw [miniFsResortPass, Nat.add_sub_cancel, Prog.exec_bind_of _ _ _ _ _ _ ha,
        Prog.exec_bind_of _ _ _ _ _ _ hb]
      simp only [List.take_succ_cons, List.drop_succ_cons, carry]
      by_cases hc : b ≠ 0 ∧ (a = 0 ∨ a > b)
      · -- the two factors change places
        have hsw : slotSwap a b = true := decide_eq_true hc
        have hset : (((pre++a::b::rest).set pre.length b).set (pre.length+1) a) =
            (pre++[b])++a::rest := by simp
        have h₁ := slots_set h pre.length b hblt
        have h₂ := slots_set h₁ (pre.length+1) a halt
        rw [hset] at h₂
        obtain ⟨m', hx, hs, hframe⟩ := ih true _ (pre++[b]) rest a h₂ (by omega)
        simp only [List.length_append, List.length_singleton] at hx
        rw [if_pos hc, show MINIFSHEADERFILEBASEADDR+(pre.length+1)-1 =
            MINIFSHEADERFILEBASEADDR+pre.length by omega,
          Prog.exec_bind_of _ _ _ _ _ _ (exec_writeSlot h hw pre.length b (by omega)),
          Prog.exec_bind_of _ _ _ _ _ _ (exec_writeSlot h₁ hw (pre.length+1) a (by omega)), hx]
        refine ⟨m', by simp [hsw], by simpa [hsw] using hs, ?_⟩
        intro x hxr
        rw [hframe x hxr, overwrite_one_ne _ _ _ _ (by omega),
          overwrite_one_ne _ _ _ _ (by omega)]
      · have hsw : slotSwap a b = false := decide_eq_false hc
        obtain ⟨m', hx, hs, hframe⟩ := ih change m (pre++[a]) rest b (by simpa using h) (by omega)
        simp only [List.length_append, List.length_singleton] at hx
        rw [if_neg hc, hx]
        exact ⟨m', by simp [hsw], by simpa [hsw] using hs, hframe⟩

theorem exec_resortLoop (n : ℕ) (m : Image) (slots : List ℕ) (h : Slots size m slots)
    (hn : n ≤ slots.length) :
    ∃ m', (miniFsResortLoop fs n).exec size m = some ((), m') ∧
      Slots size m' (passes slotSwap n slots) ∧ ∀ x, x < 2 ∨ 128 ≤ x → m' x = m x := by
  induction n generalizing m slots with
  | zero => exact ⟨m, rfl, h, fun _ _ => rfl⟩
  | succ n ih =>
    cases slots with
    | nil => simp at hn
    | cons a rest =>
      have hpass : pass slotSwap (n+1) (a::rest) =
          ((carry slotSwap a (rest.take n)).1++rest.drop n,
            (carry slotSwap a (rest.take n)).2) := by
        simp [Passes.pass, front]
      obtain ⟨m₁, hx, hs, hframe⟩ := exec_resortPass hw n false m [] rest a h
        (by simpa using hn)
      simp only [List.length_nil, Nat.zero_add, Bool.false_or, List.nil_append] at hx hs
      rw [miniFsResortLoop, Prog.exec_bind_of _ _ _ _ _ _ hx, passes, hpass]
      by_cases hc : (carry slotSwap a (rest.take n)).2 = true
      · rw [if_pos hc, if_pos hc]
        have hl := (pass_perm slotSwap (n+1) (a::rest)).length_eq
        rw [hpass] at hl
        obtain ⟨m', hx', hs', hframe'⟩ := ih m₁ _ hs (by rw [hl]; omega)
        exact ⟨m', hx', hs', fun x hxr => (hframe' x hxr).trans (hframe x hxr)⟩
      · rw [if_neg hc, if_neg hc]
        exact ⟨m₁, rfl, hs, hframe⟩

/-- The sort turns any order of the files' factors into the files' header and
touches nothing else. -/
theorem exec_resortFileOffsets {total : ℕ} {files : List File} (hwf : WellFormed total files)
    (m : Image) (slots : List ℕ) (h : Slots size m slots) (hp : slots.Perm (headerOf files)) :
    ∃ m', (miniFsResortFileOffsets fs).exec size m = some ((), m') ∧
      Slots size m' (headerOf files) ∧ ∀ x, x < 2 ∨ 128 ≤ x → m' x = m x := by
  obtain ⟨m', hx, hs, hframe⟩ := exec_resortLoop hw 126 m slots h (by rw [h.length])
  rw [passes_headerOf hwf slots hp] at hs
  exact ⟨m', hx, hs, hframe⟩

end Resort

/-! ### The consistency check -/

section Consistent

variable {size : ℕ} {m : Image} {v : Volume} (h : Holds size m v)
include h

theorem exec_isConsistentUnused (i fuel : ℕ) (hi : v.files.length ≤ i) (hfuel : i+fuel = 126) :
    (miniFsIsConsistentUnused i fuel).exec size m = some (true, m) := by
  induction fuel generalizing i with
  | zero => rfl
  | succ fuel ih =>
    rw [miniFsIsConsistentUnused,
      Prog.exec_bind_of _ _ _ _ _ _ (exec_factor_end h i hi (by omega))]
    exact ih (i+1) (by omega) (by omega)

theorem exec_isConsistentFiles (pre rest : List File) (prev : ℕ) (hs : v.files = pre++rest)
    (hprev : ∀ f ∈ rest, prev ≤ f.off) :
    (miniFsIsConsistentFiles pre.length prev (126-pre.length)).exec size m = some (true, m) := by
  have hc := v.wf.count
  induction rest generalizing pre prev with
  | nil =>
    have hl : v.files.length = pre.length := by simp [hs]
    by_cases hfull : pre.length = 126
    · rw [hfull]
      rfl
    · rw [show 126-pre.length = (126-pre.length-1)+1 by omega, miniFsIsConsistentFiles,
        Prog.exec_bind_of _ _ _ _ _ _ (exec_factor_end h pre.length (by omega) (by omega)),
        if_pos rfl]
      exact exec_isConsistentUnused h pre.length _ (by omega) (by omega)
  | cons f rest ih =>
    have hcount := split_count pre rest f hs
    have hp := f.off_pos
    have hpf := hprev f (by simp)
    have hnext : ∀ g ∈ rest, f.off ≤ g.off := by
      intro g hg
      have hle := (wf_split v.wf pre rest f hs).2 g hg
      simp only [File.fin] at hle
      omega
    have hrec := ih (pre++[f]) f.off (by simp [hs]) hnext
    simp only [List.length_append, List.length_singleton] at hrec
    rw [show 126-pre.length = (126-(pre.length+1))+1 by omega, miniFsIsConsistentFiles,
      Prog.exec_bind_of _ _ _ _ _ _ (exec_factor_file h pre rest f hs), if_neg (by omega),
      show MINIFSFILEMINOFFSETFACTOR = 1 from rfl, if_neg (by omega), if_neg (by omega)]
    exact hrec

theorem exec_isConsistent : miniFsIsConsistent.exec size m = some (true, m) := by
  have ht := v.wf.total_pos
  have hle := v.wf.total_le
  have hr := h.header.roomSlots
  rw [miniFsIsConsistent, show MINIFSHEADERMAGICBYTEADDR = 0 from rfl,
    Prog.exec_bind_of _ _ _ _ _ _ (exec_readByte 0 (by omega) (by omega)), h.header.magic,
    if_neg (by decide), Prog.exec_bind_of _ _ _ _ _ _ (exec_totalSize h.header),
    show MINIFSHEADERSIZE = 128 from rfl, show MINIFSMAXSIZE = 32768 from rfl,
    if_neg (by omega)]
  exact exec_isConsistentFiles h [] v.files 0 rfl (fun _ _ => Nat.zero_le _)

/-- The assertion that ends every modifying operation. -/
theorem exec_assertConsistent {α : Type} (p : Prog α) :
    (do let consistent ← miniFsIsConsistent; assert consistent; p).exec size m =
      p.exec size m := by
  rw [Prog.exec_bind_of _ _ _ _ _ _ (exec_isConsistent h)]
  rfl

end Consistent

end ArduinoOS.Minifs
