import ArduinoOS.Minifs.Header

/-!
# The sort of the header by itself

Whatever bytes the header holds, the sort ends, its bound never wraps around,
and the header is in order afterwards. Neither the end nor the bound depends on
what the device answers: the pass before the last compares nothing.
-/

set_option autoImplicit false

namespace ArduinoOS.Minifs
open ArduinoOS.ByteProgram ArduinoOS.Passes

/-! ### The bound -/

/-- The passes with their bound in a byte. They answer with the bounds that were
decremented, or with nothing where more passes would follow. -/
def miniFsResortBounds (fs : MiniFs) : ℕ → UInt8 → Prog (Option (List UInt8))
  | 0, _ => pure none
  | fuel+1, max => do
      let change ← miniFsResortPass fs 1 false (max.toNat-1)
      if change then do
        let rest ← miniFsResortBounds fs fuel (max-1)
        pure (rest.map (max::·))
      else pure (some [max])

theorem bound_pred {max : UInt8} {n : ℕ} (h : max.toNat = n+2) : (max-1).toNat = n+1 := by
  rw [UInt8.toNat_sub_of_le max 1 (UInt8.le_iff_toNat_le.mpr (by rw [h]; simp)), h]
  rfl

/-- The bounds are those of the passes. -/
theorem resortLoop_bounds (fs : MiniFs) (n fuel : ℕ) (max : UInt8) (hmax : max.toNat = n+1)
    (hfuel : n < fuel) :
    miniFsResortLoop fs (n+1) = miniFsResortBounds fs fuel max >>= fun _ => pure () := by
  induction n generalizing fuel max with
  | zero =>
    cases fuel with
    | zero => omega
    | succ fuel =>
      rw [miniFsResortBounds, hmax]
      rfl
  | succ n ih =>
    cases fuel with
    | zero => omega
    | succ fuel =>
      rw [miniFsResortLoop, miniFsResortBounds, hmax, Prog.bind_bind, Nat.add_sub_cancel]
      congr 1
      funext change
      cases change with
      | false => rfl
      | true =>
        rw [if_pos rfl, if_pos rfl, ih fuel (max-1) (bound_pred hmax) (by omega), Prog.bind_bind]
        rfl

/-- Whatever the device answers, the passes end and no bound of 0 is decremented. -/
theorem resortBounds_end (fs : MiniFs) (n fuel : ℕ) (max : UInt8) (hmax : max.toNat = n+1)
    (hfuel : n < fuel) :
    (miniFsResortBounds fs fuel max).Returns (fun r => ∃ bounds, r = some bounds ∧ 0 ∉ bounds) := by
  have hpos : ∀ {max : UInt8} {n : ℕ}, max.toNat = n+1 → max ≠ 0 := by
    intro max n h hzero
    rw [hzero] at h
    cases h
  induction n generalizing fuel max with
  | zero =>
    cases fuel with
    | zero => omega
    | succ fuel =>
      rw [miniFsResortBounds, hmax]
      exact ⟨[max], rfl, by simpa using (hpos hmax).symm⟩
  | succ n ih =>
    cases fuel with
    | zero => omega
    | succ fuel =>
      rw [miniFsResortBounds]
      apply Prog.returns_bind
      intro change
      cases change with
      | false => exact ⟨[max], rfl, by simpa using (hpos hmax).symm⟩
      | true =>
        rw [if_pos rfl]
        apply Prog.returns_bind_of (ih fuel (max-1) (bound_pred hmax) (by omega))
        rintro rest ⟨bounds, rfl, hbounds⟩
        exact ⟨max::bounds, rfl, by simpa using ⟨(hpos hmax).symm, hbounds⟩⟩

/-! ### The order -/

/-- The bytes of the header's slots. -/
def slotBytes (m : Image) : List UInt8 := slice m MINIFSHEADERFILEBASEADDR MINIFSMAXFILES

theorem slotBytes_eq (m : Image) : slotBytes m = slice m 2 126 := rfl

theorem slotBytes_length (m : Image) : (slotBytes m).length = MINIFSMAXFILES := slice_length _ _ _

theorem slots_slotBytes {size : ℕ} {m : Image} (hsize : MINIFSHEADERSIZE ≤ size) :
    Slots size m ((slotBytes m).map UInt8.toNat) := by
  refine ⟨hsize, by simp [slotBytes_eq], ?_⟩
  intro i hi
  simp [slotBytes_eq, slice_getElem]

theorem slotBytes_of_slots {size : ℕ} {m : Image} {slots : List ℕ} (h : Slots size m slots) :
    (slotBytes m).map UInt8.toNat = slots := by
  apply List.ext_getElem
  · simp [slotBytes_eq, h.length]
  · intro i hi hi'
    simpa [slotBytes_eq, slice_getElem] using h.slot i hi'

/-- What is in the order of the sort begins with the other bytes in ascending order and
ends with zeros. -/
theorem sorted_split (bytes : List UInt8)
    (h : (bytes.map UInt8.toNat).Pairwise slotLe) : ∃ used : List UInt8,
    (∀ a ∈ used, a ≠ 0) ∧ used.Pairwise (· ≤ ·) ∧
    bytes = used++List.replicate (bytes.length-used.length) 0 := by
  induction bytes with
  | nil => exact ⟨[], by simp, List.Pairwise.nil, rfl⟩
  | cons a bytes ih =>
    rw [List.map_cons, List.pairwise_cons] at h
    by_cases hzero : a = 0
    · have hall : ∀ b ∈ bytes, b = 0 := by
        intro b hb
        have hle := h.1 b.toNat (List.mem_map_of_mem hb)
        rw [hzero] at hle
        rcases hle with hb0 | ⟨hne, _⟩
        · exact UInt8.toNat_inj.mp hb0
        · exact absurd rfl hne
      refine ⟨[], by simp, List.Pairwise.nil, ?_⟩
      exact List.eq_replicate_iff.mpr ⟨by simp, by simpa [hzero] using hall⟩
    · obtain ⟨used, hused, hsorted, hsplit⟩ := ih h.2
      refine ⟨a::used, ?_, ?_, ?_⟩
      · exact List.forall_mem_cons.mpr ⟨hzero, hused⟩
      · refine List.pairwise_cons.mpr ⟨fun b hb => ?_, hsorted⟩
        have hmem : b ∈ bytes := by
          rw [hsplit]
          exact List.mem_append_left _ hb
        rcases h.1 b.toNat (List.mem_map_of_mem hmem) with hb0 | ⟨_, hle⟩
        · exact absurd (UInt8.toNat_inj.mp hb0) (hused b hb)
        · exact UInt8.le_iff_toNat_le.mpr hle
      · rw [List.length_cons, List.length_cons, Nat.add_sub_add_right, List.cons_append, ← hsplit]

/-- Whatever the header's bytes are, the sort ends with its bound still in range, and
leaves them in order: ascending, with the zeros last. -/
theorem resort_sorts {σ ε : Type} {dev : Handler σ ε} {size : ℕ} {view : σ → Image}
    (hl : Lawful dev size view) (fs : MiniFs) (hw : fs.writable = true)
    (hsize : MINIFSHEADERSIZE ≤ size) (s : σ) : ∃ (bounds : List UInt8) (s' : σ),
    (miniFsResortBounds fs MINIFSMAXFILES (UInt8.ofNat MINIFSMAXFILES)).run dev s =
      .ok (some bounds, s') ∧ 0 ∉ bounds ∧
    (miniFsResortFileOffsets fs).run dev s = .ok ((), s') ∧
    (slotBytes (view s')).Perm (slotBytes (view s)) ∧
    (∃ used : List UInt8, (∀ a ∈ used, a ≠ 0) ∧ used.Pairwise (· ≤ ·) ∧
      slotBytes (view s') = used++List.replicate (MINIFSMAXFILES-used.length) 0) ∧
    ∀ x < size, x < MINIFSHEADERFILEBASEADDR ∨ MINIFSHEADERFILEBASEADDR+MINIFSMAXFILES ≤ x →
      view s' x = view s x := by
  have hroom : 128 ≤ size := hsize
  have hslots := slots_slotBytes (m := view s) hsize
  have hlength := hslots.length
  obtain ⟨m', hexec, hsorted, hframe⟩ := exec_resortLoop hw 126 (view s) _ hslots (by rw [hlength])
  obtain ⟨s', hrun, hview⟩ := lawful_run dev size view hl _ s (view s) m' () (fun _ _ => rfl) hexec
  have hsame : slotBytes (view s') = slotBytes m' :=
    slice_congr _ _ _ _ (fun x _ hx => hview x (Nat.lt_of_lt_of_le hx hroom))
  have hbytes := slotBytes_of_slots hsorted
  obtain ⟨bounds, hbounds, hnone⟩ : ∃ bounds : List UInt8,
      (miniFsResortBounds fs 126 126).run dev s = .ok (some bounds, s') ∧ 0 ∉ bounds := by
    have hends := resortBounds_end fs 125 126 126 rfl (Nat.lt_succ_self 125)
    rw [resortLoop_bounds fs 125 126 126 rfl (Nat.lt_succ_self 125), Prog.run_bind] at hrun
    change ((miniFsResortBounds fs 126 126).run dev s >>= fun r => .ok ((), r.2)) = _ at hrun
    cases hr : (miniFsResortBounds fs 126 126).run dev s with
    | error e =>
      rw [hr] at hrun
      cases hrun
    | ok r =>
      rw [hr] at hrun
      cases hrun
      obtain ⟨bounds, hsome, hnone⟩ := Prog.returns_run hends hr
      exact ⟨bounds, by rw [← hsome], hnone⟩
  have horder := passes_sorted slotSwap slotLe slotSwap_iff slotLe_total slotLe_trans
    ((slotBytes (view s)).map UInt8.toNat)
  rw [hlength, ← hbytes] at horder
  obtain ⟨used, hused, hascending, hsplit⟩ := sorted_split _ horder
  refine ⟨bounds, s', hbounds, hnone, hrun, ?_, ⟨used, hused, hascending, ?_⟩, ?_⟩
  · have hperm := passes_perm slotSwap 126 ((slotBytes (view s)).map UInt8.toNat)
    rw [← hbytes, ← hsame] at hperm
    exact (List.map_perm_map_iff (fun _ _ h => UInt8.toNat_inj.mp h)).mp hperm
  · rw [slotBytes_length] at hsplit
    rw [hsame]
    exact hsplit
  · intro x hx hout
    rw [hview x hx]
    exact hframe x hout

/-- A header with the factor 5 in front and 3 behind a free slot. -/
def scrambled : Image := fun a => if a = 2 then 5 else if a = 4 then 3 else 0

theorem scrambled_sorts : ∃ (bounds : List UInt8) (m' : Image),
    (miniFsResortBounds ⟨true⟩ MINIFSMAXFILES (UInt8.ofNat MINIFSMAXFILES)).run
      (imageDevice 128) scrambled = .ok (some bounds, m') ∧ 0 ∉ bounds ∧
    ∃ used, (∀ a ∈ used, a ≠ 0) ∧ used.Pairwise (· ≤ ·) ∧
      (used++List.replicate (MINIFSMAXFILES-used.length) 0).Perm (slotBytes scrambled) := by
  obtain ⟨bounds, m', hrun, hnone, _, hperm, ⟨used, hused, hascending, hsplit⟩, _⟩ :=
    resort_sorts (imageDevice_lawful 128) ⟨true⟩ rfl (Nat.le_refl 128) scrambled
  exact ⟨bounds, m', hrun, hnone, used, hused, hascending, hsplit ▸ hperm⟩

end ArduinoOS.Minifs
