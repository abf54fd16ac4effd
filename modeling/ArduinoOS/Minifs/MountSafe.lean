import ArduinoOS.Minifs.FirstFit

/-!
# Safe mounting

What the check of a mount says about an image. It reads the header only: the
magic byte, and the slots, which must be used first, never descend and be
zero after the last file. Sizes, lengths and names of the files are not read.
-/

set_option autoImplicit false

namespace ArduinoOS.Minifs
open ArduinoOS.ByteProgram

/-- The slots from `i` on are those of the rest of a header, in which no file
starts before the one at `prev`. -/
def SlotsFrom (m : Image) (i prev : ℕ) : Prop :=
  ∃ n, i ≤ n ∧ n ≤ MINIFSMAXFILES ∧
    (∀ j, i ≤ j → j < n → MINIFSFILEMINOFFSETFACTOR ≤ offsetFactor m j ∧
      prev ≤ offsetFactor m j) ∧
    (∀ j k, i ≤ j → j < k → k < n → offsetFactor m j ≤ offsetFactor m k) ∧
    ∀ j, n ≤ j → j < MINIFSMAXFILES → offsetFactor m j = 0

theorem slotsFrom_full {m : Image} {prev : ℕ} : SlotsFrom m MINIFSMAXFILES prev :=
  ⟨MINIFSMAXFILES, Nat.le_refl _, Nat.le_refl _, fun j hlow hhigh => by omega,
    fun j k hlow hlt hhigh => by omega, fun j hlow hhigh => by omega⟩

theorem slotsFrom_end {m : Image} {i prev : ℕ} (hi : i < MINIFSMAXFILES)
    (hzero : offsetFactor m i = 0) :
    SlotsFrom m i prev ↔ ∀ j, i ≤ j → j < MINIFSMAXFILES → offsetFactor m j = 0 := by
  constructor
  · rintro ⟨n, hin, _, hused, _, hzeros⟩
    have hend : n = i := by
      by_contra hne
      have hleast : 1 ≤ offsetFactor m i := (hused i (Nat.le_refl i) (by omega)).1
      omega
    rw [hend] at hzeros
    exact hzeros
  · intro hzeros
    exact ⟨i, Nat.le_refl i, Nat.le_of_lt hi, fun j hlow hhigh => by omega,
      fun j k hlow hlt hhigh => by omega, hzeros⟩

theorem slotsFrom_succ {m : Image} {i prev : ℕ} (hi : i < MINIFSMAXFILES)
    (hused : offsetFactor m i ≠ 0) :
    SlotsFrom m i prev ↔ MINIFSFILEMINOFFSETFACTOR ≤ offsetFactor m i ∧
      prev ≤ offsetFactor m i ∧ SlotsFrom m (i+1) (offsetFactor m i) := by
  constructor
  · rintro ⟨n, hin, hn, hfiles, hsorted, hzeros⟩
    have hlt : i < n := by
      by_contra hge
      exact hused (hzeros i (by omega) hi)
    have hfirst := hfiles i (Nat.le_refl i) hlt
    refine ⟨hfirst.1, hfirst.2, n, hlt, hn, ?_, ?_, hzeros⟩
    · intro j hlow hhigh
      exact ⟨(hfiles j (by omega) hhigh).1, hsorted i j (Nat.le_refl i) hlow hhigh⟩
    · intro j k hlow hjk hhigh
      exact hsorted j k (by omega) hjk hhigh
  · rintro ⟨hleast, hprev, n, hin, hn, hfiles, hsorted, hzeros⟩
    refine ⟨n, by omega, hn, ?_, ?_, hzeros⟩
    · intro j hlow hhigh
      rcases Nat.eq_or_lt_of_le hlow with rfl | hlt
      · exact ⟨hleast, hprev⟩
      · have hj := hfiles j hlt hhigh
        exact ⟨hj.1, Nat.le_trans hprev hj.2⟩
    · intro j k hlow hjk hhigh
      rcases Nat.eq_or_lt_of_le hlow with rfl | hlt
      · exact (hfiles k hjk hhigh).2
      · exact hsorted j k hlt hjk hhigh

/-- What a mount checks: used slots come first, no file starts inside the
header or before the one in the slot in front, and the other slots are zero. -/
def Sensible (m : Image) : Prop :=
  (m MINIFSHEADERMAGICBYTEADDR).toNat = MINIFSHEADERMAGICBYTEVALUE ∧
    ∃ n ≤ MINIFSMAXFILES, (∀ i < n, MINIFSFILEMINOFFSETFACTOR ≤ offsetFactor m i) ∧
      (∀ i j, i < j → j < n → offsetFactor m i ≤ offsetFactor m j) ∧
      ∀ i, n ≤ i → i < MINIFSMAXFILES → offsetFactor m i = 0

theorem sensible_iff {m : Image} :
    Sensible m ↔ (m MINIFSHEADERMAGICBYTEADDR).toNat = MINIFSHEADERMAGICBYTEVALUE ∧
      SlotsFrom m 0 0 := by
  simp [Sensible, SlotsFrom]

section Checks

variable {size : ℕ} {m : Image} (hsize : MINIFSHEADERSIZE ≤ size)
include hsize

theorem exec_slot (i : ℕ) (hi : i < 126) :
    (miniFsFileGetBaseOffsetFactorFromIndex i).exec size m = some (offsetFactor m i, m) := by
  rw [show MINIFSHEADERSIZE = 128 from rfl] at hsize
  rw [miniFsFileGetBaseOffsetFactorFromIndex, show MINIFSHEADERFILEBASEADDR = 2 from rfl,
    Prog.exec_bind_of _ _ _ _ _ _ (exec_readByte (2+i) (by omega) (by omega))]
  rfl

theorem exec_unusedSlots (fuel i : ℕ) (hfuel : i+fuel = 126) :
    ∃ b, (miniFsIsConsistentUnused i fuel).exec size m = some (b, m) ∧
      (b = true ↔ ∀ j, i ≤ j → j < 126 → offsetFactor m j = 0) := by
  induction fuel generalizing i with
  | zero => exact ⟨true, rfl, iff_of_true rfl (fun j hlow hhigh => by omega)⟩
  | succ fuel ih =>
    rw [miniFsIsConsistentUnused, Prog.exec_bind_of _ _ _ _ _ _ (exec_slot hsize i (by omega))]
    by_cases hzero : offsetFactor m i = 0
    · rw [if_neg (by simpa using hzero)]
      obtain ⟨b, hx, hb⟩ := ih (i+1) (by omega)
      refine ⟨b, hx, hb.trans ?_⟩
      constructor
      · intro hrest j hlow hhigh
        rcases Nat.eq_or_lt_of_le hlow with rfl | hlt
        · exact hzero
        · exact hrest j hlt hhigh
      · exact fun hall j hlow hhigh => hall j (by omega) hhigh
    · rw [if_pos hzero]
      exact ⟨false, rfl, iff_of_false Bool.false_ne_true
        (fun hall => hzero (hall i (Nat.le_refl i) (by omega)))⟩

theorem exec_usedSlots (fuel i prev : ℕ) (hfuel : i+fuel = 126) :
    ∃ b, (miniFsIsConsistentFiles i prev fuel).exec size m = some (b, m) ∧
      (b = true ↔ SlotsFrom m i prev) := by
  induction fuel generalizing i prev with
  | zero =>
    rw [show i = 126 by omega]
    exact ⟨true, rfl, iff_of_true rfl slotsFrom_full⟩
  | succ fuel ih =>
    have hi : i < MINIFSMAXFILES := by
      rw [show MINIFSMAXFILES = 126 from rfl]
      omega
    rw [miniFsIsConsistentFiles, Prog.exec_bind_of _ _ _ _ _ _ (exec_slot hsize i (by omega))]
    by_cases hzero : offsetFactor m i = 0
    · rw [if_pos hzero]
      obtain ⟨b, hx, hb⟩ := exec_unusedSlots hsize (m := m) (fuel+1) i hfuel
      exact ⟨b, hx, hb.trans (slotsFrom_end hi hzero).symm⟩
    · have hsucc := @slotsFrom_succ m i prev hi hzero
      rw [if_neg hzero]
      by_cases hheader : offsetFactor m i < MINIFSFILEMINOFFSETFACTOR
      · rw [if_pos hheader]
        refine ⟨false, rfl, iff_of_false Bool.false_ne_true ?_⟩
        intro hslots
        exact Nat.not_le.mpr hheader (hsucc.mp hslots).1
      · rw [if_neg hheader]
        by_cases hback : offsetFactor m i < prev
        · rw [if_pos hback]
          refine ⟨false, rfl, iff_of_false Bool.false_ne_true ?_⟩
          intro hslots
          exact Nat.not_le.mpr hback (hsucc.mp hslots).2.1
        · rw [if_neg hback]
          obtain ⟨b, hx, hb⟩ := ih (i+1) (offsetFactor m i) (by omega)
          refine ⟨b, hx, hb.trans ?_⟩
          rw [hsucc]
          exact ⟨fun hrest => ⟨Nat.not_lt.mp hheader, Nat.not_lt.mp hback, hrest⟩,
            fun hall => hall.2.2⟩

theorem exec_mountSafe :
    ∃ b, miniFsMountSafe.exec size m = some (b, m) ∧ (b = true ↔ Sensible m) := by
  have hbyte := (m 1).toNat_lt
  have hroom : 128 ≤ size := hsize
  have htotal : miniFsGetTotalSize.exec size m = some (128*((m 1).toNat+1), m) := by
    rw [miniFsGetTotalSize, miniFsGetTotalSizeFactorMinusOne,
      show MINIFSHEADERTOTALSIZEADDR = 1 from rfl, Prog.exec_bind_of _ _ _ _ _ _
      (Prog.exec_bind_of _ _ _ _ _ _ (exec_readByte 1 (by omega) (by omega))),
      show MINIFSFACTOR = 128 from rfl, u16_of_lt (by omega), Nat.mul_comm]
    rfl
  rw [miniFsMountSafe, miniFsIsConsistent, Prog.exec_bind_of _ _ _ _ _ _
    (exec_readByte MINIFSHEADERMAGICBYTEADDR (Nat.lt_of_lt_of_le (by decide) hsize) (by decide)),
    sensible_iff]
  by_cases hmagic : (m MINIFSHEADERMAGICBYTEADDR).toNat = MINIFSHEADERMAGICBYTEVALUE
  · rw [if_neg (not_not_intro hmagic), Prog.exec_bind_of _ _ _ _ _ _ htotal,
      show MINIFSHEADERSIZE = 128 from rfl, show MINIFSMAXSIZE = 32768 from rfl,
      if_neg (by omega)]
    obtain ⟨b, hx, hb⟩ := exec_usedSlots hsize (m := m) 126 0 0 rfl
    exact ⟨b, hx, hb.trans ⟨fun hslots => ⟨hmagic, hslots⟩, fun hall => hall.2⟩⟩
  · rw [if_pos hmagic]
    exact ⟨false, rfl, iff_of_false Bool.false_ne_true (fun hall => hmagic hall.1)⟩

end Checks

/-- A volume of one block with twice the same file, far behind its end. -/
def strayImage : Image := fun a =>
  if a = 0 then 53 else if a = 2 then 7 else if a = 3 then 7 else 0

end ArduinoOS.Minifs
