import ArduinoOS.Kernel.FatNames
import Mathlib.Data.List.TakeWhile

/-!
# The text of a name on a FAT volume

What the bytes of a directory entry, and those of the slots before it, come to
as a name. The buffer that a name is put together in drops out.
-/

set_option autoImplicit false

namespace ArduinoOS.Kernel
open ArduinoOS.ByteProgram

/-! ### Buffers -/

theorem bufferString_append {text rest : List UInt8} (h : 0 ∉ text) :
    bufferString (text++0::rest) = text := by
  rw [bufferString, List.takeWhile_append_of_pos]
  · simp
  · intro b hb
    simp only [ne_eq, decide_not, Bool.not_eq_true', decide_eq_false_iff_not]
    rintro rfl
    exact h hb

theorem bufferString_ended {name : List UInt8} {i : ℕ} (hi : i < name.length)
    (h : 0 ∉ name.take i) : bufferString (name.set i 0) = name.take i := by
  rw [List.set_eq_take_append_cons_drop, if_pos hi]
  exact bufferString_append h

theorem take_set_same {name : List UInt8} (i : ℕ) (b : UInt8) :
    (name.set i b).take i = name.take i := by
  rw [List.take_set, List.set_eq_of_length_le]
  exact List.length_take_le i name

theorem take_set_next {name : List UInt8} {i : ℕ} (hi : i < name.length) (b : UInt8) :
    (name.set i b).take (i+1) = name.take i++[b] := by
  rw [List.take_add_one, take_set_same, List.getElem?_set_self hi]
  rfl

/-! ### Long names -/

/-- A character of a slot, as it stands there. -/
def ucs2At (buffer : List UInt8) (place : ℕ) : ℕ :=
  256*(buffer.getD (place+1) 0).toNat+(buffer.getD place 0).toNat

/-- The characters of a slot. -/
def slotUnits (buffer : List UInt8) : List ℕ := ucs2Places.map (ucs2At buffer)

/-- The byte that the code stores for a character. -/
def storedChar (unit : ℕ) : UInt8 := if 256 ≤ unit then '?'.toUInt8 else UInt8.ofNat unit

theorem storedChar_zero {unit : ℕ} : storedChar unit = 0 ↔ unit = 0 := by
  rw [storedChar]
  split
  · constructor
    · intro h
      cases h
    · omega
  · rw [← UInt8.toNat_inj, UInt8.toNat_ofNat']
    simp only [UInt8.toNat_zero]
    omega

/-- The text of characters up to the terminator, as far as there is room. -/
def storedText (room : ℕ) (units : List ℕ) : List UInt8 :=
  ((units.takeWhile (· ≠ 0)).map storedChar).take room

@[simp] theorem storedText_nil (room : ℕ) : storedText room [] = [] := by
  simp [storedText]

@[simp] theorem storedText_zero (units : List ℕ) : storedText 0 units = [] := by
  simp [storedText]

theorem storedText_cons {room unit : ℕ} (units : List ℕ) (h : unit ≠ 0) :
    storedText (room+1) (unit::units) = storedChar unit::storedText room units := by
  simp [storedText, h]

theorem storedText_end (room : ℕ) (units : List ℕ) : storedText room (0::units) = [] := by
  simp [storedText]

theorem storedText_nonzero (room : ℕ) (units : List ℕ) : 0 ∉ storedText room units := by
  intro h
  obtain ⟨unit, hunit, hzero⟩ := List.mem_map.mp (List.mem_of_mem_take h)
  have hne := List.mem_takeWhile_imp hunit
  rw [storedChar_zero] at hzero
  simp [hzero] at hne

/-- A character after those in the buffer, and its byte. -/
theorem ucs2_char (buffer : List UInt8) (place : ℕ) :
    (buffer.getD (place+1) 0 ≠ 0 → storedChar (ucs2At buffer place) = '?'.toUInt8 ∧
      ucs2At buffer place ≠ 0) ∧
    (buffer.getD (place+1) 0 = 0 → storedChar (ucs2At buffer place) = buffer.getD place 0 ∧
      (ucs2At buffer place = 0 ↔ buffer.getD place 0 = 0)) := by
  have hlow := (buffer.getD place 0).toNat_lt
  constructor
  · intro hhigh
    have hpos : 0 < (buffer.getD (place+1) 0).toNat := by
      rw [Nat.pos_iff_ne_zero]
      intro hzero
      exact hhigh (UInt8.toNat_inj.mp hzero)
    rw [storedChar, ucs2At, if_pos (by omega)]
    exact ⟨rfl, by omega⟩
  · intro hhigh
    rw [storedChar, ucs2At, hhigh, UInt8.toNat_zero, if_neg (by omega), Nat.mul_zero, Nat.zero_add,
      UInt8.ofNat_toNat]
    refine ⟨rfl, ?_⟩
    rw [← UInt8.toNat_inj, UInt8.toNat_zero]

/-- The characters of one slot arrive: either the name ends among them, or all
that there is room for are in the buffer. -/
theorem appendUcs2_spec (buffer : List UInt8) (places : List ℕ) :
    ∀ {nameIndex : ℕ} {name text : List UInt8}, name.length = FATPATHMAX →
      nameIndex < FATPATHMAX → name.take nameIndex = text → 0 ∉ text →
      let units := places.map (ucs2At buffer)
      let room := FATPATHMAX-1-nameIndex
      ∃ ended index name', appendUcs2 buffer places nameIndex name = (ended, index, name') ∧
        name'.length = FATPATHMAX ∧ (ended = true ↔ 0 ∈ units.take room) ∧
        (ended = true → bufferString name' = text++storedText room units) ∧
        (ended = false → index = nameIndex+min room units.length ∧
          name'.take index = text++storedText room units) := by
  induction places with
  | nil =>
    intro nameIndex name text hlen hin htake htext
    refine ⟨false, nameIndex, name, rfl, hlen, by simp, by simp, ?_⟩
    intro _
    simp [htake]
  | cons place places ih =>
    intro nameIndex name text hlen hin htake htext
    have hmax : FATPATHMAX = 64 := rfl
    dsimp only
    rw [appendUcs2]
    by_cases hfull : nameIndex+1 ≥ FATPATHMAX
    · have hroom : FATPATHMAX-1-nameIndex = 0 := by omega
      rw [if_pos hfull, hroom]
      exact ⟨false, nameIndex, name, rfl, hlen, by simp, by simp, by simp [htake]⟩
    · obtain ⟨hwide, hnarrow⟩ := ucs2_char buffer place
      have hroom : FATPATHMAX-1-nameIndex = FATPATHMAX-1-(nameIndex+1)+1 := by omega
      have hbound : nameIndex < name.length := by omega
      rw [if_neg hfull, hroom, List.map_cons]
      have hstep : ∀ c, c = storedChar (ucs2At buffer place) → ucs2At buffer place ≠ 0 →
          ∃ ended index name', appendUcs2 buffer places (nameIndex+1) (name.set nameIndex c) =
            (ended, index, name') ∧ name'.length = FATPATHMAX ∧
          (ended = true ↔ 0 ∈ (ucs2At buffer place::places.map (ucs2At buffer)).take
            (FATPATHMAX-1-(nameIndex+1)+1)) ∧
          (ended = true → bufferString name' = text++storedText (FATPATHMAX-1-(nameIndex+1)+1)
            (ucs2At buffer place::places.map (ucs2At buffer))) ∧
          (ended = false → index = nameIndex+min (FATPATHMAX-1-(nameIndex+1)+1)
              (ucs2At buffer place::places.map (ucs2At buffer)).length ∧
            name'.take index = text++storedText (FATPATHMAX-1-(nameIndex+1)+1)
              (ucs2At buffer place::places.map (ucs2At buffer))) := by
        intro c hc hunit
        have htext' : 0 ∉ text++[c] := by
          rw [List.mem_append, List.mem_singleton, hc]
          rintro (hzero | hzero)
          · exact htext hzero
          · exact hunit (storedChar_zero.mp hzero.symm)
        obtain ⟨ended, index, name', hrun, hlen', hended, htrue, hfalse⟩ :=
          @ih (nameIndex+1) (name.set nameIndex c) (text++[c])
            (by rw [List.length_set, hlen]) (by omega)
            (by rw [take_set_next hbound, htake]) htext'
        refine ⟨ended, index, name', hrun, hlen', ?_, ?_, ?_⟩
        · rw [hended, List.take_succ_cons, List.mem_cons, or_iff_right (fun hzero => hunit hzero.symm)]
        · intro hend
          rw [htrue hend, storedText_cons _ hunit, ← hc, List.append_assoc, List.singleton_append]
        · intro hend
          obtain ⟨hindex, hname⟩ := hfalse hend
          refine ⟨?_, ?_⟩
          · rw [hindex, List.length_cons]
            omega
          · rw [hname, storedText_cons _ hunit, ← hc, List.append_assoc, List.singleton_append]
      by_cases hhigh : buffer.getD (place+1) 0 ≠ 0
      · rw [if_pos hhigh]
        exact hstep _ (hwide hhigh).1.symm (hwide hhigh).2
      · obtain ⟨hchar, hzero⟩ := hnarrow (not_not.mp hhigh)
        rw [if_neg hhigh]
        by_cases hend : buffer.getD place 0 = 0
        · rw [if_pos hend, hzero.mpr hend]
          refine ⟨true, nameIndex, name.set nameIndex 0, rfl, by rw [List.length_set, hlen],
            by simp, ?_, by simp⟩
          intro _
          rw [bufferString_ended hbound (by rwa [htake]), htake, storedText_end, List.append_nil]
        · rw [if_neg hend]
          exact hstep _ hchar.symm (fun hunit => hend (hzero.mp hunit))

theorem storedText_append {room : ℕ} {units : List ℕ} (h : 0 ∉ units.take room) (rest : List ℕ) :
    storedText room (units++rest) =
      storedText room units++storedText (room-units.length) rest := by
  induction units generalizing room with
  | nil => simp
  | cons unit units ih =>
    cases room with
    | zero => simp
    | succ room =>
      rw [List.take_succ_cons, List.mem_cons, not_or] at h
      rw [List.cons_append, storedText_cons _ (Ne.symm h.1), storedText_cons _ (Ne.symm h.1),
        ih h.2, List.cons_append, List.length_cons, Nat.add_sub_add_right]

/-- The slot before this one. -/
def slotBefore (offset : ℕ) : ℕ := wrap32 ((offset : ℤ)-32)

/-- The fields by which the code tells a slot of a long name. -/
def LongSlot (buffer : List UInt8) : Prop :=
  buffer.length = 32 ∧ buffer.getD 11 0 = 0x0F ∧ buffer.getD 12 0 = 0 ∧ buffer.getD 26 0 = 0 ∧
    buffer.getD 27 0 = 0

def LastSlot (buffer : List UInt8) : Prop := buffer.getD 0 0 &&& 0x40 ≠ 0

/-- The slots right before an offset spell these characters, the last slot being
the one with its mark, or the one where the name ends within the room left. -/
inductive Spells (fs : Fat) : ℕ → ℕ → List ℕ → Prop
  | last (offset room : ℕ) (hslot : LongSlot (fatRead fs (slotBefore offset) 32))
      (hlast : LastSlot (fatRead fs (slotBefore offset) 32) ∨
        0 ∈ (slotUnits (fatRead fs (slotBefore offset) 32)).take room) :
      Spells fs offset room (slotUnits (fatRead fs (slotBefore offset) 32))
  | more (offset room : ℕ) (units : List ℕ)
      (hslot : LongSlot (fatRead fs (slotBefore offset) 32))
      (hmore : ¬ LastSlot (fatRead fs (slotBefore offset) 32))
      (hopen : 0 ∉ (slotUnits (fatRead fs (slotBefore offset) 32)).take room)
      (hrest : Spells fs (slotBefore offset) (room-13) units) :
      Spells fs offset room (slotUnits (fatRead fs (slotBefore offset) 32)++units)

theorem slotUnits_length (buffer : List UInt8) : (slotUnits buffer).length = 13 := by
  rw [slotUnits, List.length_map]
  rfl

section LongNames

variable {fs : Fat}

/-- A slot is refused, ends the name, or leads on to the slot before it. -/
theorem fatReadLongName_cases {offset nameIndex : ℕ} {name text : List UInt8}
    (hlen : name.length = FATPATHMAX) (hin : nameIndex < FATPATHMAX)
    (htake : name.take nameIndex = text) (htext : 0 ∉ text) :
    let buffer := fatRead fs (slotBefore offset) 32
    let room := FATPATHMAX-1-nameIndex
    (¬ LongSlot buffer →
      ∀ fuel, fatReadLongName fs (fuel+1) offset nameIndex name = some .error) ∧
    (LongSlot buffer → LastSlot buffer ∨ 0 ∈ (slotUnits buffer).take room →
      ∀ fuel, fatReadLongName fs (fuel+1) offset nameIndex name =
        some (.success (text++storedText room (slotUnits buffer)))) ∧
    (LongSlot buffer → ¬ LastSlot buffer → 0 ∉ (slotUnits buffer).take room →
      ∃ name', name'.length = FATPATHMAX ∧
        name'.take (nameIndex+min room 13) = text++storedText room (slotUnits buffer) ∧
        ∀ fuel, fatReadLongName fs (fuel+1) offset nameIndex name =
          fatReadLongName fs fuel (slotBefore offset) (nameIndex+min room 13) name') := by
  intro buffer room
  have hmax : FATPATHMAX = 64 := rfl
  obtain ⟨ended, index, name', happend, hlen', hended, htrue, hfalse⟩ :=
    appendUcs2_spec buffer ucs2Places hlen hin htake htext
  have hnonzero : 0 ∉ text++storedText room (slotUnits buffer) := by
    rw [List.mem_append]
    exact not_or.mpr ⟨htext, storedText_nonzero _ _⟩
  have hunfold : ∀ fuel, fatReadLongName fs (fuel+1) offset nameIndex name =
      if buffer.length ≠ 32 then some .error
      else if buffer.getD 11 0 ≠ 0x0F ∨ buffer.getD 12 0 ≠ 0 ∨ buffer.getD 26 0 ≠ 0 ∨
          buffer.getD 27 0 ≠ 0 then some .error
      else if ended = true then some (.success (bufferString name'))
      else if buffer.getD 0 0 &&& 0x40 ≠ 0 then
        some (.success (bufferString (name'.set index 0)))
      else fatReadLongName fs fuel (slotBefore offset) index name' := by
    intro fuel
    have happend' : appendUcs2 (fatRead fs (wrap32 ((offset : ℤ)-32)) 32) ucs2Places nameIndex
        name = (ended, index, name') := happend
    simp only [fatReadLongName]
    rw [happend']
    cases ended <;> rfl
  refine ⟨?_, ?_, ?_⟩
  · intro hslot fuel
    rw [hunfold]
    by_cases hshort : buffer.length ≠ 32
    · rw [if_pos hshort]
    · by_cases hfields : buffer.getD 11 0 ≠ 0x0F ∨ buffer.getD 12 0 ≠ 0 ∨ buffer.getD 26 0 ≠ 0 ∨
          buffer.getD 27 0 ≠ 0
      · rw [if_neg hshort, if_pos hfields]
      · refine absurd ?_ hslot
        simp only [not_or, not_not] at hshort hfields
        exact ⟨hshort, hfields.1, hfields.2.1, hfields.2.2.1, hfields.2.2.2⟩
  · rintro ⟨hfull, h₁, h₂, h₃, h₄⟩ hlast fuel
    rw [hunfold, if_neg (not_not.mpr hfull), if_neg (by simp only [h₁, h₂, h₃, h₄]; simp)]
    cases ended with
    | true => exact congrArg _ (congrArg _ (htrue rfl))
    | false =>
      obtain ⟨hindex, hname⟩ := hfalse rfl
      have hmark : buffer.getD 0 0 &&& 0x40 ≠ 0 := hlast.resolve_right
        (fun hzero => Bool.noConfusion (hended.mpr hzero))
      have hbound : index < name'.length := by
        rw [hindex, hlen']
        omega
      rw [if_neg Bool.false_ne_true, if_pos hmark, bufferString_ended hbound (by rw [hname]; exact hnonzero), hname]
      rfl
  · rintro ⟨hfull, h₁, h₂, h₃, h₄⟩ hmore hopen
    have hmark : ¬ (buffer.getD 0 0 &&& 0x40 ≠ 0) := hmore
    cases ended with
    | true => exact absurd (hended.mp rfl) hopen
    | false =>
      obtain ⟨hindex, hname⟩ := hfalse rfl
      have hindex' : index = nameIndex+min room 13 := hindex
      rw [hindex'] at hname
      refine ⟨name', hlen', hname, fun fuel => ?_⟩
      rw [hunfold, if_neg (not_not.mpr hfull), if_neg (by simp only [h₁, h₂, h₃, h₄]; simp),
        if_neg Bool.false_ne_true, if_neg hmark, hindex']

/-- A long name is read exactly when the slots spell it. -/
theorem fatReadLongName_iff {offset nameIndex : ℕ} {name text result : List UInt8}
    (hlen : name.length = FATPATHMAX) (hin : nameIndex < FATPATHMAX)
    (htake : name.take nameIndex = text) (htext : 0 ∉ text) :
    (∃ fuel, fatReadLongName fs fuel offset nameIndex name = some (.success result)) ↔
      ∃ units, Spells fs offset (FATPATHMAX-1-nameIndex) units ∧
        result = text++storedText (FATPATHMAX-1-nameIndex) units := by
  have hmax : FATPATHMAX = 64 := rfl
  constructor
  · rintro ⟨fuel, hrun⟩
    induction fuel generalizing offset nameIndex name text with
    | zero => cases hrun
    | succ fuel ih =>
      obtain ⟨hbad, hends, hgoes⟩ :=
        @fatReadLongName_cases fs offset nameIndex name text hlen hin htake htext
      by_cases hslot : LongSlot (fatRead fs (slotBefore offset) 32)
      · by_cases hlast : LastSlot (fatRead fs (slotBefore offset) 32) ∨
            0 ∈ (slotUnits (fatRead fs (slotBefore offset) 32)).take (FATPATHMAX-1-nameIndex)
        · rw [hends hslot hlast fuel] at hrun
          cases hrun
          exact ⟨_, .last offset _ hslot hlast, rfl⟩
        · obtain ⟨hmore, hopen⟩ := not_or.mp hlast
          obtain ⟨name', hlen', htake', hnext⟩ := hgoes hslot hmore hopen
          rw [hnext fuel] at hrun
          have hroom : FATPATHMAX-1-(nameIndex+min (FATPATHMAX-1-nameIndex) 13) =
              FATPATHMAX-1-nameIndex-13 := by
            omega
          obtain ⟨units, hunits, hresult⟩ := ih hlen' (by omega) htake'
            (by rw [List.mem_append]; exact not_or.mpr ⟨htext, storedText_nonzero _ _⟩) hrun
          rw [hroom] at hunits hresult
          refine ⟨_, .more offset _ units hslot hmore hopen hunits, ?_⟩
          rw [hresult, storedText_append hopen, slotUnits_length, List.append_assoc]
      · rw [hbad hslot fuel] at hrun
        cases hrun
  · rintro ⟨units, hunits, rfl⟩
    generalize hroom : FATPATHMAX-1-nameIndex = room at hunits ⊢
    induction hunits generalizing nameIndex name text with
    | last offset room hslot hlast =>
      subst hroom
      exact ⟨1, (fatReadLongName_cases hlen hin htake htext).2.1 hslot hlast 0⟩
    | more offset room units hslot hmore hopen hrest ih =>
      subst hroom
      obtain ⟨name', hlen', htake', hnext⟩ :=
        (fatReadLongName_cases hlen hin htake htext).2.2 hslot hmore hopen
      have hnonzero : 0 ∉ text++storedText (FATPATHMAX-1-nameIndex)
          (slotUnits (fatRead fs (slotBefore offset) 32)) := by
        rw [List.mem_append]
        exact not_or.mpr ⟨htext, storedText_nonzero _ _⟩
      obtain ⟨fuel, hrun⟩ := ih hlen' (by omega) htake' hnonzero (by omega)
      refine ⟨fuel+1, ?_⟩
      rw [hnext fuel, hrun, storedText_append hopen, slotUnits_length, List.append_assoc]

end LongNames

end ArduinoOS.Kernel
