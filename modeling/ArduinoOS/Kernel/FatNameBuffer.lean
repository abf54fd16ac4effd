import ArduinoOS.Kernel.FatShortNames

/-!
# The buffer of a name on a FAT volume

`fatReadDirEntryName` once more, with every access to the buffer checked: an
access outside of it is a fault. There is none, whatever the entry and the
slots before it hold.
-/

set_option autoImplicit false

namespace ArduinoOS.Kernel
open ArduinoOS.ByteProgram

/-- A store into the buffer. -/
def bufferSet (name : List UInt8) (i : ℕ) (c : UInt8) : Option (List UInt8) :=
  if i < name.length then some (name.set i c) else none

def appendUcs2In (buffer : List UInt8) :
    List ℕ → ℕ → List UInt8 → Option (Bool × ℕ × List UInt8)
  | [], nameIndex, name => some (false, nameIndex, name)
  | place::places, nameIndex, name =>
    if nameIndex+1 ≥ FATPATHMAX then some (false, nameIndex, name)
    else do
      let name ← bufferSet name nameIndex (buffer.getD place 0)
      if buffer.getD (place+1) 0 ≠ 0 then do
        let name ← bufferSet name nameIndex '?'.toUInt8
        appendUcs2In buffer places (nameIndex+1) name
      else do
        let c ← name[nameIndex]?
        if c = 0 then some (true, nameIndex, name)
        else appendUcs2In buffer places (nameIndex+1) name

def stripPaddingIn : ℕ → List UInt8 → Option (ℕ × List UInt8)
  | 0, name => some (0, name)
  | p1End+1, name => do
    let c ← name[p1End+1]?
    if c ≠ ' '.toUInt8 then some (p1End+1, name)
    else do
      let name ← bufferSet name (p1End+1) 0
      stripPaddingIn p1End name

/-- Padding at a place of the extension is cut off. -/
def cutSpaceIn (name : List UInt8) (i : ℕ) : Option (List UInt8) := do
  let c ← name[i]?
  if c = ' '.toUInt8 then bufferSet name i 0 else some name

/-- The extension, moved up by one. -/
def shiftExtensionIn (name : List UInt8) : Option (List UInt8) := do
  let name ← cutSpaceIn name 9
  let name ← cutSpaceIn name 10
  let c ← name[10]?
  let name ← bufferSet name 11 c
  let c ← name[9]?
  let name ← bufferSet name 10 c
  let c ← name[8]?
  bufferSet name 9 c

/-- The two parts with a dot between. -/
def joinPartsIn (p1End : ℕ) (name : List UInt8) : Option (List UInt8) := do
  let name ← bufferSet name (p1End+1) '.'.toUInt8
  let c ← name[9]?
  let name ← bufferSet name (p1End+2) c
  let c ← name[10]?
  let name ← bufferSet name (p1End+3) c
  let c ← name[11]?
  let name ← bufferSet name (p1End+4) c
  let name ← bufferSet name (p1End+5) 0
  return bufferString name

def shortNameIn (name : List UInt8) : Option (List UInt8) := do
  let (p1End, name) ← stripPaddingIn 7 name
  let c ← name[8]?
  if c = ' '.toUInt8 then do
    let name ← bufferSet name 8 0
    return bufferString name
  else do
    let name ← shiftExtensionIn name
    joinPartsIn p1End name

section Checked

variable (fs : Fat)

/-- No answer where the fuel is used up, none in it for a fault. -/
def fatReadLongNameIn : ℕ → ℕ → ℕ → List UInt8 → Option (Option FatReadDirEntryNameResult)
  | 0, _, _, _ => none
  | fuel+1, dirEntryOffset, nameIndex, name =>
    let dirEntryOffset := wrap32 ((dirEntryOffset : ℤ)-32)
    let buffer := fatRead fs dirEntryOffset 32
    if buffer.length ≠ 32 then some (some .error)
    else if buffer.getD 11 0 ≠ 0x0F ∨ buffer.getD 12 0 ≠ 0 ∨ buffer.getD 26 0 ≠ 0 ∨
        buffer.getD 27 0 ≠ 0 then some (some .error)
    else
      match appendUcs2In buffer ucs2Places nameIndex name with
      | none => some none
      | some (true, _, name) => some (some (.success (bufferString name)))
      | some (false, nameIndex, name) =>
        if buffer.getD 0 0 &&& 0x40 ≠ 0 then
          some ((bufferSet name nameIndex 0).map (fun name => .success (bufferString name)))
        else fatReadLongNameIn fuel dirEntryOffset nameIndex name

/-- The buffer comes from the caller, with whatever it holds. -/
def fatReadDirEntryNameIn (fuel dirEntryOffset : ℕ) (buffer : List UInt8) :
    Option (Option FatReadDirEntryNameResult) :=
  let read := fatRead fs dirEntryOffset 11
  let name := read++buffer.drop read.length
  if read.length ≠ 11 then some (some .error)
  else
    match name[0]? with
    | none => some none
    | some first =>
      if first = 0x00 then some (some .nameEnd)
      else if first = 0xE5 ∨ first = 0x2E then some (some .unused)
      else
        match if first = 0x05 then bufferSet name 0 0xE5 else some name with
        | none => some none
        | some name =>
          match name[6]?, name[7]? with
          | some c₆, some c₇ =>
            if c₆ = '~'.toUInt8 ∧ c₇ = '1'.toUInt8 then
              fatReadLongNameIn fs fuel dirEntryOffset 0 name
            else some ((shortNameIn name).map .success)
          | _, _ => some none

end Checked

/-! ### No access is outside -/

theorem buffer_get {name : List UInt8} {i : ℕ} (h : i < name.length) :
    name[i]? = some (name.getD i 0) := by
  rw [List.getElem?_eq_getElem h, List.getD_eq_getElem _ _ h]

theorem buffer_set {name : List UInt8} {i : ℕ} (h : i < name.length) (c : UInt8) :
    bufferSet name i c = some (name.set i c) := if_pos h

theorem appendUcs2In_eq (buffer : List UInt8) (places : List ℕ) :
    ∀ {nameIndex : ℕ} {name : List UInt8}, name.length = FATPATHMAX →
      appendUcs2In buffer places nameIndex name = some (appendUcs2 buffer places nameIndex name) := by
  induction places with
  | nil =>
    intro nameIndex name hlen
    rfl
  | cons place places ih =>
    intro nameIndex name hlen
    rw [appendUcs2In, appendUcs2]
    by_cases hfull : nameIndex+1 ≥ FATPATHMAX
    · rw [if_pos hfull, if_pos hfull]
    · have hin : nameIndex < name.length := by omega
      have hin' : nameIndex < (name.set nameIndex (buffer.getD place 0)).length := by
        rwa [List.length_set]
      rw [if_neg hfull, if_neg hfull, buffer_set hin, Option.bind_eq_bind, Option.bind_some]
      by_cases hhigh : buffer.getD (place+1) 0 ≠ 0
      · rw [if_pos hhigh, if_pos hhigh, buffer_set hin', Option.bind_some, List.set_set]
        exact ih (by rw [List.length_set, hlen])
      · rw [if_neg hhigh, if_neg hhigh, buffer_get hin', Option.bind_eq_bind, Option.bind_some,
          List.getD_eq_getElem _ _ hin', List.getElem_set_self]
        by_cases hend : buffer.getD place 0 = 0
        · rw [if_pos hend, if_pos hend, hend]
        · rw [if_neg hend, if_neg hend]
          exact ih (by rw [List.length_set, hlen])

theorem appendUcs2_length (buffer : List UInt8) (places : List ℕ) :
    ∀ {nameIndex : ℕ} {name : List UInt8}, name.length = FATPATHMAX → nameIndex < FATPATHMAX →
      (appendUcs2 buffer places nameIndex name).2.1 < FATPATHMAX ∧
        (appendUcs2 buffer places nameIndex name).2.2.length = FATPATHMAX := by
  induction places with
  | nil =>
    intro nameIndex name hlen hin
    exact ⟨hin, hlen⟩
  | cons place places ih =>
    intro nameIndex name hlen hin
    rw [appendUcs2]
    split_ifs with hfull hhigh hend
    · exact ⟨hin, hlen⟩
    · exact ih (by rw [List.length_set, hlen]) (by omega)
    · exact ⟨hin, by rw [List.length_set, hlen]⟩
    · exact ih (by rw [List.length_set, hlen]) (by omega)

theorem fatReadLongNameIn_eq {fs : Fat} (fuel : ℕ) :
    ∀ {dirEntryOffset nameIndex : ℕ} {name : List UInt8}, name.length = FATPATHMAX →
      nameIndex < FATPATHMAX → fatReadLongNameIn fs fuel dirEntryOffset nameIndex name =
        (fatReadLongName fs fuel dirEntryOffset nameIndex name).map some := by
  induction fuel with
  | zero =>
    intro dirEntryOffset nameIndex name hlen hin
    rfl
  | succ fuel ih =>
    intro dirEntryOffset nameIndex name hlen hin
    simp only [fatReadLongNameIn, fatReadLongName]
    generalize hbuffer : fatRead fs (wrap32 ((dirEntryOffset : ℤ)-32)) 32 = buffer
    obtain ⟨hindex, hlength⟩ := appendUcs2_length buffer ucs2Places hlen hin
    rw [appendUcs2In_eq buffer ucs2Places hlen]
    split
    · rfl
    · split
      · rfl
      · rcases happend : appendUcs2 buffer ucs2Places nameIndex name with ⟨ended, index, name'⟩
        rw [happend] at hindex hlength
        cases ended with
        | true => rfl
        | false =>
          dsimp only at hindex hlength ⊢
          split
          · rw [buffer_set (by omega)]
            rfl
          · exact ih hlength hindex

theorem stripPaddingIn_eq (p1End : ℕ) :
    ∀ {name : List UInt8}, p1End < name.length →
      stripPaddingIn p1End name = some (stripPadding p1End name) := by
  induction p1End with
  | zero =>
    intro name hlen
    rfl
  | succ p1End ih =>
    intro name hlen
    rw [stripPaddingIn, stripPadding, buffer_get hlen, Option.bind_eq_bind, Option.bind_some]
    by_cases hpad : name.getD (p1End+1) 0 ≠ ' '.toUInt8
    · rw [if_pos hpad, if_pos hpad]
    · rw [if_neg hpad, if_neg hpad, buffer_set hlen, Option.bind_eq_bind, Option.bind_some]
      exact ih (by rw [List.length_set]; omega)

theorem stripPadding_length (p1End : ℕ) :
    ∀ name : List UInt8, (stripPadding p1End name).1 ≤ p1End ∧
      (stripPadding p1End name).2.length = name.length := by
  induction p1End with
  | zero =>
    intro name
    exact ⟨Nat.le_refl 0, rfl⟩
  | succ p1End ih =>
    intro name
    rw [stripPadding]
    split
    · exact ⟨Nat.le_refl _, rfl⟩
    · obtain ⟨hle, hlen⟩ := ih (name.set (p1End+1) 0)
      rw [List.length_set] at hlen
      exact ⟨by omega, hlen⟩

theorem buffer_cut {name : List UInt8} {i : ℕ} (h : i < name.length) :
    cutSpaceIn name i = some (if name.getD i 0 = ' '.toUInt8 then name.set i 0 else name) := by
  rw [cutSpaceIn, buffer_get h, buffer_set h, Option.bind_eq_bind, Option.bind_some]
  split <;> rfl

theorem length_cut (name : List UInt8) (i : ℕ) (p : Prop) [Decidable p] :
    (if p then name.set i 0 else name).length = name.length := by
  split
  · rw [List.length_set]
  · rfl

theorem shiftExtensionIn_eq {name : List UInt8} (hlen : name.length = 64) :
    ∃ name', shiftExtensionIn name = some name' ∧ name'.length = 64 ∧
      name' = (let name := if name.getD 9 0 = ' '.toUInt8 then name.set 9 0 else name
        let name := if name.getD 10 0 = ' '.toUInt8 then name.set 10 0 else name
        let name := name.set 11 (name.getD 10 0)
        let name := name.set 10 (name.getD 9 0)
        name.set 9 (name.getD 8 0)) := by
  rw [shiftExtensionIn, buffer_cut (by omega)]
  have hlen₁ := (length_cut name 9 (name.getD 9 0 = ' '.toUInt8)).trans hlen
  generalize (if name.getD 9 0 = ' '.toUInt8 then name.set 9 0 else name) = name₁ at hlen₁
  rw [Option.bind_eq_bind, Option.bind_some, buffer_cut (by omega)]
  have hlen₂ := (length_cut name₁ 10 (name₁.getD 10 0 = ' '.toUInt8)).trans hlen₁
  dsimp only
  generalize (if name₁.getD 10 0 = ' '.toUInt8 then name₁.set 10 0 else name₁) = name₂ at hlen₂
  refine ⟨_, ?_, ?_, rfl⟩
  · simp (disch := ((try simp only [List.length_set]); omega)) only [Option.bind_eq_bind,
      Option.bind_some, buffer_get, buffer_set]
  · simp only [List.length_set, hlen₂]

theorem joinPartsIn_eq {p1End : ℕ} (hend : p1End ≤ 7) {name : List UInt8}
    (hlen : name.length = 64) :
    joinPartsIn p1End name = some (
      let name := name.set (p1End+1) '.'.toUInt8
      let name := name.set (p1End+2) (name.getD 9 0)
      let name := name.set (p1End+3) (name.getD 10 0)
      let name := name.set (p1End+4) (name.getD 11 0)
      bufferString (name.set (p1End+5) 0)) := by
  rw [joinPartsIn]
  simp (disch := ((try simp only [List.length_set]); omega)) only [Option.bind_eq_bind,
    Option.bind_some, buffer_get, buffer_set]
  rfl

theorem shortNameIn_eq {name : List UInt8} (hlen : name.length = FATPATHMAX) :
    shortNameIn name = some (shortName name) := by
  have hmax : FATPATHMAX = 64 := rfl
  rw [shortNameIn, shortName, stripPaddingIn_eq 7 (by omega)]
  obtain ⟨hle, hlength⟩ := stripPadding_length 7 name
  generalize stripPadding 7 name = stripped at hle hlength
  obtain ⟨p1End, name'⟩ := stripped
  have hname' : name'.length = 64 := by
    rw [← hmax, ← hlen]
    exact hlength
  have hend : p1End ≤ 7 := hle
  rw [Option.bind_eq_bind, Option.bind_some]
  dsimp only
  rw [buffer_get (by omega), Option.bind_eq_bind, Option.bind_some]
  by_cases hspace : name'.getD 8 0 = ' '.toUInt8
  · rw [if_pos hspace, if_pos hspace, buffer_set (by omega)]
    rfl
  · obtain ⟨shifted, hshift, hshifted, heq⟩ := shiftExtensionIn_eq hname'
    dsimp only at heq
    rw [if_neg hspace, if_neg hspace, hshift, ← heq]
    exact joinPartsIn_eq hend hshifted

/-- In a buffer of zeros the checked function is the one the lookups use. -/
theorem fatReadDirEntryNameIn_zeros (fs : Fat) (fuel dirEntryOffset : ℕ) :
    fatReadDirEntryNameIn fs fuel dirEntryOffset (List.replicate FATPATHMAX 0) =
      (fatReadDirEntryName fs fuel dirEntryOffset).map some := by
  have hmax : FATPATHMAX = 64 := rfl
  simp only [fatReadDirEntryNameIn, fatReadDirEntryName, List.drop_replicate]
  generalize fatRead fs dirEntryOffset 11 = read
  by_cases hread : read.length ≠ 11
  · rw [if_pos hread, if_pos hread]
    rfl
  · have hlen : (read++List.replicate (FATPATHMAX-read.length) 0).length = FATPATHMAX := by
      rw [List.length_append, List.length_replicate]
      omega
    rw [if_neg hread, if_neg hread]
    generalize read++List.replicate (FATPATHMAX-read.length) 0 = name at hlen
    rw [buffer_get (by omega), buffer_set (by omega)]
    dsimp only
    split
    · rfl
    · split
      · rfl
      · have hfirst : (if name.getD 0 0 = 0x05 then some (name.set 0 0xE5) else some name) =
            some (if name.getD 0 0 = 0x05 then name.set 0 0xE5 else name) := by
          split <;> rfl
        have hlen' : (if name.getD 0 0 = 0x05 then name.set 0 0xE5 else name).length =
            FATPATHMAX := by
          split
          · rw [List.length_set, hlen]
          · exact hlen
        rw [hfirst]
        generalize (if name.getD 0 0 = 0x05 then name.set 0 0xE5 else name) = name' at hlen'
        dsimp only
        rw [buffer_get (by omega), buffer_get (by omega), shortNameIn_eq hlen']
        dsimp only
        split
        · exact fatReadLongNameIn_eq fuel hlen' (by omega)
        · rfl

end ArduinoOS.Kernel
