import ArduinoOS.Kernel.FatDirs
import ArduinoOS.Lib.Walk

/-!
# The slots that a FAT lookup visits

The loops over directory entries once more, with the slots they look at. Each
slot ends a loop, is passed over, or is an entry; the loops are walks along the
slots, 32 bytes from each to the next.
-/

set_option autoImplicit false

namespace ArduinoOS.Kernel
open ArduinoOS.ByteProgram ArduinoOS.Walk

/-- What a slot is to a lookup. An entry whose name cannot be read is passed over. -/
inductive SlotKind
  | hangs
  | finish
  | skipped
  | unreadable
  | entry (name : List UInt8) (attributes : ℕ)

def classify : FatReadDirEntryNameResult → Option ℕ → SlotKind
  | .nameEnd, _ => .finish
  | .unused, _ => .skipped
  | .error, none => .skipped
  | .success _, none => .skipped
  | .error, some attributes => if attributes &&& 0x08 ≠ 0 then .skipped else .unreadable
  | .success name, some attributes =>
    if attributes &&& 0x08 ≠ 0 then .skipped else .entry name attributes

/-- The slot right behind this one on the volume. -/
def nextSlot (offset : ℕ) : ℕ := u32 (offset+32)

/-- What a slot does to the search for a child: the children before it are counted. -/
def childTurn (childNum : ℕ) (kind : SlotKind) (childI : ℕ) : Turn ℕ (Option CStr) :=
  match kind with
  | .hangs => .hang
  | .finish => .stop none
  | .skipped | .unreadable => .goOn childI
  | .entry name _ => if childI = childNum then .stop (some (nameOf name)) else .goOn (childI+1)

/-- What a slot does to the search for a path: what is left of it is kept. -/
def pathTurn (kind : SlotKind) (path : CStr) (offset : ℕ) : Turn CStr ℕ :=
  match kind with
  | .hangs => .hang
  | .finish => .stop 0
  | .skipped | .unreadable => .goOn path
  | .entry name attributes =>
    if path.map CChar.val = name then .stop offset
    else if attributes &&& 0x10 ≠ 0 ∧ name <+: path.map CChar.val ∧
        path.getChar name.length = '/'.toUInt8 then .enter (path.drop (name.length+1))
    else .goOn path

section Traced

variable (fs : Fat)

/-- `fatDirGetChildNLoop`, with the slots it looks at. -/
def fatDirGetChildNVisits (childNum : ℕ) : ℕ → ℕ → ℕ → Option (List ℕ × Option CStr)
  | 0, _, _ => none
  | fuel+1, offset, childI =>
    match fatReadDirEntryName fs (fuel+1) offset with
    | none => none
    | some .nameEnd => some ([offset], none)
    | some .error | some .unused =>
      (fatDirGetChildNVisits childNum fuel (u32 (offset+32)) childI).map
        (fun r => (offset::r.1, r.2))
    | some (.success name) =>
      match fatReadDirEntryAttributes fs offset with
      | none => (fatDirGetChildNVisits childNum fuel (u32 (offset+32)) childI).map
          (fun r => (offset::r.1, r.2))
      | some attributes =>
        if attributes &&& 0x08 ≠ 0 then
          (fatDirGetChildNVisits childNum fuel (u32 (offset+32)) childI).map
            (fun r => (offset::r.1, r.2))
        else if childI = childNum then some ([offset], some (nameOf name))
        else (fatDirGetChildNVisits childNum fuel (u32 (offset+32)) (childI+1)).map
          (fun r => (offset::r.1, r.2))

/-- `fatGetFileDirEntryOffsetFromPathKStrHelper`, with the slots it looks at. -/
def fatPathVisits : ℕ → ℕ → CStr → Option (List ℕ × ℕ)
  | 0, _, _ => none
  | fuel+1, currDirOffset, path =>
    match fatReadDirEntryName fs (fuel+1) currDirOffset with
    | none => none
    | some .nameEnd => some ([currDirOffset], 0)
    | some .error | some .unused =>
      (fatPathVisits fuel (u32 (currDirOffset+32)) path).map (fun r => (currDirOffset::r.1, r.2))
    | some (.success fileName) =>
      match fatReadDirEntryAttributes fs currDirOffset with
      | none => (fatPathVisits fuel (u32 (currDirOffset+32)) path).map
          (fun r => (currDirOffset::r.1, r.2))
      | some attributes =>
        if attributes &&& 0x08 ≠ 0 then
          (fatPathVisits fuel (u32 (currDirOffset+32)) path).map
            (fun r => (currDirOffset::r.1, r.2))
        else if path.map CChar.val = fileName then some ([currDirOffset], currDirOffset)
        else if attributes &&& 0x10 ≠ 0 ∧ fileName <+: path.map CChar.val ∧
            path.getChar fileName.length = '/'.toUInt8 then
          match fatReadDirEntryFirstCluster fs currDirOffset with
          | none => none
          | some subDirCluster =>
            (fatPathVisits fuel (fatGetOffsetForCluster fs subDirCluster)
              (path.drop (fileName.length+1))).map (fun r => (currDirOffset::r.1, r.2))
        else (fatPathVisits fuel (u32 (currDirOffset+32)) path).map
          (fun r => (currDirOffset::r.1, r.2))

/-! ### The slots change no answer -/

theorem fatDirGetChildNVisits_answer (childNum fuel : ℕ) :
    ∀ offset childI, (fatDirGetChildNVisits fs childNum fuel offset childI).map Prod.snd =
      fatDirGetChildNLoop fs childNum fuel offset childI := by
  induction fuel with
  | zero =>
    intro offset childI
    rfl
  | succ fuel ih =>
    intro offset childI
    rw [fatDirGetChildNVisits, fatDirGetChildNLoop]
    cases fatReadDirEntryName fs (fuel+1) offset with
    | none => rfl
    | some r =>
      cases r with
      | nameEnd => rfl
      | error => rw [← ih, Option.map_map]; rfl
      | unused => rw [← ih, Option.map_map]; rfl
      | success name =>
        cases fatReadDirEntryAttributes fs offset with
        | none => rw [← ih, Option.map_map]; rfl
        | some attributes =>
          dsimp only
          split_ifs
          · rw [← ih, Option.map_map]
            rfl
          · rfl
          · rw [← ih, Option.map_map]
            rfl

theorem fatPathVisits_answer (fuel : ℕ) :
    ∀ offset path, (fatPathVisits fs fuel offset path).map Prod.snd =
      fatGetFileDirEntryOffsetFromPathKStrHelper fs fuel offset path := by
  induction fuel with
  | zero =>
    intro offset path
    rfl
  | succ fuel ih =>
    intro offset path
    rw [fatPathVisits, fatGetFileDirEntryOffsetFromPathKStrHelper]
    cases fatReadDirEntryName fs (fuel+1) offset with
    | none => rfl
    | some r =>
      cases r with
      | nameEnd => rfl
      | error => rw [← ih, Option.map_map]; rfl
      | unused => rw [← ih, Option.map_map]; rfl
      | success name =>
        cases fatReadDirEntryAttributes fs offset with
        | none => rw [← ih, Option.map_map]; rfl
        | some attributes =>
          dsimp only
          split_ifs
          · rw [← ih, Option.map_map]
            rfl
          · rfl
          · cases fatReadDirEntryFirstCluster fs offset with
            | none => rfl
            | some cluster =>
              dsimp only
              rw [← ih, Option.map_map]
              rfl
          · rw [← ih, Option.map_map]
            rfl

end Traced

/-! ### Loops and walks -/

section Kinds

variable (fs : Fat)

open Classical in
/-- The answer for the name of a slot, where there is one. -/
noncomputable def slotName (offset : ℕ) : Option FatReadDirEntryNameResult :=
  if h : ∃ r fuel, fatReadDirEntryName fs fuel offset = some r then some h.choose else none

noncomputable def kindOf (offset : ℕ) : SlotKind :=
  match slotName fs offset with
  | none => .hangs
  | some r => classify r (fatReadDirEntryAttributes fs offset)

/-- Where the directory of an entry starts. -/
def entryDoor (offset : ℕ) : Option ℕ :=
  (fatReadDirEntryFirstCluster fs offset).map (fatGetOffsetForCluster fs)

variable {fs}

theorem slotName_iff {offset : ℕ} {r : FatReadDirEntryNameResult} :
    slotName fs offset = some r ↔ ∃ fuel, fatReadDirEntryName fs fuel offset = some r := by
  have hunique : ∀ r', (∃ fuel, fatReadDirEntryName fs fuel offset = some r) →
      (∃ fuel, fatReadDirEntryName fs fuel offset = some r') → r = r' := by
    rintro r' ⟨fuel, h⟩ ⟨fuel', h'⟩
    have hmax := fatReadDirEntryName_mono (Nat.le_max_left fuel fuel') h
    have hmax' := fatReadDirEntryName_mono (Nat.le_max_right fuel fuel') h'
    exact Option.some.inj (hmax.symm.trans hmax')
  rw [slotName]
  constructor
  · intro h
    split at h
    · rename_i hex
      rw [← Option.some.inj h]
      exact hex.choose_spec
    · cases h
  · intro h
    have hex : ∃ r fuel, fatReadDirEntryName fs fuel offset = some r := ⟨r, h⟩
    rw [dif_pos hex, hunique _ h hex.choose_spec]

theorem kindOf_eq {fuel offset : ℕ} {r : FatReadDirEntryNameResult}
    (h : fatReadDirEntryName fs fuel offset = some r) :
    kindOf fs offset = classify r (fatReadDirEntryAttributes fs offset) := by
  rw [kindOf, slotName_iff.mpr ⟨fuel, h⟩]

variable (fs) in
/-- A slot whose kind is known has a name that some fuel reads. -/
theorem kindOf_cases (offset : ℕ) : kindOf fs offset = .hangs ∨
    ∃ fuel r, fatReadDirEntryName fs fuel offset = some r ∧
      kindOf fs offset = classify r (fatReadDirEntryAttributes fs offset) := by
  cases h : slotName fs offset with
  | none =>
    left
    rw [kindOf, h]
  | some r =>
    right
    obtain ⟨fuel, hname⟩ := slotName_iff.mp h
    exact ⟨fuel, r, hname, kindOf_eq hname⟩

end Kinds

/-- A loop over slots does with each what its kind says, while there is fuel. -/
structure LoopOf {σ β : Type} (fs : Fat) (turn : SlotKind → σ → ℕ → Turn σ β)
    (loop : ℕ → σ → ℕ → Option (List ℕ × β)) : Prop where
  zero : ∀ s offset, loop 0 s offset = none
  hangs : ∀ s offset, turn .hangs s offset = .hang
  round : ∀ fuel s offset, loop (fuel+1) s offset =
    match fatReadDirEntryName fs (fuel+1) offset with
    | none => none
    | some r =>
      match turn (classify r (fatReadDirEntryAttributes fs offset)) s offset with
      | .goOn t => (loop fuel t (nextSlot offset)).map (fun r => (offset::r.1, r.2))
      | .enter t =>
        match entryDoor fs offset with
        | none => none
        | some start => (loop fuel t start).map (fun r => (offset::r.1, r.2))
      | .stop answer => some ([offset], answer)
      | .hang => none

section Loops

variable {σ β : Type} {fs : Fat} {turn : SlotKind → σ → ℕ → Turn σ β}
  {loop : ℕ → σ → ℕ → Option (List ℕ × β)} (hloop : LoopOf fs turn loop)

include hloop

theorem loop_mono {fuel fuel' : ℕ} (hle : fuel ≤ fuel') :
    ∀ {s : σ} {offset : ℕ} {r : List ℕ × β}, loop fuel s offset = some r →
      loop fuel' s offset = some r := by
  induction fuel generalizing fuel' with
  | zero =>
    intro s offset r h
    rw [hloop.zero] at h
    cases h
  | succ fuel ih =>
    intro s offset r h
    obtain ⟨fuel', rfl⟩ : ∃ n, fuel' = n+1 := ⟨fuel'-1, by omega⟩
    have hle' : fuel ≤ fuel' := by omega
    have hmap : ∀ {t : σ} {o : ℕ} {r : List ℕ × β},
        (loop fuel t o).map (fun r => (offset::r.1, r.2)) = some r →
        (loop fuel' t o).map (fun r => (offset::r.1, r.2)) = some r := by
      intro t o r hr
      obtain ⟨r', hr', rfl⟩ := Option.map_eq_some_iff.mp hr
      rw [ih hle' hr', Option.map_some]
    rw [hloop.round] at h ⊢
    cases hname : fatReadDirEntryName fs (fuel+1) offset with
    | none =>
      rw [hname] at h
      cases h
    | some name =>
      rw [fatReadDirEntryName_mono hle hname]
      rw [hname] at h
      dsimp only at h ⊢
      cases hturn : turn (classify name (fatReadDirEntryAttributes fs offset)) s offset with
      | goOn t =>
        rw [hturn] at h
        exact hmap h
      | enter t =>
        rw [hturn] at h
        cases hdoor : entryDoor fs offset with
        | none =>
          rw [hdoor] at h
          cases h
        | some start =>
          rw [hdoor] at h
          exact hmap h
      | stop answer =>
        rw [hturn] at h
        exact h
      | hang =>
        rw [hturn] at h
        cases h

/-- A loop ends as the walk along its slots does. -/
theorem loop_iff {s : σ} {offset : ℕ} {visited : List ℕ} {answer : β} :
    (∃ fuel, loop fuel s offset = some (visited, answer)) ↔
      Onward nextSlot (entryDoor fs) (fun s offset => turn (kindOf fs offset) s offset) s offset
        visited answer := by
  constructor
  · rintro ⟨fuel, h⟩
    induction fuel generalizing s offset visited with
    | zero =>
      rw [hloop.zero] at h
      cases h
    | succ fuel ih =>
      rw [hloop.round] at h
      cases hname : fatReadDirEntryName fs (fuel+1) offset with
      | none =>
        rw [hname] at h
        cases h
      | some name =>
        rw [hname] at h
        dsimp only at h
        rw [← kindOf_eq hname] at h
        cases hturn : turn (kindOf fs offset) s offset with
        | goOn t =>
          rw [hturn] at h
          obtain ⟨⟨rest, answer'⟩, hrest, heq⟩ := Option.map_eq_some_iff.mp h
          cases heq
          exact .goOn hturn (ih hrest)
        | enter t =>
          rw [hturn] at h
          dsimp only at h
          cases hdoor : entryDoor fs offset with
          | none =>
            rw [hdoor] at h
            cases h
          | some start =>
            rw [hdoor] at h
            obtain ⟨⟨rest, answer'⟩, hrest, heq⟩ := Option.map_eq_some_iff.mp h
            cases heq
            exact .enter hturn hdoor (ih hrest)
        | stop answer' =>
          rw [hturn] at h
          cases h
          exact .stop hturn
        | hang =>
          rw [hturn] at h
          cases h
  · intro h
    -- enough fuel for the name of this slot and for the slots after it
    have hround : ∀ {s : σ} {offset : ℕ}, turn (kindOf fs offset) s offset ≠ .hang → ∀ fuel,
        ∃ fuel' ≥ fuel, ∃ r, fatReadDirEntryName fs (fuel'+1) offset = some r ∧
          kindOf fs offset = classify r (fatReadDirEntryAttributes fs offset) := by
      intro s offset hturn fuel
      rcases kindOf_cases fs offset with hkind | ⟨fuel₁, r, hname, hkind⟩
      · rw [hkind, hloop.hangs] at hturn
        exact absurd rfl hturn
      · exact ⟨max fuel fuel₁, le_max_left _ _, r,
          fatReadDirEntryName_mono (Nat.le_succ_of_le (le_max_right _ _)) hname, hkind⟩
    induction h with
    | goOn hstep _ ih =>
      obtain ⟨fuel, hrest⟩ := ih
      obtain ⟨fuel', hle, r, hname, hkind⟩ := hround (by rw [hstep]; simp) fuel
      refine ⟨fuel'+1, ?_⟩
      rw [hloop.round, hname]
      dsimp only
      rw [← hkind, hstep]
      dsimp only
      rw [loop_mono hloop hle hrest]
      rfl
    | enter hstep hdoor _ ih =>
      obtain ⟨fuel, hrest⟩ := ih
      obtain ⟨fuel', hle, r, hname, hkind⟩ := hround (by rw [hstep]; simp) fuel
      refine ⟨fuel'+1, ?_⟩
      rw [hloop.round, hname]
      dsimp only
      rw [← hkind, hstep, hdoor]
      dsimp only
      rw [loop_mono hloop hle hrest]
      rfl
    | stop hstep =>
      obtain ⟨fuel', -, r, hname, hkind⟩ := hround (by rw [hstep]; simp) 0
      refine ⟨fuel'+1, ?_⟩
      rw [hloop.round, hname]
      dsimp only
      rw [← hkind, hstep]

end Loops

theorem childLoop (fs : Fat) (childNum : ℕ) :
    LoopOf fs (fun kind childI _ => childTurn childNum kind childI)
      (fun fuel childI offset => fatDirGetChildNVisits fs childNum fuel offset childI) where
  zero _ _ := rfl
  hangs _ _ := rfl
  round fuel childI offset := by
    rw [fatDirGetChildNVisits]
    cases fatReadDirEntryName fs (fuel+1) offset with
    | none => rfl
    | some r =>
      cases r with
      | nameEnd => rfl
      | unused => rfl
      | error =>
        cases fatReadDirEntryAttributes fs offset with
        | none => rfl
        | some attributes =>
          simp only [classify]
          by_cases hlabel : attributes &&& 0x08 ≠ 0
          · rw [if_pos hlabel]
            rfl
          · rw [if_neg hlabel]
            rfl
      | success name =>
        cases fatReadDirEntryAttributes fs offset with
        | none => rfl
        | some attributes =>
          simp only [classify]
          by_cases hlabel : attributes &&& 0x08 ≠ 0
          · rw [if_pos hlabel, if_pos hlabel]
            rfl
          · rw [if_neg hlabel, if_neg hlabel, childTurn]
            by_cases hchild : childI = childNum
            · rw [if_pos hchild, if_pos hchild]
            · rw [if_neg hchild, if_neg hchild]
              rfl

theorem pathLoop (fs : Fat) :
    LoopOf fs pathTurn (fun fuel path offset => fatPathVisits fs fuel offset path) where
  zero _ _ := rfl
  hangs _ _ := rfl
  round fuel path offset := by
    rw [fatPathVisits]
    cases fatReadDirEntryName fs (fuel+1) offset with
    | none => rfl
    | some r =>
      cases r with
      | nameEnd => rfl
      | unused => rfl
      | error =>
        cases fatReadDirEntryAttributes fs offset with
        | none => rfl
        | some attributes =>
          simp only [classify]
          by_cases hlabel : attributes &&& 0x08 ≠ 0
          · rw [if_pos hlabel]
            rfl
          · rw [if_neg hlabel]
            rfl
      | success name =>
        cases fatReadDirEntryAttributes fs offset with
        | none => rfl
        | some attributes =>
          simp only [classify]
          by_cases hlabel : attributes &&& 0x08 ≠ 0
          · rw [if_pos hlabel, if_pos hlabel]
            rfl
          · rw [if_neg hlabel, if_neg hlabel, pathTurn]
            by_cases hsame : path.map CChar.val = name
            · rw [if_pos hsame, if_pos hsame]
            · rw [if_neg hsame, if_neg hsame]
              split
              · rw [entryDoor]
                cases fatReadDirEntryFirstCluster fs offset <;> rfl
              · rfl

end ArduinoOS.Kernel
