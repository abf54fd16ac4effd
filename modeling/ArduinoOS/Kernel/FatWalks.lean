import ArduinoOS.Kernel.FatSlots
import ArduinoOS.Kernel.FatVolumes

/-!
# Directories of a FAT volume and the walks along them

The root of a FAT16 volume has a number of slots in its header; every other
directory has those of its clusters, in the order of their chain. A lookup goes
32 bytes on from slot to slot, until one ends it.
-/

set_option autoImplicit false

namespace ArduinoOS.Kernel
open ArduinoOS.ByteProgram ArduinoOS.Walk

/-! ### Directories -/

section Trees

variable (kind : ℕ → SlotKind)

/-- An entry of a directory, in front of its end marker. -/
structure EntryOf (slots : List ℕ) (offset : ℕ) (name : List UInt8) (attributes : ℕ) : Prop where
  place : ∃ before behind, slots = before++offset::behind ∧ ∀ x ∈ before, kind x ≠ .finish
  entry : kind offset = .entry name attributes

variable (root : List ℕ) (sub : ℕ → List ℕ)

/-- The directories of a volume: the root, and what the directory entries name. -/
inductive DirectoryOf : List ℕ → Prop
  | root : DirectoryOf root
  | sub {slots : List ℕ} {offset : ℕ} {name : List UInt8} {attributes : ℕ}
      (hdir : DirectoryOf slots) (hentry : EntryOf kind slots offset name attributes)
      (hsub : attributes &&& 0x10 ≠ 0) : DirectoryOf (sub offset)

/-- Each component of the path is an entry of the directory named before it. -/
inductive LeadsFrom : List ℕ → CStr → Prop
  | last {slots : List ℕ} {path : CStr} {offset : ℕ} {name : List UInt8} {attributes : ℕ}
      (hentry : EntryOf kind slots offset name attributes) (hname : path.map CChar.val = name) :
      LeadsFrom slots path
  | inside {slots : List ℕ} {path rest : CStr} {offset : ℕ} {name : List UInt8} {attributes : ℕ}
      (hentry : EntryOf kind slots offset name attributes) (hsub : attributes &&& 0x10 ≠ 0)
      (hpath : path.map CChar.val = name++ '/'.toUInt8::rest.map CChar.val)
      (hrest : LeadsFrom (sub offset) rest) : LeadsFrom slots path

end Trees

namespace FatVolume

variable (v : FatVolume)

def clusterSlots (c : ℕ) : List ℕ :=
  (List.range (v.clusterSize/32)).map (fun i => v.clusterAddr c+32*i)

/-- The slots in a chain of clusters that starts with this one. -/
def ChainSlots (m : Image) (first : ℕ) (slots : List ℕ) : Prop :=
  ∃ chain, chain.head? = some first ∧ (∀ c ∈ chain, v.IsCluster c) ∧ v.Linked m chain ∧
    slots = chain.flatMap v.clusterSlots

end FatVolume

/-- The directories of a well-formed volume: the slots of the root and those that
each directory entry names. The names in a directory differ. -/
structure FatDirectories (v : FatVolume) (m : Image) where
  rootSector : ℕ
  root : List ℕ
  sub : ℕ → List ℕ
  mounted : v.rootDirSector = u16 rootSector
  root_fat16 : v.type = .fat16 →
    rootSector*v.bytesPerSector+32*wordAt m 17 ≤ v.firstDataSector*v.bytesPerSector ∧
    root = (List.range (wordAt m 17)).map (fun i => rootSector*v.bytesPerSector+32*i)
  root_fat32 : v.type = .fat32 →
    rootSector = v.firstDataSector ∧ v.ChainSlots m (longAt m 44) root
  sub_slots : ∀ slots offset name attributes,
    DirectoryOf (kindOf (v.fs m)) root sub slots →
    EntryOf (kindOf (v.fs m)) slots offset name attributes → attributes &&& 0x10 ≠ 0 →
    v.ChainSlots m (v.firstCluster m offset) (sub offset)
  apart : ∀ slots offset offset' name attributes attributes',
    DirectoryOf (kindOf (v.fs m)) root sub slots →
    EntryOf (kindOf (v.fs m)) slots offset name attributes →
    EntryOf (kindOf (v.fs m)) slots offset' name attributes' → offset = offset'
  slashless : ∀ slots offset name attributes,
    DirectoryOf (kindOf (v.fs m)) root sub slots →
    EntryOf (kindOf (v.fs m)) slots offset name attributes → '/'.toUInt8 ∉ name
  nonzero : ∀ slots, DirectoryOf (kindOf (v.fs m)) root sub slots → 0 ∉ slots

/-! ### What the walks are to do -/

def SlotKind.ends : SlotKind → Bool
  | .finish => true
  | _ => false

def SlotKind.counts : SlotKind → Bool
  | .unreadable | .entry _ _ => true
  | _ => false

/-- What a slot does to the search for a child on disk: every entry counts,
whether its name can be read or not. -/
def childOnDisk (childNum : ℕ) (kind : SlotKind) (childI offset : ℕ) : Turn ℕ (Option ℕ) :=
  match kind with
  | .hangs => .hang
  | .finish => .stop none
  | .skipped => .goOn childI
  | .unreadable | .entry _ _ =>
    if childI = childNum then .stop (some offset) else .goOn (childI+1)

/-- The slots of a directory that count as its children. -/
def childSlots (kind : ℕ → SlotKind) (slots : List ℕ) : List ℕ :=
  (slots.takeWhile (fun offset => !(kind offset).ends)).filter (fun offset => (kind offset).counts)

/-- The name that is answered is that of the child's slot. -/
def ChildIs (kind : ℕ → SlotKind) (answer : Option CStr) : Option (Option ℕ) → Prop
  | some (some offset) =>
    ∃ name attributes, kind offset = .entry name attributes ∧ answer = some (nameOf name)
  | _ => answer = none

/-- The search for a child by the list of the directory's slots finds the one with
this number. -/
def ChildAlong (fs : Fat) (childNum : ℕ) (slots visited : List ℕ) (answer : Option CStr) : Prop :=
  ∃ child, Along (fun _ => []) (fun childI offset =>
      childOnDisk childNum (kindOf fs offset) childI offset) 0 slots visited child ∧
    ChildIs (kindOf fs) answer child ∧ child.getD none = (childSlots (kindOf fs) slots)[childNum]?

/-- The search for a path by the lists of the directories' slots. -/
def PathAlong (fs : Fat) (sub : ℕ → List ℕ) (path : CStr) (slots visited : List ℕ)
    (offset : Option ℕ) : Prop :=
  Along sub (fun path offset => pathTurn (kindOf fs offset) path offset) path slots visited offset

/-- The entry has been found and is a directory's. -/
def IsDirAt (fs : Fat) (offset : ℕ) : Prop :=
  offset ≠ 0 ∧ ∃ attributes, fatReadDirEntryAttributes fs offset = some attributes ∧
    ¬ (attributes &&& 0x08 ≠ 0 ∨ attributes &&& 0x10 = 0)

/-- `fatDirGetChildN`, with the slots it looks at for the path and for the child. -/
def fatDirGetChildNTraced (fs : Fat) (fuel : ℕ) (path : CStr) (childNum : ℕ) :
    Option (List ℕ × List ℕ × Option CStr) :=
  if kstrStrlen path = 0 then
    (fatDirGetChildNVisits fs childNum fuel (fatGetRootDirOffset fs) 0).map (fun r => ([], r))
  else do
    let found ← fatPathVisits fs fuel (fatGetRootDirOffset fs) path
    if found.2 = 0 then return (found.1, [], none)
    match fatReadDirEntryAttributes fs found.2 with
    | none => return (found.1, [], none)
    | some attributes =>
      if attributes &&& 0x08 ≠ 0 ∨ attributes &&& 0x10 = 0 then return (found.1, [], none)
      match entryDoor fs found.2 with
      | none => return (found.1, [], none)
      | some baseOffset =>
        (fatDirGetChildNVisits fs childNum fuel baseOffset 0).map (fun r => (found.1, r))

theorem fatDirGetChildNTraced_answer (fs : Fat) (fuel : ℕ) (path : CStr) (childNum : ℕ) :
    (fatDirGetChildNTraced fs fuel path childNum).map (fun r => r.2.2) =
      fatDirGetChildN fs fuel path childNum := by
  rw [fatDirGetChildNTraced, fatDirGetChildN, fatDirBaseOffset]
  by_cases hroot : kstrStrlen path = 0
  · rw [if_pos hroot, if_pos hroot, Option.map_map]
    exact fatDirGetChildNVisits_answer fs childNum fuel (fatGetRootDirOffset fs) 0
  · rw [if_neg hroot, if_neg hroot, fatGetFileDirEntryOffsetFromPathKStr,
      ← fatPathVisits_answer fs fuel (fatGetRootDirOffset fs) path]
    cases fatPathVisits fs fuel (fatGetRootDirOffset fs) path with
    | none => rfl
    | some found =>
      simp only [Option.bind_eq_bind, Option.bind_some, Option.map_some]
      by_cases hzero : found.2 = 0
      · rw [if_pos hzero, if_pos hzero]
        rfl
      · rw [if_neg hzero, if_neg hzero]
        cases fatReadDirEntryAttributes fs found.2 with
        | none => rfl
        | some attributes =>
          dsimp only
          by_cases hkind : attributes &&& 0x08 ≠ 0 ∨ attributes &&& 0x10 = 0
          · rw [if_pos hkind, if_pos hkind]
            rfl
          · rw [if_neg hkind, if_neg hkind, entryDoor]
            cases fatReadDirEntryFirstCluster fs found.2 with
            | none => rfl
            | some cluster =>
              simp only [Option.map_some, Option.map_map]
              exact fatDirGetChildNVisits_answer fs childNum fuel _ 0

section Claim

variable {v : FatVolume} {m : Image} (d : FatDirectories v m)

/-- The path is looked up in the slots of the directories on its way, and is found
exactly when it leads to an entry. -/
def LookupExact (path : CStr) : Prop :=
  ∃ fuel visited offset answer,
    fatPathVisits (v.fs m) fuel (fatGetRootDirOffset (v.fs m)) path = some (visited, offset) ∧
    PathAlong (v.fs m) d.sub path d.root visited answer ∧ offset = answer.getD 0 ∧
    (offset ≠ 0 ↔ LeadsFrom (kindOf (v.fs m)) d.sub d.root path)

/-- The child is looked for in the slots of the directory that the path leads to. -/
def ListingExact (path : CStr) (childNum : ℕ) : Prop :=
  ∃ fuel onWay visited answer,
    fatDirGetChildNTraced (v.fs m) fuel path childNum = some (onWay, visited, answer) ∧
    if kstrStrlen path = 0 then ChildAlong (v.fs m) childNum d.root visited answer
    else ∃ offset, PathAlong (v.fs m) d.sub path d.root onWay offset ∧
      (IsDirAt (v.fs m) (offset.getD 0) →
        ChildAlong (v.fs m) childNum (d.sub (offset.getD 0)) visited answer) ∧
      (¬ IsDirAt (v.fs m) (offset.getD 0) → visited = [] ∧ answer = none)

/-- On the way of the path every directory starts where it is looked for, and its
slots follow one another on the volume up to the entry wanted or an end marker. -/
def LookupKept (path : CStr) : Prop :=
  Stays nextSlot (entryDoor (v.fs m)) d.sub
    (fun path offset => pathTurn (kindOf (v.fs m) offset) path offset)
    (fun path offset => pathTurn (kindOf (v.fs m) offset) path offset) path path
    (fatGetRootDirOffset (v.fs m)) d.root

/-- The same of the slots of one directory up to the child wanted, if there is one,
and no name of an entry before it is unreadable. -/
def ChildKept (fs : Fat) (childNum start : ℕ) (slots : List ℕ) : Prop :=
  Stays nextSlot (entryDoor fs) (fun _ => [])
    (fun childI offset => childTurn childNum (kindOf fs offset) childI)
    (fun childI offset => childOnDisk childNum (kindOf fs offset) childI offset) 0 0 start slots

def ListingKept (path : CStr) (childNum : ℕ) : Prop :=
  if kstrStrlen path = 0 then
    ChildKept (v.fs m) childNum (fatGetRootDirOffset (v.fs m)) d.root
  else LookupKept d path ∧ ∀ visited offset,
    PathAlong (v.fs m) d.sub path d.root visited (some offset) → IsDirAt (v.fs m) offset →
      ∃ start, entryDoor (v.fs m) offset = some start ∧
        ChildKept (v.fs m) childNum start (d.sub offset)

end Claim

/-- From the root on, the slots that lie one after another come to an end marker or
to the entry wanted, and so in each directory that the path enters. -/
def LookupEnds (fs : Fat) (path : CStr) : Prop :=
  ∃ visited offset, Onward nextSlot (entryDoor fs)
    (fun path offset => pathTurn (kindOf fs offset) path offset) path (fatGetRootDirOffset fs)
    visited offset

def ChildEnds (fs : Fat) (childNum start : ℕ) : Prop :=
  ∃ visited answer, Onward nextSlot (entryDoor fs)
    (fun childI offset => childTurn childNum (kindOf fs offset) childI) 0 start visited answer

def ListingEnds (fs : Fat) (path : CStr) (childNum : ℕ) : Prop :=
  if kstrStrlen path = 0 then ChildEnds fs childNum (fatGetRootDirOffset fs)
  else ∃ visited offset, Onward nextSlot (entryDoor fs)
      (fun path offset => pathTurn (kindOf fs offset) path offset) path (fatGetRootDirOffset fs)
      visited offset ∧
    (IsDirAt fs offset → ∀ start, entryDoor fs offset = some start → ChildEnds fs childNum start)

end ArduinoOS.Kernel
